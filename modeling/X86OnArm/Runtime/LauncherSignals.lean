import X86OnArm.Foundation.Machine
import Mathlib.Data.List.Basic
import Mathlib.Logic.Function.Basic

/-! # Signals to the launcher

`private_script` and `run_process` with the signals that may arrive between any two
of their steps. Outside `run_process` a signal meets the disposition the launcher was
started with; inside, the handler `forward`, whose calls may nest and hold up the
main flow while they run.
-/

namespace X86OnArm.Runtime

open Foundation

/-- The signals `run_process` handles. -/
inductive Signal where
  | int
  | term
  | hup
  | quit
  deriving DecidableEq

/-- `signals`, in order. -/
def signals : List Signal := [.int, .term, .hup, .quit]

/-- What a previous disposition does: the default one terminates, Python's own handler of
SIGINT raises, and an ignored signal returns, as a handler may. -/
inductive Previous where
  | terminates
  | raises
  | returns
  deriving DecidableEq

/-- How a child has ended. -/
inductive ChildStatus where
  | exit (code : Nat)
  | signal (number : Nat) (positive : 0 < number)
  deriving DecidableEq

/-- The number of SIGTERM is one. -/
theorem sigterm_positive : 0 < 15 := by decide

/-- `Popen.returncode`. -/
def ChildStatus.returncode : ChildStatus → Int
  | .exit code => code
  | .signal number _ => -number

/-- The exit code, or 128 plus the fatal signal. -/
def ChildStatus.reported : ChildStatus → Int
  | .exit code => code
  | .signal number _ => 128 + number

/-- `status if status >= 0 else 128 - status`. -/
def returnStatus (status : Int) : Int := if 0 ≤ status then status else 128 - status

inductive Child where
  | absent
  | running
  | exited (status : ChildStatus)
  | reaped (status : ChildStatus)
  deriving DecidableEq

/-- `Popen.poll`: reaps a child that has exited, unless the main flow is about it. -/
def Child.poll (busy : Bool) : Child → Child
  | .exited status => if busy then .exited status else .reaped status
  | .absent => .absent
  | .running => .running
  | .reaped status => .reaped status

def Child.isReaped : Child → Bool
  | .reaped _ => true
  | .absent | .running | .exited _ => false

/-- A signal `forward` was called for; the calls are numbered. -/
structure HandledSignal where
  number : Nat
  signal : Signal
  deriving DecidableEq

/-- A call of `forward`: before its test of `process`, before `pending.append`, and in
`send_signal` before its poll and before its `os.kill`. -/
inductive ForwardCall where
  | test (handled : HandledSignal)
  | append (handled : HandledSignal)
  | poll (handled : HandledSignal)
  | kill (handled : HandledSignal)
  deriving DecidableEq

def ForwardCall.handled : ForwardCall → HandledSignal
  | .test handled | .append handled | .poll handled | .kill handled => handled

/-- A finished call of `send_signal`: whether it sent, and the child it found. -/
structure SendCall where
  handled : HandledSignal
  sent : Bool
  found : Child
  deriving DecidableEq

inductive LaunchOutcome where
  | returned (status : Int)
  | raised
  deriving DecidableEq

/-- The next step of the main flow: the private directory with its finalizer, the
script, the handlers still to install, `Popen` and its assignment, the replay of the
pending signals, `wait`, the handlers still to restore, and the removal of the
directory. -/
inductive LaunchPoint where
  | mkdtemp
  | finalizer
  | openScript
  | writeScript
  | install (rest : List Signal)
  | popen
  | assign
  | replay
  | replayKill
  | wait
  | restore (rest : List Signal) (outcome : LaunchOutcome)
  | exitContext (outcome : LaunchOutcome)
  | unlink (outcome : LaunchOutcome)
  | rmdir (outcome : LaunchOutcome)
  | finish (outcome : LaunchOutcome)
  | terminated
  deriving DecidableEq

/-- Where an exception leads: out of `run_process`, and out of the context, which removes
the directory unless its finalizer is not there yet or has gone. -/
def LaunchPoint.unwound : LaunchPoint → LaunchPoint
  | .mkdtemp | .finalizer | .unlink _ | .rmdir _ | .finish _ => .finish .raised
  | .openScript | .writeScript | .install _ | .restore _ _ | .exitContext _ =>
      .exitContext .raised
  | .popen | .assign | .replay | .replayKill | .wait => .restore signals .raised
  | .terminated => .terminated

structure SignalledLaunch where
  point : LaunchPoint
  /-- The running calls of `forward`, the innermost first. -/
  calls : List ForwardCall
  /-- Whether `forward` is the handler of a signal. -/
  forwarding : Signal → Bool
  pending : List HandledSignal
  /-- How far the replay of `pending` is. -/
  replayed : Nat
  /-- The cell `process` is assigned. -/
  process : Bool
  child : Child
  handled : List HandledSignal
  sends : List SendCall
  directory : Bool
  script : Bool

inductive LaunchAction where
  /-- A step of the main flow; a failing one raises. -/
  | main (fails : Bool)
  /-- A step of the innermost call of `forward`. -/
  | forward (busy : Bool)
  | arrive (signal : Signal)
  | childExit (status : ChildStatus)
  deriving DecidableEq

namespace SignalledLaunch

def start : SignalledLaunch where
  point := .mkdtemp
  calls := []
  forwarding := fun _ => false
  pending := []
  replayed := 0
  process := false
  child := .absent
  handled := []
  sends := []
  directory := false
  script := false

def move (state : SignalledLaunch) (point : LaunchPoint) : SignalledLaunch := { state with point }

/-- `signal.signal(signum, …)`. -/
def setHandler (state : SignalledLaunch) (signal : Signal) (forwarding : Bool) :
    SignalledLaunch :=
  { state with forwarding := Function.update state.forwarding signal forwarding }

/-- A call of `send_signal` ends without sending. -/
def skip (state : SignalledLaunch) (handled : HandledSignal) : SignalledLaunch :=
  { state with sends := state.sends ++ [⟨handled, false, state.child⟩] }

/-- `os.kill` on the child, which does nothing once the child has been reaped. -/
def kill (state : SignalledLaunch) (handled : HandledSignal) : SignalledLaunch :=
  { state with sends := state.sends ++ [⟨handled, !state.child.isReaped, state.child⟩] }

/-- A step of the main flow. -/
def mainStep (state : SignalledLaunch) (fails : Bool) : Option SignalledLaunch :=
  match state.point, fails with
  | .mkdtemp, false => some { state.move .finalizer with directory := true }
  | .mkdtemp, true => some (state.move (.finish .raised))
  | .finalizer, false => some (state.move .openScript)
  | .openScript, false => some { state.move .writeScript with script := true }
  | .openScript, true => some (state.move (.exitContext .raised))
  | .writeScript, false => some (state.move (.install signals))
  | .writeScript, true => some (state.move (.exitContext .raised))
  | .install (signal :: rest), false =>
      some ((state.setHandler signal true).move (.install rest))
  | .install [], false => some (state.move .popen)
  | .popen, false => some { state.move .assign with child := .running }
  | .popen, true => some (state.move (.restore signals .raised))
  | .assign, false => some { state.move .replay with process := true }
  | .replay, false =>
      match state.pending[state.replayed]? with
      | none => some (state.move .wait)
      | some handled =>
          let polled := { state with child := state.child.poll false }
          if polled.child.isReaped then
            some { polled.skip handled with replayed := state.replayed + 1 }
          else some (polled.move .replayKill)
  | .replayKill, false =>
      state.pending[state.replayed]?.map fun handled =>
        { (state.kill handled).move .replay with replayed := state.replayed + 1 }
  | .wait, false =>
      match state.child with
      | .exited status | .reaped status => some
          { state.move (.restore signals (.returned (returnStatus status.returncode))) with
            child := .reaped status }
      | .absent | .running => none
  | .wait, true => some (state.move (.restore signals .raised))
  | .restore (signal :: rest) outcome, false =>
      some ((state.setHandler signal false).move (.restore rest outcome))
  | .restore [] outcome, false => some (state.move (.exitContext outcome))
  | .exitContext outcome, false => some (state.move (.unlink outcome))
  | .unlink outcome, false => some { state.move (.rmdir outcome) with script := false }
  | .rmdir outcome, false => some { state.move (.finish outcome) with directory := false }
  | .finish _, false => some (state.move .terminated)
  | _, _ => none

/-- A step of the innermost call of `forward`. -/
def forwardStep (state : SignalledLaunch) (busy : Bool) : Option SignalledLaunch :=
  match state.calls with
  | [] => none
  | .test handled :: rest =>
      some { state with
        calls := (if state.process then .poll handled else .append handled) :: rest }
  | .append handled :: rest =>
      some { state with calls := rest, pending := state.pending ++ [handled] }
  | .poll handled :: rest =>
      if busy = true ∧ state.point ≠ .wait then none
      else
        let polled := { state with child := state.child.poll busy }
        if polled.child.isReaped then some { polled.skip handled with calls := rest }
        else some { polled with calls := .kill handled :: rest }
  | .kill handled :: rest => some { state.kill handled with calls := rest }

/-- An exception leaves the running calls and the main flow's block. -/
def raise (state : SignalledLaunch) : SignalledLaunch :=
  { state.move state.point.unwound with calls := [] }

/-- A signal arrives between two steps. -/
def arrive (previous : Signal → Previous) (state : SignalledLaunch) (signal : Signal) :
    SignalledLaunch :=
  if state.forwarding signal then
    let handled := ⟨state.handled.length, signal⟩
    { state with calls := .test handled :: state.calls, handled := state.handled ++ [handled] }
  else
    match previous signal with
    | .returns => state
    | .raises => state.raise
    | .terminates => { state.move .terminated with calls := [] }

def step (previous : Signal → Previous) (state : SignalledLaunch) :
    LaunchAction → Option SignalledLaunch
  | .main fails => if state.calls = [] then state.mainStep fails else none
  | .forward busy => state.forwardStep busy
  | .arrive signal =>
      if state.point = .terminated then none else some (state.arrive previous signal)
  | .childExit status =>
      if state.child = .running then some { state with child := .exited status } else none

end SignalledLaunch

/-- The launcher, started with these dispositions. -/
def signalledLaunch (previous : Signal → Previous) : Machine SignalledLaunch LaunchAction :=
  ⟨SignalledLaunch.step previous⟩

/-- A poll that does not reap changes nothing. -/
theorem Child.poll_of_not_isReaped {child : Child} {busy : Bool}
    (unreaped : (child.poll busy).isReaped = false) : child.poll busy = child := by
  cases child with
  | exited status =>
      cases busy with
      | true => rfl
      | false => exact Bool.noConfusion unreaped
  | absent => rfl
  | running => rfl
  | reaped status => rfl

theorem Child.eq_reaped {child : Child} (reaped : child.isReaped = true) :
    ∃ status, child = .reaped status := by
  cases child with
  | reaped status => exact ⟨status, rfl⟩
  | absent => exact Bool.noConfusion reaped
  | running => exact Bool.noConfusion reaped
  | exited status => exact Bool.noConfusion reaped

/-- What a step of the innermost call of `forward` can do. -/
inductive ForwardEffect (state : SignalledLaunch) : SignalledLaunch → Prop
  | queue {handled : HandledSignal} {rest : List ForwardCall}
      (here : state.calls = .test handled :: rest) (unassigned : state.process = false) :
      ForwardEffect state { state with calls := .append handled :: rest }
  | send {handled : HandledSignal} {rest : List ForwardCall}
      (here : state.calls = .test handled :: rest) (assigned : state.process = true) :
      ForwardEffect state { state with calls := .poll handled :: rest }
  | append {handled : HandledSignal} {rest : List ForwardCall}
      (here : state.calls = .append handled :: rest) :
      ForwardEffect state { state with calls := rest, pending := state.pending ++ [handled] }
  | skip {handled : HandledSignal} {rest : List ForwardCall} {busy : Bool}
      {status : ChildStatus} (here : state.calls = .poll handled :: rest)
      (reaped : state.child.poll busy = .reaped status) :
      ForwardEffect state { ({ state with child := .reaped status }.skip handled) with
        calls := rest }
  | poll {handled : HandledSignal} {rest : List ForwardCall}
      (here : state.calls = .poll handled :: rest) :
      ForwardEffect state { state with calls := .kill handled :: rest }
  | kill {handled : HandledSignal} {rest : List ForwardCall}
      (here : state.calls = .kill handled :: rest) :
      ForwardEffect state { state.kill handled with calls := rest }

namespace SignalledLaunch

variable {state after : SignalledLaunch}

theorem forwardEffect_of_forwardStep {busy : Bool}
    (stepped : state.forwardStep busy = some after) : ForwardEffect state after := by
  unfold forwardStep at stepped
  split at stepped
  next => cases stepped
  next handled rest here =>
    cases stepped
    by_cases assigned : state.process = true
    · rw [if_pos assigned]
      exact .send here assigned
    · rw [if_neg assigned]
      exact .queue here (eq_false_of_ne_true assigned)
  next handled rest here =>
    cases stepped
    exact .append here
  next handled rest here =>
    split at stepped
    next => cases stepped
    next =>
      simp only at stepped
      split at stepped
      next reaped =>
        obtain ⟨status, polled⟩ := Child.eq_reaped reaped
        cases stepped
        rw [polled]
        exact .skip here polled
      next unreaped =>
        cases stepped
        rw [Child.poll_of_not_isReaped (eq_false_of_ne_true unreaped)]
        exact .poll here
  next handled rest here =>
    cases stepped
    exact .kill here

end SignalledLaunch

/-- A call of `forward` leaves the main flow and the files where they are. -/
theorem ForwardEffect.files {state after : SignalledLaunch}
    (effect : ForwardEffect state after) :
    after.point = state.point ∧ after.directory = state.directory ∧
      after.script = state.script := by
  cases effect with
  | queue | send | append | skip | poll | kill => exact ⟨rfl, rfl, rfl⟩

end X86OnArm.Runtime
