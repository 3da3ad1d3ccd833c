import X86OnArm.Runtime.LauncherSignals
import Mathlib.Data.List.Perm.Basic
import Mathlib.Data.List.Nodup

/-! # Forwarding to the child

A signal that `forward` handles is queued while there is no process to send it to and
sent otherwise; the queue is replayed once the process is there. Every handled signal
is in one place: an unfinished call, the rest of the queue, or a finished call of
`send_signal` (`SignalledLaunch.Ledger`). So when `run_process` is left each of them
has reached `send_signal` once (`runProcess_forwards`), which sends it unless the
child has exited by then.
-/

namespace X86OnArm.Runtime

open Foundation

/-- The main flow is outside `run_process`. -/
def LaunchPoint.outside : LaunchPoint → Bool
  | .mkdtemp | .finalizer | .openScript | .writeScript | .exitContext _ | .unlink _ | .rmdir _
  | .finish _ => true
  | .install _ | .popen | .assign | .replay | .replayKill | .wait | .restore _ _
  | .terminated => false

/-- The handlers are being installed or restored. -/
def LaunchPoint.switching : LaunchPoint → Bool
  | .install _ | .restore _ _ => true
  | .mkdtemp | .finalizer | .openScript | .writeScript | .popen | .assign | .replay
  | .replayKill | .wait | .exitContext _ | .unlink _ | .rmdir _ | .finish _
  | .terminated => false

/-- The signals whose handlers are still to switch. -/
def LaunchPoint.unswitched : LaunchPoint → List Signal
  | .install rest | .restore rest _ => rest
  | .mkdtemp | .finalizer | .openScript | .writeScript | .popen | .assign | .replay
  | .replayKill | .wait | .exitContext _ | .unlink _ | .rmdir _ | .finish _
  | .terminated => []

/-- Whether `forward` handles a signal at this point. -/
def LaunchPoint.forwards (point : LaunchPoint) (signal : Signal) : Bool :=
  match point with
  | .mkdtemp | .finalizer | .openScript | .writeScript | .exitContext _ | .unlink _ | .rmdir _
  | .finish _ | .terminated => false
  | .install rest => !rest.contains signal
  | .popen | .assign | .replay | .replayKill | .wait => true
  | .restore rest _ => rest.contains signal

/-- No previous handler raises while the handlers are being installed or restored. -/
def Unbroken (previous : Signal → Previous) (state : SignalledLaunch) : LaunchAction → Prop
  | .arrive signal => state.point.switching = true →
      state.forwarding signal = true ∨ previous signal ≠ .raises
  | .main _ | .forward _ | .childExit _ => True

/-- The moves of the main flow that concern neither a handler nor the child. -/
inductive LaunchPoint.Edge : LaunchPoint → LaunchPoint → Prop
  | made : Edge .mkdtemp .finalizer
  | refused : Edge .mkdtemp (.finish .raised)
  | registered : Edge .finalizer .openScript
  | opened : Edge .openScript .writeScript
  | unopened : Edge .openScript (.exitContext .raised)
  | written : Edge .writeScript (.install signals)
  | unwritten : Edge .writeScript (.exitContext .raised)
  | installed : Edge (.install []) .popen
  | unstarted : Edge .popen (.restore signals .raised)
  | unwaited : Edge .wait (.restore signals .raised)
  | restored (outcome : LaunchOutcome) : Edge (.restore [] outcome) (.exitContext outcome)
  | detached (outcome : LaunchOutcome) : Edge (.exitContext outcome) (.unlink outcome)
  | unlinked (outcome : LaunchOutcome) : Edge (.unlink outcome) (.rmdir outcome)
  | removed (outcome : LaunchOutcome) : Edge (.rmdir outcome) (.finish outcome)
  | ended (outcome : LaunchOutcome) : Edge (.finish outcome) .terminated

/-- What a step of the main flow can do. -/
inductive MainEffect (state : SignalledLaunch) : SignalledLaunch → Prop
  | edge {later : LaunchPoint} (edge : state.point.Edge later) (directory script : Bool) :
      MainEffect state { state with point := later, directory, script }
  | install {signal : Signal} {rest : List Signal}
      (here : state.point = .install (signal :: rest)) :
      MainEffect state ((state.setHandler signal true).move (.install rest))
  | restore {signal : Signal} {rest : List Signal} {outcome : LaunchOutcome}
      (here : state.point = .restore (signal :: rest) outcome) :
      MainEffect state ((state.setHandler signal false).move (.restore rest outcome))
  | popen (here : state.point = .popen) :
      MainEffect state { state.move .assign with child := .running }
  | assign (here : state.point = .assign) :
      MainEffect state { state.move .replay with process := true }
  | exhausted (here : state.point = .replay) (exhausted : state.pending[state.replayed]? = none) :
      MainEffect state (state.move .wait)
  | skip {handled : HandledSignal} {status : ChildStatus} (here : state.point = .replay)
      (next : state.pending[state.replayed]? = some handled)
      (reaped : state.child.poll false = .reaped status) :
      MainEffect state { ({ state with child := .reaped status }.skip handled) with
        replayed := state.replayed + 1 }
  | poll {handled : HandledSignal} (here : state.point = .replay)
      (next : state.pending[state.replayed]? = some handled)
      (unreaped : (state.child.poll false).isReaped = false) :
      MainEffect state (state.move .replayKill)
  | kill {handled : HandledSignal} (here : state.point = .replayKill)
      (next : state.pending[state.replayed]? = some handled) :
      MainEffect state { (state.kill handled).move .replay with replayed := state.replayed + 1 }
  | wait {status : ChildStatus} (here : state.point = .wait)
      (ended : state.child = .exited status ∨ state.child = .reaped status) :
      MainEffect state
        { state.move (.restore signals (.returned (returnStatus status.returncode))) with
          child := .reaped status }

private theorem ForwardEffect.frame {state after : SignalledLaunch}
    (effect : ForwardEffect state after) :
    after.point = state.point ∧ after.forwarding = state.forwarding ∧ state.calls ≠ [] := by
  cases effect with
  | queue here => exact ⟨rfl, rfl, by rw [here]; exact List.cons_ne_nil _ _⟩
  | send here => exact ⟨rfl, rfl, by rw [here]; exact List.cons_ne_nil _ _⟩
  | append here => exact ⟨rfl, rfl, by rw [here]; exact List.cons_ne_nil _ _⟩
  | skip here => exact ⟨rfl, rfl, by rw [here]; exact List.cons_ne_nil _ _⟩
  | poll here => exact ⟨rfl, rfl, by rw [here]; exact List.cons_ne_nil _ _⟩
  | kill here => exact ⟨rfl, rfl, by rw [here]; exact List.cons_ne_nil _ _⟩

namespace SignalledLaunch

variable {previous : Signal → Previous} {state after : SignalledLaunch}

private theorem mainEffect_of_edge {before later : LaunchPoint} (here : state.point = before)
    (edge : before.Edge later) (directory script : Bool) :
    MainEffect state { state with point := later, directory, script } := by
  subst here
  exact .edge edge directory script

private theorem mainEffect_of_mainStep {fails : Bool}
    (stepped : state.mainStep fails = some after) :
    MainEffect state after := by
  cases here : state.point <;> cases fails <;>
    simp only [SignalledLaunch.mainStep, here] at stepped
  case install.false rest =>
    cases rest with
    | nil =>
        cases stepped
        exact mainEffect_of_edge here .installed _ _
    | cons signal rest =>
        cases stepped
        exact .install here
  case restore.false rest outcome =>
    cases rest with
    | nil =>
        cases stepped
        exact mainEffect_of_edge here (.restored outcome) _ _
    | cons signal rest =>
        cases stepped
        exact .restore here
  case popen.false =>
    cases stepped
    exact .popen here
  case assign.false =>
    cases stepped
    exact .assign here
  case replay.false =>
    split at stepped
    next exhausted =>
      cases stepped
      exact .exhausted here exhausted
    next handled next =>
      split at stepped
      next reaped =>
        obtain ⟨status, polled⟩ := Child.eq_reaped reaped
        cases stepped
        rw [polled, ← here]
        exact .skip here next polled
      next unreaped =>
        cases stepped
        have unreaped := eq_false_of_ne_true unreaped
        rw [Child.poll_of_not_isReaped unreaped, ← here]
        exact .poll here next unreaped
  case replayKill.false =>
    obtain ⟨handled, next, rfl⟩ := Option.map_eq_some_iff.mp stepped
    exact .kill here next
  case wait.false =>
    split at stepped
    next status ended =>
      cases stepped
      exact .wait here (.inl ended)
    next status ended =>
      cases stepped
      exact .wait here (.inr ended)
    next => cases stepped
    next => cases stepped
  all_goals cases stepped
  case mkdtemp.false => exact mainEffect_of_edge here .made _ _
  case mkdtemp.true => exact mainEffect_of_edge here .refused _ _
  case finalizer.false => exact mainEffect_of_edge here .registered _ _
  case openScript.false => exact mainEffect_of_edge here .opened _ _
  case openScript.true => exact mainEffect_of_edge here .unopened _ _
  case writeScript.false => exact mainEffect_of_edge here .written _ _
  case writeScript.true => exact mainEffect_of_edge here .unwritten _ _
  case popen.true => exact mainEffect_of_edge here .unstarted _ _
  case wait.true => exact mainEffect_of_edge here .unwaited _ _
  case exitContext.false outcome => exact mainEffect_of_edge here (.detached outcome) _ _
  case unlink.false outcome => exact mainEffect_of_edge here (.unlinked outcome) _ _
  case rmdir.false outcome => exact mainEffect_of_edge here (.removed outcome) _ _
  case finish.false outcome => exact mainEffect_of_edge here (.ended outcome) _ _

/-- The dispositions are those of the point, and outside `run_process` no call runs. -/
structure Handlers (state : SignalledLaunch) : Prop where
  forwarding : state.point ≠ .terminated →
    ∀ signal, state.forwarding signal = state.point.forwards signal
  distinct : state.point.unswitched.Nodup
  quiet : state.point.outside = true → state.calls = []

private theorem forwards_of_edge {before later : LaunchPoint} (edge : before.Edge later)
    (signal : Signal) : later.forwards signal = before.forwards signal := by
  cases edge <;> cases signal <;> rfl

private theorem unswitched_of_edge {before later : LaunchPoint} (edge : before.Edge later) :
    later.unswitched.Nodup := by
  cases edge <;> simp only [LaunchPoint.unswitched] <;> decide

private theorem ne_terminated_of_edge {before later : LaunchPoint} (edge : before.Edge later) :
    before ≠ .terminated := by
  cases edge <;> exact nofun

/-- One handler switches. -/
theorem Handlers.switch {signal : Signal} {rest : List Signal} {later : LaunchPoint}
    {forwarding : Bool} (handlers : state.Handlers) (idle : state.calls = [])
    (running : state.point ≠ .terminated)
    (here : state.point.unswitched = signal :: rest) (there : later.unswitched = rest)
    (before : ∀ other, state.point.forwards other = ((signal :: rest).contains other != forwarding))
    (after : ∀ other, later.forwards other = (rest.contains other != forwarding)) :
    ((state.setHandler signal forwarding).move later).Handlers where
  forwarding := by
    intro _ other
    have distinct := handlers.distinct
    rw [here] at distinct
    obtain ⟨fresh, -⟩ := List.nodup_cons.mp distinct
    change Function.update state.forwarding signal forwarding other = later.forwards other
    rw [after]
    by_cases same : other = signal
    · subst same
      rw [Function.update_self, List.contains_eq_mem, decide_eq_false fresh, Bool.false_bne]
    · rw [Function.update_of_ne same, handlers.forwarding running, before, List.contains_cons,
        beq_false_of_ne same, Bool.false_or]
  distinct := by
    have distinct := handlers.distinct
    rw [here] at distinct
    change later.unswitched.Nodup
    rw [there]
    exact (List.nodup_cons.mp distinct).2
  quiet := fun _ => idle

/-- A step that switches no handler and starts no call. -/
theorem Handlers.moved (handlers : state.Handlers) {before : LaunchPoint}
    (idle : after.calls = []) (here : state.point = before)
    (forwarding : after.forwarding = state.forwarding) (running : before ≠ .terminated)
    (same : ∀ signal, after.point.forwards signal = before.forwards signal)
    (distinct : after.point.unswitched.Nodup) : after.Handlers where
  forwarding := by
    intro _ signal
    rw [forwarding, same, ← here]
    exact handlers.forwarding (here ▸ running) signal
  distinct := distinct
  quiet := fun _ => idle

private theorem Handlers.mainStep (handlers : state.Handlers) (idle : state.calls = [])
    (effect : MainEffect state after) : after.Handlers := by
  cases effect with
  | edge edge directory script =>
      exact handlers.moved idle rfl rfl (ne_terminated_of_edge edge) (forwards_of_edge edge)
        (unswitched_of_edge edge)
  | @install signal rest here =>
      apply handlers.switch idle (by rw [here]; exact nofun) (by rw [here]; rfl) rfl
      · intro other
        rw [here, Bool.bne_true]
        rfl
      · intro other
        rw [Bool.bne_true]
        rfl
  | @restore signal rest outcome here =>
      apply handlers.switch idle (by rw [here]; exact nofun) (by rw [here]; rfl) rfl
      · intro other
        rw [here, Bool.bne_false]
        rfl
      · intro other
        rw [Bool.bne_false]
        rfl
  | popen here => exact handlers.moved idle here rfl nofun (fun _ => rfl) List.nodup_nil
  | assign here => exact handlers.moved idle here rfl nofun (fun _ => rfl) List.nodup_nil
  | exhausted here => exact handlers.moved idle here rfl nofun (fun _ => rfl) List.nodup_nil
  | skip here =>
      refine handlers.moved idle here rfl nofun (fun signal => ?_) ?_
      · change state.point.forwards signal = _
        rw [here]
      · change state.point.unswitched.Nodup
        rw [here]
        exact List.nodup_nil
  | poll here => exact handlers.moved idle here rfl nofun (fun _ => rfl) List.nodup_nil
  | kill here => exact handlers.moved idle here rfl nofun (fun _ => rfl) List.nodup_nil
  | wait here =>
      have distinct : signals.Nodup := by decide
      refine handlers.moved idle here rfl nofun (fun signal => ?_) distinct
      cases signal <;> rfl

private theorem Handlers.forwardStep (handlers : state.Handlers)
    (effect : ForwardEffect state after) :
    after.Handlers := by
  obtain ⟨point, forwarding, running⟩ := effect.frame
  refine ⟨?_, ?_, ?_⟩
  · rw [point, forwarding]
    exact handlers.forwarding
  · rw [point]
    exact handlers.distinct
  · rw [point]
    exact fun outside => absurd (handlers.quiet outside) running

private theorem outside_of_unforwarded {point : LaunchPoint} {signal : Signal}
    (running : point ≠ .terminated) (steady : point.switching = false)
    (unforwarded : point.forwards signal = false) : point.outside = true := by
  cases point <;>
    first
    | rfl
    | exact absurd rfl running
    | exact Bool.noConfusion steady
    | exact Bool.noConfusion unforwarded

private theorem ne_terminated_of_outside {point : LaunchPoint} (outside : point.outside = true) :
    point ≠ .terminated := by
  rintro rfl
  cases outside

private theorem forwards_of_outside {point : LaunchPoint} (outside : point.outside = true)
    (signal : Signal) : point.forwards signal = false := by
  cases point <;> first | rfl | exact Bool.noConfusion outside

/-- Outside `run_process` an exception stays outside. -/
theorem outside_unwound {point : LaunchPoint} (outside : point.outside = true) :
    point.unwound = .finish .raised ∨ point.unwound = .exitContext .raised := by
  cases point <;> first | exact .inl rfl | exact .inr rfl | exact Bool.noConfusion outside

/-- What an arriving signal does in a run in which no previous handler raises while the
handlers switch. -/
inductive ArrivalEffect (state : SignalledLaunch) : SignalledLaunch → Prop
  | forwarded {signal : Signal} (handles : state.point.forwards signal = true) :
      ArrivalEffect state
        { state with
          calls := .test ⟨state.handled.length, signal⟩ :: state.calls
          handled := state.handled ++ [⟨state.handled.length, signal⟩] }
  | returned : ArrivalEffect state state
  | raised {later : LaunchPoint} (outside : state.point.outside = true)
      (leads : later = .finish .raised ∨ later = .exitContext .raised) :
      ArrivalEffect state { state.move later with calls := [] }
  | terminated : ArrivalEffect state { state.move .terminated with calls := [] }

private theorem arrivalEffect_of_arrive {signal : Signal} (handlers : state.Handlers)
    (unbroken : Unbroken previous state (.arrive signal)) (running : state.point ≠ .terminated) :
    ArrivalEffect state (state.arrive previous signal) := by
  have disposition := handlers.forwarding running signal
  unfold SignalledLaunch.arrive
  by_cases forwarded : state.forwarding signal = true
  · rw [if_pos forwarded]
    exact .forwarded (disposition ▸ forwarded)
  · rw [if_neg forwarded]
    cases does : previous signal with
    | returns => exact .returned
    | terminates => exact .terminated
    | raises =>
        have steady : state.point.switching = false := by
          apply eq_false_of_ne_true
          intro switching
          exact (unbroken switching).elim forwarded fun other => other does
        have outside := outside_of_unforwarded running steady
          (disposition ▸ eq_false_of_ne_true forwarded)
        exact .raised outside (outside_unwound outside)

private theorem Handlers.arrive (handlers : state.Handlers) (running : state.point ≠ .terminated)
    (effect : ArrivalEffect state after) : after.Handlers := by
  cases effect with
  | @forwarded signal handles =>
      refine ⟨handlers.forwarding, handlers.distinct, fun outside => ?_⟩
      cases handles.symm.trans (forwards_of_outside outside signal)
  | returned => exact handlers
  | raised outside leads =>
      refine handlers.moved rfl rfl rfl running (fun signal => ?_) ?_
      · rw [forwards_of_outside outside]
        rcases leads with rfl | rfl <;> rfl
      · rcases leads with rfl | rfl <;> exact List.nodup_nil
  | terminated => exact ⟨fun impossible => absurd rfl impossible, List.nodup_nil, fun _ => rfl⟩

end SignalledLaunch

/-- Whether the cell `process` is assigned, where the point tells. -/
def LaunchPoint.assigned : LaunchPoint → Option Bool
  | .mkdtemp | .finalizer | .openScript | .writeScript | .install _ | .popen | .assign =>
      some false
  | .replay | .replayKill | .wait => some true
  | .restore _ _ | .exitContext _ | .unlink _ | .rmdir _ | .finish _ | .terminated => none

/-- How `run_process` has been left. -/
def LaunchPoint.outcome : LaunchPoint → Option LaunchOutcome
  | .restore _ outcome | .exitContext outcome | .unlink outcome | .rmdir outcome
  | .finish outcome => some outcome
  | .mkdtemp | .finalizer | .openScript | .writeScript | .install _ | .popen | .assign | .replay
  | .replayKill | .wait | .terminated => none

/-- A call appends only while there is no process, and sends only to one. -/
def ForwardCall.Fits (process : Bool) : ForwardCall → Prop
  | .test _ => True
  | .append _ => process = false
  | .poll _ | .kill _ => process = true

/-- A call of `send_signal` that sent found the child there, exited or not, and one that
did not send found it reaped. -/
def SendCall.Proper (send : SendCall) : Prop :=
  if send.sent = true then send.found = .running ∨ ∃ status, send.found = .exited status
  else ∃ status, send.found = .reaped status

private theorem SendCall.proper_of_kill (handled : HandledSignal) {child : Child}
    (there : child ≠ .absent) : (⟨handled, !child.isReaped, child⟩ : SendCall).Proper := by
  cases child with
  | absent => exact absurd rfl there
  | running => exact .inl rfl
  | exited status => exact .inr ⟨status, rfl⟩
  | reaped status => exact ⟨status, rfl⟩

/-- The status `run_process` returns is the child's exit code, or 128 plus its signal. -/
theorem returnStatus_returncode (status : ChildStatus) :
    returnStatus status.returncode = status.reported := by
  cases status with
  | exit code => exact if_pos (Int.natCast_nonneg code)
  | signal number positive =>
      change (if 0 ≤ -(number : Int) then -(number : Int) else 128 - -(number : Int)) =
        128 + (number : Int)
      rw [if_neg (by omega)]
      omega

namespace SignalledLaunch

variable {previous : Signal → Previous} {state after : SignalledLaunch}

/-- The cell `process`, the child and the calls agree. -/
structure Cells (state : SignalledLaunch) : Prop where
  process : ∀ value, state.point.assigned = some value → state.process = value
  child : state.process = true ∨ state.point = .assign → state.child ≠ .absent
  calls : ∀ call ∈ state.calls, call.Fits state.process
  sends : ∀ send ∈ state.sends, send.Proper
  outcome : ∀ status, state.point.outcome = some (.returned status) →
    ∃ ended, state.child = .reaped ended ∧ status = ended.reported

private theorem assigned_of_edge {before later : LaunchPoint} (edge : before.Edge later)
    {value : Bool}
    (assigned : later.assigned = some value) : before.assigned = some value := by
  cases edge <;> first | exact assigned | cases assigned

private theorem outcome_of_edge {before later : LaunchPoint} (edge : before.Edge later)
    {status : Int}
    (outcome : later.outcome = some (.returned status)) :
    before.outcome = some (.returned status) := by
  cases edge <;> first | exact outcome | cases outcome

private theorem ne_assign_of_edge {before later : LaunchPoint} (edge : before.Edge later) :
    later ≠ .assign := by
  cases edge <;> exact nofun

private theorem forall_mem_append_singleton {sends : List SendCall} {send : SendCall}
    (proper : ∀ send ∈ sends, send.Proper) (last : send.Proper) :
    ∀ other ∈ sends ++ [send], other.Proper := by
  rw [List.forall_mem_append, List.forall_mem_singleton]
  exact ⟨proper, last⟩

private theorem Cells.mainStep (cells : state.Cells) (idle : state.calls = [])
    (effect : MainEffect state after) : after.Cells := by
  have calls {process : Bool} : ∀ call ∈ state.calls, call.Fits process := by
    rw [idle]
    exact fun call member => absurd member List.not_mem_nil
  cases effect with
  | edge edge directory script =>
      refine ⟨fun value assigned => cells.process value (assigned_of_edge edge assigned), ?_,
        calls, cells.sends, fun status outcome =>
        cells.outcome status (outcome_of_edge edge outcome)⟩
      exact fun either => cells.child (.inl (either.resolve_right (ne_assign_of_edge edge)))
  | install here =>
      refine ⟨fun value assigned => cells.process value (by rw [here]; exact assigned), ?_, calls,
        cells.sends, nofun⟩
      exact fun either => cells.child (.inl (either.resolve_right nofun))
  | restore here =>
      refine ⟨nofun, ?_, calls, cells.sends, fun status outcome =>
        cells.outcome status (by rw [here]; exact outcome)⟩
      exact fun either => cells.child (.inl (either.resolve_right nofun))
  | popen here =>
      have unassigned := cells.process false (by rw [here]; rfl)
      refine ⟨?_, fun _ => nofun, calls, cells.sends, nofun⟩
      rintro value ⟨⟩
      exact unassigned
  | assign here =>
      refine ⟨?_, fun _ => cells.child (.inr here), calls, cells.sends, nofun⟩
      rintro value ⟨⟩
      rfl
  | exhausted here exhausted =>
      have assigned := cells.process true (by rw [here]; rfl)
      refine ⟨?_, fun _ => cells.child (.inl assigned), calls, cells.sends, nofun⟩
      rintro value ⟨⟩
      exact assigned
  | @skip handled status here next reaped =>
      refine ⟨cells.process, fun _ => nofun, calls, ?_, ?_⟩
      · exact forall_mem_append_singleton cells.sends ⟨status, rfl⟩
      · intro status outcome
        change state.point.outcome = _ at outcome
        rw [here] at outcome
        cases outcome
  | poll here next unreaped =>
      have assigned := cells.process true (by rw [here]; rfl)
      refine ⟨?_, fun _ => cells.child (.inl assigned), calls, cells.sends, nofun⟩
      rintro value ⟨⟩
      exact assigned
  | @kill handled here next =>
      have assigned := cells.process true (by rw [here]; rfl)
      have there := cells.child (.inl assigned)
      refine ⟨?_, fun _ => there, calls, ?_, nofun⟩
      · rintro value ⟨⟩
        exact assigned
      · exact forall_mem_append_singleton cells.sends (SendCall.proper_of_kill handled there)
  | @wait status here ended =>
      refine ⟨nofun, fun _ => nofun, calls, cells.sends, ?_⟩
      rintro returned ⟨⟩
      exact ⟨status, rfl, returnStatus_returncode status⟩

private theorem Cells.calling {call : ForwardCall} {rest : List ForwardCall} (cells : state.Cells)
    (here : state.calls = call :: rest) :
    call.Fits state.process ∧ ∀ other ∈ rest, other.Fits state.process := by
  have calls := cells.calls
  rw [here] at calls
  exact List.forall_mem_cons.mp calls

private theorem Cells.forwardStep (cells : state.Cells) (effect : ForwardEffect state after) :
    after.Cells := by
  cases effect with
  | queue here unassigned =>
      refine ⟨cells.process, cells.child, ?_, cells.sends, cells.outcome⟩
      exact List.forall_mem_cons.mpr ⟨unassigned, (cells.calling here).2⟩
  | send here assigned =>
      refine ⟨cells.process, cells.child, ?_, cells.sends, cells.outcome⟩
      exact List.forall_mem_cons.mpr ⟨assigned, (cells.calling here).2⟩
  | append here =>
      exact ⟨cells.process, cells.child, (cells.calling here).2, cells.sends, cells.outcome⟩
  | @skip handled rest busy status here reaped =>
      refine ⟨cells.process, fun _ => nofun, (cells.calling here).2, ?_, ?_⟩
      · exact forall_mem_append_singleton cells.sends ⟨status, rfl⟩
      · intro returned outcome
        obtain ⟨ended, same, reported⟩ := cells.outcome returned outcome
        rw [same] at reaped
        cases Child.reaped.inj reaped
        exact ⟨_, rfl, reported⟩
  | poll here =>
      obtain ⟨assigned, others⟩ := cells.calling here
      exact ⟨cells.process, cells.child, List.forall_mem_cons.mpr ⟨assigned, others⟩, cells.sends,
        cells.outcome⟩
  | @kill handled rest here =>
      obtain ⟨assigned, others⟩ := cells.calling here
      refine ⟨cells.process, cells.child, others, ?_, cells.outcome⟩
      exact forall_mem_append_singleton cells.sends
        (SendCall.proper_of_kill handled (cells.child (.inl assigned)))

private theorem Cells.arrive (cells : state.Cells) (effect : ArrivalEffect state after) :
    after.Cells := by
  have none : ∀ call ∈ ([] : List ForwardCall), call.Fits state.process :=
    fun call member => absurd member List.not_mem_nil
  cases effect with
  | forwarded handles =>
      exact ⟨cells.process, cells.child, List.forall_mem_cons.mpr ⟨trivial, cells.calls⟩,
        cells.sends, cells.outcome⟩
  | returned => exact cells
  | raised outside leads =>
      refine ⟨?_, fun either => cells.child (.inl (either.resolve_right ?_)), none, cells.sends,
        ?_⟩
      · rcases leads with rfl | rfl <;> exact nofun
      · rcases leads with rfl | rfl <;> exact nofun
      · rcases leads with rfl | rfl <;> exact nofun
  | terminated =>
      exact ⟨nofun, fun either => cells.child (.inl (either.resolve_right nofun)), none,
        cells.sends, nofun⟩

private theorem Cells.childExit (cells : state.Cells) (running : state.child = .running)
    (status : ChildStatus) : ({ state with child := .exited status } : SignalledLaunch).Cells where
  process := cells.process
  child := fun _ => nofun
  calls := cells.calls
  sends := cells.sends
  outcome := by
    intro returned outcome
    obtain ⟨ended, same, -⟩ := cells.outcome returned outcome
    cases running.symm.trans same

end SignalledLaunch

/-- The replay is over, or `run_process` was left before it. -/
def LaunchPoint.replayOver : LaunchPoint → Bool
  | .wait | .restore _ _ | .exitContext _ | .unlink _ | .rmdir _ | .finish _ => true
  | .mkdtemp | .finalizer | .openScript | .writeScript | .install _ | .popen | .assign | .replay
  | .replayKill | .terminated => false

namespace SignalledLaunch

variable {previous : Signal → Previous} {state after : SignalledLaunch}

/-- The handled signals in the order of their places: finished calls of `send_signal`,
running calls of `forward`, and the rest of the queue. -/
def places (state : SignalledLaunch) : List HandledSignal :=
  state.sends.map SendCall.handled ++ state.calls.map ForwardCall.handled ++
    state.pending.drop state.replayed

/-- Every handled signal is in one place. -/
structure Ledger (state : SignalledLaunch) : Prop where
  places : state.point ≠ .terminated → state.places.Perm state.handled
  replayed : state.replayed ≤ state.pending.length
  exhausted : state.point.replayOver = true → state.process = true →
    state.pending.length ≤ state.replayed
  numbered : state.handled.map HandledSignal.number = List.range state.handled.length

private theorem replayOver_of_edge {before later : LaunchPoint} (edge : before.Edge later)
    (exhausted : later.replayOver = true) :
    before.replayOver = true ∨ before.assigned = some false := by
  cases edge <;> first | exact .inl rfl | exact .inr rfl

private theorem replayOver_of_outside {point : LaunchPoint} (outside : point.outside = true) :
    point.replayOver = true ∨ point.assigned = some false := by
  cases point <;> first | exact .inl rfl | exact .inr rfl | exact Bool.noConfusion outside

/-- A step that moves no signal. -/
theorem Ledger.moved (ledger : state.Ledger) (running : state.point ≠ .terminated)
    (places : after.places = state.places) (handled : after.handled = state.handled)
    (replayed : after.replayed = state.replayed) (pending : after.pending = state.pending)
    (exhausted : after.point.replayOver = true → after.process = true →
      state.pending.length ≤ state.replayed) : after.Ledger where
  places := by
    intro _
    rw [places, handled]
    exact ledger.places running
  replayed := by
    rw [replayed, pending]
    exact ledger.replayed
  exhausted := by
    rw [replayed, pending]
    exact exhausted
  numbered := by
    rw [handled]
    exact ledger.numbered

/-- The replay takes the next signal of the queue. -/
theorem Ledger.replay {handled : HandledSignal} (ledger : state.Ledger)
    (running : state.point ≠ .terminated) (idle : state.calls = [])
    (next : state.pending[state.replayed]? = some handled)
    (sends : after.sends.map SendCall.handled =
      state.sends.map SendCall.handled ++ [handled])
    (calls : after.calls = state.calls) (pending : after.pending = state.pending)
    (replayed : after.replayed = state.replayed + 1) (same : after.handled = state.handled)
    (unfinished : after.point.replayOver = false) : after.Ledger where
  places := by
    intro _
    have before := ledger.places running
    obtain ⟨bound, entry⟩ := List.getElem?_eq_some_iff.mp next
    unfold SignalledLaunch.places at before ⊢
    rw [idle, List.map_nil, List.append_nil, List.drop_eq_getElem_cons bound, entry] at before
    rw [sends, calls, idle, pending, replayed, same, List.map_nil, List.append_nil,
      List.append_assoc, List.singleton_append]
    exact before
  replayed := by
    rw [pending, replayed]
    exact (List.getElem?_eq_some_iff.mp next).1
  exhausted := fun exhausted => Bool.noConfusion (unfinished.symm.trans exhausted)
  numbered := by
    rw [same]
    exact ledger.numbered

private theorem Ledger.mainStep (ledger : state.Ledger) (cells : state.Cells)
    (idle : state.calls = [])
    (effect : MainEffect state after) : after.Ledger := by
  cases effect with
  | edge edge directory script =>
      refine ledger.moved (ne_terminated_of_edge edge) rfl rfl rfl rfl fun exhausted assigned => ?_
      rcases replayOver_of_edge edge exhausted with before | unassigned
      · exact ledger.exhausted before assigned
      · cases (cells.process false unassigned).symm.trans assigned
  | install here => exact ledger.moved (by rw [here]; exact nofun) rfl rfl rfl rfl nofun
  | restore here =>
      exact ledger.moved (by rw [here]; exact nofun) rfl rfl rfl rfl fun _ =>
        ledger.exhausted (by rw [here]; rfl)
  | popen here => exact ledger.moved (by rw [here]; exact nofun) rfl rfl rfl rfl nofun
  | assign here => exact ledger.moved (by rw [here]; exact nofun) rfl rfl rfl rfl nofun
  | exhausted here exhausted =>
      exact ledger.moved (by rw [here]; exact nofun) rfl rfl rfl rfl fun _ _ =>
        List.getElem?_eq_none_iff.mp exhausted
  | skip here next reaped =>
      refine ledger.replay (by rw [here]; exact nofun) idle next ?_ rfl rfl rfl rfl ?_
      · exact List.map_append
      · change state.point.replayOver = false
        rw [here]
        rfl
  | poll here => exact ledger.moved (by rw [here]; exact nofun) rfl rfl rfl rfl nofun
  | kill here next =>
      exact ledger.replay (by rw [here]; exact nofun) idle next List.map_append rfl rfl rfl rfl rfl
  | wait here =>
      exact ledger.moved (by rw [here]; exact nofun) rfl rfl rfl rfl fun _ =>
        ledger.exhausted (by rw [here]; rfl)

/-- The innermost call ends in `send_signal`. -/
theorem Ledger.sent {handled : HandledSignal} {call : ForwardCall} {rest : List ForwardCall}
    (ledger : state.Ledger) (here : state.calls = call :: rest) (of : call.handled = handled)
    (sends : after.sends.map SendCall.handled = state.sends.map SendCall.handled ++ [handled])
    (calls : after.calls = rest) (pending : after.pending = state.pending)
    (replayed : after.replayed = state.replayed) (same : after.handled = state.handled)
    (point : after.point = state.point) (process : after.process = state.process) :
    after.Ledger where
  places := by
    intro running
    have before := ledger.places (point ▸ running)
    unfold SignalledLaunch.places at before ⊢
    rw [here, List.map_cons, of, ← List.singleton_append, ← List.append_assoc] at before
    rw [sends, calls, pending, replayed, same]
    exact before
  replayed := by
    rw [pending, replayed]
    exact ledger.replayed
  exhausted := by
    rw [point, process, pending, replayed]
    exact ledger.exhausted
  numbered := by
    rw [same]
    exact ledger.numbered

/-- The innermost call goes on with its signal. -/
theorem Ledger.called {call next : ForwardCall} {rest : List ForwardCall} (ledger : state.Ledger)
    (here : state.calls = call :: rest) (same : next.handled = call.handled) :
    ({ state with calls := next :: rest } : SignalledLaunch).Ledger where
  places := by
    intro running
    have before := ledger.places running
    unfold SignalledLaunch.places at before ⊢
    rw [here, List.map_cons, ← same] at before
    exact before
  replayed := ledger.replayed
  exhausted := ledger.exhausted
  numbered := ledger.numbered

private theorem Ledger.forwardStep (ledger : state.Ledger) (cells : state.Cells)
    (effect : ForwardEffect state after) : after.Ledger := by
  cases effect with
  | queue here => exact ledger.called here rfl
  | send here => exact ledger.called here rfl
  | @append handled rest here =>
      have unassigned : state.process = false := (cells.calling here).1
      refine ⟨fun running => ?_, ?_, fun _ assigned => ?_, ledger.numbered⟩
      · -- The signal goes from the call to the end of the queue.
        have before := ledger.places running
        unfold SignalledLaunch.places at before ⊢
        rw [here, List.map_cons] at before
        simp only
        rw [List.drop_append_of_le_length ledger.replayed, ← List.append_assoc]
        refine .trans ?_ before
        rw [List.append_assoc, List.append_assoc, List.append_assoc]
        apply List.Perm.append_left
        rw [← List.append_assoc]
        exact List.perm_append_singleton handled _
      · rw [List.length_append]
        exact Nat.le_add_right_of_le ledger.replayed
      · cases unassigned.symm.trans assigned
  | skip here => exact ledger.sent here rfl List.map_append rfl rfl rfl rfl rfl rfl
  | poll here => exact ledger.called here rfl
  | kill here => exact ledger.sent here rfl List.map_append rfl rfl rfl rfl rfl rfl

private theorem Ledger.arrive (ledger : state.Ledger) (handlers : state.Handlers)
    (cells : state.Cells)
    (running : state.point ≠ .terminated) (effect : ArrivalEffect state after) :
    after.Ledger := by
  cases effect with
  | @forwarded signal handles =>
      refine ⟨fun _ => ?_, ledger.replayed, ledger.exhausted, ?_⟩
      · -- The new call stands after the finished ones.
        have before := ledger.places running
        unfold SignalledLaunch.places at before ⊢
        rw [List.append_assoc] at before
        rw [List.map_cons, List.append_assoc, List.cons_append]
        refine List.perm_middle.trans ((before.cons _).trans ?_)
        exact (List.perm_append_singleton _ _).symm
      · rw [List.map_append, ledger.numbered, List.length_append, List.length_singleton,
          List.range_succ]
        rfl
  | returned => exact ledger
  | raised outside leads =>
      refine ledger.moved running ?_ rfl rfl rfl ?_
      · unfold SignalledLaunch.places
        rw [handlers.quiet outside]
        rfl
      · intro _ assigned
        rcases replayOver_of_outside outside with exhausted | unassigned
        · exact ledger.exhausted exhausted assigned
        · cases (cells.process false unassigned).symm.trans assigned
  | terminated =>
      exact ⟨fun impossible => absurd rfl impossible, ledger.replayed, nofun, ledger.numbered⟩

/-- The invariants of a run in which no previous handler raises while the handlers
switch. -/
structure Orderly (state : SignalledLaunch) : Prop where
  handlers : state.Handlers
  cells : state.Cells
  ledger : state.Ledger

private theorem Orderly.start : SignalledLaunch.start.Orderly where
  handlers := ⟨fun _ _ => rfl, List.nodup_nil, fun _ => rfl⟩
  cells := by
    refine ⟨?_, fun either => ?_, fun call member => absurd member List.not_mem_nil,
      fun send member => absurd member List.not_mem_nil, nofun⟩
    · rintro value ⟨⟩
      rfl
    · rcases either with assigned | here
      · cases assigned
      · cases here
  ledger := ⟨fun _ => .nil, Nat.le_refl _, nofun, rfl⟩

private theorem Orderly.step {action : LaunchAction} (orderly : state.Orderly)
    (unbroken : Unbroken previous state action)
    (stepped : state.step previous action = some after) : after.Orderly := by
  obtain ⟨handlers, cells, ledger⟩ := orderly
  cases action with
  | main fails =>
      simp only [SignalledLaunch.step] at stepped
      split at stepped
      next idle =>
        have effect := mainEffect_of_mainStep stepped
        exact ⟨handlers.mainStep idle effect, cells.mainStep idle effect,
          ledger.mainStep cells idle effect⟩
      next => cases stepped
  | forward busy =>
      have effect := forwardEffect_of_forwardStep stepped
      exact ⟨handlers.forwardStep effect, cells.forwardStep effect,
        ledger.forwardStep cells effect⟩
  | arrive signal =>
      simp only [SignalledLaunch.step] at stepped
      split at stepped
      next => cases stepped
      next running =>
        cases stepped
        have effect := arrivalEffect_of_arrive handlers unbroken running
        exact ⟨handlers.arrive running effect, cells.arrive effect,
          ledger.arrive handlers cells running effect⟩
  | childExit status =>
      simp only [SignalledLaunch.step] at stepped
      split at stepped
      next running =>
        cases stepped
        exact ⟨⟨handlers.forwarding, handlers.distinct, handlers.quiet⟩,
          cells.childExit running status,
          ⟨ledger.places, ledger.replayed, ledger.exhausted, ledger.numbered⟩⟩
      next => cases stepped

/-- What `run_process` owes when it has been left: with a process, every handled signal
has reached `send_signal` once; what was sent was sent to the child before it was reaped,
and what was not sent found the child ended; a returned status is the child's; and no
signal has `forward` as its handler. -/
structure Forwarded (state : SignalledLaunch) : Prop where
  once : state.process = true →
    state.handled.Nodup ∧ (state.sends.map SendCall.handled).Perm state.handled
  sends : ∀ send ∈ state.sends, send.Proper
  status : ∀ status, state.point.outcome = some (.returned status) →
    ∃ ended, state.child = .reaped ended ∧ status = ended.reported
  restored : ∀ signal, state.forwarding signal = false

private theorem Orderly.forwarded (orderly : state.Orderly) (outside : state.point.outside = true) :
    state.Forwarded where
  once := by
    intro assigned
    have exhausted : state.point.replayOver = true := by
      rcases replayOver_of_outside outside with exhausted | unassigned
      · exact exhausted
      · cases (orderly.cells.process false unassigned).symm.trans assigned
    have places := orderly.ledger.places (ne_terminated_of_outside outside)
    unfold SignalledLaunch.places at places
    rw [orderly.handlers.quiet outside, List.map_nil, List.append_nil,
      List.drop_eq_nil_of_le (orderly.ledger.exhausted exhausted assigned),
      List.append_nil] at places
    refine ⟨List.Nodup.of_map HandledSignal.number ?_, places⟩
    rw [orderly.ledger.numbered]
    exact List.nodup_range
  sends := orderly.cells.sends
  status := orderly.cells.outcome
  restored := by
    intro signal
    rw [orderly.handlers.forwarding (ne_terminated_of_outside outside),
      forwards_of_outside outside]

end SignalledLaunch

/-- **Forwarding is exactly once.** However signals arrive, nest and interleave with the
child, when `run_process` has been left in a run in which no previous handler raised while
the handlers were switching, every handled signal has reached the child's `send_signal`
once, which sent it unless the child had ended, the status is the child's and the previous
handlers are back. -/
theorem runProcess_forwards (previous : Signal → Previous) (actions : List LaunchAction)
    (state : SignalledLaunch)
    (executed : (signalledLaunch previous).Run (Unbroken previous) .start actions state)
    (outside : state.point.outside = true) : state.Forwarded := by
  have orderly : state.Orderly := executed.invariant SignalledLaunch.Orderly
    SignalledLaunch.Orderly.start
    fun _ _ _ orderly permitted stepped => orderly.step permitted stepped
  exact orderly.forwarded outside

/-- A launcher that was started with handlers of its own, but for the default one of
SIGINT. -/
def interruptible : Signal → Previous
  | .int => .raises
  | .term | .hup | .quit => .returns

/-- SIGTERM is queued before the child is there, and the child exits before the replay. -/
def completedChild : List LaunchAction :=
  List.replicate 9 (.main false) ++
    [.arrive .term, .forward false, .forward false, .main false, .childExit (.exit 0)] ++
    List.replicate 9 (.main false)

/-- SIGINT arrives when its own handler is back and the others are not. -/
def interruptedRestore : List LaunchAction :=
  List.replicate 12 (.main false) ++
    [.childExit (.exit 0), .main false, .main false, .arrive .int]

/-- A signal handled before the child is reaped need not be sent, and `run_process` can be
left with handlers still installed. -/
theorem forwarding_has_exceptions :
    (∃ state, (signalledLaunch interruptible).run .start completedChild = some state ∧
      state.point = .exitContext (.returned 0) ∧ state.handled = [⟨0, .term⟩] ∧
      ∀ send ∈ state.sends, send.sent = false) ∧
    ∃ state, (signalledLaunch interruptible).run .start interruptedRestore = some state ∧
      state.point = .exitContext .raised ∧ state.forwarding .term = true :=
  ⟨⟨_, rfl, rfl, rfl, by decide⟩, ⟨_, rfl, rfl, rfl⟩⟩

/-- SIGTERM arrives while the launcher waits, and the child is terminated by it. -/
def forwardedChild : List LaunchAction :=
  List.replicate 12 (.main false) ++
    [.arrive .term, .forward false, .forward true, .forward true,
      .childExit (.signal 15 sigterm_positive)] ++ List.replicate 6 (.main false)

theorem runProcess_forwards_sample :
    ∃ state, (signalledLaunch fun _ => .returns).run .start forwardedChild = some state ∧
      state.point = .exitContext (.returned 143) ∧ state.Forwarded := by
  refine ⟨_, rfl, rfl, runProcess_forwards (fun _ => .returns) forwardedChild _ ?_ rfl⟩
  refine (Machine.Run.of_run rfl).mono fun state action _ => ?_
  cases action with
  | arrive signal => exact fun _ => .inr nofun
  | main fails => trivial
  | forward busy => trivial
  | childExit status => trivial

end X86OnArm.Runtime
