import X86OnArm.Foundation.Machine
import Mathlib.Data.List.Basic
import Mathlib.Logic.Function.Basic
import Mathlib.Tactic.Common

/-! # Cold starts

Any number of clients run `VirtualMachine.ensure` for one unit under one `flock`.
The unit outlives the client that started it, so a client that was interrupted
leaves a start in progress to the next one.
-/

namespace X86OnArm.Runtime

open Foundation

/-- The state of the unit's name; an absent name is not loaded. An `active` one that is not
ready stands also for the unit while it activates, until its program is executed. -/
inductive UnitState where
  | absent
  | active (ready : Bool)
  | deactivating
  | failed
  deriving DecidableEq

def UnitState.isActive : UnitState → Bool
  | .active _ => true
  | .absent | .deactivating | .failed => false

/-- Why `ensure` raised: `systemd-run` refused the name, `is-active` failed, or the
loop ended. -/
inductive Reason where
  | refused (unit : UnitState)
  | exited (unit : UnitState)
  | deadline (now deadline : Nat)
  deriving DecidableEq

/-- The unit is not active, or the deadline has passed. -/
def Reason.legitimate : Reason → Bool
  | .refused unit | .exited unit => !unit.isActive
  | .deadline now limit => limit ≤ now

inductive ColdStartEvent where
  | probe (client : Nat) (answered : Bool)
  | returned (client : Nat)
  | raised (client : Nat) (reason : Reason)
  deriving DecidableEq

/-- Where a client is in `ensure`, with its locals; times are in milliseconds. -/
inductive EnsurePoint where
  | outside
  | flock
  | firstReady
  | resetFailed
  | systemdRun
  | loop (deadline checkAfter : Nat)
  | ready (deadline checkAfter : Nat)
  | check (deadline checkAfter : Nat)
  | isActive (deadline : Nat)
  | returning
  | left
  deriving DecidableEq

structure ColdStart where
  point : Nat → EnsurePoint
  lock : Option Nat
  unit : UnitState
  /-- The running instances of the unit, numbered as they are started. -/
  running : List Nat
  started : Nat
  now : Nat
  log : List ColdStartEvent

inductive ColdStartAction where
  | enter (client : Nat)
  | flock (client : Nat)
  | probe (client : Nat) (answered : Bool)
  | resetFailed (client : Nat)
  | systemdRun (client : Nat)
  | loop (client : Nat)
  | check (client : Nat)
  | isActive (client : Nat)
  | return (client : Nat)
  /-- A client is interrupted and leaves the `with` block. -/
  | interrupt (client : Nat)
  | becomeReady
  | exit (failing : Bool)
  | stop
  | collect
  | tick (time : Nat)
  deriving DecidableEq

namespace ColdStart

def start : ColdStart where
  point := fun _ => .outside
  lock := none
  unit := .absent
  running := []
  started := 0
  now := 0
  log := []

def move (state : ColdStart) (client : Nat) (point : EnsurePoint) : ColdStart :=
  { state with point := Function.update state.point client point }

/-- Leave the `with` block, which releases the lock. -/
def leave (state : ColdStart) (client : Nat) (events : List ColdStartEvent) : ColdStart :=
  { state.move client .left with
    lock := if state.lock = some client then none else state.lock
    log := state.log ++ events }

def raise (state : ColdStart) (client : Nat) (reason : Reason) : ColdStart :=
  state.leave client [.raised client reason]

/-- `ready`: only a ready unit answers, but an answer may be late. -/
def probe (state : ColdStart) (client : Nat) (answered : Bool) (otherwise : EnsurePoint) :
    Option ColdStart :=
  if answered = true ∧ state.unit ≠ .active true then none
  else some
    { state.move client (if answered then .returning else otherwise) with
      log := state.log ++ [.probe client answered] }

def step (state : ColdStart) : ColdStartAction → Option ColdStart
  | .enter client =>
      if state.point client = .outside then some (state.move client .flock) else none
  | .flock client =>
      if state.point client = .flock ∧ state.lock = none then
        some { state.move client .firstReady with lock := some client }
      else none
  | .probe client answered =>
      match state.point client with
      | .firstReady => state.probe client answered .resetFailed
      | .ready deadline checkAfter => state.probe client answered (.check deadline checkAfter)
      | _ => none
  | .resetFailed client =>
      if state.point client = .resetFailed then some
        { state.move client .systemdRun with
          unit := if state.unit = .failed then .absent else state.unit }
      else none
  | .systemdRun client =>
      if state.point client = .systemdRun then
        if state.unit = .absent then some
          { state.move client (.loop (state.now + 45000) (state.now + 1000)) with
            unit := .active false
            running := state.started :: state.running
            started := state.started + 1 }
        else some (state.raise client (.refused state.unit))
      else none
  | .loop client =>
      match state.point client with
      | .loop deadline checkAfter =>
          if state.now < deadline then some (state.move client (.ready deadline checkAfter))
          else some (state.raise client (.deadline state.now deadline))
      | _ => none
  | .check client =>
      match state.point client with
      | .check deadline checkAfter =>
          if checkAfter ≤ state.now then some (state.move client (.isActive deadline))
          else some (state.move client (.loop deadline checkAfter))
      | _ => none
  | .isActive client =>
      match state.point client with
      | .isActive deadline =>
          if state.unit.isActive then some (state.move client (.loop deadline (state.now + 1000)))
          else some (state.raise client (.exited state.unit))
      | _ => none
  | .return client =>
      if state.point client = .returning then some (state.leave client [.returned client])
      else none
  | .interrupt client =>
      if state.point client ≠ .outside ∧ state.point client ≠ .left then
        some (state.leave client [])
      else none
  | .becomeReady =>
      if state.unit = .active false then some { state with unit := .active true } else none
  | .exit failing =>
      if state.unit.isActive ∨ state.unit = .deactivating then some
        { state with
          unit := if failing then .failed else .absent
          running := state.running.drop 1 }
      else none
  | .stop =>
      if state.unit.isActive then some { state with unit := .deactivating } else none
  | .collect => if state.unit = .failed then some { state with unit := .absent } else none
  | .tick time => some { state with now := state.now + time }

end ColdStart

/-- The clients of one unit. -/
def ensure : Machine ColdStart ColdStartAction := ⟨ColdStart.step⟩

/-- Every return follows an answered probe of the same client. -/
def Answered (log : List ColdStartEvent) : Prop :=
  ∀ before client after, log = before ++ .returned client :: after → .probe client true ∈ before

/-- What `ensure` owes its callers: it returns only after an answered probe, there is
at most one instance, and it raises only for a unit that is not active or a
deadline that has passed. -/
structure ColdStart.Honoured (state : ColdStart) : Prop where
  returned : Answered state.log
  single : state.running.length ≤ 1
  raised : ∀ client reason, .raised client reason ∈ state.log → reason.legitimate = true

/-- `systemd-run` is not reached while the unit is active. -/
def ColdStart.Calm (state : ColdStart) : ColdStartAction → Prop
  | .systemdRun _ => state.unit.isActive = false
  | _ => True

end X86OnArm.Runtime
