import Mathlib.Data.List.Induction
import Mathlib.Tactic.Common

/-! # Machines with partial steps

A machine is a state type, an action type and a step function that is undefined
where an action is not enabled. The parties of a concurrent program are the
classes of its actions, so a list of actions is one interleaving and a property
of every run is a property of every interleaving.
-/

namespace Foundation

universe u v

/-- An action either moves a state to its successor or is not enabled there. -/
structure Machine (State : Type u) (Action : Type v) where
  step : State → Action → Option State

namespace Machine

variable {State : Type u} {Action : Type v} (machine : Machine State Action)

/-- The state after a list of actions; undefined when one of them is not
enabled where it is taken. -/
def run (machine : Machine State Action) : State → List Action → Option State
  | state, [] => some state
  | state, action :: rest => (machine.step state action).bind fun next => run machine next rest

theorem run_cons (state : State) (action : Action) (rest : List Action) :
    machine.run state (action :: rest) =
      (machine.step state action).bind fun next => machine.run next rest := rfl

theorem run_append (state : State) (first second : List Action) :
    machine.run state (first ++ second) =
      (machine.run state first).bind fun middle => machine.run middle second := by
  induction first generalizing state with
  | nil => rfl
  | cons action rest ih =>
      simp only [List.cons_append, run_cons, Option.bind_assoc, ih]

/-- The interleavings from `start`, recorded with the actions taken: every
action is allowed in the state it is taken from. -/
inductive Run (allowed : State → Action → Prop) (start : State) :
    List Action → State → Prop where
  | nil : Run allowed start [] start
  | snoc {actions : List Action} {before after : State} (action : Action) :
      Run allowed start actions before → allowed before action →
      machine.step before action = some after →
      Run allowed start (actions ++ [action]) after

/-- A state some interleaving leads to. -/
def Reachable (start state : State) : Prop :=
  ∃ actions, machine.run start actions = some state

variable {machine}

theorem run_concat_eq_some {start after : State} {actions : List Action} {action : Action} :
    machine.run start (actions ++ [action]) = some after ↔
      ∃ before, machine.run start actions = some before ∧
        machine.step before action = some after := by
  rw [run_append, Option.bind_eq_some_iff]
  refine exists_congr fun before => and_congr_right fun _ => ?_
  rw [run_cons]
  exact iff_of_eq (congrArg (· = some after) (Option.bind_fun_some _))

theorem Run.of_run {start state : State} {actions : List Action}
    (executed : machine.run start actions = some state) :
    machine.Run (fun _ _ => True) start actions state := by
  induction actions using List.reverseRecOn generalizing state with
  | nil =>
      cases executed
      exact .nil
  | append_singleton actions action ih =>
      obtain ⟨before, earlier, stepped⟩ := run_concat_eq_some.mp executed
      exact .snoc action (ih earlier) trivial stepped

/-- Whether a test holds wherever a list of actions takes a step. -/
def everyStep (machine : Machine State Action) (holds : State → Action → Bool) :
    State → List Action → Bool
  | _, [] => true
  | state, action :: rest =>
      holds state action && (machine.step state action).all fun next =>
        everyStep machine holds next rest

theorem everyStep_append (holds : State → Action → Bool) (state : State)
    (first second : List Action) :
    machine.everyStep holds state (first ++ second) =
      (machine.everyStep holds state first &&
        (machine.run state first).all fun middle => machine.everyStep holds middle second) := by
  induction first generalizing state with
  | nil => rfl
  | cons action rest ih =>
      rw [List.cons_append, everyStep, everyStep, run_cons, Bool.and_assoc]
      cases machine.step state action with
      | none => rfl
      | some next => exact congrArg _ (ih next)

/-- A list of actions whose steps pass a test is a run of steps that pass it. -/
theorem Run.of_everyStep {holds : State → Action → Bool} {start state : State}
    {actions : List Action} (executed : machine.run start actions = some state)
    (every : machine.everyStep holds start actions = true) :
    machine.Run (fun state action => holds state action = true) start actions state := by
  induction actions using List.reverseRecOn generalizing state with
  | nil =>
      cases executed
      exact .nil
  | append_singleton actions action ih =>
      obtain ⟨before, earlier, stepped⟩ := run_concat_eq_some.mp executed
      rw [everyStep_append, earlier, Bool.and_eq_true_iff] at every
      exact .snoc action (ih earlier every.1) (Bool.and_eq_true_iff.mp every.2).1 stepped

theorem Run.mono {allowed weaker : State → Action → Prop} {start state : State}
    {actions : List Action} (implies : ∀ state action, allowed state action → weaker state action)
    (executed : machine.Run allowed start actions state) :
    machine.Run weaker start actions state := by
  induction executed with
  | nil => exact .nil
  | snoc action _ permitted stepped ih => exact .snoc action ih (implies _ _ permitted) stepped

/-- What holds initially and is kept by every allowed step holds after every
run of allowed steps. -/
theorem Run.invariant {allowed : State → Action → Prop} {start state : State}
    {actions : List Action} (holds : State → Prop) (initial : holds start)
    (kept : ∀ before action after, holds before → allowed before action →
      machine.step before action = some after → holds after)
    (executed : machine.Run allowed start actions state) : holds state := by
  induction executed with
  | nil => exact initial
  | snoc action _ permitted stepped ih => exact kept _ action _ ih permitted stepped

theorem Run.run_eq {allowed : State → Action → Prop} {start state : State}
    {actions : List Action} (executed : machine.Run allowed start actions state) :
    machine.run start actions = some state := by
  induction executed with
  | nil => rfl
  | snoc action _ _ stepped ih => exact run_concat_eq_some.mpr ⟨_, ih, stepped⟩

/-- A preorder that every allowed step from a valid state climbs relates each state on
the way of a run to its end. -/
theorem Run.related {allowed : State → Action → Prop} {start state : State}
    {actions : List Action} (valid : State → Prop) (relates : State → State → Prop)
    (initial : valid start) (refl : ∀ state, relates state state)
    (trans : ∀ first second third, relates first second → relates second third →
      relates first third)
    (kept : ∀ before action after, valid before → allowed before action →
      machine.step before action = some after → valid after ∧ relates before after)
    (executed : machine.Run allowed start actions state) :
    ∀ earlier later, actions = earlier ++ later →
      ∃ before, machine.run start earlier = some before ∧ relates before state := by
  induction executed with
  | nil =>
      intro earlier later split
      obtain ⟨rfl, -⟩ := List.append_eq_nil_iff.mp split.symm
      exact ⟨start, rfl, refl start⟩
  | @snoc actions middle after action earlierRun permitted stepped ih =>
      have validMiddle : valid middle := earlierRun.invariant valid initial
        fun before action after holds permitted stepped =>
          (kept before action after holds permitted stepped).1
      have climbs := (kept middle action after validMiddle permitted stepped).2
      intro earlier later split
      cases later using List.reverseRecOn with
      | nil =>
          rw [List.append_nil] at split
          exact ⟨after, split ▸ (Run.snoc action earlierRun permitted stepped).run_eq, refl after⟩
      | append_singleton later last =>
          rw [← List.append_assoc] at split
          obtain ⟨same, -⟩ := List.append_inj' split rfl
          obtain ⟨before, reached, related⟩ := ih earlier later same
          exact ⟨before, reached, trans before middle after related climbs⟩

/-- What holds initially and is kept by every step holds in every reachable
state. -/
theorem Reachable.invariant {start state : State} (holds : State → Prop) (initial : holds start)
    (kept : ∀ before action after, holds before → machine.step before action = some after →
      holds after)
    (reachable : machine.Reachable start state) : holds state := by
  obtain ⟨actions, executed⟩ := reachable
  exact (Run.of_run executed).invariant holds initial
    fun before action after valid _ => kept before action after valid

/-- **Progress by a party's own steps.** Where the goal is not yet reached, every
step of the party lowers the measure and no step of another party raises it.
Then the goal is reached in every run in which the party takes more steps than
the measure at its start, whatever the others do in between. -/
theorem run_reaches_of_measure (valid goal : State → Prop) (own : Action → Bool)
    (measure : State → Nat)
    (kept : ∀ before action after, valid before → machine.step before action = some after →
      valid after)
    (stable : ∀ before action after, valid before → goal before →
      machine.step before action = some after → goal after)
    (lowered : ∀ before action after, valid before → ¬ goal before →
      machine.step before action = some after → own action = true →
      goal after ∨ measure after < measure before)
    (notRaised : ∀ before action after, valid before → ¬ goal before →
      machine.step before action = some after → own action = false →
      goal after ∨ measure after ≤ measure before)
    (actions : List Action) :
    ∀ (start state : State), valid start → machine.run start actions = some state →
      measure start < actions.countP own → goal state := by
  have persists : ∀ (actions : List Action) (start state : State), valid start → goal start →
      machine.run start actions = some state → goal state := by
    intro actions
    induction actions with
    | nil =>
        intro start state _ reached executed
        cases executed
        exact reached
    | cons action rest ih =>
        intro start state good reached executed
        obtain ⟨next, stepped, later⟩ := Option.bind_eq_some_iff.mp executed
        exact ih next state (kept start action next good stepped)
          (stable start action next good reached stepped) later
  induction actions with
  | nil =>
      intro start state _ _ enough
      simp only [List.countP_nil, Nat.not_lt_zero] at enough
  | cons action rest ih =>
      intro start state good executed enough
      obtain ⟨next, stepped, later⟩ := Option.bind_eq_some_iff.mp executed
      have goodNext := kept start action next good stepped
      by_cases reached : goal start
      · exact persists rest next state goodNext (stable start action next good reached stepped)
          later
      · rw [List.countP_cons] at enough
        cases mine : own action with
        | true =>
            rcases lowered start action next good reached stepped mine with done | lower
            · exact persists rest next state goodNext done later
            · simp only [mine, ↓reduceIte] at enough
              exact ih next state goodNext later (by omega)
        | false =>
            rcases notRaised start action next good reached stepped mine with done | lower
            · exact persists rest next state goodNext done later
            · simp only [mine, Bool.false_eq_true, ↓reduceIte, Nat.add_zero] at enough
              exact ih next state goodNext later (by omega)

end Machine

end Foundation
