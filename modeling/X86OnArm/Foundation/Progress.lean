import X86OnArm.Foundation.Machine
import Mathlib.Tactic.Common

/-! # Runs that end

Some of a machine's actions are the work of a party. The party is stuck where none
of its actions is enabled. Where each of its steps lowers a measure, its runs are no
longer than the measure, and one of them ends where it is stuck.
-/

namespace Foundation

universe u v

namespace Machine

variable {State : Type u} {Action : Type v} (machine : Machine State Action)

/-- None of a party's actions is enabled. -/
def Stuck (own : Action → Prop) (state : State) : Prop :=
  ∀ action, own action → machine.step state action = none

variable {machine}

/-- Runs whose steps lower a measure are no longer than it. -/
theorem Run.length_le_measure {allowed : State → Action → Prop} {start state : State}
    {actions : List Action} (valid : State → Prop) (measure : State → Nat) (initial : valid start)
    (kept : ∀ before action after, valid before → allowed before action →
      machine.step before action = some after → valid after)
    (lowered : ∀ before action after, valid before → allowed before action →
      machine.step before action = some after → measure after < measure before)
    (executed : machine.Run allowed start actions state) :
    actions.length + measure state ≤ measure start := by
  induction executed with
  | nil => exact Nat.le_of_eq (Nat.zero_add _)
  | @snoc actions before after action earlier permitted stepped ih =>
      have validBefore := earlier.invariant valid initial kept
      have lower := lowered before action after validBefore permitted stepped
      rw [List.length_append, List.length_singleton]
      omega

theorem Run.trans {allowed : State → Action → Prop} {start middle state : State}
    {first second : List Action} (earlier : machine.Run allowed start first middle)
    (later : machine.Run allowed middle second state) :
    machine.Run allowed start (first ++ second) state := by
  induction later with
  | nil => rwa [List.append_nil]
  | snoc action _ permitted stepped ih =>
      rw [← List.append_assoc]
      exact .snoc action ih permitted stepped

/-- A party whose steps lower a measure gets stuck when it is left alone. -/
theorem exists_run_stuck (machine : Machine State Action) (own : Action → Prop)
    (valid : State → Prop) (measure : State → Nat)
    (kept : ∀ before action after, valid before → own action →
      machine.step before action = some after → valid after)
    (lowered : ∀ before action after, valid before → own action →
      machine.step before action = some after → measure after < measure before)
    (start : State) (initial : valid start) :
    ∃ actions state, machine.Run (fun _ action => own action) start actions state ∧
      machine.Stuck own state := by
  induction bound : measure start using Nat.strongRecOn generalizing start with
  | ind bound ih =>
      subst bound
      by_cases stuck : machine.Stuck own start
      · exact ⟨[], start, .nil, stuck⟩
      · simp only [Stuck, not_forall, ← ne_eq, Option.ne_none_iff_exists'] at stuck
        obtain ⟨action, mine, next, stepped⟩ := stuck
        obtain ⟨actions, state, executed, ended⟩ := ih (measure next)
          (lowered start action next initial mine stepped) next
          (kept start action next initial mine stepped) rfl
        have first : machine.Run (fun _ action => own action) start ([] ++ [action]) next :=
          .snoc action .nil mine stepped
        exact ⟨_, state, first.trans executed, ended⟩

end Machine

end Foundation
