import Mathlib.Tactic.Common

/-! # Outcomes of two runs

Two fallible runs have the same outcome when they fail alike or return related
values. `SameOutcome.bind` carries this through sequential composition, so that
a two-run property of a program follows its statements.
-/

namespace Foundation

universe u v w

variable {ε : Type u} {α α' : Type v} {β β' : Type v}

/-- The same failure, or results that are related. -/
inductive SameOutcome (related : α → β → Prop) : Except ε α → Except ε β → Prop where
  | error (failure : ε) : SameOutcome related (.error failure) (.error failure)
  | ok {first : α} {second : β} (same : related first second) :
      SameOutcome related (.ok first) (.ok second)

namespace SameOutcome

variable {related : α → β → Prop} {other : α' → β' → Prop}

/-- A run that is repeated has the outcome it had. -/
theorem refl {related : α → α → Prop} (same : ∀ value, related value value)
    (outcome : Except ε α) : SameOutcome related outcome outcome := by
  cases outcome with
  | error failure => exact .error failure
  | ok value => exact .ok (same value)

/-- Runs with the same outcome go on alike when related results do. -/
theorem bind {first : Except ε α} {second : Except ε β} {firstNext : α → Except ε α'}
    {secondNext : β → Except ε β'} (same : SameOutcome related first second)
    (next : ∀ a b, related a b → SameOutcome other (firstNext a) (secondNext b)) :
    SameOutcome other (first >>= firstNext) (second >>= secondNext) := by
  cases same with
  | error failure => exact .error failure
  | ok same => exact next _ _ same

/-- The results may be mapped, when related ones are mapped to related ones. -/
theorem map {first : Except ε α} {second : Except ε β} {firstNext : α → α'} {secondNext : β → β'}
    (same : SameOutcome related first second)
    (next : ∀ a b, related a b → other (firstNext a) (secondNext b)) :
    SameOutcome other (first.map firstNext) (second.map secondNext) := by
  cases same with
  | error failure => exact .error failure
  | ok same => exact .ok (next _ _ same)

/-- A weaker relation of the results. -/
theorem mono {stronger : α → β → Prop} {first : Except ε α} {second : Except ε β}
    (same : SameOutcome stronger first second) (weaker : ∀ a b, stronger a b → related a b) :
    SameOutcome related first second := by
  cases same with
  | error failure => exact .error failure
  | ok same => exact .ok (weaker _ _ same)

/-- Both runs fail with one failure, or both return. -/
theorem failed_or_returned {first : Except ε α} {second : Except ε β}
    (same : SameOutcome related first second) :
    (∃ failure, first = .error failure ∧ second = .error failure) ∨
      ∃ a b, related a b ∧ first = .ok a ∧ second = .ok b := by
  cases same with
  | error failure => exact .inl ⟨failure, rfl, rfl⟩
  | ok same => exact .inr ⟨_, _, same, rfl, rfl⟩

/-- Results related by equality make the runs equal. -/
theorem eq {first second : Except ε α} (same : SameOutcome Eq first second) : first = second := by
  cases same with
  | error failure => rfl
  | ok same => rw [same]

end SameOutcome

end Foundation
