import X86OnArm.Foundation.Text

/-! # The order of texts

`Text.lt` is a strict linear order, and `sortedSet` lists what it is given in it: every
text once, in ascending order.
-/

namespace Foundation

namespace Text

/-- No text is before itself. -/
theorem lt_irrefl (value : Text) : Text.lt value value = false := by
  induction value with
  | nil => rfl
  | cons c rest hypothesis =>
      unfold Text.lt
      rw [hypothesis, Bool.and_false, Bool.or_false, decide_eq_false_iff_not]
      exact Nat.lt_irrefl _

/-- The order is transitive: the first code point in which two texts differ decides. -/
theorem lt_trans {first second third : Text} (below : Text.lt first second)
    (above : Text.lt second third) : Text.lt first third := by
  induction first generalizing second third with
  | nil =>
      cases third with
      | nil =>
          cases second with
          | nil => cases above
          | cons c rest => cases above
      | cons c rest => rfl
  | cons c rest hypothesis =>
      cases second with
      | nil => cases below
      | cons d rest' =>
          cases third with
          | nil => cases above
          | cons e rest'' =>
              unfold Text.lt at below above ⊢
              rw [Bool.or_eq_true, Bool.and_eq_true, decide_eq_true_eq, beq_iff_eq]
                at below above ⊢
              rcases below with less | ⟨same, below⟩
              · rcases above with less' | ⟨same', -⟩
                · exact .inl (less.trans less')
                · exact .inl (same' ▸ less)
              · rcases above with less' | ⟨same', above⟩
                · exact .inl (same ▸ less')
                · exact .inr ⟨same.trans same', hypothesis below above⟩

/-- Of two different texts one is before the other. -/
theorem lt_of_not_lt {first second : Text} (upward : Text.lt second first = false)
    (apart : first ≠ second) : Text.lt first second := by
  induction first generalizing second with
  | nil =>
      cases second with
      | nil => exact absurd rfl apart
      | cons d rest => rfl
  | cons c rest hypothesis =>
      cases second with
      | nil => cases upward
      | cons d rest' =>
          unfold Text.lt at upward ⊢
          rw [Bool.or_eq_false_iff, decide_eq_false_iff_not, Nat.not_lt] at upward
          rw [Bool.or_eq_true, Bool.and_eq_true, decide_eq_true_eq, beq_iff_eq]
          obtain ⟨atMost, later⟩ := upward
          rcases Nat.lt_or_eq_of_le atMost with less | same
          · exact .inl less
          · rw [same, beq_self_eq_true, Bool.true_and] at later
            refine .inr ⟨same, hypothesis later ?_⟩
            rintro rfl
            exact apart (congrArg (· :: rest) (CodePoint.ext same))

/-- Two texts are not each before the other. -/
theorem not_lt_of_lt {first second : Text} (below : Text.lt first second) :
    Text.lt second first = false := by
  by_contra above
  have loop := lt_trans below (Bool.eq_true_of_not_eq_false above)
  rw [lt_irrefl] at loop
  cases loop

end Text

/-- A sorted set has the texts it was made of. -/
theorem mem_sortedSet {texts : List Text} {name : Text} :
    name ∈ sortedSet texts ↔ name ∈ texts := by
  unfold sortedSet
  rw [List.mem_insertionSort, List.mem_dedup]

/-- A sorted set ascends strictly. -/
theorem sortedSet_ascending (texts : List Text) :
    (sortedSet texts).Pairwise fun first second => Text.lt first second := by
  have total : Std.Total fun first second : Text => Text.lt second first = false := by
    refine ⟨fun first second => ?_⟩
    by_cases below : Text.lt first second
    · exact .inl (Text.not_lt_of_lt below)
    · exact .inr (Bool.eq_false_of_not_eq_true below)
  have transitive : IsTrans Text fun first second => Text.lt second first = false := by
    refine ⟨fun first second third low high => ?_⟩
    by_contra below
    have below := Bool.eq_true_of_not_eq_false below
    by_cases same : first = second
    · rw [same, high] at below
      cases below
    · rw [Text.lt_trans below (Text.lt_of_not_lt low same)] at high
      cases high
  have weak : (sortedSet texts).Pairwise fun first second => Text.lt second first = false :=
    List.pairwise_insertionSort _ _
  have single : (sortedSet texts).Nodup :=
    ((List.perm_insertionSort _ _).nodup_iff).mpr (List.nodup_dedup texts)
  exact (weak.and single).imp fun ⟨upward, apart⟩ => Text.lt_of_not_lt upward apart

end Foundation
