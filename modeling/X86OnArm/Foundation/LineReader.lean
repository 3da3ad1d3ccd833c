import Mathlib.Data.List.TakeWhile
import Mathlib.Data.List.Infix
import Mathlib.Tactic.Common

/-! # Buffered reading up to a delimiter

A stream arrives in pieces. A buffered reader hands out everything up to and
including a delimiter and keeps the rest of the piece for later reads, so that
no cut of the stream changes what is read.
-/

namespace Foundation

universe u

/-- What was received and not consumed, and the pieces still to arrive; after the
last one the stream ends. -/
structure Reader (α : Type u) where
  buffer : List α
  arriving : List (List α)
  deriving DecidableEq

namespace Reader

variable {α : Type u}

/-- Two splits at the first delimiter are the same. -/
theorem split_unique {delimiter : α} {first second left right : List α}
    (clean : delimiter ∉ first) (cleanSecond : delimiter ∉ second)
    (same : first ++ delimiter :: left = second ++ delimiter :: right) :
    first = second ∧ left = right := by
  induction first generalizing second with
  | nil =>
      cases second with
      | nil => exact ⟨rfl, (List.cons.inj same).2⟩
      | cons head tail =>
          have equal := (List.cons.inj same).1
          exact absurd (equal ▸ List.mem_cons_self) cleanSecond
  | cons head tail ih =>
      cases second with
      | nil =>
          have equal := (List.cons.inj same).1
          exact absurd (equal ▸ List.mem_cons_self) clean
      | cons other rest =>
          obtain ⟨rfl, later⟩ := List.cons.inj same
          obtain ⟨rfl, rfl⟩ := ih (fun member => clean (List.mem_cons_of_mem _ member))
            (fun member => cleanSecond (List.mem_cons_of_mem _ member)) later
          exact ⟨rfl, rfl⟩

variable [DecidableEq α]

def remaining (reader : Reader α) : List α := reader.buffer ++ reader.arriving.flatten

/-- Consume up to and including the next delimiter, or all there is. -/
def readUntil (delimiter : α) (buffer : List α) (arriving : List (List α)) : List α × Reader α :=
  if delimiter ∈ buffer then
    (buffer.takeWhile (· ≠ delimiter) ++ [delimiter],
      ⟨(buffer.dropWhile (· ≠ delimiter)).tail, arriving⟩)
  else
    match arriving with
    | [] => (buffer, ⟨[], []⟩)
    | piece :: later =>
        let result := readUntil delimiter piece later
        (buffer ++ result.1, result.2)

def readLine (delimiter : α) (reader : Reader α) : List α × Reader α :=
  readUntil delimiter reader.buffer reader.arriving

theorem dropWhile_of_mem {delimiter : α} {buffer : List α} (member : delimiter ∈ buffer) :
    buffer.dropWhile (· ≠ delimiter) =
      delimiter :: (buffer.dropWhile (· ≠ delimiter)).tail := by
  induction buffer with
  | nil => cases member
  | cons first rest ih =>
      by_cases same : first = delimiter
      · subst same
        simp only [ne_eq, not_true_eq_false, decide_false, Bool.false_eq_true, not_false_eq_true,
          List.dropWhile_cons_of_neg, List.tail_cons]
      · rw [List.dropWhile_cons_of_pos (by simpa only [ne_eq, decide_not, Bool.not_eq_eq_eq_not,
          Bool.not_true, decide_eq_false_iff_not] using same)]
        exact ih ((List.mem_cons.mp member).resolve_left (Ne.symm same))

theorem notMem_takeWhile (delimiter : α) (buffer : List α) :
    delimiter ∉ buffer.takeWhile (· ≠ delimiter) := fun member => by
  have different := List.mem_takeWhile_imp member
  simp only [ne_eq, not_true_eq_false, decide_false, Bool.false_eq_true] at different

theorem readUntil_of_mem {delimiter : α} {buffer : List α} (member : delimiter ∈ buffer)
    (arriving : List (List α)) :
    readUntil delimiter buffer arriving = (buffer.takeWhile (· ≠ delimiter) ++ [delimiter],
      ⟨(buffer.dropWhile (· ≠ delimiter)).tail, arriving⟩) := by
  rw [readUntil.eq_def, if_pos member]

theorem readUntil_nil {delimiter : α} {buffer : List α} (absent : delimiter ∉ buffer) :
    readUntil delimiter buffer [] = (buffer, ⟨[], []⟩) := by
  rw [readUntil.eq_def, if_neg absent]

theorem readUntil_cons {delimiter : α} {buffer : List α} (absent : delimiter ∉ buffer)
    (piece : List α) (later : List (List α)) :
    readUntil delimiter buffer (piece :: later) =
      (buffer ++ (readUntil delimiter piece later).1, (readUntil delimiter piece later).2) := by
  rw [readUntil.eq_def, if_neg absent]

/-- A buffer that holds the delimiter is split at it. -/
theorem takeWhile_append_tail {delimiter : α} {buffer : List α} (member : delimiter ∈ buffer)
    (later : List α) : buffer.takeWhile (· ≠ delimiter) ++ [delimiter] ++
      ((buffer.dropWhile (· ≠ delimiter)).tail ++ later) = buffer ++ later := by
  rw [List.append_assoc, ← List.append_assoc [delimiter], List.singleton_append,
    ← dropWhile_of_mem member, ← List.append_assoc, List.takeWhile_append_dropWhile]

/-- Nothing is lost or read twice. -/
theorem readUntil_append (delimiter : α) (buffer : List α) (arriving : List (List α)) :
    (readUntil delimiter buffer arriving).1 ++ (readUntil delimiter buffer arriving).2.remaining =
      buffer ++ arriving.flatten := by
  induction arriving generalizing buffer with
  | nil =>
      by_cases member : delimiter ∈ buffer
      · rw [readUntil_of_mem member]
        exact takeWhile_append_tail member _
      · rw [readUntil_nil member]
        rfl
  | cons piece later ih =>
      by_cases member : delimiter ∈ buffer
      · rw [readUntil_of_mem member]
        exact takeWhile_append_tail member _
      · rw [readUntil_cons member, List.append_assoc, ih, List.flatten_cons]

theorem readLine_append (delimiter : α) (reader : Reader α) :
    (reader.readLine delimiter).1 ++ (reader.readLine delimiter).2.remaining =
      reader.remaining :=
  readUntil_append ..

/-- What a read consumes is one line, or the rest of a stream without a delimiter. -/
theorem readUntil_shape (delimiter : α) (buffer : List α) (arriving : List (List α)) :
    (∃ line, delimiter ∉ line ∧ (readUntil delimiter buffer arriving).1 = line ++ [delimiter]) ∨
      (delimiter ∉ (readUntil delimiter buffer arriving).1 ∧
        (readUntil delimiter buffer arriving).2.remaining = []) := by
  induction arriving generalizing buffer with
  | nil =>
      by_cases member : delimiter ∈ buffer
      · rw [readUntil_of_mem member]
        exact .inl ⟨_, notMem_takeWhile delimiter buffer, rfl⟩
      · rw [readUntil_nil member]
        exact .inr ⟨member, rfl⟩
  | cons piece later ih =>
      by_cases member : delimiter ∈ buffer
      · rw [readUntil_of_mem member]
        exact .inl ⟨_, notMem_takeWhile delimiter buffer, rfl⟩
      · rw [readUntil_cons member]
        rcases ih piece with ⟨line, clean, same⟩ | ⟨clean, empty⟩
        · refine .inl ⟨buffer ++ line, ?_, ?_⟩
          · rw [List.mem_append]
            exact not_or.mpr ⟨member, clean⟩
          · rw [same, List.append_assoc]
        · refine .inr ⟨?_, empty⟩
          rw [List.mem_append]
          exact not_or.mpr ⟨member, clean⟩

/-- **However the stream is cut, a read returns the next line** and leaves what
follows its delimiter. -/
theorem readLine_line {delimiter : α} {reader : Reader α} {line rest : List α}
    (clean : delimiter ∉ line) (stream : reader.remaining = line ++ delimiter :: rest) :
    (reader.readLine delimiter).1 = line ++ [delimiter] ∧
      (reader.readLine delimiter).2.remaining = rest := by
  have whole := reader.readLine_append delimiter
  rw [stream] at whole
  rcases readUntil_shape delimiter reader.buffer reader.arriving with
    ⟨first, cleanFirst, same⟩ | ⟨absent, empty⟩
  · change (reader.readLine delimiter).1 = _ at same
    rw [same, List.append_assoc, List.singleton_append] at whole
    obtain ⟨rfl, left⟩ := split_unique cleanFirst clean whole
    exact ⟨same, left⟩
  · change (reader.readLine delimiter).2.remaining = _ at empty
    rw [empty, List.append_nil] at whole
    refine absurd ?_ absent
    change delimiter ∈ (reader.readLine delimiter).1
    rw [whole]
    exact List.mem_append_right _ List.mem_cons_self

/-- Without a delimiter a read returns all that is left. -/
theorem readLine_end {delimiter : α} {reader : Reader α} (absent : delimiter ∉ reader.remaining) :
    (reader.readLine delimiter).1 = reader.remaining ∧
      (reader.readLine delimiter).2.remaining = [] := by
  have whole := reader.readLine_append delimiter
  rcases readUntil_shape delimiter reader.buffer reader.arriving with
    ⟨first, _, same⟩ | ⟨_, empty⟩
  · change (reader.readLine delimiter).1 = _ at same
    refine absurd ?_ absent
    rw [← whole, same]
    exact List.mem_append_left _ (List.mem_append_right _ (List.mem_singleton_self _))
  · change (reader.readLine delimiter).2.remaining = _ at empty
    rw [empty, List.append_nil] at whole
    exact ⟨whole, empty⟩

end Reader

end Foundation
