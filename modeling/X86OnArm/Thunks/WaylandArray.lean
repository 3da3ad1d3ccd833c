import X86OnArm.Foundation.Machine
import Mathlib.Algebra.Group.Nat.Defs

/-! # The guest's `wl_array`

The growable arrays of the guest's Wayland library for both of its word sizes. A sum or
a product that would wrap has no value here, and neither has a copy that leaves one of
its buffers, so that a call with a result is one that does neither. `Valid` is what every
reachable array satisfies; the calls are described over it one at a time.
-/

namespace X86OnArm.Thunks

open Foundation

/-- The guest's `size_t`. -/
inductive SizeT where
  | bits32
  | bits64
  deriving DecidableEq

namespace SizeT

def bits : SizeT → Nat
  | .bits32 => 32
  | .bits64 => 64

/-- How many values the type has. -/
def values (word : SizeT) : Nat := 2 ^ word.bits

/-- `SIZE_MAX`. -/
def max (word : SizeT) : Nat := word.values - 1

def sum (word : SizeT) (left right : Nat) : Option Nat :=
  if left + right < word.values then some (left + right) else none

def product (word : SizeT) (left right : Nat) : Option Nat :=
  if left * right < word.values then some (left * right) else none

def difference (left right : Nat) : Option Nat :=
  if right ≤ left then some (left - right) else none

end SizeT

/-- An allocated block; its address is not the null pointer. -/
structure Buffer where
  address : Nat
  bytes : List UInt8
  deriving DecidableEq

structure WlArray where
  size : Nat
  alloc : Nat
  /-- `none` is the null pointer. -/
  data : Option Buffer
  deriving DecidableEq

namespace WlArray

def bytes (array : WlArray) : List UInt8 := (array.data.map Buffer.bytes).getD []

/-- The value of `data` as a pointer. -/
def pointer (array : WlArray) : Nat := (array.data.map Buffer.address).getD 0

/-- The bytes an array holds for its user. -/
def contents (array : WlArray) : List UInt8 := array.bytes.take array.size

end WlArray

/-- Where the allocator would put a block, and what its memory held before. -/
structure Answer where
  address : Nat
  stale : Nat → UInt8

/-- `realloc` keeps the bytes of the old block. A block and the pointer to its end lie
within the address space, so an answer that is no such block is a failure. -/
def realloc (word : SizeT) (answer : Answer) (data : Option Buffer) (capacity : Nat) :
    Option Buffer :=
  if 0 < answer.address ∧ answer.address + capacity < word.values then
    some ⟨answer.address, (List.range capacity).map fun index =>
      (((data.map Buffer.bytes).getD [])[index]?).getD (answer.stale index)⟩
  else none

/-- The loop that doubles `capacity` up to `required`. -/
def capacityLoop (word : SizeT) (required : Nat) : Nat → Nat → Option Nat
  | 0, _ => none
  | fuel + 1, capacity =>
      if capacity < required then
        if word.max / 2 < capacity then some required
        else (word.product capacity 2).bind fun doubled => capacityLoop word required fuel doubled
      else some capacity

def wlArrayInit : WlArray := ⟨0, 0, none⟩

/-- The array after `wl_array_add` and the pointer it returns. -/
def wlArrayAdd (word : SizeT) (fuel : Nat) (answer : Answer) (array : WlArray) (size : Nat) :
    Option (WlArray × Nat) := do
  let room ← SizeT.difference word.max array.size
  if room < size then
    return (array, 0)
  let required ← word.sum array.size size
  if array.alloc < required then
    let capacity ← capacityLoop word required fuel (max array.alloc 16)
    match realloc word answer array.data capacity with
    | none => return (array, 0)
    | some data =>
        let array : WlArray := { array with data := some data, alloc := capacity }
        return ({ array with size := required }, (array.pointer + array.size) % word.values)
  else
    return ({ array with size := required }, (array.pointer + array.size) % word.values)

/-- `memcpy` of `count` bytes from one buffer over the front of another. -/
def memcpy (target source : Option Buffer) (count : Nat) : Option Buffer := do
  let target ← target
  let source ← source
  if count ≤ target.bytes.length ∧ count ≤ source.bytes.length then
    return { target with bytes := source.bytes.take count ++ target.bytes.drop count }
  else none

/-- The target after `wl_array_copy` and the value it returns; `same` is the comparison
of the two pointers. -/
def wlArrayCopy (word : SizeT) (fuel : Nat) (answer : Answer) (same : Bool)
    (array source : WlArray) : Option (WlArray × Int) := do
  if same then
    return (array, 0)
  let (array, failed) ←
    if array.size < source.size then do
      let more ← SizeT.difference source.size array.size
      let (array, result) ← wlArrayAdd word fuel answer array more
      pure (array, decide (result = 0))
    else pure (array, false)
  if failed then
    return (array, -1)
  if source.size = 0 then
    return ({ array with size := source.size }, 0)
  let data ← memcpy array.data source.data source.size
  return ({ array with data := some data, size := source.size }, 0)

/-- What the guest does with its arrays. -/
inductive ArrayAction (Index : Type) where
  | init (index : Index)
  | add (index : Index) (size : Nat) (answer : Answer)
  /-- The caller writes into a buffer it was given. -/
  | write (index : Index) (offset : Nat) (byte : UInt8)
  | copy (target source : Index) (answer : Answer)

section Guest

variable {Index : Type} [DecidableEq Index]

/-- The arrays that have been initialised. -/
abbrev Arrays (Index : Type) := Index → Option WlArray

namespace Arrays

def step (word : SizeT) (fuel : Nat) (state : Arrays Index) :
    ArrayAction Index → Option (Arrays Index)
  | .init index => some (Function.update state index (some wlArrayInit))
  | .add index size answer => do
      let array ← state index
      let (after, _) ← wlArrayAdd word fuel answer array size
      return Function.update state index (some after)
  | .write index offset byte => do
      let array ← state index
      let data ← array.data
      if offset < data.bytes.length then
        let data := { data with bytes := data.bytes.set offset byte }
        return Function.update state index (some { array with data := some data })
      else none
  | .copy target source answer => do
      let array ← state target
      let other ← state source
      let (after, _) ← wlArrayCopy word fuel answer (target = source) array other
      return Function.update state target (some after)

end Arrays

/-- A guest that has initialised no array yet calls the library. -/
def wlArrays (Index : Type) [DecidableEq Index] (word : SizeT) (fuel : Nat) :
    Machine (Arrays Index) (ArrayAction Index) :=
  ⟨Arrays.step word fuel⟩

end Guest

/-- What every array of a guest satisfies. -/
structure WlArray.Valid (word : SizeT) (array : WlArray) : Prop where
  size_le : array.size ≤ array.alloc
  alloc_lt : array.alloc < word.values
  holds : array.bytes.length = array.alloc
  placed : ∀ buffer, array.data = some buffer →
    0 < buffer.address ∧ 0 < array.alloc ∧ buffer.address + array.alloc < word.values

/-- The failures of `wl_array_add`: the new size exceeds `SIZE_MAX`, or a larger block
is needed and not given. -/
def AddFails (word : SizeT) (fuel : Nat) (answer : Answer) (array : WlArray) (size : Nat) : Prop :=
  word.max < array.size + size ∨
    array.alloc < array.size + size ∧
      ∃ capacity, capacityLoop word (array.size + size) fuel (max array.alloc 16) = some capacity ∧
        realloc word answer array.data capacity = none

/-- The copy has to lengthen the target, and that request fails. -/
def CopyFails (word : SizeT) (fuel : Nat) (answer : Answer) (array source : WlArray) : Prop :=
  array.size < source.size ∧ AddFails word fuel answer array (source.size - array.size)

section Calls

variable {word : SizeT} {array source after : WlArray} {fuel size : Nat} {answer : Answer}

/-- Doubling ends at a capacity that suffices, without a product that wraps. -/
theorem capacityLoop_spec {required capacity : Nat} (small : required < word.values)
    (fits : capacity < word.values) (enough : word.values ≤ capacity * 2 ^ fuel) :
    ∃ result, capacityLoop word required (fuel + 1) capacity = some result ∧
      required ≤ result ∧ capacity ≤ result ∧ result < word.values := by
  induction fuel generalizing capacity with
  | zero => omega
  | succ fuel ih =>
      rw [capacityLoop]
      by_cases less : capacity < required
      · rw [if_pos less]
        by_cases large : word.max / 2 < capacity
        · exact ⟨required, if_pos large, Nat.le_refl _, Nat.le_of_lt less, small⟩
        · have doubled : capacity * 2 < word.values := by
            rw [SizeT.max] at large
            omega
          have product : word.product capacity 2 = some (capacity * 2) := if_pos doubled
          have remaining : word.values ≤ capacity * 2 * 2 ^ fuel := by
            rwa [Nat.mul_assoc, ← Nat.pow_succ']
          obtain ⟨result, ends, sufficient, larger, bounded⟩ := ih doubled remaining
          rw [if_neg large, product, Option.bind_some]
          exact ⟨result, ends, sufficient, by omega, bounded⟩
      · exact ⟨capacity, if_neg less, Nat.le_of_not_lt less, Nat.le_refl _, fits⟩

/-- The loop as `wl_array_add` enters it. -/
theorem capacityLoop_of_alloc {required alloc : Nat} (small : required < word.values)
    (fits : alloc < word.values) (enough : word.bits ≤ fuel) :
    ∃ capacity, capacityLoop word required fuel (max alloc 16) = some capacity ∧
      required ≤ capacity ∧ alloc ≤ capacity ∧ capacity < word.values := by
  obtain ⟨remaining, rfl⟩ : ∃ remaining, fuel = remaining + 1 :=
    Nat.exists_eq_succ_of_ne_zero (by cases word <;> simp [SizeT.bits] at enough <;> omega)
  have start : max alloc 16 < word.values := by
    have sixteen : 16 < word.values := by cases word <;> decide
    omega
  have twice : word.values ≤ max alloc 16 * 2 ^ remaining := by
    calc word.values ≤ 2 ^ (remaining + 1) := Nat.pow_le_pow_right (by decide) enough
      _ = 2 * 2 ^ remaining := Nat.pow_succ'
      _ ≤ max alloc 16 * 2 ^ remaining := Nat.mul_le_mul_right _ (by omega)
  obtain ⟨capacity, ends, sufficient, larger, bounded⟩ := capacityLoop_spec small start twice
  exact ⟨capacity, ends, sufficient, by omega, bounded⟩

theorem realloc_eq_some {capacity : Nat} {buffer : Buffer} (holds : array.bytes.length ≤ capacity)
    (given : realloc word answer array.data capacity = some buffer) :
    buffer.bytes.length = capacity ∧ 0 < buffer.address ∧
      buffer.address + capacity < word.values ∧ array.bytes <+: buffer.bytes := by
  rw [realloc, Option.ite_none_right_eq_some] at given
  obtain ⟨⟨positive, bounded⟩, same⟩ := given
  cases same
  refine ⟨by simp, positive, bounded, ?_⟩
  rw [List.prefix_iff_getElem?]
  intro index inside
  have within : index < capacity := Nat.lt_of_lt_of_le inside holds
  change _ = some array.bytes[index]
  rw [List.getElem?_map, List.getElem?_range within]
  exact congrArg some (by rw [WlArray.bytes] at inside; simp [WlArray.bytes, inside])

theorem WlArray.Valid.init : wlArrayInit.Valid word :=
  ⟨Nat.le_refl _, Nat.pow_pos (by decide), rfl, fun _ null => nomatch null⟩

/-- What `wl_array_add` does to a valid array. -/
structure Added (word : SizeT) (array after : WlArray) (size pointer : Nat) : Prop where
  size : after.size = array.size + size
  room : after.size ≤ after.alloc
  kept : array.bytes <+: after.bytes
  pointer : pointer = after.pointer + array.size

namespace WlArray.Valid

variable (valid : array.Valid word)

include valid

theorem size_le_max : array.size ≤ word.max := by
  have sizeLe := valid.size_le
  have allocLt := valid.alloc_lt
  rw [SizeT.max]
  omega

/-- The end of the used part of a block is a pointer that is not null unless there is
no block. -/
theorem pointer_add_lt : array.pointer + array.size < word.values := by
  have sizeLe := valid.size_le
  have allocLt := valid.alloc_lt
  rw [WlArray.pointer]
  cases data : array.data with
  | none => simpa using by omega
  | some buffer =>
      have placed := (valid.placed buffer data).2.2
      simp only [Option.map_some, Option.getD_some]
      omega

/-- The first exit: the new size exceeds `SIZE_MAX`. -/
theorem wlArrayAdd_overflow (overflows : word.max < array.size + size) :
    wlArrayAdd word fuel answer array size = some (array, 0) := by
  have room : SizeT.difference word.max array.size = some (word.max - array.size) :=
    if_pos valid.size_le_max
  have sizeMax := valid.size_le_max
  have tight : word.max - array.size < size := by omega
  simp [wlArrayAdd, room, tight]

/-- Past the first exit the call compares the new size with the block it has. -/
theorem wlArrayAdd_of_fits (fits : array.size + size ≤ word.max) :
    wlArrayAdd word fuel answer array size =
      if array.alloc < array.size + size then
        (capacityLoop word (array.size + size) fuel (max array.alloc 16)).bind fun capacity =>
          match realloc word answer array.data capacity with
          | none => some (array, 0)
          | some data => some (⟨array.size + size, capacity, some data⟩,
              (data.address + array.size) % word.values)
      else some ({ array with size := array.size + size },
        (array.pointer + array.size) % word.values) := by
  have room : SizeT.difference word.max array.size = some (word.max - array.size) :=
    if_pos valid.size_le_max
  have loose : ¬ word.max - array.size < size := by omega
  have positive : 0 < word.values := Nat.pow_pos (by decide)
  have total : word.sum array.size size = some (array.size + size) := by
    refine if_pos ?_
    rw [SizeT.max] at fits
    omega
  rw [wlArrayAdd, room, Option.bind_eq_bind, Option.bind_some, if_neg loose, total]
  rfl

theorem add (enough : word.bits ≤ fuel) (size : Nat) (answer : Answer) :
    ∃ after pointer, wlArrayAdd word fuel answer array size = some (after, pointer) ∧
      after.Valid word ∧
      (AddFails word fuel answer array size → after = array ∧ pointer = 0) ∧
      (¬ AddFails word fuel answer array size → Added word array after size pointer) := by
  by_cases overflows : word.max < array.size + size
  · exact ⟨array, 0, valid.wlArrayAdd_overflow overflows, valid, fun _ => ⟨rfl, rfl⟩,
      fun succeeds => absurd (.inl overflows) succeeds⟩
  · have fits : array.size + size ≤ word.max := Nat.le_of_not_lt overflows
    have positive : 0 < word.values := Nat.pow_pos (by decide)
    have small : array.size + size < word.values := by
      rw [SizeT.max] at fits
      omega
    rw [valid.wlArrayAdd_of_fits fits]
    by_cases grows : array.alloc < array.size + size
    · obtain ⟨capacity, ends, sufficient, larger, bounded⟩ :=
        capacityLoop_of_alloc small valid.alloc_lt enough
      rw [if_pos grows, ends, Option.bind_some]
      cases given : realloc word answer array.data capacity with
      | none =>
          exact ⟨array, 0, rfl, valid, fun _ => ⟨rfl, rfl⟩,
            fun succeeds => absurd (.inr ⟨grows, capacity, ends, given⟩) succeeds⟩
      | some data =>
          obtain ⟨length, placed, inside, kept⟩ :=
            realloc_eq_some (Nat.le_trans (Nat.le_of_eq valid.holds) larger) given
          have sizeLe := valid.size_le
          have end_ : (data.address + array.size) % word.values = data.address + array.size :=
            Nat.mod_eq_of_lt (by omega)
          refine ⟨_, _, rfl, ⟨sufficient, bounded, length, ?_⟩, ?_, ?_⟩
          · intro buffer same
            cases same
            exact ⟨placed, Nat.lt_of_lt_of_le (Nat.zero_lt_of_lt grows) sufficient, inside⟩
          · rintro (overflows' | ⟨-, other, endsToo, fails⟩)
            · exact absurd overflows' overflows
            · cases Option.some.inj (ends.symm.trans endsToo)
              exact absurd (given.symm.trans fails) (by simp)
          · intro _
            exact ⟨rfl, sufficient, kept, end_⟩
    · rw [if_neg grows]
      refine ⟨_, _, rfl, ⟨Nat.le_of_not_lt grows, valid.alloc_lt, valid.holds, valid.placed⟩,
        ?_, ?_⟩
      · rintro (overflows' | ⟨grows', -⟩)
        · exact absurd overflows' overflows
        · exact absurd grows' grows
      · intro _
        exact ⟨rfl, Nat.le_of_not_lt grows, List.prefix_refl _,
          Nat.mod_eq_of_lt valid.pointer_add_lt⟩

/-- An array whose block is not empty has a block. -/
theorem data_of_pos (positive : 0 < array.alloc) :
    ∃ buffer, array.data = some buffer ∧ buffer.bytes.length = array.alloc ∧
      0 < buffer.address := by
  have holds := valid.holds
  rw [WlArray.bytes] at holds
  cases data : array.data with
  | none => simp [data] at holds; omega
  | some buffer =>
      rw [data] at holds
      exact ⟨buffer, rfl, holds, (valid.placed buffer data).1⟩

omit valid in
/-- The end of `wl_array_copy`, once the target's block holds the source's bytes. -/
theorem overwrite (valid : array.Valid word) (validSource : source.Valid word)
    (room : source.size ≤ array.alloc) :
    ∃ after, (if source.size = 0 then some ({ array with size := source.size }, 0)
        else (memcpy array.data source.data source.size).bind fun data =>
          some ({ array with data := some data, size := source.size }, (0 : Int))) =
          some (after, 0) ∧
      after.Valid word ∧ after.size = source.size ∧ after.contents = source.contents := by
  by_cases empty : source.size = 0
  · rw [if_pos empty]
    refine ⟨_, rfl, ⟨by simp [empty], valid.alloc_lt, valid.holds, valid.placed⟩, rfl, ?_⟩
    simp [WlArray.contents, empty]
  · have sourceLe := validSource.size_le
    obtain ⟨buffer, data, length, -⟩ := valid.data_of_pos (by omega)
    obtain ⟨other, otherData, otherLength, -⟩ := validSource.data_of_pos (by omega)
    have fits : source.size ≤ buffer.bytes.length ∧ source.size ≤ other.bytes.length := by omega
    have copied : memcpy array.data source.data source.size = some { buffer with
        bytes := other.bytes.take source.size ++ buffer.bytes.drop source.size } := by
      simp [memcpy, data, otherData, fits]
    rw [if_neg empty, copied, Option.bind_some]
    refine ⟨_, rfl, ⟨room, valid.alloc_lt, ?_, ?_⟩, rfl, ?_⟩
    · simp only [WlArray.bytes, Option.map_some, Option.getD_some, List.length_append,
        List.length_take, List.length_drop]
      omega
    · intro placed same
      cases same
      exact valid.placed buffer data
    · simp only [WlArray.contents, WlArray.bytes, otherData, Option.map_some, Option.getD_some]
      rw [List.take_append_of_le_length (by simp; omega), List.take_take, Nat.min_self]

/-- A copy answers -1 exactly where it has to lengthen the target and cannot. -/
theorem copy (validSource : source.Valid word) (enough : word.bits ≤ fuel) :
    ∃ after code, wlArrayCopy word fuel answer false array source = some (after, code) ∧
      after.Valid word ∧
      (CopyFails word fuel answer array source → code = -1 ∧ after = array) ∧
      (¬ CopyFails word fuel answer array source →
        code = 0 ∧ after.size = source.size ∧ after.contents = source.contents) := by
  by_cases longer : array.size < source.size
  · have more : SizeT.difference source.size array.size = some (source.size - array.size) :=
      if_pos (Nat.le_of_lt longer)
    obtain ⟨grown, pointer, called, validGrown, failed, added⟩ :=
      valid.add enough (source.size - array.size) answer
    by_cases fails : AddFails word fuel answer array (source.size - array.size)
    · obtain ⟨rfl, rfl⟩ := failed fails
      refine ⟨grown, -1, ?_, valid, fun _ => ⟨rfl, rfl⟩,
        fun succeeds => absurd ⟨longer, fails⟩ succeeds⟩
      simp [wlArrayCopy, longer, more, called]
    · have sized := (added fails).size
      have roomy := (added fails).room
      obtain ⟨buffer, data, -, positive⟩ := validGrown.data_of_pos (by omega)
      have found : pointer ≠ 0 := by
        rw [(added fails).pointer, WlArray.pointer, data, Option.map_some, Option.getD_some]
        omega
      obtain ⟨after, result, validAfter, size, contents⟩ :=
        overwrite validGrown validSource (by omega)
      refine ⟨after, 0, ?_, validAfter, fun copyFails => absurd copyFails.2 fails,
        fun _ => ⟨rfl, size, contents⟩⟩
      rw [← result]
      simp [wlArrayCopy, longer, more, called, found]
  · obtain ⟨after, result, validAfter, size, contents⟩ :=
      overwrite valid validSource (Nat.le_trans (Nat.le_of_not_lt longer) valid.size_le)
    refine ⟨after, 0, ?_, validAfter, fun copyFails => absurd copyFails.1 longer,
      fun _ => ⟨rfl, size, contents⟩⟩
    rw [← result]
    simp [wlArrayCopy, longer]

/-- Null without a failure is the answer to an empty request for an array that has no
block yet, and to no other request. -/
theorem null_iff_fails_iff (enough : word.bits ≤ fuel) :
    ∃ after pointer, wlArrayAdd word fuel answer array size = some (after, pointer) ∧
      ((pointer = 0 ↔ AddFails word fuel answer array size) ↔
        ¬ (array.data = none ∧ size = 0)) := by
  obtain ⟨after, pointer, called, validAfter, failed, added⟩ :=
    valid.add enough size answer
  refine ⟨after, pointer, called, ?_⟩
  by_cases fails : AddFails word fuel answer array size
  · obtain ⟨-, null⟩ := failed fails
    have needed : ¬ (array.data = none ∧ size = 0) := by
      rintro ⟨noData, rfl⟩
      have empty : array.alloc = 0 := by rw [← valid.holds, WlArray.bytes, noData]; rfl
      have sizeLe := valid.size_le
      have sizeMax := valid.size_le_max
      rcases fails with overflows | ⟨grows, -⟩ <;> omega
    exact iff_of_true (iff_of_true null fails) needed
  · obtain ⟨sized, roomy, kept, pointerIs⟩ := added fails
    by_cases empty : array.data = none ∧ size = 0
    · refine iff_of_false (fun same => fails (same.mp ?_)) (fun other => other empty)
      obtain ⟨noData, rfl⟩ := empty
      have noBlock : array.alloc = 0 := by rw [← valid.holds, WlArray.bytes, noData]; rfl
      have sizeLe := valid.size_le
      have unused : array.size = 0 := by omega
      rw [valid.wlArrayAdd_of_fits valid.size_le_max, if_neg (by omega)] at called
      rw [← (Prod.mk.inj (Option.some.inj called)).2]
      simp [WlArray.pointer, noData, unused]
    · refine iff_of_true (iff_of_false ?_ fails) empty
      have blocked : 0 < after.alloc := by
        by_cases noSize : size = 0
        · cases data : array.data with
          | none => exact absurd ⟨data, noSize⟩ empty
          | some buffer =>
              have positive := (valid.placed buffer data).2.1
              have length := kept.length_le
              rw [valid.holds, validAfter.holds] at length
              omega
        · omega
      obtain ⟨buffer, data, -, positive⟩ := validAfter.data_of_pos blocked
      rw [pointerIs, WlArray.pointer, data, Option.map_some, Option.getD_some]
      omega

omit valid in
theorem write {buffer : Buffer} {offset : Nat} {byte : UInt8} (valid : array.Valid word)
    (data : array.data = some buffer) :
    ({ array with data := some { buffer with bytes := buffer.bytes.set offset byte } } :
      WlArray).Valid word := by
  have holds := valid.holds
  rw [WlArray.bytes, data] at holds
  refine ⟨valid.size_le, valid.alloc_lt, ?_, ?_⟩
  · simpa only [WlArray.bytes, Option.map_some, Option.getD_some, List.length_set] using holds
  · intro placed same
    cases same
    exact valid.placed buffer data

end WlArray.Valid

end Calls

section Runs

variable {Index : Type} [DecidableEq Index] {word : SizeT} {fuel : Nat} {state : Arrays Index}

/-- What an action leaves in the one array it changes. -/
inductive ArrayEffect (word : SizeT) (fuel : Nat) (state : Arrays Index) (index : Index) :
    WlArray → Prop where
  | init : ArrayEffect word fuel state index wlArrayInit
  | add {array after : WlArray} {size pointer : Nat} {answer : Answer} :
      state index = some array → wlArrayAdd word fuel answer array size = some (after, pointer) →
      ArrayEffect word fuel state index after
  | write {array : WlArray} {buffer : Buffer} (offset : Nat) (byte : UInt8) :
      state index = some array → array.data = some buffer → ArrayEffect word fuel state index
        { array with data := some { buffer with bytes := buffer.bytes.set offset byte } }
  | copy {array other after : WlArray} {source : Index} {answer : Answer} {code : Int} :
      state index = some array → state source = some other →
      wlArrayCopy word fuel answer (index = source) array other = some (after, code) →
      ArrayEffect word fuel state index after

theorem effect_of_arrayStep {action : ArrayAction Index} {after : Arrays Index}
    (stepped : (wlArrays Index word fuel).step state action = some after) :
    ∃ index changed, ArrayEffect word fuel state index changed ∧
      after = Function.update state index (some changed) := by
  cases action with
  | init index =>
      cases stepped
      exact ⟨index, _, .init, rfl⟩
  | add index size answer =>
      simp only [wlArrays, Arrays.step, Option.bind_eq_bind, Option.bind_eq_some_iff,
        Option.pure_def, Option.some.injEq, Prod.exists] at stepped
      obtain ⟨array, used, changed, pointer, called, rfl⟩ := stepped
      exact ⟨index, changed, .add used called, rfl⟩
  | write index offset byte =>
      simp only [wlArrays, Arrays.step, Option.bind_eq_bind, Option.bind_eq_some_iff,
        Option.ite_none_right_eq_some, Option.pure_def, Option.some.injEq] at stepped
      obtain ⟨array, used, buffer, data, -, rfl⟩ := stepped
      exact ⟨index, _, .write offset byte used data, rfl⟩
  | copy target source answer =>
      simp only [wlArrays, Arrays.step, Option.bind_eq_bind, Option.bind_eq_some_iff,
        Option.pure_def, Option.some.injEq, Prod.exists] at stepped
      obtain ⟨array, used, other, usedToo, changed, code, called, rfl⟩ := stepped
      exact ⟨target, changed, .copy used usedToo called, rfl⟩

theorem ArrayEffect.valid (enough : word.bits ≤ fuel) {index : Index} {changed : WlArray}
    (valid : ∀ {index : Index} {array : WlArray}, state index = some array → array.Valid word)
    (effect : ArrayEffect word fuel state index changed) : changed.Valid word := by
  cases effect with
  | init => exact .init
  | add used called =>
      obtain ⟨_, _, calledToo, kept, -⟩ := (valid used).add enough _ _
      cases Option.some.inj (called.symm.trans calledToo)
      exact kept
  | write offset byte used data => exact .write (valid used) data
  | @copy array other after source answer code used usedToo called =>
      by_cases same : index = source
      · simp only [wlArrayCopy, same, decide_true, if_true, Option.pure_def, Option.some.injEq,
          Prod.mk.injEq] at called
        obtain ⟨rfl, -⟩ := called
        exact valid used
      · rw [decide_eq_false same] at called
        obtain ⟨_, _, calledToo, kept, -⟩ := (valid used).copy (valid usedToo) enough
        cases Option.some.inj (called.symm.trans calledToo)
        exact kept

/-- Every array of a guest is valid, whatever it called and the allocator answered. -/
theorem valid_of_reachable (enough : word.bits ≤ fuel)
    (reachable : (wlArrays Index word fuel).Reachable (fun _ => none) state) {index : Index}
    {array : WlArray} (used : state index = some array) : array.Valid word := by
  revert index array
  refine reachable.invariant (fun state : Arrays Index =>
    ∀ {index : Index} {array : WlArray}, state index = some array → array.Valid word) ?_ ?_
  · intro index array used
    cases used
  · intro before action after valid stepped index array used
    obtain ⟨changedIndex, changed, effect, rfl⟩ := effect_of_arrayStep stepped
    by_cases same : index = changedIndex
    · subst same
      rw [Function.update_self] at used
      cases used
      exact effect.valid enough valid
    · rw [Function.update_of_ne same] at used
      exact valid used

/-- In every reachable state an array's size and block agree, and the calls do what they
are for: their arithmetic does not wrap, the doubling ends, a failure changes nothing, an
addition keeps what is there and makes room, and a copy makes equal unless it has to
lengthen the target and cannot. -/
theorem wlArrays_safe (enough : word.bits ≤ fuel)
    (reachable : (wlArrays Index word fuel).Reachable (fun _ => none) state) {index : Index}
    {array : WlArray} (used : state index = some array) :
    (array.size ≤ array.alloc ∧ array.bytes.length = array.alloc) ∧
      (∀ size answer, ∃ after pointer,
        wlArrayAdd word fuel answer array size = some (after, pointer) ∧
        (AddFails word fuel answer array size → after = array ∧ pointer = 0) ∧
        (¬ AddFails word fuel answer array size → Added word array after size pointer)) ∧
      ∀ source other answer, state source = some other → ∃ after code,
        wlArrayCopy word fuel answer (index = source) array other = some (after, code) ∧
        (index = source → after = array ∧ code = 0) ∧
        (code = 0 ∧ after.size = other.size ∧ after.contents = other.contents ∨
          code = -1 ∧ after = array) ∧
        (code = -1 ↔ index ≠ source ∧ CopyFails word fuel answer array other) := by
  have valid : ∀ {index : Index} {array : WlArray}, state index = some array → array.Valid word :=
    fun used => valid_of_reachable enough reachable used
  refine ⟨⟨(valid used).size_le, (valid used).holds⟩, ?_, ?_⟩
  · intro size answer
    obtain ⟨after, pointer, called, -, failed, added⟩ := (valid used).add enough size answer
    exact ⟨after, pointer, called, failed, added⟩
  · intro source other answer usedToo
    by_cases same : index = source
    · subst same
      cases Option.some.inj (used.symm.trans usedToo)
      exact ⟨array, 0, by simp [wlArrayCopy], fun _ => ⟨rfl, rfl⟩, .inl ⟨rfl, rfl, rfl⟩,
        by simp⟩
    · obtain ⟨after, code, called, -, failed, copied⟩ :=
        (valid used).copy (valid usedToo) enough
      rw [decide_eq_false same]
      refine ⟨after, code, called, fun equal => absurd equal same, ?_⟩
      by_cases fails : CopyFails word fuel answer array other
      · obtain ⟨rfl, unchanged⟩ := failed fails
        exact ⟨.inr ⟨rfl, unchanged⟩, iff_of_true rfl ⟨same, fails⟩⟩
      · obtain ⟨rfl, equal⟩ := copied fails
        exact ⟨.inl ⟨rfl, equal⟩, iff_of_false (by decide) fun both => fails both.2⟩

/-- A request that wraps and one the allocator refuses, both of an array with four bytes. -/
theorem wlArrays_safe_four :
    ∃ after pointer, wlArrayAdd .bits32 32 ⟨0, fun _ => 0⟩
        ⟨4, 16, some ⟨4096, List.replicate 16 0⟩⟩ (2 ^ 32 - 4) = some (after, pointer) ∧
      after = ⟨4, 16, some ⟨4096, List.replicate 16 0⟩⟩ := by
  have reachable : (wlArrays Unit .bits32 32).Reachable (fun _ => none)
      (Function.update (Function.update (fun _ => none) () (some wlArrayInit)) ()
        (some ⟨4, 16, some ⟨4096, List.replicate 16 0⟩⟩)) :=
    ⟨[.init (), .add () 4 ⟨4096, fun _ => 0⟩], rfl⟩
  obtain ⟨-, adds, -⟩ := wlArrays_safe (by decide) reachable (Function.update_self ..)
  obtain ⟨after, pointer, called, failed, -⟩ := adds (2 ^ 32 - 4) ⟨0, fun _ => 0⟩
  exact ⟨after, pointer, called, (failed (.inl (by decide))).1⟩

/-- `wl_array_add` answers null without a failure exactly where an array that has no
block yet is asked for nothing. -/
theorem wlArrayAdd_null_iff (enough : word.bits ≤ fuel)
    (reachable : (wlArrays Index word fuel).Reachable (fun _ => none) state) {index : Index}
    {array : WlArray} (used : state index = some array) (size : Nat) (answer : Answer) :
    ∃ after pointer, wlArrayAdd word fuel answer array size = some (after, pointer) ∧
      ((pointer = 0 ↔ AddFails word fuel answer array size) ↔
        ¬ (array.data = none ∧ size = 0)) :=
  (valid_of_reachable enough reachable used).null_iff_fails_iff enough

/-- The first request of an array gets a block. -/
theorem wlArrayAdd_null_iff_first :
    ∃ after pointer, wlArrayAdd .bits64 64 ⟨4096, fun _ => 0⟩ wlArrayInit 8 =
        some (after, pointer) ∧
      (pointer = 0 ↔ AddFails .bits64 64 ⟨4096, fun _ => 0⟩ wlArrayInit 8) := by
  have reachable : (wlArrays Unit .bits64 64).Reachable (fun _ => none)
      (Function.update (fun _ => none) () (some wlArrayInit)) := ⟨[.init ()], rfl⟩
  obtain ⟨after, pointer, called, exact_⟩ :=
    wlArrayAdd_null_iff (by decide) reachable (Function.update_self ..) 8 ⟨4096, fun _ => 0⟩
  exact ⟨after, pointer, called, exact_.mpr (by simp)⟩

/-- An empty request of a new array is answered with null, though nothing failed. -/
theorem wlArrayAdd_null_unfailed :
    wlArrayAdd .bits64 64 ⟨4096, fun _ => 0⟩ wlArrayInit 0 = some (wlArrayInit, 0) ∧
      ¬ AddFails .bits64 64 ⟨4096, fun _ => 0⟩ wlArrayInit 0 ∧
      (wlArrays Unit .bits64 64).run (fun _ => none) [.init ()] =
        some (Function.update (fun _ => none) () (some wlArrayInit)) := by
  refine ⟨rfl, ?_, rfl⟩
  rintro (overflows | ⟨grows, -⟩)
  · exact absurd overflows (by decide)
  · exact absurd grows (by decide)

end Runs

end X86OnArm.Thunks
