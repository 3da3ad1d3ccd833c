import Mathlib.Data.List.Nodup
import Mathlib.Data.List.Perm.Basic
import Mathlib.Tactic.Common

/-! # Dictionaries in insertion order

A dictionary of a scripting language: keys are unique, a new key goes to the
end, and an assignment to a present key keeps its position. Iteration order is
observable, so two dictionaries are equal only when they list the same entries
in the same order.

Every operation commutes with restriction to a set of keys
(`Foundation.Dict.filter_insert`, `Foundation.Dict.filter_update`,
`Foundation.Dict.filter_setDefault`): what a pipeline of operations leaves at
those keys is the pipeline run on its restricted input. Every operation also
respects equality up to order (`Foundation.Dict.Congruence.agrees`).
-/

namespace Foundation

universe u v

/-- Entries in insertion order under unique keys. -/
structure Dict (κ : Type u) (ν : Type v) where
  entries : List (κ × ν)
  nodup : (entries.map Prod.fst).Nodup

namespace Dict

variable {κ : Type u} {ν : Type v}

@[ext] theorem ext {first second : Dict κ ν} (same : first.entries = second.entries) :
    first = second := by
  cases first
  cases second
  cases same
  rfl

def keys (dict : Dict κ ν) : List κ := dict.entries.map Prod.fst

instance : Membership κ (Dict κ ν) := ⟨fun dict key => key ∈ dict.keys⟩

/-- Membership is membership of the key among the entries. -/
theorem mem_def {dict : Dict κ ν} {key : κ} : key ∈ dict ↔ key ∈ dict.entries.map Prod.fst :=
  Iff.rfl

def empty : Dict κ ν := ⟨[], List.nodup_nil⟩

/-- The dictionary comprehension that keeps the entries whose key passes. -/
def filter (dict : Dict κ ν) (keep : κ → Bool) : Dict κ ν where
  entries := dict.entries.filter fun entry => keep entry.1
  nodup := dict.nodup.sublist (List.filter_sublist.map _)

/-- A comprehension has the keys that pass. -/
@[simp] theorem mem_filter {dict : Dict κ ν} {keep : κ → Bool} {key : κ} :
    key ∈ dict.filter keep ↔ key ∈ dict ∧ keep key = true := by
  simp only [mem_def, filter, List.mem_map, List.mem_filter]
  constructor
  · rintro ⟨entry, ⟨member, kept⟩, rfl⟩
    exact ⟨⟨entry, member, rfl⟩, kept⟩
  · rintro ⟨⟨entry, member, rfl⟩, kept⟩
    exact ⟨entry, ⟨member, kept⟩, rfl⟩

/-- Two restrictions are one to the keys that pass both. -/
theorem filter_filter (dict : Dict κ ν) (first second : κ → Bool) :
    (dict.filter first).filter second = dict.filter fun key => first key && second key := by
  apply ext
  simp only [filter, List.filter_filter]
  congr 1
  funext entry
  exact Bool.and_comm _ _

/-- Restriction depends on the values of the test only. -/
theorem filter_congr {dict : Dict κ ν} {first second : κ → Bool}
    (same : ∀ key, first key = second key) : dict.filter first = dict.filter second := by
  rw [funext same]

variable [DecidableEq κ]

instance (dict : Dict κ ν) (key : κ) : Decidable (key ∈ dict) :=
  inferInstanceAs (Decidable (key ∈ dict.entries.map Prod.fst))

/-- `dict.get(key)`. -/
def get? (dict : Dict κ ν) (key : κ) : Option ν := dict.entries.lookup key

/-- The entries after an assignment. -/
def assign (key : κ) (value : ν) : List (κ × ν) → List (κ × ν)
  | [] => [(key, value)]
  | entry :: rest => if entry.1 = key then (key, value) :: rest else entry :: assign key value rest

/-- A new key goes to the end. -/
theorem assign_of_not_mem {key : κ} {value : ν} {entries : List (κ × ν)}
    (fresh : key ∉ entries.map Prod.fst) :
    assign key value entries = entries ++ [(key, value)] := by
  induction entries with
  | nil => rfl
  | cons entry rest ih =>
      rw [List.map_cons, List.mem_cons, not_or] at fresh
      rw [assign, if_neg (Ne.symm fresh.1), ih fresh.2, List.cons_append]

/-- A present key keeps its position. -/
theorem keys_assign_of_mem {key : κ} {value : ν} {entries : List (κ × ν)}
    (present : key ∈ entries.map Prod.fst) :
    (assign key value entries).map Prod.fst = entries.map Prod.fst := by
  induction entries with
  | nil => simp at present
  | cons entry rest ih =>
      by_cases same : entry.1 = key
      · simp only [assign, same, ↓reduceIte, List.map_cons]
      · have later : key ∈ rest.map Prod.fst := by
          simpa only [List.map_cons, List.mem_cons, Ne.symm same, false_or] using present
        simp only [assign, same, ↓reduceIte, List.map_cons, ih later]

/-- An assignment adds its key and no other. -/
theorem mem_keys_assign {key other : κ} {value : ν} {entries : List (κ × ν)} :
    other ∈ (assign key value entries).map Prod.fst ↔
      other = key ∨ other ∈ entries.map Prod.fst := by
  by_cases present : key ∈ entries.map Prod.fst
  · rw [keys_assign_of_mem present]
    constructor
    · exact Or.inr
    · rintro (rfl | member)
      · exact present
      · exact member
  · rw [assign_of_not_mem present, List.map_append, List.mem_append]
    simp only [List.map_cons, List.map_nil, List.mem_singleton]
    exact or_comm

/-- Keys stay unique under an assignment. -/
theorem nodup_assign {key : κ} {value : ν} {entries : List (κ × ν)}
    (nodup : (entries.map Prod.fst).Nodup) :
    ((assign key value entries).map Prod.fst).Nodup := by
  by_cases present : key ∈ entries.map Prod.fst
  · rwa [keys_assign_of_mem present]
  · rw [assign_of_not_mem present, List.map_append]
    exact List.nodup_append.mpr ⟨nodup, List.nodup_singleton _, by
      intro first member second single same
      simp only [List.map_cons, List.map_nil, List.mem_singleton] at single
      exact present (single ▸ same ▸ member)⟩

/-- `dict[key] = value`. -/
def insert (dict : Dict κ ν) (key : κ) (value : ν) : Dict κ ν where
  entries := assign key value dict.entries
  nodup := nodup_assign dict.nodup

/-- An assignment adds its key and no other. -/
@[simp] theorem mem_insert {dict : Dict κ ν} {key other : κ} {value : ν} :
    other ∈ dict.insert key value ↔ other = key ∨ other ∈ dict := mem_keys_assign

/-- What is found among the entries after an assignment. -/
theorem lookup_assign (key other : κ) (value : ν) (entries : List (κ × ν)) :
    (assign key value entries).lookup other =
      if other = key then some value else entries.lookup other := by
  have head (rest : List (κ × ν)) (tail : Option ν) (equal : rest.lookup other = tail) :
      ((key, value) :: rest).lookup other = if other = key then some value else tail := by
    rw [List.lookup_cons, equal]
    by_cases same : other = key
    · rw [if_pos same, beq_iff_eq.mpr same]
    · rw [if_neg same, beq_false_of_ne same]
  induction entries with
  | nil => exact head [] none rfl
  | cons entry rest ih =>
      rw [assign, List.lookup_cons]
      by_cases here : entry.1 = key
      · rw [if_pos here, head rest _ rfl, here]
        by_cases same : other = key
        · rw [if_pos same, if_pos same]
        · rw [if_neg same, if_neg same, beq_false_of_ne same]
      · rw [if_neg here, List.lookup_cons, ih]
        by_cases found : other = entry.1
        · have different : other ≠ key := fun same => here (found.symm.trans same)
          simp only [beq_iff_eq.mpr found, different, ↓reduceIte]
        · rw [beq_false_of_ne found]

/-- What is found in a dictionary after an assignment. -/
theorem get?_insert (dict : Dict κ ν) (key other : κ) (value : ν) :
    (dict.insert key value).get? other = if other = key then some value else dict.get? other :=
  lookup_assign key other value dict.entries

/-- The assigned value is found under its key. -/
@[simp] theorem get?_insert_self (dict : Dict κ ν) (key : κ) (value : ν) :
    (dict.insert key value).get? key = some value := by
  rw [get?_insert, if_pos rfl]

/-- An assignment changes no other key. -/
theorem get?_insert_of_ne (dict : Dict κ ν) {key other : κ} (value : ν) (different : other ≠ key) :
    (dict.insert key value).get? other = dict.get? other := by
  rw [get?_insert, if_neg different]

@[simp] theorem get?_empty (key : κ) : (empty : Dict κ ν).get? key = none := rfl

/-- Nothing is found exactly under the keys that are absent. -/
theorem get?_eq_none {dict : Dict κ ν} {key : κ} : dict.get? key = none ↔ key ∉ dict := by
  unfold get?
  rw [List.lookup_eq_none_iff]
  constructor
  · intro absent present
    obtain ⟨entry, member, same⟩ := List.mem_map.mp present
    exact (bne_iff_ne.mp (absent entry member)) same.symm
  · intro absent entry member
    apply bne_iff_ne.mpr
    intro same
    exact absent (List.mem_map.mpr ⟨entry, member, same.symm⟩)

/-- A restriction hides the keys that do not pass, and no others. -/
theorem get?_filter (dict : Dict κ ν) (keep : κ → Bool) (key : κ) :
    (dict.filter keep).get? key = if keep key then dict.get? key else none := by
  change (dict.entries.filter fun entry => keep entry.1).lookup key = _
  unfold get?
  induction dict.entries with
  | nil => simp
  | cons entry rest ih =>
      rw [List.filter_cons, List.lookup_cons]
      cases kept : keep entry.1 with
      | true =>
          rw [if_pos rfl, List.lookup_cons, ih]
          cases same : key == entry.1 with
          | true => simp only [eq_of_beq same, kept, ↓reduceIte]
          | false => rfl
      | false =>
          rw [if_neg Bool.false_ne_true, ih]
          cases same : key == entry.1 with
          | true => simp only [eq_of_beq same, kept, Bool.false_eq_true, ↓reduceIte]
          | false => rfl

/-- Restriction commutes with an assignment, which vanishes at a key that does not pass. -/
theorem filter_insert (dict : Dict κ ν) (keep : κ → Bool) (key : κ) (value : ν) :
    (dict.insert key value).filter keep =
      if keep key then (dict.filter keep).insert key value else dict.filter keep := by
  have entriesEq : (assign key value dict.entries).filter (fun entry => keep entry.1) =
      if keep key then assign key value (dict.entries.filter fun entry => keep entry.1)
      else dict.entries.filter fun entry => keep entry.1 := by
    induction dict.entries with
    | nil =>
        cases kept : keep key <;> simp [assign, kept]
    | cons entry rest ih =>
        by_cases here : entry.1 = key
        · cases kept : keep key <;> simp [assign, here, kept]
        · cases kept : keep entry.1 with
          | true =>
              simp only [assign, here, ↓reduceIte, List.filter_cons, kept, ih]
              cases keep key <;> rfl
          | false =>
              simp only [assign, here, ↓reduceIte, List.filter_cons, kept, Bool.false_eq_true, ih]
  apply ext
  change (assign key value dict.entries).filter (fun entry => keep entry.1) = _
  rw [entriesEq]
  split <;> rfl

/-- `dict.update(other)` for the entries of `other` in order. -/
def updateEntries (dict : Dict κ ν) : List (κ × ν) → Dict κ ν
  | [] => dict
  | entry :: rest => updateEntries (dict.insert entry.1 entry.2) rest

/-- `dict.update(other)`, and the union `dict | other`. -/
def update (dict other : Dict κ ν) : Dict κ ν := dict.updateEntries other.entries

/-- A dictionary display or `dict` applied to a list of pairs. -/
def ofList (entries : List (κ × ν)) : Dict κ ν := empty.updateEntries entries

@[simp] theorem updateEntries_nil (dict : Dict κ ν) : dict.updateEntries [] = dict := rfl

/-- An update assigns its first entry first. -/
theorem updateEntries_cons (dict : Dict κ ν) (entry : κ × ν) (rest : List (κ × ν)) :
    dict.updateEntries (entry :: rest) = (dict.insert entry.1 entry.2).updateEntries rest := rfl

/-- Two updates after each other are one. -/
theorem updateEntries_append (dict : Dict κ ν) (first second : List (κ × ν)) :
    dict.updateEntries (first ++ second) = (dict.updateEntries first).updateEntries second := by
  induction first generalizing dict with
  | nil => rfl
  | cons entry rest ih => simp only [List.cons_append, updateEntries_cons, ih]

/-- An update adds the keys of its entries. -/
@[simp] theorem mem_updateEntries {dict : Dict κ ν} {entries : List (κ × ν)} {key : κ} :
    key ∈ dict.updateEntries entries ↔ key ∈ dict ∨ key ∈ entries.map Prod.fst := by
  induction entries generalizing dict with
  | nil => simp
  | cons entry rest ih =>
      rw [updateEntries_cons, ih, mem_insert, List.map_cons, List.mem_cons]
      tauto

/-- An update adds the other dictionary's keys. -/
@[simp] theorem mem_update {dict other : Dict κ ν} {key : κ} :
    key ∈ dict.update other ↔ key ∈ dict ∨ key ∈ other := mem_updateEntries

/-- An update changes no key that its entries do not have. -/
theorem get?_updateEntries_of_not_mem (dict : Dict κ ν) {entries : List (κ × ν)} {key : κ}
    (absent : key ∉ entries.map Prod.fst) :
    (dict.updateEntries entries).get? key = dict.get? key := by
  induction entries generalizing dict with
  | nil => rfl
  | cons entry rest ih =>
      rw [List.map_cons, List.mem_cons, not_or] at absent
      rw [updateEntries_cons, ih _ absent.2, get?_insert_of_ne _ _ absent.1]

/-- A value found after an update was there before or is one of the update's. -/
theorem get?_or_mem_of_get?_updateEntries {dict : Dict κ ν} {entries : List (κ × ν)} {key : κ}
    {value : ν} (found : (dict.updateEntries entries).get? key = some value) :
    dict.get? key = some value ∨ (key, value) ∈ entries := by
  induction entries generalizing dict with
  | nil => exact .inl found
  | cons entry rest ih =>
      rw [updateEntries_cons] at found
      rcases ih found with before | later
      · rw [get?_insert] at before
        split at before
        next same =>
          cases before
          exact .inr (List.mem_cons.mpr (.inl (Prod.ext same rfl)))
        next => exact .inl before
      · exact .inr (List.mem_cons_of_mem _ later)

/-- The other dictionary's values win. -/
theorem get?_update (dict other : Dict κ ν) (key : κ) :
    (dict.update other).get? key = (other.get? key).or (dict.get? key) := by
  obtain ⟨entries, nodup⟩ := other
  unfold update
  change (dict.updateEntries entries).get? key = (entries.lookup key).or (dict.get? key)
  induction entries generalizing dict with
  | nil => rfl
  | cons entry rest ih =>
      rw [List.map_cons, List.nodup_cons] at nodup
      rw [updateEntries_cons, List.lookup_cons]
      cases same : key == entry.1 with
      | true =>
          have equal := eq_of_beq same
          rw [get?_updateEntries_of_not_mem _ (equal ▸ nodup.1), equal, get?_insert_self]
          rfl
      | false =>
          rw [ih _ nodup.2, get?_insert_of_ne _ _ (ne_of_beq_false same)]

/-- A display without repeated keys holds its own entries. -/
theorem get?_ofList {entries : List (κ × ν)} (nodup : (entries.map Prod.fst).Nodup) (key : κ) :
    (ofList entries).get? key = entries.lookup key := by
  have looked := get?_update empty ⟨entries, nodup⟩ key
  rwa [get?_empty, Option.or_none] at looked

/-- What is found in a list of keys with a value for each. -/
theorem lookup_map (keys : List κ) (value : κ → ν) (key : κ) :
    (keys.map fun key => (key, value key)).lookup key =
      if key ∈ keys then some (value key) else none := by
  induction keys with
  | nil => rfl
  | cons first rest ih =>
      rw [List.map_cons, List.lookup_cons, ih]
      by_cases same : key = first
      · simp only [same, beq_self_eq_true, List.mem_cons, true_or, ↓reduceIte]
      · rw [beq_false_of_ne same]
        simp only [List.mem_cons, same, false_or]

/-- Restriction commutes with an update, entry by entry. -/
theorem filter_updateEntries (dict : Dict κ ν) (keep : κ → Bool) (entries : List (κ × ν)) :
    (dict.updateEntries entries).filter keep =
      (dict.filter keep).updateEntries (entries.filter fun entry => keep entry.1) := by
  induction entries generalizing dict with
  | nil => rfl
  | cons entry rest ih =>
      rw [updateEntries_cons, ih, filter_insert, List.filter_cons]
      cases keep entry.1 <;> rfl

/-- Restriction commutes with an update. -/
theorem filter_update (dict other : Dict κ ν) (keep : κ → Bool) :
    (dict.update other).filter keep = (dict.filter keep).update (other.filter keep) :=
  filter_updateEntries dict keep other.entries

/-- `dict.setdefault(key, value)`. -/
def setDefault (dict : Dict κ ν) (key : κ) (value : ν) : Dict κ ν :=
  if key ∈ dict then dict else dict.insert key value

/-- Restriction commutes with a default. -/
theorem filter_setDefault (dict : Dict κ ν) (keep : κ → Bool) (key : κ) (value : ν) :
    (dict.setDefault key value).filter keep =
      if keep key then (dict.filter keep).setDefault key value else dict.filter keep := by
  unfold setDefault
  by_cases present : key ∈ dict
  · rw [if_pos present]
    by_cases kept : keep key = true
    · rw [if_pos kept, if_pos (mem_filter.mpr ⟨present, kept⟩)]
    · rw [if_neg kept]
  · rw [if_neg present, filter_insert]
    by_cases kept : keep key = true
    · rw [if_pos kept, if_pos kept, if_neg fun member => present (mem_filter.mp member).1]
    · rw [if_neg kept, if_neg kept]

/-- The keys are those under which something is found. -/
theorem mem_iff_get? {dict : Dict κ ν} {key : κ} :
    key ∈ dict ↔ ∃ value, dict.get? key = some value := by
  rw [← not_iff_not, ← get?_eq_none, ← Option.ne_none_iff_exists', not_not]

/-- A default is found under its key where nothing was, and changes no other key. -/
theorem get?_setDefault (dict : Dict κ ν) (key other : κ) (value : ν) :
    (dict.setDefault key value).get? other =
      if other = key then some ((dict.get? key).getD value) else dict.get? other := by
  unfold setDefault
  split
  · rename_i present
    obtain ⟨old, stored⟩ := mem_iff_get?.mp present
    split
    · rename_i same
      rw [same, stored, Option.getD_some]
    · rfl
  · rename_i absent
    rw [get?_insert, get?_eq_none.mpr absent, Option.getD_none]

/-- The entries are the keys with what is found under them. -/
theorem mem_entries {dict : Dict κ ν} {key : κ} {value : ν} :
    (key, value) ∈ dict.entries ↔ dict.get? key = some value := by
  obtain ⟨entries, nodup⟩ := dict
  change (key, value) ∈ entries ↔ entries.lookup key = some value
  induction entries with
  | nil => simp
  | cons entry rest ih =>
      rw [List.map_cons, List.nodup_cons] at nodup
      rw [List.mem_cons, List.lookup_cons]
      cases same : key == entry.1 with
      | true =>
          have equal := eq_of_beq same
          have fresh : (key, value) ∉ rest := by
            intro member
            exact nodup.1 (equal ▸ List.mem_map_of_mem member)
          simp only [fresh, or_false, Option.some.injEq]
          constructor
          · intro found
            rw [← found]
          · intro found
            rw [equal, ← found]
      | false =>
          have different : (key, value) ≠ entry := by
            intro found
            exact ne_of_beq_false same (congrArg Prod.fst found)
          rw [← ih nodup.2]
          simp only [different, false_or]

omit [DecidableEq κ] in
/-- No entry is listed twice. -/
theorem nodup_entries (dict : Dict κ ν) : dict.entries.Nodup := List.Nodup.of_map _ dict.nodup

/-- The entries whose keys `rename` keeps, under their new keys. -/
def rename (dict : Dict κ ν) (rename : κ → Option κ)
    (injective : ∀ first second key, rename first = some key → rename second = some key →
      first = second) : Dict κ ν where
  entries := dict.entries.filterMap fun entry => (rename entry.1).map fun key => (key, entry.2)
  nodup := by
    rw [List.map_filterMap]
    have keys : (dict.entries.filterMap fun entry =>
        ((rename entry.1).map fun key => (key, entry.2)).map Prod.fst) =
        (dict.entries.map Prod.fst).filterMap rename := by
      rw [List.filterMap_map]
      congr 1
      funext entry
      rw [Option.map_map]
      exact Option.map_id'
    rw [keys]
    exact dict.nodup.filterMap fun first second key one other =>
      injective first second key one other

omit [DecidableEq κ] in
/-- The keys after a renaming are the new names of the old ones. -/
theorem mem_rename {dict : Dict κ ν} {rename : κ → Option κ}
    {injective : ∀ first second key, rename first = some key → rename second = some key →
      first = second} {key : κ} :
    key ∈ dict.rename rename injective ↔ ∃ old ∈ dict, rename old = some key := by
  rw [mem_def]
  unfold Dict.rename
  rw [List.mem_map]
  constructor
  · rintro ⟨entry, member, rfl⟩
    obtain ⟨old, stored, found⟩ := List.mem_filterMap.mp member
    obtain ⟨key, kept, rfl⟩ := Option.map_eq_some_iff.mp found
    exact ⟨old.1, List.mem_map_of_mem stored, kept⟩
  · rintro ⟨old, present, kept⟩
    obtain ⟨entry, stored, rfl⟩ := List.mem_map.mp present
    exact ⟨(key, entry.2), List.mem_filterMap.mpr ⟨entry, stored, by rw [kept]; rfl⟩, rfl⟩

/-- A renamed key keeps its value. -/
theorem get?_rename {dict : Dict κ ν} {rename : κ → Option κ}
    {injective : ∀ first second key, rename first = some key → rename second = some key →
      first = second} {old new : κ} (renamed : rename old = some new) :
    (dict.rename rename injective).get? new = dict.get? old := by
  apply Option.ext
  intro value
  rw [← mem_entries, ← mem_entries]
  change _ ∈ List.filterMap _ _ ↔ _
  rw [List.mem_filterMap]
  constructor
  · rintro ⟨entry, member, found⟩
    obtain ⟨key, kept, same⟩ := Option.map_eq_some_iff.mp found
    cases same
    rwa [injective old entry.1 new renamed kept]
  · intro member
    exact ⟨(old, value), member, by rw [renamed]; rfl⟩

/-- Two dictionaries that hold the same entries, in whatever order. -/
def Agrees (first second : Dict κ ν) : Prop := first.entries.Perm second.entries

/-- Two dictionaries agree when the same is found in both, whatever the key. -/
theorem agrees_iff {first second : Dict κ ν} :
    first.Agrees second ↔ ∀ key, first.get? key = second.get? key := by
  unfold Agrees
  rw [List.perm_ext_iff_of_nodup first.nodup_entries second.nodup_entries]
  constructor
  · intro same key
    apply Option.ext
    intro value
    rw [← mem_entries, ← mem_entries, same]
  · rintro same ⟨key, value⟩
    rw [mem_entries, mem_entries, same]

/-- Values that agree at every kept key leave dictionaries that agree. -/
theorem agrees_filter {first second : Dict κ ν} {keep : κ → Bool}
    (same : ∀ key, keep key = true → first.get? key = second.get? key) :
    (first.filter keep).Agrees (second.filter keep) := by
  apply agrees_iff.mpr
  intro key
  rw [get?_filter, get?_filter]
  split
  · exact same key ‹_›
  · rfl

/-- A relation on dictionaries that every operation respects. -/
structure Congruence (related : Dict κ ν → Dict κ ν → Prop) : Prop where
  refl (dict : Dict κ ν) : related dict dict
  get? {first second : Dict κ ν} (same : related first second) (key : κ) :
    first.get? key = second.get? key
  filter {first second : Dict κ ν} (same : related first second) (keep : κ → Bool) :
    related (first.filter keep) (second.filter keep)
  insert {first second : Dict κ ν} (same : related first second) (key : κ) (value : ν) :
    related (first.insert key value) (second.insert key value)
  update {first second added other : Dict κ ν} (same : related first second)
    (values : related added other) : related (first.update added) (second.update other)

namespace Congruence

variable {related : Dict κ ν → Dict κ ν → Prop} {first second : Dict κ ν}

/-- Related dictionaries have the same keys. -/
theorem mem (congruent : Congruence related) (same : related first second) (key : κ) :
    key ∈ first ↔ key ∈ second := by
  rw [← not_iff_not, ← get?_eq_none, ← get?_eq_none, congruent.get? same]

/-- A default respects the relation, since it is an assignment or nothing. -/
theorem setDefault (congruent : Congruence related) (same : related first second) (key : κ)
    (value : ν) : related (first.setDefault key value) (second.setDefault key value) := by
  unfold Dict.setDefault
  by_cases present : key ∈ first
  · rw [if_pos present, if_pos ((congruent.mem same key).mp present)]
    exact same
  · rw [if_neg present, if_neg (present ∘ (congruent.mem same key).mpr)]
    exact congruent.insert same key value

/-- Assignments in a row respect the relation. -/
theorem updateEntries (congruent : Congruence related) (same : related first second)
    (entries : List (κ × ν)) :
    related (first.updateEntries entries) (second.updateEntries entries) := by
  induction entries generalizing first second with
  | nil => exact same
  | cons entry rest ih => exact ih (congruent.insert same entry.1 entry.2)

/-- Equality, order included. -/
theorem eq : Congruence (Eq : Dict κ ν → Dict κ ν → Prop) where
  refl _ := rfl
  get? same key := by rw [same]
  filter same keep := by rw [same]
  insert same key value := by rw [same]
  update same values := by rw [same, values]

/-- Equality up to the order of the entries. -/
theorem agrees : Congruence (Agrees : Dict κ ν → Dict κ ν → Prop) where
  refl dict := List.Perm.refl dict.entries
  get? same := agrees_iff.mp same
  filter same keep := agrees_filter fun key _ => agrees_iff.mp same key
  insert same key value := by
    apply agrees_iff.mpr
    intro other
    rw [get?_insert, get?_insert, agrees_iff.mp same]
  update same values := by
    apply agrees_iff.mpr
    intro key
    rw [get?_update, get?_update, agrees_iff.mp same, agrees_iff.mp values]

end Congruence

end Dict

end Foundation
