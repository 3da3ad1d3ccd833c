import X86OnArm.Foundation.Text

/-! # JSON documents

A document is a tree of arrays and objects over texts and other scalars. A place in it is
the path of keys that leads there. `modifyAt?` assigns at one place of a document: what the
place holds changes as it is told to (`modifyAt?_eq_some`), every object keeps its keys
(`keysAt_modifyAt?`), and every place that is neither above nor below it keeps its value
(`getAt?_modifyAt?`).
-/

namespace Foundation

/-- A document over the scalars that are no texts. -/
inductive Json (Scalar : Type) where
  | scalar (value : Scalar)
  | string (value : Text)
  | array (items : List (Json Scalar))
  | object (members : List (Text × Json Scalar))

namespace Json

variable {Scalar : Type}

/-- The members of an object. -/
def members : Json Scalar → List (Text × Json Scalar)
  | .object members => members
  | _ => []

@[simp] theorem members_object (members : List (Text × Json Scalar)) :
    (object members).members = members := rfl

def keys (value : Json Scalar) : List Text := value.members.map Prod.fst

/-- The value at a path of keys. -/
def getAt? (value : Json Scalar) : List Text → Option (Json Scalar)
  | [] => some value
  | key :: path => (value.members.lookup key).bind fun inner => inner.getAt? path

/-- The texts of an array of texts. -/
def texts? : Json Scalar → Option (List Text)
  | .array items => items.mapM fun
      | .string value => some value
      | _ => none
  | _ => none

/-- Assign to a member that exists. -/
def modifyMember? (change : Json Scalar → Option (Json Scalar)) (key : Text) :
    List (Text × Json Scalar) → Option (List (Text × Json Scalar))
  | [] => none
  | (other, value) :: rest =>
      if other = key then (change value).map fun changed => (other, changed) :: rest
      else (modifyMember? change key rest).map fun rest => (other, value) :: rest

/-- Assign at a path of keys. -/
def modifyAt? (change : Json Scalar → Option (Json Scalar)) :
    List Text → Json Scalar → Option (Json Scalar)
  | [], value => change value
  | key :: path, value => (modifyMember? (modifyAt? change path) key value.members).map .object

theorem texts?_array_map (values : List Text) :
    (Json.array (values.map .string) : Json Scalar).texts? = some values := by
  unfold texts?
  induction values with
  | nil => rfl
  | cons value rest hypothesis =>
      simp only at hypothesis ⊢
      rw [List.map_cons, List.mapM_cons, hypothesis]
      rfl

theorem eq_of_texts? {value : Json Scalar} {texts : List Text} (read : value.texts? = some texts) :
    value = .array (texts.map .string) := by
  cases value with
  | array items =>
      change items.mapM (fun
        | .string value => some value
        | _ => none) = some texts at read
      congr 1
      induction items generalizing texts with
      | nil =>
          cases read
          rfl
      | cons item items hypothesis =>
          rw [List.mapM_cons] at read
          obtain ⟨first, here, read⟩ := Option.bind_eq_some_iff.mp read
          obtain ⟨others, there, same⟩ := Option.bind_eq_some_iff.mp read
          cases same
          cases item with
          | string value =>
              cases here
              rw [List.map_cons, ← hypothesis there]
          | _ => cases here
  | _ => cases read

section Members

variable {change : Json Scalar → Option (Json Scalar)} {key : Text}
  {before after : List (Text × Json Scalar)}

theorem lookup_modifyMember? (modified : modifyMember? change key before = some after) :
    ∃ old new, before.lookup key = some old ∧ change old = some new ∧
      after.lookup key = some new := by
  induction before generalizing after with
  | nil => cases modified
  | cons entry rest hypothesis =>
      obtain ⟨other, value⟩ := entry
      unfold modifyMember? at modified
      split at modified
      · rename_i same
        subst same
        obtain ⟨changed, done, rfl⟩ := Option.map_eq_some_iff.mp modified
        exact ⟨value, changed, List.lookup_cons_self, done, List.lookup_cons_self⟩
      · rename_i different
        obtain ⟨rest', done, rfl⟩ := Option.map_eq_some_iff.mp modified
        obtain ⟨old, new, found, changed, found'⟩ := hypothesis done
        have apart : (key == other) = false := beq_false_of_ne (Ne.symm different)
        refine ⟨old, new, ?_, changed, ?_⟩
        · rw [List.lookup_cons, apart]
          exact found
        · rw [List.lookup_cons, apart]
          exact found'

theorem lookup_modifyMember?_of_ne (modified : modifyMember? change key before = some after)
    {other : Text} (different : other ≠ key) : after.lookup other = before.lookup other := by
  induction before generalizing after with
  | nil => cases modified
  | cons entry rest hypothesis =>
      obtain ⟨present, value⟩ := entry
      unfold modifyMember? at modified
      split at modified
      · rename_i same
        subst same
        obtain ⟨changed, -, rfl⟩ := Option.map_eq_some_iff.mp modified
        rw [List.lookup_cons, List.lookup_cons, beq_false_of_ne different]
      · obtain ⟨rest', done, rfl⟩ := Option.map_eq_some_iff.mp modified
        rw [List.lookup_cons, List.lookup_cons, hypothesis done]

theorem keys_modifyMember? (modified : modifyMember? change key before = some after) :
    after.map Prod.fst = before.map Prod.fst := by
  induction before generalizing after with
  | nil => cases modified
  | cons entry rest hypothesis =>
      obtain ⟨present, value⟩ := entry
      unfold modifyMember? at modified
      split at modified
      · obtain ⟨changed, -, rfl⟩ := Option.map_eq_some_iff.mp modified
        rfl
      · obtain ⟨rest', done, rfl⟩ := Option.map_eq_some_iff.mp modified
        rw [List.map_cons, List.map_cons, hypothesis done]

/-- A member is one of before, or the one assigned to. -/
theorem mem_modifyMember? (modified : modifyMember? change key before = some after)
    {entry : Text × Json Scalar} (member : entry ∈ after) :
    entry ∈ before ∨
      ∃ old, before.lookup key = some old ∧ entry.1 = key ∧ change old = some entry.2 := by
  induction before generalizing after with
  | nil => cases modified
  | cons first rest hypothesis =>
      obtain ⟨other, value⟩ := first
      unfold modifyMember? at modified
      split at modified
      · rename_i same
        subst same
        obtain ⟨changed, done, rfl⟩ := Option.map_eq_some_iff.mp modified
        rcases List.mem_cons.mp member with rfl | later
        · exact .inr ⟨value, List.lookup_cons_self, rfl, done⟩
        · exact .inl (List.mem_cons_of_mem _ later)
      · rename_i different
        obtain ⟨rest', done, rfl⟩ := Option.map_eq_some_iff.mp modified
        have apart : (key == other) = false := beq_false_of_ne (Ne.symm different)
        rcases List.mem_cons.mp member with rfl | later
        · exact .inl List.mem_cons_self
        · rcases hypothesis done later with same | ⟨old, found, named, changed⟩
          · exact .inl (List.mem_cons_of_mem _ same)
          · refine .inr ⟨old, ?_, named, changed⟩
            rw [List.lookup_cons, apart]
            exact found

theorem exists_modifyMember? {old new : Json Scalar} (found : before.lookup key = some old)
    (changed : change old = some new) : ∃ after, modifyMember? change key before = some after := by
  induction before with
  | nil => cases found
  | cons entry rest hypothesis =>
      obtain ⟨present, value⟩ := entry
      unfold modifyMember?
      by_cases same : present = key
      · subst same
        rw [List.lookup_cons_self] at found
        cases found
        rw [if_pos rfl, changed]
        exact ⟨_, rfl⟩
      · rw [List.lookup_cons, beq_false_of_ne (Ne.symm same)] at found
        obtain ⟨after, done⟩ := hypothesis found
        rw [if_neg same, done]
        exact ⟨_, rfl⟩

end Members

section Assignment

variable {change : Json Scalar → Option (Json Scalar)} {path : List Text}
  {before after : Json Scalar}

/-- The place holds what it is told to hold. -/
theorem modifyAt?_eq_some (modified : modifyAt? change path before = some after) :
    ∃ old new, before.getAt? path = some old ∧ change old = some new ∧
      after.getAt? path = some new := by
  induction path generalizing before after with
  | nil => exact ⟨before, after, rfl, modified, rfl⟩
  | cons key path hypothesis =>
      unfold modifyAt? at modified
      obtain ⟨members, done, rfl⟩ := Option.map_eq_some_iff.mp modified
      obtain ⟨inner, inner', found, deeper, found'⟩ := lookup_modifyMember? done
      obtain ⟨old, new, held, changed, held'⟩ := hypothesis deeper
      refine ⟨old, new, ?_, changed, ?_⟩
      · unfold getAt?
        rw [found]
        exact held
      · unfold getAt?
        rw [members_object, found']
        exact held'

theorem exists_modifyAt? {old new : Json Scalar} (held : before.getAt? path = some old)
    (changed : change old = some new) : ∃ after, modifyAt? change path before = some after := by
  induction path generalizing before with
  | nil =>
      cases held
      exact ⟨new, changed⟩
  | cons key path hypothesis =>
      unfold getAt? at held
      obtain ⟨inner, found, deeper⟩ := Option.bind_eq_some_iff.mp held
      obtain ⟨inner', done⟩ := hypothesis deeper
      obtain ⟨members, done'⟩ := exists_modifyMember? found done
      unfold modifyAt?
      rw [done']
      exact ⟨_, rfl⟩

/-- A place that is neither above nor below keeps its value. -/
theorem getAt?_modifyAt? (modified : modifyAt? change path before = some after)
    {other : List Text} (above : ¬ other <+: path) (below : ¬ path <+: other) :
    after.getAt? other = before.getAt? other := by
  induction path generalizing before after other with
  | nil => exact absurd List.nil_prefix below
  | cons key path hypothesis =>
      cases other with
      | nil => exact absurd List.nil_prefix above
      | cons key' other =>
          unfold modifyAt? at modified
          obtain ⟨members, done, rfl⟩ := Option.map_eq_some_iff.mp modified
          unfold getAt?
          rw [members_object]
          by_cases same : key' = key
          · subst same
            rw [List.prefix_cons_inj] at above below
            obtain ⟨inner, inner', found, deeper, found'⟩ := lookup_modifyMember? done
            rw [found, found']
            exact hypothesis deeper above below
          · rw [lookup_modifyMember?_of_ne done same]

/-- Every object keeps its keys, except below the place. -/
theorem keysAt_modifyAt? (modified : modifyAt? change path before = some after)
    {other : List Text} (below : ¬ path <+: other) :
    (after.getAt? other).map keys = (before.getAt? other).map keys := by
  induction path generalizing before after other with
  | nil => exact absurd List.nil_prefix below
  | cons key path hypothesis =>
      unfold modifyAt? at modified
      obtain ⟨members, done, rfl⟩ := Option.map_eq_some_iff.mp modified
      cases other with
      | nil => exact congrArg some (keys_modifyMember? done)
      | cons key' other =>
          unfold getAt?
          rw [members_object]
          by_cases same : key' = key
          · subst same
            rw [List.prefix_cons_inj] at below
            obtain ⟨inner, inner', found, deeper, found'⟩ := lookup_modifyMember? done
            rw [found, found']
            exact hypothesis deeper below
          · rw [lookup_modifyMember?_of_ne done same]

end Assignment

end Json

end Foundation
