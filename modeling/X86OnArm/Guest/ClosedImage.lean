import X86OnArm.Guest.Assemble
import Mathlib.Algebra.GroupWithZero.Nat

/-! # The image is closed

One visit of the walk replaces the store links of its directory and goes on to the
directories in it (`visit_spec`). So every store link left is below a directory that
is still pending (`Walked`), and none is left when the walk ends; the replaced ones
lead from their own directory to a place in the image without leaving it
(`assemble_closed`).
-/

namespace X86OnArm.Guest

open Foundation Foundation.PosixPath

variable {γ : Type} {cwd : Text} {root : Path}

/-- What the walk makes of an entry of a directory. -/
def relinked (cwd : Text) (root directory : Path) : Entry γ → Entry γ
  | .link target =>
      if isStoreTarget target then .link (relativeTarget cwd root directory target)
      else .link target
  | .directory writable => .directory writable
  | .file contents => .file contents

variable (cwd root) in
theorem relink_spec {fs : FileSystem γ} {directory : Path}
    (writable : fs.isWritable directory = true) (name : Text) :
    ∃ next, relink cwd root directory fs name = some next ∧ ∀ path, next.get? path =
      if path = directory ++ [name] then (fs.get? path).map (relinked cwd root directory)
      else fs.get? path := by
  have unchanged (kept : (fs.get? (directory ++ [name])).map (relinked cwd root directory) =
      fs.get? (directory ++ [name])) (path : Path) : fs.get? path =
      if path = directory ++ [name] then (fs.get? path).map (relinked cwd root directory)
      else fs.get? path := by
    split
    · subst path
      exact kept.symm
    · rfl
  unfold relink
  cases stored : fs.get? (directory ++ [name]) with
  | none => exact ⟨fs, rfl, unchanged (by rw [stored]; rfl)⟩
  | some entry =>
      cases entry with
      | directory mode => exact ⟨fs, rfl, unchanged (by rw [stored]; rfl)⟩
      | file contents => exact ⟨fs, rfl, unchanged (by rw [stored]; rfl)⟩
      | link target =>
          by_cases store : isStoreTarget target = true
          · obtain ⟨next, replaced, entries⟩ := FileSystem.replaceLink_spec
              (relativeTarget cwd root directory target) stored writable
            refine ⟨next, ?_, ?_⟩
            · simp only [if_pos store]
              exact replaced
            · intro path
              rw [entries]
              split
              · subst path
                rw [stored, Option.map_some, relinked, if_pos store]
              · rfl
          · refine ⟨fs, ?_, unchanged ?_⟩
            · simp only [if_neg store]
            · rw [stored, Option.map_some, relinked, if_neg store]

variable (cwd root) in
theorem relinkAll_spec {fs : FileSystem γ} {directory : Path}
    (writable : fs.isWritable directory = true) {names : List Text} (nodup : names.Nodup) :
    ∃ next, names.foldlM (relink cwd root directory) fs = some next ∧ ∀ path, next.get? path =
      if ∃ name ∈ names, path = directory ++ [name] then
        (fs.get? path).map (relinked cwd root directory)
      else fs.get? path := by
  induction names generalizing fs with
  | nil => exact ⟨fs, rfl, fun path => by simp⟩
  | cons name rest ih =>
      obtain ⟨fresh, nodup⟩ := List.nodup_cons.mp nodup
      obtain ⟨first, linked, entries⟩ := relink_spec cwd root writable name
      have stillWritable : first.isWritable directory = true := by
        rw [FileSystem.isWritable_iff, entries, if_neg (by simp)]
        exact FileSystem.isWritable_iff.mp writable
      obtain ⟨next, folded, later⟩ := ih stillWritable nodup
      refine ⟨next, ?_, ?_⟩
      · rw [List.foldlM_cons, linked]
        exact folded
      · intro path
        rw [later, entries]
        by_cases here : path = directory ++ [name]
        · subst path
          have once : ¬ ∃ other ∈ rest, directory ++ [name] = directory ++ [other] := by
            rintro ⟨other, member, same⟩
            cases List.append_cancel_left same
            exact fresh member
          rw [if_neg once, if_pos rfl, if_pos ⟨name, List.mem_cons_self, rfl⟩]
        · rw [if_neg here]
          have elsewhere : (∃ other ∈ name :: rest, path = directory ++ [other]) ↔
              ∃ other ∈ rest, path = directory ++ [other] := by
            simp only [List.mem_cons, exists_eq_or_imp, here, false_or]
          simp only [elsewhere]

theorem isLink_relinked {fs next : FileSystem γ} {directory path : Path}
    (relinks : next.get? path = (fs.get? path).map (relinked cwd root directory)) :
    next.isLink path = fs.isLink path := by
  unfold FileSystem.isLink
  rw [relinks]
  cases fs.get? path with
  | none => rfl
  | some entry =>
      cases entry with
      | directory mode => rfl
      | file contents => rfl
      | link target =>
          rw [Option.map_some, relinked]
          cases isStoreTarget target <;> rfl

/-- What one visit does: its directory becomes writable, the store links in it are
replaced, nothing else changes, and the walk goes on to the directories in it. -/
structure Visited (cwd : Text) (root : Path) (fs : FileSystem γ) (directory : Path)
    (next : FileSystem γ) (found : List Path) : Prop where
  opened : next.get? directory = some (.directory true)
  children : ∀ name, next.get? (directory ++ [name]) =
    (fs.get? (directory ++ [name])).map (relinked cwd root directory)
  elsewhere : ∀ path, path ≠ directory → (∀ name, path ≠ directory ++ [name]) →
    next.get? path = fs.get? path
  distinct : found.Nodup
  found : ∀ path, path ∈ found ↔ ∃ name, path = directory ++ [name] ∧ fs.IsDirectory path

/-- The walk goes on to the directories of the directory that are no links. -/
theorem mem_onward {fs next : FileSystem γ} {directory path : Path}
    (isDirectory : fs.IsDirectory directory)
    (children : ∀ name, next.get? (directory ++ [name]) =
      (fs.get? (directory ++ [name])).map (relinked cwd root directory)) :
    path ∈ onward fs next directory ↔
      ∃ name, path = directory ++ [name] ∧ fs.IsDirectory path := by
  unfold onward
  rw [List.mem_map]
  constructor
  · rintro ⟨name, member, rfl⟩
    obtain ⟨inDirs, notLink⟩ := List.mem_filter.mp member
    obtain ⟨inside, isDir⟩ := List.mem_filter.mp inDirs
    obtain ⟨entry, stored⟩ := FileSystem.mem_listing.mp inside
    have kept : fs.isLink (directory ++ [name]) = false := by
      rw [← isLink_relinked (children name)]
      exact Bool.not_eq_true' _ ▸ notLink
    rw [FileSystem.isDirectoryAt_eq isDirectory kept stored] at isDir
    exact ⟨name, rfl, FileSystem.isDirectory_iff.mp isDir⟩
  · rintro ⟨name, rfl, child⟩
    obtain ⟨entry, stored⟩ := child.present
    have kept : fs.isLink (directory ++ [name]) = false := by
      apply Bool.eq_false_of_not_eq_true
      intro link
      exact FileSystem.not_isDirectory_of_isLink link child
    refine ⟨name, List.mem_filter.mpr ⟨List.mem_filter.mpr ⟨?_, ?_⟩, ?_⟩, rfl⟩
    · exact FileSystem.mem_listing.mpr ⟨entry, stored⟩
    · rw [FileSystem.isDirectoryAt_eq isDirectory kept stored]
      exact FileSystem.isDirectory_iff.mpr child
    · rw [isLink_relinked (children name), kept]
      rfl

theorem visit_spec (cwd : Text) (root : Path) {fs : FileSystem γ} {directory : Path}
    (isDirectory : fs.IsDirectory directory) :
    ∃ next found, visit cwd root fs directory = some (next, found) ∧
      Visited cwd root fs directory next found := by
  have opened := fs.get?_makeWritable isDirectory
  have writable : (fs.makeWritable directory).isWritable directory = true := by
    rw [FileSystem.isWritable_iff, opened, if_pos rfl]
  have unlike (name : Text) : directory ++ [name] ≠ directory := by simp
  have listed : (dirNames fs directory ++ fileNames fs directory).Perm (fs.listing directory) :=
    List.filter_append_perm _ _
  obtain ⟨next, folded, entries⟩ := relinkAll_spec cwd root writable
    (listed.nodup_iff.mpr (fs.nodup_listing directory))
  have children (name : Text) : next.get? (directory ++ [name]) =
      (fs.get? (directory ++ [name])).map (relinked cwd root directory) := by
    rw [entries, opened, if_neg (unlike name)]
    split
    · rfl
    · rename_i unlisted
      cases stored : fs.get? (directory ++ [name]) with
      | none => rfl
      | some entry =>
          have member : name ∈ fs.listing directory := FileSystem.mem_listing.mpr ⟨entry, stored⟩
          exact absurd ⟨name, listed.mem_iff.mpr member, rfl⟩ unlisted
  refine ⟨next, onward fs next directory, ?_, ?_, children, ?_, ?_, ?_⟩
  · unfold visit
    simp only [folded, bind, Option.bind, pure]
  · rw [entries, if_neg, opened, if_pos rfl]
    rintro ⟨name, -, same⟩
    exact unlike name same.symm
  · intro path notSelf notChild
    rw [entries, if_neg, opened, if_neg notSelf]
    rintro ⟨name, -, same⟩
    exact notChild name same
  · apply List.Nodup.map
    · intro first second same
      exact List.head_eq_of_cons_eq (List.append_cancel_left same)
    · exact ((fs.nodup_listing directory).filter _).filter _
  · exact fun path => mem_onward isDirectory children

theorem Visited.isDirectory {fs next : FileSystem γ} {directory : Path} {found : List Path}
    (visited : Visited cwd root fs directory next found) {path : Path}
    (isDirectory : fs.IsDirectory path) : next.IsDirectory path := by
  by_cases self : path = directory
  · exact ⟨true, self ▸ visited.opened⟩
  by_cases child : ∃ name, path = directory ++ [name]
  · obtain ⟨name, rfl⟩ := child
    obtain ⟨writable, stored⟩ := isDirectory
    exact ⟨writable, by rw [visited.children, stored]; rfl⟩
  · obtain ⟨writable, stored⟩ := isDirectory
    exact ⟨writable, by rw [visited.elsewhere path self (not_exists.mp child), stored]⟩

section Targets

variable {directory : Path} {target : Text}

theorem isStoreTarget_iff : isStoreTarget target = true ↔ ∃ rest, target = storeText ++ rest := by
  unfold isStoreTarget
  rw [List.isPrefixOf_iff_prefix]
  constructor
  · rintro ⟨rest, rfl⟩
    exact ⟨rest, rfl⟩
  · rintro ⟨rest, rfl⟩
    exact ⟨rest, rfl⟩

/-- The part of a store target below the store. -/
def belowStore (target : Text) : Text := target.drop storeText.length

def nixStore : Path := [text "nix", text "store"]

theorem components_storeTarget (store : isStoreTarget target = true) :
    components target.tail = nixStore ++ components (belowStore target) := by
  obtain ⟨rest, rfl⟩ := isStoreTarget_iff.mp store
  have below : belowStore (storeText ++ rest) = rest := List.drop_left
  have shape : (storeText ++ rest).tail = text "nix" ++ slash :: (text "store" ++ slash :: rest) :=
    rfl
  have nix : components (text "nix") = [text "nix"] := by decide
  have store : components (text "store") = [text "store"] := by decide
  rw [below, shape]
  unfold components at nix store ⊢
  rw [List.splitOn_append_cons_self, List.splitOn_append_cons_self, nix, store]
  rfl

theorem head?_storeTarget (store : isStoreTarget target = true) :
    target.tail.head? ≠ some slash := by
  obtain ⟨rest, rfl⟩ := isStoreTarget_iff.mp store
  have leading : (storeText ++ rest).tail.head? = some ('n' : CodePoint) := rfl
  rw [leading]
  decide

/-- A target that stays in the store, component by component. -/
def StaysInStore (target : Text) : Prop :=
  Within nixStore nixStore (components (belowStore target))

instance (target : Text) : Decidable (StaysInStore target) :=
  inferInstanceAs (Decidable (Within _ _ _))

theorem lexical_storeTarget (store : isStoreTarget target = true) (stays : StaysInStore target) :
    lexical root (components target.tail) =
      root ++ lexical nixStore (components (belowStore target)) := by
  have proper : ProperPath nixStore := by decide
  rw [components_storeTarget store, lexical_append, lexical_proper root proper,
    lexical_below root (by decide) stays]

/-- The target a link gets is relative. -/
theorem head?_relativeTarget (cwd : Text) (properRoot : ProperPath root) (directory : Path)
    (store : isStoreTarget target = true) :
    (relativeTarget cwd root directory target).head? ≠ some slash :=
  head?_relpath_child cwd properRoot (head?_storeTarget store)

theorem not_isStoreTarget_of_relative (relative : target.head? ≠ some slash) :
    isStoreTarget target = false := by
  apply Bool.eq_false_of_not_eq_true
  intro store
  obtain ⟨rest, rfl⟩ := isStoreTarget_iff.mp store
  exact relative rfl

/-- It leads from its directory to the place below the root, and no further up. -/
theorem within_relativeTarget (cwd : Text) (properRoot : ProperPath root)
    (properDirectory : ProperPath directory) (inside : root <+: directory)
    (store : isStoreTarget target = true) (stays : StaysInStore target) :
    Within root directory (components (relativeTarget cwd root directory target)) := by
  apply within_relpath_child cwd properRoot properDirectory (head?_storeTarget store) inside
  rw [lexical_storeTarget store stays]
  exact List.prefix_append _ _

end Targets

/-- The state of the walk over a copy: its directories are in the image, it has only
made directories writable and replaced store links, and every store link that is
left is below a directory on the stack. -/
structure Walked (cwd : Text) (root : Path) (copied fs : FileSystem γ) (pending : List Path) :
    Prop where
  inside : ∀ directory ∈ pending, root <+: directory ∧ fs.IsDirectory directory
  changed : ∀ path, fs.get? path = copied.get? path ∨
    (copied.IsDirectory path ∧ fs.get? path = some (.directory true)) ∨
    ∃ directory name target, path = directory ++ [name] ∧ root <+: directory ∧
      copied.get? path = some (.link target) ∧ isStoreTarget target = true ∧
      fs.get? path = some (.link (relativeTarget cwd root directory target))
  covered : ∀ directory name target, root <+: directory →
    fs.get? (directory ++ [name]) = some (.link target) → isStoreTarget target = true →
    ∃ above ∈ pending, above <+: directory

section Walking

variable {copied fs next : FileSystem γ} {directory : Path} {pending found : List Path}

theorem Walked.start (isDirectory : copied.IsDirectory root) :
    Walked cwd root copied copied [root] where
  inside := by
    intro directory member
    rw [List.mem_singleton.mp member]
    exact ⟨List.prefix_refl _, isDirectory⟩
  changed _ := .inl rfl
  covered directory _ _ inside _ _ := ⟨root, List.mem_singleton_self _, inside⟩

theorem Walked.isDirectory (walked : Walked cwd root copied fs pending) {path : Path}
    (isDirectory : fs.IsDirectory path) : copied.IsDirectory path := by
  obtain ⟨writable, stored⟩ := isDirectory
  rcases walked.changed path with same | ⟨before, -⟩ | ⟨_, _, _, _, _, _, _, link⟩
  · exact ⟨writable, same ▸ stored⟩
  · exact before
  · rw [stored] at link
    cases link

theorem Walked.kept (walked : Walked cwd root copied fs pending) {path : Path}
    (isDirectory : copied.IsDirectory path) : fs.IsDirectory path := by
  obtain ⟨writable, stored⟩ := isDirectory
  rcases walked.changed path with same | ⟨-, now⟩ | ⟨_, _, _, _, _, link, _, _⟩
  · exact ⟨writable, same.trans stored⟩
  · exact ⟨true, now⟩
  · rw [stored] at link
    cases link

/-- No store link is left when nothing is pending. -/
theorem Walked.closed (walked : Walked cwd root copied fs [])
    (isDirectory : copied.IsDirectory root)
    {path : Path} {target : Text} (inside : root <+: path)
    (linked : fs.get? path = some (.link target)) : isStoreTarget target = false := by
  apply Bool.eq_false_of_not_eq_true
  intro store
  obtain ⟨below, rfl⟩ := inside
  induction below using List.reverseRecOn with
  | nil =>
      obtain ⟨writable, stored⟩ := walked.kept isDirectory
      rw [List.append_nil, stored] at linked
      cases linked
  | append_singleton rest name =>
      rw [← List.append_assoc] at linked
      obtain ⟨_, member, -⟩ := walked.covered _ _ _ (List.prefix_append _ _) linked store
      cases member

/-- What has become of a link when nothing is pending. -/
theorem Walked.linked (walked : Walked cwd root copied fs []) {name target : Text}
    (linked : copied.get? (directory ++ [name]) = some (.link target)) :
    fs.get? (directory ++ [name]) = some (.link
      (if root <+: directory ∧ isStoreTarget target = true then
        relativeTarget cwd root directory target
      else target)) := by
  rcases walked.changed (directory ++ [name]) with same | ⟨⟨_, stored⟩, -⟩ |
    ⟨above, _, other, parted, inside, link, store, now⟩
  · rw [same, linked]
    split
    · rename_i relinks
      obtain ⟨_, member, -⟩ := walked.covered _ _ _ relinks.1 (same.trans linked) relinks.2
      cases member
    · rfl
  · cases linked.symm.trans stored
  · obtain ⟨rfl, -⟩ := List.append_inj' parted rfl
    cases linked.symm.trans link
    rw [if_pos ⟨inside, store⟩]
    exact now

theorem relinked_eq_link {entry : Entry γ} {target : Text} (properRoot : ProperPath root)
    (relinks : relinked cwd root directory entry = .link target) :
    isStoreTarget target = false := by
  cases entry with
  | directory writable => cases relinks
  | file contents => cases relinks
  | link old =>
      rw [relinked] at relinks
      split at relinks
      · rename_i store
        cases relinks
        exact not_isStoreTarget_of_relative
          (head?_relativeTarget cwd properRoot directory store)
      · rename_i other
        cases relinks
        exact Bool.eq_false_of_not_eq_true other

/-- An entry of the visited directory stays, was replaced before, or is a store link that
is replaced now. -/
theorem Walked.visit_child (properRoot : ProperPath root)
    (walked : Walked cwd root copied fs (directory :: pending))
    (visited : Visited cwd root fs directory next found) (name : Text) :
    next.get? (directory ++ [name]) = copied.get? (directory ++ [name]) ∨
    (copied.IsDirectory (directory ++ [name]) ∧
      next.get? (directory ++ [name]) = some (.directory true)) ∨
    ∃ target, copied.get? (directory ++ [name]) = some (.link target) ∧
      isStoreTarget target = true ∧ next.get? (directory ++ [name]) =
        some (.link (relativeTarget cwd root directory target)) := by
  rw [visited.children]
  rcases walked.changed (directory ++ [name]) with same | ⟨before, now⟩ |
    ⟨above, _, target, parted, _, linked, store, now⟩
  · rw [same]
    cases stored : copied.get? (directory ++ [name]) with
    | none => exact .inl rfl
    | some entry =>
        cases entry with
        | directory writable => exact .inl rfl
        | file contents => exact .inl rfl
        | link target =>
            cases store : isStoreTarget target with
            | false => exact .inl (by rw [Option.map_some, relinked, store]; rfl)
            | true =>
                refine .inr (.inr ⟨target, rfl, store, ?_⟩)
                rw [Option.map_some, relinked, if_pos store]
  · exact .inr (.inl ⟨before, by rw [now]; rfl⟩)
  · obtain ⟨rfl, -⟩ := List.append_inj' parted rfl
    refine .inr (.inr ⟨target, linked, store, ?_⟩)
    have relative := not_isStoreTarget_of_relative
      (head?_relativeTarget cwd properRoot directory store)
    rw [now, Option.map_some, relinked, relative]
    rfl

/-- A store link that is left after a visit is below a directory that is pending. -/
theorem Walked.visit_covered (properRoot : ProperPath root)
    (walked : Walked cwd root copied fs (directory :: pending))
    (visited : Visited cwd root fs directory next found) {above : Path} {name target : Text}
    (inside : root <+: above) (linked : next.get? (above ++ [name]) = some (.link target))
    (store : isStoreTarget target = true) :
    ∃ ancestor ∈ found ++ pending, ancestor <+: above := by
  by_cases here : above = directory
  · subst above
    rw [visited.children] at linked
    obtain ⟨entry, -, relinks⟩ := Option.map_eq_some_iff.mp linked
    rw [relinked_eq_link properRoot relinks] at store
    cases store
  · have notSelf : above ++ [name] ≠ directory := by
      intro self
      rw [self, visited.opened] at linked
      cases linked
    have notChild (other : Text) : above ++ [name] ≠ directory ++ [other] :=
      fun same => here (List.append_inj' same rfl).1
    rw [visited.elsewhere _ notSelf notChild] at linked
    obtain ⟨ancestor, member, below⟩ := walked.covered above name target inside linked store
    rcases List.mem_cons.mp member with rfl | later
    · -- The link is deeper in this directory: below one the walk goes on to.
      obtain ⟨rest, rfl⟩ := below
      cases rest with
      | nil => exact absurd (List.append_nil _) here
      | cons child deeper =>
          have split : ancestor ++ child :: deeper ++ [name] =
              ancestor ++ [child] ++ (deeper ++ [name]) := by simp
          rw [split] at linked
          have between := fs.isDirectory_of_below (by simp) linked
          refine ⟨ancestor ++ [child], ?_, deeper, by simp⟩
          exact List.mem_append_left _ ((visited.found _).mpr ⟨child, rfl, between⟩)
    · exact ⟨ancestor, List.mem_append_right _ later, below⟩

/-- One visit. -/
theorem Walked.visit (properRoot : ProperPath root)
    (walked : Walked cwd root copied fs (directory :: pending))
    (visited : Visited cwd root fs directory next found) :
    Walked cwd root copied next (found ++ pending) := by
  obtain ⟨inRoot, isDirectory⟩ := walked.inside directory List.mem_cons_self
  refine ⟨?_, ?_, fun _ _ _ inside linked store =>
    walked.visit_covered properRoot visited inside linked store⟩
  · intro path member
    rcases List.mem_append.mp member with new | old
    · obtain ⟨name, rfl, child⟩ := (visited.found path).mp new
      exact ⟨inRoot.trans (List.prefix_append _ _), visited.isDirectory child⟩
    · obtain ⟨inside, stillDirectory⟩ := walked.inside path (List.mem_cons_of_mem _ old)
      exact ⟨inside, visited.isDirectory stillDirectory⟩
  · intro path
    by_cases self : path = directory
    · subst path
      exact .inr (.inl ⟨walked.isDirectory isDirectory, visited.opened⟩)
    by_cases child : ∃ name, path = directory ++ [name]
    · obtain ⟨name, rfl⟩ := child
      rcases walked.visit_child properRoot visited name with
        same | opened | ⟨target, linked, store, now⟩
      · exact .inl same
      · exact .inr (.inl opened)
      · exact .inr (.inr ⟨directory, name, target, rfl, inRoot, linked, store, now⟩)
    · rw [visited.elsewhere path self (not_exists.mp child)]
      exact walked.changed path

/-- The entries at and below a directory. -/
def weight (copied : FileSystem γ) (directory : Path) : Nat :=
  copied.entries.keys.countP fun path => directory <+: path

theorem countP_children_le (nodup : found.Nodup)
    (children : ∀ path ∈ found, ∃ name, path = directory ++ [name]) (path : Path) :
    found.countP (fun child => child <+: path) + (if path = directory then 1 else 0) ≤
      if directory <+: path then 1 else 0 := by
  have below : ∀ child ∈ found, child <+: path → directory <+: path ∧ path ≠ directory := by
    intro child member within
    obtain ⟨name, rfl⟩ := children child member
    refine ⟨(List.prefix_append _ _).trans within, ?_⟩
    rintro rfl
    exact FileSystem.not_below_self path name within
  by_cases self : path = directory
  · have none_ : found.countP (fun child => child <+: path) = 0 :=
      List.countP_eq_zero.mpr fun child member within =>
        (below child member (of_decide_eq_true within)).2 self
    rw [none_, if_pos self, self, if_pos (List.prefix_refl _)]
  · rw [if_neg self, Nat.add_zero, List.countP_eq_length_filter]
    have nodup := nodup.filter fun child => decide (child <+: path)
    have members : ∀ child ∈ found.filter fun child => decide (child <+: path),
        child ∈ found ∧ child <+: path := by
      intro child member
      obtain ⟨inside, within⟩ := List.mem_filter.mp member
      exact ⟨inside, of_decide_eq_true within⟩
    cases kept : found.filter fun child => decide (child <+: path) with
    | nil => exact Nat.zero_le _
    | cons first rest =>
        rw [kept] at nodup members
        obtain ⟨firstIn, firstAbove⟩ := members first List.mem_cons_self
        rw [if_pos (below first firstIn firstAbove).1]
        cases rest with
        | nil => exact Nat.le_refl 1
        | cons second others =>
            -- Two children above one path have the same length, so they are the same.
            obtain ⟨secondIn, secondAbove⟩ :=
              members second (List.mem_cons_of_mem _ List.mem_cons_self)
            obtain ⟨name, firstEq⟩ := children first firstIn
            obtain ⟨other, secondEq⟩ := children second secondIn
            have length : first.length = second.length := by
              rw [firstEq, secondEq, List.length_append, List.length_append]
              rfl
            have same := (List.prefix_of_prefix_length_le firstAbove secondAbove
              (Nat.le_of_eq length)).eq_of_length length
            exact absurd (same ▸ List.mem_cons_self) (List.nodup_cons.mp nodup).1

theorem sum_countP_children_le (nodup : found.Nodup)
    (children : ∀ path ∈ found, ∃ name, path = directory ++ [name]) (paths : List Path) :
    (found.map fun child => paths.countP fun path => child <+: path).sum +
        paths.countP (fun path => path = directory) ≤
      paths.countP fun path => directory <+: path := by
  induction paths with
  | nil => simp
  | cons path rest ih =>
      have head := countP_children_le nodup children path
      have split : (found.map fun child => (path :: rest).countP fun path => child <+: path).sum =
          (found.map fun child => rest.countP fun path => child <+: path).sum +
            found.countP fun child => child <+: path := by
        clear nodup children ih head
        induction found with
        | nil => rfl
        | cons child others ih =>
            rw [List.map_cons, List.sum_cons, ih, List.map_cons, List.sum_cons, List.countP_cons,
              List.countP_cons]
            omega
      rw [split, List.countP_cons, List.countP_cons]
      simp only [decide_eq_true_eq]
      omega

/-- The directories the walk goes on to hold less than the one it leaves. -/
theorem weight_found_lt (walked : Walked cwd root copied fs (directory :: pending))
    (visited : Visited cwd root fs directory next found) :
    ((found ++ pending).map (weight copied)).sum <
      ((directory :: pending).map (weight copied)).sum := by
  have present : directory ∈ copied.entries.keys := by
    obtain ⟨entry, stored⟩ := (walked.isDirectory (walked.inside directory
      List.mem_cons_self).2).present
    exact Dict.mem_iff_get?.mpr ⟨entry, stored⟩
  have counted : 0 < copied.entries.keys.countP fun path => path = directory :=
    List.countP_pos_iff.mpr ⟨directory, present, decide_eq_true rfl⟩
  have children : ∀ path ∈ found, ∃ name, path = directory ++ [name] := by
    intro path member
    obtain ⟨name, same, -⟩ := (visited.found path).mp member
    exact ⟨name, same⟩
  have total : (found.map (weight copied)).sum +
      copied.entries.keys.countP (fun path => path = directory) ≤ weight copied directory :=
    sum_countP_children_le visited.distinct children copied.entries.keys
  rw [List.map_append, List.sum_append, List.map_cons, List.sum_cons]
  omega

/-- The walk ends with every store link replaced. -/
theorem walk_spec (properRoot : ProperPath root) {fuel : Nat}
    (walked : Walked cwd root copied fs pending)
    (enough : (pending.map (weight copied)).sum ≤ fuel) :
    ∃ final, walk cwd root fuel pending fs = some final ∧ Walked cwd root copied final [] := by
  induction fuel generalizing fs pending with
  | zero =>
      cases pending with
      | nil => exact ⟨fs, rfl, walked⟩
      | cons directory pending =>
          obtain ⟨next, found, -, visited⟩ :=
            visit_spec cwd root (walked.inside directory List.mem_cons_self).2
          exact absurd (weight_found_lt walked visited) (by omega)
  | succ fuel ih =>
      cases pending with
      | nil => exact ⟨fs, rfl, walked⟩
      | cons directory pending =>
          obtain ⟨next, found, visit_eq, visited⟩ :=
            visit_spec cwd root (walked.inside directory List.mem_cons_self).2
          have lighter := weight_found_lt walked visited
          obtain ⟨final, ended, closed⟩ := ih (walked.visit properRoot visited) (by omega)
          refine ⟨final, ?_, closed⟩
          rw [walk, visit_eq]
          exact ended

end Walking

/-- Entries have been added, and the links among them are links that were there. -/
structure Extends (fs next : FileSystem γ) : Prop where
  kept : ∀ path entry, fs.get? path = some entry → next.get? path = some entry
  links : ∀ path target, next.get? path = some (.link target) →
    ∃ source, fs.get? source = some (.link target)

section Copying

variable {fs next last : FileSystem γ} {directory path base parent : Path} {name : Text}
  {graphs : List (List Text)}

theorem Extends.refl (fs : FileSystem γ) : Extends fs fs where
  kept _ _ stored := stored
  links path _ linked := ⟨path, linked⟩

theorem Extends.trans (first : Extends fs next) (second : Extends next last) : Extends fs last where
  kept path entry stored := second.kept path entry (first.kept path entry stored)
  links path target linked := by
    obtain ⟨between, stored⟩ := second.links path target linked
    exact first.links between target stored

theorem extends_addEntry {entry : Entry γ} (added : fs.addEntry directory name entry = some next)
    (links : ∀ target, entry = .link target → ∃ source, fs.get? source = some (.link target)) :
    Extends fs next := by
  obtain ⟨-, -, fresh, entries⟩ := FileSystem.addEntry_spec added
  refine ⟨?_, ?_⟩
  · intro path old stored
    rw [entries, if_neg, stored]
    rintro rfl
    rw [fresh] at stored
    cases stored
  · intro path target linked
    rw [entries] at linked
    split at linked
    · exact links target (Option.some.inj linked)
    · exact ⟨path, linked⟩

theorem extends_copyTree {source : Path} (copied : fs.copyTree source directory name = some next) :
    Extends fs next := by
  obtain ⟨-, -, fresh, -, -, below, elsewhere⟩ := FileSystem.copyTree_spec copied
  refine ⟨?_, ?_⟩
  · intro path old stored
    rw [elsewhere path, stored]
    rintro ⟨rest, rfl⟩
    rw [fs.get?_below_of_none fresh] at stored
    cases stored
  · intro path target linked
    by_cases inside : directory ++ [name] <+: path
    · obtain ⟨rest, rfl⟩ := inside
      exact ⟨source ++ rest, below rest ▸ linked⟩
    · exact ⟨path, elsewhere path inside ▸ linked⟩

theorem extends_ensureDirectory (ensured : ensureDirectory fs directory name = some (next, path)) :
    Extends fs next := by
  unfold ensureDirectory at ensured
  split at ensured
  · split at ensured
    · cases ensured
      exact .refl _
    · cases ensured
  · obtain ⟨made, added, same⟩ := Option.map_eq_some_iff.mp ensured
    cases same
    exact extends_addEntry added nofun

theorem extends_copyDependency {store : Path} {dependency : Text}
    (copied : copyDependency store fs dependency = some next) : Extends fs next := by
  simp only [copyDependency] at copied
  split at copied
  · exact extends_copyTree copied
  · obtain ⟨above, -, copied⟩ := Option.bind_eq_some_iff.mp copied
    obtain ⟨entry, stored, copied⟩ := Option.bind_eq_some_iff.mp copied
    cases entry with
    | directory writable => cases copied
    | file contents => exact extends_addEntry copied nofun
    | link target =>
        apply extends_addEntry copied
        rintro _ ⟨⟩
        exact ⟨_, stored⟩

theorem extends_copyDependencies {store : Path} {lines : List Text}
    (copied : lines.foldlM (copyDependency store) fs = some next) : Extends fs next := by
  induction lines generalizing fs with
  | nil =>
      cases copied
      exact .refl _
  | cons line rest ih =>
      rw [List.foldlM_cons] at copied
      obtain ⟨first, one, others⟩ := Option.bind_eq_some_iff.mp copied
      exact (extends_copyDependency one).trans (ih others)

/-- The copy is a directory with the links of the original trees. -/
theorem copyClosure_spec (copied : copyClosure fs parent name base graphs = some next) :
    next.IsDirectory (parent ++ [name]) ∧ ∀ path target, next.get? path = some (.link target) →
      ∃ source, fs.get? source = some (.link target) := by
  obtain ⟨first, tree, copied⟩ := Option.bind_eq_some_iff.mp copied
  obtain ⟨⟨second, nix⟩, madeNix, copied⟩ := Option.bind_eq_some_iff.mp copied
  obtain ⟨⟨third, store⟩, madeStore, copied⟩ := Option.bind_eq_some_iff.mp copied
  obtain ⟨-, -, -, ⟨mode, isDirectory⟩, -, below, -⟩ := FileSystem.copyTree_spec tree
  have made : first.IsDirectory (parent ++ [name]) := by
    have top := below []
    rw [List.append_nil, List.append_nil, isDirectory] at top
    exact ⟨mode, top⟩
  have opened := first.get?_makeWritable made
  have later := (extends_ensureDirectory madeNix).trans
    ((extends_ensureDirectory madeStore).trans (extends_copyDependencies copied))
  refine ⟨⟨true, later.kept _ _ ?_⟩, ?_⟩
  · rw [opened, if_pos rfl]
  · intro path target linked
    obtain ⟨between, stored⟩ := later.links path target linked
    rw [opened] at stored
    split at stored
    · cases stored
    · exact (extends_copyTree tree).links between target stored

end Copying

section Assembling

variable {fs final copied : FileSystem γ} {parent base : Path} {name : Text}
  {graphs : List (List Text)}

/-- The walk over a copy completes. -/
theorem walk_copyClosure (cwd : Text)
    (copies : copyClosure fs parent name base graphs = some copied) :
    ∃ final, assemble cwd fs parent name base graphs = some final ∧
      Walked cwd (parent ++ [name]) copied final [] := by
  obtain ⟨isDirectory, -⟩ := copyClosure_spec copies
  have proper : ProperPath (parent ++ [name]) := by
    obtain ⟨_, stored⟩ := isDirectory
    exact copied.proper_of_get? stored
  have fuel : ([parent ++ [name]].map (weight copied)).sum ≤ copied.entries.entries.length := by
    have counted : weight copied (parent ++ [name]) ≤ copied.entries.keys.length :=
      List.countP_le_length
    rwa [Dict.keys, List.length_map] at counted
  obtain ⟨final, ended, walked⟩ := walk_spec proper (Walked.start isDirectory) fuel
  refine ⟨final, ?_, walked⟩
  unfold assemble
  rw [copies]
  exact ended

/-- **The image is closed.** When the copied links into the store stay in it lexically,
no link below the root leads to the store by an absolute path any more; and every one
that did is relative and leads, component by component from the real directory it is
in, through directories at and below the root only. -/
theorem assemble_closed (cwd : Text)
    (copies : copyClosure fs parent name base graphs = some copied)
    (stays : ∀ path target, parent ++ [name] <+: path →
      copied.get? path = some (.link target) → isStoreTarget target = true → StaysInStore target)
    (completes : assemble cwd fs parent name base graphs = some final) :
    (∀ path target, parent ++ [name] <+: path → final.get? path = some (.link target) →
      isStoreTarget target = false) ∧
    ∀ directory entry target, parent ++ [name] <+: directory →
      copied.get? (directory ++ [entry]) = some (.link target) → isStoreTarget target = true →
      final.IsDirectory directory ∧ ∃ new, final.get? (directory ++ [entry]) = some (.link new) ∧
        isAbsolute new = false ∧ Within (parent ++ [name]) directory (components new) := by
  obtain ⟨other, same, walked⟩ := walk_copyClosure cwd copies
  cases completes.symm.trans same
  obtain ⟨isDirectory, -⟩ := copyClosure_spec copies
  have properRoot : ProperPath (parent ++ [name]) := by
    obtain ⟨_, stored⟩ := isDirectory
    exact copied.proper_of_get? stored
  refine ⟨fun path target inside => walked.closed isDirectory inside, ?_⟩
  intro directory entry target inside linked store
  have real := copied.isDirectory_of_below (List.cons_ne_nil _ _) linked
  have properDirectory : ProperPath directory := by
    obtain ⟨_, stored⟩ := real
    exact copied.proper_of_get? stored
  refine ⟨walked.kept real, relativeTarget cwd (parent ++ [name]) directory target, ?_, ?_,
    within_relativeTarget cwd properRoot properDirectory inside store
      (stays _ target (inside.trans (List.prefix_append _ _)) linked store)⟩
  · rw [walked.linked linked, if_pos ⟨inside, store⟩]
  · unfold isAbsolute
    exact beq_eq_false_iff_ne.mpr (head?_relativeTarget cwd properRoot directory store)

end Assembling

/-- A base with a link into a dependency and a link into itself. -/
def sampleEntries : Dict Path (Entry Unit) where
  entries := [
    ([], .directory true),
    ([text "nix"], .directory true),
    ([text "nix", text "store"], .directory true),
    ([text "nix", text "store", text "base"], .directory false),
    ([text "nix", text "store", text "base", text "bin"], .link (text "/nix/store/base/usr/bin")),
    ([text "nix", text "store", text "base", text "usr"], .directory false),
    ([text "nix", text "store", text "base", text "usr", text "bin"], .directory false),
    ([text "nix", text "store", text "base", text "usr", text "bin", text "sh"],
      .link (text "/nix/store/bash/bin/sh")),
    ([text "nix", text "store", text "bash"], .directory false),
    ([text "nix", text "store", text "bash", text "bin"], .directory false),
    ([text "nix", text "store", text "bash", text "bin", text "sh"], .file ())]
  nodup := by decide +kernel

def sampleStore : FileSystem Unit := FileSystem.ofEntries sampleEntries (by decide +kernel)

def sampleGraphs : List (List Text) := [[text "/nix/store/base", text "/nix/store/bash", text "0"]]

def sampleBase : Path := [text "nix", text "store", text "base"]

/-- The assembled sample. -/
def sampleImage : Option (FileSystem Unit) :=
  assemble (text "/build") sampleStore nixStore (text "image") sampleBase sampleGraphs

theorem assemble_closed_sample :
    ∃ final, sampleImage = some final ∧
      ∀ path target, nixStore ++ [text "image"] <+: path →
        final.get? path = some (.link target) → isStoreTarget target = false := by
  have checked : ∀ target ∈ sampleEntries.entries.filterMap fun entry => entry.2.target?,
      isStoreTarget target = true → StaysInStore target := by decide +kernel
  have copies : (copyClosure sampleStore nixStore (text "image") sampleBase
      sampleGraphs).isSome = true := by decide +kernel
  obtain ⟨copied, copied_eq⟩ := Option.isSome_iff_exists.mp copies
  obtain ⟨final, completes, -⟩ := walk_copyClosure (text "/build") copied_eq
  refine ⟨final, completes, (assemble_closed (text "/build") copied_eq ?_ completes).1⟩
  intro path target _ linked
  obtain ⟨source, original⟩ := (copyClosure_spec copied_eq).2 path target linked
  exact checked target
    (List.mem_filterMap.mpr ⟨(source, .link target), Dict.mem_entries.mpr original, rfl⟩)

end X86OnArm.Guest
