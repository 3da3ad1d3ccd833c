import X86OnArm.Foundation.FileTree

/-! # The same walk in another place

A tree that is shown at another place, for example through bind mounts, may be shown in
part, and what is above it differs there. A walk over its links goes the same way in both
places as long as it takes no absolute link and neither leaves the tree nor the part that
is shown (`Leads.relocate`).
-/

namespace Foundation

universe u

namespace PathTree

open PosixPath

variable {γ : Type u}

/-- The tree at and below a root, and of that the places that are kept. -/
def part (tree : PathTree γ) (root : Path) (kept : Path → Bool) : PathTree γ := fun path =>
  if root.isPrefixOf path && kept (path.drop root.length) then tree path else none

/-- A tree with nothing outside of its root is seen at another place: directories as
directories, everything else as it is. -/
structure Shows (tree : PathTree γ) (root : Path) (view : PathTree γ) (mount : Path) : Prop where
  inside : ∀ path entry, tree path = some entry → root <+: path
  directory : ∀ below, tree.isDirectory (root ++ below) = true →
    view.isDirectory (mount ++ below) = true
  entry : ∀ below entry, tree (root ++ below) = some entry →
    (∀ writable, entry ≠ .directory writable) → view (mount ++ below) = some entry

variable {tree view : PathTree γ} {root mount : Path} {kept : Path → Bool}

theorem part_eq_some {path : Path} {entry : Entry γ}
    (stored : tree.part root kept path = some entry) :
    root <+: path ∧ kept (path.drop root.length) = true ∧ tree path = some entry := by
  unfold part at stored
  split at stored
  case isTrue shown =>
    obtain ⟨inside, shown⟩ := Bool.and_eq_true_iff.mp shown
    exact ⟨List.isPrefixOf_iff_prefix.mp inside, shown, stored⟩
  case isFalse => cases stored

/-- Where the kept places hold the same, the part is shown. -/
theorem shows_part (root_shown : view.isDirectory mount = true)
    (same : ∀ below, below ≠ [] → kept below = true →
      view (mount ++ below) = tree (root ++ below))
    (isDirectory : ∀ entry, tree root = some entry → ∃ writable, entry = .directory writable) :
    Shows (tree.part root kept) root view mount := by
  have shown {below : Path} {entry : Entry γ} (stored : tree.part root kept (root ++ below) =
      some entry) : kept below = true ∧ tree (root ++ below) = some entry := by
    obtain ⟨_, shown, stored⟩ := part_eq_some stored
    rw [List.drop_left] at shown
    exact ⟨shown, stored⟩
  refine ⟨fun path entry stored => (part_eq_some stored).1, ?_, ?_⟩
  · intro below directory
    by_cases top : below = []
    · rwa [top, List.append_nil]
    · obtain ⟨writable, stored⟩ := isDirectory_iff.mp directory
      obtain ⟨shown, stored⟩ := shown stored
      exact isDirectory_iff.mpr ⟨writable, (same below top shown).trans stored⟩
  · intro below entry stored other
    obtain ⟨shown, stored⟩ := shown stored
    by_cases top : below = []
    · rw [top, List.append_nil] at stored
      obtain ⟨writable, directory⟩ := isDirectory entry stored
      exact absurd directory (other writable)
    · exact (same below top shown).trans stored

/-- Outside of the root no walk goes on. -/
theorem Leads.outside (shows : Shows tree root view mount) {links : Nat} {position real : Path}
    {components : List Text} (leads : Leads tree kernelReading links position components real)
    (outside : ¬ root <+: position) : real = position := by
  have directory (isDirectory : tree.isDirectory position = true) : root <+: position := by
    obtain ⟨writable, stored⟩ := isDirectory_iff.mp isDirectory
    exact shows.inside _ _ stored
  cases leads with
  | arrived => rfl
  | stay isDirectory | up isDirectory | down isDirectory | link isDirectory =>
      exact absurd (directory isDirectory) outside

/-- **A walk that stays in the tree is the same wherever the tree is seen.** -/
theorem Leads.relocate (shows : Shows tree root view mount) (proper : root ≠ [])
    {links : Nat} {start stop : Path} {components : List Text}
    (leads : Leads tree kernelReading links (root ++ start) components (root ++ stop)) :
    Leads view kernelReading links (mount ++ start) components (mount ++ stop) := by
  generalize here : root ++ start = position at leads
  generalize there : root ++ stop = real at leads
  induction leads generalizing start with
  | arrived =>
      cases List.append_cancel_left (here.trans there.symm)
      exact .arrived
  | stay isDirectory idle later ih =>
      subst here
      exact .stay (shows.directory _ isDirectory) idle (ih rfl there)
  | up isDirectory later ih =>
      subst here
      have above := shows.directory _ isDirectory
      by_cases top : start = []
      · -- Above the root the walk would be over, elsewhere than it ends.
        subst top
        rw [List.append_nil] at later
        have shorter : root.dropLast.length < root.length := by
          rw [List.length_dropLast]
          exact Nat.sub_lt (List.length_pos_iff.mpr proper) Nat.one_pos
        have ended := later.outside shows fun inside =>
          Nat.not_le.mpr shorter inside.length_le
        rw [← there] at ended
        have lengths := congrArg List.length ended
        rw [List.length_append] at lengths
        omega
      · refine .up above ?_
        rw [List.dropLast_append_of_ne_nil top]
        refine ih ?_ there
        rw [List.dropLast_append_of_ne_nil top]
  | down isDirectory busy notUp stored notLink later ih =>
      subst here
      have further := ih (List.append_assoc _ _ _).symm there
      rw [List.append_assoc] at stored
      rw [← List.append_assoc] at further
      rename_i name _ entry
      cases entry with
      | directory writable =>
          have below := shows.directory _ (isDirectory_iff.mpr ⟨writable, stored⟩)
          obtain ⟨mode, shown⟩ := isDirectory_iff.mp below
          rw [← List.append_assoc] at shown
          refine .down (shows.directory _ isDirectory) busy notUp shown ?_ further
          exact nofun
      | file contents =>
          have shown := shows.entry _ _ stored nofun
          rw [← List.append_assoc] at shown
          exact .down (shows.directory _ isDirectory) busy notUp shown notLink further
      | link target => exact absurd rfl (notLink target)
  | @link _ _ _ _ target _ isDirectory busy notUp stored later ih =>
      subst here
      rw [List.append_assoc] at stored
      have shown := shows.entry _ _ stored nofun
      rw [← List.append_assoc] at shown
      refine .link (shows.directory _ isDirectory) busy notUp shown ?_
      unfold kernelReading at later ih ⊢
      by_cases absolute : isAbsolute target = true
      · -- The top is outside of the root.
        rw [if_pos absolute] at later
        have ended := later.outside shows fun inside => proper (List.prefix_nil.mp inside)
        rw [← there] at ended
        exact absurd (List.append_eq_nil_iff.mp ended).1 proper
      · rw [if_neg absolute] at ih ⊢
        exact ih rfl there

end PathTree

end Foundation
