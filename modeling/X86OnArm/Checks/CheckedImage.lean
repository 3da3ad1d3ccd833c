import X86OnArm.Applications.ContainerImage
import X86OnArm.Checks.ImageWalk

/-! # The check of an assembled image

The assembly makes the links of the store relative to where they are. From each path that
leads to a file in the store's dependencies the check finds the copy of that file in the image,
and never leaves the image on its way (`resolve_assembled`).
-/

namespace X86OnArm.Checks

open Foundation PosixPath Guest Applications

variable {γ : Type}

section Ways

variable {fs : FileSystem γ} {root : Path} {links : Nat} {rest : List Text}

/-- Directories are passed by their names. -/
theorem walkLinks_directories (links : Nat) {position : Path} (below : Path)
    (isDirectory : fs.IsDirectory (position ++ below)) (rest : List Text) :
    walkLinks fs root links (.image position) (below ++ rest) =
      walkLinks fs root links (.image (position ++ below)) rest := by
  induction below generalizing position with
  | nil => rw [List.append_nil, List.nil_append]
  | cons name below ih =>
      rw [List.append_cons] at isDirectory ⊢
      obtain ⟨writable, stored⟩ : fs.IsDirectory (position ++ [name]) := by
        have taken := isDirectory.take (position ++ [name]).length
        rwa [List.take_left] at taken
      rw [List.cons_append, walkLinks_name (proper_of_stored stored), stored]
      exact ih isDirectory

/-- Steps to the parent that stay below the root. -/
theorem walkLinks_up (links : Nat) (below : Path) {steps : Nat} (inside : steps ≤ below.length)
    (rest : List Text) :
    walkLinks fs root links (.image (root ++ below)) (List.replicate steps dotDot ++ rest) =
      walkLinks fs root links (.image (root ++ below.take (below.length - steps))) rest := by
  induction steps generalizing below with
  | zero => rw [Nat.sub_zero, List.take_length]; rfl
  | succ steps ih =>
      have proper : below ≠ [] := by
        rintro rfl
        exact Nat.not_succ_le_zero _ inside
      have shorter : steps ≤ below.dropLast.length := by
        rw [List.length_dropLast]
        omega
      rw [List.replicate_succ, List.cons_append, walkLinks_dotDot, if_neg proper,
        ih below.dropLast shorter, List.dropLast_eq_take, List.take_take, List.length_take]
      congr 4
      omega

/-- A relative path below the root leads where the path it was made from leads. -/
theorem walkLinks_relative {start : Path} (isDirectory : fs.IsDirectory (root ++ start))
    (path : Path) (links : Nat) (rest : List Text) :
    walkLinks fs root links (.image (root ++ start)) (relativeComponents path start ++ rest) =
      walkLinks fs root links (.image root) (path ++ rest) := by
  have turn : fs.IsDirectory (root ++ path.take (sharedLength start path)) := by
    rw [← take_sharedLength]
    have taken := isDirectory.take (root.length + sharedLength start path)
    rwa [List.take_length_add_append] at taken
  unfold relativeComponents
  rw [List.append_assoc, walkLinks_up links start (Nat.sub_le _ _), take_up]
  calc walkLinks fs root links (.image (root ++ path.take (sharedLength start path)))
        (path.drop (sharedLength start path) ++ rest)
      = walkLinks fs root links (.image root)
          (path.take (sharedLength start path) ++ (path.drop (sharedLength start path) ++ rest)) :=
        (walkLinks_directories links _ turn _).symm
    _ = walkLinks fs root links (.image root) (path ++ rest) := by
        rw [← List.append_assoc, List.take_append_drop]

theorem walkLinks_relative_link (links : Nat) (below : Path) {target : Text}
    (relative : isAbsolute target = false) (rest : List Text) :
    walkLinks fs root links (.image (root ++ below)) (parts target ++ rest) =
      walkLinks fs root links (.image (root ++ below)) (solid (components target) ++ rest) := by
  have single : SingleRoot target := by
    unfold SingleRoot PosixPath.root
    rw [relative]
    exact (List.cons_ne_nil _ _).symm
  rw [walkLinks_parts _ _ single]
  unfold kernelReading
  rw [relative]
  rfl

theorem solid_relativeComponents {path start : Path} (proper : ProperPath path) :
    solid (relativeComponents path start) = relativeComponents path start := by
  apply List.filter_eq_self.mpr
  intro component member
  rcases List.mem_append.mp member with up | down
  · rw [List.eq_of_mem_replicate up]
    decide
  · have named := proper component (List.mem_of_mem_drop down)
    exact decide_eq_true ⟨named.nonempty, named.notDot⟩

end Ways

section Assembly

variable {fs copied final : FileSystem γ} {cwd : Text} {root base : Path} {lines : List Text}
  {links : Nat} {rest : List Text}

/-- The check follows the relative target of a store link to the same place of the store. -/
theorem walkLinks_relativeTarget (cwd : Text) (properRoot : ProperPath root)
    (store : final.IsDirectory (root ++ nixStore)) {position : Path}
    (isDirectory : final.IsDirectory (root ++ position)) {target : Text}
    (isStore : isStoreTarget target = true) (stays : StaysInStore target) :
    walkLinks final root links (.image (root ++ position))
        (parts (relativeTarget cwd root (root ++ position) target) ++ rest) =
      walkLinks final root links (.image (root ++ nixStore))
        ((lexical nixStore (components (belowStore target))).drop nixStore.length ++ rest) := by
  obtain ⟨below, normal⟩ := stays.lexical
  have properDirectory : ProperPath (root ++ position) := by
    obtain ⟨_, stored⟩ := isDirectory
    exact final.proper_of_get? stored
  have destination : lexical root (components target.tail) = root ++ (nixStore ++ below) := by
    rw [lexical_storeTarget isStore stays, normal]
  have properBelow : ProperPath (nixStore ++ below) := by
    rw [normal]
    exact lexical_properPath (by decide) (noSlash_of_mem_components _)
  have whole : solid (components (relativeTarget cwd root (root ++ position) target)) =
      relativeComponents (nixStore ++ below) position := by
    unfold relativeTarget
    rw [components_relpath_child cwd properRoot properDirectory (head?_storeTarget isStore),
      destination, relativeComponents_append]
    split
    · rename_i here
      rw [here]
      rfl
    · exact solid_relativeComponents properBelow
  rw [walkLinks_relative_link links position
    (isAbsolute_relativeTarget cwd properRoot _ isStore), whole, walkLinks_relative isDirectory,
    List.append_assoc, walkLinks_directories links nixStore store, ← normal, List.drop_left]

/-- A walk in the store's dependencies is one of the check in the image. -/
theorem walkLinks_closure (tree : copied.get? = laidOut fs root base lines)
    (store : copied.IsDirectory (root ++ nixStore)) (walked : Walked cwd root copied final [])
    (properRoot : ProperPath root) {position real : Path} {components : List Text}
    (leads : PathTree.Leads (closureTree fs lines) storeReading links position components real)
    (present : ∃ entry, final.get? (root ++ position) = some entry) :
    walkLinks final root links (.image (root ++ position)) (solid components) =
        .ok (.image (root ++ real)) ∧
      ∃ entry, final.get? (root ++ real) = some entry := by
  have laid : PathTree.isDirectory (laidOut fs root base lines) (root ++ nixStore) = true := by
    rw [← tree]
    exact FileSystem.isDirectory_iff.mpr store
  have directory {path : Path} (isDirectory : (closureTree fs lines).isDirectory path = true) :
      final.IsDirectory (root ++ path) := by
    have below := (closureTree_directory laid isDirectory).2
    rw [← tree] at below
    exact walked.kept (FileSystem.isDirectory_iff.mp below)
  induction leads with
  | arrived => exact ⟨walkLinks_nil _ _, present⟩
  | stay isDirectory idle later ih =>
      rw [solid_cons_idle idle]
      exact ih present
  | up isDirectory later ih =>
      rw [solid_cons_busy (by decide), walkLinks_dotDot,
        if_neg (closureTree_directory laid isDirectory).1]
      exact ih (isDirectory_dropLast (directory isDirectory)).present
  | @down _ position _ name _ entry isDirectory busy notUp stored notLink later ih =>
      rw [← List.append_assoc] at ih
      rw [solid_cons_busy busy]
      cases entry with
      | directory writable =>
          obtain ⟨mode, held⟩ := directory (PathTree.isDirectory_iff.mpr ⟨writable, stored⟩)
          rw [← List.append_assoc] at held
          rw [walkLinks_name (proper_of_stored held), held]
          exact ih ⟨_, held⟩
      | file contents =>
          have held := copied_of_closureTree tree stored nofun
          have kept : final.get? (root ++ position ++ [name]) = some (.file contents) := by
            rw [List.append_assoc]
            rcases walked.changed (root ++ (position ++ [name])) with same | ⟨⟨_, wrong⟩, _⟩ |
              ⟨_, _, _, _, _, wrong, _⟩
            · exact same.trans held
            · cases held.symm.trans wrong
            · cases held.symm.trans wrong
          rw [walkLinks_name (proper_of_stored kept), kept]
          exact ih ⟨_, kept⟩
      | link target => exact absurd rfl (notLink target)
  | @link _ position _ name target _ isDirectory busy notUp stored later ih =>
      have held := copied_of_closureTree tree stored nofun
      rw [← List.append_assoc] at held
      have kept : final.get? (root ++ position ++ [name]) =
          some (.link (finalTarget cwd root (root ++ position) target)) := walked.linked held
      have here := directory isDirectory
      rw [solid_cons_busy busy, walkLinks_name (proper_of_stored kept), kept]
      simp only
      by_cases stays : isStoreTarget target = true ∧ StaysInStore target
      · have before : storeReading position target = (nixStore, _) := if_pos stays
        rw [before] at ih
        rw [finalTarget_store (List.prefix_append _ _) stays.1,
          walkLinks_relativeTarget cwd properRoot (walked.kept store) here stays.1 stays.2]
        have proper : ProperPath
            ((lexical nixStore (PosixPath.components (belowStore target))).drop nixStore.length) :=
          fun name member => lexical_properPath (by decide) (noSlash_of_mem_components _) name
            (List.mem_of_mem_drop member)
        rw [solid_append, solid_of_proper proper] at ih
        exact ih (walked.kept store).present
      · have before : storeReading position target = kernelReading position target := if_neg stays
        rw [before, kernelReading] at later ih
        cases absolute : isAbsolute target with
        | true =>
            rw [if_pos absolute] at later
            exact absurd later (not_leads_top absolute)
        | false =>
            have other : isStoreTarget target = false :=
              not_isStoreTarget_of_relative (beq_eq_false_iff_ne.mp absolute)
            rw [absolute] at ih
            rw [finalTarget_other other, walkLinks_relative_link _ position absolute,
              ← solid_append]
            exact ih here.present

end Assembly

/-- Where a path of the store leads, and that the walk with the links of the store normalised
enters nothing but dependencies and ends at the same file. -/
structure StoreWalk (fs : FileSystem γ) (lines : List Text) (names file : Path) : Prop where
  leads : fs.resolve FileSystem.maxLinks [] (nixStore ++ names) = some file
  confined : (closureTree fs lines).resolveWith storeReading 99 nixStore names = some file

/-- **The check finds the copies.** For every image that the assembly completes and every path
of the store that leads to a file in the dependencies, the check of the image ends at the copy
of that file. -/
theorem resolve_assembled {fs final : FileSystem γ} {parent base : Path} {output : Text}
    {graphs : List (List Text)} (cwd : Text) (provided : Provided fs base graphs)
    (completes : assemble cwd fs parent output base graphs = some final)
    (names : Path) (proper : ProperPath names) (file : Path)
    (walk : StoreWalk fs (dependencies base graphs) names file) :
    resolve final (parent ++ [output]) (pathOf (nixStore ++ names)) =
      .ok (parent ++ [output] ++ file) := by
  have image := assembled provided completes
  obtain ⟨copied, tree, store, walked⟩ := image.walked
  have storeKept := walked.kept store
  obtain ⟨found, entry, present⟩ := walkLinks_closure tree store walked image.properRoot
    (PathTree.leads_of_resolves walk.confined) storeKept.present
  have whole : ProperPath (nixStore ++ names) := by
    intro name member
    exact (List.mem_append.mp member).elim (fun inStore => (by decide : ProperPath nixStore) name
      inStore) (proper name)
  have single : SingleRoot (pathOf (nixStore ++ names)) := by
    unfold SingleRoot pathOf
    rw [root_slash (head?_joined whole.solidParts)]
    decide
  have arrives : walkLinks final (parent ++ [output]) 99 (.image (parent ++ [output]))
      (solid (components (pathOf (nixStore ++ names)))) =
        .ok (.image (parent ++ [output] ++ file)) := by
    unfold pathOf
    rw [solid_components_absolute whole.solidParts, walkLinks_directories 99 nixStore storeKept,
      ← solid_of_proper proper, found]
  rw [resolve_of_arrives single arrives, if_pos (Option.isSome_of_eq_some present)]

theorem resolve_assembled_linked : ∃ final, linkedImage = some final ∧
    resolve final (nixStore ++ [text "image"]) (text "/nix/store/env/sh") =
      .ok (nixStore ++ [text "image"] ++ (nixStore ++ [text "bash", text "sh"])) := by
  have assembles : linkedImage.isSome = true := by decide +kernel
  obtain ⟨final, completes⟩ := Option.isSome_iff_exists.mp assembles
  refine ⟨final, completes, ?_⟩
  exact resolve_assembled (text "/build") provided_linked completes [text "env", text "sh"]
    (by decide) (nixStore ++ [text "bash", text "sh"]) ⟨by decide +kernel, by decide +kernel⟩

end X86OnArm.Checks
