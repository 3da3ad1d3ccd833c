import X86OnArm.Applications.ProviderView
import X86OnArm.Guest.DriverLinks
import X86OnArm.Guest.Relocation

/-! # The assembled image in a container

Where a container sees the image's `nix`, the links that the assembly made relative lead
to the copies of their files (`container_keeps_links`): they go up no further than the
store, whatever directory it is seen in.
-/

namespace X86OnArm.Applications

open Foundation PosixPath Guest

variable {γ : Type} {root mount : Path}

theorem sharedLength_append (above start path : Path) :
    sharedLength (above ++ start) (above ++ path) = above.length + sharedLength start path := by
  induction above with
  | nil => exact (Nat.zero_add _).symm
  | cons name above ih =>
      rw [List.cons_append, List.cons_append, sharedLength, if_pos rfl, ih, List.length_cons]
      omega

/-- The way between two places is the same below every directory. -/
theorem relativeComponents_append (above start path : Path) :
    relativeComponents (above ++ path) (above ++ start) = relativeComponents path start := by
  unfold relativeComponents
  rw [sharedLength_append, List.length_append, Nat.add_sub_add_left, List.drop_append]
  congr 1
  rw [List.drop_eq_nil_of_le (Nat.le_add_right _ _), List.nil_append,
    Nat.add_sub_cancel_left]

/-- A container's file system shows the image's store below a directory. -/
structure ShowsStore (image : FileSystem γ) (root : Path) (view : FileSystem γ) (mount : Path) :
    Prop where
  store : view.IsDirectory (mount ++ nixStore)
  directory : ∀ below, image.IsDirectory (root ++ (nixStore ++ below)) →
    view.IsDirectory (mount ++ (nixStore ++ below))
  entry : ∀ below entry, image.get? (root ++ (nixStore ++ below)) = some entry →
    (∀ writable, entry ≠ .directory writable) →
    view.get? (mount ++ (nixStore ++ below)) = some entry

section Links

variable {fs copied final view : FileSystem γ} {cwd : Text} {lines : List Text}

/-- The target a copied link has in the image. -/
def finalTarget (cwd : Text) (root directory : Path) (target : Text) : Text :=
  if root <+: directory ∧ isStoreTarget target = true then relativeTarget cwd root directory target
  else target

theorem finalTarget_store (inside : root <+: directory) (store : isStoreTarget target = true) :
    finalTarget cwd root directory target = relativeTarget cwd root directory target :=
  if_pos ⟨inside, store⟩

theorem finalTarget_other (other : isStoreTarget target = false) :
    finalTarget cwd root directory target = target :=
  if_neg fun relinks => Bool.false_ne_true (other.symm.trans relinks.2)

/-- The relative target of a store link leads, from the same place below another
directory, to the same place in the store there. -/
theorem leads_relativeTarget (cwd : Text) (shows : ShowsStore final root view mount)
    (properRoot : ProperPath root) {position : Path} (properPosition : ProperPath position)
    (isDirectory : view.IsDirectory (mount ++ position)) {target : Text}
    (store : isStoreTarget target = true) (stays : StaysInStore target) {links : Nat}
    {rest : List Text} {real : Path}
    (leads : PathTree.Leads view.get? kernelReading links (mount ++ nixStore)
      ((lexical nixStore (components (belowStore target))).drop nixStore.length ++ rest) real) :
    PathTree.Leads view.get? kernelReading links (mount ++ position)
      (components (relativeTarget cwd root (root ++ position) target) ++ rest) real := by
  obtain ⟨below, normal⟩ := stays.lexical
  rw [← normal, List.drop_left] at leads
  have way : view.resolveWith kernelReading links (mount ++ position)
      (relativeComponents (mount ++ (nixStore ++ below)) (mount ++ position) ++ rest) =
        some real := by
    rw [FileSystem.resolveWith_relative isDirectory, ← List.append_assoc, List.append_assoc,
      FileSystem.resolveWith_directories (mount ++ nixStore) shows.store]
    exact leads.resolves
  have destination : lexical root (components target.tail) = root ++ (nixStore ++ below) := by
    rw [lexical_storeTarget store stays, normal]
  have properDirectory : ProperPath (root ++ position) := fun name member =>
    (List.mem_append.mp member).elim (properRoot name) (properPosition name)
  apply PathTree.leads_of_resolves
  unfold relativeTarget
  rw [components_relpath_child cwd properRoot properDirectory (head?_storeTarget store),
    destination, relativeComponents_append]
  rw [relativeComponents_append] at way
  split
  · rename_i here
    rw [here, List.nil_append] at way
    rw [List.singleton_append]
    exact (FileSystem.resolveWith_idle isDirectory (.inr rfl) _ _).trans way
  · exact way

/-- Nothing is read from the top of the store's tree. -/
theorem not_leads_top {links : Nat} {target : Text} (absolute : isAbsolute target = true)
    {rest : List Text} {real : Path} :
    ¬ PathTree.Leads (closureTree fs lines) storeReading links [] (components target ++ rest)
      real := by
  obtain ⟨names, rfl⟩ : ∃ names, target = slash :: names :=
    List.head?_eq_some_iff.mp (eq_of_beq absolute)
  rw [components_slash]
  intro leads
  cases leads with
  | stay isDirectory idle later => cases isDirectory
  | down isDirectory busy notUp stored notLink later => exact busy (.inl rfl)
  | link isDirectory busy notUp stored later => exact busy (.inl rfl)

/-- A link of the image is read in the container as the original is in the store. -/
theorem leads_finalTarget (cwd : Text) (shows : ShowsStore final root view mount)
    (properRoot : ProperPath root) {position : Path} (properPosition : ProperPath position)
    (isDirectory : view.IsDirectory (mount ++ position)) (target : Text) {links : Nat}
    {rest : List Text} {real : Path}
    (leads : PathTree.Leads (closureTree fs lines) storeReading links
      (storeReading position target).1 ((storeReading position target).2 ++ rest) real)
    (same : PathTree.Leads view.get? kernelReading links
      (mount ++ (storeReading position target).1) ((storeReading position target).2 ++ rest)
      (mount ++ real)) :
    PathTree.Leads view.get? kernelReading links
      (kernelReading (mount ++ position) (finalTarget cwd root (root ++ position) target)).1
      ((kernelReading (mount ++ position) (finalTarget cwd root (root ++ position) target)).2 ++
        rest) (mount ++ real) := by
  by_cases stays : isStoreTarget target = true ∧ StaysInStore target
  · have before : storeReading position target = (nixStore, _) := if_pos stays
    rw [before] at same
    rw [finalTarget_store (List.prefix_append _ _) stays.1, kernelReading,
      if_neg (Bool.eq_false_iff.mp (isAbsolute_relativeTarget cwd properRoot _ stays.1))]
    exact leads_relativeTarget cwd shows properRoot properPosition isDirectory stays.1 stays.2
      same
  · have before : storeReading position target = kernelReading position target := if_neg stays
    rw [before, kernelReading] at leads same
    cases absolute : isAbsolute target with
    | true =>
        rw [if_pos absolute] at leads
        exact absurd leads (not_leads_top absolute)
    | false =>
        rw [if_neg (Bool.eq_false_iff.mp absolute)] at same
        have other : isStoreTarget target = false :=
          not_isStoreTarget_of_relative (beq_eq_false_iff_ne.mp absolute)
        rw [finalTarget_other other, kernelReading, if_neg (Bool.eq_false_iff.mp absolute)]
        exact same

variable {base : Path}

/-- The store's tree has nothing outside of the store. -/
theorem below_of_closureTree {path : Path} {entry : Entry γ}
    (stored : closureTree fs lines path = some entry) : ∃ below, path = nixStore ++ below := by
  unfold closureTree at stored
  split at stored
  case isTrue here => exact ⟨[], here.trans (List.append_nil _).symm⟩
  case isFalse =>
    obtain ⟨⟨line, rest⟩, found, _⟩ := Option.bind_eq_some_iff.mp stored
    exact ⟨_, (dependencyAt_eq_some.mp found).1⟩

/-- What the store's tree has, the copies have below the root. -/
theorem copied_of_closureTree (tree : copied.get? = laidOut fs root base lines)
    {path : Path} {entry : Entry γ} (stored : closureTree fs lines path = some entry)
    (other : ∀ writable, entry ≠ .directory writable) :
    copied.get? (root ++ path) = some entry := by
  rw [tree]
  refine laidOut_closureTree root base stored ?_
  rintro rfl
  rw [closureTree, if_pos rfl] at stored
  exact other false (Option.some.inj stored).symm

/-- **A walk in the store's dependencies is one in the container**, from the same place
below the directory the store is seen in. -/
theorem leads_container (tree : copied.get? = laidOut fs root base lines)
    (store : copied.IsDirectory (root ++ nixStore)) (walked : Walked cwd root copied final [])
    (properRoot : ProperPath root) (shows : ShowsStore final root view mount) {links : Nat}
    {position real : Path} {components : List Text}
    (leads : PathTree.Leads (closureTree fs lines) storeReading links position components real) :
    PathTree.Leads view.get? kernelReading links (mount ++ position) components
      (mount ++ real) := by
  have laid : PathTree.isDirectory (laidOut fs root base lines) (root ++ nixStore) = true := by
    rw [← tree]
    exact FileSystem.isDirectory_iff.mpr store
  have copiedDirectory {path : Path}
      (isDirectory : (closureTree fs lines).isDirectory path = true) :
      copied.IsDirectory (root ++ path) := by
    have below := (closureTree_directory laid isDirectory).2
    rw [← tree] at below
    exact FileSystem.isDirectory_iff.mp below
  have directory {path : Path} (isDirectory : (closureTree fs lines).isDirectory path = true) :
      view.IsDirectory (mount ++ path) := by
    obtain ⟨mode, stored⟩ := PathTree.isDirectory_iff.mp isDirectory
    obtain ⟨below, rfl⟩ := below_of_closureTree stored
    exact shows.directory below (walked.kept (copiedDirectory isDirectory))
  have here {path : Path} (isDirectory : (closureTree fs lines).isDirectory path = true) :
      PathTree.isDirectory view.get? (mount ++ path) = true :=
    FileSystem.isDirectory_iff.mpr (directory isDirectory)
  induction leads with
  | arrived => exact .arrived
  | stay isDirectory idle later ih => exact .stay (here isDirectory) idle ih
  | up isDirectory later ih =>
      refine .up (here isDirectory) ?_
      rwa [List.dropLast_append_of_ne_nil (closureTree_directory laid isDirectory).1]
  | @down _ position _ name _ entry isDirectory busy notUp stored notLink later ih =>
      rw [← List.append_assoc] at ih
      cases entry with
      | directory writable =>
          obtain ⟨mode, shown⟩ := directory (PathTree.isDirectory_iff.mpr ⟨writable, stored⟩)
          rw [← List.append_assoc] at shown
          refine .down (here isDirectory) busy notUp shown ?_ ih
          exact nofun
      | file contents =>
          have held := copied_of_closureTree tree stored nofun
          have kept : final.get? (root ++ (position ++ [name])) = some (.file contents) := by
            rcases walked.changed (root ++ (position ++ [name])) with same | ⟨⟨_, wrong⟩, _⟩ |
              ⟨_, _, _, _, _, wrong, _⟩
            · exact same.trans held
            · cases held.symm.trans wrong
            · cases held.symm.trans wrong
          obtain ⟨below, inStore⟩ := below_of_closureTree stored
          rw [inStore] at kept
          have shown := shows.entry below _ kept nofun
          rw [← inStore, ← List.append_assoc] at shown
          exact .down (here isDirectory) busy notUp shown notLink ih
      | link target => exact absurd rfl (notLink target)
  | @link _ position _ name target _ isDirectory busy notUp stored later ih =>
      have held := copied_of_closureTree tree stored nofun
      rw [← List.append_assoc] at held
      have kept : final.get? (root ++ position ++ [name]) =
          some (.link (finalTarget cwd root (root ++ position) target)) := walked.linked held
      obtain ⟨below, inStore⟩ := below_of_closureTree stored
      rw [List.append_assoc, inStore] at kept
      have shown := shows.entry below _ kept nofun
      rw [← inStore, ← List.append_assoc] at shown
      have properPosition : ProperPath position := by
        obtain ⟨_, entry⟩ := copiedDirectory isDirectory
        exact fun other member => copied.proper_of_get? entry other (List.mem_append_right _ member)
      exact .link (here isDirectory) busy notUp shown (leads_finalTarget cwd shows properRoot
        properPosition (directory isDirectory) target later ih)

end Links

/-! ## The three places a container sees the store in -/

/-- The directories in which a container has the image's `nix`. -/
def storeViews : List Path :=
  providers.map names ++ [names (text "/run/pressure-vessel/interpreter-root")]

theorem names_interpreterNix : names interpreterNix =
    names (text "/run/pressure-vessel/interpreter-root") ++ [text "nix"] := by
  decide +kernel

section Views

variable {build : HelperBuild} {host : HelperHost} {rootText : Text} {tree view : PathTree γ}
  {earlier : List (Mount (Option Text))}

theorem view_nix
    (sees : SeesMounts tree (earlier ++ (helperBinds host rootText).map mountOf) view)
    (listed : mount ∈ storeViews) (rest : Path) :
    view (mount ++ text "nix" :: rest) = tree (names rootText ++ text "nix" :: rest) := by
  have nix : text "nix" ∈ subdirs := List.mem_cons_self
  rcases List.mem_append.mp listed with provider | interpreter
  · obtain ⟨provider, member, rfl⟩ := List.mem_map.mp provider
    exact view_provider sees member nix rest
  · cases List.mem_singleton.mp interpreter
    have bound : (below rootText (text "nix"), interpreterNix) ∈ helperBinds host rootText :=
      mem_helperBinds_interpreter
    have lies := resolve_helperBinds bound earlier rest
    have seen := sees _ _ _ lies
    rw [names_interpreterNix, names_below, names_subdir nix] at seen
    simpa only [List.append_assoc, List.singleton_append] using seen

theorem showsStore_of_sees {image : FileSystem γ} {view : FileSystem γ}
    (sees : SeesMounts tree (earlier ++ (helperBinds host rootText).map mountOf) view.get?)
    (kept : ∀ below entry, image.get? (names rootText ++ (nixStore ++ below)) = some entry →
      tree (names rootText ++ (nixStore ++ below)) = some entry)
    (store : image.IsDirectory (names rootText ++ nixStore)) (listed : mount ∈ storeViews) :
    ShowsStore image (names rootText) view mount := by
  have shown (below : Path) (entry : Entry γ)
      (stored : image.get? (names rootText ++ (nixStore ++ below)) = some entry) :
      view.get? (mount ++ (nixStore ++ below)) = some entry :=
    (view_nix sees listed (text "store" :: below)).trans (kept below entry stored)
  have directory (below : Path) (isDirectory : image.IsDirectory
      (names rootText ++ (nixStore ++ below))) :
      view.IsDirectory (mount ++ (nixStore ++ below)) := by
    obtain ⟨writable, stored⟩ := isDirectory
    exact ⟨writable, shown below _ stored⟩
  refine ⟨?_, directory, fun below entry stored _ => shown below entry stored⟩
  have top := directory []
  rw [List.append_nil] at top
  exact top store

end Views

/-- A store link whose walk leaves the store is not confined. -/
theorem stays_of_confined {fs : FileSystem γ} {base : Path} {graphs : List (List Text)}
    {target : Text} {file : Path} (confined : Confined fs base graphs target file)
    (store : isStoreTarget target = true) : StaysInStore target := by
  have closure := PathTree.leads_of_resolves confined
  by_contra leaves
  have before : storeReading [] target = kernelReading [] target :=
    if_neg fun both => leaves both.2
  obtain ⟨rest, rfl⟩ := isStoreTarget_iff.mp store
  rw [before, ← List.append_nil (kernelReading [] _).2] at closure
  have top : isAbsolute (storeText ++ rest) = true := rfl
  exact not_leads_top top closure

/-- The file a store link led to, where the walk with the links of the store normalised enters
nothing but dependencies and ends at the same file. -/
structure StoreLink (fs : FileSystem γ) (base : Path) (graphs : List (List Text)) (target : Text)
    (file : Path) : Prop where
  led : fs.resolve FileSystem.maxLinks [] (components target) = some file
  confined : Confined fs base graphs target file

/-- **The image's store links keep leading to their files in a container.** Whatever the
leading pairs mount: a link of a copied dependency whose walk stays in the dependencies
leads to the copy of the file it led to in the image, and from the same place in each
of the container's three views of the store to the copy seen there. -/
theorem container_keeps_links {build : HelperBuild} {host : HelperHost} {rootText : Text}
    {fs final : FileSystem γ} {parent base : Path} {output : Text} {graphs : List (List Text)}
    (cwd : Text) (provided : Provided fs base graphs)
    (completes : assemble cwd fs parent output base graphs = some final)
    (image : names rootText = parent ++ [output])
    (rootfs : host.fexRootfs = some rootText) (absolute : isAbsolute rootText = true)
    (found : ∀ subdir ∈ subdirs, host.directory (below rootText subdir) = true)
    (descriptor : Text) (descriptors payload : List Text) (plain : ¬ StartsWithPair payload)
    (directory : Path) (name target : Text) (file : Path) (inStore : nixStore <+: directory)
    (placed : laidOut fs (names rootText) base (dependencies base graphs)
      (names rootText ++ directory ++ [name]) = some (.link target))
    (store : isStoreTarget target = true) (link : StoreLink fs base graphs target file) :
    ∃ exec new, main build host ((descriptor :: descriptors).flatMap pair ++ payload) = .ok exec ∧
      final.get? (names rootText ++ directory ++ [name]) = some (.link new) ∧
      final.resolve FileSystem.maxLinks (names rootText ++ directory) (components new) =
        some (names rootText ++ file) ∧
      ∀ bubblewrap : Bubblewrap, bubblewrap.mounts payload = [] →
        ∀ (tree : PathTree γ) (view : FileSystem γ),
          (∀ below entry, final.get? (names rootText ++ (nixStore ++ below)) = some entry →
            tree (names rootText ++ (nixStore ++ below)) = some entry) →
          SeesMounts tree (bubblewrap.mounts exec.argv.tail) view.get? →
          ∀ mount ∈ storeViews, view.get? (mount ++ directory ++ [name]) = some (.link new) ∧
            view.resolve FileSystem.maxLinks (mount ++ directory) (components new) =
              some (mount ++ file) := by
  obtain ⟨exec, executes, mounts⟩ := main_mounts build rootfs absolute found descriptor
    descriptors payload plain
  have assembled := assembled provided completes
  rw [← image] at assembled
  obtain ⟨copied, same, storeCopied, walked⟩ := assembled.walked
  have properRoot := assembled.properRoot
  obtain ⟨inner, rfl⟩ := inStore
  rw [← same] at placed
  have linked := walked.linked placed
  have stored := walked.kept storeCopied
  have isDirectory : final.IsDirectory (names rootText ++ (nixStore ++ inner)) :=
    walked.kept (copied.isDirectory_of_below (List.cons_ne_nil _ _) placed)
  have properDirectory : ProperPath (nixStore ++ inner) := by
    obtain ⟨_, entry⟩ := isDirectory
    exact fun other member => final.proper_of_get? entry other (List.mem_append_right _ member)
  have closure := PathTree.leads_of_resolves link.confined
  have stays := stays_of_confined link.confined store
  have before : storeReading [] target = (nixStore, _) := if_pos ⟨store, stays⟩
  rw [before] at closure
  have new : finalTarget cwd (names rootText) (names rootText ++ (nixStore ++ inner)) target =
      relativeTarget cwd (names rootText) (names rootText ++ (nixStore ++ inner)) target :=
    finalTarget_store (List.prefix_append _ _) store
  have leads (view : FileSystem γ) (mount : Path)
      (shows : ShowsStore final (names rootText) view mount) :
      view.get? (mount ++ (nixStore ++ inner) ++ [name]) = some (.link (relativeTarget cwd
          (names rootText) (names rootText ++ (nixStore ++ inner)) target)) ∧
        view.resolve FileSystem.maxLinks (mount ++ (nixStore ++ inner)) (components
          (relativeTarget cwd (names rootText) (names rootText ++ (nixStore ++ inner)) target)) =
            some (mount ++ file) := by
    have walk := leads_container same storeCopied walked properRoot shows closure
    rw [← List.append_nil (List.drop _ _)] at walk
    have resolves := leads_relativeTarget cwd shows properRoot properDirectory
      (shows.directory inner isDirectory) store stays walk
    rw [List.append_nil] at resolves
    refine ⟨?_, resolves.resolves⟩
    have held := (congrArg (fun target => some (Entry.link target)) new) ▸ linked
    have place : names rootText ++ (nixStore ++ inner) ++ [name] =
      names rootText ++ (nixStore ++ (inner ++ [name])) := by simp only [List.append_assoc]
    rw [place] at held
    have shown := shows.entry (inner ++ [name]) _ held nofun
    simpa only [List.append_assoc] using shown
  obtain ⟨here, resolves⟩ := leads final (names rootText)
    ⟨stored, fun _ => id, fun _ _ entry _ => entry⟩
  refine ⟨exec, _, executes, here, resolves, ?_⟩
  intro bubblewrap silent tree view kept sees mount listed
  rw [mounts bubblewrap silent] at sees
  exact leads view mount (showsStore_of_sees sees kept stored listed)

/-- A base beside a dependency with a link into another one. -/
def linkedEntries : Dict Path (Entry Unit) where
  entries := [
    ([], .directory true),
    ([text "nix"], .directory true),
    (nixStore, .directory true),
    (nixStore ++ [text "base"], .directory false),
    (nixStore ++ [text "bash"], .directory false),
    (nixStore ++ [text "bash", text "sh"], .file ()),
    (nixStore ++ [text "env"], .directory false),
    (nixStore ++ [text "env", text "sh"], .link (text "/nix/store/bash/sh"))]
  nodup := by decide +kernel

def linkedStore : FileSystem Unit := FileSystem.ofEntries linkedEntries (by decide +kernel)

def linkedGraphs : List (List Text) :=
  [[text "/nix/store/base", text "/nix/store/bash", text "/nix/store/env"]]

def linkedImage : Option (FileSystem Unit) :=
  assemble (text "/build") linkedStore nixStore (text "image") sampleBase linkedGraphs

theorem provided_linked : Provided linkedStore sampleBase linkedGraphs where
  nix := by decide +kernel
  store := by decide +kernel
  listed := by
    have leads : ∀ line ∈ dependencies sampleBase linkedGraphs,
        (linkedStore.resolve FileSystem.maxLinks [] (solid (components line))).isSome = true := by
      decide +kernel
    exact fun line member => Option.isSome_iff_exists.mp (leads line member)

theorem linkedImage_isSome : linkedImage.isSome = true := by decide +kernel

def linkedFinal : FileSystem Unit := linkedImage.get linkedImage_isSome

def linkedView : FileSystem Unit :=
  FileSystem.ofEntries ⟨containerEntries linkedFinal (sampleMounts imageHost), by decide +kernel⟩
    (by decide +kernel)

theorem linkedView_sees : SeesMounts linkedFinal.get? (sampleMounts imageHost) linkedView.get? :=
  seesMounts_of_entries (by decide +kernel)

theorem container_keeps_links_sample : ∃ exec new,
    linkedImage = some linkedFinal ∧
    main ⟨text "bwrap", text "/bin"⟩ imageHost (pair (text "7") ++ [text "--", text "true"]) =
      .ok exec ∧
    SeesMounts linkedFinal.get? ((bindsOnly fun _ => []).mounts exec.argv.tail) linkedView.get? ∧
    linkedFinal.resolve FileSystem.maxLinks
        (names (text "/nix/store/image") ++ (nixStore ++ [text "env"])) (components new) =
      some (names (text "/nix/store/image") ++ (nixStore ++ [text "bash", text "sh"])) ∧
    linkedView.resolve FileSystem.maxLinks
        (names (text "/var/pressure-vessel/gfx/main") ++ (nixStore ++ [text "env"]))
        (components new) =
      some (names (text "/var/pressure-vessel/gfx/main") ++
        (nixStore ++ [text "bash", text "sh"])) := by
  have completes : linkedImage = some linkedFinal := (Option.some_get linkedImage_isSome).symm
  obtain ⟨exec, new, executes, _, resolves, inContainer⟩ := @container_keeps_links Unit
    ⟨text "bwrap", text "/bin"⟩ imageHost (text "/nix/store/image") linkedStore linkedFinal
    nixStore sampleBase (text "image") linkedGraphs (text "/build") provided_linked completes
    (by decide +kernel) rfl (by decide) (fun _ _ => rfl) (text "7") [] [text "--", text "true"]
    plain_sample (nixStore ++ [text "env"]) (text "sh") (text "/nix/store/bash/sh")
    (nixStore ++ [text "bash", text "sh"]) (List.prefix_append _ _) rfl (by decide)
    ⟨by decide +kernel, by unfold Confined; decide +kernel⟩
  have sees : SeesMounts linkedFinal.get? ((bindsOnly fun _ => []).mounts exec.argv.tail)
      linkedView.get? := sampleMounts_eq executes ▸ linkedView_sees
  exact ⟨exec, new, completes, executes, sees, resolves,
    (inContainer (bindsOnly fun _ => []) (by decide) _ linkedView (fun _ _ => id) sees _
      List.mem_cons_self).2⟩

/-! ## The driver directories in a provider -/

theorem components_driverTarget {package entry : Text} (properPackage : ProperName package)
    (properEntry : ProperName entry) :
    components (driverTarget package entry) =
      [dotDot, dotDot] ++ (nixStore ++ [package]) ++ [entry] := by
  have shape : driverTarget package entry = text ".." ++ slash :: (text ".." ++ slash ::
      (text "nix" ++ slash :: (text "store" ++ slash :: (package ++ slash :: entry)))) := by
    rw [driverTarget, List.append_assoc, List.append_assoc]
    rfl
  have single {name : Text} (noSlash : slash ∉ name) : name.splitOn slash = [name] :=
    List.splitOn_eq_singleton noSlash
  rw [shape]
  unfold components
  rw [List.splitOn_append_cons_self, List.splitOn_append_cons_self, List.splitOn_append_cons_self,
    List.splitOn_append_cons_self, List.splitOn_append_cons_self, single properPackage.noSlash,
    single properEntry.noSlash]
  have up : (text "..").splitOn slash = [dotDot] := by decide
  have nix : (text "nix").splitOn slash = [text "nix"] := by decide
  have store : (text "store").splitOn slash = [text "store"] := by decide
  rw [up, nix, store]
  rfl

/-- A driver's link leads into its package, from wherever both are seen. -/
theorem resolve_driver {view : FileSystem γ} {driver package entry : Text}
    (isDriver : view.IsDirectory (mount ++ [text "run", driver]))
    (isPackage : view.IsDirectory (mount ++ (nixStore ++ [package])))
    (linked : view.get? (mount ++ [text "run", driver] ++ [entry]) =
      some (.link (driverTarget package entry))) (links : Nat) (rest : List Text) :
    view.resolve (links + 1) (mount ++ [text "run", driver]) (entry :: rest) =
      view.resolve links (mount ++ (nixStore ++ [package])) (entry :: rest) := by
  have properEntry : ProperName entry :=
    view.proper_of_get? linked entry (List.mem_append_right _ (List.mem_singleton_self _))
  have properPackage : ProperName package := by
    obtain ⟨_, stored⟩ := isPackage
    refine view.proper_of_get? stored package ?_
    exact List.mem_append_right _ (List.mem_append_right _ (List.mem_singleton_self _))
  have run : view.IsDirectory (mount ++ [text "run"]) := by
    obtain ⟨_, stored⟩ := isDriver
    exact view.isDirectory_of_below (List.cons_ne_nil driver [])
      (by rwa [List.append_assoc])
  have relative : kernelReading (mount ++ [text "run", driver]) (driverTarget package entry) =
      (mount ++ [text "run", driver], components (driverTarget package entry)) := by
    rw [kernelReading]
    rfl
  unfold FileSystem.resolve
  rw [FileSystem.resolveWith_proper isDriver properEntry, linked]
  change view.resolveWith kernelReading links (kernelReading _ _).1
    ((kernelReading _ _).2 ++ rest) = _
  have up : (mount ++ [text "run", driver]).dropLast = mount ++ [text "run"] :=
    List.dropLast_append_of_ne_nil (List.cons_ne_nil _ _)
  have upper : (mount ++ [text "run"]).dropLast = mount := List.dropLast_concat
  rw [relative, components_driverTarget properPackage properEntry, List.append_assoc,
    List.append_assoc]
  change view.resolveWith kernelReading links _ (dotDot :: dotDot :: _) = _
  rw [FileSystem.resolveWith_dotDot isDriver, up, FileSystem.resolveWith_dotDot run, upper]
  exact FileSystem.resolveWith_directories (nixStore ++ [package]) isPackage links (entry :: rest)

/-- **Drivers are reached in both providers as in the image.** Every entry of a driver's
package that is not hidden leads, from the driver's directory in the image and in either
provider, wherever it leads from the package there. -/
theorem container_reaches_drivers {build : HelperBuild} {host : HelperHost} {rootText : Text}
    {fs final : FileSystem γ} {pairs : List (Text × Text)}
    (proper : ∀ pair ∈ pairs, ProperName pair.1) (distinct : (pairs.map Prod.fst).Nodup)
    (isDirectory : fs.IsDirectory (names rootText))
    (notLink : fs.isLink (names rootText ++ [text "run"]) = false)
    (fresh : ∀ pair ∈ pairs, fs.get? (names rootText ++ [text "run"] ++ [pair.1]) = none)
    (packages : ∀ pair ∈ pairs, fs.IsDirectory (names rootText ++ nixStore ++ [pair.2]))
    (completes : linkDrivers (names rootText) pairs fs = some final)
    (rootfs : host.fexRootfs = some rootText) (absolute : isAbsolute rootText = true)
    (found : ∀ subdir ∈ subdirs, host.directory (below rootText subdir) = true)
    (descriptor : Text) (descriptors payload : List Text) (plain : ¬ StartsWithPair payload) :
    ∃ exec, main build host ((descriptor :: descriptors).flatMap pair ++ payload) = .ok exec ∧
      ∀ driver ∈ pairs, ∀ entry,
        (∃ stored, fs.get? (names rootText ++ nixStore ++ [driver.2] ++ [entry]) = some stored) →
        dot.isPrefixOf entry = false → ∀ links rest,
          final.resolve (links + 1) (names rootText ++ [text "run", driver.1]) (entry :: rest) =
              final.resolve links (names rootText ++ (nixStore ++ [driver.2])) (entry :: rest) ∧
            ∀ bubblewrap : Bubblewrap, bubblewrap.mounts payload = [] →
              ∀ (tree : PathTree γ) (view : FileSystem γ),
                (∀ subdir ∈ subdirs, ∀ rest entry,
                  final.get? (names rootText ++ subdir :: rest) = some entry →
                  tree (names rootText ++ subdir :: rest) = some entry) →
                SeesMounts tree (bubblewrap.mounts exec.argv.tail) view.get? →
                ∀ provider ∈ providers,
                  view.resolve (links + 1) (names provider ++ [text "run", driver.1])
                      (entry :: rest) =
                    view.resolve links (names provider ++ (nixStore ++ [driver.2]))
                      (entry :: rest) := by
  obtain ⟨exec, executes, mounts⟩ := main_mounts build rootfs absolute found descriptor
    descriptors payload plain
  obtain ⟨drivers, kept⟩ :=
    linkDrivers_spec proper distinct isDirectory notLink fresh packages completes
  refine ⟨exec, executes, fun driver listed entry present visible links rest => ?_⟩
  obtain ⟨isDriver, linked⟩ := drivers driver listed
  have linked := linked entry present visible
  have isPackage : final.IsDirectory (names rootText ++ nixStore ++ [driver.2]) := by
    obtain ⟨writable, stored⟩ := packages driver listed
    refine ⟨writable, (kept _ (fun here => ?_) fun other _ inside => ?_).trans stored⟩
    · exact store_not_run (names rootText) [driver.2] (here ▸ List.prefix_refl _)
    · exact store_not_run (names rootText) [driver.2] ((List.prefix_append _ _).trans inside)
  simp only [List.append_assoc, List.cons_append, List.nil_append] at isDriver linked isPackage
  have shape : names rootText ++ [text "run", driver.1] ++ [entry] =
    names rootText ++ [text "run", driver.1, entry] := by rw [List.append_assoc]; rfl
  refine ⟨resolve_driver isDriver isPackage (by rw [shape]; exact linked) links rest, ?_⟩
  intro bubblewrap silent tree view keeps sees provider member
  rw [mounts bubblewrap silent] at sees
  have shown {subdir : Text} (within : subdir ∈ subdirs) {below : Path} {stored : Entry γ}
      (held : final.get? (names rootText ++ subdir :: below) = some stored) :
      view.get? (names provider ++ subdir :: below) = some stored :=
    (view_provider sees member within below).trans (keeps subdir within below stored held)
  have run : text "run" ∈ subdirs := by decide
  have nix : text "nix" ∈ subdirs := List.mem_cons_self
  obtain ⟨driverMode, driverStored⟩ := isDriver
  obtain ⟨packageMode, packageStored⟩ := isPackage
  refine resolve_driver ⟨driverMode, shown run driverStored⟩
    ⟨packageMode, shown nix packageStored⟩ ?_ links rest
  rw [List.append_assoc]
  exact shown run linked

/-- An image with one driver's package. -/
def packagedEntries : Dict Path (Entry Unit) where
  entries := [
    ([], .directory false),
    ([text "image"], .directory true),
    ([text "image"] ++ [text "nix"], .directory true),
    ([text "image"] ++ nixStore, .directory true),
    ([text "image"] ++ nixStore ++ [text "mesa"], .directory false),
    ([text "image"] ++ nixStore ++ [text "mesa", text "lib"], .directory false)]
  nodup := by decide +kernel

def packagedImage : FileSystem Unit := FileSystem.ofEntries packagedEntries (by decide +kernel)

def packagedHost : HelperHost := ⟨fun _ => true, none, some (text "/image")⟩

theorem linkDrivers_isSome : (linkDrivers (names (text "/image"))
    [(text "opengl-driver", text "mesa")] packagedImage).isSome = true := by decide +kernel

def packagedFinal : FileSystem Unit := Option.get _ linkDrivers_isSome

def packagedView : FileSystem Unit :=
  FileSystem.ofEntries
    ⟨containerEntries packagedFinal (sampleMounts packagedHost), by decide +kernel⟩
    (by decide +kernel)

theorem packagedView_sees :
    SeesMounts packagedFinal.get? (sampleMounts packagedHost) packagedView.get? :=
  seesMounts_of_entries (by decide +kernel)

theorem container_reaches_drivers_sample : ∃ exec,
    main ⟨text "bwrap", text "/bin"⟩ packagedHost (pair (text "7") ++ [text "--", text "true"]) =
        .ok exec ∧
      linkDrivers (names (text "/image")) [(text "opengl-driver", text "mesa")] packagedImage =
        some packagedFinal ∧
      SeesMounts packagedFinal.get? ((bindsOnly fun _ => []).mounts exec.argv.tail)
        packagedView.get? ∧
      ∀ links rest,
        packagedFinal.resolve (links + 1)
              (names (text "/image") ++ [text "run", text "opengl-driver"]) (text "lib" :: rest) =
            packagedFinal.resolve links (names (text "/image") ++ (nixStore ++ [text "mesa"]))
              (text "lib" :: rest) ∧
          packagedView.resolve (links + 1)
              (names (text "/var/pressure-vessel/gfx/main") ++ [text "run", text "opengl-driver"])
              (text "lib" :: rest) =
            packagedView.resolve links
              (names (text "/var/pressure-vessel/gfx/main") ++ (nixStore ++ [text "mesa"]))
              (text "lib" :: rest) := by
  have completes : linkDrivers (names (text "/image")) [(text "opengl-driver", text "mesa")]
      packagedImage = some packagedFinal := (Option.some_get linkDrivers_isSome).symm
  have single {holds : Text × Text → Prop} (one : holds (text "opengl-driver", text "mesa")) :
      ∀ pair ∈ [(text "opengl-driver", text "mesa")], holds pair := by
    intro pair member
    cases List.mem_singleton.mp member
    exact one
  obtain ⟨exec, executes, reaches⟩ := @container_reaches_drivers Unit
    ⟨text "bwrap", text "/bin"⟩ packagedHost (text "/image") packagedImage packagedFinal _
    (single (by decide)) (List.nodup_singleton _)
    (FileSystem.isDirectory_iff.mp (by decide +kernel)) (by decide +kernel)
    (single (Option.isNone_iff_eq_none.mp (by decide +kernel)))
    (single (FileSystem.isDirectory_iff.mp (by decide +kernel))) completes rfl (by decide)
    (fun _ _ => rfl) (text "7") [] [text "--", text "true"] plain_sample
  have sees : SeesMounts packagedFinal.get? ((bindsOnly fun _ => []).mounts exec.argv.tail)
      packagedView.get? := sampleMounts_eq executes ▸ packagedView_sees
  refine ⟨exec, executes, completes, sees, fun links rest => ?_⟩
  obtain ⟨image, inContainer⟩ := reaches (text "opengl-driver", text "mesa")
    (List.mem_singleton_self _) (text "lib") ⟨.directory false, rfl⟩ (by decide) links rest
  exact ⟨image, inContainer (bindsOnly fun _ => []) (by decide) _ packagedView
    (fun _ _ _ _ => id) sees _ List.mem_cons_self⟩

end X86OnArm.Applications
