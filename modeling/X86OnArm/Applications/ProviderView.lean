import X86OnArm.Applications.PressureVessel
import X86OnArm.Foundation.RelocatedWalk

/-! # The image in a container

A container sees the image's `nix` and `run` below other directories than the emulator
does. What is bound there is the host's tree, so a walk over the image's links that stays
in those two is the same in every provider (`provider_keeps_walks`).
-/

namespace X86OnArm.Applications

open Foundation PosixPath

variable {γ : Type} {build : HelperBuild} {host : HelperHost} {root : Text}

/-- What a container sees: below a bind the host's tree below its source. -/
def SeesMounts (tree : PathTree γ) (mounts : List (Mount (Option Text))) (view : PathTree γ) :
    Prop :=
  ∀ path source rest, Mount.resolve mounts path = some (some source, rest) →
    view path = tree (names source ++ rest)

/-- The image's root, and what of it a provider has. -/
def inProvider (below : Path) : Bool := below.head?.all fun name => subdirs.contains name

theorem names_below (directory name : Text) :
    names (below directory name) = names directory ++ names name := by
  unfold names below components
  rw [List.append_assoc]
  change (List.splitOn slash (directory ++ slash :: name)).filter _ = _
  rw [List.splitOn_append_cons_self, List.filter_append]

theorem names_subdir {subdir : Text} (listed : subdir ∈ subdirs) : names subdir = [subdir] := by
  simp only [subdirs, List.mem_cons, List.not_mem_nil, or_false] at listed
  rcases listed with rfl | rfl <;> decide

/-- The words after the helper's name that bubblewrap gets. -/
theorem main_mounts (build : HelperBuild) (rootfs : host.fexRootfs = some root)
    (absolute : isAbsolute root = true)
    (found : ∀ subdir ∈ subdirs, host.directory (below root subdir) = true)
    (descriptor : Text) (descriptors payload : List Text) (plain : ¬ StartsWithPair payload) :
    ∃ exec, main build host ((descriptor :: descriptors).flatMap pair ++ payload) = .ok exec ∧
      ∀ bubblewrap : Bubblewrap, bubblewrap.mounts payload = [] →
        bubblewrap.mounts exec.argv.tail = (descriptor :: descriptors).flatMap bubblewrap.packed ++
          (helperBinds host root).map mountOf := by
  obtain ⟨more, remaining, scanned, split, -⟩ := scanPairs_spec payload
  have none_more : more = [] := by
    cases more with
    | nil => rfl
    | cons first more =>
        rw [List.flatMap_cons, List.append_assoc] at split
        exact absurd ⟨first, _, split⟩ plain
  subst none_more
  rw [List.flatMap_nil, List.nil_append] at split
  subst split
  refine ⟨_, main_container rootfs absolute found descriptor descriptors payload, ?_⟩
  intro bubblewrap silent
  rw [scanned, List.flatMap_nil, List.append_nil, List.tail_cons, List.append_assoc,
    bubblewrap.mounts_pairs, bubblewrap.mounts_binds, silent, List.append_nil]

section View

variable {tree view : PathTree γ} {earlier : List (Mount (Option Text))}

/-- Below a provider a container sees the image. -/
theorem view_provider
    (sees : SeesMounts tree (earlier ++ (helperBinds host root).map mountOf) view)
    {provider subdir : Text} (listed : provider ∈ providers) (within : subdir ∈ subdirs)
    (rest : Path) :
    view (names provider ++ subdir :: rest) = tree (names root ++ subdir :: rest) := by
  have member : (below root subdir, below provider subdir) ∈ helperBinds host root :=
    mem_helperBinds_provider listed within
  have lies := resolve_helperBinds member earlier rest
  have seen := sees _ _ _ lies
  rw [names_below, names_below, names_subdir within] at seen
  simpa only [List.append_assoc, List.singleton_append] using seen

theorem shows_provider
    (sees : SeesMounts tree (earlier ++ (helperBinds host root).map mountOf) view)
    {provider : Text} (listed : provider ∈ providers)
    (isDirectory : tree.isDirectory (names root) = true)
    (point : view.isDirectory (names provider) = true) :
    (tree.part (names root) inProvider).Shows (names root) view (names provider) := by
  refine PathTree.shows_part point ?_ ?_
  · intro below proper kept
    cases below with
    | nil => exact absurd rfl proper
    | cons subdir rest =>
        exact view_provider sees listed (List.contains_iff_mem.mp kept) rest
  · intro entry stored
    obtain ⟨writable, directory⟩ := PathTree.isDirectory_iff.mp isDirectory
    exact ⟨writable, Option.some.inj (stored.symm.trans directory)⟩

end View

/-- **Both providers keep the image's walks.** Whatever the leading pairs mount, a walk of
the kernel that starts in the image, takes no absolute link and stays in the image's root,
`nix` and `run` ends at the same place below each provider in the container. -/
theorem provider_keeps_walks (rootfs : host.fexRootfs = some root)
    (absolute : isAbsolute root = true) (proper : names root ≠ [])
    (found : ∀ subdir ∈ subdirs, host.directory (below root subdir) = true)
    (descriptor : Text) (descriptors payload : List Text) (plain : ¬ StartsWithPair payload) :
    ∃ exec, main build host ((descriptor :: descriptors).flatMap pair ++ payload) = .ok exec ∧
      ∀ bubblewrap : Bubblewrap, bubblewrap.mounts payload = [] →
        ∀ (tree view : PathTree γ), tree.isDirectory (names root) = true →
          SeesMounts tree (bubblewrap.mounts exec.argv.tail) view →
          ∀ provider ∈ providers, view.isDirectory (names provider) = true →
            ∀ links start components stop,
              (tree.part (names root) inProvider).Leads kernelReading links
                (names root ++ start) components (names root ++ stop) →
              tree.resolveWith kernelReading links (names root ++ start) components =
                  some (names root ++ stop) ∧
                view.resolveWith kernelReading links (names provider ++ start) components =
                  some (names provider ++ stop) := by
  obtain ⟨exec, executes, mounts⟩ := main_mounts build rootfs absolute found descriptor
    descriptors payload plain
  refine ⟨exec, executes, ?_⟩
  intro bubblewrap silent tree view isDirectory sees provider listed point links start components
    stop leads
  rw [mounts bubblewrap silent] at sees
  refine ⟨(leads.mono fun path entry stored => (PathTree.part_eq_some stored).2.2).resolves, ?_⟩
  exact (leads.relocate (shows_provider sees listed isDirectory point) proper).resolves

/-- Two places show the same where each has what the other has. -/
theorem get?_same {first second : FileSystem γ} {here there : Path}
    (forth : ∀ entry ∈ first.entries.entries, here.isPrefixOf entry.1 = true →
      second.get? (there ++ entry.1.drop here.length) = some entry.2)
    (back : ∀ entry ∈ second.entries.entries, there.isPrefixOf entry.1 = true →
      first.get? (here ++ entry.1.drop there.length) = some entry.2) (rest : Path) :
    first.get? (here ++ rest) = second.get? (there ++ rest) := by
  apply Option.ext
  intro entry
  constructor
  · intro stored
    have shown := forth _ (Dict.mem_entries.mpr stored)
      (List.isPrefixOf_iff_prefix.mpr (List.prefix_append _ _))
    rwa [List.drop_left] at shown
  · intro stored
    have shown := back _ (Dict.mem_entries.mpr stored)
      (List.isPrefixOf_iff_prefix.mpr (List.prefix_append _ _))
    rwa [List.drop_left] at shown

/-- Where mounts do not hide one another, it is enough to compare entries. -/
theorem seesMounts_of_entries {tree view : FileSystem γ} {mounts : List (Mount (Option Text))}
    (same : ∀ mount ∈ mounts, ∀ source ∈ mount.source,
      (∀ entry ∈ view.entries.entries, mount.destination.isPrefixOf entry.1 = true →
        tree.get? (names source ++ entry.1.drop mount.destination.length) = some entry.2) ∧
      ∀ entry ∈ tree.entries.entries, (names source).isPrefixOf entry.1 = true →
        view.get? (mount.destination ++ entry.1.drop (names source).length) = some entry.2) :
    SeesMounts tree.get? mounts view.get? := by
  intro path source rest lies
  obtain ⟨mount, covers, split⟩ := Option.map_eq_some_iff.mp lies
  obtain ⟨member, above⟩ := List.mem_filter.mp (List.mem_of_getLast? covers)
  obtain ⟨here, rfl⟩ := Prod.mk.inj split
  obtain ⟨forth, back⟩ := same mount member source here
  obtain ⟨below, rfl⟩ := List.isPrefixOf_iff_prefix.mp above
  rw [List.drop_left]
  exact get?_same forth back below

/-- The entries of a container that has these mounts and the directories above them. -/
def containerEntries (tree : FileSystem Unit) (mounts : List (Mount (Option Text))) :
    List (Path × Entry Unit) :=
  ((destinations.flatMap fun destination => destination.dropLast.inits).dedup.map fun path =>
    (path, .directory false)) ++
  mounts.flatMap fun mount => tree.entries.entries.filterMap fun entry =>
    mount.source.bind fun source =>
      if (names source).isPrefixOf entry.1 then
        some (mount.destination ++ entry.1.drop (names source).length, entry.2)
      else none

/-- A container with one pair before the command. -/
def sampleMounts (host : HelperHost) : List (Mount (Option Text)) :=
  match main ⟨text "bwrap", text "/bin"⟩ host (pair (text "7") ++ [text "--", text "true"]) with
  | .ok exec => (bindsOnly fun _ => []).mounts exec.argv.tail
  | .error _ => []

theorem sampleMounts_eq {exec : HelperExec} (executes : main ⟨text "bwrap", text "/bin"⟩ host
    (pair (text "7") ++ [text "--", text "true"]) = .ok exec) :
    (bindsOnly fun _ => []).mounts exec.argv.tail = sampleMounts host := by
  unfold sampleMounts
  rw [executes]

theorem plain_sample : ¬ StartsWithPair [text "--", text "true"] := by
  rintro ⟨descriptor, rest, same⟩
  exact absurd (List.cons.inj same).1 (by decide)

/-- A host with an image in its store. -/
def imageHost : HelperHost := ⟨fun _ => true, none, some (text "/nix/store/image")⟩

/-- An image with a driver's link into its store. -/
def driverEntries : Dict Path (Entry Unit) where
  entries := [
    ([], .directory true),
    ([text "nix"], .directory true),
    ([text "nix", text "store"], .directory true),
    ([text "nix", text "store", text "image"], .directory false),
    ([text "nix", text "store", text "image", text "run"], .directory false),
    ([text "nix", text "store", text "image", text "run", text "lib"],
      .link (text "../nix/mesa")),
    ([text "nix", text "store", text "image", text "nix"], .directory false),
    ([text "nix", text "store", text "image", text "nix", text "mesa"], .directory false)]
  nodup := by decide +kernel

def driverTree : FileSystem Unit := FileSystem.ofEntries driverEntries (by decide +kernel)

def driverView : FileSystem Unit :=
  FileSystem.ofEntries ⟨containerEntries driverTree (sampleMounts imageHost), by decide +kernel⟩
    (by decide +kernel)

theorem driverView_sees : SeesMounts driverTree.get? (sampleMounts imageHost) driverView.get? :=
  seesMounts_of_entries (by decide +kernel)

/-- The walk over that link. -/
theorem driverTree_leads : (PathTree.part driverTree.get? (names (text "/nix/store/image"))
    inProvider).Leads kernelReading 1 (names (text "/nix/store/image") ++ [])
      [text "run", text "lib"] (names (text "/nix/store/image") ++ [text "nix", text "mesa"]) :=
  PathTree.leads_of_resolves (by decide +kernel)

theorem provider_keeps_walks_sample : ∃ exec,
    main ⟨text "bwrap", text "/bin"⟩ imageHost (pair (text "7") ++ [text "--", text "true"]) =
        .ok exec ∧
      SeesMounts driverTree.get? ((bindsOnly fun _ => []).mounts exec.argv.tail) driverView.get? ∧
      driverView.resolveWith kernelReading 1 (names (text "/var/pressure-vessel/gfx/main") ++ [])
          [text "run", text "lib"] =
        some (names (text "/var/pressure-vessel/gfx/main") ++ [text "nix", text "mesa"]) := by
  obtain ⟨exec, executes, keeps⟩ := @provider_keeps_walks Unit ⟨text "bwrap", text "/bin"⟩
    imageHost (text "/nix/store/image") rfl (by decide) (by decide) (fun _ _ => rfl) (text "7") []
    [text "--", text "true"] plain_sample
  have sees : SeesMounts driverTree.get? ((bindsOnly fun _ => []).mounts exec.argv.tail)
      driverView.get? := sampleMounts_eq executes ▸ driverView_sees
  refine ⟨exec, executes, sees, ?_⟩
  exact (keeps (bindsOnly fun _ => []) (by decide) _ _ (by decide +kernel) sees _
    List.mem_cons_self (by decide +kernel) _ _ _ _ driverTree_leads).2

end X86OnArm.Applications
