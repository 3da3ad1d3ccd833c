import X86OnArm.Runtime.SoftwareGate

/-! # Vulkan manifests and the transport

A mode of `graphics` fixes which manifests may be listed on either side (`OfMode`), and
the directories fix which are there. `manifestsIn` lists what is eligible in a directory,
in order; the native side is one such list, of the first of its directories that has one
to list, narrowed to Asahi's on a native launch. `TransportMatched` says so without the
patterns.
-/

namespace X86OnArm.Runtime

open Foundation

/-- A manifest of a driver. -/
def IcdManifest (driver name : Text) : Prop :=
  ∃ version, name = driver ++ text "_icd." ++ version ++ text ".json"

/-- A manifest of the Asahi driver, as a native launch looks for it. -/
def AsahiManifest (name : Text) : Prop :=
  ∃ version, name = text "asahi_icd" ++ version ++ text ".json"

section Purpose

variable (host : Host) (settings : Settings) (mode : GpuMode)

/-- A driver in the set has a native context, and the manifest is its. -/
def OfPresentDriver (name : Text) : Prop :=
  ∃ driver ∈ host.drivers, ∃ icd, (driver, icd) ∈ knownDrivers ∧ IcdManifest icd name

/-- The manifests a mode can use. -/
def OfMode (name : Text) : Prop :=
  match mode with
  | .venus => IcdManifest (text "virtio") name
  | .software => IcdManifest (text "lvp") name
  | .drm =>
      OfPresentDriver host name ∨
        ((∀ driver ∈ host.drivers, ∀ icd, (driver, icd) ∉ knownDrivers) ∧
          ∃ stem, name = stem ++ text ".json")
  | .auto | .native | .other _ => ∃ stem, name = stem ++ text ".json"

/-- A file of a directory that the mode can use, and no Lavapipe manifest unless software
rendering is allowed. -/
structure Eligible (directory name : Text) : Prop where
  file : (name, true) ∈ host.listing directory
  ofMode : OfMode host mode name
  permitted : settings.allowSoftwareRendering = true ∨ ¬ text "lvp_icd." <+: name

/-- The first of the two native directories that has a manifest to list. -/
inductive FirstOffering : Text → Prop
  | nixos (name : Text)
      (eligible : Eligible host settings mode (PosixPath.pathText nixosVulkanDirectory) name) :
      FirstOffering (PosixPath.pathText nixosVulkanDirectory)
  | packaged (name : Text)
      (none : ∀ other, ¬ Eligible host settings mode (PosixPath.pathText nixosVulkanDirectory)
        other)
      (eligible : Eligible host settings mode
        (PosixPath.pathText settings.nativeVulkanDirectory) name) :
      FirstOffering (PosixPath.pathText settings.nativeVulkanDirectory)

/-- A native launch on Asahi that has Asahi's manifests takes these only. -/
def Narrowed (directory : Text) : Prop :=
  text "asahi" ∈ host.drivers ∧ mode = .native ∧
    ∃ name, Eligible host settings mode directory name ∧ AsahiManifest name

/-- The manifests match the transport. -/
structure TransportMatched (guest : List Text) (selection : List (Text × Text)) : Prop where
  venus : mode = .venus → ∀ name ∈ guest ++ selection.map Prod.snd, IcdManifest (text "virtio") name
  software : mode = .software → ∀ name ∈ guest ++ selection.map Prod.snd,
    IcdManifest (text "lvp") name
  drm : mode = .drm → (∃ driver ∈ host.drivers, driver ∈ knownDrivers.map Prod.fst) →
    ∀ name ∈ guest ++ selection.map Prod.snd, OfPresentDriver host name
  guestAscending : guest.Pairwise fun first second => Text.lt first second
  nativeAscending : (selection.map Prod.snd).Pairwise fun first second => Text.lt first second
  guestComplete : ∀ name, name ∈ guest ↔ Eligible host settings mode (guestDirectory settings) name
  offered : ∀ directory ∈ [PosixPath.pathText nixosVulkanDirectory,
      PosixPath.pathText settings.nativeVulkanDirectory],
    ∀ name, Eligible host settings mode directory name → selection ≠ []
  source : ∀ path ∈ selection, FirstOffering host settings mode path.1 ∧
    Eligible host settings mode path.1 path.2
  complete : ∀ directory, FirstOffering host settings mode directory →
    ¬ Narrowed host settings mode directory →
    ∀ name, Eligible host settings mode directory name → (directory, name) ∈ selection
  narrowed : ∀ directory, FirstOffering host settings mode directory →
    Narrowed host settings mode directory →
    ∀ name, (directory, name) ∈ selection ↔
      Eligible host settings mode directory name ∧ AsahiManifest name

end Purpose

section Patterns

/-- A pattern without a star matches itself. -/
theorem fnmatch_plain {pattern name : Text} (plain : ('*' : CodePoint) ∉ pattern) :
    fnmatch pattern name ↔ name = pattern := by
  induction pattern generalizing name with
  | nil =>
      unfold fnmatch
      exact List.isEmpty_iff
  | cons c pattern hypothesis =>
      obtain ⟨other, plain⟩ := List.ne_and_not_mem_of_not_mem_cons plain
      unfold fnmatch
      rw [if_neg other.symm]
      cases name with
      | nil => simp only [Bool.false_eq_true, List.nil_eq, reduceCtorEq]
      | cons d rest =>
          rw [Bool.and_eq_true, beq_iff_eq, hypothesis plain, List.cons.injEq, eq_comm]

/-- A pattern with one star matches what its two sides enclose. -/
theorem fnmatch_star {stem ending name : Text} (plainStem : ('*' : CodePoint) ∉ stem)
    (plainEnding : ('*' : CodePoint) ∉ ending) :
    fnmatch (stem ++ ('*' : CodePoint) :: ending) name ↔
      ∃ middle, name = stem ++ middle ++ ending := by
  induction stem generalizing name with
  | nil =>
      rw [List.nil_append]
      unfold fnmatch
      rw [if_pos rfl]
      simp only [List.any_eq_true, List.mem_tails, fnmatch_plain plainEnding, exists_eq_right,
        List.nil_append]
      constructor
      · rintro ⟨middle, same⟩
        exact ⟨middle, same.symm⟩
      · rintro ⟨middle, rfl⟩
        exact ⟨middle, rfl⟩
  | cons c stem hypothesis =>
      obtain ⟨other, plainStem⟩ := List.ne_and_not_mem_of_not_mem_cons plainStem
      rw [List.cons_append]
      unfold fnmatch
      rw [if_neg other.symm]
      cases name with
      | nil => simp only [Bool.false_eq_true, List.cons_append, List.nil_eq, reduceCtorEq,
          exists_false]
      | cons d rest =>
          rw [Bool.and_eq_true, beq_iff_eq, hypothesis plainStem]
          simp only [List.cons_append, List.cons.injEq, exists_and_left, eq_comm]

/-- The pattern of a driver's manifests. -/
theorem fnmatch_icd {driver name : Text} (plain : ('*' : CodePoint) ∉ driver) :
    fnmatch (driver ++ text "_icd.*.json") name ↔ IcdManifest driver name := by
  have split : driver ++ text "_icd.*.json" =
      (driver ++ text "_icd.") ++ ('*' : CodePoint) :: text ".json" := by
    rw [List.append_assoc]
    rfl
  have plain' : ('*' : CodePoint) ∉ driver ++ text "_icd." := by
    rw [List.mem_append, not_or]
    exact ⟨plain, by decide⟩
  rw [split, fnmatch_star plain' (by decide)]
  rfl

theorem fnmatch_json {name : Text} :
    fnmatch (text "*.json") name ↔ ∃ stem, name = stem ++ text ".json" :=
  @fnmatch_star [] (text ".json") name (by decide) (by decide)

theorem fnmatch_asahi {name : Text} :
    fnmatch (text "asahi_icd*.json") name ↔ AsahiManifest name :=
  @fnmatch_star (text "asahi_icd") (text ".json") name (by decide) (by decide)

theorem lookup_of_mem_knownDrivers {driver icd : Text} (known : (driver, icd) ∈ knownDrivers) :
    knownDrivers.lookup driver = some icd := by
  have every : ∀ entry ∈ knownDrivers, knownDrivers.lookup entry.1 = some entry.2 := by
    decide +kernel
  exact every _ known

theorem plain_of_mem_knownDrivers {driver icd : Text} (known : (driver, icd) ∈ knownDrivers) :
    ('*' : CodePoint) ∉ icd := by
  have every : ∀ entry ∈ knownDrivers, ('*' : CodePoint) ∉ entry.2 := by decide +kernel
  exact every _ known

/-- The patterns of the present drivers. -/
theorem mem_map_present {drivers : List Text} {glob : Text} :
    glob ∈ (sortedSet ((knownDrivers.map Prod.fst).filter fun driver => driver ∈ drivers)).map
        (fun driver => (knownDrivers.lookup driver).getD [] ++ text "_icd.*.json") ↔
      ∃ driver ∈ drivers, ∃ icd, (driver, icd) ∈ knownDrivers ∧
        icd ++ text "_icd.*.json" = glob := by
  simp only [List.mem_map, mem_sortedSet, List.mem_filter, decide_eq_true_eq]
  constructor
  · rintro ⟨driver, ⟨⟨⟨_, icd⟩, known, rfl⟩, loaded⟩, rfl⟩
    rw [lookup_of_mem_knownDrivers known]
    exact ⟨_, loaded, icd, known, rfl⟩
  · rintro ⟨driver, loaded, icd, known, rfl⟩
    refine ⟨driver, ⟨⟨_, known, rfl⟩, loaded⟩, ?_⟩
    rw [lookup_of_mem_knownDrivers known]
    rfl

/-- The patterns of a mode match the manifests it can use. -/
theorem matched_iff {host : Host} {mode : GpuMode} {name : Text} :
    (∃ glob ∈ patterns mode host.drivers, fnmatch glob name) ↔ OfMode host mode name := by
  have one (glob : Text) : (∃ other ∈ [glob], fnmatch other name) ↔ fnmatch glob name := by
    simp only [List.mem_singleton, exists_eq_left]
  cases mode with
  | venus => exact (one _).trans (@fnmatch_icd (text "virtio") name (by decide))
  | software => exact (one _).trans (@fnmatch_icd (text "lvp") name (by decide))
  | auto => exact (one _).trans fnmatch_json
  | native => exact (one _).trans fnmatch_json
  | other label => exact (one _).trans fnmatch_json
  | drm =>
      unfold patterns OfMode
      simp only
      split
      · -- No driver is known, so no manifest is one of a present driver.
        rename_i empty
        have absent : ∀ driver ∈ host.drivers, ∀ icd, (driver, icd) ∉ knownDrivers :=
          fun driver loaded icd known => List.eq_nil_iff_forall_not_mem.mp empty _
            (mem_map_present.mpr ⟨driver, loaded, icd, known, rfl⟩)
        rw [one, fnmatch_json]
        constructor
        · exact fun json => .inr ⟨absent, json⟩
        · rintro (⟨driver, loaded, icd, known, -⟩ | ⟨-, json⟩)
          · exact absurd known (absent driver loaded icd)
          · exact json
      · rename_i present
        simp only [mem_map_present]
        constructor
        · rintro ⟨_, ⟨driver, loaded, icd, known, rfl⟩, matched⟩
          exact .inl ⟨driver, loaded, icd, known,
            (fnmatch_icd (plain_of_mem_knownDrivers known)).mp matched⟩
        · rintro (⟨driver, loaded, icd, known, named⟩ | ⟨absent, -⟩)
          · exact ⟨_, ⟨driver, loaded, icd, known, rfl⟩,
              (fnmatch_icd (plain_of_mem_knownDrivers known)).mpr named⟩
          · obtain ⟨glob, member⟩ := List.exists_mem_of_ne_nil _ present
            obtain ⟨driver, loaded, icd, known, -⟩ := mem_map_present.mp member
            exact absurd known (absent driver loaded icd)

end Patterns

section Directories

variable {host : Host} {settings : Settings} {mode : GpuMode}

/-- `manifests_in` lists what is eligible. -/
theorem mem_manifestsIn_iff {directory name : Text} :
    name ∈ manifestsIn host settings.allowSoftwareRendering (patterns mode host.drivers)
        directory ↔ Eligible host settings mode directory name := by
  rw [mem_manifestsIn, matched_iff]
  unfold isSoftware
  rw [List.isPrefixOf_iff_prefix]
  constructor
  · rintro ⟨ofMode, file, permitted⟩
    exact ⟨file, ofMode, permitted⟩
  · rintro ⟨file, ofMode, permitted⟩
    exact ⟨ofMode, file, permitted⟩

theorem mem_nativeFound_iff {directory : Text} {path : Text × Text} :
    path ∈ nativeFound host settings mode directory ↔
      path.1 = directory ∧ Eligible host settings mode directory path.2 := by
  unfold nativeFound
  rw [List.mem_map]
  constructor
  · rintro ⟨name, listed, rfl⟩
    exact ⟨rfl, mem_manifestsIn_iff.mp listed⟩
  · rintro ⟨rfl, eligible⟩
    exact ⟨path.2, mem_manifestsIn_iff.mpr eligible, rfl⟩

theorem nativeFound_eq_nil {directory : Text} :
    nativeFound host settings mode directory = [] ↔
      ∀ name, ¬ Eligible host settings mode directory name := by
  rw [List.eq_nil_iff_forall_not_mem]
  simp only [mem_nativeFound_iff, not_and]
  constructor
  · exact fun absent name eligible => absent (directory, name) rfl eligible
  · exact fun absent path _ => absent path.2

theorem nativeFound_ascending (directory : Text) :
    ((nativeFound host settings mode directory).map Prod.snd).Pairwise
      fun first second => Text.lt first second := by
  unfold nativeFound
  rw [List.map_map]
  have same : Prod.snd ∘ (fun name : Text => (directory, name)) = id := rfl
  rw [same, List.map_id]
  exact sortedSet_ascending _

/-- There is one first directory at most. -/
theorem FirstOffering.unique {first second : Text}
    (offering : FirstOffering host settings mode first)
    (offering' : FirstOffering host settings mode second) : first = second := by
  cases offering with
  | nixos name eligible =>
      cases offering' with
      | nixos => rfl
      | packaged _ none => exact absurd eligible (none name)
  | packaged _ none =>
      cases offering' with
      | nixos name eligible => exact absurd eligible (none name)
      | packaged => rfl

theorem FirstOffering.eligible {directory : Text}
    (offering : FirstOffering host settings mode directory) :
    ∃ name, Eligible host settings mode directory name := by
  cases offering with
  | nixos name eligible => exact ⟨name, eligible⟩
  | packaged name _ eligible => exact ⟨name, eligible⟩

theorem exists_firstOffering {directory name : Text}
    (native : directory ∈ [PosixPath.pathText nixosVulkanDirectory,
      PosixPath.pathText settings.nativeVulkanDirectory])
    (eligible : Eligible host settings mode directory name) :
    ∃ first, FirstOffering host settings mode first := by
  by_cases nixos : ∃ other,
      Eligible host settings mode (PosixPath.pathText nixosVulkanDirectory) other
  · obtain ⟨other, found⟩ := nixos
    exact ⟨_, .nixos other found⟩
  · rw [not_exists] at nixos
    rcases List.mem_cons.mp native with rfl | packaged
    · exact absurd eligible (nixos name)
    · rw [List.mem_singleton.mp packaged] at eligible
      exact ⟨_, .packaged name nixos eligible⟩

/-- The manifests are those of the first directory that offers one. -/
theorem nativeFound_firstOffering {directory : Text}
    (offering : FirstOffering host settings mode directory) :
    (if nativeFound host settings mode (PosixPath.pathText nixosVulkanDirectory) = [] then
        nativeFound host settings mode (PosixPath.pathText settings.nativeVulkanDirectory)
      else nativeFound host settings mode (PosixPath.pathText nixosVulkanDirectory)) =
      nativeFound host settings mode directory := by
  cases offering with
  | nixos name eligible =>
      rw [if_neg]
      exact fun empty => nativeFound_eq_nil.mp empty name eligible
  | packaged name none eligible => rw [if_pos (nativeFound_eq_nil.mpr none)]

theorem narrowed_iff {directory : Text} :
    (text "asahi" ∈ host.drivers ∧ mode = .native ∧
        (nativeFound host settings mode directory).filter
          (fun path => fnmatch (text "asahi_icd*.json") path.2) ≠ []) ↔
      Narrowed host settings mode directory := by
  unfold Narrowed
  simp only [ne_eq, List.filter_eq_nil_iff, not_forall, not_not, mem_nativeFound_iff,
    fnmatch_asahi]
  constructor
  · rintro ⟨loaded, native, path, ⟨_, eligible⟩, asahi⟩
    exact ⟨loaded, native, path.2, eligible, asahi⟩
  · rintro ⟨loaded, native, name, eligible, asahi⟩
    exact ⟨loaded, native, (directory, name), ⟨rfl, eligible⟩, asahi⟩

theorem mem_nativeSelection {directory : Text}
    (offering : FirstOffering host settings mode directory) {path : Text × Text} :
    path ∈ nativeSelection host settings mode ↔
      (path.1 = directory ∧ Eligible host settings mode directory path.2) ∧
        (Narrowed host settings mode directory → AsahiManifest path.2) := by
  unfold nativeSelection
  simp only [nativeFound_firstOffering offering]
  split
  · rename_i asahi
    rw [narrowed_iff] at asahi
    simp only [List.mem_filter, mem_nativeFound_iff, fnmatch_asahi, asahi, forall_const]
  · rename_i wide
    rw [narrowed_iff] at wide
    simp only [mem_nativeFound_iff, wide, false_implies, and_true]

/-- Without a directory that offers a manifest, the native side has none. -/
theorem nativeSelection_eq_nil
    (none : ∀ directory, ¬ FirstOffering host settings mode directory) :
    nativeSelection host settings mode = [] := by
  have nixos : nativeFound host settings mode (PosixPath.pathText nixosVulkanDirectory) = [] :=
    nativeFound_eq_nil.mpr fun name eligible => none _ (.nixos name eligible)
  have packaged :
      nativeFound host settings mode (PosixPath.pathText settings.nativeVulkanDirectory) = [] :=
    nativeFound_eq_nil.mpr fun name eligible =>
      none _ (.packaged name (nativeFound_eq_nil.mp nixos) eligible)
  unfold nativeSelection
  simp only [nixos, packaged, if_pos, List.filter_nil, ne_eq, not_true_eq_false, and_false,
    if_false]

theorem nativeSelection_ascending :
    ((nativeSelection host settings mode).map Prod.snd).Pairwise
      fun first second => Text.lt first second := by
  by_cases offered : ∃ directory, FirstOffering host settings mode directory
  · obtain ⟨directory, offering⟩ := offered
    unfold nativeSelection
    simp only [nativeFound_firstOffering offering]
    split
    · exact (nativeFound_ascending directory).sublist (List.filter_sublist.map Prod.snd)
    · exact nativeFound_ascending directory
  · rw [nativeSelection_eq_nil (not_exists.mp offered)]
    exact .nil

/-- What the native side lists is eligible, and from the first directory that offers. -/
theorem source_of_mem_nativeSelection {path : Text × Text}
    (listed : path ∈ nativeSelection host settings mode) :
    FirstOffering host settings mode path.1 ∧ Eligible host settings mode path.1 path.2 := by
  by_cases offered : ∃ directory, FirstOffering host settings mode directory
  · obtain ⟨directory, offering⟩ := offered
    obtain ⟨⟨rfl, eligible⟩, -⟩ := (mem_nativeSelection offering).mp listed
    exact ⟨offering, eligible⟩
  · rw [nativeSelection_eq_nil (not_exists.mp offered)] at listed
    cases listed

theorem nativeSelection_ne_nil {directory : Text}
    (offering : FirstOffering host settings mode directory) :
    nativeSelection host settings mode ≠ [] := by
  by_cases narrowed : Narrowed host settings mode directory
  · obtain ⟨-, -, name, eligible, asahi⟩ := narrowed
    have listed : (directory, name) ∈ nativeSelection host settings mode :=
      (mem_nativeSelection offering).mpr ⟨⟨rfl, eligible⟩, fun _ => asahi⟩
    exact List.ne_nil_of_mem listed
  · obtain ⟨name, eligible⟩ := offering.eligible
    have listed : (directory, name) ∈ nativeSelection host settings mode :=
      (mem_nativeSelection offering).mpr ⟨⟨rfl, eligible⟩, fun asahi => absurd asahi narrowed⟩
    exact List.ne_nil_of_mem listed

/-- What either side lists is of the mode. -/
theorem ofMode_of_listed {name : Text}
    (listed : name ∈ guestManifests host settings mode ++
      (nativeSelection host settings mode).map Prod.snd) : OfMode host mode name := by
  rcases List.mem_append.mp listed with guest | native
  · exact (mem_manifestsIn_iff.mp guest).ofMode
  · obtain ⟨path, selected, rfl⟩ := List.mem_map.mp native
    exact (source_of_mem_nativeSelection selected).2.ofMode

theorem transportMatched (host : Host) (settings : Settings) (mode : GpuMode) :
    TransportMatched host settings mode (guestManifests host settings mode)
      (nativeSelection host settings mode) where
  venus := by
    rintro rfl name listed
    exact ofMode_of_listed listed
  software := by
    rintro rfl name listed
    exact ofMode_of_listed listed
  drm := by
    rintro rfl ⟨driver, loaded, known⟩ name listed
    obtain ⟨entry, member, rfl⟩ := List.mem_map.mp known
    exact (ofMode_of_listed listed).resolve_right fun ⟨absent, _⟩ =>
      absent entry.1 loaded entry.2 member
  guestAscending := sortedSet_ascending _
  nativeAscending := nativeSelection_ascending
  guestComplete _ := mem_manifestsIn_iff
  offered directory native name eligible := by
    obtain ⟨first, offering⟩ := exists_firstOffering native eligible
    exact nativeSelection_ne_nil offering
  source _ listed := source_of_mem_nativeSelection listed
  complete directory offering wide name eligible :=
    (mem_nativeSelection offering).mpr ⟨⟨rfl, eligible⟩, fun narrowed => absurd narrowed wide⟩
  narrowed directory offering narrowed name := by
    rw [mem_nativeSelection offering]
    constructor
    · rintro ⟨⟨-, eligible⟩, asahi⟩
      exact ⟨eligible, asahi narrowed⟩
    · rintro ⟨eligible, asahi⟩
      exact ⟨⟨rfl, eligible⟩, fun _ => asahi⟩

end Directories

/-- **Vulkan manifests match the transport.** The two lists that `graphics` joins are
matched to the mode it returns, whatever the drivers and the directories are. -/
theorem graphics_transportMatched (host : Host) (settings : Settings) (backend : Backend)
    (selected : Graphics) (returned : graphics host settings backend = .ok selected) :
    ∃ guest native,
      selected.guest = List.intercalate (text ":")
        (guest.map (text "/usr/share/x86-on-arm/vulkan/" ++ ·)) ∧
      selected.native = (if native = [] then Dict.empty else
        Dict.ofList [(text "VK_DRIVER_FILES", List.intercalate (text ":")
          (native.map fun path => PosixPath.child path.1 path.2))]) ∧
      TransportMatched host settings selected.mode guest native := by
  refine ⟨guestManifests host settings selected.mode,
    nativeSelection host settings selected.mode, ?_, ?_, transportMatched host settings _⟩
  · rw [graphics_eq, gpuMode_of_graphics returned] at returned
    exact (congrArg Graphics.guest (Except.ok.inj returned)).symm
  · rw [graphics_eq, gpuMode_of_graphics returned] at returned
    have native := (congrArg Graphics.native (Except.ok.inj returned)).symm
    simp only [List.map_eq_nil_iff] at native
    exact native

/-- A host with a known driver and one that muvm has no name for; NixOS's directory has
manifests of neither. -/
def hybridHost : Host :=
  { plainHost with
    drivers := [text "virtio_gpu", text "msm"]
    listing := fun directory =>
      if directory = text "/run/opengl-driver/share/vulkan/icd.d" then
        [(text "radeon_icd.aarch64.json", true), (text "freedreno_icd.d", false)]
      else if directory = text "/mesa" then
        [(text "lvp_icd.aarch64.json", true), (text "freedreno_icd.aarch64.json", true)]
      else [] }

theorem graphics_transportMatched_hybrid :
    ∃ selected, graphics hybridHost { plainSettings with gpuMode := .auto } .muvm = .ok selected ∧
      selected.native.get? (text "VK_DRIVER_FILES") =
        some (text "/mesa/freedreno_icd.aarch64.json") ∧
      ∃ guest native, TransportMatched hybridHost { plainSettings with gpuMode := .auto } .drm
        guest native := by
  refine ⟨_, rfl, by decide +kernel, ?_⟩
  obtain ⟨guest, native, -, -, matched⟩ := graphics_transportMatched hybridHost
    { plainSettings with gpuMode := .auto } .muvm _ rfl
  exact ⟨guest, native, matched⟩

end X86OnArm.Runtime
