import X86OnArm.Foundation.TextOrder
import X86OnArm.Runtime.EnvironmentDomains

/-! # The gate of software rendering

A Lavapipe manifest on either side, or a Mesa variable that selects llvmpipe, hands
an application to the CPU. Software rendering has two switches, the gate
`allowSoftwareRendering` and the mode `software`. A mode that names its drivers
keeps to both; a mode that takes the manifest of every driver leaves Lavapipe to
the filter of `manifests_in`, which asks for the gate alone. So the switches hold
unless such a mode finds a Lavapipe manifest (`softwareGated_iff`).
-/

namespace X86OnArm.Runtime

open Foundation

/-- A manifest of Mesa's CPU driver. -/
def isSoftware (name : Text) : Bool := (text "lvp_icd.").isPrefixOf name

/-- The Mesa variables that select llvmpipe. -/
def softwareOverrides : List (Text × Text) :=
  [(text "MESA_LOADER_DRIVER_OVERRIDE", text "llvmpipe"), (text "LIBGL_ALWAYS_SOFTWARE", text "1"),
    (text "GALLIUM_DRIVER", text "llvmpipe")]

section Lists

variable (host : Host) (settings : Settings) (mode : GpuMode)

def guestDirectory : Text := PosixPath.child settings.rootfs (text "usr/share/x86-on-arm/vulkan")

/-- The guest's manifests, as `graphics` lists them. -/
def guestManifests : List Text :=
  manifestsIn host settings.allowSoftwareRendering (patterns mode host.drivers)
    (guestDirectory settings)

/-- The native manifests in a directory. -/
def nativeFound (directory : Text) : List (Text × Text) :=
  (manifestsIn host settings.allowSoftwareRendering (patterns mode host.drivers) directory).map
    fun name => (directory, name)

/-- The native manifests, each with its directory, as `graphics` selects them. -/
def nativeSelection : List (Text × Text) :=
  let nixos := nativeFound host settings mode (PosixPath.pathText nixosVulkanDirectory)
  let paths := if nixos = [] then
      nativeFound host settings mode (PosixPath.pathText settings.nativeVulkanDirectory)
    else nixos
  let asahi := paths.filter fun path => fnmatch (text "asahi_icd*.json") path.2
  if text "asahi" ∈ host.drivers ∧ mode = .native ∧ asahi ≠ [] then asahi else paths

end Lists

/-- What `graphics` returns are the two lists, joined. -/
theorem graphics_eq (host : Host) (settings : Settings) (backend : Backend) :
    graphics host settings backend = (gpuMode host settings backend).map fun mode =>
      { mode
        guest := List.intercalate (text ":")
          ((guestManifests host settings mode).map (text "/usr/share/x86-on-arm/vulkan/" ++ ·))
        native :=
          let paths := (nativeSelection host settings mode).map fun path =>
            PosixPath.child path.1 path.2
          if paths = [] then Dict.empty
          else Dict.ofList [(text "VK_DRIVER_FILES", List.intercalate (text ":") paths)] } := by
  unfold graphics
  cases gpuMode host settings backend with
  | error failure => rfl
  | ok mode => rfl

/-- The application can reach Mesa's CPU drivers: through a manifest of either side, or
through a Mesa variable that the configuration's own environment does not set. -/
inductive ExposesSoftware (host : Host) (settings : Settings) (mode : GpuMode)
    (guest : Dict Text Text) : Prop
  | guestManifest (name : Text) (listed : name ∈ guestManifests host settings mode)
      (software : isSoftware name)
  | nativeManifest (path : Text × Text) (listed : path ∈ nativeSelection host settings mode)
      (software : isSoftware path.2)
  | mesaOverride (entry : Text × Text) (software : entry ∈ softwareOverrides)
      (unconfigured : entry.1 ∉ settings.environment)
      (assigned : guest.get? entry.1 = some entry.2)

/-- Software rendering is reached with both of its switches only. -/
def SoftwareGated (host : Host) (settings : Settings) (source : Dict Text Text)
    (backend : Backend) : Prop :=
  ∀ selected guest, graphics host settings backend = .ok selected →
    guestEnvironment host settings source backend = .ok guest →
    ExposesSoftware host settings selected.mode guest →
    settings.allowSoftwareRendering = true ∧ settings.gpuMode = .software

/-- The launch takes the manifests of every driver: on the host's own graphics stack, or
in DRM mode without a driver that has a native context. -/
def TakesEvery (host : Host) (settings : Settings) (backend : Backend) : Prop :=
  backend = .fex ∨ settings.gpuMode = .native ∨ (∃ name, settings.gpuMode = .other name) ∨
    (settings.gpuMode = .drm ∧ ∀ driver ∈ knownDrivers.map Prod.fst, driver ∉ host.drivers)

/-- A directory holds a manifest of a kind. -/
def offers (host : Host) (directory : Text) (kind : Text → Bool) : Bool :=
  (host.listing directory).any fun entry =>
    entry.2 && fnmatch (text "*.json") entry.1 && kind entry.1

/-- The directory of native manifests: NixOS's when it holds any, else the packaged one. -/
def nativeDirectory (host : Host) (settings : Settings) : Text :=
  if offers host (PosixPath.pathText nixosVulkanDirectory) (fun _ => true) then
    PosixPath.pathText nixosVulkanDirectory
  else PosixPath.pathText settings.nativeVulkanDirectory

/-- The native manifests are narrowed to the Asahi ones. -/
def NarrowedToAsahi (host : Host) (settings : Settings) (backend : Backend) : Prop :=
  text "asahi" ∈ host.drivers ∧ (backend = .fex ∨ settings.gpuMode = .native) ∧
    offers host (nativeDirectory host settings) (fnmatch (text "asahi_icd*.json"))

/-- The gate is open without the mode, and a launch that takes every manifest finds
Lavapipe's. -/
structure Ungated (host : Host) (settings : Settings) (backend : Backend) : Prop where
  allowed : settings.allowSoftwareRendering = true
  unselected : settings.gpuMode ≠ .software
  everything : TakesEvery host settings backend
  found : offers host (guestDirectory settings) isSoftware ∨
    (offers host (nativeDirectory host settings) isSoftware ∧
      ¬ NarrowedToAsahi host settings backend)

section Manifests

variable {host : Host} {settings : Settings} {backend : Backend}

theorem mem_manifestsIn {allow : Bool} {globs : List Text} {directory name : Text} :
    name ∈ manifestsIn host allow globs directory ↔
      (∃ glob ∈ globs, fnmatch glob name) ∧ (name, true) ∈ host.listing directory ∧
        (allow ∨ ¬ isSoftware name) := by
  unfold manifestsIn isSoftware
  simp only [mem_sortedSet, List.mem_flatMap, List.mem_map, List.mem_filter, Bool.and_eq_true,
    Bool.or_eq_true, Bool.not_eq_true', Bool.not_eq_true]
  constructor
  · rintro ⟨glob, chosen, ⟨_, _⟩, ⟨listed, ⟨matched, rfl⟩, kept⟩, rfl⟩
    exact ⟨⟨glob, chosen, matched⟩, listed, kept⟩
  · rintro ⟨⟨glob, chosen, matched⟩, listed, kept⟩
    exact ⟨glob, chosen, (name, true), ⟨listed, ⟨matched, rfl⟩, kept⟩, rfl⟩

theorem offers_iff {directory : Text} {kind : Text → Bool} :
    offers host directory kind ↔
      ∃ name, (name, true) ∈ host.listing directory ∧ fnmatch (text "*.json") name ∧
        kind name := by
  unfold offers
  simp only [List.any_eq_true, Bool.and_eq_true, Prod.exists]
  constructor
  · rintro ⟨name, _, listed, ⟨rfl, matched⟩, wanted⟩
    exact ⟨name, listed, matched, wanted⟩
  · rintro ⟨name, listed, matched, wanted⟩
    exact ⟨name, true, listed, ⟨rfl, matched⟩, wanted⟩

/-- A pattern that starts with a plain character fixes the first character. -/
theorem head?_of_fnmatch {c : CodePoint} {pattern name : Text} (plain : c ≠ ('*' : CodePoint))
    (matched : fnmatch (c :: pattern) name) : name.head? = some c := by
  unfold fnmatch at matched
  rw [if_neg plain] at matched
  cases name with
  | nil => cases matched
  | cons d rest =>
      rw [Bool.and_eq_true, beq_iff_eq] at matched
      rw [matched.1, List.head?_cons]

theorem head?_of_isSoftware {name : Text} (software : isSoftware name) :
    name.head? = some ('l' : CodePoint) := by
  obtain ⟨rest, rfl⟩ := List.isPrefixOf_iff_prefix.mp software
  rfl

/-- No Lavapipe manifest matches a pattern that starts with another plain character. -/
theorem not_fnmatch_of_isSoftware (c : CodePoint) {pattern name : Text}
    (software : isSoftware name) (plain : c ≠ ('*' : CodePoint))
    (other : c ≠ ('l' : CodePoint)) : ¬ fnmatch (c :: pattern) name := by
  intro matched
  have first := head?_of_fnmatch plain matched
  rw [head?_of_isSoftware software] at first
  exact other (Option.some.inj first).symm

/-- The drivers' own patterns leave Lavapipe out. -/
theorem not_fnmatch_knownDrivers {name driver : Text} (software : isSoftware name)
    (known : driver ∈ knownDrivers.map Prod.fst) :
    ¬ fnmatch ((knownDrivers.lookup driver).getD [] ++ text "_icd.*.json") name := by
  have which : driver = text "asahi" ∨ driver = text "msm" ∨ driver = text "amdgpu" := by
    simpa [knownDrivers] using known
  rcases which with rfl | rfl | rfl
  · exact not_fnmatch_of_isSoftware 'a' software (by decide) (by decide)
  · exact not_fnmatch_of_isSoftware 'f' software (by decide) (by decide)
  · exact not_fnmatch_of_isSoftware 'r' software (by decide) (by decide)

/-- In a mode that does not take every manifest, a Lavapipe manifest matches a pattern
of the software mode only. -/
theorem software_of_fnmatch {mode : GpuMode} {drivers : List Text} {glob name : Text}
    (software : isSoftware name) (chosen : glob ∈ patterns mode drivers)
    (matched : fnmatch glob name) : mode = .software ∨ patterns mode drivers = [text "*.json"] := by
  cases mode with
  | software => exact .inl rfl
  | auto => exact .inr rfl
  | native => exact .inr rfl
  | other name => exact .inr rfl
  | venus =>
      rw [List.mem_singleton.mp chosen] at matched
      exact absurd matched (not_fnmatch_of_isSoftware 'v' software (by decide) (by decide))
  | drm =>
      right
      unfold patterns at chosen ⊢
      simp only at chosen ⊢
      split at chosen
      · rw [if_pos (by assumption)]
      · obtain ⟨driver, present, rfl⟩ := List.mem_map.mp chosen
        have known := List.mem_of_mem_filter (mem_sortedSet.mp present)
        exact absurd matched (not_fnmatch_knownDrivers software known)

/-- `graphics` selects the mode of the settings, or DRM for `auto`, and on FEX always the
native one. -/
theorem gpuMode_eq_ok {mode : GpuMode} (selected : gpuMode host settings backend = .ok mode) :
    (backend = .fex ∧ mode = .native) ∨
      (backend ≠ .fex ∧ settings.gpuMode = .auto ∧ mode = .drm ∧
        ∃ driver ∈ knownDrivers.map Prod.fst, driver ∈ host.drivers) ∨
      (backend ≠ .fex ∧ settings.gpuMode = mode ∧ mode ≠ .auto ∧
        (mode = .software → settings.allowSoftwareRendering = true)) := by
  unfold gpuMode at selected
  by_cases direct : backend = .fex
  · rw [if_pos direct] at selected
    cases selected
    exact .inl ⟨direct, rfl⟩
  · rw [if_neg direct] at selected
    by_cases automatic : settings.gpuMode = .auto
    · simp only [if_pos automatic] at selected
      split at selected
      next => cases selected
      next present =>
        cases selected
        have present := Decidable.not_not.mp present
        obtain ⟨driver, known, loaded⟩ := List.any_eq_true.mp present
        exact .inr (.inl ⟨direct, automatic, rfl, driver, known, of_decide_eq_true loaded⟩)
    · simp only [if_neg automatic] at selected
      by_cases refused : settings.gpuMode = .software ∧ settings.allowSoftwareRendering = false
      · rw [if_pos refused] at selected
        cases selected
      · rw [if_neg refused] at selected
        cases selected
        refine .inr (.inr ⟨direct, rfl, automatic, ?_⟩)
        intro software
        by_contra closed
        exact refused ⟨software, Bool.eq_false_of_not_eq_true closed⟩

/-- The drivers' patterns are those of the drivers present. -/
theorem patterns_drm {drivers : List Text} :
    patterns .drm drivers = [text "*.json"] ↔
      ∀ driver ∈ knownDrivers.map Prod.fst, driver ∉ drivers := by
  unfold patterns
  simp only
  constructor
  · intro every driver known loaded
    have present : driver ∈ sortedSet ((knownDrivers.map Prod.fst).filter fun driver =>
        driver ∈ drivers) :=
      mem_sortedSet.mpr (List.mem_filter.mpr ⟨known, decide_eq_true loaded⟩)
    rw [if_neg (List.ne_nil_of_mem (List.mem_map_of_mem present))] at every
    have named : (knownDrivers.lookup driver).getD [] ++ text "_icd.*.json" ∈ [text "*.json"] :=
      every ▸ List.mem_map_of_mem present
    have length := congrArg List.length (List.mem_singleton.mp named)
    rw [List.length_append] at length
    have short : (text "_icd.*.json").length ≤ (text "*.json").length := by omega
    exact absurd short (by decide)
  · intro absent
    rw [if_pos]
    rw [List.map_eq_nil_iff, List.eq_nil_iff_forall_not_mem]
    intro driver present
    obtain ⟨known, loaded⟩ := List.mem_filter.mp (mem_sortedSet.mp present)
    exact absent driver known (of_decide_eq_true loaded)

/-- Whether a launch takes every manifest shows in the mode it selects. -/
theorem takesEvery_iff {mode : GpuMode} (selected : gpuMode host settings backend = .ok mode) :
    TakesEvery host settings backend ↔ patterns mode host.drivers = [text "*.json"] := by
  unfold TakesEvery
  rcases gpuMode_eq_ok selected with ⟨direct, rfl⟩ | ⟨indirect, automatic, rfl, present⟩ |
    ⟨indirect, rfl, named, -⟩
  · exact ⟨fun _ => rfl, fun _ => .inl direct⟩
  · rw [automatic, patterns_drm]
    obtain ⟨driver, known, loaded⟩ := present
    constructor
    · rintro (direct | chosen | ⟨_, chosen⟩ | ⟨chosen, -⟩)
      · exact absurd direct indirect
      · cases chosen
      · cases chosen
      · cases chosen
    · intro absent
      exact absurd loaded (absent driver known)
  · constructor
    · rintro (direct | chosen | ⟨_, chosen⟩ | ⟨chosen, absent⟩)
      · exact absurd direct indirect
      · rw [chosen]
        rfl
      · rw [chosen]
        rfl
      · rw [chosen]
        exact patterns_drm.mpr absent
    · intro every
      cases chosen : settings.gpuMode with
      | auto => exact absurd chosen named
      | native => exact .inr (.inl rfl)
      | other name => exact .inr (.inr (.inl ⟨name, rfl⟩))
      | drm =>
          rw [chosen] at every
          exact .inr (.inr (.inr ⟨rfl, patterns_drm.mp every⟩))
      | venus =>
          rw [chosen] at every
          exact absurd (List.singleton_inj.mp every) (by decide)
      | software =>
          rw [chosen] at every
          exact absurd (List.singleton_inj.mp every) (by decide)

/-- A launch that takes every manifest has a mode. -/
theorem gpuMode_of_takesEvery (everything : TakesEvery host settings backend) :
    ∃ mode, gpuMode host settings backend = .ok mode := by
  unfold gpuMode
  by_cases direct : backend = .fex
  · rw [if_pos direct]
    exact ⟨_, rfl⟩
  · rw [if_neg direct]
    rcases everything with same | chosen | ⟨_, chosen⟩ | ⟨chosen, -⟩
    · exact absurd same direct
    · rw [chosen]
      exact ⟨_, rfl⟩
    · rw [chosen]
      exact ⟨_, rfl⟩
    · rw [chosen]
      exact ⟨_, rfl⟩

theorem native_iff {mode : GpuMode} (selected : gpuMode host settings backend = .ok mode) :
    mode = .native ↔ backend = .fex ∨ settings.gpuMode = .native := by
  rcases gpuMode_eq_ok selected with ⟨direct, rfl⟩ | ⟨indirect, automatic, rfl, -⟩ |
    ⟨indirect, rfl, -, -⟩
  · exact ⟨fun _ => .inl direct, fun _ => rfl⟩
  · rw [automatic]
    constructor
    · intro native
      cases native
    · rintro (direct | chosen)
      · exact absurd direct indirect
      · cases chosen
  · exact ⟨.inr, fun either => either.resolve_left indirect⟩

section Selection

variable {mode : GpuMode} (allowed : settings.allowSoftwareRendering = true)
  (every : patterns mode host.drivers = [text "*.json"])

include allowed every

theorem mem_manifests {directory name : Text} :
    name ∈ manifestsIn host settings.allowSoftwareRendering (patterns mode host.drivers)
        directory ↔
      (name, true) ∈ host.listing directory ∧ fnmatch (text "*.json") name := by
  rw [mem_manifestsIn, every, allowed]
  constructor
  · rintro ⟨⟨glob, chosen, matched⟩, listed, -⟩
    rw [List.mem_singleton.mp chosen] at matched
    exact ⟨listed, matched⟩
  · rintro ⟨listed, matched⟩
    exact ⟨⟨_, List.mem_singleton_self _, matched⟩, listed, .inl rfl⟩

theorem exists_manifest_iff {directory : Text} {kind : Text → Bool} :
    (∃ name ∈ manifestsIn host settings.allowSoftwareRendering (patterns mode host.drivers)
        directory, kind name) ↔ offers host directory kind := by
  rw [offers_iff]
  simp only [mem_manifests allowed every, and_assoc]

theorem exists_nativeFound_iff {directory : Text} {kind : Text → Bool} :
    (∃ path ∈ nativeFound host settings mode directory, kind path.2) ↔
      offers host directory kind := by
  rw [← exists_manifest_iff allowed every]
  unfold nativeFound
  simp only [List.mem_map, exists_exists_and_eq_and]

/-- The directory the native manifests come from. -/
theorem nativeFound_nativeDirectory :
    (if nativeFound host settings mode (PosixPath.pathText nixosVulkanDirectory) = [] then
        nativeFound host settings mode (PosixPath.pathText settings.nativeVulkanDirectory)
      else nativeFound host settings mode (PosixPath.pathText nixosVulkanDirectory)) =
      nativeFound host settings mode (nativeDirectory host settings) := by
  have nonempty := @exists_nativeFound_iff _ _ _ allowed every
    (PosixPath.pathText nixosVulkanDirectory) (fun _ => true)
  simp only [and_true] at nonempty
  unfold nativeDirectory
  by_cases found : offers host (PosixPath.pathText nixosVulkanDirectory) (fun _ => true)
  · obtain ⟨path, member⟩ := nonempty.mpr found
    rw [if_neg (List.ne_nil_of_mem member), if_pos found]
  · rw [if_neg found, if_pos]
    rw [List.eq_nil_iff_forall_not_mem]
    exact fun path member => found (nonempty.mp ⟨path, member⟩)

/-- The native side of a launch that takes every manifest. -/
theorem exists_nativeSelection_iff :
    (∃ path ∈ nativeSelection host settings mode, isSoftware path.2) ↔
      offers host (nativeDirectory host settings) isSoftware ∧
        ¬ (text "asahi" ∈ host.drivers ∧ mode = .native ∧
          offers host (nativeDirectory host settings) (fnmatch (text "asahi_icd*.json"))) := by
  rw [← exists_nativeFound_iff allowed every, ← exists_nativeFound_iff allowed every]
  unfold nativeSelection
  simp only [nativeFound_nativeDirectory allowed every]
  have narrowed : (nativeFound host settings mode (nativeDirectory host settings)).filter
      (fun path => fnmatch (text "asahi_icd*.json") path.2) ≠ [] ↔
      ∃ path ∈ nativeFound host settings mode (nativeDirectory host settings),
        fnmatch (text "asahi_icd*.json") path.2 := by
    simp only [ne_eq, List.filter_eq_nil_iff, not_forall, not_not, exists_prop]
  rw [← narrowed]
  by_cases asahi : text "asahi" ∈ host.drivers ∧ mode = .native ∧
      (nativeFound host settings mode (nativeDirectory host settings)).filter
        (fun path => fnmatch (text "asahi_icd*.json") path.2) ≠ []
  · rw [if_pos asahi]
    constructor
    · rintro ⟨path, member, software⟩
      exact absurd (List.of_mem_filter member)
        (not_fnmatch_of_isSoftware 'a' software (by decide) (by decide))
    · exact fun found => absurd asahi found.2
  · rw [if_neg asahi]
    exact ⟨fun found => ⟨found, asahi⟩, fun found => found.1⟩

end Selection

end Manifests

section Gate

variable {host : Host} {settings : Settings} {source : Dict Text Text} {backend : Backend}

/-- The software mode alone has llvmpipe variables. -/
theorem mode_of_mem_vmGuestVariables {uid : Nat} {mode : GpuMode} {entry : Text × Text}
    (software : entry ∈ softwareOverrides) (assigned : entry ∈ vmGuestVariables uid mode) :
    mode = .software := by
  unfold vmGuestVariables at assigned
  rcases List.mem_append.mp assigned with session | chosen
  · have fresh : ∀ entry ∈ softwareOverrides, entry.1 ∉ [text "PULSE_SERVER",
        text "DBUS_SESSION_BUS_ADDRESS", text "SDL_AUDIODRIVER"] := by decide +kernel
    exact absurd (List.mem_map_of_mem session) (fresh entry software)
  · cases mode with
    | software => rfl
    | venus =>
        have zink : (text "MESA_LOADER_DRIVER_OVERRIDE", text "zink") ∉ softwareOverrides := by
          decide +kernel
        rw [List.mem_singleton.mp chosen] at software
        exact absurd software zink
    | auto => cases chosen
    | native => cases chosen
    | drm => cases chosen
    | other name => cases chosen

theorem mode_of_mem_guestAssignments {selected : Graphics} {entry : Text × Text}
    (software : entry ∈ softwareOverrides)
    (assigned : entry ∈ guestAssignments host settings source backend selected) :
    selected.mode = .software := by
  have fresh : ∀ entry ∈ softwareOverrides, entry.1 ∉
      [text "VK_DRIVER_FILES", text "PATH", text "LANG", text "LC_ALL", text "FEX_ROOTFS",
        text "FEX_THUNKCONFIG", text "XDG_DATA_DIRS", text "SSL_CERT_FILE",
        text "LIBGL_DRIVERS_PATH", text "__EGL_VENDOR_LIBRARY_DIRS"] := by
    decide +kernel
  obtain ⟨manifests, defaults⟩ := List.ne_and_not_mem_of_not_mem_cons (fresh entry software)
  unfold guestAssignments at assigned
  rw [List.mem_append, List.mem_append] at assigned
  rcases assigned with (fixed | listed) | chosen
  · exact absurd (List.mem_map_of_mem fixed) defaults
  · split at listed
    · exact absurd (congrArg Prod.fst (List.mem_singleton.mp listed)) manifests
    · cases listed
  · split at chosen
    · exact mode_of_mem_vmGuestVariables software chosen
    · cases chosen

/-- An llvmpipe variable that the configuration does not set comes with the software
mode. -/
theorem mode_of_override {selected : Graphics} {entry : Text × Text}
    (software : entry ∈ softwareOverrides) (unconfigured : entry.1 ∉ settings.environment)
    (assigned : (guestVariables host settings source backend selected).get? entry.1 =
      some entry.2) : selected.mode = .software := by
  unfold guestVariables at assigned
  rw [Dict.get?_update, Dict.get?_eq_none.mpr unconfigured, Option.none_or] at assigned
  rcases Dict.get?_or_mem_of_get?_updateEntries assigned with inherited | own
  · have loader : ∀ entry ∈ softwareOverrides, entry.1 ∈ loaderVariables := by decide +kernel
    have dropped : entry.1 ∈ omitted backend := by
      unfold omitted
      split
      · exact List.mem_append_left _ (loader entry software)
      · exact loader entry software
    rw [Dict.get?_filter, if_neg (by simpa using dropped)] at inherited
    cases inherited
  · exact mode_of_mem_guestAssignments software own

/-- The software mode is selected with both switches only. -/
theorem switches_of_mode {mode : GpuMode} (selected : gpuMode host settings backend = .ok mode)
    (software : mode = .software) :
    settings.allowSoftwareRendering = true ∧ settings.gpuMode = .software := by
  rcases gpuMode_eq_ok selected with ⟨-, native⟩ | ⟨-, -, drm, -⟩ | ⟨-, same, -, allowed⟩
  · cases software.symm.trans native
  · cases software.symm.trans drm
  · exact ⟨allowed software, same.trans software⟩

/-- A Lavapipe manifest that passes the filter has the gate open, and the mode is the
software mode or takes every manifest. -/
theorem open_of_listed {mode : GpuMode} {directory name : Text} (software : isSoftware name)
    (listed : name ∈ manifestsIn host settings.allowSoftwareRendering
      (patterns mode host.drivers) directory) :
    settings.allowSoftwareRendering = true ∧
      (mode = .software ∨ patterns mode host.drivers = [text "*.json"]) := by
  obtain ⟨⟨glob, chosen, matched⟩, -, kept⟩ := mem_manifestsIn.mp listed
  exact ⟨kept.resolve_right (not_not_intro software),
    software_of_fnmatch software chosen matched⟩

theorem listed_of_nativeSelection {mode : GpuMode} {path : Text × Text}
    (selected : path ∈ nativeSelection host settings mode) :
    ∃ directory, path.2 ∈ manifestsIn host settings.allowSoftwareRendering
      (patterns mode host.drivers) directory := by
  obtain ⟨directory, same⟩ : ∃ directory,
      (if nativeFound host settings mode (PosixPath.pathText nixosVulkanDirectory) = [] then
          nativeFound host settings mode (PosixPath.pathText settings.nativeVulkanDirectory)
        else nativeFound host settings mode (PosixPath.pathText nixosVulkanDirectory)) =
        nativeFound host settings mode directory := by
    split
    · exact ⟨_, rfl⟩
    · exact ⟨_, rfl⟩
  have found : path ∈ nativeFound host settings mode directory := by
    unfold nativeSelection at selected
    simp only [same] at selected
    split at selected
    · exact List.mem_of_mem_filter selected
    · exact selected
  obtain ⟨name, listed, rfl⟩ := List.mem_map.mp found
  exact ⟨directory, listed⟩

theorem gpuMode_of_graphics {selected : Graphics}
    (returned : graphics host settings backend = .ok selected) :
    gpuMode host settings backend = .ok selected.mode := by
  rw [graphics_eq] at returned
  cases outcome : gpuMode host settings backend with
  | error failure =>
      rw [outcome] at returned
      cases returned
  | ok mode =>
      rw [outcome] at returned
      cases returned
      rfl

/-- Lavapipe's manifests are listed where an ungated launch finds them. -/
theorem Ungated.exposes (ungated : Ungated host settings backend) {mode : GpuMode}
    (chosen : gpuMode host settings backend = .ok mode) (guest : Dict Text Text) :
    ExposesSoftware host settings mode guest := by
  have every := (takesEvery_iff chosen).mp ungated.everything
  rcases ungated.found with found | ⟨native, wide⟩
  · obtain ⟨name, listed, software⟩ := (exists_manifest_iff ungated.allowed every).mpr found
    exact .guestManifest name listed software
  · unfold NarrowedToAsahi at wide
    rw [← native_iff chosen] at wide
    obtain ⟨path, listed, software⟩ :=
      (exists_nativeSelection_iff ungated.allowed every).mpr ⟨native, wide⟩
    exact .nativeManifest path listed software

/-- A listed manifest opens the gate, and outside the software mode it is a finding. -/
theorem switches_of_listed {mode : GpuMode} {directory name : Text}
    (closed : ¬ Ungated host settings backend)
    (chosen : gpuMode host settings backend = .ok mode) (software : isSoftware name)
    (listed : name ∈ manifestsIn host settings.allowSoftwareRendering
      (patterns mode host.drivers) directory)
    (found : settings.allowSoftwareRendering = true →
      patterns mode host.drivers = [text "*.json"] →
      offers host (guestDirectory settings) isSoftware ∨
        (offers host (nativeDirectory host settings) isSoftware ∧
          ¬ NarrowedToAsahi host settings backend)) :
    settings.allowSoftwareRendering = true ∧ settings.gpuMode = .software := by
  obtain ⟨allowed, software | every⟩ := open_of_listed software listed
  · exact switches_of_mode chosen software
  · by_contra unswitched
    exact closed ⟨allowed, fun software => unswitched ⟨allowed, software⟩,
      (takesEvery_iff chosen).mpr every, found allowed every⟩

/-- **The gate of software rendering.** Every launch of every caller reaches Mesa's CPU
drivers with both switches only, exactly when the gate is not open for a launch that takes
every manifest and finds Lavapipe's. -/
theorem softwareGated_iff (host : Host) (settings : Settings) (source : Dict Text Text)
    (backend : Backend) :
    SoftwareGated host settings source backend ↔ ¬ Ungated host settings backend := by
  constructor
  · intro gated ungated
    obtain ⟨mode, chosen⟩ := gpuMode_of_takesEvery ungated.everything
    obtain ⟨selected, returned, rfl⟩ : ∃ selected, graphics host settings backend = .ok selected ∧
        selected.mode = mode := by
      rw [graphics_eq, chosen]
      exact ⟨_, rfl, rfl⟩
    obtain ⟨guest, launched⟩ : ∃ guest,
        guestEnvironment host settings source backend = .ok guest := by
      unfold guestEnvironment
      rw [returned]
      exact ⟨_, rfl⟩
    have switches := gated selected guest returned launched (ungated.exposes chosen guest)
    exact ungated.unselected switches.2
  · intro closed selected guest returned launched exposed
    obtain ⟨_, same, rfl⟩ := guestEnvironment_eq_ok launched
    cases returned.symm.trans same
    have chosen := gpuMode_of_graphics returned
    cases exposed with
    | guestManifest name listed software =>
        exact switches_of_listed closed chosen software listed fun allowed every =>
          .inl ((exists_manifest_iff allowed every).mp ⟨name, listed, software⟩)
    | nativeManifest path listed software =>
        obtain ⟨directory, member⟩ := listed_of_nativeSelection listed
        refine switches_of_listed closed chosen software member fun allowed every => .inr ?_
        unfold NarrowedToAsahi
        rw [← native_iff chosen]
        exact (exists_nativeSelection_iff allowed every).mp ⟨path, listed, software⟩
    | mesaOverride entry software unconfigured assigned =>
        exact switches_of_mode chosen (mode_of_override software unconfigured assigned)

end Gate

/-- A guest image with Lavapipe's manifest. -/
def lavapipeHost : Host :=
  { plainHost with
    listing := fun directory =>
      if directory = text "/image/usr/share/x86-on-arm/vulkan" then
        [(text "lvp_icd.x86_64.json", true)]
      else [] }

/-- On a host with direct FEX, the gate alone gives `auto` the CPU driver. -/
theorem auto_exposes_lavapipe :
    ¬ SoftwareGated lavapipeHost
      { plainSettings with gpuMode := .auto, allowSoftwareRendering := true } Dict.empty .fex := by
  intro gated
  have switches := gated _ _ rfl rfl
    (.guestManifest (text "lvp_icd.x86_64.json") (by decide +kernel) (by decide +kernel))
  cases switches.2

end X86OnArm.Runtime
