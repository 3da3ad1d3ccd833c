import X86OnArm.Applications.Wine

/-! # The end of the Steam launcher

With its bootstrap in place, the launcher sets what Steam's container runtime needs and becomes
a launch in the VM. There Steam's own script gets exactly the user's arguments, and the
container runtime the helper and the file systems that the launcher names
(`steam_reaches_guest`).
-/

namespace X86OnArm.Applications

open Foundation Foundation.Shell X86OnArm.Runtime

/-- The packages and the version that are rendered into the launcher. -/
structure SteamBuild where
  runtime : Text
  bwrap : Text
  version : Text

/-- `data`. -/
def steamData? (environ : Dict Text Text) : Option Text :=
  (dataHome? environ).map (· ++ text "/x86-on-arm/steam")

/-- Steam's own script in the bootstrap. -/
def binSteam (build : SteamBuild) (data : Text) : Text :=
  data ++ text "/" ++ build.version ++ text "/bin_steam.sh"

/-- The file systems of the container, with those the caller names behind them. -/
def filesystemsRo (environ : Dict Text Text) : Text :=
  text "/nix:/run/opengl-driver" ++
    ((given? environ (text "PRESSURE_VESSEL_FILESYSTEMS_RO")).map (text ":" ++ ·)).getD []

def multiblock (environ : Dict Text Text) : Text :=
  (given? environ (text "FEX_MULTIBLOCK")).getD (text "0")

/-- What the launcher exports. -/
def steamVariables (build : SteamBuild) (environ : Dict Text Text) : List (Text × Text) :=
  [(text "STEAMOS", text "1"), (text "STEAM_RUNTIME", text "1"),
    (text "PRESSURE_VESSEL_IMPORT_VULKAN_LAYERS", text "0"),
    (text "PRESSURE_VESSEL_BWRAP", build.bwrap ++ text "/bin/x86-arm-bwrap"),
    (text "PRESSURE_VESSEL_FILESYSTEMS_RO", filesystemsRo environ),
    (text "FEX_MULTIBLOCK", multiblock environ)]

/-- The arguments of `x86-arm --backend muvm run`. -/
def runArguments (build : SteamBuild) (data : Text) (arguments : List Text) : List Text :=
  binSteam build data :: text "-cef-force-occlusion" :: arguments

/-- The process the launcher becomes, once its bootstrap is in place. -/
def startSteam (build : SteamBuild) (environ : Dict Text Text) (arguments : List Text) :
    Option Process := do
  let data ← steamData? environ
  -- The repair of the archive, before the exports, needs `HOME` whatever `data` is.
  let _ ← environ.get? (text "HOME")
  return ⟨(build.runtime ++ text "/bin/x86-arm") :: text "--backend" :: text "muvm" ::
      text "run" :: runArguments build data arguments,
    environ.updateEntries (steamVariables build environ)⟩

/-- The settings of a launch that asks for the VM. -/
def inVm (settings : Settings) : Settings := { settings with backend := .named .muvm }

section Launcher

variable {build : SteamBuild} {environ : Dict Text Text}

/-- The names that the launcher exports. -/
def steamNames : List Text :=
  ["STEAMOS", "STEAM_RUNTIME", "PRESSURE_VESSEL_IMPORT_VULKAN_LAYERS", "PRESSURE_VESSEL_BWRAP",
    "PRESSURE_VESSEL_FILESYSTEMS_RO", "FEX_MULTIBLOCK"].map text

theorem names_steamVariables (build : SteamBuild) (environ : Dict Text Text) :
    (steamVariables build environ).map Prod.fst = steamNames := rfl

/-- The launcher's names are the caller's to set. -/
theorem steamNames_others : ∀ name ∈ steamNames, name ∉ runtimeNames := by decide +kernel

/-- The launcher sets no variable that bash acts on. -/
theorem startsPlain_steam (plain : StartsPlain environ) :
    StartsPlain (environ.updateEntries (steamVariables build environ)) := by
  have names : ∀ name ∈ steamNames, isStartup name = false := by decide +kernel
  intro key member
  rcases Dict.mem_updateEntries.mp member with given | listed
  · exact plain key given
  · exact names key (names_steamVariables build environ ▸ listed)

theorem get?_steamVariables {entry : Text × Text}
    (listed : entry ∈ steamVariables build environ) :
    (environ.updateEntries (steamVariables build environ)).get? entry.1 = some entry.2 := by
  have distinct : ((steamVariables build environ).map Prod.fst).Nodup := by
    rw [names_steamVariables]
    decide +kernel
  have looked := Dict.get?_update environ ⟨steamVariables build environ, distinct⟩ entry.1
  have stored : (⟨steamVariables build environ, distinct⟩ : Dict Text Text).get? entry.1 =
      some entry.2 := Dict.mem_entries.mp listed
  rw [stored, Option.some_or] at looked
  exact looked

theorem startSteam_iff {arguments : List Text} {process : Process} :
    startSteam build environ arguments = some process ↔
      ∃ data home, steamData? environ = some data ∧ environ.get? (text "HOME") = some home ∧
        process = ⟨(build.runtime ++ text "/bin/x86-arm") :: text "--backend" :: text "muvm" ::
            text "run" :: runArguments build data arguments,
          environ.updateEntries (steamVariables build environ)⟩ := by
  unfold startSteam
  constructor
  · intro started
    obtain ⟨data, located, more⟩ := Option.bind_eq_some_iff.mp started
    obtain ⟨home, given, became⟩ := Option.bind_eq_some_iff.mp more
    exact ⟨data, home, located, given, (Option.some.inj became).symm⟩
  · rintro ⟨data, home, located, given, rfl⟩
    rw [located, given]
    rfl

/-- What `run` starts: Steam's script, by its absolute path. -/
theorem target_of_run {host : Host} {settings : Settings} {launcher : Launcher} {data : Text}
    {arguments : List Text} {source : Dict Text Text} {target : Target}
    (found : launchTarget host settings launcher .run (runArguments build data arguments) source =
      .ok target) :
    target = ⟨PosixPath.abspath launcher.cwd (binSteam build data), binSteam build data,
      text "-cef-force-occlusion" :: arguments⟩ := by
  have named : PosixPath.slash ∈ binSteam build data := by
    unfold binSteam
    apply List.mem_append_right
    decide +kernel
  unfold launchTarget runArguments resolveProgram at found
  simp only [if_pos named] at found
  split at found
  · cases found
  · cases found
    rfl

end Launcher

/-- **Steam gets the user's arguments and the launcher's variables, in the VM.** Whatever
launch the launcher makes, it runs in the VM, Steam's script is started under the name the
launcher gives it with exactly the user's arguments behind its own, and every variable that the
launcher exports has its value unless the configuration sets it, if the guest has the caller's
directory and nowhere a variable makes bash do something first. -/
theorem steam_reaches_guest {build : SteamBuild} {environ : Dict Text Text}
    {arguments : List Text} {process : Process}
    (started : startSteam build environ arguments = some process)
    {host : Host} {settings : Settings} {configPath : Text} {launcher : Launcher}
    {prepared : Prepared} {invocation : Invocation}
    (prepares : prepare host (inVm settings) launcher .run (process.arguments.drop 4)
      process.environment = .ok prepared)
    (executed : (execute host (inVm settings) configPath launcher .run
      (process.arguments.drop 4) process.environment).result = .ok invocation)
    (free : NulFreeCommand prepared.target.program prepared.target.argv0
      prepared.target.arguments prepared.environment launcher.cwd)
    (keys : ∀ key ∈ prepared.environment, key ≠ [] ∧ ('=' : CodePoint) ∉ key)
    (absolute : launcher.cwd.head? = some ('/' : CodePoint))
    (plain : StartsPlain environ) (configured : StartsPlain settings.environment)
    (outer : Dict Text Text) (plainOuter : StartsPlain outer) (enter : Text → Bool)
    (entered : enter launcher.cwd = true) :
    ∃ data launch, steamData? environ = some data ∧
      guestLaunch outer enter invocation.script.contents = some launch ∧
      launch.directory = some launcher.cwd ∧
      launch.replacement = ⟨binSteam build data,
        PosixPath.abspath launcher.cwd (binSteam build data),
        text "-cef-force-occlusion" :: arguments⟩ ∧
      (∃ machine, invocation =
        vmInvocation host (inVm settings) launcher machine prepared.target
          prepared.environment) ∧
      ∀ entry ∈ steamVariables build environ, launch.environment.get? entry.1 =
        (settings.environment.get? entry.1).or (some entry.2) := by
  obtain ⟨data, _, located, -, rfl⟩ := startSteam_iff.mp started
  obtain ⟨backend, found, -⟩ := prepare_eq_ok prepares
  have muvm : prepared.backend = .muvm := (Except.ok.inj backend).symm
  obtain ⟨launch, transported, there, replacement, carried⟩ :=
    guest_of_execute prepares executed free keys absolute (startsPlain_steam plain) configured
      plainOuter entered
  rw [target_of_run found] at replacement
  refine ⟨data, launch, located, transported, there, replacement, ?_, ?_⟩
  · rcases execute_eq_ok prepares executed with ⟨-, vm⟩ | ⟨direct, -⟩
    · exact vm
    · exact absurd muvm direct
  · intro entry listed
    have name : entry.1 ∈ steamNames :=
      names_steamVariables build environ ▸ List.mem_map_of_mem listed
    exact carried entry.1 entry.2 (steamNames_others _ name) (get?_steamVariables listed)

/-- A host with the bootstrap in the user's data directory. -/
def steamHost : Host :=
  { plainHost with
    fileExists := fun path =>
      path = text "/home/user/.local/share/x86-on-arm/steam/1/bin_steam.sh" }

def steamBuild : SteamBuild := ⟨text "/runtime", text "/bwrap", text "1"⟩

/-- A caller in a session, with a file system of its own for the container. -/
def steamCaller : Dict Text Text := Dict.ofList
  [(text "HOME", text "/home/user"), (text "XDG_RUNTIME_DIR", text "/run/user/1000"),
    (text "PRESSURE_VESSEL_FILESYSTEMS_RO", text "/srv")]

theorem steam_reaches_guest_sample : ∃ process invocation launch,
    startSteam steamBuild steamCaller [text "-silent"] = some process ∧
    (execute steamHost (inVm plainSettings) (text "/config.json") plainLauncher .run
      (process.arguments.drop 4) process.environment).result = .ok invocation ∧
    guestLaunch Dict.empty (fun _ => true) invocation.script.contents =
      some launch ∧
    launch.replacement.arguments = [text "-cef-force-occlusion", text "-silent"] ∧
    launch.environment.get? (text "PRESSURE_VESSEL_FILESYSTEMS_RO") =
      some (text "/nix:/run/opengl-driver:/srv") := by
  have located : steamData? steamCaller =
      some (text "/home/user/.local/share/x86-on-arm/steam") := by decide +kernel
  have given : steamCaller.get? (text "HOME") = some (text "/home/user") := by decide +kernel
  have started := (@startSteam_iff steamBuild steamCaller [text "-silent"] _).mpr
    ⟨_, _, located, given, rfl⟩
  have prepares : prepare steamHost (inVm plainSettings) plainLauncher .run
      (runArguments steamBuild (text "/home/user/.local/share/x86-on-arm/steam")
        [text "-silent"])
      (steamCaller.updateEntries (steamVariables steamBuild steamCaller)) = .ok _ := rfl
  have executed : (execute steamHost (inVm plainSettings) (text "/config.json") plainLauncher
      .run (runArguments steamBuild (text "/home/user/.local/share/x86-on-arm/steam")
        [text "-silent"])
      (steamCaller.updateEntries (steamVariables steamBuild steamCaller))).result = .ok _ := rfl
  obtain ⟨data, launch, -, transported, -, replacement, -, exported⟩ :=
    steam_reaches_guest started prepares executed
      ⟨by decide +kernel, by decide +kernel, by decide +kernel, by decide +kernel,
        by decide +kernel⟩ (by decide +kernel) (by decide +kernel) (by decide +kernel)
      (by decide +kernel) Dict.empty (by decide +kernel) (fun _ => true) rfl
  refine ⟨_, _, launch, started, executed, transported, ?_, ?_⟩
  · rw [replacement]
  · exact exported (text "PRESSURE_VESSEL_FILESYSTEMS_RO", text "/nix:/run/opengl-driver:/srv")
      (by decide +kernel)

end X86OnArm.Applications
