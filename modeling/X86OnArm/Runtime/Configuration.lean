import X86OnArm.Runtime.Service
import X86OnArm.Runtime.SoftwareGate

/-! # The configuration of a build

The build writes its settings into one JSON document, which both the launcher and the service
behind it read anew, each in the encoding of its own locale. Where both read UTF-8, whatever the
settings are, a launch is that of the build's settings with the backend of the command line, and
the service runs muvm as the build has it, in the VM of that launch (`configuration_reaches_both`).
-/

namespace X86OnArm.Runtime

open Foundation Foundation.JsonText

/-- The arguments of the build, and the paths and versions its packages have. Attribute sets
are in the order of their names. -/
structure Build where
  backend : String
  gpuMode : String
  allowSoftwareRendering : Bool
  memoryMiB : Option Nat
  environment : Dict String String
  nativeEnvironment : Dict String String
  image : String
  vulkanDirectory : String
  thunks : String
  nativeConfig : String
  fex : String
  muvm : String
  init : String
  userInit : String
  sleep : String
  succeed : String
  systemctl : String
  systemdRun : String
  fexVersion : String
  muvmVersion : String
  nixpkgsVersion : String

/-- A string, as a document has it. -/
def stringValue (value : String) : Json Plain := .string (text value)

def memoryValue : Option Nat → Json Plain
  | none => .scalar .null
  | some memory => .scalar (.number (decimal memory))

def attributes (values : List (String × String)) : Json Plain :=
  .object (values.map fun entry => (text entry.1, stringValue entry.2))

/-- The members of the settings. `builtins.toJSON` sorts them by name. -/
def Build.members (build : Build) : List (Text × Json Plain) := [
  (text "allowSoftwareRendering", .scalar (.boolean build.allowSoftwareRendering)),
  (text "backend", stringValue build.backend),
  (text "environment", attributes build.environment.entries),
  (text "fex", stringValue build.fex),
  (text "gpuMode", stringValue build.gpuMode),
  (text "memoryMiB", memoryValue build.memoryMiB),
  (text "muvm", stringValue build.muvm),
  (text "nativeConfig", stringValue build.nativeConfig),
  (text "nativeEnvironment", attributes build.nativeEnvironment.entries),
  (text "nativeVulkanDirectory", stringValue build.vulkanDirectory),
  (text "prepareSession", stringValue build.userInit),
  (text "prepareVM", stringValue build.init),
  (text "rootfs", stringValue build.image),
  (text "schema", .scalar (.number (decimal 1))),
  (text "sleep", stringValue build.sleep),
  (text "systemctl", stringValue build.systemctl),
  (text "systemdRun", stringValue build.systemdRun),
  (text "thunkConfig", stringValue build.thunks),
  (text "true", stringValue build.succeed),
  (text "versions", attributes [("fex", build.fexVersion), ("muvm", build.muvmVersion),
    ("nixpkgs", build.nixpkgsVersion)])]

/-- The text of the configuration. -/
def configurationText (build : Build) : Text := nixStyle.print 0 (.object build.members)

/-- Why a configuration starts nothing. -/
inductive ConfigurationError where
  | undecodable
  | notJson
  | schema
  | missing
  deriving DecidableEq

/-- A member of the dictionary that a document is. -/
def setting? (document : Json Plain) (name : Text) : Option (Json Plain) :=
  (Dict.ofList document.members).get? name

def textValue? : Json Plain → Option Text
  | .string value => some value
  | .scalar _ | .array _ | .object _ => none

def flag? : Json Plain → Option Bool
  | .scalar (.boolean value) => some value
  | _ => none

def memory? : Json Plain → Option (Option Nat)
  | .scalar .null => some none
  | .scalar (.number token) => (natural? token).map some
  | _ => none

def dict? : Json Plain → Option (Dict Text Text)
  | .object members =>
      (members.mapM fun member => (textValue? member.2).map fun value => (member.1, value)).map
        Dict.ofList
  | .scalar _ | .string _ | .array _ => none

def requestedBackend (name : Text) : RequestedBackend :=
  if name = text "auto" then .auto
  else if name = text "fex" then .named .fex
  else if name = text "muvm" then .named .muvm
  else .named (.other name)

def requestedMode (name : Text) : GpuMode :=
  if name = text "auto" then .auto
  else if name = text "native" then .native
  else if name = text "drm" then .drm
  else if name = text "venus" then .venus
  else if name = text "software" then .software
  else .other name

/-- The settings of a document. One that lacks a setting has none, although the launcher
only fails where it looks the setting up. -/
def settings? (document : Json Plain) : Option ServiceSettings := do
  let path name := (setting? document name).bind textValue?
  let backend ← path (text "backend")
  let gpuMode ← path (text "gpuMode")
  let allowSoftwareRendering ← (setting? document (text "allowSoftwareRendering")).bind flag?
  let rootfs ← path (text "rootfs")
  let nativeVulkanDirectory ← path (text "nativeVulkanDirectory")
  let thunkConfig ← path (text "thunkConfig")
  let nativeConfig ← path (text "nativeConfig")
  let environment ← (setting? document (text "environment")).bind dict?
  let nativeEnvironment ← (setting? document (text "nativeEnvironment")).bind dict?
  let fex ← path (text "fex")
  let muvm ← path (text "muvm")
  let systemctl ← path (text "systemctl")
  let systemdRun ← path (text "systemdRun")
  let prepareVM ← path (text "prepareVM")
  let prepareSession ← path (text "prepareSession")
  let memoryMiB ← (setting? document (text "memoryMiB")).bind memory?
  let sleep ← path (text "sleep")
  return {
    backend := requestedBackend backend
    gpuMode := requestedMode gpuMode
    allowSoftwareRendering, rootfs, nativeVulkanDirectory, thunkConfig, nativeConfig
    environment, nativeEnvironment, fex, muvm, systemctl, systemdRun
    prepareVM, prepareSession, memoryMiB, sleep }

def schema? (document : Json Plain) : Option Nat :=
  (setting? document (text "schema")).bind fun
    | .scalar (.number token) => natural? token
    | _ => none

def carriageReturn : CodePoint := Char.ofNat 13

def lineFeed : CodePoint := Char.ofNat 10

/-- The translation of line ends. -/
def newlines : Text → Text
  | [] => []
  | [c] => [if c = carriageReturn then lineFeed else c]
  | c :: next :: rest =>
      if c = carriageReturn ∧ next = lineFeed then lineFeed :: newlines rest
      else (if c = carriageReturn then lineFeed else c) :: newlines (next :: rest)

/-- `json.loads(Path(config_path).read_text())`. -/
def readConfiguration (encoding : LocaleEncoding) (configuration : List UInt8) :
    Except ConfigurationError (Json Plain) := do
  let content ← ((encoding.decodeStrict configuration).map Except.ok).getD (.error .undecodable)
  ((read? (newlines content)).map Except.ok).getD (.error .notJson)

def readSettings (document : Json Plain) : Except ConfigurationError ServiceSettings :=
  ((settings? document).map Except.ok).getD (.error .missing)

/-- `main` with a command that launches. -/
def main (host : Host) (encoding : LocaleEncoding) (configuration : List UInt8)
    (configPath : Text) (override : Option RequestedBackend) (launcher : Launcher)
    (command : Command) (arguments : List Text) (source : Dict Text Text) :
    Except ConfigurationError Execution := do
  let document ← readConfiguration encoding configuration
  if schema? document ≠ some 1 then throw .schema
  let settings ← readSettings document
  let settings := { settings.toSettings with backend := override.getD settings.backend }
  if host.uid = 0 ∨ host.euid = 0 then
    return ⟨[], .error (.runtimeError
      (text "run as a regular user; this runtime is for applications"))⟩
  return execute host settings configPath launcher command arguments source

/-- `service.py` with its configuration. -/
def serviceMain (host : Host) (encoding : LocaleEncoding) (configuration : List UInt8)
    (configPath : Text) (environ : Dict Text Text) :
    Except ConfigurationError (Except Failure Process) := do
  let document ← readConfiguration encoding configuration
  let settings ← readSettings document
  return service host settings configPath environ

/-- The attributes of a build as variables. -/
def variablesOf (values : Dict String String) : Dict Text Text :=
  Dict.ofList (values.entries.map fun entry => (text entry.1, text entry.2))

/-- The settings a build means. -/
def Build.settings (build : Build) : ServiceSettings where
  backend := requestedBackend (text build.backend)
  gpuMode := requestedMode (text build.gpuMode)
  allowSoftwareRendering := build.allowSoftwareRendering
  rootfs := text build.image
  nativeVulkanDirectory := text build.vulkanDirectory
  thunkConfig := text build.thunks
  nativeConfig := text build.nativeConfig
  environment := variablesOf build.environment
  nativeEnvironment := variablesOf build.nativeEnvironment
  fex := text build.fex
  muvm := text build.muvm
  systemctl := text build.systemctl
  systemdRun := text build.systemdRun
  prepareVM := text build.init
  prepareSession := text build.userInit
  memoryMiB := build.memoryMiB
  sleep := text build.sleep

section Documents

variable (build : Build)

theorem nodup_members : (build.members.map Prod.fst).Nodup := by
  have names : build.members.map Prod.fst = ["allowSoftwareRendering", "backend", "environment",
      "fex", "gpuMode", "memoryMiB", "muvm", "nativeConfig", "nativeEnvironment",
      "nativeVulkanDirectory", "prepareSession", "prepareVM", "rootfs", "schema", "sleep",
      "systemctl", "systemdRun", "thunkConfig", "true", "versions"].map text := rfl
  rw [names]
  decide +kernel

/-- A member is the setting of its name. -/
theorem setting?_member (place : Nat) {name : Text} {value : Json Plain}
    (listed : build.members[place]? = some (name, value)) :
    setting? (.object build.members) name = some value := by
  have member : (name, value) ∈ (⟨build.members, nodup_members build⟩ : Dict Text _).entries :=
    List.mem_of_getElem? listed
  exact (Dict.get?_ofList (nodup_members build) name).trans (Dict.mem_entries.mp member)

theorem dict?_attributes (values : Dict String String) :
    dict? (attributes values.entries) = some (variablesOf values) := by
  have each (entries : List (String × String)) :
      ((entries.map fun entry => (text entry.1, stringValue entry.2)).mapM fun member =>
        (textValue? member.2).map fun value => (member.1, value)) =
        some (entries.map fun entry => (text entry.1, text entry.2)) := by
    induction entries with
    | nil => rfl
    | cons entry more ih =>
        rw [List.map_cons, List.mapM_cons, ih]
        rfl
  unfold dict? attributes
  simp only
  rw [each]
  rfl

theorem memory?_memoryValue (memory : Option Nat) : memory? (memoryValue memory) = some memory := by
  cases memory with
  | none => rfl
  | some memory =>
      change (natural? (decimal memory)).map some = _
      rw [natural?_decimal]
      rfl

theorem settings?_members :
    settings? (.object build.members) = some build.settings := by
  have allowed := setting?_member build 0 rfl
  have backend := setting?_member build 1 rfl
  have environment := setting?_member build 2 rfl
  have fex := setting?_member build 3 rfl
  have gpuMode := setting?_member build 4 rfl
  have memory := setting?_member build 5 rfl
  have muvm := setting?_member build 6 rfl
  have nativeConfig := setting?_member build 7 rfl
  have native := setting?_member build 8 rfl
  have vulkan := setting?_member build 9 rfl
  have session := setting?_member build 10 rfl
  have vm := setting?_member build 11 rfl
  have rootfs := setting?_member build 12 rfl
  have sleep := setting?_member build 14 rfl
  have systemctl := setting?_member build 15 rfl
  have systemdRun := setting?_member build 16 rfl
  have thunks := setting?_member build 17 rfl
  unfold settings?
  simp only [allowed, backend, environment, fex, gpuMode, memory, muvm, nativeConfig, native,
    vulkan, session, vm, rootfs, sleep, systemctl, systemdRun, thunks, Option.bind_some,
    dict?_attributes, memory?_memoryValue]
  rfl

theorem schema?_members : schema? (.object build.members) = some 1 := by
  have schema := setting?_member build 13 rfl
  unfold schema?
  rw [schema]
  exact natural?_decimal 1

theorem printable_attributes (values : List (String × String)) :
    Printable (attributes values) := by
  apply Printable.object
  · intro member listed
    obtain ⟨entry, -, rfl⟩ := List.mem_map.mp listed
    exact clean_text entry.1
  · intro member listed
    obtain ⟨entry, -, rfl⟩ := List.mem_map.mp listed
    exact .string (clean_text entry.2)

theorem printable_members : Printable (.object build.members) := by
  have string (value : String) : Printable (stringValue value) := .string (clean_text value)
  have memory : Printable (memoryValue build.memoryMiB) := by
    cases build.memoryMiB with
    | none => exact .null
    | some memory => exact printable_decimal memory
  apply Printable.object
  · unfold Build.members
    simp only [List.forall_mem_cons]
    refine ⟨clean_text _, clean_text _, clean_text _, clean_text _, clean_text _, clean_text _,
      clean_text _, clean_text _, clean_text _, clean_text _, clean_text _, clean_text _,
      clean_text _, clean_text _, clean_text _, clean_text _, clean_text _, clean_text _,
      clean_text _, clean_text _, ?_⟩
    exact fun _ none => absurd none List.not_mem_nil
  · unfold Build.members
    simp only [List.forall_mem_cons]
    refine ⟨.boolean _, string _, printable_attributes _, string _, string _, memory, string _,
      string _, printable_attributes _, string _, string _, string _, string _,
      printable_decimal 1, string _, string _, string _, string _, string _,
      printable_attributes _, ?_⟩
    exact fun _ none => absurd none List.not_mem_nil

/-- Text without carriage returns keeps its lines. -/
theorem newlines_eq {value : Text} (plain : ∀ c ∈ value, c ≠ carriageReturn) :
    newlines value = value := by
  induction value using newlines.induct with
  | case1 => rfl
  | case2 c => exact congrArg ([·]) (if_neg (plain c List.mem_cons_self))
  | case3 c next rest both ih => exact absurd both.1 (plain c List.mem_cons_self)
  | case4 c next rest other ih =>
      rw [newlines, if_neg other, if_neg (plain c List.mem_cons_self),
        ih fun d member => plain d (List.mem_cons_of_mem _ member)]

/-- The bytes of the configuration, which is written in UTF-8. -/
def Written (bytes : List UInt8) : Prop := encodeUtf8 (configurationText build) = some bytes

variable {build} {encoding : LocaleEncoding} {bytes : List UInt8}

/-- The configuration is read as the document the build wrote. -/
theorem readConfiguration_text (written : Written build bytes) (reads : encoding.Reads bytes) :
    readConfiguration encoding bytes = .ok (.object build.members) := by
  have spelled : ∀ c ∈ configurationText build, Spelled c :=
    writes_nixStyle.print (printable_members build) 0
  have lines : newlines (configurationText build) = configurationText build := by
    apply newlines_eq
    rintro c member rfl
    exact absurd (spelled _ member) (by decide)
  unfold readConfiguration
  rw [decodeStrict_of_reads (fun c member => (spelled c member).2) written reads]
  change ((read? (newlines (configurationText build))).map Except.ok).getD _ = _
  rw [lines]
  unfold configurationText
  rw [read?_nixStyle (printable_members build)]
  rfl

variable (build)

theorem readSettings_members :
    readSettings (.object build.members) = .ok build.settings := by
  unfold readSettings
  rw [settings?_members]
  rfl

/-- The settings of a launch: the build's, with the backend of the command line. -/
def Build.launchSettings (build : Build) (override : Option RequestedBackend) : Settings :=
  { build.settings.toSettings with backend := override.getD build.settings.backend }

variable {build}

theorem main_configurationText (written : Written build bytes) (reads : encoding.Reads bytes)
    (host : Host) (configPath : Text) (override : Option RequestedBackend) (launcher : Launcher)
    (command : Command) (arguments : List Text) (source : Dict Text Text)
    (regular : ¬ (host.uid = 0 ∨ host.euid = 0)) :
    main host encoding bytes configPath override launcher command arguments source =
      .ok (execute host (build.launchSettings override) configPath launcher command arguments
        source) := by
  unfold main
  rw [readConfiguration_text written reads]
  simp only [bind, Except.bind, schema?_members, readSettings_members]
  rw [if_neg (not_not.mpr rfl), if_neg regular]
  rfl

theorem serviceMain_configurationText (written : Written build bytes)
    (reads : encoding.Reads bytes) (host : Host) (configPath : Text) (environ : Dict Text Text) :
    serviceMain host encoding bytes configPath environ =
      .ok (service host build.settings configPath environ) := by
  unfold serviceMain
  rw [readConfiguration_text written reads]
  simp only [bind, Except.bind, readSettings_members]
  rfl

end Documents

/-- The command of muvm has the mode that the service selects. -/
theorem arguments_of_service {host : Host} {settings : ServiceSettings} {configPath : Text}
    {environ : Dict Text Text} {process : Process}
    (served : service host settings configPath environ = .ok process) :
    ∃ mode, gpuMode host settings.toSettings .muvm = .ok mode ∧
      process.arguments = VirtualMachine.serveArguments host settings mode := by
  unfold service at served
  cases found : VirtualMachine.create host settings.toSettings configPath environ with
  | error failure =>
      rw [found] at served
      cases served
  | ok machine =>
      rw [found] at served
      obtain ⟨selected, _, chosen, -, rfl⟩ := serve_eq_ok served
      exact ⟨selected.mode, gpuMode_of_graphics chosen, rfl⟩

/-- **The configuration reaches both sides.** In locales that read UTF-8 every launch is the one
with the build's settings, under the backend of the command line. The unit that its VM starts
reads the same settings, and where the service becomes muvm, it does so with the mode and the
memory of the build, whatever the backend of the launch, in the environment the launch means. -/
theorem configuration_reaches_both {build : Build} {bytes : List UInt8}
    (written : Written build bytes) {encoding serviceEncoding : LocaleEncoding}
    (reads : encoding.Reads bytes) (serviceReads : serviceEncoding.Reads bytes) (host : Host)
    (regular : ¬ (host.uid = 0 ∨ host.euid = 0)) (configPath : Text)
    (words : CommandWords [host.pythonExecutable, host.servicePath, configPath])
    (manager : UserManager) (home : Text) (override : Option RequestedBackend)
    (launcher : Launcher) (command : Command) (arguments : List Text) (source : Dict Text Text) :
    main host encoding bytes configPath override launcher command arguments source =
        .ok (execute host (build.launchSettings override) configPath launcher command arguments
          source) ∧
      ∀ machine, VirtualMachine.create host (build.launchSettings override) configPath source =
          .ok machine →
        ∀ unitCommand environ,
          manager.start (machine.systemdRunArguments host home).tail =
              some (unitCommand, environ) →
            unitCommand = [host.pythonExecutable, host.servicePath, configPath] ∧
            ∀ process, serviceMain host serviceEncoding bytes configPath environ =
                .ok (.ok process) →
              Served host manager machine build.settings process.environment ∧
              ∃ mode, gpuMode host build.settings.toSettings .muvm = .ok mode ∧
                process.arguments = VirtualMachine.serveArguments host build.settings mode := by
  refine ⟨main_configurationText written reads host configPath override launcher command
    arguments source regular, ?_⟩
  intro machine created unitCommand environ starts
  obtain ⟨runtime, identity, -, -, -, same⟩ := create_eq_ok created
  have path : machine.configPath = configPath := by rw [same]
  have caller : machine.source = source := by rw [same]
  obtain ⟨unit, held⟩ := unit_environment manager host machine home (path ▸ words) starts
  rw [path] at unit
  rw [caller] at held
  refine ⟨unit, ?_⟩
  intro process became
  rw [serviceMain_configurationText written serviceReads] at became
  have served := Except.ok.inj became
  exact ⟨served_of_service created held served, arguments_of_service served⟩

section Sample

/-- A build with a memory limit, and a quote in a variable. -/
def sampleBuild : Build where
  backend := "auto"
  gpuMode := "venus"
  allowSoftwareRendering := false
  memoryMiB := some 4096
  environment := ⟨[("GREETING", "say \"hi\"")], by decide⟩
  nativeEnvironment := ⟨[], List.nodup_nil⟩
  image := "/image"
  vulkanDirectory := "/mesa"
  thunks := "/thunks.json"
  nativeConfig := "/native.json"
  fex := "/FEXBash"
  muvm := "/muvm"
  init := "/prepare-vm"
  userInit := "/prepare-session"
  sleep := "/sleep"
  succeed := "/true"
  systemctl := "/systemctl"
  systemdRun := "/systemd-run"
  fexVersion := "1"
  muvmVersion := "2"
  nixpkgsVersion := "3"

theorem configuration_reaches_both_sample : ∃ bytes environ process,
    encodeUtf8 (configurationText sampleBuild) = some bytes ∧
    main plainHost .utf8 bytes (text "/config.json") (some (.named .muvm)) plainLauncher .shell []
        sessionSource =
      .ok (execute plainHost (sampleBuild.launchSettings (some (.named .muvm)))
        (text "/config.json") plainLauncher .shell [] sessionSource) ∧
    rootManager.start (VirtualMachine.systemdRunArguments plainHost
        (sessionMachine (sampleBuild.launchSettings (some (.named .muvm))))
        (text "/home/user")).tail =
      some ([text "/python3", text "/service.py", text "/config.json"], environ) ∧
    serviceMain plainHost .utf8 bytes (text "/config.json") environ = .ok (.ok process) ∧
    process.arguments = [text "/muvm", text "--emu=fex", text "--gpu-mode=venus",
      text "--execute-pre", text "/prepare-vm", text "--user-execute-pre",
      text "/prepare-session", text "-e",
      text "DBUS_SESSION_BUS_ADDRESS=unix:path=/run/user/1000/bus", text "--mem=4096",
      text "--", text "/sleep", text "infinity"] := by
  have inSource : sessionSource.get? (text "XDG_RUNTIME_DIR") = some (text "/run/user/1000") := by
    decide +kernel
  have identified : plainHost.identity (text "/config.json") = .ok (text "0123456789ab") := rfl
  have encodes : (encodeUtf8 (configurationText sampleBuild)).isSome = true := by decide +kernel
  obtain ⟨bytes, written⟩ := Option.isSome_iff_exists.mp encodes
  obtain ⟨launched, reaches⟩ := @configuration_reaches_both sampleBuild bytes written .utf8 .utf8
    trivial trivial plainHost (by decide) (text "/config.json") words_plain rootManager
    (text "/home/user") (some (.named .muvm)) plainLauncher .shell [] sessionSource
  have created :=
    create_sessionSource (sampleBuild.launchSettings (some (.named .muvm)))
  obtain ⟨command, environ, starts⟩ :=
    rootManager_starts (sampleBuild.launchSettings (some (.named .muvm)))
  obtain ⟨rfl, serves⟩ := reaches _ created command environ starts
  obtain ⟨-, held⟩ :=
    unit_environment rootManager plainHost _ (text "/home/user") words_plain starts
  have inEnviron : environ.get? (text "XDG_RUNTIME_DIR") = some (text "/run/user/1000") := by
    rw [held _ (by decide +kernel)]
    exact (congrArg (Option.or · _) inSource).trans (Option.some_or ..)
  have served : ∃ process, service plainHost sampleBuild.settings (text "/config.json") environ =
      .ok process := by
    unfold service
    rw [create_of_runtime inEnviron (by decide) identified]
    exact ⟨_, rfl⟩
  obtain ⟨process, served⟩ := served
  have became := @serviceMain_configurationText sampleBuild .utf8 bytes written trivial plainHost
    (text "/config.json") environ
  rw [served] at became
  obtain ⟨-, mode, chosen, words⟩ := serves process became
  cases chosen
  exact ⟨bytes, environ, process, written, launched, starts, became,
    words.trans (by decide +kernel)⟩

end Sample

end X86OnArm.Runtime
