import X86OnArm.Runtime.EnvironmentDomains
import X86OnArm.Runtime.NativeConfig

/-! # The service behind the VM

The launcher has the user's service manager start `service.py`, which works out anew what the
launcher has: from the variables the manager hands it, it finds the same VM, and it starts muvm
in the environment the launcher means (`service_matches`). Of the manager only this is used, that
a unit it starts for a launcher has the launcher's words for its command and the variables the
launcher names (`UserManager`); it may refuse to start the unit.
-/

namespace X86OnArm.Runtime

open Foundation

/-- The settings that only the service reads. -/
structure ServiceSettings extends Settings where
  prepareVM : Text
  prepareSession : Text
  memoryMiB : Option Nat
  sleep : Text

/-- `graphics(...)[0]` in an option. -/
def GpuMode.text : GpuMode → Text
  | .auto => Foundation.text "auto"
  | .native => Foundation.text "native"
  | .drm => Foundation.text "drm"
  | .venus => Foundation.text "venus"
  | .software => Foundation.text "software"
  | .other name => name

namespace VirtualMachine

def serveArguments (host : Host) (settings : ServiceSettings) (mode : GpuMode) : List Text :=
  [settings.muvm, text "--emu=fex", text "--gpu-mode=" ++ mode.text, text "--execute-pre",
    settings.prepareVM, text "--user-execute-pre", settings.prepareSession, text "-e",
    text "DBUS_SESSION_BUS_ADDRESS=unix:path=/run/user/" ++ decimal host.uid ++ text "/bus"] ++
  (match settings.memoryMiB with
    | none | some 0 => []
    | some memory => [text "--mem=" ++ decimal memory]) ++
  [text "--", settings.sleep, text "infinity"]

/-- `serve`: the process the service becomes. -/
def serve (host : Host) (machine : VirtualMachine) (settings : ServiceSettings) :
    Except Failure Process := do
  let selected ← graphics host settings.toSettings .muvm
  let direct ← graphics host settings.toSettings .fex
  return ⟨serveArguments host settings selected.mode,
    (machine.hostEnvironment host).update direct.native⟩

end VirtualMachine

/-- `service.py`. -/
def service (host : Host) (settings : ServiceSettings) (configPath : Text)
    (environ : Dict Text Text) : Except Failure Process := do
  let machine ← VirtualMachine.create host settings.toSettings configPath environ
  machine.serve host settings

/-- Words that `systemd-run` gives a unit as they are: the first is the path of a program, and
in none is there anything to expand. -/
structure CommandWords (words : List Text) : Prop where
  program : ∀ word ∈ words.head?, PosixPath.isAbsolute word = true
  plain : ∀ word ∈ words, ('$' : CodePoint) ∉ word

def unitOptions (unit home : Text) : List Text :=
  [text "--user", text "--quiet", text "--collect",
    text "--unit=" ++ unit, text "--property=Type=exec",
    text "--property=TimeoutStopSec=10", text "--property=PartOf=graphical-session.target",
    text "--property=UnsetEnvironment=LD_LIBRARY_PATH LD_PRELOAD",
    text "--property=KillMode=mixed", text "--property=WorkingDirectory=" ++ home]

def setenvOption (pair : Text × Text) : Text := text "--setenv=" ++ entryText pair

/-- The user's service manager: its own variables, and the command and variables of the unit
that `systemd-run` has it start, if it starts one. -/
structure UserManager where
  environment : Dict Text Text
  start : List Text → Option (List Text × Dict Text Text)
  started : ∀ (unit home : Text) (pairs : List (Text × Text)) (words command : List Text)
    (environ : Dict Text Text), (∀ pair ∈ pairs, pair.1 ∈ sessionKeys) →
    (pairs.map Prod.fst).Nodup → CommandWords words →
    start (unitOptions unit home ++ pairs.map setenvOption ++ words) = some (command, environ) →
    command = words ∧ (∀ pair ∈ pairs, environ.get? pair.1 = some pair.2) ∧
      ∀ key ∈ sessionKeys, key ∉ pairs.map Prod.fst →
        environ.get? key = environment.get? key

section Options

variable {host : Host} {machine : VirtualMachine} {source : Dict Text Text} {key : Text}

def sessionPairs (source : Dict Text Text) : List (Text × Text) :=
  sessionKeys.filterMap fun key => (source.get? key).map fun value => (key, value)

theorem systemdRunArguments_eq (host : Host) (machine : VirtualMachine) (home : Text) :
    machine.systemdRunArguments host home =
      machine.settings.systemdRun :: (unitOptions machine.unit home ++
        VirtualMachine.sessionOptions machine.source ++
        [host.pythonExecutable, host.servicePath, machine.configPath]) := by
  unfold VirtualMachine.systemdRunArguments unitOptions
  rw [← List.cons_append, ← List.cons_append]

theorem sessionOptions_eq (source : Dict Text Text) :
    VirtualMachine.sessionOptions source = (sessionPairs source).map setenvOption := by
  unfold VirtualMachine.sessionOptions sessionPairs
  rw [List.map_filterMap]
  apply List.filterMap_congr
  intro key _
  rw [Option.map_map]
  congr 1
  funext value
  change text "--setenv=" ++ key ++ text "=" ++ value = text "--setenv=" ++ (key ++ equals :: value)
  rw [List.append_assoc, List.append_assoc]
  rfl

theorem sessionKeys_plain : ∀ key ∈ sessionKeys, equals ∉ key := by decide +kernel

theorem mem_sessionPairs {pair : Text × Text} :
    pair ∈ sessionPairs source ↔ pair.1 ∈ sessionKeys ∧ source.get? pair.1 = some pair.2 := by
  unfold sessionPairs
  rw [List.mem_filterMap]
  constructor
  · rintro ⟨key, member, built⟩
    obtain ⟨value, stored, rfl⟩ := Option.map_eq_some_iff.mp built
    exact ⟨member, stored⟩
  · rintro ⟨member, stored⟩
    exact ⟨pair.1, member, Option.map_eq_some_iff.mpr ⟨pair.2, stored, rfl⟩⟩

theorem nodup_sessionPairs (source : Dict Text Text) :
    ((sessionPairs source).map Prod.fst).Nodup := by
  unfold sessionPairs
  rw [List.map_filterMap]
  have nodup : sessionKeys.Nodup := by decide +kernel
  apply nodup.filterMap
  intro first second key one other
  obtain ⟨_, built, rfl⟩ := Option.map_eq_some_iff.mp one
  obtain ⟨_, -, rfl⟩ := Option.map_eq_some_iff.mp built
  obtain ⟨_, built, same⟩ := Option.map_eq_some_iff.mp other
  obtain ⟨_, -, rfl⟩ := Option.map_eq_some_iff.mp built
  exact same.symm

/-- The session variables of the unit that a caller starts: its own over the manager's. -/
def UnitEnvironment (manager : UserManager) (source environ : Dict Text Text) : Prop :=
  ∀ key ∈ sessionKeys, environ.get? key = (source.get? key).or (manager.environment.get? key)

theorem unit_environment (manager : UserManager) (host : Host) (machine : VirtualMachine)
    (home : Text) (words : CommandWords [host.pythonExecutable, host.servicePath,
      machine.configPath]) {command : List Text} {environ : Dict Text Text}
    (starts : manager.start (machine.systemdRunArguments host home).tail =
      some (command, environ)) :
    command = [host.pythonExecutable, host.servicePath, machine.configPath] ∧
      UnitEnvironment manager machine.source environ := by
  rw [systemdRunArguments_eq, List.tail_cons, sessionOptions_eq] at starts
  obtain ⟨same, given, kept⟩ := manager.started _ _ _ _ _ _
    (fun pair member => (mem_sessionPairs.mp member).1) (nodup_sessionPairs _) words starts
  refine ⟨same, ?_⟩
  intro key listed
  cases stored : machine.source.get? key with
  | some value => exact given (key, value) (mem_sessionPairs.mpr ⟨listed, stored⟩)
  | none =>
      apply kept key listed
      intro named
      obtain ⟨pair, member, rfl⟩ := List.mem_map.mp named
      cases stored.symm.trans (mem_sessionPairs.mp member).2

end Options

section Environments

variable {host : Host} {settings : Settings} {configPath : Text} {source : Dict Text Text}
  {machine : VirtualMachine}

theorem create_eq_ok (created : VirtualMachine.create host settings configPath source =
    .ok machine) : ∃ runtime identity, source.get? (text "XDG_RUNTIME_DIR") = some runtime ∧
      runtime ≠ [] ∧ host.identity configPath = .ok identity ∧
      machine = ⟨settings, configPath, source,
        PosixPath.child (PosixPath.child runtime (text "x86-on-arm")) identity,
        text "x86-on-arm-" ++ identity ++ text ".service",
        PosixPath.child (PosixPath.child (PosixPath.child runtime (text "x86-on-arm")) identity)
          (text "krun/server")⟩ := by
  unfold VirtualMachine.create at created
  by_cases missing : (source.get? (text "XDG_RUNTIME_DIR")).getD [] = []
  · simp only [if_pos missing] at created
    cases created
  · simp only [if_neg missing] at created
    cases stored : source.get? (text "XDG_RUNTIME_DIR") with
    | none =>
        rw [stored] at missing
        exact absurd rfl missing
    | some runtime =>
        rw [stored, Option.getD_some] at missing
        cases identified : host.identity configPath with
        | error failure =>
            rw [identified] at created
            cases created
        | ok identity =>
            rw [identified, stored] at created
            cases created
            exact ⟨runtime, identity, rfl, missing, rfl, rfl⟩

theorem create_of_runtime {runtime identity : Text}
    (stored : source.get? (text "XDG_RUNTIME_DIR") = some runtime) (given : runtime ≠ [])
    (identified : host.identity configPath = .ok identity) :
    VirtualMachine.create host settings configPath source = .ok ⟨settings, configPath, source,
      PosixPath.child (PosixPath.child runtime (text "x86-on-arm")) identity,
      text "x86-on-arm-" ++ identity ++ text ".service",
      PosixPath.child (PosixPath.child (PosixPath.child runtime (text "x86-on-arm")) identity)
        (text "krun/server")⟩ := by
  unfold VirtualMachine.create
  rw [stored, Option.getD_some, identified]
  simp only [if_neg given]
  rfl

/-- The native drivers are one variable. -/
theorem get?_native {backend : Backend} {selected : Graphics} {key : Text}
    (chosen : graphics host settings backend = .ok selected)
    (other : key ≠ text "VK_DRIVER_FILES") : selected.native.get? key = none := by
  unfold graphics at chosen
  cases mode : gpuMode host settings backend with
  | error failure =>
      rw [mode] at chosen
      cases chosen
  | ok mode' =>
      rw [mode] at chosen
      cases chosen
      simp only
      split
      · rfl
      · exact (Dict.get?_insert_of_ne Dict.empty _ other).trans (Dict.get?_empty key)

/-- The environment of muvm, before the X11 socket. -/
def vmVariablesOf (machine : VirtualMachine) (runtime : Text) : Dict Text Text :=
  ((((nativeEnvironment machine.source).insert (text "XDG_RUNTIME_DIR")
    machine.directory).setDefault (text "RUST_LOG") (text "init_or_kernel=error")).setDefault
      (text "PULSE_SERVER") (text "unix:" ++ runtime ++ text "/pulse/native")).setDefault
        (text "PIPEWIRE_RUNTIME_DIR") runtime

theorem hostEnvironment_eq (host : Host) (machine : VirtualMachine) {runtime : Text}
    (stored : machine.source.get? (text "XDG_RUNTIME_DIR") = some runtime) :
    machine.hostEnvironment host =
      (x11Socket host machine.source).elim (vmVariablesOf machine runtime)
        ((vmVariablesOf machine runtime).insert (text "X11_SOCKET")) := by
  unfold VirtualMachine.hostEnvironment
  rw [stored, Option.getD_some]
  cases x11Socket host machine.source with
  | none => rfl
  | some socket => rfl

/-- The environment of muvm, variable by variable. -/
theorem get?_hostEnvironment (host : Host) (machine : VirtualMachine) {runtime : Text}
    (stored : machine.source.get? (text "XDG_RUNTIME_DIR") = some runtime) (key : Text) :
    (machine.hostEnvironment host).get? key =
      if key = text "X11_SOCKET" then
        (x11Socket host machine.source).or (machine.source.get? key)
      else if key = text "PIPEWIRE_RUNTIME_DIR" then
        some ((machine.source.get? key).getD runtime)
      else if key = text "PULSE_SERVER" then
        some ((machine.source.get? key).getD (text "unix:" ++ runtime ++ text "/pulse/native"))
      else if key = text "RUST_LOG" then
        some ((machine.source.get? key).getD (text "init_or_kernel=error"))
      else if key = text "XDG_RUNTIME_DIR" then some machine.directory
      else (nativeEnvironment machine.source).get? key := by
  have socket (found : Option Text) (env : Dict Text Text) :
      (found.elim env (env.insert (text "X11_SOCKET"))).get? key =
        if key = text "X11_SOCKET" then found.or (env.get? key) else env.get? key := by
    cases found with
    | none => exact (ite_self _).symm
    | some socket =>
        rw [Option.elim_some, Dict.get?_insert]
        rfl
  rw [hostEnvironment_eq host machine stored, socket]
  unfold vmVariablesOf
  simp only [Dict.get?_setDefault, Dict.get?_insert]
  by_cases x11 : key = text "X11_SOCKET"
  · subst x11
    rw [if_pos rfl, if_pos rfl, if_neg (by decide +kernel), if_neg (by decide +kernel),
      if_neg (by decide +kernel), if_neg (by decide +kernel),
      get?_nativeEnvironment _ (by decide +kernel)]
  rw [if_neg x11, if_neg x11]
  by_cases pipewire : key = text "PIPEWIRE_RUNTIME_DIR"
  · subst pipewire
    rw [if_pos rfl, if_pos rfl, if_neg (by decide +kernel), if_neg (by decide +kernel),
      if_neg (by decide +kernel), get?_nativeEnvironment _ (by decide +kernel)]
  rw [if_neg pipewire, if_neg pipewire]
  by_cases pulse : key = text "PULSE_SERVER"
  · subst pulse
    rw [if_pos rfl, if_pos rfl, if_neg (by decide +kernel), if_neg (by decide +kernel),
      get?_nativeEnvironment _ (by decide +kernel)]
  rw [if_neg pulse, if_neg pulse]
  by_cases log : key = text "RUST_LOG"
  · subst log
    rw [if_pos rfl, if_pos rfl, if_neg (by decide +kernel),
      get?_nativeEnvironment _ (by decide +kernel)]
  rw [if_neg log, if_neg log]

theorem loaderVariables_plain : ∀ key ∈ loaderVariables, key ∉ [text "X11_SOCKET",
    text "PIPEWIRE_RUNTIME_DIR", text "PULSE_SERVER", text "RUST_LOG", text "XDG_RUNTIME_DIR"] := by
  decide +kernel

theorem serve_eq_ok {configured : ServiceSettings} {process : Process}
    (served : machine.serve host configured = .ok process) :
    ∃ selected direct, graphics host configured.toSettings .muvm = .ok selected ∧
      graphics host configured.toSettings .fex = .ok direct ∧
      process = ⟨VirtualMachine.serveArguments host configured selected.mode,
        (machine.hostEnvironment host).update direct.native⟩ := by
  unfold VirtualMachine.serve at served
  cases chosen : graphics host configured.toSettings .muvm with
  | error failure =>
      rw [chosen] at served
      cases served
  | ok selected =>
      rw [chosen] at served
      cases drivers : graphics host configured.toSettings .fex with
      | error failure =>
          rw [drivers] at served
          cases served
      | ok direct =>
          rw [drivers] at served
          cases served
          exact ⟨selected, direct, rfl, rfl, rfl⟩

/-- muvm has the machine's environment, but for the native drivers. -/
theorem get?_of_serve {configured : ServiceSettings} {process : Process}
    (served : machine.serve host configured = .ok process) {key : Text}
    (other : key ≠ text "VK_DRIVER_FILES") :
    process.environment.get? key = (machine.hostEnvironment host).get? key := by
  obtain ⟨_, direct, -, drivers, rfl⟩ := serve_eq_ok served
  exact (Dict.get?_update _ _ key).trans (by rw [get?_native drivers other, Option.none_or])

/-- The environment of the VM a caller means. Of the loader's variables it has at most the
drivers that the settings select for the host. -/
structure Served (host : Host) (manager : UserManager) (machine : VirtualMachine)
    (settings : ServiceSettings) (environment : Dict Text Text) : Prop where
  runtime : environment.get? (text "XDG_RUNTIME_DIR") = some machine.directory
  loader : ∀ key ∈ loaderVariables, key ≠ text "VK_DRIVER_FILES" → environment.get? key = none
  drivers : ∃ direct, graphics host settings.toSettings .fex = .ok direct ∧
    environment.get? (text "VK_DRIVER_FILES") = direct.native.get? (text "VK_DRIVER_FILES")
  session : ∀ key ∈ sessionKeys, key ≠ text "XDG_RUNTIME_DIR" → key ≠ text "X11_SOCKET" →
    ∀ value, machine.source.get? key = some value → environment.get? key = some value
  pulse : ∀ runtime, machine.source.get? (text "XDG_RUNTIME_DIR") = some runtime →
    text "PULSE_SERVER" ∉ machine.source → text "PULSE_SERVER" ∉ manager.environment →
    environment.get? (text "PULSE_SERVER") =
      some (text "unix:" ++ runtime ++ text "/pulse/native")
  x11 : (∀ key ∈ [text "DISPLAY", text "X11_SOCKET"],
      key ∈ machine.source ∨ key ∉ manager.environment) →
    environment.get? (text "X11_SOCKET") =
      (x11Socket host machine.source).or (machine.source.get? (text "X11_SOCKET"))

/-- A session variable that the caller or nobody sets is the caller's. -/
theorem UnitEnvironment.settled {manager : UserManager} {environ : Dict Text Text} {key : Text}
    (held : UnitEnvironment manager source environ) (listed : key ∈ sessionKeys)
    (sets : key ∈ source ∨ key ∉ manager.environment) :
    environ.get? key = source.get? key := by
  rw [held key listed]
  rcases sets with inSource | absent
  · obtain ⟨value, present⟩ := Dict.mem_iff_get?.mp inSource
    rw [present, Option.some_or]
  · rw [Dict.get?_eq_none.mpr absent, Option.or_none]

theorem hostEnvironment_loader (host : Host) {runtime key : Text}
    (stored : machine.source.get? (text "XDG_RUNTIME_DIR") = some runtime)
    (listed : key ∈ loaderVariables) : (machine.hostEnvironment host).get? key = none := by
  have plain := loaderVariables_plain key listed
  simp only [List.mem_cons, List.not_mem_nil, or_false, not_or] at plain
  obtain ⟨notX11, notPipewire, notPulse, notLog, notRuntime⟩ := plain
  rw [get?_hostEnvironment host machine stored, if_neg notX11, if_neg notPipewire,
    if_neg notPulse, if_neg notLog, if_neg notRuntime]
  unfold nativeEnvironment
  rw [Dict.get?_filter, if_neg]
  exact fun kept => of_decide_eq_true kept listed

theorem hostEnvironment_session (host : Host) {runtime key value : Text}
    (stored : machine.source.get? (text "XDG_RUNTIME_DIR") = some runtime)
    (listed : key ∈ sessionKeys) (notRuntime : key ≠ text "XDG_RUNTIME_DIR")
    (notX11 : key ≠ text "X11_SOCKET") (given : machine.source.get? key = some value) :
    (machine.hostEnvironment host).get? key = some value := by
  have notLog : key ≠ text "RUST_LOG" := by
    rintro rfl
    exact absurd listed (by decide +kernel)
  have allowed : key ∉ loaderVariables :=
    sessionKeys_allowed key (List.mem_cons_of_mem _ listed)
  rw [get?_hostEnvironment host machine stored, given, Option.getD_some, Option.getD_some,
    if_neg notX11, if_neg notLog, if_neg notRuntime, get?_nativeEnvironment _ allowed, given,
    ite_self, ite_self]

/-- What muvm gets from the service of a caller's unit. -/
theorem served_of_service {manager : UserManager} {configured : ServiceSettings}
    {environ : Dict Text Text} {process : Process}
    (created : VirtualMachine.create host settings configPath source = .ok machine)
    (held : UnitEnvironment manager source environ)
    (served : service host configured configPath environ = .ok process) :
    Served host manager machine configured process.environment := by
  obtain ⟨runtime, identity, stored, given, identified, same⟩ := create_eq_ok created
  subst same
  have unitRuntime : environ.get? (text "XDG_RUNTIME_DIR") = some runtime := by
    rw [held _ (by decide +kernel), stored, Option.some_or]
  unfold service at served
  rw [create_of_runtime unitRuntime given identified] at served
  have shown {key : Text} (other : key ≠ text "VK_DRIVER_FILES") :=
    (get?_of_serve served other).trans (get?_hostEnvironment host _ unitRuntime key)
  constructor
  · rw [shown (by decide +kernel), if_neg (by decide +kernel), if_neg (by decide +kernel),
      if_neg (by decide +kernel), if_neg (by decide +kernel), if_pos rfl]
  · intro key listed other
    exact (get?_of_serve served other).trans (hostEnvironment_loader host unitRuntime listed)
  · obtain ⟨_, direct, -, chosen, rfl⟩ := serve_eq_ok served
    refine ⟨direct, chosen, (Dict.get?_update _ _ _).trans ?_⟩
    rw [hostEnvironment_loader host unitRuntime (by decide +kernel), Option.or_none]
  · intro key listed notRuntime notX11 value given
    have inUnit : environ.get? key = some value := by
      rw [held key listed]
      exact congrArg (Option.or · _) given
    have other : key ≠ text "VK_DRIVER_FILES" := by
      rintro rfl
      exact absurd listed (by decide +kernel)
    exact (get?_of_serve served other).trans
      (hostEnvironment_session host unitRuntime listed notRuntime notX11 inUnit)
  · intro runtime' stored' absent absentManager
    cases stored.symm.trans stored'
    have inUnit : environ.get? (text "PULSE_SERVER") = none := by
      rw [held _ (by decide +kernel), Dict.get?_eq_none.mpr absent,
        Dict.get?_eq_none.mpr absentManager, Option.or_none]
    rw [shown (by decide +kernel), if_neg (by decide +kernel), if_neg (by decide +kernel),
      if_pos rfl]
    exact congrArg (fun value => some (Option.getD value _)) inUnit
  · intro settled
    have display := held.settled (by decide +kernel) (settled _ List.mem_cons_self)
    have socket := held.settled (by decide +kernel)
      (settled _ (List.mem_cons_of_mem _ List.mem_cons_self))
    rw [shown (by decide +kernel), if_pos rfl]
    change (x11Socket host environ).or (environ.get? (text "X11_SOCKET")) = _
    rw [x11Socket_congr host socket display, socket]

end Environments

/-- **The service serves the launcher's VM.** Whatever variables the user's manager has, a unit
that it starts for a launcher finds the VM with the launcher's directory, unit and socket, and
muvm gets its runtime directory there, the caller's session and of the loader's variables at most
the drivers of the host. -/
theorem service_matches {host : Host} {settings : Settings} {configPath : Text}
    {source : Dict Text Text} {machine : VirtualMachine}
    (created : VirtualMachine.create host settings configPath source = .ok machine)
    (words : CommandWords [host.pythonExecutable, host.servicePath, configPath])
    (manager : UserManager) (configured : ServiceSettings) (home : Text) (command : List Text)
    (environ : Dict Text Text)
    (starts : manager.start (machine.systemdRunArguments host home).tail =
      some (command, environ)) :
    command = [host.pythonExecutable, host.servicePath, configPath] ∧
      ∃ other, VirtualMachine.create host configured.toSettings configPath environ = .ok other ∧
        (other.directory = machine.directory ∧ other.unit = machine.unit ∧
          other.socket = machine.socket) ∧
        machine.socket = PosixPath.child machine.directory (text "krun/server") ∧
        ∀ process, service host configured configPath environ = .ok process →
          Served host manager machine configured process.environment := by
  obtain ⟨runtime, identity, stored, given, identified, same⟩ := create_eq_ok created
  subst same
  obtain ⟨same, held⟩ := unit_environment manager host _ home words starts
  have unitRuntime : environ.get? (text "XDG_RUNTIME_DIR") = some runtime := by
    rw [held _ (by decide +kernel), stored, Option.some_or]
  exact ⟨same, _, create_of_runtime unitRuntime given identified, ⟨rfl, rfl, rfl⟩, rfl,
    fun process => served_of_service created held⟩

section Sample

/-- A word that `systemd-run` takes for an option. -/
def isOption (word : Text) : Bool := word.head? == some ('-' : CodePoint)

/-- The path of a program is no option. -/
theorem not_isOption_of_isAbsolute {word : Text} (absolute : PosixPath.isAbsolute word = true) :
    ¬ isOption word = true := by
  unfold PosixPath.isAbsolute at absolute
  unfold isOption
  rw [beq_iff_eq.mp absolute]
  decide

/-- The assignment that an option makes. -/
def assignment? (option : Text) : Option (Text × Text) :=
  if (text "--setenv=").isPrefixOf option then
    some (splitEntry (option.drop (text "--setenv=").length))
  else none

/-- The variables of a VM's unit, which unsets two. -/
def assigned (environment : Dict Text Text) (options : List Text) : Dict Text Text :=
  (environment.updateEntries (options.filterMap assignment?)).filter
    fun key => key ∉ [text "LD_LIBRARY_PATH", text "LD_PRELOAD"]

def startUnit (environment : Dict Text Text) (words : List Text) :
    Option (List Text × Dict Text Text) :=
  match words.dropWhile isOption with
  | [] => none
  | program :: arguments =>
      some (program :: arguments, assigned environment (words.takeWhile isOption))

theorem isOption_unitOptions (unit home : Text) :
    ∀ option ∈ unitOptions unit home, isOption option = true := by
  have name : isOption (text "--unit=" ++ unit) = true := rfl
  have directory : isOption (text "--property=WorkingDirectory=" ++ home) = true := rfl
  unfold unitOptions
  simp only [List.forall_mem_cons, name, directory]
  decide +kernel

theorem assignment?_options (unit home : Text) {pairs : List (Text × Text)}
    (listed : ∀ pair ∈ pairs, pair.1 ∈ sessionKeys) :
    (unitOptions unit home ++ pairs.map setenvOption).filterMap assignment? = pairs := by
  have fixed : (unitOptions unit home).filterMap assignment? = [] := by
    have name : assignment? (text "--unit=" ++ unit) = none := rfl
    have directory : assignment? (text "--property=WorkingDirectory=" ++ home) = none := rfl
    apply List.filterMap_eq_nil_iff.mpr
    unfold unitOptions
    simp only [List.forall_mem_cons, name, directory]
    decide +kernel
  have each : ∀ pair ∈ pairs, assignment? (setenvOption pair) = some pair := by
    intro pair member
    have assigns : (text "--setenv=").isPrefixOf (setenvOption pair) = true :=
      List.isPrefixOf_iff_prefix.mpr (List.prefix_append _ _)
    unfold assignment?
    rw [if_pos assigns]
    unfold setenvOption
    rw [List.drop_left]
    exact congrArg some (splitEntry_entryText (sessionKeys_plain _ (listed pair member)) pair.2)
  rw [List.filterMap_append, fixed, List.nil_append, List.filterMap_map]
  exact (List.filterMap_congr each).trans List.filterMap_some

/-- A manager that starts units in an environment. -/
def managerOf (environment : Dict Text Text) : UserManager where
  environment := environment
  start := startUnit environment
  started unit home pairs words command environ listed nodup plain starts := by
    have options : ∀ option ∈ unitOptions unit home ++ pairs.map setenvOption,
        isOption option = true := by
      intro option member
      rcases List.mem_append.mp member with fixed | session
      · exact isOption_unitOptions unit home option fixed
      · obtain ⟨pair, -, rfl⟩ := List.mem_map.mp session
        rfl
    unfold startUnit at starts
    cases words with
    | nil =>
        rw [List.append_nil, List.dropWhile_eq_nil_iff.mpr options] at starts
        cases starts
    | cons program arguments =>
        have isProgram := not_isOption_of_isAbsolute (plain.program program rfl)
        rw [List.dropWhile_append_of_pos options, List.takeWhile_append_of_pos options,
          List.dropWhile_cons_of_neg isProgram, List.takeWhile_cons_of_neg isProgram,
          List.append_nil] at starts
        cases starts
        have held (key : Text) (session : key ∈ sessionKeys) :
            (assigned environment (unitOptions unit home ++ pairs.map setenvOption)).get? key =
              (Dict.get? ⟨pairs, nodup⟩ key).or (environment.get? key) := by
          have kept : ∀ key ∈ sessionKeys,
              key ∉ [text "LD_LIBRARY_PATH", text "LD_PRELOAD"] := by decide +kernel
          unfold assigned
          rw [Dict.get?_filter, if_pos (decide_eq_true (kept key session)),
            assignment?_options unit home listed]
          exact Dict.get?_update environment ⟨pairs, nodup⟩ key
        refine ⟨rfl, ?_, ?_⟩
        · intro pair member
          have stored : Dict.get? ⟨pairs, nodup⟩ pair.1 = some pair.2 :=
            Dict.mem_entries.mp member
          rw [held _ (listed pair member), stored, Option.some_or]
        · intro key session absent
          have nothing : Dict.get? ⟨pairs, nodup⟩ key = none := Dict.get?_eq_none.mpr absent
          rw [held key session, nothing, Option.none_or]

/-- A manager with a session of its own. -/
def rootManager : UserManager := managerOf (Dict.ofList
  [(text "LD_PRELOAD", text "/arm/hook.so"), (text "XDG_RUNTIME_DIR", text "/run/user/0"),
    (text "LANG", text "C")])

/-- A session of another user than the manager's variables say. -/
def sessionSource : Dict Text Text := Dict.ofList
  [(text "XDG_RUNTIME_DIR", text "/run/user/1000"), (text "DISPLAY", text ":0.1")]

def plainService : ServiceSettings where
  toSettings := plainSettings
  prepareVM := text "/prepare-vm"
  prepareSession := text "/prepare-session"
  memoryMiB := none
  sleep := text "/sleep"

/-- The VM of that session. -/
def sessionMachine (settings : Settings) : VirtualMachine :=
  ⟨settings, text "/config.json", sessionSource,
    PosixPath.child (PosixPath.child (text "/run/user/1000") (text "x86-on-arm"))
      (text "0123456789ab"),
    text "x86-on-arm-" ++ text "0123456789ab" ++ text ".service",
    PosixPath.child (PosixPath.child (PosixPath.child (text "/run/user/1000")
      (text "x86-on-arm")) (text "0123456789ab")) (text "krun/server")⟩

theorem create_sessionSource (settings : Settings) :
    VirtualMachine.create plainHost settings (text "/config.json") sessionSource =
      .ok (sessionMachine settings) :=
  create_of_runtime (by decide +kernel) (by decide) rfl

theorem words_plain :
    CommandWords [plainHost.pythonExecutable, plainHost.servicePath, text "/config.json"] where
  program := by decide +kernel
  plain := by decide +kernel

theorem rootManager_starts (settings : Settings) : ∃ command environ, rootManager.start
    ((sessionMachine settings).systemdRunArguments plainHost (text "/home/user")).tail =
      some (command, environ) :=
  ⟨_, _, rfl⟩

theorem service_matches_session : ∃ (other : VirtualMachine) (environ : Dict Text Text),
    rootManager.start ((sessionMachine plainSettings).systemdRunArguments plainHost
        (text "/home/user")).tail =
      some ([text "/python3", text "/service.py", text "/config.json"], environ) ∧
    VirtualMachine.create plainHost plainSettings (text "/config.json") environ = .ok other ∧
    other.socket = text "/run/user/1000/x86-on-arm/0123456789ab/krun/server" := by
  obtain ⟨command, environ, starts⟩ := rootManager_starts plainSettings
  obtain ⟨rfl, other, again, ⟨-, -, same⟩, -, -⟩ :=
    service_matches (create_sessionSource plainSettings) words_plain rootManager plainService
      (text "/home/user") command environ starts
  exact ⟨other, environ, starts, again, same.trans (by decide +kernel)⟩

end Sample

end X86OnArm.Runtime
