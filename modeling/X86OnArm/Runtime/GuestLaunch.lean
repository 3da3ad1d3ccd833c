import X86OnArm.Runtime.CommandScript
import X86OnArm.Runtime.EnvironmentDomains

/-! # What a launch comes to in the guest

Through the launcher's environment, its script and the shells behind it, a launch starts the
program that was prepared on exactly its arguments, and a variable of the caller that the
runtime does not keep for itself has the caller's value there (`guest_of_execute`). A bash that
finds some variables at its start runs or changes something before its script; what then happens
is left open (`guestLaunch`).
-/

namespace X86OnArm.Runtime

open Foundation Foundation.Shell

section Environment

variable {host : Host} {settings : Settings} {source env : Dict Text Text} {backend : Backend}
  {key : Text}

/-- The names that the runtime assigns itself. -/
def assignedNames : List Text :=
  [text "PATH", text "LANG", text "LC_ALL", text "FEX_ROOTFS", text "FEX_THUNKCONFIG",
    text "XDG_DATA_DIRS", text "SSL_CERT_FILE", text "LIBGL_DRIVERS_PATH",
    text "__EGL_VENDOR_LIBRARY_DIRS", text "VK_DRIVER_FILES", text "PULSE_SERVER",
    text "DBUS_SESSION_BUS_ADDRESS", text "SDL_AUDIODRIVER",
    text "MESA_LOADER_DRIVER_OVERRIDE", text "LIBGL_ALWAYS_SOFTWARE", text "GALLIUM_DRIVER"]

theorem mem_assignedNames {selected : Graphics}
    (assigned : key ∈ (guestAssignments host settings source backend selected).map Prod.fst) :
    key ∈ assignedNames := by
  have defaults : (guestDefaults settings source).map Prod.fst = assignedNames.take 9 := rfl
  have vm : ∃ count, (vmGuestVariables host.uid selected.mode).map Prod.fst =
      (assignedNames.drop 10).take count := by
    cases selected.mode with
    | venus => exact ⟨4, rfl⟩
    | software => exact ⟨6, rfl⟩
    | _ => exact ⟨3, rfl⟩
  unfold guestAssignments at assigned
  rw [List.map_append, List.map_append, defaults, List.mem_append, List.mem_append] at assigned
  rcases assigned with (fixed | listed) | inVm
  · exact List.mem_of_mem_take fixed
  · split at listed
    · rw [List.mem_singleton.mp listed]
      change text "VK_DRIVER_FILES" ∈ assignedNames
      decide +kernel
    · cases listed
  · split at inVm
    · obtain ⟨count, names⟩ := vm
      rw [names] at inVm
      exact List.mem_of_mem_drop (List.mem_of_mem_take inVm)
    · cases inVm

/-- The names that are not the caller's to set. -/
def runtimeNames : List Text :=
  loaderVariables ++ vmVariables ++ assignedNames ++ [text "FEX_APP_CONFIG", text "FEX_HOSTENV"]

/-- A variable that the runtime does not keep for itself is the configuration's or the
caller's. -/
theorem get?_applicationEnvironment
    (returned : applicationEnvironment host settings source backend = .ok env)
    (others : key ∉ runtimeNames) :
    env.get? key = (settings.environment.get? key).or (source.get? key) := by
  unfold runtimeNames at others
  rw [List.mem_append, List.mem_append, List.mem_append, not_or, not_or, not_or] at others
  obtain ⟨⟨⟨loader, vm⟩, free⟩, config⟩ := others
  obtain ⟨notConfig, notHost⟩ := List.ne_and_not_mem_of_not_mem_cons config
  rw [List.mem_singleton] at notHost
  have kept : key ∉ omitted backend := not_mem_omitted loader vm
  have guest (selected : Graphics) :
      (guestVariables host settings source backend selected).get? key =
        (settings.environment.get? key).or (source.get? key) := by
    unfold guestVariables
    rw [Dict.get?_update, Dict.get?_updateEntries_of_not_mem _ fun member =>
      free (mem_assignedNames member), Dict.get?_filter, if_pos (decide_eq_true kept)]
  unfold applicationEnvironment guestEnvironment at returned
  cases chosen : graphics host settings backend with
  | error failure =>
      rw [chosen] at returned
      cases returned
  | ok selected =>
      rw [chosen] at returned
      simp only [bind, Except.bind, pure, Except.pure] at returned
      have configured := guest selected
      split at returned
      · cases returned
        rw [Dict.get?_setDefault, if_neg notConfig, configured]
      · split at returned
        · cases returned
          rw [Dict.get?_setDefault, if_neg notConfig, configured]
        · cases returned
          rw [Dict.get?_setDefault, if_neg notHost, Dict.get?_setDefault, if_neg notConfig,
            configured]

end Environment

section Shells

/-- The names of variables that bash acts on when it starts; a function that is handed down is
one with a prefix. -/
def startupNames : List Text :=
  [text "BASH_ENV", text "ENV", text "SHELLOPTS", text "BASHOPTS", text "POSIXLY_CORRECT",
    text "POSIX_PEDANTIC", text "BASH_COMPAT"]

def isStartup (key : Text) : Bool :=
  key ∈ startupNames || (text "BASH_FUNC_").isPrefixOf key

/-- Bash starts with its script in this environment. -/
def StartsPlain (environment : Dict Text Text) : Prop :=
  ∀ key ∈ environment, isStartup key = false

instance (environment : Dict Text Text) : Decidable (StartsPlain environment) :=
  inferInstanceAs (Decidable (∀ key ∈ environment.keys, isStartup key = false))

/-- What the guest starts for a script, where the shell that reads it is started in an
environment. There is no answer if that shell or the bash behind it acts on a variable first. -/
def guestLaunch (outer : Dict Text Text) (enter : Text → Bool) (script : Text) : Option Launch :=
  if StartsPlain outer then
    (transport outer.get? outer enter script).filter fun launch =>
      decide (StartsPlain launch.environment)
  else none

theorem guestLaunch_of_transport {outer : Dict Text Text} {enter : Text → Bool} {script : Text}
    {launch : Launch} (plainOuter : StartsPlain outer)
    (transported : transport outer.get? outer enter script = some launch)
    (plainInner : StartsPlain launch.environment) :
    guestLaunch outer enter script = some launch := by
  unfold guestLaunch
  rw [if_pos plainOuter, transported]
  exact if_pos (decide_eq_true plainInner)

theorem runtimeNames_plain : ∀ name ∈ runtimeNames, isStartup name = false := by decide +kernel

theorem bridgedKeys_plain : ∀ key ∈ bridgedKeys, isStartup key = false := by decide +kernel

/-- The runtime adds no variable that bash acts on. -/
theorem startsPlain_applicationEnvironment {host : Host} {settings : Settings}
    {source env : Dict Text Text} {backend : Backend}
    (returned : applicationEnvironment host settings source backend = .ok env)
    (plain : StartsPlain source) (configured : StartsPlain settings.environment) :
    StartsPlain env := by
  intro key member
  by_cases kept : key ∈ runtimeNames
  · exact runtimeNames_plain key kept
  obtain ⟨value, stored⟩ := Dict.mem_iff_get?.mp member
  rw [get?_applicationEnvironment returned kept] at stored
  cases given : settings.environment.get? key with
  | some value => exact configured key (Dict.mem_iff_get?.mpr ⟨value, given⟩)
  | none =>
      rw [given, Option.none_or] at stored
      exact plain key (Dict.mem_iff_get?.mpr ⟨value, stored⟩)

theorem startsPlain_update {environment other : Dict Text Text} (one : StartsPlain environment)
    (more : StartsPlain other) : StartsPlain (environment.update other) := fun key member =>
  (Dict.mem_update.mp member).elim (one key) (more key)

/-- The variables the script passes on are none that bash acts on. -/
theorem startsPlain_inherited (bridge : Bool) (shellVariable : Text → Option Text) :
    StartsPlain (Dict.ofList (inheritedVariables bridge shellVariable)) := by
  intro key member
  have listed : key ∈ (inheritedVariables bridge shellVariable).map Prod.fst :=
    (Dict.mem_updateEntries.mp member).resolve_left List.not_mem_nil
  cases bridge with
  | false => exact absurd listed List.not_mem_nil
  | true =>
      have names : (inheritedVariables true shellVariable).map Prod.fst = bridgedKeys := rfl
      exact bridgedKeys_plain key (names ▸ listed)

end Shells

section Launches

variable {host : Host} {settings : Settings} {launcher : Launcher} {command : Command}
  {arguments : List Text} {source : Dict Text Text} {prepared : Prepared}

theorem prepare_eq_ok
    (prepares : prepare host settings launcher command arguments source = .ok prepared) :
    backendFor settings.backend host.pagesize = .ok prepared.backend ∧
      launchTarget host settings launcher command arguments source = .ok prepared.target ∧
      applicationEnvironment host settings source prepared.backend = .ok prepared.environment := by
  unfold prepare at prepares
  cases chosen : backendFor settings.backend host.pagesize with
  | error failure =>
      rw [chosen] at prepares
      cases prepares
  | ok backend =>
      cases found : launchTarget host settings launcher command arguments source with
      | error failure =>
          simp only [bind, Except.bind, chosen, found] at prepares
          cases prepares
      | ok target =>
          cases built : applicationEnvironment host settings source backend with
          | error failure =>
              simp only [bind, Except.bind, chosen, found, built] at prepares
              cases prepares
          | ok environment =>
              simp only [bind, Except.bind, chosen, found, built] at prepares
              cases prepares
              exact ⟨rfl, rfl, built⟩

/-- A launch ends in the VM or without one, on what was prepared. -/
theorem execute_eq_ok {configPath : Text} {invocation : Invocation}
    (prepares : prepare host settings launcher command arguments source = .ok prepared)
    (executed : (execute host settings configPath launcher command arguments source).result =
      .ok invocation) :
    (prepared.backend = .muvm ∧ ∃ machine, invocation =
        vmInvocation host settings launcher machine prepared.target prepared.environment) ∨
      (prepared.backend ≠ .muvm ∧ invocation =
        directInvocation settings launcher source prepared.target prepared.environment) := by
  unfold execute at executed
  rw [prepares] at executed
  simp only at executed
  split at executed
  · rename_i inVm
    unfold executeInVm at executed
    cases created : VirtualMachine.create host settings configPath source with
    | error failure =>
        rw [created] at executed
        cases executed
    | ok machine =>
        rw [created] at executed
        simp only at executed
        cases ensured : (machine.ensure host).2 with
        | error failure =>
            rw [ensured] at executed
            cases executed
        | ok ready =>
            rw [ensured] at executed
            cases executed
            exact .inl ⟨inVm, machine, rfl⟩
  · rename_i direct
    cases executed
    exact .inr ⟨direct, rfl⟩

/-- What a launch comes to in the guest, where no environment has a variable that bash acts on. -/
theorem guest_of_execute {configPath : Text} {invocation : Invocation}
    (prepares : prepare host settings launcher command arguments source = .ok prepared)
    (executed : (execute host settings configPath launcher command arguments source).result =
      .ok invocation)
    (free : NulFreeCommand prepared.target.program prepared.target.argv0
      prepared.target.arguments prepared.environment launcher.cwd)
    (keys : ∀ key ∈ prepared.environment, key ≠ [] ∧ ('=' : CodePoint) ∉ key)
    (absolute : launcher.cwd.head? = some ('/' : CodePoint))
    (plain : StartsPlain source) (configured : StartsPlain settings.environment)
    {outer : Dict Text Text} (plainOuter : StartsPlain outer) {enter : Text → Bool}
    (entered : enter launcher.cwd = true) :
    ∃ launch, guestLaunch outer enter invocation.script.contents = some launch ∧
      launch.directory = some launcher.cwd ∧
      launch.replacement =
        ⟨prepared.target.argv0, prepared.target.program, prepared.target.arguments⟩ ∧
      ∀ key value, key ∉ runtimeNames → source.get? key = some value →
        launch.environment.get? key = (settings.environment.get? key).or (some value) := by
  obtain ⟨-, -, built⟩ := prepare_eq_ok prepares
  have script : ∃ bridge, invocation.script =
      launchScript launcher prepared.target prepared.environment bridge := by
    rcases execute_eq_ok prepares executed with ⟨-, machine, rfl⟩ | ⟨-, rfl⟩
    · exact ⟨true, rfl⟩
    · exact ⟨false, rfl⟩
  obtain ⟨bridge, script⟩ := script
  rw [script]
  have plainInner := startsPlain_update (startsPlain_inherited bridge outer.get?)
    (startsPlain_applicationEnvironment built plain configured)
  have transported := transport_entered bridge free keys absolute outer.get? outer entered
  refine ⟨_, guestLaunch_of_transport plainOuter transported plainInner, rfl, rfl, ?_⟩
  intro key value others stored
  have kept := get?_applicationEnvironment built others
  rw [stored] at kept
  rw [get?_guest, kept, Option.or_assoc, Option.some_or]

end Launches

end X86OnArm.Runtime
