import X86OnArm.Foundation.Outcome
import X86OnArm.Runtime.Execute

/-! # Loader state stays with the host

A launch sees its caller's environment through the filter of `nativeEnvironment`
and at keys that pass it. So a relation between two filtered environments that
every dictionary operation respects carries over to the launches
(`execute_related`); for equality, and for equality up to order, this is
`execute_domains`.
-/

namespace X86OnArm.Runtime

open Foundation

theorem get?_nativeEnvironment (source : Dict Text Text) {key : Text}
    (allowed : key ∉ loaderVariables) : (nativeEnvironment source).get? key = source.get? key := by
  unfold nativeEnvironment
  rw [Dict.get?_filter, if_pos (decide_eq_true allowed)]

private theorem filter_omitted (source : Dict Text Text) (backend : Backend) :
    (source.filter fun key => key ∉ omitted backend) =
      (nativeEnvironment source).filter fun key => key ∉ omitted backend := by
  unfold nativeEnvironment
  rw [Dict.filter_filter]
  apply Dict.filter_congr
  intro key
  rw [← Bool.decide_and, decide_eq_decide]
  unfold omitted
  split
  · simp only [List.mem_append, not_or]
    tauto
  · exact (and_self_iff).symm

/-- The keys at which a launch reads its caller's environment. -/
theorem sessionKeys_allowed : ∀ key ∈ text "HOME" :: sessionKeys, key ∉ loaderVariables := by
  decide +kernel

section Guest

variable {related : Dict Text Text → Dict Text Text → Prop} {host : Host} {settings : Settings}
  {backend : Backend} {first second : Dict Text Text}

private theorem guestAssignments_congr (path : first.get? (text "PATH") = second.get? (text "PATH"))
    (data : first.get? (text "XDG_DATA_DIRS") = second.get? (text "XDG_DATA_DIRS"))
    (selected : Graphics) :
    guestAssignments host settings first backend selected =
      guestAssignments host settings second backend selected := by
  unfold guestAssignments guestDefaults
  rw [path, data]

theorem not_mem_omitted {key : Text} (loader : key ∉ loaderVariables) (vm : key ∉ vmVariables) :
    key ∉ omitted backend := by
  unfold omitted
  split
  · simp only [List.mem_append, not_or]
    exact ⟨loader, vm⟩
  · exact loader

/-- The guest's environment depends on the caller through the kept variables. -/
theorem guestEnvironment_related (congruent : Dict.Congruence related)
    (same : related (first.filter fun key => key ∉ omitted backend)
      (second.filter fun key => key ∉ omitted backend)) :
    SameOutcome related (guestEnvironment host settings first backend)
      (guestEnvironment host settings second backend) := by
  have kept {key : Text} (allowed : key ∉ omitted backend) :
      first.get? key = second.get? key := by
    have agree := congruent.get? same key
    rwa [Dict.get?_filter, Dict.get?_filter, if_pos (decide_eq_true allowed),
      if_pos (decide_eq_true allowed)] at agree
  have path : first.get? (text "PATH") = second.get? (text "PATH") :=
    kept (not_mem_omitted (by decide +kernel) (by decide +kernel))
  have data : first.get? (text "XDG_DATA_DIRS") = second.get? (text "XDG_DATA_DIRS") :=
    kept (not_mem_omitted (by decide +kernel) (by decide +kernel))
  unfold guestEnvironment
  apply SameOutcome.bind (SameOutcome.refl (fun _ => rfl) (graphics host settings backend))
  rintro selected _ rfl
  apply SameOutcome.ok
  unfold guestVariables
  rw [guestAssignments_congr path data]
  exact congruent.update (congruent.updateEntries same _) (congruent.refl _)

/-- A variable of the caller reaches the guest unless the guest or the configuration
has its own. -/
theorem get?_guestVariables_of_source {key value : Text} {selected : Graphics}
    (stored : first.get? key = some value) (allowed : key ∉ omitted backend)
    (unassigned : key ∉ (guestAssignments host settings first backend selected).map Prod.fst)
    (unconfigured : key ∉ settings.environment) :
    (guestVariables host settings first backend selected).get? key = some value := by
  unfold guestVariables
  rw [Dict.get?_update, Dict.get?_eq_none.mpr unconfigured, Option.none_or,
    Dict.get?_updateEntries_of_not_mem _ unassigned, Dict.get?_filter,
    if_pos (decide_eq_true allowed), stored]

private theorem get?_guestVariables_of_configured {key value : Text} {selected : Graphics}
    (configured : settings.environment.get? key = some value) :
    (guestVariables host settings first backend selected).get? key = some value := by
  unfold guestVariables
  rw [Dict.get?_update, configured, Option.some_or]

theorem guestEnvironment_eq_ok {guest : Dict Text Text}
    (returned : guestEnvironment host settings first backend = .ok guest) :
    ∃ selected, graphics host settings backend = .ok selected ∧
      guest = guestVariables host settings first backend selected := by
  unfold guestEnvironment at returned
  cases outcome : graphics host settings backend with
  | error failure =>
      rw [outcome] at returned
      cases returned
  | ok selected =>
      rw [outcome] at returned
      cases returned
      exact ⟨selected, rfl, rfl⟩

end Guest

section Launches

variable {related : Dict Text Text → Dict Text Text → Prop} {host : Host} {settings : Settings}
  {configPath : Text} {launcher : Launcher} {command : Command} {arguments : List Text}
  {backend : Backend} {first second : Dict Text Text}

private theorem applicationEnvironment_related (congruent : Dict.Congruence related)
    (same : related (nativeEnvironment first) (nativeEnvironment second)) :
    SameOutcome related (applicationEnvironment host settings first backend)
      (applicationEnvironment host settings second backend) := by
  have guests : SameOutcome related (guestEnvironment host settings first backend)
      (guestEnvironment host settings second backend) := by
    apply guestEnvironment_related congruent
    rw [filter_omitted first, filter_omitted second]
    exact congruent.filter same _
  unfold applicationEnvironment
  apply guests.bind
  intro firstGuest secondGuest same
  have configured := congruent.setDefault same (text "FEX_APP_CONFIG") settings.nativeConfig
  apply SameOutcome.bind (SameOutcome.refl (fun _ => rfl) (graphics host settings backend))
  rintro selected _ rfl
  cases selected.native.get? (text "VK_DRIVER_FILES") with
  | none => exact .ok configured
  | some manifests =>
      by_cases overridden : text "VK_DRIVER_FILES" ∈ settings.nativeEnvironment
      · simp only [if_pos overridden]
        exact .ok configured
      · simp only [if_neg overridden]
        exact .ok (congruent.setDefault configured _ _)

private theorem launchTarget_congr (path : first.get? (text "PATH") = second.get? (text "PATH")) :
    launchTarget host settings launcher command arguments first =
      launchTarget host settings launcher command arguments second := by
  unfold launchTarget resolveProgram execPath
  rw [path]

variable (host) in
theorem x11Socket_congr (socket : first.get? (text "X11_SOCKET") = second.get? (text "X11_SOCKET"))
    (display : first.get? (text "DISPLAY") = second.get? (text "DISPLAY")) :
    x11Socket host first = x11Socket host second := by
  unfold x11Socket
  rw [socket, display]

variable (host settings configPath) in
/-- The VMs of two callers with the same session variables. -/
theorem create_same
    (session : ∀ key ∈ text "HOME" :: sessionKeys, first.get? key = second.get? key) :
    SameOutcome (fun one other => one.SameService other ∧ one.source = first ∧
        other.source = second)
      (VirtualMachine.create host settings configPath first)
      (VirtualMachine.create host settings configPath second) := by
  have runtime := session (text "XDG_RUNTIME_DIR") (by decide +kernel)
  unfold VirtualMachine.create
  rw [runtime]
  by_cases missing : (second.get? (text "XDG_RUNTIME_DIR")).getD [] = []
  · simp only [if_pos missing]
    exact .error _
  · simp only [if_neg missing]
    apply SameOutcome.bind (SameOutcome.refl (fun _ => rfl) (host.identity configPath))
    rintro identity _ rfl
    exact .ok ⟨⟨rfl, rfl, rfl, rfl, rfl, session⟩, rfl, rfl⟩

private theorem hostEnvironment_related (congruent : Dict.Congruence related)
    {one other : VirtualMachine} (service : one.SameService other)
    (same : related (nativeEnvironment one.source) (nativeEnvironment other.source)) :
    related (one.hostEnvironment host) (other.hostEnvironment host) := by
  have runtime := service.source (text "XDG_RUNTIME_DIR") (by decide +kernel)
  have socket := x11Socket_congr host
    (service.source (text "X11_SOCKET") (by decide +kernel))
    (service.source (text "DISPLAY") (by decide +kernel))
  unfold VirtualMachine.hostEnvironment
  rw [runtime, socket, service.directory]
  have defaults := congruent.setDefault (congruent.setDefault (congruent.setDefault
    (congruent.insert same (text "XDG_RUNTIME_DIR") other.directory) (text "RUST_LOG")
    (text "init_or_kernel=error")) (text "PULSE_SERVER") (text "unix:" ++
      (other.source.get? (text "XDG_RUNTIME_DIR")).getD [] ++ text "/pulse/native"))
    (text "PIPEWIRE_RUNTIME_DIR") ((other.source.get? (text "XDG_RUNTIME_DIR")).getD [])
  cases x11Socket host other.source with
  | none => exact defaults
  | some path => exact congruent.insert defaults _ _

theorem mesaControls_congr (same : ∀ key ∈ mesaKeys, first.get? key = second.get? key) :
    mesaControls first = mesaControls second := by
  unfold mesaControls
  apply List.filterMap_congr
  intro key member
  rw [same key member]

theorem vmControls_related (congruent : Dict.Congruence related) (same : related first second) :
    related (vmControls first) (vmControls second) := by
  unfold vmControls
  rw [mesaControls_congr fun key _ => congruent.get? same key]
  exact congruent.updateEntries (congruent.filter same _) _

/-- Processes with the same arguments and related environments. -/
structure Process.Related (related : Dict Text Text → Dict Text Text → Prop)
    (first second : Process) : Prop where
  arguments : first.arguments = second.arguments
  environment : related first.environment second.environment

/-- Invocations on the same script up to its assignments, with the same arguments up
to the options that set variables, in related environments. -/
structure Invocation.Related (related : Dict Text Text → Dict Text Text → Prop)
    (first second : Invocation) : Prop where
  script : ∃ launcher target bridge env other, related env other ∧
    first.script = launchScript launcher target env bridge ∧
    second.script = launchScript launcher target other bridge
  arguments : ∃ before controls other after, related controls other ∧
    first.process.arguments = before ++ setOptions controls ++ after ∧
    second.process.arguments = before ++ setOptions other ++ after
  environment : related first.process.environment second.process.environment

/-- Launches that start related processes and end alike. -/
structure Execution.Related (related : Dict Text Text → Dict Text Text → Prop)
    (first second : Execution) : Prop where
  started : List.Forall₂ (Process.Related related) first.started second.started
  result : SameOutcome (Invocation.Related related) first.result second.result

private theorem Process.Related.eq {first second : Process} (same : first.Related Eq second) :
    first = second := by
  obtain ⟨arguments, environment⟩ := first
  obtain ⟨rfl, rfl⟩ := same
  rfl

private theorem Invocation.Related.eq {first second : Invocation} (same : first.Related Eq second) :
    first = second := by
  obtain ⟨⟨_, _, _, env, _, rfl, script, other⟩, ⟨_, _, _, _, rfl, arguments, others⟩,
    environment⟩ := same
  obtain ⟨firstScript, firstArguments, firstEnvironment⟩ := first
  obtain ⟨secondScript, secondArguments, secondEnvironment⟩ := second
  cases script.trans other.symm
  cases arguments.trans others.symm
  cases environment
  rfl

private theorem Execution.Related.eq {first second : Execution} (same : first.Related Eq second) :
    first = second := by
  obtain ⟨started, result⟩ := first
  have processes := List.forall₂_eq_eq_eq ▸ same.started.imp fun _ _ => Process.Related.eq
  have results := (same.result.mono fun _ _ => Invocation.Related.eq).eq
  cases processes
  cases results
  rfl

variable (host settings launcher command arguments) in
private theorem prepare_related (congruent : Dict.Congruence related)
    (same : related (nativeEnvironment first) (nativeEnvironment second)) :
    SameOutcome (fun one other => one.backend = other.backend ∧ one.target = other.target ∧
        related one.environment other.environment)
      (prepare host settings launcher command arguments first)
      (prepare host settings launcher command arguments second) := by
  have path : first.get? (text "PATH") = second.get? (text "PATH") := by
    have allowed : text "PATH" ∉ loaderVariables := by decide +kernel
    rw [← get?_nativeEnvironment first allowed, ← get?_nativeEnvironment second allowed,
      congruent.get? same]
  unfold prepare
  rw [launchTarget_congr path]
  apply SameOutcome.bind (SameOutcome.refl (fun _ => rfl) (backendFor _ _))
  rintro backend _ rfl
  apply SameOutcome.bind (SameOutcome.refl (fun _ => rfl) (launchTarget _ _ _ _ _ _))
  rintro target _ rfl
  apply SameOutcome.bind (applicationEnvironment_related congruent same)
  intro env other agree
  exact .ok ⟨rfl, rfl, agree⟩

private theorem directInvocation_related (congruent : Dict.Congruence related)
    (same : related (nativeEnvironment first) (nativeEnvironment second)) (target : Target)
    {env other : Dict Text Text} (agree : related env other) :
    (directInvocation settings launcher first target env).Related related
      (directInvocation settings launcher second target other) where
  script := ⟨launcher, target, false, env, other, agree, rfl, rfl⟩
  arguments := ⟨fexArguments settings launcher.scriptPath, Dict.empty, Dict.empty, [],
    congruent.refl _, rfl, rfl⟩
  environment := congruent.update same (congruent.filter agree _)

private theorem vmInvocation_related (congruent : Dict.Congruence related)
    {one machine : VirtualMachine} (service : one.SameService machine)
    (same : related (nativeEnvironment one.source) (nativeEnvironment machine.source))
    (target : Target) {env other : Dict Text Text} (agree : related env other) :
    (vmInvocation host settings launcher one target env).Related related
      (vmInvocation host settings launcher machine target other) where
  script := ⟨launcher, target, true, env, other, agree, rfl, rfl⟩
  arguments := ⟨_, _, _, _, vmControls_related congruent agree, rfl, rfl⟩
  environment := congruent.update (hostEnvironment_related congruent service same)
    (vmControls_related congruent agree)

private theorem executeInVm_related (congruent : Dict.Congruence related)
    (session : ∀ key ∈ text "HOME" :: sessionKeys, first.get? key = second.get? key)
    (same : related (nativeEnvironment first) (nativeEnvironment second)) (target : Target)
    {env other : Dict Text Text} (agree : related env other) :
    (executeInVm host settings configPath launcher first target env).Related related
      (executeInVm host settings configPath launcher second target other) := by
  have machines := create_same host settings configPath session
  unfold executeInVm
  obtain ⟨failure, failed, fails⟩ | ⟨one, machine, ⟨service, rfl, rfl⟩, created, creates⟩ :=
    machines.failed_or_returned
  · rw [failed, fails]
    exact ⟨.nil, .error failure⟩
  · obtain ⟨vectors, outcome, ensured, ensures⟩ :=
      VirtualMachine.ensure_same host service
    simp only [created, creates, ensured, ensures]
    refine ⟨?_, ?_⟩
    · rw [List.forall₂_map_left_iff, List.forall₂_map_right_iff]
      exact List.forall₂_same.mpr fun arguments _ => ⟨rfl, same⟩
    · exact (SameOutcome.refl (fun _ => rfl) outcome).map fun _ _ _ =>
        vmInvocation_related congruent service same target agree

/-- Related native environments lead to related launches. -/
theorem execute_related (congruent : Dict.Congruence related)
    (same : related (nativeEnvironment first) (nativeEnvironment second)) :
    (execute host settings configPath launcher command arguments first).Related related
      (execute host settings configPath launcher command arguments second) := by
  have session : ∀ key ∈ text "HOME" :: sessionKeys, first.get? key = second.get? key := by
    intro key member
    have allowed := sessionKeys_allowed key member
    rw [← get?_nativeEnvironment first allowed, ← get?_nativeEnvironment second allowed,
      congruent.get? same]
  have prepared := prepare_related host settings launcher command arguments congruent same
  unfold execute
  obtain ⟨failure, failed, fails⟩ | ⟨one, other, ⟨backends, targets, agree⟩, one_eq, other_eq⟩ :=
    prepared.failed_or_returned
  · rw [failed, fails]
    exact ⟨.nil, .error failure⟩
  · simp only [one_eq, other_eq, backends, targets]
    by_cases vm : other.backend = .muvm
    · rw [if_pos vm, if_pos vm]
      exact executeInVm_related congruent session same other.target agree
    · rw [if_neg vm, if_neg vm]
      exact ⟨.nil, .ok (directInvocation_related congruent same other.target agree)⟩

/-- **Loader state stays with the host.** Callers that agree on every variable
outside the loader domain make the same launch up to the order in which they list
these variables, and the very same one when they list them in one order; a guest
in the VM does not depend on the session variables either. Every other variable
of the caller reaches the guest unless the guest or the configuration has its own,
and every configured variable reaches it. -/
theorem execute_domains (host : Host) (settings : Settings) (configPath : Text)
    (launcher : Launcher) (command : Command) (arguments : List Text) :
    (∀ first second : Dict Text Text,
      (∀ key, key ∉ loaderVariables → first.get? key = second.get? key) →
        (execute host settings configPath launcher command arguments first).Related Dict.Agrees
          (execute host settings configPath launcher command arguments second) ∧
        (nativeEnvironment first = nativeEnvironment second →
          execute host settings configPath launcher command arguments first =
            execute host settings configPath launcher command arguments second)) ∧
    (∀ first second : Dict Text Text,
      (∀ key, key ∉ loaderVariables → key ∉ vmVariables → first.get? key = second.get? key) →
        SameOutcome Dict.Agrees (guestEnvironment host settings first .muvm)
          (guestEnvironment host settings second .muvm) ∧
        ((first.filter fun key => key ∉ omitted .muvm) =
            (second.filter fun key => key ∉ omitted .muvm) →
          guestEnvironment host settings first .muvm =
            guestEnvironment host settings second .muvm)) ∧
    ∀ (source guest : Dict Text Text) (backend : Backend),
      guestEnvironment host settings source backend = .ok guest →
        (∀ key value, source.get? key = some value → key ∉ omitted backend →
          key ∉ settings.environment →
          (∀ selected, graphics host settings backend = .ok selected →
            key ∉ (guestAssignments host settings source backend selected).map Prod.fst) →
          guest.get? key = some value) ∧
        ∀ key value, settings.environment.get? key = some value →
          guest.get? key = some value := by
  refine ⟨?_, ?_, ?_⟩
  · intro first second agree
    refine ⟨?_, ?_⟩
    · apply execute_related Dict.Congruence.agrees
      exact Dict.agrees_filter fun key kept => agree key (of_decide_eq_true kept)
    · intro same
      exact (execute_related Dict.Congruence.eq same).eq
  · intro first second agree
    refine ⟨?_, ?_⟩
    · apply guestEnvironment_related Dict.Congruence.agrees
      apply Dict.agrees_filter
      intro key kept
      have outside : key ∉ loaderVariables ++ vmVariables := of_decide_eq_true kept
      rw [List.mem_append, not_or] at outside
      exact agree key outside.1 outside.2
    · intro same
      exact (guestEnvironment_related Dict.Congruence.eq same).eq
  · intro source guest backend returned
    obtain ⟨selected, selects, rfl⟩ := guestEnvironment_eq_ok returned
    refine ⟨?_, ?_⟩
    · intro key value stored allowed unconfigured unassigned
      exact get?_guestVariables_of_source stored allowed (unassigned selected selects) unconfigured
    · intro key value configured
      exact get?_guestVariables_of_configured configured

end Launches

/-- A host with pages of 4096 bytes, no drivers and empty directories. -/
def plainHost : Host where
  pagesize := 4096
  uid := 1000
  euid := 1000
  drivers := []
  listing := fun _ => []
  socketAt := fun _ => none
  isDecimal := fun c => c ∈ text "0123456789"
  fileExists := fun _ => false
  executable := fun _ => false
  header := fun _ => .ok []
  passwordHome := none
  kvmAccess := true
  identity := fun _ => .ok (text "0123456789ab")
  lockDirectory := fun _ => .ok ()
  answers := fun _ _ => true
  resetFailed := .ok 0
  systemdRun := .ok 0
  isActive := fun _ => .ok 0
  clock := {
    deadlineFrom := 0
    checkFrom := 0
    head := fun round => 100 * round
    check := fun round => 100 * round
    checked := fun round => 100 * round
    sleeps := fun round => by omega }
  pythonExecutable := text "/python3"
  servicePath := text "/service.py"

def plainSettings : Settings where
  backend := .auto
  gpuMode := .venus
  allowSoftwareRendering := false
  rootfs := text "/image"
  nativeVulkanDirectory := text "/mesa"
  thunkConfig := text "/thunks.json"
  nativeConfig := text "/native.json"
  environment := Dict.empty
  nativeEnvironment := Dict.empty
  fex := text "/FEXBash"
  muvm := text "/muvm"
  systemctl := text "/systemctl"
  systemdRun := text "/systemd-run"

def plainLauncher : Launcher := ⟨text "/", false, text "/tmp/x86-on-arm-0/command.sh"⟩

/-- Two variables a launch keeps, and a loader variable one caller has. -/
def ascending : Dict Text Text := ⟨[(text "A", text "1"), (text "B", text "2")], by decide⟩

def descending : Dict Text Text := ⟨[(text "B", text "2"), (text "A", text "1")], by decide⟩

def loaded : Dict Text Text :=
  ⟨[(text "LD_PRELOAD", text "/arm/hook.so"), (text "A", text "1"), (text "B", text "2")],
    by decide⟩

/-- The text of a launch's script. -/
def Execution.scriptText (execution : Execution) : Option Text :=
  execution.result.toOption.map fun invocation => invocation.script.contents

/-- The script lists the variables in the caller's order. -/
theorem execute_keeps_order :
    (∀ key, ascending.get? key = descending.get? key) ∧
    (execute plainHost plainSettings (text "/config.json") plainLauncher .shell []
        ascending).scriptText ≠
      (execute plainHost plainSettings (text "/config.json") plainLauncher .shell []
        descending).scriptText :=
  ⟨Dict.agrees_iff.mp (List.Perm.swap _ _ _), by decide +kernel⟩

theorem execute_domains_sample :
    execute plainHost plainSettings (text "/config.json") plainLauncher .shell [] loaded =
      execute plainHost plainSettings (text "/config.json") plainLauncher .shell [] ascending ∧
    ∀ guest, guestEnvironment plainHost plainSettings loaded .muvm = .ok guest →
      guest.get? (text "A") = some (text "1") := by
  have domains := execute_domains plainHost plainSettings (text "/config.json") plainLauncher
    .shell []
  have same : nativeEnvironment loaded = nativeEnvironment ascending := by
    apply Dict.ext
    decide +kernel
  have agree (key : Text) (allowed : key ∉ loaderVariables) :
      loaded.get? key = ascending.get? key := by
    rw [← get?_nativeEnvironment loaded allowed, ← get?_nativeEnvironment ascending allowed, same]
  refine ⟨(domains.1 loaded ascending agree).2 same, ?_⟩
  intro guest returned
  apply (domains.2.2 loaded guest .muvm returned).1 (text "A") (text "1")
  · decide +kernel
  · decide +kernel
  · decide +kernel
  · intro selected selects
    have venus : graphics plainHost plainSettings .muvm = .ok ⟨.venus, [], Dict.empty⟩ := rfl
    cases venus.symm.trans selects
    decide +kernel

end X86OnArm.Runtime
