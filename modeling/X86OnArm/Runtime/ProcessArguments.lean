import X86OnArm.Runtime.EnvironmentDomains

/-! # What process arguments depend on

On the muvm backend the arguments of the processes a launch starts are made of the
settings, of the session variables and of the guest variables that control FEX and
Mesa. The control variables come from the caller's FEX variables alone, so nothing
else of a launch shows in an argument (`execute_arguments`).
-/

namespace X86OnArm.Runtime

open Foundation

/-- The variables muvm may be asked to set. -/
def isControl (key : Text) : Bool := (text "FEX_").isPrefixOf key || mesaKeys.contains key

theorem mesaKeys_omitted : ∀ key ∈ mesaKeys, key ∈ loaderVariables := by decide +kernel

section Controls

variable {related : Dict Text Text → Dict Text Text → Prop} {host : Host} {settings : Settings}
  {backend : Backend} {first second : Dict Text Text}

/-- The controls a guest has of its caller are FEX variables. -/
theorem filter_control (source : Dict Text Text) (backend : Backend) :
    ((source.filter fun key => key ∉ omitted backend).filter isControl) =
      (fexControls source).filter fun key => key ∉ omitted backend := by
  unfold fexControls
  rw [Dict.filter_filter, Dict.filter_filter]
  apply Dict.filter_congr
  intro key
  unfold isControl
  by_cases mesa : mesaKeys.contains key = true
  · have loader := mesaKeys_omitted key (List.contains_iff_mem.mp mesa)
    have excluded : ¬ key ∉ omitted backend := by
      unfold omitted
      split
      · exact fun absent => absent (List.mem_append_left _ loader)
      · exact fun absent => absent loader
    rw [decide_eq_false excluded, Bool.false_and, Bool.and_false]
  · rw [Bool.eq_false_of_not_eq_true mesa, Bool.or_false, Bool.and_comm]

theorem filter_guestDefaults (source : Dict Text Text) :
    ((guestDefaults settings source).filter fun entry => isControl entry.1) =
      [(text "FEX_ROOTFS", settings.rootfs), (text "FEX_THUNKCONFIG", settings.thunkConfig)] := rfl

variable (host settings backend) in
theorem filter_guestVariables (congruent : Dict.Congruence related)
    (same : related (fexControls first) (fexControls second)) (selected : Graphics) :
    related ((guestVariables host settings first backend selected).filter isControl)
      ((guestVariables host settings second backend selected).filter isControl) := by
  unfold guestVariables guestAssignments
  simp only [Dict.filter_update, Dict.filter_updateEntries, List.filter_append,
    filter_guestDefaults, filter_control]
  exact congruent.update (congruent.updateEntries (congruent.filter same _) _) (congruent.refl _)

variable (host settings backend) in
/-- The controls of the application's environment depend on the caller's FEX
variables alone. -/
theorem applicationEnvironment_controls (congruent : Dict.Congruence related)
    (same : related (fexControls first) (fexControls second)) :
    SameOutcome (fun env other => related (env.filter isControl) (other.filter isControl))
      (applicationEnvironment host settings first backend)
      (applicationEnvironment host settings second backend) := by
  have setDefault {env other : Dict Text Text}
      (agree : related (env.filter isControl) (other.filter isControl)) (key value : Text) :
      related ((env.setDefault key value).filter isControl)
        ((other.setDefault key value).filter isControl) := by
    rw [Dict.filter_setDefault, Dict.filter_setDefault]
    split
    · exact congruent.setDefault agree key value
    · exact agree
  unfold applicationEnvironment guestEnvironment
  simp only [bind_assoc, pure_bind]
  apply SameOutcome.bind (SameOutcome.refl (fun _ => rfl) (graphics host settings backend))
  rintro guest _ rfl
  have configured := setDefault
    (filter_guestVariables host settings backend congruent same guest) (text "FEX_APP_CONFIG")
    settings.nativeConfig
  apply SameOutcome.bind (SameOutcome.refl (fun _ => rfl) (graphics host settings backend))
  rintro selected _ rfl
  cases selected.native.get? (text "VK_DRIVER_FILES") with
  | none => exact .ok configured
  | some manifests =>
      by_cases overridden : text "VK_DRIVER_FILES" ∈ settings.nativeEnvironment
      · simp only [if_pos overridden]
        exact .ok configured
      · simp only [if_neg overridden]
        exact .ok (setDefault configured _ _)

theorem vmControls_filter (env : Dict Text Text) :
    vmControls (env.filter isControl) = vmControls env := by
  have fex : fexControls (env.filter isControl) = fexControls env := by
    unfold fexControls
    rw [Dict.filter_filter]
    apply Dict.filter_congr
    intro key
    unfold isControl
    cases (text "FEX_").isPrefixOf key <;> simp
  have mesa : mesaControls (env.filter isControl) = mesaControls env := by
    apply mesaControls_congr
    intro key member
    have control : isControl key = true := by
      unfold isControl
      rw [List.contains_iff_mem.mpr member, Bool.or_true]
    rw [Dict.get?_filter, if_pos control]
  unfold vmControls
  rw [fex, mesa]

end Controls

section Arguments

variable {related : Dict Text Text → Dict Text Text → Prop} {host : Host} {settings : Settings}
  {configPath : Text} {firstLauncher secondLauncher : Launcher}
  {firstCommand secondCommand : Command} {firstArguments secondArguments : List Text}
  {first second : Dict Text Text}

/-- Two invocations of muvm that differ in the terminal flag, the script's path and
the variables they set at most; their scripts are private files. -/
structure SameArguments (settings : Settings) (firstLauncher secondLauncher : Launcher)
    (related : Dict Text Text → Dict Text Text → Prop) (first second : Invocation) : Prop where
  arguments : ∃ controls other, related controls other ∧
    first.process.arguments = muvmArguments settings firstLauncher.terminal controls
      firstLauncher.scriptPath ∧
    second.process.arguments = muvmArguments settings secondLauncher.terminal other
      secondLauncher.scriptPath
  firstMode : first.script.mode = 0o600 ∧ first.script.directoryMode = 0o700
  secondMode : second.script.mode = 0o600 ∧ second.script.directoryMode = 0o700

theorem executeInVm_arguments (congruent : Dict.Congruence related)
    (session : ∀ key ∈ text "HOME" :: sessionKeys, first.get? key = second.get? key)
    (firstTarget secondTarget : Target) {env other : Dict Text Text}
    (agree : related (env.filter isControl) (other.filter isControl)) :
    let one := executeInVm host settings configPath firstLauncher first firstTarget env
    let another := executeInVm host settings configPath secondLauncher second secondTarget other
    one.started.map Process.arguments = another.started.map Process.arguments ∧
      SameOutcome (SameArguments settings firstLauncher secondLauncher related) one.result
        another.result := by
  have machines := create_same host settings configPath session
  unfold executeInVm
  obtain ⟨failure, failed, fails⟩ | ⟨one, machine, ⟨service, rfl, rfl⟩, created, creates⟩ :=
    machines.failed_or_returned
  · rw [failed, fails]
    exact ⟨rfl, .error failure⟩
  · obtain ⟨vectors, outcome, ensured, ensures⟩ :=
      VirtualMachine.ensure_same host service
    simp only [created, creates, ensured, ensures]
    refine ⟨?_, ?_⟩
    · rw [List.map_map, List.map_map]
      rfl
    · refine (SameOutcome.refl (fun _ => rfl) outcome).map fun _ _ _ =>
        ⟨⟨vmControls env, vmControls other, ?_, rfl, rfl⟩, ⟨rfl, rfl⟩, ⟨rfl, rfl⟩⟩
      rw [← vmControls_filter env, ← vmControls_filter other]
      exact vmControls_related congruent agree

variable (configPath) in
/-- Launches that agree on the FEX and session variables. -/
theorem execute_sameArguments (congruent : Dict.Congruence related)
    (vm : backendFor settings.backend host.pagesize = .ok .muvm) {firstTarget secondTarget : Target}
    (firstResolved : launchTarget host settings firstLauncher firstCommand firstArguments first =
      .ok firstTarget)
    (secondResolved : launchTarget host settings secondLauncher secondCommand secondArguments
      second = .ok secondTarget)
    (controls : related (fexControls first) (fexControls second))
    (session : ∀ key ∈ text "HOME" :: sessionKeys, first.get? key = second.get? key) :
    let one := execute host settings configPath firstLauncher firstCommand firstArguments first
    let another := execute host settings configPath secondLauncher secondCommand secondArguments
      second
    one.started.map Process.arguments = another.started.map Process.arguments ∧
      SameOutcome (SameArguments settings firstLauncher secondLauncher related) one.result
        another.result := by
  have applications := applicationEnvironment_controls host settings .muvm congruent controls
  unfold execute prepare
  rw [vm, firstResolved, secondResolved]
  obtain ⟨failure, failed, fails⟩ | ⟨env, other, agree, returned, returns⟩ :=
    applications.failed_or_returned
  · simp only [bind, Except.bind, failed, fails]
    exact ⟨trivial, .error failure⟩
  · simp only [bind, Except.bind, returned, returns, pure, Except.pure, ↓reduceIte]
    exact executeInVm_arguments congruent session firstTarget secondTarget agree

variable (configPath) in
/-- **Application values stay out of process arguments.** Two launches on the muvm
backend that resolve their programs, whatever these are and wherever they run, and
that agree on the FEX variables, the home directory and the session variables, start
the same processes. Their invocations of muvm differ in the terminal flag and the
path of a private script at most, and in the order of the options that set variables
where the callers list their FEX variables in different orders. -/
theorem execute_arguments
    (vm : backendFor settings.backend host.pagesize = .ok .muvm) {firstTarget secondTarget : Target}
    (firstResolved : launchTarget host settings firstLauncher firstCommand firstArguments first =
      .ok firstTarget)
    (secondResolved : launchTarget host settings secondLauncher secondCommand secondArguments
      second = .ok secondTarget)
    (controls : ∀ key, (text "FEX_").isPrefixOf key = true → first.get? key = second.get? key)
    (session : ∀ key ∈ text "HOME" :: sessionKeys, first.get? key = second.get? key) :
    let one := execute host settings configPath firstLauncher firstCommand firstArguments first
    let another := execute host settings configPath secondLauncher secondCommand secondArguments
      second
    one.started.map Process.arguments = another.started.map Process.arguments ∧
      SameOutcome (SameArguments settings firstLauncher secondLauncher Dict.Agrees) one.result
        another.result ∧
      (fexControls first = fexControls second →
        SameOutcome (SameArguments settings firstLauncher secondLauncher Eq) one.result
          another.result) := by
  have agree : (fexControls first).Agrees (fexControls second) := Dict.agrees_filter controls
  have unordered := execute_sameArguments configPath Dict.Congruence.agrees vm
    firstResolved secondResolved agree session
  refine ⟨unordered.1, unordered.2, ?_⟩
  intro same
  exact (execute_sameArguments configPath Dict.Congruence.eq vm firstResolved secondResolved same
    session).2

end Arguments

/-- The plain host with pages of 16384 bytes. -/
def largePageHost : Host := { plainHost with pagesize := 16384 }

/-- A caller with two FEX variables, a session and a secret. -/
def fexAscending : Dict Text Text :=
  ⟨[(text "XDG_RUNTIME_DIR", text "/run/user/1000"), (text "FEX_A", text "1"),
    (text "FEX_B", text "2"), (text "TOKEN", text "secret")], by decide⟩

/-- Another caller, with the FEX variables the other way around. -/
def fexDescending : Dict Text Text :=
  ⟨[(text "XDG_RUNTIME_DIR", text "/run/user/1000"), (text "FEX_B", text "2"),
    (text "FEX_A", text "1"), (text "OTHER", text "x")], by decide⟩

/-- The arguments of the process a launch ends in. -/
def Execution.lastArguments (execution : Execution) : Option (List Text) :=
  execution.result.toOption.map fun invocation => invocation.process.arguments

theorem fexVariables_agree : (fexControls fexAscending).Agrees (fexControls fexDescending) := by
  have swapped : (fexControls fexAscending).entries =
      [(text "FEX_A", text "1"), (text "FEX_B", text "2")] := by decide +kernel
  have kept : (fexControls fexDescending).entries =
      [(text "FEX_B", text "2"), (text "FEX_A", text "1")] := by decide +kernel
  unfold Dict.Agrees
  rw [swapped, kept]
  exact List.Perm.swap _ _ _

theorem agree_of_fexControls {first second : Dict Text Text}
    (agree : (fexControls first).Agrees (fexControls second)) (key : Text)
    (control : (text "FEX_").isPrefixOf key = true) : first.get? key = second.get? key := by
  have same := Dict.agrees_iff.mp agree key
  unfold fexControls at same
  rwa [Dict.get?_filter, Dict.get?_filter, if_pos control, if_pos control] at same

/-- muvm's options follow the caller's order. -/
theorem execute_orders_options :
    (∀ key, (text "FEX_").isPrefixOf key = true → fexAscending.get? key = fexDescending.get? key) ∧
    (∀ key ∈ text "HOME" :: sessionKeys, fexAscending.get? key = fexDescending.get? key) ∧
    (execute largePageHost plainSettings (text "/config.json") plainLauncher .shell []
        fexAscending).lastArguments ≠
      (execute largePageHost plainSettings (text "/config.json") plainLauncher .shell []
        fexDescending).lastArguments :=
  ⟨agree_of_fexControls fexVariables_agree, by decide +kernel, by decide +kernel⟩

/-- The same host before its VM has started. -/
def coldHost : Host :=
  { largePageHost with
    passwordHome := some (text "/home/user")
    answers := fun _ probe => probe != 0 }

/-- A launch from a terminal, in a directory of its own. -/
def terminalLauncher : Launcher := ⟨text "/home", true, text "/tmp/x86-on-arm-1/command.sh"⟩

theorem execute_arguments_sample :
    let one := execute coldHost plainSettings (text "/config.json") plainLauncher .shell []
      fexAscending
    let another := execute coldHost plainSettings (text "/config.json") terminalLauncher .binfmt
      [text "/bin/x", text "-x", text "secret"] fexDescending
    one.started.map Process.arguments = another.started.map Process.arguments ∧
      SameOutcome (SameArguments plainSettings plainLauncher terminalLauncher Dict.Agrees)
        one.result another.result := by
  have shell : launchTarget coldHost plainSettings plainLauncher .shell [] fexAscending =
      .ok ⟨text "/bin/bash", text "bash", []⟩ := rfl
  have program : launchTarget coldHost plainSettings terminalLauncher .binfmt
      [text "/bin/x", text "-x", text "secret"] fexDescending =
      .ok ⟨text "/bin/x", text "-x", [text "secret"]⟩ := rfl
  have arguments := execute_arguments (text "/config.json") rfl shell program
    (agree_of_fexControls fexVariables_agree) (by decide +kernel)
  exact ⟨arguments.1, arguments.2.1⟩

end X86OnArm.Runtime
