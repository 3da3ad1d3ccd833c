import X86OnArm.Runtime.Environment

/-! # One VM per configuration

`VirtualMachine.ensure` starts the VM of a configuration as a transient unit of
the user's service manager and waits until its server answers. The processes it
starts are recorded with their arguments and environments, in order, whether or
not it then raises.
-/

namespace X86OnArm.Runtime

open Foundation

/-- A process the launcher starts on the host. -/
structure Process where
  arguments : List Text
  environment : Dict Text Text

structure VirtualMachine where
  settings : Settings
  configPath : Text
  source : Dict Text Text
  directory : Text
  unit : Text
  socket : Text

/-- The session variables passed on to the service. -/
def sessionKeys : List Text :=
  [text "DISPLAY", text "XAUTHORITY", text "X11_SOCKET", text "XDG_RUNTIME_DIR",
    text "PULSE_SERVER", text "PIPEWIRE_RUNTIME_DIR", text "PIPEWIRE_REMOTE",
    text "DBUS_SESSION_BUS_ADDRESS"]

/-- `Path.home()`. -/
def home (host : Host) (source : Dict Text Text) : Except Failure Text :=
  match (source.get? (text "HOME")).or host.passwordHome with
  | none => .error (.runtimeError (text "Could not determine home directory."))
  | some directory =>
      let stripped := (directory.reverse.dropWhile (· == PosixPath.slash)).reverse
      if stripped = text "~" then
        .error (.runtimeError (text "Could not determine home directory."))
      else .ok (PosixPath.pathText (if stripped = [] then text "/" else stripped))

namespace VirtualMachine

/-- `__init__`. -/
def create (host : Host) (settings : Settings) (configPath : Text) (source : Dict Text Text) :
    Except Failure VirtualMachine := do
  let runtime := (source.get? (text "XDG_RUNTIME_DIR")).getD []
  if runtime = [] then
    throw (.runtimeError (text "muvm needs XDG_RUNTIME_DIR from a regular user session"))
  let identity ← host.identity configPath
  let directory := PosixPath.child (PosixPath.child runtime (text "x86-on-arm")) identity
  return {
    settings, configPath, source, directory
    unit := text "x86-on-arm-" ++ identity ++ text ".service"
    socket := PosixPath.child directory (text "krun/server") }

/-- `host_environment`; `create` has checked the runtime directory. -/
def hostEnvironment (host : Host) (machine : VirtualMachine) : Dict Text Text :=
  let runtime := (machine.source.get? (text "XDG_RUNTIME_DIR")).getD []
  let env := (((nativeEnvironment machine.source).insert (text "XDG_RUNTIME_DIR")
    machine.directory).setDefault (text "RUST_LOG") (text "init_or_kernel=error")).setDefault
      (text "PULSE_SERVER") (text "unix:" ++ runtime ++ text "/pulse/native")
  let env := env.setDefault (text "PIPEWIRE_RUNTIME_DIR") runtime
  match x11Socket host machine.source with
  | none => env
  | some socket => env.insert (text "X11_SOCKET") socket

/-- A process of the service manager, in the native environment. -/
def spawn (machine : VirtualMachine) (arguments : List Text) : Process :=
  ⟨arguments, nativeEnvironment machine.source⟩

def resetFailedArguments (machine : VirtualMachine) : List Text :=
  [machine.settings.systemctl, text "--user", text "reset-failed", machine.unit]

def isActiveArguments (machine : VirtualMachine) : List Text :=
  [machine.settings.systemctl, text "--user", text "is-active", text "--quiet", machine.unit]

/-- The session variables the caller has, as options of `systemd-run`. -/
def sessionOptions (source : Dict Text Text) : List Text :=
  sessionKeys.filterMap fun key =>
    (source.get? key).map fun value => text "--setenv=" ++ key ++ text "=" ++ value

def systemdRunArguments (host : Host) (machine : VirtualMachine) (home : Text) : List Text :=
  [machine.settings.systemdRun, text "--user", text "--quiet", text "--collect",
    text "--unit=" ++ machine.unit, text "--property=Type=exec",
    text "--property=TimeoutStopSec=10", text "--property=PartOf=graphical-session.target",
    text "--property=UnsetEnvironment=LD_LIBRARY_PATH LD_PRELOAD",
    text "--property=KillMode=mixed", text "--property=WorkingDirectory=" ++ home] ++
  sessionOptions machine.source ++
  [host.pythonExecutable, host.servicePath, machine.configPath]

/-- The wait for the server, from one round of the loop on: it checks the unit once
a second and gives up at the deadline. -/
def awaitReady (host : Host) (machine : VirtualMachine) (deadline checkAfter round : Nat) :
    List Process × Except Failure Unit :=
  if host.clock.head round < deadline then
    if host.answers machine.socket (round + 1) then ([], .ok ())
    else if checkAfter ≤ host.clock.check round then
      let check := machine.spawn machine.isActiveArguments
      match host.isActive round with
      | .error failure => ([check], .error failure)
      | .ok status =>
          if status ≠ 0 then
            ([check], .error (.runtimeError
              (text "VM exited during startup; inspect journalctl --user -u " ++ machine.unit)))
          else
            let rest := awaitReady host machine deadline (host.clock.checked round + 1000)
              (round + 1)
            (check :: rest.1, rest.2)
    else awaitReady host machine deadline checkAfter (round + 1)
  else
    ([], .error (.runtimeError
      (text "VM did not start; inspect journalctl --user -u " ++ machine.unit)))
termination_by deadline - host.clock.head round
decreasing_by
  all_goals
    have slept := host.clock.sleeps round
    omega

/-- `systemd-run`, and the wait that follows it. -/
def start (host : Host) (machine : VirtualMachine) : List Process × Except Failure Unit :=
  match home host machine.source with
  | .error failure => ([], .error failure)
  | .ok home =>
      let arguments := machine.systemdRunArguments host home
      let run := machine.spawn arguments
      match host.systemdRun with
      | .error failure => ([run], .error failure)
      | .ok status =>
          if status ≠ 0 then ([run], .error (.calledProcessError arguments status))
          else
            let rest := machine.awaitReady host (host.clock.deadlineFrom + 45000)
              (host.clock.checkFrom + 1000) 0
            (run :: rest.1, rest.2)

/-- The processes `ensure` starts, and how it ends. -/
def ensure (host : Host) (machine : VirtualMachine) : List Process × Except Failure Unit :=
  if host.kvmAccess = false then
    ([], .error (.runtimeError
      (text "muvm needs access to /dev/kvm; grant this user KVM access")))
  else match host.lockDirectory machine.directory with
    | .error failure => ([], .error failure)
    | .ok () =>
        if host.answers machine.socket 0 then ([], .ok ())
        else
          let reset := machine.spawn machine.resetFailedArguments
          match host.resetFailed with
          | .error failure => ([reset], .error failure)
          | .ok _ =>
              let rest := machine.start host
              (reset :: rest.1, rest.2)

section TwoCallers

variable {host : Host} {first second : VirtualMachine}

/-- The same VM, for two callers. -/
structure SameService (first second : VirtualMachine) : Prop where
  settings : first.settings = second.settings
  configPath : first.configPath = second.configPath
  directory : first.directory = second.directory
  unit : first.unit = second.unit
  socket : first.socket = second.socket
  source : ∀ key ∈ text "HOME" :: sessionKeys, first.source.get? key = second.source.get? key

/-- The same arguments, each in the native environment of its own caller. -/
def SameSpawns (first second : VirtualMachine)
    (started other : List Process × Except Failure Unit) : Prop :=
  ∃ (vectors : List (List Text)) (outcome : Except Failure Unit),
    started = (vectors.map first.spawn, outcome) ∧ other = (vectors.map second.spawn, outcome)

theorem SameSpawns.nothing (outcome : Except Failure Unit) :
    SameSpawns first second ([], outcome) ([], outcome) := ⟨[], outcome, rfl, rfl⟩

theorem SameSpawns.single {arguments other : List Text} (same : arguments = other)
    (outcome : Except Failure Unit) :
    SameSpawns first second ([first.spawn arguments], outcome) ([second.spawn other], outcome) :=
  ⟨[arguments], outcome, rfl, by rw [same]; rfl⟩

theorem SameSpawns.cons {arguments other : List Text} (same : arguments = other)
    {started rest : List Process × Except Failure Unit}
    (spawned : SameSpawns first second started rest) :
    SameSpawns first second (first.spawn arguments :: started.1, started.2)
      (second.spawn other :: rest.1, rest.2) := by
  obtain ⟨vectors, outcome, rfl, rfl⟩ := spawned
  exact ⟨arguments :: vectors, outcome, rfl, by rw [same]; rfl⟩

theorem awaitReady_same (same : SameService first second) (deadline checkAfter round : Nat) :
    SameSpawns first second (first.awaitReady host deadline checkAfter round)
      (second.awaitReady host deadline checkAfter round) := by
  have check : first.isActiveArguments = second.isActiveArguments := by
    unfold isActiveArguments
    rw [same.settings, same.unit]
  -- The two loops read the same answers, so they take the same branch in every round.
  fun_induction awaitReady host first deadline checkAfter round with
  | case1 checkAfter round waiting answered =>
      rw [awaitReady.eq_def host second]
      rw [if_pos waiting, ← same.socket, if_pos answered]
      exact .nothing _
  | case2 checkAfter round waiting silent due spawned failure status =>
      rw [awaitReady.eq_def host second]
      rw [if_pos waiting, ← same.socket, if_neg silent, if_pos due, status]
      exact .single check _
  | case3 checkAfter round waiting silent due spawned status exited failed =>
      rw [awaitReady.eq_def host second]
      simp only [waiting, ← same.socket, silent, due, exited, if_pos failed, ↓reduceIte,
        ← same.unit, Bool.false_eq_true]
      exact .single check _
  | case4 checkAfter round waiting silent due spawned status exited active rest ih =>
      rw [awaitReady.eq_def host second]
      simp only [waiting, ← same.socket, silent, due, exited, active, ↓reduceIte]
      exact .cons check ih
  | case5 checkAfter round waiting silent early ih =>
      rw [awaitReady.eq_def host second]
      rw [if_pos waiting, ← same.socket, if_neg silent, if_neg early]
      exact ih
  | case6 checkAfter round passed =>
      rw [awaitReady.eq_def host second]
      rw [if_neg passed, ← same.unit]
      exact .nothing _

variable (host) in
theorem home_congr {first second : Dict Text Text}
    (same : first.get? (text "HOME") = second.get? (text "HOME")) :
    home host first = home host second := by
  unfold home
  rw [same]

theorem sessionOptions_congr {first second : Dict Text Text}
    (same : ∀ key ∈ sessionKeys, first.get? key = second.get? key) :
    sessionOptions first = sessionOptions second := by
  unfold sessionOptions
  apply List.filterMap_congr
  intro key member
  rw [same key member]

theorem start_same (same : SameService first second) :
    SameSpawns first second (first.start host) (second.start host) := by
  have homes := home_congr host (same.source _ List.mem_cons_self)
  have vectors (home : Text) :
      first.systemdRunArguments host home = second.systemdRunArguments host home := by
    unfold systemdRunArguments
    rw [same.settings, same.unit, same.configPath,
      sessionOptions_congr fun key member => same.source key (List.mem_cons_of_mem _ member)]
  unfold start
  rw [homes]
  cases home host second.source with
  | error failure => exact .nothing _
  | ok home =>
      simp only [vectors]
      cases host.systemdRun with
      | error failure => exact .single rfl _
      | ok status =>
          by_cases failed : status ≠ 0
          · simp only [if_pos failed]
            exact .single rfl _
          · simp only [if_neg failed]
            exact .cons rfl (awaitReady_same same _ _ _)

variable (host) in
/-- Callers that agree on the session variables start the VM by the same processes,
each in its own native environment. -/
theorem ensure_same (same : SameService first second) :
    SameSpawns first second (first.ensure host) (second.ensure host) := by
  have reset : first.resetFailedArguments = second.resetFailedArguments := by
    unfold resetFailedArguments
    rw [same.settings, same.unit]
  unfold ensure
  by_cases refused : host.kvmAccess = false
  · rw [if_pos refused, if_pos refused]
    exact .nothing _
  rw [if_neg refused, if_neg refused, ← same.directory, ← same.socket]
  cases host.lockDirectory first.directory with
  | error failure => exact .nothing _
  | ok locked =>
      by_cases answered : host.answers first.socket 0 = true
      · simp only [if_pos answered]
        exact .nothing _
      · simp only [if_neg answered]
        cases host.resetFailed with
        | error failure => exact .single reset _
        | ok status => exact .cons reset (start_same same)

end TwoCallers

end VirtualMachine

end X86OnArm.Runtime
