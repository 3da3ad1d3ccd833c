import X86OnArm.Runtime.CommandScript
import X86OnArm.Runtime.VirtualMachine

/-! # The execution path of every launcher

`execute` finds the program, builds the guest's environment, starts the VM where
there is one, writes the command to a private script and starts FEX or muvm on
it. Its outcome is the invocation it makes, or the failure it raises, with the
processes the VM's start has left behind.
-/

namespace X86OnArm.Runtime

open Foundation

inductive Command where
  | run
  | shell
  | binfmt
  deriving DecidableEq

/-- What a single launch has of its own: its working directory, whether its
standard streams are terminals, and the path of its private script. -/
structure Launcher where
  cwd : Text
  terminal : Bool
  scriptPath : Text

/-- The program a launch starts. -/
structure Target where
  program : Text
  argv0 : Text
  arguments : List Text

/-- `int.from_bytes(bytes, "little")`. -/
def fromLittle (bytes : List UInt8) : Nat :=
  bytes.foldr (fun byte rest => byte.toNat + 256 * rest) 0

/-- A script or an ELF file of an x86 machine. -/
def x86Header (header : List UInt8) : Bool :=
  [35, 33].isPrefixOf header ||
    header.take 4 == [127, 69, 76, 70] && [3, 62].contains (fromLittle ((header.drop 18).take 2))

/-- `os.get_exec_path()`. -/
def execPath (source : Dict Text Text) : List Text :=
  ((source.get? (text "PATH")).getD (text "/bin:/usr/bin")).splitOn ':'

/-- The search of `resolve_program` through the directories of `PATH`. -/
def searchPath (host : Host) (cwd program : Text) :
    List Text → Except Failure (Option Text)
  | [] => .ok none
  | directory :: rest => do
      let found := PosixPath.join (if directory = [] then PosixPath.dot else directory) program
      if host.executable found then
        if x86Header (← host.header found) then return some (PosixPath.abspath cwd found)
        else searchPath host cwd program rest
      else searchPath host cwd program rest

def resolveProgram (host : Host) (cwd program rootfs : Text) (source : Dict Text Text) :
    Except Failure Text := do
  if PosixPath.slash ∈ program then
    let result := PosixPath.abspath cwd program
    if ¬ host.fileExists result ∧ ¬ host.fileExists (PosixPath.child rootfs result.tail) then
      throw (.runtimeError (text "executable does not exist: " ++ program))
    return result
  match ← searchPath host cwd program (execPath source) with
  | some found => return found
  | none =>
      match [text "usr/bin", text "bin", text "usr/sbin"].find? fun directory =>
          host.fileExists (PosixPath.child (PosixPath.child rootfs directory) program) with
      | some directory => return text "/" ++ directory ++ text "/" ++ program
      | none => throw (.runtimeError (text "x86 executable not found: " ++ program))

/-- The program a command names. -/
def launchTarget (host : Host) (settings : Settings) (launcher : Launcher) (command : Command)
    (arguments : List Text) (source : Dict Text Text) : Except Failure Target :=
  match command with
  | .shell => .ok ⟨text "/bin/bash", text "bash", arguments⟩
  | .binfmt =>
      match arguments with
      | program :: argv0 :: arguments =>
          .ok ⟨PosixPath.abspath launcher.cwd program, argv0, arguments⟩
      | _ => .error (.runtimeError
          (text "binfmt requires an executable and original argv[0] (the P flag)"))
  | .run =>
      match arguments with
      | [] => .error (.runtimeError (text "usage: x86-arm run PROGRAM [ARG...]"))
      | argv0 :: arguments => do
          let program ← resolveProgram host launcher.cwd argv0 settings.rootfs source
          return ⟨program, argv0, arguments⟩

/-- The guest's environment with the configuration FEX needs. -/
def applicationEnvironment (host : Host) (settings : Settings) (source : Dict Text Text)
    (backend : Backend) : Except Failure (Dict Text Text) := do
  let env := (← guestEnvironment host settings source backend).setDefault (text "FEX_APP_CONFIG")
    settings.nativeConfig
  match (← graphics host settings backend).native.get? (text "VK_DRIVER_FILES") with
  | none => return env
  | some manifests =>
      if text "VK_DRIVER_FILES" ∈ settings.nativeEnvironment then return env
      else return env.setDefault (text "FEX_HOSTENV") (text "VK_DRIVER_FILES=" ++ manifests)

/-- The variables that control FEX. -/
def fexControls (env : Dict Text Text) : Dict Text Text :=
  env.filter fun key => (text "FEX_").isPrefixOf key

/-- The Mesa variables a guest in the VM is started with. -/
def mesaKeys : List Text :=
  [text "MESA_LOADER_DRIVER_OVERRIDE", text "LIBGL_ALWAYS_SOFTWARE", text "GALLIUM_DRIVER"]

def mesaControls (env : Dict Text Text) : List (Text × Text) :=
  mesaKeys.filterMap fun key => (env.get? key).map fun value => (key, value)

/-- The variables muvm is asked to set. -/
def vmControls (env : Dict Text Text) : Dict Text Text :=
  (fexControls env).updateEntries (mesaControls env)

/-- The private file the guest shell reads, in its private directory. -/
structure PrivateScript where
  path : Text
  directoryMode : Nat
  mode : Nat
  contents : Text

def privateScript (path contents : Text) : PrivateScript := ⟨path, 0o700, 0o600, contents⟩

/-- The process a launch ends in, and the script it is started on. -/
structure Invocation where
  script : PrivateScript
  process : Process

def fexArguments (settings : Settings) (scriptPath : Text) : List Text :=
  [settings.fex, scriptPath]

/-- The `-e` options that set a dictionary's variables. -/
def setOptions (controls : Dict Text Text) : List Text :=
  controls.entries.flatMap fun entry => [text "-e", entry.1 ++ text "=" ++ entry.2]

def muvmArguments (settings : Settings) (terminal : Bool) (controls : Dict Text Text)
    (scriptPath : Text) : List Text :=
  [settings.muvm, text "--interactive"] ++ (if terminal then [text "--tty"] else []) ++
    setOptions controls ++ [text "--", settings.fex, scriptPath]

/-- What a launch has started before it ends, and how it ends. -/
structure Execution where
  started : List Process
  result : Except Failure Invocation

/-- What a launch runs, and where. -/
structure Prepared where
  backend : Backend
  target : Target
  environment : Dict Text Text

def prepare (host : Host) (settings : Settings) (launcher : Launcher) (command : Command)
    (arguments : List Text) (source : Dict Text Text) : Except Failure Prepared := do
  let backend ← backendFor settings.backend host.pagesize
  let target ← launchTarget host settings launcher command arguments source
  let environment ← applicationEnvironment host settings source backend
  return { backend, target, environment }

/-- The script of a launch. -/
def launchScript (launcher : Launcher) (target : Target) (env : Dict Text Text) (bridge : Bool) :
    PrivateScript :=
  privateScript launcher.scriptPath
    (commandScript target.program target.argv0 target.arguments env launcher.cwd bridge)

/-- A launch without a VM. -/
def directInvocation (settings : Settings) (launcher : Launcher) (source : Dict Text Text)
    (target : Target) (env : Dict Text Text) : Invocation where
  script := launchScript launcher target env false
  process := ⟨fexArguments settings launcher.scriptPath,
    (nativeEnvironment source).update (fexControls env)⟩

/-- A launch in the VM. -/
def vmInvocation (host : Host) (settings : Settings) (launcher : Launcher)
    (machine : VirtualMachine) (target : Target) (env : Dict Text Text) : Invocation where
  script := launchScript launcher target env true
  process := ⟨muvmArguments settings launcher.terminal (vmControls env) launcher.scriptPath,
    (machine.hostEnvironment host).update (vmControls env)⟩

/-- Start the VM, then the launch in it. -/
def executeInVm (host : Host) (settings : Settings) (configPath : Text) (launcher : Launcher)
    (source : Dict Text Text) (target : Target) (env : Dict Text Text) : Execution :=
  match VirtualMachine.create host settings configPath source with
  | .error failure => ⟨[], .error failure⟩
  | .ok machine =>
      let ensured := machine.ensure host
      ⟨ensured.1, ensured.2.map fun _ => vmInvocation host settings launcher machine target env⟩

def execute (host : Host) (settings : Settings) (configPath : Text) (launcher : Launcher)
    (command : Command) (arguments : List Text) (source : Dict Text Text) : Execution :=
  match prepare host settings launcher command arguments source with
  | .error failure => ⟨[], .error failure⟩
  | .ok prepared =>
      if prepared.backend = .muvm then
        executeInVm host settings configPath launcher source prepared.target prepared.environment
      else
        ⟨[], .ok (directInvocation settings launcher source prepared.target
          prepared.environment)⟩

end X86OnArm.Runtime
