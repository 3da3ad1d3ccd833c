import X86OnArm.Foundation.Machine
import Mathlib.Logic.Function.Basic

/-! # The publication of Steam's bootstrap

Any number of launchers, each of one version, run the first half of `steam.sh` in one
data directory under the lock of one file. A launcher's commands are processes that hold
the lock as well and go on when their shell is gone. A shell that is killed leaves them
behind; one that is terminated by a signal it handles runs its `EXIT` trap first, and
does so at once, beside the command it was waiting for.
-/

namespace X86OnArm.Applications

open Foundation

/-- What the launchers are built with. -/
structure Bootstraps (Launcher Version File : Type) where
  files : Version → List File
  binSteam : File
  binSteam_mem : ∀ version, binSteam ∈ files version
  version : Launcher → Version

/-- A file of a copy: the version it is from, whether all of it has been written, and
whether its user may write it. -/
structure Copied (Version : Type) where
  version : Version
  whole : Bool
  writable : Bool
  deriving DecidableEq

/-- A directory, with the names of the directories that were moved into it. -/
structure Contents (Version Name File : Type) where
  entries : File → Option (Copied Version)
  nested : List Name

/-- Which directory: one that was left in the data directory before, or a new one. -/
inductive Directory (Name : Type) where
  | stray (name : Name)
  | made (number : Nat)
  deriving DecidableEq

/-- Where the shell of a launcher is; `disarm` is `trap - EXIT`. -/
inductive SteamShell (Name : Type) where
  | flock
  | test
  | mktemp
  | arm (staging : Name)
  | copy (staging : Name)
  | chmod (staging : Name)
  | move (staging : Name)
  | disarm (staging : Name)
  | cleanup (staging : Name)
  | unlock
  | exec
  | running
  | ended
  deriving DecidableEq

/-- A command the shell waits for or has left behind. -/
inductive SteamChild (Name : Type) where
  | flock
  | mktemp
  | cp (staging : Name)
  | chmod (staging : Name)
  | mv (staging : Name) (renamed : Bool)
  deriving DecidableEq

/-- The `rm -rf` of the trap, with the directory it has opened. -/
structure Remover (Name : Type) where
  staging : Name
  opened : Option (Directory Name)
  deriving DecidableEq

structure SteamLauncher (Name : Type) where
  shell : SteamShell Name
  child : Option (SteamChild Name)
  remover : Option (Remover Name)
  deriving DecidableEq

namespace SteamLauncher

variable {Name : Type}

/-- Whether a process of the launcher has the lock file open. -/
def hasLockFile (launcher : SteamLauncher Name) : Bool :=
  launcher.child.isSome || launcher.remover.isSome ||
    match launcher.shell with
    | .exec | .running | .ended => false
    | _ => true

/-- The shell after `flock` has the lock. -/
def acquired (launcher : SteamLauncher Name) : SteamLauncher Name :=
  match launcher.shell with
  | .flock => { launcher with shell := .test, child := none }
  | _ => { launcher with child := none }

/-- The shell after `mktemp` has made its directory. -/
def made (launcher : SteamLauncher Name) (staging : Name) : SteamLauncher Name :=
  match launcher.shell with
  | .mktemp => { launcher with shell := .arm staging, child := none }
  | _ => { launcher with child := none }

/-- The shell after its command has succeeded. -/
def proceed (launcher : SteamLauncher Name) : SteamLauncher Name :=
  match launcher.shell with
  | .copy staging => { launcher with shell := .chmod staging, child := some (.chmod staging) }
  | .chmod staging => { launcher with shell := .move staging, child := some (.mv staging false) }
  | .move staging => { launcher with shell := .disarm staging, child := none }
  | _ => { launcher with child := none }

/-- The shell after its command has failed: `set -e` makes it exit. -/
def fail (launcher : SteamLauncher Name) : SteamLauncher Name :=
  match launcher.shell with
  | .copy staging | .chmod staging | .move staging =>
      ⟨.cleanup staging, none, some ⟨staging, none⟩⟩
  | .flock | .mktemp => { launcher with shell := .ended, child := none }
  | _ => { launcher with child := none }

/-- The shell after a signal such as `SIGTERM`; its command is not waited for. -/
def terminate (launcher : SteamLauncher Name) : SteamLauncher Name :=
  match launcher.shell with
  | .copy staging | .chmod staging | .move staging | .disarm staging =>
      { launcher with shell := .cleanup staging, remover := some ⟨staging, none⟩ }
  | _ => { launcher with shell := .ended }

/-- The shell after the trap's `rm` has exited. -/
def removed (launcher : SteamLauncher Name) : SteamLauncher Name :=
  match launcher.shell with
  | .cleanup _ => { launcher with shell := .ended, remover := none }
  | _ => { launcher with remover := none }

end SteamLauncher

/-- `$data`: the directory of each version, and `.bootstrap.XXXXXXXX`. -/
structure DataDirectory (Version Name File : Type) where
  directories : Directory Name → Contents Version Name File
  versions : Version → Option (Directory Name)
  stagings : Name → Option (Directory Name)
  made : Nat

structure SteamState (Launcher Version Name File : Type) where
  data : DataDirectory Version Name File
  /-- The launcher whose processes hold the lock. -/
  lock : Option Launcher
  launchers : Launcher → SteamLauncher Name

/-- What a process of a launcher does; `kill` and `terminate` are signals to its shell. -/
inductive SteamStep (Name File : Type) where
  | acquire
  | test
  | mktemp (staging : Name)
  | arm
  | write (file : File) (whole : Bool)
  | makeWritable (file : File)
  | rename
  | childExit (success : Bool)
  | disarm
  | unlock
  | exec
  | kill
  | terminate
  | rmOpen
  | rmUnlink (file : File)
  | rmDirectory
  | rmExit
  deriving DecidableEq

namespace DataDirectory

variable {Launcher Version Name File : Type} [DecidableEq Version] [DecidableEq Name]
  [DecidableEq File] (build : Bootstraps Launcher Version File)

def setContents (data : DataDirectory Version Name File) (directory : Directory Name)
    (contents : Contents Version Name File) : DataDirectory Version Name File :=
  { data with directories := Function.update data.directories directory contents }

def setEntry (data : DataDirectory Version Name File) (directory : Directory Name)
    (file : File) (entry : Option (Copied Version)) : DataDirectory Version Name File :=
  let contents := data.directories directory
  data.setContents directory
    { contents with entries := Function.update contents.entries file entry }

def setStaging (data : DataDirectory Version Name File) (staging : Name)
    (directory : Option (Directory Name)) : DataDirectory Version Name File :=
  { data with stagings := Function.update data.stagings staging directory }

/-- `[[ -f "$data/<version>/bin_steam.sh" ]]`. -/
def hasBinSteam (data : DataDirectory Version Name File) (version : Version) : Bool :=
  match data.versions version with
  | none => false
  | some directory => ((data.directories directory).entries build.binSteam).isSome

/-- A new directory under a name that is not taken. -/
def mktemp (data : DataDirectory Version Name File) (staging : Name) :
    DataDirectory Version Name File :=
  { (data.setContents (.made data.made) ⟨fun _ => none, []⟩).setStaging staging
      (some (.made data.made)) with made := data.made + 1 }

/-- `mv` of a staging directory: a target that is there is one to move into. -/
def move (data : DataDirectory Version Name File) (version : Version) (staging : Name)
    (directory : Directory Name) : DataDirectory Version Name File :=
  match data.versions version with
  | none => { data.setStaging staging none with
      versions := Function.update data.versions version (some directory) }
  | some target =>
      let contents := data.directories target
      (data.setContents target { contents with nested := staging :: contents.nested }).setStaging
        staging none

/-- Whether a command of a launcher may exit with success. -/
def succeeds (data : DataDirectory Version Name File) (version : Version) :
    SteamChild Name → Bool
  | .flock | .mktemp => false
  | .cp staging =>
      match data.stagings staging with
      | none => false
      | some directory => (build.files version).all fun file =>
          ((data.directories directory).entries file).any Copied.whole
  | .chmod staging =>
      match data.stagings staging with
      | none => false
      | some directory => (build.files version).all fun file =>
          ((data.directories directory).entries file).all Copied.writable
  | .mv _ renamed => renamed

end DataDirectory

namespace SteamState

variable {Launcher Version Name File : Type} [DecidableEq Launcher] [DecidableEq Version]
  [DecidableEq Name] [DecidableEq File] (build : Bootstraps Launcher Version File)

/-- The lock goes with the last process that has its file open. -/
def lockFree (state : SteamState Launcher Version Name File) : Bool :=
  match state.lock with
  | none => true
  | some owner => !(state.launchers owner).hasLockFile

/-- What a step of a launcher leaves of the data directory, the lock and its processes. -/
def act (state : SteamState Launcher Version Name File) (launcher : Launcher) :
    SteamStep Name File →
      Option (DataDirectory Version Name File × Option Launcher × SteamLauncher Name)
  | .acquire =>
      let processes := state.launchers launcher
      if processes.child = some .flock ∧ state.lockFree = true then
        some (state.data, some launcher, processes.acquired)
      else none
  | .test =>
      let processes := state.launchers launcher
      if processes.shell = .test then
        if state.data.hasBinSteam build (build.version launcher) then
          some (state.data, state.lock, { processes with shell := .unlock })
        else some (state.data, state.lock,
          { processes with shell := .mktemp, child := some .mktemp })
      else none
  | .mktemp staging =>
      let processes := state.launchers launcher
      if processes.child = some .mktemp ∧ state.data.stagings staging = none then
        some (state.data.mktemp staging, state.lock, processes.made staging)
      else none
  | .arm =>
      let processes := state.launchers launcher
      match processes.shell with
      | .arm staging => some (state.data, state.lock,
          { processes with shell := .copy staging, child := some (.cp staging) })
      | _ => none
  | .write file whole =>
      let processes := state.launchers launcher
      match processes.child with
      | some (.cp staging) =>
          if file ∈ build.files (build.version launcher) then
            (state.data.stagings staging).map fun directory =>
              (state.data.setEntry directory file (some ⟨build.version launcher, whole, false⟩),
                state.lock, processes)
          else none
      | _ => none
  | .makeWritable file =>
      let processes := state.launchers launcher
      match processes.child with
      | some (.chmod staging) =>
          (state.data.stagings staging).bind fun directory =>
            ((state.data.directories directory).entries file).map fun entry =>
              (state.data.setEntry directory file (some { entry with writable := true }),
                state.lock, processes)
      | _ => none
  | .rename =>
      let processes := state.launchers launcher
      match processes.child with
      | some (.mv staging false) =>
          (state.data.stagings staging).map fun directory =>
            (state.data.move (build.version launcher) staging directory, state.lock,
              { processes with child := some (.mv staging true) })
      | _ => none
  | .childExit success =>
      let processes := state.launchers launcher
      match processes.child with
      | none => none
      | some child =>
          if success then
            if state.data.succeeds build (build.version launcher) child then
              some (state.data, state.lock, processes.proceed)
            else none
          else some (state.data, state.lock, processes.fail)
  | .disarm =>
      let processes := state.launchers launcher
      match processes.shell with
      | .disarm _ => some (state.data, state.lock, { processes with shell := .unlock })
      | _ => none
  | .unlock =>
      let processes := state.launchers launcher
      if processes.shell = .unlock then some (state.data, none, { processes with shell := .exec })
      else none
  | .exec =>
      let processes := state.launchers launcher
      if processes.shell = .exec then
        some (state.data, state.lock, { processes with shell := .running })
      else none
  | .kill =>
      let processes := state.launchers launcher
      match processes.shell with
      | .running | .ended => none
      | _ => some (state.data, state.lock, { processes with shell := .ended })
  | .terminate =>
      let processes := state.launchers launcher
      match processes.shell with
      | .running | .ended => none
      | _ => some (state.data, state.lock, processes.terminate)
  | .rmOpen =>
      let processes := state.launchers launcher
      match processes.remover with
      | some ⟨staging, none⟩ =>
          match state.data.stagings staging with
          | none => some (state.data, state.lock, processes.removed)
          | some directory => some (state.data, state.lock,
              { processes with remover := some ⟨staging, some directory⟩ })
      | _ => none
  | .rmUnlink file =>
      let processes := state.launchers launcher
      match processes.remover with
      | some ⟨_, some directory⟩ =>
          some (state.data.setEntry directory file none, state.lock, processes)
      | _ => none
  | .rmDirectory =>
      let processes := state.launchers launcher
      match processes.remover with
      | some ⟨staging, some directory⟩ =>
          if state.data.stagings staging = some directory then
            some (state.data.setStaging staging none, state.lock, processes)
          else none
      | _ => none
  | .rmExit =>
      let processes := state.launchers launcher
      match processes.remover with
      | some _ => some (state.data, state.lock, processes.removed)
      | none => none

/-- One launcher takes a step. -/
def step (state : SteamState Launcher Version Name File)
    (action : Launcher × SteamStep Name File) : Option (SteamState Launcher Version Name File) :=
  (state.act build action.1 action.2).map fun (data, lock, processes) =>
    ⟨data, lock, Function.update state.launchers action.1 processes⟩

/-- A data directory without any version, with what earlier launchers left in it. -/
def start (strays : Name → Option (Contents Version Name File)) :
    SteamState Launcher Version Name File where
  data := {
    directories := fun
      | .stray name => (strays name).getD ⟨fun _ => none, []⟩
      | .made _ => ⟨fun _ => none, []⟩
    versions := fun _ => none
    stagings := fun name => (strays name).map fun _ => .stray name
    made := 0 }
  lock := none
  launchers _ := ⟨.flock, some .flock, none⟩

end SteamState

/-- Any number of launchers in one data directory. -/
def steam (Name : Type) {Launcher Version File : Type} [DecidableEq Launcher]
    [DecidableEq Version] [DecidableEq Name] [DecidableEq File]
    (build : Bootstraps Launcher Version File) :
    Machine (SteamState Launcher Version Name File) (Launcher × SteamStep Name File) :=
  ⟨SteamState.step build⟩

end X86OnArm.Applications
