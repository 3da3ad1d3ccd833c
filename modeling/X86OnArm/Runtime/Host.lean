import X86OnArm.Foundation.Dict
import X86OnArm.Foundation.PosixPath

/-! # Settings and the host

The configuration the launcher reads and the answers the host gives it: page
size, graphics drivers, directory listings, sockets, program files, the service
manager and the clock. The functions of the launcher are functions of these, of
the caller's environment and of its arguments.
-/

namespace X86OnArm.Runtime

open Foundation

/-- `fex`, `muvm`, or whatever else the configuration names. -/
inductive Backend where
  | fex
  | muvm
  | other (name : Text)
  deriving DecidableEq

/-- `settings["backend"]`. -/
inductive RequestedBackend where
  | auto
  | named (backend : Backend)
  deriving DecidableEq

/-- `settings["gpuMode"]`, and the mode `graphics` selects. -/
inductive GpuMode where
  | auto
  | native
  | drm
  | venus
  | software
  | other (name : Text)
  deriving DecidableEq

structure Settings where
  backend : RequestedBackend
  gpuMode : GpuMode
  allowSoftwareRendering : Bool
  rootfs : Text
  nativeVulkanDirectory : Text
  thunkConfig : Text
  nativeConfig : Text
  environment : Dict Text Text
  nativeEnvironment : Dict Text Text
  fex : Text
  muvm : Text
  systemctl : Text
  systemdRun : Text

/-- What the launcher raises. -/
inductive Failure where
  | runtimeError (message : Text)
  | osError (message : Text)
  | calledProcessError (command : List Text) (status : Int)
  deriving DecidableEq

/-- A socket in the X11 directory. -/
structure SocketFile where
  owner : Nat
  accepts : Bool

/-- The readings of the monotonic clock while `ensure` waits, in milliseconds: two
before the loop, and three in each of its rounds. -/
structure Clock where
  deadlineFrom : Nat
  checkFrom : Nat
  head : Nat → Nat
  check : Nat → Nat
  checked : Nat → Nat
  /-- A round ends with a sleep of a tenth of a second. -/
  sleeps : ∀ round, head round + 100 ≤ head (round + 1)

structure Host where
  pagesize : Nat
  uid : Nat
  euid : Nat
  /-- `drm_drivers`. -/
  drivers : List Text
  /-- The names in a directory, each with whether it is a file. -/
  listing : Text → List (Text × Bool)
  socketAt : Text → Option SocketFile
  /-- The digits of `\d`. -/
  isDecimal : CodePoint → Bool
  fileExists : Text → Bool
  /-- The file can be executed and is no directory. -/
  executable : Text → Bool
  /-- The first 20 bytes of a file. -/
  header : Text → Except Failure (List UInt8)
  passwordHome : Option Text
  /-- `/dev/kvm` can be read and written. -/
  kvmAccess : Bool
  /-- The digest of a configuration path and the file's contents. -/
  identity : Text → Except Failure Text
  /-- The runtime directory is made and its lock is taken. -/
  lockDirectory : Text → Except Failure Unit
  /-- Whether the server behind a socket answers the probes, one after the other. -/
  answers : Text → Nat → Bool
  resetFailed : Except Failure Int
  systemdRun : Except Failure Int
  isActive : Nat → Except Failure Int
  clock : Clock
  pythonExecutable : Text
  servicePath : Text

end X86OnArm.Runtime
