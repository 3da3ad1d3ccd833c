import X86OnArm.Runtime.Host

/-! # Environment domains

The caller's environment serves three parties. The guest application gets it
without the variables of the ARM loaders (`guestEnvironment`), native processes
get it without these variables too (`nativeEnvironment`), and the displays and
sockets of the session stay with the host when the guest runs in a VM. `graphics`
selects the drivers of both sides from the settings and the host alone.
-/

namespace X86OnArm.Runtime

open Foundation

/-- `VM_ENVIRONMENT`. -/
def vmVariables : List Text :=
  [text "DISPLAY", text "XAUTHORITY", text "XDG_RUNTIME_DIR", text "PULSE_SERVER",
    text "WAYLAND_DISPLAY", text "DBUS_SESSION_BUS_ADDRESS", text "GTK_IM_MODULE",
    text "QT_IM_MODULE", text "XRE_PROFILE_PATH", text "PIPEWIRE_RUNTIME_DIR",
    text "PIPEWIRE_REMOTE", text "X11_SOCKET"]

/-- `LOADER_ENVIRONMENT`. -/
def loaderVariables : List Text :=
  [text "LD_LIBRARY_PATH", text "LD_PRELOAD", text "VK_DRIVER_FILES", text "VK_ICD_FILENAMES",
    text "LIBGL_DRIVERS_PATH", text "__EGL_VENDOR_LIBRARY_DIRS",
    text "__EGL_VENDOR_LIBRARY_FILENAMES", text "LIBGL_VENDORS_PATH", text "LOCPATH",
    text "GCONV_PATH", text "GI_TYPELIB_PATH", text "GIO_EXTRA_MODULES", text "GTK_PATH",
    text "QT_PLUGIN_PATH", text "QT_QPA_PLATFORM_PLUGIN_PATH", text "QML2_IMPORT_PATH",
    text "ALSA_PLUGIN_DIR", text "GST_PLUGIN_PATH", text "GST_PLUGIN_PATH_1_0",
    text "MESA_LOADER_DRIVER_OVERRIDE", text "LIBGL_ALWAYS_SOFTWARE", text "GALLIUM_DRIVER"]

/-- `NIXOS_VULKAN_DIRECTORY`. -/
def nixosVulkanDirectory : Text := text "/run/opengl-driver/share/vulkan/icd.d"

def backendFor (requested : RequestedBackend) (pagesize : Nat) : Except Failure Backend :=
  match requested with
  | .auto => .ok (if pagesize = 4096 then .fex else .muvm)
  | .named backend =>
      if backend = .fex ∧ pagesize ≠ 4096 then
        .error (.runtimeError
          (text "direct FEX needs 4096-byte pages; use --backend muvm on this host"))
      else .ok backend

/-- Whether a name matches a pattern whose only wildcard is the star. -/
def fnmatch : Text → Text → Bool
  | [], name => name.isEmpty
  | c :: pattern, name =>
      if c = ('*' : CodePoint) then name.tails.any fun rest => fnmatch pattern rest
      else match name with
        | [] => false
        | d :: rest => c == d && fnmatch pattern rest

/-- The DRM drivers with a native context, and what their ICDs are called. -/
def knownDrivers : List (Text × Text) :=
  [(text "asahi", text "asahi"), (text "msm", text "freedreno"), (text "amdgpu", text "radeon")]

/-- The manifest patterns of a mode. -/
def patterns (mode : GpuMode) (drivers : List Text) : List Text :=
  match mode with
  | .venus => [text "virtio_icd.*.json"]
  | .software => [text "lvp_icd.*.json"]
  | .drm =>
      let present := sortedSet ((knownDrivers.map Prod.fst).filter fun driver => driver ∈ drivers)
      let named := present.map fun driver =>
        (knownDrivers.lookup driver).getD [] ++ text "_icd.*.json"
      if named = [] then [text "*.json"] else named
  | .auto | .native | .other _ => [text "*.json"]

/-- `manifests_in`: the names of the manifests a directory offers. -/
def manifestsIn (host : Host) (allowSoftware : Bool) (patterns : List Text) (directory : Text) :
    List Text :=
  sortedSet (patterns.flatMap fun pattern =>
    ((host.listing directory).filter fun entry =>
      fnmatch pattern entry.1 && entry.2 &&
        (allowSoftware || !(text "lvp_icd.").isPrefixOf entry.1)).map Prod.fst)

/-- The mode, the guest's manifests and the variables of native drivers. -/
structure Graphics where
  mode : GpuMode
  guest : Text
  native : Dict Text Text

/-- The mode `graphics` selects. -/
def gpuMode (host : Host) (settings : Settings) (backend : Backend) : Except Failure GpuMode :=
  let requested := if backend = .fex then .native else settings.gpuMode
  if requested = .auto then
    if ¬ [text "asahi", text "msm", text "amdgpu"].any (· ∈ host.drivers) then
      .error (.runtimeError (text ("no supported muvm DRM native-context driver found; select " ++
        "gpuMode = venus for Vulkan virtualization (software rendering is never selected " ++
        "automatically)")))
    else .ok .drm
  else if requested = .software ∧ settings.allowSoftwareRendering = false then
    .error (.runtimeError (text "gpuMode = software requires allowSoftwareRendering = true"))
  else .ok requested

/-- The native manifests: the first directory that has any, and among its manifests
the Asahi ones where that driver is present. -/
def nativeManifests (host : Host) (settings : Settings) (mode : GpuMode) : List Text :=
  let found (directory : Text) : List (Text × Text) :=
    (manifestsIn host settings.allowSoftwareRendering (patterns mode host.drivers) directory).map
      fun name => (directory, name)
  let nixos := found (PosixPath.pathText nixosVulkanDirectory)
  let paths := if nixos = [] then found (PosixPath.pathText settings.nativeVulkanDirectory)
    else nixos
  let asahi := paths.filter fun path => fnmatch (text "asahi_icd*.json") path.2
  let selected := if text "asahi" ∈ host.drivers ∧ mode = .native ∧ asahi ≠ [] then asahi else paths
  selected.map fun path => PosixPath.child path.1 path.2

def graphics (host : Host) (settings : Settings) (backend : Backend) : Except Failure Graphics := do
  let mode ← gpuMode host settings backend
  let manifests := manifestsIn host settings.allowSoftwareRendering (patterns mode host.drivers)
    (PosixPath.child settings.rootfs (text "usr/share/x86-on-arm/vulkan"))
  let native := nativeManifests host settings mode
  return {
    mode
    guest := List.intercalate (text ":")
      (manifests.map fun name => text "/usr/share/x86-on-arm/vulkan/" ++ name)
    native :=
      if native = [] then Dict.empty
      else Dict.ofList [(text "VK_DRIVER_FILES", List.intercalate (text ":") native)] }

def nativeEnvironment (source : Dict Text Text) : Dict Text Text :=
  source.filter fun key => key ∉ loaderVariables

/-- The display number of a `DISPLAY` value, when it names a local display. -/
def localDisplay (isDecimal : CodePoint → Bool) (display : Text) : Option Text :=
  match display with
  | [] => none
  | c :: rest =>
      let number := rest.takeWhile isDecimal
      let screen := rest.dropWhile isDecimal
      if c = (':' : CodePoint) ∧ number ≠ [] ∧
          (screen = [] ∨ (screen.head? = some ('.' : CodePoint) ∧ screen.tail ≠ [] ∧
            screen.tail.all isDecimal)) then
        some number
      else none

/-- The socket muvm forwards X11 to. -/
def x11Socket (host : Host) (source : Dict Text Text) : Option Text :=
  let configured := (source.get? (text "X11_SOCKET")).getD []
  if configured ≠ [] then some configured
  else match localDisplay host.isDecimal ((source.get? (text "DISPLAY")).getD []) with
    | none => none
    | some number =>
        let path := text "/tmp/.X11-unix/X" ++ number
        let renamed := path ++ text "_"
        [path, renamed].find? fun candidate =>
          match host.socketAt candidate with
          | none => false
          | some socket => (candidate ≠ renamed || socket.owner = host.uid) && socket.accepts

/-- The variables a guest on this backend does not get from the caller. -/
def omitted (backend : Backend) : List Text :=
  if backend = .muvm then loaderVariables ++ vmVariables else loaderVariables

/-- The variables every guest gets. -/
def guestDefaults (settings : Settings) (source : Dict Text Text) : List (Text × Text) :=
  [(text "PATH", text "/usr/local/bin:/usr/bin:/bin:" ++ (source.get? (text "PATH")).getD []),
    (text "LANG", text "C.UTF-8"),
    (text "LC_ALL", text "C.UTF-8"),
    (text "FEX_ROOTFS", settings.rootfs),
    (text "FEX_THUNKCONFIG", settings.thunkConfig),
    (text "XDG_DATA_DIRS",
      text "/usr/local/share:/usr/share:" ++ (source.get? (text "XDG_DATA_DIRS")).getD []),
    (text "SSL_CERT_FILE", text "/etc/ssl/certs/ca-bundle.crt"),
    (text "LIBGL_DRIVERS_PATH",
      text "/run/opengl-driver/lib/dri:/run/opengl-driver-32/lib/dri"),
    (text "__EGL_VENDOR_LIBRARY_DIRS", text ("/run/opengl-driver/share/glvnd/egl_vendor.d:" ++
      "/run/opengl-driver-32/share/glvnd/egl_vendor.d"))]

/-- The variables a guest in the VM gets, with those its mode needs. -/
def vmGuestVariables (uid : Nat) (mode : GpuMode) : List (Text × Text) :=
  [(text "PULSE_SERVER", text "unix:/run/user/" ++ decimal uid ++ text "/pulse/native"),
    (text "DBUS_SESSION_BUS_ADDRESS", text "unix:path=/run/user/" ++ decimal uid ++ text "/bus"),
    (text "SDL_AUDIODRIVER", text "pulseaudio")] ++
  match mode with
  | .venus => [(text "MESA_LOADER_DRIVER_OVERRIDE", text "zink")]
  | .software =>
      [(text "MESA_LOADER_DRIVER_OVERRIDE", text "llvmpipe"),
        (text "LIBGL_ALWAYS_SOFTWARE", text "1"), (text "GALLIUM_DRIVER", text "llvmpipe")]
  | .auto | .native | .drm | .other _ => []

/-- What `guest_environment` assigns itself, in order. -/
def guestAssignments (host : Host) (settings : Settings) (source : Dict Text Text)
    (backend : Backend) (graphics : Graphics) : List (Text × Text) :=
  guestDefaults settings source ++
    (if graphics.guest ≠ [] then [(text "VK_DRIVER_FILES", graphics.guest)] else []) ++
    (if backend = .muvm then vmGuestVariables host.uid graphics.mode else [])

/-- The guest's environment under a graphics selection. -/
def guestVariables (host : Host) (settings : Settings) (source : Dict Text Text)
    (backend : Backend) (graphics : Graphics) : Dict Text Text :=
  ((source.filter fun key => key ∉ omitted backend).updateEntries
    (guestAssignments host settings source backend graphics)).update settings.environment

def guestEnvironment (host : Host) (settings : Settings) (source : Dict Text Text)
    (backend : Backend) : Except Failure (Dict Text Text) := do
  return guestVariables host settings source backend (← graphics host settings backend)

end X86OnArm.Runtime
