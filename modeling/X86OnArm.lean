import X86OnArm.Foundation.ControlGroups
import X86OnArm.Foundation.Dict
import X86OnArm.Foundation.Machine
import X86OnArm.Foundation.Shell
import X86OnArm.Foundation.Text
import X86OnArm.Foundation.Quoting
import X86OnArm.Runtime.CommandScript
import X86OnArm.Foundation.LockedStream
import X86OnArm.Muvm.Command
import X86OnArm.Muvm.ForwardInput
import X86OnArm.Muvm.InputFraming
import X86OnArm.Muvm.IoGuest
import X86OnArm.Muvm.OutputOrder
import X86OnArm.Foundation.LineReader
import X86OnArm.Muvm.ReadRequest
import X86OnArm.Muvm.RequestLifetime
import X86OnArm.Runtime.ColdStart
import X86OnArm.Runtime.ColdStartRuns
import X86OnArm.Foundation.Outcome
import X86OnArm.Foundation.PosixPath
import X86OnArm.Runtime.Environment
import X86OnArm.Runtime.EnvironmentDomains
import X86OnArm.Runtime.ProcessArguments
import X86OnArm.Foundation.FileTree
import X86OnArm.Guest.Assemble
import X86OnArm.Guest.ClosedImage
import X86OnArm.Guest.LaidOut
import X86OnArm.Guest.Relocation
import X86OnArm.Foundation.Encoding
import X86OnArm.Muvm.SignalMembers
import X86OnArm.Runtime.ScriptEncoding
import X86OnArm.Runtime.SoftwareGate
import X86OnArm.Runtime.ProgramLookup
import X86OnArm.Foundation.LexicalWalk
import X86OnArm.Runtime.PathNormalisation
import X86OnArm.Runtime.ScriptCleanup
import X86OnArm.Runtime.SignalForwarding
import X86OnArm.Muvm.StdinEnd
import X86OnArm.Muvm.StrandedClient
import X86OnArm.Muvm.RequestCgroups
import X86OnArm.Muvm.RequestLaunch
import X86OnArm.Foundation.LinkedRing
import X86OnArm.Thunks.WaylandList
import X86OnArm.Thunks.OverlayCheck
import X86OnArm.Thunks.WaylandArray
import X86OnArm.Foundation.Mounts
import X86OnArm.Foundation.RelocatedWalk
import X86OnArm.Foundation.MountNamespace
import X86OnArm.Applications.PressureVessel
import X86OnArm.Applications.ProviderView
import X86OnArm.Guest.DriverLinks
import X86OnArm.Applications.ContainerImage
import X86OnArm.Guest.NativeView
import X86OnArm.Checks.ImageWalk
import X86OnArm.Checks.CheckedImage
import X86OnArm.Muvm.PortSearch
import X86OnArm.Foundation.Progress
import X86OnArm.Muvm.DuplexRelay
import X86OnArm.Muvm.DuplexOutput
import X86OnArm.Muvm.DuplexProgress
import X86OnArm.Applications.SteamBootstrap
import X86OnArm.Applications.SteamPublication
import X86OnArm.Guest.Session
import X86OnArm.Foundation.TextOrder
import X86OnArm.Runtime.VulkanManifests
import X86OnArm.Foundation.Json
import X86OnArm.Foundation.JsonText
import X86OnArm.Foundation.JsonReading
import X86OnArm.Muvm.RequestDocument
import X86OnArm.Runtime.NativeConfig
import X86OnArm.Runtime.Service
import X86OnArm.Runtime.X11Channel
import X86OnArm.Runtime.Configuration
import X86OnArm.Runtime.GuestLaunch
import X86OnArm.Applications.Wine
import X86OnArm.Applications.SteamLaunch
import X86OnArm.Thunks.ThunkPaths
import X86OnArm.Thunks.EglAttributes
