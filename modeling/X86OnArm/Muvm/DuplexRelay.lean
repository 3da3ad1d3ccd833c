import X86OnArm.Muvm.InputFraming
import X86OnArm.Muvm.OutputOrder

/-! # Both directions of a request

The host's stdin thread, `forward_input`, the processes of the request and
`run_io_guest` form a circle: input reaches the processes, and their output comes back.
Every buffer on the way is bounded, so each party may have to wait for the next one.
The request has no terminal: its streams are pipes, which keep every byte in order and
are not opened again once their last writer has closed them, and the host sends no
window size.
-/

namespace X86OnArm.Muvm

open Foundation

/-- The sizes of the buffers: both directions of the transport, the child's stdin and
its output streams. -/
structure Capacities where
  toGuest : Nat
  toHost : Nat
  childStdin : Nat
  output : Output → Nat
  toGuest_pos : 0 < toGuest
  toHost_pos : 0 < toHost
  childStdin_pos : 0 < childStdin
  output_pos : ∀ which, 0 < output which

/-- What a process of the request is doing: it may be blocked in a read of its stdin or
in a write of what is left of its output. -/
inductive ProcessPhase where
  | computing
  | reading
  | writing (which : Output) (rest : List Byte)
  | exited
  deriving DecidableEq

/-- A request without a terminal, its processes and the buffers between them and the
host. -/
structure Relay (hostCodes : HostOpcodes) where
  input : InputState hostCodes
  output : Guest
  /-- The processes of the request; the leader is the first. -/
  processes : List ProcessPhase
  childStdin : List Byte
  /-- What `write_all` of the guest's loop has still to write. -/
  unsent : List Byte
  toHost : List Byte
  /-- What the host's loop has read. -/
  printed : List Byte

inductive ProcessCall where
  | startRead
  | startWrite (which : Output) (bytes : List Byte)
  | read (count : Nat)
  | endOfInput
  | write (count : Nat)
  | fork
  | exit
  deriving DecidableEq

inductive RelayAction where
  | input (action : InputAction)
  | output (action : GuestAction)
  | flush (count : Nat)
  | drain (count : Nat)
  | process (identity : Nat) (call : ProcessCall)
  /-- The last process that has a stream closes it. -/
  | hangUp (which : Output)
  /-- The worker reaps the leader and writes its status byte. -/
  | status (code : Byte)
  deriving DecidableEq

def packetBytes : Effect → List Byte
  | .packet packet => packet.bytes
  | .finished => []

/-- The bytes of the packets of a log. -/
def logBytes (log : List Effect) : List Byte := log.flatMap packetBytes

namespace ProcessPhase

def isReading : ProcessPhase → Bool
  | .reading => true
  | _ => false

def isWriting (which : Output) : ProcessPhase → Bool
  | .writing blocked _ => blocked = which
  | _ => false

end ProcessPhase

namespace Guest

/-- Whether epoll's flags say what is there: input or an end to be read, and an end. -/
def accurate (guest : Guest) (flags : Flags) : EventSource → Bool
  | .output which =>
      (!flags.epollin || !(guest.source which).buffer.isEmpty || (guest.source which).hungUp) &&
        (!flags.epollhup || (guest.source which).hungUp)
  | .stopPipe =>
      (!flags.epollin || guest.statusUnread.isSome) && (!flags.epollhup || guest.statusClosed)

/-- The steps of the loop whose calls succeed. Those of the loop's surroundings, among
them the opening of a hung-up terminal, are no steps of the loop. -/
def permitted (guest : Guest) : GuestAction → Bool
  | .poll source flags => guest.accurate flags source
  | .read .failed | .fail | .handle false | .exit false => false
  | .read _ | .handle true | .report | .exit true => true
  | .write _ _ | .hangUp _ | .reopen | .writeStatus _ | .closeStatus => false

end Guest

namespace Relay

variable {hostCodes : HostOpcodes}

def start (hostCodes : HostOpcodes) : Relay hostCodes where
  input := .start hostCodes
  output := .start false
  processes := [.computing]
  childStdin := []
  unsent := []
  toHost := []
  printed := []

/-- The host's side of the transport and `forward_input`, while the transport is up. -/
def inputStep (limits : Capacities) (relay : Relay hostCodes) (action : InputAction) :
    Option (Relay hostCodes) :=
  let stepped := (relay.input.step action).map fun input => { relay with input }
  match action with
  | .write count =>
      if relay.input.stream.inFlight.length + count ≤ limits.toGuest then stepped else none
  | .deliver count =>
      if relay.childStdin.length + count ≤ limits.childStdin then
        stepped.map fun after => { after with
          childStdin := relay.childStdin ++
            after.input.decoder.received.drop relay.input.decoder.received.length }
      else none
  | .closeStdin =>
      if relay.processes.any ProcessPhase.isReading then none else stepped
  -- only a terminal has a size
  | .resize _ => none
  | .disconnect | .endOfStream => none
  | .readStdin _ | .lockStdin | .lockSize | .unlock | .receive _ | .brokenPipe => stepped

/-- The guest's loop, whose calls succeed; it goes on after its packet was written. -/
def outputStep (codes : GuestOpcodes) (relay : Relay hostCodes) (action : GuestAction) :
    Option (Relay hostCodes) :=
  if relay.unsent = [] ∧ relay.output.permitted action then
    (relay.output.step codes action).map fun output =>
      { relay with output, unsent := logBytes (output.log.drop relay.output.log.length) }
  else none

def processStep (limits : Capacities) (codes : GuestOpcodes) (relay : Relay hostCodes)
    (identity : Nat) (call : ProcessCall) : Option (Relay hostCodes) :=
  let become (phase : ProcessPhase) := relay.processes.set identity phase
  match relay.processes[identity]?, call with
  | some .computing, .startRead =>
      if relay.input.childReads then some { relay with processes := become .reading } else none
  | some .computing, .startWrite which bytes =>
      if bytes ≠ [] ∧ hasOutput relay.output.tty which ∧
          (relay.output.source which).hungUp = false then
        some { relay with processes := become (.writing which bytes) }
      else none
  | some .computing, .fork => some { relay with processes := relay.processes ++ [.computing] }
  | some .computing, .exit => some { relay with processes := become .exited }
  | some .reading, .read count =>
      if 0 < count ∧ count ≤ relay.childStdin.length then some
        { relay with
          processes := become .computing
          childStdin := relay.childStdin.drop count }
      else none
  | some .reading, .endOfInput =>
      if relay.childStdin = [] ∧ relay.input.decoder.stdin = false then
        some { relay with processes := become .computing }
      else none
  | some (.writing which rest), .write count =>
      if 0 < count ∧ count ≤ rest.length ∧
          (relay.output.source which).buffer.length + count ≤ limits.output which then
        (relay.output.step codes (.write which (rest.take count))).map fun output =>
          { relay with
            output
            processes := become
              (if count = rest.length then .computing else .writing which (rest.drop count)) }
      else none
  | _, _ => none

def step (limits : Capacities) (codes : GuestOpcodes) (relay : Relay hostCodes) :
    RelayAction → Option (Relay hostCodes)
  | .input action => relay.inputStep limits action
  | .output action => relay.outputStep codes action
  | .flush count =>
      if 0 < count ∧ count ≤ relay.unsent.length ∧
          relay.toHost.length + count ≤ limits.toHost then some
        { relay with
          unsent := relay.unsent.drop count
          toHost := relay.toHost ++ relay.unsent.take count }
      else none
  | .drain count =>
      if 0 < count ∧ count ≤ relay.toHost.length then some
        { relay with
          toHost := relay.toHost.drop count
          printed := relay.printed ++ relay.toHost.take count }
      else none
  | .process identity call => relay.processStep limits codes identity call
  | .hangUp which =>
      if relay.processes.any (ProcessPhase.isWriting which) then none
      else (relay.output.step codes (.hangUp which)).map fun output => { relay with output }
  | .status code =>
      if relay.processes[0]? = some .exited then
        ((relay.output.step codes (.writeStatus code)).bind fun output =>
          output.step codes .closeStatus).map fun output => { relay with output }
      else none

end Relay

/-- A request's two directions with the buffers between its parties. -/
def duplexRelay (limits : Capacities) (hostCodes : HostOpcodes) (codes : GuestOpcodes) :
    Machine (Relay hostCodes) RelayAction :=
  ⟨Relay.step limits codes⟩

namespace RelayAction

/-- The output side: the processes' writes, the guest's loop and the host's. -/
def IsOutput : RelayAction → Prop
  | .output _ | .flush _ | .drain _ | .process _ (.write _) => True
  | _ => False

/-- The steps that parties take by themselves: not what the user types or a program
chooses to do. -/
def IsProgress : RelayAction → Prop
  | .input (.readStdin _) | .input (.resize _) | .input .closeStdin => False
  | .input _ => True
  | .process _ (.read _) | .process _ .endOfInput => True
  | action => action.IsOutput

end RelayAction

end X86OnArm.Muvm
