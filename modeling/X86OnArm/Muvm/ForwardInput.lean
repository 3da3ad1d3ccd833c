import X86OnArm.Foundation.LockedStream
import X86OnArm.Foundation.Machine
import X86OnArm.Muvm.Command

/-! # The host's input and its decoder

On the host, `forward_stdin` and `update_size` write packets to the transport
under one mutex. In the guest, `forward_input` decodes them and feeds the child's
stdin, which the child may close at any time.
-/

namespace X86OnArm.Muvm

open Foundation

/-- The opcodes of host packets: two bits each, and different. -/
structure HostOpcodes where
  writeStdin : UInt16
  updateSize : UInt16
  stdin_small : writeStdin.toNat < 4
  size_small : updateSize.toNat < 4
  stdin_ne_size : writeStdin ≠ updateSize

structure Winsize where
  col : UInt16
  row : UInt16
  deriving DecidableEq

def Winsize.bytes (size : Winsize) : List Byte := toLeBytes size.col ++ toLeBytes size.row

/-- A packet of the host: a piece of stdin, empty at its end, or a window size. -/
inductive InputFrame where
  | stdin (data : List Byte)
  | size (window : Winsize)
  deriving DecidableEq

namespace InputFrame

/-- The bytes `forward_stdin` and `update_size` write for a packet. -/
def bytes (codes : HostOpcodes) : InputFrame → List Byte
  | .stdin data => toLeBytes (packCommand codes.writeStdin data.length) ++ data
  | .size window => toLeBytes codes.updateSize ++ window.bytes

def data? : InputFrame → Option (List Byte)
  | .stdin data => some data
  | .size _ => none

def size? : InputFrame → Option Winsize
  | .stdin _ => none
  | .size window => some window

end InputFrame

/-- The pieces of stdin among packets. -/
def inputs (frames : List InputFrame) : List (List Byte) := frames.filterMap InputFrame.data?

def sizes (frames : List InputFrame) : List Winsize := frames.filterMap InputFrame.size?

/-- What `forward_input` is reading: a command, a payload or a window size. -/
inductive Expected where
  | command
  | payload (len : Nat)
  | size
  deriving DecidableEq

def Expected.length : Expected → Nat
  | .command => 2
  | .payload len => len
  | .size => 4

inductive DecoderPhase where
  /-- `read_exact`, with the bytes it has so far. -/
  | reading (expected : Expected) (got : List Byte)
  /-- `write_all` to the child, with the bytes it has not written. -/
  | writing (rest : List Byte)
  | unexpected (opc : UInt16)
  | returned
  deriving DecidableEq

/-- The locals of `forward_input` and what it has done. -/
structure Decoder where
  phase : DecoderPhase
  /-- Whether the local `stdin` is `Some`. -/
  stdin : Bool
  decoded : List InputFrame
  /-- The packets decoded up to the one that made `stdin` `None`. -/
  seen : List InputFrame
  received : List Byte
  applied : List Winsize

namespace Decoder

def start : Decoder := ⟨.reading .command [], true, [], [], [], []⟩

/-- Record a decoded packet. -/
def record (decoder : Decoder) (frame : InputFrame) : Decoder :=
  { decoder with
    decoded := decoder.decoded ++ [frame]
    seen := if decoder.stdin then decoder.seen ++ [frame] else decoder.seen }

/-- The branch on a command. -/
def onCommand (codes : HostOpcodes) (decoder : Decoder) (cmd : UInt16) : Decoder :=
  if opcode cmd = codes.writeStdin then
    if operand cmd = 0 then
      { decoder.record (.stdin []) with phase := .reading .command [], stdin := false }
    else { decoder with phase := .reading (.payload (operand cmd)) [] }
  else if opcode cmd = codes.updateSize then { decoder with phase := .reading .size [] }
  else { decoder with phase := .unexpected (opcode cmd) }

def onPayload (decoder : Decoder) (data : List Byte) : Decoder :=
  { decoder.record (.stdin data) with
    phase := if decoder.stdin then .writing data else .reading .command [] }

def onSize (decoder : Decoder) (size : Winsize) : Decoder :=
  { decoder.record (.size size) with
    phase := .reading .command []
    applied := if decoder.stdin then decoder.applied ++ [size] else decoder.applied }

/-- What follows a complete `read_exact`. -/
def onRead (codes : HostOpcodes) (decoder : Decoder) : Expected → List Byte → Decoder
  | .command, [low, high] => decoder.onCommand codes (fromLeBytes low high)
  | .payload _, data => decoder.onPayload data
  | .size, [a, b, c, d] => decoder.onSize ⟨fromLeBytes a b, fromLeBytes c d⟩
  | _, _ => decoder

/-- `read_exact` receives more bytes. -/
def receive (codes : HostOpcodes) (decoder : Decoder) (piece : List Byte) : Option Decoder :=
  match decoder.phase with
  | .reading expected got =>
      let got := got ++ piece
      if got.length < expected.length then
        some { decoder with phase := .reading expected got }
      else if got.length = expected.length then some (decoder.onRead codes expected got)
      else none
  | _ => none

/-- `write_all` writes more bytes, and goes on to the next command after the last. -/
def deliver (decoder : Decoder) (count : Nat) : Option Decoder :=
  match decoder.phase with
  | .writing rest =>
      if 0 < count ∧ count ≤ rest.length then some
        { decoder with
          received := decoder.received ++ rest.take count
          phase :=
            if count = rest.length then .reading .command [] else .writing (rest.drop count) }
      else none
  | _ => none

def brokenPipe (decoder : Decoder) : Option Decoder :=
  match decoder.phase with
  | .writing _ => some { decoder with phase := .reading .command [], stdin := false }
  | _ => none

/-- `read_exact` fails at the end of the stream. -/
def endOfStream (decoder : Decoder) : Option Decoder :=
  match decoder.phase with
  | .reading _ _ => some { decoder with phase := .returned }
  | _ => none

end Decoder

inductive HostWriter where
  | forwardStdin
  | updateSize
  deriving DecidableEq

inductive StdinThread where
  | reading
  | locking (data : List Byte)
  | writing (last : Bool)
  | finished
  deriving DecidableEq

inductive SizeThread where
  | waiting
  | locking (size : Winsize)
  | writing
  deriving DecidableEq

/-- The two writers of the host, the transport and the guest's decoder. -/
structure InputState (codes : HostOpcodes) where
  stdinThread : StdinThread
  sizeThread : SizeThread
  stream : LockedStream HostWriter (InputFrame.bytes codes)
  connected : Bool
  /-- Whether the child still reads its stdin. -/
  childReads : Bool
  decoder : Decoder
  /-- What `forward_stdin` has read, and the updates that were asked for. -/
  chunks : List (List Byte)
  updates : List Winsize

inductive InputAction where
  | readStdin (data : List Byte)
  | lockStdin
  | resize (size : Winsize)
  | lockSize
  | write (count : Nat)
  | unlock
  | disconnect
  | receive (count : Nat)
  | deliver (count : Nat)
  | brokenPipe
  | endOfStream
  | closeStdin
  deriving DecidableEq

namespace InputState

variable {codes : HostOpcodes}

def start (codes : HostOpcodes) : InputState codes where
  stdinThread := .reading
  sizeThread := .waiting
  stream := .empty
  connected := true
  childReads := true
  decoder := .start
  chunks := []
  updates := []

def step (state : InputState codes) : InputAction → Option (InputState codes)
  | .readStdin data =>
      if state.stdinThread = .reading ∧ data.length ≤ 4096 then some
        { state with stdinThread := .locking data, chunks := state.chunks ++ [data] }
      else none
  | .lockStdin =>
      match state.stdinThread with
      | .locking data => (state.stream.acquire .forwardStdin (.stdin data)).map fun stream =>
          { state with stream := stream, stdinThread := .writing data.isEmpty }
      | _ => none
  | .resize size =>
      if state.sizeThread = .waiting then some
        { state with sizeThread := .locking size, updates := state.updates ++ [size] }
      else none
  | .lockSize =>
      match state.sizeThread with
      | .locking size => (state.stream.acquire .updateSize (.size size)).map fun stream =>
          { state with stream := stream, sizeThread := .writing }
      | _ => none
  | .write count =>
      if state.connected then
        (state.stream.write count).map fun stream => { state with stream := stream }
      else none
  | .unlock =>
      match state.stdinThread, state.sizeThread, state.stream.holder with
      | .writing last, _, some .forwardStdin => state.stream.release.map fun stream =>
          { state with stream := stream, stdinThread := if last then .finished else .reading }
      | _, .writing, some .updateSize => state.stream.release.map fun stream =>
          { state with stream := stream, sizeThread := .waiting }
      | _, _, _ => none
  | .disconnect => some { state with connected := false }
  | .receive count =>
      if 0 < count ∧ count ≤ state.stream.inFlight.length then
        (state.decoder.receive codes (state.stream.inFlight.take count)).map fun decoder =>
          { state with decoder := decoder, stream := state.stream.take count }
      else none
  | .deliver count =>
      if state.childReads then
        (state.decoder.deliver count).map fun decoder => { state with decoder := decoder }
      else none
  | .brokenPipe =>
      if state.childReads then none
      else state.decoder.brokenPipe.map fun decoder => { state with decoder := decoder }
  | .endOfStream =>
      if state.connected = false ∧ state.stream.inFlight = [] then
        state.decoder.endOfStream.map fun decoder => { state with decoder := decoder }
      else none
  | .closeStdin => some { state with childReads := false }

end InputState

/-- The host's writers, `forward_input` and the child. -/
def forwardInput (codes : HostOpcodes) : Machine (InputState codes) InputAction :=
  ⟨InputState.step⟩

/-- What a step can do. -/
inductive InputStep {codes : HostOpcodes} (state : InputState codes) :
    InputAction → InputState codes → Prop
  | readStdin {data : List Byte} (reading : state.stdinThread = .reading)
      (short : data.length ≤ 4096) :
      InputStep state (.readStdin data)
        { state with stdinThread := .locking data, chunks := state.chunks ++ [data] }
  | lockStdin {data : List Byte} {stream : LockedStream HostWriter (InputFrame.bytes codes)}
      (locking : state.stdinThread = .locking data)
      (acquired : state.stream.acquire .forwardStdin (.stdin data) = some stream) :
      InputStep state .lockStdin
        { state with stream := stream, stdinThread := .writing data.isEmpty }
  | resize {size : Winsize} (waiting : state.sizeThread = .waiting) :
      InputStep state (.resize size)
        { state with sizeThread := .locking size, updates := state.updates ++ [size] }
  | lockSize {size : Winsize} {stream : LockedStream HostWriter (InputFrame.bytes codes)}
      (locking : state.sizeThread = .locking size)
      (acquired : state.stream.acquire .updateSize (.size size) = some stream) :
      InputStep state .lockSize { state with stream := stream, sizeThread := .writing }
  | write {count : Nat} {stream : LockedStream HostWriter (InputFrame.bytes codes)}
      (connected : state.connected = true) (written : state.stream.write count = some stream) :
      InputStep state (.write count) { state with stream := stream }
  | unlockStdin {last : Bool} {stream : LockedStream HostWriter (InputFrame.bytes codes)}
      (writing : state.stdinThread = .writing last)
      (holds : state.stream.holder = some .forwardStdin)
      (released : state.stream.release = some stream) :
      InputStep state .unlock
        { state with stream := stream, stdinThread := if last then .finished else .reading }
  | unlockSize {stream : LockedStream HostWriter (InputFrame.bytes codes)}
      (writing : state.sizeThread = .writing) (holds : state.stream.holder = some .updateSize)
      (released : state.stream.release = some stream) :
      InputStep state .unlock { state with stream := stream, sizeThread := .waiting }
  | disconnect : InputStep state .disconnect { state with connected := false }
  | receive {count : Nat} {decoder : Decoder}
      (available : 0 < count ∧ count ≤ state.stream.inFlight.length)
      (received :
        state.decoder.receive codes (state.stream.inFlight.take count) = some decoder) :
      InputStep state (.receive count)
        { state with decoder := decoder, stream := state.stream.take count }
  | deliver {count : Nat} {decoder : Decoder} (reads : state.childReads = true)
      (delivered : state.decoder.deliver count = some decoder) :
      InputStep state (.deliver count) { state with decoder := decoder }
  | brokenPipe {decoder : Decoder} (closed : state.childReads = false)
      (broken : state.decoder.brokenPipe = some decoder) :
      InputStep state .brokenPipe { state with decoder := decoder }
  | endOfStream {decoder : Decoder} (gone : state.connected = false)
      (empty : state.stream.inFlight = [])
      (ended : state.decoder.endOfStream = some decoder) :
      InputStep state .endOfStream { state with decoder := decoder }
  | closeStdin : InputStep state .closeStdin { state with childReads := false }

theorem InputState.inputStep {codes : HostOpcodes} {state after : InputState codes}
    {action : InputAction} (stepped : state.step action = some after) :
    InputStep state action after := by
  cases action <;>
    simp only [step, Option.ite_none_right_eq_some, Option.ite_none_left_eq_some,
      Option.map_eq_some_iff, Option.some.injEq] at stepped
  case readStdin data =>
    obtain ⟨⟨reading, short⟩, rfl⟩ := stepped
    exact .readStdin reading short
  case lockStdin =>
    split at stepped
    case h_1 locking =>
      obtain ⟨stream, acquired, rfl⟩ := Option.map_eq_some_iff.mp stepped
      exact .lockStdin locking acquired
    case h_2 => cases stepped
  case resize size =>
    obtain ⟨waiting, rfl⟩ := stepped
    exact .resize waiting
  case lockSize =>
    split at stepped
    case h_1 locking =>
      obtain ⟨stream, acquired, rfl⟩ := Option.map_eq_some_iff.mp stepped
      exact .lockSize locking acquired
    case h_2 => cases stepped
  case write count =>
    obtain ⟨connected, stream, written, rfl⟩ := stepped
    exact .write connected written
  case unlock =>
    split at stepped
    case h_1 writing holds =>
      obtain ⟨stream, released, rfl⟩ := Option.map_eq_some_iff.mp stepped
      exact .unlockStdin writing holds released
    case h_2 writing holds =>
      obtain ⟨stream, released, rfl⟩ := Option.map_eq_some_iff.mp stepped
      exact .unlockSize writing holds released
    case h_3 => cases stepped
  case disconnect =>
    subst stepped
    exact .disconnect
  case receive count =>
    obtain ⟨available, decoder, received, rfl⟩ := stepped
    exact .receive available received
  case deliver count =>
    obtain ⟨reads, decoder, delivered, rfl⟩ := stepped
    exact .deliver reads delivered
  case brokenPipe =>
    obtain ⟨closed, decoder, broken, rfl⟩ := stepped
    exact .brokenPipe (eq_false_of_ne_true closed) broken
  case endOfStream =>
    obtain ⟨⟨gone, empty⟩, decoder, ended, rfl⟩ := stepped
    exact .endOfStream gone empty ended
  case closeStdin =>
    subst stepped
    exact .closeStdin

end X86OnArm.Muvm
