import X86OnArm.Muvm.ForwardInput
import Mathlib.Data.List.Basic
import Mathlib.Tactic.Common

/-! # Input framing

`forward_input` stays in step with the packets the host's writers send, however
the writers interleave and however the stream is cut. The main result is
`forwardInput_framing`.
-/

namespace X86OnArm.Muvm

open Foundation

/-! ## Packets -/

namespace InputFrame

variable (codes : HostOpcodes)

/-- The length of a packet of `forward_stdin` is that of one read. -/
def Sendable : InputFrame → Prop
  | .stdin data => data.length ≤ 4096
  | .size _ => True

def cmd : InputFrame → UInt16
  | .stdin data => packCommand codes.writeStdin data.length
  | .size _ => codes.updateSize

def body : InputFrame → List Byte
  | .stdin data => data
  | .size window => window.bytes

theorem bytes_eq (frame : InputFrame) :
    frame.bytes codes = toLeBytes (frame.cmd codes) ++ frame.body := by
  cases frame <;> rfl

end InputFrame

@[simp] theorem inputs_append (first second : List InputFrame) :
    inputs (first ++ second) = inputs first ++ inputs second := List.filterMap_append

@[simp] theorem sizes_append (first second : List InputFrame) :
    sizes (first ++ second) = sizes first ++ sizes second := List.filterMap_append

@[simp] theorem inputs_stdin (data : List Byte) : inputs [.stdin data] = [data] := rfl

@[simp] theorem inputs_size (window : Winsize) : inputs [.size window] = [] := rfl

@[simp] theorem sizes_stdin (data : List Byte) : sizes [.stdin data] = [] := rfl

@[simp] theorem sizes_size (window : Winsize) : sizes [.size window] = [window] := rfl

theorem mem_inputs {frames : List InputFrame} {data : List Byte} :
    data ∈ inputs frames ↔ .stdin data ∈ frames := by
  simp only [inputs, List.mem_filterMap]
  refine ⟨fun ⟨frame, member, same⟩ => ?_, fun member => ⟨_, member, rfl⟩⟩
  cases frame with
  | stdin other =>
      cases same
      exact member
  | size window => cases same

private theorem fits_of_sendable {data : List Byte} (short : data.length ≤ 4096) :
    data.length < operandBound := by
  unfold operandBound
  omega

/-! ## One step of the decoder -/

namespace Decoder

variable {codes : HostOpcodes} {decoder : Decoder}

private theorem onCommand_end (decoder : Decoder) :
    decoder.onCommand codes (packCommand codes.writeStdin 0) =
      { decoder.record (.stdin []) with phase := .reading .command [], stdin := false } := by
  have fits : 0 < operandBound := by decide
  unfold onCommand
  rw [if_pos (opcode_packCommand codes.stdin_small fits),
    if_pos (operand_packCommand codes.stdin_small fits)]

private theorem onCommand_stdin (decoder : Decoder) {data : List Byte} (nonempty : data ≠ [])
    (short : data.length ≤ 4096) :
    decoder.onCommand codes (packCommand codes.writeStdin data.length) =
      { decoder with phase := .reading (.payload data.length) [] } := by
  have fits := fits_of_sendable short
  have operand := operand_packCommand codes.stdin_small fits
  unfold onCommand
  rw [if_pos (opcode_packCommand codes.stdin_small fits), operand,
    if_neg (mt List.length_eq_zero_iff.mp nonempty)]

private theorem opcode_updateSize (codes : HostOpcodes) :
    opcode codes.updateSize = codes.updateSize := by
  have zero : packCommand codes.updateSize 0 = codes.updateSize := by
    apply UInt16.toNat_inj.mp
    rw [packCommand_toNat codes.size_small (by decide : 0 < operandBound)]
    omega
  have packed := opcode_packCommand codes.size_small (by decide : 0 < operandBound)
  rwa [zero] at packed

private theorem onCommand_size (decoder : Decoder) :
    decoder.onCommand codes codes.updateSize = { decoder with phase := .reading .size [] } := by
  unfold onCommand
  rw [opcode_updateSize, if_neg codes.stdin_ne_size.symm, if_pos rfl]

/-- The position of the decoder in the packets `rest` that it has not decoded and
whose remaining bytes are `incoming`. -/
def Aligned (codes : HostOpcodes) (incoming : List Byte) (rest : List InputFrame) :
    DecoderPhase → Prop
  | .reading .command got =>
      got ++ incoming = rest.flatMap (InputFrame.bytes codes) ∧ got.length < 2
  | .reading (.payload len) got => ∃ data tail, rest = .stdin data :: tail ∧
      len = data.length ∧ got ++ incoming = data ++ tail.flatMap (InputFrame.bytes codes) ∧
      got.length < len
  | .reading .size got => ∃ window tail, rest = .size window :: tail ∧
      got ++ incoming = window.bytes ++ tail.flatMap (InputFrame.bytes codes) ∧ got.length < 4
  | .writing left => left ≠ [] ∧ incoming = rest.flatMap (InputFrame.bytes codes)
  | .unexpected _ => False
  | .returned => True

/-- What a piece of the stream does to the decoder, and the packets it completes. -/
inductive Consumed (decoder : Decoder) : List InputFrame → Decoder → Prop where
  | waits (expected : Expected) (got : List Byte) :
      Consumed decoder [] { decoder with phase := .reading expected got }
  | ended : Consumed decoder [.stdin []]
      { decoder.record (.stdin []) with phase := .reading .command [], stdin := false }
  | payload (data : List Byte) (nonempty : data ≠ []) :
      Consumed decoder [.stdin data] (decoder.onPayload data)
  | size (window : Winsize) : Consumed decoder [.size window] (decoder.onSize window)

/-- A complete command is the command of the next packet. -/
theorem onRead_command {got incoming : List Byte} {rest : List InputFrame}
    (sendable : ∀ frame ∈ rest, frame.Sendable)
    (aligned : got ++ incoming = rest.flatMap (InputFrame.bytes codes))
    (complete : got.length = 2) :
    ∃ frames tail, rest = frames ++ tail ∧
      decoder.Consumed frames (decoder.onRead codes .command got) ∧
      Aligned codes incoming tail (decoder.onRead codes .command got).phase := by
  cases rest with
  | nil =>
      have empty := (List.append_eq_nil_iff.mp aligned).1
      rw [empty] at complete
      cases complete
  | cons frame tail =>
      rw [List.flatMap_cons, frame.bytes_eq, List.append_assoc] at aligned
      obtain ⟨header, body⟩ := List.append_inj aligned complete
      have read :
          decoder.onRead codes .command got = decoder.onCommand codes (frame.cmd codes) := by
        rw [header]
        exact congrArg (decoder.onCommand codes) (fromLeBytes_toLeBytes _)
      rw [read]
      cases frame with
      | stdin data =>
          have short : data.length ≤ 4096 := sendable _ List.mem_cons_self
          by_cases empty : data = []
          · subst empty
            refine ⟨[.stdin []], tail, rfl, ?_⟩
            rw [InputFrame.cmd, List.length_nil, onCommand_end]
            exact ⟨.ended, body, by decide⟩
          · refine ⟨[], .stdin data :: tail, rfl, ?_⟩
            rw [InputFrame.cmd, onCommand_stdin decoder empty short]
            exact ⟨.waits _ _, data, tail, rfl, rfl, body, List.length_pos_iff.mpr empty⟩
      | size window =>
          refine ⟨[], .size window :: tail, rfl, ?_⟩
          rw [InputFrame.cmd, onCommand_size]
          exact ⟨.waits _ _, window, tail, rfl, body, by decide⟩

private theorem onRead_size (decoder : Decoder) (window : Winsize) :
    decoder.onRead codes .size window.bytes = decoder.onSize window := by
  change decoder.onSize ⟨_, _⟩ = _
  rw [fromLeBytes_toLeBytes, fromLeBytes_toLeBytes]

/-- **The decoder stays in step.** Whatever piece of the stream it receives, the
packets it completes are the next ones. -/
theorem receive_aligned {piece incoming : List Byte} {rest : List InputFrame} {after : Decoder}
    (sendable : ∀ frame ∈ rest, frame.Sendable)
    (aligned : Aligned codes (piece ++ incoming) rest decoder.phase)
    (received : decoder.receive codes piece = some after) :
    ∃ frames tail, rest = frames ++ tail ∧ decoder.Consumed frames after ∧
      Aligned codes incoming tail after.phase := by
  cases phase : decoder.phase with
  | reading expected got =>
      simp only [receive, phase] at received
      rw [phase] at aligned
      split_ifs at received with more complete
      · cases received
        refine ⟨[], rest, rfl, .waits _ _, ?_⟩
        cases expected with
        | command => exact ⟨(List.append_assoc ..).trans aligned.1, more⟩
        | payload len =>
            obtain ⟨data, tail, same, length, split, _⟩ := aligned
            exact ⟨data, tail, same, length, (List.append_assoc ..).trans split, more⟩
        | size =>
            obtain ⟨window, tail, same, split, _⟩ := aligned
            exact ⟨window, tail, same, (List.append_assoc ..).trans split, more⟩
      · cases received
        cases expected with
        | command => exact onRead_command sendable ((List.append_assoc ..).trans aligned.1) complete
        | payload len =>
            obtain ⟨data, tail, rfl, rfl, split, some⟩ := aligned
            obtain ⟨same, later⟩ :=
              List.append_inj ((List.append_assoc ..).trans split) complete
            have nonempty : data ≠ [] := by
              rintro rfl
              exact absurd some (Nat.not_lt_zero _)
            rw [same]
            refine ⟨[.stdin data], tail, rfl, .payload data nonempty, ?_⟩
            change Aligned codes incoming tail (if decoder.stdin then _ else _)
            split_ifs
            · exact ⟨nonempty, later⟩
            · exact ⟨later, by decide⟩
        | size =>
            obtain ⟨window, tail, rfl, split, _⟩ := aligned
            obtain ⟨same, later⟩ :=
              List.append_inj ((List.append_assoc ..).trans split) complete
            rw [same, onRead_size]
            exact ⟨[.size window], tail, rfl, .size window, later, by decide⟩
  | writing | unexpected | returned =>
      simp only [receive, phase, reduceCtorEq] at received

/-! ## What the child has got -/

/-- What `write_all` has still to write. -/
def undelivered : DecoderPhase → List Byte
  | .writing rest => rest
  | _ => []

@[simp] theorem undelivered_writing (rest : List Byte) : undelivered (.writing rest) = rest := rfl

@[simp] theorem undelivered_reading (expected : Expected) (got : List Byte) :
    undelivered (.reading expected got) = [] := rfl

/-- How the effects of the decoder follow from what it decoded. -/
structure Sound (decoder : Decoder) (childReads : Bool) : Prop where
  seen_within : decoder.seen <+: decoder.decoded
  seen_all : decoder.stdin = true → decoder.seen = decoder.decoded
  applied : decoder.applied = sizes decoder.seen
  writing : ∀ rest, decoder.phase = .writing rest → decoder.stdin = true
  ended : .stdin [] ∈ decoder.decoded → decoder.stdin = false
  received : decoder.stdin = true →
    decoder.received ++ undelivered decoder.phase = (inputs decoder.seen).flatten
  closed : decoder.stdin = false →
    (.stdin [] ∈ decoder.seen ∧ decoder.received = (inputs decoder.seen).flatten) ∨
      (childReads = false ∧ decoder.received <+: (inputs decoder.seen).flatten)

theorem start_sound : Decoder.start.Sound true where
  seen_within := List.prefix_refl _
  seen_all _ := rfl
  applied := rfl
  writing := nofun
  ended := nofun
  received _ := rfl
  closed := nofun

private theorem seen_record_of_open (opened : decoder.stdin = true) (frame : InputFrame) :
    (decoder.record frame).seen = decoder.seen ++ [frame] := if_pos opened

private theorem seen_record_of_closed (closed : decoder.stdin = false) (frame : InputFrame) :
    (decoder.record frame).seen = decoder.seen := if_neg (closed ▸ nofun)

/-- A packet decoded after `stdin` became `None` has no effect. -/
theorem Sound.ignored {childReads : Bool} (sound : decoder.Sound childReads)
    (closed : decoder.stdin = false) {after : Decoder} {frame : InputFrame}
    (phase : after.phase = .reading .command []) (stdin : after.stdin = false)
    (decoded : after.decoded = decoder.decoded ++ [frame]) (seen : after.seen = decoder.seen)
    (received : after.received = decoder.received) (applied : after.applied = decoder.applied) :
    after.Sound childReads where
  seen_within := by
    rw [seen, decoded]
    exact sound.seen_within.trans (List.prefix_append _ _)
  seen_all opened := absurd (stdin.symm.trans opened) nofun
  applied := by rw [applied, seen, sound.applied]
  writing rest writing := absurd (phase.symm.trans writing) nofun
  ended _ := stdin
  received opened := absurd (stdin.symm.trans opened) nofun
  closed _ := by
    rw [seen, received]
    exact sound.closed closed

/-- A packet decoded while `stdin` is open, with its effects. -/
theorem Sound.effective {childReads : Bool} (sound : decoder.Sound childReads)
    (opened : decoder.stdin = true) {expected : Expected} {got : List Byte}
    (reading : decoder.phase = .reading expected got) {after : Decoder} {frame : InputFrame}
    (decoded : after.decoded = decoder.decoded ++ [frame])
    (seen : after.seen = decoder.seen ++ [frame]) (received : after.received = decoder.received)
    (applied : after.applied = decoder.applied ++ sizes [frame])
    (pending : undelivered after.phase = (inputs [frame]).flatten)
    (ends : after.stdin = false ↔ frame = .stdin [])
    (writing : ∀ rest, after.phase = .writing rest → after.stdin = true) :
    after.Sound childReads := by
  have same : after.seen = after.decoded := by
    rw [seen, decoded, sound.seen_all opened]
  have total : after.received ++ undelivered after.phase = (inputs after.seen).flatten := by
    have before := sound.received opened
    rw [reading, undelivered_reading, List.append_nil] at before
    rw [received, pending, before, seen, inputs_append, List.flatten_append]
  refine ⟨?_, ?_, ?_, writing, ?_, fun _ => total, ?_⟩
  · exact same ▸ List.prefix_refl _
  · exact fun _ => same
  · rw [applied, seen, sizes_append, sound.applied]
  · intro member
    rw [decoded] at member
    rcases List.mem_append.mp member with earlier | last
    · exact absurd (opened.symm.trans (sound.ended earlier)) nofun
    · exact ends.mpr (List.mem_singleton.mp last).symm
  · intro closed
    have last := ends.mp closed
    subst last
    rw [pending, inputs_stdin, List.flatten_singleton, List.append_nil] at total
    exact .inl ⟨seen ▸ List.mem_append_right _ (List.mem_singleton_self _), total⟩

private theorem Sound.consumed {childReads : Bool} (sound : decoder.Sound childReads)
    {expected : Expected} {got : List Byte} (reading : decoder.phase = .reading expected got)
    {frames : List InputFrame} {after : Decoder} (consumed : decoder.Consumed frames after) :
    after.Sound childReads := by
  cases consumed with
  | waits expected got =>
      refine ⟨sound.seen_within, sound.seen_all, sound.applied, nofun, sound.ended, ?_,
        sound.closed⟩
      intro opened
      have received := sound.received opened
      rw [reading] at received
      exact received
  | ended =>
      cases opened : decoder.stdin with
      | true =>
          exact sound.effective opened reading rfl (seen_record_of_open opened _) rfl
            (List.append_nil _).symm rfl ⟨fun _ => rfl, fun _ => rfl⟩ nofun
      | false => exact sound.ignored opened rfl rfl rfl (seen_record_of_closed opened _) rfl rfl
  | payload data nonempty =>
      cases opened : decoder.stdin with
      | true =>
          have phase : (decoder.onPayload data).phase = .writing data := if_pos opened
          refine sound.effective opened reading rfl (seen_record_of_open opened _) rfl
            (List.append_nil _).symm ?_ ⟨fun closed => ?_, fun same => ?_⟩ fun _ _ => opened
          · rw [phase, inputs_stdin, List.flatten_singleton]
            rfl
          · exact absurd (opened.symm.trans closed) nofun
          · exact absurd (InputFrame.stdin.inj same) nonempty
      | false =>
          exact sound.ignored opened (if_neg (opened ▸ nofun)) opened rfl
            (seen_record_of_closed opened _) rfl rfl
  | size window =>
      cases opened : decoder.stdin with
      | true =>
          exact sound.effective opened reading rfl (seen_record_of_open opened _) rfl
            (if_pos opened) rfl ⟨fun closed => absurd (opened.symm.trans closed) nofun, nofun⟩ nofun
      | false =>
          exact sound.ignored opened rfl opened rfl (seen_record_of_closed opened _) rfl
            (if_neg (opened ▸ nofun))

private theorem Sound.deliver {childReads : Bool} (sound : decoder.Sound childReads) {count : Nat}
    {after : Decoder} (delivered : decoder.deliver count = some after) :
    after.Sound childReads ∧ after.decoded = decoder.decoded := by
  cases phase : decoder.phase with
  | writing rest =>
      simp only [Decoder.deliver, phase, Option.ite_none_right_eq_some,
        Option.some.injEq] at delivered
      obtain ⟨⟨_, available⟩, rfl⟩ := delivered
      have opened := sound.writing rest phase
      have received := sound.received opened
      rw [phase, undelivered_writing] at received
      refine ⟨⟨sound.seen_within, sound.seen_all, sound.applied, fun _ _ => opened, sound.ended,
        fun _ => ?_, fun closed => absurd (opened.symm.trans closed) nofun⟩, rfl⟩
      rw [← received]
      dsimp only
      split_ifs with all
      · rw [all, List.take_length, undelivered_reading, List.append_nil]
      · rw [undelivered_writing, List.append_assoc, List.take_append_drop]
  | reading | unexpected | returned =>
      simp only [Decoder.deliver, phase, reduceCtorEq] at delivered

private theorem Sound.brokenPipe (sound : decoder.Sound false) {after : Decoder}
    (broken : decoder.brokenPipe = some after) :
    after.Sound false ∧ after.decoded = decoder.decoded := by
  cases phase : decoder.phase with
  | writing rest =>
      simp only [Decoder.brokenPipe, phase, Option.some.injEq] at broken
      subst broken
      have opened := sound.writing rest phase
      have received := sound.received opened
      rw [phase, undelivered_writing] at received
      exact ⟨⟨sound.seen_within, nofun, sound.applied, nofun, fun _ => rfl, nofun,
        fun _ => .inr ⟨rfl, received ▸ List.prefix_append _ _⟩⟩, rfl⟩
  | reading | unexpected | returned =>
      simp only [Decoder.brokenPipe, phase, reduceCtorEq] at broken

private theorem Sound.endOfStream {childReads : Bool} (sound : decoder.Sound childReads)
    {after : Decoder} (ended : decoder.endOfStream = some after) :
    after.Sound childReads ∧ after.decoded = decoder.decoded := by
  cases phase : decoder.phase with
  | reading expected got =>
      simp only [Decoder.endOfStream, phase, Option.some.injEq] at ended
      subst ended
      refine ⟨⟨sound.seen_within, sound.seen_all, sound.applied, nofun, sound.ended,
        fun opened => ?_, sound.closed⟩, rfl⟩
      have received := sound.received opened
      rw [phase] at received
      exact received
  | writing | unexpected | returned =>
      simp only [Decoder.endOfStream, phase, reduceCtorEq] at ended

/-- The child may stop reading at any time. -/
theorem Sound.closeStdin {childReads : Bool} (sound : decoder.Sound childReads) :
    decoder.Sound false :=
  ⟨sound.seen_within, sound.seen_all, sound.applied, sound.writing, sound.ended, sound.received,
    fun closed => (sound.closed closed).imp_right fun stopped => ⟨rfl, stopped.2⟩⟩

/-- One more packet is sent. -/
theorem Aligned.send {incoming : List Byte} {rest : List InputFrame} {phase : DecoderPhase}
    (aligned : Aligned codes incoming rest phase) (frame : InputFrame) :
    Aligned codes (incoming ++ frame.bytes codes) (rest ++ [frame]) phase := by
  have extend : (rest ++ [frame]).flatMap (InputFrame.bytes codes) =
      rest.flatMap (InputFrame.bytes codes) ++ frame.bytes codes := by
    rw [List.flatMap_append, List.flatMap_singleton]
  cases phase with
  | reading expected got =>
      cases expected with
      | command =>
          refine ⟨?_, aligned.2⟩
          rw [← List.append_assoc, aligned.1, extend]
      | payload len =>
          obtain ⟨data, tail, rfl, length, split, more⟩ := aligned
          refine ⟨data, tail ++ [frame], rfl, length, ?_, more⟩
          rw [← List.append_assoc, split, List.append_assoc, List.flatMap_append,
            List.flatMap_singleton]
      | size =>
          obtain ⟨window, tail, rfl, split, more⟩ := aligned
          refine ⟨window, tail ++ [frame], rfl, ?_, more⟩
          rw [← List.append_assoc, split, List.append_assoc, List.flatMap_append,
            List.flatMap_singleton]
  | writing left =>
      refine ⟨aligned.1, ?_⟩
      rw [aligned.2, extend]
  | unexpected opc => exact aligned
  | returned => trivial

/-- After a write to the child, or instead of its rest, the next command is read. -/
theorem Aligned.nextCommand {incoming : List Byte} {rest : List InputFrame} {left : List Byte}
    (aligned : Aligned codes incoming rest (.writing left)) :
    Aligned codes incoming rest (.reading .command []) :=
  ⟨aligned.2, by decide⟩

private theorem Aligned.deliver {incoming : List Byte} {rest : List InputFrame} {count : Nat}
    {after : Decoder} (aligned : Aligned codes incoming rest decoder.phase)
    (delivered : decoder.deliver count = some after) :
    Aligned codes incoming rest after.phase := by
  cases phase : decoder.phase with
  | writing left =>
      rw [phase] at aligned
      simp only [Decoder.deliver, phase, Option.ite_none_right_eq_some,
        Option.some.injEq] at delivered
      obtain ⟨⟨_, available⟩, rfl⟩ := delivered
      dsimp only
      split_ifs with all
      · exact aligned.nextCommand
      · refine ⟨fun empty => all ?_, aligned.2⟩
        have length := congrArg List.length empty
        rw [List.length_drop, List.length_nil] at length
        omega
  | reading | unexpected | returned =>
      simp only [Decoder.deliver, phase, reduceCtorEq] at delivered

private theorem Aligned.brokenPipe {incoming : List Byte} {rest : List InputFrame} {after : Decoder}
    (aligned : Aligned codes incoming rest decoder.phase)
    (broken : decoder.brokenPipe = some after) : Aligned codes incoming rest after.phase := by
  cases phase : decoder.phase with
  | writing left =>
      rw [phase] at aligned
      simp only [Decoder.brokenPipe, phase, Option.some.injEq] at broken
      subst broken
      exact aligned.nextCommand
  | reading | unexpected | returned =>
      simp only [Decoder.brokenPipe, phase, reduceCtorEq] at broken

end Decoder

/-! ## The whole system -/

/-- What a writer has read and not begun to write. -/
def StdinThread.pending : StdinThread → List (List Byte)
  | .locking data => [data]
  | .reading | .writing _ | .finished => []

def SizeThread.pending : SizeThread → List Winsize
  | .locking size => [size]
  | .waiting | .writing => []

/-- Whether `forward_stdin` has not met the end of its input. -/
def StdinThread.Continues : StdinThread → Prop
  | .reading => True
  | .locking data => data ≠ []
  | .writing last => last = false
  | .finished => False

namespace InputState

variable {codes : HostOpcodes} {state : InputState codes}

/-- What the writers have sent. -/
structure HostSound (state : InputState codes) : Prop where
  sendable : ∀ frame ∈ state.stream.sent, frame.Sendable
  inputs : inputs state.stream.sent ++ state.stdinThread.pending = state.chunks
  sizes : sizes state.stream.sent ++ state.sizeThread.pending = state.updates
  short : ∀ data, state.stdinThread = .locking data → data.length ≤ 4096
  continues : state.stdinThread.Continues → [] ∉ state.chunks
  last : [] ∉ state.chunks.dropLast

structure Sound (state : InputState codes) : Prop where
  host : state.HostSound
  aligned : ∃ rest, state.stream.sent = state.decoder.decoded ++ rest ∧
    Decoder.Aligned codes state.stream.incoming rest state.decoder.phase
  decoder : state.decoder.Sound state.childReads

theorem start_sound (codes : HostOpcodes) : (start codes).Sound where
  host :=
    { sendable := nofun
      inputs := rfl
      sizes := rfl
      short := nofun
      continues := fun _ => nofun
      last := nofun }
  aligned := ⟨[], rfl, rfl, by decide⟩
  decoder := Decoder.start_sound

/-- The decoder moves and the stream with it. -/
theorem Sound.withDecoder (sound : state.Sound) {childReads : Bool} {decoder : Decoder}
    (decoded : decoder.decoded = state.decoder.decoded)
    (aligned : ∀ rest, Decoder.Aligned codes state.stream.incoming rest state.decoder.phase →
      Decoder.Aligned codes state.stream.incoming rest decoder.phase)
    (effects : decoder.Sound childReads) :
    { state with decoder := decoder, childReads := childReads }.Sound where
  host := ⟨sound.host.sendable, sound.host.inputs, sound.host.sizes, sound.host.short,
    sound.host.continues, sound.host.last⟩
  aligned := by
    obtain ⟨rest, sent, position⟩ := sound.aligned
    exact ⟨rest, sent.trans (congrArg (· ++ rest) decoded.symm), aligned rest position⟩
  decoder := effects

private theorem Sound.readStdin (sound : state.Sound) {data : List Byte}
    (reading : state.stdinThread = .reading) (short : data.length ≤ 4096) :
    { state with stdinThread := .locking data, chunks := state.chunks ++ [data] }.Sound := by
  have host := sound.host
  have unfinished : [] ∉ state.chunks := host.continues (reading ▸ trivial)
  have inputs := host.inputs
  rw [reading, StdinThread.pending, List.append_nil] at inputs
  refine ⟨⟨host.sendable, ?_, host.sizes, ?_, ?_, ?_⟩, sound.aligned, sound.decoder⟩
  · rw [StdinThread.pending, inputs]
  · rintro other ⟨⟩
    exact short
  · intro nonempty member
    rcases List.mem_append.mp member with earlier | last
    · exact unfinished earlier
    · exact nonempty (List.mem_singleton.mp last).symm
  · rw [List.dropLast_concat]
    exact unfinished

private theorem Sound.lockStdin (sound : state.Sound) {data : List Byte}
    {stream : LockedStream HostWriter (InputFrame.bytes codes)}
    (thread : state.stdinThread = .locking data)
    (acquired : state.stream.acquire .forwardStdin (.stdin data) = some stream) :
    { state with stream := stream, stdinThread := .writing data.isEmpty }.Sound := by
  have host := sound.host
  obtain ⟨_, sent, _, _, incoming⟩ := LockedStream.acquire_eq_some acquired
  obtain ⟨rest, split, position⟩ := sound.aligned
  have short := host.short data thread
  have unfinished := host.continues
  have before := host.inputs
  rw [thread] at unfinished before
  refine ⟨⟨?_, ?_, ?_, nofun, ?_, host.last⟩, ⟨rest ++ [.stdin data], ?_, ?_⟩, sound.decoder⟩
  · intro frame member
    rw [sent] at member
    rcases List.mem_append.mp member with earlier | last
    · exact host.sendable frame earlier
    · cases List.mem_singleton.mp last
      exact short
  · rw [sent, inputs_append, inputs_stdin, StdinThread.pending, List.append_nil]
    exact before
  · rw [sent, sizes_append, sizes_stdin, List.append_nil]
    exact host.sizes
  · intro more
    exact unfinished (List.isEmpty_eq_false_iff.mp more)
  · rw [sent, split, List.append_assoc]
  · rw [incoming]
    exact position.send _

private theorem Sound.lockSize (sound : state.Sound) {size : Winsize}
    {stream : LockedStream HostWriter (InputFrame.bytes codes)}
    (thread : state.sizeThread = .locking size)
    (acquired : state.stream.acquire .updateSize (.size size) = some stream) :
    { state with stream := stream, sizeThread := .writing }.Sound := by
  have host := sound.host
  obtain ⟨_, sent, _, _, incoming⟩ := LockedStream.acquire_eq_some acquired
  obtain ⟨rest, split, position⟩ := sound.aligned
  have before := host.sizes
  rw [thread] at before
  refine ⟨⟨?_, ?_, ?_, host.short, host.continues, host.last⟩,
    ⟨rest ++ [.size size], ?_, ?_⟩, sound.decoder⟩
  · intro frame member
    rw [sent] at member
    rcases List.mem_append.mp member with earlier | last
    · exact host.sendable frame earlier
    · cases List.mem_singleton.mp last
      trivial
  · rw [sent, inputs_append, inputs_size, List.append_nil]
    exact host.inputs
  · rw [sent, sizes_append, sizes_size, SizeThread.pending, List.append_nil]
    exact before
  · rw [sent, split, List.append_assoc]
  · rw [incoming]
    exact position.send _

/-- A step of the stream that neither sends a packet nor takes bytes. -/
theorem Sound.withStream (sound : state.Sound)
    {stream : LockedStream HostWriter (InputFrame.bytes codes)}
    (sent : stream.sent = state.stream.sent) (incoming : stream.incoming = state.stream.incoming)
    {stdinThread : StdinThread} (pending : stdinThread.pending = state.stdinThread.pending)
    (short : ∀ data, stdinThread = .locking data → data.length ≤ 4096)
    (continues : stdinThread.Continues → state.stdinThread.Continues)
    {sizeThread : SizeThread} (pendingSize : sizeThread.pending = state.sizeThread.pending) :
    { state with
      stream := stream, stdinThread := stdinThread, sizeThread := sizeThread }.Sound := by
  have host := sound.host
  refine ⟨⟨?_, ?_, ?_, short, fun more => host.continues (continues more), host.last⟩, ?_,
    sound.decoder⟩
  · rw [sent]
    exact host.sendable
  · rw [sent, pending]
    exact host.inputs
  · rw [sent, pendingSize]
    exact host.sizes
  · rw [sent, incoming]
    exact sound.aligned

private theorem Sound.unlockStdin (sound : state.Sound) {last : Bool}
    {stream : LockedStream HostWriter (InputFrame.bytes codes)}
    (thread : state.stdinThread = .writing last)
    (released : state.stream.release = some stream) :
    { state with
      stream := stream, stdinThread := if last then .finished else .reading }.Sound := by
  obtain ⟨sent, _, _, incoming⟩ := LockedStream.release_eq_some released
  refine sound.withStream sent incoming ?_ ?_ ?_ rfl
  · rw [thread]
    cases last <;> rfl
  · cases last <;> exact nofun
  · rw [thread]
    cases last with
    | true => exact nofun
    | false => exact fun _ => rfl

private theorem Sound.unlockSize (sound : state.Sound)
    {stream : LockedStream HostWriter (InputFrame.bytes codes)}
    (thread : state.sizeThread = .writing) (released : state.stream.release = some stream) :
    { state with stream := stream, sizeThread := .waiting }.Sound := by
  obtain ⟨sent, _, _, incoming⟩ := LockedStream.release_eq_some released
  refine sound.withStream sent incoming rfl sound.host.short id ?_
  rw [thread]
  rfl

private theorem Sound.receive (sound : state.Sound) {count : Nat} {decoder : Decoder}
    (received : state.decoder.receive codes (state.stream.inFlight.take count) = some decoder) :
    { state with decoder := decoder, stream := state.stream.take count }.Sound := by
  obtain ⟨rest, split, position⟩ := sound.aligned
  have reading : ∃ expected got, state.decoder.phase = .reading expected got := by
    cases phase : state.decoder.phase with
    | reading expected got => exact ⟨expected, got, rfl⟩
    | writing | unexpected | returned =>
        simp only [Decoder.receive, phase, reduceCtorEq] at received
  obtain ⟨expected, got, phase⟩ := reading
  rw [← state.stream.take_incoming count] at position
  have sendable : ∀ frame ∈ rest, frame.Sendable := fun frame member =>
    sound.host.sendable frame (split ▸ List.mem_append_right _ member)
  obtain ⟨frames, tail, rfl, consumed, next⟩ :=
    Decoder.receive_aligned sendable position received
  have decoded : decoder.decoded = state.decoder.decoded ++ frames := by
    cases consumed with
    | waits => exact (List.append_nil _).symm
    | ended | payload | size => rfl
  refine ⟨⟨sound.host.sendable, sound.host.inputs, sound.host.sizes, sound.host.short,
    sound.host.continues, sound.host.last⟩, ⟨tail, ?_, next⟩, sound.decoder.consumed phase consumed⟩
  rw [decoded, List.append_assoc]
  exact split

theorem Sound.step (sound : state.Sound) {action : InputAction} {after : InputState codes}
    (stepped : state.step action = some after) : after.Sound := by
  have host := sound.host
  cases inputStep stepped with
  | readStdin reading short => exact sound.readStdin reading short
  | lockStdin locking acquired => exact sound.lockStdin locking acquired
  | @resize size waiting =>
      have before := host.sizes
      rw [waiting, SizeThread.pending, List.append_nil] at before
      exact ⟨⟨host.sendable, host.inputs, congrArg (· ++ [size]) before, host.short,
        host.continues, host.last⟩, sound.aligned, sound.decoder⟩
  | lockSize locking acquired => exact sound.lockSize locking acquired
  | write _ written =>
      obtain ⟨sent, _, _, incoming⟩ := LockedStream.write_eq_some written
      exact sound.withStream sent incoming rfl host.short id rfl
  | unlockStdin writing _ released => exact sound.unlockStdin writing released
  | unlockSize writing _ released => exact sound.unlockSize writing released
  | disconnect =>
      exact ⟨⟨host.sendable, host.inputs, host.sizes, host.short, host.continues, host.last⟩,
        sound.aligned, sound.decoder⟩
  | receive _ received => exact sound.receive received
  | deliver _ delivered =>
      obtain ⟨effects, decoded⟩ := sound.decoder.deliver delivered
      exact sound.withDecoder decoded (fun _ position => position.deliver delivered) effects
  | brokenPipe closed broken =>
      have decoderSound := sound.decoder
      rw [closed] at decoderSound
      obtain ⟨effects, decoded⟩ := decoderSound.brokenPipe broken
      exact sound.withDecoder decoded (fun _ position => position.brokenPipe broken)
        (closed ▸ effects)
  | endOfStream _ _ ended =>
      obtain ⟨effects, decoded⟩ := sound.decoder.endOfStream ended
      refine sound.withDecoder decoded (fun _ _ => ?_) effects
      cases phase : state.decoder.phase with
      | reading =>
          simp only [Decoder.endOfStream, phase, Option.some.injEq] at ended
          exact ended ▸ trivial
      | writing | unexpected | returned =>
          simp only [Decoder.endOfStream, phase, reduceCtorEq] at ended
  | closeStdin =>
      exact sound.withDecoder rfl (fun _ position => position) sound.decoder.closeStdin

private theorem sound_of_reachable
    (reachable : (forwardInput codes).Reachable (start codes) state) :
    state.Sound :=
  reachable.invariant Sound (start_sound codes) fun _ _ _ sound stepped => Sound.step sound stepped

/-- What `forward_input` has done in every state: it is in step with the packets that
were sent, and the child got their data and the terminal their sizes. -/
structure Framing (state : InputState codes) : Prop where
  /-- The decoded packets are the first ones sent, all of them once it has caught up. -/
  decoded : state.decoder.decoded <+: state.stream.sent
  caughtUp : state.stream.incoming = [] → state.decoder.phase = .reading .command [] →
    state.decoder.decoded = state.stream.sent
  expected : ∀ opc, state.decoder.phase ≠ .unexpected opc
  /-- A command is read only where a packet begins. -/
  boundary : ∀ got, state.decoder.phase = .reading .command got →
    state.stream.taken = state.decoder.decoded.flatMap (InputFrame.bytes codes) ++ got
  /-- The packets sent are the chunks and updates, each in order, with their lengths. -/
  inputs : inputs state.stream.sent ++ state.stdinThread.pending = state.chunks
  sizes : sizes state.stream.sent ++ state.sizeThread.pending = state.updates
  lengths : ∀ data, .stdin data ∈ state.stream.sent →
    operand (packCommand codes.writeStdin data.length) = data.length
  /-- While `stdin` is open the child gets everything, and every size is applied. -/
  opened : state.decoder.stdin = true →
    state.decoder.received ++ Decoder.undelivered state.decoder.phase =
        (Muvm.inputs state.decoder.decoded).flatten ∧
      state.decoder.applied = Muvm.sizes state.decoder.decoded
  /-- The empty packet closes `stdin`; before it only the child does. -/
  ended : .stdin [] ∈ state.decoder.decoded → state.decoder.stdin = false
  closed : state.decoder.stdin = false →
    state.decoder.seen <+: state.decoder.decoded ∧
      state.decoder.applied = Muvm.sizes state.decoder.seen ∧
      ((.stdin [] ∈ state.decoder.seen ∧
          state.decoder.received = (Muvm.inputs state.decoder.seen).flatten) ∨
        (state.childReads = false ∧
          state.decoder.received <+: (Muvm.inputs state.decoder.seen).flatten))
  received : state.decoder.received <+: state.chunks.flatten
  complete : state.childReads = true → .stdin [] ∈ state.decoder.decoded →
    state.decoder.received = state.chunks.flatten
  /-- The decoder never waits for more than the stream or the child. -/
  receives : ∀ expected got, state.decoder.phase = .reading expected got →
    state.stream.inFlight ≠ [] → (state.step (.receive 1)).isSome
  writes : ∀ rest, state.decoder.phase = .writing rest →
    (state.step (if state.childReads then .deliver 1 else .brokenPipe)).isSome

/-- A prefix that holds the end of the input is all of it. -/
theorem eq_of_within_of_end {chunks first : List (List Byte)} (last : [] ∉ chunks.dropLast)
    (isPrefix : first <+: chunks) (ended : [] ∈ first) : first = chunks := by
  obtain ⟨later, rfl⟩ := isPrefix
  cases later with
  | nil => exact (List.append_nil _).symm
  | cons chunk rest =>
      rw [List.dropLast_append_cons] at last
      exact absurd (List.mem_append_left _ ended) last

private theorem Sound.inputs_within (sound : state.Sound) {frames : List InputFrame}
    (isPrefix : frames <+: state.stream.sent) : Muvm.inputs frames <+: state.chunks := by
  obtain ⟨later, same⟩ := isPrefix
  refine ⟨Muvm.inputs later ++ state.stdinThread.pending, ?_⟩
  rw [← sound.host.inputs, ← same, inputs_append, List.append_assoc]

private theorem flatten_mono {first second : List (List Byte)} (isPrefix : first <+: second) :
    first.flatten <+: second.flatten := by
  obtain ⟨later, rfl⟩ := isPrefix
  exact List.flatten_append ▸ List.prefix_append _ _

private theorem Sound.received_within (sound : state.Sound) :
    state.decoder.received <+: (Muvm.inputs state.decoder.seen).flatten := by
  cases opened : state.decoder.stdin with
  | true => exact ⟨_, sound.decoder.received opened⟩
  | false =>
      rcases sound.decoder.closed opened with ⟨_, all⟩ | ⟨_, part⟩
      · exact all ▸ List.prefix_refl _
      · exact part

private theorem Sound.boundary (sound : state.Sound) {got : List Byte}
    (reading : state.decoder.phase = .reading .command got) :
    state.stream.taken = state.decoder.decoded.flatMap (InputFrame.bytes codes) ++ got := by
  obtain ⟨rest, split, position⟩ := sound.aligned
  rw [reading] at position
  have whole := state.stream.taken_append_incoming
  rw [split, List.flatMap_append, ← position.1, ← List.append_assoc] at whole
  exact List.append_cancel_right whole

private theorem Sound.caughtUp (sound : state.Sound) (empty : state.stream.incoming = [])
    (reading : state.decoder.phase = .reading .command []) :
    state.decoder.decoded = state.stream.sent := by
  obtain ⟨rest, split, position⟩ := sound.aligned
  rw [reading, empty] at position
  cases rest with
  | nil => rw [split, List.append_nil]
  | cons frame tail =>
      have bytes := position.1
      rw [List.flatMap_cons, frame.bytes_eq] at bytes
      cases bytes

private theorem Sound.receives (sound : state.Sound) {expected : Expected} {got : List Byte}
    (reading : state.decoder.phase = .reading expected got)
    (available : state.stream.inFlight ≠ []) : (state.step (.receive 1)).isSome := by
  obtain ⟨rest, _, position⟩ := sound.aligned
  rw [reading] at position
  have short : got.length < expected.length := by
    cases expected with
    | command => exact position.2
    | payload len =>
        obtain ⟨_, _, _, _, _, short⟩ := position
        exact short
    | size =>
        obtain ⟨_, _, _, _, short⟩ := position
        exact short
  have some := List.length_pos_iff.mpr available
  have length : (got ++ state.stream.inFlight.take 1).length = got.length + 1 := by
    rw [List.length_append, List.length_take]
    omega
  simp only [InputState.step, Decoder.receive, reading, length]
  rw [if_pos ⟨Nat.one_pos, some⟩]
  split_ifs with more complete
  · rfl
  · rfl
  · omega

private theorem Sound.writes (sound : state.Sound) {rest : List Byte}
    (writing : state.decoder.phase = .writing rest) :
    (state.step (if state.childReads then .deliver 1 else .brokenPipe)).isSome := by
  obtain ⟨_, _, position⟩ := sound.aligned
  rw [writing] at position
  have some := List.length_pos_iff.mpr position.1
  cases reads : state.childReads with
  | true =>
      simp only [↓reduceIte, InputState.step, reads, Decoder.deliver, writing]
      rw [if_pos ⟨Nat.one_pos, some⟩]
      rfl
  | false =>
      simp only [Bool.false_eq_true, ↓reduceIte, InputState.step, reads, Decoder.brokenPipe,
        writing]
      rfl

theorem Sound.framing (sound : state.Sound) : state.Framing := by
  obtain ⟨rest, split, position⟩ := sound.aligned
  have decoded : state.decoder.decoded <+: state.stream.sent := ⟨rest, split.symm⟩
  have seen := sound.decoder.seen_within.trans decoded
  refine
    { decoded := decoded
      caughtUp := sound.caughtUp
      expected := fun opc unexpected => ?_
      boundary := fun got reading => sound.boundary reading
      inputs := sound.host.inputs
      sizes := sound.host.sizes
      lengths := fun data member => operand_packCommand codes.stdin_small
        (fits_of_sendable (sound.host.sendable _ member))
      opened := fun opened => ?_
      ended := sound.decoder.ended
      closed := fun closed => ⟨sound.decoder.seen_within, sound.decoder.applied,
        sound.decoder.closed closed⟩
      received := sound.received_within.trans (flatten_mono (sound.inputs_within seen))
      complete := fun reads ended => ?_
      receives := fun _ _ => sound.receives
      writes := fun _ => sound.writes }
  · rw [unexpected] at position
    exact position
  · have same := sound.decoder.seen_all opened
    exact ⟨same ▸ sound.decoder.received opened, same ▸ sound.decoder.applied⟩
  · rcases sound.decoder.closed (sound.decoder.ended ended) with ⟨member, all⟩ | ⟨stopped, _⟩
    · rw [all, eq_of_within_of_end sound.host.last (sound.inputs_within seen)
        (mem_inputs.mpr member)]
    · exact absurd (reads.symm.trans stopped) nofun

end InputState

/-- **Host-to-guest input framing.** In every reachable state of the host's writers,
the stream, `forward_input` and the child, the decoder is in step with what was
sent and its effects are those of the packets. -/
theorem forwardInput_framing (codes : HostOpcodes) (state : InputState codes)
    (reachable : (forwardInput codes).Reachable (InputState.start codes) state) :
    state.Framing :=
  (InputState.sound_of_reachable reachable).framing

def sampleHostCodes : HostOpcodes where
  writeStdin := 0
  updateSize := 1
  stdin_small := toNat_zero_lt_four
  size_small := toNat_one_lt_four
  stdin_ne_size := zero_ne_one_opcode

/-- A window size between two chunks, cut inside its header, while the child stops
reading after one byte. -/
def sampleInput : List InputAction :=
  [.readStdin [1, 2], .resize ⟨80, 24⟩, .lockStdin, .write 3, .receive 1, .write 1, .unlock,
    .receive 1, .receive 2, .deliver 1, .lockSize, .readStdin [], .write 6, .unlock, .lockStdin,
    .closeStdin, .brokenPipe, .receive 1, .receive 1, .receive 4, .write 2, .unlock, .receive 2]

theorem forwardInput_framing_sample : ∃ state,
    (forwardInput sampleHostCodes).run (.start sampleHostCodes) sampleInput = some state ∧
    state.decoder.decoded = [.stdin [1, 2], .size ⟨80, 24⟩, .stdin []] ∧
    state.decoder.received = [1] ∧ state.Framing :=
  ⟨_, rfl, rfl, rfl, forwardInput_framing sampleHostCodes _ ⟨sampleInput, rfl⟩⟩

end X86OnArm.Muvm
