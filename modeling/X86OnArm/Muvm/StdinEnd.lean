import X86OnArm.Muvm.InputFraming

/-! # The end of the guest's stdin

`forward_stdin` tells the guest of the end of its input with an empty packet, but
returns without one when a read fails, and its result is discarded.
`forwardStdin_closes_iff` says of every run that the child's stdin is closed exactly
if no read has failed, and `stdin_open_of_readError` that it stays open otherwise.
-/

namespace X86OnArm.Muvm

open Foundation

/-- What a thread or the stream does, and how `forward_stdin` may fail. -/
inductive StdinAction where
  | input (action : InputAction)
  /-- `stdin.read` returns an error. -/
  | readError
  /-- `remote.write_all` returns an error. -/
  | writeError
  deriving DecidableEq

namespace InputState

variable {codes : HostOpcodes}

/-- Both failures make `forward_stdin` return. A write fails once the connection is
gone, and the broken stream is not written to again. -/
def stepStdin (state : InputState codes) : StdinAction → Option (InputState codes)
  | .input action => state.step action
  | .readError =>
      if state.stdinThread = .reading then some { state with stdinThread := .finished } else none
  | .writeError =>
      match state.stdinThread with
      | .writing _ =>
          if state.connected then none else some { state with stdinThread := .finished }
      | _ => none

/-- The last stdin packet is the empty one. Once `forward_input` has decoded all packets
it has closed the child's stdin, after a child that reads has got all chunks; until it
has closed it, more bytes can be written, received or delivered. -/
structure StdinClosed (state : InputState codes) : Prop where
  last : (inputs state.stream.sent).getLast? = some []
  closed : state.stream.incoming = [] → state.decoder.phase = .reading .command [] →
    state.decoder.stdin = false ∧
      (state.childReads = true → state.decoder.received = state.chunks.flatten)
  progress : state.decoder.stdin = true →
    ∃ action ∈ [.write 1, .receive 1, .deliver 1, .brokenPipe], (state.step action).isSome

end InputState

/-- The host's writers, `forward_input` and the child, with the host's failures. -/
def forwardStdin (codes : HostOpcodes) : Machine (InputState codes) StdinAction :=
  ⟨InputState.stepStdin⟩

namespace InputState

variable {codes : HostOpcodes} {state after : InputState codes}

/-! ## What a step does to `forward_stdin` -/

/-- `forward_stdin` and its chunks, before and after a step. -/
inductive StdinEffect (state after : InputState codes) : Prop where
  | kept (thread : after.stdinThread = state.stdinThread) (chunks : after.chunks = state.chunks)
  | read (data : List Byte) (before : state.stdinThread = .reading)
      (thread : after.stdinThread = .locking data) (chunks : after.chunks = state.chunks ++ [data])
  | locked (data : List Byte) (before : state.stdinThread = .locking data)
      (thread : after.stdinThread = .writing data.isEmpty) (chunks : after.chunks = state.chunks)
  | unlocked (last : Bool) (before : state.stdinThread = .writing last)
      (thread : after.stdinThread = if last then .finished else .reading)
      (chunks : after.chunks = state.chunks)

/-- `forward_input` before and after a step; it returns only on a connection that is
gone. -/
inductive DecoderEffect (state after : InputState codes) : Prop where
  | kept (decoder : after.decoder = state.decoder)
  | received (piece : List Byte) (decoder : state.decoder.receive codes piece = some after.decoder)
  | delivered (count : Nat) (decoder : state.decoder.deliver count = some after.decoder)
  | broken (decoder : state.decoder.brokenPipe = some after.decoder)
  | ended (gone : after.connected = false)

/-- What a step leaves of the host's thread, the connection and the decoder. -/
structure InputEffect (state after : InputState codes) : Prop where
  stdin : state.StdinEffect after
  connected : after.connected = true → state.connected = true
  decoder : state.DecoderEffect after

theorem step_effect {action : InputAction} (stepped : state.step action = some after) :
    state.InputEffect after := by
  cases inputStep stepped with
  | @readStdin data reading => exact ⟨.read data reading rfl rfl, id, .kept rfl⟩
  | @lockStdin data _ locking => exact ⟨.locked data locking rfl rfl, id, .kept rfl⟩
  | @unlockStdin last _ writing => exact ⟨.unlocked last writing rfl rfl, id, .kept rfl⟩
  | resize | lockSize | write | unlockSize | closeStdin => exact ⟨.kept rfl rfl, id, .kept rfl⟩
  | disconnect => exact ⟨.kept rfl rfl, nofun, .kept rfl⟩
  | receive _ received => exact ⟨.kept rfl rfl, id, .received _ received⟩
  | @deliver count _ _ delivered => exact ⟨.kept rfl rfl, id, .delivered count delivered⟩
  | brokenPipe _ broken => exact ⟨.kept rfl rfl, id, .broken broken⟩
  | endOfStream gone => exact ⟨.kept rfl rfl, id, .ended gone⟩

theorem readError_step (stepped : state.stepStdin .readError = some after) :
    state.stdinThread = .reading ∧ after = { state with stdinThread := .finished } := by
  simp only [stepStdin, Option.ite_none_right_eq_some, Option.some.injEq] at stepped
  exact ⟨stepped.1, stepped.2.symm⟩

theorem writeError_step (stepped : state.stepStdin .writeError = some after) :
    (∃ last, state.stdinThread = .writing last) ∧ state.connected = false ∧
      after = { state with stdinThread := .finished } := by
  cases thread : state.stdinThread with
  | writing last =>
      simp only [stepStdin, thread, Option.ite_none_left_eq_some, Option.some.injEq] at stepped
      exact ⟨⟨last, rfl⟩, eq_false_of_ne_true stepped.1, stepped.2.symm⟩
  | reading | locking | finished => simp only [stepStdin, thread, reduceCtorEq] at stepped

/-- `forward_stdin` returns without a packet of its own. -/
theorem Sound.return (sound : state.Sound) (pending : state.stdinThread.pending = []) :
    { state with stdinThread := .finished }.Sound := by
  refine sound.withStream rfl rfl ?_ ?_ ?_ rfl
  · exact pending.symm
  · exact nofun
  · exact nofun

theorem Sound.stepStdin (sound : state.Sound) {action : StdinAction}
    (stepped : state.stepStdin action = some after) : after.Sound := by
  cases action with
  | input action => exact sound.step stepped
  | readError =>
      obtain ⟨reading, rfl⟩ := readError_step stepped
      exact sound.return (reading ▸ rfl)
  | writeError =>
      obtain ⟨⟨last, writing⟩, _, rfl⟩ := writeError_step stepped
      exact sound.return (writing ▸ rfl)

/-! ## How `forward_stdin` ends -/

/-- Unless the connection is gone, `forward_stdin` goes on until it has met the end of
its input. -/
def Unfailed (state : InputState codes) : Prop :=
  state.connected = true → ¬ state.stdinThread.Continues → [] ∈ state.chunks

/-- `forward_stdin` has returned before the end of its input. -/
structure Abandoned (state : InputState codes) : Prop where
  finished : state.stdinThread = .finished
  unended : [] ∉ state.chunks

theorem Unfailed.step (unfailed : state.Unfailed) {action : StdinAction}
    (read : action ≠ .readError) (stepped : state.stepStdin action = some after) :
    after.Unfailed := by
  intro connected ended
  cases action with
  | readError => exact absurd rfl read
  | writeError =>
      obtain ⟨_, gone, rfl⟩ := writeError_step stepped
      exact absurd (connected.symm.trans gone) nofun
  | input action =>
      obtain ⟨effect, before, -⟩ := step_effect stepped
      have unfailed := unfailed (before connected)
      cases effect with
      | kept thread chunks =>
          rw [chunks]
          exact unfailed (thread ▸ ended)
      | read data reading thread chunks =>
          rw [thread] at ended
          have empty : data = [] := not_not.mp ended
          rw [chunks, empty]
          exact List.mem_append_right _ List.mem_cons_self
      | locked data locking thread chunks =>
          rw [thread] at ended
          rw [chunks]
          refine unfailed ?_
          rw [locking]
          intro more
          exact ended (List.isEmpty_eq_false_iff.mpr more)
      | unlocked last writing thread chunks =>
          rw [chunks]
          refine unfailed ?_
          rw [writing]
          intro more
          rw [thread, if_neg (ne_true_of_eq_false more)] at ended
          exact ended trivial

theorem Abandoned.step (abandoned : state.Abandoned) {action : StdinAction}
    (stepped : state.stepStdin action = some after) : after.Abandoned := by
  have finished := abandoned.finished
  cases action with
  | readError => simp only [stepStdin, finished, reduceCtorEq, ↓reduceIte] at stepped
  | writeError => simp only [stepStdin, finished, reduceCtorEq] at stepped
  | input action =>
      have effect := (step_effect stepped).stdin
      cases effect with
      | kept thread chunks => exact ⟨thread.trans finished, chunks ▸ abandoned.unended⟩
      | read data before => exact absurd (finished.symm.trans before) nofun
      | locked data before => exact absurd (finished.symm.trans before) nofun
      | unlocked last before => exact absurd (finished.symm.trans before) nofun

theorem abandoned_of_readError (sound : state.Sound)
    (stepped : state.stepStdin .readError = some after) : after.Abandoned := by
  obtain ⟨reading, rfl⟩ := readError_step stepped
  exact ⟨rfl, sound.host.continues (reading ▸ trivial)⟩

/-- `forward_input` returns only when the connection is gone. -/
def Attached (state : InputState codes) : Prop :=
  state.connected = true → state.decoder.phase ≠ .returned

theorem receive_ne_returned {decoder next : Decoder} {piece : List Byte}
    (received : decoder.receive codes piece = some next) : next.phase ≠ .returned := by
  intro finished
  cases phase : decoder.phase with
  | reading expected got =>
      simp only [Decoder.receive, phase] at received
      split_ifs at received with more complete
      · cases received
        cases finished
      · cases received
        unfold Decoder.onRead at finished
        split at finished
        · unfold Decoder.onCommand at finished
          split_ifs at finished
        · unfold Decoder.onPayload at finished
          dsimp only at finished
          split at finished
          · cases finished
          · cases finished
        · cases finished
        · cases phase.symm.trans finished
  | writing | unexpected | returned =>
      simp only [Decoder.receive, phase, reduceCtorEq] at received

theorem deliver_ne_returned {decoder next : Decoder} {count : Nat}
    (delivered : decoder.deliver count = some next) : next.phase ≠ .returned := by
  intro finished
  cases phase : decoder.phase with
  | writing rest =>
      simp only [Decoder.deliver, phase, Option.ite_none_right_eq_some,
        Option.some.injEq] at delivered
      obtain ⟨_, rfl⟩ := delivered
      dsimp only at finished
      split at finished
      · cases finished
      · cases finished
  | reading | unexpected | returned =>
      simp only [Decoder.deliver, phase, reduceCtorEq] at delivered

theorem brokenPipe_ne_returned {decoder next : Decoder}
    (broken : decoder.brokenPipe = some next) : next.phase ≠ .returned := by
  intro finished
  cases phase : decoder.phase with
  | writing rest =>
      simp only [Decoder.brokenPipe, phase, Option.some.injEq] at broken
      subst broken
      cases finished
  | reading | unexpected | returned =>
      simp only [Decoder.brokenPipe, phase, reduceCtorEq] at broken

theorem Attached.step (attached : state.Attached) {action : StdinAction}
    (stepped : state.stepStdin action = some after) : after.Attached := by
  intro connected
  cases action with
  | readError =>
      obtain ⟨_, rfl⟩ := readError_step stepped
      exact attached connected
  | writeError =>
      obtain ⟨_, gone, rfl⟩ := writeError_step stepped
      exact absurd (connected.symm.trans gone) nofun
  | input action =>
      obtain ⟨-, before, effect⟩ := step_effect stepped
      cases effect with
      | kept decoder => exact decoder ▸ attached (before connected)
      | received piece decoder => exact receive_ne_returned decoder
      | delivered count decoder => exact deliver_ne_returned decoder
      | broken decoder => exact brokenPipe_ne_returned decoder
      | ended gone => exact absurd (connected.symm.trans gone) nofun

/-- How `forward_stdin` ends in a run, by whether a read has failed in it. -/
structure Ends (failed : Prop) (state : InputState codes) : Prop where
  sound : state.Sound
  attached : state.Attached
  unfailed : ¬ failed → state.Unfailed
  abandoned : failed → state.Abandoned

theorem ends_of_run {trace : List StdinAction}
    (ran : (forwardStdin codes).run (start codes) trace = some state) :
    state.Ends (StdinAction.readError ∈ trace) := by
  have executed := Machine.Run.of_run ran
  clear ran
  induction executed with
  | nil => exact ⟨start_sound codes, nofun, fun _ _ ended => absurd trivial ended, nofun⟩
  | snoc action _ _ stepped ih =>
      refine ⟨ih.sound.stepStdin stepped, ih.attached.step stepped, fun unfailed => ?_,
        fun failed => ?_⟩
      · rw [List.mem_append, List.mem_singleton, not_or] at unfailed
        exact (ih.unfailed unfailed.1).step (Ne.symm unfailed.2) stepped
      · rcases List.mem_append.mp failed with before | now
        · exact (ih.abandoned before).step stepped
        · cases List.mem_singleton.mp now
          exact abandoned_of_readError ih.sound stepped

/-- A finished `forward_stdin` has sent what it has read. -/
theorem Sound.inputs_of_finished (sound : state.Sound) (finished : state.stdinThread = .finished) :
    inputs state.stream.sent = state.chunks := by
  have inputs := sound.host.inputs
  rw [finished] at inputs
  exact (List.append_nil _).symm.trans inputs

/-- The end of the input is its last chunk. -/
theorem getLast?_of_end {chunks : List (List Byte)} (last : [] ∉ chunks.dropLast)
    (ended : [] ∈ chunks) : chunks.getLast? = some [] := by
  cases final : chunks.getLast? with
  | none =>
      rw [List.getLast?_eq_none_iff.mp final] at ended
      cases ended
  | some chunk =>
      rw [← List.dropLast_append_getLast? chunk final] at ended
      rcases List.mem_append.mp ended with earlier | same
      · exact absurd earlier last
      · rw [List.mem_singleton.mp same]

/-- With nothing incoming a decoder that reads is at the beginning of a packet. -/
theorem Sound.reading_command (sound : state.Sound) {expected : Expected} {got : List Byte}
    (reading : state.decoder.phase = .reading expected got) (empty : state.stream.incoming = []) :
    state.decoder.phase = .reading .command [] := by
  obtain ⟨rest, _, position⟩ := sound.aligned
  rw [reading, empty] at position
  cases expected with
  | command =>
      obtain ⟨bytes, short⟩ := position
      rw [List.append_nil] at bytes
      cases rest with
      | nil => rw [reading, bytes, List.flatMap_nil]
      | cons frame tail =>
          rw [bytes, List.flatMap_cons, frame.bytes_eq, List.append_assoc, List.length_append,
            toLeBytes_length] at short
          omega
  | payload len =>
      obtain ⟨data, tail, _, length, bytes, short⟩ := position
      have lengths := congrArg List.length bytes
      rw [List.append_nil, List.length_append] at lengths
      omega
  | size =>
      obtain ⟨window, tail, _, bytes, short⟩ := position
      have lengths := congrArg List.length bytes
      have four : window.bytes.length = 4 := rfl
      rw [List.append_nil, List.length_append] at lengths
      omega

/-- While packets are undecoded the writer of the stream, its decoder or the child's
pipe can go on. -/
theorem Sound.progress (sound : state.Sound) (attached : state.Attached)
    (connected : state.connected = true)
    (undecoded : ¬ (state.stream.incoming = [] ∧ state.decoder.phase = .reading .command [])) :
    ∃ action ∈ [.write 1, .receive 1, .deliver 1, .brokenPipe], (state.step action).isSome := by
  cases phase : state.decoder.phase with
  | writing rest =>
      have writes := sound.framing.writes rest phase
      split at writes
      · exact ⟨.deliver 1, by decide, writes⟩
      · exact ⟨.brokenPipe, by decide, writes⟩
  | unexpected opc => exact absurd phase (sound.framing.expected opc)
  | returned => exact absurd phase (attached connected)
  | reading expected got =>
      by_cases available : state.stream.inFlight = []
      · have pending : state.stream.unwritten ≠ [] := by
          intro none
          have empty : state.stream.incoming = [] := List.append_eq_nil_iff.mpr ⟨available, none⟩
          exact undecoded ⟨empty, sound.reading_command phase empty⟩
        refine ⟨.write 1, by decide, ?_⟩
        simp only [InputState.step, LockedStream.write]
        rw [if_pos connected, if_pos ⟨Nat.one_pos, List.length_pos_iff.mpr pending⟩]
        rfl
      · exact ⟨.receive 1, by decide, sound.framing.receives expected got phase available⟩

theorem Sound.stdinClosed (sound : state.Sound) (attached : state.Attached)
    (connected : state.connected = true) (finished : state.stdinThread = .finished)
    (ended : [] ∈ state.chunks) : state.StdinClosed := by
  have sent := sound.inputs_of_finished finished
  have framing := sound.framing
  have decoded (empty : state.stream.incoming = [])
      (reading : state.decoder.phase = .reading .command []) :
      .stdin [] ∈ state.decoder.decoded := by
    rw [framing.caughtUp empty reading, ← mem_inputs, sent]
    exact ended
  refine ⟨sent ▸ getLast?_of_end sound.host.last ended, fun empty reading => ?_, fun opened => ?_⟩
  · have decoded := decoded empty reading
    exact ⟨framing.ended decoded, fun reads => framing.complete reads decoded⟩
  · apply sound.progress attached connected
    rintro ⟨empty, reading⟩
    have shut := framing.ended (decoded empty reading)
    exact Bool.noConfusion (opened.symm.trans shut)

theorem Abandoned.not_stdinClosed (abandoned : state.Abandoned) (sound : state.Sound) :
    ¬ state.StdinClosed := by
  intro closed
  have last := closed.last
  rw [sound.inputs_of_finished abandoned.finished] at last
  exact abandoned.unended (List.mem_of_getLast? last)

/-- A child that reads its stdin then waits for more of it, whatever was delivered. -/
theorem Abandoned.stdin_open (abandoned : state.Abandoned) (sound : state.Sound)
    (reads : state.childReads = true) : state.decoder.stdin = true := by
  by_contra shut
  rcases sound.decoder.closed (eq_false_of_ne_true shut) with ⟨ended, _⟩ | ⟨stopped, _⟩
  · apply abandoned.unended
    have sent := sound.inputs_of_finished abandoned.finished
    rw [← sent, mem_inputs]
    obtain ⟨rest, split, _⟩ := sound.aligned
    exact split ▸ List.mem_append_left _ (sound.decoder.seen_within.subset ended)
  · exact absurd (reads.symm.trans stopped) nofun

end InputState

/-- **The guest's stdin is closed exactly if no read of the host's has failed.** While
the connection lasts, a `forward_stdin` that has returned has sent the empty packet
last, or has left the child waiting for more. -/
theorem forwardStdin_closes_iff (codes : HostOpcodes) (trace : List StdinAction)
    (state : InputState codes)
    (ran : (forwardStdin codes).run (InputState.start codes) trace = some state)
    (finished : state.stdinThread = .finished) (connected : state.connected = true) :
    state.StdinClosed ↔ StdinAction.readError ∉ trace := by
  obtain ⟨sound, attached, unfailed, abandoned⟩ := InputState.ends_of_run ran
  constructor
  · intro closed failed
    exact (abandoned failed).not_stdinClosed sound closed
  · intro read
    refine sound.stdinClosed attached connected finished (unfailed read connected ?_)
    rw [finished]
    exact not_false

/-- Two chunks and the end of the input, with a window size between them. -/
def endedStdin : List StdinAction :=
  [.input (.readStdin [1, 2]), .input .lockStdin, .input (.resize ⟨80, 24⟩), .input (.write 4),
    .input .unlock, .input .lockSize, .input (.readStdin []), .input (.write 6), .input .unlock,
    .input .lockStdin, .input (.write 2), .input .unlock]

theorem forwardStdin_closes_sample : ∃ state,
    (forwardStdin sampleHostCodes).run (.start sampleHostCodes) endedStdin = some state ∧
      state.StdinClosed :=
  ⟨_, rfl, (forwardStdin_closes_iff sampleHostCodes endedStdin _ rfl rfl rfl).mpr (by decide)⟩

/-- After a failed read a child that reads its stdin is not told of the end, in any run. -/
theorem stdin_open_of_readError (codes : HostOpcodes) (trace : List StdinAction)
    (state : InputState codes)
    (ran : (forwardStdin codes).run (InputState.start codes) trace = some state)
    (failed : StdinAction.readError ∈ trace) (reads : state.childReads = true) :
    state.decoder.stdin = true := by
  obtain ⟨sound, -, -, abandoned⟩ := InputState.ends_of_run ran
  exact (abandoned failed).stdin_open sound reads

/-- The first read fails, as that of a directory does: `forward_stdin` has returned on a
connection that lasts, and nothing closes the child's stdin. -/
theorem readError_leaves_stdin_open : ∃ state,
    (forwardStdin sampleHostCodes).run (.start sampleHostCodes) [.readError] = some state ∧
      state.stdinThread = .finished ∧ state.connected = true ∧ ¬ state.StdinClosed ∧
      state.stream.incoming = [] ∧ state.decoder.phase = .reading .command [] ∧
      state.childReads = true ∧ state.decoder.stdin = true := by
  refine ⟨_, rfl, rfl, rfl, ?_, rfl, rfl, rfl, rfl⟩
  intro closed
  exact absurd closed.last nofun

end X86OnArm.Muvm
