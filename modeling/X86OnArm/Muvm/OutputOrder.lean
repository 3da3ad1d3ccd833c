import X86OnArm.Muvm.IoGuest
import X86OnArm.Foundation.Machine
import Mathlib.Data.List.Basic
import Mathlib.Tactic.Common

/-! # Output order and the exit packet

The invariant of `run_io_guest` and its main consequence,
`runIoGuest_output`: the loop sends every byte of each stream in order, and one
exit packet after all of them.
-/

namespace X86OnArm.Muvm

open Foundation

/-- The bytes an effect carries for one stream. -/
def Effect.payloadOf (codes : GuestOpcodes) (which : Output) : Effect → List Byte
  | .packet sent => if opcode sent.cmd = codes.write which then sent.payload else []
  | .finished => []

def payloads (codes : GuestOpcodes) (which : Output) (log : List Effect) : List Byte :=
  log.flatMap (Effect.payloadOf codes which)

/-- The payload of two logs in a row. -/
theorem payloads_append (codes : GuestOpcodes) (which : Output) (first second : List Effect) :
    payloads codes which (first ++ second) =
      payloads codes which first ++ payloads codes which second :=
  List.flatMap_append

def dataPacket (codes : GuestOpcodes) (which : Output) (bytes : List Byte) : Effect :=
  .packet ⟨packCommand (codes.write which) bytes.length, bytes⟩

def exitPacket (codes : GuestOpcodes) (code : Byte) : Effect :=
  .packet ⟨packCommand codes.exit code.toNat, []⟩

/-- A packet of at least one and at most 4096 bytes of a stream the child has. -/
def IsData (codes : GuestOpcodes) (tty : Bool) (effect : Effect) : Prop :=
  ∃ which bytes, hasOutput tty which = true ∧ 0 < bytes.length ∧ bytes.length ≤ 4096 ∧
    effect = dataPacket codes which bytes

namespace GuestOpcodes

variable (codes : GuestOpcodes)

/-- A data opcode fits the opcode's bits. -/
theorem write_small (which : Output) : (codes.write which).toNat < 4 := by
  cases which with
  | stdout => exact codes.stdout_small
  | stderr => exact codes.stderr_small

/-- No stream is sent under the exit opcode. -/
theorem write_ne_exit (which : Output) : codes.write which ≠ codes.exit := by
  cases which with
  | stdout => exact codes.stdout_ne_exit
  | stderr => exact codes.stderr_ne_exit

/-- The two streams have different opcodes. -/
theorem write_inj {first second : Output} (same : codes.write first = codes.write second) :
    first = second := by
  cases first <;> cases second
  · rfl
  · exact absurd same codes.stdout_ne_stderr
  · exact absurd same.symm codes.stdout_ne_stderr
  · rfl

end GuestOpcodes

/-- The receiver reads the stream back. -/
theorem opcode_dataPacket (codes : GuestOpcodes) (which : Output) {bytes : List Byte}
    (short : bytes.length ≤ 4096) :
    opcode (packCommand (codes.write which) bytes.length) = codes.write which := by
  refine opcode_packCommand (codes.write_small which) ?_
  unfold operandBound
  omega

/-- The receiver reads the exit opcode back. -/
theorem opcode_exitPacket (codes : GuestOpcodes) (code : Byte) :
    opcode (packCommand codes.exit code.toNat) = codes.exit := by
  have small := code.toNat_lt
  refine opcode_packCommand codes.exit_small ?_
  unfold operandBound
  omega

/-- The receiver reads the exit code back. -/
theorem operand_exitPacket (codes : GuestOpcodes) (code : Byte) :
    operand (packCommand codes.exit code.toNat) = code.toNat := by
  have small := code.toNat_lt
  refine operand_packCommand codes.exit_small ?_
  unfold operandBound
  omega

/-- A data packet carries its bytes for its own stream only. -/
theorem payloadOf_dataPacket (codes : GuestOpcodes) (which other : Output) {bytes : List Byte}
    (short : bytes.length ≤ 4096) :
    (dataPacket codes other bytes).payloadOf codes which =
      if other = which then bytes else [] := by
  unfold dataPacket Effect.payloadOf
  simp only [opcode_dataPacket codes other short]
  by_cases same : other = which
  · rw [if_pos same, if_pos (congrArg codes.write same)]
  · rw [if_neg same, if_neg fun equal => same (codes.write_inj equal)]

/-- An exit packet carries no output. -/
theorem payloadOf_exitPacket (codes : GuestOpcodes) (which : Output) (code : Byte) :
    (exitPacket codes code).payloadOf codes which = [] := by
  unfold exitPacket Effect.payloadOf
  simp only [opcode_exitPacket]
  exact if_neg (codes.write_ne_exit which).symm

/-- No data packet reads as an exit packet. -/
theorem IsData.opcode_ne_exit {codes : GuestOpcodes} {tty : Bool} {packet : Packet}
    (data : IsData codes tty (.packet packet)) : opcode packet.cmd ≠ codes.exit := by
  obtain ⟨which, bytes, _, _, short, same⟩ := data
  cases same
  rw [opcode_dataPacket codes which short]
  exact codes.write_ne_exit which

namespace Guest

/-- What holds of the streams and of the status byte in every phase. -/
structure Streams (guest : Guest) : Prop where
  accounted : ∀ which, (guest.source which).written =
    (guest.source which).taken ++ (guest.source which).buffer
  registered : ∀ which, guest.epoll (.output which) = guest.isOpen which
  opened : ∀ which, guest.isOpen which = true → hasOutput guest.tty which = true
  drained : ∀ which, hasOutput guest.tty which = true → guest.isOpen which = false →
    (guest.source which).ended = some (guest.source which).taken
  unread : ∀ code, guest.statusUnread = some code → guest.statusWritten = some code
  exit : ∀ code, guest.exitCode = some code → guest.statusWritten = some code

/-- `data` holds only packets of output, and they and what is `pending` carry what
was read of every stream. -/
structure Delivered (codes : GuestOpcodes) (guest : Guest) (data : List Effect)
    (pending : Output → List Byte) : Prop where
  shaped : ∀ effect ∈ data, IsData codes guest.tty effect
  carried : ∀ which, payloads codes which data ++ pending which = (guest.source which).taken

def nothing : Output → List Byte := fun _ => []

/-- What the loop has read and not sent. -/
def pendingOf (source : EventSource) (result : ReadResult) : Output → List Byte := fun which =>
  match source, result with
  | .output read, .data bytes => if read = which then bytes else []
  | _, _ => []

/-- What was read of a stream is pending for it. -/
theorem pendingOf_self (which : Output) (bytes : List Byte) :
    pendingOf (.output which) (.data bytes) which = bytes :=
  if_pos rfl

/-- What was read of a stream is pending for no other. -/
theorem pendingOf_of_ne {read which : Output} (different : read ≠ which) (bytes : List Byte) :
    pendingOf (.output read) (.data bytes) which = [] :=
  if_neg different

/-- Both streams are closed and the status byte was read. -/
structure Settled (guest : Guest) (code : Byte) : Prop where
  closed : ∀ which, guest.isOpen which = false
  exit : guest.exitCode = some code

/-- What a read that just returned says. -/
structure Obtained (guest : Guest) (source : EventSource) (result : ReadResult) : Prop where
  existing : ∀ which, source = .output which → hasOutput guest.tty which = true
  short : ∀ which bytes, source = .output which → result = .data bytes → bytes.length ≤ 4096
  ended : ∀ which, source = .output which → outputData which result = some [] →
    (guest.source which).ended = some (guest.source which).taken
  status : ∀ code, source = .stopPipe → result = .data [code] → guest.statusWritten = some code

/-- What holds in each phase. -/
def PhaseSound (codes : GuestOpcodes) (guest : Guest) : Prop :=
  match guest.phase with
  | .waiting => guest.Delivered codes guest.log nothing
  | .polled source flags => guest.Delivered codes guest.log nothing ∧
      ∀ which, source = .output which → guest.isOpen which = true ∧
        (flags.epollin = false → (guest.source which).ended = some (guest.source which).taken)
  | .got source flags result => flags.epollin = true ∧
      guest.Delivered codes guest.log (pendingOf source result) ∧ guest.Obtained source result
  | .reporting code => guest.Delivered codes guest.log nothing ∧ guest.Settled code
  | .exiting code => ∃ data, guest.log = data ++ [.finished] ∧
      guest.Delivered codes data nothing ∧ guest.Settled code
  | .returned true => ∃ data code, guest.log = data ++ [.finished, exitPacket codes code] ∧
      guest.Delivered codes data nothing ∧ guest.Settled code
  | .returned false => ∃ data, (guest.log = data ∨ guest.log = data ++ [.finished]) ∧
      ∀ effect ∈ data, IsData codes guest.tty effect

structure Sound (codes : GuestOpcodes) (guest : Guest) : Prop where
  streams : guest.Streams
  phase : guest.PhaseSound codes

/-- Nothing was read or sent yet. -/
theorem start_sound (codes : GuestOpcodes) (tty : Bool) : (start tty).Sound codes where
  streams :=
    { accounted := fun _ => rfl
      registered := fun _ => rfl
      opened := fun _ opened => opened
      drained := fun _ has closed => absurd (has.symm.trans closed) nofun
      unread := nofun
      exit := nofun }
  phase := ⟨nofun, fun _ => rfl⟩

variable {codes : GuestOpcodes} {guest : Guest}

/-- The stream that is changed. -/
theorem source_onSource_self (which : Output) (change : Source → Source) :
    (guest.onSource which change).source which = change (guest.source which) :=
  Function.update_self ..

/-- A change of one stream leaves the other. -/
theorem source_onSource_of_ne {which other : Output} (different : other ≠ which)
    (change : Source → Source) :
    (guest.onSource which change).source other = guest.source other :=
  Function.update_of_ne different ..

/-- What holds of the changed stream and of the others holds of every stream. -/
theorem forall_onSource {which : Output} {change : Source → Source}
    (holds : Output → Source → Prop) (changed : holds which (change (guest.source which)))
    (others : ∀ other, other ≠ which → holds other (guest.source other)) :
    ∀ other, holds other ((guest.onSource which change).source other) := by
  intro other
  by_cases same : other = which
  · subst same
    rw [source_onSource_self]
    exact changed
  · rw [source_onSource_of_ne same]
    exact others other same

/-- A change of one stream that loses no byte of it. -/
theorem Streams.onSource (streams : guest.Streams) {which : Output} {change : Source → Source}
    (accounted : (change (guest.source which)).written =
      (change (guest.source which)).taken ++ (change (guest.source which)).buffer)
    (drained : hasOutput guest.tty which = true → guest.isOpen which = false →
      (change (guest.source which)).ended = some (change (guest.source which)).taken) :
    (guest.onSource which change).Streams where
  accounted := forall_onSource (fun _ source => source.written = source.taken ++ source.buffer)
    accounted fun other _ => streams.accounted other
  registered := streams.registered
  opened := streams.opened
  drained := forall_onSource (fun other source => hasOutput guest.tty other = true →
    guest.isOpen other = false → source.ended = some source.taken)
    drained fun other _ => streams.drained other
  unread := streams.unread
  exit := streams.exit

/-- The streams do not depend on where the loop is. -/
theorem Streams.withPhase (streams : guest.Streams) (phase : Phase) :
    { guest with phase := phase }.Streams :=
  ⟨streams.accounted, streams.registered, streams.opened, streams.drained, streams.unread,
    streams.exit⟩

/-- A step of another process: it changes nothing the loop knows. -/
structure Unnoticed (before after : Guest) : Prop where
  phase : after.phase = before.phase
  tty : after.tty = before.tty
  log : after.log = before.log
  isOpen : after.isOpen = before.isOpen
  exitCode : after.exitCode = before.exitCode
  taken : ∀ which, (after.source which).taken = (before.source which).taken
  ended : ∀ which, (after.source which).ended = (before.source which).ended
  status : ∀ code, before.statusWritten = some code → after.statusWritten = some code

section Unnoticed

variable {before after : Guest} (unnoticed : Unnoticed before after)

include unnoticed

/-- What was delivered stays so while other processes run. -/
theorem Unnoticed.delivered {data : List Effect} {pending : Output → List Byte}
    (delivered : before.Delivered codes data pending) : after.Delivered codes data pending where
  shaped := by
    rw [unnoticed.tty]
    exact delivered.shaped
  carried which := by
    rw [unnoticed.taken]
    exact delivered.carried which

/-- A settled request stays settled while other processes run. -/
theorem Unnoticed.settled {code : Byte} (settled : before.Settled code) :
    after.Settled code where
  closed which := by
    rw [unnoticed.isOpen]
    exact settled.closed which
  exit := unnoticed.exitCode.trans settled.exit

/-- What a read has said stays true while other processes run. -/
theorem Unnoticed.obtained {source : EventSource} {result : ReadResult}
    (obtained : before.Obtained source result) : after.Obtained source result where
  existing := by
    rw [unnoticed.tty]
    exact obtained.existing
  short := obtained.short
  ended which chosen empty := by
    rw [unnoticed.ended, unnoticed.taken]
    exact obtained.ended which chosen empty
  status code chosen read := unnoticed.status code (obtained.status code chosen read)

/-- Every phase keeps what it relies on while other processes run. -/
theorem Unnoticed.phaseSound (sound : before.PhaseSound codes) : after.PhaseSound codes := by
  unfold PhaseSound at sound ⊢
  rw [unnoticed.phase, unnoticed.log, unnoticed.tty]
  cases phase : before.phase with
  | waiting =>
      rw [phase] at sound
      exact unnoticed.delivered sound
  | polled source flags =>
      rw [phase] at sound
      refine ⟨unnoticed.delivered sound.1, fun which chosen => ?_⟩
      rw [unnoticed.isOpen, unnoticed.ended, unnoticed.taken]
      exact sound.2 which chosen
  | got source flags result =>
      rw [phase] at sound
      exact ⟨sound.1, unnoticed.delivered sound.2.1, unnoticed.obtained sound.2.2⟩
  | reporting code =>
      rw [phase] at sound
      exact ⟨unnoticed.delivered sound.1, unnoticed.settled sound.2⟩
  | exiting code =>
      rw [phase] at sound
      obtain ⟨data, log, delivered, settled⟩ := sound
      exact ⟨data, log, unnoticed.delivered delivered, unnoticed.settled settled⟩
  | returned normally =>
      rw [phase] at sound
      cases normally with
      | true =>
          obtain ⟨data, code, log, delivered, settled⟩ := sound
          exact ⟨data, code, log, unnoticed.delivered delivered, unnoticed.settled settled⟩
      | false => exact sound

end Unnoticed

/-- A change of a stream that the loop cannot see yet. -/
theorem unnoticed_onSource {which : Output} {change : Source → Source}
    (taken : (change (guest.source which)).taken = (guest.source which).taken)
    (ended : (change (guest.source which)).ended = (guest.source which).ended) :
    Unnoticed guest (guest.onSource which change) where
  phase := rfl
  tty := rfl
  log := rfl
  isOpen := rfl
  exitCode := rfl
  taken := forall_onSource (fun other source => source.taken = (guest.source other).taken)
    taken fun _ _ => rfl
  ended := forall_onSource (fun other source => source.ended = (guest.source other).ended)
    ended fun _ _ => rfl
  status := fun _ written => written

/-- A writer's step keeps the invariant. -/
theorem Sound.onSource (sound : guest.Sound codes) {which : Output} {change : Source → Source}
    (accounted : (change (guest.source which)).written =
      (change (guest.source which)).taken ++ (change (guest.source which)).buffer)
    (taken : (change (guest.source which)).taken = (guest.source which).taken)
    (ended : (change (guest.source which)).ended = (guest.source which).ended) :
    (guest.onSource which change).Sound codes where
  streams := sound.streams.onSource accounted fun has closed => by
    rw [ended, taken]
    exact sound.streams.drained which has closed
  phase := (unnoticed_onSource taken ended).phaseSound sound.phase

/-! ## Polling and reading -/

/-- What `epoll` reports of a stream: without input its buffer is empty. -/
theorem reportable_output {which : Output} {flags : Flags}
    (reportable : guest.reportable (.output which) flags = true) :
    guest.epoll (.output which) = true ∧
      (flags.epollin = false → (guest.source which).buffer = []) := by
  simp only [Guest.reportable, Bool.and_eq_true, Bool.or_eq_true,
    List.isEmpty_iff] at reportable
  refine ⟨reportable.1.1, fun noInput => ?_⟩
  rcases reportable.2 with empty | input
  · exact empty
  · exact absurd (noInput.symm.trans input) nofun

/-- Everything written to a stream with an empty buffer was read. -/
theorem Sound.taken_eq_written (sound : guest.Sound codes) {which : Output}
    (empty : (guest.source which).buffer = []) :
    (guest.source which).written = (guest.source which).taken := by
  have accounted := sound.streams.accounted which
  rwa [empty, List.append_nil] at accounted

/-- Between two events all that was read was sent. -/
theorem Sound.waiting (sound : guest.Sound codes) (waiting : guest.phase = .waiting) :
    guest.Delivered codes guest.log nothing := by
  have phaseSound := sound.phase
  rw [PhaseSound, waiting] at phaseSound
  exact phaseSound

/-- An event with input, or of the status channel. -/
theorem Sound.poll (sound : guest.Sound codes) {source : EventSource} {flags : Flags}
    (waiting : guest.phase = .waiting) (reportable : guest.reportable source flags = true)
    (input : source = .stopPipe ∨ flags.epollin = true) :
    { guest with phase := .polled source flags }.Sound codes := by
  have delivered := sound.waiting waiting
  refine ⟨sound.streams.withPhase _, ⟨delivered.shaped, delivered.carried⟩, ?_⟩
  rintro which rfl
  have input := input.resolve_left nofun
  have registered := (reportable_output reportable).1
  exact ⟨sound.streams.registered which ▸ registered,
    fun noInput => absurd (noInput.symm.trans input) nofun⟩

/-- An event of a stream without input: its end was seen. -/
theorem Sound.pollHungUp (sound : guest.Sound codes) {which : Output} {flags : Flags}
    (waiting : guest.phase = .waiting)
    (reportable : guest.reportable (.output which) flags = true)
    (noInput : flags.epollin = false) :
    ({ guest with phase := .polled (.output which) flags }.onSource which .observeEnd).Sound
      codes := by
  have delivered := sound.waiting waiting
  obtain ⟨registered, emptied⟩ := reportable_output reportable
  have opened : guest.isOpen which = true := sound.streams.registered which ▸ registered
  have complete := sound.taken_eq_written (emptied noInput)
  refine ⟨(sound.streams.withPhase _).onSource (sound.streams.accounted which)
    fun _ _ => congrArg some complete, ⟨delivered.shaped, ?_⟩, ?_⟩
  · exact forall_onSource (fun other source => payloads codes other guest.log ++
      nothing other = source.taken) (delivered.carried which)
      fun other _ => delivered.carried other
  · rintro other ⟨⟩
    refine ⟨opened, fun _ => ?_⟩
    rw [source_onSource_self]
    exact congrArg some complete

/-- What a read of a stream may do. -/
theorem readOutput_cases {which : Output} {outcome : ReadOutcome} {after : Guest}
    {result : ReadResult} (read : guest.readOutput which outcome = some (after, result)) :
    (∃ count, count ≤ 4096 ∧ count ≤ (guest.source which).buffer.length ∧ 0 < count ∧
      after = guest.onSource which (fun source => source.take count) ∧
      result = .data ((guest.source which).buffer.take count)) ∨
    ((guest.source which).buffer = [] ∧ after = guest.onSource which .observeEnd ∧
      (result = .data [] ∨ result = .eio)) ∨
    (after = guest ∧ result = .failed) := by
  cases outcome with
  | bytes count =>
      simp only [readOutput, Option.ite_none_right_eq_some, Option.some.injEq,
        Prod.mk.injEq] at read
      obtain ⟨⟨positive, small, available⟩, rfl, rfl⟩ := read
      exact .inl ⟨count, small, available, positive, rfl, rfl⟩
  | endOfFile =>
      simp only [readOutput, Option.ite_none_right_eq_some, Option.some.injEq,
        Prod.mk.injEq] at read
      obtain ⟨⟨empty, _⟩, rfl, rfl⟩ := read
      exact .inr (.inl ⟨empty, rfl, .inl rfl⟩)
  | eio =>
      simp only [readOutput, Option.ite_none_right_eq_some, Option.some.injEq,
        Prod.mk.injEq] at read
      obtain ⟨⟨empty, _⟩, rfl, rfl⟩ := read
      exact .inr (.inl ⟨empty, rfl, .inr rfl⟩)
  | failed =>
      simp only [readOutput, Option.some.injEq, Prod.mk.injEq] at read
      exact .inr (.inr ⟨read.1.symm, read.2.symm⟩)

/-- What a read of the status channel may do. -/
theorem readStatus_cases {outcome : ReadOutcome} {after : Guest} {result : ReadResult}
    (read : guest.readStatus outcome = some (after, result)) :
    (∃ code, guest.statusUnread = some code ∧ after = { guest with statusUnread := none } ∧
      result = .data [code]) ∨ (after = guest ∧ result = .failed) := by
  cases outcome with
  | bytes count =>
      simp only [readStatus, Option.map_eq_some_iff, Prod.mk.injEq] at read
      obtain ⟨code, unread, rfl, rfl⟩ := read
      exact .inl ⟨code, unread, rfl, rfl⟩
  | endOfFile =>
      simp only [readStatus, Option.ite_none_right_eq_some, Option.some.injEq,
        Prod.mk.injEq] at read
      exact .inr ⟨read.2.1.symm, read.2.2.symm⟩
  | eio => cases read
  | failed =>
      simp only [readStatus, Option.some.injEq, Prod.mk.injEq] at read
      exact .inr ⟨read.1.symm, read.2.symm⟩

/-- A read of a stream: bytes, its end or a failure. -/
theorem Sound.readOutput (sound : guest.Sound codes) {which : Output} {outcome : ReadOutcome}
    {after : Guest} {flags : Flags} {result : ReadResult}
    (delivered : guest.Delivered codes guest.log nothing) (opened : guest.isOpen which = true)
    (input : flags.epollin = true)
    (read : guest.readOutput which outcome = some (after, result)) :
    { after with phase := .got (.output which) flags result }.Sound codes := by
  have existing := sound.streams.opened which opened
  have notClosed : ∀ {claim : Prop}, guest.isOpen which = false → claim :=
    fun closed => absurd (opened.symm.trans closed) nofun
  rcases readOutput_cases read with
    ⟨count, small, available, positive, rfl, rfl⟩ | ⟨empty, rfl, ending⟩ | ⟨rfl, rfl⟩
  · have taken : ((guest.source which).buffer.take count).length = count := by
      rw [List.length_take]
      omega
    refine ⟨(sound.streams.onSource ?_ fun _ closed => notClosed closed).withPhase _, input,
      ⟨delivered.shaped, ?_⟩, ?_⟩
    · have accounted := sound.streams.accounted which
      simp only [Source.take, List.append_assoc, List.take_append_drop]
      exact accounted
    · have sent : ∀ other, payloads codes other guest.log = (guest.source other).taken := by
        intro other
        have carried := delivered.carried other
        rwa [nothing, List.append_nil] at carried
      have carried : ∀ other, payloads codes other guest.log ++
          pendingOf (.output which) (.data ((guest.source which).buffer.take count)) other =
            ((guest.onSource which fun source => source.take count).source other).taken := by
        refine forall_onSource (fun other source => payloads codes other guest.log ++
          pendingOf _ _ other = source.taken) ?_ fun other different => ?_
        · rw [pendingOf_self, sent]
          rfl
        · rw [pendingOf_of_ne different.symm, List.append_nil, sent]
      exact carried
    · refine ⟨?_, ?_, ?_, nofun⟩
      · rintro other ⟨⟩
        exact existing
      · rintro other bytes ⟨⟩ ⟨⟩
        omega
      · rintro other ⟨⟩ nonempty
        simp only [outputData, Option.some.injEq] at nonempty
        rw [nonempty, List.length_nil] at taken
        omega
  · have complete := sound.taken_eq_written empty
    have silent : pendingOf (.output which) result = nothing := by
      funext other
      rcases ending with rfl | rfl
      · exact ite_self _
      · rfl
    refine ⟨(sound.streams.onSource (sound.streams.accounted which)
      fun _ _ => congrArg some complete).withPhase _, input, ⟨delivered.shaped, ?_⟩, ?_⟩
    · rw [silent]
      exact forall_onSource (fun other source => payloads codes other guest.log ++
        nothing other = source.taken) (delivered.carried which) fun other _ =>
          delivered.carried other
    · refine ⟨?_, ?_, ?_, nofun⟩
      · rintro other ⟨⟩
        exact existing
      · rintro other bytes ⟨⟩ rfl
        rcases ending with same | same <;> cases same
        exact Nat.zero_le _
      · rintro other ⟨⟩ _
        change ((guest.onSource which _).source which).ended = some
          ((guest.onSource which _).source which).taken
        rw [source_onSource_self]
        exact congrArg some complete
  · refine ⟨sound.streams.withPhase _, input, ⟨delivered.shaped, delivered.carried⟩, ?_⟩
    refine ⟨?_, nofun, nofun, nofun⟩
    rintro other ⟨⟩
    exact existing

/-- A read of the status channel. -/
theorem Sound.readStatus (sound : guest.Sound codes) {outcome : ReadOutcome} {after : Guest}
    {flags : Flags} {result : ReadResult}
    (delivered : guest.Delivered codes guest.log nothing) (input : flags.epollin = true)
    (read : guest.readStatus outcome = some (after, result)) :
    { after with phase := .got .stopPipe flags result }.Sound codes := by
  rcases readStatus_cases read with ⟨code, unread, rfl, rfl⟩ | ⟨rfl, rfl⟩
  · have streams := sound.streams
    refine ⟨⟨streams.accounted, streams.registered, streams.opened, streams.drained, nofun,
      streams.exit⟩, input, ⟨delivered.shaped, delivered.carried⟩, nofun, nofun, nofun, ?_⟩
    rintro other _ ⟨⟩
    exact streams.unread code unread
  · exact ⟨sound.streams.withPhase _, input, ⟨delivered.shaped, delivered.carried⟩, nofun, nofun,
      nofun, nofun⟩

/-- The read of an event with input. -/
theorem Sound.read (sound : guest.Sound codes) {source : EventSource} {flags : Flags}
    {outcome : ReadOutcome} {middle : Guest} {result : ReadResult}
    (here : guest.phase = .polled source flags) (input : flags.epollin = true)
    (read : guest.read source outcome = some (middle, result)) :
    { middle with phase := .got source flags result }.Sound codes := by
  have phaseSound := sound.phase
  rw [PhaseSound, here] at phaseSound
  cases source with
  | output which => exact sound.readOutput phaseSound.1 (phaseSound.2 which rfl).1 input read
  | stopPipe => exact sound.readStatus phaseSound.1 input read

/-! ## The two match blocks -/

/-- `delete` removes one registration. -/
theorem delete_eq_some {source : EventSource} {after : Guest}
    (deleted : guest.delete source = some after) :
    after = { guest with epoll := Function.update guest.epoll source false } := by
  simp only [delete, Option.ite_none_right_eq_some, Option.some.injEq] at deleted
  exact deleted.2.symm

/-- `close` removes the stream's registration and marks it closed. -/
theorem close_eq_some {which : Output} {after : Guest} (closed : guest.close which = some after) :
    after = { guest with
      epoll := Function.update guest.epoll (.output which) false
      isOpen := Function.update guest.isOpen which false } := by
  simp only [close, Option.map_eq_some_iff] at closed
  obtain ⟨middle, deleted, rfl⟩ := closed
  rw [delete_eq_some deleted]

/-- Between the blocks of an iteration: everything that was read was sent. -/
structure Clear (codes : GuestOpcodes) (guest : Guest) : Prop where
  streams : guest.Streams
  delivered : guest.Delivered codes guest.log nothing

/-- A stream is closed once its end was read. -/
theorem Clear.close (clear : guest.Clear codes) {which : Output} {after : Guest}
    (ended : (guest.source which).ended = some (guest.source which).taken)
    (closed : guest.close which = some after) : after.Clear codes := by
  rw [close_eq_some closed]
  have streams := clear.streams
  refine ⟨⟨streams.accounted, ?_, ?_, ?_, streams.unread, streams.exit⟩,
    clear.delivered.shaped, clear.delivered.carried⟩
  · intro other
    by_cases same : other = which
    · subst same
      have shut : Function.update guest.isOpen other false other = false := Function.update_self ..
      exact (Function.update_self ..).trans shut.symm
    · have different : EventSource.output other ≠ .output which := fun equal =>
        same (EventSource.output.inj equal)
      exact (Function.update_of_ne different ..).trans
        ((streams.registered other).trans (Function.update_of_ne same ..).symm)
  · intro other opened
    by_cases same : other = which
    · subst same
      exact absurd (opened.symm.trans (Function.update_self ..)) nofun
    · exact streams.opened other ((Function.update_of_ne same ..).symm.trans opened)
  · intro other existing shut
    by_cases same : other = which
    · subst same
      exact ended
    · exact streams.drained other existing ((Function.update_of_ne same ..).symm.trans shut)

/-- One more packet carries what was pending. -/
theorem Delivered.send {which : Output} {bytes : List Byte}
    (delivered : guest.Delivered codes guest.log (pendingOf (.output which) (.data bytes)))
    (existing : hasOutput guest.tty which = true) (nonempty : 0 < bytes.length)
    (short : bytes.length ≤ 4096) :
    guest.Delivered codes (guest.log ++ [dataPacket codes which bytes]) nothing where
  shaped effect member := by
    rcases List.mem_append.mp member with earlier | last
    · exact delivered.shaped effect earlier
    · rw [List.mem_singleton.mp last]
      exact ⟨which, bytes, existing, nonempty, short, rfl⟩
  carried other := by
    have single : payloads codes other [dataPacket codes which bytes] =
        pendingOf (.output which) (.data bytes) other := by
      rw [payloads, List.flatMap_singleton, payloadOf_dataPacket codes other which short]
      rfl
    rw [payloads_append, single, nothing, List.append_nil]
    exact delivered.carried other

/-- The first block sends what was read, closes a stream at its end, and keeps the status
byte. -/
theorem Clear.readBlock {source : EventSource} {result : ReadResult} {sent : Bool} {after : Guest}
    (streams : guest.Streams)
    (delivered : guest.Delivered codes guest.log (pendingOf source result))
    (obtained : guest.Obtained source result)
    (block : guest.readBlock codes source result sent = some after) : after.Clear codes := by
  cases source with
  | output which =>
      simp only [Guest.readBlock, Option.bind_eq_some_iff] at block
      obtain ⟨data, read, block⟩ := block
      split_ifs at block with empty accepted
      · rw [List.length_eq_zero_iff.mp empty] at read
        have silent : pendingOf (.output which) result = nothing := by
          cases result with
          | data bytes =>
              cases read
              exact funext fun _ => ite_self _
          | eio | failed => rfl
        rw [silent] at delivered
        exact Clear.close ⟨streams, delivered⟩ (obtained.ended which rfl read) block
      · cases result with
        | data bytes =>
            cases read
            cases block
            have sound := delivered.send (obtained.existing which rfl) (Nat.pos_of_ne_zero empty)
              (obtained.short which data rfl rfl)
            exact ⟨⟨streams.accounted, streams.registered, streams.opened, streams.drained,
              streams.unread, streams.exit⟩, sound.shaped, sound.carried⟩
        | eio =>
            simp only [outputData, Option.ite_none_right_eq_some, Option.some.injEq] at read
            rw [← read.2] at empty
            exact absurd rfl empty
        | failed => cases read
  | stopPipe =>
      rcases result with ⟨_ | ⟨code, _ | _⟩⟩ | _ | _
      case data.cons.nil =>
        rw [delete_eq_some block]
        have known := obtained.status code rfl rfl
        refine ⟨⟨streams.accounted, fun which => ?_, streams.opened, streams.drained,
          streams.unread, ?_⟩, delivered.shaped, delivered.carried⟩
        · have different : EventSource.output which ≠ .stopPipe := nofun
          have kept : Function.update guest.epoll .stopPipe false (.output which) =
            guest.epoll (.output which) := Function.update_of_ne different ..
          exact kept.trans (streams.registered which)
        · intro other read
          exact Option.some.inj read ▸ known
      all_goals cases block

/-- The second block closes a stream that hung up and has no input. -/
theorem Clear.hangUpBlock (clear : guest.Clear codes) {source : EventSource} {flags : Flags}
    {after : Guest}
    (ended : ∀ which, source = .output which → flags.epollin = false →
      (guest.source which).ended = some (guest.source which).taken)
    (block : guest.hangUpBlock source flags = some after) : after.Clear codes := by
  cases source with
  | output which =>
      simp only [Guest.hangUpBlock] at block
      split_ifs at block with last
      · exact clear.close (ended which rfl last.2) block
      · cases block
        exact clear
  | stopPipe =>
      simp only [Guest.hangUpBlock, Option.ite_none_left_eq_some, Option.some.injEq] at block
      obtain ⟨_, rfl⟩ := block
      exact clear

/-- An iteration ends in the next one, or in the report of a settled request. -/
theorem endIteration_cases (guest : Guest) :
    guest.endIteration = { guest with phase := .waiting } ∨
      ∃ code, guest.Settled code ∧
        guest.endIteration = { guest with phase := .reporting code } := by
  unfold endIteration
  split
  · exact .inl rfl
  case h_2 code exit =>
    split_ifs with closed
    · simp only [Bool.and_eq_true, Bool.not_eq_true'] at closed
      refine .inr ⟨code, ⟨fun which => ?_, exit⟩, rfl⟩
      cases which with
      | stdout => exact closed.1
      | stderr => exact closed.2
    · exact .inl rfl

/-- The end of an iteration after which everything read was sent. -/
theorem Clear.endIteration (clear : guest.Clear codes) : guest.endIteration.Sound codes := by
  rcases endIteration_cases guest with same | ⟨code, settled, same⟩
  · rw [same]
    exact ⟨clear.streams.withPhase _, clear.delivered.shaped, clear.delivered.carried⟩
  · rw [same]
    exact ⟨clear.streams.withPhase _, ⟨clear.delivered.shaped, clear.delivered.carried⟩,
      settled.closed, settled.exit⟩

/-- The two blocks of an event: after the first one everything read was sent, and
the second closes a stream only where the first did not read. -/
theorem blocks_eq_some {source : EventSource} {flags : Flags} {result : Option ReadResult}
    {sent : Bool} {after : Guest}
    (handled : guest.blocks codes source flags result sent = some after) :
    ∃ middle, ((result = none ∧ middle = guest) ∨ ∃ read, result = some read ∧
        guest.readBlock codes source read sent = some middle) ∧
      (after = middle ∨ middle.hangUpBlock source flags = some after) := by
  obtain ⟨middle, first, second⟩ := Option.bind_eq_some_iff.mp handled
  refine ⟨middle, ?_, ?_⟩
  · cases result with
    | none => exact .inl ⟨rfl, (Option.some.inj first).symm⟩
    | some read => exact .inr ⟨read, rfl, first⟩
  · split_ifs at second
    · exact .inr second
    · exact .inl (Option.some.inj second).symm

/-- An event is handled, or the loop fails with what it has sent. -/
theorem Streams.handle (streams : guest.Streams) {source : EventSource} {flags : Flags}
    {result : Option ReadResult} {sent : Bool}
    (shaped : ∀ effect ∈ guest.log, IsData codes guest.tty effect)
    (clear : ∀ after, guest.blocks codes source flags result sent = some after →
      after.Clear codes) :
    (guest.handle codes source flags result sent).Sound codes := by
  unfold Guest.handle
  split
  case h_1 after handled => exact (clear after handled).endIteration
  case h_2 => exact ⟨streams.withPhase _, guest.log, .inl rfl, shaped⟩

/-- An event without input. -/
theorem Sound.handleHungUp (sound : guest.Sound codes) {source : EventSource} {flags : Flags}
    {sent : Bool} (here : guest.phase = .polled source flags) :
    (guest.handle codes source flags none sent).Sound codes := by
  have streams := sound.streams
  have phaseSound := sound.phase
  rw [PhaseSound, here] at phaseSound
  refine streams.handle phaseSound.1.shaped fun after handled => ?_
  obtain ⟨_, ⟨_, rfl⟩ | ⟨_, impossible, _⟩, second⟩ := blocks_eq_some handled
  · have clear : Clear codes _ := ⟨streams, phaseSound.1⟩
    rcases second with rfl | hungUp
    · exact clear
    · exact clear.hangUpBlock (fun which chosen => (phaseSound.2 which chosen).2) hungUp
  · cases impossible

/-- An event whose read has returned. -/
theorem Sound.handle (sound : guest.Sound codes) {source : EventSource} {flags : Flags}
    {result : ReadResult} {sent : Bool} (here : guest.phase = .got source flags result) :
    (guest.handle codes source flags (some result) sent).Sound codes := by
  have streams := sound.streams
  have phaseSound := sound.phase
  rw [PhaseSound, here] at phaseSound
  obtain ⟨input, delivered, obtained⟩ := phaseSound
  refine streams.handle delivered.shaped fun after handled => ?_
  obtain ⟨middle, ⟨impossible, _⟩ | ⟨_, same, first⟩, second⟩ := blocks_eq_some handled
  · cases impossible
  · cases same
    have clear := Clear.readBlock streams delivered obtained first
    rcases second with rfl | hungUp
    · exact clear
    -- an event with input never closes a stream in the second block
    · exact clear.hangUpBlock
        (fun _ _ noInput => absurd (input.symm.trans noInput) nofun) hungUp

/-- A failed `epoll_wait` ends the loop with what it has sent. -/
theorem Sound.fail (sound : guest.Sound codes) (waiting : guest.phase = .waiting) :
    { guest with phase := .returned false }.Sound codes :=
  ⟨sound.streams.withPhase _, guest.log, .inl rfl, (sound.waiting waiting).shaped⟩

/-- The report comes after all output. -/
theorem Sound.report (sound : guest.Sound codes) {code : Byte}
    (here : guest.phase = .reporting code) :
    { guest with phase := .exiting code, log := guest.log ++ [Effect.finished] }.Sound codes := by
  have phaseSound := sound.phase
  rw [PhaseSound, here] at phaseSound
  obtain ⟨delivered, settled⟩ := phaseSound
  have streams := sound.streams
  exact ⟨⟨streams.accounted, streams.registered, streams.opened, streams.drained,
    streams.unread, streams.exit⟩, guest.log, rfl, ⟨delivered.shaped, delivered.carried⟩,
    settled.closed, settled.exit⟩

/-- The exit packet comes after the report. -/
theorem Sound.exit (sound : guest.Sound codes) {code : Byte}
    (here : guest.phase = .exiting code) :
    { guest with
      phase := .returned true
      log := guest.log ++
        [Effect.packet ⟨packCommand codes.exit code.toNat, []⟩] }.Sound codes := by
  have streams := sound.streams
  have phaseSound := sound.phase
  rw [PhaseSound, here] at phaseSound
  obtain ⟨data, log, delivered, settled⟩ := phaseSound
  refine ⟨⟨streams.accounted, streams.registered, streams.opened, streams.drained,
    streams.unread, streams.exit⟩, data, code, ?_, ⟨delivered.shaped, delivered.carried⟩,
    settled.closed, settled.exit⟩
  change guest.log ++ _ = _
  rw [log, List.append_assoc]
  rfl

/-- An exit packet that cannot be sent ends the loop without it. -/
theorem Sound.unsent (sound : guest.Sound codes) {code : Byte}
    (here : guest.phase = .exiting code) :
    { guest with phase := .returned false }.Sound codes := by
  have phaseSound := sound.phase
  rw [PhaseSound, here] at phaseSound
  obtain ⟨data, log, delivered, _⟩ := phaseSound
  exact ⟨sound.streams.withPhase _, data, .inr log, delivered.shaped⟩

/-- Every step of the loop and of the processes around it keeps the invariant. -/
theorem Sound.step (sound : guest.Sound codes) {action : GuestAction} {after : Guest}
    (stepped : guest.step codes action = some after) : after.Sound codes := by
  have streams := sound.streams
  cases effect_of_step stepped with
  | @write which bytes =>
      refine sound.onSource ?_ rfl rfl
      simp only [Source.write, streams.accounted which, List.append_assoc]
  | @hangUp which => exact sound.onSource (streams.accounted which) rfl rfl
  | reopen => exact sound.onSource (streams.accounted .stdout) rfl rfl
  | @writeStatus code unwritten =>
      have absent : ∀ other, guest.statusWritten ≠ some other := fun other written =>
        absurd (unwritten.symm.trans written) nofun
      have unnoticed : Unnoticed guest
          { guest with statusWritten := some code, statusUnread := some code } :=
        ⟨rfl, rfl, rfl, rfl, rfl, fun _ => rfl, fun _ => rfl,
          fun other written => absurd written (absent other)⟩
      exact ⟨⟨streams.accounted, streams.registered, streams.opened, streams.drained,
        fun _ unread => unread,
        fun other known => absurd (streams.exit other known) (absent other)⟩,
        unnoticed.phaseSound sound.phase⟩
  | closeStatus =>
      have unnoticed : Unnoticed guest { guest with statusClosed := true } :=
        ⟨rfl, rfl, rfl, rfl, rfl, fun _ => rfl, fun _ => rfl, fun _ written => written⟩
      exact ⟨⟨streams.accounted, streams.registered, streams.opened, streams.drained,
        streams.unread, streams.exit⟩, unnoticed.phaseSound sound.phase⟩
  | poll waiting reportable input => exact sound.poll waiting reportable input
  | pollHungUp waiting reportable noInput => exact sound.pollHungUp waiting reportable noInput
  | fail waiting => exact sound.fail waiting
  | read here input read => exact sound.read here input read
  | handleHungUp here => exact sound.handleHungUp here
  | handle here => exact sound.handle here
  | report here => exact sound.report here
  | exit here => exact sound.exit here
  | unsent here => exact sound.unsent here

/-- The invariant holds in every interleaving. -/
theorem sound_of_reachable {tty : Bool}
    (reachable : (runIoGuest codes).Reachable (start tty) guest) :
    guest.Sound codes :=
  reachable.invariant (Guest.Sound codes) (start_sound codes tty)
    fun _ _ _ sound stepped => Sound.step sound stepped

/-! ## What the loop keeps -/

/-- The loop extends its log and changes neither the kind of the request nor what
was written to its status channel. -/
structure Kept (before after : Guest) : Prop where
  tty : after.tty = before.tty
  statusWritten : after.statusWritten = before.statusWritten
  statusClosed : after.statusClosed = before.statusClosed
  log : before.log <+: after.log

/-- A step that does nothing. -/
theorem Kept.refl (guest : Guest) : Kept guest guest := ⟨rfl, rfl, rfl, List.prefix_refl _⟩

/-- Two steps in a row. -/
theorem Kept.trans {first second third : Guest} (earlier : Kept first second)
    (later : Kept second third) : Kept first third :=
  ⟨later.tty.trans earlier.tty, later.statusWritten.trans earlier.statusWritten,
    later.statusClosed.trans earlier.statusClosed, earlier.log.trans later.log⟩

private theorem kept_close {which : Output} {after : Guest}
    (closed : guest.close which = some after) :
    Kept guest after := by
  rw [close_eq_some closed]
  exact ⟨rfl, rfl, rfl, List.prefix_refl _⟩

private theorem kept_readBlock {source : EventSource} {result : ReadResult} {sent : Bool}
    {after : Guest}
    (block : guest.readBlock codes source result sent = some after) : Kept guest after := by
  cases source with
  | output which =>
      simp only [readBlock, Option.bind_eq_some_iff] at block
      obtain ⟨data, _, block⟩ := block
      split_ifs at block
      · exact kept_close block
      · cases block
        exact ⟨rfl, rfl, rfl, List.prefix_append _ _⟩
  | stopPipe =>
      simp only [readBlock] at block
      split at block
      · rw [delete_eq_some block]
        exact ⟨rfl, rfl, rfl, List.prefix_refl _⟩
      · cases block

private theorem kept_hangUpBlock {source : EventSource} {flags : Flags} {after : Guest}
    (block : guest.hangUpBlock source flags = some after) : Kept guest after := by
  cases source with
  | output which =>
      simp only [hangUpBlock] at block
      split_ifs at block
      · exact kept_close block
      · cases block
        exact .refl guest
  | stopPipe =>
      simp only [hangUpBlock, Option.ite_none_left_eq_some, Option.some.injEq] at block
      obtain ⟨_, rfl⟩ := block
      exact .refl guest

private theorem kept_endIteration (guest : Guest) : Kept guest guest.endIteration := by
  rcases endIteration_cases guest with same | ⟨code, _, same⟩
  · rw [same]
    exact ⟨rfl, rfl, rfl, List.prefix_refl _⟩
  · rw [same]
    exact ⟨rfl, rfl, rfl, List.prefix_refl _⟩

private theorem kept_handle (guest : Guest) (source : EventSource) (flags : Flags)
    (result : Option ReadResult) (sent : Bool) :
    Kept guest (guest.handle codes source flags result sent) := by
  unfold handle
  split
  case h_1 after handled =>
    obtain ⟨middle, first, second⟩ := blocks_eq_some handled
    have read : Kept guest middle := by
      rcases first with ⟨_, rfl⟩ | ⟨_, _, block⟩
      · exact .refl _
      · exact kept_readBlock block
    have hungUp : Kept middle after := by
      rcases second with rfl | block
      · exact .refl _
      · exact kept_hangUpBlock block
    exact (read.trans hungUp).trans (kept_endIteration after)
  case h_2 => exact ⟨rfl, rfl, rfl, List.prefix_refl _⟩

private theorem kept_onSource (which : Output) (change : Source → Source) :
    Kept guest (guest.onSource which change) := ⟨rfl, rfl, rfl, List.prefix_refl _⟩

private theorem kept_withPhase (phase : Phase) : Kept guest { guest with phase := phase } :=
  ⟨rfl, rfl, rfl, List.prefix_refl _⟩

/-- Every step but those on the status channel keeps these. -/
theorem kept_step {action : GuestAction} (output : action.isOutput = true)
    {after : Guest} (stepped : guest.step codes action = some after) : Kept guest after := by
  cases effect_of_step stepped with
  | write | hangUp | reopen => exact kept_onSource _ _
  | writeStatus | closeStatus => cases output
  | poll | fail | unsent => exact kept_withPhase _
  | pollHungUp => exact (kept_withPhase _).trans (kept_onSource _ _)
  | @read source flags outcome middle result here input read =>
      refine Kept.trans ?_ (kept_withPhase _)
      cases source with
      | output which =>
          rcases readOutput_cases read with ⟨_, _, _, _, rfl, _⟩ | ⟨_, rfl, _⟩ | ⟨rfl, _⟩
          · exact kept_onSource _ _
          · exact kept_onSource _ _
          · exact .refl _
      | stopPipe =>
          rcases readStatus_cases read with ⟨_, _, rfl, _⟩ | ⟨rfl, _⟩
          · exact ⟨rfl, rfl, rfl, List.prefix_refl _⟩
          · exact .refl _
  | handleHungUp | handle => exact kept_handle ..
  | report | exit => exact ⟨rfl, rfl, rfl, List.prefix_append _ _⟩

/-- No step changes the kind of the request. -/
theorem step_tty {action : GuestAction} {after : Guest}
    (stepped : guest.step codes action = some after) : after.tty = guest.tty := by
  cases output : action.isOutput with
  | true => exact (kept_step output stepped).tty
  | false =>
      cases effect_of_step stepped with
      | writeStatus | closeStatus => rfl
      | write | hangUp | reopen | poll | pollHungUp | fail | read | handleHungUp | handle
      | report | exit | unsent => cases output

/-- A request keeps its kind. -/
theorem tty_of_reachable {tty : Bool} (reachable : (runIoGuest codes).Reachable (start tty) guest) :
    guest.tty = tty :=
  reachable.invariant (fun guest => guest.tty = tty) rfl
    fun _ _ _ same stepped => (step_tty stepped).trans same

/-- An exit packet is in the log only once the loop has returned normally. -/
theorem Sound.log_cases (sound : guest.Sound codes) :
    (∃ data code, guest.phase = .returned true ∧
      guest.log = data ++ [.finished, exitPacket codes code] ∧
      guest.Delivered codes data nothing ∧ guest.Settled code) ∨
    (guest.phase ≠ .returned true ∧
      ∀ packet, .packet packet ∈ guest.log → opcode packet.cmd ≠ codes.exit) := by
  have phaseSound := sound.phase
  have quiet : ∀ {data : List Effect}, (∀ effect ∈ data, IsData codes guest.tty effect) →
      ∀ packet, .packet packet ∈ data → opcode packet.cmd ≠ codes.exit :=
    fun shaped packet member => (shaped _ member).opcode_ne_exit
  have quietFinished : ∀ {data : List Effect},
      (∀ effect ∈ data, IsData codes guest.tty effect) →
      ∀ packet, .packet packet ∈ data ++ [.finished] → opcode packet.cmd ≠ codes.exit := by
    intro data shaped packet member
    rcases List.mem_append.mp member with earlier | last
    · exact quiet shaped packet earlier
    · cases List.mem_singleton.mp last
  unfold PhaseSound at phaseSound
  cases phase : guest.phase with
  | waiting =>
      rw [phase] at phaseSound
      exact .inr ⟨nofun, quiet phaseSound.shaped⟩
  | polled source flags =>
      rw [phase] at phaseSound
      exact .inr ⟨nofun, quiet phaseSound.1.shaped⟩
  | got source flags result =>
      rw [phase] at phaseSound
      exact .inr ⟨nofun, quiet phaseSound.2.1.shaped⟩
  | reporting code =>
      rw [phase] at phaseSound
      exact .inr ⟨nofun, quiet phaseSound.1.shaped⟩
  | exiting code =>
      rw [phase] at phaseSound
      obtain ⟨data, log, delivered, _⟩ := phaseSound
      rw [log]
      exact .inr ⟨nofun, quietFinished delivered.shaped⟩
  | returned normally =>
      rw [phase] at phaseSound
      cases normally with
      | true =>
          obtain ⟨data, code, log, delivered, settled⟩ := phaseSound
          exact .inl ⟨data, code, rfl, log, delivered, settled⟩
      | false =>
          obtain ⟨data, log | log, shaped⟩ := phaseSound
          · rw [log]
            exact .inr ⟨nofun, quiet shaped⟩
          · rw [log]
            exact .inr ⟨nofun, quietFinished shaped⟩

end Guest

/-- What `run_io_guest` has done when it returns: it sent all output, reported, and
sent the exit code that was written. -/
structure Completed (codes : GuestOpcodes) (tty : Bool) (guest : Guest) (data : List Effect)
    (code : Byte) : Prop where
  log : guest.log = data ++ [.finished, exitPacket codes code]
  shaped : ∀ effect ∈ data, IsData codes tty effect
  status : guest.statusWritten = some code
  carried : ∀ which, hasOutput tty which = true →
    payloads codes which guest.log = (guest.source which).taken
  drained : ∀ which, hasOutput tty which = true → guest.isOpen which = false ∧
    (guest.source which).ended = some (guest.source which).taken

namespace Guest

variable {codes : GuestOpcodes} {tty : Bool} {guest : Guest}

/-- A settled request's packets are all the output there was. -/
theorem Sound.completed (sound : guest.Sound codes) (same : guest.tty = tty) {data : List Effect}
    {code : Byte} (log : guest.log = data ++ [.finished, exitPacket codes code])
    (delivered : guest.Delivered codes data nothing) (settled : guest.Settled code) :
    Completed codes tty guest data code := by
  subst same
  refine ⟨log, delivered.shaped, sound.streams.exit code settled.exit, fun which _ => ?_,
    fun which existing => ⟨settled.closed which,
      sound.streams.drained which existing (settled.closed which)⟩⟩
  have trailer : payloads codes which [.finished, exitPacket codes code] = [] := by
    rw [payloads, List.flatMap_cons, List.flatMap_singleton, payloadOf_exitPacket]
    rfl
  have carried := delivered.carried which
  rw [nothing, List.append_nil] at carried
  rw [log, payloads_append, trailer, List.append_nil, carried]

end Guest

/-- In a completed log, a packet that reads as an exit packet is the last effect. -/
theorem exit_is_last {codes : GuestOpcodes} {tty : Bool} {data : List Effect} {code : Byte}
    (shaped : ∀ effect ∈ data, IsData codes tty effect) {before after : List Effect}
    {packet : Packet} (exits : opcode packet.cmd = codes.exit)
    (split : data ++ [.finished, exitPacket codes code] = before ++ .packet packet :: after) :
    after = [] ∧ before = data ++ [.finished] ∧ .packet packet = exitPacket codes code := by
  rcases List.append_eq_append_iff.mp split with ⟨middle, same, rest⟩ | ⟨middle, same, rest⟩
  · rcases middle with _ | ⟨effect, _ | ⟨second, tail⟩⟩
    · cases (List.cons.inj rest).1
    · obtain ⟨reported, exit⟩ := List.cons.inj rest
      obtain ⟨sent, nothing⟩ := List.cons.inj exit
      exact ⟨nothing.symm, reported ▸ same, sent.symm⟩
    · obtain ⟨_, exit⟩ := List.cons.inj rest
      obtain ⟨_, nothing⟩ := List.cons.inj exit
      exact absurd nothing.symm (List.append_ne_nil_of_right_ne_nil _ nofun)
  · cases middle with
    | nil => cases (List.cons.inj rest).1
    | cons effect tail =>
        obtain ⟨rfl, _⟩ := List.cons.inj rest
        have member : .packet packet ∈ data := same ▸ List.mem_append_right _ List.mem_cons_self
        exact absurd exits (shaped _ member).opcode_ne_exit

/-- **Output and exit status.** In every run, if the loop returns normally then
each stream's payloads are what was read until its end, and the log ends with the
report and one exit packet with the status byte. An exit packet is only ever the
last effect of such a run, and is never sent when the status channel was closed
without a byte. -/
theorem runIoGuest_output (codes : GuestOpcodes) (tty : Bool) (guest : Guest)
    (reachable : (runIoGuest codes).Reachable (Guest.start tty) guest) :
    (guest.phase = .returned true → ∃ data code, Completed codes tty guest data code) ∧
    (∀ before packet after, guest.log = before ++ .packet packet :: after →
      opcode packet.cmd = codes.exit → after = [] ∧ ∃ data code,
        before = data ++ [.finished] ∧ packet = ⟨packCommand codes.exit code.toNat, []⟩ ∧
        operand packet.cmd = code.toNat ∧ Completed codes tty guest data code) ∧
    (guest.statusClosed = true → guest.statusWritten = none →
      ∀ packet, .packet packet ∈ guest.log → opcode packet.cmd ≠ codes.exit) := by
  have sound := Guest.sound_of_reachable reachable
  have same := Guest.tty_of_reachable reachable
  rcases sound.log_cases with ⟨data, code, phase, log, delivered, settled⟩ | ⟨running, quiet⟩
  · have completed := sound.completed same log delivered settled
    refine ⟨fun _ => ⟨data, code, completed⟩, ?_, ?_⟩
    · intro before packet after split exits
      rw [log] at split
      obtain ⟨rfl, rfl, sent⟩ := exit_is_last completed.shaped exits split
      cases sent
      exact ⟨rfl, data, code, rfl, rfl, operand_exitPacket codes code, completed⟩
    · intro _ unwritten
      exact absurd (completed.status.symm.trans unwritten) nofun
  · refine ⟨fun returned => absurd returned running, ?_, fun _ _ => quiet⟩
    intro before packet after split exits
    exact absurd exits (quiet packet (split ▸ List.mem_append_right _ List.mem_cons_self))

def sampleCodes : GuestOpcodes where
  writeStdout := 0
  writeStderr := 1
  exit := 2
  stdout_small := toNat_zero_lt_four
  stderr_small := toNat_one_lt_four
  exit_small := by decide
  stdout_ne_stderr := zero_ne_one_opcode
  stdout_ne_exit := by decide
  stderr_ne_exit := by decide

/-- The child writes, closes its streams and exits while its last output is unread. -/
def sampleOutput : List GuestAction :=
  [.write .stdout [104, 105], .hangUp .stderr, .hangUp .stdout, .writeStatus 7, .closeStatus,
    .poll .stopPipe ⟨true, true⟩, .read (.bytes 1), .handle true,
    .poll (.output .stderr) ⟨false, true⟩, .handle true,
    .poll (.output .stdout) ⟨true, true⟩, .read (.bytes 1), .handle true,
    .poll (.output .stdout) ⟨true, true⟩, .read (.bytes 1), .handle true,
    .poll (.output .stdout) ⟨true, true⟩, .read .endOfFile, .handle true,
    .report, .exit true]

/-- Two reads of one stream, and the exit after them. -/
theorem runIoGuest_output_sample : ∃ guest,
    (runIoGuest sampleCodes).run (Guest.start false) sampleOutput = some guest ∧
    guest.log = [dataPacket sampleCodes .stdout [104], dataPacket sampleCodes .stdout [105],
      .finished, exitPacket sampleCodes 7] ∧
    ∃ data code, Completed sampleCodes false guest data code :=
  ⟨_, rfl, rfl, (runIoGuest_output sampleCodes false _ ⟨sampleOutput, rfl⟩).1 rfl⟩

end X86OnArm.Muvm
