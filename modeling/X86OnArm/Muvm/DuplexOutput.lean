import X86OnArm.Muvm.DuplexRelay

/-! # The guest's loop while its calls succeed

`Guest.Healthy` says where the loop of `run_io_guest` can be when epoll reports what is
there and no call fails: it has not returned with an error, what it polled can be read,
and a stream it closed has no writer and no bytes left. The processes' writes, the end of
a stream and the worker's status byte keep it.
-/

namespace X86OnArm.Muvm

open Foundation

namespace Guest

/-- Nothing more comes from a stream. -/
def Finished (guest : Guest) (which : Output) : Prop :=
  (guest.source which).hungUp = true ∧ (guest.source which).buffer = []

/-- The status channel is registered for as long as the byte was not read. -/
def Awaiting (guest : Guest) : Prop :=
  guest.epoll .stopPipe = guest.exitCode.isNone ∧
    (guest.exitCode = none → guest.statusUnread = guest.statusWritten) ∧
    (guest.exitCode ≠ none → guest.statusUnread = none)

/-- What a read that succeeded returned: bytes, or the end of the stream. -/
def Yielded (guest : Guest) (which : Output) (result : ReadResult) : Prop :=
  (∃ bytes, bytes ≠ [] ∧ result = .data bytes) ∨
    (outputData which result = some [] ∧ guest.Finished which)

/-- What holds at each point of the loop. -/
def PhaseHealthy (guest : Guest) : Phase → Prop
  | .waiting => guest.Awaiting ∧ (guest.exitCode ≠ none → ∃ which, guest.isOpen which = true)
  | .polled (.output which) flags => guest.Awaiting ∧
      (flags.epollin = true →
        (guest.source which).buffer ≠ [] ∨ (guest.source which).hungUp = true) ∧
      (flags.epollin = false → flags.epollhup = true ∧ guest.Finished which)
  | .polled .stopPipe flags => guest.Awaiting ∧ guest.exitCode = none ∧ flags.epollin = true ∧
      guest.statusUnread ≠ none
  | .got (.output which) _ result => guest.Awaiting ∧ guest.isOpen which = true ∧
      guest.Yielded which result
  | .got .stopPipe _ result => guest.epoll .stopPipe = true ∧ guest.statusUnread = none ∧
      guest.statusWritten ≠ none ∧ ∃ code, result = .data [code]
  | .reporting _ | .exiting _ | .returned true => True
  | .returned false => False

structure Healthy (guest : Guest) : Prop where
  phase : guest.PhaseHealthy guest.phase
  status : guest.statusClosed = true → guest.statusWritten ≠ none
  closed : ∀ which, hasOutput guest.tty which = true → guest.isOpen which = false →
    guest.Finished which

theorem start_healthy (tty : Bool) : (start tty).Healthy where
  phase := ⟨⟨rfl, fun _ => rfl, fun _ => rfl⟩, fun other => absurd rfl other⟩
  status := nofun
  closed _ has closed := absurd (has.symm.trans closed) nofun

variable {codes : GuestOpcodes} {guest : Guest}

/-! ## The other parties -/

/-- A change of a stream that leaves a finished one finished and a readable one so. -/
theorem Healthy.onSource (healthy : guest.Healthy) {which : Output} {change : Source → Source}
    (finished : guest.Finished which → (change (guest.source which)).hungUp = true ∧
      (change (guest.source which)).buffer = [])
    (readable : (guest.source which).buffer ≠ [] ∨ (guest.source which).hungUp = true →
      (change (guest.source which)).buffer ≠ [] ∨
        (change (guest.source which)).hungUp = true) :
    (guest.onSource which change).Healthy := by
  have finishes : ∀ other, guest.Finished other → (guest.onSource which change).Finished other :=
    forall_onSource (fun other source => guest.Finished other → source.hungUp = true ∧
      source.buffer = []) finished fun other _ finished => finished
  have reads : ∀ other, (guest.source other).buffer ≠ [] ∨ (guest.source other).hungUp = true →
      ((guest.onSource which change).source other).buffer ≠ [] ∨
        ((guest.onSource which change).source other).hungUp = true :=
    forall_onSource (fun other source =>
      (guest.source other).buffer ≠ [] ∨ (guest.source other).hungUp = true →
        source.buffer ≠ [] ∨ source.hungUp = true) readable fun other _ readable => readable
  refine ⟨?_, healthy.status,
    fun other has closed => finishes other (healthy.closed other has closed)⟩
  have phase := healthy.phase
  change PhaseHealthy _ guest.phase
  cases point : guest.phase with
  | waiting | reporting _ | exiting _ =>
      rw [point] at phase
      exact phase
  | polled source flags =>
      rw [point] at phase
      cases source with
      | stopPipe => exact phase
      | output other =>
          exact ⟨phase.1, fun input => reads other (phase.2.1 input),
            fun noInput => ⟨(phase.2.2 noInput).1, finishes other (phase.2.2 noInput).2⟩⟩
  | got source flags result =>
      rw [point] at phase
      cases source with
      | stopPipe => exact phase
      | output other =>
          exact ⟨phase.1, phase.2.1, phase.2.2.imp_right fun ended =>
            ⟨ended.1, finishes other ended.2⟩⟩
  | returned normally =>
      rw [point] at phase
      cases normally <;> exact phase

theorem Healthy.write (healthy : guest.Healthy) {which : Output} {bytes : List Byte}
    (opened : (guest.source which).hungUp = false) :
    (guest.onSource which fun source => source.write bytes).Healthy := by
  refine healthy.onSource (fun finished => absurd (opened.symm.trans finished.1) nofun) ?_
  rintro (nonempty | ended)
  · exact .inl fun empty => nonempty (List.append_eq_nil_iff.mp empty).1
  · exact absurd (opened.symm.trans ended) nofun

theorem Healthy.hangUp (healthy : guest.Healthy) (which : Output) :
    (guest.onSource which fun source => source.setHungUp true).Healthy :=
  healthy.onSource (fun finished => ⟨rfl, finished.2⟩) fun _ => .inr rfl

/-- The worker writes the status byte and closes the channel. -/
theorem Healthy.writeStatus (healthy : guest.Healthy) (unwritten : guest.statusWritten = none)
    (streams : guest.Streams) (code : Byte) :
    { guest with
      statusWritten := some code
      statusUnread := some code
      statusClosed := true }.Healthy := by
  refine ⟨?_, fun _ => nofun, healthy.closed⟩
  have unexited : guest.exitCode = none := by
    by_contra read
    obtain ⟨known, exit⟩ := Option.ne_none_iff_exists'.mp read
    exact absurd (unwritten.symm.trans (streams.exit known exit)) nofun
  have awaiting (waits : guest.Awaiting) : Awaiting { guest with
      statusWritten := some code, statusUnread := some code, statusClosed := true } :=
    ⟨waits.1, fun _ => rfl, fun read => absurd unexited read⟩
  have phase := healthy.phase
  change PhaseHealthy _ guest.phase
  cases point : guest.phase with
  | waiting =>
      rw [point] at phase
      exact ⟨awaiting phase.1, fun read => absurd unexited read⟩
  | reporting _ | exiting _ => trivial
  | polled source flags =>
      rw [point] at phase
      cases source with
      | stopPipe => exact ⟨awaiting phase.1, phase.2.1, phase.2.2.1, nofun⟩
      | output other => exact ⟨awaiting phase.1, phase.2⟩
  | got source flags result =>
      rw [point] at phase
      cases source with
      | stopPipe => exact absurd unwritten phase.2.2.1
      | output other => exact ⟨awaiting phase.1, phase.2⟩
  | returned normally =>
      rw [point] at phase
      cases normally <;> exact phase

/-! ## The loop -/

private theorem Healthy.withPhase (healthy : guest.Healthy) {phase : Phase}
    (sound : guest.PhaseHealthy phase) : { guest with phase := phase }.Healthy := by
  refine ⟨?_, healthy.status, healthy.closed⟩
  rcases phase with _ | ⟨_ | _, _⟩ | ⟨_ | _, _, _⟩ | _ | _ | _ | _ <;> exact sound

/-- A change that the loop's conditions do not read. -/
theorem Healthy.observeEnd (healthy : guest.Healthy) (which : Output) :
    (guest.onSource which .observeEnd).Healthy :=
  healthy.onSource (fun finished => finished) fun readable => readable

private theorem Healthy.poll (healthy : guest.Healthy) {source : EventSource} {flags : Flags}
    (waiting : guest.phase = .waiting) (reportable : guest.reportable source flags = true)
    (accurate : Guest.accurate guest flags source = true) :
    { guest with phase := .polled source flags }.Healthy := by
  have phase := healthy.phase
  rw [waiting] at phase
  have awaiting := phase.1
  refine healthy.withPhase ?_
  cases source with
  | output which =>
      obtain ⟨_, emptied⟩ := reportable_output reportable
      simp only [Guest.reportable, Guest.accurate, Bool.and_eq_true, Bool.or_eq_true,
        Bool.not_eq_true', List.isEmpty_eq_false_iff] at reportable accurate
      refine ⟨awaiting, fun input => ?_, fun noInput => ?_⟩
      · rcases accurate.1 with (none | some) | ended
        · exact absurd (none.symm.trans input) Bool.false_ne_true
        · exact .inl some
        · exact .inr ended
      · have hup := reportable.1.2.resolve_left fun input =>
          absurd (noInput.symm.trans input) Bool.false_ne_true
        have ended := accurate.2.resolve_left fun none =>
          absurd (none.symm.trans hup) Bool.false_ne_true
        exact ⟨hup, ended, emptied noInput⟩
  | stopPipe =>
      simp only [Guest.reportable, Guest.accurate, Bool.and_eq_true, Bool.or_eq_true,
        Bool.not_eq_true', Option.isNone_iff_eq_none] at reportable accurate
      have registered := reportable.1.1
      rw [awaiting.1, Option.isNone_iff_eq_none] at registered
      have input : flags.epollin = true := by
        rcases reportable.2 with unread | input
        · rcases reportable.1.2 with input | hup
          · exact input
          · have closed := accurate.2.resolve_left fun none =>
              absurd (none.symm.trans hup) Bool.false_ne_true
            exact absurd ((awaiting.2.1 registered).symm.trans unread) (healthy.status closed)
        · exact input
      refine ⟨awaiting, registered, input, ?_⟩
      have unread := accurate.1.resolve_left fun none =>
        absurd (none.symm.trans input) Bool.false_ne_true
      exact Option.isSome_iff_ne_none.mp unread

private theorem Sound.polled_open (sound : guest.Sound codes) {which : Output} {flags : Flags}
    (here : guest.phase = .polled (.output which) flags) : guest.isOpen which = true := by
  have phase := sound.phase
  rw [PhaseSound, here] at phase
  exact (phase.2 which rfl).1

/-- What a read of a stream that did not fail returns. -/
theorem readOutput_yielded (streams : guest.Streams) {which : Output} {outcome : ReadOutcome}
    {middle : Guest} {result : ReadResult} (opened : guest.isOpen which = true)
    (works : outcome ≠ .failed)
    (read : guest.readOutput which outcome = some (middle, result)) :
    ∃ change, middle = guest.onSource which change ∧
      (change (guest.source which)).hungUp = (guest.source which).hungUp ∧
      ((guest.source which).buffer = [] → (change (guest.source which)).buffer = []) ∧
      middle.Yielded which result := by
  cases outcome with
  | bytes count =>
      simp only [readOutput, Option.ite_none_right_eq_some, Option.some.injEq,
        Prod.mk.injEq] at read
      obtain ⟨⟨positive, _, available⟩, rfl, rfl⟩ := read
      refine ⟨_, rfl, rfl, fun empty => ?_, .inl ⟨_, fun none => ?_, rfl⟩⟩
      · exact (congrArg (List.drop count) empty).trans List.drop_nil
      · have length := congrArg List.length none
        rw [List.length_take, List.length_nil] at length
        omega
  | endOfFile =>
      simp only [readOutput, Option.ite_none_right_eq_some, Option.some.injEq,
        Prod.mk.injEq] at read
      obtain ⟨⟨empty, ended⟩, rfl, rfl⟩ := read
      refine ⟨_, rfl, rfl, id, .inr ⟨rfl, ?_, ?_⟩⟩
      · rw [source_onSource_self]
        exact ended
      · rw [source_onSource_self]
        exact empty
  | eio =>
      simp only [readOutput, Option.ite_none_right_eq_some, Option.some.injEq,
        Prod.mk.injEq] at read
      obtain ⟨⟨empty, ended, terminal⟩, rfl, rfl⟩ := read
      have existing := streams.opened which opened
      have first : which = .stdout := by
        cases which with
        | stdout => rfl
        | stderr =>
            rw [hasOutput, terminal] at existing
            cases existing
      refine ⟨_, rfl, rfl, id, .inr ⟨if_pos first, ?_, ?_⟩⟩
      · rw [source_onSource_self]
        exact ended
      · rw [source_onSource_self]
        exact empty
  | failed => exact absurd rfl works

private theorem Healthy.read (healthy : guest.Healthy) (sound : guest.Sound codes)
    {source : EventSource}
    {flags : Flags} {outcome : ReadOutcome} {middle : Guest} {result : ReadResult}
    (here : guest.phase = .polled source flags) (works : outcome ≠ .failed)
    (read : guest.read source outcome = some (middle, result)) :
    { middle with phase := .got source flags result }.Healthy := by
  have phase := healthy.phase
  rw [here] at phase
  cases source with
  | output which =>
      have opened := sound.polled_open here
      obtain ⟨change, rfl, hungUp, empties, yielded⟩ :=
        readOutput_yielded sound.streams opened works read
      refine ⟨⟨phase.1, opened, yielded⟩, healthy.status, ?_⟩
      refine forall_onSource (fun other source => hasOutput guest.tty other = true →
        guest.isOpen other = false → source.hungUp = true ∧ source.buffer = []) ?_
        fun other _ => healthy.closed other
      exact fun _ closed => absurd (opened.symm.trans closed) nofun
  | stopPipe =>
      obtain ⟨awaiting, unread, input, available⟩ := phase
      rcases readStatus_cases read with ⟨code, known, rfl, rfl⟩ | ⟨rfl, rfl⟩
      · refine ⟨⟨?_, rfl, ?_, code, rfl⟩, healthy.status, healthy.closed⟩
        · rw [awaiting.1, unread]
          rfl
        · exact (awaiting.2.1 unread) ▸ available
      · cases outcome with
        | bytes count =>
            simp only [Guest.read, readStatus, Option.map_eq_some_iff, Prod.mk.injEq] at read
            obtain ⟨code, _, _, other⟩ := read
            cases other
        | endOfFile =>
            simp only [Guest.read, readStatus, Option.ite_none_right_eq_some] at read
            exact absurd read.1.1 available
        | eio => cases read
        | failed => exact absurd rfl works

/-! ## The two blocks -/

private theorem delete_of_registered {source : EventSource}
    (registered : guest.epoll source = true) :
    guest.delete source =
      some { guest with epoll := Function.update guest.epoll source false } :=
  if_pos registered

private theorem close_of_open (streams : guest.Streams) {which : Output}
    (opened : guest.isOpen which = true) :
    guest.close which = some { guest with
      epoll := Function.update guest.epoll (.output which) false
      isOpen := Function.update guest.isOpen which false } := by
  have registered := (streams.registered which).trans opened
  rw [close, delete_of_registered registered]
  rfl

/-- Between the blocks: the condition of `waiting` may fail only in that all streams
were closed. -/
structure Between (guest : Guest) : Prop where
  awaiting : guest.Awaiting
  status : guest.statusClosed = true → guest.statusWritten ≠ none
  closed : ∀ which, hasOutput guest.tty which = true → guest.isOpen which = false →
    guest.Finished which

private theorem Between.endIteration (between : guest.Between) : guest.endIteration.Healthy := by
  have phase (waiting : guest.exitCode ≠ none → ∃ which, guest.isOpen which = true) :
      { guest with phase := .waiting }.Healthy :=
    ⟨⟨between.awaiting, waiting⟩, between.status, between.closed⟩
  unfold Guest.endIteration
  split
  case h_1 unread => exact phase fun read => absurd unread read
  case h_2 code exit =>
    split_ifs with closed
    · exact ⟨trivial, between.status, between.closed⟩
    · refine phase fun _ => ?_
      simp only [Bool.and_eq_true, Bool.not_eq_true', not_and, Bool.not_eq_false] at closed
      cases first : guest.isOpen .stdout with
      | true => exact ⟨.stdout, first⟩
      | false => exact ⟨.stderr, closed first⟩

/-- What the blocks do to an event: they send what was read, close a stream that has
ended, or take the exit code. -/
inductive Handled (codes : GuestOpcodes) (guest : Guest) : Guest → Prop
  | sent {which : Output} {flags : Flags} {bytes : List Byte} (awaiting : guest.Awaiting)
      (here : guest.phase = .got (.output which) flags (.data bytes)) (nonempty : bytes ≠ []) :
      Handled codes guest { guest with log := guest.log ++
        [.packet ⟨packCommand (codes.write which) bytes.length, bytes⟩] }
  | closed {which : Output} (awaiting : guest.Awaiting) (opened : guest.isOpen which = true)
      (finished : guest.Finished which) :
      Handled codes guest { guest with
        epoll := Function.update guest.epoll (.output which) false
        isOpen := Function.update guest.isOpen which false }
  | exited (code : Byte) (registered : guest.epoll .stopPipe = true)
      (unread : guest.statusUnread = none) :
      Handled codes guest { guest with
        exitCode := some code
        epoll := Function.update guest.epoll .stopPipe false }

private theorem Handled.between (healthy : guest.Healthy) {middle : Guest}
    (handled : Handled codes guest middle) : middle.Between := by
  cases handled with
  | sent awaiting => exact ⟨awaiting, healthy.status, healthy.closed⟩
  | @closed which awaiting opened finished =>
      refine ⟨⟨?_, awaiting.2⟩, healthy.status, fun other has shut => ?_⟩
      · have different : EventSource.stopPipe ≠ .output which := nofun
        exact (Function.update_of_ne different false guest.epoll).trans awaiting.1
      · by_cases same : other = which
        · subst same
          exact finished
        · exact healthy.closed other has ((Function.update_of_ne same ..).symm.trans shut)
  | exited _ registered unread =>
      have removed : Function.update guest.epoll .stopPipe false .stopPipe = false :=
        Function.update_self ..
      exact ⟨⟨removed, nofun, fun _ => unread⟩, healthy.status, healthy.closed⟩

/-- After a read the second block changes nothing. -/
theorem hangUpBlock_of_input {source : EventSource} {flags : Flags} (input : flags.epollin = true)
    (read : source = .stopPipe → guest.exitCode ≠ none) :
    guest.hangUpBlock source flags = some guest := by
  cases source with
  | output which => exact if_neg fun last => absurd (last.2.symm.trans input) nofun
  | stopPipe =>
      exact if_neg fun unread => read rfl (Option.isNone_iff_eq_none.mp unread)

/-- The body of an event that was read is its first block. -/
theorem handle_of_readBlock {source : EventSource} {flags : Flags} {result : ReadResult}
    {after : Guest} (input : flags.epollin = true)
    (block : guest.readBlock codes source result true = some after)
    (read : source = .stopPipe → after.exitCode ≠ none) :
    guest.handle codes source flags (some result) true = after.endIteration := by
  have blocks : guest.blocks codes source flags (some result) true = some after := by
    unfold Guest.blocks
    simp only [block, Option.bind_some]
    split_ifs
    · exact hangUpBlock_of_input input read
    · rfl
  unfold Guest.handle
  rw [blocks]

private theorem Healthy.handleOutput (healthy : guest.Healthy) (streams : guest.Streams)
    {which : Output}
    {flags : Flags} {result : ReadResult} (input : flags.epollin = true)
    (here : guest.phase = .got (.output which) flags result) :
    ∃ middle, Handled codes guest middle ∧
      guest.handle codes (.output which) flags (some result) true = middle.endIteration := by
  have phase := healthy.phase
  rw [here] at phase
  obtain ⟨awaiting, opened, ⟨bytes, nonempty, rfl⟩ | ⟨ended, finished⟩⟩ := phase
  · exact ⟨_, .sent awaiting here nonempty,
      handle_of_readBlock input (if_neg (mt List.length_eq_zero_iff.mp nonempty)) nofun⟩
  · refine ⟨_, .closed awaiting opened finished, handle_of_readBlock input ?_ nofun⟩
    simp only [Guest.readBlock, ended, Option.bind_some]
    exact (if_pos rfl).trans (close_of_open streams opened)

private theorem Healthy.handleStatus (healthy : guest.Healthy) {flags : Flags} {result : ReadResult}
    (input : flags.epollin = true) (here : guest.phase = .got .stopPipe flags result) :
    ∃ middle, Handled codes guest middle ∧
      guest.handle codes .stopPipe flags (some result) true = middle.endIteration := by
  have phase := healthy.phase
  rw [here] at phase
  obtain ⟨registered, unread, _, code, rfl⟩ := phase
  refine ⟨_, .exited code registered unread,
    handle_of_readBlock input ?_ fun _ => nofun⟩
  have still : ({ guest with exitCode := some code } : Guest).epoll .stopPipe = true := registered
  exact delete_of_registered still

private theorem Healthy.handleHungUp (healthy : guest.Healthy) (sound : guest.Sound codes)
    {source : EventSource} {flags : Flags} (noInput : flags.epollin = false)
    (here : guest.phase = .polled source flags) :
    ∃ middle, Handled codes guest middle ∧
      guest.handle codes source flags none true = middle.endIteration := by
  have phase := healthy.phase
  rw [here] at phase
  cases source with
  | stopPipe => exact absurd (noInput.symm.trans phase.2.2.1) nofun
  | output which =>
      obtain ⟨awaiting, _, ended⟩ := phase
      obtain ⟨hup, finished⟩ := ended noInput
      have opened := sound.polled_open here
      refine ⟨_, .closed awaiting opened finished, ?_⟩
      have blocks : guest.blocks codes (.output which) flags none true = guest.close which := by
        simp only [Guest.blocks, Option.bind_some, hup, ↓reduceIte, Guest.hangUpBlock]
        exact if_pos ⟨opened, noInput⟩
      unfold Guest.handle
      rw [blocks, close_of_open sound.streams opened]

private theorem Sound.got_input (sound : guest.Sound codes) {source : EventSource} {flags : Flags}
    {result : ReadResult} (here : guest.phase = .got source flags result) :
    flags.epollin = true := by
  have phase := sound.phase
  rw [PhaseSound, here] at phase
  exact phase.1

/-- The loop's step on an event it has read or need not read. -/
theorem Healthy.handle (healthy : guest.Healthy) (sound : guest.Sound codes) {after : Guest}
    (stepped : guest.step codes (.handle true) = some after) :
    ∃ middle, Handled codes guest middle ∧ after = middle.endIteration := by
  cases effect_of_step stepped with
  | handleHungUp here noInput => exact healthy.handleHungUp sound noInput here
  | @handle source _ _ _ here =>
      cases source with
      | output which => exact healthy.handleOutput sound.streams (sound.got_input here) here
      | stopPipe => exact healthy.handleStatus (sound.got_input here) here

theorem Healthy.step (healthy : guest.Healthy) (sound : guest.Sound codes) {action : GuestAction}
    {after : Guest} (permitted : guest.permitted action = true)
    (stepped : guest.step codes action = some after) : after.Healthy := by
  cases effect_of_step stepped with
  | write | hangUp | reopen | writeStatus | closeStatus | fail | unsent => cases permitted
  | poll waiting reportable => exact healthy.poll waiting reportable permitted
  | pollHungUp waiting reportable =>
      exact (healthy.poll waiting reportable permitted).observeEnd _
  | @read _ _ outcome _ _ here _ read =>
      refine healthy.read sound here ?_ read
      rintro rfl
      cases permitted
  | @handleHungUp _ _ sent | @handle _ _ _ sent =>
      cases sent with
      | true =>
          obtain ⟨middle, handled, same⟩ := healthy.handle sound stepped
          exact same ▸ (handled.between healthy).endIteration
      | false => cases permitted
  | report | exit => exact ⟨trivial, healthy.status, healthy.closed⟩

/-! ## What a step costs -/

def registrations (guest : Guest) : Nat :=
  [.output .stdout, .output .stderr, .stopPipe].countP guest.epoll

def buffered (guest : Guest) : Nat :=
  (guest.source .stdout).buffer.length + (guest.source .stderr).buffer.length

/-- The steps up to the next packet, and twice the bytes of the packet at hand. -/
def phaseWork : Phase → Nat
  | .waiting => 10
  | .polled _ _ => 9
  | .got (.output _) _ (.data bytes) => if bytes = [] then 8 else 2 * bytes.length + 15
  | .got _ _ _ => 8
  | .reporting _ => 9
  | .exiting _ => 8
  | .returned _ => 0

/-- What the loop has to do, where a byte it sends counts as two. -/
def work (guest : Guest) : Nat :=
  phaseWork guest.phase + 20 * (guest.registrations + guest.buffered)

/-- What the loop leaves of the streams: their ends, and at most their bytes. -/
structure Consumes (before after : Guest) : Prop where
  hungUp : ∀ which, (after.source which).hungUp = (before.source which).hungUp
  buffer : ∀ which, (after.source which).buffer.length ≤ (before.source which).buffer.length

private theorem Consumes.of_source {before after : Guest} (same : after.source = before.source) :
    Consumes before after :=
  ⟨fun which => by rw [same], fun which => Nat.le_of_eq (by rw [same])⟩

private theorem consumes_onSource (which : Output) {change : Source → Source}
    (hungUp : (change (guest.source which)).hungUp = (guest.source which).hungUp)
    (buffer : (change (guest.source which)).buffer.length ≤
      (guest.source which).buffer.length) :
    Consumes guest (guest.onSource which change) where
  hungUp := forall_onSource (fun other source => source.hungUp = (guest.source other).hungUp)
    hungUp fun _ _ => rfl
  buffer := forall_onSource (fun other source => source.buffer.length ≤
    (guest.source other).buffer.length) buffer fun _ _ => Nat.le_refl _

/-- A change of one stream's buffer changes the sum as much. -/
theorem buffered_onSource (guest : Guest) (which : Output) (change : Source → Source) :
    (guest.onSource which change).buffered + (guest.source which).buffer.length =
      guest.buffered + (change (guest.source which)).buffer.length := by
  cases which with
  | stdout =>
      have other : (guest.onSource .stdout change).source .stderr = guest.source .stderr :=
        source_onSource_of_ne (by decide) change
      rw [buffered, buffered, source_onSource_self, other]
      omega
  | stderr =>
      have other : (guest.onSource .stderr change).source .stdout = guest.source .stdout :=
        source_onSource_of_ne (by decide) change
      rw [buffered, buffered, source_onSource_self, other]
      omega

/-- Removing a registration leaves one less. -/
theorem registrations_update {source : EventSource} (registered : guest.epoll source = true)
    {after : Guest} (removed : after.epoll = Function.update guest.epoll source false) :
    after.registrations + 1 = guest.registrations := by
  rw [registrations, registrations, removed]
  rcases source with ⟨_ | _⟩ | _
  all_goals
    simp only [List.countP_cons, List.countP_nil, Function.update, eq_rec_constant, dite_eq_ite,
      reduceCtorEq, ↓reduceIte, registered, EventSource.output.injEq, Bool.false_eq_true]
  all_goals omega

private theorem phaseWork_endIteration (guest : Guest) :
    phaseWork guest.endIteration.phase ≤ 10 := by
  rcases endIteration_cases guest with same | ⟨_, _, same⟩
  · rw [same]
    exact Nat.le_refl 10
  · rw [same]
    exact Nat.le_succ 9

private theorem endIteration_eq (guest : Guest) :
    ∃ phase, guest.endIteration = { guest with phase := phase } := by
  rcases endIteration_cases guest with same | ⟨_, _, same⟩
  · exact ⟨_, same⟩
  · exact ⟨_, same⟩

/-- The bytes a step has to send. -/
def appended (before after : Guest) : List Byte := logBytes (after.log.drop before.log.length)

theorem appended_of_log {before after : Guest} (effects : List Effect)
    (log : after.log = before.log ++ effects) : appended before after = logBytes effects := by
  rw [appended, log, List.drop_left]

private theorem appended_of_same {before after : Guest} (log : after.log = before.log) :
    appended before after = [] :=
  appended_of_log [] (log.trans (List.append_nil _).symm)

/-- A step lowers the work, also by what it adds to the bytes to be sent. -/
structure Costs (before after : Guest) : Prop extends Consumes before after where
  work : after.work + 2 * (appended before after).length < before.work

private theorem phaseWork_got (source : EventSource) (flags : Flags) (result : ReadResult) :
    8 ≤ phaseWork (.got source flags result) := by
  cases source with
  | stopPipe => exact Nat.le_refl 8
  | output which =>
      cases result with
      | data bytes =>
          change 8 ≤ if bytes = [] then 8 else 2 * bytes.length + 15
          split_ifs <;> omega
      | eio | failed => exact Nat.le_refl 8

private theorem buffered_of_source {after : Guest} (same : after.source = guest.source) :
    after.buffered = guest.buffered := by
  rw [buffered, buffered, same]

/-- Removing a registration pays for every phase. -/
theorem costs_of_removed {after : Guest} {source : EventSource}
    (registered : guest.epoll source = true)
    (removed : after.epoll = Function.update guest.epoll source false)
    (same : after.source = guest.source) (log : after.log = guest.log)
    (small : phaseWork after.phase ≤ 10) (least : 8 ≤ phaseWork guest.phase) :
    Costs guest after := by
  refine ⟨.of_source same, ?_⟩
  have fewer := registrations_update registered removed
  have kept := buffered_of_source same
  rw [appended_of_same log, List.length_nil, work, work]
  omega

/-- A step that sends bytes and moves the loop to a phase with so much less work. -/
theorem costs_of_sent {after : Guest} (effects : List Effect) (epoll : after.epoll = guest.epoll)
    (same : after.source = guest.source) (log : after.log = guest.log ++ effects)
    (lower : phaseWork after.phase + 2 * (logBytes effects).length < phaseWork guest.phase) :
    Costs guest after := by
  refine ⟨.of_source same, ?_⟩
  have registered : after.registrations = guest.registrations := by
    rw [registrations, registrations, epoll]
  have kept := buffered_of_source same
  rw [appended_of_log effects log, work, work]
  omega

private theorem dataPacket_length (codes : GuestOpcodes) (which : Output) (bytes : List Byte) :
    (logBytes [dataPacket codes which bytes]).length = bytes.length + 2 := by
  rw [logBytes, List.flatMap_singleton, dataPacket, packetBytes, Packet.bytes, List.length_append,
    toLeBytes_length, Nat.add_comm]

private theorem Handled.costs {middle : Guest} (handled : Handled codes guest middle)
    (streams : guest.Streams) (least : 8 ≤ phaseWork guest.phase) :
    Costs guest middle.endIteration := by
  obtain ⟨phase, same⟩ := endIteration_eq middle
  have small := phaseWork_endIteration middle
  rw [same] at small ⊢
  cases handled with
  | @sent which flags bytes awaiting here nonempty =>
      refine costs_of_sent [dataPacket codes which bytes] rfl rfl rfl ?_
      have weight : phaseWork guest.phase = 2 * bytes.length + 15 := by
        rw [here]
        exact if_neg nonempty
      rw [dataPacket_length, weight]
      omega
  | closed awaiting opened =>
      exact costs_of_removed ((streams.registered _).trans opened) rfl rfl rfl small least
  | exited _ registered => exact costs_of_removed registered rfl rfl rfl small least

/-- A step that sends nothing. -/
theorem costs_of_quiet {after : Guest} (epoll : after.epoll = guest.epoll)
    (log : after.log = guest.log) (consumes : Consumes guest after)
    (lower : phaseWork after.phase + 20 * after.buffered <
      phaseWork guest.phase + 20 * guest.buffered) : Costs guest after := by
  refine ⟨consumes, ?_⟩
  have registered : after.registrations = guest.registrations := by
    rw [registrations, registrations, epoll]
  rw [appended_of_same log, List.length_nil, work, work]
  omega

private theorem consumes_observeEnd (guest : Guest) (which : Output) :
    Consumes guest (guest.onSource which .observeEnd) :=
  consumes_onSource which rfl (Nat.le_refl _)

private theorem buffered_observeEnd (guest : Guest) (which : Output) :
    (guest.onSource which .observeEnd).buffered = guest.buffered := by
  have kept := buffered_onSource guest which .observeEnd
  change _ + _ = _ + (guest.source which).buffer.length at kept
  omega

/-- A read takes bytes or meets the end of its stream. -/
theorem costs_of_read {source : EventSource} {flags : Flags} {outcome : ReadOutcome}
    {middle : Guest} {result : ReadResult} (here : guest.phase = .polled source flags)
    (read : guest.read source outcome = some (middle, result)) :
    Costs guest { middle with phase := .got source flags result } := by
  have before : phaseWork guest.phase = 9 := by
    rw [here]
    rfl
  cases source with
  | stopPipe =>
      rcases readStatus_cases read with ⟨_, _, rfl, _⟩ | ⟨rfl, _⟩
      · refine costs_of_quiet rfl rfl (.of_source rfl) ?_
        exact Nat.add_lt_add_right (before ▸ Nat.lt_succ_self 8) _
      · refine costs_of_quiet rfl rfl (.of_source rfl) ?_
        exact Nat.add_lt_add_right (before ▸ Nat.lt_succ_self 8) _
  | output which =>
      rcases readOutput_cases read with
        ⟨count, _, available, positive, rfl, rfl⟩ | ⟨empty, rfl, ending⟩ | ⟨rfl, rfl⟩
      · have consumes : Consumes guest (guest.onSource which fun source => source.take count) :=
          consumes_onSource which rfl (List.length_drop .. ▸ Nat.sub_le _ _)
        refine costs_of_quiet rfl rfl ⟨consumes.hungUp, consumes.buffer⟩ ?_
        have taken : ((guest.source which).buffer.take count).length = count := by
          rw [List.length_take]
          omega
        have nonempty : (guest.source which).buffer.take count ≠ [] := by
          intro none
          rw [none, List.length_nil] at taken
          omega
        have moved := buffered_onSource guest which fun source => source.take count
        have left : ((guest.source which).take count).buffer.length =
          (guest.source which).buffer.length - count := List.length_drop ..
        have after : phaseWork (.got (.output which) flags
            (.data ((guest.source which).buffer.take count))) = 2 * count + 15 := by
          refine (if_neg nonempty).trans ?_
          rw [taken]
        change phaseWork (.got (.output which) flags (.data _)) +
          20 * (guest.onSource which fun source => source.take count).buffered < _
        rw [after, before]
        omega
      · have consumes := consumes_observeEnd guest which
        refine costs_of_quiet rfl rfl ⟨consumes.hungUp, consumes.buffer⟩ ?_
        have weight : phaseWork (.got (.output which) flags result) = 8 := by
          rcases ending with rfl | rfl <;> rfl
        change phaseWork (.got (.output which) flags result) +
          20 * (guest.onSource which .observeEnd).buffered < _
        rw [weight, before, buffered_observeEnd]
        omega
      · refine costs_of_quiet rfl rfl (.of_source rfl) ?_
        exact Nat.add_lt_add_right (before ▸ Nat.lt_succ_self 8) _

theorem Healthy.costs (healthy : guest.Healthy) (sound : guest.Sound codes)
    {action : GuestAction} {after : Guest} (permitted : guest.permitted action = true)
    (stepped : guest.step codes action = some after) : Costs guest after := by
  have least {phase : Phase} {bound : Nat} (here : guest.phase = phase)
      (enough : bound ≤ phaseWork phase) : bound ≤ phaseWork guest.phase := here ▸ enough
  cases effect_of_step stepped with
  | write | hangUp | reopen | writeStatus | closeStatus | fail | unsent => cases permitted
  | poll waiting =>
      refine costs_of_sent [] rfl rfl (List.append_nil _).symm ?_
      exact least waiting (Nat.le_refl 10)
  | @pollHungUp which _ waiting =>
      have consumes := consumes_observeEnd guest which
      refine costs_of_quiet rfl rfl ⟨consumes.hungUp, consumes.buffer⟩ ?_
      have more := least waiting (Nat.le_refl 10)
      change 9 + 20 * (guest.onSource which .observeEnd).buffered < _
      rw [buffered_observeEnd]
      omega
  | read here _ read => exact costs_of_read here read
  | @handleHungUp _ _ sent here =>
      cases sent with
      | true =>
          obtain ⟨middle, handled, same⟩ := healthy.handle sound stepped
          exact same ▸ handled.costs sound.streams (least here (Nat.le_succ 8))
      | false => cases permitted
  | @handle _ _ _ sent here =>
      cases sent with
      | true =>
          obtain ⟨middle, handled, same⟩ := healthy.handle sound stepped
          exact same ▸ handled.costs sound.streams (least here (phaseWork_got ..))
      | false => cases permitted
  | report here =>
      exact costs_of_sent [.finished] rfl rfl rfl (least here (Nat.le_refl 9))
  | exit here =>
      refine costs_of_sent _ rfl rfl rfl (least here ?_)
      change 5 ≤ 8
      omega

/-! ## When the loop waits -/

/-- Nothing is left to read, and no stream has ended that the loop does not know of. -/
def Idle (guest : Guest) : Prop :=
  guest.phase = .returned true ∨ (guest.phase = .waiting ∧ guest.statusUnread = none ∧
    ∀ which, guest.isOpen which = true →
      (guest.source which).buffer = [] ∧ (guest.source which).hungUp = false)

private theorem step_poll (waiting : guest.phase = .waiting) {source : EventSource} {flags : Flags}
    (reportable : guest.reportable source flags = true) :
    (guest.step codes (.poll source flags)).isSome := by
  simp only [Guest.step]
  rw [if_pos ⟨waiting, reportable⟩]
  cases source with
  | output which => split_ifs <;> rfl
  | stopPipe => rfl

/-- A stream that can be read is polled and found readable. -/
theorem exists_poll (streams : guest.Streams) (waiting : guest.phase = .waiting) {which : Output}
    (opened : guest.isOpen which = true)
    (readable : (guest.source which).buffer ≠ [] ∨ (guest.source which).hungUp = true) :
    ∃ action, guest.permitted action = true ∧ (guest.step codes action).isSome := by
  have registered := (streams.registered which).trans opened
  refine ⟨.poll (.output which) ⟨true, false⟩, ?_, step_poll waiting ?_⟩
  · simp only [permitted, accurate, Bool.and_eq_true, Bool.or_eq_true, Bool.not_eq_true',
      List.isEmpty_eq_false_iff]
    exact ⟨readable.elim (fun some => .inl (.inr some)) .inr, .inl trivial⟩
  · simp only [Guest.reportable, registered, Bool.true_or, Bool.and_self, Bool.or_true]

/-- What was polled can be read, or is closed unread. -/
theorem Healthy.polled_enabled (healthy : guest.Healthy) {source : EventSource} {flags : Flags}
    (here : guest.phase = .polled source flags) :
    ∃ action, guest.permitted action = true ∧ (guest.step codes action).isSome := by
  have phase := healthy.phase
  rw [here] at phase
  cases input : flags.epollin with
  | false =>
      refine ⟨.handle true, rfl, ?_⟩
      simp only [Guest.step, here, input, Bool.false_eq_true, ↓reduceIte, Option.isSome_some]
  | true =>
      have reads (outcome : ReadOutcome) (read : (guest.read source outcome).isSome) :
          (guest.step codes (.read outcome)).isSome := by
        simp only [Guest.step, here, input, ↓reduceIte, Option.isSome_map]
        exact read
      cases source with
      | output which =>
          by_cases empty : (guest.source which).buffer = []
          · have ended := (phase.2.1 input).resolve_left (not_not.mpr empty)
            refine ⟨.read .endOfFile, rfl, reads _ ?_⟩
            simp only [Guest.read, readOutput, empty, ended, and_self, ↓reduceIte,
              Option.isSome_some]
          · refine ⟨.read (.bytes 1), rfl, reads _ ?_⟩
            simp only [Guest.read, readOutput]
            rw [if_pos ⟨Nat.one_pos, Nat.le_of_ble_eq_true rfl, List.length_pos_iff.mpr empty⟩]
            rfl
      | stopPipe =>
          refine ⟨.read (.bytes 1), rfl, reads _ ?_⟩
          simp only [Guest.read, readStatus, Option.isSome_map]
          exact Option.isSome_iff_ne_none.mpr phase.2.2.2

/-- The loop can go on wherever it is not idle. -/
theorem Healthy.enabled_or_idle (healthy : guest.Healthy) (sound : guest.Sound codes) :
    (∃ action, guest.permitted action = true ∧ (guest.step codes action).isSome) ∨
      guest.Idle := by
  have phase := healthy.phase
  cases point : guest.phase with
  | waiting =>
      rw [point] at phase
      by_cases readable : ∃ which, guest.isOpen which = true ∧
          ((guest.source which).buffer ≠ [] ∨ (guest.source which).hungUp = true)
      · obtain ⟨which, opened, readable⟩ := readable
        exact .inl (exists_poll sound.streams point opened readable)
      · cases unread : guest.statusUnread with
        | none =>
            refine .inr (.inr ⟨point, unread, fun which opened => ?_⟩)
            have silent := not_or.mp fun some => readable ⟨which, opened, some⟩
            exact ⟨not_not.mp silent.1, eq_false_of_ne_true silent.2⟩
        | some code =>
            have exit : guest.exitCode = none := by
              by_contra read
              exact absurd ((phase.1.2.2 read).symm.trans unread) nofun
            have registered : guest.epoll .stopPipe = true := by
              rw [phase.1.1, exit]
              rfl
            refine .inl ⟨.poll .stopPipe ⟨true, false⟩, ?_, step_poll point ?_⟩
            · simp only [permitted, accurate, unread, Option.isSome_some, Bool.not_true,
                Bool.or_true, Bool.not_false, Bool.true_or, Bool.and_self]
            · simp only [Guest.reportable, registered, Bool.true_or, Bool.and_self, Bool.or_true]
  | polled source flags => exact .inl (healthy.polled_enabled point)
  | got source flags result =>
      refine .inl ⟨.handle true, rfl, ?_⟩
      simp only [Guest.step, point, Option.isSome_some]
  | reporting code =>
      refine .inl ⟨.report, rfl, ?_⟩
      simp only [Guest.step, point, Option.isSome_some]
  | exiting code =>
      refine .inl ⟨.exit true, rfl, ?_⟩
      simp only [Guest.step, point, ↓reduceIte, Option.isSome_some]
  | returned normally =>
      rw [point] at phase
      cases normally with
      | true => exact .inr (.inl point)
      | false => exact phase.elim

end Guest

end X86OnArm.Muvm
