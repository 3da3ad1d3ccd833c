import X86OnArm.Foundation.Progress
import X86OnArm.Muvm.DuplexOutput
import X86OnArm.Muvm.StdinEnd

/-! # No deadlock between input and output

The host reads its stdin, and writes it, on a thread of its own, and so does the guest
with the child's. So a full buffer on the way to the child never keeps the output of a
request without a terminal from leaving: where no party can go on, all output was
delivered, and every process that reads has got all input there is
(`duplexRelay_settles`).
-/

namespace X86OnArm.Muvm

open Foundation

namespace InputState

variable {codes : HostOpcodes} {state after : InputState codes}

/-- The mutex is held by the thread that writes. -/
structure Locks (state : InputState codes) : Prop where
  stdin : state.stream.holder = some .forwardStdin ↔ ∃ last, state.stdinThread = .writing last
  size : state.stream.holder = some .updateSize ↔ state.sizeThread = .writing

theorem start_locks (codes : HostOpcodes) : (start codes).Locks where
  stdin := ⟨nofun, nofun⟩
  size := ⟨nofun, nofun⟩

/-- What leaves the holder and the threads' writing alone keeps the locks. -/
theorem Locks.kept (locks : state.Locks) (holder : after.stream.holder = state.stream.holder)
    (stdin : ∀ last, after.stdinThread = .writing last ↔ state.stdinThread = .writing last)
    (size : after.sizeThread = .writing ↔ state.sizeThread = .writing) : after.Locks where
  stdin := by
    rw [holder, locks.stdin]
    exact exists_congr fun last => (stdin last).symm
  size := by rw [holder, locks.size, size]

theorem Locks.step (locks : state.Locks) {action : InputAction}
    (stepped : state.step action = some after) : after.Locks := by
  have free : state.stream.holder = none →
      (∀ last, state.stdinThread ≠ .writing last) ∧ state.sizeThread ≠ .writing := fun none =>
    ⟨fun last writing => absurd (none.symm.trans (locks.stdin.mpr ⟨last, writing⟩)) nofun,
      fun writing => absurd (none.symm.trans (locks.size.mpr writing)) nofun⟩
  cases inputStep stepped with
  | readStdin reading =>
      exact locks.kept rfl (fun _ => ⟨nofun, fun writing =>
        absurd (reading.symm.trans writing) nofun⟩) Iff.rfl
  | resize waiting =>
      exact locks.kept rfl (fun _ => Iff.rfl) ⟨nofun, fun writing =>
        absurd (waiting.symm.trans writing) nofun⟩
  | lockStdin locking acquired =>
      obtain ⟨none, _, holder, _⟩ := LockedStream.acquire_eq_some acquired
      refine ⟨⟨fun _ => ⟨_, rfl⟩, fun _ => holder⟩, ⟨fun held => ?_, fun writing => ?_⟩⟩
      · exact absurd (holder.symm.trans held) nofun
      · exact absurd writing (free none).2
  | lockSize locking acquired =>
      obtain ⟨none, _, holder, _⟩ := LockedStream.acquire_eq_some acquired
      refine ⟨⟨fun held => ?_, fun ⟨last, writing⟩ => ?_⟩, ⟨fun _ => rfl, fun _ => holder⟩⟩
      · exact absurd (holder.symm.trans held) nofun
      · exact absurd writing ((free none).1 last)
  | write _ written =>
      exact locks.kept (LockedStream.write_eq_some written).2.1 (fun _ => Iff.rfl) Iff.rfl
  | @unlockStdin last stream writing holds released =>
      have holder := (LockedStream.release_eq_some released).2.1
      have size : state.sizeThread ≠ .writing := fun writing =>
        absurd (holds.symm.trans (locks.size.mpr writing)) nofun
      refine ⟨⟨fun held => absurd (holder.symm.trans held) nofun, ?_⟩,
        ⟨fun held => absurd (holder.symm.trans held) nofun, fun writing => absurd writing size⟩⟩
      rintro ⟨_, again⟩
      cases last <;> cases again
  | unlockSize writing holds released =>
      have holder := (LockedStream.release_eq_some released).2.1
      have stdin : ∀ last, state.stdinThread ≠ .writing last := fun last writing =>
        absurd (holds.symm.trans (locks.stdin.mpr ⟨last, writing⟩)) nofun
      exact ⟨⟨fun held => absurd (holder.symm.trans held) nofun,
          fun ⟨last, writing⟩ => absurd writing (stdin last)⟩,
        ⟨fun held => absurd (holder.symm.trans held) nofun, nofun⟩⟩
  | disconnect | receive | deliver | brokenPipe | endOfStream | closeStdin =>
      exact locks.kept rfl (fun _ => Iff.rfl) Iff.rfl

/-- What the transport holds grows only by what a writer writes. -/
theorem inFlight_step {action : InputAction} (stepped : state.step action = some after) :
    after.stream.inFlight.length ≤ state.stream.inFlight.length ∨
      ∃ count, action = .write count ∧
        after.stream.inFlight.length = state.stream.inFlight.length + count := by
  cases inputStep stepped with
  | @write count stream _ written =>
      refine .inr ⟨count, rfl, ?_⟩
      unfold LockedStream.write at written
      split_ifs at written with piece
      cases written
      rw [List.length_append, List.length_take]
      omega
  | lockStdin _ acquired | lockSize _ acquired =>
      unfold LockedStream.acquire at acquired
      split at acquired
      · cases acquired
      · cases acquired
        exact .inl (Nat.le_refl _)
  | unlockStdin _ _ released | unlockSize _ _ released =>
      unfold LockedStream.release at released
      split_ifs at released
      cases released
      exact .inl (Nat.le_refl _)
  | receive => exact .inl (List.length_drop .. ▸ Nat.sub_le _ _)
  | readStdin | resize | disconnect | deliver | brokenPipe | endOfStream | closeStdin =>
      exact .inl (Nat.le_refl _)

theorem connected_step {action : InputAction} (stepped : state.step action = some after)
    (attached : action ≠ .disconnect) : after.connected = state.connected := by
  cases inputStep stepped with
  | disconnect => exact absurd rfl attached
  | readStdin | lockStdin | resize | lockSize | write | unlockStdin | unlockSize | receive
  | deliver | brokenPipe | endOfStream | closeStdin => rfl

theorem childReads_step {action : InputAction} (stepped : state.step action = some after)
    (kept : action ≠ .closeStdin) : after.childReads = state.childReads := by
  cases inputStep stepped with
  | closeStdin => exact absurd rfl kept
  | readStdin | lockStdin | resize | lockSize | write | unlockStdin | unlockSize | disconnect
  | receive | deliver | brokenPipe | endOfStream => rfl

theorem received_deliver {count : Nat} (stepped : state.step (.deliver count) = some after) :
    (after.decoder.received.drop state.decoder.received.length).length = count := by
  cases inputStep stepped with
  | deliver _ delivered =>
      unfold Decoder.deliver at delivered
      split at delivered
      case h_1 rest _ =>
        simp only [Option.ite_none_right_eq_some, Option.some.injEq] at delivered
        obtain ⟨piece, rfl⟩ := delivered
        rw [List.drop_left, List.length_take]
        omega
      case h_2 => cases delivered

end InputState

namespace Relay

variable {limits : Capacities} {hostCodes : HostOpcodes} {codes : GuestOpcodes}
  {relay after : Relay hostCodes}

/-! ## What the steps keep -/

/-- The buffers are within their bounds. -/
structure Bounded (limits : Capacities) (relay : Relay hostCodes) : Prop where
  toGuest : relay.input.stream.inFlight.length ≤ limits.toGuest
  childStdin : relay.childStdin.length ≤ limits.childStdin
  toHost : relay.toHost.length ≤ limits.toHost
  output : ∀ which, (relay.output.source which).buffer.length ≤ limits.output which

/-- A blocked process has something to write, on a stream it has, and one that reads
has its stdin. -/
structure Processes (relay : Relay hostCodes) : Prop where
  writers : ∀ which rest, .writing which rest ∈ relay.processes →
    rest ≠ [] ∧ hasOutput relay.output.tty which = true ∧
      (relay.output.source which).hungUp = false
  readers : .reading ∈ relay.processes → relay.input.childReads = true

structure Sound (limits : Capacities) (codes : GuestOpcodes) (relay : Relay hostCodes) : Prop where
  input : relay.input.Sound
  locks : relay.input.Locks
  attached : relay.input.Attached
  connected : relay.input.connected = true
  output : relay.output.Sound codes
  healthy : relay.output.Healthy
  bounded : relay.Bounded limits
  processes : relay.Processes
  carried : relay.printed ++ (relay.toHost ++ relay.unsent) = logBytes relay.output.log

theorem start_sound (limits : Capacities) (codes : GuestOpcodes) :
    (start hostCodes).Sound limits codes where
  input := InputState.start_sound hostCodes
  locks := InputState.start_locks hostCodes
  attached _ := nofun
  connected := rfl
  output := Guest.start_sound codes false
  healthy := Guest.start_healthy false
  bounded := ⟨Nat.zero_le _, Nat.zero_le _, Nat.zero_le _, fun _ => Nat.zero_le _⟩
  processes := by
    refine ⟨fun which rest member => ?_, fun member => ?_⟩
    · cases List.mem_singleton.mp member
    · cases List.mem_singleton.mp member
  carried := rfl

/-- What a step of the input side may do. -/
structure InputMoves (limits : Capacities) (relay : Relay hostCodes) (action : InputAction)
    (after : Relay hostCodes) : Prop where
  stepped : relay.input.step action = some after.input
  output : after.output = relay.output
  processes : after.processes = relay.processes
  transport : after.toHost = relay.toHost ∧ after.unsent = relay.unsent ∧
    after.printed = relay.printed
  attached : action ≠ .disconnect ∧ action ≠ .endOfStream
  write : ∀ count, action = .write count →
    relay.input.stream.inFlight.length + count ≤ limits.toGuest
  childStdin : relay.childStdin.length ≤ limits.childStdin →
    after.childStdin.length ≤ limits.childStdin
  closes : action = .closeStdin → .reading ∉ relay.processes

theorem inputMoves (relay : Relay hostCodes) {action : InputAction}
    (stepped : relay.inputStep limits action = some after) :
    relay.InputMoves limits action after := by
  have plain (input : InputState hostCodes) (moved : relay.input.step action = some input)
      (attached : action ≠ .disconnect ∧ action ≠ .endOfStream)
      (write : ∀ count, action = .write count →
        relay.input.stream.inFlight.length + count ≤ limits.toGuest)
      (closes : action = .closeStdin → .reading ∉ relay.processes) :
      relay.InputMoves limits action { relay with input } :=
    ⟨moved, rfl, rfl, ⟨rfl, rfl, rfl⟩, attached, write, id, closes⟩
  cases action with
  | write count =>
      simp only [inputStep, Option.ite_none_right_eq_some, Option.map_eq_some_iff] at stepped
      obtain ⟨room, input, moved, rfl⟩ := stepped
      refine plain input moved ⟨nofun, nofun⟩ ?_ nofun
      rintro _ ⟨⟩
      exact room
  | deliver count =>
      simp only [inputStep, Option.ite_none_right_eq_some, Option.map_eq_some_iff] at stepped
      obtain ⟨room, _, ⟨input, moved, rfl⟩, rfl⟩ := stepped
      refine ⟨moved, rfl, rfl, ⟨rfl, rfl, rfl⟩, ⟨nofun, nofun⟩, nofun, fun _ => ?_, nofun⟩
      rw [List.length_append, InputState.received_deliver moved]
      exact room
  | closeStdin =>
      simp only [inputStep, Option.ite_none_left_eq_some, Option.map_eq_some_iff] at stepped
      obtain ⟨quiet, input, moved, rfl⟩ := stepped
      refine plain input moved ⟨nofun, nofun⟩ nofun fun _ member => quiet ?_
      exact List.any_eq_true.mpr ⟨_, member, rfl⟩
  | resize _ | disconnect | endOfStream => cases stepped
  | readStdin _ | lockStdin | lockSize | unlock | receive _ | brokenPipe =>
      simp only [inputStep, Option.map_eq_some_iff] at stepped
      obtain ⟨input, moved, rfl⟩ := stepped
      exact plain input moved ⟨nofun, nofun⟩ nofun nofun

theorem Sound.inputStep (sound : relay.Sound limits codes) {action : InputAction}
    (stepped : relay.inputStep limits action = some after) : after.Sound limits codes := by
  have moves := inputMoves relay stepped
  have bounded := sound.bounded
  have moved : relay.input.stepStdin (.input action) = some after.input := moves.stepped
  have attached : after.input.Attached := sound.attached.step moved
  refine ⟨sound.input.step moves.stepped, sound.locks.step moves.stepped, attached,
    (InputState.connected_step moves.stepped moves.attached.1).trans sound.connected,
    moves.output ▸ sound.output, moves.output ▸ sound.healthy,
    ⟨?_, moves.childStdin bounded.childStdin, ?_, ?_⟩, ⟨?_, fun member => ?_⟩, ?_⟩
  · rcases InputState.inFlight_step moves.stepped with less | ⟨count, same, more⟩
    · exact Nat.le_trans less bounded.toGuest
    · exact more ▸ moves.write count same
  · rw [moves.transport.1]
    exact bounded.toHost
  · rw [moves.output]
    exact bounded.output
  · rw [moves.output, moves.processes]
    exact sound.processes.writers
  · rw [moves.processes] at member
    rw [InputState.childReads_step moves.stepped fun closes => moves.closes closes member]
    exact sound.processes.readers member
  · rw [moves.output, moves.transport.1, moves.transport.2.1, moves.transport.2.2]
    exact sound.carried

/-- The guest's loop moves, and adds to what is to be sent. -/
theorem Sound.outputStep (sound : relay.Sound limits codes) {action : GuestAction}
    (stepped : relay.outputStep codes action = some after) :
    after.Sound limits codes ∧ after.input = relay.input ∧ after.processes = relay.processes ∧
      after.toHost = relay.toHost ∧ relay.unsent = [] ∧
      after.unsent = Guest.appended relay.output after.output ∧
      Guest.Costs relay.output after.output := by
  simp only [Relay.outputStep, Option.ite_none_right_eq_some, Option.map_eq_some_iff] at stepped
  obtain ⟨⟨idle, permitted⟩, output, moved, rfl⟩ := stepped
  have costs := sound.healthy.costs sound.output permitted moved
  have outputs : action.isOutput = true := by
    cases action <;> first | rfl | cases permitted
  have kept := Guest.kept_step outputs moved
  refine ⟨⟨sound.input, sound.locks, sound.attached, sound.connected, sound.output.step moved,
    sound.healthy.step sound.output permitted moved,
    ⟨sound.bounded.toGuest, sound.bounded.childStdin, sound.bounded.toHost, fun which =>
      Nat.le_trans (costs.buffer which) (sound.bounded.output which)⟩,
    ⟨fun which rest member => ?_, sound.processes.readers⟩, ?_⟩, rfl, rfl, rfl, idle, rfl, costs⟩
  · obtain ⟨nonempty, has, opened⟩ := sound.processes.writers which rest member
    exact ⟨nonempty, kept.tty ▸ has, (costs.hungUp which).trans opened⟩
  · obtain ⟨effects, log⟩ := kept.log
    have carried := sound.carried
    rw [idle, List.append_nil] at carried
    change relay.printed ++ (relay.toHost ++ Guest.appended relay.output output) =
      logBytes output.log
    rw [Guest.appended_of_log _ log.symm, ← List.append_assoc, carried, ← log, logBytes, logBytes,
      logBytes, List.flatMap_append]

theorem Sound.withTransport (sound : relay.Sound limits codes) {unsent toHost printed : List Byte}
    (carried : printed ++ (toHost ++ unsent) = relay.printed ++ (relay.toHost ++ relay.unsent))
    (room : toHost.length ≤ limits.toHost) :
    { relay with unsent := unsent, toHost := toHost, printed := printed }.Sound limits codes :=
  ⟨sound.input, sound.locks, sound.attached, sound.connected, sound.output, sound.healthy,
    ⟨sound.bounded.toGuest, sound.bounded.childStdin, room, sound.bounded.output⟩,
    ⟨sound.processes.writers, sound.processes.readers⟩, carried.trans sound.carried⟩

/-- Another process of the guest moves a stream or the status channel. -/
theorem Sound.withOutput (sound : relay.Sound limits codes) {output : Guest}
    (outputSound : output.Sound codes) (healthy : output.Healthy)
    (log : output.log = relay.output.log)
    (buffers : ∀ which, (output.source which).buffer.length ≤ limits.output which)
    {processes : List ProcessPhase}
    (writers : ∀ which rest, .writing which rest ∈ processes →
      rest ≠ [] ∧ hasOutput output.tty which = true ∧ (output.source which).hungUp = false)
    (readers : .reading ∈ processes → relay.input.childReads = true) :
    { relay with output := output, processes := processes }.Sound limits codes :=
  ⟨sound.input, sound.locks, sound.attached, sound.connected, outputSound, healthy,
    ⟨sound.bounded.toGuest, sound.bounded.childStdin, sound.bounded.toHost, buffers⟩,
    ⟨writers, readers⟩, sound.carried.trans (congrArg logBytes log.symm)⟩

theorem Sound.hangUp (sound : relay.Sound limits codes) {which : Output}
    (quiet : relay.processes.any (ProcessPhase.isWriting which) = false) :
    { relay with output := relay.output.onSource which fun source =>
      source.setHungUp true }.Sound limits codes := by
  have hungUp : relay.output.step codes (.hangUp which) = some (relay.output.onSource which
      fun source => source.setHungUp true) := rfl
  refine sound.withOutput (sound.output.step hungUp)
    (sound.healthy.hangUp which) rfl ?_ (fun other rest member => ?_) sound.processes.readers
  · exact Guest.forall_onSource (fun other source => source.buffer.length ≤ limits.output other)
      (sound.bounded.output which) fun other _ => sound.bounded.output other
  · obtain ⟨nonempty, has, opened⟩ := sound.processes.writers other rest member
    have different : other ≠ which := by
      rintro rfl
      have writes : relay.processes.any (ProcessPhase.isWriting other) = true :=
        List.any_eq_true.mpr ⟨_, member, decide_eq_true rfl⟩
      exact absurd (quiet.symm.trans writes) nofun
    refine ⟨nonempty, has, ?_⟩
    rw [Guest.source_onSource_of_ne different]
    exact opened

theorem Sound.status (sound : relay.Sound limits codes) {code : Byte} {output : Guest}
    (stepped : ((relay.output.step codes (.writeStatus code)).bind fun output =>
      output.step codes .closeStatus) = some output) :
    { relay with output := output }.Sound limits codes := by
  obtain ⟨middle, written, closed⟩ := Option.bind_eq_some_iff.mp stepped
  have outputSound := (sound.output.step written).step closed
  cases Guest.effect_of_step written with
  | writeStatus unwritten =>
      cases closed
      exact sound.withOutput outputSound
        (sound.healthy.writeStatus unwritten sound.output.streams code) rfl sound.bounded.output
        sound.processes.writers sound.processes.readers

/-- What a process may do. -/
inductive ProcessMoves (limits : Capacities) (codes : GuestOpcodes) (relay : Relay hostCodes)
    (identity : Nat) : ProcessCall → Relay hostCodes → Prop
  | startRead (reads : relay.input.childReads = true) :
      ProcessMoves limits codes relay identity .startRead
        { relay with processes := relay.processes.set identity .reading }
  | startWrite {which : Output} {bytes : List Byte} (nonempty : bytes ≠ [])
      (has : hasOutput relay.output.tty which = true)
      (opened : (relay.output.source which).hungUp = false) :
      ProcessMoves limits codes relay identity (.startWrite which bytes)
        { relay with processes := relay.processes.set identity (.writing which bytes) }
  | fork : ProcessMoves limits codes relay identity .fork
      { relay with processes := relay.processes ++ [.computing] }
  | exit : ProcessMoves limits codes relay identity .exit
      { relay with processes := relay.processes.set identity .exited }
  | read {count : Nat} (piece : 0 < count ∧ count ≤ relay.childStdin.length) :
      ProcessMoves limits codes relay identity (.read count)
        { relay with
          processes := relay.processes.set identity .computing
          childStdin := relay.childStdin.drop count }
  | endOfInput :
      ProcessMoves limits codes relay identity .endOfInput
        { relay with processes := relay.processes.set identity .computing }
  | write {which : Output} {rest : List Byte} {count : Nat} {output : Guest}
      (blocked : relay.processes[identity]? = some (.writing which rest))
      (piece : 0 < count ∧ count ≤ rest.length)
      (room : (relay.output.source which).buffer.length + count ≤ limits.output which)
      (moved : relay.output.step codes (.write which (rest.take count)) = some output) :
      ProcessMoves limits codes relay identity (.write count)
        { relay with
          output := output
          processes := relay.processes.set identity
            (if count = rest.length then .computing else .writing which (rest.drop count)) }

theorem processMoves {identity : Nat} {call : ProcessCall}
    (stepped : relay.processStep limits codes identity call = some after) :
    ProcessMoves limits codes relay identity call after := by
  unfold processStep at stepped
  dsimp only at stepped
  split at stepped
  · simp only [Option.ite_none_right_eq_some, Option.some.injEq] at stepped
    obtain ⟨reads, rfl⟩ := stepped
    exact .startRead reads
  · simp only [Option.ite_none_right_eq_some, Option.some.injEq] at stepped
    obtain ⟨⟨nonempty, has, opened⟩, rfl⟩ := stepped
    exact .startWrite nonempty has opened
  · cases stepped
    exact .fork
  · cases stepped
    exact .exit
  · simp only [Option.ite_none_right_eq_some, Option.some.injEq] at stepped
    obtain ⟨piece, rfl⟩ := stepped
    exact .read piece
  · simp only [Option.ite_none_right_eq_some, Option.some.injEq] at stepped
    obtain ⟨_, rfl⟩ := stepped
    exact .endOfInput
  · simp only [Option.ite_none_right_eq_some, Option.map_eq_some_iff] at stepped
    obtain ⟨⟨positive, short, room⟩, output, moved, rfl⟩ := stepped
    exact .write ‹_› ⟨positive, short⟩ room moved
  · cases stepped

/-- Other processes stay as they are. -/
theorem Processes.set (processes : relay.Processes) {identity : Nat} {phase : ProcessPhase}
    (writes : ∀ which rest, phase = .writing which rest →
      rest ≠ [] ∧ hasOutput relay.output.tty which = true ∧
        (relay.output.source which).hungUp = false)
    (reads : phase = .reading → relay.input.childReads = true) :
    { relay with processes := relay.processes.set identity phase }.Processes where
  writers which rest member := by
    rcases List.mem_or_eq_of_mem_set member with earlier | same
    · exact processes.writers which rest earlier
    · exact writes which rest same.symm
  readers member := by
    rcases List.mem_or_eq_of_mem_set member with earlier | same
    · exact processes.readers earlier
    · exact reads same.symm

theorem Sound.withProcesses (sound : relay.Sound limits codes) {processes : List ProcessPhase}
    {childStdin : List Byte} (short : childStdin.length ≤ limits.childStdin)
    (kept : { relay with processes := processes }.Processes) :
    { relay with processes := processes, childStdin := childStdin }.Sound limits codes :=
  ⟨sound.input, sound.locks, sound.attached, sound.connected, sound.output, sound.healthy,
    ⟨sound.bounded.toGuest, short, sound.bounded.toHost, sound.bounded.output⟩,
    ⟨kept.writers, kept.readers⟩, sound.carried⟩

theorem Sound.processStep (sound : relay.Sound limits codes) {identity : Nat} {call : ProcessCall}
    (stepped : relay.processStep limits codes identity call = some after) :
    after.Sound limits codes := by
  have bounded := sound.bounded.childStdin
  have processes := sound.processes
  cases processMoves stepped with
  | startRead reads => exact sound.withProcesses bounded (processes.set nofun fun _ => reads)
  | startWrite nonempty has opened =>
      refine sound.withProcesses bounded (processes.set ?_ nofun)
      rintro _ _ ⟨⟩
      exact ⟨nonempty, has, opened⟩
  | fork =>
      refine sound.withProcesses bounded ⟨fun which rest member => ?_, fun member => ?_⟩
      · rcases List.mem_append.mp member with earlier | last
        · exact processes.writers which rest earlier
        · cases List.mem_singleton.mp last
      · rcases List.mem_append.mp member with earlier | last
        · exact processes.readers earlier
        · cases List.mem_singleton.mp last
  | exit | endOfInput => exact sound.withProcesses bounded (processes.set nofun nofun)
  | @read count piece =>
      refine sound.withProcesses ?_ (processes.set nofun nofun)
      rw [List.length_drop]
      omega
  | @write which rest count output blocked piece room moved =>
      obtain ⟨nonempty, has, opened⟩ :=
        processes.writers which rest (List.mem_of_getElem? blocked)
      have outputSound := sound.output.step moved
      cases Guest.effect_of_step moved with
      | write =>
          have hungUp : ∀ other, (relay.output.source other).hungUp = false →
              ((relay.output.onSource which fun source => source.write (rest.take count)).source
                other).hungUp = false :=
            Guest.forall_onSource (fun other source => (relay.output.source other).hungUp = false →
              source.hungUp = false) id fun _ _ => id
          refine sound.withOutput outputSound (sound.healthy.write opened) rfl ?_ ?_ ?_
          · refine Guest.forall_onSource (fun other source =>
              source.buffer.length ≤ limits.output other) ?_ fun other _ =>
                sound.bounded.output other
            rw [Source.write, List.length_append, List.length_take]
            omega
          · intro other left member
            rcases List.mem_or_eq_of_mem_set member with earlier | same
            · obtain ⟨some, has, opened⟩ := processes.writers other left earlier
              exact ⟨some, has, hungUp other opened⟩
            · split_ifs at same with all
              cases same
              refine ⟨fun none => ?_, has, hungUp _ opened⟩
              have length := congrArg List.length none
              rw [List.length_drop, List.length_nil] at length
              omega
          · intro member
            rcases List.mem_or_eq_of_mem_set member with earlier | same
            · exact processes.readers earlier
            · split_ifs at same

theorem Sound.step (sound : relay.Sound limits codes) {action : RelayAction}
    (stepped : relay.step limits codes action = some after) : after.Sound limits codes := by
  cases action <;> simp only [Relay.step, Option.ite_none_right_eq_some,
    Option.ite_none_left_eq_some, Option.map_eq_some_iff, Option.some.injEq] at stepped
  case input action => exact sound.inputStep stepped
  case output action => exact (sound.outputStep stepped).1
  case flush count =>
    obtain ⟨⟨_, _, room⟩, rfl⟩ := stepped
    refine sound.withTransport ?_ ?_
    · rw [List.append_assoc relay.toHost, List.take_append_drop]
    · rw [List.length_append, List.length_take]
      omega
  case drain count =>
    obtain ⟨_, rfl⟩ := stepped
    refine sound.withTransport ?_ (List.length_drop .. ▸ ?_)
    · rw [List.append_assoc, ← List.append_assoc (relay.toHost.take count),
        List.take_append_drop]
    · exact Nat.le_trans (Nat.sub_le _ _) sound.bounded.toHost
  case process identity call => exact sound.processStep stepped
  case hangUp which =>
    obtain ⟨quiet, output, moved, rfl⟩ := stepped
    cases moved
    exact sound.hangUp (eq_false_of_ne_true quiet)
  case status code =>
    obtain ⟨_, output, moved, rfl⟩ := stepped
    exact sound.status moved

theorem sound_of_reachable
    (reachable : (duplexRelay limits hostCodes codes).Reachable (start hostCodes) relay) :
    relay.Sound limits codes :=
  reachable.invariant (Sound limits codes) (start_sound limits codes)
    fun _ _ _ sound stepped => Sound.step sound stepped

/-! ## What is left where nobody can go on -/

/-- All output reached the host, and an ended request its exit packet. -/
structure OutputDelivered (codes : GuestOpcodes) (relay : Relay hostCodes) : Prop where
  printed : relay.printed = logBytes relay.output.log
  carried : ∀ which, hasOutput relay.output.tty which = true →
    payloads codes which relay.output.log = (relay.output.source which).written
  writers : ∀ which rest, .writing which rest ∉ relay.processes
  finished : relay.output.statusWritten ≠ none →
    (∀ which, hasOutput relay.output.tty which = true →
      (relay.output.source which).hungUp = true) → relay.output.phase = .returned true

/-- All input that the host has read was decoded and taken by the processes, unless they
closed their stdin. -/
structure InputDelivered (relay : Relay hostCodes) : Prop where
  decoded : relay.input.decoder.decoded = relay.input.stream.sent
  thread : relay.input.stdinThread = .reading ∨ relay.input.stdinThread = .finished
  received : relay.input.decoder.received = relay.input.chunks.flatten
  taken : relay.childStdin = []

/-- The loop is idle: it has sent what was written, unless it has returned. -/
theorem Sound.idle_carried (sound : relay.Sound limits codes) (idle : relay.output.Idle)
    {which : Output} (has : hasOutput relay.output.tty which = true) :
    payloads codes which relay.output.log = (relay.output.source which).written ∧
      ((relay.output.source which).hungUp = true ∨ (relay.output.source which).buffer = []) := by
  have accounted := sound.output.streams.accounted which
  have closed := sound.healthy.closed which has
  have phase := sound.output.phase
  rcases idle with returned | ⟨waiting, _, silent⟩
  · rw [Guest.PhaseSound, returned] at phase
    obtain ⟨data, code, log, delivered, settled⟩ := phase
    obtain ⟨hungUp, empty⟩ := closed (settled.closed which)
    have completed := sound.output.completed rfl log delivered settled
    rw [empty, List.append_nil] at accounted
    exact ⟨(completed.carried which has).trans accounted.symm, .inl hungUp⟩
  · rw [Guest.PhaseSound, waiting] at phase
    have empty : (relay.output.source which).buffer = [] := by
      cases opened : relay.output.isOpen which with
      | true => exact (silent which opened).1
      | false => exact (closed opened).2
    have carried := phase.carried which
    rw [Guest.nothing, List.append_nil] at carried
    rw [empty, List.append_nil] at accounted
    exact ⟨carried.trans accounted.symm, .inr empty⟩

/-- Where the output side cannot go on, all output was delivered. -/
theorem Sound.outputDelivered (sound : relay.Sound limits codes)
    (stuck : (duplexRelay limits hostCodes codes).Stuck RelayAction.IsOutput relay) :
    relay.OutputDelivered codes := by
  have toHost : relay.toHost = [] := by
    by_contra some
    have none := stuck (.drain 1) trivial
    simp only [duplexRelay, Relay.step] at none
    rw [if_pos ⟨Nat.one_pos, List.length_pos_iff.mpr some⟩] at none
    cases none
  have unsent : relay.unsent = [] := by
    by_contra some
    have none := stuck (.flush 1) trivial
    simp only [duplexRelay, Relay.step] at none
    rw [toHost, if_pos ⟨Nat.one_pos, List.length_pos_iff.mpr some,
      (Nat.zero_add 1).symm ▸ limits.toHost_pos⟩] at none
    cases none
  have idle : relay.output.Idle := by
    refine (sound.healthy.enabled_or_idle sound.output).resolve_left ?_
    rintro ⟨action, permitted, enabled⟩
    have none := stuck (.output action) trivial
    simp only [duplexRelay, Relay.step, Relay.outputStep] at none
    rw [if_pos ⟨unsent, permitted⟩, Option.map_eq_none_iff] at none
    rw [none] at enabled
    cases enabled
  refine ⟨?_, fun which has => (sound.idle_carried idle has).1, ?_, fun written ended => ?_⟩
  · have carried := sound.carried
    rwa [toHost, unsent, List.append_nil, List.append_nil] at carried
  · intro which rest member
    obtain ⟨nonempty, has, opened⟩ := sound.processes.writers which rest member
    obtain ⟨identity, blocked⟩ := List.mem_iff_getElem?.mp member
    have empty := (sound.idle_carried idle has).2.resolve_left fun ended =>
      absurd (opened.symm.trans ended) nofun
    have moved : relay.output.step codes (.write which (rest.take 1)) = some _ :=
      if_pos ⟨has, opened⟩
    have room : (relay.output.source which).buffer.length + 1 ≤ limits.output which := by
      rw [empty]
      exact limits.output_pos which
    have none := stuck (.process identity (.write 1)) trivial
    simp only [duplexRelay, Relay.step, Relay.processStep, blocked] at none
    rw [if_pos ⟨Nat.one_pos, List.length_pos_iff.mpr nonempty, room⟩, moved] at none
    cases none
  · rcases idle with returned | ⟨waiting, unread, silent⟩
    · exact returned
    · have phase := sound.healthy.phase
      rw [waiting] at phase
      have closed : ∀ which, relay.output.isOpen which = false := fun which => by
        by_contra opened
        have opened := eq_true_of_ne_false opened
        have has := sound.output.streams.opened which opened
        exact absurd ((silent which opened).2.symm.trans (ended which has)) nofun
      cases exit : relay.output.exitCode with
      | none => exact absurd ((phase.1.2.1 exit).symm.trans unread) written
      | some code =>
          obtain ⟨which, opened⟩ := phase.2 (exit ▸ nofun)
          exact absurd (opened.symm.trans (closed which)) nofun

/-- A step of the input side that is enabled but for the bounds is not enabled. -/
theorem stuck_input (stuck : (duplexRelay limits hostCodes codes).Stuck RelayAction.IsProgress
      relay) (action : InputAction) (progress : RelayAction.IsProgress (.input action))
    (plain : relay.inputStep limits action =
      (relay.input.step action).map fun input => { relay with input }) :
    relay.input.step action = none := by
  have none := stuck (.input action) progress
  simp only [duplexRelay, Relay.step, plain, Option.map_eq_none_iff] at none
  exact none

/-- Where the input side cannot go on, the transport is empty, or the way to the child is
full. -/
theorem Sound.input_stuck (sound : relay.Sound limits codes)
    (stuck : (duplexRelay limits hostCodes codes).Stuck RelayAction.IsProgress relay) :
    (relay.input.stream.inFlight = [] ∧ ∃ expected got,
        relay.input.decoder.phase = .reading expected got) ∨
      (relay.input.childReads = true ∧ relay.childStdin.length = limits.childStdin) := by
  have attached := sound.attached sound.connected
  have framing := sound.input.framing
  cases phase : relay.input.decoder.phase with
  | returned => exact absurd phase attached
  | unexpected opc => exact absurd phase (framing.expected opc)
  | reading expected got =>
      refine .inl ⟨?_, expected, got, rfl⟩
      by_contra available
      have enabled := framing.receives expected got phase available
      rw [stuck_input stuck (.receive 1) trivial rfl] at enabled
      cases enabled
  | writing rest =>
      have enabled := framing.writes rest phase
      cases reads : relay.input.childReads with
      | false =>
          rw [reads] at enabled
          simp only [Bool.false_eq_true, ↓reduceIte] at enabled
          rw [stuck_input stuck .brokenPipe trivial rfl] at enabled
          cases enabled
      | true =>
          refine .inr ⟨rfl, Nat.le_antisymm sound.bounded.childStdin ?_⟩
          by_contra room
          rw [reads, if_pos rfl, Option.isSome_iff_exists] at enabled
          obtain ⟨input, delivered⟩ := enabled
          have none := stuck (.input (.deliver 1)) trivial
          simp only [duplexRelay, Relay.step, Relay.inputStep] at none
          rw [if_pos (by omega), delivered] at none
          cases none

/-- Where the writers cannot go on, none waits for the mutex, or its holder waits for room
in the transport. -/
theorem Sound.writers_stuck (sound : relay.Sound limits codes)
    (stuck : (duplexRelay limits hostCodes codes).Stuck RelayAction.IsProgress relay) :
    (relay.input.stream.holder = none ∧ relay.input.sizeThread = .waiting ∧
        (relay.input.stdinThread = .reading ∨ relay.input.stdinThread = .finished)) ∨
      relay.input.stream.inFlight.length = limits.toGuest := by
  by_cases unwritten : relay.input.stream.unwritten = []
  · have free : relay.input.stream.holder = none := by
      have blocked := stuck_input stuck .unlock trivial rfl
      have released : relay.input.stream.release ≠ none := by
        rw [LockedStream.release, dif_pos unwritten]
        exact Option.some_ne_none _
      by_contra held
      obtain ⟨writer, holder⟩ := Option.ne_none_iff_exists'.mp held
      simp only [InputState.step] at blocked
      cases writer with
      | forwardStdin =>
          obtain ⟨last, writing⟩ := sound.locks.stdin.mp holder
          rw [writing, holder] at blocked
          exact released (Option.map_eq_none_iff.mp blocked)
      | updateSize =>
          have writing := sound.locks.size.mp holder
          have stdin (last : Bool) : relay.input.stdinThread ≠ .writing last := by
            intro other
            have both := holder.symm.trans (sound.locks.stdin.mpr ⟨last, other⟩)
            cases both
          rw [writing, holder] at blocked
          cases thread : relay.input.stdinThread with
          | writing last => exact stdin last thread
          | reading | locking _ | finished =>
              rw [thread] at blocked
              exact released (Option.map_eq_none_iff.mp blocked)
    have acquired (writer : HostWriter) (frame : InputFrame) :
        relay.input.stream.acquire writer frame ≠ none := by
      unfold LockedStream.acquire
      split
      case h_1 held => exact absurd (held.symm.trans free) (Option.some_ne_none _)
      case h_2 => exact Option.some_ne_none _
    refine .inl ⟨free, ?_, ?_⟩
    · cases thread : relay.input.sizeThread with
      | waiting => rfl
      | writing =>
          exact absurd ((sound.locks.size.mpr thread).symm.trans free) (Option.some_ne_none _)
      | locking size =>
          have none := stuck_input stuck .lockSize trivial rfl
          simp only [InputState.step, thread, Option.map_eq_none_iff] at none
          exact absurd none (acquired _ _)
    · cases thread : relay.input.stdinThread with
      | reading => exact .inl rfl
      | finished => exact .inr rfl
      | writing last =>
          have held := sound.locks.stdin.mpr ⟨last, thread⟩
          exact absurd (held.symm.trans free) (Option.some_ne_none _)
      | locking data =>
          have none := stuck_input stuck .lockStdin trivial rfl
          simp only [InputState.step, thread, Option.map_eq_none_iff] at none
          exact absurd none (acquired _ _)
  · refine .inr (Nat.le_antisymm sound.bounded.toGuest ?_)
    by_contra room
    have none := stuck (.input (.write 1)) trivial
    simp only [duplexRelay, Relay.step, Relay.inputStep] at none
    rw [if_pos (by omega), Option.map_eq_none_iff, InputState.step, if_pos sound.connected,
      Option.map_eq_none_iff, LockedStream.write,
      if_pos ⟨Nat.one_pos, List.length_pos_iff.mpr unwritten⟩] at none
    cases none

theorem Stuck.output (stuck : (duplexRelay limits hostCodes codes).Stuck RelayAction.IsProgress
      relay) : (duplexRelay limits hostCodes codes).Stuck RelayAction.IsOutput relay := by
  intro action output
  refine stuck action ?_
  cases action with
  | output | flush | drain => trivial
  | process identity call =>
      cases call with
      | read | endOfInput | write => trivial
      | startRead | startWrite | fork | exit => exact output.elim
  | input | hangUp | status => exact output.elim

theorem Sound.inputDelivered (sound : relay.Sound limits codes)
    (stuck : (duplexRelay limits hostCodes codes).Stuck RelayAction.IsProgress relay)
    (reading : .reading ∈ relay.processes) : relay.InputDelivered := by
  obtain ⟨identity, reads⟩ := List.mem_iff_getElem?.mp reading
  have taken : relay.childStdin = [] := by
    by_contra some
    have blocked := stuck (.process identity (.read 1)) trivial
    simp only [duplexRelay, Relay.step, Relay.processStep, reads] at blocked
    rw [if_pos ⟨Nat.one_pos, List.length_pos_iff.mpr some⟩] at blocked
    cases blocked
  have opened : relay.input.decoder.stdin = true := by
    by_contra shut
    have blocked := stuck (.process identity .endOfInput) trivial
    simp only [duplexRelay, Relay.step, Relay.processStep, reads] at blocked
    rw [if_pos ⟨taken, eq_false_of_ne_true shut⟩] at blocked
    cases blocked
  have room : relay.childStdin.length ≠ limits.childStdin := by
    rw [taken]
    exact Nat.ne_of_lt limits.childStdin_pos
  obtain ⟨empty, expected, got, phase⟩ :=
    (sound.input_stuck stuck).resolve_right fun full => room full.2
  have space : relay.input.stream.inFlight.length ≠ limits.toGuest := by
    rw [empty]
    exact Nat.ne_of_lt limits.toGuest_pos
  obtain ⟨free, _, thread⟩ := (sound.writers_stuck stuck).resolve_right space
  have incoming : relay.input.stream.incoming = [] := by
    rw [LockedStream.incoming, empty, relay.input.stream.idle free]
    rfl
  have command := sound.input.reading_command phase incoming
  have framing := sound.input.framing
  have decoded := framing.caughtUp incoming command
  have pending : relay.input.stdinThread.pending = [] := by
    rcases thread with same | same <;> rw [same] <;> rfl
  refine ⟨decoded, thread, ?_, taken⟩
  have received := (framing.opened opened).1
  have inputs := framing.inputs
  rw [pending, List.append_nil] at inputs
  rwa [command, Decoder.undelivered_reading, List.append_nil, decoded, inputs] at received

end Relay

/-- **Input never keeps output back.** In every reachable state of a request without a
terminal where no party can go on by itself, all output has reached the host and every
process that reads has got all input there is. -/
theorem duplexRelay_settles (limits : Capacities) (hostCodes : HostOpcodes)
    (codes : GuestOpcodes) (relay : Relay hostCodes)
    (reachable : (duplexRelay limits hostCodes codes).Reachable (Relay.start hostCodes) relay)
    (stuck : (duplexRelay limits hostCodes codes).Stuck RelayAction.IsProgress relay) :
    relay.OutputDelivered codes ∧ (.reading ∈ relay.processes → relay.InputDelivered) := by
  have sound := Relay.sound_of_reachable reachable
  exact ⟨sound.outputDelivered (Relay.Stuck.output stuck), sound.inputDelivered stuck⟩

namespace Relay

variable {limits : Capacities} {hostCodes : HostOpcodes} {codes : GuestOpcodes}
  {relay : Relay hostCodes}

/-- All buffers are empty, nothing has ended, and every process reads. -/
structure Quiet (relay : Relay hostCodes) : Prop where
  stdin : relay.input.stdinThread = .reading
  size : relay.input.sizeThread = .waiting
  unwritten : relay.input.stream.unwritten = []
  inFlight : relay.input.stream.inFlight = []
  decoder : relay.input.decoder.phase = .reading .command []
  opened : relay.input.decoder.stdin = true
  reads : relay.input.childReads = true
  childStdin : relay.childStdin = []
  unsent : relay.unsent = []
  toHost : relay.toHost = []
  processes : ∀ phase ∈ relay.processes, phase = .reading
  waiting : relay.output.phase = .waiting
  silent : ∀ which, (relay.output.source which).buffer = [] ∧
    (relay.output.source which).hungUp = false
  running : relay.output.statusUnread = none ∧ relay.output.statusClosed = false

/-- The guest's loop has nothing to be woken by. -/
theorem Quiet.not_polled (quiet : relay.Quiet) {source : EventSource} {flags : Flags}
    (accurate : relay.output.accurate flags source = true) :
    relay.output.reportable source flags = false := by
  have neither : flags.epollin = false ∧ flags.epollhup = false := by
    cases source with
    | output which =>
        obtain ⟨empty, opened⟩ := quiet.silent which
        simp only [Guest.accurate, empty, opened, List.isEmpty_nil, Bool.not_true, Bool.or_false,
          Bool.and_eq_true, Bool.not_eq_true'] at accurate
        exact accurate
    | stopPipe =>
        simp only [Guest.accurate, quiet.running.1, quiet.running.2, Option.isSome_none,
          Bool.or_false, Bool.and_eq_true, Bool.not_eq_true'] at accurate
        exact accurate
  simp only [Guest.reportable, neither.1, neither.2, Bool.or_false, Bool.and_false, Bool.false_and]

/-- The guest's loop waits. -/
theorem Quiet.step_output (quiet : relay.Quiet) {action : GuestAction}
    (permitted : relay.output.permitted action = true) :
    relay.output.step codes action = none := by
  cases action with
  | poll source flags =>
      refine if_neg fun polled => ?_
      exact absurd (polled.2.symm.trans (quiet.not_polled permitted)) nofun
  | read outcome => simp only [Guest.step, quiet.waiting]
  | handle sent => simp only [Guest.step, quiet.waiting]
  | report => simp only [Guest.step, quiet.waiting]
  | exit sent => simp only [Guest.step, quiet.waiting]
  | fail | write | hangUp | reopen | writeStatus | closeStatus => cases permitted

/-- Nobody can go on where everything has been said. -/
theorem Quiet.stuck (quiet : relay.Quiet) :
    (duplexRelay limits hostCodes codes).Stuck RelayAction.IsProgress relay := by
  intro action progress
  cases action with
  | hangUp | status => exact progress.elim
  | flush count =>
      refine if_neg fun room => ?_
      rw [quiet.unsent] at room
      exact Nat.not_le_of_lt room.1 room.2.1
  | drain count =>
      refine if_neg fun room => ?_
      rw [quiet.toHost] at room
      exact Nat.not_le_of_lt room.1 room.2
  | output action =>
      simp only [duplexRelay, Relay.step, Relay.outputStep]
      split_ifs with moves
      · rw [quiet.step_output moves.2, Option.map_none]
      · rfl
  | process identity call =>
      simp only [duplexRelay, Relay.step, Relay.processStep]
      cases found : relay.processes[identity]? with
      | none => rfl
      | some phase =>
          cases quiet.processes phase (List.mem_of_getElem? found)
          cases call with
          | read count =>
              refine if_neg fun room => ?_
              rw [quiet.childStdin] at room
              exact Nat.not_le_of_lt room.1 room.2
          | endOfInput =>
              refine if_neg fun ended => ?_
              exact absurd (quiet.opened.symm.trans ended.2) nofun
          | startRead | startWrite | write | fork | exit => rfl
  | input action =>
      simp only [duplexRelay, Relay.step]
      cases action with
      | readStdin | resize | closeStdin => exact progress.elim
      | disconnect | endOfStream => rfl
      | lockStdin => simp only [Relay.inputStep, InputState.step, quiet.stdin, Option.map_none]
      | lockSize => simp only [Relay.inputStep, InputState.step, quiet.size, Option.map_none]
      | unlock =>
          simp only [Relay.inputStep, InputState.step, quiet.stdin, quiet.size, Option.map_none]
      | brokenPipe =>
          simp only [Relay.inputStep, InputState.step, quiet.reads, ↓reduceIte, Option.map_none]
      | receive count =>
          have none : ¬ (0 < count ∧ count ≤ 0) := fun both => Nat.not_le_of_lt both.1 both.2
          simp only [Relay.inputStep, InputState.step, quiet.inFlight, List.length_nil, none,
            ↓reduceIte, Option.map_none]
      | write count =>
          have none : ¬ (0 < count ∧ count ≤ 0) := fun both => Nat.not_le_of_lt both.1 both.2
          simp only [Relay.inputStep, InputState.step, LockedStream.write, quiet.unwritten,
            List.length_nil, none, ↓reduceIte, Option.map_none, ite_self]
      | deliver count =>
          simp only [Relay.inputStep, InputState.step, Decoder.deliver, quiet.decoder,
            Option.map_none, ite_self]

end Relay

/-- Buffers of one byte. -/
def sampleCapacities : Capacities where
  toGuest := 1
  toHost := 1
  childStdin := 1
  output _ := 1
  toGuest_pos := Nat.one_pos
  toHost_pos := Nat.one_pos
  childStdin_pos := Nat.one_pos
  output_pos _ := Nat.one_pos

/-- A process writes and does not read; two chunks of input fill the way to it. -/
def sampleBacklog : List RelayAction :=
  [.process 0 (.startWrite .stdout [7, 8, 9]), .input (.readStdin [1, 2]), .input .lockStdin,
    .input (.write 1), .input (.receive 1), .input (.write 1), .input (.receive 1),
    .input (.write 1), .input (.receive 1), .input (.write 1), .input (.receive 1),
    .input .unlock, .input (.deliver 1), .input (.readStdin [3]), .input .lockStdin,
    .input (.write 1), .process 0 (.write 1), .output (.poll (.output .stdout) ⟨true, false⟩),
    .output (.read (.bytes 1)), .output (.handle true), .flush 1, .process 0 (.write 1)]

/-- A process that writes, and then reads more than was typed. -/
def sampleDialogue : List RelayAction :=
  [.process 0 (.startWrite .stdout [7]), .process 0 (.write 1),
    .output (.poll (.output .stdout) ⟨true, false⟩), .output (.read (.bytes 1)),
    .output (.handle true), .flush 1, .drain 1, .flush 1, .drain 1, .flush 1, .drain 1,
    .input (.readStdin [1]), .input .lockStdin, .input (.write 1), .input (.receive 1),
    .input (.write 1), .input (.receive 1), .input (.write 1), .input (.receive 1),
    .input .unlock, .input (.deliver 1), .process 0 .startRead, .process 0 (.read 1),
    .process 0 .startRead]

/-- Nobody can go on then, and nothing is left on the way. -/
theorem duplexRelay_settles_sample : ∃ relay,
    (duplexRelay sampleCapacities sampleHostCodes sampleCodes).run
      (Relay.start sampleHostCodes) sampleDialogue = some relay ∧
    relay.processes = [.reading] ∧ relay.OutputDelivered sampleCodes ∧
      (.reading ∈ relay.processes → relay.InputDelivered) := by
  refine ⟨_, rfl, rfl, duplexRelay_settles sampleCapacities sampleHostCodes sampleCodes _
    ⟨sampleDialogue, rfl⟩ (Relay.Quiet.stuck ?_)⟩
  refine ⟨rfl, rfl, rfl, rfl, rfl, rfl, rfl, rfl, rfl, rfl, fun phase member => ?_, rfl,
    fun which => ?_, rfl, rfl⟩
  · exact List.mem_singleton.mp member
  · cases which <;> exact ⟨rfl, rfl⟩

/-! ## The output side alone -/

namespace Relay

variable {limits : Capacities} {hostCodes : HostOpcodes} {codes : GuestOpcodes}
  {relay after : Relay hostCodes}

/-- What a process has still to write. -/
def unwritten : ProcessPhase → List Byte
  | .writing _ rest => rest
  | .computing | .reading | .exited => []

/-- What the output side has to do before it is done. -/
def work (relay : Relay hostCodes) : Nat :=
  21 * (relay.processes.flatMap unwritten).length + relay.output.work +
    2 * relay.unsent.length + relay.toHost.length

theorem unwritten_set {processes : List ProcessPhase} {identity : Nat} {old : ProcessPhase}
    (found : processes[identity]? = some old) (phase : ProcessPhase) :
    ((processes.set identity phase).flatMap unwritten).length + (unwritten old).length =
      (processes.flatMap unwritten).length + (unwritten phase).length := by
  induction processes generalizing identity with
  | nil => cases found
  | cons first rest ih =>
      cases identity with
      | zero =>
          cases found
          simp only [List.set_cons_zero, List.flatMap_cons, List.length_append]
          omega
      | succ identity =>
          have later := ih (List.getElem?_cons_succ.symm.trans found)
          simp only [List.set_cons_succ, List.flatMap_cons, List.length_append]
          omega

theorem work_write {which : Output} {bytes : List Byte} {output : Guest}
    (moved : relay.output.step codes (.write which bytes) = some output) :
    output.work = relay.output.work + 20 * bytes.length := by
  cases Guest.effect_of_step moved with
  | write =>
      have more := Guest.buffered_onSource relay.output which
        fun source => source.write bytes
      have length : ((relay.output.source which).write bytes).buffer.length =
          (relay.output.source which).buffer.length + bytes.length := List.length_append
      rw [Guest.work, Guest.work]
      change Guest.phaseWork relay.output.phase + 20 * (relay.output.registrations +
        (relay.output.onSource which fun source => source.write bytes).buffered) = _
      omega

/-- Every step of the output side leaves less to do, and the input side as it is. -/
theorem Sound.work_step (sound : relay.Sound limits codes) {action : RelayAction}
    (output : action.IsOutput) (stepped : relay.step limits codes action = some after) :
    after.work < relay.work ∧ after.input = relay.input := by
  cases action with
  | input | hangUp | status => exact output.elim
  | output action =>
      obtain ⟨_, input, processes, toHost, idle, unsent, costs⟩ := sound.outputStep stepped
      have lower := costs.work
      refine ⟨?_, input⟩
      rw [work, work, processes, toHost, idle, unsent, List.length_nil]
      omega
  | flush count =>
      simp only [Relay.step, Option.ite_none_right_eq_some, Option.some.injEq] at stepped
      obtain ⟨⟨positive, short, _⟩, rfl⟩ := stepped
      refine ⟨?_, rfl⟩
      simp only [work, List.length_append, List.length_drop, List.length_take]
      omega
  | drain count =>
      simp only [Relay.step, Option.ite_none_right_eq_some, Option.some.injEq] at stepped
      obtain ⟨⟨positive, short⟩, rfl⟩ := stepped
      refine ⟨?_, rfl⟩
      simp only [work, List.length_drop]
      omega
  | process identity call =>
      cases processMoves stepped with
      | startRead | startWrite | fork | exit | read | endOfInput => exact output.elim
      | @write which rest count output blocked piece room moved =>
          have more := work_write moved
          have taken : (rest.take count).length = count := by
            rw [List.length_take]
            omega
          have left : (unwritten (if count = rest.length then .computing
              else .writing which (rest.drop count))).length = rest.length - count := by
            split_ifs with all
            · rw [all, Nat.sub_self]
              rfl
            · exact List.length_drop
          have less := unwritten_set blocked
            (if count = rest.length then .computing else .writing which (rest.drop count))
          change _ + rest.length = _ + _ at less
          refine ⟨?_, rfl⟩
          simp only [work]
          omega

end Relay

/-- **Output does not wait for input.** From every reachable state of a request without a
terminal the output side, left alone, takes a bounded number of steps and leaves the input
side as it is; where it stops, all output was delivered. -/
theorem duplexRelay_drains (limits : Capacities) (hostCodes : HostOpcodes)
    (codes : GuestOpcodes) (relay : Relay hostCodes)
    (reachable : (duplexRelay limits hostCodes codes).Reachable (Relay.start hostCodes) relay) :
    (∀ actions after, (duplexRelay limits hostCodes codes).Run
        (fun _ action => action.IsOutput) relay actions after →
      actions.length ≤ relay.work ∧ after.input = relay.input ∧
        ((duplexRelay limits hostCodes codes).Stuck RelayAction.IsOutput after →
          after.OutputDelivered codes)) ∧
    ∃ actions after, (duplexRelay limits hostCodes codes).Run
        (fun _ action => action.IsOutput) relay actions after ∧ after.OutputDelivered codes := by
  have sound := Relay.sound_of_reachable reachable
  have delivers : ∀ actions after, (duplexRelay limits hostCodes codes).Run
        (fun _ action => action.IsOutput) relay actions after →
      actions.length ≤ relay.work ∧ after.input = relay.input ∧
        ((duplexRelay limits hostCodes codes).Stuck RelayAction.IsOutput after →
          after.OutputDelivered codes) := by
    intro actions after executed
    have kept : after.Sound limits codes ∧ after.input = relay.input :=
      executed.invariant (fun state => state.Sound limits codes ∧ state.input = relay.input)
        ⟨sound, rfl⟩ fun before action after holds output stepped =>
          ⟨holds.1.step stepped, (holds.1.work_step output stepped).2.trans holds.2⟩
    have short := executed.length_le_measure (Relay.Sound limits codes) Relay.work sound
      (fun _ _ _ holds _ stepped => holds.step stepped)
      fun _ _ _ holds output stepped => (holds.work_step output stepped).1
    refine ⟨Nat.le_trans (Nat.le_add_right _ _) short, kept.2, fun stuck => ?_⟩
    exact kept.1.outputDelivered stuck
  obtain ⟨actions, after, executed, stuck⟩ :=
    (duplexRelay limits hostCodes codes).exists_run_stuck RelayAction.IsOutput
    (Relay.Sound limits codes) Relay.work (fun _ _ _ holds _ stepped => holds.step stepped)
    (fun _ _ _ holds output stepped => (holds.work_step output stepped).1) relay sound
  exact ⟨delivers, actions, after, executed, (delivers actions after executed).2.2 stuck⟩

/-- Output leaves while the input is backed up. -/
theorem duplexRelay_drains_sample : ∃ relay,
    (duplexRelay sampleCapacities sampleHostCodes sampleCodes).run
      (Relay.start sampleHostCodes) sampleBacklog = some relay ∧
    relay.processes = [.writing .stdout [9]] ∧ relay.childStdin = [1] ∧
    ∃ actions after, (duplexRelay sampleCapacities sampleHostCodes sampleCodes).Run
        (fun _ action => action.IsOutput) relay actions after ∧ after.OutputDelivered sampleCodes :=
  ⟨_, rfl, rfl, rfl, (duplexRelay_drains sampleCapacities sampleHostCodes sampleCodes _
    ⟨sampleBacklog, rfl⟩).2⟩

end X86OnArm.Muvm
