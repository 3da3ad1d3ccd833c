import X86OnArm.Muvm.WaitForChild
import X86OnArm.Muvm.OutputOrder
import Mathlib.Data.List.Basic
import Mathlib.Tactic.Common

/-! # The lifetime protocol

An acknowledgement comes after the exit packet, which comes after the status byte,
which comes after the child was reaped. So an acknowledged request is never
terminated and an unacknowledged one always is. The main result is
`waitForChild_lifetime`.
-/

namespace X86OnArm.Muvm

open Foundation

/-- The client can have read an exit packet. -/
def ExitSent (codes : GuestOpcodes) (guest : Guest) : Prop :=
  ∃ packet, .packet packet ∈ guest.log ∧ opcode packet.cmd = codes.exit

theorem Guest.Sound.settled_of_exitSent {codes : GuestOpcodes} {guest : Guest}
    (sound : guest.Sound codes) (sent : ExitSent codes guest) :
    guest.statusWritten ≠ none ∧ .finished ∈ guest.log := by
  obtain ⟨packet, member, exits⟩ := sent
  rcases sound.log_cases with ⟨data, code, _, log, _, settled⟩ | ⟨_, quiet⟩
  · rw [sound.streams.exit code settled.exit, log]
    exact ⟨nofun, List.mem_append_right _ List.mem_cons_self⟩
  · exact absurd exits (quiet packet member)

theorem ExitSent.mono {codes : GuestOpcodes} {before after : Guest}
    (sent : ExitSent codes before) (grown : before.log <+: after.log) : ExitSent codes after := by
  obtain ⟨packet, member, exits⟩ := sent
  exact ⟨packet, grown.subset member, exits⟩

namespace Request

/-- What the `complete` future has done by each of its stages. -/
def CompleteSound (request : Request) : Complete → Prop
  | .childWait => request.guest.statusWritten = none ∧ request.guest.statusClosed = false
  | .writeStatus code => request.leader = .reaped code ∧
      request.guest.statusWritten = none ∧ request.guest.statusClosed = false
  | .ioDone code => request.leader = .reaped code ∧ request.guest.statusWritten = some code
  | .done code => request.leader = .reaped code ∧ request.guest.statusWritten = some code ∧
      request.acknowledgement = none

/-- What holds in each phase of the worker. -/
def WorkerSound (request : Request) : WorkerPhase → Prop
  | .joining complete => request.CompleteSound complete ∧
      request.accepted = false ∧ request.terminated = false ∧ request.removed = false ∧
      (request.acknowledgement = none ∨ request.acknowledgement = some 1)
  | .signalMembers | .sleep | .kill | .waitAgain =>
      request.terminated = true ∧ request.removed = false
  | .pollEvents => request.removed = false
  | .rmdir => request.members = []
  | .returned => True

/-- What holds whatever the worker is doing. -/
structure Core (codes : GuestOpcodes) (request : Request) : Prop where
  guest : request.guest.Sound codes
  received : request.receivedExit = true → ExitSent codes request.guest
  exited : request.client = .exited → request.receivedExit = true
  connection : 1 ∈ request.connection → request.receivedExit = true
  acknowledged : request.acknowledgement = some 1 → request.receivedExit = true
  accepted : request.accepted = true → request.acknowledgement = some 1
  terminated : request.terminated = true → request.acknowledgement ≠ some 1
  killed : request.killed = true → request.terminated = true
  removed : request.removed = true → request.members = []
  alive : 0 ∈ request.members → request.leader = .running
  gone : request.closed = true → request.client = .gone

structure Sound (codes : GuestOpcodes) (request : Request) : Prop extends Core codes request where
  worker : request.WorkerSound request.worker

theorem start_sound (codes : GuestOpcodes) (tty : Bool) : (start tty).Sound codes where
  guest := Guest.start_sound codes tty
  received := nofun
  exited := nofun
  connection := nofun
  acknowledged := nofun
  accepted := nofun
  terminated := nofun
  killed := nofun
  removed := nofun
  alive _ := rfl
  gone := nofun
  worker := ⟨⟨rfl, rfl⟩, rfl, rfl, rfl, .inl rfl⟩

variable {codes : GuestOpcodes} {request : Request}

/-- **The chain of the protocol.** Once the acknowledgement was read, the status
byte was written and the report of the drained output was made. -/
theorem Sound.settled_of_acknowledged (sound : request.Sound codes)
    (acknowledged : request.acknowledgement = some 1) :
    request.guest.statusWritten ≠ none ∧ .finished ∈ request.guest.log :=
  sound.guest.settled_of_exitSent (sound.received (sound.acknowledged acknowledged))

/-! ## Steps of the other parties -/

theorem Sound.clientStep (sound : request.Sound codes) {action : ClientAction} {after : Request}
    (stepped : request.clientStep codes action = some after) : after.Sound codes := by
  have stillOpen : ∀ {phase : ClientPhase}, request.client = phase → phase ≠ .gone →
      request.closed = true → after.client = .gone := fun known other closed =>
    absurd (known.symm.trans (sound.gone closed)) other
  cases clientEffect_of_step stepped with
  | ok requesting =>
      exact ⟨⟨sound.guest, sound.received, nofun, sound.connection, sound.acknowledged,
        sound.accepted, sound.terminated, sound.killed, sound.removed, sound.alive,
        stillOpen requesting nofun⟩, sound.worker⟩
  | receive =>
      exact ⟨⟨sound.guest, sound.received, sound.exited, sound.connection, sound.acknowledged,
        sound.accepted, sound.terminated, sound.killed, sound.removed, sound.alive,
        sound.gone⟩, sound.worker⟩
  | @exit packet hosting read exits =>
      have member : .packet packet ∈ request.guest.log := by
        obtain ⟨effect, logged, same⟩ := List.mem_filterMap.mp (List.mem_of_getElem? read)
        cases effect with
        | packet other =>
            cases same
            exact logged
        | finished => cases same
      exact ⟨⟨sound.guest, fun _ => ⟨packet, member, exits⟩, fun _ => rfl, fun _ => rfl,
        fun _ => rfl, sound.accepted, sound.terminated, sound.killed, sound.removed,
        sound.alive, stillOpen hosting nofun⟩, sound.worker⟩
  | acknowledge exited =>
      exact ⟨⟨sound.guest, sound.received, nofun, fun _ => sound.exited exited,
        sound.acknowledged, sound.accepted, sound.terminated, sound.killed, sound.removed,
        sound.alive, stillOpen exited nofun⟩, sound.worker⟩
  | stray _ other =>
      refine ⟨⟨sound.guest, sound.received, sound.exited, fun member => ?_, sound.acknowledged,
        sound.accepted, sound.terminated, sound.killed, sound.removed, sound.alive,
        sound.gone⟩, sound.worker⟩
      rcases List.mem_append.mp member with earlier | last
      · exact sound.connection earlier
      · exact absurd (List.mem_singleton.mp last).symm other
  | disconnect =>
      exact ⟨⟨sound.guest, sound.received, nofun, sound.connection, sound.acknowledged,
        sound.accepted, sound.terminated, sound.killed, sound.removed, sound.alive,
        fun _ => rfl⟩, sound.worker⟩

theorem Sound.ioStep (sound : request.Sound codes) {action : GuestAction} {guest : Guest}
    (output : action.isOutput = true) (stepped : request.guest.step codes action = some guest) :
    { request with guest := guest }.Sound codes := by
  have kept := Guest.kept_step output stepped
  refine ⟨⟨sound.guest.step stepped, fun received => (sound.received received).mono kept.log,
    sound.exited, sound.connection, sound.acknowledged, sound.accepted, sound.terminated,
    sound.killed, sound.removed, sound.alive,
        sound.gone⟩, ?_⟩
  have before := sound.worker
  change WorkerSound _ request.worker
  cases worker : request.worker with
  | joining complete =>
      rw [worker] at before
      refine ⟨?_, before.2⟩
      cases complete with
      | childWait | writeStatus | ioDone | done =>
          simp only [CompleteSound, kept.statusWritten, kept.statusClosed]
          exact before.1
  | signalMembers | sleep | kill | waitAgain | pollEvents | rmdir | returned =>
      rw [worker] at before
      exact before

/-- A step of a process: members come only from members. -/
theorem Sound.withMembers (sound : request.Sound codes) {members : List Nat} {leader : Leader}
    (empty : request.members ≠ []) (reaped : 0 ∉ request.members → leader = request.leader)
    (alive : 0 ∈ members → leader = .running) :
    { request with members := members, leader := leader }.Sound codes := by
  refine ⟨⟨sound.guest, sound.received, sound.exited, sound.connection, sound.acknowledged,
    sound.accepted, sound.terminated, sound.killed,
    fun removed => absurd (sound.removed removed) empty, alive, sound.gone⟩, ?_⟩
  have before := sound.worker
  have kept : ∀ {code}, request.leader = .reaped code → leader = .reaped code := by
    intro code known
    refine (reaped fun member => ?_).trans known
    exact absurd (known.symm.trans (sound.alive member)) nofun
  change WorkerSound _ request.worker
  cases worker : request.worker with
  | joining complete =>
      rw [worker] at before
      refine ⟨?_, before.2⟩
      cases complete with
      | childWait => exact before.1
      | writeStatus | ioDone | done => exact ⟨kept before.1.1, before.1.2⟩
  | rmdir =>
      rw [worker] at before
      exact absurd before empty
  | signalMembers | sleep | kill | waitAgain | pollEvents | returned =>
      rw [worker] at before
      exact before

theorem Sound.processStep (sound : request.Sound codes) {action : ProcessAction} {after : Request}
    (stepped : request.processStep action = some after) : after.Sound codes := by
  cases processEffect_of_step stepped with
  | fork member _ different =>
      refine sound.withMembers (List.ne_nil_of_mem member) (fun _ => rfl) fun leader => ?_
      rcases List.mem_cons.mp leader with same | earlier
      · exact absurd same (Ne.symm different)
      · exact sound.alive earlier
  | @exit pid code member =>
      refine sound.withMembers (List.ne_nil_of_mem member) (fun absent => ?_) fun leader => ?_
      · exact if_neg fun same : pid = 0 => absent (same ▸ member)
      · obtain ⟨earlier, different⟩ := List.mem_filter.mp leader
        have other : pid ≠ 0 := fun same => (of_decide_eq_true different) same.symm
        rw [if_neg other]
        exact sound.alive earlier

/-! ## Steps of the worker -/

/-- An error of either future, while no acknowledgement was read. -/
theorem Core.cancel (core : request.Core codes) (running : request.removed = false)
    (unacknowledged : request.acknowledgement ≠ some 1) : request.cancel.Sound codes where
  guest := core.guest.step (rfl : request.guest.step codes .closeStatus = some _)
  received := core.received
  exited := core.exited
  connection := core.connection
  acknowledged := core.acknowledged
  accepted := core.accepted
  terminated _ := unacknowledged
  killed _ := rfl
  removed := core.removed
  alive := core.alive
  gone := core.gone
  worker := ⟨rfl, running⟩

/-- The `complete` future moves to its next stage. -/
theorem Core.join (core : request.Core codes) {complete : Complete}
    (running : request.accepted = false ∧ request.terminated = false ∧ request.removed = false ∧
      (request.acknowledgement = none ∨ request.acknowledgement = some 1))
    (stage : (∀ code, complete = .done code → request.acknowledgement = none) →
      request.CompleteSound complete) : (request.join complete).Sound codes := by
  unfold Request.join
  split
  case h_1 acknowledged =>
    exact ⟨⟨core.guest, core.received, core.exited, core.connection, core.acknowledged,
      fun _ => acknowledged, core.terminated, core.killed, core.removed, core.alive, core.gone⟩,
      running.2.2.1⟩
  case h_2 complete _ pending =>
    refine ⟨⟨core.guest, core.received, core.exited, core.connection, core.acknowledged,
      core.accepted, core.terminated, core.killed, core.removed, core.alive, core.gone⟩, ?_,
      running⟩
    have sound := stage fun code same => running.2.2.2.resolve_right (pending code same)
    cases complete <;> exact sound

/-- While the status byte is not written no acknowledgement was read. -/
theorem Core.unacknowledged (core : request.Core codes)
    (unwritten : request.guest.statusWritten = none) : request.acknowledgement ≠ some 1 :=
  fun acknowledged => absurd unwritten
    (core.guest.settled_of_exitSent (core.received (core.acknowledged acknowledged))).1

theorem Sound.completeStep (sound : request.Sound codes) {complete : Complete}
    (joining : request.worker = .joining complete) {failed : Bool} {after : Request}
    (stepped : request.completeStep codes complete failed = some after) : after.Sound codes := by
  have core := sound.toCore
  have before := sound.worker
  rw [joining] at before
  obtain ⟨stage, running⟩ := before
  cases complete with
  | childWait =>
      simp only [Request.completeStep] at stepped
      split_ifs at stepped
      · cases stepped
        exact core.cancel running.2.2.1 (core.unacknowledged stage.1)
      · split at stepped
        case h_1 code exited =>
          cases stepped
          have absent : 0 ∉ request.members := fun member =>
            absurd (exited.symm.trans (core.alive member)) nofun
          have reaped : Core codes { request with leader := .reaped code } :=
            ⟨core.guest, core.received, core.exited, core.connection, core.acknowledged,
              core.accepted, core.terminated, core.killed, core.removed,
              fun member => absurd member absent, core.gone⟩
          exact reaped.join running fun _ => And.intro rfl stage
        case h_2 => cases stepped
  | writeStatus code =>
      simp only [Request.completeStep] at stepped
      split_ifs at stepped
      · split at stepped
        · cases stepped
          exact core.cancel running.2.2.1 (core.unacknowledged stage.2.1)
        · cases stepped
      · obtain ⟨guest, wrote, rfl⟩ := Option.map_eq_some_iff.mp stepped
        obtain ⟨middle, written, closed⟩ := Option.bind_eq_some_iff.mp wrote
        have guestSound := (core.guest.step written).step closed
        have kept : middle.log = request.guest.log ∧ middle.statusWritten = some code := by
          cases Guest.effect_of_step written with
          | writeStatus => exact ⟨rfl, rfl⟩
        cases closed
        have wrote : Core codes
            { request with guest := { middle with statusClosed := true } } :=
          ⟨guestSound, fun received => (core.received received).mono ⟨[], by
              rw [List.append_nil]
              exact kept.1.symm⟩,
            core.exited, core.connection, core.acknowledged, core.accepted, core.terminated,
            core.killed, core.removed, core.alive, core.gone⟩
        exact wrote.join running fun _ => And.intro stage.1 kept.2
  | ioDone code =>
      simp only [Request.completeStep] at stepped
      split_ifs at stepped with finished
      · cases stepped
        exact core.join running fun pending => ⟨stage.1, stage.2, pending code rfl⟩
      · split at stepped
        · cases stepped
          refine core.cancel running.2.2.1 fun acknowledged => finished ?_
          exact (sound.settled_of_acknowledged acknowledged).2
        · cases stepped
  | done code => cases stepped

theorem Sound.acknowledgedStep (sound : request.Sound codes) {complete : Complete}
    (joining : request.worker = .joining complete) {after : Request}
    (stepped : request.acknowledgedStep complete = some after) : after.Sound codes := by
  have core := sound.toCore
  have before := sound.worker
  rw [joining] at before
  obtain ⟨stage, accepted, terminated, removed, _⟩ := before
  simp only [Request.acknowledgedStep] at stepped
  split at stepped
  case h_1 byte rest unread connection =>
    have later : 1 ∈ rest → request.receivedExit = true := fun member =>
      core.connection (connection ▸ List.mem_cons_of_mem _ member)
    split_ifs at stepped with acknowledges
    · subst acknowledges
      have received := core.connection (connection ▸ List.mem_cons_self)
      cases stepped
      have read : Core codes { request with connection := rest, acknowledgement := some 1 } :=
        ⟨core.guest, core.received, core.exited, later, fun _ => received, fun _ => rfl,
          fun cancelled => absurd (terminated.symm.trans cancelled) nofun, core.killed,
          core.removed, core.alive, core.gone⟩
      refine read.join ⟨accepted, terminated, removed, .inr rfl⟩ fun pending => ?_
      cases complete with
      | childWait | writeStatus | ioDone => exact stage
      | done code => exact absurd (pending code rfl) nofun
    · cases stepped
      have other : (some byte : Option Byte) ≠ some 1 := fun same =>
        acknowledges (Option.some.inj same)
      have read : Core codes { request with connection := rest, acknowledgement := some byte } :=
        ⟨core.guest, core.received, core.exited, later, fun same => absurd same other,
          fun same => absurd (accepted.symm.trans same) nofun, fun _ => other, core.killed,
          core.removed, core.alive, core.gone⟩
      exact read.cancel removed other
  case h_2 unread _ =>
    split_ifs at stepped
    cases stepped
    exact core.cancel removed fun same => absurd (unread.symm.trans same) nofun
  case h_3 => cases stepped

/-- The worker goes on. -/
theorem Sound.moved (sound : request.Sound codes) {worker : WorkerPhase}
    (valid : request.WorkerSound worker) : { request with worker := worker }.Sound codes :=
  ⟨⟨sound.guest, sound.received, sound.exited, sound.connection, sound.acknowledged,
    sound.accepted, sound.terminated, sound.killed, sound.removed, sound.alive, sound.gone⟩,
    valid⟩

theorem Sound.workerStep (sound : request.Sound codes) {action : WorkerAction} {after : Request}
    (stepped : request.workerStep codes action = some after) : after.Sound codes := by
  have before := sound.worker
  cases workerEffect_of_step stepped with
  | complete joining stepped => exact sound.completeStep joining stepped
  | acknowledged joining stepped => exact sound.acknowledgedStep joining stepped
  | moved move =>
      apply sound.moved
      cases here : request.worker <;> rw [here] at before move <;> cases move
      case signalMembers.signalled | sleep.slept => exact before
      case waitAgain.unwaited => exact before.2
      case kill.unkilled | pollEvents.unpolled | rmdir.unremoved => trivial
  | kill here =>
      rw [here] at before
      exact ⟨⟨sound.guest, sound.received, sound.exited, sound.connection, sound.acknowledged,
        sound.accepted, sound.terminated, fun _ => before.1, fun _ => rfl, nofun,
        sound.gone⟩, before⟩
  | waited here ended =>
      rw [here] at before
      have reaped : 0 ∉ request.members := by
        intro member
        have running := sound.alive member
        rcases ended with ended | ended
        · exact absurd (running.symm.trans ended) nofun
        · exact absurd (running.symm.trans ended) nofun
      exact ⟨⟨sound.guest, sound.received, sound.exited, sound.connection, sound.acknowledged,
        sound.accepted, sound.terminated, sound.killed, sound.removed,
        fun member => absurd member reaped, sound.gone⟩, before.2⟩
  | populated => exact sound
  | emptied _ empty => exact sound.moved empty
  | removed here =>
      rw [here] at before
      exact ⟨⟨sound.guest, sound.received, sound.exited, sound.connection, sound.acknowledged,
        sound.accepted, sound.terminated, sound.killed, fun _ => before, sound.alive,
        sound.gone⟩, trivial⟩

theorem Sound.step (sound : request.Sound codes) {action : RequestAction} {after : Request}
    (stepped : request.step codes action = some after) : after.Sound codes := by
  cases action with
  | client action => exact sound.clientStep stepped
  | io action =>
      simp only [Request.step, Option.ite_none_right_eq_some, Option.map_eq_some_iff] at stepped
      obtain ⟨output, guest, moved, rfl⟩ := stepped
      exact sound.ioStep output moved
  | process action => exact sound.processStep stepped
  | worker action => exact sound.workerStep stepped

theorem sound_of_reachable {tty : Bool}
    (reachable : (waitForChild codes).Reachable (start tty) request) : request.Sound codes :=
  reachable.invariant (Request.Sound codes) (start_sound codes tty)
    fun _ _ _ sound stepped => Sound.step sound stepped

/-- The steps the `complete` future may still take. -/
def stagesLeft (request : Request) : Nat :=
  match request.worker with
  | .joining .childWait => 3
  | .joining (.writeStatus _) => 2
  | .joining (.ioDone _) => 1
  | _ => 0

theorem join_members (request : Request) (complete : Complete) :
    (request.join complete).members = request.members := by
  unfold join
  split <;> rfl

theorem join_terminated (request : Request) (complete : Complete) :
    (request.join complete).terminated = request.terminated := by
  unfold join
  split <;> rfl

/-- What the `complete` future does: it fails, or goes on with another stage. -/
theorem completeStep_cases {complete : Complete} {failed : Bool} {after : Request}
    (stepped : request.completeStep codes complete failed = some after) :
    after = request.cancel ∨ ∃ (leader : Leader) (guest : Guest) (next : Complete),
      after = { request with leader := leader, guest := guest }.join next ∧
      stagesLeft { request with worker := .joining next } <
        stagesLeft { request with worker := .joining complete } := by
  cases complete with
  | childWait =>
      simp only [Request.completeStep] at stepped
      split_ifs at stepped
      · exact .inl (Option.some.inj stepped).symm
      · split at stepped
        · exact .inr ⟨_, request.guest, _, (Option.some.inj stepped).symm, Nat.lt_succ_self 2⟩
        · cases stepped
  | writeStatus code =>
      simp only [Request.completeStep] at stepped
      split_ifs at stepped
      · split at stepped
        · exact .inl (Option.some.inj stepped).symm
        · cases stepped
      · obtain ⟨guest, _, rfl⟩ := Option.map_eq_some_iff.mp stepped
        exact .inr ⟨request.leader, guest, _, rfl, Nat.lt_succ_self 1⟩
  | ioDone code =>
      simp only [Request.completeStep] at stepped
      split_ifs at stepped
      · exact .inr ⟨request.leader, request.guest, _, (Option.some.inj stepped).symm,
          Nat.lt_succ_self 0⟩
      · split at stepped
        · exact .inl (Option.some.inj stepped).symm
        · cases stepped
  | done code => cases stepped

/-- What the `acknowledged` future does. -/
theorem acknowledgedStep_cases {complete : Complete} {after : Request}
    (stepped : request.acknowledgedStep complete = some after) :
    ∃ connection acknowledgement,
      let read := { request with connection := connection, acknowledgement := acknowledgement }
      after = read.join complete ∨ after = read.cancel := by
  simp only [Request.acknowledgedStep] at stepped
  split at stepped
  case h_1 byte rest _ _ =>
    split_ifs at stepped
    · exact ⟨_, _, .inl (Option.some.inj stepped).symm⟩
    · exact ⟨_, _, .inr (Option.some.inj stepped).symm⟩
  case h_2 =>
    split_ifs at stepped
    exact ⟨_, _, .inr (Option.some.inj stepped).symm⟩
  case h_3 => cases stepped

/-- Only `cgroup.kill` takes members away. -/
theorem members_workerStep {action : WorkerAction} {after : Request}
    (stepped : request.workerStep codes action = some after) :
    after.members = request.members ∨ request.worker = .kill := by
  cases workerEffect_of_step stepped with
  | complete _ stepped =>
      rcases completeStep_cases stepped with rfl | ⟨_, _, _, rfl, _⟩
      · exact .inl rfl
      · exact .inl (join_members ..)
  | acknowledged _ stepped =>
      obtain ⟨_, _, rfl | rfl⟩ := acknowledgedStep_cases stepped
      · exact .inl (join_members ..)
      · exact .inl rfl
  | kill here => exact .inr here
  | moved | waited | populated | emptied | removed => exact .inl rfl

/-! ## Requests without an acknowledgement -/

/-- The worker still waits for the acknowledgement, and what comes next on the
connection is its end or another byte. -/
def Unacknowledged (request : Request) : Prop :=
  (∃ complete, request.worker = .joining complete) ∧ request.acknowledgement = none ∧
    (match request.connection with
      | [] => request.closed = true
      | byte :: _ => byte ≠ 1)

/-- Reading what comes next on the connection is possible and leads to `terminate`. -/
theorem Unacknowledged.cancels (codes : GuestOpcodes) (unacknowledged : request.Unacknowledged) :
    ∃ after, request.workerStep codes .acknowledged = some after ∧ after.terminated = true := by
  obtain ⟨⟨complete, joining⟩, unread, next⟩ := unacknowledged
  simp only [workerStep, joining, acknowledgedStep, unread]
  cases connection : request.connection with
  | nil =>
      rw [connection] at next
      exact ⟨_, if_pos next, rfl⟩
  | cons byte rest =>
      rw [connection] at next
      exact ⟨_, if_neg next, rfl⟩

/-- A step that is not the worker's leaves the request unacknowledged: the client
can only add to the connection while it is open. -/
theorem Unacknowledged.extend (unacknowledged : request.Unacknowledged) {after : Request}
    (worker : after.worker = request.worker)
    (acknowledgement : after.acknowledgement = request.acknowledgement)
    (connection : request.connection <+: after.connection)
    (closed : request.closed = true →
      after.closed = true ∧ after.connection = request.connection) :
    after.Unacknowledged ∧ after.stagesLeft ≤ request.stagesLeft := by
  obtain ⟨⟨complete, joining⟩, unread, next⟩ := unacknowledged
  refine ⟨⟨⟨complete, worker.trans joining⟩, acknowledgement.trans unread, ?_⟩, ?_⟩
  · obtain ⟨more, same⟩ := connection
    cases before : request.connection with
    | nil =>
        rw [before] at next
        obtain ⟨ended, kept⟩ := closed next
        rw [kept, before]
        exact ended
    | cons byte rest =>
        rw [before] at next
        rw [← same, before]
        exact next
  · apply Nat.le_of_eq
    unfold stagesLeft
    rw [worker]

theorem Unacknowledged.clientStep (sound : request.Sound codes)
    (unacknowledged : request.Unacknowledged) {action : ClientAction} {after : Request}
    (stepped : request.clientStep codes action = some after) :
    after.Unacknowledged ∧ after.stagesLeft ≤ request.stagesLeft := by
  cases clientEffect_of_step stepped with
  | ok | receive | exit =>
      exact unacknowledged.extend rfl rfl (List.prefix_refl _) fun closed => ⟨closed, rfl⟩
  | acknowledge exited =>
      refine unacknowledged.extend rfl rfl (List.prefix_append _ _) fun closed => ?_
      exact absurd (exited.symm.trans (sound.gone closed)) nofun
  | stray stillOpen =>
      refine unacknowledged.extend rfl rfl (List.prefix_append _ _) fun closed => ?_
      exact absurd (stillOpen.symm.trans closed) nofun
  | disconnect =>
      exact unacknowledged.extend rfl rfl (List.prefix_refl _) fun _ => ⟨rfl, rfl⟩

/-- While nothing was read of the connection, a stage of `complete` only goes on. -/
theorem join_of_unread (request : Request) (unread : request.acknowledgement = none)
    (complete : Complete) :
    request.join complete = { request with worker := .joining complete } := by
  unfold join
  split
  case h_1 read => exact absurd (unread.symm.trans read) nofun
  case h_2 => rfl

theorem Unacknowledged.workerStep (unacknowledged : request.Unacknowledged)
    {action : WorkerAction} {after : Request}
    (stepped : request.workerStep codes action = some after) :
    after.terminated = true ∨
      (after.Unacknowledged ∧ after.stagesLeft < request.stagesLeft) := by
  have cancels := unacknowledged.cancels codes
  obtain ⟨⟨complete, joining⟩, unread, next⟩ := unacknowledged
  cases action with
  | complete failed =>
      simp only [Request.workerStep, joining] at stepped
      rcases completeStep_cases stepped with rfl | ⟨leader, guest, later, rfl, lower⟩
      · exact .inl rfl
      · right
        rw [join_of_unread { request with leader := leader, guest := guest } unread]
        have same : { request with worker := .joining complete } = request := by rw [← joining]
        rw [same] at lower
        exact ⟨⟨⟨later, rfl⟩, unread, next⟩, lower⟩
  | acknowledged =>
      obtain ⟨cancelled, enabled, terminated⟩ := cancels
      rw [stepped] at enabled
      cases enabled
      exact .inl terminated
  | terminate | waitAgain | remove =>
      simp only [Request.workerStep, joining, reduceCtorEq] at stepped

/-- `terminate` is never taken back. -/
theorem terminated_step {action : RequestAction} {after : Request}
    (terminated : request.terminated = true) (stepped : request.step codes action = some after) :
    after.terminated = true := by
  cases action with
  | client action => cases clientEffect_of_step stepped <;> exact terminated
  | io action =>
      simp only [Request.step, Option.ite_none_right_eq_some, Option.map_eq_some_iff] at stepped
      obtain ⟨_, guest, _, rfl⟩ := stepped
      exact terminated
  | process action => cases processEffect_of_step stepped <;> exact terminated
  | worker action =>
      cases workerEffect_of_step stepped with
      | complete _ stepped =>
          rcases completeStep_cases stepped with rfl | ⟨_, _, _, rfl, _⟩
          · rfl
          · exact (join_terminated ..).trans terminated
      | acknowledged _ stepped =>
          obtain ⟨_, _, rfl | rfl⟩ := acknowledgedStep_cases stepped
          · exact (join_terminated ..).trans terminated
          · rfl
      | moved | kill | waited | populated | emptied | removed => exact terminated

/-- A step keeps a request unacknowledged or calls `terminate`, and a step of the
worker lowers what `complete` may still do. -/
theorem Unacknowledged.step (sound : request.Sound codes)
    (unacknowledged : request.Unacknowledged) {action : RequestAction} {after : Request}
    (stepped : request.step codes action = some after) :
    after.terminated = true ∨ (after.Unacknowledged ∧ after.stagesLeft ≤ request.stagesLeft ∧
      (action.isWorker = true → after.stagesLeft < request.stagesLeft)) := by
  cases action with
  | client action =>
      obtain ⟨still, bound⟩ := unacknowledged.clientStep sound stepped
      exact .inr ⟨still, bound, nofun⟩
  | io action =>
      simp only [Request.step, Option.ite_none_right_eq_some, Option.map_eq_some_iff] at stepped
      obtain ⟨_, guest, _, rfl⟩ := stepped
      have kept : Unacknowledged { request with guest := guest } ∧
          stagesLeft { request with guest := guest } ≤ request.stagesLeft :=
        unacknowledged.extend rfl rfl (List.prefix_refl _) fun closed => ⟨closed, rfl⟩
      exact .inr ⟨kept.1, kept.2, nofun⟩
  | process action =>
      have same : after.worker = request.worker ∧
          after.acknowledgement = request.acknowledgement ∧
          after.connection = request.connection ∧ after.closed = request.closed := by
        cases processEffect_of_step stepped <;> exact ⟨rfl, rfl, rfl, rfl⟩
      obtain ⟨worker, acknowledgement, connection, closed⟩ := same
      obtain ⟨still, bound⟩ := unacknowledged.extend worker acknowledgement
        (connection ▸ List.prefix_refl _) fun ended => ⟨closed.trans ended, connection⟩
      exact .inr ⟨still, bound, nofun⟩
  | worker action =>
      rcases unacknowledged.workerStep stepped with cancelled | ⟨still, lower⟩
      · exact .inl cancelled
      · exact .inr ⟨still, Nat.le_of_lt lower, fun _ => lower⟩

/-- Nothing that follows makes an unacknowledged request succeed, and after the
worker's next four steps it was terminated. -/
theorem Unacknowledged.run (sound : request.Sound codes)
    (unacknowledged : request.Unacknowledged) {actions : List RequestAction} {final : Request}
    (executed : (waitForChild codes).run request actions = some final) :
    final.accepted = false ∧
      (4 ≤ actions.countP RequestAction.isWorker → final.terminated = true) := by
  have kept : ∀ (before : Request) (action : RequestAction) (after : Request),
      (before.Sound codes ∧ (before.Unacknowledged ∨ before.terminated = true)) →
      (waitForChild codes).step before action = some after →
      after.Sound codes ∧ (after.Unacknowledged ∨ after.terminated = true) := by
    intro before action after ⟨valid, pending⟩ stepped
    refine ⟨valid.step stepped, ?_⟩
    rcases pending with still | terminated
    · rcases still.step valid stepped with terminated | ⟨still, _⟩
      · exact .inr terminated
      · exact .inl still
    · exact .inr (terminated_step terminated stepped)
  constructor
  · obtain ⟨valid, pending⟩ := (Machine.Run.of_run executed).invariant
      (fun request => request.Sound codes ∧ (request.Unacknowledged ∨ request.terminated = true))
      ⟨sound, .inl unacknowledged⟩ fun before action after valid _ => kept before action after valid
    cases accepted : final.accepted with
    | false => rfl
    | true =>
        have read := valid.accepted accepted
        rcases pending with ⟨_, unread, _⟩ | terminated
        · exact absurd (unread.symm.trans read) nofun
        · exact absurd read (valid.terminated terminated)
  · intro enough
    have bound : request.stagesLeft ≤ 3 := by
      unfold stagesLeft
      split <;> omega
    have stable : ∀ before action after, before.terminated = true →
        (waitForChild codes).step before action = some after → after.terminated = true :=
      fun _ _ _ terminated stepped => terminated_step terminated stepped
    refine Machine.run_reaches_of_measure
      (fun request => request.Sound codes ∧
        (request.Unacknowledged ∨ request.terminated = true))
      (fun request => request.terminated = true) RequestAction.isWorker stagesLeft kept
      (fun before action after _ => stable before action after) ?_ ?_ actions request final
      ⟨sound, .inl unacknowledged⟩ executed (by omega)
    · intro before action after ⟨valid, pending⟩ running stepped mine
      rcases (pending.resolve_right running).step valid stepped with done | ⟨_, _, lower⟩
      · exact .inl done
      · exact .inr (lower mine)
    · intro before action after ⟨valid, pending⟩ running stepped _
      rcases (pending.resolve_right running).step valid stepped with done | ⟨_, bound, _⟩
      · exact .inl done
      · exact .inr bound

end Request

/-- **Request lifetime.** In every state any interleaving reaches: success means that
the client had read the exit packet and its acknowledgement was read; from the
acknowledgement on nothing is terminated and the worker leaves the processes
alone; an end of the connection or another byte before it leads to `terminate`,
whatever follows; and a removed cgroup has no members. -/
theorem waitForChild_lifetime (codes : GuestOpcodes) (tty : Bool) (request : Request)
    (reachable : (waitForChild codes).Reachable (.start tty) request) :
    (request.accepted = true → request.receivedExit = true ∧ request.acknowledgement = some 1 ∧
      request.terminated = false ∧ request.killed = false) ∧
    (request.acknowledgement = some 1 → request.terminated = false ∧ request.killed = false ∧
      ∀ action after, request.step codes (.worker action) = some after →
        after.members = request.members) ∧
    (request.Unacknowledged →
      (∃ after, request.step codes (.worker .acknowledged) = some after ∧
        after.terminated = true) ∧
      ∀ actions final, (waitForChild codes).run request actions = some final →
        final.accepted = false ∧
          (4 ≤ actions.countP RequestAction.isWorker → final.terminated = true)) ∧
    (request.removed = true → request.members = []) := by
  have sound := Request.sound_of_reachable reachable
  have spared : request.acknowledgement = some 1 →
      request.terminated = false ∧ request.killed = false := by
    intro acknowledged
    have running : request.terminated = false :=
      Bool.eq_false_iff.mpr fun terminated => sound.terminated terminated acknowledged
    exact ⟨running, Bool.eq_false_iff.mpr fun killed =>
      absurd (running.symm.trans (sound.killed killed)) nofun⟩
  refine ⟨fun accepted => ?_, fun acknowledged => ?_, fun unacknowledged => ?_, sound.removed⟩
  · have acknowledged := sound.accepted accepted
    exact ⟨sound.acknowledged acknowledged, acknowledged, spared acknowledged⟩
  · refine ⟨(spared acknowledged).1, (spared acknowledged).2, fun action after stepped => ?_⟩
    refine (Request.members_workerStep stepped).resolve_right fun killing => ?_
    have worker := sound.worker
    rw [killing] at worker
    exact sound.terminated worker.1 acknowledged
  · exact ⟨unacknowledged.cancels codes, fun _ _ executed => unacknowledged.run sound executed⟩

/-- The child leaves a daemon behind, and the client acknowledges its exit. -/
def sampleLifetime : List RequestAction :=
  [.client .ok, .process (.fork 0 7), .process (.exit 0 3), .io (.hangUp .stdout),
    .io (.hangUp .stderr), .worker (.complete false), .worker (.complete false),
    .io (.poll .stopPipe ⟨true, true⟩), .io (.read (.bytes 1)), .io (.handle true),
    .io (.poll (.output .stdout) ⟨false, true⟩), .io (.handle true),
    .io (.poll (.output .stderr) ⟨false, true⟩), .io (.handle true), .io .report,
    .io (.exit true), .client .receive, .client .acknowledge, .client .disconnect,
    .worker .acknowledged, .worker (.complete false), .worker (.remove false)]

theorem waitForChild_lifetime_sample : ∃ request,
    (waitForChild sampleCodes).run (.start false) sampleLifetime = some request ∧
    request.accepted = true ∧ request.members = [7] ∧ request.receivedExit = true ∧
    request.killed = false :=
  have done := waitForChild_lifetime sampleCodes false _ ⟨sampleLifetime, rfl⟩
  ⟨_, rfl, rfl, rfl, (done.1 rfl).1, (done.1 rfl).2.2.2⟩

end X86OnArm.Muvm
