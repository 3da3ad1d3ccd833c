import X86OnArm.Runtime.ColdStart
import Mathlib.Data.List.Basic
import Mathlib.Tactic.Common

/-! # Runs of cold starts

`ensure` returns only after an answered probe and never starts a second instance.
It raises without a cause exactly where `systemd-run` is reached while the unit
is active, which takes an abandoned start or a probe that was not answered in
time. The main results are `ensure_honoured_iff` and `calm_of_undisturbed`.
-/

namespace X86OnArm.Runtime

open Foundation

theorem answered_concat {log : List ColdStartEvent} {event : ColdStartEvent} :
    Answered (log ++ [event]) ↔
      Answered log ∧ ∀ client, event = .returned client → .probe client true ∈ log := by
  constructor
  · intro answered
    refine ⟨fun before client after split => ?_, fun client same => ?_⟩
    · refine answered before client (after ++ [event]) ?_
      rw [split, List.append_assoc, List.cons_append]
    · exact answered log client [] (by rw [same])
  · rintro ⟨answered, last⟩ before client after split
    rcases List.eq_nil_or_concat after with rfl | ⟨earlier, final, rfl⟩
    · obtain ⟨rfl, same⟩ := List.append_inj' split rfl
      exact last client (List.cons.inj same).1
    · rw [List.concat_eq_append, ← List.cons_append, ← List.append_assoc] at split
      obtain ⟨same, _⟩ := List.append_inj' split rfl
      exact answered before client earlier same

namespace ColdStart

/-- The number of instances a state of the name stands for. -/
def instances : UnitState → Nat
  | .active _ | .deactivating => 1
  | .absent | .failed => 0

theorem instances_le_one (unit : UnitState) : instances unit ≤ 1 := by
  cases unit with
  | active | deactivating => exact Nat.le_refl 1
  | absent | failed => exact Nat.zero_le 1

/-- What every step keeps. -/
structure Sound (state : ColdStart) : Prop where
  returning : ∀ client, state.point client = .returning → .probe client true ∈ state.log
  returned : Answered state.log
  running : state.running.length = instances state.unit

theorem Sound.single {state : ColdStart} (sound : state.Sound) : state.running.length ≤ 1 := by
  rw [sound.running]
  exact instances_le_one _

theorem start_sound : start.Sound where
  returning := nofun
  returned before client after split := by
    cases (List.append_eq_nil_iff.mp split.symm).2
  running := rfl

variable {state after : ColdStart}

theorem point_move_self (client : Nat) (point : EnsurePoint) :
    (state.move client point).point client = point := Function.update_self ..

theorem point_move_of_ne {client other : Nat} (different : other ≠ client)
    (point : EnsurePoint) : (state.move client point).point other = state.point other :=
  Function.update_of_ne different ..

theorem Sound.moved (sound : state.Sound) (client : Nat) {point : EnsurePoint}
    (elsewhere : point ≠ .returning) :
    ∀ other, (state.move client point).point other = .returning →
      .probe other true ∈ state.log := by
  intro other returning
  by_cases same : other = client
  · subst same
    exact absurd ((point_move_self ..).symm.trans returning) elsewhere
  · exact sound.returning other ((point_move_of_ne same _).symm.trans returning)

/-- What a step can do, branch by branch. -/
inductive ColdStartEffect (state : ColdStart) : ColdStartAction → ColdStart → Prop where
  | enter {client : Nat} (here : state.point client = .outside) :
      ColdStartEffect state (.enter client) (state.move client .flock)
  | flock {client : Nat} (here : state.point client = .flock) (free : state.lock = none) :
      ColdStartEffect state (.flock client)
        { state.move client .firstReady with lock := some client }
  | firstProbe {client : Nat} {answered : Bool} {after : ColdStart}
      (here : state.point client = .firstReady)
      (probed : state.probe client answered .resetFailed = some after) :
      ColdStartEffect state (.probe client answered) after
  | probe {client deadline checkAfter : Nat} {answered : Bool} {after : ColdStart}
      (here : state.point client = .ready deadline checkAfter)
      (probed : state.probe client answered (.check deadline checkAfter) = some after) :
      ColdStartEffect state (.probe client answered) after
  | resetFailed {client : Nat} (here : state.point client = .resetFailed) :
      ColdStartEffect state (.resetFailed client)
        { state.move client .systemdRun with
          unit := if state.unit = .failed then .absent else state.unit }
  | systemdRun {client : Nat} (here : state.point client = .systemdRun)
      (absent : state.unit = .absent) :
      ColdStartEffect state (.systemdRun client)
        { state.move client (.loop (state.now + 45000) (state.now + 1000)) with
          unit := .active false
          running := state.started :: state.running
          started := state.started + 1 }
  | refused {client : Nat} (here : state.point client = .systemdRun)
      (loaded : state.unit ≠ .absent) :
      ColdStartEffect state (.systemdRun client) (state.raise client (.refused state.unit))
  | loop {client deadline checkAfter : Nat}
      (here : state.point client = .loop deadline checkAfter) (early : state.now < deadline) :
      ColdStartEffect state (.loop client) (state.move client (.ready deadline checkAfter))
  | deadline {client deadline checkAfter : Nat}
      (here : state.point client = .loop deadline checkAfter) (late : deadline ≤ state.now) :
      ColdStartEffect state (.loop client) (state.raise client (.deadline state.now deadline))
  | check {client deadline checkAfter : Nat}
      (here : state.point client = .check deadline checkAfter) (due : checkAfter ≤ state.now) :
      ColdStartEffect state (.check client) (state.move client (.isActive deadline))
  | wait {client deadline checkAfter : Nat}
      (here : state.point client = .check deadline checkAfter) (early : state.now < checkAfter) :
      ColdStartEffect state (.check client) (state.move client (.loop deadline checkAfter))
  | isActive {client deadline : Nat} (here : state.point client = .isActive deadline)
      (active : state.unit.isActive = true) :
      ColdStartEffect state (.isActive client)
        (state.move client (.loop deadline (state.now + 1000)))
  | exited {client deadline : Nat} (here : state.point client = .isActive deadline)
      (inactive : state.unit.isActive = false) :
      ColdStartEffect state (.isActive client) (state.raise client (.exited state.unit))
  | «return» {client : Nat} (here : state.point client = .returning) :
      ColdStartEffect state (.return client) (state.leave client [.returned client])
  | interrupt {client : Nat}
      (inside : state.point client ≠ .outside ∧ state.point client ≠ .left) :
      ColdStartEffect state (.interrupt client) (state.leave client [])
  | becomeReady (starting : state.unit = .active false) :
      ColdStartEffect state .becomeReady { state with unit := .active true }
  | exit {failing : Bool} (loaded : state.unit.isActive ∨ state.unit = .deactivating) :
      ColdStartEffect state (.exit failing)
        { state with
          unit := if failing then .failed else .absent
          running := state.running.drop 1 }
  | stop (active : state.unit.isActive) :
      ColdStartEffect state .stop { state with unit := .deactivating }
  | collect (failed : state.unit = .failed) :
      ColdStartEffect state .collect { state with unit := .absent }
  | tick {time : Nat} :
      ColdStartEffect state (.tick time) { state with now := state.now + time }

theorem effect_of_step {action : ColdStartAction} (stepped : state.step action = some after) :
    ColdStartEffect state action after := by
  cases action <;>
    simp only [ColdStart.step, Option.ite_none_right_eq_some, Option.some.injEq] at stepped
  case enter client =>
    obtain ⟨here, rfl⟩ := stepped
    exact .enter here
  case flock client =>
    obtain ⟨⟨here, free⟩, rfl⟩ := stepped
    exact .flock here free
  case probe client answered =>
    split at stepped
    case h_1 here => exact .firstProbe here stepped
    case h_2 here => exact .probe here stepped
    case h_3 => cases stepped
  case resetFailed client =>
    obtain ⟨here, rfl⟩ := stepped
    exact .resetFailed here
  case systemdRun client =>
    obtain ⟨here, stepped⟩ := stepped
    split_ifs at stepped with absent <;> cases stepped
    · exact .systemdRun here absent
    · exact .refused here absent
  case loop client =>
    split at stepped
    case h_1 here =>
      split_ifs at stepped with early <;> cases stepped
      · exact .loop here early
      · exact .deadline here (Nat.le_of_not_lt early)
    case h_2 => cases stepped
  case check client =>
    split at stepped
    case h_1 here =>
      split_ifs at stepped with due <;> cases stepped
      · exact .check here due
      · exact .wait here (Nat.lt_of_not_le due)
    case h_2 => cases stepped
  case isActive client =>
    split at stepped
    case h_1 here =>
      split_ifs at stepped with active <;> cases stepped
      · exact .isActive here active
      · exact .exited here (eq_false_of_ne_true active)
    case h_2 => cases stepped
  case «return» client =>
    obtain ⟨here, rfl⟩ := stepped
    exact .return here
  case interrupt client =>
    obtain ⟨inside, rfl⟩ := stepped
    exact .interrupt inside
  case becomeReady =>
    obtain ⟨starting, rfl⟩ := stepped
    exact .becomeReady starting
  case exit failing =>
    obtain ⟨loaded, rfl⟩ := stepped
    exact .exit loaded
  case stop =>
    obtain ⟨active, rfl⟩ := stepped
    exact .stop active
  case collect =>
    obtain ⟨failed, rfl⟩ := stepped
    exact .collect failed
  case tick time =>
    subst stepped
    exact .tick

/-- What a step adds to the log. -/
inductive Logged (state : ColdStart) (action : ColdStartAction) : List ColdStartEvent → Prop where
  | nothing : Logged state action []
  | probe (client : Nat) (answered : Bool) : Logged state action [.probe client answered]
  | returned (client : Nat) (returning : state.point client = .returning) :
      Logged state action [.returned client]
  | raised (client : Nat) (reason : Reason) (legitimate : reason.legitimate = true) :
      Logged state action [.raised client reason]
  | refused (client : Nat) (same : action = .systemdRun client) :
      Logged state action [.raised client (.refused state.unit)]

theorem Sound.leave (sound : state.Sound) (client : Nat) {events : List ColdStartEvent}
    {action : ColdStartAction} (logged : Logged state action events) :
    (state.leave client events).Sound := by
  have kept : ∀ other, (state.leave client events).point other = .returning →
      .probe other true ∈ state.log ++ events := fun other returning =>
    List.mem_append_left _ (sound.moved client EnsurePoint.noConfusion other returning)
  refine ⟨kept, ?_, sound.running⟩
  change Answered (state.log ++ events)
  cases logged with
  | nothing =>
      rw [List.append_nil]
      exact sound.returned
  | probe | raised | refused => exact answered_concat.mpr ⟨sound.returned, nofun⟩
  | returned other returning =>
      refine answered_concat.mpr ⟨sound.returned, fun same equal => ?_⟩
      cases equal
      exact sound.returning other returning

/-- A probe, whatever its answer. -/
theorem Sound.probe (sound : state.Sound) {client : Nat} {answered : Bool}
    {otherwise : EnsurePoint} (probed : state.probe client answered otherwise = some after)
    (elsewhere : otherwise ≠ .returning) :
    after.Sound ∧ after.log = state.log ++ [.probe client answered] := by
  simp only [ColdStart.probe, Option.ite_none_left_eq_some, Option.some.injEq] at probed
  obtain ⟨_, rfl⟩ := probed
  refine ⟨⟨fun other returning => ?_, answered_concat.mpr ⟨sound.returned, nofun⟩,
    sound.running⟩, rfl⟩
  by_cases same : other = client
  · subst same
    cases answered with
    | true => exact List.mem_append_right _ (List.mem_singleton_self _)
    | false => exact absurd ((point_move_self ..).symm.trans returning) elsewhere
  · refine List.mem_append_left _ (sound.returning other ?_)
    exact (point_move_of_ne same _).symm.trans returning

/-- A step that writes nothing. -/
theorem Sound.quiet (sound : state.Sound) {action : ColdStartAction}
    (points : ∀ client, after.point client = .returning → .probe client true ∈ state.log)
    (log : after.log = state.log) (running : after.running.length = instances after.unit) :
    after.Sound ∧ ∃ events, Logged state action events ∧ after.log = state.log ++ events :=
  ⟨⟨log ▸ points, log ▸ sound.returned, running⟩, [], .nothing, by rw [log, List.append_nil]⟩

/-- A client leaves the `with` block. -/
theorem Sound.left (sound : state.Sound) (client : Nat) {action : ColdStartAction}
    {events : List ColdStartEvent} (logged : Logged state action events) :
    (state.leave client events).Sound ∧ ∃ added, Logged state action added ∧
      (state.leave client events).log = state.log ++ added :=
  ⟨sound.leave client logged, events, logged, rfl⟩

/-- What a step keeps, and what it adds to the log. -/
theorem Sound.step (sound : state.Sound) {action : ColdStartAction}
    (stepped : state.step action = some after) :
    after.Sound ∧ ∃ events, Logged state action events ∧ after.log = state.log ++ events := by
  have running := sound.running
  cases effect_of_step stepped with
  | enter | flock | loop | check | wait | isActive =>
      exact sound.quiet (sound.moved _ nofun) rfl running
  | firstProbe _ probed | probe _ probed =>
      obtain ⟨valid, log⟩ := sound.probe probed nofun
      exact ⟨valid, _, .probe _ _, log⟩
  | resetFailed =>
      refine sound.quiet (sound.moved _ nofun) rfl ?_
      dsimp only
      split_ifs with failed
      · rw [failed] at running
        exact running
      · exact running
  | systemdRun _ absent =>
      refine sound.quiet (sound.moved _ nofun) rfl ?_
      rw [absent] at running
      exact congrArg (· + 1) running
  | refused => exact sound.left _ (.refused _ rfl)
  | deadline _ late => exact sound.left _ (.raised _ _ (decide_eq_true late))
  | exited _ inactive =>
      refine sound.left _ (.raised _ _ ?_)
      rw [Reason.legitimate, inactive]
      rfl
  | «return» returning => exact sound.left _ (.returned _ returning)
  | interrupt => exact sound.left _ .nothing
  | becomeReady starting =>
      rw [starting] at running
      exact sound.quiet sound.returning rfl running
  | @exit failing loaded =>
      refine sound.quiet sound.returning rfl ?_
      have one : state.running.length = 1 := by
        rw [running]
        cases unit : state.unit with
        | active | deactivating => rfl
        | absent | failed =>
            rw [unit] at loaded
            rcases loaded with impossible | impossible <;> cases impossible
      rw [List.length_drop, one]
      cases failing <;> rfl
  | stop active =>
      refine sound.quiet sound.returning rfl (running.trans ?_)
      cases unit : state.unit with
      | active | deactivating => rfl
      | absent | failed =>
          rw [unit] at active
          cases active
  | collect failed =>
      rw [failed] at running
      exact sound.quiet sound.returning rfl running
  | tick => exact sound.quiet sound.returning rfl running

theorem sound_of_reachable (reachable : ensure.Reachable .start state) : state.Sound :=
  reachable.invariant Sound start_sound fun _ _ _ sound stepped => (Sound.step sound stepped).1

/-- A refused client is at `systemd-run`. -/
theorem refused_of_active {client : Nat} (active : state.unit.isActive = true)
    (stepped : state.step (.systemdRun client) = some after) :
    after.log = state.log ++ [.raised client (.refused state.unit)] := by
  cases effect_of_step stepped with
  | systemdRun _ absent =>
      rw [absent] at active
      cases active
  | refused => rfl

end ColdStart

namespace ColdStart

variable {before after : ColdStart} {action : ColdStartAction}

/-- What was owed before a step that wrote to the log was owed too. -/
theorem Honoured.of_step (sound : before.Sound) {events : List ColdStartEvent}
    (log : after.log = before.log ++ events) (honoured : after.Honoured) : before.Honoured where
  returned := sound.returned
  single := sound.single
  raised client reason member :=
    honoured.raised client reason (log ▸ List.mem_append_left _ member)

/-- A step that is not calm breaks what is owed. -/
theorem calm_of_honoured (stepped : before.step action = some after)
    (honoured : after.Honoured) : before.Calm action := by
  cases action with
  | systemdRun client =>
      refine Bool.eq_false_iff.mpr fun active => ?_
      have legitimate := honoured.raised client (.refused before.unit)
        (refused_of_active active stepped ▸ List.mem_append_right _ (List.mem_singleton_self _))
      rw [Reason.legitimate, active] at legitimate
      cases legitimate
  | enter | flock | probe | resetFailed | loop | check | isActive | «return» | interrupt
  | becomeReady | exit | stop | collect | tick => trivial

/-- A calm step raises only with a cause. -/
theorem Honoured.step (sound : before.Sound) (honoured : before.Honoured)
    (calm : before.Calm action) (stepped : before.step action = some after) :
    after.Honoured := by
  obtain ⟨valid, events, logged, log⟩ := sound.step stepped
  refine ⟨valid.returned, valid.single,
    fun client reason member => ?_⟩
  rw [log] at member
  rcases List.mem_append.mp member with earlier | last
  · exact honoured.raised client reason earlier
  · cases logged with
    | nothing => cases last
    | probe | returned => cases List.mem_singleton.mp last
    | raised other cause legitimate =>
        cases List.mem_singleton.mp last
        exact legitimate
    | refused other same =>
        subst same
        cases List.mem_singleton.mp last
        have inactive : before.unit.isActive = false := calm
        rw [Reason.legitimate, inactive]
        rfl

end ColdStart

/-- **Cold starts.** A run honours what `ensure` owes exactly when no step of it takes
`systemd-run` while the unit is active. -/
theorem ensure_honoured_iff (actions : List ColdStartAction) (state : ColdStart)
    (executed : ensure.run .start actions = some state) :
    state.Honoured ↔ ensure.Run ColdStart.Calm .start actions state := by
  constructor
  · intro honoured
    induction actions using List.reverseRecOn generalizing state with
    | nil =>
        cases executed
        exact .nil
    | append_singleton actions action ih =>
        obtain ⟨before, earlier, stepped⟩ := Machine.run_concat_eq_some.mp executed
        have sound := ColdStart.sound_of_reachable ⟨actions, earlier⟩
        obtain ⟨_, events, _, log⟩ := sound.step stepped
        exact .snoc action (ih before earlier (honoured.of_step sound log))
          (ColdStart.calm_of_honoured stepped honoured) stepped
  · intro calm
    refine (calm.invariant (fun state => state.Sound ∧ state.Honoured)
      ⟨ColdStart.start_sound, ColdStart.start_sound.returned, Nat.zero_le _, nofun⟩ ?_).2
    intro before action after ⟨sound, honoured⟩ permitted stepped
    exact ⟨(sound.step stepped).1, honoured.step sound permitted stepped⟩

/-- A client that waits for its unit and returns. -/
def sampleStart : List ColdStartAction :=
  [.enter 0, .enter 1, .flock 0, .probe 0 false, .resetFailed 0, .systemdRun 0, .loop 0,
    .probe 0 false, .tick 1000, .check 0, .isActive 0, .becomeReady, .loop 0, .probe 0 true,
    .return 0, .flock 1, .probe 1 true, .return 1]

theorem ensure_honoured_iff_sample : ∃ state, ensure.run .start sampleStart = some state ∧
    (state.Honoured ↔ ensure.Run ColdStart.Calm .start sampleStart state) :=
  ⟨_, rfl, ensure_honoured_iff sampleStart _ rfl⟩

/-- The first client is interrupted while its unit is starting. -/
def abandonedStart : List ColdStartAction :=
  [.enter 0, .flock 0, .probe 0 false, .resetFailed 0, .systemdRun 0, .interrupt 0,
    .enter 1, .flock 1, .probe 1 false, .resetFailed 1, .systemdRun 1]

theorem abandonedStart_raises : ¬ ∀ actions state,
    ensure.run .start actions = some state → state.Honoured := by
  intro honoured
  have raised := (honoured abandonedStart _ rfl).raised 1 (.refused (.active false))
    (List.mem_append_right _ (List.mem_singleton_self _))
  cases raised

/-! ## Starts that are not disturbed -/

/-- Whether a client is inside the `with` block. -/
def EnsurePoint.Inside : EnsurePoint → Prop
  | .outside | .flock | .left => False
  | .firstReady | .resetFailed | .systemdRun | .loop _ _ | .ready _ _ | .check _ _ | .isActive _
  | .returning => True

/-- Whether a client waits for the unit it has started. -/
def EnsurePoint.Waiting : EnsurePoint → Prop
  | .loop _ _ | .ready _ _ | .check _ _ | .isActive _ => True
  | .outside | .flock | .left | .firstReady | .resetFailed | .systemdRun | .returning => False

theorem EnsurePoint.Waiting.inside {point : EnsurePoint} (waits : point.Waiting) :
    point.Inside := by
  cases point with
  | loop | ready | check | isActive => trivial
  | outside | flock | left | firstReady | resetFailed | systemdRun | returning =>
      exact absurd waits id

/-- Who waits for the unit has started it. -/
theorem EnsurePoint.Waiting.late {point : EnsurePoint} (waits : point.Waiting) :
    ¬ (point = .resetFailed ∨ point = .systemdRun) := by
  rintro (rfl | rfl)
  · exact waits
  · exact waits

namespace ColdStart

/-- The lock holder is not interrupted and does not run out of time, and a ready unit
answers in time. -/
def Undisturbed (state : ColdStart) : ColdStartAction → Prop
  | .interrupt client => state.lock ≠ some client
  | .loop client => ∀ deadline checkAfter, state.point client = .loop deadline checkAfter →
      state.now < deadline
  | .probe _ answered => answered = false → state.unit ≠ .active true
  | _ => True

/-- A starting unit has a client that waits for it under the lock. -/
structure Attended (state : ColdStart) : Prop where
  holds : ∀ client, (state.point client).Inside → state.lock = some client
  fresh : ∀ client, state.point client = .resetFailed ∨ state.point client = .systemdRun →
    state.unit.isActive = false
  starting : state.unit = .active false → ∃ client, (state.point client).Waiting

theorem start_attended : start.Attended where
  holds := nofun
  fresh _ impossible := by
    rcases impossible with impossible | impossible <;> cases impossible
  starting := nofun

variable {state after : ColdStart}

theorem Attended.moved (attended : state.Attended) (client : Nat) {point : EnsurePoint}
    (inside : point.Inside → state.lock = some client)
    (fresh : point = .resetFailed ∨ point = .systemdRun → state.unit.isActive = false)
    (waiting : (state.point client).Waiting → state.unit = .active false → point.Waiting) :
    (state.move client point).Attended where
  holds other within := by
    by_cases same : other = client
    · subst same
      rw [point_move_self] at within
      exact inside within
    · rw [point_move_of_ne same] at within
      exact attended.holds other within
  fresh other early := by
    by_cases same : other = client
    · subst same
      rw [point_move_self] at early
      exact fresh early
    · rw [point_move_of_ne same] at early
      exact attended.fresh other early
  starting starts := by
    obtain ⟨other, waits⟩ := attended.starting starts
    by_cases same : other = client
    · subst same
      refine ⟨other, ?_⟩
      rw [point_move_self]
      exact waiting waits starts
    · refine ⟨other, ?_⟩
      rw [point_move_of_ne same]
      exact waits

theorem Attended.left (attended : state.Attended) (client : Nat) {events : List ColdStartEvent}
    (waiting : (state.point client).Waiting → state.unit ≠ .active false) :
    (state.leave client events).Attended := by
  have moved : (state.move client .left).Attended :=
    attended.moved client nofun (fun early => by rcases early with early | early <;> cases early)
      fun waits starts => absurd starts (waiting waits)
  refine ⟨fun other within => ?_, moved.fresh, moved.starting⟩
  have other_ne : other ≠ client := by
    rintro rfl
    change ((state.move other .left).point other).Inside at within
    rw [point_move_self] at within
    exact within
  have held : state.lock = some other := moved.holds other within
  change (if state.lock = some client then none else state.lock) = some other
  rw [if_neg fun mine => other_ne (Option.some.inj (held.symm.trans mine)), held]

theorem Attended.unit (attended : state.Attended) {unit : UnitState} {running : List Nat}
    (active : unit.isActive = true → state.unit.isActive = true)
    (starts : unit = .active false → state.unit = .active false) :
    { state with unit := unit, running := running }.Attended where
  holds := attended.holds
  fresh client early := by
    have inactive := attended.fresh client early
    refine Bool.eq_false_iff.mpr fun started => ?_
    exact absurd (inactive.symm.trans (active started)) nofun
  starting starting := attended.starting (starts starting)

/-- A probe of the lock holder: without an answer the unit is not ready. -/
theorem Attended.probe (attended : state.Attended) {client : Nat} {answered : Bool}
    {otherwise : EnsurePoint} (probed : state.probe client answered otherwise = some after)
    (held : state.lock = some client)
    (fresh : answered = false → otherwise = .resetFailed ∨ otherwise = .systemdRun →
      state.unit.isActive = false)
    (waiting : (state.point client).Waiting → otherwise.Waiting) : after.Attended := by
  simp only [ColdStart.probe, Option.ite_none_left_eq_some, Option.some.injEq] at probed
  obtain ⟨possible, rfl⟩ := probed
  have moved : (state.move client (if answered then .returning else otherwise)).Attended := by
    cases answered with
    | true =>
        refine attended.moved client (fun _ => held)
          (fun early => by rcases early with early | early <;> cases early) fun _ starts => ?_
        exact absurd ⟨rfl, fun ready => absurd (starts.symm.trans ready) nofun⟩ possible
    | false => exact attended.moved client (fun _ => held) (fresh rfl) fun waits _ => waiting waits
  exact ⟨moved.holds, moved.fresh, moved.starting⟩

theorem Attended.held (attended : state.Attended) {client : Nat} {point : EnsurePoint}
    (located : state.point client = point) (inside : point.Inside) : state.lock = some client :=
  attended.holds client (located ▸ inside)

/-- Only the lock holder can be waiting for a starting unit. -/
theorem Attended.waits (attended : state.Attended) (starts : state.unit = .active false) :
    ∃ client, (state.point client).Waiting ∧ state.lock = some client := by
  obtain ⟨client, waits⟩ := attended.starting starts
  exact ⟨client, waits, attended.holds client waits.inside⟩

theorem Attended.flock (attended : state.Attended) {client : Nat} (free : state.lock = none) :
    { state.move client .firstReady with lock := some client }.Attended where
  holds other within := by
    by_cases same : other = client
    · exact congrArg some same.symm
    · change ((state.move client .firstReady).point other).Inside at within
      rw [point_move_of_ne same] at within
      exact absurd (free.symm.trans (attended.holds other within)) nofun
  fresh other early := by
    change (state.move client .firstReady).point other = _ ∨
      (state.move client .firstReady).point other = _ at early
    by_cases same : other = client
    · subst same
      rw [point_move_self] at early
      rcases early with early | early <;> cases early
    · rw [point_move_of_ne same] at early
      exact attended.fresh other early
  starting starts := by
    obtain ⟨other, _, held⟩ := attended.waits starts
    exact absurd (free.symm.trans held) nofun

/-- The lock holder starts the unit and waits for it. -/
theorem Attended.systemdRun (attended : state.Attended) {client : Nat}
    {deadline checkAfter started : Nat} {running : List Nat}
    (held : state.lock = some client) :
    { state.move client (.loop deadline checkAfter) with
      unit := .active false, running := running, started := started }.Attended where
  holds other within := by
    by_cases same : other = client
    · exact same ▸ held
    · change ((state.move client _).point other).Inside at within
      rw [point_move_of_ne same] at within
      exact attended.holds other within
  fresh other early := by
    change (state.move client _).point other = _ ∨ (state.move client _).point other = _ at early
    by_cases same : other = client
    · subst same
      rw [point_move_self] at early
      rcases early with early | early <;> cases early
    · rw [point_move_of_ne same] at early
      have inside : (state.point other).Inside := by
        rcases early with early | early <;> rw [early] <;> trivial
      exact absurd (Option.some.inj ((attended.holds other inside).symm.trans held)) same
  starting _ := by
    refine ⟨client, ?_⟩
    change ((state.move client _).point client).Waiting
    rw [point_move_self]
    trivial

/-- The lock holder goes on waiting for the unit. -/
theorem Attended.waiting (attended : state.Attended) {client : Nat} {here point : EnsurePoint}
    (located : state.point client = here) (inside : here.Inside) (waits : point.Waiting) :
    (state.move client point).Attended := by
  refine attended.moved client (fun _ => attended.held located inside) (fun early => ?_)
    fun _ _ => waits
  exact absurd early waits.late

/-- A client that does not wait can leave at any time. -/
theorem Attended.leave (attended : state.Attended) {client : Nat} {here : EnsurePoint}
    {events : List ColdStartEvent} (located : state.point client = here)
    (elsewhere : ¬ here.Waiting) : (state.leave client events).Attended :=
  attended.left client fun waits => absurd (located ▸ waits) elsewhere

/-- A lock holder that does not wait finds no unit starting. -/
theorem Attended.settled (attended : state.Attended) {client : Nat} {here : EnsurePoint}
    (located : state.point client = here) (inside : here.Inside) (elsewhere : ¬ here.Waiting) :
    state.unit ≠ .active false := by
  intro starts
  obtain ⟨other, waits, holds⟩ := attended.waits starts
  rw [Option.some.inj (holds.symm.trans (attended.held located inside)), located] at waits
  exact elsewhere waits

theorem Attended.step (attended : state.Attended) {action : ColdStartAction}
    (undisturbed : state.Undisturbed action) (stepped : state.step action = some after) :
    after.Attended := by
  cases effect_of_step stepped with
  | enter here =>
      refine attended.moved _ nofun (fun early => ?_) fun waits => ?_
      · rcases early with early | early <;> cases early
      · rw [here] at waits
        exact absurd waits id
  | flock _ free => exact attended.flock free
  | firstProbe here probed =>
      have held := attended.held here trivial
      refine attended.probe probed held (fun silent _ => ?_) fun waits => ?_
      · cases unit : state.unit with
        | active ready =>
            cases ready with
            | true => exact absurd unit (undisturbed silent)
            | false => exact absurd unit (attended.settled here trivial id)
        | absent | deactivating | failed => rfl
      · rw [here] at waits
        exact absurd waits id
  | probe here probed =>
      have held := attended.held here trivial
      refine attended.probe probed held (fun _ early => ?_) fun _ => trivial
      rcases early with early | early <;> cases early
  | @resetFailed client here =>
      have held := attended.held here trivial
      have inactive := attended.fresh _ (.inl here)
      have moved : (state.move client .systemdRun).Attended :=
        attended.moved client (fun _ => held) (fun _ => inactive) fun waits => by
          rw [here] at waits
          exact absurd waits id
      refine moved.unit (fun active => ?_) fun starts => ?_
      · split_ifs at active
        · cases active
        · exact active
      · split_ifs at starts
        exact starts
  | systemdRun here => exact attended.systemdRun (attended.held here trivial)
  | refused here => exact attended.leave here id
  | deadline here late => exact absurd (undisturbed _ _ here) (Nat.not_lt_of_le late)
  | loop here | check here | wait here | isActive here =>
      exact attended.waiting here trivial trivial
  | exited here inactive =>
      refine attended.left _ fun _ starts => ?_
      rw [starts] at inactive
      cases inactive
  | «return» here => exact attended.leave here id
  | interrupt =>
      exact attended.left _ fun waits _ => undisturbed (attended.holds _ waits.inside)
  | becomeReady starting => exact attended.unit (fun _ => by rw [starting]; rfl) nofun
  | @exit failing =>
      cases failing with
      | true => exact attended.unit nofun nofun
      | false => exact attended.unit nofun nofun
  | stop => exact attended.unit nofun nofun
  | collect => exact attended.unit nofun nofun
  | tick => exact ⟨attended.holds, attended.fresh, attended.starting⟩

/-- While a start is attended, `systemd-run` is reached only without an active unit. -/
theorem Attended.calm (attended : state.Attended) {action : ColdStartAction}
    (stepped : state.step action = some after) : state.Calm action := by
  cases effect_of_step stepped with
  | systemdRun here | refused here => exact attended.fresh _ (.inr here)
  | enter | flock | firstProbe | probe | resetFailed | loop | deadline | check | wait
  | isActive | exited | «return» | interrupt | becomeReady | exit | stop | collect | tick => trivial

end ColdStart

/-- **The lock serializes undisturbed cold starts.** If no lock holder is interrupted or
runs out of time and a ready unit answers, `systemd-run` is never reached while
the unit is active. -/
theorem calm_of_undisturbed {actions : List ColdStartAction} {state : ColdStart}
    (executed : ensure.Run ColdStart.Undisturbed .start actions state) :
    ensure.Run ColdStart.Calm .start actions state := by
  have both : ensure.Run ColdStart.Calm .start actions state ∧ state.Attended := by
    induction executed with
    | nil => exact ⟨.nil, ColdStart.start_attended⟩
    | snoc action _ undisturbed stepped ih =>
        exact ⟨.snoc action ih.1 (ih.2.calm stepped) stepped, ih.2.step undisturbed stepped⟩
  exact both.1

end X86OnArm.Runtime
