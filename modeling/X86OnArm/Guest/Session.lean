import X86OnArm.Foundation.Machine
import X86OnArm.Foundation.Text

/-! # The start of a session

`main` starts FEXServer with the write end of a pipe, waits for the end of file by which
the server signals that it is ready, and starts the D-Bus daemon. A dying process closes
its descriptors before its exit status can be waited for, so its end looks like that
signal until the status is there. `session_ready` says which runs are not misled.
-/

namespace X86OnArm.Guest

open Foundation

/-- Why `main` raised. -/
inductive SessionError where
  | popen
  | didNotBecomeReady
  | exitedDuringStartup
  | dbusDaemon
  /-- `select` or `read` failed. -/
  | descriptor
  deriving DecidableEq

/-- The texts of the errors that are `main`'s own. -/
def SessionError.message : SessionError → Option Text
  | .didNotBecomeReady => some (text "FEXServer did not become ready")
  | .exitedDuringStartup => some (text "FEXServer exited during session startup")
  | .popen | .dbusDaemon | .descriptor => none

/-- The FEXServer process; a dying one has no descriptors, and an exited one can be
waited for. -/
inductive ServerProcess where
  | absent
  | running
  | dying
  | exited
  | reaped
  deriving DecidableEq

/-- Where `main` is; what it is about to raise goes with it. -/
inductive SessionPoint where
  | popen
  | closeWrite (error : Option SessionError)
  | select
  | read
  | poll
  | dbus
  | dbusRunning
  | checkServer (error : SessionError)
  | terminate (error : SessionError)
  | wait (error : SessionError)
  | kill (error : SessionError)
  | waitKilled (error : SessionError)
  | closeRead (error : Option SessionError)
  | returned
  | raised (error : SessionError)
  deriving DecidableEq

structure SessionState where
  main : SessionPoint
  server : ServerProcess
  /-- The server has closed its end of the pipe and gone on. -/
  signalled : Bool
  serverEnd : Bool
  mainEnd : Bool
  /-- What is in the pipe. -/
  unread : List UInt8
  dbusStarted : Bool
  deriving DecidableEq

/-- The first group are the steps of `main`, the second those of the server and of the
kernel on its behalf. -/
inductive SessionAction where
  | popen (success : Bool)
  | closeWrite
  | select
  | selectTimeout
  | read
  | descriptorFails
  | poll
  | startDbus (success : Bool)
  | dbusExit (success : Bool)
  | checkServer
  | terminate
  | wait
  | waitTimeout
  | kill
  | closeRead
  | signal
  | write (bytes : List UInt8)
  | die
  | exitStatus
  deriving DecidableEq

namespace SessionState

/-- `poll()` and `wait()` reap a process that has exited. -/
def reap (state : SessionState) : SessionState :=
  match state.server with
  | .exited => { state with server := .reaped }
  | _ => state

/-- The pipe has data or no write end any more. -/
def readable (state : SessionState) : Bool :=
  !state.unread.isEmpty || !state.serverEnd && !state.mainEnd

def step (state : SessionState) : SessionAction → Option SessionState
  | .popen success =>
      if state.main = .popen then
        some (if success then
          { state with main := .closeWrite none, server := .running, serverEnd := true }
        else { state with main := .closeWrite (some .popen) })
      else none
  | .closeWrite =>
      match state.main with
      | .closeWrite none => some { state with main := .select, mainEnd := false }
      | .closeWrite (some error) =>
          some { state with main := .checkServer error, mainEnd := false }
      | _ => none
  | .select =>
      if state.main = .select ∧ state.readable = true then some { state with main := .read }
      else none
  | .selectTimeout =>
      if state.main = .select ∧ state.readable = false then
        some { state with main := .checkServer .didNotBecomeReady }
      else none
  | .read =>
      if state.main = .read ∧ state.readable = true then
        some (if state.unread = [] then { state with main := .poll }
        else { state with
          main := .checkServer .exitedDuringStartup, unread := state.unread.drop 8 })
      else none
  | .descriptorFails =>
      match state.main with
      | .select | .read => some { state with main := .checkServer .descriptor }
      | _ => none
  | .poll =>
      if state.main = .poll then
        some (match state.reap.server with
          | .reaped => { state.reap with main := .checkServer .exitedDuringStartup }
          | _ => { state with main := .dbus })
      else none
  | .startDbus success =>
      if state.main = .dbus then
        some (if success then { state with main := .dbusRunning, dbusStarted := true }
        else { state with main := .checkServer .dbusDaemon })
      else none
  | .dbusExit success =>
      if state.main = .dbusRunning then
        some (if success then { state with main := .closeRead none }
        else { state with main := .checkServer .dbusDaemon })
      else none
  | .checkServer =>
      match state.main with
      | .checkServer error =>
          some (match state.reap.server with
            | .absent | .reaped => { state.reap with main := .closeRead (some error) }
            | _ => { state with main := .terminate error })
      | _ => none
  | .terminate =>
      match state.main with
      | .terminate error => some { state.reap with main := .wait error }
      | _ => none
  | .wait =>
      match state.main with
      | .wait error | .waitKilled error =>
          if state.reap.server = .reaped then
            some { state.reap with main := .closeRead (some error) }
          else none
      | _ => none
  | .waitTimeout =>
      match state.main with
      | .wait error =>
          if state.reap.server = .reaped then none else some { state with main := .kill error }
      | _ => none
  | .kill =>
      match state.main with
      | .kill error => some { state.reap with main := .waitKilled error }
      | _ => none
  | .closeRead =>
      match state.main with
      | .closeRead none => some { state with main := .returned }
      | .closeRead (some error) => some { state with main := .raised error }
      | _ => none
  | .signal =>
      if state.server = .running ∧ state.serverEnd = true then
        some { state with signalled := true, serverEnd := false }
      else none
  | .write bytes =>
      if state.server = .running ∧ state.serverEnd = true then
        some { state with unread := state.unread ++ bytes }
      else none
  | .die =>
      if state.server = .running then
        some { state with server := .dying, serverEnd := false }
      else none
  | .exitStatus =>
      if state.server = .dying then some { state with server := .exited } else none

/-- `main` has made its pipe. -/
def start : SessionState := ⟨.popen, .absent, false, false, true, [], false⟩

/-- The D-Bus daemon is started after the signal only, and `main` raises only when the
server it started, if any, has been reaped. -/
structure Ready (state : SessionState) : Prop where
  dbus : state.dbusStarted = true → state.signalled = true
  raised : ∀ error, state.main = .raised error → state.server = .absent ∨ state.server = .reaped

end SessionState

/-- `main`, FEXServer and the kernel. -/
def session : Machine SessionState SessionAction := ⟨SessionState.step⟩

namespace SessionState

variable {state after : SessionState} {action : SessionAction}

/-- `poll` does not meet a server that is dying without having signalled. -/
def StatusThere (state : SessionState) (action : SessionAction) : Prop :=
  action = .poll → state.server = .dying → state.signalled = true

/-- What a state relies on at the point `main` has reached. -/
structure Sound (state : SessionState) : Prop where
  /-- A server that runs without its end of the pipe has signalled. -/
  running : state.server = .running → state.serverEnd = false → state.signalled = true
  started : state.main = .closeWrite none ∨ state.main = .select ∨ state.main = .read ∨
    state.main = .poll → state.server ≠ .absent
  ended : state.main = .poll → state.serverEnd = false
  ready : state.main = .dbus ∨ state.dbusStarted = true → state.signalled = true
  reaped : ∀ error, state.main = .closeRead (some error) ∨ state.main = .raised error →
    state.server = .absent ∨ state.server = .reaped

/-- A step of `main` that reaps nothing. -/
theorem Sound.goTo (sound : state.Sound) (point : SessionPoint)
    (started : point = .closeWrite none ∨ point = .select ∨ point = .read ∨ point = .poll →
      state.server ≠ .absent)
    (ended : point = .poll → state.serverEnd = false)
    (ready : point = .dbus → state.signalled = true)
    (reaped : ∀ error, point = .closeRead (some error) ∨ point = .raised error →
      state.server = .absent ∨ state.server = .reaped) :
    Sound { state with main := point } :=
  ⟨sound.running, started, ended,
    fun reached => reached.elim ready fun dbus => sound.ready (.inr dbus), reaped⟩

theorem reap_cases (state : SessionState) :
    state.server = .exited ∧ state.reap = { state with server := .reaped } ∨
      state.server ≠ .exited ∧ state.reap = state := by
  cases exited : state.server <;> simp [reap, exited]

theorem Sound.reap (sound : state.Sound) : state.reap.Sound := by
  rcases state.reap_cases with ⟨exited, same⟩ | ⟨-, same⟩
  · rw [same]
    refine ⟨by simp, by simp, sound.ended, sound.ready, fun _ _ => .inr rfl⟩
  · rwa [same]

/-- `main` is about to raise and sees to FEXServer before it does. -/
def Cleaning : SessionPoint → Prop
  | .checkServer _ | .terminate _ | .wait _ | .kill _ | .waitKilled _ => True
  | _ => False

/-- What a step does; those after which `main` goes on to raise are grouped by what they
have found out about FEXServer. -/
inductive Effect (state : SessionState) : SessionAction → SessionState → Prop where
  | popen (reached : state.main = .popen) : Effect state (.popen true)
      { state with main := .closeWrite none, server := .running, serverEnd := true }
  | popenFails (reached : state.main = .popen) : Effect state (.popen false)
      { state with main := .closeWrite (some .popen) }
  | closeWrite (reached : state.main = .closeWrite none) : Effect state .closeWrite
      { state with main := .select, mainEnd := false }
  | closeFailed {error : SessionError} (reached : state.main = .closeWrite (some error)) :
      Effect state .closeWrite { state with main := .checkServer error, mainEnd := false }
  | select (reached : state.main = .select) (readable : state.readable = true) :
      Effect state .select { state with main := .read }
  | endOfFile (reached : state.main = .read) (ended : state.serverEnd = false) :
      Effect state .read { state with main := .poll }
  | message (reached : state.main = .read) : Effect state .read
      { state with main := .checkServer .exitedDuringStartup, unread := state.unread.drop 8 }
  | alive (reached : state.main = .poll) (unreaped : state.reap.server ≠ .reaped) :
      Effect state .poll { state with main := .dbus }
  | startDbus (reached : state.main = .dbus) : Effect state (.startDbus true)
      { state with main := .dbusRunning, dbusStarted := true }
  | dbusExit (reached : state.main = .dbusRunning) : Effect state (.dbusExit true)
      { state with main := .closeRead none }
  | cleanUp {action : SessionAction} {point : SessionPoint} (cleaning : Cleaning point) :
      Effect state action { state with main := point }
  | cleanUpReaped {action : SessionAction} {point : SessionPoint} (cleaning : Cleaning point) :
      Effect state action { state.reap with main := point }
  | gone {action : SessionAction} {error : SessionError}
      (ended : state.reap.server = .absent ∨ state.reap.server = .reaped) :
      Effect state action { state.reap with main := .closeRead (some error) }
  | returned (reached : state.main = .closeRead none) :
      Effect state .closeRead { state with main := .returned }
  | raised {error : SessionError} (reached : state.main = .closeRead (some error)) :
      Effect state .closeRead { state with main := .raised error }
  | signal (runs : state.server = .running) :
      Effect state .signal { state with signalled := true, serverEnd := false }
  | write (bytes : List UInt8) (runs : state.server = .running) :
      Effect state (.write bytes) { state with unread := state.unread ++ bytes }
  | die (runs : state.server = .running) :
      Effect state .die { state with server := .dying, serverEnd := false }
  | exitStatus (dies : state.server = .dying) :
      Effect state .exitStatus { state with server := .exited }

theorem effect_of_step (stepped : session.step state action = some after) :
    Effect state action after := by
  cases action <;>
    simp only [session, SessionState.step, Option.ite_none_right_eq_some,
      Option.some.injEq] at stepped
  case popen success =>
    obtain ⟨reached, rfl⟩ := stepped
    cases success with
    | true => exact .popen reached
    | false => exact .popenFails reached
  case closeWrite =>
    split at stepped
    case h_1 reached =>
      cases stepped
      exact .closeWrite reached
    case h_2 error reached =>
      cases stepped
      exact .closeFailed reached
    case h_3 => cases stepped
  case select =>
    obtain ⟨⟨reached, readable⟩, rfl⟩ := stepped
    exact .select reached readable
  case selectTimeout =>
    obtain ⟨-, rfl⟩ := stepped
    exact .cleanUp trivial
  case read =>
    obtain ⟨⟨reached, ready⟩, rfl⟩ := stepped
    by_cases empty : state.unread = []
    · rw [if_pos empty]
      have ended : state.serverEnd = false := by
        simp only [readable, empty, List.isEmpty_nil, Bool.not_true, Bool.false_or,
          Bool.and_eq_true, Bool.not_eq_true'] at ready
        exact ready.1
      exact .endOfFile reached ended
    · rw [if_neg empty]
      exact .message reached
  case descriptorFails =>
    split at stepped
    case h_1 | h_2 =>
      cases stepped
      exact .cleanUp trivial
    case h_3 => cases stepped
  case poll =>
    obtain ⟨reached, rfl⟩ := stepped
    split
    case h_1 => exact .cleanUpReaped trivial
    case h_2 unreaped => exact .alive reached unreaped
  case startDbus success =>
    obtain ⟨reached, rfl⟩ := stepped
    cases success with
    | true => exact .startDbus reached
    | false => exact .cleanUp trivial
  case dbusExit success =>
    obtain ⟨reached, rfl⟩ := stepped
    cases success with
    | true => exact .dbusExit reached
    | false => exact .cleanUp trivial
  case checkServer =>
    split at stepped
    · cases stepped
      split
      case h_1 absent => exact .gone (.inl absent)
      case h_2 reaped => exact .gone (.inr reaped)
      case h_3 => exact .cleanUp trivial
    · cases stepped
  case terminate =>
    split at stepped
    · cases stepped
      exact .cleanUpReaped trivial
    · cases stepped
  case wait =>
    split at stepped
    case h_1 | h_2 =>
      rw [Option.ite_none_right_eq_some] at stepped
      obtain ⟨reaped, same⟩ := stepped
      cases same
      exact .gone (.inr reaped)
    case h_3 => cases stepped
  case waitTimeout =>
    split at stepped
    · rw [Option.ite_none_left_eq_some] at stepped
      obtain ⟨-, same⟩ := stepped
      cases same
      exact .cleanUp trivial
    · cases stepped
  case kill =>
    split at stepped
    · cases stepped
      exact .cleanUpReaped trivial
    · cases stepped
  case closeRead =>
    split at stepped
    case h_1 reached =>
      cases stepped
      exact .returned reached
    case h_2 error reached =>
      cases stepped
      exact .raised reached
    case h_3 => cases stepped
  case signal =>
    obtain ⟨⟨runs, -⟩, rfl⟩ := stepped
    exact .signal runs
  case write bytes =>
    obtain ⟨⟨runs, -⟩, rfl⟩ := stepped
    exact .write bytes runs
  case die =>
    obtain ⟨runs, rfl⟩ := stepped
    exact .die runs
  case exitStatus =>
    obtain ⟨dies, rfl⟩ := stepped
    exact .exitStatus dies

/-- A step of `main` on the way to what it raises. -/
theorem Sound.cleanUp (sound : state.Sound) {point : SessionPoint} (cleaning : Cleaning point) :
    Sound { state with main := point } := by
  cases point with
  | checkServer _ | terminate _ | wait _ | kill _ | waitKilled _ =>
      exact sound.goTo _ (by simp) (by simp) (by simp) (by simp)
  | _ => exact cleaning.elim

/-- The step at which an end of file is told from a death. -/
theorem Sound.signalled_of_alive (sound : state.Sound) (there : StatusThere state .poll)
    (reached : state.main = .poll) (unreaped : state.reap.server ≠ .reaped) :
    state.signalled = true := by
  have started := sound.started (.inr (.inr (.inr reached)))
  cases server : state.server with
  | absent => exact absurd server started
  | running => exact sound.running server (sound.ended reached)
  | dying => exact there rfl server
  | exited => simp [SessionState.reap, server] at unreaped
  | reaped => simp [SessionState.reap, server] at unreaped

/-- A server that runs or dies has not been reaped, so `main` raises nothing yet. -/
theorem Sound.unraised (sound : state.Sound) (lives : state.server = .running ∨
    state.server = .dying) (error : SessionError) :
    ¬ (state.main = .closeRead (some error) ∨ state.main = .raised error) := by
  intro raising
  rcases lives with runs | dies
  · simpa [runs] using sound.reaped error raising
  · simpa [dies] using sound.reaped error raising

theorem Sound.step (sound : state.Sound) (there : StatusThere state action)
    (stepped : session.step state action = some after) : after.Sound := by
  cases effect_of_step stepped with
  | popen _ =>
      exact ⟨by simp, by simp, by simp,
        fun reached => sound.ready (.inr (by simpa using reached)), by simp⟩
  | popenFails _ | dbusExit _ | returned _ =>
      exact sound.goTo _ (by simp) (by simp) (by simp) (by simp)
  | closeWrite reached =>
      exact ⟨sound.running, fun _ => sound.started (.inl reached), by simp,
        fun later => sound.ready (.inr (by simpa using later)), by simp⟩
  | closeFailed _ | message _ =>
      exact ⟨sound.running, by simp, by simp,
        fun later => sound.ready (.inr (by simpa using later)), by simp⟩
  | select reached _ =>
      exact sound.goTo _ (fun _ => sound.started (.inr (.inl reached))) (by simp) (by simp)
        (by simp)
  | endOfFile reached ended =>
      exact sound.goTo _ (fun _ => sound.started (.inr (.inr (.inl reached)))) (fun _ => ended)
        (by simp) (by simp)
  | alive reached unreaped =>
      exact sound.goTo _ (by simp) (by simp)
        (fun _ => sound.signalled_of_alive there reached unreaped) (by simp)
  | startDbus reached =>
      exact ⟨sound.running, by simp, by simp, fun _ => sound.ready (.inl reached), by simp⟩
  | cleanUp cleaning => exact sound.cleanUp cleaning
  | cleanUpReaped cleaning => exact sound.reap.cleanUp cleaning
  | gone ended => exact sound.reap.goTo _ (by simp) (by simp) (by simp) fun _ _ => ended
  | raised reached =>
      exact sound.goTo _ (by simp) (by simp) (by simp) fun _ _ => sound.reaped _ (.inl reached)
  | signal _ => exact ⟨fun _ _ => rfl, sound.started, fun _ => rfl, fun _ => rfl, sound.reaped⟩
  | write _ _ => exact ⟨sound.running, sound.started, sound.ended, sound.ready, sound.reaped⟩
  | die runs =>
      exact ⟨by simp, by simp, fun _ => rfl, sound.ready,
        fun error raising => absurd raising (sound.unraised (.inl runs) error)⟩
  | exitStatus dies =>
      exact ⟨by simp, by simp, sound.ended, sound.ready,
        fun error raising => absurd raising (sound.unraised (.inr dies) error)⟩

theorem Sound.start : SessionState.start.Sound := by
  refine ⟨?_, ?_, ?_, ?_, ?_⟩ <;> simp [SessionState.start]

theorem Sound.isReady (sound : state.Sound) : state.Ready :=
  ⟨fun started => sound.ready (.inr started), fun error raised => sound.reaped error (.inr raised)⟩

/-- `poll` on a server that is dying without having signalled goes on to the D-Bus
daemon. -/
theorem startDbus_of_dying (polled : session.step state .poll = some after)
    (dying : state.server = .dying) (silent : state.signalled = false) :
    ∃ started, session.step after (.startDbus true) = some started ∧ ¬ started.Ready := by
  simp only [session, SessionState.step, Option.ite_none_right_eq_some,
    Option.some.injEq] at polled
  obtain ⟨-, rfl⟩ := polled
  simp only [reap, dying]
  refine ⟨_, rfl, ?_⟩
  intro ready
  have signalled := ready.dbus rfl
  simp [silent] at signalled

/-- **The D-Bus daemon waits for the signal.** In every run whose `poll` does not meet a
server that is dying without having signalled, the daemon is started after the signal
only and `main` raises after the server has been reaped; a `poll` that does meet one
lets the daemon start. -/
theorem session_ready (actions : List SessionAction) (state : SessionState) :
    (session.Run StatusThere .start actions state → state.Ready) ∧
      ∀ action after, ¬ StatusThere state action → session.step state action = some after →
        ∃ started, session.step after (.startDbus true) = some started ∧ ¬ started.Ready := by
  constructor
  · intro executed
    exact (executed.invariant Sound .start
      fun _ _ _ sound there stepped => sound.step there stepped).isReady
  · intro action after missed stepped
    simp only [StatusThere, Classical.not_imp, Bool.not_eq_true] at missed
    obtain ⟨rfl, dying, silent⟩ := missed
    exact startDbus_of_dying stepped dying silent

/-- A server that signals, and one whose death `poll` does not see yet. -/
theorem session_ready_signalled :
    (∃ state, session.run .start [.popen true, .signal, .closeWrite, .select, .read, .poll,
        .startDbus true, .die, .exitStatus, .dbusExit false, .checkServer, .closeRead] =
          some state ∧ state.main = .raised .dbusDaemon ∧ state.Ready) ∧
      ∃ before after started, session.run .start [.popen true, .closeWrite, .die, .select,
          .read] = some before ∧ session.step before .poll = some after ∧
        session.step after (.startDbus true) = some started ∧ ¬ started.Ready := by
  constructor
  · obtain ⟨state, executed, raised⟩ : ∃ state, session.run .start [.popen true, .signal,
        .closeWrite, .select, .read, .poll, .startDbus true, .die, .exitStatus, .dbusExit false,
        .checkServer, .closeRead] = some state ∧ state.main = .raised .dbusDaemon :=
      ⟨_, rfl, rfl⟩
    have every : session.everyStep (fun state action => decide (action = .poll →
        state.server = .dying → state.signalled = true)) .start [.popen true, .signal,
        .closeWrite, .select, .read, .poll, .startDbus true, .die, .exitStatus, .dbusExit false,
        .checkServer, .closeRead] = true := by
      decide
    have run : session.Run StatusThere .start _ state :=
      (Machine.Run.of_everyStep executed every).mono fun _ _ holds => by
        simp only [decide_eq_true_eq] at holds
        exact holds
    exact ⟨state, executed, raised, (session_ready _ state).1 run⟩
  · obtain ⟨before, after, reached, stepped, missed⟩ : ∃ before after,
        session.run .start [.popen true, .closeWrite, .die, .select, .read] = some before ∧
          session.step before .poll = some after ∧ ¬ StatusThere before .poll :=
      ⟨_, _, rfl, rfl, fun there => absurd (there rfl rfl) (by decide)⟩
    obtain ⟨started, goes, unready⟩ := (session_ready [] before).2 .poll after missed stepped
    exact ⟨before, after, started, reached, stepped, goes, unready⟩

/-- FEXServer dies before it has signalled; its exit status is not there when `main`
polls, and the D-Bus daemon is started. -/
theorem dead_server_starts_dbus :
    ∃ state, session.run .start
        [.popen true, .closeWrite, .die, .select, .read, .poll, .startDbus true] = some state ∧
      state.dbusStarted = true ∧ state.signalled = false ∧ ¬ state.Ready := by
  refine ⟨_, rfl, rfl, rfl, ?_⟩
  intro ready
  exact absurd (ready.dbus rfl) (by decide)

end SessionState

end X86OnArm.Guest
