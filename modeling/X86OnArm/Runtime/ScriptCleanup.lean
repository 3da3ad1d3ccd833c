import X86OnArm.Runtime.LauncherSignals

/-! # What signals leave on disk

The private directory is removed on every way out of its context, but a signal is
handled only inside `run_process`. So the directory outlives the launcher exactly
when a signal finds it in place while the disposition terminates the launcher, or
raises where nothing removes the directory any more (`execute_removes_directory_iff`).
-/

namespace X86OnArm.Runtime

open Foundation

/-- The directory is there at this point of a run that loses nothing. -/
def LaunchPoint.holdsDirectory : LaunchPoint → Bool
  | .mkdtemp | .finish _ | .terminated => false
  | .finalizer | .openScript | .writeScript | .install _ | .popen | .assign | .replay
  | .replayKill | .wait | .restore _ _ | .exitContext _ | .unlink _ | .rmdir _ => true

/-- The script may be there at this point. -/
def LaunchPoint.holdsScript : LaunchPoint → Bool
  | .mkdtemp | .finalizer | .openScript | .rmdir _ | .finish _ | .terminated => false
  | .writeScript | .install _ | .popen | .assign | .replay | .replayKill | .wait
  | .restore _ _ | .exitContext _ | .unlink _ => true

/-- An exception at this point leaves the directory behind. -/
def LaunchPoint.unguarded : LaunchPoint → Bool
  | .finalizer | .unlink _ | .rmdir _ => true
  | .mkdtemp | .openScript | .writeScript | .install _ | .popen | .assign | .replay
  | .replayKill | .wait | .restore _ _ | .exitContext _ | .finish _ | .terminated => false

theorem LaunchPoint.holdsDirectory_of_unguarded {point : LaunchPoint}
    (unguarded : point.unguarded = true) : point.holdsDirectory = true := by
  cases point <;> first | rfl | cases unguarded

theorem LaunchPoint.holdsDirectory_of_holdsScript {point : LaunchPoint}
    (held : point.holdsScript = true) : point.holdsDirectory = true := by
  cases point <;> first | rfl | cases held

theorem LaunchPoint.holdsDirectory_unwound {point : LaunchPoint}
    (guarded : point.unguarded = false) :
    point.unwound.holdsDirectory = point.holdsDirectory := by
  cases point <;> first | rfl | cases guarded

theorem LaunchPoint.holdsScript_unwound {point : LaunchPoint} (guarded : point.unguarded = false)
    (held : point.holdsScript = true) : point.unwound.holdsScript = true := by
  cases point <;> first | rfl | exact Bool.noConfusion held | exact Bool.noConfusion guarded

/-- A signal that arrives while the directory is there is forwarded, or returns, or
raises where the directory is removed on the way out. -/
def Covered (previous : Signal → Previous) (state : SignalledLaunch) : LaunchAction → Prop
  | .arrive signal => state.directory = true → state.forwarding signal = true ∨
      previous signal = .returns ∨
      (previous signal = .raises ∧ state.point.unguarded = false)
  | .main _ | .forward _ | .childExit _ => True

/-- The files on disk are those the main flow still removes. -/
structure SignalledLaunch.Tracked (state : SignalledLaunch) : Prop where
  directory : state.directory = state.point.holdsDirectory
  script : state.script = true → state.point.holdsScript = true

namespace SignalledLaunch

variable {previous : Signal → Previous} {state after : SignalledLaunch}

/-- A step that stays where the directory and the script are kept. -/
theorem Tracked.kept (tracked : state.Tracked) (directory : after.directory = state.directory)
    (script : after.script = state.script)
    (holdsDirectory : after.point.holdsDirectory = state.point.holdsDirectory)
    (holdsScript : state.point.holdsScript = true → after.point.holdsScript = true) :
    after.Tracked where
  directory := by rw [directory, holdsDirectory, tracked.directory]
  script := fun present => holdsScript (tracked.script (script ▸ present))

/-- Steps between points that hold the same files. -/
theorem Tracked.moved (tracked : state.Tracked) {before later : LaunchPoint}
    (here : state.point = before) (there : after.point = later)
    (directory : after.directory = state.directory) (script : after.script = state.script)
    (holdsDirectory : later.holdsDirectory = before.holdsDirectory)
    (holdsScript : before.holdsScript = true → later.holdsScript = true) : after.Tracked := by
  subst here there
  exact tracked.kept directory script holdsDirectory holdsScript

theorem Tracked.mainStep {fails : Bool} (tracked : state.Tracked)
    (stepped : state.mainStep fails = some after) : after.Tracked := by
  cases here : state.point <;> cases fails <;>
    simp only [SignalledLaunch.mainStep, here] at stepped
  case mkdtemp.false =>
    -- The directory is made, and there is no script yet.
    cases stepped
    refine ⟨rfl, fun present => ?_⟩
    have held := tracked.script present
    rw [here] at held
    cases held
  case openScript.false =>
    cases stepped
    have held := tracked.directory
    rw [here] at held
    exact ⟨held, fun _ => rfl⟩
  case unlink.false =>
    cases stepped
    have held := tracked.directory
    rw [here] at held
    exact ⟨held, fun present => nomatch present⟩
  case rmdir.false =>
    -- The script was unlinked before.
    cases stepped
    refine ⟨rfl, fun present => ?_⟩
    have held := tracked.script present
    rw [here] at held
    cases held
  case install.false rest =>
    cases rest <;> cases stepped <;> exact tracked.moved here rfl rfl rfl rfl fun _ => rfl
  case restore.false rest outcome =>
    cases rest <;> cases stepped <;> exact tracked.moved here rfl rfl rfl rfl fun _ => rfl
  case replay.false =>
    split at stepped
    · cases stepped
      exact tracked.moved here rfl rfl rfl rfl fun _ => rfl
    · split at stepped
      · cases stepped
        exact tracked.moved here rfl rfl rfl rfl fun _ => rfl
      · cases stepped
        exact tracked.moved here rfl rfl rfl rfl fun _ => rfl
  case replayKill.false =>
    obtain ⟨handled, -, rfl⟩ := Option.map_eq_some_iff.mp stepped
    exact tracked.moved here rfl rfl rfl rfl fun _ => rfl
  case wait.false =>
    split at stepped <;> cases stepped <;> exact tracked.moved here rfl rfl rfl rfl fun _ => rfl
  all_goals cases stepped
  all_goals exact tracked.moved here rfl rfl rfl rfl (by simp [LaunchPoint.holdsScript, move])

/-- An exception where the directory is still removed. -/
theorem Tracked.raise (tracked : state.Tracked) (guarded : state.point.unguarded = false) :
    state.raise.Tracked where
  directory := tracked.directory.trans (LaunchPoint.holdsDirectory_unwound guarded).symm
  script := fun present => LaunchPoint.holdsScript_unwound guarded (tracked.script present)

theorem Tracked.arrive {signal : Signal} (tracked : state.Tracked)
    (covered : Covered previous state (.arrive signal)) :
    (state.arrive previous signal).Tracked := by
  unfold SignalledLaunch.arrive
  by_cases forwarded : state.forwarding signal = true
  · rw [if_pos forwarded]
    exact ⟨tracked.directory, tracked.script⟩
  rw [if_neg forwarded]
  have resolved (present : state.directory = true) :=
    (covered present).resolve_left forwarded
  cases does : previous signal with
  | returns => exact tracked
  | raises =>
      apply tracked.raise
      by_contra unguarded
      have present : state.directory = true := tracked.directory.trans
        (LaunchPoint.holdsDirectory_of_unguarded (eq_true_of_ne_false unguarded))
      rcases resolved present with returns | ⟨-, guarded⟩
      · cases does.symm.trans returns
      · exact unguarded guarded
  | terminates =>
      have absent : state.directory ≠ true := by
        intro present
        rcases resolved present with returns | ⟨raises, -⟩
        · cases does.symm.trans returns
        · cases does.symm.trans raises
      refine ⟨eq_false_of_ne_true absent, fun present => ?_⟩
      exact absurd (tracked.directory.trans
        (LaunchPoint.holdsDirectory_of_holdsScript (tracked.script present))) absent

theorem Tracked.step {action : LaunchAction} (tracked : state.Tracked)
    (covered : Covered previous state action)
    (stepped : state.step previous action = some after) : after.Tracked := by
  cases action with
  | main fails =>
      simp only [SignalledLaunch.step] at stepped
      split at stepped
      · exact tracked.mainStep stepped
      · cases stepped
  | forward busy =>
      obtain ⟨point, directory, script⟩ := (forwardEffect_of_forwardStep stepped).files
      exact tracked.kept directory script (by rw [point]) (by rw [point]; exact id)
  | childExit status =>
      simp only [SignalledLaunch.step] at stepped
      split at stepped <;> cases stepped
      exact ⟨tracked.directory, tracked.script⟩
  | arrive signal =>
      simp only [SignalledLaunch.step] at stepped
      split at stepped <;> cases stepped
      exact tracked.arrive covered

/-- The launcher has come to its end, or is about to, with the directory in place. -/
def Leaked (state : SignalledLaunch) : Prop :=
  state.directory = true ∧ (state.point = .terminated ∨ ∃ outcome, state.point = .finish outcome)

/-- A signal that is not covered leaves the directory behind. -/
theorem leaked_of_uncovered {action : LaunchAction}
    (uncovered : ¬ Covered previous state action)
    (stepped : state.step previous action = some after) : after.Leaked := by
  cases action with
  | main fails => exact absurd trivial uncovered
  | forward busy => exact absurd trivial uncovered
  | childExit status => exact absurd trivial uncovered
  | arrive signal =>
      simp only [SignalledLaunch.step] at stepped
      split at stepped <;> cases stepped
      unfold Covered at uncovered
      push Not at uncovered
      obtain ⟨present, unforwarded, returns, raises⟩ := uncovered
      unfold SignalledLaunch.arrive
      rw [if_neg unforwarded]
      cases does : previous signal with
      | returns => exact absurd does returns
      | terminates => exact ⟨present, .inl rfl⟩
      | raises =>
          have unguarded := raises does
          refine ⟨present, .inr ⟨.raised, ?_⟩⟩
          change state.point.unwound = .finish .raised
          cases here : state.point <;> rw [here] at unguarded <;>
            first | rfl | exact absurd rfl unguarded

theorem Leaked.step {action : LaunchAction} (leaked : state.Leaked)
    (stepped : state.step previous action = some after) : after.Leaked := by
  obtain ⟨present, ended⟩ := leaked
  cases action with
  | main fails =>
      simp only [SignalledLaunch.step] at stepped
      split at stepped
      next =>
        rcases ended with here | ⟨outcome, here⟩
        · cases fails <;> simp [SignalledLaunch.mainStep, here] at stepped
        · cases fails <;> simp only [SignalledLaunch.mainStep, here] at stepped <;> cases stepped
          exact ⟨present, .inl rfl⟩
      next => cases stepped
  | forward busy =>
      obtain ⟨point, directory, -⟩ := (forwardEffect_of_forwardStep stepped).files
      exact ⟨directory.trans present, by rw [point]; exact ended⟩
  | childExit status =>
      simp only [SignalledLaunch.step] at stepped
      split at stepped <;> cases stepped
      exact ⟨present, ended⟩
  | arrive signal =>
      simp only [SignalledLaunch.step] at stepped
      split at stepped
      next => cases stepped
      next running =>
        cases stepped
        obtain ⟨outcome, here⟩ := ended.resolve_left running
        unfold SignalledLaunch.arrive
        split
        next => exact ⟨present, ended⟩
        next =>
          split
          next => exact ⟨present, ended⟩
          next =>
            refine ⟨present, .inr ⟨.raised, ?_⟩⟩
            change state.point.unwound = .finish .raised
            rw [here]
            rfl
          next => exact ⟨present, .inl rfl⟩

end SignalledLaunch

/-- A run in which some signal was not covered has lost the directory. -/
theorem covered_or_leaked {previous : Signal → Previous} {start state : SignalledLaunch}
    {actions : List LaunchAction}
    (executed : (signalledLaunch previous).Run (fun _ _ => True) start actions state) :
    (signalledLaunch previous).Run (Covered previous) start actions state ∨ state.Leaked := by
  induction executed with
  | nil => exact .inl .nil
  | @snoc actions before after action _ _ stepped ih =>
      rcases ih with covered | leaked
      · by_cases safe : Covered previous before action
        · exact .inl (.snoc action covered safe stepped)
        · exact .inr (SignalledLaunch.leaked_of_uncovered safe stepped)
      · exact .inr (leaked.step stepped)

/-- **What is left on disk.** When the launcher has terminated, the private directory and
the script are gone exactly when every signal that found the directory in place was
forwarded, returned, or raised where the directory is removed on the way out. -/
theorem execute_removes_directory_iff (previous : Signal → Previous)
    (actions : List LaunchAction) (state : SignalledLaunch)
    (executed : (signalledLaunch previous).run .start actions = some state)
    (ended : state.point = .terminated) :
    (state.directory = false ∧ state.script = false) ↔
      (signalledLaunch previous).Run (Covered previous) .start actions state := by
  constructor
  · rintro ⟨directory, -⟩
    apply (covered_or_leaked (.of_run executed)).resolve_right
    rintro ⟨present, -⟩
    cases directory.symm.trans present
  · intro covered
    have tracked : state.Tracked := covered.invariant SignalledLaunch.Tracked
      ⟨rfl, fun present => Bool.noConfusion present⟩
      fun _ _ _ tracked permitted stepped => tracked.step permitted stepped
    obtain ⟨directory, script⟩ := tracked
    rw [ended] at directory script
    refine ⟨directory, eq_false_of_ne_true fun present => ?_⟩
    cases script present

/-- A launcher started in a terminal: SIGINT raises, the other signals terminate. -/
def inTerminal : Signal → Previous
  | .int => .raises
  | .term | .hup | .quit => .terminates

/-- SIGTERM arrives when the script has been written and no handler is installed yet. -/
def terminatedEarly : List LaunchAction :=
  [.main false, .main false, .main false, .main false, .arrive .term]

theorem early_signal_leaves_script :
    ∃ state, (signalledLaunch inTerminal).run .start terminatedEarly = some state ∧
      state.point = .terminated ∧ state.directory = true ∧ state.script = true :=
  ⟨_, rfl, rfl, rfl, rfl⟩

/-- SIGTERM arrives while the launcher waits for the child, which it terminates. -/
def terminatedChild : List LaunchAction :=
  List.replicate 12 (.main false) ++
    [.arrive .term, .forward false, .forward false, .forward false,
      .childExit (.signal 15 sigterm_positive)] ++ List.replicate 10 (.main false)

theorem execute_removes_directory_sample :
    ∃ state, (signalledLaunch inTerminal).run .start terminatedChild = some state ∧
      ((state.directory = false ∧ state.script = false) ↔
        (signalledLaunch inTerminal).Run (Covered inTerminal) .start terminatedChild state) :=
  ⟨_, rfl, execute_removes_directory_iff inTerminal terminatedChild _ rfl rfl⟩

end X86OnArm.Runtime
