import X86OnArm.Muvm.SignalMembers
import Mathlib.Logic.Function.Basic

/-! # The launch of a request

A request's program is started in three processes: a root helper makes the request's
cgroup, a forked child enters it and executes the program, and the worker undoes the
first when the second fails. `handleConnection_tracked` says of every outcome of their
system calls that an executed program is in its own cgroup, as the user it was to run
as, and that otherwise nothing is executed, reported or left behind.
-/

namespace X86OnArm.Muvm

open Foundation

/-- `EINTR`, `EIO`, `EEXIST`, `ENOENT` and `EBUSY`. A call that succeeds has the error
number 0 here. -/
def eintr : Nat := 4

def eio : Nat := 5

def eexist : Nat := 17

def enoent : Nat := 2

def ebusy : Nat := 16

/-- What a `write` returns: a count, or -1 with an error number. -/
inductive WriteResult where
  | count (written : Nat)
  | failed (errno : Nat) (nonzero : errno ≠ 0)

/-- The results of the system calls of a launch. Those of `write` come one after the
other, for as long as it is called again. -/
structure LaunchCalls where
  mkdirRoot : Nat
  mkdirName : Nat
  openKill : Nat
  fork : Nat
  seteuidRoot : Nat
  openProcs : Nat
  writes : List WriteResult
  seteuidBack : Nat
  setsid : Nat
  ioctl : Nat
  exec : Nat

/-- The cgroup directories of the guest with their modes, and the cgroup the launched
process is in while it lives. No other process enters a request's cgroup. -/
structure Cgroups where
  directories : Text → Option Nat
  occupied : Option Text

namespace Cgroups

/-- `mkdir` with mode 0755. -/
def mkdir (cgroups : Cgroups) (umask : Nat) (path : Text) (result : Nat) : Nat × Cgroups :=
  if (cgroups.directories path).isSome then (eexist, cgroups)
  else if result ≠ 0 then (result, cgroups)
  else (0, { cgroups with
    directories := Function.update cgroups.directories path
      (some (0o755 &&& (0o777 ^^^ umask))) })

/-- `rmdir`, which removes an empty cgroup. -/
def rmdir (cgroups : Cgroups) (path : Text) : Nat × Cgroups :=
  if cgroups.directories path = none then (enoent, cgroups)
  else if cgroups.occupied = some path then (ebusy, cgroups)
  else (0, { cgroups with directories := Function.update cgroups.directories path none })

end Cgroups

/-- `user::run_as_root`: it runs a function in a helper process with root's identity and
returns its value, or fails without running it. -/
structure RootHelper where
  run : (Cgroups → Nat × Cgroups) → Cgroups → Option Nat × Cgroups
  runs : ∀ action cgroups, run action cgroups = (none, cgroups) ∨
    run action cgroups = (some (action cgroups).1, (action cgroups).2)

inductive HelperError where
  | other
  | raw (errno : Nat)
  deriving DecidableEq

def asRoot (helper : RootHelper) (action : Cgroups → Nat × Cgroups) (cgroups : Cgroups) :
    Except HelperError Unit × Cgroups :=
  match helper.run action cgroups with
  | (none, cgroups) => (.error .other, cgroups)
  | (some errno, cgroups) => (if errno = 0 then .ok () else .error (.raw errno), cgroups)

/-- The error number with which a write ends the loop, or interrupts it. -/
def WriteResult.errno (length : Nat) : WriteResult → Nat
  | .count written => if written = length then 0 else eio
  | .failed errno _ => errno

namespace RequestCgroup

def root : Text := text "muvm-requests"

/-- The request's directory, under a new UUID. -/
def named (uuid : Text) : RequestCgroup := ⟨root ++ text "/" ++ uuid⟩

/-- What `RequestCgroup::create` does in the root helper. -/
def createAction (calls : LaunchCalls) (request : RequestCgroup) (cgroups : Cgroups) :
    Nat × Cgroups :=
  let umask := 0o022
  let (errno, cgroups) := cgroups.mkdir umask root calls.mkdirRoot
  if errno ≠ 0 ∧ errno ≠ eexist then (errno, cgroups)
  else
    let (errno, cgroups) := cgroups.mkdir umask request.path calls.mkdirName
    if errno ≠ 0 then (errno, cgroups)
    else if calls.openKill ≠ 0 then (calls.openKill, (cgroups.rmdir request.path).2)
    else (0, cgroups)

def create (helper : RootHelper) (calls : LaunchCalls) (uuid : Text) (cgroups : Cgroups) :
    Except HelperError RequestCgroup × Cgroups :=
  match asRoot helper (createAction calls (named uuid)) cgroups with
  | (.ok (), cgroups) => (.ok (named uuid), cgroups)
  | (.error failure, cgroups) => (.error failure, cgroups)

def remove (helper : RootHelper) (request : RequestCgroup) (cgroups : Cgroups) :
    Except HelperError Unit × Cgroups :=
  asRoot helper (fun cgroups => cgroups.rmdir request.path) cgroups

end RequestCgroup

/-- The forked child of a launch: its effective user and the cgroup it is in. -/
structure LaunchedProcess where
  euid : Nat
  cgroup : Text
  deriving DecidableEq

/-- A write to the `cgroup.procs` of a cgroup moves the process that makes it, once it is
complete; one that failed or fell short moves nothing. -/
def WriteResult.move (length : Nat) (path : Text) (process : LaunchedProcess) :
    WriteResult → LaunchedProcess
  | .count written => if written = length then { process with cgroup := path } else process
  | .failed .. => process

/-- The loop of `write_control` on a `cgroup.procs`; it goes on while its writes are
interrupted. -/
def writeLoop (length : Nat) (path : Text) :
    List WriteResult → LaunchedProcess → Option (Nat × LaunchedProcess)
  | [], _ => none
  | result :: rest, process =>
      let moved := result.move length path process
      if result.errno length = eintr then writeLoop length path rest moved
      else some (result.errno length, moved)

/-- `write_control` of `0` to the `cgroup.procs` of a request. -/
def writeProcs (calls : LaunchCalls) (request : RequestCgroup) (process : LaunchedProcess) :
    Option (Nat × LaunchedProcess) :=
  if calls.openProcs ≠ 0 then some (calls.openProcs, process)
  else writeLoop 1 request.path calls.writes process

/-- `RequestCgroup::enter`. -/
def RequestCgroup.enter (calls : LaunchCalls) (request : RequestCgroup)
    (process : LaunchedProcess) : Option (Nat × LaunchedProcess) :=
  let uid := process.euid
  if calls.seteuidRoot ≠ 0 then some (calls.seteuidRoot, process)
  else
    (writeProcs calls request { process with euid := 0 }).map fun (errno, process) =>
      if calls.seteuidBack ≠ 0 then (calls.seteuidBack, process)
      else (errno, { process with euid := uid })

/-- The closure given to `pre_exec`. -/
def preExec (calls : LaunchCalls) (request : RequestCgroup) (tty : Bool)
    (process : LaunchedProcess) : Option (Nat × LaunchedProcess) :=
  (request.enter calls process).map fun (errno, process) =>
    if errno ≠ 0 then (errno, process)
    else if calls.setsid ≠ 0 then (calls.setsid, process)
    else if tty ∧ calls.ioctl ≠ 0 then (calls.ioctl, process)
    else (0, process)

/-- `Command::spawn`: a fork of the worker, the closure in the child, and `exec`. A child
that fails has exited, and has been reaped, when `spawn` returns its error. -/
def spawn (calls : LaunchCalls) (worker : LaunchedProcess)
    (prepare : LaunchedProcess → Option (Nat × LaunchedProcess)) (cgroups : Cgroups) :
    Option (Except Nat LaunchedProcess × Cgroups) :=
  if calls.fork ≠ 0 then some (.error calls.fork, cgroups)
  else
    (prepare worker).map fun (errno, process) =>
      if errno ≠ 0 then (.error errno, { cgroups with occupied := none })
      else if calls.exec ≠ 0 then (.error calls.exec, { cgroups with occupied := none })
      else (.ok process, { cgroups with occupied := some process.cgroup })

/-- What `handle_connection` writes to the request connection. -/
inductive Reply where
  | ok
  | failure
  deriving DecidableEq

/-- What a launch leaves: the process that executed the program, as `exec` found it, and
the reply, if there was one. -/
structure LaunchOutcome where
  cgroups : Cgroups
  executed : Option LaunchedProcess
  reply : Option Reply

/-- The launch in `handle_connection`. -/
def handleConnection (helper : RootHelper) (calls : LaunchCalls) (uuid : Text) (vsockPort : Nat)
    (tty : Bool) (worker : LaunchedProcess) (directories : Text → Option Nat) :
    Option LaunchOutcome :=
  if vsockPort ≠ 0 then
    match RequestCgroup.create helper calls uuid ⟨directories, none⟩ with
    | (.error _, cgroups) => some ⟨cgroups, none, none⟩
    | (.ok request, cgroups) =>
        (spawn calls worker (preExec calls request tty) cgroups).map fun
          | (.ok process, cgroups) => ⟨cgroups, some process, some .ok⟩
          | (.error _, cgroups) =>
              match request.remove helper cgroups with
              | (.ok (), cgroups) => ⟨cgroups, none, some .failure⟩
              | (.error _, cgroups) => ⟨cgroups, none, none⟩
  else
    (spawn calls worker (fun process => some (0, process)) ⟨directories, none⟩).map fun
      | (.ok process, cgroups) => ⟨cgroups, some process, some .ok⟩
      | (.error _, cgroups) => ⟨cgroups, none, some .failure⟩

/-! ## The request's cgroup -/

/-- Two states of the cgroups differ at most in these directories, and no launched
process is in one. -/
structure Cgroups.Differ (made : Text → Prop) (before after : Cgroups) : Prop where
  idle : after.occupied = none
  kept : ∀ path, ¬ made path → after.directories path = before.directories path

section Cgroup

variable {helper : RootHelper} {calls : LaunchCalls} {request : RequestCgroup}
  {cgroups : Cgroups}

theorem Cgroups.mkdir_occupied (cgroups : Cgroups) (umask : Nat) (path : Text) (result : Nat) :
    (cgroups.mkdir umask path result).2.occupied = cgroups.occupied := by
  unfold Cgroups.mkdir
  split_ifs <;> rfl

theorem Cgroups.mkdir_of_ne (cgroups : Cgroups) (umask : Nat) {path other : Text} (result : Nat)
    (different : other ≠ path) :
    (cgroups.mkdir umask path result).2.directories other = cgroups.directories other := by
  unfold Cgroups.mkdir
  split_ifs
  · rfl
  · rfl
  · exact Function.update_of_ne different ..

theorem Cgroups.mkdir_failed {umask : Nat} {path : Text} {result : Nat}
    (failed : (cgroups.mkdir umask path result).1 ≠ 0) :
    (cgroups.mkdir umask path result).2 = cgroups := by
  unfold Cgroups.mkdir at failed ⊢
  split_ifs at failed ⊢
  · rfl
  · rfl
  · exact absurd rfl failed

theorem Cgroups.mkdir_done {umask : Nat} {path : Text} {result : Nat}
    (done : (cgroups.mkdir umask path result).1 = 0) :
    cgroups.directories path = none ∧ (cgroups.mkdir umask path result).2.directories =
      Function.update cgroups.directories path (some (0o755 &&& (0o777 ^^^ umask))) := by
  unfold Cgroups.mkdir at done ⊢
  split_ifs at done ⊢ with present failed
  · cases done
  · exact absurd done failed
  · exact ⟨Option.not_isSome_iff_eq_none.mp present, rfl⟩

/-- An empty directory is removed, and nothing else. -/
theorem Cgroups.rmdir_empty {path : Text} (idle : cgroups.occupied = none)
    (present : cgroups.directories path ≠ none) :
    cgroups.rmdir path =
      (0, { cgroups with directories := Function.update cgroups.directories path none }) := by
  unfold Cgroups.rmdir
  rw [if_neg present, if_neg (by rw [idle]; exact nofun)]

namespace RequestCgroup

/-- The cgroup was made by this launch, readable for all, and can be killed. -/
structure Made (calls : LaunchCalls) (request : RequestCgroup) (before after : Cgroups) : Prop where
  fresh : before.directories request.path = none
  directory : after.directories request.path = some 0o755
  kill : calls.openKill = 0

theorem named_path_ne_root (uuid : Text) : (named uuid).path ≠ root := by
  intro same
  have lengths := congrArg List.length same
  unfold named at lengths
  simp only [List.length_append] at lengths
  have slash : (text "/").length = 1 := by decide
  omega

/-- What the helper leaves: the request's cgroup, or at most the root of all. -/
theorem createAction_cases (different : request.path ≠ root) (idle : cgroups.occupied = none) :
    ((createAction calls request cgroups).1 = 0 ∧
      Made calls request cgroups (createAction calls request cgroups).2 ∧
      Cgroups.Differ (fun path => path = root ∨ path = request.path) cgroups
        (createAction calls request cgroups).2) ∨
    ((createAction calls request cgroups).1 ≠ 0 ∧
      Cgroups.Differ (· = root) cgroups (createAction calls request cgroups).2) := by
  have idleRoot := (cgroups.mkdir_occupied 0o022 root calls.mkdirRoot).trans idle
  have kept (path : Text) (other : path ≠ root) :=
    cgroups.mkdir_of_ne 0o022 calls.mkdirRoot other
  unfold createAction
  dsimp only
  generalize cgroups.mkdir 0o022 root calls.mkdirRoot = first at idleRoot kept ⊢
  have idleName := (first.2.mkdir_occupied 0o022 request.path calls.mkdirName).trans idleRoot
  split_ifs with rootFailed nameFailed killFailed
  · exact .inr ⟨rootFailed.1, idleRoot, kept⟩
  · refine .inr ⟨nameFailed, ?_⟩
    rw [Cgroups.mkdir_failed nameFailed]
    exact ⟨idleRoot, kept⟩
  · obtain ⟨fresh, made⟩ := Cgroups.mkdir_done (not_not.mp nameFailed)
    refine .inr ⟨killFailed, ?_⟩
    rw [Cgroups.rmdir_empty idleName (by rw [made, Function.update_self]; exact nofun), made,
      Function.update_idem]
    refine ⟨idleName, fun path other => ?_⟩
    by_cases own : path = request.path
    · subst own
      exact Function.update_self .. |>.trans (fresh.symm.trans (kept _ other))
    · exact Function.update_of_ne own .. |>.trans (kept path other)
  · obtain ⟨fresh, made⟩ := Cgroups.mkdir_done (not_not.mp nameFailed)
    refine .inl ⟨rfl, ⟨(kept _ different).symm.trans fresh, ?_, not_not.mp killFailed⟩,
      idleName, fun path other => ?_⟩
    · rw [made]
      exact Function.update_self ..
    · obtain ⟨notRoot, notOwn⟩ := not_or.mp other
      exact (Cgroups.mkdir_of_ne first.2 0o022 calls.mkdirName notOwn).trans (kept path notRoot)

/-- `create` makes the request's cgroup, or leaves at most the root of all behind. -/
theorem create_cases (helper : RootHelper) (calls : LaunchCalls) (uuid : Text)
    (idle : cgroups.occupied = none) :
    ((create helper calls uuid cgroups).1 = .ok (named uuid) ∧
      Made calls (named uuid) cgroups (create helper calls uuid cgroups).2 ∧
      Cgroups.Differ (fun path => path = root ∨ path = (named uuid).path) cgroups
        (create helper calls uuid cgroups).2) ∨
    ((∃ failure, (create helper calls uuid cgroups).1 = .error failure) ∧
      Cgroups.Differ (· = root) cgroups (create helper calls uuid cgroups).2) := by
  unfold create asRoot
  rcases helper.runs (createAction calls (named uuid)) cgroups with failed | ran
  · rw [failed]
    exact .inr ⟨⟨_, rfl⟩, idle, fun _ _ => rfl⟩
  · rw [ran]
    dsimp only
    rcases createAction_cases (named_path_ne_root uuid) idle with
      ⟨done, made⟩ | ⟨failed, differ⟩
    · rw [if_pos done]
      exact .inl ⟨rfl, made⟩
    · rw [if_neg failed]
      exact .inr ⟨⟨_, rfl⟩, differ⟩

end RequestCgroup

end Cgroup

/-! ## The launched process -/

section Process

variable {calls : LaunchCalls} {request : RequestCgroup} {tty : Bool}
  {process entered : LaunchedProcess} {errno : Nat}

/-- The write that ends the loop. -/
theorem writeLoop_isSome {length : Nat} {path : Text} {writes : List WriteResult}
    (answered : ∃ result ∈ writes, result.errno length ≠ eintr) (process : LaunchedProcess) :
    (writeLoop length path writes process).isSome := by
  induction writes generalizing process with
  | nil =>
      obtain ⟨result, member, _⟩ := answered
      cases member
  | cons first rest ih =>
      unfold writeLoop
      dsimp only
      split_ifs with interrupted
      · obtain ⟨result, member, ended⟩ := answered
        rcases List.mem_cons.mp member with rfl | later
        · exact absurd interrupted ended
        · exact ih ⟨result, later, ended⟩ _
      · rfl

/-- A write that reports no error was complete. -/
theorem WriteResult.move_spec (length : Nat) (path : Text) (process : LaunchedProcess)
    (result : WriteResult) :
    (result.move length path process).euid = process.euid ∧
      (result.errno length = 0 → (result.move length path process).cgroup = path) := by
  cases result with
  | count written =>
      by_cases complete : written = length
      · simp [WriteResult.move, complete]
      · simp [WriteResult.move, WriteResult.errno, eio, complete]
  | failed errno nonzero => exact ⟨rfl, fun done => absurd done nonzero⟩

/-- The loop answers 0 only to a process that one of its writes has moved. -/
theorem writeLoop_spec {length : Nat} {path : Text} {writes : List WriteResult}
    (ended : writeLoop length path writes process = some (errno, entered)) :
    entered.euid = process.euid ∧ (errno = 0 → entered.cgroup = path) := by
  induction writes generalizing process with
  | nil => cases ended
  | cons first rest ih =>
      obtain ⟨sameUser, moved⟩ := first.move_spec length path process
      unfold writeLoop at ended
      dsimp only at ended
      split_ifs at ended with interrupted
      · obtain ⟨sameLater, movedLater⟩ := ih ended
        exact ⟨sameLater.trans sameUser, movedLater⟩
      · cases ended
        exact ⟨sameUser, moved⟩

/-- The user the process was and the request's cgroup. -/
def InRequest (request : RequestCgroup) (process : LaunchedProcess) : LaunchedProcess :=
  ⟨process.euid, request.path⟩

theorem writeProcs_spec (written : writeProcs calls request process = some (errno, entered)) :
    entered.euid = process.euid ∧ (errno = 0 → entered.cgroup = request.path) := by
  unfold writeProcs at written
  split_ifs at written with failed
  · cases written
    exact ⟨rfl, fun done => absurd done failed⟩
  · exact writeLoop_spec written

/-- `enter` succeeds only in the request's cgroup and as the user it was called by. -/
theorem enter_spec (done : request.enter calls process = some (0, entered)) :
    entered = InRequest request process := by
  unfold RequestCgroup.enter at done
  split_ifs at done with notRoot notBack
  · exact absurd (congrArg Prod.fst (Option.some.inj done)) notRoot
  · obtain ⟨⟨ended, inside⟩, -, same⟩ := Option.map_eq_some_iff.mp done
    exact absurd (congrArg Prod.fst same) notBack
  · obtain ⟨⟨ended, inside⟩, written, same⟩ := Option.map_eq_some_iff.mp done
    cases same
    have moved := (writeProcs_spec written).2 rfl
    unfold InRequest
    rw [← moved]

theorem preExec_spec (done : preExec calls request tty process = some (0, entered)) :
    entered = InRequest request process := by
  unfold preExec at done
  obtain ⟨⟨ended, inside⟩, ran, same⟩ := Option.map_eq_some_iff.mp done
  dsimp only at same
  split_ifs at same with notEntered noSession noTerminal
  · exact absurd (congrArg Prod.fst same) notEntered
  · exact absurd (congrArg Prod.fst same) noSession
  · exact absurd (congrArg Prod.fst same) noTerminal.2
  · cases same
    rw [not_not.mp notEntered] at ran
    exact enter_spec ran

theorem preExec_isSome (request : RequestCgroup) (tty : Bool) (process : LaunchedProcess)
    (answered : ∃ result ∈ calls.writes, result.errno 1 ≠ eintr) :
    (preExec calls request tty process).isSome := by
  unfold preExec RequestCgroup.enter writeProcs
  rw [Option.isSome_map]
  split_ifs
  · rfl
  all_goals
    rw [Option.isSome_map]
    first
      | rfl
      | exact writeLoop_isSome answered _

/-- `spawn` executes the program in a process its closure prepared, or leaves no process. -/
theorem spawn_cases {prepare : LaunchedProcess → Option (Nat × LaunchedProcess)}
    {cgroups after : Cgroups} {result : Except Nat LaunchedProcess}
    (idle : cgroups.occupied = none)
    (spawned : spawn calls process prepare cgroups = some (result, after)) :
    after.directories = cgroups.directories ∧
      (∀ entered, result = .ok entered → prepare process = some (0, entered)) ∧
      ∀ failure, result = .error failure → after.occupied = none := by
  unfold spawn at spawned
  by_cases notForked : calls.fork ≠ 0
  · rw [if_pos notForked] at spawned
    cases spawned
    exact ⟨rfl, nofun, fun _ _ => idle⟩
  · rw [if_neg notForked] at spawned
    obtain ⟨⟨errno, child⟩, prepared, same⟩ := Option.map_eq_some_iff.mp spawned
    dsimp only at same
    split_ifs at same with notPrepared notExecuted
    · cases same
      exact ⟨rfl, nofun, fun _ _ => rfl⟩
    · cases same
      exact ⟨rfl, nofun, fun _ _ => rfl⟩
    · cases same
      refine ⟨rfl, ?_, nofun⟩
      rintro entered ⟨⟩
      rw [prepared, not_not.mp notPrepared]

theorem spawn_isSome (calls : LaunchCalls)
    {prepare : LaunchedProcess → Option (Nat × LaunchedProcess)}
    (ends : (prepare process).isSome) (cgroups : Cgroups) :
    (spawn calls process prepare cgroups).isSome := by
  unfold spawn
  by_cases notForked : calls.fork ≠ 0
  · rw [if_pos notForked]
    rfl
  · rw [if_neg notForked, Option.isSome_map]
    exact ends

end Process

/-! ## The whole launch -/

/-- An empty cgroup is removed when it is asked for. -/
def RootHelper.Removes (helper : RootHelper) : Prop :=
  ∀ (request : RequestCgroup) (cgroups : Cgroups), cgroups.occupied = none →
    cgroups.directories request.path ≠ none →
    helper.run (fun cgroups => cgroups.rmdir request.path) cgroups =
      (some (cgroups.rmdir request.path).1, (cgroups.rmdir request.path).2)

/-- The program is executed in the request's own new cgroup, which can be killed, as the
user the worker runs as. -/
structure Tracked (calls : LaunchCalls) (request : RequestCgroup) (worker : LaunchedProcess)
    (directories : Text → Option Nat) (launch : LaunchOutcome) : Prop where
  fresh : directories request.path = none
  directory : launch.cgroups.directories request.path = some 0o755
  kill : calls.openKill = 0
  executed : ∃ process, launch.executed = some process ∧ process.cgroup = request.path ∧
    process.euid = worker.euid

/-- Nothing is executed, the client is not told `OK`, and no directory is left but the
root of all requests. -/
structure Undone (directories : Text → Option Nat) (launch : LaunchOutcome) : Prop where
  executed : launch.executed = none
  reply : launch.reply ≠ some .ok
  directories : ∀ path, path ≠ RequestCgroup.root →
    launch.cgroups.directories path = directories path

section Outcomes

variable {helper : RootHelper} {calls : LaunchCalls} {request : RequestCgroup} {tty : Bool}
  {worker process : LaunchedProcess} {directories : Text → Option Nat} {cgroups after : Cgroups}

theorem tracked_of_spawned (made : request.Made calls ⟨directories, none⟩ cgroups)
    (idle : cgroups.occupied = none)
    (spawned : spawn calls worker (preExec calls request tty) cgroups =
      some (.ok process, after)) :
    Tracked calls request worker directories ⟨after, some process, some .ok⟩ := by
  obtain ⟨kept, prepared, -⟩ := spawn_cases idle spawned
  have inside := preExec_spec (prepared process rfl)
  refine ⟨made.fresh, ?_, made.kill, process, rfl, ?_, ?_⟩
  · exact (congrFun kept request.path).trans made.directory
  · rw [inside]
    rfl
  · rw [inside]
    rfl

/-- A cgroup that was made and not entered, or left, is removed again. -/
theorem removed_of_not_spawned (removes : helper.Removes)
    (made : request.Made calls ⟨directories, none⟩ cgroups)
    (differ : Cgroups.Differ (fun path => path = RequestCgroup.root ∨ path = request.path)
      ⟨directories, none⟩ cgroups) {failure : Nat}
    (spawned : spawn calls worker (preExec calls request tty) cgroups =
      some (.error failure, after)) :
    ∃ removed, request.remove helper after = (.ok (), removed) ∧
      ∀ path, path ≠ RequestCgroup.root → removed.directories path = directories path := by
  obtain ⟨kept, -, left⟩ := spawn_cases differ.idle spawned
  have empty := left failure rfl
  have present : after.directories request.path ≠ none := by
    rw [kept, made.directory]
    exact nofun
  refine ⟨⟨Function.update after.directories request.path none, after.occupied⟩, ?_, ?_⟩
  · unfold RequestCgroup.remove asRoot
    rw [removes request after empty present, Cgroups.rmdir_empty empty present]
    rfl
  · intro path other
    dsimp only
    rw [kept]
    by_cases own : path = request.path
    · subst own
      rw [Function.update_self]
      exact made.fresh.symm
    · rw [Function.update_of_ne own]
      exact differ.kept path (not_or.mpr ⟨other, own⟩)

end Outcomes

/-- **No untracked or privileged launch.** Whatever the system calls of a launch return,
it ends, and its program is executed in the request's own cgroup as the right user, or
not at all. -/
theorem handleConnection_tracked (helper : RootHelper) (calls : LaunchCalls) (uuid : Text)
    (vsockPort : Nat) (tty : Bool) (worker : LaunchedProcess) (directories : Text → Option Nat)
    (interactive : vsockPort ≠ 0) (removes : helper.Removes)
    (answered : ∃ result ∈ calls.writes, result.errno 1 ≠ eintr) :
    ∃ launch, handleConnection helper calls uuid vsockPort tty worker directories = some launch ∧
      (Tracked calls (.named uuid) worker directories launch ∨ Undone directories launch) := by
  have idle : (Cgroups.mk directories none).occupied = none := rfl
  unfold handleConnection
  rw [if_pos interactive]
  rcases RequestCgroup.create_cases helper calls uuid idle with
    ⟨created, made, differ⟩ | ⟨⟨failure, refused⟩, differ⟩
  · generalize RequestCgroup.create helper calls uuid ⟨directories, none⟩ = outcome
      at created made differ
    obtain ⟨result, cgroups⟩ := outcome
    cases created
    dsimp only at made differ ⊢
    obtain ⟨⟨result, after⟩, spawned⟩ := Option.isSome_iff_exists.mp
      (spawn_isSome calls (preExec_isSome (.named uuid) tty worker answered) cgroups)
    rw [spawned]
    cases result with
    | ok process => exact ⟨_, rfl, .inl (tracked_of_spawned made differ.idle spawned)⟩
    | error failure =>
        obtain ⟨removed, done, kept⟩ := removed_of_not_spawned removes made differ spawned
        refine ⟨⟨removed, none, some .failure⟩, ?_, .inr ⟨rfl, nofun, kept⟩⟩
        rw [Option.map_some]
        dsimp only
        rw [done]
  · generalize RequestCgroup.create helper calls uuid ⟨directories, none⟩ = outcome
      at refused differ
    obtain ⟨result, cgroups⟩ := outcome
    cases refused
    exact ⟨_, rfl, .inr ⟨rfl, nofun, differ.kept⟩⟩

/-- A helper that always runs. -/
def readyHelper : RootHelper where
  run action cgroups := (some (action cgroups).1, (action cgroups).2)
  runs _ _ := .inr rfl

/-- A root of all requests that is there already, and a write that is interrupted twice
before it is complete. -/
def interruptedLaunch : LaunchCalls where
  mkdirRoot := eexist
  mkdirName := 0
  openKill := 0
  fork := 0
  seteuidRoot := 0
  openProcs := 0
  writes := [.failed eintr (by decide), .failed eintr (by decide), .count 1]
  seteuidBack := 0
  setsid := 0
  ioctl := 0
  exec := 0

def sampleWorker : LaunchedProcess := ⟨1000, text "muvm.service"⟩

theorem handleConnection_tracked_sample :
    (∃ launch, handleConnection readyHelper interruptedLaunch (text "uuid") 50000 true sampleWorker
        (fun _ => none) = some launch ∧
      (Tracked interruptedLaunch (.named (text "uuid")) sampleWorker (fun _ => none) launch ∨
        Undone (fun _ => none) launch)) ∧
      (handleConnection readyHelper interruptedLaunch (text "uuid") 50000 true sampleWorker
        fun _ => none).bind LaunchOutcome.executed = some ⟨1000, text "muvm-requests/uuid"⟩ :=
  ⟨handleConnection_tracked readyHelper interruptedLaunch (text "uuid") 50000 true sampleWorker
    (fun _ => none) (by decide) (fun _ _ _ _ => rfl)
    ⟨.count 1, .tail _ (.tail _ (.head _)), by decide⟩,
    by decide +kernel⟩

end X86OnArm.Muvm
