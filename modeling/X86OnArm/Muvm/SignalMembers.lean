import X86OnArm.Foundation.Machine
import X86OnArm.Foundation.Text
import Mathlib.Algebra.Group.Nat.Defs

/-! # The graceful pass over a request's cgroup

`signal_members` reads PIDs, and a PID may have another owner by the time it is
used. The pass therefore pins the PID's owner and then reads the membership the PID
has. Where the two are one process, it is a member and stays one; where they are
not, the pinned process is gone (`PassState.Safe`). So a signal that is delivered is
delivered to a member (`signalMembers_delivers_to_members`), whatever the processes
of the guest do in between.
-/

namespace X86OnArm.Muvm

open Foundation

/-- How far a process is. One that is launching was forked by the server for a request,
and enters the request's cgroup before it executes anything. -/
inductive ProcessStatus where
  | launching
  | running
  | zombie
  | reaped
  deriving DecidableEq

structure GuestProcess where
  pid : Nat
  /-- The path in the cgroup hierarchy. -/
  cgroup : Text
  status : ProcessStatus
  deriving DecidableEq

/-- The processes of a guest, each at the place of its identity. -/
abbrev ProcessTable := List GuestProcess

namespace ProcessTable

/-- The process that has a PID: PIDs are free when their process has been reaped. -/
def owner (table : ProcessTable) (pid : Nat) : Option Nat :=
  table.findIdx? fun process => process.pid == pid && process.status != .reaped

/-- The process of an identity, while it is not gone. -/
def present (table : ProcessTable) (identity : Nat) : Option GuestProcess :=
  table[identity]?.filter fun process => process.status != .reaped

def replace (table : ProcessTable) (identity : Nat) (process : GuestProcess) : ProcessTable :=
  table.set identity process

def create (table : ProcessTable) (process : GuestProcess) : ProcessTable := table ++ [process]

end ProcessTable

/-- `RequestCgroup`, by its path below `/sys/fs/cgroup`. -/
structure RequestCgroup where
  path : Text

namespace RequestCgroup

/-- The cgroup's path in the hierarchy. -/
def cgroup (request : RequestCgroup) : Text := text "/" ++ request.path

/-- The line that `signal_members` looks for. -/
def membership (request : RequestCgroup) : Text := text "0::/" ++ request.path

end RequestCgroup

/-- The lines of `/proc/{pid}/cgroup`. -/
def GuestProcess.cgroupFile (process : GuestProcess) : List Text :=
  [text "0::" ++ process.cgroup]

/-- `line.parse::<i32>().ok().and_then(Pid::from_raw)`. -/
def parsePid (line : Nat) : Option Nat := if 0 < line ∧ line < 2 ^ 31 then some line else none

/-- Where the pass is, with the lines it has left. -/
inductive PassPoint where
  | line (rest : List Nat)
  | pidfdOpen (pid : Nat) (rest : List Nat)
  | openCgroup (pinned pid : Nat) (rest : List Nat)
  | readCgroup (pinned opened : Nat) (rest : List Nat)
  | pidfdSend (pinned : Nat) (rest : List Nat)
  | returned
  deriving DecidableEq

structure PassState where
  table : ProcessTable
  point : PassPoint
  /-- The processes SIGTERM was delivered to, as they were then. -/
  delivered : List GuestProcess
  deriving DecidableEq

/-- What the processes of the guest do, whichever request they belong to. -/
inductive TableAction where
  /-- A process is created, with a PID no other one has. -/
  | spawn (pid : Nat) (cgroup : Text) (launching : Bool)
  | enter (identity : Nat) (cgroup : Text)
  | exit (identity : Nat)
  | reap (identity : Nat)
  deriving DecidableEq

/-- The system calls of the pass; a failing one ends the work on its line. -/
inductive PassAction where
  | table (action : TableAction)
  | line
  | pidfdOpen (succeeds : Bool)
  | openCgroup (succeeds : Bool)
  | readCgroup (succeeds : Bool)
  | pidfdSend (succeeds : Bool)
  deriving DecidableEq

def ProcessTable.step (request : RequestCgroup) (table : ProcessTable) :
    TableAction → Option ProcessTable
  | .spawn pid cgroup launching =>
      -- The server, whose processes launch, is in none of the requests' cgroups.
      if table.owner pid = none ∧ (launching = true → cgroup ≠ request.cgroup) then
        some (table.create ⟨pid, cgroup, if launching then .launching else .running⟩)
      else none
  | .enter identity cgroup => do
      let process ← table[identity]?
      if process.status = .launching then
        some (table.replace identity { process with cgroup, status := .running })
      else none
  | .exit identity => do
      let process ← table[identity]?
      if process.status = .launching ∨ process.status = .running then
        some (table.replace identity { process with status := .zombie })
      else none
  | .reap identity => do
      let process ← table[identity]?
      if process.status = .zombie then
        some (table.replace identity { process with status := .reaped })
      else none

namespace PassState

/-- The pass over the lines it has read, before the first process. -/
def start (lines : List Nat) : PassState := ⟨[], .line lines, []⟩

def move (state : PassState) (point : PassPoint) : PassState := { state with point }

def step (request : RequestCgroup) (state : PassState) : PassAction → Option PassState
  | .table action => (state.table.step request action).map fun table => { state with table }
  | .line =>
      match state.point with
      | .line [] => some (state.move .returned)
      | .line (line :: rest) =>
          match parsePid line with
          | none => some (state.move (.line rest))
          | some pid => some (state.move (.pidfdOpen pid rest))
      | _ => none
  | .pidfdOpen succeeds =>
      match state.point with
      | .pidfdOpen pid rest =>
          if succeeds then (state.table.owner pid).map fun pinned =>
            state.move (.openCgroup pinned pid rest)
          else some (state.move (.line rest))
      | _ => none
  | .openCgroup succeeds =>
      match state.point with
      | .openCgroup pinned pid rest =>
          if succeeds then (state.table.owner pid).map fun opened =>
            state.move (.readCgroup pinned opened rest)
          else some (state.move (.line rest))
      | _ => none
  | .readCgroup succeeds =>
      match state.point with
      | .readCgroup pinned opened rest =>
          if succeeds then (state.table.present opened).map fun process =>
            if request.membership ∈ process.cgroupFile then state.move (.pidfdSend pinned rest)
            else state.move (.line rest)
          else some (state.move (.line rest))
      | _ => none
  | .pidfdSend succeeds =>
      match state.point with
      | .pidfdSend pinned rest => some
          { state.move (.line rest) with
            delivered := state.delivered ++
              if succeeds then (state.table.present pinned).toList else [] }
      | _ => none

end PassState

/-- The pass of one request and the processes of its guest. -/
def signalMembers (request : RequestCgroup) : Machine PassState PassAction :=
  ⟨PassState.step request⟩

section Table

variable {request : RequestCgroup} {table after : ProcessTable}

theorem ProcessTable.owner_eq_some {pid identity : Nat} (owns : table.owner pid = some identity) :
    ∃ process, table.present identity = some process ∧ process.pid = pid := by
  obtain ⟨bound, found, -⟩ := List.findIdx?_eq_some_iff_getElem.mp owns
  rw [Bool.and_eq_true, beq_iff_eq] at found
  refine ⟨table[identity], ?_, found.1⟩
  unfold present
  rw [List.getElem?_eq_getElem bound]
  exact Option.filter_eq_some_iff.mpr ⟨rfl, found.2⟩

theorem ProcessTable.present_eq_some {identity : Nat} {process : GuestProcess} :
    table.present identity = some process ↔
      table[identity]? = some process ∧ process.status ≠ .reaped := by
  unfold present
  rw [Option.filter_eq_some_iff, bne_iff_ne]

theorem ProcessTable.owner_eq_none {pid : Nat} (free : table.owner pid = none) {identity : Nat}
    {process : GuestProcess} (present : table.present identity = some process) :
    process.pid ≠ pid := by
  rintro rfl
  obtain ⟨stored, unreaped⟩ := present_eq_some.mp present
  have absent := List.findIdx?_eq_none_iff.mp free process (List.mem_of_getElem? stored)
  rw [beq_self_eq_true, Bool.true_and, bne_eq_false_iff_eq] at absent
  exact unreaped absent

/-- Only the members' cgroup file has the line the pass looks for. -/
theorem membership_mem_cgroupFile {process : GuestProcess} :
    request.membership ∈ process.cgroupFile ↔ process.cgroup = request.cgroup := by
  have split : request.membership = text "0::" ++ request.cgroup := rfl
  unfold GuestProcess.cgroupFile
  rw [List.mem_singleton, split, List.append_cancel_left_eq, eq_comm]

/-- What a process can become: it keeps its PID, stays gone, and stays in its cgroup once
it has entered it. -/
structure GuestProcess.Becomes (process later : GuestProcess) : Prop where
  pid : later.pid = process.pid
  gone : process.status = .reaped → later.status = .reaped
  stays : process.status ≠ .launching →
    later.status ≠ .launching ∧ later.cgroup = process.cgroup

theorem GuestProcess.Becomes.refl (process : GuestProcess) : process.Becomes process :=
  ⟨rfl, id, fun entered => ⟨entered, rfl⟩⟩

/-- Every process of a table has become one of the later table. -/
def ProcessTable.Becomes (table after : ProcessTable) : Prop :=
  ∀ (identity : Nat) (process : GuestProcess), table[identity]? = some process →
    ∃ later, after[identity]? = some later ∧ process.Becomes later

/-- No two processes share a PID, and no launching process is in the request's cgroup. -/
structure ProcessTable.Valid (request : RequestCgroup) (table : ProcessTable) : Prop where
  unique : ∀ (first second : Nat) (process other : GuestProcess),
    table.present first = some process → table.present second = some other →
      process.pid = other.pid → first = second
  outside : ∀ (identity : Nat) (process : GuestProcess), table[identity]? = some process →
    process.status = .launching → process.cgroup ≠ request.cgroup

theorem ProcessTable.becomes_replace {identity : Nat} {process later : GuestProcess}
    (stored : table[identity]? = some process) (becomes : process.Becomes later) :
    table.Becomes (table.replace identity later) := by
  intro other old found
  unfold replace
  rw [List.getElem?_set]
  split
  next same =>
    subst same
    cases stored.symm.trans found
    rw [if_pos (List.getElem?_eq_some_iff.mp stored).1]
    exact ⟨later, rfl, becomes⟩
  next => exact ⟨old, found, .refl old⟩

/-- A process that is there after a change to one process was there before, with its PID. -/
theorem ProcessTable.present_replace {identity other : Nat} {process later found : GuestProcess}
    (stored : table[identity]? = some process) (pid : later.pid = process.pid)
    (alive : process.status ≠ .reaped)
    (present : (table.replace identity later).present other = some found) :
    ∃ old, table.present other = some old ∧ old.pid = found.pid := by
  obtain ⟨entry, unreaped⟩ := present_eq_some.mp present
  unfold replace at entry
  rw [List.getElem?_set] at entry
  split at entry
  next same =>
    subst same
    rw [if_pos (List.getElem?_eq_some_iff.mp stored).1] at entry
    cases entry
    exact ⟨process, present_eq_some.mpr ⟨stored, alive⟩, pid.symm⟩
  next => exact ⟨found, present_eq_some.mpr ⟨entry, unreaped⟩, rfl⟩

theorem ProcessTable.Valid.replace {identity : Nat} {process later : GuestProcess}
    (valid : table.Valid request) (stored : table[identity]? = some process)
    (pid : later.pid = process.pid) (alive : process.status ≠ .reaped)
    (launched : later.status ≠ .launching) : (table.replace identity later).Valid request where
  unique := by
    intro first second one other presentFirst presentSecond same
    obtain ⟨oldFirst, wasFirst, pidFirst⟩ := present_replace stored pid alive presentFirst
    obtain ⟨oldSecond, wasSecond, pidSecond⟩ := present_replace stored pid alive presentSecond
    exact valid.unique first second oldFirst oldSecond wasFirst wasSecond
      ((pidFirst.trans same).trans pidSecond.symm)
  outside := by
    intro other found entry launching
    unfold ProcessTable.replace at entry
    rw [List.getElem?_set] at entry
    split at entry
    next same =>
      subst same
      rw [if_pos (List.getElem?_eq_some_iff.mp stored).1] at entry
      cases entry
      exact absurd launching launched
    next => exact valid.outside other found entry launching

theorem ProcessTable.getElem?_create {identity : Nat} {fresh found : GuestProcess}
    (entry : (table.create fresh)[identity]? = some found) :
    table[identity]? = some found ∨ (identity = table.length ∧ found = fresh) := by
  unfold create at entry
  rcases Nat.lt_or_ge identity table.length with old | new
  · rw [List.getElem?_append_left old] at entry
    exact .inl entry
  · rw [List.getElem?_append_right new] at entry
    have bound := (List.getElem?_eq_some_iff.mp entry).1
    rw [List.length_singleton] at bound
    have zero : identity - table.length = 0 := by omega
    rw [zero] at entry
    cases entry
    exact .inr ⟨by omega, rfl⟩

theorem ProcessTable.Valid.create {fresh : GuestProcess} (valid : table.Valid request)
    (free : table.owner fresh.pid = none)
    (outside : fresh.status = .launching → fresh.cgroup ≠ request.cgroup) :
    (table.create fresh).Valid request where
  unique := by
    intro first second one other presentFirst presentSecond same
    obtain ⟨entryFirst, unreapedFirst⟩ := present_eq_some.mp presentFirst
    obtain ⟨entrySecond, unreapedSecond⟩ := present_eq_some.mp presentSecond
    rcases getElem?_create entryFirst with oldFirst | ⟨rfl, rfl⟩
    · have was := present_eq_some.mpr ⟨oldFirst, unreapedFirst⟩
      rcases getElem?_create entrySecond with oldSecond | ⟨rfl, rfl⟩
      · exact valid.unique first second one other was
          (present_eq_some.mpr ⟨oldSecond, unreapedSecond⟩) same
      · exact absurd same (owner_eq_none free was)
    · rcases getElem?_create entrySecond with oldSecond | ⟨rfl, rfl⟩
      · have was := present_eq_some.mpr ⟨oldSecond, unreapedSecond⟩
        exact absurd same.symm (owner_eq_none free was)
      · rfl
  outside := by
    intro identity process entry launching
    rcases getElem?_create entry with old | ⟨-, rfl⟩
    · exact valid.outside identity process old launching
    · exact outside launching

/-- A process that is not gone changes its status, and its cgroup if it is launching. -/
theorem ProcessTable.Valid.changed {identity : Nat} {process later : GuestProcess}
    (valid : table.Valid request) (stored : table[identity]? = some process)
    (alive : process.status ≠ .reaped) (pid : later.pid = process.pid)
    (launched : later.status ≠ .launching)
    (stays : process.status ≠ .launching → later.cgroup = process.cgroup) :
    (table.replace identity later).Valid request ∧
      table.Becomes (table.replace identity later) := by
  have becomes : process.Becomes later :=
    ⟨pid, fun gone => absurd gone alive, fun entered => ⟨launched, stays entered⟩⟩
  exact ⟨valid.replace stored pid alive launched, becomes_replace stored becomes⟩

/-- What the processes do keeps the table valid, and each process one it can become. -/
theorem ProcessTable.step_valid {action : TableAction} (valid : table.Valid request)
    (stepped : table.step request action = some after) :
    after.Valid request ∧ table.Becomes after := by
  cases action with
  | spawn pid cgroup launching =>
      simp only [ProcessTable.step] at stepped
      split at stepped
      next guard =>
        cases stepped
        refine ⟨valid.create guard.1 ?_, ?_⟩
        · cases launching with
          | true => exact fun _ => guard.2 rfl
          | false => exact fun impossible => nomatch impossible
        · intro identity process entry
          have bound := (List.getElem?_eq_some_iff.mp entry).1
          exact ⟨process, (List.getElem?_append_left bound).trans entry, .refl process⟩
      next => cases stepped
  | enter identity cgroup =>
      obtain ⟨process, stored, changed⟩ := Option.bind_eq_some_iff.mp stepped
      split at changed
      next launching =>
        cases changed
        have alive : process.status ≠ .reaped := fun gone => nomatch launching.symm.trans gone
        exact valid.changed stored alive rfl nofun fun entered => absurd launching entered
      next => cases changed
  | exit identity =>
      obtain ⟨process, stored, changed⟩ := Option.bind_eq_some_iff.mp stepped
      split at changed
      next running =>
        cases changed
        have alive : process.status ≠ .reaped := by
          rcases running with launching | running
          · exact fun gone => nomatch launching.symm.trans gone
          · exact fun gone => nomatch running.symm.trans gone
        exact valid.changed stored alive rfl nofun fun _ => rfl
      next => cases changed
  | reap identity =>
      obtain ⟨process, stored, changed⟩ := Option.bind_eq_some_iff.mp stepped
      split at changed
      next zombie =>
        cases changed
        have alive : process.status ≠ .reaped := fun gone => nomatch zombie.symm.trans gone
        exact valid.changed stored alive rfl nofun fun _ => rfl
      next => cases changed

end Table

section Pass

variable {request : RequestCgroup} {state after : PassState}

/-- The pinned process is a member of the cgroup, or gone. -/
def ProcessTable.MemberOrGone (request : RequestCgroup) (table : ProcessTable) (pinned : Nat) :
    Prop :=
  ∃ process : GuestProcess, table[pinned]? = some process ∧ (process.status = .reaped ∨
    (process.status ≠ .launching ∧ process.cgroup = request.cgroup))

/-- What the pass relies on between its system calls. -/
def PassPoint.Sound (request : RequestCgroup) (table : ProcessTable) : PassPoint → Prop
  | .line _ | .pidfdOpen _ _ | .returned => True
  | .openCgroup pinned pid _ =>
      ∃ process : GuestProcess, table[pinned]? = some process ∧ process.pid = pid
  | .readCgroup pinned opened _ =>
      -- The PID has gone on to another process only after the pinned one was gone.
      ∃ process : GuestProcess, table[pinned]? = some process ∧
        (process.status = .reaped ∨ opened = pinned)
  | .pidfdSend pinned _ => table.MemberOrGone request pinned

/-- The pass has signalled members only. -/
structure PassState.Safe (request : RequestCgroup) (state : PassState) : Prop where
  valid : state.table.Valid request
  sound : state.point.Sound request state.table
  delivered : ∀ process ∈ state.delivered, process.cgroup = request.cgroup

theorem PassPoint.Sound.becomes {point : PassPoint} {table later : ProcessTable}
    (sound : point.Sound request table) (becomes : table.Becomes later) :
    point.Sound request later := by
  cases point with
  | line rest => trivial
  | pidfdOpen pid rest => trivial
  | returned => trivial
  | openCgroup pinned pid rest =>
      obtain ⟨process, stored, owns⟩ := sound
      obtain ⟨next, entry, change⟩ := becomes pinned process stored
      exact ⟨next, entry, change.pid.trans owns⟩
  | readCgroup pinned opened rest =>
      obtain ⟨process, stored, either⟩ := sound
      obtain ⟨next, entry, change⟩ := becomes pinned process stored
      exact ⟨next, entry, either.imp_left change.gone⟩
  | pidfdSend pinned rest =>
      obtain ⟨process, stored, either⟩ := sound
      obtain ⟨next, entry, change⟩ := becomes pinned process stored
      refine ⟨next, entry, ?_⟩
      rcases either with gone | ⟨entered, member⟩
      · exact .inl (change.gone gone)
      · obtain ⟨launched, same⟩ := change.stays entered
        exact .inr ⟨launched, same.trans member⟩

theorem PassState.Safe.move {point : PassPoint} (safe : state.Safe request)
    (sound : point.Sound request state.table) : (state.move point).Safe request :=
  ⟨safe.valid, sound, safe.delivered⟩

/-- The owner the PID has when its cgroup file is opened is the pinned process, or the
pinned process is gone. -/
theorem PassState.Safe.opened {pinned pid opened : Nat} {rest : List Nat}
    (safe : state.Safe request) (here : state.point = .openCgroup pinned pid rest)
    (owns : state.table.owner pid = some opened) :
    (PassPoint.readCgroup pinned opened rest).Sound request state.table := by
  have sound := safe.sound
  rw [here] at sound
  obtain ⟨process, stored, hadPid⟩ := sound
  refine ⟨process, stored, ?_⟩
  by_cases gone : process.status = .reaped
  · exact .inl gone
  · obtain ⟨current, present, hasPid⟩ := ProcessTable.owner_eq_some owns
    exact .inr (safe.valid.unique opened pinned current process present
      (ProcessTable.present_eq_some.mpr ⟨stored, gone⟩) (hasPid.trans hadPid.symm))

/-- A membership that was read is that of the pinned process, unless this is gone. -/
theorem PassState.Safe.checked {pinned opened : Nat} {rest : List Nat} {process : GuestProcess}
    (safe : state.Safe request) (here : state.point = .readCgroup pinned opened rest)
    (present : state.table.present opened = some process)
    (member : request.membership ∈ process.cgroupFile) :
    state.table.MemberOrGone request pinned := by
  have sound := safe.sound
  rw [here] at sound
  obtain ⟨owner, stored, gone | rfl⟩ := sound
  · exact ⟨owner, stored, .inl gone⟩
  · have entry := (ProcessTable.present_eq_some.mp present).1
    cases stored.symm.trans entry
    have inside := membership_mem_cgroupFile.mp member
    exact ⟨process, stored, .inr
      ⟨fun launching => safe.valid.outside opened process stored launching inside, inside⟩⟩

/-- A signal that reaches a process reaches a member. -/
theorem PassState.Safe.sent {pinned : Nat} {rest : List Nat} (safe : state.Safe request)
    (here : state.point = .pidfdSend pinned rest) (succeeds : Bool) :
    ∀ process ∈ (if succeeds then (state.table.present pinned).toList else []),
      process.cgroup = request.cgroup := by
  intro process member
  split at member
  next =>
    have sound := safe.sound
    rw [here] at sound
    obtain ⟨owner, stored, either⟩ := sound
    obtain ⟨entry, unreaped⟩ := ProcessTable.present_eq_some.mp (Option.mem_toList.mp member)
    cases stored.symm.trans entry
    exact (either.resolve_left unreaped).2
  next => cases member

theorem PassState.Safe.step {action : PassAction} (safe : state.Safe request)
    (stepped : state.step request action = some after) : after.Safe request := by
  cases action with
  | table action =>
      obtain ⟨table, changed, rfl⟩ := Option.map_eq_some_iff.mp stepped
      obtain ⟨valid, becomes⟩ := ProcessTable.step_valid safe.valid changed
      exact ⟨valid, safe.sound.becomes becomes, safe.delivered⟩
  | line =>
      simp only [PassState.step] at stepped
      split at stepped
      next =>
        cases stepped
        exact safe.move trivial
      next =>
        split at stepped <;> cases stepped <;> exact safe.move trivial
      next => cases stepped
  | pidfdOpen succeeds =>
      simp only [PassState.step] at stepped
      split at stepped
      next pid rest here =>
        split at stepped
        next =>
          obtain ⟨pinned, owns, rfl⟩ := Option.map_eq_some_iff.mp stepped
          obtain ⟨process, present, hasPid⟩ := ProcessTable.owner_eq_some owns
          exact safe.move ⟨process, (ProcessTable.present_eq_some.mp present).1, hasPid⟩
        next =>
          cases stepped
          exact safe.move trivial
      next => cases stepped
  | openCgroup succeeds =>
      simp only [PassState.step] at stepped
      split at stepped
      next pinned pid rest here =>
        split at stepped
        next =>
          obtain ⟨opened, owns, rfl⟩ := Option.map_eq_some_iff.mp stepped
          exact safe.move (safe.opened here owns)
        next =>
          cases stepped
          exact safe.move trivial
      next => cases stepped
  | readCgroup succeeds =>
      simp only [PassState.step] at stepped
      split at stepped
      next pinned opened rest here =>
        split at stepped
        next =>
          obtain ⟨process, present, rfl⟩ := Option.map_eq_some_iff.mp stepped
          split
          next member => exact safe.move (safe.checked here present member)
          next => exact safe.move trivial
        next =>
          cases stepped
          exact safe.move trivial
      next => cases stepped
  | pidfdSend succeeds =>
      simp only [PassState.step] at stepped
      split at stepped
      next pinned rest here =>
        cases stepped
        refine ⟨safe.valid, trivial, ?_⟩
        intro process member
        rcases List.mem_append.mp member with earlier | now
        · exact safe.delivered process earlier
        · exact safe.sent here succeeds process now
      next => cases stepped

/-- **The graceful pass signals its own request only.** Whatever PIDs were read and
however the pass interleaves with processes that exit, are reaped, fork, launch in other
cgroups and take over any PID, SIGTERM reaches members of the request's cgroup alone. -/
theorem signalMembers_delivers_to_members (request : RequestCgroup) (lines : List Nat)
    (state : PassState) (reachable : (signalMembers request).Reachable (.start lines) state) :
    ∀ process ∈ state.delivered, process.cgroup = request.cgroup := by
  have initial : (PassState.start lines).Safe request := by
    refine ⟨⟨?_, ?_⟩, trivial, fun process member => absurd member List.not_mem_nil⟩
    · intro first second process other present
      cases (ProcessTable.present_eq_some.mp present).1
    · intro identity process stored
      cases stored
  have safe := reachable.invariant (PassState.Safe request) initial
    fun _ _ _ valid stepped => valid.step stepped
  exact safe.delivered

end Pass

def sampleCgroup : RequestCgroup := ⟨text "muvm-requests/a"⟩

/-- A process of another request is pinned, and its PID goes on to a member before the
membership is read. The pass comes back to that PID. -/
def recycledPid : List PassAction :=
  [.table (.spawn 5 (text "/muvm-requests/b") false), .line, .pidfdOpen true, .table (.exit 0),
    .table (.reap 0), .table (.spawn 5 sampleCgroup.cgroup false), .openCgroup true,
    .readCgroup true, .pidfdSend true, .line, .pidfdOpen true, .openCgroup true,
    .readCgroup true, .pidfdSend true]

theorem signalMembers_delivers_to_members_sample :
    ∃ state, (signalMembers sampleCgroup).run (.start [5, 5]) recycledPid = some state ∧
      state.delivered.length = 1 ∧
      ∀ process ∈ state.delivered, process.cgroup = sampleCgroup.cgroup :=
  ⟨_, rfl, by decide +kernel,
    signalMembers_delivers_to_members sampleCgroup [5, 5] _ ⟨recycledPid, rfl⟩⟩

end X86OnArm.Muvm
