import X86OnArm.Foundation.ControlGroups
import X86OnArm.Foundation.Machine
import X86OnArm.Muvm.RequestLaunch

/-! # The cgroups of all requests

The worker serves many requests at a time, and their processes fork, exit and are
orphaned in any order. A request's cgroup is entered by its first process before that
can fork, so it holds that process and its descendants and nobody else, whatever the
other requests do (`requestCgroups_isolated`). Only `cgroup.kill` of a cancelled request
ends processes that are not its own doing, and it ends all of that request's and none of
another's (`requestCgroups_kill`).
-/

namespace X86OnArm.Muvm

open Foundation

/-- How far a request is: `RequestCgroup::create`, the child before and after it has
entered, a launch that failed, the stages of `wait_for_child`, and its end. -/
inductive RequestStage where
  | created
  | forked (child : Nat)
  | entered (child : Nat)
  | failed
  | joining (leader : Nat)
  | signalMembers (leader : Nat)
  | sleep (leader : Nat)
  | kill (leader : Nat)
  | waitAgain (leader : Nat)
  | pollEvents (leader : Nat)
  | rmdir (leader : Nat)
  | returned (leader : Option Nat)

namespace RequestStage

/-- The first process of the request. -/
def process : RequestStage → Option Nat
  | .created | .failed => none
  | .forked child | .entered child => some child
  | .joining leader | .signalMembers leader | .sleep leader | .kill leader | .waitAgain leader
  | .pollEvents leader | .rmdir leader => some leader
  | .returned leader => leader

/-- The process that has not executed its program. -/
def launching : RequestStage → Option Nat
  | .forked child | .entered child => some child
  | _ => none

/-- The process, once it is in the cgroup. -/
def leader : RequestStage → Option Nat
  | .forked _ => none
  | stage => stage.process

end RequestStage

structure TrackedRequest where
  request : RequestCgroup
  stage : RequestStage
  killed : Bool
  removed : Bool

/-- The guest's processes, the cgroup directories that were made and the requests. The
worker is the first process. -/
structure RequestTable where
  tasks : Tasks Text
  directories : List Text
  requests : List TrackedRequest

inductive TableStep where
  /-- `RequestCgroup::create`, with a new UUID. -/
  | create (uuid : Text)
  /-- `Command::spawn` of a request with a cgroup, and of one without. -/
  | spawn (index : Nat)
  | spawnPlain
  | enter (index : Nat)
  | exec (index : Nat)
  | spawnFails (index : Nat)
  /-- `cgroup.remove()` after a failed launch. -/
  | undo (index : Nat) (fails : Bool)
  /-- `try_join` returns the status, or an error. -/
  | complete (index : Nat)
  | cancel (index : Nat)
  | terminate (index : Nat) (fails : Bool)
  | waitAgain (index : Nat) (fails : Bool)
  | removeWhenEmpty (index : Nat) (fails : Bool)
  /-- A process that runs a program forks or exits. -/
  | fork (identity : Nat)
  | exit (identity : Nat)

/-- The request whose step it is. -/
def TableStep.index : TableStep → Option Nat
  | .spawn index | .enter index | .exec index | .spawnFails index | .undo index _
  | .complete index | .cancel index | .terminate index _ | .waitAgain index _
  | .removeWhenEmpty index _ => some index
  | .create _ | .spawnPlain | .fork _ | .exit _ => none

namespace RequestTable

def start : RequestTable where
  tasks := [⟨none, text "/", true⟩]
  directories := []
  requests := []

def replace (table : RequestTable) (index : Nat) (request : TrackedRequest) : RequestTable :=
  { table with requests := table.requests.set index request }

/-- The cgroup of a new request is made. -/
def made (table : RequestTable) (uuid : Text) : RequestTable :=
  { table with
    directories := (RequestCgroup.named uuid).path :: table.directories
    requests := table.requests ++ [⟨.named uuid, .created, false, false⟩] }

def withTasks (table : RequestTable) (tasks : Tasks Text) : RequestTable := { table with tasks }

/-- Whether a process runs a program of a request, or of the guest. -/
def runs (table : RequestTable) (identity : Nat) : Bool :=
  identity != 0 && table.requests.all fun request => request.stage.launching != some identity

def hasExited (table : RequestTable) (identity : Nat) : Bool :=
  !(table.tasks[identity]?).any Task.alive

/-- A step of one request. -/
def requestStep (table : RequestTable) (index : Nat) (request : TrackedRequest) :
    TableStep → Option RequestTable
  | .spawn _ =>
      match request.stage with
      | .created => (table.tasks.fork 0).map fun tasks =>
          (table.withTasks tasks).replace index
            { request with stage := .forked table.tasks.length }
      | _ => none
  | .enter _ =>
      match request.stage with
      | .forked child => (table.tasks.enter child request.request.cgroup).map fun tasks =>
          (table.withTasks tasks).replace index { request with stage := .entered child }
      | _ => none
  | .exec _ =>
      match request.stage with
      | .entered child => some (table.replace index { request with stage := .joining child })
      | _ => none
  | .spawnFails _ =>
      match request.stage with
      | .created => some (table.replace index { request with stage := .failed })
      | .forked child | .entered child => (table.tasks.exit child).map fun tasks =>
          (table.withTasks tasks).replace index { request with stage := .failed }
      | _ => none
  | .undo _ fails =>
      match request.stage with
      | .failed =>
          if fails then some (table.replace index { request with stage := .returned none })
          else some { table.replace index
              { request with stage := .returned none, removed := true } with
            directories := table.directories.erase request.request.path }
      | _ => none
  | .complete _ =>
      match request.stage with
      | .joining leader =>
          if table.hasExited leader then
            some (table.replace index { request with stage := .pollEvents leader })
          else none
      | _ => none
  | .cancel _ =>
      match request.stage with
      | .joining leader =>
          some (table.replace index { request with stage := .signalMembers leader })
      | _ => none
  | .terminate _ fails =>
      match request.stage with
      | .signalMembers leader =>
          some (table.replace index { request with stage := .sleep leader })
      | .sleep leader => some (table.replace index { request with stage := .kill leader })
      | .kill leader =>
          if fails then
            some (table.replace index { request with stage := .returned (some leader) })
          else some ((table.withTasks (table.tasks.kill request.request.cgroup)).replace index
            { request with stage := .waitAgain leader, killed := true })
      | _ => none
  | .waitAgain _ fails =>
      match request.stage with
      | .waitAgain leader =>
          if fails ∨ table.hasExited leader then
            some (table.replace index { request with stage := .pollEvents leader })
          else none
      | _ => none
  | .removeWhenEmpty _ fails =>
      match request.stage with
      | .pollEvents leader =>
          if fails then
            some (table.replace index { request with stage := .returned (some leader) })
          else if table.tasks.populated request.request.cgroup then some table
          else some (table.replace index { request with stage := .rmdir leader })
      | .rmdir leader =>
          -- a populated cgroup cannot be removed
          if fails ∨ table.tasks.populated request.request.cgroup then
            some (table.replace index { request with stage := .returned (some leader) })
          else some { table.replace index
              { request with stage := .returned (some leader), removed := true } with
            directories := table.directories.erase request.request.path }
      | _ => none
  | .create _ | .spawnPlain | .fork _ | .exit _ => none

def step (table : RequestTable) (action : TableStep) : Option RequestTable :=
  match action with
  | .create uuid =>
      -- `mkdir` fails where the directory exists
      if (RequestCgroup.named uuid).path ∈ table.directories then none
      else some (table.made uuid)
  | .spawnPlain => (table.tasks.fork 0).map table.withTasks
  | .fork identity =>
      if table.runs identity then (table.tasks.fork identity).map table.withTasks else none
  | .exit identity =>
      if table.runs identity then (table.tasks.exit identity).map table.withTasks else none
  | .spawn index | .enter index | .exec index | .spawnFails index | .undo index _
  | .complete index | .cancel index | .terminate index _ | .waitAgain index _
  | .removeWhenEmpty index _ =>
      (table.requests[index]?).bind fun request => table.requestStep index request action

end RequestTable

/-- The worker, its requests and the guest's processes. -/
def requestCgroups : Machine RequestTable TableStep := ⟨RequestTable.step⟩

/-! ## The invariant -/

namespace RequestStage

/-- The child is not in the cgroup, or there is none. -/
def Unentered : RequestStage → Prop
  | .created | .forked _ | .failed => True
  | _ => False

/-- The cgroup was found empty. -/
def Emptied : RequestStage → Prop
  | .rmdir _ => True
  | _ => False

def Returned : RequestStage → Prop
  | .returned _ => True
  | _ => False

/-- The launch is over, and did not fail, or the failure was undone. -/
def Launched : RequestStage → Prop
  | .created | .forked _ | .entered _ | .failed => False
  | _ => True

theorem process_of_launching {stage : RequestStage} {child : Nat}
    (launching : stage.launching = some child) : stage.process = some child := by
  cases stage <;> first | exact launching | cases launching

theorem not_launched_of_launching {stage : RequestStage} {child : Nat}
    (launching : stage.launching = some child) : ¬ stage.Launched := by
  cases stage <;> first | exact id | cases launching

theorem launched_of_leader {stage : RequestStage} {leader : Nat}
    (leads : stage.leader = some leader) (executed : stage.launching = none) :
    stage.Launched := by
  cases stage <;> trivial

theorem Returned.launched {stage : RequestStage} (returned : stage.Returned) :
    stage.Launched := by
  cases stage <;> trivial

theorem process_of_leader {stage : RequestStage} {leader : Nat}
    (leads : stage.leader = some leader) : stage.process = some leader := by
  cases stage <;> first | exact leads | cases leads

end RequestStage

namespace TrackedRequest

variable {tasks after : Tasks Text} {request : TrackedRequest}

def group (request : TrackedRequest) : Text := request.request.cgroup

/-- What holds of a request among the guest's processes. -/
structure Sound (tasks : Tasks Text) (request : TrackedRequest) : Prop where
  child : ∀ process, request.stage.process = some process → tasks.parentOf process = some 0
  vacant : request.stage.Unentered → tasks.Vacant request.group
  tracks : ∀ leader, request.stage.leader = some leader → request.removed = false →
    tasks.Tracks request.group leader
  childless : ∀ child, request.stage.launching = some child → tasks.Childless child
  extinct : ∀ leader, request.stage.leader = some leader →
    request.killed = true ∨ request.removed = true ∨ request.stage.Emptied →
      tasks.Extinct leader
  present : request.removed = true → request.stage.Returned
  intact : request.killed = true → request.stage.Launched

theorem Sound.dies (sound : request.Sound tasks) (dies : Tasks.Dies tasks after) :
    request.Sound after where
  child process is := (dies.parents process).trans (sound.child process is)
  vacant unentered := (sound.vacant unentered).dies dies
  tracks leader leads present := (sound.tracks leader leads present).dies dies
  childless child launching := (sound.childless child launching).of_parents dies.parents
  extinct leader leads ended := (sound.extinct leader leads ended).dies dies
  present := sound.present
  intact := sound.intact

theorem Sound.process_lt (sound : request.Sound tasks) {process : Nat}
    (is : request.stage.process = some process) : process < tasks.length := by
  by_contra beyond
  exact absurd ((Tasks.parentOf_of_length (Nat.le_of_not_lt beyond)).symm.trans
    (sound.child process is)) nofun

/-- A process forks that is not a child that launches. -/
theorem Sound.forks (sound : request.Sound tasks) (ordered : tasks.Ordered) {parent : Nat}
    (forks : Tasks.Forks tasks parent after) (runs : request.stage.launching ≠ some parent) :
    request.Sound after where
  child process is := (forks.parentOf_old process (Nat.ne_of_lt (sound.process_lt is))).trans
    (sound.child process is)
  vacant unentered := forks.vacant (sound.vacant unentered)
  tracks leader leads present := forks.tracks ordered (sound.tracks leader leads present)
    (sound.process_lt (RequestStage.process_of_leader leads))
  childless child launching := forks.childless ordered (sound.childless child launching)
    (sound.process_lt (RequestStage.process_of_launching launching))
    fun same => runs (same ▸ launching)
  extinct leader leads ended := forks.extinct ordered (sound.extinct leader leads ended)
    (sound.process_lt (RequestStage.process_of_leader leads))
  present := sound.present
  intact := sound.intact

/-- Another child of the worker enters another cgroup. -/
theorem Sound.moves (sound : request.Sound tasks) (root : tasks.parentOf 0 = none)
    {mover : Nat} {group : Text} (moves : Tasks.Moves tasks mover group after)
    (spawned : tasks.parentOf mover = some 0) (other : request.stage.process ≠ some mover)
    (different : request.removed = false → request.group ≠ group) : request.Sound after where
  child process is := (moves.parents process).trans (sound.child process is)
  vacant unentered := by
    refine moves.vacant (different ?_) (sound.vacant unentered)
    by_contra removed
    have returned := sound.present (eq_true_of_ne_false removed)
    cases stage : request.stage <;> rw [stage] at unentered returned <;>
      first | exact unentered | exact returned
  tracks leader leads present := by
    refine moves.tracks (different present) (sound.tracks leader leads present) fun descends => ?_
    have process := RequestStage.process_of_leader leads
    have same := descends.siblings root (sound.child leader process) spawned .refl
    exact other (same ▸ process)
  childless child launching := (sound.childless child launching).of_parents moves.parents
  extinct leader leads ended := moves.extinct (sound.extinct leader leads ended)
  present := sound.present
  intact := sound.intact

end TrackedRequest

namespace RequestTable

/-- The processes are in the root cgroup or in one of the directories. -/
def Houses (table : RequestTable) (group : Text) : Prop :=
  group = text "/" ∨ ∃ path ∈ table.directories, group = (⟨path⟩ : RequestCgroup).cgroup

structure Sound (table : RequestTable) : Prop where
  ordered : table.tasks.Ordered
  root : table.tasks.parentOf 0 = none
  housed : ∀ group identity, table.tasks.Member group identity → table.Houses group
  requests : ∀ (index : Nat) (request : TrackedRequest),
    table.requests[index]? = some request → request.Sound table.tasks
  paths : ∀ (first second : Nat) (one other : TrackedRequest),
    table.requests[first]? = some one → table.requests[second]? = some other →
    one.removed = false → other.removed = false → one.group = other.group → first = second
  directories : ∀ (index : Nat) (request : TrackedRequest),
    table.requests[index]? = some request → request.removed = false →
    request.request.path ∈ table.directories
  processes : ∀ (first second : Nat) (one other : TrackedRequest) (process : Nat),
    table.requests[first]? = some one → table.requests[second]? = some other →
    one.stage.process = some process → other.stage.process = some process → first = second

theorem start_sound : start.Sound where
  ordered child parent isChild := by
    cases child with
    | zero => exact absurd ((rfl : start.tasks.parentOf 0 = none).symm.trans isChild) nofun
    | succ child =>
        have beyond : start.tasks.length ≤ child + 1 := Nat.le_add_left 1 child
        rw [Tasks.parentOf_of_length beyond] at isChild
        cases isChild
  root := rfl
  housed group identity := by
    rintro ⟨task, found, _, same⟩
    have member := List.mem_of_getElem? found
    rw [start, List.mem_singleton] at member
    subst member
    exact .inl same.symm
  requests index request found := by rw [start, List.getElem?_nil] at found; cases found
  paths first second one other found := by rw [start, List.getElem?_nil] at found; cases found
  directories index request found := by rw [start, List.getElem?_nil] at found; cases found
  processes first second one other process found := by
    rw [start, List.getElem?_nil] at found
    cases found

variable {table after : RequestTable}

/-- The processes change, and the requests do not. -/
theorem Sound.withTasks (sound : table.Sound) {tasks : Tasks Text} (ordered : tasks.Ordered)
    (root : tasks.parentOf 0 = none)
    (housed : ∀ group identity, tasks.Member group identity → table.Houses group)
    (requests : ∀ (index : Nat) (request : TrackedRequest),
      table.requests[index]? = some request → request.Sound tasks) :
    (table.withTasks tasks).Sound :=
  ⟨ordered, root, housed, requests, sound.paths, sound.directories, sound.processes⟩

theorem getElem?_replace {index place : Nat} {old new request : TrackedRequest}
    (found : table.requests[index]? = some old)
    (now : (table.replace index new).requests[place]? = some request) :
    (place = index ∧ request = new) ∨
      (place ≠ index ∧ table.requests[place]? = some request) := by
  have bound := (List.getElem?_eq_some_iff.mp found).1
  change (table.requests.set index new)[place]? = some request at now
  by_cases here : place = index
  · subst here
    rw [List.getElem?_set_self bound] at now
    exact .inl ⟨rfl, (Option.some.inj now).symm⟩
  · rw [List.getElem?_set_ne (Ne.symm here)] at now
    exact .inr ⟨here, now⟩

/-- One request moves on, with its processes or without them. -/
theorem Sound.replace (sound : table.Sound) {tasks : Tasks Text} (ordered : tasks.Ordered)
    (root : tasks.parentOf 0 = none)
    (housed : ∀ group identity, tasks.Member group identity → table.Houses group)
    {index : Nat} {old new : TrackedRequest} (found : table.requests[index]? = some old)
    (same : new.request = old.request) (removed : new.removed = false → old.removed = false)
    (own : new.Sound tasks)
    (others : ∀ (place : Nat) (other : TrackedRequest), place ≠ index →
      table.requests[place]? = some other → other.Sound tasks)
    (process : ∀ process, new.stage.process = some process → old.stage.process = some process ∨
      ∀ (place : Nat) (other : TrackedRequest), table.requests[place]? = some other →
        other.stage.process ≠ some process) :
    ((table.withTasks tasks).replace index new).Sound := by
  have group : new.group = old.group := congrArg RequestCgroup.cgroup same
  have cases {place : Nat} {request : TrackedRequest}
      (now : ((table.withTasks tasks).replace index new).requests[place]? = some request) :=
    getElem?_replace (found : (table.withTasks tasks).requests[index]? = some old) now
  refine ⟨ordered, root, housed, ?_, ?_, ?_, ?_⟩
  · intro place request now
    rcases cases now with ⟨rfl, rfl⟩ | ⟨different, before⟩
    · exact own
    · exact others place request different before
  · intro first second one other nowFirst nowSecond presentFirst presentSecond equal
    rcases cases nowFirst with ⟨rfl, rfl⟩ | ⟨different, before⟩ <;>
      rcases cases nowSecond with ⟨rfl, rfl⟩ | ⟨differentSecond, beforeSecond⟩
    · rfl
    · exact sound.paths _ _ _ _ found beforeSecond (removed presentFirst) presentSecond
        (group ▸ equal)
    · exact sound.paths _ _ _ _ before found presentFirst (removed presentSecond) (group ▸ equal)
    · exact sound.paths _ _ _ _ before beforeSecond presentFirst presentSecond equal
  · intro place request now present
    rcases cases now with ⟨rfl, rfl⟩ | ⟨_, before⟩
    · rw [same]
      exact sound.directories _ _ found (removed present)
    · exact sound.directories place request before present
  · intro first second one other leader nowFirst nowSecond isFirst isSecond
    rcases cases nowFirst with ⟨rfl, rfl⟩ | ⟨different, before⟩ <;>
      rcases cases nowSecond with ⟨rfl, rfl⟩ | ⟨differentSecond, beforeSecond⟩
    · rfl
    · rcases process _ isFirst with earlier | fresh
      · exact sound.processes _ _ _ _ _ found beforeSecond earlier isSecond
      · exact absurd isSecond (fresh _ _ beforeSecond)
    · rcases process _ isSecond with earlier | fresh
      · exact sound.processes _ _ _ _ _ before found isFirst earlier
      · exact absurd isFirst (fresh _ _ before)
    · exact sound.processes _ _ _ _ _ before beforeSecond isFirst isSecond

/-- A request in its cgroup moves on. -/
theorem Sound.stay (sound : table.Sound) {index leader : Nat} {old : TrackedRequest}
    (found : table.requests[index]? = some old) {stage : RequestStage}
    (leads : old.stage.leader = some leader) (present : old.removed = false)
    (now : stage.leader = some leader) (executed : stage.launching = none)
    (extinct : stage.Emptied → table.tasks.Extinct leader) :
    (table.replace index { old with stage }).Sound := by
  have before := sound.requests index old found
  have process := RequestStage.process_of_leader now
  refine sound.replace sound.ordered sound.root sound.housed found rfl id ?_
    (fun place other _ => sound.requests place other) fun other is => ?_
  · refine ⟨?_, ?_, ?_, ?_, ?_, ?_, fun _ => RequestStage.launched_of_leader now executed⟩
    · intro other is
      cases process.symm.trans is
      exact before.child leader (RequestStage.process_of_leader leads)
    · intro unentered
      cases stage <;> cases unentered <;> cases now
    · intro other is present
      cases now.symm.trans is
      exact before.tracks leader leads present
    · intro child launching
      exact absurd (executed.symm.trans launching) nofun
    · rintro other is (killed | removed | emptied)
      · cases now.symm.trans is
        exact before.extinct leader leads (.inl killed)
      · exact absurd (present.symm.trans removed) nofun
      · cases now.symm.trans is
        exact extinct emptied
    · intro removed
      exact absurd (present.symm.trans removed) nofun
  · cases process.symm.trans is
    exact .inl (RequestStage.process_of_leader leads)

/-- A request without a process, or whose process has exited before it executed. -/
theorem Sound.leave (sound : table.Sound) {tasks : Tasks Text}
    (dies : Tasks.Dies table.tasks tasks) {index : Nat} {old : TrackedRequest}
    (found : table.requests[index]? = some old) {stage : RequestStage}
    (present : old.removed = false) (intact : old.killed = false) (none : stage.process = none)
    (vacant : stage.Unentered → tasks.Vacant old.group) :
    ((table.withTasks tasks).replace index { old with stage }).Sound := by
  have idle {process : Nat} (is : stage.process = some process) : False :=
    absurd (none.symm.trans is) nofun
  refine sound.replace (sound.ordered.of_parents dies.parents)
    ((dies.parents 0).trans sound.root)
    (fun group identity member => sound.housed group identity (dies.members group identity member))
    found rfl id ?_ (fun place other _ before => (sound.requests place other before).dies dies)
    fun _ is => (idle is).elim
  refine ⟨fun _ is => (idle is).elim, vacant, ?_, ?_, ?_, ?_, ?_⟩
  · exact fun _ is => (idle (RequestStage.process_of_leader is)).elim
  · exact fun _ is => (idle (RequestStage.process_of_launching is)).elim
  · exact fun _ is => (idle (RequestStage.process_of_leader is)).elim
  · exact fun removed => absurd (present.symm.trans removed) nofun
  · exact fun killed => absurd (intact.symm.trans killed) nofun

/-- `rmdir` of a cgroup that no request has any more. -/
theorem Sound.erase (sound : table.Sound) {request : RequestCgroup}
    (vacant : table.tasks.Vacant request.cgroup)
    (others : ∀ (index : Nat) (other : TrackedRequest), table.requests[index]? = some other →
      other.removed = false → other.request.path ≠ request.path) :
    { table with directories := table.directories.erase request.path }.Sound := by
  refine ⟨sound.ordered, sound.root, ?_, sound.requests, sound.paths, ?_, sound.processes⟩
  · intro group identity member
    rcases sound.housed group identity member with root | ⟨path, held, rfl⟩
    · exact .inl root
    · refine .inr ⟨path, (List.mem_erase_of_ne ?_).mpr held, rfl⟩
      rintro rfl
      exact vacant identity member
  · intro index other found present
    exact (List.mem_erase_of_ne (others index other found present)).mpr
      (sound.directories index other found present)

/-- A request whose cgroup is empty is removed. -/
theorem Sound.remove (sound : table.Sound) {index : Nat} {old : TrackedRequest}
    (found : table.requests[index]? = some old) (present : old.removed = false)
    (vacant : table.tasks.Vacant old.group) {process : Option Nat}
    (leads : ∀ leader, process = some leader → old.stage.leader = some leader) :
    { table.replace index { old with stage := .returned process, removed := true } with
      directories := table.directories.erase old.request.path }.Sound := by
  have before := sound.requests index old found
  have replaced : (table.replace index
      { old with stage := .returned process, removed := true }).Sound := by
    refine sound.replace sound.ordered sound.root sound.housed found rfl nofun ?_
      (fun place other _ => sound.requests place other)
      fun leader is => .inl (RequestStage.process_of_leader (leads leader is))
    refine ⟨?_, nofun, nofun, nofun, ?_, fun _ => trivial, fun _ => trivial⟩
    · exact fun leader is => before.child leader (RequestStage.process_of_leader (leads leader is))
    · exact fun leader is _ => (before.tracks leader (leads leader is) present).extinct vacant
  refine replaced.erase vacant fun place other now unremoved same => ?_
  rcases getElem?_replace found now with ⟨_, rfl⟩ | ⟨different, earlier⟩
  · cases unremoved
  · exact different (sound.paths place index other old earlier found unremoved present
      (congrArg (text "/" ++ ·) same))

/-! ## The steps of a request -/

/-- What a step of a request does to the processes and the directories. -/
inductive Moved (table : RequestTable) (index : Nat) (request : TrackedRequest) :
    TableStep → RequestTable → Prop where
  | spawned {place : Nat} {tasks : Tasks Text} : request.stage = .created →
      Tasks.Forks table.tasks 0 tasks →
      Moved table index request (.spawn place)
        ((table.withTasks tasks).replace index
          { request with stage := .forked table.tasks.length })
  | entered {place : Nat} {tasks : Tasks Text} {child : Nat} : request.stage = .forked child →
      Tasks.Moves table.tasks child request.group tasks →
      Moved table index request (.enter place)
        ((table.withTasks tasks).replace index { request with stage := .entered child })
  | stayed {action : TableStep} {leader : Nat} {stage : RequestStage} :
      request.stage.leader = some leader → ¬ request.stage.Returned →
      stage.leader = some leader → stage.launching = none →
      (stage.Emptied → table.tasks.Vacant request.group) →
      Moved table index request action (table.replace index { request with stage })
  | unlaunched {action : TableStep} {stage : RequestStage} : request.stage.process = none →
      ¬ request.stage.Launched → stage.process = none →
      (stage.Unentered → request.stage.Unentered) →
      Moved table index request action (table.replace index { request with stage })
  | failed {place : Nat} {tasks : Tasks Text} {child : Nat} : request.stage.launching = some child →
      table.tasks.exit child = some tasks →
      Moved table index request (.spawnFails place)
        ((table.withTasks tasks).replace index { request with stage := .failed })
  | killed {place leader : Nat} : request.stage = .kill leader →
      Moved table index request (.terminate place false)
        ((table.withTasks (table.tasks.kill request.group)).replace index
          { request with stage := .waitAgain leader, killed := true })
  | removed {action : TableStep} {process : Option Nat} : ¬ request.stage.Returned →
      request.stage.Unentered ∨ table.tasks.Vacant request.group →
      (∀ leader, process = some leader → request.stage.leader = some leader) →
      Moved table index request action
        { table.replace index { request with stage := .returned process, removed := true } with
          directories := table.directories.erase request.request.path }
  | unchanged {action : TableStep} : Moved table index request action table

theorem moved_of_requestStep {index : Nat} {request : TrackedRequest} {action : TableStep}
    (stepped : table.requestStep index request action = some after) :
    table.Moved index request action after := by
  obtain ⟨own, stage, killed, removed⟩ := request
  cases action with
  | create | spawnPlain | fork | exit => cases stepped
  | spawn =>
      cases stage <;> try cases stepped
      obtain ⟨tasks, forked, rfl⟩ := Option.map_eq_some_iff.mp stepped
      exact .spawned rfl (Tasks.forks_of_fork forked)
  | enter =>
      cases stage <;> try cases stepped
      obtain ⟨tasks, entered, rfl⟩ := Option.map_eq_some_iff.mp stepped
      exact .entered rfl (Tasks.moves_of_enter entered)
  | exec =>
      cases stage <;> cases stepped
      exact .stayed rfl id rfl rfl nofun
  | spawnFails =>
      cases stage <;> try cases stepped
      case created.refl => exact .unlaunched rfl id rfl id
      all_goals
        obtain ⟨tasks, exited, rfl⟩ := Option.map_eq_some_iff.mp stepped
        exact .failed rfl exited
  | undo _ fails =>
      cases stage <;> cases fails <;> cases stepped
      · exact .removed id (.inl trivial) nofun
      · exact .unlaunched rfl id rfl nofun
  | complete =>
      cases stage <;> try cases stepped
      obtain ⟨_, stepped⟩ := Option.ite_none_right_eq_some.mp stepped
      cases stepped
      exact .stayed rfl id rfl rfl nofun
  | cancel =>
      cases stage <;> cases stepped
      exact .stayed rfl id rfl rfl nofun
  | terminate _ fails =>
      cases stage <;> try cases stepped
      case kill =>
        cases fails <;> cases stepped
        · exact .killed rfl
        · exact .stayed rfl id rfl rfl nofun
      all_goals exact .stayed rfl id rfl rfl nofun
  | waitAgain =>
      cases stage <;> try cases stepped
      obtain ⟨_, stepped⟩ := Option.ite_none_right_eq_some.mp stepped
      cases stepped
      exact .stayed rfl id rfl rfl nofun
  | removeWhenEmpty _ fails =>
      cases stage <;> try cases stepped
      case pollEvents leader =>
        simp only [requestStep] at stepped
        split_ifs at stepped with failed populated <;> cases stepped
        · exact .stayed rfl id rfl rfl nofun
        · exact .unchanged
        · exact .stayed rfl id rfl rfl fun _ =>
            Tasks.vacant_of_not_populated (eq_false_of_ne_true populated)
      case rmdir leader =>
        simp only [requestStep] at stepped
        split_ifs at stepped with failed <;> cases stepped
        · exact .stayed rfl id rfl rfl nofun
        · exact .removed id (.inr (Tasks.vacant_of_not_populated
            (eq_false_of_ne_true fun populated => failed (.inr populated)))) fun _ => id

theorem Sound.launching_ne_zero (sound : table.Sound) {index : Nat} {request : TrackedRequest}
    (found : table.requests[index]? = some request) : request.stage.launching ≠ some 0 := by
  intro launching
  have child := (sound.requests index request found).child 0
    (RequestStage.process_of_launching launching)
  exact absurd (sound.root.symm.trans child) nofun

theorem Sound.forks (sound : table.Sound) {parent : Nat} {tasks : Tasks Text}
    (forks : Tasks.Forks table.tasks parent tasks)
    (runs : ∀ (index : Nat) (request : TrackedRequest), table.requests[index]? = some request →
      request.stage.launching ≠ some parent) : (table.withTasks tasks).Sound := by
  have old := Nat.ne_of_lt (Nat.zero_lt_of_lt (Tasks.lives_lt forks.parentLives))
  exact sound.withTasks (forks.ordered sound.ordered) ((forks.parentOf_old 0 old).trans sound.root)
    (forks.housed sound.housed) fun index request found =>
      (sound.requests index request found).forks sound.ordered forks (runs index request found)

theorem Sound.spawned (sound : table.Sound) {index : Nat} {request : TrackedRequest}
    (found : table.requests[index]? = some request) (created : request.stage = .created)
    {tasks : Tasks Text} (forks : Tasks.Forks table.tasks 0 tasks) :
    ((table.withTasks tasks).replace index
      { request with stage := .forked table.tasks.length }).Sound := by
  have own := sound.requests index request found
  have forked := sound.forks forks fun index request => sound.launching_ne_zero
  refine forked.replace forked.ordered forked.root forked.housed found rfl id ?_
    (fun place other _ => forked.requests place other) fun process is => .inr ?_
  · refine ⟨?_, ?_, nofun, ?_, nofun, ?_, ?_⟩
    · rintro process ⟨⟩
      exact forks.parentOf_new
    · exact fun _ => forks.vacant (own.vacant (created ▸ trivial))
    · rintro child ⟨⟩
      exact forks.childless_new sound.ordered
    · intro removed
      have returned := own.present removed
      rw [created] at returned
      exact returned.elim
    · intro killed
      have launched := own.intact killed
      rw [created] at launched
      exact launched.elim
  · cases is
    intro place other before same
    exact Nat.lt_irrefl _ ((sound.requests place other before).process_lt same)

theorem Sound.entered (sound : table.Sound) {index child : Nat} {request : TrackedRequest}
    (found : table.requests[index]? = some request) (forked : request.stage = .forked child)
    {tasks : Tasks Text} (moves : Tasks.Moves table.tasks child request.group tasks) :
    ((table.withTasks tasks).replace index { request with stage := .entered child }).Sound := by
  have own := sound.requests index request found
  have launching : request.stage.launching = some child := forked ▸ rfl
  have process := RequestStage.process_of_launching launching
  have unlaunched := RequestStage.not_launched_of_launching launching
  have intact : request.killed = false :=
    eq_false_of_ne_true fun killed => unlaunched (own.intact killed)
  have present : request.removed = false :=
    eq_false_of_ne_true fun removed => unlaunched (own.present removed).launched
  have spawned := own.child child process
  refine sound.replace (sound.ordered.of_parents moves.parents)
    ((moves.parents 0).trans sound.root) ?_ found rfl id ?_ ?_ fun _ is => .inl ?_
  · exact moves.housed (.inr ⟨_, sound.directories index request found present, rfl⟩) sound.housed
  · refine ⟨?_, nofun, ?_, ?_, ?_, ?_, ?_⟩
    · rintro process ⟨⟩
      exact (moves.parents child).trans spawned
    · rintro leader ⟨⟩ _
      exact moves.enters (own.vacant (forked ▸ trivial)) (own.childless child launching)
    · rintro leader ⟨⟩
      exact (own.childless child launching).of_parents moves.parents
    · rintro leader ⟨⟩ (killed | removed | emptied)
      · exact absurd (intact.symm.trans killed) nofun
      · exact absurd (present.symm.trans removed) nofun
      · cases emptied
    · exact fun removed => absurd (present.symm.trans removed) nofun
    · exact fun killed => absurd (intact.symm.trans killed) nofun
  · intro place other different before
    refine (sound.requests place other before).moves sound.root moves spawned
      (fun same => different (sound.processes place index other request child before found same
        process)) fun unremoved same => ?_
    exact different (sound.paths place index other request before found unremoved present same)
  · cases is
    exact process

theorem Sound.failed (sound : table.Sound) {index child : Nat} {request : TrackedRequest}
    (found : table.requests[index]? = some request)
    (launching : request.stage.launching = some child) {tasks : Tasks Text}
    (exited : table.tasks.exit child = some tasks) :
    ((table.withTasks tasks).replace index { request with stage := .failed }).Sound := by
  have own := sound.requests index request found
  obtain ⟨_, dies, dead, _⟩ := Tasks.exit_eq_some exited
  have unlaunched := RequestStage.not_launched_of_launching launching
  have intact : request.killed = false :=
    eq_false_of_ne_true fun killed => unlaunched (own.intact killed)
  have present : request.removed = false :=
    eq_false_of_ne_true fun removed => unlaunched (own.present removed).launched
  refine sound.leave dies found present intact rfl fun _ => ?_
  have after := own.dies dies
  cases stage : request.stage <;> rw [stage] at launching <;> cases launching
  case forked => exact after.vacant (stage ▸ trivial)
  case entered =>
    have leads : request.stage.leader = some child := stage ▸ rfl
    exact (after.tracks child leads present).vacant (after.childless child (stage ▸ rfl)) dead

theorem Sound.killed (sound : table.Sound) {index leader : Nat} {request : TrackedRequest}
    (found : table.requests[index]? = some request) (kill : request.stage = .kill leader) :
    ((table.withTasks (table.tasks.kill request.group)).replace index
      { request with stage := .waitAgain leader, killed := true }).Sound := by
  have own := sound.requests index request found
  have leads : request.stage.leader = some leader := kill ▸ rfl
  have present : request.removed = false := eq_false_of_ne_true fun removed => by
    have returned := own.present removed
    rw [kill] at returned
    exact returned
  have dies := Tasks.dies_kill table.tasks request.group
  have after := own.dies dies
  refine sound.replace (sound.ordered.of_parents dies.parents)
    ((dies.parents 0).trans sound.root)
    (fun group identity member => sound.housed group identity (dies.members group identity member))
    found rfl id ?_ (fun place other _ before => (sound.requests place other before).dies dies)
    fun process is => .inl ?_
  · refine ⟨?_, nofun, ?_, nofun, ?_, ?_, fun _ => trivial⟩
    · rintro process ⟨⟩
      exact after.child leader (RequestStage.process_of_leader leads)
    · rintro leader ⟨⟩ _
      exact after.tracks leader leads present
    · rintro leader ⟨⟩ _
      exact (own.tracks leader leads present).kill
    · exact fun removed => absurd (present.symm.trans removed) nofun
  · cases is
    exact RequestStage.process_of_leader leads

theorem Sound.moved (sound : table.Sound) {index : Nat} {request : TrackedRequest}
    {action : TableStep} (found : table.requests[index]? = some request)
    (moved : table.Moved index request action after) : after.Sound := by
  have own := sound.requests index request found
  have present (running : ¬ request.stage.Returned) : request.removed = false :=
    eq_false_of_ne_true fun removed => running (own.present removed)
  cases moved with
  | unchanged => exact sound
  | spawned created forks => exact sound.spawned found created forks
  | entered forked moves => exact sound.entered found forked moves
  | stayed leads running now executed emptied =>
      exact sound.stay found leads (present running) now executed fun empty =>
        (own.tracks _ leads (present running)).extinct (emptied empty)
  | unlaunched idle running none unentered =>
      have intact : request.killed = false :=
        eq_false_of_ne_true fun killed => running (own.intact killed)
      exact sound.leave (Tasks.Dies.refl _) found (present fun returned =>
        running returned.launched) intact none fun stage => own.vacant (unentered stage)
  | failed launching exited => exact sound.failed found launching exited
  | killed kill => exact sound.killed found kill
  | removed running vacant leads =>
      refine sound.remove found (present running) ?_ leads
      exact vacant.elim own.vacant id

theorem Sound.created (sound : table.Sound) {uuid : Text}
    (fresh : (RequestCgroup.named uuid).path ∉ table.directories) : (table.made uuid).Sound := by
  have cases {place : Nat} {request : TrackedRequest}
      (now : (table.requests ++
        [(⟨.named uuid, .created, false, false⟩ : TrackedRequest)])[place]? = some request) :
      table.requests[place]? = some request ∨
        (place = table.requests.length ∧ request = ⟨.named uuid, .created, false, false⟩) := by
    rcases Nat.lt_trichotomy place table.requests.length with less | rfl | more
    · exact .inl ((List.getElem?_append_left less).symm.trans now)
    · rw [List.getElem?_concat_length] at now
      exact .inr ⟨rfl, (Option.some.inj now).symm⟩
    · have beyond : (table.requests ++
          [(⟨.named uuid, .created, false, false⟩ : TrackedRequest)]).length ≤ place := by
        rw [List.length_append, List.length_singleton]
        exact more
      rw [List.getElem?_eq_none beyond] at now
      cases now
  have unused {place : Nat} {request : TrackedRequest}
      (found : table.requests[place]? = some request) (present : request.removed = false) :
      request.group ≠ (RequestCgroup.named uuid).cgroup := fun same =>
    fresh (List.append_cancel_left same ▸ sound.directories place request found present)
  have vacant : table.tasks.Vacant (RequestCgroup.named uuid).cgroup := by
    intro identity member
    rcases sound.housed _ identity member with root | ⟨path, held, same⟩
    · have lengths := congrArg List.length root
      rw [RequestCgroup.cgroup, RequestCgroup.named] at lengths
      simp only [List.length_append, RequestCgroup.root] at lengths
      have name : (text "muvm-requests").length = 13 := by decide
      omega
    · exact fresh (List.append_cancel_left same ▸ held)
  refine ⟨sound.ordered, sound.root, ?_, ?_, ?_, ?_, ?_⟩
  · intro group identity member
    rcases sound.housed group identity member with root | ⟨path, held, same⟩
    · exact .inl root
    · exact .inr ⟨path, List.mem_cons_of_mem _ held, same⟩
  · intro place request now
    rcases cases now with before | ⟨_, rfl⟩
    · exact sound.requests place request before
    · exact ⟨nofun, fun _ => vacant, nofun, nofun, nofun, nofun, nofun⟩
  · intro first second one other nowFirst nowSecond presentFirst presentSecond same
    rcases cases nowFirst with before | ⟨rfl, rfl⟩ <;>
      rcases cases nowSecond with beforeSecond | ⟨rfl, rfl⟩
    · exact sound.paths _ _ _ _ before beforeSecond presentFirst presentSecond same
    · exact absurd same (unused before presentFirst)
    · exact absurd same.symm (unused beforeSecond presentSecond)
    · rfl
  · intro place request now present
    rcases cases now with before | ⟨_, rfl⟩
    · exact List.mem_cons_of_mem _ (sound.directories place request before present)
    · exact List.mem_cons_self
  · intro first second one other process nowFirst nowSecond isFirst isSecond
    rcases cases nowFirst with before | ⟨rfl, rfl⟩
    · rcases cases nowSecond with beforeSecond | ⟨rfl, rfl⟩
      · exact sound.processes _ _ _ _ _ before beforeSecond isFirst isSecond
      · cases isSecond
    · cases isFirst

/-- A step is one of a request, or leaves the requests. -/
theorem step_cases {action : TableStep} (stepped : table.step action = some after) :
    (∃ index request, action.index = some index ∧ table.requests[index]? = some request ∧
      table.Moved index request action after) ∨
    (∃ uuid, (RequestCgroup.named uuid).path ∉ table.directories ∧
      after = table.made uuid) ∨
    (∃ parent tasks, Tasks.Forks table.tasks parent tasks ∧
      (parent = 0 ∨ table.runs parent = true) ∧ after = table.withTasks tasks) ∨
    ∃ identity tasks, action = .exit identity ∧ table.tasks.exit identity = some tasks ∧
      after = table.withTasks tasks := by
  cases action with
  | create uuid =>
      obtain ⟨fresh, made⟩ := Option.ite_none_left_eq_some.mp stepped
      cases made
      exact .inr (.inl ⟨uuid, fresh, rfl⟩)
  | spawnPlain =>
      obtain ⟨tasks, forked, rfl⟩ := Option.map_eq_some_iff.mp stepped
      exact .inr (.inr (.inl ⟨0, tasks, Tasks.forks_of_fork forked, .inl rfl, rfl⟩))
  | fork identity =>
      obtain ⟨runs, stepped⟩ := Option.ite_none_right_eq_some.mp stepped
      obtain ⟨tasks, forked, rfl⟩ := Option.map_eq_some_iff.mp stepped
      exact .inr (.inr (.inl ⟨identity, tasks, Tasks.forks_of_fork forked, .inr runs, rfl⟩))
  | exit identity =>
      obtain ⟨_, stepped⟩ := Option.ite_none_right_eq_some.mp stepped
      obtain ⟨tasks, exited, rfl⟩ := Option.map_eq_some_iff.mp stepped
      exact .inr (.inr (.inr ⟨identity, tasks, rfl, exited, rfl⟩))
  | _ =>
      obtain ⟨request, found, stepped⟩ := Option.bind_eq_some_iff.mp stepped
      exact .inl ⟨_, request, rfl, found, moved_of_requestStep stepped⟩

theorem launching_of_runs {parent : Nat} (runs : table.runs parent = true) {index : Nat}
    {request : TrackedRequest} (found : table.requests[index]? = some request) :
    request.stage.launching ≠ some parent := by
  rw [RequestTable.runs, Bool.and_eq_true, List.all_eq_true] at runs
  exact bne_iff_ne.mp (runs.2 request (List.mem_of_getElem? found))

theorem Sound.step (sound : table.Sound) {action : TableStep}
    (stepped : table.step action = some after) : after.Sound := by
  rcases step_cases stepped with ⟨index, request, _, found, moved⟩ | ⟨uuid, fresh, rfl⟩ |
    ⟨parent, tasks, forks, runs, rfl⟩ | ⟨identity, tasks, rfl, exited, rfl⟩
  · exact sound.moved found moved
  · exact sound.created fresh
  · refine sound.forks forks fun index request found => ?_
    rcases runs with rfl | runs
    · exact sound.launching_ne_zero found
    · exact launching_of_runs runs found
  · obtain ⟨_, dies, _⟩ := Tasks.exit_eq_some exited
    exact sound.withTasks (sound.ordered.of_parents dies.parents)
      ((dies.parents 0).trans sound.root)
      (fun group place member => sound.housed group place (dies.members group place member))
      fun index request found => (sound.requests index request found).dies dies

theorem sound_of_reachable (reachable : requestCgroups.Reachable start table) : table.Sound := by
  obtain ⟨actions, executed⟩ := reachable
  exact (Machine.Run.of_run executed).invariant Sound start_sound
    fun _ _ _ sound _ stepped => sound.step stepped

/-- Who dies in a step. -/
theorem dead_of_moved (sound : table.Sound) {index : Nat} {request : TrackedRequest}
    {action : TableStep} (found : table.requests[index]? = some request)
    (moved : table.Moved index request action after) {identity : Nat}
    (lives : table.tasks.Lives identity) (dead : ¬ after.tasks.Lives identity) :
    (∃ place, action = .spawnFails place ∧ request.stage.launching = some identity) ∨
      ∃ place leader, action = .terminate place false ∧ request.stage = .kill leader ∧
        table.tasks.Descends leader identity := by
  cases moved with
  | unchanged | stayed | unlaunched | removed => exact absurd lives dead
  | spawned _ forks =>
      exact absurd ((forks.lives_old (Nat.ne_of_lt (Tasks.lives_lt lives))).mpr lives) dead
  | entered _ moves => exact absurd (moves.lives.mpr lives) dead
  | failed launching exited =>
      obtain ⟨_, _, _, only⟩ := Tasks.exit_eq_some exited
      exact .inl ⟨_, rfl, only identity lives dead ▸ launching⟩
  | @killed place leader kill =>
      have member : table.tasks.Member request.group identity := by
        by_contra outside
        exact dead (Tasks.lives_kill lives outside)
      have own := sound.requests index request found
      have present : request.removed = false := eq_false_of_ne_true fun removed => by
        have returned := own.present removed
        rw [kill] at returned
        exact returned
      exact .inr ⟨place, leader, rfl, kill,
        (own.tracks leader (kill ▸ rfl) present identity lives).mp member⟩

end RequestTable

/-- In every interleaving of the requests and of the guest's processes, the living members
of a request's cgroup are the living descendants of its first process, until the cgroup
is removed; after it was killed or removed none of them lives, and two requests never
have a descendant in common. -/
theorem requestCgroups_isolated (table : RequestTable)
    (reachable : requestCgroups.Reachable .start table) (index : Nat) (request : TrackedRequest)
    (found : table.requests[index]? = some request) (leader : Nat)
    (leads : request.stage.leader = some leader) :
    (request.removed = false → ∀ identity, table.tasks.Lives identity →
      (table.tasks.Member request.request.cgroup identity ↔
        table.tasks.Descends leader identity)) ∧
    (request.killed = true ∨ request.removed = true → ∀ identity,
      table.tasks.Descends leader identity → ¬ table.tasks.Lives identity) ∧
    ∀ (place : Nat) (other : TrackedRequest) (process : Nat), place ≠ index →
      table.requests[place]? = some other → other.stage.process = some process →
      ∀ identity, table.tasks.Descends leader identity →
        ¬ table.tasks.Descends process identity := by
  have sound := RequestTable.sound_of_reachable reachable
  have own := sound.requests index request found
  have process := RequestStage.process_of_leader leads
  refine ⟨own.tracks leader leads, ?_, ?_⟩
  · intro ended identity descends lives
    exact own.extinct leader leads (ended.imp_right .inl) identity lives descends
  · intro place other second different held is identity one another
    have same := Tasks.Descends.siblings sound.root (own.child leader process)
      ((sound.requests place other held).child second is) one another
    subst same
    exact different (sound.processes place index other request leader held found is process)

/-- Two requests that run, the first with a child of its own. -/
def sampleRequests : List TableStep :=
  [.create (text "first"), .spawn 0, .enter 0, .create (text "second"), .spawn 1, .exec 0,
    .enter 1, .fork 1, .exec 1]

theorem requestCgroups_isolated_sample : ∃ table request,
    requestCgroups.run .start sampleRequests = some table ∧ table.requests[0]? = some request ∧
      (∀ identity, table.tasks.Lives identity →
        (table.tasks.Member (text "/muvm-requests/first") identity ↔
          table.tasks.Descends 1 identity)) ∧
      ∀ identity, table.tasks.Descends 1 identity → ¬ table.tasks.Descends 2 identity := by
  refine ⟨_, _, rfl, rfl, ?_⟩
  obtain ⟨members, _, disjoint⟩ :=
    requestCgroups_isolated _ ⟨sampleRequests, rfl⟩ 0 _ rfl 1 rfl
  exact ⟨members rfl, disjoint 1 _ 2 (by decide) rfl rfl⟩

/-- What ends a process: its own exit, the failure of its own launch, or `cgroup.kill` of
the cancelled request that it descends from. The kill leaves no descendant of that
request, and the processes of all others. The `SIGTERM` pass before the kill ends nothing
here: a process that dies of it exits by itself. -/
theorem requestCgroups_kill (table after : RequestTable) (action : TableStep)
    (reachable : requestCgroups.Reachable .start table)
    (stepped : table.step action = some after) :
    (∀ identity, table.tasks.Lives identity → ¬ after.tasks.Lives identity →
      action = .exit identity ∨
      (∃ index request, action = .spawnFails index ∧ table.requests[index]? = some request ∧
        request.stage.launching = some identity) ∨
      ∃ index request leader, action = .terminate index false ∧
        table.requests[index]? = some request ∧ request.stage = .kill leader ∧
        table.tasks.Descends leader identity) ∧
    ∀ index request leader, action = .terminate index false →
      table.requests[index]? = some request → request.stage = .kill leader →
      ∀ identity, after.tasks.Lives identity ↔
        table.tasks.Lives identity ∧ ¬ table.tasks.Descends leader identity := by
  have sound := RequestTable.sound_of_reachable reachable
  refine ⟨fun identity lives dead => ?_, ?_⟩
  · rcases RequestTable.step_cases stepped with ⟨index, request, acts, found, moved⟩ |
      ⟨uuid, _, rfl⟩ | ⟨parent, tasks, forks, _, rfl⟩ | ⟨place, tasks, rfl, exited, rfl⟩
    · rcases RequestTable.dead_of_moved sound found moved lives dead with
        ⟨place, rfl, launching⟩ | ⟨place, leader, rfl, kill, descends⟩
      · cases acts
        exact .inr (.inl ⟨index, request, rfl, found, launching⟩)
      · cases acts
        exact .inr (.inr ⟨index, request, leader, rfl, found, kill, descends⟩)
    · exact absurd lives dead
    · exact absurd ((forks.lives_old (Nat.ne_of_lt (Tasks.lives_lt lives))).mpr lives) dead
    · obtain ⟨_, _, _, only⟩ := Tasks.exit_eq_some exited
      cases only identity lives dead
      exact .inl rfl
  · rintro index request leader rfl found kill identity
    have own := sound.requests index request found
    have present : request.removed = false := eq_false_of_ne_true fun removed => by
      have returned := own.present removed
      rw [kill] at returned
      exact returned
    have tracks := own.tracks leader (kill ▸ rfl) present
    have same : table.requestStep index request (.terminate index false) = some after := by
      rw [RequestTable.step, found] at stepped
      exact stepped
    rw [RequestTable.requestStep, kill] at same
    cases same
    constructor
    · intro lives
      have before := (Tasks.dies_kill table.tasks request.group).lives lives
      refine ⟨before, fun descends => tracks.kill identity lives ?_⟩
      exact (Tasks.descends_congr (Tasks.dies_kill table.tasks request.group).parents).mpr descends
    · rintro ⟨before, outside⟩
      exact Tasks.lives_kill before fun member => outside ((tracks identity before).mp member)

/-- The first of them is cancelled. -/
def sampleCancel : List TableStep :=
  sampleRequests ++ [.cancel 0, .terminate 0 false, .terminate 0 false]

theorem requestCgroups_kill_sample : ∃ table after,
    requestCgroups.run .start sampleCancel = some table ∧
      table.step (.terminate 0 false) = some after ∧
      ∀ identity, after.tasks.Lives identity ↔
        table.tasks.Lives identity ∧ ¬ table.tasks.Descends 1 identity := by
  refine ⟨_, _, rfl, rfl, ?_⟩
  exact (requestCgroups_kill _ _ (.terminate 0 false) ⟨sampleCancel, rfl⟩ rfl).2 0 _ 1 rfl rfl rfl

end X86OnArm.Muvm
