import Mathlib.Data.List.Basic
import Mathlib.Logic.Relation
import Mathlib.Tactic.Common

/-! # Groups of processes

A kernel's processes with the group each one is in. A forked process begins in its
parent's group, and only a process that is moved changes its group. So a group that was
entered by a process before it had children holds that process and its descendants, and
nobody else (`Tracks`), however they fork and whoever of them exits; and what is killed
with the group never comes back (`Extinct`).
-/

namespace Foundation

universe u

/-- A process; a process that has exited keeps its place in the table. -/
structure Task (Group : Type u) where
  parent : Option Nat
  group : Group
  alive : Bool
  deriving DecidableEq

/-- The processes, each at the place of its identity. -/
abbrev Tasks (Group : Type u) := List (Task Group)

namespace Tasks

variable {Group : Type u}

def parentOf (tasks : Tasks Group) (identity : Nat) : Option Nat :=
  tasks[identity]?.bind Task.parent

/-- One process is another or was forked by one of its descendants. -/
def Descends (tasks : Tasks Group) : Nat → Nat → Prop :=
  Relation.ReflTransGen fun parent child => tasks.parentOf child = some parent

/-- A process that lives. -/
def Lives (tasks : Tasks Group) (identity : Nat) : Prop :=
  ∃ task, tasks[identity]? = some task ∧ task.alive = true

/-- A process that lives and is in a group. -/
def Member (tasks : Tasks Group) (group : Group) (identity : Nat) : Prop :=
  ∃ task, tasks[identity]? = some task ∧ task.alive = true ∧ task.group = group

/-- The living members of a group are the living descendants of a process. -/
def Tracks (tasks : Tasks Group) (group : Group) (leader : Nat) : Prop :=
  ∀ identity, tasks.Lives identity → (tasks.Member group identity ↔ tasks.Descends leader identity)

def Vacant (tasks : Tasks Group) (group : Group) : Prop :=
  ∀ identity, ¬ tasks.Member group identity

/-- No descendant lives, the process included. -/
def Extinct (tasks : Tasks Group) (leader : Nat) : Prop :=
  ∀ identity, tasks.Lives identity → ¬ tasks.Descends leader identity

def Childless (tasks : Tasks Group) (leader : Nat) : Prop :=
  ∀ identity, tasks.Descends leader identity → identity = leader

/-- Parents are older than their children. -/
def Ordered (tasks : Tasks Group) : Prop :=
  ∀ child parent, tasks.parentOf child = some parent → parent < child

def populated [DecidableEq Group] (tasks : Tasks Group) (group : Group) : Bool :=
  tasks.any fun task => task.alive && decide (task.group = group)

/-- A living process forks. -/
def fork (tasks : Tasks Group) (parent : Nat) : Option (Tasks Group) :=
  match tasks[parent]? with
  | some task => if task.alive then some (tasks ++ [⟨some parent, task.group, true⟩]) else none
  | none => none

def exit (tasks : Tasks Group) (identity : Nat) : Option (Tasks Group) :=
  match tasks[identity]? with
  | some task =>
      if task.alive then some (tasks.set identity { task with alive := false }) else none
  | none => none

/-- A living process is moved to a group. -/
def enter (tasks : Tasks Group) (identity : Nat) (group : Group) : Option (Tasks Group) :=
  match tasks[identity]? with
  | some task => if task.alive then some (tasks.set identity { task with group }) else none
  | none => none

/-- All members of a group are killed at once. -/
def kill [DecidableEq Group] (tasks : Tasks Group) (group : Group) : Tasks Group :=
  tasks.map fun task => if task.group = group then { task with alive := false } else task

variable {tasks after : Tasks Group} {group : Group} {leader : Nat}

theorem Member.lives {identity : Nat} (member : tasks.Member group identity) :
    tasks.Lives identity := by
  obtain ⟨task, found, alive, _⟩ := member
  exact ⟨task, found, alive⟩

theorem Lives.member {identity : Nat} (lives : tasks.Lives identity) :
    ∃ group, tasks.Member group identity := by
  obtain ⟨task, found, alive⟩ := lives
  exact ⟨task.group, task, found, alive, rfl⟩

theorem Member.unique {identity : Nat} {other : Group} (first : tasks.Member group identity)
    (second : tasks.Member other identity) : group = other := by
  obtain ⟨task, found, _, same⟩ := first
  obtain ⟨_, again, _, different⟩ := second
  cases found.symm.trans again
  exact same.symm.trans different

theorem populated_iff [DecidableEq Group] :
    tasks.populated group = true ↔ ∃ identity, tasks.Member group identity := by
  simp only [populated, List.any_eq_true, Bool.and_eq_true, decide_eq_true_eq]
  constructor
  · rintro ⟨task, member, alive, same⟩
    obtain ⟨identity, found⟩ := List.mem_iff_getElem?.mp member
    exact ⟨identity, task, found, alive, same⟩
  · rintro ⟨identity, task, found, alive, same⟩
    exact ⟨task, List.mem_of_getElem? found, alive, same⟩

theorem vacant_of_not_populated [DecidableEq Group] (empty : tasks.populated group = false) :
    tasks.Vacant group := fun identity member =>
  absurd (empty.symm.trans (populated_iff.mpr ⟨identity, member⟩)) nofun

/-! ## Descent -/

theorem Descends.le (ordered : tasks.Ordered) {first last : Nat}
    (descends : tasks.Descends first last) : first ≤ last := by
  induction descends with
  | refl => exact Nat.le_refl _
  | tail _ child ih => exact Nat.le_trans ih (Nat.le_of_lt (ordered _ _ child))

/-- What forks of nobody descends only from itself. -/
theorem Descends.of_root {root first : Nat} (orphan : tasks.parentOf root = none)
    (descends : tasks.Descends first root) : first = root := by
  cases descends with
  | refl => rfl
  | tail _ child => exact absurd (orphan.symm.trans child) nofun

/-- Two children of a root have no common descendant. -/
theorem Descends.siblings {root first second identity : Nat} (orphan : tasks.parentOf root = none)
    (firstChild : tasks.parentOf first = some root)
    (secondChild : tasks.parentOf second = some root)
    (one : tasks.Descends first identity) (other : tasks.Descends second identity) :
    first = second := by
  have notRoot {child : Nat} (isChild : tasks.parentOf child = some root) : child ≠ root := by
    rintro rfl
    exact absurd (orphan.symm.trans isChild) nofun
  induction one with
  | refl =>
      cases other with
      | refl => rfl
      | tail earlier child =>
          cases firstChild.symm.trans child
          exact absurd (Descends.of_root orphan earlier) (notRoot secondChild)
  | tail earlier child ih =>
      cases other with
      | refl =>
          cases secondChild.symm.trans child
          exact absurd (Descends.of_root orphan earlier) (notRoot firstChild)
      | tail others again =>
          cases child.symm.trans again
          exact ih others

/-! ## Steps that leave the parents -/

/-- Nobody changes parent or group, and nobody who was dead lives. -/
structure Dies (before after : Tasks Group) : Prop where
  parents : ∀ identity, after.parentOf identity = before.parentOf identity
  members : ∀ group identity, after.Member group identity → before.Member group identity

theorem Dies.refl (tasks : Tasks Group) : Dies tasks tasks := ⟨fun _ => rfl, fun _ _ => id⟩

theorem descends_congr (parents : ∀ identity, after.parentOf identity = tasks.parentOf identity)
    {first last : Nat} : after.Descends first last ↔ tasks.Descends first last := by
  unfold Descends
  simp only [parents]

theorem Dies.lives (dies : Dies tasks after) {identity : Nat} (lives : after.Lives identity) :
    tasks.Lives identity := by
  obtain ⟨group, member⟩ := lives.member
  exact (dies.members group identity member).lives

theorem Dies.member (dies : Dies tasks after) {identity : Nat} (lives : after.Lives identity)
    (member : tasks.Member group identity) : after.Member group identity := by
  obtain ⟨other, now⟩ := lives.member
  exact (dies.members other identity now).unique member ▸ now

theorem Tracks.dies (tracks : tasks.Tracks group leader) (dies : Dies tasks after) :
    after.Tracks group leader := by
  intro identity lives
  rw [descends_congr dies.parents, ← tracks identity (dies.lives lives)]
  exact ⟨dies.members group identity, dies.member lives⟩

theorem Vacant.dies (vacant : tasks.Vacant group) (dies : Dies tasks after) :
    after.Vacant group := fun identity member =>
  vacant identity (dies.members group identity member)

theorem Tracks.extinct (tracks : tasks.Tracks group leader) (vacant : tasks.Vacant group) :
    tasks.Extinct leader := fun identity lives descends =>
  vacant identity ((tracks identity lives).mpr descends)

/-- The group of a childless process that has exited is empty. -/
theorem Tracks.vacant (tracks : tasks.Tracks group leader) (childless : tasks.Childless leader)
    (exited : ¬ tasks.Lives leader) : tasks.Vacant group := by
  intro identity member
  have descends := (tracks identity member.lives).mp member
  exact exited (childless identity descends ▸ member.lives)

theorem Extinct.dies (extinct : tasks.Extinct leader) (dies : Dies tasks after) :
    after.Extinct leader := fun identity lives descends =>
  extinct identity (dies.lives lives) ((descends_congr dies.parents).mp descends)

theorem Childless.of_parents (childless : tasks.Childless leader)
    (parents : ∀ identity, after.parentOf identity = tasks.parentOf identity) :
    after.Childless leader := fun identity descends =>
  childless identity ((descends_congr parents).mp descends)

theorem Ordered.of_parents (ordered : tasks.Ordered)
    (parents : ∀ identity, after.parentOf identity = tasks.parentOf identity) : after.Ordered := by
  intro child parent isChild
  rw [parents] at isChild
  exact ordered child parent isChild

theorem exit_eq_some {identity : Nat} (exited : tasks.exit identity = some after) :
    tasks.Lives identity ∧ Dies tasks after ∧ ¬ after.Lives identity ∧
      ∀ other, tasks.Lives other → ¬ after.Lives other → other = identity := by
  unfold exit at exited
  split at exited
  case h_1 task found =>
    simp only [Option.ite_none_right_eq_some, Option.some.injEq] at exited
    obtain ⟨alive, rfl⟩ := exited
    have bound := (List.getElem?_eq_some_iff.mp found).1
    have other {place : Nat} (different : identity ≠ place) :
        (tasks.set identity { task with alive := false })[place]? = tasks[place]? :=
      List.getElem?_set_ne different
    have self : (tasks.set identity { task with alive := false })[identity]? =
        some { task with alive := false } := List.getElem?_set_self bound
    refine ⟨⟨task, found, alive⟩, ⟨fun place => ?_, ?_⟩, ?_, ?_⟩
    · by_cases same : identity = place
      · subst same
        rw [parentOf, parentOf, self, found]
        rfl
      · rw [parentOf, parentOf, other same]
    · rintro group place ⟨changed, now, lives, member⟩
      by_cases same : identity = place
      · subst same
        cases self.symm.trans now
        cases lives
      · exact ⟨changed, (other same).symm.trans now, lives, member⟩
    · rintro ⟨changed, now, lives⟩
      cases self.symm.trans now
      cases lives
    · rintro place ⟨before, found, lives⟩ gone
      by_contra different
      exact gone ⟨before, (other fun same => different same.symm).trans found, lives⟩
  case h_2 => cases exited

section Kill

variable [DecidableEq Group]

theorem member_kill {other : Group} {identity : Nat} :
    (tasks.kill group).Member other identity ↔ tasks.Member other identity ∧ other ≠ group := by
  simp only [Member, kill, List.getElem?_map, Option.map_eq_some_iff]
  constructor
  · rintro ⟨_, ⟨task, found, rfl⟩, alive, same⟩
    split_ifs at alive same with killed
    exact ⟨⟨task, found, alive, same⟩, fun equal => killed (same.trans equal)⟩
  · rintro ⟨⟨task, found, alive, same⟩, different⟩
    refine ⟨_, ⟨task, found, rfl⟩, ?_⟩
    rw [if_neg fun killed => different (same.symm.trans killed)]
    exact ⟨alive, same⟩

theorem dies_kill (tasks : Tasks Group) (group : Group) : Dies tasks (tasks.kill group) where
  parents identity := by
    simp only [parentOf, kill, List.getElem?_map]
    cases tasks[identity]? with
    | none => rfl
    | some task =>
        simp only [Option.map_some, Option.bind_some]
        split_ifs <;> rfl
  members _ _ member := (member_kill.mp member).1

/-- Killing the group that a process tracks ends its descendants, and nobody else. -/
theorem Tracks.kill (tracks : tasks.Tracks group leader) : (tasks.kill group).Extinct leader := by
  intro identity lives descends
  have dies := dies_kill tasks group
  have before := dies.lives lives
  have member := (tracks identity before).mpr ((descends_congr dies.parents).mp descends)
  obtain ⟨other, now⟩ := lives.member
  obtain ⟨same, different⟩ := member_kill.mp now
  exact different (same.unique member)

theorem lives_kill {identity : Nat} (lives : tasks.Lives identity)
    (outside : ¬ tasks.Member group identity) : (tasks.kill group).Lives identity := by
  obtain ⟨other, member⟩ := lives.member
  refine Member.lives (member_kill.mpr ⟨member, ?_⟩)
  rintro rfl
  exact outside member

end Kill

/-! ## Forks -/

/-- A fork adds one process, in its parent's group. -/
structure Forks (before : Tasks Group) (parent : Nat) (after : Tasks Group) : Prop where
  parentLives : before.Lives parent
  parentOf_new : after.parentOf before.length = some parent
  parentOf_old : ∀ identity, identity ≠ before.length →
    after.parentOf identity = before.parentOf identity
  member_new : ∀ group, after.Member group before.length ↔ before.Member group parent
  member_old : ∀ group identity, identity ≠ before.length →
    (after.Member group identity ↔ before.Member group identity)

theorem lives_lt {identity : Nat} (lives : tasks.Lives identity) : identity < tasks.length := by
  obtain ⟨task, found, _⟩ := lives
  exact (List.getElem?_eq_some_iff.mp found).1

theorem parentOf_of_length {identity : Nat} (beyond : tasks.length ≤ identity) :
    tasks.parentOf identity = none := by
  rw [parentOf, List.getElem?_eq_none beyond]
  rfl

theorem forks_of_fork {parent : Nat} (forked : tasks.fork parent = some after) :
    Forks tasks parent after := by
  unfold fork at forked
  split at forked
  case h_1 task found =>
    simp only [Option.ite_none_right_eq_some, Option.some.injEq] at forked
    obtain ⟨alive, rfl⟩ := forked
    have new : (tasks ++ [⟨some parent, task.group, true⟩])[tasks.length]? =
        some ⟨some parent, task.group, true⟩ := List.getElem?_concat_length
    have old {identity : Nat} (different : identity ≠ tasks.length) :
        (tasks ++ [(⟨some parent, task.group, true⟩ : Task Group)])[identity]? =
          tasks[identity]? := by
      rcases Nat.lt_or_gt_of_ne different with less | more
      · exact List.getElem?_append_left less
      · rw [List.getElem?_eq_none (by rw [List.length_append, List.length_singleton]; omega),
          List.getElem?_eq_none (by omega)]
    refine ⟨⟨task, found, alive⟩, ?_, ?_, fun group => ⟨?_, ?_⟩, ?_⟩
    · rw [parentOf, new]
      rfl
    · intro identity different
      rw [parentOf, parentOf, old different]
    · rintro ⟨changed, now, _, same⟩
      cases new.symm.trans now
      exact ⟨task, found, alive, same⟩
    · rintro ⟨_, again, _, same⟩
      cases found.symm.trans again
      exact ⟨_, new, rfl, same⟩
    · intro group identity different
      simp only [Member, old different]
  case h_2 => cases forked

namespace Forks

variable {parent : Nat} (forks : Forks tasks parent after)

include forks

/-- Whatever holds of the groups of the living holds after a fork. -/
theorem housed {houses : Group → Prop}
    (housed : ∀ group identity, tasks.Member group identity → houses group) :
    ∀ group identity, after.Member group identity → houses group := by
  intro group identity member
  by_cases new : identity = tasks.length
  · subst new
    exact housed group parent ((forks.member_new group).mp member)
  · exact housed group identity ((forks.member_old group identity new).mp member)

theorem ordered (ordered : tasks.Ordered) : after.Ordered := by
  intro child mother isChild
  by_cases new : child = tasks.length
  · subst new
    cases forks.parentOf_new.symm.trans isChild
    exact lives_lt forks.parentLives
  · rw [forks.parentOf_old child new] at isChild
    exact ordered child mother isChild

theorem lives_old {identity : Nat} (old : identity ≠ tasks.length) :
    after.Lives identity ↔ tasks.Lives identity := by
  constructor
  · intro lives
    obtain ⟨group, member⟩ := lives.member
    exact ((forks.member_old group identity old).mp member).lives
  · intro lives
    obtain ⟨group, member⟩ := lives.member
    exact ((forks.member_old group identity old).mpr member).lives

theorem descends_old (ordered : tasks.Ordered) {first last : Nat} (old : last < tasks.length) :
    after.Descends first last ↔ tasks.Descends first last := by
  constructor
  · intro descends
    induction descends with
    | refl => exact .refl
    | tail _ child ih =>
        rw [forks.parentOf_old _ (Nat.ne_of_lt old)] at child
        exact .tail (ih (Nat.lt_trans (ordered _ _ child) old)) child
  · intro descends
    induction descends with
    | refl => exact .refl
    | tail _ child ih =>
        have older := ordered _ _ child
        exact .tail (ih (Nat.lt_trans older old))
          ((forks.parentOf_old _ (Nat.ne_of_lt old)).trans child)

/-- The new process descends from itself and from what its parent descends from. -/
theorem descends_new (ordered : tasks.Ordered) {first : Nat} :
    after.Descends first tasks.length ↔ first = tasks.length ∨ tasks.Descends first parent := by
  have older := lives_lt forks.parentLives
  constructor
  · intro descends
    cases descends with
    | refl => exact .inl rfl
    | tail earlier child =>
        cases forks.parentOf_new.symm.trans child
        exact .inr ((forks.descends_old ordered older).mp earlier)
  · rintro (rfl | descends)
    · exact .refl
    · exact .tail ((forks.descends_old ordered older).mpr descends) forks.parentOf_new

theorem tracks (ordered : tasks.Ordered) (tracks : tasks.Tracks group leader)
    (older : leader < tasks.length) : after.Tracks group leader := by
  intro identity lives
  by_cases new : identity = tasks.length
  · subst new
    rw [forks.member_new, forks.descends_new ordered, tracks parent forks.parentLives]
    exact ⟨.inr, fun descends => descends.resolve_left (Nat.ne_of_lt older)⟩
  · have before := (forks.lives_old new).mp lives
    rw [forks.member_old group identity new, forks.descends_old ordered (lives_lt before)]
    exact tracks identity before

theorem vacant (vacant : tasks.Vacant group) : after.Vacant group := by
  intro identity member
  by_cases new : identity = tasks.length
  · subst new
    exact vacant parent ((forks.member_new group).mp member)
  · exact vacant identity ((forks.member_old group identity new).mp member)

theorem extinct (ordered : tasks.Ordered) (extinct : tasks.Extinct leader)
    (older : leader < tasks.length) : after.Extinct leader := by
  intro identity lives descends
  by_cases new : identity = tasks.length
  · subst new
    exact extinct parent forks.parentLives (((forks.descends_new ordered).mp descends).resolve_left
      (Nat.ne_of_lt older))
  · have before := (forks.lives_old new).mp lives
    exact extinct identity before ((forks.descends_old ordered (lives_lt before)).mp descends)

theorem childless (ordered : tasks.Ordered) (childless : tasks.Childless leader)
    (older : leader < tasks.length) (other : parent ≠ leader) : after.Childless leader := by
  intro identity descends
  rcases Nat.lt_trichotomy identity tasks.length with less | rfl | more
  · exact childless identity ((forks.descends_old ordered less).mp descends)
  · have inherited := ((forks.descends_new ordered).mp descends).resolve_left (Nat.ne_of_lt older)
    exact absurd (childless parent inherited) other
  · cases descends with
    | refl => rfl
    | tail _ child =>
        rw [forks.parentOf_old _ (Nat.ne_of_gt more),
          parentOf_of_length (Nat.le_of_lt more)] at child
        cases child

theorem childless_new (ordered : tasks.Ordered) : after.Childless tasks.length := by
  intro identity descends
  have later := descends.le (forks.ordered ordered)
  cases descends with
  | refl => rfl
  | tail _ child =>
      by_contra new
      rw [forks.parentOf_old _ new, parentOf_of_length later] at child
      cases child

end Forks

/-! ## Moves -/

/-- One process is moved to a group. -/
structure Moves (before : Tasks Group) (mover : Nat) (group : Group) (after : Tasks Group) :
    Prop where
  moverLives : before.Lives mover
  parents : ∀ identity, after.parentOf identity = before.parentOf identity
  member : ∀ other, after.Member other mover ↔ other = group
  member_others : ∀ other identity, identity ≠ mover →
    (after.Member other identity ↔ before.Member other identity)

theorem moves_of_enter {mover : Nat} (entered : tasks.enter mover group = some after) :
    Moves tasks mover group after := by
  unfold enter at entered
  split at entered
  case h_1 task found =>
    simp only [Option.ite_none_right_eq_some, Option.some.injEq] at entered
    obtain ⟨alive, rfl⟩ := entered
    have bound := (List.getElem?_eq_some_iff.mp found).1
    have others {place : Nat} (different : place ≠ mover) :
        (tasks.set mover { task with group := group })[place]? = tasks[place]? :=
      List.getElem?_set_ne different.symm
    have self : (tasks.set mover { task with group := group })[mover]? =
        some { task with group := group } := List.getElem?_set_self bound
    refine ⟨⟨task, found, alive⟩, fun place => ?_, fun other => ⟨?_, ?_⟩,
      fun other place different => ?_⟩
    · by_cases same : place = mover
      · subst same
        rw [parentOf, parentOf, self, found]
        rfl
      · rw [parentOf, parentOf, others same]
    · rintro ⟨changed, now, _, same⟩
      cases self.symm.trans now
      exact same.symm
    · rintro rfl
      exact ⟨_, self, alive, rfl⟩
    · simp only [Member, others different]
  case h_2 => cases entered

namespace Moves

variable {mover : Nat} (moves : Moves tasks mover group after)

include moves

theorem lives {identity : Nat} : after.Lives identity ↔ tasks.Lives identity := by
  by_cases same : identity = mover
  · subst same
    exact ⟨fun _ => moves.moverLives, fun _ => ((moves.member group).mpr rfl).lives⟩
  · constructor
    · intro lives
      obtain ⟨other, member⟩ := lives.member
      exact ((moves.member_others other identity same).mp member).lives
    · intro lives
      obtain ⟨other, member⟩ := lives.member
      exact ((moves.member_others other identity same).mpr member).lives

theorem housed {houses : Group → Prop} (own : houses group)
    (housed : ∀ other identity, tasks.Member other identity → houses other) :
    ∀ other identity, after.Member other identity → houses other := by
  intro other identity member
  by_cases same : identity = mover
  · subst same
    exact (moves.member other).mp member ▸ own
  · exact housed other identity ((moves.member_others other identity same).mp member)

theorem extinct (extinct : tasks.Extinct leader) : after.Extinct leader := fun identity lives
    descends => extinct identity (moves.lives.mp lives) ((descends_congr moves.parents).mp descends)

theorem vacant {other : Group} (different : other ≠ group) (vacant : tasks.Vacant other) :
    after.Vacant other := by
  intro identity member
  by_cases same : identity = mover
  · subst same
    exact different ((moves.member other).mp member)
  · exact vacant identity ((moves.member_others other identity same).mp member)

/-- Who moves elsewhere was in no other group's descent, and is not. -/
theorem tracks {other : Group} (different : other ≠ group) (tracks : tasks.Tracks other leader)
    (outside : ¬ tasks.Descends leader mover) : after.Tracks other leader := by
  intro identity lives
  rw [descends_congr moves.parents]
  by_cases same : identity = mover
  · subst same
    rw [moves.member]
    exact ⟨fun equal => absurd equal different, fun descends => absurd descends outside⟩
  · rw [moves.member_others other identity same]
    exact tracks identity (moves.lives.mp lives)

/-- A childless process that moves to an empty group is tracked by it. -/
theorem enters (vacant : tasks.Vacant group) (childless : tasks.Childless mover) :
    after.Tracks group mover := by
  intro identity lives
  rw [descends_congr moves.parents]
  by_cases same : identity = mover
  · subst same
    exact ⟨fun _ => .refl, fun _ => (moves.member group).mpr rfl⟩
  · rw [moves.member_others group identity same]
    exact ⟨fun member => absurd member (vacant identity),
      fun descends => absurd (childless identity descends) same⟩

end Moves

end Tasks

end Foundation
