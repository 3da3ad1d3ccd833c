import Mathlib.Data.List.Cycle
import Mathlib.Tactic.Common

/-! # Rings of doubly linked nodes

A ring is a cyclic sequence of distinct nodes each joined to the next in both
directions. `Cycle` makes every node of a ring its first one, so splicing a path in
after a node and taking a node out are both changes at the front of a list.
-/

namespace Foundation

universe u

/-- The two pointers of every node; `none` is the null pointer. -/
structure Links (Node : Type u) where
  next : Node → Option Node
  prev : Node → Option Node

namespace Links

variable {Node : Type u}

@[ext] theorem ext {left right : Links Node} (next : left.next = right.next)
    (prev : left.prev = right.prev) : left = right := by
  cases left
  cases right
  cases next
  cases prev
  rfl

/-- `second` follows `first` in both directions. -/
def Joined (heap : Links Node) (first second : Node) : Prop :=
  heap.next first = some second ∧ heap.prev second = some first

/-- Distinct nodes, each joined to the next one and the last to the first. -/
structure Ring (heap : Links Node) (nodes : Cycle Node) : Prop where
  nodup : nodes.Nodup
  joined : nodes.Chain heap.Joined

variable {heap after : Links Node} {first last position element following : Node}
  {rest inserted path : List Node}

/-- A path is kept by a heap that agrees on the pointers between its nodes. -/
theorem isChain_joined_of_agree (joined : path.IsChain heap.Joined)
    (next : ∀ node ∈ path.dropLast, after.next node = heap.next node)
    (prev : ∀ node ∈ path.tail, after.prev node = heap.prev node) :
    path.IsChain after.Joined := by
  induction path with
  | nil => exact .nil
  | cons first rest ih =>
      cases rest with
      | nil => exact .singleton first
      | cons second rest =>
          rw [List.isChain_cons_cons] at joined ⊢
          refine ⟨⟨?_, ?_⟩, ih joined.2 ?_ ?_⟩
          · rw [next first (by simp), joined.1.1]
          · rw [prev second (by simp), joined.1.2]
          · intro node member
            exact next node (List.mem_cons_of_mem _ member)
          · intro node member
            exact prev node (List.mem_of_mem_tail member)

namespace Ring

theorem coe_cons : heap.Ring (position :: rest : List Node) ↔
    (position :: rest).Nodup ∧ (position :: (rest ++ [position])).IsChain heap.Joined := by
  constructor
  · intro ring
    exact ⟨Cycle.nodup_coe_iff.mp ring.nodup, Cycle.chain_coe_cons _ _ _ |>.mp ring.joined⟩
  · intro ⟨nodup, joined⟩
    exact ⟨Cycle.nodup_coe_iff.mpr nodup, Cycle.chain_coe_cons _ _ _ |>.mpr joined⟩

/-- A ring may be read from any of its nodes. -/
theorem rotate {before : List Node} :
    heap.Ring (before ++ position :: rest : List Node) ↔
      heap.Ring (position :: (rest ++ before) : List Node) := by
  have rotated : ((before ++ position :: rest : List Node) : Cycle Node) =
      (position :: (rest ++ before) : List Node) :=
    Cycle.coe_eq_coe.mpr List.isRotated_append
  rw [rotated]

theorem next_eq (ring : heap.Ring (position :: rest : List Node)) :
    heap.next position = (rest ++ [position]).head? := by
  obtain ⟨-, joined⟩ := coe_cons.mp ring
  cases rest with
  | nil => exact (List.isChain_cons_cons.mp joined).1.1
  | cons second rest => exact (List.isChain_cons_cons.mp joined).1.1

theorem prev_eq (ring : heap.Ring (position :: rest : List Node)) :
    heap.prev position = (position :: rest).getLast? := by
  obtain ⟨-, joined⟩ := coe_cons.mp ring
  rw [← List.cons_append, List.isChain_append] at joined
  have last := List.getLast?_eq_some_getLast (List.cons_ne_nil position rest)
  rw [last]
  exact (joined.2.2 _ last position rfl).2

/-- A ring is kept by a heap that agrees on its nodes. -/
theorem of_agree {nodes : Cycle Node} (ring : heap.Ring nodes)
    (agree : ∀ node ∈ nodes, after.next node = heap.next node ∧
      after.prev node = heap.prev node) : after.Ring nodes := by
  induction nodes using Quotient.inductionOn with
  | h nodes =>
      cases nodes with
      | nil => exact ⟨ring.nodup, Cycle.Chain.nil _⟩
      | cons first rest =>
          obtain ⟨nodup, joined⟩ := coe_cons.mp ring
          have inside : ∀ node ∈ first :: (rest ++ [first]), node ∈ first :: rest := by
            intro node member
            simp only [List.mem_cons, List.mem_append, List.not_mem_nil, or_false] at member ⊢
            tauto
          refine coe_cons.mpr ⟨nodup, isChain_joined_of_agree joined ?_ ?_⟩
          · intro node member
            exact (agree node (inside node (List.mem_of_mem_dropLast member))).1
          · intro node member
            exact (agree node (inside node (List.mem_of_mem_tail member))).2

end Ring

section Updates

variable [DecidableEq Node]

def setNext (heap : Links Node) (node : Node) (target : Option Node) : Links Node :=
  { heap with next := Function.update heap.next node target }

def setPrev (heap : Links Node) (node : Node) (target : Option Node) : Links Node :=
  { heap with prev := Function.update heap.prev node target }

@[simp] theorem setNext_prev (node : Node) (target : Option Node) :
    (heap.setNext node target).prev = heap.prev := rfl

@[simp] theorem setPrev_next (node : Node) (target : Option Node) :
    (heap.setPrev node target).next = heap.next := rfl

theorem setNext_next (node : Node) (target : Option Node) (query : Node) :
    (heap.setNext node target).next query =
      if query = node then target else heap.next query :=
  Function.update_apply ..

theorem setPrev_prev (node : Node) (target : Option Node) (query : Node) :
    (heap.setPrev node target).prev query =
      if query = node then target else heap.prev query :=
  Function.update_apply ..

/-- What `after` has where a path from `first` to `last` was put between `position`
and the node `following` it. -/
structure Spliced (heap after : Links Node) (position first last following : Node) : Prop where
  next : ∀ node, after.next node =
    if node = position then some first else if node = last then some following
    else heap.next node
  prev : ∀ node, after.prev node =
    if node = following then some last else if node = first then some position
    else heap.prev node

/-- Splicing a path of other nodes in after a node puts its nodes after that node. -/
theorem Ring.splice (ring : heap.Ring (position :: rest : List Node))
    (path : inserted.IsChain heap.Joined) (distinct : inserted.Nodup)
    (apart : List.Disjoint inserted (position :: rest))
    (starts : inserted.head? = some first) (ends : inserted.getLast? = some last)
    (follows : heap.next position = some following)
    (spliced : Spliced heap after position first last following) :
    after.Ring (position :: (inserted ++ rest) : List Node) := by
  obtain ⟨nodup, joined⟩ := coe_cons.mp ring
  have followingHead : (rest ++ [position]).head? = some following := by
    rw [← ring.next_eq, follows]
  have rotated := List.perm_append_singleton position rest
  have inside : ∀ node, node ∈ rest ++ [position] ↔ node ∈ position :: rest :=
    fun _ => rotated.mem_iff
  have firstMember : first ∈ inserted := List.mem_of_mem_head? starts
  have lastMember : last ∈ inserted := List.mem_of_getLast? ends
  have followingMember : following ∈ position :: rest :=
    (inside _).mp (List.mem_of_mem_head? followingHead)
  have outside : ∀ {node other : Node}, node ∈ inserted → other ∈ position :: rest →
      node ≠ other := by
    intro node other member present same
    subst same
    exact apart member present
  have positionFirst : after.Joined position first := by
    constructor
    · rw [spliced.next, if_pos rfl]
    · rw [spliced.prev, if_neg (outside firstMember followingMember), if_pos rfl]
  have lastFollowing : after.Joined last following := by
    constructor
    · rw [spliced.next, if_neg (outside lastMember List.mem_cons_self), if_pos rfl]
    · rw [spliced.prev, if_pos rfl]
  have insertedPath : inserted.IsChain after.Joined := by
    refine isChain_joined_of_agree path ?_ ?_
    · intro node member
      have notLast : node ≠ last := by
        intro same
        subst same
        rw [List.getLast?_eq_some_iff] at ends
        obtain ⟨front, rfl⟩ := ends
        rw [List.dropLast_concat] at member
        exact (List.nodup_append.mp distinct).2.2 _ member _ (List.mem_singleton_self _) rfl
      rw [spliced.next, if_neg (outside (List.mem_of_mem_dropLast member) List.mem_cons_self),
        if_neg notLast]
    · intro node member
      have notFirst : node ≠ first := by
        intro same
        subst same
        rw [List.head?_eq_some_iff] at starts
        obtain ⟨tail, rfl⟩ := starts
        exact (List.nodup_cons.mp distinct).1 member
      rw [spliced.prev, if_neg (outside (List.mem_of_mem_tail member) followingMember),
        if_neg notFirst]
  have restPath : (rest ++ [position]).IsChain after.Joined := by
    refine isChain_joined_of_agree (List.isChain_cons.mp joined).2 ?_ ?_
    · intro node member
      rw [List.dropLast_concat] at member
      have notPosition : node ≠ position := by
        intro same
        subst same
        exact (List.nodup_cons.mp nodup).1 member
      rw [spliced.next, if_neg notPosition,
        if_neg (outside lastMember (List.mem_cons_of_mem _ member)).symm]
    · intro node member
      have notFollowing : node ≠ following := by
        intro same
        subst same
        obtain ⟨tail, shape⟩ := List.head?_eq_some_iff.mp followingHead
        have distinctRest := rotated.nodup_iff.mpr nodup
        rw [shape] at distinctRest member
        exact (List.nodup_cons.mp distinctRest).1 member
      rw [spliced.prev, if_neg notFollowing,
        if_neg (outside firstMember ((inside _).mp (List.mem_of_mem_tail member))).symm]
  refine coe_cons.mpr ⟨?_, ?_⟩
  · have perm : (position :: (inserted ++ rest)).Perm (inserted ++ position :: rest) :=
      List.perm_middle.symm
    exact perm.nodup_iff.mpr
      (List.nodup_append.mpr ⟨distinct, nodup, fun _ member _ present => outside member present⟩)
  · rw [List.append_assoc, List.isChain_cons, List.isChain_append]
    refine ⟨?_, insertedPath, restPath, ?_⟩
    · intro node head
      rw [List.head?_append, starts] at head
      cases head
      exact positionFirst
    · intro front frontLast back backHead
      rw [ends] at frontLast
      rw [followingHead] at backHead
      cases frontLast
      cases backHead
      exact lastFollowing

/-- What `after` has where `element` was taken out from between two nodes. -/
structure Bridged (heap after : Links Node) (before element following : Node) : Prop where
  next : ∀ node, node ≠ element → after.next node =
    if node = before then some following else heap.next node
  prev : ∀ node, node ≠ element → after.prev node =
    if node = following then some before else heap.prev node

/-- Taking a node out of a ring leaves the other nodes in their order. -/
theorem Ring.bridge {before : Node} (ring : heap.Ring (element :: rest : List Node))
    (occupied : rest ≠ []) (precedes : heap.prev element = some before)
    (follows : heap.next element = some following)
    (bridged : Bridged heap after before element following) : after.Ring (rest : Cycle Node) := by
  obtain ⟨nodup, joined⟩ := coe_cons.mp ring
  obtain ⟨absent, distinct⟩ := List.nodup_cons.mp nodup
  rw [ring.next_eq] at follows
  rw [ring.prev_eq] at precedes
  cases rest with
  | nil => exact absurd rfl occupied
  | cons second rest =>
      have same : second = following := Option.some.inj follows
      subst same
      rw [List.getLast?_cons_cons] at precedes
      have apart : ∀ {node : Node}, node ∈ second :: rest → node ≠ element := by
        intro node member same
        exact absent (same ▸ member)
      have path : (second :: rest).IsChain after.Joined := by
        rw [List.isChain_cons, List.isChain_append] at joined
        refine isChain_joined_of_agree joined.2.1 ?_ ?_
        · intro node member
          have notBefore : node ≠ before := by
            intro same
            subst same
            obtain ⟨front, shape⟩ := List.getLast?_eq_some_iff.mp precedes
            rw [shape] at distinct member
            rw [List.dropLast_concat] at member
            exact (List.nodup_append.mp distinct).2.2 _ member _ (List.mem_singleton_self _) rfl
          rw [bridged.next node (apart (List.mem_of_mem_dropLast member)), if_neg notBefore]
        · intro node member
          have notSecond : node ≠ second := by
            intro same
            subst same
            exact (List.nodup_cons.mp distinct).1 member
          rw [bridged.prev node (apart (List.mem_of_mem_tail member)), if_neg notSecond]
      have closing : after.Joined before second := by
        have member : before ∈ second :: rest := List.mem_of_getLast? precedes
        constructor
        · rw [bridged.next before (apart member), if_pos rfl]
        · rw [bridged.prev second (apart List.mem_cons_self), if_pos rfl]
      refine coe_cons.mpr ⟨distinct, ?_⟩
      rw [← List.cons_append, List.isChain_append]
      refine ⟨path, .singleton _, ?_⟩
      intro front frontLast back backHead
      rw [precedes] at frontLast
      cases frontLast
      cases backHead
      exact closing

end Updates

end Links

end Foundation
