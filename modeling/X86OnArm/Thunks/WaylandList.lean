import X86OnArm.Foundation.LinkedRing

/-! # The guest's `wl_list`

The list functions of the guest's Wayland library, over a heap whose pointers may be
null: a write through a null pointer has no result. `Lists` is what a program means by
them, a sequence for every head in use, and `wlList_refines` relates the two over
every sequence of calls the interface permits.
-/

namespace X86OnArm.Thunks

open Foundation

universe u

section Functions

variable {Node : Type u} [DecidableEq Node]

def wlListInit (list : Node) (heap : Links Node) : Links Node :=
  (heap.setNext list (some list)).setPrev list (some list)

def wlListInsert (list elm : Node) (heap : Links Node) : Option (Links Node) := do
  let heap := heap.setPrev elm (some list)
  let heap := heap.setNext elm (heap.next list)
  let following ← heap.next list
  let heap := heap.setPrev following (some elm)
  return heap.setNext list (some elm)

def wlListRemove (elm : Node) (heap : Links Node) : Option (Links Node) := do
  let preceding ← heap.prev elm
  let heap := heap.setNext preceding (heap.next elm)
  let following ← heap.next elm
  let heap := heap.setPrev following (heap.prev elm)
  let heap := heap.setNext elm none
  return heap.setPrev elm none

def wlListEmpty (list : Node) (heap : Links Node) : Bool :=
  heap.next list = some list

/-- The largest `int`; counting past it is undefined. -/
def intMax : Int := 2 ^ 31 - 1

/-- The loop of `wl_list_length` from the node `elm` on. -/
def lengthLoop (heap : Links Node) (list : Node) : Nat → Option Node → Int → Option Int
  | 0, _, _ => none
  | fuel + 1, elm, count =>
      if elm = some list then some count
      else if intMax ≤ count then none
      else elm.bind fun node => lengthLoop heap list fuel (heap.next node) (count + 1)

def wlListLength (fuel : Nat) (list : Node) (heap : Links Node) : Option Int :=
  lengthLoop heap list fuel (heap.next list) 0

def wlListInsertList (list other : Node) (heap : Links Node) : Option (Links Node) := do
  if wlListEmpty other heap then
    return heap
  let first ← heap.next other
  let heap := heap.setPrev first (some list)
  let last ← heap.prev other
  let heap := heap.setNext last (heap.next list)
  let following ← heap.next list
  let heap := heap.setPrev following (heap.prev other)
  return heap.setNext list (heap.next other)

/-- A call that changes the heap. -/
inductive ListCall (Node : Type u) where
  | init (list : Node)
  | insert (list elm : Node)
  | remove (elm : Node)
  | insertList (list other : Node)
  deriving DecidableEq

namespace ListCall

def execute (heap : Links Node) : ListCall Node → Option (Links Node)
  | .init list => some (wlListInit list heap)
  | .insert list elm => wlListInsert list elm heap
  | .remove elm => wlListRemove elm heap
  | .insertList list other => wlListInsertList list other heap

/-- The nodes a call may write, as the heap has them before it. -/
def written (heap : Links Node) : ListCall Node → List (Option Node)
  | .init list => [some list]
  | .insert list elm => [some list, heap.next list, some elm]
  | .remove elm => [heap.prev elm, some elm, heap.next elm]
  | .insertList list other => [some list, heap.next list, heap.next other, heap.prev other]

end ListCall

def executeAll (heap : Links Node) : List (ListCall Node) → Option (Links Node)
  | [] => some heap
  | call :: rest => (call.execute heap).bind fun after => executeAll after rest

end Functions

section Meaning

variable {Node : Type u}

/-- The elements of every head in use. -/
abbrev Lists (Node : Type u) := Node → Option (List Node)

namespace Lists

/-- The head or element `node` belongs to the list of `head`. -/
def Holds (lists : Lists Node) (head node : Node) : Prop :=
  ∃ elements, lists head = some elements ∧ node ∈ head :: elements

def Unlinked (lists : Lists Node) (node : Node) : Prop :=
  ∀ head, ¬ lists.Holds head node

end Lists

/-- Every head in use heads a ring of its elements, and no two rings share a node. -/
structure WellFormed (heap : Links Node) (lists : Lists Node) : Prop where
  ring : ∀ head elements, lists head = some elements →
    heap.Ring (head :: elements : List Node)
  disjoint : ∀ first second node, lists.Holds first node → lists.Holds second node →
    first = second

namespace WellFormed

variable {heap : Links Node} {lists : Lists Node} {head node : Node} {elements : List Node}
  (wellFormed : WellFormed heap lists)

include wellFormed

/-- The ring of a list as seen from one of its nodes. -/
theorem ring_from (held : lists.Holds head node) :
    ∃ elements before rest, lists head = some elements ∧
      head :: elements = before ++ node :: rest ∧ node ∉ before ∧
      heap.Ring (node :: (rest ++ before) : List Node) := by
  obtain ⟨elements, used, member⟩ := held
  obtain ⟨before, rest, split, absent⟩ := List.eq_append_cons_of_mem member
  refine ⟨elements, before, rest, used, split, absent, ?_⟩
  rw [← Links.Ring.rotate, ← split]
  exact wellFormed.ring head elements used

/-- A node of a list has a next one, in the same list. -/
theorem next_of_holds (held : lists.Holds head node) :
    ∃ following, heap.next node = some following ∧ lists.Holds head following := by
  obtain ⟨elements, before, rest, used, split, -, ring⟩ := wellFormed.ring_from held
  obtain ⟨following, follows⟩ : ∃ following, ((rest ++ before) ++ [node]).head? = some following :=
    Option.isSome_iff_exists.mp (by simp)
  refine ⟨following, ring.next_eq.trans follows, elements, used, ?_⟩
  have member := List.mem_of_mem_head? follows
  rw [split]
  simp only [List.mem_append, List.mem_cons, List.not_mem_nil, or_false] at member ⊢
  tauto

theorem prev_of_holds (held : lists.Holds head node) :
    ∃ preceding, heap.prev node = some preceding := by
  obtain ⟨elements, before, rest, -, -, -, ring⟩ := wellFormed.ring_from held
  rw [ring.prev_eq]
  exact Option.isSome_iff_exists.mp (by simp)

/-- Lists that are given up take nothing from the others. -/
theorem restrict {kept : Lists Node}
    (sub : ∀ head elements, kept head = some elements → lists head = some elements) :
    WellFormed heap kept := by
  refine ⟨fun head elements used => wellFormed.ring head elements (sub head elements used), ?_⟩
  rintro first second node ⟨elements, used, member⟩ ⟨others, usedToo, memberToo⟩
  exact wellFormed.disjoint first second node ⟨elements, sub _ _ used, member⟩
    ⟨others, sub _ _ usedToo, memberToo⟩

/-- A list that is not empty, as a path between the nodes its head points to. -/
theorem path_of_ne_nil (used : lists head = some elements) (occupied : elements ≠ []) :
    elements.IsChain heap.Joined ∧ elements.Nodup ∧
      ∃ first ∈ elements.head?, ∃ last ∈ elements.getLast?,
        heap.next head = some first ∧ heap.prev head = some last ∧ first ≠ head ∧ last ≠ head := by
  have ring := wellFormed.ring head elements used
  obtain ⟨nodup, joined⟩ := Links.Ring.coe_cons.mp ring
  obtain ⟨absent, distinct⟩ := List.nodup_cons.mp nodup
  obtain ⟨first, starts⟩ := Option.isSome_iff_exists.mp (List.isSome_head?.mpr occupied)
  have ends := List.getLast?_eq_some_getLast occupied
  refine ⟨(List.isChain_append.mp (List.isChain_cons.mp joined).2).1, distinct, first, starts, _,
    ends, ?_, ?_, ?_, ?_⟩
  · rw [ring.next_eq, List.head?_append, starts, Option.some_or]
  · rw [ring.prev_eq, List.getLast?_cons, ends, Option.getD_some]
  · intro same
    exact absent (same ▸ List.mem_of_mem_head? starts)
  · intro same
    exact absent (same ▸ List.getLast_mem occupied)

end WellFormed

variable [DecidableEq Node]

/-- `nodes` with `inserted` directly after `position`. -/
def insertAfter (position : Node) (inserted : List Node) : List Node → List Node
  | [] => []
  | node :: rest =>
      if node = position then node :: (inserted ++ rest)
      else node :: insertAfter position inserted rest

/-- The elements of a list with `inserted` put after its head or one of its elements. -/
def placeAfter (position : Node) (inserted : List Node) (head : Node) (elements : List Node) :
    List Node :=
  (insertAfter position inserted (head :: elements)).tail

namespace ListCall

/-- What a call does to the sequences. The other head of a spliced list is given up. -/
def perform (lists : Lists Node) : ListCall Node → Lists Node
  | .init list => Function.update lists list (some [])
  | .insert list elm => fun head => (lists head).map (placeAfter list [elm] head)
  | .remove elm => fun head => (lists head).map (List.erase · elm)
  | .insertList list other => fun head =>
      if head = other then none
      else (lists head).map (placeAfter list ((lists other).getD []) head)

/-- What the interface asks of a caller. -/
def Permitted (lists : Lists Node) : ListCall Node → Prop
  | .init list => lists.Unlinked list
  | .insert list elm => (∃ head, lists.Holds head list) ∧ lists.Unlinked elm
  | .remove elm => ∃ head elements, lists head = some elements ∧ elm ∈ elements
  | .insertList list other =>
      (lists other).isSome ∧ ∃ head, lists.Holds head list ∧ head ≠ other

end ListCall

def performAll (lists : Lists Node) : List (ListCall Node) → Lists Node
  | [] => lists
  | call :: rest => performAll (call.perform lists) rest

def PermittedAll (lists : Lists Node) : List (ListCall Node) → Prop
  | [] => True
  | call :: rest => call.Permitted lists ∧ PermittedAll (call.perform lists) rest

section Sequences

variable {position node head : Node} {inserted before rest elements : List Node}

theorem insertAfter_split (absent : position ∉ before) :
    insertAfter position inserted (before ++ position :: rest) =
      before ++ position :: (inserted ++ rest) := by
  induction before with
  | nil => simp [insertAfter]
  | cons first before ih =>
      obtain ⟨different, absent⟩ := List.ne_and_not_mem_of_not_mem_cons absent
      simp only [List.cons_append, insertAfter, if_neg different.symm, ih absent]

theorem insertAfter_of_not_mem (absent : position ∉ rest) :
    insertAfter position inserted rest = rest := by
  induction rest with
  | nil => rfl
  | cons first rest ih =>
      obtain ⟨different, absent⟩ := List.ne_and_not_mem_of_not_mem_cons absent
      simp only [insertAfter, if_neg different.symm, ih absent]

theorem mem_insertAfter : node ∈ insertAfter position inserted rest ↔
    node ∈ rest ∨ position ∈ rest ∧ node ∈ inserted := by
  induction rest with
  | nil => simp [insertAfter]
  | cons first rest ih =>
      by_cases same : first = position
      · subst same
        simp only [insertAfter, if_true, List.mem_cons, List.mem_append, true_or, true_and]
        tauto
      · simp only [insertAfter, if_neg same, List.mem_cons, ih, Ne.symm same, false_or]
        tauto

/-- The head stays in front. -/
theorem cons_placeAfter : head :: placeAfter position inserted head elements =
    insertAfter position inserted (head :: elements) := by
  by_cases same : head = position <;> simp [placeAfter, insertAfter, same]

theorem placeAfter_of_not_mem (absent : position ∉ head :: elements) :
    placeAfter position inserted head elements = elements := by
  rw [placeAfter, insertAfter_of_not_mem absent, List.tail_cons]

theorem placeAfter_nil : placeAfter position [] head elements = elements := by
  have same : ∀ nodes, insertAfter position [] nodes = nodes := by
    intro nodes
    induction nodes with
    | nil => rfl
    | cons first nodes ih => simp [insertAfter, ih]
  rw [placeAfter, same, List.tail_cons]

end Sequences

variable {heap after : Links Node} {lists : Lists Node} {call : ListCall Node}
  {list elm other head following node : Node} {elements : List Node}

/-- Inserting splices in a path of one node. -/
theorem wlListInsert_spliced (elm : Node) (follows : heap.next list = some following) :
    ∃ after, wlListInsert list elm heap = some after ∧
      Links.Spliced heap after list elm elm following := by
  refine ⟨(((heap.setPrev elm (some list)).setNext elm (some following)).setPrev following
    (some elm)).setNext list (some elm), ?_, ?_, ?_⟩
  · simp [wlListInsert, Links.setNext_next, follows]
  · intro node
    simp only [Links.setNext_next, Links.setPrev_next]
  · intro node
    simp only [Links.setNext_prev, Links.setPrev_prev]

theorem wlListRemove_bridged {preceding : Node} (precedes : heap.prev elm = some preceding)
    (follows : heap.next elm = some following) :
    ∃ after, wlListRemove elm heap = some after ∧
      Links.Bridged heap after preceding elm following := by
  refine ⟨(((heap.setNext preceding (some following)).setPrev following (some preceding)).setNext
    elm none).setPrev elm none, ?_, ?_, ?_⟩
  · simp [wlListRemove, Links.setNext_next, precedes, follows]
  · intro node different
    simp only [Links.setNext_next, Links.setPrev_next, if_neg different]
  · intro node different
    simp only [Links.setNext_prev, Links.setPrev_prev, if_neg different]

theorem wlListInsertList_of_empty (empty : wlListEmpty other heap = true) :
    wlListInsertList list other heap = some heap := by
  simp [wlListInsertList, empty]

/-- Splicing a list that is not empty joins its first and last element to the target. -/
theorem wlListInsertList_spliced {first last : Node}
    (starts : heap.next other = some first) (ends : heap.prev other = some last)
    (follows : heap.next list = some following) (firstOther : first ≠ other)
    (lastOther : last ≠ other) :
    ∃ after, wlListInsertList list other heap = some after ∧
      Links.Spliced heap after list first last following := by
  have occupied : wlListEmpty other heap = false := by
    simp [wlListEmpty, starts, firstOther]
  refine ⟨(((heap.setPrev first (some list)).setNext last (some following)).setPrev following
    (some last)).setNext list (some first), ?_, ?_, ?_⟩
  · simp [wlListInsertList, occupied, starts, ends, follows, Links.setNext_next,
      Links.setPrev_prev, firstOther.symm, lastOther.symm]
  · intro node
    simp only [Links.setNext_next, Links.setPrev_next]
  · intro node
    simp only [Links.setNext_prev, Links.setPrev_prev]

/-- The loop counts the nodes up to the head. -/
theorem lengthLoop_eq {first : Node} {rest : List Node} {fuel : Nat} {count : Int}
    (joined : (first :: (rest ++ [list])).IsChain heap.Joined) (absent : list ∉ rest)
    (enough : rest.length < fuel) (small : count + rest.length ≤ intMax) :
    lengthLoop heap list fuel (heap.next first) count = some (count + rest.length) := by
  induction rest generalizing first fuel count with
  | nil =>
      cases fuel with
      | zero => exact absurd enough (Nat.not_lt_zero _)
      | succ fuel =>
          rw [(List.isChain_cons_cons.mp joined).1.1, lengthLoop, if_pos rfl]
          simp
  | cons second rest ih =>
      cases fuel with
      | zero => exact absurd enough (Nat.not_lt_zero _)
      | succ fuel =>
          obtain ⟨⟨next, -⟩, joined⟩ := List.isChain_cons_cons.mp joined
          obtain ⟨different, absent⟩ := List.ne_and_not_mem_of_not_mem_cons absent
          rw [List.length_cons] at enough small ⊢
          rw [next, lengthLoop, if_neg fun same => different (Option.some.inj same).symm,
            if_neg (by omega), Option.bind_some,
            ih joined absent (Nat.lt_of_succ_lt_succ enough) (by omega)]
          exact congrArg some (by omega)

theorem Lists.holds_placeAfter {inserted : List Node}
    (held : Lists.Holds (fun head => (lists head).map (placeAfter list inserted head)) head node) :
    lists.Holds head node ∨ lists.Holds head list ∧ node ∈ inserted := by
  obtain ⟨elements, used, member⟩ := held
  obtain ⟨original, usedBefore, rfl⟩ := Option.map_eq_some_iff.mp used
  rw [cons_placeAfter, mem_insertAfter] at member
  rcases member with member | ⟨position, member⟩
  · exact .inl ⟨original, usedBefore, member⟩
  · exact .inr ⟨⟨original, usedBefore, position⟩, member⟩

namespace WellFormed

variable (wellFormed : WellFormed heap lists)

include wellFormed

/-- Splicing a path of nodes of no list in after a node of a list. -/
theorem splice {inserted : List Node} {first last : Node} (held : lists.Holds head list)
    (path : inserted.IsChain heap.Joined) (distinct : inserted.Nodup)
    (apart : ∀ head node, lists.Holds head node → node ∉ inserted)
    (starts : inserted.head? = some first) (ends : inserted.getLast? = some last)
    (follows : heap.next list = some following)
    (spliced : Links.Spliced heap after list first last following) :
    WellFormed after (fun head => (lists head).map (placeAfter list inserted head)) := by
  obtain ⟨_, nextIs, followingHeld⟩ := wellFormed.next_of_holds held
  cases Option.some.inj (follows.symm.trans nextIs)
  constructor
  · intro query elements used
    obtain ⟨original, usedBefore, rfl⟩ := Option.map_eq_some_iff.mp used
    by_cases same : query = head
    · subst same
      obtain ⟨_, before, rest, usedToo, split, absent, ring⟩ := wellFormed.ring_from held
      cases Option.some.inj (usedBefore.symm.trans usedToo)
      rw [cons_placeAfter, split, insertAfter_split absent, Links.Ring.rotate, List.append_assoc]
      refine ring.splice path distinct ?_ starts ends follows spliced
      intro node member present
      refine apart query node ⟨original, usedBefore, ?_⟩ member
      rw [split]
      simp only [List.mem_append, List.mem_cons] at present ⊢
      tauto
    · have elsewhere : ∀ {node : Node}, lists.Holds head node → node ∉ query :: original := by
        intro node heldHere member
        exact same (wellFormed.disjoint query head node ⟨original, usedBefore, member⟩ heldHere)
      rw [placeAfter_of_not_mem (elsewhere held)]
      refine (wellFormed.ring query original usedBefore).of_agree ?_
      intro node member
      have heldThere : lists.Holds query node := ⟨original, usedBefore, Cycle.mem_coe_iff.mp member⟩
      have different : ∀ {other : Node}, lists.Holds head other → node ≠ other := by
        intro other heldHere equal
        subst equal
        exact elsewhere heldHere (Cycle.mem_coe_iff.mp member)
      have outside : ∀ {other : Node}, other ∈ inserted → node ≠ other := by
        intro other present equal
        subst equal
        exact apart query node heldThere present
      constructor
      · rw [spliced.next, if_neg (different held), if_neg (outside (List.mem_of_getLast? ends))]
      · rw [spliced.prev, if_neg (different followingHeld),
          if_neg (outside (List.mem_of_mem_head? starts))]
  · intro left right node leftHeld rightHeld
    rcases Lists.holds_placeAfter leftHeld with leftHeld | ⟨leftHeld, leftMember⟩ <;>
      rcases Lists.holds_placeAfter rightHeld with rightHeld | ⟨rightHeld, rightMember⟩
    · exact wellFormed.disjoint left right node leftHeld rightHeld
    · exact absurd rightMember (apart left node leftHeld)
    · exact absurd leftMember (apart right node rightHeld)
    · exact wellFormed.disjoint left right list leftHeld rightHeld

/-- Taking an element out leaves its list without it. -/
theorem bridge {preceding : Node} (used : lists head = some elements) (member : elm ∈ elements)
    (precedes : heap.prev elm = some preceding) (follows : heap.next elm = some following)
    (bridged : Links.Bridged heap after preceding elm following) :
    WellFormed after (fun head => (lists head).map (List.erase · elm)) := by
  have held : lists.Holds head elm := ⟨elements, used, List.mem_cons_of_mem _ member⟩
  obtain ⟨_, before, rest, usedToo, split, absent, ring⟩ := wellFormed.ring_from held
  cases Option.some.inj (used.symm.trans usedToo)
  have nodup := (Links.Ring.coe_cons.mp (wellFormed.ring head elements used)).1
  cases before with
  | nil =>
      cases (List.cons.inj split).1
      exact absurd member (List.nodup_cons.mp nodup).1
  | cons first before =>
      obtain ⟨same, tail⟩ := List.cons.inj split
      subst same
      have erased : elements.erase elm = before ++ rest := by
        rw [tail, List.append_eq,
          List.erase_append_right _ fun inside => absent (List.mem_cons_of_mem _ inside),
          List.erase_cons_head]
      have occupied : rest ++ head :: before ≠ [] := by simp
      have remaining := ring.bridge occupied precedes follows bridged
      have precedingHeld : preceding ∈ elm :: (rest ++ head :: before) :=
        List.mem_of_getLast? (ring.prev_eq.symm.trans precedes)
      have followingHeld : following ∈ (rest ++ head :: before) ++ [elm] :=
        List.mem_of_mem_head? (ring.next_eq.symm.trans follows)
      constructor
      · intro query others usedToo
        obtain ⟨original, usedBefore, rfl⟩ := Option.map_eq_some_iff.mp usedToo
        by_cases same : query = head
        · subst same
          cases Option.some.inj (usedBefore.symm.trans used)
          rw [erased]
          exact Links.Ring.rotate.mp remaining
        · have elsewhere : ∀ {node : Node}, node ∈ head :: elements → node ∉ query :: original := by
            intro node here there
            exact same (wellFormed.disjoint query head node ⟨original, usedBefore, there⟩
              ⟨elements, used, here⟩)
          have unchanged : original.erase elm = original :=
            List.erase_of_not_mem fun inside =>
              elsewhere (List.mem_cons_of_mem _ member) (List.mem_cons_of_mem _ inside)
          rw [unchanged]
          refine (wellFormed.ring query original usedBefore).of_agree ?_
          intro node inside
          have different : ∀ {other : Node}, other ∈ head :: elements → node ≠ other := by
            intro other here equal
            subst equal
            exact elsewhere here (Cycle.mem_coe_iff.mp inside)
          have notElement := different (List.mem_cons_of_mem _ member)
          constructor
          · rw [bridged.next node notElement, if_neg (different ?_)]
            rw [split]
            simp only [List.mem_append, List.mem_cons] at precedingHeld ⊢
            tauto
          · rw [bridged.prev node notElement, if_neg (different ?_)]
            rw [split]
            simp only [List.mem_append, List.mem_cons, List.not_mem_nil, or_false]
              at followingHeld ⊢
            tauto
      · have shrunk : ∀ {query node : Node},
            Lists.Holds (fun head => (lists head).map (List.erase · elm)) query node →
            lists.Holds query node := by
          intro query node ⟨others, usedToo, inside⟩
          obtain ⟨original, usedBefore, rfl⟩ := Option.map_eq_some_iff.mp usedToo
          refine ⟨original, usedBefore, ?_⟩
          rcases List.mem_cons.mp inside with rfl | inside
          · exact List.mem_cons_self
          · exact List.mem_cons_of_mem _ (List.mem_of_mem_erase inside)
        intro left right node leftHeld rightHeld
        exact wellFormed.disjoint left right node (shrunk leftHeld) (shrunk rightHeld)

theorem init (fresh : lists.Unlinked list) :
    WellFormed (wlListInit list heap) (Function.update lists list (some [])) := by
  have other_of_holds : ∀ {query node : Node},
      Lists.Holds (Function.update lists list (some [])) query node →
        query = list ∧ node = list ∨ query ≠ list ∧ lists.Holds query node := by
    intro query node ⟨elements, used, inside⟩
    by_cases same : query = list
    · subst same
      rw [Function.update_self] at used
      cases used
      exact .inl ⟨rfl, List.mem_singleton.mp inside⟩
    · rw [Function.update_of_ne same] at used
      exact .inr ⟨same, elements, used, inside⟩
  constructor
  · intro query elements used
    by_cases same : query = list
    · subst same
      rw [Function.update_self] at used
      cases used
      refine Links.Ring.coe_cons.mpr ⟨List.nodup_singleton _, List.isChain_pair.mpr ⟨?_, ?_⟩⟩
      · simp [wlListInit, Links.setNext_next]
      · simp [wlListInit, Links.setPrev_prev]
    · rw [Function.update_of_ne same] at used
      refine (wellFormed.ring query elements used).of_agree ?_
      intro node inside
      have different : node ≠ list := by
        intro equal
        subst equal
        exact fresh query ⟨elements, used, Cycle.mem_coe_iff.mp inside⟩
      simp [wlListInit, Links.setNext_next, Links.setPrev_prev, different]
  · intro left right node leftHeld rightHeld
    rcases other_of_holds leftHeld with ⟨leftNew, nodeNew⟩ | ⟨-, leftOld⟩ <;>
      rcases other_of_holds rightHeld with ⟨rightNew, nodeNewToo⟩ | ⟨-, rightOld⟩
    · exact leftNew.trans rightNew.symm
    · exact absurd (nodeNew ▸ rightOld) (fresh right)
    · exact absurd (nodeNewToo ▸ leftOld) (fresh left)
    · exact wellFormed.disjoint left right node leftOld rightOld

theorem wlListEmpty_iff (used : lists head = some elements) :
    wlListEmpty head heap = true ↔ elements = [] := by
  have ring := wellFormed.ring head elements used
  have nodup := (Links.Ring.coe_cons.mp ring).1
  rw [wlListEmpty, decide_eq_true_iff, ring.next_eq]
  cases elements with
  | nil => simp
  | cons first elements =>
      have different : first ≠ head := by
        intro same
        subst same
        exact (List.nodup_cons.mp nodup).1 List.mem_cons_self
      simp [different]

end WellFormed

/-- A call has a result, which is what the call means, and which differs from the heap
before it only in nodes the call writes. -/
def Performs (heap : Links Node) (lists : Lists Node) (call : ListCall Node) : Prop :=
  ∃ after, call.execute heap = some after ∧ WellFormed after (call.perform lists) ∧
    ∀ node, some node ∉ call.written heap →
      after.next node = heap.next node ∧ after.prev node = heap.prev node

namespace WellFormed

variable (wellFormed : WellFormed heap lists)

include wellFormed

theorem performs_init (fresh : lists.Unlinked list) : Performs heap lists (.init list) := by
  refine ⟨wlListInit list heap, rfl, wellFormed.init fresh, ?_⟩
  intro node outside
  simp only [ListCall.written, List.mem_singleton, Option.some.injEq] at outside
  simp [wlListInit, Links.setNext_next, Links.setPrev_prev, outside]

theorem performs_insert (held : lists.Holds head list) (unlinked : lists.Unlinked elm) :
    Performs heap lists (.insert list elm) := by
  obtain ⟨following, follows, -⟩ := wellFormed.next_of_holds held
  obtain ⟨after, executed, spliced⟩ := wlListInsert_spliced elm follows
  refine ⟨after, executed, ?_, ?_⟩
  · refine wellFormed.splice held (.singleton elm) (List.nodup_singleton elm) ?_ rfl rfl
      follows spliced
    intro query node holds member
    rw [List.mem_singleton] at member
    subst member
    exact unlinked query holds
  · intro node outside
    simp only [ListCall.written, follows, List.mem_cons, List.not_mem_nil, or_false,
      Option.some.injEq, not_or] at outside
    obtain ⟨notList, notFollowing, notElement⟩ := outside
    rw [spliced.next, spliced.prev, if_neg notList, if_neg notElement, if_neg notFollowing,
      if_neg notElement]
    exact ⟨rfl, rfl⟩

theorem performs_remove (used : lists head = some elements) (member : elm ∈ elements) :
    Performs heap lists (.remove elm) := by
  have held : lists.Holds head elm := ⟨elements, used, List.mem_cons_of_mem _ member⟩
  obtain ⟨following, follows, -⟩ := wellFormed.next_of_holds held
  obtain ⟨preceding, precedes⟩ := wellFormed.prev_of_holds held
  obtain ⟨after, executed, bridged⟩ := wlListRemove_bridged precedes follows
  refine ⟨after, executed, wellFormed.bridge used member precedes follows bridged, ?_⟩
  intro node outside
  simp only [ListCall.written, follows, precedes, List.mem_cons, List.not_mem_nil, or_false,
    Option.some.injEq, not_or] at outside
  obtain ⟨notPreceding, notElement, notFollowing⟩ := outside
  rw [bridged.next node notElement, bridged.prev node notElement, if_neg notPreceding,
    if_neg notFollowing]
  exact ⟨rfl, rfl⟩

theorem performs_insertList {others : List Node} (used : lists other = some others)
    (held : lists.Holds head list) (different : head ≠ other) :
    Performs heap lists (.insertList list other) := by
  have kept : WellFormed heap (fun head => if head = other then none else lists head) := by
    refine wellFormed.restrict ?_
    intro query elements usedToo
    rw [Option.ite_none_left_eq_some] at usedToo
    exact usedToo.2
  have performs : (ListCall.insertList list other).perform lists = fun query =>
      (if query = other then none else lists query).map (placeAfter list others query) := by
    funext query
    by_cases same : query = other <;> simp [ListCall.perform, used, same]
  rw [Performs, performs]
  by_cases empty : others = []
  · subst empty
    refine ⟨heap, wlListInsertList_of_empty ((wellFormed.wlListEmpty_iff used).mpr rfl), ?_,
      fun _ _ => ⟨rfl, rfl⟩⟩
    have unchanged : ∀ query, placeAfter list [] query = id := by
      intro query
      funext elements
      exact placeAfter_nil
    simpa only [unchanged, Option.map_id_fun, id_eq] using kept
  · obtain ⟨path, distinct, first, starts, last, ends, next, prev, firstOther, lastOther⟩ :=
      wellFormed.path_of_ne_nil used empty
    obtain ⟨following, follows, -⟩ := wellFormed.next_of_holds held
    obtain ⟨after, executed, spliced⟩ :=
      wlListInsertList_spliced next prev follows firstOther lastOther
    refine ⟨after, executed, ?_, ?_⟩
    · have heldKept : Lists.Holds (fun head => if head = other then none else lists head)
          head list := by
        obtain ⟨elements, usedToo, member⟩ := held
        exact ⟨elements, by simpa only [if_neg different] using usedToo, member⟩
      refine kept.splice heldKept path distinct ?_ starts ends follows spliced
      intro query node ⟨elements, usedToo, member⟩ present
      rw [Option.ite_none_left_eq_some] at usedToo
      exact usedToo.1 (wellFormed.disjoint query other node ⟨elements, usedToo.2, member⟩
        ⟨others, used, List.mem_cons_of_mem _ present⟩)
    · intro node outside
      simp only [ListCall.written, follows, next, prev, List.mem_cons, List.not_mem_nil,
        or_false, Option.some.injEq, not_or] at outside
      obtain ⟨notList, notFollowing, notFirst, notLast⟩ := outside
      rw [spliced.next, spliced.prev, if_neg notList, if_neg notLast, if_neg notFollowing,
        if_neg notFirst]
      exact ⟨rfl, rfl⟩

theorem performs (permitted : call.Permitted lists) : Performs heap lists call := by
  cases call with
  | init list => exact wellFormed.performs_init permitted
  | insert list elm =>
      obtain ⟨⟨head, held⟩, unlinked⟩ := permitted
      exact wellFormed.performs_insert held unlinked
  | remove elm =>
      obtain ⟨head, elements, used, member⟩ := permitted
      exact wellFormed.performs_remove used member
  | insertList list other =>
      obtain ⟨inUse, head, held, different⟩ := permitted
      obtain ⟨others, used⟩ := Option.isSome_iff_exists.mp inUse
      exact wellFormed.performs_insertList used held different

theorem wlListLength_eq {fuel : Nat} (used : lists head = some elements)
    (enough : elements.length < fuel) (small : elements.length < 2 ^ 31) :
    wlListLength fuel head heap = some (elements.length : Int) := by
  obtain ⟨nodup, joined⟩ := Links.Ring.coe_cons.mp (wellFormed.ring head elements used)
  have bound : (0 : Int) + elements.length ≤ intMax := by
    simp only [intMax]
    omega
  have counted := lengthLoop_eq joined (List.nodup_cons.mp nodup).1 enough bound
  rwa [Int.zero_add] at counted

/-- Every sequence of permitted calls keeps the lists, and their sequences are those of
the calls' meanings; each call on the way changes only nodes it writes. -/
theorem performsAll {calls : List (ListCall Node)} (permitted : PermittedAll lists calls) :
    ∃ after, executeAll heap calls = some after ∧ WellFormed after (performAll lists calls) ∧
      ∀ earlier call later, calls = earlier ++ call :: later →
        ∃ before next, executeAll heap earlier = some before ∧ call.execute before = some next ∧
          WellFormed before (performAll lists earlier) ∧
          ∀ node, some node ∉ call.written before →
            next.next node = before.next node ∧ next.prev node = before.prev node := by
  induction calls generalizing heap lists with
  | nil => exact ⟨heap, rfl, wellFormed, fun earlier _ _ split => by simp at split⟩
  | cons first rest ih =>
      obtain ⟨next, executed, kept, frame⟩ := wellFormed.performs permitted.1
      obtain ⟨after, executedRest, keptRest, frames⟩ := ih kept permitted.2
      refine ⟨after, by rw [executeAll, executed, Option.bind_some, executedRest], keptRest, ?_⟩
      intro earlier call later split
      cases earlier with
      | nil =>
          cases (List.cons.inj split).1
          exact ⟨heap, next, rfl, executed, wellFormed, frame⟩
      | cons head earlier =>
          obtain ⟨same, splitRest⟩ := List.cons.inj split
          subst same
          obtain ⟨before, following, reached, stepped, between, unchanged⟩ :=
            frames earlier call later splitRest
          exact ⟨before, following, by rw [executeAll, executed, Option.bind_some, reached],
            stepped, between, unchanged⟩

end WellFormed

/-- The list functions keep every family of disjoint lists: after any permitted calls
the sequences are those the calls mean, every call on the way changed only nodes it
writes, and `wl_list_empty` and `wl_list_length` tell what the sequences are. -/
theorem wlList_refines (wellFormed : WellFormed heap lists) {calls : List (ListCall Node)}
    (permitted : PermittedAll lists calls) :
    ∃ after, executeAll heap calls = some after ∧ WellFormed after (performAll lists calls) ∧
      (∀ head elements, performAll lists calls head = some elements →
        (wlListEmpty head after = true ↔ elements = []) ∧
        (elements.length < 2 ^ 31 → ∀ fuel, elements.length < fuel →
          wlListLength fuel head after = some (elements.length : Int))) ∧
      ∀ earlier call later, calls = earlier ++ call :: later →
        ∃ before next, executeAll heap earlier = some before ∧ call.execute before = some next ∧
          ∀ node, some node ∉ call.written before →
            next.next node = before.next node ∧ next.prev node = before.prev node := by
  obtain ⟨after, executed, kept, frames⟩ := wellFormed.performsAll permitted
  refine ⟨after, executed, kept, ?_, ?_⟩
  · intro head elements used
    exact ⟨kept.wlListEmpty_iff used,
      fun small fuel enough => kept.wlListLength_eq used enough small⟩
  · intro earlier call later split
    obtain ⟨before, next, reached, stepped, -, unchanged⟩ := frames earlier call later split
    exact ⟨before, next, reached, stepped, unchanged⟩

/-- Two lists are made in zeroed memory, filled and spliced together. -/
theorem wlList_refines_spliced :
    ∃ after, executeAll (⟨fun _ => none, fun _ => none⟩ : Links Nat)
        [.init 0, .insert 0 1, .init 2, .insert 2 3, .insert 3 4, .insertList 0 2] = some after ∧
      wlListLength 9 0 after = some 3 := by
  have wellFormed : WellFormed (⟨fun _ => none, fun _ => none⟩ : Links Nat) (fun _ => none) :=
    ⟨fun _ _ used => by simp at used, fun _ _ _ held => by simp [Lists.Holds] at held⟩
  have permitted : PermittedAll (fun _ => none : Lists Nat)
      [.init 0, .insert 0 1, .init 2, .insert 2 3, .insert 3 4, .insertList 0 2] := by
    refine ⟨?_, ⟨⟨0, [], rfl, by simp⟩, ?_⟩, ?_, ⟨⟨2, [], rfl, by simp⟩, ?_⟩,
      ⟨⟨2, [3], rfl, by simp⟩, ?_⟩, ⟨rfl, 0, ⟨[1], rfl, by simp⟩, by decide⟩, trivial⟩ <;>
    · rintro head ⟨elements, used, member⟩
      simp only [ListCall.perform, Function.update_apply, Option.map_eq_some_iff] at used
      grind [placeAfter, insertAfter]
  obtain ⟨after, executed, -, told, -⟩ := wlList_refines wellFormed permitted
  exact ⟨after, executed, (told 0 [3, 4, 1] rfl).2 (by decide) 9 (by decide)⟩

end Meaning

end X86OnArm.Thunks
