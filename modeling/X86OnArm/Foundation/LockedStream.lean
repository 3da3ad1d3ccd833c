import Mathlib.Data.List.Basic
import Mathlib.Tactic.Common

/-! # Messages written under a lock

Several writers share one byte stream. Each takes a lock, writes one message in
any number of pieces and releases the lock, and a reader takes bytes in any
number of pieces. The structure carries what the lock gives: what was taken, what
is in flight and what the holder has not written yet are the messages, whole and
in the order in which the lock was taken.
-/

namespace Foundation

universe u v w

structure LockedStream {Message : Type v} {Cell : Type w} (Writer : Type u)
    (encode : Message → List Cell) where
  /-- The messages whose writers have taken the lock. -/
  sent : List Message
  holder : Option Writer
  unwritten : List Cell
  inFlight : List Cell
  taken : List Cell
  idle : holder = none → unwritten = []
  whole : taken ++ (inFlight ++ unwritten) = sent.flatMap encode

namespace LockedStream

variable {Writer : Type u} {Message : Type v} {Cell : Type w} {encode : Message → List Cell}

def empty : LockedStream Writer encode where
  sent := []
  holder := none
  unwritten := []
  inFlight := []
  taken := []
  idle _ := rfl
  whole := rfl

/-- Take the lock to write a message. -/
def acquire (stream : LockedStream Writer encode) (writer : Writer) (message : Message) :
    Option (LockedStream Writer encode) :=
  match free : stream.holder with
  | some _ => none
  | none => some
    { stream with
      sent := stream.sent ++ [message]
      holder := some writer
      unwritten := encode message
      idle := nofun
      whole := by
        have whole := stream.whole
        rw [stream.idle free, List.append_nil] at whole
        rw [List.flatMap_append, List.flatMap_singleton, ← whole, List.append_assoc] }

/-- The holder writes a piece of its message. -/
def write (stream : LockedStream Writer encode) (count : Nat) :
    Option (LockedStream Writer encode) :=
  if 0 < count ∧ count ≤ stream.unwritten.length then some
    { stream with
      inFlight := stream.inFlight ++ stream.unwritten.take count
      unwritten := stream.unwritten.drop count
      idle := fun free => by rw [stream.idle free, List.drop_nil]
      whole := by
        rw [← stream.whole, List.append_assoc, List.take_append_drop] }
  else none

def release (stream : LockedStream Writer encode) : Option (LockedStream Writer encode) :=
  if done : stream.unwritten = [] then some { stream with holder := none, idle := fun _ => done }
  else none

/-- The reader takes a piece of what is in flight. -/
def take (stream : LockedStream Writer encode) (count : Nat) : LockedStream Writer encode :=
  { stream with
    inFlight := stream.inFlight.drop count
    taken := stream.taken ++ stream.inFlight.take count
    whole := by
      rw [← stream.whole, List.append_assoc, ← List.append_assoc (stream.inFlight.take count),
        List.take_append_drop] }

/-- What the reader has still to see. -/
def incoming (stream : LockedStream Writer encode) : List Cell :=
  stream.inFlight ++ stream.unwritten

theorem acquire_eq_some {stream after : LockedStream Writer encode} {writer : Writer}
    {message : Message} (acquired : stream.acquire writer message = some after) :
    stream.holder = none ∧ after.sent = stream.sent ++ [message] ∧ after.holder = some writer ∧
      after.taken = stream.taken ∧ after.incoming = stream.incoming ++ encode message := by
  unfold acquire at acquired
  split at acquired
  · cases acquired
  case h_2 free =>
    cases acquired
    refine ⟨free, rfl, rfl, rfl, ?_⟩
    rw [incoming, incoming, stream.idle free, List.append_nil]

theorem write_eq_some {stream after : LockedStream Writer encode} {count : Nat}
    (written : stream.write count = some after) :
    after.sent = stream.sent ∧ after.holder = stream.holder ∧ after.taken = stream.taken ∧
      after.incoming = stream.incoming := by
  unfold write at written
  split_ifs at written with piece
  cases written
  refine ⟨rfl, rfl, rfl, ?_⟩
  rw [incoming, incoming, List.append_assoc, List.take_append_drop]

theorem release_eq_some {stream after : LockedStream Writer encode}
    (released : stream.release = some after) :
    after.sent = stream.sent ∧ after.holder = none ∧ after.taken = stream.taken ∧
      after.incoming = stream.incoming := by
  unfold release at released
  split_ifs at released with done
  cases released
  exact ⟨rfl, rfl, rfl, rfl⟩

theorem take_incoming (stream : LockedStream Writer encode) (count : Nat) :
    stream.inFlight.take count ++ (stream.take count).incoming = stream.incoming := by
  rw [incoming, incoming, ← List.append_assoc]
  exact congrArg (· ++ stream.unwritten) (List.take_append_drop count stream.inFlight)

/-- What was taken and what is incoming are the messages, whole and in order. -/
theorem taken_append_incoming (stream : LockedStream Writer encode) :
    stream.taken ++ stream.incoming = stream.sent.flatMap encode :=
  stream.whole

end LockedStream

end Foundation
