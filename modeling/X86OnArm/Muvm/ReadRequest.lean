import X86OnArm.Foundation.LineReader
import X86OnArm.Muvm.Command
import Mathlib.Data.List.Infix
import Mathlib.Tactic.Common

/-! # Request framing

A client sends a request as one JSON document and the bytes of `"\nEOM\n"`, and
keeps the connection. `read_request` reads lines until its buffer ends with the
terminator. The main result is `readRequest_encode`.
-/

namespace X86OnArm.Muvm

open Foundation

structure Launch where
  command : String
  commandArgs : List String
  env : List (String × String)
  vsockPort : UInt32
  tty : Bool
  privileged : Bool
  deriving DecidableEq

def newline : Byte := 10

/-- The bytes of `"\nEOM\n"`. -/
def terminator : List Byte := [newline, 69, 79, 77, newline]

inductive ReadError where
  | unexpectedEof
  /-- `read_line` met bytes that are not UTF-8. -/
  | invalidData
  /-- `serde_json::from_str` failed. -/
  | json
  deriving DecidableEq

def isUtf8 (bytes : List Byte) : Bool := bytes.toByteArray.validateUTF8

/-- `read_request`, with the lines read so far in `buf`; `decode` is
`serde_json::from_str`. -/
def readRequest (decode : List Byte → Option Launch) (buf : List Byte) (stream : Reader Byte) :
    Except ReadError (Launch × Reader Byte) :=
  let line := (stream.readLine newline).1
  let rest := (stream.readLine newline).2
  let buf := buf ++ line
  if isUtf8 buf = false then .error .invalidData
  else if _ended : line = [] then .error .unexpectedEof
  else if terminator <:+ buf then
    match decode (buf.take (buf.length - 5)) with
    | some launch => .ok (launch, rest)
    | none => .error .json
  else readRequest decode buf rest
termination_by stream.remaining.length
decreasing_by
  have whole := congrArg List.length (stream.readLine_append newline)
  rw [List.length_append] at whole
  have consumed : 0 < (stream.readLine newline).1.length := List.length_pos_iff.mpr _ended
  omega

theorem isUtf8_append {first second : List Byte} (valid : isUtf8 first = true)
    (validSecond : isUtf8 second = true) : isUtf8 (first ++ second) = true := by
  unfold isUtf8 at *
  rw [ByteArray.validateUTF8_eq_true_iff] at *
  rw [List.toByteArray_append]
  exact valid.append validSecond

section Lines

variable {decode : List Byte → Option Launch} {buf line rest : List Byte} {stream : Reader Byte}

/-- A line that does not complete the terminator. -/
theorem readRequest_line (buf : List Byte) (clean : newline ∉ line)
    (received : stream.remaining = line ++ newline :: rest)
    (valid : isUtf8 (buf ++ (line ++ [newline])) = true)
    (incomplete : ¬ terminator <:+ buf ++ (line ++ [newline])) :
    ∃ next, next.remaining = rest ∧
      readRequest decode buf stream = readRequest decode (buf ++ (line ++ [newline])) next := by
  obtain ⟨read, left⟩ := Reader.readLine_line clean received
  refine ⟨_, left, ?_⟩
  rw [readRequest]
  simp only [read, valid, Bool.true_eq_false, ↓reduceIte, List.append_eq_nil_iff,
    List.cons_ne_self, and_false, ↓reduceDIte, incomplete]

/-- The line that completes the terminator. -/
theorem readRequest_terminator {document : List Byte} {launch : Launch} (clean : newline ∉ line)
    (received : stream.remaining = line ++ newline :: rest)
    (valid : isUtf8 (buf ++ (line ++ [newline])) = true)
    (complete : buf ++ (line ++ [newline]) = document ++ terminator)
    (decoded : decode document = some launch) :
    ∃ next, next.remaining = rest ∧ readRequest decode buf stream = .ok (launch, next) := by
  obtain ⟨read, left⟩ := Reader.readLine_line clean received
  refine ⟨_, left, ?_⟩
  have length : (document ++ terminator).length - 5 = document.length := by
    rw [List.length_append]
    exact Nat.add_sub_cancel ..
  rw [complete] at valid
  rw [readRequest]
  simp only [read, complete, valid, Bool.true_eq_false, ↓reduceIte, List.append_eq_nil_iff,
    List.cons_ne_self, and_false, ↓reduceDIte, List.suffix_append, length, List.take_left, decoded]

/-- Failing before the document is looked at. -/
def Unfinished (result : Except ReadError (Launch × Reader Byte)) : Prop :=
  result = .error .unexpectedEof ∨ result = .error .invalidData

theorem readRequest_nothing (empty : stream.remaining = []) :
    Unfinished (readRequest decode buf stream) := by
  have absent : newline ∉ stream.remaining := by
    rw [empty]
    exact List.not_mem_nil
  obtain ⟨read, _⟩ := Reader.readLine_end absent
  rw [empty] at read
  rw [readRequest]
  simp only [read, ↓reduceDIte]
  split_ifs
  · exact .inr rfl
  · exact .inl rfl

/-- The stream ends inside a line. -/
theorem readRequest_partial (clean : newline ∉ stream.remaining) :
    Unfinished (readRequest decode buf stream) := by
  by_cases empty : stream.remaining = []
  · exact readRequest_nothing empty
  obtain ⟨read, left⟩ := Reader.readLine_end clean
  have unterminated : ¬ terminator <:+ buf ++ stream.remaining := by
    rintro ⟨before, same⟩
    have nonempty : terminator ≠ [] := nofun
    have last := congrArg List.getLast? same
    rw [List.getLast?_append_of_ne_nil _ empty,
      List.getLast?_append_of_ne_nil _ nonempty] at last
    exact clean (List.mem_of_getLast? last.symm)
  rw [readRequest]
  simp only [read, empty, unterminated, ↓reduceIte, ↓reduceDIte]
  split_ifs
  · exact .inr rfl
  · exact readRequest_nothing left

end Lines

/-- A document without a raw newline does not end with the terminator. -/
theorem unterminated_document {document : List Byte} (clean : newline ∉ document) :
    ¬ terminator <:+ document ++ [newline] := by
  rintro ⟨before, same⟩
  have split : before ++ [newline, 69, 79, 77] = document := by
    refine List.append_cancel_right (?_ : _ ++ [newline] = document ++ [newline])
    rw [← same, List.append_assoc]
    rfl
  exact clean (split ▸ List.mem_append_right _ List.mem_cons_self)

/-- A proper prefix of the terminator's second line has no newline. -/
theorem newline_not_mem_of_proper {first second : List Byte}
    (same : first ++ second = [69, 79, 77, newline]) (proper : second ≠ []) : newline ∉ first := by
  have short : first.length ≤ 3 := by
    have length := congrArg List.length same
    have positive := List.length_pos_iff.mpr proper
    rw [List.length_append] at length
    change first.length + second.length = 4 at length
    omega
  have within : first <+: [69, 79, 77] :=
    List.prefix_of_prefix_length_le ⟨second, same⟩ ⟨[newline], rfl⟩ short
  intro member
  have absent : newline ∉ [(69 : Byte), 79, 77] := by decide
  exact absent (within.subset member)

/-- **Request framing.** However the stream is cut, `read_request` returns the request
whose document was sent and leaves what follows the terminator; before the
terminator is complete it never looks at the document. -/
theorem readRequest_encode (encode : Launch → List Byte) (decode : List Byte → Option Launch)
    (launch : Launch) (clean : newline ∉ encode launch) (valid : isUtf8 (encode launch) = true)
    (inverse : decode (encode launch) = some launch) :
    (∀ fragments after, fragments.flatten = encode launch ++ terminator ++ after →
      ∃ next, readRequest decode [] ⟨[], fragments⟩ = .ok (launch, next) ∧
        next.remaining = after) ∧
    (∀ fragments, fragments.flatten <+: encode launch ++ terminator →
      fragments.flatten ≠ encode launch ++ terminator →
      Unfinished (readRequest decode [] ⟨[], fragments⟩)) := by
  have lineValid : isUtf8 (encode launch ++ [newline]) = true :=
    isUtf8_append valid (by decide +kernel)
  have incomplete := unterminated_document clean
  refine ⟨fun fragments after stream => ?_, fun fragments ⟨missing, same⟩ partly => ?_⟩
  · have received : (Reader.mk [] fragments).remaining =
        encode launch ++ newline :: ([69, 79, 77] ++ newline :: after) :=
      stream.trans (List.append_assoc ..)
    obtain ⟨middle, left, read⟩ :=
      readRequest_line [] clean received lineValid incomplete
    have terminatorClean : newline ∉ [(69 : Byte), 79, 77] := by decide
    have wholeValid : isUtf8 (encode launch ++ [newline] ++ ([69, 79, 77] ++ [newline])) = true :=
      isUtf8_append lineValid (by decide +kernel)
    have complete : encode launch ++ [newline] ++ ([69, 79, 77] ++ [newline]) =
        encode launch ++ terminator := List.append_assoc ..
    obtain ⟨next, rest, done⟩ :=
      readRequest_terminator terminatorClean left wholeValid complete inverse
    exact ⟨next, read.trans done, rest⟩
  · by_cases whole : newline ∈ fragments.flatten
    · rcases List.append_eq_append_iff.mp same with
        ⟨rest, document, _⟩ | ⟨rest, document, trailer⟩
      · exact absurd (document ▸ List.mem_append_left _ whole) clean
      · cases rest with
        | nil =>
            rw [document, List.append_nil] at whole
            exact absurd whole clean
        | cons first later =>
            obtain ⟨rfl, proper⟩ := List.cons.inj trailer
            have received :
                (Reader.mk [] fragments).remaining = encode launch ++ newline :: later :=
              document
            obtain ⟨middle, left, read⟩ :=
              readRequest_line [] clean received lineValid incomplete
            rw [read]
            apply readRequest_partial
            rw [left]
            refine newline_not_mem_of_proper proper.symm ?_
            rintro rfl
            exact partly ((List.append_nil _).symm.trans same)
    · exact readRequest_partial whole

def sampleLaunch : Launch where
  command := "/bin/true"
  commandArgs := ["EOM\n"]
  env := []
  vsockPort := 0
  tty := false
  privileged := false

/-- The request's document as `json.dumps` writes it. -/
def sampleDocument : List Byte :=
  ("\x7b\"command\": \"/bin/true\", \"command_args\": [\"EOM\\n\"], \"env\": \x7b\x7d, " ++
    "\"vsock_port\": 0, \"tty\": false, \"privileged\": false\x7d").toUTF8.toList

theorem readRequest_encode_sample :
    ∃ next, readRequest
        (fun document => if document = sampleDocument then some sampleLaunch else none)
        [] ⟨[], [sampleDocument ++ [newline, 69], [79, 77, newline, 1]]⟩ =
          .ok (sampleLaunch, next) ∧
      next.remaining = [1] :=
  (readRequest_encode (fun _ => sampleDocument)
    (fun document => if document = sampleDocument then some sampleLaunch else none) sampleLaunch
    (by decide +kernel) (by decide +kernel) (if_pos rfl)).1 _ [1] (by decide +kernel)

end X86OnArm.Muvm
