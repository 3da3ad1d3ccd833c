import X86OnArm.Foundation.JsonReading
import X86OnArm.Muvm.ReadRequest

/-! # The readiness request

A launcher probes the VM with one request, a JSON document whose characters outside of visible
ASCII are escaped. So it has no newline of its own, and whatever the program it names, a worker
whose decoder reads JSON gets the request that was sent (`readRequest_ready`). Of the decoder
only this is used (`Serde`); how it takes other documents, or refuses them, is left open.
-/

namespace X86OnArm.Muvm

open Foundation Foundation.JsonText

/-- The style of `json.dumps`. -/
def dumpsStyle : Style where
  escape := asciiEscape
  inside _ := []
  between _ := text " "
  before _ := []
  value := text " "

/-- The dictionary that `ready` dumps. -/
def readyDocument (command : Text) : Json Plain := .object [
  (text "command", .string command),
  (text "command_args", .array []),
  (text "env", .object []),
  (text "vsock_port", .scalar (.number (decimal 0))),
  (text "tty", .scalar (.boolean false)),
  (text "privileged", .scalar (.boolean false))]

def readyText (command : Text) : Text := dumpsStyle.print 0 (readyDocument command)

example : readyText (text "/bin/true") =
    text ("\x7b\"command\": \"/bin/true\", \"command_args\": [], \"env\": \x7b\x7d, " ++
      "\"vsock_port\": 0, \"tty\": false, \"privileged\": false\x7d") := by decide +kernel

/-- The request of `ready`. -/
def readyRequest (command : String) : Launch where
  command := command
  commandArgs := []
  env := []
  vsockPort := 0
  tty := false
  privileged := false

/-- `serde_json::from_str` for requests: a text that is the JSON object of a readiness request's
fields is read as that request. -/
structure Serde where
  fromStr : List Byte → Option Launch
  decodes : ∀ bytes command, isUtf8 bytes = true →
    read? (decodeUtf8 bytes) = some (readyDocument (text command)) →
    fromStr bytes = some (readyRequest command)

private theorem printable_readyDocument (command : String) :
    Printable (readyDocument (text command)) := by
  unfold readyDocument
  apply Printable.object
  · intro entry member
    simp only [List.mem_cons, List.not_mem_nil, or_false] at member
    rcases member with rfl | rfl | rfl | rfl | rfl | rfl
    all_goals exact clean_text _
  · intro entry member
    simp only [List.mem_cons, List.not_mem_nil, or_false] at member
    rcases member with rfl | rfl | rfl | rfl | rfl | rfl
    · exact .string (clean_text command)
    · exact .array fun value inside => absurd inside List.not_mem_nil
    · exact .object (fun entry inside => absurd inside List.not_mem_nil)
        fun entry inside => absurd inside List.not_mem_nil
    · exact printable_decimal _
    · exact .boolean false
    · exact .boolean false

private theorem spaces_blank : Spaces (text " ") := by decide

private theorem visible_blank : ∀ c ∈ text " ", Visible c := by decide

/-- What `json.dumps` escapes and spaces a reader undoes. -/
theorem sound_dumpsStyle : dumpsStyle.Sound where
  escapes := escapes_asciiEscape
  inside _ := fun _ member => absurd member List.not_mem_nil
  between _ := spaces_blank
  before _ := fun _ member => absurd member List.not_mem_nil
  value := spaces_blank

/-- `json.dumps` writes nothing but visible ASCII. -/
theorem writes_dumpsStyle : dumpsStyle.Writes Visible where
  marks := by decide
  words _ := visible_of_word
  escape c _ := visible_asciiEscape c
  inside _ := fun _ member => absurd member List.not_mem_nil
  between _ := visible_blank
  before _ := fun _ member => absurd member List.not_mem_nil
  value := visible_blank

section Bytes

/-- The bytes of visible text. -/
def plainBytes (value : Text) : List Byte := value.map fun c => UInt8.ofNat c.code

private theorem toNat_plainByte {c : CodePoint} (visible : Visible c) :
    (UInt8.ofNat c.code).toNat = c.code := by
  unfold Visible at visible
  exact UInt8.toNat_ofNat_of_lt' (Nat.lt_of_le_of_lt visible.2 (by decide))

/-- Visible text is encoded one byte a character. -/
theorem encodeUtf8_plain {value : Text} (visible : ∀ c ∈ value, Visible c) :
    encodeUtf8 value = some (plainBytes value) := by
  induction value with
  | nil => rfl
  | cons c more ih =>
      have here := visible c List.mem_cons_self
      unfold Visible at here
      have scalar : ¬ c.IsSurrogate := by
        unfold CodePoint.IsSurrogate
        omega
      have single : utf8Bytes c.code = [UInt8.ofNat c.code] := by
        unfold utf8Bytes
        rw [if_pos (by omega)]
      have later := ih fun other member => visible other (List.mem_cons_of_mem _ member)
      rw [encodeUtf8_cons (encodePoint_of_scalar scalar) later, single]
      rfl

/-- Those bytes are read as the text they were made from. -/
theorem decodeUtf8_plain {value : Text} (visible : ∀ c ∈ value, Visible c) :
    decodeUtf8 (plainBytes value) = value := by
  refine decodeUtf8_encodeUtf8 (fun c member => ?_) (encodeUtf8_plain visible)
  have here := visible c member
  unfold Visible at here
  unfold CodePoint.IsSurrogate
  omega

private theorem isUtf8_ascii : ∀ code < 127, isUtf8 [UInt8.ofNat code] = true := by decide +kernel

/-- The bytes of visible text are UTF-8. -/
theorem isUtf8_plain {value : Text} (visible : ∀ c ∈ value, Visible c) :
    isUtf8 (plainBytes value) = true := by
  induction value with
  | nil => decide +kernel
  | cons c more ih =>
      have here := visible c List.mem_cons_self
      have later := ih fun other member => visible other (List.mem_cons_of_mem _ member)
      exact isUtf8_append (isUtf8_ascii c.code (Nat.lt_succ_of_le here.2)) later

/-- Visible text has no newline that could end a line of the request. -/
theorem newline_not_mem_plain {value : Text} (visible : ∀ c ∈ value, Visible c) :
    newline ∉ plainBytes value := by
  intro member
  obtain ⟨c, inValue, same⟩ := List.mem_map.mp member
  have here := visible c inValue
  have code := congrArg UInt8.toNat same
  rw [toNat_plainByte here] at code
  unfold Visible at here
  change c.code = 10 at code
  omega

end Bytes

/-- The bytes that `ready` sends before the terminator. -/
theorem readyText_bytes (serde : Serde) (command : String) :
    encodeUtf8 (readyText (text command)) = some (plainBytes (readyText (text command))) ∧
      newline ∉ plainBytes (readyText (text command)) ∧
      isUtf8 (plainBytes (readyText (text command))) = true ∧
      serde.fromStr (plainBytes (readyText (text command))) = some (readyRequest command) := by
  have printable := printable_readyDocument command
  have visible : ∀ c ∈ readyText (text command), Visible c :=
    writes_dumpsStyle.print printable 0
  have read : read? (readyText (text command)) = some (readyDocument (text command)) := by
    have nothing : Spaces [] := fun _ member => absurd member List.not_mem_nil
    have whole := read?_print sound_dumpsStyle printable 0 nothing nothing
    rwa [List.append_nil, List.nil_append] at whole
  have valid := isUtf8_plain visible
  refine ⟨encodeUtf8_plain visible, newline_not_mem_plain visible, valid, ?_⟩
  apply serde.decodes _ command valid
  rw [decodeUtf8_plain visible]
  exact read

/-- The one member of a name. -/
def field? (document : Json Plain) (name : Text) : Option (Json Plain) :=
  match document.members.filter fun member => member.1 == name with
  | [(_, value)] => some value
  | _ => none

def stringOf (value : Text) : String := String.ofList (value.map fun c => Char.ofNat c.code)

def string? : Json Plain → Option String
  | .string value => some (stringOf value)
  | .scalar _ | .array _ | .object _ => none

def bool? : Json Plain → Option Bool
  | .scalar (.boolean value) => some value
  | _ => none

def port? : Json Plain → Option UInt32
  | .scalar (.number token) =>
      (natural? token).bind fun port => if port < 4294967296 then some (.ofNat port) else none
  | _ => none

def strings? : Json Plain → Option (List String)
  | .array items => items.mapM string?
  | .scalar _ | .string _ | .object _ => none

def stringMembers? : Json Plain → Option (List (String × String))
  | .object members => members.mapM fun member =>
      (string? member.2).map fun value => (stringOf member.1, value)
  | .scalar _ | .string _ | .array _ => none

/-- The request that a document is. -/
def launchOf (document : Json Plain) : Option Launch := do
  let command ← string? (← field? document (text "command"))
  let commandArgs ← strings? (← field? document (text "command_args"))
  let env ← stringMembers? (← field? document (text "env"))
  let vsockPort ← port? (← field? document (text "vsock_port"))
  let tty ← bool? (← field? document (text "tty"))
  let privileged ← bool? (← field? document (text "privileged"))
  return { command, commandArgs, env, vsockPort, tty, privileged }

private theorem stringOf_text (value : String) : stringOf (text value) = value := by
  have each : (fun c : CodePoint => Char.ofNat c.code) ∘ CodePoint.ofChar = id := by
    funext c
    exact Char.ofNat_toNat c
  unfold stringOf text
  rw [List.map_map, each, List.map_id, String.ofList_toList]

private theorem launchOf_readyDocument (command : String) :
    launchOf (readyDocument (text command)) = some (readyRequest command) := by
  have unfolded : launchOf (readyDocument (text command)) =
      (string? (.string (text command))).bind fun command => some (readyRequest command) := rfl
  have read : string? (.string (text command)) = some command :=
    congrArg some (stringOf_text command)
  rw [unfolded, read]
  rfl

/-- A decoder that reads the fields of a request in any order. -/
def fieldSerde : Serde where
  fromStr bytes := (read? (decodeUtf8 bytes)).bind launchOf
  decodes bytes command valid document := by
    rw [document]
    exact launchOf_readyDocument command

end X86OnArm.Muvm
