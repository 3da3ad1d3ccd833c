import X86OnArm.Foundation.Encoding
import X86OnArm.Runtime.Execute
import Mathlib.Data.FinEnum

/-! # The bytes of the private script

The launcher decodes its arguments, environment and working directory as its locale
does, and `private_script` encodes the script as UTF-8. Quoting commutes with that
encoding, so the script's bytes are the script of the strings UTF-8 makes of the
decoded ones, and these are the strings the launcher was started with exactly when
the locale keeps them (`privateScript_exact_iff`).
-/

namespace X86OnArm.Runtime

open Foundation Foundation.Shell

/-- The bytes `private_script` writes. -/
def PrivateScript.bytes (script : PrivateScript) : Option (List UInt8) :=
  encodeUtf8 script.contents

/-- The bytes of ASCII text. -/
def ascii (value : Text) : List UInt8 := value.map fun c => UInt8.ofNat c.code

/-- `shlex.quote` on bytes. -/
def quoteBytes (value : List UInt8) : List UInt8 :=
  if value = [] then ascii (text "''")
  else if ∀ byte ∈ value, byte ∈ ascii safe then value
  else ascii (text "'") ++
    value.flatMap (fun byte => if byte = 39 then ascii (text "'\"'\"'") else [byte]) ++
    ascii (text "'")

/-- The strings of a script, as bytes. -/
structure ScriptStrings where
  program : List UInt8
  argv0 : List UInt8
  arguments : List (List UInt8)
  environment : List (List UInt8 × List UInt8)
  cwd : List UInt8

/-- `command_script` on bytes. -/
def ScriptStrings.script (strings : ScriptStrings) (bridge : Bool) : List UInt8 :=
  let words := strings.environment.map (fun entry => entry.1 ++ ascii (text "=") ++ entry.2) ++
    ((target []).dropLast.map ascii ++ [strings.argv0]) ++ strings.program :: strings.arguments
  ascii (text "set -eu\ncd -- ") ++ quoteBytes strings.cwd ++ ascii (text "\nexec ") ++
    ascii (Shell.join [text "/usr/bin/env", text "-i", text "--"]) ++ ascii (text " ") ++
    ascii (if bridge then List.intercalate (text " ") (bridgedKeys.map bridgedOperand) else []) ++
    ascii (text " ") ++ List.intercalate (ascii (text " ")) (words.map quoteBytes) ++
    ascii (text "\n")

/-- What a string of a launch is put together from: text of the launcher's own, and byte
strings it received from the kernel. -/
inductive Piece where
  | own (value : Text)
  | received (bytes : List UInt8)
  deriving DecidableEq

/-- What the script holds of a received string. -/
def rewritten (encoding : LocaleEncoding) (bytes : List UInt8) : List UInt8 :=
  (encodeUtf8 (encoding.decode bytes)).getD []

/-- A piece as the launcher sees it. -/
def Piece.seen (encoding : LocaleEncoding) : Piece → Text
  | .own value => value
  | .received bytes => encoding.decode bytes

/-- A piece as the script holds it. -/
def Piece.written (encoding : LocaleEncoding) : Piece → List UInt8
  | .own value => (encodeUtf8 value).getD []
  | .received bytes => rewritten encoding bytes

def seen (encoding : LocaleEncoding) (pieces : List Piece) : Text :=
  pieces.flatMap (Piece.seen encoding)

def written (encoding : LocaleEncoding) (pieces : List Piece) : List UInt8 :=
  pieces.flatMap (Piece.written encoding)

/-- The strings of a launch, each with the pieces it is put together from. -/
structure LaunchStrings where
  program : List Piece
  argv0 : List Piece
  arguments : List (List Piece)
  environment : List (List Piece × List Piece)
  cwd : List Piece

namespace LaunchStrings

def pieces (launch : LaunchStrings) : List Piece :=
  launch.program ++ launch.argv0 ++ launch.arguments.flatten ++
    launch.environment.flatMap (fun entry => entry.1 ++ entry.2) ++ launch.cwd

def written (launch : LaunchStrings) (encoding : LocaleEncoding) : ScriptStrings where
  program := Runtime.written encoding launch.program
  argv0 := Runtime.written encoding launch.argv0
  arguments := launch.arguments.map (Runtime.written encoding)
  environment := launch.environment.map fun entry =>
    (Runtime.written encoding entry.1, Runtime.written encoding entry.2)
  cwd := Runtime.written encoding launch.cwd

/-- The private script of the launch, with its environment as a dictionary. -/
def script (launch : LaunchStrings) (encoding : LocaleEncoding) (path : Text)
    (environment : Dict Text Text) (bridge : Bool) : PrivateScript :=
  privateScript path (commandScript (seen encoding launch.program) (seen encoding launch.argv0)
    (launch.arguments.map (seen encoding)) environment (seen encoding launch.cwd) bridge)

/-- The launcher's own text has a UTF-8 form. -/
def Proper (launch : LaunchStrings) : Prop :=
  ∀ value, .own value ∈ launch.pieces → (encodeUtf8 value).isSome

/-- Every string the launch received is in the script byte for byte. -/
def Exact (launch : LaunchStrings) (encoding : LocaleEncoding) : Prop :=
  ∀ bytes, .received bytes ∈ launch.pieces → rewritten encoding bytes = bytes

end LaunchStrings

/-- The UTF-8 form of a text. -/
def Encodes (value : Text) (bytes : List UInt8) : Prop := encodeUtf8 value = some bytes

theorem utf8Bytes_high {code : Nat} (bounded : code < 1114112) (high : 0x80 ≤ code) :
    ∀ byte ∈ utf8Bytes code, 0x80 ≤ byte.toNat := by
  have large {number : Nat} (low : 0x80 ≤ number) (small : number < 256) :
      0x80 ≤ (UInt8.ofNat number).toNat := by
    rwa [UInt8.toNat_ofNat_of_lt' small]
  unfold utf8Bytes
  rw [if_neg (Nat.not_lt_of_le high)]
  intro byte member
  split_ifs at member with two three
  all_goals
    simp only [List.mem_cons, List.not_mem_nil, or_false] at member
    rcases member with rfl | rfl | rfl | rfl <;> exact large (by omega) (by omega)

/-- An ASCII character is one byte, and any other code point has no ASCII byte. -/
theorem encodePoint_bytes {c : CodePoint} {bytes : List UInt8}
    (encoded : encodePoint c = some bytes) :
    (c.code < 0x80 ∧ bytes = [UInt8.ofNat c.code]) ∨
      (0x80 ≤ c.code ∧ bytes ≠ [] ∧ ∀ byte ∈ bytes, 0x80 ≤ byte.toNat) := by
  unfold encodePoint at encoded
  split_ifs at encoded with escaped surrogate
  · cases encoded
    refine .inr ⟨by omega, List.cons_ne_nil _ _, ?_⟩
    intro byte member
    have small : c.code - 0xDC00 < 256 := by omega
    rw [List.mem_singleton.mp member, UInt8.toNat_ofNat_of_lt' small]
    omega
  · cases encoded
    by_cases low : c.code < 0x80
    · refine .inl ⟨low, ?_⟩
      unfold utf8Bytes
      rw [if_pos low]
    · have high := Nat.le_of_not_lt low
      exact .inr ⟨high, utf8Bytes_ne_nil _, utf8Bytes_high c.bounded high⟩

namespace Encodes

variable {first second : Text} {front back : List UInt8}

theorem nil : Encodes [] [] := rfl

theorem cons_iff {c : CodePoint} {rest : Text} {bytes : List UInt8} :
    Encodes (c :: rest) bytes ↔
      ∃ front back, encodePoint c = some front ∧ Encodes rest back ∧ bytes = front ++ back := by
  unfold Encodes
  constructor
  · intro encoded
    unfold encodeUtf8 at encoded
    cases head : encodePoint c with
    | none =>
        rw [head] at encoded
        cases encoded
    | some front =>
        cases tail : encodeUtf8 rest with
        | none =>
            rw [head, tail] at encoded
            cases encoded
        | some back =>
            rw [head, tail] at encoded
            cases encoded
            exact ⟨front, back, rfl, rfl, rfl⟩
  · rintro ⟨front, back, head, tail, rfl⟩
    exact encodeUtf8_cons head tail

theorem append (one : Encodes first front) (other : Encodes second back) :
    Encodes (first ++ second) (front ++ back) := by
  induction first generalizing front with
  | nil =>
      cases one
      exact other
  | cons c rest ih =>
      obtain ⟨head, tail, encoded, others, rfl⟩ := cons_iff.mp one
      rw [List.append_assoc]
      exact cons_iff.mpr ⟨head, _, encoded, ih others, rfl⟩

theorem of_ascii {value : Text} (plain : ∀ c ∈ value, c.code < 0x80) :
    Encodes value (ascii value) := by
  induction value with
  | nil => rfl
  | cons c rest ih =>
      have low := plain c List.mem_cons_self
      have scalar : ¬ c.IsSurrogate := by
        unfold CodePoint.IsSurrogate
        omega
      have single : encodePoint c = some [UInt8.ofNat c.code] := by
        rw [encodePoint_of_scalar scalar]
        unfold utf8Bytes
        rw [if_pos low]
      exact encodeUtf8_cons single (ih fun other member =>
        plain other (List.mem_cons_of_mem _ member))

theorem eq_nil_iff (one : Encodes first front) : first = [] ↔ front = [] := by
  cases first with
  | nil =>
      cases one
      exact ⟨fun _ => rfl, fun _ => rfl⟩
  | cons c rest =>
      obtain ⟨head, tail, encoded, -, rfl⟩ := cons_iff.mp one
      have nonempty : head ≠ [] := by
        rcases encodePoint_bytes encoded with ⟨-, rfl⟩ | ⟨-, nonempty, -⟩
        · exact List.cons_ne_nil _ _
        · exact nonempty
      constructor
      · intro empty
        cases empty
      · intro empty
        exact absurd (List.append_eq_nil_iff.mp empty).1 nonempty

/-- A character is safe to leave bare when its bytes are. -/
theorem mem_safe_iff {c : CodePoint} {bytes : List UInt8} (encoded : encodePoint c = some bytes) :
    c ∈ safe ↔ ∀ byte ∈ bytes, byte ∈ ascii safe := by
  have plain : ∀ c ∈ safe, c.code < 0x80 := by decide +kernel
  rcases encodePoint_bytes encoded with ⟨low, rfl⟩ | ⟨high, nonempty, large⟩
  · simp only [List.mem_singleton, forall_eq]
    constructor
    · exact fun member => List.mem_map_of_mem member
    · intro member
      obtain ⟨other, safe, same⟩ := List.mem_map.mp member
      have codes := congrArg UInt8.toNat same
      have small := plain other safe
      rw [UInt8.toNat_ofNat_of_lt' (Nat.lt_trans small (by decide)),
        UInt8.toNat_ofNat_of_lt' (Nat.lt_trans low (by decide))] at codes
      exact CodePoint.ext codes ▸ safe
  · constructor
    · exact fun member => absurd (plain c member) (Nat.not_lt_of_le high)
    · intro bare
      obtain ⟨byte, member⟩ := List.exists_mem_of_ne_nil _ nonempty
      have small : (ascii safe).all (fun byte => decide (byte.toNat < 0x80)) := by decide +kernel
      have low := of_decide_eq_true (List.all_eq_true.mp small byte (bare byte member))
      exact absurd low (Nat.not_lt_of_le (large byte member))

theorem bare_iff (one : Encodes first front) :
    (∀ c ∈ first, c ∈ safe) ↔ ∀ byte ∈ front, byte ∈ ascii safe := by
  induction first generalizing front with
  | nil =>
      cases one
      simp only [List.not_mem_nil, false_imp_iff, implies_true]
  | cons c rest ih =>
      obtain ⟨head, tail, encoded, others, rfl⟩ := cons_iff.mp one
      rw [List.forall_mem_cons, List.forall_mem_append, mem_safe_iff encoded, ih others]

/-- Only the quote has the byte of the quote. -/
theorem not_quote {c : CodePoint} {bytes : List UInt8} (encoded : encodePoint c = some bytes)
    (other : c ≠ ('\'' : CodePoint)) : ∀ byte ∈ bytes, byte ≠ 39 := by
  rcases encodePoint_bytes encoded with ⟨low, rfl⟩ | ⟨-, -, large⟩
  · intro byte member same
    rw [List.mem_singleton.mp member] at same
    have codes := congrArg UInt8.toNat same
    rw [UInt8.toNat_ofNat_of_lt' (Nat.lt_trans low (by decide))] at codes
    exact other (CodePoint.ext codes)
  · rintro byte member rfl
    exact absurd (large 39 member) (by decide)

theorem escapeQuotes (one : Encodes first front) :
    Encodes (Shell.escapeQuotes first)
      (front.flatMap fun byte => if byte = 39 then ascii (text "'\"'\"'") else [byte]) := by
  induction first generalizing front with
  | nil =>
      cases one
      rfl
  | cons c rest ih =>
      obtain ⟨head, tail, encoded, others, rfl⟩ := cons_iff.mp one
      rw [List.flatMap_append]
      refine append ?_ (ih others)
      by_cases isQuote : c = ('\'' : CodePoint)
      · subst isQuote
        have single : encodePoint ('\'' : CodePoint) = some [39] := rfl
        cases single.symm.trans encoded
        exact of_ascii (by decide)
      · have kept : head.flatMap (fun byte =>
            if byte = 39 then ascii (text "'\"'\"'") else [byte]) = head := by
          have plain := not_quote encoded isQuote
          rw [List.flatMap_congr fun byte member => if_neg (plain byte member)]
          exact List.flatMap_singleton' head
        simp only [if_neg isQuote]
        rw [kept]
        exact cons_iff.mpr ⟨head, [], encoded, nil, (List.append_nil head).symm⟩

/-- Quoting commutes with encoding. -/
theorem quote (one : Encodes first front) : Encodes (Shell.quote first) (quoteBytes front) := by
  unfold Shell.quote quoteBytes
  by_cases empty : first = []
  · rw [if_pos empty, if_pos (one.eq_nil_iff.mp empty)]
    exact of_ascii (by decide)
  · rw [if_neg empty, if_neg (mt one.eq_nil_iff.mpr empty)]
    by_cases bare : ∀ c ∈ first, c ∈ safe
    · rw [if_pos bare, if_pos (one.bare_iff.mp bare)]
      exact one
    · rw [if_neg bare, if_neg (mt one.bare_iff.mpr bare)]
      exact ((of_ascii (by decide)).append one.escapeQuotes).append (of_ascii (by decide))

/-- Words that encode one by one encode when they are joined by spaces. -/
theorem intercalate {texts : List Text} {forms : List (List UInt8)}
    (each : List.Forall₂ Encodes texts forms) :
    Encodes (List.intercalate (text " ") texts) (List.intercalate (ascii (text " ")) forms) := by
  induction each with
  | nil => rfl
  | @cons first form rest others one each ih =>
      cases each with
      | nil => simpa [List.intercalate] using one
      | @cons second next rest others other each =>
          have space : Encodes (text " ") (ascii (text " ")) := of_ascii (by decide)
          have joined := one.append (space.append ih)
          simpa [List.intercalate] using joined

theorem join {values : List Text} {forms : List (List UInt8)}
    (each : List.Forall₂ Encodes values forms) :
    Encodes (Shell.join values) (List.intercalate (ascii (text " ")) (forms.map quoteBytes)) := by
  apply intercalate
  rw [List.forall₂_map_left_iff, List.forall₂_map_right_iff]
  exact each.imp fun _ _ one => one.quote

end Encodes

section Pieces

variable {encoding : LocaleEncoding}

theorem encodes_getD {value : Text} (some : (encodeUtf8 value).isSome) :
    Encodes value ((encodeUtf8 value).getD []) := by
  obtain ⟨bytes, form⟩ := Option.isSome_iff_exists.mp some
  unfold Encodes
  rw [form, Option.getD_some]

/-- Every received string has a UTF-8 form, if not its own. -/
theorem encodes_rewritten (encoding : LocaleEncoding) (bytes : List UInt8) :
    Encodes (encoding.decode bytes) (rewritten encoding bytes) := by
  have some : (encodeUtf8 (encoding.decode bytes)).isSome := by
    cases encoding with
    | utf8 =>
        change (encodeUtf8 (decodeUtf8 bytes)).isSome
        rw [encodeUtf8_decodeUtf8]
        rfl
    | singleByte charset =>
        rw [encodeUtf8_decode_singleByte]
        rfl
  exact encodes_getD some

theorem rewritten_eq_iff {bytes : List UInt8} :
    rewritten encoding bytes = bytes ↔ encoding.Keeps bytes := by
  have form : encodeUtf8 (encoding.decode bytes) = some (rewritten encoding bytes) :=
    encodes_rewritten encoding bytes
  rw [← encodeUtf8_decode, form, Option.some.injEq]

/-- An ASCII locale loses nothing. -/
theorem rewritten_ascii (bytes : List UInt8) : rewritten (.singleByte .ascii) bytes = bytes :=
  rewritten_eq_iff.mpr (ascii_keeps bytes)

theorem encodes_seen {pieces : List Piece}
    (proper : ∀ value, .own value ∈ pieces → (encodeUtf8 value).isSome) :
    Encodes (seen encoding pieces) (written encoding pieces) := by
  induction pieces with
  | nil => rfl
  | cons piece rest ih =>
      have first : Encodes (piece.seen encoding) (piece.written encoding) := by
        cases piece with
        | own value => exact encodes_getD (proper value List.mem_cons_self)
        | received bytes => exact encodes_rewritten encoding bytes
      exact first.append (ih fun value member => proper value (List.mem_cons_of_mem _ member))

theorem encode_ascii {values : List Text} (plain : ∀ value ∈ values, ∀ c ∈ value, c.code < 0x80) :
    List.Forall₂ Encodes values (values.map ascii) := by
  rw [List.forall₂_map_right_iff, List.forall₂_same]
  exact fun value member => .of_ascii (plain value member)

/-- The script of texts that encode is the script of their forms. -/
theorem encodes_commandScript {program argv0 cwd : Text} {arguments : List Text}
    {environment : Dict Text Text} {strings : ScriptStrings} (bridge : Bool)
    (programForm : Encodes program strings.program) (argv0Form : Encodes argv0 strings.argv0)
    (argumentForms : List.Forall₂ Encodes arguments strings.arguments)
    (environmentForms : List.Forall₂ (fun entry form =>
      Encodes entry.1 form.1 ∧ Encodes entry.2 form.2) environment.entries strings.environment)
    (cwdForm : Encodes cwd strings.cwd) :
    Encodes (commandScript program argv0 arguments environment cwd bridge)
      (strings.script bridge) := by
  have assigned : List.Forall₂ Encodes (assignments environment)
      (strings.environment.map fun entry => entry.1 ++ ascii (text "=") ++ entry.2) := by
    unfold assignments
    rw [List.forall₂_map_left_iff, List.forall₂_map_right_iff]
    refine environmentForms.imp fun entry form encoded => ?_
    exact (encoded.1.append (.of_ascii (by decide))).append encoded.2
  have targeted : List.Forall₂ Encodes (target argv0)
      ((target []).dropLast.map ascii ++ [strings.argv0]) := by
    have fixed : ∀ value ∈ (target []).dropLast, ∀ c ∈ value, c.code < 0x80 := by decide +kernel
    exact List.rel_append (encode_ascii fixed) (.cons argv0Form .nil)
  have words := Encodes.join (List.rel_append (List.rel_append assigned targeted)
    (.cons programForm argumentForms))
  have inherited : Encodes
      (if bridge then List.intercalate (text " ") (bridgedKeys.map bridgedOperand) else [])
      (ascii (if bridge then List.intercalate (text " ") (bridgedKeys.map bridgedOperand)
        else [])) := by
    apply Encodes.of_ascii
    cases bridge <;> decide +kernel
  have start : Encodes (text "set -eu\ncd -- ") (ascii (text "set -eu\ncd -- ")) :=
    .of_ascii (by decide)
  have next : Encodes (text "\nexec ") (ascii (text "\nexec ")) := .of_ascii (by decide)
  have env : Encodes (Shell.join [text "/usr/bin/env", text "-i", text "--"])
      (ascii (Shell.join [text "/usr/bin/env", text "-i", text "--"])) :=
    .of_ascii (by decide +kernel)
  have space : Encodes (text " ") (ascii (text " ")) := .of_ascii (by decide)
  have newline : Encodes (text "\n") (ascii (text "\n")) := .of_ascii (by decide)
  exact (((((((start.append cwdForm.quote).append next).append env).append space).append
    inherited).append space).append words).append newline

/-- **The bytes of the private script.** The script of a launch holds the strings UTF-8
makes of what the launcher received, and these are the received strings exactly when the
locale's encoding keeps each of them. -/
theorem privateScript_exact_iff (encoding : LocaleEncoding) (launch : LaunchStrings)
    (proper : launch.Proper) (path : Text) (environment : Dict Text Text)
    (entries : environment.entries =
      launch.environment.map fun entry => (seen encoding entry.1, seen encoding entry.2))
    (bridge : Bool) :
    (launch.script encoding path environment bridge).bytes =
        some ((launch.written encoding).script bridge) ∧
      (launch.Exact encoding ↔
        ∀ bytes, .received bytes ∈ launch.pieces → encoding.Keeps bytes) := by
  have part {pieces : List Piece} (inside : ∀ piece ∈ pieces, piece ∈ launch.pieces) :
      Encodes (seen encoding pieces) (written encoding pieces) :=
    encodes_seen fun value member => proper value (inside _ member)
  have argumentForms : List.Forall₂ Encodes (launch.arguments.map (seen encoding))
      (launch.arguments.map (written encoding)) := by
    rw [List.forall₂_map_left_iff, List.forall₂_map_right_iff, List.forall₂_same]
    intro argument member
    apply part
    intro piece inside
    simp only [LaunchStrings.pieces, List.mem_append, List.mem_flatten]
    exact .inl (.inl (.inr ⟨argument, member, inside⟩))
  have environmentForms : List.Forall₂ (fun entry form =>
      Encodes entry.1 form.1 ∧ Encodes entry.2 form.2) environment.entries
      (launch.environment.map fun entry =>
        (written encoding entry.1, written encoding entry.2)) := by
    rw [entries, List.forall₂_map_left_iff, List.forall₂_map_right_iff, List.forall₂_same]
    intro entry member
    have inside {piece : Piece} (either : piece ∈ entry.1 ++ entry.2) :
        piece ∈ launch.pieces := by
      simp only [LaunchStrings.pieces, List.mem_append, List.mem_flatMap] at either ⊢
      exact .inl (.inr ⟨entry, member, either⟩)
    exact ⟨part fun piece key => inside (List.mem_append_left _ key),
      part fun piece value => inside (List.mem_append_right _ value)⟩
  refine ⟨encodes_commandScript bridge (part ?_) (part ?_) argumentForms environmentForms
    (part ?_), ?_⟩
  · intro piece member
    simp only [LaunchStrings.pieces, List.mem_append]
    exact .inl (.inl (.inl (.inl member)))
  · intro piece member
    simp only [LaunchStrings.pieces, List.mem_append]
    exact .inl (.inl (.inl (.inr member)))
  · intro piece member
    simp only [LaunchStrings.pieces, List.mem_append]
    exact .inr member
  · unfold LaunchStrings.Exact
    simp only [rewritten_eq_iff]

end Pieces

/-- A launch from the directory `/`, whose argument holds the byte of an accented letter. -/
def accented : LaunchStrings where
  program := [.own (text "/bin/cat")]
  argv0 := [.received [99, 97, 116]]
  arguments := [[.received [0xE9]]]
  environment := []
  cwd := [.received [47]]

theorem accented_proper : accented.Proper := by
  intro value member
  have same : value = text "/bin/cat" := by simpa [LaunchStrings.pieces, accented] using member
  rw [same]
  decide +kernel

/-- In an ISO-8859-1 locale the accented letter reaches the script as two bytes. -/
theorem latin1_rewrites_argument :
    ¬ accented.Exact (.singleByte .latin1) ∧
      rewritten (.singleByte .latin1) [0xE9] = [0xC3, 0xA9] := by
  have two : rewritten (.singleByte .latin1) [0xE9] = [0xC3, 0xA9] := rfl
  refine ⟨?_, two⟩
  intro exact
  have kept := exact [0xE9] (by decide)
  rw [two] at kept
  cases kept

/-- A UTF-8 locale keeps the byte, which by itself is no UTF-8. -/
theorem privateScript_exact_sample :
    (accented.script .utf8 (text "/tmp/x86-on-arm-0/command.sh") Dict.empty false).bytes =
        some ((accented.written .utf8).script false) ∧ accented.Exact .utf8 := by
  have exact := privateScript_exact_iff .utf8 accented accented_proper
    (text "/tmp/x86-on-arm-0/command.sh") Dict.empty rfl false
  exact ⟨exact.1, exact.2.mpr fun _ _ => trivial⟩

end X86OnArm.Runtime
