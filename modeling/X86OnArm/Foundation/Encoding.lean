import X86OnArm.Foundation.Text

/-! # Encodings with surrogate escapes

A program holds its arguments as text, decoded from the bytes of the kernel by the
encoding of its locale, with a surrogate in place of every byte that does not decode.
UTF-8 with surrogate escapes undoes the decoding of every byte string by itself
(`encodeUtf8_decodeUtf8`), and that of a single-byte encoding exactly on the strings
whose decodable bytes are ASCII characters (`encodeUtf8_decode`).
-/

namespace Foundation

namespace CodePoint

/-- The code point of a number in range. -/
def ofNat (code : Nat) : CodePoint :=
  if bounded : code < 1114112 then ⟨code, bounded⟩ else ⟨0, by decide⟩

theorem code_ofNat {code : Nat} (bounded : code < 1114112) : (ofNat code).code = code := by
  unfold ofNat
  rw [dif_pos bounded]

/-- A surrogate is no character of its own. -/
def IsSurrogate (c : CodePoint) : Prop := 0xD800 ≤ c.code ∧ c.code ≤ 0xDFFF

instance (c : CodePoint) : Decidable c.IsSurrogate := inferInstanceAs (Decidable (_ ∧ _))

/-- The surrogate that stands for a byte. -/
def escape (byte : UInt8) : CodePoint where
  code := 0xDC00 + byte.toNat
  bounded := Nat.lt_trans (Nat.add_lt_add_left byte.toNat_lt _) (by decide)

end CodePoint

/-- The UTF-8 form of a character. -/
def utf8Bytes (code : Nat) : List UInt8 :=
  if code < 0x80 then [UInt8.ofNat code]
  else if code < 0x800 then [UInt8.ofNat (0xC0 + code / 64), UInt8.ofNat (0x80 + code % 64)]
  else if code < 0x10000 then
    [UInt8.ofNat (0xE0 + code / 4096), UInt8.ofNat (0x80 + code / 64 % 64),
      UInt8.ofNat (0x80 + code % 64)]
  else
    [UInt8.ofNat (0xF0 + code / 262144), UInt8.ofNat (0x80 + code / 4096 % 64),
      UInt8.ofNat (0x80 + code / 64 % 64), UInt8.ofNat (0x80 + code % 64)]

/-- The UTF-8 form of a code point, where an escaped byte is that byte and any other
surrogate has none. -/
def encodePoint (c : CodePoint) : Option (List UInt8) :=
  if 0xDC80 ≤ c.code ∧ c.code ≤ 0xDCFF then some [UInt8.ofNat (c.code - 0xDC00)]
  else if c.IsSurrogate then none
  else some (utf8Bytes c.code)

/-- `str.encode("utf-8", "surrogateescape")`. -/
def encodeUtf8 : Text → Option (List UInt8)
  | [] => some []
  | c :: rest => do return (← encodePoint c) ++ (← encodeUtf8 rest)

/-- A continuation byte. -/
def isTail (byte : UInt8) : Bool := 0x80 ≤ byte.toNat && byte.toNat ≤ 0xBF

/-- The second bytes a lead byte takes: none that would spell a shorter form, a surrogate
or a number beyond the last code point. -/
def isSecond (lead : Nat) (byte : UInt8) : Bool :=
  isTail byte && (lead != 0xE0 || 0xA0 ≤ byte.toNat) && (lead != 0xED || byte.toNat ≤ 0x9F) &&
    (lead != 0xF0 || 0x90 ≤ byte.toNat) && (lead != 0xF4 || byte.toNat ≤ 0x8F)

/-- The character at the front of a byte string, and the bytes after it. -/
def utf8First : List UInt8 → Option (Nat × List UInt8)
  | [] => none
  | lead :: rest =>
      let lead := lead.toNat
      if lead < 0x80 then some (lead, rest)
      else if 0xC2 ≤ lead ∧ lead ≤ 0xDF then
        match rest with
        | second :: rest =>
            if isSecond lead second then
              some ((lead - 0xC0) * 64 + (second.toNat - 0x80), rest)
            else none
        | [] => none
      else if 0xE0 ≤ lead ∧ lead ≤ 0xEF then
        match rest with
        | second :: third :: rest =>
            if isSecond lead second && isTail third then
              some ((lead - 0xE0) * 4096 + (second.toNat - 0x80) * 64 + (third.toNat - 0x80),
                rest)
            else none
        | _ => none
      else if 0xF0 ≤ lead ∧ lead ≤ 0xF4 then
        match rest with
        | second :: third :: fourth :: rest =>
            if isSecond lead second && isTail third && isTail fourth then
              some ((lead - 0xF0) * 262144 + (second.toNat - 0x80) * 4096 +
                (third.toNat - 0x80) * 64 + (fourth.toNat - 0x80), rest)
            else none
        | _ => none
      else none

theorem ofNat_eq_of_toNat (byte : UInt8) {number : Nat} (same : number = byte.toNat) :
    UInt8.ofNat number = byte := by
  rw [same, UInt8.ofNat_toNat]

theorem isTail_iff {byte : UInt8} : isTail byte ↔ 0x80 ≤ byte.toNat ∧ byte.toNat ≤ 0xBF := by
  unfold isTail
  rw [Bool.and_eq_true, decide_eq_true_iff, decide_eq_true_iff]

theorem isSecond_iff {lead : Nat} {byte : UInt8} :
    isSecond lead byte ↔ (0x80 ≤ byte.toNat ∧ byte.toNat ≤ 0xBF) ∧
      (lead = 0xE0 → 0xA0 ≤ byte.toNat) ∧ (lead = 0xED → byte.toNat ≤ 0x9F) ∧
      (lead = 0xF0 → 0x90 ≤ byte.toNat) ∧ (lead = 0xF4 → byte.toNat ≤ 0x8F) := by
  unfold isSecond
  simp only [Bool.and_eq_true, isTail_iff, Bool.or_eq_true, bne_iff_ne, ne_eq,
    decide_eq_true_eq, ← imp_iff_not_or, and_assoc]

theorem utf8Bytes_two {lead second : UInt8} (first : 0xC2 ≤ lead.toNat ∧ lead.toNat ≤ 0xDF)
    (tail : 0x80 ≤ second.toNat ∧ second.toNat ≤ 0xBF) :
    utf8Bytes ((lead.toNat - 0xC0) * 64 + (second.toNat - 0x80)) = [lead, second] := by
  unfold utf8Bytes
  rw [if_neg (by omega), if_pos (by omega), ofNat_eq_of_toNat lead (by omega),
    ofNat_eq_of_toNat second (by omega)]

theorem utf8Bytes_three {lead second third : UInt8}
    (first : 0xE0 ≤ lead.toNat ∧ lead.toNat ≤ 0xEF)
    (tail : 0x80 ≤ second.toNat ∧ second.toNat ≤ 0xBF)
    (proper : lead.toNat = 0xE0 → 0xA0 ≤ second.toNat)
    (last : 0x80 ≤ third.toNat ∧ third.toNat ≤ 0xBF) :
    utf8Bytes ((lead.toNat - 0xE0) * 4096 + (second.toNat - 0x80) * 64 + (third.toNat - 0x80)) =
      [lead, second, third] := by
  unfold utf8Bytes
  rw [if_neg (by omega), if_neg (by omega), if_pos (by omega), ofNat_eq_of_toNat lead (by omega),
    ofNat_eq_of_toNat second (by omega), ofNat_eq_of_toNat third (by omega)]

theorem utf8Bytes_four {lead second third fourth : UInt8}
    (first : 0xF0 ≤ lead.toNat ∧ lead.toNat ≤ 0xF4)
    (tail : 0x80 ≤ second.toNat ∧ second.toNat ≤ 0xBF)
    (proper : lead.toNat = 0xF0 → 0x90 ≤ second.toNat)
    (next : 0x80 ≤ third.toNat ∧ third.toNat ≤ 0xBF)
    (last : 0x80 ≤ fourth.toNat ∧ fourth.toNat ≤ 0xBF) :
    utf8Bytes ((lead.toNat - 0xF0) * 262144 + (second.toNat - 0x80) * 4096 +
        (third.toNat - 0x80) * 64 + (fourth.toNat - 0x80)) = [lead, second, third, fourth] := by
  unfold utf8Bytes
  rw [if_neg (by omega), if_neg (by omega), if_neg (by omega), ofNat_eq_of_toNat lead (by omega),
    ofNat_eq_of_toNat second (by omega), ofNat_eq_of_toNat third (by omega),
    ofNat_eq_of_toNat fourth (by omega)]

/-- The front character is spelt as in UTF-8, and it is no surrogate. -/
theorem utf8First_eq_some {bytes rest : List UInt8} {code : Nat}
    (found : utf8First bytes = some (code, rest)) :
    bytes = utf8Bytes code ++ rest ∧ code < 1114112 ∧ ¬ (0xD800 ≤ code ∧ code ≤ 0xDFFF) := by
  unfold utf8First at found
  split at found
  next => cases found
  next lead rest =>
    simp only at found
    by_cases one : lead.toNat < 0x80
    · rw [if_pos one] at found
      cases found
      refine ⟨?_, by omega, by omega⟩
      unfold utf8Bytes
      rw [if_pos one, UInt8.ofNat_toNat]
      rfl
    by_cases two : 0xC2 ≤ lead.toNat ∧ lead.toNat ≤ 0xDF
    · rw [if_neg one, if_pos two] at found
      rcases rest with _ | ⟨second, rest⟩
      · cases found
      · simp only at found
        split at found
        next tail =>
          obtain ⟨tail, -⟩ := isSecond_iff.mp tail
          simp only [Option.some.injEq, Prod.mk.injEq] at found
          obtain ⟨rfl, rfl⟩ := found
          rw [utf8Bytes_two two tail]
          exact ⟨rfl, by omega, by omega⟩
        next => cases found
    by_cases three : 0xE0 ≤ lead.toNat ∧ lead.toNat ≤ 0xEF
    · rw [if_neg one, if_neg two, if_pos three] at found
      rcases rest with _ | ⟨second, _ | ⟨third, rest⟩⟩
      · cases found
      · cases found
      · simp only [Bool.and_eq_true] at found
        split at found
        next tails =>
          obtain ⟨tail, long, scalar, -⟩ := isSecond_iff.mp tails.1
          have last := isTail_iff.mp tails.2
          simp only [Option.some.injEq, Prod.mk.injEq] at found
          obtain ⟨rfl, rfl⟩ := found
          rw [utf8Bytes_three three tail long last]
          exact ⟨rfl, by omega, by omega⟩
        next => cases found
    by_cases four : 0xF0 ≤ lead.toNat ∧ lead.toNat ≤ 0xF4
    · rw [if_neg one, if_neg two, if_neg three, if_pos four] at found
      rcases rest with _ | ⟨second, _ | ⟨third, _ | ⟨fourth, rest⟩⟩⟩
      · cases found
      · cases found
      · cases found
      · simp only [Bool.and_eq_true] at found
        split at found
        next tails =>
          obtain ⟨tail, -, -, long, bounded⟩ := isSecond_iff.mp tails.1.1
          have next := isTail_iff.mp tails.1.2
          have last := isTail_iff.mp tails.2
          simp only [Option.some.injEq, Prod.mk.injEq] at found
          obtain ⟨rfl, rfl⟩ := found
          rw [utf8Bytes_four four tail long next last]
          exact ⟨rfl, by omega, by omega⟩
        next => cases found
    · rw [if_neg one, if_neg two, if_neg three, if_neg four] at found
      cases found

theorem utf8Bytes_ne_nil (code : Nat) : utf8Bytes code ≠ [] := by
  unfold utf8Bytes
  split_ifs <;> exact List.cons_ne_nil _ _

/-- Only an ASCII character is a single byte, its own. -/
theorem utf8Bytes_eq_singleton {code : Nat} {byte : UInt8} :
    utf8Bytes code = [byte] ↔ byte.toNat < 0x80 ∧ code = byte.toNat := by
  unfold utf8Bytes
  split_ifs with one two three
  · rw [List.cons.injEq, and_iff_left rfl, ← UInt8.toNat_inj,
      UInt8.toNat_ofNat_of_lt' (Nat.lt_trans one (by decide))]
    constructor
    · rintro rfl
      exact ⟨one, rfl⟩
    · exact And.right
  all_goals
    constructor
    · intro same
      exact absurd (congrArg List.length same) (by simp)
    · rintro ⟨low, rfl⟩
      exact absurd low one

theorem length_of_utf8First {bytes rest : List UInt8} {code : Nat}
    (found : utf8First bytes = some (code, rest)) : rest.length < bytes.length := by
  obtain ⟨same, -⟩ := utf8First_eq_some found
  have positive := List.length_pos_iff.mpr (utf8Bytes_ne_nil code)
  rw [same, List.length_append]
  omega

/-- `bytes.decode("utf-8", "surrogateescape")`: a byte that starts no character is
escaped, and decoding goes on after it. -/
def decodeUtf8 : List UInt8 → Text
  | [] => []
  | byte :: bytes =>
      match _found : utf8First (byte :: bytes) with
      | some (code, rest) => CodePoint.ofNat code :: decodeUtf8 rest
      | none => CodePoint.escape byte :: decodeUtf8 bytes
  termination_by bytes => bytes.length
  decreasing_by
    · exact length_of_utf8First _found
    · exact Nat.lt_succ_self _

/-- A single-byte character set. A byte it leaves undefined is one an escape can stand
for, and no byte is a surrogate. -/
structure Charset where
  character : UInt8 → Option CodePoint
  escapable : ∀ byte, character byte = none → 0x80 ≤ byte.toNat
  scalar : ∀ byte c, character byte = some c → ¬ c.IsSurrogate

/-- The encodings a locale may have. -/
inductive LocaleEncoding where
  | utf8
  | singleByte (charset : Charset)

/-- How a program receives a byte string, with surrogate escapes. -/
def LocaleEncoding.decode : LocaleEncoding → List UInt8 → Text
  | .utf8, bytes => decodeUtf8 bytes
  | .singleByte charset, bytes =>
      bytes.map fun byte => (charset.character byte).getD (CodePoint.escape byte)

theorem encodePoint_escape {byte : UInt8} (high : 0x80 ≤ byte.toNat) :
    encodePoint (CodePoint.escape byte) = some [byte] := by
  have bounded := byte.toNat_lt
  unfold encodePoint CodePoint.escape
  simp only
  rw [if_pos (by omega), ofNat_eq_of_toNat byte (by omega)]

theorem encodePoint_of_scalar {c : CodePoint} (scalar : ¬ c.IsSurrogate) :
    encodePoint c = some (utf8Bytes c.code) := by
  unfold encodePoint
  rw [if_neg, if_neg scalar]
  unfold CodePoint.IsSurrogate at scalar
  omega

theorem encodeUtf8_cons {c : CodePoint} {rest : Text} {front back : List UInt8}
    (first : encodePoint c = some front) (others : encodeUtf8 rest = some back) :
    encodeUtf8 (c :: rest) = some (front ++ back) := by
  unfold encodeUtf8
  rw [first, others]
  rfl

/-- A byte that starts no character is beyond ASCII. -/
theorem high_of_utf8First {byte : UInt8} {bytes : List UInt8}
    (none : utf8First (byte :: bytes) = none) : 0x80 ≤ byte.toNat := by
  by_contra low
  unfold utf8First at none
  simp only [if_pos (Nat.lt_of_not_le low)] at none
  cases none

theorem decodeUtf8_of_some {byte : UInt8} {bytes rest : List UInt8} {code : Nat}
    (found : utf8First (byte :: bytes) = some (code, rest)) :
    decodeUtf8 (byte :: bytes) = CodePoint.ofNat code :: decodeUtf8 rest := by
  rw [decodeUtf8]
  split
  next same =>
    cases found.symm.trans same
    rfl
  next absent => cases found.symm.trans absent

theorem decodeUtf8_of_none {byte : UInt8} {bytes : List UInt8}
    (none : utf8First (byte :: bytes) = none) :
    decodeUtf8 (byte :: bytes) = CodePoint.escape byte :: decodeUtf8 bytes := by
  rw [decodeUtf8]
  split
  next same => cases none.symm.trans same
  next => rfl

/-- The form of a character starts with that character. -/
theorem utf8First_utf8Bytes {code : Nat} (bounded : code < 1114112)
    (scalar : ¬ (0xD800 ≤ code ∧ code ≤ 0xDFFF)) (rest : List UInt8) :
    utf8First (utf8Bytes code ++ rest) = some (code, rest) := by
  have byte {number : Nat} (small : number < 256) : (UInt8.ofNat number).toNat = number :=
    UInt8.toNat_ofNat_of_lt' small
  have tail {number : Nat} : isTail (UInt8.ofNat (0x80 + number % 64)) = true := by
    rw [isTail_iff, byte (by omega)]
    omega
  unfold utf8Bytes
  split
  · rw [List.singleton_append]
    unfold utf8First
    simp only [byte (show code < 256 by omega)]
    rw [if_pos ‹_›]
  split
  · have second : isSecond (0xC0 + code / 64) (UInt8.ofNat (0x80 + code % 64)) = true := by
      rw [isSecond_iff, byte (by omega)]
      omega
    change utf8First (_ :: _ :: rest) = _
    unfold utf8First
    simp only [byte (show 0xC0 + code / 64 < 256 by omega),
      byte (show 0x80 + code % 64 < 256 by omega), second]
    rw [if_neg (by omega), if_pos (by omega), if_pos trivial, Option.some.injEq, Prod.mk.injEq]
    exact ⟨by omega, rfl⟩
  split
  · have second : isSecond (0xE0 + code / 4096) (UInt8.ofNat (0x80 + code / 64 % 64)) = true := by
      rw [isSecond_iff, byte (by omega)]
      omega
    change utf8First (_ :: _ :: _ :: rest) = _
    unfold utf8First
    simp only [byte (show 0xE0 + code / 4096 < 256 by omega),
      byte (show 0x80 + code / 64 % 64 < 256 by omega),
      byte (show 0x80 + code % 64 < 256 by omega), second, tail, Bool.and_true]
    rw [if_neg (by omega), if_neg (by omega), if_pos (by omega), if_pos trivial, Option.some.injEq,
      Prod.mk.injEq]
    exact ⟨by omega, rfl⟩
  · have second : isSecond (0xF0 + code / 262144) (UInt8.ofNat (0x80 + code / 4096 % 64)) =
        true := by
      rw [isSecond_iff, byte (by omega)]
      omega
    change utf8First (_ :: _ :: _ :: _ :: rest) = _
    unfold utf8First
    simp only [byte (show 0xF0 + code / 262144 < 256 by omega),
      byte (show 0x80 + code / 4096 % 64 < 256 by omega),
      byte (show 0x80 + code / 64 % 64 < 256 by omega),
      byte (show 0x80 + code % 64 < 256 by omega), second, tail, Bool.and_true]
    rw [if_neg (by omega), if_neg (by omega), if_neg (by omega), if_pos (by omega), if_pos trivial,
      Option.some.injEq, Prod.mk.injEq]
    exact ⟨by omega, rfl⟩

/-- Text without surrogates is read back from its UTF-8. -/
theorem decodeUtf8_encodeUtf8 {value : Text} (clean : ∀ c ∈ value, ¬ c.IsSurrogate)
    {bytes : List UInt8} (encoded : encodeUtf8 value = some bytes) : decodeUtf8 bytes = value := by
  induction value generalizing bytes with
  | nil =>
      cases encoded
      rw [decodeUtf8]
  | cons c rest ih =>
      have scalar := clean c List.mem_cons_self
      have first := encodePoint_of_scalar scalar
      unfold encodeUtf8 at encoded
      rw [first] at encoded
      cases others : encodeUtf8 rest with
      | none =>
          rw [others] at encoded
          cases encoded
      | some back =>
          rw [others] at encoded
          cases encoded
          have found := utf8First_utf8Bytes c.bounded scalar back
          have later := ih (fun other member => clean other (List.mem_cons_of_mem _ member)) others
          have form : CodePoint.ofNat c.code = c := CodePoint.ext (CodePoint.code_ofNat c.bounded)
          change decodeUtf8 (utf8Bytes c.code ++ back) = c :: rest
          cases shape : utf8Bytes c.code ++ back with
          | nil =>
              rw [shape] at found
              cases found
          | cons byte bytes =>
              rw [shape] at found
              rw [decodeUtf8_of_some found, form, later]

/-- **UTF-8 undoes itself.** Every byte string survives decoding and encoding, whatever
part of it is no UTF-8. -/
theorem encodeUtf8_decodeUtf8 (bytes : List UInt8) :
    encodeUtf8 (decodeUtf8 bytes) = some bytes := by
  induction bytes using decodeUtf8.induct with
  | case1 =>
      rw [decodeUtf8]
      rfl
  | case2 byte bytes code rest found ih =>
      obtain ⟨same, bounded, scalar⟩ := utf8First_eq_some found
      have plain : ¬ (CodePoint.ofNat code).IsSurrogate := by
        unfold CodePoint.IsSurrogate
        rwa [CodePoint.code_ofNat bounded]
      rw [decodeUtf8_of_some found, encodeUtf8_cons (encodePoint_of_scalar plain) ih,
        CodePoint.code_ofNat bounded, ← same]
  | case3 byte bytes none ih =>
      rw [decodeUtf8_of_none none,
        encodeUtf8_cons (encodePoint_escape (high_of_utf8First none)) ih]
      rfl

/-- A substitution of nonempty strings that leaves a string as it is leaves each of its
elements as it is. -/
theorem eq_singleton_of_flatMap_eq {α : Type} {form : α → List α} {elements : List α}
    (nonempty : ∀ element ∈ elements, form element ≠ [])
    (same : elements.flatMap form = elements) :
    ∀ element ∈ elements, form element = [element] := by
  induction elements with
  | nil => exact fun _ member => absurd member List.not_mem_nil
  | cons first rest ih =>
      have long (others : List α) (nonempty : ∀ element ∈ others, form element ≠ []) :
          others.length ≤ (others.flatMap form).length := by
        induction others with
        | nil => exact Nat.le_refl _
        | cons other others ih =>
            have positive := List.length_pos_iff.mpr (nonempty other List.mem_cons_self)
            have rest := ih fun element member =>
              nonempty element (List.mem_cons_of_mem _ member)
            rw [List.flatMap_cons, List.length_append, List.length_cons]
            omega
      have others : ∀ element ∈ rest, form element ≠ [] := fun element member =>
        nonempty element (List.mem_cons_of_mem _ member)
      rw [List.flatMap_cons] at same
      cases spelt : form first with
      | nil => exact absurd spelt (nonempty first List.mem_cons_self)
      | cons head tail =>
          rw [spelt, List.cons_append, List.cons.injEq] at same
          obtain ⟨rfl, same⟩ := same
          have lengths := congrArg List.length same
          have enough := long rest others
          rw [List.length_append] at lengths
          obtain rfl := List.length_eq_zero_iff.mp (by omega : tail.length = 0)
          intro element member
          rcases List.mem_cons.mp member with rfl | later
          · exact spelt
          · exact ih others same element later

/-- What UTF-8 makes of a byte that was decoded by itself. -/
def Charset.reencoded (charset : Charset) (byte : UInt8) : List UInt8 :=
  match charset.character byte with
  | none => [byte]
  | some c => utf8Bytes c.code

theorem Charset.reencoded_ne_nil (charset : Charset) (byte : UInt8) :
    charset.reencoded byte ≠ [] := by
  unfold reencoded
  split
  · exact List.cons_ne_nil _ _
  · exact utf8Bytes_ne_nil _

theorem encodeUtf8_decode_singleByte (charset : Charset) (bytes : List UInt8) :
    encodeUtf8 ((LocaleEncoding.singleByte charset).decode bytes) =
      some (bytes.flatMap charset.reencoded) := by
  induction bytes with
  | nil => rfl
  | cons byte rest ih =>
      have first : encodePoint ((charset.character byte).getD (CodePoint.escape byte)) =
          some (charset.reencoded byte) := by
        unfold Charset.reencoded
        cases defined : charset.character byte with
        | none => exact encodePoint_escape (charset.escapable byte defined)
        | some c => exact encodePoint_of_scalar (charset.scalar byte c defined)
      exact encodeUtf8_cons first ih

/-- Every byte of the string is one the encoding leaves undefined, or an ASCII
character. -/
def LocaleEncoding.Keeps : LocaleEncoding → List UInt8 → Prop
  | .utf8, _ => True
  | .singleByte charset, bytes => ∀ byte ∈ bytes, charset.character byte = none ∨
      (byte.toNat < 0x80 ∧ charset.character byte = some (CodePoint.ofNat byte.toNat))

theorem Charset.reencoded_eq_singleton {charset : Charset} {byte : UInt8} :
    charset.reencoded byte = [byte] ↔ charset.character byte = none ∨
      (byte.toNat < 0x80 ∧ charset.character byte = some (CodePoint.ofNat byte.toNat)) := by
  have bounded : byte.toNat < 1114112 := Nat.lt_trans byte.toNat_lt (by decide)
  unfold reencoded
  cases charset.character byte with
  | none => exact ⟨fun _ => .inl rfl, fun _ => rfl⟩
  | some c =>
      simp only [utf8Bytes_eq_singleton, reduceCtorEq, Option.some.injEq, false_or,
        CodePoint.ext_iff, CodePoint.code_ofNat bounded]

/-- **When UTF-8 undoes a locale's decoding.** The bytes come back exactly when the
encoding is UTF-8 or keeps each of them. -/
theorem encodeUtf8_decode (encoding : LocaleEncoding) (bytes : List UInt8) :
    encodeUtf8 (encoding.decode bytes) = some bytes ↔ encoding.Keeps bytes := by
  cases encoding with
  | utf8 => exact ⟨fun _ => trivial, fun _ => encodeUtf8_decodeUtf8 bytes⟩
  | singleByte charset =>
      unfold LocaleEncoding.Keeps
      simp only [← Charset.reencoded_eq_singleton]
      rw [encodeUtf8_decode_singleByte, Option.some.injEq]
      constructor
      · exact eq_singleton_of_flatMap_eq fun byte _ => charset.reencoded_ne_nil byte
      · intro kept
        induction bytes with
        | nil => rfl
        | cons byte rest ih =>
            rw [List.flatMap_cons, kept byte List.mem_cons_self,
              ih fun other member => kept other (List.mem_cons_of_mem _ member)]
            rfl

/-- How a program reads a file as text: a byte that does not decode is an error. -/
def LocaleEncoding.decodeStrict (encoding : LocaleEncoding) (bytes : List UInt8) : Option Text :=
  if ∃ c ∈ encoding.decode bytes, c.IsSurrogate then none else some (encoding.decode bytes)

/-- The encoding is UTF-8, or has every byte of the string as the ASCII character it is. -/
def LocaleEncoding.Reads : LocaleEncoding → List UInt8 → Prop
  | .utf8, _ => True
  | .singleByte charset, bytes => ∀ byte ∈ bytes, byte.toNat < 0x80 ∧
      charset.character byte = some (CodePoint.ofNat byte.toNat)

/-- Text written in UTF-8 is read as it was written. -/
theorem decodeStrict_of_reads {encoding : LocaleEncoding} {value : Text} {bytes : List UInt8}
    (clean : ∀ c ∈ value, ¬ c.IsSurrogate) (encoded : encodeUtf8 value = some bytes)
    (reads : encoding.Reads bytes) : encoding.decodeStrict bytes = some value := by
  have same : encoding.decode bytes = value := by
    cases encoding with
    | utf8 => exact decodeUtf8_encodeUtf8 clean encoded
    | singleByte charset =>
        -- both texts are read back from the same bytes
        have keeps : (LocaleEncoding.singleByte charset).Keeps bytes :=
          fun byte member => .inr (reads byte member)
        have scalar : ∀ c ∈ (LocaleEncoding.singleByte charset).decode bytes,
            ¬ c.IsSurrogate := by
          intro c member
          obtain ⟨byte, listed, rfl⟩ := List.mem_map.mp member
          have defined := (reads byte listed).2
          rw [defined, Option.getD_some]
          exact charset.scalar byte _ defined
        have back := decodeUtf8_encodeUtf8 scalar ((encodeUtf8_decode _ bytes).mpr keeps)
        exact back.symm.trans (decodeUtf8_encodeUtf8 clean encoded)
  unfold LocaleEncoding.decodeStrict
  rw [same, if_neg]
  rintro ⟨c, member, surrogate⟩
  exact clean c member surrogate

/-- ASCII, which defines the lower half of the bytes. -/
def Charset.ascii : Charset where
  character := fun byte =>
    if byte.toNat < 0x80 then some (CodePoint.ofNat byte.toNat) else none
  escapable := by
    intro byte undefined
    by_contra low
    rw [if_pos (Nat.lt_of_not_le low)] at undefined
    cases undefined
  scalar := by
    intro byte c defined
    split at defined
    next low =>
      cases defined
      unfold CodePoint.IsSurrogate
      rw [CodePoint.code_ofNat (by omega)]
      omega
    next => cases defined

/-- ISO-8859-1, in which every byte is the character of its number. -/
def Charset.latin1 : Charset where
  character := fun byte => some (CodePoint.ofNat byte.toNat)
  escapable := fun _ undefined => nomatch undefined
  scalar := by
    intro byte c defined
    cases defined
    have bounded := byte.toNat_lt
    unfold CodePoint.IsSurrogate
    rw [CodePoint.code_ofNat (by omega)]
    omega

/-- An ASCII locale escapes every other byte, so it keeps every string. -/
theorem ascii_keeps (bytes : List UInt8) : (LocaleEncoding.singleByte .ascii).Keeps bytes := by
  intro byte _
  by_cases low : byte.toNat < 0x80
  · exact .inr ⟨low, if_pos low⟩
  · exact .inl (if_neg low)

end Foundation
