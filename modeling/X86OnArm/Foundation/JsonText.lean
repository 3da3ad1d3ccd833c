import X86OnArm.Foundation.Encoding
import X86OnArm.Foundation.Json

/-! # JSON as text

`print` writes a document, with the spaces and the escapes of a style; `read?` reads the text
of one document as RFC 8259 has it. Both escapes in use here are read back
(`escapes_asciiEscape`, `escapes_controlEscape`).
-/

namespace Foundation.JsonText

/-- The scalars that are no strings. A number is the token it is written as. -/
inductive Plain where
  | null
  | boolean (value : Bool)
  | number (token : Text)
  deriving DecidableEq

def quote : CodePoint := '"'

def backslash : CodePoint := '\\'

def letterU : CodePoint := 'u'

def comma : CodePoint := ','

def bracket : CodePoint := '['

def brace : CodePoint := '{'

def isSpace (c : CodePoint) : Bool :=
  c.code == 32 || c.code == 10 || c.code == 13 || c.code == 9

def skip (rest : Text) : Text := rest.dropWhile isSpace

def isDigit (c : CodePoint) : Bool := 48 ≤ c.code && c.code ≤ 57

/-- The characters of numbers: digits, signs, the point and the exponent's letter. -/
def isNumberChar (c : CodePoint) : Bool :=
  isDigit c || c.code == 43 || c.code == 45 || c.code == 46 || c.code == 101 || c.code == 69

/-- Some digits, and what follows them. -/
def digits? : Text → Option Text
  | c :: rest => if isDigit c then some (rest.dropWhile isDigit) else none
  | [] => none

def integer? : Text → Option Text
  | c :: rest =>
      if c.code = 48 then some rest
      else if isDigit c then some (rest.dropWhile isDigit) else none
  | [] => none

def fraction? : Text → Option Text
  | c :: rest => if c.code = 46 then digits? rest else some (c :: rest)
  | [] => some []

def exponent? : Text → Option Text
  | c :: sign :: rest =>
      if c.code = 101 ∨ c.code = 69 then
        digits? (if sign.code = 43 ∨ sign.code = 45 then rest else sign :: rest)
      else some (c :: sign :: rest)
  | rest => some rest

/-- Whether a token is a number. -/
def isNumber (token : Text) : Bool :=
  let unsigned := match token with
    | c :: rest => if c.code = 45 then rest else c :: rest
    | [] => []
  (do exponent? (← fraction? (← integer? unsigned))) == some []

def hexDigit (digit : Nat) : CodePoint :=
  CodePoint.ofNat (if digit < 10 then 48 + digit else 87 + digit)

def hexValue? (c : CodePoint) : Option Nat :=
  if isDigit c then some (c.code - 48)
  else if 97 ≤ c.code ∧ c.code ≤ 102 then some (c.code - 87)
  else if 65 ≤ c.code ∧ c.code ≤ 70 then some (c.code - 55)
  else none

/-- `\uXXXX`. -/
def unicode (code : Nat) : Text :=
  [backslash, letterU, hexDigit (code / 4096 % 16), hexDigit (code / 256 % 16),
    hexDigit (code / 16 % 16), hexDigit (code % 16)]

def readHex : Text → Option (Nat × Text)
  | a :: b :: c :: d :: rest => do
      let a ← hexValue? a
      let b ← hexValue? b
      let c ← hexValue? c
      let d ← hexValue? d
      return (a * 4096 + b * 256 + c * 16 + d, rest)
  | _ => none

/-- The escapes of one letter: the letter, and the code of the character. -/
def letters : List (CodePoint × Nat) :=
  [('"', 34), ('\\', 92), ('n', 10), ('r', 13), ('t', 9), ('f', 12), ('b', 8)]

/-- The character after `\u` and the front half of a pair. -/
def readLowHalf (high : Nat) : Text → Option (CodePoint × Text)
  | slash :: u :: rest =>
      if slash = backslash ∧ u = letterU then do
        let (low, rest) ← readHex rest
        if 0xDC00 ≤ low ∧ low ≤ 0xDFFF then
          return (CodePoint.ofNat (0x10000 + (high - 0xD800) * 1024 + (low - 0xDC00)), rest)
        else none
      else none
  | _ => none

/-- What a backslash and the rest stand for. A half of a surrogate pair is no character. -/
def readEscaped : Text → Option (CodePoint × Text)
  | [] => none
  | letter :: rest =>
      if letter = letterU then do
        let (code, rest) ← readHex rest
        if 0xD800 ≤ code ∧ code ≤ 0xDBFF then readLowHalf code rest
        else if 0xDC00 ≤ code ∧ code ≤ 0xDFFF then none
        else return (CodePoint.ofNat code, rest)
      else if letter.code = 47 then some (letter, rest)
      else (letters.lookup letter).map fun code => (CodePoint.ofNat code, rest)

def readChar : Text → Option (CodePoint × Text)
  | [] => none
  | c :: rest =>
      if c = backslash then readEscaped rest
      else if c.code < 32 then none
      else some (c, rest)

/-- The characters up to the closing quote. -/
def readString : Nat → Text → Option (Text × Text)
  | 0, _ | _ + 1, [] => none
  | fuel + 1, c :: rest =>
      if c = quote then some ([], rest)
      else do
        let (first, rest) ← readChar (c :: rest)
        let (more, rest) ← readString fuel rest
        return (first :: more, rest)

/-- One element or more, with commas between them. -/
def readItems {α : Type} (item : Text → Option (α × Text)) (close : CodePoint) :
    Nat → Text → Option (List α × Text)
  | 0, _ => none
  | fuel + 1, rest => do
      let (value, rest) ← item rest
      match skip rest with
      | [] => none
      | c :: rest =>
          if c = comma then do
            let (more, rest) ← readItems item close fuel rest
            return (value :: more, rest)
          else if c = close then return ([value], rest)
          else none

def readList {α : Type} (item : Text → Option (α × Text)) (close : CodePoint) (rest : Text) :
    Option (List α × Text) :=
  match skip rest with
  | [] => none
  | c :: inner => if c = close then some ([], inner) else readItems item close rest.length rest

def readMember (value : Text → Option (Json Plain × Text)) (rest : Text) :
    Option ((Text × Json Plain) × Text) :=
  match skip rest with
  | [] => none
  | c :: rest =>
      if c = quote then do
        let (key, rest) ← readString (rest.length + 1) rest
        match skip rest with
        | [] => none
        | c :: rest =>
            if c = colon then do
              let (value, rest) ← value rest
              return ((key, value), rest)
            else none
      else none

def word (plain : Plain) : Text :=
  match plain with
  | .null => text "null"
  | .boolean true => text "true"
  | .boolean false => text "false"
  | .number token => token

def readPlain (rest : Text) : Option (Plain × Text) :=
  match [Plain.null, .boolean true, .boolean false].find? fun plain =>
      (word plain).isPrefixOf rest with
  | some plain => some (plain, rest.drop (word plain).length)
  | none =>
      let token := rest.takeWhile isNumberChar
      if isNumber token then some (.number token, rest.dropWhile isNumberChar) else none

/-- A value in front of a text. -/
def readValue : Nat → Text → Option (Json Plain × Text)
  | 0, _ => none
  | fuel + 1, rest =>
      match skip rest with
      | [] => none
      | c :: rest =>
          if c = quote then
            (readString (rest.length + 1) rest).map fun read => (.string read.1, read.2)
          else if c = bracket then
            (readList (readValue fuel) ']' rest).map fun read => (.array read.1, read.2)
          else if c = brace then
            (readList (readMember (readValue fuel)) '}' rest).map
              fun read => (.object read.1, read.2)
          else (readPlain (c :: rest)).map fun read => (.scalar read.1, read.2)

/-- The document a text is. -/
def read? (document : Text) : Option (Json Plain) :=
  match readValue (document.length + 1) document with
  | some (value, rest) => if skip rest = [] then some value else none
  | none => none

/-- How documents are written: the escape of each character, and what stands after an
opening bracket, a comma and a colon and before a closing bracket. -/
structure Style where
  escape : CodePoint → Text
  inside : Nat → Text
  between : Nat → Text
  before : Nat → Text
  value : Text

namespace Style

variable (style : Style)

def quoted (value : Text) : Text := quote :: value.flatMap style.escape ++ [quote]

/-- The parts of an array or an object, in their brackets. -/
def bracketed (opens close : CodePoint) (depth : Nat) (parts : List Text) : Text :=
  if parts = [] then [opens, close]
  else opens :: style.inside depth ++ List.intercalate (comma :: style.between depth) parts ++
    style.before depth ++ [close]

mutual

def print : Nat → Json Plain → Text
  | _, .scalar plain => word plain
  | _, .string value => style.quoted value
  | depth, .array items => style.bracketed bracket ']' depth (printItems (depth + 1) items)
  | depth, .object members => style.bracketed brace '}' depth (printMembers (depth + 1) members)

def printItems : Nat → List (Json Plain) → List Text
  | _, [] => []
  | depth, value :: rest => print depth value :: printItems depth rest

def printMembers : Nat → List (Text × Json Plain) → List Text
  | _, [] => []
  | depth, (key, value) :: rest =>
      (style.quoted key ++ colon :: style.value ++ print depth value) :: printMembers depth rest

end

end Style

/-- A backslash and a letter, for the characters that have one. -/
def shortEscape? (c : CodePoint) : Option Text :=
  (letters.find? fun entry => entry.2 == c.code).map fun entry => [backslash, entry.1]

/-- The escape that leaves only the visible ASCII characters. -/
def asciiEscape (c : CodePoint) : Text :=
  match shortEscape? c with
  | some escaped => escaped
  | none =>
      if 32 ≤ c.code ∧ c.code ≤ 126 then [c]
      else if c.code < 0x10000 then unicode c.code
      else unicode (0xD800 + (c.code - 0x10000) / 1024) ++
        unicode (0xDC00 + (c.code - 0x10000) % 1024)

/-- The escape that leaves all but the control characters. -/
def controlEscape (c : CodePoint) : Text :=
  match shortEscape? c with
  | some escaped => escaped
  | none => if c.code < 32 then unicode c.code else [c]

section Escapes

/-- An escape that is read back, and not taken for the end of its string. -/
structure Escapes (escape : CodePoint → Text) : Prop where
  reads : ∀ c, ¬ c.IsSurrogate → ∀ rest, readChar (escape c ++ rest) = some (c, rest)
  opens : ∀ c, ∃ first more, escape c = first :: more ∧ first ≠ quote

theorem readChar_cons (c : CodePoint) (rest : Text) : readChar (c :: rest) =
    if c = backslash then readEscaped rest
    else if c.code < 32 then none
    else some (c, rest) := rfl

theorem readEscaped_cons (letter : CodePoint) (rest : Text) : readEscaped (letter :: rest) =
    if letter = letterU then (readHex rest).bind fun read =>
      if 0xD800 ≤ read.1 ∧ read.1 ≤ 0xDBFF then readLowHalf read.1 read.2
      else if 0xDC00 ≤ read.1 ∧ read.1 ≤ 0xDFFF then none
      else some (CodePoint.ofNat read.1, read.2)
    else if letter.code = 47 then some (letter, rest)
    else (letters.lookup letter).map fun code => (CodePoint.ofNat code, rest) := rfl

theorem readLowHalf_cons (high : Nat) (slash u : CodePoint) (rest : Text) :
    readLowHalf high (slash :: u :: rest) =
      if slash = backslash ∧ u = letterU then (readHex rest).bind fun read =>
        if 0xDC00 ≤ read.1 ∧ read.1 ≤ 0xDFFF then
          some (CodePoint.ofNat (0x10000 + (high - 0xD800) * 1024 + (read.1 - 0xDC00)), read.2)
        else none
      else none := rfl

theorem hexValue?_hexDigit : ∀ digit < 16, hexValue? (hexDigit digit) = some digit := by decide

theorem readHex_unicode {code : Nat} (small : code < 0x10000) (rest : Text) :
    readHex ((unicode code).drop 2 ++ rest) = some (code, rest) := by
  have digit (value : Nat) : hexValue? (hexDigit (value % 16)) = some (value % 16) :=
    hexValue?_hexDigit _ (Nat.mod_lt _ (by decide))
  have whole : code / 4096 % 16 * 4096 + code / 256 % 16 * 256 + code / 16 % 16 * 16 + code % 16 =
      code := by omega
  calc readHex ((unicode code).drop 2 ++ rest)
      = (hexValue? (hexDigit (code / 4096 % 16))).bind fun a =>
          (hexValue? (hexDigit (code / 256 % 16))).bind fun b =>
            (hexValue? (hexDigit (code / 16 % 16))).bind fun c =>
              (hexValue? (hexDigit (code % 16))).bind fun d =>
                some (a * 4096 + b * 256 + c * 16 + d, rest) := rfl
    _ = some (code, rest) := by
        rw [digit, digit, digit, digit, Option.bind_some, Option.bind_some, Option.bind_some,
          Option.bind_some, whole]

theorem unicode_append (code : Nat) (rest : Text) :
    unicode code ++ rest = backslash :: letterU :: ((unicode code).drop 2 ++ rest) := rfl

theorem ofNat_code (c : CodePoint) : CodePoint.ofNat c.code = c :=
  CodePoint.ext (CodePoint.code_ofNat c.bounded)

theorem readChar_unicode {c : CodePoint} (plain : ¬ c.IsSurrogate) (small : c.code < 0x10000)
    (rest : Text) : readChar (unicode c.code ++ rest) = some (c, rest) := by
  unfold CodePoint.IsSurrogate at plain
  rw [unicode_append, readChar_cons, if_pos rfl, readEscaped_cons, if_pos rfl,
    readHex_unicode small, Option.bind_some, if_neg (by omega), if_neg (by omega), ofNat_code]

/-- The two halves of a pair are read as one character. -/
theorem readChar_pair {c : CodePoint} (large : 0x10000 ≤ c.code) (rest : Text) :
    readChar (unicode (0xD800 + (c.code - 0x10000) / 1024) ++
      unicode (0xDC00 + (c.code - 0x10000) % 1024) ++ rest) = some (c, rest) := by
  have bounded := c.bounded
  have whole : 0x10000 + (0xD800 + (c.code - 0x10000) / 1024 - 0xD800) * 1024 +
      (0xDC00 + (c.code - 0x10000) % 1024 - 0xDC00) = c.code := by omega
  rw [List.append_assoc, unicode_append, readChar_cons, if_pos rfl, readEscaped_cons,
    if_pos rfl, readHex_unicode (by omega), Option.bind_some, if_pos (by omega), unicode_append,
    readLowHalf_cons, if_pos ⟨rfl, rfl⟩, readHex_unicode (by omega), Option.bind_some,
    if_pos (by omega), whole, ofNat_code]

theorem readChar_short {c : CodePoint} {escaped : Text} (short : shortEscape? c = some escaped)
    (rest : Text) : readChar (escaped ++ rest) = some (c, rest) := by
  obtain ⟨⟨letter, code⟩, found, rfl⟩ := Option.map_eq_some_iff.mp short
  have same : code = c.code :=
    eq_of_beq (@List.find?_some _ (fun entry : CodePoint × Nat => entry.2 == c.code) _ _ found)
  have reads : ∀ entry ∈ letters, entry.1 ≠ letterU ∧ entry.1.code ≠ 47 ∧
      letters.lookup entry.1 = some entry.2 := by decide
  obtain ⟨notU, notSlash, looked⟩ := reads _ (List.mem_of_find?_eq_some found)
  change readChar (backslash :: letter :: rest) = _
  rw [readChar_cons, if_pos rfl, readEscaped_cons, if_neg notU, if_neg notSlash, looked,
    Option.map_some, same, ofNat_code]

theorem readChar_self {c : CodePoint} (long : shortEscape? c = none) (visible : ¬ c.code < 32)
    (rest : Text) : readChar (c :: rest) = some (c, rest) := by
  have other : c ≠ backslash := by
    rintro rfl
    exact absurd long (by decide)
  rw [readChar_cons, if_neg other, if_neg visible]

theorem shortEscape?_opens {c : CodePoint} {escaped : Text}
    (short : shortEscape? c = some escaped) :
    ∃ first more, escaped = first :: more ∧ first ≠ quote := by
  obtain ⟨entry, -, rfl⟩ := Option.map_eq_some_iff.mp short
  exact ⟨backslash, [entry.1], rfl, by decide⟩

theorem not_quote_of_long {c : CodePoint} (long : shortEscape? c = none) : c ≠ quote := by
  rintro rfl
  exact absurd long (by decide)

theorem unicode_opens (code : Nat) (rest : Text) :
    ∃ first more, unicode code ++ rest = first :: more ∧ first ≠ quote :=
  ⟨backslash, _, unicode_append code rest, by decide⟩

theorem escapes_asciiEscape : Escapes asciiEscape where
  reads := by
    intro c plain rest
    unfold asciiEscape
    split
    · exact readChar_short ‹_› rest
    · rename_i long
      split
      · rename_i visible
        exact readChar_self long (by omega) rest
      · split
        · rename_i small
          exact readChar_unicode plain small rest
        · rename_i large
          exact readChar_pair (Nat.le_of_not_lt large) rest
  opens := by
    intro c
    unfold asciiEscape
    split
    · exact shortEscape?_opens ‹_›
    · rename_i long
      split
      · exact ⟨c, [], rfl, not_quote_of_long long⟩
      · split
        · have opens := unicode_opens c.code []
          rwa [List.append_nil] at opens
        · exact unicode_opens _ _

theorem escapes_controlEscape : Escapes controlEscape where
  reads := by
    intro c plain rest
    unfold controlEscape
    split
    · exact readChar_short ‹_› rest
    · rename_i long
      split
      · rename_i control
        exact readChar_unicode plain (by omega) rest
      · rename_i visible
        exact readChar_self long visible rest
  opens := by
    intro c
    unfold controlEscape
    split
    · exact shortEscape?_opens ‹_›
    · rename_i long
      split
      · have opens := unicode_opens c.code []
        rwa [List.append_nil] at opens
      · exact ⟨c, [], rfl, not_quote_of_long long⟩

end Escapes

end Foundation.JsonText
