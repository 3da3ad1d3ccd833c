import X86OnArm.Foundation.JsonText

/-! # Reading back a printed document

A style that escapes well and puts only spaces between the tokens is read back: every
document of characters and numbers is the one its text is read as (`read?_print`).
-/

namespace Foundation.JsonText

/-- Text of characters only. -/
def Clean (value : Text) : Prop := ∀ c ∈ value, ¬ c.IsSurrogate

/-- A literal is of characters. -/
theorem clean_text (value : String) : Clean (text value) := by
  intro c member
  obtain ⟨character, -, rfl⟩ := List.mem_map.mp member
  have valid : character.toNat < 0xD800 ∨
      0xDFFF < character.toNat ∧ character.toNat < 0x110000 := character.valid
  change ¬ (0xD800 ≤ character.toNat ∧ character.toNat ≤ 0xDFFF)
  omega

/-- The documents that have a text: their strings are of characters, their numbers are. -/
inductive Printable : Json Plain → Prop where
  | null : Printable (.scalar .null)
  | boolean (value : Bool) : Printable (.scalar (.boolean value))
  | number {token : Text} (isNumber : isNumber token = true)
      (all : ∀ c ∈ token, isNumberChar c = true) : Printable (.scalar (.number token))
  | string {value : Text} (clean : Clean value) : Printable (.string value)
  | array {items : List (Json Plain)} (each : ∀ value ∈ items, Printable value) :
      Printable (.array items)
  | object {members : List (Text × Json Plain)} (names : ∀ member ∈ members, Clean member.1)
      (each : ∀ member ∈ members, Printable member.2) : Printable (.object members)

def Spaces (spaces : Text) : Prop := ∀ c ∈ spaces, isSpace c = true

instance (spaces : Text) : Decidable (Spaces spaces) :=
  inferInstanceAs (Decidable (∀ c ∈ spaces, isSpace c = true))

/-- What a style needs to be read back. -/
structure Style.Sound (style : Style) : Prop where
  escapes : Escapes style.escape
  inside : ∀ depth, Spaces (style.inside depth)
  between : ∀ depth, Spaces (style.between depth)
  before : ∀ depth, Spaces (style.before depth)
  value : Spaces style.value

/-- A number in front of this text ends there. -/
def Ends (rest : Text) : Prop := ∀ c ∈ rest.head?, isNumberChar c = false

section Reading

variable {spaces rest : Text}

private theorem skip_append (clear : Spaces spaces) : skip (spaces ++ rest) = skip rest :=
  List.dropWhile_append_of_pos clear

private theorem skip_cons {c : CodePoint} (solid : isSpace c = false) :
    skip (c :: rest) = c :: rest := by
  unfold skip
  rw [List.dropWhile_cons_of_neg]
  rw [solid]
  exact Bool.false_ne_true

private theorem isNumberChar_of_isSpace {c : CodePoint} (space : isSpace c = true) :
    isNumberChar c = false := by
  unfold isSpace at space
  unfold isNumberChar isDigit
  simp only [Bool.or_eq_true, beq_iff_eq] at space
  simp only [Bool.or_eq_false_iff, Bool.and_eq_false_iff, decide_eq_false_iff_not,
    beq_eq_false_iff_ne]
  omega

private theorem ends_cons {c : CodePoint} (other : isNumberChar c = false) : Ends (c :: rest) := by
  intro first same
  cases same
  exact other

private theorem ends_append (clear : Spaces spaces) (ends : Ends rest) : Ends (spaces ++ rest) := by
  cases spaces with
  | nil => exact ends
  | cons c more => exact ends_cons (isNumberChar_of_isSpace (clear c List.mem_cons_self))

section Strings

variable {escape : CodePoint → Text} {value : Text}

private theorem length_le_escaped (escapes : Escapes escape) (value : Text) :
    value.length ≤ (value.flatMap escape).length := by
  induction value with
  | nil => exact Nat.zero_le _
  | cons c more ih =>
      obtain ⟨first, others, same, -⟩ := escapes.opens c
      rw [List.flatMap_cons, List.length_append, same, List.length_cons, List.length_cons]
      omega

/-- A string is read back, up to its closing quote. -/
theorem readString_escaped (escapes : Escapes escape) (clean : Clean value) {fuel : Nat}
    (enough : value.length < fuel) (rest : Text) :
    readString fuel (value.flatMap escape ++ quote :: rest) = some (value, rest) := by
  induction value generalizing fuel with
  | nil =>
      obtain ⟨fuel, rfl⟩ := Nat.exists_eq_add_one_of_ne_zero (Nat.ne_zero_of_lt enough)
      exact if_pos rfl
  | cons c more ih =>
      obtain ⟨fuel, rfl⟩ := Nat.exists_eq_add_one_of_ne_zero (Nat.ne_zero_of_lt enough)
      have later := ih (fun other member => clean other (List.mem_cons_of_mem _ member))
        (Nat.lt_of_succ_lt_succ enough)
      have front := escapes.reads c (clean c List.mem_cons_self)
        (more.flatMap escape ++ quote :: rest)
      obtain ⟨first, others, same, notQuote⟩ := escapes.opens c
      rw [List.flatMap_cons, List.append_assoc]
      rw [same] at front ⊢
      change (if first = quote then some ([], _) else
        (readChar (first :: (others ++ (more.flatMap escape ++ quote :: rest)))).bind fun read =>
          (readString fuel read.2).bind fun after =>
            some (read.1 :: after.1, after.2)) = _
      rw [if_neg notQuote]
      change readChar (first :: (others ++ _)) = _ at front
      rw [front, Option.bind_some, later, Option.bind_some]

private theorem readString_quoted (escapes : Escapes escape) (clean : Clean value) (rest : Text) :
    readString ((value.flatMap escape ++ quote :: rest).length + 1)
      (value.flatMap escape ++ quote :: rest) = some (value, rest) := by
  apply readString_escaped escapes clean
  have shorter := length_le_escaped escapes value
  rw [List.length_append]
  omega

end Strings

/-- An element's text, which a list of such elements can be made of. -/
structure Reads {α : Type} (item : Text → Option (α × Text)) (value : α) (part : Text) : Prop where
  begins : ∃ c more, part = c :: more ∧ isSpace c = false ∧ c.code ≠ 93 ∧ c.code ≠ 125
  reads : ∀ spaces rest, Spaces spaces → Ends rest →
    item (spaces ++ (part ++ rest)) = some (value, rest)

/-- A bracket that ends a list. -/
def Closing (close : CodePoint) : Prop := close.code = 93 ∨ close.code = 125

private theorem Closing.solid {close : CodePoint} (closing : Closing close) :
    isSpace close = false ∧ isNumberChar close = false ∧ close ≠ comma := by
  obtain ⟨code, bounded⟩ := close
  have notComma {code : Nat} (bounded : code < 1114112) (other : code ≠ 44) :
      CodePoint.mk code bounded ≠ comma := fun same => other (congrArg CodePoint.code same)
  rcases closing with rfl | rfl
  · exact ⟨rfl, rfl, notComma bounded (by decide)⟩
  · exact ⟨rfl, rfl, notComma bounded (by decide)⟩

section Lists

variable {α : Type} {item : Text → Option (α × Text)} {close : CodePoint} {between before : Text}
  {parts : List (α × Text)}

/-- The text of the elements, each after the first behind a comma. -/
def listed (between : Text) (parts : List (α × Text)) : Text :=
  List.intercalate (comma :: between) (parts.map Prod.snd)

private theorem readItems_listed (closing : Closing close) (clear : Spaces between)
    (clearBefore : Spaces before) (nonempty : parts ≠ [])
    (each : ∀ part ∈ parts, Reads item part.1 part.2) {fuel : Nat}
    (enough : parts.length ≤ fuel) (clearSpaces : Spaces spaces) (rest : Text) :
    readItems item close fuel (spaces ++ (listed between parts ++ (before ++ close :: rest))) =
      some (parts.map Prod.fst, rest) := by
  obtain ⟨solid, notNumber, notComma⟩ := closing.solid
  induction parts generalizing fuel spaces with
  | nil => exact absurd rfl nonempty
  | cons part others ih =>
      obtain ⟨fuel, rfl⟩ := Nat.exists_eq_add_one_of_ne_zero
        (Nat.ne_zero_of_lt (Nat.lt_of_lt_of_le (Nat.succ_pos _) enough))
      have front := each part List.mem_cons_self
      cases others with
      | nil =>
          have last : listed between [part] = part.2 := List.intercalate_singleton
          have ends : Ends (before ++ close :: rest) :=
            ends_append clearBefore (ends_cons notNumber)
          unfold readItems
          rw [last, front.reads spaces _ clearSpaces ends, Option.bind_eq_bind, Option.bind_some]
          simp only [skip_append clearBefore, skip_cons solid, if_neg notComma, if_true]
          rfl
      | cons second more =>
          have split : listed between (part :: second :: more) =
              part.2 ++ (comma :: between ++ listed between (second :: more)) := by
            unfold listed
            rw [List.map_cons, List.map_cons, List.intercalate_cons_cons, List.append_assoc]
          have ends : Ends (comma :: (between ++
              (listed between (second :: more) ++ (before ++ close :: rest)))) :=
            ends_cons (by decide)
          have later := ih (List.cons_ne_nil _ _)
            (fun other member => each other (List.mem_cons_of_mem _ member))
            (Nat.le_of_succ_le_succ enough) clear
          rw [split, List.append_assoc, List.append_assoc, List.cons_append]
          unfold readItems
          rw [front.reads spaces _ clearSpaces ends, Option.bind_eq_bind, Option.bind_some]
          simp only [skip_cons (show isSpace comma = false by decide), if_true]
          rw [later]
          rfl

private theorem length_le_listed (between : Text) (parts : List (α × Text)) :
    parts.length ≤ (listed between parts).length + 1 := by
  induction parts with
  | nil => exact Nat.zero_le _
  | cons part others ih =>
      cases others with
      | nil => exact Nat.le_add_left 1 _
      | cons second more =>
          unfold listed at ih ⊢
          rw [List.map_cons, List.map_cons, List.intercalate_cons_cons]
          simp only [List.length_append, List.length_cons, List.map_cons] at ih ⊢
          omega

/-- The elements in their brackets, after the opening one. -/
theorem readList_listed {inside : Text} (closing : Closing close) (clearInside : Spaces inside)
    (clear : Spaces between) (clearBefore : Spaces before) (nonempty : parts ≠ [])
    (each : ∀ part ∈ parts, Reads item part.1 part.2) (rest : Text) :
    readList item close (inside ++ (listed between parts ++ (before ++ close :: rest))) =
      some (parts.map Prod.fst, rest) := by
  obtain ⟨part, others, rfl⟩ := List.exists_cons_of_ne_nil nonempty
  obtain ⟨c, more, same, solid, notBracket, notBrace⟩ := (each part List.mem_cons_self).begins
  have opens : ∃ after, listed between (part :: others) = c :: after := by
    unfold listed
    cases others with
    | nil => exact ⟨more, List.intercalate_singleton.trans same⟩
    | cons second others =>
        rw [List.map_cons, List.map_cons, List.intercalate_cons_cons, same]
        exact ⟨_, rfl⟩
  obtain ⟨after, starts⟩ := opens
  have notClose : c ≠ close := by
    rintro rfl
    exact closing.elim notBracket notBrace
  have enough : (part :: others).length ≤
      (inside ++ (listed between (part :: others) ++ (before ++ close :: rest))).length := by
    have shorter := length_le_listed between (part :: others)
    rw [List.length_append, List.length_append, List.length_append, List.length_cons]
    rw [List.length_cons] at shorter ⊢
    omega
  have items := readItems_listed closing clear clearBefore nonempty each enough clearInside rest
  unfold readList
  rw [items, skip_append clearInside, starts, List.cons_append, skip_cons solid]
  exact if_neg notClose

end Lists

section Plains

private theorem head_of_isNumber {token : Text} (isNumber : isNumber token = true) :
    ∃ c more, token = c :: more ∧ (c.code = 45 ∨ isDigit c = true) := by
  cases token with
  | nil => exact absurd isNumber (by decide)
  | cons c more =>
      refine ⟨c, more, rfl, ?_⟩
      by_contra other
      obtain ⟨notMinus, notDigit⟩ := not_or.mp other
      have notZero : c.code ≠ 48 := by
        intro zero
        apply notDigit
        unfold isDigit
        rw [zero]
        rfl
      unfold JsonText.isNumber integer? at isNumber
      simp only [if_neg notMinus, if_neg notZero, if_neg notDigit] at isNumber
      exact Bool.false_ne_true isNumber

private theorem no_word {c : CodePoint} (starts : c.code = 45 ∨ isDigit c = true) (more : Text) :
    [Plain.null, .boolean true, .boolean false].find? (fun plain =>
      (word plain).isPrefixOf (c :: more)) = none := by
  have other (first : CodePoint) (letter : 58 ≤ first.code) (tail : Text) :
      ¬ (first :: tail).isPrefixOf (c :: more) = true := by
    intro covers
    have same := (List.cons_prefix_cons.mp (List.isPrefixOf_iff_prefix.mp covers)).1
    subst same
    rcases starts with minus | digit
    · omega
    · unfold isDigit at digit
      simp only [Bool.and_eq_true, decide_eq_true_eq] at digit
      omega
  apply List.find?_eq_none.mpr
  intro plain member
  simp only [List.mem_cons, List.not_mem_nil, or_false] at member
  rcases member with rfl | rfl | rfl
  · exact other 'n' (by decide) _
  · exact other 't' (by decide) _
  · exact other 'f' (by decide) _

private theorem Ends.takeWhile (ends : Ends rest) :
    rest.takeWhile isNumberChar = [] ∧ rest.dropWhile isNumberChar = rest := by
  cases rest with
  | nil => exact ⟨rfl, rfl⟩
  | cons c more =>
      have stop : ¬ isNumberChar c = true := by
        rw [ends c rfl]
        exact Bool.false_ne_true
      exact ⟨List.takeWhile_cons_of_neg stop, List.dropWhile_cons_of_neg stop⟩

private theorem readPlain_word {plain : Plain} (printable : Printable (.scalar plain))
    (ends : Ends rest) : readPlain (word plain ++ rest) = some (plain, rest) := by
  cases printable with
  | null => exact rfl
  | boolean value =>
      cases value
      · exact rfl
      · exact rfl
  | @number token isNumber all =>
      obtain ⟨taken, dropped⟩ := ends.takeWhile
      have whole : (token ++ rest).takeWhile isNumberChar = token := by
        rw [List.takeWhile_append_of_pos all, taken, List.append_nil]
      have left : (token ++ rest).dropWhile isNumberChar = rest := by
        rw [List.dropWhile_append_of_pos all, dropped]
      have noWord : [Plain.null, .boolean true, .boolean false].find? (fun plain =>
          (word plain).isPrefixOf (token ++ rest)) = none := by
        obtain ⟨c, more, rfl, starts⟩ := head_of_isNumber isNumber
        exact no_word starts _
      change readPlain (token ++ rest) = _
      unfold readPlain
      rw [noWord, whole, left]
      exact if_pos isNumber

end Plains

section Values

variable {style : Style}

private theorem begins_word {plain : Plain} (printable : Printable (.scalar plain)) :
    ∃ c more, word plain = c :: more ∧ isSpace c = false ∧ c ≠ quote ∧ c ≠ bracket ∧
      c ≠ brace ∧ c.code ≠ 93 ∧ c.code ≠ 125 := by
  cases printable with
  | null => exact ⟨'n', _, rfl, by decide⟩
  | boolean value =>
      cases value
      · exact ⟨'f', _, rfl, by decide⟩
      · exact ⟨'t', _, rfl, by decide⟩
  | @number token isNumber all =>
      obtain ⟨c, more, rfl, starts⟩ := head_of_isNumber isNumber
      have range : c.code = 45 ∨ 48 ≤ c.code ∧ c.code ≤ 57 := by
        apply starts.imp_right
        intro digit
        unfold isDigit at digit
        simpa only [Bool.and_eq_true, decide_eq_true_eq] using digit
      have notSpace : isSpace c = false := by
        unfold isSpace
        simp only [Bool.or_eq_false_iff, beq_eq_false_iff_ne]
        omega
      have other {special : CodePoint} (away : special.code < 45 ∨ 57 < special.code) :
          c ≠ special := by
        rintro rfl
        omega
      exact ⟨c, more, rfl, notSpace, other (by decide), other (by decide), other (by decide),
        by omega, by omega⟩

private theorem reads_scalar {plain : Plain} (printable : Printable (.scalar plain)) (fuel : Nat) :
    Reads (readValue (fuel + 1)) (.scalar plain) (word plain) := by
  obtain ⟨c, more, same, solid, notQuote, notOpen, notBrace, notClose, notEnd⟩ :=
    begins_word printable
  refine ⟨⟨c, more, same, solid, notClose, notEnd⟩, ?_⟩
  intro spaces rest clear ends
  have read := readPlain_word printable ends
  unfold readValue
  rw [skip_append clear]
  rw [same, List.cons_append] at read ⊢
  rw [skip_cons solid]
  simp only [if_neg notQuote, if_neg notOpen, if_neg notBrace]
  rw [read]
  rfl

private theorem quoted_append (style : Style) (value rest : Text) :
    style.quoted value ++ rest = quote :: (value.flatMap style.escape ++ quote :: rest) := by
  unfold Style.quoted
  rw [List.append_assoc]
  rfl

private theorem readValue_string (fuel : Nat) {document inner : Text}
    (opens : skip document = quote :: inner) : readValue (fuel + 1) document =
      (readString (inner.length + 1) inner).map fun read => (.string read.1, read.2) := by
  unfold readValue
  rw [opens]
  exact if_pos rfl

private theorem readValue_array (fuel : Nat) {document inner : Text}
    (opens : skip document = bracket :: inner) : readValue (fuel + 1) document =
      (readList (readValue fuel) ']' inner).map fun read => (.array read.1, read.2) := by
  unfold readValue
  rw [opens]
  exact (if_neg (by decide)).trans (if_pos rfl)

private theorem readValue_object (fuel : Nat) {document inner : Text}
    (opens : skip document = brace :: inner) : readValue (fuel + 1) document =
      (readList (readMember (readValue fuel)) '}' inner).map
        fun read => (.object read.1, read.2) := by
  unfold readValue
  rw [opens]
  exact (if_neg (by decide)).trans ((if_neg (by decide)).trans (if_pos rfl))

private theorem reads_string (sound : style.Sound) {value : Text} (clean : Clean value)
    (fuel : Nat) :
    Reads (readValue (fuel + 1)) (.string value) (style.quoted value) := by
  refine ⟨⟨quote, _, rfl, by decide⟩, ?_⟩
  intro spaces rest clear _
  have read := readString_quoted sound.escapes clean rest
  have opens : skip (spaces ++ (style.quoted value ++ rest)) =
      quote :: (value.flatMap style.escape ++ quote :: rest) := by
    rw [skip_append clear, quoted_append]
    exact skip_cons (by decide)
  rw [readValue_string fuel opens, read]
  rfl

private theorem reads_member (sound : style.Sound) {key part : Text} {value : Json Plain}
    {fuel : Nat}
    (clean : Clean key) (reads : Reads (readValue fuel) value part) :
    Reads (readMember (readValue fuel)) (key, value)
      (style.quoted key ++ colon :: style.value ++ part) := by
  refine ⟨⟨quote, _, rfl, by decide⟩, ?_⟩
  intro spaces rest clear ends
  have inner := reads.reads style.value rest sound.value ends
  have keyRead := readString_quoted sound.escapes clean (colon :: (style.value ++ (part ++ rest)))
  have opens : skip (spaces ++ (style.quoted key ++ colon :: style.value ++ part ++ rest)) =
      quote :: (key.flatMap style.escape ++ quote :: colon :: (style.value ++ (part ++ rest))) := by
    rw [skip_append clear, List.append_assoc, List.append_assoc, quoted_append]
    exact skip_cons (by decide)
  have named : skip (colon :: (style.value ++ (part ++ rest))) =
      colon :: (style.value ++ (part ++ rest)) := skip_cons (by decide)
  unfold readMember
  rw [opens]
  simp only [if_true]
  rw [keyRead, Option.bind_eq_bind, Option.bind_some]
  simp only [named, if_true]
  rw [inner]
  rfl

private theorem length_le_of_mem (between : Text) {part : Text} {parts : List Text}
    (member : part ∈ parts) :
    part.length ≤ (List.intercalate (comma :: between) parts).length := by
  induction parts with
  | nil => cases member
  | cons first others ih =>
      cases others with
      | nil =>
          rw [List.intercalate_singleton, List.mem_singleton.mp member]
      | cons second more =>
          rw [List.intercalate_cons_cons, List.length_append, List.length_append]
          rcases List.mem_cons.mp member with rfl | later
          · omega
          · have shorter := ih later
            omega

/-- The list in its brackets, if its elements are read. -/
theorem readList_bracketed (sound : style.Sound) {α : Type} {item : Text → Option (α × Text)}
    (opening : CodePoint) {close : CodePoint} (depth : Nat) (closing : Closing close)
    (parts : List (α × Text)) (each : ∀ part ∈ parts, Reads item part.1 part.2) (rest : Text) :
    ∃ inner, style.bracketed opening close depth (parts.map Prod.snd) ++ rest = opening :: inner ∧
      readList item close inner = some (parts.map Prod.fst, rest) := by
  by_cases empty : parts = []
  · subst empty
    refine ⟨close :: rest, rfl, ?_⟩
    unfold readList
    rw [skip_cons closing.solid.1]
    exact if_pos rfl
  · have read := readList_listed closing (sound.inside depth) (sound.between depth)
      (sound.before depth) empty each rest
    refine ⟨_, ?_, read⟩
    have nonempty : parts.map Prod.snd ≠ [] := fun same => empty (List.map_eq_nil_iff.mp same)
    unfold Style.bracketed
    rw [if_neg nonempty]
    simp only [List.cons_append, List.append_assoc, List.nil_append]
    rfl

private theorem printItems_eq (style : Style) (depth : Nat) (items : List (Json Plain)) :
    style.printItems depth items = items.map (style.print depth) := by
  induction items with
  | nil => rfl
  | cons value more ih =>
      unfold Style.printItems
      rw [ih]
      rfl

private theorem printMembers_eq (style : Style) (depth : Nat) (members : List (Text × Json Plain)) :
    style.printMembers depth members = members.map fun member =>
      style.quoted member.1 ++ colon :: style.value ++ style.print depth member.2 := by
  induction members with
  | nil => rfl
  | cons member more ih =>
      unfold Style.printMembers
      rw [ih]
      rfl

private theorem length_bracketed (style : Style) (opening close : CodePoint) (depth : Nat)
    {parts : List Text} {part : Text} (member : part ∈ parts) :
    part.length + 2 ≤ (style.bracketed opening close depth parts).length := by
  have shorter := length_le_of_mem (style.between depth) member
  unfold Style.bracketed
  rw [if_neg (List.ne_nil_of_mem member)]
  simp only [List.length_append, List.length_cons, List.length_nil]
  omega

private theorem two_le_bracketed (style : Style) (opening close : CodePoint) (depth : Nat)
    (parts : List Text) : 2 ≤ (style.bracketed opening close depth parts).length := by
  unfold Style.bracketed
  split
  · exact Nat.le_refl 2
  · simp only [List.length_append, List.length_cons, List.length_nil]
    omega

/-- A reader that reads a list after its opening bracket. -/
theorem reads_bracketed (sound : style.Sound) {α : Type} {item : Text → Option (α × Text)}
    {opening close : CodePoint} (depth : Nat) (closing : Closing close)
    (solid : isSpace opening = false ∧ opening.code ≠ 93 ∧ opening.code ≠ 125)
    (parts : List (α × Text)) (each : ∀ part ∈ parts, Reads item part.1 part.2)
    {reader : Text → Option (Json Plain × Text)} {value : Json Plain}
    (unfolds : ∀ document inner rest, skip document = opening :: inner →
      readList item close inner = some (parts.map Prod.fst, rest) →
      reader document = some (value, rest)) :
    Reads reader value (style.bracketed opening close depth (parts.map Prod.snd)) := by
  have split (rest : Text) := readList_bracketed sound opening depth closing parts each rest
  constructor
  · obtain ⟨inner, same, -⟩ := split []
    rw [List.append_nil] at same
    exact ⟨opening, inner, same, solid⟩
  · intro spaces rest clear _
    obtain ⟨inner, same, read⟩ := split rest
    apply unfolds _ inner rest _ read
    rw [skip_append clear, same]
    exact skip_cons solid.1

private theorem print_scalar (style : Style) (depth : Nat) (plain : Plain) :
    style.print depth (.scalar plain) = word plain := by
  unfold Style.print
  rfl

theorem print_string (style : Style) (depth : Nat) (value : Text) :
    style.print depth (.string value) = style.quoted value := by
  unfold Style.print
  rfl

private theorem print_array (style : Style) (depth : Nat) (items : List (Json Plain)) :
    style.print depth (.array items) = style.bracketed bracket ']' depth
      ((items.map fun value => (value, style.print (depth + 1) value)).map Prod.snd) := by
  have parts : (items.map fun value => (value, style.print (depth + 1) value)).map Prod.snd =
      style.printItems (depth + 1) items := by
    rw [printItems_eq, List.map_map]
    rfl
  rw [parts]
  unfold Style.print
  rfl

/-- The text of a member. -/
def memberText (style : Style) (depth : Nat) (member : Text × Json Plain) : Text :=
  style.quoted member.1 ++ colon :: style.value ++ style.print depth member.2

theorem print_object (style : Style) (depth : Nat) (members : List (Text × Json Plain)) :
    style.print depth (.object members) = style.bracketed brace '}' depth
      ((members.map fun member => (member, memberText style (depth + 1) member)).map
        Prod.snd) := by
  have parts : (members.map fun member => (member, memberText style (depth + 1) member)).map
      Prod.snd = style.printMembers (depth + 1) members := by
    rw [printMembers_eq, List.map_map]
    rfl
  rw [parts]
  unfold Style.print
  rfl

private theorem mem_texts {α : Type} {parts : List (α × Text)} {part : α × Text}
    (member : part ∈ parts) :
    part.2 ∈ parts.map Prod.snd := List.mem_map_of_mem member

private theorem map_fst_pair {α β : Type} (form : α → β) (values : List α) :
    (values.map fun value => (value, form value)).map Prod.fst = values := by
  rw [List.map_map]
  exact List.map_id' values

private theorem reads_scalar_print {plain : Plain} (printable : Printable (.scalar plain))
    (depth fuel : Nat) (enough : (style.print depth (.scalar plain)).length ≤ fuel) :
    Reads (readValue fuel) (.scalar plain) (style.print depth (.scalar plain)) := by
  rw [print_scalar] at enough ⊢
  obtain ⟨c, more, starts, -⟩ := begins_word printable
  rw [starts, List.length_cons] at enough
  obtain ⟨fuel, rfl⟩ := Nat.exists_eq_add_of_le' (Nat.le_of_add_left_le enough)
  exact reads_scalar printable fuel

/-- A printable document is read back in front of any text that ends it. -/
theorem reads_print (sound : style.Sound) {value : Json Plain} (printable : Printable value) :
    ∀ depth fuel, (style.print depth value).length ≤ fuel →
      Reads (readValue fuel) value (style.print depth value) := by
  induction printable with
  | null => exact reads_scalar_print .null
  | boolean value => exact reads_scalar_print (.boolean value)
  | number isNumber all => exact reads_scalar_print (.number isNumber all)
  | @string value clean =>
      intro depth fuel enough
      rw [print_string] at enough ⊢
      have positive : 1 ≤ (style.quoted value).length := Nat.succ_pos _
      obtain ⟨fuel, rfl⟩ := Nat.exists_eq_add_of_le' (positive.trans enough)
      exact reads_string sound clean fuel
  | @array items each ih =>
      intro depth fuel enough
      rw [print_array] at enough ⊢
      have two := two_le_bracketed style bracket ']' depth
        ((items.map fun value => (value, style.print (depth + 1) value)).map Prod.snd)
      obtain ⟨fuel, rfl⟩ := Nat.exists_eq_add_of_le' (show 1 ≤ fuel by omega)
      have parts : ∀ part ∈ items.map fun value => (value, style.print (depth + 1) value),
          Reads (readValue fuel) part.1 part.2 := by
        intro part member
        have longer := length_bracketed style bracket ']' depth (mem_texts member)
        obtain ⟨value, listed, rfl⟩ := List.mem_map.mp member
        have shorter : (style.print (depth + 1) value).length ≤ fuel := by
          change (style.print (depth + 1) value).length + 2 ≤ _ at longer
          omega
        exact ih value listed (depth + 1) fuel shorter
      apply reads_bracketed sound depth (.inl rfl) (by decide) _ parts
      intro document inner rest opens read
      rw [readValue_array fuel opens, read, map_fst_pair]
      rfl
  | @object members names each ih =>
      intro depth fuel enough
      rw [print_object] at enough ⊢
      have two := two_le_bracketed style brace '}' depth
        ((members.map fun member => (member, memberText style (depth + 1) member)).map Prod.snd)
      obtain ⟨fuel, rfl⟩ := Nat.exists_eq_add_of_le' (show 1 ≤ fuel by omega)
      have parts : ∀ part ∈ members.map fun member => (member, memberText style (depth + 1) member),
          Reads (readMember (readValue fuel)) part.1 part.2 := by
        intro part member
        have longer := length_bracketed style brace '}' depth (mem_texts member)
        obtain ⟨entry, listed, rfl⟩ := List.mem_map.mp member
        have shorter : (style.print (depth + 1) entry.2).length ≤ fuel := by
          have whole : (memberText style (depth + 1) entry).length =
              (style.quoted entry.1 ++ colon :: style.value).length +
                (style.print (depth + 1) entry.2).length := List.length_append
          change (memberText style (depth + 1) entry).length + 2 ≤ _ at longer
          omega
        exact reads_member sound (names entry listed) (ih entry listed (depth + 1) fuel shorter)
      apply reads_bracketed sound depth (.inr rfl) (by decide) _ parts
      intro document inner rest opens read
      rw [readValue_object fuel opens, read, map_fst_pair]
      rfl

end Values

/-- **A printed document is read back**, also with spaces around it. -/
theorem read?_print {style : Style} (sound : style.Sound) {value : Json Plain}
    (printable : Printable value) (depth : Nat) {spaces after : Text} (clear : Spaces spaces)
    (clearAfter : Spaces after) :
    read? (spaces ++ (style.print depth value ++ after)) = some value := by
  have ends : Ends after := by
    have ended : Ends (after ++ []) := ends_append clearAfter nofun
    rwa [List.append_nil] at ended
  have enough : (style.print depth value).length ≤
      (spaces ++ (style.print depth value ++ after)).length + 1 := by
    rw [List.length_append, List.length_append]
    omega
  have read := (reads_print sound printable depth _ enough).reads spaces after clear ends
  have done : skip after = [] := by
    have dropped : skip (after ++ []) = skip [] := skip_append clearAfter
    rwa [List.append_nil] at dropped
  unfold read?
  rw [read]
  exact if_pos done

end Reading

section Assignment

/-- An assignment keeps a document printable when what it assigns is. -/
theorem Printable.modifyAt? {change : Json Plain → Option (Json Plain)} {path : List Text}
    {before after : Json Plain} (printable : Printable before)
    (modified : before.modifyAt? change path = some after)
    (keeps : ∀ old new, before.getAt? path = some old → Printable old → change old = some new →
      Printable new) : Printable after := by
  induction path generalizing before after with
  | nil => exact keeps before after rfl printable modified
  | cons key path hypothesis =>
      unfold Json.modifyAt? at modified
      obtain ⟨members, done, rfl⟩ := Option.map_eq_some_iff.mp modified
      have names : ∀ member ∈ before.members, Clean member.1 := by
        cases printable with
        | object names each => exact names
        | _ => exact fun _ none => absurd none List.not_mem_nil
      have each : ∀ member ∈ before.members, Printable member.2 := by
        cases printable with
        | object names each => exact each
        | _ => exact fun _ none => absurd none List.not_mem_nil
      have assigned {member : Text × Json Plain} (present : member ∈ members) :
          Clean member.1 ∧ Printable member.2 := by
        rcases Json.mem_modifyMember? done present with same | ⟨old, found, named, deeper⟩
        · exact ⟨names member same, each member same⟩
        · have inside : (key, old) ∈ before.members := by
            obtain ⟨front, behind, parts, -⟩ := List.lookup_eq_some_iff.mp found
            rw [parts]
            exact List.mem_append_right _ List.mem_cons_self
          refine ⟨named ▸ names _ inside, hypothesis (each _ inside) deeper ?_⟩
          intro value value' held
          apply keeps value value'
          unfold Json.getAt?
          rw [found]
          exact held
      exact .object (fun _ present => (assigned present).1) fun _ present => (assigned present).2

theorem clean_append {first second : Text} (one : Clean first) (other : Clean second) :
    Clean (first ++ second) := fun c member => (List.mem_append.mp member).elim (one c) (other c)

end Assignment

section Characters

variable {allowed : CodePoint → Prop} {style : Style}

/-- Visible ASCII. -/
def Visible (c : CodePoint) : Prop := 32 ≤ c.code ∧ c.code ≤ 126

instance (c : CodePoint) : Decidable (Visible c) := inferInstanceAs (Decidable (_ ∧ _))

private theorem visible_hexDigit (value : Nat) : Visible (hexDigit (value % 16)) := by
  have all : ∀ digit < 16, 32 ≤ (hexDigit digit).code ∧ (hexDigit digit).code ≤ 126 := by decide
  exact all _ (Nat.mod_lt _ (by decide))

/-- A numeric escape is visible. -/
theorem visible_unicode (code : Nat) : ∀ c ∈ unicode code, Visible c := by
  intro c member
  unfold unicode at member
  simp only [List.mem_cons, List.not_mem_nil, or_false] at member
  rcases member with rfl | rfl | rfl | rfl | rfl | rfl
  · exact ⟨by decide, by decide⟩
  · exact ⟨by decide, by decide⟩
  all_goals exact visible_hexDigit _

/-- An escape of one letter is visible. -/
theorem visible_shortEscape {c : CodePoint} {escaped : Text}
    (short : shortEscape? c = some escaped) : ∀ d ∈ escaped, Visible d := by
  obtain ⟨entry, found, rfl⟩ := Option.map_eq_some_iff.mp short
  have listed : ∀ entry ∈ letters, 32 ≤ entry.1.code ∧ entry.1.code ≤ 126 := by decide
  intro d member
  rcases List.mem_cons.mp member with rfl | last
  · exact ⟨by decide, by decide⟩
  · rw [List.mem_singleton.mp last]
    exact listed entry (List.mem_of_find?_eq_some found)

/-- The escape that leaves only visible characters makes no others. -/
theorem visible_asciiEscape (c : CodePoint) : ∀ d ∈ asciiEscape c, Visible d := by
  unfold asciiEscape
  split
  · rename_i escaped short
    exact visible_shortEscape short
  · split
    · rename_i visible
      intro d member
      rwa [List.mem_singleton.mp member]
    · split
      · exact visible_unicode _
      · intro d member
        exact (List.mem_append.mp member).elim (visible_unicode _ d) (visible_unicode _ d)

/-- The characters of words and numbers are visible. -/
theorem visible_of_word {c : CodePoint}
    (word : isNumberChar c = true ∨ 97 ≤ c.code ∧ c.code ≤ 122) : Visible c := by
  unfold Visible
  rcases word with number | letter
  · unfold isNumberChar isDigit at number
    simp only [Bool.or_eq_true, Bool.and_eq_true, decide_eq_true_eq, beq_iff_eq] at number
    omega
  · omega

/-- A character that is neither a control character nor a surrogate. -/
def Spelled (c : CodePoint) : Prop := 32 ≤ c.code ∧ ¬ c.IsSurrogate

instance (c : CodePoint) : Decidable (Spelled c) := inferInstanceAs (Decidable (_ ∧ _))

theorem Visible.spelled {c : CodePoint} (visible : Visible c) : Spelled c := by
  unfold Visible at visible
  unfold Spelled CodePoint.IsSurrogate
  omega

/-- The escape of control characters leaves none. -/
theorem spelled_controlEscape {c : CodePoint} (scalar : ¬ c.IsSurrogate) :
    ∀ d ∈ controlEscape c, Spelled d := by
  unfold controlEscape
  split
  · rename_i escaped short
    exact fun d member => (visible_shortEscape short d member).spelled
  · split
    · exact fun d member => (visible_unicode _ d member).spelled
    · rename_i high
      intro d member
      rw [List.mem_singleton.mp member]
      exact ⟨Nat.le_of_not_lt high, scalar⟩

/-- A style that writes only some characters, besides those of words and numbers. -/
structure Style.Writes (style : Style) (allowed : CodePoint → Prop) : Prop where
  marks : ∀ c ∈ [quote, comma, colon, bracket, brace, ']', '}'], allowed c
  words : ∀ c, isNumberChar c = true ∨ 97 ≤ c.code ∧ c.code ≤ 122 → allowed c
  escape : ∀ c, ¬ c.IsSurrogate → ∀ d ∈ style.escape c, allowed d
  inside : ∀ depth, ∀ c ∈ style.inside depth, allowed c
  between : ∀ depth, ∀ c ∈ style.between depth, allowed c
  before : ∀ depth, ∀ c ∈ style.before depth, allowed c
  value : ∀ c ∈ style.value, allowed c

private theorem all_append {first second : Text} (one : ∀ c ∈ first, allowed c)
    (other : ∀ c ∈ second, allowed c) : ∀ c ∈ first ++ second, allowed c := by
  intro c member
  exact (List.mem_append.mp member).elim (one c) (other c)

private theorem all_intercalate {separator : Text} {parts : List Text}
    (between : ∀ c ∈ separator, allowed c) (each : ∀ part ∈ parts, ∀ c ∈ part, allowed c) :
    ∀ c ∈ List.intercalate separator parts, allowed c := by
  induction parts with
  | nil => exact fun c member => absurd member List.not_mem_nil
  | cons part others ih =>
      cases others with
      | nil =>
          rw [List.intercalate_singleton]
          exact each part List.mem_cons_self
      | cons second more =>
          rw [List.intercalate_cons_cons]
          apply all_append (all_append (each part List.mem_cons_self) between)
          exact ih fun other member => each other (List.mem_cons_of_mem _ member)

private theorem Style.Writes.mark (writes : style.Writes allowed) {c : CodePoint}
    (listed : c ∈ [quote, comma, colon, bracket, brace, ']', '}']) : ∀ d ∈ [c], allowed d := by
  intro d member
  rw [List.mem_singleton.mp member]
  exact writes.marks c listed

private theorem Style.Writes.quoted (writes : style.Writes allowed) {value : Text}
    (clean : Clean value) :
    ∀ c ∈ style.quoted value, allowed c := by
  have escaped : ∀ c ∈ value.flatMap style.escape, allowed c := by
    intro c member
    obtain ⟨d, inValue, inEscape⟩ := List.mem_flatMap.mp member
    exact writes.escape d (clean d inValue) c inEscape
  have mark : ∀ c ∈ [quote], allowed c := writes.mark (by decide)
  unfold Style.quoted
  exact all_append (all_append mark escaped) mark

private theorem Style.Writes.bracketed (writes : style.Writes allowed) {opening close : CodePoint}
    (opens : allowed opening) (closes : allowed close) (depth : Nat) {parts : List Text}
    (each : ∀ part ∈ parts, ∀ c ∈ part, allowed c) :
    ∀ c ∈ style.bracketed opening close depth parts, allowed c := by
  have single {c : CodePoint} (ok : allowed c) : ∀ d ∈ [c], allowed d := by
    intro d member
    rwa [List.mem_singleton.mp member]
  unfold Style.bracketed
  split
  · exact all_append (single opens) (single closes)
  · have separator : ∀ c ∈ comma :: style.between depth, allowed c :=
      all_append (writes.mark (by decide)) (writes.between depth)
    have items := all_intercalate separator each
    exact all_append (all_append (all_append (all_append (single opens) (writes.inside depth))
      items) (writes.before depth)) (single closes)

private theorem Style.Writes.word (writes : style.Writes allowed) {plain : Plain}
    (printable : Printable (.scalar plain)) : ∀ c ∈ word plain, allowed c := by
  have letters {literal : Text} (small : ∀ c ∈ literal, 97 ≤ c.code ∧ c.code ≤ 122) :
      ∀ c ∈ literal, allowed c := fun c member => writes.words c (.inr (small c member))
  cases printable with
  | null => exact letters (by decide)
  | boolean value =>
      cases value
      · exact letters (by decide)
      · exact letters (by decide)
  | number isNumber all => exact fun c member => writes.words c (.inl (all c member))

/-- The characters of a document are those that its style writes. -/
theorem Style.Writes.print (writes : style.Writes allowed) {value : Json Plain}
    (printable : Printable value) : ∀ depth, ∀ c ∈ style.print depth value, allowed c := by
  have scalar {plain : Plain} (ok : Printable (.scalar plain)) (depth : Nat) :
      ∀ c ∈ style.print depth (.scalar plain), allowed c := by
    rw [print_scalar]
    exact writes.word ok
  induction printable with
  | null => exact scalar .null
  | boolean value => exact scalar (.boolean value)
  | number isNumber all => exact scalar (.number isNumber all)
  | string clean =>
      intro depth
      rw [print_string]
      exact writes.quoted clean
  | @array items each ih =>
      intro depth
      rw [print_array]
      apply writes.bracketed (writes.marks _ (by decide)) (writes.marks _ (by decide))
      intro part member
      obtain ⟨_, inParts, rfl⟩ := List.mem_map.mp member
      obtain ⟨value, listed, rfl⟩ := List.mem_map.mp inParts
      exact ih value listed (depth + 1)
  | @object members names each ih =>
      intro depth
      rw [print_object]
      apply writes.bracketed (writes.marks _ (by decide)) (writes.marks _ (by decide))
      intro part member
      obtain ⟨_, inParts, rfl⟩ := List.mem_map.mp member
      obtain ⟨entry, listed, rfl⟩ := List.mem_map.mp inParts
      have mark : ∀ c ∈ [colon], allowed c := writes.mark (by decide)
      have named := all_append (writes.quoted (names entry listed)) (all_append mark writes.value)
      exact all_append named (ih entry listed (depth + 1))

end Characters

section Numerals

/-- The natural number that a token is. -/
def natural? (token : Text) : Option Nat :=
  if token ≠ [] ∧ token.all isDigit = true then
    some (token.foldl (fun value c => value * 10 + (c.code - 48)) 0)
  else none

private theorem code_digitChar :
    ∀ digit < 10, (CodePoint.ofChar digit.digitChar).code = 48 + digit := by
  decide

private theorem isDigit_digitChar :
    ∀ digit < 10, isDigit (CodePoint.ofChar digit.digitChar) = true := by
  decide

/-- A number is the digits of its tenth and a last one. -/
theorem decimal_eq (value : Nat) : decimal value =
    if value < 10 then [CodePoint.ofChar value.digitChar]
    else decimal (value / 10) ++ [CodePoint.ofChar (value % 10).digitChar] := by
  unfold decimal
  rw [Nat.toDigits_eq_if (by decide)]
  split
  · rfl
  · rw [List.map_append, List.map_singleton]

/-- A number is written with digits that add up to it, and only zero starts with a zero. -/
theorem decimal_spec (value : Nat) :
    (∃ c more, decimal value = c :: more ∧ (c.code = 48 → more = [])) ∧
      (∀ c ∈ decimal value, isDigit c = true) ∧
      (decimal value).foldl (fun value c => value * 10 + (c.code - 48)) 0 = value := by
  induction value using Nat.strongRecOn with
  | ind value ih =>
      have last := code_digitChar (value % 10) (Nat.mod_lt _ (by decide))
      have isLast := isDigit_digitChar (value % 10) (Nat.mod_lt _ (by decide))
      rw [decimal_eq]
      split
      · rename_i small
        rw [Nat.mod_eq_of_lt small] at last isLast
        refine ⟨⟨_, [], rfl, fun _ => rfl⟩, ?_, ?_⟩
        · intro c member
          rwa [List.mem_singleton.mp member]
        · rw [List.foldl_cons, List.foldl_nil, last]
          omega
      · rename_i large
        obtain ⟨⟨c, more, starts, single⟩, digits, same⟩ := ih (value / 10) (by omega)
        refine ⟨⟨c, more ++ [_], by rw [starts]; rfl, ?_⟩, ?_, ?_⟩
        · intro zero
          rw [starts, single zero, List.foldl_cons, List.foldl_nil, zero] at same
          omega
        · exact all_append digits fun c member => by rwa [List.mem_singleton.mp member]
        · rw [List.foldl_append, same, List.foldl_cons, List.foldl_nil, last]
          omega

theorem natural?_decimal (value : Nat) : natural? (decimal value) = some value := by
  obtain ⟨⟨c, more, starts, -⟩, digits, same⟩ := decimal_spec value
  have nonempty : decimal value ≠ [] := by
    rw [starts]
    exact List.cons_ne_nil _ _
  unfold natural?
  rw [if_pos ⟨nonempty, List.all_eq_true.mpr digits⟩]
  exact congrArg some same

private theorem isNumberChar_of_isDigit {c : CodePoint} (digit : isDigit c = true) :
    isNumberChar c = true := by
  unfold isNumberChar
  rw [digit]
  rfl

private theorem dropWhile_of_all {token : Text} (all : ∀ c ∈ token, isDigit c = true) :
    token.dropWhile isDigit = [] := by
  have dropped : (token ++ []).dropWhile isDigit = [].dropWhile isDigit :=
    List.dropWhile_append_of_pos all
  rwa [List.append_nil] at dropped

theorem printable_decimal (value : Nat) : Printable (.scalar (.number (decimal value))) := by
  obtain ⟨⟨c, more, starts, single⟩, digits, -⟩ := decimal_spec value
  refine .number ?_ fun c member => isNumberChar_of_isDigit (digits c member)
  have rest : ∀ d ∈ more, isDigit d = true := by
    intro d member
    apply digits
    rw [starts]
    exact List.mem_cons_of_mem _ member
  have first : isDigit c = true := by
    apply digits
    rw [starts]
    exact List.mem_cons_self
  have notMinus : c.code ≠ 45 := by
    intro minus
    unfold isDigit at first
    rw [minus] at first
    exact absurd first (by decide)
  have whole : integer? (c :: more) = some [] := by
    change (if c.code = 48 then some more
      else if isDigit c then some (more.dropWhile isDigit) else none) = some []
    by_cases zero : c.code = 48
    · rw [if_pos zero, single zero]
    · rw [if_neg zero, if_pos first, dropWhile_of_all rest]
  change isNumber (decimal value) = true
  rw [starts]
  unfold isNumber
  simp only [if_neg notMinus, whole]
  rfl

end Numerals

end Foundation.JsonText
