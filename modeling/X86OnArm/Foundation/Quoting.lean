import X86OnArm.Foundation.Shell

/-! # Shell quoting

`quote` and `join` of Python's `shlex`. A quoted string is read back as one word
whose only field is the string, between any words, whatever it contains
(`Foundation.Shell.readsAs_quote`, `Foundation.Shell.wordFields_quotedWord`).
-/

namespace Foundation.Shell

/-- The characters `quote` leaves bare: ASCII letters, digits and some punctuation. -/
def safe : Text :=
  text "abcdefghijklmnopqrstuvwxyzABCDEFGHIJKLMNOPQRSTUVWXYZ0123456789_@%/+=:,.-"

/-- `value.replace("'", "'\"'\"'")`. -/
def escapeQuotes (value : Text) : Text :=
  value.flatMap fun c => if c = ('\'' : CodePoint) then text "'\"'\"'" else [c]

/-- `shlex.quote`. -/
def quote (value : Text) : Text :=
  if value = [] then text "''"
  else if ∀ c ∈ value, c ∈ safe then value
  else text "'" ++ escapeQuotes value ++ text "'"

/-- `shlex.join`. -/
def join (words : List Text) : Text := List.intercalate (text " ") (words.map quote)

/-- The word a quoted string is read as. -/
def quotedWord (value : Text) : Word :=
  if value = [] then [.null]
  else if ∀ c ∈ value, c ∈ safe then value.map .char
  else .null :: value.flatMap fun c =>
    if c = ('\'' : CodePoint) then [.char c, .null] else [.char c]

theorem ordinary_of_mem_safe {c : CodePoint} (member : c ∈ safe) : Ordinary c := by
  have checked : ∀ c ∈ safe, c ∉ special ∧ c ≠ (Char.ofNat 0 : CodePoint) := by decide
  exact checked c member

theorem lexFrom_escapeQuotes {value : Text} (nulFree : NulFree value) (word : Word)
    (words : List Word) (commands : List (List Word)) :
    lexFrom ⟨.single, some word, words, commands⟩ (escapeQuotes value) =
      some ⟨.single, some (word ++ value.flatMap fun c =>
        if c = ('\'' : CodePoint) then [.char c, .null] else [.char c]), words, commands⟩ := by
  induction value generalizing word with
  | nil => simp [escapeQuotes, lexFrom]
  | cons c rest ih =>
      have tailFree : NulFree rest := fun member => nulFree (List.mem_cons_of_mem _ member)
      have split : escapeQuotes (c :: rest) =
          (if c = ('\'' : CodePoint) then text "'\"'\"'" else [c]) ++ escapeQuotes rest := rfl
      rw [split, lexFrom_append, List.flatMap_cons]
      by_cases isQuote : c = ('\'' : CodePoint)
      · -- The quotation is closed, the quote is double-quoted, and it is reopened.
        subst isQuote
        have reopened : lexFrom ⟨.single, some word, words, commands⟩ (text "'\"'\"'") =
            some ⟨.single, some (word ++ [.char '\'', .null]), words, commands⟩ := by
          have appended : word ++ [.char '\'', .null] =
              (word ++ [Piece.char ('\'' : CodePoint)]) ++ [Piece.null] := by
            rw [List.append_assoc]
            rfl
          rw [appended]
          rfl
        rw [if_pos rfl, if_pos rfl, reopened, Option.bind_some, ih tailFree, List.append_assoc]
      · have nonzero : c ≠ (Char.ofNat 0 : CodePoint) := by
          rintro rfl
          exact nulFree List.mem_cons_self
        rw [if_neg isQuote, if_neg isQuote]
        change ((lexStep _ c).bind fun next => lexFrom next []).bind _ = _
        rw [lexStep_single isQuote nonzero]
        exact (ih tailFree _).trans (by rw [List.append_assoc])

/-- **Reading a quoted string.** Between two words, a quoted string is read to its
end as the single word `quotedWord` of it. -/
theorem readsAs_quote {value : Text} (nulFree : NulFree value) :
    ReadsAs (quote value) (quotedWord value) := by
  intro words commands
  unfold quote quotedWord
  by_cases empty : value = []
  · rw [if_pos empty, if_pos empty]
    rfl
  · rw [if_neg empty, if_neg empty]
    by_cases bare : ∀ c ∈ value, c ∈ safe
    · rw [if_pos bare, if_pos bare]
      exact lexFrom_ordinary_start (fun c member => ordinary_of_mem_safe (bare c member)) empty
        words commands
    · have opened : lexFrom ⟨.unquoted, none, words, commands⟩ (text "'") =
          some ⟨.single, some [.null], words, commands⟩ := rfl
      rw [if_neg bare, if_neg bare, List.append_assoc, lexFrom_append, opened, Option.bind_some,
        lexFrom_append, lexFrom_escapeQuotes nulFree]
      rfl

/-- The word a quoted string is read as has the string as its only field. -/
theorem wordFields_quotedWord (parameters : Parameters) (value : Text) :
    wordFields parameters (quotedWord value) = [value] := by
  unfold quotedWord
  by_cases empty : value = []
  · rw [if_pos empty, empty]
    rfl
  · rw [if_neg empty]
    by_cases bare : ∀ c ∈ value, c ∈ safe
    · rw [if_pos bare, wordFields_of_literal parameters (by simpa using empty)
        (by simp [Piece.isLiteral])]
      congr 1
      simp [literalText, List.flatMap_map]
    · rw [if_neg bare, wordFields_of_literal parameters (List.cons_ne_nil _ _)]
      · congr 1
        have contents : ∀ value : Text, literalText (value.flatMap fun c =>
            if c = ('\'' : CodePoint) then [.char c, .null] else [.char c]) = value := by
          intro value
          induction value with
          | nil => rfl
          | cons c rest ih =>
              unfold literalText at ih ⊢
              rw [List.flatMap_cons, List.flatMap_append, ih]
              split <;> rfl
        exact contents value
      · intro piece member
        rcases List.mem_cons.mp member with rfl | inside
        · rfl
        · obtain ⟨c, _, produced⟩ := List.mem_flatMap.mp inside
          split at produced
          · rcases List.mem_cons.mp produced with rfl | last
            · rfl
            · rw [List.mem_singleton.mp last]
              rfl
          · rw [List.mem_singleton.mp produced]
            rfl

/-- **Reading joined words.** A joined list at the end of a line ends the command
with the words of its elements, in order. -/
theorem lexFrom_join {values : List Text} (nonempty : values ≠ [])
    (nulFree : ∀ value ∈ values, NulFree value) (words : List Word)
    (commands : List (List Word)) (remaining : Text) :
    lexFrom ⟨.unquoted, none, words, commands⟩
        (join values ++ ('\n' : CodePoint) :: remaining) =
      lexFrom ⟨.unquoted, none, [], commands ++ [words ++ values.map quotedWord]⟩ remaining := by
  cases values with
  | nil => exact absurd rfl nonempty
  | cons first rest =>
      exact lexFrom_intercalate (fun value member => readsAs_quote (nulFree value member))
        (fun words => lexFrom ⟨.unquoted, none, [], commands ++ [words]⟩ remaining)
        (fun last words => lexFrom_newline last words commands remaining) words

theorem commandFields_append (parameters : Parameters) (first second : List Word) :
    commandFields parameters (first ++ second) =
      commandFields parameters first ++ commandFields parameters second :=
  List.flatMap_append

/-- Quoted words expand to the quoted strings: none is split, merged, dropped or
expanded. -/
theorem commandFields_quoted (parameters : Parameters) (values : List Text) :
    commandFields parameters (values.map quotedWord) = values := by
  unfold commandFields
  induction values with
  | nil => rfl
  | cons value rest ih =>
      rw [List.map_cons, List.flatMap_cons, wordFields_quotedWord, ih, List.singleton_append]

end Foundation.Shell
