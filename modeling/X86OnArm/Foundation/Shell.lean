import X86OnArm.Foundation.Text
import X86OnArm.Foundation.Dict

/-! # A fragment of the POSIX shell command language

Token recognition, quoting, the expansions `"${NAME-}"`, `"$1"` and `"${@:2}"`,
and the builtins `set`, `cd` and `exec`, together with the utilities `env` and
`bash -c` that a script hands its words to. The fragment is closed by refusal:
the lexer fails on every character whose meaning it does not model (operators,
globs, tildes, comments, backslashes, unquoted expansions), and execution fails
on every command, option or operand it does not model, so a result states what
the full language does with the script.
-/

namespace Foundation.Shell

/-- One part of a word, after quote removal. -/
inductive Piece where
  | char (c : CodePoint)
  /-- An empty quotation: it contributes no character, but makes a field. -/
  | null
  /-- `"${name-}"`. -/
  | parameterOrEmpty (name : Text)
  /-- `"$index"`. -/
  | positional (index : Nat)
  /-- `"${@:index}"`. -/
  | positionalFrom (index : Nat)
  deriving DecidableEq

abbrev Word := List Piece

inductive Mode where
  | unquoted
  | single
  /-- Inside double quotes; whether nothing was read since they were opened. -/
  | double (fresh : Bool)
  /-- Inside double quotes, after `$`. -/
  | dollar
  /-- Inside double quotes, after `${` and the text read since. -/
  | brace (body : Text)
  deriving DecidableEq

/-- The lexer's position: the word being read, the finished words of the current
command and the finished commands. -/
structure LexState where
  mode : Mode
  word : Option Word
  words : List Word
  commands : List (List Word)
  deriving DecidableEq

namespace LexState

def start : LexState := ⟨.unquoted, none, [], []⟩

def push (state : LexState) (piece : Piece) : LexState :=
  { state with word := some (state.word.getD [] ++ [piece]) }

def endWord (state : LexState) : LexState :=
  match state.word with
  | none => state
  | some word => { state with word := none, words := state.words ++ [word] }

def endCommand (state : LexState) : LexState :=
  if state.endWord.words = [] then state.endWord
  else { state.endWord with words := [], commands := state.commands ++ [state.endWord.words] }

end LexState

/-- Characters that are not literal when unquoted, or not always. -/
def special : Text := text "|&;<>()$`\\\"' \t\n*?[]^!#~\x7b\x7d"

def digits : Text := text "0123456789"

def nameStart : Text := text "abcdefghijklmnopqrstuvwxyzABCDEFGHIJKLMNOPQRSTUVWXYZ_"

/-- A name of the shell grammar. -/
def isName : Text → Bool
  | [] => false
  | first :: rest => first ∈ nameStart ∧ ∀ c ∈ rest, c ∈ nameStart ++ digits

def digitValue (c : CodePoint) : Nat := c.code - '0'.toNat

/-- The expansion written between the braces of `"${…}"`. -/
def braceExpansion (body : Text) : Option Piece :=
  if body.getLast? = some ('-' : CodePoint) ∧ isName body.dropLast then
    some (.parameterOrEmpty body.dropLast)
  else
    match body with
    | [c, d, n] =>
        if [c, d] = text "@:" ∧ n ∈ digits ∧ 0 < digitValue n then
          some (.positionalFrom (digitValue n))
        else none
    | _ => none

open LexState in
/-- Read one character. -/
def lexStep (state : LexState) (c : CodePoint) : Option LexState :=
  if c = (Char.ofNat 0 : CodePoint) then none
  else match state.mode with
  | .unquoted =>
      if c = ' ' ∨ c = '\t' then some state.endWord
      else if c = '\n' then some state.endCommand
      else if c = '\'' then some { state.push .null with mode := .single }
      else if c = '"' then
        some { state with mode := .double true, word := some (state.word.getD []) }
      else if c ∈ special then none
      else some (state.push (.char c))
  | .single =>
      if c = '\'' then some { state with mode := .unquoted }
      else some (state.push (.char c))
  | .double fresh =>
      if c = '"' then some { (if fresh then state.push .null else state) with mode := .unquoted }
      else if c = '$' then some { state with mode := .dollar }
      else if c = '`' ∨ c = '\\' then none
      else some { state.push (.char c) with mode := .double false }
  | .dollar =>
      if c = '{' then some { state with mode := .brace [] }
      else if c ∈ digits ∧ 0 < digitValue c then
        some { state.push (.positional (digitValue c)) with mode := .double false }
      else none
  | .brace body =>
      if c = '}' then
        (braceExpansion body).map fun piece => { state.push piece with mode := .double false }
      else some { state with mode := .brace (body ++ [c]) }

/-- Read characters from a position. -/
def lexFrom : LexState → Text → Option LexState
  | state, [] => some state
  | state, c :: rest => (lexStep state c).bind fun next => lexFrom next rest

/-- The commands of a script: newlines end commands, blanks end words, and every
quotation is closed. -/
def lex (script : Text) : Option (List (List Word)) :=
  (lexFrom .start script).bind fun state =>
    if state.mode = .unquoted then some state.endCommand.commands else none

/-- The parameters a script's expansions read. -/
structure Parameters where
  valueOf : Text → Option Text
  positional : List Text

/-- The fields one part of a word expands to. -/
def Piece.fields (parameters : Parameters) : Piece → List Text
  | .char c => [[c]]
  | .null => [[]]
  | .parameterOrEmpty name => [(parameters.valueOf name).getD []]
  | .positional index => [(parameters.positional[index - 1]?).getD []]
  | .positionalFrom index => parameters.positional.drop (index - 1)

/-- Adjacent parts of a word: the last field of the first and the first field of
the second are one field. -/
def joinFields : List Text → List Text → List Text
  | [], second => second
  | [last], [] => [last]
  | [last], first :: rest => (last ++ first) :: rest
  | field :: next :: rest, second => field :: joinFields (next :: rest) second

/-- The fields a word expands to. Every expansion of the fragment is inside
double quotes, so no field is split or matched against file names. -/
def wordFields (parameters : Parameters) (word : Word) : List Text :=
  word.foldr (fun piece rest => joinFields (piece.fields parameters) rest) []

def commandFields (parameters : Parameters) (command : List Word) : List Text :=
  command.flatMap (wordFields parameters)

/-- The program that replaces the shell. -/
structure Replacement where
  argv0 : Text
  path : Text
  arguments : List Text
  deriving DecidableEq

/-- The operands of `exec`: options `-a name` and `--`, then a command. -/
def execOperands : Option Text → List Text → Option Replacement
  | _, [] => none
  | name, operand :: rest =>
      if operand = text "--" then
        match rest with
        | [] => none
        | path :: arguments => some ⟨name.getD path, path, arguments⟩
      else if operand = text "-a" then
        match rest with
        | [] => none
        | argv0 :: rest => execOperands (some argv0) rest
      else if operand.head? = some ('-' : CodePoint) then none
      else some ⟨name.getD operand, operand, rest⟩

/-- How a script ends. -/
inductive Outcome where
  /-- `exec` replaced the shell, in the directory of the last `cd`. -/
  | replaced (directory : Option Text) (program : Replacement)
  /-- A command failed under `set -e`. -/
  | stopped
  deriving DecidableEq

/-- Run the commands: `enter` says which directories `cd` can change to. The directory is
the operand as `cd` reads it, which follows `..` by the names before it. -/
def runCommands (parameters : Parameters) (enter : Text → Bool) :
    Bool → Option Text → List (List Word) → Option Outcome
  | _, _, [] => none
  | errexit, directory, command :: rest =>
      match commandFields parameters command with
      | [] => none
      | name :: operands =>
          if name = text "set" then
            if operands = [text "-eu"] then runCommands parameters enter true directory rest
            else none
          else if name = text "cd" then
            match operands with
            | [separator, operand] =>
                -- A relative operand would be looked up along CDPATH.
                if separator = text "--" ∧ operand.head? = some ('/' : CodePoint) then
                  if enter operand then runCommands parameters enter errexit (some operand) rest
                  else if errexit then some .stopped
                  else runCommands parameters enter errexit directory rest
                else none
            | _ => none
          else if name = text "exec" then
            (execOperands none operands).map (.replaced directory)
          else none

/-- Run a script. -/
def runScript (parameters : Parameters) (enter : Text → Bool) (script : Text) : Option Outcome :=
  (lex script).bind (runCommands parameters enter false none)

/-! ## Reading literal text -/

theorem lexFrom_append (state : LexState) (first second : Text) :
    lexFrom state (first ++ second) =
      (lexFrom state first).bind fun middle => lexFrom middle second := by
  induction first generalizing state with
  | nil => rfl
  | cons c rest ih => simp only [List.cons_append, lexFrom, Option.bind_assoc, ih]

/-- Pieces that contribute the same characters whatever the parameters are. -/
def Piece.isLiteral : Piece → Bool
  | .char _ | .null => true
  | _ => false

/-- The characters a word's literal pieces contribute. -/
def literalText (word : Word) : Text :=
  word.flatMap fun
    | .char c => [c]
    | _ => []

theorem joinFields_single (first second : Text) : joinFields [first] [second] = [first ++ second] :=
  rfl

theorem joinFields_nil (fields : List Text) : joinFields fields [] = fields := by
  induction fields with
  | nil => rfl
  | cons field rest ih =>
      cases rest with
      | nil => rfl
      | cons next later => exact congrArg (field :: ·) ih

/-- A word of one part expands to the fields of that part. -/
theorem wordFields_single (parameters : Parameters) (piece : Piece) :
    wordFields parameters [piece] = piece.fields parameters :=
  joinFields_nil _

/-- Characters before a part that is one field extend that field. -/
theorem wordFields_chars_append (parameters : Parameters) (characters : Text) {word : Word}
    {field : Text} (single : wordFields parameters word = [field]) :
    wordFields parameters (characters.map .char ++ word) = [characters ++ field] := by
  induction characters with
  | nil => exact single
  | cons c rest ih =>
      change joinFields [[c]] (wordFields parameters (rest.map .char ++ word)) = _
      rw [ih, joinFields_single, List.cons_append, List.cons_append, List.nil_append]

/-- A literal word is one field. -/
theorem wordFields_of_literal (parameters : Parameters) {word : Word} (nonempty : word ≠ [])
    (literal : ∀ piece ∈ word, piece.isLiteral = true) :
    wordFields parameters word = [literalText word] := by
  have piece_fields (piece : Piece) (isLiteral : piece.isLiteral = true) :
      piece.fields parameters = [literalText [piece]] := by
    cases piece with
    | char c => rfl
    | null => rfl
    | parameterOrEmpty name => exact absurd isLiteral Bool.false_ne_true
    | positional index => exact absurd isLiteral Bool.false_ne_true
    | positionalFrom index => exact absurd isLiteral Bool.false_ne_true
  induction word with
  | nil => exact absurd rfl nonempty
  | cons piece rest ih =>
      have first := piece_fields piece (literal piece List.mem_cons_self)
      have whole : literalText (piece :: rest) = literalText [piece] ++ literalText rest := by
        simp only [literalText, List.flatMap_cons, List.flatMap_nil, List.append_nil]
      cases rest with
      | nil =>
          change joinFields (piece.fields parameters) [] = _
          rw [first]
          rfl
      | cons next later =>
          change joinFields (piece.fields parameters) (wordFields parameters (next :: later)) = _
          rw [ih (List.cons_ne_nil _ _) fun other member =>
              literal other (List.mem_cons_of_mem _ member), first, joinFields_single, whole]

/-- An unquoted character that stands for itself. -/
def Ordinary (c : CodePoint) : Prop := c ∉ special ∧ c ≠ (Char.ofNat 0 : CodePoint)

theorem lexStep_ordinary {state : LexState} {c : CodePoint} (unquoted : state.mode = .unquoted)
    (ordinary : Ordinary c) : lexStep state c = some (state.push (.char c)) := by
  have differs (d : CodePoint) (listed : d ∈ special) : c ≠ d := by
    rintro rfl
    exact ordinary.1 listed
  unfold lexStep
  rw [if_neg ordinary.2, unquoted]
  simp only [differs _ (show (' ' : CodePoint) ∈ special by decide),
    differs _ (show ('\t' : CodePoint) ∈ special by decide),
    differs _ (show ('\n' : CodePoint) ∈ special by decide),
    differs _ (show ('\'' : CodePoint) ∈ special by decide),
    differs _ (show ('"' : CodePoint) ∈ special by decide), or_self, ↓reduceIte, ordinary.1]

/-- Ordinary unquoted text extends the word being read. -/
theorem lexFrom_ordinary {source : Text} (ordinary : ∀ c ∈ source, Ordinary c) (word : Word)
    (words : List Word) (commands : List (List Word)) :
    lexFrom ⟨.unquoted, some word, words, commands⟩ source =
      some ⟨.unquoted, some (word ++ source.map .char), words, commands⟩ := by
  induction source generalizing word with
  | nil => rw [List.map_nil, List.append_nil]; rfl
  | cons c rest ih =>
      rw [lexFrom, lexStep_ordinary rfl (ordinary c List.mem_cons_self), Option.bind_some]
      change lexFrom ⟨.unquoted, some (word ++ [.char c]), words, commands⟩ rest = _
      rw [ih fun other member => ordinary other (List.mem_cons_of_mem _ member), List.map_cons,
        List.append_assoc, List.singleton_append]

/-- The first ordinary character starts a word. -/
theorem lexFrom_ordinary_start {source : Text} (ordinary : ∀ c ∈ source, Ordinary c)
    (nonempty : source ≠ []) (words : List Word) (commands : List (List Word)) :
    lexFrom ⟨.unquoted, none, words, commands⟩ source =
      some ⟨.unquoted, some (source.map .char), words, commands⟩ := by
  cases source with
  | nil => exact absurd rfl nonempty
  | cons c rest =>
      rw [lexFrom, lexStep_ordinary rfl (ordinary c List.mem_cons_self), Option.bind_some]
      exact lexFrom_ordinary (fun other member => ordinary other (List.mem_cons_of_mem _ member))
        [.char c] words commands

theorem lexFrom_space (word : Word) (words : List Word) (commands : List (List Word))
    (rest : Text) :
    lexFrom ⟨.unquoted, some word, words, commands⟩ ((' ' : CodePoint) :: rest) =
      lexFrom ⟨.unquoted, none, words ++ [word], commands⟩ rest := rfl

theorem lexFrom_newline (word : Word) (words : List Word) (commands : List (List Word))
    (rest : Text) :
    lexFrom ⟨.unquoted, some word, words, commands⟩ (('\n' : CodePoint) :: rest) =
      lexFrom ⟨.unquoted, none, [], commands ++ [words ++ [word]]⟩ rest := by
  have ended : (⟨.unquoted, some word, words, commands⟩ : LexState).endCommand =
      ⟨.unquoted, none, [], commands ++ [words ++ [word]]⟩ := by
    unfold LexState.endCommand
    rw [if_neg (by simp [LexState.endWord])]
    rfl
  rw [← ended]
  rfl

/-- A source text read, between two words, as one word. -/
def ReadsAs (source : Text) (word : Word) : Prop :=
  ∀ (words : List Word) (commands : List (List Word)),
    lexFrom ⟨.unquoted, none, words, commands⟩ source =
      some ⟨.unquoted, some word, words, commands⟩

/-- Texts separated by single spaces are read as their words, in order, up to
what follows the last of them. -/
theorem lexFrom_intercalate {α : Type} {source : α → Text} {word : α → Word} {first : α}
    {rest : List α} (reads : ∀ item ∈ first :: rest, ReadsAs (source item) (word item))
    {commands : List (List Word)} {remaining : Text} (result : List Word → Option LexState)
    (ends : ∀ last words, lexFrom ⟨.unquoted, some last, words, commands⟩ remaining =
      result (words ++ [last]))
    (words : List Word) :
    lexFrom ⟨.unquoted, none, words, commands⟩
        (List.intercalate (text " ") ((first :: rest).map source) ++ remaining) =
      result (words ++ (first :: rest).map word) := by
  induction rest generalizing first words with
  | nil =>
      have single : List.intercalate (text " ") ([first].map source) = source first := by
        simp [List.intercalate]
      rw [single, lexFrom_append, reads first List.mem_cons_self, Option.bind_some, ends]
      rfl
  | cons second rest ih =>
      have split : List.intercalate (text " ") ((first :: second :: rest).map source) =
          source first ++ (' ' : CodePoint) ::
            List.intercalate (text " ") ((second :: rest).map source) := by
        have separator : text " " = [(' ' : CodePoint)] := rfl
        simp [List.intercalate, separator]
      rw [split, List.append_assoc, lexFrom_append, reads first List.mem_cons_self,
        Option.bind_some, List.cons_append, lexFrom_space,
        ih fun item member => reads item (List.mem_cons_of_mem _ member), List.append_assoc]
      rfl

/-- A double-quoted character that stands for itself. -/
def DoubleOrdinary (c : CodePoint) : Prop :=
  c ∉ text "\"$`\\" ∧ c ≠ (Char.ofNat 0 : CodePoint)

/-- Text in double quotes extends the word being read. -/
theorem lexFrom_double {source : Text} (ordinary : ∀ c ∈ source, DoubleOrdinary c)
    (nonempty : source ≠ []) (fresh : Bool) (word : Word) (words : List Word)
    (commands : List (List Word)) :
    lexFrom ⟨.double fresh, some word, words, commands⟩ source =
      some ⟨.double false, some (word ++ source.map .char), words, commands⟩ := by
  induction source generalizing fresh word with
  | nil => exact absurd rfl nonempty
  | cons c rest ih =>
      have differs (d : CodePoint) (listed : d ∈ text "\"$`\\") : c ≠ d := by
        rintro rfl
        exact (ordinary c List.mem_cons_self).1 listed
      have stepped : lexStep ⟨.double fresh, some word, words, commands⟩ c =
          some ⟨.double false, some (word ++ [.char c]), words, commands⟩ := by
        unfold lexStep
        rw [if_neg (ordinary c List.mem_cons_self).2]
        simp only [differs _ (show ('"' : CodePoint) ∈ text "\"$`\\" by decide),
          differs _ (show ('$' : CodePoint) ∈ text "\"$`\\" by decide),
          differs _ (show ('`' : CodePoint) ∈ text "\"$`\\" by decide),
          differs _ (show ('\\' : CodePoint) ∈ text "\"$`\\" by decide), or_self, ↓reduceIte,
          LexState.push, Option.getD_some]
      rw [lexFrom, stepped, Option.bind_some]
      cases rest with
      | nil => rfl
      | cons next later =>
          rw [ih (fun other member => ordinary other (List.mem_cons_of_mem _ member))
            (List.cons_ne_nil _ _), List.map_cons (a := c), List.append_assoc,
            List.singleton_append]

/-- Single-quoted text without a quote extends the word being read. -/
theorem lexStep_single {c : CodePoint} (different : c ≠ '\'')
    (nulFree : c ≠ (Char.ofNat 0 : CodePoint)) (word : Word) (words : List Word)
    (commands : List (List Word)) :
    lexStep ⟨.single, some word, words, commands⟩ c =
      some ⟨.single, some (word ++ [.char c]), words, commands⟩ := by
  unfold lexStep
  rw [if_neg nulFree]
  simp only [different, ↓reduceIte, LexState.push, Option.getD_some]

/-- `"${name-}"` read inside double quotes. -/
theorem lexFrom_parameterOrEmpty {name : Text} (isName : isName name = true)
    (closed : ('}' : CodePoint) ∉ name) (nulFree : NulFree name) (word : Word)
    (words : List Word) (commands : List (List Word)) :
    lexFrom ⟨.double false, some word, words, commands⟩ (text "$\x7b" ++ name ++ text "-\x7d") =
      some ⟨.double false, some (word ++ [.parameterOrEmpty name]), words, commands⟩ := by
  have body : ∀ (source : Text) (before : Text), ('}' : CodePoint) ∉ source → NulFree source →
      lexFrom ⟨.brace before, some word, words, commands⟩ source =
        some ⟨.brace (before ++ source), some word, words, commands⟩ := by
    intro source
    induction source with
    | nil => intro before _ _; rw [List.append_nil]; rfl
    | cons c rest ih =>
        intro before closed free
        rw [List.mem_cons, not_or] at closed
        have nonzero : c ≠ (Char.ofNat 0 : CodePoint) := by
          rintro rfl
          exact free List.mem_cons_self
        have stepped : lexStep ⟨.brace before, some word, words, commands⟩ c =
            some ⟨.brace (before ++ [c]), some word, words, commands⟩ := by
          unfold lexStep
          rw [if_neg nonzero]
          simp only [Ne.symm closed.1, ↓reduceIte]
        rw [lexFrom, stepped, Option.bind_some,
          ih _ closed.2 fun member => free (List.mem_cons_of_mem _ member), List.append_assoc,
          List.singleton_append]
  have expansion : braceExpansion (name ++ text "-") = some (.parameterOrEmpty name) := by
    unfold braceExpansion
    have last : (name ++ text "-").getLast? = some ('-' : CodePoint) := List.getLast?_concat
    have front : (name ++ text "-").dropLast = name := List.dropLast_concat
    rw [last, front, if_pos ⟨rfl, isName⟩]
  have opened : lexFrom ⟨.double false, some word, words, commands⟩ (text "$\x7b") =
      some ⟨.brace [], some word, words, commands⟩ := rfl
  have split : text "$\x7b" ++ name ++ text "-\x7d" =
      text "$\x7b" ++ ((name ++ text "-") ++ text "\x7d") := by
    rw [show text "-\x7d" = text "-" ++ text "\x7d" by rfl, List.append_assoc, List.append_assoc]
  have closing : lexStep ⟨.brace (name ++ text "-"), some word, words, commands⟩ '}' =
      some ⟨.double false, some (word ++ [.parameterOrEmpty name]), words, commands⟩ := by
    unfold lexStep
    rw [if_neg (by decide)]
    simp only [↓reduceIte, expansion, Option.map_some, LexState.push, Option.getD_some]
  have free : ('}' : CodePoint) ∉ name ++ text "-" ∧ NulFree (name ++ text "-") := by
    constructor
    · intro member
      rcases List.mem_append.mp member with inside | inside
      · exact closed inside
      · exact absurd inside (by decide)
    · intro member
      rcases List.mem_append.mp member with inside | inside
      · exact nulFree inside
      · exact absurd inside (by decide)
  rw [split, lexFrom_append, opened, Option.bind_some, lexFrom_append, body _ _ free.1 free.2,
    Option.bind_some, List.nil_append, show text "\x7d" = [('}' : CodePoint)] from rfl, lexFrom,
    closing]
  rfl

/-! ## Utilities -/

/-- What `env` starts. -/
structure EnvLaunch where
  environment : Dict Text Text
  command : List Text

/-- Split an operand at its first `=`. -/
def assignment? (operand : Text) : Option (Text × Text) :=
  if ('=' : CodePoint) ∈ operand then
    some (operand.takeWhile (· ≠ ('=' : CodePoint)),
      (operand.dropWhile (· ≠ ('=' : CodePoint))).tail)
  else none

/-- Operands of `env`: assignments up to the first operand without `=`, which
starts the command. A variable cannot have an empty name. -/
def envOperands : Dict Text Text → List Text → Option EnvLaunch
  | environment, [] => some ⟨environment, []⟩
  | environment, operand :: rest =>
      match assignment? operand with
      | some (name, value) =>
          if name = [] then none else envOperands (environment.insert name value) rest
      | none => some ⟨environment, operand :: rest⟩

/-- Options of `env`: `-i` clears the environment and `--` ends the options; a
lone `-` operand also clears it. -/
def envOptions : Dict Text Text → List Text → Option EnvLaunch
  | inherited, [] => some ⟨inherited, []⟩
  | inherited, operand :: rest =>
      if operand = text "-i" then envOptions Dict.empty rest
      else if operand = text "--" then
        match rest with
        | [] => some ⟨inherited, []⟩
        | next :: later =>
            if next = text "-" then envOperands Dict.empty later
            else envOperands inherited rest
      else if operand = text "-" then envOperands Dict.empty rest
      else if operand.head? = some ('-' : CodePoint) then none
      else envOperands inherited (operand :: rest)

/-- What `bash -c` runs: the command text and its positional parameters, after
the name it reports errors under. -/
structure BashCommand where
  script : Text
  name : Text
  positional : List Text
  deriving DecidableEq

/-- The arguments of bash: the options that skip its start-up files, then `-c`. -/
def bashArguments : List Text → Option BashCommand
  | [] => none
  | argument :: rest =>
      if argument = text "--noprofile" ∨ argument = text "--norc" then bashArguments rest
      else if argument = text "-c" then
        match rest with
        | script :: name :: positional =>
            if script.head? = some ('-' : CodePoint) ∨ script.head? = some ('+' : CodePoint) then
              none
            else some ⟨script, name, positional⟩
        | _ => none
      else none

theorem assignment?_append {name : Text} (value : Text) (clean : ('=' : CodePoint) ∉ name) :
    assignment? (name ++ text "=" ++ value) = some (name, value) := by
  have separator : text "=" = [('=' : CodePoint)] := rfl
  have member : ('=' : CodePoint) ∈ name ++ text "=" ++ value := by
    rw [separator]
    simp
  have passes : ∀ c ∈ name, decide (c ≠ ('=' : CodePoint)) = true := by
    intro c inside
    rw [decide_eq_true_eq]
    rintro rfl
    exact clean inside
  unfold assignment?
  rw [if_pos member, separator, List.append_assoc, List.singleton_append,
    List.takeWhile_append_of_pos passes, List.dropWhile_append_of_pos passes]
  simp

theorem assignment?_eq_none {operand : Text} (clean : ('=' : CodePoint) ∉ operand) :
    assignment? operand = none := if_neg clean

/-- **The operand scan of `env`.** Assignments are taken left to right, and the
first operand without `=` starts the command. -/
theorem envOperands_assignments (environment : Dict Text Text) (entries : List (Text × Text))
    (clean : ∀ entry ∈ entries, entry.1 ≠ [] ∧ ('=' : CodePoint) ∉ entry.1) {command : Text}
    (isCommand : ('=' : CodePoint) ∉ command) (arguments : List Text) :
    envOperands environment
        (entries.map (fun entry => entry.1 ++ text "=" ++ entry.2) ++ command :: arguments) =
      some ⟨environment.updateEntries entries, command :: arguments⟩ := by
  induction entries generalizing environment with
  | nil =>
      rw [List.map_nil, List.nil_append, envOperands, assignment?_eq_none isCommand]
      rfl
  | cons entry rest ih =>
      obtain ⟨named, separated⟩ := clean entry List.mem_cons_self
      rw [List.map_cons, List.cons_append, envOperands, assignment?_append entry.2 separated]
      exact (if_neg named).trans
        (ih _ fun other member => clean other (List.mem_cons_of_mem _ member))

/-- After `--` every operand is scanned as an operand, whatever it starts with. -/
theorem envOptions_separator (inherited : Dict Text Text) {first : Text} (rest : List Text)
    (proper : first ≠ text "-") :
    envOptions inherited (text "-i" :: text "--" :: first :: rest) =
      envOperands Dict.empty (first :: rest) := by
  rw [envOptions, if_pos rfl, envOptions, if_neg (by decide), if_pos rfl]
  exact if_neg proper

end Foundation.Shell
