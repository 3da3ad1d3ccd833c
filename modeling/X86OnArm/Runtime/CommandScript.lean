import X86OnArm.Foundation.Quoting

/-! # Transport of a command

`command_script` writes the program, its arguments, its environment and its
working directory as text for the guest shell. Three interpreters read them
back: the shell that runs the script, the operand scan of `env`, and the inner
bash whose positional parameters hold the command. `transport` composes the
three, and `transport_commandScript` shows that they invert the script.
-/

namespace X86OnArm.Runtime

open Foundation Foundation.Shell

/-- The variables the guest shell passes on from its own environment. -/
def bridgedKeys : List Text :=
  [text "DISPLAY", text "XAUTHORITY", text "XDG_RUNTIME_DIR", text "GTK_IM_MODULE",
    text "QT_IM_MODULE", text "XRE_PROFILE_PATH", text "MESA_LOADER_DRIVER_OVERRIDE"]

/-- `"{key}=${{key}-}"` in double quotes. -/
def bridgedOperand (key : Text) : Text :=
  text "\"" ++ (key ++ text "=") ++ (text "$\x7b" ++ key ++ text "-\x7d") ++ text "\""

/-- The fixed text the inner bash runs. -/
def execText : Text := text "exec -a \"$1\" -- \"$\x7b@:2\x7d\""

def assignments (environment : Dict Text Text) : List Text :=
  environment.entries.map fun entry => entry.1 ++ text "=" ++ entry.2

def target (argv0 : Text) : List Text :=
  [text "/bin/bash", text "--noprofile", text "--norc", text "-c", execText, text "x86-arm-exec",
    argv0]

def commandScript (program argv0 : Text) (arguments : List Text) (environment : Dict Text Text)
    (cwd : Text) (bridge : Bool) : Text :=
  let command := [text "/usr/bin/env", text "-i", text "--"]
  let inherited :=
    if bridge then List.intercalate (text " ") (bridgedKeys.map bridgedOperand) else []
  text "set -eu\ncd -- " ++ quote cwd ++ text "\nexec " ++ join command ++ text " " ++
    inherited ++ text " " ++
    join (assignments environment ++ target argv0 ++ program :: arguments) ++ text "\n"

/-- The variables the bridge passes on, with the values the guest shell has. -/
def bridgedVariables (shellVariable : Text → Option Text) : List (Text × Text) :=
  bridgedKeys.map fun key => (key, (shellVariable key).getD [])

def bridgedWord (key : Text) : Word := (key ++ text "=").map .char ++ [.parameterOrEmpty key]

theorem wordFields_bridgedWord (parameters : Parameters) (key : Text) :
    wordFields parameters (bridgedWord key) =
      [key ++ text "=" ++ (parameters.valueOf key).getD []] :=
  wordFields_chars_append parameters (key ++ text "=") rfl

/-- A bridged operand is one word, whatever the variable holds. -/
theorem readsAs_bridgedOperand {key : Text} (named : isName key = true)
    (clean : ∀ c ∈ key, DoubleOrdinary c) (closed : ('\x7d' : CodePoint) ∉ key) :
    ReadsAs (bridgedOperand key) (bridgedWord key) := by
  intro words commands
  have opened : lexFrom ⟨.unquoted, none, words, commands⟩ (text "\"") =
      some ⟨.double true, some [], words, commands⟩ := rfl
  have characters : ∀ c ∈ key ++ text "=", DoubleOrdinary c := by
    intro c member
    rcases List.mem_append.mp member with inside | separator
    · exact clean c inside
    · have checked : ∀ c ∈ text "=", c ∉ text "\"$`\\" ∧ c ≠ (Char.ofNat 0 : CodePoint) := by
        decide
      exact checked c separator
  have nonempty : key ++ text "=" ≠ [] := List.append_ne_nil_of_right_ne_nil _ (by decide)
  have nulFree : NulFree key := fun member => (clean _ member).2 rfl
  unfold bridgedOperand
  rw [List.append_assoc, List.append_assoc, lexFrom_append, opened, Option.bind_some,
    lexFrom_append, lexFrom_double characters nonempty, Option.bind_some, lexFrom_append,
    lexFrom_parameterOrEmpty named closed nulFree]
  rfl

theorem readsAs_bridgedKeys :
    ∀ key ∈ bridgedKeys, ReadsAs (bridgedOperand key) (bridgedWord key) := by
  have checked : ∀ key ∈ bridgedKeys, isName key = true ∧ ('\x7d' : CodePoint) ∉ key ∧
      ∀ c ∈ key, c ∉ text "\"$`\\" ∧ c ≠ (Char.ofNat 0 : CodePoint) := by decide +kernel
  intro key member
  obtain ⟨named, closed, clean⟩ := checked key member
  exact readsAs_bridgedOperand named clean closed

theorem commandFields_bridged (parameters : Parameters) (keys : List Text) :
    commandFields parameters (keys.map bridgedWord) =
      keys.map fun key => key ++ text "=" ++ (parameters.valueOf key).getD [] := by
  unfold commandFields
  induction keys with
  | nil => rfl
  | cons key rest ih =>
      rw [List.map_cons, List.flatMap_cons, wordFields_bridgedWord, ih, List.map_cons,
        List.singleton_append]

/-- The variables the script passes on from the guest shell. -/
def inheritedVariables (bridge : Bool) (shellVariable : Text → Option Text) :
    List (Text × Text) :=
  if bridge then bridgedVariables shellVariable else []

def inheritedWords (bridge : Bool) : List Word := if bridge then bridgedKeys.map bridgedWord else []

/-- The arguments `env` is started with. -/
def envArguments (program argv0 : Text) (arguments : List Text)
    (environment : List (Text × Text)) : List Text :=
  text "-i" :: text "--" :: (environment.map (fun entry => entry.1 ++ text "=" ++ entry.2) ++
    (target argv0 ++ program :: arguments))

theorem commandFields_inherited (parameters : Parameters) (bridge : Bool) :
    commandFields parameters (inheritedWords bridge) =
      (inheritedVariables bridge parameters.valueOf).map
        fun entry => entry.1 ++ text "=" ++ entry.2 := by
  cases bridge with
  | false => rfl
  | true =>
      simp only [inheritedWords, inheritedVariables, bridgedVariables, ↓reduceIte,
        commandFields_bridged, List.map_map]
      rfl

section Reading

variable {program argv0 : Text} {arguments : List Text} {environment : Dict Text Text}
  {cwd : Text} {bridge : Bool}

/-- The strings `command_script` is given, none of which can hold a NUL. -/
structure NulFreeCommand (program argv0 : Text) (arguments : List Text)
    (environment : Dict Text Text) (cwd : Text) : Prop where
  program : NulFree program
  argv0 : NulFree argv0
  arguments : ∀ argument ∈ arguments, NulFree argument
  environment : ∀ entry ∈ environment.entries, NulFree entry.1 ∧ NulFree entry.2
  cwd : NulFree cwd

theorem NulFreeCommand.operands (free : NulFreeCommand program argv0 arguments environment cwd) :
    ∀ value ∈ assignments environment ++ target argv0 ++ program :: arguments, NulFree value := by
  intro value member
  rcases List.mem_append.mp member with front | command
  · rcases List.mem_append.mp front with assigned | fixed
    · obtain ⟨entry, inside, rfl⟩ := List.mem_map.mp assigned
      obtain ⟨key, stored⟩ := free.environment entry inside
      intro null
      rcases List.mem_append.mp null with left | right
      · rcases List.mem_append.mp left with inKey | separator
        · exact key inKey
        · exact absurd separator (by decide)
      · exact stored right
    · have constants : ∀ value ∈ target [], NulFree value := by
        unfold NulFree
        decide
      have split : target argv0 = (target []).dropLast ++ [argv0] := rfl
      rw [split] at fixed
      rcases List.mem_append.mp fixed with constant | last
      · exact constants value (List.dropLast_subset _ constant)
      · rw [List.mem_singleton.mp last]
        exact free.argv0
  · rcases List.mem_cons.mp command with rfl | inside
    · exact free.program
    · exact free.arguments value inside

/-- The inherited operands and the blank after them, read after `exec`'s words. -/
private theorem lexFrom_inherited (words : List Word) (commands : List (List Word))
    (remaining : Text) :
    lexFrom ⟨.unquoted, none, words, commands⟩
        ((if bridge then List.intercalate (text " ") (bridgedKeys.map bridgedOperand) else []) ++
          ((' ' : CodePoint) :: remaining)) =
      lexFrom ⟨.unquoted, none, words ++ inheritedWords bridge, commands⟩ remaining := by
  cases bridge with
  | false =>
      simp only [Bool.false_eq_true, ↓reduceIte, inheritedWords, List.append_nil]
      rfl
  | true =>
      have keys : bridgedKeys = text "DISPLAY" :: bridgedKeys.tail := rfl
      simp only [↓reduceIte, inheritedWords]
      rw [keys]
      exact lexFrom_intercalate (fun key member => readsAs_bridgedKeys key (keys ▸ member))
        (fun words => lexFrom ⟨.unquoted, none, words, commands⟩ remaining)
        (fun last words => lexFrom_space last words commands remaining) words

/-- The script is three commands, and every string it was given is one word of
them. -/
theorem lex_commandScript (free : NulFreeCommand program argv0 arguments environment cwd) :
    lex (commandScript program argv0 arguments environment cwd bridge) =
      some [[text "set", text "-eu"].map quotedWord, [text "cd", text "--", cwd].map quotedWord,
        [text "exec", text "/usr/bin/env", text "-i", text "--"].map quotedWord ++
          inheritedWords bridge ++
          (assignments environment ++ target argv0 ++ program :: arguments).map quotedWord] := by
  have opening (rest : Text) : lexFrom .start (text "set -eu\ncd -- " ++ rest) =
      lexFrom ⟨.unquoted, none, [text "cd", text "--"].map quotedWord,
        [[text "set", text "-eu"].map quotedWord]⟩ rest := by
    rw [lexFrom_append]
    rfl
  have between (commands : List (List Word)) (rest : Text) :
      lexFrom ⟨.unquoted, none, [], commands⟩
          (text "exec " ++ join [text "/usr/bin/env", text "-i", text "--"] ++ text " " ++ rest) =
        lexFrom ⟨.unquoted, none,
          [text "exec", text "/usr/bin/env", text "-i", text "--"].map quotedWord, commands⟩
          rest := by
    rw [lexFrom_append]
    rfl
  have shape : commandScript program argv0 arguments environment cwd bridge =
      text "set -eu\ncd -- " ++ (quote cwd ++ ('\n' : CodePoint) ::
        (text "exec " ++ join [text "/usr/bin/env", text "-i", text "--"] ++ text " " ++
          ((if bridge then List.intercalate (text " ") (bridgedKeys.map bridgedOperand) else []) ++
            ((' ' : CodePoint) ::
              (join (assignments environment ++ target argv0 ++ program :: arguments) ++
                ('\n' : CodePoint) :: []))))) := by
    have first : text "\nexec " = ('\n' : CodePoint) :: text "exec " := rfl
    have second : text " " = [(' ' : CodePoint)] := rfl
    have last : text "\n" = [('\n' : CodePoint)] := rfl
    simp only [commandScript, first, second, last, List.append_assoc, List.cons_append,
      List.nil_append]
  have nonempty : assignments environment ++ target argv0 ++ program :: arguments ≠ [] :=
    List.append_ne_nil_of_right_ne_nil _ (List.cons_ne_nil _ _)
  have reading : lexFrom .start (commandScript program argv0 arguments environment cwd bridge) =
      some ⟨.unquoted, none, [], [[text "set", text "-eu"].map quotedWord,
        [text "cd", text "--", cwd].map quotedWord,
        [text "exec", text "/usr/bin/env", text "-i", text "--"].map quotedWord ++
          inheritedWords bridge ++
          (assignments environment ++ target argv0 ++ program :: arguments).map quotedWord]⟩ := by
    rw [shape, opening, lexFrom_append, readsAs_quote free.cwd, Option.bind_some, lexFrom_newline,
      between, lexFrom_inherited, lexFrom_join nonempty free.operands]
    rfl
  unfold lex
  rw [reading]
  rfl

end Reading

/-- What the guest starts: the directory it is started in, the environment `env` gives
the inner bash, the command that bash was given and the program that replaces it. -/
structure Launch where
  directory : Option Text
  environment : Dict Text Text
  command : BashCommand
  replacement : Replacement

/-- The interpreters a script passes through: the shell, `env` and the inner
bash, as they read the script and their words. `inherited` is the environment `env`
itself is started with. -/
def transport (shellVariable : Text → Option Text) (inherited : Dict Text Text)
    (enter : Text → Bool) (script : Text) : Option Launch :=
  match runScript ⟨shellVariable, []⟩ enter script with
  | some (.replaced directory utility) =>
      if utility.path = text "/usr/bin/env" then
        (envOptions inherited utility.arguments).bind fun started =>
          match started.command with
          | [] => none
          | path :: arguments =>
              if path = text "/bin/bash" then
                (bashArguments arguments).bind fun command =>
                  match runScript ⟨started.environment.get?, command.positional⟩ enter
                      command.script with
                  | some (.replaced inner program) =>
                      some ⟨inner.or directory, started.environment, command, program⟩
                  | _ => none
              else none
      else none
  | _ => none

section Running

variable {program argv0 : Text} {arguments : List Text} {environment : Dict Text Text}
  {cwd : Text} {bridge : Bool}

/-- The shell changes directory first, and starts nothing when it cannot. -/
theorem runScript_commandScript (bridge : Bool)
    (free : NulFreeCommand program argv0 arguments environment cwd)
    (absolute : cwd.head? = some ('/' : CodePoint)) (shellVariable : Text → Option Text)
    (positional : List Text) (enter : Text → Bool) :
    runScript ⟨shellVariable, positional⟩ enter
        (commandScript program argv0 arguments environment cwd bridge) =
      if enter cwd then
        some (.replaced (some cwd) ⟨text "/usr/bin/env", text "/usr/bin/env",
          envArguments program argv0 arguments
            (inheritedVariables bridge shellVariable ++ environment.entries)⟩)
      else some .stopped := by
  have operands : commandFields ⟨shellVariable, positional⟩
      ([text "exec", text "/usr/bin/env", text "-i", text "--"].map quotedWord ++
        inheritedWords bridge ++
        (assignments environment ++ target argv0 ++ program :: arguments).map quotedWord) =
      text "exec" :: text "/usr/bin/env" :: envArguments program argv0 arguments
        (inheritedVariables bridge shellVariable ++ environment.entries) := by
    rw [commandFields_append, commandFields_append, commandFields_quoted, commandFields_quoted,
      commandFields_inherited]
    simp only [envArguments, assignments, List.map_append, List.append_assoc, List.cons_append,
      List.nil_append]
  unfold runScript
  rw [lex_commandScript free, Option.bind_some]
  rw [runCommands, commandFields_quoted]
  simp only [↓reduceIte]
  rw [runCommands, commandFields_quoted]
  have notSet : text "cd" ≠ text "set" := by decide
  simp only [notSet, absolute, and_self, ↓reduceIte]
  split
  · rw [runCommands, operands]
    have execNotSet : text "exec" ≠ text "set" := by decide
    have execNotCd : text "exec" ≠ text "cd" := by decide
    have utility : execOperands none (text "/usr/bin/env" :: envArguments program argv0 arguments
        (inheritedVariables bridge shellVariable ++ environment.entries)) =
        some ⟨text "/usr/bin/env", text "/usr/bin/env", envArguments program argv0 arguments
          (inheritedVariables bridge shellVariable ++ environment.entries)⟩ := by
      unfold execOperands
      rw [if_neg (by decide), if_neg (by decide), if_neg (by decide)]
      rfl
    simp only [execNotSet, execNotCd, ↓reduceIte, utility, Option.map_some]
  · rfl

/-- The operand scan of `env` takes the assignments and nothing else. -/
theorem envOptions_envArguments (program argv0 : Text) (arguments : List Text)
    (inherited : Dict Text Text) {entries : List (Text × Text)}
    (clean : ∀ entry ∈ entries, entry.1 ≠ [] ∧ ('=' : CodePoint) ∉ entry.1) :
    envOptions inherited (envArguments program argv0 arguments entries) =
      some ⟨Dict.ofList entries, target argv0 ++ program :: arguments⟩ := by
  have isCommand : ('=' : CodePoint) ∉ text "/bin/bash" := by decide
  have scanned := envOperands_assignments Dict.empty entries clean isCommand
    (((target argv0).tail) ++ program :: arguments)
  unfold envArguments
  cases entries with
  | nil => exact (envOptions_separator inherited _ (by decide)).trans scanned
  | cons entry rest =>
      have proper : entry.1 ++ text "=" ++ entry.2 ≠ text "-" := by
        intro same
        have member : ('=' : CodePoint) ∈ entry.1 ++ text "=" ++ entry.2 := by
          simp [show text "=" = [('=' : CodePoint)] from rfl]
        rw [same] at member
        exact absurd member (by decide)
      rw [List.map_cons, List.cons_append, envOptions_separator inherited _ proper]
      exact scanned

/-- The inner bash replaces itself with the program under its original name. -/
theorem runScript_execText (valueOf : Text → Option Text) (enter : Text → Bool) :
    runScript ⟨valueOf, argv0 :: program :: arguments⟩ enter execText =
      some (.replaced none ⟨argv0, program, arguments⟩) := by
  have words : lex execText = some [[(text "exec").map .char, (text "-a").map .char,
      [.positional 1], (text "--").map .char, [.positionalFrom 2]]] := by decide +kernel
  have fields : commandFields ⟨valueOf, argv0 :: program :: arguments⟩
      [(text "exec").map .char, (text "-a").map .char, [.positional 1], (text "--").map .char,
        [.positionalFrom 2]] =
      text "exec" :: text "-a" :: argv0 :: text "--" :: program :: arguments := by
    have rest : wordFields ⟨valueOf, argv0 :: program :: arguments⟩ [.positionalFrom 2] =
        program :: arguments := wordFields_single _ _
    simp only [commandFields, List.flatMap_cons, List.flatMap_nil, List.append_nil, rest]
    rfl
  unfold runScript
  rw [words, Option.bind_some, runCommands, fields]
  have notSet : text "exec" ≠ text "set" := by decide
  have notCd : text "exec" ≠ text "cd" := by decide
  have notSeparator : text "-a" ≠ text "--" := by decide
  simp only [notSet, notCd, ↓reduceIte, execOperands, notSeparator, Option.map_some,
    Option.getD_some]

theorem clean_inheritedVariables (bridge : Bool) (shellVariable : Text → Option Text)
    (keys : ∀ key ∈ environment, key ≠ [] ∧ ('=' : CodePoint) ∉ key) :
    ∀ entry ∈ inheritedVariables bridge shellVariable ++ environment.entries,
      entry.1 ≠ [] ∧ ('=' : CodePoint) ∉ entry.1 := by
  have bridged : ∀ key ∈ bridgedKeys, key ≠ [] ∧ ('=' : CodePoint) ∉ key := by decide +kernel
  intro entry member
  rcases List.mem_append.mp member with passed | given
  · cases bridge with
    | false => exact absurd passed List.not_mem_nil
    | true =>
        obtain ⟨key, listed, rfl⟩ := List.mem_map.mp passed
        exact bridged key listed
  · exact keys entry.1 (List.mem_map_of_mem given)

/-- What the guest starts, once the shell can enter the directory. -/
theorem transport_entered (bridge : Bool)
    (free : NulFreeCommand program argv0 arguments environment cwd)
    (keys : ∀ key ∈ environment, key ≠ [] ∧ ('=' : CodePoint) ∉ key)
    (absolute : cwd.head? = some ('/' : CodePoint)) (shellVariable : Text → Option Text)
    (inherited : Dict Text Text) {enter : Text → Bool} (entered : enter cwd = true) :
    transport shellVariable inherited enter
        (commandScript program argv0 arguments environment cwd bridge) =
      some ⟨some cwd, (Dict.ofList (inheritedVariables bridge shellVariable)).update environment,
        ⟨execText, text "x86-arm-exec", argv0 :: program :: arguments⟩,
        ⟨argv0, program, arguments⟩⟩ := by
  have shell := runScript_commandScript bridge free absolute shellVariable [] enter
  rw [if_pos entered] at shell
  have scanned := envOptions_envArguments program argv0 arguments inherited
    (clean_inheritedVariables bridge shellVariable keys)
  have overlaid : Dict.ofList (inheritedVariables bridge shellVariable ++ environment.entries) =
      (Dict.ofList (inheritedVariables bridge shellVariable)).update environment :=
    Dict.updateEntries_append _ _ _
  have arguments_read : bashArguments ((target argv0).tail ++ program :: arguments) =
      some ⟨execText, text "x86-arm-exec", argv0 :: program :: arguments⟩ := by
    have fixed : (target argv0).tail ++ program :: arguments = text "--noprofile" ::
        text "--norc" :: text "-c" :: execText :: text "x86-arm-exec" :: argv0 ::
          program :: arguments := rfl
    have start : ¬ (execText.head? = some ('-' : CodePoint) ∨
        execText.head? = some ('+' : CodePoint)) := by decide
    rw [fixed, bashArguments, if_pos (Or.inl rfl), bashArguments, if_pos (Or.inr rfl),
      bashArguments, if_neg (by decide), if_pos rfl]
    exact if_neg start
  have command : target argv0 ++ program :: arguments =
      text "/bin/bash" :: ((target argv0).tail ++ program :: arguments) := rfl
  unfold transport
  simp only [shell, scanned, overlaid, command, arguments_read, Option.bind_some, ↓reduceIte,
    runScript_execText, Option.none_or]

/-- The configured environment over the bridged variables. -/
theorem get?_guest (bridge : Bool) (environment : Dict Text Text)
    (shellVariable : Text → Option Text) (key : Text) :
    ((Dict.ofList (inheritedVariables bridge shellVariable)).update environment).get? key =
      (environment.get? key).or
        (if bridge = true ∧ key ∈ bridgedKeys then some ((shellVariable key).getD [])
          else none) := by
  rw [Dict.get?_update]
  congr 1
  cases bridge with
  | false => rfl
  | true =>
      have distinct : ((bridgedVariables shellVariable).map Prod.fst).Nodup := by
        have keysEq : (bridgedVariables shellVariable).map Prod.fst = bridgedKeys := rfl
        rw [keysEq]
        decide +kernel
      have looked := (Dict.get?_ofList distinct key).trans
        (Dict.lookup_map bridgedKeys (fun key => (shellVariable key).getD []) key)
      by_cases passed : key ∈ bridgedKeys
      · simp only [passed, and_self, ↓reduceIte] at looked ⊢
        exact looked
      · simp only [passed, and_false, ↓reduceIte] at looked ⊢
        exact looked

/-- **A command reaches its program unchanged.** Whatever the strings contain and
whatever environment the guest shell runs in, the script changes to exactly the
working directory and hands an inner bash, in an environment that is exactly the
configured one over the bridged variables, exactly the program, its `argv[0]` and its
arguments; it stops before starting anything when it cannot enter the directory. -/
theorem transport_commandScript (free : NulFreeCommand program argv0 arguments environment cwd)
    (keys : ∀ key ∈ environment, key ≠ [] ∧ ('=' : CodePoint) ∉ key)
    (absolute : cwd.head? = some ('/' : CodePoint)) (shellVariable : Text → Option Text)
    (inherited : Dict Text Text) (enter : Text → Bool) :
    (enter cwd = true → ∃ guest : Dict Text Text,
      transport shellVariable inherited enter
          (commandScript program argv0 arguments environment cwd bridge) =
        some ⟨some cwd, guest, ⟨execText, text "x86-arm-exec", argv0 :: program :: arguments⟩,
          ⟨argv0, program, arguments⟩⟩ ∧
      ∀ key, guest.get? key = (environment.get? key).or
        (if bridge = true ∧ key ∈ bridgedKeys then some ((shellVariable key).getD []) else none)) ∧
    (enter cwd = false →
      runScript ⟨shellVariable, []⟩ enter
          (commandScript program argv0 arguments environment cwd bridge) = some .stopped) := by
  constructor
  · intro entered
    exact ⟨_, transport_entered bridge free keys absolute shellVariable inherited entered,
      get?_guest bridge environment shellVariable⟩
  · intro refused
    rw [runScript_commandScript bridge free absolute shellVariable [] enter, refused]
    rfl

end Running

/-- An environment whose value holds a quote, a newline and an assignment. -/
def sampleEnvironment : Dict Text Text := ⟨[(text "TOKEN", text "'\nA=$(x)")], by decide⟩

theorem transport_commandScript_sample :
    ∃ guest : Dict Text Text,
      transport (fun _ => none) Dict.empty (fun _ => true)
          (commandScript (text "/bin/a=b c") (text "-x'y") [text "", text "--", text "*"]
            sampleEnvironment (text "/tmp/it's") true) =
        some ⟨some (text "/tmp/it's"), guest,
          ⟨execText, text "x86-arm-exec",
            [text "-x'y", text "/bin/a=b c", text "", text "--", text "*"]⟩,
          ⟨text "-x'y", text "/bin/a=b c", [text "", text "--", text "*"]⟩⟩ ∧
      ∀ key, guest.get? key = (sampleEnvironment.get? key).or
        (if true = true ∧ key ∈ bridgedKeys then some [] else none) :=
  (transport_commandScript ⟨by decide, by decide, by decide, by decide, by decide⟩ (by decide)
    (by decide) (fun _ => none) Dict.empty (fun _ => true)).1 rfl

end X86OnArm.Runtime
