import X86OnArm.Foundation.JsonReading
import X86OnArm.Foundation.LineReader

/-! # The native environment's way to the thunks

The native environment is written into a configuration of the emulator, one repeated key for
each variable, and put into the emulator's own environment once the guest has got its copy.
However the emulator orders what it reads, it then finds each value under its name, and every
other variable as it was (`nativeConfig_applied`). Its reader of configurations is a parameter,
which need not undo numeric escapes (`ConfigLoader`).
-/

namespace X86OnArm.Runtime

open Foundation Foundation.JsonText

/-- The style of `builtins.toJSON`. -/
def nixStyle : Style where
  escape := controlEscape
  inside _ := []
  between _ := []
  before _ := []
  value := []

/-- What the build writes is read back. -/
theorem read?_nixStyle {value : Json Plain} (printable : Printable value) :
    read? (nixStyle.print 0 value) = some value := by
  have nothing : Spaces [] := fun _ member => absurd member List.not_mem_nil
  have sound : nixStyle.Sound :=
    ⟨escapes_controlEscape, fun _ => nothing, fun _ => nothing, fun _ => nothing, nothing⟩
  have read := read?_print sound printable 0 nothing nothing
  rwa [List.append_nil, List.nil_append] at read

/-- The build writes neither control characters nor surrogates. -/
theorem writes_nixStyle : nixStyle.Writes Spelled where
  marks := by decide
  words _ word := (visible_of_word word).spelled
  escape _ := spelled_controlEscape
  inside _ := fun _ member => absurd member List.not_mem_nil
  between _ := fun _ member => absurd member List.not_mem_nil
  before _ := fun _ member => absurd member List.not_mem_nil
  value := fun _ member => absurd member List.not_mem_nil

def equals : CodePoint := '='

/-- `${key}=${value}`. -/
def entryText (entry : Text × Text) : Text := entry.1 ++ equals :: entry.2

/-- The text of the native configuration. -/
def nativeConfigText (nativeEnvironment : List (Text × Text)) : Text :=
  text "\x7b\"Config\":\x7b" ++
    List.intercalate (text ",") (nativeEnvironment.map fun entry =>
      text "\"HostEnv\":" ++ nixStyle.quoted (entryText entry)) ++
    text "\x7d\x7d"

/-- An entry of an environment with a name. -/
def named (name entry : Text) : Bool := (name ++ [equals]).isPrefixOf entry

/-- `getenv`, of a name that is not empty. -/
def getenv (environ : List Text) (name : Text) : Option Text :=
  (environ.find? (named name)).map fun entry => entry.drop (name.length + 1)

/-- An environment with an entry in the place of the first of its name, if there is one. -/
def replaceNamed (name entry : Text) : List Text → Option (List Text)
  | [] => none
  | first :: rest =>
      if named name first then some (entry :: rest)
      else (replaceNamed name entry rest).map (first :: ·)

/-- A process's environment: the entries it was started with, and the larger array that
`putenv` made when it first added one. -/
structure Environ where
  given : List Text
  own : Option (List Text)

def Environ.current (environ : Environ) : List Text := environ.own.getD environ.given

/-- Other entries in the array in use, which may be the given one. -/
def Environ.write (environ : Environ) (entries : List Text) : Environ :=
  match environ.own with
  | none => { environ with given := entries }
  | some _ => { environ with own := some entries }

def nameOf (entry : Text) : Text := entry.takeWhile fun c => c != equals

/-- `putenv`. -/
def Environ.putenv (environ : Environ) (entry : Text) : Environ :=
  match replaceNamed (nameOf entry) entry environ.current with
  | some changed => environ.write changed
  | none => { environ with own := some (environ.current ++ [entry]) }

def nativeConfigDocument (nativeEnvironment : List (Text × Text)) : Json Plain :=
  .object [(text "Config", .object (nativeEnvironment.map fun entry =>
    (text "HostEnv", .string (entryText entry))))]

/-- Text that JSON holds without numeric escapes. -/
def Readable (value : Text) : Prop :=
  Clean value ∧ ∀ c ∈ value, 32 ≤ c.code ∨ (shortEscape? c).isSome

/-- What an environment is configured with: names that differ, and values that are read. -/
structure Configured (entries : List (Text × Text)) : Prop where
  nonempty : ∀ entry ∈ entries, entry.1 ≠ []
  plain : ∀ entry ∈ entries, equals ∉ entry.1
  distinct : (entries.map Prod.fst).Nodup
  readable : ∀ entry ∈ entries, Readable (entryText entry)

/-- `HostEnvironment.All()` of an emulator that is configured by a file of this text and nothing
else: for repeated keys all their strings, in some order. -/
structure ConfigLoader where
  all : Text → List Text
  reads : ∀ file entries, Configured entries →
    read? file = some (nativeConfigDocument entries) → (all file).Perm (entries.map entryText)

/-- The start of the emulator: the guest's copy of the environment, and then the host's. -/
def startInterpreter (environment hostEnvironment : List Text) : List Text × Environ :=
  let started : Environ := ⟨environment, none⟩
  (started.current, hostEnvironment.foldl Environ.putenv started)

section Document

variable {nativeEnvironment : List (Text × Text)}

/-- The text of one variable. -/
def hostEnvText (entry : Text × Text) : Text :=
  text "\"HostEnv\":" ++ nixStyle.quoted (entryText entry)

theorem memberText_hostEnv (entry : Text × Text) :
    memberText nixStyle 2 (text "HostEnv", .string (entryText entry)) = hostEnvText entry := by
  have name : nixStyle.quoted (text "HostEnv") ++ colon :: nixStyle.value =
      text "\"HostEnv\":" := by decide
  unfold memberText hostEnvText
  rw [name, print_string]

/-- An object without spaces. -/
theorem bracketed_nixStyle (depth : Nat) (parts : List Text) :
    nixStyle.bracketed brace '}' depth parts =
      text "\x7b" ++ List.intercalate (text ",") parts ++ text "\x7d" := by
  unfold Style.bracketed
  split
  · subst parts
    rfl
  · change brace :: [] ++ List.intercalate [comma] parts ++ [] ++ [('}' : CodePoint)] = _
    rw [List.append_nil]
    rfl

theorem nativeConfigText_eq (nativeEnvironment : List (Text × Text)) :
    nativeConfigText nativeEnvironment =
      nixStyle.print 0 (nativeConfigDocument nativeEnvironment) := by
  have config : nixStyle.quoted (text "Config") ++ colon :: nixStyle.value =
      text "\"Config\":" := by decide
  have entries : ((nativeEnvironment.map fun entry =>
      (text "HostEnv", Json.string (entryText entry))).map fun member =>
        (member, memberText nixStyle 2 member)).map Prod.snd =
      nativeEnvironment.map hostEnvText := by
    rw [List.map_map, List.map_map]
    exact List.map_congr_left fun entry _ => memberText_hostEnv entry
  unfold nativeConfigDocument
  rw [print_object, bracketed_nixStyle, List.map_cons, List.map_cons, List.map_nil, List.map_nil,
    List.intercalate_singleton, memberText, config, print_object, bracketed_nixStyle, entries]
  unfold nativeConfigText
  simp only [List.append_assoc]
  rfl

end Document

section Environment

variable {name other value entry : Text} {environ : List Text}

theorem named_iff : named name entry = true ↔ ∃ value, entry = entryText (name, value) := by
  unfold named entryText
  rw [List.isPrefixOf_iff_prefix]
  constructor
  · rintro ⟨value, rfl⟩
    exact ⟨value, List.append_assoc _ _ _⟩
  · rintro ⟨value, rfl⟩
    exact ⟨value, List.append_assoc _ _ _⟩

/-- An entry has one name. -/
theorem not_named (plain : equals ∉ name) (plainOther : equals ∉ other) (different : other ≠ name)
    (here : named name entry = true) : named other entry = false := by
  apply Bool.eq_false_iff.mpr
  intro there
  obtain ⟨value, rfl⟩ := named_iff.mp here
  obtain ⟨more, same⟩ := named_iff.mp there
  exact different (Reader.split_unique plain plainOther same).1.symm

theorem getenv_cons (first : Text) (environ : List Text) (name : Text) :
    getenv (first :: environ) name =
      if named name first then some (first.drop (name.length + 1)) else getenv environ name := by
  unfold getenv
  rw [List.find?_cons]
  cases named name first
  · rfl
  · rfl

/-- The value stands behind the name and the sign. -/
theorem drop_entryText (name value : Text) :
    (entryText (name, value)).drop (name.length + 1) = value := by
  have split : entryText (name, value) = (name ++ [equals]) ++ value := by
    rw [List.append_assoc]
    rfl
  have length : name.length + 1 = (name ++ [equals]).length := by
    rw [List.length_append, List.length_singleton]
  rw [split, length, List.drop_left]

theorem getenv_named (name value : Text) (environ : List Text) :
    getenv (entryText (name, value) :: environ) name = some value := by
  rw [getenv_cons, if_pos (named_iff.mpr ⟨value, rfl⟩), drop_entryText]

/-- An environment with a variable set. -/
def withEntry (entry name : Text) (environ : List Text) : List Text :=
  (replaceNamed name entry environ).getD (environ ++ [entry])

theorem replaceNamed_cons (name entry first : Text) (rest : List Text) :
    replaceNamed name entry (first :: rest) =
      if named name first then some (entry :: rest)
      else (replaceNamed name entry rest).map (first :: ·) := rfl

theorem withEntry_cons (first : Text) (notNamed : named name first = false) :
    withEntry entry name (first :: environ) = first :: withEntry entry name environ := by
  unfold withEntry
  rw [replaceNamed_cons, if_neg (ne_true_of_eq_false notNamed)]
  cases replaceNamed name entry environ with
  | none => rfl
  | some changed => rfl

/-- Setting a variable sets this one only. -/
theorem getenv_withEntry (plain : equals ∉ name) (value : Text) (environ : List Text) :
    getenv (withEntry (entryText (name, value)) name environ) name = some value ∧
      ∀ other, equals ∉ other → other ≠ name →
        getenv (withEntry (entryText (name, value)) name environ) other =
          getenv environ other := by
  have self : named name (entryText (name, value)) = true := named_iff.mpr ⟨value, rfl⟩
  induction environ with
  | nil =>
      refine ⟨getenv_named name value [], fun other plainOther different => ?_⟩
      have missed := not_named plain plainOther different self
      exact (getenv_cons _ [] other).trans (if_neg (ne_true_of_eq_false missed))
  | cons first rest ih =>
      cases here : named name first with
      | true =>
          have replaced : withEntry (entryText (name, value)) name (first :: rest) =
              entryText (name, value) :: rest := by
            unfold withEntry
            rw [replaceNamed_cons, if_pos here]
            rfl
          rw [replaced]
          refine ⟨getenv_named name value rest, fun other plainOther different => ?_⟩
          have missed := not_named plain plainOther different self
          have missedFirst := not_named plain plainOther different here
          rw [getenv_cons, getenv_cons, if_neg (ne_true_of_eq_false missed),
            if_neg (ne_true_of_eq_false missedFirst)]
      | false =>
          rw [withEntry_cons first here]
          refine ⟨?_, fun other plainOther different => ?_⟩
          · rw [getenv_cons, if_neg (ne_true_of_eq_false here)]
            exact ih.1
          · rw [getenv_cons, getenv_cons, ih.2 other plainOther different]

theorem nameOf_entryText (plain : equals ∉ name) (value : Text) :
    nameOf (entryText (name, value)) = name := by
  have clean : ∀ c ∈ name, (c != equals) = true := by
    intro c member
    apply bne_iff_ne.mpr
    rintro rfl
    exact plain member
  unfold nameOf entryText
  rw [List.takeWhile_append_of_pos clean, List.takeWhile_cons_of_neg (by decide),
    List.append_nil]

theorem current_write (environ : Environ) (entries : List Text) :
    (environ.write entries).current = entries := by
  obtain ⟨given, own⟩ := environ
  cases own with
  | none => rfl
  | some array => rfl

theorem current_putenv (plain : equals ∉ name) (value : Text) (environ : Environ) :
    (environ.putenv (entryText (name, value))).current =
      withEntry (entryText (name, value)) name environ.current := by
  unfold Environ.putenv withEntry
  rw [nameOf_entryText plain]
  cases replaceNamed name (entryText (name, value)) environ.current with
  | none => rfl
  | some changed => exact current_write environ changed

/-- The variables that a sequence of entries sets, the names apart. -/
theorem getenv_putenvs {entries : List (Text × Text)} (plain : ∀ entry ∈ entries, equals ∉ entry.1)
    (distinct : (entries.map Prod.fst).Nodup) (environ : Environ) :
    (∀ entry ∈ entries,
      getenv ((entries.map entryText).foldl Environ.putenv environ).current entry.1 =
        some entry.2) ∧
      ∀ name, equals ∉ name → name ∉ entries.map Prod.fst →
        getenv ((entries.map entryText).foldl Environ.putenv environ).current name =
          getenv environ.current name := by
  induction entries generalizing environ with
  | nil => exact ⟨fun _ member => absurd member List.not_mem_nil, fun _ _ _ => rfl⟩
  | cons first rest ih =>
      obtain ⟨name, value⟩ := first
      have plainName : equals ∉ name := plain _ List.mem_cons_self
      obtain ⟨fresh, distinctRest⟩ := List.nodup_cons.mp distinct
      obtain ⟨sets, keeps⟩ := ih (fun entry member => plain entry (List.mem_cons_of_mem _ member))
        distinctRest (environ.putenv (entryText (name, value)))
      have current := current_putenv plainName value environ
      obtain ⟨set, kept⟩ := getenv_withEntry plainName value environ.current
      rw [← current] at set kept
      rw [List.map_cons, List.foldl_cons]
      refine ⟨?_, ?_⟩
      · intro entry member
        rcases List.mem_cons.mp member with rfl | later
        · rw [keeps _ plainName fresh, set]
        · exact sets entry later
      · intro other plainOther absent
        obtain ⟨different, absentRest⟩ :=
          not_or.mp (fun inside => absent (List.mem_cons.mpr inside))
        rw [keeps other plainOther absentRest]
        exact kept other plainOther different

/-- The name and the value of an entry. -/
def splitEntry (entry : Text) : Text × Text :=
  (nameOf entry, entry.drop ((nameOf entry).length + 1))

theorem splitEntry_entryText (plain : equals ∉ name) (value : Text) :
    splitEntry (entryText (name, value)) = (name, value) := by
  unfold splitEntry
  rw [nameOf_entryText plain, drop_entryText]

/-- In another order the entries are still those of the same variables. -/
theorem perm_entries {entries : List (Text × Text)} (plain : ∀ entry ∈ entries, equals ∉ entry.1)
    {texts : List Text} (perm : texts.Perm (entries.map entryText)) :
    ∃ ordered : List (Text × Text), ordered.Perm entries ∧ texts = ordered.map entryText := by
  have back : (entries.map entryText).map splitEntry = entries := by
    rw [List.map_map]
    refine (List.map_congr_left fun entry member => ?_).trans (List.map_id _)
    exact splitEntry_entryText (plain entry member) entry.2
  refine ⟨texts.map splitEntry, ?_, ?_⟩
  · have split := perm.map splitEntry
    rwa [back] at split
  · rw [List.map_map]
    refine ((List.map_congr_left fun entry member => ?_).trans (List.map_id _)).symm
    obtain ⟨pair, listed, rfl⟩ := List.mem_map.mp (perm.mem_iff.mp member)
    exact congrArg entryText (splitEntry_entryText (plain pair listed) pair.2)

end Environment

theorem printable_nativeConfig {nativeEnvironment : List (Text × Text)}
    (clean : ∀ entry ∈ nativeEnvironment, Clean (entryText entry)) :
    Printable (nativeConfigDocument nativeEnvironment) := by
  have entries : Printable (.object (nativeEnvironment.map fun entry =>
      (text "HostEnv", .string (entryText entry)))) := by
    apply Printable.object
    · intro member listed
      obtain ⟨entry, -, rfl⟩ := List.mem_map.mp listed
      exact clean_text "HostEnv"
    · intro member listed
      obtain ⟨entry, inEntries, rfl⟩ := List.mem_map.mp listed
      exact .string (clean entry inEntries)
  apply Printable.object
  · intro member listed
    rw [List.mem_singleton.mp listed]
    exact clean_text "Config"
  · intro member listed
    rw [List.mem_singleton.mp listed]
    exact entries

/-- **The native environment reaches the emulator, and not its guest.** The configuration's text
is JSON with one entry for each variable; once the emulator has put them into its environment
every variable has its value there, the other ones are as they were, and the guest's copy is the
environment the emulator was started with. -/
theorem nativeConfig_applied (loader : ConfigLoader) {nativeEnvironment : List (Text × Text)}
    (environment : List Text) (configured : Configured nativeEnvironment) :
    read? (nativeConfigText nativeEnvironment) = some (nativeConfigDocument nativeEnvironment) ∧
      ∃ guest host, startInterpreter environment
          (loader.all (nativeConfigText nativeEnvironment)) = (guest, host) ∧
        guest = environment ∧
        (∀ entry ∈ nativeEnvironment, getenv host.current entry.1 = some entry.2) ∧
        ∀ name, equals ∉ name → name ∉ nativeEnvironment.map Prod.fst →
          getenv host.current name = getenv environment name := by
  have printable := printable_nativeConfig fun entry member =>
    (configured.readable entry member).1
  have read := read?_nixStyle printable
  rw [← nativeConfigText_eq] at read
  obtain ⟨ordered, perm, same⟩ :=
    perm_entries configured.plain (loader.reads _ _ configured read)
  have names := perm.map Prod.fst
  obtain ⟨sets, keeps⟩ := getenv_putenvs
    (fun entry member => configured.plain entry (perm.mem_iff.mp member))
    (names.nodup_iff.mpr configured.distinct) ⟨environment, none⟩
  refine ⟨read, _, _, rfl, rfl, ?_, ?_⟩
  · intro entry member
    rw [same]
    exact sets entry (perm.mem_iff.mpr member)
  · intro name plain absent
    rw [same]
    exact keeps name plain (mt names.mem_iff.mp absent)

/-- The repeated strings of a configuration, in their order. -/
def hostEnvironment (document : Json Plain) : List Text :=
  (((document.members.lookup (text "Config")).map Json.members).getD []).filterMap fun member =>
    match member.2 with
    | .string value => if member.1 = text "HostEnv" then some value else none
    | _ => none

theorem hostEnvironment_document (nativeEnvironment : List (Text × Text)) :
    hostEnvironment (nativeConfigDocument nativeEnvironment) =
      nativeEnvironment.map entryText := by
  unfold hostEnvironment nativeConfigDocument
  rw [Json.members_object, List.lookup_cons_self, Option.map_some, Option.getD_some,
    Json.members_object, List.filterMap_map]
  induction nativeEnvironment with
  | nil => rfl
  | cons entry more ih =>
      rw [List.filterMap_cons, ih]
      rfl

/-- A loader that keeps the order of the file. -/
def fileLoader : ConfigLoader where
  all file := ((read? file).map hostEnvironment).getD []
  reads file entries configured read := by
    rw [read, Option.map_some, Option.getD_some, hostEnvironment_document]

/-- Two drivers, one with a quote in its name. -/
def sampleNative : List (Text × Text) :=
  [(text "GALLIUM_DRIVER", text "a\"b"), (text "LIBGL_DRIVERS_PATH", text "/lib\n=x")]

theorem nativeConfig_applied_sample :
    ∃ host, startInterpreter [text "GALLIUM_DRIVER=zink"]
        (fileLoader.all (nativeConfigText sampleNative)) = ([text "GALLIUM_DRIVER=zink"], host) ∧
      getenv host.current (text "GALLIUM_DRIVER") = some (text "a\"b") := by
  have readable : ∀ entry ∈ sampleNative, Readable (entryText entry) := by
    have texts : sampleNative.map entryText =
        [text "GALLIUM_DRIVER=a\"b", text "LIBGL_DRIVERS_PATH=/lib\n=x"] := by decide
    intro entry member
    have listed : entryText entry ∈ sampleNative.map entryText := List.mem_map_of_mem member
    rw [texts] at listed
    rcases List.mem_pair.mp listed with same | same
    · rw [same]
      exact ⟨clean_text _, by decide⟩
    · rw [same]
      exact ⟨clean_text _, by decide⟩
  obtain ⟨-, guest, host, started, rfl, sets, -⟩ := nativeConfig_applied fileLoader
    [text "GALLIUM_DRIVER=zink"]
    ⟨show ∀ entry ∈ sampleNative, entry.1 ≠ [] by decide,
      show ∀ entry ∈ sampleNative, equals ∉ entry.1 by decide, by decide, readable⟩
  exact ⟨host, started, sets _ List.mem_cons_self⟩

end X86OnArm.Runtime
