import X86OnArm.Runtime.PathNormalisation

/-! # The lookup of a program by its name

A name without a slash is looked for in the directories of `PATH` and then in the
guest's. `resolveProgram_lookup_iff` says on which files the search gives a path of
what it is meant to find: it does unless a program it cannot read stands before the
first it can use, the first it can use is another file once its path is normalised, or
the first guest directory that has the name has a directory there.
-/

namespace X86OnArm.Runtime

open Foundation

section Search

variable {α : Type*} (wanted stops : α → Bool)

/-- Nothing before the first wanted element of a list stops a search through it. -/
def Clear (list : List α) : Prop :=
  ∀ element ∈ list.takeWhile fun element => !wanted element, stops element = false

instance (list : List α) : Decidable (Clear wanted stops list) :=
  inferInstanceAs (Decidable (∀ element ∈ _, _))

theorem clear_cons {element : α} {rest : List α} :
    Clear wanted stops (element :: rest) ↔
      (wanted element = false → stops element = false ∧ Clear wanted stops rest) := by
  unfold Clear
  cases good : wanted element with
  | true =>
      rw [List.takeWhile_cons_of_neg (by rw [good]; exact Bool.false_ne_true)]
      exact iff_of_true nofun nofun
  | false =>
      rw [List.takeWhile_cons_of_pos (by rw [good]; rfl), List.forall_mem_cons]
      exact ⟨fun clear _ => clear, fun clear => clear rfl⟩

/-- A search that also stops at other elements ends at the first wanted one if none
of the others stands before it, and at an unwanted one otherwise. -/
theorem find?_or (list : List α) :
    (Clear wanted stops list ∧
      (list.find? fun element => wanted element || stops element) = list.find? wanted) ∨
    (¬ Clear wanted stops list ∧ ∃ element ∈ list, wanted element = false ∧
      (list.find? fun element => wanted element || stops element) = some element) := by
  induction list with
  | nil => exact .inl ⟨nofun, rfl⟩
  | cons element rest ih =>
      rw [clear_cons]
      cases good : wanted element with
      | true =>
          refine .inl ⟨nofun, ?_⟩
          rw [List.find?_cons_of_pos good, List.find?_cons_of_pos (by rw [good]; rfl)]
      | false =>
          rw [forall_prop_of_true rfl, List.find?_cons_of_neg (ne_true_of_eq_false good)]
          cases bad : stops element with
          | true =>
              refine .inr ⟨fun clear => Bool.noConfusion clear.1, element, List.mem_cons_self,
                good, ?_⟩
              rw [List.find?_cons_of_pos (by rw [bad, Bool.or_true])]
          | false =>
              rw [List.find?_cons_of_neg (by rw [good, bad]; exact Bool.false_ne_true),
                and_iff_right rfl]
              obtain same | ⟨unclear, stop, member, unwanted, found⟩ := ih
              · exact .inl same
              · exact .inr ⟨unclear, stop, List.mem_cons_of_mem element member, unwanted, found⟩

end Search

/-- What a path leads to: nothing, a directory, or a file that may be executable,
with its contents if they can be read. -/
inductive FileState where
  | absent
  | directory
  | plain (executable : Bool) (contents : Option (List UInt8))
  deriving DecidableEq

namespace FileState

/-- `os.path.exists`. -/
def present : FileState → Bool
  | .absent => false
  | .directory | .plain _ _ => true

def isFile : FileState → Bool
  | .plain _ _ => true
  | .absent | .directory => false

def isDirectory : FileState → Bool
  | .directory => true
  | .absent | .plain _ _ => false

/-- What `shutil.which` takes: an executable that is no directory. -/
def runnable : FileState → Bool
  | .plain executable _ => executable
  | .absent | .directory => false

/-- The bytes of a file that can be read. -/
def contents? : FileState → Option (List UInt8)
  | .plain _ contents => contents
  | .absent | .directory => none

end FileState

/-- The host with these files. Reading a file that cannot be read is refused. -/
def Host.withFiles (host : Host) (files : Text → FileState) (refusal : Text → Text) : Host :=
  { host with
    fileExists := fun path => (files path).present
    executable := fun path => (files path).runnable
    header := fun path =>
      match (files path).contents? with
      | some contents => .ok (contents.take 20)
      | none => .error (.osError (refusal path)) }

/-! ## What the search is meant to find -/

def IsScript (contents : List UInt8) : Prop := [35, 33] <+: contents

/-- An ELF file whose machine field, its bytes 18 and 19, is `EM_386` or
`EM_X86_64`. -/
def IsX86Elf (contents : List UInt8) : Prop :=
  [127, 69, 76, 70] <+: contents ∧
    (fromLittle ((contents.drop 18).take 2) = 3 ∨ fromLittle ((contents.drop 18).take 2) = 62)

instance (contents : List UInt8) : Decidable (IsScript contents) :=
  inferInstanceAs (Decidable (_ <+: _))

instance (contents : List UInt8) : Decidable (IsX86Elf contents) :=
  inferInstanceAs (Decidable (_ ∧ _))

/-- Executable, readable, and a script or an ELF file of an x86 machine. -/
def FileState.usable (state : FileState) : Bool :=
  state.runnable && state.contents?.any fun contents => IsScript contents ∨ IsX86Elf contents

/-- Executable, but its contents cannot be read. -/
def FileState.unreadable (state : FileState) : Bool :=
  state.runnable && state.contents?.isNone

/-- A program file: whether the caller may execute it, and what is read from it. -/
structure ProgramFile where
  executable : Bool
  contents : Option (List UInt8)
  deriving DecidableEq

/-- What a path leads to in a directory of this file system. -/
def stateAt (fs : FileSystem ProgramFile) (cwd : Path) (path : Text) : FileState :=
  match (fs.resolvePath cwd path).bind fs.get? with
  | some (.file file) => .plain file.executable file.contents
  | some (.directory _) => .directory
  | some (.link _) | none => .absent

section Lookup

variable (files : Text → FileState) (program rootfs : Text) (source : Dict Text Text)

/-- Where a name is in one directory of `PATH`; the empty one is the current one. -/
def candidate (directory : Text) : Text :=
  PosixPath.join (if directory = [] then PosixPath.dot else directory) program

def candidates : List Text := (execPath source).map (candidate program)

def guestDirectories : List Text := [text "usr/bin", text "bin", text "usr/sbin"]

/-- Where a name is in one directory of the image. -/
def guestCandidate (directory : Text) : Text :=
  PosixPath.child (PosixPath.child rootfs directory) program

/-- The same file as the guest sees it. -/
def guestPath (directory : Text) : Text := text "/" ++ directory ++ text "/" ++ program

def firstUsable : Option Text := (candidates program source).find? fun path => (files path).usable

/-- What the search is meant to find. -/
inductive Intended where
  | candidate (found : Text)
  | guest (directory : Text)
  | missing

/-- **What the search is meant to find.** The first usable candidate; without one,
the first guest directory's file of that name. -/
def intendedProgram : Intended :=
  match firstUsable files program source with
  | some found => .candidate found
  | none =>
      match guestDirectories.find? fun directory =>
          (files (guestCandidate program rootfs directory)).isFile with
      | some directory => .guest directory
      | none => .missing

/-- No candidate before the first usable one is executable and unreadable. -/
def ReadableBefore : Prop :=
  Clear (fun path => (files path).usable) (fun path => (files path).unreadable)
    (candidates program source)

/-- Where no candidate is usable, no guest directory has a directory of that name
before the first that has a file. -/
def NoGuestDirectory : Prop :=
  firstUsable files program source = none →
    Clear (fun directory => (files (guestCandidate program rootfs directory)).isFile)
      (fun directory => (files (guestCandidate program rootfs directory)).isDirectory)
      guestDirectories

instance : Decidable (ReadableBefore files program source) :=
  inferInstanceAs (Decidable (Clear _ _ _))

instance : Decidable (NoGuestDirectory files program rootfs source) :=
  inferInstanceAs (Decidable (_ → Clear _ _ _))

end Lookup

section Meaning

variable (fs : FileSystem ProgramFile) (cwd : Path) (program rootfs : Text)
  (source : Dict Text Text)

/-- The search has given what it was meant to find: an absolute path of the candidate's
own file, the guest's path of the file in the image, or the error. -/
def Intended.Given : Intended → Except Failure Text → Prop
  | .candidate found, .ok path =>
      PosixPath.isAbsolute path = true ∧ fs.resolvePath cwd path = fs.resolvePath cwd found
  | .candidate _, .error _ => False
  | .guest directory, outcome => outcome = .ok (guestPath program directory)
  | .missing, outcome =>
      outcome = .error (.runtimeError (text "x86 executable not found: " ++ program))

instance (intended : Intended) (outcome : Except Failure Text) :
    Decidable (intended.Given fs cwd program outcome) :=
  match intended, outcome with
  | .candidate _, .ok _ => inferInstanceAs (Decidable (_ ∧ _))
  | .candidate _, .error _ => inferInstanceAs (Decidable False)
  | .guest _, outcome => inferInstanceAs (Decidable (outcome = _))
  | .missing, outcome => inferInstanceAs (Decidable (outcome = _))

/-- The path leads to a file that is no directory: on the host where a candidate is usable,
and otherwise in the image. -/
def NamesFile (path : Text) : Prop :=
  match firstUsable (stateAt fs cwd) program source with
  | some _ => (stateAt fs cwd path).isFile = true
  | none => ∃ directory ∈ guestDirectories, path = guestPath program directory ∧
      (stateAt fs cwd (guestCandidate program rootfs directory)).isFile = true

/-- The path of the first usable candidate, normalised, still leads to that file. -/
def FoundNormalised : Prop :=
  ∀ found ∈ firstUsable (stateAt fs cwd) program source,
    fs.resolvePath cwd (PosixPath.abspath (PosixPath.pathOf cwd) found) =
      fs.resolvePath cwd found

instance : Decidable (FoundNormalised fs cwd program source) :=
  inferInstanceAs (Decidable (∀ found ∈ (_ : Option Text), _ = _))

end Meaning

section Headers

/-- The test of a header sees all that matters of the contents. -/
theorem x86Header_take (contents : List UInt8) :
    x86Header (contents.take 20) = decide (IsScript contents ∨ IsX86Elf contents) := by
  rw [Bool.eq_iff_iff, decide_eq_true_iff]
  unfold x86Header IsScript IsX86Elf
  have machine : ((contents.take 20).drop 18).take 2 = (contents.drop 18).take 2 := by
    rw [List.drop_take, List.take_take]
    rfl
  have magic : (contents.take 20).take 4 = [127, 69, 76, 70] ↔ [127, 69, 76, 70] <+: contents := by
    rw [List.take_take, List.prefix_iff_eq_take, eq_comm]
    rfl
  rw [machine, Bool.or_eq_true, Bool.and_eq_true, List.isPrefixOf_iff_prefix, List.prefix_take_iff,
    beq_iff_eq, magic, List.contains_iff_mem, List.mem_pair]
  exact or_congr_left (and_iff_left (by decide))

end Headers

section Resolution

variable {host : Host} {files : Text → FileState} {refusal : Text → Text}
  {cwd program rootfs : Text} {source : Dict Text Text}

/-- What one candidate does to the search. -/
theorem searchPath_cons (directory : Text) (rest : List Text) :
    searchPath (host.withFiles files refusal) cwd program (directory :: rest) =
      if (files (candidate program directory)).usable then
        .ok (some (PosixPath.abspath cwd (candidate program directory)))
      else if (files (candidate program directory)).unreadable then
        .error (.osError (refusal (candidate program directory)))
      else searchPath (host.withFiles files refusal) cwd program rest := by
  have header : (host.withFiles files refusal).header (candidate program directory) =
      match (files (candidate program directory)).contents? with
      | some contents => .ok (contents.take 20)
      | none => .error (.osError (refusal (candidate program directory))) := rfl
  change (if (files (candidate program directory)).runnable = true then
    ((host.withFiles files refusal).header (candidate program directory)) >>= fun header =>
      if x86Header header then .ok (some (PosixPath.abspath cwd (candidate program directory)))
      else searchPath (host.withFiles files refusal) cwd program rest
    else searchPath (host.withFiles files refusal) cwd program rest) = _
  rw [header]
  cases files (candidate program directory) with
  | absent => rfl
  | directory => rfl
  | plain executable contents =>
      cases executable with
      | false => rfl
      | true =>
          cases contents with
          | none => rfl
          | some contents =>
              change (if x86Header (contents.take 20) = true then _ else _) = _
              rw [x86Header_take]
              rfl

/-- The search of `PATH` ends at the first candidate it can use or cannot read. -/
theorem searchPath_withFiles (directories : List Text) :
    searchPath (host.withFiles files refusal) cwd program directories =
      match (directories.map (candidate program)).find? fun path =>
          (files path).usable || (files path).unreadable with
      | none => .ok none
      | some found =>
          if (files found).usable then .ok (some (PosixPath.abspath cwd found))
          else .error (.osError (refusal found)) := by
  induction directories with
  | nil => rfl
  | cons directory rest ih =>
      rw [searchPath_cons, List.map_cons, List.find?_cons]
      cases usable : (files (candidate program directory)).usable with
      | true => exact (if_pos usable).symm
      | false =>
          cases unreadable : (files (candidate program directory)).unreadable with
          | true => exact (if_neg (ne_true_of_eq_false usable)).symm
          | false => exact ih

theorem FileState.present_eq (state : FileState) :
    state.present = (state.isFile || state.isDirectory) := by
  cases state <;> rfl

theorem FileState.isFile_of_usable {state : FileState} (usable : state.usable) :
    state.isFile := by
  cases state with
  | absent => exact usable
  | directory => exact usable
  | plain executable contents => rfl

/-- The whole of `resolve_program`, for a name. -/
theorem resolveProgram_withFiles (named : PosixPath.slash ∉ program) :
    resolveProgram (host.withFiles files refusal) cwd program rootfs source =
      match (candidates program source).find? fun path =>
          (files path).usable || (files path).unreadable with
      | some found =>
          if (files found).usable then .ok (PosixPath.abspath cwd found)
          else .error (.osError (refusal found))
      | none =>
          match guestDirectories.find? fun directory =>
              (files (guestCandidate program rootfs directory)).isFile ||
                (files (guestCandidate program rootfs directory)).isDirectory with
          | some directory => .ok (guestPath program directory)
          | none => .error (.runtimeError (text "x86 executable not found: " ++ program)) := by
  unfold resolveProgram
  rw [if_neg named, searchPath_withFiles]
  change ((match (candidates program source).find? fun path =>
      (files path).usable || (files path).unreadable with
    | none => _
    | some found => _) >>= _) = _
  cases (candidates program source).find? fun path =>
      (files path).usable || (files path).unreadable with
  | some found =>
      dsimp only
      split <;> rfl
  | none =>
      simp only [← FileState.present_eq]
      rfl

/-- Different guest directories give different paths. -/
theorem guestPath_injOn {first second : Text} (left : first ∈ guestDirectories)
    (right : second ∈ guestDirectories)
    (same : guestPath program first = guestPath program second) : first = second := by
  have distinct : ∀ left ∈ guestDirectories, ∀ right ∈ guestDirectories,
      left.length = right.length → left = right := by decide +kernel
  refine distinct first left second right ?_
  have lengths := congrArg List.length same
  unfold guestPath at lengths
  simp only [List.length_append] at lengths
  omega

/-- With nothing unreadable in its way the search of `PATH` is the intended one. -/
theorem resolveProgram_of_readable (named : PosixPath.slash ∉ program)
    (readable : ReadableBefore files program source) :
    resolveProgram (host.withFiles files refusal) cwd program rootfs source =
      match firstUsable files program source with
      | some found => .ok (PosixPath.abspath cwd found)
      | none =>
          match guestDirectories.find? fun directory =>
              (files (guestCandidate program rootfs directory)).isFile ||
                (files (guestCandidate program rootfs directory)).isDirectory with
          | some directory => .ok (guestPath program directory)
          | none => .error (.runtimeError (text "x86 executable not found: " ++ program)) := by
  rw [resolveProgram_withFiles named]
  unfold firstUsable
  obtain ⟨-, through⟩ | ⟨unreadable, -⟩ := find?_or (fun path => (files path).usable)
    (fun path => (files path).unreadable) (candidates program source)
  · rw [through]
    cases first : (candidates program source).find? fun path => (files path).usable with
    | none => rfl
    | some found =>
        have usable := List.find?_some first
        exact if_pos usable
  · exact absurd readable unreadable

/-- Something unreadable in its way ends the search with a failure of its own. -/
theorem resolveProgram_of_not_readable (host : Host) (refusal : Text → Text) (cwd rootfs : Text)
    (named : PosixPath.slash ∉ program)
    (unreadable : ¬ ReadableBefore files program source) :
    ∃ path, resolveProgram (host.withFiles files refusal) cwd program rootfs source =
      .error (.osError (refusal path)) := by
  rw [resolveProgram_withFiles named]
  obtain ⟨readable, -⟩ | ⟨-, stop, -, unusable, stopped⟩ := find?_or
    (fun path => (files path).usable) (fun path => (files path).unreadable)
    (candidates program source)
  · exact absurd readable unreadable
  · rw [stopped]
    exact ⟨stop, if_neg (ne_true_of_eq_false unusable)⟩

/-- With a usable candidate on `PATH`, the search gives its normalised path. -/
theorem resolveProgram_of_usable (host : Host) (refusal : Text → Text) (cwd rootfs : Text)
    (named : PosixPath.slash ∉ program) (readable : ReadableBefore files program source)
    {found : Text} (first : firstUsable files program source = some found) :
    resolveProgram (host.withFiles files refusal) cwd program rootfs source =
      .ok (PosixPath.abspath cwd found) := by
  rw [resolveProgram_of_readable named readable, first]

/-- Without a usable candidate, the search is the intended one exactly if no directory is
in its way in the image. -/
theorem resolveProgram_in_image (host : Host) (refusal : Text → Text) (cwd : Text)
    (named : PosixPath.slash ∉ program) (readable : ReadableBefore files program source)
    (unusable : firstUsable files program source = none) :
    resolveProgram (host.withFiles files refusal) cwd program rootfs source =
        (match guestDirectories.find? fun directory =>
            (files (guestCandidate program rootfs directory)).isFile with
          | some directory => .ok (guestPath program directory)
          | none => .error (.runtimeError (text "x86 executable not found: " ++ program))) ↔
      NoGuestDirectory files program rootfs source := by
  rw [resolveProgram_of_readable named readable, unusable]
  unfold NoGuestDirectory
  rw [forall_prop_of_true unusable]
  obtain ⟨clear, through⟩ | ⟨obstructed, stop, member, noFile, stopped⟩ := find?_or
    (fun directory => (files (guestCandidate program rootfs directory)).isFile)
    (fun directory => (files (guestCandidate program rootfs directory)).isDirectory)
    guestDirectories
  · rw [through]
    exact iff_of_true rfl clear
  · refine iff_of_false (fun same => ?_) obstructed
    rw [stopped] at same
    cases first : guestDirectories.find? fun directory =>
        (files (guestCandidate program rootfs directory)).isFile with
    | none =>
        rw [first] at same
        cases same
    | some directory =>
        rw [first] at same
        have isFile := List.find?_some first
        have paths : guestPath program stop = guestPath program directory := by injection same
        cases guestPath_injOn member (List.mem_of_find?_eq_some first) paths
        exact absurd isFile (ne_true_of_eq_false noFile)

end Resolution

section Tree

variable {host : Host} {fs : FileSystem ProgramFile} {refusal : Text → Text} {cwd : Path}
  {program rootfs : Text} {source : Dict Text Text}

theorem stateAt_congr {first second : Text}
    (same : fs.resolvePath cwd first = fs.resolvePath cwd second) :
    stateAt fs cwd first = stateAt fs cwd second := by
  unfold stateAt
  rw [same]

theorem resolves_of_isFile {path : Text} (isFile : (stateAt fs cwd path).isFile = true) :
    ∃ real, fs.resolvePath cwd path = some real := by
  cases leads : fs.resolvePath cwd path with
  | none =>
      unfold stateAt at isFile
      rw [leads] at isFile
      cases isFile
  | some real => exact ⟨real, rfl⟩

theorem isFile_of_firstUsable {found : Text}
    (first : firstUsable (stateAt fs cwd) program source = some found) :
    (stateAt fs cwd found).isFile = true := by
  have usable := List.find?_some first
  exact FileState.isFile_of_usable usable

/-- A path whose every `..` takes back a name that leads to a directory where it was looked
up is a path of the same file when it is normalised. -/
theorem foundNormalised_of_keepsParents (inDirectory : fs.IsDirectory cwd)
    (parents : ∀ found ∈ firstUsable (stateAt fs cwd) program source, KeepsParents fs cwd found) :
    FoundNormalised fs cwd program source := by
  intro found first
  obtain ⟨real, leads⟩ := resolves_of_isFile (isFile_of_firstUsable first)
  rw [leads]
  exact names_of_keepsParents inDirectory leads (parents found first)

theorem intendedProgram_of_usable {files : Text → FileState} {found : Text}
    (first : firstUsable files program source = some found) :
    intendedProgram files program rootfs source = .candidate found := by
  unfold intendedProgram
  rw [first]

/-- Without a usable candidate the search is meant to give one outcome. -/
theorem given_in_image_iff (fs : FileSystem ProgramFile) (cwd : Path) {files : Text → FileState}
    (unusable : firstUsable files program source = none) (outcome : Except Failure Text) :
    (intendedProgram files program rootfs source).Given fs cwd program outcome ↔
      outcome = match guestDirectories.find? fun directory =>
          (files (guestCandidate program rootfs directory)).isFile with
        | some directory => .ok (guestPath program directory)
        | none => .error (.runtimeError (text "x86 executable not found: " ++ program)) := by
  unfold intendedProgram
  rw [unusable]
  cases guestDirectories.find? fun directory =>
      (files (guestCandidate program rootfs directory)).isFile with
  | none => exact Iff.rfl
  | some directory => exact Iff.rfl

/-- What the search is meant to give is no directory. -/
theorem namesFile_of_given {path : Text}
    (given : (intendedProgram (stateAt fs cwd) program rootfs source).Given fs cwd program
      (.ok path)) : NamesFile fs cwd program rootfs source path := by
  unfold NamesFile
  cases first : firstUsable (stateAt fs cwd) program source with
  | some found =>
      rw [intendedProgram_of_usable first] at given
      have isFile := isFile_of_firstUsable first
      rwa [← stateAt_congr given.2] at isFile
  | none =>
      have outcome := (given_in_image_iff fs cwd first _).mp given
      cases image : guestDirectories.find? fun directory =>
          (stateAt fs cwd (guestCandidate program rootfs directory)).isFile with
      | none =>
          rw [image] at outcome
          cases outcome
      | some directory =>
          rw [image] at outcome
          cases outcome
          have isFile := List.find?_some image
          exact ⟨directory, List.mem_of_find?_eq_some image, rfl, isFile⟩

/-- An error of the operating system is never what the search is meant to give. -/
theorem not_given_osError (fs : FileSystem ProgramFile) (cwd : Path) (intended : Intended)
    (message : Text) : ¬ intended.Given fs cwd program (.error (.osError message)) := by
  cases intended with
  | candidate found => exact id
  | guest directory => exact nofun
  | missing => exact nofun

/-- The search gives a usable candidate exactly if its normalised path leads to it. -/
theorem given_iff_of_usable (host : Host) (refusal : Text → Text) (rootfs : Text)
    (inDirectory : fs.IsDirectory cwd) (named : PosixPath.slash ∉ program)
    (readable : ReadableBefore (stateAt fs cwd) program source) {found : Text}
    (first : firstUsable (stateAt fs cwd) program source = some found) :
    (intendedProgram (stateAt fs cwd) program rootfs source).Given fs cwd program
        (resolveProgram (host.withFiles (stateAt fs cwd) refusal) (PosixPath.pathOf cwd) program
          rootfs source) ↔ FoundNormalised fs cwd program source := by
  obtain ⟨writable, stored⟩ := inDirectory
  rw [intendedProgram_of_usable first,
    resolveProgram_of_usable host refusal (PosixPath.pathOf cwd) rootfs named readable first]
  unfold FoundNormalised
  rw [first]
  constructor
  · rintro ⟨-, same⟩ other member
    cases member
    exact same
  · intro same
    exact ⟨isAbsolute_abspath (fs.proper_of_get? stored) found, same found rfl⟩

end Tree

/-- A script the caller may run but not read. -/
def lockedScript : Entry ProgramFile := .file ⟨true, none⟩

/-- A script anybody may run. -/
def openScript : Entry ProgramFile := .file ⟨true, some [35, 33, 47]⟩

/-- The unreadable program comes after a usable one on `PATH`, whose directory is named
through another one. -/
def lockedLast : FileSystem ProgramFile :=
  FileSystem.ofEntries ⟨[([], .directory true), ([text "a"], .directory true),
    ([text "a", text "tool"], openScript), ([text "b"], .directory true),
    ([text "b", text "tool"], lockedScript)], by decide⟩ (by decide)

/-- The unreadable program comes before a usable one on `PATH`. -/
def lockedFirst : FileSystem ProgramFile :=
  FileSystem.ofEntries ⟨[([], .directory true), ([text "a"], .directory true),
    ([text "a", text "tool"], lockedScript), ([text "b"], .directory true),
    ([text "b", text "tool"], openScript)], by decide⟩ (by decide)

/-- The image has a directory of that name in `usr/bin` and a program in `bin`. -/
def directoryFirst : FileSystem ProgramFile :=
  FileSystem.ofEntries ⟨[([], .directory true), ([text "image"], .directory true),
    ([text "image", text "usr"], .directory true),
    ([text "image", text "usr", text "bin"], .directory true),
    ([text "image", text "usr", text "bin", text "tool"], .directory true),
    ([text "image", text "bin"], .directory true),
    ([text "image", text "bin", text "tool"], openScript)], by decide⟩ (by decide)

/-- A link on `PATH` leads to a directory elsewhere, and beside the link stands a directory
of the program's name. -/
def linkedFirst : FileSystem ProgramFile :=
  FileSystem.ofEntries ⟨[([], .directory true), ([text "a"], .directory true),
    ([text "a", text "link"], .link (text "/opt/suite")),
    ([text "a", text "bin"], .directory true),
    ([text "a", text "bin", text "tool"], .directory true),
    ([text "opt"], .directory true), ([text "opt", text "suite"], .directory true),
    ([text "opt", text "bin"], .directory true),
    ([text "opt", text "bin", text "tool"], openScript)], by decide⟩ (by decide)

def twoDirectories : Dict Text Text := ⟨[(text "PATH", text "/b/../a:/b")], by decide⟩

def throughLink : Dict Text Text := ⟨[(text "PATH", text "/a/link/../bin")], by decide⟩

end X86OnArm.Runtime
