import X86OnArm.Foundation.LexicalWalk
import X86OnArm.Runtime.EnvironmentDomains

/-! # The program a path names, before and after normalisation

A launch gives the guest the normalised path of its program. `launch_keeps_program`
says when this is a path of the same file: while every `..` takes back a name that
leads to a directory where it was looked up, and after every component of the path
only then.
-/

namespace X86OnArm.Runtime

open Foundation

/-- The host that has the files of this file system, seen from a directory. -/
def Host.onTree {γ : Type} (host : Host) (fs : FileSystem γ) (cwd : Path) : Host :=
  { host with fileExists := fun path => (fs.resolvePath cwd path).isSome }

section Programs

variable {γ : Type} (host : Host) (fs : FileSystem γ) (cwd : Path)
  (settings : Settings) (launcher : Launcher) (source : Dict Text Text)

/-- The target is a path of this file. -/
def Target.Names (target : Target) (real : Path) : Prop :=
  PosixPath.isAbsolute target.program = true ∧ fs.resolvePath cwd target.program = some real

/-- `run` and `binfmt` of a path start the file it leads to, whatever the arguments. -/
def StartsFile (path : Text) (real : Path) : Prop :=
  (∀ arguments, ∃ target,
    launchTarget (host.onTree fs cwd) settings launcher .run (path :: arguments) source =
      .ok target ∧ target.Names fs cwd real) ∧
  ∀ argv0 arguments, ∃ target,
    launchTarget (host.onTree fs cwd) settings launcher .binfmt (path :: argv0 :: arguments)
      source = .ok target ∧ target.Names fs cwd real

/-- No `..` of the path takes back a name that leads away from the directory the name
was looked up in. The directories above the current one are taken back, too. -/
def KeepsParents (path : Text) : Prop :=
  PathTree.trueParents fs.get? kernelReading FileSystem.maxLinks (PosixPath.startOf cwd path)
    (FileSystem.ancestors (PosixPath.startOf cwd path)) (PosixPath.components path) = true

/-- Normalisation keeps the end of the path's every beginning. -/
def KeepsBeginnings (path : Text) : Prop :=
  ∀ first real, first <+: PosixPath.components path →
    fs.resolve FileSystem.maxLinks (PosixPath.startOf cwd path) first = some real →
    fs.resolve FileSystem.maxLinks []
      (PosixPath.lexical (PosixPath.startOf cwd path) first) = some real

end Programs

section Normalisation

variable {γ : Type} {host : Host} {fs : FileSystem γ} {cwd real : Path}
  {settings : Settings} {launcher : Launcher} {source : Dict Text Text} {path : Text}

theorem isDirectory_startOf (inDirectory : fs.IsDirectory cwd) (path : Text) :
    fs.IsDirectory (PosixPath.startOf cwd path) := by
  unfold PosixPath.startOf
  split
  · exact fs.top
  · exact inDirectory

theorem resolve_of_resolvePath (resolves : fs.resolvePath cwd path = some real) :
    fs.resolve FileSystem.maxLinks (PosixPath.startOf cwd path) (PosixPath.components path) =
      some real := by
  unfold FileSystem.resolvePath at resolves
  split at resolves
  · cases resolves
  · exact resolves

theorem keepsParents_iff (inDirectory : fs.IsDirectory cwd)
    (resolves : fs.resolvePath cwd path = some real) :
    KeepsParents fs cwd path ↔ KeepsBeginnings fs cwd path := by
  have start := isDirectory_startOf inDirectory path
  have leads := PathTree.leads_of_resolves (resolve_of_resolvePath resolves)
  refine (PathTree.trueParents_iff (FileSystem.trail_directory start kernelReading)
    (Nat.zero_add _).le leads).trans ?_
  constructor
  · intro agrees first between beginning resolved
    exact (agrees first between beginning (PathTree.leads_of_resolves resolved)).resolves
  · intro agrees first between beginning leads
    exact PathTree.leads_of_resolves (agrees first between beginning leads.resolves)

/-- The whole path is one of its beginnings. -/
theorem names_of_keepsParents (inDirectory : fs.IsDirectory cwd)
    (resolves : fs.resolvePath cwd path = some real) (parents : KeepsParents fs cwd path) :
    fs.resolvePath cwd (PosixPath.abspath (PosixPath.pathOf cwd) path) = some real := by
  obtain ⟨writable, stored⟩ := inDirectory
  rw [FileSystem.resolvePath_abspath (fs.proper_of_get? stored)]
  exact (keepsParents_iff ⟨writable, stored⟩ resolves).mp parents _ real (List.prefix_refl _)
    (resolve_of_resolvePath resolves)

theorem isAbsolute_abspath (proper : PosixPath.ProperPath cwd) (path : Text) :
    PosixPath.isAbsolute (PosixPath.abspath (PosixPath.pathOf cwd) path) = true := by
  rcases PosixPath.abspath_pathOf proper path with single | double
  · rw [single]
    rfl
  · rw [double]
    rfl

/-- A path that exists once it is normalised is not rejected. -/
theorem resolveProgram_onTree (named : PosixPath.slash ∈ path) {rootfs : Text}
    (present : fs.resolvePath cwd (PosixPath.abspath (PosixPath.pathOf cwd) path) = some real) :
    resolveProgram (host.onTree fs cwd) (PosixPath.pathOf cwd) path rootfs source =
      .ok (PosixPath.abspath (PosixPath.pathOf cwd) path) := by
  have found : (host.onTree fs cwd).fileExists
      (PosixPath.abspath (PosixPath.pathOf cwd) path) = true :=
    congrArg Option.isSome present
  unfold resolveProgram
  rw [if_pos named]
  exact if_neg fun missing => missing.1 found

/-- **A launch starts the program its path leads to while every `..` takes back a
name that leads to a directory where it was looked up**, and normalisation keeps the
path's every beginning only then. -/
theorem launch_keeps_program (host : Host) (fs : FileSystem γ) (settings : Settings)
    (launcher : Launcher) (source : Dict Text Text) (cwd real : Path) (path : Text)
    (inDirectory : fs.IsDirectory cwd) (started : launcher.cwd = PosixPath.pathOf cwd)
    (named : PosixPath.slash ∈ path) (resolves : fs.resolvePath cwd path = some real) :
    (KeepsParents fs cwd path ↔ KeepsBeginnings fs cwd path) ∧
      (KeepsParents fs cwd path → StartsFile host fs cwd settings launcher source path real) := by
  refine ⟨keepsParents_iff inDirectory resolves, fun parents => ?_⟩
  have names := names_of_keepsParents inDirectory resolves parents
  obtain ⟨writable, stored⟩ := inDirectory
  have absolute := isAbsolute_abspath (fs.proper_of_get? stored) path
  rw [← started] at names absolute
  constructor
  · intro arguments
    refine ⟨⟨PosixPath.abspath launcher.cwd path, path, arguments⟩, ?_, absolute, names⟩
    rw [started] at names ⊢
    unfold launchTarget
    dsimp only
    rw [started, resolveProgram_onTree named names]
    rfl
  · intro argv0 arguments
    exact ⟨⟨PosixPath.abspath launcher.cwd path, argv0, arguments⟩, rfl, absolute, names⟩

end Normalisation

/-- A tree with a link into another directory, and a program beside either. -/
def linkedTree : FileSystem Text :=
  FileSystem.ofEntries ⟨[([], .directory true),
    ([text "opt"], .directory true),
    ([text "opt", text "suite"], .directory true),
    ([text "opt", text "tool"], .file (text "meant")),
    ([text "tool"], .file (text "other")),
    ([text "link"], .link (text "opt/suite"))], by decide⟩ (by decide)

def inOpt : Launcher := { plainLauncher with cwd := text "/opt" }

/-- Without the link a path may take names back. -/
theorem launch_keeps_program_sample :
    KeepsBeginnings linkedTree [text "opt"] (text "suite/.././/tool") ∧
      StartsFile plainHost linkedTree [text "opt"] plainSettings inOpt Dict.empty
        (text "suite/.././/tool") [text "opt", text "tool"] := by
  have parents : KeepsParents linkedTree [text "opt"] (text "suite/.././/tool") := by
    unfold KeepsParents
    decide +kernel
  have keeps := launch_keeps_program plainHost linkedTree plainSettings inOpt Dict.empty
    [text "opt"] [text "opt", text "tool"] (text "suite/.././/tool") ⟨true, rfl⟩ rfl
    (by decide) (by decide +kernel)
  exact ⟨keeps.1.mp parents, keeps.2 parents⟩

/-- Through the link the path leads to one program, and a launch starts the other. -/
theorem launch_starts_another_program :
    linkedTree.resolvePath [] (text "/link/../tool") = some [text "opt", text "tool"] ∧
      ¬ StartsFile plainHost linkedTree [] plainSettings plainLauncher Dict.empty
        (text "/link/../tool") [text "opt", text "tool"] := by
  refine ⟨by decide +kernel, ?_⟩
  rintro ⟨runs, -⟩
  obtain ⟨target, launched, -, names⟩ := runs []
  cases launched
  revert names
  decide +kernel

end X86OnArm.Runtime
