import X86OnArm.Foundation.Dict
import X86OnArm.Foundation.PosixPath
import Mathlib.Data.List.Infix

/-! # File systems with symbolic links

A file system is a set of paths, closed under parents, each with a directory, a
file or a symbolic link. Paths are lists of names from the top. `resolve` is the
kernel's resolution: it follows a link wherever it meets one and takes `..` to the
parent of the directory it is really in.
-/

namespace Foundation

universe u

open PosixPath

inductive Entry (γ : Type u) where
  | directory (writable : Bool)
  | file (contents : γ)
  | link (target : Text)
  deriving DecidableEq

/-- The target of a link. -/
def Entry.target? {γ : Type u} : Entry γ → Option Text
  | .link target => some target
  | .directory _ | .file _ => none

/-- What is at each path. -/
abbrev PathTree (γ : Type u) := Path → Option (Entry γ)

/-- How a link is read: where the walk goes on, and the components it takes first. -/
abbrev LinkReading := Path → Text → Path × List Text

/-- The kernel's reading: an absolute target from the top, another one from the
directory the link is in. -/
def kernelReading : LinkReading := fun position target =>
  (if isAbsolute target then [] else position, components target)

namespace PathTree

variable {γ : Type u}

def isDirectory (tree : PathTree γ) (path : Path) : Bool :=
  match tree path with
  | some (.directory _) => true
  | some (.file _) | some (.link _) | none => false

theorem isDirectory_iff {tree : PathTree γ} {path : Path} :
    tree.isDirectory path = true ↔ ∃ writable, tree path = some (.directory writable) := by
  unfold isDirectory
  cases tree path with
  | none => simp
  | some entry => cases entry <;> simp

/-- The walk along components, with `follow` for the links it meets. -/
def walkComponents (tree : PathTree γ) (follow : Path → Text → List Text → Option Path) :
    Path → List Text → Option Path
  | position, [] => some position
  | position, component :: rest =>
      if ¬ tree.isDirectory position then none
      else if component = [] ∨ component = dot then walkComponents tree follow position rest
      else if component = dotDot then walkComponents tree follow position.dropLast rest
      else match tree (position ++ [component]) with
        | none => none
        | some (.link target) => follow position target rest
        | some (.directory _) | some (.file _) =>
            walkComponents tree follow (position ++ [component]) rest

/-- The walk over at most `links` links. -/
def resolveWith (tree : PathTree γ) (read : LinkReading) : Nat → Path → List Text → Option Path
  | 0 => tree.walkComponents fun _ _ _ => none
  | links + 1 => tree.walkComponents fun position target rest =>
      tree.resolveWith read links (read position target).1 ((read position target).2 ++ rest)

theorem resolveWith_nil (tree : PathTree γ) (read : LinkReading) (links : Nat) (position : Path) :
    tree.resolveWith read links position [] = some position := by
  cases links <;> rfl

/-- Where the walk goes on at a link, one link fewer at hand. -/
def resolveLink (tree : PathTree γ) (read : LinkReading) (links : Nat) (position : Path)
    (target : Text) (rest : List Text) : Option Path :=
  match links with
  | 0 => none
  | links + 1 =>
      tree.resolveWith read links (read position target).1 ((read position target).2 ++ rest)

theorem resolveWith_cons (tree : PathTree γ) (read : LinkReading) (links : Nat) (position : Path)
    (component : Text) (rest : List Text) :
    tree.resolveWith read links position (component :: rest) =
      if ¬ tree.isDirectory position then none
      else if component = [] ∨ component = dot then tree.resolveWith read links position rest
      else if component = dotDot then tree.resolveWith read links position.dropLast rest
      else match tree (position ++ [component]) with
        | none => none
        | some (.link target) => tree.resolveLink read links position target rest
        | some (.directory _) | some (.file _) =>
            tree.resolveWith read links (position ++ [component]) rest := by
  cases links <;> rfl

/-- What holds of walks is shown for one component, given the walks along the rest and
those with a link fewer. -/
theorem walk_induction {motive : Nat → Path → List Text → Prop}
    (arrived : ∀ links position, motive links position [])
    (step : ∀ links position component rest, (∀ next, motive links next rest) →
      (∀ fewer, links = fewer + 1 → ∀ next components, motive fewer next components) →
      motive links position (component :: rest))
    (links : Nat) (position : Path) (components : List Text) :
    motive links position components := by
  induction links generalizing position components with
  | zero =>
      induction components generalizing position with
      | nil => exact arrived _ _
      | cons component rest ih => exact step _ _ _ _ ih nofun
  | succ links fewer =>
      induction components generalizing position with
      | nil => exact arrived _ _
      | cons component rest ih =>
          refine step _ _ _ _ ih ?_
          rintro _ ⟨⟩
          exact fewer

/-- The walks that end, component by component. -/
inductive Leads (tree : PathTree γ) (read : LinkReading) :
    Nat → Path → List Text → Path → Prop where
  | arrived {links : Nat} {position : Path} : Leads tree read links position [] position
  | stay {links : Nat} {position real : Path} {component : Text} {rest : List Text}
      (isDirectory : tree.isDirectory position = true) (idle : component = [] ∨ component = dot)
      (later : Leads tree read links position rest real) :
      Leads tree read links position (component :: rest) real
  | up {links : Nat} {position real : Path} {rest : List Text}
      (isDirectory : tree.isDirectory position = true)
      (later : Leads tree read links position.dropLast rest real) :
      Leads tree read links position (dotDot :: rest) real
  | down {links : Nat} {position real : Path} {name : Text} {rest : List Text} {entry : Entry γ}
      (isDirectory : tree.isDirectory position = true) (busy : ¬ (name = [] ∨ name = dot))
      (notUp : name ≠ dotDot) (stored : tree (position ++ [name]) = some entry)
      (notLink : ∀ target, entry ≠ .link target)
      (later : Leads tree read links (position ++ [name]) rest real) :
      Leads tree read links position (name :: rest) real
  | link {links : Nat} {position real : Path} {name target : Text} {rest : List Text}
      (isDirectory : tree.isDirectory position = true) (busy : ¬ (name = [] ∨ name = dot))
      (notUp : name ≠ dotDot) (stored : tree (position ++ [name]) = some (.link target))
      (later : Leads tree read links (read position target).1
        ((read position target).2 ++ rest) real) :
      Leads tree read (links + 1) position (name :: rest) real

theorem Leads.resolves {tree : PathTree γ} {read : LinkReading} {links : Nat} {position real : Path}
    {components : List Text} (leads : Leads tree read links position components real) :
    tree.resolveWith read links position components = some real := by
  induction leads with
  | arrived => exact resolveWith_nil _ _ _ _
  | stay isDirectory idle later ih =>
      rw [resolveWith_cons, if_neg (not_not.mpr isDirectory), if_pos idle, ih]
  | up isDirectory later ih =>
      rw [resolveWith_cons, if_neg (not_not.mpr isDirectory), if_neg (by decide), if_pos rfl, ih]
  | @down _ _ _ _ _ entry isDirectory busy notUp stored notLink later ih =>
      rw [resolveWith_cons, if_neg (not_not.mpr isDirectory), if_neg busy, if_neg notUp, stored]
      cases entry with
      | directory writable => exact ih
      | file contents => exact ih
      | link target => exact absurd rfl (notLink target)
  | link isDirectory busy notUp stored later ih =>
      rw [resolveWith_cons, if_neg (not_not.mpr isDirectory), if_neg busy, if_neg notUp, stored]
      exact ih

theorem leads_of_resolves {tree : PathTree γ} {read : LinkReading} {links : Nat}
    {position real : Path} {components : List Text}
    (resolves : tree.resolveWith read links position components = some real) :
    Leads tree read links position components real := by
  induction links, position, components using walk_induction with
  | arrived links position =>
      rw [resolveWith_nil] at resolves
      cases resolves
      exact .arrived
  | step links position component rest ih fewer =>
      rw [resolveWith_cons] at resolves
      split at resolves
      · cases resolves
      rename_i isDirectory
      have isDirectory := not_not.mp isDirectory
      split at resolves
      · exact .stay isDirectory ‹_› (ih _ resolves)
      split at resolves
      · subst component
        exact .up isDirectory (ih _ resolves)
      split at resolves
      · cases resolves
      · cases links with
        | zero => cases resolves
        | succ links => exact .link isDirectory ‹_› ‹_› ‹_› (fewer links rfl _ _ resolves)
      · refine .down isDirectory ‹_› ‹_› ‹tree _ = _› ?_ (ih _ resolves)
        exact nofun
      · refine .down isDirectory ‹_› ‹_› ‹tree _ = _› ?_ (ih _ resolves)
        exact nofun

/-- A walk that ends goes the same way where there are more entries. -/
theorem Leads.mono {tree other : PathTree γ}
    (kept : ∀ path entry, tree path = some entry → other path = some entry) {read : LinkReading}
    {links : Nat} {position real : Path} {components : List Text}
    (leads : Leads tree read links position components real) :
    Leads other read links position components real := by
  have directory {path : Path} (isDirectory : tree.isDirectory path = true) :
      other.isDirectory path = true := by
    obtain ⟨writable, stored⟩ := isDirectory_iff.mp isDirectory
    exact isDirectory_iff.mpr ⟨writable, kept _ _ stored⟩
  induction leads with
  | arrived => exact .arrived
  | stay isDirectory idle later ih => exact .stay (directory isDirectory) idle ih
  | up isDirectory later ih => exact .up (directory isDirectory) ih
  | down isDirectory busy notUp stored notLink later ih =>
      exact .down (directory isDirectory) busy notUp (kept _ _ stored) notLink ih
  | link isDirectory busy notUp stored later ih =>
      exact .link (directory isDirectory) busy notUp (kept _ _ stored) ih

/-- A walk that ends does so with more links at hand. -/
theorem Leads.more {tree : PathTree γ} {read : LinkReading} {links more : Nat}
    {position real : Path} {components : List Text}
    (leads : Leads tree read links position components real) (atMost : links ≤ more) :
    Leads tree read more position components real := by
  induction leads generalizing more with
  | arrived => exact .arrived
  | stay isDirectory idle later ih => exact .stay isDirectory idle (ih atMost)
  | up isDirectory later ih => exact .up isDirectory (ih atMost)
  | down isDirectory busy notUp stored notLink later ih =>
      exact .down isDirectory busy notUp stored notLink (ih atMost)
  | link isDirectory busy notUp stored later ih =>
      obtain ⟨fewer, rfl⟩ := Nat.exists_eq_add_of_le' atMost
      exact .link isDirectory busy notUp stored (ih (Nat.le_add_left _ fewer))

/-- Walks one after the other. -/
theorem Leads.append {tree : PathTree γ} {read : LinkReading} {used left : Nat}
    {position between real : Path} {first second : List Text}
    (before : Leads tree read used position first between)
    (after : Leads tree read left between second real) :
    Leads tree read (used + left) position (first ++ second) real := by
  induction before with
  | @arrived links position => exact after.more (Nat.le_add_left left links)
  | stay isDirectory idle later ih => exact .stay isDirectory idle (ih after)
  | up isDirectory later ih => exact .up isDirectory (ih after)
  | down isDirectory busy notUp stored notLink later ih =>
      exact .down isDirectory busy notUp stored notLink (ih after)
  | link isDirectory busy notUp stored later ih =>
      rw [Nat.succ_add]
      have longer := ih after
      rw [List.append_assoc] at longer
      exact .link isDirectory busy notUp stored longer

/-- A walk is one along its first part and, with the links left, one along the rest. -/
theorem Leads.split {tree : PathTree γ} {read : LinkReading} {links : Nat} {position real : Path}
    {first second : List Text}
    (leads : Leads tree read links position (first ++ second) real) :
    ∃ used between, used ≤ links ∧ Leads tree read used position first between ∧
      Leads tree read (links - used) between second real := by
  generalize whole : first ++ second = components at leads
  induction leads generalizing first with
  | arrived =>
      obtain ⟨rfl, rfl⟩ := List.append_eq_nil_iff.mp whole
      exact ⟨0, _, Nat.zero_le _, .arrived, .arrived⟩
  | stay isDirectory idle later ih =>
      cases first with
      | nil =>
          cases whole
          exact ⟨0, _, Nat.zero_le _, .arrived, .stay isDirectory idle later⟩
      | cons component rest =>
          cases whole
          obtain ⟨used, between, within, before, after⟩ := ih rfl
          exact ⟨used, between, within, .stay isDirectory idle before, after⟩
  | up isDirectory later ih =>
      cases first with
      | nil =>
          cases whole
          exact ⟨0, _, Nat.zero_le _, .arrived, .up isDirectory later⟩
      | cons component rest =>
          cases whole
          obtain ⟨used, between, within, before, after⟩ := ih rfl
          exact ⟨used, between, within, .up isDirectory before, after⟩
  | down isDirectory busy notUp stored notLink later ih =>
      cases first with
      | nil =>
          cases whole
          exact ⟨0, _, Nat.zero_le _, .arrived,
            .down isDirectory busy notUp stored notLink later⟩
      | cons component rest =>
          cases whole
          obtain ⟨used, between, within, before, after⟩ := ih rfl
          exact ⟨used, between, within, .down isDirectory busy notUp stored notLink before, after⟩
  | link isDirectory busy notUp stored later ih =>
      cases first with
      | nil =>
          cases whole
          exact ⟨0, _, Nat.zero_le _, .arrived, .link isDirectory busy notUp stored later⟩
      | cons component rest =>
          cases whole
          obtain ⟨used, between, within, before, after⟩ := ih (List.append_assoc _ _ _)
          refine ⟨used + 1, between, Nat.succ_le_succ within,
            .link isDirectory busy notUp stored before, ?_⟩
          rwa [Nat.add_sub_add_right]

/-- A walk passes the end of its first part. -/
theorem Leads.first {tree : PathTree γ} {read : LinkReading} {links : Nat} {position real : Path}
    {first second : List Text}
    (leads : Leads tree read links position (first ++ second) real) :
    ∃ between, Leads tree read links position first between := by
  obtain ⟨used, between, within, before, -⟩ := leads.split
  exact ⟨between, before.more within⟩

end PathTree

structure FileSystem (γ : Type u) where
  entries : Dict Path (Entry γ)
  proper : ∀ path ∈ entries, ProperPath path
  top : ∃ writable, entries.get? [] = some (.directory writable)
  parents : ∀ path name, path ++ [name] ∈ entries →
    ∃ writable, entries.get? path = some (.directory writable)

namespace FileSystem

variable {γ : Type u}

def get? (fs : FileSystem γ) (path : Path) : Option (Entry γ) := fs.entries.get? path

def IsDirectory (fs : FileSystem γ) (path : Path) : Prop :=
  ∃ writable, fs.get? path = some (.directory writable)

def isDirectory (fs : FileSystem γ) (path : Path) : Bool := PathTree.isDirectory fs.get? path

theorem isDirectory_iff {fs : FileSystem γ} {path : Path} :
    fs.isDirectory path = true ↔ fs.IsDirectory path := PathTree.isDirectory_iff

def isLink (fs : FileSystem γ) (path : Path) : Bool :=
  match fs.get? path with
  | some (.link _) => true
  | some (.directory _) | some (.file _) | none => false

/-- Whether entries make a file system. -/
def wellFormed (entries : Dict Path (Entry γ)) : Bool :=
  PathTree.isDirectory entries.get? [] && entries.keys.all fun path =>
    decide (ProperPath path) && PathTree.isDirectory entries.get? path.dropLast

def ofEntries (entries : Dict Path (Entry γ)) (checked : wellFormed entries = true) :
    FileSystem γ where
  entries := entries
  proper := by
    intro path member
    have each := List.all_eq_true.mp (Bool.and_eq_true_iff.mp checked).2 path member
    exact of_decide_eq_true (Bool.and_eq_true_iff.mp each).1
  top := PathTree.isDirectory_iff.mp (Bool.and_eq_true_iff.mp checked).1
  parents := by
    intro path name member
    have each := List.all_eq_true.mp (Bool.and_eq_true_iff.mp checked).2 _ member
    have parent := PathTree.isDirectory_iff.mp (Bool.and_eq_true_iff.mp each).2
    rwa [List.dropLast_concat] at parent

/-- Whatever has an entry below it is a directory. -/
theorem isDirectory_of_below (fs : FileSystem γ) {path below : Path} (proper : below ≠ [])
    {entry : Entry γ} (stored : fs.get? (path ++ below) = some entry) : fs.IsDirectory path := by
  induction below using List.reverseRecOn generalizing entry with
  | nil => exact absurd rfl proper
  | append_singleton rest name ih =>
      rw [← List.append_assoc] at stored
      obtain ⟨writable, parent⟩ :=
        fs.parents _ _ (Dict.mem_iff_get?.mpr ⟨entry, stored⟩)
      by_cases direct : rest = []
      · subst direct
        rw [List.append_nil] at parent
        exact ⟨writable, parent⟩
      · exact ih direct parent

theorem proper_of_get? (fs : FileSystem γ) {path : Path} {entry : Entry γ}
    (stored : fs.get? path = some entry) : ProperPath path :=
  fs.proper path (Dict.mem_iff_get?.mpr ⟨entry, stored⟩)

/-- The name of a path in a directory. -/
def childName (directory path : Path) : Option Text :=
  if path.dropLast = directory then path.getLast? else none

theorem childName_eq_some {directory path : Path} {name : Text} :
    childName directory path = some name ↔ path = directory ++ [name] := by
  unfold childName
  constructor
  · intro found
    split at found
    · subst directory
      exact (List.dropLast_append_getLast? name found).symm
    · cases found
  · rintro rfl
    rw [List.dropLast_concat, if_pos rfl, List.getLast?_concat]

/-- The names in a directory. -/
def listing (fs : FileSystem γ) (directory : Path) : List Text :=
  fs.entries.keys.filterMap (childName directory)

theorem mem_listing {fs : FileSystem γ} {directory : Path} {name : Text} :
    name ∈ fs.listing directory ↔ ∃ entry, fs.get? (directory ++ [name]) = some entry := by
  unfold listing
  rw [List.mem_filterMap]
  constructor
  · rintro ⟨path, member, named⟩
    rw [← childName_eq_some.mp named]
    exact Dict.mem_iff_get?.mp member
  · rintro ⟨entry, stored⟩
    exact ⟨_, Dict.mem_iff_get?.mpr ⟨entry, stored⟩, childName_eq_some.mpr rfl⟩

theorem nodup_listing (fs : FileSystem γ) (directory : Path) : (fs.listing directory).Nodup := by
  apply fs.entries.nodup.filterMap
  intro first second name one other
  exact (childName_eq_some.mp one).trans (childName_eq_some.mp other).symm

/-- Put another entry in the place of a present one; a directory stays one. -/
def replace (fs : FileSystem γ) (path : Path) (entry : Entry γ)
    (present : ∃ old, fs.get? path = some old)
    (kind : fs.IsDirectory path → ∃ writable, entry = .directory writable) : FileSystem γ where
  entries := fs.entries.insert path entry
  proper := by
    intro other member
    rcases Dict.mem_insert.mp member with rfl | old
    · exact fs.proper _ (Dict.mem_iff_get?.mpr present)
    · exact fs.proper other old
  top := by
    rw [Dict.get?_insert]
    split
    · subst path
      obtain ⟨writable, rfl⟩ := kind fs.top
      exact ⟨writable, rfl⟩
    · exact fs.top
  parents := by
    intro other name member
    have old : other ++ [name] ∈ fs.entries := by
      rcases Dict.mem_insert.mp member with rfl | old
      · exact Dict.mem_iff_get?.mpr present
      · exact old
    rw [Dict.get?_insert]
    split
    · subst path
      obtain ⟨writable, rfl⟩ := kind (fs.parents other name old)
      exact ⟨writable, rfl⟩
    · exact fs.parents other name old

theorem get?_replace {fs : FileSystem γ} {path : Path} {entry : Entry γ} (present kind)
    (other : Path) : (fs.replace path entry present kind).get? other =
      if other = path then some entry else fs.get? other :=
  Dict.get?_insert fs.entries path other entry

/-- A new entry in a directory. -/
def create (fs : FileSystem γ) (directory : Path) (name : Text) (entry : Entry γ)
    (proper : ProperName name) (parent : fs.IsDirectory directory)
    (fresh : fs.get? (directory ++ [name]) = none) : FileSystem γ where
  entries := fs.entries.insert (directory ++ [name]) entry
  proper := by
    intro other member
    rcases Dict.mem_insert.mp member with rfl | old
    · obtain ⟨writable, stored⟩ := parent
      intro part inside
      rcases List.mem_append.mp inside with above | last
      · exact fs.proper_of_get? stored part above
      · rwa [List.mem_singleton.mp last]
    · exact fs.proper other old
  top := by
    rw [Dict.get?_insert_of_ne _ _ (by simp)]
    exact fs.top
  parents := by
    intro other inner member
    rw [Dict.get?_insert]
    rcases Dict.mem_insert.mp member with same | old
    · obtain ⟨rfl, -⟩ := List.append_inj' same rfl
      rw [if_neg (by simp)]
      exact parent
    · split
      · subst other
        obtain ⟨writable, stored⟩ := fs.parents _ _ old
        exact absurd (fresh.symm.trans stored) nofun
      · exact fs.parents other inner old

theorem get?_create {fs : FileSystem γ} {directory : Path} {name : Text} {entry : Entry γ}
    (proper parent fresh) (other : Path) :
    (fs.create directory name entry proper parent fresh).get? other =
      if other = directory ++ [name] then some entry else fs.get? other :=
  Dict.get?_insert fs.entries _ other entry

/-- Entries can be made and replaced in this directory. -/
def isWritable (fs : FileSystem γ) (path : Path) : Bool :=
  match fs.get? path with
  | some (.directory writable) => writable
  | some (.file _) | some (.link _) | none => false

theorem isWritable_iff {fs : FileSystem γ} {path : Path} :
    fs.isWritable path = true ↔ fs.get? path = some (.directory true) := by
  unfold isWritable
  cases fs.get? path with
  | none => simp
  | some entry => cases entry <;> simp

theorem isDirectory_of_isWritable {fs : FileSystem γ} {path : Path}
    (writable : fs.isWritable path = true) : fs.IsDirectory path :=
  ⟨true, isWritable_iff.mp writable⟩

theorem isLink_iff {fs : FileSystem γ} {path : Path} :
    fs.isLink path = true ↔ ∃ target, fs.get? path = some (.link target) := by
  unfold isLink
  cases fs.get? path with
  | none => simp
  | some entry => cases entry <;> simp

theorem present_of_isLink {fs : FileSystem γ} {path : Path} (link : fs.isLink path = true) :
    ∃ entry, fs.get? path = some entry := by
  obtain ⟨target, stored⟩ := isLink_iff.mp link
  exact ⟨_, stored⟩

theorem IsDirectory.present {fs : FileSystem γ} {path : Path} (directory : fs.IsDirectory path) :
    ∃ entry, fs.get? path = some entry := by
  obtain ⟨writable, stored⟩ := directory
  exact ⟨_, stored⟩

theorem not_isDirectory_of_isLink {fs : FileSystem γ} {path : Path}
    (link : fs.isLink path = true) : ¬ fs.IsDirectory path := by
  rintro ⟨writable, stored⟩
  obtain ⟨target, linked⟩ := isLink_iff.mp link
  rw [stored] at linked
  cases linked

/-- Give the owner of a directory the right to change it. -/
def makeWritable (fs : FileSystem γ) (path : Path) : FileSystem γ :=
  if directory : fs.isDirectory path = true then
    fs.replace path (.directory true)
      (isDirectory_iff.mp directory).present fun _ => ⟨true, rfl⟩
  else fs

/-- Remove a link and make another one under its name. -/
def replaceLink (fs : FileSystem γ) (directory : Path) (name target : Text) :
    Option (FileSystem γ) :=
  if present : fs.isLink (directory ++ [name]) = true ∧ fs.isWritable directory = true then
    some (fs.replace (directory ++ [name]) (.link target)
      (present_of_isLink present.1)
      fun isDirectory => absurd isDirectory (not_isDirectory_of_isLink present.1))
  else none

/-- The path below `destination` for a path below `source`. -/
def moved (source destination path : Path) : Option Path :=
  if source <+: path then some (destination ++ path.drop source.length) else none

theorem moved_eq_some {source destination path new : Path} :
    moved source destination path = some new ↔
      ∃ below, path = source ++ below ∧ new = destination ++ below := by
  unfold moved
  constructor
  · intro found
    split at found
    · obtain ⟨below, rfl⟩ := ‹source <+: path›
      rw [List.drop_left, Option.some.injEq] at found
      exact ⟨below, rfl, found.symm⟩
    · cases found
  · rintro ⟨below, rfl, rfl⟩
    rw [if_pos (List.prefix_append _ _), List.drop_left]

theorem moved_injective {source destination : Path} (first second new : Path)
    (one : moved source destination first = some new)
    (other : moved source destination second = some new) : first = second := by
  obtain ⟨below, rfl, rfl⟩ := moved_eq_some.mp one
  obtain ⟨rest, rfl, same⟩ := moved_eq_some.mp other
  rw [List.append_cancel_left same]

section Graft

variable {fs : FileSystem γ} {source directory : Path} {name : Text}

/-- Nothing is below a path that is no directory. -/
theorem get?_below_of_not_isDirectory (fs : FileSystem γ) {path below : Path}
    (notDirectory : ¬ fs.IsDirectory path) (proper : below ≠ []) :
    fs.get? (path ++ below) = none := by
  cases stored : fs.get? (path ++ below) with
  | none => rfl
  | some entry => exact absurd (fs.isDirectory_of_below proper stored) notDirectory

theorem get?_below_of_none (fs : FileSystem γ) {path : Path} (fresh : fs.get? path = none)
    (below : Path) : fs.get? (path ++ below) = none := by
  by_cases here : below = []
  · rwa [here, List.append_nil]
  · apply fs.get?_below_of_not_isDirectory _ here
    rintro ⟨writable, stored⟩
    cases fresh.symm.trans stored

/-- The entries with a copy of a tree added to them. -/
def graftEntries (fs : FileSystem γ) (source destination : Path) : Dict Path (Entry γ) :=
  fs.entries.update (fs.entries.rename (moved source destination) moved_injective)

theorem get?_graftEntries_below {destination : Path} (fresh : fs.get? destination = none)
    (below : Path) :
    (fs.graftEntries source destination).get? (destination ++ below) =
      fs.get? (source ++ below) := by
  unfold graftEntries
  rw [Dict.get?_update, Dict.get?_rename (moved_eq_some.mpr ⟨below, rfl, rfl⟩)]
  have untouched : fs.entries.get? (destination ++ below) = none :=
    fs.get?_below_of_none fresh below
  rw [untouched, Option.or_none]
  rfl

theorem get?_graftEntries_elsewhere {destination path : Path} (elsewhere : ¬ destination <+: path) :
    (fs.graftEntries source destination).get? path = fs.get? path := by
  have absent : path ∉ fs.entries.rename (moved source destination) moved_injective := by
    intro member
    obtain ⟨old, -, found⟩ := Dict.mem_rename.mp member
    obtain ⟨below, -, rfl⟩ := moved_eq_some.mp found
    exact elsewhere (List.prefix_append _ _)
  unfold graftEntries
  rw [Dict.get?_update, Dict.get?_eq_none.mpr absent, Option.none_or]
  rfl

theorem not_below_self (directory : Path) (name : Text) : ¬ directory ++ [name] <+: directory := by
  intro below
  have longer := below.length_le
  rw [List.length_append, List.length_singleton] at longer
  omega

/-- A copy of a tree at a new name in a directory. -/
def graft (fs : FileSystem γ) (source directory : Path) (name : Text) (proper : ProperName name)
    (parent : fs.IsDirectory directory) (fresh : fs.get? (directory ++ [name]) = none) :
    FileSystem γ where
  entries := fs.graftEntries source (directory ++ [name])
  proper := by
    intro path member
    rcases Dict.mem_update.mp member with old | new
    · exact fs.proper path old
    · obtain ⟨old, present, found⟩ := Dict.mem_rename.mp new
      obtain ⟨below, rfl, rfl⟩ := moved_eq_some.mp found
      obtain ⟨writable, stored⟩ := parent
      intro part inside
      rw [List.append_assoc] at inside
      rcases List.mem_append.mp inside with above | rest
      · exact fs.proper_of_get? stored part above
      · rcases List.mem_cons.mp rest with rfl | inBelow
        · exact proper
        · exact fs.proper _ present part (List.mem_append_right _ inBelow)
  top := by
    have elsewhere : ¬ directory ++ [name] <+: [] := by simp
    rw [get?_graftEntries_elsewhere elsewhere]
    exact fs.top
  parents := by
    intro path inner member
    obtain ⟨entry, stored⟩ := Dict.mem_iff_get?.mp member
    by_cases inside : directory ++ [name] <+: path
    · obtain ⟨below, rfl⟩ := inside
      rw [List.append_assoc, get?_graftEntries_below fresh, ← List.append_assoc] at stored
      rw [get?_graftEntries_below fresh]
      exact fs.parents _ _ (Dict.mem_iff_get?.mpr ⟨entry, stored⟩)
    · rw [get?_graftEntries_elsewhere inside]
      by_cases below : directory ++ [name] <+: path ++ [inner]
      · have same : path = directory := by
          rcases List.prefix_concat_iff.mp below with equal | shorter
          · exact (List.append_inj' equal rfl).1.symm
          · exact absurd shorter inside
        exact same ▸ parent
      · rw [get?_graftEntries_elsewhere below] at stored
        exact fs.parents _ _ (Dict.mem_iff_get?.mpr ⟨entry, stored⟩)

variable {proper : ProperName name} {parent : fs.IsDirectory directory}
  {fresh : fs.get? (directory ++ [name]) = none}

theorem get?_graft_below (below : Path) :
    (fs.graft source directory name proper parent fresh).get? (directory ++ [name] ++ below) =
      fs.get? (source ++ below) := get?_graftEntries_below fresh below

theorem get?_graft_elsewhere {path : Path} (elsewhere : ¬ directory ++ [name] <+: path) :
    (fs.graft source directory name proper parent fresh).get? path = fs.get? path :=
  get?_graftEntries_elsewhere elsewhere

end Graft

/-- A new entry in a directory, where there is none and the directory can be changed. -/
def addEntry (fs : FileSystem γ) (directory : Path) (name : Text) (entry : Entry γ) :
    Option (FileSystem γ) :=
  if allowed : ProperName name ∧ fs.isWritable directory = true ∧
      (fs.get? (directory ++ [name])).isNone = true then
    some (fs.create directory name entry allowed.1 (isDirectory_of_isWritable allowed.2.1)
      (Option.isNone_iff_eq_none.mp allowed.2.2))
  else none

/-- A copy of the tree below `source`, links included, where there is nothing yet and
the directory can be changed. A tree is listed before its copy is made, so it can be
copied into its top directory; deeper inside, the copy would go on without end. -/
def copyTree (fs : FileSystem γ) (source directory : Path) (name : Text) :
    Option (FileSystem γ) :=
  if allowed : ProperName name ∧ fs.isWritable directory = true ∧
      (fs.get? (directory ++ [name])).isNone = true ∧ fs.isDirectory source = true ∧
      (source <+: directory → source = directory) then
    some (fs.graft source directory name allowed.1 (isDirectory_of_isWritable allowed.2.1)
      (Option.isNone_iff_eq_none.mp allowed.2.2.1))
  else none

theorem get?_makeWritable {fs : FileSystem γ} {path : Path} (directory : fs.IsDirectory path)
    (other : Path) : (fs.makeWritable path).get? other =
      if other = path then some (.directory true) else fs.get? other := by
  unfold makeWritable
  rw [dif_pos (isDirectory_iff.mpr directory)]
  exact get?_replace _ _ other

theorem replaceLink_spec {fs : FileSystem γ} {directory : Path} {name old : Text} (target : Text)
    (linked : fs.get? (directory ++ [name]) = some (.link old))
    (writable : fs.isWritable directory = true) :
    ∃ next, fs.replaceLink directory name target = some next ∧ ∀ path, next.get? path =
      if path = directory ++ [name] then some (.link target) else fs.get? path := by
  unfold replaceLink
  rw [dif_pos ⟨isLink_iff.mpr ⟨old, linked⟩, writable⟩]
  exact ⟨_, rfl, get?_replace _ _⟩

theorem addEntry_spec {fs next : FileSystem γ} {directory : Path} {name : Text} {entry : Entry γ}
    (added : fs.addEntry directory name entry = some next) :
    ProperName name ∧ fs.isWritable directory = true ∧ fs.get? (directory ++ [name]) = none ∧
      ∀ path, next.get? path = if path = directory ++ [name] then some entry else fs.get? path := by
  unfold addEntry at added
  split at added
  · rename_i allowed
    cases added
    exact ⟨allowed.1, allowed.2.1, Option.isNone_iff_eq_none.mp allowed.2.2, get?_create _ _ _⟩
  · cases added

theorem copyTree_spec {fs next : FileSystem γ} {source directory : Path} {name : Text}
    (copied : fs.copyTree source directory name = some next) :
    ProperName name ∧ fs.isWritable directory = true ∧ fs.get? (directory ++ [name]) = none ∧
      fs.IsDirectory source ∧ (source <+: directory → source = directory) ∧
      (∀ below, next.get? (directory ++ [name] ++ below) = fs.get? (source ++ below)) ∧
      ∀ path, ¬ directory ++ [name] <+: path → next.get? path = fs.get? path := by
  unfold copyTree at copied
  split at copied
  · rename_i allowed
    cases copied
    exact ⟨allowed.1, allowed.2.1, Option.isNone_iff_eq_none.mp allowed.2.2.1,
      isDirectory_iff.mp allowed.2.2.2.1, allowed.2.2.2.2, get?_graft_below,
      fun _ => get?_graft_elsewhere⟩
  · cases copied

/-- The kernel's resolution in the file system, with a reading of links. -/
def resolveWith (fs : FileSystem γ) (read : LinkReading) (links : Nat) (position : Path)
    (components : List Text) : Option Path :=
  PathTree.resolveWith fs.get? read links position components

/-- The kernel's resolution: the real path that components lead to from a directory. -/
def resolve (fs : FileSystem γ) : Nat → Path → List Text → Option Path :=
  fs.resolveWith kernelReading

section Resolution

variable {fs : FileSystem γ} {read : LinkReading} {directory : Path} {name : Text}

theorem resolveWith_nil (fs : FileSystem γ) (read : LinkReading) (links : Nat) (position : Path) :
    fs.resolveWith read links position [] = some position :=
  PathTree.resolveWith_nil fs.get? read links position

/-- Where the walk goes on at a link, one link fewer at hand. -/
def resolveLink (fs : FileSystem γ) (read : LinkReading) : Nat → Path → Text → List Text →
    Option Path :=
  PathTree.resolveLink fs.get? read

theorem resolveWith_cons (fs : FileSystem γ) (read : LinkReading) (links : Nat) (position : Path)
    (component : Text) (rest : List Text) :
    fs.resolveWith read links position (component :: rest) =
      if ¬ fs.isDirectory position then none
      else if component = [] ∨ component = dot then fs.resolveWith read links position rest
      else if component = dotDot then fs.resolveWith read links position.dropLast rest
      else match fs.get? (position ++ [component]) with
        | none => none
        | some (.link target) => fs.resolveLink read links position target rest
        | some (.directory _) | some (.file _) =>
            fs.resolveWith read links (position ++ [component]) rest :=
  PathTree.resolveWith_cons fs.get? read links position component rest

theorem resolveWith_idle (isDirectory : fs.IsDirectory directory) {component : Text}
    (idle : component = [] ∨ component = dot) (links : Nat) (rest : List Text) :
    fs.resolveWith read links directory (component :: rest) =
      fs.resolveWith read links directory rest := by
  rw [resolveWith_cons, if_neg (not_not.mpr (isDirectory_iff.mpr isDirectory)), if_pos idle]

theorem resolveWith_dotDot (isDirectory : fs.IsDirectory directory) (links : Nat)
    (rest : List Text) :
    fs.resolveWith read links directory (dotDot :: rest) =
      fs.resolveWith read links directory.dropLast rest := by
  rw [resolveWith_cons, if_neg (not_not.mpr (isDirectory_iff.mpr isDirectory)),
    if_neg (by decide), if_pos rfl]

/-- A proper name in a directory. -/
theorem resolveWith_proper (isDirectory : fs.IsDirectory directory) (proper : ProperName name)
    (links : Nat) (rest : List Text) :
    fs.resolveWith read links directory (name :: rest) =
      match fs.get? (directory ++ [name]) with
      | none => none
      | some (.link target) => fs.resolveLink read links directory target rest
      | some (.directory _) | some (.file _) =>
          fs.resolveWith read links (directory ++ [name]) rest := by
  rw [resolveWith_cons, if_neg (not_not.mpr (isDirectory_iff.mpr isDirectory)),
    if_neg (not_or.mpr ⟨proper.nonempty, proper.notDot⟩), if_neg proper.notDotDot]

/-- A name leads to its entry when this is not a link. -/
theorem resolveWith_name (isDirectory : fs.IsDirectory directory) {entry : Entry γ}
    (stored : fs.get? (directory ++ [name]) = some entry)
    (notLink : ∀ target, entry ≠ .link target) (links : Nat) (rest : List Text) :
    fs.resolveWith read links directory (name :: rest) =
      fs.resolveWith read links (directory ++ [name]) rest := by
  have proper : ProperName name :=
    fs.proper_of_get? stored name (List.mem_append_right _ (List.mem_singleton_self _))
  rw [resolveWith_proper isDirectory proper, stored]
  cases entry with
  | directory writable => rfl
  | file contents => rfl
  | link target => exact absurd rfl (notLink target)

/-- Names lead through directories. -/
theorem resolveWith_directories (below : Path) (isDirectory : fs.IsDirectory (directory ++ below))
    (links : Nat) (rest : List Text) :
    fs.resolveWith read links directory (below ++ rest) =
      fs.resolveWith read links (directory ++ below) rest := by
  induction below generalizing directory with
  | nil => rw [List.append_nil, List.nil_append]
  | cons name deeper ih =>
      obtain ⟨writable, stored⟩ := isDirectory
      have here := fs.isDirectory_of_below (List.cons_ne_nil _ _) stored
      have next : fs.IsDirectory (directory ++ [name]) := by
        rw [List.append_cons] at stored
        by_cases last : deeper = []
        · subst last
          rw [List.append_nil] at stored
          exact ⟨writable, stored⟩
        · exact fs.isDirectory_of_below last stored
      obtain ⟨mode, child⟩ := next
      rw [List.cons_append, resolveWith_name here child nofun, ih ⟨writable, ?_⟩,
        List.append_assoc, List.singleton_append]
      rw [List.append_assoc, List.singleton_append]
      exact stored

/-- The path of a directory leads to it. -/
theorem resolve_isDirectory (isDirectory : fs.IsDirectory directory) (links : Nat) :
    fs.resolve links [] directory = some directory := by
  have walk : fs.resolveWith kernelReading links [] (directory ++ []) =
      fs.resolveWith kernelReading links ([] ++ directory) [] :=
    resolveWith_directories directory isDirectory links []
  rwa [List.append_nil, resolveWith_nil] at walk

/-- A directory's ancestors are directories. -/
theorem IsDirectory.take (isDirectory : fs.IsDirectory directory) (depth : Nat) :
    fs.IsDirectory (directory.take depth) := by
  by_cases whole : directory.drop depth = []
  · rw [← List.take_append_drop depth directory, whole, List.append_nil] at isDirectory
    exact isDirectory
  · obtain ⟨writable, stored⟩ := isDirectory
    rw [← List.take_append_drop depth directory] at stored
    exact fs.isDirectory_of_below whole stored

theorem resolveWith_up (isDirectory : fs.IsDirectory directory) (steps links : Nat)
    (rest : List Text) :
    fs.resolveWith read links directory (List.replicate steps dotDot ++ rest) =
      fs.resolveWith read links (directory.take (directory.length - steps)) rest := by
  induction steps generalizing directory with
  | zero => rw [Nat.sub_zero, List.take_length]; rfl
  | succ steps ih =>
      have above : fs.IsDirectory directory.dropLast := by
        rw [List.dropLast_eq_take]
        exact isDirectory.take _
      rw [List.replicate_succ, List.cons_append, resolveWith_dotDot isDirectory, ih above,
        List.dropLast_eq_take, List.take_take, List.length_take]
      congr 2
      omega

/-- A relative path leads where the path it was made from leads. -/
theorem resolveWith_relative {start : Path} (isDirectory : fs.IsDirectory start) (path : Path)
    (links : Nat) (rest : List Text) :
    fs.resolveWith read links start (relativeComponents path start ++ rest) =
      fs.resolveWith read links [] (path ++ rest) := by
  have turn : fs.IsDirectory ([] ++ path.take (sharedLength start path)) := by
    rw [List.nil_append, ← take_sharedLength]
    exact isDirectory.take _
  unfold relativeComponents
  rw [List.append_assoc, resolveWith_up isDirectory, take_up]
  calc fs.resolveWith read links (path.take (sharedLength start path))
        (path.drop (sharedLength start path) ++ rest)
      = fs.resolveWith read links []
          (path.take (sharedLength start path) ++ (path.drop (sharedLength start path) ++ rest)) :=
        (resolveWith_directories _ turn links _).symm
    _ = fs.resolveWith read links [] (path ++ rest) := by
        rw [← List.append_assoc, List.take_append_drop]

/-- The end of a walk has an entry. -/
theorem present_of_leads {links : Nat} {position real : Path} {components : List Text}
    (leads : PathTree.Leads fs.get? kernelReading links position components real)
    (present : ∃ entry, fs.get? position = some entry) : ∃ entry, fs.get? real = some entry := by
  induction leads with
  | arrived => exact present
  | stay isDirectory idle later ih => exact ih present
  | up isDirectory later ih =>
      apply ih
      rw [List.dropLast_eq_take]
      exact ((isDirectory_iff.mp isDirectory).take _).present
  | down isDirectory busy notUp stored notLink later ih => exact ih ⟨_, stored⟩
  | link isDirectory busy notUp stored later ih =>
      apply ih
      unfold kernelReading
      split
      · exact IsDirectory.present fs.top
      · exact (isDirectory_iff.mp isDirectory).present

end Resolution

/-- How many links the kernel follows. -/
def maxLinks : Nat := 40

/-- `path.is_dir()` for an entry of a directory. -/
def isDirectoryAt (fs : FileSystem γ) (directory : Path) (name : Text) : Bool :=
  match fs.resolve maxLinks directory [name] with
  | some path => fs.isDirectory path
  | none => false

theorem isDirectoryAt_eq {fs : FileSystem γ} {directory : Path}
    (isDirectory : fs.IsDirectory directory) {name : Text}
    (notLink : fs.isLink (directory ++ [name]) = false) {entry : Entry γ}
    (stored : fs.get? (directory ++ [name]) = some entry) :
    fs.isDirectoryAt directory name = fs.isDirectory (directory ++ [name]) := by
  have distinct (target : Text) : entry ≠ .link target := by
    rintro rfl
    rw [isLink_iff.mpr ⟨target, stored⟩] at notLink
    cases notLink
  unfold isDirectoryAt resolve
  rw [resolveWith_name isDirectory stored distinct, resolveWith_nil]

end FileSystem

end Foundation
