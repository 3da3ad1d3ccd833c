import X86OnArm.Foundation.FileTree
import X86OnArm.Foundation.Mounts

/-! # Namespaces of mounts

What a process sees: file systems, and where a directory of each of them is mounted. Two
mounts can show the same directory, so a change is made to a file system and seen through
every mount that shows it. A bind mount shows a directory of one file system again, without
what is mounted below it.
-/

namespace Foundation

open PosixPath

universe u

namespace PathTree

variable {γ : Type u} {tree other : PathTree γ} {read : LinkReading}

/-- The paths that name directories by names alone, up to the last one. -/
inductive Real (tree : PathTree γ) : Path → Prop where
  | top : Real tree []
  | inside {path : Path} {name : Text} (real : Real tree path)
      (isDirectory : tree.isDirectory path = true) (busy : ¬ (name = [] ∨ name = dot))
      (notUp : name ≠ dotDot) : Real tree (path ++ [name])

theorem Real.dropLast {path : Path} (real : Real tree path) : Real tree path.dropLast := by
  cases real with
  | top => exact .top
  | inside real isDirectory busy notUp => rwa [List.dropLast_concat]

/-- A walk of the kernel ends at a real path. -/
theorem Leads.real {links : Nat} {position stop : Path} {components : List Text}
    (leads : Leads tree kernelReading links position components stop)
    (start : Real tree position) : Real tree stop := by
  induction leads with
  | arrived => exact start
  | stay isDirectory idle later ih => exact ih start
  | up isDirectory later ih => exact ih start.dropLast
  | down isDirectory busy notUp stored notLink later ih =>
      exact ih (.inside start isDirectory busy notUp)
  | link isDirectory busy notUp stored later ih =>
      apply ih
      unfold kernelReading
      split
      · exact .top
      · exact start

/-- A directory's real path leads to it. -/
theorem Real.leads {path : Path} (real : Real tree path)
    (isDirectory : tree.isDirectory path = true) : Leads tree read 0 [] path path := by
  induction real with
  | top => exact .arrived
  | inside real above busy notUp ih =>
      obtain ⟨writable, stored⟩ := isDirectory_iff.mp isDirectory
      have plain (target : Text) : Entry.directory writable ≠ (.link target : Entry γ) := by
        intro same
        cases same
      have last : Leads tree read 0 _ [_] _ := .down above busy notUp stored plain .arrived
      exact (ih above).append last

/-- A proper path is real where all the directories on the way are there. -/
theorem Real.of_directories {path : Path} (proper : ProperPath path)
    (directories : ∀ above, above <+: path → above ≠ path → tree.isDirectory above = true) :
    Real tree path := by
  induction path using List.reverseRecOn with
  | nil => exact .top
  | append_singleton above name ih =>
      have last : ProperName name := proper name (by simp)
      have shorter {part : Path} (inside : part <+: above) : part ≠ above ++ [name] := by
        rintro rfl
        have longer := inside.length_le
        rw [List.length_append, List.length_singleton] at longer
        omega
      apply Real.inside _ (directories above (List.prefix_append _ _) (shorter List.prefix_rfl))
        (not_or.mpr ⟨last.nonempty, last.notDot⟩) last.notDotDot
      apply ih fun part member => proper part (List.mem_append_left _ member)
      intro part inside _
      exact directories part (inside.trans (List.prefix_append _ _)) (shorter inside)

theorem Real.mono {path : Path} (real : Real tree path)
    (kept : ∀ above, tree.isDirectory above = true → other.isDirectory above = true) :
    Real other path := by
  induction real with
  | top => exact .top
  | inside real isDirectory busy notUp ih => exact .inside ih (kept _ isDirectory) busy notUp

end PathTree

namespace FileSystem

variable {γ : Type u}

theorem isDirectory_replaced {fs : FileSystem γ} {path : Path} (_ : fs.IsDirectory path) :
    ∃ writable, (.directory true : Entry γ) = .directory writable := ⟨true, rfl⟩

/-- The file system with a directory in the place of a link. -/
def linkToDirectory (fs : FileSystem γ) (path : Path) (link : fs.isLink path = true) :
    FileSystem γ :=
  fs.replace path (.directory true) (present_of_isLink link) isDirectory_replaced

theorem get?_linkToDirectory {fs : FileSystem γ} {path : Path} (link : fs.isLink path = true)
    (other : Path) : (fs.linkToDirectory path link).get? other =
      if other = path then some (.directory true) else fs.get? other :=
  get?_replace _ _ other

theorem isDirectory_linkToDirectory {fs : FileSystem γ} {path other : Path}
    (link : fs.isLink path = true) (isDirectory : fs.IsDirectory other) :
    (fs.linkToDirectory path link).IsDirectory other := by
  unfold IsDirectory
  rw [get?_linkToDirectory link]
  split
  · exact ⟨true, rfl⟩
  · exact isDirectory

end FileSystem

structure Namespace (Device γ : Type u) where
  device : Device → FileSystem γ
  mounts : List (Mount (Device × Path))
  directories : ∀ mount ∈ mounts, (device mount.source.1).IsDirectory mount.source.2
  rooted : ∃ mount ∈ mounts, mount.destination = []

namespace Namespace

variable {Device γ : Type u} {space next : Namespace Device γ} {path : Path}
  {place : Device × Path}

/-- The file system a path lies in, and where it lies there. -/
def locate (space : Namespace Device γ) (path : Path) : Option (Device × Path) :=
  (Mount.resolve space.mounts path).map fun found => (found.1.1, found.1.2 ++ found.2)

def entryAt (space : Namespace Device γ) (place : Device × Path) : Option (Entry γ) :=
  (space.device place.1).get? place.2

def view (space : Namespace Device γ) : PathTree γ := fun path =>
  (space.locate path).bind space.entryAt

/-- Where the kernel gets from the top. -/
def resolve (space : Namespace Device γ) (components : List Text) : Option Path :=
  space.view.resolveWith kernelReading FileSystem.maxLinks [] components

/-- Nothing is mounted below a path. -/
def Bare (space : Namespace Device γ) (path : Path) : Prop :=
  ∀ mount ∈ space.mounts, path <+: mount.destination → mount.destination = path

theorem view_of_located (located : space.locate path = some place) :
    space.view path = space.entryAt place := by
  unfold view
  rw [located, Option.bind_some]

theorem located_of_view {entry : Entry γ} (stored : space.view path = some entry) :
    ∃ place, space.locate path = some place ∧ space.entryAt place = some entry :=
  Option.bind_eq_some_iff.mp stored

/-- The mount a path lies in, the last one at or above it. -/
theorem locate_eq_some (located : space.locate path = some place) :
    ∃ mount ∈ space.mounts, ∃ below, path = mount.destination ++ below ∧
      place = (mount.source.1, mount.source.2 ++ below) ∧
      Mount.covering space.mounts path = some mount := by
  obtain ⟨found, resolved, rfl⟩ := Option.map_eq_some_iff.mp located
  obtain ⟨mount, covers, rfl⟩ := Option.map_eq_some_iff.mp resolved
  obtain ⟨member, within⟩ := List.mem_filter.mp (List.mem_of_getLast? covers)
  obtain ⟨below, rfl⟩ := List.isPrefixOf_iff_prefix.mp within
  refine ⟨mount, member, below, rfl, ?_, covers⟩
  rw [List.drop_left]

/-- Below a path that no other mount lies on the way from, everything lies where it does. -/
theorem locate_below (located : space.locate path = some place) {below : Path}
    (free : ∀ mount ∈ space.mounts, path <+: mount.destination →
      mount.destination <+: path ++ below → mount.destination = path) :
    space.locate (path ++ below) = some (place.1, place.2 ++ below) := by
  obtain ⟨mount, -, rest, rfl, rfl, covers⟩ := locate_eq_some located
  have same : Mount.covering space.mounts (mount.destination ++ rest ++ below) = some mount := by
    rw [← covers]
    unfold Mount.covering
    congr 1
    apply List.filter_congr
    intro other member
    rw [Bool.eq_iff_iff, List.isPrefixOf_iff_prefix, List.isPrefixOf_iff_prefix]
    constructor
    · intro inside
      rcases List.prefix_or_prefix_of_prefix inside (List.prefix_append _ below) with up | down
      · exact up
      · rw [free other member down inside]
    · exact fun inside => inside.trans (List.prefix_append _ _)
  unfold locate Mount.resolve
  rw [same, Option.map_some, Option.map_some, List.append_assoc, List.drop_left, List.append_assoc]

theorem Bare.locate (bare : space.Bare path) (located : space.locate path = some place)
    (below : Path) : space.locate (path ++ below) = some (place.1, place.2 ++ below) :=
  locate_below located fun mount member inside _ => bare mount member inside

/-- The top is a directory. -/
theorem isDirectory_top (space : Namespace Device γ) : space.view.isDirectory [] = true := by
  obtain ⟨top, topMember, atTop⟩ := space.rooted
  have covered : top ∈ space.mounts.filter fun mount => mount.destination.isPrefixOf [] := by
    refine List.mem_filter.mpr ⟨topMember, ?_⟩
    rw [atTop]
    rfl
  obtain ⟨mount, covers⟩ : ∃ mount, Mount.covering space.mounts [] = some mount :=
    ⟨_, List.getLast?_eq_some_getLast (List.ne_nil_of_mem covered)⟩
  have member := (List.mem_filter.mp (List.mem_of_getLast? covers)).1
  obtain ⟨writable, stored⟩ := space.directories mount member
  have located : space.locate [] = some mount.source := by
    unfold locate Mount.resolve
    rw [covers, Option.map_some, Option.map_some, List.drop_nil, List.append_nil]
  exact PathTree.isDirectory_iff.mpr ⟨writable, (view_of_located located).trans stored⟩

/-- A bind mount of the directory at a place. -/
def mountAt (space : Namespace Device γ) (place : Device × Path) (destination : Path)
    (isDirectory : (space.device place.1).IsDirectory place.2) : Namespace Device γ where
  device := space.device
  mounts := space.mounts ++ [⟨place, destination⟩]
  directories := by
    intro mount member
    rcases List.mem_append.mp member with old | new
    · exact space.directories mount old
    · rwa [List.mem_singleton.mp new]
  rooted := by
    obtain ⟨mount, member, top⟩ := space.rooted
    exact ⟨mount, List.mem_append_left _ member, top⟩

/-- `mount --bind` of one directory on another. -/
def bind (space : Namespace Device γ) (source destination : Path) :
    Option (Namespace Device γ) := do
  let place ← space.locate source
  if allowed : (space.device place.1).isDirectory place.2 = true ∧
      space.view.isDirectory destination = true then
    some (space.mountAt place destination (FileSystem.isDirectory_iff.mp allowed.1))
  else none

/-- A bind mount shows its source at its destination, and nothing else changes. -/
theorem bind_spec {source destination : Path} (isSource : space.view.isDirectory source = true)
    (isDestination : space.view.isDirectory destination = true) :
    ∃ next place, space.bind source destination = some next ∧
      space.locate source = some place ∧ next.device = space.device ∧
      next.mounts = space.mounts ++ [⟨place, destination⟩] ∧
      (∀ below, next.locate (destination ++ below) = some (place.1, place.2 ++ below)) ∧
      ∀ path, ¬ destination <+: path → next.locate path = space.locate path := by
  obtain ⟨writable, shown⟩ := PathTree.isDirectory_iff.mp isSource
  obtain ⟨place, located, stored⟩ := located_of_view shown
  have isDirectory : (space.device place.1).isDirectory place.2 = true :=
    FileSystem.isDirectory_iff.mpr ⟨writable, stored⟩
  unfold bind
  rw [located, Option.bind_eq_bind, Option.bind_some, dif_pos ⟨isDirectory, isDestination⟩]
  refine ⟨_, place, rfl, rfl, rfl, rfl, ?_, ?_⟩
  · intro below
    unfold locate mountAt
    rw [Mount.resolve_append (List.pairwise_singleton _ _) (List.mem_singleton_self _)]
    rfl
  · intro path outside
    have missed : ¬ destination.isPrefixOf path = true :=
      fun covers => outside (List.isPrefixOf_iff_prefix.mp covers)
    unfold locate mountAt Mount.resolve Mount.covering
    rw [List.filter_append, List.filter_singleton]
    simp only [missed, cond_false, List.append_nil]

section Change

variable [DecidableEq Device]

/-- Another state of one file system, in which no directory is missing. -/
def change (space : Namespace Device γ) (device : Device) (changed : FileSystem γ)
    (kept : ∀ path, (space.device device).IsDirectory path → changed.IsDirectory path) :
    Namespace Device γ where
  device := Function.update space.device device changed
  mounts := space.mounts
  directories := by
    intro mount member
    have before := space.directories mount member
    by_cases same : mount.source.1 = device
    · subst same
      rw [Function.update_self]
      exact kept _ before
    · rwa [Function.update_of_ne same]
  rooted := space.rooted

theorem entryAt_change {device : Device} {changed : FileSystem γ}
    (kept : ∀ path, (space.device device).IsDirectory path → changed.IsDirectory path)
    (place : Device × Path) : (space.change device changed kept).entryAt place =
      if place.1 = device then changed.get? place.2 else space.entryAt place := by
  change (Function.update space.device device changed place.1).get? place.2 = _
  by_cases same : place.1 = device
  · rw [if_pos same, same, Function.update_self]
  · rw [if_neg same, Function.update_of_ne same]
    rfl

/-- `rm` of a link and `mkdir` under its name. -/
def linkToDirectory (space : Namespace Device γ) (directory : Path) (name : Text) :
    Option (Namespace Device γ) := do
  let parent ← space.locate directory
  let place ← space.locate (directory ++ [name])
  if allowed : (space.device parent.1).isWritable parent.2 = true ∧
      (space.device place.1).isLink place.2 = true then
    some (space.change place.1 ((space.device place.1).linkToDirectory place.2 allowed.2)
      fun _ => FileSystem.isDirectory_linkToDirectory allowed.2)
  else none

/-- One entry changes, wherever it is seen. -/
theorem linkToDirectory_spec {directory : Path} {name target : Text}
    (writable : space.view directory = some (.directory true))
    (linked : space.view (directory ++ [name]) = some (.link target)) :
    ∃ next place, space.linkToDirectory directory name = some next ∧
      space.locate (directory ++ [name]) = some place ∧ next.mounts = space.mounts ∧
      ∀ other, next.entryAt other =
        if other = place then some (.directory true) else space.entryAt other := by
  obtain ⟨parent, located, mode⟩ := located_of_view writable
  obtain ⟨place, there, stored⟩ := located_of_view linked
  have allowed : (space.device parent.1).isWritable parent.2 = true ∧
      (space.device place.1).isLink place.2 = true :=
    ⟨FileSystem.isWritable_iff.mpr mode, FileSystem.isLink_iff.mpr ⟨target, stored⟩⟩
  unfold linkToDirectory
  rw [located, there, Option.bind_eq_bind, Option.bind_some, Option.bind_some, dif_pos allowed]
  refine ⟨_, place, rfl, rfl, rfl, ?_⟩
  intro other
  rw [entryAt_change]
  by_cases same : other.1 = place.1
  · rw [if_pos same, FileSystem.get?_linkToDirectory allowed.2, entryAt, same]
    simp only [Prod.ext_iff, same, true_and]
  · rw [if_neg same, if_neg fun equal => same (congrArg Prod.fst equal)]

end Change

end Namespace

end Foundation
