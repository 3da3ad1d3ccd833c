import X86OnArm.Foundation.PosixPath
import Mathlib.Data.List.Pairwise

/-! # Mounts over one another

A sequence of mounts, applied from the first to the last, hides at and below a
destination what was there before. A path therefore lies in the last mount that covers
it; among mounts none of which covers the destination of another, that is the only one.
-/

namespace Foundation

universe u

/-- What is mounted, and where. -/
structure Mount (Source : Type u) where
  source : Source
  destination : Path
  deriving DecidableEq

namespace Mount

variable {Source : Type u}

/-- The mount a path lies in: the last one at or above it. -/
def covering (mounts : List (Mount Source)) (path : Path) : Option (Mount Source) :=
  (mounts.filter fun mount => mount.destination.isPrefixOf path).getLast?

/-- The source a path lies in and the names to follow there. -/
def resolve (mounts : List (Mount Source)) (path : Path) : Option (Source × Path) :=
  (covering mounts path).map fun mount => (mount.source, path.drop mount.destination.length)

/-- Neither destination is at or below the other. -/
def Apart (first second : Mount Source) : Prop :=
  ¬ first.destination <+: second.destination ∧ ¬ second.destination <+: first.destination

instance : Std.Symm (Apart : Mount Source → Mount Source → Prop) :=
  ⟨fun _ _ apart => ⟨apart.2, apart.1⟩⟩

variable {earlier later : List (Mount Source)} {mount : Mount Source} {path rest : Path}

/-- A path below one of some mounts that are apart lies in that one, whatever was
mounted before them. -/
theorem covering_append (apart : later.Pairwise Apart) (member : mount ∈ later)
    (below : mount.destination <+: path) : covering (earlier ++ later) path = some mount := by
  have covers : mount ∈ later.filter fun other => other.destination.isPrefixOf path :=
    List.mem_filter.mpr ⟨member, List.isPrefixOf_iff_prefix.mpr below⟩
  have last := List.getLast?_eq_some_getLast (List.ne_nil_of_mem covers)
  obtain ⟨lastMember, lastCovers⟩ := List.mem_filter.mp (List.mem_of_getLast? last)
  have same := List.prefix_or_prefix_of_prefix (List.isPrefixOf_iff_prefix.mp lastCovers) below
  rw [covering, List.filter_append, List.getLast?_append, last, Option.some_or]
  congr 1
  by_contra different
  have distinct := apart.forall lastMember member different
  rcases same with inside | inside
  · exact distinct.1 inside
  · exact distinct.2 inside

theorem resolve_append (apart : later.Pairwise Apart) (member : mount ∈ later) :
    resolve (earlier ++ later) (mount.destination ++ rest) = some (mount.source, rest) := by
  rw [resolve, covering_append apart member (List.prefix_append _ _), Option.map_some,
    List.drop_left]

end Mount

end Foundation
