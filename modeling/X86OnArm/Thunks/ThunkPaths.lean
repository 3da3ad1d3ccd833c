import X86OnArm.Foundation.Dict
import X86OnArm.Foundation.Json
import X86OnArm.Foundation.TextOrder

/-! # The overlays of the thunk database

FEX loads its own thunk for a library path that the database lists. `thunkPaths` extends
the lists to the paths the guest's libraries have in the store. Which names a library has
is `Soname`, under which directories it is found is `places`; a list is closed when it has
every name in every place (`Extension`). One library's extension assigns at one place of
the document, so the whole run leaves every other place as it was.
-/

namespace X86OnArm.Thunks

open Foundation

variable {Scalar : Type}

def prefixLib : Text := text "@PREFIX_LIB@/"

/-- `f"{directory}/{soname}"`. -/
def located (directory soname : Text) : Text := directory ++ text "/" ++ soname

/-- The names a list has under `@PREFIX_LIB@`. -/
def listedNames (overlay : List Text) : List Text :=
  (overlay.filter prefixLib.isPrefixOf).map (·.drop prefixLib.length)

/-- A name of one of the families, with or without a version. -/
def ofFamily (families : List Text) (name : Text) : Bool :=
  families.any fun family => name == family || (family ++ text ".").isPrefixOf name

/-- The names a library has and those its directories ship. -/
def discover (listing : Text → Option (List Text)) (families sonames paths : List Text) :
    Option (List Text) :=
  paths.foldlM (fun sonames directory =>
    (listing directory).map fun names => sonames ++ names.filter (ofFamily families)) sonames

/-- `sorted(paths)`. -/
def sortedTexts (paths : List Text) : List Text :=
  paths.insertionSort fun first second => Text.lt second first = false

/-- Append each candidate that the list does not have when its turn comes. -/
def extendFresh (overlay candidates : List Text) : List Text :=
  candidates.foldl (fun overlay path => if path ∈ overlay then overlay else overlay ++ [path])
    overlay

/-- The list of a library, extended. -/
def extendOverlay (listing : Text → Option (List Text)) (paths overlay : List Text) :
    Option (List Text) := do
  let sonames := listedNames overlay
  let families := sonames.filter (text ".so").isSuffixOf
  let sonames ← discover listing families sonames paths
  let overlay := extendFresh overlay ((sortedSet sonames).map (prefixLib ++ ·))
  let overlay := overlay ++
    (sortedTexts paths).flatMap fun directory => (sortedSet sonames).map (located directory)
  return overlay ++ [text "/usr/lib32", text "/lib32"].flatMap fun directory =>
    (sortedSet sonames).map (located directory)

/-- Where the database keeps a library's list. -/
def overlayPath (name : Text) : List Text := [text "DB", name, text "Overlay"]

/-- The assignment to one library's list. -/
def extendLibrary (listing : Text → Option (List Text)) (paths : List Text)
    (overlay : Json Scalar) : Option (Json Scalar) := do
  let overlay ← overlay.texts?
  let overlay ← extendOverlay listing paths overlay
  return .array (overlay.map .string)

/-- The script: what it writes back, when no lookup and no listing fails. -/
def thunkPaths (listing : Text → Option (List Text)) (database : Json Scalar)
    (directories : Dict Text (List Text)) : Option (Json Scalar) :=
  directories.entries.foldlM (fun database entry =>
    database.modifyAt? (extendLibrary listing entry.2) (overlayPath entry.1)) database

/-- A library's list. -/
def overlayAt? (database : Json Scalar) (name : Text) : Option (List Text) :=
  (database.getAt? (overlayPath name)).bind Json.texts?

section Purpose

variable (listing : Text → Option (List Text)) (paths overlay : List Text)

/-- A directory of the library ships a file of this name. -/
def Ships (name : Text) : Prop :=
  ∃ directory ∈ paths, ∃ names, listing directory = some names ∧ name ∈ names

/-- The names of a library: those listed under `@PREFIX_LIB@`, and the shipped ones that
are a listed `.so` name or continue it after a dot. -/
inductive Soname : Text → Prop
  | listed (name : Text) (present : prefixLib ++ name ∈ overlay) : Soname name
  | shipped (name family : Text) (ships : Ships listing paths name)
      (present : prefixLib ++ family ∈ overlay) (library : text ".so" <:+ family)
      (version : name = family ∨ family ++ text "." <+: name) : Soname name

/-- Every place a guest may load a library from. -/
def places : List Text :=
  text "@PREFIX_LIB@" :: paths ++ [text "/usr/lib32", text "/lib32"]

/-- What is added to the list: with it the list has every name in every place, and it is
nothing else. -/
structure Extension (added : List Text) : Prop where
  closed : ∀ place ∈ places paths, ∀ name, Soname listing paths overlay name →
    located place name ∈ overlay ++ added
  nothingElse : ∀ path ∈ added, ∃ place ∈ places paths, ∃ name,
    Soname listing paths overlay name ∧ path = located place name

end Purpose

section Names

variable {listing : Text → Option (List Text)} {paths overlay : List Text}

theorem prefixLib_append (name : Text) :
    prefixLib ++ name = located (text "@PREFIX_LIB@") name := by
  unfold located
  rw [List.append_assoc]
  rfl

theorem mem_listedNames {name : Text} :
    name ∈ listedNames overlay ↔ prefixLib ++ name ∈ overlay := by
  unfold listedNames
  rw [List.mem_map]
  constructor
  · rintro ⟨path, kept, rfl⟩
    obtain ⟨present, starts⟩ := List.mem_filter.mp kept
    obtain ⟨rest, rfl⟩ := List.isPrefixOf_iff_prefix.mp starts
    rw [List.drop_left]
    exact present
  · intro present
    refine ⟨prefixLib ++ name, List.mem_filter.mpr ⟨present, ?_⟩, List.drop_left⟩
    exact List.isPrefixOf_iff_prefix.mpr (List.prefix_append prefixLib name)

theorem ofFamily_iff {families : List Text} {name : Text} :
    ofFamily families name ↔
      ∃ family ∈ families, name = family ∨ family ++ text "." <+: name := by
  unfold ofFamily
  simp only [List.any_eq_true, Bool.or_eq_true, beq_iff_eq, List.isPrefixOf_iff_prefix]

theorem mem_discover {families sonames found : List Text}
    (discovered : discover listing families sonames paths = some found) {name : Text} :
    name ∈ found ↔ name ∈ sonames ∨ (Ships listing paths name ∧ ofFamily families name) := by
  unfold discover at discovered
  induction paths generalizing sonames with
  | nil =>
      cases discovered
      constructor
      · exact .inl
      · rintro (present | ⟨⟨_, none, -⟩, -⟩)
        · exact present
        · cases none
  | cons directory paths hypothesis =>
      rw [List.foldlM_cons] at discovered
      obtain ⟨sonames', here, discovered⟩ := Option.bind_eq_some_iff.mp discovered
      obtain ⟨names, listed, rfl⟩ := Option.map_eq_some_iff.mp here
      rw [hypothesis discovered, List.mem_append, List.mem_filter, or_assoc]
      apply or_congr_right
      constructor
      · rintro (⟨present, ofFamily⟩ | ⟨⟨other, member, ships⟩, ofFamily⟩)
        · exact ⟨⟨directory, List.mem_cons_self, names, listed, present⟩, ofFamily⟩
        · exact ⟨⟨other, List.mem_cons_of_mem _ member, ships⟩, ofFamily⟩
      · rintro ⟨⟨other, member, names', listed', present⟩, ofFamily⟩
        rcases List.mem_cons.mp member with rfl | later
        · cases listed.symm.trans listed'
          exact .inl ⟨present, ofFamily⟩
        · exact .inr ⟨⟨other, later, names', listed', present⟩, ofFamily⟩

theorem exists_discover {families sonames : List Text}
    (readable : ∀ directory ∈ paths, (listing directory).isSome) :
    ∃ found, discover listing families sonames paths = some found := by
  unfold discover
  induction paths generalizing sonames with
  | nil => exact ⟨sonames, rfl⟩
  | cons directory paths hypothesis =>
      obtain ⟨names, listed⟩ := Option.isSome_iff_exists.mp (readable directory List.mem_cons_self)
      rw [List.foldlM_cons, listed]
      exact hypothesis fun other later => readable other (List.mem_cons_of_mem _ later)

/-- The script finds the library's names. -/
theorem mem_discover_iff {found : List Text}
    (discovered : discover listing ((listedNames overlay).filter (text ".so").isSuffixOf)
      (listedNames overlay) paths = some found) {name : Text} :
    name ∈ found ↔ Soname listing paths overlay name := by
  rw [mem_discover discovered, mem_listedNames, ofFamily_iff]
  simp only [List.mem_filter, mem_listedNames, List.isSuffixOf_iff_suffix]
  constructor
  · rintro (present | ⟨ships, family, ⟨present, library⟩, version⟩)
    · exact .listed name present
    · exact .shipped name family ships present library version
  · intro soname
    cases soname with
    | listed present => exact .inl present
    | shipped family ships present library version =>
        exact .inr ⟨ships, family, ⟨present, library⟩, version⟩

end Names

section Lists

variable {listing : Text → Option (List Text)} {paths overlay : List Text}

/-- `extendFresh` appends candidates, and has all of them at the end. -/
theorem extendFresh_spec (candidates : List Text) :
    ∃ added, extendFresh overlay candidates = overlay ++ added ∧
      (∀ path ∈ added, path ∈ candidates) ∧ ∀ path ∈ candidates, path ∈ overlay ++ added := by
  unfold extendFresh
  induction candidates generalizing overlay with
  | nil => exact ⟨[], (List.append_nil _).symm, fun _ none => none, fun _ none => nomatch none⟩
  | cons path candidates hypothesis =>
      rw [List.foldl_cons]
      split
      · rename_i present
        obtain ⟨added, same, sound, complete⟩ := @hypothesis overlay
        refine ⟨added, same, fun other member => List.mem_cons_of_mem _ (sound other member), ?_⟩
        intro other member
        rcases List.mem_cons.mp member with rfl | later
        · exact List.mem_append_left _ present
        · exact complete other later
      · obtain ⟨added, same, sound, complete⟩ := @hypothesis (overlay ++ [path])
        refine ⟨path :: added, ?_, ?_, ?_⟩
        · rw [same, List.append_assoc]
          rfl
        · intro other member
          rcases List.mem_cons.mp member with rfl | later
          · exact List.mem_cons_self
          · exact List.mem_cons_of_mem _ (sound other later)
        · rw [← List.append_cons] at complete
          intro other member
          rcases List.mem_cons.mp member with rfl | later
          · exact List.mem_append_right _ List.mem_cons_self
          · exact complete other later

theorem mem_sortedTexts {path : Text} : path ∈ sortedTexts paths ↔ path ∈ paths :=
  List.mem_insertionSort _

/-- A product of directories and names. -/
theorem mem_product {directories names : List Text} {path : Text} :
    path ∈ directories.flatMap (fun directory => (sortedSet names).map (located directory)) ↔
      ∃ directory ∈ directories, ∃ name ∈ names, path = located directory name := by
  simp only [List.mem_flatMap, List.mem_map, mem_sortedSet, eq_comm]

/-- The list of a library is extended to its closure. -/
theorem extendOverlay_spec {extended : List Text}
    (done : extendOverlay listing paths overlay = some extended) :
    ∃ added, extended = overlay ++ added ∧ Extension listing paths overlay added := by
  unfold extendOverlay at done
  obtain ⟨found, discovered, done⟩ := Option.bind_eq_some_iff.mp done
  obtain ⟨fresh, same, sound, complete⟩ :=
    @extendFresh_spec overlay ((sortedSet found).map (prefixLib ++ ·))
  rw [same] at done
  cases done
  refine ⟨_, by rw [List.append_assoc, List.append_assoc], ?_, ?_⟩
  · intro place member name soname
    have named := (mem_discover_iff discovered).mpr soname
    rw [← List.append_assoc, ← List.append_assoc, List.mem_append, mem_product, List.mem_append,
      mem_product]
    unfold places at member
    rcases List.mem_cons.mp member with rfl | inside
    · rw [← prefixLib_append]
      exact .inl (.inl (complete _ (List.mem_map_of_mem (mem_sortedSet.mpr named))))
    · rcases List.mem_append.mp inside with mapped | multilib
      · exact .inl (.inr ⟨place, mem_sortedTexts.mpr mapped, name, named, rfl⟩)
      · exact .inr ⟨place, multilib, name, named, rfl⟩
  · intro path member
    unfold places
    rw [List.mem_append, List.mem_append, mem_product, mem_product] at member
    rcases member with new | ⟨directory, mapped, name, named, rfl⟩ |
      ⟨directory, multilib, name, named, rfl⟩
    · obtain ⟨name, named, rfl⟩ := List.mem_map.mp (sound path new)
      exact ⟨_, List.mem_cons_self, name,
        (mem_discover_iff discovered).mp (mem_sortedSet.mp named), prefixLib_append name⟩
    · exact ⟨directory, List.mem_cons_of_mem _ (List.mem_append_left _
        (mem_sortedTexts.mp mapped)), name, (mem_discover_iff discovered).mp named, rfl⟩
    · exact ⟨directory, List.mem_cons_of_mem _ (List.mem_append_right _ multilib), name,
        (mem_discover_iff discovered).mp named, rfl⟩

theorem exists_extendOverlay (readable : ∀ directory ∈ paths, (listing directory).isSome) :
    ∃ extended, extendOverlay listing paths overlay = some extended := by
  obtain ⟨found, discovered⟩ := @exists_discover listing paths
    ((listedNames overlay).filter (text ".so").isSuffixOf) (listedNames overlay) readable
  unfold extendOverlay
  simp only [discovered]
  exact ⟨_, rfl⟩

end Lists

section Runs

variable {listing : Text → Option (List Text)} {database before after : Json Scalar}
  {name : Text} {paths : List Text}

theorem overlayPath_isPrefix_iff {other : Text} :
    overlayPath name <+: overlayPath other ↔ name = other := by
  constructor
  · intro above
    have same : overlayPath name = overlayPath other := above.eq_of_length rfl
    exact (List.cons.inj (List.cons.inj same).2).1
  · rintro rfl
    exact List.prefix_rfl

/-- One library's turn extends its list. -/
theorem overlayAt?_step {overlay : List Text} (old : overlayAt? before name = some overlay)
    (stepped : before.modifyAt? (extendLibrary listing paths) (overlayPath name) = some after) :
    ∃ added, overlayAt? after name = some (overlay ++ added) ∧
      Extension listing paths overlay added := by
  obtain ⟨value, extended, held, done, held'⟩ := Json.modifyAt?_eq_some stepped
  unfold overlayAt? at old ⊢
  rw [held, Option.bind_some] at old
  unfold extendLibrary at done
  simp only [old, Option.bind_eq_bind, Option.bind_some] at done
  obtain ⟨list, grown, same⟩ := Option.bind_eq_some_iff.mp done
  cases same
  obtain ⟨added, rfl, extension⟩ := extendOverlay_spec grown
  refine ⟨added, ?_, extension⟩
  rw [held', Option.bind_some, Json.texts?_array_map]

/-- One library's turn leaves the other lists as they are. -/
theorem overlayAt?_step_of_ne {other : Text} (different : other ≠ name)
    (stepped : before.modifyAt? (extendLibrary listing paths) (overlayPath name) = some after) :
    overlayAt? after other = overlayAt? before other := by
  unfold overlayAt?
  rw [Json.getAt?_modifyAt? stepped (fun above => different (overlayPath_isPrefix_iff.mp above))
    (fun below => different (overlayPath_isPrefix_iff.mp below).symm)]

theorem exists_step {overlay : List Text} (old : overlayAt? before name = some overlay)
    (readable : ∀ directory ∈ paths, (listing directory).isSome) :
    ∃ after, before.modifyAt? (extendLibrary listing paths) (overlayPath name) = some after := by
  obtain ⟨value, held, texts⟩ := Option.bind_eq_some_iff.mp old
  obtain ⟨extended, done⟩ := @exists_extendOverlay listing paths overlay readable
  have changed : extendLibrary listing paths value =
      some (.array (extended.map .string)) := by
    unfold extendLibrary
    simp only [texts, Option.bind_eq_bind, Option.bind_some, done]
    rfl
  exact Json.exists_modifyAt? held changed

end Runs

/-- What the whole run does: every mapped library's list is extended to its closure, every
other place of the document keeps its value, and every object its keys. -/
structure Closed (listing : Text → Option (List Text)) (database : Json Scalar)
    (entries : List (Text × List Text)) (result : Json Scalar) : Prop where
  extended : ∀ entry ∈ entries, ∀ overlay, overlayAt? database entry.1 = some overlay →
    ∃ added, overlayAt? result entry.1 = some (overlay ++ added) ∧
      Extension listing entry.2 overlay added
  unchanged : ∀ path, (∀ entry ∈ entries, ¬ path <+: overlayPath entry.1 ∧
    ¬ overlayPath entry.1 <+: path) → result.getAt? path = database.getAt? path
  keys : ∀ path, (∀ entry ∈ entries, ¬ overlayPath entry.1 <+: path) →
    (result.getAt? path).map Json.keys = (database.getAt? path).map Json.keys

section Script

variable {listing : Text → Option (List Text)} {database middle result : Json Scalar}
  {name : Text} {paths : List Text} {entries : List (Text × List Text)}

theorem ne_of_fresh (fresh : name ∉ entries.map Prod.fst) {entry : Text × List Text}
    (later : entry ∈ entries) : entry.1 ≠ name := by
  intro same
  exact fresh (same ▸ List.mem_map_of_mem later)

/-- A library's turn goes before those of the others. -/
theorem Closed.cons
    (stepped : database.modifyAt? (extendLibrary listing paths) (overlayPath name) = some middle)
    (fresh : name ∉ entries.map Prod.fst) (closed : Closed listing middle entries result) :
    Closed listing database ((name, paths) :: entries) result where
  extended := by
    intro entry member overlay old
    rcases List.mem_cons.mp member with rfl | later
    · obtain ⟨added, new, extension⟩ := overlayAt?_step old stepped
      have kept : overlayAt? result name = overlayAt? middle name := by
        unfold overlayAt?
        rw [closed.unchanged]
        intro other later
        have different := ne_of_fresh fresh later
        exact ⟨fun above => different (overlayPath_isPrefix_iff.mp above).symm,
          fun below => different (overlayPath_isPrefix_iff.mp below)⟩
      exact ⟨added, kept.trans new, extension⟩
    · apply closed.extended entry later
      rw [overlayAt?_step_of_ne (ne_of_fresh fresh later) stepped]
      exact old
  unchanged path apart := by
    rw [closed.unchanged path fun entry later => apart entry (List.mem_cons_of_mem _ later)]
    obtain ⟨above, below⟩ := apart (name, paths) List.mem_cons_self
    exact Json.getAt?_modifyAt? stepped above below
  keys path below := by
    rw [closed.keys path fun entry later => below entry (List.mem_cons_of_mem _ later)]
    exact Json.keysAt_modifyAt? stepped (below (name, paths) List.mem_cons_self)

/-- The run, library after library. -/
theorem exists_closed (nodup : (entries.map Prod.fst).Nodup)
    (known : ∀ entry ∈ entries, (overlayAt? database entry.1).isSome)
    (readable : ∀ entry ∈ entries, ∀ directory ∈ entry.2, (listing directory).isSome) :
    ∃ result, entries.foldlM (fun database entry =>
        database.modifyAt? (extendLibrary listing entry.2) (overlayPath entry.1)) database =
          some result ∧ Closed listing database entries result := by
  induction entries generalizing database with
  | nil =>
      exact ⟨database, rfl, fun _ none => (nomatch none), fun _ _ => rfl, fun _ _ => rfl⟩
  | cons entry entries hypothesis =>
      obtain ⟨name, paths⟩ := entry
      rw [List.map_cons, List.nodup_cons] at nodup
      obtain ⟨overlay, old⟩ := Option.isSome_iff_exists.mp
        (known (name, paths) List.mem_cons_self)
      obtain ⟨middle, stepped⟩ := exists_step old (readable (name, paths) List.mem_cons_self)
      have known' : ∀ entry ∈ entries, (overlayAt? middle entry.1).isSome := by
        intro entry later
        rw [overlayAt?_step_of_ne (ne_of_fresh nodup.1 later) stepped]
        exact known entry (List.mem_cons_of_mem _ later)
      obtain ⟨result, ran, closed⟩ := hypothesis nodup.2 known'
        fun entry later => readable entry (List.mem_cons_of_mem _ later)
      refine ⟨result, ?_, closed.cons stepped nodup.1⟩
      rw [List.foldlM_cons, stepped]
      exact ran

end Script

/-- **The paths of the thunks are closed.** For every database with a list for each
mapped library, and every listing of the mapped directories, the script extends each of
these lists to its closure and changes nothing else. -/
theorem thunkPaths_closed (listing : Text → Option (List Text)) (database : Json Scalar)
    (directories : Dict Text (List Text))
    (known : ∀ name ∈ directories, (overlayAt? database name).isSome)
    (readable : ∀ entry ∈ directories.entries, ∀ directory ∈ entry.2,
      (listing directory).isSome) :
    ∃ result, thunkPaths listing database directories = some result ∧
      Closed listing database directories.entries result :=
  exists_closed directories.nodup (fun _ member => known _ (List.mem_map_of_mem member)) readable

/-- Two directories that ship another version of a library than the database knows. -/
def shippedListing (directory : Text) : Option (List Text) :=
  if directory = text "/store/32/lib" then some [text "libGL.so.1.7", text "libGLX.so.0"]
  else if directory = text "/store/64/lib" then some [text "libGL.so.1.7", text "libGL.so"]
  else none

/-- A database with one library. -/
def glDatabase : Json Nat :=
  .object [(text "DB", .object [(text "GL", .object
    [(text "Library", .string (text "libGL-guest.so")),
      (text "Overlay", .array [.string (text "@PREFIX_LIB@/libGL.so")])])])]

theorem thunkPaths_closed_gl :
    ∃ result, thunkPaths shippedListing glDatabase
        (Dict.ofList [(text "GL", [text "/store/64/lib", text "/store/32/lib"])]) = some result ∧
      Closed shippedListing glDatabase
        [(text "GL", [text "/store/64/lib", text "/store/32/lib"])] result :=
  thunkPaths_closed shippedListing glDatabase
    (Dict.ofList [(text "GL", [text "/store/64/lib", text "/store/32/lib"])])
    (by decide +kernel) (by decide +kernel)

end X86OnArm.Thunks
