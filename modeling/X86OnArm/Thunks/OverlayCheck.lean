import X86OnArm.Foundation.JsonReading
import X86OnArm.Foundation.PosixPath
import X86OnArm.Thunks.ThunkPaths

/-! # The image's check of the overlays

The check of a built image reads the thunk database from its file and looks, for each
directory, at the paths mapped there and the files it has: none of a mapped library's versions
may be missing. What the script writes is read back and passes (`overlayCheck_thunkPaths`).
-/

namespace X86OnArm.Thunks

open Foundation Foundation.JsonText
open PosixPath (ProperName)

/-- The style of `json.dumps` with an indent of two. -/
def indentStyle : Style where
  escape := asciiEscape
  inside depth := text "\n" ++ List.replicate (2 * (depth + 1)) (' ' : CodePoint)
  between depth := text "\n" ++ List.replicate (2 * (depth + 1)) (' ' : CodePoint)
  before depth := text "\n" ++ List.replicate (2 * depth) (' ' : CodePoint)
  value := text " "

/-- What the script writes into the database's file. -/
def databaseText (database : Json Plain) : Text := indentStyle.print 0 database ++ text "\n"

/-- `Path(path).name`. -/
def pathName (path : Text) : Text :=
  (PosixPath.solid (PosixPath.components path)).getLast?.getD []

/-- The names mapped in a directory. -/
def mappedNames (overlay : List Text) (directory : Text) : List Text :=
  (overlay.filter (directory ++ text "/").isPrefixOf).map pathName

/-- One directory's part of the check. -/
def checkDirectory (shown : Text → Option (List Text)) (overlay : List Text)
    (directory : Text) : Bool :=
  let mapped := mappedNames overlay directory
  let families := mapped.filter (text ".so").isSuffixOf
  mapped ≠ [] && match shown directory with
    | none => false
    | some names => names.all fun name =>
        !ofFamily families name || overlay.contains (located directory name)

/-- The whole check; `shown` are the files of a directory as the image has it. -/
def overlayCheck (shown : Text → Option (List Text)) (database : Json Plain)
    (directories : Dict Text (List Text)) : Bool :=
  directories.entries.all fun entry =>
    match overlayAt? database entry.1 with
    | none => false
    | some overlay => entry.2.all (checkDirectory shown overlay)

/-- What the script is given for a library: directories of files, and a list that names the
library and has nothing in these directories. -/
structure Fits (listing : Text → Option (List Text)) (paths overlay : List Text) : Prop where
  readable : ∀ directory ∈ paths, ∃ names, listing directory = some names ∧
    ∀ name ∈ names, ProperName name ∧ Clean name
  clean : ∀ directory ∈ paths, Clean directory
  named : ∃ name, prefixLib ++ name ∈ overlay
  proper : ∀ name, prefixLib ++ name ∈ overlay → ProperName name
  outside : ∀ directory ∈ paths, ∀ path ∈ overlay, ¬ directory ++ text "/" <+: path

/-- The image has a library's directories, and no files in them that the script was not
given. -/
def Shown (listing shown : Text → Option (List Text)) (paths : List Text) : Prop :=
  ∀ directory ∈ paths, ∀ names, listing directory = some names →
    ∃ seen, shown directory = some seen ∧ seen ⊆ names

section Names

variable {listing shown : Text → Option (List Text)} {paths overlay added : List Text}
  {directory name : Text}

theorem pathName_located (proper : ProperName name) (directory : Text) :
    pathName (located directory name) = name := by
  have split : PosixPath.components (located directory name) =
      PosixPath.components directory ++ [name] := by
    have single : List.splitOn PosixPath.slash name = [name] := by
      have whole := @PosixPath.components_joined [name]
        (fun part member => List.mem_singleton.mp member ▸ proper.noSlash) (List.cons_ne_nil _ _)
      unfold PosixPath.joined at whole
      rwa [List.intercalate_singleton] at whole
    unfold located PosixPath.components
    rw [List.append_assoc]
    change List.splitOn PosixPath.slash (directory ++ PosixPath.slash :: name) = _
    rw [List.splitOn_append_cons_self, single]
  have kept : PosixPath.solid [name] = [name] :=
    List.filter_eq_self.mpr fun other member => by
      rw [List.mem_singleton.mp member]
      exact decide_eq_true ⟨proper.nonempty, proper.notDot⟩
  unfold pathName
  rw [split]
  unfold PosixPath.solid at kept ⊢
  rw [List.filter_append, kept, List.getLast?_concat]
  rfl

/-- Where a name of the library continues, it is a name of the library. -/
theorem Soname.continued (soname : Soname listing paths overlay name)
    (library : text ".so" <:+ name) {other : Text} (ships : Ships listing paths other)
    (version : other = name ∨ name ++ text "." <+: other) :
    Soname listing paths overlay other := by
  cases soname with
  | listed present => exact .shipped other name ships present library version
  | shipped family _ present familyLibrary older =>
      refine .shipped other family ships present familyLibrary ?_
      rcases older with rfl | longer
      · exact version
      · rcases version with rfl | more
        · exact .inr longer
        · exact .inr (longer.trans ((List.prefix_append _ _).trans more))

theorem Fits.soname (fits : Fits listing paths overlay)
    (soname : Soname listing paths overlay name) : ProperName name := by
  cases soname with
  | listed present => exact fits.proper name present
  | shipped family ships _ _ _ =>
      obtain ⟨directory, mapped, names, listed, member⟩ := ships
      obtain ⟨names', listed', each⟩ := fits.readable directory mapped
      cases listed.symm.trans listed'
      exact (each name member).1

/-- What is mapped in a directory once the list is extended are names of the library. -/
theorem Fits.mem_mappedNames (fits : Fits listing paths overlay)
    (extension : Extension listing paths overlay added) (mapped : directory ∈ paths) :
    name ∈ mappedNames (overlay ++ added) directory → Soname listing paths overlay name := by
  intro member
  obtain ⟨path, inside, rfl⟩ := List.mem_map.mp member
  obtain ⟨present, below⟩ := List.mem_filter.mp inside
  rcases List.mem_append.mp present with old | new
  · exact absurd (List.isPrefixOf_iff_prefix.mp below) (fits.outside directory mapped path old)
  · obtain ⟨place, -, soname, isSoname, rfl⟩ := extension.nothingElse path new
    rwa [pathName_located (fits.soname isSoname)]

theorem located_mem_mappedNames (proper : ProperName name)
    (present : located directory name ∈ overlay) : name ∈ mappedNames overlay directory := by
  refine List.mem_map.mpr ⟨_, List.mem_filter.mpr ⟨present, ?_⟩, pathName_located proper directory⟩
  exact List.isPrefixOf_iff_prefix.mpr (List.prefix_append _ name)

theorem Fits.mem_places (mapped : directory ∈ paths) : directory ∈ places paths :=
  List.mem_cons_of_mem _ (List.mem_append_left _ mapped)

/-- The extended list passes the check of each directory. -/
theorem Fits.check (fits : Fits listing paths overlay)
    (extension : Extension listing paths overlay added) (image : Shown listing shown paths)
    (mapped : directory ∈ paths) :
    checkDirectory shown (overlay ++ added) directory = true := by
  obtain ⟨first, present⟩ := fits.named
  have named : first ∈ mappedNames (overlay ++ added) directory :=
    located_mem_mappedNames (fits.proper first present)
      (extension.closed directory (Fits.mem_places mapped) first (.listed first present))
  obtain ⟨names, listed, -⟩ := fits.readable directory mapped
  obtain ⟨seen, there, inside⟩ := image directory mapped names listed
  unfold checkDirectory
  simp only [there, Bool.and_eq_true, decide_eq_true_eq, List.all_eq_true]
  refine ⟨List.ne_nil_of_mem named, ?_⟩
  intro name shipped
  rw [Bool.or_eq_true, Bool.not_eq_true']
  by_cases version : ofFamily
      ((mappedNames (overlay ++ added) directory).filter (text ".so").isSuffixOf) name = true
  · obtain ⟨family, member, continues⟩ := ofFamily_iff.mp version
    obtain ⟨inMapped, library⟩ := List.mem_filter.mp member
    have soname := (fits.mem_mappedNames extension mapped inMapped).continued
      (List.isSuffixOf_iff_suffix.mp library) ⟨directory, mapped, names, listed, inside shipped⟩
      continues
    apply Or.inr
    rw [List.contains_iff_mem]
    exact extension.closed directory (Fits.mem_places mapped) name soname
  · exact .inl (Bool.not_eq_true _ ▸ version)

end Names

section Reading

variable {listing : Text → Option (List Text)} {paths overlay added : List Text}

theorem clean_texts? {value : Json Plain} (printable : Printable value)
    (read : value.texts? = some overlay) : ∀ path ∈ overlay, Clean path := by
  rw [Json.eq_of_texts? read] at printable
  cases printable with
  | array each =>
      intro path member
      cases each _ (List.mem_map_of_mem member) with
      | string clean => exact clean

theorem Fits.clean_soname (fits : Fits listing paths overlay) (clean : ∀ path ∈ overlay, Clean path)
    {name : Text} (soname : Soname listing paths overlay name) : Clean name := by
  cases soname with
  | listed present =>
      intro c member
      exact clean _ present c (List.mem_append_right _ member)
  | shipped family ships _ _ _ =>
      obtain ⟨directory, mapped, names, listed, member⟩ := ships
      obtain ⟨names', listed', each⟩ := fits.readable directory mapped
      cases listed.symm.trans listed'
      exact (each name member).2

theorem Fits.clean_place (fits : Fits listing paths overlay) {place : Text}
    (member : place ∈ places paths) : Clean place := by
  unfold places at member
  rcases List.mem_cons.mp member with rfl | inside
  · exact clean_text _
  · rcases List.mem_append.mp inside with mapped | multilib
    · exact fits.clean place mapped
    · rcases List.mem_pair.mp multilib with rfl | rfl
      · exact clean_text _
      · exact clean_text _

theorem Fits.clean_extension (fits : Fits listing paths overlay)
    (clean : ∀ path ∈ overlay, Clean path) (extension : Extension listing paths overlay added) :
    ∀ path ∈ overlay ++ added, Clean path := by
  intro path member
  rcases List.mem_append.mp member with old | new
  · exact clean path old
  · obtain ⟨place, isPlace, name, soname, rfl⟩ := extension.nothingElse path new
    exact clean_append (clean_append (fits.clean_place isPlace) (clean_text "/"))
      (fits.clean_soname clean soname)

/-- One library's turn keeps the database printable. -/
theorem Fits.printable_step {name : Text} {before after : Json Plain}
    (fits : Fits listing paths overlay) (old : overlayAt? before name = some overlay)
    (printable : Printable before)
    (stepped : before.modifyAt? (extendLibrary listing paths) (overlayPath name) = some after) :
    Printable after := by
  apply printable.modifyAt? stepped
  intro value value' held ok done
  unfold overlayAt? at old
  rw [held, Option.bind_some] at old
  unfold extendLibrary at done
  simp only [old, Option.bind_eq_bind, Option.bind_some] at done
  obtain ⟨list, grown, same⟩ := Option.bind_eq_some_iff.mp done
  cases same
  obtain ⟨added, rfl, extension⟩ := extendOverlay_spec grown
  refine .array fun item member => ?_
  obtain ⟨path, listed, rfl⟩ := List.mem_map.mp member
  exact .string (fits.clean_extension (clean_texts? ok old) extension path listed)

/-- The run keeps the database printable, library after library. -/
theorem printable_run {entries : List (Text × List Text)} {database result : Json Plain}
    (nodup : (entries.map Prod.fst).Nodup) (printable : Printable database)
    (fits : ∀ entry ∈ entries, ∃ overlay, overlayAt? database entry.1 = some overlay ∧
      Fits listing entry.2 overlay)
    (ran : entries.foldlM (fun database entry =>
      database.modifyAt? (extendLibrary listing entry.2) (overlayPath entry.1)) database =
        some result) : Printable result := by
  induction entries generalizing database with
  | nil =>
      cases ran
      exact printable
  | cons entry entries hypothesis =>
      rw [List.map_cons, List.nodup_cons] at nodup
      rw [List.foldlM_cons] at ran
      obtain ⟨middle, stepped, ran⟩ := Option.bind_eq_some_iff.mp ran
      obtain ⟨overlay, old, fit⟩ := fits entry List.mem_cons_self
      apply hypothesis nodup.2 (fit.printable_step old printable stepped) ?_ ran
      intro other later
      rw [overlayAt?_step_of_ne (ne_of_fresh nodup.1 later) stepped]
      exact fits other (List.mem_cons_of_mem _ later)

theorem spaces_line (count : Nat) :
    Spaces (text "\n" ++ List.replicate count (' ' : CodePoint)) := by
  intro c member
  rcases List.mem_append.mp member with newline | blank
  · rw [List.mem_singleton.mp newline]
    rfl
  · rw [List.eq_of_mem_replicate blank]
    rfl

theorem sound_indentStyle : indentStyle.Sound where
  escapes := escapes_asciiEscape
  inside depth := spaces_line (2 * (depth + 1))
  between depth := spaces_line (2 * (depth + 1))
  before depth := spaces_line (2 * depth)
  value := by decide

/-- The database is read back from its file. -/
theorem read?_databaseText {database : Json Plain} (printable : Printable database) :
    read? (databaseText database) = some database :=
  read?_print sound_indentStyle printable 0 (fun _ none => absurd none List.not_mem_nil)
    (by decide)

end Reading

/-- **The thunk database passes the image's check.** For every database and mapped
directories, and whatever versions of the libraries these have, the script ends, its file is
read back as the database it has made, and no directory's check fails in an image that has the
same files in these directories, or some of them. -/
theorem overlayCheck_thunkPaths (listing shown : Text → Option (List Text))
    (database : Json Plain) (directories : Dict Text (List Text)) (printable : Printable database)
    (fits : ∀ entry ∈ directories.entries, ∃ overlay,
      overlayAt? database entry.1 = some overlay ∧ Fits listing entry.2 overlay)
    (image : ∀ entry ∈ directories.entries, Shown listing shown entry.2) :
    ∃ result, thunkPaths listing database directories = some result ∧
      read? (databaseText result) = some result ∧
      overlayCheck shown result directories = true := by
  have known : ∀ entry ∈ directories.entries, (overlayAt? database entry.1).isSome := by
    intro entry member
    obtain ⟨overlay, held, -⟩ := fits entry member
    exact Option.isSome_of_eq_some held
  have readable : ∀ entry ∈ directories.entries, ∀ directory ∈ entry.2,
      (listing directory).isSome := by
    intro entry member directory mapped
    obtain ⟨overlay, -, fit⟩ := fits entry member
    obtain ⟨names, listed, -⟩ := fit.readable directory mapped
    exact Option.isSome_of_eq_some listed
  obtain ⟨result, ran, closed⟩ := exists_closed directories.nodup known readable
  refine ⟨result, ran,
    read?_databaseText (printable_run directories.nodup printable fits ran), ?_⟩
  unfold overlayCheck
  rw [List.all_eq_true]
  intro entry member
  obtain ⟨overlay, held, fit⟩ := fits entry member
  obtain ⟨added, held', extension⟩ := closed.extended entry member overlay held
  rw [held', List.all_eq_true]
  exact fun directory mapped => fit.check extension (image entry member) mapped

/-- A database with one library of two names. -/
def waylandDatabase : Json Plain :=
  .object [(text "DB", .object [(text "WaylandClient", .object
    [(text "Overlay", .array [.string (text "@PREFIX_LIB@/libwayland-client.so"),
      .string (text "@PREFIX_LIB@/libwayland-client.so.0")])])])]

/-- A directory that ships a version the database does not know. -/
def waylandListing (directory : Text) : Option (List Text) :=
  if directory = text "/store/lib" then
    some [text "libwayland-client.so.0.26.0", text "libwayland-cursor.so.0"]
  else none

theorem printable_waylandDatabase : Printable waylandDatabase := by
  have single {key : String} {value : Json Plain} (printable : Printable value) :
      Printable (.object [(text key, value)]) := by
    refine .object ?_ ?_
    · intro member listed
      rw [List.mem_singleton.mp listed]
      exact clean_text key
    · intro member listed
      rw [List.mem_singleton.mp listed]
      exact printable
  apply single
  apply single
  apply single
  refine .array fun value member => ?_
  rcases List.mem_pair.mp member with rfl | rfl
  · exact .string (clean_text _)
  · exact .string (clean_text _)

theorem fits_wayland : Fits waylandListing [text "/store/lib"]
    [text "@PREFIX_LIB@/libwayland-client.so", text "@PREFIX_LIB@/libwayland-client.so.0"] where
  readable := by
    intro directory member
    rw [List.mem_singleton.mp member]
    refine ⟨_, rfl, ?_⟩
    intro name shipped
    rcases List.mem_pair.mp shipped with rfl | rfl
    · exact ⟨by decide, clean_text _⟩
    · exact ⟨by decide, clean_text _⟩
  clean := by
    intro directory member
    rw [List.mem_singleton.mp member]
    exact clean_text _
  named := ⟨text "libwayland-client.so", by decide⟩
  proper := by
    intro name member
    have named : name = text "libwayland-client.so" ∨ name = text "libwayland-client.so.0" := by
      rcases List.mem_pair.mp member with same | same
      · exact .inl (List.append_cancel_left (same.trans (by decide)))
      · exact .inr (List.append_cancel_left (same.trans (by decide)))
    rcases named with rfl | rfl
    · decide
    · decide
  outside := by decide

theorem overlayCheck_thunkPaths_wayland :
    ∃ result, thunkPaths waylandListing waylandDatabase
        (Dict.ofList [(text "WaylandClient", [text "/store/lib"])]) = some result ∧
      read? (databaseText result) = some result ∧
      overlayCheck waylandListing result
        (Dict.ofList [(text "WaylandClient", [text "/store/lib"])]) = true := by
  apply overlayCheck_thunkPaths waylandListing waylandListing waylandDatabase
    (Dict.ofList [(text "WaylandClient", [text "/store/lib"])]) printable_waylandDatabase
  · intro entry member
    rw [List.mem_singleton.mp member]
    exact ⟨_, by decide +kernel, fits_wayland⟩
  · intro entry _ directory _ names listed
    exact ⟨names, listed, List.Subset.refl names⟩

end X86OnArm.Thunks
