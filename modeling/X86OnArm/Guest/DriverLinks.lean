import X86OnArm.Guest.LaidOut

/-! # The driver directories of the image

The image has a real directory for each driver, with a link for every entry of the
driver's package. `linkDrivers` is the loop that makes them: it changes nothing outside of
the image's `run` (`linkDrivers_spec`).
-/

namespace X86OnArm.Guest

open Foundation Foundation.PosixPath

variable {γ : Type}

/-- The target of a driver's link. -/
def driverTarget (package entry : Text) : Text :=
  text "../../nix/store/" ++ package ++ text "/" ++ entry

/-- What `*` stands for in a directory: the names that are not hidden, or itself. -/
def globbed (fs : FileSystem γ) (directory : Path) : List Text :=
  let visible := (fs.listing directory).filter fun name => !dot.isPrefixOf name
  if visible = [] then [text "*"] else visible

def packageEntries (fs : FileSystem γ) (root : Path) (package : Text) : List Text :=
  match fs.resolve FileSystem.maxLinks root (nixStore ++ [package]) with
  | some directory => globbed fs directory
  | none => [text "*"]

/-- `ln -s target directory/name`: inside of what is there if this leads to a directory. -/
def linkAt (fs : FileSystem γ) (directory : Path) (name target : Text) :
    Option (FileSystem γ) :=
  match (fs.resolve FileSystem.maxLinks directory [name]).filter fs.isDirectory with
  | some inner => fs.addEntry inner name (.link target)
  | none => fs.addEntry directory name (.link target)

def linkEntries (driver : Path) (package : Text) (entries : List Text) (fs : FileSystem γ) :
    Option (FileSystem γ) :=
  entries.foldlM (fun fs entry => linkAt fs driver entry (driverTarget package entry)) fs

/-- One driver: its directory and the links in it. -/
def linkDriver (root : Path) (fs : FileSystem γ) (pair : Text × Text) : Option (FileSystem γ) := do
  let (fs, run) ← ensureDirectory fs root (text "run")
  let (fs, driver) ← ensureDirectory fs run pair.1
  linkEntries driver pair.2 (packageEntries fs root pair.2) fs

/-- The loop over the drivers and their packages. -/
def linkDrivers (root : Path) (pairs : List (Text × Text)) (fs : FileSystem γ) :
    Option (FileSystem γ) :=
  pairs.foldlM (linkDriver root) fs

section Links

variable {fs next : FileSystem γ} {root driver : Path} {package name target : Text}
  {entries : List Text}

/-- A name that nothing has leads nowhere. -/
theorem resolve_fresh (proper : ProperName name) (fresh : fs.get? (driver ++ [name]) = none)
    (links : Nat) : fs.resolve links driver [name] = none := by
  by_cases isDirectory : fs.IsDirectory driver
  · unfold FileSystem.resolve
    rw [FileSystem.resolveWith_proper isDirectory proper, fresh]
  · unfold FileSystem.resolve
    rw [FileSystem.resolveWith_cons,
      if_pos fun directory => isDirectory (FileSystem.isDirectory_iff.mp directory)]

theorem linkAt_spec (fresh : fs.get? (driver ++ [name]) = none)
    (linked : linkAt fs driver name target = some next) (path : Path) :
    next.get? path = if path = driver ++ [name] then some (.link target) else fs.get? path := by
  unfold linkAt at linked
  split at linked
  case h_1 inner found =>
    obtain ⟨proper, -⟩ := FileSystem.addEntry_spec linked
    rw [resolve_fresh proper fresh] at found
    cases found
  case h_2 =>
    obtain ⟨-, -, -, entries⟩ := FileSystem.addEntry_spec linked
    exact entries path

/-- The loop over the entries of a package. -/
theorem linkEntries_spec (nodup : entries.Nodup)
    (fresh : ∀ entry ∈ entries, fs.get? (driver ++ [entry]) = none)
    (linked : linkEntries driver package entries fs = some next) :
    (∀ entry ∈ entries, next.get? (driver ++ [entry]) =
      some (.link (driverTarget package entry))) ∧
    ∀ path, (∀ entry ∈ entries, path ≠ driver ++ [entry]) → next.get? path = fs.get? path := by
  induction entries generalizing fs with
  | nil =>
      cases linked
      exact ⟨nofun, fun _ _ => rfl⟩
  | cons first entries ih =>
      obtain ⟨middle, made, rest⟩ := Option.bind_eq_some_iff.mp linked
      obtain ⟨different, nodup⟩ := List.nodup_cons.mp nodup
      have spec := linkAt_spec (fresh first List.mem_cons_self) made
      have other {entry : Text} (member : entry ∈ entries) :
          middle.get? (driver ++ [entry]) = fs.get? (driver ++ [entry]) := by
        rw [spec, if_neg]
        intro same
        cases List.append_cancel_left same
        exact different member
      obtain ⟨links, kept⟩ := ih nodup (fun entry member =>
        (other member).trans (fresh entry (List.mem_cons_of_mem _ member))) rest
      refine ⟨?_, fun path apart => ?_⟩
      · intro entry member
        rcases List.mem_cons.mp member with rfl | member
        · have apart : ∀ other ∈ entries, driver ++ [entry] ≠ driver ++ [other] := by
            intro other member same
            cases List.append_cancel_left same
            exact different member
          rw [kept _ apart, spec, if_pos rfl]
        · exact links entry member
      · rw [kept path fun entry member => apart entry (List.mem_cons_of_mem _ member), spec,
          if_neg (apart first List.mem_cons_self)]

theorem nodup_globbed (fs : FileSystem γ) (directory : Path) : (globbed fs directory).Nodup := by
  unfold globbed
  simp only
  split
  · exact List.nodup_singleton _
  · exact (fs.nodup_listing directory).filter _

theorem nodup_packageEntries (fs : FileSystem γ) (root : Path) (package : Text) :
    (packageEntries fs root package).Nodup := by
  unfold packageEntries
  split
  · exact nodup_globbed fs _
  · exact List.nodup_singleton _

/-- An entry that is not hidden is one of the package's. -/
theorem mem_packageEntries (isDirectory : fs.IsDirectory (root ++ nixStore ++ [package]))
    (present : ∃ entry, fs.get? (root ++ nixStore ++ [package] ++ [name]) = some entry)
    (visible : dot.isPrefixOf name = false) : name ∈ packageEntries fs root package := by
  have leads : fs.resolve FileSystem.maxLinks root (nixStore ++ [package]) =
      some (root ++ nixStore ++ [package]) := by
    rw [List.append_assoc] at isDirectory ⊢
    have walk : fs.resolve FileSystem.maxLinks root (nixStore ++ [package] ++ []) = _ :=
      FileSystem.resolveWith_directories (nixStore ++ [package]) isDirectory FileSystem.maxLinks []
    rwa [List.append_nil, FileSystem.resolveWith_nil] at walk
  have listed : name ∈ (fs.listing (root ++ nixStore ++ [package])).filter
      fun name => !dot.isPrefixOf name :=
    List.mem_filter.mpr ⟨FileSystem.mem_listing.mpr present, by rw [visible]; rfl⟩
  rw [packageEntries, leads]
  unfold globbed
  simp only
  rwa [if_neg (List.ne_nil_of_mem listed)]

/-- A place in the store is not in `run`. -/
theorem store_not_run (root below : Path) :
    ¬ root ++ [text "run"] <+: root ++ nixStore ++ below := by
  rintro ⟨rest, same⟩
  rw [List.append_assoc, List.append_assoc] at same
  have heads : some (text "run") = some (text "nix") :=
    congrArg List.head? (List.append_cancel_left same)
  exact absurd heads (by decide)

/-- What is made for one driver. -/
theorem linkDriver_spec {pair : Text × Text} (proper : ProperName pair.1)
    (isDirectory : fs.IsDirectory root) (notLink : fs.isLink (root ++ [text "run"]) = false)
    (fresh : fs.get? (root ++ [text "run"] ++ [pair.1]) = none)
    (package : fs.IsDirectory (root ++ nixStore ++ [pair.2]))
    (linked : linkDriver root fs pair = some next) :
    next.IsDirectory (root ++ [text "run"]) ∧
      next.IsDirectory (root ++ [text "run"] ++ [pair.1]) ∧
      (∀ entry, (∃ stored, fs.get? (root ++ nixStore ++ [pair.2] ++ [entry]) = some stored) →
        dot.isPrefixOf entry = false →
        next.get? (root ++ [text "run"] ++ [pair.1] ++ [entry]) =
          some (.link (driverTarget pair.2 entry))) ∧
      ∀ path, path ≠ root ++ [text "run"] → ¬ root ++ [text "run"] ++ [pair.1] <+: path →
        next.get? path = fs.get? path := by
  obtain ⟨⟨first, run⟩, ensured, rest⟩ := Option.bind_eq_some_iff.mp linked
  obtain ⟨rfl, runDirectory, firstEntries⟩ :=
    ensureDirectory_spec (by decide) isDirectory notLink ensured
  obtain ⟨⟨second, driver⟩, ensured, linked⟩ := Option.bind_eq_some_iff.mp rest
  have longer (below : Path) (proper : below ≠ []) :
      root ++ [text "run"] ++ below ≠ root ++ [text "run"] := fun same =>
    proper (List.append_right_eq_self.mp same)
  have firstFresh : first.get? (root ++ [text "run"] ++ [pair.1]) = none := by
    rw [firstEntries, if_neg (longer [pair.1] (List.cons_ne_nil _ _)), fresh]
  have unlinked : first.isLink (root ++ [text "run"] ++ [pair.1]) = false := by
    apply eq_false_of_ne_true
    intro link
    obtain ⟨target, stored⟩ := FileSystem.isLink_iff.mp link
    cases firstFresh.symm.trans stored
  obtain ⟨rfl, driverDirectory, secondEntries⟩ :=
    ensureDirectory_spec proper runDirectory unlinked ensured
  have below (entry : Text) : second.get? (root ++ [text "run"] ++ [pair.1] ++ [entry]) = none := by
    have apart : root ++ [text "run"] ++ [pair.1] ++ [entry] ≠ root ++ [text "run"] ++ [pair.1] :=
      fun same => List.cons_ne_nil _ _ (List.append_right_eq_self.mp same)
    rw [secondEntries, if_neg apart, first.get?_below_of_none firstFresh]
  obtain ⟨links, kept⟩ := linkEntries_spec (nodup_packageEntries second root pair.2)
    (fun entry _ => below entry) linked
  have same (path : Path) (notRun : path ≠ root ++ [text "run"])
      (outside : ¬ root ++ [text "run"] ++ [pair.1] <+: path) : next.get? path = fs.get? path := by
    have apart : path ≠ root ++ [text "run"] ++ [pair.1] := by
      rintro rfl
      exact outside (List.prefix_refl _)
    rw [kept path fun entry _ here => outside (here ▸ List.prefix_append _ _), secondEntries,
      if_neg apart, firstEntries, if_neg notRun]
  have middle (path : Path) (outside : ¬ root ++ [text "run"] <+: path) :
      second.get? path = fs.get? path := by
    have notRun : path ≠ root ++ [text "run"] := by
      rintro rfl
      exact outside (List.prefix_refl _)
    have apart : path ≠ root ++ [text "run"] ++ [pair.1] := by
      rintro rfl
      exact outside (List.prefix_append _ _)
    rw [secondEntries, if_neg apart, firstEntries, if_neg notRun]
  refine ⟨?_, ?_, ?_, same⟩
  · obtain ⟨writable, stored⟩ := runDirectory
    refine ⟨writable, ?_⟩
    rw [kept _ fun entry _ here => ?_, secondEntries, if_neg, stored]
    · intro here
      exact longer [pair.1] (List.cons_ne_nil _ _) here.symm
    · rw [List.append_assoc] at here
      exact longer ([pair.1] ++ [entry]) (List.cons_ne_nil _ _) here.symm
  · obtain ⟨writable, stored⟩ := driverDirectory
    refine ⟨writable, ?_⟩
    rw [kept _ fun entry _ here => ?_, stored]
    exact List.cons_ne_nil _ _ (List.append_right_eq_self.mp here.symm)
  · intro entry ⟨stored, present⟩ visible
    refine links entry (mem_packageEntries ?_ ⟨stored, ?_⟩ visible)
    · obtain ⟨writable, directory⟩ := package
      exact ⟨writable, (middle _ (store_not_run root [pair.2])).trans directory⟩
    · rw [List.append_assoc] at present ⊢
      exact (middle _ (store_not_run root _)).trans present

/-- **The driver directories.** The loop changes nothing outside of the image's `run`; each
driver gets a directory that is no link, with a relative link for every entry of its
package that is not hidden. -/
theorem linkDrivers_spec {pairs : List (Text × Text)} (proper : ∀ pair ∈ pairs, ProperName pair.1)
    (distinct : (pairs.map Prod.fst).Nodup) (isDirectory : fs.IsDirectory root)
    (notLink : fs.isLink (root ++ [text "run"]) = false)
    (fresh : ∀ pair ∈ pairs, fs.get? (root ++ [text "run"] ++ [pair.1]) = none)
    (packages : ∀ pair ∈ pairs, fs.IsDirectory (root ++ nixStore ++ [pair.2]))
    (linked : linkDrivers root pairs fs = some next) :
    (∀ pair ∈ pairs, next.IsDirectory (root ++ [text "run"] ++ [pair.1]) ∧
      ∀ entry, (∃ stored, fs.get? (root ++ nixStore ++ [pair.2] ++ [entry]) = some stored) →
        dot.isPrefixOf entry = false →
        next.get? (root ++ [text "run"] ++ [pair.1] ++ [entry]) =
          some (.link (driverTarget pair.2 entry))) ∧
    ∀ path, path ≠ root ++ [text "run"] →
      (∀ pair ∈ pairs, ¬ root ++ [text "run"] ++ [pair.1] <+: path) →
      next.get? path = fs.get? path := by
  induction pairs generalizing fs with
  | nil =>
      cases linked
      exact ⟨nofun, fun _ _ _ => rfl⟩
  | cons pair pairs ih =>
      obtain ⟨middle, made, rest⟩ := Option.bind_eq_some_iff.mp linked
      obtain ⟨different, distinct⟩ := List.nodup_cons.mp distinct
      have here : pair ∈ pair :: pairs := List.mem_cons_self
      obtain ⟨run, directory, links, same⟩ := linkDriver_spec (proper pair here) isDirectory notLink
        (fresh pair here) (packages pair here) made
      have stored (below : Path) :
          middle.get? (root ++ nixStore ++ below) = fs.get? (root ++ nixStore ++ below) := by
        refine same _ (fun here => store_not_run root below (here ▸ List.prefix_refl _)) ?_
        exact fun inside => store_not_run root below ((List.prefix_append _ _).trans inside)
      have apart {other : Text × Text} (member : other ∈ pairs) (below : Path) :
          ¬ root ++ [text "run"] ++ [other.1] <+: root ++ [text "run"] ++ [pair.1] ++ below := by
        rintro ⟨rest, whole⟩
        rw [List.append_assoc, List.append_assoc (root ++ [text "run"])] at whole
        have heads := (List.cons.inj (List.append_cancel_left whole)).1
        exact different (List.mem_map.mpr ⟨other, member, heads⟩)
      have notRun (below : Path) (proper : below ≠ []) :
          root ++ [text "run"] ++ below ≠ root ++ [text "run"] := fun same =>
        proper (List.append_right_eq_self.mp same)
      have top : middle.IsDirectory root := by
        obtain ⟨writable, top⟩ := isDirectory
        refine ⟨writable, (same root (fun here => ?_) fun inside => ?_).trans top⟩
        · exact List.cons_ne_nil _ _ (List.append_right_eq_self.mp here.symm)
        · have lengths := inside.length_le
          simp only [List.length_append, List.length_singleton] at lengths
          omega
      have unlinked : middle.isLink (root ++ [text "run"]) = false :=
        eq_false_of_ne_true fun link => FileSystem.not_isDirectory_of_isLink link run
      have unmade : ∀ other ∈ pairs, middle.get? (root ++ [text "run"] ++ [other.1]) = none := by
        intro other member
        rw [same _ (notRun _ (List.cons_ne_nil _ _))]
        · exact fresh other (List.mem_cons_of_mem _ member)
        · rintro ⟨rest, whole⟩
          rw [List.append_assoc] at whole
          have heads := (List.cons.inj (List.append_cancel_left whole)).1
          exact different (List.mem_map.mpr ⟨other, member, heads.symm⟩)
      have packaged : ∀ other ∈ pairs, middle.IsDirectory (root ++ nixStore ++ [other.2]) := by
        intro other member
        obtain ⟨writable, directory⟩ := packages other (List.mem_cons_of_mem _ member)
        exact ⟨writable, (stored [other.2]).trans directory⟩
      obtain ⟨done, kept⟩ := ih (fun other member => proper other (List.mem_cons_of_mem _ member))
        distinct top unlinked unmade packaged rest
      refine ⟨?_, fun path notRun outside => ?_⟩
      · intro other member
        rcases List.mem_cons.mp member with rfl | member
        · refine ⟨?_, fun entry present visible => ?_⟩
          · obtain ⟨writable, entry⟩ := directory
            refine ⟨writable, (kept _ (notRun _ (List.cons_ne_nil _ _)) ?_).trans entry⟩
            intro other member inside
            exact apart member [] (by rwa [List.append_nil])
          · rw [kept _ ?_ fun other member => apart member [entry]]
            · exact links entry present visible
            · rw [List.append_assoc]
              exact notRun _ (List.cons_ne_nil _ _)
        · obtain ⟨directory, links⟩ := done other member
          refine ⟨directory, fun entry present visible => links entry ?_ visible⟩
          rw [List.append_assoc] at present ⊢
          rwa [stored]
      · rw [kept path notRun fun other member => outside other (List.mem_cons_of_mem _ member)]
        exact same path notRun (outside pair here)

end Links

end X86OnArm.Guest
