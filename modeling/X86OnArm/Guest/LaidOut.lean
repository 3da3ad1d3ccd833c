import X86OnArm.Guest.ClosedImage

/-! # What is where in the image

`laidOut` says, from the trees that were there before, what is at each path of the
image before its links are rewritten: the base at the root, each dependency under its
name in `nix/store`, and everything else where it was. `copyClosure_laidOut` shows
that the copies make exactly this tree.
-/

namespace X86OnArm.Guest

open Foundation Foundation.PosixPath

variable {γ : Type}

/-- Where a dependency is copied from: the directory its path leads to, or else the
entry at the path itself. -/
def dependencySource (fs : FileSystem γ) (dependency : Text) : Option Path :=
  match (fs.resolve FileSystem.maxLinks [] (solid (components dependency))).filter
      fs.isDirectory with
  | some directory => some directory
  | none =>
      (fs.resolve FileSystem.maxLinks [] (solid (components dependency)).dropLast).map fun above =>
        above ++ [dependencyName dependency]

/-- The dependency that has its copy at a path below the root, and the path in it. -/
def dependencyAt (lines : List Text) : Path → Option (Text × Path)
  | nix :: store :: name :: rest =>
      if [nix, store] = nixStore then
        (lines.find? fun line => dependencyName line = name).map fun line => (line, rest)
      else none
  | _ => none

/-- What the base has at a path, with the directories made for the store. -/
def baseEntry (fs : FileSystem γ) (base below : Path) : Option (Entry γ) :=
  if below = [] then some (.directory true)
  else if below = [text "nix"] ∨ below = nixStore then
    some ((fs.get? (base ++ below)).getD (.directory true))
  else fs.get? (base ++ below)

/-- What is at each path once the trees have been copied. -/
def laidOut (fs : FileSystem γ) (root base : Path) (lines : List Text) : PathTree γ := fun path =>
  if root <+: path then
    match dependencyAt lines (path.drop root.length) with
    | some (line, rest) => (dependencySource fs line).bind fun source => fs.get? (source ++ rest)
    | none => baseEntry fs base (path.drop root.length)
  else fs.get? path

/-- What the image is made from: a base that has directories, if anything, where the
store goes, and graphs that list paths which lead somewhere. -/
structure Provided (fs : FileSystem γ) (base : Path) (graphs : List (List Text)) : Prop where
  nix : fs.isLink (base ++ [text "nix"]) = false
  store : fs.isLink (base ++ nixStore) = false
  listed : ∀ line ∈ dependencies base graphs, ∃ real,
    fs.resolve FileSystem.maxLinks [] (solid (components line)) = some real

theorem dependencyAt_eq_some {lines : List Text} {below rest : Path} {line : Text} :
    dependencyAt lines below = some (line, rest) ↔
      below = nixStore ++ dependencyName line :: rest ∧
        lines.find? (fun other => dependencyName other = dependencyName line) = some line := by
  constructor
  · intro found
    unfold dependencyAt at found
    split at found
    · split at found
      · rename_i same
        obtain ⟨other, first, pair⟩ := Option.map_eq_some_iff.mp found
        cases pair
        have named := List.find?_some first
        rw [decide_eq_true_eq] at named
        subst named
        cases same
        exact ⟨rfl, first⟩
      · cases found
    · cases found
  · rintro ⟨rfl, first⟩
    have inStore : [text "nix", text "store"] = nixStore := rfl
    rw [nixStore, List.cons_append, List.cons_append, List.nil_append, dependencyAt,
      if_pos inStore, first]
    rfl

theorem mem_of_dependencyAt {lines : List Text} {below rest : Path} {line : Text}
    (found : dependencyAt lines below = some (line, rest)) : line ∈ lines :=
  List.mem_of_find?_eq_some (dependencyAt_eq_some.mp found).2

theorem dependencyAt_append (first second : List Text) (below : Path) :
    dependencyAt (first ++ second) below =
      (dependencyAt first below).or (dependencyAt second below) := by
  unfold dependencyAt
  split
  · split
    · rw [List.find?_append, Option.map_or]
    · rfl
  · rfl

section Places

variable {fs : FileSystem γ} {root base : Path} {lines : List Text}

theorem laidOut_below (fs : FileSystem γ) (root base : Path) (lines : List Text) (below : Path) :
    laidOut fs root base lines (root ++ below) =
      match dependencyAt lines below with
      | some (line, rest) => (dependencySource fs line).bind fun source => fs.get? (source ++ rest)
      | none => baseEntry fs base below := by
  rw [laidOut, if_pos (List.prefix_append _ _), List.drop_left]

theorem laidOut_elsewhere {path : Path} (elsewhere : ¬ root <+: path) :
    laidOut fs root base lines path = fs.get? path := if_neg elsewhere

end Places

section Copies

variable {fs next last : FileSystem γ} {directory path root base store : Path} {name line : Text}

/-- A directory that is not a link leads to itself, made when it is not there. -/
theorem ensureDirectory_spec (proper : ProperName name) (isDirectory : fs.IsDirectory directory)
    (notLink : fs.isLink (directory ++ [name]) = false)
    (ensured : ensureDirectory fs directory name = some (next, path)) :
    path = directory ++ [name] ∧ next.IsDirectory path ∧ ∀ other, next.get? other =
      if other = directory ++ [name] then some ((fs.get? other).getD (.directory true))
      else fs.get? other := by
  have unlinked (target : Text) : fs.get? (directory ++ [name]) ≠ some (.link target) := by
    intro stored
    cases notLink.symm.trans (FileSystem.isLink_iff.mpr ⟨target, stored⟩)
  unfold ensureDirectory FileSystem.resolve at ensured
  rw [FileSystem.resolveWith_proper isDirectory proper] at ensured
  cases stored : fs.get? (directory ++ [name]) with
  | none =>
      rw [stored] at ensured
      obtain ⟨made, added, pair⟩ := Option.map_eq_some_iff.mp ensured
      cases pair
      obtain ⟨-, -, -, entries⟩ := FileSystem.addEntry_spec added
      refine ⟨rfl, ⟨true, by rw [entries, if_pos rfl]⟩, fun other => ?_⟩
      rw [entries]
      split
      · subst other
        rw [stored, Option.getD_none]
      · rfl
  | some entry =>
      have reached : (if fs.isDirectory (directory ++ [name]) then
          some (fs, directory ++ [name]) else none) = some (next, path) := by
        rw [stored] at ensured
        cases entry with
        | link target => exact absurd stored (unlinked target)
        | directory writable => rwa [FileSystem.resolveWith_nil] at ensured
        | file contents => rwa [FileSystem.resolveWith_nil] at ensured
      split at reached
      · cases reached
        refine ⟨rfl, FileSystem.isDirectory_iff.mp ‹_›, fun other => ?_⟩
        split
        · subst other
          rw [stored, Option.getD_some]
        · rfl
      · cases reached

/-- A tree that has only grown below the root. -/
structure GrownBelow (fs : FileSystem γ) (root : Path) (next : FileSystem γ) : Prop where
  fresh : fs.get? root = none
  isDirectory : next.IsDirectory root
  same : ∀ path, ¬ root <+: path → next.get? path = fs.get? path

theorem GrownBelow.outside (grown : GrownBelow fs root next)
    (present : ∃ entry, fs.get? path = some entry) : ¬ root <+: path := by
  rintro ⟨below, rfl⟩
  obtain ⟨entry, stored⟩ := present
  cases (fs.get?_below_of_none grown.fresh below).symm.trans stored

/-- What a path led to, it still leads to. -/
theorem GrownBelow.resolve (grown : GrownBelow fs root next) {components : List Text}
    (leads : fs.resolve FileSystem.maxLinks [] components = some path) :
    next.resolve FileSystem.maxLinks [] components = some path ∧
      ∃ entry, fs.get? path = some entry := by
  have leads := PathTree.leads_of_resolves leads
  have kept (other : Path) (entry : Entry γ) (stored : fs.get? other = some entry) :
      next.get? other = some entry :=
    (grown.same other (grown.outside ⟨entry, stored⟩)).trans stored
  exact ⟨(leads.mono kept).resolves,
    FileSystem.present_of_leads leads (FileSystem.IsDirectory.present fs.top)⟩

/-- What a copy of one dependency makes of a tree: below its name in the store is what
was below its source. -/
structure CopiedDependency (fs : FileSystem γ) (store : Path) (line : Text)
    (next last : FileSystem γ) : Prop where
  free : next.get? (store ++ [dependencyName line]) = none
  source : ∃ source, dependencySource fs line = some source ∧
    (∃ entry, fs.get? source = some entry) ∧
    ∀ below, last.get? (store ++ [dependencyName line] ++ below) = fs.get? (source ++ below)
  elsewhere : ∀ path, ¬ store ++ [dependencyName line] <+: path → last.get? path = next.get? path

theorem copyDependency_directory (grown : GrownBelow fs root next) (inside : root <+: store)
    (leads : fs.resolve FileSystem.maxLinks [] (solid (components line)) = some path)
    (isDirectory : fs.isDirectory path = true)
    (copied : copyDependency store next line = some last) :
    CopiedDependency fs store line next last := by
  obtain ⟨leadsNow, present⟩ := grown.resolve leads
  have directoryNow : next.isDirectory path = true := by
    unfold FileSystem.isDirectory PathTree.isDirectory at isDirectory ⊢
    rwa [grown.same path (grown.outside present)]
  simp only [copyDependency, leadsNow, Option.filter_some_pos directoryNow] at copied
  obtain ⟨-, -, free, -, apart, below, elsewhere⟩ := FileSystem.copyTree_spec copied
  refine ⟨free, ⟨path, ?_, present, fun rest => ?_⟩, elsewhere⟩
  · simp only [dependencySource, leads, Option.filter_some_pos isDirectory]
  · rw [below, grown.same]
    -- The root is neither above the source nor in it.
    intro meets
    rcases List.prefix_or_prefix_of_prefix meets (List.prefix_append path rest) with above | inIt
    · exact grown.outside present above
    · exact grown.outside present (apart (inIt.trans inside) ▸ inside)

theorem copyDependency_entry (grown : GrownBelow fs root next)
    (leads : fs.resolve FileSystem.maxLinks [] (solid (components line)) = some path)
    (notDirectory : fs.isDirectory path = false)
    (copied : copyDependency store next line = some last) :
    CopiedDependency fs store line next last := by
  obtain ⟨leadsNow, present⟩ := grown.resolve leads
  have notDirectoryNow : next.isDirectory path = false := by
    unfold FileSystem.isDirectory PathTree.isDirectory at notDirectory ⊢
    rwa [grown.same path (grown.outside present)]
  simp only [copyDependency, leadsNow, Option.filter_some_neg notDirectoryNow] at copied
  obtain ⟨above, leadsAbove, copied⟩ := Option.bind_eq_some_iff.mp copied
  obtain ⟨entry, stored, copied⟩ := Option.bind_eq_some_iff.mp copied
  have leadsBefore : fs.resolve FileSystem.maxLinks [] (solid (components line)).dropLast =
      some above ∧ ∃ entry, fs.get? above = some entry := by
    obtain ⟨last, split⟩ := List.dropLast_prefix (solid (components line))
    rw [← split] at leads
    obtain ⟨between, passes⟩ := (PathTree.leads_of_resolves leads).first
    obtain ⟨leadsBetween, presentBetween⟩ := grown.resolve passes.resolves
    cases leadsBetween.symm.trans leadsAbove
    exact ⟨passes.resolves, presentBetween⟩
  have outside : ¬ root <+: above ++ [dependencyName line] := by
    intro meets
    rcases List.prefix_concat_iff.mp meets with itself | higher
    · obtain ⟨writable, opened⟩ := grown.isDirectory
      rw [itself] at opened
      cases stored.symm.trans opened
      cases copied
    · exact grown.outside leadsBefore.2 higher
  rw [grown.same _ outside] at stored
  have added : next.addEntry store (dependencyName line) entry = some last ∧
      ¬ fs.IsDirectory (above ++ [dependencyName line]) := by
    cases entry with
    | directory writable => cases copied
    | file contents =>
        refine ⟨copied, ?_⟩
        rintro ⟨_, isDirectory⟩
        cases stored.symm.trans isDirectory
    | link target =>
        refine ⟨copied, ?_⟩
        rintro ⟨_, isDirectory⟩
        cases stored.symm.trans isDirectory
  obtain ⟨-, -, free, entries⟩ := FileSystem.addEntry_spec added.1
  refine ⟨free, ⟨above ++ [dependencyName line], ?_, ⟨entry, stored⟩, fun below => ?_⟩, ?_⟩
  · simp only [dependencySource, leads, Option.filter_some_neg notDirectory, leadsBefore.1]
    rfl
  · by_cases top : below = []
    · rw [top, List.append_nil, List.append_nil, entries, if_pos rfl, stored]
    · rw [entries, if_neg, next.get?_below_of_none free,
        fs.get?_below_of_not_isDirectory added.2 top]
      intro short
      exact top (List.append_cancel_left (short.trans (List.append_nil _).symm))
  · intro other elsewhere
    rw [entries, if_neg]
    rintro rfl
    exact elsewhere (List.prefix_refl _)

theorem copyDependency_spec (grown : GrownBelow fs root next) (inside : root <+: store)
    (listed : ∃ real, fs.resolve FileSystem.maxLinks [] (solid (components line)) = some real)
    (copied : copyDependency store next line = some last) :
    CopiedDependency fs store line next last := by
  obtain ⟨real, leads⟩ := listed
  cases isDirectory : fs.isDirectory real with
  | true => exact copyDependency_directory grown inside leads isDirectory copied
  | false => exact copyDependency_entry grown leads isDirectory copied

variable {lines done : List Text}

/-- A dependency that has been copied: it comes from an entry that was there, and its
name in the store is its own. -/
structure Settled (fs : FileSystem γ) (base : Path) (done : List Text) (line : Text) : Prop where
  source : ∃ source, dependencySource fs line = some source ∧ ∃ entry, fs.get? source = some entry
  own : done.find? (fun other => dependencyName other = dependencyName line) = some line
  unused : fs.get? (base ++ nixStore ++ [dependencyName line]) = none

/-- The names in the store that are taken are not free. -/
theorem Settled.other_name (laid : ∀ path, next.get? path = laidOut fs root base done path)
    (free : next.get? (root ++ nixStore ++ [dependencyName line]) = none) {other : Text}
    (settled : Settled fs base done other) : dependencyName other ≠ dependencyName line := by
  intro same
  obtain ⟨source, sourceEq, entry, stored⟩ := settled.source
  have top : dependencyAt done (nixStore ++ [dependencyName line]) = some (other, []) :=
    dependencyAt_eq_some.mpr ⟨by rw [same], settled.own⟩
  rw [List.append_assoc, laid, laidOut_below, top] at free
  simp only [sourceEq, Option.bind_some, List.append_nil, stored] at free
  cases free

theorem dependencyAt_unnamed (unnamed : ∀ other ∈ done, dependencyName other ≠ name)
    (rest : Path) : dependencyAt done (nixStore ++ name :: rest) = none := by
  cases found : dependencyAt done (nixStore ++ name :: rest) with
  | none => rfl
  | some pair =>
      obtain ⟨other, deeper⟩ := pair
      obtain ⟨same, -⟩ := List.cons.inj
        (List.append_cancel_left (dependencyAt_eq_some.mp found).1)
      exact absurd same.symm (unnamed other (mem_of_dependencyAt found))

/-- One more dependency is laid out. -/
theorem laidOut_copied (laid : ∀ path, next.get? path = laidOut fs root base done path)
    (unnamed : ∀ other ∈ done, dependencyName other ≠ dependencyName line)
    (copied : CopiedDependency fs (root ++ nixStore) line next last) (path : Path) :
    last.get? path = laidOut fs root base (done ++ [line]) path := by
  by_cases inside : root <+: path
  · obtain ⟨below, rfl⟩ := inside
    by_cases here : nixStore ++ [dependencyName line] <+: below
    · obtain ⟨rest, rfl⟩ := here
      have now : dependencyAt [line] (nixStore ++ dependencyName line :: rest) =
          some (line, rest) :=
        dependencyAt_eq_some.mpr ⟨rfl, List.find?_cons_of_pos (by simp)⟩
      obtain ⟨source, sourceEq, -, below⟩ := copied.source
      rw [laidOut_below, ← List.append_cons, dependencyAt_append,
        dependencyAt_unnamed unnamed, now]
      simp only [Option.none_or, sourceEq, Option.bind_some]
      rw [← below, List.append_assoc, List.append_assoc]
      rfl
    · have notNow : dependencyAt [line] below = none := by
        cases found : dependencyAt [line] below with
        | none => rfl
        | some pair =>
            obtain ⟨other, rest⟩ := pair
            obtain ⟨rfl, -⟩ := dependencyAt_eq_some.mp found
            cases List.mem_singleton.mp (mem_of_dependencyAt found)
            exact absurd ⟨rest, List.append_assoc _ _ _⟩ here
      rw [copied.elsewhere, laid, laidOut_below, laidOut_below, dependencyAt_append, notNow,
        Option.or_none]
      rwa [List.append_assoc, List.prefix_append_right_inj]
  · rw [copied.elsewhere, laid, laidOut_elsewhere inside, laidOut_elsewhere inside]
    intro meets
    exact inside (((List.prefix_append _ _).trans (List.prefix_append _ _)).trans meets)

theorem settled_copied (laid : ∀ path, next.get? path = laidOut fs root base done path)
    (settled : ∀ other ∈ done, Settled fs base done other)
    (unnamed : ∀ other ∈ done, dependencyName other ≠ dependencyName line)
    (copied : CopiedDependency fs (root ++ nixStore) line next last) :
    ∀ other ∈ done ++ [line], Settled fs base (done ++ [line]) other := by
  intro other member
  rcases List.mem_append.mp member with old | new
  · obtain ⟨source, own, unused⟩ := settled other old
    exact ⟨source, by rw [List.find?_append, own, Option.some_or], unused⟩
  · cases List.mem_singleton.mp new
    obtain ⟨source, sourceEq, stored, -⟩ := copied.source
    have free := copied.free
    rw [List.append_assoc, laid, laidOut_below, dependencyAt_unnamed unnamed] at free
    refine ⟨⟨source, sourceEq, stored⟩, ?_, (List.append_assoc _ _ _).symm ▸ free⟩
    have none_ : done.find? (fun other => dependencyName other = dependencyName line) = none :=
      List.find?_eq_none.mpr fun other member => by simpa using unnamed other member
    rw [List.find?_append, none_, Option.none_or, List.find?_cons_of_pos (by simp)]

theorem copyDependencies_laidOut (fresh : fs.get? root = none)
    (listed : ∀ line ∈ lines, ∃ real,
      fs.resolve FileSystem.maxLinks [] (solid (components line)) = some real)
    (laid : ∀ path, next.get? path = laidOut fs root base done path)
    (settled : ∀ line ∈ done, Settled fs base done line)
    (copied : lines.foldlM (copyDependency (root ++ nixStore)) next = some last) :
    (∀ path, last.get? path = laidOut fs root base (done ++ lines) path) ∧
      ∀ line ∈ done ++ lines, Settled fs base (done ++ lines) line := by
  induction lines generalizing next done with
  | nil =>
      cases copied
      rw [List.append_nil]
      exact ⟨laid, settled⟩
  | cons line rest ih =>
      rw [List.foldlM_cons] at copied
      obtain ⟨first, one, others⟩ := Option.bind_eq_some_iff.mp copied
      have grown : GrownBelow fs root next := by
        refine ⟨fresh, ⟨true, ?_⟩, fun other elsewhere => ?_⟩
        · have top := laidOut_below fs root base done []
          rw [List.append_nil] at top
          rw [laid, top]
          rfl
        · rw [laid, laidOut_elsewhere elsewhere]
      have step := copyDependency_spec grown (List.prefix_append root nixStore)
        (listed line List.mem_cons_self) one
      have unnamed (other : Text) (member : other ∈ done) :
          dependencyName other ≠ dependencyName line :=
        (settled other member).other_name laid step.free
      rw [List.append_cons]
      exact ih (fun other member => listed other (List.mem_cons_of_mem _ member))
        (laidOut_copied laid unnamed step) (settled_copied laid settled unnamed step) others

end Copies

section Image

variable {fs copied : FileSystem γ} {parent base : Path} {name : Text} {graphs : List (List Text)}

/-- The base is laid out, with a directory for the store. -/
theorem copyBase_laidOut {first second third : FileSystem γ} {nix store : Path}
    (provided : Provided fs base graphs) (tree : fs.copyTree base parent name = some first)
    (madeNix : ensureDirectory (first.makeWritable (parent ++ [name])) (parent ++ [name])
      (text "nix") = some (second, nix))
    (madeStore : ensureDirectory second nix (text "store") = some (third, store)) :
    fs.get? (parent ++ [name]) = none ∧ store = parent ++ [name] ++ nixStore ∧
      third.IsDirectory store ∧
      ∀ path, third.get? path = laidOut fs (parent ++ [name]) base [] path := by
  obtain ⟨-, -, fresh, ⟨mode, isDirectory⟩, -, below, elsewhere⟩ := FileSystem.copyTree_spec tree
  have made : first.IsDirectory (parent ++ [name]) := by
    have top := below []
    rw [List.append_nil, List.append_nil, isDirectory] at top
    exact ⟨mode, top⟩
  have opened := first.get?_makeWritable made
  have unlike {rest : Path} (deep : rest ≠ []) : parent ++ [name] ++ rest ≠ parent ++ [name] :=
    fun same => deep (List.append_cancel_left (same.trans (List.append_nil _).symm))
  have nixNotLink : (first.makeWritable (parent ++ [name])).isLink
      (parent ++ [name] ++ [text "nix"]) = false := by
    have kept := provided.nix
    unfold FileSystem.isLink at kept ⊢
    rwa [opened, if_neg (unlike (by decide)), below]
  obtain ⟨rfl, nixDirectory, nixEntries⟩ := ensureDirectory_spec (by decide)
    ⟨true, by rw [opened, if_pos rfl]⟩ nixNotLink madeNix
  have storeNotLink : second.isLink (parent ++ [name] ++ [text "nix"] ++ [text "store"]) =
      false := by
    have kept := provided.store
    unfold FileSystem.isLink at kept ⊢
    rw [nixEntries, if_neg (by simp), opened, List.append_assoc, if_neg (unlike (by decide)), below]
    exact kept
  obtain ⟨rfl, storeDirectory, storeEntries⟩ := ensureDirectory_spec (by decide) nixDirectory
    storeNotLink madeStore
  refine ⟨fresh, List.append_assoc _ _ _, storeDirectory, fun path => ?_⟩
  rw [storeEntries, nixEntries, opened]
  by_cases inside : parent ++ [name] <+: path
  · obtain ⟨rest, rfl⟩ := inside
    have none_ : dependencyAt [] rest = none := by
      cases found : dependencyAt [] rest with
      | none => rfl
      | some pair => cases mem_of_dependencyAt found
    have inNix : parent ++ [name] ++ rest = parent ++ [name] ++ [text "nix"] ↔
        rest = [text "nix"] := List.append_right_inj _
    have inStore : parent ++ [name] ++ rest = parent ++ [name] ++ [text "nix"] ++ [text "store"] ↔
        rest = nixStore := by
      rw [List.append_assoc (parent ++ [name]) [text "nix"]]
      exact List.append_right_inj _
    have atRoot : parent ++ [name] ++ rest = parent ++ [name] ↔ rest = [] :=
      ⟨fun same => by_contra fun deep => unlike deep same, fun top => by rw [top, List.append_nil]⟩
    rw [laidOut_below, none_, below]
    unfold baseEntry
    simp only [inNix, inStore, atRoot]
    by_cases top : rest = []
    · rw [if_pos top, top]
      rfl
    · simp only [if_neg top]
      by_cases store : rest = nixStore
      · have deeper : rest ≠ [text "nix"] := by
          rw [store]
          decide
        rw [if_pos store, if_neg deeper, if_pos (Or.inr store)]
      · by_cases nix : rest = [text "nix"]
        · rw [if_neg store, if_pos nix, if_pos (.inl nix)]
        · rw [if_neg store, if_neg nix, if_neg (not_or.mpr ⟨nix, store⟩)]
  · have apart {rest : Path} (same : path = parent ++ [name] ++ rest) : False :=
      inside (same ▸ List.prefix_append _ _)
    rw [laidOut_elsewhere inside, if_neg, if_neg apart, if_neg, elsewhere path inside]
    · exact fun same => apart (same.trans (List.append_nil _).symm)
    · rw [List.append_assoc (parent ++ [name])]
      exact apart

/-- **The copies lay out the image**: each path of the tree that is to be walked has
what `laidOut` reads off the trees that were there. -/
theorem copyClosure_laidOut (provided : Provided fs base graphs)
    (copies : copyClosure fs parent name base graphs = some copied) :
    (∀ path, copied.get? path =
      laidOut fs (parent ++ [name]) base (dependencies base graphs) path) ∧
      copied.IsDirectory (parent ++ [name] ++ nixStore) ∧
      ∀ line ∈ dependencies base graphs, Settled fs base (dependencies base graphs) line := by
  obtain ⟨first, tree, copies⟩ := Option.bind_eq_some_iff.mp copies
  obtain ⟨⟨second, nix⟩, madeNix, copies⟩ := Option.bind_eq_some_iff.mp copies
  obtain ⟨⟨third, store⟩, madeStore, copies⟩ := Option.bind_eq_some_iff.mp copies
  obtain ⟨fresh, rfl, ⟨mode, made⟩, laid⟩ := copyBase_laidOut provided tree madeNix madeStore
  obtain ⟨laid, settled⟩ := copyDependencies_laidOut fresh provided.listed laid nofun copies
  exact ⟨laid, ⟨mode, (extends_copyDependencies copies).kept _ _ made⟩, settled⟩

end Image

end X86OnArm.Guest
