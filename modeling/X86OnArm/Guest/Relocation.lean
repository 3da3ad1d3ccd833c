import X86OnArm.Guest.LaidOut

/-! # Where the links of the image lead

A link that is made relative leads to the normalised place of its old target below
the root, and from there through a tree full of links. The walk of the kernel in the
image is the walk in the tree that was laid out when every store link is read as its
normalised place (`Walked.resolve`). So a link leads to the copy of its old file
exactly when that walk does (`assemble_keeps_link_iff`); a link into the base never
does, as the base has no copy in the store (`assemble_loses_base_link`), and a link
that stays in the dependencies always does (`assemble_keeps_confined_link`).
-/

namespace X86OnArm.Guest

open Foundation Foundation.PosixPath

variable {γ : Type} {cwd : Text} {root : Path}

/-- The kernel's reading, but store links in the image are read as normalised paths
below the root. -/
def imageReading (root : Path) : LinkReading := fun position target =>
  if root <+: position ∧ isStoreTarget target = true then
    ([], lexical root (components target.tail))
  else kernelReading position target

/-- The copy of a path: below the root for the base, under its name in the store for a
dependency. -/
inductive RelocatedTo (root base : Path) (graphs : List (List Text)) : Path → Path → Prop where
  | base (below : Path) : RelocatedTo root base graphs (base ++ below) (root ++ below)
  | dependency {name : Text} (listed : pathOf (nixStore ++ [name]) ∈ dependencies base graphs)
      (below : Path) : RelocatedTo root base graphs (nixStore ++ name :: below)
        (root ++ (nixStore ++ name :: below))

/-- If the target led to a file of the closure, the link at `place` in the image is
relative and leads to the copy of that file. -/
def KeepsLink (fs final : FileSystem γ) (root base : Path) (graphs : List (List Text))
    (place : Path) (target : Text) : Prop :=
  ∀ file, fs.resolve FileSystem.maxLinks [] (components target) = some file →
    (∃ copy, RelocatedTo root base graphs file copy) →
    ∃ new copy, final.get? place = some (.link new) ∧ isAbsolute new = false ∧
      RelocatedTo root base graphs file copy ∧
      final.resolve FileSystem.maxLinks place.dropLast (components new) = some copy

/-- If the target led to a file of the closure, the link is laid out at `place`, and its
normalised target leads to the copy of that file, in the tree that is laid out and with
every store link read as its normalised target. -/
def NormalisedLeads (fs : FileSystem γ) (root base : Path) (graphs : List (List Text))
    (place : Path) (target : Text) : Prop :=
  ∀ file, fs.resolve FileSystem.maxLinks [] (components target) = some file →
    (∃ copy, RelocatedTo root base graphs file copy) →
    laidOut fs root base (dependencies base graphs) place = some (.link target) ∧
      ∃ copy, RelocatedTo root base graphs file copy ∧
        (laidOut fs root base (dependencies base graphs)).resolveWith (imageReading root)
          FileSystem.maxLinks [] (lexical root (components target.tail)) = some copy

section Walks

variable {fs copied final : FileSystem γ} {directory : Path} {target : Text}

/-- The new target of a link leads to the normalised place of the old one. -/
theorem resolveWith_relativeTarget (cwd : Text) (properRoot : ProperPath root)
    (isDirectory : fs.IsDirectory directory) (store : isStoreTarget target = true)
    (read : LinkReading) (links : Nat) (rest : List Text) :
    fs.resolveWith read links directory
        (components (relativeTarget cwd root directory target) ++ rest) =
      fs.resolveWith read links [] (lexical root (components target.tail) ++ rest) := by
  have properDirectory : ProperPath directory := by
    obtain ⟨_, stored⟩ := isDirectory
    exact fs.proper_of_get? stored
  have way : fs.resolveWith read links directory
      (relativeComponents (lexical root (components target.tail)) directory ++ rest) =
        fs.resolveWith read links [] (lexical root (components target.tail) ++ rest) :=
    FileSystem.resolveWith_relative isDirectory _ links rest
  unfold relativeTarget
  rw [components_relpath_child cwd properRoot properDirectory (head?_storeTarget store)]
  split
  · rename_i here
    rw [here, List.nil_append] at way
    rw [List.singleton_append, FileSystem.resolveWith_idle isDirectory (.inr rfl)]
    exact way
  · exact way

theorem Walked.isDirectory_eq (walked : Walked cwd root copied final []) (path : Path) :
    final.isDirectory path = copied.isDirectory path := by
  apply Bool.eq_iff_iff.mpr
  rw [FileSystem.isDirectory_iff, FileSystem.isDirectory_iff]
  exact ⟨walked.isDirectory, walked.kept⟩

theorem isAbsolute_relativeTarget (cwd : Text) (properRoot : ProperPath root) (directory : Path)
    (store : isStoreTarget target = true) :
    isAbsolute (relativeTarget cwd root directory target) = false :=
  beq_eq_false_iff_ne.mpr (head?_relativeTarget cwd properRoot directory store)

/-- A link that the walk meets: in the image it leads where its image reading leads in
the copies, as the walks with fewer links do. -/
theorem Walked.resolveLink (properRoot : ProperPath root)
    (walked : Walked cwd root copied final []) {name : Text} {links : Nat} {rest : List Text}
    (isDirectory : final.IsDirectory directory)
    (linked : copied.get? (directory ++ [name]) = some (.link target))
    (fewer : ∀ less, links = less + 1 → ∀ next components,
      PathTree.resolveWith final.get? kernelReading less next components =
        PathTree.resolveWith copied.get? (imageReading root) less next components) :
    ∃ new, final.get? (directory ++ [name]) = some (.link new) ∧
      PathTree.resolveLink final.get? kernelReading links directory new rest =
        PathTree.resolveLink copied.get? (imageReading root) links directory target rest := by
  refine ⟨_, walked.linked linked, ?_⟩
  cases links with
  | zero => rfl
  | succ links =>
      unfold PathTree.resolveLink
      by_cases relinks : root <+: directory ∧ isStoreTarget target = true
      · have now : kernelReading directory (relativeTarget cwd root directory target) =
            (directory, components (relativeTarget cwd root directory target)) := by
          unfold kernelReading
          rw [isAbsolute_relativeTarget cwd properRoot directory relinks.2]
          rfl
        have before : imageReading root directory target =
            ([], lexical root (components target.tail)) := if_pos relinks
        simp only [if_pos relinks, now, before]
        exact (resolveWith_relativeTarget cwd properRoot isDirectory relinks.2 kernelReading
          links rest).trans (fewer links rfl _ _)
      · have before : imageReading root directory target = kernelReading directory target :=
          if_neg relinks
        simp only [if_neg relinks, before]
        exact fewer links rfl _ _

/-- **The kernel's walk in the image** is the walk in the copies in which each store
link of the image is read as its normalised place. -/
theorem Walked.resolve (properRoot : ProperPath root) (walked : Walked cwd root copied final [])
    (links : Nat) (position : Path) (components : List Text) :
    final.resolve links position components =
      PathTree.resolveWith copied.get? (imageReading root) links position components := by
  change PathTree.resolveWith final.get? kernelReading links position components = _
  induction links, position, components using PathTree.walk_induction with
  | arrived links position => rw [PathTree.resolveWith_nil, PathTree.resolveWith_nil]
  | step links position component rest ih fewer =>
      have same :
          PathTree.isDirectory final.get? position = PathTree.isDirectory copied.get? position :=
        walked.isDirectory_eq position
      rw [PathTree.resolveWith_cons, PathTree.resolveWith_cons, same]
      split
      · rfl
      rename_i isDirectory
      split
      · exact ih _
      split
      · exact ih _
      by_cases link : ∃ target, copied.get? (position ++ [component]) = some (.link target)
      · obtain ⟨target, linked⟩ := link
        have here := FileSystem.isDirectory_iff.mp (same.trans (not_not.mp isDirectory))
        obtain ⟨new, now, leads⟩ := walked.resolveLink properRoot here linked fewer
        rw [linked, now]
        exact leads
      · rcases walked.changed (position ++ [component]) with kept | ⟨⟨_, before⟩, now⟩ |
          ⟨_, _, target, _, _, linked, _⟩
        · rw [kept]
          cases stored : copied.get? (position ++ [component]) with
          | none => rfl
          | some entry =>
              cases entry with
              | directory writable => exact ih _
              | file contents => exact ih _
              | link target => exact absurd ⟨target, stored⟩ link
        · rw [before, now]
          exact ih _
        · exact absurd ⟨target, linked⟩ link

end Walks

section Places

variable {fs final copied : FileSystem γ} {parent base source place : Path} {name target : Text}
  {graphs : List (List Text)}

theorem components_storePath {path : Path} (proper : ProperPath path) :
    solid (components (pathOf path)) = path := solid_components_absolute proper.solidParts

/-- A listed store path is copied from itself, unless it is a link to a directory. -/
theorem dependencySource_storePath (provided : Provided fs base graphs)
    (listed : pathOf (nixStore ++ [name]) ∈ dependencies base graphs) {below : Path}
    {entry : Entry γ} (stored : fs.get? (nixStore ++ name :: below) = some entry) :
    dependencySource fs (pathOf (nixStore ++ [name])) = some (nixStore ++ [name]) ∨
      below = [] ∧ ∃ real, fs.IsDirectory real ∧
        dependencySource fs (pathOf (nixStore ++ [name])) = some real := by
  have proper : ProperPath (nixStore ++ [name]) := by
    rw [List.append_cons] at stored
    exact fun part member => fs.proper_of_get? stored part (List.mem_append_left _ member)
  have parts := components_storePath proper
  have last : dependencyName (pathOf (nixStore ++ [name])) = name := by
    rw [dependencyName, parts, List.getLast?_concat, Option.getD_some]
  obtain ⟨real, leads⟩ := provided.listed _ listed
  unfold dependencySource
  rw [leads, last, parts, List.dropLast_concat, FileSystem.resolve_isDirectory
    (fs.isDirectory_of_below (List.cons_ne_nil _ _) stored)]
  cases isDirectory : fs.isDirectory real with
  | true =>
      rw [Option.filter_some_pos isDirectory]
      by_cases top : below = []
      · exact .inr ⟨top, real, FileSystem.isDirectory_iff.mp isDirectory, rfl⟩
      · rw [List.append_cons] at stored
        rw [parts, FileSystem.resolve_isDirectory (fs.isDirectory_of_below top stored)] at leads
        cases leads
        exact .inl rfl
  | false =>
      rw [Option.filter_some_neg isDirectory]
      exact .inl rfl

/-- The copy of a link is that link, or the directory it leads to where it is a
dependency itself. -/
theorem laidOut_place (provided : Provided fs base graphs)
    (settled : ∀ line ∈ dependencies base graphs, Settled fs base (dependencies base graphs) line)
    (isDirectory : fs.IsDirectory base) (relocated : RelocatedTo root base graphs source place)
    (linked : fs.get? source = some (.link target)) :
    laidOut fs root base (dependencies base graphs) place = some (.link target) ∨
      ∃ mode, laidOut fs root base (dependencies base graphs) place = some (.directory mode) := by
  cases relocated with
  | base below =>
      left
      have deep : below ≠ [] := by
        rintro rfl
        obtain ⟨mode, stored⟩ := isDirectory
        rw [List.append_nil, stored] at linked
        cases linked
      have unlike {path : Path} (notLink : fs.isLink (base ++ path) = false) : below ≠ path := by
        rintro rfl
        cases notLink.symm.trans (FileSystem.isLink_iff.mpr ⟨target, linked⟩)
      rw [laidOut_below]
      cases found : dependencyAt (dependencies base graphs) below with
      | none =>
          simp only [baseEntry, if_neg deep, if_neg
            (not_or.mpr ⟨unlike provided.nix, unlike provided.store⟩)]
          exact linked
      | some pair =>
          obtain ⟨line, rest⟩ := pair
          obtain ⟨rfl, -⟩ := dependencyAt_eq_some.mp found
          have unused := (settled line (mem_of_dependencyAt found)).unused
          rw [List.append_cons, ← List.append_assoc, ← List.append_assoc,
            fs.get?_below_of_none unused] at linked
          cases linked
  | @dependency name listed below =>
      have own := (settled _ listed).own
      have proper : ProperPath (nixStore ++ [name]) := by
        rw [List.append_cons] at linked
        exact fun part member => fs.proper_of_get? linked part (List.mem_append_left _ member)
      have found : dependencyAt (dependencies base graphs) (nixStore ++ name :: below) =
          some (pathOf (nixStore ++ [name]), below) := by
        apply dependencyAt_eq_some.mpr ⟨_, own⟩
        rw [dependencyName, components_storePath proper, List.getLast?_concat, Option.getD_some]
      rw [laidOut_below, found]
      rcases dependencySource_storePath provided listed linked with
        itself | ⟨top, real, ⟨mode, stored⟩, sourceEq⟩
      · left
        simp only [itself, Option.bind_some]
        rw [← List.append_cons]
        exact linked
      · right
        refine ⟨mode, ?_⟩
        simp only [sourceEq, Option.bind_some, top, List.append_nil]
        exact stored

/-- The copy of a link is in a directory at or below the root. -/
theorem RelocatedTo.inside (isDirectory : fs.IsDirectory base)
    (relocated : RelocatedTo root base graphs source place)
    (linked : fs.get? source = some (.link target)) :
    ∃ directory entry, place = directory ++ [entry] ∧ root <+: directory := by
  have split {below : Path} (deep : below ≠ []) :
      ∃ directory entry, root ++ below = directory ++ [entry] ∧ root <+: directory := by
    refine ⟨root ++ below.dropLast, below.getLast deep, ?_, List.prefix_append _ _⟩
    rw [List.append_assoc, List.dropLast_append_getLast deep]
  cases relocated with
  | base below =>
      apply split
      rintro rfl
      obtain ⟨mode, stored⟩ := isDirectory
      rw [List.append_nil, stored] at linked
      cases linked
  | dependency listed below => exact split (List.cons_ne_nil _ _)

/-- What an assembly that completes leaves: the walk's image of the tree that is laid out. -/
structure Assembled (cwd : Text) (fs final : FileSystem γ) (root base : Path)
    (graphs : List (List Text)) : Prop where
  properRoot : ProperPath root
  isBase : fs.IsDirectory base
  settled : ∀ line ∈ dependencies base graphs, Settled fs base (dependencies base graphs) line
  walked : ∃ copied : FileSystem γ, copied.get? = laidOut fs root base (dependencies base graphs) ∧
    copied.IsDirectory (root ++ nixStore) ∧ Walked cwd root copied final []

theorem assembled (provided : Provided fs base graphs)
    (completes : assemble cwd fs parent name base graphs = some final) :
    Assembled cwd fs final (parent ++ [name]) base graphs := by
  obtain ⟨copied, copies, -⟩ := Option.bind_eq_some_iff.mp completes
  obtain ⟨other, same, walked⟩ := walk_copyClosure cwd copies
  cases completes.symm.trans same
  obtain ⟨laid, store, settled⟩ := copyClosure_laidOut provided copies
  obtain ⟨first, tree, -⟩ := Option.bind_eq_some_iff.mp copies
  obtain ⟨⟨_, stored⟩, -⟩ := copyClosure_spec copies
  exact ⟨copied.proper_of_get? stored, (FileSystem.copyTree_spec tree).2.2.2.1, settled, copied,
    funext laid, store, walked⟩

/-- A store link that is laid out in the image: its new target, and where that leads. -/
theorem Assembled.link (assembled : Assembled cwd fs final root base graphs) {directory : Path}
    {entry : Text} (inside : root <+: directory) (store : isStoreTarget target = true)
    (placed : laidOut fs root base (dependencies base graphs) (directory ++ [entry]) =
      some (.link target)) :
    final.get? (directory ++ [entry]) = some (.link (relativeTarget cwd root directory target)) ∧
      final.resolve FileSystem.maxLinks directory
          (components (relativeTarget cwd root directory target)) =
        (laidOut fs root base (dependencies base graphs)).resolveWith (imageReading root)
          FileSystem.maxLinks [] (lexical root (components target.tail)) := by
  obtain ⟨copied, tree, -, walked⟩ := assembled.walked
  rw [← tree] at placed ⊢
  have isDirectory := walked.kept (copied.isDirectory_of_below (List.cons_ne_nil _ _) placed)
  have way := resolveWith_relativeTarget cwd assembled.properRoot isDirectory store kernelReading
    FileSystem.maxLinks []
  rw [List.append_nil, List.append_nil] at way
  refine ⟨?_, way.trans (walked.resolve assembled.properRoot _ _ _)⟩
  rw [walked.linked placed, if_pos ⟨inside, store⟩]

theorem Assembled.directory (assembled : Assembled cwd fs final root base graphs)
    (placed : ∃ mode, laidOut fs root base (dependencies base graphs) place =
      some (.directory mode)) : final.IsDirectory place := by
  obtain ⟨copied, tree, -, walked⟩ := assembled.walked
  rw [← tree] at placed
  exact walked.kept placed

/-- **Which links keep leading to their files**: exactly those whose normalised target
leads to the copy of the file in the tree that is laid out. -/
theorem assemble_keeps_link_iff (cwd : Text) (provided : Provided fs base graphs)
    (completes : assemble cwd fs parent name base graphs = some final)
    (relocated : RelocatedTo (parent ++ [name]) base graphs source place)
    (linked : fs.get? source = some (.link target)) (store : isStoreTarget target = true) :
    KeepsLink fs final (parent ++ [name]) base graphs place target ↔
      NormalisedLeads fs (parent ++ [name]) base graphs place target := by
  have assembled := assembled provided completes
  obtain ⟨directory, entry, rfl, inside⟩ := relocated.inside assembled.isBase linked
  unfold KeepsLink NormalisedLeads
  rw [List.dropLast_concat]
  constructor
  · intro keeps file led inClosure
    obtain ⟨new, copy, now, relative, isCopy, reached⟩ := keeps file led inClosure
    rcases laidOut_place provided assembled.settled assembled.isBase relocated linked with
      placed | placed
    · obtain ⟨link, same⟩ := assembled.link inside store placed
      cases now.symm.trans link
      exact ⟨placed, copy, isCopy, same.symm.trans reached⟩
    · obtain ⟨_, stored⟩ := assembled.directory placed
      cases now.symm.trans stored
  · intro normalised file led inClosure
    obtain ⟨placed, copy, isCopy, reached⟩ := normalised file led inClosure
    obtain ⟨link, same⟩ := assembled.link inside store placed
    exact ⟨_, copy, link, isAbsolute_relativeTarget cwd assembled.properRoot directory store,
      isCopy, same.trans reached⟩

/-- The store with nothing in it but the dependencies. -/
def closureTree (fs : FileSystem γ) (lines : List Text) : PathTree γ := fun path =>
  if path = nixStore then some (.directory false)
  else (dependencyAt lines path).bind fun (line, rest) =>
    (dependencySource fs line).bind fun source => fs.get? (source ++ rest)

/-- A store target that stays in the store is read as its normalised path there. -/
def storeReading : LinkReading := fun position target =>
  if isStoreTarget target = true ∧ StaysInStore target then
    (nixStore, (lexical nixStore (components (belowStore target))).drop nixStore.length)
  else kernelReading position target

theorem closureTree_directory {lines : List Text}
    (store : PathTree.isDirectory (laidOut fs root base lines) (root ++ nixStore) = true)
    {path : Path} (isDirectory : (closureTree fs lines).isDirectory path = true) :
    path ≠ [] ∧ PathTree.isDirectory (laidOut fs root base lines) (root ++ path) = true := by
  obtain ⟨mode, stored⟩ := PathTree.isDirectory_iff.mp isDirectory
  unfold closureTree at stored
  split at stored
  · subst path
    exact ⟨by decide, store⟩
  · obtain ⟨⟨line, rest⟩, found, stored⟩ := Option.bind_eq_some_iff.mp stored
    refine ⟨?_, PathTree.isDirectory_iff.mpr ⟨mode, ?_⟩⟩
    · rintro rfl
      cases found
    · rw [laidOut_below, found]
      exact stored

variable (root base) in
theorem laidOut_closureTree {lines : List Text} {path : Path} {entry : Entry γ}
    (stored : closureTree fs lines path = some entry) (deep : path ≠ nixStore) :
    laidOut fs root base lines (root ++ path) = some entry := by
  unfold closureTree at stored
  rw [if_neg deep] at stored
  obtain ⟨⟨line, rest⟩, found, stored⟩ := Option.bind_eq_some_iff.mp stored
  rw [laidOut_below, found]
  exact stored

/-- A link read in the store is read in the image as the same place below the root. -/
theorem leads_storeReading (store : copied.IsDirectory (root ++ nixStore)) {links : Nat}
    {rest : List Text} {position real : Path} (target : Text)
    (leads : PathTree.Leads (closureTree fs lines) storeReading links
      (storeReading position target).1 ((storeReading position target).2 ++ rest) real)
    (same : PathTree.Leads copied.get? (imageReading root) links
      (root ++ (storeReading position target).1) ((storeReading position target).2 ++ rest)
      (root ++ real)) :
    PathTree.Leads copied.get? (imageReading root) links
      (imageReading root (root ++ position) target).1
      ((imageReading root (root ++ position) target).2 ++ rest) (root ++ real) := by
  by_cases stays : isStoreTarget target = true ∧ StaysInStore target
  · have before : storeReading position target = (nixStore, _) := if_pos stays
    have now : imageReading root (root ++ position) target =
        ([], lexical root (components target.tail)) := if_pos ⟨List.prefix_append _ _, stays.1⟩
    obtain ⟨below, normal⟩ := stays.2.lexical
    rw [before, ← normal, List.drop_left] at same
    rw [now, lexical_storeTarget stays.1 stays.2, ← normal]
    have shape : root ++ (nixStore ++ below) ++ rest = root ++ nixStore ++ (below ++ rest) := by
      simp only [List.append_assoc]
    apply PathTree.leads_of_resolves
    change copied.resolveWith (imageReading root) links [] (root ++ (nixStore ++ below) ++ rest) = _
    rw [shape, FileSystem.resolveWith_directories (root ++ nixStore) store]
    exact same.resolves
  · have before : storeReading position target = kernelReading position target := if_neg stays
    rw [before] at leads same
    unfold kernelReading at leads same
    cases absolute : isAbsolute target with
    | true =>
        -- The top of the store's tree is no directory: such a walk does not start.
        exfalso
        rw [if_pos absolute] at leads
        obtain ⟨rest, rfl⟩ : ∃ rest, target = slash :: rest := List.head?_eq_some_iff.mp
          (eq_of_beq absolute)
        rw [components_slash] at leads
        cases leads with
        | stay isDirectory idle later => cases isDirectory
        | down isDirectory busy notUp stored notLink later => exact busy (.inl rfl)
        | link isDirectory busy notUp stored later => exact busy (.inl rfl)
    | false =>
        rw [if_neg (Bool.eq_false_iff.mp absolute)] at same
        have other : ¬ (root <+: root ++ position ∧ isStoreTarget target = true) := by
          rintro ⟨-, store⟩
          obtain ⟨rest, rfl⟩ := isStoreTarget_iff.mp store
          cases absolute
        have now : imageReading root (root ++ position) target =
            (root ++ position, components target) := by
          rw [imageReading, if_neg other, kernelReading, if_neg (Bool.eq_false_iff.mp absolute)]
        rw [now]
        exact same

/-- A walk that stays in the store's dependencies is the same in their copies. -/
theorem leads_closureTree {lines : List Text}
    (tree : copied.get? = laidOut fs root base lines)
    (store : copied.IsDirectory (root ++ nixStore))
    {links : Nat} {position real : Path} {components : List Text}
    (leads : PathTree.Leads (closureTree fs lines) storeReading links position components real) :
    PathTree.Leads copied.get? (imageReading root) links (root ++ position) components
      (root ++ real) := by
  have directory {path : Path} (isDirectory : (closureTree fs lines).isDirectory path = true) :
      path ≠ [] ∧ PathTree.isDirectory copied.get? (root ++ path) = true := by
    rw [tree]
    apply closureTree_directory _ isDirectory
    rw [← tree]
    exact FileSystem.isDirectory_iff.mpr store
  induction leads with
  | arrived => exact .arrived
  | stay isDirectory idle later ih => exact .stay (directory isDirectory).2 idle ih
  | up isDirectory later ih =>
      refine .up (directory isDirectory).2 ?_
      rwa [List.dropLast_append_of_ne_nil (directory isDirectory).1]
  | @down _ position _ name _ entry isDirectory busy notUp stored notLink later ih =>
      rw [← List.append_assoc] at ih
      by_cases inStore : position ++ [name] = nixStore
      · obtain ⟨mode, there⟩ := store
        rw [← inStore, ← List.append_assoc] at there
        refine .down (directory isDirectory).2 busy notUp there ?_ ih
        exact nofun
      · have there := laidOut_closureTree root base stored inStore
        rw [← tree, ← List.append_assoc] at there
        exact .down (directory isDirectory).2 busy notUp there notLink ih
  | @link _ position _ name target _ isDirectory busy notUp stored later ih =>
      have deep : position ++ [name] ≠ nixStore := by
        intro inStore
        rw [inStore, closureTree, if_pos rfl] at stored
        cases stored
      have there := laidOut_closureTree root base stored deep
      rw [← tree, ← List.append_assoc] at there
      exact .link (directory isDirectory).2 busy notUp there
        (leads_storeReading store target later ih)

/-- The walk of a store link stays in the store's dependencies, and ends at a file. -/
def Confined (fs : FileSystem γ) (base : Path) (graphs : List (List Text)) (target : Text)
    (file : Path) : Prop :=
  (closureTree fs (dependencies base graphs)).resolveWith storeReading FileSystem.maxLinks
    (storeReading [] target).1 (storeReading [] target).2 = some file

/-- **Links that stay in the dependencies are kept**: it is enough that the file a link
led to is reached in the store itself, when each store link on the way is read as its
normalised path and the walk enters nothing but dependencies. -/
theorem assemble_keeps_confined_link (provided : Provided fs base graphs)
    (completes : assemble cwd fs parent name base graphs = some final)
    (relocated : RelocatedTo (parent ++ [name]) base graphs source place)
    (linked : fs.get? source = some (.link target)) (store : isStoreTarget target = true)
    (placed : laidOut fs (parent ++ [name]) base (dependencies base graphs) place =
      some (.link target))
    (confined : ∀ file, fs.resolve FileSystem.maxLinks [] (components target) = some file →
      Confined fs base graphs target file ∧
        RelocatedTo (parent ++ [name]) base graphs file (parent ++ [name] ++ file)) :
    KeepsLink fs final (parent ++ [name]) base graphs place target := by
  have assembled := assembled provided completes
  obtain ⟨directory, entry, rfl, inside⟩ := relocated.inside assembled.isBase linked
  intro file led _
  obtain ⟨walk, isCopy⟩ := confined file led
  obtain ⟨link, same⟩ := assembled.link inside store placed
  obtain ⟨copied, tree, isStore, -⟩ := assembled.walked
  have leads := PathTree.leads_of_resolves walk
  rw [← List.append_nil (storeReading [] target).2] at leads
  have reached := leads_storeReading isStore target leads (leads_closureTree tree isStore leads)
  have image : imageReading (parent ++ [name]) (parent ++ [name] ++ []) target =
      ([], lexical (parent ++ [name]) (components target.tail)) :=
    if_pos ⟨List.prefix_append _ _, store⟩
  rw [image, List.append_nil, tree] at reached
  rw [List.dropLast_concat]
  exact ⟨_, _, link, isAbsolute_relativeTarget cwd assembled.properRoot directory store, isCopy,
    same.trans reached.resolves⟩

/-- No path leads into the copies at the base's own store path. -/
theorem Assembled.no_base (assembled : Assembled cwd fs final root (nixStore ++ [name]) graphs)
    (bare : fs.get? (nixStore ++ [name] ++ (nixStore ++ [name])) = none)
    (unlisted : ∀ line ∈ dependencies (nixStore ++ [name]) graphs, dependencyName line ≠ name)
    (read : LinkReading) (links : Nat) (rest : List Text) :
    (laidOut fs root (nixStore ++ [name])
      (dependencies (nixStore ++ [name]) graphs)).resolveWith read links []
        (root ++ nixStore ++ name :: rest) = none := by
  obtain ⟨copied, tree, store, -⟩ := assembled.walked
  have absent : copied.get? (root ++ nixStore ++ [name]) = none := by
    rw [tree, List.append_assoc, laidOut_below, dependencyAt_unnamed unlisted]
    change baseEntry fs (nixStore ++ [name]) (nixStore ++ [name]) = _
    rw [baseEntry, if_neg (by simp), if_neg (by simp [nixStore]), bare]
  have proper : ProperName name := by
    obtain ⟨_, stored⟩ := assembled.isBase
    exact fs.proper_of_get? stored name (List.mem_append_right _ (List.mem_singleton_self _))
  rw [← tree]
  change copied.resolveWith read links [] _ = none
  rw [FileSystem.resolveWith_directories (root ++ nixStore) store, List.nil_append,
    FileSystem.resolveWith_proper store proper, absent]

/-- **Links into the base are lost**: with a store path for a base, a link whose
normalised target is at or below it leads nowhere in the image. -/
theorem assemble_loses_base_link (provided : Provided fs (nixStore ++ [name]) graphs)
    {output : Text}
    (completes : assemble cwd fs parent output (nixStore ++ [name]) graphs = some final)
    (bare : fs.get? (nixStore ++ [name] ++ (nixStore ++ [name])) = none)
    (unlisted : ∀ line ∈ dependencies (nixStore ++ [name]) graphs, dependencyName line ≠ name)
    (relocated : RelocatedTo (parent ++ [output]) (nixStore ++ [name]) graphs source place)
    (linked : fs.get? source = some (.link target)) (store : isStoreTarget target = true)
    (into : ∃ rest, lexical (parent ++ [output]) (components target.tail) =
      parent ++ [output] ++ nixStore ++ name :: rest) {new : Text}
    (now : final.get? place = some (.link new)) :
    final.resolve FileSystem.maxLinks place.dropLast (components new) = none := by
  have assembled := assembled provided completes
  obtain ⟨directory, entry, rfl, inside⟩ := relocated.inside assembled.isBase linked
  obtain ⟨rest, into⟩ := into
  rw [List.dropLast_concat]
  rcases laidOut_place provided assembled.settled assembled.isBase relocated linked with
    placed | placed
  · obtain ⟨link, same⟩ := assembled.link inside store placed
    cases now.symm.trans link
    rw [same, into, assembled.no_base bare unlisted]
  · obtain ⟨_, stored⟩ := assembled.directory placed
    cases now.symm.trans stored

end Places

theorem provided_sample : Provided sampleStore sampleBase sampleGraphs where
  nix := by decide +kernel
  store := by decide +kernel
  listed := by
    have leads : ∀ line ∈ dependencies sampleBase sampleGraphs,
        (sampleStore.resolve FileSystem.maxLinks [] (solid (components line))).isSome = true := by
      decide +kernel
    exact fun line member => Option.isSome_iff_exists.mp (leads line member)

theorem sampleImage_isSome : sampleImage.isSome = true := by decide +kernel

/-- The base's link into a dependency. -/
theorem assemble_keeps_link_sample :
    ∃ final, sampleImage = some final ∧
      (KeepsLink sampleStore final (nixStore ++ [text "image"]) sampleBase sampleGraphs
          (nixStore ++ [text "image"] ++ [text "usr", text "bin", text "sh"])
          (text "/nix/store/bash/bin/sh") ↔
        NormalisedLeads sampleStore (nixStore ++ [text "image"]) sampleBase sampleGraphs
          (nixStore ++ [text "image"] ++ [text "usr", text "bin", text "sh"])
          (text "/nix/store/bash/bin/sh")) := by
  obtain ⟨final, completes⟩ := Option.isSome_iff_exists.mp sampleImage_isSome
  refine ⟨final, completes, ?_⟩
  exact assemble_keeps_link_iff (text "/build") provided_sample completes
    (RelocatedTo.base [text "usr", text "bin", text "sh"]) rfl (by decide)

/-- The base's link into itself led to its own `usr/bin`, and leads nowhere in the image. -/
theorem assemble_loses_sample_link :
    ∃ final, sampleImage = some final ∧ Provided sampleStore sampleBase sampleGraphs ∧
      RelocatedTo (nixStore ++ [text "image"]) sampleBase sampleGraphs (sampleBase ++ [text "bin"])
        (nixStore ++ [text "image"] ++ [text "bin"]) ∧
      (∃ target, sampleStore.get? (sampleBase ++ [text "bin"]) = some (.link target) ∧
        isStoreTarget target = true ∧
        ¬ KeepsLink sampleStore final (nixStore ++ [text "image"]) sampleBase sampleGraphs
          (nixStore ++ [text "image"] ++ [text "bin"]) target) := by
  obtain ⟨final, completes⟩ := Option.isSome_iff_exists.mp sampleImage_isSome
  refine ⟨final, completes, provided_sample, .base [text "bin"], text "/nix/store/base/usr/bin",
    rfl, by decide, ?_⟩
  intro keeps
  have led : sampleStore.resolve FileSystem.maxLinks []
      (components (text "/nix/store/base/usr/bin")) =
        some (sampleBase ++ [text "usr", text "bin"]) := by decide +kernel
  obtain ⟨new, copy, now, -, -, reached⟩ := keeps _ led ⟨_, .base [text "usr", text "bin"]⟩
  have lost := assemble_loses_base_link provided_sample completes (by decide +kernel)
    (by decide +kernel) (.base [text "bin"]) rfl (by decide)
    ⟨[text "usr", text "bin"], by decide +kernel⟩ now
  cases lost.symm.trans reached

end X86OnArm.Guest
