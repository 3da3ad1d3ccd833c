import X86OnArm.Foundation.FileTree

/-! # Walks whose steps to the parent are taken back beforehand

Normalising a path takes a name back for every `..` after it, without a look at
the file system, where the kernel takes `..` to the parent of the directory it is
really in. The two meet after every component exactly if each name taken back leads
to a directory in the very directory it was looked up in (`trueParents_iff`).
-/

namespace Foundation

open PosixPath

universe u

namespace PathTree

variable {γ : Type u} (tree : PathTree γ) (read : LinkReading)

/-- The positions at which the names kept so far were looked up, the last one first,
after one more component is looked up at `position`. -/
def lookupsAfter (position : Path) (lookups : List Path) (component : Text) : List Path :=
  if component = [] ∨ component = dot then lookups
  else if component = dotDot then lookups.tail
  else position :: lookups

/-- A step to the parent comes to where the last name was looked up. -/
def meetsLookup (lookups : List Path) (component : Text) (next : Path) : Bool :=
  component ≠ dotDot || lookups.head?.all fun lookup => next = lookup

/-- **Every `..` takes back a name that leads to a directory in the directory the
name was looked up in.** -/
def trueParents (links : Nat) : Path → List Path → List Text → Bool
  | _, _, [] => true
  | position, lookups, component :: rest =>
      match tree.resolveWith read links position [component] with
      | none => true
      | some next =>
          meetsLookup lookups component next &&
            trueParents links next (lookupsAfter position lookups component) rest

/-- Names that lead from the top to a position, with the links on the way and the
positions at which they were looked up. -/
inductive Trail : Nat → Path → List Path → Path → Prop where
  | top : Trail 0 [] [] []
  | down {used more : Nat} {names position next : Path} {lookups : List Path} {name : Text}
      (trail : Trail used names lookups position) (busy : ¬ (name = [] ∨ name = dot))
      (notUp : name ≠ dotDot) (leads : Leads tree read more position [name] next) :
      Trail (used + more) (names ++ [name]) (position :: lookups) next

variable {tree read} {links used left : Nat} {names position real : Path} {lookups : List Path}
  {components : List Text}

theorem Trail.leads (trail : Trail tree read used names lookups position) :
    Leads tree read used [] names position := by
  induction trail with
  | top => exact .arrived
  | down trail busy notUp leads ih => exact ih.append leads

/-- A walk that ends has one end, however many links are at hand. -/
theorem Leads.unique {other : Nat} {first second : Path}
    (one : Leads tree read links position components first)
    (another : Leads tree read other position components second) : first = second := by
  have here := (one.more (Nat.le_add_right links other)).resolves
  have there := (another.more (Nat.le_add_left other links)).resolves
  exact Option.some.inj (here.symm.trans there)

theorem Leads.of_idle {component : Text} (idle : component = [] ∨ component = dot)
    (leads : Leads tree read links position [component] real) : real = position := by
  cases leads with
  | stay _ _ later =>
      cases later
      rfl
  | up => exact absurd idle (by decide)
  | down _ busy => exact absurd idle busy
  | link _ busy => exact absurd idle busy

theorem Leads.of_dotDot (leads : Leads tree read links position [dotDot] real) :
    real = position.dropLast := by
  cases leads with
  | stay _ idle => exact absurd idle (by decide)
  | up _ later =>
      cases later
      rfl
  | down _ _ notUp => exact absurd rfl notUp
  | link _ _ notUp => exact absurd rfl notUp

/-- The first step of a walk. -/
theorem Leads.step {component : Text} {rest : List Text}
    (leads : Leads tree read links position (component :: rest) real) :
    ∃ used next, used ≤ links ∧ Leads tree read used position [component] next ∧
      Leads tree read (links - used) next rest real := by
  have whole : Leads tree read links position ([component] ++ rest) real := leads
  exact whole.split

/-- What a walk's first step makes of the condition. -/
theorem trueParents_cons {next : Path} {component : Text} (rest : List Text)
    (step : Leads tree read used position [component] next) (atMost : used ≤ links) :
    tree.trueParents read links position lookups (component :: rest) =
      (meetsLookup lookups component next &&
        tree.trueParents read links next (lookupsAfter position lookups component) rest) := by
  conv => lhs; unfold trueParents
  rw [(step.more atMost).resolves]

/-- One step keeps the trail, if a name it takes back was looked up where it leads. -/
theorem Trail.step {next : Path} {component : Text}
    (trail : Trail tree read used names lookups position)
    (step : Leads tree read left position [component] next)
    (meets : meetsLookup lookups component next = true) :
    ∃ total ≤ used + left, Trail tree read total (lexicalStep names component)
      (lookupsAfter position lookups component) next := by
  unfold lexicalStep lookupsAfter
  by_cases idle : component = [] ∨ component = dot
  · rw [if_pos idle, if_pos idle, step.of_idle idle]
    exact ⟨used, Nat.le_add_right _ _, trail⟩
  rw [if_neg idle, if_neg idle]
  by_cases up : component = dotDot
  · rw [if_pos up, if_pos up]
    subst up
    cases trail with
    | top =>
        rw [step.of_dotDot]
        exact ⟨0, Nat.zero_le _, .top⟩
    | down trail busy notUp leads =>
        rw [List.dropLast_concat, of_decide_eq_true meets]
        exact ⟨_, by omega, trail⟩
  · rw [if_neg up, if_neg up]
    exact ⟨used + left, le_rfl, .down trail idle up step⟩

/-- The lexical walk leads where the real one does. -/
theorem leads_lexical (trail : Trail tree read used names lookups position)
    (within : used + left ≤ links)
    (parents : tree.trueParents read links position lookups components = true)
    (leads : Leads tree read left position components real) :
    Leads tree read links [] (lexical names components) real := by
  induction components generalizing used left names lookups position with
  | nil =>
      cases leads
      exact trail.leads.more (by omega)
  | cons component rest ih =>
      obtain ⟨first, next, atMost, step, later⟩ := leads.step
      rw [trueParents_cons rest step (by omega)] at parents
      obtain ⟨meets, parents⟩ := Bool.and_eq_true_iff.mp parents
      obtain ⟨total, bound, trail⟩ := trail.step step meets
      exact ih trail (by omega) parents later

theorem trueParents_append {first second : List Text}
    (parents : tree.trueParents read links position lookups (first ++ second) = true) :
    tree.trueParents read links position lookups first = true := by
  induction first generalizing lookups position with
  | nil => rfl
  | cons component rest ih =>
      unfold trueParents
      rw [List.cons_append] at parents
      unfold trueParents at parents
      split
      · rfl
      · rename_i next resolves
        rw [resolves] at parents
        obtain ⟨meets, parents⟩ := Bool.and_eq_true_iff.mp parents
        exact Bool.and_eq_true_iff.mpr ⟨meets, ih parents⟩

/-- **The lexical walk meets the real one after every component exactly if every name
taken back leads to a directory where it was looked up.** -/
theorem trueParents_iff (trail : Trail tree read used names lookups position)
    (within : used + left ≤ links) (leads : Leads tree read left position components real) :
    tree.trueParents read links position lookups components = true ↔
      ∀ first between, first <+: components → Leads tree read left position first between →
        Leads tree read links [] (lexical names first) between := by
  constructor
  · rintro parents first between ⟨second, rfl⟩ leads
    exact leads_lexical trail within (trueParents_append parents) leads
  · intro agrees
    induction components generalizing used left names lookups position with
    | nil => rfl
    | cons component rest ih =>
        obtain ⟨first, next, atMost, step, later⟩ := leads.step
        have meets : meetsLookup lookups component next = true := by
          by_cases up : component = dotDot
          · subst up
            cases trail with
            | top => rfl
            | down trail busy notUp looked =>
                have met := agrees [dotDot] next (List.prefix_append [dotDot] rest)
                  (step.more (by omega))
                rw [lexical_cons, lexicalStep_dotDot, List.dropLast_concat] at met
                exact decide_eq_true (met.unique trail.leads)
          · exact Bool.or_eq_true_iff.mpr (.inl (decide_eq_true up))
        obtain ⟨total, bound, trail⟩ := trail.step step meets
        rw [trueParents_cons rest step (by omega), Bool.and_eq_true_iff]
        refine ⟨meets, ih trail (by omega) later ?_⟩
        rintro first' between ⟨second, rfl⟩ leads
        have longer := agrees (component :: first') between
          ⟨second, rfl⟩ ((step.append leads).more (by omega))
        rwa [lexical_cons] at longer

end PathTree

namespace FileSystem

variable {γ : Type u} {fs : FileSystem γ}

/-- The directories above a path, the nearest first. -/
def ancestors (path : Path) : List Path := ((List.range path.length).map path.take).reverse

theorem ancestors_concat (path : Path) (name : Text) :
    ancestors (path ++ [name]) = path :: ancestors path := by
  unfold ancestors
  rw [List.length_append, List.length_singleton, List.range_succ, List.map_append,
    List.reverse_append]
  have above : (List.range path.length).map (path ++ [name]).take =
      (List.range path.length).map path.take := by
    apply List.map_congr_left
    intro depth member
    exact List.take_append_of_le_length (List.mem_range.mp member).le
  rw [above, List.map_singleton, List.take_left]
  rfl

/-- The names of a directory's own path are a trail without links. -/
theorem trail_directory {directory : Path} (isDirectory : fs.IsDirectory directory)
    (read : LinkReading) :
    PathTree.Trail fs.get? read 0 directory (ancestors directory) directory := by
  induction directory using List.reverseRecOn with
  | nil => exact .top
  | append_singleton above name ih =>
      obtain ⟨writable, stored⟩ := isDirectory
      have parent := fs.isDirectory_of_below (List.cons_ne_nil name []) stored
      have proper := fs.proper_of_get? stored name (List.mem_append_right _ List.mem_cons_self)
      have busy : ¬ (name = [] ∨ name = dot) := not_or.mpr ⟨proper.nonempty, proper.notDot⟩
      have step : PathTree.Leads fs.get? read 0 above [name] (above ++ [name]) :=
        .down (isDirectory_iff.mpr parent) busy proper.notDotDot stored nofun .arrived
      rw [ancestors_concat]
      exact (ih parent).down busy proper.notDotDot step

/-- The file a path leads to in a directory. -/
def resolvePath (fs : FileSystem γ) (cwd : Path) (path : Text) : Option Path :=
  if path = [] then none else fs.resolve maxLinks (startOf cwd path) (components path)

theorem resolve_pathOf (path : Path) (links : Nat) (proper : ProperPath path) :
    fs.resolve links [] (components (pathOf path)) = fs.resolve links [] path := by
  unfold pathOf
  rw [components_slash]
  refine (resolveWith_idle fs.top (.inl rfl) links _).trans ?_
  cases path with
  | nil => exact resolveWith_idle fs.top (.inl rfl) links []
  | cons name rest =>
      rw [components_joined (fun part member => (proper part member).noSlash)
        (List.cons_ne_nil _ _)]
      rfl

/-- An absolute path leads where the lexical walk leads. -/
theorem resolvePath_abspath {cwd : Path} (proper : ProperPath cwd) (path : Text) :
    fs.resolvePath cwd (abspath (pathOf cwd) path) =
      fs.resolve maxLinks [] (lexical (startOf cwd path) (components path)) := by
  have clean : ProperPath (lexical (startOf cwd path) (components path)) := by
    apply lexical_properPath _ (noSlash_of_mem_components path)
    unfold startOf
    split
    · exact List.forall_mem_nil _
    · exact proper
  rcases abspath_pathOf proper path with single | double
  · rw [single]
    exact resolve_pathOf _ _ clean
  · rw [double]
    refine Eq.trans ?_ (resolve_pathOf _ _ clean)
    exact resolveWith_idle fs.top (.inl rfl) maxLinks _

end FileSystem

end Foundation
