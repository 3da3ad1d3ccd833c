import X86OnArm.Foundation.Text
import Mathlib.Data.List.Infix

/-! # POSIX paths as text

The lexical path functions of the scripting language: none of them looks at a
file system. Paths are text, and a component is the text between two slashes.
`lexical` walks components from a position and takes `..` to the position above;
`tailComponents_absolute` says that normalisation is this walk from the top, and
`within_relativeComponents` that the walk of a relative path does not leave an
ancestor its start and its destination share.
-/

namespace Foundation

/-- The names from the top to an entry. -/
abbrev Path := List Text

namespace PosixPath

def slash : CodePoint := '/'

def dot : Text := text "."

def dotDot : Text := text ".."

/-- A name a directory entry can have. -/
structure ProperName (name : Text) : Prop where
  nonempty : name ≠ []
  notDot : name ≠ dot
  notDotDot : name ≠ dotDot
  noSlash : slash ∉ name

instance (name : Text) : Decidable (ProperName name) :=
  decidable_of_iff (name ≠ [] ∧ name ≠ dot ∧ name ≠ dotDot ∧ slash ∉ name)
    ⟨fun ⟨nonempty, notDot, notDotDot, noSlash⟩ => ⟨nonempty, notDot, notDotDot, noSlash⟩,
      fun ⟨nonempty, notDot, notDotDot, noSlash⟩ => ⟨nonempty, notDot, notDotDot, noSlash⟩⟩

def ProperPath (path : Path) : Prop := ∀ name ∈ path, ProperName name

instance (path : Path) : Decidable (ProperPath path) :=
  inferInstanceAs (Decidable (∀ name ∈ path, ProperName name))

/-- `path.split("/")`. -/
def components (path : Text) : List Text := path.splitOn slash

/-- `"/".join(parts)`. -/
def joined (parts : List Text) : Text := List.intercalate [slash] parts

/-- The text of the absolute path. -/
def pathOf (path : Path) : Text := slash :: joined path

def isAbsolute (path : Text) : Bool := path.head? == some slash

/-- `os.path.join(base, path)`. -/
def join (base path : Text) : Text :=
  if isAbsolute path then path
  else if base = [] ∨ base.getLast? = some slash then base ++ path
  else base ++ slash :: path

/-- The slashes a normalised path starts with; exactly two are kept. -/
def root (path : Text) : Text :=
  if !isAbsolute path then []
  else if path[1]? = some slash ∧ path[2]? ≠ some slash then [slash, slash]
  else [slash]

/-- One component of `normpath`, over the components kept so far, last first. -/
def pushComponent (rooted : Bool) (kept : List Text) (component : Text) : List Text :=
  if component = [] ∨ component = dot then kept
  else if component ≠ dotDot ∨ (rooted = false ∧ kept = []) ∨ kept.head? = some dotDot then
    component :: kept
  else kept.tail

/-- The components of `normpath(path)`. -/
def normComponents (path : Text) : List Text :=
  ((components path).foldl (pushComponent (isAbsolute path)) []).reverse

/-- `os.path.normpath(path)`. -/
def normpath (path : Text) : Text :=
  let normal := root path ++ joined (normComponents path)
  if normal = [] then dot else normal

/-- `os.path.abspath(path)` in the directory `cwd`. -/
def abspath (cwd path : Text) : Text :=
  normpath (if isAbsolute path then path else join cwd path)

/-- The components of an absolute path, as `relpath` compares them. -/
def tailComponents (cwd path : Text) : List Text :=
  (components (abspath cwd path)).filter fun component => component ≠ []

/-- How many components two paths share at the front. -/
def sharedLength : List Text → List Text → Nat
  | first :: firstRest, second :: secondRest =>
      if first = second then sharedLength firstRest secondRest + 1 else 0
  | _, _ => 0

/-- The components of `os.path.relpath(path, start)`. -/
def relativeComponents (path start : List Text) : List Text :=
  List.replicate (start.length - sharedLength start path) dotDot ++
    path.drop (sharedLength start path)

/-- `os.path.relpath(path, start)` in the directory `cwd`. -/
def relpath (cwd path start : Text) : Text :=
  let relative := relativeComponents (tailComponents cwd path) (tailComponents cwd start)
  if relative = [] then dot else joined relative

/-- `str(Path(raw))`: no empty components and no dots. -/
def pathText (raw : Text) : Text :=
  let normal := root raw ++
    joined ((components raw).filter fun component => component ≠ [] ∧ component ≠ dot)
  if normal = [] then dot else normal

/-- `str(Path(base) / path)`. -/
def child (base path : Text) : Text := pathText (join base path)

/-- One component of a walk that looks at no file system. -/
def lexicalStep (position : Path) (component : Text) : Path :=
  if component = [] ∨ component = dot then position
  else if component = dotDot then position.dropLast
  else position ++ [component]

/-- Where such a walk ends. -/
def lexical (position : Path) (components : List Text) : Path :=
  components.foldl lexicalStep position

/-- The positions such a walk visits, the first one included. -/
def trail (position : Path) : List Text → List Path
  | [] => [position]
  | component :: rest => position :: trail (lexicalStep position component) rest

/-- The walk stays at and below `ancestor`. -/
def Within (ancestor position : Path) (components : List Text) : Prop :=
  ∀ visited ∈ trail position components, ancestor <+: visited

instance (ancestor position : Path) (components : List Text) :
    Decidable (Within ancestor position components) :=
  inferInstanceAs (Decidable (∀ visited ∈ trail position components, ancestor <+: visited))

theorem within_nil {ancestor position : Path} :
    Within ancestor position [] ↔ ancestor <+: position := by
  unfold Within trail
  simp only [List.mem_singleton, forall_eq]

theorem within_cons {ancestor position : Path} {component : Text} {rest : List Text} :
    Within ancestor position (component :: rest) ↔
      ancestor <+: position ∧ Within ancestor (lexicalStep position component) rest := by
  unfold Within
  rw [trail, List.forall_mem_cons]

theorem Within.here {ancestor position : Path} {components : List Text}
    (within : Within ancestor position components) : ancestor <+: position := by
  cases components with
  | nil => exact within_nil.mp within
  | cons component rest => exact (within_cons.mp within).1

theorem lexicalStep_proper (position : Path) {name : Text} (proper : ProperName name) :
    lexicalStep position name = position ++ [name] := by
  unfold lexicalStep
  rw [if_neg (not_or.mpr ⟨proper.nonempty, proper.notDot⟩), if_neg proper.notDotDot]

theorem lexicalStep_dotDot (position : Path) : lexicalStep position dotDot = position.dropLast := by
  unfold lexicalStep
  rw [if_neg (by decide), if_pos rfl]

theorem lexical_cons (position : Path) (component : Text) (rest : List Text) :
    lexical position (component :: rest) = lexical (lexicalStep position component) rest := rfl

theorem Within.lexical {ancestor position : Path} {components : List Text}
    (within : Within ancestor position components) :
    ancestor <+: lexical position components := by
  induction components generalizing position with
  | nil => exact within.here
  | cons component rest ih => exact ih (within_cons.mp within).2

theorem lexical_append (position : Path) (first second : List Text) :
    lexical position (first ++ second) = lexical (lexical position first) second :=
  List.foldl_append

theorem lexical_proper (position : Path) {path : Path} (proper : ProperPath path) :
    lexical position path = position ++ path := by
  induction path generalizing position with
  | nil => exact (List.append_nil position).symm
  | cons name rest ih =>
      rw [lexical_cons, lexicalStep_proper position (proper name List.mem_cons_self),
        ih _ fun other member => proper other (List.mem_cons_of_mem _ member), List.append_assoc]
      rfl

theorem within_proper {ancestor position : Path} (above : ancestor <+: position) {path : Path}
    (proper : ProperPath path) : Within ancestor position path := by
  induction path generalizing position with
  | nil => exact within_nil.mpr above
  | cons name rest ih =>
      rw [within_cons, lexicalStep_proper position (proper name List.mem_cons_self)]
      exact ⟨above, ih (above.trans (List.prefix_append _ _))
        fun other member => proper other (List.mem_cons_of_mem _ member)⟩

/-- A walk that does not leave an ancestor below the top is the same below any other
directory. -/
theorem lexical_below (above : Path) {ancestor position : Path} (deep : ancestor ≠ [])
    {components : List Text} (within : Within ancestor position components) :
    lexical (above ++ position) components = above ++ lexical position components := by
  induction components generalizing position with
  | nil => rfl
  | cons component rest ih =>
      obtain ⟨here, later⟩ := within_cons.mp within
      have inside : position ≠ [] := by
        rintro rfl
        exact deep (List.prefix_nil.mp here)
      have stepped : lexicalStep (above ++ position) component =
          above ++ lexicalStep position component := by
        unfold lexicalStep
        split
        · rfl
        · split
          · exact List.dropLast_append_of_ne_nil inside
          · exact List.append_assoc _ _ _
      rw [lexical_cons, stepped, ih later, lexical_cons]

theorem lexicalStep_properPath {position : Path} (proper : ProperPath position) {component : Text}
    (clean : slash ∉ component) : ProperPath (lexicalStep position component) := by
  intro name member
  unfold lexicalStep at member
  split at member
  · exact proper name member
  · rename_i notEmpty
    split at member
    · exact proper name (List.mem_of_mem_dropLast member)
    · rcases List.mem_append.mp member with old | new
      · exact proper name old
      · rw [List.mem_singleton.mp new]
        rw [not_or] at notEmpty
        exact ⟨notEmpty.1, notEmpty.2, ‹_›, clean⟩

theorem lexical_properPath {position : Path} (proper : ProperPath position)
    {components : List Text} (clean : ∀ component ∈ components, slash ∉ component) :
    ProperPath (lexical position components) := by
  induction components generalizing position with
  | nil => exact proper
  | cons component rest ih =>
      exact ih (lexicalStep_properPath proper (clean component List.mem_cons_self))
        fun other member => clean other (List.mem_cons_of_mem _ member)

section Relative

variable {ancestor path start : Path}

theorem sharedLength_le (path start : Path) :
    sharedLength start path ≤ start.length ∧ sharedLength start path ≤ path.length := by
  induction start generalizing path with
  | nil => exact ⟨Nat.zero_le _, Nat.zero_le _⟩
  | cons first firstRest ih =>
      cases path with
      | nil => exact ⟨Nat.zero_le _, Nat.zero_le _⟩
      | cons second secondRest =>
          rw [sharedLength]
          obtain ⟨left, right⟩ := ih secondRest
          split
          · exact ⟨Nat.succ_le_succ left, Nat.succ_le_succ right⟩
          · exact ⟨Nat.zero_le _, Nat.zero_le _⟩

theorem take_sharedLength (path start : Path) :
    start.take (sharedLength start path) = path.take (sharedLength start path) := by
  induction start generalizing path with
  | nil => simp [sharedLength]
  | cons first firstRest ih =>
      cases path with
      | nil => simp [sharedLength]
      | cons second secondRest =>
          rw [sharedLength]
          split
          · rw [List.take_succ_cons, List.take_succ_cons, ih, ‹first = second›]
          · rfl

theorem length_le_sharedLength (inPath : ancestor <+: path) (inStart : ancestor <+: start) :
    ancestor.length ≤ sharedLength start path := by
  obtain ⟨pathRest, rfl⟩ := inPath
  obtain ⟨startRest, rfl⟩ := inStart
  induction ancestor with
  | nil => exact Nat.zero_le _
  | cons name rest ih =>
      rw [List.cons_append, List.cons_append, sharedLength, if_pos rfl]
      exact Nat.succ_le_succ ih

theorem within_up {position : Path} {steps : Nat} {rest : List Text}
    (landed : ancestor <+: position.take (position.length - steps))
    (within : Within ancestor (position.take (position.length - steps)) rest) :
    Within ancestor position (List.replicate steps dotDot ++ rest) := by
  induction steps generalizing position with
  | zero => rwa [Nat.sub_zero, List.take_length] at within
  | succ steps ih =>
      have higher : position.dropLast.take (position.dropLast.length - steps) =
          position.take (position.length - (steps + 1)) := by
        rw [List.dropLast_eq_take, List.take_take, List.length_take]
        congr 1
        omega
      rw [List.replicate_succ, List.cons_append, within_cons, lexicalStep_dotDot]
      exact ⟨landed.trans (List.take_prefix _ _), ih (higher ▸ landed) (higher ▸ within)⟩

/-- The position a relative path turns at, the deepest common ancestor. -/
theorem take_up (path start : Path) :
    start.take (start.length - (start.length - sharedLength start path)) =
      path.take (sharedLength start path) := by
  rw [Nat.sub_sub_self (sharedLength_le path start).1, take_sharedLength]

/-- A relative path does not leave what its start and its destination have in common. -/
theorem within_relativeComponents (proper : ProperPath path) (inPath : ancestor <+: path)
    (inStart : ancestor <+: start) : Within ancestor start (relativeComponents path start) := by
  have turn : ancestor <+: path.take (sharedLength start path) :=
    List.prefix_take_iff.mpr ⟨inPath, length_le_sharedLength inPath inStart⟩
  unfold relativeComponents
  apply within_up
  · rwa [take_up]
  · rw [take_up]
    exact within_proper turn fun name member => proper name (List.mem_of_mem_drop member)

end Relative

section Texts

theorem noSlash_of_mem_components (path : Text) :
    ∀ component ∈ components path, slash ∉ component := by
  induction path with
  | nil => simp [components]
  | cons c rest ih =>
      unfold components at ih ⊢
      rw [List.splitOn_cons_eq_if_modifyHead]
      split
      · intro component member
        rcases List.mem_cons.mp member with rfl | later
        · exact List.not_mem_nil
        · exact ih component later
      · rename_i different
        cases split : rest.splitOn slash with
        | nil => simp
        | cons first others =>
            rw [split] at ih
            intro component member
            rw [List.modifyHead_cons] at member
            rcases List.mem_cons.mp member with rfl | later
            · intro inside
              rcases List.mem_cons.mp inside with same | inFirst
              · exact different (beq_iff_eq.mpr same.symm)
              · exact ih first List.mem_cons_self inFirst
            · exact ih component (List.mem_cons_of_mem _ later)

theorem components_joined {parts : List Text} (clean : ∀ part ∈ parts, slash ∉ part)
    (nonempty : parts ≠ []) : components (joined parts) = parts :=
  List.splitOn_intercalate slash clean nonempty

theorem components_slash (path : Text) : components (slash :: path) = [] :: components path := by
  unfold components
  rw [List.splitOn_cons_eq_if_modifyHead, if_pos (beq_self_eq_true slash)]

/-- Components that are neither empty nor dots. -/
def solid (components : List Text) : List Text :=
  components.filter fun component => component ≠ [] ∧ component ≠ dot

theorem lexical_solid (position : Path) (components : List Text) :
    lexical position (solid components) = lexical position components := by
  unfold solid
  induction components generalizing position with
  | nil => rfl
  | cons component rest ih =>
      rw [List.filter_cons]
      split
      · exact ih _
      · rename_i skipped
        have idle : component = [] ∨ component = dot := by
          simpa only [decide_eq_true_eq, ne_eq, not_and_or, not_not] using skipped
        rw [ih, lexical_cons, lexicalStep, if_pos idle]

/-- Components a solid path is made of: names and steps to the parent. -/
def SolidParts (parts : List Text) : Prop := ∀ part ∈ parts, part ≠ [] ∧ part ≠ dot ∧ slash ∉ part

theorem solidParts_solid {components : List Text}
    (clean : ∀ component ∈ components, slash ∉ component) : SolidParts (solid components) := by
  intro part member
  obtain ⟨inside, kept⟩ := List.mem_filter.mp member
  obtain ⟨nonempty, notDot⟩ := of_decide_eq_true kept
  exact ⟨nonempty, notDot, clean part inside⟩

theorem ProperPath.solidParts {path : Path} (proper : ProperPath path) : SolidParts path :=
  fun name member =>
    ⟨(proper name member).nonempty, (proper name member).notDot, (proper name member).noSlash⟩

theorem SolidParts.append {first second : List Text} (left : SolidParts first)
    (right : SolidParts second) : SolidParts (first ++ second) := by
  intro part member
  rcases List.mem_append.mp member with inFirst | inSecond
  · exact left part inFirst
  · exact right part inSecond

/-- The components of the absolute path made of solid parts are these parts. -/
theorem solid_components_absolute {parts : List Text} (clean : SolidParts parts) :
    solid (components (slash :: joined parts)) = parts := by
  have kept : solid parts = parts :=
    List.filter_eq_self.mpr fun part member =>
      decide_eq_true ⟨(clean part member).1, (clean part member).2.1⟩
  rw [components_slash]
  cases parts with
  | nil => decide
  | cons first rest =>
      rw [components_joined (fun part member => (clean part member).2.2) (List.cons_ne_nil _ _)]
      exact kept

theorem head?_joined {parts : List Text} (clean : SolidParts parts) :
    (joined parts).head? ≠ some slash := by
  cases parts with
  | nil => simp [joined]
  | cons first rest =>
      obtain ⟨nonempty, -, noSlash⟩ := clean first List.mem_cons_self
      cases first with
      | nil => exact absurd rfl nonempty
      | cons c others =>
          have leading : (joined ((c :: others) :: rest)).head? = some c := by
            cases rest <;> simp [joined, List.intercalate]
          rw [leading]
          rintro same
          exact noSlash (List.mem_cons.mpr (.inl (Option.some.inj same).symm))

theorem joined_ne_nil {parts : List Text} (clean : SolidParts parts) (nonempty : parts ≠ []) :
    joined parts ≠ [] := by
  intro empty
  have split := components_joined (fun part member => (clean part member).2.2) nonempty
  rw [empty] at split
  exact (clean [] (split ▸ List.mem_singleton_self [])).1 rfl

theorem getLast?_joined {parts : List Text} (clean : SolidParts parts) (nonempty : parts ≠ []) :
    (joined parts).getLast? ≠ some slash := by
  intro trailing
  have split := components_joined (fun part member => (clean part member).2.2) nonempty
  unfold components at split
  rw [← List.dropLast_append_getLast? slash trailing, List.splitOn_append_cons_self] at split
  have last : [] ∈ parts := split ▸ List.mem_append_right _ (List.mem_singleton_self _)
  exact (clean [] last).1 rfl

theorem root_slash {path : Text} (single : path.head? ≠ some slash) :
    root (slash :: path) = [slash] := by
  have absolute : isAbsolute (slash :: path) = true := rfl
  unfold root
  rw [absolute, if_neg (by decide), if_neg]
  rintro ⟨second, -⟩
  apply single
  rw [List.head?_eq_getElem?]
  exact second

theorem pushComponent_rooted {kept : List Text} (names : dotDot ∉ kept) (component : Text) :
    (pushComponent true kept component).reverse = lexicalStep kept.reverse component ∧
      dotDot ∉ pushComponent true kept component := by
  unfold pushComponent lexicalStep
  by_cases idle : component = [] ∨ component = dot
  · rw [if_pos idle, if_pos idle]
    exact ⟨rfl, names⟩
  rw [if_neg idle, if_neg idle]
  by_cases up : component = dotDot
  · have popped : ¬ (component ≠ dotDot ∨ (true = false ∧ kept = []) ∨
        kept.head? = some dotDot) := by
      rintro (other | ⟨never, -⟩ | above)
      · exact other up
      · cases never
      · exact names (List.mem_of_head? above)
    rw [if_neg popped, if_pos up]
    exact ⟨List.dropLast_reverse.symm, fun member => names (List.mem_of_mem_tail member)⟩
  · rw [if_pos (.inl up), if_neg up, List.reverse_cons]
    refine ⟨rfl, ?_⟩
    intro member
    rcases List.mem_cons.mp member with same | old
    · exact up same.symm
    · exact names old

theorem foldl_pushComponent (components : List Text) {kept : List Text} (names : dotDot ∉ kept) :
    (components.foldl (pushComponent true) kept).reverse = lexical kept.reverse components := by
  induction components generalizing kept with
  | nil => rfl
  | cons component rest ih =>
      obtain ⟨stepped, names⟩ := pushComponent_rooted names component
      rw [List.foldl_cons, ih names, stepped, lexical_cons]

/-- Normalisation of an absolute path: its slashes and the lexical walk's end. -/
theorem normpath_rooted {path : Text} (absolute : isAbsolute path = true) :
    normpath path = root path ++ joined (lexical [] (components path)) := by
  have parts : normComponents path = lexical [] (components path) := by
    unfold normComponents
    rw [absolute]
    exact foldl_pushComponent _ List.not_mem_nil
  have rooted : root path ≠ [] := by
    unfold root
    rw [if_neg (by rw [absolute]; decide)]
    split <;> exact List.cons_ne_nil _ _
  unfold normpath
  rw [parts, if_neg fun empty => rooted (List.append_eq_nil_iff.mp empty).1]

/-- Normalisation of an absolute path is the lexical walk from the top. -/
theorem normpath_absolute {parts : List Text} (clean : SolidParts parts) :
    normpath (slash :: joined parts) = pathOf (lexical [] parts) := by
  rw [normpath_rooted rfl, root_slash (head?_joined clean), ← lexical_solid,
    solid_components_absolute clean]
  rfl

theorem properPath_lexical {parts : List Text} (clean : SolidParts parts) :
    ProperPath (lexical [] parts) :=
  lexical_properPath (List.forall_mem_nil _) fun part member => (clean part member).2.2

theorem filter_nonempty_components {path : Path} (proper : ProperPath path) :
    ((components (pathOf path)).filter fun component => component ≠ []) = path := by
  have kept : (path.filter fun component => component ≠ []) = path :=
    List.filter_eq_self.mpr fun name member => decide_eq_true (proper name member).nonempty
  unfold pathOf
  rw [components_slash]
  cases path with
  | nil => decide
  | cons first rest =>
      rw [components_joined (fun name member => (proper name member).noSlash)
        (List.cons_ne_nil _ _)]
      exact kept

theorem tailComponents_absolute (cwd : Text) {parts : List Text} (clean : SolidParts parts) :
    tailComponents cwd (slash :: joined parts) = lexical [] parts := by
  have absolute : abspath cwd (slash :: joined parts) = pathOf (lexical [] parts) := by
    unfold abspath
    exact normpath_absolute clean
  unfold tailComponents
  rw [absolute, filter_nonempty_components (properPath_lexical clean)]

theorem tailComponents_pathOf (cwd : Text) {path : Path} (proper : ProperPath path) :
    tailComponents cwd (pathOf path) = path :=
  (tailComponents_absolute cwd proper.solidParts).trans (lexical_proper [] proper)

/-- A relative path put after an absolute one. -/
theorem join_pathOf {base : Path} (proper : ProperPath base) {path : Text}
    (relative : path.head? ≠ some slash) :
    ∃ tail : Text, join (pathOf base) path = slash :: tail ∧ tail.head? ≠ some slash ∧
      solid (components tail) = base ++ solid (components path) := by
  have notAbsolute : isAbsolute path = false := by
    unfold isAbsolute
    exact beq_eq_false_iff_ne.mpr relative
  unfold join
  rw [if_neg (notAbsolute ▸ Bool.false_ne_true)]
  by_cases top : base = []
  · subst top
    exact ⟨path, rfl, relative, rfl⟩
  · obtain ⟨c, others, opened⟩ := List.exists_cons_of_ne_nil (joined_ne_nil proper.solidParts top)
    have parts := components_joined (fun name member => (proper name member).noSlash) top
    refine ⟨joined base ++ slash :: path, ?_, ?_, ?_⟩
    · rw [if_neg]
      · rfl
      · rintro (empty | trailing)
        · exact List.cons_ne_nil _ _ empty
        · exact getLast?_joined proper.solidParts top
            ((List.getLast?_cons_of_ne_nil (joined_ne_nil proper.solidParts top)).symm.trans
              trailing)
    · have leading := head?_joined proper.solidParts
      rw [opened] at leading ⊢
      exact leading
    · unfold components at parts ⊢
      rw [List.splitOn_append_cons_self, parts]
      unfold solid
      rw [List.filter_append]
      congr 1
      exact List.filter_eq_self.mpr fun name member =>
        decide_eq_true ⟨(proper name member).nonempty, (proper name member).notDot⟩

/-- A relative path joined to an absolute one. -/
theorem child_pathOf {base : Path} (proper : ProperPath base) {path : Text}
    (relative : path.head? ≠ some slash) :
    child (pathOf base) path = slash :: joined (base ++ solid (components path)) := by
  obtain ⟨tail, joined_eq, single, parts⟩ := join_pathOf proper relative
  unfold child pathText
  rw [joined_eq, root_slash single, components_slash]
  have same : ([] :: components tail).filter (fun component => component ≠ [] ∧ component ≠ dot) =
      base ++ solid (components path) := parts
  rw [same]
  rfl

/-- Where the components of a path start. -/
def startOf (cwd : Path) (path : Text) : Path := if isAbsolute path then [] else cwd

/-- An absolute path keeps one slash at its front, or two. -/
theorem abspath_pathOf {cwd : Path} (proper : ProperPath cwd) (path : Text) :
    abspath (pathOf cwd) path = pathOf (lexical (startOf cwd path) (components path)) ∨
      abspath (pathOf cwd) path =
        slash :: pathOf (lexical (startOf cwd path) (components path)) := by
  have rooted (whole : Text) (absolute : isAbsolute whole = true) :
      normpath whole = pathOf (lexical [] (components whole)) ∨
        normpath whole = slash :: pathOf (lexical [] (components whole)) := by
    rw [normpath_rooted absolute]
    unfold root
    rw [if_neg (by rw [absolute]; decide)]
    split
    · exact .inr rfl
    · exact .inl rfl
  unfold abspath startOf
  by_cases absolute : isAbsolute path = true
  · rw [if_pos absolute, if_pos absolute]
    exact rooted path absolute
  · rw [if_neg absolute, if_neg absolute]
    have relative : path.head? ≠ some slash := fun leading => absolute (beq_iff_eq.mpr leading)
    obtain ⟨tail, joins, -, parts⟩ := join_pathOf proper relative
    have walk : lexical [] (components (slash :: tail)) = lexical cwd (components path) := by
      calc lexical [] (components (slash :: tail))
          = lexical [] (components tail) := by rw [components_slash]; rfl
        _ = lexical [] (cwd ++ solid (components path)) := by rw [← lexical_solid, parts]
        _ = lexical cwd (components path) := by
            rw [lexical_append, lexical_proper [] proper, lexical_solid]
            rfl
    rw [joins, ← walk]
    exact rooted (slash :: tail) rfl

variable {base start : Path} {path : Text}

/-- The components of a path relative to a directory, for a path below another one. -/
theorem tailComponents_child (cwd : Text) (proper : ProperPath base)
    (relative : path.head? ≠ some slash) :
    tailComponents cwd (child (pathOf base) path) = lexical base (components path) := by
  have clean := proper.solidParts.append (solidParts_solid (noSlash_of_mem_components path))
  rw [child_pathOf proper relative, tailComponents_absolute cwd clean, lexical_append,
    lexical_proper [] proper, lexical_solid]
  rfl

theorem solidParts_relativeComponents {path : Path} (proper : ProperPath path) (start : Path) :
    SolidParts (relativeComponents path start) := by
  intro part member
  rcases List.mem_append.mp member with up | down
  · rw [List.eq_of_mem_replicate up]
    decide
  · exact proper.solidParts part (List.mem_of_mem_drop down)

/-- What a relative path says, component by component. -/
theorem components_relpath {cwd : Text} (start : Text)
    (proper : ProperPath (tailComponents cwd path)) :
    components (relpath cwd path start) =
      let relative := relativeComponents (tailComponents cwd path) (tailComponents cwd start)
      if relative = [] then [dot] else relative := by
  have clean := solidParts_relativeComponents proper (tailComponents cwd start)
  unfold relpath
  by_cases here : relativeComponents (tailComponents cwd path) (tailComponents cwd start) = []
  · simp only [here, ↓reduceIte]
    decide
  · simp only [here, ↓reduceIte]
    exact components_joined (fun part member => (clean part member).2.2) here

theorem head?_relpath {cwd start : Text} (proper : ProperPath (tailComponents cwd path)) :
    (relpath cwd path start).head? ≠ some slash := by
  unfold relpath
  by_cases here : relativeComponents (tailComponents cwd path) (tailComponents cwd start) = []
  · simp only [here, ↓reduceIte]
    decide
  · simp only [here, ↓reduceIte]
    exact head?_joined (solidParts_relativeComponents proper _)

theorem properPath_lexical_child (proper : ProperPath base) (path : Text) :
    ProperPath (lexical base (components path)) :=
  lexical_properPath proper (noSlash_of_mem_components path)

/-- The path from a directory to a place below another one is relative. -/
theorem head?_relpath_child (cwd : Text) (properBase : ProperPath base)
    (relative : path.head? ≠ some slash) :
    (relpath cwd (child (pathOf base) path) (pathOf start)).head? ≠ some slash := by
  apply head?_relpath
  rw [tailComponents_child cwd properBase relative]
  exact properPath_lexical_child properBase path

theorem components_relpath_child (cwd : Text) (properBase : ProperPath base)
    (properStart : ProperPath start) (relative : path.head? ≠ some slash) :
    components (relpath cwd (child (pathOf base) path) (pathOf start)) =
      if relativeComponents (lexical base (components path)) start = [] then [dot]
      else relativeComponents (lexical base (components path)) start := by
  have destination := tailComponents_child cwd properBase relative
  rw [components_relpath, destination, tailComponents_pathOf cwd properStart]
  rw [destination]
  exact properPath_lexical_child properBase path

/-- It leads to its destination and stays below whatever both have in common. -/
theorem within_relpath_child (cwd : Text) (properBase : ProperPath base)
    (properStart : ProperPath start) (relative : path.head? ≠ some slash) {ancestor : Path}
    (inStart : ancestor <+: start) (inPath : ancestor <+: lexical base (components path)) :
    Within ancestor start (components (relpath cwd (child (pathOf base) path) (pathOf start))) := by
  have within := within_relativeComponents (properPath_lexical_child properBase path) inPath inStart
  rw [components_relpath_child cwd properBase properStart relative]
  split
  · exact within_cons.mpr ⟨inStart, within_nil.mpr inStart⟩
  · exact within

end Texts

end PosixPath

end Foundation
