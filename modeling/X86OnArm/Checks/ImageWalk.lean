import X86OnArm.Foundation.FileTree

/-! # The walks of the image's check

The check of a built image follows links itself, with the image's directory as the root. Two
slashes in front are a root of their own for it, the host's, and a link from there may come
back. Without them it finds what a process finds that has this root directory, unless the walk
steps above it, and where links take their steps to the parent first it finds nothing else
(`resolve_kernel`).
-/

namespace X86OnArm.Checks

open Foundation PosixPath

universe u

/-- Why the check fails at a path. -/
inductive Refusal where
  | aboveRoot
  | links
  | absent
  | outside
  deriving DecidableEq

/-- `Path(path).parts`. -/
def parts (path : Text) : List Text :=
  (if isAbsolute path then [PosixPath.root path] else []) ++ solid (components path)

/-- Where the loop is: a path of the host's tree, and whether it has come there from the root
that two slashes name. -/
structure Place where
  fromHost : Bool
  path : Path
  deriving DecidableEq

/-- A place of the image. -/
def Place.image (path : Path) : Place := ⟨false, path⟩

/-- Why a walk is over: where it has arrived, or a refusal. -/
abbrev Found := Except Refusal Place

section Code

variable {γ : Type u} (fs : FileSystem γ) (root : Path)

/-- The loop of `resolve`, with `follow` for the links it meets. -/
def walkParts (follow : Place → Text → List Text → Found) : Place → List Text → Found
  | result, [] => .ok result
  | result, part :: rest =>
      if part = [slash] then walkParts follow (.image root) rest
      -- `result / "//"` is the host's root
      else if part = [slash, slash] then walkParts follow ⟨true, []⟩ rest
      else if part = dotDot then
        if result = .image root then .error .aboveRoot
        else walkParts follow { result with path := result.path.dropLast } rest
      else match fs.get? (result.path ++ [part]) with
        | some (.link target) => follow result target rest
        | some (.directory _) | some (.file _) | none =>
            walkParts follow { result with path := result.path ++ [part] } rest

/-- The loop, with so many links left. -/
def walkLinks : Nat → Place → List Text → Found
  | 0 => walkParts fs root fun _ _ _ => .error .links
  | links + 1 => walkParts fs root fun result target rest =>
      walkLinks links result (parts target ++ rest)

def resolve (path : Text) : Except Refusal Path := do
  let result ← walkLinks fs root 99 (.image root) (parts path)
  if (fs.get? result.path).isNone then throw .absent
  -- a path from the host's root is not relative to the image's
  if result.fromHost then throw .outside
  return result.path

/-- What a process sees whose root directory this is. -/
def chroot : PathTree γ := fun path => fs.get? (root ++ path)

end Code

/-- The target does not start with exactly two slashes. -/
def SingleRoot (target : Text) : Prop := PosixPath.root target ≠ [slash, slash]

instance (target : Text) : Decidable (SingleRoot target) :=
  inferInstanceAs (Decidable (_ ≠ _))

/-- Steps to the parent come before the names. -/
def Forward (components : List Text) : Prop :=
  ∃ front names, components = front ++ names ∧
    (∀ component ∈ front, component = [] ∨ component = dot ∨ component = dotDot) ∧
    ProperPath names

section Walks

variable {γ : Type u} {fs : FileSystem γ} {root real : Path} {position : Path}
  {place : Place} {component target : Text}
  {rest : List Text} {links : Nat}

theorem walkLinks_cons (links : Nat) (place : Place) (component : Text) (rest : List Text) :
    walkLinks fs root links place (component :: rest) =
      if component = [slash] then walkLinks fs root links (.image root) rest
      else if component = [slash, slash] then walkLinks fs root links ⟨true, []⟩ rest
      else if component = dotDot then
        if place = .image root then .error .aboveRoot
        else walkLinks fs root links { place with path := place.path.dropLast } rest
      else match fs.get? (place.path ++ [component]) with
        | some (.link target) => match links with
          | 0 => .error .links
          | links + 1 => walkLinks fs root links place (parts target ++ rest)
        | some (.directory _) | some (.file _) | none =>
            walkLinks fs root links { place with path := place.path ++ [component] } rest := by
  cases links <;> rfl

theorem walkLinks_nil (links : Nat) (place : Place) :
    walkLinks fs root links place [] = .ok place := by
  cases links <;> rfl

theorem image_eq_root {below : Path} : Place.image (root ++ below) = .image root ↔ below = [] := by
  unfold Place.image
  rw [Place.mk.injEq, and_iff_right rfl, List.append_right_eq_self]

/-- A step to the parent, below the root. -/
theorem walkLinks_dotDot (links : Nat) (below : Path) (rest : List Text) :
    walkLinks fs root links (.image (root ++ below)) (dotDot :: rest) =
      if below = [] then .error .aboveRoot
      else walkLinks fs root links (.image (root ++ below.dropLast)) rest := by
  rw [walkLinks_cons, if_neg (by decide), if_neg (by decide), if_pos rfl]
  by_cases top : below = []
  · rw [if_pos top, if_pos (image_eq_root.mpr top)]
  · rw [if_neg top, if_neg (mt image_eq_root.mp top)]
    change walkLinks fs root links (.image (root ++ below).dropLast) rest = _
    rw [List.dropLast_append_of_ne_nil top]

theorem walkLinks_name (proper : ProperName component) :
    walkLinks fs root links (.image position) (component :: rest) =
      match fs.get? (position ++ [component]) with
        | some (.link target) => match links with
          | 0 => .error .links
          | links + 1 => walkLinks fs root links (.image position) (parts target ++ rest)
        | some (.directory _) | some (.file _) | none =>
            walkLinks fs root links (.image (position ++ [component])) rest := by
  have single : component ≠ [slash] := by
    rintro rfl
    exact proper.noSlash List.mem_cons_self
  have double : component ≠ [slash, slash] := by
    rintro rfl
    exact proper.noSlash List.mem_cons_self
  rw [walkLinks_cons, if_neg single, if_neg double, if_neg proper.notDotDot]
  rfl

/-- The check reads a link as a process does, but for two slashes in front. -/
theorem walkLinks_parts (links : Nat) (below : Path) (single : SingleRoot target)
    (rest : List Text) :
    walkLinks fs root links (.image (root ++ below)) (parts target ++ rest) =
      walkLinks fs root links (.image (root ++ (kernelReading below target).1))
        (solid (kernelReading below target).2 ++ rest) := by
  unfold SingleRoot at single
  unfold parts kernelReading
  unfold PosixPath.root at single ⊢
  cases absolute : isAbsolute target with
  | true =>
      simp only [absolute, Bool.not_true, Bool.false_eq_true, if_false, if_true] at single ⊢
      split at single
      · exact absurd rfl single
      · rename_i one
        rw [if_neg one]
        change walkLinks fs root links (.image (root ++ below)) ([slash] :: _) = _
        rw [walkLinks_cons, if_pos rfl, List.append_nil]
        rfl
  | false =>
      simp only [Bool.false_eq_true, if_false]
      rfl

theorem resolve_eq (fs : FileSystem γ) (root : Path) {path : Text} (single : SingleRoot path) :
    resolve fs root path =
      (walkLinks fs root 99 (.image root) (solid (components path))).bind fun result =>
        if (fs.get? result.path).isNone then .error .absent
        else if result.fromHost then .error .outside else .ok result.path := by
  have whole := @walkLinks_parts _ fs root path 99 [] single []
  have top : (kernelReading [] path).1 = [] := ite_self []
  simp only [List.append_nil, top] at whole
  unfold resolve
  rw [whole]
  rfl

/-- Where the walk arrives in the image, the check looks whether anything is there. -/
theorem resolve_of_arrives {path : Text} (single : SingleRoot path) {result : Path}
    (arrives : walkLinks fs root 99 (.image root) (solid (components path)) =
      .ok (.image result)) :
    resolve fs root path =
      if (fs.get? result).isSome then .ok result else .error .absent := by
  rw [resolve_eq fs root single, arrives]
  change (if (fs.get? result).isNone then Except.error Refusal.absent else .ok result) = _
  cases fs.get? result with
  | none => rfl
  | some entry => rfl

theorem solid_cons_idle (idle : component = [] ∨ component = dot) :
    solid (component :: rest) = solid rest := by
  unfold solid
  rw [List.filter_cons_of_neg]
  rw [decide_eq_true_eq, not_and_or, not_not, not_not]
  exact idle

theorem solid_cons_busy (busy : ¬ (component = [] ∨ component = dot)) :
    solid (component :: rest) = component :: solid rest := by
  unfold solid
  rw [List.filter_cons_of_pos]
  exact decide_eq_true (not_or.mp busy)

theorem solid_append (first second : List Text) :
    solid (first ++ second) = solid first ++ solid second :=
  List.filter_append ..

theorem solid_of_proper (proper : ProperPath rest) : solid rest = rest :=
  List.filter_eq_self.mpr fun name member =>
    decide_eq_true ⟨(proper name member).nonempty, (proper name member).notDot⟩

theorem proper_of_stored {entry : Entry γ}
    (stored : fs.get? (position ++ [component]) = some entry) : ProperName component :=
  fs.proper_of_get? stored component (List.mem_append_right _ List.mem_cons_self)

/-- Where a process arrives the check arrives, if it does not step above the image. -/
theorem walkLinks_of_leads
    (single : ∀ path target, chroot fs root path = some (.link target) → SingleRoot target)
    (leads : PathTree.Leads (chroot fs root) kernelReading links position rest real) :
    walkLinks fs root links (.image (root ++ position)) (solid rest) =
        .ok (.image (root ++ real)) ∨
      walkLinks fs root links (.image (root ++ position)) (solid rest) = .error .aboveRoot := by
  induction leads with
  | arrived => exact .inl (walkLinks_nil _ _)
  | stay isDirectory idle later ih => rwa [solid_cons_idle idle]
  | up isDirectory later ih =>
      rw [solid_cons_busy (by decide), walkLinks_dotDot]
      split
      · exact .inr rfl
      · exact ih
  | @down _ position _ name _ entry isDirectory busy notUp stored notLink later ih =>
      have held : fs.get? (root ++ position ++ [name]) = some entry := by
        rw [List.append_assoc]
        exact stored
      rw [solid_cons_busy busy, walkLinks_name (proper_of_stored held), held]
      rw [← List.append_assoc] at ih
      cases entry with
      | directory writable => exact ih
      | file contents => exact ih
      | link target => exact absurd rfl (notLink target)
  | @link _ position _ name target _ isDirectory busy notUp stored later ih =>
      have held : fs.get? (root ++ position ++ [name]) = some (.link target) := by
        rw [List.append_assoc]
        exact stored
      rw [solid_cons_busy busy, walkLinks_name (proper_of_stored held), held]
      simp only
      rwa [walkLinks_parts _ _ (single _ _ stored), ← solid_append]

theorem isDirectory_chroot {below : Path} :
    (chroot fs root).isDirectory below = true ↔ fs.IsDirectory (root ++ below) :=
  PathTree.isDirectory_iff

theorem isDirectory_dropLast {below : Path} (isDirectory : fs.IsDirectory (root ++ below)) :
    fs.IsDirectory (root ++ below.dropLast) := by
  by_cases top : below = []
  · subst top
    exact isDirectory
  · obtain ⟨writable, stored⟩ := isDirectory
    rw [← List.dropLast_append_getLast top, ← List.append_assoc] at stored
    exact fs.isDirectory_of_below (List.cons_ne_nil _ []) stored

/-- A link is read from a directory. -/
theorem isDirectory_reading (isRoot : fs.IsDirectory root) {below : Path}
    (isDirectory : fs.IsDirectory (root ++ below)) (target : Text) :
    fs.IsDirectory (root ++ (kernelReading below target).1) := by
  unfold kernelReading
  split
  · rw [List.append_nil]
    exact isRoot
  · exact isDirectory

/-- The end of a walk has an entry. -/
theorem present_of_leads (isRoot : fs.IsDirectory root)
    (leads : PathTree.Leads (chroot fs root) kernelReading links position rest real)
    (present : ∃ entry, fs.get? (root ++ position) = some entry) :
    ∃ entry, fs.get? (root ++ real) = some entry := by
  induction leads with
  | arrived => exact present
  | stay isDirectory idle later ih => exact ih present
  | up isDirectory later ih =>
      exact ih (isDirectory_dropLast (isDirectory_chroot.mp isDirectory)).present
  | down isDirectory busy notUp stored notLink later ih => exact ih ⟨_, stored⟩
  | link isDirectory busy notUp stored later ih =>
      exact ih (isDirectory_reading isRoot (isDirectory_chroot.mp isDirectory) _).present

/-- Below what is no directory the check goes on by names alone. -/
theorem walkLinks_lost (links : Nat) {names : Path} (proper : ProperPath names)
    (lost : ¬ fs.IsDirectory position) :
    walkLinks fs root links (.image position) names = .ok (.image (position ++ names)) := by
  induction names generalizing position with
  | nil => rw [walkLinks_nil, List.append_nil]
  | cons name names ih =>
      have nothing : fs.get? (position ++ [name]) = none :=
        fs.get?_below_of_not_isDirectory lost (List.cons_ne_nil _ _)
      have deeper : ¬ fs.IsDirectory (position ++ [name]) := by
        rintro ⟨writable, stored⟩
        exact Option.some_ne_none _ (stored.symm.trans nothing)
      rw [walkLinks_name (proper name List.mem_cons_self), nothing]
      change walkLinks fs root links (.image (position ++ [name])) names = _
      rw [ih (fun other later => proper other (List.mem_cons_of_mem _ later)) deeper,
        List.append_assoc]
      rfl

theorem Forward.tail (forward : Forward (component :: rest)) : Forward rest := by
  obtain ⟨front, names, parts, idle, proper⟩ := forward
  cases front with
  | nil =>
      cases names with
      | nil => exact absurd parts (List.cons_ne_nil _ _)
      | cons name names =>
          obtain ⟨-, rfl⟩ := List.cons.inj parts
          refine ⟨[], rest, rfl, fun _ none => absurd none List.not_mem_nil, ?_⟩
          exact fun other later => proper other (List.mem_cons_of_mem _ later)
  | cons first front =>
      obtain ⟨-, rfl⟩ := List.cons.inj parts
      exact ⟨front, names, rfl, fun other later => idle other (List.mem_cons_of_mem _ later),
        proper⟩

/-- Once a name has come there are only names. -/
theorem Forward.names (forward : Forward (component :: rest))
    (busy : ¬ (component = [] ∨ component = dot)) (notUp : component ≠ dotDot) :
    ProperPath (component :: rest) := by
  obtain ⟨front, names, parts, idle, proper⟩ := forward
  cases front with
  | nil => exact parts ▸ proper
  | cons first front =>
      obtain ⟨rfl, -⟩ := List.cons.inj parts
      rcases idle component List.mem_cons_self with empty | single | up
      · exact absurd (.inl empty) busy
      · exact absurd (.inr single) busy
      · exact absurd up notUp

theorem Forward.append {components : List Text} (forward : Forward components)
    (proper : ProperPath rest) : Forward (components ++ rest) := by
  obtain ⟨front, names, rfl, idle, named⟩ := forward
  refine ⟨front, names ++ rest, List.append_assoc _ _ _, idle, ?_⟩
  intro name member
  exact (List.mem_append.mp member).elim (named name) (proper name)

/-- Where the check arrives a process arrives, if steps to the parent come first. -/
theorem leads_of_walkLinks {below : Path} (isRoot : fs.IsDirectory root)
    (forward : Forward rest)
    (linksForward : ∀ path target, chroot fs root path = some (.link target) →
      SingleRoot target ∧ Forward (components target))
    (isDirectory : fs.IsDirectory (root ++ below))
    (found : walkLinks fs root links (.image (root ++ below)) (solid rest) = .ok place)
    (present : (fs.get? place.path).isSome) :
    ∃ stop, place = .image (root ++ stop) ∧
      PathTree.Leads (chroot fs root) kernelReading links below rest stop := by
  induction links, below, rest using PathTree.walk_induction with
  | arrived links below =>
      rw [show solid [] = [] from rfl, walkLinks_nil] at found
      exact ⟨below, (Except.ok.inj found).symm, .arrived⟩
  | step links below component rest along fewer =>
      have here := isDirectory_chroot.mpr isDirectory
      by_cases idle : component = [] ∨ component = dot
      · rw [solid_cons_idle idle] at found
        obtain ⟨stop, same, leads⟩ := along below forward.tail isDirectory found
        exact ⟨stop, same, .stay here idle leads⟩
      rw [solid_cons_busy idle] at found
      by_cases up : component = dotDot
      · subst up
        rw [walkLinks_dotDot] at found
        split at found
        · cases found
        · obtain ⟨stop, same, leads⟩ :=
            along _ forward.tail (isDirectory_dropLast isDirectory) found
          exact ⟨stop, same, .up here leads⟩
      have proper := forward.names idle up
      have later : ProperPath rest := fun name member => proper name (List.mem_cons_of_mem _ member)
      rw [walkLinks_name (proper component List.mem_cons_self), List.append_assoc] at found
      cases stored : fs.get? (root ++ (below ++ [component])) with
      | none =>
          have lost : ¬ fs.IsDirectory (root ++ (below ++ [component])) := by
            rintro ⟨writable, directory⟩
            exact Option.some_ne_none _ (directory.symm.trans stored)
          rw [stored, solid_of_proper later] at found
          have same := Except.ok.inj ((walkLinks_lost links later lost).symm.trans found)
          rw [← same] at present
          change (fs.get? (root ++ (below ++ [component]) ++ rest)).isSome at present
          rw [fs.get?_below_of_none stored] at present
          cases present
      | some entry =>
          rw [stored] at found
          cases entry with
          | directory writable =>
              have plain (target : Text) : Entry.directory writable ≠ (.link target : Entry γ) := by
                intro same
                cases same
              obtain ⟨stop, same, leads⟩ := along _ forward.tail ⟨writable, stored⟩ found
              exact ⟨stop, same, .down here idle up stored plain leads⟩
          | file contents =>
              have plain (target : Text) : Entry.file contents ≠ (.link target : Entry γ) := by
                intro same
                cases same
              have lost : ¬ fs.IsDirectory (root ++ (below ++ [component])) := by
                rintro ⟨writable, directory⟩
                cases directory.symm.trans stored
              rw [solid_of_proper later] at found
              have same := Except.ok.inj ((walkLinks_lost links later lost).symm.trans found)
              cases rest with
              | nil =>
                  rw [List.append_nil] at same
                  exact ⟨_, same.symm, .down here idle up stored plain .arrived⟩
              | cons name rest =>
                  rw [← same] at present
                  change (fs.get? (root ++ (below ++ [component]) ++ name :: rest)).isSome
                    at present
                  rw [fs.get?_below_of_not_isDirectory lost (List.cons_ne_nil _ _)] at present
                  cases present
          | link target =>
              cases links with
              | zero => cases found
              | succ links =>
                  obtain ⟨single, ahead⟩ := linksForward _ _ stored
                  simp only at found
                  rw [walkLinks_parts _ _ single, ← solid_append] at found
                  obtain ⟨stop, same, leads⟩ := fewer links rfl _ _ (ahead.append later)
                    (isDirectory_reading isRoot isDirectory target) found
                  exact ⟨stop, same, .link here idle up stored leads⟩

theorem resolve_eq_ok {path : Text} {result : Path} (single : SingleRoot path)
    (found : resolve fs root path = .ok result) :
    ∃ arrival : Place, result = arrival.path ∧ (fs.get? arrival.path).isSome ∧
      walkLinks fs root 99 (.image root) (solid (components path)) = .ok arrival := by
  rw [resolve_eq fs root single] at found
  cases arrived : walkLinks fs root 99 (.image root) (solid (components path)) with
  | error refusal =>
      rw [arrived] at found
      cases found
  | ok arrival =>
      rw [arrived] at found
      change (if (fs.get? arrival.path).isNone then Except.error Refusal.absent
        else if arrival.fromHost then .error .outside else .ok arrival.path) = _ at found
      split at found
      · cases found
      split at found
      · cases found
      rename_i present _
      cases found
      exact ⟨arrival, rfl, Option.isSome_iff_ne_none.mpr (mt Option.isNone_iff_eq_none.mpr present),
        rfl⟩

/-- What a process finds, the check finds or fails. -/
theorem resolve_of_leads (isRoot : fs.IsDirectory root) {path : Text} (single : SingleRoot path)
    (linksSingle : ∀ place target, chroot fs root place = some (.link target) → SingleRoot target)
    {stop : Path} (leads : (chroot fs root).Leads kernelReading 99 [] (components path) stop) :
    resolve fs root path = .ok (root ++ stop) ∨ resolve fs root path = .error .aboveRoot := by
  have top : ∃ entry, fs.get? (root ++ []) = some entry := by
    rw [List.append_nil]
    exact isRoot.present
  have arrives := walkLinks_of_leads linksSingle leads
  rw [List.append_nil] at arrives
  rcases arrives with found | above
  · obtain ⟨entry, present⟩ := present_of_leads isRoot leads top
    rw [resolve_of_arrives single found, if_pos (Option.isSome_of_eq_some present)]
    exact .inl rfl
  · rw [resolve_eq fs root single, above]
    exact .inr rfl

end Walks

/-- A host with a small image on it. -/
def binEntries : Dict Path (Entry Unit) where
  entries := [
    ([], .directory true),
    ([text "image"], .directory true),
    ([text "image", text "usr"], .directory true),
    ([text "image", text "usr", text "sh"], .file ()),
    ([text "image", text "usr", text "up"], .link (text "../../usr")),
    ([text "image", text "bin"], .link (text "/usr")),
    ([text "back"], .link (text "/usr"))]
  nodup := by decide +kernel

def binHost : FileSystem Unit := FileSystem.ofEntries binEntries (by decide +kernel)

/-- A process stays at the top where the check fails. -/
example : resolve binHost [text "image"] (text "/usr/up/sh") = .error .aboveRoot ∧
    (chroot binHost [text "image"]).resolveWith kernelReading 99 []
      (components (text "/usr/up/sh")) = some [text "usr", text "sh"] := by decide +kernel

/-- From the host's root a link of the host leads back into the image. -/
example : resolve binHost [text "image"] (text "//back/sh") =
    .ok [text "image", text "usr", text "sh"] := by decide +kernel

theorem forward_bin : Forward (components (text "/bin/sh")) :=
  ⟨[[]], [text "bin", text "sh"], by decide, by decide, by decide⟩

theorem linksForward_bin (place : Path) (target : Text)
    (linked : chroot binHost [text "image"] place = some (.link target)) :
    SingleRoot target ∧ Forward (components target) := by
  have stored : binEntries.get? ([text "image"] ++ place) = some (.link target) := linked
  have listed : target ∈ binEntries.entries.filterMap fun entry => entry.2.target? :=
    List.mem_filterMap.mpr ⟨_, Dict.mem_entries.mpr stored, rfl⟩
  have targets : (binEntries.entries.filterMap fun entry => entry.2.target?) =
      [text "../../usr", text "/usr", text "/usr"] := by decide +kernel
  rw [targets] at listed
  have either : target = text "../../usr" ∨ target = text "/usr" := by simpa using listed
  rcases either with rfl | rfl
  · exact ⟨by decide, [dotDot, dotDot], [text "usr"], by decide, by decide, by decide⟩
  · exact ⟨by decide, [[]], [text "usr"], by decide, by decide, by decide⟩

end X86OnArm.Checks
