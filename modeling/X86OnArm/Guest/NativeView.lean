import X86OnArm.Foundation.MountNamespace

/-! # The native view of the machine

Before a session starts, the machine gets its own `/usr`, `/bin` and `/etc`, and the host's
driver alias becomes a mount point. `prepareView` is the end of the script that does so, once
the tree to show stands ready.
-/

namespace X86OnArm.Guest

open Foundation Foundation.PosixPath

variable {Device γ : Type} [DecidableEq Device]

/-- `mount --bind`, the kernel following both paths. -/
def mountBind (source destination : List Text) (space : Namespace Device γ) :
    Option (Namespace Device γ) := do
  let source ← space.resolve source
  let destination ← space.resolve destination
  space.bind source destination

def driverAlias : Text := text "/run/opengl-driver"

/-- The directory that the driver alias leads to, if it leads to one. -/
def driverDirectory (space : Namespace Device γ) : Option Path :=
  (space.resolve (components driverAlias)).filter space.view.isDirectory

/-- Turn the host's driver alias into a mount point of what it leads to. -/
def nativeDriver (space : Namespace Device γ) : Option (Namespace Device γ) :=
  match space.resolve (components (text "/run")) with
  | none => some space
  | some run =>
      match space.view (run ++ [text "opengl-driver"]), driverDirectory space with
      | some (.link _), some driver => do
          let space ← space.linkToDirectory run (text "opengl-driver")
          mountBind driver (components driverAlias) space
      | _, _ => some space

def prepareView (space : Namespace Device γ) : Option (Namespace Device γ) := do
  let space ← nativeDriver space
  let space ← mountBind (components (text "/run/x86-on-arm/fhs/usr"))
    (components (text "/usr")) space
  let space ← mountBind (components (text "/run/x86-on-arm/fhs/usr/bin"))
    (components (text "/bin")) space
  mountBind (components (text "/run/x86-on-arm/fhs/etc")) (components (text "/etc")) space

/-- Where the script lays out the tree to show. -/
def workPath : Path := [text "run", text "x86-on-arm", text "fhs"]

def driverPath : Path := [text "run", text "opengl-driver"]

section Steps

variable {space : Namespace Device γ} {source destination : Path}

omit [DecidableEq Device] in
/-- A directory's real path leads to it, also with a slash in front. -/
theorem resolve_real (real : space.view.Real source)
    (isDirectory : space.view.isDirectory source = true) : space.resolve source = some source :=
  ((real.leads isDirectory).more (Nat.zero_le _)).resolves

omit [DecidableEq Device] in
theorem resolve_slash (path : List Text) : space.resolve ([] :: path) = space.resolve path := by
  unfold Namespace.resolve
  rw [PathTree.resolveWith_cons, if_neg (not_not.mpr space.isDirectory_top), if_pos (.inl rfl)]

/-- What a bind mount of a directory with nothing mounted below it changes. -/
structure Bound (space next : Namespace Device γ) (source destination : Path) : Prop where
  shows : ∀ below, next.view (destination ++ below) = space.view (source ++ below)
  keeps : ∀ path, ¬ destination <+: path → next.view path = space.view path
  bare : ∀ path, ¬ path <+: destination → space.Bare path → next.Bare path

omit [DecidableEq Device] in
theorem mountBind_spec {origin target : List Text} (found : space.resolve origin = some source)
    (point : space.resolve target = some destination)
    (isSource : space.view.isDirectory source = true)
    (isDestination : space.view.isDirectory destination = true) :
    ∃ next place, mountBind origin target space = some next ∧
      space.locate source = some place ∧ next.device = space.device ∧
      next.mounts = space.mounts ++ [⟨place, destination⟩] ∧
      (∀ below, next.view (destination ++ below) =
        space.entryAt (place.1, place.2 ++ below)) ∧
      ∀ path, ¬ destination <+: path → next.view path = space.view path := by
  obtain ⟨next, place, bound, located, device, mounts, shown, kept⟩ :=
    Namespace.bind_spec isSource isDestination
  have entries : next.entryAt = space.entryAt := by
    funext place
    unfold Namespace.entryAt
    rw [device]
  refine ⟨next, place, ?_, located, device, mounts, ?_, ?_⟩
  · unfold mountBind
    rw [found, point]
    exact bound
  · intro below
    rw [Namespace.view_of_located (shown below), entries]
  · intro path outside
    unfold Namespace.view
    rw [kept path outside, entries]

omit [DecidableEq Device] in
theorem mountBind_bound {origin target : List Text} (found : space.resolve origin = some source)
    (point : space.resolve target = some destination)
    (isSource : space.view.isDirectory source = true)
    (isDestination : space.view.isDirectory destination = true) (bare : space.Bare source) :
    ∃ next, mountBind origin target space = some next ∧ Bound space next source destination := by
  obtain ⟨next, place, mounted, located, -, mounts, shown, kept⟩ :=
    mountBind_spec found point isSource isDestination
  refine ⟨next, mounted, ?_, kept, ?_⟩
  · intro below
    rw [shown below, Namespace.view_of_located (bare.locate located below)]
  · intro path apart clear mount member inside
    rw [mounts] at member
    rcases List.mem_append.mp member with old | new
    · exact clear mount old inside
    · rw [List.mem_singleton.mp new] at inside
      exact absurd inside apart

end Steps

section Driver

variable {space : Namespace Device γ}

theorem components_run : components (text "/run") = [[], text "run"] := by decide

theorem components_driverAlias : components driverAlias = [] :: driverPath := by decide

/-- The alias is seen at one path only. -/
def AliasAlone (space : Namespace Device γ) : Prop :=
  ∀ path, space.locate path = space.locate driverPath → path = driverPath

omit [DecidableEq Device] in
/-- A `/run` that is a file system of its own, mounted once. -/
theorem alone_of_private {device : Device} {inner : Path}
    (located : space.locate driverPath = some (device, inner))
    (once : ∀ mount ∈ space.mounts, mount.source.1 = device →
      mount = ⟨(device, []), [text "run"]⟩) : AliasAlone space := by
  intro path same
  rw [located] at same
  obtain ⟨mount, member, below, rfl, there, -⟩ := Namespace.locate_eq_some same
  obtain ⟨other, otherMember, rest, whole, here, -⟩ := Namespace.locate_eq_some located
  obtain rfl := once mount member (congrArg Prod.fst there).symm
  obtain rfl := once other otherMember (congrArg Prod.fst here).symm
  have equal : below = rest := (congrArg Prod.snd there).symm.trans (congrArg Prod.snd here)
  rw [whole, equal]

omit [DecidableEq Device] in
theorem real_run (space : Namespace Device γ) : space.view.Real [text "run"] :=
  .inside .top space.isDirectory_top (by decide) (by decide)

omit [DecidableEq Device] in
theorem real_driver (run : space.view.isDirectory [text "run"] = true) :
    space.view.Real driverPath := .inside (real_run space) run (by decide) (by decide)

omit [DecidableEq Device] in
theorem driverDirectory_eq_some {driver : Path} (leads : driverDirectory space = some driver) :
    space.view.isDirectory driver = true ∧ space.view.Real driver := by
  obtain ⟨resolved, isDirectory⟩ := Option.filter_eq_some_iff.mp leads
  exact ⟨isDirectory, (PathTree.leads_of_resolves resolved).real .top⟩

omit [DecidableEq Device] in
/-- Unless the alias is a link, it leads to itself. -/
theorem driverDirectory_self (run : space.view.isDirectory [text "run"] = true)
    (notLink : ∀ target, space.view driverPath ≠ some (.link target)) {driver : Path}
    (leads : driverDirectory space = some driver) : driver = driverPath := by
  obtain ⟨resolved, -⟩ := Option.filter_eq_some_iff.mp leads
  obtain ⟨writable, stored⟩ := PathTree.isDirectory_iff.mp run
  rw [components_driverAlias, resolve_slash, driverPath, Namespace.resolve,
    PathTree.resolveWith_cons, if_neg (not_not.mpr space.isDirectory_top), if_neg (by decide),
    if_neg (by decide), List.nil_append, stored] at resolved
  change space.view.resolveWith _ _ [text "run"] [text "opengl-driver"] = _ at resolved
  rw [PathTree.resolveWith_cons, if_neg (not_not.mpr run), if_neg (by decide),
    if_neg (by decide)] at resolved
  change (match space.view driverPath with
    | none => none
    | some (.link target) => space.view.resolveLink _ _ [text "run"] target []
    | some (.directory _) | some (.file _) =>
        space.view.resolveWith _ _ driverPath []) = some driver at resolved
  split at resolved
  · cases resolved
  · exact absurd ‹_› (notLink _)
  · rw [PathTree.resolveWith_nil] at resolved
    exact (Option.some.inj resolved).symm
  · rw [PathTree.resolveWith_nil] at resolved
    exact (Option.some.inj resolved).symm

/-- The alias is no link, such as a real directory, or leads to no directory. -/
def AliasKept (space : Namespace Device γ) : Prop :=
  (∀ target, space.view driverPath ≠ some (.link target)) ∨ driverDirectory space = none

/-- What the driver step leaves. -/
structure Driven (space next : Namespace Device γ) : Prop where
  keeps : ∀ path, ¬ driverPath <+: path → next.view path = space.view path
  bare : ∀ path, ¬ path <+: driverPath → space.Bare path → next.Bare path
  untouched : AliasKept space → next = space
  isDirectory : ∀ driver, driverDirectory space = some driver →
    next.view.isDirectory driverPath = true
  shows : ∀ driver, driverDirectory space = some driver → space.Bare driver → ∀ below,
    driver ++ below ≠ driverPath →
    next.view (driverPath ++ below) = space.view (driver ++ below)

/-- The directory that replaces the alias, wherever the link was seen. -/
theorem alias_made {target : Text} (run : space.view [text "run"] = some (.directory true))
    (alone : AliasAlone space) (linked : space.view driverPath = some (.link target)) :
    ∃ middle place, space.linkToDirectory [text "run"] (text "opengl-driver") = some middle ∧
      space.locate driverPath = some place ∧ middle.mounts = space.mounts ∧
      (∀ other, other ≠ place → middle.entryAt other = space.entryAt other) ∧
      middle.view driverPath = some (.directory true) ∧
      ∀ path, path ≠ driverPath → middle.view path = space.view path := by
  obtain ⟨middle, place, made, located, mounts, entries⟩ :=
    Namespace.linkToDirectory_spec run linked
  have located : space.locate driverPath = some place := located
  have same (path : Path) : middle.locate path = space.locate path := by
    unfold Namespace.locate
    rw [mounts]
  refine ⟨middle, place, made, located, mounts, ?_, ?_, ?_⟩
  · intro other different
    rw [entries, if_neg different]
  · rw [Namespace.view_of_located ((same _).trans located), entries, if_pos rfl]
  · intro path other
    unfold Namespace.view
    rw [same]
    cases found : space.locate path with
    | none => rfl
    | some there =>
        rw [Option.bind_some, Option.bind_some, entries, if_neg]
        rintro rfl
        exact other (alone path (found.trans located.symm))

/-- The alias is a link to a directory: this is mounted in its place. -/
theorem driven_link {target : Text} {driver : Path}
    (run : space.view [text "run"] = some (.directory true)) (alone : AliasAlone space)
    (linked : space.view driverPath = some (.link target))
    (leads : driverDirectory space = some driver) :
    ∃ middle next, space.linkToDirectory [text "run"] (text "opengl-driver") = some middle ∧
      mountBind driver (components driverAlias) middle = some next ∧ Driven space next := by
  obtain ⟨middle, place, made, located, mounts, entries, aliased, seen⟩ :=
    alias_made run alone linked
  have directories (path : Path) (before : space.view.isDirectory path = true) :
      middle.view.isDirectory path = true := by
    by_cases here : path = driverPath
    · exact PathTree.isDirectory_iff.mpr ⟨true, here ▸ aliased⟩
    · rwa [PathTree.isDirectory, seen path here]
  have runDirectory := directories _ (PathTree.isDirectory_iff.mpr ⟨true, run⟩)
  have aliasDirectory := PathTree.isDirectory_iff.mpr ⟨true, aliased⟩
  obtain ⟨isDirectory, real⟩ := driverDirectory_eq_some leads
  have found := resolve_real (real.mono directories) (directories driver isDirectory)
  have point : middle.resolve (components driverAlias) = some driverPath := by
    rw [components_driverAlias, resolve_slash]
    exact resolve_real (real_driver runDirectory) aliasDirectory
  obtain ⟨next, source, mounted, there, -, nextMounts, shown, kept⟩ :=
    mountBind_spec found point (directories driver isDirectory) aliasDirectory
  refine ⟨middle, next, made, mounted, ?_, ?_, ?_, ?_, ?_⟩
  · intro path outside
    rw [kept path outside]
    apply seen
    rintro rfl
    exact outside List.prefix_rfl
  · intro path apart clear mount member inside
    rw [nextMounts, mounts] at member
    rcases List.mem_append.mp member with old | new
    · exact clear mount old inside
    · rw [List.mem_singleton.mp new] at inside
      exact absurd inside apart
  · rintro (noLink | absent)
    · exact absurd linked (noLink target)
    · rw [leads] at absent
      cases absent
  · intro _ _
    have top := shown []
    rw [List.append_nil, List.append_nil, ← Namespace.view_of_located there] at top
    rw [PathTree.isDirectory, top]
    exact directories driver isDirectory
  · intro other same bare below different
    cases leads.symm.trans same
    have before : space.locate driver = some source := by
      unfold Namespace.locate at there ⊢
      rwa [mounts] at there
    have lies := bare.locate before below
    rw [shown below, Namespace.view_of_located lies, entries]
    intro equal
    rw [equal] at lies
    exact different (alone _ (lies.trans located.symm))

/-- The driver step ends, whatever the alias is. -/
theorem nativeDriver_spec (run : space.view [text "run"] = some (.directory true))
    (alone : AliasAlone space) :
    ∃ next, nativeDriver space = some next ∧ Driven space next := by
  have runDirectory : space.view.isDirectory [text "run"] = true :=
    PathTree.isDirectory_iff.mpr ⟨true, run⟩
  have found : space.resolve (components (text "/run")) = some [text "run"] := by
    rw [components_run, resolve_slash]
    exact resolve_real (real_run space) runDirectory
  have idle (notLink : AliasKept space) : Driven space space := by
    have self (driver : Path) (leads : driverDirectory space = some driver) :
        driver = driverPath := by
      rcases notLink with plain | absent
      · exact driverDirectory_self runDirectory plain leads
      · rw [leads] at absent
        cases absent
    refine ⟨fun _ _ => rfl, fun _ _ clear => clear, fun _ => rfl, ?_, ?_⟩
    · intro driver leads
      exact self driver leads ▸ (driverDirectory_eq_some leads).1
    · intro driver leads _ below _
      rw [self driver leads]
  have unfolded : nativeDriver space =
      match space.view driverPath, driverDirectory space with
      | some (.link _), some driver => do
          let space ← space.linkToDirectory [text "run"] (text "opengl-driver")
          mountBind driver (components driverAlias) space
      | _, _ => some space := by
    unfold nativeDriver
    rw [found]
    rfl
  rw [unfolded]
  split
  · rename_i target driver linked leads
    obtain ⟨middle, next, made, mounted, driven⟩ := driven_link run alone linked leads
    refine ⟨next, ?_, driven⟩
    rw [made]
    exact mounted
  · rename_i other
    refine ⟨space, rfl, idle ?_⟩
    by_cases absent : driverDirectory space = none
    · exact .inr absent
    · obtain ⟨driver, leads⟩ := Option.ne_none_iff_exists'.mp absent
      exact .inl fun target linked => other _ _ linked leads

end Driver

section View

variable {space next : Namespace Device γ} {source destination : Path}

def usr : Path := [text "usr"]

def usrBin : Path := [text "usr", text "bin"]

def bin : Path := [text "bin"]

def etc : Path := [text "etc"]

/-- Where `/bin` is: a directory of its own, or a link into `/usr`. -/
def BinLayout (space : Namespace Device γ) (place : Path) : Prop :=
  place = bin ∧ space.view.isDirectory bin = true ∨
    place = usrBin ∧ ∃ target, space.view bin = some (.link target) ∧
      (target = text "usr/bin" ∨ target = text "/usr/bin")

/-- The tree to show stands ready, with nothing mounted in it. -/
structure Standing (space : Namespace Device γ) : Prop where
  work : ∀ path, path <+: workPath ++ usrBin ∨ path <+: workPath ++ etc →
    space.view.isDirectory path = true
  bare : space.Bare workPath

/-- The machine before the script's last steps: its `/run` is its own. -/
structure Laid (space : Namespace Device γ) : Prop extends Standing space where
  run : space.view [text "run"] = some (.directory true)
  alone : AliasAlone space
  usr : space.view.isDirectory usr = true
  etc : space.view.isDirectory etc = true
  bin : ∃ place, BinLayout space place

omit [DecidableEq Device] in
theorem resolve_bin {place : Path} (layout : BinLayout space place)
    (usrDirectory : space.view.isDirectory usr = true)
    (usrBinDirectory : space.view.isDirectory usrBin = true) :
    space.resolve bin = some place ∧ space.view.isDirectory place = true := by
  have realUsr : space.view.Real usr :=
    .inside .top space.isDirectory_top (by decide) (by decide)
  rcases layout with ⟨rfl, isDirectory⟩ | ⟨rfl, target, linked, spelled⟩
  · have real : space.view.Real bin := .inside .top space.isDirectory_top (by decide) (by decide)
    exact ⟨resolve_real real isDirectory, isDirectory⟩
  · have real : space.view.Real usrBin := .inside realUsr usrDirectory (by decide) (by decide)
    have walk : space.view.Leads kernelReading 0 [] usrBin usrBin := real.leads usrBinDirectory
    refine ⟨?_, usrBinDirectory⟩
    have later : space.view.Leads kernelReading 0 (kernelReading [] target).1
        ((kernelReading [] target).2 ++ []) usrBin := by
      rcases spelled with rfl | rfl
      · have read : kernelReading [] (text "usr/bin") = ([], usrBin) := by decide
        rw [read, List.append_nil]
        exact walk
      · have read : kernelReading [] (text "/usr/bin") = ([], [] :: usrBin) := by decide
        rw [read, List.append_nil]
        exact .stay space.isDirectory_top (.inl rfl) walk
    have leads : space.view.Leads kernelReading 1 [] bin usrBin :=
      .link space.isDirectory_top (by decide) (by decide) linked later
    exact (leads.more (by decide)).resolves

theorem driver_not_work (below : Path) : ¬ driverPath <+: workPath ++ below := by
  intro inside
  exact absurd (List.cons_prefix_cons.mp (List.cons_prefix_cons.mp inside).2).1 (by decide)

theorem apart_of_head {first other : Text} (different : first ≠ other) {rest more : Path} :
    ¬ first :: rest <+: other :: more :=
  fun inside => different (List.cons_prefix_cons.mp inside).1

omit [DecidableEq Device] in
theorem bare_below (bare : space.Bare source) {below : Path} (proper : below ≠ []) :
    space.Bare (source ++ below) := by
  intro mount member inside
  have same := bare mount member ((List.prefix_append _ _).trans inside)
  rw [same] at inside
  have longer := inside.length_le
  have positive := List.length_pos_iff.mpr proper
  rw [List.length_append] at longer
  omega

/-- Neither the tree to show nor a directory above it is at the destination or below. -/
def Clear (destination : Path) : Prop := ∀ below, ¬ destination <+: workPath ++ below

omit [DecidableEq Device] in
theorem Standing.keep (standing : Standing space) (clear : Clear destination)
    (keeps : ∀ path, ¬ destination <+: path → next.view path = space.view path)
    (bare : next.Bare workPath) :
    Standing next ∧ ∀ below, next.view (workPath ++ below) = space.view (workPath ++ below) := by
  refine ⟨⟨?_, bare⟩, fun below => keeps _ (clear below)⟩
  intro path inside
  have same : next.view path = space.view path := by
    apply keeps
    rcases inside with inside | inside
    · exact fun covers => clear _ (covers.trans inside)
    · exact fun covers => clear _ (covers.trans inside)
  rw [PathTree.isDirectory, same]
  exact standing.work path inside

/-- What a bind mount of a directory of the tree changes. -/
structure MountedPart (space next : Namespace Device γ) (part destination : Path) : Prop where
  work : ∀ below, next.view (workPath ++ below) = space.view (workPath ++ below)
  shows : ∀ below, next.view (destination ++ below) = space.view (workPath ++ part ++ below)
  keeps : ∀ path, ¬ destination <+: path → next.view path = space.view path

omit [DecidableEq Device] in
theorem Standing.mount (standing : Standing space) (part : Path) {target : List Text}
    (inside : workPath ++ part <+: workPath ++ usrBin ∨ workPath ++ part <+: workPath ++ etc)
    (named : part ≠ []) (proper : ProperPath (workPath ++ part))
    (point : space.resolve target = some destination ∧
      space.view.isDirectory destination = true)
    (clear : Clear destination) :
    ∃ next, mountBind ([] :: (workPath ++ part)) target space = some next ∧ Standing next ∧
      MountedPart space next part destination := by
  have above (path : Path) (shorter : path <+: workPath ++ part) :
      space.view.isDirectory path = true :=
    standing.work path (inside.imp shorter.trans shorter.trans)
  have found : space.resolve ([] :: (workPath ++ part)) = some (workPath ++ part) := by
    rw [resolve_slash]
    apply resolve_real (.of_directories proper fun path shorter _ => above path shorter)
    exact above _ List.prefix_rfl
  obtain ⟨next, mounted, bound⟩ := mountBind_bound found point.1 (above _ List.prefix_rfl)
    point.2 (bare_below standing.bare named)
  have apart : ¬ workPath <+: destination := by
    rintro ⟨below, rfl⟩
    exact clear below List.prefix_rfl
  obtain ⟨stands, kept⟩ := standing.keep clear bound.keeps (bound.bare _ apart standing.bare)
  exact ⟨next, mounted, stands, kept, bound.shows, bound.keeps⟩

omit [DecidableEq Device] in
theorem MountedPart.top {part : Path} (mounted : MountedPart space next part destination)
    (isDirectory : space.view.isDirectory (workPath ++ part) = true) :
    next.view.isDirectory destination = true := by
  have shown := mounted.shows []
  rw [List.append_nil, List.append_nil] at shown
  rwa [PathTree.isDirectory, shown]

omit [DecidableEq Device] in
theorem resolve_top {name : Text} (proper : ProperName name)
    (isDirectory : space.view.isDirectory [name] = true) :
    space.resolve [[], name] = some [name] ∧ space.view.isDirectory [name] = true := by
  have real : space.view.Real [name] := .inside .top space.isDirectory_top
    (not_or.mpr ⟨proper.nonempty, proper.notDot⟩) proper.notDotDot
  exact ⟨(resolve_slash [name]).trans (resolve_real real isDirectory), isDirectory⟩

omit [DecidableEq Device] in
theorem BinLayout.apart {place : Path} (layout : BinLayout space place) :
    Clear place ∧ ¬ place <+: etc := by
  rcases layout with ⟨rfl, -⟩ | ⟨rfl, -⟩
  · exact ⟨fun _ => apart_of_head (by decide), by decide⟩
  · exact ⟨fun _ => apart_of_head (by decide), by decide⟩

omit [DecidableEq Device] in
theorem BinLayout.congr {place : Path} (layout : BinLayout space place)
    (same : next.view bin = space.view bin) : BinLayout next place := by
  rcases layout with ⟨here, isDirectory⟩ | ⟨here, target, linked, spelled⟩
  · refine .inl ⟨here, ?_⟩
    rwa [PathTree.isDirectory, same]
  · exact .inr ⟨here, target, same.trans linked, spelled⟩

omit [DecidableEq Device] in
/-- A mount on `/bin` leaves a link there as it is. -/
theorem BinLayout.mounted {place : Path} (layout : BinLayout space place)
    (mounted : MountedPart space next usrBin place) (standing : Standing space) :
    BinLayout next place := by
  rcases layout with ⟨rfl, -⟩ | ⟨rfl, linked⟩
  · exact .inl ⟨rfl, mounted.top (standing.work _ (.inl List.prefix_rfl))⟩
  · exact BinLayout.congr (.inr ⟨rfl, linked⟩) (mounted.keeps bin (by decide))

/-- The machine's own directories, and the rest as the driver step leaves it. -/
structure Prepared (space driven final : Namespace Device γ) (place : Path) : Prop where
  usr : ∀ below, final.view (usr ++ below) = space.view (workPath ++ usr ++ below)
  bin : ∀ below, final.view (place ++ below) = space.view (workPath ++ usrBin ++ below)
  etc : ∀ below, final.view (etc ++ below) = space.view (workPath ++ etc ++ below)
  rest : ∀ path, ¬ Guest.usr <+: path → ¬ Guest.bin <+: path → ¬ Guest.etc <+: path →
    final.view path = driven.view path

omit [DecidableEq Device] in
/-- The three mounts together: the one on `/bin` shows what `/usr/bin` shows. -/
theorem prepared {driven first second final : Namespace Device γ} {place : Path}
    (kept : ∀ below, driven.view (workPath ++ below) = space.view (workPath ++ below))
    (onUsr : MountedPart driven first usr usr) (onBin : MountedPart first second usrBin place)
    (onEtc : MountedPart second final etc etc) (layout : BinLayout final place) :
    Prepared space driven final place := by
  have parts (part below : Path) : first.view (workPath ++ part ++ below) =
      space.view (workPath ++ part ++ below) := by
    rw [List.append_assoc, onUsr.work, kept]
  have binShows (below : Path) : final.view (place ++ below) =
      space.view (workPath ++ usrBin ++ below) := by
    have outside : ¬ etc <+: place ++ below := by
      rcases layout with ⟨rfl, -⟩ | ⟨rfl, -⟩
      · exact apart_of_head (by decide)
      · exact apart_of_head (by decide)
    rw [onEtc.keeps _ outside, onBin.shows, parts]
  refine ⟨?_, binShows, ?_, ?_⟩
  · intro below
    by_cases within : place <+: usr ++ below
    · rcases layout with ⟨rfl, -⟩ | ⟨rfl, -⟩
      · exact absurd within (apart_of_head (by decide))
      · obtain ⟨rest, same⟩ := within
        have split : below = text "bin" :: rest := (List.cons.inj same).2.symm
        subst split
        exact binShows rest
    · have outside : ¬ etc <+: usr ++ below := apart_of_head (by decide)
      rw [onEtc.keeps _ outside, onBin.keeps _ within, onUsr.shows, List.append_assoc, kept]
  · intro below
    rw [onEtc.shows, List.append_assoc, onBin.work, onUsr.work, kept]
  · intro path notUsr notBin notEtc
    have notPlace : ¬ place <+: path := by
      rcases layout with ⟨rfl, -⟩ | ⟨rfl, -⟩
      · exact notBin
      · have inUsr : usr <+: usrBin := by decide
        exact fun covers => notUsr (inUsr.trans covers)
    rw [onEtc.keeps _ notEtc, onBin.keeps _ notPlace, onUsr.keeps _ notUsr]

theorem prepareView_spec (laid : Laid space) :
    ∃ driven final place, Driven space driven ∧ prepareView space = some final ∧
      BinLayout final place ∧ Prepared space driven final place := by
  obtain ⟨driven, ended, step⟩ := nativeDriver_spec laid.run laid.alone
  obtain ⟨place, layout⟩ := laid.bin
  obtain ⟨standing, kept⟩ := laid.toStanding.keep driver_not_work step.keeps
    (step.bare _ (by decide) laid.bare)
  have layout := layout.congr (step.keeps bin (by decide))
  have usrPoint : driven.view.isDirectory usr = true := by
    rw [PathTree.isDirectory, step.keeps usr (by decide)]
    exact laid.usr
  obtain ⟨first, mountUsr, standingUsr, onUsr⟩ :=
    standing.mount usr (.inl (by decide)) (by decide) (by decide)
      (resolve_top (by decide) usrPoint) fun _ => apart_of_head (by decide)
  have layout := layout.congr (onUsr.keeps bin (by decide))
  have usrShown := onUsr.top (standing.work _ (.inl (by decide)))
  have usrBinShown : first.view.isDirectory usrBin = true := by
    have shown : first.view usrBin = driven.view (workPath ++ usrBin) := onUsr.shows bin
    rw [PathTree.isDirectory, shown]
    exact standing.work _ (.inl List.prefix_rfl)
  obtain ⟨binFound, binPoint⟩ := resolve_bin layout usrShown usrBinShown
  obtain ⟨clear, notEtc⟩ := layout.apart
  obtain ⟨second, mountBin, standingBin, onBin⟩ :=
    standingUsr.mount usrBin (.inl List.prefix_rfl) (by decide) (by decide)
      ⟨(resolve_slash bin).trans binFound, binPoint⟩ clear
  have layout := layout.mounted onBin standingUsr
  have etcPoint : second.view.isDirectory etc = true := by
    rw [PathTree.isDirectory, onBin.keeps etc notEtc, onUsr.keeps etc (by decide),
      step.keeps etc (by decide)]
    exact laid.etc
  obtain ⟨final, mountEtc, -, onEtc⟩ :=
    standingBin.mount etc (.inr List.prefix_rfl) (by decide) (by decide)
      (resolve_top (by decide) etcPoint) fun _ => apart_of_head (by decide)
  have layout := layout.congr (onEtc.keeps bin (by decide))
  refine ⟨driven, final, place, step, ?_, layout, prepared kept onUsr onBin onEtc layout⟩
  have usrText : components (text "/run/x86-on-arm/fhs/usr") = [] :: (workPath ++ usr) := by decide
  have binText : components (text "/run/x86-on-arm/fhs/usr/bin") = [] :: (workPath ++ usrBin) := by
    decide
  have etcText : components (text "/run/x86-on-arm/fhs/etc") = [] :: (workPath ++ etc) := by decide
  have usrTarget : components (text "/usr") = [] :: usr := by decide
  have binTarget : components (text "/bin") = [] :: bin := by decide
  have etcTarget : components (text "/etc") = [] :: etc := by decide
  unfold prepareView
  rw [usrText, binText, etcText, usrTarget, binTarget, etcTarget, ended]
  change (mountBind ([] :: (workPath ++ usr)) ([] :: usr) driven).bind _ = _
  have mountUsr : mountBind ([] :: (workPath ++ usr)) ([] :: usr) driven = some first := mountUsr
  rw [mountUsr, Option.bind_some]
  change (mountBind ([] :: (workPath ++ usrBin)) ([] :: bin) first).bind _ = _
  rw [mountBin, Option.bind_some]
  exact mountEtc

/-- **The machine gets its own `/usr`, `/bin` and `/etc`.** The script ends; the tree it laid
out is then seen there, in `/bin` whether this is a directory or leads into `/usr`. A driver
alias that was a link to a directory is a directory that shows this one; any other, a real
directory among them, is left as it was, and so is every other path. -/
theorem prepareView_shows (laid : Laid space) :
    ∃ final, prepareView space = some final ∧
      (∀ below, final.view (usr ++ below) = space.view (workPath ++ usr ++ below)) ∧
      (∃ place, final.resolve bin = some place ∧
        ∀ below, final.view (place ++ below) = space.view (workPath ++ usrBin ++ below)) ∧
      (∀ below, final.view (etc ++ below) = space.view (workPath ++ etc ++ below)) ∧
      (AliasKept space →
        ∀ below, final.view (driverPath ++ below) = space.view (driverPath ++ below)) ∧
      (∀ driver, driverDirectory space = some driver →
        final.view.isDirectory driverPath = true ∧
        (space.Bare driver → ∀ below, driver ++ below ≠ driverPath →
          final.view (driverPath ++ below) = space.view (driver ++ below))) ∧
      ∀ path, ¬ usr <+: path → ¬ bin <+: path → ¬ etc <+: path → ¬ driverPath <+: path →
        final.view path = space.view path := by
  obtain ⟨driven, final, place, step, prepares, layout, prepared⟩ := prepareView_spec laid
  have driverSeen (below : Path) : final.view (driverPath ++ below) =
      driven.view (driverPath ++ below) :=
    prepared.rest _ (apart_of_head (by decide)) (apart_of_head (by decide))
      (apart_of_head (by decide))
  refine ⟨final, prepares, prepared.usr, ⟨place, ?_, prepared.bin⟩, prepared.etc, ?_, ?_, ?_⟩
  · have usrTop := prepared.usr []
    have usrBinTop : final.view usrBin = space.view (workPath ++ usrBin) := prepared.usr bin
    rw [List.append_nil, List.append_nil] at usrTop
    refine (resolve_bin layout ?_ ?_).1
    · rw [PathTree.isDirectory, usrTop]
      exact laid.work _ (.inl (by decide))
    · rw [PathTree.isDirectory, usrBinTop]
      exact laid.work _ (.inl List.prefix_rfl)
  · intro kept below
    rw [driverSeen, step.untouched kept]
  · intro driver leads
    refine ⟨?_, fun bare below different => ?_⟩
    · have top := driverSeen []
      rw [List.append_nil] at top
      rw [PathTree.isDirectory, top]
      exact step.isDirectory driver leads
    · rw [driverSeen]
      exact step.shows driver leads bare below different
  · intro path notUsr notBin notEtc notDriver
    rw [prepared.rest path notUsr notBin notEtc, step.keeps path notDriver]

end View

/-- A host whose driver alias is a link, and whose `/bin` leads into `/usr`. -/
def hostEntries : Dict Path (Entry Unit) where
  entries := [
    ([], .directory false),
    ([text "run"], .directory false),
    ([text "usr"], .directory false),
    ([text "etc"], .directory false),
    ([text "drivers"], .directory false),
    ([text "drivers", text "lib"], .file ()),
    ([text "bin"], .link (text "usr/bin"))]
  nodup := by decide +kernel

def runEntries : Dict Path (Entry Unit) where
  entries := [
    ([], .directory true),
    ([text "opengl-driver"], .link (text "../drivers")),
    ([text "x86-on-arm"], .directory true),
    ([text "x86-on-arm", text "fhs"], .directory true),
    ([text "x86-on-arm", text "fhs", text "usr"], .directory true),
    ([text "x86-on-arm", text "fhs", text "usr", text "bin"], .directory true),
    ([text "x86-on-arm", text "fhs", text "etc"], .directory true)]
  nodup := by decide +kernel

def machineDevice : Bool → FileSystem Unit
  | false => FileSystem.ofEntries hostEntries (by decide +kernel)
  | true => FileSystem.ofEntries runEntries (by decide +kernel)

def machineMounts : List (Mount (Bool × Path)) := [⟨(false, []), []⟩, ⟨(true, []), [text "run"]⟩]

theorem isDirectory_machineMounts : ∀ mount ∈ machineMounts,
    (machineDevice mount.source.1).IsDirectory mount.source.2 := by
  intro mount member
  rcases List.mem_pair.mp member with rfl | rfl
  · exact FileSystem.isDirectory_iff.mp (by decide +kernel)
  · exact FileSystem.isDirectory_iff.mp (by decide +kernel)

def machineSpace : Namespace Bool Unit where
  device := machineDevice
  mounts := machineMounts
  directories := isDirectory_machineMounts
  rooted := ⟨_, List.mem_cons_self, rfl⟩

theorem mem_machineSpace {mount : Mount (Bool × Path)} (member : mount ∈ machineSpace.mounts) :
    mount = ⟨(false, []), []⟩ ∨ mount = ⟨(true, []), [text "run"]⟩ :=
  List.mem_pair.mp member

theorem machineSpace_laid : Laid machineSpace where
  work := by
    intro path inside
    have all : ((workPath ++ usrBin).inits ++ (workPath ++ etc).inits).all
        machineSpace.view.isDirectory = true := by decide +kernel
    apply List.all_eq_true.mp all
    rw [List.mem_append, List.mem_inits, List.mem_inits]
    exact inside
  bare := by
    intro mount member inside
    have short : mount.destination.length ≤ 1 := by
      rcases mem_machineSpace member with rfl | rfl
      · exact Nat.zero_le 1
      · exact Nat.le_refl 1
    have long : 3 ≤ mount.destination.length := inside.length_le
    omega
  run := rfl
  alone := by
    have located : machineSpace.locate driverPath = some (true, [text "opengl-driver"]) := by
      decide +kernel
    apply alone_of_private located
    intro mount member device
    rcases mem_machineSpace member with rfl | rfl
    · cases device
    · rfl
  usr := by decide +kernel
  etc := by decide +kernel
  bin := ⟨usrBin, .inr ⟨rfl, text "usr/bin", rfl, .inl rfl⟩⟩

theorem prepareView_shows_sample : ∃ final, prepareView machineSpace = some final ∧
    final.view.isDirectory driverPath = true ∧
      ∀ below, final.view (driverPath ++ below) = machineSpace.view (text "drivers" :: below) := by
  obtain ⟨final, prepares, -, -, -, -, driver, -⟩ := prepareView_shows machineSpace_laid
  have leads : driverDirectory machineSpace = some [text "drivers"] := by decide +kernel
  obtain ⟨isDirectory, shows⟩ := driver _ leads
  refine ⟨final, prepares, isDirectory, fun below => shows ?_ below ?_⟩
  · intro mount member inside
    rcases mem_machineSpace member with rfl | rfl
    · exact absurd inside (by decide)
    · exact absurd inside (by decide)
  · intro same
    exact absurd (List.cons.inj same).1 (by decide)

end X86OnArm.Guest
