import X86OnArm.Foundation.Mounts

/-! # PressureVessel's `bwrap`

The helper that PressureVessel starts in the place of bubblewrap. `main` moves the
leading `--args` pairs through, puts its own binds behind them and leaves the payload
alone; a container is then seen through the mounts bubblewrap makes of those words.
-/

namespace X86OnArm.Applications

open Foundation PosixPath

/-- What the build defines for the helper. -/
structure HelperBuild where
  bwrap : Text
  coreutilsPath : Text

/-- What the helper asks of its host. -/
structure HelperHost where
  directory : Text → Bool
  path : Option Text
  fexRootfs : Option Text

/-- The `execv` the helper ends with, and the `PATH` it leaves to the program. -/
structure HelperExec where
  program : Text
  argv : List Text
  path : Option Text
  deriving DecidableEq

def argsOption : Text := text "--args"

/-- The scan for leading pairs: the words it moves and the payload. -/
def scanPairs : List Text → List Text × List Text
  | option :: descriptor :: rest =>
      if option = argsOption then
        let scanned := scanPairs rest
        (option :: descriptor :: scanned.1, scanned.2)
      else ([], option :: descriptor :: rest)
  | rest => ([], rest)

/-- A source and where it is bound. -/
abbrev Bind := Text × Text

def bindDirectory (bind : Bind) : List Text := [text "--ro-bind", bind.1, bind.2]

def nativePaths : List Text := [text "/nix", text "/run/opengl-driver", text "/etc/alsa"]

def providers : List Text :=
  [text "/var/pressure-vessel/gfx/main",
    text "/run/pressure-vessel/interpreter-root/var/pressure-vessel/gfx/main"]

def interpreterNix : Text := text "/run/pressure-vessel/interpreter-root/nix"

def subdirs : List Text := [text "nix", text "run"]

/-- `"%s/%s"`. -/
def below (directory name : Text) : Text := directory ++ text "/" ++ name

/-- The binds of one directory of the root file system. -/
def subdirBinds (root subdir : Text) : List Bind :=
  (providers.map fun provider => (below root subdir, below provider subdir)) ++
    if subdir = text "nix" then [(below root subdir, interpreterNix)] else []

def rootfsBinds (host : HelperHost) (root : Text) : List Text → Except Text (List Bind)
  | [] => .ok []
  | subdir :: rest =>
      if host.directory (below root subdir) then
        (rootfsBinds host root rest).map (subdirBinds root subdir ++ ·)
      else .error (text "x86-on-arm: missing FEX rootfs directory: " ++ below root subdir ++
        text "\n")

def nativeBinds (host : HelperHost) : List Bind :=
  (nativePaths.filter fun path => host.directory path).map fun path => (path, path)

/-- `FEX_ROOTFS` where it is an absolute path. -/
def rootfsOf (host : HelperHost) : Except Text Text :=
  match host.fexRootfs with
  | none => .error (text "x86-on-arm: PressureVessel needs an absolute FEX_ROOTFS\n")
  | some root =>
      if isAbsolute root then .ok root
      else .error (text "x86-on-arm: PressureVessel needs an absolute FEX_ROOTFS\n")

/-- Feature probes go to bubblewrap with native tools in front of their `PATH`. -/
def probe (build : HelperBuild) (host : HelperHost) (words : List Text) : HelperExec where
  program := build.bwrap
  argv := build.bwrap :: words
  path := some (build.coreutilsPath ++ text ":" ++ host.path.getD [])

def container (build : HelperBuild) (host : HelperHost) (words : List Text) :
    Except Text HelperExec := do
  let scanned := scanPairs words
  let root ← rootfsOf host
  let binds ← rootfsBinds host root subdirs
  return {
    program := build.bwrap
    argv := build.bwrap ::
      (scanned.1 ++ (nativeBinds host ++ binds).flatMap bindDirectory ++ scanned.2)
    path := host.path }

/-- The helper on the words after its own name; an error is a message and status 1. -/
def main (build : HelperBuild) (host : HelperHost) (words : List Text) : Except Text HelperExec :=
  if words.length < 2 ∨ words.head? ≠ some argsOption then .ok (probe build host words)
  else container build host words

/-- The two words of a pair. -/
def pair (descriptor : Text) : List Text := [argsOption, descriptor]

/-- The binds of a container. -/
def helperBinds (host : HelperHost) (root : Text) : List Bind :=
  nativeBinds host ++ subdirs.flatMap (subdirBinds root)

/-- The names of an absolute path. -/
def names (path : Text) : Path := (components path).filter fun component => component ≠ []

/-- A bind as bubblewrap applies it. -/
def mountOf (bind : Bind) : Mount (Option Text) := ⟨some bind.1, names bind.2⟩

/-- Bubblewrap's reading of its words: the mounts they ask for in order, where a
descriptor's options stand in the place of its pair. A mount of something else than a
directory has no source. -/
structure Bubblewrap where
  mounts : List Text → List (Mount (Option Text))
  packed : Text → List (Mount (Option Text))
  args : ∀ descriptor rest, mounts (pair descriptor ++ rest) = packed descriptor ++ mounts rest
  roBind : ∀ bind rest, mounts (bindDirectory bind ++ rest) = mountOf bind :: mounts rest

/-- Two more words that the scan would take for a pair. -/
def StartsWithPair (words : List Text) : Prop := ∃ descriptor rest, words = pair descriptor ++ rest

section Words

variable {build : HelperBuild} {host : HelperHost} {root : Text} {words payload : List Text}

/-- The scan stops at the first words that are no pair, and loses none. -/
theorem scanPairs_spec (words : List Text) : ∃ (descriptors : List Text) (remaining : List Text),
    scanPairs words = (descriptors.flatMap pair, remaining) ∧
      words = descriptors.flatMap pair ++ remaining ∧ ¬ StartsWithPair remaining := by
  induction words using scanPairs.induct with
  | case1 descriptor rest ih =>
      obtain ⟨descriptors, remaining, scanned, split, ends⟩ := ih
      refine ⟨descriptor :: descriptors, remaining, ?_, ?_, ends⟩
      · simp [scanPairs, scanned, pair]
      · simp [← split, pair]
  | case2 option descriptor rest different =>
      refine ⟨[], option :: descriptor :: rest, ?_, rfl, ?_⟩
      · rw [scanPairs, if_neg different, List.flatMap_nil]
      · rintro ⟨other, after, same⟩
        exact different (List.cons.inj same).1
  | case3 rest short =>
      refine ⟨[], rest, ?_, rfl, ?_⟩
      · rw [scanPairs.eq_2 rest short, List.flatMap_nil]
      · rintro ⟨descriptor, after, rfl⟩
        exact short _ _ _ rfl

theorem scanPairs_append (descriptors : List Text) (rest : List Text) :
    scanPairs (descriptors.flatMap pair ++ rest) =
      (descriptors.flatMap pair ++ (scanPairs rest).1, (scanPairs rest).2) := by
  induction descriptors with
  | nil => rfl
  | cons descriptor descriptors ih =>
      rw [List.flatMap_cons, List.append_assoc, List.append_assoc]
      change scanPairs (argsOption :: descriptor :: (descriptors.flatMap pair ++ rest)) = _
      rw [scanPairs, if_pos rfl, ih]
      rfl

theorem rootfsBinds_eq {names : List Text}
    (found : ∀ name ∈ names, host.directory (below root name) = true) :
    rootfsBinds host root names = .ok (names.flatMap (subdirBinds root)) := by
  induction names with
  | nil => rfl
  | cons name names ih =>
      have rest := ih fun other member => found other (List.mem_cons_of_mem _ member)
      rw [rootfsBinds, if_pos (found name List.mem_cons_self), rest]
      rfl

/-- What the helper executes for a container: bubblewrap with all leading pairs, its own
binds and the words after the pairs. -/
theorem main_container (rootfs : host.fexRootfs = some root) (absolute : isAbsolute root = true)
    (found : ∀ subdir ∈ subdirs, host.directory (below root subdir) = true)
    (descriptor : Text) (descriptors : List Text) (rest : List Text) :
    main build host ((descriptor :: descriptors).flatMap pair ++ rest) = .ok {
      program := build.bwrap
      argv := build.bwrap :: ((descriptor :: descriptors).flatMap pair ++ (scanPairs rest).1 ++
        (helperBinds host root).flatMap bindDirectory ++ (scanPairs rest).2)
      path := host.path } := by
  have enters : ¬ (((descriptor :: descriptors).flatMap pair ++ rest).length < 2 ∨
      ((descriptor :: descriptors).flatMap pair ++ rest).head? ≠ some argsOption) := by
    simp [pair]
  have read : rootfsOf host = .ok root := by
    rw [rootfsOf, rootfs]
    exact if_pos absolute
  rw [main, if_neg enters, container, scanPairs_append, read]
  simp only [bind, Except.bind, rootfsBinds_eq found]
  rfl

variable (bubblewrap : Bubblewrap)

theorem Bubblewrap.mounts_pairs (descriptors : List Text) (rest : List Text) :
    bubblewrap.mounts (descriptors.flatMap pair ++ rest) =
      descriptors.flatMap bubblewrap.packed ++ bubblewrap.mounts rest := by
  induction descriptors with
  | nil => rfl
  | cons descriptor descriptors ih =>
      rw [List.flatMap_cons, List.append_assoc, bubblewrap.args, ih, List.flatMap_cons,
        List.append_assoc]

theorem Bubblewrap.mounts_binds (binds : List Bind) (rest : List Text) :
    bubblewrap.mounts (binds.flatMap bindDirectory ++ rest) =
      binds.map mountOf ++ bubblewrap.mounts rest := by
  induction binds with
  | nil => rfl
  | cons bind binds ih =>
      rw [List.flatMap_cons, List.append_assoc, bubblewrap.roBind, ih]
      rfl

/-- Where the helper mounts on a host that has all native directories. -/
def destinations : List Path :=
  (nativePaths ++ (subdirs.flatMap (subdirBinds [])).map Prod.snd).map names

theorem destinations_apart : destinations.Pairwise fun first second =>
    ¬ first <+: second ∧ ¬ second <+: first := by
  decide +kernel

/-- None of the helper's mounts covers the destination of another. -/
theorem helperBinds_apart (host : HelperHost) (root : Text) :
    ((helperBinds host root).map mountOf).Pairwise Mount.Apart := by
  have sub : (((helperBinds host root).map mountOf).map Mount.destination).Sublist
      destinations := by
    simp only [helperBinds, nativeBinds, destinations, List.map_append, List.map_map]
    exact (List.filter_sublist.map names).append (List.Sublist.refl _)
  have apart := destinations_apart.sublist sub
  rw [List.pairwise_map] at apart
  exact apart

/-- A path at or below the destination of a bind of the helper lies in its source. -/
theorem resolve_helperBinds {bind : Bind} (member : bind ∈ helperBinds host root)
    (earlier : List (Mount (Option Text))) (rest : Path) :
    Mount.resolve (earlier ++ (helperBinds host root).map mountOf) (names bind.2 ++ rest) =
      some (some bind.1, rest) :=
  Mount.resolve_append (helperBinds_apart host root) (List.mem_map_of_mem member)

theorem mem_helperBinds_native {path : Text} (listed : path ∈ nativePaths)
    (exists_ : host.directory path = true) : (path, path) ∈ helperBinds host root := by
  refine List.mem_append_left _ (List.mem_map_of_mem ?_)
  exact List.mem_filter.mpr ⟨listed, exists_⟩

theorem mem_helperBinds_provider {provider subdir : Text} (listed : provider ∈ providers)
    (within : subdir ∈ subdirs) :
    (below root subdir, below provider subdir) ∈ helperBinds host root := by
  refine List.mem_append_right _ (List.mem_flatMap.mpr ⟨subdir, within, ?_⟩)
  exact List.mem_append_left _ (List.mem_map_of_mem listed)

theorem mem_helperBinds_interpreter :
    (below root (text "nix"), interpreterNix) ∈ helperBinds host root := by
  refine List.mem_append_right _ (List.mem_flatMap.mpr ⟨text "nix", List.mem_cons_self, ?_⟩)
  exact List.mem_append_right _ (by simp)

/-- The helper moves the leading pairs through, adds its binds and hands on every other
word; whatever the pairs mount, the container has the native directories and those of
the root file system where the helper bound them. -/
theorem main_keeps_payload (rootfs : host.fexRootfs = some root)
    (absolute : isAbsolute root = true)
    (found : ∀ subdir ∈ subdirs, host.directory (below root subdir) = true)
    (descriptor : Text) (descriptors : List Text) (payload : List Text) :
    ∃ (more remaining : List Text), payload = more.flatMap pair ++ remaining ∧
      ¬ StartsWithPair remaining ∧
      main build host ((descriptor :: descriptors).flatMap pair ++ payload) = .ok {
        program := build.bwrap
        argv := build.bwrap :: ((descriptor :: descriptors ++ more).flatMap pair ++
          (helperBinds host root).flatMap bindDirectory ++ remaining)
        path := host.path } ∧
      ∀ bubblewrap : Bubblewrap, bubblewrap.mounts remaining = [] →
        ((helperBinds host root).map mountOf).Pairwise Mount.Apart ∧
        ∃ mounts, bubblewrap.mounts ((descriptor :: descriptors ++ more).flatMap pair ++
            (helperBinds host root).flatMap bindDirectory ++ remaining) = mounts ∧
          (∀ path ∈ nativePaths, host.directory path = true → ∀ rest,
            Mount.resolve mounts (names path ++ rest) = some (some path, rest)) ∧
          (∀ provider ∈ providers, ∀ subdir ∈ subdirs, ∀ rest,
            Mount.resolve mounts (names (below provider subdir) ++ rest) =
              some (some (below root subdir), rest)) ∧
          ∀ rest, Mount.resolve mounts (names interpreterNix ++ rest) =
            some (some (below root (text "nix")), rest) := by
  obtain ⟨more, remaining, scanned, split, ends⟩ := scanPairs_spec payload
  refine ⟨more, remaining, split, ends, ?_, ?_⟩
  · rw [main_container rootfs absolute found, scanned, List.flatMap_append]
  · intro bubblewrap silent
    refine ⟨helperBinds_apart host root, _, rfl, ?_⟩
    rw [List.append_assoc, bubblewrap.mounts_pairs, bubblewrap.mounts_binds, silent,
      List.append_nil]
    refine ⟨?_, ?_, ?_⟩
    · intro path listed exists_ rest
      exact resolve_helperBinds (mem_helperBinds_native listed exists_) _ rest
    · intro provider listed subdir within rest
      exact resolve_helperBinds (mem_helperBinds_provider listed within) _ rest
    · intro rest
      exact resolve_helperBinds mem_helperBinds_interpreter _ rest

/-- The mounts of words that use no option but the helper's. -/
def readWords (packed : Text → List (Mount (Option Text))) :
    List Text → List (Mount (Option Text))
  | option :: first :: rest =>
      if option = argsOption then packed first ++ readWords packed rest
      else match rest with
        | [] => []
        | destination :: rest =>
            if option = text "--ro-bind" then
              mountOf (first, destination) :: readWords packed rest
            else []
  | _ => []

def bindsOnly (packed : Text → List (Mount (Option Text))) : Bubblewrap where
  mounts := readWords packed
  packed := packed
  args descriptor rest := by
    change readWords packed (argsOption :: descriptor :: rest) = _
    rw [readWords.eq_def]
    exact if_pos rfl
  roBind bind rest := by
    change readWords packed (text "--ro-bind" :: bind.1 :: bind.2 :: rest) = _
    rw [readWords.eq_def]
    exact if_neg (by decide)

/-- A pair whose descriptor mounts the guest's `/run`, and a payload with that word. -/
theorem main_keeps_payload_run :
    Mount.resolve ((bindsOnly fun _ => [⟨some (text "/guest"), [text "run"]⟩]).mounts
        (pair (text "7") ++ (helperBinds ⟨fun _ => true, none, some (text "/guest")⟩
          (text "/guest")).flatMap bindDirectory ++ [text "--", text "--args", text ""]))
        (names (text "/run/opengl-driver") ++ [text "lib"]) =
      some (some (text "/run/opengl-driver"), [text "lib"]) := by
  obtain ⟨more, remaining, split, ends, -, seen⟩ :=
    @main_keeps_payload ⟨text "bwrap", text "/bin"⟩
      ⟨fun _ => true, none, some (text "/guest")⟩ (text "/guest") rfl (by decide)
      (fun _ _ => rfl) (text "7") [] [text "--", text "--args", text ""]
  have none_more : more = [] := by
    cases more with
    | nil => rfl
    | cons first more => exact absurd (List.cons.inj split).1 (by decide)
  subst none_more
  obtain rfl : remaining = [text "--", text "--args", text ""] := split.symm
  obtain ⟨-, mounts, rfl, native, -⟩ :=
    seen (bindsOnly fun _ => [⟨some (text "/guest"), [text "run"]⟩]) (by decide)
  exact native (text "/run/opengl-driver") (by decide) rfl [text "lib"]

end Words

end X86OnArm.Applications
