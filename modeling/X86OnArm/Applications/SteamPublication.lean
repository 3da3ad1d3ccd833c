import X86OnArm.Applications.SteamBootstrap

/-! # What Steam's launchers publish

Under the lock one launcher at a time works in the data directory, so a copy is complete
when it is moved into place and nobody changes it afterwards. This rests on the shell
waiting for `mv`: a shell that a signal ends meanwhile removes the copy that `mv` is
about to publish.
-/

namespace X86OnArm.Applications

open Foundation

section Publication

variable {Launcher Version Name File : Type}

/-- What is published stays as it is. -/
def Preserves (before after : DataDirectory Version Name File) : Prop :=
  ∀ version directory, before.versions version = some directory →
    after.versions version = some directory ∧
      after.directories directory = before.directories directory

/-- A step that publishes nothing keeps what is published. -/
theorem Preserves.refl (data : DataDirectory Version Name File) : Preserves data data :=
  fun _ _ found => ⟨found, rfl⟩

/-- What is published stays over several steps. -/
theorem Preserves.trans {first second third : DataDirectory Version Name File}
    (earlier : Preserves first second) (later : Preserves second third) :
    Preserves first third := by
  intro version directory found
  obtain ⟨foundNext, same⟩ := earlier version directory found
  obtain ⟨foundLast, sameToo⟩ := later version directory foundNext
  exact ⟨foundLast, sameToo.trans same⟩

variable [DecidableEq File] (build : Bootstraps Launcher Version File)

/-- All files of a version and nothing else, written to their end and writable. -/
def Complete (version : Version) (contents : Contents Version Name File) : Prop :=
  (∀ file, contents.entries file =
    if file ∈ build.files version then some ⟨version, true, true⟩ else none) ∧
    contents.nested = []

/-- The directory of a version is absent or complete, and a launcher that executes Steam
has that of its version. -/
structure Published (state : SteamState Launcher Version Name File) : Prop where
  complete : ∀ version directory, state.data.versions version = some directory →
    Complete build version (state.data.directories directory)
  executed : ∀ launcher, (state.launchers launcher).shell = .running →
    ∃ directory, state.data.versions (build.version launcher) = some directory

/-- What holds of the data directory on its own. -/
structure DataSound (data : DataDirectory Version Name File) : Prop where
  complete : ∀ version directory, data.versions version = some directory →
    Complete build version (data.directories directory)
  apart : ∀ version staging directory, data.versions version = some directory →
    data.stagings staging ≠ some directory
  injective : ∀ first second directory, data.stagings first = some directory →
    data.stagings second = some directory → first = second
  freshVersion : ∀ version number, data.versions version = some (.made number) →
    number < data.made
  freshStaging : ∀ staging number, data.stagings staging = some (.made number) →
    number < data.made

/-- Files of a version and nothing else, however much of them. -/
def Partial (version : Version) (contents : Contents Version Name File) : Prop :=
  contents.nested = [] ∧ ∀ file entry, contents.entries file = some entry →
    file ∈ build.files version ∧ entry.version = version

/-- All files of a version and nothing else. -/
def Whole (version : Version) (contents : Contents Version Name File) : Prop :=
  Partial build version contents ∧ ∀ file ∈ build.files version,
    ∃ entry, contents.entries file = some entry ∧ entry.whole = true

/-- Where a launcher can be, with what it relies on there. One whose shell is gone or
runs the trap relies on nothing but that its `rm` has not opened what is published. -/
inductive Stage (data : DataDirectory Version Name File) (version : Version) :
    SteamLauncher Name → Prop where
  | waiting : Stage data version ⟨.flock, some .flock, none⟩
  | test : Stage data version ⟨.test, none, none⟩
  | mktemp : data.versions version = none → Stage data version ⟨.mktemp, some .mktemp, none⟩
  | arm {staging : Name} {directory : Directory Name} : data.versions version = none →
      data.stagings staging = some directory →
      Partial build version (data.directories directory) →
      Stage data version ⟨.arm staging, none, none⟩
  | copy {staging : Name} {directory : Directory Name} : data.versions version = none →
      data.stagings staging = some directory →
      Partial build version (data.directories directory) →
      Stage data version ⟨.copy staging, some (.cp staging), none⟩
  | chmod {staging : Name} {directory : Directory Name} : data.versions version = none →
      data.stagings staging = some directory →
      Whole build version (data.directories directory) →
      Stage data version ⟨.chmod staging, some (.chmod staging), none⟩
  | moving {staging : Name} {directory : Directory Name} {shell : SteamShell Name}
      {remover : Option (Remover Name)} : data.versions version = none →
      data.stagings staging = some directory →
      Complete build version (data.directories directory) →
      (shell = .move staging ∧ remover = none ∨
        (shell = .ended ∨ ∃ other, shell = .cleanup other) ∧
          ∀ other opened, remover ≠ some ⟨other, some opened⟩) →
      Stage data version ⟨shell, some (.mv staging false), remover⟩
  | moved {staging : Name} : data.versions version ≠ none →
      Stage data version ⟨.move staging, some (.mv staging true), none⟩
  | disarm {staging : Name} : data.versions version ≠ none →
      Stage data version ⟨.disarm staging, none, none⟩
  | unlock : data.versions version ≠ none → Stage data version ⟨.unlock, none, none⟩
  | unlocked {shell : SteamShell Name} : data.versions version ≠ none →
      shell = .exec ∨ shell = .running → Stage data version ⟨shell, none, none⟩
  | gone {shell : SteamShell Name} {child : Option (SteamChild Name)}
      {remover : Option (Remover Name)} :
      (shell = .ended ∨ ∃ staging, shell = .cleanup staging) →
      (∀ staging, child ≠ some (.mv staging false)) →
      (∀ staging directory, remover = some ⟨staging, some directory⟩ →
        ∀ version, data.versions version ≠ some directory) →
      Stage data version ⟨shell, child, remover⟩

/-- A launcher with a process between `flock` and `flock -u`. -/
def SteamLauncher.Busy (launcher : SteamLauncher Name) : Prop :=
  launcher.remover ≠ none ∨ launcher.child ≠ none ∧ launcher.child ≠ some .flock ∨
    launcher.shell ≠ .flock ∧ launcher.shell ≠ .exec ∧ launcher.shell ≠ .running ∧
      launcher.shell ≠ .ended

/-- What holds of the launchers together: only one of them is at work. -/
structure SteamSound (state : SteamState Launcher Version Name File) : Prop where
  data : DataSound build state.data
  stage : ∀ launcher, Stage build state.data (build.version launcher) (state.launchers launcher)
  owner : ∀ launcher, (state.launchers launcher).Busy → state.lock = some launcher

variable {build}

section DataDirectories

variable [DecidableEq Name] {data : DataDirectory Version Name File} {version : Version}
  {staging : Name} {directory : Directory Name} {file : File} {entry : Option (Copied Version)}

/-- Writing or removing a file in a directory that is not published. -/
theorem DataSound.setEntry (sound : DataSound build data) (file : File)
    (entry : Option (Copied Version))
    (unpublished : ∀ version, data.versions version ≠ some directory) :
    DataSound build (data.setEntry directory file entry) ∧
      Preserves data (data.setEntry directory file entry) := by
  have kept : ∀ {version : Version} {other : Directory Name},
      data.versions version = some other →
      (data.setEntry directory file entry).directories other = data.directories other := by
    intro version other found
    refine Function.update_of_ne ?_ ..
    rintro rfl
    exact unpublished version found
  refine ⟨⟨?_, sound.apart, sound.injective, sound.freshVersion, sound.freshStaging⟩,
    fun version other found => ⟨found, kept found⟩⟩
  intro version other found
  rw [kept found]
  exact sound.complete version other found

/-- Removing a staging name. -/
theorem DataSound.setStaging (sound : DataSound build data) (staging : Name) :
    DataSound build (data.setStaging staging none) ∧
      Preserves data (data.setStaging staging none) := by
  have sub : ∀ {name : Name} {other : Directory Name},
      (data.setStaging staging none).stagings name = some other →
      data.stagings name = some other := by
    intro name other found
    by_cases same : name = staging
    · subst same
      simp [DataDirectory.setStaging] at found
    · exact (Function.update_of_ne same ..).symm.trans found
  refine ⟨⟨sound.complete, ?_, ?_, sound.freshVersion, ?_⟩, Preserves.refl data⟩
  · intro version name other found foundToo
    exact sound.apart version name other found (sub foundToo)
  · intro first second other found foundToo
    exact sound.injective first second other (sub found) (sub foundToo)
  · intro name number found
    exact sound.freshStaging name number (sub found)

/-- A new staging name gets a new directory, which is no published one. -/
theorem DataSound.mktemp (sound : DataSound build data) (staging : Name) :
    DataSound build (data.mktemp staging) ∧ Preserves data (data.mktemp staging) := by
  have kept : ∀ {version : Version} {other : Directory Name},
      data.versions version = some other →
      (data.mktemp staging).directories other = data.directories other := by
    intro version other found
    refine Function.update_of_ne ?_ ..
    rintro rfl
    exact Nat.lt_irrefl _ (sound.freshVersion version data.made found)
  have staged : ∀ {name : Name} {other : Directory Name},
      (data.mktemp staging).stagings name = some other →
      name = staging ∧ other = .made data.made ∨
        name ≠ staging ∧ data.stagings name = some other := by
    intro name other found
    by_cases same : name = staging
    · subst same
      refine .inl ⟨rfl, ?_⟩
      simpa [DataDirectory.mktemp, DataDirectory.setStaging, eq_comm] using found
    · refine .inr ⟨same, ?_⟩
      simpa [DataDirectory.mktemp, DataDirectory.setStaging, DataDirectory.setContents,
        Function.update_of_ne same] using found
  refine ⟨⟨?_, ?_, ?_, ?_, ?_⟩, fun version other found => ⟨found, kept found⟩⟩
  · intro version other found
    rw [kept found]
    exact sound.complete version other found
  · intro version name other found foundToo
    rcases staged foundToo with ⟨-, rfl⟩ | ⟨-, before⟩
    · exact Nat.lt_irrefl _ (sound.freshVersion version data.made found)
    · exact sound.apart version name other found before
  · intro first second other found foundToo
    rcases staged found with ⟨rfl, rfl⟩ | ⟨-, before⟩ <;>
      rcases staged foundToo with ⟨rfl, made⟩ | ⟨-, beforeToo⟩
    · rfl
    · exact absurd (sound.freshStaging _ _ beforeToo) (Nat.lt_irrefl _)
    · subst made
      exact absurd (sound.freshStaging _ _ before) (Nat.lt_irrefl _)
    · exact sound.injective first second other before beforeToo
  · intro version number found
    exact Nat.lt_succ_of_lt (sound.freshVersion version number found)
  · intro name number found
    rcases staged found with ⟨-, same⟩ | ⟨-, before⟩
    · cases same
      exact Nat.lt_succ_self _
    · exact Nat.lt_succ_of_lt (sound.freshStaging name number before)

/-- Moving a complete copy where there is no directory of the version publishes it. -/
theorem DataSound.move [DecidableEq Version] (sound : DataSound build data)
    (absent : data.versions version = none)
    (staged : data.stagings staging = some directory)
    (complete : Complete build version (data.directories directory)) :
    DataSound build (data.move version staging directory) ∧
      Preserves data (data.move version staging directory) ∧
      (data.move version staging directory).versions version = some directory := by
  have moves : data.move version staging directory = { data.setStaging staging none with
      versions := Function.update data.versions version (some directory) } := by
    rw [DataDirectory.move, absent]
  rw [moves]
  obtain ⟨unstaged, -⟩ := sound.setStaging staging
  have published : ∀ {other : Version} {target : Directory Name},
      Function.update data.versions version (some directory) other = some target →
      other = version ∧ target = directory ∨ data.versions other = some target := by
    intro other target found
    by_cases same : other = version
    · subst same
      rw [Function.update_self] at found
      exact .inl ⟨rfl, (Option.some.inj found).symm⟩
    · rw [Function.update_of_ne same] at found
      exact .inr found
  refine ⟨⟨?_, ?_, unstaged.injective, ?_, unstaged.freshStaging⟩, ?_, Function.update_self ..⟩
  · intro other target found
    rcases published found with ⟨rfl, rfl⟩ | before
    · exact complete
    · exact sound.complete other target before
  · intro other name target found
    rcases published found with ⟨rfl, rfl⟩ | before
    · intro foundToo
      by_cases same : name = staging
      · subst same
        simp [DataDirectory.setStaging] at foundToo
      · have original := (Function.update_of_ne same ..).symm.trans foundToo
        exact same (sound.injective name staging target original staged)
    · exact unstaged.apart other name target before
  · intro other number found
    rcases published found with ⟨rfl, same⟩ | before
    · exact sound.freshStaging staging number (same ▸ staged)
    · exact sound.freshVersion other number before
  · intro other target found
    refine ⟨?_, rfl⟩
    have different : other ≠ version := by
      rintro rfl
      rw [absent] at found
      cases found
    exact (Function.update_of_ne different ..).trans found

/-- The files of a directory after one of them was set. -/
theorem setEntry_entries (other : File) :
    ((data.setEntry directory file entry).directories directory).entries other =
      if other = file then entry else (data.directories directory).entries other := by
  simp only [DataDirectory.setEntry, DataDirectory.setContents, Function.update_self,
    Function.update_apply]

/-- Setting a file nests no directory. -/
theorem setEntry_nested : ((data.setEntry directory file entry).directories directory).nested =
    (data.directories directory).nested := by
  simp only [DataDirectory.setEntry, DataDirectory.setContents, Function.update_self]

/-- A file that `cp` writes is one of the version's. -/
theorem Partial.setEntry {whole writable : Bool}
    (contents : Partial build version (data.directories directory))
    (listed : file ∈ build.files version) :
    Partial build version ((data.setEntry directory file
      (some ⟨version, whole, writable⟩)).directories directory) := by
  obtain ⟨flat, files⟩ := contents
  refine ⟨setEntry_nested.trans flat, ?_⟩
  intro other entry found
  rw [setEntry_entries] at found
  by_cases same : other = file
  · rw [if_pos same] at found
    cases found
    exact ⟨same ▸ listed, rfl⟩
  · rw [if_neg same] at found
    exact files other entry found

/-- A file that `chmod` makes writable stays whole. -/
theorem Whole.makeWritable {copied : Copied Version}
    (contents : Whole build version (data.directories directory))
    (found : (data.directories directory).entries file = some copied) :
    Whole build version ((data.setEntry directory file
      (some { copied with writable := true })).directories directory) := by
  obtain ⟨partially, all⟩ := contents
  obtain ⟨listed, rfl⟩ := partially.2 file copied found
  refine ⟨partially.setEntry listed, ?_⟩
  intro other member
  obtain ⟨entry, present, whole⟩ := all other member
  rw [setEntry_entries]
  by_cases same : other = file
  · subst same
    cases Option.some.inj (present.symm.trans found)
    exact ⟨_, if_pos rfl, whole⟩
  · exact ⟨entry, (if_neg same).trans present, whole⟩

omit [DecidableEq Name] [DecidableEq File] in
/-- `cp` succeeds once it has written all files to their end. -/
theorem Whole.of_cp (contents : Partial build version (data.directories directory))
    (staged : data.stagings staging = some directory)
    (succeeds : data.succeeds build version (.cp staging) = true) :
    Whole build version (data.directories directory) := by
  refine ⟨contents, ?_⟩
  intro file member
  simp only [DataDirectory.succeeds, staged, List.all_eq_true] at succeeds
  exact (Option.any_eq_true _ _).mp (succeeds file member)

omit [DecidableEq Name] in
/-- `chmod` succeeds once all files are writable. -/
theorem Complete.of_chmod (contents : Whole build version (data.directories directory))
    (staged : data.stagings staging = some directory)
    (succeeds : data.succeeds build version (.chmod staging) = true) :
    Complete build version (data.directories directory) := by
  obtain ⟨⟨flat, files⟩, all⟩ := contents
  refine ⟨?_, flat⟩
  intro file
  by_cases member : file ∈ build.files version
  · obtain ⟨entry, present, whole⟩ := all file member
    simp only [DataDirectory.succeeds, staged, List.all_eq_true] at succeeds
    have writable := succeeds file member
    rw [present, Option.all_some] at writable
    obtain ⟨source, _, _⟩ := entry
    obtain ⟨-, same⟩ := files file _ present
    simp only at whole writable same
    rw [present, if_pos member, whole, writable, same]
  · rw [if_neg member]
    by_contra present
    obtain ⟨entry, found⟩ := Option.ne_none_iff_exists'.mp present
    exact member (files file entry found).1

end DataDirectories

variable [DecidableEq Version] [DecidableEq Name]

/-- What a step of `launcher` does to what it shares with the others. -/
inductive Moves (build : Bootstraps Launcher Version File)
    (state : SteamState Launcher Version Name File) (launcher : Launcher) :
    DataDirectory Version Name File → Option Launcher → SteamLauncher Name → Prop where
  | quiet {processes : SteamLauncher Name} :
      Stage build state.data (build.version launcher) processes →
      (processes.Busy → (state.launchers launcher).Busy) →
      Moves build state launcher state.data state.lock processes
  | owned {data : DataDirectory Version Name File} {processes : SteamLauncher Name} :
      (state.launchers launcher).Busy → DataSound build data → Preserves state.data data →
      Stage build data (build.version launcher) processes →
      Moves build state launcher data state.lock processes
  | acquired {processes : SteamLauncher Name} : state.lockFree = true →
      Stage build state.data (build.version launcher) processes →
      Moves build state launcher state.data (some launcher) processes
  | released {processes : SteamLauncher Name} : (state.launchers launcher).Busy →
      Stage build state.data (build.version launcher) processes → ¬ processes.Busy →
      Moves build state launcher state.data none processes

omit [DecidableEq Version] [DecidableEq Name] in
/-- A launcher at work has a process that holds the lock file. -/
theorem SteamLauncher.Busy.hasLockFile {launcher : SteamLauncher Name} (busy : launcher.Busy) :
    launcher.hasLockFile = true := by
  obtain ⟨shell, child, remover⟩ := launcher
  cases shell <;> cases child <;> cases remover <;>
    simp_all [SteamLauncher.Busy, SteamLauncher.hasLockFile]

omit [DecidableEq Version] [DecidableEq Name] in
/-- A launcher that is not at work relies on what is published only. -/
theorem Stage.mono {data after : DataDirectory Version Name File} {version : Version}
    {processes : SteamLauncher Name} (stage : Stage build data version processes)
    (idle : ¬ processes.Busy) (preserves : Preserves data after) :
    Stage build after version processes := by
  have present : data.versions version ≠ none → after.versions version ≠ none := by
    intro present absent
    obtain ⟨directory, found⟩ := Option.ne_none_iff_exists'.mp present
    rw [(preserves version directory found).1] at absent
    cases absent
  cases stage with
  | waiting => exact .waiting
  | unlocked published shell => exact .unlocked (present published) shell
  | gone shell child opened =>
      refine .gone shell child ?_
      intro staging directory found
      exact absurd (.inl (by simp [found])) idle
  | test | mktemp | arm | copy | chmod | moving | moved | disarm | unlock =>
      exact absurd (by simp [SteamLauncher.Busy]) idle

omit [DecidableEq Version] [DecidableEq Name] in
/-- While the lock is free no launcher is at work. -/
theorem SteamSound.idle_of_lockFree {state : SteamState Launcher Version Name File}
    (sound : SteamSound build state) (free : state.lockFree = true) (launcher : Launcher) :
    ¬ (state.launchers launcher).Busy := by
  intro busy
  rw [SteamState.lockFree, sound.owner launcher busy] at free
  simp [busy.hasLockFile] at free

omit [DecidableEq Version] [DecidableEq Name] in
/-- What is shared stays sound whichever launcher takes a step. -/
theorem SteamSound.of_moves [DecidableEq Launcher]
    {state : SteamState Launcher Version Name File} (sound : SteamSound build state)
    {launcher : Launcher}
    {data : DataDirectory Version Name File} {lock : Option Launcher}
    {processes : SteamLauncher Name} (moves : Moves build state launcher data lock processes) :
    SteamSound build ⟨data, lock, Function.update state.launchers launcher processes⟩ := by
  have others : (state.launchers launcher).Busy → ∀ other, other ≠ launcher →
      ¬ (state.launchers other).Busy := by
    intro busy other different otherBusy
    exact different (Option.some.inj
      ((sound.owner other otherBusy).symm.trans (sound.owner launcher busy)))
  have updated : ∀ (holds : Launcher → SteamLauncher Name → Prop), holds launcher processes →
      (∀ other, other ≠ launcher → holds other (state.launchers other)) →
      ∀ other, holds other (Function.update state.launchers launcher processes other) := by
    intro holds own rest other
    by_cases same : other = launcher
    · subst same
      rwa [Function.update_self]
    · rw [Function.update_of_ne same]
      exact rest other same
  have stages : ∀ {data : DataDirectory Version Name File},
      Stage build data (build.version launcher) processes →
      (∀ other, other ≠ launcher →
        Stage build data (build.version other) (state.launchers other)) →
      ∀ other, Stage build data (build.version other)
        (Function.update state.launchers launcher processes other) :=
    fun {data} => updated fun other now => Stage build data (build.version other) now
  cases moves with
  | quiet stage busy =>
      refine ⟨sound.data, stages stage fun other _ => sound.stage other,
        updated (fun other now => now.Busy → state.lock = some other) ?_ ?_⟩
      · intro now
        exact sound.owner launcher (busy now)
      · intro other _
        exact sound.owner other
  | owned busy dataSound preserves stage =>
      refine ⟨dataSound, stages stage ?_,
        updated (fun other now => now.Busy → state.lock = some other) ?_ ?_⟩
      · intro other different
        exact (sound.stage other).mono (others busy other different) preserves
      · intro _
        exact sound.owner launcher busy
      · intro other _
        exact sound.owner other
  | acquired free stage =>
      refine ⟨sound.data, stages stage fun other _ => sound.stage other,
        updated (fun other now => now.Busy → some launcher = some other) (fun _ => rfl) ?_⟩
      intro other _ busy
      exact absurd busy (sound.idle_of_lockFree free other)
  | released busy stage idle =>
      refine ⟨sound.data, stages stage fun other _ => sound.stage other,
        updated (fun other now => now.Busy → none = some other)
          (fun now => absurd now idle) ?_⟩
      intro other different otherBusy
      exact absurd otherBusy (others busy other different)

variable {state : SteamState Launcher Version Name File} {launcher : Launcher}
  {data : DataDirectory Version Name File} {lock : Option Launcher}
  {processes : SteamLauncher Name}

omit [DecidableEq Version] [DecidableEq Name] in
/-- A complete directory has `bin_steam.sh`. -/
theorem hasBinSteam_of_complete {version : Version} {directory : Directory Name}
    (found : data.versions version = some directory)
    (complete : Complete build version (data.directories directory)) :
    data.hasBinSteam build version = true := by
  rw [DataDirectory.hasBinSteam, found]
  simp only [complete.1, if_pos (build.binSteam_mem version), Option.isSome_some]

section Steps

variable (sound : SteamSound build state)

include sound

omit [DecidableEq Version] [DecidableEq Name] in
/-- Where a launcher is, by its processes. -/
theorem SteamSound.stageOf (here : state.launchers launcher = processes) :
    Stage build state.data (build.version launcher) processes :=
  here ▸ sound.stage launcher

private theorem SteamSound.moves_acquire
    (acted : state.act build launcher .acquire = some (data, lock, processes)) :
    Moves build state launcher data lock processes := by
  rcases here : state.launchers launcher with ⟨shell, child, remover⟩
  have stage := sound.stageOf here
  simp only [SteamState.act, here, Option.ite_none_right_eq_some, Option.some.injEq,
    Prod.mk.injEq] at acted
  obtain ⟨⟨waits, free⟩, rfl, rfl, rfl⟩ := acted
  subst waits
  refine .acquired free ?_
  cases stage with
  | waiting => exact .test
  | gone shell child opened =>
      rcases shell with rfl | ⟨staging, rfl⟩ <;> exact .gone (by simp) (by simp) opened

private theorem SteamSound.moves_test
    (acted : state.act build launcher .test = some (data, lock, processes)) :
    Moves build state launcher data lock processes := by
  rcases here : state.launchers launcher with ⟨shell, child, remover⟩
  have stage := sound.stageOf here
  simp only [SteamState.act, here, Option.ite_none_right_eq_some] at acted
  obtain ⟨rfl, acted⟩ := acted
  cases stage with
  | moving _ _ _ points => simp at points
  | unlocked _ points => simp at points
  | gone points => simp at points
  | test =>
      by_cases found : state.data.hasBinSteam build (build.version launcher) = true
      · rw [if_pos found] at acted
        cases acted
        refine .quiet (.unlock ?_) (by simp [here, SteamLauncher.Busy])
        intro absent
        simp [DataDirectory.hasBinSteam, absent] at found
      · rw [if_neg found] at acted
        cases acted
        refine .quiet (.mktemp ?_) (by simp [here, SteamLauncher.Busy])
        by_contra present
        obtain ⟨directory, published⟩ := Option.ne_none_iff_exists'.mp present
        exact found (hasBinSteam_of_complete published
          (sound.data.complete _ directory published))

private theorem SteamSound.moves_mktemp {staging : Name}
    (acted : state.act build launcher (.mktemp staging) = some (data, lock, processes)) :
    Moves build state launcher data lock processes := by
  rcases here : state.launchers launcher with ⟨shell, child, remover⟩
  have stage := sound.stageOf here
  simp only [SteamState.act, here, Option.ite_none_right_eq_some, Option.some.injEq,
    Prod.mk.injEq] at acted
  obtain ⟨⟨rfl, -⟩, rfl, rfl, rfl⟩ := acted
  obtain ⟨dataSound, preserves⟩ := sound.data.mktemp staging
  refine .owned (by simp [here, SteamLauncher.Busy]) dataSound preserves ?_
  cases stage with
  | mktemp absent =>
      refine .arm absent (Function.update_self ..) ?_
      simp [DataDirectory.mktemp, DataDirectory.setStaging, DataDirectory.setContents, Partial]
  | gone shell child opened =>
      rcases shell with rfl | ⟨staging, rfl⟩ <;> exact .gone (by simp) (by simp) opened

private theorem SteamSound.moves_arm
    (acted : state.act build launcher .arm = some (data, lock, processes)) :
    Moves build state launcher data lock processes := by
  rcases here : state.launchers launcher with ⟨shell, child, remover⟩
  have stage := sound.stageOf here
  simp only [SteamState.act, here] at acted
  split at acted
  case h_1 staging =>
    cases acted
    cases stage with
    | moving _ _ _ points => simp at points
    | unlocked _ points => simp at points
    | gone points => simp at points
    | arm absent staged contents =>
        exact .quiet (.copy absent staged contents) (by simp [here, SteamLauncher.Busy])
  case h_2 => cases acted

private theorem SteamSound.moves_write {file : File} {whole : Bool}
    (acted : state.act build launcher (.write file whole) = some (data, lock, processes)) :
    Moves build state launcher data lock processes := by
  rcases here : state.launchers launcher with ⟨shell, child, remover⟩
  have stage := sound.stageOf here
  simp only [SteamState.act, here] at acted
  split at acted
  case h_1 staging =>
    simp only [Option.ite_none_right_eq_some, Option.map_eq_some_iff, Prod.mk.injEq] at acted
    obtain ⟨listed, directory, staged, rfl, rfl, rfl⟩ := acted
    obtain ⟨dataSound, preserves⟩ := sound.data.setEntry file
      (some ⟨build.version launcher, whole, false⟩)
      fun version found => sound.data.apart version staging directory found staged
    refine .owned (by simp [here, SteamLauncher.Busy]) dataSound preserves ?_
    cases stage with
    | copy absent stagedToo contents =>
        cases Option.some.inj (staged.symm.trans stagedToo)
        exact .copy absent staged (contents.setEntry listed)
    | gone points child opened => exact .gone points child opened
  case h_2 => cases acted

private theorem SteamSound.moves_makeWritable {file : File}
    (acted : state.act build launcher (.makeWritable file) = some (data, lock, processes)) :
    Moves build state launcher data lock processes := by
  rcases here : state.launchers launcher with ⟨shell, child, remover⟩
  have stage := sound.stageOf here
  simp only [SteamState.act, here] at acted
  split at acted
  case h_1 staging =>
    simp only [Option.bind_eq_some_iff, Option.map_eq_some_iff, Prod.mk.injEq] at acted
    obtain ⟨directory, staged, entry, found, rfl, rfl, rfl⟩ := acted
    obtain ⟨dataSound, preserves⟩ := sound.data.setEntry file
      (some { entry with writable := true })
      fun version found => sound.data.apart version staging directory found staged
    refine .owned (by simp [here, SteamLauncher.Busy]) dataSound preserves ?_
    cases stage with
    | chmod absent stagedToo contents =>
        cases Option.some.inj (staged.symm.trans stagedToo)
        exact .chmod absent staged (contents.makeWritable found)
    | gone points child opened => exact .gone points child opened
  case h_2 => cases acted

/-- The one step that publishes. -/
theorem SteamSound.moves_rename
    (acted : state.act build launcher .rename = some (data, lock, processes)) :
    Moves build state launcher data lock processes := by
  rcases here : state.launchers launcher with ⟨shell, child, remover⟩
  have stage := sound.stageOf here
  simp only [SteamState.act, here] at acted
  split at acted
  case h_1 staging =>
    simp only [Option.map_eq_some_iff, Prod.mk.injEq] at acted
    obtain ⟨directory, staged, rfl, rfl, rfl⟩ := acted
    cases stage with
    | moving absent stagedToo complete points =>
        cases Option.some.inj (staged.symm.trans stagedToo)
        obtain ⟨dataSound, preserves, published⟩ := sound.data.move absent staged complete
        refine .owned (by simp [here, SteamLauncher.Busy]) dataSound preserves ?_
        rcases points with ⟨rfl, rfl⟩ | ⟨points, closed⟩
        · exact .moved (by simp [published])
        · refine .gone points (by simp) ?_
          intro other opened found
          exact absurd found (closed other opened)
    | gone points child opened => exact absurd rfl (child staging)
  case h_2 => cases acted

private theorem SteamSound.moves_childExit {success : Bool}
    (acted : state.act build launcher (.childExit success) = some (data, lock, processes)) :
    Moves build state launcher data lock processes := by
  rcases here : state.launchers launcher with ⟨shell, child, remover⟩
  have stage := sound.stageOf here
  simp only [SteamState.act, here] at acted
  cases child with
  | none => cases acted
  | some child =>
      cases success with
      | true =>
          simp only [if_true, Option.ite_none_right_eq_some, Option.some.injEq,
            Prod.mk.injEq] at acted
          obtain ⟨succeeds, rfl, rfl, rfl⟩ := acted
          cases stage with
          | waiting => simp [DataDirectory.succeeds] at succeeds
          | mktemp absent => simp [DataDirectory.succeeds] at succeeds
          | copy absent staged contents =>
              exact .quiet (.chmod absent staged (.of_cp contents staged succeeds))
                (by simp [here, SteamLauncher.Busy])
          | chmod absent staged contents =>
              exact .quiet (.moving absent staged (.of_chmod contents staged succeeds)
                (.inl ⟨rfl, rfl⟩)) (by simp [here, SteamLauncher.Busy])
          | moving _ _ _ _ => simp [DataDirectory.succeeds] at succeeds
          | moved present => exact .quiet (.disarm present) (by simp [here, SteamLauncher.Busy])
          | gone points child opened =>
              rcases points with rfl | ⟨staging, rfl⟩ <;>
                refine .quiet (.gone (by simp) (by simp) opened) ?_ <;>
                simp +contextual [here, SteamLauncher.Busy, SteamLauncher.proceed]
      | false =>
          cases acted
          cases stage with
          | waiting =>
              exact .quiet (.gone (.inl rfl) (by simp) (by simp))
                (by simp [SteamLauncher.Busy, SteamLauncher.fail])
          | mktemp _ | copy _ _ _ | chmod _ _ _ | moved _ =>
              exact .quiet (.gone (by simp) (by simp) (by simp))
                (by simp [here, SteamLauncher.Busy])
          | moving absent staged complete points =>
              refine .quiet ?_ (by simp [here, SteamLauncher.Busy])
              rcases points with ⟨rfl, rfl⟩ | ⟨rfl | ⟨other, rfl⟩, closed⟩ <;>
                refine .gone (by simp) (by simp) ?_
              · simp
              · intro staging opened found
                exact absurd found (closed staging opened)
              · intro staging opened found
                exact absurd found (closed staging opened)
          | gone points child opened =>
              rcases points with rfl | ⟨staging, rfl⟩ <;>
                refine .quiet (.gone (by simp) (by simp) opened) ?_ <;>
                simp +contextual [here, SteamLauncher.Busy, SteamLauncher.fail]

private theorem SteamSound.moves_disarm
    (acted : state.act build launcher .disarm = some (data, lock, processes)) :
    Moves build state launcher data lock processes := by
  rcases here : state.launchers launcher with ⟨shell, child, remover⟩
  have stage := sound.stageOf here
  simp only [SteamState.act, here] at acted
  split at acted
  case h_1 staging =>
    cases acted
    cases stage with
    | moving _ _ _ points => simp at points
    | unlocked _ points => simp at points
    | gone points => simp at points
    | disarm present => exact .quiet (.unlock present) (by simp [here, SteamLauncher.Busy])
  case h_2 => cases acted

private theorem SteamSound.moves_unlock
    (acted : state.act build launcher .unlock = some (data, lock, processes)) :
    Moves build state launcher data lock processes := by
  rcases here : state.launchers launcher with ⟨shell, child, remover⟩
  have stage := sound.stageOf here
  simp only [SteamState.act, here, Option.ite_none_right_eq_some, Option.some.injEq,
    Prod.mk.injEq] at acted
  obtain ⟨rfl, rfl, rfl, rfl⟩ := acted
  cases stage with
  | moving _ _ _ points => simp at points
  | unlocked _ points => simp at points
  | gone points => simp at points
  | unlock present =>
      exact .released (by simp [here, SteamLauncher.Busy]) (.unlocked present (.inl rfl))
        (by simp [SteamLauncher.Busy])

private theorem SteamSound.moves_exec
    (acted : state.act build launcher .exec = some (data, lock, processes)) :
    Moves build state launcher data lock processes := by
  rcases here : state.launchers launcher with ⟨shell, child, remover⟩
  have stage := sound.stageOf here
  simp only [SteamState.act, here, Option.ite_none_right_eq_some, Option.some.injEq,
    Prod.mk.injEq] at acted
  obtain ⟨rfl, rfl, rfl, rfl⟩ := acted
  cases stage with
  | moving _ _ _ points => simp at points
  | gone points => simp at points
  | unlocked present _ =>
      exact .quiet (.unlocked present (.inr rfl)) (by simp [SteamLauncher.Busy])

private theorem SteamSound.moves_kill
    (acted : state.act build launcher .kill = some (data, lock, processes)) :
    Moves build state launcher data lock processes := by
  rcases here : state.launchers launcher with ⟨shell, child, remover⟩
  have stage := sound.stageOf here
  simp only [SteamState.act, here] at acted
  cases stage with
  | waiting | test | mktemp | arm | copy | chmod | moved | disarm | unlock =>
      cases acted
      exact .quiet (.gone (by simp) (by simp) (by simp)) (by simp [here, SteamLauncher.Busy])
  | moving absent staged complete points =>
      rcases points with ⟨rfl, rfl⟩ | ⟨rfl | ⟨other, rfl⟩, closed⟩ <;> cases acted
      · exact .quiet (.moving absent staged complete (.inr ⟨.inl rfl, by simp⟩))
          (by simp [here, SteamLauncher.Busy])
      · exact .quiet (.moving absent staged complete (.inr ⟨.inl rfl, closed⟩))
          (by simp [here, SteamLauncher.Busy])
  | unlocked present points =>
      rcases points with rfl | rfl <;> cases acted
      exact .quiet (.gone (by simp) (by simp) (by simp)) (by simp [SteamLauncher.Busy])
  | gone points child opened =>
      rcases points with rfl | ⟨staging, rfl⟩ <;> cases acted
      exact .quiet (.gone (by simp) child opened) (by simp [here, SteamLauncher.Busy])

private theorem SteamSound.moves_terminate
    (acted : state.act build launcher .terminate = some (data, lock, processes)) :
    Moves build state launcher data lock processes := by
  rcases here : state.launchers launcher with ⟨shell, child, remover⟩
  have stage := sound.stageOf here
  simp only [SteamState.act, here] at acted
  cases stage with
  | waiting | test | mktemp | arm | copy | chmod | moved | disarm | unlock =>
      cases acted
      exact .quiet (.gone (by simp) (by simp) (by simp))
        (by simp [here, SteamLauncher.Busy, SteamLauncher.terminate])
  | moving absent staged complete points =>
      rcases points with ⟨rfl, rfl⟩ | ⟨rfl | ⟨other, rfl⟩, closed⟩ <;> cases acted
      · exact .quiet (.moving absent staged complete (.inr ⟨.inr ⟨_, rfl⟩, by simp⟩))
          (by simp [here, SteamLauncher.Busy])
      · exact .quiet (.moving absent staged complete (.inr ⟨.inl rfl, closed⟩))
          (by simp [here, SteamLauncher.Busy])
  | unlocked present points =>
      rcases points with rfl | rfl <;> cases acted
      exact .quiet (.gone (by simp) (by simp) (by simp))
        (by simp [SteamLauncher.Busy, SteamLauncher.terminate])
  | gone points child opened =>
      rcases points with rfl | ⟨staging, rfl⟩ <;> cases acted
      exact .quiet (.gone (by simp) child opened) (by simp [here, SteamLauncher.Busy])

/-- The trap's `rm` opens no directory that is still to be moved. -/
def Waits (state : SteamState Launcher Version Name File)
    (action : Launcher × SteamStep Name File) : Prop :=
  action.2 = .rmOpen → ∀ staging, (state.launchers action.1).child ≠ some (.mv staging false)

private theorem SteamSound.moves_rmOpen (waits : Waits state (launcher, .rmOpen))
    (acted : state.act build launcher .rmOpen = some (data, lock, processes)) :
    Moves build state launcher data lock processes := by
  have idle := waits rfl
  rcases here : state.launchers launcher with ⟨shell, child, remover⟩
  have stage := sound.stageOf here
  simp only [here] at idle
  simp only [SteamState.act, here] at acted
  split at acted
  case h_1 staging =>
    cases stage with
    | moving => exact absurd rfl (idle _)
    | gone points child opened =>
        split at acted
        case h_1 missing =>
          cases acted
          rcases points with rfl | ⟨other, rfl⟩ <;>
            exact .quiet (.gone (.inl rfl) child (by simp)) (by simp [here, SteamLauncher.Busy])
        case h_2 directory staged =>
          cases acted
          refine .quiet (.gone points child ?_) (by simp [here, SteamLauncher.Busy])
          intro other opened same version found
          cases same
          exact sound.data.apart version staging directory found staged
  case h_2 => cases acted

private theorem SteamSound.moves_rmUnlink {file : File}
    (acted : state.act build launcher (.rmUnlink file) = some (data, lock, processes)) :
    Moves build state launcher data lock processes := by
  rcases here : state.launchers launcher with ⟨shell, child, remover⟩
  have stage := sound.stageOf here
  simp only [SteamState.act, here] at acted
  split at acted
  case h_1 staging directory =>
    cases acted
    cases stage with
    | moving absent staged complete points =>
        rcases points with ⟨-, none⟩ | ⟨-, closed⟩
        · cases none
        · exact absurd rfl (closed staging directory)
    | gone points child opened =>
        obtain ⟨dataSound, preserves⟩ := sound.data.setEntry file none
          (opened staging directory rfl)
        exact .owned (by simp [here, SteamLauncher.Busy]) dataSound preserves
          (.gone points child opened)
  case h_2 => cases acted

private theorem SteamSound.moves_rmDirectory
    (acted : state.act build launcher .rmDirectory = some (data, lock, processes)) :
    Moves build state launcher data lock processes := by
  rcases here : state.launchers launcher with ⟨shell, child, remover⟩
  have stage := sound.stageOf here
  simp only [SteamState.act, here] at acted
  split at acted
  case h_1 staging directory =>
    simp only [Option.ite_none_right_eq_some, Option.some.injEq, Prod.mk.injEq] at acted
    obtain ⟨-, rfl, rfl, rfl⟩ := acted
    cases stage with
    | moving absent staged complete points =>
        rcases points with ⟨-, none⟩ | ⟨-, closed⟩
        · cases none
        · exact absurd rfl (closed staging directory)
    | gone points child opened =>
        obtain ⟨dataSound, preserves⟩ := sound.data.setStaging staging
        exact .owned (by simp [here, SteamLauncher.Busy]) dataSound preserves
          (.gone points child opened)
  case h_2 => cases acted

private theorem SteamSound.moves_rmExit
    (acted : state.act build launcher .rmExit = some (data, lock, processes)) :
    Moves build state launcher data lock processes := by
  rcases here : state.launchers launcher with ⟨shell, child, remover⟩
  have stage := sound.stageOf here
  simp only [SteamState.act, here] at acted
  split at acted
  case h_1 =>
    cases acted
    cases stage with
    | moving absent staged complete points =>
        have closed : ∀ other opened, (none : Option (Remover Name)) ≠ some ⟨other, some opened⟩ :=
          fun _ _ => nofun
        rcases points with ⟨rfl, none⟩ | ⟨rfl | ⟨other, rfl⟩, -⟩
        · cases none
        · exact .quiet (.moving absent staged complete (.inr ⟨.inl rfl, closed⟩))
            (by simp [here, SteamLauncher.Busy])
        · exact .quiet (.moving absent staged complete (.inr ⟨.inl rfl, closed⟩))
            (by simp [here, SteamLauncher.Busy])
    | gone points child opened =>
        rcases points with rfl | ⟨other, rfl⟩ <;>
          exact .quiet (.gone (.inl rfl) child (by simp)) (by simp [here, SteamLauncher.Busy])
  case h_2 => cases acted

/-- Every step of a launcher is one of the four kinds, if the trap's `rm` waits. -/
theorem SteamSound.moves {step : SteamStep Name File} (waits : Waits state (launcher, step))
    (acted : state.act build launcher step = some (data, lock, processes)) :
    Moves build state launcher data lock processes := by
  cases step with
  | acquire => exact sound.moves_acquire acted
  | test => exact sound.moves_test acted
  | mktemp staging => exact sound.moves_mktemp acted
  | arm => exact sound.moves_arm acted
  | write file whole => exact sound.moves_write acted
  | makeWritable file => exact sound.moves_makeWritable acted
  | rename => exact sound.moves_rename acted
  | childExit success => exact sound.moves_childExit acted
  | disarm => exact sound.moves_disarm acted
  | unlock => exact sound.moves_unlock acted
  | exec => exact sound.moves_exec acted
  | kill => exact sound.moves_kill acted
  | terminate => exact sound.moves_terminate acted
  | rmOpen => exact sound.moves_rmOpen waits acted
  | rmUnlink file => exact sound.moves_rmUnlink acted
  | rmDirectory => exact sound.moves_rmDirectory acted
  | rmExit => exact sound.moves_rmExit acted

end Steps

variable [DecidableEq Launcher] {strays : Name → Option (Contents Version Name File)}
  {actions : List (Launcher × SteamStep Name File)}

omit [DecidableEq Launcher] [DecidableEq Version] [DecidableEq Name] in
/-- No launcher has started, and nothing is published. -/
theorem SteamSound.start :
    SteamSound build (.start strays : SteamState Launcher Version Name File) := by
  refine ⟨⟨?_, ?_, ?_, ?_, ?_⟩, fun _ => .waiting, ?_⟩
  · intro version directory found
    cases found
  · intro version staging directory found
    cases found
  · intro first second directory found foundToo
    obtain ⟨_, -, rfl⟩ := Option.map_eq_some_iff.mp found
    obtain ⟨_, -, same⟩ := Option.map_eq_some_iff.mp foundToo
    cases same
    rfl
  · intro version number found
    cases found
  · intro staging number found
    obtain ⟨_, -, same⟩ := Option.map_eq_some_iff.mp found
    cases same
  · intro launcher busy
    simp [SteamState.start, SteamLauncher.Busy] at busy

omit [DecidableEq Launcher] [DecidableEq Version] [DecidableEq Name] in
/-- No kind of step touches what is published. -/
theorem Moves.preserves (moves : Moves build state launcher data lock processes) :
    Preserves state.data data := by
  cases moves with
  | quiet | acquired | released => exact Preserves.refl _
  | owned _ _ preserves _ => exact preserves

/-- What a step keeps where the trap's `rm` waits for `mv`. -/
theorem SteamSound.step (sound : SteamSound build state) {action : Launcher × SteamStep Name File}
    (waits : Waits state action) {after : SteamState Launcher Version Name File}
    (stepped : (steam Name build).step state action = some after) :
    SteamSound build after ∧ Preserves state.data after.data := by
  obtain ⟨⟨data, lock, processes⟩, acted, rfl⟩ := Option.map_eq_some_iff.mp stepped
  have moves := sound.moves waits acted
  exact ⟨sound.of_moves moves, moves.preserves⟩

omit [DecidableEq Launcher] [DecidableEq Version] [DecidableEq Name] in
/-- The invariant says what is published and who executes Steam. -/
theorem SteamSound.published (sound : SteamSound build state) : Published build state := by
  refine ⟨sound.data.complete, ?_⟩
  intro launcher running
  have stage := sound.stage launcher
  rcases here : state.launchers launcher with ⟨shell, child, remover⟩
  rw [here] at stage running
  cases stage with
  | unlocked present _ => exact Option.ne_none_iff_exists'.mp present
  | moving _ _ _ points => simp_all
  | gone points => simp_all
  | waiting | test | mktemp | arm | copy | chmod | moved | disarm | unlock => cases running

/-- **A version is published once and for all.** Where no trap's `rm` opens a directory
that `mv` has still to move, every reachable data directory has the versions that have
been published complete, as they were when they were published, and a launcher executes
Steam only from one of them. -/
theorem steam_publishes (executed : (steam Name build).Run Waits (.start strays) actions state) :
    Published build state ∧ ∀ earlier later, actions = earlier ++ later →
      ∃ before, (steam Name build).run (.start strays) earlier = some before ∧
        Preserves before.data state.data := by
  have sound : SteamSound build state := executed.invariant (SteamSound build) .start
    fun _ _ _ sound waits stepped => (sound.step waits stepped).1
  refine ⟨sound.published, ?_⟩
  exact executed.related (SteamSound build) (fun before after => Preserves before.data after.data)
    .start (fun _ => Preserves.refl _) (fun _ _ _ => Preserves.trans)
    fun _ _ _ sound waits stepped => sound.step waits stepped

end Publication

/-- Two launchers of one version, which has one file. -/
def oneFile : Bootstraps Bool Unit Unit := ⟨fun _ => [()], (), fun _ => List.mem_singleton_self _,
  fun _ => ()⟩

/-- A launcher whose shell is killed during `cp` leaves a copy behind, and the next one
publishes its own. -/
def killedDuringCopy : List (Bool × SteamStep Nat Unit) :=
  [(true, .acquire), (true, .test), (true, .mktemp 0), (true, .arm), (true, .write () false),
    (true, .kill), (true, .childExit false), (false, .acquire), (false, .test),
    (false, .mktemp 1), (false, .arm), (false, .write () true), (false, .childExit true),
    (false, .makeWritable ()), (false, .childExit true), (false, .rename),
    (false, .childExit true), (false, .disarm), (false, .unlock), (false, .exec)]

/-- Whether a step keeps the trap's `rm` from what is still to be moved. -/
def waits (state : SteamState Bool Unit Nat Unit) (action : Bool × SteamStep Nat Unit) : Bool :=
  match action.2, (state.launchers action.1).child with
  | .rmOpen, some (.mv _ false) => false
  | _, _ => true

/-- The second launcher publishes its own copy after the first one's shell was killed. -/
theorem steam_publishes_after_kill :
    ∃ state : SteamState Bool Unit Nat Unit,
      (steam Nat oneFile).run (.start fun _ => none) killedDuringCopy = some state ∧
      state.data.versions () = some (.made 1) ∧ Published oneFile state := by
  obtain ⟨state, executed, version⟩ : ∃ state : SteamState Bool Unit Nat Unit,
      (steam Nat oneFile).run (.start fun _ => none) killedDuringCopy = some state ∧
      state.data.versions () = some (.made 1) := ⟨_, rfl, rfl⟩
  have every : (steam Nat oneFile).everyStep waits (.start fun _ => none) killedDuringCopy =
      true := by
    decide
  have run : (steam Nat oneFile).Run Waits (.start fun _ => none) killedDuringCopy state :=
    (Machine.Run.of_everyStep executed every).mono fun state action holds opens staging moves => by
      rw [waits, opens, moves] at holds
      cases holds
  exact ⟨state, executed, version, (steam_publishes run).1⟩

/-- The shell of the first launcher is terminated while `mv` is about to move its copy: the
trap's `rm` opens the directory first, and empties it when it has been published. The
second launcher's copy is moved into it, and Steam is executed without `bin_steam.sh`. -/
def terminatedDuringMove : List (Bool × SteamStep Nat Unit) :=
  [(true, .acquire), (true, .test), (true, .mktemp 0), (true, .arm), (true, .write () true),
    (true, .childExit true), (true, .makeWritable ()), (true, .childExit true),
    (true, .terminate), (true, .rmOpen), (true, .rename), (true, .rmUnlink ()), (true, .rmExit),
    (true, .childExit true), (false, .acquire), (false, .test), (false, .mktemp 1),
    (false, .arm), (false, .write () true), (false, .childExit true),
    (false, .makeWritable ()), (false, .childExit true), (false, .rename),
    (false, .childExit true), (false, .disarm), (false, .unlock), (false, .exec)]

/-- The published directory lacks `bin_steam.sh`, and the second launcher executes Steam all
the same. -/
theorem terminated_move_publishes_nothing :
    ∃ state : SteamState Bool Unit Nat Unit,
      (steam Nat oneFile).run (.start fun _ => none) terminatedDuringMove = some state ∧
      state.data.versions () = some (.made 0) ∧
      state.data.hasBinSteam oneFile () = false ∧
      (state.data.directories (.made 0)).nested = [1] ∧
      (state.launchers false).shell = .running ∧ ¬ Published oneFile state := by
  refine ⟨_, rfl, rfl, rfl, rfl, rfl, ?_⟩
  intro published
  have complete := published.complete () (.made 0) rfl
  exact absurd (complete.1 ()) (by decide)

end X86OnArm.Applications
