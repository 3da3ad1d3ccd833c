import X86OnArm.Runtime.GuestLaunch

/-! # The Wine launcher

The launcher settles where Wine keeps its data and hands the guest shell a script with the
user's arguments behind it. Through the runtime's own script and three shells, the guest's
script gets exactly these arguments and the settled variables (`wine_reaches_guest`).
-/

namespace X86OnArm.Applications

open Foundation Foundation.Shell X86OnArm.Runtime

/-- The packages that are rendered into the launcher. -/
structure WineBuild where
  runtime : Text
  wine : Text

/-- The script of the guest shell. -/
def wineScript (build : WineBuild) : Text :=
  text "\n    \"" ++ build.wine ++ text "/bin/wine\" \"$@\"\n    status=$?\n    \"" ++
    build.wine ++ text "/bin/wineserver\" -w\n    exit \"$status\"\n"

/-- `${name:-}`, where it has a value. -/
def given? (environ : Dict Text Text) (name : Text) : Option Text :=
  (environ.get? name).filter fun value => value ≠ []

/-- `${XDG_DATA_HOME:-$HOME/.local/share}`; there is none when `HOME` is needed and not set. -/
def dataHome? (environ : Dict Text Text) : Option Text :=
  (given? environ (text "XDG_DATA_HOME")).or
    ((environ.get? (text "HOME")).map (· ++ text "/.local/share"))

/-- `WINEPREFIX`. -/
def winePrefix? (environ : Dict Text Text) : Option Text :=
  (given? environ (text "WINEPREFIX")).or
    ((dataHome? environ).map (· ++ text "/x86-on-arm/wineprefix"))

def wineOverrides (environ : Dict Text Text) : Text :=
  (given? environ (text "WINEDLLOVERRIDES")).getD (text "winemenubuilder.exe=d")

/-- How the launcher ends. -/
inductive WineStart where
  | unbound
  | relative
  | unmade
  | replaced (process : Process)

/-- The arguments of `x86-arm shell`. -/
def shellArguments (build : WineBuild) (arguments : List Text) : List Text :=
  text "-c" :: wineScript build :: text "wine" :: arguments

/-- `wine.sh`, where `makes` says which directories can be made. -/
def startWine (build : WineBuild) (makes : Text → Bool) (environ : Dict Text Text)
    (arguments : List Text) : WineStart :=
  match winePrefix? environ with
  | none => .unbound
  | some directory =>
      if directory.head? ≠ some ('/' : CodePoint) then .relative
      else if makes directory = false then .unmade
      else .replaced ⟨(build.runtime ++ text "/bin/x86-arm") :: text "shell" ::
          shellArguments build arguments,
        (environ.insert (text "WINEPREFIX") directory).insert (text "WINEDLLOVERRIDES")
          (wineOverrides environ)⟩

section Launcher

variable {arguments : List Text}

/-- Where the launcher gets to the runtime, the prefix is an absolute directory that was made. -/
theorem startWine_replaced {build : WineBuild} {makes : Text → Bool} {environ : Dict Text Text}
    {process : Process} (started : startWine build makes environ arguments = .replaced process) :
    ∃ directory, winePrefix? environ = some directory ∧
      directory.head? = some ('/' : CodePoint) ∧ makes directory = true ∧
      process = ⟨(build.runtime ++ text "/bin/x86-arm") :: text "shell" ::
          shellArguments build arguments,
        (environ.insert (text "WINEPREFIX") directory).insert (text "WINEDLLOVERRIDES")
          (wineOverrides environ)⟩ := by
  unfold startWine at started
  cases settled : winePrefix? environ with
  | none =>
      rw [settled] at started
      cases started
  | some directory =>
      rw [settled] at started
      simp only at started
      split at started
      · cases started
      · rename_i absolute
        split at started
        · cases started
        · rename_i made
          cases started
          exact ⟨directory, rfl, not_not.mp absolute, eq_true_of_ne_false made, rfl⟩

theorem bashArguments_shell (build : WineBuild) (arguments : List Text) :
    bashArguments (shellArguments build arguments) =
      some ⟨wineScript build, text "wine", arguments⟩ := by
  have head : (wineScript build).head? = some ('\n' : CodePoint) := rfl
  unfold shellArguments
  rw [bashArguments, if_neg (by decide), if_pos rfl]
  apply if_neg
  rw [head]
  decide

/-- The launcher sets no variable that bash acts on. -/
theorem startsPlain_wine {environ : Dict Text Text} {directory overrides : Text}
    (plain : StartsPlain environ) :
    StartsPlain ((environ.insert (text "WINEPREFIX") directory).insert
      (text "WINEDLLOVERRIDES") overrides) := by
  intro key member
  rcases Dict.mem_insert.mp member with rfl | before
  · decide +kernel
  rcases Dict.mem_insert.mp before with rfl | given
  · decide +kernel
  · exact plain key given

end Launcher

/-- **Wine gets the user's arguments and its settled variables.** Where the launcher gets to
the runtime, whatever launch that makes, the guest's shell runs Wine's script on exactly the
user's arguments, in the caller's directory, with the prefix and the overrides the launcher
settled unless the configuration sets them, if the guest has that directory and nowhere a
variable makes bash do something first. -/
theorem wine_reaches_guest {build : WineBuild} {makes : Text → Bool} {environ : Dict Text Text}
    {arguments : List Text} {process : Process}
    (started : startWine build makes environ arguments = .replaced process)
    {host : Host} {settings : Settings} {configPath : Text} {launcher : Launcher}
    {prepared : Prepared} {invocation : Invocation}
    (prepares : prepare host settings launcher .shell (process.arguments.drop 2)
      process.environment = .ok prepared)
    (executed : (execute host settings configPath launcher .shell (process.arguments.drop 2)
      process.environment).result = .ok invocation)
    (free : NulFreeCommand prepared.target.program prepared.target.argv0
      prepared.target.arguments prepared.environment launcher.cwd)
    (keys : ∀ key ∈ prepared.environment, key ≠ [] ∧ ('=' : CodePoint) ∉ key)
    (absolute : launcher.cwd.head? = some ('/' : CodePoint))
    (plain : StartsPlain environ) (configured : StartsPlain settings.environment)
    (outer : Dict Text Text) (plainOuter : StartsPlain outer) (enter : Text → Bool)
    (entered : enter launcher.cwd = true) :
    ∃ directory launch, winePrefix? environ = some directory ∧
      directory.head? = some ('/' : CodePoint) ∧ makes directory = true ∧
      guestLaunch outer enter invocation.script.contents = some launch ∧
      launch.directory = some launcher.cwd ∧ launch.replacement.path = text "/bin/bash" ∧
      bashArguments launch.replacement.arguments =
        some ⟨wineScript build, text "wine", arguments⟩ ∧
      launch.environment.get? (text "WINEPREFIX") =
        (settings.environment.get? (text "WINEPREFIX")).or (some directory) ∧
      launch.environment.get? (text "WINEDLLOVERRIDES") =
        (settings.environment.get? (text "WINEDLLOVERRIDES")).or
          (some (wineOverrides environ)) := by
  obtain ⟨directory, settled, rooted, made, rfl⟩ := startWine_replaced started
  obtain ⟨-, found, -⟩ := prepare_eq_ok prepares
  have target := Except.ok.inj found
  obtain ⟨launch, transported, there, replacement, carried⟩ :=
    guest_of_execute prepares executed free keys absolute (startsPlain_wine plain) configured
      plainOuter entered
  rw [← target] at replacement
  refine ⟨directory, launch, settled, rooted, made, transported, there, ?_, ?_, ?_, ?_⟩
  · rw [replacement]
  · rw [replacement]
    exact bashArguments_shell build arguments
  · apply carried _ _ (by decide +kernel)
    rw [Dict.get?_insert_of_ne _ _ (by decide +kernel), Dict.get?_insert_self]
  · apply carried _ _ (by decide +kernel)
    rw [Dict.get?_insert_self]

/-- A caller with a home and nothing else. -/
def wineCaller : Dict Text Text := Dict.ofList [(text "HOME", text "/home/user")]

def wineBuild : WineBuild := ⟨text "/runtime", text "/wine"⟩

def wineProcess : Process where
  arguments := text "/runtime/bin/x86-arm" :: text "shell" ::
    shellArguments wineBuild [text "setup.exe", text "a b'"]
  environment := (wineCaller.insert (text "WINEPREFIX")
    (text "/home/user/.local/share/x86-on-arm/wineprefix")).insert (text "WINEDLLOVERRIDES")
      (text "winemenubuilder.exe=d")

theorem wine_reaches_guest_sample : ∃ invocation launch,
    (execute plainHost plainSettings (text "/config.json") plainLauncher .shell
      (wineProcess.arguments.drop 2) wineProcess.environment).result = .ok invocation ∧
    guestLaunch Dict.empty (fun _ => true) invocation.script.contents =
      some launch ∧
    bashArguments launch.replacement.arguments =
      some ⟨wineScript wineBuild, text "wine", [text "setup.exe", text "a b'"]⟩ ∧
    launch.environment.get? (text "WINEPREFIX") =
      some (text "/home/user/.local/share/x86-on-arm/wineprefix") := by
  have started : startWine wineBuild (fun _ => true) wineCaller [text "setup.exe", text "a b'"] =
      .replaced wineProcess := rfl
  have prepares : prepare plainHost plainSettings plainLauncher .shell
      (wineProcess.arguments.drop 2) wineProcess.environment = .ok _ := rfl
  have executed : (execute plainHost plainSettings (text "/config.json") plainLauncher .shell
      (wineProcess.arguments.drop 2) wineProcess.environment).result = .ok _ := rfl
  obtain ⟨directory, launch, settled, -, -, transported, -, -, command, prefixed, -⟩ :=
    wine_reaches_guest started prepares executed
      ⟨by decide +kernel, by decide +kernel, by decide +kernel, by decide +kernel,
        by decide +kernel⟩ (by decide +kernel) (by decide +kernel) (by decide +kernel)
      (by decide +kernel) Dict.empty (by decide +kernel) (fun _ => true) rfl
  cases settled
  exact ⟨_, launch, executed, transported, command, prefixed⟩

end X86OnArm.Applications
