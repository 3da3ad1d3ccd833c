import X86OnArm.Runtime.Service

/-! # The X11 socket of the VM

The launcher looks for the socket the X server listens on, the VM's graphics device connects
its X11 channel, and the guest takes the display's number for its own. From one `DISPLAY` all
three come to the same display, and the channel reaches a server wherever one listens
(`service_forwards_x11`).
-/

namespace X86OnArm.Runtime

open Foundation

def point : CodePoint := '.'

/-- `split('.').next()`. -/
def beforePoint (value : Text) : Text := value.takeWhile (· != point)

/-- `strip_prefix(":")`. -/
def afterColon : Text → Option Text
  | [] => none
  | c :: rest => if c = colon then some rest else none

def socketDirectory : Text := text "/tmp/.X11-unix/X"

/-- `virtio_gpu.rs`: the socket of the X11 channel. `DISPLAY` is only read as Unicode. -/
def x11Channel (environ : Dict Text Text) : Option Text := do
  let display ← environ.get? (text "DISPLAY")
  if display.any (fun c => decide c.IsSurrogate) then none
  else
    let display ← afterColon display
    return (environ.get? (text "X11_SOCKET")).getD (socketDirectory ++ beforePoint display)

/-- `x11.rs`: the number under which the guest looks for the display's authority. -/
def guestDisplay (hostDisplay : Text) : Option Text := (afterColon hostDisplay).map beforePoint

/-- The digits of `\d` are neither points nor halves of a surrogate pair. -/
structure Digits (isDecimal : CodePoint → Bool) : Prop where
  point : isDecimal point = false
  surrogate : ∀ c, isDecimal c = true → ¬ c.IsSurrogate

/-- A server listens on the socket. -/
def Listens (host : Host) (path : Text) : Prop :=
  ∃ socket, host.socketAt path = some socket ∧ socket.accepts = true

/-- A server for the display listens at the usual place, or under the other name as the
user's own. -/
def HasServer (host : Host) (number : Text) : Prop :=
  Listens host (socketDirectory ++ number) ∨
    ∃ socket, host.socketAt (socketDirectory ++ number ++ text "_") = some socket ∧
      socket.owner = host.uid ∧ socket.accepts = true

section Displays

variable {host : Host} {display number : Text}

/-- A local display is a colon, the digits of its number, and a screen or none. -/
theorem localDisplay_parts (isLocal : localDisplay host.isDecimal display = some number) :
    ∃ screen, display = colon :: (number ++ screen) ∧
      (∀ d ∈ number, host.isDecimal d = true) ∧
      (screen = [] ∨ ∃ more, screen = point :: more ∧ ∀ d ∈ more, host.isDecimal d = true) := by
  cases display with
  | nil => cases isLocal
  | cons c rest =>
      unfold localDisplay at isLocal
      simp only at isLocal
      split at isLocal
      case isFalse => cases isLocal
      case isTrue shape =>
        obtain ⟨rfl, -, screen⟩ := shape
        cases isLocal
        refine ⟨rest.dropWhile host.isDecimal, ?_, fun d => List.mem_takeWhile_imp, ?_⟩
        · rw [List.takeWhile_append_dropWhile]
          rfl
        · rcases screen with none | ⟨starts, -, all⟩
          · exact .inl none
          · obtain ⟨more, parts⟩ := List.head?_eq_some_iff.mp starts
            rw [parts] at all
            exact .inr ⟨more, parts, List.all_eq_true.mp all⟩

theorem stripped_local (digits : Digits host.isDecimal)
    (isLocal : localDisplay host.isDecimal display = some number) :
    (afterColon display).map beforePoint = some number := by
  obtain ⟨screen, rfl, decimals, shape⟩ := localDisplay_parts isLocal
  have stops : screen.takeWhile (· != point) = [] := by
    rcases shape with rfl | ⟨more, rfl, -⟩
    · rfl
    · rfl
  have before : beforePoint (number ++ screen) = number := by
    unfold beforePoint
    rw [List.takeWhile_append_of_pos, stops, List.append_nil]
    intro d inside
    apply bne_iff_ne.mpr
    rintro rfl
    exact Bool.false_ne_true (digits.point.symm.trans (decimals _ inside))
  change some (beforePoint (number ++ screen)) = some number
  rw [before]

theorem unicode_local (digits : Digits host.isDecimal)
    (isLocal : localDisplay host.isDecimal display = some number) :
    display.any (fun c => decide c.IsSurrogate) = false := by
  obtain ⟨screen, rfl, decimals, shape⟩ := localDisplay_parts isLocal
  apply List.any_eq_false.mpr
  intro d member
  rw [decide_eq_true_eq]
  rcases List.mem_cons.mp member with rfl | later
  · decide
  rcases List.mem_append.mp later with inside | behind
  · exact digits.surrogate d (decimals d inside)
  rcases shape with rfl | ⟨more, rfl, all⟩
  · exact absurd behind List.not_mem_nil
  rcases List.mem_cons.mp behind with rfl | inMore
  · decide
  · exact digits.surrogate d (all d inMore)

/-- The channel of a local display. -/
theorem x11Channel_local {environ : Dict Text Text} (digits : Digits host.isDecimal)
    (shown : environ.get? (text "DISPLAY") = some display)
    (isLocal : localDisplay host.isDecimal display = some number) :
    x11Channel environ =
      some ((environ.get? (text "X11_SOCKET")).getD (socketDirectory ++ number)) := by
  obtain ⟨rest, starts, before⟩ := Option.map_eq_some_iff.mp (stripped_local digits isLocal)
  unfold x11Channel
  simp only [shown, Option.bind_eq_bind, Option.bind_some, unicode_local digits isLocal,
    Bool.false_eq_true, if_false, starts, before]
  rfl

/-- The launcher's test of a candidate. -/
def probes (host : Host) (renamed candidate : Text) : Bool :=
  match host.socketAt candidate with
  | none => false
  | some socket => (candidate ≠ renamed || socket.owner = host.uid) && socket.accepts

theorem x11Socket_eq {source : Dict Text Text}
    (unset : (source.get? (text "X11_SOCKET")).getD [] = [])
    (given : source.get? (text "DISPLAY") = some display)
    (isLocal : localDisplay host.isDecimal display = some number) :
    x11Socket host source =
      [socketDirectory ++ number, socketDirectory ++ number ++ text "_"].find?
        (probes host (socketDirectory ++ number ++ text "_")) := by
  unfold x11Socket
  simp only [unset, given, Option.getD_some, isLocal]
  rfl

theorem probes_iff {renamed candidate : Text} :
    probes host renamed candidate = true ↔ ∃ socket, host.socketAt candidate = some socket ∧
      (candidate ≠ renamed ∨ socket.owner = host.uid) ∧ socket.accepts = true := by
  unfold probes
  cases stored : host.socketAt candidate with
  | none =>
      apply iff_of_false Bool.false_ne_true
      rintro ⟨_, found, -⟩
      cases found
  | some socket =>
      simp only [Bool.and_eq_true, Bool.or_eq_true, decide_eq_true_eq]
      constructor
      · exact fun probed => ⟨socket, rfl, probed⟩
      · rintro ⟨_, ⟨⟩, probed⟩
        exact probed

/-- Where a server listens the launcher finds one. -/
theorem exists_x11Socket {source : Dict Text Text}
    (unset : (source.get? (text "X11_SOCKET")).getD [] = [])
    (given : source.get? (text "DISPLAY") = some display)
    (isLocal : localDisplay host.isDecimal display = some number)
    (listens : HasServer host number) :
    ∃ path, x11Socket host source = some path ∧ Listens host path := by
  have found : ∃ candidate ∈ [socketDirectory ++ number, socketDirectory ++ number ++ text "_"],
      probes host (socketDirectory ++ number ++ text "_") candidate = true := by
    rcases listens with ⟨socket, stored, accepts⟩ | ⟨socket, stored, own, accepts⟩
    · have different : socketDirectory ++ number ≠ socketDirectory ++ number ++ text "_" := by
        intro same
        have lengths := congrArg List.length same
        rw [@List.length_append _ (socketDirectory ++ number)] at lengths
        exact absurd lengths (Nat.ne_of_lt (Nat.lt_add_of_pos_right (by decide)))
      exact ⟨_, List.mem_cons_self, probes_iff.mpr ⟨socket, stored, .inl different, accepts⟩⟩
    · exact ⟨_, List.mem_cons_of_mem _ List.mem_cons_self,
        probes_iff.mpr ⟨socket, stored, .inr own, accepts⟩⟩
  obtain ⟨path, first⟩ := Option.isSome_iff_exists.mp (List.find?_isSome.mpr found)
  obtain ⟨socket, stored, -, accepts⟩ := probes_iff.mp (List.find?_some first)
  exact ⟨path, (x11Socket_eq unset given isLocal).trans first, socket, stored, accepts⟩

end Displays

/-- **The guest reaches the caller's X server.** For every local display, the VM that a
caller's unit starts takes it for the same number, and unless the manager has a socket that the
caller does not name, its channel is the socket the caller names or finds; where it names none
and a server listens, a server listens at the channel. -/
theorem service_forwards_x11 {host : Host} {settings : Settings} {configPath : Text}
    {source : Dict Text Text} {machine : VirtualMachine}
    (created : VirtualMachine.create host settings configPath source = .ok machine)
    (words : CommandWords [host.pythonExecutable, host.servicePath, configPath])
    (manager : UserManager) (configured : ServiceSettings) (home : Text)
    (digits : Digits host.isDecimal) (display number : Text)
    (given : source.get? (text "DISPLAY") = some display)
    (isLocal : localDisplay host.isDecimal display = some number)
    (settled : text "X11_SOCKET" ∈ source ∨ text "X11_SOCKET" ∉ manager.environment)
    (command : List Text) (environ : Dict Text Text)
    (starts : manager.start (machine.systemdRunArguments host home).tail =
      some (command, environ)) :
    command = [host.pythonExecutable, host.servicePath, configPath] ∧
      ∀ process, service host configured configPath environ = .ok process →
        guestDisplay display = some number ∧
        x11Channel process.environment =
          some (((x11Socket host source).or (source.get? (text "X11_SOCKET"))).getD
            (socketDirectory ++ number)) ∧
        (text "X11_SOCKET" ∉ source → HasServer host number →
          ∃ path, x11Channel process.environment = some path ∧ Listens host path) := by
  obtain ⟨runtime, identity, stored, nonempty, identified, same⟩ := create_eq_ok created
  subst same
  obtain ⟨same, held⟩ := unit_environment manager host _ home words starts
  refine ⟨same, ?_⟩
  intro process served
  have vm := served_of_service created held served
  have shown : process.environment.get? (text "DISPLAY") = some display :=
    vm.session _ List.mem_cons_self (by decide +kernel) (by decide +kernel) display given
  have socket : process.environment.get? (text "X11_SOCKET") =
      (x11Socket host source).or (source.get? (text "X11_SOCKET")) := by
    apply vm.x11
    intro key member
    rcases List.mem_pair.mp member with rfl | rfl
    · exact .inl (Dict.mem_iff_get?.mpr ⟨display, given⟩)
    · exact settled
  have channel := x11Channel_local digits shown isLocal
  rw [socket] at channel
  refine ⟨stripped_local digits isLocal, channel, ?_⟩
  intro absent listens
  have unset : (source.get? (text "X11_SOCKET")).getD [] = [] := by
    rw [Dict.get?_eq_none.mpr absent]
    rfl
  obtain ⟨path, found, reached⟩ := exists_x11Socket unset given isLocal listens
  refine ⟨path, ?_, reached⟩
  rw [channel, found]
  rfl

section Desktop

/-- Xwayland under the other name of its socket, behind a stale file at the usual one. -/
def desktopHost : Host :=
  { plainHost with
    socketAt := fun path =>
      if path = text "/tmp/.X11-unix/X0_" then some ⟨1000, true⟩
      else if path = text "/tmp/.X11-unix/X0" then some ⟨1000, false⟩
      else none }

theorem digits_desktop : Digits desktopHost.isDecimal where
  point := by decide +kernel
  surrogate c listed := by
    have inside : c ∈ text "0123456789" := of_decide_eq_true listed
    have plain : ∀ d ∈ text "0123456789", ¬ d.IsSurrogate := by decide +kernel
    exact plain c inside

theorem service_forwards_x11_desktop : ∃ environ process,
    VirtualMachine.create desktopHost plainSettings (text "/config.json") sessionSource =
      .ok (sessionMachine plainSettings) ∧
    rootManager.start ((sessionMachine plainSettings).systemdRunArguments desktopHost
        (text "/home/user")).tail =
      some ([text "/python3", text "/service.py", text "/config.json"], environ) ∧
    service desktopHost plainService (text "/config.json") environ = .ok process ∧
    guestDisplay (text ":0.1") = some (text "0") ∧
    x11Channel process.environment = some (text "/tmp/.X11-unix/X0_") := by
  have inSource : sessionSource.get? (text "XDG_RUNTIME_DIR") = some (text "/run/user/1000") := by
    decide +kernel
  have identified : desktopHost.identity (text "/config.json") = .ok (text "0123456789ab") := rfl
  have created : VirtualMachine.create desktopHost plainSettings (text "/config.json")
      sessionSource = .ok (sessionMachine plainSettings) :=
    create_of_runtime inSource (by decide) identified
  obtain ⟨command, environ, starts⟩ := rootManager_starts plainSettings
  obtain ⟨rfl, forwarded⟩ := service_forwards_x11 created words_plain rootManager plainService
    (text "/home/user") digits_desktop (text ":0.1") (text "0") (by decide +kernel)
    (by decide +kernel) (.inr (by decide +kernel)) command environ starts
  obtain ⟨-, held⟩ :=
    unit_environment rootManager desktopHost (sessionMachine plainSettings) (text "/home/user")
      words_plain starts
  have inEnviron : environ.get? (text "XDG_RUNTIME_DIR") = some (text "/run/user/1000") := by
    rw [held _ (by decide +kernel)]
    exact (congrArg (Option.or · _) inSource).trans (Option.some_or ..)
  have again := @create_of_runtime _ plainSettings _ _ _ _ inEnviron (by decide) identified
  have served : ∃ process,
      service desktopHost plainService (text "/config.json") environ = .ok process := by
    unfold service
    rw [show plainService.toSettings = plainSettings from rfl, again]
    exact ⟨_, rfl⟩
  obtain ⟨process, served⟩ := served
  obtain ⟨number, channel, -⟩ := forwarded process served
  refine ⟨environ, process, created, starts, served, number, channel.trans ?_⟩
  decide +kernel

end Desktop

end X86OnArm.Runtime
