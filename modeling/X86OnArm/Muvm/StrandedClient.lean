import X86OnArm.Muvm.InputFraming
import X86OnArm.Muvm.RequestLifetime

/-! # Who holds the transport of a request

`run_io_guest` and `forward_input` each hold a descriptor of the transport socket,
and the client sees its end only when both have closed theirs. `client_not_stranded`
says when a request that is over leaves its client with an exit packet or that end;
`stranded_forever` says what becomes of the client otherwise.
-/

namespace X86OnArm.Muvm

open Foundation

/-- `forward_input` has returned, on an error of its stream or of its packets. -/
def Decoder.ended (decoder : Decoder) : Bool :=
  match decoder.phase with
  | .returned | .unexpected _ => true
  | .reading _ _ | .writing _ => false

/-- The actions of `run_io_guest` itself, not of the streams it reads. -/
def GuestAction.ofLoop : GuestAction → Bool
  | .poll _ _ | .fail | .read _ | .handle _ | .report | .exit _ => true
  | .write _ _ | .hangUp _ | .reopen | .writeStatus _ | .closeStatus => false

def RequestAction.ofLoop : RequestAction → Bool
  | .io action => action.ofLoop
  | .client _ | .process _ | .worker _ => false

/-- A request with the thread that decodes the client's input. -/
structure IoRequest where
  request : Request
  /-- Whether `run_io_guest` has connected the transport, duplicated its descriptor
  and started `forward_input` on it. -/
  connected : Bool
  decoder : Decoder
  /-- What the client has written to the transport and `forward_input` has not read. -/
  input : List Byte
  childReads : Bool

inductive ForwardAction where
  | receive (count : Nat)
  | deliver (count : Nat)
  | brokenPipe
  | endOfStream
  /-- A read, a write to the child or a resize fails. -/
  | fail
  deriving DecidableEq

inductive IoRequestAction where
  | request (action : RequestAction)
  | connect
  | send (bytes : List Byte)
  | forward (action : ForwardAction)
  | closeStdin
  deriving DecidableEq

namespace IoRequest

def start (tty : Bool) : IoRequest := ⟨.start tty, false, .start, [], true⟩

/-- `forward_input` holds a descriptor of the transport. -/
def inputHolds (state : IoRequest) : Bool := state.connected && !state.decoder.ended

/-- `run_io_guest` holds a descriptor of the transport. -/
def ioHolds (state : IoRequest) : Bool :=
  state.connected &&
    match state.request.guest.phase with
    | .returned _ => false
    | _ => true

def forwardStep (hostCodes : HostOpcodes) (state : IoRequest) : ForwardAction → Option IoRequest
  | .receive count =>
      if 0 < count ∧ count ≤ state.input.length then
        (state.decoder.receive hostCodes (state.input.take count)).map fun decoder =>
          { state with decoder := decoder, input := state.input.drop count }
      else none
  | .deliver count =>
      if state.childReads then
        (state.decoder.deliver count).map fun decoder => { state with decoder := decoder }
      else none
  | .brokenPipe =>
      if state.childReads then none
      else state.decoder.brokenPipe.map fun decoder => { state with decoder := decoder }
  | .endOfStream =>
      if state.request.client = .gone ∧ state.input = [] then
        state.decoder.endOfStream.map fun decoder => { state with decoder := decoder }
      else none
  | .fail => some { state with decoder := { state.decoder with phase := .returned } }

def step (hostCodes : HostOpcodes) (codes : GuestOpcodes) (state : IoRequest) :
    IoRequestAction → Option IoRequest
  | .request action =>
      -- only a failure to connect comes before the connection
      if action.ofLoop ∧ ¬ state.connected ∧ action ≠ .io .fail then none
      else (state.request.step codes action).map fun request => { state with request := request }
  | .connect =>
      if ¬ state.connected ∧ state.request.guest.phase = .waiting then
        some { state with connected := true }
      else none
  | .send bytes =>
      if state.connected ∧ state.request.client ≠ .requesting ∧ state.request.client ≠ .gone then
        some { state with input := state.input ++ bytes }
      else none
  | .forward action => if state.inputHolds then state.forwardStep hostCodes action else none
  | .closeStdin => some { state with childReads := false }

/-- When `run_io_guest` and `wait_for_child` have returned, the client was sent the exit
packet or no thread holds the transport any more. -/
def Unstranded (codes : GuestOpcodes) (state : IoRequest) : Prop :=
  ∀ normally, state.request.guest.phase = .returned normally →
    state.request.worker = .returned →
    ExitSent codes state.request.guest ∨ (state.ioHolds = false ∧ state.inputHolds = false)

end IoRequest

/-- A request, its client and the guest's threads. -/
def ioRequest (hostCodes : HostOpcodes) (codes : GuestOpcodes) :
    Machine IoRequest IoRequestAction := ⟨IoRequest.step hostCodes codes⟩

namespace IoRequest

variable {hostCodes : HostOpcodes} {codes : GuestOpcodes} {state after : IoRequest}

/-- The step does not make `run_io_guest` return an error, unless `forward_input` has
ended before or the transport is not connected. -/
def failsLast (hostCodes : HostOpcodes) (codes : GuestOpcodes) (state : IoRequest)
    (action : IoRequestAction) : Bool :=
  (state.step hostCodes codes action).all fun after =>
    after.request.guest.phase ≠ .returned false ||
      state.request.guest.phase = .returned false || !state.inputHolds

theorem free_of_failsLast {action : IoRequestAction}
    (last : state.failsLast hostCodes codes action = true)
    (stepped : state.step hostCodes codes action = some after)
    (failed : after.request.guest.phase = .returned false) :
    state.request.guest.phase = .returned false ∨ state.inputHolds = false := by
  unfold failsLast at last
  rw [stepped, Option.all_some, failed] at last
  simpa only [ne_eq, not_true_eq_false, decide_false, Bool.false_or, Bool.or_eq_true,
    decide_eq_true_eq, Bool.not_eq_true'] using last

/-- What a step does to the request and to `forward_input`. -/
inductive IoEffect (codes : GuestOpcodes) (state after : IoRequest) : Prop where
  | request (action : RequestAction)
      (stepped : state.request.step codes action = some after.request)
      (connected : after.connected = state.connected) (decoder : after.decoder = state.decoder)
  | connect (request : after.request = state.request) (unconnected : state.connected = false)
      (waiting : state.request.guest.phase = .waiting)
  | input (request : after.request = state.request)
      (connected : after.connected = state.connected) (decoder : after.decoder = state.decoder)
  | forward (request : after.request = state.request) (holds : state.inputHolds = true)

theorem step_effect {action : IoRequestAction}
    (stepped : state.step hostCodes codes action = some after) : state.IoEffect codes after := by
  cases action with
  | request action =>
      simp only [step, Option.ite_none_left_eq_some, Option.map_eq_some_iff] at stepped
      obtain ⟨_, request, stepped, rfl⟩ := stepped
      exact .request action stepped rfl rfl
  | connect =>
      simp only [step, Option.ite_none_right_eq_some, Option.some.injEq] at stepped
      obtain ⟨⟨unconnected, waiting⟩, rfl⟩ := stepped
      exact .connect rfl (eq_false_of_ne_true unconnected) waiting
  | send bytes =>
      simp only [step, Option.ite_none_right_eq_some, Option.some.injEq] at stepped
      obtain ⟨_, rfl⟩ := stepped
      exact .input rfl rfl rfl
  | forward action =>
      simp only [step, Option.ite_none_right_eq_some] at stepped
      obtain ⟨holds, stepped⟩ := stepped
      refine .forward ?_ holds
      cases action with
      | receive | deliver | endOfStream =>
          simp only [forwardStep, Option.ite_none_right_eq_some, Option.map_eq_some_iff] at stepped
          obtain ⟨_, _, _, rfl⟩ := stepped
          rfl
      | brokenPipe =>
          simp only [forwardStep, Option.ite_none_left_eq_some, Option.map_eq_some_iff] at stepped
          obtain ⟨_, _, _, rfl⟩ := stepped
          rfl
      | fail =>
          cases stepped
          rfl
  | closeStdin =>
      cases stepped
      exact .input rfl rfl rfl

/-- A failed `run_io_guest` has left nobody behind. -/
structure Sound (codes : GuestOpcodes) (state : IoRequest) : Prop where
  request : state.request.Sound codes
  alone : state.request.guest.phase = .returned false → state.inputHolds = false

theorem start_sound (codes : GuestOpcodes) (tty : Bool) : (start tty).Sound codes :=
  ⟨Request.start_sound codes tty, nofun⟩

theorem inputHolds_congr (connected : after.connected = state.connected)
    (decoder : after.decoder = state.decoder) : after.inputHolds = state.inputHolds := by
  unfold inputHolds
  rw [connected, decoder]

theorem Sound.step (sound : state.Sound codes) {action : IoRequestAction}
    (last : state.failsLast hostCodes codes action = true)
    (stepped : state.step hostCodes codes action = some after) : after.Sound codes := by
  have alone : after.request.guest.phase = .returned false → state.inputHolds = false := by
    intro failed
    rcases free_of_failsLast last stepped failed with before | free
    · exact sound.alone before
    · exact free
  cases step_effect stepped with
  | request action stepped connected decoder =>
      refine ⟨sound.request.step stepped, fun failed => ?_⟩
      rw [inputHolds_congr connected decoder]
      exact alone failed
  | connect request unconnected waiting =>
      refine ⟨request ▸ sound.request, fun failed => ?_⟩
      rw [request, waiting] at failed
      cases failed
  | input request connected decoder =>
      refine ⟨request ▸ sound.request, fun failed => ?_⟩
      rw [inputHolds_congr connected decoder]
      exact alone failed
  | forward request holds =>
      refine ⟨request ▸ sound.request, fun failed => ?_⟩
      exact absurd (holds.symm.trans (alone failed)) nofun

/-- A loop that returns normally has sent the exit packet. -/
theorem exitSent_of_returned {guest : Guest} (sound : guest.Sound codes)
    (returned : guest.phase = .returned true) : ExitSent codes guest := by
  have phase := sound.phase
  unfold Guest.PhaseSound at phase
  rw [returned] at phase
  obtain ⟨data, code, log, _⟩ := phase
  refine ⟨⟨packCommand codes.exit code.toNat, []⟩, ?_, opcode_exitPacket codes code⟩
  rw [log]
  exact List.mem_append_right _ (List.mem_cons_of_mem _ List.mem_cons_self)

theorem Sound.unstranded (sound : state.Sound codes) : state.Unstranded codes := by
  intro normally returned _
  cases normally with
  | true => exact .inl (exitSent_of_returned sound.request.guest returned)
  | false =>
      refine .inr ⟨?_, sound.alone returned⟩
      unfold ioHolds
      rw [returned, Bool.and_false]

/-! ## A stranded client -/

/-- Everybody has returned but `forward_input`, which waits for a client that has got no
exit packet. -/
structure Stranded (codes : GuestOpcodes) (state : IoRequest) : Prop where
  failed : state.request.guest.phase = .returned false
  ended : state.request.worker = .returned
  connected : state.connected = true
  reading : ∃ expected got, state.decoder.phase = .reading expected got
  quiet : state.input = []
  present : state.request.client ≠ .gone
  unsent : ¬ ExitSent codes state.request.guest

theorem Stranded.inputHolds (stranded : state.Stranded codes) : state.inputHolds = true := by
  obtain ⟨expected, got, reading⟩ := stranded.reading
  unfold IoRequest.inputHolds Decoder.ended
  rw [stranded.connected, reading]
  rfl

theorem Stranded.not_unstranded (stranded : state.Stranded codes) : ¬ state.Unstranded codes := by
  intro unstranded
  rcases unstranded false stranded.failed stranded.ended with sent | ⟨_, free⟩
  · exact stranded.unsent sent
  · exact absurd (stranded.inputHolds.symm.trans free) nofun

/-- The client writes nothing and stays connected, and `forward_input` meets no error. -/
def Quiet (action : IoRequestAction) : Prop :=
  (∀ bytes, action ≠ .send bytes) ∧ action ≠ .request (.client .disconnect) ∧
    action ≠ .forward .fail

/-- A returned loop does nothing more; its streams may be written to. -/
theorem guest_step_of_returned {guest next : Guest} {action : GuestAction}
    (returned : guest.phase = .returned false) (output : action.isOutput = true)
    (stepped : guest.step codes action = some next) :
    next.phase = .returned false ∧ next.log = guest.log := by
  cases Guest.effect_of_step stepped with
  | write | hangUp | reopen => exact ⟨returned, rfl⟩
  | writeStatus | closeStatus => cases output
  | poll here | pollHungUp here | fail here | read here | handleHungUp here | handle here
  | report here | exit here | unsent here => exact absurd (returned.symm.trans here) nofun

/-- What a request whose worker has returned can still do. -/
theorem request_step_of_over {request next : Request} {action : RequestAction}
    (failed : request.guest.phase = .returned false) (ended : request.worker = .returned)
    (present : request.client ≠ .gone) (stays : action ≠ .client .disconnect)
    (stepped : request.step codes action = some next) :
    next.guest.phase = .returned false ∧ next.guest.log = request.guest.log ∧
      next.worker = .returned ∧ next.client ≠ .gone := by
  cases action with
  | client action =>
      cases Request.clientEffect_of_step stepped with
      | disconnect => exact absurd rfl stays
      | ok | exit | acknowledge => exact ⟨failed, rfl, ended, nofun⟩
      | receive | stray => exact ⟨failed, rfl, ended, present⟩
  | io action =>
      simp only [Request.step, Option.ite_none_right_eq_some, Option.map_eq_some_iff] at stepped
      obtain ⟨output, guest, moved, rfl⟩ := stepped
      obtain ⟨phase, log⟩ := guest_step_of_returned failed output moved
      exact ⟨phase, log, ended, present⟩
  | process action =>
      cases Request.processEffect_of_step stepped with
      | fork | exit => exact ⟨failed, rfl, ended, present⟩
  | worker action =>
      simp only [Request.step] at stepped
      cases action with
      | complete | acknowledged | terminate | waitAgain | remove =>
          simp only [Request.workerStep, ended, reduceCtorEq] at stepped

theorem Stranded.step (stranded : state.Stranded codes) {action : IoRequestAction}
    (calm : Quiet action) (stepped : state.step hostCodes codes action = some after) :
    after.Stranded codes := by
  obtain ⟨silent, stays, healthy⟩ := calm
  cases action with
  | request action =>
      simp only [IoRequest.step, Option.ite_none_left_eq_some, Option.map_eq_some_iff] at stepped
      obtain ⟨_, request, stepped, rfl⟩ := stepped
      obtain ⟨failed, log, ended, present⟩ := request_step_of_over stranded.failed stranded.ended
        stranded.present (fun same => stays (congrArg IoRequestAction.request same)) stepped
      refine ⟨failed, ended, stranded.connected, stranded.reading, stranded.quiet, present, ?_⟩
      unfold ExitSent
      rw [log]
      exact stranded.unsent
  | connect =>
      simp only [IoRequest.step, stranded.connected, not_true_eq_false, false_and,
        ↓reduceIte, reduceCtorEq] at stepped
  | send bytes => exact absurd rfl (silent bytes)
  | forward action =>
      obtain ⟨expected, got, reading⟩ := stranded.reading
      simp only [IoRequest.step, Option.ite_none_right_eq_some] at stepped
      obtain ⟨_, stepped⟩ := stepped
      cases action with
      | fail => exact absurd rfl healthy
      | receive count =>
          simp only [forwardStep, stranded.quiet, List.length_nil,
            Option.ite_none_right_eq_some] at stepped
          omega
      | deliver count =>
          simp only [forwardStep, Decoder.deliver, reading, Option.map_none,
            ite_self, reduceCtorEq] at stepped
      | brokenPipe =>
          simp only [forwardStep, Decoder.brokenPipe, reading, Option.map_none,
            ite_self, reduceCtorEq] at stepped
      | endOfStream =>
          simp only [forwardStep, Option.ite_none_right_eq_some] at stepped
          exact absurd stepped.1.1 stranded.present
  | closeStdin =>
      cases stepped
      exact ⟨stranded.failed, stranded.ended, stranded.connected, stranded.reading,
        stranded.quiet, stranded.present, stranded.unsent⟩

end IoRequest

/-- **A request that is over has not stranded its client** in any run in which
`run_io_guest` returns an error only after `forward_input` has ended. -/
theorem client_not_stranded (hostCodes : HostOpcodes) (codes : GuestOpcodes) (tty : Bool)
    (trace : List IoRequestAction) (state : IoRequest)
    (ran : (ioRequest hostCodes codes).Run
      (fun state action => state.failsLast hostCodes codes action = true) (IoRequest.start tty)
      trace state) : state.Unstranded codes := by
  have sound := ran.invariant (IoRequest.Sound codes) (IoRequest.start_sound codes tty)
    fun _ _ _ sound last stepped => IoRequest.Sound.step sound last stepped
  exact sound.unstranded

/-- **A stranded client stays so**: whatever the guest does, it gets neither an exit
packet nor the end of the transport, until it writes, goes away or `forward_input` meets
an error. -/
theorem stranded_forever (hostCodes : HostOpcodes) (codes : GuestOpcodes)
    (trace : List IoRequestAction) (start state : IoRequest) (stranded : start.Stranded codes)
    (ran : (ioRequest hostCodes codes).Run (fun _ action => IoRequest.Quiet action) start trace
      state) : state.Stranded codes :=
  ran.invariant (IoRequest.Stranded codes) stranded
    fun _ _ _ stranded calm stepped => IoRequest.Stranded.step stranded calm stepped

/-- `run_io_guest` cannot read the child's output, and the child exits. -/
def failedRead : List IoRequestAction :=
  [.request (.io (.write .stdout [1])), .request (.io (.poll (.output .stdout) ⟨true, false⟩)),
    .request (.io (.read .failed)), .request (.io (.handle true)),
    .request (.process (.exit 0 0)), .request (.worker (.complete false)),
    .request (.worker (.complete true)), .request (.worker (.terminate false)),
    .request (.worker (.terminate false)), .request (.worker (.terminate false)),
    .request (.worker (.waitAgain false)), .request (.worker (.remove false)),
    .request (.worker (.remove false))]

/-- The client has been told of its request and `run_io_guest` has connected. -/
def connected : List IoRequestAction := [.request (.client .ok), .connect]

/-- `forward_input` has failed before. -/
theorem client_not_stranded_sample : ∃ state,
    (ioRequest sampleHostCodes sampleCodes).run (.start false)
        (connected ++ .forward .fail :: failedRead) = some state ∧
      state.request.guest.phase = .returned false ∧ state.request.worker = .returned ∧
      state.Unstranded sampleCodes := by
  refine ⟨_, rfl, rfl, rfl, client_not_stranded sampleHostCodes sampleCodes false
    (connected ++ .forward .fail :: failedRead) _ ?_⟩
  exact Machine.Run.of_everyStep rfl (by decide +kernel)

/-- The read fails while `forward_input` waits for a client that writes nothing. -/
theorem failed_read_strands_client : ∃ state,
    (ioRequest sampleHostCodes sampleCodes).run (.start false) (connected ++ failedRead) =
        some state ∧
      state.Stranded sampleCodes ∧ ¬ state.Unstranded sampleCodes := by
  have stranded : ∃ state,
      (ioRequest sampleHostCodes sampleCodes).run (.start false) (connected ++ failedRead) =
          some state ∧ state.Stranded sampleCodes := by
    refine ⟨_, rfl, rfl, rfl, rfl, ⟨.command, [], rfl⟩, rfl, nofun, ?_⟩
    rintro ⟨packet, member, _⟩
    cases member
  obtain ⟨state, ran, stranded⟩ := stranded
  exact ⟨state, ran, stranded, stranded.not_unstranded⟩

end X86OnArm.Muvm
