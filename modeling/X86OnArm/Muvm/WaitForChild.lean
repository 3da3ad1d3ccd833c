import X86OnArm.Muvm.IoGuest
import X86OnArm.Foundation.Machine

/-! # The lifetime of a request

The parties of one interactive request: the client (`request_launch`,
`run_io_host` and the completion acknowledgement), the guest worker
(`wait_for_child` and the request's cgroup), its I/O thread (`run_io_guest`) and
the child with its descendants.
-/

namespace X86OnArm.Muvm

open Foundation

/-- The client: waiting for `OK`, in `run_io_host`, past it, past the
acknowledgement, or gone with its connection closed. -/
inductive ClientPhase where
  | requesting
  | hosting
  | exited
  | acknowledged
  | gone
  deriving DecidableEq

inductive Leader where
  | running
  | exited (code : Byte)
  | reaped (code : Byte)
  deriving DecidableEq

/-- The future that waits for the child, its status byte and its output. -/
inductive Complete where
  | childWait
  | writeStatus (code : Byte)
  | ioDone (code : Byte)
  | done (code : Byte)
  deriving DecidableEq

/-- `wait_for_child`: both futures under `try_join`, the steps of `terminate`, the
second wait for the child, and `remove_when_empty`. -/
inductive WorkerPhase where
  | joining (complete : Complete)
  | signalMembers
  | sleep
  | kill
  | waitAgain
  | pollEvents
  | rmdir
  | returned
  deriving DecidableEq

/-- The processes are numbered; the leader is `0`. -/
structure Request where
  guest : Guest
  client : ClientPhase
  /-- The packets `run_io_host` has read. -/
  seen : Nat
  receivedExit : Bool
  /-- The bytes on the request connection that were not read, and its end. -/
  connection : List Byte
  closed : Bool
  members : List Nat
  leader : Leader
  worker : WorkerPhase
  /-- The byte the `acknowledged` future has read. -/
  acknowledgement : Option Byte
  /-- Whether `try_join` returned `Ok`, and whether `terminate` was called and has killed. -/
  accepted : Bool
  terminated : Bool
  killed : Bool
  removed : Bool

inductive ClientAction where
  | ok
  | receive
  | acknowledge
  /-- Any other byte on the request connection. -/
  | stray (byte : Byte)
  | disconnect
  deriving DecidableEq

inductive ProcessAction where
  | fork (parent child : Nat)
  | exit (pid : Nat) (code : Byte)
  deriving DecidableEq

/-- The worker's steps; `failed` is whether the system call fails. -/
inductive WorkerAction where
  | complete (failed : Bool)
  | acknowledged
  | terminate (failed : Bool)
  | waitAgain (failed : Bool)
  | remove (failed : Bool)
  deriving DecidableEq

inductive RequestAction where
  | client (action : ClientAction)
  | io (action : GuestAction)
  | process (action : ProcessAction)
  | worker (action : WorkerAction)
  deriving DecidableEq

def RequestAction.isWorker : RequestAction → Bool
  | .worker _ => true
  | .client _ | .io _ | .process _ => false

def packetOf : Effect → Option Packet
  | .packet packet => some packet
  | .finished => none

/-- `128 + SIGKILL`, the status of a killed leader. -/
def killedCode : Byte := 137

namespace Request

def start (tty : Bool) : Request where
  guest := .start tty
  client := .requesting
  seen := 0
  receivedExit := false
  connection := []
  closed := false
  members := [0]
  leader := .running
  worker := .joining .childWait
  acknowledgement := none
  accepted := false
  terminated := false
  killed := false
  removed := false

def clientStep (codes : GuestOpcodes) (request : Request) : ClientAction → Option Request
  | .ok =>
      if request.client = .requesting then some { request with client := .hosting } else none
  | .receive =>
      if request.client = .hosting then
        match (request.guest.log.filterMap packetOf)[request.seen]? with
        | some packet =>
            if opcode packet.cmd = codes.exit then some
              { request with client := .exited, receivedExit := true }
            else some { request with seen := request.seen + 1 }
        | none => none
      else none
  | .acknowledge =>
      if request.client = .exited then some
        { request with client := .acknowledged, connection := request.connection ++ [1] }
      else none
  | .stray byte =>
      if request.closed = false ∧ byte ≠ 1 then some
        { request with connection := request.connection ++ [byte] }
      else none
  | .disconnect => some { request with client := .gone, closed := true }

def processStep (request : Request) : ProcessAction → Option Request
  | .fork parent child =>
      if parent ∈ request.members ∧ child ∉ request.members ∧ child ≠ 0 then some
        { request with members := child :: request.members }
      else none
  | .exit pid code =>
      if pid ∈ request.members then some
        { request with
          members := request.members.filter (· ≠ pid)
          leader := if pid = 0 then .exited code else request.leader }
      else none

/-- `try_join` drops both futures at the first error, and with them the status
channel, and `terminate` is called. -/
def cancel (request : Request) : Request :=
  { request with
    guest := { request.guest with statusClosed := true }
    worker := .signalMembers
    terminated := true }

/-- `try_join` returns `Ok` once both futures have. -/
def join (request : Request) (complete : Complete) : Request :=
  match complete, request.acknowledgement with
  | .done _, some 1 => { request with worker := .pollEvents, accepted := true }
  | _, _ => { request with worker := .joining complete }

/-- A step of the `complete` future. -/
def completeStep (codes : GuestOpcodes) (request : Request) (complete : Complete)
    (failed : Bool) : Option Request :=
  match complete with
  | .childWait =>
      if failed then some request.cancel
      else
        match request.leader with
        | .exited code => some
            ({ request with leader := .reaped code }.join (.writeStatus code))
        | _ => none
  | .writeStatus code =>
      -- a pipe without a reader fails
      if failed then
        match request.guest.phase with
        | .returned _ => some request.cancel
        | _ => none
      else
        ((request.guest.step codes (.writeStatus code)).bind fun guest =>
          guest.step codes .closeStatus).map fun guest =>
            { request with guest := guest }.join (.ioDone code)
  | .ioDone code =>
      if Effect.finished ∈ request.guest.log then some (request.join (.done code))
      else
        -- the sender was dropped
        match request.guest.phase with
        | .returned _ => some request.cancel
        | _ => none
  | .done _ => none

/-- A step of the `acknowledged` future: `read_exact` of one byte. -/
def acknowledgedStep (request : Request) (complete : Complete) : Option Request :=
  match request.acknowledgement, request.connection with
  | none, byte :: rest =>
      let read := { request with connection := rest, acknowledgement := some byte }
      if byte = 1 then some (read.join complete) else some read.cancel
  | none, [] => if request.closed then some request.cancel else none
  | some _, _ => none

/-- `terminate`, the second `child.wait()` and `remove_when_empty`; an error leaves
`wait_for_child`. -/
def workerStep (codes : GuestOpcodes) (request : Request) : WorkerAction → Option Request
  | .complete failed =>
      match request.worker with
      | .joining complete => request.completeStep codes complete failed
      | _ => none
  | .acknowledged =>
      match request.worker with
      | .joining complete => request.acknowledgedStep complete
      | _ => none
  | .terminate failed =>
      match request.worker with
      | .signalMembers => some { request with worker := .sleep }
      | .sleep => some { request with worker := .kill }
      | .kill =>
          if failed then some { request with worker := .returned }
          else some
            { request with
              members := []
              leader := if 0 ∈ request.members then .exited killedCode else request.leader
              killed := true
              worker := .waitAgain }
      | _ => none
  | .waitAgain failed =>
      match request.worker with
      | .waitAgain =>
          if failed then some { request with worker := .pollEvents }
          else
            match request.leader with
            | .running => none
            | .exited code | .reaped code => some
                { request with leader := .reaped code, worker := .pollEvents }
      | _ => none
  | .remove failed =>
      match request.worker with
      | .pollEvents =>
          if failed then some { request with worker := .returned }
          else if request.members = [] then some { request with worker := .rmdir }
          else some request
      | .rmdir =>
          if failed then some { request with worker := .returned }
          else some { request with worker := .returned, removed := true }
      | _ => none

def step (codes : GuestOpcodes) (request : Request) : RequestAction → Option Request
  | .client action => request.clientStep codes action
  | .io action =>
      if action.isOutput then
        (request.guest.step codes action).map fun guest => { request with guest := guest }
      else none
  | .process action => request.processStep action
  | .worker action => request.workerStep codes action

end Request

/-- One interactive request. -/
def waitForChild (codes : GuestOpcodes) : Machine Request RequestAction := ⟨Request.step codes⟩

/-! ## What a step can do -/

inductive ClientEffect (codes : GuestOpcodes) (request : Request) : ClientAction → Request → Prop
  | ok (requesting : request.client = .requesting) :
      ClientEffect codes request .ok { request with client := .hosting }
  | receive {packet : Packet} (hosting : request.client = .hosting)
      (read : (request.guest.log.filterMap packetOf)[request.seen]? = some packet)
      (other : opcode packet.cmd ≠ codes.exit) :
      ClientEffect codes request .receive { request with seen := request.seen + 1 }
  | exit {packet : Packet} (hosting : request.client = .hosting)
      (read : (request.guest.log.filterMap packetOf)[request.seen]? = some packet)
      (exits : opcode packet.cmd = codes.exit) :
      ClientEffect codes request .receive { request with client := .exited, receivedExit := true }
  | acknowledge (exited : request.client = .exited) :
      ClientEffect codes request .acknowledge
        { request with client := .acknowledged, connection := request.connection ++ [1] }
  | stray {byte : Byte} (stillOpen : request.closed = false) (other : byte ≠ 1) :
      ClientEffect codes request (.stray byte)
        { request with connection := request.connection ++ [byte] }
  | disconnect :
      ClientEffect codes request .disconnect { request with client := .gone, closed := true }

inductive ProcessEffect (request : Request) : ProcessAction → Request → Prop
  | fork {parent child : Nat} (member : parent ∈ request.members)
      (fresh : child ∉ request.members) (other : child ≠ 0) :
      ProcessEffect request (.fork parent child)
        { request with members := child :: request.members }
  | exit {pid : Nat} {code : Byte} (member : pid ∈ request.members) :
      ProcessEffect request (.exit pid code)
        { request with
          members := request.members.filter (· ≠ pid)
          leader := if pid = 0 then .exited code else request.leader }

/-- The steps of the worker that change nothing else. -/
inductive WorkerPhase.Move : WorkerPhase → WorkerPhase → Prop
  | signalled : Move .signalMembers .sleep
  | slept : Move .sleep .kill
  | unkilled : Move .kill .returned
  | unwaited : Move .waitAgain .pollEvents
  | unpolled : Move .pollEvents .returned
  | unremoved : Move .rmdir .returned

inductive WorkerEffect (codes : GuestOpcodes) (request : Request) : WorkerAction → Request → Prop
  | complete {complete : Complete} {failed : Bool} {after : Request}
      (joining : request.worker = .joining complete)
      (stepped : request.completeStep codes complete failed = some after) :
      WorkerEffect codes request (.complete failed) after
  | acknowledged {complete : Complete} {after : Request}
      (joining : request.worker = .joining complete)
      (stepped : request.acknowledgedStep complete = some after) :
      WorkerEffect codes request .acknowledged after
  | moved {action : WorkerAction} {next : WorkerPhase} (move : request.worker.Move next) :
      WorkerEffect codes request action { request with worker := next }
  | kill {failed : Bool} (here : request.worker = .kill) :
      WorkerEffect codes request (.terminate failed)
        { request with
          members := []
          leader := if 0 ∈ request.members then .exited killedCode else request.leader
          killed := true
          worker := .waitAgain }
  | waited {failed : Bool} {code : Byte} (here : request.worker = .waitAgain)
      (ended : request.leader = .exited code ∨ request.leader = .reaped code) :
      WorkerEffect codes request (.waitAgain failed)
        { request with leader := .reaped code, worker := .pollEvents }
  | populated {failed : Bool} (here : request.worker = .pollEvents)
      (populated : request.members ≠ []) :
      WorkerEffect codes request (.remove failed) request
  | emptied {failed : Bool} (here : request.worker = .pollEvents)
      (empty : request.members = []) :
      WorkerEffect codes request (.remove failed) { request with worker := .rmdir }
  | removed {failed : Bool} (here : request.worker = .rmdir) :
      WorkerEffect codes request (.remove failed)
        { request with worker := .returned, removed := true }

namespace Request

variable {codes : GuestOpcodes} {request after : Request}

theorem clientEffect_of_step {action : ClientAction}
    (stepped : request.clientStep codes action = some after) :
    ClientEffect codes request action after := by
  cases action <;>
    simp only [clientStep, Option.ite_none_right_eq_some, Option.some.injEq] at stepped
  case ok =>
    obtain ⟨requesting, rfl⟩ := stepped
    exact .ok requesting
  case receive =>
    obtain ⟨hosting, stepped⟩ := stepped
    split at stepped
    case h_1 packet read =>
      split_ifs at stepped with exits <;> cases stepped
      · exact .exit hosting read exits
      · exact .receive hosting read exits
    case h_2 => cases stepped
  case acknowledge =>
    obtain ⟨exited, rfl⟩ := stepped
    exact .acknowledge exited
  case stray byte =>
    obtain ⟨⟨stillOpen, other⟩, rfl⟩ := stepped
    exact .stray stillOpen other
  case disconnect =>
    subst stepped
    exact .disconnect

theorem processEffect_of_step {action : ProcessAction}
    (stepped : request.processStep action = some after) : ProcessEffect request action after := by
  cases action <;>
    simp only [processStep, Option.ite_none_right_eq_some, Option.some.injEq] at stepped
  case fork parent child =>
    obtain ⟨⟨member, fresh, other⟩, rfl⟩ := stepped
    exact .fork member fresh other
  case exit pid code =>
    obtain ⟨member, rfl⟩ := stepped
    exact .exit member

theorem workerEffect_of_move {action : WorkerAction} {before next : WorkerPhase}
    (here : request.worker = before) (move : before.Move next) :
    WorkerEffect codes request action { request with worker := next } := by
  subst here
  exact .moved move

theorem workerEffect_of_step {action : WorkerAction}
    (stepped : request.workerStep codes action = some after) :
    WorkerEffect codes request action after := by
  cases action <;> simp only [workerStep] at stepped
  case complete failed =>
    split at stepped
    case h_1 joining => exact .complete joining stepped
    case h_2 => cases stepped
  case acknowledged =>
    split at stepped
    case h_1 joining => exact .acknowledged joining stepped
    case h_2 => cases stepped
  case terminate failed =>
    split at stepped
    case h_1 here =>
      cases stepped
      exact workerEffect_of_move here .signalled
    case h_2 here =>
      cases stepped
      exact workerEffect_of_move here .slept
    case h_3 here =>
      cases failed with
      | true =>
          cases stepped
          exact workerEffect_of_move here .unkilled
      | false =>
          cases stepped
          exact .kill here
    case h_4 => cases stepped
  case waitAgain failed =>
    split at stepped
    case h_1 here =>
      split_ifs at stepped
      · cases stepped
        exact workerEffect_of_move here .unwaited
      · split at stepped
        case h_1 => cases stepped
        case h_2 ended =>
          cases stepped
          exact .waited here (.inl ended)
        case h_3 ended =>
          cases stepped
          exact .waited here (.inr ended)
    case h_2 => cases stepped
  case remove failed =>
    split at stepped
    case h_1 here =>
      split_ifs at stepped with _ empty <;> cases stepped
      · exact workerEffect_of_move here .unpolled
      · exact .emptied here empty
      · exact .populated here empty
    case h_2 here =>
      split_ifs at stepped <;> cases stepped
      · exact workerEffect_of_move here .unremoved
      · exact .removed here
    case h_3 => cases stepped

end Request

end X86OnArm.Muvm
