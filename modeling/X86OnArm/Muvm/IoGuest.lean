import X86OnArm.Foundation.Machine
import X86OnArm.Muvm.Command
import Mathlib.Logic.Function.Basic

/-! # The guest's output loop

`run_io_guest` copies the child's output to the transport and ends it with the
child's exit code. Its steps interleave with the writers of the output streams
(the child and its descendants) and with the worker that writes the child's
status byte. The sequence numbers of the source's epoll registrations are the
constructors of `EventSource`.
-/

namespace X86OnArm.Muvm

open Foundation

/-- The opcodes of guest packets: two bits each, and different. -/
structure GuestOpcodes where
  writeStdout : UInt16
  writeStderr : UInt16
  exit : UInt16
  stdout_small : writeStdout.toNat < 4
  stderr_small : writeStderr.toNat < 4
  exit_small : exit.toNat < 4
  stdout_ne_stderr : writeStdout ≠ writeStderr
  stdout_ne_exit : writeStdout ≠ exit
  stderr_ne_exit : writeStderr ≠ exit

inductive Output where
  | stdout
  | stderr
  deriving DecidableEq

def GuestOpcodes.write (codes : GuestOpcodes) : Output → UInt16
  | .stdout => codes.writeStdout
  | .stderr => codes.writeStderr

/-- A terminal carries both streams as one. -/
def hasOutput (tty : Bool) : Output → Bool
  | .stdout => true
  | .stderr => !tty

inductive EventSource where
  | output (which : Output)
  | stopPipe
  deriving DecidableEq

/-- The flags of an epoll event; `epollhup` also stands for `EPOLLERR`. -/
structure Flags where
  epollin : Bool
  epollhup : Bool
  deriving DecidableEq

inductive ReadResult where
  | data (bytes : List Byte)
  | eio
  | failed
  deriving DecidableEq

/-- An output stream: everything its writers wrote, what the loop has not read
yet and what it has, and whether no writer is left. `ended` keeps what was
written when the loop observed the end of the stream. -/
structure Source where
  written : List Byte
  buffer : List Byte
  taken : List Byte
  hungUp : Bool
  ended : Option (List Byte)
  deriving DecidableEq

namespace Source

def start : Source := ⟨[], [], [], false, none⟩

def write (source : Source) (bytes : List Byte) : Source :=
  { source with written := source.written ++ bytes, buffer := source.buffer ++ bytes }

def take (source : Source) (count : Nat) : Source :=
  { source with
    buffer := source.buffer.drop count
    taken := source.taken ++ source.buffer.take count }

def setHungUp (source : Source) (hungUp : Bool) : Source := { source with hungUp := hungUp }

/-- The loop observes that the stream has ended. -/
def observeEnd (source : Source) : Source := { source with ended := some source.written }

end Source

inductive Phase where
  | waiting
  | polled (source : EventSource) (flags : Flags)
  | got (source : EventSource) (flags : Flags) (result : ReadResult)
  | reporting (code : Byte)
  | exiting (code : Byte)
  | returned (normally : Bool)
  deriving DecidableEq

/-- What the loop does that others see: a packet, and the `io_finished` report. -/
inductive Effect where
  | packet (packet : Packet)
  | finished
  deriving DecidableEq

/-- The loop's locals, the kernel objects it reads, and its effects so far. -/
structure Guest where
  tty : Bool
  source : Output → Source
  statusWritten : Option Byte
  statusUnread : Option Byte
  statusClosed : Bool
  epoll : EventSource → Bool
  exitCode : Option Byte
  isOpen : Output → Bool
  phase : Phase
  log : List Effect

namespace Guest

def start (tty : Bool) : Guest where
  tty := tty
  source := fun _ => .start
  statusWritten := none
  statusUnread := none
  statusClosed := false
  epoll
    | .output which => hasOutput tty which
    | .stopPipe => true
  exitCode := none
  isOpen := hasOutput tty
  phase := .waiting
  log := []

/-- `epoll.delete`, which fails for a descriptor that is not registered. -/
def delete (guest : Guest) (source : EventSource) : Option Guest :=
  if guest.epoll source then some
    { guest with epoll := Function.update guest.epoll source false }
  else none

def close (guest : Guest) (which : Output) : Option Guest :=
  (guest.delete (.output which)).map fun guest =>
    { guest with isOpen := Function.update guest.isOpen which false }

/-- What a read of a stream yields, as the loop sees it: only a terminal's `EIO`
counts as the end of the stream. -/
def outputData (which : Output) : ReadResult → Option (List Byte)
  | .data bytes => some bytes
  | .eio => if which = .stdout then some [] else none
  | .failed => none

/-- The first match block, taken for `EPOLLIN`; `sent` is whether the transport
accepts the packet. -/
def readBlock (codes : GuestOpcodes) (guest : Guest) (source : EventSource) (result : ReadResult)
    (sent : Bool) : Option Guest :=
  match source with
  | .output which =>
      (outputData which result).bind fun data =>
        if data.length = 0 then guest.close which
        else if sent then
          some { guest with log := guest.log ++
            [.packet ⟨packCommand (codes.write which) data.length, data⟩] }
        else none
  | .stopPipe =>
      match result with
      | .data [code] => { guest with exitCode := some code }.delete .stopPipe
      | _ => none

/-- The second match block, taken for `EPOLLERR` or `EPOLLHUP`. -/
def hangUpBlock (guest : Guest) (source : EventSource) (flags : Flags) : Option Guest :=
  match source with
  | .output which =>
      if guest.isOpen which ∧ flags.epollin = false then guest.close which else some guest
  | .stopPipe => if guest.exitCode.isNone then none else some guest

/-- The end of an iteration. -/
def endIteration (guest : Guest) : Guest :=
  match guest.exitCode with
  | none => { guest with phase := .waiting }
  | some code =>
      if !guest.isOpen .stdout && !guest.isOpen .stderr then
        { guest with phase := .reporting code }
      else { guest with phase := .waiting }

/-- The loop body of an event, with what its read returned if it had `EPOLLIN`. -/
def blocks (codes : GuestOpcodes) (guest : Guest) (source : EventSource) (flags : Flags)
    (result : Option ReadResult) (sent : Bool) : Option Guest :=
  let first :=
    match result with
    | some result => guest.readBlock codes source result sent
    | none => some guest
  first.bind fun guest => if flags.epollhup then guest.hangUpBlock source flags else some guest

/-- The loop body; an error leaves the function. -/
def handle (codes : GuestOpcodes) (guest : Guest) (source : EventSource) (flags : Flags)
    (result : Option ReadResult) (sent : Bool) : Guest :=
  match guest.blocks codes source flags result sent with
  | some guest => guest.endIteration
  | none => { guest with phase := .returned false }

/-- What epoll may report: any flags of a registered descriptor, with `EPOLLIN`
whenever something is buffered. -/
def reportable (guest : Guest) (source : EventSource) (flags : Flags) : Bool :=
  guest.epoll source && (flags.epollin || flags.epollhup) &&
    match source with
    | .output which => (guest.source which).buffer.isEmpty || flags.epollin
    | .stopPipe => guest.statusUnread.isNone || flags.epollin

end Guest

/-- A read of at most 4096 bytes, an end of file or an error. -/
inductive ReadOutcome where
  | bytes (count : Nat)
  | endOfFile
  | eio
  | failed
  deriving DecidableEq

inductive GuestAction where
  /-- A child or descendant writes to a stream. -/
  | write (which : Output) (bytes : List Byte)
  /-- The last writer of a stream closes it. -/
  | hangUp (which : Output)
  /-- A descendant opens the terminal again. -/
  | reopen
  | writeStatus (code : Byte)
  | closeStatus
  | poll (source : EventSource) (flags : Flags)
  /-- Connecting to the transport or waiting for an event fails. -/
  | fail
  | read (outcome : ReadOutcome)
  | handle (sent : Bool)
  | report
  | exit (sent : Bool)
  deriving DecidableEq

/-- Whether an action is not one of the worker's on the status channel. -/
def GuestAction.isOutput : GuestAction → Bool
  | .writeStatus _ | .closeStatus => false
  | .write _ _ | .hangUp _ | .reopen | .poll _ _ | .fail | .read _ | .handle _ | .report
  | .exit _ => true

namespace Guest

def onSource (guest : Guest) (which : Output) (change : Source → Source) : Guest :=
  { guest with source := Function.update guest.source which (change (guest.source which)) }

/-- Read an output stream; a terminal reports the end of its writers as `EIO`. -/
def readOutput (guest : Guest) (which : Output) (outcome : ReadOutcome) :
    Option (Guest × ReadResult) :=
  let source := guest.source which
  match outcome with
  | .bytes count =>
      if 0 < count ∧ count ≤ 4096 ∧ count ≤ source.buffer.length then
        some (guest.onSource which fun source => source.take count,
          .data (source.buffer.take count))
      else none
  | .endOfFile =>
      if source.buffer = [] ∧ source.hungUp then
        some (guest.onSource which .observeEnd, .data [])
      else none
  | .eio =>
      if source.buffer = [] ∧ source.hungUp ∧ guest.tty then
        some (guest.onSource which .observeEnd, .eio)
      else none
  | .failed => some (guest, .failed)

/-- `read_exact` of the status byte. -/
def readStatus (guest : Guest) (outcome : ReadOutcome) : Option (Guest × ReadResult) :=
  match outcome with
  | .bytes _ => guest.statusUnread.map fun code =>
      ({ guest with statusUnread := none }, .data [code])
  | .endOfFile =>
      if guest.statusUnread = none ∧ guest.statusClosed then some (guest, .failed) else none
  | .eio => none
  | .failed => some (guest, .failed)

def read (guest : Guest) (source : EventSource) (outcome : ReadOutcome) :
    Option (Guest × ReadResult) :=
  match source with
  | .output which => guest.readOutput which outcome
  | .stopPipe => guest.readStatus outcome

def step (codes : GuestOpcodes) (guest : Guest) : GuestAction → Option Guest
  | .write which bytes =>
      if hasOutput guest.tty which ∧ (guest.source which).hungUp = false then
        some (guest.onSource which fun source => source.write bytes)
      else none
  | .hangUp which => some (guest.onSource which fun source => source.setHungUp true)
  | .reopen =>
      if guest.tty then some (guest.onSource .stdout fun source => source.setHungUp false)
      else none
  | .writeStatus code =>
      if guest.statusWritten = none ∧ guest.statusClosed = false then
        some { guest with statusWritten := some code, statusUnread := some code }
      else none
  | .closeStatus => some { guest with statusClosed := true }
  | .poll source flags =>
      if guest.phase = .waiting ∧ guest.reportable source flags then
        let polled := { guest with phase := .polled source flags }
        match source with
        | .output which =>
            if flags.epollin then some polled else some (polled.onSource which .observeEnd)
        | .stopPipe => some polled
      else none
  | .fail =>
      if guest.phase = .waiting then some { guest with phase := .returned false } else none
  | .read outcome =>
      match guest.phase with
      | .polled source flags =>
          if flags.epollin then
            (guest.read source outcome).map fun result =>
              { result.1 with phase := .got source flags result.2 }
          else none
      | _ => none
  | .handle sent =>
      match guest.phase with
      | .polled source flags =>
          if flags.epollin then none else some (guest.handle codes source flags none sent)
      | .got source flags result => some (guest.handle codes source flags (some result) sent)
      | _ => none
  | .report =>
      match guest.phase with
      | .reporting code =>
          some { guest with phase := .exiting code, log := guest.log ++ [.finished] }
      | _ => none
  | .exit sent =>
      match guest.phase with
      | .exiting code =>
          if sent then
            some { guest with
              phase := .returned true
              log := guest.log ++ [.packet ⟨packCommand codes.exit code.toNat, []⟩] }
          else some { guest with phase := .returned false }
      | _ => none

end Guest

/-- `run_io_guest` among the processes it serves. -/
def runIoGuest (codes : GuestOpcodes) : Machine Guest GuestAction := ⟨Guest.step codes⟩

/-- What a step can do. -/
inductive GuestEffect (codes : GuestOpcodes) (guest : Guest) : GuestAction → Guest → Prop
  | write {which : Output} {bytes : List Byte} (existing : hasOutput guest.tty which = true)
      (opened : (guest.source which).hungUp = false) :
      GuestEffect codes guest (.write which bytes)
        (guest.onSource which fun source => source.write bytes)
  | hangUp {which : Output} :
      GuestEffect codes guest (.hangUp which)
        (guest.onSource which fun source => source.setHungUp true)
  | reopen (terminal : guest.tty = true) :
      GuestEffect codes guest .reopen
        (guest.onSource .stdout fun source => source.setHungUp false)
  | writeStatus {code : Byte} (unwritten : guest.statusWritten = none)
      (opened : guest.statusClosed = false) :
      GuestEffect codes guest (.writeStatus code)
        { guest with statusWritten := some code, statusUnread := some code }
  | closeStatus : GuestEffect codes guest .closeStatus { guest with statusClosed := true }
  | poll {source : EventSource} {flags : Flags} (waiting : guest.phase = .waiting)
      (reportable : guest.reportable source flags = true)
      (input : source = .stopPipe ∨ flags.epollin = true) :
      GuestEffect codes guest (.poll source flags) { guest with phase := .polled source flags }
  | pollHungUp {which : Output} {flags : Flags} (waiting : guest.phase = .waiting)
      (reportable : guest.reportable (.output which) flags = true)
      (noInput : flags.epollin = false) :
      GuestEffect codes guest (.poll (.output which) flags)
        ({ guest with phase := .polled (.output which) flags }.onSource which .observeEnd)
  | fail (waiting : guest.phase = .waiting) :
      GuestEffect codes guest .fail { guest with phase := .returned false }
  | read {source : EventSource} {flags : Flags} {outcome : ReadOutcome} {middle : Guest}
      {result : ReadResult} (here : guest.phase = .polled source flags)
      (input : flags.epollin = true) (read : guest.read source outcome = some (middle, result)) :
      GuestEffect codes guest (.read outcome)
        { middle with phase := .got source flags result }
  | handleHungUp {source : EventSource} {flags : Flags} {sent : Bool}
      (here : guest.phase = .polled source flags) (noInput : flags.epollin = false) :
      GuestEffect codes guest (.handle sent) (guest.handle codes source flags none sent)
  | handle {source : EventSource} {flags : Flags} {result : ReadResult} {sent : Bool}
      (here : guest.phase = .got source flags result) :
      GuestEffect codes guest (.handle sent) (guest.handle codes source flags (some result) sent)
  | report {code : Byte} (here : guest.phase = .reporting code) :
      GuestEffect codes guest .report
        { guest with phase := .exiting code, log := guest.log ++ [.finished] }
  | exit {code : Byte} (here : guest.phase = .exiting code) :
      GuestEffect codes guest (.exit true)
        { guest with
          phase := .returned true
          log := guest.log ++ [.packet ⟨packCommand codes.exit code.toNat, []⟩] }
  | unsent {code : Byte} (here : guest.phase = .exiting code) :
      GuestEffect codes guest (.exit false) { guest with phase := .returned false }

theorem Guest.effect_of_step {codes : GuestOpcodes} {guest after : Guest} {action : GuestAction}
    (stepped : guest.step codes action = some after) : GuestEffect codes guest action after := by
  cases action <;>
    simp only [Guest.step, Option.ite_none_right_eq_some, Option.some.injEq] at stepped
  case write which bytes =>
    obtain ⟨⟨existing, opened⟩, rfl⟩ := stepped
    exact .write existing opened
  case hangUp which =>
    subst stepped
    exact .hangUp
  case reopen =>
    obtain ⟨terminal, rfl⟩ := stepped
    exact .reopen terminal
  case writeStatus code =>
    obtain ⟨⟨unwritten, opened⟩, rfl⟩ := stepped
    exact .writeStatus unwritten opened
  case closeStatus =>
    subst stepped
    exact .closeStatus
  case poll source flags =>
    obtain ⟨⟨waiting, reportable⟩, stepped⟩ := stepped
    cases source with
    | stopPipe =>
        cases stepped
        exact .poll waiting reportable (.inl rfl)
    | output which =>
        dsimp only at stepped
        split_ifs at stepped with input <;> cases stepped
        · exact .poll waiting reportable (.inr input)
        · exact .pollHungUp waiting reportable (eq_false_of_ne_true input)
  case fail =>
    obtain ⟨waiting, rfl⟩ := stepped
    exact .fail waiting
  case read outcome =>
    split at stepped
    case h_1 here =>
      simp only [Option.ite_none_right_eq_some, Option.map_eq_some_iff, Prod.exists] at stepped
      obtain ⟨input, middle, result, read, rfl⟩ := stepped
      exact .read here input read
    case h_2 => cases stepped
  case handle sent =>
    split at stepped
    case h_1 here =>
      split_ifs at stepped with input
      cases stepped
      exact .handleHungUp here (eq_false_of_ne_true input)
    case h_2 here =>
      cases stepped
      exact .handle here
    case h_3 => cases stepped
  case report =>
    split at stepped
    case h_1 here =>
      cases stepped
      exact .report here
    case h_2 => cases stepped
  case exit sent =>
    split at stepped
    case h_1 here =>
      cases sent with
      | true =>
          cases stepped
          exact .exit here
      | false =>
          cases stepped
          exact .unsent here
    case h_2 => cases stepped

end X86OnArm.Muvm
