import X86OnArm.Foundation.Machine
import X86OnArm.Foundation.Text
import Mathlib.Logic.Function.Basic

/-! # The search for a vsock port

Every client of the virtual machine looks for a port of its own by locking the file of
one after the other. Opening creates a missing file in one step and no file is ever
unlinked, so clients that reach a port's file reach the same one; `ports_exclusive` says
what follows for any number of clients in any interleaving.
-/

namespace X86OnArm.Muvm

open Foundation

/-- A lock file: one there was before the clients, or the one created as the given. -/
inductive LockFile where
  | existing (number : Nat)
  | created (number : Nat)
  deriving DecidableEq

/-- Why the search returned an error. -/
inductive PortError where
  | failedToOpen
  | ranOutOfPorts
  deriving DecidableEq

def PortError.message : PortError → Text
  | .failedToOpen => text "Failed to open socket lock file"
  | .ranOutOfPorts => text "Ran out of ports."

/-- Where a client is in the search: with the ports that remain, with the file of a port
open, or with its result. -/
inductive PortClient (Port : Type) where
  | searching (ports : List Port)
  | opened (port : Port) (file : LockFile) (rest : List Port)
  | returned (port : Port) (file : LockFile)
  | failed (error : PortError)
  | dead
  deriving DecidableEq

structure PortState (Client Port : Type) where
  files : Port → Option LockFile
  created : Nat
  /-- The client that holds the exclusive lock of a file. -/
  locks : LockFile → Option Client
  clients : Client → PortClient Port

inductive PortAction (Client : Type) where
  | openFile (client : Client)
  /-- The file cannot be opened, for a reason of the client's own. -/
  | openFails (client : Client)
  | flock (client : Client)
  | noPort (client : Client)
  /-- The client exits or is killed. -/
  | exit (client : Client)
  deriving DecidableEq

namespace PortState

variable {Client Port : Type} [DecidableEq Client] [DecidableEq Port]

def setClient (state : PortState Client Port) (client : Client) (point : PortClient Port) :
    PortState Client Port :=
  { state with clients := Function.update state.clients client point }

/-- The file of a port, created where it is missing. -/
def openFile (state : PortState Client Port) (port : Port) :
    LockFile × PortState Client Port :=
  match state.files port with
  | some file => (file, state)
  | none => (.created state.created, { state with
      files := Function.update state.files port (some (.created state.created))
      created := state.created + 1 })

/-- A process that exits releases its locks. -/
def release (state : PortState Client Port) (client : Client) : PortState Client Port :=
  { state with locks := fun file =>
      if state.locks file = some client then none else state.locks file }

def step (state : PortState Client Port) : PortAction Client → Option (PortState Client Port)
  | .openFile client =>
      match state.clients client with
      | .searching (port :: rest) =>
          let (file, after) := state.openFile port
          some (after.setClient client (.opened port file rest))
      | _ => none
  | .openFails client =>
      match state.clients client with
      | .searching (_ :: _) => some (state.setClient client (.failed .failedToOpen))
      | _ => none
  | .flock client =>
      match state.clients client with
      | .opened port file rest =>
          if state.locks file = none then
            some ({ state with locks := Function.update state.locks file (some client) }.setClient
              client (.returned port file))
          else some (state.setClient client (.searching rest))
      | _ => none
  | .noPort client =>
      match state.clients client with
      | .searching [] => some (state.setClient client (.failed .ranOutOfPorts))
      | _ => none
  | .exit client =>
      match state.clients client with
      | .dead => none
      | _ => some ((state.release client).setClient client .dead)

/-- The clients that are about to search `range`, with the files there are. -/
def start (range : List Port) (files : Port → Option Nat) : PortState Client Port where
  files port := (files port).map .existing
  created := 0
  locks _ := none
  clients _ := .searching range

/-- A live client has the port. -/
def Holds (state : PortState Client Port) (client : Client) (port : Port) : Prop :=
  ∃ file, state.clients client = .returned port file

/-- The client that has locked the file of a port. -/
def lockOf (state : PortState Client Port) (port : Port) : Option Client :=
  (state.files port).bind state.locks

/-- A lock is that of a live client with a port of this file, and such a client has it;
what a client has open is the file of its port. -/
structure Valid (state : PortState Client Port) : Prop where
  opened : ∀ client port file rest, state.clients client = .opened port file rest →
    state.files port = some file
  returned : ∀ client port file, state.clients client = .returned port file →
    state.files port = some file ∧ state.locks file = some client
  locked : ∀ client file, state.locks file = some client →
    ∃ port, state.clients client = .returned port file

end PortState

/-- Any number of clients search for a port. -/
def portSearch (Client Port : Type) [DecidableEq Client] [DecidableEq Port] :
    Machine (PortState Client Port) (PortAction Client) :=
  ⟨PortState.step⟩

namespace PortState

variable {Client Port : Type} [DecidableEq Client] [DecidableEq Port]
  {state after : PortState Client Port} {client : Client} {port : Port} {file : LockFile}
  {rest : List Port}

/-- What an action does to the client that takes it, and to the files and locks. -/
inductive PortEffect (state : PortState Client Port) :
    PortAction Client → PortState Client Port → Prop where
  | found {client : Client} {port : Port} {file : LockFile} {rest : List Port} :
      state.clients client = .searching (port :: rest) →
      state.files port = some file →
      PortEffect state (.openFile client) (state.setClient client (.opened port file rest))
  | created {client : Client} {port : Port} {rest : List Port} :
      state.clients client = .searching (port :: rest) →
      state.files port = none →
      PortEffect state (.openFile client) ({ state with
        files := Function.update state.files port (some (.created state.created))
        created := state.created + 1 }.setClient client
          (.opened port (.created state.created) rest))
  | openFails {client : Client} {port : Port} {rest : List Port} :
      state.clients client = .searching (port :: rest) →
      PortEffect state (.openFails client) (state.setClient client (.failed .failedToOpen))
  | taken {client : Client} {port : Port} {file : LockFile} {rest : List Port} :
      state.clients client = .opened port file rest →
      state.locks file = none →
      PortEffect state (.flock client)
        ({ state with locks := Function.update state.locks file (some client) }.setClient
          client (.returned port file))
  | refused {client other : Client} {port : Port} {file : LockFile} {rest : List Port} :
      state.clients client = .opened port file rest →
      state.locks file = some other →
      PortEffect state (.flock client) (state.setClient client (.searching rest))
  | noPort {client : Client} : state.clients client = .searching [] →
      PortEffect state (.noPort client) (state.setClient client (.failed .ranOutOfPorts))
  | exit {client : Client} : state.clients client ≠ .dead →
      PortEffect state (.exit client) ((state.release client).setClient client .dead)

theorem effect_of_portStep {action : PortAction Client}
    (stepped : (portSearch Client Port).step state action = some after) :
    PortEffect state action after := by
  cases action with
  | openFile client =>
      simp only [portSearch, step] at stepped
      split at stepped
      · rename_i port rest searching
        cases found : state.files port with
        | some file =>
            simp only [openFile, found, Option.some.injEq] at stepped
            subst stepped
            exact .found searching found
        | none =>
            simp only [openFile, found, Option.some.injEq] at stepped
            subst stepped
            exact .created searching found
      · cases stepped
  | openFails client =>
      simp only [portSearch, step] at stepped
      split at stepped
      · rename_i searching
        cases stepped
        exact .openFails searching
      · cases stepped
  | flock client =>
      simp only [portSearch, step] at stepped
      split at stepped
      · rename_i port file rest opened
        cases lock : state.locks file with
        | none =>
            rw [if_pos lock] at stepped
            cases stepped
            exact .taken opened lock
        | some other =>
            rw [if_neg (by simp [lock])] at stepped
            cases stepped
            exact .refused opened lock
      · cases stepped
  | noPort client =>
      simp only [portSearch, step] at stepped
      split at stepped
      · rename_i searching
        cases stepped
        exact .noPort searching
      · cases stepped
  | exit client =>
      simp only [portSearch, step] at stepped
      split at stepped
      · cases stepped
      · rename_i alive
        cases stepped
        exact .exit alive

omit [DecidableEq Client] [DecidableEq Port] in
theorem Valid.start (range : List Port) (files : Port → Option Nat) :
    (PortState.start range files : PortState Client Port).Valid := by
  refine ⟨?_, ?_, ?_⟩ <;> intros <;> contradiction

omit [DecidableEq Port] in
theorem setClient_clients_self (point : PortClient Port) :
    (state.setClient client point).clients client = point :=
  Function.update_self ..

omit [DecidableEq Port] in
theorem setClient_clients_of_ne {other : Client} (different : other ≠ client)
    (point : PortClient Port) : (state.setClient client point).clients other =
      state.clients other :=
  Function.update_of_ne different ..

omit [DecidableEq Port] in
/-- A client without a port goes to a point at which it has none. -/
theorem Valid.moved (valid : state.Valid) {point : PortClient Port}
    (before : ∀ port file, state.clients client ≠ .returned port file)
    (opens : ∀ port file rest, point = .opened port file rest → state.files port = some file)
    (without : ∀ port file, point ≠ .returned port file) :
    (state.setClient client point).Valid := by
  refine ⟨?_, ?_, ?_⟩
  · intro other port file rest opened
    by_cases same : other = client
    · subst same
      rw [setClient_clients_self] at opened
      exact opens port file rest opened
    · rw [setClient_clients_of_ne same] at opened
      exact valid.opened other port file rest opened
  · intro other port file returned
    by_cases same : other = client
    · subst same
      rw [setClient_clients_self] at returned
      exact absurd returned (without port file)
    · rw [setClient_clients_of_ne same] at returned
      exact valid.returned other port file returned
  · intro other file locked
    obtain ⟨port, returned⟩ := valid.locked other file locked
    have different : other ≠ client := by
      intro same
      exact before port file (same ▸ returned)
    exact ⟨port, by rwa [setClient_clients_of_ne different]⟩

omit [DecidableEq Client] in
/-- Creating a missing file takes no file from a client. -/
theorem Valid.create (valid : state.Valid) (missing : state.files port = none) :
    ({ state with
      files := Function.update state.files port (some (.created state.created))
      created := state.created + 1 } : PortState Client Port).Valid := by
  have kept : ∀ {query : Port} {file : LockFile}, state.files query = some file →
      Function.update state.files port (some (.created state.created)) query = some file := by
    intro query file found
    rwa [Function.update_of_ne]
    rintro rfl
    rw [missing] at found
    cases found
  refine ⟨?_, ?_, valid.locked⟩
  · intro other query file rest opened
    exact kept (valid.opened other query file rest opened)
  · intro other query file returned
    obtain ⟨found, locked⟩ := valid.returned other query file returned
    exact ⟨kept found, locked⟩

omit [DecidableEq Port] in
theorem Valid.take (valid : state.Valid) (opened : state.clients client = .opened port file rest)
    (free : state.locks file = none) :
    ({ state with locks := Function.update state.locks file (some client) }.setClient
      client (.returned port file)).Valid := by
  refine ⟨?_, ?_, ?_⟩
  · intro other query found remaining openedToo
    by_cases same : other = client
    · subst same
      rw [setClient_clients_self] at openedToo
      cases openedToo
    · rw [setClient_clients_of_ne same] at openedToo
      exact valid.opened other query found remaining openedToo
  · intro other query found returned
    by_cases same : other = client
    · subst same
      rw [setClient_clients_self] at returned
      cases returned
      exact ⟨valid.opened _ _ _ _ opened, Function.update_self ..⟩
    · rw [setClient_clients_of_ne same] at returned
      obtain ⟨here, locked⟩ := valid.returned other query found returned
      refine ⟨here, ?_⟩
      have different : found ≠ file := by
        rintro rfl
        rw [free] at locked
        cases locked
      exact (Function.update_of_ne different ..).trans locked
  · intro other found locked
    by_cases same : found = file
    · subst same
      change Function.update state.locks found (some client) found = some other at locked
      rw [Function.update_self] at locked
      cases locked
      exact ⟨port, setClient_clients_self _⟩
    · change Function.update state.locks file (some client) found = some other at locked
      rw [Function.update_of_ne same] at locked
      obtain ⟨query, returned⟩ := valid.locked other found locked
      have different : other ≠ client := by
        rintro rfl
        rw [opened] at returned
        cases returned
      exact ⟨query, (setClient_clients_of_ne different _).trans returned⟩

omit [DecidableEq Port] in
theorem Valid.leave (valid : state.Valid) :
    ((state.release client).setClient client .dead).Valid := by
  refine ⟨?_, ?_, ?_⟩
  · intro other query found remaining opened
    by_cases same : other = client
    · subst same
      rw [setClient_clients_self] at opened
      cases opened
    · rw [setClient_clients_of_ne same] at opened
      exact valid.opened other query found remaining opened
  · intro other query found returned
    by_cases same : other = client
    · subst same
      rw [setClient_clients_self] at returned
      cases returned
    · rw [setClient_clients_of_ne same] at returned
      obtain ⟨here, locked⟩ := valid.returned other query found returned
      refine ⟨here, ?_⟩
      change (if state.locks found = some client then none else state.locks found) = _
      rw [if_neg (by rw [locked]; exact fun equal => same (Option.some.inj equal)), locked]
  · intro other found locked
    change (if state.locks found = some client then none else state.locks found) = _ at locked
    rw [Option.ite_none_left_eq_some] at locked
    obtain ⟨query, returned⟩ := valid.locked other found locked.2
    have different : other ≠ client := by
      rintro rfl
      exact locked.1 locked.2
    exact ⟨query, (setClient_clients_of_ne different _).trans returned⟩

theorem Valid.step (valid : state.Valid) {action : PortAction Client}
    (stepped : (portSearch Client Port).step state action = some after) : after.Valid := by
  cases effect_of_portStep stepped with
  | found searching found =>
      refine valid.moved ?_ ?_ ?_
      · simp [searching]
      · intro port file rest same
        cases same
        exact found
      · simp
  | created searching missing =>
      refine (valid.create missing).moved ?_ ?_ ?_
      · simp [searching]
      · intro port file rest same
        cases same
        exact Function.update_self ..
      · simp
  | openFails searching => exact valid.moved (by simp [searching]) (by simp) (by simp)
  | taken opened free => exact valid.take opened free
  | refused opened lock => exact valid.moved (by simp [opened]) (by simp) (by simp)
  | noPort searching => exact valid.moved (by simp [searching]) (by simp) (by simp)
  | exit alive => exact valid.leave

theorem valid_of_reachable {range : List Port} {files : Port → Option Nat}
    (reachable : (portSearch Client Port).Reachable (.start range files) state) : state.Valid :=
  reachable.invariant Valid (.start range files) fun _ _ _ valid stepped => valid.step stepped

/-- The port is still to be tried; a client without an answer awaits nothing else. -/
def Awaits : PortClient Port → Port → Prop
  | .searching ports, port => port ∈ ports
  | .opened first _ rest, port => port ∈ first :: rest
  | .failed .ranOutOfPorts, _ => False
  | .returned _ _, _ | .failed .failedToOpen, _ | .dead, _ => True

/-- Somewhere in the run the client tried the port, and another one had its lock. -/
def Refused (start : PortState Client Port) (actions : List (PortAction Client))
    (client : Client) (port : Port) : Prop :=
  ∃ earlier later before file rest other, actions = earlier ++ .flock client :: later ∧
    (portSearch Client Port).run start earlier = some before ∧
    before.clients client = .opened port file rest ∧ before.lockOf port = some other ∧
    other ≠ client

theorem Refused.concat {start : PortState Client Port} {actions : List (PortAction Client)}
    (refused : Refused start actions client port) (action : PortAction Client) :
    Refused start (actions ++ [action]) client port := by
  obtain ⟨earlier, later, before, file, rest, other, rfl, reached⟩ := refused
  exact ⟨earlier, later ++ [action], before, file, rest, other, by simp, reached⟩

/-- A client gives a port up only where another client has its lock. -/
theorem awaits_step (valid : state.Valid) {action : PortAction Client}
    (stepped : (portSearch Client Port).step state action = some after)
    (awaits : Awaits (state.clients client) port) :
    Awaits (after.clients client) port ∨
      action = .flock client ∧ ∃ file rest other, state.clients client = .opened port file rest ∧
        state.lockOf port = some other ∧ other ≠ client := by
  have elsewhere : ∀ {actor : Client} {point : PortClient Port} {middle : PortState Client Port},
      middle.clients = state.clients → (client = actor → Awaits point port ∨
        action = .flock client ∧ ∃ file rest other,
          state.clients client = .opened port file rest ∧ state.lockOf port = some other ∧
          other ≠ client) →
      Awaits ((middle.setClient actor point).clients client) port ∨
        action = .flock client ∧ ∃ file rest other,
          state.clients client = .opened port file rest ∧ state.lockOf port = some other ∧
          other ≠ client := by
    intro actor point middle same own
    by_cases mine : client = actor
    · subst mine
      rw [setClient_clients_self]
      exact own rfl
    · rw [setClient_clients_of_ne mine, same]
      exact .inl awaits
  cases effect_of_portStep stepped with
  | found searching found =>
      refine elsewhere rfl ?_
      rintro rfl
      rw [searching] at awaits
      exact .inl awaits
  | created searching missing =>
      refine elsewhere rfl ?_
      rintro rfl
      rw [searching] at awaits
      exact .inl awaits
  | openFails searching => exact elsewhere rfl fun _ => .inl trivial
  | taken opened free => exact elsewhere rfl fun _ => .inl trivial
  | @refused actor other first file rest opened lock =>
      refine elsewhere rfl ?_
      rintro rfl
      rw [opened] at awaits
      rcases List.mem_cons.mp awaits with rfl | later
      · refine .inr ⟨rfl, file, rest, other, opened, ?_, ?_⟩
        · rw [lockOf, valid.opened _ _ _ _ opened, Option.bind_some, lock]
        · rintro rfl
          obtain ⟨_, returned⟩ := valid.locked _ _ lock
          rw [opened] at returned
          cases returned
      · exact .inl later
  | noPort searching =>
      refine elsewhere rfl ?_
      rintro rfl
      rw [searching] at awaits
      cases awaits
  | exit alive => exact elsewhere rfl fun _ => .inl trivial

theorem awaits_or_refused (client : Client) {range : List Port} {files : Port → Option Nat}
    {actions : List (PortAction Client)}
    (executed : (portSearch Client Port).run (.start range files) actions = some state)
    (listed : port ∈ range) :
    Awaits (state.clients client) port ∨ Refused (.start range files) actions client port := by
  induction actions using List.reverseRecOn generalizing state with
  | nil =>
      cases executed
      exact .inl listed
  | append_singleton actions action ih =>
      obtain ⟨before, earlier, stepped⟩ := Machine.run_concat_eq_some.mp executed
      rcases ih earlier with awaits | refused
      · rcases awaits_step (valid_of_reachable ⟨actions, earlier⟩) stepped awaits with
          awaits | ⟨rfl, file, rest, other, opened, locked, different⟩
        · exact .inl awaits
        · exact .inr ⟨actions, [], before, file, rest, other, rfl, earlier, opened, locked,
            different⟩
      · exact .inr (refused.concat action)

/-- **Ports are exclusive.** In every run no two live clients have the same port; a lock
is that of a live client; opening the next file succeeds whoever created it; a client
takes a port whose lock is free at its try and otherwise goes on; and one that runs out
of ports has been refused each of them by another client. -/
theorem ports_exclusive {range : List Port} {files : Port → Option Nat}
    {actions : List (PortAction Client)}
    (executed : (portSearch Client Port).run (.start range files) actions = some state) :
    (∀ first second port, state.Holds first port → state.Holds second port → first = second) ∧
      (∀ client port, state.lockOf port = some client → ∃ held, state.Holds client held) ∧
      (∀ client port rest, state.clients client = .searching (port :: rest) →
        ∃ after file, (portSearch Client Port).step state (.openFile client) = some after ∧
          after.clients client = .opened port file rest ∧ after.files port = some file) ∧
      (∀ client port file rest, state.clients client = .opened port file rest →
        ∃ after, (portSearch Client Port).step state (.flock client) = some after ∧
          (state.lockOf port = none → after.clients client = .returned port file) ∧
          (state.lockOf port ≠ none → after.clients client = .searching rest)) ∧
      ∀ client, state.clients client = .failed .ranOutOfPorts →
        ∀ port ∈ range, Refused (.start range files) actions client port := by
  have valid := valid_of_reachable ⟨actions, executed⟩
  refine ⟨?_, ?_, ?_, ?_, ?_⟩
  · rintro first second port ⟨file, firstReturned⟩ ⟨other, secondReturned⟩
    obtain ⟨found, firstLock⟩ := valid.returned first port file firstReturned
    obtain ⟨foundToo, secondLock⟩ := valid.returned second port other secondReturned
    cases Option.some.inj (found.symm.trans foundToo)
    exact Option.some.inj (firstLock.symm.trans secondLock)
  · intro client port locked
    obtain ⟨file, -, lock⟩ := Option.bind_eq_some_iff.mp locked
    obtain ⟨held, returned⟩ := valid.locked client file lock
    exact ⟨held, file, returned⟩
  · intro client port rest searching
    cases found : state.files port with
    | some file =>
        refine ⟨state.setClient client (.opened port file rest), file, ?_,
          setClient_clients_self _, found⟩
        simp only [portSearch, step, searching, openFile, found]
    | none =>
        refine ⟨{ state with
            files := Function.update state.files port (some (.created state.created))
            created := state.created + 1 }.setClient client
              (.opened port (.created state.created) rest), .created state.created, ?_,
          setClient_clients_self _, ?_⟩
        · simp only [portSearch, step, searching, openFile, found]
        · change Function.update state.files port _ port = _
          rw [Function.update_self]
  · intro client port file rest opened
    have own : state.lockOf port = state.locks file := by
      rw [lockOf, valid.opened client port file rest opened, Option.bind_some]
    rw [own]
    by_cases free : state.locks file = none
    · refine ⟨{ state with locks := Function.update state.locks file (some client) }.setClient
        client (.returned port file), by simp only [portSearch, step, opened, if_pos free],
        ?_, ?_⟩
      · intro _
        exact setClient_clients_self _
      · intro locked
        exact absurd free locked
    · refine ⟨state.setClient client (.searching rest),
        by simp only [portSearch, step, opened, if_neg free], ?_, ?_⟩
      · intro isFree
        exact absurd isFree free
      · intro _
        exact setClient_clients_self _
  · intro client failed port listed
    rcases awaits_or_refused client executed listed with awaits | refused
    · rw [failed] at awaits
      cases awaits
    · exact refused

/-- Two clients meet at the missing file of the first port, and the one that is second to
lock it goes on to the next. -/
theorem ports_exclusive_race :
    ∃ state : PortState Bool Nat,
      (portSearch Bool Nat).run (.start [50000, 50001] fun _ => none)
        [.openFile true, .openFile false, .flock false, .flock true, .openFile true,
          .flock true] = some state ∧
      state.Holds false 50000 ∧ state.Holds true 50001 ∧ ¬ state.Holds true 50000 := by
  have executed : ∃ state : PortState Bool Nat,
      (portSearch Bool Nat).run (.start [50000, 50001] fun _ => none)
        [.openFile true, .openFile false, .flock false, .flock true, .openFile true,
          .flock true] = some state ∧ state.Holds false 50000 ∧ state.Holds true 50001 :=
    ⟨_, rfl, ⟨_, rfl⟩, ⟨_, rfl⟩⟩
  obtain ⟨state, executed, first, second⟩ := executed
  refine ⟨state, executed, first, second, fun both => ?_⟩
  exact absurd ((ports_exclusive executed).1 _ _ _ first both) (by decide)

end PortState

end X86OnArm.Muvm
