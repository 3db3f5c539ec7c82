import AdaptiveMsg.Machine.Run
import AdaptiveMsg.Machine.Pool
import AdaptiveMsg.Wire.Handshake

/-!
# Server — serving until a shutdown

`serve_with_accept` with the tasks it starts, one lock section, callback or await a step: a
`handle_conn` for each accepted connection, and at shutdown a `close` for each connection tracked.
The environment accepts connections, settles how each handshake, attach and callback ends, resolves
the signal, and closes connections from outside, as their peers and their own tasks do.

A connection is named by the order in which it was accepted.  `wait_stopped` sees the shutdown from
the step that takes the tracked connections on.  A resumed transport goes to another connection,
which is unchanged here.
-/

namespace AdaptiveMsg.Server

open Machine.Pool (Program Event)

/-! ### The shared state -/

structure Conn where
  /-- The `connection_id` of its recovery state. -/
  recovery : Option Nat
  closing : Bool
  closed : Bool
  deriving DecidableEq, Repr

structure Shared where
  /-- The connections made for the accepted transports. -/
  conns : List Conn
  /-- `Lifecycle.conns`: none once shutdown has begun. -/
  tracked : Option (List Nat)
  /-- The connection IDs that can be resumed, with their connections. -/
  recoveryConns : List (Nat × Nat)
  /-- How many tasks of the `JoinSet` have not ended. -/
  running : Nat
  /-- The connections that `start` has started (not part of the program's state). -/
  started : List Nat
  /-- The calls of `on_disconnect`, by their connections (not part of the program's state). -/
  disconnects : List Nat
  deriving DecidableEq, Repr

/-! ### Control states -/

/-- The next operation of `close`. -/
inductive ClosePc where
  | swap
  | graceful
  /-- `mark_closed`. -/
  | mark
  | onClosed
  deriving DecidableEq, Repr

/-- How the handshake and attach of an accepted connection ended. -/
inductive Attached where
  | new
  | resumed
  | refused
  deriving DecidableEq, Repr

/-- The next operation of `handle_conn`; `token` is the connection ID of a recovery connection. -/
inductive HandlePc where
  | handshake
  | readAttach
  -- `attach_new`
  | insertRecovery
  | writeNew (token : Nat)
  | removeRecovery (token : Nat)
  -- `start`
  | onConnect (token : Option Nat)
  | startWithConfig (token : Option Nat)
  -- `attach_resume`
  | lookup (connectionId : Nat) (authentic : Bool)
  | check (existing : Option Nat) (authentic : Bool)
  | writeResume (existing : Nat)
  | attachTransport (existing : Nat)
  | rejectAttach
  -- the rest of `handle_conn`
  | closeNow
  | track
  | close (pc : ClosePc)
  | waitClosed
  | untrack
  | onDisconnect
  | ended (attached : Attached)
  deriving DecidableEq, Repr

/-- The next operation of `serve_with_accept`. -/
inductive ServePc where
  | accept
  /-- Waiting after a failed accept. -/
  | backoff
  | stop
  /-- The tracked connections to start a `close` for. -/
  | spawn (conns : List Nat)
  | join
  | returned
  deriving DecidableEq, Repr

inductive Task where
  | serve (pc : ServePc)
  | handle (conn : Nat) (pc : HandlePc)
  /-- A `close` that the shutdown starts; none once it has ended. -/
  | close (conn : Nat) (pc : Option ClosePc)
  /-- A close from outside the server. -/
  | outside (conn : Nat) (pc : Option ClosePc)
  deriving DecidableEq, Repr

inductive AttachRequest where
  | new
  /-- `authentic` if the codec and the secret are those of the connection it names. -/
  | resume (connectionId : Nat) (authentic : Bool)
  | unknown
  deriving DecidableEq, Repr

/-- What the environment decides about a step. -/
inductive Act where
  | go
  | fail
  | signal
  | accepted
  /-- `accept` fails, because of one peer only if `peer`. -/
  | acceptFailed (peer : Bool)
  /-- A step of the handshake sees the shutdown. -/
  | stopped
  /-- The handshake succeeds. -/
  | config (config : HandshakeConfig)
  | request (request : AttachRequest)
  | token (token : Nat)
  deriving DecidableEq, Repr

/-! ### Operations -/

namespace Shared

variable (s : Shared)

def conn (i : Nat) : Conn := s.conns.getD i ⟨none, false, false⟩

def modify (i : Nat) (f : Conn → Conn) : Shared := { s with conns := s.conns.modify i f }

def isClosed (i : Nat) : Bool := (s.conn i).closed

/-- `Lifecycle::track`. -/
def track (i : Nat) : Option Shared :=
  s.tracked.map fun conns => { s with tracked := some (i :: conns.erase i) }

/-- `Lifecycle::untrack`. -/
def untrack (i : Nat) : Shared := { s with tracked := s.tracked.map (·.erase i) }

def insertRecovery (token i : Nat) : Shared :=
  { s with recoveryConns := (token, i) :: s.recoveryConns.eraseP fun e => token == e.1 }

def removeRecovery (token : Nat) : Shared :=
  { s with recoveryConns := s.recoveryConns.eraseP fun e => token == e.1 }

/-- `RecoveryState::on_closed`. -/
def onClosed (i : Nat) : Shared :=
  match (s.conn i).recovery with
  | some token => if s.recoveryConns.lookup token = some i then s.removeRecovery token else s
  | none => s

/-- A task has ended. -/
def ended : Shared := { s with running := s.running - 1 }

end Shared

/-! ### Steps -/

/-- None once `close` is over. -/
def closeStep (s : Shared) (i : Nat) : ClosePc → Shared × Option ClosePc
  | .swap =>
    (s.modify i fun conn => { conn with closing := true },
      some (if (s.conn i).closing then .mark else .graceful))
  | .graceful => (s, some .mark)
  | .mark =>
    if s.isClosed i then (s, none)
    else (s.modify i fun conn => { conn with closed := true }, some .onClosed)
  | .onClosed => (s.onClosed i, none)

/-- Where `handle_conn` goes on when `start` fails. -/
def refuse (token : Option Nat) : HandlePc := token.elim .closeNow .removeRecovery

def handleStep (s : Shared) (i : Nat) : HandlePc → Act → Option (Shared × HandlePc)
  | .handshake, .stopped | .readAttach, .stopped =>
    if s.tracked.isNone then some (s, .closeNow) else none
  | .handshake, .fail | .readAttach, .fail => some (s, .closeNow)
  | .handshake, .config config =>
    some (s, if config.version ≠ protocolVersionV3 then .onConnect none else .readAttach)
  | .readAttach, .request .new => some (s, .insertRecovery)
  | .readAttach, .request (.resume connectionId authentic) => some (s, .lookup connectionId authentic)
  | .readAttach, .request .unknown => some (s, .rejectAttach)
  | .insertRecovery, .token token => some (s.insertRecovery token i, .writeNew token)
  | .writeNew token, .go => some (s, .onConnect (some token))
  | .writeNew token, .fail => some (s, .removeRecovery token)
  | .removeRecovery token, .go => some (s.removeRecovery token, .closeNow)
  | .onConnect token, .go => some (s, .startWithConfig token)
  | .onConnect token, .fail => some (s, refuse token)
  | .startWithConfig token, .go =>
    some ({ s.modify i fun conn => { conn with recovery := token } with started := s.started ++ [i] },
      .track)
  | .startWithConfig token, .fail => some (s, refuse token)
  | .lookup connectionId authentic, .go =>
    some (s, .check (s.recoveryConns.lookup connectionId) authentic)
  | .check existing authentic, .go =>
    some (s, match existing with
      | some j =>
        if (s.conn j).recovery.isSome ∧ !s.isClosed j ∧ authentic then .writeResume j else .rejectAttach
      | none => .rejectAttach)
  | .writeResume existing, .go => some (s, .attachTransport existing)
  | .writeResume _, .fail => some (s, .closeNow)
  | .attachTransport _, .go => some (s.ended, .ended .resumed)
  | .rejectAttach, .go => some (s, .closeNow)
  | .closeNow, .go =>
    some ((s.modify i fun conn => { conn with closed := true }).ended, .ended .refused)
  | .track, .go =>
    match s.track i with
    | some s => some (s, .waitClosed)
    | none => some (s, .close .swap)
  | .close pc, .go =>
    match closeStep s i pc with
    | (s, some pc) => some (s, .close pc)
    | (s, none) => some (s, .waitClosed)
  | .waitClosed, .go => if s.isClosed i then some (s, .untrack) else none
  | .untrack, .go => some (s.untrack i, .onDisconnect)
  | .onDisconnect, .go =>
    some ({ s with disconnects := s.disconnects ++ [i] }.ended, .ended .new)
  | _, _ => none

def serveStep (s : Shared) : ServePc → Act → Option (Shared × ServePc × List Task)
  | .accept, .signal | .backoff, .signal => some (s, .stop, [])
  | .accept, .accepted =>
    some ({ s with conns := s.conns ++ [⟨none, false, false⟩], running := s.running + 1 }, .accept,
      [.handle s.conns.length .handshake])
  | .accept, .acceptFailed peer => some (s, if peer then .accept else .backoff, [])
  | .backoff, .go => some (s, .accept, [])
  -- `Lifecycle::stop`.
  | .stop, .go => some ({ s with tracked := none }, .spawn (s.tracked.getD []), [])
  | .spawn (i :: conns), .go =>
    some ({ s with running := s.running + 1 }, .spawn conns, [.close i (some .swap)])
  | .spawn [], .go => some (s, .join, [])
  | .join, .go => if s.running = 0 then some (s, .returned, []) else none
  | _, _ => none

def move (s : Shared) : Task → Act → Option (Shared × Task × List Task)
  | .serve pc, a => (serveStep s pc a).map fun (s, pc, tasks) => (s, .serve pc, tasks)
  | .handle i pc, a => (handleStep s i pc a).map fun (s, pc) => (s, .handle i pc, [])
  | .close i (some pc), .go =>
    match closeStep s i pc with
    | (s, some pc) => some (s, .close i (some pc), [])
    | (s, none) => some (s.ended, .close i none, [])
  | .outside i (some pc), .go => some ((closeStep s i pc).1, .outside i (closeStep s i pc).2, [])
  | _, _ => none

/-- The application closes a connection, or its own tasks do. -/
def starts (s : Shared) : Task → Bool
  | .outside i pc => i < s.conns.length ∧ (pc = some .swap ∨ pc = some .mark)
  | .serve _ | .handle _ _ | .close _ _ => false

def program : Program Shared Task Act := ⟨fun s _ _ t a => move s t a, starts⟩

abbrev State := Machine.Pool.State Shared Task

def initial : State := ⟨⟨[], some [], [], 0, [], []⟩, [.serve .accept]⟩

def machine : Machine State (Event Task Act) where
  init c := c = initial
  step := program.step

end AdaptiveMsg.Server
