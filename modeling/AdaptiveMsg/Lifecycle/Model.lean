import AdaptiveMsg.Machine.Run
import AdaptiveMsg.Machine.Pool
import AdaptiveMsg.Recovery

/-!
# Lifecycle — attach, detach, reconnect, expiry and close

The life cycle of one v3 connection, one atomic operation or lock section a step.  Its tasks are
the writer, a reader per transport, the client's reconnect loops, the server's resumes and expiry
timers, and the callers of `close` and `close_now`.  A task is a body, its own control state, and
the call it is in: `attach_transport_parts`, `detach_transport` or `mark_closed`.  While it is in a
call the task performs the call's operations (`callStep`), and the body is where it goes on.

The environment decides when a transport fails, what a reader gets, how a resume attempt ends and
which task moves.  `abort` takes effect at a suspension point only: a task that was aborted may
perform further operations before it stops.

The counters, the registry and the streams are not part of this state.
-/

namespace AdaptiveMsg.Lifecycle

open Machine.Pool (Program Event)

/-! ### The shared state -/

/-- The commands of the writer; `attach` carries the transport of its generation. -/
inductive WriterCommand where
  | attach (gen : Nat)
  | detach (gen : Nat)
  deriving DecidableEq, Repr

structure Shared where
  role : RecoveryRole
  detachedTtl : Nat
  closing : Bool
  closed : Bool
  transportGen : Nat
  transportAttached : Bool
  /-- The generation and the task of the reader to abort. -/
  currentReaderAbort : Option (Nat × Nat)
  reconnectActive : Bool
  writerCmd : List WriterCommand
  /-- The tasks that `abort` was called on. -/
  aborted : List Nat
  /-- The generations that attaches have taken (not part of the program's state). -/
  attachGens : List Nat
  /-- Whether a reader has run `close_by_peer` (not part of the program's state). -/
  closeHandled : Bool
  deriving DecidableEq, Repr

/-- The latest transport has been detached: no attach took the present generation. -/
def Shared.Detached (s : Shared) : Prop := s.transportGen ∉ s.attachGens

instance (s : Shared) : Decidable s.Detached := inferInstanceAs (Decidable (_ ∉ _))

/-! ### Control states -/

/-- The next operation of a call of `attach_transport_parts`. -/
inductive AttachPc where
  | checkClosed
  | fetchAdd
  | takeReader (gen : Nat)
  | sendAttach (gen : Nat)
  | storeAttached (gen : Nat)
  | signalSend (gen : Nat)
  | spawnReader (gen : Nat)
  | storeReader (gen reader : Nat)
  deriving DecidableEq, Repr

/-- The next operation of a call of `detach_transport`. -/
inductive DetachPc where
  | checkClosed
  | compareExchange
  | storeDetached
  | takeReader
  | sendDetach
  | recover
  deriving DecidableEq, Repr

/-- The next operation of a call of `mark_closed`. -/
inductive ClosePc where
  | swapClosed
  | storeDetached
  | abortWriter
  | takeReader
  | notify
  deriving DecidableEq, Repr

inductive Call where
  | attach (pc : AttachPc)
  | detach (gen : Nat) (abortReader : Bool) (pc : DetachPc)
  | markClosed (pc : ClosePc)
  deriving DecidableEq, Repr

inductive ReaderPc where
  | reading
  /-- The reader has read CLOSE and is about to run `close_by_peer`. -/
  | closeByPeer
  /-- `close_by_peer` waits for the frames received to be delivered. -/
  | delivering
  | ended
  deriving DecidableEq, Repr

/-- A task of `spawn_reconnect_loop`. -/
inductive LoopPc where
  /-- The head of the loop in `reconnect_until_attached`. -/
  | attempt
  /-- Inside `resume_client_transport`, before its attach. -/
  | resuming
  | release
  | recheckClosed
  | recheckAttached
  | reacquire
  | stopped
  deriving DecidableEq, Repr

/-- A task of `spawn_server_expiry`. -/
inductive TimerPc where
  | sleeping
  | checkClosed
  | checkGen
  | ended
  deriving DecidableEq, Repr

/-- A caller of `close` or `close_now`. -/
inductive CloserPc where
  | swapClosing
  /-- Inside `close_gracefully`. -/
  | waiting
  | done
  deriving DecidableEq, Repr

inductive Body where
  /-- The writer: the generation of the last attach it applied, whether it has a transport, and
  whether it has stopped. -/
  | writer (gen : Nat) (attached stopped : Bool)
  | reader (gen : Nat) (pc : ReaderPc)
  | loop (pc : LoopPc)
  /-- The server's `attach_resume`, after its response. -/
  | resume
  | timer (detachedGen : Nat) (pc : TimerPc)
  | closer (pc : CloserPc)
  deriving DecidableEq, Repr

/-- A task: where its body goes on, and the call it is in. -/
structure Task where
  body : Body
  call : Option Call
  deriving DecidableEq, Repr

/-! ### The calls -/

/-- What an operation of a call does: the shared state, the next operation unless the call has
returned, and the task it starts. -/
abbrev CallResult := Shared × Option Call × List Task

namespace Shared

variable (s : Shared)

/-- `current_reader_abort.take()`, aborting the reader of `gen`, or of any generation. -/
def takeReader (gen : Option Nat) : Shared :=
  { s with
    currentReaderAbort := none
    aborted := match s.currentReaderAbort with
      | some (g, reader) => if gen = none ∨ gen = some g then reader :: s.aborted else s.aborted
      | none => s.aborted }

/-- `attach_transport_parts`, in a pool of `n` tasks. -/
def attachStep (n : Nat) : AttachPc → CallResult
  | .checkClosed => (s, if s.closed then none else some (.attach .fetchAdd), [])
  | .fetchAdd =>
    ({ s with transportGen := s.transportGen + 1, attachGens := (s.transportGen + 1) :: s.attachGens },
      some (.attach (.takeReader (s.transportGen + 1))), [])
  | .takeReader gen => (s.takeReader none, some (.attach (.sendAttach gen)), [])
  | .sendAttach gen =>
    ({ s with writerCmd := s.writerCmd ++ [.attach gen] }, some (.attach (.storeAttached gen)), [])
  | .storeAttached gen => ({ s with transportAttached := true }, some (.attach (.signalSend gen)), [])
  | .signalSend gen => (s, some (.attach (.spawnReader gen)), [])
  | .spawnReader gen =>
    (s, some (.attach (.storeReader gen n)), [⟨.reader gen .reading, none⟩])
  | .storeReader gen reader => ({ s with currentReaderAbort := some (gen, reader) }, none, [])

/-- `mark_closed`. -/
def markClosedStep : ClosePc → CallResult
  | .swapClosed =>
    ({ s with closed := true }, if s.closed then none else some (.markClosed .storeDetached), [])
  | .storeDetached => ({ s with transportAttached := false }, some (.markClosed .abortWriter), [])
  -- The writer stops at its next step in any case, for it finds `closed` set.
  | .abortWriter => (s, some (.markClosed .takeReader), [])
  | .takeReader => (s.takeReader none, some (.markClosed .notify), [])
  | .notify => (s, none, [])

/-- `detach_transport`; its last operation is `spawn_reconnect_loop` or `spawn_server_expiry`. -/
def detachStep (gen : Nat) (abortReader : Bool) : DetachPc → CallResult
  | .checkClosed => (s, if s.closed then none else some (.detach gen abortReader .compareExchange), [])
  | .compareExchange =>
    if s.transportGen = gen then
      ({ s with transportGen := gen + 1 }, some (.detach gen abortReader .storeDetached), [])
    else (s, none, [])
  | .storeDetached =>
    ({ s with transportAttached := false }, some (.detach gen abortReader .takeReader), [])
  | .takeReader =>
    (if abortReader then s.takeReader (some gen) else s, some (.detach gen abortReader .sendDetach), [])
  | .sendDetach =>
    ({ s with writerCmd := s.writerCmd ++ [.detach gen] }, some (.detach gen abortReader .recover), [])
  | .recover =>
    match s.role with
    | .client =>
      if s.reconnectActive then (s, none, [])
      else ({ s with reconnectActive := true }, none, [⟨.loop .attempt, none⟩])
    | .server =>
      if s.detachedTtl = 0 then (s, some (.markClosed .swapClosed), [])
      else (s, none, [⟨.timer (gen + 1) .sleeping, none⟩])

/-- The next operation of a call, in a pool of `n` tasks. -/
def callStep (n : Nat) : Call → CallResult
  | .attach pc => s.attachStep n pc
  | .detach gen abortReader pc => s.detachStep gen abortReader pc
  | .markClosed pc => s.markClosedStep pc

end Shared

/-! ### The tasks -/

/-- What a task does next: its own next operation or its call's, or what the environment answers
it. -/
inductive Act where
  | run
  /-- A write or a flush fails; the transport ends, fails, or no frame arrives in time. -/
  | fail
  /-- The reader gets a frame or a control frame it rejects. -/
  | reject
  /-- The reader gets CLOSE. -/
  | close
  /-- The frames received before CLOSE are delivered, or the time for that is up. -/
  | delivered
  /-- An aborted reader stops; the writer stops, for the connection is closed or it has written
  the close marker. -/
  | stop
  /-- A resume attempt fails and is retried. -/
  | retry
  /-- A resume attempt is rejected for good. -/
  | terminal
  /-- A resume attempt is accepted. -/
  | resumed
  /-- The sleep of a timer is over. -/
  | fire
  /-- `close_gracefully` returns. -/
  | waited
  deriving DecidableEq, Repr

abbrev MoveResult := Option (Shared × Task × List Task)

namespace Shared

variable (s : Shared)

/-- The body goes on at `b`, making the call `call` first. -/
def goesOn (b : Body) (call : Option Call := none) : MoveResult := some (s, ⟨b, call⟩, [])

def writerStep (gen : Nat) (attached stopped : Bool) : Act → MoveResult
  | .run =>
    if stopped then none else
    match s.writerCmd with
    | [] => none
    | .attach g :: rest => some ({ s with writerCmd := rest }, ⟨.writer g true false, none⟩, [])
    | .detach g :: rest =>
      some ({ s with writerCmd := rest }, ⟨.writer gen (attached && g ≠ gen) false, none⟩, [])
  | .fail =>
    if attached ∧ ¬stopped then
      s.goesOn (.writer gen false false) (some (.detach gen true .checkClosed))
    else none
  | .stop =>
    if ¬stopped ∧ (s.closed ∨ s.closing) then s.goesOn (.writer gen attached true) else none
  | _ => none

def readerStep (i gen : Nat) : ReaderPc → Act → MoveResult
  -- `close` sent CLOSE and waits for the peer to close its side.
  | .reading, .fail =>
    if s.closing then s.goesOn (.reader gen .ended) (some (.markClosed .swapClosed))
    else s.goesOn (.reader gen .ended) (some (.detach gen false .checkClosed))
  | .reading, .reject => s.goesOn (.reader gen .ended) (some (.markClosed .swapClosed))
  | .reading, .close => s.goesOn (.reader gen .closeByPeer)
  | .closeByPeer, .run =>
    let s' := { s with closing := true, closeHandled := true }
    -- A `close` of this side is waiting for the peer to finish.
    if s.closing then s'.goesOn (.reader gen .ended) (some (.markClosed .swapClosed))
    else s'.goesOn (.reader gen .delivering)
  | .delivering, .delivered => s.goesOn (.reader gen .ended) (some (.markClosed .swapClosed))
  | .reading, .stop | .delivering, .stop =>
    if i ∈ s.aborted then s.goesOn (.reader gen .ended) else none
  | _, _ => none

def loopStep : LoopPc → Act → MoveResult
  | .attempt, .run => if s.closed then s.goesOn (.loop .release) else s.goesOn (.loop .resuming)
  | .resuming, .retry => s.goesOn (.loop .attempt)
  | .resuming, .terminal => s.goesOn (.loop .release) (some (.markClosed .swapClosed))
  | .resuming, .resumed => s.goesOn (.loop .release) (some (.attach .checkClosed))
  | .release, .run => { s with reconnectActive := false }.goesOn (.loop .recheckClosed)
  | .recheckClosed, .run =>
    if s.closed then s.goesOn (.loop .stopped) else s.goesOn (.loop .recheckAttached)
  | .recheckAttached, .run =>
    if s.transportAttached then s.goesOn (.loop .stopped) else s.goesOn (.loop .reacquire)
  | .reacquire, .run =>
    if s.reconnectActive then s.goesOn (.loop .stopped)
    else { s with reconnectActive := true }.goesOn (.loop .attempt)
  | _, _ => none

def timerStep (detachedGen : Nat) : TimerPc → Act → MoveResult
  | .sleeping, .fire => s.goesOn (.timer detachedGen .checkClosed)
  | .checkClosed, .run =>
    if s.closed then s.goesOn (.timer detachedGen .ended)
    else s.goesOn (.timer detachedGen .checkGen)
  | .checkGen, .run =>
    if s.transportGen = detachedGen then
      s.goesOn (.timer detachedGen .ended) (some (.markClosed .swapClosed))
    else s.goesOn (.timer detachedGen .ended)
  | _, _ => none

def closerStep : CloserPc → Act → MoveResult
  | .swapClosing, .run =>
    let s' := { s with closing := true }
    if s.closing then s'.goesOn (.closer .done) (some (.markClosed .swapClosed))
    else s'.goesOn (.closer .waiting)
  | .waiting, .waited => s.goesOn (.closer .done) (some (.markClosed .swapClosed))
  | _, _ => none

/-- What task `i` does from its own control state. -/
def bodyStep (i : Nat) : Body → Act → MoveResult
  | .writer gen attached stopped, a => s.writerStep gen attached stopped a
  | .reader gen pc, a => s.readerStep i gen pc a
  | .loop pc, a => s.loopStep pc a
  | .resume, _ => none
  | .timer detachedGen pc, a => s.timerStep detachedGen pc a
  | .closer pc, a => s.closerStep pc a

def move (n i : Nat) (t : Task) (a : Act) : MoveResult :=
  match t.call, a with
  | some call, .run =>
    let r := s.callStep n call
    some (r.1, ⟨t.body, r.2.1⟩, r.2.2)
  | some _, _ => none
  | none, a => s.bodyStep i t.body a

/-- The environment calls `close` and `close_now`, and the server accepts resumes. -/
def start (t : Task) : Bool :=
  t = ⟨.closer .swapClosing, none⟩ || t = ⟨.closer .done, some (.markClosed .swapClosed)⟩ ||
    (s.role = .server && t = ⟨.resume, some (.attach .checkClosed)⟩)

end Shared

def program : Program Shared Task Act where
  move := Shared.move
  start := Shared.start

/-! ### The connection -/

abbrev Conn := Machine.Pool.State Shared Task

/-- A connection that `start_with_config` has started: its first transport is generation 1. -/
def started (role : RecoveryRole) (detachedTtl : Nat) : Conn where
  shared :=
    { role := role
      detachedTtl := detachedTtl
      closing := false
      closed := false
      transportGen := 1
      transportAttached := true
      currentReaderAbort := some (1, 1)
      reconnectActive := false
      writerCmd := [.attach 1]
      aborted := []
      attachGens := [1]
      closeHandled := false }
  tasks := [⟨.writer 0 false false, none⟩, ⟨.reader 1 .reading, none⟩]

/-- The runs of a connection from the end of `start_with_config`. -/
def machine (role : RecoveryRole) : Machine Conn (Event Task Act) where
  init c := ∃ detachedTtl, c = started role detachedTtl
  step := program.step

end AdaptiveMsg.Lifecycle
