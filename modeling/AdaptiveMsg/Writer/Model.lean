import AdaptiveMsg.Machine.Run
import AdaptiveMsg.Replay.Calls
import AdaptiveMsg.Recovery

/-!
# Writer — the v3 writer task and what acts on it

`RecoveryWriter` of `recovery_runtime.rs`, one step for each place where another task may come
between, with the tasks that act on it: senders queue frames, readers apply ACKs and note received
frames, transports attach and break, `close` queues its marker.  What writes, flushes and the peer
answer is left to the environment, and so are the timers.

With recovery on, `enqueue_frame` queues every frame with a `queued_tx`; each gets a number here.
-/

namespace AdaptiveMsg.Writer

/-! ### State -/

/-- An entry of the outbound queue. -/
inductive OutboundFrame where
  | recovery (queuedTx : Nat) (frame : Frame)
  | close
  deriving DecidableEq, Repr

inductive WriterCommand where
  | attach (gen resumeSeq : Nat)
  | detach (gen : Nat)
  deriving DecidableEq, Repr

/-- What is written on a transport. -/
inductive Packet where
  | ack (seq : Nat)
  | ping
  | record (record : FrameRecord)
  | close
  deriving DecidableEq, Repr

/-- Where the writer is. -/
inductive Pc where
  /-- At the beginning of `step`. -/
  | top
  /-- Taking the commands that are queued. -/
  | commands
  /-- In `write_next`, before the pending ACK, the frames to replay and the next frame. -/
  | ack
  | replay
  | frame
  /-- In `flush_and_wait`, before the flush, in it and in the select. -/
  | flush
  | flushing
  | parked
  /-- In the select of `wait_detached`. -/
  | detached
  | writing (packet : Packet)
  /-- In `detach_transport`, before the command is queued. -/
  | detaching
  /-- In `finish_on_close`, writing CLOSE and shutting the transport down. -/
  | closing
  | shutting
  | done
  deriving DecidableEq, Repr

/-- How far the call of `close` is that set `closing`. -/
inductive CloserPc where
  | none
  | begun
  | queued
  | signalled
  deriving DecidableEq, Repr

structure World where
  /-- The size of the outbound queue. -/
  capacity : Nat
  recovery : RecoveryState
  nextSendSeq : Nat
  outbound : List OutboundFrame
  writerCmds : List WriterCommand
  /-- The permit of `send_notify`. -/
  permit : Bool
  transportGen : Nat
  closing : Bool
  closed : Bool
  /-- The `attach_transport_parts` calls that have a generation and have yet to queue `Attach`. -/
  attaching : List (Nat × Nat)
  /-- The `detach_transport` calls of other tasks that have yet to queue `Detach`. -/
  detaching : List Nat
  /-- The tasks about to call `signal_send`, but for those in `acking`. -/
  signalling : Nat
  /-- The readers between `ReplayBuffer::ack` and `signal_send`. -/
  acking : Nat
  closer : CloserPc
  pc : Pc
  /-- Whether there is a transport to write to, which is that of `gen`. -/
  writer : Bool
  gen : Nat
  lastSentSeq : Nat
  resume : List FrameRecord
  held : Option (Nat × Frame)
  dirty : Bool
  /-- What the senders were told, by `queuedTx`. -/
  answers : List (Nat × Except Error Unit)
  /-- What `close` was told. -/
  written : Option Bool
  /-- How many frames were queued. -/
  queued : Nat
  /-- What left the outbound queue, in order (this and the rest is no state of the program). -/
  taken : List OutboundFrame
  /-- The frames kept, in order. -/
  kept : List (Nat × FrameRecord)
  /-- What was written, by transport, in order. -/
  log : List (Nat × Packet)
  /-- The resume point of the transport attached last, and `last_acked` after its attach. -/
  point : Nat
  ackedAtAttach : Nat
  /-- The records not replayed on that transport, with `last_acked` at that time. -/
  passed : List (FrameRecord × Nat)
  deriving DecidableEq

/-- What the writer does: it goes on, something that it waits for ends, or one arm of the select
that it is in. -/
inductive Action where
  /-- `now` is the time that `take_pending_ack` reads. -/
  | goOn (now : Nat)
  | result (ok : Bool)
  | closedNotify
  | notified
  | command
  | recv
  | timer (heartbeatTick : Bool)
  deriving DecidableEq, Repr

inductive Event where
  | writer (a : Action)
  /-- `enqueue_frame` queues a frame. -/
  | enqueue (frame : Frame)
  | signalSend
  /-- A reader applies an ACK. -/
  | ackReceived (lastSeq : Nat)
  | ackSignal
  | noteReceived (now seq : Nat)
  | attach (resumeSeq : Nat)
  | attachSend (gen resumeSeq : Nat)
  | detach
  | detachSend (gen : Nat)
  /-- The first call of `close`, until it waits for the writer. -/
  | close
  | queueClose
  | closeSignal
  | closeByPeer
  | markClosed
  /-- The writer task ends, as `mark_closed` told it. -/
  | abort
  deriving DecidableEq, Repr

/-! ### The writer -/

namespace World

variable (w : World)

def apply : WriterCommand → World
  | .attach gen resumeSeq =>
    -- The peer cannot have received more than was sent.
    let lastSentSeq := min resumeSeq w.nextSendSeq
    let (resume, recovery) := w.recovery.prepareResume lastSentSeq
    { w with
      gen := gen
      lastSentSeq := lastSentSeq
      resume := resume
      recovery := recovery
      writer := true
      dirty := false
      point := lastSentSeq
      ackedAtAttach := recovery.replay.lastAcked
      passed := [] }
  | .detach gen => if gen = w.gen then { w with writer := false } else w

/-- The head of the outbound queue is taken. -/
def take (head : OutboundFrame) (rest : List OutboundFrame) : World :=
  { w with outbound := rest, taken := w.taken ++ [head] }

/-- Keeps a frame under the next number and tells its sender, or holds it, or refuses it. -/
def stage (queuedTx : Nat) (frame : Frame) : World × Option FrameRecord :=
  let seq := w.nextSendSeq + 1
  match w.recovery.replay.stage frame seq with
  | .ok (.kept record, replay) =>
    ({ w with
      recovery := { w.recovery with replay := replay }
      nextSendSeq := seq
      answers := w.answers ++ [(queuedTx, .ok ())]
      kept := w.kept ++ [(queuedTx, record)] }, some record)
  | .ok (.full payload, replay) =>
    ({ w with
      recovery := { w.recovery with replay := replay }
      held := some (queuedTx, { frame with payload := payload }) }, none)
  | .error err => ({ w with answers := w.answers ++ [(queuedTx, .error err)] }, none)

/-- Stages a frame and goes on to write it. -/
def writeLive (queuedTx : Nat) (frame : Frame) : World :=
  match w.stage queuedTx frame with
  | (w, some record) =>
    if record.seq > w.lastSentSeq then { w with pc := .writing (.record record) }
    else { w with pc := .top }
  | (w, none) => { w with pc := .top }

/-- The end of `write_next`: a held frame leaves nothing to write. -/
def writtenNext : World := if w.held.isSome then { w with pc := .flush } else w

/-- The first step of `detach`; nothing is left to do if the connection is closed or its transport
is another one. -/
def detach : World :=
  if ¬w.closed ∧ w.transportGen = w.gen then
    { w with transportGen := w.gen + 1, pc := .detaching }
  else { w with writer := false, pc := .top }

def goOn (now : Nat) : Option World :=
  match w.pc with
  | .top =>
    if w.closed then some { w with pc := .done }
    else some { w with pc := if w.writer then .commands else .detached }
  | .commands =>
    match w.writerCmds with
    | cmd :: rest => some ({ w with writerCmds := rest }.apply cmd)
    | [] => some { w with pc := if w.writer then .ack else .top }
  | .ack =>
    match w.recovery.takePendingAck now with
    | (some seq, recovery) => some { w with recovery := recovery, pc := .writing (.ack seq) }
    | (none, recovery) => some { w with recovery := recovery, pc := .replay }
  | .replay =>
    match w.resume with
    | record :: rest =>
      if record.seq > w.lastSentSeq ∧ record.seq > w.recovery.replay.lastAcked then
        some { w with resume := rest, pc := .writing (.record record) }
      else
        some { w with
          resume := rest
          passed := w.passed ++ [(record, w.recovery.replay.lastAcked)]
          pc := .top }
    | [] => some { w with pc := .frame }
  | .frame =>
    match w.held, w.outbound with
    | some (queuedTx, frame), _ => some ({ w with held := none }.writeLive queuedTx frame).writtenNext
    | none, .recovery queuedTx frame :: rest =>
      some ((w.take (.recovery queuedTx frame) rest).writeLive queuedTx frame).writtenNext
    | none, .close :: rest => some { w.take .close rest with pc := .closing }
    | none, [] => some { w with pc := .flush }
  | .flush =>
    if w.dirty then some { w with dirty := false, pc := .flushing } else some { w with pc := .parked }
  | .detaching =>
    some { w with writerCmds := w.writerCmds ++ [.detach w.gen], writer := false, pc := .top }
  | _ => none

/-- What is written is counted as sent if it is a record. -/
def wrote (packet : Packet) : World :=
  { w with
    log := w.log ++ [(w.gen, packet)]
    dirty := true
    lastSentSeq := match packet with
      | .record record => record.seq
      | _ => w.lastSentSeq
    pc := .top }

def result (ok : Bool) : Option World :=
  match w.pc with
  | .writing packet => some (if ok then w.wrote packet else w.detach)
  | .flushing => some (if ok then { w with pc := .parked } else w.detach)
  | .closing =>
    if ok then some { w with log := w.log ++ [(w.gen, .close)], pc := .shutting }
    else some { w with written := some false, pc := .done }
  | .shutting => some { w with written := some ok, pc := .done }
  | _ => none

def recv : Option World :=
  match w.pc, w.held, w.outbound with
  | .parked, none, .recovery queuedTx frame :: rest =>
    some ((w.take (.recovery queuedTx frame) rest).writeLive queuedTx frame)
  | .parked, none, .close :: rest => some { w.take .close rest with pc := .closing }
  | .detached, none, .recovery queuedTx frame :: rest =>
    some { ((w.take (.recovery queuedTx frame) rest).stage queuedTx frame).1 with pc := .top }
  | .detached, none, .close :: rest =>
    some { w.take .close rest with written := some false, pc := .done }
  | _, _, _ => none

def notified : Option World :=
  if w.permit then
    match w.pc, w.held with
    | .parked, _ => some { w with permit := false, pc := .top }
    | .detached, some _ =>
      some { w with permit := false, pc := if w.closing then .done else .top }
    | _, _ => none
  else none

def command : Option World :=
  match w.pc, w.writerCmds with
  | .parked, cmd :: rest | .detached, cmd :: rest =>
    some { ({ w with writerCmds := rest }.apply cmd) with pc := .top }
  | _, _ => none

def closedNotify : Option World :=
  match w.closed, w.pc with
  | true, .parked | true, .detached => some { w with pc := .done }
  | _, _ => none

def timer (heartbeatTick : Bool) : Option World :=
  match w.pc with
  | .parked => some { w with pc := if heartbeatTick then .writing .ping else .top }
  | _ => none

def act : Action → Option World
  | .goOn now => w.goOn now
  | .result ok => w.result ok
  | .closedNotify => w.closedNotify
  | .notified => w.notified
  | .command => w.command
  | .recv => w.recv
  | .timer heartbeatTick => w.timer heartbeatTick

/-! ### Steps -/

def initial (capacity : Nat) (recovery : RecoveryState) : World where
  capacity := capacity
  recovery := recovery
  nextSendSeq := 0
  outbound := []
  writerCmds := []
  permit := false
  transportGen := 0
  closing := false
  closed := false
  attaching := []
  detaching := []
  signalling := 0
  acking := 0
  closer := .none
  pc := .top
  writer := false
  gen := 0
  lastSentSeq := 0
  resume := []
  held := none
  dirty := false
  answers := []
  written := none
  queued := 0
  taken := []
  kept := []
  log := []
  point := 0
  ackedAtAttach := 0
  passed := []

def step : Event → Option World
  | .writer a => w.act a
  | .enqueue frame =>
    if w.outbound.length < w.capacity ∧ w.pc ≠ .done then
      some { w with
        outbound := w.outbound ++ [.recovery w.queued frame]
        queued := w.queued + 1
        signalling := w.signalling + 1 }
    else none
  | .signalSend =>
    if 0 < w.signalling then some { w with signalling := w.signalling - 1, permit := true } else none
  | .ackReceived lastSeq =>
    some { w with recovery := w.recovery.ackReceived lastSeq, acking := w.acking + 1 }
  | .ackSignal =>
    if 0 < w.acking then some { w with acking := w.acking - 1, permit := true } else none
  | .noteReceived now seq =>
    let (wake, recovery) := w.recovery.noteReceived now seq
    some { w with recovery := recovery, signalling := w.signalling + wake.toNat }
  | .attach resumeSeq =>
    if w.closed then none
    else some { w with
      transportGen := w.transportGen + 1
      attaching := w.attaching ++ [(w.transportGen + 1, resumeSeq)] }
  | .attachSend gen resumeSeq =>
    if (gen, resumeSeq) ∈ w.attaching then
      some { w with
        attaching := w.attaching.erase (gen, resumeSeq)
        writerCmds := w.writerCmds ++ [.attach gen resumeSeq]
        signalling := w.signalling + 1 }
    else none
  | .detach =>
    if w.closed then none
    else some { w with
      transportGen := w.transportGen + 1
      detaching := w.detaching ++ [w.transportGen] }
  | .detachSend gen =>
    if gen ∈ w.detaching then
      some { w with
        detaching := w.detaching.erase gen, writerCmds := w.writerCmds ++ [.detach gen] }
    else none
  | .close => if w.closing then none else some { w with closing := true, closer := .begun }
  | .queueClose =>
    if w.closer = .begun ∧ w.outbound.length < w.capacity ∧ w.pc ≠ .done then
      some { w with outbound := w.outbound ++ [.close], closer := .queued }
    else none
  | .closeSignal =>
    if w.closer = .queued then some { w with closer := .signalled, permit := true } else none
  | .closeByPeer => some { w with closing := true }
  | .markClosed => some { w with closed := true }
  | .abort => if w.closed then some { w with pc := .done } else none

end World

def machine : Machine World Event where
  init w := ∃ capacity negotiated headerLen maxReplayBytes,
    w = .initial capacity (.new negotiated headerLen maxReplayBytes)
  step := World.step

end AdaptiveMsg.Writer
