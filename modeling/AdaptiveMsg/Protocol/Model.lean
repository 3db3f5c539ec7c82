import AdaptiveMsg.Machine.Run
import AdaptiveMsg.Recovery
import Mathlib.Logic.Function.Basic

/-!
# Protocol — two endpoints of a recovered connection

A client and a server, each with its `RecoveryState`, its `RecoveryWriter` and one recovery reader
per transport, over any number of transports.  A transport carries the resume points announced
when it was dialed and a FIFO to each side; it may break at any moment and lose any suffix of what
is in flight.

The environment sends frames, dials, breaks transports, and chooses which task moves and what the
clock reads.  A step ends where its task suspends or touches state that another task shares: a
reader reads its `last_recv_seq` when it starts, is inside `accept_frame`, and notes the frame, in
three steps.  A task that was aborted stops at a suspension point (`stop`), or goes on; a task that
has ended for good takes no more steps, so closing the connection is not an event.
-/

namespace AdaptiveMsg.Protocol

/-! ### State -/

/-- A frame on the wire. -/
inductive Packet where
  | data (record : FrameRecord)
  | ack (lastSeq : Nat)
  | ping
  deriving DecidableEq, Repr

inductive WriterCommand where
  | attach (transport resumeSeq : Nat)
  | detach (transport : Nat)
  deriving DecidableEq, Repr

structure Endpoint where
  recovery : RecoveryState
  nextSendSeq : Nat
  /-- The frames that sends have queued. -/
  outbound : List Frame
  writerCmd : List WriterCommand
  /-- The transport being written to. -/
  writer : Option Nat
  lastSentSeq : Nat
  /-- The frames left to replay. -/
  resume : List FrameRecord
  /-- A frame that does not fit in the replay buffer yet. -/
  held : Option Frame
  /-- What the writer is writing. -/
  writing : Option Packet
  /-- The error with which a reader failed the connection. -/
  failed : Option Error
  /-- The frames that took a number, in order (not part of the program's state). -/
  staged : List Frame
  /-- The frames handed to `accept_frame`, in order (not part of the program's state). -/
  handed : List FrameRecord
  /-- The frames that `accept_frame` took, in order (not part of the program's state). -/
  accepted : List FrameRecord
  /-- The frames whose `accept_frame` was cancelled (not part of the program's state). -/
  cancelled : List FrameRecord
  deriving DecidableEq

/-- The control state of the reader of a transport, with its `last_recv_seq`. -/
inductive ReaderPc where
  | unspawned
  | starting
  | reading (lastRecvSeq : Nat)
  /-- Inside `accept_frame`. -/
  | accepting (lastRecvSeq : Nat) (record : FrameRecord)
  /-- About to note the frame that `accept_frame` took. -/
  | noting (lastRecvSeq : Nat) (record : FrameRecord)
  | ended
  deriving DecidableEq, Repr

/-- What is in flight to a side over a transport, and the reader of that side. -/
structure Lane where
  wire : List Packet
  reader : ReaderPc
  deriving DecidableEq, Repr

/-- A transport: the resume point that each side has announced on it, whether each side has
attached it, and whether it broke. -/
structure Transport where
  point : RecoveryRole → Option Nat
  attached : RecoveryRole → Bool
  broken : Bool

structure World where
  ep : RecoveryRole → Endpoint
  transport : Nat → Transport
  /-- The lane of a transport to a side. -/
  lane : Nat → RecoveryRole → Lane
  /-- The transports dialed. -/
  dialed : Nat

/-! ### The writer -/

namespace Endpoint

def new (negotiated : NegotiatedRecoveryOptions) (headerLen : Nat) (maxReplayBytes : Int) :
    Endpoint where
  recovery := .new negotiated headerLen maxReplayBytes
  nextSendSeq := 0
  outbound := []
  writerCmd := []
  writer := none
  lastSentSeq := 0
  resume := []
  held := none
  writing := none
  failed := none
  staged := []
  handed := []
  accepted := []
  cancelled := []

variable (e : Endpoint)

/-- `RecoveryWriter::stage`: the record kept, or none if the frame is held or failed. -/
def stage (frame : Frame) : Option FrameRecord × Endpoint :=
  let seq := e.nextSendSeq + 1
  match e.recovery.replay.stage frame seq with
  | .ok (.kept record, replay) =>
    (some record,
      { e with
        nextSendSeq := seq
        recovery := { e.recovery with replay := replay }
        staged := e.staged ++ [frame] })
  | .ok (.full _, _) => (none, { e with held := some frame })
  | .error _ => (none, e)

/-- `RecoveryWriter::apply`. -/
def apply : WriterCommand → Endpoint
  | .attach transport resumeSeq =>
    -- The peer cannot have received more than was sent.
    let lastSentSeq := min resumeSeq e.nextSendSeq
    let (resume, recovery) := e.recovery.prepareResume lastSentSeq
    { e with
      lastSentSeq := lastSentSeq
      resume := resume
      recovery := recovery
      writer := some transport }
  | .detach transport => if e.writer = some transport then { e with writer := none } else e

/-- `write_live`, up to the write. -/
def writeLive (frame : Frame) : Endpoint :=
  match e.stage frame with
  | (some record, e') =>
    if record.seq > e'.lastSentSeq then { e' with writing := some (.data record) } else e'
  | (none, e') => e'

/-- `write_next` after its check for a pending ACK, up to the write; none if nothing is ready. -/
def writeNext : Option Endpoint :=
  match e.resume with
  | frame :: resume =>
    if frame.seq > e.lastSentSeq ∧ frame.seq > e.recovery.replay.lastAcked then
      some { e with resume := resume, writing := some (.data frame) }
    else some { e with resume := resume }
  | [] =>
    match e.held, e.outbound with
    | some frame, _ => some ({ e with held := none }.writeLive frame)
    | none, frame :: outbound => some ({ e with outbound := outbound }.writeLive frame)
    | none, [] => none

/-- `take_pending_ack`, up to the write of the ACK. -/
def takeAck (now : Nat) : Endpoint :=
  let (ack, recovery) := e.recovery.takePendingAck now
  { e with recovery := recovery, writing := ack.map .ack }

/-- While no transport is attached, frames are staged. -/
def stageDetached : Option Endpoint :=
  match e.held, e.outbound with
  | none, frame :: outbound => some ({ e with outbound := outbound }.stage frame).2
  | _, _ => none

/-- A write that worked, of a data frame. -/
def sent : Packet → Endpoint
  | .data record => { e with lastSentSeq := record.seq, writing := none }
  | _ => { e with writing := none }

end Endpoint

/-! ### The reader -/

/-- `handle_recovery_data_frame` before `accept_frame`: whether the frame is new. -/
def checkDataFrame (lastRecvSeq seq : Nat) : Except Error Bool :=
  if seq = 0 then .error (.invalidMessage "recovery data frame missing seq")
  else if seq ≤ lastRecvSeq then .ok false
  else if seq ≠ lastRecvSeq + 1 then .error (.invalidMessage "recovery frame sequence gap")
  else .ok true

/-- A reader at `lastRecvSeq` handles what it has read. -/
def handlePacket (e : Endpoint) (lastRecvSeq now : Nat) : Packet → Endpoint × ReaderPc
  | .ack lastSeq => ({ e with recovery := e.recovery.ackReceived lastSeq }, .reading lastRecvSeq)
  | .ping => (e, .reading lastRecvSeq)
  | .data record =>
    match checkDataFrame lastRecvSeq record.seq with
    | .error err => ({ e with failed := some err }, .ended)
    | .ok false =>
      ({ e with recovery := (e.recovery.noteReceived now record.seq).2 }, .reading lastRecvSeq)
    | .ok true => ({ e with handed := e.handed ++ [record] }, .accepting lastRecvSeq record)

/-! ### Steps -/

inductive Event where
  /-- The client dials a transport and announces its resume point. -/
  | dial
  /-- The server answers with its own. -/
  | respond (t : Nat)
  /-- `attach_transport_parts` sends Attach to the writer. -/
  | attach (s : RecoveryRole) (t : Nat)
  | spawnReader (s : RecoveryRole) (t : Nat)
  /-- `detach_transport` sends Detach to the writer. -/
  | detach (s : RecoveryRole) (t : Nat)
  | send (s : RecoveryRole) (frame : Frame)
  /-- The writer applies its next command. -/
  | apply (s : RecoveryRole)
  | takeAck (s : RecoveryRole) (now : Nat)
  | writeNext (s : RecoveryRole)
  | writePing (s : RecoveryRole)
  | stageDetached (s : RecoveryRole)
  /-- The write in progress ends; on a failure the writer drops its transport. -/
  | writeDone (s : RecoveryRole) (ok : Bool)
  | flushFail (s : RecoveryRole)
  /-- The reader of `s` on a transport copies the last received number. -/
  | startReader (s : RecoveryRole) (t : Nat)
  | read (s : RecoveryRole) (t now : Nat)
  /-- `accept_frame` takes the frame. -/
  | accept (s : RecoveryRole) (t : Nat)
  | note (s : RecoveryRole) (t now : Nat)
  /-- A reader stops: it was aborted, its transport ended, or the connection closed. -/
  | stop (s : RecoveryRole) (t : Nat)
  /-- The transport breaks and keeps prefixes of what is in flight to the two sides. -/
  | breakTransport (t : Nat) (keep : RecoveryRole → Nat)

namespace World

def initial (negotiated : NegotiatedRecoveryOptions) (headerLen : Nat)
    (maxReplayBytes : RecoveryRole → Int) : World where
  ep s := .new negotiated headerLen (maxReplayBytes s)
  transport _ := ⟨fun _ => none, fun _ => false, false⟩
  lane _ _ := ⟨[], .unspawned⟩
  dialed := 0

variable (w : World)

def setEp (s : RecoveryRole) (e : Endpoint) : World :=
  { w with ep := Function.update w.ep s e }

def setTransport (t : Nat) (tr : Transport) : World :=
  { w with transport := Function.update w.transport t tr }

def setLane (t : Nat) (s : RecoveryRole) (l : Lane) : World :=
  { w with lane := Function.update w.lane t (Function.update (w.lane t) s l) }

section update

variable {w} {s s' : RecoveryRole} {t t' : Nat} {e : Endpoint} {tr : Transport} {l : Lane}

@[simp] theorem setEp_ep_self : (w.setEp s e).ep s = e := by simp [setEp]

theorem setEp_ep_ne (h : s' ≠ s) : (w.setEp s e).ep s' = w.ep s' := by
  simp [setEp, Function.update_of_ne h]

@[simp] theorem setEp_ep_peer : (w.setEp s e).ep s.peer = w.ep s.peer := setEp_ep_ne (by simp)

@[simp] theorem setEp_transport : (w.setEp s e).transport = w.transport := rfl

@[simp] theorem setEp_lane : (w.setEp s e).lane = w.lane := rfl

@[simp] theorem setEp_dialed : (w.setEp s e).dialed = w.dialed := rfl

@[simp] theorem setTransport_transport_self : (w.setTransport t tr).transport t = tr := by
  simp [setTransport]

theorem setTransport_transport_ne (h : t' ≠ t) : (w.setTransport t tr).transport t' = w.transport t' := by
  simp [setTransport, Function.update_of_ne h]

/-- What a transport has kept is as before. -/
theorem setTransport_same (tr : Transport) {α : Type*} (f : Transport → α)
    (h : f tr = f (w.transport t)) (t' : Nat) :
    f ((w.setTransport t tr).transport t') = f (w.transport t') := by
  by_cases ht : t' = t
  · subst ht
    rw [setTransport_transport_self, h]
  · rw [setTransport_transport_ne ht]

@[simp] theorem setTransport_ep : (w.setTransport t tr).ep = w.ep := rfl

@[simp] theorem setTransport_lane : (w.setTransport t tr).lane = w.lane := rfl

@[simp] theorem setTransport_dialed : (w.setTransport t tr).dialed = w.dialed := rfl

@[simp] theorem setLane_lane_self : (w.setLane t s l).lane t s = l := by simp [setLane]

theorem setLane_lane_ne (h : t' ≠ t ∨ s' ≠ s) : (w.setLane t s l).lane t' s' = w.lane t' s' := by
  by_cases ht : t' = t
  · subst ht
    have hs := h.resolve_left (by simp)
    simp [setLane, Function.update_of_ne hs]
  · simp [setLane, Function.update_of_ne ht]

theorem setLane_lane : (fun t' => (w.setLane t s l).lane t' s) =
    Function.update (fun t' => w.lane t' s) t l := by
  funext t'
  by_cases ht : t' = t
  · subst ht
    simp
  · rw [setLane_lane_ne (.inl ht), Function.update_of_ne ht]

@[simp] theorem setLane_ep : (w.setLane t s l).ep = w.ep := rfl

@[simp] theorem setLane_transport : (w.setLane t s l).transport = w.transport := rfl

@[simp] theorem setLane_dialed : (w.setLane t s l).dialed = w.dialed := rfl

end update

def announce (t : Nat) (s : RecoveryRole) : World :=
  w.setTransport t { w.transport t with
    point := Function.update (w.transport t).point s (some (w.ep s).recovery.lastReceived) }

/-- The reader of `s` on `t` goes on at `pc`, with `e` for the endpoint. -/
def readerGoesOn (s : RecoveryRole) (t : Nat) (e : Endpoint) (wire : List Packet) (pc : ReaderPc) :
    World :=
  (w.setEp s e).setLane t s ⟨wire, pc⟩

/-- The response to a resume carries the options of the server to the client. -/
def resumedRecovery : RecoveryRole → RecoveryState
  | .client => (w.ep .client).recovery.setNegotiated (w.ep .server).recovery.negotiated
  | .server => (w.ep .server).recovery

def writeDone (s : RecoveryRole) (ok : Bool) : Option World :=
  match (w.ep s).writer, (w.ep s).writing with
  | some t, some packet =>
    if ok then
      let w' := w.setEp s ((w.ep s).sent packet)
      -- What is written to a transport that broke is lost.
      if (w.transport t).broken then some w'
      else some (w'.setLane t s.peer
        { w.lane t s.peer with wire := (w.lane t s.peer).wire ++ [packet] })
    else some (w.setEp s { w.ep s with writer := none, writing := none })
  | _, _ => none

/-- The writer is at a point where it takes a command or a frame. -/
def writerReady (s : RecoveryRole) : Bool := (w.ep s).writing.isNone

def step : Event → Option World
  | .dial => some { w.announce w.dialed .client with dialed := w.dialed + 1 }
  | .respond t =>
    if ((w.transport t).point .client).isSome ∧ (w.transport t).point .server = none then
      some (w.announce t .server)
    else none
  | .attach s t =>
    match (w.transport t).point s, (w.transport t).point s.peer with
    | some _, some resumeSeq =>
      if (w.transport t).attached s then none
      else
        let w' := w.setTransport t { w.transport t with
          attached := Function.update (w.transport t).attached s true }
        some (w'.setEp s { w.ep s with
          recovery := w.resumedRecovery s
          writerCmd := (w.ep s).writerCmd ++ [.attach t resumeSeq] })
    | _, _ => none
  | .spawnReader s t =>
    if (w.lane t s).reader = .unspawned ∧ (w.transport t).attached s then
      some (w.setLane t s { w.lane t s with reader := .starting })
    else none
  | .detach s t =>
    if (w.transport t).attached s then
      some (w.setEp s { w.ep s with writerCmd := (w.ep s).writerCmd ++ [.detach t] })
    else none
  | .send s frame => some (w.setEp s { w.ep s with outbound := (w.ep s).outbound ++ [frame] })
  | .apply s =>
    match (w.ep s).writerCmd with
    | cmd :: rest =>
      if w.writerReady s then some (w.setEp s ({ w.ep s with writerCmd := rest }.apply cmd)) else none
    | [] => none
  | .takeAck s now =>
    if w.writerReady s ∧ (w.ep s).writer.isSome then some (w.setEp s ((w.ep s).takeAck now)) else none
  | .writeNext s =>
    if w.writerReady s ∧ (w.ep s).writer.isSome then (w.ep s).writeNext.map (w.setEp s) else none
  | .writePing s =>
    if w.writerReady s ∧ (w.ep s).writer.isSome then
      some (w.setEp s { w.ep s with writing := some .ping })
    else none
  | .stageDetached s =>
    if w.writerReady s ∧ (w.ep s).writer = none then (w.ep s).stageDetached.map (w.setEp s) else none
  | .writeDone s ok => w.writeDone s ok
  | .flushFail s =>
    if w.writerReady s then some (w.setEp s { w.ep s with writer := none }) else none
  | .startReader s t =>
    if (w.lane t s).reader = .starting then
      some (w.setLane t s { w.lane t s with reader := .reading (w.ep s).recovery.lastReceived })
    else none
  | .read s t now =>
    match (w.lane t s).reader, (w.lane t s).wire with
    | .reading lastRecvSeq, packet :: wire =>
      let (e, pc) := handlePacket (w.ep s) lastRecvSeq now packet
      some (w.readerGoesOn s t e wire pc)
    | _, _ => none
  | .accept s t =>
    match (w.lane t s).reader with
    | .accepting lastRecvSeq record =>
      some (w.readerGoesOn s t { w.ep s with accepted := (w.ep s).accepted ++ [record] }
        (w.lane t s).wire (.noting lastRecvSeq record))
    | _ => none
  | .note s t now =>
    match (w.lane t s).reader with
    | .noting _ record =>
      some (w.readerGoesOn s t
        { w.ep s with recovery := ((w.ep s).recovery.noteReceived now record.seq).2 }
        (w.lane t s).wire (.reading record.seq))
    | _ => none
  | .stop s t =>
    match (w.lane t s).reader with
    | .starting | .reading _ => some (w.setLane t s { w.lane t s with reader := .ended })
    | .accepting _ record =>
      some (w.readerGoesOn s t { w.ep s with cancelled := (w.ep s).cancelled ++ [record] }
        (w.lane t s).wire .ended)
    | _ => none
  | .breakTransport t keep =>
    some { w.setTransport t { w.transport t with broken := true } with
      lane := Function.update w.lane t fun s =>
        { w.lane t s with wire := (w.lane t s).wire.take (keep s) } }

end World

/-- The runs of a client and a server from the start of a connection. -/
def machine : Machine World Event where
  init w := ∃ negotiated headerLen maxReplayBytes, w = .initial negotiated headerLen maxReplayBytes
  step := World.step

/-! ### A first frame -/

/-- Endpoints that acknowledge every frame at once. -/
def eager : World := .initial ⟨1, 20000000⟩ 18 fun _ => 65536

theorem init_eager : machine.init eager := ⟨_, _, _, rfl⟩

/-- Both sides attach a transport that was dialed and answered, and start to read it. -/
def attachBoth (t : Nat) : List Event :=
  [.attach .server t, .spawnReader .server t, .apply .server, .startReader .server t,
    .attach .client t, .spawnReader .client t, .apply .client, .startReader .client t]

/-- The client sends a frame on its first transport. -/
def firstFrameRun : List Event :=
  .dial :: .respond 0 :: attachBoth 0 ++
    [.send .client ⟨0, 0, [1]⟩, .writeNext .client, .writeDone .client true]

/-- The first transport breaks with the frame on it, and the frame is replayed on the next. -/
def replayRun : List Event :=
  [.breakTransport 0 fun _ => 0, .stop .server 0, .stop .client 0, .dial, .respond 1] ++
    attachBoth 1 ++ [.writeNext .client, .writeDone .client true]

/-- The client sends a second frame. -/
def secondFrameRun : List Event :=
  [.send .client ⟨0, 0, [2]⟩, .writeNext .client, .writeDone .client true]

end AdaptiveMsg.Protocol
