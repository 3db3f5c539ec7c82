import AdaptiveMsg.Protocol.Model
import AdaptiveMsg.Streams.Model

/-!
# Backpressure — two endpoints with bounded queues

The endpoints of `Protocol.World` with what stands between them and the application: on each side
the channel to the writer, and for each stream the `incoming`, handler and inbox queues, each of
any positive capacity, with the decode task, the handler task and the task that receives on it.
Other tasks only send.

A reader inside `accept_frame` waits while the `incoming` queue of the stream is full, the decode
task while the handler queue or the inbox is, and a send until the writer has its frame in the
replay buffer.  The application decides what it sends and when it opens and closes streams; the
codec and the registry decide where a payload goes (`Config.dispatch`).
-/

namespace AdaptiveMsg.Backpressure

open Streams (defaultStreamId controlStreamId)

/-! ### State -/

/-- What becomes of a payload that the decode task takes. -/
inductive Dispatch where
  | handler
  | inbox
  | badEnvelope
  /-- There is a handler, for a message that the body does not decode to. -/
  | badMessage
  deriving DecidableEq, Repr

/-- The queue sizes of the streams of a side, and what it makes of payloads. -/
structure Config where
  incoming : Nat → Nat
  handlerQ : Nat → Nat
  inbox : Nat → Nat
  dispatch : List UInt8 → Dispatch
  /-- The `ErrorReply` that a payload which does not decode is answered with. -/
  errorReply : List UInt8 → List UInt8
  positive : ∀ i, 0 < incoming i ∧ 0 < handlerQ i ∧ 0 < inbox i

/-- `STREAM_QUEUE_SIZE`, the size of the channel to the writer. -/
def outboundSize : Nat := 1024

/-- A task inside a send. -/
inductive Sending where
  /-- Waiting for the `send_lock` of the stream. -/
  | locking (frame : Frame)
  /-- Holding the lock, and waiting for room in the channel to the writer. -/
  | queuing (frame : Frame)
  /-- Waiting for the outcome, as the frame queued at this place. -/
  | queued (streamId place : Nat)
  deriving DecidableEq, Repr

/-- A task of the application, or a handler task. -/
inductive TaskPc where
  /-- Ready to take its next message, or to send the next. -/
  | ready
  | running
  /-- It is ready again after a `reply`, and goes on running after another send. -/
  | sending (send : Sending) (reply : Bool)
  deriving DecidableEq, Repr

inductive DecodePc where
  | receiving
  /-- In `handler_q`, or in `inbox_q`. -/
  | handing (inbox : Bool) (payload : List UInt8)
  /-- In `protocol_error`, sending the `ErrorReply` or then the FIN. -/
  | failing (dispatch : Dispatch) (send : Sending) (fin : Bool)
  | ended
  deriving DecidableEq, Repr

structure Stream where
  /-- Opened by `new_stream` on this side. -/
  opened : Bool
  finStarted : Bool
  /-- Closed, and no longer registered. -/
  closed : Bool
  incoming : List (List UInt8)
  handlerQ : List (List UInt8)
  inbox : List (List UInt8)
  /-- A send holds the `send_lock`. -/
  sendLocked : Bool
  decode : DecodePc
  handler : TaskPc
  /-- The handler task has ended. -/
  handlerEnded : Bool
  /-- The task that receives on the stream. -/
  recvLoop : TaskPc
  deriving DecidableEq, Repr

/-- Where a reader inside `accept_frame` is. -/
inductive AcceptPc where
  | lookup
  | queuePayload
  | queueFin
  deriving DecidableEq, Repr

structure App where
  streams : List (Nat × Stream)
  /-- The tasks that only send. -/
  senders : List TaskPc
  /-- Where the readers inside `accept_frame` are, by their transports. -/
  accepting : List (Nat × AcceptPc)
  /-- How many frames sends have queued. -/
  queued : Nat
  deriving DecidableEq, Repr

structure World where
  net : Protocol.World
  app : RecoveryRole → App

/-! ### Streams and tasks -/

def Stream.new (opened : Bool) : Stream :=
  ⟨opened, false, false, [], [], [], false, .receiving, .ready, false, .ready⟩

inductive Owner where
  | handler (streamId : Nat)
  | recvLoop (streamId : Nat)
  | sender (k : Nat)
  deriving DecidableEq, Repr

namespace App

variable (a : App)

def stream? (i : Nat) : Option Stream := a.streams.lookup i

def setStream (i : Nat) (st : Stream) : App :=
  { a with streams := a.streams.map fun e => if e.1 = i then (i, st) else e }

/-- The send on the stream is over. -/
def unlock (i : Nat) : App :=
  match a.stream? i with
  | some st => a.setStream i { st with sendLocked := false }
  | none => a

/-- `make_stream`. -/
def makeStream (i : Nat) (opened : Bool) : App :=
  { a with streams := (i, .new opened) :: a.streams }

def acceptPc (t : Nat) : AcceptPc := (a.accepting.lookup t).getD .lookup

def setAcceptPc (t : Nat) (pc : AcceptPc) : App := { a with accepting := (t, pc) :: a.accepting }

def pc? : Owner → Option TaskPc
  | .handler i => (a.stream? i).map Stream.handler
  | .recvLoop i => (a.stream? i).map Stream.recvLoop
  | .sender k => a.senders[k]?

def setPc (pc : TaskPc) : Owner → Option App
  | .handler i => (a.stream? i).map fun st => a.setStream i { st with handler := pc }
  | .recvLoop i => (a.stream? i).map fun st => a.setStream i { st with recvLoop := pc }
  | .sender k => a.senders[k]?.map fun _ => { a with senders := a.senders.set k pc }

end App

namespace World

variable (w : World)

def setApp (s : RecoveryRole) (a : App) : World := { w with app := Function.update w.app s a }

/-- How many of the frames queued the writer has not got into the replay buffer. -/
def pending (s : RecoveryRole) : Nat :=
  (w.net.ep s).outbound.length + (w.net.ep s).held.toList.length

/-- The frame queued at `place` is still in the channel, or held. -/
def Outstanding (s : RecoveryRole) (place : Nat) : Prop :=
  place ≤ (w.app s).queued ∧ (w.app s).queued < place + w.pending s

instance (s : RecoveryRole) (place : Nat) : Decidable (w.Outstanding s place) :=
  inferInstanceAs (Decidable (_ ∧ _))

end World

/-! ### `accept_frame` -/

def isFin (frame : Frame) : Bool :=
  frame.flags % 2 = 1 ∧ frame.streamId ≠ defaultStreamId ∧ frame.streamId ≠ controlStreamId

/-- The next operation of the reader of transport `t`, and whether `accept_frame` is then over; none
while it waits for room. -/
def acceptStep (config : Config) (a : App) (t : Nat) (frame : Frame) : Option (App × Bool) :=
  match a.acceptPc t, a.stream? frame.streamId with
  | .lookup, none =>
    if isFin frame ∧ frame.payload = [] then some (a, true)
    else some (a.makeStream frame.streamId false, false)
  | .lookup, some st =>
    -- The default stream stays registered.
    if st.closed ∧ frame.streamId ≠ defaultStreamId then some (a, true)
    else if frame.payload ≠ [] then some (a.setAcceptPc t .queuePayload, false)
    else if isFin frame then some (a.setAcceptPc t .queueFin, false)
    else some (a, true)
  | .queuePayload, some st =>
    -- The decode task drops the receiver when it ends.
    if st.decode = .ended then some (a.setAcceptPc t .lookup, true)
    else if st.incoming.length < config.incoming frame.streamId then
      let a := a.setStream frame.streamId { st with incoming := st.incoming ++ [frame.payload] }
      if isFin frame then some (a.setAcceptPc t .queueFin, false) else some (a.setAcceptPc t .lookup, true)
    else none
  | .queueFin, some st =>
    if st.decode = .ended then some (a.setAcceptPc t .lookup, true)
    else if st.incoming.length < config.incoming frame.streamId then
      some ((a.setStream frame.streamId { st with incoming := st.incoming ++ [[]] }).setAcceptPc t .lookup,
        true)
    else none
  -- A stream that was found is not forgotten.
  | .queuePayload, none | .queueFin, none => some (a.setAcceptPc t .lookup, true)

/-! ### Sends -/

/-- The next operation of a send, and where it goes on; none while it waits. -/
def sendStep (w : World) (s : RecoveryRole) : Sending → Option (World × Option Sending)
  | .locking frame =>
    match (w.app s).stream? frame.streamId with
    | some st =>
      if st.sendLocked then none
      -- `send_fin` goes ahead on a stream that is closing.
      else if !isFin frame ∧ (st.finStarted ∨ st.closed) then some (w, none)
      else some (w.setApp s ((w.app s).setStream frame.streamId { st with sendLocked := true }),
        some (.queuing frame))
    | none => some (w, none)
  | .queuing frame =>
    if (w.net.ep s).outbound.length < outboundSize then
      let place := (w.app s).queued + 1
      (w.net.step (.send s frame)).map fun net =>
        (World.setApp ⟨net, w.app⟩ s { w.app s with queued := place },
          some (.queued frame.streamId place))
    else none
  | .queued i place =>
    if w.Outstanding s place then none else some (w.setApp s ((w.app s).unlock i), none)

/-! ### The decode task -/

/-- `protocol_error` closes the stream; the task ends if it could not decode the envelope. -/
def Stream.failed (st : Stream) (dispatch : Dispatch) : Stream :=
  { st with closed := true, decode := if dispatch = .badEnvelope then .ended else .receiving }

def decodeStep (config : Config) (w : World) (s : RecoveryRole) (i : Nat) : Option World :=
  match (w.app s).stream? i with
  | none => none
  | some st =>
    let set := fun st => w.setApp s ((w.app s).setStream i st)
    match st.decode with
    | .receiving =>
      match st.incoming with
      | [] => none
      | payload :: rest =>
        if payload = [] then some (set { st with incoming := rest, closed := true, decode := .ended })
        else
          let st := { st with incoming := rest }
          match config.dispatch payload with
          | .handler => some (set { st with decode := .handing false payload })
          | .inbox => some (set { st with decode := .handing true payload })
          | dispatch =>
            some (set { st with
              decode := .failing dispatch (.locking ⟨i, 0, config.errorReply payload⟩) false })
    | .handing inbox payload =>
      let st := { st with decode := .receiving }
      if st.closed then some (set st)
      else if inbox then
        if st.inbox.length < config.inbox i then some (set { st with inbox := st.inbox ++ [payload] })
        else none
      else if st.handlerEnded then some (set st)
      else if st.handlerQ.length < config.handlerQ i then
        some (set { st with handlerQ := st.handlerQ ++ [payload] })
      else none
    | .failing dispatch send fin =>
      match sendStep w s send with
      | some (w, some send) =>
        ((w.app s).stream? i).map fun st =>
          w.setApp s ((w.app s).setStream i { st with decode := .failing dispatch send fin })
      | some (w, none) =>
        ((w.app s).stream? i).map fun st =>
          w.setApp s ((w.app s).setStream i
            (if st.opened ∧ !fin ∧ !st.finStarted then
              { st with finStarted := true, decode := .failing dispatch (.locking ⟨i, 1, []⟩) true }
            else st.failed dispatch))
      | none => none
    | .ended => none

/-- The decode task sees that the stream is closed. -/
def decodeEnds (w : World) (s : RecoveryRole) (i : Nat) : Option World :=
  match (w.app s).stream? i with
  | some st =>
    if st.closed ∧ st.decode = .receiving then
      some (w.setApp s ((w.app s).setStream i { st with decode := .ended }))
    else none
  | none => none

/-! ### The tasks -/

/-- What a task does next. -/
inductive Act where
  /-- It takes its next message, or sees that the stream is closed. -/
  | take
  | send (frame : Frame)
  /-- A handler has finished, and its reply is sent. -/
  | reply (payload : List UInt8)
  | receive
  /-- The next operation of the send that it is in. -/
  | advance
  deriving DecidableEq, Repr

def takeStep (a : App) : Owner → Option App
  | .handler i =>
    match a.stream? i with
    | some st =>
      match st.handlerQ with
      | _ :: rest => some (a.setStream i { st with handlerQ := rest, handler := .running })
      | [] =>
        if st.closed ∧ !st.handlerEnded then some (a.setStream i { st with handlerEnded := true })
        else none
    | none => none
  | .recvLoop i =>
    match a.stream? i with
    | some st =>
      match st.inbox with
      | _ :: rest => some (a.setStream i { st with inbox := rest, recvLoop := .running })
      | [] => if st.closed then some (a.setStream i { st with recvLoop := .running }) else none
    | none => none
  | .sender _ => none

def taskStep (w : World) (s : RecoveryRole) (o : Owner) (act : Act) : Option World :=
  match (w.app s).pc? o, act with
  | some .ready, .take => (takeStep (w.app s) o).map (w.setApp s)
  | some .ready, .send frame =>
    match o with
    | .sender _ => ((w.app s).setPc (.sending (.locking frame) true) o).map (w.setApp s)
    | .handler _ | .recvLoop _ => none
  | some .running, .send frame =>
    ((w.app s).setPc (.sending (.locking frame) false) o).map (w.setApp s)
  | some .running, .reply payload =>
    match o with
    | .handler i => ((w.app s).setPc (.sending (.locking ⟨i, 0, payload⟩) true) o).map (w.setApp s)
    | .recvLoop _ | .sender _ => none
  | some .running, .receive =>
    match o with
    | .recvLoop _ => ((w.app s).setPc .ready o).map (w.setApp s)
    | .handler _ | .sender _ => none
  | some (.sending send reply), .advance =>
    match sendStep w s send with
    | some (w, some send) => ((w.app s).setPc (.sending send reply) o).map (w.setApp s)
    | some (w, none) => ((w.app s).setPc (if reply then .ready else .running) o).map (w.setApp s)
    | none => none
  | _, _ => none

/-! ### Steps -/

inductive Event where
  /-- Whatever does not pass through a queue of the application. -/
  | net (e : Protocol.Event)
  /-- The reader of `s` on a transport goes on inside `accept_frame`. -/
  | accept (s : RecoveryRole) (t : Nat)
  | decode (s : RecoveryRole) (i : Nat)
  | decodeEnds (s : RecoveryRole) (i : Nat)
  | task (s : RecoveryRole) (o : Owner) (act : Act)
  | spawnSender (s : RecoveryRole)
  | newStream (s : RecoveryRole) (i : Nat)
  /-- `close` sets `fin_started`; the FIN is sent by a task. -/
  | startFin (s : RecoveryRole) (i : Nat)
  /-- The stream is removed and closed. -/
  | remove (s : RecoveryRole) (i : Nat)

/-- The sends and the calls of `accept_frame` pass through the queues. -/
def queues : Protocol.Event → Bool
  | .send _ _ | .accept _ _ => true
  | _ => false

def step (config : RecoveryRole → Config) (w : World) : Event → Option World
  | .net e => if queues e then none else (w.net.step e).map fun net => ⟨net, w.app⟩
  | .accept s t =>
    match (w.net.lane t s).reader with
    | .accepting _ record =>
      match acceptStep (config s) (w.app s) t record.frame with
      | some (a, true) => (w.net.step (.accept s t)).map fun net => World.setApp ⟨net, w.app⟩ s a
      | some (a, false) => some (w.setApp s a)
      | none => none
    | _ => none
  | .decode s i => decodeStep (config s) w s i
  | .decodeEnds s i => decodeEnds w s i
  | .task s o act => taskStep w s o act
  | .spawnSender s => some (w.setApp s { w.app s with senders := (w.app s).senders ++ [.ready] })
  | .newStream s i =>
    if ((w.app s).stream? i).isNone then some (w.setApp s ((w.app s).makeStream i true)) else none
  | .startFin s i =>
    ((w.app s).stream? i).map fun st =>
      w.setApp s ((w.app s).setStream i { st with finStarted := true })
  | .remove s i =>
    ((w.app s).stream? i).map fun st => w.setApp s ((w.app s).setStream i { st with closed := true })

def App.initial : App := ⟨[], [], [], 0⟩

/-- The runs of two endpoints whose sides have the given queues, registries and codecs. -/
def machine (config : RecoveryRole → Config) : Machine World Event where
  init w := Protocol.machine.init w.net ∧ w.app = fun _ => .initial
  step := step config

end AdaptiveMsg.Backpressure
