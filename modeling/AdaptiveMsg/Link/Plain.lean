import AdaptiveMsg.Machine.Leads
import AdaptiveMsg.Wire.FrameStream

/-!
# Link — the frames of a v2 connection on their way

One direction of a v2 connection, from the outbound queue to `accept_frame` of the peer:
`spawn_plain_writer` with its `BufWriter`, the bytes in the transport, and `spawn_plain_reader` of
the other side.  Frames are written in batches into the buffer, the transport takes bytes from it in
any pieces as far as it has room, and the reader gets them in any pieces.

A task may fail or be aborted wherever it waits.  What ends a side and what `close` refuses is left
to the environment.
-/

namespace AdaptiveMsg.Link

/-! ### State -/

/-- An entry of the outbound queue: `Plain`, or the marker of `close`. -/
inductive OutboundFrame where
  | plain (streamId : UInt32) (flags : UInt8) (payload : List UInt8)
  | close
  deriving DecidableEq, Repr

/-- Where the writer task is. -/
inductive WriterPc where
  /-- In the select. -/
  | select
  /-- In the batch, with a frame in `next`. -/
  | next (frame : OutboundFrame)
  /-- In `write_frame_counted`, with the bytes it has yet to write. -/
  | writing (rest : List UInt8)
  /-- Before `try_recv`. -/
  | written
  | flushing
  /-- In `shutdown`. -/
  | shutting
  | done
  deriving DecidableEq, Repr

/-- Where the reader task is. -/
inductive ReaderPc where
  /-- In `read_frame`, with a part of the header. -/
  | header (got : List UInt8)
  /-- In `read_frame`, with the header and a part of the payload. -/
  | payload (streamId : UInt32) (seq : UInt64) (flags : UInt8) (len : Nat) (got : List UInt8)
  /-- In `accept_frame`. -/
  | accepting (frame : WireFrame)
  /-- The loop has ended: at a frame boundary, or with an error. -/
  | ended (result : Except Error Unit)
  | aborted
  deriving DecidableEq

/-- What a link is set up with: the outbound queue and the transport have room for so much. -/
structure Params where
  config : ConnConfig
  capacity : Nat
  room : Nat
  room_pos : 0 < room

structure World where
  outbound : List OutboundFrame
  /-- The `Attach` command is queued. -/
  attach : Bool
  /-- The writer has its transport. -/
  writer : Bool
  pc : WriterPc
  /-- What the `BufWriter` holds. -/
  buffer : List UInt8
  /-- What the transport holds, the reader's own buffer included. -/
  pipe : List UInt8
  /-- The writer's half of the transport is shut down or dropped. -/
  ended : Bool
  closed : Bool
  /-- What `close` was told. -/
  reported : Option Bool
  reader : ReaderPc
  /-- What was queued, in order (this and the rest is no state of the program). -/
  queued : List OutboundFrame
  /-- What left the outbound queue, in order. -/
  taken : List OutboundFrame
  /-- The frames handed to `accept_frame`, in order. -/
  handed : List WireFrame
  deriving DecidableEq

inductive Event where
  /-- `send_boxed` queues a message that `encode_message` has accepted. -/
  | send (streamId : UInt32) (payload : List UInt8)
  | sendFin (streamId : UInt32)
  | queueClose
  /-- Another task runs `mark_closed`. -/
  | markClosed
  | abort
  /-- The arms of the writer's select. -/
  | closedNotify
  | command
  | recv
  /-- The writer goes on. -/
  | goOn
  /-- The `BufWriter` takes `n` bytes of the frame, and the transport `n` bytes of the buffer. -/
  | buffer (n : Nat)
  | spill (n : Nat)
  | writeFails
  /-- The reader gets `n` bytes, or the end of the stream. -/
  | read (n : Nat)
  | eof
  | readFails
  /-- `accept_frame` returns. -/
  | accepted (ok : Bool)
  | readerAborted
  deriving DecidableEq, Repr

/-! ### Steps -/

/-- The frame that `write_plain_frame_no_flush` writes. -/
def plainFrame (streamId : UInt32) (flags : UInt8) (payload : List UInt8) : WireFrame :=
  ⟨streamId, 0, flags, payload⟩

/-- The reader, once it has all of the payload. -/
def payloadPc (streamId : UInt32) (seq : UInt64) (flags : UInt8) (len : Nat) (got : List UInt8) :
    ReaderPc :=
  if got.length < len then .payload streamId seq flags len got
  else .accepting ⟨streamId, seq, flags, got⟩

/-- The reader, once it has the header. -/
def headerPc (config : ConnConfig) (header : List UInt8) : ReaderPc :=
  if header.length < config.headerLen then .header header
  else
    match parseHeader header config.version with
    | .error err => .ended (.error err)
    | .ok (streamId, seq, flags, payloadLen) =>
      if UInt32.ofNat payloadLen > config.maxFrame then
        .ended (.error (.frameTooLarge payloadLen))
      else payloadPc streamId seq flags payloadLen []

namespace World

variable (p : Params) (w : World)

def queue (frame : OutboundFrame) : Option World :=
  if w.outbound.length < p.capacity ∧ w.pc ≠ .done then
    some { w with outbound := w.outbound ++ [frame], queued := w.queued ++ [frame] }
  else none

/-- The writer task ends, and with it its half of the transport. -/
def finish : World := { w with pc := .done, writer := false, buffer := [], ended := true }

/-- The head of the outbound queue becomes `next`. -/
def take (head : OutboundFrame) (rest : List OutboundFrame) : World :=
  { w with outbound := rest, taken := w.taken ++ [head], pc := .next head }

def goOn : Option World :=
  match w.pc with
  | .next .close => some { w with pc := .shutting }
  | .next (.plain streamId flags payload) =>
    match p.config.writeFrame (plainFrame streamId flags payload) with
    | .ok bytes => some { w with pc := .writing bytes }
    | .error _ => some { w.finish with closed := true }
  | .writing [] => some { w with pc := .written }
  | .written =>
    match w.outbound with
    | head :: rest => some (w.take head rest)
    | [] => some { w with pc := .flushing }
  | .flushing => if w.buffer = [] then some { w with pc := .select } else none
  | .shutting => if w.buffer = [] then some { w.finish with reported := some true } else none
  | _ => none

def writeFails : Option World :=
  match w.pc with
  | .writing _ | .flushing => some { w.finish with closed := true }
  | .shutting => some { w.finish with reported := some false }
  | _ => none

/-- `write_all` into the buffer. -/
def fill (n : Nat) : Option World :=
  match w.pc with
  | .writing rest =>
    if 0 < n ∧ n ≤ rest.length then
      some { w with pc := .writing (rest.drop n), buffer := w.buffer ++ rest.take n }
    else none
  | _ => none

/-- The writer polls its transport only while it writes, flushes or shuts down. -/
def polls : Bool :=
  match w.pc with
  | .writing _ | .flushing | .shutting => true
  | _ => false

def spill (n : Nat) : Option World :=
  if w.polls ∧ 0 < n ∧ n ≤ w.buffer.length ∧ w.pipe.length + n ≤ p.room then
    some { w with buffer := w.buffer.drop n, pipe := w.pipe ++ w.buffer.take n }
  else none

/-- The reader moves on; a frame is handed to `accept_frame`. -/
def moveReader (pc : ReaderPc) : World :=
  match pc with
  | .accepting frame => { w with reader := pc, handed := w.handed ++ [frame] }
  | _ => { w with reader := pc }

def read (n : Nat) : Option World :=
  match w.reader with
  | .header got =>
    if 0 < n ∧ n ≤ w.pipe.length ∧ n ≤ p.config.headerLen - got.length then
      some ({ w with pipe := w.pipe.drop n }.moveReader (headerPc p.config (got ++ w.pipe.take n)))
    else none
  | .payload streamId seq flags len got =>
    if 0 < n ∧ n ≤ w.pipe.length ∧ n ≤ len - got.length then
      some ({ w with pipe := w.pipe.drop n }.moveReader
        (payloadPc streamId seq flags len (got ++ w.pipe.take n)))
    else none
  | _ => none

def eof : Option World :=
  if w.pipe = [] ∧ w.ended = true then
    match w.reader with
    | .header [] => some { w with reader := .ended (.ok ()) }
    | .header _ | .payload .. => some { w with reader := .ended (.error (.io .unexpectedEof)) }
    | _ => none
  else none

def readFails : Option World :=
  match w.reader with
  | .header _ | .payload .. => some { w with reader := .ended (.error (.io .other)) }
  | _ => none

def accepted (ok : Bool) : Option World :=
  match w.reader with
  | .accepting _ =>
    some { w with reader := if ok then .header [] else .ended (.error .closed) }
  | _ => none

def readerAborted : Option World :=
  match w.reader with
  | .ended _ => none
  | _ => some { w with reader := .aborted }

def step : Event → Option World
  | .send streamId payload =>
    if payload.length ≤ p.config.maxFrame.toNat then w.queue p (.plain streamId 0 payload) else none
  | .sendFin streamId => w.queue p (.plain streamId frameFlagFin [])
  | .queueClose => w.queue p .close
  | .markClosed => some { w with closed := true }
  | .abort => if w.closed ∧ w.pc ≠ .done then some w.finish else none
  | .closedNotify => if w.closed ∧ w.pc = .select then some w.finish else none
  | .command =>
    if w.attach ∧ w.pc = .select then some { w with attach := false, writer := true } else none
  | .recv =>
    match w.pc, w.writer, w.outbound with
    | .select, true, head :: rest => some (w.take head rest)
    | _, _, _ => none
  | .goOn => w.goOn p
  | .buffer n => w.fill n
  | .spill n => w.spill p n
  | .writeFails => w.writeFails
  | .read n => w.read p n
  | .eof => w.eof
  | .readFails => w.readFails
  | .accepted ok => w.accepted ok
  | .readerAborted => w.readerAborted

/-- A link whose transport was just attached. -/
def initial : World where
  outbound := []
  attach := true
  writer := false
  pc := .select
  buffer := []
  pipe := []
  ended := false
  closed := false
  reported := none
  reader := .header []
  queued := []
  taken := []
  handed := []

end World

def machine (p : Params) : Machine World Event := ⟨(· = .initial), World.step p⟩

end AdaptiveMsg.Link
