import AdaptiveMsg.Machine.Run
import AdaptiveMsg.Recovery
import Mathlib.Logic.Function.Basic

/-!
# Close — two endpoints and their calls of `close`

Both sides of a v2 or v3 connection over one transport that does not break: the outbound queue, the
writer with its buffer, what is in flight, the reader, and the calls of `close` and `close_by_peer`.
In v3 a send returns Ok once the writer has staged its frame, in v2 once the frame is queued; a v3
writer may refuse a frame, and holds one for as long as the environment does not let it move.

No `CLOSE_FLUSH_TIMEOUT` expires.  In v3 an EOF without a CLOSE is a broken transport to a side that
is not closing, so such a side does not read it.
-/

namespace AdaptiveMsg.Close

/-! ### State -/

/-- An entry of the outbound queue. -/
inductive OutboundFrame where
  | data (frame : Frame)
  | close
  deriving DecidableEq, Repr

/-- What a reader gets; `close` is the control frame of v3. -/
inductive Inbound where
  | data (frame : Frame)
  | close
  | eof
  deriving DecidableEq, Repr

inductive WriterPc where
  | running
  /-- It has shut its side of the transport down. -/
  | shut
  | aborted
  deriving DecidableEq, Repr

inductive ReaderPc where
  | reading
  /-- Inside `accept_frame`. -/
  | accepting
  /-- Inside `close_by_peer`, delivering what was received. -/
  | delivering
  | ended
  deriving DecidableEq, Repr

/-- The call of `close` that set `closing`. -/
inductive CloserPc where
  | none
  /-- Inside `close_gracefully`, queueing the close marker. -/
  | sending
  | waiting
  | done
  deriving DecidableEq, Repr

structure Endpoint where
  /-- The frames of sends that have found `closing` unset. -/
  sending : List Frame
  outbound : List OutboundFrame
  /-- What the writer has written and not flushed. -/
  buffer : List Frame
  writer : WriterPc
  /-- What is in flight to this side. -/
  inbound : List Inbound
  reader : ReaderPc
  closing : Bool
  closed : Bool
  closer : CloserPc
  /-- The calls of `close` that found `closing` set and are about to run `mark_closed`. -/
  impatient : Nat
  /-- The frames whose send returned Ok, in order (not part of the program's state). -/
  sent : List Frame
  /-- The frames handed to `accept_frame`, in order (not part of the program's state). -/
  handed : List Frame
  /-- How many sends had returned Ok when `close` began on the open connection (not part of the
  program's state). -/
  began : Option Nat
  deriving DecidableEq

structure World where
  v3 : Bool
  ep : RecoveryRole → Endpoint

inductive Event where
  /-- A send finds `closing` unset. -/
  | send (s : RecoveryRole) (frame : Frame)
  /-- The outbound queue takes the frame of a send. -/
  | push (s : RecoveryRole) (frame : Frame)
  /-- The writer takes the head of the outbound queue; a v3 writer may refuse a frame. -/
  | write (s : RecoveryRole) (ok : Bool)
  | flush (s : RecoveryRole)
  /-- A call of `close` begins. -/
  | close (s : RecoveryRole)
  /-- `close_gracefully` queues the close marker. -/
  | sendClose (s : RecoveryRole)
  /-- `close_gracefully` ends. -/
  | closeEnds (s : RecoveryRole)
  /-- A call of `close` that found `closing` set goes on. -/
  | closeAtOnce (s : RecoveryRole)
  | read (s : RecoveryRole)
  /-- `accept_frame` returns. -/
  | accepted (s : RecoveryRole)
  /-- `close_by_peer` has delivered what was received. -/
  | delivered (s : RecoveryRole)
  deriving DecidableEq, Repr

/-! ### Steps -/

def Endpoint.new : Endpoint where
  sending := []
  outbound := []
  buffer := []
  writer := .running
  inbound := []
  reader := .reading
  closing := false
  closed := false
  closer := .none
  impatient := 0
  sent := []
  handed := []
  began := none

namespace World

def initial (v3 : Bool) : World := ⟨v3, fun _ => .new⟩

variable (w : World)

def setEp (s : RecoveryRole) (e : Endpoint) : World := { w with ep := Function.update w.ep s e }

section update

variable {w} {s : RecoveryRole} {e e' : Endpoint}

@[simp] theorem setEp_ep_self : (w.setEp s e).ep s = e := by simp [setEp]

@[simp] theorem setEp_ep_peer : (w.setEp s e).ep s.peer = w.ep s.peer := by simp [setEp]

@[simp] theorem setEp_self : w.setEp s (w.ep s) = w := by simp [setEp]

@[simp] theorem setEp_setEp : (w.setEp s e).setEp s e' = w.setEp s e' := by simp [setEp]

end update

/-- What `s` puts on the transport. -/
def transmit (s : RecoveryRole) (items : List Inbound) : World :=
  w.setEp s.peer { w.ep s.peer with inbound := (w.ep s.peer).inbound ++ items }

/-- `mark_closed`; the peer sees the transport end, unless the writer has shut it down before. -/
def markClosed (s : RecoveryRole) : World :=
  let e := w.ep s
  if e.closed then w
  else
    match e.writer with
    | .running =>
      (w.setEp s { e with closed := true, writer := .aborted, reader := .ended }).transmit s [.eof]
    | _ => w.setEp s { e with closed := true, reader := .ended }

def closeByPeer (s : RecoveryRole) : World :=
  if (w.ep s).closing then w.markClosed s
  else w.setEp s { w.ep s with closing := true, reader := .delivering }

/-- The writer shuts the transport down behind the frames written. -/
def shutdown (s : RecoveryRole) (rest : List OutboundFrame) : World :=
  (w.setEp s { w.ep s with outbound := rest, buffer := [], writer := .shut }).transmit s
    ((w.ep s).buffer.map .data ++ if w.v3 then [.close, .eof] else [.eof])

/-- The writer takes a frame. -/
def writeData (s : RecoveryRole) (frame : Frame) (rest : List OutboundFrame) (ok : Bool) : World :=
  let e := w.ep s
  if w.v3 then
    if ok then
      w.setEp s { e with outbound := rest, buffer := e.buffer ++ [frame], sent := e.sent ++ [frame] }
    else w.setEp s { e with outbound := rest }
  else w.setEp s { e with outbound := rest, buffer := e.buffer ++ [frame] }

/-- The first call of `close` goes on to `close_gracefully`, any other to `mark_closed`. -/
def close (s : RecoveryRole) : World :=
  let e := w.ep s
  if e.closing then
    w.setEp s { e with
      impatient := e.impatient + 1
      began := if e.closed then e.began else some (e.began.getD e.sent.length) }
  else w.setEp s { e with closing := true, closer := .sending, began := some e.sent.length }

def read (s : RecoveryRole) : Option World :=
  let e := w.ep s
  match e.reader, e.inbound with
  | .reading, .data frame :: rest =>
    some (w.setEp s { e with reader := .accepting, inbound := rest, handed := e.handed ++ [frame] })
  | .reading, .close :: rest => some ((w.setEp s { e with inbound := rest }).closeByPeer s)
  | .reading, .eof :: rest =>
    if w.v3 then
      if e.closing then some ((w.setEp s { e with inbound := rest }).markClosed s) else none
    else some ((w.setEp s { e with inbound := rest }).closeByPeer s)
  | _, _ => none

def step : Event → Option World
  | .send s frame =>
    let e := w.ep s
    if e.closing then none else some (w.setEp s { e with sending := e.sending ++ [frame] })
  | .push s frame =>
    let e := w.ep s
    if frame ∈ e.sending ∧ e.writer = .running then
      some (w.setEp s { e with
        sending := e.sending.erase frame
        outbound := e.outbound ++ [.data frame]
        sent := if w.v3 then e.sent else e.sent ++ [frame] })
    else none
  | .write s ok =>
    match (w.ep s).writer, (w.ep s).outbound with
    | .running, .data frame :: rest => some (w.writeData s frame rest ok)
    | .running, .close :: rest => some (w.shutdown s rest)
    | _, _ => none
  | .flush s =>
    let e := w.ep s
    if e.writer = .running then some ((w.setEp s { e with buffer := [] }).transmit s (e.buffer.map .data))
    else none
  | .close s => some (w.close s)
  | .sendClose s =>
    let e := w.ep s
    if e.closer = .sending ∧ e.writer = .running then
      some (w.setEp s { e with closer := .waiting, outbound := e.outbound ++ [.close] })
    else none
  | .closeEnds s =>
    let e := w.ep s
    if e.closed ∧ e.closer ≠ .none then some (w.setEp s { e with closer := .done }) else none
  | .closeAtOnce s =>
    let e := w.ep s
    if 0 < e.impatient then
      some ((w.setEp s { e with impatient := e.impatient - 1 }).markClosed s)
    else none
  | .read s => w.read s
  | .accepted s =>
    let e := w.ep s
    if e.reader = .accepting then some (w.setEp s { e with reader := .reading }) else none
  | .delivered s => if (w.ep s).reader = .delivering then some (w.markClosed s) else none

end World

def machine : Machine World Event where
  init w := ∃ v3, w = .initial v3
  step := World.step

end AdaptiveMsg.Close
