import AdaptiveMsg.Machine.Run
import AdaptiveMsg.Machine.Pool

/-!
# Streams — registration, release and the callbacks

The streams of one connection, one lock section or callback a step: the calls of `accept_frame`, of
`default_stream` and of `new_stream` that look a stream up or register it, the decode task of each
stream, and the five ways to release one: the peer's FIN, `Stream::close`, `protocol_error` from the
decode task and from `recv`, and `mark_closed`.

A stream is named by the number of its Context, in the order of registration, since the peer may use
a stream ID again.  The environment makes the calls, and decides whether a message decodes.  What a
call only waits for, such as room in a queue or a reply to be sent, is no step of its own.
-/

namespace AdaptiveMsg.Streams

open Machine.Pool (Program Event)

/-! ### The shared state -/

/-- What the reader has queued for the decode task of a stream. -/
inductive Incoming where
  | message
  /-- The FIN marker, an empty payload. -/
  | fin
  deriving DecidableEq, Repr

structure StreamInner where
  id : Nat
  incoming : List Incoming
  finStarted : Bool
  closed : Bool
  deriving DecidableEq, Repr

/-- A call of `on_new_stream` or `on_close_stream`. -/
inductive Callback where
  | onNewStream (ctx : Nat)
  | onCloseStream (ctx : Nat)
  deriving DecidableEq, Repr

structure Shared where
  /-- The streams made, by their Contexts. -/
  streams : List StreamInner
  /-- The stream IDs registered, with their Contexts. -/
  streamContexts : List (Nat × Nat)
  defaultStream : Option Nat
  closedPeerStreams : List Nat
  nextStreamId : Nat
  closed : Bool
  /-- The callbacks called, in order (not part of the program's state). -/
  callbacks : List Callback
  /-- The Contexts that `protocol_error` has removed (not part of the program's state). -/
  dropped : List Nat
  deriving DecidableEq, Repr

def defaultStreamId : Nat := 0

def controlStreamId : Nat := 0xFFFFFFFF

/-- The last ID that `new_stream` hands out. -/
def maxStreamId : Nat := controlStreamId - 1

/-! ### Control states -/

/-- The next operation of `get_stream_ctx`. -/
inductive GetPc where
  | lookup
  | make
  | onNewStream (ctx : Nat)
  | lookupAgain
  deriving DecidableEq, Repr

/-- The next operation of `accept_frame`. -/
inductive AcceptPc where
  /-- A FIN without a message. -/
  | unreserve
  | lookupFin
  /-- `inbound_stream`. -/
  | lookup
  | checkOpened
  | checkReserved
  | get (pc : GetPc)
  /-- The frame belongs to a stream that was closed here. -/
  | drop
  | sendMessage (ctx : Nat)
  | queueFin (ctx : Nat)
  deriving DecidableEq, Repr

/-- The next operation of `protocol_error`, once its reply is sent. -/
inductive ErrorPc where
  | checkOpened
  | checkRegistered
  | reserve
  | swapFin
  | remove
  deriving DecidableEq, Repr

/-- Where the decode task of a stream is. -/
inductive DecodePc where
  | receiving
  /-- At the FIN. -/
  | remove
  | notify (ctx : Nat)
  /-- In `protocol_error`; for an envelope that does not decode the task ends after it. -/
  | failing (ends : Bool) (pc : ErrorPc)
  deriving DecidableEq, Repr

/-- The next operation of `Stream::close`, with the task that it spawns. -/
inductive ClosePc where
  | checkOpened
  | checkRegistered
  | reserve
  | swapFin
  | remove
  | notify (ctx : Nat)
  deriving DecidableEq, Repr

/-- The next operation of `mark_closed`. -/
inductive MarkPc where
  | swap
  /-- `close_all_streams` takes the registered streams. -/
  | take
  | notify (ctxs : List Nat)
  deriving DecidableEq, Repr

inductive Task where
  | accept (id : Nat) (message fin : Bool) (pc : AcceptPc)
  | defaultStream (pc : GetPc)
  /-- `new_stream` with the ID it took. -/
  | newStream (id : Option Nat)
  | decode (ctx : Nat) (pc : DecodePc)
  | close (ctx : Nat) (pc : ClosePc)
  /-- `protocol_error` called by a receive. -/
  | recvError (ctx : Nat) (pc : ErrorPc)
  | markClosed (pc : MarkPc)
  | done
  deriving DecidableEq, Repr

/-- What the environment decides about a step. -/
inductive Act where
  | go
  /-- The message does not decode; `ends` if not even its envelope does. -/
  | fail (ends : Bool)
  /-- The decode task sees its stream closed. -/
  | seeClosed
  deriving DecidableEq, Repr

/-! ### Operations -/

namespace Shared

variable (s : Shared)

/-- `lookup_stream_ctx`. -/
def lookupStreamCtx (id : Nat) : Option Nat :=
  if id = defaultStreamId then s.defaultStream.or (s.streamContexts.lookup id)
  else s.streamContexts.lookup id

/-- `make_stream`, under its lock. -/
def makeStream (id : Nat) : Option Shared :=
  if s.closed ∨ (s.streamContexts.lookup id).isSome then none
  else
    some { s with
      streams := s.streams ++ [⟨id, [], false, false⟩]
      streamContexts := s.streamContexts ++ [(id, s.streams.length)]
      defaultStream := if id = defaultStreamId then some s.streams.length else s.defaultStream }

def modify (ctx : Nat) (f : StreamInner → StreamInner) : Shared :=
  { s with streams := s.streams.modify ctx f }

/-- The removal of `remove_stream`. -/
def removeStream (id : Nat) : Option Nat × Shared :=
  match s.streamContexts.lookup id with
  | none => (none, s)
  | some ctx =>
    (some ctx, { s.modify ctx fun stream => { stream with closed := true } with
      streamContexts := s.streamContexts.eraseP fun e => id == e.1 })

/-- Whether `remove_peer_stream` reserves the ID. -/
def reserves (id : Nat) : Bool := id ≠ defaultStreamId ∧ (s.streamContexts.lookup id).isSome

def reserve (id : Nat) : Shared :=
  { s with closedPeerStreams := id :: s.closedPeerStreams.erase id }

def unreserve (id : Nat) : Shared := { s with closedPeerStreams := s.closedPeerStreams.erase id }

def openedStream (id : Nat) : Bool := id ≠ defaultStreamId ∧ id < s.nextStreamId

def call (callback : Callback) : Shared := { s with callbacks := s.callbacks ++ [callback] }

def streamId (ctx : Nat) : Nat := (s.streams[ctx]?).elim controlStreamId StreamInner.id

/-- Whether `fin_started` was set before. -/
def finStarted (ctx : Nat) : Bool := (s.streams[ctx]?).any StreamInner.finStarted

end Shared

/-! ### Steps -/

/-- Where a call of `get_stream_ctx` goes on: at its next operation, or with its stream. -/
abbrev GetResult := GetPc ⊕ Option Nat

def getStreamCtx (s : Shared) (id : Nat) : GetPc → Shared × GetResult × List Task
  | .lookup =>
    match s.lookupStreamCtx id with
    | some ctx => (s, .inr (some ctx), [])
    | none => (s, .inl .make, [])
  | .make =>
    match s.makeStream id with
    | some s' => (s', .inl (.onNewStream s.streams.length), [.decode s.streams.length .receiving])
    | none => (s, .inl .lookupAgain, [])
  | .onNewStream ctx => (s.call (.onNewStream ctx), .inr (some ctx), [])
  -- Another task registered the stream first, or the connection closed.
  | .lookupAgain => (s, .inr (s.lookupStreamCtx id), [])

/-- `accept_frame` with its stream, or with one that was not registered. -/
def acceptWith (id : Nat) (message fin : Bool) : Option Nat → Task
  | none => .done
  | some ctx =>
    if message then .accept id message fin (.sendMessage ctx)
    else if fin then .accept id message fin (.queueFin ctx)
    else .done

def acceptStep (s : Shared) (id : Nat) (message fin : Bool) : AcceptPc → Shared × Task × List Task
  | .unreserve => (s.unreserve id, .accept id message fin .lookupFin, [])
  | .lookupFin => (s, acceptWith id message fin (s.lookupStreamCtx id), [])
  | .lookup =>
    match s.lookupStreamCtx id with
    | some ctx => (s, acceptWith id message fin (some ctx), [])
    | none => (s, .accept id message fin .checkOpened, [])
  | .checkOpened =>
    (s, .accept id message fin (if s.openedStream id then .drop else .checkReserved), [])
  | .checkReserved =>
    (s, .accept id message fin (if id ∈ s.closedPeerStreams then .drop else .get .lookup), [])
  | .get pc =>
    match getStreamCtx s id pc with
    | (s, .inl pc, tasks) => (s, .accept id message fin (.get pc), tasks)
    | (s, .inr ctx, tasks) => (s, acceptWith id message fin ctx, tasks)
  | .drop => (if fin then s.unreserve id else s, .done, [])
  | .sendMessage ctx =>
    (s.modify ctx fun stream => { stream with incoming := stream.incoming ++ [.message] },
      if fin then .accept id message fin (.queueFin ctx) else .done, [])
  | .queueFin ctx =>
    (s.modify ctx fun stream => { stream with incoming := stream.incoming ++ [.fin] }, .done, [])

/-- `protocol_error` does not call `on_close_stream`; none once it is done. -/
def errorStep (s : Shared) (ctx : Nat) : ErrorPc → Shared × Option ErrorPc
  | .checkOpened => (s, some (if s.openedStream (s.streamId ctx) then .swapFin else .checkRegistered))
  | .checkRegistered => (s, some (if s.reserves (s.streamId ctx) then .reserve else .remove))
  | .reserve => (s.reserve (s.streamId ctx), some .remove)
  | .swapFin => (s.modify ctx fun stream => { stream with finStarted := true }, some .remove)
  | .remove =>
    match s.removeStream (s.streamId ctx) with
    | (some removed, s) => ({ s with dropped := s.dropped ++ [removed] }, none)
    | (none, s) => (s, none)

def decodeStep (s : Shared) (ctx : Nat) : DecodePc → Act → Option (Shared × Task)
  | .receiving, .seeClosed =>
    if (s.streams[ctx]?).any StreamInner.closed then some (s, .done) else none
  | .receiving, a =>
    match s.streams[ctx]? with
    | some ⟨_, incoming :: rest, _, _⟩ =>
      let s := s.modify ctx fun stream => { stream with incoming := rest }
      match incoming, a with
      | .fin, .go => some (s, .decode ctx .remove)
      | .message, .go => some (s, .decode ctx .receiving)
      | .message, .fail ends => some (s, .decode ctx (.failing ends .checkOpened))
      | _, _ => none
    | _ => none
  | .remove, .go =>
    match s.removeStream (s.streamId ctx) with
    | (some removed, s) => some (s, .decode ctx (.notify removed))
    | (none, s) => some (s, .done)
  | .notify removed, .go => some (s.call (.onCloseStream removed), .done)
  | .failing ends pc, .go =>
    match errorStep s ctx pc with
    | (s, some pc) => some (s, .decode ctx (.failing ends pc))
    | (s, none) => some (s, if ends then .done else .decode ctx .receiving)
  | _, _ => none

def closeStep (s : Shared) (ctx : Nat) : ClosePc → Shared × Task
  | .checkOpened =>
    (s, .close ctx (if s.openedStream (s.streamId ctx) then .swapFin else .checkRegistered))
  | .checkRegistered => (s, .close ctx (if s.reserves (s.streamId ctx) then .reserve else .remove))
  | .reserve => (s.reserve (s.streamId ctx), .close ctx .remove)
  | .swapFin =>
    if s.finStarted ctx then (s, .done)
    else (s.modify ctx fun stream => { stream with finStarted := true }, .close ctx .remove)
  | .remove =>
    match s.removeStream (s.streamId ctx) with
    | (some removed, s) => (s, .close ctx (.notify removed))
    | (none, s) => (s, .done)
  | .notify removed => (s.call (.onCloseStream removed), .done)

def markStep (s : Shared) : MarkPc → Shared × Task
  | .swap => ({ s with closed := true }, if s.closed then .done else .markClosed .take)
  | .take =>
    ({ s with streamContexts := [], defaultStream := none },
      .markClosed (.notify (s.streamContexts.map Prod.snd)))
  | .notify [] => (s, .done)
  | .notify (ctx :: ctxs) =>
    ((s.modify ctx fun stream => { stream with closed := true }).call (.onCloseStream ctx),
      .markClosed (.notify ctxs))

/-- `new_stream` does not call `on_new_stream`. -/
def newStreamStep (s : Shared) : Option Nat → Shared × Task × List Task
  | none => ({ s with nextStreamId := s.nextStreamId + 1 }, .newStream (some s.nextStreamId), [])
  | some id =>
    if id > maxStreamId then (s, .done, [])
    else
      match s.makeStream id with
      | some s' => (s', .done, [.decode s.streams.length .receiving])
      | none => (s, .done, [])

def move (s : Shared) : Task → Act → Option (Shared × Task × List Task)
  | .accept id message fin pc, .go => some (acceptStep s id message fin pc)
  | .defaultStream pc, .go =>
    match getStreamCtx s defaultStreamId pc with
    | (s, .inl pc, tasks) => some (s, .defaultStream pc, tasks)
    | (s, .inr _, tasks) => some (s, .done, tasks)
  | .newStream id, .go => some (newStreamStep s id)
  | .decode ctx pc, a => (decodeStep s ctx pc a).map fun r => (r.1, r.2, [])
  | .close ctx pc, .go => some ((closeStep s ctx pc).1, (closeStep s ctx pc).2, [])
  | .recvError ctx pc, .go =>
    match errorStep s ctx pc with
    | (s, some pc) => some (s, .recvError ctx pc, [])
    | (s, none) => some (s, .done, [])
  | .markClosed pc, .go => some ((markStep s pc).1, (markStep s pc).2, [])
  | _, _ => none

/-- A call of `accept_frame` for a frame with FIN set if `fin`, and a payload if `message`. -/
def acceptFrame (id : Nat) (message fin : Bool) : Task :=
  let fin := fin && id != defaultStreamId && id != controlStreamId
  .accept id message fin (if fin && !message then .unreserve else .lookup)

/-- The calls that the environment makes. -/
def starts (s : Shared) : Task → Bool
  | .accept id message fin pc => .accept id message fin pc = acceptFrame id message fin
  | .defaultStream pc => pc = .lookup
  | .newStream id => id = none
  | .close ctx pc => ctx < s.streams.length ∧ pc = .checkOpened
  | .recvError ctx pc => ctx < s.streams.length ∧ pc = .checkOpened
  | .markClosed pc => pc = .swap
  | .decode _ _ | .done => false

def program : Program Shared Task Act := ⟨fun s _ _ t a => move s t a, starts⟩

abbrev State := Machine.Pool.State Shared Task

/-- A connection without streams, whose own stream IDs start at `nextStreamId`. -/
def initial (nextStreamId : Nat) : State :=
  ⟨⟨[], [], none, [], nextStreamId, false, [], []⟩, []⟩

def machine : Machine State (Event Task Act) where
  init c := ∃ nextStreamId, c = initial nextStreamId
  step := program.step

end AdaptiveMsg.Streams
