import AdaptiveMsg.Machine.Run
import AdaptiveMsg.Stream.SendRecv
import AdaptiveMsg.Streams.Model

/-!
# Stream — delivery of the frames received

One stream and the tasks that its messages pass through: the reader, in `accept_frame` and at the
end in `close_by_peer`, puts payloads into the incoming queue; the decode task takes them out and
hands each message to the handler queue or to the inbox; the handler task runs the jobs, and a
receiver empties the inbox.  All three queues are bounded, and an empty payload is the FIN marker.

Another task may release the stream, and `close_by_peer` may run out of time; `Undisturbed` are the
runs without either, whose payloads decode.  The `select!` of the handler task polls its queue and
then the end of the stream; `NotOvertaken` says that no job comes in between with the end behind it.

* `Inv`: the messages in the hands of the reader, in the incoming queue and in the hands of the
  decode task are those still to be delivered, and the FIN marker is behind them.
* `delivered_in_order`: what a stream accepts is delivered, once and in order, before its release,
  unless the handler task is overtaken; the jobs then in its queue never run (`queued_job_lost`).
* `work_lt`: the tasks come to rest.
-/

namespace AdaptiveMsg.Delivery

open SendRecv (RawMessage)
open Streams (defaultStreamId controlStreamId)

/-! ### The stream and its tasks -/

/-- What was negotiated for the connection, its registry, and the stream: its ID and the capacities
of its queues. -/
structure Config (β τ : Type) where
  decodeEnvelope : List UInt8 → Except Error (RawMessage β)
  /-- Whether the registry has a handler for the wire name. -/
  handler : String → Bool
  /-- `decode_raw_with_registry`. -/
  decodeRaw : RawMessage β → Except Error τ
  streamId : Nat
  incomingSize : Nat
  inboxSize : Nat
  handlerSize : Nat
  incoming_pos : 0 < incomingSize
  inbox_pos : 0 < inboxSize
  handler_pos : 0 < handlerSize

/-- A job of the handler task: the handler, by its wire name, and the message. -/
abbrev Job (τ : Type) := String × τ

/-- Where the reader is. -/
inductive Reader where
  | idle
  /-- In `accept_frame`, waiting for room in the incoming queue. -/
  | sending (payload : List UInt8) (fin : Bool)
  | queueFin
  /-- In `close_by_peer`: it queues the FIN marker, waits for the stream and marks the connection
  closed. -/
  | closeQueueFin
  | closeWait
  | marking
  | ended
  deriving DecidableEq, Repr

/-- Where the decode task is. -/
inductive Decoder (β τ : Type) where
  | select
  | inboxQ (raw : RawMessage β)
  | handlerQ (raw : RawMessage β) (msg : τ)
  /-- In `remove_stream`, before the stream leaves the map, and before it is marked closed. -/
  | removing
  | closing
  | ended
  deriving DecidableEq

inductive HandlerTask where
  | select
  /-- Its `select!` has found no job, and looks at the end of the stream in the same poll. -/
  | lookClosed
  | waiting
  | running
  | ended
  deriving DecidableEq, Repr

structure State (β τ : Type) where
  /-- The stream is in `stream_contexts`. -/
  registered : Bool
  /-- The flag, set with its notification. -/
  closed : Bool
  incoming : List (List UInt8)
  inbox : List (RawMessage β)
  jobs : List (Job τ)
  reader : Reader
  decoder : Decoder β τ
  handlerTask : HandlerTask
  /-- The payloads accepted on the stream (this and the rest is no state of the program). -/
  accepted : List (List UInt8)
  /-- The messages put into one of the two queues, those put into the inbox, and the jobs run. -/
  dispatched : List (RawMessage β)
  put : List (RawMessage β)
  run : List (Job τ)
  /-- The peer's FIN has come or it has closed the connection, and the FIN marker is queued. -/
  finished : Bool
  marked : Bool
  deriving DecidableEq

inductive Event where
  /-- A frame on the stream. -/
  | accept (flags : UInt8) (payload : List UInt8)
  /-- The peer closes the connection cleanly. -/
  | closeByPeer
  | reader
  /-- The decode task; which branch its `select!` takes, the queue or the closed stream. -/
  | decode (closed : Bool)
  | handle
  | receive
  /-- `CLOSE_FLUSH_TIMEOUT` runs out in `close_by_peer`. -/
  | timeLimit
  /-- Another task releases the stream: a local close, or a protocol error of a receiver. -/
  | release
  deriving DecidableEq, Repr

namespace State

variable {β τ : Type} (c : State β τ)

/-- The receiver of the incoming queue is gone. -/
def incomingDropped : Bool :=
  match c.decoder with
  | .ended => true
  | _ => false

/-- The stream is out of the map and marked closed. -/
def removed : State β τ := { c with registered := false, closed := true }

end State

variable {β τ : Type} (cfg : Config β τ)

/-- Whether `accept_frame` takes the frame for the peer's FIN. -/
def Config.isFin (flags : UInt8) : Bool :=
  flags &&& 1 ≠ 0 && cfg.streamId ≠ defaultStreamId && cfg.streamId ≠ controlStreamId

/-- `accept_frame` up to its first wait.  A frame for a stream that is released is not for it. -/
def accept (c : State β τ) (flags : UInt8) (payload : List UInt8) : State β τ :=
  let fin := cfg.isFin flags
  if fin && payload = [] then
    { c with finished := true, reader := if c.registered then .queueFin else .idle }
  else if c.registered && payload ≠ [] then
    { c with
      accepted := c.accepted ++ [payload]
      finished := fin
      reader := .sending payload fin }
  else { c with finished := fin }

/-- `queue_fin`: the marker, or nothing if nobody would read it. -/
def queueFin (c : State β τ) (next : Reader) : Option (State β τ) :=
  if c.incomingDropped then some { c with reader := next }
  else if c.incoming.length < cfg.incomingSize then
    some { c with incoming := c.incoming ++ [[]], marked := true, reader := next }
  else none

/-- The next operation of the reader. -/
def readerStep (c : State β τ) : Option (State β τ) :=
  match c.reader with
  | .idle => none
  | .sending payload fin =>
    if c.incomingDropped then some { c with reader := .idle }
    else if c.incoming.length < cfg.incomingSize then
      some { c with
        incoming := c.incoming ++ [payload]
        reader := if fin then .queueFin else .idle }
    else none
  | .queueFin => queueFin cfg c .idle
  | .closeQueueFin => queueFin cfg c .closeWait
  | .closeWait => if c.closed then some { c with reader := .marking } else none
  | .marking => some { (if c.registered then c.removed else c) with reader := .ended }
  | .ended => none

/-- `dispatch_raw` up to its first wait. -/
def dispatchRaw (c : State β τ) (raw : RawMessage β) : State β τ :=
  if cfg.handler raw.wire then
    match cfg.decodeRaw raw with
    | .ok msg => { c with decoder := .handlerQ raw msg }
    | .error _ => { c.removed with decoder := .select }
  else { c with decoder := .inboxQ raw }

/-- The next operation of the decode task. -/
def decodeStep (c : State β τ) (closed : Bool) : Option (State β τ) :=
  match c.decoder with
  | .select =>
    if closed then (if c.closed then some { c with decoder := .ended } else none)
    else
      match c.incoming with
      | [] => none
      | [] :: incoming => some { c with incoming := incoming, decoder := .removing }
      | payload :: incoming =>
        let c := { c with incoming := incoming }
        match cfg.decodeEnvelope payload with
        | .ok raw => some (dispatchRaw cfg c raw)
        | .error _ => some { c.removed with decoder := .ended }
  | .inboxQ raw =>
    if c.closed then some { c with decoder := .select }
    else if c.inbox.length < cfg.inboxSize then
      some { c with
        inbox := c.inbox ++ [raw]
        decoder := .select
        put := c.put ++ [raw]
        dispatched := c.dispatched ++ [raw] }
    else none
  | .handlerQ raw msg =>
    if c.closed || c.handlerTask = .ended then some { c with decoder := .select }
    else if c.jobs.length < cfg.handlerSize then
      some { c with
        jobs := c.jobs ++ [(raw.wire, msg)]
        decoder := .select
        dispatched := c.dispatched ++ [raw] }
    else none
  | .removing =>
    some (if c.registered then { c with registered := false, decoder := .closing }
      else { c with decoder := .ended })
  | .closing => some { c with closed := true, decoder := .ended }
  | .ended => none

/-- The handler task takes a job, if there is one. -/
def takeJob (c : State β τ) (empty : Option (State β τ)) : Option (State β τ) :=
  match c.jobs with
  | job :: jobs => some { c with jobs := jobs, run := c.run ++ [job], handlerTask := .running }
  | [] => empty

/-- The next operation of the handler task.  Its `select!` looks for a job first and then at the end
of the stream, whenever it is polled; other tasks take steps in between. -/
def handleStep (c : State β τ) : Option (State β τ) :=
  match c.handlerTask with
  | .select => takeJob c (some { c with handlerTask := .lookClosed })
  | .lookClosed => some { c with handlerTask := if c.closed then .ended else .waiting }
  | .waiting => takeJob c (if c.closed then some { c with handlerTask := .lookClosed } else none)
  | .running => some { c with handlerTask := .select }
  | .ended => none

def step (c : State β τ) : Event → Option (State β τ)
  | .accept flags payload =>
    if c.reader = .idle && !c.finished then some (accept cfg c flags payload) else none
  | .closeByPeer =>
    if c.reader = .idle then
      some { c with
        finished := true
        reader := if c.registered then .closeQueueFin else .marking }
    else none
  | .reader => readerStep cfg c
  | .decode closed => decodeStep cfg c closed
  | .handle => handleStep c
  | .receive =>
    match c.inbox with
    | _ :: inbox => some { c with inbox := inbox }
    | [] => none
  | .timeLimit =>
    if c.reader = .closeQueueFin || c.reader = .closeWait then some { c with reader := .marking }
    else none
  | .release => some (if c.registered then c.removed else c)

def initial : State β τ where
  registered := true
  closed := false
  incoming := []
  inbox := []
  jobs := []
  reader := .idle
  decoder := .select
  handlerTask := .select
  accepted := []
  dispatched := []
  put := []
  run := []
  finished := false
  marked := false

def machine : Machine (State β τ) Event where
  init c := c = initial
  step := step cfg

/-! ### What is delivered where -/

/-- The messages of the inbox, among those dispatched. -/
def Config.inboxOf (raws : List (RawMessage β)) : List (RawMessage β) :=
  raws.filter fun raw => !cfg.handler raw.wire

/-- The job of a message that has a handler. -/
def Config.job? (raw : RawMessage β) : Option (Job τ) :=
  if cfg.handler raw.wire then (cfg.decodeRaw raw).toOption.map fun msg => (raw.wire, msg) else none

/-- The jobs of the handler task, among the messages dispatched. -/
def Config.jobsOf (raws : List (RawMessage β)) : List (Job τ) := raws.filterMap cfg.job?

/-- The payload decodes without error, for a handler as well. -/
def Config.decodes (payload : List UInt8) : Bool :=
  match cfg.decodeEnvelope payload with
  | .ok raw => !cfg.handler raw.wire || (cfg.decodeRaw raw).toOption.isSome
  | .error _ => false

/-- No other task releases the stream, `close_by_peer` is not cut short, and the payloads decode. -/
def Undisturbed (_ : State β τ) : Event → Prop
  | .release | .timeLimit => False
  | .accept _ payload => payload = [] ∨ cfg.decodes payload = true
  | _ => True

instance (c : State β τ) : ∀ e, Decidable (Undisturbed cfg c e)
  | .release | .timeLimit => isFalse id
  | .accept _ _ => inferInstanceAs (Decidable (_ ∨ _))
  | .closeByPeer | .reader | .decode _ | .handle | .receive => isTrue trivial

/-- The handler task does not find the stream closed with a job in its queue that has come since it
looked there. -/
def NotOvertaken (c : State β τ) : Event → Prop
  | .handle => c.handlerTask = .lookClosed → c.closed = true → c.jobs = []
  | _ => True

instance (c : State β τ) : ∀ e, Decidable (NotOvertaken c e)
  | .handle => inferInstanceAs (Decidable (_ → _ → _))
  | .accept _ _ | .closeByPeer | .reader | .decode _ | .receive | .timeLimit | .release =>
    isTrue trivial

/-! ### What the tasks have in their hands -/

def Reader.inHand : Reader → List (List UInt8)
  | .sending payload _ => [payload]
  | _ => []

def Decoder.inHand : Decoder β τ → List (RawMessage β)
  | .inboxQ raw | .handlerQ raw _ => [raw]
  | _ => []

/-- Where the decode task is, with `data` before `k` FIN markers in the incoming queue. -/
def DecoderOk (c : State β τ) (data : List (List UInt8)) (k : Nat) : Prop :=
  match c.decoder with
  | .select => c.registered = true ∧ c.closed = false ∧ (c.marked = true → 0 < k)
  | .inboxQ raw =>
    (c.registered = true ∧ c.closed = false ∧ (c.marked = true → 0 < k)) ∧ cfg.handler raw.wire = false
  | .handlerQ raw msg =>
    (c.registered = true ∧ c.closed = false ∧ (c.marked = true → 0 < k)) ∧
      cfg.job? raw = some (raw.wire, msg)
  | .removing => c.registered = true ∧ c.closed = false ∧ c.marked = true ∧ data = []
  | .closing => c.registered = false ∧ c.closed = false ∧ c.marked = true ∧ data = []
  | .ended => c.registered = false ∧ c.closed = true ∧ c.marked = true ∧ data = []

def ReaderOk (c : State β τ) : Prop :=
  match c.reader with
  | .idle => c.finished = true → c.marked = true
  | .sending _ fin => c.marked = false ∧ c.finished = fin
  | .queueFin | .closeQueueFin => c.finished = true
  | .closeWait => c.finished = true ∧ c.marked = true
  | .marking | .ended => c.finished = true ∧ c.marked = true ∧ c.registered = false

/-- The flow of the messages, with `data` before `k` FIN markers in the incoming queue. -/
structure Flow (c : State β τ) (data : List (List UInt8)) (k : Nat) : Prop where
  incoming : c.incoming = data ++ .replicate k []
  accepted : c.accepted.map cfg.decodeEnvelope =
    (c.dispatched ++ c.decoder.inHand).map .ok ++ (data ++ c.reader.inHand).map cfg.decodeEnvelope
  decodes : ∀ p ∈ data ++ c.reader.inHand, p ≠ [] ∧ cfg.decodes p = true
  put : c.put = cfg.inboxOf c.dispatched
  run : c.run ++ c.jobs = cfg.jobsOf c.dispatched
  unmarked : c.marked = false → k = 0
  finished : c.marked = true → c.finished = true
  decoder : DecoderOk cfg c data k
  reader : ReaderOk c
  handler : c.handlerTask = .ended → c.closed = true

def Inv (c : State β τ) : Prop := ∃ data k, Flow cfg c data k

variable {cfg} {c c' : State β τ} {data : List (List UInt8)} {k : Nat} {raw : RawMessage β}

theorem inboxOf_append_inbox (h : cfg.handler raw.wire = false) (raws : List (RawMessage β)) :
    cfg.inboxOf (raws ++ [raw]) = cfg.inboxOf raws ++ [raw] := by
  simp [Config.inboxOf, h]

theorem jobsOf_append_inbox (h : cfg.handler raw.wire = false) (raws : List (RawMessage β)) :
    cfg.jobsOf (raws ++ [raw]) = cfg.jobsOf raws := by
  simp [Config.jobsOf, Config.job?, h]

theorem handler_of_job {job : Job τ} (h : cfg.job? raw = some job) : cfg.handler raw.wire = true := by
  by_contra hn
  simp [Config.job?, hn] at h

theorem inboxOf_append_job {job : Job τ} (h : cfg.job? raw = some job) (raws : List (RawMessage β)) :
    cfg.inboxOf (raws ++ [raw]) = cfg.inboxOf raws := by
  simp [Config.inboxOf, handler_of_job h]

theorem jobsOf_append_job {job : Job τ} (h : cfg.job? raw = some job) (raws : List (RawMessage β)) :
    cfg.jobsOf (raws ++ [raw]) = cfg.jobsOf raws ++ [job] := by
  simp [Config.jobsOf, h]

/-- The decode task is at work on an open stream, or it has taken the marker and has nothing in its
hands. -/
theorem DecoderOk.cases (h : DecoderOk cfg c data k) :
    (c.registered = true ∧ c.closed = false ∧ c.incomingDropped = false) ∨
    (c.marked = true ∧ data = [] ∧ c.decoder.inHand = [] ∧
      (c.closed = true → c.registered = false)) := by
  unfold DecoderOk at h
  rw [State.incomingDropped]
  cases hdec : c.decoder with
  | select =>
      rw [hdec] at h
      exact .inl ⟨h.1, h.2.1, rfl⟩
  | inboxQ raw | handlerQ raw msg =>
      rw [hdec] at h
      exact .inl ⟨h.1.1, h.1.2.1, rfl⟩
  | removing =>
      rw [hdec] at h
      exact .inr ⟨h.2.2.1, h.2.2.2, rfl, fun hc => absurd hc (by simp [h.2.1])⟩
  | closing | ended =>
      rw [hdec] at h
      exact .inr ⟨h.2.2.1, h.2.2.2, rfl, fun _ => h.1⟩

/-- What the reader adds to the incoming queue is behind what the decode task has taken. -/
theorem DecoderOk.congr {data' : List (List UInt8)} {k' : Nat} (h : DecoderOk cfg c data k)
    (hd : c'.decoder = c.decoder) (hr : c'.registered = c.registered) (hc : c'.closed = c.closed)
    (hm : c.marked = true → c'.marked = true ∧ data' = data) (hk : c'.marked = true → 0 < k') :
    DecoderOk cfg c' data' k' := by
  unfold DecoderOk at h ⊢
  rw [hd, hr, hc]
  cases hdec : c.decoder with
  | select =>
      rw [hdec] at h
      exact ⟨h.1, h.2.1, hk⟩
  | inboxQ raw | handlerQ raw msg =>
      rw [hdec] at h
      exact ⟨⟨h.1.1, h.1.2.1, hk⟩, h.2⟩
  | removing | closing | ended =>
      rw [hdec] at h
      obtain ⟨hmarked, hdata⟩ := hm h.2.2.1
      exact ⟨h.1, h.2.1, hmarked, hdata.trans h.2.2.2⟩

/-- Before a marker is queued, the stream is open and its decode task at work. -/
theorem Flow.open_of_unmarked (h : Flow cfg c data k) (hm : c.marked = false) :
    c.registered = true ∧ c.closed = false ∧ c.incomingDropped = false := by
  rcases h.decoder.cases with hopen | ⟨hmarked, -⟩
  · exact hopen
  · exact absurd hmarked (by simp [hm])

/-- The stream leaves the map only after the marker. -/
theorem Flow.marked_of_removed (h : Flow cfg c data k) (hr : c.registered = false) :
    c.marked = true := by
  by_contra hm
  exact absurd (h.open_of_unmarked (Bool.eq_false_iff.2 hm)).1 (by simp [hr])

/-- The stream is marked closed only after it has left the map. -/
theorem Flow.removed_of_closed (h : Flow cfg c data k) (hc : c.closed = true) :
    c.registered = false := by
  rcases h.decoder.cases with ⟨-, hopen, -⟩ | ⟨-, -, -, hremoved⟩
  · exact absurd hc (by simp [hopen])
  · exact hremoved hc

/-- Nothing is in anyone's hands once the stream has left the map. -/
theorem Flow.accepted_of_removed (h : Flow cfg c data k) (hr : c.registered = false) :
    c.accepted.map cfg.decodeEnvelope = c.dispatched.map .ok := by
  have hhand : c.reader.inHand = [] := by
    have hreader := h.reader
    unfold ReaderOk at hreader
    cases hrd : c.reader with
    | sending payload fin =>
        rw [hrd] at hreader
        exact absurd (h.marked_of_removed hr) (by simp [hreader.1])
    | _ => rfl
  rcases h.decoder.cases with ⟨hreg, -⟩ | ⟨-, hdata, hdecoder, -⟩
  · exact absurd hreg (by simp [hr])
  · have hacc := h.accepted
    rw [hdecoder, hhand, hdata] at hacc
    simpa using hacc

/-- The reader does not mind that the stream leaves the map. -/
theorem ReaderOk.release (h : ReaderOk c) {decoder : Decoder β τ} :
    ReaderOk { c with registered := false, decoder := decoder } := by
  unfold ReaderOk at h ⊢
  cases hr : c.reader with
  | marking | ended =>
      simp only [hr] at h ⊢
      exact ⟨h.1, h.2.1, trivial⟩
  | _ =>
      simp only [hr] at h ⊢
      exact h

/-! ### One step -/

theorem inv_initial : Inv cfg (initial : State β τ) :=
  ⟨[], 0, {
    incoming := rfl, accepted := rfl, decodes := by simp [initial, Reader.inHand], put := rfl, run := rfl
    unmarked := fun _ => rfl, finished := by simp [initial],
    decoder := ⟨rfl, rfl, by simp [initial]⟩, reader := by simp [ReaderOk, initial],
    handler := by simp [initial] }⟩

variable (cfg) in
/-- A FIN without payload, a frame with a payload, and an empty frame that is no FIN. -/
theorem accept_cases (hreg : c.registered = true) (flags : UInt8) (payload : List UInt8) :
    (payload = [] ∧ accept cfg c flags payload = { c with finished := true, reader := .queueFin }) ∨
    (payload ≠ [] ∧ accept cfg c flags payload =
      { c with
        accepted := c.accepted ++ [payload]
        finished := cfg.isFin flags
        reader := .sending payload (cfg.isFin flags) }) ∨
    (payload = [] ∧ accept cfg c flags payload = { c with finished := false }) := by
  cases payload with
  | nil =>
      cases hfin : cfg.isFin flags with
      | true => exact .inl ⟨rfl, by simp [accept, hfin, hreg]⟩
      | false => exact .inr (.inr ⟨rfl, by simp [accept, hfin]⟩)
  | cons b payload => exact .inr (.inl ⟨by simp, by simp [accept, hreg]⟩)

theorem inv_accept {flags : UInt8} {payload : List UInt8} (hI : Inv cfg c)
    (hC : payload = [] ∨ cfg.decodes payload = true)
    (h : step cfg c (.accept flags payload) = some c') : Inv cfg c' := by
  obtain ⟨data, k, hF⟩ := hI
  simp only [step] at h
  split at h
  · rename_i hidle
    cases h
    simp only [Bool.and_eq_true, decide_eq_true_eq, Bool.not_eq_true'] at hidle
    obtain ⟨hidle, hfin⟩ := hidle
    have hm : c.marked = false := Bool.eq_false_iff.2 fun hm => by simp [hF.finished hm] at hfin
    obtain ⟨hreg, -, -⟩ := hF.open_of_unmarked hm
    have hacc := hF.accepted
    have hdec := hF.decodes
    rw [hidle] at hacc hdec
    rcases accept_cases cfg hreg flags payload with ⟨-, he⟩ | ⟨hne, he⟩ | ⟨-, he⟩
    · rw [he]
      exact ⟨data, k, { hF with
        accepted := hacc
        decodes := hdec
        finished := fun _ => rfl
        reader := rfl }⟩
    · rw [he]
      refine ⟨data, k, { hF with
        accepted := ?_
        decodes := ?_
        finished := fun h => absurd h (by simp [hm])
        reader := ⟨hm, rfl⟩ }⟩
      · rw [List.map_append, hacc]
        simp [Reader.inHand]
      · intro p hp
        rcases List.mem_append.mp hp with hp | hp
        · exact hdec p (List.mem_append_left _ hp)
        · rw [List.mem_singleton.mp hp]
          exact ⟨hne, hC.resolve_left hne⟩
    · rw [he]
      exact ⟨data, k, { hF with
        finished := fun h => absurd h (by simp [hm])
        reader := by
          rw [ReaderOk, hidle]
          simp }⟩
  · cases h

theorem inv_closeByPeer (hI : Inv cfg c) (h : step cfg c .closeByPeer = some c') : Inv cfg c' := by
  obtain ⟨data, k, hF⟩ := hI
  simp only [step] at h
  split at h
  · rename_i hidle
    cases h
    have hhand : c.reader.inHand = [] := by rw [hidle]; rfl
    have hacc := hF.accepted
    have hdec := hF.decodes
    rw [hhand, List.append_nil] at hacc hdec
    refine ⟨data, k, { hF with
      accepted := ?_
      decodes := ?_
      finished := fun _ => rfl
      reader := ?_ }⟩
    · split <;> simpa [Reader.inHand] using hacc
    · split <;> simpa [Reader.inHand] using hdec
    · unfold ReaderOk
      cases hreg : c.registered with
      | true => rfl
      | false => exact ⟨rfl, hF.marked_of_removed hreg, rfl⟩
  · cases h

/-- The marker is queued behind everything else; where nobody would read it, one has been read. -/
theorem inv_queueFin {next : Reader} (hF : Flow cfg c data k) (hhand : c.reader.inHand = [])
    (hfin : c.finished = true) (hnext : next = .idle ∨ next = .closeWait)
    (h : queueFin cfg c next = some c') : Inv cfg c' := by
  have hacc := hF.accepted
  have hdec := hF.decodes
  have hhand' : next.inHand = [] := by rcases hnext with rfl | rfl <;> rfl
  rw [hhand, ← hhand'] at hacc hdec
  have hreader : ∀ s : State β τ, s.reader = next → s.finished = true → s.marked = true →
      ReaderOk s := by
    intro s hr hf hm
    unfold ReaderOk
    rw [hr]
    rcases hnext with rfl | rfl
    · exact fun _ => hm
    · exact ⟨hf, hm⟩
  simp only [queueFin] at h
  split at h
  · rename_i hdropped
    cases h
    have hm : c.marked = true := by
      by_contra hm
      exact absurd hdropped (by simp [(hF.open_of_unmarked (Bool.eq_false_iff.2 hm)).2.2])
    exact ⟨data, k, { hF with
      accepted := hacc, decodes := hdec, reader := hreader _ rfl hfin hm }⟩
  · split at h
    · cases h
      refine ⟨data, k + 1, { hF with
        incoming := ?_
        accepted := hacc
        decodes := hdec
        unmarked := fun h => absurd h (by simp)
        finished := fun _ => hfin
        decoder := ?_
        reader := hreader _ rfl hfin rfl }⟩
      · rw [hF.incoming, List.append_assoc, List.replicate_succ']
      · exact hF.decoder.congr rfl rfl rfl (fun _ => ⟨rfl, rfl⟩) fun _ => Nat.succ_pos k
    · cases h

theorem inv_reader (hI : Inv cfg c) (h : step cfg c .reader = some c') : Inv cfg c' := by
  obtain ⟨data, k, hF⟩ := hI
  have hr := hF.reader
  simp only [step, readerStep] at h
  unfold ReaderOk at hr
  cases hreader : c.reader with
  | idle | ended =>
      rw [hreader] at h
      cases h
  | sending payload fin =>
      simp only [hreader] at h hr
      obtain ⟨hm, hfin⟩ := hr
      obtain ⟨-, -, hdropped⟩ := hF.open_of_unmarked hm
      simp only [hdropped, Bool.false_eq_true, if_false] at h
      split at h
      · cases h
        have hk := hF.unmarked hm
        have hacc := hF.accepted
        have hdec := hF.decodes
        rw [hreader] at hacc hdec
        refine ⟨data ++ [payload], 0, { hF with
          incoming := ?_
          accepted := ?_
          decodes := ?_
          unmarked := fun _ => rfl
          decoder := ?_
          reader := ?_ }⟩
        · simp [hF.incoming, hk]
        · rw [hacc]
          cases fin <;> simp [Reader.inHand]
        · cases fin <;> simpa [Reader.inHand] using hdec
        · -- no marker is queued yet
          have hno : c.marked ≠ true := by simp [hm]
          exact hF.decoder.congr rfl rfl rfl (fun h => absurd h hno) fun h => absurd h hno
        · unfold ReaderOk
          cases fin with
          | true => exact hfin
          | false => exact fun h => absurd h (by simp [hfin])
      · cases h
  | queueFin =>
      simp only [hreader] at h hr
      exact inv_queueFin hF (by rw [hreader]; rfl) hr (.inl rfl) h
  | closeQueueFin =>
      simp only [hreader] at h hr
      exact inv_queueFin hF (by rw [hreader]; rfl) hr (.inr rfl) h
  | closeWait =>
      simp only [hreader] at h hr
      split at h
      · rename_i hclosed
        cases h
        have hacc := hF.accepted
        have hdec := hF.decodes
        rw [hreader] at hacc hdec
        exact ⟨data, k, { hF with
          accepted := hacc, decodes := hdec, reader := ⟨hr.1, hr.2, hF.removed_of_closed hclosed⟩ }⟩
      · cases h
  | marking =>
      simp only [hreader] at h hr
      obtain ⟨hfin, hm, hreg⟩ := hr
      rw [if_neg (by simp [hreg])] at h
      cases h
      have hacc := hF.accepted
      have hdec := hF.decodes
      rw [hreader] at hacc hdec
      exact ⟨data, k, { hF with accepted := hacc, decodes := hdec, reader := ⟨hfin, hm, hreg⟩ }⟩

/-- A payload that decodes, and where its message goes. -/
theorem dispatchRaw_of_decodes {payload : List UInt8} (h : cfg.decodes payload = true) :
    ∃ raw, cfg.decodeEnvelope payload = .ok raw ∧
      ((cfg.handler raw.wire = false ∧ ∀ c : State β τ,
        dispatchRaw cfg c raw = { c with decoder := .inboxQ raw }) ∨
      ∃ msg, cfg.job? raw = some (raw.wire, msg) ∧ ∀ c : State β τ,
        dispatchRaw cfg c raw = { c with decoder := .handlerQ raw msg }) := by
  rw [Config.decodes] at h
  cases hd : cfg.decodeEnvelope payload with
  | error err => simp [hd] at h
  | ok raw =>
      simp only [hd, Bool.or_eq_true, Bool.not_eq_true'] at h
      refine ⟨raw, rfl, ?_⟩
      cases hh : cfg.handler raw.wire with
      | false => exact .inl ⟨rfl, fun c => by simp [dispatchRaw, hh]⟩
      | true =>
          cases hr : cfg.decodeRaw raw with
          | error err => simp [hh, hr, Except.toOption] at h
          | ok msg =>
              exact .inr ⟨msg, by simp [Config.job?, hh, hr, Except.toOption],
                fun c => by simp [dispatchRaw, hh, hr]⟩

/-- The decode task takes a payload or a FIN marker out of the incoming queue. -/
theorem inv_select (hI : Inv cfg c) (hsel : c.decoder = .select) {closed : Bool}
    (h : decodeStep cfg c closed = some c') : Inv cfg c' := by
  obtain ⟨data, k, hF⟩ := hI
  have hd := hF.decoder
  rw [DecoderOk, hsel] at hd
  obtain ⟨hreg, hopen, hk⟩ := hd
  have hacc := hF.accepted
  rw [hsel] at hacc
  simp only [Decoder.inHand, List.append_nil] at hacc
  simp only [decodeStep, hsel] at h
  split at h
  · simp [hopen] at h
  · split at h
    · cases h
    · rename_i incoming hin
      cases h
      -- the marker is the first of them, with no data before it
      cases data with
      | cons p data =>
          rw [hF.incoming] at hin
          cases hin
          exact absurd rfl (hF.decodes _ (by simp)).1
      | nil =>
          cases k with
          | zero =>
              rw [hF.incoming] at hin
              cases hin
          | succ k =>
              have hm : c.marked = true := by
                by_contra hm
                exact absurd (hF.unmarked (Bool.eq_false_iff.2 hm)) (Nat.succ_ne_zero k)
              rw [hF.incoming, List.nil_append, List.replicate_succ] at hin
              cases hin
              exact ⟨[], k, { hF with
                incoming := rfl
                accepted := by simpa [Decoder.inHand] using hacc
                unmarked := fun h => absurd (hm.symm.trans h) (by simp)
                decoder := ⟨hreg, hopen, hm, rfl⟩ }⟩
    · rename_i payload incoming hne hin
      cases data with
      | nil =>
          cases k with
          | zero =>
              rw [hF.incoming] at hin
              cases hin
          | succ k =>
              rw [hF.incoming, List.nil_append, List.replicate_succ] at hin
              cases hin
              exact absurd rfl hne
      | cons p data =>
          rw [hF.incoming, List.cons_append] at hin
          cases hin
          have hp := hF.decodes _ (List.mem_cons_self ..)
          obtain ⟨raw, hraw, hto⟩ := dispatchRaw_of_decodes hp.2
          simp only [hraw] at h
          cases h
          have hacc' : c.accepted.map cfg.decodeEnvelope = (c.dispatched ++ [raw]).map .ok ++
              (data ++ c.reader.inHand).map cfg.decodeEnvelope := by
            rw [hacc]
            simp [hraw]
          have hdec' : ∀ p ∈ data ++ c.reader.inHand, p ≠ [] ∧ cfg.decodes p = true :=
            fun p hp => hF.decodes p (List.mem_cons_of_mem _ hp)
          rcases hto with ⟨hno, he⟩ | ⟨msg, hjob, he⟩
          · rw [he]
            exact ⟨data, k, { hF with
              incoming := rfl, accepted := hacc', decodes := hdec'
              decoder := ⟨⟨hreg, hopen, hk⟩, hno⟩ }⟩
          · rw [he]
            exact ⟨data, k, { hF with
              incoming := rfl, accepted := hacc', decodes := hdec'
              decoder := ⟨⟨hreg, hopen, hk⟩, hjob⟩ }⟩

theorem inv_decode (hI : Inv cfg c) {closed : Bool} (h : step cfg c (.decode closed) = some c') :
    Inv cfg c' := by
  cases hdecoder : c.decoder with
  | select => exact inv_select hI hdecoder h
  | inboxQ raw =>
      obtain ⟨data, k, hF⟩ := hI
      have hd := hF.decoder
      rw [DecoderOk, hdecoder] at hd
      obtain ⟨⟨hreg, hopen, hk⟩, hno⟩ := hd
      simp only [step, decodeStep, hdecoder] at h
      rw [if_neg (by simp [hopen])] at h
      split at h
      · cases h
        have hacc := hF.accepted
        rw [hdecoder] at hacc
        exact ⟨data, k, { hF with
          accepted := by simpa [Decoder.inHand] using hacc
          put := by rw [inboxOf_append_inbox hno, ← hF.put]
          run := by rw [jobsOf_append_inbox hno, ← hF.run]
          decoder := ⟨hreg, hopen, hk⟩ }⟩
      · cases h
  | handlerQ raw msg =>
      obtain ⟨data, k, hF⟩ := hI
      have hd := hF.decoder
      rw [DecoderOk, hdecoder] at hd
      obtain ⟨⟨hreg, hopen, hk⟩, hjob⟩ := hd
      have halive : c.handlerTask ≠ .ended := fun he => by simp [hF.handler he] at hopen
      simp only [step, decodeStep, hdecoder] at h
      rw [if_neg (by simp [hopen, halive])] at h
      split at h
      · cases h
        have hacc := hF.accepted
        rw [hdecoder] at hacc
        exact ⟨data, k, { hF with
          accepted := by simpa [Decoder.inHand] using hacc
          put := by rw [inboxOf_append_job hjob, ← hF.put]
          run := by rw [jobsOf_append_job hjob, ← hF.run, List.append_assoc]
          decoder := ⟨hreg, hopen, hk⟩
          handler := fun he => absurd he halive }⟩
      · cases h
  | removing =>
      obtain ⟨data, k, hF⟩ := hI
      have hd := hF.decoder
      rw [DecoderOk, hdecoder] at hd
      obtain ⟨hreg, hopen, hm, hdata⟩ := hd
      simp only [step, decodeStep, hdecoder, hreg, if_true] at h
      cases h
      have hacc := hF.accepted
      rw [hdecoder] at hacc
      exact ⟨data, k, { hF with
        accepted := hacc
        decoder := ⟨rfl, hopen, hm, hdata⟩
        reader := hF.reader.release }⟩
  | closing =>
      obtain ⟨data, k, hF⟩ := hI
      have hd := hF.decoder
      rw [DecoderOk, hdecoder] at hd
      obtain ⟨hreg, hopen, hm, hdata⟩ := hd
      simp only [step, decodeStep, hdecoder] at h
      cases h
      have hacc := hF.accepted
      rw [hdecoder] at hacc
      exact ⟨data, k, { hF with
        accepted := hacc
        decoder := ⟨hreg, rfl, hm, hdata⟩
        handler := fun _ => rfl }⟩
  | ended =>
      simp only [step, decodeStep, hdecoder] at h
      cases h

/-- A job moves from the queue to those run. -/
theorem takeJob_cases {empty : Option (State β τ)} (h : takeJob c empty = some c') :
    (∃ job jobs, c.jobs = job :: jobs ∧
      c' = { c with jobs := jobs, run := c.run ++ [job], handlerTask := .running }) ∨
    (c.jobs = [] ∧ empty = some c') := by
  simp only [takeJob] at h
  split at h
  · rename_i job jobs hjobs
    cases h
    exact .inl ⟨job, jobs, hjobs, rfl⟩
  · exact .inr ⟨‹_›, h⟩

/-- The handler task takes a job, moves on, or ends where it finds the stream closed. -/
theorem handleStep_cases (h : handleStep c = some c') :
    ((c.handlerTask = .select ∨ c.handlerTask = .waiting) ∧ ∃ job jobs, c.jobs = job :: jobs ∧
      c' = { c with jobs := jobs, run := c.run ++ [job], handlerTask := .running }) ∨
    (∃ pc, pc ≠ .ended ∧ c' = { c with handlerTask := pc } ∧
      ((c.handlerTask = .select ∧ pc = .lookClosed) ∨
        (c.handlerTask = .lookClosed ∧ c.closed = false ∧ pc = .waiting) ∨
        (c.handlerTask = .waiting ∧ c.closed = true ∧ pc = .lookClosed) ∨
        (c.handlerTask = .running ∧ pc = .select))) ∨
    (c.handlerTask = .lookClosed ∧ c.closed = true ∧ c' = { c with handlerTask := .ended }) := by
  simp only [handleStep] at h
  cases htask : c.handlerTask with
  | select =>
      simp only [htask] at h
      rcases takeJob_cases h with hjob | ⟨-, he⟩
      · exact .inl ⟨.inl rfl, hjob⟩
      · cases he
        exact .inr (.inl ⟨_, by simp, rfl, .inl ⟨rfl, rfl⟩⟩)
  | lookClosed =>
      simp only [htask] at h
      cases h
      cases hclosed : c.closed with
      | false => exact .inr (.inl ⟨.waiting, by simp, by simp, .inr (.inl ⟨rfl, rfl, rfl⟩)⟩)
      | true => exact .inr (.inr ⟨rfl, rfl, by simp⟩)
  | waiting =>
      simp only [htask] at h
      rcases takeJob_cases h with hjob | ⟨-, he⟩
      · exact .inl ⟨.inr rfl, hjob⟩
      · split at he
        · rename_i hclosed
          cases he
          exact .inr (.inl ⟨_, by simp, rfl, .inr (.inr (.inl ⟨rfl, hclosed, rfl⟩))⟩)
        · cases he
  | running =>
      simp only [htask] at h
      cases h
      exact .inr (.inl ⟨_, by simp, rfl, .inr (.inr (.inr ⟨rfl, rfl⟩))⟩)
  | ended =>
      simp only [htask] at h
      cases h

theorem inv_handle (hI : Inv cfg c) (h : step cfg c .handle = some c') : Inv cfg c' := by
  obtain ⟨data, k, hF⟩ := hI
  rcases handleStep_cases h with ⟨-, job, jobs, hjobs, rfl⟩ | ⟨pc, hpc, rfl, -⟩ | ⟨-, hclosed, rfl⟩
  · have hrun := hF.run
    rw [hjobs] at hrun
    exact ⟨data, k, { hF with
      run := by simpa using hrun
      handler := fun he => by cases he }⟩
  · exact ⟨data, k, { hF with handler := fun he => absurd he hpc }⟩
  · exact ⟨data, k, { hF with handler := fun _ => hclosed }⟩

theorem inv_step {e : Event} (hI : Inv cfg c) (hC : Undisturbed cfg c e)
    (h : step cfg c e = some c') : Inv cfg c' := by
  cases e with
  | accept flags payload => exact inv_accept hI hC h
  | closeByPeer => exact inv_closeByPeer hI h
  | reader => exact inv_reader hI h
  | decode closed => exact inv_decode hI h
  | handle => exact inv_handle hI h
  | receive =>
      obtain ⟨data, k, hF⟩ := hI
      simp only [step] at h
      split at h
      · cases h
        exact ⟨data, k, { hF with }⟩
      · cases h
  | timeLimit | release => exact hC.elim

theorem inv_reachable (h : (machine cfg).ReachableUnder (Undisturbed cfg) c) : Inv cfg c := by
  refine h.invariant ?_ fun _ _ _ hI hC hs => inv_step hI hC hs
  rintro _ rfl
  exact inv_initial

/-! ### Where the tasks come to rest -/

/-- What is left for a task to do. -/
def Reader.work : Reader → Nat
  | .idle | .ended => 0
  | .sending _ fin => if fin then 14 else 7
  | .queueFin => 7
  | .closeQueueFin => 9
  | .closeWait => 2
  | .marking => 1

def Decoder.work : Decoder β τ → Nat
  | .select => 3
  | .inboxQ _ | .handlerQ _ _ => 8
  | .removing => 2
  | .closing => 1
  | .ended => 0

/-- The end of the stream wakes the handler task. -/
def HandlerTask.work (closed : Bool) : HandlerTask → Nat
  | .select => 2
  | .lookClosed => 1
  | .waiting => if closed then 2 else 0
  | .running => 3
  | .ended => 0

def State.work (c : State β τ) : Nat :=
  c.reader.work + 6 * c.incoming.length + c.decoder.work + c.inbox.length + 4 * c.jobs.length +
    c.handlerTask.work c.closed + if c.closed then 0 else 3

/-- The steps of the four tasks. -/
def Event.isTask : Event → Bool
  | .reader | .decode _ | .handle | .receive => true
  | _ => false

theorem HandlerTask.work_closed (t : HandlerTask) : t.work true ≤ t.work false + 2 := by
  cases t <;> simp [HandlerTask.work]

/-- Marking the stream closed adds nothing to do. -/
theorem work_close (c : State β τ) : State.work { c with closed := true } ≤ c.work := by
  have hle := c.handlerTask.work_closed
  cases hclosed : c.closed with
  | false =>
      simp only [State.work, hclosed, if_true, Bool.false_eq_true, if_false]
      omega
  | true => simp [State.work, hclosed]

theorem readerStep_work (h : readerStep cfg c = some c') : c'.work < c.work := by
  simp only [readerStep] at h
  cases hr : c.reader with
  | idle | ended => simp [hr] at h
  | sending payload fin =>
      simp only [hr] at h
      split at h
      · cases h
        cases fin <;> simp [State.work, Reader.work, hr]
      · split at h
        · cases h
          cases fin <;> simp [State.work, Reader.work, hr] <;> omega
        · cases h
  | queueFin | closeQueueFin =>
      simp only [hr, queueFin] at h
      repeat' split at h
      all_goals cases h
      all_goals simp [State.work, Reader.work, hr]
      all_goals omega
  | closeWait =>
      simp only [hr] at h
      split at h
      · cases h
        simp [State.work, Reader.work, hr]
      · cases h
  | marking =>
      have hle := work_close c
      simp only [hr] at h
      split at h
      · cases h
        simp only [State.work, Reader.work, State.removed, hr] at hle ⊢
        omega
      · cases h
        simp [State.work, Reader.work, hr]

variable (cfg) in
theorem dispatchRaw_work (c : State β τ) (raw : RawMessage β) :
    (dispatchRaw cfg c raw).work + c.decoder.work ≤ c.work + 8 := by
  have hle := work_close c
  simp only [dispatchRaw]
  split
  · split
    · simp only [State.work, Decoder.work]
      omega
    · simp only [State.work, Decoder.work, State.removed] at hle ⊢
      omega
  · simp only [State.work, Decoder.work]
    omega

theorem decodeStep_work {closed : Bool} (h : decodeStep cfg c closed = some c') :
    c'.work < c.work := by
  have hclose := work_close c
  simp only [decodeStep] at h
  cases hd : c.decoder with
  | select =>
      simp only [hd] at h
      split at h
      · split at h
        · cases h
          simp [State.work, Decoder.work, hd]
        · cases h
      · split at h
        · cases h
        · rename_i incoming hin
          cases h
          simp only [State.work, Decoder.work, hd, hin, List.length_cons]
          omega
        · rename_i payload incoming _ hin
          split at h
          · rename_i raw _
            cases h
            have hle := dispatchRaw_work cfg { c with incoming := incoming } raw
            simp only [State.work, Decoder.work, hd, hin, List.length_cons] at hle ⊢
            omega
          · cases h
            simp only [State.work, Decoder.work, State.removed, hd, hin, List.length_cons]
              at hclose ⊢
            omega
  | inboxQ raw | handlerQ raw msg =>
      simp only [hd] at h
      repeat' split at h
      all_goals cases h
      all_goals simp [State.work, Decoder.work, hd]
      all_goals omega
  | removing =>
      simp only [hd] at h
      split at h
      all_goals cases h
      all_goals simp [State.work, Decoder.work, hd]
  | closing =>
      simp only [hd] at h
      cases h
      simp only [State.work, Decoder.work, hd] at hclose ⊢
      omega
  | ended => simp [hd] at h

theorem handleStep_work (h : handleStep c = some c') : c'.work < c.work := by
  rcases handleStep_cases h with ⟨-, job, jobs, hjobs, rfl⟩ | ⟨pc, -, rfl, hpc⟩ | ⟨ht, -, rfl⟩
  · -- a job pays for the task's way to it
    simp only [State.work, HandlerTask.work, hjobs, List.length_cons]
    omega
  · rcases hpc with ⟨ht, rfl⟩ | ⟨ht, hclosed, rfl⟩ | ⟨ht, hclosed, rfl⟩ | ⟨ht, rfl⟩
    all_goals simp [State.work, HandlerTask.work, *]
  · simp [State.work, HandlerTask.work, ht]

/-- Each step of a task leaves less to do. -/
theorem work_lt {e : Event} (he : e.isTask = true) (h : step cfg c e = some c') :
    c'.work < c.work := by
  cases e with
  | reader => exact readerStep_work h
  | decode closed => exact decodeStep_work h
  | handle => exact handleStep_work h
  | receive =>
      simp only [step] at h
      split at h
      · rename_i hin
        cases h
        simp [State.work, hin]
      · cases h
  | accept _ _ | closeByPeer | timeLimit | release => cases he

variable (cfg) in
/-- No task can take a step. -/
def AtRest (c : State β τ) : Prop := ∀ e : Event, e.isTask = true → step cfg c e = none

/-- Where no task can take a step and the end has come, the stream is released, and nothing is left
in its queues. -/
theorem Flow.at_rest (hF : Flow cfg c data k) (hfin : c.finished = true) (hrest : AtRest cfg c) :
    c.decoder = .ended ∧ c.handlerTask = .ended ∧ c.inbox = [] := by
  have hinbox : c.inbox = [] := by
    have h := hrest .receive rfl
    simp only [step] at h
    split at h
    · cases h
    · assumption
  have hhandle : c.handlerTask = .ended ∨ (c.jobs = [] ∧ c.closed = false) := by
    have h := hrest .handle rfl
    simp only [step, handleStep] at h
    cases htask : c.handlerTask with
    | select =>
        simp only [htask, takeJob] at h
        split at h <;> cases h
    | lookClosed | running =>
        simp only [htask] at h
        cases h
    | waiting =>
        simp only [htask, takeJob] at h
        split at h
        · cases h
        · rename_i hjobs
          split at h
          · cases h
          · exact .inr ⟨hjobs, Bool.eq_false_iff.2 ‹_›⟩
    | ended => exact .inl rfl
  have hd := hF.decoder
  have hdecode := hrest (.decode false) rfl
  unfold DecoderOk at hd
  simp only [step, decodeStep] at hdecode
  have hended : c.decoder = .ended := by
    cases hdec : c.decoder with
    | select =>
        -- the marker is on its way, or in the incoming queue
        simp only [hdec, Bool.false_eq_true, if_false] at hdecode hd
        obtain ⟨hreg, hopen, hk⟩ := hd
        have hin : c.incoming = [] := by
          split at hdecode
          · assumption
          · cases hdecode
          · split at hdecode <;> cases hdecode
        have hm : c.marked = true := by
          have hr := hF.reader
          have hstep := hrest .reader rfl
          have hroom : c.incoming.length < cfg.incomingSize := by
            rw [hin]
            exact cfg.incoming_pos
          have hdropped : c.incomingDropped = false := by rw [State.incomingDropped, hdec]
          unfold ReaderOk at hr
          simp only [step, readerStep] at hstep
          cases hreader : c.reader with
          | idle =>
              rw [hreader] at hr
              exact hr hfin
          | closeWait =>
              rw [hreader] at hr
              exact hr.2
          | marking | ended =>
              rw [hreader] at hr
              exact hr.2.1
          | sending payload fin => simp [hreader, hdropped, hroom] at hstep
          | queueFin | closeQueueFin => simp [hreader, queueFin, hdropped, hroom] at hstep
        have hpos := hk hm
        rw [hF.incoming] at hin
        obtain ⟨-, hrep⟩ := List.append_eq_nil_iff.mp hin
        rw [List.replicate_eq_nil_iff] at hrep
        omega
    | inboxQ raw =>
        simp only [hdec] at hd
        simp [hdec, hd.1.2.1, hinbox, cfg.inbox_pos] at hdecode
    | handlerQ raw msg =>
        simp only [hdec] at hd
        rcases hhandle with he | ⟨hjobs, -⟩
        · exact absurd (hF.handler he) (by simp [hd.1.2.1])
        · simp only [hdec, hjobs] at hdecode
          repeat' split at hdecode
          all_goals first | cases hdecode; done | skip
          exact absurd cfg.handler_pos ‹_›
    | removing | closing =>
        simp only [hdec] at hdecode
        cases hdecode
    | ended => rfl
  rw [hended] at hd
  exact ⟨hended, hhandle.resolve_right fun h => by simp [hd.2.1] at h, hinbox⟩

/-! ### Delivery -/

/-- An empty frame that is no FIN does nothing. -/
theorem accept_empty {flags : UInt8} (hfin : cfg.isFin flags = false)
    (h : step cfg c (.accept flags []) = some c') : c' = c := by
  have he : accept cfg c flags [] = { c with finished := false } := by simp [accept, hfin]
  simp only [step] at h
  split at h
  · rename_i hidle
    cases h
    simp only [Bool.and_eq_true, Bool.not_eq_true'] at hidle
    rw [he, ← hidle.2]
  · cases h

/-- Only its own steps move the handler task. -/
theorem handlerTask_of_step {e : Event} (hs : step cfg c e = some c') :
    e = .handle ∨ c'.handlerTask = c.handlerTask ∧ (c.handlerTask = .ended → c'.jobs = c.jobs) := by
  cases e with
  | handle => exact .inl rfl
  | accept flags payload =>
      simp only [step, accept] at hs
      repeat' split at hs
      all_goals cases hs
      all_goals exact .inr ⟨rfl, fun _ => rfl⟩
  | reader =>
      simp only [step, readerStep, queueFin] at hs
      repeat' split at hs
      all_goals cases hs
      all_goals exact .inr ⟨rfl, fun _ => rfl⟩
  | decode closed =>
      simp only [step, decodeStep, dispatchRaw] at hs
      repeat' split at hs
      all_goals cases hs
      all_goals refine .inr ⟨rfl, fun he => ?_⟩
      all_goals first | rfl | skip
      -- only `handler_q` has more to say: the queue of a task that has ended is not there
      rename_i hguard _
      simp [he] at hguard
  | closeByPeer | receive | timeLimit | release =>
      simp only [step] at hs
      repeat' split at hs
      all_goals cases hs
      all_goals exact .inr ⟨rfl, fun _ => rfl⟩

/-- Nothing takes a job once the handler task has ended. -/
theorem stays_ended {e : Event} (he : c.handlerTask = .ended) (hs : step cfg c e = some c') :
    c'.handlerTask = .ended ∧ c'.jobs = c.jobs := by
  rcases handlerTask_of_step hs with rfl | ⟨htask, hjobs⟩
  · simp [step, handleStep, he] at hs
  · exact ⟨htask.trans he, hjobs he⟩

/-- The handler task that is never overtaken ends with no job left. -/
theorem jobs_of_ended
    (h : (machine cfg).ReachableUnder (fun c e => Undisturbed cfg c e ∧ NotOvertaken c e) c) :
    c.handlerTask = .ended → c.jobs = [] := by
  refine h.invariant (I := fun c => c.handlerTask = .ended → c.jobs = []) ?_ ?_
  · rintro _ rfl he
    cases he
  · rintro c e c' hI ⟨-, hC⟩ hs he
    rcases handlerTask_of_step hs with rfl | ⟨htask, hjobs⟩
    · rcases handleStep_cases hs with
        ⟨-, job, jobs, -, rfl⟩ | ⟨pc, hpc, rfl, -⟩ | ⟨ht, hclosed, rfl⟩
      · cases he
      · exact absurd he hpc
      · exact hC ht hclosed
    · have hended := htask.symm.trans he
      exact (hjobs hended).trans (hI hended)

/-- A handler task that is overtaken ends, and leaves jobs that nothing runs any more. -/
theorem jobs_of_overtaken {e : Event} (hC : ¬NotOvertaken c e) (hs : step cfg c e = some c')
    {c'' : State β τ} (h : ((machine cfg).startAt c').Reachable c'') :
    c''.handlerTask = .ended ∧ c''.jobs ≠ [] ∧ c''.jobs = c'.jobs := by
  have hstart : c'.handlerTask = .ended ∧ c'.jobs ≠ [] := by
    cases e with
    | handle =>
        simp only [NotOvertaken, Classical.not_imp] at hC
        obtain ⟨ht, hclosed, hjobs⟩ := hC
        simp only [step, handleStep, ht, hclosed, if_true] at hs
        cases hs
        exact ⟨rfl, hjobs⟩
    | _ => exact absurd trivial hC
  refine h.invariant (I := fun s => s.handlerTask = .ended ∧ s.jobs ≠ [] ∧ s.jobs = c'.jobs) ?_ ?_
  · rintro _ rfl
    exact ⟨hstart.1, hstart.2, rfl⟩
  · rintro s e s' ⟨ht, hne, hjobs⟩ - hs
    obtain ⟨ht', hjobs'⟩ := stays_ended ht hs
    exact ⟨ht', hjobs' ▸ hne, hjobs'.trans hjobs⟩

/-- **When a stream delivers what it accepts.**  As long as the handler task is not overtaken: each
message once and in order, to the inbox or to the handler task according to its wire name.  The
stream is released at the peer's FIN or at the end of the connection only, with everything
dispatched; the handler task ends with no job left; an empty frame that is no FIN does nothing.
After the end, the tasks come to rest with the stream released, the inbox emptied and every job run.
A handler task that is overtaken leaves jobs that never run. -/
theorem delivered_in_order {c : State β τ}
    (h : (machine cfg).ReachableUnder (fun c e => Undisturbed cfg c e ∧ NotOvertaken c e) c) :
    (c.dispatched.map .ok <+: c.accepted.map cfg.decodeEnvelope ∧
      c.put = cfg.inboxOf c.dispatched ∧ c.run ++ c.jobs = cfg.jobsOf c.dispatched) ∧
    (c.registered = false →
      c.finished = true ∧ c.accepted.map cfg.decodeEnvelope = c.dispatched.map .ok) ∧
    (c.handlerTask = .ended → c.registered = false ∧ c.jobs = []) ∧
    (∀ flags c', cfg.isFin flags = false → step cfg c (.accept flags []) = some c' → c' = c) ∧
    (∀ e c', e.isTask = true → step cfg c e = some c' → c'.work < c.work) ∧
    (c.finished = true → AtRest cfg c →
      c.registered = false ∧ c.inbox = [] ∧ c.handlerTask = .ended) ∧
    ∀ e c', ¬NotOvertaken c e → step cfg c e = some c' →
      ∀ c'', ((machine cfg).startAt c').Reachable c'' →
        c''.handlerTask = .ended ∧ c''.jobs ≠ [] ∧ c''.jobs = c'.jobs := by
  obtain ⟨data, k, hF⟩ := inv_reachable (h.mono fun _ _ hC => hC.1)
  refine ⟨⟨?_, hF.put, hF.run⟩, fun hr => ⟨hF.finished (hF.marked_of_removed hr), ?_⟩,
    fun he => ⟨hF.removed_of_closed (hF.handler he), jobs_of_ended h he⟩,
    fun flags c' hfin hs => accept_empty hfin hs, fun e c' he hs => work_lt he hs,
    fun hfin hrest => ?_, fun e c' hC hs c'' h'' => jobs_of_overtaken hC hs h''⟩
  · rw [hF.accepted, List.map_append, List.append_assoc]
    exact List.prefix_append _ _
  · exact hF.accepted_of_removed hr
  · obtain ⟨hd, ht, hin⟩ := hF.at_rest hfin hrest
    exact ⟨hF.removed_of_closed (hF.handler ht), hin, ht⟩

/-- A stream whose messages begin with their wire name's only letter, and have a handler for "h". -/
def twoNames : Config (List UInt8) (List UInt8) where
  decodeEnvelope payload := .ok ⟨if payload.head? = some 104 then "h" else "i", payload.tail⟩
  handler wire := wire = "h"
  decodeRaw raw := .ok raw.body
  streamId := 7
  incomingSize := 1
  inboxSize := 1
  handlerSize := 1
  incoming_pos := Nat.one_pos
  inbox_pos := Nat.one_pos
  handler_pos := Nat.one_pos

/-- A job, an empty frame and a message with the FIN, through queues of one place. -/
def twoFrames : List Event :=
  [.accept 0 [104, 1], .reader, .accept 0 [], .decode false, .accept 1 [105, 2], .reader,
    .decode false, .decode false, .reader, .decode false, .decode false, .decode false, .decode false,
    .handle, .handle, .handle, .handle, .receive]

def twoDelivered : State (List UInt8) (List UInt8) where
  registered := false
  closed := true
  incoming := []
  inbox := []
  jobs := []
  reader := .idle
  decoder := .ended
  handlerTask := .ended
  accepted := [[104, 1], [105, 2]]
  dispatched := [⟨"h", [1]⟩, ⟨"i", [2]⟩]
  put := [⟨"i", [2]⟩]
  run := [("h", [1])]
  finished := true
  marked := true

theorem delivered_in_order_two :
    (machine twoNames).ReachableUnder (fun c e => Undisturbed twoNames c e ∧ NotOvertaken c e)
      twoDelivered ∧
    twoDelivered.accepted.map twoNames.decodeEnvelope = twoDelivered.dispatched.map .ok := by
  have h : (machine twoNames).ReachableUnder
      (fun c e => Undisturbed twoNames c e ∧ NotOvertaken c e) twoDelivered :=
    .exec twoFrames (.init rfl) (by decide) (by decide)
  exact ⟨h, ((delivered_in_order h).2.1 rfl).2⟩

/-- The handler task finds its queue empty; a job is queued and the stream released; and then the
handler task looks at the end of the stream. -/
def overtakenFrames : List Event :=
  [.handle, .accept 1 [104, 1], .reader, .decode false, .reader, .decode false, .decode false,
    .decode false, .decode false, .handle]

def overtaken : State (List UInt8) (List UInt8) where
  registered := false
  closed := true
  incoming := []
  inbox := []
  jobs := [("h", [1])]
  reader := .idle
  decoder := .ended
  handlerTask := .ended
  accepted := [[104, 1]]
  dispatched := [⟨"h", [1]⟩]
  put := []
  run := []
  finished := true
  marked := true

/-- A job queued before the stream is released does not run. -/
theorem queued_job_lost :
    (machine twoNames).ReachableUnder (Undisturbed twoNames) overtaken ∧ overtaken.finished = true ∧
      AtRest twoNames overtaken ∧ overtaken.jobs = [("h", [1])] ∧ overtaken.run = [] := by
  refine ⟨.exec overtakenFrames (.init rfl) (by decide) (by decide), rfl, ?_, rfl, rfl⟩
  intro e he
  cases e with
  | reader | handle | receive => rfl
  | decode closed => cases closed <;> rfl
  | accept _ _ | closeByPeer | timeLimit | release => cases he

end AdaptiveMsg.Delivery
