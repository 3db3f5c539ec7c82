import AdaptiveMsg.Machine.Run
import AdaptiveMsg.Replay

/-!
# Stream — the handler task and its replies

The handler task of a stream takes a job, calls its handler and sends the reply: the handler's
message, `OkReply`, or `ErrorReply`.  It drops the result of `send_boxed`, so a reply that is not
accepted for sending is lost and nothing takes its place.

The model has one stream with its handler task, the outbound queue of its connection, and in v3 the
writer that stages what is queued.  Other tasks of the connection queue frames of their own and take
the stream's send lock.  How a message is encoded is a parameter.

* `Sendable`: the reply is encodable, within the negotiated max frame, and in v3 within the replay
  buffer.
* `replied_iff`: whenever the task is between two jobs, a job taken has exactly one reply if and
  only if its reply is sendable, and otherwise none.
* `reply_lost`: a reply above the max frame.
-/

namespace AdaptiveMsg.Handler

/-! ### Replies -/

/-- A message the handler task sends. -/
inductive Reply (α : Type) where
  | message (msg : α)
  | okReply
  | errorReply (code message : String)
  deriving DecidableEq, Repr

/-- What a handler returns; an error by its text. -/
inductive Outcome (α : Type) where
  | some (msg : α)
  | none
  | err (text : String)
  deriving DecidableEq, Repr

/-- The reply that the handler task makes of it. -/
def Outcome.reply {α : Type} : Outcome α → Reply α
  | .some msg => .message msg
  | .none => .okReply
  | .err text => .errorReply "handler_error" text

/-- The replay buffer of a v3 connection. -/
structure RecoveryConfig where
  headerLen : Nat
  maxReplayBytes : Int
  deriving DecidableEq, Repr

/-- What was negotiated for the connection, and the stream's ID. -/
structure Config (α : Type) where
  encode : Reply α → Except Error (List UInt8)
  maxFrame : Nat
  recovery : Option RecoveryConfig
  /-- The capacity of the outbound queue. -/
  capacity : Nat
  streamId : Nat

namespace Config

variable {α : Type} (cfg : Config α)

def encodeMessage (msg : Reply α) : Except Error (List UInt8) :=
  match cfg.encode msg with
  | .error err => .error err
  | .ok payload =>
    if payload.length > cfg.maxFrame then .error (.frameTooLarge payload.length) else .ok payload

/-- The data frame of the stream with this payload. -/
def frame (payload : List UInt8) : Frame := ⟨cfg.streamId, 0, payload⟩

/-- The replay buffer, if there is one, can ever take the frame. -/
def Admits (frame : Frame) : Prop :=
  ∀ r ∈ cfg.recovery, 0 < r.maxReplayBytes → ReplayBuffer.frameSize r.headerLen frame ≤ r.maxReplayBytes

instance : DecidablePred cfg.Admits := fun frame =>
  inferInstanceAs (Decidable (∀ r ∈ cfg.recovery, 0 < r.maxReplayBytes →
    ReplayBuffer.frameSize r.headerLen frame ≤ r.maxReplayBytes))

/-- A reply that `send_boxed` accepts on an open stream. -/
def Sendable (msg : Reply α) : Prop :=
  match cfg.encodeMessage msg with
  | .ok payload => cfg.Admits (cfg.frame payload)
  | .error _ => False

instance : DecidablePred cfg.Sendable := fun msg =>
  match h : cfg.encodeMessage msg with
  | .ok payload => decidable_of_iff (cfg.Admits (cfg.frame payload)) (by simp only [Sendable, h])
  | .error _ => isFalse (by simp only [Sendable, h, not_false_eq_true])

end Config

/-! ### State -/

/-- A frame in the outbound queue, with the job it replies to (not part of the program's state). -/
structure Outbound where
  frame : Frame
  job : Option Nat
  deriving DecidableEq, Repr

/-- Where the handler task is. -/
inductive Pc (α : Type) where
  | idle
  | handling
  /-- In `send_boxed`, waiting for the send lock. -/
  | locking (msg : Reply α)
  /-- In `enqueue_frame`, waiting for room in the outbound queue. -/
  | pushing (payload : List UInt8)
  /-- In `enqueue_frame`, waiting for the writer's answer. -/
  | waiting (payload : List UInt8)
  | ended
  deriving DecidableEq, Repr

structure State (α : Type) where
  /-- The messages of the jobs queued for the handler task. -/
  jobs : List α
  pc : Pc α
  /-- Another task holds the stream's send lock. -/
  locked : Bool
  finStarted : Bool
  closed : Bool
  closing : Bool
  outbound : List Outbound
  /-- The replay buffer of a v3 connection. -/
  replay : Option ReplayBuffer
  nextSendSeq : Nat
  held : Option Outbound
  /-- The writer's answer to the handler task. -/
  queued : Option (Except Error Unit)
  /-- The number of jobs taken (not part of the program's state). -/
  taken : Nat
  /-- The replies made, by job (not part of the program's state). -/
  replies : List (Reply α)
  /-- The frames accepted for sending, in order (not part of the program's state). -/
  enqueued : List Outbound

inductive Event (α : Type) where
  /-- The decode task queues a job. -/
  | job (msg : α)
  | take
  | handled (outcome : Outcome α)
  /-- The handler task gets the send lock. -/
  | lock
  | push
  /-- The handler task gets the writer's answer. -/
  | answer
  | otherLock
  | otherUnlock
  /-- Another task queues a frame. -/
  | otherPush (frame : Frame)
  /-- The writer takes the next frame. -/
  | write
  /-- The peer acknowledges what it has received. -/
  | ack (lastSeq : Nat)
  | finStart
  /-- The stream closes, and with it the channel of jobs. -/
  | close
  | closing
  /-- The handler task ends with its stream. -/
  | stop
  /-- A send of the handler task fails because its connection closed. -/
  | fail
  deriving DecidableEq, Repr

/-! ### Steps -/

section step

variable {α : Type}

def State.initial (cfg : Config α) : State α where
  jobs := []
  pc := .idle
  locked := false
  finStarted := false
  closed := false
  closing := false
  outbound := []
  replay := cfg.recovery.map fun r => .new r.headerLen r.maxReplayBytes
  nextSendSeq := 0
  held := none
  queued := none
  taken := 0
  replies := []
  enqueued := []

variable (cfg : Config α) (s : State α)

/-- The writer answers the task that queued the frame. -/
def State.answered (item : Outbound) (result : Except Error Unit) : State α :=
  if item.job.isSome then { s with queued := some result } else s

/-- `RecoveryWriter::stage`. -/
def State.stage (replay : ReplayBuffer) (item : Outbound) : State α :=
  match replay.stage item.frame (s.nextSendSeq + 1) with
  | .ok (.kept _, replay) =>
    State.answered { s with
      nextSendSeq := s.nextSendSeq + 1
      replay := some replay
      enqueued := s.enqueued ++ [item] } item (.ok ())
  | .ok (.full _, _) => { s with held := some item }
  | .error err => s.answered item (.error err)

/-- `send_boxed` once it has the lock, up to the outbound queue. -/
def State.sendBoxed (msg : Reply α) : State α :=
  if s.finStarted ∨ s.closed then { s with pc := .idle }
  else
    match cfg.encodeMessage msg with
    | .error _ => { s with pc := .idle }
    | .ok payload => if s.closing then { s with pc := .idle } else { s with pc := .pushing payload }

/-- The outbound queue takes the reply; in v3 the writer has yet to answer. -/
def State.push (payload : List UInt8) : State α :=
  let item : Outbound := ⟨cfg.frame payload, some (s.taken - 1)⟩
  match s.replay with
  | none => { s with pc := .idle, outbound := s.outbound ++ [item], enqueued := s.enqueued ++ [item] }
  | some _ => { s with pc := .waiting payload, outbound := s.outbound ++ [item] }

def State.otherPush (frame : Frame) : State α :=
  let item : Outbound := ⟨frame, none⟩
  match s.replay with
  | none => { s with outbound := s.outbound ++ [item], enqueued := s.enqueued ++ [item] }
  | some _ => { s with outbound := s.outbound ++ [item] }

/-- A held frame goes before those queued. -/
def State.write : Option (State α) :=
  match s.replay, s.held, s.outbound with
  | none, _, _ :: outbound => some { s with outbound := outbound }
  | some replay, some item, _ => some (State.stage { s with held := none } replay item)
  | some replay, none, item :: outbound => some (State.stage { s with outbound := outbound } replay item)
  | _, _, [] => none

def State.step : Event α → Option (State α)
  | .job msg => if s.closed then none else some { s with jobs := s.jobs ++ [msg] }
  | .take =>
    match s.pc, s.jobs with
    | .idle, _ :: jobs => some { s with pc := .handling, jobs := jobs, taken := s.taken + 1 }
    | _, _ => none
  | .handled outcome =>
    match s.pc with
    | .handling => some { s with pc := .locking outcome.reply, replies := s.replies ++ [outcome.reply] }
    | _ => none
  | .lock =>
    match s.pc with
    | .locking msg => if s.locked then none else some (s.sendBoxed cfg msg)
    | _ => none
  | .push =>
    match s.pc with
    | .pushing payload => if s.outbound.length < cfg.capacity then some (s.push cfg payload) else none
    | _ => none
  | .answer =>
    match s.pc, s.queued with
    | .waiting _, some _ => some { s with pc := .idle, queued := none }
    | _, _ => none
  | .otherLock =>
    match s.pc with
    | .pushing _ | .waiting _ => none
    | _ => if s.locked then none else some { s with locked := true }
  | .otherUnlock => if s.locked then some { s with locked := false } else none
  | .otherPush frame =>
    if s.outbound.length < cfg.capacity then some (s.otherPush frame) else none
  | .write => s.write
  | .ack lastSeq =>
    if lastSeq ≤ s.nextSendSeq then some { s with replay := s.replay.map fun b => b.ack lastSeq }
    else none
  | .finStart => some { s with finStarted := true }
  | .close => some { s with closed := true }
  | .closing => some { s with closing := true }
  | .stop =>
    -- Jobs queued before the stream closed still run.
    match s.pc, s.jobs with
    | .idle, [] => if s.closed then some { s with pc := .ended } else none
    | _, _ => none
  | .fail =>
    match s.pc with
    | .pushing _ | .waiting _ => if s.closing then some { s with pc := .idle } else none
    | _ => none

def machine : Machine (State α) (Event α) where
  init s := s = .initial cfg
  step s := s.step cfg

end step

/-! ### The frames of a job -/

section replies

variable {α : Type} {cfg : Config α} {s s' : State α} {ev : Event α}

namespace Config

variable (cfg : Config α)

/-- The frames that a reply comes to on an open stream. -/
def accepted (msg : Reply α) : List Frame :=
  match cfg.encodeMessage msg with
  | .ok payload => if cfg.Admits (cfg.frame payload) then [cfg.frame payload] else []
  | .error _ => []

variable {cfg} {msg : Reply α} {payload : List UInt8}

theorem accepted_of_admits (he : cfg.encodeMessage msg = .ok payload)
    (ha : cfg.Admits (cfg.frame payload)) : cfg.accepted msg = [cfg.frame payload] := by
  simp only [accepted, he, if_pos ha]

theorem accepted_of_not_admits (he : cfg.encodeMessage msg = .ok payload)
    (ha : ¬cfg.Admits (cfg.frame payload)) : cfg.accepted msg = [] := by
  simp only [accepted, he, if_neg ha]

theorem accepted_of_error {err : Error} (he : cfg.encodeMessage msg = .error err) :
    cfg.accepted msg = [] := by
  simp only [accepted, he]

/-- A reply comes to one frame exactly if it is sendable. -/
theorem length_accepted : (cfg.accepted msg).length = if cfg.Sendable msg then 1 else 0 := by
  cases he : cfg.encodeMessage msg with
  | error err => simp [accepted, Sendable, he]
  | ok payload =>
      by_cases ha : cfg.Admits (cfg.frame payload)
      · simp [accepted, Sendable, he, ha]
      · simp [accepted, Sendable, he, ha]

end Config

namespace State

/-- The reply frames of a job. -/
def repliesTo (s : State α) (i : Nat) : List Frame :=
  (s.enqueued.filter fun item => item.job = some i).map Outbound.frame

/-- The reply frames on their way to the writer. -/
def pending (s : State α) : List Outbound :=
  (s.held.toList ++ s.outbound).filter fun item => item.job.isSome

/-- Neither the stream nor the connection is closing. -/
def Open (s : State α) : Prop := s.finStarted = false ∧ s.closed = false ∧ s.closing = false

end State

/-- The jobs up to `done` have their frames, and `items` are on their way. -/
structure Settled (cfg : Config α) (s : State α) (done : List (Reply α)) (items : List Outbound) :
    Prop where
  replies : ∀ i, s.repliesTo i = (done[i]?).elim [] cfg.accepted
  pending : s.replay.isSome → s.pending = items

/-- What has become of the replies, by where the handler task is. -/
def TaskInv (cfg : Config α) (s : State α) : Prop :=
  match s.pc with
  | .idle | .ended => s.taken = s.replies.length ∧ s.queued = none ∧ Settled cfg s s.replies []
  | .handling => s.taken = s.replies.length + 1 ∧ s.queued = none ∧ Settled cfg s s.replies []
  | .locking msg => ∃ done, s.replies = done ++ [msg] ∧ s.taken = done.length + 1 ∧
      s.queued = none ∧ Settled cfg s done []
  | .pushing payload => ∃ done msg, s.replies = done ++ [msg] ∧ s.taken = done.length + 1 ∧
      cfg.encodeMessage msg = .ok payload ∧ s.queued = none ∧ Settled cfg s done []
  | .waiting payload => ∃ done msg, s.replies = done ++ [msg] ∧ s.taken = done.length + 1 ∧
      cfg.encodeMessage msg = .ok payload ∧ s.replay.isSome ∧
      (s.queued = none ∧ Settled cfg s done [⟨cfg.frame payload, some done.length⟩] ∨
        s.queued.isSome ∧ Settled cfg s s.replies [])

/-- The replay buffer is there exactly in v3, and keeps what was accepted. -/
structure ReplayInv (cfg : Config α) (s : State α) : Prop where
  recovery : s.replay.isSome = cfg.recovery.isSome
  seq : s.replay.isSome → s.nextSendSeq = s.enqueued.length
  keeps : ∀ b ∈ s.replay, b.Keeps (s.enqueued.map Outbound.frame)
  limits : ∀ b ∈ s.replay, ∀ r ∈ cfg.recovery, b.headerLen = r.headerLen ∧ b.maxBytes = r.maxReplayBytes

structure Inv (cfg : Config α) (s : State α) : Prop where
  replay : ReplayInv cfg s
  task : s.Open → TaskInv cfg s

/-! ### Steps that leave the replies alone -/

theorem Settled.congr {done : List (Reply α)} {items : List Outbound} (h : Settled cfg s done items)
    (he : ∀ i, s'.repliesTo i = s.repliesTo i) (hr : s'.replay.isSome = s.replay.isSome)
    (hp : s.replay.isSome → s'.pending = s.pending) : Settled cfg s' done items :=
  ⟨fun i => (he i).trans (h.replies i), fun hs =>
    (hp (hr ▸ hs)).trans (h.pending (hr ▸ hs))⟩

/-- A step of another task. -/
theorem TaskInv.congr (h : TaskInv cfg s) (hpc : s'.pc = s.pc) (hreplies : s'.replies = s.replies)
    (htaken : s'.taken = s.taken) (hqueued : s'.queued = s.queued)
    (he : ∀ i, s'.repliesTo i = s.repliesTo i) (hr : s'.replay.isSome = s.replay.isSome)
    (hp : s.replay.isSome → s'.pending = s.pending) : TaskInv cfg s' := by
  have hs : ∀ {done items}, Settled cfg s done items → Settled cfg s' done items :=
    fun h => h.congr he hr hp
  rw [TaskInv] at h ⊢
  rw [hpc, hreplies, htaken, hqueued, hr]
  cases hpc' : s.pc with
  | idle | ended | handling =>
      rw [hpc'] at h
      exact ⟨h.1, h.2.1, hs h.2.2⟩
  | locking msg =>
      rw [hpc'] at h
      obtain ⟨done, hd, ht, hq, h⟩ := h
      exact ⟨done, hd, ht, hq, hs h⟩
  | pushing payload =>
      rw [hpc'] at h
      obtain ⟨done, msg, hd, ht, henc, hq, h⟩ := h
      exact ⟨done, msg, hd, ht, henc, hq, hs h⟩
  | waiting payload =>
      rw [hpc'] at h
      obtain ⟨done, msg, hd, ht, henc, hrec, h⟩ := h
      exact ⟨done, msg, hd, ht, henc, hrec, h.imp (fun h => ⟨h.1, hs h.2⟩) fun h => ⟨h.1, hs h.2⟩⟩

/-! ### The writer's answer -/

theorem State.repliesTo_append {item : Outbound} {i : Nat} (he : s'.enqueued = s.enqueued ++ [item]) :
    s'.repliesTo i = s.repliesTo i ++ if item.job = some i then [item.frame] else [] := by
  simp only [State.repliesTo, he, List.filter_append, List.map_append]
  by_cases hi : item.job = some i <;> simp [hi]

/-- A job's reply is on its way to the writer only while the handler task waits. -/
theorem TaskInv.of_pending (h : TaskInv cfg s) {item : Outbound} {rest : List Outbound}
    (hr : s.replay.isSome) (hp : s.pending = item :: rest) :
    ∃ payload done msg, s.pc = .waiting payload ∧ s.replies = done ++ [msg] ∧
      s.taken = done.length + 1 ∧ cfg.encodeMessage msg = .ok payload ∧
      item = ⟨cfg.frame payload, some done.length⟩ ∧ rest = [] ∧
      ∀ i, s.repliesTo i = (done[i]?).elim [] cfg.accepted := by
  have hne : ∀ {done}, ¬Settled cfg s done [] := fun h => by
    rw [h.pending hr] at hp
    cases hp
  rw [TaskInv] at h
  -- Only in `waiting` the reply is with the writer.
  cases hpc : s.pc with
  | idle | ended | handling =>
      rw [hpc] at h
      exact absurd h.2.2 hne
  | locking msg =>
      rw [hpc] at h
      obtain ⟨done, -, -, -, h⟩ := h
      exact absurd h hne
  | pushing payload =>
      rw [hpc] at h
      obtain ⟨done, msg, -, -, -, -, h⟩ := h
      exact absurd h hne
  | waiting payload =>
      rw [hpc] at h
      obtain ⟨done, msg, hd, ht, henc, -, ⟨-, h⟩ | ⟨-, h⟩⟩ := h
      · rw [h.pending hr, List.cons.injEq] at hp
        exact ⟨payload, done, msg, rfl, hd, ht, henc, hp.1.symm, hp.2.symm, h.replies⟩
      · exact absurd h hne

/-- The frames of one more reply. -/
theorem replies_snoc {done : List (Reply α)} {msg : Reply α}
    (h : ∀ i, s.repliesTo i = (done[i]?).elim [] cfg.accepted)
    (he : ∀ i, s'.repliesTo i = s.repliesTo i ++ if i = done.length then cfg.accepted msg else [])
    (i : Nat) : s'.repliesTo i = ((done ++ [msg])[i]?).elim [] cfg.accepted := by
  rw [he, h]
  by_cases hi : i < done.length
  · rw [if_neg (by omega), List.append_nil, List.getElem?_append_left hi]
  · have hnone : done[i]? = none := List.getElem?_eq_none (by omega)
    rw [hnone, List.getElem?_append_right (by omega), Option.elim_none, List.nil_append]
    by_cases heq : i = done.length
    · rw [if_pos heq, heq, Nat.sub_self]
      rfl
    · rw [if_neg heq, List.getElem?_eq_none (by simp only [List.length_singleton]; omega)]
      rfl

/-- The task is answered: its reply has the frames it comes to. -/
theorem TaskInv.answered {payload : List UInt8} {done : List (Reply α)} {msg : Reply α}
    (hpc : s'.pc = .waiting payload) (hd : s'.replies = done ++ [msg]) (ht : s'.taken = done.length + 1)
    (henc : cfg.encodeMessage msg = .ok payload) (hr : s'.replay.isSome) (hq : s'.queued.isSome)
    (hp : s'.pending = [])
    (hreplies : ∀ i, s.repliesTo i = (done[i]?).elim [] cfg.accepted)
    (he : ∀ i, s'.repliesTo i = s.repliesTo i ++ if i = done.length then cfg.accepted msg else []) :
    TaskInv cfg s' := by
  rw [TaskInv, hpc]
  refine ⟨done, msg, hd, ht, henc, hr, .inr ⟨hq, fun i => ?_, fun _ => hp⟩⟩
  rw [hd]
  exact replies_snoc hreplies he i

/-! ### The writer -/

theorem ReplayInv.stage {b b' : ReplayBuffer} {item : Outbound} (h : ReplayInv cfg s)
    (hb : s.replay = some b) (hk : b'.Keeps ((s.enqueued ++ [item]).map Outbound.frame))
    (hh : b'.headerLen = b.headerLen) (hm : b'.maxBytes = b.maxBytes)
    (hreplay : s'.replay = some b') (hseq : s'.nextSendSeq = s.nextSendSeq + 1)
    (he : s'.enqueued = s.enqueued ++ [item]) : ReplayInv cfg s' := by
  have hsome : s.replay.isSome := by rw [hb]; rfl
  refine ⟨?_, fun _ => ?_, fun b₁ hb₁ => ?_, fun b₁ hb₁ r hr => ?_⟩
  · rw [hreplay, ← h.recovery, hb]
    rfl
  · rw [hseq, he, h.seq hsome, List.length_append]
    rfl
  · cases hreplay.symm.trans hb₁
    rw [he]
    exact hk
  · cases hreplay.symm.trans hb₁
    rw [hh, hm]
    exact h.limits b hb r hr

theorem ReplayInv.congr (h : ReplayInv cfg s) (hr : s'.replay = s.replay)
    (hn : s'.nextSendSeq = s.nextSendSeq) (he : s'.replay.isSome → s'.enqueued = s.enqueued) :
    ReplayInv cfg s' := by
  refine ⟨?_, fun hs => ?_, fun b hb => ?_, fun b hb => ?_⟩
  · rw [hr]
    exact h.recovery
  · rw [hn, he hs]
    exact h.seq (hr ▸ hs)
  · rw [he (Option.isSome_of_mem hb)]
    exact h.keeps b (hr ▸ hb)
  · exact h.limits b (hr ▸ hb)

/-- The frame fits the buffer once the frames kept are gone. -/
theorem ReplayInv.admits_iff {b : ReplayBuffer} (h : ReplayInv cfg s) (hb : s.replay = some b)
    (frame : Frame) :
    cfg.Admits frame ↔ (0 < b.maxBytes → ReplayBuffer.frameSize b.headerLen frame ≤ b.maxBytes) := by
  have hrec := h.recovery
  rw [hb, Option.isSome_some, eq_comm, Option.isSome_iff_exists] at hrec
  obtain ⟨r, hr⟩ := hrec
  obtain ⟨hh, hm⟩ := h.limits b hb r hr
  rw [hh, hm]
  simp [Config.Admits, hr]

theorem Inv.stage (hI : Inv cfg s) {b : ReplayBuffer} (hb : s.replay = some b) {item : Outbound}
    {rest : List Outbound}
    (hp : s.pending = (if item.job.isSome then [item] else []) ++
      State.pending { s with held := none, outbound := rest }) :
    Inv cfg (State.stage { s with held := none, outbound := rest } b item) := by
  have hsome : s.replay.isSome := by rw [hb]; rfl
  have hkeeps := hI.replay.keeps b hb
  have hseq : s.nextSendSeq + 1 = (s.enqueued.map Outbound.frame).length + 1 := by
    rw [hI.replay.seq hsome, List.length_map]
  have hadmits := hI.replay.admits_iff hb item.frame
  rcases hkeeps.stage item.frame with ⟨b', hst, hk, hh, hm, -, hfit⟩ | ⟨hst, -⟩ | ⟨hst, hmax, hbig⟩
  · -- The frame is kept.
    rw [← hseq] at hst
    simp only [State.stage, hst, State.answered]
    -- The buffer keeps the frame behind those kept before.
    have hk' : b'.Keeps ((s.enqueued ++ [item]).map Outbound.frame) := by
      rw [List.map_append]
      exact hk
    have hrep : ∀ {s'}, _ → _ → _ → ReplayInv cfg s' := hI.replay.stage hb hk' hh hm
    have hadm : cfg.Admits item.frame := hadmits.mpr fun hmax => by
      have := hfit hmax
      have := hkeeps.usedBytes_nonneg
      omega
    cases hj : item.job with
    | none =>
        rw [hj] at hp
        refine ⟨hrep rfl rfl rfl, fun hopen => ?_⟩
        refine (hI.task hopen).congr rfl rfl rfl rfl (fun i => ?_) ?_ fun _ => ?_
        · refine (State.repliesTo_append rfl).trans ?_
          rw [hj]
          simp
        · rw [hb]
          rfl
        · exact hp.symm
    | some j =>
        rw [hj] at hp
        simp only [Option.isSome_some, if_true]
        refine ⟨hrep rfl rfl rfl, fun hopen => ?_⟩
        obtain ⟨payload, done, msg, hpc, hd, ht, henc, rfl, hrest, hreplies⟩ :=
          (hI.task hopen).of_pending hsome hp
        refine .answered (s := s) hpc hd ht henc rfl rfl hrest hreplies fun i => ?_
        rw [State.repliesTo_append (s := s) rfl, Config.accepted_of_admits henc hadm]
        simp [eq_comm]
  · -- The frame is held.
    rw [← hseq] at hst
    simp only [State.stage, hst]
    refine ⟨hI.replay.congr rfl rfl fun _ => rfl, fun hopen => ?_⟩
    refine (hI.task hopen).congr rfl rfl rfl rfl (fun _ => rfl) rfl fun _ => ?_
    rw [hp]
    cases hj : item.job <;> simp [State.pending, hj]
  · -- The frame can never be kept.
    rw [← hseq] at hst
    simp only [State.stage, hst, State.answered]
    have hrep : ∀ {s' : State α}, s'.replay = s.replay → _ → _ → ReplayInv cfg s' :=
      fun h₁ h₂ h₃ => hI.replay.congr h₁ h₂ h₃
    have hadm : ¬cfg.Admits item.frame := fun h => by
      have := hadmits.mp h hmax
      omega
    cases hj : item.job with
    | none =>
        rw [hj] at hp
        exact ⟨hrep rfl rfl fun _ => rfl, fun hopen => (hI.task hopen).congr rfl rfl rfl rfl
          (fun _ => rfl) rfl fun _ => hp.symm⟩
    | some j =>
        rw [hj] at hp
        simp only [Option.isSome_some, if_true]
        refine ⟨hrep rfl rfl fun _ => rfl, fun hopen => ?_⟩
        obtain ⟨payload, done, msg, hpc, hd, ht, henc, rfl, hrest, hreplies⟩ :=
          (hI.task hopen).of_pending hsome hp
        refine .answered (s := s) hpc hd ht henc hsome rfl hrest hreplies fun i => ?_
        rw [Config.accepted_of_not_admits henc hadm, ite_self, List.append_nil]
        rfl

theorem inv_write (hI : Inv cfg s) (h : s.write = some s') : Inv cfg s' := by
  simp only [State.write] at h
  split at h
  · rename_i hr _
    cases h
    refine ⟨hI.replay.congr rfl rfl fun _ => rfl, fun hopen => (hI.task hopen).congr rfl rfl rfl rfl
      (fun _ => rfl) rfl fun hs => ?_⟩
    rw [hr] at hs
    cases hs
  · rename_i b item hb hheld
    cases h
    -- The held frame is tried again.
    refine Inv.stage hI hb (show s.pending = (if item.job.isSome then [item] else []) ++
      State.pending { s with held := none, outbound := s.outbound } from ?_)
    simp only [State.pending, hheld, Option.toList_some, Option.toList_none, List.nil_append,
      List.singleton_append, List.filter_cons]
    cases item.job <;> simp
  · rename_i b item rest hb hheld hout
    cases h
    have hs : ({ s with outbound := rest } : State α) = { s with held := none, outbound := rest } := by
      rw [← hheld]
    rw [hs]
    -- The next frame of the queue is tried.
    refine hI.stage hb ?_
    simp only [State.pending, hheld, hout, Option.toList_none, List.nil_append, List.filter_cons]
    cases item.job <;> simp
  · cases h

/-! ### The handler task -/

theorem inv_push {payload : List UInt8} (hI : Inv cfg s) (hpc : s.pc = .pushing payload) :
    Inv cfg (s.push cfg payload) := by
  have htask : s.Open → ∃ done msg, s.replies = done ++ [msg] ∧ s.taken = done.length + 1 ∧
      cfg.encodeMessage msg = .ok payload ∧ s.queued = none ∧ Settled cfg s done [] := fun hopen => by
    have h := hI.task hopen
    rw [TaskInv, hpc] at h
    exact h
  rw [State.push]
  split
  · -- In v2 the frame is accepted once it is queued.
    rename_i hr
    refine ⟨⟨hI.replay.recovery, fun hs => ?_, fun b hb => ?_, fun b hb => ?_⟩, fun hopen => ?_⟩
    · rw [hr] at hs
      cases hs
    · rw [hr] at hb
      cases hb
    · rw [hr] at hb
      cases hb
    · obtain ⟨done, msg, hd, ht, henc, hq, h⟩ := htask hopen
      have hrec := hI.replay.recovery
      rw [hr, Option.isSome_none, eq_comm, Option.isSome_eq_false_iff, Option.isNone_iff_eq_none] at hrec
      have hadm : cfg.Admits (cfg.frame payload) := by simp [Config.Admits, hrec]
      refine ⟨by rw [ht, hd, List.length_append]; rfl, hq, fun i => ?_, fun hs => ?_⟩
      · rw [hd]
        refine replies_snoc h.replies (fun i => ?_) i
        rw [State.repliesTo_append (s := s) rfl, Config.accepted_of_admits henc hadm, ht]
        simp [eq_comm]
      · rw [hr] at hs
        cases hs
  · rename_i b hr
    refine ⟨hI.replay.congr rfl rfl fun _ => rfl, fun hopen => ?_⟩
    -- In v3 the task waits for the writer to answer for the frame.
    obtain ⟨done, msg, hd, ht, henc, hq, h⟩ := htask hopen
    have hsome : s.replay.isSome := by rw [hr]; rfl
    refine ⟨done, msg, hd, ht, henc, hsome, .inl ⟨hq, h.replies, fun _ => ?_⟩⟩
    have hp := h.pending hsome
    simp only [State.pending, List.filter_append, List.append_eq_nil_iff] at hp ⊢
    simp [hp.1, hp.2, ht]

theorem inv_lock {msg : Reply α} (hI : Inv cfg s) (hpc : s.pc = .locking msg) :
    Inv cfg (s.sendBoxed cfg msg) := by
  have htask : s.Open → ∃ done, s.replies = done ++ [msg] ∧ s.taken = done.length + 1 ∧
      s.queued = none ∧ Settled cfg s done [] := fun hopen => by
    have h := hI.task hopen
    rw [TaskInv, hpc] at h
    exact h
  rw [State.sendBoxed]
  split
  · rename_i hclosed
    refine ⟨hI.replay.congr rfl rfl fun _ => rfl, fun hopen => ?_⟩
    rcases hclosed with hc | hc
    · cases hopen.1.symm.trans hc
    · cases hopen.2.1.symm.trans hc
  · split
    · -- The reply is dropped, and comes to no frame.
      rename_i err henc
      have hdrop : cfg.accepted msg = [] := Config.accepted_of_error henc
      refine ⟨hI.replay.congr rfl rfl fun _ => rfl, fun hopen => ?_⟩
      obtain ⟨done, hd, ht, hq, h⟩ := htask hopen
      refine ⟨by rw [ht, hd, List.length_append]; rfl, hq, fun i => ?_, h.pending⟩
      rw [hd]
      refine replies_snoc h.replies (fun i => ?_) i
      rw [hdrop, ite_self, List.append_nil]
      rfl
    · rename_i payload henc
      split
      · rename_i hclosing
        refine ⟨hI.replay.congr rfl rfl fun _ => rfl, fun hopen => ?_⟩
        cases hopen.2.2.symm.trans hclosing
      · refine ⟨hI.replay.congr rfl rfl fun _ => rfl, fun hopen => ?_⟩
        obtain ⟨done, hd, ht, hq, h⟩ := htask hopen
        exact ⟨done, msg, hd, ht, henc, hq, h.congr (fun _ => rfl) rfl fun _ => rfl⟩

/-- A frame of another task. -/
theorem inv_otherPush (hI : Inv cfg s) (frame : Frame) : Inv cfg (s.otherPush frame) := by
  rw [State.otherPush]
  split
  · rename_i hr
    refine ⟨⟨hI.replay.recovery, fun hs => ?_, fun b hb => ?_, fun b hb => ?_⟩, fun hopen => ?_⟩
    · rw [hr] at hs
      cases hs
    · rw [hr] at hb
      cases hb
    · rw [hr] at hb
      cases hb
    · -- The frame belongs to no job.
      refine (hI.task hopen).congr rfl rfl rfl rfl (fun i => ?_) rfl fun hs => ?_
      · rw [State.repliesTo_append (s := s) rfl]
        simp
      · rw [hr] at hs
        cases hs
  · refine ⟨hI.replay.congr rfl rfl fun _ => rfl, fun hopen => ?_⟩
    refine (hI.task hopen).congr rfl rfl rfl rfl (fun _ => rfl) rfl fun _ => ?_
    simp [State.pending]

theorem inv_ack {k : Nat} (hI : Inv cfg s) (hk : k ≤ s.nextSendSeq) :
    Inv cfg { s with replay := s.replay.map fun b => b.ack k } := by
  have hsome : (s.replay.map fun b => b.ack k).isSome = s.replay.isSome := Option.isSome_map ..
  refine ⟨⟨hsome.trans hI.replay.recovery, fun hs => hI.replay.seq (hsome ▸ hs), fun b hb => ?_,
    fun b hb r hr => ?_⟩, fun hopen => (hI.task hopen).congr rfl rfl rfl rfl (fun _ => rfl) hsome
      fun _ => rfl⟩
  · obtain ⟨b₀, hb₀, rfl⟩ := Option.map_eq_some_iff.mp hb
    -- An ACK is for frames sent.
    refine (hI.replay.keeps b₀ hb₀).ack ?_
    rw [List.length_map, ← hI.replay.seq (Option.isSome_of_mem hb₀)]
    exact hk
  · obtain ⟨b₀, hb₀, rfl⟩ := Option.map_eq_some_iff.mp hb
    rw [ReplayBuffer.ack_headerLen, ReplayBuffer.ack_maxBytes]
    exact hI.replay.limits b₀ hb₀ r hr

theorem inv_step (hI : Inv cfg s) (h : (machine cfg).step s ev = some s') : Inv cfg s' := by
  cases ev with
  | job msg =>
      simp only [machine, State.step] at h
      split at h <;> cases h
      exact ⟨hI.replay.congr rfl rfl fun _ => rfl, fun hopen => (hI.task hopen).congr rfl rfl rfl rfl
        (fun _ => rfl) rfl fun _ => rfl⟩
  | take =>
      simp only [machine, State.step] at h
      split at h <;> cases h
      rename_i hpc _
      refine ⟨hI.replay.congr rfl rfl fun _ => rfl, fun hopen => ?_⟩
      have ht := hI.task hopen
      rw [TaskInv, hpc] at ht
      exact ⟨congrArg (· + 1) ht.1, ht.2.1, ht.2.2.congr (fun _ => rfl) rfl fun _ => rfl⟩
  | handled outcome =>
      simp only [machine, State.step] at h
      split at h <;> cases h
      rename_i hpc
      refine ⟨hI.replay.congr rfl rfl fun _ => rfl, fun hopen => ?_⟩
      have ht := hI.task hopen
      rw [TaskInv, hpc] at ht
      exact ⟨s.replies, rfl, ht.1, ht.2.1, ht.2.2.congr (fun _ => rfl) rfl fun _ => rfl⟩
  | lock =>
      simp only [machine, State.step] at h
      split at h
      · rename_i msg hpc
        split at h <;> cases h
        exact inv_lock hI hpc
      · cases h
  | push =>
      simp only [machine, State.step] at h
      split at h
      · rename_i payload hpc
        split at h <;> cases h
        exact inv_push hI hpc
      · cases h
  | answer =>
      simp only [machine, State.step] at h
      split at h <;> cases h
      rename_i hpc hq
      refine ⟨hI.replay.congr rfl rfl fun _ => rfl, fun hopen => ?_⟩
      have ht := hI.task hopen
      rw [TaskInv, hpc] at ht
      obtain ⟨done, msg, hd, ht, -, -, ⟨hnone, -⟩ | ⟨-, h⟩⟩ := ht
      · -- The task waits for an answer, and that is there.
        rw [hq] at hnone
        cases hnone
      · refine ⟨?_, rfl, h.congr (fun _ => rfl) rfl fun _ => rfl⟩
        simp only [hd, ht, List.length_append, List.length_singleton]
  | otherLock =>
      simp only [machine, State.step] at h
      repeat' split at h
      all_goals cases h
      exact ⟨hI.replay.congr rfl rfl fun _ => rfl, fun hopen => (hI.task hopen).congr rfl rfl rfl rfl
        (fun _ => rfl) rfl fun _ => rfl⟩
  | otherUnlock =>
      simp only [machine, State.step] at h
      split at h <;> cases h
      exact ⟨hI.replay.congr rfl rfl fun _ => rfl, fun hopen => (hI.task hopen).congr rfl rfl rfl rfl
        (fun _ => rfl) rfl fun _ => rfl⟩
  | otherPush frame =>
      simp only [machine, State.step] at h
      split at h <;> cases h
      exact inv_otherPush hI frame
  | write => exact inv_write hI h
  | ack k =>
      simp only [machine, State.step] at h
      split at h
      · rename_i hk
        cases h
        exact inv_ack hI hk
      · cases h
  | finStart =>
      cases h
      exact ⟨hI.replay.congr rfl rfl fun _ => rfl, fun hopen => by cases hopen.1⟩
  | close =>
      cases h
      exact ⟨hI.replay.congr rfl rfl fun _ => rfl, fun hopen => by cases hopen.2.1⟩
  | closing =>
      cases h
      exact ⟨hI.replay.congr rfl rfl fun _ => rfl, fun hopen => by cases hopen.2.2⟩
  | stop =>
      simp only [machine, State.step] at h
      split at h
      · split at h <;> cases h
        rename_i hclosed
        refine ⟨hI.replay.congr rfl rfl fun _ => rfl, fun hopen => ?_⟩
        exact absurd (hopen.2.1.symm.trans hclosed) (by simp)
      · cases h
  | fail =>
      have hgo : s.closing = true → Inv cfg { s with pc := .idle } := fun hclosing =>
        ⟨hI.replay.congr rfl rfl fun _ => rfl, fun hopen => by
          cases hopen.2.2.symm.trans hclosing⟩
      simp only [machine, State.step] at h
      split at h
      · split at h <;> cases h
        exact hgo ‹_›
      · split at h <;> cases h
        exact hgo ‹_›
      · cases h

theorem inv_reachable (h : (machine cfg).Reachable s) : Inv cfg s := by
  refine h.invariant ?_ fun _ _ _ hI _ hs => inv_step hI hs
  rintro _ rfl
  refine ⟨⟨Option.isSome_map .., fun _ => rfl, fun b hb => ?_, fun b hb r hr => ?_⟩, fun _ =>
    ⟨rfl, rfl, fun _ => rfl, fun _ => rfl⟩⟩
  · obtain ⟨r, -, rfl⟩ := Option.map_eq_some_iff.mp hb
    exact ReplayBuffer.keeps_new _ _
  · obtain ⟨r', hr', rfl⟩ := Option.map_eq_some_iff.mp hb
    cases hr'.symm.trans hr
    exact ⟨rfl, rfl⟩

/-! ### The result -/

/-- **One reply per job**, exactly for the replies that are sendable: between two jobs, while the
stream and the connection are open, every job taken has one reply frame if its reply is sendable,
and else none. -/
theorem replied_iff (h : (machine cfg).Reachable s) (hopen : s.Open) (hidle : s.pc = .idle) :
    s.replies.length = s.taken ∧ ∀ i msg, s.replies[i]? = some msg →
      ((s.repliesTo i).length = 1 ↔ cfg.Sendable msg) := by
  have ht := (inv_reachable h).task hopen
  rw [TaskInv, hidle] at ht
  refine ⟨ht.1.symm, fun i msg hi => ?_⟩
  rw [ht.2.2.replies i, hi, Option.elim_some, Config.length_accepted]
  by_cases hs : cfg.Sendable msg <;> simp [hs]

end replies

/-! ### Two jobs -/

/-- A byte sequence of postcard, below 128 bytes. -/
def shortBytes (data : List UInt8) : List UInt8 := UInt8.ofNat data.length :: data

/-- The wire name `am.message.OkReply`. -/
def okReplyWire : List UInt8 :=
  [97, 109, 46, 109, 101, 115, 115, 97, 103, 101, 46, 79, 107, 82, 101, 112, 108, 121]

/-- Replies under the postcard codec; a message is given by its encoding. -/
def postcardEncode : Reply (List UInt8) → Except Error (List UInt8)
  | .message payload => .ok payload
  | .okReply => .ok (shortBytes okReplyWire ++ shortBytes [])
  | .errorReply code message =>
    .ok (shortBytes "am.message.ErrorReply".toUTF8.toList ++
      shortBytes (shortBytes code.toUTF8.toList ++ shortBytes message.toUTF8.toList))

/-- A v3 connection with a max frame of 32 bytes. -/
def smallFrames : Config (List UInt8) := ⟨postcardEncode, 32, some ⟨18, 65536⟩, 64, 1⟩

/-- The handler task takes a job and sends what its handler returns, as far as it gets. -/
def jobRun (outcome : Outcome (List UInt8)) : List (Event (List UInt8)) :=
  [.job [1], .take, .handled outcome, .lock]

def okWorld : State (List UInt8) :=
  ((machine smallFrames).exec (.initial smallFrames) (jobRun .none ++ [.push, .write, .answer])).getD
    (.initial smallFrames)

theorem replied_iff_ok : (okWorld.repliesTo 0).length = 1 :=
  have h : (machine smallFrames).Reachable okWorld :=
    Machine.reachable_of_exec (jobRun .none ++ [.push, .write, .answer]) rfl rfl
  ((replied_iff h ⟨rfl, rfl, rfl⟩ rfl).2 0 .okReply rfl).mpr (by decide)

/-- The handler returns a message of 40 bytes. -/
def largeWorld : State (List UInt8) :=
  ((machine smallFrames).exec (.initial smallFrames) (jobRun (.some (List.replicate 40 0)))).getD
    (.initial smallFrames)

/-- The task is ready for the next job, and the requester has no reply. -/
theorem reply_lost : ¬∀ s, (machine smallFrames).Reachable s → s.Open → s.pc = .idle →
    ∀ i < s.taken, (s.repliesTo i).length = 1 := by
  intro hall
  have h : (machine smallFrames).Reachable largeWorld :=
    Machine.reachable_of_exec (jobRun (.some (List.replicate 40 0))) rfl rfl
  exact absurd (hall largeWorld h ⟨rfl, rfl, rfl⟩ rfl 0 (by decide)) (by decide)

end AdaptiveMsg.Handler
