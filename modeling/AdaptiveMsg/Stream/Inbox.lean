import AdaptiveMsg.Error
import AdaptiveMsg.Machine.Run
import Mathlib.Data.List.Basic

/-!
# Stream — the inbox, and the flags that close it

One stream: its decode task puts messages into the inbox, `recv`, `peek_wire` and `send_recv` take
them, and the stream and the connection may be marked closed at any time.  Each poll of the inbox
and each look at a flag is a step of its own; the select of `next_inbox` polls the inbox, then the
two flags, then the timer, and so again each time it is woken.

`closed_after_draining`: a receive returns `Closed` only after every message put into the inbox
before the stream or the connection was marked closed has been taken, as long as the flags are not
set between a poll of the inbox and the look at them (`NotOvertaken`).  `closed_undrained`: a
`send_recv` whose send fails returns at once, and a receive that is overtaken loses a message.
-/

namespace AdaptiveMsg.Inbox

/-! ### State -/

inductive Kind where
  | recv
  | peekWire
  | sendRecv
  deriving DecidableEq, Repr

/-- What became of a message that was taken from the inbox. -/
inductive Fate where
  | returned
  | peeked
  /-- It was the late reply of a request that timed out. -/
  | discarded
  deriving DecidableEq, Repr

/-- Where a call is in the select of `next_inbox`. -/
inductive SelectPc where
  | inbox
  /-- `wait_closed` of the connection: the flag, at the first poll, then the notification. -/
  | connectionFlag
  | connectionNotified
  | streamFlag
  | streamNotified
  | timeout
  | parked
  deriving DecidableEq, Repr

inductive CallPc where
  | idle
  /-- `send_recv` sends its request: before the check of the stream, and after it. -/
  | sending
  | enqueueing
  /-- Before the look at the peeked message. -/
  | take (kind : Kind)
  | tryRecv (kind : Kind)
  | checkClosed (kind : Kind)
  | tryRecvClosed (kind : Kind)
  /-- `first`: at the first poll of the select. -/
  | select (kind : Kind) (first : Bool) (pc : SelectPc)
  deriving DecidableEq, Repr

/-- The decode task, in `inbox_q` with a message. -/
inductive DecodePc (μ : Type) where
  | next
  | check (msg : μ)
  | send (msg : μ)
  | ended
  deriving DecidableEq

inductive Returned (μ : Type) where
  /-- The send of a `send_recv` failed. -/
  | sendFailed (err : Error)
  | result (result : Except Error μ)
  deriving DecidableEq

/-- A `closed` flag with its `closed_notify`. -/
structure ClosedFlag where
  closed : Bool
  notified : Bool
  /-- How many messages had been put into the inbox when it was set (not part of the program's
  state). -/
  putBefore : Nat
  deriving DecidableEq

structure State (μ : Type) where
  /-- The size of the inbox. -/
  capacity : Nat
  /-- What was put into the inbox, in order. -/
  put : List μ
  /-- What became of the messages taken from it, one entry each, in order. -/
  fates : List Fate
  recvActive : Bool
  peeked : Option μ
  staleReplies : Nat
  stream : ClosedFlag
  connection : ClosedFlag
  call : CallPc
  decode : DecodePc μ
  /-- How many calls of `send_recv` timed out (this and the rest is no state of the program). -/
  timedOut : Nat
  returned : List (Returned μ)
  deriving DecidableEq

inductive Event (μ : Type) where
  | call (kind : Kind)
  /-- The frame of a `send_recv` is queued, or its send fails. -/
  | sent (result : Except Error Unit)
  | goOn
  /-- The timer of the select is polled after the deadline. -/
  | deadline
  /-- The call is dropped where it waits. -/
  | cancel
  /-- The decode task has a message for the inbox. -/
  | decoded (msg : μ)
  | inboxQ
  /-- `inbox_q` is woken because the stream is closed. -/
  | inboxQClosed
  | decodeEnds
  /-- `closed` is set, by whichever task releases the stream or closes the connection. -/
  | markStream
  | notifyStream
  | markConnection
  | notifyConnection
  deriving DecidableEq

/-! ### Steps -/

namespace State

variable {μ : Type} (s : State μ)

/-- The messages in the inbox. -/
def inbox : List μ := s.put.drop s.fates.length

/-- The call returns, which drops its recv guard. -/
def finish (r : Returned μ) : State μ :=
  { s with recvActive := false, call := .idle, returned := s.returned ++ [r] }

/-- `read_raw` has a message from the inbox. -/
def readRaw (kind : Kind) (msg : μ) : State μ :=
  if s.staleReplies > 0 then
    { s with
      staleReplies := s.staleReplies - 1
      fates := s.fates ++ [.discarded]
      call := .tryRecv kind }
  else
    match kind with
    | .peekWire =>
      State.finish { s with fates := s.fates ++ [.peeked], peeked := some msg } (.result (.ok msg))
    | _ => State.finish { s with fates := s.fates ++ [.returned] } (.result (.ok msg))

/-- A poll of the inbox, and what the call does if it is empty. -/
def poll (kind : Kind) (empty : State μ) : State μ :=
  match s.inbox with
  | msg :: _ => s.readRaw kind msg
  | [] => empty

def close : State μ := s.finish (.result (.error .closed))

def selectNext (kind : Kind) (first : Bool) : SelectPc → State μ
  | .inbox =>
    s.poll kind
      { s with call := .select kind first (if first then .connectionFlag else .connectionNotified) }
  | .connectionFlag =>
    if s.connection.closed then s.close
    else { s with call := .select kind first .connectionNotified }
  | .connectionNotified =>
    if s.connection.notified then s.close
    else { s with call := .select kind first (if first then .streamFlag else .streamNotified) }
  | .streamFlag =>
    if s.stream.closed then s.close else { s with call := .select kind first .streamNotified }
  | .streamNotified =>
    if s.stream.notified then s.close else { s with call := .select kind first .timeout }
  | .timeout => { s with call := .select kind first .parked }
  | .parked => { s with call := .select kind false .inbox }

/-- The next operation of the call. -/
def goOn : Option (State μ) :=
  match s.call with
  | .idle | .enqueueing => none
  | .sending =>
    some (if s.stream.closed then s.finish (.sendFailed .closed) else { s with call := .enqueueing })
  | .take kind =>
    some (match s.peeked, kind with
      | none, _ => { s with call := .tryRecv kind }
      | some msg, .peekWire => s.finish (.result (.ok msg))
      | some msg, _ => State.finish { s with peeked := none } (.result (.ok msg)))
  | .tryRecv kind => some (s.poll kind { s with call := .checkClosed kind })
  | .checkClosed kind =>
    some { s with
      call := if s.stream.closed then .tryRecvClosed kind else .select kind true .inbox }
  | .tryRecvClosed kind => some (s.poll kind s.close)
  | .select kind first pc => some (s.selectNext kind first pc)

/-- The call stops waiting, which it may do where it waits. -/
def cancel : Option (State μ) :=
  match s.call with
  | .sending | .enqueueing | .select _ _ .parked => some { s with recvActive := false, call := .idle }
  | _ => none

def inboxQ : Option (State μ) :=
  match s.decode with
  | .check msg => some { s with decode := if s.stream.closed then .next else .send msg }
  | .send msg =>
    if s.inbox.length < s.capacity then some { s with put := s.put ++ [msg], decode := .next }
    else none
  | _ => none

end State

namespace ClosedFlag

def mark (f : ClosedFlag) (put : Nat) : Option ClosedFlag :=
  if f.closed then none else some { f with closed := true, putBefore := put }

/-- `notify_waiters`, by the task that has set the flag. -/
def notify (f : ClosedFlag) : Option ClosedFlag :=
  if f.closed ∧ f.notified = false then some { f with notified := true } else none

end ClosedFlag

variable {μ : Type}

def step (s : State μ) : Event μ → Option (State μ)
  | .call kind =>
    if s.recvActive then some { s with returned := s.returned ++ [.result (.error .concurrentRecv)] }
    else
      match kind with
      | .sendRecv => some { s with recvActive := true, call := .sending }
      | _ => some { s with recvActive := true, call := .take kind }
  | .sent result =>
    match s.call, result with
    | .enqueueing, .ok _ => some { s with call := .take .sendRecv }
    | .enqueueing, .error err => some (s.finish (.sendFailed err))
    | _, _ => none
  | .goOn => s.goOn
  | .deadline =>
    match s.call with
    | .select .sendRecv _ .timeout =>
      some (State.finish
        { s with staleReplies := s.staleReplies + 1, timedOut := s.timedOut + 1 }
        (.result (.error .recvTimeout)))
    | .select _ _ .timeout => some (s.finish (.result (.error .recvTimeout)))
    | _ => none
  | .cancel => s.cancel
  | .decoded msg =>
    match s.decode with
    | .next => some { s with decode := .check msg }
    | _ => none
  | .inboxQ => s.inboxQ
  | .inboxQClosed =>
    match s.decode with
    | .send _ => if s.stream.notified then some { s with decode := .next } else none
    | _ => none
  | .decodeEnds =>
    match s.decode with
    | .next => some { s with decode := .ended }
    | _ => none
  | .markStream => (s.stream.mark s.put.length).map fun f => { s with stream := f }
  | .notifyStream => s.stream.notify.map fun f => { s with stream := f }
  | .markConnection => (s.connection.mark s.put.length).map fun f => { s with connection := f }
  | .notifyConnection => s.connection.notify.map fun f => { s with connection := f }

def ClosedFlag.unset : ClosedFlag := ⟨false, false, 0⟩

def initial (capacity : Nat) : State μ where
  capacity := capacity
  put := []
  fates := []
  recvActive := false
  peeked := none
  staleReplies := 0
  stream := .unset
  connection := .unset
  call := .idle
  decode := .next
  timedOut := 0
  returned := []

/-- The runs of one stream. -/
def machine : Machine (State μ) (Event μ) where
  init s := ∃ capacity, s = initial capacity
  step := step

/-! ### Messages that a receive leaves -/

/-- Every message put into the inbox before the flag was set has been taken. -/
def ClosedFlag.Drained (f : ClosedFlag) (fates : List Fate) : Prop :=
  f.closed = true → f.putBefore ≤ fates.length

/-- Every message put into the inbox before the stream was marked closed, or the connection, has been
taken: returned, peeked or discarded. -/
structure State.Drained (s : State μ) : Prop where
  stream : s.stream.Drained s.fates
  connection : s.connection.Drained s.fates

/-- The select of the call, having polled the inbox, comes to a flag that is set. -/
def State.reportsAt (s : State μ) (first : Bool) : SelectPc → Bool
  | .connectionFlag =>
    s.connection.closed || (s.connection.notified || (first && s.stream.closed || s.stream.notified))
  | .connectionNotified => s.connection.notified || (first && s.stream.closed || s.stream.notified)
  | .streamFlag => s.stream.closed || s.stream.notified
  | .streamNotified => s.stream.notified
  | .inbox | .timeout | .parked => false

def State.reports (s : State μ) : Bool :=
  match s.call with
  | .select _ first pc => s.reportsAt first pc
  | _ => false

def Event.marks : Event μ → Bool
  | .markStream | .notifyStream | .markConnection | .notifyConnection => true
  | _ => false

/-- The stream or the connection is not marked closed, between a poll of the inbox and the look at
the flags that follows it, with a message in the inbox that was put there before. -/
def NotOvertaken (s : State μ) (e : Event μ) : Prop :=
  e.marks = true → ∀ s' ∈ step s e, s'.reports = true → s'.Drained

instance (f : ClosedFlag) (fates : List Fate) : Decidable (f.Drained fates) :=
  inferInstanceAs (Decidable (_ → _))

instance (s : State μ) : Decidable s.Drained :=
  decidable_of_iff (s.stream.Drained s.fates ∧ s.connection.Drained s.fates)
    ⟨fun h => ⟨h.1, h.2⟩, fun h => ⟨h.stream, h.connection⟩⟩

instance (s : State μ) : DecidablePred (NotOvertaken s) := fun e =>
  inferInstanceAs (Decidable (e.marks = true → ∀ s' ∈ step s e, s'.reports = true → s'.Drained))

/-- A receive returns `Closed` with this step. -/
def ReturnsClosed (s s' : State μ) : Prop :=
  s'.returned = s.returned ++ [.result (.error .closed)]

/-! ### Draining -/

variable {s s' : State μ} {e : Event μ} {kind : Kind}

structure Inv (s : State μ) : Prop where
  taken : s.fates.length ≤ s.put.length
  stream : s.stream.putBefore ≤ s.put.length
  connection : s.connection.putBefore ≤ s.put.length
  /-- A call that is about to report `Closed` leaves nothing. -/
  reports : s.reports = true → s.Drained
  /-- As many replies are to be discarded as requests timed out. -/
  late : s.fates.count .discarded + s.staleReplies = s.timedOut

/-- Nothing is left of an empty inbox. -/
theorem Inv.drained_of_empty (hI : Inv s) (h : s.inbox = []) : s.Drained := by
  have hle : s.put.length ≤ s.fates.length := List.drop_eq_nil_iff.1 h
  exact ⟨fun _ => Nat.le_trans hI.stream hle, fun _ => Nat.le_trans hI.connection hle⟩

/-- What an operation of a call does. -/
inductive Moves (s : State μ) : State μ → Prop where
  | take (kind : Kind) {msg : μ} {rest : List μ} (h : s.inbox = msg :: rest) :
      Moves s (s.readRaw kind msg)
  | close (h : s.reports = true ∨ s.inbox = []) : Moves s s.close
  | answer (peeked : Option μ) (r : Returned μ) (h : r ≠ .result (.error .closed)) :
      Moves s (State.finish { s with peeked := peeked } r)
  | goOn (pc : CallPc)
      (h : State.reports { s with call := pc } = true → s.reports = true ∨ s.inbox = []) :
      Moves s { s with call := pc }

theorem Moves.poll {empty : State μ} (h : s.inbox = [] → Moves s empty) :
    Moves s (s.poll kind empty) := by
  simp only [State.poll]
  split
  · rename_i hin
    exact .take kind hin
  · rename_i hin
    exact h hin

theorem selectNext_moves {first : Bool} {pc : SelectPc} (h : s.call = .select kind first pc) :
    Moves s (s.selectNext kind first pc) := by
  have hreports : s.reports = s.reportsAt first pc := by rw [State.reports, h]
  cases pc with
  | inbox => exact .poll fun hin => .goOn _ fun _ => .inr hin
  | connectionFlag =>
      simp only [State.selectNext]
      split
      · rename_i hset
        exact .close (.inl (by rw [hreports, State.reportsAt, hset]; rfl))
      · refine .goOn _ fun hr => .inl ?_
        rw [hreports, State.reportsAt]
        exact Bool.or_eq_true_iff.2 (.inr hr)
  | connectionNotified =>
      simp only [State.selectNext]
      split
      · rename_i hset
        exact .close (.inl (by rw [hreports, State.reportsAt, hset]; rfl))
      · refine .goOn _ fun hr => .inl ?_
        rw [hreports, State.reportsAt]
        refine Bool.or_eq_true_iff.2 (.inr ?_)
        cases first with
        | true => exact hr
        | false => exact Bool.or_eq_true_iff.2 (.inr hr)
  | streamFlag =>
      simp only [State.selectNext]
      split
      · rename_i hset
        exact .close (.inl (by rw [hreports, State.reportsAt, hset]; rfl))
      · refine .goOn _ fun hr => .inl ?_
        rw [hreports, State.reportsAt]
        exact Bool.or_eq_true_iff.2 (.inr hr)
  | streamNotified =>
      simp only [State.selectNext]
      split
      · rename_i hset
        exact .close (.inl (by rw [hreports, State.reportsAt, hset]))
      · exact .goOn _ nofun
  | timeout => exact .goOn _ nofun
  | parked => exact .goOn _ nofun

theorem goOn_moves (h : s.goOn = some s') : Moves s s' := by
  simp only [State.goOn] at h
  split at h
  · cases h
  · cases h
  · cases h
    split
    · exact .answer s.peeked _ nofun
    · exact .goOn _ nofun
  · cases h
    split
    · exact .goOn _ nofun
    · exact .answer s.peeked _ nofun
    · exact .answer none _ nofun
  · cases h
    exact .poll fun _ => .goOn _ nofun
  · cases h
    refine .goOn _ ?_
    split <;> exact nofun
  · cases h
    exact .poll fun hin => .close (.inr hin)
  · rename_i hcall
    cases h
    exact selectNext_moves hcall

/-- The invariant is about the inbox, the flags, and what the call is about to do. -/
theorem Inv.same (hI : Inv s) (hput : s'.put = s.put) (hfates : s'.fates = s.fates)
    (hstream : s'.stream = s.stream) (hconn : s'.connection = s.connection)
    (hstale : s'.staleReplies = s.staleReplies) (hlate : s'.timedOut = s.timedOut)
    (hreports : s'.reports = true → s.Drained) : Inv s' where
  taken := by rw [hput, hfates]; exact hI.taken
  stream := by rw [hput, hstream]; exact hI.stream
  connection := by rw [hput, hconn]; exact hI.connection
  reports := fun hr => by
    refine ⟨?_, ?_⟩
    · rw [hstream, hfates]
      exact (hreports hr).stream
    · rw [hconn, hfates]
      exact (hreports hr).connection
  late := by rw [hfates, hstale, hlate]; exact hI.late

theorem Inv.finish (hI : Inv s) (r : Returned μ) : Inv (s.finish r) :=
  hI.same rfl rfl rfl rfl rfl rfl nofun

/-- A message is taken. -/
theorem Inv.readRaw (hI : Inv s) {msg : μ} {rest : List μ} (h : s.inbox = msg :: rest) :
    Inv (s.readRaw kind msg) := by
  have hlt : s.fates.length < s.put.length := by
    by_contra hge
    rw [State.inbox, List.drop_eq_nil_of_le (Nat.le_of_not_lt hge)] at h
    cases h
  have hle : ∀ fate, (s.fates ++ [fate]).length ≤ s.put.length := fun fate => by
    rw [List.length_append]
    exact hlt
  simp only [State.readRaw]
  split
  · refine ⟨hle _, hI.stream, hI.connection, nofun, ?_⟩
    have := hI.late
    simp only [List.count_append, List.count_singleton_self]
    omega
  · have hlate : ∀ fate, fate ≠ Fate.discarded →
        (s.fates ++ [fate]).count .discarded + s.staleReplies = s.timedOut := fun fate hne => by
      rw [List.count_append, List.count_singleton, beq_eq_false_iff_ne.2 hne]
      exact hI.late
    cases kind with
    | peekWire => exact ⟨hle _, hI.stream, hI.connection, nofun, hlate .peeked (by decide)⟩
    | recv | sendRecv =>
        exact ⟨hle _, hI.stream, hI.connection, nofun, hlate .returned (by decide)⟩

theorem Inv.drained (hI : Inv s) (h : s.reports = true ∨ s.inbox = []) : s.Drained :=
  h.elim hI.reports hI.drained_of_empty

theorem Inv.moves (hI : Inv s) (h : Moves s s') : Inv s' := by
  cases h with
  | take kind hin => exact hI.readRaw hin
  | close _ => exact hI.finish _
  | answer peeked r _ => exact (hI.same rfl rfl rfl rfl rfl rfl hI.reports : Inv { s with peeked }).finish r
  | goOn pc hr => exact hI.same rfl rfl rfl rfl rfl rfl fun h => hI.drained (hr h)

/-- A flag is set when everything put into the inbox so far has been taken, or no call is about to
report. -/
theorem mark_putBefore {f f' : ClosedFlag} {put : Nat} (h : f.mark put = some f') :
    f'.putBefore ≤ put := by
  simp only [ClosedFlag.mark] at h
  split at h
  · cases h
  · cases h
    exact Nat.le_refl _

theorem notify_putBefore {f f' : ClosedFlag} (h : f.notify = some f') :
    f'.putBefore = f.putBefore := by
  simp only [ClosedFlag.notify] at h
  split at h
  · cases h
    rfl
  · cases h

theorem Inv.marks (hI : Inv s) (hm : e.marks = true) (hin : NotOvertaken s e)
    (h : step s e = some s') : Inv s' := by
  have hreports := hin hm s' h
  cases e with
  | markStream =>
      obtain ⟨f, hf, he⟩ := Option.map_eq_some_iff.1 h
      cases he
      exact ⟨hI.taken, mark_putBefore hf, hI.connection, hreports, hI.late⟩
  | notifyStream =>
      obtain ⟨f, hf, he⟩ := Option.map_eq_some_iff.1 h
      cases he
      exact ⟨hI.taken, notify_putBefore hf ▸ hI.stream, hI.connection, hreports, hI.late⟩
  | markConnection =>
      obtain ⟨f, hf, he⟩ := Option.map_eq_some_iff.1 h
      cases he
      exact ⟨hI.taken, hI.stream, mark_putBefore hf, hreports, hI.late⟩
  | notifyConnection =>
      obtain ⟨f, hf, he⟩ := Option.map_eq_some_iff.1 h
      cases he
      exact ⟨hI.taken, hI.stream, notify_putBefore hf ▸ hI.connection, hreports, hI.late⟩
  | _ => cases hm

/-- A step that takes no message, sets no flag and returns no `Closed` from a receive. -/
structure Quiet (s s' : State μ) : Prop where
  put : s.put.length ≤ s'.put.length
  fates : s'.fates = s.fates
  stream : s'.stream = s.stream
  connection : s'.connection = s.connection
  late : s.staleReplies + s'.timedOut = s'.staleReplies + s.timedOut
  reports : s'.reports = true → s.reports = true
  returned : ¬ReturnsClosed s s'

theorem not_returnsClosed {r : Returned μ} (hs : s'.returned = s.returned ++ [r])
    (hr : r ≠ .result (.error .closed)) : ¬ReturnsClosed s s' := fun h =>
  hr (List.singleton_injective (List.append_cancel_left (hs.symm.trans h)))

theorem not_returnsClosed_same (hs : s'.returned = s.returned) : ¬ReturnsClosed s s' := fun h => by
  have hlen := congrArg List.length (hs.symm.trans h)
  rw [List.length_append, List.length_singleton] at hlen
  exact Nat.succ_ne_self _ hlen.symm

theorem quiet_of_step (hgo : e ≠ .goOn) (hm : e.marks = false) (h : step s e = some s') :
    Quiet s s' := by
  cases e with
  | call kind =>
      simp only [step] at h
      split at h
      · cases h
        exact ⟨Nat.le_refl _, rfl, rfl, rfl, rfl, id, not_returnsClosed rfl nofun⟩
      · cases kind <;> cases h <;>
          exact ⟨Nat.le_refl _, rfl, rfl, rfl, rfl, nofun, not_returnsClosed_same rfl⟩
  | sent result =>
      simp only [step] at h
      split at h
      · cases h
        exact ⟨Nat.le_refl _, rfl, rfl, rfl, rfl, nofun, not_returnsClosed_same rfl⟩
      · cases h
        exact ⟨Nat.le_refl _, rfl, rfl, rfl, rfl, nofun, not_returnsClosed rfl nofun⟩
      · cases h
  | goOn => exact absurd rfl hgo
  | deadline =>
      simp only [step] at h
      split at h
      · cases h
        exact ⟨Nat.le_refl _, rfl, rfl, rfl, by simp only [State.finish]; omega, nofun,
          not_returnsClosed rfl nofun⟩
      · cases h
        exact ⟨Nat.le_refl _, rfl, rfl, rfl, rfl, nofun, not_returnsClosed rfl nofun⟩
      · cases h
  | cancel =>
      -- Cancelling a receive gives its slot back and takes no message.
      have hquiet : Quiet s { s with recvActive := false, call := .idle } :=
        ⟨Nat.le_refl _, rfl, rfl, rfl, rfl, nofun, not_returnsClosed_same rfl⟩
      simp only [step, State.cancel] at h
      split at h <;> cases h <;> exact hquiet
  | decoded msg =>
      simp only [step] at h
      split at h
      · cases h
        exact ⟨Nat.le_refl _, rfl, rfl, rfl, rfl, id, not_returnsClosed_same rfl⟩
      · cases h
  | inboxQ =>
      simp only [step, State.inboxQ] at h
      split at h
      · cases h
        exact ⟨Nat.le_refl _, rfl, rfl, rfl, rfl, id, not_returnsClosed_same rfl⟩
      · split at h
        · cases h
          exact ⟨List.length_append ▸ Nat.le_add_right _ _, rfl, rfl, rfl, rfl, id,
            not_returnsClosed_same rfl⟩
        · cases h
      · cases h
  | inboxQClosed =>
      simp only [step] at h
      split at h
      · split at h
        · cases h
          exact ⟨Nat.le_refl _, rfl, rfl, rfl, rfl, id, not_returnsClosed_same rfl⟩
        · cases h
      · cases h
  | decodeEnds =>
      simp only [step] at h
      split at h
      · cases h
        exact ⟨Nat.le_refl _, rfl, rfl, rfl, rfl, id, not_returnsClosed_same rfl⟩
      · cases h
  | markStream | notifyStream | markConnection | notifyConnection => cases hm

/-- What is put into the inbox later was not there when a flag was set. -/
theorem Inv.quiet (hI : Inv s) (h : Quiet s s') : Inv s' where
  taken := h.fates ▸ Nat.le_trans hI.taken h.put
  stream := h.stream ▸ Nat.le_trans hI.stream h.put
  connection := h.connection ▸ Nat.le_trans hI.connection h.put
  reports := fun hr => by
    have hd := hI.reports (h.reports hr)
    refine ⟨?_, ?_⟩
    · rw [h.stream, h.fates]
      exact hd.stream
    · rw [h.connection, h.fates]
      exact hd.connection
  late := by
    have hlate := hI.late
    have hmore := h.late
    rw [h.fates]
    omega

theorem Inv.step (hI : Inv s) (hin : NotOvertaken s e) (h : step s e = some s') : Inv s' := by
  cases hm : e.marks with
  | true => exact hI.marks hm hin h
  | false =>
      by_cases hgo : e = .goOn
      · subst hgo
        exact hI.moves (goOn_moves h)
      · exact hI.quiet (quiet_of_step hgo hm h)

theorem inv_reachable (h : machine.ReachableUnder NotOvertaken s) : Inv s := by
  refine h.invariant ?_ fun _ _ _ hI hin hs => hI.step hin hs
  rintro _ ⟨capacity, rfl⟩
  exact ⟨Nat.le_refl _, Nat.le_refl _, Nat.le_refl _, nofun, rfl⟩

/-! ### What a receive returns -/

theorem returned_readRaw {msg : μ} : ¬ReturnsClosed s (s.readRaw kind msg) := by
  simp only [State.readRaw]
  split
  · exact not_returnsClosed_same rfl
  · cases kind <;> exact not_returnsClosed rfl nofun

theorem returned_marks (hm : e.marks = true) (h : step s e = some s') : ¬ReturnsClosed s s' := by
  cases e with
  | markStream | notifyStream | markConnection | notifyConnection =>
      obtain ⟨f, -, he⟩ := Option.map_eq_some_iff.1 h
      cases he
      exact not_returnsClosed_same rfl
  | _ => cases hm

/-- Only a call that comes to a flag that is set, or has found the inbox empty, returns `Closed`. -/
theorem reports_of_returnsClosed (h : step s e = some s') (hr : ReturnsClosed s s') :
    s.reports = true ∨ s.inbox = [] := by
  by_cases hgo : e = .goOn
  · subst hgo
    cases goOn_moves h with
    | take kind hin => exact absurd hr returned_readRaw
    | close hempty => exact hempty
    | answer peeked r hne => exact absurd hr (not_returnsClosed rfl hne)
    | goOn pc _ => exact absurd hr (not_returnsClosed_same rfl)
  · cases hm : e.marks with
    | true => exact absurd hr (returned_marks hm h)
    | false => exact absurd hr (quiet_of_step hgo hm h).returned

/-- **A receive returns `Closed` only after draining.**  In every run in which no flag is set between
a poll of the inbox and the look at the flags that overlooks a message, a receive that returns
`Closed` leaves no message that was put into the inbox before the stream, or the connection, was
marked closed; and a message is discarded for a request that timed out. -/
theorem closed_after_draining (h : machine.ReachableUnder NotOvertaken s) :
    (∀ e s', step s e = some s' → ReturnsClosed s s' → s.Drained) ∧
      s.fates.count .discarded + s.staleReplies = s.timedOut := by
  have hI := inv_reachable h
  exact ⟨fun e s' hs hr => hI.drained (reports_of_returnsClosed hs hr), hI.late⟩

/-! ### Runs -/

/-- A message is put into the inbox while a `recv` waits, and the stream is released; the `recv` takes
the message, and the next one finds the stream closed. -/
def drainedRun : List (Event Nat) :=
  [.call .recv, .goOn, .goOn, .goOn, .goOn, .goOn, .goOn, .goOn, .goOn, .goOn, .decoded 7, .inboxQ,
    .inboxQ, .decodeEnds, .markStream, .notifyStream, .goOn, .goOn, .call .recv, .goOn, .goOn, .goOn]

def drained : State Nat := (machine.exec (initial 1) drainedRun).getD (initial 1)

theorem closed_after_draining_recv :
    drained.goOn = some drained.close ∧ drained.put = [7] ∧ drained.Drained := by
  refine ⟨rfl, rfl, ?_⟩
  exact (closed_after_draining (.exec drainedRun (.init ⟨1, rfl⟩) rfl (by decide))).1 .goOn
    drained.close rfl rfl

/-- A message is put into the inbox and the stream is released; then a `send_recv` begins. -/
def refusedRun : List (Event Nat) :=
  [.decoded 7, .inboxQ, .inboxQ, .decodeEnds, .markStream, .notifyStream, .call .sendRecv]

def refused : State Nat := (machine.exec (initial 1) refusedRun).getD (initial 1)

/-- A `recv` finds the inbox empty; a message is put there and the stream is marked closed before it
looks at the flag. -/
def overtakenRun : List (Event Nat) :=
  [.call .recv, .goOn, .goOn, .goOn, .goOn, .decoded 7, .inboxQ, .inboxQ, .decodeEnds, .markStream,
    .goOn, .goOn]

def overtaken : State Nat := (machine.exec (initial 1) overtakenRun).getD (initial 1)

/-- `send_recv` returns the `Closed` of its send, and `recv` its own, while a message that was put
into the inbox before the stream was marked closed is still there. -/
theorem closed_undrained :
    (machine.Reachable refused ∧ refused.goOn = some (refused.finish (.sendFailed .closed)) ∧
      refused.inbox = [7] ∧ ¬refused.Drained) ∧
    machine.Reachable overtaken ∧ overtaken.goOn = some overtaken.close ∧
      overtaken.inbox = [7] ∧ ¬overtaken.Drained :=
  ⟨⟨Machine.reachable_of_exec refusedRun ⟨1, rfl⟩ rfl, rfl, rfl, by decide⟩,
    Machine.reachable_of_exec overtakenRun ⟨1, rfl⟩ rfl, rfl, rfl, by decide⟩

end AdaptiveMsg.Inbox
