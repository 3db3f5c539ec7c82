import AdaptiveMsg.Machine.Run
import AdaptiveMsg.Recovery

/-!
# Recovery — the writer's timer

The v3 writer looks for a pending ACK, flushes, and then sets the timer of its wait: to the delay of
the scheduled ACK or to the heartbeat interval.  `min_wait` takes an ACK wait of zero for "none is
scheduled", but that is also what `next_ack_wait` answers once the ACK is due.

* `not_due_when_looked`: an ACK that is still scheduled after the flush was not due when the writer
  looked, over every run.
* `wait_in_time`: the wait ends by the time of the ACK iff that time has not come when it is set.
* `timer_past_due`: once it has come, the wait is the heartbeat's.
* `wait_past_due`: the time of the ACK comes during a flush, and the writer waits for the heartbeat.
-/

namespace AdaptiveMsg

/-- `NegotiatedRecoveryOptions`' heartbeat after the cast to `i64`, as `heartbeat_interval` reads it. -/
def heartbeatInterval (nanos : Int) : Nat := nanos.toNat

/-- The wait, and whether it is the heartbeat's. -/
def minWait (ackWait heartbeatWait : Nat) : Nat × Bool :=
  if heartbeatWait = 0 then (ackWait, false)
  else if ackWait = 0 ∨ heartbeatWait < ackWait then (heartbeatWait, true)
  else (ackWait, false)

def RecoveryState.nextAckWait (r : RecoveryState) (now : Nat) : Nat :=
  if r.ackDue then 0
  else match r.ackDueAt with
    | 0 => 0
    | dueAt => dueAt - now

namespace AckTimer

/-! ### The writer and the clock -/

/-- Where the writer is in its `step`. -/
inductive WriterPc where
  | writeNext
  /-- It has found nothing to write, at this time, and is in `flush`. -/
  | flushing (looked : Nat)
  /-- It waits: until when, if the timer is on, and whether a PING is then due. -/
  | waiting (timer : Option (Nat × Bool))
  deriving DecidableEq, Repr

structure State where
  recovery : RecoveryState
  heartbeatIntervalNanos : Int
  now : Nat
  writer : WriterPc
  deriving DecidableEq, Repr

inductive Event where
  | tick (nanos : Nat)
  | received (seq : Nat)
  | setNegotiated (opts : NegotiatedRecoveryOptions) (heartbeatIntervalNanos : Int)
  /-- `write_next`: it takes the pending ACK, and otherwise may find a frame to write. -/
  | writeNext (frame : Bool)
  | setTimer
  /-- The timer runs out. -/
  | timeout
  /-- Anything else that the writer waits for. -/
  | notified
  deriving DecidableEq, Repr

/-- The timer that `flush_and_wait` sets after the flush. -/
def State.timer (c : State) : Option (Nat × Bool) :=
  let (wait, heartbeatTick) := minWait (c.recovery.nextAckWait c.now)
    (heartbeatInterval c.heartbeatIntervalNanos)
  if wait = 0 then none else some (c.now + wait, heartbeatTick)

def State.step (c : State) : Event → Option State
  | .tick nanos => some { c with now := c.now + nanos }
  | .received seq => some { c with recovery := (c.recovery.noteReceived c.now seq).2 }
  | .setNegotiated opts nanos =>
    some { c with recovery := c.recovery.setNegotiated opts, heartbeatIntervalNanos := nanos }
  | .writeNext frame =>
    match c.writer with
    | .writeNext =>
      let (ack, recovery) := c.recovery.takePendingAck c.now
      let writer := if ack.isSome || frame then .writeNext else .flushing c.now
      some { c with recovery := recovery, writer := writer }
    | _ => none
  | .setTimer =>
    match c.writer with
    | .flushing _ => some { c with writer := .waiting c.timer }
    | _ => none
  | .timeout =>
    match c.writer with
    | .waiting (some (expires, _)) =>
      if expires ≤ c.now then some { c with writer := .writeNext } else none
    | _ => none
  | .notified =>
    match c.writer with
    | .waiting _ => some { c with writer := .writeNext }
    | _ => none

def machine : Machine State Event where
  init c := ∃ opts headerLen maxReplayBytes nanos,
    c = ⟨.new opts headerLen maxReplayBytes, nanos, 0, .writeNext⟩
  step := State.step

/-! ### The ACK was not due when the writer looked -/

/-- The writer looked before the time of an ACK that is scheduled. -/
def LookedBefore (c : State) : Prop :=
  ∀ looked, c.writer = .flushing looked → looked ≤ c.now ∧
    (c.recovery.ackDue = false → c.recovery.ackDueAt ≠ 0 → looked < c.recovery.ackDueAt)

variable {c c' : State} {e : Event} {r : RecoveryState} {now : Nat}

/-- The writer that finds no ACK leaves none whose time has come. -/
theorem ackDueAt_takePendingAck (hnone : (r.takePendingAck now).1 = none)
    (hdue : (r.takePendingAck now).2.ackDueAt ≠ 0) : now < (r.takePendingAck now).2.ackDueAt := by
  cases hmay : r.ackMayBeDue now with
  | false =>
      have hsame : r.takePendingAck now = (none, r) := by simp [RecoveryState.takePendingAck, hmay]
      rw [hsame] at hdue ⊢
      simp only [RecoveryState.ackMayBeDue, Bool.or_eq_false_iff, Bool.and_eq_false_iff,
        decide_eq_false_iff_not] at hmay
      exact Nat.lt_of_not_le (hmay.2.resolve_left (not_not_intro hdue))
  | true =>
      by_cases hsent : r.lastAckSent ≥ r.lastRecvSeq
      · simp [RecoveryState.takePendingAck, hmay, hsent] at hdue
      · simp [RecoveryState.takePendingAck, hmay, hsent] at hnone

/-- A frame received schedules an ACK for a later time, or leaves the one that is scheduled. -/
theorem ackDueAt_noteReceived {seq : Nat} (hd : (r.noteReceived now seq).2.ackDue = false)
    (hdue : (r.noteReceived now seq).2.ackDueAt ≠ 0) :
    now < (r.noteReceived now seq).2.ackDueAt ∨
      (r.ackDue = false ∧ (r.noteReceived now seq).2.ackDueAt = r.ackDueAt) := by
  simp only [RecoveryState.noteReceived] at hd hdue ⊢
  by_cases hseq : seq ≤ r.lastRecvSeq
  · simp only [hseq, if_true] at hd hdue ⊢
    by_cases hlag : r.lastAckSent < r.lastRecvSeq
    · simp [hlag] at hd
    · simp only [hlag, if_false] at hd ⊢
      exact .inr ⟨hd, trivial⟩
  · simp only [hseq, if_false] at hd hdue ⊢
    split at hd
    · cases hd
    · rename_i hnow
      rw [if_neg hnow] at hdue ⊢
      split at hdue
      · left
        rw [if_pos ‹_›]
        exact Nat.lt_add_of_pos_right (Nat.pos_of_ne_zero fun h0 => hnow (.inr (.inr h0)))
      · rw [if_neg ‹_›] at hd ⊢
        exact .inr ⟨hd, rfl⟩

theorem lookedBefore_step (hI : LookedBefore c) (h : c.step e = some c') : LookedBefore c' := by
  intro looked hw
  cases e with
  | tick nanos =>
      cases h
      obtain ⟨hle, hlt⟩ := hI looked hw
      exact ⟨Nat.le_add_right_of_le hle, hlt⟩
  | received seq =>
      cases h
      obtain ⟨hle, hlt⟩ := hI looked hw
      refine ⟨hle, fun hd hdue => ?_⟩
      rcases ackDueAt_noteReceived hd hdue with hlater | ⟨hd, hsame⟩
      · exact Nat.lt_of_le_of_lt hle hlater
      · simp only [hsame] at hdue ⊢
        exact hlt hd hdue
  | setNegotiated opts nanos =>
      cases h
      exact hI looked hw
  | writeNext frame =>
      simp only [State.step] at h
      split at h
      · cases h
        simp only at hw
        split at hw
        · cases hw
        · rename_i hnone
          cases hw
          simp only [Bool.or_eq_true, not_or, Option.isSome_iff_ne_none, not_not] at hnone
          exact ⟨Nat.le_refl _, fun _ hdue => ackDueAt_takePendingAck hnone.1 hdue⟩
      · cases h
  | setTimer | timeout | notified =>
      simp only [State.step] at h
      repeat' split at h
      all_goals cases h
      all_goals cases hw

theorem lookedBefore_reachable (h : machine.Reachable c) : LookedBefore c := by
  refine h.invariant ?_ fun _ _ _ hI _ hs => lookedBefore_step hI hs
  rintro _ ⟨opts, headerLen, maxReplayBytes, nanos, rfl⟩ looked hw
  cases hw

/-- An ACK that is scheduled when the timer is set was not due when the writer looked. -/
theorem not_due_when_looked {looked : Nat} (h : machine.Reachable c)
    (hw : c.writer = .flushing looked) (hd : c.recovery.ackDue = false)
    (hdue : c.recovery.ackDueAt ≠ 0) : looked < c.recovery.ackDueAt :=
  (lookedBefore_reachable h looked hw).2 hd hdue

/-! ### The wait -/

theorem minWait_fst_le {ackWait : Nat} (heartbeatWait : Nat) (h : ackWait ≠ 0) :
    (minWait ackWait heartbeatWait).1 ≠ 0 ∧ (minWait ackWait heartbeatWait).1 ≤ ackWait := by
  simp only [minWait]
  split
  · exact ⟨h, Nat.le_refl _⟩
  · split
    · rename_i hb hlt
      exact ⟨hb, Nat.le_of_lt (hlt.resolve_left h)⟩
    · exact ⟨h, Nat.le_refl _⟩

/-- The wait that begins now is over by the time of the scheduled ACK. -/
def State.WaitsInTime (c : State) : Prop :=
  ∃ c', c.step .setTimer = some c' ∧ ∃ expires heartbeatTick,
    c'.writer = .waiting (some (expires, heartbeatTick)) ∧ expires ≤ c.recovery.ackDueAt

theorem timer_eq (c : State) {wait : Nat × Bool}
    (h : minWait (c.recovery.nextAckWait c.now) (heartbeatInterval c.heartbeatIntervalNanos) = wait) :
    c.timer = if wait.1 = 0 then none else some (c.now + wait.1, wait.2) := by
  subst h
  rfl

theorem nextAckWait_scheduled (hd : c.recovery.ackDue = false) (hdue : c.recovery.ackDueAt ≠ 0) :
    c.recovery.nextAckWait c.now = c.recovery.ackDueAt - c.now := by
  rw [RecoveryState.nextAckWait, hd]
  cases h : c.recovery.ackDueAt with
  | zero => exact absurd h hdue
  | succ dueAt => rfl

/-- **The writer does not sleep past a scheduled ACK**, iff its time has not come when the writer
sets the timer. -/
theorem wait_in_time {looked : Nat} (hw : c.writer = .flushing looked)
    (hd : c.recovery.ackDue = false) (hdue : c.recovery.ackDueAt ≠ 0) :
    c.WaitsInTime ↔ c.now < c.recovery.ackDueAt := by
  have hwait := nextAckWait_scheduled hd hdue
  have hstep : c.step .setTimer = some { c with writer := .waiting c.timer } := by
    rw [State.step, hw]
  constructor
  · rintro ⟨c', hs, expires, heartbeatTick, htimer, hle⟩
    cases hstep.symm.trans hs
    rw [WriterPc.waiting.injEq, timer_eq c rfl] at htimer
    split at htimer
    · cases htimer
    · rename_i hne
      cases htimer
      exact Nat.lt_of_lt_of_le (Nat.lt_add_of_pos_right (Nat.pos_of_ne_zero hne)) hle
  · intro hlt
    obtain ⟨hne, hle⟩ := minWait_fst_le (heartbeatInterval c.heartbeatIntervalNanos)
      (Nat.sub_ne_zero_of_lt hlt)
    rw [← hwait] at hne hle
    have htimer := (timer_eq c rfl).trans (if_neg hne)
    refine ⟨_, hstep, _, _, congrArg WriterPc.waiting htimer, ?_⟩
    calc
      c.now + _ ≤ c.now + c.recovery.nextAckWait c.now := Nat.add_le_add_left hle _
      _ = c.now + (c.recovery.ackDueAt - c.now) := by rw [hwait]
      _ = c.recovery.ackDueAt := Nat.add_sub_of_le (Nat.le_of_lt hlt)

/-- Once the time of the ACK has come, the writer waits for the heartbeat, or without a timer. -/
theorem timer_past_due (hd : c.recovery.ackDue = false) (hdue : c.recovery.ackDueAt ≠ 0)
    (hle : c.recovery.ackDueAt ≤ c.now) :
    c.timer = if heartbeatInterval c.heartbeatIntervalNanos = 0 then none
      else some (c.now + heartbeatInterval c.heartbeatIntervalNanos, true) := by
  rw [timer_eq c rfl, nextAckWait_scheduled hd hdue, Nat.sub_eq_zero_of_le hle, minWait]
  by_cases hb : heartbeatInterval c.heartbeatIntervalNanos = 0 <;> simp [hb]

/-- The server's default heartbeat is 30 s, its ACK delay 20 ms. -/
def flushingWriter (now : Nat) : State where
  recovery :=
    { RecoveryState.new .default 17 1000 with lastRecvSeq := 1, ackPending := 1, ackDueAt := 20000000 }
  heartbeatIntervalNanos := 30000000000
  now := now
  writer := .flushing 19999999

theorem wait_in_time_flushing : (flushingWriter 19999999).WaitsInTime :=
  (wait_in_time rfl rfl (by decide)).2 (by decide)

/-- A frame schedules an ACK; the writer looks just before its time, and the flush lasts until then. -/
theorem wait_past_due : ¬∀ c, machine.Reachable c → ∀ looked, c.writer = .flushing looked →
    c.recovery.ackDue = false → c.recovery.ackDueAt ≠ 0 → c.WaitsInTime := by
  intro hall
  have hr : machine.Reachable (flushingWriter 20000000) :=
    Machine.reachable_of_exec [.received 1, .tick 19999999, .writeNext false, .tick 1]
      ⟨.default, 17, 1000, 30000000000, rfl⟩ rfl
  obtain ⟨c', hs, expires, heartbeatTick, htimer, hle⟩ := hall _ hr _ rfl rfl (by decide)
  cases hs
  cases htimer
  exact absurd hle (by decide)

end AckTimer

end AdaptiveMsg
