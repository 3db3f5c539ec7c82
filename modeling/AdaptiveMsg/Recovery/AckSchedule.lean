import AdaptiveMsg.Machine.Monitor
import AdaptiveMsg.Recovery.Options

/-!
# Recovery — the schedule of acknowledgements

`note_received`, `take_pending_ack` and `set_negotiated` of `recovery.rs`, called by any number of
tasks on one `RecoveryState`.  `fields` is behind a lock; when the next ACK is due, and how often
one is due, are atomics beside it, and every load and store of those is an operation of its own.

* `exec_lockStep`: what holds of the numbers and the schedule while the lock is free, and at each
  line of the three functions while it is taken.
* `ack_bookkeeping`: an ACK is scheduled exactly while one is owed, in the runs where no due time
  is zero in its 64 bits; each ACK is for the last number received and above those before it.
* `numbers_end`: a due time of 2^64 ns is no due time, and the count of new frames starts again
  after 2^32 of them.
-/

namespace AdaptiveMsg

namespace AckSchedule

open Machine.Pool

/-! ### The state and the three functions -/

structure Shared where
  /-- The lock of `fields`. -/
  locked : Bool
  shared : Options.NegotiatedRecoveryOptions
  lastRecvSeq : Nat
  lastAckSent : Nat
  ackPending : UInt32
  ackEvery : UInt32
  ackDelayNanos : Int64
  ackDue : Bool
  /-- Zero while no ACK is scheduled. -/
  ackDueAt : UInt64
  /-- Nanoseconds since `epoch`. -/
  now : Nat
  /-- Ghost: the new frames noted since the last ACK was taken. -/
  newFrames : Nat
  /-- Ghost: what `take_pending_ack` returned, with the last number received at that moment. -/
  acks : List (Nat × Nat)
  deriving DecidableEq

/-- What a call returns. -/
inductive Returned where
  /-- `note_received`: whether the writer should be woken for an ACK. -/
  | noted (wake : Bool)
  | ack (seq : Option Nat)
  | negotiated
  deriving DecidableEq

/-- The next operation of a call. -/
inductive Pc where
  | noteReceived (seq : Nat)
  | compare (seq : Nat)
  | duplicate
  | loadEvery
  | loadDelay (ackEvery : UInt32)
  | scheduleNow
  | clearDelayed
  | loadDueAt (ackDelay : UInt64)
  | readClock (ackDelay : UInt64)
  | storeDueAt (dueAt : UInt64)
  /-- `ack_may_be_due`, before the lock is taken or while it is held. -/
  | loadDue (inLock : Bool)
  | loadDueTime (inLock : Bool)
  | compareClock (inLock : Bool) (dueAt : UInt64)
  | lockFields
  | compareSent
  | takeAck
  | clearDue (ack : Option Nat)
  | clearDueAt (ack : Option Nat)
  | setNegotiated (opts : Options.NegotiatedRecoveryOptions)
  | storeShared (normalized : Options.NegotiatedRecoveryOptions)
  | unlockShared (normalized : Options.NegotiatedRecoveryOptions)
  | storeEvery (normalized : Options.NegotiatedRecoveryOptions)
  | storeDelay (normalized : Options.NegotiatedRecoveryOptions)
  /-- The lock is given back, and the call returns. -/
  | unlock (r : Returned)
  | done (r : Returned)
  deriving DecidableEq

/-- `as_nanos() as i64`. -/
def delayNanos (delay : Duration) : Int64 := (UInt64.ofNat delay.asNanos).toInt64

/-- `.max(0) as u64`. -/
def nonNegative (nanos : Int64) : UInt64 := if nanos < 0 then 0 else nanos.toUInt64

def elapsedNanos (s : Shared) : UInt64 := UInt64.ofNat s.now

/-- `ack_may_be_due` has its answer. -/
def judged (inLock due : Bool) : Pc :=
  match inLock, due with
  | false, true => .lockFields
  | false, false => .done (.ack none)
  | true, true => .takeAck
  | true, false => .unlock (.ack none)

/-- One operation of a call.  The two stores of `set_negotiated` that no ACK depends on, those of
the heartbeat, are left out. -/
def exec (s : Shared) : Pc → Option (Shared × Pc)
  -- note_received
  | .noteReceived seq => if s.locked then none else some ({ s with locked := true }, .compare seq)
  | .compare seq =>
    if seq ≤ s.lastRecvSeq then
      some (s, if s.lastAckSent < s.lastRecvSeq then .duplicate else .unlock (.noted true))
    else
      some ({ s with
        lastRecvSeq := seq
        ackPending := s.ackPending + 1
        newFrames := s.newFrames + 1 }, .loadEvery)
  | .duplicate => some ({ s with ackDue := true }, .unlock (.noted true))
  | .loadEvery => some (s, .loadDelay s.ackEvery)
  | .loadDelay ackEvery =>
    let ackDelay := nonNegative s.ackDelayNanos
    some (s, if ackEvery ≤ 1 ∨ ackEvery ≤ s.ackPending ∨ ackDelay = 0 then .scheduleNow
      else .loadDueAt ackDelay)
  | .scheduleNow => some ({ s with ackDue := true }, .clearDelayed)
  | .clearDelayed => some ({ s with ackDueAt := 0 }, .unlock (.noted true))
  | .loadDueAt ackDelay =>
    some (s, if s.ackDueAt = 0 then .readClock ackDelay else .unlock (.noted false))
  | .readClock ackDelay => some (s, .storeDueAt (elapsedNanos s + ackDelay))
  | .storeDueAt dueAt => some ({ s with ackDueAt := dueAt }, .unlock (.noted true))
  -- take_pending_ack
  | .loadDue inLock => some (s, if s.ackDue then judged inLock true else .loadDueTime inLock)
  | .loadDueTime inLock =>
    some (s, if s.ackDueAt = 0 then judged inLock false else .compareClock inLock s.ackDueAt)
  | .compareClock inLock dueAt => some (s, judged inLock (dueAt ≤ elapsedNanos s))
  | .lockFields => if s.locked then none else some ({ s with locked := true }, .compareSent)
  | .compareSent =>
    some (s, if s.lastRecvSeq ≤ s.lastAckSent then .clearDue none else .loadDue true)
  | .takeAck =>
    some ({ s with lastAckSent := s.lastRecvSeq, ackPending := 0, newFrames := 0 },
      .clearDue (some s.lastRecvSeq))
  | .clearDue ack => some ({ s with ackDue := false }, .clearDueAt ack)
  | .clearDueAt ack => some ({ s with ackDueAt := 0 }, .unlock (.ack ack))
  -- set_negotiated
  | .setNegotiated opts =>
    if s.locked then none else some ({ s with locked := true }, .storeShared opts.normalized)
  | .storeShared normalized => some ({ s with shared := normalized }, .unlockShared normalized)
  | .unlockShared normalized => some ({ s with locked := false }, .storeEvery normalized)
  | .storeEvery normalized =>
    some ({ s with ackEvery := normalized.ackEvery }, .storeDelay normalized)
  | .storeDelay normalized =>
    some ({ s with ackDelayNanos := delayNanos normalized.ackDelay }, .done .negotiated)
  | .unlock (.ack (some seq)) =>
    some ({ s with locked := false, acks := s.acks ++ [(seq, s.lastRecvSeq)] },
      .done (.ack (some seq)))
  | .unlock r => some ({ s with locked := false }, .done r)
  | .done _ => none

/-- The calls. -/
def Pc.isCall : Pc → Bool
  | .noteReceived _ | .loadDue false | .setNegotiated _ => true
  | _ => false

def Shared.elapse (s : Shared) (nanos : Nat) : Shared := { s with now := s.now + nanos }

abbrev State := Machine.Pool.State Shared Pc
abbrev Event := Machine.Pool.Event Pc Nat

/-- An operation comes with the time that has passed since the one before it. -/
def program : Program Shared Pc Nat where
  move s _ _ pc nanos := (exec (s.elapse nanos) pc).map fun r => (r.1, r.2, [])
  start _ pc := pc.isCall

/-- `RecoveryState::new_client` and `new_server`. -/
def Shared.new (negotiated : Options.NegotiatedRecoveryOptions) : Shared where
  locked := false
  shared := negotiated.normalized
  lastRecvSeq := 0
  lastAckSent := 0
  ackPending := 0
  ackEvery := negotiated.normalized.ackEvery
  ackDelayNanos := delayNanos negotiated.normalized.ackDelay
  ackDue := false
  ackDueAt := 0
  now := 0
  newFrames := 0
  acks := []

def machine : Machine State Event where
  init c := ∃ negotiated, c = ⟨Shared.new negotiated, []⟩
  step := program.step

variable {s s' : Shared} {r : Schedule} {pc pc' : Pc} {c c' : State} {e : Event} {nanos : Nat}
variable {nz : Prop}

/-! ### What the lock guards -/

/-- The numbers and the schedule, which only the holder of the lock changes. -/
structure Schedule where
  lastRecvSeq : Nat
  lastAckSent : Nat
  ackDue : Bool
  ackDueAt : UInt64
  acks : List (Nat × Nat)

def Shared.schedule (s : Shared) : Schedule where
  lastRecvSeq := s.lastRecvSeq
  lastAckSent := s.lastAckSent
  ackDue := s.ackDue
  ackDueAt := s.ackDueAt
  acks := s.acks

namespace Schedule

def Scheduled (r : Schedule) : Prop := r.ackDue = true ∨ r.ackDueAt ≠ 0

def Owed (r : Schedule) : Prop := r.lastAckSent < r.lastRecvSeq

/-- The last ACK sent is the last one returned, and the highest. -/
structure Taken (sent : Nat) (acks : List (Nat × Nat)) : Prop where
  last : sent = 0 ∨ ∃ a ∈ acks, sent = a.1
  le : ∀ a ∈ acks, a.1 ≤ sent

/-- While the lock is free.  `nz` says that no due time has been zero. -/
structure Settled (nz : Prop) (r : Schedule) : Prop where
  taken : Taken r.lastAckSent r.acks
  owed_of_scheduled : r.Scheduled → r.Owed
  scheduled_of_owed : nz → r.Owed → r.Scheduled

/-- An ACK has been taken, for the last number received, and is not returned yet. -/
structure Taking (recv sent : Nat) (acks : List (Nat × Nat)) (seq : Nat) : Prop where
  eq_recv : seq = recv
  eq_sent : seq = sent
  lt : ∀ a ∈ acks, a.1 < seq

/-- Nothing is owed, and what `take_pending_ack` returns has been taken. -/
def Clearing (recv sent : Nat) (acks : List (Nat × Nat)) : Option Nat → Prop
  | none => Taken sent acks ∧ ¬sent < recv
  | some seq => Taking recv sent acks seq

theorem not_scheduled (hd : r.ackDue = false) (hdue : r.ackDueAt = 0) : ¬r.Scheduled := by
  rintro (h | h)
  · rw [hd] at h
    cases h
  · exact h hdue

/-- An ACK is scheduled where one is owed. -/
theorem Settled.of_owed (ht : Taken r.lastAckSent r.acks) (ho : r.Owed) (hs : nz → r.Scheduled) :
    Settled nz r :=
  ⟨ht, fun _ => ho, fun h _ => hs h⟩

/-- None is scheduled where none is owed. -/
theorem Settled.of_not (ht : Taken r.lastAckSent r.acks) (ho : ¬r.Owed) (hs : ¬r.Scheduled) :
    Settled nz r :=
  ⟨ht, fun h => absurd h hs, fun _ h => absurd h ho⟩

/-- An ACK that is taken is above those before it. -/
theorem Taken.taking (h : Taken r.lastAckSent r.acks) (ho : r.Owed) :
    Taking r.lastRecvSeq r.lastRecvSeq r.acks r.lastRecvSeq :=
  ⟨rfl, rfl, fun a ha => Nat.lt_of_le_of_lt (h.le a ha) ho⟩

/-- Once the ACK is returned, it is the last one. -/
theorem Taking.settled {seq : Nat} (h : Taking r.lastRecvSeq r.lastAckSent r.acks seq)
    (hs : ¬r.Scheduled) : Settled nz { r with acks := r.acks ++ [(seq, r.lastRecvSeq)] } := by
  have ho : ¬r.Owed := Nat.not_lt.2 (Nat.le_of_eq (h.eq_recv.symm.trans h.eq_sent))
  refine .of_not ⟨.inr ⟨_, List.mem_append_right _ (List.mem_singleton_self _), h.eq_sent.symm⟩, ?_⟩
    ho hs
  intro a ha
  rcases List.mem_append.mp ha with ha | ha
  · exact Nat.le_of_lt (Nat.lt_of_lt_of_eq (h.lt a ha) h.eq_sent)
  · rw [List.mem_singleton.mp ha]
    exact Nat.le_of_eq h.eq_sent

end Schedule

open Schedule

/-- The control states that hold the lock. -/
def Pc.holdsLock : Pc → Bool
  | .noteReceived _ | .setNegotiated _ | .lockFields | .storeEvery _ | .storeDelay _ | .done _ => false
  | .loadDue inLock | .loadDueTime inLock | .compareClock inLock _ => inLock
  | _ => true

/-- What holds at each control state that holds the lock. -/
def At (nz : Prop) (r : Schedule) : Pc → Prop
  | .duplicate | .loadDue _ | .loadDueTime _ | .compareClock _ _ | .takeAck => Settled nz r ∧ r.Owed
  | .loadEvery | .loadDelay _ | .loadDueAt _ | .readClock _ | .scheduleNow =>
    Taken r.lastAckSent r.acks ∧ r.Owed
  | .storeDueAt dueAt => Taken r.lastAckSent r.acks ∧ r.Owed ∧ (nz → dueAt ≠ 0)
  | .clearDelayed => Taken r.lastAckSent r.acks ∧ r.Owed ∧ r.ackDue = true
  | .clearDue ack => Clearing r.lastRecvSeq r.lastAckSent r.acks ack
  | .clearDueAt ack => Clearing r.lastRecvSeq r.lastAckSent r.acks ack ∧ r.ackDue = false
  | .unlock (.ack (some seq)) =>
    Taking r.lastRecvSeq r.lastAckSent r.acks seq ∧ ¬r.Scheduled
  | _ => Settled nz r

/-- `ack_may_be_due` disturbs nothing, in the lock or outside it. -/
theorem lockStep_judged (inLock due : Bool) (hp : pc.holdsLock = inLock) (hl : s'.locked = s.locked)
    (hs : s'.schedule = s.schedule)
    (hA : inLock = true → At nz s.schedule pc → Settled nz s.schedule ∧ s.schedule.Owed) :
    LockStep Pc.holdsLock Shared.locked (Settled nz ·.schedule) (At nz ·.schedule) s pc s'
      (judged inLock due) := by
  cases inLock with
  | false =>
      refine .outside hp (by cases due <;> rfl) hl (fun hI => ?_) fun u _ hu => ?_
      · exact hs ▸ hI
      · exact hs ▸ hu
  | true =>
      refine .inside hp (by cases due <;> rfl) hl fun h => ?_
      simp only [hs]
      cases due with
      | false => exact (hA rfl h).1
      | true => exact hA rfl h

/-- **Each line of the three functions**, by what it does with the lock. -/
theorem exec_lockStep (h : exec (s.elapse nanos) pc = some (s', pc'))
    (hnz : nz → ∀ ackDelay, pc = .readClock ackDelay →
      elapsedNanos (s.elapse nanos) + ackDelay ≠ 0) (hle : s.lastAckSent ≤ s.lastRecvSeq) :
    LockStep Pc.holdsLock Shared.locked (Settled nz ·.schedule) (At nz ·.schedule) s pc s' pc' := by
  cases pc with
  | noteReceived seq | lockFields | setNegotiated opts =>
      simp only [exec] at h
      split at h
      · cases h
      · rename_i hfree
        cases h
        exact .acquire rfl rfl (Bool.eq_false_iff.2 hfree) rfl fun hI => hI
  | compare seq =>
      simp only [exec] at h
      split at h
      · cases h
        split
        · exact .inside rfl rfl rfl fun hA => ⟨hA, ‹_›⟩
        · exact .inside rfl rfl rfl fun hA => hA
      · rename_i hnew
        cases h
        exact .inside rfl rfl rfl fun hA =>
          ⟨hA.taken, Nat.lt_of_le_of_lt hle (Nat.lt_of_not_le hnew)⟩
  | duplicate =>
      cases h
      exact .inside rfl rfl rfl fun hA => .of_owed hA.1.taken hA.2 fun _ => .inl rfl
  | loadEvery =>
      cases h
      exact .inside rfl rfl rfl fun hA => hA
  | loadDelay ackEvery =>
      cases h
      split
      · exact .inside rfl rfl rfl fun hA => hA
      · exact .inside rfl rfl rfl fun hA => hA
  | scheduleNow =>
      cases h
      exact .inside rfl rfl rfl fun hA => ⟨hA.1, hA.2, rfl⟩
  | clearDelayed =>
      cases h
      exact .inside rfl rfl rfl fun hA => .of_owed hA.1 hA.2.1 fun _ => .inl hA.2.2
  | loadDueAt ackDelay =>
      cases h
      split
      · exact .inside rfl rfl rfl fun hA => hA
      · -- the earlier due time stands
        exact .inside rfl rfl rfl fun hA => .of_owed hA.1 hA.2 fun _ => .inr ‹_›
  | readClock ackDelay =>
      cases h
      exact .inside rfl rfl rfl fun hA => ⟨hA.1, hA.2, fun h => hnz h ackDelay rfl⟩
  | storeDueAt dueAt =>
      cases h
      exact .inside rfl rfl rfl fun hA => .of_owed hA.1 hA.2.1 fun h => .inr (hA.2.2 h)
  | loadDue inLock =>
      cases h
      split
      · exact lockStep_judged inLock true rfl rfl rfl fun _ hA => hA
      · cases inLock with
        | false => exact .outside rfl rfl rfl (fun hI => hI) fun _ _ hu => hu
        | true => exact .inside rfl rfl rfl fun hA => hA
  | loadDueTime inLock =>
      cases h
      split
      · exact lockStep_judged inLock false rfl rfl rfl fun _ hA => hA
      · cases inLock with
        | false => exact .outside rfl rfl rfl (fun hI => hI) fun _ _ hu => hu
        | true => exact .inside rfl rfl rfl fun hA => hA
  | compareClock inLock dueAt =>
      cases h
      exact lockStep_judged inLock _ rfl rfl rfl fun _ hA => hA
  | compareSent =>
      cases h
      split
      · rename_i hsent
        exact .inside rfl rfl rfl fun hA => ⟨hA.taken, Nat.not_lt.2 hsent⟩
      · rename_i hsent
        exact .inside rfl rfl rfl fun hA => ⟨hA, Nat.lt_of_not_le hsent⟩
  | takeAck =>
      cases h
      exact .inside rfl rfl rfl fun hA => hA.1.taken.taking hA.2
  | clearDue ack =>
      cases h
      exact .inside rfl rfl rfl fun hA => ⟨hA, rfl⟩
  | clearDueAt ack =>
      cases h
      refine .inside rfl rfl rfl fun ⟨hA, hdue⟩ => ?_
      cases ack with
      | none => exact .of_not hA.1 hA.2 (not_scheduled hdue rfl)
      | some seq => exact ⟨hA, not_scheduled hdue rfl⟩
  | storeShared normalized =>
      cases h
      exact .inside rfl rfl rfl fun hA => hA
  | unlockShared normalized =>
      cases h
      exact .release rfl rfl rfl fun hA => hA
  | storeEvery normalized | storeDelay normalized =>
      cases h
      exact .outside rfl rfl rfl (fun hI => hI) fun _ _ hu => hu
  | unlock r =>
      rcases r with wake | (_ | seq) | _
      · cases h
        exact .release rfl rfl rfl fun hA => hA
      · cases h
        exact .release rfl rfl rfl fun hA => hA
      · cases h
        exact .release rfl rfl rfl fun hA => hA.1.settled hA.2
      · cases h
        exact .release rfl rfl rfl fun hA => hA
  | done r => cases h

/-! ### Every run -/

/-- What the fields say by themselves. -/
structure Fields (s : Shared) : Prop where
  sent_le : s.lastAckSent ≤ s.lastRecvSeq
  pending_eq : s.ackPending = UInt32.ofNat s.newFrames

/-- The counts move together. -/
theorem fields_exec (hI : Fields s) (h : exec (s.elapse nanos) pc = some (s', pc')) : Fields s' := by
  have hsame : s'.lastAckSent = s.lastAckSent → s'.lastRecvSeq = s.lastRecvSeq →
      s'.ackPending = s.ackPending → s'.newFrames = s.newFrames → Fields s' := by
    intro h₁ h₂ h₃ h₄
    exact ⟨h₁ ▸ h₂ ▸ hI.sent_le, h₃ ▸ h₄ ▸ hI.pending_eq⟩
  cases pc with
  | noteReceived seq | lockFields | setNegotiated opts =>
      simp only [exec] at h
      split at h
      · cases h
      · cases h
        exact hsame rfl rfl rfl rfl
  | compare seq =>
      simp only [exec] at h
      split at h
      · cases h
        exact hsame rfl rfl rfl rfl
      · rename_i hnew
        cases h
        refine ⟨Nat.le_trans hI.sent_le (Nat.le_of_lt (Nat.lt_of_not_le hnew)), ?_⟩
        calc
          s.ackPending + 1 = UInt32.ofNat s.newFrames + 1 := by rw [hI.pending_eq]
          _ = UInt32.ofNat (s.newFrames + 1) := (UInt32.ofNat_add _ _).symm
  | takeAck =>
      cases h
      exact ⟨Nat.le_refl _, rfl⟩
  | unlock r =>
      rcases r with wake | (_ | seq) | _ <;> cases h <;> exact hsame rfl rfl rfl rfl
  | done r => cases h
  | _ =>
      cases h
      exact hsame rfl rfl rfl rfl

/-- The due time that the task at `t` computes next, if it does, is not zero in its 64 bits. -/
def setsDueTime (now : Nat) : Option Pc → Bool
  | some (.readClock ackDelay) => (now + ackDelay.toNat) % 2 ^ 64 ≠ 0
  | _ => true

def DueTimeSet (c : State) : Event → Prop
  | .task i nanos => setsDueTime (c.shared.now + nanos) c.tasks[i]? = true
  | .start _ => True

instance (c : State) : ∀ e, Decidable (DueTimeSet c e)
  | .task _ _ => inferInstanceAs (Decidable (_ = true))
  | .start _ => isTrue trivial

theorem dueTime_ne_zero {ackDelay : UInt64}
    (h : (s.now + nanos + ackDelay.toNat) % 2 ^ 64 ≠ 0) :
    elapsedNanos (s.elapse nanos) + ackDelay ≠ 0 := by
  intro h0
  have hnat := congrArg UInt64.toNat h0
  simp only [elapsedNanos, Shared.elapse, UInt64.toNat_add, UInt64.toNat_ofNat', UInt64.toNat_zero]
    at hnat
  omega

/-- A step of the pool is an operation of one call. -/
theorem move_cases {n i : Nat} {new : List Pc}
    (h : program.move s n i pc nanos = some (s', pc', new)) :
    exec (s.elapse nanos) pc = some (s', pc') ∧ new = [] := by
  obtain ⟨r, hr, he⟩ := Option.map_eq_some_iff.mp h
  cases he
  exact ⟨hr, rfl⟩

theorem holdsLock_of_isCall (h : pc.isCall = true) : pc.holdsLock = false := by
  cases pc with
  | loadDue inLock =>
      cases inLock with
      | false => rfl
      | true => cases h
  | noteReceived seq | setNegotiated opts => rfl
  | _ => cases h

/-- The fields, and the monitor of their lock. -/
structure Inv (nz : Prop) (c : State) : Prop where
  fields : Fields c.shared
  monitor : Monitor Pc.holdsLock Shared.locked (Settled nz ·.schedule) (At nz ·.schedule) c

theorem inv_init (hc : machine.init c) : Inv nz c := by
  obtain ⟨negotiated, rfl⟩ := hc
  refine ⟨⟨Nat.le_refl _, rfl⟩, .init rfl ?_⟩
  exact .of_not ⟨.inl rfl, by simp [Shared.schedule, Shared.new]⟩ (Nat.lt_irrefl 0)
    (not_scheduled rfl rfl)

theorem inv_step (hI : Inv nz c) (hnz : nz → DueTimeSet c e) (h : machine.step c e = some c') :
    Inv nz c' := by
  refine ⟨?_, hI.monitor.step h ?_ fun t ht => holdsLock_of_isCall ht⟩
  · rcases Program.step_cases h with ⟨i, x, t, s', t', new, -, -, hm, rfl⟩ | ⟨t, -, -, rfl⟩
    · exact fields_exec hI.fields (move_cases hm).1
    · exact hI.fields
  · intro i x t s' t' new he ht hm
    obtain ⟨hx, rfl⟩ := move_cases hm
    refine ⟨exec_lockStep hx ?_ hI.fields.sent_le, by simp⟩
    rintro h ackDelay rfl
    have hset := hnz h
    rw [he, DueTimeSet, ht] at hset
    exact dueTime_ne_zero (of_decide_eq_true hset)

theorem inv_reachable (h : machine.Reachable c) : Inv False c :=
  h.invariant (fun _ => inv_init) fun _ _ _ hI _ hs => inv_step hI False.elim hs

theorem inv_reachableUnder (h : machine.ReachableUnder DueTimeSet c) : Inv True c :=
  h.invariant (fun _ => inv_init) fun _ _ _ hI hC hs => inv_step hI (fun _ => hC) hs

/-! ### The ACKs returned -/

/-- Each is for the last number received at that moment, and above those before it. -/
structure Rising (acks : List (Nat × Nat)) : Prop where
  pairwise : acks.Pairwise fun a b => a.1 < b.1
  last : ∀ a ∈ acks, a.1 = a.2

/-- Only the return of an ACK adds to them. -/
theorem acks_exec (h : exec (s.elapse nanos) pc = some (s', pc')) :
    s'.acks = s.acks ∨
      ∃ seq, pc = .unlock (.ack (some seq)) ∧ s'.acks = s.acks ++ [(seq, s.lastRecvSeq)] := by
  cases pc with
  | noteReceived seq | lockFields | setNegotiated opts | compare seq =>
      simp only [exec] at h
      split at h
      all_goals cases h
      all_goals exact .inl rfl
  | unlock r =>
      rcases r with wake | (_ | seq) | _
      · cases h
        exact .inl rfl
      · cases h
        exact .inl rfl
      · cases h
        exact .inr ⟨seq, rfl, rfl⟩
      · cases h
        exact .inl rfl
  | done r => cases h
  | _ =>
      cases h
      exact .inl rfl

theorem Rising.append {acks : List (Nat × Nat)} {recv sent seq : Nat} (h : Rising acks)
    (ht : Taking recv sent acks seq) : Rising (acks ++ [(seq, recv)]) := by
  refine ⟨List.pairwise_append.2 ⟨h.pairwise, List.pairwise_singleton _ _, ?_⟩, ?_⟩
  · intro a ha b hb
    rw [List.mem_singleton.mp hb]
    exact ht.lt a ha
  · intro a ha
    rcases List.mem_append.mp ha with ha | ha
    · exact h.last a ha
    · rw [List.mem_singleton.mp ha]
      exact ht.eq_recv

theorem rising_reachable (h : machine.Reachable c) : Rising c.shared.acks := by
  refine h.invariant_of (I := fun c => Rising c.shared.acks) (fun _ => inv_reachable) ?_ ?_
  · rintro _ ⟨negotiated, rfl⟩
    exact ⟨List.Pairwise.nil, by simp [Shared.new]⟩
  · intro c e c' hJ hI _ hs
    rcases Program.step_cases hs with ⟨i, x, t, s', t', new, -, ht, hm, rfl⟩ | ⟨t, -, -, rfl⟩
    · rcases acks_exec (move_cases hm).1 with hsame | ⟨seq, rfl, hacks⟩
      · exact hsame ▸ hI
      · have hA := hJ.monitor.holder _ (List.mem_of_getElem? ht) rfl
        exact hacks ▸ hI.append hA.1
    · exact hI

/-- **The bookkeeping of the acknowledgements.**  In every run the last ACK sent is for no number
above the last received, the frames pending are counted in 32 bits, and the ACKs returned rise, each
the last number received at that moment.  In a run where no due time is zero in its 64 bits, an ACK
is scheduled exactly while one is owed, and every frame is covered by an ACK that is scheduled or
has been taken. -/
theorem ack_bookkeeping :
    (∀ c, machine.Reachable c →
      c.shared.lastAckSent ≤ c.shared.lastRecvSeq ∧
      c.shared.ackPending.toNat = c.shared.newFrames % 2 ^ 32 ∧
      c.shared.acks.Pairwise (fun a b => a.1 < b.1) ∧ ∀ a ∈ c.shared.acks, a.1 = a.2) ∧
    ∀ c, machine.ReachableUnder DueTimeSet c → c.shared.locked = false →
      (c.shared.schedule.Scheduled ↔ c.shared.lastAckSent < c.shared.lastRecvSeq) ∧
      ∀ seq, 0 < seq → seq ≤ c.shared.lastRecvSeq →
        c.shared.schedule.Scheduled ∨ ∃ a ∈ c.shared.acks, seq ≤ a.1 := by
  refine ⟨fun c hc => ?_, fun c hc hfree => ?_⟩
  · have hI := inv_reachable hc
    have hrising := rising_reachable hc
    refine ⟨hI.fields.sent_le, ?_, hrising.pairwise, hrising.last⟩
    rw [hI.fields.pending_eq]
    exact UInt32.toNat_ofNat'
  · have hS := (inv_reachableUnder hc).monitor.free hfree
    have hiff : c.shared.schedule.Scheduled ↔ c.shared.lastAckSent < c.shared.lastRecvSeq :=
      ⟨hS.owed_of_scheduled, hS.scheduled_of_owed trivial⟩
    refine ⟨hiff, fun seq hpos hle => ?_⟩
    by_cases ho : c.shared.lastAckSent < c.shared.lastRecvSeq
    · exact .inl (hiff.2 ho)
    · have hsent : seq ≤ c.shared.lastAckSent := Nat.le_trans hle (Nat.le_of_not_lt ho)
      obtain ⟨a, ha, he⟩ := hS.taken.last.resolve_left (Nat.ne_of_gt (Nat.lt_of_lt_of_le hpos hsent))
      exact .inr ⟨a, ha, Nat.le_trans hsent (Nat.le_of_eq he)⟩

/-- A call goes on for `n` operations after its next one, which comes `nanos` later. -/
def goes (i n nanos : Nat) : List Event := .task i nanos :: .replicate n (.task i 0)

def everySecond : Options.NegotiatedRecoveryOptions :=
  { Options.NegotiatedRecoveryOptions.default with ackEvery := 2 }

/-- With an ACK due at every second frame from now on: one is taken after a duplicate, one after a
second frame, and one 20 ms after a frame. -/
def callsMany : List Event :=
  .start (.setNegotiated everySecond) :: goes 0 4 0 ++
    .start (.noteReceived 1) :: goes 1 7 0 ++ .start (.noteReceived 1) :: goes 2 3 0 ++
    .start (.loadDue false) :: goes 3 7 0 ++
    .start (.noteReceived 2) :: goes 4 7 0 ++ .start (.noteReceived 3) :: goes 5 6 0 ++
    .start (.loadDue false) :: goes 6 7 0 ++
    .start (.noteReceived 4) :: goes 7 7 0 ++ .start (.loadDue false) :: goes 8 11 20000000 ++
    .start (.noteReceived 5) :: goes 9 7 0

/-- A fifth frame has been noted. -/
def ackedMany : State where
  shared :=
    { Shared.new everySecond with
      lastRecvSeq := 5, lastAckSent := 4, ackPending := 1, ackDueAt := 40000000, now := 20000000
      newFrames := 1, acks := [(1, 1), (3, 3), (4, 4)] }
  tasks := [.done .negotiated, .done (.noted true), .done (.noted true), .done (.ack (some 1)),
    .done (.noted true), .done (.noted true), .done (.ack (some 3)), .done (.noted true),
    .done (.ack (some 4)), .done (.noted true)]

theorem ack_bookkeeping_many : ∃ c, machine.ReachableUnder DueTimeSet c ∧
    c.shared.acks = [(1, 1), (3, 3), (4, 4)] ∧ c.shared.schedule.Scheduled := by
  have hr : machine.ReachableUnder DueTimeSet ackedMany :=
    .exec callsMany (.init ⟨.default, rfl⟩) (by decide +kernel) (by decide +kernel)
  exact ⟨ackedMany, hr, rfl, (ack_bookkeeping.2 ackedMany hr rfl).1.mpr (by decide)⟩

/-! ### Where the numbers end -/

/-- The due time is 2^64 ns after `epoch`: zero, which schedules nothing. -/
def undue : State where
  shared :=
    { Shared.new .default with
      lastRecvSeq := 1, ackPending := 1, now := 18446744073689551616, newFrames := 1 }
  tasks := [.done (.noted true)]

theorem undue_reachable : machine.Reachable undue :=
  Machine.reachable_of_exec
    [.start (.noteReceived 1), .task 0 0, .task 0 0, .task 0 0, .task 0 0, .task 0 0,
      .task 0 18446744073689551616, .task 0 0, .task 0 0] ⟨.default, rfl⟩ (by decide)

/-- The last call of a pool moves. -/
theorem step_last (tasks : List Pc) (h : exec (s.elapse 0) pc = some (s', pc')) :
    machine.step ⟨s, tasks ++ [pc]⟩ (.task tasks.length 0) = some ⟨s', tasks ++ [pc']⟩ := by
  simp [machine, Program.step, program, h]

/-- `n` frames are noted, with an ACK due at each, and none is taken. -/
def noted (n : Nat) : State where
  shared :=
    { Shared.new { Options.NegotiatedRecoveryOptions.default with ackEvery := 1 } with
      lastRecvSeq := n, ackPending := UInt32.ofNat n, ackDue := n ≠ 0, newFrames := n }
  tasks := .replicate n (.done (.noted true))

theorem noted_reachable (n : Nat) : machine.Reachable (noted n) := by
  induction n with
  | zero => exact .init ⟨{ Options.NegotiatedRecoveryOptions.default with ackEvery := 1 }, rfl⟩
  | succ n ih =>
      have h := ih.step (e := .start (.noteReceived (n + 1))) trivial rfl
      have h := h.step trivial (step_last _ rfl)
      have hnew : exec (Shared.elapse { (noted n).shared with locked := true } 0) (.compare (n + 1)) =
          some ({ (noted (n + 1)).shared with locked := true, ackDue := n ≠ 0 }, .loadEvery) := by
        refine (if_neg (Nat.not_succ_le_self n)).trans ?_
        simp [noted, Shared.elapse, Shared.new, UInt32.ofNat_add]
      have h := h.step trivial (step_last _ hnew)
      have h := h.step trivial (step_last _ rfl)
      have h := h.step trivial (step_last _ rfl)
      have h := h.step trivial (step_last _ rfl)
      have h := h.step trivial (step_last _ rfl)
      have h := h.step trivial (step_last _ rfl)
      have htasks : (noted (n + 1)).tasks = (noted n).tasks ++ [.done (.noted true)] :=
        List.replicate_succ'
      have hdue : (noted (n + 1)).shared.ackDue = true := decide_eq_true (Nat.succ_ne_zero n)
      have hend : noted (n + 1) =
          ⟨{ (noted (n + 1)).shared with ackDue := true }, (noted n).tasks ++ [.done (.noted true)]⟩ := by
        rw [← htasks, ← hdue]
      exact hend ▸ h

/-- The bookkeeping as it would be with numbers of any size fails twice: 2^32 frames are counted as
none, and an ACK that is owed is not scheduled. -/
theorem numbers_end :
    (¬∀ c, machine.Reachable c → c.shared.locked = false →
      c.shared.ackPending.toNat = c.shared.newFrames) ∧
    ¬∀ c, machine.Reachable c → c.shared.locked = false →
      (c.shared.schedule.Scheduled ↔ c.shared.lastAckSent < c.shared.lastRecvSeq) := by
  refine ⟨fun hall => ?_, fun hall => ?_⟩
  · have h : (UInt32.ofNat (2 ^ 32)).toNat = 2 ^ 32 := hall _ (noted_reachable (2 ^ 32)) rfl
    rw [UInt32.toNat_ofNat'] at h
    exact absurd h (by decide)
  · rcases (hall _ undue_reachable rfl).2 (by decide) with h | h
    · cases h
    · exact h rfl

end AckSchedule

end AdaptiveMsg
