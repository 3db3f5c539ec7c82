import AdaptiveMsg.Replay

/-!
# Recovery state

The acknowledgement bookkeeping of `RecoveryState` in `recovery.rs`: what was received, what was
acknowledged, and when the next ACK is due.  Times are nanoseconds since `epoch`; `now` is what
`elapsed_nanos` reads.  Every function here runs under the lock of `fields`, so it is one step.

`AckInv`: an ACK is scheduled whenever the last one sent is not for the last frame received.
-/

namespace AdaptiveMsg

inductive RecoveryRole where
  | client
  | server
  deriving DecidableEq, Repr

/-- The other side of the connection. -/
def RecoveryRole.peer : RecoveryRole → RecoveryRole
  | .client => .server
  | .server => .client

@[simp] theorem RecoveryRole.peer_peer (s : RecoveryRole) : s.peer.peer = s := by cases s <;> rfl

@[simp] theorem RecoveryRole.peer_ne (s : RecoveryRole) : s.peer ≠ s := by cases s <;> simp [peer]

@[simp] theorem RecoveryRole.ne_peer (s : RecoveryRole) : s ≠ s.peer := by cases s <;> simp [peer]

instance RecoveryRole.decidableForall (p : RecoveryRole → Prop) [DecidablePred p] :
    Decidable (∀ s, p s) :=
  decidable_of_iff (p .client ∧ p .server) ⟨fun h s => by cases s <;> simp [h], fun h => ⟨h _, h _⟩⟩

theorem RecoveryRole.eq_or_eq_peer (s s' : RecoveryRole) : s' = s ∨ s' = s.peer := by
  cases s <;> cases s' <;> simp [peer]

/-- The part of the negotiated options that acknowledgements depend on. -/
structure NegotiatedRecoveryOptions where
  ackEvery : Nat
  ackDelay : Nat
  deriving DecidableEq, Repr

namespace NegotiatedRecoveryOptions

protected def default : NegotiatedRecoveryOptions := ⟨64, 20000000⟩

def normalized (opts : NegotiatedRecoveryOptions) : NegotiatedRecoveryOptions where
  ackEvery := if opts.ackEvery = 0 then NegotiatedRecoveryOptions.default.ackEvery else opts.ackEvery
  ackDelay := if opts.ackDelay = 0 then NegotiatedRecoveryOptions.default.ackDelay else opts.ackDelay

end NegotiatedRecoveryOptions

structure RecoveryState where
  replay : ReplayBuffer
  shared : NegotiatedRecoveryOptions
  lastRecvSeq : Nat
  lastAckSent : Nat
  ackPending : Nat
  ackDue : Bool
  /-- Zero while no ACK is scheduled. -/
  ackDueAt : Nat
  deriving DecidableEq, Repr

namespace RecoveryState

/-- `new_client` and `new_server`. -/
def new (negotiated : NegotiatedRecoveryOptions) (headerLen : Nat) (maxReplayBytes : Int) :
    RecoveryState :=
  ⟨.new headerLen maxReplayBytes, negotiated.normalized, 0, 0, 0, false, 0⟩

variable (r : RecoveryState)

def lastReceived : Nat := r.lastRecvSeq

def ackReceived (lastSeq : Nat) : RecoveryState := { r with replay := r.replay.ack lastSeq }

def negotiated : NegotiatedRecoveryOptions := r.shared

def setNegotiated (opts : NegotiatedRecoveryOptions) : RecoveryState :=
  { r with shared := opts.normalized }

/-- The frames to replay after a resume at `lastSeq`, which acknowledges the frames up to it. -/
def prepareResume (lastSeq : Nat) : List FrameRecord × RecoveryState :=
  let replay := r.replay.ack lastSeq
  (replay.snapshotFrom lastSeq, { r with replay := replay })

/-- Notes a received data frame; whether the writer should be woken for an ACK. -/
def noteReceived (now seq : Nat) : Bool × RecoveryState :=
  if seq ≤ r.lastRecvSeq then
    (true, if r.lastAckSent < r.lastRecvSeq then { r with ackDue := true } else r)
  else
    let r := { r with lastRecvSeq := seq, ackPending := r.ackPending + 1 }
    if r.shared.ackEvery ≤ 1 ∨ r.ackPending ≥ r.shared.ackEvery ∨ r.shared.ackDelay = 0 then
      (true, { r with ackDue := true, ackDueAt := 0 })
    else if r.ackDueAt = 0 then (true, { r with ackDueAt := now + r.shared.ackDelay })
    else (false, r)

/-- Whether an ACK is due at `now`. -/
def ackMayBeDue (now : Nat) : Bool := r.ackDue || (r.ackDueAt ≠ 0 && r.ackDueAt ≤ now)

def takePendingAck (now : Nat) : Option Nat × RecoveryState :=
  if !r.ackMayBeDue now then (none, r)
  else if r.lastAckSent ≥ r.lastRecvSeq then (none, { r with ackDue := false, ackDueAt := 0 })
  else
    (some r.lastRecvSeq,
      { r with lastAckSent := r.lastRecvSeq, ackPending := 0, ackDue := false, ackDueAt := 0 })

/-! ### An ACK is scheduled while one is owed -/

def AckScheduled : Prop := r.ackDue = true ∨ r.ackDueAt ≠ 0

instance : Decidable r.AckScheduled := inferInstanceAs (Decidable (_ ∨ _))

structure AckInv : Prop where
  sent_le : r.lastAckSent ≤ r.lastRecvSeq
  scheduled : r.lastAckSent < r.lastRecvSeq → r.AckScheduled

variable {r}

theorem ackInv_new (opts : NegotiatedRecoveryOptions) (headerLen : Nat) (maxReplayBytes : Int) :
    (new opts headerLen maxReplayBytes).AckInv :=
  ⟨Nat.le_refl _, fun h => absurd h (Nat.lt_irrefl _)⟩

theorem lastRecvSeq_noteReceived (now seq : Nat) :
    (r.noteReceived now seq).2.lastRecvSeq = max r.lastRecvSeq seq := by
  simp only [noteReceived]
  split
  · split <;> (simp only; omega)
  · repeat' split
    all_goals (simp only; omega)

theorem lastAckSent_noteReceived (now seq : Nat) :
    (r.noteReceived now seq).2.lastAckSent = r.lastAckSent := by
  simp only [noteReceived]
  repeat' split
  all_goals rfl

theorem replay_noteReceived (now seq : Nat) : (r.noteReceived now seq).2.replay = r.replay := by
  simp only [noteReceived]
  repeat' split
  all_goals rfl

theorem AckInv.noteReceived (h : r.AckInv) (now seq : Nat) : (r.noteReceived now seq).2.AckInv := by
  refine ⟨?_, ?_⟩
  · rw [lastAckSent_noteReceived, lastRecvSeq_noteReceived]
    exact Nat.le_trans h.sent_le (Nat.le_max_left _ _)
  · simp only [RecoveryState.noteReceived]
    split
    · split
      · exact fun _ => .inl rfl
      · exact h.scheduled
    · split
      · exact fun _ => .inl rfl
      · rename_i hevery
        split
        · refine fun _ => .inr ?_
          simp only [not_or] at hevery ⊢
          omega
        · exact fun _ => .inr ‹_›

/-- An ACK is for the last frame received. -/
theorem takePendingAck_some {now k : Nat} (h : (r.takePendingAck now).1 = some k) :
    k = r.lastRecvSeq ∧ (r.takePendingAck now).2.lastAckSent = k := by
  revert h
  simp only [takePendingAck]
  repeat' split
  all_goals intro h
  all_goals first | cases h; done | skip
  cases h
  exact ⟨rfl, rfl⟩

theorem takePendingAck_none {now : Nat} (h : (r.takePendingAck now).1 = none) :
    (r.takePendingAck now).2.lastAckSent = r.lastAckSent := by
  revert h
  simp only [takePendingAck]
  repeat' split
  all_goals intro h
  all_goals first | rfl | cases h

@[simp] theorem lastRecvSeq_takePendingAck (now : Nat) :
    (r.takePendingAck now).2.lastRecvSeq = r.lastRecvSeq := by
  simp only [takePendingAck]
  repeat' split
  all_goals rfl

@[simp] theorem replay_takePendingAck (now : Nat) :
    (r.takePendingAck now).2.replay = r.replay := by
  simp only [takePendingAck]
  repeat' split
  all_goals rfl

theorem AckInv.takePendingAck (h : r.AckInv) (now : Nat) : (r.takePendingAck now).2.AckInv := by
  simp only [RecoveryState.takePendingAck]
  split
  · exact h
  · split
    · rename_i hsent
      exact ⟨h.sent_le, fun hlt => absurd hsent (Nat.not_le.mpr hlt)⟩
    · exact ⟨Nat.le_refl _, fun hlt => absurd hlt (Nat.lt_irrefl _)⟩

end RecoveryState

end AdaptiveMsg
