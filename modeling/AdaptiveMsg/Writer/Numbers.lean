import AdaptiveMsg.Writer.Steps
import Mathlib.Data.List.Nodup
import Mathlib.Data.List.Range

/-!
# Writer — numbers follow the outbound queue

The writer draws frames from the outbound queue and numbers those that it keeps.  `Books`: what it
kept has the numbers from 1 on, and the replay buffer holds the part after `last_acked`.
`Accounts`: the frames drawn are those whose sender has its answer, and then the one held.

`numbers_follow_queue`: in every run that acknowledges only what was sent, frames get their numbers
in the order in which they left the queue, and every sender is told once what became of its frame.
-/

namespace AdaptiveMsg.Writer

open World

def OutboundFrame.frame? : OutboundFrame → Option (Nat × Frame)
  | .recovery queuedTx frame => some (queuedTx, frame)
  | .close => none

/-- The frames that left the outbound queue, in order. -/
def World.drawn (w : World) : List (Nat × Frame) := w.taken.filterMap OutboundFrame.frame?

/-! ### Numbers -/

/-- What is kept has the numbers from 1 on; the buffer has what is not acknowledged. -/
structure Books (b : ReplayBuffer) (next : Nat) (kept : List (Nat × FrameRecord)) : Prop where
  ordered : b.Inv
  next : next = kept.length
  numbers : kept.map (fun k => k.2.seq) = List.range' 1 kept.length
  buffer : ∀ r, r ∈ b.replayQueue ↔ r ∈ kept.map Prod.snd ∧ b.lastAcked < r.seq

section books

variable {b : ReplayBuffer} {next : Nat} {kept : List (Nat × FrameRecord)} {frame : Frame}
  {w w' : World} {e : Event} {a : Action}

theorem books_initial (headerLen : Nat) (maxBytes : Int) : Books (.new headerLen maxBytes) 0 [] :=
  ⟨ReplayBuffer.inv_new headerLen maxBytes, rfl, rfl, fun r => by simp [ReplayBuffer.new]⟩

theorem Books.seq_le (hB : Books b next kept) {r : FrameRecord} (hr : r ∈ kept.map Prod.snd) :
    r.seq ≤ next := by
  obtain ⟨k, hk, rfl⟩ := List.mem_map.1 hr
  have hmem : k.2.seq ∈ kept.map fun k => k.2.seq := List.mem_map_of_mem hk
  rw [hB.numbers, List.mem_range'_1] at hmem
  rw [hB.next]
  omega

/-- The next number is after those of all frames kept, if only what was sent is acknowledged. -/
theorem Books.fresh (hB : Books b next kept) (hacked : b.lastAcked ≤ next) : b.Fresh (next + 1) := by
  refine ⟨Nat.lt_succ_of_le hacked, fun last hlast => ?_⟩
  have hmem := ((hB.buffer last).1 (List.mem_of_getLast? hlast)).1
  exact Nat.lt_succ_of_le (hB.seq_le hmem)

theorem Books.ack (hB : Books b next kept) (lastSeq : Nat) : Books (b.ack lastSeq) next kept := by
  refine ⟨hB.ordered.ack lastSeq, hB.next, hB.numbers, fun r => ?_⟩
  rw [(hB.ordered.ack_eq lastSeq).1]
  simp only [List.mem_filter, decide_eq_true_eq, hB.buffer r, Nat.max_lt, and_assoc]

theorem Books.keep (hB : Books b next kept) (hfits : b.Fits frame) (hfresh : b.Fresh (next + 1))
    (queuedTx : Nat) : Books (b.push frame (next + 1)) (next + 1)
      (kept ++ [(queuedTx, ⟨frame, next + 1, ReplayBuffer.frameSize b.headerLen frame⟩)]) := by
  refine ⟨hB.ordered.push hfits hfresh, ?_, ?_, fun r => ?_⟩
  · rw [List.length_append, List.length_singleton, hB.next]
  · rw [List.map_append, hB.numbers, List.length_append, List.length_singleton, List.range'_concat,
      hB.next]
    simp [Nat.add_comm]
  · simp only [ReplayBuffer.push, List.mem_append, List.mem_singleton, hB.buffer r, List.map_append,
      List.map_cons, List.map_nil]
    constructor
    · rintro (⟨hr, hlt⟩ | rfl)
      · exact ⟨.inl hr, hlt⟩
      · exact ⟨.inr rfl, hfresh.1⟩
    · rintro ⟨hr | hr, hlt⟩
      · exact .inl ⟨hr, hlt⟩
      · exact .inr hr

theorem Books.move (hB : Books w.recovery.replay w.nextSendSeq w.kept) (h : Move w a w') :
    Books w'.recovery.replay w'.nextSendSeq w'.kept := by
  cases h with
  | attach hcmds pc hpc hlast => exact hB.ack _
  | pending hpc now pc hpc' =>
      rw [RecoveryState.replay_takePendingAck]
      exact hB
  | keep hd hfits hfresh pc hpc =>
      cases hd with
      | held => exact hB.keep hfits hfresh _
      | head => exact hB.keep hfits hfresh _
  | hold hd => cases hd <;> exact hB
  | refuse hd => cases hd <;> exact hB
  | fail =>
      simp only [World.detach]
      split <;> exact hB
  | _ => exact hB

theorem Books.aside (hB : Books w.recovery.replay w.nextSendSeq w.kept) (h : Aside w e w') :
    Books w'.recovery.replay w'.nextSendSeq w'.kept := by
  cases h with
  | ackReceived he => exact hB.ack _
  | noteReceived now seq signalling =>
      rw [RecoveryState.replay_noteReceived]
      exact hB
  | _ => exact hB

/-- **In every run** the books are in order, whatever is acknowledged. -/
theorem books_reachable (h : machine.Reachable w) :
    Books w.recovery.replay w.nextSendSeq w.kept := by
  refine h.invariant (I := fun w => Books w.recovery.replay w.nextSendSeq w.kept) ?_ ?_
  · rintro _ ⟨capacity, negotiated, headerLen, maxReplayBytes, rfl⟩
    exact books_initial headerLen maxReplayBytes
  · intro w e w' hB _ hs
    rcases step_cases hs with ⟨a, -, hm⟩ | ⟨-, ha⟩
    · exact hB.move hm
    · exact hB.aside ha

end books

/-! ### Answers -/

/-- What the sender of a frame is told. -/
def answer (b : ReplayBuffer) (frame : Frame) : Except Error Unit :=
  if b.CanFit frame then .ok () else .error (.frameTooLarge frame.payload.length)

/-- The frames drawn are those answered, in order, and the one held; those that can fit are kept. -/
structure Accounts (b : ReplayBuffer) (drawn : List (Nat × Frame)) (held : Option (Nat × Frame))
    (answers : List (Nat × Except Error Unit)) (kept : List (Nat × FrameRecord)) : Prop where
  settled : ∃ settled, drawn = settled ++ held.toList ∧
    answers = settled.map (fun x => (x.1, answer b x.2)) ∧
    kept.map (fun k => (k.1, k.2.frame)) = settled.filter fun x => b.CanFit x.2
  held_can : ∀ x ∈ held, b.CanFit x.2

section accounts

variable {b : ReplayBuffer} {drawn : List (Nat × Frame)} {held : Option (Nat × Frame)}
  {answers : List (Nat × Except Error Unit)} {kept : List (Nat × FrameRecord)}
  {queuedTx : Nat} {frame : Frame}

theorem Accounts.ack (hA : Accounts b drawn held answers kept) (lastSeq : Nat) :
    Accounts (b.ack lastSeq) drawn held answers kept := by
  obtain ⟨⟨settled, hdrawn, hans, hkept⟩, hcan⟩ := hA
  refine ⟨⟨settled, hdrawn, ?_, ?_⟩, fun x hx => ?_⟩
  · simp only [answer, ReplayBuffer.canFit_ack]
    exact hans
  · simp only [ReplayBuffer.canFit_ack]
    exact hkept
  · rw [ReplayBuffer.canFit_ack]
    exact hcan x hx

theorem Accounts.push (hA : Accounts b drawn held answers kept) (frame : Frame) (seq : Nat) :
    Accounts (b.push frame seq) drawn held answers kept := ⟨hA.settled, hA.held_can⟩

/-- The frame in hand is the one after those answered. -/
def InHand (b : ReplayBuffer) (drawn : List (Nat × Frame)) (queuedTx : Nat) (frame : Frame)
    (answers : List (Nat × Except Error Unit)) (kept : List (Nat × FrameRecord)) : Prop :=
  ∃ settled, drawn = settled ++ [(queuedTx, frame)] ∧
    answers = settled.map (fun x => (x.1, answer b x.2)) ∧
    kept.map (fun k => (k.1, k.2.frame)) = settled.filter fun x => b.CanFit x.2

theorem InHand.keep (hA : InHand b drawn queuedTx frame answers kept) (hcan : b.CanFit frame)
    (seq : Nat) (size : Int) : Accounts b drawn none (answers ++ [(queuedTx, .ok ())])
      (kept ++ [(queuedTx, ⟨frame, seq, size⟩)]) := by
  obtain ⟨settled, hdrawn, hans, hkept⟩ := hA
  refine ⟨⟨settled ++ [(queuedTx, frame)], ?_, ?_, ?_⟩, by rintro _ ⟨⟩⟩
  · rw [hdrawn, Option.toList_none, List.append_nil]
  · rw [hans, List.map_append, List.map_singleton, answer, if_pos hcan]
  · rw [List.map_append, hkept, List.filter_append, List.filter_singleton, decide_eq_true hcan]
    rfl

theorem InHand.hold (hA : InHand b drawn queuedTx frame answers kept) (hcan : b.CanFit frame) :
    Accounts b drawn (some (queuedTx, frame)) answers kept := by
  obtain ⟨settled, hdrawn, hans, hkept⟩ := hA
  refine ⟨⟨settled, hdrawn, hans, hkept⟩, ?_⟩
  rintro _ ⟨⟩
  exact hcan

theorem InHand.refuse (hA : InHand b drawn queuedTx frame answers kept) (hcan : ¬b.CanFit frame) :
    Accounts b drawn none
      (answers ++ [(queuedTx, .error (.frameTooLarge frame.payload.length))]) kept := by
  obtain ⟨settled, hdrawn, hans, hkept⟩ := hA
  refine ⟨⟨settled ++ [(queuedTx, frame)], ?_, ?_, ?_⟩, by rintro _ ⟨⟩⟩
  · rw [hdrawn, Option.toList_none, List.append_nil]
  · rw [hans, List.map_append, List.map_singleton, answer, if_neg hcan]
  · rw [hkept, List.filter_append, List.filter_singleton, decide_eq_false hcan]
    simp

end accounts

section runs

variable {w w' w₁ : World} {e : Event} {queuedTx : Nat} {frame : Frame} {a : Action}

def World.Accounted (w : World) : Prop :=
  Accounts w.recovery.replay w.drawn w.held w.answers w.kept

theorem Draws.inHand (hd : Draws w queuedTx frame w₁) (hA : w.Accounted) :
    InHand w₁.recovery.replay w₁.drawn queuedTx frame w₁.answers w₁.kept := by
  obtain ⟨⟨settled, hdrawn, hans, hkept⟩, -⟩ := hA
  cases hd with
  | held hheld =>
      refine ⟨settled, ?_, hans, hkept⟩
      rw [hheld] at hdrawn
      exact hdrawn
  | head hheld =>
      refine ⟨settled, ?_, hans, hkept⟩
      rw [hheld, Option.toList_none, List.append_nil] at hdrawn
      rw [← hdrawn]
      simp [World.drawn, take, OutboundFrame.frame?]

@[simp] theorem drawn_take_close (w : World) (rest : List OutboundFrame) :
    (w.take .close rest).drawn = w.drawn := by
  simp [World.drawn, take, OutboundFrame.frame?]

theorem World.Accounted.move (hA : w.Accounted)
    (hB : Books w.recovery.replay w.nextSendSeq w.kept)
    (hacked : w.recovery.replay.lastAcked ≤ w.nextSendSeq) (h : Move w a w') : w'.Accounted := by
  cases h with
  | attach hcmds pc hpc hlast => exact hA.ack _
  | pending hpc now pc hpc' =>
      show Accounts (w.recovery.takePendingAck now).2.replay w.drawn w.held w.answers w.kept
      rw [RecoveryState.replay_takePendingAck]
      exact hA
  | @keep queuedTx frame w₁ hd hfits hfresh pc hpc =>
      obtain ⟨hrec, -, -, -, hheld⟩ := hd.same
      have hcan : w₁.recovery.replay.CanFit frame := hrec ▸ hB.ordered.canFit hfits
      have hkeep := ((hd.inHand hA).keep hcan (w₁.nextSendSeq + 1) (w₁.record frame).size).push frame
        (w₁.nextSendSeq + 1)
      rw [← hheld] at hkeep
      exact hkeep
  | @hold queuedTx frame w₁ hd hfits hcan pc hpc => exact (hd.inHand hA).hold (hd.same.1 ▸ hcan)
  | @refuse queuedTx frame w₁ hd err herr =>
      obtain ⟨hrec, -, -, hans, hheld⟩ := hd.same
      obtain ⟨hcan, rfl⟩ | hstale := herr
      · have hrefuse := (hd.inHand hA).refuse (hrec ▸ hcan)
        rw [← hheld, hans] at hrefuse
        exact hrefuse
      · exact absurd (hB.fresh hacked) hstale
  | @close rest hpc hheld hout =>
      show Accounts _ (w.take .close rest).drawn _ _ _
      rw [drawn_take_close]
      exact hA
  | @closeDetached rest hpc hheld hout =>
      show Accounts _ (w.take .close rest).drawn _ _ _
      rw [drawn_take_close]
      exact hA
  | fail =>
      simp only [World.detach]
      split <;> exact hA
  | _ => exact hA

theorem World.Accounted.aside (hA : w.Accounted) (h : Aside w e w') : w'.Accounted := by
  cases h with
  | ackReceived he => exact hA.ack _
  | noteReceived now seq signalling =>
      show Accounts (w.recovery.noteReceived now seq).2.replay w.drawn w.held w.answers w.kept
      rw [RecoveryState.replay_noteReceived]
      exact hA
  | _ => exact hA

/-! ### Runs that acknowledge what was sent -/

/-- Readers get no ACK for a frame that was not sent. -/
def AcksSent (w : World) : Event → Prop
  | .ackReceived lastSeq => lastSeq ≤ w.nextSendSeq
  | _ => True

instance (w : World) : DecidablePred (AcksSent w)
  | .ackReceived lastSeq => inferInstanceAs (Decidable (lastSeq ≤ w.nextSendSeq))
  | .writer _ | .enqueue _ | .signalSend | .ackSignal | .noteReceived _ _ | .attach _
  | .attachSend _ _ | .detach | .detachSend _ | .close | .queueClose | .closeSignal | .closeByPeer
  | .markClosed | .abort => isTrue trivial

theorem acked_move (hacked : w.recovery.replay.lastAcked ≤ w.nextSendSeq) (h : Move w a w') :
    w'.recovery.replay.lastAcked ≤ w'.nextSendSeq := by
  cases h with
  | attach hcmds pc hpc hlast =>
      show (w.recovery.replay.ack _).lastAcked ≤ w.nextSendSeq
      rw [ReplayBuffer.lastAcked_ack, hlast]
      exact Nat.max_le.2 ⟨hacked, Nat.min_le_right _ _⟩
  | pending hpc now pc hpc' =>
      rw [RecoveryState.replay_takePendingAck]
      exact hacked
  | keep hd hfits hfresh pc hpc =>
      cases hd with
      | held => exact Nat.le_succ_of_le hacked
      | head => exact Nat.le_succ_of_le hacked
  | hold hd => cases hd <;> exact hacked
  | refuse hd => cases hd <;> exact hacked
  | fail =>
      simp only [World.detach]
      split <;> exact hacked
  | _ => exact hacked

theorem acked_aside (hacked : w.recovery.replay.lastAcked ≤ w.nextSendSeq) (hC : AcksSent w e)
    (h : Aside w e w') : w'.recovery.replay.lastAcked ≤ w'.nextSendSeq := by
  cases h with
  | ackReceived he =>
      subst he
      show (w.recovery.replay.ack _).lastAcked ≤ w.nextSendSeq
      rw [ReplayBuffer.lastAcked_ack]
      exact Nat.max_le.2 ⟨hacked, hC⟩
  | noteReceived now seq signalling =>
      rw [RecoveryState.replay_noteReceived]
      exact hacked
  | _ => exact hacked

/-- The senders of the frames queued so far, in order. -/
def World.senders (w : World) : List Nat :=
  (w.taken ++ w.outbound).filterMap fun x => x.frame?.map Prod.fst

theorem senders_move (h : Move w a w') : w'.taken ++ w'.outbound = w.taken ++ w.outbound := by
  cases h with
  | keep hd =>
      cases hd with
      | held => rfl
      | head hheld hout => simp [World.keep, take, hout]
  | hold hd =>
      cases hd with
      | held => rfl
      | head hheld hout => simp [take, hout]
  | refuse hd =>
      cases hd with
      | held => rfl
      | head hheld hout => simp [take, hout]
  | close hpc hheld hout => simp [take, hout]
  | closeDetached hpc hheld hout => simp [take, hout]
  | fail =>
      simp only [World.detach]
      split <;> rfl
  | _ => rfl

theorem queued_move (h : Move w a w') : w'.queued = w.queued := by
  cases h with
  | keep hd => cases hd <;> rfl
  | hold hd => cases hd <;> rfl
  | refuse hd => cases hd <;> rfl
  | fail =>
      simp only [World.detach]
      split <;> rfl
  | _ => rfl

theorem senders_aside (hS : w.senders = List.range w.queued) (h : Aside w e w') :
    w'.senders = List.range w'.queued := by
  cases h with
  | enqueue frame =>
      show (w.taken ++ (w.outbound ++ [OutboundFrame.recovery w.queued frame])).filterMap _ = List.range (w.queued + 1)
      rw [← List.append_assoc, List.filterMap_append, List.range_succ, ← hS]
      rfl
  | queueClose hcloser =>
      show (w.taken ++ (w.outbound ++ [OutboundFrame.close])).filterMap _ = List.range w.queued
      rw [← List.append_assoc, List.filterMap_append, ← hS]
      simp [World.senders, OutboundFrame.frame?]
  | _ => exact hS

/-- While a frame is held no other is taken. -/
theorem taken_of_held (hheld : w.held.isSome) (h : machine.step w e = some w') :
    w'.taken = w.taken := by
  have hsome : w.held ≠ none := Option.isSome_iff_ne_none.1 hheld
  rcases step_cases h with ⟨a, -, hm⟩ | ⟨-, ha⟩
  · cases hm with
    | keep hd =>
        cases hd with
        | held => rfl
        | head hnone => exact absurd hnone hsome
    | hold hd =>
        cases hd with
        | held => rfl
        | head hnone => exact absurd hnone hsome
    | refuse hd =>
        cases hd with
        | held => rfl
        | head hnone => exact absurd hnone hsome
    | close hpc hnone => exact absurd hnone hsome
    | closeDetached hpc hnone => exact absurd hnone hsome
    | fail =>
        simp only [World.detach]
        split <;> rfl
    | _ => rfl
  · cases ha <;> rfl

/-- What holds of the numbers and the answers. -/
structure Numbered (w : World) : Prop where
  numbers : w.kept.map (fun k => k.2.seq) = List.range' 1 w.kept.length
  next : w.nextSendSeq = w.kept.length
  /-- The replay buffer has what is kept and not acknowledged. -/
  buffer : ∀ r, r ∈ w.recovery.replay.replayQueue ↔
    r ∈ w.kept.map Prod.snd ∧ w.recovery.replay.lastAcked < r.seq
  /-- Of the frames that left the queue, those that can fit are kept, and the last may be held. -/
  order : w.kept.map (fun k => (k.1, k.2.frame)) ++ w.held.toList =
    w.drawn.filter fun x => w.recovery.replay.CanFit x.2
  waits : w.held.isSome → ∀ e w', machine.step w e = some w' → w'.taken = w.taken
  senders : w.senders.Nodup
  once : (w.answers.map Prod.fst).Nodup
  ok_iff : ∀ queuedTx, (queuedTx, .ok ()) ∈ w.answers ↔ queuedTx ∈ w.kept.map Prod.fst
  error_iff : ∀ queuedTx err, (queuedTx, .error err) ∈ w.answers ↔
    ∃ frame, (queuedTx, frame) ∈ w.drawn ∧ ¬w.recovery.replay.CanFit frame ∧
      err = .frameTooLarge frame.payload.length

theorem accounted_reachable (h : machine.ReachableUnder AcksSent w) :
    w.recovery.replay.lastAcked ≤ w.nextSendSeq ∧ w.Accounted ∧ w.senders = List.range w.queued := by
  refine h.invariant_of (J := fun w => Books w.recovery.replay w.nextSendSeq w.kept)
    (I := fun w => w.recovery.replay.lastAcked ≤ w.nextSendSeq ∧ w.Accounted ∧
      w.senders = List.range w.queued) (fun w h => books_reachable h.reachable) ?_ ?_
  · rintro _ ⟨capacity, negotiated, headerLen, maxReplayBytes, rfl⟩
    exact ⟨Nat.le_refl _, ⟨⟨[], rfl, rfl, rfl⟩, by rintro _ ⟨⟩⟩, rfl⟩
  · intro w e w' hB ⟨hacked, hA, hS⟩ hC hs
    rcases step_cases hs with ⟨a, -, hm⟩ | ⟨-, ha⟩
    · refine ⟨acked_move hacked hm, hA.move hB hacked hm, ?_⟩
      have hqueued : w'.queued = w.queued := queued_move hm
      rw [World.senders, senders_move hm, hqueued]
      exact hS
    · exact ⟨acked_aside hacked hC ha, hA.aside ha, senders_aside hS ha⟩

/-- **Numbers follow the queue.** -/
theorem numbers_follow_queue (h : machine.ReachableUnder AcksSent w) : Numbered w := by
  have hB := books_reachable h.reachable
  obtain ⟨hacked, ⟨⟨settled, hdrawn, hans, hkept⟩, hheld⟩, hS⟩ := accounted_reachable h
  have hids : w.senders.Nodup := by
    rw [hS]
    exact List.nodup_range
  refine ⟨hB.numbers, hB.next, hB.buffer, ?_, fun hsome e w' => taken_of_held hsome, hids, ?_,
    fun queuedTx => ?_, fun queuedTx err => ?_⟩
  · rw [hkept, hdrawn, List.filter_append, List.append_cancel_left_eq, eq_comm, List.filter_eq_self]
    exact fun x hx => decide_eq_true (hheld x (Option.mem_toList.1 hx))
  · -- The senders told are the first of those whose frames left the queue.
    have hsub : (w.answers.map Prod.fst).Sublist w.senders := by
      have hfst : w.answers.map Prod.fst = settled.map Prod.fst := by
        rw [hans, List.map_map]
        rfl
      have hdrawn' : w.drawn.map Prod.fst = w.taken.filterMap fun x => x.frame?.map Prod.fst := by
        rw [World.drawn, List.map_filterMap]
      rw [hfst, World.senders, List.filterMap_append, ← hdrawn', hdrawn, List.map_append,
        List.append_assoc]
      exact List.sublist_append_left _ _
    exact hids.sublist hsub
  · have hfst : w.kept.map Prod.fst = (settled.filter fun x => w.recovery.replay.CanFit x.2).map Prod.fst := by
      rw [← hkept, List.map_map]
      rfl
    rw [hfst, hans]
    simp only [List.mem_map, List.mem_filter, decide_eq_true_eq, Prod.mk.injEq, answer]
    constructor
    · rintro ⟨x, hx, rfl, hok⟩
      refine ⟨x, ⟨hx, ?_⟩, rfl⟩
      by_contra hcan
      rw [if_neg hcan] at hok
      cases hok
    · rintro ⟨x, ⟨hx, hcan⟩, rfl⟩
      exact ⟨x, hx, rfl, if_pos hcan⟩
  · rw [hans]
    simp only [List.mem_map, Prod.mk.injEq, answer]
    constructor
    · rintro ⟨x, hx, rfl, herr⟩
      by_cases hcan : w.recovery.replay.CanFit x.2
      · rw [if_pos hcan] at herr
        cases herr
      · rw [if_neg hcan] at herr
        cases herr
        exact ⟨x.2, hdrawn ▸ List.mem_append_left _ hx, hcan, rfl⟩
    · rintro ⟨frame, hmem, hcan, rfl⟩
      rw [hdrawn] at hmem
      rcases List.mem_append.1 hmem with hmem | hmem
      · exact ⟨_, hmem, rfl, if_neg hcan⟩
      · exact absurd (hheld _ (Option.mem_toList.1 hmem)) hcan

/-- Two frames in a buffer with room for one: the writer parks with the second. -/
def heldRun : List Event :=
  [Event.attach 0, .attachSend 1 0, .signalSend, .writer (.goOn 0), .writer .command,
    .enqueue ⟨1, 0, List.replicate 10 0⟩, .signalSend] ++
  List.replicate 5 (Event.writer (.goOn 0)) ++
  [Event.writer (.result true), .enqueue ⟨1, 0, List.replicate 10 1⟩, .signalSend] ++
  List.replicate 6 (Event.writer (.goOn 0)) ++ [Event.writer (.result true)]

theorem numbers_follow_queue_held :
    ∃ w, machine.exec (.initial 4 (.new ⟨1, 1⟩ 18 30)) heldRun = some w ∧
      w.held = some (1, ⟨1, 0, List.replicate 10 1⟩) ∧ w.kept.length = 1 ∧ Numbered w :=
  ⟨_, rfl, rfl, rfl, numbers_follow_queue (Machine.ReachableUnder.exec heldRun
    (.init ⟨4, ⟨1, 1⟩, 18, 30, rfl⟩) rfl (by decide))⟩

end runs

end AdaptiveMsg.Writer
