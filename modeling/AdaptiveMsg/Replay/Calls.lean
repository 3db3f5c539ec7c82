import AdaptiveMsg.Machine.Run
import AdaptiveMsg.Replay

/-!
# Replay buffer — any calls in any order

The calls of a `ReplayBuffer` with a byte limit, with whatever arguments: frames under any numbers,
acknowledgements beyond the newest record.  The records kept are in the order of their numbers, all
after the last acknowledgement (`Inv`); the accounts, the binary search of `snapshotFrom` and the
checks of `stage` rest on this.

`replay_sound`: what every call does and returns, in any state reached (`Sound`).
-/

namespace AdaptiveMsg.ReplayBuffer

/-! ### Calls -/

inductive Call where
  | stage (frame : Frame) (seq : Nat)
  | ack (lastSeq : Nat)
  | snapshotFrom (lastSeq : Nat)
  deriving DecidableEq, Repr

/-- The buffer after a call.  A `stage` that fails returns before it changes anything. -/
def after (b : ReplayBuffer) : Call → ReplayBuffer
  | .stage frame seq =>
    match b.stage frame seq with
    | .ok (_, b') => b'
    | .error _ => b
  | .ack lastSeq => b.ack lastSeq
  | .snapshotFrom _ => b

/-- The calls of a buffer with a byte limit. -/
def machine : Machine ReplayBuffer Call where
  init b := ∃ headerLen maxBytes, 0 < maxBytes ∧ b = new headerLen maxBytes
  step b call := some (b.after call)

/-- The call does not acknowledge the number `seq`. -/
def Call.Spares (seq : Nat) : Call → Prop
  | .ack lastSeq => lastSeq < seq
  | .stage _ _ | .snapshotFrom _ => True

/-! ### The invariant -/

structure Inv (b : ReplayBuffer) : Prop where
  increasing : b.replayQueue.Pairwise fun r r' => r.seq < r'.seq
  unacked : ∀ r ∈ b.replayQueue, b.lastAcked < r.seq
  sizes : ∀ r ∈ b.replayQueue, r.size = frameSize b.headerLen r.frame
  used : b.usedBytes = bytes b.replayQueue
  bounded : 0 < b.maxBytes → b.usedBytes ≤ b.maxBytes

section calls

variable {b b' : ReplayBuffer} {frame : Frame} {seq lastSeq : Nat} {payload : List UInt8}
  {r : FrameRecord}

theorem frameSize_nonneg (headerLen : Nat) (frame : Frame) : 0 ≤ frameSize headerLen frame :=
  Int.natCast_nonneg _

theorem bytes_nonneg {q : List FrameRecord} {headerLen : Nat}
    (h : ∀ r ∈ q, r.size = frameSize headerLen r.frame) : 0 ≤ bytes q := by
  refine List.sum_nonneg fun n hn => ?_
  obtain ⟨r, hr, rfl⟩ := List.mem_map.1 hn
  rw [h r hr]
  exact frameSize_nonneg _ _

theorem bytes_append (q q' : List FrameRecord) : bytes (q ++ q') = bytes q + bytes q' := by
  simp [bytes]

/-- The frame would be kept now. -/
def Fits (b : ReplayBuffer) (frame : Frame) : Prop :=
  0 < b.maxBytes → b.usedBytes + frameSize b.headerLen frame ≤ b.maxBytes

/-- The frame would be kept by an empty buffer. -/
def CanFit (b : ReplayBuffer) (frame : Frame) : Prop :=
  0 < b.maxBytes → frameSize b.headerLen frame ≤ b.maxBytes

instance (b : ReplayBuffer) (frame : Frame) : Decidable (b.Fits frame) :=
  inferInstanceAs (Decidable (_ → _))

instance (b : ReplayBuffer) (frame : Frame) : Decidable (b.CanFit frame) :=
  inferInstanceAs (Decidable (_ → _))

/-- The number `seq` is after those of all frames staged and acknowledged. -/
def Fresh (b : ReplayBuffer) (seq : Nat) : Prop :=
  b.lastAcked < seq ∧ ∀ last ∈ b.replayQueue.getLast?, last.seq < seq

/-- The buffer with a frame behind the others. -/
def push (b : ReplayBuffer) (frame : Frame) (seq : Nat) : ReplayBuffer :=
  { b with
    replayQueue := b.replayQueue ++ [⟨frame, seq, frameSize b.headerLen frame⟩]
    usedBytes := b.usedBytes + frameSize b.headerLen frame }

/-- What `stage` does: it keeps the frame behind the others, or nothing changes. -/
theorem stage_cases (b : ReplayBuffer) (frame : Frame) (seq : Nat) :
    (b.stage frame seq =
        .ok (.kept ⟨frame, seq, frameSize b.headerLen frame⟩, b.push frame seq) ∧
      b.Fits frame ∧ b.Fresh seq) ∨
    (b.stage frame seq = .ok (.full frame.payload, b) ∧ ¬b.Fits frame ∧ b.CanFit frame) ∨
    ∃ err, b.stage frame seq = .error err ∧
      (¬b.CanFit frame ∧ err = .frameTooLarge frame.payload.length ∨ ¬b.Fresh seq) := by
  by_cases hroom : b.maxBytes > 0 ∧ b.usedBytes + frameSize b.headerLen frame > b.maxBytes
  · by_cases hfit : frameSize b.headerLen frame ≤ b.maxBytes
    · refine .inr (.inl ⟨?_, fun hfits => ?_, fun _ => hfit⟩)
      · simp only [stage, if_pos hroom, if_pos hfit]
      · exact absurd (hfits hroom.1) (Int.not_le.2 hroom.2)
    · refine .inr (.inr ⟨.frameTooLarge frame.payload.length, ?_,
        .inl ⟨fun hcan => hfit (hcan hroom.1), rfl⟩⟩)
      simp only [stage, if_pos hroom, if_neg hfit]
  · by_cases hacked : seq ≤ b.lastAcked
    · refine .inr (.inr ⟨.invalidMessage "replay frame seq already acknowledged", ?_,
        .inr fun hfresh => Nat.not_lt.2 hacked hfresh.1⟩)
      simp only [stage, if_neg hroom, if_pos hacked]
    · cases hlast : b.replayQueue.getLast?.any fun last => decide (seq ≤ last.seq) with
      | true =>
          refine .inr (.inr ⟨.invalidMessage "replay frame seq must increase monotonically", ?_,
            .inr fun hfresh => ?_⟩)
          · simp only [stage, if_neg hroom, if_neg hacked, hlast, if_true]
          · obtain ⟨last, hmem, hle⟩ := (Option.any_eq_true ..).1 hlast
            exact Nat.not_lt.2 (of_decide_eq_true hle) (hfresh.2 last hmem)
      | false =>
          refine .inl ⟨?_, fun hmax => Int.not_lt.1 fun hlt => hroom ⟨hmax, hlt⟩,
            Nat.lt_of_not_le hacked, fun last hmem => ?_⟩
          · simp only [stage, if_neg hroom, if_neg hacked, hlast, if_false, Bool.false_eq_true]
            rfl
          · rw [Option.mem_def.1 hmem] at hlast
            simpa using hlast

/-- What `ack` keeps are the records after the number, and it counts the others. -/
theorem Inv.ack_eq (hI : Inv b) (lastSeq : Nat) :
    b.ack lastSeq = { b with
      lastAcked := max b.lastAcked lastSeq
      replayQueue := b.replayQueue.filter fun r => lastSeq < r.seq
      usedBytes := b.usedBytes - bytes (b.replayQueue.filter fun r => r.seq ≤ lastSeq) } ∧
    b.ackFreed lastSeq = bytes (b.replayQueue.filter fun r => r.seq ≤ lastSeq) := by
  have hnot (r : FrameRecord) : (!decide (r.seq ≤ lastSeq)) = decide (lastSeq < r.seq) := by
    rw [← decide_not, decide_eq_decide, Nat.not_le]
  by_cases hold : lastSeq = 0 ∨ lastSeq ≤ b.lastAcked
  · -- The records kept are after the last acknowledgement, so none goes.
    have hle : lastSeq ≤ b.lastAcked := by
      rcases hold with rfl | hle
      · exact Nat.zero_le _
      · exact hle
    have hkeep : b.replayQueue.filter (fun r => lastSeq < r.seq) = b.replayQueue := by
      rw [List.filter_eq_self]
      exact fun r hr => decide_eq_true (Nat.lt_of_le_of_lt hle (hI.unacked r hr))
    have hdrop : b.replayQueue.filter (fun r => r.seq ≤ lastSeq) = [] := by
      rw [List.filter_eq_nil_iff]
      exact fun r hr h => Nat.not_le.2 (Nat.lt_of_le_of_lt hle (hI.unacked r hr)) (of_decide_eq_true h)
    have hsame : b.ack lastSeq = b ∧ b.ackFreed lastSeq = 0 := by
      simp only [ack, ackFreed, if_pos hle]
      split <;> exact ⟨rfl, rfl⟩
    rw [hkeep, hdrop, Nat.max_eq_left hle, hsame.1, hsame.2]
    exact ⟨by simp [bytes], rfl⟩
  · obtain ⟨hzero, hlt⟩ := not_or.1 hold
    have hsplit := partitioned_seq hI.increasing lastSeq
    have htake := Search.takeWhile_eq_filter hsplit
    have hdrop := Search.dropWhile_eq_filter hsplit
    simp only [hnot] at hdrop
    simp only [ack, ackFreed, if_neg hzero, if_neg hlt, ackLoop_eq, Int.zero_add, htake, hdrop,
      Nat.max_eq_right (Nat.le_of_not_le hlt), and_self]

theorem Inv.snapshotFrom_eq (hI : Inv b) (lastSeq : Nat) :
    b.snapshotFrom lastSeq = b.replayQueue.filter fun r => lastSeq < r.seq := by
  rw [snapshotFrom, Search.drop_partitionPoint (partitioned_seq hI.increasing lastSeq)]
  refine List.filter_congr fun r _ => ?_
  rw [← decide_not, decide_eq_decide, Nat.not_le]

/-- The bytes of the records that an acknowledgement leaves, and of those it drops. -/
theorem bytes_filter (q : List FrameRecord) (lastSeq : Nat) :
    bytes (q.filter fun r => lastSeq < r.seq) + bytes (q.filter fun r => r.seq ≤ lastSeq) = bytes q := by
  induction q with
  | nil => rfl
  | cons r q ih =>
      simp only [bytes, List.filter_cons, List.map_cons, List.sum_cons] at ih ⊢
      by_cases hr : r.seq ≤ lastSeq
      · simp [hr, Nat.not_lt.2 hr]
        omega
      · simp [hr, Nat.lt_of_not_le hr]
        omega

/-- What fits now fits in an empty buffer. -/
theorem Inv.canFit (hI : Inv b) (hfits : b.Fits frame) : b.CanFit frame := by
  have hused : 0 ≤ b.usedBytes := by
    rw [hI.used]
    exact bytes_nonneg hI.sizes
  intro hmax
  have hroom := hfits hmax
  omega

theorem inv_new (headerLen : Nat) (maxBytes : Int) : Inv (new headerLen maxBytes) :=
  ⟨.nil, by rintro _ ⟨⟩, by rintro _ ⟨⟩, rfl, Int.le_of_lt⟩

theorem canFit_ack (lastSeq : Nat) : (b.ack lastSeq).CanFit frame ↔ b.CanFit frame := by
  rw [CanFit, ack_headerLen, ack_maxBytes, CanFit]

/-- Under increasing numbers the last record has the greatest. -/
theorem Inv.seq_lt (hI : Inv b) (hfresh : b.Fresh seq) (hr : r ∈ b.replayQueue) : r.seq < seq := by
  cases hq : b.replayQueue.getLast? with
  | none =>
      rw [List.getLast?_eq_none_iff.1 hq] at hr
      cases hr
  | some last =>
      have hle : r.seq ≤ last.seq := by
        obtain ⟨front, hfront⟩ := List.getLast?_eq_some_iff.1 hq
        have hinc := hI.increasing
        rw [hfront] at hr hinc
        rcases List.mem_append.1 hr with hr | hr
        · exact Nat.le_of_lt ((List.pairwise_append.1 hinc).2.2 r hr last List.mem_cons_self)
        · exact Nat.le_of_eq (congrArg FrameRecord.seq (List.mem_singleton.1 hr))
      exact Nat.lt_of_le_of_lt hle (hfresh.2 last hq)

theorem Inv.push (hI : Inv b) (hfits : b.Fits frame) (hfresh : b.Fresh seq) :
    Inv (b.push frame seq) := by
  refine ⟨?_, fun r hr => ?_, fun r hr => ?_, ?_, hfits⟩
  · refine List.pairwise_append.2 ⟨hI.increasing, List.pairwise_singleton _ _, fun r hr r' hr' => ?_⟩
    rw [List.mem_singleton.1 hr']
    exact hI.seq_lt hfresh hr
  · rcases List.mem_append.1 hr with hr | hr
    · exact hI.unacked r hr
    · rw [List.mem_singleton.1 hr]
      exact hfresh.1
  · rcases List.mem_append.1 hr with hr | hr
    · exact hI.sizes r hr
    · rw [List.mem_singleton.1 hr]
      rfl
  · show b.usedBytes + _ = bytes (b.replayQueue ++ _)
    rw [bytes_append, ← hI.used]
    simp [bytes]

theorem Inv.stage (hI : Inv b) (frame : Frame) (seq : Nat) : Inv (b.after (.stage frame seq)) := by
  rcases stage_cases b frame seq with ⟨h, hfits, hfresh⟩ | ⟨h, -⟩ | ⟨err, h, -⟩
  · simp only [after, h]
    exact hI.push hfits hfresh
  · simp only [after, h]
    exact hI
  · simp only [after, h]
    exact hI

theorem Inv.ack (hI : Inv b) (lastSeq : Nat) : Inv (b.ack lastSeq) := by
  have hsub : ∀ r ∈ b.replayQueue.filter (fun r => lastSeq < r.seq), r ∈ b.replayQueue ∧ lastSeq < r.seq :=
    fun r hr => ⟨(List.mem_filter.1 hr).1, of_decide_eq_true (List.mem_filter.1 hr).2⟩
  have hdropped : 0 ≤ bytes (b.replayQueue.filter fun r => r.seq ≤ lastSeq) :=
    bytes_nonneg fun r hr => hI.sizes r (List.mem_filter.1 hr).1
  have hsplit := bytes_filter b.replayQueue lastSeq
  have hused := hI.used
  have hbounded := hI.bounded
  rw [(hI.ack_eq lastSeq).1]
  refine ⟨hI.increasing.filter _, fun r hr => ?_, fun r hr => hI.sizes r (hsub r hr).1, ?_,
    fun hmax => ?_⟩
  · exact Nat.max_lt.2 ⟨hI.unacked r (hsub r hr).1, (hsub r hr).2⟩
  · simp only
    omega
  · have hused := hbounded hmax
    simp only
    omega

theorem Inv.after (hI : Inv b) (call : Call) : Inv (b.after call) := by
  cases call with
  | stage frame seq => exact hI.stage frame seq
  | ack lastSeq => exact hI.ack lastSeq
  | snapshotFrom lastSeq => exact hI

theorem after_limits (b : ReplayBuffer) (call : Call) :
    (b.after call).headerLen = b.headerLen ∧ (b.after call).maxBytes = b.maxBytes := by
  cases call with
  | stage frame seq =>
      rcases stage_cases b frame seq with ⟨h, -⟩ | ⟨h, -⟩ | ⟨err, h, -⟩ <;> simp [after, h, push]
  | ack lastSeq => exact ⟨ack_headerLen lastSeq, ack_maxBytes lastSeq⟩
  | snapshotFrom lastSeq => exact ⟨rfl, rfl⟩

theorem inv_reachable (h : machine.Reachable b) : Inv b ∧ 0 < b.maxBytes := by
  refine h.invariant (I := fun b => Inv b ∧ 0 < b.maxBytes) ?_ ?_
  · rintro _ ⟨headerLen, maxBytes, hmax, rfl⟩
    exact ⟨inv_new headerLen maxBytes, hmax⟩
  · intro b call _ ⟨hI, hmax⟩ _ hs
    cases hs
    exact ⟨hI.after call, (after_limits b call).2 ▸ hmax⟩

/-- A call keeps a record that it does not acknowledge. -/
theorem Inv.mem_after (hI : Inv b) {call : Call} (hr : r ∈ b.replayQueue) (hs : call.Spares r.seq) :
    r ∈ (b.after call).replayQueue := by
  cases call with
  | stage frame seq =>
      rcases stage_cases b frame seq with ⟨h, -⟩ | ⟨h, -⟩ | ⟨err, h, -⟩ <;> simp only [ReplayBuffer.after, h]
      · exact List.mem_append_left _ hr
      · exact hr
      · exact hr
  | ack lastSeq =>
      simp only [ReplayBuffer.after, (hI.ack_eq lastSeq).1]
      exact List.mem_filter.2 ⟨hr, decide_eq_true hs⟩
  | snapshotFrom lastSeq => exact hr

/-- A record stays as long as no call acknowledges it. -/
theorem Inv.mem_of_spared (hI : Inv b) (hr : r ∈ b.replayQueue)
    (h : (machine.startAt b).ReachableUnder (fun _ call => call.Spares r.seq) b') :
    r ∈ b'.replayQueue := by
  suffices Inv b' ∧ r ∈ b'.replayQueue from this.2
  refine h.invariant (I := fun b => Inv b ∧ r ∈ b.replayQueue) ?_ ?_
  · rintro _ rfl
    exact ⟨hI, hr⟩
  · intro b call _ ⟨hI, hr⟩ hC hs
    cases hs
    exact ⟨hI.after call, hI.mem_after hr hC⟩

/-- A frame that can fit at all is kept by a buffer with nothing in it. -/
theorem Inv.stage_empty (hI : Inv b) (hq : b.replayQueue = []) (hseq : b.lastAcked < seq)
    (hfit : b.CanFit frame) :
    ∃ b', b.stage frame seq = .ok (.kept ⟨frame, seq, frameSize b.headerLen frame⟩, b') := by
  have hfits : b.Fits frame := by
    have hused : b.usedBytes = 0 := by rw [hI.used, hq]; rfl
    intro hmax
    rw [hused, Int.zero_add]
    exact hfit hmax
  have hfresh : b.Fresh seq := ⟨hseq, by rw [hq]; rintro last ⟨⟩⟩
  rcases stage_cases b frame seq with ⟨h, -⟩ | ⟨-, hfull, -⟩ | ⟨err, -, hlarge | hstale⟩
  · exact ⟨_, h⟩
  · exact absurd hfits hfull
  · exact absurd hfit hlarge.1
  · exact absurd hfresh hstale

/-- The frame is kept in every later state in which nothing is, if its number is still free. -/
theorem Inv.fits_later (hI : Inv b) (hfit : b.CanFit frame)
    (h : (machine.startAt b).Reachable b') (hq : b'.replayQueue = []) (hseq : b'.lastAcked < seq) :
    ∃ b'', b'.stage frame seq = .ok (.kept ⟨frame, seq, frameSize b.headerLen frame⟩, b'') := by
  have hlater : Inv b' ∧ b'.headerLen = b.headerLen ∧ b'.maxBytes = b.maxBytes := by
    refine h.invariant (I := fun b₁ => Inv b₁ ∧ b₁.headerLen = b.headerLen ∧
      b₁.maxBytes = b.maxBytes) ?_ ?_
    · rintro _ rfl
      exact ⟨hI, rfl, rfl⟩
    · intro b₁ call _ ⟨hI, hlen, hmax⟩ _ hs
      cases hs
      obtain ⟨hlen', hmax'⟩ := after_limits b₁ call
      exact ⟨hI.after call, hlen'.trans hlen, hmax'.trans hmax⟩
  obtain ⟨hI', hlen, hmax⟩ := hlater
  rw [← hlen]
  exact hI'.stage_empty hq hseq (by rw [CanFit, hlen, hmax]; exact hfit)

end calls

/-! ### What every call does -/

/-- What holds of a buffer, and of any call on it. -/
structure Sound (b : ReplayBuffer) : Prop where
  increasing : b.replayQueue.Pairwise fun r r' => r.seq < r'.seq
  unacked : ∀ r ∈ b.replayQueue, b.lastAcked < r.seq
  used : b.usedBytes = bytes b.replayQueue
  bounded : 0 ≤ b.usedBytes ∧ b.usedBytes ≤ b.maxBytes
  /-- A record leaves only through an acknowledgement of a number not below its own. -/
  stays : ∀ r ∈ b.replayQueue, ∀ b',
    (machine.startAt b).ReachableUnder (fun _ call => call.Spares r.seq) b' → r ∈ b'.replayQueue
  kept : ∀ frame seq record b', b.stage frame seq = .ok (.kept record, b') →
    record = ⟨frame, seq, frameSize b.headerLen frame⟩ ∧ b'.lastAcked = b.lastAcked ∧
      b'.replayQueue = b.replayQueue ++ [record]
  /-- A frame that has to wait fits once nothing is kept. -/
  full : ∀ frame seq payload b', b.stage frame seq = .ok (.full payload, b') →
    b' = b ∧ payload = frame.payload ∧
      ∀ b'', (machine.startAt b).Reachable b'' → b''.replayQueue = [] →
        ∀ seq' > b''.lastAcked, ∃ b₁,
          b''.stage frame seq' = .ok (.kept ⟨frame, seq', frameSize b.headerLen frame⟩, b₁)
  failed : ∀ frame seq err, b.stage frame seq = .error err → b.after (.stage frame seq) = b
  acked : ∀ n, (b.ack n).lastAcked = max b.lastAcked n ∧
    (b.ack n).replayQueue = b.replayQueue.filter fun r => n < r.seq
  idempotent : ∀ n, (b.ack n).ack n = b.ack n ∧ (b.ack n).ackFreed n = 0
  ignored : ∀ n ≤ b.lastAcked, b.ack n = b ∧ b.ackFreed n = 0
  freed : ∀ n, b.ackFreed n = bytes (b.replayQueue.filter fun r => r.seq ≤ n) ∧
    b.ackFreed n = b.usedBytes - (b.ack n).usedBytes
  snapshot : ∀ n, b.snapshotFrom n = b.replayQueue.filter fun r => n < r.seq

section sound

variable {b : ReplayBuffer}

theorem ack_of_le {n : Nat} (hle : n ≤ b.lastAcked) : b.ack n = b ∧ b.ackFreed n = 0 := by
  simp only [ack, ackFreed, if_pos hle]
  split <;> exact ⟨rfl, rfl⟩

/-- **Whatever was called before**, the buffer is sound. -/
theorem replay_sound (h : machine.Reachable b) : Sound b := by
  obtain ⟨hI, hmax⟩ := inv_reachable h
  refine ⟨hI.increasing, hI.unacked, hI.used, ⟨?_, hI.bounded hmax⟩, fun r hr b' => hI.mem_of_spared hr,
    fun frame seq record b' hs => ?_, fun frame seq payload b' hs => ?_, fun frame seq err hs => ?_,
    fun n => ?_, fun n => ?_, fun n => ack_of_le, fun n => ?_, hI.snapshotFrom_eq⟩
  · rw [hI.used]
    exact bytes_nonneg hI.sizes
  · rcases stage_cases b frame seq with ⟨hk, -⟩ | ⟨hf, -⟩ | ⟨err, he, -⟩
    · rw [hk] at hs
      cases hs
      exact ⟨rfl, rfl, rfl⟩
    · rw [hf] at hs
      cases hs
    · rw [he] at hs
      cases hs
  · rcases stage_cases b frame seq with ⟨hk, -⟩ | ⟨hf, -, hfit⟩ | ⟨err, he, -⟩
    · rw [hk] at hs
      cases hs
    · rw [hf] at hs
      cases hs
      exact ⟨rfl, rfl, fun b'' hb hq seq' hseq => hI.fits_later hfit hb hq hseq⟩
    · rw [he] at hs
      cases hs
  · simp only [after, hs]
  · rw [(hI.ack_eq n).1]
    exact ⟨rfl, rfl⟩
  · refine ack_of_le ?_
    rw [lastAcked_ack]
    exact Nat.le_max_right _ _
  · rw [(hI.ack_eq n).1, (hI.ack_eq n).2]
    exact ⟨rfl, by simp only; omega⟩

/-- Two frames of ten bytes in thirty: the second has to wait for an acknowledgement. -/
theorem replay_sound_full :
    Sound ((new 18 30).after (.stage ⟨1, 0, List.replicate 10 0⟩ 1)) ∧
    ((new 18 30).after (.stage ⟨1, 0, List.replicate 10 0⟩ 1)).stage ⟨1, 0, List.replicate 10 1⟩ 2 =
      .ok (.full (List.replicate 10 1), (new 18 30).after (.stage ⟨1, 0, List.replicate 10 0⟩ 1)) :=
  ⟨replay_sound (.step (.init ⟨18, 30, by decide, rfl⟩) trivial rfl), by decide⟩

end sound

end AdaptiveMsg.ReplayBuffer
