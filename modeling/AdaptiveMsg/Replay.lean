import AdaptiveMsg.Error
import AdaptiveMsg.Search.PartitionPoint
import Mathlib.Algebra.Order.BigOperators.Group.List
import Mathlib.Algebra.Order.Group.Int
import Mathlib.Algebra.Ring.Int.Defs

/-!
# Replay buffer

`ReplayBuffer` of `replay.rs`: the frames that were sent and not yet acknowledged, under
consecutive sequence numbers.  `Keeps b staged` says that `b` holds exactly the frames of `staged`
after its last acknowledgement, numbered from 1; `stage`, `ack` and `snapshotFrom` are given by
their effect on it (`Keeps.stage`, `Keeps.ack`, `Keeps.snapshotFrom`).
-/

namespace AdaptiveMsg

/-- A data frame of the application: its stream, flags and payload. -/
structure Frame where
  streamId : Nat
  flags : Nat
  payload : List UInt8
  deriving DecidableEq, Repr

structure FrameRecord where
  frame : Frame
  seq : Nat
  size : Int
  deriving DecidableEq, Repr

/-- What `stage` did with a frame. -/
inductive Staged where
  | kept (record : FrameRecord)
  /-- The frame does not fit next to the frames kept now; the payload is handed back. -/
  | full (payload : List UInt8)
  deriving DecidableEq, Repr

structure ReplayBuffer where
  headerLen : Nat
  maxBytes : Int
  lastAcked : Nat
  usedBytes : Int
  replayQueue : List FrameRecord
  deriving DecidableEq, Repr

namespace ReplayBuffer

def new (headerLen : Nat) (maxBytes : Int) : ReplayBuffer := ⟨headerLen, maxBytes, 0, 0, []⟩

/-- The bytes a frame takes. -/
def frameSize (headerLen : Nat) (frame : Frame) : Int := (headerLen + frame.payload.length : Nat)

variable (b : ReplayBuffer)

/-- Keeps a frame under the sequence number `seq` unless it has to wait for room. -/
def stage (frame : Frame) (seq : Nat) : Except Error (Staged × ReplayBuffer) :=
  let size := frameSize b.headerLen frame
  if b.maxBytes > 0 ∧ b.usedBytes + size > b.maxBytes then
    if size ≤ b.maxBytes then .ok (.full frame.payload, b)
    else .error (.frameTooLarge frame.payload.length)
  else if seq ≤ b.lastAcked then
    .error (.invalidMessage "replay frame seq already acknowledged")
  else if b.replayQueue.getLast?.any fun last => seq ≤ last.seq then
    .error (.invalidMessage "replay frame seq must increase monotonically")
  else
    let record := ⟨frame, seq, size⟩
    .ok (.kept record,
      { b with replayQueue := b.replayQueue ++ [record], usedBytes := b.usedBytes + size })

/-- The loop of `ack`: the bytes dropped and the frames left. -/
def ackLoop (lastSeq : Nat) (dropped : Int) : List FrameRecord → Int × List FrameRecord
  | [] => (dropped, [])
  | front :: rest =>
    if front.seq > lastSeq then (dropped, front :: rest)
    else ackLoop lastSeq (dropped + front.size) rest

def ack (lastSeq : Nat) : ReplayBuffer :=
  if lastSeq = 0 then b
  else if lastSeq ≤ b.lastAcked then b
  else
    let (dropped, rest) := ackLoop lastSeq 0 b.replayQueue
    { b with lastAcked := lastSeq, replayQueue := rest, usedBytes := b.usedBytes - dropped }

/-- What `ack` returns: the bytes it dropped. -/
def ackFreed (lastSeq : Nat) : Int :=
  if lastSeq = 0 then 0
  else if lastSeq ≤ b.lastAcked then 0
  else (ackLoop lastSeq 0 b.replayQueue).1

/-- The frames after `lastSeq`. -/
def snapshotFrom (lastSeq : Nat) : List FrameRecord :=
  let start := Search.partitionPoint (fun frame => frame.seq ≤ lastSeq) b.replayQueue
  b.replayQueue.drop start

end ReplayBuffer

/-! ### Consecutive records -/

/-- The records of the frames `fs` under the sequence numbers after `k`. -/
def recordsFrom (headerLen : Nat) : Nat → List Frame → List FrameRecord
  | _, [] => []
  | k, f :: fs => ⟨f, k + 1, ReplayBuffer.frameSize headerLen f⟩ :: recordsFrom headerLen (k + 1) fs

section recordsFrom

variable {h k j : Nat} {fs gs : List Frame} {f : Frame} {r : FrameRecord}

@[simp] theorem length_recordsFrom : (recordsFrom h k fs).length = fs.length := by
  induction fs generalizing k with
  | nil => rfl
  | cons f fs ih => simp [recordsFrom, ih]

theorem recordsFrom_append :
    recordsFrom h k (fs ++ gs) = recordsFrom h k fs ++ recordsFrom h (k + fs.length) gs := by
  induction fs generalizing k with
  | nil => rfl
  | cons f fs ih => simp only [List.cons_append, recordsFrom, ih, List.length_cons, Nat.add_assoc,
      Nat.add_comm 1]

theorem recordsFrom_drop :
    (recordsFrom h k fs).drop j = recordsFrom h (k + j) (fs.drop j) := by
  induction j generalizing k fs with
  | zero => rfl
  | succ j ih =>
      cases fs with
      | nil => rfl
      | cons f fs => simp only [recordsFrom, List.drop_succ_cons, ih, Nat.add_assoc, Nat.add_comm 1]

theorem getElem?_recordsFrom (i : Nat) :
    (recordsFrom h k fs)[i]? = fs[i]?.map fun f => ⟨f, k + i + 1, ReplayBuffer.frameSize h f⟩ := by
  induction fs generalizing k i with
  | nil => rfl
  | cons f fs ih =>
      cases i with
      | zero => rfl
      | succ i => simp only [recordsFrom, List.getElem?_cons_succ, ih, Nat.add_assoc, Nat.add_comm 1]

/-- The record with the sequence number `seq` is that of the frame at `seq - k - 1`. -/
theorem mem_recordsFrom :
    r ∈ recordsFrom h k fs ↔
      ∃ i f, fs[i]? = some f ∧ r = ⟨f, k + i + 1, ReplayBuffer.frameSize h f⟩ := by
  simp only [List.mem_iff_getElem?, getElem?_recordsFrom, Option.map_eq_some_iff]
  constructor
  · rintro ⟨i, f, hf, rfl⟩
    exact ⟨i, f, hf, rfl⟩
  · rintro ⟨i, f, hf, rfl⟩
    exact ⟨i, f, hf, rfl⟩

theorem seq_of_mem (hr : r ∈ recordsFrom h k fs) : k < r.seq ∧ r.seq ≤ k + fs.length := by
  obtain ⟨i, f, hf, rfl⟩ := mem_recordsFrom.mp hr
  obtain ⟨hlt, -⟩ := List.getElem?_eq_some_iff.mp hf
  exact ⟨by simp only; omega, by simp only; omega⟩

/-- The records up to `r` are those before it, and `r`. -/
theorem take_seq (hr : r ∈ recordsFrom h k fs) :
    (recordsFrom h k fs).take (r.seq - k) = (recordsFrom h k fs).take (r.seq - k - 1) ++ [r] := by
  obtain ⟨i, f, hf, rfl⟩ := mem_recordsFrom.mp hr
  have hi : k + i + 1 - k = i + 1 := by omega
  simp only [hi, Nat.add_sub_cancel, List.take_add_one, getElem?_recordsFrom, hf, Option.map_some,
    Option.toList_some]

theorem pairwise_recordsFrom : (recordsFrom h k fs).Pairwise fun r r' => r.seq < r'.seq := by
  induction fs generalizing k with
  | nil => exact .nil
  | cons f fs ih => exact List.pairwise_cons.2 ⟨fun r hr => (seq_of_mem hr).1, ih⟩

/-- Dropping the records up to `k + j` drops `j` of them. -/
theorem dropWhile_recordsFrom (m : Nat) :
    (recordsFrom h k fs).dropWhile (fun r => r.seq ≤ m) = (recordsFrom h k fs).drop (m - k) := by
  induction fs generalizing k with
  | nil => simp [recordsFrom]
  | cons f fs ih =>
      simp only [recordsFrom, List.dropWhile_cons]
      by_cases hm : k + 1 ≤ m
      · rw [if_pos (by simpa using hm), ih]
        obtain ⟨d, rfl⟩ := Nat.exists_eq_add_of_le hm
        rw [show k + 1 + d - k = d + 1 by omega, show k + 1 + d - (k + 1) = d by omega,
          List.drop_succ_cons]
      · rw [if_neg (by simpa using hm), show m - k = 0 by omega, List.drop_zero]

end recordsFrom

/-! ### What the buffer keeps -/

namespace ReplayBuffer

/-- The bytes of the records kept. -/
def bytes (records : List FrameRecord) : Int := (records.map FrameRecord.size).sum

theorem ackLoop_eq (lastSeq : Nat) (dropped : Int) (q : List FrameRecord) :
    ackLoop lastSeq dropped q = (dropped + bytes (q.takeWhile fun r => r.seq ≤ lastSeq),
      q.dropWhile fun r => r.seq ≤ lastSeq) := by
  induction q generalizing dropped with
  | nil => simp [ackLoop, bytes]
  | cons r q ih =>
      simp only [ackLoop, List.takeWhile_cons, List.dropWhile_cons]
      by_cases hr : r.seq ≤ lastSeq
      · rw [if_neg (by omega), if_pos (by simpa using hr), if_pos (by simpa using hr), ih]
        simp only [bytes, List.map_cons, List.sum_cons, Int.add_assoc]
      · rw [if_pos (by omega), if_neg (by simpa using hr), if_neg (by simpa using hr)]
        simp [bytes]

/-- The buffer keeps the frames of `staged` that are not acknowledged, numbered from 1. -/
structure Keeps (b : ReplayBuffer) (staged : List Frame) : Prop where
  acked_le : b.lastAcked ≤ staged.length
  queue : b.replayQueue = (recordsFrom b.headerLen 0 staged).drop b.lastAcked
  used : b.usedBytes = bytes b.replayQueue

variable {b : ReplayBuffer} {staged : List Frame}

theorem keeps_new (headerLen : Nat) (maxBytes : Int) : Keeps (new headerLen maxBytes) [] :=
  ⟨Nat.le_refl _, rfl, rfl⟩

theorem ack_headerLen (lastSeq : Nat) : (b.ack lastSeq).headerLen = b.headerLen := by
  simp only [ack]
  repeat' split
  all_goals rfl

theorem ack_maxBytes (lastSeq : Nat) : (b.ack lastSeq).maxBytes = b.maxBytes := by
  simp only [ack]
  repeat' split
  all_goals rfl

theorem lastAcked_ack (lastSeq : Nat) : (b.ack lastSeq).lastAcked = max b.lastAcked lastSeq := by
  simp only [ack]
  split
  · omega
  · split
    · omega
    · simp only
      omega

/-- An acknowledgement of frames that were staged drops them. -/
theorem Keeps.ack (hk : b.Keeps staged) {lastSeq : Nat} (hle : lastSeq ≤ staged.length) :
    (b.ack lastSeq).Keeps staged := by
  by_cases h0 : lastSeq = 0 ∨ lastSeq ≤ b.lastAcked
  · have hsame : b.ack lastSeq = b := by
      simp only [ReplayBuffer.ack]
      rcases h0 with h0 | h0
      · rw [if_pos h0]
      · split
        · rfl
        · rfl
    rwa [hsame]
  · simp only [not_or, Nat.not_le] at h0
    have hack : b.ack lastSeq = { b with
        lastAcked := lastSeq
        replayQueue := b.replayQueue.dropWhile fun r => r.seq ≤ lastSeq
        usedBytes := b.usedBytes - bytes (b.replayQueue.takeWhile fun r => r.seq ≤ lastSeq) } := by
      simp only [ReplayBuffer.ack, ackLoop_eq, if_neg h0.1, if_neg (Nat.not_le.mpr h0.2), Int.zero_add]
    rw [hack]
    refine ⟨hle, ?_, ?_⟩
    · show b.replayQueue.dropWhile _ = (recordsFrom b.headerLen 0 staged).drop lastSeq
      rw [hk.queue, recordsFrom_drop, dropWhile_recordsFrom, ← recordsFrom_drop, List.drop_drop,
        Nat.zero_add, Nat.add_sub_cancel' (Nat.le_of_lt h0.2)]
    · show b.usedBytes - _ = bytes _
      have hsplit : bytes b.replayQueue =
          bytes (b.replayQueue.takeWhile fun r => r.seq ≤ lastSeq) +
            bytes (b.replayQueue.dropWhile fun r => r.seq ≤ lastSeq) := by
        rw [bytes, bytes, bytes, ← List.sum_append, ← List.map_append, List.takeWhile_append_dropWhile]
      rw [hk.used, hsplit, Int.add_comm, Int.add_sub_cancel]

/-- Records under increasing numbers are partitioned by an acknowledgement. -/
theorem partitioned_seq {q : List FrameRecord} (hq : q.Pairwise fun r r' => r.seq < r'.seq)
    (lastSeq : Nat) : Search.Partitioned (fun r : FrameRecord => r.seq ≤ lastSeq) q :=
  hq.imp fun {r r'} hlt hle => by
    have hle : r'.seq ≤ lastSeq := of_decide_eq_true hle
    exact decide_eq_true (Nat.le_trans (Nat.le_of_lt hlt) hle)

theorem Keeps.snapshotFrom (hk : b.Keeps staged) (lastSeq : Nat) :
    b.snapshotFrom lastSeq = (recordsFrom b.headerLen 0 staged).drop (max b.lastAcked lastSeq) := by
  have hsplit := partitioned_seq (q := b.replayQueue)
    (hk.queue ▸ pairwise_recordsFrom.sublist (List.drop_sublist _ _)) lastSeq
  rw [ReplayBuffer.snapshotFrom, Search.drop_partitionPoint hsplit,
    ← Search.dropWhile_eq_filter hsplit, hk.queue, recordsFrom_drop, dropWhile_recordsFrom,
    ← recordsFrom_drop, List.drop_drop, Nat.zero_add]
  congr 1
  omega

theorem Keeps.usedBytes_nonneg (hk : b.Keeps staged) : 0 ≤ b.usedBytes := by
  rw [hk.used, bytes]
  refine List.sum_nonneg fun n hn => ?_
  obtain ⟨r, hr, rfl⟩ := List.mem_map.mp hn
  obtain ⟨i, f, -, rfl⟩ := mem_recordsFrom.mp (List.mem_of_mem_drop (hk.queue ▸ hr))
  exact Int.natCast_nonneg _

/-- Staging the next frame keeps it, or leaves the buffer as it is. -/
theorem Keeps.stage (hk : b.Keeps staged) (frame : Frame) :
    (∃ b', b.stage frame (staged.length + 1) =
      .ok (.kept ⟨frame, staged.length + 1, frameSize b.headerLen frame⟩, b') ∧
      b'.Keeps (staged ++ [frame]) ∧ b'.headerLen = b.headerLen ∧ b'.maxBytes = b.maxBytes ∧
      b'.lastAcked = b.lastAcked ∧
      (0 < b.maxBytes → b.usedBytes + frameSize b.headerLen frame ≤ b.maxBytes)) ∨
    (b.stage frame (staged.length + 1) = .ok (.full frame.payload, b) ∧
      0 < b.maxBytes ∧ b.maxBytes < b.usedBytes + frameSize b.headerLen frame ∧
      frameSize b.headerLen frame ≤ b.maxBytes) ∨
    (b.stage frame (staged.length + 1) = .error (.frameTooLarge frame.payload.length) ∧
      0 < b.maxBytes ∧ b.maxBytes < frameSize b.headerLen frame) := by
  by_cases hroom : b.maxBytes > 0 ∧ b.usedBytes + frameSize b.headerLen frame > b.maxBytes
  · simp only [ReplayBuffer.stage, if_pos hroom]
    by_cases hfit : frameSize b.headerLen frame ≤ b.maxBytes
    · exact .inr (.inl ⟨by rw [if_pos hfit], hroom.1, hroom.2, hfit⟩)
    · exact .inr (.inr ⟨by rw [if_neg hfit], hroom.1, Int.not_le.mp hfit⟩)
  · -- Neither check of the sequence number fails: it follows that of every frame kept.
    have hacked : ¬staged.length + 1 ≤ b.lastAcked := by
      have := hk.acked_le
      omega
    have hlast : (b.replayQueue.getLast?.any fun last => decide (staged.length + 1 ≤ last.seq)) = false := by
      cases hl : b.replayQueue.getLast? with
      | none => rfl
      | some last =>
          have hmem : last ∈ recordsFrom b.headerLen 0 staged :=
            List.mem_of_mem_drop (hk.queue ▸ List.mem_of_getLast? hl)
          have := (seq_of_mem hmem).2
          simp only [Option.any_some, decide_eq_false_iff_not]
          omega
    refine .inl ⟨{ b with
      replayQueue := b.replayQueue ++ [⟨frame, staged.length + 1, frameSize b.headerLen frame⟩]
      usedBytes := b.usedBytes + frameSize b.headerLen frame }, ?_, ⟨?_, ?_, ?_⟩, rfl, rfl, rfl,
      fun hmax => Int.not_lt.mp fun hlt => hroom ⟨hmax, hlt⟩⟩
    · simp only [ReplayBuffer.stage, if_neg hroom, if_neg hacked, hlast, if_false, Bool.false_eq_true]
    · have := hk.acked_le
      simp only [List.length_append, List.length_singleton]
      omega
    · show b.replayQueue ++ _ = (recordsFrom b.headerLen 0 (staged ++ [frame])).drop b.lastAcked
      rw [recordsFrom_append, List.drop_append_of_le_length (by simpa using hk.acked_le), hk.queue,
        Nat.zero_add]
      rfl
    · show b.usedBytes + _ = bytes (b.replayQueue ++ _)
      rw [hk.used]
      simp [bytes]

end ReplayBuffer

end AdaptiveMsg
