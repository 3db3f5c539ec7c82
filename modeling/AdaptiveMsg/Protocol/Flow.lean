import AdaptiveMsg.Protocol.Model

/-!
# Protocol — what is in flight

In every run, of however many readers at a time: an endpoint keeps in its replay buffer every frame
it has staged and that is not acknowledged, what is acknowledged was received, what was received
was staged, and every record in flight is the record of the staged frame with its number.

`EndpointInv e L n` says this of one endpoint whose peer has received up to `L` and has staged `n`
frames, and `LaneInv` of what is in flight to a side from its peer.  Each holds on when the peer
goes on (`Endpoint.Grows`), so a step needs to establish only what it changes.
-/

namespace AdaptiveMsg.Protocol

open ReplayBuffer (Keeps)

/-! ### One endpoint -/

namespace Endpoint

/-- The records of the frames staged. -/
def records (e : Endpoint) : List FrameRecord := recordsFrom e.recovery.replay.headerLen 0 e.staged

@[simp] theorem length_records (e : Endpoint) : e.records.length = e.staged.length := by
  simp [records]

/-- An endpoint never takes back what it has received or staged. -/
structure Grows (e e' : Endpoint) : Prop where
  received : e.recovery.lastRecvSeq ≤ e'.recovery.lastRecvSeq
  records : e.records <+: e'.records

theorem Grows.refl (e : Endpoint) : Grows e e := ⟨Nat.le_refl _, List.prefix_refl _⟩

theorem Grows.staged {e e' : Endpoint} (h : Grows e e') : e.staged.length ≤ e'.staged.length := by
  simpa using h.records.length_le

end Endpoint

/-- An endpoint whose peer has received up to `L` and has staged `n` frames. -/
structure EndpointInv (e : Endpoint) (L n : Nat) : Prop where
  keeps : e.recovery.replay.Keeps e.staged
  seq : e.nextSendSeq = e.staged.length
  acked : e.recovery.replay.lastAcked ≤ L
  command : ∀ t k, .attach t k ∈ e.writerCmd → k ≤ L
  received : e.recovery.lastRecvSeq ≤ n
  ack : e.recovery.AckInv
  writingAck : ∀ k, e.writing = some (.ack k) → k ≤ e.recovery.lastRecvSeq
  writingData : ∀ r, e.writing = some (.data r) → r ∈ e.records
  resume : ∀ r ∈ e.resume, r ∈ e.records

/-- What is in flight to a side whose peer is `p`, and what its reader has taken. -/
structure LaneInv (l : Lane) (p : Endpoint) : Prop where
  ack : ∀ k, .ack k ∈ l.wire → k ≤ p.recovery.lastRecvSeq
  data : ∀ r, .data r ∈ l.wire → r ∈ p.records
  accepting : ∀ m r, l.reader = .accepting m r → r ∈ p.records
  noting : ∀ m r, l.reader = .noting m r → r ∈ p.records

structure FlowInv (w : World) : Prop where
  endpoint : ∀ s, EndpointInv (w.ep s) (w.ep s.peer).recovery.lastRecvSeq (w.ep s.peer).staged.length
  lane : ∀ t s, LaneInv (w.lane t s) (w.ep s.peer)
  /-- A resume point announced was received. -/
  point : ∀ t s k, (w.transport t).point s = some k → k ≤ (w.ep s).recovery.lastRecvSeq

theorem EndpointInv.grows {e : Endpoint} {L L' n n' : Nat} (h : EndpointInv e L n) (hL : L ≤ L')
    (hn : n ≤ n') : EndpointInv e L' n' :=
  { h with
    acked := Nat.le_trans h.acked hL
    command := fun t k hk => Nat.le_trans (h.command t k hk) hL
    received := Nat.le_trans h.received hn }

theorem LaneInv.grows {l : Lane} {p p' : Endpoint} (h : LaneInv l p) (hg : p.Grows p') :
    LaneInv l p' where
  ack k hk := Nat.le_trans (h.ack k hk) hg.received
  data r hr := hg.records.subset (h.data r hr)
  accepting m r hr := hg.records.subset (h.accepting m r hr)
  noting m r hr := hg.records.subset (h.noting m r hr)

/-! ### Changing one part of the world -/

namespace FlowInv

variable {w : World} {s : RecoveryRole} {t : Nat}

theorem setEp (hI : FlowInv w) {e : Endpoint} (hg : (w.ep s).Grows e)
    (he : EndpointInv e (w.ep s.peer).recovery.lastRecvSeq (w.ep s.peer).staged.length) :
    FlowInv (w.setEp s e) := by
  have hep : ∀ s', (w.ep s').Grows ((w.setEp s e).ep s') := by
    intro s'
    by_cases hs : s' = s
    · subst hs
      rwa [World.setEp_ep_self]
    · rw [World.setEp_ep_ne hs]
      exact .refl _
  refine ⟨fun s' => ?_, fun t s' => (hI.lane t s').grows (hep _), fun t s' k hk =>
    Nat.le_trans (hI.point t s' k hk) (hep s').received⟩
  have hpeer := hep s'.peer
  by_cases hs : s' = s
  · subst hs
    rwa [World.setEp_ep_self, World.setEp_ep_peer]
  · refine EndpointInv.grows ?_ hpeer.received hpeer.staged
    rw [World.setEp_ep_ne hs]
    exact hI.endpoint s'

theorem setLane (hI : FlowInv w) {l : Lane} (hl : LaneInv l (w.ep s.peer)) :
    FlowInv (w.setLane t s l) := by
  refine ⟨hI.endpoint, fun t' s' => ?_, hI.point⟩
  by_cases h : t' = t ∧ s' = s
  · obtain ⟨rfl, rfl⟩ := h
    rwa [World.setLane_lane_self]
  · rw [World.setLane_lane_ne (not_and_or.mp h)]
    exact hI.lane t' s'

theorem readerGoesOn (hI : FlowInv w) {e : Endpoint} {wire : List Packet} {pc : ReaderPc}
    (hg : (w.ep s).Grows e)
    (he : EndpointInv e (w.ep s.peer).recovery.lastRecvSeq (w.ep s.peer).staged.length)
    (hl : LaneInv ⟨wire, pc⟩ (w.ep s.peer)) : FlowInv (w.readerGoesOn s t e wire pc) :=
  (hI.setEp hg he).setLane (by rwa [World.setEp_ep_peer])

theorem setTransport (hI : FlowInv w) (t : Nat) (tr : Transport)
    (htr : ∀ s k, tr.point s = some k → k ≤ (w.ep s).recovery.lastRecvSeq) :
    FlowInv (w.setTransport t tr) := by
  refine ⟨hI.endpoint, hI.lane, fun t' s' k hk => ?_⟩
  by_cases ht : t' = t
  · subst ht
    rw [World.setTransport_transport_self] at hk
    exact htr s' k hk
  · rw [World.setTransport_transport_ne ht] at hk
    exact hI.point t' s' k hk

end FlowInv

/-! ### The operations of an endpoint -/

section operations

variable {e e' : Endpoint} {L n : Nat} {frame : Frame} {record : FrameRecord}

theorem EndpointInv.congr (h : EndpointInv e L n) (hr : e'.recovery = e.recovery)
    (hs : e'.nextSendSeq = e.nextSendSeq) (hst : e'.staged = e.staged)
    (hc : e'.writerCmd = e.writerCmd) (hw : e'.writing = e.writing ∨ e'.writing = none)
    (hres : e'.resume = e.resume) : EndpointInv e' L n := by
  obtain ⟨recovery, seq, outbound, cmd, writer, last, resume, held, writing, failed, staged, handed,
    accepted, cancelled⟩ := e'
  simp only at hr hs hst hc hw hres
  subst hr hs hst hc hres
  refine ⟨h.keeps, h.seq, h.acked, h.command, h.received, h.ack, ?_, ?_, h.resume⟩
  · rcases hw with rfl | rfl
    · exact h.writingAck
    · intro k hk; cases hk
  · rcases hw with rfl | rfl
    · exact h.writingData
    · intro r hr; cases hr

theorem Endpoint.Grows.congr (hr : e'.recovery = e.recovery) (hst : e'.staged = e.staged) :
    e.Grows e' :=
  ⟨Nat.le_of_eq (by rw [hr]), by simp only [Endpoint.records, hr, hst]; exact List.prefix_refl _⟩

/-- A frame is kept under the next number, held, or dropped with an error. -/
theorem Endpoint.stage_cases (h : EndpointInv e L n) (frame : Frame) :
    (∃ replay, e.stage frame =
        (some ⟨frame, e.staged.length + 1, ReplayBuffer.frameSize e.recovery.replay.headerLen frame⟩,
          { e with
            nextSendSeq := e.staged.length + 1
            recovery := { e.recovery with replay := replay }
            staged := e.staged ++ [frame] }) ∧
      replay.Keeps (e.staged ++ [frame]) ∧
      replay.headerLen = e.recovery.replay.headerLen ∧
      replay.lastAcked = e.recovery.replay.lastAcked) ∨
    e.stage frame = (none, { e with held := some frame }) ∨ e.stage frame = (none, e) := by
  rcases h.keeps.stage frame with ⟨b', hst, hk, hh, -, hl, -⟩ | ⟨hst, -⟩ | ⟨hst, -⟩
  · exact .inl ⟨b', by simp only [Endpoint.stage, h.seq, hst], hk, hh, hl⟩
  · exact .inr (.inl (by simp only [Endpoint.stage, h.seq, hst]))
  · exact .inr (.inr (by simp only [Endpoint.stage, h.seq, hst]))

theorem EndpointInv.stage (h : EndpointInv e L n) (frame : Frame) :
    EndpointInv (e.stage frame).2 L n ∧ e.Grows (e.stage frame).2 ∧
      (e.stage frame).2.lastSentSeq = e.lastSentSeq ∧
      ∀ record, (e.stage frame).1 = some record → record ∈ (e.stage frame).2.records := by
  rcases Endpoint.stage_cases h frame with ⟨replay, hst, hk, hh, hl⟩ | hst | hst
  · have hrec : (e.stage frame).2.records = e.records ++
        [⟨frame, e.staged.length + 1, ReplayBuffer.frameSize e.recovery.replay.headerLen frame⟩] := by
      rw [hst]
      simp only [Endpoint.records, hh, recordsFrom_append, Nat.zero_add]
      rfl
    have hpre : e.records <+: (e.stage frame).2.records := hrec ▸ List.prefix_append _ _
    rw [hst] at hpre hrec ⊢
    refine ⟨⟨hk, by simp, by simpa only [hl] using h.acked, h.command, h.received,
      ⟨h.ack.sent_le, h.ack.scheduled⟩, h.writingAck, fun r hr => hpre.subset (h.writingData r hr),
      fun r hr => hpre.subset (h.resume r hr)⟩, ⟨Nat.le_refl _, hpre⟩, rfl, ?_⟩
    intro record hr
    cases hr
    rw [hrec]
    exact List.mem_append_right _ List.mem_cons_self
  · rw [hst]
    exact ⟨h.congr rfl rfl rfl rfl (.inl rfl) rfl, .congr rfl rfl, rfl, by simp⟩
  · rw [hst]
    exact ⟨h, .refl e, rfl, by simp⟩

theorem EndpointInv.writeLive (h : EndpointInv e L n) (frame : Frame) :
    EndpointInv (e.writeLive frame) L n ∧ e.Grows (e.writeLive frame) := by
  obtain ⟨hinv, hgrows, -, hmem⟩ := h.stage frame
  rw [Endpoint.writeLive]
  revert hinv hgrows hmem
  obtain ⟨record, e'⟩ := e.stage frame
  intro hinv hgrows hmem
  cases record with
  | none => exact ⟨hinv, hgrows⟩
  | some record =>
      simp only
      split
      · refine ⟨⟨hinv.keeps, hinv.seq, hinv.acked, hinv.command, hinv.received, hinv.ack, ?_, ?_,
          hinv.resume⟩, ⟨hgrows.received, hgrows.records⟩⟩
        · intro k hk
          cases hk
        · intro r hr
          cases hr
          exact hmem _ rfl
      · exact ⟨hinv, hgrows⟩

theorem EndpointInv.writeNext (h : EndpointInv e L n) (he : e.writeNext = some e') :
    EndpointInv e' L n ∧ e.Grows e' := by
  simp only [Endpoint.writeNext] at he
  split at he
  · rename_i frame resume hres
    have hmem : ∀ r ∈ frame :: resume, r ∈ e.records := by rw [← hres]; exact h.resume
    split at he <;> cases he
    · refine ⟨⟨h.keeps, h.seq, h.acked, h.command, h.received, h.ack, ?_, ?_, ?_⟩, .congr rfl rfl⟩
      · intro k hk
        cases hk
      · intro r hr
        cases hr
        exact hmem _ List.mem_cons_self
      · exact fun r hr => hmem r (List.mem_cons_of_mem _ hr)
    · exact ⟨⟨h.keeps, h.seq, h.acked, h.command, h.received, h.ack, h.writingAck, h.writingData,
        fun r hr => hmem r (List.mem_cons_of_mem _ hr)⟩, .congr rfl rfl⟩
  · split at he
    · cases he
      have h' : EndpointInv { e with held := none } L n := h.congr rfl rfl rfl rfl (.inl rfl) rfl
      obtain ⟨hinv, hg⟩ := h'.writeLive ‹Frame›
      exact ⟨hinv, ⟨hg.received, hg.records⟩⟩
    · cases he
      rename_i frame outbound _ _
      have h' : EndpointInv { e with outbound := outbound } L n :=
        h.congr rfl rfl rfl rfl (.inl rfl) rfl
      obtain ⟨hinv, hg⟩ := h'.writeLive frame
      exact ⟨hinv, ⟨hg.received, hg.records⟩⟩
    · cases he

theorem EndpointInv.stageDetached (h : EndpointInv e L n) (he : e.stageDetached = some e') :
    EndpointInv e' L n ∧ e.Grows e' := by
  simp only [Endpoint.stageDetached] at he
  split at he
  · cases he
    rename_i frame outbound _ _
    have h' : EndpointInv { e with outbound := outbound } L n :=
      h.congr rfl rfl rfl rfl (.inl rfl) rfl
    obtain ⟨hinv, hg, -⟩ := h'.stage frame
    exact ⟨hinv, ⟨hg.received, hg.records⟩⟩
  · cases he

/-- An acknowledgement of what the peer has received. -/
theorem EndpointInv.ackReceived (h : EndpointInv e L n) (hL : L ≤ e.staged.length) {k : Nat}
    (hk : k ≤ L) :
    EndpointInv { e with recovery := e.recovery.ackReceived k } L n ∧
      e.Grows { e with recovery := e.recovery.ackReceived k } := by
  have hrec : Endpoint.records { e with recovery := e.recovery.ackReceived k } = e.records := by
    simp only [Endpoint.records, RecoveryState.ackReceived, ReplayBuffer.ack_headerLen]
  refine ⟨⟨h.keeps.ack (Nat.le_trans hk hL), h.seq, ?_, h.command, h.received,
    ⟨h.ack.sent_le, h.ack.scheduled⟩, h.writingAck, ?_, ?_⟩, ⟨Nat.le_refl _, ?_⟩⟩
  · have := h.acked
    simp only [RecoveryState.ackReceived, ReplayBuffer.lastAcked_ack]
    omega
  · rw [hrec]; exact h.writingData
  · rw [hrec]; exact h.resume
  · exact hrec ▸ List.prefix_refl _

theorem EndpointInv.apply {cmd : WriterCommand} {rest : List WriterCommand}
    (h : EndpointInv e L n) (hL : L ≤ e.staged.length) (hc : e.writerCmd = cmd :: rest) :
    EndpointInv ({ e with writerCmd := rest }.apply cmd) L n ∧
      e.Grows ({ e with writerCmd := rest }.apply cmd) := by
  have hrest : ∀ t k, .attach t k ∈ rest → k ≤ L :=
    fun t k hk => h.command t k (hc ▸ List.mem_cons_of_mem _ hk)
  cases cmd with
  | attach t k =>
      have hk : min k e.nextSendSeq ≤ L :=
        Nat.le_trans (Nat.min_le_left _ _) (h.command t k (hc ▸ List.mem_cons_self))
      obtain ⟨hinv, hg⟩ := h.ackReceived hL hk
      refine ⟨⟨hinv.keeps, h.seq, hinv.acked, hrest, h.received, ⟨h.ack.sent_le, h.ack.scheduled⟩,
        h.writingAck, hinv.writingData, ?_⟩, ⟨Nat.le_refl _, hg.records⟩⟩
      intro r hr
      have hmem : r ∈ (e.recovery.replay.ack (min k e.nextSendSeq)).replayQueue :=
        List.mem_of_mem_drop hr
      have hq : (e.recovery.replay.ack (min k e.nextSendSeq)).replayQueue = _ := hinv.keeps.queue
      rw [hq] at hmem
      exact List.mem_of_mem_drop hmem
  | detach t =>
      simp only [Endpoint.apply]
      split <;>
        exact ⟨⟨h.keeps, h.seq, h.acked, hrest, h.received, h.ack, h.writingAck, h.writingData,
          h.resume⟩, .congr rfl rfl⟩

theorem EndpointInv.takeAck (h : EndpointInv e L n) (now : Nat) :
    EndpointInv (e.takeAck now) L n ∧ e.Grows (e.takeAck now) := by
  have hrec : (e.takeAck now).records = e.records := by
    simp only [Endpoint.records, Endpoint.takeAck, RecoveryState.replay_takePendingAck]
  refine ⟨⟨?_, h.seq, ?_, h.command, ?_, h.ack.takePendingAck now, ?_, ?_, ?_⟩, ⟨?_, ?_⟩⟩
  · simpa only [Endpoint.takeAck, RecoveryState.replay_takePendingAck] using h.keeps
  · simpa only [Endpoint.takeAck, RecoveryState.replay_takePendingAck] using h.acked
  · simpa only [Endpoint.takeAck, RecoveryState.lastRecvSeq_takePendingAck] using h.received
  · intro k hk
    simp only [Endpoint.takeAck, Option.map_eq_some_iff] at hk
    obtain ⟨k', hk', hkk⟩ := hk
    cases hkk
    simp only [Endpoint.takeAck, RecoveryState.lastRecvSeq_takePendingAck]
    exact Nat.le_of_eq (RecoveryState.takePendingAck_some hk').1
  · intro r hr
    simp only [Endpoint.takeAck, Option.map_eq_some_iff] at hr
    obtain ⟨k', -, hkk⟩ := hr
    cases hkk
  · rw [hrec]; exact h.resume
  · simp [Endpoint.takeAck]
  · exact hrec ▸ List.prefix_refl _

theorem EndpointInv.sent (h : EndpointInv e L n) (packet : Packet) :
    EndpointInv (e.sent packet) L n ∧ e.Grows (e.sent packet) := by
  cases packet <;>
    exact ⟨h.congr rfl rfl rfl rfl (.inr rfl) rfl, .congr rfl rfl⟩

theorem EndpointInv.noteReceived (h : EndpointInv e L n) {seq : Nat} (hs : seq ≤ n) (now : Nat) :
    EndpointInv { e with recovery := (e.recovery.noteReceived now seq).2 } L n ∧
      e.Grows { e with recovery := (e.recovery.noteReceived now seq).2 } := by
  have hrec : Endpoint.records { e with recovery := (e.recovery.noteReceived now seq).2 } = e.records := by
    simp only [Endpoint.records, RecoveryState.replay_noteReceived]
  have hgrow : e.recovery.lastRecvSeq ≤ (e.recovery.noteReceived now seq).2.lastRecvSeq := by
    rw [RecoveryState.lastRecvSeq_noteReceived]
    exact Nat.le_max_left _ _
  refine ⟨⟨?_, h.seq, ?_, h.command, ?_, h.ack.noteReceived now seq, ?_, ?_, ?_⟩, ⟨hgrow, ?_⟩⟩
  · simpa only [RecoveryState.replay_noteReceived] using h.keeps
  · simpa only [RecoveryState.replay_noteReceived] using h.acked
  · have := h.received
    simp only [RecoveryState.lastRecvSeq_noteReceived]
    omega
  · exact fun k hk => Nat.le_trans (h.writingAck k hk) hgrow
  · rw [hrec]; exact h.writingData
  · rw [hrec]; exact h.resume
  · exact hrec ▸ List.prefix_refl _

end operations

/-! ### The steps -/

theorem checkDataFrame_new {m seq : Nat} (h : checkDataFrame m seq = .ok true) : seq = m + 1 := by
  simp only [checkDataFrame] at h
  split at h
  · cases h
  · split at h
    · cases h
    · split at h
      · cases h
      · omega

theorem checkDataFrame_dup {m seq : Nat} (h : checkDataFrame m seq = .ok false) : seq ≤ m := by
  simp only [checkDataFrame] at h
  split at h
  · cases h
  · split at h
    · assumption
    · split at h <;> cases h

section step

variable {w w' : World} {s : RecoveryRole} {t : Nat} {ev : Event}

theorem FlowInv.received_le (hI : FlowInv w) (s : RecoveryRole) :
    (w.ep s.peer).recovery.lastRecvSeq ≤ (w.ep s).staged.length := by
  simpa using (hI.endpoint s.peer).received

/-- A record in flight to a side has been staged by its peer. -/
theorem seq_le_staged {e : Endpoint} {r : FrameRecord} (h : r ∈ e.records) :
    0 < r.seq ∧ r.seq ≤ e.staged.length := by
  have := seq_of_mem h
  omega

theorem flow_announce (hI : FlowInv w) (t : Nat) (s : RecoveryRole) : FlowInv (w.announce t s) := by
  refine hI.setTransport t _ fun s' k hk => ?_
  by_cases hs : s' = s
  · subst hs
    simp only [Function.update_self, Option.some.injEq] at hk
    exact Nat.le_of_eq hk.symm
  · exact hI.point t s' k (by simpa [Function.update_of_ne hs] using hk)

theorem flow_attach (hI : FlowInv w) (h : w.step (.attach s t) = some w') : FlowInv w' := by
  simp only [World.step] at h
  split at h
  · rename_i k resumeSeq _ hpeer
    split at h
    · cases h
    · cases h
      have hk := hI.point t s.peer resumeSeq hpeer
      have ht := hI.setTransport t { w.transport t with
        attached := Function.update (w.transport t).attached s true } (hI.point t)
      refine ht.setEp ?_ ?_
      · cases s <;> exact ⟨Nat.le_refl _, List.prefix_refl _⟩
      · have he := hI.endpoint s
        have hcmd : ∀ t' k, WriterCommand.attach t' k ∈ (w.ep s).writerCmd ++ [.attach t resumeSeq] →
            k ≤ (w.ep s.peer).recovery.lastRecvSeq := by
          intro t' k hm
          rcases List.mem_append.mp hm with hm | hm
          · exact he.command t' k hm
          · cases List.mem_singleton.mp hm
            exact hk
        cases s <;>
          exact ⟨he.keeps, he.seq, he.acked, hcmd, he.received, ⟨he.ack.sent_le, he.ack.scheduled⟩,
            he.writingAck, he.writingData, he.resume⟩
  · cases h

/-- What an endpoint is writing joins what is in flight to its peer. -/
theorem LaneInv.append {l : Lane} {p : Endpoint} {L n : Nat} {packet : Packet} (h : LaneInv l p)
    (hp : EndpointInv p L n) (hw : p.writing = some packet) :
    LaneInv { l with wire := l.wire ++ [packet] } p := by
  refine ⟨fun k hk => ?_, fun r hr => ?_, h.accepting, h.noting⟩
  · rcases List.mem_append.mp hk with hk | hk
    · exact h.ack k hk
    · exact hp.writingAck k (hw.trans (congrArg some (List.mem_singleton.mp hk).symm))
  · rcases List.mem_append.mp hr with hr | hr
    · exact h.data r hr
    · exact hp.writingData r (hw.trans (congrArg some (List.mem_singleton.mp hr).symm))

theorem flow_writeDone {ok : Bool} (hI : FlowInv w) (h : w.writeDone s ok = some w') :
    FlowInv w' := by
  have he := hI.endpoint s
  simp only [World.writeDone] at h
  split at h
  · rename_i t packet hw hp
    obtain ⟨hsent, hg⟩ := he.sent packet
    have hw₁ := hI.setEp hg hsent
    split at h
    · split at h
      · cases h
        exact hw₁
      · cases h
        have hl := (hI.lane t s.peer)
        rw [RecoveryRole.peer_peer] at hl
        refine hw₁.setLane ?_
        rw [RecoveryRole.peer_peer, World.setEp_ep_self]
        exact (hl.append he hp).grows hg
    · cases h
      exact hI.setEp (.congr rfl rfl) (he.congr rfl rfl rfl rfl (.inr rfl) rfl)
  · cases h

theorem flow_read {now : Nat} (hI : FlowInv w) (h : w.step (.read s t now) = some w') :
    FlowInv w' := by
  have he := hI.endpoint s
  have hl := hI.lane t s
  simp only [World.step] at h
  split at h
  · rename_i m packet wire hpc hwire
    cases h
    have hwire' : ∀ p ∈ wire, p ∈ (w.lane t s).wire := fun p hp => hwire ▸ List.mem_cons_of_mem _ hp
    have hlane : ∀ pc, (∀ m' r, pc = .accepting m' r → r ∈ (w.ep s.peer).records) →
        (∀ m' r, pc ≠ .noting m' r) → LaneInv ⟨wire, pc⟩ (w.ep s.peer) := fun pc ha hn =>
      ⟨fun k hk => hl.ack k (hwire' _ hk), fun r hr => hl.data r (hwire' _ hr), ha,
        fun m' r h => absurd h (hn m' r)⟩
    cases packet with
    | ack k =>
        obtain ⟨hinv, hg⟩ := he.ackReceived (hI.received_le s)
          (hl.ack k (hwire ▸ List.mem_cons_self))
        exact hI.readerGoesOn hg hinv (hlane (.reading m) (by simp) (by simp))
    | ping => exact hI.readerGoesOn (.refl _) he (hlane (.reading m) (by simp) (by simp))
    | data r =>
        have hr := hl.data r (hwire ▸ List.mem_cons_self)
        simp only [handlePacket]
        split
        · exact hI.readerGoesOn (.congr rfl rfl) (he.congr rfl rfl rfl rfl (.inl rfl) rfl)
            (hlane _ (by simp) (by simp))
        · obtain ⟨hinv, hg⟩ := he.noteReceived (seq_le_staged hr).2 now
          exact hI.readerGoesOn hg hinv (hlane _ (by simp) (by simp))
        · refine hI.readerGoesOn (.congr rfl rfl) (he.congr rfl rfl rfl rfl (.inl rfl) rfl)
            (hlane _ (fun m' r' h => ?_) (by simp))
          cases h
          exact hr
  · cases h

/-- A step that changes only an endpoint of `w`. -/
theorem flow_setEp {e : Endpoint} (hI : FlowInv w)
    (h : EndpointInv e (w.ep s.peer).recovery.lastRecvSeq (w.ep s.peer).staged.length ∧
      (w.ep s).Grows e) : FlowInv (w.setEp s e) :=
  hI.setEp h.2 h.1

theorem flowInv_step (hI : FlowInv w) (h : machine.step w ev = some w') : FlowInv w' := by
  cases ev with
  | dial =>
      cases h
      have ha := flow_announce hI w.dialed .client
      exact ⟨ha.endpoint, ha.lane, ha.point⟩
  | respond t =>
      simp only [machine, World.step] at h
      split at h <;> cases h
      exact flow_announce hI t .server
  | attach s t => exact flow_attach hI h
  | spawnReader s t =>
      simp only [machine, World.step] at h
      split at h <;> cases h
      have hl := hI.lane t s
      exact hI.setLane ⟨hl.ack, hl.data, by simp, by simp⟩
  | detach s t =>
      simp only [machine, World.step] at h
      split at h <;> cases h
      have he := hI.endpoint s
      refine hI.setEp (.congr rfl rfl) ⟨he.keeps, he.seq, he.acked, fun t' k hm => ?_, he.received,
        he.ack, he.writingAck, he.writingData, he.resume⟩
      rcases List.mem_append.mp hm with hm | hm
      · exact he.command t' k hm
      · cases List.mem_singleton.mp hm
  | send s frame =>
      cases h
      exact hI.setEp (.congr rfl rfl) ((hI.endpoint s).congr rfl rfl rfl rfl (.inl rfl) rfl)
  | apply s =>
      simp only [machine, World.step] at h
      split at h
      · split at h <;> cases h
        exact flow_setEp hI ((hI.endpoint s).apply (hI.received_le s) ‹_›)
      · cases h
  | takeAck s now =>
      simp only [machine, World.step] at h
      split at h <;> cases h
      exact flow_setEp hI ((hI.endpoint s).takeAck now)
  | writeNext s =>
      simp only [machine, World.step] at h
      split at h
      · obtain ⟨e, he, rfl⟩ := Option.map_eq_some_iff.mp h
        exact flow_setEp hI ((hI.endpoint s).writeNext he)
      · cases h
  | writePing s =>
      simp only [machine, World.step] at h
      split at h <;> cases h
      have he := hI.endpoint s
      exact hI.setEp (.congr rfl rfl) ⟨he.keeps, he.seq, he.acked, he.command, he.received, he.ack,
        by simp, by simp, he.resume⟩
  | stageDetached s =>
      simp only [machine, World.step] at h
      split at h
      · obtain ⟨e, he, rfl⟩ := Option.map_eq_some_iff.mp h
        exact flow_setEp hI ((hI.endpoint s).stageDetached he)
      · cases h
  | writeDone s ok => exact flow_writeDone hI h
  | flushFail s =>
      simp only [machine, World.step] at h
      split at h <;> cases h
      exact hI.setEp (.congr rfl rfl) ((hI.endpoint s).congr rfl rfl rfl rfl (.inl rfl) rfl)
  | startReader s t =>
      simp only [machine, World.step] at h
      split at h <;> cases h
      have hl := hI.lane t s
      exact hI.setLane ⟨hl.ack, hl.data, by simp, by simp⟩
  | read s t now => exact flow_read hI h
  | accept s t =>
      simp only [machine, World.step] at h
      split at h <;> cases h
      have hl := hI.lane t s
      refine hI.readerGoesOn (.congr rfl rfl)
        ((hI.endpoint s).congr rfl rfl rfl rfl (.inl rfl) rfl) ⟨hl.ack, hl.data, by simp, ?_⟩
      intro m r hr
      cases hr
      exact hl.accepting _ _ ‹_›
  | note s t now =>
      simp only [machine, World.step] at h
      split at h <;> cases h
      have hl := hI.lane t s
      obtain ⟨hinv, hg⟩ := (hI.endpoint s).noteReceived
        (seq_le_staged (hl.noting _ _ ‹_›)).2 now
      exact hI.readerGoesOn hg hinv ⟨hl.ack, hl.data, by simp, by simp⟩
  | stop s t =>
      simp only [machine, World.step] at h
      have hl := hI.lane t s
      split at h <;> cases h
      · exact hI.setLane ⟨hl.ack, hl.data, by simp, by simp⟩
      · exact hI.setLane ⟨hl.ack, hl.data, by simp, by simp⟩
      · exact hI.readerGoesOn (.congr rfl rfl)
          ((hI.endpoint s).congr rfl rfl rfl rfl (.inl rfl) rfl) ⟨hl.ack, hl.data, by simp, by simp⟩
  | breakTransport t keep =>
      cases h
      have hw₁ := hI.setTransport t { w.transport t with broken := true } (hI.point t)
      refine ⟨hw₁.endpoint, fun t' s' => ?_, hw₁.point⟩
      by_cases ht : t' = t
      · subst ht
        -- What is left of a wire was on it before.
        have hl := hI.lane t' s'
        simp only [Function.update_self]
        exact ⟨fun k hk => hl.ack k (List.mem_of_mem_take hk),
          fun r hr => hl.data r (List.mem_of_mem_take hr), hl.accepting, hl.noting⟩
      · simp only [Function.update_of_ne ht]
        exact hI.lane t' s'

theorem flowInv_initial (negotiated : NegotiatedRecoveryOptions) (headerLen : Nat)
    (maxReplayBytes : RecoveryRole → Int) :
    FlowInv (.initial negotiated headerLen maxReplayBytes) := by
  refine ⟨fun s => ?_, fun t s => ⟨by simp [World.initial], by simp [World.initial],
    by simp [World.initial], by simp [World.initial]⟩, by simp [World.initial]⟩
  exact ⟨ReplayBuffer.keeps_new headerLen (maxReplayBytes s), rfl, Nat.le_refl _,
    by simp [World.initial, Endpoint.new], Nat.le_refl _, RecoveryState.ackInv_new _ _ _,
    by simp [World.initial, Endpoint.new], by simp [World.initial, Endpoint.new],
    by simp [World.initial, Endpoint.new]⟩

/-! ### Transports not dialed yet -/

/-- Nothing has happened on a transport that was not dialed. -/
structure Fresh (w : World) : Prop where
  point : ∀ t s, w.dialed ≤ t → (w.transport t).point s = none
  attached : ∀ t s, w.dialed ≤ t → (w.transport t).attached s = false
  reader : ∀ t s, w.dialed ≤ t → (w.lane t s).reader = .unspawned

theorem Fresh.setEp {e : Endpoint} (h : Fresh w) : Fresh (w.setEp s e) := ⟨h.point, h.attached, h.reader⟩

/-- A reader that was spawned before goes on. -/
theorem Fresh.setLane {l : Lane} (h : Fresh w)
    (hl : w.dialed ≤ t → l.reader = .unspawned) : Fresh (w.setLane t s l) := by
  refine ⟨h.point, h.attached, fun t' s' hle => ?_⟩
  by_cases ht : t' = t ∧ s' = s
  · obtain ⟨rfl, rfl⟩ := ht
    rw [World.setLane_lane_self]
    exact hl hle
  · rw [World.setLane_lane_ne (not_and_or.mp ht)]
    exact h.reader t' s' hle

theorem Fresh.setTransport (h : Fresh w) {tr : Transport} (ht : t < w.dialed) :
    Fresh (w.setTransport t tr) := by
  have hne : ∀ t', w.dialed ≤ t' → t' ≠ t := fun t' hle heq => Nat.not_le.mpr ht (heq ▸ hle)
  refine ⟨fun t' s' hle => ?_, fun t' s' hle => ?_, h.reader⟩
  · rw [World.setTransport_transport_ne (hne t' hle)]
    exact h.point t' s' hle
  · rw [World.setTransport_transport_ne (hne t' hle)]
    exact h.attached t' s' hle

theorem Fresh.dialed_of_point (h : Fresh w) {s : RecoveryRole} {p : Nat}
    (hp : (w.transport t).point s = some p) : t < w.dialed :=
  Nat.lt_of_not_le fun hle => by
    rw [h.point t s hle] at hp
    cases hp

theorem Fresh.dialed_of_reader (h : Fresh w) (hr : (w.lane t s).reader ≠ .unspawned) :
    t < w.dialed := Nat.lt_of_not_le fun hle => hr (h.reader t s hle)

theorem fresh_step (hF : Fresh w) (h : machine.step w ev = some w') : Fresh w' := by
  cases ev with
  | dial =>
      cases h
      refine ⟨fun t s hle => ?_, fun t s hle => ?_, fun t s hle => hF.reader t s (Nat.le_of_succ_le hle)⟩
      · simp only [World.announce] at hle ⊢
        rw [World.setTransport_transport_ne (by omega)]
        exact hF.point t s (Nat.le_of_succ_le hle)
      · simp only [World.announce] at hle ⊢
        rw [World.setTransport_transport_ne (by omega)]
        exact hF.attached t s (Nat.le_of_succ_le hle)
  | respond t =>
      simp only [machine, World.step] at h
      split at h
      · rename_i hpt
        cases h
        obtain ⟨p, hp⟩ := Option.isSome_iff_exists.mp hpt.1
        exact hF.setTransport (hF.dialed_of_point hp)
      · cases h
  | attach s t =>
      simp only [machine, World.step] at h
      split at h
      · rename_i own _ hown _
        split at h <;> cases h
        exact (hF.setTransport (hF.dialed_of_point hown)).setEp
      · cases h
  | spawnReader s t =>
      simp only [machine, World.step] at h
      split at h
      · rename_i ha
        cases h
        -- A transport that is not dialed yet has no attached side.
        refine hF.setLane fun hle => ?_
        rw [hF.attached t s hle] at ha
        cases ha.2
      · cases h
  | writeNext s | stageDetached s =>
      simp only [machine, World.step] at h
      split at h
      · obtain ⟨e, -, rfl⟩ := Option.map_eq_some_iff.mp h
        exact hF.setEp
      · cases h
  | writeDone s ok =>
      simp only [machine, World.step, World.writeDone] at h
      repeat' split at h
      all_goals cases h
      · exact hF.setEp
      · exact hF.setEp.setLane (hF.reader _ _)
      · exact hF.setEp
  | startReader s t =>
      simp only [machine, World.step] at h
      split at h
      · rename_i hr
        cases h
        refine hF.setLane fun hle => ?_
        rw [hF.reader t s hle] at hr
        cases hr
      · cases h
  | read s t now =>
      simp only [machine, World.step] at h
      split at h
      · rename_i hr _
        cases h
        refine hF.setEp.setLane fun hle => ?_
        rw [World.setEp_dialed] at hle
        rw [hF.reader t s hle] at hr
        cases hr
      · cases h
  | accept s t | note s t now =>
      simp only [machine, World.step] at h
      split at h
      · rename_i hr
        cases h
        refine hF.setEp.setLane fun hle => ?_
        rw [World.setEp_dialed] at hle
        rw [hF.reader t s hle] at hr
        cases hr
      · cases h
  | stop s t =>
      simp only [machine, World.step] at h
      split at h
      all_goals first | cases h; done | skip
      all_goals
        rename_i hr
        cases h
        first | refine hF.setLane fun hle => ?_ | refine hF.setEp.setLane fun hle => ?_
        have hle' : w.dialed ≤ t := hle
        rw [hF.reader t s hle'] at hr
        cases hr
  | breakTransport t keep =>
      cases h
      let tr := { w.transport t with broken := true }
      refine ⟨fun t' s hle => ?_, fun t' s hle => ?_, fun t' s hle => ?_⟩
      · exact (congrFun (World.setTransport_same tr (·.point) rfl t') s).trans (hF.point t' s hle)
      · exact (congrFun (World.setTransport_same tr (·.attached) rfl t') s).trans
          (hF.attached t' s hle)
      · by_cases ht : t' = t
        · subst ht
          simpa using hF.reader t' s hle
        · simpa only [Function.update_of_ne ht] using hF.reader t' s hle
  | _ =>
      simp only [machine, World.step] at h
      repeat' split at h
      all_goals cases h
      all_goals exact hF.setEp

theorem fresh_initial (negotiated : NegotiatedRecoveryOptions) (headerLen : Nat)
    (maxReplayBytes : RecoveryRole → Int) :
    Fresh (.initial negotiated headerLen maxReplayBytes) :=
  ⟨fun _ _ _ => rfl, fun _ _ _ => rfl, fun _ _ _ => rfl⟩

theorem fresh_reachable (h : machine.Reachable w) : Fresh w := by
  refine h.invariant ?_ fun _ _ _ hF _ hs => fresh_step hF hs
  rintro _ ⟨negotiated, headerLen, maxReplayBytes, rfl⟩
  exact fresh_initial negotiated headerLen maxReplayBytes

end step

end AdaptiveMsg.Protocol
