import AdaptiveMsg.Machine.Gapless
import AdaptiveMsg.Protocol.Flow

/-!
# Protocol — no gap in flight

In every run, of however many readers at a time: what is in flight to a reader that has not ended
is without gaps, counted from the last number it has taken or from the last one received, whichever
is higher, and the writer goes on where that leaves off (`LaneOk`, `WriterOk`), over any number of
broken transports (`lanes_reachable`).
-/

namespace AdaptiveMsg.Protocol

open Machine (Gapless top le_top top_mono top_append top_nil top_cons)

/-! ### What is in flight is without gaps -/

/-- The numbers of the data frames. -/
def seqs (wire : List Packet) : List Nat :=
  wire.filterMap fun
    | .data record => some record.seq
    | _ => none

@[simp] theorem seqs_append (a b : List Packet) : seqs (a ++ b) = seqs a ++ seqs b :=
  List.filterMap_append

/-- The last number that the reader of a lane will have taken, once done with what it has read, or
the last number received if that is higher; none if it has ended. -/
def Lane.base (l : Lane) (received : Nat) : Option Nat :=
  match l.reader with
  | .unspawned | .starting => some received
  | .reading m => some (max m received)
  | .accepting m _ | .noting m _ => some (max (m + 1) received)
  | .ended => none

/-- A writer whose transport has been given the numbers up to `m` goes on without a gap: what it is
writing is a duplicate or the next, and the frames left to replay start no later. -/
structure WriterOk (e : Endpoint) (m : Nat) : Prop where
  suffix : e.resume <:+ e.records
  writing : Gapless m (seqs e.writing.toList)
  position : e.staged.length - e.resume.length ≤ top m (seqs e.writing.toList)
  sent : e.lastSentSeq ≤ top m (seqs e.writing.toList)

/-- What is in flight on transport `t`, from `p` to an endpoint that has received up to `received`. -/
structure LaneOk (l : Lane) (received t : Nat) (broken : Bool) (p : Endpoint) : Prop where
  gapless : ∀ m, l.base received = some m → Gapless m (seqs l.wire)
  writer : ∀ m, l.base received = some m → p.writer = some t → broken = false →
    WriterOk p (top m (seqs l.wire))

/-- A reader is no further than what was received, and has read the next frame. -/
structure ReaderOk (pc : ReaderPc) (received : Nat) : Prop where
  reading : ∀ m, pc = .reading m → m ≤ received
  accepting : ∀ m r, pc = .accepting m r → m ≤ received ∧ r.seq = m + 1
  noting : ∀ m r, pc = .noting m r → m ≤ received ∧ r.seq = m + 1

structure LanesInv (w : World) : Prop where
  flow : FlowInv w
  lane : ∀ s t, LaneOk (w.lane t s) (w.ep s).recovery.lastRecvSeq t (w.transport t).broken (w.ep s.peer)
  reader : ∀ s t, ReaderOk (w.lane t s).reader (w.ep s).recovery.lastRecvSeq

theorem WriterOk.mono {e : Endpoint} {m n : Nat} (h : WriterOk e m) (hmn : m ≤ n) : WriterOk e n :=
  ⟨h.suffix, h.writing.mono hmn, Nat.le_trans h.position (top_mono hmn),
    Nat.le_trans h.sent (top_mono hmn)⟩

theorem ReaderOk.mono {pc : ReaderPc} {m n : Nat} (h : ReaderOk pc m) (hmn : m ≤ n) : ReaderOk pc n :=
  ⟨fun k hk => (h.reading k hk).trans hmn, fun k r hk => (h.accepting k r hk).imp_left (·.trans hmn),
    fun k r hk => (h.noting k r hk).imp_left (·.trans hmn)⟩

/-- A reader that has read nothing owes nothing. -/
theorem ReaderOk.starting (n : Nat) : ReaderOk .starting n := ⟨nofun, nofun, nofun⟩

theorem ReaderOk.ended (n : Nat) : ReaderOk .ended n := ⟨nofun, nofun, nofun⟩

theorem ReaderOk.ofReading {m n : Nat} (h : m ≤ n) : ReaderOk (.reading m) n :=
  ⟨fun k hk => by cases hk; exact h, nofun, nofun⟩

theorem ReaderOk.ofAccepting {m n : Nat} {r : FrameRecord} (h : m ≤ n ∧ r.seq = m + 1) :
    ReaderOk (.accepting m r) n :=
  ⟨nofun, fun k r' hk => by cases hk; exact h, nofun⟩

theorem ReaderOk.ofNoting {m n : Nat} {r : FrameRecord} (h : m ≤ n ∧ r.seq = m + 1) :
    ReaderOk (.noting m r) n :=
  ⟨nofun, nofun, fun k r' hk => by cases hk; exact h⟩

/-- A base is at least what was received. -/
theorem Lane.le_base {l : Lane} {m n : Nat} (h : l.base n = some m) : n ≤ m := by
  simp only [Lane.base] at h
  split at h <;> cases h
  · exact le_rfl
  · exact le_rfl
  · exact Nat.le_max_right _ _
  · exact Nat.le_max_right _ _
  · exact Nat.le_max_right _ _

/-- What is in flight stays without gaps when the endpoint receives more. -/
theorem LaneOk.received {l : Lane} {m n t : Nat} {broken : Bool} {p : Endpoint}
    (h : LaneOk l m t broken p) (hmn : m ≤ n) : LaneOk l n t broken p := by
  have hbase : ∀ k, l.base n = some k → ∃ k', l.base m = some k' ∧ k' ≤ k := by
    intro k hk
    simp only [Lane.base] at hk ⊢
    split at hk <;> cases hk
    · exact ⟨m, rfl, hmn⟩
    · exact ⟨m, rfl, hmn⟩
    · exact ⟨_, rfl, max_le_max_left _ hmn⟩
    · exact ⟨_, rfl, max_le_max_left _ hmn⟩
    · exact ⟨_, rfl, max_le_max_left _ hmn⟩
  refine ⟨fun k hk => ?_, fun k hk hw hb => ?_⟩
  · obtain ⟨k', hk', hle⟩ := hbase k hk
    exact (h.gapless k' hk').mono hle
  · obtain ⟨k', hk', hle⟩ := hbase k hk
    exact (h.writer k' hk' hw hb).mono (top_mono hle)

/-- What is in flight stays without gaps when a reader takes from it. -/
theorem LaneOk.goesOn {l l' : Lane} {m m' n n' t : Nat} {broken : Bool} {p : Endpoint}
    (h : LaneOk l n t broken p) (hb : l.base n = some m) (hb' : l'.base n' = some m')
    (hg : Gapless m' (seqs l'.wire)) (htop : top m (seqs l.wire) ≤ top m' (seqs l'.wire)) :
    LaneOk l' n' t broken p := by
  refine ⟨fun k hk => ?_, fun k hk hw hbr => ?_⟩ <;>
  · rw [hb'] at hk
    cases hk
    first
      | exact hg
      | exact (h.writer m hb hw hbr).mono htop

/-- Nothing is asked of a lane whose reader has ended. -/
theorem LaneOk.ended {l : Lane} {m t : Nat} {broken : Bool} {p : Endpoint}
    (hr : l.reader = .ended) : LaneOk l m t broken p := by
  refine ⟨fun k hk => ?_, fun k hk => ?_⟩ <;>
  · simp only [Lane.base, hr] at hk
    cases hk

/-! ### Changing one endpoint or one reader -/

/-- What the peer's readers see of an endpoint, and what its own readers keep. -/
structure ReceiverSame (e e' : Endpoint) : Prop where
  received : e'.recovery.lastRecvSeq = e.recovery.lastRecvSeq
  accepted : e'.accepted = e.accepted
  handed : e'.handed = e.handed
  cancelled : e'.cancelled = e.cancelled
  failed : e'.failed = e.failed

/-- What a writer goes by. -/
structure SenderSame (e e' : Endpoint) : Prop where
  records : e'.records = e.records
  writer : e'.writer = e.writer
  resume : e'.resume = e.resume
  lastSentSeq : e'.lastSentSeq = e.lastSentSeq
  writing : e'.writing = e.writing

theorem SenderSame.refl (e : Endpoint) : SenderSame e e := ⟨rfl, rfl, rfl, rfl, rfl⟩

section changes

variable {e e' : Endpoint} {m : Nat}

theorem WriterOk.same (h : WriterOk e m) (hs : SenderSame e e') : WriterOk e' m := by
  -- The numbers of the records count what is staged.
  have hlen : e'.staged.length = e.staged.length := by
    rw [← Endpoint.length_records, ← Endpoint.length_records, hs.records]
  refine ⟨?_, ?_, ?_, ?_⟩
  · rw [hs.resume, hs.records]; exact h.suffix
  · rw [hs.writing]; exact h.writing
  · rw [hs.writing, hs.resume, hlen]; exact h.position
  · rw [hs.writing, hs.lastSentSeq]; exact h.sent

end changes

namespace LanesInv

variable {w : World} {x : RecoveryRole} {t : Nat}

theorem writerOk (hI : LanesInv w) {m : Nat} (hw : (w.ep x).writer = some t)
    (hb : (w.transport t).broken = false)
    (hm : (w.lane t x.peer).base (w.ep x.peer).recovery.lastRecvSeq = some m) :
    WriterOk (w.ep x) (top m (seqs (w.lane t x.peer).wire)) := by
  have hl := hI.lane x.peer t
  rw [RecoveryRole.peer_peer] at hl
  exact hl.writer m hm hw hb

/-- A step of the writer, or of the application, of `x`. -/
theorem setEp (hI : LanesInv w) {e : Endpoint} (hF : FlowInv (w.setEp x e))
    (hs : ReceiverSame (w.ep x) e)
    (hw : ∀ t m, e.writer = some t → (w.transport t).broken = false →
      (w.lane t x.peer).base (w.ep x.peer).recovery.lastRecvSeq = some m →
      WriterOk e (top m (seqs (w.lane t x.peer).wire))) : LanesInv (w.setEp x e) := by
  refine ⟨hF, fun s t => ?_, fun s t => ?_⟩
  · rcases x.eq_or_eq_peer s with rfl | rfl
    · rw [World.setEp_ep_self, World.setEp_ep_peer, hs.received]
      exact hI.lane s t
    · have hl := hI.lane x.peer t
      rw [RecoveryRole.peer_peer, World.setEp_ep_self, World.setEp_ep_peer]
      exact ⟨hl.gapless, fun m hm hwt hb => hw t m hwt hb hm⟩
  · have hr := hI.reader s t
    rcases x.eq_or_eq_peer s with rfl | rfl
    · rwa [World.setEp_ep_self, hs.received]
    · rwa [World.setEp_ep_peer]

/-- A step of the reader of `x` on `t`. -/
theorem readerStep (hI : LanesInv w) {e : Endpoint} {l : Lane}
    (hF : FlowInv ((w.setEp x e).setLane t x l)) (hs : SenderSame (w.ep x) e)
    (hL : (w.ep x).recovery.lastRecvSeq ≤ e.recovery.lastRecvSeq)
    (hr : ReaderOk l.reader e.recovery.lastRecvSeq)
    (hl : LaneOk l e.recovery.lastRecvSeq t (w.transport t).broken (w.ep x.peer)) :
    LanesInv ((w.setEp x e).setLane t x l) := by
  refine ⟨hF, fun s t' => ?_, fun s t' => ?_⟩
  · rcases x.eq_or_eq_peer s with rfl | rfl
    · rw [World.setLane_ep, World.setEp_ep_self, World.setEp_ep_peer]
      by_cases htt : t' = t
      · subst htt
        rw [World.setLane_lane_self]
        exact hl
      · rw [World.setLane_lane_ne (.inl htt)]
        exact (hI.lane s t').received hL
    · have hold := hI.lane x.peer t'
      rw [RecoveryRole.peer_peer] at hold
      rw [World.setLane_ep, RecoveryRole.peer_peer, World.setEp_ep_self, World.setEp_ep_peer,
        World.setLane_lane_ne (.inr (RecoveryRole.peer_ne x))]
      exact ⟨hold.gapless, fun m hm hwt hb => (hold.writer m hm (hs.writer ▸ hwt) hb).same hs⟩
  · have hold := hI.reader s t'
    rcases x.eq_or_eq_peer s with rfl | rfl
    · rw [World.setLane_ep, World.setEp_ep_self]
      by_cases htt : t' = t
      · subst htt
        rwa [World.setLane_lane_self]
      · rw [World.setLane_lane_ne (.inl htt)]
        exact hold.mono hL
    · rwa [World.setLane_ep, World.setEp_ep_peer, World.setLane_lane_ne (.inr (RecoveryRole.peer_ne x))]

/-- A step that changes only what is in flight to `x`, and its reader. -/
theorem setLane (hI : LanesInv w) {l : Lane} (hF : FlowInv (w.setLane t x l))
    (hr : ReaderOk l.reader (w.ep x).recovery.lastRecvSeq)
    (hl : LaneOk l (w.ep x).recovery.lastRecvSeq t (w.transport t).broken (w.ep x.peer)) :
    LanesInv (w.setLane t x l) := by
  have hself : w.setEp x (w.ep x) = w := by
    rw [World.setEp, Function.update_eq_self]
  have h := hI.readerStep (x := x) (e := w.ep x) (l := l) (t := t)
  rw [hself] at h
  exact h hF ⟨rfl, rfl, rfl, rfl, rfl⟩ (Nat.le_refl _) hr hl

end LanesInv

/-! ### The writer leaves no gap -/

section writer

variable {e e' : Endpoint} {L n m k t : Nat}

/-- A writer that is writing nothing is where its transport is. -/
theorem WriterOk.idle (h : WriterOk e m) (hw : e.writing = none) :
    e.staged.length - e.resume.length ≤ m ∧ e.lastSentSeq ≤ m := by
  have hp := h.position
  have hs := h.sent
  rw [hw] at hp hs
  exact ⟨hp, hs⟩

/-- A writer that writes no data goes on from where it is. -/
theorem WriterOk.of_idle (hsuf : e.resume <:+ e.records) (hw : seqs e.writing.toList = [])
    (hp : e.staged.length - e.resume.length ≤ m) (hs : e.lastSentSeq ≤ m) : WriterOk e m := by
  refine ⟨hsuf, ?_, ?_, ?_⟩ <;> rw [hw]
  · trivial
  · exact hp
  · exact hs

/-- The first frame left to replay has the number after those passed. -/
theorem seq_of_suffix {r : FrameRecord} {rest : List FrameRecord} (h : r :: rest <:+ e.records) :
    r.seq = e.staged.length - rest.length ∧ rest.length + 1 ≤ e.staged.length := by
  obtain ⟨pre, hpre⟩ := h
  have hlen : pre.length + (rest.length + 1) = e.staged.length := by
    have := congrArg List.length hpre
    simpa using this
  -- What is left to replay is the list of the records after those passed.
  have hdrop : (recordsFrom e.recovery.replay.headerLen 0 e.staged).drop pre.length = r :: rest := by
    rw [← Endpoint.records, ← hpre, List.drop_left]
  rw [recordsFrom_drop] at hdrop
  cases hd : e.staged.drop pre.length with
  | nil =>
      rw [hd] at hdrop
      cases hdrop
  | cons f fs =>
      rw [hd] at hdrop
      simp only [recordsFrom, List.cons.injEq] at hdrop
      rw [← hdrop.1]
      simp only
      omega

theorem WriterOk.writeLive (hI : EndpointInv e L n) (h : WriterOk e m) (hw : e.writing = none)
    (hres : e.resume = []) (frame : Frame) : WriterOk (e.writeLive frame) m := by
  obtain ⟨hp, hs⟩ := h.idle hw
  simp only [hres, List.length_nil, Nat.sub_zero] at hp
  rw [Endpoint.writeLive]
  rcases Endpoint.stage_cases hI frame with ⟨replay, hst, -⟩ | hst | hst
  · rw [hst]
    simp only
    split
    · refine ⟨by rw [hres]; exact List.nil_suffix, ?_, ?_, ?_⟩
      · exact ⟨by simp only; omega, trivial⟩
      · simp only [seqs, hres, Option.toList_some, List.filterMap_cons, List.filterMap_nil, top_cons,
          top_nil, List.length_append, List.length_singleton, List.length_nil]
        omega
      · simp only [seqs, Option.toList_some, List.filterMap_cons, List.filterMap_nil, top_cons, top_nil]
        omega
    · refine .of_idle (by rw [hres]; exact List.nil_suffix) (by simp [hw, seqs]) ?_ hs
      simp only [List.length_append, List.length_singleton, hres, List.length_nil] at *
      omega
  · rw [hst]
    exact .of_idle (by rw [hres]; exact List.nil_suffix) (by simp [hw, seqs])
      (by simpa [hres] using hp) hs
  · rw [hst]
    exact h

theorem WriterOk.writeNext (hI : EndpointInv e L n) (h : WriterOk e m) (hw : e.writing = none)
    (hacked : e.recovery.replay.lastAcked ≤ m) (he : e.writeNext = some e') : WriterOk e' m := by
  obtain ⟨hp, hs⟩ := h.idle hw
  simp only [Endpoint.writeNext] at he
  split at he
  · rename_i frame resume hres
    have hsuf := h.suffix
    rw [hres] at hsuf hp
    obtain ⟨hseq, hlen⟩ := seq_of_suffix hsuf
    have hrest : resume <:+ e.records := (List.suffix_cons _ _).trans hsuf
    simp only [List.length_cons] at hp
    split at he
    · cases he
      refine ⟨hrest, ?_, ?_, ?_⟩
      · exact ⟨by omega, trivial⟩
      · simp only [seqs, Option.toList_some, List.filterMap_cons, List.filterMap_nil, top_cons, top_nil]
        omega
      · simp only [seqs, Option.toList_some, List.filterMap_cons, List.filterMap_nil, top_cons, top_nil]
        omega
    · -- The frame skipped is one the transport has been given, or one that was acknowledged.
      rename_i hskip
      cases he
      refine .of_idle hrest (by simp [hw, seqs]) ?_ hs
      simp only
      omega
  · rename_i hres
    split at he
    · cases he
      have hI' : EndpointInv { e with held := none } L n := hI.congr rfl rfl rfl rfl (.inl rfl) rfl
      exact WriterOk.writeLive hI' (h.same ⟨rfl, rfl, rfl, rfl, rfl⟩) hw hres _
    · cases he
      rename_i frame outbound _ _
      have hI' : EndpointInv { e with outbound := outbound } L n :=
        hI.congr rfl rfl rfl rfl (.inl rfl) rfl
      exact WriterOk.writeLive hI' (h.same ⟨rfl, rfl, rfl, rfl, rfl⟩) hw hres _
    · cases he

/-- A writer has passed what it wrote. -/
theorem WriterOk.writeDone {packet : Packet} (h : WriterOk e m) (hw : e.writing = some packet) :
    WriterOk (e.sent packet) (top m (seqs [packet])) := by
  have hp := h.position
  have hs := h.sent
  rw [hw, Option.toList_some] at hp hs
  cases packet with
  | data r =>
      refine .of_idle h.suffix rfl hp ?_
      simp only [seqs, Endpoint.sent, List.filterMap_cons, List.filterMap_nil, top_cons, top_nil]
      omega
  | ack k => exact .of_idle h.suffix rfl hp hs
  | ping => exact .of_idle h.suffix rfl hp hs

/-- An attach goes on from what the peer has received, whatever the writer did before. -/
theorem WriterOk.attach (hI : EndpointInv e L n) (hL : L ≤ e.staged.length) (hk : k ≤ L) (hm : L ≤ m)
    (hw : e.writing = none) {cmds : List WriterCommand} :
    WriterOk ({ e with writerCmd := cmds }.apply (.attach t k)) m := by
  have hle : min k e.nextSendSeq ≤ L := Nat.le_trans (Nat.min_le_left _ _) hk
  have hkeeps := hI.keeps.ack (Nat.le_trans hle hL)
  have hres : ({ e with writerCmd := cmds }.apply (.attach t k)).resume = e.records.drop
      (max (e.recovery.replay.ack (min k e.nextSendSeq)).lastAcked (min k e.nextSendSeq)) := by
    simp only [Endpoint.apply, RecoveryState.prepareResume]
    rw [hkeeps.snapshotFrom, ReplayBuffer.ack_headerLen]
    rfl
  have hrec : ({ e with writerCmd := cmds }.apply (.attach t k)).records = e.records := by
    simp only [Endpoint.records, Endpoint.apply, RecoveryState.prepareResume, ReplayBuffer.ack_headerLen]
  have hacked := hI.acked
  refine .of_idle ?_ (by simp [Endpoint.apply, hw, seqs]) ?_ ?_
  · rw [hres, hrec]
    exact List.drop_suffix _ _
  · rw [hres, List.length_drop, Endpoint.length_records, ReplayBuffer.lastAcked_ack]
    simp only [Endpoint.apply]
    omega
  · simp only [Endpoint.apply]
    omega

end writer

/-! ### What the writer leaves alone -/

section same

variable {e e' : Endpoint}

/-- What no step of the writer changes. -/
structure WriterSame (e e' : Endpoint) : Prop extends ReceiverSame e e' where
  writer : e'.writer = e.writer

theorem ReceiverSame.trans {e'' : Endpoint} (h : ReceiverSame e e') (h' : ReceiverSame e' e'') :
    ReceiverSame e e'' :=
  ⟨h'.received.trans h.received, h'.accepted.trans h.accepted, h'.handed.trans h.handed,
    h'.cancelled.trans h.cancelled, h'.failed.trans h.failed⟩

theorem WriterSame.trans {e'' : Endpoint} (h : WriterSame e e') (h' : WriterSame e' e'') :
    WriterSame e e'' :=
  ⟨h.toReceiverSame.trans h'.toReceiverSame, h'.writer.trans h.writer⟩

theorem WriterSame.stage (frame : Frame) : WriterSame e (e.stage frame).2 := by
  simp only [Endpoint.stage]
  split <;> exact ⟨⟨rfl, rfl, rfl, rfl, rfl⟩, rfl⟩

theorem WriterSame.writeLive (frame : Frame) : WriterSame e (e.writeLive frame) := by
  have h := WriterSame.stage (e := e) frame
  rw [Endpoint.writeLive]
  revert h
  obtain ⟨record, e'⟩ := e.stage frame
  intro h
  cases record with
  | none => exact h
  | some record =>
      simp only
      split
      · exact h.trans ⟨⟨rfl, rfl, rfl, rfl, rfl⟩, rfl⟩
      · exact h

theorem WriterSame.writeNext (h : e.writeNext = some e') : WriterSame e e' := by
  simp only [Endpoint.writeNext] at h
  split at h
  · split at h <;> cases h <;> exact ⟨⟨rfl, rfl, rfl, rfl, rfl⟩, rfl⟩
  · split at h
    · cases h
      have hheld : WriterSame e { e with held := none } := ⟨⟨rfl, rfl, rfl, rfl, rfl⟩, rfl⟩
      exact hheld.trans (.writeLive _)
    · cases h
      rename_i outbound _ _
      have hout : WriterSame e { e with outbound := outbound } := ⟨⟨rfl, rfl, rfl, rfl, rfl⟩, rfl⟩
      exact hout.trans (.writeLive _)
    · cases h

theorem WriterSame.stageDetached (h : e.stageDetached = some e') : WriterSame e e' := by
  simp only [Endpoint.stageDetached] at h
  split at h
  · cases h
    rename_i outbound _ _
    have hout : WriterSame e { e with outbound := outbound } := ⟨⟨rfl, rfl, rfl, rfl, rfl⟩, rfl⟩
    exact hout.trans (.stage _)
  · cases h

theorem WriterSame.takeAck (now : Nat) : WriterSame e (e.takeAck now) :=
  ⟨⟨RecoveryState.lastRecvSeq_takePendingAck _, rfl, rfl, rfl, rfl⟩, rfl⟩

theorem WriterSame.sent (packet : Packet) : WriterSame e (e.sent packet) := by
  cases packet <;> exact ⟨⟨rfl, rfl, rfl, rfl, rfl⟩, rfl⟩

theorem ReceiverSame.apply (cmd : WriterCommand) : ReceiverSame e (e.apply cmd) := by
  cases cmd with
  | attach t k => exact ⟨rfl, rfl, rfl, rfl, rfl⟩
  | detach t =>
      simp only [Endpoint.apply]
      split <;> exact ⟨rfl, rfl, rfl, rfl, rfl⟩

end same

/-! ### The steps of the writer -/

section step

variable {w w' : World} {s x : RecoveryRole} {t : Nat} {ev : Event}

/-- A step of the writer of `x` on the transport it has. -/
theorem LanesInv.writer (hI : LanesInv w) {e : Endpoint}
    (he : EndpointInv e (w.ep x.peer).recovery.lastRecvSeq (w.ep x.peer).staged.length ∧
      (w.ep x).Grows e)
    (hs : WriterSame (w.ep x) e)
    (hw : ∀ m, (w.ep x).writer.isSome → (w.ep x.peer).recovery.lastRecvSeq ≤ m →
      WriterOk (w.ep x) m → WriterOk e m) : LanesInv (w.setEp x e) := by
  refine hI.setEp (hI.flow.setEp he.2 he.1) hs.toReceiverSame fun t m hwt hb hm => ?_
  rw [hs.writer] at hwt
  exact hw _ (by rw [hwt]; rfl) ((Lane.le_base hm).trans le_top) (hI.writerOk hwt hb hm)

/-- Announcing and attaching leave what is in flight. -/
theorem LanesInv.setTransport (hI : LanesInv w) {tr : Transport} (hF : FlowInv (w.setTransport t tr))
    (hb : tr.broken = false → (w.transport t).broken = false) : LanesInv (w.setTransport t tr) := by
  refine ⟨hF, fun s t' => ?_, hI.reader⟩
  have hl := hI.lane s t'
  by_cases htt : t' = t
  · subst htt
    rw [World.setTransport_transport_self]
    exact ⟨hl.gapless, fun m hm hw h => hl.writer m hm hw (hb h)⟩
  · rw [World.setTransport_transport_ne htt]
    exact hl

theorem lanes_attach (hI : LanesInv w) (h : w.step (.attach s t) = some w') : LanesInv w' := by
  have hF := flow_attach hI.flow h
  simp only [World.step] at h
  split at h
  · split at h
    · cases h
    · cases h
      have ht : LanesInv (w.setTransport t { w.transport t with
          attached := Function.update (w.transport t).attached s true }) :=
        hI.setTransport (hI.flow.setTransport t _ (hI.flow.point t)) id
      refine ht.setEp hF ?_ fun t' m hwt hb hm => ?_
      · cases s <;> exact ⟨rfl, rfl, rfl, rfl, rfl⟩
      · have hl := (ht.lane s.peer t').writer m hm (by simpa using hwt) hb
        refine hl.same ?_
        rw [RecoveryRole.peer_peer]
        cases s <;> exact ⟨rfl, rfl, rfl, rfl, rfl⟩
  · cases h

theorem lanes_apply (hI : LanesInv w) (h : w.step (.apply s) = some w') : LanesInv w' := by
  have hF : FlowInv w' := by
    have hstep : machine.step w (.apply s) = some w' := h
    exact flowInv_step hI.flow hstep
  have he := hI.flow.endpoint s
  simp only [World.step] at h
  split at h
  · rename_i cmd rest hcmd
    split at h
    · rename_i hready
      cases h
      have hnone : (w.ep s).writing = none := by simpa [World.writerReady] using hready
      have hrest : ReceiverSame (w.ep s) { w.ep s with writerCmd := rest } := ⟨rfl, rfl, rfl, rfl, rfl⟩
      refine hI.setEp hF (hrest.trans (.apply cmd)) fun t m hwt hb hm => ?_
      cases cmd with
      | attach t' k =>
          exact .attach he (hI.flow.received_le s) (he.command t' k (hcmd ▸ List.mem_cons_self))
            ((Lane.le_base hm).trans le_top) hnone
      | detach t' =>
          simp only [Endpoint.apply] at hwt ⊢
          split at hwt
          · cases hwt
          · rename_i hne
            rw [if_neg hne]
            exact (hI.writerOk hwt hb hm).same ⟨rfl, rfl, rfl, rfl, rfl⟩
    · cases h
  · cases h

theorem lanes_writeDone {ok : Bool} (hI : LanesInv w) (h : w.step (.writeDone s ok) = some w') :
    LanesInv w' := by
  have hF := flow_writeDone hI.flow h
  have he := hI.flow.endpoint s
  simp only [World.step, World.writeDone] at h
  split at h
  · rename_i t packet hwt hp
    obtain ⟨hinv, hg⟩ := he.sent packet
    split at h
    · split at h
      · rename_i hbroken
        cases h
        refine hI.setEp hF (WriterSame.sent packet).toReceiverSame fun t' m hwt' hb => ?_
        rw [(WriterSame.sent packet).writer, hwt] at hwt'
        cases hwt'
        rw [hbroken] at hb
        cases hb
      · cases h
        rename_i hbroken
        have hopen : (w.transport t).broken = false := by simpa using hbroken
        have hlf := hI.flow.lane t s.peer
        rw [RecoveryRole.peer_peer] at hlf
        have hok := fun m => hI.writerOk (m := m) hwt hopen
        -- First the wire gets the packet, then the writer is done with it.
        have hlane : LanesInv (w.setLane t s.peer
            { w.lane t s.peer with wire := (w.lane t s.peer).wire ++ [packet] }) := by
          refine hI.setLane (hI.flow.setLane ?_) (hI.reader s.peer t)
            ⟨fun m hm => ?_, fun m hm hw hb => ?_⟩
          · rw [RecoveryRole.peer_peer]
            exact hlf.append he hp
          · have hw := (hok m hm).writing
            rw [hp] at hw
            rw [seqs_append, Gapless.append]
            exact ⟨(hI.lane s.peer t).gapless m hm, hw⟩
          · rw [RecoveryRole.peer_peer, seqs_append, top_append]
            exact (hok m hm).mono le_top
        refine hlane.setEp hF (WriterSame.sent packet).toReceiverSame fun t' m hwt' hb hm => ?_
        rw [(WriterSame.sent packet).writer, hwt] at hwt'
        cases hwt'
        rw [World.setLane_lane_self] at hm ⊢
        rw [seqs_append, top_append]
        exact (hok m hm).writeDone hp
    · cases h
      exact hI.setEp hF ⟨rfl, rfl, rfl, rfl, rfl⟩ fun t' m hwt' => by cases hwt'
  · cases h

/-! ### The steps of a reader -/

theorem lanes_read {now : Nat} (hI : LanesInv w) (h : w.step (.read s t now) = some w') :
    LanesInv w' := by
  have hF := flow_read hI.flow h
  have hl := hI.lane s t
  simp only [World.step] at h
  split at h
  · rename_i m packet wire hr hwire
    cases h
    have hle := (hI.reader s t).reading m hr
    have hbase : (w.lane t s).base (w.ep s).recovery.lastRecvSeq =
        some (max m (w.ep s).recovery.lastRecvSeq) := by
      simp only [Lane.base, hr]
    have hreading : ReaderOk (.reading m) (w.ep s).recovery.lastRecvSeq := .ofReading hle
    have hgap := hl.gapless _ hbase
    rw [hwire] at hgap
    cases packet with
    | ack k =>
        refine hI.readerStep hF ⟨?_, rfl, rfl, rfl, rfl⟩ (Nat.le_refl _) hreading
          (hl.goesOn hbase rfl hgap ?_)
        · simp only [handlePacket, Endpoint.records, RecoveryState.ackReceived,
            ReplayBuffer.ack_headerLen]
        · rw [hwire]
          exact Nat.le_refl _
    | ping =>
        refine hI.readerStep hF (.refl _) (Nat.le_refl _) hreading (hl.goesOn hbase rfl hgap ?_)
        rw [hwire]
        exact Nat.le_refl _
    | data r =>
        obtain ⟨-, hrest⟩ := hgap
        -- The frame that is read was the first on the wire.
        have htop : top (max m (w.ep s).recovery.lastRecvSeq) (seqs (w.lane t s).wire) =
            top (max (max m (w.ep s).recovery.lastRecvSeq) r.seq) (seqs wire) := by
          rw [hwire]
          rfl
        cases hcheck : checkDataFrame m r.seq with
        | error err =>
            simp only [handlePacket, hcheck] at hF ⊢
            exact hI.readerStep hF ⟨rfl, rfl, rfl, rfl, rfl⟩ (Nat.le_refl _) (.ended _) (.ended rfl)
        | ok new =>
            cases new with
            | false =>
                -- A duplicate moves nobody on.
                have hdup := checkDataFrame_dup hcheck
                have hrecv : ((w.ep s).recovery.noteReceived now r.seq).2.lastRecvSeq =
                    (w.ep s).recovery.lastRecvSeq := by
                  rw [RecoveryState.lastRecvSeq_noteReceived, Nat.max_eq_left (hdup.trans hle)]
                have hmax : max (max m (w.ep s).recovery.lastRecvSeq) r.seq =
                    max m (w.ep s).recovery.lastRecvSeq :=
                  Nat.max_eq_left (hdup.trans (Nat.le_max_left _ _))
                rw [hmax] at htop hrest
                simp only [handlePacket, hcheck] at hF ⊢
                refine hI.readerStep hF ⟨?_, rfl, rfl, rfl, rfl⟩ (Nat.le_of_eq hrecv.symm)
                  (hreading.mono (Nat.le_of_eq hrecv.symm)) ?_
                · simp only [Endpoint.records, RecoveryState.replay_noteReceived]
                · simp only [hrecv]
                  exact hl.goesOn hbase rfl hrest (Nat.le_of_eq htop)
            | true =>
                -- A new frame is the next one.
                have hseq := checkDataFrame_new hcheck
                have hmax : max (max m (w.ep s).recovery.lastRecvSeq) r.seq =
                    max (m + 1) (w.ep s).recovery.lastRecvSeq := by
                  omega
                rw [hmax] at htop hrest
                simp only [handlePacket, hcheck] at hF ⊢
                exact hI.readerStep hF ⟨rfl, rfl, rfl, rfl, rfl⟩ (Nat.le_refl _)
                  (.ofAccepting ⟨hle, hseq⟩) (hl.goesOn hbase rfl hrest (Nat.le_of_eq htop))
  · cases h

theorem lanes_accept (hI : LanesInv w) (h : w.step (.accept s t) = some w') : LanesInv w' := by
  have hstep : machine.step w (.accept s t) = some w' := h
  have hF := flowInv_step hI.flow hstep
  simp only [World.step] at h
  split at h
  · rename_i m r hr
    cases h
    have hbase : (w.lane t s).base (w.ep s).recovery.lastRecvSeq =
        some (max (m + 1) (w.ep s).recovery.lastRecvSeq) := by
      simp only [Lane.base, hr]
    exact hI.readerStep hF ⟨rfl, rfl, rfl, rfl, rfl⟩ (Nat.le_refl _)
      (.ofNoting ((hI.reader s t).accepting m r hr))
      ((hI.lane s t).goesOn hbase rfl ((hI.lane s t).gapless _ hbase) (Nat.le_refl _))
  · cases h

theorem lanes_note {now : Nat} (hI : LanesInv w) (h : w.step (.note s t now) = some w') :
    LanesInv w' := by
  have hstep : machine.step w (.note s t now) = some w' := h
  have hF := flowInv_step hI.flow hstep
  simp only [World.step] at h
  split at h
  · rename_i m r hr
    cases h
    obtain ⟨-, hseq⟩ := (hI.reader s t).noting m r hr
    have hrecv := RecoveryState.lastRecvSeq_noteReceived (r := (w.ep s).recovery) now r.seq
    have hbase : (w.lane t s).base (w.ep s).recovery.lastRecvSeq =
        some (max (w.ep s).recovery.lastRecvSeq r.seq) := by
      simp only [Lane.base, hr, hseq, max_comm]
    -- The reader goes on from the number that it notes.
    have hbase' : max r.seq ((w.ep s).recovery.noteReceived now r.seq).2.lastRecvSeq =
        max (w.ep s).recovery.lastRecvSeq r.seq := by
      rw [hrecv]
      omega
    have hle : (w.ep s).recovery.lastRecvSeq ≤
        ((w.ep s).recovery.noteReceived now r.seq).2.lastRecvSeq := by
      rw [hrecv]
      exact Nat.le_max_left _ _
    refine hI.readerStep hF ⟨?_, rfl, rfl, rfl, rfl⟩ hle (.ofReading ?_)
      ((hI.lane s t).goesOn hbase (congrArg some hbase') ((hI.lane s t).gapless _ hbase)
        (Nat.le_refl _))
    · simp only [Endpoint.records, RecoveryState.replay_noteReceived]
    · rw [hrecv]
      exact Nat.le_max_right _ _
  · cases h

theorem lanes_stop (hI : LanesInv w) (h : w.step (.stop s t) = some w') : LanesInv w' := by
  have hstep : machine.step w (.stop s t) = some w' := h
  have hF := flowInv_step hI.flow hstep
  simp only [World.step] at h
  split at h
  · cases h
    exact hI.setLane hF (.ended _) (.ended rfl)
  · cases h
    exact hI.setLane hF (.ended _) (.ended rfl)
  · cases h
    exact hI.readerStep hF ⟨rfl, rfl, rfl, rfl, rfl⟩ (Nat.le_refl _) (.ended _) (.ended rfl)
  · cases h

/-- A reader that has not started does so where its endpoint is. -/
theorem lanes_start (hI : LanesInv w) {pc : ReaderPc}
    (hF : FlowInv (w.setLane t s { w.lane t s with reader := pc }))
    (hr : (w.lane t s).reader = .unspawned ∨ (w.lane t s).reader = .starting)
    (hpc : pc = .starting ∨ pc = .reading (w.ep s).recovery.lastReceived) :
    LanesInv (w.setLane t s { w.lane t s with reader := pc }) := by
  have hbase : (w.lane t s).base (w.ep s).recovery.lastRecvSeq =
      some (w.ep s).recovery.lastRecvSeq := by
    rcases hr with hr | hr <;> simp only [Lane.base, hr]
  have hgap := (hI.lane s t).gapless _ hbase
  rcases hpc with rfl | rfl
  · exact hI.setLane hF (.starting _) ((hI.lane s t).goesOn hbase rfl hgap (Nat.le_refl _))
  · exact hI.setLane hF (.ofReading (Nat.le_refl _))
      ((hI.lane s t).goesOn hbase (congrArg some (max_self _)) hgap (Nat.le_refl _))

theorem lanes_breakTransport {keep : RecoveryRole → Nat} (hI : LanesInv w)
    (h : w.step (.breakTransport t keep) = some w') : LanesInv w' := by
  have hstep : machine.step w (.breakTransport t keep) = some w' := h
  have hF := flowInv_step hI.flow hstep
  cases h
  refine ⟨hF, fun s t' => ?_, fun s t' => ?_⟩
  · have hl := hI.lane s t'
    by_cases htt : t' = t
    · subst htt
      simp only [Function.update_self, World.setTransport_transport_self]
      refine ⟨fun m hm => ?_, fun m hm hw hb => by cases hb⟩
      have hgap := hl.gapless m hm
      rw [← List.take_append_drop (keep s) (w.lane t' s).wire, seqs_append, Gapless.append] at hgap
      exact hgap.1
    · simp only [Function.update_of_ne htt, World.setTransport_transport_ne htt]
      exact hl
  · have hr := hI.reader s t'
    by_cases htt : t' = t
    · subst htt
      simpa only [Function.update_self, World.setTransport_ep] using hr
    · simpa only [Function.update_of_ne htt, World.setTransport_ep] using hr

/-! ### Every step -/

theorem lanes_step (hI : LanesInv w) (h : machine.step w ev = some w') : LanesInv w' := by
  have hF := flowInv_step hI.flow h
  have hidle : ∀ s, w.writerReady s = true → (w.ep s).writing = none := fun s hs => by
    simpa [World.writerReady] using hs
  cases ev with
  | dial =>
      cases h
      have hl := hI.setTransport (flow_announce hI.flow w.dialed .client) id
      exact ⟨hF, hl.lane, hl.reader⟩
  | respond t =>
      simp only [machine, World.step] at h
      split at h <;> cases h
      exact hI.setTransport hF id
  | attach s t => exact lanes_attach hI h
  | spawnReader s t =>
      simp only [machine, World.step] at h
      split at h
      · rename_i hr
        cases h
        exact lanes_start hI hF (.inl hr.1) (.inl rfl)
      · cases h
  | startReader s t =>
      simp only [machine, World.step] at h
      split at h
      · rename_i hr
        cases h
        exact lanes_start hI hF (.inr hr) (.inr rfl)
      · cases h
  | detach s t =>
      simp only [machine, World.step] at h
      split at h <;> cases h
      exact hI.setEp hF ⟨rfl, rfl, rfl, rfl, rfl⟩ fun t' m hw hb hm =>
        (hI.writerOk hw hb hm).same ⟨rfl, rfl, rfl, rfl, rfl⟩
  | send s frame =>
      cases h
      exact hI.setEp hF ⟨rfl, rfl, rfl, rfl, rfl⟩ fun t' m hw hb hm =>
        (hI.writerOk hw hb hm).same ⟨rfl, rfl, rfl, rfl, rfl⟩
  | apply s => exact lanes_apply hI h
  | takeAck s now =>
      simp only [machine, World.step] at h
      split at h
      · rename_i hready
        cases h
        refine hI.writer ((hI.flow.endpoint s).takeAck now) (.takeAck now) fun m _ _ hok => ?_
        have hrec : ((w.ep s).takeAck now).records = (w.ep s).records := by
          simp only [Endpoint.records, Endpoint.takeAck, RecoveryState.replay_takePendingAck]
        obtain ⟨hp, hs⟩ := hok.idle (hidle s hready.1)
        -- An ACK is no data frame.
        refine .of_idle (hrec ▸ hok.suffix) ?_ hp hs
        simp only [Endpoint.takeAck]
        cases ((w.ep s).recovery.takePendingAck now).1 <;> rfl
      · cases h
  | writeNext s =>
      simp only [machine, World.step] at h
      split at h
      · rename_i hready
        obtain ⟨e, he, rfl⟩ := Option.map_eq_some_iff.mp h
        have hep := hI.flow.endpoint s
        exact hI.writer (hep.writeNext he) (.writeNext he) fun m _ hL hok =>
          hok.writeNext hep (hidle s hready.1) (Nat.le_trans hep.acked hL) he
      · cases h
  | writePing s =>
      simp only [machine, World.step] at h
      split at h
      · rename_i hready
        cases h
        refine hI.setEp hF ⟨rfl, rfl, rfl, rfl, rfl⟩ fun t' m hw hb hm => ?_
        have hok := hI.writerOk hw hb hm
        obtain ⟨hp, hs⟩ := hok.idle (hidle s hready.1)
        exact .of_idle hok.suffix rfl hp hs
      · cases h
  | stageDetached s =>
      simp only [machine, World.step] at h
      split at h
      · rename_i hready
        obtain ⟨e, he, rfl⟩ := Option.map_eq_some_iff.mp h
        refine hI.writer ((hI.flow.endpoint s).stageDetached he) (.stageDetached he)
          fun m hw _ _ => ?_
        rw [hready.2] at hw
        cases hw
      · cases h
  | writeDone s ok => exact lanes_writeDone hI h
  | flushFail s =>
      simp only [machine, World.step] at h
      split at h <;> cases h
      exact hI.setEp hF ⟨rfl, rfl, rfl, rfl, rfl⟩ fun t' m hw => by cases hw
  | read s t now => exact lanes_read hI h
  | accept s t => exact lanes_accept hI h
  | note s t now => exact lanes_note hI h
  | stop s t => exact lanes_stop hI h
  | breakTransport t keep => exact lanes_breakTransport hI h

theorem lanesInv_initial (negotiated : NegotiatedRecoveryOptions) (headerLen : Nat)
    (maxReplayBytes : RecoveryRole → Int) :
    LanesInv (.initial negotiated headerLen maxReplayBytes) := by
  refine ⟨flowInv_initial _ _ _, fun s t => ⟨fun m _ => trivial, fun m _ hw => ?_⟩,
    fun s t => ⟨nofun, nofun, nofun⟩⟩
  cases hw

/-- In every run, no reader that has not ended has a gap ahead of it. -/
theorem lanes_reachable (h : machine.Reachable w) : LanesInv w := by
  refine h.invariant ?_ fun _ _ _ hI _ hs => lanes_step hI hs
  rintro _ ⟨negotiated, headerLen, maxReplayBytes, rfl⟩
  exact lanesInv_initial negotiated headerLen maxReplayBytes

end step

end AdaptiveMsg.Protocol
