import AdaptiveMsg.Protocol.Lanes

/-!
# Protocol — delivery exactly once and in order

The runs in which at most one reader of an endpoint is active at a time (`SingleReader`).  A reader
is then where its endpoint has received up to (`Taken`), and nothing in flight to it leaves a gap
(`LanesInv`).  So the frames that `accept_frame` takes are those the peer staged, in order and
without repetition, every frame not taken is still in the peer's replay buffer, and no reader sees
a gap (`delivered_once`).

A call of `accept_frame` that was cancelled by an abort is handed the same frame again by the
replay, so this does not hold of the frames handed to it: `handed_again`.
-/

namespace AdaptiveMsg.Protocol

/-! ### Readers, one at a time -/

/-- The reader has copied the last received number and not ended. -/
def ReaderPc.Active : ReaderPc → Prop
  | .reading _ | .accepting _ _ | .noting _ _ => True
  | .unspawned | .starting | .ended => False

instance : DecidablePred ReaderPc.Active
  | .reading _ | .accepting _ _ | .noting _ _ => isTrue trivial
  | .unspawned | .starting | .ended => isFalse id

/-- A reader starts when no other reader of its endpoint is active. -/
def SingleReader (w : World) : Event → Prop
  | .startReader s _ => ∀ t < w.dialed, ¬(w.lane t s).reader.Active
  | _ => True

instance (w : World) : DecidablePred (SingleReader w)
  | .startReader s _ => inferInstanceAs (Decidable (∀ t < w.dialed, ¬(w.lane t s).reader.Active))
  | .dial | .respond _ | .attach _ _ | .spawnReader _ _ | .detach _ _ | .send _ _ | .apply _
  | .takeAck _ _ | .writeNext _ | .writePing _ | .stageDetached _ | .writeDone _ _ | .flushFail _
  | .read _ _ _ | .accept _ _ | .note _ _ _ | .stop _ _ | .breakTransport _ _ => isTrue trivial

/-! ### What was taken -/

/-- Frames were handed to `accept_frame` in order, and none past the next one. -/
structure Endpoint.HandsInOrder (e : Endpoint) : Prop where
  sorted : e.handed.Pairwise (·.seq ≤ ·.seq)
  bound : ∀ r ∈ e.handed, r.seq ≤ e.recovery.lastRecvSeq + 1

theorem Endpoint.HandsInOrder.snoc {e : Endpoint} {r : FrameRecord} (h : e.HandsInOrder)
    (hr : r.seq = e.recovery.lastRecvSeq + 1) :
    HandsInOrder { e with handed := e.handed ++ [r] } := by
  refine ⟨?_, fun r' hr' => ?_⟩
  · rw [List.pairwise_append]
    refine ⟨h.sorted, List.pairwise_singleton _ _, fun r₁ h₁ r₂ h₂ => ?_⟩
    rw [List.mem_singleton.mp h₂, hr]
    exact h.bound r₁ h₁
  · rcases List.mem_append.mp hr' with hr' | hr'
    · exact h.bound r' hr'
    · rw [List.mem_singleton.mp hr']
      exact Nat.le_of_eq hr

/-- What was handed stays in order when more is received. -/
theorem Endpoint.HandsInOrder.mono {e e' : Endpoint} (h : e.HandsInOrder)
    (hh : e'.handed = e.handed) (hL : e.recovery.lastRecvSeq ≤ e'.recovery.lastRecvSeq) :
    e'.HandsInOrder := by
  refine ⟨hh ▸ h.sorted, fun r hr => ?_⟩
  have := h.bound r (hh ▸ hr)
  omega

/-- The readers of `e`, whose peer is `p`, take what `p` staged in order. -/
structure Taken (e p : Endpoint) (lane : Nat → Lane) : Prop where
  reading : ∀ t m, (lane t).reader = .reading m → m = e.recovery.lastRecvSeq
  accepting : ∀ t m r, (lane t).reader = .accepting m r → m = e.recovery.lastRecvSeq ∧ r.seq = m + 1
  noting : ∀ t m r, (lane t).reader = .noting m r → m = e.recovery.lastRecvSeq ∧ r.seq = m + 1
  /-- At most one reader is active. -/
  unique : ∀ t t', (lane t).reader.Active → (lane t').reader.Active → t = t'
  accepted : (∀ t m r, (lane t).reader ≠ .noting m r) →
    e.accepted = p.records.take e.recovery.lastRecvSeq
  acceptedNoting : ∀ t m r, (lane t).reader = .noting m r → e.accepted = p.records.take (m + 1)
  /-- What was handed to `accept_frame` was taken or cancelled. -/
  handed : (∀ t m r, (lane t).reader ≠ .accepting m r) → e.handed.Perm (e.accepted ++ e.cancelled)
  handedAccepting : ∀ t m r, (lane t).reader = .accepting m r →
    e.handed.Perm (e.accepted ++ r :: e.cancelled)
  inOrder : e.HandsInOrder
  failed : e.failed = none

structure DeliveryInv (w : World) : Prop where
  lanes : LanesInv w
  fresh : Fresh w
  taken : ∀ s, Taken (w.ep s) (w.ep s.peer) fun t => w.lane t s

theorem DeliveryInv.flow {w : World} (hI : DeliveryInv w) : FlowInv w := hI.lanes.flow

/-! ### Changing one endpoint or one reader -/

theorem take_of_prefix {a b : List FrameRecord} {n : Nat} (h : a <+: b) (hn : n ≤ a.length) :
    b.take n = a.take n := by
  obtain ⟨c, rfl⟩ := h
  rw [List.take_append_of_le_length hn]

section changes

variable {e e' p p' : Endpoint} {lane lane' : Nat → Lane} {l : Lane} {t : Nat}

/-- Readers where they were, over what the peer has staged by now. -/
theorem Taken.same (h : Taken e p lane) (hs : ReceiverSame e e') (hr : p.records <+: p'.records)
    (hle : e.recovery.lastRecvSeq ≤ p.staged.length)
    (hmem : ∀ t m r, (lane t).reader = .noting m r → r ∈ p.records)
    (hl : ∀ t, (lane' t).reader = (lane t).reader) : Taken e' p' lane' := by
  refine ⟨?_, ?_, ?_, ?_, fun hno => ?_, fun t m r hn => ?_, ?_, ?_,
    h.inOrder.mono hs.handed (Nat.le_of_eq hs.received.symm), hs.failed.trans h.failed⟩
  · simpa only [hl, hs.received] using h.reading
  · simpa only [hl, hs.received] using h.accepting
  · simpa only [hl, hs.received] using h.noting
  · simpa only [hl] using h.unique
  · simp only [hl] at hno
    rw [hs.accepted, hs.received, h.accepted hno, take_of_prefix hr (by simpa using hle)]
  · rw [hl] at hn
    rw [hs.accepted, h.acceptedNoting t m r hn, take_of_prefix hr]
    have hseq := (seq_le_staged (hmem t m r hn)).2
    rw [(h.noting t m r hn).2] at hseq
    simpa using hseq
  · simpa only [hl, hs.handed, hs.accepted, hs.cancelled] using h.handed
  · simpa only [hl, hs.handed, hs.accepted, hs.cancelled] using h.handedAccepting

/-- While the reader of `t` is active no other is. -/
theorem Taken.others (h : Taken e p lane) (ht : (lane t).reader.Active) :
    ∀ t', t' ≠ t → ¬(lane t').reader.Active := fun t' hne ha => hne (h.unique t' t ha ht)

/-- The reader of `t` is where `l` says, and no other is active. -/
theorem Taken.of_others (hother : ∀ t', t' ≠ t → ¬(lane t').reader.Active)
    (hreading : ∀ m, l.reader = .reading m → m = e.recovery.lastRecvSeq)
    (haccepting : ∀ m r, l.reader = .accepting m r → m = e.recovery.lastRecvSeq ∧ r.seq = m + 1)
    (hnoting : ∀ m r, l.reader = .noting m r → m = e.recovery.lastRecvSeq ∧ r.seq = m + 1)
    (haccepted : (∀ m r, l.reader ≠ .noting m r) → e.accepted = p.records.take e.recovery.lastRecvSeq)
    (hacceptedNoting : ∀ m r, l.reader = .noting m r → e.accepted = p.records.take (m + 1))
    (hhanded : (∀ m r, l.reader ≠ .accepting m r) → e.handed.Perm (e.accepted ++ e.cancelled))
    (hhandedAccepting : ∀ m r, l.reader = .accepting m r →
      e.handed.Perm (e.accepted ++ r :: e.cancelled))
    (hinOrder : e.HandsInOrder) (hfailed : e.failed = none) :
    Taken e p (Function.update lane t l) := by
  have hat : ∀ t' pc, (Function.update lane t l t').reader = pc → pc.Active → t' = t ∧ l.reader = pc := by
    intro t' pc hpc ha
    by_cases ht : t' = t
    · subst ht
      exact ⟨rfl, by simpa using hpc⟩
    · rw [Function.update_of_ne ht] at hpc
      exact absurd (hpc ▸ ha) (hother t' ht)
  -- Where a reader is active, it is that of `t`.
  refine ⟨fun t' m h => ?_, fun t' m r h => ?_, fun t' m r h => ?_, fun t' t'' h' h'' => ?_,
    fun hno => ?_, fun t' m r h => ?_, fun hno => ?_, fun t' m r h => ?_, hinOrder, hfailed⟩
  · exact hreading m (hat t' _ h trivial).2
  · exact haccepting m r (hat t' _ h trivial).2
  · exact hnoting m r (hat t' _ h trivial).2
  · exact (hat t' _ rfl h').1.trans (hat t'' _ rfl h'').1.symm
  · exact haccepted fun m r => by simpa using hno t m r
  · exact hacceptedNoting m r (hat t' _ h trivial).2
  · exact hhanded fun m r => by simpa using hno t m r
  · exact hhandedAccepting m r (hat t' _ h trivial).2

/-- The reader of `t` reads on from what was received, and no other is active. -/
theorem Taken.of_reading (hother : ∀ t', t' ≠ t → ¬(lane t').reader.Active)
    (hr : l.reader = .reading e.recovery.lastRecvSeq)
    (haccepted : e.accepted = p.records.take e.recovery.lastRecvSeq)
    (hhanded : e.handed.Perm (e.accepted ++ e.cancelled)) (hinOrder : e.HandsInOrder)
    (hfailed : e.failed = none) : Taken e p (Function.update lane t l) := by
  refine .of_others hother (fun m hm => ?_) (by simp [hr]) (by simp [hr]) (fun _ => haccepted)
    (by simp [hr]) (fun _ => hhanded) (by simp [hr]) hinOrder hfailed
  rw [hr] at hm
  cases hm
  rfl

/-- A reader that is not active stays so. -/
theorem Taken.inactive (h : Taken e p lane) (ht : ¬(lane t).reader.Active) (hl : ¬l.reader.Active) :
    Taken e p (Function.update lane t l) := by
  have hat : ∀ t' pc, pc.Active → ((Function.update lane t l t').reader = pc ↔ (lane t').reader = pc) := by
    intro t' pc ha
    by_cases htt : t' = t
    · subst htt
      rw [Function.update_self]
      exact ⟨fun heq => absurd (heq ▸ ha) hl, fun heq => absurd (heq ▸ ha) ht⟩
    · rw [Function.update_of_ne htt]
  refine ⟨fun t' m hr => ?_, fun t' m r hr => ?_, fun t' m r hr => ?_, fun t' t'' h' h'' => ?_,
    fun hno => ?_, fun t' m r hr => ?_, fun hno => ?_, fun t' m r hr => ?_, h.inOrder, h.failed⟩
  · exact h.reading t' m ((hat t' (.reading m) trivial).mp hr)
  · exact h.accepting t' m r ((hat t' (.accepting m r) trivial).mp hr)
  · exact h.noting t' m r ((hat t' (.noting m r) trivial).mp hr)
  · exact h.unique t' t'' ((hat t' _ h').mp rfl ▸ h') ((hat t'' _ h'').mp rfl ▸ h'')
  · exact h.accepted fun t' m r hr => hno t' m r ((hat t' (.noting m r) trivial).mpr hr)
  · exact h.acceptedNoting t' m r ((hat t' (.noting m r) trivial).mp hr)
  · exact h.handed fun t' m r hr => hno t' m r ((hat t' (.accepting m r) trivial).mpr hr)
  · exact h.handedAccepting t' m r ((hat t' (.accepting m r) trivial).mp hr)

end changes

namespace DeliveryInv

variable {w : World} {x : RecoveryRole} {t : Nat}

/-- A step that moves no reader, and changes one endpoint at most. -/
theorem quiet (hI : DeliveryInv w) {w' : World} {e : Endpoint} (hlanes : LanesInv w')
    (hfresh : Fresh w') (hep : w'.ep = (w.setEp x e).ep)
    (hl : ∀ t s, (w'.lane t s).reader = (w.lane t s).reader) (hs : ReceiverSame (w.ep x) e)
    (hr : (w.ep x).records <+: e.records) : DeliveryInv w' := by
  have hall : ∀ s, ReceiverSame (w.ep s) (w'.ep s) ∧ (w.ep s).records <+: (w'.ep s).records := by
    intro s
    rw [hep]
    rcases x.eq_or_eq_peer s with rfl | rfl
    · rw [World.setEp_ep_self]
      exact ⟨hs, hr⟩
    · rw [World.setEp_ep_peer]
      exact ⟨⟨rfl, rfl, rfl, rfl, rfl⟩, List.prefix_refl _⟩
  exact ⟨hlanes, hfresh, fun s => (hI.taken s).same (hall s).1 (hall s.peer).2
    (hI.flow.endpoint s).received (fun t => (hI.flow.lane t s).noting) fun t => hl t s⟩

/-- A step of the reader of `x` on `t`. -/
theorem reader (hI : DeliveryInv w) {e : Endpoint} {l : Lane}
    (hlanes : LanesInv ((w.setEp x e).setLane t x l)) (hfresh : Fresh ((w.setEp x e).setLane t x l))
    (hs : (w.ep x).records = e.records)
    (ht : Taken e (w.ep x.peer) (Function.update (fun t => w.lane t x) t l)) :
    DeliveryInv ((w.setEp x e).setLane t x l) := by
  refine ⟨hlanes, hfresh, fun s => ?_⟩
  rcases x.eq_or_eq_peer s with rfl | rfl
  · rw [World.setLane_ep, World.setEp_ep_self, World.setEp_ep_peer]
    rwa [World.setLane_lane]
  · have hle := hI.flow.received_le x
    have hold := hI.taken x.peer
    have hmem := fun t => (hI.flow.lane t x.peer).noting
    simp only [RecoveryRole.peer_peer] at hold hmem
    rw [World.setLane_ep, RecoveryRole.peer_peer, World.setEp_ep_self, World.setEp_ep_peer]
    refine hold.same ⟨rfl, rfl, rfl, rfl, rfl⟩ (hs ▸ List.prefix_refl _) hle hmem fun t' => ?_
    rw [World.setLane_lane_ne (.inr (RecoveryRole.peer_ne x))]
    rfl

/-- A step that changes only what is in flight to `x`, and its reader. -/
theorem setLane (hI : DeliveryInv w) {l : Lane} (hlanes : LanesInv (w.setLane t x l))
    (hfresh : Fresh (w.setLane t x l))
    (ht : Taken (w.ep x) (w.ep x.peer) (Function.update (fun t => w.lane t x) t l)) :
    DeliveryInv (w.setLane t x l) := by
  have hself : w.setEp x (w.ep x) = w := by
    rw [World.setEp, Function.update_eq_self]
  have h := hI.reader (x := x) (e := w.ep x) (l := l) (t := t)
  rw [hself] at h
  exact h hlanes hfresh rfl ht

end DeliveryInv

section step

variable {w w' : World} {s : RecoveryRole} {t : Nat} {ev : Event}

/-! ### The steps of the writer -/

theorem delivery_attach (hI : DeliveryInv w) (hlanes : LanesInv w') (hfresh : Fresh w')
    (h : w.step (.attach s t) = some w') : DeliveryInv w' := by
  simp only [World.step] at h
  split at h
  · split at h
    · cases h
    · cases h
      refine hI.quiet hlanes hfresh rfl (fun _ _ => rfl) ?_ ?_
      · cases s <;> exact ⟨rfl, rfl, rfl, rfl, rfl⟩
      · cases s <;> exact List.prefix_refl _
  · cases h

theorem delivery_apply (hI : DeliveryInv w) (hlanes : LanesInv w') (hfresh : Fresh w')
    (h : w.step (.apply s) = some w') : DeliveryInv w' := by
  have he := hI.flow.endpoint s
  simp only [World.step] at h
  split at h
  · rename_i cmd rest hcmd
    split at h
    · cases h
      have hrest : ReceiverSame (w.ep s) { w.ep s with writerCmd := rest } := ⟨rfl, rfl, rfl, rfl, rfl⟩
      exact hI.quiet hlanes hfresh rfl (fun _ _ => rfl) (hrest.trans (.apply cmd))
        (he.apply (hI.flow.received_le s) hcmd).2.records
    · cases h
  · cases h

theorem delivery_writeDone {ok : Bool} (hI : DeliveryInv w) (hlanes : LanesInv w')
    (hfresh : Fresh w') (h : w.step (.writeDone s ok) = some w') : DeliveryInv w' := by
  simp only [World.step, World.writeDone] at h
  split at h
  · rename_i t packet hwt hp
    obtain ⟨-, hg⟩ := (hI.flow.endpoint s).sent packet
    have hs := (WriterSame.sent (e := w.ep s) packet).toReceiverSame
    split at h
    · split at h
      · cases h
        exact hI.quiet hlanes hfresh rfl (fun _ _ => rfl) hs hg.records
      · cases h
        refine hI.quiet hlanes hfresh rfl (fun t' s' => ?_) hs hg.records
        by_cases hlane : t' = t ∧ s' = s.peer
        · obtain ⟨rfl, rfl⟩ := hlane
          rw [World.setLane_lane_self]
        · rw [World.setLane_lane_ne (not_and_or.1 hlane)]
          rfl
    · cases h
      exact hI.quiet hlanes hfresh rfl (fun _ _ => rfl) ⟨rfl, rfl, rfl, rfl, rfl⟩ (List.prefix_refl _)
  · cases h

/-! ### The steps of a reader -/

/-- Nothing has been taken beyond what was received while no reader is about to note a frame. -/
theorem Taken.accepted_of_active {e p : Endpoint} {lane : Nat → Lane} (h : Taken e p lane)
    (ha : (lane t).reader.Active) (hn : ∀ m r, (lane t).reader ≠ .noting m r) :
    e.accepted = p.records.take e.recovery.lastRecvSeq :=
  h.accepted fun t' m r hr => by
    have htt := h.unique t' t (by rw [hr]; trivial) ha
    subst htt
    exact hn m r hr

theorem Taken.handed_of_active {e p : Endpoint} {lane : Nat → Lane} (h : Taken e p lane)
    (ha : (lane t).reader.Active) (hn : ∀ m r, (lane t).reader ≠ .accepting m r) :
    e.handed.Perm (e.accepted ++ e.cancelled) :=
  h.handed fun t' m r hr => by
    have htt := h.unique t' t (by rw [hr]; trivial) ha
    subst htt
    exact hn m r hr

theorem delivery_startReader (hI : DeliveryInv w) (hlanes : LanesInv w') (hfresh : Fresh w')
    (hsingle : SingleReader w (.startReader s t)) (h : w.step (.startReader s t) = some w') :
    DeliveryInv w' := by
  have ht := hI.taken s
  have hnone : ∀ t', ¬(w.lane t' s).reader.Active := by
    intro t' ha
    refine hsingle t' (hI.fresh.dialed_of_reader (s := s) fun hr => ?_) ha
    rw [hr] at ha
    exact ha
  simp only [World.step] at h
  split at h
  · cases h
    exact hI.setLane hlanes hfresh (.of_reading (fun t' _ => hnone t') rfl
      (ht.accepted fun t' m r hr => hnone t' (by rw [hr]; trivial))
      (ht.handed fun t' m r hr => hnone t' (by rw [hr]; trivial)) ht.inOrder ht.failed)
  · cases h

theorem delivery_read {now : Nat} (hI : DeliveryInv w) (hlanes : LanesInv w') (hfresh : Fresh w')
    (h : w.step (.read s t now) = some w') : DeliveryInv w' := by
  have ht := hI.taken s
  simp only [World.step] at h
  split at h
  · rename_i m packet wire hr hwire
    cases h
    have hactive : (w.lane t s).reader.Active := by rw [hr]; trivial
    have haccepted := ht.accepted_of_active hactive (by simp [hr])
    have hhanded := ht.handed_of_active hactive (by simp [hr])
    obtain rfl := ht.reading t m hr
    cases packet with
    | ack k =>
        refine hI.reader hlanes hfresh ?_ (.of_reading (ht.others hactive) rfl haccepted hhanded
          (ht.inOrder.mono rfl (Nat.le_refl _)) ht.failed)
        simp only [handlePacket, Endpoint.records, RecoveryState.ackReceived,
          ReplayBuffer.ack_headerLen]
    | ping =>
        exact hI.reader hlanes hfresh rfl
          (.of_reading (ht.others hactive) rfl haccepted hhanded ht.inOrder ht.failed)
    | data r =>
        -- The number read is a duplicate or the next one.
        have hgap := (hI.lanes.lane s t).gapless (w.ep s).recovery.lastRecvSeq (by
          simp only [Lane.base, hr, max_self])
        rw [hwire] at hgap
        have hnext : r.seq ≤ (w.ep s).recovery.lastRecvSeq + 1 := hgap.1
        have hpos := (seq_le_staged ((hI.flow.lane t s).data r (hwire ▸ List.mem_cons_self))).1
        by_cases hdup : r.seq ≤ (w.ep s).recovery.lastRecvSeq
        · have hcheck : checkDataFrame (w.ep s).recovery.lastRecvSeq r.seq = .ok false := by
            rw [checkDataFrame, if_neg (by omega), if_pos hdup]
          simp only [handlePacket, hcheck] at hlanes hfresh ⊢
          have hrecv : ((w.ep s).recovery.noteReceived now r.seq).2.lastRecvSeq =
              (w.ep s).recovery.lastRecvSeq := by
            rw [RecoveryState.lastRecvSeq_noteReceived, Nat.max_eq_left hdup]
          refine hI.reader hlanes hfresh ?_ (.of_reading (ht.others hactive) ?_ ?_ hhanded
            (ht.inOrder.mono rfl (Nat.le_of_eq hrecv.symm)) ht.failed)
          · simp only [Endpoint.records, RecoveryState.replay_noteReceived]
          · simp only [hrecv]
          · simp only [hrecv, haccepted]
        · have hseq : r.seq = (w.ep s).recovery.lastRecvSeq + 1 := by omega
          have hcheck : checkDataFrame (w.ep s).recovery.lastRecvSeq r.seq = .ok true := by
            rw [checkDataFrame, if_neg (by omega), if_neg hdup, if_neg (by omega)]
          simp only [handlePacket, hcheck] at hlanes hfresh ⊢
          refine hI.reader hlanes hfresh rfl
            (.of_others (ht.others hactive) (by simp) ?_ (by simp) (fun _ => haccepted) (by simp)
              (fun hne => absurd rfl (hne _ _)) ?_ (ht.inOrder.snoc hseq) ht.failed)
          · intro m r' h
            cases h
            exact ⟨rfl, hseq⟩
          · intro m r' h
            cases h
            -- The frame is handed over and not taken yet.
            have hadd := hhanded.append_right [r]
            rw [List.append_assoc] at hadd
            exact hadd.trans (List.perm_append_comm.append_left _)
  · cases h

theorem delivery_accept (hI : DeliveryInv w) (hlanes : LanesInv w') (hfresh : Fresh w')
    (h : w.step (.accept s t) = some w') : DeliveryInv w' := by
  have ht := hI.taken s
  simp only [World.step] at h
  split at h
  · rename_i m r hr
    cases h
    have hactive : (w.lane t s).reader.Active := by rw [hr]; trivial
    have haccepted := ht.accepted_of_active hactive (by simp [hr])
    obtain ⟨rfl, hseq⟩ := ht.accepting t m r hr
    refine hI.reader hlanes hfresh rfl
      (.of_others (ht.others hactive) (by simp) (by simp) ?_ (fun hne => absurd rfl (hne _ _)) ?_ ?_
        (by simp) (ht.inOrder.mono rfl (Nat.le_refl _)) ht.failed)
    · intro m r' h
      cases h
      exact ⟨rfl, hseq⟩
    · intro m r' h
      cases h
      have htake := take_seq ((hI.flow.lane t s).accepting _ r hr)
      rw [hseq, Nat.sub_zero, Nat.add_sub_cancel] at htake
      rw [haccepted]
      exact htake.symm
    · intro _
      simpa using ht.handedAccepting t _ r hr
  · cases h

theorem delivery_note {now : Nat} (hI : DeliveryInv w) (hlanes : LanesInv w') (hfresh : Fresh w')
    (h : w.step (.note s t now) = some w') : DeliveryInv w' := by
  have ht := hI.taken s
  simp only [World.step] at h
  split at h
  · rename_i m r hr
    cases h
    have hactive : (w.lane t s).reader.Active := by rw [hr]; trivial
    have hhanded := ht.handed_of_active hactive (by simp [hr])
    have haccepted := ht.acceptedNoting t m r hr
    obtain ⟨hm, hseq⟩ := ht.noting t m r hr
    have hrecv : ((w.ep s).recovery.noteReceived now r.seq).2.lastRecvSeq = m + 1 := by
      rw [RecoveryState.lastRecvSeq_noteReceived]
      omega
    have hle : (w.ep s).recovery.lastRecvSeq ≤ ((w.ep s).recovery.noteReceived now r.seq).2.lastRecvSeq := by
      omega
    refine hI.reader hlanes hfresh ?_
      (.of_reading (ht.others hactive) ?_ ?_ hhanded (ht.inOrder.mono rfl hle) ht.failed)
    · simp only [Endpoint.records, RecoveryState.replay_noteReceived]
    · simp only [hrecv]
      rw [hseq]
    · simp only [hrecv, haccepted]
  · cases h

theorem delivery_stop (hI : DeliveryInv w) (hlanes : LanesInv w') (hfresh : Fresh w')
    (h : w.step (.stop s t) = some w') : DeliveryInv w' := by
  have ht := hI.taken s
  simp only [World.step] at h
  split at h
  · rename_i hr
    cases h
    exact hI.setLane hlanes hfresh (ht.inactive (by simp [hr, ReaderPc.Active]) id)
  · rename_i m hr
    cases h
    have hactive : (w.lane t s).reader.Active := by rw [hr]; trivial
    exact hI.setLane hlanes hfresh (.of_others (ht.others hactive) (by simp) (by simp) (by simp)
      (fun _ => ht.accepted_of_active hactive (by simp [hr])) (by simp)
      (fun _ => ht.handed_of_active hactive (by simp [hr])) (by simp) ht.inOrder ht.failed)
  · rename_i m r hr
    cases h
    have hactive : (w.lane t s).reader.Active := by rw [hr]; trivial
    refine hI.reader hlanes hfresh rfl (.of_others (ht.others hactive) (by simp) (by simp) (by simp)
      (fun _ => ht.accepted_of_active hactive (by simp [hr])) (by simp) ?_ (by simp)
      (ht.inOrder.mono rfl (Nat.le_refl _)) ht.failed)
    intro _
    exact (ht.handedAccepting t m r hr).trans
      ((@List.perm_append_comm _ [r] _).append_left _)
  · cases h

/-! ### Every step -/

theorem delivery_step (hI : DeliveryInv w) (hsingle : SingleReader w ev)
    (h : machine.step w ev = some w') : DeliveryInv w' := by
  have hlanes := lanes_step hI.lanes h
  have hfresh := fresh_step hI.fresh h
  -- Transports may change while both endpoints stay: `quiet` is then used at the same endpoint.
  have hself : w.ep = (w.setEp .client (w.ep .client)).ep := (Function.update_eq_self _ _).symm
  have hrefl : ∀ s, ReceiverSame (w.ep s) (w.ep s) := fun _ => ⟨rfl, rfl, rfl, rfl, rfl⟩
  cases ev with
  | dial =>
      cases h
      exact hI.quiet hlanes hfresh hself (fun _ _ => rfl) (hrefl _) (List.prefix_refl _)
  | respond t =>
      simp only [machine, World.step] at h
      split at h <;> cases h
      exact hI.quiet hlanes hfresh hself (fun _ _ => rfl) (hrefl _) (List.prefix_refl _)
  | attach s t => exact delivery_attach hI hlanes hfresh h
  | spawnReader s t =>
      simp only [machine, World.step] at h
      split at h
      · rename_i hr
        cases h
        exact hI.setLane hlanes hfresh
          ((hI.taken s).inactive (by simp [hr.1, ReaderPc.Active]) (by simp [ReaderPc.Active]))
      · cases h
  | detach s t =>
      simp only [machine, World.step] at h
      split at h <;> cases h
      exact hI.quiet hlanes hfresh rfl (fun _ _ => rfl) ⟨rfl, rfl, rfl, rfl, rfl⟩ (List.prefix_refl _)
  | send s frame =>
      cases h
      exact hI.quiet hlanes hfresh rfl (fun _ _ => rfl) ⟨rfl, rfl, rfl, rfl, rfl⟩ (List.prefix_refl _)
  | apply s => exact delivery_apply hI hlanes hfresh h
  | takeAck s now =>
      simp only [machine, World.step] at h
      split at h <;> cases h
      obtain ⟨-, hg⟩ := (hI.flow.endpoint s).takeAck now
      exact hI.quiet hlanes hfresh rfl (fun _ _ => rfl) (WriterSame.takeAck now).toReceiverSame
        hg.records
  | writeNext s =>
      simp only [machine, World.step] at h
      split at h
      · obtain ⟨e, he, rfl⟩ := Option.map_eq_some_iff.mp h
        obtain ⟨-, hg⟩ := (hI.flow.endpoint s).writeNext he
        exact hI.quiet hlanes hfresh rfl (fun _ _ => rfl) (WriterSame.writeNext he).toReceiverSame
          hg.records
      · cases h
  | writePing s =>
      simp only [machine, World.step] at h
      split at h <;> cases h
      exact hI.quiet hlanes hfresh rfl (fun _ _ => rfl) ⟨rfl, rfl, rfl, rfl, rfl⟩ (List.prefix_refl _)
  | stageDetached s =>
      simp only [machine, World.step] at h
      split at h
      · obtain ⟨e, he, rfl⟩ := Option.map_eq_some_iff.mp h
        obtain ⟨-, hg⟩ := (hI.flow.endpoint s).stageDetached he
        exact hI.quiet hlanes hfresh rfl (fun _ _ => rfl) (WriterSame.stageDetached he).toReceiverSame
          hg.records
      · cases h
  | writeDone s ok => exact delivery_writeDone hI hlanes hfresh h
  | flushFail s =>
      simp only [machine, World.step] at h
      split at h <;> cases h
      exact hI.quiet hlanes hfresh rfl (fun _ _ => rfl) ⟨rfl, rfl, rfl, rfl, rfl⟩ (List.prefix_refl _)
  | startReader s t => exact delivery_startReader hI hlanes hfresh hsingle h
  | read s t now => exact delivery_read hI hlanes hfresh h
  | accept s t => exact delivery_accept hI hlanes hfresh h
  | note s t now => exact delivery_note hI hlanes hfresh h
  | stop s t => exact delivery_stop hI hlanes hfresh h
  | breakTransport t keep =>
      cases h
      refine hI.quiet hlanes hfresh hself (fun t' s' => ?_) (hrefl _) (List.prefix_refl _)
      by_cases htt : t' = t
      · subst htt
        simp
      · simp [Function.update_of_ne htt]

theorem delivery_reachable (h : machine.ReachableUnder SingleReader w) : DeliveryInv w := by
  refine h.invariant ?_ fun _ _ _ hI hC hs => delivery_step hI hC hs
  rintro _ ⟨negotiated, headerLen, maxReplayBytes, rfl⟩
  refine ⟨lanesInv_initial _ _ _, fresh_initial _ _ _, fun s => ?_⟩
  exact ⟨by simp [World.initial], by simp [World.initial], by simp [World.initial],
    fun t t' h => absurd h id, fun _ => rfl, by simp [World.initial], fun _ => .refl _,
    by simp [World.initial], ⟨.nil, by simp [World.initial, Endpoint.new]⟩, rfl⟩

/-! ### The result -/

/-- The frames handed to `accept_frame` of `s`, other than in calls that were cancelled, are those
its peer staged, in order and without repetition. -/
def HandedOnce (w : World) (s : RecoveryRole) : Prop :=
  ∃ current : Option FrameRecord,
    (w.ep s).handed.Perm ((w.ep s).accepted ++ current.toList ++ (w.ep s).cancelled) ∧
      (w.ep s).accepted ++ current.toList <+: (w.ep s.peer).records

theorem DeliveryInv.handedOnce (hI : DeliveryInv w) (s : RecoveryRole) : HandedOnce w s := by
  have ht := hI.taken s
  by_cases hacc : ∃ t m r, (w.lane t s).reader = .accepting m r
  · obtain ⟨t, m, r, hr⟩ := hacc
    have hactive : (w.lane t s).reader.Active := by rw [hr]; trivial
    obtain ⟨rfl, hseq⟩ := ht.accepting t m r hr
    refine ⟨some r, ?_, ?_⟩
    · simpa using ht.handedAccepting t _ r hr
    · have htake := take_seq ((hI.flow.lane t s).accepting _ r hr)
      rw [hseq, Nat.sub_zero, Nat.add_sub_cancel] at htake
      rw [ht.accepted_of_active hactive (by simp [hr])]
      exact ⟨_, htake ▸ List.take_append_drop _ _⟩
  · have hidle : ∀ t m r, (w.lane t s).reader ≠ .accepting m r := fun t m r hr => hacc ⟨t, m, r, hr⟩
    refine ⟨none, by simpa using ht.handed hidle, ?_⟩
    rw [Option.toList_none, List.append_nil]
    by_cases hnot : ∃ t m r, (w.lane t s).reader = .noting m r
    · obtain ⟨t, m, r, hr⟩ := hnot
      exact ht.acceptedNoting t m r hr ▸ List.take_prefix _ _
    · exact ht.accepted (fun t m r hr => hnot ⟨t, m, r, hr⟩) ▸ List.take_prefix _ _

/-- A frame that was not taken was not acknowledged, so it is kept. -/
theorem DeliveryInv.kept (hI : DeliveryInv w) {r : FrameRecord} (hr : r ∈ (w.ep s.peer).records)
    (hnot : r ∉ (w.ep s).accepted) : r ∈ (w.ep s.peer).recovery.replay.replayQueue := by
  have hpeer := hI.flow.endpoint s.peer
  have hacked := hpeer.acked
  rw [RecoveryRole.peer_peer] at hacked
  have hq : (w.ep s.peer).recovery.replay.replayQueue = _ := hpeer.keeps.queue
  -- What was received was taken.
  have htake : (w.ep s.peer).records.take (w.ep s).recovery.lastRecvSeq ⊆ (w.ep s).accepted := by
    by_cases hnoting : ∃ t m r, (w.lane t s).reader = .noting m r
    · obtain ⟨t, m, r', hr'⟩ := hnoting
      have hm := ((hI.taken s).noting t m r' hr').1
      rw [(hI.taken s).acceptedNoting t m r' hr']
      exact List.take_subset_take_left _ (by omega)
    · rw [(hI.taken s).accepted fun t m r hr => hnoting ⟨t, m, r, hr⟩]
      exact List.Subset.refl _
  -- What the peer has acknowledged was received, and the rest is kept.
  have hmem := List.take_append_drop (w.ep s.peer).recovery.replay.lastAcked (w.ep s.peer).records ▸ hr
  rcases List.mem_append.mp hmem with hmem | hmem
  · exact absurd (htake (List.take_subset_take_left _ hacked hmem)) hnot
  · rw [hq]
    exact hmem

/-- **Exactly once and in order**, in every run with one reader of an endpoint at a time. -/
theorem delivered_once (h : machine.ReachableUnder SingleReader w) (s : RecoveryRole) :
    HandedOnce w s ∧ (w.ep s).handed.Pairwise (·.seq ≤ ·.seq) ∧
      (∀ r ∈ (w.ep s.peer).records, r ∉ (w.ep s).accepted →
        r ∈ (w.ep s.peer).recovery.replay.replayQueue) ∧
      (w.ep s).failed = none := by
  have hI := delivery_reachable h
  exact ⟨hI.handedOnce s, (hI.taken s).inOrder.sorted, fun r hr hnot => hI.kept hr hnot,
    (hI.taken s).failed⟩

end step

/-- The reader is aborted while `accept_frame` waits for room, and the frame is replayed to the
reader of the next transport. -/
def cancelledRun : List Event :=
  firstFrameRun ++ .read .server 0 1 :: replayRun ++ [.read .server 1 5]

/-- That reader takes it, and the frame after it. -/
def takenRun : List Event :=
  cancelledRun ++ [.accept .server 1, .note .server 1 6] ++ secondFrameRun ++
    [.read .server 1 7, .accept .server 1]

def takenWorld : World := (machine.exec eager takenRun).getD eager

theorem delivered_once_taken :
    (takenWorld.ep .server).handed.length = 3 ∧ (takenWorld.ep .server).accepted.length = 2 ∧
      HandedOnce takenWorld .server ∧ (takenWorld.ep .server).failed = none :=
  have h := delivered_once (.exec takenRun (.init init_eager) rfl (by decide)) .server
  ⟨by decide, by decide, h.1, h.2.2.2⟩

def cancelledWorld : World := (machine.exec eager cancelledRun).getD eager

/-- With one reader at a time, what is handed to `accept_frame` can repeat a frame. -/
theorem handed_again : ¬∀ w, machine.ReachableUnder SingleReader w → ∀ s,
    (w.ep s).handed.map FrameRecord.frame <+: (w.ep s.peer).staged := by
  intro hall
  have h := hall cancelledWorld (.exec cancelledRun (.init init_eager) rfl (by decide)) .server
  exact absurd h.length_le (by decide)

end AdaptiveMsg.Protocol
