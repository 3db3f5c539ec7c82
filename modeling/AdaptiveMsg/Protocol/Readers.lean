import AdaptiveMsg.Protocol.Delivery

/-!
# Protocol — replacing a reader

An aborted reader goes on to its next suspension point, so the reader of a transport that was
replaced may still take frames while the next one reads what is replayed.  Each checks duplicates
against its own copy of the last received number.

`HandsNext` is the condition under which no number is handed to `accept_frame` twice: a reader
hands a frame over only while its copy is current, no other reader is handing one over, and no call
for that number was cancelled.  `handed_once`: the numbers handed over increase as long as every
step meets it, and do not after the first step that does not.  One reader at a time is enough for
the first two parts (`DeliveryInv.handsNext`); with two of them `handed_twice`.
-/

namespace AdaptiveMsg.Protocol

/-! ### The condition -/

/-- The reader has handed a frame to `accept_frame` and not noted it. -/
def ReaderPc.Handing : ReaderPc → Prop
  | .accepting _ _ | .noting _ _ => True
  | .unspawned | .starting | .reading _ | .ended => False

instance : DecidablePred ReaderPc.Handing
  | .accepting _ _ | .noting _ _ => isTrue trivial
  | .unspawned | .starting | .reading _ | .ended => isFalse id

/-- The frame that the reader of `s` on `t` hands over when it reads on, with its copy of the last
received number. -/
def World.next (w : World) (s : RecoveryRole) (t : Nat) : Option (Nat × FrameRecord) :=
  match (w.lane t s).reader, (w.lane t s).wire with
  | .reading m, .data record :: _ =>
    match checkDataFrame m record.seq with
    | .ok true => some (m, record)
    | _ => none
  | _, _ => none

def HandsNext (w : World) : Event → Prop
  | .read s t _ => ∀ p ∈ w.next s t,
    p.1 = (w.ep s).recovery.lastReceived ∧ (∀ t' < w.dialed, ¬(w.lane t' s).reader.Handing) ∧
      p.2.seq ∉ (w.ep s).cancelled.map FrameRecord.seq
  | _ => True

instance (w : World) : DecidablePred (HandsNext w)
  | .read s t _ => inferInstanceAs (Decidable (∀ p ∈ w.next s t,
    p.1 = (w.ep s).recovery.lastReceived ∧ (∀ t' < w.dialed, ¬(w.lane t' s).reader.Handing) ∧
      p.2.seq ∉ (w.ep s).cancelled.map FrameRecord.seq))
  | .dial | .respond _ | .attach _ _ | .spawnReader _ _ | .detach _ _ | .send _ _ | .apply _
  | .takeAck _ _ | .writeNext _ | .writePing _ | .stageDetached _ | .writeDone _ _ | .flushFail _
  | .startReader _ _ | .accept _ _ | .note _ _ _ | .stop _ _ | .breakTransport _ _ => isTrue trivial

/-- The numbers handed to `accept_frame` increase. -/
def HandedInOrder (w : World) : Prop :=
  ∀ s, ((w.ep s).handed.map FrameRecord.seq).Pairwise (· < ·)

/-! ### What was handed over -/

/-- The readers of `e` have handed over the numbers received, the one being handed over, and those
of calls that were cancelled. -/
structure Handed (e : Endpoint) (lane : Nat → Lane) : Prop where
  reading : ∀ t m, (lane t).reader = .reading m → m ≤ e.recovery.lastRecvSeq
  next : ∀ t m r, (lane t).reader = .accepting m r ∨ (lane t).reader = .noting m r →
    r.seq = e.recovery.lastRecvSeq + 1
  unique : ∀ t t', (lane t).reader.Handing → (lane t').reader.Handing → t = t'
  cancelled : ∀ r ∈ e.cancelled, r.seq ≤ e.recovery.lastRecvSeq + 1
  handed : ∀ k, k ∈ e.handed.map FrameRecord.seq ↔ (0 < k ∧ k ≤ e.recovery.lastRecvSeq) ∨
    (k = e.recovery.lastRecvSeq + 1 ∧ ∃ t, (lane t).reader.Handing) ∨
    k ∈ e.cancelled.map FrameRecord.seq
  increasing : (e.handed.map FrameRecord.seq).Pairwise (· < ·)

section handed

variable {e e' : Endpoint} {lane lane' : Nat → Lane} {l : Lane} {t : Nat}

theorem ReaderPc.handing_iff (pc : ReaderPc) :
    pc.Handing ↔ ∃ m r, pc = .accepting m r ∨ pc = .noting m r := by
  cases pc <;> simp [ReaderPc.Handing]

theorem Handed.same (h : Handed e lane) (hs : ReceiverSame e e')
    (hl : ∀ t, (lane' t).reader = (lane t).reader) : Handed e' lane' := by
  refine ⟨?_, ?_, ?_, ?_, ?_, ?_⟩
  · simpa only [hl, hs.received] using h.reading
  · simpa only [hl, hs.received] using h.next
  · simpa only [hl] using h.unique
  · simpa only [hs.cancelled, hs.received] using h.cancelled
  · simpa only [hl, hs.handed, hs.received, hs.cancelled] using h.handed
  · simpa only [hs.handed] using h.increasing

/-- A reader keeps handing over, or keeps not doing so. -/
theorem handing_update (hl : l.reader.Handing ↔ (lane t).reader.Handing) (t' : Nat) :
    (Function.update lane t l t').reader.Handing ↔ (lane t').reader.Handing := by
  by_cases htt : t' = t
  · subst htt
    rw [Function.update_self, hl]
  · rw [Function.update_of_ne htt]

/-- The reader of `t` is handing nothing over, and was not. -/
theorem Handed.idle (h : Handed e lane) (hL : e'.recovery.lastRecvSeq = e.recovery.lastRecvSeq)
    (hh : e'.handed = e.handed) (hc : e'.cancelled = e.cancelled) (ht : ¬(lane t).reader.Handing)
    (hl : ¬l.reader.Handing) (hr : ∀ m, l.reader = .reading m → m ≤ e.recovery.lastRecvSeq) :
    Handed e' (Function.update lane t l) := by
  have hiff := handing_update (show l.reader.Handing ↔ (lane t).reader.Handing from
    ⟨fun h => absurd h hl, fun h => absurd h ht⟩)
  refine ⟨fun t' m hm => ?_, fun t' m r hm => ?_, fun t' t'' h' h'' => ?_, ?_, ?_, ?_⟩
  · rw [hL]
    by_cases htt : t' = t
    · subst htt
      rw [Function.update_self] at hm
      exact hr m hm
    · rw [Function.update_of_ne htt] at hm
      exact h.reading t' m hm
  · rw [hL]
    by_cases htt : t' = t
    · subst htt
      rw [Function.update_self] at hm
      exact absurd ((ReaderPc.handing_iff _).mpr ⟨m, r, hm⟩) hl
    · rw [Function.update_of_ne htt] at hm
      exact h.next t' m r hm
  · exact h.unique t' t'' ((hiff t').mp h') ((hiff t'').mp h'')
  · simpa only [hc, hL] using h.cancelled
  · simpa only [hiff, hh, hL, hc] using h.handed
  · simpa only [hh] using h.increasing

/-- The reader of `t` hands over the next frame; no other is handing one over. -/
theorem Handed.hand (h : Handed e lane) {r : FrameRecord} {m : Nat} {wire : List Packet}
    (hnone : ∀ t', ¬(lane t').reader.Handing) (hseq : r.seq = e.recovery.lastRecvSeq + 1)
    (hc : r.seq ∉ e.cancelled.map FrameRecord.seq) :
    Handed { e with handed := e.handed ++ [r] }
      (Function.update lane t ⟨wire, .accepting m r⟩) := by
  have hat : ∀ t', (Function.update lane t ⟨wire, .accepting m r⟩ t').reader.Handing → t' = t := by
    intro t' ht'
    by_contra hne
    rw [Function.update_of_ne hne] at ht'
    exact hnone t' ht'
  have hself : (Function.update lane t ⟨wire, .accepting m r⟩ t).reader = .accepting m r := by
    rw [Function.update_self]
  refine ⟨fun t' m' hm => ?_, fun t' m' r' hm => ?_, fun t' t'' h' h'' => ?_, h.cancelled,
    fun k => ?_, ?_⟩
  · by_cases htt : t' = t
    · subst htt
      rw [hself] at hm
      cases hm
    · rw [Function.update_of_ne htt] at hm
      exact h.reading t' m' hm
  · obtain rfl := hat t' ((ReaderPc.handing_iff _).mpr ⟨m', r', hm⟩)
    rw [hself] at hm
    rcases hm with hm | hm
    · cases hm
      exact hseq
    · cases hm
  · exact (hat t' h').trans (hat t'' h'').symm
  · have hex : ∃ t', (Function.update lane t ⟨wire, .accepting m r⟩ t').reader.Handing :=
      ⟨t, by rw [hself]; trivial⟩
    have hno : ¬∃ t', (lane t').reader.Handing := fun ⟨t', ht'⟩ => hnone t' ht'
    -- What was handed over: what is received, the frame handed over now, and what was cancelled.
    simp only [List.map_append, List.map_cons, List.map_nil, List.mem_append, List.mem_singleton,
      h.handed k, hno, hex, and_false, false_or, and_true, hseq]
    constructor
    · rintro ((hk | hk) | hk)
      · exact .inl hk
      · exact .inr (.inr hk)
      · exact .inr (.inl hk)
    · rintro (hk | hk | hk)
      · exact .inl (.inl hk)
      · exact .inr hk
      · exact .inl (.inr hk)
  · rw [List.map_append, List.pairwise_append]
    refine ⟨h.increasing, List.pairwise_singleton _ _, fun k hk k' hk' => ?_⟩
    rw [List.map_singleton, List.mem_singleton] at hk'
    subst hk'
    -- The new number is past what is received, and none of those cancelled.
    rcases (h.handed k).mp hk with hk | ⟨-, t', ht'⟩ | hk
    · omega
    · exact absurd ht' (hnone t')
    · obtain ⟨r', hr', rfl⟩ := List.mem_map.mp hk
      have hle := h.cancelled r' hr'
      have hne : r'.seq ≠ r.seq := fun heq => hc (heq ▸ hk)
      omega

/-- `accept_frame` takes the frame handed over on `t`. -/
theorem Handed.accept (h : Handed e lane) {r : FrameRecord} {m : Nat} {wire : List Packet}
    (hr : (lane t).reader = .accepting m r) :
    Handed { e with accepted := e.accepted ++ [r] }
      (Function.update lane t ⟨wire, .noting m r⟩) := by
  have hiff := handing_update (show (Lane.mk wire (.noting m r)).reader.Handing ↔ (lane t).reader.Handing from
    ⟨fun _ => by rw [hr]; trivial, fun _ => trivial⟩)
  refine ⟨fun t' m' hm => ?_, fun t' m' r' hm => ?_, fun t' t'' h' h'' => ?_, h.cancelled, ?_,
    h.increasing⟩
  · by_cases htt : t' = t
    · subst htt
      rw [Function.update_self] at hm
      cases hm
    · rw [Function.update_of_ne htt] at hm
      exact h.reading t' m' hm
  · by_cases htt : t' = t
    · subst htt
      rw [Function.update_self] at hm
      rcases hm with hm | hm
      · cases hm
      · cases hm
        exact h.next t' m r (.inl hr)
    · rw [Function.update_of_ne htt] at hm
      exact h.next t' m' r' hm
  · exact h.unique t' t'' ((hiff t').mp h') ((hiff t'').mp h'')
  · simpa only [hiff] using h.handed

/-- The reader of `t` is done with the frame, which is received if `L` is its number, or else
cancelled. -/
theorem Handed.done (h : Handed e lane) {r : FrameRecord} {m : Nat}
    (hr : (lane t).reader = .accepting m r ∨ (lane t).reader = .noting m r)
    (hl : l.reader = .reading r.seq ∧ e'.recovery.lastRecvSeq = r.seq ∧ e'.cancelled = e.cancelled ∨
      l.reader = .ended ∧ e'.recovery.lastRecvSeq = e.recovery.lastRecvSeq ∧
        e'.cancelled = e.cancelled ++ [r])
    (hh : e'.handed = e.handed) : Handed e' (Function.update lane t l) := by
  have hseq := h.next t m r hr
  have hhanding : (lane t).reader.Handing := (ReaderPc.handing_iff _).mpr ⟨m, r, hr⟩
  have hex : ∃ t', (lane t').reader.Handing := ⟨t, hhanding⟩
  have hnone : ∀ t', ¬(Function.update lane t l t').reader.Handing := by
    intro t' ht'
    by_cases htt : t' = t
    · subst htt
      rw [Function.update_self] at ht'
      rcases hl with ⟨hl, -⟩ | ⟨hl, -⟩ <;>
      · rw [hl] at ht'
        exact ht'
    · rw [Function.update_of_ne htt] at ht'
      exact htt (h.unique t' t ht' hhanding)
  have hno : ¬∃ t', (Function.update lane t l t').reader.Handing := fun ⟨t', ht'⟩ => hnone t' ht'
  have hL : e.recovery.lastRecvSeq ≤ e'.recovery.lastRecvSeq := by
    rcases hl with ⟨-, hL, -⟩ | ⟨-, hL, -⟩ <;> omega
  refine ⟨fun t' m' hm => ?_, fun t' m' r' hm => ?_, fun t' t'' h' => absurd h' (hnone t'),
    fun r' hr' => ?_, fun k => ?_, hh ▸ h.increasing⟩
  · by_cases htt : t' = t
    · subst htt
      rw [Function.update_self] at hm
      rcases hl with ⟨hl, hL, -⟩ | ⟨hl, -⟩
      · rw [hl] at hm
        cases hm
        exact Nat.le_of_eq hL.symm
      · rw [hl] at hm
        cases hm
    · rw [Function.update_of_ne htt] at hm
      exact Nat.le_trans (h.reading t' m' hm) hL
  · exact absurd ((ReaderPc.handing_iff _).mpr ⟨m', r', hm⟩) (hnone t')
  · rcases hl with ⟨-, -, hc⟩ | ⟨-, -, hc⟩
    · have := h.cancelled r' (hc ▸ hr')
      omega
    · rw [hc] at hr'
      rcases List.mem_append.mp hr' with hr' | hr'
      · have := h.cancelled r' hr'
        omega
      · rw [List.mem_singleton.mp hr']
        omega
  · -- The frame handed over was the one after those received: it is received now, or cancelled.
    rw [hh, h.handed k]
    simp only [hex, hno, and_true, and_false, false_or]
    rcases hl with ⟨-, hL', hc⟩ | ⟨-, hL', hc⟩
    · rw [hL', hc, hseq]
      constructor
      · rintro (hk | hk | hk)
        · exact .inl ⟨hk.1, by omega⟩
        · exact .inl ⟨by omega, by omega⟩
        · exact .inr hk
      · rintro (hk | hk)
        · by_cases hlast : k = e.recovery.lastRecvSeq + 1
          · exact .inr (.inl hlast)
          · exact .inl ⟨hk.1, by omega⟩
        · exact .inr (.inr hk)
    · rw [hL', hc, List.map_append, List.mem_append, List.map_singleton, List.mem_singleton, hseq]
      constructor
      · rintro (hk | hk | hk)
        · exact .inl hk
        · exact .inr (.inr hk)
        · exact .inr (.inl hk)
      · rintro (hk | hk | hk)
        · exact .inl hk
        · exact .inr (.inr hk)
        · exact .inr (.inl hk)

end handed

/-! ### The steps -/

/-- The reader that moves. -/
def Event.reader : Event → Option (RecoveryRole × Nat)
  | .spawnReader s t | .startReader s t | .read s t _ | .accept s t | .note s t _ | .stop s t =>
    some (s, t)
  | _ => none

section step

variable {w w' : World} {s x : RecoveryRole} {t : Nat} {ev : Event}

theorem receiverSame_setEp {e : Endpoint} (he : ReceiverSame (w.ep x) e) :
    ReceiverSame (w.ep s) ((w.setEp x e).ep s) := by
  by_cases hs : s = x
  · subst hs
    rwa [World.setEp_ep_self]
  · rw [World.setEp_ep_ne hs]
    exact ⟨rfl, rfl, rfl, rfl, rfl⟩

/-- A step of no reader leaves what the readers keep. -/
theorem receiverSame_step (h : machine.step w ev = some w') (hev : ev.reader = none)
    (s : RecoveryRole) :
    ReceiverSame (w.ep s) (w'.ep s) ∧ ∀ t, (w'.lane t s).reader = (w.lane t s).reader := by
  have hrefl : ReceiverSame (w.ep s) (w.ep s) := ⟨rfl, rfl, rfl, rfl, rfl⟩
  cases ev with
  | spawnReader s t | startReader s t | read s t now | accept s t | note s t now | stop s t =>
      cases hev
  | dial =>
      cases h
      exact ⟨hrefl, fun _ => rfl⟩
  | respond t =>
      simp only [machine, World.step] at h
      split at h <;> cases h
      exact ⟨hrefl, fun _ => rfl⟩
  | attach x t =>
      simp only [machine, World.step] at h
      split at h
      · split at h <;> cases h
        refine ⟨receiverSame_setEp ?_, fun _ => rfl⟩
        cases x <;> exact ⟨rfl, rfl, rfl, rfl, rfl⟩
      · cases h
  | detach x t =>
      simp only [machine, World.step] at h
      split at h <;> cases h
      exact ⟨receiverSame_setEp ⟨rfl, rfl, rfl, rfl, rfl⟩, fun _ => rfl⟩
  | send x frame =>
      cases h
      exact ⟨receiverSame_setEp ⟨rfl, rfl, rfl, rfl, rfl⟩, fun _ => rfl⟩
  | apply x =>
      simp only [machine, World.step] at h
      split at h
      · rename_i cmd rest _
        split at h <;> cases h
        have happly := ReceiverSame.apply (e := { w.ep x with writerCmd := rest }) cmd
        exact ⟨receiverSame_setEp ⟨happly.received, happly.accepted, happly.handed, happly.cancelled,
          happly.failed⟩, fun _ => rfl⟩
      · cases h
  | takeAck x now =>
      simp only [machine, World.step] at h
      split at h <;> cases h
      exact ⟨receiverSame_setEp (WriterSame.takeAck now).toReceiverSame, fun _ => rfl⟩
  | writeNext x =>
      simp only [machine, World.step] at h
      split at h
      · obtain ⟨e, he, rfl⟩ := Option.map_eq_some_iff.mp h
        exact ⟨receiverSame_setEp (WriterSame.writeNext he).toReceiverSame, fun _ => rfl⟩
      · cases h
  | writePing x | flushFail x =>
      simp only [machine, World.step] at h
      split at h <;> cases h
      exact ⟨receiverSame_setEp ⟨rfl, rfl, rfl, rfl, rfl⟩, fun _ => rfl⟩
  | stageDetached x =>
      simp only [machine, World.step] at h
      split at h
      · obtain ⟨e, he, rfl⟩ := Option.map_eq_some_iff.mp h
        exact ⟨receiverSame_setEp (WriterSame.stageDetached he).toReceiverSame, fun _ => rfl⟩
      · cases h
  | writeDone x ok =>
      simp only [machine, World.step, World.writeDone] at h
      split at h
      · rename_i t packet _ _
        have hsent := receiverSame_setEp (s := s) (w := w)
          (WriterSame.sent (e := w.ep x) packet).toReceiverSame
        split at h
        · split at h <;> cases h
          · exact ⟨hsent, fun _ => rfl⟩
          · refine ⟨hsent, fun t' => ?_⟩
            -- The wire to the peer gets the packet; its reader stays.
            by_cases heq : t' = t ∧ s = x.peer
            · obtain ⟨rfl, rfl⟩ := heq
              rw [World.setLane_lane_self]
            · rw [World.setLane_lane_ne (not_and_or.mp heq)]
              rfl
        · cases h
          exact ⟨receiverSame_setEp ⟨rfl, rfl, rfl, rfl, rfl⟩, fun _ => rfl⟩
      · cases h
  | breakTransport t keep =>
      cases h
      refine ⟨hrefl, fun t' => ?_⟩
      by_cases htt : t' = t
      · subst htt
        simp
      · simp [Function.update_of_ne htt]

structure HandedInv (w : World) : Prop where
  fresh : Fresh w
  handed : ∀ s, Handed (w.ep s) fun t => w.lane t s

/-- A step of the reader of `x` on `t`. -/
theorem handed_reader (hI : HandedInv w) {e : Endpoint} {l : Lane}
    (hx : Handed e (Function.update (fun t => w.lane t x) t l)) (s : RecoveryRole) :
    Handed (((w.setEp x e).setLane t x l).ep s) fun t' => ((w.setEp x e).setLane t x l).lane t' s := by
  rcases x.eq_or_eq_peer s with rfl | rfl
  · rw [World.setLane_ep, World.setEp_ep_self, World.setLane_lane]
    exact hx
  · rw [World.setLane_ep, World.setEp_ep_peer]
    refine (hI.handed x.peer).same ⟨rfl, rfl, rfl, rfl, rfl⟩ fun t' => ?_
    rw [World.setLane_lane_ne (.inr (RecoveryRole.peer_ne x))]
    rfl

/-- A reader changes its own state only. -/
theorem handed_setLane (hI : HandedInv w) {l : Lane} (ht : ¬(w.lane t x).reader.Handing)
    (hl : ¬l.reader.Handing) (hr : ∀ m, l.reader = .reading m → m ≤ (w.ep x).recovery.lastRecvSeq)
    (s : RecoveryRole) :
    Handed ((w.setLane t x l).ep s) fun t' => (w.setLane t x l).lane t' s := by
  have hself : w.setEp x (w.ep x) = w := by
    rw [World.setEp, Function.update_eq_self]
  have h := handed_reader hI ((hI.handed x).idle rfl rfl rfl ht hl hr) s
  rwa [hself] at h

theorem handed_read {now : Nat} (hI : HandedInv w) (hC : HandsNext w (.read s t now))
    (h : w.step (.read s t now) = some w') (x : RecoveryRole) :
    Handed (w'.ep x) fun t => w'.lane t x := by
  have hH := hI.handed s
  simp only [World.step] at h
  split at h
  · rename_i m packet wire hr hwire
    cases h
    have hm := hH.reading t m hr
    have hidle : ¬(w.lane t s).reader.Handing := by simp [hr, ReaderPc.Handing]
    -- A reader that hands nothing over, with `e` for its endpoint.
    have hgo : ∀ e, e.recovery.lastRecvSeq = (w.ep s).recovery.lastRecvSeq →
        e.handed = (w.ep s).handed → e.cancelled = (w.ep s).cancelled →
        ∀ pc, pc = .reading m ∨ pc = .ended →
          Handed (((w.setEp s e).setLane t s ⟨wire, pc⟩).ep x)
            fun t' => ((w.setEp s e).setLane t s ⟨wire, pc⟩).lane t' x := by
      intro e hL hh hc pc hpc
      refine handed_reader hI (hH.idle hL hh hc hidle ?_ ?_) x
      · rcases hpc with rfl | rfl <;> exact id
      · rcases hpc with rfl | rfl
        · intro m' hm'
          cases hm'
          exact hm
        · intro m' hm'
          cases hm'
    cases packet with
    | ack k =>
        exact hgo { w.ep s with recovery := (w.ep s).recovery.ackReceived k } rfl rfl rfl _ (.inl rfl)
    | ping => exact hgo (w.ep s) rfl rfl rfl _ (.inl rfl)
    | data r =>
        simp only [handlePacket]
        split
        · rename_i err _
          exact hgo { w.ep s with failed := some err } rfl rfl rfl _ (.inr rfl)
        · rename_i hcheck
          refine hgo { w.ep s with recovery := ((w.ep s).recovery.noteReceived now r.seq).2 } ?_
            rfl rfl _ (.inl rfl)
          have hle := checkDataFrame_dup hcheck
          simp only [RecoveryState.lastRecvSeq_noteReceived]
          omega
        · rename_i hcheck
          have hnext : w.next s t = some (m, r) := by
            simp only [World.next, hr, hwire, hcheck]
          -- Only here the condition is used: the copy is current, and nobody hands a frame over.
          obtain ⟨rfl, hnone, hc⟩ := hC (m, r) hnext
          refine handed_reader hI (hH.hand (fun t' ht' => ?_) (checkDataFrame_new hcheck) hc) x
          refine hnone t' (hI.fresh.dialed_of_reader (s := s) fun hr' => ?_) ht'
          rw [hr'] at ht'
          exact ht'
  · cases h

theorem handed_step (hI : HandedInv w) (hC : HandsNext w ev) (h : machine.step w ev = some w') :
    HandedInv w' := by
  refine ⟨fresh_step hI.fresh h, fun x => ?_⟩
  cases ev with
  | spawnReader s t =>
      simp only [machine, World.step] at h
      split at h
      · rename_i hr
        cases h
        exact handed_setLane hI (by simp [hr.1, ReaderPc.Handing]) id (by simp) x
      · cases h
  | startReader s t =>
      simp only [machine, World.step] at h
      split at h
      · rename_i hr
        cases h
        refine handed_setLane hI (by simp [hr, ReaderPc.Handing]) id ?_ x
        intro m hm
        cases hm
        exact Nat.le_refl _
      · cases h
  | read s t now => exact handed_read hI hC h x
  | accept s t =>
      simp only [machine, World.step] at h
      split at h
      · rename_i m r hr
        cases h
        exact handed_reader hI ((hI.handed s).accept hr) x
      · cases h
  | note s t now =>
      simp only [machine, World.step] at h
      split at h
      · rename_i m r hr
        cases h
        have hseq := (hI.handed s).next t m r (.inr hr)
        -- The record handed on is the next one, so noting it makes it the last received.
        have hL : ((w.ep s).recovery.noteReceived now r.seq).2.lastRecvSeq = r.seq := by
          rw [RecoveryState.lastRecvSeq_noteReceived]
          omega
        exact handed_reader hI
          (e := { w.ep s with recovery := ((w.ep s).recovery.noteReceived now r.seq).2 })
          (l := ⟨(w.lane t s).wire, .reading r.seq⟩)
          ((hI.handed s).done (.inr hr) (.inl ⟨rfl, hL, rfl⟩) rfl) x
      · cases h
  | stop s t =>
      simp only [machine, World.step] at h
      split at h
      · rename_i hr
        cases h
        exact handed_setLane hI (by simp [hr, ReaderPc.Handing]) id (by simp) x
      · rename_i m hr
        cases h
        exact handed_setLane hI (by simp [hr, ReaderPc.Handing]) id (by simp) x
      · rename_i m r hr
        cases h
        exact handed_reader hI (e := { w.ep s with cancelled := (w.ep s).cancelled ++ [r] })
          (l := ⟨(w.lane t s).wire, .ended⟩)
          ((hI.handed s).done (.inl hr) (.inr ⟨rfl, rfl, rfl⟩) rfl) x
      · cases h
  | _ =>
      obtain ⟨hs, hr⟩ := receiverSame_step h rfl x
      exact (hI.handed x).same hs hr

theorem handed_reachable (h : machine.ReachableUnder HandsNext w) : HandedInv w := by
  refine h.invariant ?_ fun _ _ _ hI hC hs => handed_step hI hC hs
  rintro _ ⟨negotiated, headerLen, maxReplayBytes, rfl⟩
  refine ⟨fresh_initial _ _ _, fun s => ⟨by simp [World.initial], by simp [World.initial],
    fun t t' h => absurd h id, by simp [World.initial, Endpoint.new], fun k => ?_,
    by simp [World.initial, Endpoint.new]⟩⟩
  simp [World.initial, Endpoint.new, RecoveryState.new, ReaderPc.Handing]
  omega

/-! ### The result -/

/-- The reader that hands over `r` next. -/
theorem next_eq_some {m : Nat} {r : FrameRecord} (h : w.next s t = some (m, r)) :
    (w.lane t s).reader = .reading m ∧ (∃ wire, (w.lane t s).wire = .data r :: wire) ∧
      checkDataFrame m r.seq = .ok true := by
  simp only [World.next] at h
  split at h
  · rename_i hr hwire
    split at h
    · rename_i hcheck
      cases h
      exact ⟨hr, ⟨_, hwire⟩, hcheck⟩
    · cases h
  · cases h

/-- A step that does not meet the condition hands a number over again. -/
theorem HandedInv.again (hI : HandedInv w) (h : machine.step w ev = some w')
    (hC : ¬HandsNext w ev) : ¬HandedInOrder w' := by
  cases ev with
  | read s t now =>
      simp only [HandsNext, Option.mem_def, Prod.forall, not_forall] at hC
      obtain ⟨m, r, hnext, hC⟩ := hC
      obtain ⟨hr, ⟨wire, hwire⟩, hcheck⟩ := next_eq_some hnext
      have hH := hI.handed s
      have hm := hH.reading t m hr
      have hseq := checkDataFrame_new hcheck
      have hold : r.seq ∈ (w.ep s).handed.map FrameRecord.seq := by
        rw [hH.handed]
        -- A stale copy is behind what was received; else another reader hands the number over, or a
        -- call with it was cancelled.
        by_cases hstale : m = (w.ep s).recovery.lastRecvSeq
        · by_cases hother : ∃ t', (w.lane t' s).reader.Handing
          · exact .inr (.inl ⟨hstale ▸ hseq, hother⟩)
          · refine .inr (.inr (by_contra fun hc => hC ⟨hstale, fun t' _ ht' => hother ⟨t', ht'⟩, hc⟩))
        · exact .inl ⟨by omega, by omega⟩
      simp only [machine, World.step, hr, hwire, handlePacket, hcheck] at h
      cases h
      intro hall
      have hlt := hall s
      rw [World.readerGoesOn, World.setLane_ep, World.setEp_ep_self, List.map_append,
        List.pairwise_append] at hlt
      exact absurd (hlt.2.2 _ hold _ List.mem_cons_self) (Nat.lt_irrefl _)
  | _ => exact absurd trivial hC

/-- **A frame is handed over once**, in the runs whose every step meets the condition, and no
longer after the first step that does not. -/
theorem handed_once (h : machine.ReachableUnder HandsNext w) :
    HandedInOrder w ∧ ∀ ev w', machine.step w ev = some w' → (HandedInOrder w' ↔ HandsNext w ev) := by
  have hI := handed_reachable h
  refine ⟨fun s => (hI.handed s).increasing, fun ev w' hs => ⟨fun hw' => ?_, fun hC s => ?_⟩⟩
  · exact by_contra fun hC => hI.again hs hC hw'
  · exact ((handed_step hI hC hs).handed s).increasing

/-- With one reader at a time a copy is current, and no other reader is handing a frame over. -/
theorem DeliveryInv.handsNext (hI : DeliveryInv w) (hc : ∀ s, (w.ep s).cancelled = []) :
    HandsNext w ev := by
  cases ev with
  | read s t now =>
      rintro ⟨m, r⟩ hnext
      obtain ⟨hr, -, -⟩ := next_eq_some hnext
      refine ⟨(hI.taken s).reading t m hr, fun t' _ ht' => ?_, by simp [hc]⟩
      have hactive : (w.lane t' s).reader.Active := by
        obtain ⟨m', r', h | h⟩ := (ReaderPc.handing_iff _).mp ht' <;> rw [h] <;> trivial
      obtain rfl := (hI.taken s).unique t' t hactive (by rw [hr]; trivial)
      rw [hr] at ht'
      exact ht'
  | _ => trivial

end step

/-- The server's first reader takes the frame; a second transport is attached while it still reads,
and the next frame is sent on that. -/
def replacedRun : List Event :=
  firstFrameRun ++ [.read .server 0 1, .accept .server 0, .note .server 0 2, .dial, .respond 1] ++
    attachBoth 1 ++ secondFrameRun ++ [.read .server 1 3]

def replacedWorld : World := (machine.exec eager replacedRun).getD eager

theorem handed_once_replaced :
    (replacedWorld.lane 0 .server).reader = .reading 1 ∧
      (replacedWorld.ep .server).handed.map FrameRecord.seq = [1, 2] ∧ HandedInOrder replacedWorld ∧
      ∀ ev w', machine.step replacedWorld ev = some w' →
        (HandedInOrder w' ↔ HandsNext replacedWorld ev) :=
  ⟨by decide, by decide, handed_once (.exec replacedRun (.init init_eager) rfl (by decide))⟩

/-- The server's first reader takes the frame and is replaced before it notes it; the next reader
copies the last received number, and is sent the frame again. -/
def overlapRun : List Event :=
  firstFrameRun ++
    [Event.stop .client 0, .dial, .respond 1, .read .server 0 1, .accept .server 0] ++
    attachBoth 1 ++
    [Event.note .server 0 2, .writeNext .client, .writeDone .client true, .read .server 1 3]

def overlapWorld : World := (machine.exec eager overlapRun).getD eager

theorem handed_twice : ¬∀ w, machine.Reachable w → HandedInOrder w := by
  intro hall
  have hr : machine.Reachable overlapWorld := Machine.reachable_of_exec overlapRun init_eager rfl
  exact absurd (hall overlapWorld hr .server) (by decide)

end AdaptiveMsg.Protocol
