import AdaptiveMsg.Protocol.Flow

/-!
# Protocol — acknowledgements converge

What an endpoint has acknowledged is on its way to the peer, was announced as its resume point, or
has arrived: `Covered`.  This holds in the runs in which a writer attaches a transport only when the
resume point announced on it is not behind the last ACK that the endpoint sent
(`ResumeCoversAck`), and then both sides agree once nothing is left to do (`acks_converge`).

The server samples its resume point for the response, and its old reader and writer run on until
the attach.  An ACK that the old writer takes in between is lost with the old transport, and no
later ACK repeats it: `ack_lost`.
-/

namespace AdaptiveMsg.Protocol

/-! ### Where an acknowledgement is -/

/-- What `s` is told or will be told of what its peer has acknowledged, when the peer writes to `t`. -/
def Covered (w : World) (s : RecoveryRole) (t : Nat) : Prop :=
  (w.ep s.peer).recovery.lastAckSent ≤ (w.ep s).recovery.replay.lastAcked ∨
  (∃ p, (w.transport t).point s.peer = some p ∧ (w.ep s.peer).recovery.lastAckSent ≤ p) ∨
  (∃ k, (w.ep s.peer).recovery.lastAckSent ≤ k ∧ .ack k ∈ (w.lane t s).wire) ∨
  ∃ k, (w.ep s.peer).recovery.lastAckSent ≤ k ∧ (w.ep s.peer).writing = some (.ack k)

structure AckFlow (w : World) (s : RecoveryRole) : Prop where
  /-- An Attach carries the point that the peer announced, and follows our own. -/
  command : ∀ t k, .attach t k ∈ (w.ep s).writerCmd →
    (w.transport t).point s.peer = some k ∧ ((w.transport t).point s).isSome
  /-- The attach of a transport takes its resume point for an acknowledgement. -/
  resumed : ∀ t, (w.ep s).writer = some t →
    ∃ p, (w.transport t).point s.peer = some p ∧ p ≤ (w.ep s).recovery.replay.lastAcked
  covered : ∀ t, (w.ep s.peer).writer = some t → (w.transport t).broken = false → Covered w s t

/-- The step attaches a transport on which the endpoint announced all that it has acknowledged. -/
def ResumeCoversAck (w : World) : Event → Prop
  | .apply s =>
    match (w.ep s).writerCmd with
    | .attach t _ :: _ =>
      ∀ p, (w.transport t).point s = some p → (w.ep s).recovery.lastAckSent ≤ p
    | _ => True
  | _ => True

instance (w : World) (e : Event) : Decidable (ResumeCoversAck w e) :=
  match e with
  | .apply s =>
    match h : (w.ep s).writerCmd with
    | .attach t _ :: _ =>
      decidable_of_iff (∀ p ∈ (w.transport t).point s, (w.ep s).recovery.lastAckSent ≤ p)
        (by simp only [ResumeCoversAck, h]; rfl)
    | .detach _ :: _ | [] => isTrue (by simp only [ResumeCoversAck, h])
  | .dial | .respond _ | .attach _ _ | .spawnReader _ _ | .detach _ _ | .send _ _ | .takeAck _ _
  | .writeNext _ | .writePing _ | .stageDetached _ | .writeDone _ _ | .flushFail _ | .startReader _ _
  | .read _ _ _ | .accept _ _ | .note _ _ _ | .stop _ _ | .breakTransport _ _ => isTrue trivial

/-! ### Steps that take no acknowledgement -/

/-- What most steps of an endpoint keep. -/
structure AcksKept (e e' : Endpoint) : Prop where
  acked : e.recovery.replay.lastAcked ≤ e'.recovery.replay.lastAcked
  sent : e'.recovery.lastAckSent = e.recovery.lastAckSent
  writer : e'.writer = e.writer ∨ e'.writer = none
  writing : ∀ k, e.writing = some (.ack k) → e'.writing = some (.ack k) ∨ e'.writer = none
  command : ∀ t k, .attach t k ∈ e'.writerCmd → .attach t k ∈ e.writerCmd

theorem AcksKept.refl (e : Endpoint) : AcksKept e e :=
  ⟨Nat.le_refl _, rfl, .inl rfl, fun _ h => .inl h, fun _ _ h => h⟩

theorem AcksKept.of_ready {e e' : Endpoint} (hr : e.writing = none)
    (ha : e.recovery.replay.lastAcked ≤ e'.recovery.replay.lastAcked)
    (hs : e'.recovery.lastAckSent = e.recovery.lastAckSent)
    (hw : e'.writer = e.writer ∨ e'.writer = none)
    (hc : ∀ t k, .attach t k ∈ e'.writerCmd → .attach t k ∈ e.writerCmd) : AcksKept e e' :=
  ⟨ha, hs, hw, fun k hk => absurd (hr.symm.trans hk) (by simp), hc⟩

variable {w w' : World} {s x : RecoveryRole} {t : Nat} {ev : Event}

/-- A step that keeps the acknowledgements of both sides, their points and what is in flight. -/
theorem AckFlow.kept (h : AckFlow w s) (hs : AcksKept (w.ep s) (w'.ep s))
    (hp : AcksKept (w.ep s.peer) (w'.ep s.peer))
    (hpoint : ∀ t s p, (w.transport t).point s = some p → (w'.transport t).point s = some p)
    (hbroken : ∀ t, (w'.transport t).broken = false → (w.transport t).broken = false ∧
      ∀ k, .ack k ∈ (w.lane t s).wire → .ack k ∈ (w'.lane t s).wire) : AckFlow w' s := by
  refine ⟨fun t k hk => ?_, fun t hw => ?_, fun t hw hb => ?_⟩
  · obtain ⟨hk, hown⟩ := h.command t k (hs.command t k hk)
    obtain ⟨p, hown⟩ := Option.isSome_iff_exists.mp hown
    exact ⟨hpoint t _ k hk, Option.isSome_iff_exists.mpr ⟨p, hpoint t _ p hown⟩⟩
  · rcases hs.writer with hsame | hnone
    · obtain ⟨p, hpt, hle⟩ := h.resumed t (hsame ▸ hw)
      exact ⟨p, hpoint t _ p hpt, Nat.le_trans hle hs.acked⟩
    · rw [hnone] at hw
      cases hw
  · obtain ⟨hb', hlane⟩ := hbroken t hb
    rcases hp.writer with hsame | hnone
    · simp only [Covered, hp.sent]
      rcases h.covered t (hsame ▸ hw) hb' with ha | ⟨p, hpt, hle⟩ | ⟨k, hk, hm⟩ | ⟨k, hk, hwr⟩
      · exact .inl (Nat.le_trans ha hs.acked)
      · exact .inr (.inl ⟨p, hpoint t _ p hpt, hle⟩)
      · exact .inr (.inr (.inl ⟨k, hk, hlane k hm⟩))
      · rcases hp.writing k hwr with hwr | hnone
        · exact .inr (.inr (.inr ⟨k, hk, hwr⟩))
        · rw [hnone] at hw
          cases hw
    · rw [hnone] at hw
      cases hw

theorem ackFlow_setEp {e : Endpoint} (h : ∀ s, AckFlow w s) (hk : AcksKept (w.ep x) e) :
    ∀ s, AckFlow (w.setEp x e) s := by
  have hep : ∀ s, AcksKept (w.ep s) ((w.setEp x e).ep s) := by
    intro s
    by_cases hs : s = x
    · subst hs
      rwa [World.setEp_ep_self]
    · rw [World.setEp_ep_ne hs]
      exact .refl _
  exact fun s => (h s).kept (hep s) (hep s.peer) (fun _ _ _ hp => hp) fun t hb => ⟨hb, fun k hk => hk⟩

theorem ackFlow_setLane {l : Lane} (h : ∀ s, AckFlow w s)
    (hl : ∀ k, .ack k ∈ (w.lane t x).wire → .ack k ∈ l.wire) :
    ∀ s, AckFlow (w.setLane t x l) s := by
  refine fun s => (h s).kept (.refl _) (.refl _) (fun _ _ _ hp => hp) fun t' hb => ⟨hb, fun k hk => ?_⟩
  by_cases ht : t' = t ∧ s = x
  · obtain ⟨rfl, rfl⟩ := ht
    rw [World.setLane_lane_self]
    exact hl k hk
  · rwa [World.setLane_lane_ne (not_and_or.mp ht)]

/-! ### The operations of an endpoint -/

section operations

variable {e e' : Endpoint}

theorem Endpoint.stage_kept (e : Endpoint) (frame : Frame) :
    (e.stage frame).2.recovery.replay.lastAcked = e.recovery.replay.lastAcked ∧
      (e.stage frame).2.recovery.lastAckSent = e.recovery.lastAckSent ∧
      (e.stage frame).2.writer = e.writer ∧ (e.stage frame).2.writerCmd = e.writerCmd := by
  simp only [Endpoint.stage]
  split
  · rename_i record replay hst
    refine ⟨?_, rfl, rfl, rfl⟩
    simp only [ReplayBuffer.stage] at hst
    repeat' split at hst
    all_goals cases hst
    rfl
  · exact ⟨rfl, rfl, rfl, rfl⟩
  · exact ⟨rfl, rfl, rfl, rfl⟩

theorem Endpoint.writeLive_kept (e : Endpoint) (frame : Frame) :
    (e.writeLive frame).recovery.replay.lastAcked = e.recovery.replay.lastAcked ∧
      (e.writeLive frame).recovery.lastAckSent = e.recovery.lastAckSent ∧
      (e.writeLive frame).writer = e.writer ∧ (e.writeLive frame).writerCmd = e.writerCmd := by
  have h := e.stage_kept frame
  rw [Endpoint.writeLive]
  revert h
  obtain ⟨record, e'⟩ := e.stage frame
  intro h
  cases record with
  | none => exact h
  | some record => simp only; split <;> exact h

theorem acksKept_writeNext (hr : e.writing = none) (he : e.writeNext = some e') : AcksKept e e' := by
  simp only [Endpoint.writeNext] at he
  split at he
  · split at he <;> cases he <;>
      exact .of_ready hr (Nat.le_refl _) rfl (.inl rfl) fun _ _ h => h
  · split at he
    · cases he
      obtain ⟨ha, hs, hw, hc⟩ := Endpoint.writeLive_kept { e with held := none } ‹Frame›
      exact .of_ready hr (Nat.le_of_eq ha.symm) hs (.inl hw) fun t k hk => hc ▸ hk
    · cases he
      rename_i frame outbound _ _
      obtain ⟨ha, hs, hw, hc⟩ := Endpoint.writeLive_kept { e with outbound := outbound } frame
      exact .of_ready hr (Nat.le_of_eq ha.symm) hs (.inl hw) fun t k hk => hc ▸ hk
    · cases he

theorem acksKept_stageDetached (hr : e.writing = none) (he : e.stageDetached = some e') :
    AcksKept e e' := by
  simp only [Endpoint.stageDetached] at he
  split at he
  · cases he
    rename_i frame outbound _ _
    obtain ⟨ha, hs, hw, hc⟩ := Endpoint.stage_kept { e with outbound := outbound } frame
    exact .of_ready hr (Nat.le_of_eq ha.symm) hs (.inl hw) fun t k hk => hc ▸ hk
  · cases he

theorem acksKept_ackReceived (k : Nat) :
    AcksKept e { e with recovery := e.recovery.ackReceived k } := by
  refine ⟨?_, rfl, .inl rfl, fun _ h => .inl h, fun _ _ h => h⟩
  simp only [RecoveryState.ackReceived, ReplayBuffer.lastAcked_ack]
  exact Nat.le_max_left _ _

theorem acksKept_noteReceived (now seq : Nat) :
    AcksKept e { e with recovery := (e.recovery.noteReceived now seq).2 } := by
  refine ⟨?_, ?_, .inl rfl, fun _ h => .inl h, fun _ _ h => h⟩
  · simp only [RecoveryState.replay_noteReceived, Nat.le_refl]
  · exact RecoveryState.lastAckSent_noteReceived now seq

end operations

/-! ### The steps that move an acknowledgement -/

theorem announce_point (hnone : (w.transport t).point x = none) (t' : Nat) (s : RecoveryRole) (p : Nat)
    (hp : (w.transport t').point s = some p) : ((w.announce t x).transport t').point s = some p := by
  rw [World.announce]
  by_cases ht : t' = t
  · subst ht
    rw [World.setTransport_transport_self]
    by_cases hs : s = x
    · subst hs
      rw [hnone] at hp
      cases hp
    · simpa [Function.update_of_ne hs] using hp
  · rwa [World.setTransport_transport_ne ht]

theorem announce_broken (t' : Nat) :
    ((w.announce t x).transport t').broken = (w.transport t').broken := by
  rw [World.announce]
  refine World.setTransport_same _ (·.broken) ?_ t'
  rfl

/-- Announcing a resume point for the first time. -/
theorem ackFlow_announce (h : ∀ s, AckFlow w s) (hnone : (w.transport t).point x = none) :
    ∀ s, AckFlow (w.announce t x) s := fun s =>
  (h s).kept (.refl _) (.refl _) (announce_point hnone) fun t' hb =>
    ⟨(announce_broken t').symm.trans hb, fun _ hk => hk⟩

/-- Commands that attach transports whose points are announced. -/
theorem ackFlow_command (h : ∀ s, AckFlow w s) (x : RecoveryRole) (cmds : List WriterCommand)
    (hc : ∀ t k, .attach t k ∈ cmds →
      (w.transport t).point x.peer = some k ∧ ((w.transport t).point x).isSome) :
    ∀ s, AckFlow (w.setEp x { w.ep x with writerCmd := cmds }) s := by
  have hep : ∀ s, ((w.setEp x { w.ep x with writerCmd := cmds }).ep s).recovery = (w.ep s).recovery ∧
      ((w.setEp x { w.ep x with writerCmd := cmds }).ep s).writer = (w.ep s).writer ∧
      ((w.setEp x { w.ep x with writerCmd := cmds }).ep s).writing = (w.ep s).writing := by
    intro s
    by_cases hs : s = x
    · subst hs
      simp
    · simp [World.setEp_ep_ne hs]
  intro s
  refine ⟨fun t k hk => ?_, fun t hw => ?_, fun t hw hb => ?_⟩
  · by_cases hs : s = x
    · subst hs
      exact hc t k (by simpa using hk)
    · exact (h s).command t k (by simpa [World.setEp_ep_ne hs] using hk)
  · rw [(hep s).2.1] at hw
    rw [(hep s).1]
    exact (h s).resumed t hw
  · rw [(hep _).2.1] at hw
    rw [Covered, (hep _).1, (hep _).1, (hep _).2.2]
    exact (h s).covered t hw hb

theorem resumedRecovery_eq (w : World) (x : RecoveryRole) :
    (w.resumedRecovery x).replay = (w.ep x).recovery.replay ∧
      (w.resumedRecovery x).lastAckSent = (w.ep x).recovery.lastAckSent := by
  cases x <;> exact ⟨rfl, rfl⟩

theorem ackFlow_attach (h : ∀ s, AckFlow w s) (hs : w.step (.attach x t) = some w') :
    ∀ s, AckFlow w' s := by
  simp only [World.step] at hs
  split at hs
  · rename_i own resumeSeq hown hpeer
    split at hs
    · cases hs
    · obtain rfl := Option.some.inj hs
      let tr := { w.transport t with attached := Function.update (w.transport t).attached x true }
      have hpoint : ∀ t', ((w.setTransport t tr).transport t').point = (w.transport t').point ∧
          ((w.setTransport t tr).transport t').broken = (w.transport t').broken := by
        intro t'
        exact ⟨World.setTransport_same tr (·.point) rfl t', World.setTransport_same tr (·.broken) rfl t'⟩
      have h₁ : ∀ s, AckFlow (w.setTransport t tr) s := fun s => (h s).kept (.refl _) (.refl _)
        (fun t' s p hp => by rw [(hpoint t').1]; exact hp)
        fun t' hb => ⟨(hpoint t').2.symm.trans hb, fun _ hk => hk⟩
      -- The new options of a client concern neither side's acknowledgements.
      have hkept : AcksKept (w.ep x) { w.ep x with recovery := w.resumedRecovery x } := by
        obtain ⟨hreplay, hsent⟩ := resumedRecovery_eq w x
        exact ⟨Nat.le_of_eq (by rw [hreplay]), hsent, .inl rfl, fun _ hk => .inl hk, fun _ _ hk => hk⟩
      have h₂ := ackFlow_command (ackFlow_setEp h₁ hkept) x
        ((w.ep x).writerCmd ++ [.attach t resumeSeq]) fun t' k hk => ?_
      · simpa [World.setEp] using h₂
      · rw [World.setEp_transport, (hpoint t').1]
        rcases List.mem_append.mp hk with hk | hk
        · exact (h x).command t' k hk
        · cases List.mem_singleton.mp hk
          exact ⟨hpeer, by rw [hown]; rfl⟩
  · cases hs

/-- Reading a packet: an ACK that is read is one the sender has from now on. -/
theorem ackFlow_read {now : Nat} (h : ∀ s, AckFlow w s) (hs : w.step (.read x t now) = some w') :
    ∀ s, AckFlow w' s := by
  simp only [World.step] at hs
  split at hs
  · rename_i m packet wire hpc hwire
    cases hs
    have hkept : AcksKept (w.ep x) (handlePacket (w.ep x) m now packet).1 := by
      cases packet with
      | ack k => exact acksKept_ackReceived k
      | ping => exact .refl _
      | data r =>
          simp only [handlePacket]
          split
          · exact ⟨Nat.le_refl _, rfl, .inl rfl, fun _ hk => .inl hk, fun _ _ hk => hk⟩
          · exact acksKept_noteReceived now r.seq
          · exact ⟨Nat.le_refl _, rfl, .inl rfl, fun _ hk => .inl hk, fun _ _ hk => hk⟩
    have h₁ := ackFlow_setEp h hkept
    intro s
    by_cases hsx : s = x
    · subst hsx
      refine ⟨(h₁ s).command, (h₁ s).resumed, fun t' hw hb => ?_⟩
      rcases (h₁ s).covered t' hw hb with ha | hp | ⟨k, hk, hm⟩ | hwr
      · exact .inl ha
      · exact .inr (.inl hp)
      · by_cases ht : t' = t
        · subst ht
          rw [World.setEp_lane, hwire] at hm
          rcases List.mem_cons.mp hm with rfl | hm
          · refine .inl (Nat.le_trans hk ?_)
            simp only [World.readerGoesOn, World.setLane_ep, World.setEp_ep_self, handlePacket,
              RecoveryState.ackReceived, ReplayBuffer.lastAcked_ack]
            exact Nat.le_max_right _ _
          · refine .inr (.inr (.inl ⟨k, hk, ?_⟩))
            rw [World.readerGoesOn, World.setLane_lane_self]
            exact hm
        · refine .inr (.inr (.inl ⟨k, hk, ?_⟩))
          rwa [World.readerGoesOn, World.setLane_lane_ne (.inl ht)]
      · exact .inr (.inr (.inr hwr))
    · refine (h₁ s).kept (.refl _) (.refl _) (fun _ _ _ hp => hp) fun t' hb => ⟨hb, fun k hk => ?_⟩
      rwa [World.readerGoesOn, World.setLane_lane_ne (.inr hsx)]
  · cases hs

/-- Applying a command of the queue. -/
theorem ackFlow_apply {cmd : WriterCommand} {rest : List WriterCommand} (hF : FlowInv w)
    (h : ∀ s, AckFlow w s) (hc : (w.ep x).writerCmd = cmd :: rest) (hr : (w.ep x).writing = none)
    (hC : ResumeCoversAck w (.apply x)) :
    ∀ s, AckFlow (w.setEp x ({ w.ep x with writerCmd := rest }.apply cmd)) s := by
  have hrest : ∀ t k, .attach t k ∈ rest → .attach t k ∈ (w.ep x).writerCmd :=
    fun t k hk => hc ▸ List.mem_cons_of_mem _ hk
  cases cmd with
  | detach t =>
      refine ackFlow_setEp h ?_
      simp only [Endpoint.apply]
      split
      · exact .of_ready hr (Nat.le_refl _) rfl (.inr rfl) hrest
      · exact .of_ready hr (Nat.le_refl _) rfl (.inl rfl) hrest
  | attach t k =>
      obtain ⟨hpeer, hown⟩ := (h x).command t k (hc ▸ List.mem_cons_self)
      obtain ⟨own, hown⟩ := Option.isSome_iff_exists.mp hown
      -- Without the new transport, the step takes no acknowledgement.
      let e : Endpoint := { { w.ep x with writerCmd := rest }.apply (.attach t k) with
        writer := none }
      have hkept : AcksKept (w.ep x) e := by
        refine .of_ready hr ?_ rfl (.inr rfl) hrest
        simp only [e, Endpoint.apply, RecoveryState.prepareResume, ReplayBuffer.lastAcked_ack]
        exact Nat.le_max_left _ _
      have h₁ := ackFlow_setEp h hkept
      intro s
      rcases x.eq_or_eq_peer s with rfl | rfl
      · refine ⟨fun t' k' hk' => (h₁ s).command t' k' (by simpa [e] using hk'), fun t' hw => ?_,
          fun t' hw hb => ?_⟩
        · simp only [World.setEp_ep_self, Endpoint.apply, Option.some.injEq] at hw
          subst hw
          have hle : k ≤ (w.ep s).nextSendSeq := by
            rw [(hF.endpoint s).seq]
            exact Nat.le_trans ((hF.endpoint s).command _ _ (hc ▸ List.mem_cons_self)) (hF.received_le s)
          refine ⟨k, hpeer, ?_⟩
          simp only [World.setEp_ep_self, Endpoint.apply, RecoveryState.prepareResume,
            ReplayBuffer.lastAcked_ack]
          omega
        · have hcov := (h₁ s).covered t' (by simpa using hw) hb
          simpa [Covered, e] using hcov
      · refine ⟨fun t' k' hk' => (h₁ x.peer).command t' k' (by simpa using hk'), fun t' hw => ?_,
          fun t' hw hb => ?_⟩
        · have hres := (h₁ x.peer).resumed t' (by simpa using hw)
          simpa using hres
        · -- The endpoint has announced all that it has acknowledged on the new transport.
          simp only [RecoveryRole.peer_peer, World.setEp_ep_self, Endpoint.apply,
            Option.some.injEq] at hw
          subst hw
          refine .inr (.inl ⟨own, by simpa using hown, ?_⟩)
          simp only [ResumeCoversAck, hc] at hC
          simpa [Endpoint.apply, RecoveryState.prepareResume] using hC own hown

/-- Taking an ACK. -/
theorem ackFlow_takeAck {now : Nat} (h : ∀ s, AckFlow w s) (hr : (w.ep x).writing = none) :
    ∀ s, AckFlow (w.setEp x ((w.ep x).takeAck now)) s := by
  cases hack : ((w.ep x).recovery.takePendingAck now).1 with
  | none =>
      refine ackFlow_setEp h (.of_ready hr (Nat.le_of_eq ?_) ?_ (.inl rfl) fun _ _ hk => hk)
      · simp only [Endpoint.takeAck, RecoveryState.replay_takePendingAck]
      · exact RecoveryState.takePendingAck_none hack
  | some k =>
      obtain ⟨-, hsent⟩ := RecoveryState.takePendingAck_some hack
      intro s
      rcases x.eq_or_eq_peer s with rfl | rfl
      · refine ⟨fun t' k' hk' => (h s).command t' k' (by simpa [Endpoint.takeAck] using hk'),
          fun t' hw => ?_, fun t' hw hb => ?_⟩
        · have hres := (h s).resumed t' (by simpa [Endpoint.takeAck] using hw)
          simpa [Endpoint.takeAck] using hres
        · have hcov := (h s).covered t' (by simpa using hw) hb
          simpa [Covered, Endpoint.takeAck] using hcov
      · refine ⟨fun t' k' hk' => (h x.peer).command t' k' (by simpa using hk'), fun t' hw => ?_,
          fun t' hw hb => ?_⟩
        · have hres := (h x.peer).resumed t' (by simpa using hw)
          simpa using hres
        · refine .inr (.inr (.inr ⟨k, ?_, ?_⟩))
          · simp [Endpoint.takeAck, hsent]
          · simp [Endpoint.takeAck, hack]

theorem sent_eq (e : Endpoint) (packet : Packet) :
    (e.sent packet).recovery = e.recovery ∧ (e.sent packet).writer = e.writer ∧
      (e.sent packet).writerCmd = e.writerCmd ∧ (e.sent packet).writing = none := by
  cases packet <;> exact ⟨rfl, rfl, rfl, rfl⟩

/-- The end of a write puts an ACK on its way, or drops the transport. -/
theorem ackFlow_writeDone {ok : Bool} (h : ∀ s, AckFlow w s) (hs : w.writeDone x ok = some w') :
    ∀ s, AckFlow w' s := by
  simp only [World.writeDone] at hs
  split at hs
  · rename_i t packet hwriter hwriting
    obtain ⟨hrec, hw, hcmd, -⟩ := sent_eq (w.ep x) packet
    -- The endpoint after the write, if what it was writing is in flight unless the transport broke.
    have hok : ∀ w₁ : World, w₁.ep = (w.setEp x ((w.ep x).sent packet)).ep →
        w₁.transport = w.transport →
        (∀ t' s k, .ack k ∈ (w.lane t' s).wire → .ack k ∈ (w₁.lane t' s).wire) →
        ((w.transport t).broken = false → packet ∈ (w₁.lane t x.peer).wire) →
        ∀ s, AckFlow w₁ s := by
      intro w₁ hep htr hlane hpacket s
      rcases x.eq_or_eq_peer s with rfl | rfl
      · refine ⟨fun t' k hk => ?_, fun t' hw' => ?_, fun t' hw' hb => ?_⟩
        · rw [hep, World.setEp_ep_self, hcmd] at hk
          rw [htr]
          exact (h s).command t' k hk
        · rw [hep, World.setEp_ep_self, hw] at hw'
          rw [htr, hep, World.setEp_ep_self, hrec]
          exact (h s).resumed t' hw'
        · rw [hep, World.setEp_ep_peer] at hw'
          rw [htr] at hb
          simp only [Covered, hep, htr, World.setEp_ep_self, World.setEp_ep_peer, hrec]
          rcases (h s).covered t' hw' hb with ha | hp | ⟨k, hk, hm⟩ | hwr
          · exact .inl ha
          · exact .inr (.inl hp)
          · exact .inr (.inr (.inl ⟨k, hk, hlane t' s k hm⟩))
          · exact .inr (.inr (.inr hwr))
      · refine ⟨fun t' k hk => ?_, fun t' hw' => ?_, fun t' hw' hb => ?_⟩
        · rw [hep, World.setEp_ep_peer] at hk
          rw [htr]
          exact (h x.peer).command t' k hk
        · rw [hep, World.setEp_ep_peer] at hw'
          rw [htr, hep, World.setEp_ep_peer]
          exact (h x.peer).resumed t' hw'
        · rw [hep, RecoveryRole.peer_peer, World.setEp_ep_self, hw] at hw'
          obtain rfl : t = t' := Option.some.inj (hwriter.symm.trans hw')
          rw [htr] at hb
          have hcov := (h x.peer).covered t (by rwa [RecoveryRole.peer_peer]) hb
          simp only [Covered, RecoveryRole.peer_peer] at hcov
          simp only [Covered, hep, htr, RecoveryRole.peer_peer, World.setEp_ep_self,
            World.setEp_ep_peer, hrec]
          rcases hcov with ha | hp | ⟨k, hk, hm⟩ | ⟨k, hk, hwr⟩
          · exact .inl ha
          · exact .inr (.inl hp)
          · exact .inr (.inr (.inl ⟨k, hk, hlane t x.peer k hm⟩))
          · obtain rfl : packet = .ack k := Option.some.inj (hwriting.symm.trans hwr)
            exact .inr (.inr (.inl ⟨k, hk, hpacket hb⟩))
    split at hs
    · split at hs
      · rename_i hbroken
        cases hs
        exact hok _ rfl rfl (fun _ _ _ hk => hk) fun hb => by rw [hbroken] at hb; cases hb
      · cases hs
        refine hok _ rfl rfl (fun t' s k hk => ?_) fun _ => ?_
        · by_cases ht : t' = t ∧ s = x.peer
          · obtain ⟨rfl, rfl⟩ := ht
            rw [World.setLane_lane_self]
            exact List.mem_append_left _ hk
          · rwa [World.setLane_lane_ne (not_and_or.mp ht)]
        · rw [World.setLane_lane_self]
          exact List.mem_append_right _ List.mem_cons_self
    · cases hs
      exact ackFlow_setEp h
        ⟨Nat.le_refl _, rfl, .inr rfl, fun _ _ => .inr rfl, fun _ _ hk => hk⟩
  · cases hs

/-! ### The invariant -/

structure AcksInv (w : World) : Prop where
  flow : FlowInv w
  acks : ∀ s, AckFlow w s
  fresh : Fresh w

theorem acksInv_step (hI : AcksInv w) (hC : ResumeCoversAck w ev) (h : machine.step w ev = some w') :
    AcksInv w' := by
  refine ⟨flowInv_step hI.flow h, ?_, fresh_step hI.fresh h⟩
  have ha := hI.acks
  -- Whatever the writer begins it begins with nothing in its hands.
  have hready : ∀ s, w.writerReady s = true → (w.ep s).writing = none := fun s hr => by
    simpa [World.writerReady] using hr
  cases ev with
  | dial =>
      cases h
      exact fun s => (ackFlow_announce ha (hI.fresh.point _ _ (Nat.le_refl _)) s).kept (.refl _) (.refl _)
        (fun _ _ _ hp => hp) fun _ hb => ⟨hb, fun _ hk => hk⟩
  | respond t =>
      simp only [machine, World.step] at h
      split at h
      · rename_i hpt
        cases h
        exact ackFlow_announce ha hpt.2
      · cases h
  | attach s t => exact ackFlow_attach ha h
  | spawnReader s t =>
      simp only [machine, World.step] at h
      split at h <;> cases h
      exact ackFlow_setLane ha fun _ hk => hk
  | detach s t =>
      simp only [machine, World.step] at h
      split at h <;> cases h
      refine ackFlow_command ha s _ fun t' k hk => ?_
      rcases List.mem_append.mp hk with hk | hk
      · exact (ha s).command t' k hk
      · cases List.mem_singleton.mp hk
  | send s frame =>
      cases h
      exact ackFlow_setEp ha ⟨Nat.le_refl _, rfl, .inl rfl, fun _ hk => .inl hk, fun _ _ hk => hk⟩
  | apply s =>
      simp only [machine, World.step] at h
      split at h
      · split at h <;> cases h
        exact ackFlow_apply hI.flow ha ‹_› (hready s ‹_›) hC
      · cases h
  | takeAck s now =>
      simp only [machine, World.step] at h
      split at h
      · rename_i hr
        cases h
        exact ackFlow_takeAck ha (hready s hr.1)
      · cases h
  | writeNext s =>
      simp only [machine, World.step] at h
      split at h
      · rename_i hr
        obtain ⟨e, he, rfl⟩ := Option.map_eq_some_iff.mp h
        exact ackFlow_setEp ha (acksKept_writeNext (hready s hr.1) he)
      · cases h
  | writePing s =>
      simp only [machine, World.step] at h
      split at h
      · rename_i hr
        cases h
        exact ackFlow_setEp ha
          (.of_ready (hready s hr.1) (Nat.le_refl _) rfl (.inl rfl) fun _ _ hk => hk)
      · cases h
  | stageDetached s =>
      simp only [machine, World.step] at h
      split at h
      · rename_i hr
        obtain ⟨e, he, rfl⟩ := Option.map_eq_some_iff.mp h
        exact ackFlow_setEp ha (acksKept_stageDetached (hready s hr.1) he)
      · cases h
  | writeDone s ok => exact ackFlow_writeDone ha h
  | flushFail s =>
      simp only [machine, World.step] at h
      split at h
      · rename_i hr
        cases h
        exact ackFlow_setEp ha (.of_ready (hready s hr) (Nat.le_refl _) rfl (.inr rfl) fun _ _ hk => hk)
      · cases h
  | startReader s t =>
      simp only [machine, World.step] at h
      split at h <;> cases h
      exact ackFlow_setLane ha fun _ hk => hk
  | read s t now => exact ackFlow_read ha h
  | accept s t =>
      simp only [machine, World.step] at h
      split at h <;> cases h
      refine ackFlow_setLane (ackFlow_setEp ha ?_) fun _ hk => hk
      exact ⟨Nat.le_refl _, rfl, .inl rfl, fun _ hk => .inl hk, fun _ _ hk => hk⟩
  | note s t now =>
      simp only [machine, World.step] at h
      split at h <;> cases h
      exact ackFlow_setLane (ackFlow_setEp ha (acksKept_noteReceived now _)) fun _ hk => hk
  | stop s t =>
      simp only [machine, World.step] at h
      split at h <;> cases h
      · exact ackFlow_setLane ha fun _ hk => hk
      · exact ackFlow_setLane ha fun _ hk => hk
      · refine ackFlow_setLane (ackFlow_setEp ha ?_) fun _ hk => hk
        exact ⟨Nat.le_refl _, rfl, .inl rfl, fun _ hk => .inl hk, fun _ _ hk => hk⟩
  | breakTransport t keep =>
      cases h
      let tr := { w.transport t with broken := true }
      refine fun s => (ha s).kept (.refl _) (.refl _) (fun t' s' p hp => ?_) fun t' hb => ?_
      · exact (congrFun (World.setTransport_same tr (·.point) rfl t') s').trans hp
      · -- A broken transport loses its packets; the other lanes are as they were.
        by_cases ht : t' = t
        · subst ht
          simp at hb
        · simp only [World.setTransport_transport_ne ht] at hb
          exact ⟨hb, fun k hk => by simpa only [Function.update_of_ne ht] using hk⟩

theorem acksInv_reachable (h : machine.ReachableUnder ResumeCoversAck w) : AcksInv w := by
  refine h.invariant ?_ fun _ _ _ hI hC hs => acksInv_step hI hC hs
  rintro _ ⟨negotiated, headerLen, maxReplayBytes, rfl⟩
  refine ⟨flowInv_initial _ _ _, fun s => ⟨?_, ?_, ?_⟩, fresh_initial _ _ _⟩
  · simp [World.initial, Endpoint.new]
  · simp [World.initial, Endpoint.new]
  · simp [World.initial, Endpoint.new]

/-! ### The result -/

/-- Both sides are attached to `t`, nothing is in flight, no writer has anything left to write and
no ACK is scheduled. -/
structure Quiescent (w : World) (t : Nat) : Prop where
  attached : ∀ s, (w.ep s).writer = some t
  intact : (w.transport t).broken = false
  empty : ∀ t' < w.dialed, ∀ s, (w.lane t' s).wire = []
  written : ∀ s, (w.ep s).writing = none ∧ (w.ep s).resume = [] ∧
    ((w.ep s).held = none → (w.ep s).outbound = [])
  unscheduled : ∀ s, ¬(w.ep s).recovery.AckScheduled

/-- Each sender has the acknowledgement of all that its peer has received, and of all that the peer
has acknowledged. -/
def Converged (w : World) : Prop :=
  ∀ s, (w.ep s).recovery.replay.lastAcked = (w.ep s.peer).recovery.lastRecvSeq ∧
    (w.ep s).recovery.replay.lastAcked = (w.ep s.peer).recovery.lastAckSent

/-- With nothing in flight to a side, nothing being written to it and no ACK due to it, it has all the
acknowledgements of its peer. -/
theorem AcksInv.acked (hI : AcksInv w) (hattached : ∀ s, (w.ep s).writer = some t)
    (hintact : (w.transport t).broken = false) (hempty : (w.lane t s).wire = [])
    (hwriting : (w.ep s.peer).writing = none) (hdue : ¬(w.ep s.peer).recovery.AckScheduled) :
    (w.ep s).recovery.replay.lastAcked = (w.ep s.peer).recovery.lastRecvSeq ∧
      (w.ep s).recovery.replay.lastAcked = (w.ep s.peer).recovery.lastAckSent := by
  have hflow := hI.flow.endpoint s
  have hpeer := (hI.flow.endpoint s.peer).ack
  -- Nothing is owed, so the last ACK is for the last frame received.
  have hsent : (w.ep s.peer).recovery.lastAckSent = (w.ep s.peer).recovery.lastRecvSeq :=
    Nat.le_antisymm hpeer.sent_le (Nat.le_of_not_lt fun hlt => hdue (hpeer.scheduled hlt))
  have hle : (w.ep s.peer).recovery.lastAckSent ≤ (w.ep s).recovery.replay.lastAcked := by
    rcases (hI.acks s).covered t (hattached s.peer) hintact with ha | ⟨p, hp, hle⟩ | ⟨k, -, hm⟩ |
      ⟨k, -, hwr⟩
    · exact ha
    · obtain ⟨p', hp', hle'⟩ := (hI.acks s).resumed t (hattached s)
      obtain rfl : p = p' := Option.some.inj (hp.symm.trans hp')
      exact Nat.le_trans hle hle'
    · rw [hempty] at hm
      cases hm
    · rw [hwriting] at hwr
      cases hwr
  have hacked := hflow.acked
  omega

/-- **Acknowledgements converge**, in every run whose writers attach a transport only when the
resume point announced on it covers the last ACK sent. -/
theorem acks_converge (h : machine.ReachableUnder ResumeCoversAck w) (hq : Quiescent w t) :
    Converged w := by
  have hI := acksInv_reachable h
  intro s
  obtain ⟨p, hp, -⟩ := (hI.acks s).resumed t (hq.attached s)
  exact hI.acked hq.attached hq.intact (hq.empty t (hI.fresh.dialed_of_point hp) s)
    (hq.written s.peer).1 (hq.unscheduled s.peer)

/-! ### An acknowledgement on either side of a resume -/

/-- The server takes the frame from a transport and writes its ACK. -/
def ackRun (t : Nat) : List Event :=
  [.read .server t 1, .accept .server t, .note .server t 2, .takeAck .server 3,
    .writeDone .server true]

/-- The frame is lost with the first transport, and acknowledged on the next. -/
def ackedRun : List Event := firstFrameRun ++ replayRun ++ ackRun 1 ++ [.read .client 1 4]

def ackedWorld : World := (machine.exec eager ackedRun).getD eager

theorem acks_converge_acked :
    Converged ackedWorld ∧ (ackedWorld.ep .client).recovery.replay.lastAcked = 1 :=
  have hq : Quiescent ackedWorld 1 := ⟨by decide, by decide, by decide, by decide, by decide⟩
  ⟨acks_converge (.exec ackedRun (.init init_eager) rfl (by decide)) hq, by decide⟩

/-- The client loses the transport and resumes.  The server's old reader and writer take the frame
and write its ACK after the response to the resume; the frame is replayed on the new transport as a
duplicate. -/
def lostAckRun : List Event :=
  firstFrameRun ++ [Event.stop .client 0, .detach .client 0, .apply .client, .dial, .respond 1] ++
    ackRun 0 ++ [Event.breakTransport 0 fun _ => 0, .stop .server 0] ++ attachBoth 1 ++
    [Event.writeNext .client, .writeDone .client true, .read .server 1 5]

def lostAckWorld : World := (machine.exec eager lostAckRun).getD eager

/-- At rest the server has acknowledged the frame, and the client waits for that. -/
theorem ack_lost : ¬∀ w t, machine.Reachable w → Quiescent w t → Converged w := by
  intro hall
  have hr : machine.Reachable lostAckWorld := Machine.reachable_of_exec lostAckRun init_eager rfl
  have hc := hall lostAckWorld 1 hr ⟨by decide, by decide, by decide, by decide, by decide⟩ .client
  exact absurd hc.1 (by decide)

end AdaptiveMsg.Protocol
