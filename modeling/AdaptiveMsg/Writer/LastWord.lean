import AdaptiveMsg.Writer.Numbers

/-!
# Writer — CLOSE is the last word

What is left to write on a transport is the record in hand and those still to replay (`pending`).
`Attached`: every record kept after the resume point was written, passed over with an acknowledged
number, or is pending; nothing is pending where the writer takes a frame or a marker.

`close_is_last`: whatever ACKs arrive, a CLOSE that was written is the last thing written, behind
all that was queued before its marker and all that the transport had to get (`LastWord`).
-/

namespace AdaptiveMsg.Writer

open World

/-! ### What is left to write -/

/-- The record being written and those to replay. -/
def Pc.pending : Pc → List FrameRecord → List FrameRecord
  | .writing (.record record), resume => record :: resume
  | _, resume => resume

/-- The writer has replayed everything. -/
def Pc.Replayed : Pc → Prop
  | .frame | .flush | .flushing | .parked | .closing | .shutting => True
  | _ => False

/-- The writer was sent here with a transport. -/
def Pc.Writes : Pc → Prop
  | .top | .commands | .detached | .done => False
  | _ => True

/-- The writer is not giving up its transport or stopping. -/
def Pc.Live : Pc → Prop
  | .detaching | .closing | .shutting | .done => False
  | _ => True

/-- The record need not be written to the transport any more. -/
def World.Covers (w : World) (r : FrameRecord) : Prop :=
  r.seq ≤ w.ackedAtAttach ∨ (∃ acked, (r, acked) ∈ w.passed ∧ r.seq ≤ acked) ∨
    (w.gen, .record r) ∈ w.log

/-- What holds while a transport is attached, with `pending` left to write. -/
structure Attached (w : World) (pending : List FrameRecord) : Prop where
  sent_le : w.lastSentSeq ≤ w.nextSendSeq
  increasing : pending.Pairwise fun r r' => r.seq < r'.seq
  after : ∀ r ∈ pending, w.lastSentSeq < r.seq ∧ r ∈ w.kept.map Prod.snd
  cover : ∀ r ∈ w.kept.map Prod.snd, w.point < r.seq → w.Covers r ∨ r ∈ pending

section attached

variable {w w' w₁ : World} {p : List FrameRecord} {e : Event} {queuedTx : Nat} {frame : Frame}

/-- A record passed over is acknowledged: it is after those sent. -/
theorem Attached.pass {record : FrameRecord} {rest : List FrameRecord} (pc : Pc)
    (hA : Attached w (record :: rest))
    (hseq : record.seq ≤ w.lastSentSeq ∨ record.seq ≤ w.recovery.replay.lastAcked) :
    Attached { w with
      resume := rest, passed := w.passed ++ [(record, w.recovery.replay.lastAcked)], pc := pc } rest := by
  refine ⟨hA.sent_le, (List.pairwise_cons.1 hA.increasing).2,
    fun r hr => hA.after r (List.mem_cons_of_mem _ hr), fun r hr hlt => ?_⟩
  have hacked : record.seq ≤ w.recovery.replay.lastAcked := by
    rcases hseq with hle | hle
    · exact absurd (hA.after record List.mem_cons_self).1 (Nat.not_lt.2 hle)
    · exact hle
  rcases hA.cover r hr hlt with hcov | hp
  · refine .inl ?_
    rcases hcov with h | ⟨acked, h, hle⟩ | h
    · exact .inl h
    · exact .inr (.inl ⟨acked, List.mem_append_left _ h, hle⟩)
    · exact .inr (.inr h)
  · rcases List.mem_cons.1 hp with rfl | hp
    · exact .inl (.inr (.inl ⟨_, List.mem_append_right _ List.mem_cons_self, hacked⟩))
    · exact .inr hp

theorem World.Covers.log_append {r : FrameRecord} (h : w.Covers r) (item : Nat × Packet) :
    { w with log := w.log ++ [item] }.Covers r := by
  rcases h with h | h | h
  · exact .inl h
  · exact .inr (.inl h)
  · exact .inr (.inr (List.mem_append_left _ h))

/-- A record written is sent, and the next ones are after it. -/
theorem Attached.wroteRecord {record : FrameRecord} {rest : List FrameRecord}
    (hA : Attached w (record :: rest)) (hle : record.seq ≤ w.nextSendSeq) :
    Attached (w.wrote (.record record)) rest := by
  obtain ⟨hfirst, hrest⟩ := List.pairwise_cons.1 hA.increasing
  refine ⟨hle, hrest, fun r hr => ⟨hfirst r hr, (hA.after r (List.mem_cons_of_mem _ hr)).2⟩,
    fun r hr hlt => ?_⟩
  rcases hA.cover r hr hlt with hcov | hp
  · exact .inl (hcov.log_append _)
  · rcases List.mem_cons.1 hp with rfl | hp
    · exact .inl (.inr (.inr (List.mem_append_right _ List.mem_cons_self)))
    · exact .inr hp

/-- Anything else that is written changes nothing of this. -/
theorem Attached.wroteOther {packet : Packet} (hA : Attached w p)
    (hpacket : ∀ record, packet ≠ .record record) : Attached (w.wrote packet) p := by
  have hsent : (w.wrote packet).lastSentSeq = w.lastSentSeq := by
    cases packet with
    | record record => exact absurd rfl (hpacket record)
    | _ => rfl
  refine ⟨hsent ▸ hA.sent_le, hA.increasing, hsent ▸ hA.after, fun r hr hlt => ?_⟩
  rcases hA.cover r hr hlt with hcov | hp
  · exact .inl (hcov.log_append _)
  · exact .inr hp

/-- A new frame is all that is pending. -/
theorem Attached.keep (hA : Attached w []) (hd : Draws w queuedTx frame w₁) (pc : Pc) :
    Attached { w₁.keep queuedTx frame with pc := pc } [w.record frame] := by
  have hlt : w.lastSentSeq < w.nextSendSeq + 1 := Nat.lt_succ_of_le hA.sent_le
  cases hd with
  | _ =>
      refine ⟨Nat.le_of_lt hlt, List.pairwise_singleton _ _, fun r hr => ?_, fun r hr hpoint => ?_⟩
      · rw [List.mem_singleton.1 hr]
        refine ⟨hlt, ?_⟩
        rw [World.keep, List.map_append]
        exact List.mem_append_right _ List.mem_cons_self
      · rw [World.keep, List.map_append] at hr
        rcases List.mem_append.1 hr with hr | hr
        · rcases hA.cover r hr hpoint with hcov | hp
          · exact .inl hcov
          · cases hp
        · exact .inr hr

/-- After an attach the records to replay are those kept that the peer does not acknowledge. -/
theorem attached_attach (hB : Books w.recovery.replay w.nextSendSeq w.kept) {lastSentSeq : Nat}
    (hle : lastSentSeq ≤ w.nextSendSeq) (gen : Nat) (writerCmds : List WriterCommand) (pc : Pc) :
    Attached { w with
        writerCmds := writerCmds
        gen := gen
        lastSentSeq := lastSentSeq
        resume := (w.recovery.prepareResume lastSentSeq).1
        recovery := (w.recovery.prepareResume lastSentSeq).2
        writer := true
        dirty := false
        point := lastSentSeq
        ackedAtAttach := (w.recovery.prepareResume lastSentSeq).2.replay.lastAcked
        passed := []
        pc := pc } (w.recovery.prepareResume lastSentSeq).1 := by
  have hack := hB.ack lastSentSeq
  have hsnap : (w.recovery.prepareResume lastSentSeq).1 =
      (w.recovery.replay.ack lastSentSeq).replayQueue.filter fun r => lastSentSeq < r.seq :=
    hack.ordered.snapshotFrom_eq lastSentSeq
  rw [hsnap]
  refine ⟨hle, hack.ordered.increasing.filter _, fun r hr => ?_, fun r hr hpoint => ?_⟩
  · obtain ⟨hmem, hlt⟩ := List.mem_filter.1 hr
    exact ⟨of_decide_eq_true hlt, ((hack.buffer r).1 hmem).1⟩
  · rcases Nat.lt_or_ge (w.recovery.replay.ack lastSentSeq).lastAcked r.seq with hlt | hge
    · exact .inr (List.mem_filter.2 ⟨(hack.buffer r).2 ⟨hr, hlt⟩, decide_eq_true hpoint⟩)
    · exact .inl (.inl hge)

end attached

/-! ### Where the writer is -/

/-- Whether there is a transport, and whether all is replayed, by where the writer is. -/
structure Control (w : World) : Prop where
  writes : w.pc.Writes → w.writer = true
  detached : w.pc = .detached → w.writer = false
  replayed : w.pc.Replayed → w.resume = []

section control

variable {w w' : World} {e : Event} {a : Action}

theorem control_idle (h : w.pc = .top ∨ w.pc = .commands ∨ w.pc = .done) : Control w := by
  rcases h with h | h | h <;> refine ⟨fun hp => ?_, fun hp => ?_, fun hp => ?_⟩ <;> rw [h] at hp <;>
    cases hp

theorem control_writing {packet : Packet} (h : w.pc = .writing packet) (hw : w.writer = true) :
    Control w := by
  refine ⟨fun _ => hw, fun hp => ?_, fun hp => ?_⟩ <;> rw [h] at hp <;> cases hp

theorem control_writes (hpc : w.pc.Writes) (hw : w.writer = true)
    (hres : w.pc.Replayed → w.resume = []) : Control w := by
  refine ⟨fun _ => hw, fun h => ?_, hres⟩
  rw [h] at hpc
  exact hpc.elim

theorem Control.of_replayed (hC : Control w) (h : w.pc.Replayed) : w.writer = true ∧ w.resume = [] := by
  refine ⟨hC.writes ?_, hC.replayed h⟩
  revert h
  cases w.pc <;> first | exact fun _ => trivial | exact False.elim

theorem Control.move (hC : Control w) (h : Move w a w') : Control w' := by
  cases h with
  | stop => exact control_idle (.inr (.inr rfl))
  | commands => exact control_idle (.inr (.inl rfl))
  | detached hpc hclosed hw => exact ⟨False.elim, fun _ => hw, False.elim⟩
  | attach hcmds pc hpc =>
      refine control_idle ?_
      rcases hpc with ⟨-, rfl⟩ | ⟨-, rfl⟩
      · exact .inr (.inl rfl)
      · exact .inl rfl
  | detach hcmds pc hpc =>
      refine control_idle ?_
      rcases hpc with ⟨-, rfl⟩ | ⟨-, rfl⟩
      · exact .inr (.inl rfl)
      · exact .inl rfl
  | ack hpc hw => exact control_writes trivial hw False.elim
  | again => exact control_idle (.inl rfl)
  | pending hpc now pc hpc' =>
      have hw : w.writer = true := hC.writes (by rw [hpc]; trivial)
      rcases hpc' with rfl | ⟨seq, rfl⟩
      · exact control_writes trivial hw False.elim
      · exact control_writing rfl hw
  | replayed hpc => exact control_writing rfl (hC.writes (by rw [hpc]; trivial))
  | passed => exact control_idle (.inl rfl)
  | frame hpc hres => exact control_writes trivial (hC.writes (by rw [hpc]; trivial)) fun _ => hres
  | @keep queuedTx frame w₁ hd hfits hfresh pc hpc =>
      rcases hpc with ⟨-, rfl⟩ | ⟨hpc, rfl⟩
      · exact control_idle (.inl rfl)
      · have hw : w.writer = true := hC.writes (by rcases hpc with hpc | hpc <;> rw [hpc] <;> trivial)
        -- A sequence number that was written already sends the writer back to `top`.
        by_cases hlt : w.lastSentSeq < w.nextSendSeq + 1
        · refine control_writing (if_pos hlt) ?_
          cases hd <;> exact hw
        · exact control_idle (.inl (if_neg hlt))
  | hold hd hfits hcan pc hpc =>
      rcases hpc with ⟨hpc, rfl⟩ | ⟨-, rfl⟩
      · obtain ⟨hw, hres⟩ := hC.of_replayed (by rw [hpc]; trivial)
        cases hd <;> exact control_writes trivial hw fun _ => hres
      · exact control_idle (.inl rfl)
  | refuse => exact control_idle (.inl rfl)
  | close hpc =>
      obtain ⟨hw, hres⟩ := hC.of_replayed (by rcases hpc with hpc | hpc <;> rw [hpc] <;> trivial)
      exact control_writes trivial hw fun _ => hres
  | closeDetached => exact control_idle (.inr (.inr rfl))
  | flush hpc =>
      obtain ⟨hw, hres⟩ := hC.of_replayed (by rw [hpc]; trivial)
      exact control_writes trivial hw fun _ => hres
  | flushing hpc =>
      obtain ⟨hw, hres⟩ := hC.of_replayed (by rw [hpc]; trivial)
      exact control_writes trivial hw fun _ => hres
  | parked hpc =>
      obtain ⟨hw, hres⟩ := hC.of_replayed (by rcases hpc with hpc | hpc <;> rw [hpc] <;> trivial)
      exact control_writes trivial hw fun _ => hres
  | wrote => exact control_idle (.inl rfl)
  | fail hpc =>
      -- Only while its transport is the current one does the writer send itself a detach.
      simp only [World.detach]
      split
      · have hw : w.writer = true := hC.writes (by rcases hpc with ⟨packet, hpc⟩ | hpc <;> rw [hpc] <;> trivial)
        exact control_writes trivial hw False.elim
      · exact control_idle (.inl rfl)
  | wroteClose hpc =>
      obtain ⟨hw, hres⟩ := hC.of_replayed (by rw [hpc]; trivial)
      exact control_writes trivial hw fun _ => hres
  | answer => exact control_idle (.inr (.inr rfl))
  | wake => exact control_idle (.inl rfl)
  | wakeDetached =>
      by_cases hclosing : w.closing = true
      · exact control_idle (.inr (.inr (if_pos hclosing)))
      · exact control_idle (.inl (if_neg hclosing))
  | ping hpc => exact control_writing rfl (hC.writes (by rw [hpc]; trivial))
  | detachSend => exact control_idle (.inl rfl)

theorem Control.aside (hC : Control w) (h : Aside w e w') : Control w' := by
  cases h with
  | abort => exact control_idle (.inr (.inr rfl))
  | _ => exact { hC with }

theorem control_reachable (h : machine.Reachable w) : Control w := by
  refine h.invariant (I := Control) ?_ ?_
  · rintro _ ⟨capacity, negotiated, headerLen, maxReplayBytes, rfl⟩
    exact control_idle (.inl rfl)
  · intro w e w' hC _ hs
    rcases step_cases hs with ⟨a, -, hm⟩ | ⟨-, ha⟩
    · exact hC.move hm
    · exact hC.aside ha

end control

/-! ### While a transport is attached -/

/-- Unless the writer is giving up its transport, it knows what is left to write. -/
def World.Tracked (w : World) : Prop :=
  w.writer = true → w.pc.Live → Attached w (w.pc.pending w.resume)

section tracked

variable {w w' : World} {e : Event} {pc : Pc} {a : Action}

theorem World.Tracked.at (hT : w.Tracked) (hpc : w.pc = pc) (hw : w.writer = true) (hl : pc.Live) :
    Attached w (pc.pending w.resume) := by
  subst hpc
  exact hT hw hl

/-- Where all is replayed nothing is pending. -/
theorem World.Tracked.replayed (hT : w.Tracked) (hC : Control w) (hr : w.pc.Replayed)
    (hl : w.pc.Live) : Attached w [] := by
  obtain ⟨hw, hres⟩ := hC.of_replayed hr
  have ha := hT hw hl
  have hnone : w.pc.pending w.resume = [] := by
    rw [hres]
    revert hr
    cases w.pc <;> first | exact fun _ => rfl | exact False.elim
  rwa [hnone] at ha

theorem World.Tracked.move (hT : w.Tracked) (hC : Control w)
    (hB : Books w.recovery.replay w.nextSendSeq w.kept) (h : Move w a w') : w'.Tracked := by
  intro hw' hl
  cases h with
  | stop => exact hl.elim
  | commands hpc hw => exact { hT.at hpc hw trivial with }
  | detached hpc hclosed hw =>
      rw [hw] at hw'
      cases hw'
  | @attach gen resumeSeq rest hcmds pc hpc lastSentSeq hlast =>
      have ha := attached_attach hB (hlast ▸ Nat.min_le_right _ _) gen rest pc
      rcases hpc with ⟨-, rfl⟩ | ⟨-, rfl⟩ <;> exact ha
  | @detach gen rest hcmds pc hpc =>
      have hw : w.writer = true := by
        by_cases hgen : gen = w.gen
        · simp [hgen] at hw'
        · simpa [hgen] using hw'
      rcases hpc with ⟨hpc, rfl⟩ | ⟨hpc | hpc, rfl⟩
      · exact { hT.at hpc hw trivial with }
      · exact { hT.at hpc hw trivial with }
      · exact { hT.at hpc hw trivial with }
  | ack hpc hw => exact { hT.at hpc hw trivial with }
  | again hpc =>
      rcases hpc with hpc | hpc
      · exact { hT.at hpc hw' trivial with }
      · exact { hT.at hpc hw' trivial with }
  | pending hpc now pc hpc' =>
      rcases hpc' with rfl | ⟨seq, rfl⟩
      · exact { hT.at hpc hw' trivial with }
      · exact { hT.at hpc hw' trivial with }
  | @replayed hpc record rest hres hseq =>
      have ha := hT.at hpc hw' trivial
      rw [hres] at ha
      exact { ha with }
  | @passed hpc record rest hres hseq =>
      have ha := hT.at hpc hw' trivial
      rw [hres] at ha
      exact ha.pass .top hseq
  | frame hpc hres => exact { hT.at hpc hw' trivial with }
  | @keep queuedTx frame w₁ hd hfits hfresh pc hpc =>
      rcases hpc with ⟨hpc, rfl⟩ | ⟨hpc, rfl⟩
      · -- No transport is attached.
        have hw : w.writer = true := by cases hd <;> exact hw'
        rw [hC.detached hpc] at hw
        cases hw
      · have ha : Attached w [] := hT.replayed hC (by rcases hpc with hpc | hpc <;> rw [hpc] <;> trivial)
          (by rcases hpc with hpc | hpc <;> rw [hpc] <;> trivial)
        have hres : w.resume = [] := hC.replayed (by rcases hpc with hpc | hpc <;> rw [hpc] <;> trivial)
        have hlt : w.lastSentSeq < w.nextSendSeq + 1 := Nat.lt_succ_of_le ha.sent_le
        have hkeep := ha.keep hd (.writing (.record (w.record frame)))
        rw [if_pos hlt]
        cases hd <;> simpa only [Pc.pending, World.keep, take, hres] using hkeep
  | @hold queuedTx frame w₁ hd hfits hcan pc hpc =>
      have hw : w.writer = true := by cases hd <;> exact hw'
      have ha : Attached w w.resume := by
        rcases hpc with ⟨hpc, -⟩ | ⟨hpc | hpc, -⟩
        · exact hT.at hpc hw trivial
        · exact hT.at hpc hw trivial
        · exact hT.at hpc hw trivial
      rcases hpc with ⟨-, rfl⟩ | ⟨-, rfl⟩ <;> cases hd <;> exact { ha with }
  | @refuse queuedTx frame w₁ hd err herr =>
      have hw : w.writer = true := by cases hd <;> exact hw'
      have ha : Attached w w.resume := by
        cases hd with
        | held hheld hpc => exact hT.at hpc hw trivial
        | head hheld hout hpc =>
            rcases hpc with hpc | hpc | hpc
            · exact hT.at hpc hw trivial
            · exact hT.at hpc hw trivial
            · exact hT.at hpc hw trivial
      cases hd <;> exact { ha with }
  | close => exact hl.elim
  | closeDetached => exact hl.elim
  | flush hpc => exact { hT.at hpc hw' trivial with }
  | flushing hpc => exact { hT.at hpc hw' trivial with }
  | parked hpc =>
      rcases hpc with hpc | hpc
      · exact { hT.at hpc hw' trivial with }
      · exact { hT.at hpc hw' trivial with }
  | @wrote packet hpc =>
      have ha := hT.at hpc hw' trivial
      cases packet with
      | record record => exact ha.wroteRecord (hB.seq_le (ha.after record List.mem_cons_self).2)
      | ack seq | ping | close => exact ha.wroteOther fun record h => by cases h
  | fail =>
      simp only [World.detach] at hw' hl
      split at hl
      · exact hl.elim
      · rw [if_neg ‹_›] at hw'
        cases hw'
  | wroteClose => exact hl.elim
  | answer => exact hl.elim
  | wake ha hpc => exact { hT.at hpc hw' trivial with }
  | wakeDetached ha hpc =>
      have hw : w.writer = true := hw'
      rw [hC.detached hpc] at hw
      cases hw
  | ping hpc => exact { hT.at hpc hw' trivial with }
  | detachSend => cases hw'

theorem World.Tracked.aside (hT : w.Tracked) (h : Aside w e w') : w'.Tracked := by
  intro hw' hl
  cases h with
  | abort => exact hl.elim
  | _ => exact { hT hw' hl with }

theorem tracked_reachable (h : machine.Reachable w) : w.Tracked := by
  refine h.invariant_of (J := fun w => Control w ∧ Books w.recovery.replay w.nextSendSeq w.kept)
    (I := World.Tracked) (fun w h => ⟨control_reachable h, books_reachable h⟩) ?_ ?_
  · rintro _ ⟨capacity, negotiated, headerLen, maxReplayBytes, rfl⟩ hw
    cases hw
  · intro w e w' ⟨hC, hB⟩ hT _ hs
    rcases step_cases hs with ⟨a, -, hm⟩ | ⟨-, ha⟩
    · exact hT.move hC hB hm
    · exact hT.aside ha

end tracked

/-! ### What became of the frames drawn -/

/-- The frame was kept, or its sender was told of an error. -/
def World.Settled (w : World) (queuedTx : Nat) (frame : Frame) : Prop :=
  (∃ r, (queuedTx, r) ∈ w.kept ∧ r.frame = frame) ∨ ∃ err, (queuedTx, .error err) ∈ w.answers

def World.AllSettled (w : World) : Prop := ∀ x ∈ w.drawn, w.held = some x ∨ w.Settled x.1 x.2

section settled

variable {w w' w₁ : World} {e : Event} {queuedTx : Nat} {frame : Frame} {a : Action}

/-- All frames but the one in hand are settled. -/
theorem World.AllSettled.draws (hS : w.AllSettled) (hd : Draws w queuedTx frame w₁) :
    ∀ x ∈ w₁.drawn, x = (queuedTx, frame) ∨ w.Settled x.1 x.2 := by
  cases hd with
  | held hheld =>
      intro x hx
      rcases hS x hx with hx | hx
      · rw [hheld] at hx
        exact .inl (Option.some.inj hx).symm
      · exact .inr hx
  | head hheld =>
      intro x hx
      simp only [World.drawn, take, List.filterMap_append, List.mem_append] at hx
      rcases hx with hx | hx
      · rcases hS x hx with hx | hx
        · rw [hheld] at hx
          cases hx
        · exact .inr hx
      · exact .inl (by simpa [OutboundFrame.frame?] using hx)

theorem Draws.kept (hd : Draws w queuedTx frame w₁) : w₁.kept = w.kept := by cases hd <;> rfl

theorem World.AllSettled.move (hS : w.AllSettled) (h : Move w a w') : w'.AllSettled := by
  cases h with
  | @keep queuedTx frame w₁ hd hfits hfresh pc hpc =>
      obtain ⟨-, -, -, hans, -⟩ := hd.same
      intro x hx
      refine .inr ?_
      rcases hS.draws hd x hx with rfl | ⟨r, hr, hframe⟩ | ⟨err, herr⟩
      · exact .inl ⟨w₁.record frame, List.mem_append_right _ List.mem_cons_self, rfl⟩
      · exact .inl ⟨r, List.mem_append_left _ (hd.kept ▸ hr), hframe⟩
      · exact .inr ⟨err, List.mem_append_left _ (hans ▸ herr)⟩
  | @hold queuedTx frame w₁ hd hfits hcan pc hpc =>
      obtain ⟨-, -, -, hans, -⟩ := hd.same
      intro x hx
      rcases hS.draws hd x hx with rfl | ⟨r, hr, hframe⟩ | ⟨err, herr⟩
      · exact .inl rfl
      · exact .inr (.inl ⟨r, hd.kept ▸ hr, hframe⟩)
      · exact .inr (.inr ⟨err, hans ▸ herr⟩)
  | @refuse queuedTx frame w₁ hd err herr =>
      intro x hx
      refine .inr ?_
      rcases hS.draws hd x hx with rfl | ⟨r, hr, hframe⟩ | ⟨err', herr'⟩
      · exact .inr ⟨err, List.mem_append_right _ List.mem_cons_self⟩
      · exact .inl ⟨r, hd.kept ▸ hr, hframe⟩
      · exact .inr ⟨err', List.mem_append_left _ herr'⟩
  | @close rest hpc hheld hout =>
      intro x hx
      exact hS x (drawn_take_close w rest ▸ hx)
  | @closeDetached rest hpc hheld hout =>
      intro x hx
      exact hS x (drawn_take_close w rest ▸ hx)
  | fail =>
      simp only [World.detach]
      split <;> exact hS
  | _ => exact hS

theorem World.AllSettled.aside (hS : w.AllSettled) (h : Aside w e w') : w'.AllSettled := by
  cases h <;> exact hS

theorem allSettled_reachable (h : machine.Reachable w) : w.AllSettled := by
  refine h.invariant (I := World.AllSettled) ?_ ?_
  · rintro _ ⟨capacity, negotiated, headerLen, maxReplayBytes, rfl⟩
    rintro x ⟨⟩
  · intro w e w' hS _ hs
    rcases step_cases hs with ⟨a, -, hm⟩ | ⟨-, ha⟩
    · exact hS.move hm
    · exact hS.aside ha

end settled

/-! ### The last word -/

/-- The writer has the close marker, and nothing is left to do before it. -/
structure Ready (w : World) : Prop where
  queue : ∃ front, w.taken = front ++ [.close] ∧
    ∀ queuedTx frame, .recovery queuedTx frame ∈ front → w.Settled queuedTx frame
  held : w.held = none
  covers : ∀ r ∈ w.kept.map Prod.snd, w.point < r.seq → w.Covers r

/-- CLOSE was written on the transport `gen`, behind `front`, and nothing after it. -/
structure LastWord (w : World) (gen : Nat) (front : List (Nat × Packet)) : Prop where
  log : w.log = front ++ [(gen, .close)]
  once : ∀ x ∈ front, x.2 ≠ .close
  /-- The frames queued before the marker were kept, or their senders told of an error. -/
  queue : ∃ queued, w.taken = queued ++ [.close] ∧
    ∀ queuedTx frame, .recovery queuedTx frame ∈ queued → w.Settled queuedTx frame
  held : w.held = none
  current : w.gen = gen
  /-- What was kept after the resume point was acknowledged at the attach, passed over with a
  number acknowledged by then, or written before. -/
  replayed : ∀ r ∈ w.kept.map Prod.snd, w.point < r.seq →
    r.seq ≤ w.ackedAtAttach ∨ (∃ acked, (r, acked) ∈ w.passed ∧ r.seq ≤ acked) ∨
      (gen, .record r) ∈ front

structure Closing (w : World) : Prop where
  packet : w.pc ≠ .writing .close
  ready : w.pc = .closing → Ready w
  shutting : w.pc = .shutting → (w.gen, .close) ∈ w.log
  last : ∀ gen, (gen, .close) ∈ w.log →
    (w.pc = .shutting ∨ w.pc = .done) ∧ ∃ front, LastWord w gen front
  told : w.written = some true → ∃ gen, (gen, .close) ∈ w.log

section closing

variable {w w' w₁ : World} {e : Event} {a : Action}

/-- Nothing of CLOSE is written here, or about to be. -/
def Pc.Open : Pc → Prop
  | .closing | .shutting | .done | .writing .close => False
  | _ => True

theorem Closing.unwritten (hL : Closing w) (hpc : w.pc ≠ .shutting) (hpc' : w.pc ≠ .done) :
    ∀ gen, (gen, Packet.close) ∉ w.log := by
  intro gen hmem
  rcases (hL.last gen hmem).1 with h | h
  · exact hpc h
  · exact hpc' h

/-- A writer that has stopped is asked only for what it wrote. -/
theorem Closing.ofDone (hpc : w.pc = .done)
    (hlast : ∀ gen, (gen, .close) ∈ w.log → ∃ front, LastWord w gen front)
    (htold : w.written = some true → ∃ gen, (gen, .close) ∈ w.log) : Closing w := by
  refine ⟨fun h => ?_, fun h => ?_, fun h => ?_, fun gen hmem => ⟨.inr hpc, hlast gen hmem⟩, htold⟩ <;>
  · rw [hpc] at h
    cases h

/-- A step that neither writes CLOSE nor comes near it. -/
theorem Closing.stay (hL : Closing w) (hpc : w.pc.Open) (hpc' : w'.pc.Open ∨ w'.pc = .done)
    (hlog : ∀ gen, (gen, .close) ∈ w'.log → (gen, .close) ∈ w.log)
    (hwritten : w'.written = some true → w.written = some true) : Closing w' := by
  have hno : ∀ gen, (gen, Packet.close) ∉ w.log := by
    refine hL.unwritten (fun h => ?_) (fun h => ?_) <;> rw [h] at hpc <;> exact hpc
  refine ⟨fun h => ?_, fun h => ?_, fun h => ?_, fun gen hmem => absurd (hlog gen hmem) (hno gen),
    fun h => ?_⟩
  · rw [h] at hpc'
    rcases hpc' with h | h <;> cases h
  · rw [h] at hpc'
    rcases hpc' with h | h <;> cases h
  · rw [h] at hpc'
    rcases hpc' with h | h <;> cases h
  · obtain ⟨gen, hmem⟩ := hL.told (hwritten h)
    exact absurd hmem (hno gen)

/-- Where the writer takes the marker with a transport, all is replayed and nothing held. -/
theorem ready_close (hT : w.Tracked) (hC : Control w) (hS : w.AllSettled) {rest : List OutboundFrame}
    (hpc : w.pc = .frame ∨ w.pc = .parked) (hheld : w.held = none) :
    Ready { w.take .close rest with pc := .closing } := by
  have ha : Attached w [] := hT.replayed hC (by rcases hpc with hpc | hpc <;> rw [hpc] <;> trivial)
    (by rcases hpc with hpc | hpc <;> rw [hpc] <;> trivial)
  refine ⟨⟨w.taken, rfl, fun queuedTx frame hmem => ?_⟩, hheld, fun r hr hlt => ?_⟩
  · rcases hS (queuedTx, frame) (List.mem_filterMap.2 ⟨_, hmem, rfl⟩) with h | h
    · rw [hheld] at h
      cases h
    · exact h
  · rcases ha.cover r hr hlt with h | h
    · exact h
    · cases h

/-- CLOSE is written behind what the transport had to get. -/
theorem Ready.lastWord (hR : Ready w) (hno : ∀ gen, (gen, Packet.close) ∉ w.log) (pc : Pc) :
    LastWord { w with log := w.log ++ [(w.gen, .close)], pc := pc } w.gen w.log := by
  refine ⟨rfl, fun x hx h => ?_, hR.queue, hR.held, rfl, hR.covers⟩
  rw [← h] at hno
  exact hno x.1 hx

theorem Draws.isOpen {queuedTx : Nat} {frame : Frame} (hd : Draws w queuedTx frame w₁) : w.pc.Open := by
  cases hd with
  | held hheld hpc =>
      rw [hpc]
      trivial
  | head hheld hout hpc => rcases hpc with hpc | hpc | hpc <;> rw [hpc] <;> trivial

theorem Closing.move (hL : Closing w) (hT : w.Tracked) (hC : Control w) (hS : w.AllSettled)
    (h : Move w a w') : Closing w' := by
  cases h with
  | stop hpc =>
      refine hL.stay ?_ (.inr rfl) (fun _ => id) id
      rcases hpc with hpc | hpc | hpc <;> rw [hpc] <;> trivial
  | commands hpc => exact hL.stay (by rw [hpc]; trivial) (.inl trivial) (fun _ => id) id
  | detached hpc => exact hL.stay (by rw [hpc]; trivial) (.inl trivial) (fun _ => id) id
  | attach hcmds pc hpc =>
      rcases hpc with ⟨hpc, rfl⟩ | ⟨hpc | hpc, rfl⟩ <;>
        exact hL.stay (by rw [hpc]; trivial) (.inl trivial) (fun _ => id) id
  | detach hcmds pc hpc =>
      rcases hpc with ⟨hpc, rfl⟩ | ⟨hpc | hpc, rfl⟩ <;>
        exact hL.stay (by rw [hpc]; trivial) (.inl trivial) (fun _ => id) id
  | ack hpc => exact hL.stay (by rw [hpc]; trivial) (.inl trivial) (fun _ => id) id
  | again hpc =>
      rcases hpc with hpc | hpc <;>
        exact hL.stay (by rw [hpc]; trivial) (.inl trivial) (fun _ => id) id
  | pending hpc now pc hpc' =>
      rcases hpc' with rfl | ⟨seq, rfl⟩ <;>
        exact hL.stay (by rw [hpc]; trivial) (.inl trivial) (fun _ => id) id
  | replayed hpc => exact hL.stay (by rw [hpc]; trivial) (.inl trivial) (fun _ => id) id
  | passed hpc => exact hL.stay (by rw [hpc]; trivial) (.inl trivial) (fun _ => id) id
  | frame hpc => exact hL.stay (by rw [hpc]; trivial) (.inl trivial) (fun _ => id) id
  | keep hd hfits hfresh pc hpc =>
      -- The frame goes on to the transport, or only into the replay buffer.
      have hopen : pc.Open := by
        rcases hpc with ⟨-, rfl⟩ | ⟨-, rfl⟩
        · trivial
        · split <;> trivial
      have htake := hd.isOpen
      cases hd <;> exact hL.stay htake (.inl hopen) (fun _ => id) id
  | hold hd hfits hcan pc hpc =>
      have hopen : pc.Open := by rcases hpc with ⟨-, rfl⟩ | ⟨-, rfl⟩ <;> trivial
      have htake := hd.isOpen
      cases hd <;> exact hL.stay htake (.inl hopen) (fun _ => id) id
  | refuse hd =>
      have htake := hd.isOpen
      cases hd <;> exact hL.stay htake (.inl trivial) (fun _ => id) id
  | @close rest hpc hheld hout =>
      -- No CLOSE is in the log before the writer comes to write one.
      have hno : ∀ gen, (gen, Packet.close) ∉ w.log := by
        rcases hpc with hpc | hpc <;>
          exact hL.unwritten (by simp [hpc]) (by simp [hpc])
      refine ⟨fun h => ?_, fun _ => ready_close hT hC hS hpc hheld, fun h => ?_,
        fun gen hmem => absurd hmem (hno gen), hL.told⟩
      · cases h
      · cases h
  | closeDetached hpc hheld hout =>
      have hno : ∀ gen, (gen, Packet.close) ∉ w.log :=
        hL.unwritten (by simp [hpc]) (by simp [hpc])
      refine Closing.ofDone rfl (fun gen hmem => absurd hmem (hno gen)) fun h => ?_
      cases h
  | flush hpc => exact hL.stay (by rw [hpc]; trivial) (.inl trivial) (fun _ => id) id
  | flushing hpc => exact hL.stay (by rw [hpc]; trivial) (.inl trivial) (fun _ => id) id
  | parked hpc =>
      rcases hpc with hpc | hpc <;>
        exact hL.stay (by rw [hpc]; trivial) (.inl trivial) (fun _ => id) id
  | @wrote packet hpc =>
      have hne : packet ≠ .close := fun h => hL.packet (h ▸ hpc)
      refine hL.stay ?_ (.inl trivial) (fun gen hmem => ?_) id
      · rw [hpc]
        cases packet with
        | close => exact absurd rfl hne
        | _ => trivial
      · rcases List.mem_append.1 hmem with hmem | hmem
        · exact hmem
        · cases List.mem_singleton.1 hmem
          exact absurd rfl hne
  | fail hpc =>
      have hopen : w.pc.Open := by
        rcases hpc with ⟨packet, hpc⟩ | hpc
        · have hne : packet ≠ .close := fun h => hL.packet (h ▸ hpc)
          rw [hpc]
          cases packet with
          | close => exact absurd rfl hne
          | _ => trivial
        · rw [hpc]
          trivial
      simp only [World.detach]
      split <;> exact hL.stay hopen (.inl trivial) (fun _ => id) id
  | wroteClose hpc =>
      have hno : ∀ gen, (gen, Packet.close) ∉ w.log :=
        hL.unwritten (by simp [hpc]) (by simp [hpc])
      -- The CLOSE just written is the last word, since no other was in the log.
      have hlast := (hL.ready hpc).lastWord hno .shutting
      have hmem : (w.gen, Packet.close) ∈ w.log ++ [(w.gen, .close)] :=
        List.mem_append_right _ List.mem_cons_self
      refine ⟨fun h => ?_, fun h => ?_, fun _ => hmem, fun gen hmem => ?_, fun _ => ⟨w.gen, hmem⟩⟩
      · cases h
      · cases h
      · rcases List.mem_append.1 hmem with hmem | hmem
        · exact absurd hmem (hno gen)
        · cases List.mem_singleton.1 hmem
          exact ⟨.inl rfl, w.log, hlast⟩
  | answer ok hpc =>
      refine Closing.ofDone rfl (fun gen hmem => ?_) fun h => ?_
      -- The answer adds nothing to the log.
      · obtain ⟨-, front, hlast⟩ := hL.last gen hmem
        exact ⟨front, { hlast with }⟩
      · cases h
        rcases hpc with ⟨-, hok⟩ | hpc
        · cases hok
        · exact ⟨w.gen, hL.shutting hpc⟩
  | wake ha hpc => exact hL.stay (by rw [hpc]; trivial) (.inl trivial) (fun _ => id) id
  | wakeDetached ha hpc =>
      refine hL.stay (by rw [hpc]; trivial) ?_ (fun _ => id) id
      by_cases hclosing : w.closing = true
      · exact .inr (if_pos hclosing)
      · refine .inl ?_
        simp only [if_neg hclosing]
        trivial
  | ping hpc => exact hL.stay (by rw [hpc]; trivial) (.inl trivial) (fun _ => id) id
  | detachSend hpc => exact hL.stay (by rw [hpc]; trivial) (.inl trivial) (fun _ => id) id

theorem Closing.aside (hL : Closing w) (h : Aside w e w') : Closing w' := by
  cases h with
  | abort =>
      refine Closing.ofDone rfl (fun gen hmem => ?_) hL.told
      obtain ⟨-, front, hlast⟩ := hL.last gen hmem
      exact ⟨front, { hlast with }⟩
  | _ =>
      refine ⟨hL.packet, fun h => { hL.ready h with }, hL.shutting, fun gen hmem => ?_, hL.told⟩
      obtain ⟨hpc, front, hlast⟩ := hL.last gen hmem
      exact ⟨hpc, front, { hlast with }⟩

theorem closing_reachable (h : machine.Reachable w) : Closing w := by
  refine h.invariant_of (J := fun w => w.Tracked ∧ Control w ∧ w.AllSettled) (I := Closing)
    (fun w h => ⟨tracked_reachable h, control_reachable h, allSettled_reachable h⟩) ?_ ?_
  · rintro _ ⟨capacity, negotiated, headerLen, maxReplayBytes, rfl⟩
    exact ⟨nofun, nofun, nofun, fun gen hmem => (List.not_mem_nil hmem).elim, nofun⟩
  · intro w e w' ⟨hT, hC, hS⟩ hL _ hs
    rcases step_cases hs with ⟨a, -, hm⟩ | ⟨-, ha⟩
    · exact hL.move hT hC hS hm
    · exact hL.aside ha

/-- With no transport the marker stops the writer, and nothing is written. -/
theorem stops_detached (hC : Control w) (hw : w.writer = false) (h : machine.step w e = some w')
    (htaken : w'.taken = w.taken ++ [.close]) :
    w'.pc = .done ∧ w'.written = some false ∧ w'.log = w.log := by
  have hne : w.taken ≠ w.taken ++ [.close] := fun h => by simp at h
  have hhead : ∀ x, x ≠ .close → w.taken ++ [x] ≠ w.taken ++ [.close] := fun x hx h =>
    hx (List.singleton_inj.1 (List.append_cancel_left h))
  rcases step_cases h with ⟨a, -, hm⟩ | ⟨-, ha⟩
  · cases hm with
    | close hpc =>
        have hw' := hC.writes (by rcases hpc with hpc | hpc <;> rw [hpc] <;> trivial)
        rw [hw] at hw'
        cases hw'
    | closeDetached => exact ⟨rfl, rfl, rfl⟩
    | keep hd =>
        cases hd with
        | held => exact absurd htaken hne
        | head => exact absurd htaken (hhead _ nofun)
    | hold hd =>
        cases hd with
        | held => exact absurd htaken hne
        | head => exact absurd htaken (hhead _ nofun)
    | refuse hd =>
        cases hd with
        | held => exact absurd htaken hne
        | head => exact absurd htaken (hhead _ nofun)
    | fail =>
        simp only [World.detach] at htaken
        split at htaken <;> exact absurd htaken hne
    | _ => exact absurd htaken hne
  · cases ha <;> exact absurd htaken hne

/-- **CLOSE is the last word.**  It is written when nothing is left to do before it, and nothing is
written after it; `close` is told of success only if it was written. -/
theorem close_is_last (h : machine.Reachable w) :
    (∀ gen, (gen, .close) ∈ w.log → ∃ front, LastWord w gen front) ∧
    (w.pc = .closing → Ready w) ∧
    (w.written = some true → ∃ gen, (gen, .close) ∈ w.log) ∧
    (w.writer = false → ∀ e w', machine.step w e = some w' → w'.taken = w.taken ++ [.close] →
      w'.pc = .done ∧ w'.written = some false ∧ w'.log = w.log) := by
  have hL := closing_reachable h
  exact ⟨fun gen hmem => (hL.last gen hmem).2, hL.ready, hL.told,
    fun hw e w' => stops_detached (control_reachable h) hw⟩

/-- A frame is queued, then the marker, and both are written. -/
def closeRun : List Event :=
  [Event.attach 0, .attachSend 1 0, .signalSend, .writer (.goOn 0), .writer .command,
    .enqueue ⟨1, 0, [7]⟩, .signalSend, .close, .queueClose, .closeSignal] ++
  List.replicate 5 (Event.writer (.goOn 0)) ++ [Event.writer (.result true)] ++
  List.replicate 5 (Event.writer (.goOn 0)) ++
  [Event.writer (.result true), .writer (.result true)]

theorem close_is_last_written :
    ∃ w front, machine.exec (.initial 4 (.new ⟨1, 1⟩ 18 30)) closeRun = some w ∧
      w.written = some true ∧ LastWord w 1 front := by
  obtain ⟨front, hlast⟩ := (close_is_last (Machine.reachable_of_exec closeRun
    ⟨4, ⟨1, 1⟩, 18, 30, rfl⟩ rfl)).1 1 (by decide)
  exact ⟨_, front, rfl, rfl, hlast⟩

end closing

end AdaptiveMsg.Writer
