import AdaptiveMsg.Protocol.Acks
import AdaptiveMsg.Protocol.Lanes

/-!
# Protocol — an endpoint that is idle holds nothing

Where no frame can be written or read and no ACK is due (`Idle`), and both readers of the attached
transport wait for a frame, each side has all that its peer staged and has said so.  So no writer
holds a frame: its replay buffer is empty (`held_none_of_idle`).  This holds in the runs of
`acks_converge`.
-/

namespace AdaptiveMsg.Protocol

open Machine (top)

/-- The steps in which frames and acknowledgements go on. -/
def Event.GoesOn : Event → Prop
  | .writeNext _ | .writeDone _ true | .takeAck _ _ | .read _ _ _ | .note _ _ _ => True
  | _ => False

/-- No such step changes anything. -/
def Idle (w : World) : Prop := ∀ ev w', w.step ev = some w' → ev.GoesOn → w' = w

/-- Both sides write to `t`, which is intact, and read from it. -/
structure Attached (w : World) (t : Nat) : Prop where
  writer : ∀ s, (w.ep s).writer = some t
  intact : (w.transport t).broken = false
  reader : ∀ s, (w.lane t s).reader ≠ .unspawned ∧ (w.lane t s).reader ≠ .starting ∧
    (w.lane t s).reader ≠ .ended

/-! ### A writer with nothing to write -/

namespace Endpoint

variable {e : Endpoint} {L n : Nat} {frame : Frame}

theorem outbound_writeLive (frame : Frame) : (e.writeLive frame).outbound = e.outbound := by
  have hstage : (e.stage frame).2.outbound = e.outbound := by
    simp only [stage]
    split <;> rfl
  rw [writeLive]
  revert hstage
  obtain ⟨record, e'⟩ := e.stage frame
  intro hstage
  cases record with
  | none => exact hstage
  | some record =>
      simp only
      split <;> exact hstage

theorem resume_nil (h : ∀ e', e.writeNext = some e' → e' = e) : e.resume = [] := by
  cases hres : e.resume with
  | nil => rfl
  | cons frame resume =>
      obtain ⟨e', he, hr⟩ : ∃ e', e.writeNext = some e' ∧ e'.resume = resume := by
        simp only [writeNext, hres]
        split <;> exact ⟨_, rfl, rfl⟩
      rw [h e' he, hres] at hr
      exact absurd hr (List.cons_ne_self _ _)

theorem outbound_nil (h : ∀ e', e.writeNext = some e' → e' = e) (hheld : e.held = none) :
    e.outbound = [] := by
  have hres := resume_nil h
  cases hout : e.outbound with
  | nil => rfl
  | cons frame outbound =>
      have he : e.writeNext = some ({ e with outbound := outbound }.writeLive frame) := by
        simp only [writeNext, hres, hheld, hout]
      have hsame := congrArg Endpoint.outbound (h _ he)
      rw [outbound_writeLive, hout] at hsame
      exact absurd hsame.symm (List.cons_ne_self _ _)

/-- A frame is held only while frames before it are not acknowledged. -/
theorem acked_lt_of_held (hI : EndpointInv e L n) (h : ∀ e', e.writeNext = some e' → e' = e)
    (hheld : e.held = some frame) : e.recovery.replay.lastAcked < e.staged.length := by
  have hres := resume_nil h
  have he : e.writeNext = some ({ e with held := none }.writeLive frame) := by
    simp only [writeNext, hres, hheld]
  have hsame : ({ e with held := none }.writeLive frame).held = some frame := by
    rw [h _ he, hheld]
  by_contra hle
  have hq : e.recovery.replay.replayQueue = [] := by
    rw [hI.keeps.queue]
    exact List.drop_eq_nil_of_le (by simpa using hle)
  have hused : e.recovery.replay.usedBytes = 0 := by
    rw [hI.keeps.used, hq]
    rfl
  rcases hI.keeps.stage frame with ⟨b', hst, -⟩ | ⟨-, -, hlt, hfit⟩ | ⟨hst, -⟩
  · simp only [writeLive, stage, hI.seq, hst] at hsame
    split at hsame <;> cases hsame
  · rw [hused, Int.zero_add] at hlt
    exact absurd hfit (Int.not_le.2 hlt)
  · simp only [writeLive, stage, hI.seq, hst] at hsame
    cases hsame

/-- A writer goes on holding a frame while there is no room for it. -/
theorem writeNext_full (hres : e.resume = []) (hheld : e.held = some frame)
    (hfull : e.recovery.replay.maxBytes > 0 ∧ e.recovery.replay.usedBytes +
      ReplayBuffer.frameSize e.recovery.replay.headerLen frame > e.recovery.replay.maxBytes)
    (hfits : ReplayBuffer.frameSize e.recovery.replay.headerLen frame ≤ e.recovery.replay.maxBytes) :
    e.writeNext = some e := by
  simp only [writeNext, hres, hheld, writeLive, stage, ReplayBuffer.stage, if_pos hfull, if_pos hfits]
  rw [← hheld, ← hres]

theorem takeAck_unscheduled (hdue : ¬e.recovery.AckScheduled) (hwriting : e.writing = none)
    (now : Nat) : e.takeAck now = e := by
  have hmay : e.recovery.ackMayBeDue now = false := by
    simp only [RecoveryState.AckScheduled, not_or, not_not, Bool.not_eq_true] at hdue
    simp [RecoveryState.ackMayBeDue, hdue.1, hdue.2]
  simp only [takeAck, RecoveryState.takePendingAck, hmay, Bool.not_false, if_true, Option.map_none]
  rw [← hwriting]

end Endpoint

@[simp] theorem World.setEp_self (w : World) (s : RecoveryRole) : w.setEp s (w.ep s) = w := by
  simp [World.setEp]

/-! ### What stands still -/

namespace Idle

variable {w : World} {s : RecoveryRole} {t : Nat}

theorem writing (hidle : Idle w) (hw : (w.ep s).writer = some t) : (w.ep s).writing = none := by
  cases hp : (w.ep s).writing with
  | none => rfl
  | some packet =>
      obtain ⟨w', hs, hnone⟩ : ∃ w', w.step (.writeDone s true) = some w' ∧
          (w'.ep s).writing = none := by
        simp only [World.step, World.writeDone, hw, hp, if_true]
        have hsent : ((w.ep s).sent packet).writing = none := by cases packet <;> rfl
        split
        · exact ⟨_, rfl, by rw [World.setEp_ep_self, hsent]⟩
        · exact ⟨_, rfl, by rw [World.setLane_ep, World.setEp_ep_self, hsent]⟩
      rw [hidle _ _ hs trivial, hp] at hnone
      cases hnone

theorem writeNext (hidle : Idle w) (hw : (w.ep s).writer = some t) :
    ∀ e, (w.ep s).writeNext = some e → e = w.ep s := by
  intro e he
  have hs : w.step (.writeNext s) = some (w.setEp s e) := by
    simp [World.step, World.writerReady, hidle.writing hw, hw, he]
  have hsame := congrArg (fun w : World => w.ep s) (hidle _ _ hs trivial)
  simpa using hsame

theorem not_scheduled (hidle : Idle w) (hw : (w.ep s).writer = some t) :
    ¬(w.ep s).recovery.AckScheduled := by
  intro hdue
  have hnone := hidle.writing hw
  have hs : w.step (.takeAck s (w.ep s).recovery.ackDueAt) =
      some (w.setEp s ((w.ep s).takeAck (w.ep s).recovery.ackDueAt)) := by
    simp [World.step, World.writerReady, hnone, hw]
  have hsame : (w.ep s).takeAck (w.ep s).recovery.ackDueAt = w.ep s := by
    simpa using congrArg (fun w : World => w.ep s) (hidle _ _ hs trivial)
  have hmay : (w.ep s).recovery.ackMayBeDue (w.ep s).recovery.ackDueAt = true := by
    rcases hdue with hdue | hdue <;> simp [RecoveryState.ackMayBeDue, hdue]
  have hwriting := congrArg Endpoint.writing hsame
  have hrecovery := congrArg Endpoint.recovery hsame
  simp only [Endpoint.takeAck, RecoveryState.takePendingAck, hmay, hnone, Bool.not_true,
    Bool.false_eq_true, if_false] at hwriting hrecovery
  split at hwriting
  · rename_i hsent
    rw [if_pos hsent] at hrecovery
    rw [← hrecovery] at hdue
    rcases hdue with hdue | hdue
    · cases hdue
    · exact hdue rfl
  · cases hwriting

/-- A reader waits for a frame, or inside `accept_frame`. -/
theorem reader (hidle : Idle w) (hatt : Attached w t) (s : RecoveryRole) :
    (∃ m, (w.lane t s).reader = .reading m ∧ (w.lane t s).wire = []) ∨
      ∃ m r, (w.lane t s).reader = .accepting m r := by
  obtain ⟨hunspawned, hstarting, hended⟩ := hatt.reader s
  cases hr : (w.lane t s).reader with
  | unspawned => exact absurd hr hunspawned
  | starting => exact absurd hr hstarting
  | ended => exact absurd hr hended
  | accepting m r => exact .inr ⟨m, r, rfl⟩
  | noting m r =>
      have hs : w.step (.note s t 0) = some (w.readerGoesOn s t
          { w.ep s with recovery := ((w.ep s).recovery.noteReceived 0 r.seq).2 }
          (w.lane t s).wire (.reading r.seq)) := by
        simp only [World.step, hr]
      have hsame := congrArg (fun w : World => (w.lane t s).reader) (hidle _ _ hs trivial)
      simp only [World.readerGoesOn, World.setLane_lane_self, hr] at hsame
      cases hsame
  | reading m =>
      refine .inl ⟨m, rfl, ?_⟩
      cases hwire : (w.lane t s).wire with
      | nil => rfl
      | cons packet wire =>
          have hs : w.step (.read s t 0) = some (w.readerGoesOn s t
              (handlePacket (w.ep s) m 0 packet).1 wire (handlePacket (w.ep s) m 0 packet).2) := by
            simp only [World.step, hr, hwire]
          have hsame := congrArg (fun w : World => (w.lane t s).wire) (hidle _ _ hs trivial)
          simp only [World.readerGoesOn, World.setLane_lane_self, hwire] at hsame
          exact absurd hsame.symm (List.cons_ne_self _ _)

/-- A reader that waits for a frame has had all that the peer staged. -/
theorem received (hidle : Idle w) (hI : LanesInv w) (hatt : Attached w t) {m : Nat}
    (hr : (w.lane t s.peer).reader = .reading m) (hwire : (w.lane t s.peer).wire = []) :
    (w.ep s).staged.length ≤ (w.ep s.peer).recovery.lastRecvSeq := by
  have hle := (hI.reader s.peer t).reading m hr
  have hbase : (w.lane t s.peer).base (w.ep s.peer).recovery.lastRecvSeq =
      some (w.ep s.peer).recovery.lastRecvSeq := by
    simp only [Lane.base, hr, Nat.max_eq_right hle]
  have hok := hI.writerOk (hatt.writer s) hatt.intact hbase
  have hposition := (hok.idle (hidle.writing (hatt.writer s))).1
  rwa [Endpoint.resume_nil (hidle.writeNext (hatt.writer s)), hwire, List.length_nil,
    Nat.sub_zero] at hposition

end Idle

/-- Where all is idle and no reader is inside `accept_frame`, no writer holds a frame. -/
theorem held_none_of_idle {w : World} {t : Nat} (h : machine.ReachableUnder ResumeCoversAck w)
    (hidle : Idle w) (hatt : Attached w t)
    (haccept : ∀ s m r, (w.lane t s).reader ≠ .accepting m r) (s : RecoveryRole) :
    (w.ep s).held = none := by
  have hI := acksInv_reachable h
  have hreading : ∀ s, ∃ m, (w.lane t s).reader = .reading m ∧ (w.lane t s).wire = [] := fun s =>
    (hidle.reader hatt s).resolve_right fun ⟨m, r, hr⟩ => haccept s m r hr
  obtain ⟨m, hr, hwire⟩ := hreading s.peer
  have hreceived := hidle.received (lanes_reachable h.reachable) hatt hr hwire
  have hacked := (hI.acked hatt.writer hatt.intact (hreading s).choose_spec.2
    (hidle.writing (hatt.writer s.peer)) (hidle.not_scheduled (hatt.writer s.peer))).1
  cases hheld : (w.ep s).held with
  | none => rfl
  | some frame =>
      have hlt := Endpoint.acked_lt_of_held (hI.flow.endpoint s) (hidle.writeNext (hatt.writer s)) hheld
      rw [hacked] at hlt
      exact absurd hreceived (Nat.not_le.2 hlt)

end AdaptiveMsg.Protocol
