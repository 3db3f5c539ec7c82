import AdaptiveMsg.Writer.LastWord

/-!
# Writer — a sleeping writer has nothing to do

The v3 writer flushes once for all that it wrote since the last flush, and `dirty` tells it whether
there is anything.  An observer records the packets that were written on the transport attached last
and not flushed since (`noteWritten`).

`sleeps_done`: in the select of `flush_and_wait` all of them are flushed, all frames are replayed,
and while `ack_due` is set the writer is about to be woken.
-/

namespace AdaptiveMsg.Writer

open World

/-- A new transport has nothing to flush. -/
def WriterCommand.leaves (unflushed : List Packet) : WriterCommand → List Packet
  | .attach _ _ => []
  | .detach _ => unflushed

/-- What is written and not flushed, after the event. -/
def noteWritten (w : World) : Event → List Packet → List Packet
  | .writer (.result true), unflushed =>
    match w.pc with
    | .writing packet => unflushed ++ [packet]
    | .closing => unflushed ++ [.close]
    | .flushing | .shutting => []
    | _ => unflushed
  | .writer (.goOn _), unflushed =>
    match w.pc, w.writerCmds with
    | .commands, cmd :: _ => cmd.leaves unflushed
    | _, _ => unflushed
  | .writer .command, unflushed =>
    match w.writerCmds with
    | cmd :: _ => cmd.leaves unflushed
    | [] => unflushed
  | _, unflushed => unflushed

def flushed : Machine (World × List Packet) Event := machine.observe noteWritten []

/-! ### What is flushed -/

/-- The writer is flushing, or is giving its transport up. -/
def Pc.Flushes : Pc → Prop
  | .flushing | .detaching | .shutting | .done => True
  | _ => False

/-- `dirty` tells of all that is written and not flushed. -/
structure Dirty (w : World) (unflushed : List Packet) : Prop where
  dirty : w.writer = true → unflushed ≠ [] → w.dirty = true ∨ w.pc.Flushes
  clean : w.pc = .flushing ∨ w.pc = .parked → w.dirty = false

section dirty

variable {w w' : World} {e : Event} {a : Action} {unflushed : List Packet}

/-- A step that writes nothing and flushes nothing. -/
theorem Dirty.same (hD : Dirty w unflushed) (hpc : ¬w.pc.Flushes) (hdirty : w'.dirty = w.dirty)
    (hwriter : w'.writer = w.writer) (hpc' : w'.pc ≠ .flushing ∧ w'.pc ≠ .parked) :
    Dirty w' unflushed where
  dirty hw hne := .inl (hdirty.trans ((hD.dirty (hwriter ▸ hw) hne).resolve_right hpc))
  clean h := (h.elim hpc'.1 hpc'.2).elim

/-- A writer without a transport has nothing written. -/
theorem Dirty.gone (hw : w.writer = false) (hpc : w.pc ≠ .flushing ∧ w.pc ≠ .parked) :
    Dirty w unflushed where
  dirty h := by
    rw [hw] at h
    cases h
  clean h := (h.elim hpc.1 hpc.2).elim

theorem writeLive_same (w : World) (queuedTx : Nat) (frame : Frame) :
    (w.writeLive queuedTx frame).dirty = w.dirty ∧ (w.writeLive queuedTx frame).writer = w.writer ∧
      ((w.writeLive queuedTx frame).pc = .top ∨
        ∃ packet, (w.writeLive queuedTx frame).pc = .writing packet) := by
  rcases writeLive_cases w queuedTx frame with ⟨h, -⟩ | ⟨h, -⟩ | ⟨err, h, -⟩
  · rw [h]
    refine ⟨rfl, rfl, ?_⟩
    by_cases hlt : w.lastSentSeq < w.nextSendSeq + 1
    · exact .inr ⟨_, if_pos hlt⟩
    · exact .inl (if_neg hlt)
  · rw [h]
    exact ⟨rfl, rfl, .inl rfl⟩
  · rw [h]
    exact ⟨rfl, rfl, .inl rfl⟩

/-- A command is applied to `w₁`. -/
theorem Dirty.apply (hD : Dirty w unflushed) (hpc : ¬w.pc.Flushes) {w₁ : World}
    (hsame : w₁.dirty = w.dirty ∧ w₁.writer = w.writer) {cmd : WriterCommand}
    (hdirty : w'.dirty = (w₁.apply cmd).dirty) (hwriter : w'.writer = (w₁.apply cmd).writer)
    (hpc' : w'.pc ≠ .flushing ∧ w'.pc ≠ .parked) :
    Dirty w' (cmd.leaves unflushed) := by
  cases cmd with
  | attach gen resumeSeq => exact ⟨fun _ h => absurd rfl h, fun h => (h.elim hpc'.1 hpc'.2).elim⟩
  | detach gen =>
      simp only [World.apply] at hdirty hwriter
      split at hwriter
      · exact .gone hwriter hpc'
      · rw [if_neg ‹_›] at hdirty
        exact hD.same hpc (hdirty.trans hsame.1) (hwriter.trans hsame.2) hpc'

/-- The writer gives its transport up. -/
theorem Dirty.detach (w : World) (unflushed : List Packet) : Dirty w.detach unflushed := by
  simp only [World.detach]
  split
  · exact ⟨fun _ _ => .inr trivial, fun h => by rcases h with h | h <;> cases h⟩
  · exact .gone rfl (by simp)

theorem Dirty.writeLive (hD : Dirty w unflushed) (hpc : ¬w.pc.Flushes) {queuedTx : Nat}
    {frame : Frame} (hdirty : w'.dirty = w.dirty) (hwriter : w'.writer = w.writer) :
    Dirty (w'.writeLive queuedTx frame) unflushed := by
  obtain ⟨hd, hw, hpc'⟩ := writeLive_same w' queuedTx frame
  refine hD.same hpc (hd.trans hdirty) (hw.trans hwriter) ?_
  rcases hpc' with h | ⟨packet, h⟩ <;> rw [h] <;> simp

theorem Dirty.writtenNext (hD : Dirty w unflushed) (hpc : ¬w.pc.Flushes) {queuedTx : Nat}
    {frame : Frame} (hdirty : w'.dirty = w.dirty) (hwriter : w'.writer = w.writer) :
    Dirty (w'.writeLive queuedTx frame).writtenNext unflushed := by
  have hlive : Dirty (w'.writeLive queuedTx frame) unflushed := hD.writeLive hpc hdirty hwriter
  obtain ⟨hd, hw, -⟩ := writeLive_same w' queuedTx frame
  rw [World.writtenNext]
  split
  · exact hD.same hpc (hd.trans hdirty) (hw.trans hwriter) (by simp)
  · exact hlive

theorem Dirty.goOn {now : Nat} (hD : Dirty w unflushed) (h : w.goOn now = some w') :
    Dirty w' (noteWritten w (.writer (.goOn now)) unflushed) := by
  have hnote : w.pc ≠ .commands → noteWritten w (.writer (.goOn now)) unflushed = unflushed := by
    intro hpc
    simp only [noteWritten]
    split
    · exact absurd ‹_› hpc
    · rfl
  simp only [World.goOn] at h
  split at h
  · -- `top`
    rename_i hpc
    rw [hnote (by simp [hpc])]
    split at h
    · cases h
      exact hD.same (hpc ▸ id) rfl rfl (by simp)
    · cases h
      refine hD.same (hpc ▸ id) rfl rfl ?_
      by_cases hw : w.writer = true
      · simp [hw]
      · simp [hw]
  · -- `commands`
    rename_i hpc
    split at h
    · rename_i cmd rest hcmds
      cases h
      simp only [noteWritten, hpc, hcmds]
      refine hD.apply (hpc ▸ id) ?_ rfl rfl ?_
      · exact ⟨rfl, rfl⟩
      · rw [apply_pc]
        simp
    · rename_i hcmds
      cases h
      simp only [noteWritten, hpc, hcmds]
      refine hD.same (hpc ▸ id) rfl rfl ?_
      by_cases hw : w.writer = true
      · simp [hw]
      · simp [hw]
  · -- `ack`
    rename_i hpc
    rw [hnote (by simp [hpc])]
    split at h
    all_goals
      cases h
      exact hD.same (hpc ▸ id) rfl rfl (by simp)
  · -- `replay`
    rename_i hpc
    rw [hnote (by simp [hpc])]
    split at h
    · split at h
      all_goals
        cases h
        exact hD.same (hpc ▸ id) rfl rfl (by simp)
    · cases h
      exact hD.same (hpc ▸ id) rfl rfl (by simp)
  · -- `frame`
    rename_i hpc
    rw [hnote (by simp [hpc])]
    split at h
    · cases h
      exact hD.writtenNext (hpc ▸ id) rfl rfl
    · cases h
      exact hD.writtenNext (hpc ▸ id) rfl rfl
    · cases h
      exact hD.same (hpc ▸ id) rfl rfl (by simp)
    · cases h
      exact hD.same (hpc ▸ id) rfl rfl (by simp)
  · -- `flush`
    rename_i hpc
    rw [hnote (by simp [hpc])]
    split at h
    · cases h
      exact ⟨fun _ _ => .inr trivial, fun _ => rfl⟩
    · rename_i hclean
      cases h
      have hclean := Bool.eq_false_of_not_eq_true hclean
      refine ⟨fun hw hne => ?_, fun _ => hclean⟩
      rcases hD.dirty hw hne with h | h
      · exact .inl h
      · rw [hpc] at h
        exact h.elim
  · -- `detaching`
    rename_i hpc
    cases h
    exact .gone rfl (by simp)
  · cases h

/-- A step of the writer. -/
theorem Dirty.act (hD : Dirty w unflushed) (h : w.act a = some w') :
    Dirty w' (noteWritten w (.writer a) unflushed) := by
  cases a with
  | goOn now => exact hD.goOn h
  | result ok =>
      simp only [World.act, World.result] at h
      split at h
      · rename_i packet hpc
        cases ok with
        | true =>
            cases h
            exact ⟨fun _ _ => .inl rfl, fun h => by rcases h with h | h <;> cases h⟩
        | false =>
            cases h
            exact .detach w _
      · rename_i hpc
        cases ok with
        | true =>
            cases h
            simp only [noteWritten, hpc]
            exact ⟨fun _ h => absurd rfl h, fun _ => hD.clean (.inl hpc)⟩
        | false =>
            cases h
            exact .detach w _
      · cases ok with
        | true =>
            cases h
            exact ⟨fun _ _ => .inr trivial, fun h => by rcases h with h | h <;> cases h⟩
        | false =>
            cases h
            exact ⟨fun _ _ => .inr trivial, fun h => by rcases h with h | h <;> cases h⟩
      · cases h
        exact ⟨fun _ _ => .inr trivial, fun h => by rcases h with h | h <;> cases h⟩
      · cases h
  | closedNotify =>
      simp only [World.act, World.closedNotify] at h
      split at h
      all_goals
        cases h
      all_goals
        exact ⟨fun _ _ => .inr trivial, fun h => by rcases h with h | h <;> cases h⟩
  | notified =>
      simp only [World.act, World.notified] at h
      split at h
      · split at h
        · rename_i hpc
          cases h
          exact hD.same (hpc ▸ id) rfl rfl (by simp)
        · rename_i hpc _
          cases h
          refine hD.same (hpc ▸ id) rfl rfl ?_
          by_cases hc : w.closing = true
          · simp [hc]
          · simp [hc]
        · cases h
      · cases h
  | command =>
      simp only [World.act, World.command] at h
      split at h
      all_goals
        first
        | cases h
          done
        | rename_i cmd rest hpc hcmds
          cases h
          simp only [noteWritten, hcmds]
          refine hD.apply (hpc ▸ id) ?_ rfl rfl (by simp)
          exact ⟨rfl, rfl⟩
  | recv =>
      simp only [World.act, World.recv] at h
      split at h
      · rename_i hpc _ _
        cases h
        exact hD.writeLive (hpc ▸ id) rfl rfl
      · rename_i hpc _ _
        cases h
        exact hD.same (hpc ▸ id) rfl rfl (by simp)
      · rename_i queuedTx frame rest hpc _ _
        cases h
        rw [stage_top]
        obtain ⟨hd, hw, -⟩ := writeLive_same (w.take (.recovery queuedTx frame) rest) queuedTx frame
        exact hD.same (hpc ▸ id) hd hw (by simp)
      · cases h
        exact ⟨fun _ _ => .inr trivial, fun h => by rcases h with h | h <;> cases h⟩
      · cases h
  | timer heartbeatTick =>
      simp only [World.act, World.timer] at h
      split at h
      · rename_i hpc
        cases h
        refine hD.same (hpc ▸ id) rfl rfl ?_
        cases heartbeatTick <;> simp
      · cases h

theorem Dirty.aside (hD : Dirty w unflushed) (h : Aside w e w') : Dirty w' unflushed := by
  cases h with
  | abort => exact ⟨fun _ _ => .inr trivial, fun h => by rcases h with h | h <;> cases h⟩
  | _ => exact { hD with }

theorem dirty_reachable {v : World × List Packet} (h : flushed.Reachable v) : Dirty v.1 v.2 := by
  refine h.invariant (I := fun v => Dirty v.1 v.2) ?_ ?_
  · rintro ⟨w, _⟩ ⟨⟨capacity, negotiated, headerLen, maxReplayBytes, rfl⟩, rfl⟩
    exact ⟨fun _ h => absurd rfl h, fun h => by rcases h with h | h <;> cases h⟩
  · intro v e v' hD _ hs
    obtain ⟨hstep, hnote⟩ := Machine.step_observe hs
    rw [hnote]
    rcases step_cases hstep with ⟨a, rfl, -⟩ | ⟨hne, ha⟩
    · exact hD.act hstep
    · have hsame : noteWritten v.1 e v.2 = v.2 := by
        cases e with
        | writer a => exact absurd rfl (hne a)
        | _ => rfl
      rw [hsame]
      exact hD.aside ha

end dirty

/-! ### The pending ACK -/

/-- The writer has looked for a pending ACK and has yet to sleep, or sleeps. -/
def Pc.Looked : Pc → Prop
  | .replay | .frame | .flush | .flushing | .parked => True
  | _ => False

/-- An ACK that fell due since the writer looked comes with a wake-up. -/
def World.AckWakes (w : World) : Prop :=
  w.pc.Looked → w.recovery.ackDue = true → w.permit = true ∨ 0 < w.signalling

section ack

variable {w w' : World} {e : Event} {a : Action}

theorem ackDue_takePendingAck {r : RecoveryState} {now : Nat} :
    (r.takePendingAck now).2.ackDue = false := by
  simp only [RecoveryState.takePendingAck]
  split
  · rename_i h
    simp only [RecoveryState.ackMayBeDue, Bool.not_eq_true', Bool.or_eq_false_iff] at h
    exact h.1
  · split <;> rfl

/-- The writer is woken for an ACK that falls due at once. -/
theorem wakes_noteReceived {r : RecoveryState} {now seq : Nat}
    (h : (r.noteReceived now seq).2.ackDue = true) :
    r.ackDue = true ∨ (r.noteReceived now seq).1 = true := by
  simp only [RecoveryState.noteReceived] at h ⊢
  split
  · exact .inr rfl
  · rw [if_neg ‹_›] at h
    split
    · exact .inr rfl
    · rw [if_neg ‹_›] at h
      split
      · exact .inr rfl
      · rw [if_neg ‹_›] at h
        exact .inl h

theorem World.AckWakes.move (hA : w.AckWakes) (h : Move w a w') : w'.AckWakes := by
  intro hl hdue
  cases h with
  | attach hcmds pc hpc => rcases hpc with ⟨-, rfl⟩ | ⟨-, rfl⟩ <;> exact hl.elim
  | detach hcmds pc hpc => rcases hpc with ⟨-, rfl⟩ | ⟨-, rfl⟩ <;> exact hl.elim
  | pending hpc now pc hpc' =>
      have hdue : (w.recovery.takePendingAck now).2.ackDue = true := hdue
      rw [ackDue_takePendingAck] at hdue
      cases hdue
  | frame hpc => exact hA (by rw [hpc]; trivial) hdue
  | keep hd hfits hfresh pc hpc =>
      rcases hpc with ⟨-, rfl⟩ | ⟨-, rfl⟩
      · exact hl.elim
      · split at hl <;> exact hl.elim
  | hold hd hfits hcan pc hpc =>
      rcases hpc with ⟨hpc, rfl⟩ | ⟨-, rfl⟩
      · rw [show _ = w.recovery from hd.same.1] at hdue
        have hwake := hA (by rw [hpc]; trivial) hdue
        cases hd <;> exact hwake
      · exact hl.elim
  | flush hpc => exact hA (by rw [hpc]; trivial) hdue
  | flushing hpc => exact hA (by rw [hpc]; trivial) hdue
  | parked hpc => exact hA (by rcases hpc with hpc | hpc <;> rw [hpc] <;> trivial) hdue
  | fail =>
      simp only [World.detach] at hl
      split at hl <;> exact hl.elim
  | wakeDetached =>
      simp only at hl
      split at hl <;> exact hl.elim
  | _ => exact hl.elim

/-- A step of another task: whoever makes an ACK due goes on to wake the writer. -/
theorem World.AckWakes.step (hA : w.AckWakes) (h : machine.step w e = some w') : w'.AckWakes := by
  rcases step_cases h with ⟨a, -, hm⟩ | ⟨hne, -⟩
  · exact hA.move hm
  · change w.step e = some w' at h
    intro hl hdue
    cases e with
    | writer a => exact absurd rfl (hne a)
    | enqueue frame =>
        obtain ⟨-, h⟩ := Option.ite_none_right_eq_some.mp h
        cases h
        exact .inr (Nat.succ_pos _)
    | signalSend =>
        obtain ⟨-, h⟩ := Option.ite_none_right_eq_some.mp h
        cases h
        exact .inl rfl
    | ackReceived lastSeq =>
        cases h
        exact hA hl hdue
    | ackSignal =>
        obtain ⟨-, h⟩ := Option.ite_none_right_eq_some.mp h
        cases h
        exact .inl rfl
    | noteReceived now seq =>
        cases h
        rcases wakes_noteReceived hdue with h | h
        · rcases hA hl h with h | h
          · exact .inl h
          · exact .inr (Nat.lt_of_lt_of_le h (Nat.le_add_right _ _))
        · refine .inr ?_
          show 0 < w.signalling + (w.recovery.noteReceived now seq).1.toNat
          rw [h]
          exact Nat.succ_pos _
    | attach resumeSeq =>
        simp only [World.step] at h
        split at h
        · cases h
        · cases h
          exact hA hl hdue
    | attachSend gen resumeSeq =>
        obtain ⟨-, h⟩ := Option.ite_none_right_eq_some.mp h
        cases h
        exact .inr (Nat.succ_pos _)
    | detach =>
        simp only [World.step] at h
        split at h
        · cases h
        · cases h
          exact hA hl hdue
    | detachSend gen =>
        obtain ⟨-, h⟩ := Option.ite_none_right_eq_some.mp h
        cases h
        exact hA hl hdue
    | close =>
        simp only [World.step] at h
        split at h
        · cases h
        · cases h
          exact hA hl hdue
    | queueClose =>
        obtain ⟨-, h⟩ := Option.ite_none_right_eq_some.mp h
        cases h
        exact hA hl hdue
    | closeSignal =>
        obtain ⟨-, h⟩ := Option.ite_none_right_eq_some.mp h
        cases h
        exact .inl rfl
    | closeByPeer =>
        cases h
        exact hA hl hdue
    | markClosed =>
        cases h
        exact hA hl hdue
    | abort =>
        obtain ⟨-, h⟩ := Option.ite_none_right_eq_some.mp h
        cases h
        exact hl.elim

theorem ackWakes_reachable (h : machine.Reachable w) : w.AckWakes := by
  refine h.invariant (I := World.AckWakes) ?_ fun _ _ _ hA _ hs => hA.step hs
  rintro _ ⟨capacity, negotiated, headerLen, maxReplayBytes, rfl⟩ hl
  exact hl.elim

end ack

/-! ### The result -/

/-- There is nothing to do for the writer that it is not about to be woken for. -/
structure Done (w : World) (unflushed : List Packet) : Prop where
  flushed : unflushed = []
  replayed : w.resume = []
  acked : w.recovery.ackDue = true → w.permit = true ∨ 0 < w.signalling

/-- **A v3 writer that sleeps has flushed and replayed all**, and with `ack_due` set it is about to
be woken. -/
theorem sleeps_done {v : World × List Packet} (h : flushed.Reachable v) (hpc : v.1.pc = .parked) :
    Done v.1 v.2 := by
  have hr := h.of_observe
  obtain ⟨hw, hres⟩ := (control_reachable hr).of_replayed (by rw [hpc]; trivial)
  have hD := dirty_reachable h
  refine ⟨?_, hres, ackWakes_reachable hr (by rw [hpc]; trivial)⟩
  by_contra hne
  rcases hD.dirty hw hne with hdirty | hf
  · rw [hD.clean (.inr hpc)] at hdirty
    cases hdirty
  · rw [hpc] at hf
    exact hf

/-- The first frame was written and flushed, and the second is held. -/
theorem sleeps_done_held : ∃ v, flushed.exec (.initial 4 (.new ⟨1, 1⟩ 18 30), []) heldRun = some v ∧
    v.1.pc = .parked ∧ Done v.1 v.2 := by
  have hrun := Machine.reachable_of_exec (M := flushed)
    (s := (.initial 4 (.new ⟨1, 1⟩ 18 30), [])) heldRun ⟨⟨4, ⟨1, 1⟩, 18, 30, rfl⟩, rfl⟩ rfl
  exact ⟨_, rfl, rfl, sleeps_done hrun rfl⟩

end AdaptiveMsg.Writer
