import AdaptiveMsg.Writer.LastWord

/-!
# Writer — wake-ups for a held frame

`send_notify` stores one permit, whoever signals.  A writer that parks with a frame looks at the
buffer again only after a permit or a command.

* `held_frame_woken`: a frame held by a parked writer is never left in a buffer with room for it.
* `held_frame_stops`: a writer that waits for a transport with a held frame is not left there by
  `close`, as long as `flush_and_wait` has not used up the permit that `close` stored;
  `held_frame_waits` is a run in which it has.
-/

namespace AdaptiveMsg.Writer

open World

/-! ### While a transport is attached -/

/-- The writer is on its way to the select of `flush_and_wait`, or there. -/
def Pc.Parks : Pc → Prop
  | .flush | .flushing | .parked => True
  | _ => False

/-- A frame held by a writer that parks does not fit, or the writer is about to be woken. -/
def World.Woken (w : World) : Prop :=
  w.pc.Parks → ∀ x, w.held = some x → w.recovery.replay.Fits x.2 →
    w.permit = true ∨ 0 < w.acking ∨ w.writerCmds ≠ []

section woken

variable {w w' : World} {e : Event} {x : Nat × Frame} {a : Action}

theorem World.Woken.move (hW : w.Woken) (h : Move w a w') : w'.Woken := by
  intro hp x hheld hfits
  cases h with
  | attach hcmds pc hpc =>
      rcases hpc with ⟨-, rfl⟩ | ⟨-, rfl⟩ <;> exact hp.elim
  | detach hcmds pc hpc =>
      rcases hpc with ⟨-, rfl⟩ | ⟨-, rfl⟩ <;> exact hp.elim
  | pending hpc now pc hpc' =>
      rcases hpc' with rfl | ⟨seq, rfl⟩ <;> exact hp.elim
  | keep hd hfits' hfresh pc hpc =>
      rcases hpc with ⟨-, rfl⟩ | ⟨-, rfl⟩
      · exact hp.elim
      · split at hp <;> exact hp.elim
  | @hold queuedTx frame w₁ hd hfull hcan pc hpc =>
      -- The frame has just been found not to fit.
      cases hheld
      refine absurd ?_ hfull
      rw [← hd.same.1]
      exact hfits
  | flush hpc hnone =>
      rw [show w.held = some x from hheld] at hnone
      cases hnone
  | flushing hpc => exact hW (by rw [hpc]; trivial) x hheld hfits
  | parked hpc =>
      exact hW (by rcases hpc with hpc | hpc <;> rw [hpc] <;> trivial) x hheld hfits
  | fail =>
      simp only [World.detach] at hp
      split at hp <;> exact hp.elim
  | wakeDetached =>
      by_cases hclosing : w.closing = true
      · simp only [hclosing, if_true] at hp
        exact hp.elim
      · simp only [hclosing] at hp
        exact hp.elim
  | _ => exact hp.elim

theorem World.Woken.aside (hW : w.Woken) (h : Aside w e w') : w'.Woken := by
  intro hp x hheld hfits
  cases h with
  | signal => exact .inl rfl
  | ackReceived => exact .inr (.inl (Nat.succ_pos _))
  | noteReceived now seq signalling =>
      refine hW hp x hheld ?_
      have hsame := RecoveryState.replay_noteReceived (r := w.recovery) now seq
      exact hsame ▸ hfits
  | send => exact .inr (.inr (List.append_ne_nil_of_right_ne_nil _ (List.cons_ne_nil _ _)))
  | closeSignal => exact .inl rfl
  | abort => exact hp.elim
  | _ => exact hW hp x hheld hfits

theorem woken_reachable (h : machine.Reachable w) : w.Woken := by
  refine h.invariant (I := World.Woken) ?_ ?_
  · rintro _ ⟨capacity, negotiated, headerLen, maxReplayBytes, rfl⟩ hp
    exact hp.elim
  · intro w e w' hW _ hs
    rcases step_cases hs with ⟨a, -, hm⟩ | ⟨-, ha⟩
    · exact hW.move hm
    · exact hW.aside ha

/-- **No wake-up is lost.**  While the writer has a transport and no reader is between an ACK and
its signal, a parked writer whose frame would fit has a permit or a command waiting for it, and
either sends it on with the frame. -/
theorem held_frame_woken (h : machine.Reachable w) (hw : w.writer = true) (hack : w.acking = 0)
    (hpc : w.pc = .parked ∨ w.pc = .detached) (hheld : w.held = some x)
    (hfits : w.recovery.replay.Fits x.2) :
    (w.permit = true ∨ w.writerCmds ≠ []) ∧
      ∃ a w', machine.step w (.writer a) = some w' ∧ w'.pc = .top ∧ w'.held = some x := by
  have hparked : w.pc = .parked := by
    rcases hpc with hpc | hpc
    · exact hpc
    · rw [(control_reachable h).detached hpc] at hw
      cases hw
  have hwake : w.permit = true ∨ w.writerCmds ≠ [] := by
    rcases woken_reachable h (by rw [hparked]; trivial) x hheld hfits with h | h | h
    · exact .inl h
    · omega
    · exact .inr h
  refine ⟨hwake, ?_⟩
  rcases hwake with hpermit | hcmds
  · refine ⟨.notified, { w with permit := false, pc := .top }, ?_, rfl, hheld⟩
    simp only [machine, step, act, notified, hpermit, hparked, if_true]
  · cases hq : w.writerCmds with
    | nil => exact absurd hq hcmds
    | cons cmd rest =>
        refine ⟨.command, { ({ w with writerCmds := rest }.apply cmd) with pc := .top }, ?_, rfl, ?_⟩
        · simp only [machine, step, act, command, hparked, hq]
        · cases cmd with
          | attach gen resumeSeq => exact hheld
          | detach gen =>
              simp only [apply]
              split <;> exact hheld

end woken

/-- The ACK of the first frame has been applied and signalled. -/
theorem held_frame_woken_ack :
    ∃ w a w', machine.exec (.initial 4 (.new ⟨1, 1⟩ 18 30))
        (heldRun ++ [Event.writer .notified] ++ List.replicate 6 (Event.writer (.goOn 0)) ++
          [Event.ackReceived 1, .ackSignal]) = some w ∧
      w.pc = .parked ∧ machine.step w (.writer a) = some w' ∧ w'.pc = .top ∧
      w'.held = some (1, ⟨1, 0, List.replicate 10 1⟩) := by
  obtain ⟨-, a, w', hs, hpc, hheld⟩ := held_frame_woken (x := (1, ⟨1, 0, List.replicate 10 1⟩))
    (Machine.reachable_of_exec (heldRun ++ [Event.writer .notified] ++
        List.replicate 6 (Event.writer (.goOn 0)) ++ [Event.ackReceived 1, .ackSignal])
      ⟨4, ⟨1, 1⟩, 18, 30, rfl⟩ rfl) rfl rfl (.inl rfl) rfl (by decide)
  exact ⟨_, a, w', rfl, rfl, hs, hpc, hheld⟩

/-! ### While no transport is attached -/

/-- A writer that waits for a transport with a held frame is told that `close` waits for it. -/
def World.Stops (w : World) : Prop :=
  w.pc = .detached → w.held.isSome → w.closer = .signalled → w.permit = true ∨ w.writerCmds ≠ []

instance (w : World) : Decidable w.Stops := inferInstanceAs (Decidable (_ → _ → _ → _))

/-- Whether `flush_and_wait` took a permit after `close` signalled and nobody signalled since. -/
def noteSpent (w : World) (e : Event) (spent : Bool) : Bool :=
  if e.signals then false
  else
    match e with
    | .writer .notified => spent || (w.pc = .parked && w.closer = .signalled)
    | _ => spent

def watched : Machine (World × Bool) Event := machine.observe noteSpent false

/-- The writer goes to wait for a transport with a held frame, no command is queued, and the permit
that `close` stored is spent. -/
def ParksSpent (v : World × Bool) : Event → Prop
  | .writer _ => v.1.pc = .top ∧ v.1.closed = false ∧ v.1.writer = false ∧ v.1.held.isSome ∧
      v.1.closer = .signalled ∧ v.1.writerCmds = [] ∧ v.2 = true
  | _ => False

/-- A permit is there unless it is spent, and only a signal of `close` can be. -/
structure Spent (w : World) (spent : Bool) : Prop where
  closing : w.closer ≠ .none → w.closing = true
  permit : w.closer = .signalled → w.permit = true ∨ spent = true ∨ w.pc = .done
  spent : spent = true → w.permit = false ∧ w.closer = .signalled

section stops

variable {w w' : World} {v v' : World × Bool} {e : Event} {spent : Bool} {a : Action}

/-- Only by taking the permit does the writer change it. -/
theorem Move.permit (h : Move w a w') (ha : a ≠ .notified) :
    w'.permit = w.permit ∧ w'.closer = w.closer ∧ w'.closing = w.closing := by
  cases h with
  | keep hd => cases hd <;> exact ⟨rfl, rfl, rfl⟩
  | hold hd => cases hd <;> exact ⟨rfl, rfl, rfl⟩
  | refuse hd => cases hd <;> exact ⟨rfl, rfl, rfl⟩
  | fail =>
      simp only [World.detach]
      split <;> exact ⟨rfl, rfl, rfl⟩
  | wake ha' => exact absurd ha' ha
  | wakeDetached ha' => exact absurd ha' ha
  | _ => exact ⟨rfl, rfl, rfl⟩

theorem not_done_of_act (h : w.act a = some w') : w.pc ≠ .done := by
  intro hpc
  cases a <;> simp [act, goOn, result, closedNotify, notified, command, recv, timer, hpc] at h

theorem noteSpent_writer (ha : a ≠ .notified) : noteSpent w (.writer a) spent = spent := by
  cases a with
  | notified => exact absurd rfl ha
  | _ => rfl

theorem Spent.notified (hS : Spent w spent) (h : w.notified = some w') :
    Spent w' (noteSpent w (.writer .notified) spent) := by
  simp only [World.notified] at h
  split at h
  · rename_i hpermit
    have hunspent : spent = false := by
      cases spent
      · rfl
      · have hp := (hS.spent rfl).1
        rw [hpermit] at hp
        cases hp
    subst hunspent
    split at h
    · rename_i hpc
      cases h
      refine ⟨hS.closing, fun hc => .inr (.inl ?_), fun hs => ⟨rfl, ?_⟩⟩
      · have hc : w.closer = .signalled := hc
        simp [noteSpent, Event.signals, hpc, hc]
      · simpa [noteSpent, Event.signals, hpc] using hs
    · rename_i hpc hheld
      cases h
      refine ⟨hS.closing, fun hc => .inr (.inr ?_), fun hs => ?_⟩
      · -- The writer stops, as `close` has begun.
        have hc : w.closer = .signalled := hc
        have hclosing : w.closing = true := hS.closing (by simp [hc])
        simp only [hclosing, if_true]
      · simp [noteSpent, Event.signals, hpc] at hs
    · cases h
  · cases h

theorem Spent.step (hS : Spent w spent) (h : machine.step w e = some w') :
    Spent w' (noteSpent w e spent) := by
  rcases step_cases h with ⟨a, rfl, hm⟩ | ⟨hne, haside⟩
  · -- Only `notified` takes the permit; any other step of the writer leaves it.
    by_cases ha : a = .notified
    · subst ha
      exact hS.notified h
    · obtain ⟨hpermit, hcloser, hclosing⟩ := hm.permit ha
      rw [noteSpent_writer ha]
      refine ⟨hcloser ▸ hclosing ▸ hS.closing, fun hc => ?_, hpermit ▸ hcloser ▸ hS.spent⟩
      rcases hS.permit (hcloser ▸ hc) with hp | hp | hp
      · exact .inl (hpermit ▸ hp)
      · exact .inr (.inl hp)
      · exact absurd hp (not_done_of_act h)
  · -- A signal gives the permit anew, and no other step beside the writer touches it.
    have hsame : e.signals = false → noteSpent w e spent = spent := by
      intro he
      cases e with
      | writer a => exact absurd rfl (hne a)
      | _ => first | rfl | cases he
    have hreset : e.signals = true → noteSpent w e spent = false := fun he => if_pos he
    cases haside with
    | signal signalling acking he =>
        rw [hreset he]
        exact ⟨hS.closing, fun _ => .inl rfl, nofun⟩
    | ackReceived he =>
        rw [hsame (he ▸ rfl)]
        exact { hS with }
    | close hclosing he =>
        rw [hsame he]
        refine ⟨fun _ => rfl, nofun, fun hs => ?_⟩
        have hc := (hS.spent hs).2
        rw [hS.closing (by simp [hc])] at hclosing
        cases hclosing
    | queueClose hcloser he =>
        rw [hsame he]
        refine ⟨fun _ => hS.closing (by simp [hcloser]), nofun, fun hs => ?_⟩
        rw [(hS.spent hs).2] at hcloser
        cases hcloser
    | closeSignal hcloser he =>
        rw [hreset he]
        exact ⟨fun _ => hS.closing (by simp [hcloser]), fun _ => .inl rfl, nofun⟩
    | closeByPeer he =>
        rw [hsame he]
        exact ⟨fun _ => rfl, hS.permit, hS.spent⟩
    | abort he =>
        rw [hsame he]
        exact ⟨hS.closing, fun _ => .inr (.inr rfl), hS.spent⟩
    | enqueue frame he =>
        rw [hsame he]
        exact { hS with }
    | noteReceived now seq signalling he =>
        rw [hsame he]
        exact { hS with }
    | generation transportGen attaching detaching he =>
        rw [hsame he]
        exact { hS with }
    | send cmd attaching detaching signalling he =>
        rw [hsame he]
        exact { hS with }
    | markClosed he =>
        rw [hsame he]
        exact { hS with }

theorem spent_reachable {C : World × Bool → Event → Prop} (h : watched.ReachableUnder C v) :
    Spent v.1 v.2 := by
  refine h.invariant (I := fun v => Spent v.1 v.2) ?_ ?_
  · rintro ⟨w, spent⟩ ⟨⟨capacity, negotiated, headerLen, maxReplayBytes, rfl⟩, rfl⟩
    exact ⟨nofun, nofun, nofun⟩
  · intro v e v' hS _ hs
    obtain ⟨hstep, hspent⟩ := Machine.step_observe hs
    rw [hspent]
    exact hS.step hstep

/-- The writer begins to wait for a transport at the beginning of `step` only. -/
theorem Move.detached_cases (h : Move w a w') (hpc' : w'.pc = .detached) :
    w.pc = .top ∧ w.closed = false ∧ w.writer = false ∧ w' = { w with pc := .detached } := by
  cases h with
  | detached hpc hclosed hw => exact ⟨hpc, hclosed, hw, rfl⟩
  | attach hcmds pc hpc => rcases hpc with ⟨-, rfl⟩ | ⟨-, rfl⟩ <;> cases hpc'
  | detach hcmds pc hpc => rcases hpc with ⟨-, rfl⟩ | ⟨-, rfl⟩ <;> cases hpc'
  | pending hpc now pc hpc'' => rcases hpc'' with rfl | ⟨seq, rfl⟩ <;> cases hpc'
  | keep hd hfits hfresh pc hpc =>
      rcases hpc with ⟨-, rfl⟩ | ⟨-, rfl⟩
      · cases hpc'
      · simp only at hpc'
        split at hpc' <;> cases hpc'
  | hold hd hfits hcan pc hpc => rcases hpc with ⟨-, rfl⟩ | ⟨-, rfl⟩ <;> cases hpc'
  | fail =>
      simp only [World.detach] at hpc'
      split at hpc' <;> cases hpc'
  | wakeDetached =>
      simp only at hpc'
      split at hpc' <;> cases hpc'
  | _ => cases hpc'

theorem ParksSpent.facts (hp : ParksSpent v e) :
    (∃ a, e = .writer a) ∧ v.1.pc = .top ∧ v.1.closed = false ∧ v.1.writer = false ∧
      v.1.held.isSome ∧ v.1.closer = .signalled ∧ v.1.writerCmds = [] ∧ v.2 = true := by
  cases e with
  | writer a => exact ⟨⟨a, rfl⟩, hp⟩
  | _ => exact hp.elim

theorem step_top (hpc : w.pc = .top) (hclosed : w.closed = false) (hw : w.writer = false)
    (h : machine.step w (.writer a) = some w') : w' = { w with pc := .detached } := by
  cases a with
  | goOn now =>
      change w.goOn now = some w' at h
      simp only [goOn, hpc] at h
      rw [if_neg (Bool.eq_false_iff.1 hclosed), if_neg (Bool.eq_false_iff.1 hw)] at h
      exact (Option.some.inj h).symm
  | _ => simp [machine, step, act, result, closedNotify, notified, command, recv, timer, hpc] at h

theorem stops_step (hS : Spent v.1 v.2) (hP : v.1.Stops) (h : watched.step v e = some v') :
    v'.1.Stops ↔ ¬ParksSpent v e := by
  obtain ⟨hstep, -⟩ := Machine.step_observe h
  obtain ⟨w', spent'⟩ := v'
  constructor
  · intro hP' hp
    obtain ⟨⟨a, rfl⟩, hpc, hclosed, hw, hheld, hcloser, hcmds, hspent⟩ := hp.facts
    rw [step_top hpc hclosed hw hstep] at hP'
    rcases hP' rfl hheld hcloser with hpermit | hcmds'
    · have hnone := (hS.spent hspent).1
      rw [show v.1.permit = true from hpermit] at hnone
      cases hnone
    · exact hcmds' hcmds
  · intro hp
    rcases step_cases hstep with ⟨a, rfl, hm⟩ | ⟨-, haside⟩
    · intro hpc hheld hcloser
      obtain ⟨htop, hclosed, hw, hv'⟩ := hm.detached_cases hpc
      simp only at hv'
      subst hv'
      rcases hS.permit hcloser with hpermit | hspent | hdone
      · exact .inl hpermit
      · -- The permit is spent, so a command is queued.
        exact .inr fun hcmds => hp ⟨htop, hclosed, hw, hheld, hcloser, hcmds, hspent⟩
      · rw [htop] at hdone
        cases hdone
    · intro hpc hheld hcloser
      cases haside with
      | signal => exact .inl rfl
      | closeSignal => exact .inl rfl
      | send => exact .inr (List.append_ne_nil_of_right_ne_nil _ (List.cons_ne_nil _ _))
      | close => cases hcloser
      | queueClose => cases hcloser
      | abort => cases hpc
      | _ => exact hP hpc hheld hcloser

/-- **A held frame stops the writer.**  In every run in which the writer never goes to wait for a
transport with a held frame and the permit of `close` spent, a writer that waits with a held frame
is told of `close`; and a step after such a run keeps this just if it is no such step. -/
theorem held_frame_stops (h : watched.ReachableUnder (fun v e => ¬ParksSpent v e) v) :
    v.1.Stops ∧ ∀ e v', watched.step v e = some v' → (v'.1.Stops ↔ ¬ParksSpent v e) := by
  have hP : v.1.Stops := by
    refine h.invariant_of (J := fun v => Spent v.1 v.2) (I := fun v => v.1.Stops)
      (fun v h => spent_reachable h) ?_ ?_
    · rintro ⟨w, spent⟩ ⟨⟨capacity, negotiated, headerLen, maxReplayBytes, rfl⟩, -⟩
      exact nofun
    · intro v e v' hS hP hC hs
      exact (stops_step hS hP hs).2 hC
  exact ⟨hP, fun e v' => stops_step (spent_reachable h) hP⟩

end stops

instance (v : World × Bool) : DecidablePred (ParksSpent v)
  | .writer _ => inferInstanceAs (Decidable (_ ∧ _ ∧ _ ∧ _ ∧ _ ∧ _ ∧ _))
  | .enqueue _ | .signalSend | .ackReceived _ | .ackSignal | .noteReceived _ _ | .attach _
  | .attachSend _ _ | .detach | .detachSend _ | .close | .queueClose | .closeSignal | .closeByPeer
  | .markClosed | .abort => isFalse id

/-- The transport breaks under a writer that holds a frame, and then `close` is called. -/
def breakThenClose : List Event :=
  heldRun ++ [Event.writer (.timer true), .writer (.result false), .writer (.goOn 0),
    .writer (.goOn 0), .writer .command, .writer (.goOn 0), .close, .queueClose, .closeSignal]

theorem held_frame_stops_signalled :
    ∃ v, watched.exec (.initial 4 (.new ⟨1, 1⟩ 18 30), false) breakThenClose = some v ∧
      v.1.pc = .detached ∧ v.1.held.isSome ∧ v.1.closer = .signalled ∧ v.1.Stops := by
  obtain ⟨hstops, -⟩ := held_frame_stops (Machine.ReachableUnder.exec (M := watched)
    (s := (.initial 4 (.new ⟨1, 1⟩ 18 30), false)) breakThenClose
    (.init ⟨⟨4, ⟨1, 1⟩, 18, 30, rfl⟩, rfl⟩) rfl (by decide))
  exact ⟨_, rfl, rfl, rfl, rfl, hstops⟩

/-- `close` is called while the writer is parked with a frame, which takes the permit to try the
frame again; then a ping finds the transport broken. -/
def closeThenBreak : List Event :=
  heldRun ++ [Event.close, .queueClose, .closeSignal, .writer .notified] ++
  List.replicate 6 (Event.writer (.goOn 0)) ++
  [Event.writer (.timer true), .writer (.result false), .writer (.goOn 0), .writer (.goOn 0),
    .writer .command, .writer (.goOn 0)]

/-- The writer is left waiting for a transport, as the permit of `close` is spent. -/
theorem held_frame_waits : ∃ w, machine.Reachable w ∧ ¬w.Stops := by
  refine ⟨_, Machine.reachable_of_exec closeThenBreak ⟨4, ⟨1, 1⟩, 18, 30, rfl⟩ rfl, ?_⟩
  decide

end AdaptiveMsg.Writer
