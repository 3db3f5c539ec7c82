import AdaptiveMsg.Link.Drains
import AdaptiveMsg.Link.Messages

/-!
# Link — the messages of a stream arrive

`messages_arrive`: on a v2 connection that does not fail, the steps of the tasks on both sides bring
every message sent on a stream to its inbox or the queue of its handler, whatever their order, the
sizes of the queues and the pieces of the bytes, as long as the application receives what is in the
inbox.  A stream that the sender finished or whose connection it closed is released then.  A handler
task that ends because it found the stream closed may leave jobs in its queue; any other runs them
all.

A frame of the link has more to go than all the work that it brings to the stream (`World.weight`).
-/

namespace AdaptiveMsg.Link.Messages

open Delivery (Reader AtRest On IsFin AtClose Keeps task_keeps rested)

variable {β τ : Type}

/-! ### What goes on by itself -/

section arrival

variable {p : Params} {cfg : Delivery.Config β τ} {w w' : World β τ} {e : Event}

/-- The steps of the tasks of both sides, as long as nothing fails, and of the application that
receives. -/
def GoesOn : Event → Prop
  | .link e => e.GoesOn
  | .accept | .closeByPeer => True
  | .stream e => e.isTask = true

structure Healthy (p : Params) (cfg : Delivery.Config β τ) (w : World β τ) : Prop where
  joined : ∃ seen, Joined p cfg w seen
  link : Link.Healthy p w.link

theorem calm_of_goesOn (he : GoesOn e) : Calm cfg w e := by
  cases e with
  | link e =>
      cases e with
      | accepted ok =>
          cases ok with
          | true => trivial
          | false => cases he
      | send _ _ | sendFin _ | readerAborted => cases he
      | _ => trivial
  | accept | closeByPeer => trivial
  | stream e =>
      cases e with
      | release | timeLimit => cases he
      | _ => trivial

theorem Healthy.step (hH : Healthy p cfg w) (he : GoesOn e) (h : w.step p cfg e = some w') :
    Healthy p cfg w' := by
  obtain ⟨seen, hJ⟩ := hH.joined
  refine ⟨hJ.step (calm_of_goesOn he) h, ?_⟩
  cases e with
  | link e =>
      simp only [World.step] at h
      split at h
      · cases h
      · obtain ⟨l', hl, rfl⟩ := Option.map_eq_some_iff.mp h
        exact hH.link.step he hl
  | accept =>
      simp only [World.step] at h
      split at h
      · obtain ⟨-, h⟩ := Option.ite_none_right_eq_some.mp h
        obtain ⟨c', -, rfl⟩ := Option.map_eq_some_iff.mp h
        exact hH.link
      · cases h
  | closeByPeer =>
      obtain ⟨-, h⟩ := Option.ite_none_right_eq_some.mp h
      obtain ⟨c', -, rfl⟩ := Option.map_eq_some_iff.mp h
      exact hH.link
  | stream e =>
      cases e with
      | accept _ _ | closeByPeer => cases h
      | release | timeLimit => cases he
      | reader | decode _ | handle | receive =>
          obtain ⟨c', -, rfl⟩ := Option.map_eq_some_iff.mp h
          exact hH.link

/-! ### The measure -/

/-- The reader has yet to come to `close_by_peer`. -/
def beforeClose : Reader → Nat
  | .closeQueueFin | .closeWait | .marking | .ended => 0
  | .idle | .sending _ _ | .queueFin => 15

/-- The steps that the messages have yet to take are fewer than this. -/
def World.weight (p : Params) (cfg : Delivery.Config β τ) (w : World β τ) : Nat :=
  30 * w.link.weight p + 15 * (w.fresh cfg).length + beforeClose w.stream.reader + w.stream.work

theorem length_fresh_le (cfg : Delivery.Config β τ) (w : World β τ) :
    (w.fresh cfg).length ≤ 1 := by
  unfold World.fresh
  split
  · split
    · exact Nat.le_refl _
    · exact Nat.zero_le _
  · exact Nat.zero_le _

theorem beforeClose_open {r : Reader} (h : ¬AtClose r) : beforeClose r = 15 := by
  cases r with
  | idle | sending _ _ | queueFin => rfl
  | closeQueueFin | closeWait | marking | ended => exact absurd trivial h

theorem beforeClose_of_keeps {c c' : Delivery.State β τ} (h : Keeps c c') :
    beforeClose c'.reader = beforeClose c.reader := by
  have hiff := h.atClose
  cases hc : c.reader <;> cases hc' : c'.reader <;> simp [AtClose, hc, hc'] at hiff <;> rfl

theorem work_closeByPeer {c c' : Delivery.State β τ}
    (h : Delivery.step cfg c .closeByPeer = some c') :
    beforeClose c'.reader + c'.work < beforeClose c.reader + c.work := by
  simp only [Delivery.step] at h
  split at h
  · rename_i hidle
    cases h
    cases c.registered <;>
      simp [Delivery.State.work, Delivery.Reader.work, beforeClose, hidle] <;> omega
  · cases h

theorem weight_lt (hH : Healthy p cfg w) (he : GoesOn e) (h : w.step p cfg e = some w') :
    w'.weight p cfg < w.weight p cfg := by
  cases e with
  | link e =>
      simp only [World.step] at h
      split at h
      · cases h
      · obtain ⟨l', hl, rfl⟩ := Option.map_eq_some_iff.mp h
        have hlt := weight_step he hl hH.link.inv
        have hfresh := length_fresh_le cfg { w with link := l', begun := w.begun && !returns e }
        simp only [World.weight]
        omega
  | accept =>
      simp only [World.step] at h
      split at h
      · rename_i frame hr
        obtain ⟨⟨hon, hb⟩, h⟩ := Option.ite_none_right_eq_some.mp h
        obtain ⟨c', hc, rfl⟩ := Option.map_eq_some_iff.mp h
        obtain ⟨hopen, hopen', hlt⟩ := Delivery.work_accept hc
        have hbegun : World.fresh cfg { w with stream := c', begun := true } = [] := fresh_begun rfl
        simp only [World.weight, hbegun, fresh_accepting hr hon hb, List.length_nil,
          List.length_singleton, beforeClose_open hopen, beforeClose_open hopen']
        omega
      · cases h
  | closeByPeer =>
      obtain ⟨-, h⟩ := Option.ite_none_right_eq_some.mp h
      obtain ⟨c', hc, rfl⟩ := Option.map_eq_some_iff.mp h
      have hlt := work_closeByPeer hc
      have hfresh : World.fresh cfg { w with stream := c' } = w.fresh cfg := rfl
      simp only [World.weight, hfresh]
      omega
  | stream e =>
      have he : e.isTask = true := he
      cases e with
      | accept _ _ | closeByPeer | release | timeLimit => cases he
      | reader | decode _ | handle | receive =>
          obtain ⟨c', hc, rfl⟩ := Option.map_eq_some_iff.mp h
          have hlt := Delivery.work_lt rfl hc
          have hkeep := beforeClose_of_keeps (task_keeps rfl hc)
          have hfresh : World.fresh cfg { w with stream := c' } = w.fresh cfg := rfl
          simp only [World.weight, hfresh, hkeep]
          omega

/-! ### What is bound to happen -/

/-- What becomes of the messages sent so far. -/
structure Arrived (cfg : Delivery.Config β τ) (w : World β τ) : Prop where
  link : Link.Delivered w.link
  dispatched : (w.sent cfg).map cfg.decodeEnvelope = w.stream.dispatched.map .ok
  received : w.stream.inbox = []
  /-- A handler task that has not ended has run its queue empty. -/
  jobs : w.stream.handlerTask ≠ .ended → w.stream.jobs = []
  /-- The stream that the sender finished, or whose connection it closed, is released. -/
  released : (∃ frame ∈ plainFrames w.link.queued, IsFin cfg frame) ∨ .close ∈ w.link.queued →
    w.stream.registered = false

/-- A frame that is handed over gets the stream looked up. -/
theorem Joined.accept_goes {seen : List WireFrame} {frame : WireFrame} (hJ : Joined p cfg w seen)
    (hr : w.link.reader = .accepting frame) (hon : On cfg frame) (hb : w.begun = false) :
    ∃ w', w.step p cfg .accept = some w' := by
  have hopen : ¬AtClose w.stream.reader := fun hclose => by
    rw [hJ.closing hclose] at hr
    cases hr
  have hidle : w.stream.reader = .idle := (hJ.idle hb).resolve_right hopen
  have hfin : w.stream.finished = false := by
    by_contra hf
    obtain ⟨fin, hmem, hfin⟩ :=
      (hJ.stream.finished.mp (Bool.eq_true_of_not_eq_false hf)).resolve_left hopen
    obtain ⟨rest, hrest⟩ := hJ.seen_le
    have hlast := hJ.sends.finLast
    rw [← hrest, fresh_accepting hr hon hb, List.append_assoc, List.pairwise_append] at hlast
    exact hlast.2.2 fin hmem frame (List.mem_cons_self ..) hfin hon
  refine ⟨{ w with
    stream := Delivery.accept cfg w.stream frame.flags frame.payload
    begun := true }, ?_⟩
  simp [World.step, hr, hon, hb, Delivery.step, hidle, hfin]

/-- The reader of the link ends at the last frame and closes the stream. -/
theorem closeByPeer_goes (p : Params) (cfg : Delivery.Config β τ) {w : World β τ}
    (hr : w.link.reader = .ended (.ok ())) (hidle : w.stream.reader = .idle) :
    ∃ w', w.step p cfg .closeByPeer = some w' := by
  simp [World.step, hr, Delivery.step, hidle]

section still

variable {seen : List WireFrame} (hrest : ∀ e, GoesOn e → w.step p cfg e = none)
include hrest

/-- Where no task can take a step, those of the stream are at rest. -/
theorem atRest_of_still : AtRest cfg w.stream := by
  intro e he
  have h := hrest (.stream e) he
  cases e with
  | accept _ _ | closeByPeer | release | timeLimit => cases he
  | reader | decode _ | handle | receive => exact Option.map_eq_none_iff.mp h

/-- The stream has been looked up for each frame handed over. -/
theorem Joined.fresh_nil (hJ : Joined p cfg w seen) : w.fresh cfg = [] := by
  unfold World.fresh
  split
  · rename_i frame hr
    split
    · rename_i hon
      obtain ⟨w', hs⟩ := hJ.accept_goes hr hon.1 hon.2
      cases hs.symm.trans (hrest .accept trivial)
    · rfl
  · rfl

/-- No call of `accept_frame` is left waiting. -/
theorem Joined.mayReturn (hJ : Joined p cfg w seen) : w.MayReturn cfg := by
  intro frame hr hon
  have hb : w.begun = true := by
    by_contra hb
    have hfresh := hJ.fresh_nil hrest
    rw [fresh_accepting hr hon (Bool.eq_false_of_not_eq_true hb)] at hfresh
    cases hfresh
  obtain ⟨data, k, hF⟩ := hJ.stream.inv
  refine ⟨hb, (rested hF (atRest_of_still hrest)).reader.resolve_right fun hended => ?_⟩
  rw [hJ.closing (by rw [hended]; trivial)] at hr
  cases hr

/-- So the link is left with nothing to deliver. -/
theorem Healthy.delivered (hH : Healthy p cfg w) : Link.Delivered w.link := by
  obtain ⟨seen, hJ⟩ := hH.joined
  by_contra hG
  obtain ⟨e, l', he, hl⟩ := link_goes hH.link hG
  have h := hrest (.link e) he
  simp [World.step, hJ.mayReturn hrest, hl] at h

/-- And all has arrived. -/
theorem Healthy.arrived (hH : Healthy p cfg w) : Arrived cfg w := by
  obtain ⟨seen, hJ⟩ := hH.joined
  obtain ⟨data, k, hF⟩ := hJ.stream.inv
  have hR := rested hF (atRest_of_still hrest)
  have hlink := hH.delivered hrest
  have hseen : plainFrames w.link.queued = seen := by
    rw [← hlink.handed, hJ.handed, hJ.fresh_nil hrest, List.append_nil]
  have hsent : w.sent cfg = w.stream.accepted := by rw [World.sent, hseen, hJ.stream.accepted]
  refine ⟨hlink, by rw [hsent]; exact hR.dispatched, hR.inbox, hR.jobs, fun hend => ?_⟩
  refine hR.released (hJ.stream.finished.mpr ?_)
  rcases hend with ⟨fin, hmem, hfin⟩ | hclose
  · exact .inr ⟨fin, hseen ▸ hmem, hfin⟩
  · have hr := (hlink.close hclose).2
    rcases hR.reader with hidle | hended
    · obtain ⟨w', hs⟩ := closeByPeer_goes p cfg hr hidle
      cases hs.symm.trans (hrest .closeByPeer trivial)
    · exact .inl (by rw [hended]; trivial)

end still

end arrival

/-- **The messages sent on a v2 stream arrive**: without a further send, the tasks of both sides
bring all of them to the inbox or the handler's queue, if neither side fails. -/
theorem messages_arrive (p : Params) (cfg : Delivery.Config β τ) (w : World β τ)
    (h : (machine p cfg).ReachableUnder (Calm cfg) w)
    (hreader : ∀ err, w.link.reader ≠ .ended (.error err)) (hab : w.link.reader ≠ .aborted)
    (hwriter : w.link.pc = .done → w.link.reported = some true) :
    (machine p cfg).Leads GoesOn (Arrived cfg) w := by
  obtain ⟨seen, hJ⟩ := joined_reachable h
  refine Machine.leads_of_measure (I := Healthy p cfg) (World.weight p cfg)
    (fun _ _ _ hH he hs => ⟨hH.step he hs, weight_lt hH he hs⟩) (fun w hH hG => ?_)
    ⟨⟨seen, hJ⟩, hJ.link, hreader, hab, hwriter⟩
  by_contra hnone
  refine hG (hH.arrived fun e he => ?_)
  by_contra hs
  obtain ⟨w', hw'⟩ := Option.ne_none_iff_exists'.mp hs
  exact hnone ⟨e, w', he, hw'⟩

theorem messages_arrive_sent : (machine smallLink Delivery.twoNames).Leads GoesOn
    (Arrived Delivery.twoNames) (after sendRun) :=
  messages_arrive smallLink Delivery.twoNames (after sendRun)
    (.exec sendRun (.init rfl) rfl (by decide)) nofun nofun nofun

end AdaptiveMsg.Link.Messages
