import AdaptiveMsg.Link.Delivery
import AdaptiveMsg.Stream.Frames

/-!
# Link — the messages of a stream, from end to end

A v2 link, and one stream at its far end.  With a frame of the stream the reader of the link is the
reader of the stream, until `accept_frame` returns, and again in `close_by_peer` after the last
frame.  The other streams are left to the environment, which lets the reader return from theirs.

The stream is registered from the start.  `Calm` are the runs in which the sender sends nothing on
it behind its FIN, its messages decode, nobody but the peer closes the receiving side, and
`close_by_peer` is not cut short.

* `Joined`: what the stream has accepted are the payloads of the frames handed over.
* `stream_end_to_end`: the messages that reach the inbox and the handlers are the first ones sent
  on the stream, in order, and all of them once it is released at its FIN or at a close reported
  written.
-/

namespace AdaptiveMsg.Link.Messages

open Delivery (Reader On IsFin payloadsOn Sends Seen AtClose)
open Delivery (payloadsOn_append payloadsOn_off payloadsOn_of_off)

variable {β τ : Type}

/-! ### The link and the stream -/

structure World (β τ : Type) where
  link : Link.World
  stream : Delivery.State β τ
  /-- The reader has looked the stream up for the frame it holds. -/
  begun : Bool

inductive Event where
  | link (e : Link.Event)
  /-- The reader looks the stream up in `accept_frame`, and in `close_by_peer`. -/
  | accept
  | closeByPeer
  | stream (e : Delivery.Event)
  deriving DecidableEq, Repr

/-- `accept_frame` returns. -/
def returns : Link.Event → Bool
  | .accepted _ => true
  | _ => false

namespace World

variable (p : Params) (cfg : Delivery.Config β τ) (w : World β τ)

/-- With a frame of the stream, `accept_frame` returns when the stream has taken it. -/
def MayReturn : Prop :=
  ∀ frame, w.link.reader = .accepting frame → On cfg frame →
    w.begun = true ∧ w.stream.reader = .idle

instance : Decidable (w.MayReturn cfg) :=
  match h : w.link.reader with
  | .accepting frame =>
    decidable_of_iff (On cfg frame → w.begun = true ∧ w.stream.reader = .idle) (by
      simp only [MayReturn, h, ReaderPc.accepting.injEq]
      exact ⟨fun hr f hf hon => hr (hf ▸ hon), fun hr hon => hr frame rfl hon⟩)
  | .header _ | .payload .. | .ended _ | .aborted => isTrue (by simp [MayReturn, h])

def step : Event → Option (World β τ)
  | .link e =>
    if returns e = true ∧ ¬w.MayReturn cfg then none
    else (w.link.step p e).map fun link =>
      { w with link := link, begun := w.begun && !returns e }
  | .accept =>
    match w.link.reader with
    | .accepting frame =>
      if On cfg frame ∧ w.begun = false then
        (Delivery.step cfg w.stream (.accept frame.flags frame.payload)).map fun stream =>
          { w with stream := stream, begun := true }
      else none
    | _ => none
  | .closeByPeer =>
    if w.link.reader = .ended (.ok ()) then
      (Delivery.step cfg w.stream .closeByPeer).map fun stream => { w with stream := stream }
    else none
  | .stream e =>
    match e with
    | .accept _ _ | .closeByPeer => none
    | e => (Delivery.step cfg w.stream e).map fun stream => { w with stream := stream }

def initial : World β τ := ⟨.initial, Delivery.initial, false⟩

end World

def machine (p : Params) (cfg : Delivery.Config β τ) : Machine (World β τ) Event :=
  ⟨(· = .initial), World.step p cfg⟩

/-! ### What is sent on the stream -/

section messages

variable (p : Params) (cfg : Delivery.Config β τ) (w : World β τ)

/-- The payloads sent on the stream. -/
def World.sent : List (List UInt8) := payloadsOn cfg (plainFrames w.link.queued)

/-- The stream is not finished by the sender. -/
def World.Unfinished : Prop := ∀ frame ∈ plainFrames w.link.queued, ¬IsFin cfg frame

instance : Decidable (w.Unfinished cfg) :=
  inferInstanceAs (Decidable (∀ frame ∈ plainFrames w.link.queued, ¬IsFin cfg frame))

/-- The sender sends nothing behind its FIN, what it sends decodes, only the peer closes the
receiving side, and the time limit does not cut `close_by_peer` short. -/
def Calm (w : World β τ) : Event → Prop
  | .link (.send streamId payload) =>
    streamId.toNat = cfg.streamId →
      w.Unfinished cfg ∧ (payload = [] ∨ cfg.decodes payload = true)
  | .link (.sendFin streamId) => streamId.toNat = cfg.streamId → w.Unfinished cfg
  | .link .readerAborted | .link (.accepted false) => False
  | .stream .release | .stream .timeLimit => False
  | _ => True

instance (w : World β τ) : ∀ e, Decidable (Calm cfg w e)
  | .link e =>
    match e with
    | .send _ _ | .sendFin _ => inferInstanceAs (Decidable (_ → _))
    | .readerAborted | .accepted false => isFalse id
    | .queueClose | .markClosed | .abort | .closedNotify | .command | .recv | .goOn | .buffer _
    | .spill _ | .writeFails | .read _ | .eof | .readFails | .accepted true => isTrue trivial
  | .accept | .closeByPeer => isTrue trivial
  | .stream e =>
    match e with
    | .release | .timeLimit => isFalse id
    | .accept _ _ | .closeByPeer | .reader | .decode _ | .handle | .receive => isTrue trivial

/-- The frame that the reader has not looked the stream up for yet. -/
def World.fresh : List WireFrame :=
  match w.link.reader with
  | .accepting frame => if On cfg frame ∧ w.begun = false then [frame] else []
  | _ => []

end messages

/-- The stream has accepted the payloads of the frames in `seen`, which were handed over before the
one the reader may hold. -/
structure Joined (p : Params) (cfg : Delivery.Config β τ) (w : World β τ) (seen : List WireFrame) :
    Prop where
  link : Link.Inv p w.link
  stream : Seen cfg w.stream seen
  sends : Sends cfg (plainFrames w.link.queued)
  handed : w.link.handed = seen ++ w.fresh cfg
  closing : AtClose w.stream.reader → w.link.reader = .ended (.ok ())
  begun : w.begun = true → ∃ frame, w.link.reader = .accepting frame ∧ On cfg frame
  idle : w.begun = false → w.stream.reader = .idle ∨ AtClose w.stream.reader

/-! ### What a step of the link does to the reader and to what is queued -/

section link

variable {p : Params} {l l' : Link.World} {e : Link.Event}

/-- The entry that an event queues. -/
def entry : Link.Event → Option OutboundFrame
  | .send streamId payload => some (.plain streamId 0 payload)
  | .sendFin streamId => some (.plain streamId frameFlagFin [])
  | .queueClose => some .close
  | _ => none

/-- What becomes of the reader: it goes on with its bytes, returns from `accept_frame`, or is left
alone. -/
inductive Moves (l l' : Link.World) : Link.Event → Prop where
  | same {e : Link.Event} (he : returns e = false) (hreader : l'.reader = l.reader)
      (hhanded : l'.handed = l.handed) : Moves l l' e
  | reads {e : Link.Event} (he : returns e = false) (hat : ∀ frame, l.reader ≠ .accepting frame)
      (hend : ∀ result, l.reader ≠ .ended result)
      (hhanded : l'.handed = Flow.handedAt l.handed l'.reader) : Moves l l' e
  | returns {ok : Bool} {frame : WireFrame} (hat : l.reader = .accepting frame)
      (hreader : ∀ frame, l'.reader ≠ .accepting frame) (hend : l'.reader ≠ .ended (.ok ()))
      (hhanded : l'.handed = l.handed) : Moves l l' (.accepted ok)
  | aborted : Moves l l' .readerAborted

theorem handed_moveReader (l : Link.World) (pc : ReaderPc) :
    (l.moveReader pc).handed = Flow.handedAt l.handed (l.moveReader pc).reader := by
  cases pc <;> rfl

theorem queued_moveReader (l : Link.World) (pc : ReaderPc) :
    (l.moveReader pc).queued = l.queued := by
  cases pc <;> rfl

theorem step_moves (h : l.step p e = some l') : Moves l l' e := by
  cases e with
  | read n =>
      simp only [Link.World.step, Link.World.read] at h
      split at h
      · rename_i hr
        obtain ⟨-, h⟩ := Option.ite_none_right_eq_some.mp h
        cases h
        exact .reads rfl (by simp [hr]) (by simp [hr]) (handed_moveReader _ _)
      · rename_i hr
        obtain ⟨-, h⟩ := Option.ite_none_right_eq_some.mp h
        cases h
        exact .reads rfl (by simp [hr]) (by simp [hr]) (handed_moveReader _ _)
      · cases h
  | eof =>
      simp only [Link.World.step, Link.World.eof] at h
      split at h
      · split at h
        · rename_i hr
          cases h
          exact .reads rfl (by simp [hr]) (by simp [hr]) rfl
        · rename_i hr
          cases h
          exact .reads rfl (by simp [hr]) (by simp [hr]) rfl
        · rename_i hr
          cases h
          exact .reads rfl (by simp [hr]) (by simp [hr]) rfl
        · cases h
      · cases h
  | readFails =>
      simp only [Link.World.step, Link.World.readFails] at h
      split at h
      · rename_i hr
        cases h
        exact .reads rfl (by simp [hr]) (by simp [hr]) rfl
      · rename_i hr
        cases h
        exact .reads rfl (by simp [hr]) (by simp [hr]) rfl
      · cases h
  | accepted ok =>
      simp only [Link.World.step, Link.World.accepted] at h
      split at h
      · rename_i frame hr
        cases h
        cases ok with
        | true => exact .returns hr (by simp) (by simp) rfl
        | false => exact .returns hr (by simp) (by simp) rfl
      · cases h
  | readerAborted => exact .aborted
  | send _ _ | sendFin _ | queueClose =>
      simp only [Link.World.step, Link.World.queue] at h
      repeat' split at h
      all_goals cases h
      exact .same rfl rfl rfl
  | markClosed =>
      cases h
      exact .same rfl rfl rfl
  | abort | closedNotify | command =>
      obtain ⟨-, h⟩ := Option.ite_none_right_eq_some.mp h
      cases h
      exact .same rfl rfl rfl
  | recv | goOn | buffer _ | spill _ | writeFails =>
      simp only [Link.World.step, Link.World.goOn, Link.World.fill, Link.World.spill,
        Link.World.writeFails] at h
      repeat' split at h
      all_goals cases h
      all_goals exact .same rfl rfl rfl

theorem step_queued (h : l.step p e = some l') : l'.queued = l.queued ++ (entry e).toList := by
  cases e with
  | send _ _ | sendFin _ | queueClose =>
      simp only [Link.World.step, Link.World.queue] at h
      repeat' split at h
      all_goals cases h
      rfl
  | markClosed =>
      cases h
      exact (List.append_nil _).symm
  | abort | closedNotify | command | eof =>
      simp only [Link.World.step, Link.World.eof] at h
      repeat' split at h
      all_goals cases h
      all_goals exact (List.append_nil _).symm
  | recv | goOn | buffer _ | spill _ | writeFails | accepted _ | readerAborted | readFails =>
      simp only [Link.World.step, Link.World.goOn, Link.World.fill, Link.World.spill,
        Link.World.writeFails, Link.World.accepted, Link.World.readerAborted,
        Link.World.readFails] at h
      repeat' split at h
      all_goals cases h
      all_goals exact (List.append_nil _).symm
  | read n =>
      simp only [Link.World.step, Link.World.read] at h
      repeat' split at h
      all_goals cases h
      all_goals exact (queued_moveReader _ _).trans (List.append_nil _).symm

end link

/-! ### Every run -/

section runs

variable {p : Params} {cfg : Delivery.Config β τ} {w w' : World β τ} {seen : List WireFrame}

theorem Joined.initial : Joined p cfg (.initial : World β τ) [] where
  link := .initial
  stream := .initial
  sends := ⟨nofun, .nil⟩
  handed := rfl
  closing h := h.elim
  begun h := by cases h
  idle _ := .inl rfl

/-- What is handed over was queued. -/
theorem Joined.seen_le (hJ : Joined p cfg w seen) :
    seen ++ w.fresh cfg <+: plainFrames w.link.queued := by
  exact hJ.handed ▸ hJ.link.fifo

/-- The reader is inside of `accept_frame` with this frame, and has not looked the stream up. -/
theorem fresh_accepting {frame : WireFrame} (hr : w.link.reader = .accepting frame)
    (hon : On cfg frame) (hb : w.begun = false) : w.fresh cfg = [frame] := by
  simp [World.fresh, hr, hon, hb]

theorem fresh_of_not_accepting (h : ∀ frame, w.link.reader ≠ .accepting frame) :
    w.fresh cfg = [] := by
  unfold World.fresh
  split
  · exact absurd ‹_› (h _)
  · rfl

theorem fresh_begun (h : w.begun = true) : w.fresh cfg = [] := by
  simp only [World.fresh, h]
  split <;> simp

theorem sends_queue {queued : List OutboundFrame} {e : OutboundFrame}
    (hS : Sends cfg (plainFrames queued))
    (he : ∀ frame ∈ plainFrames [e], On cfg frame →
      (∀ earlier ∈ plainFrames queued, ¬IsFin cfg earlier) ∧
        (frame.payload = [] ∨ cfg.decodes frame.payload = true)) :
    Sends cfg (plainFrames (queued ++ [e])) := by
  by_cases hclose : .close ∈ queued
  · rwa [plainFrames_append_of_close hclose]
  · rw [plainFrames_append hclose]
    refine ⟨fun frame hf hon => ?_, ?_⟩
    · rcases List.mem_append.mp hf with hf | hf
      · exact hS.decodes frame hf hon
      · exact (he frame hf hon).2
    · refine List.pairwise_append.mpr ⟨hS.finLast, ?_, fun earlier hmem later hlater hfin hon => ?_⟩
      · cases e with
        | plain streamId flags payload => exact List.pairwise_singleton _ _
        | close => exact .nil
      · exact (he later hlater hon).1 earlier hmem hfin

theorem sends_step {e : Link.Event} {l' : Link.World} (hS : Sends cfg (plainFrames w.link.queued))
    (hC : Calm cfg w (.link e)) (h : w.link.step p e = some l') :
    Sends cfg (plainFrames l'.queued) := by
  rw [step_queued h]
  cases e with
  | send streamId payload =>
      refine sends_queue hS fun frame hf hon => ?_
      obtain rfl := List.mem_singleton.mp hf
      exact hC hon
  | sendFin streamId =>
      refine sends_queue hS fun frame hf hon => ?_
      obtain rfl := List.mem_singleton.mp hf
      exact ⟨hC hon, .inl rfl⟩
  | queueClose => exact sends_queue hS fun frame hf => by cases hf
  | _ => exact (List.append_nil w.link.queued).symm ▸ hS

/-- The reader reads on, or the transport ends. -/
theorem Joined.reads {l' : Link.World} (hJ : Joined p cfg w seen)
    (hat : ∀ frame, w.link.reader ≠ .accepting frame)
    (hend : ∀ result, w.link.reader ≠ .ended result)
    (hhanded : l'.handed = Flow.handedAt w.link.handed l'.reader) (hl : Link.Inv p l')
    (hS : Sends cfg (plainFrames l'.queued)) :
    ∃ seen, Joined p cfg { w with link := l' } seen := by
  have hbegun : w.begun = false := by
    by_contra hb
    obtain ⟨frame, hr, -⟩ := hJ.begun (Bool.eq_true_of_not_eq_false hb)
    exact hat frame hr
  have hopen : ¬AtClose w.stream.reader := fun hclose => hend _ (hJ.closing hclose)
  have hseen : w.link.handed = seen := by
    rw [hJ.handed, fresh_of_not_accepting hat, List.append_nil]
  have hnew : ∀ seen', l'.handed = seen' ++ World.fresh cfg { w with link := l' } →
      payloadsOn cfg seen' = payloadsOn cfg seen →
      ((∃ frame ∈ seen', IsFin cfg frame) ↔ ∃ frame ∈ seen, IsFin cfg frame) →
      Joined p cfg { w with link := l' } seen' := fun seen' hh hp hf =>
    { link := hl
      stream := ⟨hJ.stream.inv, hJ.stream.accepted.trans hp.symm,
        hJ.stream.finished.trans (or_congr_right hf.symm)⟩
      sends := hS
      handed := hh
      closing := fun hclose => absurd hclose hopen
      begun := fun hb => by
        rw [show w.begun = true from hb] at hbegun
        cases hbegun
      idle := hJ.idle }
  by_cases hfresh : ∃ frame, l'.reader = .accepting frame
  · obtain ⟨frame, hr⟩ := hfresh
    rw [hr, Flow.handedAt, hseen] at hhanded
    by_cases hon : On cfg frame
    · have hf : World.fresh cfg { w with link := l' } = [frame] :=
        fresh_accepting (w := { w with link := l' }) hr hon hbegun
      exact ⟨seen, hnew seen (hhanded.trans (by rw [hf])) rfl .rfl⟩
    · refine ⟨seen ++ [frame], hnew _ (hhanded.trans ?_) ?_ ?_⟩
      · simp [World.fresh, hr, hon]
      · rw [payloadsOn_append, payloadsOn_off hon, List.append_nil]
      · constructor
        · rintro ⟨f, hf, hfin⟩
          rcases List.mem_append.mp hf with hf | hf
          · exact ⟨f, hf, hfin⟩
          · exact absurd (List.mem_singleton.mp hf ▸ hfin.1) hon
        · rintro ⟨f, hf, hfin⟩
          exact ⟨f, List.mem_append_left _ hf, hfin⟩
  · have hnone : ∀ frame, l'.reader ≠ .accepting frame := fun frame hr => hfresh ⟨frame, hr⟩
    refine ⟨seen, hnew seen ?_ rfl .rfl⟩
    rw [fresh_of_not_accepting hnone, List.append_nil, hhanded, ← hseen]
    cases hr : l'.reader with
    | accepting frame => exact absurd hr (hnone frame)
    | _ => rfl

theorem Joined.linkStep {e : Link.Event} {l' : Link.World} (hJ : Joined p cfg w seen)
    (hC : Calm cfg w (.link e)) (hmay : returns e = true → w.MayReturn cfg)
    (h : w.link.step p e = some l') :
    ∃ seen, Joined p cfg { w with link := l', begun := w.begun && !returns e } seen := by
  have hl : Link.Inv p l' := hJ.link.step h
  have hS := sends_step hJ.sends hC h
  cases step_moves h with
  | same he hreader hhanded =>
      rw [he, Bool.not_false, Bool.and_true]
      refine ⟨seen, { hJ with
        link := hl
        sends := hS
        handed := ?_
        closing := fun hclose => hreader.trans (hJ.closing hclose)
        begun := fun hb => ?_ }⟩
      · rw [hhanded, hJ.handed]
        simp only [World.fresh, hreader]
      · obtain ⟨frame, hr, hon⟩ := hJ.begun hb
        exact ⟨frame, hreader.trans hr, hon⟩
  | reads he hat hend hhanded =>
      rw [he, Bool.not_false, Bool.and_true]
      exact hJ.reads hat hend hhanded hl hS
  | @returns ok frame hat hreader hend hhanded =>
      have hfresh : w.fresh cfg = [] := by
        by_cases hon : On cfg frame
        · exact fresh_begun (hmay rfl frame hat hon).1
        · simp [World.fresh, hat, hon]
      refine ⟨seen, { hJ with
        link := hl
        sends := hS
        handed := ?_
        closing := fun hclose => absurd (hJ.closing hclose) (by simp [hat])
        begun := fun hb => ?_
        idle := fun _ => ?_ }⟩
      · rw [hhanded, hJ.handed, hfresh, fresh_of_not_accepting hreader]
      · simp [Messages.returns] at hb
      · by_cases hon : On cfg frame
        · exact .inl (hmay rfl frame hat hon).2
        · refine hJ.idle ?_
          by_contra hb
          obtain ⟨f, hr, hf⟩ := hJ.begun (Bool.eq_true_of_not_eq_false hb)
          rw [hat] at hr
          cases hr
          exact hon hf
  | aborted => exact hC.elim

/-- `accept_frame` looks the stream up. -/
theorem Joined.accept {frame : WireFrame} {c' : Delivery.State β τ} (hJ : Joined p cfg w seen)
    (hr : w.link.reader = .accepting frame) (hon : On cfg frame) (hb : w.begun = false)
    (h : Delivery.step cfg w.stream (.accept frame.flags frame.payload) = some c') :
    Joined p cfg { w with stream := c', begun := true } (seen ++ [frame]) := by
  have hfresh := fresh_accepting hr hon hb
  have hmem : frame ∈ plainFrames w.link.queued :=
    hJ.seen_le.subset (by rw [hfresh]; exact List.mem_append_right _ (List.mem_singleton_self _))
  have hopen := (Delivery.accept_takes hJ.stream.inv h).2.2.2
  refine { hJ with
    stream := hJ.stream.accept hon (hJ.sends.decodes frame hmem hon) h
    handed := ?_
    closing := fun hclose => absurd hclose hopen
    begun := fun _ => ⟨frame, hr, hon⟩
    idle := fun hb => by cases hb }
  rw [fresh_begun rfl, List.append_nil, hJ.handed, hfresh]

theorem Joined.closeByPeer {c' : Delivery.State β τ} (hJ : Joined p cfg w seen)
    (hr : w.link.reader = .ended (.ok ())) (h : Delivery.step cfg w.stream .closeByPeer = some c') :
    Joined p cfg { w with stream := c' } seen := by
  have hclose := (Delivery.closeByPeer_takes h).2.2
  exact { hJ with
    stream := hJ.stream.closeByPeer h
    closing := fun _ => hr
    idle := fun _ => .inr hclose }

theorem Joined.task {e : Delivery.Event} {c' : Delivery.State β τ} (hJ : Joined p cfg w seen)
    (he : e.isTask = true) (h : Delivery.step cfg w.stream e = some c') :
    Joined p cfg { w with stream := c' } seen := by
  have hK := Delivery.task_keeps he h
  exact { hJ with
    stream := hJ.stream.task he h
    closing := fun hclose => hJ.closing (hK.atClose.mp hclose)
    idle := fun hb => (hJ.idle hb).imp hK.idle hK.atClose.mpr }

theorem Joined.step {e : Event} (hJ : Joined p cfg w seen) (hC : Calm cfg w e)
    (h : w.step p cfg e = some w') : ∃ seen, Joined p cfg w' seen := by
  cases e with
  | link e =>
      simp only [World.step] at h
      split at h
      · cases h
      · rename_i hmay
        obtain ⟨l', hl, rfl⟩ := Option.map_eq_some_iff.mp h
        exact hJ.linkStep hC (fun he => by by_contra hn; exact hmay ⟨he, hn⟩) hl
  | accept =>
      simp only [World.step] at h
      split at h
      · rename_i frame hr
        obtain ⟨⟨hon, hb⟩, h⟩ := Option.ite_none_right_eq_some.mp h
        obtain ⟨c', hc, rfl⟩ := Option.map_eq_some_iff.mp h
        exact ⟨_, hJ.accept hr hon hb hc⟩
      · cases h
  | closeByPeer =>
      obtain ⟨hr, h⟩ := Option.ite_none_right_eq_some.mp h
      obtain ⟨c', hc, rfl⟩ := Option.map_eq_some_iff.mp h
      exact ⟨_, hJ.closeByPeer hr hc⟩
  | stream e =>
      cases e with
      | accept _ _ | closeByPeer => cases h
      | release | timeLimit => exact hC.elim
      | reader | decode _ | handle | receive =>
          obtain ⟨c', hc, rfl⟩ := Option.map_eq_some_iff.mp h
          exact ⟨_, hJ.task rfl hc⟩

theorem joined_reachable (h : (machine p cfg).ReachableUnder (Calm cfg) w) :
    ∃ seen, Joined p cfg w seen := by
  refine h.invariant (I := fun w => ∃ seen, Joined p cfg w seen) ?_ ?_
  · rintro _ rfl
    exact ⟨[], .initial⟩
  · rintro w e w' ⟨seen, hJ⟩ hC hs
    exact hJ.step hC hs

/-! ### From end to end -/

/-- What is sent begins with what the stream has accepted. -/
theorem Joined.accepted_le (hJ : Joined p cfg w seen) : w.stream.accepted <+: w.sent cfg := by
  obtain ⟨rest, hrest⟩ := hJ.seen_le
  rw [World.sent, ← hrest, List.append_assoc, payloadsOn_append, hJ.stream.accepted]
  exact List.prefix_append _ _

/-- Behind the FIN nothing is sent. -/
theorem Joined.accepted_of_fin (hJ : Joined p cfg w seen) (hfin : ∃ frame ∈ seen, IsFin cfg frame) :
    w.sent cfg = w.stream.accepted := by
  obtain ⟨rest, hrest⟩ := hJ.seen_le
  obtain ⟨fin, hmem, hfin⟩ := hfin
  have hlast := hJ.sends.finLast
  rw [← hrest, List.append_assoc, List.pairwise_append] at hlast
  rw [World.sent, ← hrest, List.append_assoc, payloadsOn_append, hJ.stream.accepted,
    payloadsOn_of_off fun frame hf => hlast.2.2 fin hmem frame hf hfin, List.append_nil]

/-- The reader has come to the end of the link, and the sender was told that all is written. -/
theorem Joined.accepted_of_reported (hJ : Joined p cfg w seen)
    (hr : w.link.reader = .ended (.ok ())) (hw : w.link.reported = some true) :
    w.sent cfg = w.stream.accepted := by
  have hfresh : w.fresh cfg = [] := fresh_of_not_accepting (by simp [hr])
  rw [World.sent, ← hJ.link.whole hr hw, hJ.handed, hfresh, List.append_nil, hJ.stream.accepted]

/-- The FIN that was handed over is one that the stream has accepted, once it is finished. -/
theorem Joined.fin_seen (hJ : Joined p cfg w seen) (hf : w.stream.finished = true)
    (hfin : ∃ frame ∈ w.link.handed, IsFin cfg frame) : ∃ frame ∈ seen, IsFin cfg frame := by
  rcases hJ.stream.finished.mp hf with hclose | hseen
  · have hfresh : w.fresh cfg = [] := fresh_of_not_accepting (by simp [hJ.closing hclose])
    rwa [hJ.handed, hfresh, List.append_nil] at hfin
  · exact hseen

/-- What becomes of the messages sent on the stream. -/
structure Arrives (cfg : Delivery.Config β τ) (w : World β τ) : Prop where
  /-- The messages dispatched are the first ones sent, decoded. -/
  order : w.stream.dispatched.map .ok <+: (w.sent cfg).map cfg.decodeEnvelope
  inbox : w.stream.put = cfg.inboxOf w.stream.dispatched
  jobs : w.stream.run ++ w.stream.jobs = cfg.jobsOf w.stream.dispatched
  /-- The stream is released at its FIN, or at the close, with all of them dispatched. -/
  whole : w.stream.registered = false →
    (∃ frame ∈ w.link.handed, IsFin cfg frame) ∨ w.link.reported = some true →
      (w.sent cfg).map cfg.decodeEnvelope = w.stream.dispatched.map .ok

/-- **The messages sent on a v2 stream are the messages received**, each once and in order: through
the writer's batches, the bytes of the transport, the reader and the stream's queues.  What is
queued behind the close marker is not sent. -/
theorem stream_end_to_end (h : (machine p cfg).ReachableUnder (Calm cfg) w) : Arrives cfg w := by
  obtain ⟨seen, hJ⟩ := joined_reachable h
  obtain ⟨data, k, hF⟩ := hJ.stream.inv
  refine ⟨?_, hF.put, hF.run, fun hreg hend => ?_⟩
  · refine List.IsPrefix.trans ?_ (hJ.accepted_le.map cfg.decodeEnvelope)
    rw [hF.accepted, List.map_append, List.append_assoc]
    exact List.prefix_append _ _
  · have hfinished : w.stream.finished = true := hF.finished (hF.marked_of_removed hreg)
    have hall : w.sent cfg = w.stream.accepted := by
      rcases hend with hfin | hw
      · exact hJ.accepted_of_fin (hJ.fin_seen hfinished hfin)
      · rcases hJ.stream.finished.mp hfinished with hclose | hseen
        · exact hJ.accepted_of_reported (hJ.closing hclose) hw
        · exact hJ.accepted_of_fin hseen
    rw [hall, hF.accepted_of_removed hreg]

end runs

/-- On the link of `smallLink`, a message for a handler and the FIN are queued on stream 7, and then
the close marker. -/
def sendRun : List Event :=
  [.link (.send 7 [104, 1]), .link (.sendFin 7), .link .queueClose, .link .command, .link .recv]

/-- All of it is written, and the message read and dispatched before the FIN. -/
def arriveRun : List Event :=
  [.link .goOn, .link (.buffer 12), .link .goOn, .link .goOn, .link .goOn, .link (.buffer 10),
    .link .goOn, .link .goOn, .link .goOn, .link (.spill 12), .link (.read 10), .link (.read 2),
    .accept, .stream .reader, .stream (.decode false), .stream (.decode false),
    .link (.accepted true), .link (.spill 10), .link .goOn, .link (.read 10), .accept,
    .stream .reader, .link (.accepted true), .link .eof, .stream (.decode false),
    .stream (.decode false), .stream (.decode false)]

/-- The link and the stream after a run. -/
def after (events : List Event) : World (List UInt8) (List UInt8) :=
  ((machine smallLink Delivery.twoNames).exec .initial events).getD .initial

theorem stream_end_to_end_fin : Arrives Delivery.twoNames (after (sendRun ++ arriveRun)) ∧
    (after (sendRun ++ arriveRun)).stream.registered = false ∧
    (after (sendRun ++ arriveRun)).stream.dispatched = [⟨"h", [1]⟩] := by
  have h : (machine smallLink Delivery.twoNames).ReachableUnder (Calm Delivery.twoNames)
      (after (sendRun ++ arriveRun)) := .exec (sendRun ++ arriveRun) (.init rfl) rfl (by decide)
  exact ⟨stream_end_to_end h, rfl, rfl⟩

end AdaptiveMsg.Link.Messages
