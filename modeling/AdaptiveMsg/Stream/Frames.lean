import AdaptiveMsg.Stream.Delivery
import AdaptiveMsg.Wire.FrameStream

/-!
# Stream — the frames on a stream

What the frames of a connection are to one of its streams: which are on it, the payloads that it
accepts of them, and where they have left it (`Seen`), whatever carries them.

* `rested`: where no task of the stream can take a step, it has dispatched what it accepted.
* `Seen.dropCall`: a call of `accept_frame` that is dropped where it waits has taken nothing.
-/

namespace AdaptiveMsg.Delivery

variable {β τ : Type}

/-! ### Frames and payloads -/

section frames

variable (cfg : Config β τ)

/-- The frame is one of the stream's. -/
def On (frame : WireFrame) : Prop := frame.streamId.toNat = cfg.streamId

instance : DecidablePred (On cfg) := fun frame =>
  inferInstanceAs (Decidable (frame.streamId.toNat = cfg.streamId))

/-- The payloads of the stream's messages among the frames. -/
def payloadsOn (frames : List WireFrame) : List (List UInt8) :=
  ((frames.filter fun frame => On cfg frame).map WireFrame.payload).filter (· ≠ [])

/-- The FIN of the stream. -/
def IsFin (frame : WireFrame) : Prop := On cfg frame ∧ cfg.isFin frame.flags = true

instance : DecidablePred (IsFin cfg) := fun _ => inferInstanceAs (Decidable (_ ∧ _))

/-- What is sent on the stream decodes, and its FIN is the last of it. -/
structure Sends (frames : List WireFrame) : Prop where
  decodes : ∀ frame ∈ frames, On cfg frame → frame.payload = [] ∨ cfg.decodes frame.payload = true
  finLast : frames.Pairwise fun frame later => IsFin cfg frame → ¬On cfg later

end frames

/-- The reader is in `close_by_peer`, or past it. -/
def AtClose : Reader → Prop
  | .closeQueueFin | .closeWait | .marking | .ended => True
  | .idle | .sending _ _ | .queueFin => False

section seen

variable {cfg : Config β τ} {c c' : State β τ} {e : Event} {frame : WireFrame}
  {seen : List WireFrame}

@[simp] theorem payloadsOn_nil : payloadsOn cfg [] = [] := rfl

theorem payloadsOn_append (l l' : List WireFrame) :
    payloadsOn cfg (l ++ l') = payloadsOn cfg l ++ payloadsOn cfg l' := by
  simp [payloadsOn]

theorem payloadsOn_on {frame : WireFrame} (h : On cfg frame) :
    payloadsOn cfg [frame] = [frame.payload].filter (· ≠ []) := by
  simp [payloadsOn, h]

theorem payloadsOn_off {frame : WireFrame} (h : ¬On cfg frame) : payloadsOn cfg [frame] = [] := by
  simp [payloadsOn, h]

theorem payloadsOn_of_off {l : List WireFrame} (h : ∀ frame ∈ l, ¬On cfg frame) :
    payloadsOn cfg l = [] := by
  have hnone : l.filter (fun frame => On cfg frame) = [] :=
    List.filter_eq_nil_iff.mpr fun frame hf => by simpa using h frame hf
  rw [payloadsOn, hnone]
  rfl

/-! ### What a step of the stream does -/

/-- What the tasks of the stream leave alone. -/
structure Keeps (c c' : State β τ) : Prop where
  accepted : c'.accepted = c.accepted
  finished : c'.finished = c.finished
  idle : c.reader = .idle → c'.reader = .idle
  atClose : AtClose c'.reader ↔ AtClose c.reader

theorem Keeps.of_eq (ha : c'.accepted = c.accepted) (hf : c'.finished = c.finished)
    (hr : c'.reader = c.reader) : Keeps c c' :=
  ⟨ha, hf, fun h => hr.trans h, by rw [hr]⟩

theorem reader_keeps (h : readerStep cfg c = some c') : Keeps c c' := by
  simp only [readerStep] at h
  cases hr : c.reader with
  | idle | ended => simp [hr] at h
  | sending payload fin =>
      simp only [hr] at h
      repeat' split at h
      all_goals cases h
      all_goals exact ⟨rfl, rfl, fun h => absurd h (by simp [hr]), by simp [AtClose, hr]⟩
  | queueFin | closeQueueFin =>
      simp only [hr, queueFin] at h
      repeat' split at h
      all_goals cases h
      all_goals exact ⟨rfl, rfl, fun h => absurd h (by simp [hr]), by simp [AtClose, hr]⟩
  | closeWait | marking =>
      simp only [hr] at h
      repeat' split at h
      all_goals cases h
      all_goals exact ⟨rfl, rfl, fun h => absurd h (by simp [hr]), by simp [AtClose, hr]⟩

theorem task_keeps (he : e.isTask = true) (h : step cfg c e = some c') : Keeps c c' := by
  cases e with
  | reader => exact reader_keeps h
  | decode closed =>
      simp only [step, decodeStep, dispatchRaw] at h
      repeat' split at h
      all_goals cases h
      all_goals exact .of_eq rfl rfl rfl
  | handle =>
      simp only [step, handleStep, takeJob] at h
      repeat' split at h
      all_goals cases h
      all_goals exact .of_eq rfl rfl rfl
  | receive =>
      simp only [step] at h
      split at h
      · cases h
        exact .of_eq rfl rfl rfl
      · cases h
  | accept _ _ | closeByPeer | timeLimit | release => cases he

/-- `accept_frame` looks an open stream up. -/
theorem accept_takes {flags : UInt8} {payload : List UInt8} (hI : Inv cfg c)
    (h : step cfg c (.accept flags payload) = some c') :
    c.finished = false ∧ c'.accepted = c.accepted ++ [payload].filter (· ≠ []) ∧
      c'.finished = cfg.isFin flags ∧ ¬AtClose c'.reader := by
  obtain ⟨data, k, hF⟩ := hI
  simp only [step] at h
  split at h
  · rename_i hidle
    cases h
    simp only [Bool.and_eq_true, decide_eq_true_eq, Bool.not_eq_true'] at hidle
    obtain ⟨hidle, hfin⟩ := hidle
    have hm : c.marked = false := Bool.eq_false_iff.2 fun hm => by simp [hF.finished hm] at hfin
    obtain ⟨hreg, -, -⟩ := hF.open_of_unmarked hm
    refine ⟨hfin, ?_, ?_, ?_⟩
    · rcases accept_cases cfg hreg flags payload with ⟨rfl, he⟩ | ⟨hne, he⟩ | ⟨rfl, he⟩
      · simp [he]
      · simp [he, hne]
      · simp [he]
    · simp only [accept]
      split
      · rename_i hf
        simp only [Bool.and_eq_true] at hf
        exact hf.1.symm
      · split <;> rfl
    · rcases accept_cases cfg hreg flags payload with ⟨-, he⟩ | ⟨-, he⟩ | ⟨-, he⟩
      · simp [he, AtClose]
      · simp [he, AtClose]
      · simp [he, AtClose, hidle]
  · cases h

/-- A frame brings the stream less than 15 steps of work. -/
theorem work_accept {flags : UInt8} {payload : List UInt8}
    (h : step cfg c (.accept flags payload) = some c') :
    ¬AtClose c.reader ∧ ¬AtClose c'.reader ∧ c'.work < c.work + 15 := by
  simp only [step] at h
  split at h
  · rename_i hidle
    cases h
    simp only [Bool.and_eq_true, decide_eq_true_eq] at hidle
    refine ⟨by simp [hidle.1, AtClose], ?_⟩
    simp only [accept]
    split
    · cases c.registered with
      | true =>
          simp [State.work, Reader.work, AtClose, hidle.1]
          omega
      | false => simp [State.work, Reader.work, AtClose, hidle.1]
    · split
      · cases cfg.isFin flags <;>
          (simp [State.work, Reader.work, AtClose, hidle.1]; omega)
      · simp [State.work, AtClose, hidle.1]
  · cases h

theorem closeByPeer_takes (h : step cfg c .closeByPeer = some c') :
    c'.accepted = c.accepted ∧ c'.finished = true ∧ AtClose c'.reader := by
  simp only [step] at h
  split at h
  · cases h
    refine ⟨rfl, rfl, ?_⟩
    simp only
    split <;> trivial
  · cases h

/-! ### The frames that a stream has seen -/

/-- The stream is where the frames have left it. -/
structure Seen (cfg : Config β τ) (c : State β τ) (seen : List WireFrame) : Prop where
  inv : Inv cfg c
  accepted : c.accepted = payloadsOn cfg seen
  finished : c.finished = true ↔ AtClose c.reader ∨ ∃ frame ∈ seen, IsFin cfg frame

theorem Seen.initial : Seen cfg (initial : State β τ) [] :=
  ⟨inv_initial, rfl, by simp [Delivery.initial, AtClose]⟩

/-- `accept_frame` has the stream see a frame. -/
theorem Seen.accept (h : Seen cfg c seen) (hon : On cfg frame)
    (hdec : frame.payload = [] ∨ cfg.decodes frame.payload = true)
    (hs : step cfg c (.accept frame.flags frame.payload) = some c') :
    Seen cfg c' (seen ++ [frame]) := by
  obtain ⟨hunfin, haccepted, hfin, hopen⟩ := accept_takes h.inv hs
  have hnone : ¬(AtClose c.reader ∨ ∃ f ∈ seen, IsFin cfg f) := fun hor => by
    rw [h.finished.mpr hor] at hunfin
    cases hunfin
  refine ⟨inv_accept h.inv hdec hs, ?_, ?_⟩
  · rw [payloadsOn_append, payloadsOn_on hon, ← h.accepted]
    exact haccepted
  · rw [hfin]
    constructor
    · exact fun hf => .inr ⟨frame, List.mem_append_right _ (List.mem_singleton_self _), hon, hf⟩
    · rintro (hclose | ⟨f, hf, hfin⟩)
      · exact absurd hclose hopen
      · rcases List.mem_append.mp hf with hf | hf
        · exact absurd (.inr ⟨f, hf, hfin⟩) hnone
        · exact List.mem_singleton.mp hf ▸ hfin.2

theorem Seen.closeByPeer (h : Seen cfg c seen) (hs : step cfg c .closeByPeer = some c') :
    Seen cfg c' seen := by
  obtain ⟨haccepted, hfin, hclose⟩ := closeByPeer_takes hs
  exact ⟨inv_closeByPeer h.inv hs, haccepted.trans h.accepted,
    ⟨fun _ => .inl hclose, fun _ => hfin⟩⟩

theorem Seen.task (h : Seen cfg c seen) (he : e.isTask = true) (hs : step cfg c e = some c') :
    Seen cfg c' seen := by
  have hK := task_keeps he hs
  have hC : Undisturbed cfg c e := by
    cases e with
    | accept _ _ | closeByPeer | timeLimit | release => cases he
    | reader | decode _ | handle | receive => trivial
  exact ⟨inv_step h.inv hC hs, hK.accepted.trans h.accepted,
    by rw [hK.finished, hK.atClose]; exact h.finished⟩

end seen

/-! ### Where the stream rests -/

section rest

variable {cfg : Config β τ} {c : State β τ} {data : List (List UInt8)} {k : Nat}

theorem inbox_of_rest (hrest : AtRest cfg c) : c.inbox = [] := by
  have h := hrest .receive rfl
  simp only [step] at h
  split at h
  · cases h
  · assumption

/-- The handler task waits, with an empty queue, or has ended. -/
theorem jobs_of_rest (hrest : AtRest cfg c) (hrun : c.handlerTask ≠ .ended) : c.jobs = [] := by
  have h := hrest .handle rfl
  simp only [step, handleStep] at h
  cases htask : c.handlerTask with
  | select =>
      simp only [htask, takeJob] at h
      split at h <;> cases h
  | lookClosed | running =>
      simp only [htask] at h
      cases h
  | waiting =>
      simp only [htask, takeJob] at h
      split at h
      · cases h
      · assumption
  | ended => exact absurd htask hrun

/-- A stream that is not finished rests with its decode task in the select. -/
theorem select_of_rest (hF : Flow cfg c data k) (hfin : c.finished = false)
    (hrest : AtRest cfg c) : c.decoder = .select ∧ c.incoming = [] := by
  have hm : c.marked = false := Bool.eq_false_iff.mpr fun hm => by simp [hF.finished hm] at hfin
  obtain ⟨hreg, hopen, -⟩ := hF.open_of_unmarked hm
  have hdecode := hrest (.decode false) rfl
  simp only [step, decodeStep] at hdecode
  have hd := hF.decoder
  unfold DecoderOk at hd
  cases hdec : c.decoder with
  | select =>
      simp only [hdec, Bool.false_eq_true, if_false] at hdecode
      refine ⟨rfl, ?_⟩
      split at hdecode
      · assumption
      · cases hdecode
      · split at hdecode <;> cases hdecode
  | inboxQ raw => simp [hdec, hopen, inbox_of_rest hrest, cfg.inbox_pos] at hdecode
  | handlerQ raw msg =>
      have hrun : c.handlerTask ≠ .ended := fun he => by simp [hF.handler he] at hopen
      simp [hdec, hopen, hrun, jobs_of_rest hrest hrun, cfg.handler_pos] at hdecode
  | removing | closing | ended =>
      simp only [hdec, hm, Bool.false_eq_true, false_and, and_false] at hd

/-- What a stream has come to where none of its tasks can take a step. -/
structure Rested (cfg : Config β τ) (c : State β τ) : Prop where
  reader : c.reader = .idle ∨ c.reader = .ended
  dispatched : c.accepted.map cfg.decodeEnvelope = c.dispatched.map .ok
  inbox : c.inbox = []
  jobs : c.handlerTask ≠ .ended → c.jobs = []
  released : c.finished = true → c.registered = false

theorem rested (hF : Flow cfg c data k) (hrest : AtRest cfg c) : Rested cfg c := by
  have hreader := hrest .reader rfl
  simp only [step, readerStep] at hreader
  cases hfin : c.finished with
  | true =>
      obtain ⟨hd, ht, hin⟩ := hF.at_rest hfin hrest
      have hclosed : c.closed = true := hF.handler ht
      have hreg : c.registered = false := hF.removed_of_closed hclosed
      have hdropped : c.incomingDropped = true := by rw [State.incomingDropped, hd]
      refine ⟨?_, hF.accepted_of_removed hreg, hin, jobs_of_rest hrest, fun _ => hreg⟩
      cases hr : c.reader with
      | idle => exact .inl rfl
      | ended => exact .inr rfl
      | sending _ _ | queueFin | closeQueueFin | closeWait | marking =>
          simp [hr, queueFin, hdropped, hclosed] at hreader
  | false =>
      obtain ⟨hd, hin⟩ := select_of_rest hF hfin hrest
      have hempty : data = [] := by
        have h := hF.incoming
        rw [hin] at h
        exact (List.append_eq_nil_iff.mp h.symm).1
      have hdropped : c.incomingDropped = false := by rw [State.incomingDropped, hd]
      have hidle : c.reader = .idle := by
        have hok := hF.reader
        unfold ReaderOk at hok
        cases hr : c.reader with
        | idle => rfl
        | sending _ _ => simp [hr, hdropped, hin, cfg.incoming_pos] at hreader
        | queueFin | closeQueueFin | closeWait | marking | ended => simp [hr, hfin] at hok
      have hacc := hF.accepted
      rw [hd, hempty, hidle] at hacc
      refine ⟨.inl hidle, ?_, inbox_of_rest hrest, jobs_of_rest hrest, fun h => by simp [hfin] at h⟩
      simpa [Decoder.inHand, Reader.inHand] using hacc

end rest

/-! ### A call of `accept_frame` -/

/-- The call is dropped where it waits: what it holds is not queued. -/
def State.dropCall (c : State β τ) : State β τ :=
  match c.reader with
  | .sending _ _ => { c with accepted := c.accepted.dropLast, finished := false, reader := .idle }
  | .queueFin => { c with finished := false, reader := .idle }
  | _ => c

/-- Where a call with this frame is, the payload of a FIN being empty. -/
inductive Within (cfg : Config β τ) (frame : WireFrame) (c : State β τ) : Prop where
  | returned (hr : c.reader = .idle)
  | sending (hr : c.reader = .sending frame.payload false)
  | queueFin (hr : c.reader = .queueFin) (hp : frame.payload = []) (hm : c.marked = false)

section call

variable {cfg : Config β τ} {c c' : State β τ} {e : Event} {frame : WireFrame}
  {seen : List WireFrame}

theorem Seen.off (h : Seen cfg c seen) (hoff : ¬On cfg frame) : Seen cfg c (seen ++ [frame]) := by
  refine ⟨h.inv, ?_, h.finished.trans (or_congr_right ⟨?_, ?_⟩)⟩
  · rw [payloadsOn_append, payloadsOn_off hoff, List.append_nil]
    exact h.accepted
  · rintro ⟨f, hf, hfin⟩
    exact ⟨f, List.mem_append_left _ hf, hfin⟩
  · rintro ⟨f, hf, hfin⟩
    rcases List.mem_append.mp hf with hf | hf
    · exact ⟨f, hf, hfin⟩
    · exact absurd (List.mem_singleton.mp hf ▸ hfin.1) hoff

/-- A call begins. -/
theorem within_accept (hI : Inv cfg c) (hon : On cfg frame)
    (hplain : IsFin cfg frame → frame.payload = [])
    (h : step cfg c (.accept frame.flags frame.payload) = some c') : Within cfg frame c' := by
  obtain ⟨data, k, hF⟩ := hI
  simp only [step] at h
  split at h
  · rename_i hidle
    cases h
    simp only [Bool.and_eq_true, decide_eq_true_eq, Bool.not_eq_true'] at hidle
    obtain ⟨hidle, hfin⟩ := hidle
    have hm : c.marked = false := Bool.eq_false_iff.2 fun hm => by simp [hF.finished hm] at hfin
    obtain ⟨hreg, -, -⟩ := hF.open_of_unmarked hm
    rcases accept_cases cfg hreg frame.flags frame.payload with ⟨hp, he⟩ | ⟨hne, he⟩ | ⟨-, he⟩
    · rw [he]
      exact .queueFin rfl hp hm
    · have hfin : cfg.isFin frame.flags = false :=
        Bool.eq_false_iff.2 fun hfin => hne (hplain ⟨hon, hfin⟩)
      rw [he, hfin]
      exact .sending rfl
    · rw [he]
      exact .returned hidle
  · cases h

theorem Within.same (hw : Within cfg frame c) (hr : c'.reader = c.reader)
    (hm : c'.marked = c.marked) : Within cfg frame c' := by
  cases hw with
  | returned hat => exact .returned (hr.trans hat)
  | sending hat => exact .sending (hr.trans hat)
  | queueFin hat hp hmarked => exact .queueFin (hr.trans hat) hp (hm.trans hmarked)

/-- The tasks bring a call on, and begin none. -/
theorem Within.task (hw : Within cfg frame c) (he : e.isTask = true)
    (h : step cfg c e = some c') : Within cfg frame c' := by
  cases e with
  | reader =>
      simp only [step, readerStep] at h
      cases hw with
      | returned hr => simp [hr] at h
      | sending hr =>
          simp only [hr, Bool.false_eq_true, if_false] at h
          repeat' split at h
          all_goals cases h
          all_goals exact .returned rfl
      | queueFin hr _ _ =>
          simp only [hr, Delivery.queueFin] at h
          repeat' split at h
          all_goals cases h
          all_goals exact .returned rfl
  | decode closed =>
      have hsame : c'.reader = c.reader ∧ c'.marked = c.marked := by
        simp only [step, decodeStep, dispatchRaw] at h
        repeat' split at h
        all_goals cases h
        all_goals exact ⟨rfl, rfl⟩
      exact hw.same hsame.1 hsame.2
  | handle =>
      have hsame : c'.reader = c.reader ∧ c'.marked = c.marked := by
        simp only [step, handleStep, takeJob] at h
        repeat' split at h
        all_goals cases h
        all_goals exact ⟨rfl, rfl⟩
      exact hw.same hsame.1 hsame.2
  | receive =>
      simp only [step] at h
      split at h
      · cases h
        exact hw.same rfl rfl
      · cases h
  | accept _ _ | closeByPeer | timeLimit | release => cases he

/-- A call that is dropped has taken nothing. -/
theorem Seen.dropCall (h : Seen cfg c (seen ++ [frame])) (hon : On cfg frame)
    (hw : Within cfg frame c) (hwait : c.reader ≠ .idle)
    (hunfin : ∀ f ∈ seen, ¬IsFin cfg f) : Seen cfg c.dropCall seen := by
  obtain ⟨data, k, hF⟩ := h.inv
  have haccepted := h.accepted
  have hok := hF.reader
  have hacc := hF.accepted
  have hdec := hF.decodes
  rw [payloadsOn_append, payloadsOn_on hon] at haccepted
  have hfin : ¬∃ f ∈ seen, IsFin cfg f := fun ⟨f, hf, hfin⟩ => hunfin f hf hfin
  cases hw with
  | returned hr => exact absurd hr hwait
  | sending hr =>
      simp only [ReaderOk, hr] at hok
      have hin : frame.payload ∈ data ++ c.reader.inHand := by simp [hr, Reader.inHand]
      obtain ⟨hne, -⟩ := hF.decodes _ hin
      have hlast : c.accepted = payloadsOn cfg seen ++ [frame.payload] := by
        rw [haccepted]
        simp [hne]
      simp only [hr, hlast, Reader.inHand, List.map_append, ← List.append_assoc] at hacc
      have hdrop : c.dropCall =
          { c with accepted := payloadsOn cfg seen, finished := false, reader := .idle } := by
        simp [State.dropCall, hr, hlast]
      rw [hdrop]
      refine ⟨⟨data, k, { hF with
        accepted := ?_
        decodes := fun p hp => hdec p ?_
        finished := fun hm => absurd hm (by simp [hok.1])
        reader := fun h => by cases h }⟩, rfl, ?_⟩
      · simpa [Reader.inHand] using List.append_cancel_right hacc
      · exact List.mem_append_left _ (by simpa [Reader.inHand] using hp)
      · simp [AtClose, hfin]
  | queueFin hr hp hm =>
      have hsame : c.accepted = payloadsOn cfg seen := by
        rw [haccepted, hp]
        simp
      have hdrop : c.dropCall = { c with finished := false, reader := .idle } := by
        simp [State.dropCall, hr]
      simp only [hr, Reader.inHand] at hacc hdec
      rw [hdrop]
      exact ⟨⟨data, k, { hF with
        accepted := hacc
        decodes := hdec
        finished := fun hmarked => absurd hmarked (by simp [hm])
        reader := fun h => by cases h }⟩, hsame, by simp [AtClose, hfin]⟩

end call

end AdaptiveMsg.Delivery
