import AdaptiveMsg.Close.Model

/-!
# Close — what a graceful close delivers

The frames of a side are, in order, those its peer was handed, those in flight, those in the
writer's buffer and those in the outbound queue, until `mark_closed` stops the writer.  The close
marker is queued behind the frames of the sends before it, and a peer that reads it has read them.

A call of `close` that finds `closing` set on an open connection, and a side that is closing and
reads the end of a peer which called `close` itself, run `mark_closed` without waiting for what the
writer has left.  `Graceful` is the condition that neither happens on a side that had sent something
before.  `close_delivers`: then every side that closes after its `close` began has had those frames
handed to its peer.  `close_loses` is a run without: both sides close at the same time.
-/

namespace AdaptiveMsg.Close

/-! ### The condition -/

/-- What is in flight ends here. -/
def Inbound.End : Inbound → Prop
  | .data _ => False
  | .close | .eof => True

instance : DecidablePred Inbound.End
  | .data _ => isFalse id
  | .close | .eof => isTrue trivial

/-- No send had returned Ok when `close` began, or none has if it begins now. -/
def NothingSent (e : Endpoint) : Prop := e.began.getD e.sent.length = 0

instance (e : Endpoint) : Decidable (NothingSent e) := inferInstanceAs (Decidable (_ = 0))

/-- No call of `close` finds `closing` set on an open connection, and no side that is closing reads
the end of a peer that called `close` itself, unless there is nothing to lose. -/
def Graceful (w : World) : Event → Prop
  | .close s => (w.ep s).closing = true → (w.ep s).closed = false → NothingSent (w.ep s)
  | .read s => (w.ep s).closing = true → (w.ep s.peer).began.isSome →
      (∀ item ∈ (w.ep s).inbound.head?, item.End) → NothingSent (w.ep s)
  | _ => True

instance (w : World) : DecidablePred (Graceful w)
  | .close s => inferInstanceAs (Decidable ((w.ep s).closing = true → (w.ep s).closed = false →
      NothingSent (w.ep s)))
  | .read s => inferInstanceAs (Decidable ((w.ep s).closing = true → (w.ep s.peer).began.isSome →
      (∀ item ∈ (w.ep s).inbound.head?, item.End) → NothingSent (w.ep s)))
  | .send _ _ | .push _ _ | .write _ _ | .flush _ | .sendClose _ | .closeEnds _ | .closeAtOnce _
  | .accepted _ | .delivered _ => isTrue trivial

/-! ### Frames in order -/

/-- The frames in flight. -/
def inFlight (inbound : List Inbound) : List Frame :=
  inbound.filterMap fun
    | .data frame => some frame
    | _ => none

/-- The frames in the outbound queue. -/
def queuedData (outbound : List OutboundFrame) : List Frame :=
  outbound.filterMap fun
    | .data frame => some frame
    | .close => none

/-- The frames of sends that have returned Ok, in the outbound queue. -/
def queued (v3 : Bool) (outbound : List OutboundFrame) : List Frame :=
  if v3 then [] else queuedData outbound

/-- Those before the close marker. -/
def ahead (v3 : Bool) (outbound : List OutboundFrame) : List Frame :=
  if v3 then [] else queuedData (outbound.takeWhile (· ≠ .close))

/-- No frame is in flight behind the end. -/
def EndsLast : List Inbound → Prop
  | [] => True
  | .data _ :: rest => EndsLast rest
  | .close :: rest | .eof :: rest => inFlight rest = []

section lists

variable {v3 : Bool} {a b : List Inbound} {frame : Frame} {outbound rest : List OutboundFrame}

@[simp] theorem inFlight_append : inFlight (a ++ b) = inFlight a ++ inFlight b :=
  List.filterMap_append

@[simp] theorem inFlight_map (frames : List Frame) : inFlight (frames.map .data) = frames := by
  induction frames with
  | nil => rfl
  | cons f frames ih => simp [inFlight] 

@[simp] theorem inFlight_data : inFlight (.data frame :: a) = frame :: inFlight a := rfl

theorem inFlight_end {item : Inbound} (h : item.End) : inFlight (item :: a) = inFlight a := by
  cases item with
  | data frame => cases h
  | close | eof => rfl

@[simp] theorem queued_v3 : queued true outbound = [] := rfl

@[simp] theorem queued_append_data :
    queued v3 (outbound ++ [.data frame]) = if v3 then [] else queued v3 outbound ++ [frame] := by
  cases v3 <;> simp [queued, queuedData]

@[simp] theorem queued_append_close : queued v3 (outbound ++ [.close]) = queued v3 outbound := by
  cases v3 <;> simp [queued, queuedData]

@[simp] theorem queued_data : queued v3 (.data frame :: rest) =
    if v3 then [] else frame :: queued v3 rest := by
  cases v3 <;> rfl

@[simp] theorem queued_close : queued v3 (.close :: rest) = queued v3 rest := by
  cases v3 <;> rfl

@[simp] theorem ahead_v3 : ahead true outbound = [] := rfl

@[simp] theorem ahead_data : ahead v3 (.data frame :: rest) =
    if v3 then [] else frame :: ahead v3 rest := by
  cases v3 <;> simp [ahead, queuedData]

@[simp] theorem ahead_close : ahead v3 (.close :: rest) = [] := by
  cases v3 <;> rfl

theorem ahead_append (h : .close ∈ outbound) (more : List OutboundFrame) :
    ahead v3 (outbound ++ more) = ahead v3 outbound := by
  have hw : (outbound ++ more).takeWhile (· ≠ .close) = outbound.takeWhile (· ≠ .close) := by
    induction outbound with
    | nil => cases h
    | cons frame outbound ih =>
        cases frame with
        | close => rfl
        | data frame => simpa using ih (by simpa using h)
  simp only [ahead, hw]

theorem ahead_append_close (h : .close ∉ outbound) :
    ahead v3 (outbound ++ [.close]) = queued v3 outbound := by
  have hw : (outbound ++ [OutboundFrame.close]).takeWhile (· ≠ .close) = outbound := by
    have hne : ∀ x ∈ outbound, decide (x ≠ .close) = true := fun x hx =>
      decide_eq_true (ne_of_mem_of_not_mem hx h)
    rw [List.takeWhile_append_of_pos hne]
    simp
  simp only [ahead, queued, hw]

theorem EndsLast.append (ha : ∀ item ∈ a, ¬item.End) (hb : EndsLast b) : EndsLast (a ++ b) := by
  induction a with
  | nil => exact hb
  | cons item a ih =>
      have ih := ih fun x hx => ha x (List.mem_cons_of_mem _ hx)
      cases item with
      | data frame => exact ih
      | close | eof => exact absurd trivial (ha _ List.mem_cons_self)

theorem endsLast_map (frames : List Frame) : EndsLast (frames.map .data) := by
  induction frames with
  | nil => trivial
  | cons f frames ih => exact ih

theorem endsLast_map_append (frames : List Frame) (hb : EndsLast b) :
    EndsLast (frames.map .data ++ b) := by
  refine EndsLast.append (fun item hi => ?_) hb
  obtain ⟨frame, -, rfl⟩ := List.mem_map.1 hi
  exact id

theorem endsLast_of_inFlight (h : inFlight a = []) : EndsLast a := by
  induction a with
  | nil => trivial
  | cons item a ih =>
      cases item with
      | data frame => cases h
      | close | eof => exact h

theorem EndsLast.inFlight_tail {item : Inbound} (h : EndsLast (item :: a)) (hend : item.End) :
    inFlight a = [] := by
  cases item with
  | data frame => cases hend
  | close | eof => exact h

end lists

/-! ### What a step does -/

namespace Endpoint

def receive (q : Endpoint) (items : List Inbound) : Endpoint :=
  { q with inbound := q.inbound ++ items }

/-- After `mark_closed`. -/
def marked (e : Endpoint) : Endpoint :=
  if e.closed then e
  else { e with
    closed := true
    writer := if e.writer = .running then .aborted else e.writer
    reader := .ended }

/-- What the peer sees of `mark_closed`. -/
def lastWord (e : Endpoint) : List Inbound :=
  if e.closed = false ∧ e.writer = .running then [.eof] else []

end Endpoint

/-- What a step that meets `Graceful` makes of the side `e` it is taken on, with what it puts on the
transport to the peer `q`. -/
inductive Move (v3 : Bool) (e q : Endpoint) : Endpoint → List Inbound → Prop where
  | send (sending : List Frame) : Move v3 e q { e with sending } []
  | push (sending : List Frame) (frame : Frame) (h : e.writer = .running) :
    Move v3 e q { e with
      sending
      outbound := e.outbound ++ [.data frame]
      sent := if v3 then e.sent else e.sent ++ [frame] } []
  | write (frame : Frame) (rest : List OutboundFrame) (hr : e.writer = .running)
    (ho : e.outbound = .data frame :: rest) :
    Move v3 e q { e with
      outbound := rest
      buffer := e.buffer ++ [frame]
      sent := if v3 then e.sent ++ [frame] else e.sent } []
  | refuse (frame : Frame) (rest : List OutboundFrame) (hr : e.writer = .running) (h3 : v3 = true)
    (ho : e.outbound = .data frame :: rest) : Move v3 e q { e with outbound := rest } []
  | shutdown (rest : List OutboundFrame) (hr : e.writer = .running)
    (ho : e.outbound = .close :: rest) :
    Move v3 e q { e with outbound := rest, buffer := [], writer := .shut }
      (e.buffer.map .data ++ if v3 then [.close, .eof] else [.eof])
  | flush (h : e.writer = .running) : Move v3 e q { e with buffer := [] } (e.buffer.map .data)
  | close (h : e.closing = false) : Move v3 e q { e with
      closing := true
      closer := .sending
      began := some e.sent.length } []
  | closeAgain (h : e.closing = true)
    (hg : e.closed = false → NothingSent e) :
    Move v3 e q { e with
      impatient := e.impatient + 1
      began := if e.closed then e.began else some (e.began.getD e.sent.length) } []
  | sendClose (hc : e.closer = .sending) (h : e.writer = .running) :
    Move v3 e q { e with closer := .waiting, outbound := e.outbound ++ [.close] } []
  | closeEnds (h : e.closed = true) : Move v3 e q { e with closer := .done } []
  | closeAtOnce (h : 0 < e.impatient) :
    Move v3 e q { e with impatient := e.impatient - 1 }.marked e.lastWord
  | delivered (h : e.reader = .delivering) : Move v3 e q e.marked e.lastWord
  | read (frame : Frame) (rest : List Inbound) (h : e.reader = .reading)
    (hi : e.inbound = .data frame :: rest) : Move v3 e q { e with
      reader := .accepting
      inbound := rest
      handed := e.handed ++ [frame] } []
  | readEnd (item : Inbound) (rest : List Inbound) (h : e.reader = .reading) (hend : item.End)
    (hi : e.inbound = item :: rest) (hc : e.closing = true)
    (hg : q.began.isSome → NothingSent e) :
    Move v3 e q { e with inbound := rest }.marked e.lastWord
  | closeByPeer (item : Inbound) (rest : List Inbound) (h : e.reader = .reading) (hend : item.End)
    (hi : e.inbound = item :: rest) (hc : e.closing = false) :
    Move v3 e q { e with inbound := rest, closing := true, reader := .delivering } []
  | accepted (h : e.reader = .accepting) : Move v3 e q { e with reader := .reading } []

section moves

variable {w w' : World} {s : RecoveryRole} {e : Endpoint} {items : List Inbound}

/-- The world after a move of `s`. -/
structure Moved (w w' : World) (s : RecoveryRole) (e : Endpoint) (items : List Inbound) : Prop where
  v3 : w'.v3 = w.v3
  self : w'.ep s = e
  peer : w'.ep s.peer = (w.ep s.peer).receive items

theorem moved_setEp : Moved w (w.setEp s e) s e [] :=
  ⟨rfl, World.setEp_ep_self, by simp [Endpoint.receive]⟩

theorem moved_transmit : Moved w ((w.setEp s e).transmit s items) s e items :=
  ⟨rfl, by simp [World.transmit, World.setEp], by simp [World.transmit, Endpoint.receive]⟩

theorem moved_markClosed : Moved w ((w.setEp s e).markClosed s) s e.marked e.lastWord := by
  unfold World.markClosed Endpoint.marked Endpoint.lastWord
  cases hc : e.closed
  · cases hw : e.writer
    · simpa [hc, hw] using moved_transmit 
    all_goals simpa [hc, hw] using moved_setEp 
  · simpa [hc] using moved_setEp 

theorem moved_closeByPeer (hc : e.closing = false) : Moved w ((w.setEp s e).closeByPeer s) s
    { e with closing := true, reader := .delivering } [] := by
  simpa [World.closeByPeer, hc] using moved_setEp 

theorem moved_endRead (hc : e.closing = true) :
    Moved w ((w.setEp s e).closeByPeer s) s e.marked e.lastWord := by
  have hm : (w.setEp s e).closeByPeer s = (w.setEp s e).markClosed s := by
    simp [World.closeByPeer, hc]
  exact hm ▸ moved_markClosed

/-- A step is a move of one side, and the peer gets what that side puts on the transport. -/
theorem step_move {ev : Event} (hg : Graceful w ev) (h : machine.step w ev = some w') :
    ∃ s e items, Moved w w' s e items ∧ Move w.v3 (w.ep s) (w.ep s.peer) e items := by
  cases ev with
  | send s frame =>
      simp only [machine, World.step] at h
      split at h <;> cases h
      exact ⟨s, _, _, moved_setEp, .send _⟩
  | push s frame =>
      simp only [machine, World.step] at h
      split at h <;> cases h
      next hp => exact ⟨s, _, _, moved_setEp, .push _ _ hp.2⟩
  | write s ok =>
      simp only [machine, World.step] at h
      split at h <;> cases h
      next frame rest hr ho =>
        -- In v3 the writer may refuse the frame; in v2 `ok` plays no part.
        cases h3 : w.v3
        · refine ⟨s, _, _, by simpa [World.writeData, h3] using moved_setEp, ?_⟩
          exact Move.write frame rest hr ho
        · cases ok
          · exact ⟨s, _, _, by simpa [World.writeData, h3] using moved_setEp, .refuse frame rest hr rfl ho⟩
          · refine ⟨s, _, _, by simpa [World.writeData, h3] using moved_setEp, ?_⟩
            exact Move.write frame rest hr ho
      next rest hr ho => exact ⟨s, _, _, moved_transmit, .shutdown rest hr ho⟩
  | flush s =>
      simp only [machine, World.step] at h
      split at h <;> cases h
      next hr => exact ⟨s, _, _, moved_transmit, .flush hr⟩
  | close s =>
      simp only [machine, World.step, World.close] at h
      split at h <;> cases h
      next hc => exact ⟨s, _, _, moved_setEp, .closeAgain hc (hg hc)⟩
      next hc => exact ⟨s, _, _, moved_setEp, .close (by simpa using hc)⟩
  | sendClose s =>
      simp only [machine, World.step] at h
      split at h <;> cases h
      next hc => exact ⟨s, _, _, moved_setEp, .sendClose hc.1 hc.2⟩
  | closeEnds s =>
      simp only [machine, World.step] at h
      split at h <;> cases h
      next hc => exact ⟨s, _, _, moved_setEp, .closeEnds hc.1⟩
  | closeAtOnce s =>
      simp only [machine, World.step] at h
      split at h <;> cases h
      next hi => exact ⟨s, _, _, moved_markClosed, .closeAtOnce hi⟩
  | read s =>
      simp only [machine, World.step, World.read] at h
      split at h
      next frame rest hr hi =>
        cases h
        exact ⟨s, _, _, moved_setEp, .read frame rest hr hi⟩
      -- CLOSE: the read ends if this side is closing, else it is the peer's close.
      next rest hr hi =>
        cases h
        rcases Bool.eq_false_or_eq_true (w.ep s).closing with hc | hc
        · exact ⟨s, _, _, moved_endRead hc,
            .readEnd .close rest hr trivial hi hc fun hb => hg hc hb (by simp [hi, Inbound.End])⟩
        · exact ⟨s, _, _, moved_closeByPeer hc, .closeByPeer .close rest hr trivial hi hc⟩
      -- End of file is the peer's close in v2; in v3 it is the end of a side that is closing.
      next rest hr hi =>
        rcases Bool.eq_false_or_eq_true (w.ep s).closing with hc | hc
        · refine ⟨s, { w.ep s with inbound := rest }.marked, (w.ep s).lastWord, ?_,
            .readEnd .eof rest hr trivial hi hc fun hb => hg hc hb (by simp [hi, Inbound.End])⟩
          cases h3 : w.v3
          · rw [if_neg (by simp [h3]), Option.some.injEq] at h
            exact h ▸ moved_endRead hc
          · rw [if_pos h3, if_pos hc, Option.some.injEq] at h
            exact h ▸ moved_markClosed
        · cases h3 : w.v3
          · rw [if_neg (by simp [h3]), Option.some.injEq] at h
            exact ⟨s, _, _, h ▸ moved_closeByPeer hc, .closeByPeer .eof rest hr trivial hi hc⟩
          · simp [h3, hc] at h
      next => cases h
  | accepted s =>
      simp only [machine, World.step] at h
      split at h <;> cases h
      next hr => exact ⟨s, _, _, moved_setEp, .accepted hr⟩
  | delivered s =>
      simp only [machine, World.step] at h
      split at h <;> cases h
      next hr =>
        have hm : Moved w ((w.setEp s (w.ep s)).markClosed s) s _ _ := moved_markClosed
        exact ⟨s, _, _, by simpa using hm, .delivered hr⟩

end moves

/-! ### One side -/

/-- What holds of a side by itself. -/
structure EndpointInv (e : Endpoint) : Prop where
  closing_of_closed : e.closed = true → e.closing = true
  ended_of_closed : e.closed = true → e.reader = .ended
  stopped_of_closed : e.closed = true → e.writer ≠ .running
  closed_of_aborted : e.writer = .aborted → e.closed = true
  closed_of_ended : e.reader = .ended → e.closed = true
  closing_of_delivering : e.reader = .delivering → e.closing = true
  closing_of_began : e.began.isSome → e.closing = true
  /-- Only a call of `close` and the peer set `closing`. -/
  why_closing : e.closing = true → e.closed = true ∨ e.reader = .delivering ∨ e.began.isSome
  impatient : 0 < e.impatient → e.closed = true ∨ e.began.isSome
  began_le : ∀ n ∈ e.began, n ≤ e.sent.length
  began_of_sending : e.closer = .sending → e.began.isSome
  began_of_marker : .close ∈ e.outbound → e.began.isSome
  began_of_shut : e.writer = .shut → e.began.isSome

variable {v3 : Bool} {e e' q q' : Endpoint} {items : List Inbound}

theorem EndpointInv.receive (h : EndpointInv e) : EndpointInv (e.receive items) := { h with }

theorem EndpointInv.closing_of_impatient (h : EndpointInv e) (hi : 0 < e.impatient) :
    e.closing = true :=
  (h.impatient hi).elim h.closing_of_closed h.closing_of_began

theorem EndpointInv.marked (h : EndpointInv e) (hc : e.closing = true) : EndpointInv e.marked := by
  unfold Endpoint.marked
  split
  · exact h
  next hcl =>
    refine { h with
      closing_of_closed := fun _ => hc
      ended_of_closed := fun _ => rfl
      stopped_of_closed := fun _ => ?_
      closed_of_aborted := fun _ => rfl
      closed_of_ended := fun _ => rfl
      closing_of_delivering := fun _ => hc
      why_closing := fun _ => .inl rfl
      impatient := fun _ => .inl rfl
      began_of_shut := fun hs => h.began_of_shut ?_ }
    · dsimp only
      split <;> simp_all
    · dsimp only at hs
      split at hs <;> simp_all

theorem EndpointInv.move (h : EndpointInv e) (hm : Move v3 e q e' items) : EndpointInv e' := by
  cases hm with
  | send sending => exact { h with }
  | push sending frame hw =>
      refine { h with began_le := fun n hn => ?_, began_of_marker := ?_ }
      · have hle := h.began_le n hn
        cases v3 <;> grind
      · simpa using h.began_of_marker
  | write frame rest hw ho =>
      refine { h with began_le := fun n hn => ?_, began_of_marker := fun hm => ?_ }
      · have hle := h.began_le n hn
        cases v3 <;> grind
      · exact h.began_of_marker (ho ▸ List.mem_cons_of_mem _ hm)
  | refuse frame rest hw h3 ho =>
      exact { h with began_of_marker := fun hm => h.began_of_marker (ho ▸ List.mem_cons_of_mem _ hm) }
  | shutdown rest hw ho =>
      have hb := h.began_of_marker (ho ▸ List.mem_cons_self)
      exact { h with
        stopped_of_closed := fun _ => nofun
        closed_of_aborted := nofun
        began_of_marker := fun _ => hb
        began_of_shut := fun _ => hb }
  | flush hw => exact { h with }
  | close hc =>
      exact { h with
        closing_of_closed := fun _ => rfl
        closing_of_delivering := fun _ => rfl
        closing_of_began := fun _ => rfl
        why_closing := fun _ => .inr (.inr rfl)
        impatient := fun _ => .inr rfl
        began_le := by simp
        began_of_sending := fun _ => rfl
        began_of_marker := fun _ => rfl
        began_of_shut := fun _ => rfl }
  | closeAgain hc hg =>
      by_cases hcl : e.closed = true
      · rw [if_pos hcl]
        exact { h with impatient := fun _ => .inl hcl }
      · rw [if_neg hcl]
        refine { h with
          closing_of_began := fun _ => hc
          why_closing := fun _ => .inr (.inr rfl)
          impatient := fun _ => .inr rfl
          began_le := ?_
          began_of_sending := fun _ => rfl
          began_of_marker := fun _ => rfl
          began_of_shut := fun _ => rfl }
        have hle := h.began_le
        cases hb : e.began <;> simp_all
  | sendClose hc hw =>
      have hb := h.began_of_sending hc
      exact { h with began_of_sending := nofun, began_of_marker := fun _ => hb }
  | closeEnds hc => exact { h with began_of_sending := nofun }
  | closeAtOnce hi =>
      -- One call of `close` fewer waits; the others still have their reason.
      have h₁ : EndpointInv { e with impatient := e.impatient - 1 } :=
        { h with impatient := fun _ => h.impatient hi }
      exact h₁.marked (h.closing_of_impatient hi)
  | delivered hr => exact h.marked (h.closing_of_delivering hr)
  | read frame rest hr hi =>
      exact { h with
        ended_of_closed := fun hc => absurd (h.ended_of_closed hc) (by simp [hr])
        closed_of_ended := nofun
        closing_of_delivering := nofun
        why_closing := fun hc => (h.why_closing hc).imp_right (Or.imp_left (by simp [hr])) }
  | readEnd item rest hr hend hi hc hg =>
      have h₁ : EndpointInv { e with inbound := rest } := { h with }
      exact h₁.marked hc
  | closeByPeer item rest hr hend hi hc =>
      exact { h with
        closing_of_closed := fun _ => rfl
        ended_of_closed := fun hc => absurd (h.ended_of_closed hc) (by simp [hr])
        closed_of_ended := nofun
        closing_of_delivering := fun _ => rfl
        closing_of_began := fun _ => rfl
        why_closing := fun _ => .inr (.inl rfl) }
  | accepted hr =>
      exact { h with
        ended_of_closed := fun hc => absurd (h.ended_of_closed hc) (by simp [hr])
        closed_of_ended := nofun
        closing_of_delivering := nofun
        why_closing := fun hc => (h.why_closing hc).imp_right (Or.imp_left (by simp [hr])) }

/-! ### A side and its peer -/

/-- A side is about to run `mark_closed`, or has. -/
def Endpoint.Stopping (e : Endpoint) : Prop :=
  0 < e.impatient ∨ e.reader = .delivering ∨ e.closed = true

theorem EndpointInv.closing_of_stopping (h : EndpointInv e) (hs : e.Stopping) : e.closing = true :=
  hs.elim h.closing_of_impatient (Or.rec h.closing_of_delivering h.closing_of_closed)

theorem EndpointInv.began_none (h : EndpointInv e) (hc : e.closing = false) : e.began = none := by
  by_contra hb
  have := h.closing_of_began (Option.isSome_iff_ne_none.2 hb)
  simp [hc] at this

/-- The peer was handed every frame whose send had returned Ok when `close` began. -/
def AllHanded (e q : Endpoint) : Prop := ∀ n ∈ e.began, n ≤ q.handed.length

theorem NothingSent.allHanded (h : NothingSent e) (q : Endpoint) : AllHanded e q := by
  intro n hn
  obtain rfl : n = 0 := by simpa [NothingSent, Option.mem_def.1 hn] using h
  exact Nat.zero_le _

/-- What holds of a side `e` and its peer `q`. -/
structure PeerInv (v3 : Bool) (e q : Endpoint) : Prop where
  frames : e.writer ≠ .aborted →
    e.sent = q.handed ++ inFlight q.inbound ++ e.buffer ++ queued v3 e.outbound
  handed : q.handed ++ inFlight q.inbound <+: e.sent
  endsLast : EndsLast q.inbound
  noEnd : e.writer = .running → ∀ item ∈ q.inbound, ¬item.End
  /-- The frames of the sends before the close marker are before it. -/
  marker : e.writer = .running → .close ∈ e.outbound → ∀ n ∈ e.began,
    n ≤ (q.handed ++ inFlight q.inbound ++ e.buffer ++ ahead v3 e.outbound).length
  shut : e.writer = .shut → ∀ n ∈ e.began, n ≤ (q.handed ++ inFlight q.inbound).length
  stopping : e.Stopping → AllHanded e q
  /-- A peer that closes without a call of its own was told to by this side. -/
  told : q.reader = .delivering ∨ (q.closed = true ∧ q.began = none) →
    e.closed = true ∨ (e.began.isSome ∧ AllHanded e q)

@[simp] theorem Endpoint.receive_nil (q : Endpoint) : q.receive [] = q := by
  simp [Endpoint.receive]

theorem PeerInv.marked (h : PeerInv v3 e q) (ha : AllHanded e q) :
    PeerInv v3 e.marked (q.receive e.lastWord) := by
  unfold Endpoint.marked Endpoint.lastWord
  by_cases hc : e.closed = true
  · simpa [hc] using h
  by_cases hw : e.writer = .running
  · simp only [hc, hw, if_true, and_self, Bool.false_eq_true, if_false]
    exact {
      frames := fun hne => absurd rfl hne
      handed := by simpa [Endpoint.receive, inFlight] using h.handed
      endsLast := EndsLast.append (h.noEnd hw) rfl
      noEnd := nofun
      marker := nofun
      shut := nofun
      stopping := fun _ => ha
      told := fun _ => .inl rfl }
  · simp only [hc, hw, and_false, if_false, Endpoint.receive_nil]
    exact { h with stopping := fun _ => ha, told := fun _ => .inl rfl }

/-- A reader that is closing and reads the end has had its frames read. -/
theorem PeerInv.allHanded_of_end (h : PeerInv v3 e q) (hq : PeerInv v3 q e) (he : EndpointInv e)
    (hqi : EndpointInv q) {item : Inbound} (hi : item ∈ e.inbound) (hend : item.End)
    (hr : e.reader = .reading) (hg : q.began.isSome → NothingSent e) : AllHanded e q := by
  by_cases hb : q.began.isSome
  · exact (hg hb).allHanded q
  -- Only a writer that was shut down or aborted has sent the end.
  have hcl : q.closed = true := by
    cases hw : q.writer with
    | running => exact absurd hend (hq.noEnd hw item hi)
    | shut => exact absurd (hqi.began_of_shut hw) hb
    | aborted => exact hqi.closed_of_aborted hw
  rcases h.told (.inr ⟨hcl, by simpa using hb⟩) with hc | hc
  · exact absurd (he.ended_of_closed hc) (by simp [hr])
  · exact hc.2

theorem PeerInv.move (h : PeerInv v3 e q) (he : EndpointInv e) (hq : PeerInv v3 q e)
    (hqi : EndpointInv q) (hm : Move v3 e q e' items) : PeerInv v3 e' (q.receive items) := by
  cases hm with
  | send sending => simpa using { h with }
  | push sending frame hw =>
      rw [Endpoint.receive_nil]
      refine { h with frames := fun ha => ?_, handed := ?_, marker := fun _ hc => ?_ }
      · have hf := h.frames ha
        cases v3 <;> simp_all
      · cases v3
        · exact h.handed.trans (List.prefix_append _ _)
        · exact h.handed
      · have hc' : .close ∈ e.outbound := by simpa using hc
        rw [ahead_append hc']
        exact h.marker hw hc'
  | write frame rest hw ho =>
      rw [Endpoint.receive_nil]
      refine { h with frames := fun ha => ?_, handed := ?_, marker := fun _ hc n hn => ?_ }
      · have hf := h.frames ha
        cases v3 <;> simp_all
      · cases v3
        · exact h.handed
        · exact h.handed.trans (List.prefix_append _ _)
      · have hle := h.marker hw (ho ▸ List.mem_cons_of_mem _ hc) n hn
        rw [ho] at hle
        cases v3
        · simpa [Nat.add_assoc, Nat.add_comm 1] using hle
        · simp only [ahead_v3, List.length_append, List.length_nil] at hle ⊢
          omega
  | refuse frame rest hw h3 ho =>
      subst h3
      rw [Endpoint.receive_nil]
      refine { h with frames := fun ha => ?_, marker := fun _ hc n hn => ?_ }
      · exact (h.frames ha).trans rfl
      · exact h.marker hw (ho ▸ List.mem_cons_of_mem _ hc) n hn
  | shutdown rest hw ho =>
      have hf := h.frames (by simp [hw])
      have hfl : inFlight (e.buffer.map .data ++ if v3 then [.close, .eof] else [.eof]) = e.buffer := by
        cases v3 <;> simp [inFlight]
      refine { h with
        frames := fun _ => ?_
        handed := ?_
        endsLast := ?_
        noEnd := nofun
        marker := nofun
        shut := fun _ n hn => ?_ }
      · simpa [Endpoint.receive, hfl, ho] using hf
      · simp [Endpoint.receive, hfl, hf]
      · refine EndsLast.append (h.noEnd hw) (endsLast_map_append _ ?_)
        cases v3 <;> rfl
      · have hle := h.marker hw (ho ▸ List.mem_cons_self) n hn
        simpa [Endpoint.receive, hfl, ho, Nat.add_assoc] using hle
  | flush hw =>
      have hf := h.frames (by simp [hw])
      refine { h with
        frames := fun _ => ?_
        handed := ?_
        endsLast := ?_
        noEnd := fun _ item hi => ?_
        marker := fun _ hc n hn => ?_
        shut := fun hs => absurd hs (by simp [hw]) }
      · simpa [Endpoint.receive] using hf
      · simp [Endpoint.receive, hf]
      · exact EndsLast.append (h.noEnd hw) (endsLast_map _)
      · rcases List.mem_append.1 hi with hi | hi
        · exact h.noEnd hw item hi
        · obtain ⟨frame, -, rfl⟩ := List.mem_map.1 hi
          exact id
      · simpa [Endpoint.receive, Nat.add_assoc] using h.marker hw hc n hn
  | close hc =>
      have hno : e.began = none := he.began_none hc
      -- The call of `close` is the first: there is no marker yet, and the side is not stopping.
      have hcl : e.closed ≠ true := fun hcl => by simp [he.closing_of_closed hcl] at hc
      rw [Endpoint.receive_nil]
      refine { h with
        marker := fun _ hm => absurd (he.began_of_marker hm) (by simp [hno])
        shut := fun hs => absurd (he.began_of_shut hs) (by simp [hno])
        stopping := fun hs => absurd (he.closing_of_stopping hs) (by simp [hc])
        told := fun ht => ?_ }
      rcases h.told ht with h' | h'
      · exact absurd h' hcl
      · exact absurd h'.1 (by simp [hno])
  | closeAgain hc hg =>
      rw [Endpoint.receive_nil]
      by_cases hcl : e.closed = true
      · rw [if_pos hcl]
        exact { h with stopping := fun _ => h.stopping (.inr (.inr hcl)) }
      · rw [if_neg hcl]
        -- `close` began before, or begins now; in both cases nothing was sent before.
        have hsame : e.began.isSome → some (e.began.getD e.sent.length) = e.began := fun hb => by
          obtain ⟨n, hn⟩ := Option.isSome_iff_exists.1 hb
          simp [hn]
        have hall : ∀ n ∈ some (e.began.getD e.sent.length), n ≤ q.handed.length := fun n hn => by
          cases hn
          exact (hg (by simpa using hcl)).trans_le (Nat.zero_le _)
        refine { h with
          marker := fun hw hm => ?_
          shut := fun hw => ?_
          stopping := fun _ => hall
          told := fun ht => .inr ⟨rfl, hall⟩ }
        · rw [hsame (he.began_of_marker hm)]
          exact h.marker hw hm
        · rw [hsame (he.began_of_shut hw)]
          exact h.shut hw
  | sendClose hc hw =>
      rw [Endpoint.receive_nil]
      -- The marker is put behind all that was sent.
      have hf := h.frames (by simp [hw])
      refine { h with frames := fun _ => ?_, marker := fun _ _ n hn => ?_ }
      · simpa using hf
      · by_cases hm : .close ∈ e.outbound
        · rw [ahead_append hm]
          exact h.marker hw hm n hn
        · rw [ahead_append_close hm, ← hf]
          exact he.began_le n hn
  | closeEnds hc => simpa using { h with }
  | closeAtOnce hi =>
      have h₁ : PeerInv v3 { e with impatient := e.impatient - 1 } q :=
        { h with stopping := fun _ => h.stopping (.inl hi) }
      exact h₁.marked (h.stopping (.inl hi))
  | delivered hr => exact h.marked (h.stopping (.inr (.inl hr)))
  | read frame rest hr hi =>
      rw [Endpoint.receive_nil]
      exact { h with stopping := fun hs => h.stopping (hs.imp_right (.imp_left nofun)) }
  | readEnd item rest hr hend hi hc hg =>
      have h₁ : PeerInv v3 { e with inbound := rest } q := { h with }
      exact h₁.marked (h.allHanded_of_end hq he hqi (hi ▸ List.mem_cons_self) hend hr hg)
  | closeByPeer item rest hr hend hi hc =>
      rw [Endpoint.receive_nil]
      exact { h with stopping := fun _ n hn => by simp [he.began_none hc] at hn }
  | accepted hr =>
      rw [Endpoint.receive_nil]
      exact { h with stopping := fun hs => h.stopping (hs.imp_right (.imp_left nofun)) }

theorem PeerInv.peerMarked (h : PeerInv v3 q e)
    (ht : e.closed = false → e.began = none → e.reader = .delivering) :
    PeerInv v3 (q.receive items) e.marked := by
  unfold Endpoint.marked
  split
  · exact { h with }
  next hc =>
    exact { h with
      told := fun hd => h.told (.inl (hd.elim nofun fun hd => ht (by simpa using hc) hd.2)) }

/-- The end in flight is no frame. -/
theorem PeerInv.takeEnd (h : PeerInv v3 q e) {item : Inbound} {rest : List Inbound}
    (hi : e.inbound = item :: rest) (hend : item.End) : PeerInv v3 q { e with inbound := rest } := by
  have hfl : inFlight e.inbound = inFlight rest := hi ▸ inFlight_end hend
  exact {
    frames := by simpa only [hfl] using h.frames
    handed := by simpa only [hfl] using h.handed
    endsLast := endsLast_of_inFlight ((hi ▸ h.endsLast).inFlight_tail hend)
    noEnd := fun hw x hx => h.noEnd hw x (hi ▸ List.mem_cons_of_mem _ hx)
    marker := by simpa only [hfl] using h.marker
    shut := by simpa only [hfl] using h.shut
    stopping := h.stopping
    told := h.told }

theorem PeerInv.movePeer (h : PeerInv v3 q e) (he : EndpointInv e) (hqi : EndpointInv q)
    (hm : Move v3 e q e' items) : PeerInv v3 (q.receive items) e' := by
  cases hm with
  | send sending => exact { h with }
  | push sending frame hw => exact { h with }
  | write frame rest hw ho => exact { h with }
  | refuse frame rest hw h3 ho => exact { h with }
  | shutdown rest hw ho => exact { h with }
  | flush hw => exact { h with }
  | close hc =>
      refine { h with told := fun ht => ?_ }
      rcases ht with hr | hr
      · exact h.told (.inl hr)
      · exact nomatch hr.2
  | closeAgain hc hg =>
      refine { h with told := fun ht => h.told (ht.imp_right fun hr => ⟨hr.1, ?_⟩) }
      have hb := hr.2
      rwa [if_pos hr.1] at hb
  | sendClose hc hw => exact { h with }
  | closeEnds hc => exact { h with }
  | closeAtOnce hi =>
      have h₁ : PeerInv v3 q { e with impatient := e.impatient - 1 } := { h with }
      refine h₁.peerMarked fun hc hb => ?_
      rcases he.impatient hi with h' | h'
      · exact absurd h' (by simpa using hc)
      · exact absurd h' (by simpa using hb)
  | delivered hr => exact h.peerMarked fun _ _ => hr
  | read frame rest hr hi =>
      have hfl : e.handed ++ [frame] ++ inFlight rest = e.handed ++ inFlight e.inbound := by
        simp [hi]
      have hall : AllHanded q e → ∀ n ∈ q.began, n ≤ (e.handed ++ [frame]).length := fun ha n hn =>
        (ha n hn).trans (by simp)
      rw [Endpoint.receive_nil]
      exact {
        frames := by simpa only [hfl] using h.frames
        handed := by simpa only [hfl] using h.handed
        endsLast := (hi ▸ h.endsLast : EndsLast (.data frame :: rest))
        noEnd := fun hw x hx => h.noEnd hw x (hi ▸ List.mem_cons_of_mem _ hx)
        marker := by simpa only [hfl] using h.marker
        shut := by simpa only [hfl] using h.shut
        stopping := fun hs => hall (h.stopping hs)
        told := fun ht => (h.told (ht.imp_left nofun)).imp_right fun ha => ⟨ha.1, hall ha.2⟩ }
  | readEnd item rest hr hend hi hc hg =>
      refine (h.takeEnd hi hend).peerMarked fun hcl hb => ?_
      rcases he.why_closing hc with h' | h' | h'
      · exact absurd h' (by simpa using hcl)
      · exact h'
      · exact absurd h' (by simpa using hb)
  | closeByPeer item rest hr hend hi hc =>
      have h₁ := h.takeEnd hi hend
      -- Nothing is in flight behind the end.
      have hnone : inFlight e.inbound = [] := by
        rw [hi, inFlight_end hend]
        exact (hi ▸ h.endsLast).inFlight_tail hend
      refine { h₁ with told := fun _ => ?_ }
      cases hw : q.writer with
      | running => exact absurd hend (h.noEnd hw item (hi ▸ List.mem_cons_self))
      | aborted => exact .inl (hqi.closed_of_aborted hw)
      | shut =>
          refine .inr ⟨hqi.began_of_shut hw, fun n hn => ?_⟩
          simpa [hnone] using h.shut hw n hn
  | accepted hr => exact { h with told := fun ht => h.told (ht.imp_left nofun) }

/-! ### Runs -/

/-- What holds of every run. -/
structure CloseInv (w : World) : Prop where
  ep : ∀ s, EndpointInv (w.ep s)
  peer : ∀ s, PeerInv w.v3 (w.ep s) (w.ep s.peer)

variable {w w' : World}

theorem closeInv_step {ev : Event} (hI : CloseInv w) (hg : Graceful w ev)
    (h : machine.step w ev = some w') : CloseInv w' := by
  obtain ⟨s, e, items, hw, hm⟩ := step_move hg h
  have hback : PeerInv w.v3 (w.ep s.peer) (w.ep s) := by simpa using hI.peer s.peer
  have he := (hI.ep s).move hm
  have hself := (hI.peer s).move (hI.ep s) hback (hI.ep s.peer) hm
  have hpeer := hback.movePeer (hI.ep s) (hI.ep s.peer) hm
  constructor
  · intro s'
    rcases s.eq_or_eq_peer s' with rfl | rfl
    · exact hw.self ▸ he
    · exact hw.peer ▸ (hI.ep _).receive
  · intro s'
    rcases s.eq_or_eq_peer s' with rfl | rfl
    · rw [hw.v3, hw.self, hw.peer]
      exact hself
    · rw [hw.v3, RecoveryRole.peer_peer, hw.self, hw.peer]
      exact hpeer

theorem closeInv_initial (v3 : Bool) : CloseInv (.initial v3) where
  ep _ := {
    closing_of_closed := nofun
    ended_of_closed := nofun
    stopped_of_closed := nofun
    closed_of_aborted := nofun
    closed_of_ended := nofun
    closing_of_delivering := nofun
    closing_of_began := nofun
    why_closing := nofun
    impatient := nofun
    began_le := nofun
    began_of_sending := nofun
    began_of_marker := nofun
    began_of_shut := nofun }
  peer _ := {
    frames := fun _ => by cases v3 <;> rfl
    handed := List.prefix_refl _
    endsLast := trivial
    noEnd := nofun
    marker := nofun
    shut := nofun
    stopping := nofun
    told := nofun }

theorem closeInv_reachable (h : machine.ReachableUnder Graceful w) : CloseInv w := by
  refine h.invariant ?_ fun _ _ _ => closeInv_step
  rintro _ ⟨v3, rfl⟩
  exact closeInv_initial v3

/-- Every frame whose send returned Ok before `close` began was handed to the peer's `accept_frame`
before `mark_closed`. -/
theorem close_delivers (h : machine.ReachableUnder Graceful w) :
    ∀ s, (w.ep s).closed = true → ∀ n, (w.ep s).began = some n →
      (w.ep s).sent.take n <+: (w.ep s.peer).handed := by
  intro s hc n hn
  have hI := (closeInv_reachable h).peer s
  -- Enough was handed over, and what was handed over is a prefix of what was sent.
  have hle : n ≤ (w.ep s.peer).handed.length := hI.stopping (.inr (.inr hc)) n hn
  have hp : (w.ep s.peer).handed <+: (w.ep s).sent := (List.prefix_append _ _).trans hI.handed
  exact List.prefix_of_prefix_length_le (List.take_prefix _ _) hp
    ((List.length_take_le _ _).trans hle)

/-- The client's frame is in its outbound queue when its `close` begins. -/
def closeBehindFrame : List Event :=
  [.send .client ⟨0, 0, [1]⟩, .push .client ⟨0, 0, [1]⟩, .write .client true, .close .client]

/-- The client writes all, the server reads it and closes, and the client reads the end. -/
def oneSidedRun : List Event :=
  closeBehindFrame ++ [Event.sendClose .client, .write .client true, .read .server,
    .accepted .server, .read .server, .delivered .server, .read .client]

def oneSided : World := (machine.exec (.initial true) oneSidedRun).getD (.initial true)

theorem close_delivers_oneSided :
    (oneSided.ep .client).sent.take 1 <+: (oneSided.ep .server).handed :=
  close_delivers (.exec oneSidedRun (.init ⟨true, rfl⟩) rfl (by decide)) .client (by decide) 1
    (by decide)

/-- The server closes at the same time and its end arrives before the client has written. -/
def bothSidesRun : List Event :=
  closeBehindFrame ++ [Event.close .server, .sendClose .server, .write .server true, .read .client]

def bothSides : World := (machine.exec (.initial true) bothSidesRun).getD (.initial true)

theorem close_loses : ¬∀ w, machine.Reachable w → ∀ s, (w.ep s).closed = true →
    ∀ n, (w.ep s).began = some n → (w.ep s).sent.take n <+: (w.ep s.peer).handed := by
  intro hall
  have hr : machine.Reachable bothSides := Machine.reachable_of_exec bothSidesRun ⟨true, rfl⟩ rfl
  exact absurd (hall bothSides hr .client (by decide) 1 (by decide)) (by decide)

end AdaptiveMsg.Close
