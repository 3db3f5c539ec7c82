import AdaptiveMsg.Link.Flow

/-!
# Link — v2 frames arrive whole and in order

Of the frames taken, `Flow` holds in every state of every run, with what the writer has yet to
write, its buffer and the transport as what is to come; a writer that was stopped leaves the rest
unwritten.

`link_sound`: the frames handed to `accept_frame` are the first ones queued, as they were queued,
and none from behind the close marker.  The reader never takes the bytes for anything else: its loop
ends with the transport, with the connection, or in the middle of a frame that the writer did not
finish.  If `close` is told that all is written, the reader ends after the last frame.  A writer
that sleeps has flushed.
-/

namespace AdaptiveMsg.Link

/-! ### Every run -/

/-- Where the writer may be once it has taken the close marker. -/
def Closing (pc : WriterPc) : Prop := pc = .next .close ∨ pc = .shutting ∨ pc = .done

structure Inv (p : Params) (w : World) : Prop where
  queued : w.taken ++ w.outbound = w.queued
  sendable : ∀ e ∈ w.queued, Sendable p.config e
  marker : .close ∈ w.taken → Closing w.pc
  shutting : w.pc = .next .close ∨ w.pc = .shutting ∨ w.reported ≠ none → .close ∈ w.taken
  next : ∀ e, w.pc = .next e → Sendable p.config e
  reported : w.reported ≠ none → w.pc = .done
  ended : w.ended = true ↔ w.pc = .done
  attached : w.pc ≠ .done → w.writer = true ∨ w.attach = true ∧ w.pc = .select
  flushed : w.pc = .select ∨ w.pc = .done → w.buffer = []
  /-- What is on the way, and what a writer that was stopped left unwritten. -/
  flow : ∃ lost, (lost ≠ [] → w.pc = .done ∧ w.reported ≠ some true) ∧
    Flow p.config (plainFrames w.taken) w.handed w.reader
      (w.pipe ++ (w.buffer ++ (w.pc.bytes p.config ++ lost)))
  /-- What the reader ended with. -/
  failed : ∀ err, w.reader = .ended (.error err) →
    err = .io .other ∨ err = .closed ∨
      err = .io .unexpectedEof ∧ w.pc = .done ∧ w.reported ≠ some true
  stopped : ∀ u, w.reader = .ended (.ok u) → w.pipe = [] ∧ w.pc = .done

namespace Inv

variable {p : Params} {w w' : World}

theorem plain (hI : Inv p w) : ∀ frame ∈ plainFrames w.taken, Plain p.config frame :=
  plain_of_sendable fun e he => hI.sendable e (hI.queued ▸ List.mem_append_left _ he)

theorem initial : Inv p .initial where
  queued := rfl
  sendable := nofun
  marker := nofun
  shutting := by simp [World.initial]
  next := nofun
  reported := nofun
  ended := by simp [World.initial]
  attached := by simp [World.initial]
  flushed _ := rfl
  flow := by
    refine ⟨[], nofun, [], [], rfl, rfl, rfl, ?_⟩
    exact Nat.pos_of_ne_zero p.config.headerLen_pos
  failed := nofun
  stopped := nofun

/-- An entry is queued. -/
theorem queue {e : OutboundFrame} (hI : Inv p w) (he : Sendable p.config e)
    (h : w.queue p e = some w') : Inv p w' := by
  obtain ⟨-, he'⟩ := Option.ite_none_right_eq_some.mp h
  cases he'
  refine { hI with queued := ?_, sendable := ?_ }
  · rw [← hI.queued, List.append_assoc]
  · intro e' he'
    rcases List.mem_append.mp he' with he' | he'
    · exact hI.sendable e' he'
    · exact List.mem_singleton.mp he' ▸ he

theorem not_reported (hI : Inv p w) (hpc : w.pc ≠ .done) : w.reported = none := by
  by_contra h
  exact hpc (hI.reported h)

/-- The writer ends: what it had not handed to the transport is lost, which is nothing if it reports
the close marker. -/
theorem finish {reported : Option Bool} {closed : Bool} (hI : Inv p w) (hpc : w.pc ≠ .done)
    (hshut : reported ≠ none → w.pc = .shutting) (htrue : reported = some true → w.buffer = []) :
    Inv p { w.finish with reported := reported, closed := closed } := by
  obtain ⟨lost, hlost, hflow⟩ := hI.flow
  have hnone : lost = [] := by
    by_contra h
    exact hpc (hlost h).1
  refine { hI with
    marker := fun _ => .inr (.inr rfl)
    shutting := ?_
    next := nofun
    reported := fun _ => rfl
    ended := ⟨fun _ => rfl, fun _ => rfl⟩
    attached := fun h => absurd rfl h
    flushed := fun _ => rfl
    flow := ⟨w.buffer ++ w.pc.bytes p.config, ?_, ?_⟩
    failed := ?_
    stopped := fun u hu => ⟨(hI.stopped u hu).1, rfl⟩ }
  · rintro (h | h | h)
    · cases h
    · cases h
    · exact hI.shutting (.inr (.inl (hshut h)))
  · intro hne
    refine ⟨rfl, fun hr => hne ?_⟩
    rw [htrue hr, hshut (by rw [show reported = some true from hr]; nofun)]
    rfl
  · rw [hnone, List.append_nil] at hflow
    exact hflow
  · intro err herr
    rcases hI.failed err herr with h | h | h
    · exact .inl h
    · exact .inr (.inl h)
    · exact absurd h.2.1 hpc

/-- The writer moves on with the frame that it is at, and takes nothing. -/
theorem move {pc : WriterPc} {buffer pipe : List UInt8} {writer attach : Bool} (hI : Inv p w)
    (hpc : w.pc ≠ .done) (hpc' : pc ≠ .done)
    (hnext : ∀ e, pc ≠ .next e) (hmarker : Closing w.pc ↔ Closing pc)
    (hattached : writer = true ∨ attach = true ∧ pc = .select)
    (hflushed : pc = .select → buffer = [])
    (hbytes : pipe ++ (buffer ++ pc.bytes p.config) =
      w.pipe ++ (w.buffer ++ w.pc.bytes p.config)) :
    Inv p { w with
      pc := pc, buffer := buffer, pipe := pipe, writer := writer, attach := attach } := by
  obtain ⟨lost, hlost, hflow⟩ := hI.flow
  have hnone : lost = [] := by
    by_contra h
    exact hpc (hlost h).1
  refine { hI with
    marker := fun h => hmarker.mp (hI.marker h)
    shutting := ?_
    next := fun e h => absurd h (hnext e)
    reported := fun h => absurd (hI.reported h) hpc
    ended := ⟨fun h => absurd (hI.ended.mp h) hpc, fun h => absurd h hpc'⟩
    attached := fun _ => hattached
    flushed := fun h => hflushed (h.resolve_right hpc')
    flow := ⟨[], nofun, ?_⟩
    failed := ?_
    stopped := fun u hu => absurd (hI.stopped u hu).2 hpc }
  · rintro (h | h | h)
    · rcases hmarker.mpr (.inl h) with h | h | h
      · exact hI.shutting (.inl h)
      · exact hI.shutting (.inr (.inl h))
      · exact absurd h hpc
    · rcases hmarker.mpr (.inr (.inl h)) with h | h | h
      · exact hI.shutting (.inl h)
      · exact hI.shutting (.inr (.inl h))
      · exact absurd h hpc
    · exact absurd (hI.reported h) hpc
  · rw [hnone, List.append_nil, ← hbytes] at hflow
    rwa [List.append_nil]
  · intro err herr
    rcases hI.failed err herr with h | h | h
    · exact .inl h
    · exact .inr (.inl h)
    · exact absurd h.2.1 hpc

/-- The writer takes the head of the queue. -/
theorem take {head : OutboundFrame} {rest : List OutboundFrame} (hI : Inv p w)
    (hw : w.writer = true) (hpc : ¬Closing w.pc) (hbytes : w.pc.bytes p.config = [])
    (ho : w.outbound = head :: rest) : Inv p (w.take head rest) := by
  have hdone : w.pc ≠ .done := fun h => hpc (.inr (.inr h))
  have hmark : .close ∉ w.taken := fun h => hpc (hI.marker h)
  obtain ⟨lost, hlost, hflow⟩ := hI.flow
  have hnone : lost = [] := by
    by_contra h
    exact hdone (hlost h).1
  rw [hbytes, hnone, List.append_nil, List.append_nil] at hflow
  refine { hI with
    queued := ?_
    marker := ?_
    shutting := ?_
    next := ?_
    reported := fun h => absurd (hI.reported h) hdone
    ended := ⟨fun h => absurd (hI.ended.mp h) hdone, nofun⟩
    attached := fun _ => .inl hw
    flushed := fun h => by rcases h with h | h <;> cases h
    flow := ⟨[], nofun, ?_⟩
    failed := ?_
    stopped := fun u hu => absurd (hI.stopped u hu).2 hdone }
  · show w.taken ++ [head] ++ rest = w.queued
    rw [← hI.queued, ho, List.append_assoc]
    rfl
  · intro h
    rcases List.mem_append.mp h with h | h
    · exact absurd h hmark
    · exact .inl (congrArg WriterPc.next (List.mem_singleton.mp h).symm)
  · rintro (h | h | h)
    · cases h
      exact List.mem_append_right _ (List.mem_singleton_self _)
    · cases h
    · exact absurd (hI.reported h) hdone
  · rintro e ⟨⟩
    exact hI.sendable head (hI.queued ▸ ho ▸ by simp)
  · show Flow p.config (plainFrames (w.taken ++ [head])) w.handed w.reader
      (w.pipe ++ (w.buffer ++ ((WriterPc.next head).bytes p.config ++ [])))
    rw [plainFrames_append hmark, List.append_nil, ← List.append_assoc]
    cases head with
    | plain streamId flags payload => exact hflow.snoc _
    | close =>
        rw [plainFrames, List.append_nil]
        show Flow p.config _ _ _ (w.pipe ++ w.buffer ++ [])
        rwa [List.append_nil]
  · intro err herr
    rcases hI.failed err herr with h | h | h
    · exact .inl h
    · exact .inr (.inl h)
    · exact absurd h.2.1 hdone

/-- The reader gets a piece of a frame. -/
theorem reads {n : Nat} {pc : ReaderPc} (hI : Inv p w)
    (hflow : ∀ tail, Flow p.config (plainFrames w.taken) w.handed w.reader
        (w.pipe.take n ++ tail) →
      Live pc ∧ Flow p.config (plainFrames w.taken) (Flow.handedAt w.handed pc) pc tail) :
    Live pc ∧ Inv p ({ w with pipe := w.pipe.drop n }.moveReader pc) := by
  obtain ⟨lost, hlost, h⟩ := hI.flow
  rw [← List.take_append_drop n w.pipe, List.append_assoc] at h
  obtain ⟨hpc, h⟩ := hflow _ h
  have hmove : { w with pipe := w.pipe.drop n }.moveReader pc = { w with
      pipe := w.pipe.drop n, reader := pc, handed := Flow.handedAt w.handed pc } := by
    cases pc <;> rfl
  rw [hmove]
  exact ⟨hpc, { hI with
    flow := ⟨lost, hlost, h⟩
    failed := fun err he => absurd he (hpc.1 _)
    stopped := fun u he => absurd he (hpc.1 _) }⟩

/-- What a read leads to. -/
theorem read {n : Nat} (hI : Inv p w) (h : w.read p n = some w') :
    ∃ pc, Live pc ∧ w' = { w with pipe := w.pipe.drop n }.moveReader pc ∧ Inv p w' := by
  simp only [World.read] at h
  split at h
  · rename_i got hr
    obtain ⟨⟨-, hn, hle⟩, h⟩ := Option.ite_none_right_eq_some.mp h
    cases h
    obtain ⟨hlive, hI⟩ := hI.reads (n := n) fun tail hf => by
      rw [hr] at hf
      refine hf.header hI.plain ?_
      rwa [List.length_take_of_le hn]
    exact ⟨_, hlive, rfl, hI⟩
  · rename_i streamId seq flags len got hr
    obtain ⟨⟨-, hn, hle⟩, h⟩ := Option.ite_none_right_eq_some.mp h
    cases h
    obtain ⟨hlive, hI⟩ := hI.reads (n := n) fun tail hf => by
      rw [hr] at hf
      refine hf.payload ?_
      rwa [List.length_take_of_le hn]
    exact ⟨_, hlive, rfl, hI⟩
  · cases h

/-- The reader stops, or goes on to the next frame. -/
theorem stop {pc : ReaderPc} (hI : Inv p w)
    (hhas : ∀ rest part, w.reader.Has p.config rest part → pc.Has p.config rest part)
    (hfailed : ∀ err, pc = .ended (.error err) → err = .io .other ∨ err = .closed ∨
      err = .io .unexpectedEof ∧ w.pc = .done ∧ w.reported ≠ some true)
    (hstopped : ∀ u, pc = .ended (.ok u) → w.pipe = [] ∧ w.pc = .done) :
    Inv p { w with reader := pc } := by
  obtain ⟨lost, hlost, part, rest, hf, hb, hr⟩ := hI.flow
  exact { hI with
    flow := ⟨lost, hlost, part, rest, hf, hb, hhas rest part hr⟩
    failed := hfailed
    stopped := hstopped }

/-- What is left once the close marker is reported written and the transport is empty. -/
theorem flow_nil (hI : Inv p w) (hpipe : w.pipe = []) (hr : w.reported = some true) :
    Flow p.config (plainFrames w.taken) w.handed w.reader [] := by
  have hdone := hI.reported (by rw [hr]; nofun)
  obtain ⟨lost, hlost, hflow⟩ := hI.flow
  have hnone : lost = [] := by
    by_contra h
    exact (hlost h).2 hr
  rwa [hpipe, hI.flushed (.inr hdone), hdone, hnone] at hflow

/-- The end of the stream: inside a frame only if the writer did not finish. -/
theorem eof (hI : Inv p w) (h : w.eof = some w') : Inv p w' := by
  simp only [World.eof] at h
  split at h
  · rename_i hend
    have hdone := hI.ended.mp hend.2
    split at h
    · cases h
      rename_i hreader
      refine hI.stop ?_ nofun fun _ _ => ⟨hend.1, hdone⟩
      rintro rest part hhas
      rw [hreader] at hhas
      exact hhas.1
    · rename_i got hne hreader
      cases h
      refine hI.stop (fun _ _ _ => trivial) ?_ nofun
      rintro err ⟨⟩
      refine .inr (.inr ⟨rfl, hdone, fun hr => ?_⟩)
      obtain ⟨⟨-, hgot⟩, -⟩ := (hI.flow_nil hend.1 hr).atEnd (by rw [hreader]; nofun)
        (by rw [hreader]; nofun)
      exact hne (hgot got hreader)
    · rename_i streamId seq flags len got hreader
      cases h
      refine hI.stop (fun _ _ _ => trivial) ?_ nofun
      rintro err ⟨⟩
      refine .inr (.inr ⟨rfl, hdone, fun hr => ?_⟩)
      obtain ⟨-, hpayload⟩ := (hI.flow_nil hend.1 hr).atEnd (by rw [hreader]; nofun)
        (by rw [hreader]; nofun)
      exact hpayload _ _ _ _ _ hreader
    · cases h
  · cases h

/-- A writer that is at work has its transport. -/
theorem writer (hI : Inv p w) (hs : w.pc ≠ .select) (hd : w.pc ≠ .done) : w.writer = true := by
  rcases hI.attached hd with h | ⟨-, h⟩
  · exact h
  · exact absurd h hs

/-- What the writer goes on to. -/
theorem goOn (hI : Inv p w) (h : w.goOn p = some w') : Inv p w' := by
  simp only [World.goOn] at h
  split at h
  · -- the close marker
    rename_i hpc
    cases h
    refine hI.move (hpc ▸ nofun) nofun nofun ?_ (.inl ?_) nofun ?_
    · simp [Closing, hpc]
    · exact hI.writer (hpc ▸ nofun) (hpc ▸ nofun)
    · rw [hpc]
      rfl
  · -- a frame
    rename_i streamId flags payload hpc
    rw [ConnConfig.writeFrame_ok (hI.next _ hpc)] at h
    cases h
    refine hI.move (hpc ▸ nofun) nofun nofun ?_ (.inl ?_) nofun ?_
    · simp [Closing, hpc]
    · exact hI.writer (hpc ▸ nofun) (hpc ▸ nofun)
    · rw [hpc]
      rfl
  · -- the frame is written
    rename_i hpc
    cases h
    refine hI.move (hpc ▸ nofun) nofun nofun ?_ (.inl ?_) nofun ?_
    · simp [Closing, hpc]
    · exact hI.writer (hpc ▸ nofun) (hpc ▸ nofun)
    · rw [hpc]
      rfl
  · -- `try_recv`
    rename_i hpc
    have hw := hI.writer (hpc ▸ nofun) (hpc ▸ nofun)
    split at h
    · rename_i head rest ho
      cases h
      exact hI.take hw (by simp [Closing, hpc]) (by rw [hpc]; rfl) ho
    · cases h
      refine hI.move (hpc ▸ nofun) nofun nofun ?_ (.inl hw) nofun ?_
      · simp [Closing, hpc]
      · rw [hpc]
        rfl
  · -- the buffer is flushed
    rename_i hpc
    obtain ⟨hempty, h⟩ := Option.ite_none_right_eq_some.mp h
    cases h
    refine hI.move (hpc ▸ nofun) nofun nofun ?_ (.inl ?_) (fun _ => hempty) ?_
    · simp [Closing, hpc]
    · exact hI.writer (hpc ▸ nofun) (hpc ▸ nofun)
    · rw [hpc]
      rfl
  · -- the transport is shut down
    rename_i hpc
    obtain ⟨hempty, h⟩ := Option.ite_none_right_eq_some.mp h
    cases h
    exact hI.finish (hpc ▸ nofun) (fun _ => hpc) fun _ => hempty
  · cases h

/-- One step lemma for each event. -/
theorem step {e : Event} (hI : Inv p w) (h : w.step p e = some w') : Inv p w' := by
  cases e with
  | send streamId payload =>
      obtain ⟨hle, h⟩ := Option.ite_none_right_eq_some.mp h
      exact hI.queue (sendable_message hle) h
  | sendFin streamId => exact hI.queue (sendable_fin streamId) h
  | queueClose => exact hI.queue (e := .close) trivial h
  | markClosed =>
      cases h
      exact { hI with }
  | abort =>
      obtain ⟨⟨-, hpc⟩, h⟩ := Option.ite_none_right_eq_some.mp h
      cases h
      exact hI.finish hpc (fun h => absurd (hI.not_reported hpc) h) fun h => by
        rw [hI.not_reported hpc] at h
        cases h
  | closedNotify =>
      obtain ⟨⟨-, hpc⟩, h⟩ := Option.ite_none_right_eq_some.mp h
      cases h
      have hdone : w.pc ≠ .done := hpc ▸ nofun
      exact hI.finish hdone (fun h => absurd (hI.not_reported hdone) h) fun h => by
        rw [hI.not_reported hdone] at h
        cases h
  | command =>
      obtain ⟨⟨-, hpc⟩, h⟩ := Option.ite_none_right_eq_some.mp h
      cases h
      exact hI.move (hpc ▸ nofun) (hpc ▸ nofun) (hpc ▸ nofun) Iff.rfl (.inl rfl)
        (fun h => hI.flushed (.inl h)) rfl
  | recv =>
      simp only [World.step] at h
      split at h
      · rename_i head rest hpc hw ho
        cases h
        exact hI.take hw (by simp [Closing, hpc]) (by rw [hpc]; rfl) ho
      · cases h
  | goOn => exact hI.goOn h
  | buffer n =>
      simp only [World.step, World.fill] at h
      split at h
      · rename_i rest hpc
        obtain ⟨-, h⟩ := Option.ite_none_right_eq_some.mp h
        cases h
        refine hI.move (hpc ▸ nofun) nofun nofun ?_ (.inl ?_) nofun ?_
        · simp [Closing, hpc]
        · exact hI.writer (hpc ▸ nofun) (hpc ▸ nofun)
        · show w.pipe ++ (w.buffer ++ rest.take n ++ rest.drop n) = _
          rw [List.append_assoc, List.take_append_drop, hpc]
          rfl
      · cases h
  | spill n =>
      obtain ⟨⟨hpolls, -⟩, h⟩ := Option.ite_none_right_eq_some.mp h
      cases h
      have hpc : w.pc ≠ .select ∧ w.pc ≠ .done ∧ ∀ e, w.pc ≠ .next e := by
        refine ⟨?_, ?_, fun e => ?_⟩
        all_goals
          intro h
          rw [World.polls, h] at hpolls
          cases hpolls
      refine hI.move hpc.2.1 hpc.2.1 hpc.2.2 Iff.rfl (.inl (hI.writer hpc.1 hpc.2.1))
        (fun h => absurd h hpc.1) ?_
      rw [List.append_assoc, ← List.append_assoc (w.buffer.take n), List.take_append_drop]
  | writeFails =>
      simp only [World.step, World.writeFails] at h
      split at h
      · rename_i rest hpc
        cases h
        have hdone : w.pc ≠ .done := hpc ▸ nofun
        have hnone := hI.not_reported hdone
        exact hI.finish hdone (fun h => absurd hnone h) fun h => by cases hnone.symm.trans h
      · rename_i hpc
        cases h
        have hdone : w.pc ≠ .done := hpc ▸ nofun
        have hnone := hI.not_reported hdone
        exact hI.finish hdone (fun h => absurd hnone h) fun h => by cases hnone.symm.trans h
      · rename_i hpc
        cases h
        exact hI.finish (hpc ▸ nofun) (fun _ => hpc) nofun
      · cases h
  | read n =>
      obtain ⟨-, -, -, hI⟩ := hI.read h
      exact hI
  | eof => exact hI.eof h
  | readFails =>
      simp only [World.step, World.readFails] at h
      split at h
      all_goals
        cases h
      all_goals
        refine hI.stop (fun _ _ _ => trivial) ?_ nofun
        rintro err ⟨⟩
        exact .inl rfl
  | accepted ok =>
      simp only [World.step, World.accepted] at h
      split at h
      · rename_i frame hr
        cases h
        cases ok with
        | true =>
            refine hI.stop ?_ nofun nofun
            rintro rest part hhas
            rw [hr] at hhas
            exact ⟨hhas, Nat.pos_of_ne_zero p.config.headerLen_pos⟩
        | false =>
            refine hI.stop (fun _ _ _ => trivial) ?_ nofun
            rintro err ⟨⟩
            exact .inr (.inl rfl)
      · cases h
  | readerAborted =>
      simp only [World.step, World.readerAborted] at h
      split at h
      · cases h
      · cases h
        exact hI.stop (fun _ _ _ => trivial) nofun nofun

end Inv

theorem inv_reachable {p : Params} {w : World} (h : (machine p).Reachable w) : Inv p w :=
  h.invariant (fun _ h => by cases h; exact .initial) fun _ _ _ hI _ hs => hI.step hs

/-- The frames handed over are the first ones queued. -/
theorem Inv.fifo {p : Params} {w : World} (hI : Inv p w) : w.handed <+: plainFrames w.queued := by
  obtain ⟨_, -, hflow⟩ := hI.flow
  rw [← hI.queued]
  exact hflow.handed_le.trans (plainFrames_le _ _)

/-- After a close that was reported written, the end comes after the last frame. -/
theorem Inv.whole {p : Params} {w : World} (hI : Inv p w) {u : Unit}
    (hu : w.reader = .ended (.ok u)) (hr : w.reported = some true) :
    w.handed = plainFrames w.queued := by
  obtain ⟨⟨hall, -⟩, -⟩ := (hI.flow_nil (hI.stopped u hu).1 hr).atEnd (by rw [hu]; nofun)
    (by rw [hu]; nofun)
  have hmark := hI.shutting (.inr (.inr (by rw [hr]; nofun)))
  rw [← hI.queued, plainFrames_append_of_close hmark, hall]

/-- What a link does to the frames of the outbound queue. -/
structure Sound (p : Params) (w : World) : Prop where
  /-- The frames handed over are the first ones queued. -/
  fifo : w.handed <+: plainFrames w.queued
  /-- The bytes are never taken for anything else. -/
  failed : ∀ err, w.reader = .ended (.error err) → err = .io .other ∨ err = .closed ∨
    err = .io .unexpectedEof ∧ w.pc = .done ∧ w.reported ≠ some true
  /-- A clean end after a close that was reported written comes after the last frame. -/
  whole : ∀ u, w.reader = .ended (.ok u) → w.reported = some true →
    w.handed = plainFrames w.queued
  /-- A writer that sleeps has flushed. -/
  flushed : w.pc = .select → w.buffer = []

/-- **A v2 connection hands over the frames that were queued** in front of its close marker, in
order, and nothing else. -/
theorem link_sound (p : Params) (w : World) (h : (machine p).Reachable w) : Sound p w := by
  have hI := inv_reachable h
  exact ⟨hI.fifo, hI.failed, fun _ hu hr => hI.whole hu hr, fun h => hI.flushed (.inl h)⟩

/-- A v2 link with a limit of 1024 bytes and room for 16 in the transport. -/
def smallLink : Params := ⟨ConnConfig.smallConfig, 4, 16, by decide⟩

/-- A message of one byte is sent and the link closed; the writer has taken both. -/
def sentRun : List Event :=
  [.send 7 [1], .queueClose, .command, .recv, .goOn, .buffer 11, .goOn, .goOn, .goOn]

/-- The reader gets the message in three pieces, and the end of the stream. -/
def readRun : List Event :=
  [.spill 4, .read 3, .spill 7, .goOn, .read 7, .read 1, .accepted true, .eof]

def readBack : World := ((machine smallLink).exec .initial (sentRun ++ readRun)).getD .initial

theorem link_sound_readBack : Sound smallLink readBack ∧ readBack.handed = [⟨7, 0, 0, [1]⟩] ∧
    readBack.reported = some true :=
  ⟨link_sound smallLink readBack (Machine.reachable_of_exec (sentRun ++ readRun) rfl rfl), rfl, rfl⟩

end AdaptiveMsg.Link
