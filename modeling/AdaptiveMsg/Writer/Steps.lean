import AdaptiveMsg.Writer.Model

/-!
# Writer — what a step can do

`Move w a w'` is a step of the writer from `w` to `w'`, with what is known where it is taken, and
`Aside w e w'` is one of another task (`step_cases`).  A frame that the writer has in hand is kept,
held or refused (`Draws.outcome`).
-/

namespace AdaptiveMsg.Writer

open World

/-! ### Steps of the writer -/

/-- The writer has the frame of the sender `queuedTx` in hand, in `w₁`. -/
inductive Draws (w : World) : Nat → Frame → World → Prop where
  | held {queuedTx : Nat} {frame : Frame} (hheld : w.held = some (queuedTx, frame))
      (hpc : w.pc = .frame) : Draws w queuedTx frame { w with held := none }
  | head {queuedTx : Nat} {frame : Frame} {rest : List OutboundFrame} (hheld : w.held = none)
      (hout : w.outbound = .recovery queuedTx frame :: rest)
      (hpc : w.pc = .frame ∨ w.pc = .parked ∨ w.pc = .detached) :
      Draws w queuedTx frame (w.take (.recovery queuedTx frame) rest)

/-- The record of the next frame. -/
def World.record (w : World) (frame : Frame) : FrameRecord :=
  ⟨frame, w.nextSendSeq + 1, ReplayBuffer.frameSize w.recovery.replay.headerLen frame⟩

/-- The frame is kept under the next number. -/
def World.keep (w : World) (queuedTx : Nat) (frame : Frame) : World :=
  { w with
    recovery := { w.recovery with replay := w.recovery.replay.push frame (w.nextSendSeq + 1) }
    nextSendSeq := w.nextSendSeq + 1
    answers := w.answers ++ [(queuedTx, .ok ())]
    kept := w.kept ++ [(queuedTx, w.record frame)] }

/-- Why a frame is refused. -/
def World.Refuses (w : World) (frame : Frame) (err : Error) : Prop :=
  ¬w.recovery.replay.CanFit frame ∧ err = .frameTooLarge frame.payload.length ∨
    ¬w.recovery.replay.Fresh (w.nextSendSeq + 1)

inductive Move (w : World) (a : Action) : World → Prop where
  | stop (hpc : w.pc = .top ∨ w.pc = .parked ∨ w.pc = .detached) : Move w a { w with pc := .done }
  | commands (hpc : w.pc = .top) (hw : w.writer = true) : Move w a { w with pc := .commands }
  | detached (hpc : w.pc = .top) (hclosed : w.closed = false) (hw : w.writer = false) :
      Move w a { w with pc := .detached }
  | attach {gen resumeSeq : Nat} {rest : List WriterCommand}
      (hcmds : w.writerCmds = .attach gen resumeSeq :: rest) (pc : Pc)
      (hpc : w.pc = .commands ∧ pc = .commands ∨ (w.pc = .parked ∨ w.pc = .detached) ∧ pc = .top)
      {lastSentSeq : Nat} (hlast : lastSentSeq = min resumeSeq w.nextSendSeq) :
      Move w a { w with
        writerCmds := rest
        gen := gen
        lastSentSeq := lastSentSeq
        resume := (w.recovery.prepareResume lastSentSeq).1
        recovery := (w.recovery.prepareResume lastSentSeq).2
        writer := true
        dirty := false
        point := lastSentSeq
        ackedAtAttach := (w.recovery.prepareResume lastSentSeq).2.replay.lastAcked
        passed := []
        pc := pc }
  | detach {gen : Nat} {rest : List WriterCommand} (hcmds : w.writerCmds = .detach gen :: rest)
      (pc : Pc)
      (hpc : w.pc = .commands ∧ pc = .commands ∨ (w.pc = .parked ∨ w.pc = .detached) ∧ pc = .top) :
      Move w a { w with
        writerCmds := rest, writer := if gen = w.gen then false else w.writer, pc := pc }
  | ack (hpc : w.pc = .commands) (hw : w.writer = true) : Move w a { w with pc := .ack }
  | again (hpc : w.pc = .commands ∨ w.pc = .parked) : Move w a { w with pc := .top }
  | pending (hpc : w.pc = .ack) (now : Nat) (pc : Pc)
      (hpc' : pc = .replay ∨ ∃ seq, pc = .writing (.ack seq)) :
      Move w a { w with recovery := (w.recovery.takePendingAck now).2, pc := pc }
  | replayed (hpc : w.pc = .replay) {record : FrameRecord} {rest : List FrameRecord}
      (hres : w.resume = record :: rest) (hseq : w.lastSentSeq < record.seq) :
      Move w a { w with resume := rest, pc := .writing (.record record) }
  | passed (hpc : w.pc = .replay) {record : FrameRecord} {rest : List FrameRecord}
      (hres : w.resume = record :: rest)
      (hseq : record.seq ≤ w.lastSentSeq ∨ record.seq ≤ w.recovery.replay.lastAcked) :
      Move w a { w with
        resume := rest, passed := w.passed ++ [(record, w.recovery.replay.lastAcked)], pc := .top }
  | frame (hpc : w.pc = .replay) (hres : w.resume = []) : Move w a { w with pc := .frame }
  | keep {queuedTx : Nat} {frame : Frame} {w₁ : World} (hd : Draws w queuedTx frame w₁)
      (hfits : w.recovery.replay.Fits frame) (hfresh : w.recovery.replay.Fresh (w.nextSendSeq + 1))
      (pc : Pc) (hpc : w.pc = .detached ∧ pc = .top ∨ (w.pc = .frame ∨ w.pc = .parked) ∧
        pc = if w.lastSentSeq < w.nextSendSeq + 1 then .writing (.record (w.record frame)) else .top) :
      Move w a { w₁.keep queuedTx frame with pc := pc }
  | hold {queuedTx : Nat} {frame : Frame} {w₁ : World} (hd : Draws w queuedTx frame w₁)
      (hfits : ¬w.recovery.replay.Fits frame) (hcan : w.recovery.replay.CanFit frame) (pc : Pc)
      (hpc : w.pc = .frame ∧ pc = .flush ∨ (w.pc = .parked ∨ w.pc = .detached) ∧ pc = .top) :
      Move w a { w₁ with held := some (queuedTx, frame), pc := pc }
  | refuse {queuedTx : Nat} {frame : Frame} {w₁ : World} (hd : Draws w queuedTx frame w₁)
      {err : Error} (herr : w.Refuses frame err) :
      Move w a { w₁ with answers := w.answers ++ [(queuedTx, .error err)], pc := .top }
  | close {rest : List OutboundFrame} (hpc : w.pc = .frame ∨ w.pc = .parked) (hheld : w.held = none)
      (hout : w.outbound = .close :: rest) : Move w a { w.take .close rest with pc := .closing }
  | closeDetached {rest : List OutboundFrame} (hpc : w.pc = .detached) (hheld : w.held = none)
      (hout : w.outbound = .close :: rest) :
      Move w a { w.take .close rest with written := some false, pc := .done }
  | flush (hpc : w.pc = .frame) (hheld : w.held = none) : Move w a { w with pc := .flush }
  | flushing (hpc : w.pc = .flush) : Move w a { w with dirty := false, pc := .flushing }
  | parked (hpc : w.pc = .flush ∨ w.pc = .flushing) : Move w a { w with pc := .parked }
  | wrote {packet : Packet} (hpc : w.pc = .writing packet) : Move w a (w.wrote packet)
  | fail (hpc : (∃ packet, w.pc = .writing packet) ∨ w.pc = .flushing) : Move w a w.detach
  | wroteClose (hpc : w.pc = .closing) :
      Move w a { w with log := w.log ++ [(w.gen, .close)], pc := .shutting }
  | answer (ok : Bool) (hpc : w.pc = .closing ∧ ok = false ∨ w.pc = .shutting) :
      Move w a { w with written := some ok, pc := .done }
  | wake (ha : a = .notified) (hpc : w.pc = .parked) : Move w a { w with permit := false, pc := .top }
  | wakeDetached (ha : a = .notified) (hpc : w.pc = .detached) (hheld : w.held.isSome) :
      Move w a { w with permit := false, pc := if w.closing then .done else .top }
  | ping (hpc : w.pc = .parked) : Move w a { w with pc := .writing .ping }
  | detachSend (hpc : w.pc = .detaching) :
      Move w a { w with writerCmds := w.writerCmds ++ [.detach w.gen], writer := false, pc := .top }

/-! ### Steps of the other tasks -/

/-- The event stores a permit, and is no step of the writer. -/
def Event.signals : Event → Bool
  | .signalSend | .ackSignal | .closeSignal => true
  | _ => false

inductive Aside (w : World) (e : Event) : World → Prop where
  | enqueue (frame : Frame) (he : e.signals = false) : Aside w e { w with
      outbound := w.outbound ++ [.recovery w.queued frame]
      queued := w.queued + 1
      signalling := w.signalling + 1 }
  | signal (signalling acking : Nat) (he : e.signals = true) :
      Aside w e { w with permit := true, signalling := signalling, acking := acking }
  | ackReceived {lastSeq : Nat} (he : e = .ackReceived lastSeq) : Aside w e { w with
      recovery := w.recovery.ackReceived lastSeq, acking := w.acking + 1 }
  | noteReceived (now seq signalling : Nat) (he : e.signals = false) : Aside w e { w with
      recovery := (w.recovery.noteReceived now seq).2, signalling := signalling }
  | generation (transportGen : Nat) (attaching : List (Nat × Nat)) (detaching : List Nat)
      (he : e.signals = false) : Aside w e { w with
        transportGen := transportGen, attaching := attaching, detaching := detaching }
  | send (cmd : WriterCommand) (attaching : List (Nat × Nat)) (detaching : List Nat)
      (signalling : Nat) (he : e.signals = false) : Aside w e { w with
        writerCmds := w.writerCmds ++ [cmd]
        attaching := attaching
        detaching := detaching
        signalling := signalling }
  | close (hclosing : w.closing = false) (he : e.signals = false) :
      Aside w e { w with closing := true, closer := .begun }
  | queueClose (hcloser : w.closer = .begun) (he : e.signals = false) :
      Aside w e { w with outbound := w.outbound ++ [.close], closer := .queued }
  | closeSignal (hcloser : w.closer = .queued) (he : e.signals = true) :
      Aside w e { w with closer := .signalled, permit := true }
  | closeByPeer (he : e.signals = false) : Aside w e { w with closing := true }
  | markClosed (he : e.signals = false) : Aside w e { w with closed := true }
  | abort (he : e.signals = false) : Aside w e { w with pc := .done }

section moves

variable {w w' : World} {e : Event} {a : Action}

/-- What `stage` does with a frame. -/
theorem stage_cases (w : World) (queuedTx : Nat) (frame : Frame) :
    (w.stage queuedTx frame = (w.keep queuedTx frame, some (w.record frame)) ∧
      w.recovery.replay.Fits frame ∧ w.recovery.replay.Fresh (w.nextSendSeq + 1)) ∨
    (w.stage queuedTx frame = ({ w with held := some (queuedTx, frame) }, none) ∧
      ¬w.recovery.replay.Fits frame ∧ w.recovery.replay.CanFit frame) ∨
    ∃ err, w.stage queuedTx frame =
      ({ w with answers := w.answers ++ [(queuedTx, .error err)] }, none) ∧ w.Refuses frame err := by
  rcases ReplayBuffer.stage_cases w.recovery.replay frame (w.nextSendSeq + 1) with
    ⟨h, hrest⟩ | ⟨h, hrest⟩ | ⟨err, h, herr⟩
  · exact .inl ⟨by simp only [stage, h]; rfl, hrest⟩
  · exact .inr (.inl ⟨by simp only [stage, h], hrest⟩)
  · exact .inr (.inr ⟨err, by simp only [stage, h], herr⟩)

/-- `stage_cases`, with the record written next. -/
theorem writeLive_cases (w : World) (queuedTx : Nat) (frame : Frame) :
    (w.writeLive queuedTx frame = { w.keep queuedTx frame with
        pc := if w.lastSentSeq < w.nextSendSeq + 1 then .writing (.record (w.record frame)) else .top } ∧
      w.recovery.replay.Fits frame ∧ w.recovery.replay.Fresh (w.nextSendSeq + 1)) ∨
    (w.writeLive queuedTx frame = { w with held := some (queuedTx, frame), pc := .top } ∧
      ¬w.recovery.replay.Fits frame ∧ w.recovery.replay.CanFit frame) ∨
    ∃ err, w.writeLive queuedTx frame =
        { w with answers := w.answers ++ [(queuedTx, .error err)], pc := .top } ∧
      w.Refuses frame err := by
  rcases stage_cases w queuedTx frame with ⟨h, hrest⟩ | ⟨h, hrest⟩ | ⟨err, h, herr⟩
  · refine .inl ⟨?_, hrest⟩
    simp only [writeLive, h]
    by_cases hlt : w.lastSentSeq < w.nextSendSeq + 1
    · rw [if_pos hlt, if_pos (show (w.record frame).seq > (w.keep queuedTx frame).lastSentSeq from hlt)]
    · rw [if_neg hlt, if_neg (show ¬(w.record frame).seq > (w.keep queuedTx frame).lastSentSeq from hlt)]
  · exact .inr (.inl ⟨by simp only [writeLive, h], hrest⟩)
  · exact .inr (.inr ⟨err, by simp only [writeLive, h], herr⟩)

variable {queuedTx : Nat} {frame : Frame} {w₁ : World}

/-- Having a frame in hand changes nothing that staging it looks at. -/
theorem Draws.same (hd : Draws w queuedTx frame w₁) :
    w₁.recovery = w.recovery ∧ w₁.nextSendSeq = w.nextSendSeq ∧ w₁.lastSentSeq = w.lastSentSeq ∧
      w₁.answers = w.answers ∧ w₁.held = none := by
  cases hd with
  | held => exact ⟨rfl, rfl, rfl, rfl, rfl⟩
  | head hheld => exact ⟨rfl, rfl, rfl, rfl, hheld⟩

/-- What becomes of a frame in hand. -/
inductive Outcome (w : World) (queuedTx : Nat) (frame : Frame) (w₁ : World) : World → Prop where
  | keep (hfits : w.recovery.replay.Fits frame)
      (hfresh : w.recovery.replay.Fresh (w.nextSendSeq + 1)) :
      Outcome w queuedTx frame w₁ { w₁.keep queuedTx frame with
        pc := if w.lastSentSeq < w.nextSendSeq + 1 then .writing (.record (w.record frame)) else .top }
  | hold (hfits : ¬w.recovery.replay.Fits frame) (hcan : w.recovery.replay.CanFit frame) :
      Outcome w queuedTx frame w₁ { w₁ with held := some (queuedTx, frame), pc := .top }
  | refuse {err : Error} (herr : w.Refuses frame err) : Outcome w queuedTx frame w₁
      { w₁ with answers := w.answers ++ [(queuedTx, .error err)], pc := .top }

theorem Draws.outcome (hd : Draws w queuedTx frame w₁) :
    Outcome w queuedTx frame w₁ (w₁.writeLive queuedTx frame) := by
  obtain ⟨hrec, hnext, hsent, hans, -⟩ := hd.same
  have hrecord : w₁.record frame = w.record frame := by simp only [World.record, hrec, hnext]
  rcases writeLive_cases w₁ queuedTx frame with ⟨h, h₁, h₂⟩ | ⟨h, h₁, h₂⟩ | ⟨err, h, h₁⟩
  · rw [hrec] at h₁ h₂
    rw [hnext] at h₂
    rw [h, hsent, hnext, hrecord]
    exact .keep h₁ h₂
  · rw [hrec] at h₁ h₂
    rw [h]
    exact .hold h₁ h₂
  · simp only [World.Refuses, hrec, hnext] at h₁
    rw [h, hans]
    exact .refuse h₁

/-- What `flush_and_wait` does with a frame. -/
theorem Draws.parked (hd : Draws w queuedTx frame w₁) (hpc : w.pc = .parked) :
    Move w a (w₁.writeLive queuedTx frame) := by
  have ho := hd.outcome
  generalize w₁.writeLive queuedTx frame = w' at ho ⊢
  cases ho with
  | keep hfits hfresh => exact .keep hd hfits hfresh _ (.inr ⟨.inr hpc, rfl⟩)
  | hold hfits hcan => exact .hold hd hfits hcan _ (.inr ⟨.inl hpc, rfl⟩)
  | refuse herr => exact .refuse hd herr

theorem writtenNext_of_none (h : w.held = none) : w.writtenNext = w := by
  simp only [writtenNext, h, Option.isSome_none, Bool.false_eq_true, if_false]

/-- What `write_next` does with a frame. -/
theorem Draws.next (hd : Draws w queuedTx frame w₁) (hpc : w.pc = .frame) :
    Move w a (w₁.writeLive queuedTx frame).writtenNext := by
  have ho := hd.outcome
  have hnone : w₁.held = none := hd.same.2.2.2.2
  generalize w₁.writeLive queuedTx frame = w' at ho ⊢
  cases ho with
  | keep hfits hfresh =>
      rw [writtenNext_of_none]
      · exact .keep hd hfits hfresh _ (.inr ⟨.inl hpc, rfl⟩)
      · exact hnone
  | hold hfits hcan =>
      simp only [writtenNext, Option.isSome_some, if_true]
      exact .hold hd hfits hcan _ (.inl ⟨hpc, rfl⟩)
  | refuse herr =>
      rw [writtenNext_of_none]
      · exact .refuse hd herr
      · exact hnone

theorem stage_top (w : World) (queuedTx : Nat) (frame : Frame) :
    { (w.stage queuedTx frame).1 with pc := .top } =
      { w.writeLive queuedTx frame with pc := .top } := by
  simp only [writeLive]
  rcases w.stage queuedTx frame with ⟨w', _ | record⟩
  · rfl
  · simp only
    split <;> rfl

/-- What `wait_detached` does with a frame. -/
theorem Draws.detached (hd : Draws w queuedTx frame w₁) (hpc : w.pc = .detached) :
    Move w a { (w₁.stage queuedTx frame).1 with pc := .top } := by
  have ho := hd.outcome
  rw [stage_top]
  generalize w₁.writeLive queuedTx frame = w' at ho ⊢
  cases ho with
  | keep hfits hfresh => exact .keep hd hfits hfresh .top (.inl ⟨hpc, rfl⟩)
  | hold hfits hcan => exact .hold hd hfits hcan .top (.inr ⟨.inr hpc, rfl⟩)
  | refuse herr => exact .refuse hd herr

/-- What a command does, wherever it is taken. -/
theorem move_apply {cmd : WriterCommand} {rest : List WriterCommand}
    (hcmds : w.writerCmds = cmd :: rest) (pc : Pc)
    (hpc : w.pc = .commands ∧ pc = .commands ∨ (w.pc = .parked ∨ w.pc = .detached) ∧ pc = .top) :
    Move w a { { w with writerCmds := rest }.apply cmd with pc := pc } := by
  cases cmd with
  | attach gen resumeSeq => exact .attach hcmds pc hpc rfl
  | detach gen =>
      have hmove := Move.detach (a := a) hcmds pc hpc
      simp only [apply]
      split
      · rwa [if_pos ‹_›] at hmove
      · rwa [if_neg ‹_›] at hmove

theorem apply_pc (w : World) (cmd : WriterCommand) : (w.apply cmd).pc = w.pc := by
  cases cmd with
  | attach gen resumeSeq => rfl
  | detach gen =>
      simp only [apply]
      split <;> rfl

theorem move_goOn {now : Nat} (h : w.goOn now = some w') : Move w a w' := by
  simp only [goOn] at h
  split at h
  -- `top`: the writer ends, or goes by whether it holds a transport.
  case h_1 hpc =>
      split at h
      · cases h
        exact .stop (.inl hpc)
      · cases h
        split
        · exact .commands hpc ‹_›
        · exact .detached hpc (Bool.eq_false_iff.2 ‹_›) (Bool.eq_false_iff.2 ‹_›)
  -- `commands`: the next command, else the acknowledgements or `top` again.
  case h_2 hpc =>
      split at h
      · rename_i cmd rest hcmds
        cases h
        have hmove : Move w a { ({ w with writerCmds := rest }.apply cmd) with pc := .commands } :=
          move_apply hcmds .commands (.inl ⟨hpc, rfl⟩)
        have hsame : ({ w with writerCmds := rest }.apply cmd).pc = .commands :=
          (apply_pc _ cmd).trans hpc
        rwa [← hsame] at hmove
      · cases h
        split
        · exact .ack hpc ‹_›
        · exact .again (.inl hpc)
  -- `ack`: what `takePendingAck` leaves is kept whether or not it answers.
  case h_3 hpc =>
      split at h
      · rename_i seq recovery hack
        cases h
        have hrec : recovery = (w.recovery.takePendingAck now).2 := by rw [hack]
        exact hrec ▸ .pending hpc now _ (.inr ⟨seq, rfl⟩)
      · rename_i recovery hack
        cases h
        have hrec : recovery = (w.recovery.takePendingAck now).2 := by rw [hack]
        exact hrec ▸ .pending hpc now _ (.inl rfl)
  -- `replay`: a record is written, or passed over because it was sent or acknowledged.
  case h_4 hpc =>
      split at h
      · rename_i record rest hres
        split at h
        · rename_i hseq
          cases h
          exact .replayed hpc hres hseq.1
        · rename_i hseq
          cases h
          refine .passed hpc hres ?_
          omega
      · cases h
        exact .frame hpc ‹_›
  -- `frame`: the frame held back comes before the queue.
  case h_5 hpc =>
      split at h
      · cases h
        exact (Draws.held ‹_› hpc).next hpc
      · cases h
        exact (Draws.head ‹_› ‹_› (.inl hpc)).next hpc
      · cases h
        exact .close (.inl hpc) ‹_› ‹_›
      · cases h
        exact .flush hpc ‹_›
  -- `flush`: only what is dirty is flushed.
  case h_6 hpc =>
      split at h
      · cases h
        exact .flushing hpc
      · cases h
        exact .parked (.inl hpc)
  -- `detaching`: the writer sends itself the detach command.
  case h_7 hpc =>
      cases h
      exact .detachSend hpc
  case h_8 => cases h

theorem move_result {ok : Bool} (h : w.result ok = some w') : Move w a w' := by
  simp only [result] at h
  split at h
  · rename_i packet hpc
    cases h
    split
    · exact .wrote hpc
    · exact .fail (.inl ⟨packet, hpc⟩)
  · rename_i hpc
    cases h
    split
    · exact .parked (.inr hpc)
    · exact .fail (.inr hpc)
  · rename_i hpc
    split at h
    · cases h
      exact .wroteClose hpc
    · cases h
      exact .answer false (.inl ⟨hpc, rfl⟩)
  · rename_i hpc
    cases h
    exact .answer ok (.inr hpc)
  · cases h

theorem move_recv (h : w.recv = some w') : Move w a w' := by
  simp only [recv] at h
  split at h
  · rename_i hpc hheld hout
    cases h
    exact (Draws.head hheld hout (.inr (.inl hpc))).parked hpc
  · rename_i hpc hheld hout
    cases h
    exact .close (.inr hpc) hheld hout
  · rename_i hpc hheld hout
    cases h
    exact (Draws.head hheld hout (.inr (.inr hpc))).detached hpc
  · rename_i hpc hheld hout
    cases h
    exact .closeDetached hpc hheld hout
  · cases h

theorem move_notified (h : w.notified = some w') : Move w .notified w' := by
  simp only [notified] at h
  split at h
  · split at h
    · cases h
      exact .wake rfl ‹_›
    · rename_i hpc hheld
      cases h
      exact .wakeDetached rfl hpc (by rw [hheld]; rfl)
    · cases h
  · cases h

theorem move_command (h : w.command = some w') : Move w a w' := by
  simp only [command] at h
  split at h
  · rename_i hpc hcmds
    cases h
    exact move_apply hcmds .top (.inr ⟨.inl hpc, rfl⟩)
  · rename_i hpc hcmds
    cases h
    exact move_apply hcmds .top (.inr ⟨.inr hpc, rfl⟩)
  · cases h

theorem move_of_act (h : w.act a = some w') : Move w a w' := by
  cases a with
  | goOn now => exact move_goOn h
  | result ok => exact move_result h
  | closedNotify =>
      simp only [act, closedNotify] at h
      split at h
      · cases h
        exact .stop (.inr (.inl ‹_›))
      · cases h
        exact .stop (.inr (.inr ‹_›))
      · cases h
  | notified => exact move_notified h
  | command => exact move_command h
  | recv => exact move_recv h
  | timer heartbeatTick =>
      simp only [act, timer] at h
      split at h
      · cases h
        split
        · exact .ping ‹_›
        · exact .again (.inr ‹_›)
      · cases h

/-- Every step is one of the writer or of another task. -/
theorem step_cases (h : machine.step w e = some w') :
    (∃ a, e = .writer a ∧ Move w a w') ∨ (∀ a, e ≠ .writer a) ∧ Aside w e w' := by
  change w.step e = some w' at h
  cases e with
  | writer a => exact .inl ⟨a, rfl, move_of_act h⟩
  | enqueue frame =>
      simp only [step] at h
      split at h
      · cases h
        exact .inr ⟨nofun, .enqueue frame rfl⟩
      · cases h
  | signalSend =>
      simp only [step] at h
      split at h
      · cases h
        exact .inr ⟨nofun, .signal _ _ rfl⟩
      · cases h
  | ackReceived lastSeq =>
      cases h
      exact .inr ⟨nofun, .ackReceived rfl⟩
  | ackSignal =>
      simp only [step] at h
      split at h
      · cases h
        exact .inr ⟨nofun, .signal _ _ rfl⟩
      · cases h
  | noteReceived now seq =>
      cases h
      exact .inr ⟨nofun, .noteReceived now seq _ rfl⟩
  | attach resumeSeq =>
      simp only [step] at h
      split at h
      · cases h
      · cases h
        exact .inr ⟨nofun, .generation _ _ _ rfl⟩
  | attachSend gen resumeSeq =>
      simp only [step] at h
      split at h
      · cases h
        exact .inr ⟨nofun, .send _ _ _ _ rfl⟩
      · cases h
  | detach =>
      simp only [step] at h
      split at h
      · cases h
      · cases h
        exact .inr ⟨nofun, .generation _ _ _ rfl⟩
  | detachSend gen =>
      simp only [step] at h
      split at h
      · cases h
        exact .inr ⟨nofun, .send _ _ _ _ rfl⟩
      · cases h
  | close =>
      simp only [step] at h
      split at h
      · cases h
      · cases h
        exact .inr ⟨nofun, .close (Bool.eq_false_iff.2 ‹_›) rfl⟩
  | queueClose =>
      simp only [step] at h
      split at h
      · rename_i hguard
        cases h
        exact .inr ⟨nofun, .queueClose hguard.1 rfl⟩
      · cases h
  | closeSignal =>
      simp only [step] at h
      split at h
      · cases h
        exact .inr ⟨nofun, .closeSignal ‹_› rfl⟩
      · cases h
  | closeByPeer =>
      cases h
      exact .inr ⟨nofun, .closeByPeer rfl⟩
  | markClosed =>
      cases h
      exact .inr ⟨nofun, .markClosed rfl⟩
  | abort =>
      simp only [step] at h
      split at h
      · cases h
        exact .inr ⟨nofun, .abort rfl⟩
      · cases h

end moves

end AdaptiveMsg.Writer
