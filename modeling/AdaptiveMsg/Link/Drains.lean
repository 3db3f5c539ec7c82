import AdaptiveMsg.Link.Delivery

/-!
# Link — what is queued on a v2 connection is handed over

`link_drains`: as long as neither side fails, the steps of the two tasks bring every frame queued in
front of the close marker to `accept_frame`, whatever their order and the pieces of the bytes, and
however little room the transport has.  A close marker is reported written then, and the reader ends
cleanly.  So no frame waits in the writer's buffer for a later send.

Each of these steps lowers `World.weight`, and one is enabled until all is delivered (`link_goes`).
-/

namespace AdaptiveMsg.Link

variable {config : ConnConfig}

/-! ### What goes on by itself -/

/-- The steps of the two tasks, as long as nothing fails and `accept_frame` returns. -/
def Event.GoesOn : Event → Prop
  | .command | .recv | .goOn | .buffer _ | .spill _ | .read _ | .eof | .accepted true => True
  | _ => False

/-- Neither side has failed or was aborted. -/
structure Healthy (p : Params) (w : World) : Prop where
  inv : Inv p w
  reader : ∀ err, w.reader ≠ .ended (.error err)
  unaborted : w.reader ≠ .aborted
  writer : w.pc = .done → w.reported = some true

/-- Everything in front of the close marker is handed over, and a marker is reported written. -/
structure Delivered (w : World) : Prop where
  handed : w.handed = plainFrames w.queued
  close : .close ∈ w.queued → w.reported = some true ∧ w.reader = .ended (.ok ())

/-- An entry of the queue, counted by the steps it has yet to take. -/
def OutboundFrame.weight (config : ConnConfig) : OutboundFrame → Nat
  | .plain streamId flags payload =>
    5 * (config.frameBytes (plainFrame streamId flags payload)).length + 8
  | .close => 8

def WriterPc.weight (config : ConnConfig) : WriterPc → Nat
  | .next (.plain streamId flags payload) =>
    5 * (config.frameBytes (plainFrame streamId flags payload)).length + 7
  | .next .close => 7
  | .writing rest => 4 * rest.length + 6
  | .written => 5
  | .flushing | .shutting => 4
  | .select | .done => 0

def ReaderPc.weight : ReaderPc → Nat
  | .accepting _ => 2
  | .header _ | .payload .. => 1
  | .ended _ | .aborted => 0

/-- The steps that a link has yet to take are fewer than this. -/
def World.weight (p : Params) (w : World) : Nat :=
  (w.outbound.map (OutboundFrame.weight p.config)).sum + w.pc.weight p.config +
    3 * w.buffer.length + 2 * w.pipe.length + w.reader.weight + w.attach.toNat

section drains

variable {p : Params} {w w' : World} {e : Event}

@[simp] theorem moveReader_reader (pc : ReaderPc) : (w.moveReader pc).reader = pc := by
  cases pc <;> rfl

@[simp] theorem moveReader_pc (pc : ReaderPc) : (w.moveReader pc).pc = w.pc := by
  cases pc <;> rfl

@[simp] theorem moveReader_reported (pc : ReaderPc) : (w.moveReader pc).reported = w.reported := by
  cases pc <;> rfl

@[simp] theorem take_pc (head : OutboundFrame) (rest : List OutboundFrame) :
    (w.take head rest).pc = .next head := rfl

theorem weight_take {head : OutboundFrame} {rest : List OutboundFrame}
    (ho : w.outbound = head :: rest) : (w.take head rest).weight p + w.pc.weight p.config + 1 =
      w.weight p := by
  simp only [World.weight, World.take, ho, List.map_cons, List.sum_cons]
  cases head with
  | plain streamId flags payload =>
      simp only [WriterPc.weight, OutboundFrame.weight]
      omega
  | close =>
      simp only [WriterPc.weight, OutboundFrame.weight]
      omega

theorem weight_payloadPc (streamId : UInt32) (seq : UInt64) (flags : UInt8) (len : Nat)
    (got : List UInt8) : (payloadPc streamId seq flags len got).weight ≤ 2 := by
  rw [payloadPc]
  split
  · exact Nat.le_succ _
  · exact Nat.le_refl _

theorem weight_headerPc (header : List UInt8) : (headerPc config header).weight ≤ 2 := by
  rw [headerPc]
  split
  · exact Nat.le_succ _
  · split
    · exact Nat.zero_le _
    · split
      · exact Nat.zero_le _
      · exact weight_payloadPc _ _ _ _ _

/-- A piece is read: the reader may gain less than the pipe loses. -/
theorem weight_moveReader {n : Nat} {pc : ReaderPc} (hn : 0 < n) (hle : n ≤ w.pipe.length)
    (hr : w.reader.weight = 1) (hpc : pc.weight ≤ 2) :
    ({ w with pipe := w.pipe.drop n }.moveReader pc).weight p < w.weight p := by
  have hw : ({ w with pipe := w.pipe.drop n }.moveReader pc).weight p =
      (w.outbound.map (OutboundFrame.weight p.config)).sum + w.pc.weight p.config +
        3 * w.buffer.length + 2 * (w.pipe.drop n).length + pc.weight + w.attach.toNat := by
    cases pc <;> rfl
  rw [hw, World.weight, List.length_drop]
  omega

/-- Every step that goes on brings the link nearer to its end. -/
theorem weight_step (he : e.GoesOn) (h : w.step p e = some w') (hI : Inv p w) :
    w'.weight p < w.weight p := by
  cases e with
  | command =>
      obtain ⟨⟨ha, -⟩, h⟩ := Option.ite_none_right_eq_some.mp h
      cases h
      simp only [World.weight, ha, Bool.toNat_true, Bool.toNat_false]
      omega
  | recv =>
      simp only [World.step] at h
      split at h
      · rename_i ho
        cases h
        have hw := weight_take (p := p) ho
        omega
      · cases h
  | goOn =>
      simp only [World.step, World.goOn] at h
      split at h
      · rename_i hpc
        cases h
        simp only [World.weight, hpc, WriterPc.weight]
        omega
      · rename_i hpc
        rw [ConnConfig.writeFrame_ok (hI.next _ hpc)] at h
        cases h
        simp only [World.weight, hpc, WriterPc.weight]
        omega
      · rename_i hpc
        cases h
        simp only [World.weight, hpc, WriterPc.weight, List.length_nil]
        omega
      · rename_i hpc
        split at h
        · rename_i ho
          cases h
          have hw := weight_take (p := p) ho
          omega
        · rename_i ho
          cases h
          simp only [World.weight, hpc, WriterPc.weight]
          omega
      · rename_i hpc
        obtain ⟨-, h⟩ := Option.ite_none_right_eq_some.mp h
        cases h
        simp only [World.weight, hpc, WriterPc.weight]
        omega
      · rename_i hpc
        obtain ⟨hb, h⟩ := Option.ite_none_right_eq_some.mp h
        cases h
        simp only [World.weight, World.finish, hpc, hb, WriterPc.weight]
        omega
      · cases h
  | buffer n =>
      simp only [World.step, World.fill] at h
      split at h
      · rename_i rest hpc
        obtain ⟨⟨hn, hle⟩, h⟩ := Option.ite_none_right_eq_some.mp h
        cases h
        simp only [World.weight, hpc, WriterPc.weight, List.length_append, List.length_drop,
          List.length_take_of_le hle]
        omega
      · cases h
  | spill n =>
      obtain ⟨⟨-, hn, hle, -⟩, h⟩ := Option.ite_none_right_eq_some.mp h
      cases h
      simp only [World.weight, List.length_append, List.length_drop, List.length_take_of_le hle]
      omega
  | read n =>
      simp only [World.step, World.read] at h
      split at h
      · rename_i hr
        obtain ⟨⟨hn, hle, -⟩, h⟩ := Option.ite_none_right_eq_some.mp h
        cases h
        exact weight_moveReader hn hle (by rw [hr]; rfl) (weight_headerPc _)
      · rename_i hr
        obtain ⟨⟨hn, hle, -⟩, h⟩ := Option.ite_none_right_eq_some.mp h
        cases h
        exact weight_moveReader hn hle (by rw [hr]; rfl) (weight_payloadPc _ _ _ _ _)
      · cases h
  | eof =>
      simp only [World.step, World.eof] at h
      split at h
      · split at h
        all_goals
          rename_i hr
          cases h
        all_goals
          simp only [World.weight, hr, ReaderPc.weight]
          omega
      · cases h
  | accepted ok =>
      simp only [World.step, World.accepted] at h
      split at h
      · rename_i hr
        cases h
        cases ok with
        | true =>
            simp only [World.weight, hr, ReaderPc.weight, if_true]
            omega
        | false => cases he
      · cases h
  | _ => cases he

/-- A step of the writer that goes on leaves the reader alone, and ends the writer only with the
close marker written. -/
theorem writer_step (he : e = .command ∨ e = .recv ∨ e = .goOn ∨ (∃ n, e = .buffer n) ∨
    ∃ n, e = .spill n) (hI : Inv p w) (hdone : w.pc = .done → w.reported = some true)
    (h : w.step p e = some w') :
    w'.reader = w.reader ∧ (w'.pc = .done → w'.reported = some true) := by
  rcases he with rfl | rfl | rfl | ⟨n, rfl⟩ | ⟨n, rfl⟩
  · obtain ⟨-, h⟩ := Option.ite_none_right_eq_some.mp h
    cases h
    exact ⟨rfl, hdone⟩
  · simp only [World.step] at h
    split at h
    · cases h
      exact ⟨rfl, by simp⟩
    · cases h
  · simp only [World.step, World.goOn] at h
    split at h
    · cases h
      exact ⟨rfl, by simp⟩
    · rename_i hpc
      rw [ConnConfig.writeFrame_ok (hI.next _ hpc)] at h
      cases h
      exact ⟨rfl, by simp⟩
    · cases h
      exact ⟨rfl, by simp⟩
    · split at h
      all_goals
        cases h
        exact ⟨rfl, by simp⟩
    · obtain ⟨-, h⟩ := Option.ite_none_right_eq_some.mp h
      cases h
      exact ⟨rfl, by simp⟩
    · obtain ⟨-, h⟩ := Option.ite_none_right_eq_some.mp h
      cases h
      exact ⟨rfl, fun _ => rfl⟩
    · cases h
  · simp only [World.step, World.fill] at h
    split at h
    · obtain ⟨-, h⟩ := Option.ite_none_right_eq_some.mp h
      cases h
      exact ⟨rfl, by simp⟩
    · cases h
  · obtain ⟨-, h⟩ := Option.ite_none_right_eq_some.mp h
    cases h
    exact ⟨rfl, hdone⟩

theorem Healthy.step (hH : Healthy p w) (he : e.GoesOn) (h : w.step p e = some w') :
    Healthy p w' := by
  have hI' := hH.inv.step h
  have hwriter : (e = .command ∨ e = .recv ∨ e = .goOn ∨ (∃ n, e = .buffer n) ∨
      ∃ n, e = .spill n) → Healthy p w' := fun hw => by
    obtain ⟨hr, hdone⟩ := writer_step hw hH.inv hH.writer h
    exact ⟨hI', hr ▸ hH.reader, hr ▸ hH.unaborted, hdone⟩
  cases e with
  | command => exact hwriter (.inl rfl)
  | recv => exact hwriter (.inr (.inl rfl))
  | goOn => exact hwriter (.inr (.inr (.inl rfl)))
  | buffer n => exact hwriter (.inr (.inr (.inr (.inl ⟨n, rfl⟩))))
  | spill n => exact hwriter (.inr (.inr (.inr (.inr ⟨n, rfl⟩))))
  | read n =>
      obtain ⟨pc, hlive, rfl, -⟩ := hH.inv.read h
      refine ⟨hI', ?_, ?_, ?_⟩
      · rw [moveReader_reader]
        exact fun err => hlive.1 _
      · rw [moveReader_reader]
        exact hlive.2
      · rw [moveReader_pc, moveReader_reported]
        exact hH.writer
  | eof =>
      have hr := hH.writer
      simp only [World.step, World.eof] at h
      split at h
      · rename_i hend
        have hdone := hH.inv.ended.mp hend.2
        split at h
        · cases h
          exact ⟨hI', by simp, by simp, hH.writer⟩
        · -- inside a frame: the marker would not have been reported
          cases h
          rcases hI'.failed _ rfl with h | h | h
          · cases h
          · cases h
          · exact absurd (hr hdone) h.2.2
        · cases h
          rcases hI'.failed _ rfl with h | h | h
          · cases h
          · cases h
          · exact absurd (hr hdone) h.2.2
        · cases h
      · cases h
  | accepted ok =>
      simp only [World.step, World.accepted] at h
      split at h
      · cases h
        cases ok with
        | true => exact ⟨hI', by simp, by simp, hH.writer⟩
        | false => cases he
      · cases h
  | _ => cases he

/-- The reader goes on as long as there is something to read. -/
theorem reader_goes (hH : Healthy p w) (hpipe : w.pipe ≠ []) :
    ∃ e w', Event.GoesOn e ∧ w.step p e = some w' := by
  have hpos : 1 ≤ w.pipe.length := List.length_pos_iff.mpr hpipe
  obtain ⟨_, -, _, rest, -, -, hhas⟩ := hH.inv.flow
  cases hr : w.reader with
  | header got =>
      rw [hr] at hhas
      have hle : 1 ≤ p.config.headerLen - got.length := Nat.sub_pos_of_lt hhas.2
      exact ⟨.read 1, _, trivial, by
        simp only [World.step, World.read, hr]
        exact if_pos ⟨Nat.one_pos, hpos, hle⟩⟩
  | payload streamId seq flags len got =>
      rw [hr] at hhas
      have hle : 1 ≤ len - got.length := Nat.sub_pos_of_lt hhas.2.1
      exact ⟨.read 1, _, trivial, by
        simp only [World.step, World.read, hr]
        exact if_pos ⟨Nat.one_pos, hpos, hle⟩⟩
  | accepting frame =>
      exact ⟨.accepted true, _, trivial, by simp only [World.step, World.accepted, hr]; rfl⟩
  | ended result =>
      cases result with
      | ok u => exact absurd (hH.inv.stopped u hr).1 hpipe
      | error err => exact absurd hr (hH.reader err)
  | aborted => exact absurd hr hH.unaborted

/-- A writer whose buffer is not empty while it flushes goes on, or waits for the reader. -/
theorem flush_goes (hH : Healthy p w) (hpolls : w.polls = true) (hb : w.buffer ≠ []) :
    ∃ e w', Event.GoesOn e ∧ w.step p e = some w' := by
  by_cases hpipe : w.pipe = []
  · have hroom : w.pipe.length + 1 ≤ p.room := by
      rw [hpipe]
      exact p.room_pos
    exact ⟨.spill 1, _, trivial, if_pos ⟨hpolls, Nat.one_pos, List.length_pos_iff.mpr hb, hroom⟩⟩
  · exact reader_goes hH hpipe

/-- The transport is empty and the reader is between two frames. -/
theorem handed_of_idle (hH : Healthy p w) (hflow : Flow p.config (plainFrames w.taken) w.handed
    w.reader []) : w.handed = plainFrames w.taken :=
  (hflow.atEnd hH.reader hH.unaborted).1.1

theorem link_goes (hH : Healthy p w) (hG : ¬Delivered w) :
    ∃ e w', Event.GoesOn e ∧ w.step p e = some w' := by
  have hI := hH.inv
  cases hpc : w.pc with
  | next e =>
      refine ⟨.goOn, ?_⟩
      cases e with
      | plain streamId flags payload =>
          have hw := ConnConfig.writeFrame_ok (hI.next _ hpc)
          exact ⟨_, trivial, by simp only [World.step, World.goOn, hpc, hw]; rfl⟩
      | close => exact ⟨_, trivial, by simp only [World.step, World.goOn, hpc]; rfl⟩
  | writing rest =>
      by_cases hrest : rest = []
      · subst hrest
        exact ⟨.goOn, _, trivial, by simp only [World.step, World.goOn, hpc]; rfl⟩
      · exact ⟨.buffer 1, _, trivial, by
          simp only [World.step, World.fill, hpc]
          exact if_pos ⟨Nat.one_pos, List.length_pos_iff.mpr hrest⟩⟩
  | written =>
      refine ⟨.goOn, ?_⟩
      cases ho : w.outbound with
      | nil => exact ⟨_, trivial, by simp only [World.step, World.goOn, hpc, ho]; rfl⟩
      | cons head rest => exact ⟨_, trivial, by simp only [World.step, World.goOn, hpc, ho]; rfl⟩
  | flushing =>
      by_cases hb : w.buffer = []
      · exact ⟨.goOn, _, trivial, by simp only [World.step, World.goOn, hpc, if_pos hb]; rfl⟩
      · exact flush_goes hH (by rw [World.polls, hpc]) hb
  | shutting =>
      by_cases hb : w.buffer = []
      · exact ⟨.goOn, _, trivial, by simp only [World.step, World.goOn, hpc, if_pos hb]; rfl⟩
      · exact flush_goes hH (by rw [World.polls, hpc]) hb
  | select =>
      have hmark : .close ∉ w.taken := fun h => by simpa [Closing, hpc] using hI.marker h
      by_cases hw : w.writer = true
      · cases ho : w.outbound with
        | cons head rest =>
            exact ⟨.recv, _, trivial, by simp only [World.step, hpc, hw, ho]; rfl⟩
        | nil =>
            by_cases hpipe : w.pipe = []
            · -- everything was taken, flushed and read
              refine absurd ⟨?_, ?_⟩ hG
              · obtain ⟨lost, hlost, hflow⟩ := hI.flow
                have hnone : lost = [] := by
                  by_contra h
                  cases hpc.symm.trans (hlost h).1
                rw [hpipe, hI.flushed (.inl hpc), hpc, hnone] at hflow
                rw [← hI.queued, ho, List.append_nil]
                exact handed_of_idle hH hflow
              · rw [← hI.queued, ho, List.append_nil]
                exact fun h => absurd h hmark
            · exact reader_goes hH hpipe
      · have ha := (hI.attached (by simp [hpc])).resolve_left hw
        exact ⟨.command, _, trivial, if_pos ⟨ha.1, hpc⟩⟩
  | done =>
      have hr := hH.writer hpc
      by_cases hpipe : w.pipe = []
      · have hflow := hI.flow_nil hpipe hr
        have hall : w.handed = plainFrames w.queued := by
          have hmark := hI.shutting (.inr (.inr (by simp [hr])))
          rw [← hI.queued, plainFrames_append_of_close hmark]
          exact handed_of_idle hH hflow
        have hend := hI.ended.mpr hpc
        cases hread : w.reader with
        | header got =>
            obtain rfl := (hflow.atEnd hH.reader hH.unaborted).1.2 got hread
            exact ⟨.eof, _, trivial, by
              simp only [World.step, World.eof, hread]
              exact if_pos ⟨hpipe, hend⟩⟩
        | payload streamId seq flags len got =>
            exact absurd hread ((hflow.atEnd hH.reader hH.unaborted).2 _ _ _ _ _)
        | accepting frame =>
            exact ⟨.accepted true, _, trivial, by
              simp only [World.step, World.accepted, hread]
              rfl⟩
        | ended result =>
            cases result with
            | ok u => exact absurd ⟨hall, fun _ => ⟨hr, hread⟩⟩ hG
            | error err => exact absurd hread (hH.reader err)
        | aborted => exact absurd hread hH.unaborted
      · exact reader_goes hH hpipe

end drains

/-- **Every frame queued in front of the close marker of a healthy v2 connection is handed over**,
without a further send. -/
theorem link_drains (p : Params) (w : World) (h : (machine p).Reachable w)
    (hreader : ∀ err, w.reader ≠ .ended (.error err)) (hab : w.reader ≠ .aborted)
    (hwriter : w.pc = .done → w.reported = some true) :
    (machine p).Leads Event.GoesOn Delivered w :=
  Machine.leads_of_measure (I := Healthy p) (World.weight p)
    (fun _ _ _ hH he hs => ⟨hH.step he hs, weight_step he hs hH.inv⟩)
    (fun _ hH hG => link_goes hH hG) ⟨inv_reachable h, hreader, hab, hwriter⟩

/-- The message and the marker are taken and nothing is written yet. -/
def sent : World := ((machine smallLink).exec .initial sentRun).getD .initial

theorem link_drains_sent : (machine smallLink).Leads Event.GoesOn Delivered sent :=
  link_drains smallLink sent (Machine.reachable_of_exec sentRun rfl rfl) nofun nofun nofun

end AdaptiveMsg.Link
