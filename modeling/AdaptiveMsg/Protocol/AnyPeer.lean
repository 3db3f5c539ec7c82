import AdaptiveMsg.Protocol.Model
import AdaptiveMsg.Wire.Control

/-!
# Protocol — an endpoint and whatever its peer sends

One endpoint against a peer that may send any control frame and any resume point.  Here the writer
keeps a frame and stores its number in two steps, between which a reader may handle an ACK.

An attach clamps the resume point to what was sent, an ACK is taken as it is.  In the runs in which
the ACKs that are handled are for frames sent, no frame is acknowledged before it was sent, none is
refused as acknowledged and none is dropped before its number is stored (`acked_within_sent`); the
first ACK beyond that breaks it, and later sends fail (`acked_ahead`).
-/

namespace AdaptiveMsg.Protocol.AnyPeer

/-! ### The endpoint -/

structure State where
  ep : Endpoint
  /-- The frame that the writer has kept and whose number it has yet to store. -/
  numbering : Option FrameRecord
  /-- The errors with which sends ended. -/
  refused : List Error
  deriving DecidableEq

inductive Event where
  | send (frame : Frame)
  | attach (transport : Nat) (resumeSeq : UInt64)
  | detach (transport : Nat)
  /-- The writer applies its next command. -/
  | apply
  | takeAck (now : Nat)
  | writeNext
  | stageDetached
  /-- The writer stores the number of the frame it has kept. -/
  | number
  | writeDone (ok : Bool)
  /-- A reader gets a control frame. -/
  | control (payload : List UInt8)
  /-- A reader notes a data frame. -/
  | received (now seq : Nat)
  deriving DecidableEq

/-- `handle_control_frame`: whether it was CLOSE. -/
def handleControlFrame (e : Endpoint) (payload : List UInt8) : Except Error Bool × Endpoint :=
  match parseControlPayload payload with
  | .error err => (.error err, e)
  | .ok (controlType, value) =>
    if controlType = controlTypeAck then
      (.ok false, { e with recovery := e.recovery.ackReceived value.toNat })
    else if controlType = controlTypePing then (.ok false, e)
    else if controlType = controlTypeClose then (.ok true, e)
    else (.error (.invalidMessage "unknown control frame type"), e)

namespace State

variable (c : State)

/-- `stage` up to the store of the number. -/
def keep (frame : Frame) : State :=
  match c.ep.recovery.replay.stage frame (c.ep.nextSendSeq + 1) with
  | .ok (.kept record, replay) =>
    { c with
      ep := { c.ep with recovery := { c.ep.recovery with replay := replay } }
      numbering := some record }
  | .ok (.full _, _) => { c with ep := { c.ep with held := some frame } }
  | .error err => { c with refused := c.refused ++ [err] }

/-- The rest of `stage`, and of `write_live` if a transport is attached. -/
def number (record : FrameRecord) : State where
  ep :=
    { c.ep with
      nextSendSeq := record.seq
      staged := c.ep.staged ++ [record.frame]
      writing := if c.ep.writer.isSome ∧ record.seq > c.ep.lastSentSeq then some (.data record)
        else c.ep.writing }
  numbering := none
  refused := c.refused

/-- The writer is at a point where it takes a command or a frame. -/
def writerReady : Bool := c.numbering.isNone && c.ep.writing.isNone

def step : Event → Option State
  | .send frame => some { c with ep := { c.ep with outbound := c.ep.outbound ++ [frame] } }
  | .attach transport resumeSeq =>
    some { c with ep := { c.ep with
      writerCmd := c.ep.writerCmd ++ [.attach transport resumeSeq.toNat] } }
  | .detach transport =>
    some { c with ep := { c.ep with writerCmd := c.ep.writerCmd ++ [.detach transport] } }
  | .apply =>
    match c.ep.writerCmd with
    | cmd :: rest =>
      if c.writerReady then some { c with ep := { c.ep with writerCmd := rest }.apply cmd } else none
    | [] => none
  | .takeAck now =>
    if c.writerReady ∧ c.ep.writer.isSome then some { c with ep := c.ep.takeAck now } else none
  | .writeNext =>
    if c.writerReady ∧ c.ep.writer.isSome then
      match c.ep.resume, c.ep.held, c.ep.outbound with
      | _ :: _, _, _ => c.ep.writeNext.map fun e => { c with ep := e }
      | [], some frame, _ => some ({ c with ep := { c.ep with held := none } }.keep frame)
      | [], none, frame :: outbound =>
        some ({ c with ep := { c.ep with outbound := outbound } }.keep frame)
      | [], none, [] => none
    else none
  | .stageDetached =>
    if c.writerReady ∧ c.ep.writer = none then
      match c.ep.held, c.ep.outbound with
      | none, frame :: outbound =>
        some ({ c with ep := { c.ep with outbound := outbound } }.keep frame)
      | _, _ => none
    else none
  | .number => c.numbering.map c.number
  | .writeDone ok =>
    match c.ep.writing with
    | some packet =>
      some { c with ep :=
        if ok then c.ep.sent packet else { c.ep with writer := none, writing := none } }
    | none => none
  | .control payload =>
    match handleControlFrame c.ep payload with
    | (.ok _, e) => some { c with ep := e }
    | (.error err, e) => some { c with ep := { e with failed := some err } }
  | .received now seq =>
    some { c with ep := { c.ep with recovery := (c.ep.recovery.noteReceived now seq).2 } }

end State

/-- The runs of an endpoint that has just been started. -/
def machine : Machine State Event where
  init c := ∃ negotiated headerLen maxReplayBytes,
    c = ⟨.new negotiated headerLen maxReplayBytes, none, []⟩
  step := State.step

variable {c c' : State} {e : Event} {frame : Frame} {record : FrameRecord}

/-! ### The invariant -/

/-- The frames that the writer has kept, in order. -/
def State.kept (c : State) : List Frame :=
  c.ep.staged ++ (c.numbering.map FrameRecord.frame).toList

def alreadyAcknowledged : Error := .invalidMessage "replay frame seq already acknowledged"

structure SentInv (c : State) : Prop where
  keeps : c.ep.recovery.replay.Keeps c.kept
  next : c.ep.nextSendSeq = c.ep.staged.length
  acked : c.ep.recovery.replay.lastAcked ≤ c.ep.nextSendSeq
  numbering : ∀ record ∈ c.numbering, record =
    ⟨record.frame, c.ep.nextSendSeq + 1, ReplayBuffer.frameSize c.ep.recovery.replay.headerLen record.frame⟩
  refused : alreadyAcknowledged ∉ c.refused

/-- An ACK that is handled is for frames that were sent. -/
def AcksSent (c : State) : Event → Prop
  | .control payload => ∀ value, parseControlPayload payload = .ok (controlTypeAck, value) →
    value.toNat ≤ c.ep.nextSendSeq
  | _ => True

instance (c : State) (e : Event) : Decidable (AcksSent c e) :=
  match e with
  | .control payload =>
    match h : parseControlPayload payload with
    | .error err => isTrue fun value hv => by rw [h] at hv; cases hv
    | .ok (controlType, value) =>
      decidable_of_iff (controlType = controlTypeAck → value.toNat ≤ c.ep.nextSendSeq) <| by
        simp only [AcksSent, h, Except.ok.injEq, Prod.mk.injEq]
        exact ⟨fun hle value' hv => hv.2 ▸ hle hv.1, fun hle ht => hle value ⟨ht, rfl⟩⟩
  | .send _ | .attach _ _ | .detach _ | .apply | .takeAck _ | .writeNext | .stageDetached | .number
  | .writeDone _ | .received _ _ => isTrue trivial

/-- A step that leaves the replay buffer and the numbers alone. -/
theorem SentInv.congr (hI : SentInv c) (hr : c'.ep.recovery.replay = c.ep.recovery.replay)
    (hnext : c'.ep.nextSendSeq = c.ep.nextSendSeq) (hs : c'.ep.staged = c.ep.staged)
    (hn : c'.numbering = c.numbering) (href : c'.refused = c.refused) : SentInv c' := by
  refine ⟨?_, ?_, ?_, ?_, ?_⟩
  · rw [hr, State.kept, hs, hn]
    exact hI.keeps
  · rw [hnext, hs]
    exact hI.next
  · rw [hr, hnext]
    exact hI.acked
  · rw [hn, hr, hnext]
    exact hI.numbering
  · rw [href]
    exact hI.refused

/-- An acknowledgement of frames that were sent. -/
theorem SentInv.ack {lastSeq : Nat} (hI : SentInv c) (hle : lastSeq ≤ c.ep.nextSendSeq)
    (hr : c'.ep.recovery.replay = c.ep.recovery.replay.ack lastSeq)
    (hnext : c'.ep.nextSendSeq = c.ep.nextSendSeq) (hs : c'.ep.staged = c.ep.staged)
    (hn : c'.numbering = c.numbering) (href : c'.refused = c.refused) : SentInv c' := by
  refine ⟨?_, ?_, ?_, ?_, ?_⟩
  · rw [hr, State.kept, hs, hn]
    refine hI.keeps.ack ?_
    rw [State.kept, List.length_append, ← hI.next]
    exact Nat.le_add_right_of_le hle
  · rw [hnext, hs]
    exact hI.next
  · rw [hr, hnext, ReplayBuffer.lastAcked_ack]
    exact Nat.max_le.2 ⟨hI.acked, hle⟩
  · rw [hn, hr, hnext, ReplayBuffer.ack_headerLen]
    exact hI.numbering
  · rw [href]
    exact hI.refused

/-- Keeping a frame under the next number. -/
theorem SentInv.keep (hI : SentInv c) (hn : c.numbering = none) (frame : Frame) :
    SentInv (c.keep frame) := by
  have hk : c.ep.recovery.replay.Keeps c.ep.staged := by
    have hk := hI.keeps
    rwa [State.kept, hn, Option.map_none, Option.toList_none, List.append_nil] at hk
  have hstage := hk.stage frame
  rw [← hI.next] at hstage
  rcases hstage with ⟨replay, hs, hk', hh, -, hacked, -⟩ | ⟨hs, -⟩ | ⟨hs, -⟩
  · have hkeep : c.keep frame = { c with
        ep := { c.ep with recovery := { c.ep.recovery with replay := replay } }
        numbering := some ⟨frame, c.ep.nextSendSeq + 1,
          ReplayBuffer.frameSize c.ep.recovery.replay.headerLen frame⟩ } := by
      rw [State.keep, hs]
    rw [hkeep]
    refine ⟨hk', hI.next, hacked ▸ hI.acked, ?_, hI.refused⟩
    rintro _ ⟨⟩
    simp only [hh]
  · have hkeep : c.keep frame = { c with ep := { c.ep with held := some frame } } := by
      rw [State.keep, hs]
    rw [hkeep]
    exact hI.congr rfl rfl rfl rfl rfl
  · have hkeep : c.keep frame = { c with
        refused := c.refused ++ [.frameTooLarge frame.payload.length] } := by
      rw [State.keep, hs]
    rw [hkeep]
    refine ⟨hI.keeps, hI.next, hI.acked, hI.numbering, ?_⟩
    rw [List.mem_append, not_or]
    exact ⟨hI.refused, by simp [alreadyAcknowledged]⟩

/-- Storing the number of the frame that was kept. -/
theorem SentInv.number (hI : SentInv c) (hn : c.numbering = some record) :
    SentInv (c.number record) := by
  have hrec := hI.numbering record hn
  have hseq : record.seq = c.ep.nextSendSeq + 1 := by rw [hrec]
  have hkept : (c.number record).kept = c.kept := by
    rw [State.kept, State.kept, hn]
    exact List.append_nil _
  refine ⟨hkept ▸ hI.keeps, ?_, ?_, nofun, hI.refused⟩
  · show record.seq = (c.ep.staged ++ [record.frame]).length
    rw [hseq, hI.next, List.length_append]
    rfl
  · show _ ≤ record.seq
    rw [hseq]
    exact Nat.le_succ_of_le hI.acked

theorem apply_attach (e : Endpoint) (transport resumeSeq : Nat) :
    (e.apply (.attach transport resumeSeq)).recovery.replay =
      e.recovery.replay.ack (min resumeSeq e.nextSendSeq) := rfl

theorem sentInv_control {payload : List UInt8} (hI : SentInv c) (hC : AcksSent c (.control payload)) :
    SentInv { c with ep := (handleControlFrame c.ep payload).2 } := by
  simp only [handleControlFrame]
  split
  · exact hI.congr rfl rfl rfl rfl rfl
  · split
    · rename_i hack
      subst hack
      exact hI.ack (hC _ ‹_›) rfl rfl rfl rfl rfl
    · repeat' split
      all_goals exact hI.congr rfl rfl rfl rfl rfl

/-- A frame that is replayed has its number. -/
theorem writeNext_resume {ep ep' : Endpoint} {resume : List FrameRecord}
    (hr : ep.resume = record :: resume) (h : ep.writeNext = some ep') :
    ep'.recovery = ep.recovery ∧ ep'.nextSendSeq = ep.nextSendSeq ∧ ep'.staged = ep.staged := by
  simp only [Endpoint.writeNext, hr] at h
  split at h
  · cases h
    exact ⟨rfl, rfl, rfl⟩
  · cases h
    exact ⟨rfl, rfl, rfl⟩

theorem ready_numbering (h : c.writerReady = true) : c.numbering = none := by
  rw [State.writerReady, Bool.and_eq_true, Option.isNone_iff_eq_none] at h
  exact h.1

theorem sentInv_step (hI : SentInv c) (hC : AcksSent c e) (h : c.step e = some c') : SentInv c' := by
  cases e with
  | send frame | attach transport resumeSeq | detach transport =>
      cases h
      exact hI.congr rfl rfl rfl rfl rfl
  | apply =>
      simp only [State.step] at h
      split at h
      · rename_i cmd rest hcmd
        split at h
        · cases h
          cases cmd with
          | attach transport resumeSeq =>
              -- The resume point acknowledges what was sent at most.
              exact hI.ack (Nat.min_le_right resumeSeq _)
                (apply_attach { c.ep with writerCmd := rest } transport resumeSeq) rfl rfl rfl rfl
          | detach transport =>
              simp only [Endpoint.apply]
              split
              · exact hI.congr rfl rfl rfl rfl rfl
              · exact hI.congr rfl rfl rfl rfl rfl
        · cases h
      · cases h
  | takeAck now =>
      simp only [State.step] at h
      split at h
      · cases h
        exact hI.congr (RecoveryState.replay_takePendingAck now) rfl rfl rfl rfl
      · cases h
  | writeNext =>
      simp only [State.step] at h
      split at h
      · rename_i hready
        have hn := ready_numbering hready.1
        split at h
        · rename_i hres
          obtain ⟨ep', hw, rfl⟩ := Option.map_eq_some_iff.1 h
          obtain ⟨hrec, hnext, hs⟩ := writeNext_resume hres hw
          exact hI.congr (congrArg RecoveryState.replay hrec) hnext hs rfl rfl
        · cases h
          -- A held frame is kept once there is room, a new one at once.
          exact (hI.congr rfl rfl rfl rfl rfl : SentInv { c with ep := { c.ep with held := none } }).keep hn _
        · rename_i frame outbound _ _ _
          cases h
          exact (hI.congr rfl rfl rfl rfl rfl :
            SentInv { c with ep := { c.ep with outbound := outbound } }).keep hn _
        · cases h
      · cases h
  | stageDetached =>
      simp only [State.step] at h
      split at h
      · rename_i hready
        split at h
        · rename_i frame outbound _ _
          cases h
          exact (hI.congr rfl rfl rfl rfl rfl :
            SentInv { c with ep := { c.ep with outbound := outbound } }).keep
              (ready_numbering hready.1) _
        · cases h
      · cases h
  | number =>
      obtain ⟨record, hn, rfl⟩ := Option.map_eq_some_iff.1 h
      exact hI.number hn
  | writeDone ok =>
      simp only [State.step] at h
      split at h
      · rename_i packet _
        cases h
        cases ok with
        | false => exact hI.congr rfl rfl rfl rfl rfl
        | true => cases packet <;> exact hI.congr rfl rfl rfl rfl rfl
      · cases h
  | control payload =>
      have hstep := sentInv_control hI hC
      simp only [State.step] at h
      split at h
      · rename_i hctl
        cases h
        rwa [hctl] at hstep
      · rename_i hctl
        cases h
        rw [hctl] at hstep
        exact hstep.congr rfl rfl rfl rfl rfl
  | received now seq =>
      cases h
      exact hI.congr (RecoveryState.replay_noteReceived now seq) rfl rfl rfl rfl

theorem sentInv_reachable (h : machine.ReachableUnder AcksSent c) : SentInv c := by
  refine h.invariant ?_ fun _ _ _ hI hC hs => sentInv_step hI hC hs
  rintro _ ⟨negotiated, headerLen, maxReplayBytes, rfl⟩
  exact ⟨ReplayBuffer.keeps_new _ _, rfl, Nat.le_refl _, nofun, List.not_mem_nil⟩

/-! ### The result -/

/-- No frame is acknowledged before it was sent, none was refused as acknowledged, and none that was
kept is gone before its number is stored. -/
structure AckedWithinSent (c : State) : Prop where
  acked : c.ep.recovery.replay.lastAcked ≤ c.ep.nextSendSeq
  refused : alreadyAcknowledged ∉ c.refused
  kept : ∀ record ∈ c.numbering, record ∈ c.ep.recovery.replay.replayQueue

theorem SentInv.within (hI : SentInv c) : AckedWithinSent c := by
  refine ⟨hI.acked, hI.refused, fun record hn => ?_⟩
  have hn := Option.mem_def.1 hn
  have hrec := hI.numbering record hn
  have hkept : c.kept = c.ep.staged ++ [record.frame] := by rw [State.kept, hn]; rfl
  have hacked := hI.acked
  rw [hI.next] at hacked
  -- The buffer holds what is past the acknowledged number: the frame that is to get its number is
  -- the last of it.
  rw [hI.keeps.queue, hkept, recordsFrom_append,
    List.drop_append_of_le_length (by rw [length_recordsFrom]; exact hacked), Nat.zero_add]
  refine List.mem_append_right _ (List.mem_singleton.2 ?_)
  rw [← hI.next]
  exact hrec

/-- An ACK beyond what was sent is taken as it is. -/
theorem acksSent_of_within (h : c.step e = some c') (hw : AckedWithinSent c') : AcksSent c e := by
  cases e with
  | control payload =>
      intro value hp
      have hctl : handleControlFrame c.ep payload =
          (.ok false, { c.ep with recovery := c.ep.recovery.ackReceived value.toNat }) := by
        simp only [handleControlFrame, hp, if_true]
      simp only [State.step, hctl] at h
      cases h
      have hacked := hw.acked
      simp only [RecoveryState.ackReceived, ReplayBuffer.lastAcked_ack] at hacked
      exact (Nat.max_le.1 hacked).2
  | _ => trivial

/-- **The acknowledged number never runs ahead of the sent one**, in the runs in which the ACKs that
are handled are for frames sent; and it does after the first step that handles another. -/
theorem acked_within_sent (h : machine.ReachableUnder AcksSent c) :
    AckedWithinSent c ∧ ∀ e c', machine.step c e = some c' → (AckedWithinSent c' ↔ AcksSent c e) := by
  have hI := sentInv_reachable h
  exact ⟨hI.within, fun e c' hs => ⟨acksSent_of_within hs, fun hC => (sentInv_step hI hC hs).within⟩⟩

/-- An endpoint that writes to its first transport. -/
def attachedRun : List Event := [.attach 0 0, .apply]

def attachedEndpoint : Endpoint := { Endpoint.new ⟨1, 20000000⟩ 18 65536 with writer := some 0 }

/-- It sends a frame, and the peer acknowledges it. -/
def ackedOnce : State where
  ep := { attachedEndpoint with
    recovery := { attachedEndpoint.recovery with
      replay := { attachedEndpoint.recovery.replay with lastAcked := 1 } }
    nextSendSeq := 1
    lastSentSeq := 1
    staged := [⟨0, 0, [1]⟩] }
  numbering := none
  refused := []

theorem acked_within_sent_once :
    AckedWithinSent ackedOnce ∧
      ∀ e c', machine.step ackedOnce e = some c' → (AckedWithinSent c' ↔ AcksSent ackedOnce e) :=
  acked_within_sent (.exec (attachedRun ++ [.send ⟨0, 0, [1]⟩, .writeNext, .number, .writeDone true,
    .control (buildAckControlPayload 1)]) (.init ⟨⟨1, 20000000⟩, 18, 65536, rfl⟩)
    rfl (by decide))

/-- The peer acknowledges five frames before any is sent, and then a send fails. -/
def ackedAhead : State where
  ep := { attachedEndpoint with
    recovery := { attachedEndpoint.recovery with
      replay := { attachedEndpoint.recovery.replay with lastAcked := 5 } } }
  numbering := none
  refused := [alreadyAcknowledged]

theorem acked_ahead : ¬∀ c, machine.Reachable c → AckedWithinSent c := by
  intro hall
  have hr : machine.Reachable ackedAhead :=
    Machine.reachable_of_exec (attachedRun ++
      [.control (buildAckControlPayload 5), .send ⟨0, 0, [1]⟩, .writeNext])
      ⟨⟨1, 20000000⟩, 18, 65536, rfl⟩ rfl
  exact absurd (hall _ hr).acked (by decide)

end AdaptiveMsg.Protocol.AnyPeer
