import AdaptiveMsg.Recovery
import AdaptiveMsg.Streams.Model

/-!
# Streams — a reader that is aborted inside a data frame

`handle_recovery_data_frame`, with the calls of `accept_frame` that it awaits.  The reader suspends
where it sends to the incoming queue of the stream, and may be aborted there; the queue has room for
`capacity` payloads, and the other tasks do with the streams what they like.

`delivery_whole`: wherever the reader suspends, the frame was queued and noted as received, or
neither, just if it does not carry both a message and FIN; `delivery_cut` is a frame that does.
-/

namespace AdaptiveMsg.Streams.Delivery

/-! ### The reader -/

inductive Pc where
  | check
  | accept (task : Task)
  /-- `accept_frame` has returned. -/
  | note
  | done (result : Except Error Nat)
  deriving DecidableEq

structure World where
  frame : Frame
  seq : Nat
  /-- The last received number, as the reader keeps it. -/
  lastRecvSeq : Nat
  shared : Shared
  recovery : RecoveryState
  pc : Pc
  /-- Whether the frame was put into an incoming queue (not part of the program's state). -/
  queued : Bool
  deriving DecidableEq

inductive Event where
  /-- The reader goes on; `now` is the time at which it notes the frame. -/
  | goOn (now : Nat)
  /-- The stream's incoming queue is gone. -/
  | sendFails
  /-- Another task moves; the writer may take the pending ACK. -/
  | others (shared : Shared) (now : Nat)

/-- `FRAME_FLAG_FIN`. -/
def frameFlagFin : Nat := 1

/-- Whether the frame carries FIN, on whatever stream. -/
def hasFin (frame : Frame) : Bool := frame.flags &&& frameFlagFin != 0

namespace World

variable (w : World)

/-- The incoming queue has room. -/
def room (capacity ctx : Nat) : Bool :=
  (w.shared.streams[ctx]?).any fun stream => stream.incoming.length < capacity

/-- One operation of `accept_frame`. -/
def acceptFrame (id : Nat) (message fin : Bool) (pc : AcceptPc) : World :=
  let (shared, task, _) := acceptStep w.shared id message fin pc
  { w with
    shared := shared
    pc := match task, pc with
      -- A stream that could not be registered is closed: sending to it fails.
      | .done, .get _ => if message ∧ shared.closed then .done (.error .closed) else .note
      | .done, _ => .note
      | task, _ => .accept task }

def note (now : Nat) (result : Nat) : World :=
  { w with recovery := (w.recovery.noteReceived now w.seq).2, pc := .done (.ok result) }

def goOn (capacity now : Nat) : Option World :=
  match w.pc with
  | .check =>
    if w.seq = 0 then
      some { w with pc := .done (.error (.invalidMessage "recovery data frame missing seq")) }
    else if w.seq ≤ w.lastRecvSeq then some (w.note now w.lastRecvSeq)
    else if w.seq ≠ w.lastRecvSeq + 1 then
      some { w with pc := .done (.error (.invalidMessage "recovery frame sequence gap")) }
    else
      some { w with
        pc := .accept (Streams.acceptFrame w.frame.streamId (w.frame.payload ≠ []) (hasFin w.frame)) }
  | .accept (.accept id message fin (.sendMessage ctx)) =>
    if w.room capacity ctx then
      some { w.acceptFrame id message fin (.sendMessage ctx) with queued := true }
    else none
  | .accept (.accept id message fin (.queueFin ctx)) =>
    if w.room capacity ctx then
      some { w.acceptFrame id message fin (.queueFin ctx) with queued := true }
    else none
  | .accept (.accept id message fin pc) => some (w.acceptFrame id message fin pc)
  | .note => some (w.note now w.seq)
  | _ => none

def sendFails : Option World :=
  match w.pc with
  | .accept (.accept _ _ _ (.sendMessage _)) =>
    -- Unless the connection is closed, the stream was closed after the lookup.
    some { w with pc := if w.shared.closed then .done (.error .closed) else .note }
  | .accept (.accept _ _ _ (.queueFin _)) => some { w with pc := .note }
  | _ => none

def step (capacity : Nat) : Event → Option World
  | .goOn now => w.goOn capacity now
  | .sendFails => w.sendFails
  | .others shared now =>
    some { w with shared := shared, recovery := (w.recovery.takePendingAck now).2 }

end World

/-- The calls for `frame`, under any number and on any streams. -/
def machine (capacity : Nat) (frame : Frame) : Machine World Event where
  init w := ∃ seq shared recovery,
    w = ⟨frame, seq, recovery.lastRecvSeq, shared, recovery, .check, false⟩
  step w e := w.step capacity e

/-! ### Where it can be aborted -/

/-- The reader may be suspended, and then aborted. -/
def World.Suspends (w : World) : Prop :=
  ∃ id message fin ctx, w.pc = .accept (.accept id message fin (.sendMessage ctx)) ∨
    w.pc = .accept (.accept id message fin (.queueFin ctx))

/-- The frame was queued and noted as received, or neither. -/
def World.Whole (w : World) : Prop :=
  w.Suspends →
    w.queued = false ∧ w.recovery.lastRecvSeq = w.lastRecvSeq ∨
    w.queued = true ∧ w.recovery.lastRecvSeq = w.seq

/-- The frame has a message and, on a stream that can end, FIN. -/
def FinWithMessage (frame : Frame) : Prop :=
  frame.payload ≠ [] ∧ hasFin frame = true ∧ frame.streamId ≠ defaultStreamId ∧
    frame.streamId ≠ controlStreamId

instance (frame : Frame) : Decidable (FinWithMessage frame) :=
  inferInstanceAs (Decidable (_ ∧ _ ∧ _ ∧ _))

/-- FIN of the frame, as `accept_frame` takes it. -/
def finOf (frame : Frame) : Bool :=
  hasFin frame && frame.streamId != defaultStreamId && frame.streamId != controlStreamId

section step

variable {w w' : World} {e : Event} {capacity : Nat} {id : Nat} {message fin : Bool}

/-- An operation of `accept_frame` ends it or leads to another one; it sends what it has. -/
theorem acceptStep_task (s : Shared) (id : Nat) (message fin : Bool) (pc : AcceptPc) :
    (acceptStep s id message fin pc).2.1 = .done ∨
      ∃ pc', (acceptStep s id message fin pc).2.1 = .accept id message fin pc' ∧
        (∀ ctx, pc' = .sendMessage ctx → message = true) ∧
        (∀ ctx, pc' = .queueFin ctx → fin = true) := by
  have hwith : ∀ r : Option Nat, acceptWith id message fin r = .done ∨
      ∃ pc', acceptWith id message fin r = .accept id message fin pc' ∧
        (∀ ctx, pc' = .sendMessage ctx → message = true) ∧
        (∀ ctx, pc' = .queueFin ctx → fin = true) := by
    intro r
    cases r with
    | none => exact .inl rfl
    | some ctx =>
        simp only [acceptWith]
        split
        · exact .inr ⟨_, rfl, fun _ _ => ‹_›, nofun⟩
        · split
          · exact .inr ⟨_, rfl, nofun, fun _ _ => ‹_›⟩
          · exact .inl rfl
  cases pc with
  | unreserve => exact .inr ⟨_, rfl, nofun, nofun⟩
  | lookupFin => exact hwith _
  | lookup =>
      simp only [acceptStep]
      split
      · exact hwith (some _)
      · exact .inr ⟨_, rfl, nofun, nofun⟩
  | checkOpened =>
      refine .inr ⟨_, rfl, ?_, ?_⟩ <;> split <;> exact nofun
  | checkReserved =>
      refine .inr ⟨_, rfl, ?_, ?_⟩ <;> split <;> exact nofun
  | get pc =>
      simp only [acceptStep]
      split
      · exact .inr ⟨_, rfl, nofun, nofun⟩
      · exact hwith _
  | drop => exact .inl rfl
  | sendMessage ctx =>
      simp only [acceptStep]
      split
      · exact .inr ⟨_, rfl, nofun, fun _ _ => ‹_›⟩
      · exact .inl rfl
  | queueFin ctx => exact .inl rfl

/-- Where the call of `accept_frame` is. -/
structure Accepting (w : World) : Prop where
  task : ∀ t, w.pc = .accept t → ∃ pc,
    t = .accept w.frame.streamId (w.frame.payload ≠ []) (finOf w.frame) pc ∧
      (∀ ctx, pc = .sendMessage ctx → w.frame.payload ≠ []) ∧
      (∀ ctx, pc = .queueFin ctx → finOf w.frame = true)
  recv : (∀ result, w.pc ≠ .done result) → w.recovery.lastRecvSeq = w.lastRecvSeq
  /-- Only behind a message is there something more to send. -/
  queued : w.queued = true → w.pc ≠ .check ∧
    ∀ t, w.pc = .accept t → w.frame.payload ≠ [] ∧ finOf w.frame = true

theorem accepting_done {result : Except Error Nat} (h : w.pc = .done result) : Accepting w := by
  refine ⟨fun t ht => ?_, fun hne => absurd h (hne result), fun _ => ⟨?_, fun t ht => ?_⟩⟩
  · rw [h] at ht
    cases ht
  · rw [h]
    exact nofun
  · rw [h] at ht
    cases ht

theorem accepting_note (h : w.pc = .note) (hrecv : w.recovery.lastRecvSeq = w.lastRecvSeq) :
    Accepting w := by
  refine ⟨fun t ht => ?_, fun _ => hrecv, fun _ => ⟨?_, fun t ht => ?_⟩⟩
  · rw [h] at ht
    cases ht
  · rw [h]
    exact nofun
  · rw [h] at ht
    cases ht

/-- What an operation of `accept_frame` leads to, with `queued` what the frame did to the queue. -/
theorem Accepting.acceptFrame (hA : Accepting w) {pc : AcceptPc}
    (hpc : w.pc = .accept (.accept id message fin pc)) {queued : Bool}
    (hqueued : queued = true → w.queued = true ∨ ∃ ctx, pc = .sendMessage ctx ∨ pc = .queueFin ctx) :
    Accepting { w.acceptFrame id message fin pc with queued := queued } := by
  have hrecv : w.recovery.lastRecvSeq = w.lastRecvSeq := by
    refine hA.recv fun result h => ?_
    rw [hpc] at h
    cases h
  obtain ⟨pc₀, ht, hsend, hfin⟩ := hA.task _ hpc
  cases ht
  rcases acceptStep_task w.shared w.frame.streamId (w.frame.payload ≠ []) (finOf w.frame) pc
    with htask | ⟨pc', htask, hsend', hfin'⟩
  · -- The call ends.
    have hend : (w.acceptFrame w.frame.streamId (w.frame.payload ≠ []) (finOf w.frame) pc).pc = .note ∨
        ∃ result, (w.acceptFrame w.frame.streamId (w.frame.payload ≠ []) (finOf w.frame) pc).pc =
          .done result := by
      simp only [World.acceptFrame, htask]
      cases pc with
      | get pc =>
          simp only
          split
          · exact .inr ⟨_, rfl⟩
          · exact .inl rfl
      | _ => exact .inl rfl
    rcases hend with hnote | ⟨result, hdone⟩
    · exact accepting_note hnote hrecv
    · exact accepting_done hdone
  · have hnext : (w.acceptFrame w.frame.streamId (w.frame.payload ≠ []) (finOf w.frame) pc).pc =
        .accept (.accept w.frame.streamId (w.frame.payload ≠ []) (finOf w.frame) pc') := by
      simp only [World.acceptFrame, htask]
    refine ⟨fun t h => ?_, fun _ => hrecv, fun hq => ⟨?_, fun t h => ?_⟩⟩
    · cases h.symm.trans hnext
      exact ⟨pc', rfl, fun ctx h => of_decide_eq_true (hsend' ctx h), hfin'⟩
    · rw [show ({ w.acceptFrame w.frame.streamId (w.frame.payload ≠ []) (finOf w.frame) pc with
        queued := queued } : World).pc = _ from hnext]
      exact nofun
    · rcases hqueued hq with hq | ⟨ctx, rfl | rfl⟩
      · exact (hA.queued hq).2 _ hpc
      · refine ⟨hsend ctx rfl, ?_⟩
        show finOf w.frame = true
        by_contra hno
        simp only [acceptStep, if_neg hno] at htask
        cases htask
      · simp [acceptStep] at htask

/-- The first operation of `accept_frame`. -/
theorem acceptFrame_eq (frame : Frame) :
    ∃ pc, Streams.acceptFrame frame.streamId (frame.payload ≠ []) (hasFin frame) =
      .accept frame.streamId (frame.payload ≠ []) (finOf frame) pc ∧
      (∀ ctx, pc ≠ .sendMessage ctx) ∧ ∀ ctx, pc ≠ .queueFin ctx := by
  refine ⟨_, rfl, fun ctx => ?_, fun ctx => ?_⟩ <;> split <;> exact nofun

theorem Accepting.goOn (hA : Accepting w) {now : Nat} (h : w.goOn capacity now = some w') :
    Accepting w' := by
  simp only [World.goOn] at h
  split at h
  · rename_i hpc
    split at h
    · cases h
      exact accepting_done rfl
    · split at h
      · cases h
        exact accepting_done rfl
      · split at h
        · cases h
          exact accepting_done rfl
        · cases h
          obtain ⟨pc, hfirst, hsend, hfin⟩ := acceptFrame_eq w.frame
          refine ⟨fun t ht => ?_, fun _ => hA.recv (by rw [hpc]; exact nofun), fun hq => ?_⟩
          · cases ht
            exact ⟨pc, hfirst, fun ctx h => absurd h (hsend ctx), fun ctx h => absurd h (hfin ctx)⟩
          · exact absurd hpc (hA.queued hq).1
  · rename_i ctx hpc
    split at h
    · cases h
      exact hA.acceptFrame hpc fun _ => .inr ⟨ctx, .inl rfl⟩
    · cases h
  · rename_i ctx hpc
    split at h
    · cases h
      exact hA.acceptFrame hpc fun _ => .inr ⟨ctx, .inr rfl⟩
    · cases h
  · rename_i hpc
    cases h
    exact Accepting.acceptFrame hA hpc fun hq : w.queued = true => .inl hq
  · cases h
    exact accepting_done rfl
  · cases h

theorem Accepting.step (hA : Accepting w) (h : w.step capacity e = some w') : Accepting w' := by
  cases e with
  | goOn now => exact hA.goOn h
  | sendFails =>
      simp only [World.step, World.sendFails] at h
      split at h
      · rename_i hpc
        cases h
        have hrecv := hA.recv (by rw [hpc]; exact nofun)
        by_cases hclosed : w.shared.closed = true
        · exact accepting_done (if_pos hclosed)
        · exact accepting_note (if_neg hclosed) hrecv
      · rename_i hpc
        cases h
        exact accepting_note rfl (hA.recv (by rw [hpc]; exact nofun))
      · cases h
  | others shared now =>
      cases h
      refine ⟨hA.task, fun hne => ?_, hA.queued⟩
      show (w.recovery.takePendingAck now).2.lastRecvSeq = w.lastRecvSeq
      rw [RecoveryState.lastRecvSeq_takePendingAck]
      exact hA.recv hne

theorem step_frame (h : w.step capacity e = some w') : w'.frame = w.frame := by
  cases e with
  | goOn now =>
      simp only [World.step, World.goOn] at h
      repeat' split at h
      all_goals first | (cases h; rfl) | cases h
  | sendFails =>
      simp only [World.step, World.sendFails] at h
      split at h <;> cases h <;> rfl
  | others shared now =>
      cases h
      rfl

theorem accepting_reachable {frame : Frame} (h : (machine capacity frame).Reachable w) :
    w.frame = frame ∧ Accepting w := by
  refine h.invariant (I := fun w => w.frame = frame ∧ Accepting w) ?_ ?_
  · rintro _ ⟨seq, shared, recovery, rfl⟩
    exact ⟨rfl, nofun, fun _ => rfl, nofun⟩
  · intro w e w' ⟨hframe, hA⟩ _ hs
    exact ⟨(step_frame hs).trans hframe, hA.step hs⟩

theorem finWithMessage_iff (frame : Frame) :
    FinWithMessage frame ↔ frame.payload ≠ [] ∧ finOf frame = true := by
  simp [FinWithMessage, finOf, and_assoc]

/-- A frame with a message and FIN, on a registered stream: the message is queued, and the reader
suspends before the FIN marker. -/
theorem cut_of_finWithMessage {frame : Frame} (hcap : 0 < capacity) (hf : FinWithMessage frame) :
    ∃ w, (machine capacity frame).Reachable w ∧ ¬w.Whole := by
  obtain ⟨hmessage, hfin⟩ := (finWithMessage_iff frame).1 hf
  let shared : Shared := ⟨[⟨frame.streamId, [], false, false⟩], [(frame.streamId, 0)], none, [], 1, false, [], []⟩
  let recovery : RecoveryState := .new .default 18 0
  let task (pc : AcceptPc) : Task := .accept frame.streamId (frame.payload ≠ []) (finOf frame) pc
  let w₀ : World := ⟨frame, 1, 0, shared, recovery, .check, false⟩
  let w₁ : World := { w₀ with pc := .accept (task .lookup) }
  let w₂ : World := { w₀ with pc := .accept (task (.sendMessage 0)) }
  have h₁ : w₀.step capacity (.goOn 0) = some w₁ := by
    have hfirst : Streams.acceptFrame frame.streamId (frame.payload ≠ []) (hasFin frame) = task .lookup := by
      simp [Streams.acceptFrame, task, finOf, hmessage]
    simp only [World.step, World.goOn, w₀, hfirst]
    rfl
  have h₂ : w₁.step capacity (.goOn 0) = some w₂ := by
    have hlookup : shared.lookupStreamCtx frame.streamId = some 0 := by
      simp [Shared.lookupStreamCtx, shared]
    simp [World.step, World.goOn, w₁, w₂, w₀, task, World.acceptFrame, acceptStep, hlookup, acceptWith,
      hmessage]
  obtain ⟨w₃, h₃, hpc, hqueued, hrecv⟩ : ∃ w₃, w₂.step capacity (.goOn 0) = some w₃ ∧
      w₃.pc = .accept (task (.queueFin 0)) ∧ w₃.queued = true ∧
      w₃.recovery.lastRecvSeq = 0 ∧ w₃.seq = 1 := by
    have hroom : w₂.room capacity 0 = true := by simp [World.room, w₂, w₀, shared, hcap]
    refine ⟨{ w₂.acceptFrame frame.streamId (frame.payload ≠ []) (finOf frame) (.sendMessage 0) with
      queued := true }, ?_, ?_, rfl, rfl, rfl⟩
    · show (if w₂.room capacity 0 then _ else none) = _
      rw [if_pos hroom]
    · simp [World.acceptFrame, acceptStep, hfin, task]
  have h₀ : (machine capacity frame).Reachable w₀ := .init ⟨1, shared, recovery, rfl⟩
  have h₁' : (machine capacity frame).Reachable w₁ := h₀.step (e := .goOn 0) trivial h₁
  have h₂' : (machine capacity frame).Reachable w₂ := h₁'.step (e := .goOn 0) trivial h₂
  refine ⟨w₃, h₂'.step (e := .goOn 0) trivial h₃, fun hwhole => ?_⟩
  rcases hwhole ⟨_, _, _, _, .inr hpc⟩ with ⟨hq, -⟩ | ⟨-, hr⟩
  · rw [hqueued] at hq
    cases hq
  · rw [hrecv.1, hrecv.2] at hr
    cases hr

/-- **A frame is delivered whole** wherever its reader suspends, unless it has a message and FIN. -/
theorem delivery_whole (frame : Frame) (hcap : 0 < capacity) :
    (∀ w, (machine capacity frame).Reachable w → w.Whole) ↔ ¬FinWithMessage frame := by
  constructor
  · intro hwhole hf
    obtain ⟨w, hw, hcut⟩ := cut_of_finWithMessage hcap hf
    exact hcut (hwhole w hw)
  · intro hf w hw hsuspends
    obtain ⟨hframe, hA⟩ := accepting_reachable hw
    subst hframe
    obtain ⟨t, hpc⟩ : ∃ t, w.pc = .accept t := by
      obtain ⟨id, message, fin, ctx, hpc | hpc⟩ := hsuspends
      · exact ⟨_, hpc⟩
      · exact ⟨_, hpc⟩
    refine .inl ⟨?_, hA.recv fun result h => ?_⟩
    · by_contra hq
      exact hf ((finWithMessage_iff _).2 ((hA.queued (Bool.not_eq_false _ ▸ hq)).2 t hpc))
    · rw [hpc] at h
      cases h

theorem delivery_whole_message :
    (∀ w, (machine 1 ⟨1, 0, [7]⟩).Reachable w → w.Whole) ↔ ¬FinWithMessage ⟨1, 0, [7]⟩ :=
  delivery_whole ⟨1, 0, [7]⟩ Nat.one_pos

/-- The reader is cut off between the message and the FIN of one frame. -/
theorem delivery_cut : ∃ w, (machine 1 ⟨1, 1, [7]⟩).Reachable w ∧ ¬w.Whole :=
  cut_of_finWithMessage Nat.one_pos (by decide)

end step

end AdaptiveMsg.Streams.Delivery
