import AdaptiveMsg.Protocol.Idle
import AdaptiveMsg.Backpressure.Sends

/-!
# Backpressure — a send that waits for room does not wait forever

Where a transport is attached, the application rests and a writer holds a frame, a step of the
protocol is enabled (`GoesOn`), unless a reader waits for a stream that waits for a send of the
same side while the writer there holds a frame (`StoppedBySend`): `goes_on`.

A reader that `StoppedBySend` stops does not read the ACK that the writer waits for.  The handler
of `fillRun` replies to each message, and the client sends more of them than the queues of the
stream take: `deadlock`.
-/

namespace AdaptiveMsg.Backpressure

/-! ### What the application waits for -/

/-- The task is ready for its next message, or waits inside a send. -/
def TaskPc.Rests (w : World) (s : RecoveryRole) : TaskPc → Prop
  | .ready => True
  | .running => False
  | .sending send _ => sendStep w s send = none

instance (w : World) (s : RecoveryRole) : DecidablePred (TaskPc.Rests w s)
  | .ready => isTrue trivial
  | .running => isFalse id
  | .sending send _ => inferInstanceAs (Decidable (sendStep w s send = none))

/-- Every task of the application is ready to take its next message, or waits inside a send. -/
structure Resting (w : World) (s : RecoveryRole) : Prop where
  streams : ∀ e ∈ (w.app s).streams, e.2.handler.Rests w s ∧ e.2.recvLoop.Rests w s
  senders : ∀ pc ∈ (w.app s).senders, pc.Rests w s

/-- The decode task is inside the send of a protocol error, or waits for room in the queue of a task
that is inside a send. -/
def Stream.StoppedBySend (config : Config) (i : Nat) (st : Stream) : Prop :=
  match st.decode with
  | .failing _ _ _ => True
  | .handing true _ => st.recvLoop.send?.isSome ∧ config.inbox i ≤ st.inbox.length
  | .handing false _ => st.handler.send?.isSome ∧ config.handlerQ i ≤ st.handlerQ.length
  | .receiving | .ended => False

/-- The writer of `s` holds a frame, and its reader on `t` waits inside `accept_frame` for room on a
stream that a send stops. -/
def StoppedBySend (config : Config) (w : World) (s : RecoveryRole) (t : Nat) : Prop :=
  (w.net.ep s).held.isSome ∧
    ∃ m record st, (w.net.lane t s).reader = .accepting m record ∧
      (w.app s).stream? record.frame.streamId = some st ∧
      config.incoming record.frame.streamId ≤ st.incoming.length ∧
      st.StoppedBySend config record.frame.streamId

/-- There is a message for the task to take. -/
def App.HasMessage (a : App) : Owner → Prop
  | .handler i => ∃ st ∈ a.stream? i, st.handlerQ ≠ []
  | .recvLoop i => ∃ st ∈ a.stream? i, st.inbox ≠ []
  | .sender _ => False

/-- The steps of the protocol: a frame is written, read, accepted or decoded, a message is taken by
a handler or a receiver, or an acknowledgement is sent.  That a task looks at a closed stream and
finds nothing is none. -/
def Event.IsProtocol (w : World) : Event → Prop
  | .net e => e.GoesOn
  | .accept _ _ | .decode _ _ => True
  | .task s o .take => (w.app s).HasMessage o
  | _ => False

/-- A step of the protocol is enabled, and changes something. -/
def GoesOn (config : RecoveryRole → Config) (w : World) : Prop :=
  ∃ ev w', step config w ev = some w' ∧ ev.IsProtocol w ∧ w' ≠ w

/-- The writers attach transports on which their endpoints announced all that they acknowledged. -/
def ResumeCoversAck (w : World) : Event → Prop
  | .net e => Protocol.ResumeCoversAck w.net e
  | _ => True

instance (w : World) : DecidablePred (ResumeCoversAck w)
  | .net e => inferInstanceAs (Decidable (Protocol.ResumeCoversAck w.net e))
  | .accept _ _ | .decode _ _ | .decodeEnds _ _ | .task _ _ _ | .spawnSender _ | .newStream _ _
  | .startFin _ _ | .remove _ _ => isTrue trivial

/-! ### The endpoints run the protocol -/

section net

variable {config : Config} {w w' : World} {s : RecoveryRole}

/-- The protocol stands still, or a frame is queued. -/
def Queues (w w' : World) (s : RecoveryRole) : Prop :=
  w'.net = w.net ∨ ∃ frame, w.net.step (.send s frame) = some w'.net

theorem sendStep_queues {send : Sending} {next : Option Sending}
    (h : sendStep w s send = some (w', next)) : Queues w w' s := by
  cases send with
  | locking frame =>
      simp only [sendStep] at h
      split at h
      · split at h
        · cases h
        · split at h <;> cases h <;> exact .inl rfl
      · cases h
        exact .inl rfl
  | queuing frame =>
      simp only [sendStep] at h
      split at h
      · obtain ⟨net, hnet, he⟩ := Option.map_eq_some_iff.1 h
        cases he
        exact .inr ⟨frame, hnet⟩
      · cases h
  | queued i place =>
      simp only [sendStep] at h
      split at h <;> cases h
      exact .inl rfl

theorem decodeStep_queues {i : Nat} (h : decodeStep config w s i = some w') : Queues w w' s := by
  simp only [decodeStep] at h
  split at h
  · cases h
  · split at h
    · split at h
      · cases h
      · split at h
        · cases h
          exact .inl rfl
        · split at h <;> cases h <;> exact .inl rfl
    · split at h
      · cases h
        exact .inl rfl
      · split at h
        · split at h <;> cases h
          exact .inl rfl
        · split at h
          · cases h
            exact .inl rfl
          · split at h <;> cases h
            exact .inl rfl
    · split at h
      · rename_i w₁ _ hsend
        have hq : Queues w w₁ s := sendStep_queues hsend
        obtain ⟨st, -, rfl⟩ := Option.map_eq_some_iff.1 h
        exact hq
      · rename_i w₁ hsend
        have hq : Queues w w₁ s := sendStep_queues hsend
        obtain ⟨st, -, rfl⟩ := Option.map_eq_some_iff.1 h
        exact hq
      · cases h
    · cases h

theorem taskStep_queues {o : Owner} {act : Act} (h : taskStep w s o act = some w') :
    Queues w w' s := by
  simp only [taskStep] at h
  split at h
  · obtain ⟨a, -, rfl⟩ := Option.map_eq_some_iff.1 h
    exact .inl rfl
  · split at h
    · obtain ⟨a, -, rfl⟩ := Option.map_eq_some_iff.1 h
      exact .inl rfl
    · cases h
    · cases h
  · obtain ⟨a, -, rfl⟩ := Option.map_eq_some_iff.1 h
    exact .inl rfl
  · split at h
    · obtain ⟨a, -, rfl⟩ := Option.map_eq_some_iff.1 h
      exact .inl rfl
    · cases h
    · cases h
  · split at h
    · obtain ⟨a, -, rfl⟩ := Option.map_eq_some_iff.1 h
      exact .inl rfl
    · cases h
    · cases h
  · split at h
    · rename_i w₁ _ hsend
      have hq : Queues w w₁ s := sendStep_queues hsend
      obtain ⟨a, -, rfl⟩ := Option.map_eq_some_iff.1 h
      exact hq
    · rename_i w₁ hsend
      have hq : Queues w w₁ s := sendStep_queues hsend
      obtain ⟨a, -, rfl⟩ := Option.map_eq_some_iff.1 h
      exact hq
    · cases h
  · cases h

/-- A step is one of the protocol, or leaves the protocol where it is. -/
theorem step_net {config : RecoveryRole → Config} {ev : Event} (hC : ResumeCoversAck w ev)
    (h : step config w ev = some w') :
    w'.net = w.net ∨ ∃ e, Protocol.ResumeCoversAck w.net e ∧ w.net.step e = some w'.net := by
  -- All that the application does to the network is to queue frames and to accept them.
  have hqueues {s : RecoveryRole} (hq : Queues w w' s) :
      w'.net = w.net ∨ ∃ e, Protocol.ResumeCoversAck w.net e ∧ w.net.step e = some w'.net :=
    hq.imp_right fun ⟨frame, hs⟩ => ⟨.send s frame, trivial, hs⟩
  cases ev with
  | net e =>
      simp only [step] at h
      split at h
      · cases h
      · obtain ⟨net, hnet, rfl⟩ := Option.map_eq_some_iff.1 h
        exact .inr ⟨e, hC, hnet⟩
  | accept s t =>
      simp only [step] at h
      split at h
      · split at h
        · obtain ⟨net, hnet, rfl⟩ := Option.map_eq_some_iff.1 h
          exact .inr ⟨.accept s t, trivial, hnet⟩
        · cases h
          exact .inl rfl
        · cases h
      · cases h
  | decode s i => exact hqueues (decodeStep_queues h)
  | decodeEnds s i =>
      simp only [step, decodeEnds] at h
      split at h
      · split at h <;> cases h
        exact .inl rfl
      · cases h
  | task s o act => exact hqueues (taskStep_queues h)
  | spawnSender s =>
      cases h
      exact .inl rfl
  | newStream s i =>
      simp only [step] at h
      split at h <;> cases h
      exact .inl rfl
  | startFin s i | remove s i =>
      obtain ⟨st, -, rfl⟩ := Option.map_eq_some_iff.1 h
      exact .inl rfl

theorem net_reachable {config : RecoveryRole → Config}
    (h : (machine config).ReachableUnder ResumeCoversAck w) :
    Protocol.machine.ReachableUnder Protocol.ResumeCoversAck w.net :=
  Machine.ReachableUnder.map (M := machine config) World.net (fun _ h₀ => h₀.1)
    (fun _ _ _ hC hs => step_net hC hs) h

end net

/-! ### Steps that change a stream -/

section streams

variable {a a' : App} {i t : Nat} {st st' : Stream} {frame : Frame} {config : Config}

/-- A reader waits inside `accept_frame` only for room. -/
theorem acceptStep_none (h : acceptStep config a t frame = none) :
    ∃ st, a.stream? frame.streamId = some st ∧ st.decode ≠ .ended ∧
      config.incoming frame.streamId ≤ st.incoming.length := by
  simp only [acceptStep] at h
  split at h
  · split at h <;> cases h
  · split at h
    · cases h
    · split at h
      · cases h
      · split at h <;> cases h
  · rename_i st _ hst
    split at h
    · cases h
    · rename_i hended
      split at h
      · split at h <;> cases h
      · exact ⟨st, hst, hended, Nat.le_of_not_lt ‹_›⟩
  · rename_i st _ hst
    split at h
    · cases h
    · rename_i hended
      split at h
      · cases h
      · exact ⟨st, hst, hended, Nat.le_of_not_lt ‹_›⟩
  · cases h
  · cases h

theorem acceptStep_ne (h : acceptStep config a t frame = some (a', false)) : a' ≠ a := by
  have hmake : a.makeStream frame.streamId false ≠ a := fun he =>
    List.cons_ne_self _ _ (congrArg App.streams he)
  have hset (pc : AcceptPc) : a.setAcceptPc t pc ≠ a := fun he =>
    List.cons_ne_self _ _ (congrArg App.accepting he)
  simp only [acceptStep] at h
  split at h
  · split at h <;> cases h
    exact hmake
  · split at h
    · cases h
    · split at h
      · cases h
        exact hset _
      · split at h <;> cases h
        exact hset _
  · split at h
    · cases h
    · split at h
      · split at h <;> cases h
        exact fun he => List.cons_ne_self _ _ (congrArg App.accepting he)
      · cases h
  · split at h
    · cases h
    · split at h <;> cases h
  · cases h
  · cases h

end streams

/-! ### A state in which nothing goes on -/

section stuck

variable {config : RecoveryRole → Config} {w w' : World} {s : RecoveryRole} {i t : Nat}
  {st st' : Stream} {ev : Event}

theorem stays (hstuck : ¬GoesOn config w) (h : step config w ev = some w') (hev : ev.IsProtocol w) :
    w' = w :=
  not_not.1 fun hne => hstuck ⟨ev, w', h, hev, hne⟩

/-- No step of the protocol changes a stream. -/
theorem stream_stays (ev : Event) (st' : Stream) (hstuck : ¬GoesOn config w) (hst : (w.app s).stream? i = some st)
    (h : step config w ev = some (w.setApp s ((w.app s).setStream i st'))) (hev : ev.IsProtocol w) :
    st' = st := by
  have hsame := congrArg (fun w : World => (w.app s).stream? i) (stays hstuck h hev)
  rw [setApp_app, stream?_setStream_self hst, hst] at hsame
  exact Option.some.inj hsame

theorem net_idle (hstuck : ¬GoesOn config w) : Protocol.Idle w.net := by
  intro e net hs hev
  have hq : queues e = false := by
    cases e with
    | send s frame | accept s t => cases hev
    | _ => rfl
  have h : step config w (.net e) = some ⟨net, w.app⟩ := by
    simp [step, hq, hs]
  exact congrArg World.net (stays hstuck h hev)

/-- A side with frames to get into the replay buffer holds one of them. -/
theorem held_of_pending (hidle : Protocol.Idle w.net) (hw : (w.net.ep s).writer = some t)
    (hp : 0 < w.pending s) : (w.net.ep s).held.isSome = true := by
  cases hheld : (w.net.ep s).held with
  | some frame => rfl
  | none =>
      have hout := Protocol.Endpoint.outbound_nil (hidle.writeNext hw) hheld
      rw [World.pending, hout, hheld] at hp
      cases hp

/-- A decode task that is inside a send waits there. -/
theorem decode_waits (hstuck : ¬GoesOn config w) (hst : (w.app s).stream? i = some st)
    {dispatch : Dispatch} {send : Sending} {fin : Bool} (hpc : st.decode = .failing dispatch send fin) :
    sendStep w s send = none := by
  by_contra hgoes
  obtain ⟨⟨w₁, next⟩, hstep⟩ := Option.ne_none_iff_exists'.1 hgoes
  -- The stream is still there after the step.
  have hsend := (sendStep_locks hstep).sends (.stream i .decode)
  simp only [App.send?, hst, Option.bind_some, Stream.send?, hpc, DecodePc.send?] at hsend
  obtain ⟨st₁, hst₁, -⟩ := Option.bind_eq_some_iff.1 hsend
  obtain ⟨st', h, hpc'⟩ : ∃ st', decodeStep (config s) w s i =
      some (w₁.setApp s ((w₁.app s).setStream i st')) ∧ st'.decode ≠ .failing dispatch send fin := by
    cases next with
    | some next =>
        refine ⟨{ st₁ with decode := .failing dispatch next fin }, ?_, fun he => ?_⟩
        · simp only [decodeStep, hst, hpc, hstep, hst₁, Option.map_some]
        · cases he
          exact sendStep_ne hstep rfl
    | none =>
        simp only [decodeStep, hst, hpc, hstep, hst₁, Option.map_some]
        refine ⟨_, rfl, ?_⟩
        split
        · rename_i hfin
          intro he
          cases he
          exact absurd hfin.2.1 (by decide)
        · simp only [Stream.failed]
          split <;> rintro ⟨⟩
  have h : step config w (.decode s i) = some (w₁.setApp s ((w₁.app s).setStream i st')) := h
  have hsame := congrArg (fun w : World => (w.app s).stream? i) (stays hstuck h trivial)
  rw [setApp_app, stream?_setStream_self hst₁, hst] at hsame
  exact hpc' (Option.some.inj hsame ▸ hpc)

/-- Whatever is inside a send waits there. -/
theorem waits (hstuck : ¬GoesOn config w) (hrest : Resting w s) {u : User} {send : Sending}
    (hu : (w.app s).send? u = some send) : sendStep w s send = none := by
  have htask {pc : TaskPc} (hrests : pc.Rests w s) (hsend : pc.send? = some send) :
      sendStep w s send = none := by
    cases pc with
    | ready | running => cases hsend
    | sending send' reply =>
        cases hsend
        exact hrests
  cases u with
  | sender k =>
      obtain ⟨pc, hk, hsend⟩ := Option.bind_eq_some_iff.1 hu
      exact htask (hrest.senders pc (List.mem_of_getElem? hk)) hsend
  | stream i part =>
      obtain ⟨st, hst, hsend⟩ := Option.bind_eq_some_iff.1 hu
      have hrests := hrest.streams _ (mem_streams hst)
      cases part with
      | handler => exact htask hrests.1 hsend
      | recvLoop => exact htask hrests.2 hsend
      | decode =>
          rw [Stream.send?] at hsend
          cases hpc : st.decode with
          | receiving | handing _ _ | ended =>
              rw [hpc] at hsend
              cases hsend
          | failing dispatch send' fin =>
              rw [hpc] at hsend
              cases hsend
              exact decode_waits hstuck hst hpc

/-- Where anything is inside a send, the writer holds a frame. -/
theorem held_of_send (hstuck : ¬GoesOn config w) (hlocks : LocksInv w) (hrest : Resting w s)
    (hw : (w.net.ep s).writer = some t) {u : User} {send : Sending}
    (hu : (w.app s).send? u = some send) : (w.net.ep s).held.isSome = true := by
  refine held_of_pending (net_idle hstuck) hw ?_
  rcases sendStep_none (waits hstuck hrest hu) with hp | ⟨frame, -, hlocked⟩
  · exact hp
  · obtain ⟨u', send', hu', hholds⟩ := hlocks s _ hlocked
    rcases sendStep_none (waits hstuck hrest hu') with hp | ⟨frame', rfl, -⟩
    · exact hp
    · exact hholds.elim

/-- A decode task that does not take from a full queue is stopped by a send. -/
theorem stream_stopped (hstuck : ¬GoesOn config w) (hrest : Resting w s)
    (hst : (w.app s).stream? i = some st) (hended : st.decode ≠ .ended)
    (hfull : (config s).incoming i ≤ st.incoming.length) :
    st.StoppedBySend (config s) i ∧ ∃ u send, (w.app s).send? u = some send := by
  obtain ⟨hincoming, hhandlerQ, hinbox⟩ := (config s).positive i
  obtain ⟨hhandler, hrecvLoop⟩ := hrest.streams _ (mem_streams hst)
  have hsend (part : Part) {send : Sending} (hsend : st.send? part = some send) :
      ∃ u send, (w.app s).send? u = some send :=
    ⟨.stream i part, send, by rw [App.send?, hst, Option.bind_some, hsend]⟩
  -- A decode that could act would go on, so its step leaves the stream as it is.
  have hdecode {st' : Stream}
      (h : decodeStep (config s) w s i = some (w.setApp s ((w.app s).setStream i st'))) : st' = st :=
    stream_stays (.decode s i) st' hstuck hst h trivial
  rw [Stream.StoppedBySend]
  cases hpc : st.decode with
  | ended => exact absurd hpc hended
  | failing dispatch send fin => exact ⟨trivial, hsend .decode (by rw [Stream.send?, hpc]; rfl)⟩
  | receiving =>
      cases hqueue : st.incoming with
      | nil =>
          -- The queue is full and has room for at least one message, so it is not empty.
          rw [hqueue] at hfull
          exact absurd hincoming (Nat.not_lt.2 hfull)
      | cons payload rest =>
          obtain ⟨st', h, hrest⟩ : ∃ st' : Stream,
              decodeStep (config s) w s i = some (w.setApp s ((w.app s).setStream i st')) ∧
                st'.incoming = rest := by
            simp only [decodeStep, hst, hpc, hqueue]
            split
            · exact ⟨_, rfl, rfl⟩
            · split <;> exact ⟨_, rfl, rfl⟩
          rw [hdecode h, hqueue] at hrest
          exact (List.cons_ne_self _ _ hrest).elim
  | handing inbox payload =>
      have hreceiving (st' : Stream) (hpc' : st'.decode = .receiving) :
          decodeStep (config s) w s i ≠ some (w.setApp s ((w.app s).setStream i st')) := by
        intro h
        rw [hdecode h, hpc] at hpc'
        cases hpc'
      have hopen : st.closed = false := by
        by_contra hclosed
        rw [Bool.not_eq_false] at hclosed
        refine hreceiving { st with decode := .receiving } rfl ?_
        simp only [decodeStep, hst, hpc, hclosed, if_true]
      cases inbox with
      | true =>
          have hroom : (config s).inbox i ≤ st.inbox.length := by
            by_contra hlt
            refine hreceiving { st with decode := .receiving, inbox := st.inbox ++ [payload] } rfl ?_
            simp only [decodeStep, hst, hpc, hopen, Bool.false_eq_true, if_false, if_true,
              if_pos (Nat.lt_of_not_le hlt)]
          cases hloop : st.recvLoop with
          | sending send reply => exact ⟨⟨rfl, hroom⟩, hsend .recvLoop (by rw [Stream.send?, hloop]; rfl)⟩
          | running =>
              rw [hloop] at hrecvLoop
              exact hrecvLoop.elim
          | ready =>
              cases hqueue : st.inbox with
              | nil =>
                  rw [hqueue] at hroom
                  exact absurd hinbox (Nat.not_lt.2 hroom)
              | cons message rest =>
                  have hsame := stream_stays (.task s (.recvLoop i) .take)
                    { st with inbox := rest, recvLoop := .running } hstuck hst
                    (by simp [step, taskStep, App.pc?, takeStep, hst, hloop, hqueue])
                    ⟨st, hst, by simp [hqueue]⟩
                  have hpc' := congrArg Stream.recvLoop hsame
                  rw [hloop] at hpc'
                  cases hpc'
      | false =>
          have hlives : st.handlerEnded = false := by
            by_contra hlives
            rw [Bool.not_eq_false] at hlives
            refine hreceiving { st with decode := .receiving } rfl ?_
            simp only [decodeStep, hst, hpc, hopen, hlives, Bool.false_eq_true, if_false, if_true]
          have hroom : (config s).handlerQ i ≤ st.handlerQ.length := by
            by_contra hlt
            refine hreceiving { st with decode := .receiving, handlerQ := st.handlerQ ++ [payload] }
              rfl ?_
            simp only [decodeStep, hst, hpc, hopen, hlives, Bool.false_eq_true, if_false,
              if_pos (Nat.lt_of_not_le hlt)]
          cases htask : st.handler with
          | sending send reply => exact ⟨⟨rfl, hroom⟩, hsend .handler (by rw [Stream.send?, htask]; rfl)⟩
          | running =>
              rw [htask] at hhandler
              exact hhandler.elim
          | ready =>
              cases hqueue : st.handlerQ with
              | nil =>
                  rw [hqueue] at hroom
                  exact absurd hhandlerQ (Nat.not_lt.2 hroom)
              | cons job rest =>
                  have hsame := stream_stays (.task s (.handler i) .take)
                    { st with handlerQ := rest, handler := .running } hstuck hst
                    (by simp [step, taskStep, App.pc?, takeStep, hst, htask, hqueue])
                    ⟨st, hst, by simp [hqueue]⟩
                  have hpc' := congrArg Stream.handler hsame
                  rw [htask] at hpc'
                  cases hpc'

/-- A reader that does not go on inside `accept_frame` is stopped by a send. -/
theorem reader_stopped (hstuck : ¬GoesOn config w) (hlocks : LocksInv w) (hrest : Resting w s)
    (hw : (w.net.ep s).writer = some t) {m : Nat} {record : FrameRecord}
    (hr : (w.net.lane t s).reader = .accepting m record) : StoppedBySend (config s) w s t := by
  cases haccept : acceptStep (config s) (w.app s) t record.frame with
  | none =>
      -- The frame waits for room in the queue of its stream, whose decode is then the one stopped.
      obtain ⟨st, hst, hended, hfull⟩ := acceptStep_none haccept
      obtain ⟨hstopped, u, send, hu⟩ := stream_stopped hstuck hrest hst hended hfull
      exact ⟨held_of_send hstuck hlocks hrest hw hu, m, record, st, hr, hst, hfull, hstopped⟩
  | some next =>
      obtain ⟨a, ends⟩ := next
      cases ends with
      | false =>
          have h : step config w (.accept s t) = some (w.setApp s a) := by
            simp only [step, hr, haccept]
          have hsame := congrArg (fun w : World => w.app s) (stays hstuck h trivial)
          rw [setApp_app] at hsame
          exact absurd hsame (acceptStep_ne haccept)
      | true =>
          -- The link ends with the frame: the reader leaves `accepting`.
          have h : ∃ w', step config w (.accept s t) = some w' ∧
              (w'.net.lane t s).reader = .noting m record := by
            simp only [step, hr, haccept, Protocol.World.step, Option.map_some]
            refine ⟨_, rfl, ?_⟩
            rw [setApp_net, Protocol.World.readerGoesOn, Protocol.World.setLane_lane_self]
          obtain ⟨w', h, hnoting⟩ := h
          rw [stays hstuck h trivial, hr] at hnoting
          cases hnoting

end stuck

/-! ### The result -/

/-- **A send that waits for room in the replay buffer does not wait forever**, where no side whose
writer holds a frame has its reader stopped by a stream that waits for a send of its own side. -/
theorem goes_on {config : RecoveryRole → Config} {w : World} {t : Nat}
    (h : (machine config).ReachableUnder ResumeCoversAck w) (hatt : Protocol.Attached w.net t)
    (hrest : ∀ s, Resting w s) (hheld : ∃ s, (w.net.ep s).held.isSome)
    (hstop : ∀ s, ¬StoppedBySend (config s) w s t) : GoesOn config w := by
  by_contra hstuck
  obtain ⟨s, hs⟩ := hheld
  have hlocks := locks_reachable h.reachable
  have hnone := Protocol.held_none_of_idle (net_reachable h) (net_idle hstuck) hatt
    (fun s m r hr => hstop s (reader_stopped hstuck hlocks (hrest s) (hatt.writer s) hr)) s
  rw [hnone] at hs
  cases hs

/-! ### A handler that replies to each message -/

def narrow (dispatch : Dispatch) : Config where
  incoming _ := 1
  handlerQ _ := 1
  inbox _ := 1
  dispatch _ := dispatch
  errorReply payload := payload
  positive _ := ⟨Nat.one_pos, Nat.one_pos, Nat.one_pos⟩

/-- The server handles the messages, and the client receives the replies. -/
def serving : RecoveryRole → Config
  | .server => narrow .handler
  | .client => narrow .inbox

/-- The replay buffer of the server has room for one reply. -/
def idle : World :=
  ⟨.initial ⟨1, 20000000⟩ 18 fun | .client => 65536 | .server => 20, fun _ => .initial⟩

theorem init_idle : (machine serving).init idle := ⟨⟨_, _, _, rfl⟩, rfl⟩

def openRun : List Event :=
  (.dial :: .respond 0 :: Protocol.attachBoth 0).map .net ++ [.newStream .client 1, .spawnSender .client]

/-- The client sends a message, and the server reads it. -/
def requestRun : List Event :=
  [.task .client (.sender 0) (.send ⟨1, 0, [1]⟩), .task .client (.sender 0) .advance,
    .task .client (.sender 0) .advance, .net (.writeNext .client), .net (.writeDone .client true),
    .task .client (.sender 0) .advance, .net (.read .server 0 0), .accept .server 0]

def takenRun (s : RecoveryRole) : List Event := [.accept s 0, .net (.note s 0 0)]

/-- The handler takes the message and replies; the writer keeps the reply, or holds it. -/
def replyRun : List Event :=
  [.decode .server 1, .decode .server 1, .task .server (.handler 1) .take,
    .task .server (.handler 1) (.reply [2]), .task .server (.handler 1) .advance,
    .task .server (.handler 1) .advance, .net (.writeNext .server)]

/-- The second reply does not fit next to the first. -/
def heldRun : List Event :=
  openRun ++ requestRun ++ .accept .server 0 :: takenRun .server ++ replyRun ++
    [.net (.writeDone .server true), .task .server (.handler 1) .advance] ++
    requestRun ++ takenRun .server ++ replyRun

def heldWorld : World := ((machine serving).exec idle heldRun).getD idle

theorem goes_on_held : GoesOn serving heldWorld := by
  have hreader : (heldWorld.net.lane 0 .server).reader = .reading 2 := by decide
  refine goes_on (t := 0) (.exec heldRun (.init init_idle) rfl (by decide))
    ⟨by decide, by decide, by decide⟩ ?_ ⟨.server, by decide⟩ ?_
  · rintro (_ | _) <;> exact ⟨by decide, by decide⟩
  · rintro (_ | _) ⟨hheld, m, record, st, hr, -⟩
    · exact absurd hheld (by decide)
    · rw [hreader] at hr
      cases hr

/-- The client sends what fills the queues of the stream, and acknowledges the first reply. -/
def fillRun : List Event :=
  requestRun ++ takenRun .server ++ [Event.decode .server 1, .decode .server 1] ++
    requestRun ++ takenRun .server ++ .decode .server 1 :: requestRun ++ takenRun .server ++ requestRun ++
    [Event.net (.takeAck .server 0), .net (.writeDone .server true), .net (.read .client 0 0),
      .accept .client 0] ++ takenRun .client ++
    [Event.decode .client 1, .decode .client 1, .task .client (.recvLoop 1) .take,
      .task .client (.recvLoop 1) .receive, .net (.read .client 0 0),
      .net (.takeAck .client 0), .net (.writeDone .client true)]

def deadlocked : World := ((machine serving).exec heldWorld fillRun).getD heldWorld

theorem deadlocked_reachable : (machine serving).ReachableUnder ResumeCoversAck deadlocked := by
  have hheld : (machine serving).ReachableUnder ResumeCoversAck heldWorld :=
    .exec heldRun (.init init_idle) rfl (by decide)
  exact .exec fillRun hheld rfl (by decide)

theorem deadlocked_unspawned (s : RecoveryRole) (t : Nat) :
    (deadlocked.net.lane (t + 1) s).reader = .unspawned :=
  (Protocol.fresh_reachable (net_reachable deadlocked_reachable).reachable).reader (t + 1) s
    (Nat.succ_le_succ (Nat.zero_le t))

/-- The writer of the server waits for an ACK that its reader does not come to. -/
theorem deadlocked_idle : Protocol.Idle deadlocked.net := by
  have hquiet : ∀ s, (deadlocked.net.ep s).writing = none ∧
      ¬(deadlocked.net.ep s).recovery.AckScheduled := by decide
  intro e net h hev
  cases e with
  | writeNext s =>
      cases s with
      | client =>
          have hnone : deadlocked.net.step (.writeNext .client) = none := by decide
          cases hnone.symm.trans h
      | server =>
          have hheld : (deadlocked.net.ep .server).held = some ⟨1, 0, [2]⟩ := by decide
          have hfull := Protocol.Endpoint.writeNext_full (e := deadlocked.net.ep .server)
            (by decide) hheld (by decide) (by decide)
          have hready : deadlocked.net.writerReady .server ∧
              (deadlocked.net.ep .server).writer.isSome := by decide
          have hsame : deadlocked.net.step (.writeNext .server) = some deadlocked.net := by
            simp only [Protocol.World.step, if_pos hready, hfull, Option.map_some,
              Protocol.World.setEp_self]
          exact Option.some.inj (h.symm.trans hsame)
  | writeDone s ok =>
      have hnone : ∀ s, deadlocked.net.writeDone s ok = none := by
        cases ok <;> decide
      cases (hnone s).symm.trans h
  | takeAck s now =>
      have hsame := Protocol.Endpoint.takeAck_unscheduled (hquiet s).2 (hquiet s).1 now
      simp only [Protocol.World.step, hsame, Protocol.World.setEp_self] at h
      split at h <;> cases h
      rfl
  | read s t now | note s t now =>
      cases t with
      | zero => cases s <;> cases h
      | succ t =>
          simp only [Protocol.World.step, deadlocked_unspawned] at h
          cases h
  | _ => cases hev

theorem deadlocked_stuck : ¬GoesOn serving deadlocked := by
  have hstreams (s : RecoveryRole) : ∀ e ∈ (deadlocked.app s).streams, e.1 = 1 := by
    cases s <;> decide
  have hstream {s : RecoveryRole} {i : Nat} (hi : i ≠ 1) : (deadlocked.app s).stream? i = none :=
    List.lookup_eq_none_iff.2 fun e he => by simpa [hstreams s e he] using hi
  rintro ⟨ev, w', h, hev, hne⟩
  -- Each event either has no step here or is an idle one of the network.
  refine hne ?_
  cases ev with
  | net e =>
      simp only [step] at h
      split at h
      · cases h
      · obtain ⟨net, hnet, rfl⟩ := Option.map_eq_some_iff.1 h
        rw [deadlocked_idle e net hnet hev]
  | accept s t =>
      cases t with
      | zero =>
          have hnone : ∀ s, step serving deadlocked (.accept s 0) = none := by
            rintro (_ | _) <;> decide
          cases (hnone s).symm.trans h
      | succ t =>
          simp only [step, deadlocked_unspawned] at h
          cases h
  | decode s i =>
      by_cases hi : i = 1
      · have hnone : ∀ s, step serving deadlocked (.decode s 1) = none := by
          rintro (_ | _) <;> decide
        subst hi
        cases (hnone s).symm.trans h
      · simp only [step, decodeStep, hstream hi] at h
        cases h
  | task s o act =>
      have hnone : ∀ s, step serving deadlocked (.task s (.handler 1) .take) = none ∧
          step serving deadlocked (.task s (.recvLoop 1) .take) = none := by
        rintro (_ | _) <;> decide
      cases act with
      | take =>
          cases o with
          | handler i =>
              by_cases hi : i = 1
              · subst hi
                cases (hnone s).1.symm.trans h
              · simp only [step, taskStep, App.pc?, hstream hi, Option.map_none] at h
                cases h
          | recvLoop i =>
              by_cases hi : i = 1
              · subst hi
                cases (hnone s).2.symm.trans h
              · simp only [step, taskStep, App.pc?, hstream hi, Option.map_none] at h
                cases h
          | sender k => cases hev
      | _ => cases o <;> cases hev
  | _ => cases hev

/-- Both sides wait: a reader for a stream whose handler waits for the ACK behind it. -/
theorem deadlock : ¬∀ config w t, (machine config).Reachable w → Protocol.Attached w.net t →
    (∀ s, Resting w s) → (∃ s, (w.net.ep s).held.isSome) → GoesOn config w := by
  intro hall
  refine deadlocked_stuck (hall serving deadlocked 0 deadlocked_reachable.reachable
    ⟨by decide, by decide, by decide⟩ ?_ ⟨.server, by decide⟩)
  rintro (_ | _) <;> exact ⟨by decide, by decide⟩

end AdaptiveMsg.Backpressure
