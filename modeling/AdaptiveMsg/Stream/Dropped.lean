import AdaptiveMsg.Stream.SendRecv

/-!
# Stream — `send_recv` dropped by its caller

The stream of `Stream.SendRecv`, with every point at which the future of `send_recv` may be dropped:
the send lock, the room in `outbound_tx`, the writer's answer (with recovery), the lock of the inbox,
the receive, and the reply to a message that does not decode.  `send_recv` counts a late reply where
`take_raw` returns `RecvTimeout`, and nowhere else.

* `dropped_counted_iff`: in the runs that meet `NotAbandoned`, `stale_replies` counts the requests
  nobody waits for any more, and every reply is returned to its own request; a step after which the
  count is wrong is one that does not meet it.  The receive guard is released by every drop.
* `reply_shifted`: a call dropped while it receives shifts the reply of the next one.
-/

namespace AdaptiveMsg.Dropped

open SendRecv

variable {β τ : Type}

/-! ### The stream -/

/-- Where the current call of `send_recv` waits. -/
inductive Phase (β τ : Type) where
  | idle
  | sendLock (resp : MessageDecode β τ)
  /-- For room in `outbound_tx`. -/
  | channel (resp : MessageDecode β τ)
  /-- For the writer's answer, which may have been given. -/
  | answer (resp : MessageDecode β τ) (result : Option (Except SendError Nat))
  | inboxLock (resp : MessageDecode β τ) (request : Nat)
  | receiving (resp : MessageDecode β τ) (request : Nat)
  /-- `protocol_error`, for a reply that does not decode. -/
  | protocolError (resp : MessageDecode β τ) (request : Nat) (result : Except Error τ)

/-- The call's request, while it has been accepted for sending and its reply has not been taken. -/
def Phase.request : Phase β τ → Option Nat
  | .answer _ (some (.ok request)) | .inboxLock _ request | .receiving _ request => some request
  | _ => none

structure State (β τ : Type) where
  /-- Whether the connection has recovery, so that the writer answers. -/
  recovery : Bool
  recvActive : Bool
  staleReplies : Nat
  peeked : Option (RawMessage β)
  inbox : List (RawMessage β)
  closed : Bool
  phase : Phase β τ
  /-- With recovery: the calls whose frames the writer has to answer for. -/
  outbound : List Nat
  calls : Nat
  /-- The requests accepted for sending, numbered from 0. -/
  accepted : Nat
  /-- The peer's replies, in the order in which the decode task queues them. -/
  replies : List (RawMessage β)
  /-- The accepted requests that timed out, or whose call was dropped. -/
  abandoned : List Nat
  returned : List (Returned β τ)

def initial (recovery : Bool) : State β τ where
  recovery := recovery
  recvActive := false
  staleReplies := 0
  peeked := none
  inbox := []
  closed := false
  phase := .idle
  outbound := []
  calls := 0
  accepted := 0
  replies := []
  abandoned := []
  returned := []

inductive Event (β τ : Type) where
  /-- A call begins: `recv_guard`. -/
  | call (resp : MessageDecode β τ)
  /-- The call has the send lock; the checks of `send_boxed` and the encoding follow. -/
  | locked (checks : Except SendError Unit)
  /-- `outbound_tx` has room, or is closed. -/
  | room
  | channelClosed
  /-- The writer keeps the next frame, or fails on it. -/
  | writerAccepts
  | writerRefuses (err : SendError)
  /-- The call sees the writer's answer. -/
  | answered
  | inboxLocked
  /-- The peer's next reply reaches the inbox. -/
  | reply (raw : RawMessage β)
  /-- The peer's FIN releases the stream. -/
  | release
  | recv
  | recvClosed
  | timeout
  | protocolErrorEnds
  /-- The caller drops the future. -/
  | drop

namespace State

variable (s : State β τ)

/-- The call returns, which drops its recv guard. -/
def finish (request : Option Nat) (resp : MessageDecode β τ) (result : Except Error τ) :
    State β τ :=
  { s with
    recvActive := false, phase := .idle
    returned := s.returned ++ [⟨request, resp, result⟩] }

/-- The call takes `raw` as its reply. -/
def finishWith (errorReply : β → Except Error (String × String)) (resp : MessageDecode β τ)
    (request : Nat) (raw : RawMessage β) : State β τ :=
  let out := sendRecvResult errorReply resp raw
  if out.2 then { s with phase := .protocolError resp request out.1 }
  else s.finish (some request) resp out.1

/-- The message type of the call that waits for the answer on the next frame, unless that frame is
of a call that was dropped. -/
def frontWaits : Option (MessageDecode β τ) :=
  match s.phase, s.outbound with
  | .answer resp none, call :: _ => if call + 1 = s.calls then some resp else none
  | _, _ => none

/-- The replies taken from the inbox so far. -/
def consumed : Nat := s.replies.length - s.inbox.length

/-- The abandoned requests whose reply has not been taken. -/
def lateReplies : List Nat := s.abandoned.filter (s.consumed ≤ ·)

end State

/-- One step of the stream. -/
def step (errorReply : β → Except Error (String × String)) (s : State β τ) :
    Event β τ → Option (State β τ)
  | .call resp =>
    match s.phase with
    | .idle =>
      let s := { s with calls := s.calls + 1 }
      if s.recvActive then some (s.finish none resp (.error .concurrentRecv))
      else some { s with recvActive := true, phase := .sendLock resp }
    | _ => none
  | .locked checks =>
    match s.phase, checks with
    | .sendLock resp, .error err => some (s.finish none resp (.error err.toError))
    | .sendLock resp, .ok () => if s.closed then none else some { s with phase := .channel resp }
    | _, _ => none
  | .room =>
    match s.phase with
    | .channel resp =>
      if s.recovery then
        some { s with outbound := s.outbound ++ [s.calls - 1], phase := .answer resp none }
      else some { s with accepted := s.accepted + 1, phase := .inboxLock resp s.accepted }
    | _ => none
  | .channelClosed =>
    match s.phase with
    | .channel resp => some (s.finish none resp (.error .closed))
    | _ => none
  | .writerAccepts =>
    if s.outbound = [] then none
    else
      let s' := { s with outbound := s.outbound.tail, accepted := s.accepted + 1 }
      match s.frontWaits with
      | some resp => some { s' with phase := .answer resp (some (.ok s.accepted)) }
      | none => some { s' with abandoned := s.abandoned ++ [s.accepted] }
  | .writerRefuses err =>
    if s.outbound = [] then none
    else
      let s' := { s with outbound := s.outbound.tail }
      match s.frontWaits with
      | some resp => some { s' with phase := .answer resp (some (.error err)) }
      | none => some s'
  | .answered =>
    match s.phase with
    | .answer resp (some (.ok request)) => some { s with phase := .inboxLock resp request }
    | .answer resp (some (.error err)) => some (s.finish none resp (.error err.toError))
    | _ => none
  | .inboxLocked =>
    match s.phase, s.peeked with
    -- `take_raw` looks at the peeked message first; the recv guard keeps others from it.
    | .inboxLock resp request, some raw =>
      some ({ s with peeked := none }.finishWith errorReply resp request raw)
    | .inboxLock resp request, none => some { s with phase := .receiving resp request }
    | _, _ => none
  | .reply raw =>
    -- The decode task has ended once it has released the stream.
    if s.replies.length < s.accepted ∧ s.closed = false then
      some { s with inbox := s.inbox ++ [raw], replies := s.replies ++ [raw] }
    else none
  | .release => some { s with closed := true }
  | .recv =>
    match s.phase, s.inbox with
    | .receiving resp request, raw :: inbox =>
      if s.staleReplies > 0 then
        some { s with staleReplies := s.staleReplies - 1, inbox := inbox }
      else some ({ s with inbox := inbox }.finishWith errorReply resp request raw)
    | _, _ => none
  | .recvClosed =>
    match s.phase with
    | .receiving resp request =>
      if s.closed then some (s.finish (some request) resp (.error .closed)) else none
    | _ => none
  | .timeout =>
    match s.phase with
    | .receiving resp request =>
      some ({ s with
        staleReplies := s.staleReplies + 1
        abandoned := s.abandoned ++ [request] }.finish (some request) resp (.error .recvTimeout))
    | _ => none
  | .protocolErrorEnds =>
    match s.phase with
    | .protocolError resp request result =>
      some ({ s with closed := true }.finish (some request) resp result)
    | _ => none
  | .drop =>
    match s.phase with
    | .idle => none
    | phase =>
      some { s with
        recvActive := false, phase := .idle
        abandoned := s.abandoned ++ phase.request.toList }

/-- The runs of a stream on which only `send_recv` is called, and dropped anywhere. -/
def machine (errorReply : β → Except Error (String × String)) :
    Machine (State β τ) (Event β τ) where
  init s := ∃ recovery, s = initial recovery
  step := step errorReply

/-- No request is abandoned but by its timeout: a call is not dropped between the acceptance of its
frame and its reply, and the frame of a dropped call is not accepted. -/
def NotAbandoned (s : State β τ) : Event β τ → Prop
  | .drop => s.phase.request = none
  | .writerAccepts => s.frontWaits.isSome
  | _ => True

instance NotAbandoned.decidable (s : State β τ) : ∀ e, Decidable (NotAbandoned s e)
  | .drop => inferInstanceAs (Decidable (s.phase.request = none))
  | .writerAccepts => inferInstanceAs (Decidable (s.frontWaits.isSome = true))
  | .call _ | .locked _ | .room | .channelClosed | .writerRefuses _ | .answered | .inboxLocked
  | .reply _ | .release | .recv | .recvClosed | .timeout | .protocolErrorEnds => isTrue trivial

/-- `stale_replies` counts the replies that nobody waits for any more. -/
def State.Counted (s : State β τ) : Prop := s.staleReplies = s.lateReplies.length

/-- Every reply returned so far went to its own request. -/
def State.RepliesOwn (errorReply : β → Except Error (String × String)) (s : State β τ) : Prop :=
  ∀ r ∈ s.returned, r.IsReply → r.IsOwn errorReply s.replies

/-! ### What one event does -/

variable {errorReply : β → Except Error (String × String)} {s s' : State β τ} {e : Event β τ}

inductive Step (errorReply : β → Except Error (String × String)) (s : State β τ) :
    Event β τ → State β τ → Prop where
  | refuse (resp) (hph : s.phase = .idle) (ha : s.recvActive = true) :
      Step errorReply s (.call resp)
        ({ s with calls := s.calls + 1 }.finish none resp (.error .concurrentRecv))
  | call (resp) (hph : s.phase = .idle) :
      Step errorReply s (.call resp)
        { s with calls := s.calls + 1, recvActive := true, phase := .sendLock resp }
  | sendFails (resp err) (hph : s.phase = .sendLock resp) :
      Step errorReply s (.locked (.error err)) (s.finish none resp (.error err.toError))
  | locked (resp) (hph : s.phase = .sendLock resp) (hc : s.closed = false) :
      Step errorReply s (.locked (.ok ())) { s with phase := .channel resp }
  | queue (resp) (hph : s.phase = .channel resp) :
      Step errorReply s .room
        { s with outbound := s.outbound ++ [s.calls - 1], phase := .answer resp none }
  | accept (resp) (hph : s.phase = .channel resp) :
      Step errorReply s .room
        { s with accepted := s.accepted + 1, phase := .inboxLock resp s.accepted }
  | channelClosed (resp) (hph : s.phase = .channel resp) :
      Step errorReply s .channelClosed (s.finish none resp (.error .closed))
  | writerAccepts (resp) (hf : s.frontWaits = some resp) :
      Step errorReply s .writerAccepts
        { s with
          outbound := s.outbound.tail, accepted := s.accepted + 1
          phase := .answer resp (some (.ok s.accepted)) }
  | acceptsDropped (hf : s.frontWaits = none) :
      Step errorReply s .writerAccepts
        { s with
          outbound := s.outbound.tail, accepted := s.accepted + 1
          abandoned := s.abandoned ++ [s.accepted] }
  | writerRefuses (resp err) (hf : s.frontWaits = some resp) :
      Step errorReply s (.writerRefuses err)
        { s with outbound := s.outbound.tail, phase := .answer resp (some (.error err)) }
  | refusesDropped (err) :
      Step errorReply s (.writerRefuses err) { s with outbound := s.outbound.tail }
  | answeredOk (resp request) (hph : s.phase = .answer resp (some (.ok request))) :
      Step errorReply s .answered { s with phase := .inboxLock resp request }
  | answeredError (resp err) (hph : s.phase = .answer resp (some (.error err))) :
      Step errorReply s .answered (s.finish none resp (.error err.toError))
  | takePeeked (resp request raw) (hph : s.phase = .inboxLock resp request)
      (hp : s.peeked = some raw) :
      Step errorReply s .inboxLocked
        ({ s with peeked := none }.finishWith errorReply resp request raw)
  | inboxLocked (resp request) (hph : s.phase = .inboxLock resp request) :
      Step errorReply s .inboxLocked { s with phase := .receiving resp request }
  | reply (raw) (hlt : s.replies.length < s.accepted) (hc : s.closed = false) :
      Step errorReply s (.reply raw)
        { s with inbox := s.inbox ++ [raw], replies := s.replies ++ [raw] }
  | release : Step errorReply s .release { s with closed := true }
  | discard (resp request raw inbox) (hph : s.phase = .receiving resp request)
      (hin : s.inbox = raw :: inbox) (hst : 0 < s.staleReplies) :
      Step errorReply s .recv { s with staleReplies := s.staleReplies - 1, inbox := inbox }
  | take (resp request raw inbox) (hph : s.phase = .receiving resp request)
      (hin : s.inbox = raw :: inbox) (hst : s.staleReplies = 0) :
      Step errorReply s .recv ({ s with inbox := inbox }.finishWith errorReply resp request raw)
  | recvClosed (resp request) (hph : s.phase = .receiving resp request) (hc : s.closed = true) :
      Step errorReply s .recvClosed (s.finish (some request) resp (.error .closed))
  | timeout (resp request) (hph : s.phase = .receiving resp request) :
      Step errorReply s .timeout ({ s with
        staleReplies := s.staleReplies + 1
        abandoned := s.abandoned ++ [request] }.finish (some request) resp (.error .recvTimeout))
  | protocolErrorEnds (resp request result) (hph : s.phase = .protocolError resp request result) :
      Step errorReply s .protocolErrorEnds
        ({ s with closed := true }.finish (some request) resp result)
  | drop (hph : s.phase ≠ .idle) :
      Step errorReply s .drop { s with
        recvActive := false, phase := .idle
        abandoned := s.abandoned ++ s.phase.request.toList }

theorem step_cases (h : step errorReply s e = some s') : Step errorReply s e s' := by
  cases e <;> simp only [step] at h
  case call resp =>
    split at h
    · split at h <;> cases h
      · exact .refuse resp ‹_› ‹_›
      · exact .call resp ‹_›
    · cases h
  case locked checks =>
    split at h
    · cases h; exact .sendFails _ _ ‹_›
    · split at h <;> cases h
      exact .locked _ ‹_› (by simpa using ‹¬ s.closed = true›)
    · cases h
  case room =>
    split at h
    · split at h <;> cases h
      · exact .queue _ ‹_›
      · exact .accept _ ‹_›
    · cases h
  case channelClosed =>
    split at h <;> cases h
    exact .channelClosed _ ‹_›
  case writerAccepts =>
    split at h
    · cases h
    · split at h <;> cases h
      · exact .writerAccepts _ ‹_›
      · exact .acceptsDropped ‹_›
  case writerRefuses err =>
    split at h
    · cases h
    · split at h <;> cases h
      · exact .writerRefuses _ err ‹_›
      · exact .refusesDropped err
  case answered =>
    split at h <;> cases h
    · exact .answeredOk _ _ ‹_›
    · exact .answeredError _ _ ‹_›
  case inboxLocked =>
    split at h <;> cases h
    · exact .takePeeked _ _ _ ‹_› ‹_›
    · exact .inboxLocked _ _ ‹_›
  case reply raw =>
    split at h <;> cases h
    case isTrue hr => exact .reply raw hr.1 hr.2
  case release => cases h; exact .release
  case recv =>
    split at h
    · split at h <;> cases h
      · exact .discard _ _ _ _ ‹_› ‹_› ‹_›
      · exact .take _ _ _ _ ‹_› ‹_› (Nat.eq_zero_of_not_pos ‹_›)
    · cases h
  case recvClosed =>
    split at h
    · split at h <;> cases h
      exact .recvClosed _ _ ‹_› ‹_›
    · cases h
  case timeout =>
    split at h <;> cases h
    exact .timeout _ _ ‹_›
  case protocolErrorEnds =>
    split at h <;> cases h
    exact .protocolErrorEnds _ _ _ ‹_›
  case drop =>
    split at h <;> cases h
    exact .drop ‹_›

/-! ### The counter and the replies outstanding -/

/-- Whether the call has not sent anything yet, or there is none. -/
def Phase.unsent : Phase β τ → Bool
  | .idle | .sendLock _ => true
  | _ => false

/-- What the calls have asked, with the abandoned requests given up. -/
def State.ledger (s : State β τ) : Ledger (RawMessage β) where
  inbox := s.inbox
  replies := s.replies
  asked := s.accepted
  stale := s.staleReplies
  givenUp := s.abandoned
  current := s.phase.request

/-- The invariant of the runs that meet `NotAbandoned`.  A call that sees the stream closed may
leave replies in the inbox, and no later call gets to send. -/
structure Inv (s : State β τ) : Prop where
  peeked : s.peeked = none
  balanced : s.ledger.Balanced (s.closed = true ∧ s.phase.unsent = true)

theorem Inv.counted (hI : Inv s) : s.Counted := hI.balanced.counted

theorem inv_initial (recovery : Bool) : Inv (initial recovery : State β τ) where
  peeked := rfl
  balanced := ⟨List.suffix_refl _, Nat.le_refl 0, nofun, Nat.le_refl 0, rfl, .inr ⟨rfl, rfl⟩⟩

theorem Inv.congr (hI : Inv s) (hp : s'.peeked = s.peeked) (hl : s'.ledger = s.ledger)
    (hlost : s.closed = true → s.phase.unsent = true →
      s'.closed = true ∧ s'.phase.unsent = true) : Inv s' :=
  ⟨hp.trans hI.peeked, hl ▸ hI.balanced.mono fun h => hlost h.1 h.2⟩

/-- A call whose request was accepted has sent, and its reply is to be taken. -/
theorem Phase.sent_of_request {phase : Phase β τ} {k : Nat} (h : phase.request = some k) :
    phase.unsent = false := by
  cases phase <;> first | rfl | cases h

theorem not_lost (h : s.phase.unsent = false) : ¬(s.closed = true ∧ s.phase.unsent = true) := by
  simp [h]

theorem ledger_finishWith (resp : MessageDecode β τ) (k : Nat) (raw : RawMessage β) :
    (s.finishWith errorReply resp k raw).ledger = { s.ledger with current := none } := by
  simp only [State.finishWith]
  split <;> rfl

theorem phase_of_frontWaits {resp : MessageDecode β τ} (h : s.frontWaits = some resp) :
    s.phase = .answer resp none := by
  unfold State.frontWaits at h
  split at h
  · split at h <;> cases h
    assumption
  · cases h

theorem inv_step (hI : Inv s) (hC : NotAbandoned s e) (h : Step errorReply s e s') : Inv s' := by
  cases h with
  | refuse resp hph | call resp hph | sendFails resp err hph =>
      exact hI.congr rfl (by simp [State.ledger, State.finish, hph, Phase.request])
        fun hc _ => ⟨hc, rfl⟩
  | locked resp hph hcl =>
      exact hI.congr rfl (by simp [State.ledger, hph, Phase.request])
        fun hc _ => absurd (hcl.symm.trans hc) (by simp)
  | queue resp hph | channelClosed resp hph =>
      exact hI.congr rfl (by simp [State.ledger, State.finish, hph, Phase.request])
        fun _ hun => by simp [hph, Phase.unsent] at hun
  | accept resp hph =>
      exact ⟨hI.peeked, hI.balanced.ask (not_lost (by rw [hph]; rfl)) (congrArg Phase.request hph)⟩
  | writerAccepts resp hf =>
      have hph := phase_of_frontWaits hf
      exact ⟨hI.peeked, hI.balanced.ask (not_lost (by rw [hph]; rfl)) (congrArg Phase.request hph)⟩
  | acceptsDropped hf =>
      simp only [NotAbandoned, hf] at hC
      cases hC
  | writerRefuses resp err hf =>
      have hph := phase_of_frontWaits hf
      exact hI.congr rfl (by simp [State.ledger, hph, Phase.request])
        fun _ hun => by simp [hph, Phase.unsent] at hun
  | refusesDropped err => exact hI.congr rfl rfl fun hc hun => ⟨hc, hun⟩
  | answeredOk resp request hph | inboxLocked resp request hph =>
      exact hI.congr rfl (by simp [State.ledger, hph, Phase.request])
        fun _ hun => by simp [hph, Phase.unsent] at hun
  | answeredError resp err hph =>
      exact hI.congr rfl (by simp [State.ledger, State.finish, hph, Phase.request])
        fun _ hun => by simp [hph, Phase.unsent] at hun
  | takePeeked resp request raw hph hp =>
      rw [hI.peeked] at hp
      cases hp
  | reply raw hlt hc => exact ⟨hI.peeked, hI.balanced.reply raw hlt⟩
  | release => exact hI.congr rfl rfl fun _ hun => ⟨rfl, hun⟩
  | discard resp request raw inbox hph hin hst =>
      have hl : State.ledger { s with staleReplies := s.staleReplies - 1, inbox := inbox } =
          { s.ledger with
            stale := s.ledger.stale - 1, inbox := inbox, current := some request } := by
        simp [State.ledger, hph, Phase.request]
      refine ⟨hI.peeked, ?_⟩
      rw [hl]
      exact hI.balanced.discard (not_lost (by rw [hph]; rfl)) (congrArg Phase.request hph) hin hst
  | take resp request raw inbox hph hin hst =>
      refine ⟨?_, ?_⟩
      · simp only [State.finishWith]
        split <;> exact hI.peeked
      · rw [ledger_finishWith]
        exact hI.balanced.take (not_lost (by rw [hph]; rfl)) (congrArg Phase.request hph) hin hst
  | recvClosed resp request hph hc =>
      exact ⟨hI.peeked, hI.balanced.stop (congrArg Phase.request hph) ⟨hc, rfl⟩⟩
  | timeout resp request hph =>
      exact ⟨hI.peeked,
        hI.balanced.giveUp (not_lost (by rw [hph]; rfl)) (congrArg Phase.request hph)⟩
  | protocolErrorEnds resp request result hph =>
      exact hI.congr rfl (by simp [State.ledger, State.finish, hph, Phase.request])
        fun _ hun => by simp [hph, Phase.unsent] at hun
  | drop hph =>
      have hreq : s.phase.request = none := hC
      refine hI.congr rfl ?_ fun hc hun => ⟨hc, rfl⟩
      rw [State.ledger, State.ledger, hreq]
      simp [Phase.request]

theorem inv_of_reachableUnder (h : (machine errorReply).ReachableUnder NotAbandoned s) : Inv s :=
  h.invariant (by rintro _ ⟨recovery, rfl⟩; exact inv_initial recovery)
    fun _ _ _ hI hC hs => inv_step hI hC (step_cases hs)

/-- An abandoned request is not counted. -/
theorem not_counted_of_abandon (hI : Inv s) (ht : s'.ledger.taken = s.ledger.taken) {k : Nat}
    (hab : s'.abandoned = s.abandoned ++ [k]) (hst : s'.staleReplies = s.staleReplies)
    (hk : s.ledger.taken ≤ k) : ¬ s'.Counted := by
  have hlate : s'.lateReplies = s.ledger.late ++ [k] := Ledger.late_append hab ht hk
  have hcount : s.staleReplies = s.ledger.late.length := hI.counted
  rw [State.Counted, hst, hlate, List.length_append, hcount]
  simp

/-- **The exact condition, for one step.** -/
theorem counted_step (hI : Inv s) (h : Step errorReply s e s') :
    s'.Counted ↔ NotAbandoned s e := by
  refine ⟨fun hcount => ?_, fun hC => (inv_step hI hC h).counted⟩
  cases h with
  | drop hph =>
      by_contra hreq
      obtain ⟨k, hk⟩ := Option.ne_none_iff_exists'.mp hreq
      rw [hk] at hcount
      refine absurd hcount (not_counted_of_abandon hI rfl rfl rfl ?_)
      obtain ⟨-, hle⟩ := hI.balanced.waiting (not_lost (Phase.sent_of_request hk)) hk
      omega
  | acceptsDropped hf =>
      refine absurd hcount (not_counted_of_abandon hI rfl rfl rfl ?_)
      exact (Nat.sub_le _ _).trans hI.balanced.answered
  | writerAccepts resp hf => exact Option.isSome_iff_exists.mpr ⟨resp, hf⟩
  | _ => trivial

/-! ### What a call returns -/

/-- What is returned, or is about to be, is made of the reply to the call's own request. -/
structure Own (errorReply : β → Except Error (String × String)) (s : State β τ) : Prop where
  returned : s.RepliesOwn errorReply
  failing : ∀ resp k result, s.phase = .protocolError resp k result →
    ∃ raw, s.replies[k]? = some raw ∧ result = (sendRecvResult errorReply resp raw).1

theorem Own.congr (hO : Own errorReply s) (hp : s.replies <+: s'.replies)
    (hret : s'.returned = s.returned)
    (hph : ∀ resp k result, s'.phase = .protocolError resp k result →
      s.phase = .protocolError resp k result) : Own errorReply s' := by
  refine ⟨fun r hr hrep => (hO.returned r (hret ▸ hr) hrep).mono hp, fun resp k result h => ?_⟩
  obtain ⟨raw, hraw, hres⟩ := hO.failing resp k result (hph resp k result h)
  obtain ⟨later, hl⟩ := hp
  obtain ⟨hlt, -⟩ := List.getElem?_eq_some_iff.mp hraw
  exact ⟨raw, by rw [← hl, List.getElem?_append_left hlt, hraw], hres⟩

/-- A call returns. -/
theorem Own.finish (hO : Own errorReply s) {r : Returned β τ} (hrep : s'.replies = s.replies)
    (hret : s'.returned = s.returned ++ [r]) (hph : s'.phase = .idle)
    (hr : r.IsReply → r.IsOwn errorReply s.replies) : Own errorReply s' := by
  refine ⟨fun r' hr' hreply => ?_, fun _ _ _ h => by rw [hph] at h; cases h⟩
  rw [hret] at hr'
  rw [hrep]
  rcases List.mem_append.mp hr' with hr' | hr'
  · exact hO.returned r' hr' hreply
  · rw [List.mem_singleton.mp hr'] at hreply ⊢
    exact hr hreply

theorem not_isReply_of_send (request : Option Nat) (resp : MessageDecode β τ) (err : SendError) :
    ¬ (⟨request, resp, .error err.toError⟩ : Returned β τ).IsReply := by
  cases err <;> exact id

theorem own_step (hI : Inv s) (hO : Own errorReply s) (h : Step errorReply s e s') :
    Own errorReply s' := by
  cases h with
  | refuse resp hph => exact hO.finish rfl rfl rfl False.elim
  | sendFails resp err hph | answeredError resp err hph =>
      exact hO.finish rfl rfl rfl fun hr => absurd hr (not_isReply_of_send none resp err)
  | channelClosed resp hph | recvClosed resp request hph hc | timeout resp request hph =>
      exact hO.finish rfl rfl rfl False.elim
  | takePeeked resp request raw hph hp =>
      rw [hI.peeked] at hp
      cases hp
  | take resp request raw inbox hph hin hst =>
      -- with no late reply to come, the front of the inbox is the call's own
      have hraw : s.replies[request]? = some raw :=
        hI.balanced.head (not_lost (by rw [hph]; rfl)) (congrArg Phase.request hph) hin hst
      simp only [State.finishWith]
      split
      · refine ⟨hO.returned, fun resp' k result h => ?_⟩
        cases h
        exact ⟨raw, hraw, rfl⟩
      · exact hO.finish rfl rfl rfl fun _ => ⟨request, raw, rfl, hraw, rfl⟩
  | protocolErrorEnds resp request result hph =>
      obtain ⟨raw, hraw, hres⟩ := hO.failing resp request result hph
      exact hO.finish rfl rfl rfl fun _ => ⟨request, raw, rfl, hraw, hres⟩
  | reply raw hlt hc => exact hO.congr (List.prefix_append _ _) rfl fun _ _ _ h => h
  | acceptsDropped | refusesDropped | release | discard =>
      exact hO.congr List.prefix_rfl rfl fun _ _ _ h => h
  | _ => exact hO.congr List.prefix_rfl rfl nofun

/-! ### The receive guard -/

/-- The guard is held exactly while a call is in progress. -/
def Guarded (s : State β τ) : Prop := s.recvActive = true ↔ s.phase ≠ .idle

theorem guarded_finishWith (hg : Guarded s) (hph : s.phase ≠ .idle) (resp : MessageDecode β τ)
    (k : Nat) (raw : RawMessage β) : Guarded (s.finishWith errorReply resp k raw) := by
  simp only [State.finishWith]
  split
  · simpa [Guarded] using hg.mpr hph
  · simp [Guarded, State.finish]

theorem guarded_step (hg : Guarded s) (h : Step errorReply s e s') : Guarded s' := by
  cases h with
  | takePeeked resp request raw hph hp =>
      exact guarded_finishWith (s := { s with peeked := none }) hg (by simp [hph]) resp request raw
  | take resp request raw inbox hph hin hst =>
      exact guarded_finishWith (s := { s with inbox := inbox }) hg (by simp [hph]) resp request raw
  | locked resp hph | queue resp hph | accept resp hph | answeredOk resp request hph
  | inboxLocked resp request hph =>
      simpa [Guarded, hph] using hg
  | writerAccepts resp hf | writerRefuses resp err hf =>
      simpa [Guarded, phase_of_frontWaits hf] using hg
  | acceptsDropped | refusesDropped | reply | release | discard => exact hg
  | _ => simp [Guarded, State.finish]

/-- **When a dropped `send_recv` shifts no reply.**  In the runs that meet `NotAbandoned` the late
replies are counted and every reply goes to its own request; after a step that does not meet it, the
count is wrong.  The receive guard is held while a call is in progress and not longer, wherever calls
are dropped. -/
theorem dropped_counted_iff (errorReply : β → Except Error (String × String)) :
    (∀ s : State β τ, (machine errorReply).ReachableUnder NotAbandoned s →
      s.Counted ∧ s.RepliesOwn errorReply) ∧
    (∀ (s s' : State β τ) (e : Event β τ), (machine errorReply).ReachableUnder NotAbandoned s →
      step errorReply s e = some s' → (s'.Counted ↔ NotAbandoned s e)) ∧
    ∀ s : State β τ, (machine errorReply).Reachable s → Guarded s := by
  refine ⟨fun s h => ?_, fun s s' e h hs => ?_, fun s h => ?_⟩
  · have hO : Own errorReply s := by
      refine h.invariant_of (fun _ hr => inv_of_reachableUnder hr) ?_
        fun _ _ _ hI hO _ hs => own_step hI hO (step_cases hs)
      rintro _ ⟨recovery, rfl⟩
      exact ⟨fun _ hr => absurd hr List.not_mem_nil, fun _ _ _ h => by cases h⟩
    exact ⟨(inv_of_reachableUnder h).counted, hO.returned⟩
  · exact counted_step (inv_of_reachableUnder h) (step_cases hs)
  · refine h.invariant ?_ fun _ _ _ hg _ hs => guarded_step hg (step_cases hs)
    rintro _ ⟨recovery, rfl⟩
    simp [Guarded, initial]

/-- With recovery: a call is dropped while it waits for room, and the next one returns its reply. -/
def droppedInTime : List (Event String String) :=
  [.call plain, .locked (.ok ()), .drop, .call plain, .locked (.ok ()), .room, .writerAccepts,
    .answered, .inboxLocked, .reply ⟨"am.test.Reply", "own"⟩, .recv]

theorem dropped_counted_iff_inTime : ∃ s : State String String,
    (machine fun _ => .ok ("handler_error", "")).exec (initial true) droppedInTime = some s ∧
      s.returned.map (fun r => r.result.toOption) = [some "own"] ∧ s.Counted ∧
      s.RepliesOwn fun _ => .ok ("handler_error", "") := by
  refine ⟨_, rfl, rfl, (dropped_counted_iff _).1 _ ?_⟩
  exact Machine.ReachableUnder.exec droppedInTime (.init ⟨true, rfl⟩) rfl (by decide)

/-- A call is dropped while it receives. -/
def dropsIt : List (Event String String) :=
  [.call plain, .locked (.ok ()), .room, .inboxLocked, .drop]

/-- The next call, and the replies to both. -/
def nextCall : List (Event String String) :=
  [.call plain, .locked (.ok ()), .room, .inboxLocked, .reply ⟨"am.test.Reply", "first"⟩,
    .reply ⟨"am.test.Reply", "second"⟩, .recv]

/-- The dropped call's reply is not discarded: the next call returns it. -/
theorem reply_shifted : ∃ s s' : State String String,
    (machine fun _ => .ok ("handler_error", "")).exec (initial false) dropsIt = some s ∧
      s.accepted = 1 ∧ ¬ s.Counted ∧
    (machine fun _ => .ok ("handler_error", "")).exec s nextCall = some s' ∧
      s'.returned.map (fun r => (r.request, r.result.toOption)) = [(some 1, some "first")] ∧
      ¬ s'.RepliesOwn fun _ => .ok ("handler_error", "") := by
  refine ⟨_, _, rfl, rfl, fun h => Nat.zero_ne_one h, rfl, rfl, fun hown => ?_⟩
  obtain ⟨k, raw, hk, hraw, hres⟩ := hown _ (List.mem_singleton.mpr rfl) trivial
  cases hk
  cases hraw
  exact absurd (congrArg Except.toOption hres) (by decide)

end AdaptiveMsg.Dropped
