import AdaptiveMsg.Error
import AdaptiveMsg.Machine.Ledger
import AdaptiveMsg.Machine.Run

/-!
# Stream — `send_recv` and late replies

One stream on which `send_recv` is the only call, against a peer that answers the requests in
order, one reply each.  A reply carries no request number: after a timeout the stream only counts
the reply it no longer waits for (`staleReplies`), and the receive loop drops that many messages.

Each look at a flag and each poll of the inbox is a step of its own, so a reply, a timeout and the
release of the stream may fall between any two of them; a message put between the select's poll of
the inbox and its look at `closed` stays unread.  The connection itself stays open, since the peer
answers every request over it.

* `Inv`: the requests from the first unanswered one up to the current call are exactly the ones
  that timed out, in order, and `staleReplies` is their number (`Ledger.Balanced`).
* `sendRecv_returns_own_reply`: a returned reply is the peer's reply to that request.
-/

namespace AdaptiveMsg.SendRecv

open AdaptiveMsg

/-! ### Messages and their decoding -/

structure RawMessage (β : Type) where
  wire : String
  body : β
  deriving DecidableEq

/-- `expected_wire_name::<ErrorReply>()`. -/
def errorReplyWireName : String := "am.message.ErrorReply"

/-- What `decode_raw_as` uses of a message type: its wire name and its codec's `decode_into`. -/
structure MessageDecode (β τ : Type) where
  wireNameStatic : String
  decodeInto : β → Except Error τ

variable {β τ : Type}

def decodeRawAs (d : MessageDecode β τ) (raw : RawMessage β) : Except Error τ :=
  if raw.wire ≠ d.wireNameStatic then .error (.typeMismatch d.wireNameStatic raw.wire)
  else d.decodeInto raw.body

/-- The end of `send_recv`: what it returns for the message it took, and whether it answers the
message with a protocol error, which closes the stream. -/
def sendRecvResult (errorReply : β → Except Error (String × String)) (resp : MessageDecode β τ)
    (raw : RawMessage β) : Except Error τ × Bool :=
  if raw.wire = errorReplyWireName then
    match decodeRawAs ⟨errorReplyWireName, errorReply⟩ raw with
    | .ok (code, message) => (.error (.remote code message), false)
    | .error err => (.error err, true)
  else
    match decodeRawAs resp raw with
    | .ok value => (.ok value, false)
    | .error err => (.error err, true)

/-- The errors of `send`. -/
inductive SendError where
  | closed
  | codec (message : String)
  | frameTooLarge (len : Nat)
  deriving DecidableEq

def SendError.toError : SendError → Error
  | .closed => .closed
  | .codec message => .codec message
  | .frameTooLarge len => .frameTooLarge len

/-! ### The stream -/

/-- Where a receive is: `take_raw`, then `next_inbox`, whose select polls the inbox again each time
it is woken. -/
inductive RecvPc where
  | take
  | tryRecv
  | checkClosed
  | tryRecvClosed
  | selectInbox
  | selectClosed
  | selectTimeout
  deriving DecidableEq

/-- Where the current call of `send_recv` is. -/
inductive Phase (β τ : Type) where
  | idle
  /-- Before `send_boxed` looks at `closed`. -/
  | sending (resp : MessageDecode β τ)
  /-- The frame is encoded and queued. -/
  | queuing (resp : MessageDecode β τ)
  | receiving (resp : MessageDecode β τ) (pc : RecvPc)

/-- A call that has returned: the request it sent, if it got that far, and its result. -/
structure Returned (β τ : Type) where
  request : Option Nat
  resp : MessageDecode β τ
  result : Except Error τ

structure State (β τ : Type) where
  recvActive : Bool
  staleReplies : Nat
  peeked : Option (RawMessage β)
  inbox : List (RawMessage β)
  closed : Bool
  phase : Phase β τ
  /-- The requests sent, numbered from 0. -/
  sent : Nat
  /-- The peer's replies, in the order in which the decode task queues them. -/
  replies : List (RawMessage β)
  timedOut : List Nat
  returned : List (Returned β τ)

def initial : State β τ where
  recvActive := false
  staleReplies := 0
  peeked := none
  inbox := []
  closed := false
  phase := .idle
  sent := 0
  replies := []
  timedOut := []
  returned := []

inductive Event (β τ : Type) where
  /-- A call begins: `recv_guard`. -/
  | call (resp : MessageDecode β τ)
  /-- `send_boxed` looks at `closed`. -/
  | checkSend
  /-- The frame is queued, or its encoding or `enqueue_frame` fails. -/
  | sent (result : Except SendError Unit)
  /-- The peer's next reply reaches the inbox. -/
  | reply (raw : RawMessage β)
  /-- The peer's FIN releases the stream. -/
  | release
  /-- The next operation of the receive. -/
  | goOn
  /-- The select sees that the stream is closed. -/
  | recvClosed
  /-- The timer of the select is polled after the deadline. -/
  | timeout

namespace State

variable (s : State β τ)

/-- The call returns, which drops its recv guard. -/
def finish (request : Option Nat) (resp : MessageDecode β τ) (result : Except Error τ) :
    State β τ :=
  { s with
    recvActive := false, phase := .idle
    returned := s.returned ++ [⟨request, resp, result⟩] }

/-- The call takes `raw` as its reply. -/
def finishWith (errorReply : β → Except Error (String × String)) (resp : MessageDecode β τ)
    (raw : RawMessage β) : State β τ :=
  let out := sendRecvResult errorReply resp raw
  { s with closed := s.closed || out.2 }.finish (some (s.sent - 1)) resp out.1

/-- `read_raw` has `raw` from the inbox. -/
def readRaw (errorReply : β → Except Error (String × String)) (resp : MessageDecode β τ)
    (raw : RawMessage β) : State β τ :=
  if s.staleReplies > 0 then
    { s with staleReplies := s.staleReplies - 1, phase := .receiving resp .tryRecv }
  else s.finishWith errorReply resp raw

/-- A poll of the inbox, and what the receive does if it is empty. -/
def poll (errorReply : β → Except Error (String × String)) (resp : MessageDecode β τ)
    (empty : State β τ) : State β τ :=
  match s.inbox with
  | raw :: inbox => { s with inbox := inbox }.readRaw errorReply resp raw
  | [] => empty

/-- The receive returns `Closed`. -/
def recvClosed (resp : MessageDecode β τ) : State β τ :=
  s.finish (some (s.sent - 1)) resp (.error .closed)

/-- The next operation of the receive. -/
def goOn (errorReply : β → Except Error (String × String)) (resp : MessageDecode β τ) :
    RecvPc → State β τ
  | .take =>
    match s.peeked with
    | some raw => { s with peeked := none }.finishWith errorReply resp raw
    | none => { s with phase := .receiving resp .tryRecv }
  | .tryRecv => s.poll errorReply resp { s with phase := .receiving resp .checkClosed }
  | .checkClosed =>
    { s with phase := .receiving resp (if s.closed then .tryRecvClosed else .selectInbox) }
  | .tryRecvClosed => s.poll errorReply resp (s.recvClosed resp)
  | .selectInbox => s.poll errorReply resp { s with phase := .receiving resp .selectClosed }
  -- After its first poll `wait_closed` waits for the notification, which comes after the flag.
  | .selectClosed => { s with phase := .receiving resp .selectTimeout }
  | .selectTimeout => { s with phase := .receiving resp .selectInbox }

/-- The replies taken from the inbox so far. -/
def consumed : Nat := s.replies.length - s.inbox.length

/-- The timed-out requests whose reply has not been taken. -/
def lateReplies : List Nat := s.timedOut.filter (s.consumed ≤ ·)

end State

/-- One step of the stream. -/
def step (errorReply : β → Except Error (String × String)) (s : State β τ) :
    Event β τ → Option (State β τ)
  | .call resp =>
    match s.phase with
    | .idle =>
      if s.recvActive then some (s.finish none resp (.error .concurrentRecv))
      else some { s with recvActive := true, phase := .sending resp }
    | _ => none
  | .checkSend =>
    match s.phase with
    | .sending resp =>
      some (if s.closed then s.finish none resp (.error .closed)
        else { s with phase := .queuing resp })
    | _ => none
  | .sent result =>
    match s.phase, result with
    | .queuing resp, .error err => some (s.finish none resp (.error err.toError))
    | .queuing resp, .ok () => some { s with phase := .receiving resp .take, sent := s.sent + 1 }
    | _, _ => none
  | .reply raw =>
    if s.replies.length < s.sent then
      some { s with inbox := s.inbox ++ [raw], replies := s.replies ++ [raw] }
    else none
  | .release => some { s with closed := true }
  | .goOn =>
    match s.phase with
    | .receiving resp pc => some (s.goOn errorReply resp pc)
    | _ => none
  | .recvClosed =>
    match s.phase with
    | .receiving resp .selectClosed => if s.closed then some (s.recvClosed resp) else none
    | _ => none
  | .timeout =>
    match s.phase with
    | .receiving resp .selectTimeout =>
      some ({ s with
        staleReplies := s.staleReplies + 1
        timedOut := s.timedOut ++ [s.sent - 1] }.finish (some (s.sent - 1)) resp
          (.error .recvTimeout))
    | _ => none

/-- The runs of a stream on which only `send_recv` is called. -/
def machine (errorReply : β → Except Error (String × String)) :
    Machine (State β τ) (Event β τ) where
  init s := s = initial
  step := step errorReply

/-! ### What one event does -/

variable {errorReply : β → Except Error (String × String)} {s s' : State β τ} {e : Event β τ}

inductive Step (errorReply : β → Except Error (String × String)) (s : State β τ) :
    State β τ → Prop where
  | refuse (resp) (hph : s.phase = .idle) :
      Step errorReply s (s.finish none resp (.error .concurrentRecv))
  | call (resp) (hph : s.phase = .idle) :
      Step errorReply s { s with recvActive := true, phase := .sending resp }
  | sendClosed (resp) (hph : s.phase = .sending resp) (hc : s.closed = true) :
      Step errorReply s (s.finish none resp (.error .closed))
  | checked (resp) (hph : s.phase = .sending resp) (hc : s.closed = false) :
      Step errorReply s { s with phase := .queuing resp }
  | sendFails (resp err) (hph : s.phase = .queuing resp) :
      Step errorReply s (s.finish none resp (.error (SendError.toError err)))
  | sent (resp) (hph : s.phase = .queuing resp) :
      Step errorReply s { s with phase := .receiving resp .take, sent := s.sent + 1 }
  | reply (raw) (hlt : s.replies.length < s.sent) :
      Step errorReply s { s with inbox := s.inbox ++ [raw], replies := s.replies ++ [raw] }
  | release : Step errorReply s { s with closed := true }
  | takePeeked (resp pc raw) (hph : s.phase = .receiving resp pc) (hp : s.peeked = some raw) :
      Step errorReply s ({ s with peeked := none }.finishWith errorReply resp raw)
  | wait (resp pc pc') (hph : s.phase = .receiving resp pc)
      (hpc : pc' = .tryRecvClosed → s.closed = true) :
      Step errorReply s { s with phase := .receiving resp pc' }
  | discard (resp pc raw inbox) (hph : s.phase = .receiving resp pc) (hin : s.inbox = raw :: inbox)
      (hst : 0 < s.staleReplies) :
      Step errorReply s { s with
        staleReplies := s.staleReplies - 1, inbox := inbox, phase := .receiving resp .tryRecv }
  | take (resp pc raw inbox) (hph : s.phase = .receiving resp pc) (hin : s.inbox = raw :: inbox)
      (hst : s.staleReplies = 0) :
      Step errorReply s ({ s with inbox := inbox }.finishWith errorReply resp raw)
  | recvClosed (resp pc) (hph : s.phase = .receiving resp pc)
      (hc : pc = .tryRecvClosed ∨ s.closed = true) :
      Step errorReply s (s.recvClosed resp)
  | timeout (resp pc) (hph : s.phase = .receiving resp pc) :
      Step errorReply s ({ s with
        staleReplies := s.staleReplies + 1
        timedOut := s.timedOut ++ [s.sent - 1] }.finish (some (s.sent - 1)) resp
          (.error .recvTimeout))

theorem step_poll {resp : MessageDecode β τ} {pc : RecvPc} (hph : s.phase = .receiving resp pc)
    {empty : State β τ} (he : Step errorReply s empty) :
    Step errorReply s (s.poll errorReply resp empty) := by
  simp only [State.poll]
  split
  case h_1 raw inbox hin =>
    simp only [State.readRaw]
    split
    case isTrue hst => exact .discard resp pc raw inbox hph hin hst
    case isFalse hst => exact .take resp pc raw inbox hph hin (Nat.eq_zero_of_not_pos hst)
  case h_2 => exact he

theorem step_goOn {resp : MessageDecode β τ} {pc : RecvPc} (hph : s.phase = .receiving resp pc) :
    Step errorReply s (s.goOn errorReply resp pc) := by
  cases pc with
  | take =>
      simp only [State.goOn]
      split
      case h_1 raw hp => exact .takePeeked resp .take raw hph hp
      case h_2 => exact .wait resp .take .tryRecv hph nofun
  | tryRecv => exact step_poll hph (.wait resp _ _ hph nofun)
  | checkClosed =>
      refine .wait resp .checkClosed _ hph fun hpc => ?_
      by_contra hc
      rw [if_neg hc] at hpc
      cases hpc
  | tryRecvClosed => exact step_poll hph (.recvClosed resp _ hph (.inl rfl))
  | selectInbox => exact step_poll hph (.wait resp _ _ hph nofun)
  | selectClosed => exact .wait resp _ _ hph nofun
  | selectTimeout => exact .wait resp _ _ hph nofun

theorem step_cases (h : step errorReply s e = some s') : Step errorReply s s' := by
  cases e <;> simp only [step] at h
  case call resp =>
    split at h
    · split at h <;> cases h
      · exact .refuse resp ‹_›
      · exact .call resp ‹_›
    · cases h
  case checkSend =>
    split at h
    case h_1 resp hph =>
      cases h
      split
      case isTrue hc => exact .sendClosed resp hph hc
      case isFalse hc => exact .checked resp hph (by simpa using hc)
    case h_2 => cases h
  case sent result =>
    split at h <;> cases h
    · exact .sendFails _ _ ‹_›
    · exact .sent _ ‹_›
  case reply raw =>
    split at h <;> cases h
    exact .reply raw ‹_›
  case release => cases h; exact .release
  case goOn =>
    split at h <;> cases h
    exact step_goOn ‹_›
  case recvClosed =>
    split at h
    · split at h <;> cases h
      exact .recvClosed _ _ ‹_› (.inr ‹_›)
    · cases h
  case timeout =>
    split at h <;> cases h
    exact .timeout _ _ ‹_›

/-! ### The counter and the replies outstanding -/

/-- The last `try_recv` of a receive comes after it has seen `closed`. -/
def SeesClosed (s : State β τ) : Prop :=
  ∀ resp, s.phase = .receiving resp .tryRecvClosed → s.closed = true

theorem seesClosed_step (hS : SeesClosed s) (h : Step errorReply s s') : SeesClosed s' := by
  cases h with
  | wait resp pc pc' hph hpc =>
      intro resp' h
      cases h
      exact hpc rfl
  | reply => exact hS
  | release => exact fun _ _ => rfl
  | _ => exact nofun

/-- Whether the call has not got past the check of `send_boxed`, or there is none. -/
def Phase.unsent : Phase β τ → Bool
  | .idle | .sending _ => true
  | _ => false

/-- The request of a call that receives, of the `sent` so far. -/
def Phase.current (sent : Nat) : Phase β τ → Option Nat
  | .receiving _ _ => some (sent - 1)
  | _ => none

/-- What the calls have asked, with the requests that timed out given up. -/
def State.ledger (s : State β τ) : Ledger (RawMessage β) where
  inbox := s.inbox
  replies := s.replies
  asked := s.sent
  stale := s.staleReplies
  givenUp := s.timedOut
  current := s.phase.current s.sent

/-- The invariant of the stream.  A call that sees it closed may leave replies in the inbox, and no
later call gets to receive. -/
structure Inv (s : State β τ) : Prop where
  peeked : s.peeked = none
  balanced : s.ledger.Balanced (s.closed = true ∧ s.phase.unsent = true)

theorem inv_initial : Inv (initial : State β τ) where
  peeked := rfl
  balanced := ⟨List.suffix_refl _, Nat.le_refl 0, nofun, Nat.le_refl 0, rfl, .inr ⟨rfl, rfl⟩⟩

theorem Inv.congr (hI : Inv s) (hp : s'.peeked = s.peeked) (hl : s'.ledger = s.ledger)
    (hlost : s.closed = true → s.phase.unsent = true →
      s'.closed = true ∧ s'.phase.unsent = true) : Inv s' :=
  ⟨hp.trans hI.peeked, hl ▸ hI.balanced.mono fun h => hlost h.1 h.2⟩

/-- A call that receives waits for the last request, and its reply is to be taken. -/
theorem waits {resp : MessageDecode β τ} {pc : RecvPc} (hph : s.phase = .receiving resp pc) :
    ¬(s.closed = true ∧ s.phase.unsent = true) ∧ s.ledger.current = some (s.sent - 1) := by
  simp [State.ledger, hph, Phase.current, Phase.unsent]

theorem inv_step (hS : SeesClosed s) (hI : Inv s) (h : Step errorReply s s') : Inv s' := by
  cases h with
  | refuse resp hph | call resp hph | sendClosed resp hph hc =>
      exact hI.congr rfl (by simp [State.ledger, State.finish, hph, Phase.current])
        fun hc _ => ⟨hc, rfl⟩
  | checked resp hph hc =>
      exact hI.congr rfl (by simp [State.ledger, hph, Phase.current])
        fun hc' _ => absurd (hc.symm.trans hc') (by simp)
  | sendFails resp err hph =>
      exact hI.congr rfl (by simp [State.ledger, State.finish, hph, Phase.current])
        fun _ hun => by simp [hph, Phase.unsent] at hun
  | sent resp hph =>
      have hnone : s.ledger.current = none := by simp [State.ledger, hph, Phase.current]
      exact ⟨hI.peeked, hI.balanced.ask (by simp [hph, Phase.unsent]) hnone⟩
  | reply raw hlt => exact ⟨hI.peeked, hI.balanced.reply raw hlt⟩
  | release => exact hI.congr rfl rfl fun _ hun => ⟨rfl, hun⟩
  | takePeeked resp pc raw hph hp =>
      rw [hI.peeked] at hp
      cases hp
  | wait resp pc pc' hph hpc =>
      exact hI.congr rfl (by simp [State.ledger, hph, Phase.current])
        fun _ hun => by simp [hph, Phase.unsent] at hun
  | discard resp pc raw inbox hph hin hst =>
      obtain ⟨hlost, hcur⟩ := waits hph
      exact ⟨hI.peeked, hI.balanced.discard hlost hcur hin hst⟩
  | take resp pc raw inbox hph hin hst =>
      obtain ⟨hlost, hcur⟩ := waits hph
      exact ⟨hI.peeked, hI.balanced.take hlost hcur hin hst⟩
  | recvClosed resp pc hph hc =>
      have hclosed : s.closed = true := hc.elim (fun hpc => hS resp (hpc ▸ hph)) id
      exact ⟨hI.peeked, hI.balanced.stop (waits hph).2 ⟨hclosed, rfl⟩⟩
  | timeout resp pc hph =>
      obtain ⟨hlost, hcur⟩ := waits hph
      exact ⟨hI.peeked, hI.balanced.giveUp hlost hcur⟩

theorem seesClosed_of_reachable (h : (machine errorReply).Reachable s) : SeesClosed s :=
  h.invariant (fun _ h₀ => by cases h₀; nofun)
    fun _ _ _ hS _ hs => seesClosed_step hS (step_cases hs)

theorem inv_of_reachable (h : (machine errorReply).Reachable s) : Inv s :=
  h.invariant_of (fun _ hr => seesClosed_of_reachable hr)
    (fun _ h₀ => by cases h₀; exact inv_initial)
    fun _ _ _ hS hI _ hs => inv_step hS hI (step_cases hs)

/-! ### What a call returns -/

/-- The call returned a reply: `Ok` or `Error::Remote`. -/
def Returned.IsReply (r : Returned β τ) : Prop :=
  match r.result with
  | .ok _ | .error (.remote _ _) => True
  | .error _ => False

/-- The call returned what `send_recv` makes of the reply to its own request. -/
def Returned.IsOwn (errorReply : β → Except Error (String × String))
    (replies : List (RawMessage β)) (r : Returned β τ) : Prop :=
  ∃ k raw, r.request = some k ∧ replies[k]? = some raw ∧
    r.result = (sendRecvResult errorReply r.resp raw).1

theorem Returned.IsOwn.mono {replies replies' : List (RawMessage β)} {r : Returned β τ}
    (hp : replies <+: replies') (h : r.IsOwn errorReply replies) : r.IsOwn errorReply replies' := by
  obtain ⟨k, raw, hk, hr, he⟩ := h
  obtain ⟨later, rfl⟩ := hp
  obtain ⟨hlt, -⟩ := List.getElem?_eq_some_iff.mp hr
  exact ⟨k, raw, hk, by rw [List.getElem?_append_left hlt, hr], he⟩

/-- A step returns from at most one call; if that call returns a reply, it is its own. -/
theorem returned_step (hI : Inv s) (h : Step errorReply s s') :
    s.replies <+: s'.replies ∧ (s'.returned = s.returned ∨
      ∃ r, s'.returned = s.returned ++ [r] ∧ (r.IsReply → r.IsOwn errorReply s.replies)) := by
  cases h with
  | refuse | sendClosed | recvClosed | timeout =>
      exact ⟨List.prefix_rfl, .inr ⟨_, rfl, False.elim⟩⟩
  | sendFails resp err hph =>
      refine ⟨List.prefix_rfl, .inr ⟨_, rfl, fun hr => ?_⟩⟩
      cases err <;> exact hr.elim
  | reply raw hlt => exact ⟨List.prefix_append _ _, .inl rfl⟩
  | takePeeked resp pc raw hph hp =>
      rw [hI.peeked] at hp
      cases hp
  | take resp pc raw inbox hph hin hst =>
      obtain ⟨hlost, hcur⟩ := waits hph
      have hraw : s.replies[s.sent - 1]? = some raw := hI.balanced.head hlost hcur hin hst
      exact ⟨List.prefix_rfl, .inr ⟨_, rfl, fun _ => ⟨s.sent - 1, raw, rfl, hraw, rfl⟩⟩⟩
  | _ => exact ⟨List.prefix_rfl, .inl rfl⟩

/-- Every reply returned so far went to its own request. -/
def State.RepliesOwn (errorReply : β → Except Error (String × String)) (s : State β τ) : Prop :=
  ∀ r ∈ s.returned, r.IsReply → r.IsOwn errorReply s.replies

theorem repliesOwn_step (hI : Inv s) (hown : s.RepliesOwn errorReply)
    (h : Step errorReply s s') : s'.RepliesOwn errorReply := by
  obtain ⟨hp, hret⟩ := returned_step hI h
  intro r' hr' hrep
  rcases hret with he | ⟨r, he, hr⟩ <;> rw [he] at hr'
  · exact (hown r' hr' hrep).mono hp
  · rcases List.mem_append.mp hr' with hr' | hr'
    · exact (hown r' hr' hrep).mono hp
    · rw [List.mem_singleton.mp hr'] at hrep ⊢
      exact (hr hrep).mono hp

/-- **A reply is returned to its own request**, whatever calls timed out before and whenever
their replies arrive; and `staleReplies` counts the timed-out requests whose reply has not been
taken from the inbox. -/
theorem sendRecv_returns_own_reply (h : (machine errorReply).Reachable s) :
    s.RepliesOwn errorReply ∧ s.staleReplies = s.lateReplies.length :=
  ⟨h.invariant_of (fun _ hr => inv_of_reachable hr) (fun _ h₀ => by cases h₀; nofun)
    fun _ _ _ hI hown _ hs => repliesOwn_step hI hown (step_cases hs),
    (inv_of_reachable h).balanced.counted⟩

/-- A message type whose values are the bodies. -/
def plain : MessageDecode String String := ⟨"am.test.Reply", .ok⟩

/-- A call begins, and its request is queued. -/
def asks : List (Event String String) := [.call plain, .checkSend, .sent (.ok ()), .goOn]

/-- The receive finds the inbox empty, and is in the select. -/
def parks : List (Event String String) := [.goOn, .goOn, .goOn, .goOn]

/-- Two calls time out, and the second has dropped the reply to the first; the reply to the second
arrives during the third call, before its own. -/
def lateRun : List (Event String String) :=
  asks ++ parks ++ [.timeout] ++
    asks ++ parks ++ [.reply ⟨"am.test.Reply", "first"⟩, .goOn, .goOn] ++ parks ++ [.timeout] ++
    asks ++ [.reply ⟨"am.test.Reply", "second"⟩, .goOn] ++ parks ++
    [.reply ⟨"am.test.Reply", "third"⟩, .goOn, .goOn]

theorem sendRecv_returns_own_reply_lateRun :
    ∃ s : State String String,
      (machine fun _ => .ok ("handler_error", "")).exec initial lateRun = some s ∧
      s.returned.map (·.result.toOption) = [none, none, some "third"] ∧
      s.RepliesOwn (fun _ => .ok ("handler_error", "")) ∧
      s.staleReplies = s.lateReplies.length :=
  ⟨_, rfl, rfl, sendRecv_returns_own_reply (Machine.reachable_of_exec lateRun rfl rfl)⟩

end AdaptiveMsg.SendRecv
