import AdaptiveMsg.Error
import AdaptiveMsg.Machine.Monitor
import Mathlib.Data.List.Chain

/-!
# Stream — receivers that share a stream

`recv`, `peek_wire` and `send_recv` on one stream, in any number of tasks at once, each dropped by
its caller at any await.  `recv_guard` lets one of them at the messages at a time; `peeked` keeps
the message that a peek has taken from the inbox, and `stale_replies` counts the requests that timed
out.  The decode task puts messages into the inbox, and the stream and the connection may close.
`recv` decodes its message after it has dropped the guard.

* `receive_lockStep`: what each operation does with the guard and the messages.
* `handed_out`: whatever is called and dropped, the messages are handed out once each and in the
  order in which they were put into the inbox; after a peek the next message handed out is the one
  it saw; and a message is discarded for each request that timed out, and for nothing else.
-/

namespace AdaptiveMsg.Receivers

open Machine.Pool

variable {μ : Type}

/-! ### The stream -/

inductive Kind where
  | recv
  | peekWire
  | sendRecv
  deriving DecidableEq, Repr

/-- What the callers see of the messages. -/
inductive Entry (μ : Type) where
  /-- `peek_wire` returns the wire name of the message. -/
  | wire (msg : μ)
  /-- `take_raw` returns the message to `recv` or `send_recv`. -/
  | taken (msg : μ)
  /-- The message was the late reply of a request that timed out. -/
  | discarded (msg : μ)
  deriving DecidableEq, Repr

structure Shared (μ : Type) where
  /-- The size of the inbox. -/
  capacity : Nat
  inbox : List μ
  recvActive : Bool
  peeked : Option μ
  staleReplies : Nat
  closed : Bool
  connectionClosed : Bool
  /-- What was put into the inbox (this and the rest is no state of the program). -/
  put : List μ
  log : List (Entry μ)
  /-- How many calls of `send_recv` have timed out. -/
  timedOut : Nat
  deriving DecidableEq

/-- The next operation of a call. -/
inductive Pc (μ : Type) where
  | recvGuard
  /-- The `send` of `send_recv`. -/
  | sending
  /-- The look at `peeked`. -/
  | peeked
  /-- `inbox_rx.lock()`, which nobody else holds. -/
  | inboxLock
  | tryRecv
  | checkClosed
  | tryRecvClosed
  | select
  | checkStale (msg : μ)
  | discard (msg : μ)
  | storePeeked (msg : μ)
  /-- `send_recv` has timed out. -/
  | countStale
  /-- `send_recv` decodes its reply, and answers with a protocol error if that fails. -/
  | decoding (msg : μ)
  /-- The guard is dropped. -/
  | unguard (result : Except Error μ)
  | returned (result : Except Error μ)
  | dropped
  deriving DecidableEq

inductive Task (μ : Type) where
  | call (kind : Kind) (pc : Pc μ)
  /-- The decode task, and what closes the stream and the connection. -/
  | stream
  deriving DecidableEq

inductive Act (μ : Type) where
  | go
  /-- What the call waits for fails. -/
  | fail (err : Error)
  /-- The call sees the stream or the connection closed. -/
  | seesClosed
  | timeout
  | drop
  | put (msg : μ)
  | close
  | closeConnection
  deriving DecidableEq

/-! ### Steps -/

/-- `try_recv` and `recv` of the inbox; `empty` is where the call goes on if there is no message. -/
def receive (s : Shared μ) (empty : Pc μ) : Shared μ × Pc μ :=
  match s.inbox with
  | msg :: inbox => ({ s with inbox := inbox }, .checkStale msg)
  | [] => (s, empty)

/-- `take_raw` returns. -/
def take (s : Shared μ) (msg : μ) (kind : Kind) : Shared μ × Pc μ :=
  ({ s with log := s.log ++ [.taken msg] },
    match kind with
    | .sendRecv => .decoding msg
    | .recv | .peekWire => .unguard (.ok msg))

def callStep (s : Shared μ) (kind : Kind) : Pc μ → Act μ → Option (Shared μ × Pc μ)
  | .recvGuard, .go =>
    some (if s.recvActive then (s, .returned (.error .concurrentRecv))
      else ({ s with recvActive := true }, if kind = .sendRecv then .sending else .peeked))
  | .sending, .go => some (s, .peeked)
  | .sending, .fail err => some (s, .unguard (.error err))
  | .peeked, .go =>
    some (match s.peeked, kind with
      | none, _ => (s, .inboxLock)
      | some msg, .peekWire => ({ s with log := s.log ++ [.wire msg] }, .unguard (.ok msg))
      | some msg, _ => take { s with peeked := none } msg kind)
  | .inboxLock, .go => some (s, .tryRecv)
  | .tryRecv, .go => some (receive s .checkClosed)
  | .checkClosed, .go => some (s, if s.closed then .tryRecvClosed else .select)
  | .tryRecvClosed, .go => some (receive s (.unguard (.error .closed)))
  | .select, .go => if s.inbox = [] then none else some (receive s .select)
  | .select, .seesClosed =>
    if s.closed ∨ s.connectionClosed then some (s, .unguard (.error .closed)) else none
  | .select, .timeout =>
    some (s, if kind = .sendRecv then .countStale else .unguard (.error .recvTimeout))
  | .checkStale msg, .go =>
    some (if s.staleReplies > 0 then (s, .discard msg)
      else if kind = .peekWire then (s, .storePeeked msg)
      else take s msg kind)
  | .discard msg, .go =>
    some ({ s with staleReplies := s.staleReplies - 1, log := s.log ++ [.discarded msg] }, .tryRecv)
  | .storePeeked msg, .go =>
    some ({ s with peeked := some msg, log := s.log ++ [.wire msg] }, .unguard (.ok msg))
  | .countStale, .go =>
    some ({ s with staleReplies := s.staleReplies + 1, timedOut := s.timedOut + 1 },
      .unguard (.error .recvTimeout))
  | .decoding msg, .go => some (s, .unguard (.ok msg))
  | .decoding _, .fail err => some (s, .unguard (.error err))
  | .unguard result, .go => some ({ s with recvActive := false }, .returned result)
  | .sending, .drop | .inboxLock, .drop | .select, .drop | .decoding _, .drop =>
    some ({ s with recvActive := false }, .dropped)
  | _, _ => none

def move (s : Shared μ) : Task μ → Act μ → Option (Shared μ × Task μ × List (Task μ))
  | .call kind pc, a => (callStep s kind pc a).map fun (s, pc) => (s, .call kind pc, [])
  | .stream, .put msg =>
    if s.inbox.length < s.capacity then
      some ({ s with inbox := s.inbox ++ [msg], put := s.put ++ [msg] }, .stream, [])
    else none
  | .stream, .close => some ({ s with closed := true }, .stream, [])
  | .stream, .closeConnection => some ({ s with connectionClosed := true }, .stream, [])
  | .stream, _ => none

def starts : Task μ → Bool
  | .call _ .recvGuard => true
  | _ => false

def program : Program (Shared μ) (Task μ) (Act μ) :=
  ⟨fun s _ _ t a => move s t a, fun _ t => starts t⟩

abbrev State (μ : Type) := Machine.Pool.State (Shared μ) (Task μ)

def initial (capacity : Nat) : State μ :=
  ⟨⟨capacity, [], false, none, 0, false, false, [], [], 0⟩, [.stream]⟩

def machine : Machine (State μ) (Event (Task μ) (Act μ)) where
  init c := ∃ capacity, c = initial capacity
  step := program.step

/-! ### The ledger -/

/-- The message that has left the stream with the entry. -/
def Entry.handed : Entry μ → Option μ
  | .wire _ => none
  | .taken msg | .discarded msg => some msg

/-- What may come after an entry: the message that was peeked is the next one. -/
def Entry.Then : Entry μ → Entry μ → Prop
  | .wire msg, e => e = .wire msg ∨ e = .taken msg
  | .taken _, _ | .discarded _, _ => True

def Entry.isDiscarded : Entry μ → Bool
  | .discarded _ => true
  | .wire _ | .taken _ => false

def Shared.handed (s : Shared μ) : List μ := s.log.filterMap Entry.handed

/-- Where each message is, with `hand` in the hands of a call. -/
structure Ledger (s : Shared μ) (hand : Option μ) : Prop where
  order : s.handed ++ hand.toList ++ s.peeked.toList ++ s.inbox = s.put
  chain : s.log.IsChain Entry.Then
  last : ∀ msg, s.log.getLast? = some (.wire msg) → s.peeked = some msg
  discards : s.log.countP Entry.isDiscarded + s.staleReplies = s.timedOut

/-- The call has the guard. -/
def Pc.guarded : Pc μ → Bool
  | .recvGuard | .returned _ | .dropped => false
  | _ => true

def Task.guarded : Task μ → Bool
  | .call _ pc => pc.guarded
  | .stream => false

/-- What holds while a call has the guard. -/
def At (s : Shared μ) : Pc μ → Prop
  | .checkStale msg | .storePeeked msg => Ledger s (some msg) ∧ s.peeked = none
  | .discard msg => Ledger s (some msg) ∧ s.peeked = none ∧ s.staleReplies ≠ 0
  | .inboxLock | .tryRecv | .checkClosed | .tryRecvClosed | .select | .countStale =>
    Ledger s none ∧ s.peeked = none
  | _ => Ledger s none

def Task.At (s : Shared μ) : Task μ → Prop
  | .call _ pc => Receivers.At s pc
  | .stream => True

section ledger

variable {s s' : Shared μ} {hand : Option μ} {msg : μ} {kind : Kind} {pc pc' : Pc μ} {a : Act μ}

/-- A peeked message is handed out next. -/
theorem Ledger.chain_snoc (h : Ledger s hand) {e : Entry μ}
    (he : ∀ msg, s.peeked = some msg → e = .wire msg ∨ e = .taken msg) :
    (s.log ++ [e]).IsChain Entry.Then := by
  refine h.chain.append (List.isChain_singleton e) fun x hx y hy => ?_
  obtain rfl := by simpa using hy
  cases x with
  | wire msg => exact he msg (h.last msg hx)
  | taken | discarded => trivial

theorem Ledger.put (h : Ledger s hand) (msg : μ) :
    Ledger { s with inbox := s.inbox ++ [msg], put := s.put ++ [msg] } hand where
  order := by
    rw [← h.order]
    simp [Shared.handed]
  chain := h.chain
  last := h.last
  discards := h.discards

/-- A change of what the ledger is not about. -/
theorem Ledger.congr (h : Ledger s hand) (hi : s'.inbox = s.inbox) (hp : s'.put = s.put)
    (hk : s'.peeked = s.peeked) (hl : s'.log = s.log) (hs : s'.staleReplies = s.staleReplies)
    (ht : s'.timedOut = s.timedOut) : Ledger s' hand where
  order := by rw [hi, hp, hk, Shared.handed, hl]; exact h.order
  chain := hl ▸ h.chain
  last := by rw [hl, hk]; exact h.last
  discards := by rw [hl, hs, ht]; exact h.discards

/-- The call takes the front of the inbox into its hands. -/
theorem Ledger.receive (h : Ledger s none) (hk : s.peeked = none) {inbox : List μ}
    (hi : s.inbox = msg :: inbox) : Ledger { s with inbox := inbox } (some msg) where
  order := by
    rw [← h.order, hi]
    simp [Shared.handed, hk]
  chain := h.chain
  last := h.last
  discards := h.discards

/-- The message in hand is handed out. -/
theorem Ledger.take (h : Ledger s (some msg)) (hk : s.peeked = none) :
    Ledger { s with log := s.log ++ [.taken msg] } none where
  order := by
    rw [← h.order]
    simp [Shared.handed, Entry.handed, hk]
  chain := h.chain_snoc (by simp [hk])
  last := by simp
  discards := by simpa [Entry.isDiscarded] using h.discards

/-- The peeked message is handed out. -/
theorem Ledger.takePeeked (h : Ledger s none) (hk : s.peeked = some msg) :
    Ledger { s with peeked := none, log := s.log ++ [.taken msg] } none where
  order := by
    rw [← h.order]
    simp [Shared.handed, Entry.handed, hk]
  chain := h.chain_snoc fun m hm => .inr (by rw [Option.some.inj (hk.symm.trans hm)])
  last := by simp
  discards := by simpa [Entry.isDiscarded] using h.discards

/-- The peeked message is seen again. -/
theorem Ledger.peekAgain (h : Ledger s none) (hk : s.peeked = some msg) :
    Ledger { s with log := s.log ++ [.wire msg] } none where
  order := by
    rw [← h.order]
    simp [Shared.handed, Entry.handed]
  chain := h.chain_snoc fun m hm => .inl (by rw [Option.some.inj (hk.symm.trans hm)])
  last := by simpa using hk
  discards := by simpa [Entry.isDiscarded] using h.discards

/-- The message in hand is kept as the peeked one. -/
theorem Ledger.storePeeked (h : Ledger s (some msg)) (hk : s.peeked = none) :
    Ledger { s with peeked := some msg, log := s.log ++ [.wire msg] } none where
  order := by
    rw [← h.order]
    simp [Shared.handed, Entry.handed, hk]
  chain := h.chain_snoc (by simp [hk])
  last := by simp
  discards := by simpa [Entry.isDiscarded] using h.discards

/-- The message in hand is the late reply of a request that timed out. -/
theorem Ledger.discard (h : Ledger s (some msg)) (hk : s.peeked = none) (hs : s.staleReplies ≠ 0) :
    Ledger { s with
      staleReplies := s.staleReplies - 1, log := s.log ++ [.discarded msg] } none where
  order := by
    rw [← h.order]
    simp [Shared.handed, Entry.handed, hk]
  chain := h.chain_snoc (by simp [hk])
  last := by simp
  discards := by
    have hd := h.discards
    simp only [List.countP_append, List.countP_singleton, Entry.isDiscarded, if_true]
    omega

theorem Ledger.countStale (h : Ledger s none) :
    Ledger { s with staleReplies := s.staleReplies + 1, timedOut := s.timedOut + 1 } none where
  order := h.order
  chain := h.chain
  last := h.last
  discards := by
    have hd := h.discards
    simp only
    omega

end ledger

/-! ### The guard -/

abbrev Step (s : Shared μ) (t : Task μ) (s' : Shared μ) (t' : Task μ) : Prop :=
  LockStep Task.guarded Shared.recvActive (Ledger · none) Task.At s t s' t'

section guard

variable {s s' : Shared μ} {msg : μ} {kind : Kind} {pc pc' : Pc μ} {a : Act μ} {c c' : State μ}
  {e : Event (Task μ) (Act μ)}

/-- A poll of the inbox by the call with the guard. -/
theorem receive_lockStep (empty : Pc μ) (hg : pc.guarded = true) (hge : empty.guarded = true)
    (hA : At s pc → Ledger s none ∧ s.peeked = none)
    (hE : Ledger s none ∧ s.peeked = none → At s empty) (h : receive s empty = (s', pc')) :
    Step s (.call kind pc) s' (.call kind pc') := by
  rw [receive] at h
  split at h
  · rename_i m inbox hi
    cases h
    exact .inside hg rfl rfl fun ha => ⟨(hA ha).1.receive (hA ha).2 hi, (hA ha).2⟩
  · cases h
    exact .inside hg hge rfl fun ha => hE (hA ha)

theorem take_lockStep (s₁ : Shared μ) (hg : pc.guarded = true) (hl : s₁.recvActive = s.recvActive)
    (hA : At s pc → Ledger { s₁ with log := s₁.log ++ [.taken msg] } none)
    (h : take s₁ msg kind = (s', pc')) : Step s (.call kind pc) s' (.call kind pc') := by
  simp only [take] at h
  cases h
  cases kind <;> exact .inside hg rfl hl hA

theorem drop_lockStep (hg : pc.guarded = true) (hA : At s pc → Ledger s none) :
    Step s (.call kind pc) { s with recvActive := false } (.call kind .dropped) :=
  .release hg rfl rfl fun ha => (hA ha).congr rfl rfl rfl rfl rfl rfl

/-- **Each operation of a call**, by what it does with the guard. -/
theorem call_lockStep (h : callStep s kind pc a = some (s', pc')) :
    Step s (.call kind pc) s' (.call kind pc') := by
  cases pc with
  | recvGuard =>
      cases a with
      | go =>
          simp only [callStep, Option.some.injEq] at h
          split at h
          · cases h
            exact .outside rfl rfl rfl (fun hI => hI) fun _ _ hA => hA
          · rename_i hfree
            cases h
            refine .acquire rfl ?_ (Bool.eq_false_iff.2 hfree) rfl fun hI => ?_
            · split <;> rfl
            · have hL : Ledger { s with recvActive := true } none :=
                hI.congr rfl rfl rfl rfl rfl rfl
              show At _ _
              split <;> exact hL
      | _ => cases h
  | sending =>
      cases a with
      | go | fail err =>
          cases h
          exact .inside rfl rfl rfl fun hA => hA
      | drop =>
          cases h
          exact drop_lockStep rfl fun hA => hA
      | _ => cases h
  | peeked =>
      cases a with
      | go =>
          simp only [callStep, Option.some.injEq] at h
          split at h
          · rename_i hk
            cases h
            exact .inside rfl rfl rfl fun hA => ⟨hA, hk⟩
          · rename_i m hk
            cases h
            exact .inside rfl rfl rfl fun hA => Ledger.peekAgain hA hk
          · rename_i m hk _
            have htake (hA : Ledger s none) := hA.takePeeked hk
            exact take_lockStep { s with peeked := none } rfl rfl htake h
      | _ => cases h
  | inboxLock =>
      cases a with
      | go =>
          cases h
          exact .inside rfl rfl rfl fun hA => hA
      | drop =>
          cases h
          exact drop_lockStep rfl And.left
      | _ => cases h
  | tryRecv =>
      cases a with
      | go =>
          exact receive_lockStep .checkClosed rfl rfl (fun hA => hA) (fun hA => hA)
            (Option.some.inj h)
      | _ => cases h
  | checkClosed =>
      cases a with
      | go =>
          cases h
          refine .inside rfl ?_ rfl fun hA => ?_
          · split <;> rfl
          · show At _ _
            split <;> exact hA
      | _ => cases h
  | tryRecvClosed =>
      cases a with
      | go =>
          exact receive_lockStep (.unguard (.error .closed)) rfl rfl (fun hA => hA) And.left
            (Option.some.inj h)
      | _ => cases h
  | select =>
      cases a with
      | go =>
          simp only [callStep] at h
          split at h
          · cases h
          · exact receive_lockStep .select rfl rfl (fun hA => hA) (fun hA => hA) (Option.some.inj h)
      | seesClosed =>
          simp only [callStep] at h
          split at h <;> cases h
          exact .inside rfl rfl rfl And.left
      | timeout =>
          cases h
          refine .inside rfl ?_ rfl fun hA => ?_
          · split <;> rfl
          · show At _ _
            split
            · exact hA
            · exact hA.1
      | drop =>
          cases h
          exact drop_lockStep rfl And.left
      | _ => cases h
  | checkStale msg =>
      cases a with
      | go =>
          simp only [callStep, Option.some.injEq] at h
          split at h
          · rename_i hs
            cases h
            exact .inside rfl rfl rfl fun hA => ⟨hA.1, hA.2, Nat.ne_of_gt hs⟩
          · split at h
            · cases h
              exact .inside rfl rfl rfl fun hA => hA
            · exact take_lockStep s rfl rfl (fun hA => hA.1.take hA.2) h
      | _ => cases h
  | discard msg =>
      cases a with
      | go =>
          cases h
          exact .inside rfl rfl rfl fun hA => ⟨hA.1.discard hA.2.1 hA.2.2, hA.2.1⟩
      | _ => cases h
  | storePeeked msg =>
      cases a with
      | go =>
          cases h
          exact .inside rfl rfl rfl fun hA => hA.1.storePeeked hA.2
      | _ => cases h
  | countStale =>
      cases a with
      | go =>
          cases h
          exact .inside rfl rfl rfl fun hA => hA.1.countStale
      | _ => cases h
  | decoding msg =>
      cases a with
      | go | fail err =>
          cases h
          exact .inside rfl rfl rfl fun hA => hA
      | drop =>
          cases h
          exact drop_lockStep rfl fun hA => hA
      | _ => cases h
  | unguard result =>
      cases a with
      | go =>
          cases h
          exact .release rfl rfl rfl fun hA => hA.congr rfl rfl rfl rfl rfl rfl
      | _ => cases h
  | returned result | dropped => cases a <;> cases h

/-- What the decode task and the closes do leaves the ledger of a call as it is. -/
theorem at_congr {f : Shared μ → Shared μ} (hf : ∀ hand, Ledger s hand → Ledger (f s) hand)
    (hk : (f s).peeked = s.peeked) (hs : (f s).staleReplies = s.staleReplies) {u : Task μ}
    (h : u.At s) : u.At (f s) := by
  cases u with
  | stream => trivial
  | call kind pc =>
      cases pc with
      | checkStale | storePeeked | inboxLock | tryRecv | checkClosed | tryRecvClosed | select
      | countStale => exact ⟨hf _ h.1, hk.trans h.2⟩
      | discard => exact ⟨hf _ h.1, hk.trans h.2.1, hs ▸ h.2.2⟩
      | _ => exact hf _ h

theorem move_lockStep {t t' : Task μ} {new : List (Task μ)} (h : move s t a = some (s', t', new)) :
    Step s t s' t' ∧ ∀ u ∈ new, u.guarded = false := by
  cases t with
  | call kind pc =>
      obtain ⟨⟨s₁, pc'⟩, hs, he⟩ := Option.map_eq_some_iff.1 h
      cases he
      exact ⟨call_lockStep hs, by simp⟩
  | stream =>
      cases a with
      | put msg =>
          simp only [move] at h
          split at h <;> cases h
          refine ⟨.outside rfl rfl rfl (·.put msg) fun u _ hu => ?_, by simp⟩
          exact at_congr (f := fun s => { s with inbox := s.inbox ++ [msg], put := s.put ++ [msg] })
            (fun _ hL => hL.put msg) rfl rfl hu
      | close =>
          cases h
          refine ⟨.outside rfl rfl rfl (·.congr rfl rfl rfl rfl rfl rfl) fun u _ hu => ?_, by simp⟩
          exact at_congr (f := fun s => { s with closed := true })
            (fun _ hL => hL.congr rfl rfl rfl rfl rfl rfl) rfl rfl hu
      | closeConnection =>
          cases h
          refine ⟨.outside rfl rfl rfl (·.congr rfl rfl rfl rfl rfl rfl) fun u _ hu => ?_, by simp⟩
          exact at_congr (f := fun s => { s with connectionClosed := true })
            (fun _ hL => hL.congr rfl rfl rfl rfl rfl rfl) rfl rfl hu
      | _ => cases h

abbrev Guarded (c : State μ) : Prop :=
  Monitor Task.guarded Shared.recvActive (Ledger · none) Task.At c

theorem starts_unguarded {t : Task μ} (h : starts t = true) : t.guarded = false := by
  cases t with
  | call kind pc =>
      cases pc with
      | recvGuard => rfl
      | _ => cases h
  | stream => rfl

theorem guarded_step (hG : Guarded c) (h : machine.step c e = some c') : Guarded c' :=
  hG.step h (fun _ _ _ _ _ _ _ _ hm => move_lockStep hm) fun _ ht => starts_unguarded ht

theorem guarded_reachable (h : machine.Reachable c) : Guarded c := by
  refine h.invariant ?_ fun _ _ _ hG _ hs => guarded_step hG hs
  rintro _ ⟨capacity, rfl⟩
  refine ⟨rfl, fun _ => ⟨rfl, .nil, by simp [initial], rfl⟩, fun u hu hg => ?_⟩
  rw [List.mem_singleton.1 hu] at hg
  cases hg

/-- The message in the hands of the call. -/
def Pc.hand : Pc μ → Option μ
  | .checkStale msg | .discard msg | .storePeeked msg => some msg
  | _ => none

theorem at_ledger (h : At s pc) (hg : pc.guarded = true) : Ledger s pc.hand := by
  cases pc with
  | checkStale | storePeeked | discard | inboxLock | tryRecv | checkClosed | tryRecvClosed | select
  | countStale => exact h.1
  | recvGuard | returned | dropped => cases hg
  | sending | peeked | decoding | unguard => exact h

end guard

/-! ### The result -/

structure HandedOut (c : State μ) : Prop where
  /-- One call at a time has the guard, and a call that has ended or was dropped has not. -/
  guard : c.tasks.countP Task.guarded = c.shared.recvActive.toNat
  /-- Each message was handed out, or is in the hands of a call, peeked, or in the inbox, in the
  order in which they were put there. -/
  order : ∃ hand : Option μ,
    (hand = none ∨ ∃ kind pc, .call kind pc ∈ c.tasks ∧ pc.guarded = true ∧ pc.hand = hand) ∧
      c.shared.handed ++ hand.toList ++ c.shared.peeked.toList ++ c.shared.inbox = c.shared.put
  /-- The next message handed out after a peek is the one that it saw. -/
  peeks : c.shared.log.IsChain Entry.Then
  /-- Of the requests that timed out, each has had a message discarded or will have. -/
  discards : c.shared.log.countP Entry.isDiscarded + c.shared.staleReplies = c.shared.timedOut

/-- **Messages are handed out once each and in order**, by any mix of calls. -/
theorem handed_out {c : State μ} (h : machine.Reachable c) : HandedOut c := by
  have hG := guarded_reachable h
  cases hr : c.shared.recvActive with
  | false =>
      have hL := hG.free hr
      exact ⟨hG.held, ⟨none, .inl rfl, hL.order⟩, hL.chain, hL.discards⟩
  | true =>
      obtain ⟨t, ht, hg⟩ := (hr ▸ hG.held).holder
      have hA := hG.holder t ht hg
      cases t with
      | stream => cases hg
      | call kind pc =>
          have hL := at_ledger hA hg
          exact ⟨hG.held, ⟨pc.hand, .inr ⟨kind, pc, ht, hg, rfl⟩, hL.order⟩, hL.chain, hL.discards⟩

/-- A request times out, a peek skips its late reply and sees the next message, and a `recv` that
comes at the same time fails; a `recv` that was dropped while it waited has taken nothing. -/
def mixedRun : List (Event (Task String) (Act String)) :=
  [.start (.call .sendRecv .recvGuard)] ++ List.replicate 6 (.task 1 .go) ++
  [.task 1 .timeout, .task 1 .go, .task 1 .go, .task 0 (.put "late"),
    .start (.call .recv .recvGuard), .task 2 .go, .task 2 .go, .task 2 .drop,
    .start (.call .peekWire .recvGuard)] ++ List.replicate 6 (.task 3 .go) ++
  [.start (.call .recv .recvGuard), .task 4 .go, .task 0 (.put "next")] ++
  List.replicate 4 (.task 3 .go)

theorem handed_out_mixed : ∃ c : State String, machine.Reachable c ∧
    c.shared.log = [.discarded "late", .wire "next"] ∧ c.shared.peeked = some "next" ∧
    HandedOut c := by
  have hr : machine.Reachable ((machine.exec (initial 8) mixedRun).getD (initial 8)) :=
    Machine.reachable_of_exec mixedRun ⟨8, rfl⟩ (by decide +kernel)
  exact ⟨_, hr, by decide +kernel, by decide +kernel, handed_out hr⟩

end AdaptiveMsg.Receivers
