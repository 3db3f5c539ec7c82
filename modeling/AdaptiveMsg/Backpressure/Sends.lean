import AdaptiveMsg.Backpressure.Model

/-!
# Backpressure — sends and the locks of streams

What sends is a task that only sends, or a task of a stream (`User`).  In every run, whatever
`send_lock` is held, some send holds it: `locks_reachable`.  So a send waits only while frames are
still to be put in the replay buffer: its own, or that of the send that has the lock
(`sendStep_none`).
-/

namespace AdaptiveMsg.Backpressure

/-! ### Streams -/

section streams

variable {a : App} {i j : Nat} {st st' : Stream}

theorem lookup_map_set (l : List (Nat × Stream)) :
    (l.map fun e => if e.1 = i then (i, st') else e).lookup j =
      if j = i then (l.lookup i).map fun _ => st' else l.lookup j := by
  induction l with
  | nil => simp
  | cons e l ih =>
      obtain ⟨k, st⟩ := e
      by_cases hk : k = i
      · subst hk
        by_cases hj : j = k
        · simp [hj]
        · have hne : (j == k) = false := beq_eq_false_iff_ne.2 hj
          rw [if_neg hj] at ih
          simp only [List.map_cons, if_true, List.lookup_cons, hne, if_neg hj]
          exact ih
      · by_cases hj : j = i
        · subst hj
          have hne : (j == k) = false := beq_eq_false_iff_ne.2 (Ne.symm hk)
          rw [if_pos rfl] at ih
          simp only [List.map_cons, if_neg hk, List.lookup_cons, hne, if_true]
          exact ih
        · rw [if_neg hj] at ih
          simp only [List.map_cons, if_neg hk, List.lookup_cons, if_neg hj, ih]

theorem stream?_setStream (h : a.stream? i = some st) :
    (a.setStream i st').stream? j = if j = i then some st' else a.stream? j := by
  have hmap : (a.setStream i st').stream? j = _ := lookup_map_set a.streams
  rw [show a.streams.lookup i = some st from h] at hmap
  exact hmap

theorem stream?_setStream_self (h : a.stream? i = some st) :
    (a.setStream i st').stream? i = some st' := by
  rw [stream?_setStream h, if_pos rfl]

theorem mem_streams (h : a.stream? i = some st) : (i, st) ∈ a.streams := by
  obtain ⟨l₁, l₂, he, -⟩ := List.lookup_eq_some_iff.1 h
  rw [he]
  exact List.mem_append_right _ List.mem_cons_self

end streams

/-! ### Who sends -/

/-- The tasks of a stream. -/
inductive Part where
  | handler
  | recvLoop
  | decode
  deriving DecidableEq, Repr

/-- Whatever may be inside a send. -/
inductive User where
  | sender (k : Nat)
  | stream (i : Nat) (part : Part)
  deriving DecidableEq, Repr

def Owner.user : Owner → User
  | .handler i => .stream i .handler
  | .recvLoop i => .stream i .recvLoop
  | .sender k => .sender k

def TaskPc.send? : TaskPc → Option Sending
  | .sending send _ => some send
  | .ready | .running => none

def DecodePc.send? : DecodePc → Option Sending
  | .failing _ send _ => some send
  | .receiving | .handing _ _ | .ended => none

def Stream.send? (st : Stream) : Part → Option Sending
  | .handler => st.handler.send?
  | .recvLoop => st.recvLoop.send?
  | .decode => st.decode.send?

namespace App

variable (a : App)

def send? : User → Option Sending
  | .sender k => a.senders[k]?.bind TaskPc.send?
  | .stream i part => (a.stream? i).bind fun st => st.send? part

def Locked (i : Nat) : Prop := ∃ st, a.stream? i = some st ∧ st.sendLocked = true

end App

/-- The send holds the `send_lock` of stream `i`. -/
def Sending.Holds (i : Nat) : Sending → Prop
  | .locking _ => False
  | .queuing frame => frame.streamId = i
  | .queued j _ => j = i

/-- Whatever lock is held, a send holds it. -/
def LocksHeld (a : App) : Prop := ∀ i, a.Locked i → ∃ u send, a.send? u = some send ∧ send.Holds i

/-! ### Steps of one side -/

/-- No send moves. -/
structure SameSends (a a' : App) : Prop where
  sends : ∀ u, a'.send? u = a.send? u
  locked : ∀ i, a'.Locked i → a.Locked i

/-- Only `u` moves, and it holds the locks that are taken. -/
structure SendsStep (a a' : App) (u : User) : Prop where
  other : ∀ u' ≠ u, a'.send? u' = a.send? u'
  locked : ∀ i, a'.Locked i → (∃ send, a'.send? u = some send ∧ send.Holds i) ∨
    (a.Locked i ∧ ∀ send, a.send? u = some send → ¬send.Holds i)

section side

variable {a a' : App} {u : User} {i : Nat} {st st' : Stream}

theorem SendsStep.locksHeld (h : SendsStep a a' u) (hI : LocksHeld a) : LocksHeld a' := by
  intro i hi
  rcases h.locked i hi with ⟨send, hsend, hholds⟩ | ⟨hlocked, hnot⟩
  · exact ⟨u, send, hsend, hholds⟩
  · obtain ⟨u', send, hsend, hholds⟩ := hI i hlocked
    have hne : u' ≠ u := fun he => hnot send (he ▸ hsend) hholds
    exact ⟨u', send, (h.other u' hne).trans hsend, hholds⟩

theorem SameSends.locksHeld (h : SameSends a a') (hI : LocksHeld a) : LocksHeld a' := by
  intro i hi
  obtain ⟨u, send, hsend, hholds⟩ := hI i (h.locked i hi)
  exact ⟨u, send, (h.sends u).trans hsend, hholds⟩

theorem send?_setStream (h : a.stream? i = some st) (u : User) :
    (a.setStream i st').send? u = match u with
      | .sender k => a.send? (.sender k)
      | .stream j part => if j = i then st'.send? part else a.send? (.stream j part) := by
  cases u with
  | sender k => rfl
  | stream j part =>
      simp only [App.send?, stream?_setStream h]
      split
      · rfl
      · rfl

theorem locked_setStream (h : a.stream? i = some st) {j : Nat} :
    (a.setStream i st').Locked j ↔ if j = i then st'.sendLocked = true else a.Locked j := by
  simp only [App.Locked, stream?_setStream h]
  split <;> simp

theorem send?_setStream_of_same (h : a.stream? i = some st)
    (hsend : ∀ part, st'.send? part = st.send? part) (u : User) :
    (a.setStream i st').send? u = a.send? u := by
  rw [send?_setStream h]
  cases u with
  | sender k => rfl
  | stream j part =>
      simp only
      split
      · rename_i he
        rw [he, hsend, App.send?, h, Option.bind_some]
      · rfl

/-- A change to a stream in which none of its sends moves. -/
theorem sameSends_setStream (h : a.stream? i = some st) (hsend : ∀ part, st'.send? part = st.send? part)
    (hlocked : st'.sendLocked = st.sendLocked) : SameSends a (a.setStream i st') := by
  refine ⟨send?_setStream_of_same h hsend, fun j hj => ?_⟩
  · rw [locked_setStream h, hlocked] at hj
    split at hj
    · rename_i he
      exact he ▸ ⟨st, h, hj⟩
    · exact hj

/-- A change to a stream in which one of its sends moves, and the lock stays where it is. -/
theorem sendsStep_setStream (part : Part) (h : a.stream? i = some st)
    (hsend : ∀ part' ≠ part, st'.send? part' = st.send? part')
    (hlocked : st'.sendLocked = st.sendLocked) :
    (∀ u ≠ .stream i part, (a.setStream i st').send? u = a.send? u) ∧
      (a.setStream i st').send? (.stream i part) = st'.send? part ∧
      ∀ j, (a.setStream i st').Locked j → a.Locked j := by
  refine ⟨fun u hu => ?_, ?_, fun j hj => ?_⟩
  · rw [send?_setStream h]
    cases u with
    | sender k => rfl
    | stream j part' =>
        simp only
        split
        · rename_i he
          subst he
          rw [hsend part' fun he => hu (he ▸ rfl), App.send?, h, Option.bind_some]
        · rfl
  · simp only [send?_setStream h, if_true]
  · rw [locked_setStream h, hlocked] at hj
    split at hj
    · rename_i he
      exact he ▸ ⟨st, h, hj⟩
    · exact hj

/-- A task moves to another place in its send. -/
theorem setPc_sends {o : Owner} {pc : TaskPc} (h : a.setPc pc o = some a') :
    (∀ u ≠ o.user, a'.send? u = a.send? u) ∧ a'.send? o.user = pc.send? ∧
      ∀ j, a'.Locked j → a.Locked j := by
  cases o with
  | handler i =>
      obtain ⟨st, hst, rfl⟩ := Option.map_eq_some_iff.1 h
      refine sendsStep_setStream .handler hst ?_ rfl
      rintro (_ | _ | _) hne
      · exact absurd rfl hne
      · rfl
      · rfl
  | recvLoop i =>
      obtain ⟨st, hst, rfl⟩ := Option.map_eq_some_iff.1 h
      refine sendsStep_setStream .recvLoop hst ?_ rfl
      rintro (_ | _ | _) hne
      · rfl
      · exact absurd rfl hne
      · rfl
  | sender k =>
      obtain ⟨pc₀, hk, rfl⟩ := Option.map_eq_some_iff.1 h
      refine ⟨fun u hu => ?_, ?_, fun _ hj => hj⟩
      · cases u with
        | stream j part => rfl
        | sender k' =>
            have hne : k ≠ k' := fun he => hu (he ▸ rfl)
            simp only [App.send?, List.getElem?_set_ne hne]
      · obtain ⟨hlt, -⟩ := List.getElem?_eq_some_iff.1 hk
        simp only [Owner.user, App.send?, List.getElem?_set_self hlt, Option.bind_some]

theorem sameSends_makeStream (h : a.stream? i = none) (opened : Bool) :
    SameSends a (a.makeStream i opened) := by
  have hlookup (j : Nat) : (a.makeStream i opened).stream? j =
      if j = i then some (.new opened) else a.stream? j := by
    simp only [App.stream?, App.makeStream, List.lookup_cons]
    by_cases hj : j = i
    · simp [hj]
    · simp [hj, beq_eq_false_iff_ne.2 hj]
  refine ⟨fun u => ?_, fun j ⟨st, hst, hlocked⟩ => ?_⟩
  · cases u with
    | sender k => rfl
    | stream j part =>
        simp only [App.send?, hlookup]
        split
        · rename_i he
          rw [he, h]
          cases part <;> rfl
        · rfl
  · rw [hlookup] at hst
    split at hst
    · cases hst
      cases hlocked
    · exact ⟨st, hst, hlocked⟩

theorem sameSends_spawn : SameSends a { a with senders := a.senders ++ [.ready] } := by
  refine ⟨fun u => ?_, fun _ hj => hj⟩
  cases u with
  | stream j part => rfl
  | sender k =>
      simp only [App.send?, List.getElem?_append, List.getElem?_singleton]
      split
      · rfl
      · rw [List.getElem?_eq_none (Nat.le_of_not_lt ‹_›)]
        split <;> rfl

theorem SameSends.refl (a : App) : SameSends a a := ⟨fun _ => rfl, fun _ h => h⟩

theorem SameSends.setAcceptPc {t : Nat} {pc : AcceptPc} (h : SameSends a a') :
    SameSends a (a'.setAcceptPc t pc) := ⟨h.sends, h.locked⟩

end side

/-! ### The operations of a send -/

section send

variable {w w' : World} {s s' : RecoveryRole} {send : Sending} {next : Option Sending}

@[simp] theorem setApp_net (w : World) (s : RecoveryRole) (a : App) : (w.setApp s a).net = w.net := rfl

@[simp] theorem setApp_app (w : World) (s : RecoveryRole) (a : App) : (w.setApp s a).app s = a :=
  Function.update_self ..

theorem setApp_app_ne (h : s' ≠ s) (a : App) : (w.setApp s a).app s' = w.app s' :=
  Function.update_of_ne h ..

/-- A send takes and gives up locks as it goes. -/
structure SendLocks (w w' : World) (s : RecoveryRole) (send : Sending) (next : Option Sending) :
    Prop where
  other : ∀ s' ≠ s, w'.app s' = w.app s'
  sends : ∀ u, (w'.app s).send? u = (w.app s).send? u
  locked : ∀ i, (w'.app s).Locked i → (∃ n, next = some n ∧ n.Holds i) ∨
    ((w.app s).Locked i ∧ ¬send.Holds i)

theorem sendStep_locks (h : sendStep w s send = some (w', next)) : SendLocks w w' s send next := by
  cases send with
  | locking frame =>
      simp only [sendStep] at h
      split at h
      · rename_i st hst
        split at h
        · cases h
        · -- A stream that ends refuses the message; else the send takes the lock.
          split at h <;> cases h
          · exact ⟨fun _ _ => rfl, fun _ => rfl, fun i hi => .inr ⟨hi, id⟩⟩
          · refine ⟨fun s' hs => setApp_app_ne hs _, fun u => ?_, fun i hi => ?_⟩
            · rw [setApp_app, send?_setStream_of_same hst fun part => by cases part <;> rfl]
            · rw [setApp_app, locked_setStream hst] at hi
              split at hi
              · rename_i he
                exact .inl ⟨_, rfl, he.symm⟩
              · exact .inr ⟨hi, id⟩
      · cases h
        exact ⟨fun _ _ => rfl, fun _ => rfl, fun i hi => .inr ⟨hi, id⟩⟩
  | queuing frame =>
      simp only [sendStep] at h
      split at h
      · obtain ⟨net, -, he⟩ := Option.map_eq_some_iff.1 h
        cases he
        refine ⟨fun s' hs => setApp_app_ne hs _, fun u => ?_, fun i hi => ?_⟩
        · rw [setApp_app]
          cases u <;> rfl
        · rw [setApp_app] at hi
          -- The queued frame is in the place of its own send, and locks no other stream.
          by_cases hframe : frame.streamId = i
          · exact .inl ⟨_, rfl, hframe⟩
          · exact .inr ⟨hi, hframe⟩
      · cases h
  | queued j place =>
      simp only [sendStep] at h
      split at h
      · cases h
      · cases h
        refine ⟨fun s' hs => setApp_app_ne hs _, fun u => ?_, fun i hi => ?_⟩
        · rw [setApp_app, App.unlock]
          split
          · rename_i st hst
            rw [send?_setStream_of_same hst fun part => by cases part <;> rfl]
          · rfl
        · rw [setApp_app, App.unlock] at hi
          split at hi
          · rename_i st hst
            rw [locked_setStream hst] at hi
            split at hi
            · cases hi
            · exact .inr ⟨hi, fun he => ‹¬i = j› he.symm⟩
          · rename_i hst
            refine .inr ⟨hi, fun he => ?_⟩
            obtain ⟨st, hst', -⟩ := hi
            rw [← (he : j = i), hst] at hst'
            cases hst'

/-- A send waits for the lock, or for frames that are not in the replay buffer. -/
theorem sendStep_none (h : sendStep w s send = none) :
    0 < w.pending s ∨ ∃ frame, send = .locking frame ∧ (w.app s).Locked frame.streamId := by
  cases send with
  | locking frame =>
      simp only [sendStep] at h
      split at h
      · rename_i st hst
        split at h
        · exact .inr ⟨frame, rfl, st, hst, ‹_›⟩
        · split at h <;> cases h
      · cases h
  | queuing frame =>
      simp only [sendStep, Protocol.World.step, Option.map_some] at h
      split at h
      · cases h
      · rename_i hfull
        simp only [outboundSize] at hfull
        exact .inl (by simp only [World.pending]; omega)
  | queued i place =>
      simp only [sendStep] at h
      split at h
      · rename_i hout
        exact .inl (by have := hout.1; have := hout.2; omega)
      · cases h

/-- A send that goes on is not where it was. -/
theorem sendStep_ne (h : sendStep w s send = some (w', next)) : next ≠ some send := by
  rintro rfl
  cases send with
  | locking frame =>
      simp only [sendStep] at h
      split at h
      · split at h
        · cases h
        · split at h <;> cases h
      · cases h
  | queuing frame =>
      simp only [sendStep] at h
      split at h
      · obtain ⟨net, -, he⟩ := Option.map_eq_some_iff.1 h
        cases he
      · cases h
  | queued i place =>
      simp only [sendStep] at h
      split at h <;> cases h

end send

/-! ### Steps keep the locks held -/

def LocksInv (w : World) : Prop := ∀ s, LocksHeld (w.app s)

section steps

variable {config : Config} {w w' w₁ : World} {s : RecoveryRole} {a a' : App} {u : User} {i : Nat}

theorem send?_user {o : Owner} {pc : TaskPc} (h : a.pc? o = some pc) : a.send? o.user = pc.send? := by
  cases o with
  | handler i | recvLoop i =>
      obtain ⟨st, hst, rfl⟩ := Option.map_eq_some_iff.1 h
      simp only [Owner.user, App.send?, hst, Option.bind_some]
      rfl
  | sender k =>
      rw [App.pc?] at h
      simp only [Owner.user, App.send?, h, Option.bind_some]

theorem locksInv_setApp (hI : LocksInv w) (ha : LocksHeld a) : LocksInv (w.setApp s a) := by
  intro s'
  by_cases hs : s' = s
  · rw [hs, setApp_app]
    exact ha
  · rw [setApp_app_ne hs]
    exact hI s'

/-- `u` goes from outside a send to any place in one. -/
theorem locksHeld_of_none {next : Option Sending} (hI : LocksHeld a) (hu : a.send? u = none)
    (h : (∀ u' ≠ u, a'.send? u' = a.send? u') ∧ a'.send? u = next ∧
      ∀ i, a'.Locked i → a.Locked i) : LocksHeld a' := by
  refine SendsStep.locksHeld ⟨h.1, fun i hi => .inr ⟨h.2.2 i hi, fun send hsend => ?_⟩⟩ hI
  rw [hu] at hsend
  cases hsend

/-- `u` goes on in its send, or from the end of one to another. -/
theorem locksInv_advance {send : Sending} {next next' : Option Sending} (hI : LocksInv w)
    (hu : (w.app s).send? u = some send) (hstep : sendStep w s send = some (w₁, next))
    (h : (∀ u' ≠ u, a.send? u' = (w₁.app s).send? u') ∧ a.send? u = next' ∧
      ∀ i, a.Locked i → (w₁.app s).Locked i)
    (hnext : ∀ n, next = some n → next' = some n) : LocksInv (w₁.setApp s a) := by
  have hlocks := sendStep_locks hstep
  have ha : SendsStep (w.app s) a u := by
    refine ⟨fun u' hne => (h.1 u' hne).trans (hlocks.sends u'), fun i hi => ?_⟩
    rcases hlocks.locked i (h.2.2 i hi) with ⟨n, hn, hholds⟩ | ⟨hlocked, hnot⟩
    · exact .inl ⟨n, h.2.1.trans (hnext n hn), hholds⟩
    · refine .inr ⟨hlocked, fun send' hsend' => ?_⟩
      obtain rfl : send = send' := Option.some.inj (hu.symm.trans hsend')
      exact hnot
  intro s'
  by_cases hs : s' = s
  · rw [hs, setApp_app]
    exact ha.locksHeld (hI s)
  · rw [setApp_app_ne hs, hlocks.other s' hs]
    exact hI s'

theorem sameSends_accept {t : Nat} {frame : Frame} {ends : Bool}
    (h : acceptStep config a t frame = some (a', ends)) : SameSends a a' := by
  have hincoming {st : Stream} {incoming : List (List UInt8)}
      (hst : a.stream? frame.streamId = some st) :
      SameSends a (a.setStream frame.streamId { st with incoming := incoming }) :=
    sameSends_setStream hst (fun part => by cases part <;> rfl) rfl
  simp only [acceptStep] at h
  split at h
  · split at h <;> cases h
    · exact .refl a
    · exact sameSends_makeStream ‹_› false
  · split at h
    · cases h
      exact .refl a
    · split at h
      · cases h
        exact (SameSends.refl a).setAcceptPc
      · split at h <;> cases h
        · exact (SameSends.refl a).setAcceptPc
        · exact .refl a
  · split at h
    · cases h
      exact (SameSends.refl a).setAcceptPc
    · split at h
      · split at h <;> cases h
        · exact (hincoming ‹_›).setAcceptPc
        · exact (hincoming ‹_›).setAcceptPc
      · cases h
  · split at h
    · cases h
      exact (SameSends.refl a).setAcceptPc
    · split at h <;> cases h
      exact (hincoming ‹_›).setAcceptPc
  · cases h
    exact (SameSends.refl a).setAcceptPc
  · cases h
    exact (SameSends.refl a).setAcceptPc

/-- A decode task that is outside a send goes on. -/
theorem locksHeld_setDecode {st st' : Stream} (hI : LocksHeld a) (hst : a.stream? i = some st)
    (hsend : st.decode.send? = none) (hhandler : st'.handler = st.handler)
    (hloop : st'.recvLoop = st.recvLoop) (hlocked : st'.sendLocked = st.sendLocked) :
    LocksHeld (a.setStream i st') := by
  have hu : a.send? (.stream i .decode) = none := by
    rw [App.send?, hst, Option.bind_some]
    exact hsend
  refine locksHeld_of_none hI hu (sendsStep_setStream .decode hst ?_ hlocked)
  rintro (_ | _ | _) hne
  · simp only [Stream.send?, hhandler]
  · simp only [Stream.send?, hloop]
  · exact absurd rfl hne

theorem locksInv_decode (hI : LocksInv w) (h : decodeStep config w s i = some w') : LocksInv w' := by
  simp only [decodeStep] at h
  split at h
  · cases h
  · rename_i st hst
    -- Short of `failing`, the decode sends nothing, and what it sets leaves the locks.
    have hset {st' : Stream} (hsend : st.decode.send? = none) (hhandler : st'.handler = st.handler)
        (hloop : st'.recvLoop = st.recvLoop) (hlocked : st'.sendLocked = st.sendLocked) :
        LocksInv (w.setApp s ((w.app s).setStream i st')) :=
      locksInv_setApp hI (locksHeld_setDecode (hI s) hst hsend hhandler hloop hlocked)
    split at h
    · rename_i hpc
      have hsend : st.decode.send? = none := by rw [hpc]; rfl
      split at h
      · cases h
      · split at h
        · cases h
          exact hset hsend rfl rfl rfl
        · split at h <;> cases h <;> exact hset hsend rfl rfl rfl
    · rename_i hpc
      have hsend : st.decode.send? = none := by rw [hpc]; rfl
      split at h
      · cases h
        exact hset hsend rfl rfl rfl
      · split at h
        · split at h <;> cases h
          exact hset hsend rfl rfl rfl
        · split at h
          · cases h
            exact hset hsend rfl rfl rfl
          · split at h <;> cases h
            exact hset hsend rfl rfl rfl
    · rename_i dispatch send fin hpc
      have hu : (w.app s).send? (.stream i .decode) = some send := by
        rw [App.send?, hst, Option.bind_some, Stream.send?, hpc]
        rfl
      -- The decode that fails sends its error; the other parts of the stream keep their sends.
      have hother (st₁ : Stream) (pc : DecodePc) :
          ∀ part ≠ .decode, ({ st₁ with decode := pc } : Stream).send? part = st₁.send? part := by
        rintro (_ | _ | _) hne
        · rfl
        · rfl
        · exact absurd rfl hne
      split at h
      · rename_i w₁ next hstep
        obtain ⟨st₁, hst₁, rfl⟩ := Option.map_eq_some_iff.1 h
        exact locksInv_advance hI hu hstep (sendsStep_setStream .decode hst₁ (hother _ _) rfl) fun n hn => hn
      · rename_i w₁ hstep
        obtain ⟨st₁, hst₁, rfl⟩ := Option.map_eq_some_iff.1 h
        refine locksInv_advance hI hu hstep (sendsStep_setStream .decode hst₁ ?_ ?_)
          fun n hn => by cases hn
        · split
          · exact hother _ _
          · exact hother _ _
        · split <;> rfl
      · cases h
    · cases h

theorem sameSends_take {o : Owner} (hpc : a.pc? o = some .ready) (h : takeStep a o = some a') :
    SameSends a a' := by
  cases o with
  | handler i =>
      simp only [takeStep] at h
      split at h
      · rename_i st hst
        rw [App.pc?, hst] at hpc
        have hready : st.handler = .ready := Option.some.inj hpc
        split at h
        · cases h
          refine sameSends_setStream hst (fun part => ?_) rfl
          cases part <;> simp [Stream.send?, hready, TaskPc.send?]
        · split at h <;> cases h
          exact sameSends_setStream hst (fun part => by cases part <;> rfl) rfl
      · cases h
  | recvLoop i =>
      simp only [takeStep] at h
      split at h
      · rename_i st hst
        rw [App.pc?, hst] at hpc
        have hready : st.recvLoop = .ready := Option.some.inj hpc
        split at h
        · cases h
          refine sameSends_setStream hst (fun part => ?_) rfl
          cases part <;> simp [Stream.send?, hready, TaskPc.send?]
        · split at h <;> cases h
          refine sameSends_setStream hst (fun part => ?_) rfl
          cases part <;> simp [Stream.send?, hready, TaskPc.send?]
      · cases h
  | sender k => cases h

theorem locksInv_task {o : Owner} {act : Act} (hI : LocksInv w) (h : taskStep w s o act = some w') :
    LocksInv w' := by
  simp only [taskStep] at h
  have hset {pc₀ pc : TaskPc} (hpc : (w.app s).pc? o = some pc₀) (hnone : pc₀.send? = none)
      (h : ((w.app s).setPc pc o).map (w.setApp s) = some w') : LocksInv w' := by
    obtain ⟨a, ha, rfl⟩ := Option.map_eq_some_iff.1 h
    exact locksInv_setApp hI (locksHeld_of_none (hI s) ((send?_user hpc).trans hnone) (setPc_sends ha))
  split at h
  · obtain ⟨a, ha, rfl⟩ := Option.map_eq_some_iff.1 h
    exact locksInv_setApp hI ((sameSends_take ‹_› ha).locksHeld (hI s))
  · split at h
    · exact hset ‹_› rfl h
    · cases h
    · cases h
  · exact hset ‹_› rfl h
  · split at h
    · exact hset ‹_› rfl h
    · cases h
    · cases h
  · split at h
    · exact hset ‹_› rfl h
    · cases h
    · cases h
  · rename_i send reply hpc
    have hu : (w.app s).send? o.user = some send := send?_user hpc
    split at h
    · rename_i w₁ next hstep
      obtain ⟨a, ha, rfl⟩ := Option.map_eq_some_iff.1 h
      exact locksInv_advance hI hu hstep (setPc_sends ha) fun n hn => hn
    · rename_i w₁ hstep
      obtain ⟨a, ha, rfl⟩ := Option.map_eq_some_iff.1 h
      exact locksInv_advance hI hu hstep (setPc_sends ha) fun n hn => by cases hn
    · cases h
  · cases h

theorem locksInv_step {config : RecoveryRole → Config} {ev : Event} (hI : LocksInv w)
    (h : step config w ev = some w') : LocksInv w' := by
  cases ev with
  | net e =>
      simp only [step] at h
      split at h
      · cases h
      · obtain ⟨net, -, rfl⟩ := Option.map_eq_some_iff.1 h
        exact hI
  | accept s t =>
      simp only [step] at h
      split at h
      · split at h
        · rename_i a haccept
          obtain ⟨net, -, rfl⟩ := Option.map_eq_some_iff.1 h
          exact locksInv_setApp hI ((sameSends_accept haccept).locksHeld (hI s))
        · rename_i a haccept
          cases h
          exact locksInv_setApp hI ((sameSends_accept haccept).locksHeld (hI s))
        · cases h
      · cases h
  | decode s i => exact locksInv_decode hI h
  | decodeEnds s i =>
      simp only [step, decodeEnds] at h
      split at h
      · rename_i st hst
        split at h <;> cases h
        rename_i hends
        have hsend : st.decode.send? = none := by rw [hends.2]; rfl
        exact locksInv_setApp hI (locksHeld_setDecode (hI s) hst hsend rfl rfl rfl)
      · cases h
  | task s o act => exact locksInv_task hI h
  | spawnSender s =>
      cases h
      exact locksInv_setApp hI (sameSends_spawn.locksHeld (hI s))
  | newStream s i =>
      simp only [step] at h
      split at h <;> cases h
      rename_i hnone
      exact locksInv_setApp hI
        ((sameSends_makeStream (Option.isNone_iff_eq_none.1 hnone) true).locksHeld (hI s))
  | startFin s i | remove s i =>
      obtain ⟨st, hst, rfl⟩ := Option.map_eq_some_iff.1 h
      refine locksInv_setApp hI (SameSends.locksHeld ?_ (hI s))
      exact sameSends_setStream hst (fun part => by cases part <;> rfl) rfl

/-- **Whatever lock is held, a send holds it**, in every run. -/
theorem locks_reachable {config : RecoveryRole → Config} (h : (machine config).Reachable w) :
    LocksInv w := by
  refine h.invariant (fun w₀ h₀ s i hi => ?_) fun _ _ _ hI _ hs => locksInv_step hI hs
  obtain ⟨st, hst, -⟩ := hi
  rw [h₀.2] at hst
  cases hst

end steps

end AdaptiveMsg.Backpressure
