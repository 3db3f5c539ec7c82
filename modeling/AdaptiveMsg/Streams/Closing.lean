import AdaptiveMsg.Machine.Monitor
import AdaptiveMsg.Streams.Callbacks
import Mathlib.Algebra.Order.BigOperators.Group.List
import Mathlib.Algebra.Order.Group.Nat

/-!
# Streams — closing them with the connection

`make_stream`, `remove_stream`, `remove_peer_stream` and `mark_closed` with `close_all_streams`, each
access to shared state a step of its own.  `stream_contexts` and `default_stream` have a lock each;
`make_stream` holds that of the map from its check of the flag `closed` to the registration, and
every other section is one access.  The environment makes the calls, with any stream ID and at any
moment, as the reader, `new_stream`, `default_stream` and the four callers of a removal may.

A stream is named by its place in the order of registration.  `close_all_streams` goes through a
hash map, so the environment picks the stream it closes next.

* `guarded_step`: what the lock of the map guards, and its holder knows.
* `in_hand_step`: a stream is in the map or in the hands of one call exactly while it is open.
* `no_stream_outlives_connection`: what is left once `mark_closed` is done, and the counters.
-/

namespace AdaptiveMsg.Closing

open Machine.Pool

/-! ### The state and the calls -/

def defaultStreamId : UInt32 := 0

structure StreamInner where
  id : UInt32
  closed : Bool
  deriving DecidableEq, Repr

structure Shared where
  /-- The flag of the connection. -/
  closed : Bool
  /-- The lock of `stream_contexts`. -/
  locked : Bool
  streamContexts : List (UInt32 × Nat)
  defaultStream : Option Nat
  /-- Every stream registered so far. -/
  streams : List StreamInner
  /-- The increments of the two counters, which are `u64`. -/
  streamsOpened : Nat
  streamsClosed : Nat
  /-- Ghost: whether `close_all_streams` has taken the map, and then the default stream. -/
  swept : Bool
  cleared : Bool
  deriving DecidableEq, Repr

/-- The next operation of `make_stream`. -/
inductive MakePc where
  | lock
  | checkClosed
  | checkRegistered
  | insert
  | setDefault (ctx : Nat)
  | unlock (r : Option Nat)
  | count (ctx : Nat)
  | returned (r : Option Nat)
  deriving DecidableEq, Repr

/-- The next operation of `remove_stream`, or of `remove_peer_stream`. -/
inductive RemovePc where
  /-- `remove_peer_stream` looks whether to reserve the ID. -/
  | checkRegistered
  | remove
  | close (ctx : Nat)
  | count (ctx : Nat)
  | returned (r : Option Nat)
  deriving DecidableEq, Repr

/-- The next operation of `mark_closed`. -/
inductive MarkPc where
  | swap
  /-- `close_all_streams` takes the map. -/
  | take
  | takeDefault (ctxs : List Nat)
  | close (ctxs : List Nat)
  | count (ctxs : List Nat)
  | returned
  deriving DecidableEq, Repr

inductive Task where
  | makeStream (id : UInt32) (pc : MakePc)
  | removeStream (id : UInt32) (pc : RemovePc)
  | markClosed (pc : MarkPc)
  deriving DecidableEq, Repr

inductive Act where
  | go
  /-- The next stream of the map that `close_all_streams` has taken. -/
  | pick (ctx : Nat)
  deriving DecidableEq, Repr

/-! ### Operations -/

namespace Shared

variable (s : Shared)

def insert (id : UInt32) : Shared :=
  { s with
    streams := s.streams ++ [⟨id, false⟩]
    streamContexts := (id, s.streams.length) :: s.streamContexts.eraseP fun e => id == e.1 }

def remove (id : UInt32) : Shared :=
  { s with streamContexts := s.streamContexts.eraseP fun e => id == e.1 }

/-- Whether the stream is registered and not closed. -/
def openStream (ctx : Nat) : Bool := (s.streams[ctx]?).any fun stream => !stream.closed

/-- The swap of `close_channels`, which says whether the stream was open. -/
def closeChannels (ctx : Nat) : Shared × Bool :=
  ({ s with streams := s.streams.modify ctx fun stream => { stream with closed := true } },
    s.openStream ctx)

end Shared

def makeStep (s : Shared) (id : UInt32) : MakePc → Option (Shared × MakePc)
  | .lock => if s.locked then none else some ({ s with locked := true }, .checkClosed)
  | .checkClosed => some (s, if s.closed then .unlock none else .checkRegistered)
  | .checkRegistered =>
    some (s, if (s.streamContexts.lookup id).isSome then .unlock none else .insert)
  | .insert =>
    let ctx := s.streams.length
    some (s.insert id, if id = defaultStreamId then .setDefault ctx else .unlock (some ctx))
  | .setDefault ctx => some ({ s with defaultStream := some ctx }, .unlock (some ctx))
  | .unlock none => some ({ s with locked := false }, .returned none)
  | .unlock (some ctx) => some ({ s with locked := false }, .count ctx)
  | .count ctx => some ({ s with streamsOpened := s.streamsOpened + 1 }, .returned (some ctx))
  | .returned _ => none

def removeStep (s : Shared) (id : UInt32) : RemovePc → Option (Shared × RemovePc)
  | .checkRegistered => if s.locked then none else some (s, .remove)
  | .remove =>
    if s.locked then none
    else
      match s.streamContexts.lookup id with
      | none => some (s, .returned none)
      | some ctx => some (s.remove id, .close ctx)
  | .close ctx =>
    let (s', first) := s.closeChannels ctx
    some (s', if first then .count ctx else .returned (some ctx))
  | .count ctx => some ({ s with streamsClosed := s.streamsClosed + 1 }, .returned (some ctx))
  | .returned _ => none

def markStep (s : Shared) : MarkPc → Act → Option (Shared × MarkPc)
  | .swap, .go => some ({ s with closed := true }, if s.closed then .returned else .take)
  | .take, .go =>
    if s.locked then none
    else some ({ s with streamContexts := [], swept := true },
      .takeDefault (s.streamContexts.map Prod.snd))
  | .takeDefault ctxs, .go => some ({ s with defaultStream := none, cleared := true }, .close ctxs)
  | .close ctxs, .pick ctx =>
    if ctx ∈ ctxs then
      let (s', first) := s.closeChannels ctx
      some (s', if first then .count (ctxs.erase ctx) else .close (ctxs.erase ctx))
    else none
  | .close [], .go => some (s, .returned)
  | .count ctxs, .go => some ({ s with streamsClosed := s.streamsClosed + 1 }, .close ctxs)
  | _, _ => none

def move (s : Shared) : Task → Act → Option (Shared × Task)
  | .makeStream id pc, .go => (makeStep s id pc).map fun r => (r.1, .makeStream id r.2)
  | .removeStream id pc, .go => (removeStep s id pc).map fun r => (r.1, .removeStream id r.2)
  | .markClosed pc, a => (markStep s pc a).map fun r => (r.1, .markClosed r.2)
  | _, _ => none

/-- The calls of the environment. -/
def starts : Task → Bool
  | .makeStream _ pc => pc = .lock
  | .removeStream id pc => pc = .remove ∨ pc = .checkRegistered ∧ id ≠ defaultStreamId
  | .markClosed pc => pc = .swap

def program : Program Shared Task Act :=
  ⟨fun s _ _ t a => (move s t a).map fun r => (r.1, r.2, []), fun _ => starts⟩

abbrev State := Machine.Pool.State Shared Task

/-- A connection without streams. -/
def initial : State := ⟨⟨false, false, [], none, [], 0, 0, false, false⟩, []⟩

def machine : Machine State (Event Task Act) where
  init c := c = initial
  step := program.step

/-! ### What one operation does -/

/-- The operations, each with its guard and its effect. -/
inductive Step (s : Shared) : Task → Shared → Task → Prop where
  -- `make_stream`
  | lock (id) (h : s.locked = false) :
      Step s (.makeStream id .lock) { s with locked := true } (.makeStream id .checkClosed)
  | seesClosed (id) (h : s.closed = true) :
      Step s (.makeStream id .checkClosed) s (.makeStream id (.unlock none))
  | seesOpen (id) (h : s.closed = false) :
      Step s (.makeStream id .checkClosed) s (.makeStream id .checkRegistered)
  | registered (id) :
      Step s (.makeStream id .checkRegistered) s (.makeStream id (.unlock none))
  | unregistered (id) (h : s.streamContexts.lookup id = none) :
      Step s (.makeStream id .checkRegistered) s (.makeStream id .insert)
  | insertDefault (id) :
      Step s (.makeStream id .insert) (s.insert id) (.makeStream id (.setDefault s.streams.length))
  | insert (id) :
      Step s (.makeStream id .insert) (s.insert id)
        (.makeStream id (.unlock (some s.streams.length)))
  | setDefault (id ctx) :
      Step s (.makeStream id (.setDefault ctx)) { s with defaultStream := some ctx }
        (.makeStream id (.unlock (some ctx)))
  | refuse (id) :
      Step s (.makeStream id (.unlock none)) { s with locked := false }
        (.makeStream id (.returned none))
  | unlock (id ctx) :
      Step s (.makeStream id (.unlock (some ctx))) { s with locked := false }
        (.makeStream id (.count ctx))
  | countOpened (id ctx) :
      Step s (.makeStream id (.count ctx)) { s with streamsOpened := s.streamsOpened + 1 }
        (.makeStream id (.returned (some ctx)))
  -- `remove_stream`
  | reserve (id) : Step s (.removeStream id .checkRegistered) s (.removeStream id .remove)
  | absent (id) : Step s (.removeStream id .remove) s (.removeStream id (.returned none))
  | remove (id ctx) (hl : s.locked = false) (h : s.streamContexts.lookup id = some ctx) :
      Step s (.removeStream id .remove) (s.remove id) (.removeStream id (.close ctx))
  | close (id ctx) (h : s.openStream ctx = true) :
      Step s (.removeStream id (.close ctx)) (s.closeChannels ctx).1 (.removeStream id (.count ctx))
  | closeAgain (id ctx) (h : s.openStream ctx = false) :
      Step s (.removeStream id (.close ctx)) (s.closeChannels ctx).1
        (.removeStream id (.returned (some ctx)))
  | countClosed (id ctx) :
      Step s (.removeStream id (.count ctx)) { s with streamsClosed := s.streamsClosed + 1 }
        (.removeStream id (.returned (some ctx)))
  -- `mark_closed`
  | swapAgain (h : s.closed = true) : Step s (.markClosed .swap) s (.markClosed .returned)
  | swap (h : s.closed = false) :
      Step s (.markClosed .swap) { s with closed := true } (.markClosed .take)
  | take (h : s.locked = false) :
      Step s (.markClosed .take) { s with streamContexts := [], swept := true }
        (.markClosed (.takeDefault (s.streamContexts.map Prod.snd)))
  | takeDefault (ctxs) :
      Step s (.markClosed (.takeDefault ctxs)) { s with defaultStream := none, cleared := true }
        (.markClosed (.close ctxs))
  | sweep (ctxs ctx) (hmem : ctx ∈ ctxs) (h : s.openStream ctx = true) :
      Step s (.markClosed (.close ctxs)) (s.closeChannels ctx).1
        (.markClosed (.count (ctxs.erase ctx)))
  | sweepAgain (ctxs ctx) (hmem : ctx ∈ ctxs) (h : s.openStream ctx = false) :
      Step s (.markClosed (.close ctxs)) (s.closeChannels ctx).1
        (.markClosed (.close (ctxs.erase ctx)))
  | sweepEnds : Step s (.markClosed (.close [])) s (.markClosed .returned)
  | countSwept (ctxs) :
      Step s (.markClosed (.count ctxs)) { s with streamsClosed := s.streamsClosed + 1 }
        (.markClosed (.close ctxs))

theorem makeStep_step {s s' : Shared} {id : UInt32} {pc pc' : MakePc}
    (h : makeStep s id pc = some (s', pc')) :
    Step s (.makeStream id pc) s' (.makeStream id pc') := by
  cases pc with
  | lock =>
      simp only [makeStep, Option.ite_none_left_eq_some, Option.some.injEq, Prod.mk.injEq,
        Bool.not_eq_true] at h
      obtain ⟨hl, rfl, rfl⟩ := h
      exact .lock id hl
  | checkClosed =>
      cases h
      split
      · exact .seesClosed id ‹_›
      · exact .seesOpen id (by simpa using ‹¬ s.closed = true›)
  | checkRegistered =>
      cases h
      split
      · exact .registered id
      · exact .unregistered id (Option.not_isSome_iff_eq_none.mp ‹_›)
  | insert =>
      cases h
      split
      · exact .insertDefault id
      · exact .insert id
  | setDefault ctx => cases h; exact .setDefault id ctx
  | unlock r =>
      cases r with
      | none => cases h; exact .refuse id
      | some ctx => cases h; exact .unlock id ctx
  | count ctx => cases h; exact .countOpened id ctx
  | returned r => cases h

theorem removeStep_step {s s' : Shared} {id : UInt32} {pc pc' : RemovePc}
    (h : removeStep s id pc = some (s', pc')) :
    Step s (.removeStream id pc) s' (.removeStream id pc') := by
  cases pc with
  | checkRegistered =>
      simp only [removeStep, Option.ite_none_left_eq_some, Option.some.injEq,
        Prod.mk.injEq] at h
      obtain ⟨-, rfl, rfl⟩ := h
      exact .reserve id
  | remove =>
      simp only [removeStep, Option.ite_none_left_eq_some, Bool.not_eq_true] at h
      obtain ⟨hl, h⟩ := h
      split at h
      · cases h; exact .absent id
      · cases h; exact .remove id _ hl ‹_›
  | close ctx =>
      cases h
      by_cases ho : s.openStream ctx = true
      · simpa [Shared.closeChannels, ho] using Step.close (s := s) id ctx ho
      · simpa [Shared.closeChannels, ho] using
          Step.closeAgain (s := s) id ctx (by simpa using ho)
  | count ctx => cases h; exact .countClosed id ctx
  | returned r => cases h

theorem markStep_step {s s' : Shared} {pc pc' : MarkPc} {a : Act}
    (h : markStep s pc a = some (s', pc')) : Step s (.markClosed pc) s' (.markClosed pc') := by
  cases pc with
  | swap =>
      cases a <;> cases h
      cases hc : s.closed with
      | true =>
          have hs : { s with closed := true } = s := by rw [← hc]
          simpa [hs] using Step.swapAgain hc
      | false => simpa using Step.swap hc
  | take =>
      cases a <;> simp only [markStep, reduceCtorEq, Option.ite_none_left_eq_some,
        Option.some.injEq, Prod.mk.injEq, Bool.not_eq_true] at h
      obtain ⟨hl, rfl, rfl⟩ := h
      exact .take hl
  | takeDefault ctxs =>
      cases a <;> cases h
      exact .takeDefault ctxs
  | close ctxs =>
      cases a with
      | go =>
          cases ctxs <;> cases h
          exact .sweepEnds
      | pick ctx =>
          simp only [markStep, Option.ite_none_right_eq_some, Option.some.injEq,
            Prod.mk.injEq] at h
          obtain ⟨hmem, rfl, rfl⟩ := h
          by_cases ho : s.openStream ctx = true
          · simpa [Shared.closeChannels, ho] using Step.sweep ctxs ctx hmem ho
          · simpa [Shared.closeChannels, ho] using
              Step.sweepAgain ctxs ctx hmem (by simpa using ho)
  | count ctxs =>
      cases a <;> cases h
      exact .countSwept ctxs
  | returned => cases a <;> cases h

theorem step_of_move {s s' : Shared} {n i : Nat} {t t' : Task} {a : Act} {new : List Task}
    (h : program.move s n i t a = some (s', t', new)) : Step s t s' t' ∧ new = [] := by
  obtain ⟨⟨s₁, t₁⟩, hm, he⟩ := Option.map_eq_some_iff.mp h
  cases he
  refine ⟨?_, rfl⟩
  cases t with
  | makeStream id pc =>
      cases a <;> simp only [move, Option.map_eq_some_iff, reduceCtorEq, Prod.mk.injEq] at hm
      obtain ⟨r, hr, rfl, rfl⟩ := hm
      exact makeStep_step hr
  | removeStream id pc =>
      cases a <;> simp only [move, Option.map_eq_some_iff, reduceCtorEq, Prod.mk.injEq] at hm
      obtain ⟨r, hr, rfl, rfl⟩ := hm
      exact removeStep_step hr
  | markClosed pc =>
      simp only [move, Option.map_eq_some_iff, Prod.mk.injEq] at hm
      obtain ⟨r, hr, rfl, rfl⟩ := hm
      exact markStep_step hr

/-- A step of the pool is an operation of one call, or a call begins. -/
theorem step_cases {c c' : State} {e : Event Task Act} (h : machine.step c e = some c') :
    (∃ i t s' t', c.tasks[i]? = some t ∧ Step c.shared t s' t' ∧ c' = ⟨s', c.tasks.set i t'⟩) ∨
    ∃ t, starts t = true ∧ c' = ⟨c.shared, c.tasks ++ [t]⟩ := by
  have h : program.step c e = some c' := h
  rcases Program.step_cases h with ⟨i, x, t, s', t', new, -, ht, hm, rfl⟩ | ⟨t, -, ht, rfl⟩
  · obtain ⟨hs, rfl⟩ := step_of_move hm
    exact .inl ⟨i, t, s', t', ht, hs, by simp⟩
  · exact .inr ⟨t, ht, rfl⟩

/-! ### The lock of the map -/

def MakePc.holds : MakePc → Bool
  | .checkClosed | .checkRegistered | .insert | .setDefault _ | .unlock _ => true
  | _ => false

/-- Whether a call holds the lock of `stream_contexts` at its next operation. -/
def holds : Task → Bool
  | .makeStream _ pc => pc.holds
  | _ => false

/-- What `mark_closed` has done before. -/
def Marked (s : Shared) : Task → Prop
  | .markClosed (.takeDefault _) => s.closed = true ∧ s.swept = true
  | .markClosed .take | .markClosed (.close _) | .markClosed (.count _)
  | .markClosed .returned => s.closed = true
  | _ => True

/-- What the sweep has left, once it has taken each. -/
structure Swept (s : Shared) : Prop where
  closed : s.swept = true → s.closed = true
  contexts : s.swept = true → s.streamContexts = []
  swept : s.cleared = true → s.swept = true
  default : s.cleared = true → s.defaultStream = none

/-- What `make_stream` knows under the lock: the map has not been taken, and does not have the ID
that is put in. -/
def Registering (s : Shared) : Task → Prop
  | .makeStream _ .checkRegistered | .makeStream _ (.setDefault _) => s.swept = false
  | .makeStream id .insert => s.swept = false ∧ s.streamContexts.lookup id = none
  | _ => True

section step

variable {s s' : Shared} {t t' u : Task} {ctx : Nat}

theorem Step.closed (h : Step s t s' t') (hc : s.closed = true) : s'.closed = true := by
  cases h with
  | swap => rfl
  | _ => exact hc

theorem Step.swept (h : Step s t s' t') (hs : s.swept = true) : s'.swept = true := by
  cases h with
  | take => rfl
  | _ => exact hs

theorem Marked.mono (hc : s.closed = true → s'.closed = true)
    (hs : s.swept = true → s'.swept = true) (h : Marked s u) : Marked s' u := by
  unfold Marked at h ⊢
  split
  · exact ⟨hc h.1, hs h.2⟩
  all_goals first | exact hc h | trivial

theorem marked_step (h : Step s t s' t') (hm : Marked s t) : Marked s' t' := by
  cases h with
  | swapAgain hc => exact hc
  | swap => exact rfl
  | take => exact ⟨hm, rfl⟩
  | takeDefault => exact hm.1
  | sweep | sweepAgain | sweepEnds | countSwept => exact hm
  | _ => trivial

theorem Registering.congr (hs : s'.swept = s.swept) (hm : s'.streamContexts = s.streamContexts)
    (h : Registering s u) : Registering s' u := by
  unfold Registering at h ⊢
  rw [hs, hm]
  exact h

/-- An operation that leaves the map and the ghosts, and the flag of the connection set. -/
theorem Swept.congr (hc : s.closed = true → s'.closed = true) (hs : s'.swept = s.swept)
    (hm : s'.streamContexts = s.streamContexts) (hcl : s'.cleared = s.cleared)
    (hd : s'.defaultStream = s.defaultStream) (h : Swept s) : Swept s' where
  closed h' := hc (h.closed (hs ▸ h'))
  contexts h' := hm.trans (h.contexts (hs ▸ h'))
  swept h' := hs.trans (h.swept (hcl ▸ h'))
  default h' := hd.trans (h.default (hcl ▸ h'))

/-- An operation that needs no lock of the map: the map and the ghosts stay. -/
theorem lockStep_outside (ht : holds t = false) (ht' : holds t' = false)
    (hl : s'.locked = s.locked) (hc : s.closed = true → s'.closed = true)
    (hs : s'.swept = s.swept) (hm : s'.streamContexts = s.streamContexts)
    (hcl : s'.cleared = s.cleared) (hd : s'.defaultStream = s.defaultStream) :
    LockStep holds Shared.locked Swept (fun s t => Swept s ∧ Registering s t) s t s' t' :=
  .outside ht ht' hl (.congr hc hs hm hcl hd)
    fun _ _ h => ⟨h.1.congr hc hs hm hcl hd, h.2.congr hs hm⟩

/-- What an operation does with the lock of the map. -/
theorem guarded_step (h : Step s t s' t') (hmark : Marked s t) :
    LockStep holds Shared.locked Swept (fun s t => Swept s ∧ Registering s t) s t s' t' := by
  cases h with
  | lock id hl =>
      exact .acquire rfl rfl hl rfl fun hI =>
        ⟨⟨hI.closed, hI.contexts, hI.swept, hI.default⟩, trivial⟩
  | seesClosed id hc => exact .inside rfl rfl rfl fun hA => ⟨hA.1, trivial⟩
  | seesOpen id hc =>
      refine .inside rfl rfl rfl fun hA => ⟨hA.1, ?_⟩
      exact Bool.eq_false_iff.mpr fun hs => Bool.false_ne_true (hc.symm.trans (hA.1.closed hs))
  | registered id => exact .inside rfl rfl rfl fun hA => ⟨hA.1, trivial⟩
  | unregistered id hlook => exact .inside rfl rfl rfl fun hA => ⟨hA.1, hA.2, hlook⟩
  | insertDefault id | insert id =>
      refine .inside rfl rfl rfl fun hA => ?_
      have hs : (s.insert id).swept = false := hA.2.1
      refine ⟨⟨hA.1.closed, fun h => ?_, hA.1.swept, hA.1.default⟩, by simp [Registering, hs]⟩
      rw [hs] at h
      cases h
  | setDefault id ctx =>
      refine .inside rfl rfl rfl fun hA => ⟨⟨hA.1.closed, hA.1.contexts, hA.1.swept, ?_⟩, trivial⟩
      -- the default stream is taken after the map
      intro hcl
      have hs : s.swept = false := hA.2
      exact absurd (hs.symm.trans (hA.1.swept hcl)) (by simp)
  | refuse id | unlock id ctx =>
      exact .release rfl rfl rfl fun hA =>
        ⟨hA.1.closed, hA.1.contexts, hA.1.swept, hA.1.default⟩
  | remove id ctx hl hlook =>
      refine .atomic rfl rfl hl hl fun hI => ⟨hI.closed, fun hs => ?_, hI.swept, hI.default⟩
      simp [Shared.remove, hI.contexts hs]
  | take hl =>
      exact .atomic rfl rfl hl hl fun hI => ⟨fun _ => hmark, fun _ => rfl, fun _ => rfl, hI.default⟩
  | takeDefault ctxs =>
      refine .outside rfl rfl rfl
        (fun hI => ⟨hI.closed, hI.contexts, fun _ => hmark.2, fun _ => rfl⟩) ?_
      exact fun _ _ hA =>
        ⟨⟨hA.1.closed, hA.1.contexts, fun _ => hmark.2, fun _ => rfl⟩, hA.2.congr rfl rfl⟩
  | swap hc => exact lockStep_outside rfl rfl rfl (fun _ => rfl) rfl rfl rfl rfl
  | countOpened | reserve | absent | close | closeAgain | countClosed | swapAgain | sweep
  | sweepAgain | sweepEnds | countSwept =>
      exact lockStep_outside rfl rfl rfl (fun hc => hc) rfl rfl rfl rfl

end step

/-! ### The streams in hand, and the counters -/

/-- The streams that a call has taken from the map and not closed yet. -/
def hands : Task → List Nat
  | .removeStream _ (.close ctx) => [ctx]
  | .markClosed (.takeDefault ctxs) | .markClosed (.close ctxs) | .markClosed (.count ctxs) => ctxs
  | _ => []

/-- Whether a call has registered a stream that `streams_opened` does not count yet. -/
def toOpen : Task → Nat
  | .makeStream _ (.setDefault _) | .makeStream _ (.unlock (some _)) | .makeStream _ (.count _) => 1
  | _ => 0

/-- Whether a call has closed a stream that `streams_closed` does not count yet. -/
def toClose : Task → Nat
  | .removeStream _ (.count _) | .markClosed (.count _) => 1
  | _ => 0

namespace Shared

variable (s : Shared)

def registered (ctx : Nat) : Nat := (s.streamContexts.map Prod.snd).count ctx

def closedStreams : Nat := s.streams.countP StreamInner.closed

variable {s}

theorem insert_streamContexts {id : UInt32} (h : s.streamContexts.lookup id = none) :
    (s.insert id).streamContexts = (id, s.streams.length) :: s.streamContexts := by
  rw [insert, List.eraseP_of_forall_not]
  intro e he hid
  have hne := List.lookup_eq_none_iff.mp h e he
  simp [bne, hid] at hne

theorem openStream_insert (id : UInt32) (ctx : Nat) :
    (s.insert id).openStream ctx = if s.streams.length = ctx then true else s.openStream ctx := by
  simp only [openStream, insert, List.getElem?_append]
  by_cases hlt : ctx < s.streams.length
  · simp [hlt, (Nat.ne_of_lt hlt).symm]
  · by_cases heq : s.streams.length = ctx
    · simp [heq]
    · have hone : [(⟨id, false⟩ : StreamInner)][ctx - s.streams.length]? = none :=
        List.getElem?_eq_none (Nat.sub_pos_of_lt (by omega))
      simp [hlt, heq, hone]

theorem openStream_closeChannels (ctx ctx' : Nat) :
    (s.closeChannels ctx).1.openStream ctx' = if ctx = ctx' then false else s.openStream ctx' := by
  simp only [openStream, closeChannels, List.getElem?_modify]
  by_cases heq : ctx = ctx'
  · cases s.streams[ctx']? <;> simp [heq]
  · simp [heq]

theorem closedStreams_closeChannels {ctx : Nat} (h : s.openStream ctx = true) :
    (s.closeChannels ctx).1.closedStreams = s.closedStreams + 1 := by
  obtain ⟨stream, hget, hopen⟩ := (Option.any_eq_true _ _).mp h
  simp only [Bool.not_eq_true'] at hopen
  have hset : s.streams.modify ctx (fun stream => { stream with closed := true }) =
      s.streams.set ctx { stream with closed := true } := by
    rw [List.modify_eq_set_getElem?, hget]
    rfl
  have hcount := countP_set_add StreamInner.closed { stream with closed := true } hget
  simp only [closedStreams, closeChannels, hset]
  simpa [hopen] using hcount

end Shared

section account

variable {s s' : Shared} {t t' : Task}

theorem count_opened_step (h : Step s t s' t') :
    s'.streamsOpened + toOpen t' + s.streams.length =
      s.streamsOpened + toOpen t + s'.streams.length := by
  cases h with
  | insertDefault id | insert id =>
      simp only [Shared.insert, toOpen, List.length_append, List.length_singleton]
      omega
  | countOpened id ctx =>
      simp [toOpen]
  | close | closeAgain | sweep | sweepAgain => simp [Shared.closeChannels, toOpen]
  | _ => rfl

/-- A stream is taken in hand only from the map, and is let go of when it is closed. -/
theorem in_hand_step (h : Step s t s' t') (hreg : Registering s t)
    (hopen : ∀ ctx ∈ hands t, s.openStream ctx = true) (ctx : Nat) :
    s'.registered ctx + (hands t').count ctx + (s.openStream ctx).toNat =
      s.registered ctx + (hands t).count ctx + (s'.openStream ctx).toNat := by
  cases h with
  | insertDefault id | insert id =>
      have hnew : s.openStream s.streams.length = false := by simp [Shared.openStream]
      simp only [Shared.openStream_insert, Shared.registered,
        Shared.insert_streamContexts hreg.2, List.map_cons, List.count_cons, beq_iff_eq, hands]
      by_cases heq : s.streams.length = ctx
      · simp [heq, heq ▸ hnew]
      · simp [heq]
  | remove id ctx' hl hlook =>
      have hcount := Streams.count_eraseP_lookup hlook ctx
      simp only [Shared.registered, Shared.remove, hands, List.count_singleton, beq_iff_eq,
        List.count_nil]
      change _ + _ + (s.openStream ctx).toNat = _ + _ + (s.openStream ctx).toNat
      omega
  | close id ctx' ho =>
      rw [Shared.openStream_closeChannels]
      change s.registered ctx + _ + _ = _
      by_cases heq : ctx' = ctx
      · simp [heq, hands, heq ▸ ho]
      · simp [heq, hands]
  | closeAgain id ctx' ho => exact absurd (hopen ctx' (by simp [hands])) (by simp [ho])
  | sweep ctxs ctx' hmem ho =>
      rw [Shared.openStream_closeChannels]
      change s.registered ctx + (ctxs.erase ctx').count ctx + _ =
        s.registered ctx + ctxs.count ctx + _
      by_cases heq : ctx' = ctx
      · subst heq
        have hpos := List.count_pos_iff.mpr hmem
        simp only [List.count_erase_self, ho, if_true, Bool.toNat_true, Bool.toNat_false]
        omega
      · rw [if_neg heq, List.count_erase_of_ne (Ne.symm heq)]
  | sweepAgain ctxs ctx' hmem ho => exact absurd (hopen ctx' hmem) (by simp [ho])
  | take hl => simp [Shared.registered, hands, Shared.openStream]
  | _ => rfl

theorem closedStreams_insert (id : UInt32) : (s.insert id).closedStreams = s.closedStreams := by
  simp [Shared.closedStreams, Shared.insert]

theorem count_closed_step (h : Step s t s' t') (hopen : ∀ ctx ∈ hands t, s.openStream ctx = true) :
    s'.streamsClosed + toClose t' + s.closedStreams =
      s.streamsClosed + toClose t + s'.closedStreams := by
  cases h with
  | insertDefault id | insert id =>
      rw [closedStreams_insert]
      rfl
  | close id ctx ho | sweep ctxs ctx hmem ho =>
      rw [Shared.closedStreams_closeChannels ho]
      simp only [toClose, Shared.closeChannels]
      omega
  | closeAgain id ctx ho => exact absurd (hopen ctx (by simp [hands])) (by simp [ho])
  | sweepAgain ctxs ctx hmem ho => exact absurd (hopen ctx hmem) (by simp [ho])
  | countClosed | countSwept =>
      simp only [toClose]
      change _ + s.closedStreams = _ + s.closedStreams
      omega
  | _ => rfl

/-- A stream registered is in the map, in hand or closed. -/
theorem registered_step (h : Step s t s' t') (hreg : Registering s t)
    (hopen : ∀ ctx ∈ hands t, s.openStream ctx = true) :
    s'.streamContexts.length + s'.closedStreams + (hands t').length + s.streams.length =
      s.streamContexts.length + s.closedStreams + (hands t).length + s'.streams.length := by
  cases h with
  | insertDefault id | insert id =>
      rw [closedStreams_insert, Shared.insert_streamContexts hreg.2]
      simp only [Shared.insert, hands, List.length_append, List.length_cons, List.length_nil]
      omega
  | remove id ctx hl hlook =>
      obtain ⟨l₁, l₂, he, hne⟩ := List.lookup_eq_some_iff.mp hlook
      have hlen := List.length_eraseP_add_one (p := fun e : UInt32 × Nat => id == e.1)
        (he ▸ List.mem_append_right l₁ (List.mem_cons_self ..)) (beq_self_eq_true id)
      change (s.streamContexts.eraseP fun e => id == e.1).length + s.closedStreams + _ + _ = _
      simp only [hands, List.length_singleton, List.length_nil]
      change _ = s.streamContexts.length + s.closedStreams + 0 + s.streams.length
      omega
  | close id ctx ho =>
      rw [Shared.closedStreams_closeChannels ho]
      simp only [hands, Shared.closeChannels, List.length_modify, List.length_singleton,
        List.length_nil]
      omega
  | sweep ctxs ctx hmem ho =>
      rw [Shared.closedStreams_closeChannels ho]
      have hlen := List.length_erase_add_one hmem
      simp only [hands, Shared.closeChannels, List.length_modify]
      omega
  | closeAgain id ctx ho => exact absurd (hopen ctx (by simp [hands])) (by simp [ho])
  | sweepAgain ctxs ctx hmem ho => exact absurd (hopen ctx hmem) (by simp [ho])
  | take hl =>
      simp only [hands, List.length_map, List.length_nil]
      change 0 + s.closedStreams + _ + _ = _ + s.closedStreams + 0 + _
      omega
  | _ => rfl

end account

/-! ### Runs -/

/-- What holds in every state of every run. -/
structure Inv (c : State) : Prop where
  marked : ∀ t ∈ c.tasks, Marked c.shared t
  guarded : Monitor holds Shared.locked Swept (fun s t => Swept s ∧ Registering s t) c
  inHand : ∀ ctx, c.shared.registered ctx + (c.tasks.map fun t => (hands t).count ctx).sum =
    (c.shared.openStream ctx).toNat
  registered : c.shared.streamContexts.length + c.shared.closedStreams +
    (c.tasks.map fun t => (hands t).length).sum = c.shared.streams.length
  opened : c.shared.streamsOpened + (c.tasks.map toOpen).sum = c.shared.streams.length
  closed : c.shared.streamsClosed + (c.tasks.map toClose).sum = c.shared.closedStreams
  sweeping : c.shared.closed = true → c.shared.swept = true ∨ .markClosed .take ∈ c.tasks
  clearing : c.shared.swept = true →
    c.shared.cleared = true ∨ ∃ ctxs, .markClosed (.takeDefault ctxs) ∈ c.tasks

section run

variable {c c' : State} {e : Event Task Act} {t : Task}

theorem Inv.registering (hI : Inv c) (ht : t ∈ c.tasks) : Registering c.shared t := by
  cases hh : holds t with
  | true => exact (hI.guarded.holder t ht hh).2
  | false =>
      unfold Registering
      split
      · cases hh
      · cases hh
      · cases hh
      · trivial

/-- What a call has in hand is open. -/
theorem Inv.hands_open (hI : Inv c) (ht : t ∈ c.tasks) :
    ∀ ctx ∈ hands t, c.shared.openStream ctx = true := by
  intro ctx hctx
  have hpos : 0 < (hands t).count ctx := List.count_pos_iff.mpr hctx
  have hle : (hands t).count ctx ≤ (c.tasks.map fun t => (hands t).count ctx).sum :=
    List.le_sum_of_mem (List.mem_map_of_mem ht)
  have hin := hI.inHand ctx
  by_contra hclosed
  simp only [Bool.not_eq_true] at hclosed
  rw [hclosed, Bool.toNat_false] at hin
  omega

theorem starts_empty (h : starts t = true) :
    holds t = false ∧ hands t = [] ∧ toOpen t = 0 ∧ toClose t = 0 := by
  cases t with
  | makeStream id pc =>
      obtain rfl : pc = .lock := by simpa [starts] using h
      exact ⟨rfl, rfl, rfl, rfl⟩
  | removeStream id pc =>
      simp only [starts, decide_eq_true_eq] at h
      rcases h with rfl | ⟨rfl, -⟩
      · exact ⟨rfl, rfl, rfl, rfl⟩
      · exact ⟨rfl, rfl, rfl, rfl⟩
  | markClosed pc =>
      obtain rfl : pc = .swap := by simpa [starts] using h
      exact ⟨rfl, rfl, rfl, rfl⟩

theorem starts_marked {s : Shared} (h : starts t = true) : Marked s t := by
  unfold Marked
  split
  · cases h
  · cases h
  · cases h
  · cases h
  · cases h
  · trivial

theorem inv_initial : Inv initial where
  marked := by simp [initial]
  guarded := .init rfl ⟨by simp, by simp, by simp, by simp⟩
  inHand ctx := by simp [initial, Shared.registered, Shared.openStream]
  registered := rfl
  opened := rfl
  closed := rfl
  sweeping := by simp [initial]
  clearing := by simp [initial]

theorem marked_of_step (hI : Inv c) (h : program.step c e = some c') :
    ∀ t ∈ c'.tasks, Marked c'.shared t := by
  refine Program.step_forall h hI.marked ?_ fun t _ ht => starts_marked ht
  intro i x t s' t' new _ ht hm
  obtain ⟨hs, rfl⟩ := step_of_move hm
  exact ⟨marked_step hs (hI.marked t (List.mem_of_getElem? ht)), by simp,
    fun u _ hu => hu.mono hs.closed hs.swept⟩

theorem guarded_of_step (hI : Inv c) (h : program.step c e = some c') :
    Monitor holds Shared.locked Swept (fun s t => Swept s ∧ Registering s t) c' := by
  refine hI.guarded.step h ?_ fun t ht => (starts_empty ht).1
  intro i x t s' t' new _ ht hm
  obtain ⟨hs, rfl⟩ := step_of_move hm
  exact ⟨guarded_step hs (hI.marked t (List.mem_of_getElem? ht)), by simp⟩

theorem sweeping_of_step (hI : Inv c) (h : machine.step c e = some c')
    (hc : c'.shared.closed = true) : c'.shared.swept = true ∨ .markClosed .take ∈ c'.tasks := by
  rcases step_cases h with ⟨i, t, s', t', ht, hs, rfl⟩ | ⟨t, -, rfl⟩
  · by_cases hc₀ : c.shared.closed = true
    · rcases hI.sweeping hc₀ with hsw | hmem
      · exact .inl (hs.swept hsw)
      · by_cases htk : t = .markClosed .take
        · subst htk
          cases hs
          exact .inl rfl
        · exact .inr (mem_set_of_ne ht hmem (Ne.symm htk))
    · -- the flag is set now, by the call that goes on to the sweep
      cases hs with
      | swap hcl => exact .inr (mem_set_self ht)
      | swapAgain hcl => exact absurd hcl hc₀
      | _ => exact absurd hc hc₀
  · exact (hI.sweeping hc).imp id (List.mem_append_left _)

theorem clearing_of_step (hI : Inv c) (h : machine.step c e = some c')
    (hsw : c'.shared.swept = true) :
    c'.shared.cleared = true ∨ ∃ ctxs, .markClosed (.takeDefault ctxs) ∈ c'.tasks := by
  rcases step_cases h with ⟨i, t, s', t', ht, hs, rfl⟩ | ⟨t, -, rfl⟩
  · by_cases hsw₀ : c.shared.swept = true
    · rcases hI.clearing hsw₀ with hcl | ⟨ctxs, hmem⟩
      · left
        cases hs with
        | takeDefault => rfl
        | _ => exact hcl
      · by_cases htk : t = .markClosed (.takeDefault ctxs)
        · subst htk
          cases hs
          exact .inl rfl
        · exact .inr ⟨ctxs, mem_set_of_ne ht hmem (Ne.symm htk)⟩
    · cases hs with
      | take hl => exact .inr ⟨_, mem_set_self ht⟩
      | _ => exact absurd hsw hsw₀
  · exact (hI.clearing hsw).imp id fun ⟨ctxs, hmem⟩ => ⟨ctxs, List.mem_append_left _ hmem⟩

theorem inv_step (hI : Inv c) (h : machine.step c e = some c') : Inv c' where
  marked := marked_of_step hI h
  guarded := guarded_of_step hI h
  inHand ctx := by
    refine Program.step_sum (P := program) (g := fun s => s.registered ctx)
      (k := fun s => (s.openStream ctx).toNat) h (hI.inHand ctx) ?_
      fun t ht => by simp [(starts_empty ht).2.1]
    intro i x t s' t' new ht hm
    obtain ⟨hs, rfl⟩ := step_of_move hm
    have hmem := List.mem_of_getElem? ht
    simpa using in_hand_step hs (hI.registering hmem) (hI.hands_open hmem) ctx
  registered := by
    refine Program.step_sum (P := program)
      (g := fun s => s.streamContexts.length + s.closedStreams) (k := fun s => s.streams.length) h
      hI.registered ?_ fun t ht => by simp [(starts_empty ht).2.1]
    intro i x t s' t' new ht hm
    obtain ⟨hs, rfl⟩ := step_of_move hm
    have hmem := List.mem_of_getElem? ht
    simpa using registered_step hs (hI.registering hmem) (hI.hands_open hmem)
  opened := by
    refine Program.step_sum (P := program) (g := Shared.streamsOpened)
      (k := fun s => s.streams.length) h hI.opened ?_ fun t ht => (starts_empty ht).2.2.1
    intro i x t s' t' new ht hm
    obtain ⟨hs, rfl⟩ := step_of_move hm
    simpa using count_opened_step hs
  closed := by
    refine Program.step_sum (P := program) (g := Shared.streamsClosed)
      (k := Shared.closedStreams) h hI.closed ?_ fun t ht => (starts_empty ht).2.2.2
    intro i x t s' t' new ht hm
    obtain ⟨hs, rfl⟩ := step_of_move hm
    simpa using count_closed_step hs (hI.hands_open (List.mem_of_getElem? ht))
  sweeping := sweeping_of_step hI h
  clearing := clearing_of_step hI h

theorem inv_reachable (h : machine.Reachable c) : Inv c :=
  h.invariant (by rintro _ rfl; exact inv_initial) fun _ _ _ hI _ => inv_step hI

/-! ### Quiescent states, and what comes after -/

def returned : Task → Bool
  | .makeStream _ (.returned _) | .removeStream _ (.returned _) | .markClosed .returned => true
  | _ => false

/-- No call is in progress. -/
def Quiescent (c : State) : Prop := ∀ t ∈ c.tasks, returned t = true

/-- The connection keeps no stream, and every stream it had is closed. -/
structure NoStreams (s : Shared) : Prop where
  streamContexts : s.streamContexts = []
  defaultStream : s.defaultStream = none
  streams : ∀ stream ∈ s.streams, stream.closed = true

/-- A call of `make_stream` that registers nothing. -/
def Refused : Task → Prop
  | .makeStream _ .lock | .makeStream _ .checkClosed | .makeStream _ (.unlock none)
  | .makeStream _ (.returned none) => True
  | .makeStream _ _ => False
  | _ => True

theorem returned_empty (h : returned t = true) : hands t = [] ∧ toOpen t = 0 ∧ toClose t = 0 := by
  unfold returned at h
  split at h
  · exact ⟨rfl, rfl, rfl⟩
  · exact ⟨rfl, rfl, rfl⟩
  · exact ⟨rfl, rfl, rfl⟩
  · cases h

theorem sum_eq_zero {f : Task → Nat} {l : List Task} (h : ∀ t ∈ l, f t = 0) :
    (l.map f).sum = 0 := by
  rw [List.sum_eq_zero_iff]
  rintro _ hx
  obtain ⟨t, ht, rfl⟩ := List.mem_map.mp hx
  exact h t ht

/-- The counters of a quiescent state. -/
theorem Inv.counters (hI : Inv c) (hq : Quiescent c) :
    c.shared.streamsOpened = c.shared.streams.length ∧
      c.shared.streamsClosed = c.shared.closedStreams ∧
      c.shared.streamContexts.length + c.shared.closedStreams = c.shared.streams.length := by
  have ho := hI.opened
  have hc := hI.closed
  have hr := hI.registered
  rw [sum_eq_zero fun t ht => (returned_empty (hq t ht)).2.1] at ho
  rw [sum_eq_zero fun t ht => (returned_empty (hq t ht)).2.2] at hc
  rw [sum_eq_zero fun t ht => by rw [(returned_empty (hq t ht)).1, List.length_nil]] at hr
  exact ⟨ho, hc, hr⟩

theorem Inv.swept (hI : Inv c) : Swept c.shared := by
  cases hl : c.shared.locked with
  | false => exact hI.guarded.free hl
  | true =>
      obtain ⟨t, ht, hh⟩ := (hl ▸ hI.guarded.held).holder
      exact (hI.guarded.holder t ht hh).1

theorem Inv.cleared (hI : Inv c) (hq : Quiescent c) (hc : c.shared.closed = true) :
    c.shared.cleared = true := by
  have hnot : ∀ t ∈ c.tasks, returned t ≠ false := fun t ht => by simp [hq t ht]
  rcases hI.sweeping hc with hsw | hmem
  · rcases hI.clearing hsw with hcl | ⟨ctxs, hmem⟩
    · exact hcl
    · exact absurd rfl (hnot _ hmem)
  · exact absurd rfl (hnot _ hmem)

theorem Inv.noStreams (hI : Inv c) (hq : Quiescent c) (hc : c.shared.closed = true) :
    NoStreams c.shared := by
  have hcl := hI.cleared hq hc
  have hempty := hI.swept.contexts (hI.swept.swept hcl)
  have hlen := (hI.counters hq).2.2
  rw [hempty, List.length_nil, Nat.zero_add] at hlen
  exact ⟨hempty, hI.swept.default hcl, List.countP_eq_length.mp hlen⟩

/-- The streams are closed after a step, if the map is not taken before it. -/
theorem Step.streams_closed {s s' : Shared} {t' : Task} (h : Step s t s' t')
    (hreg : Registering s t) (hsw : s.swept = true)
    (hcl : ∀ stream ∈ s.streams, stream.closed = true) :
    ∀ stream ∈ s'.streams, stream.closed = true := by
  cases h with
  | insertDefault | insert => exact absurd (hreg.1.symm.trans hsw) (by simp)
  | close | closeAgain | sweep | sweepAgain =>
      intro stream hmem
      obtain ⟨i, hi, rfl⟩ := List.mem_iff_getElem.mp hmem
      simp only [Shared.closeChannels, List.getElem_modify]
      split
      · rfl
      · exact hcl _ (List.getElem_mem _)
  | _ => exact hcl

theorem Step.refused {s s' : Shared} {t' : Task} (h : Step s t s' t') (hc : s.closed = true)
    (ht : Refused t) : Refused t' := by
  cases h with
  | seesOpen id ho => exact absurd (ho.symm.trans hc) (by simp)
  | registered | unregistered | insertDefault | insert | setDefault | unlock | countOpened =>
      exact ht.elim
  | _ => trivial

theorem starts_refused (h : starts t = true) : Refused t := by
  unfold Refused
  split
  any_goals trivial
  rename_i id pc h₁ _ _ _
  exact absurd (of_decide_eq_true h) h₁

/-- Once the sweep is over: nothing is registered any more. -/
structure Over (n : Nat) (c : State) : Prop where
  cleared : c.shared.cleared = true
  streams : ∀ stream ∈ c.shared.streams, stream.closed = true
  refused : ∀ (j : Nat) (t : Task), n ≤ j → c.tasks[j]? = some t → Refused t

theorem over_step {n : Nat} (hI : Inv c) (hO : Over n c) (h : machine.step c e = some c') :
    Over n c' := by
  have hsw := hI.swept.swept hO.cleared
  rcases step_cases h with ⟨i, t, s', t', ht, hs, rfl⟩ | ⟨t, hstart, rfl⟩
  · refine ⟨?_, hs.streams_closed (hI.registering (List.mem_of_getElem? ht)) hsw hO.streams, ?_⟩
    · have hcl := hO.cleared
      cases hs with
      | takeDefault => rfl
      | _ => exact hcl
    · intro j u hj hu
      rw [← List.append_nil (List.set _ _ _)] at hu
      rcases of_getElem?_set_append hu with ⟨rfl, rfl⟩ | ⟨-, hu⟩ | ⟨-, hu⟩
      · exact hs.refused (hI.swept.closed hsw) (hO.refused i t hj ht)
      · exact hO.refused j u hj hu
      · simp at hu
  · refine ⟨hO.cleared, hO.streams, fun j u hj hu => ?_⟩
    rw [List.getElem?_append] at hu
    split at hu
    · exact hO.refused j u hj hu
    · obtain rfl := List.mem_singleton.mp (List.mem_of_getElem? hu)
      exact starts_refused hstart

theorem over_reachable (h : machine.Reachable c) (hq : Quiescent c) (hc : c.shared.closed = true)
    (h' : (machine.startAt c).Reachable c') : Over c.tasks.length c' := by
  induction h' with
  | init he =>
      obtain rfl := he
      have hI := inv_reachable h
      refine ⟨hI.cleared hq hc, (hI.noStreams hq hc).streams, fun j t hj ht => ?_⟩
      rw [List.getElem?_eq_none hj] at ht
      cases ht
  | step hr _ hs ih => exact over_step (inv_reachable (h.trans hr)) ih hs

/-- **No stream outlives its connection.**  In every quiescent state each stream is counted opened
once, and counted closed once if it is closed, so the difference is the number of registered
streams.  Once `mark_closed` has returned besides, no stream is left and none comes after. -/
theorem no_stream_outlives_connection (h : machine.Reachable c) (hq : Quiescent c) :
    (c.shared.streamsOpened = c.shared.streams.length ∧
      c.shared.streamsClosed = c.shared.closedStreams ∧
      c.shared.streamsOpened = c.shared.streamsClosed + c.shared.streamContexts.length) ∧
    (.markClosed .returned ∈ c.tasks → NoStreams c.shared ∧
      ∀ c', (machine.startAt c).Reachable c' → NoStreams c'.shared ∧
        ∀ j id r, c.tasks.length ≤ j → c'.tasks[j]? = some (.makeStream id (.returned r)) →
          r = none) := by
  have hI := inv_reachable h
  obtain ⟨ho, hcl, hlen⟩ := hI.counters hq
  refine ⟨⟨ho, hcl, by omega⟩, fun hret => ?_⟩
  have hc : c.shared.closed = true := hI.marked _ hret
  refine ⟨hI.noStreams hq hc, fun c' h' => ?_⟩
  have hO := over_reachable h hq hc h'
  have hS := (inv_reachable (h.trans h')).swept
  refine ⟨⟨hS.contexts (hS.swept hO.cleared), hS.default hO.cleared, hO.streams⟩, ?_⟩
  intro j id r hj hr
  have href := hO.refused j _ hj hr
  cases r with
  | none => rfl
  | some ctx => exact href.elim

end run

/-- `mark_closed` sets the flag between the checks of `make_stream` and the registration. -/
def duringRegistration : List (Event Task Act) :=
  [.start (.makeStream 0 .lock), .task 0 .go, .task 0 .go, .task 0 .go, .start (.markClosed .swap),
    .task 1 .go, .task 0 .go, .task 0 .go, .task 0 .go, .task 0 .go, .task 1 .go, .task 1 .go,
    .task 1 (.pick 0), .task 1 .go, .task 1 .go]

theorem no_stream_outlives_connection_race : ∃ c : State, machine.Reachable c ∧
    c.shared.streamsOpened = 1 ∧ NoStreams c.shared ∧
    ∀ c', (machine.startAt c).Reachable c' → NoStreams c'.shared := by
  have hrun : (machine.exec initial duringRegistration).map (fun c =>
      (c.tasks, c.shared.streamsOpened)) =
      some ([.makeStream 0 (.returned (some 0)), .markClosed .returned], 1) := by decide
  obtain ⟨c, hc, hobs⟩ := Option.map_eq_some_iff.mp hrun
  obtain ⟨htasks, hopened⟩ := Prod.mk.inj hobs
  have hr : machine.Reachable c := Machine.reachable_of_exec duringRegistration rfl hc
  have hq : Quiescent c := by simp [Quiescent, htasks, returned]
  obtain ⟨-, hgone⟩ := no_stream_outlives_connection hr hq
  obtain ⟨hnone, hlater⟩ := hgone (by simp [htasks])
  exact ⟨c, hr, hopened, hnone, fun c' h' => (hlater c' h').1⟩

end AdaptiveMsg.Closing
