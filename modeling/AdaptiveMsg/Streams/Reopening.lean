import AdaptiveMsg.Streams.Knowing

/-!
# Streams — closed streams stay closed

`streams_stay_closed`: this side registers an ID of the peer once and calls `on_new_stream` for it
once, and no frame that comes after a release finds a stream (`StaysClosed`).  It needs that no call
of `accept_frame` is overtaken, between its checks and its `make_stream`, by a `new_stream` that
takes the same ID and by the release of that stream (`NotOvertaken`).  `stream_reopened` is a run in
which one is.
-/

namespace AdaptiveMsg.Streams

open Machine.Pool (Program Event)

/-! ### Frames that are overtaken -/

/-- The ID that a call of `accept_frame` registers next. -/
def Task.opensPeer : Task → Option Nat
  | .accept id _ _ (.get .make) => some id
  | _ => none

/-- `accept_frame` registers no ID that `new_stream` took and whose stream has been released. -/
def NotOvertaken (w : State × Fins) (ev : Event Task Act) : Prop :=
  ∀ t ∈ w.1.moving ev, ∀ id ∈ t.opensPeer,
    w.1.shared.closed = false → w.1.shared.openedStream id → ¬w.1.shared.Released id

instance (w : State × Fins) : DecidablePred (NotOvertaken w) := fun ev =>
  inferInstanceAs (Decidable (∀ t ∈ w.1.moving ev, ∀ id ∈ t.opensPeer,
    w.1.shared.closed = false → w.1.shared.openedStream id → ¬w.1.shared.Released id))

def InTurn (w : State × Fins) (ev : Event Task Act) : Prop := Reads w ev ∧ NotOvertaken w ev

instance (w : State × Fins) : DecidablePred (InTurn w) := fun ev =>
  inferInstanceAs (Decidable (Reads w ev ∧ NotOvertaken w ev))


/-! ### Streams that stay closed -/

/-- How often `on_new_stream` was called for the ID. -/
def Shared.newStreamCalls (s : Shared) (id : Nat) : Nat :=
  s.callbacks.countP fun
    | .onNewStream ctx => s.ids[ctx]? = some id
    | .onCloseStream _ => false

/-- The Context whose local close or protocol error the next operation of the task completes. -/
def Task.releases : Task → Option Nat
  | .close ctx .remove | .recvError ctx .remove | .decode ctx (.failing _ .remove) => some ctx
  | _ => none

/-- A stream that is closed stays closed, in the runs on from `w` whose steps meet `C`. -/
structure StaysClosed (C : State × Fins → Event Task Act → Prop) (w : State × Fins) : Prop where
  /-- An ID of the peer is registered once, with one call of `on_new_stream`. -/
  once : ∀ id, w.1.shared.Peers id →
    w.1.shared.ids.count id ≤ 1 ∧ w.1.shared.newStreamCalls id ≤ 1
  /-- Once a local close or protocol error of a stream is complete, the stream is not registered, and
  no frame whose `accept_frame` begins later reaches one.  The stream is one that `new_stream` opened
  and registered here, or one of the peer whose ID `new_stream` has not taken. -/
  late : ∀ ev w₁ w₂ t ctx id, C w ev → watched.step w ev = some w₁ →
    w.1.moving ev = some t → t.releases = some ctx → w.1.shared.ids[ctx]? = some id →
    id ≠ defaultStreamId → .newStream (some id) ∉ w₁.1.tasks →
    (watched.startAt w₁).ReachableUnder C w₂ →
    (w₁.1.shared.Peers id → w₂.1.shared.Peers id) →
    ¬w₂.1.shared.Registered id ∧
      ∀ j message fin ctx', w₁.1.tasks.length ≤ j →
        w₂.1.tasks[j]? ≠ some (.accept id message fin (.sendMessage ctx'))

/-! ### Each stream once -/

section once

variable {w : State × Fins} {id : Nat}

theorem accounts_reachable {c : State} (h : machine.Reachable c) : Accounts c := by
  refine h.invariant ?_ fun _ _ _ hI _ hs => accounts_step hI hs
  rintro _ ⟨nextStreamId, rfl⟩
  refine ⟨fun ctx => ?_, fun ctx => ?_, nofun⟩
  · simp [initial, Shared.settled, Shared.made, Shared.registered]
  · simp [initial, Shared.made]

/-- An ID that occurs once is that of one Context. -/
theorem ctx_eq_of_count {ids : List Nat} {ctx ctx' : Nat} (h : ids.count id ≤ 1)
    (hctx : ids[ctx]? = some id) (hctx' : ids[ctx']? = some id) : ctx = ctx' :=
  Machine.Pool.eq_of_countP_le_one (p := fun i => i == id) h hctx (beq_self_eq_true _) hctx'
    (beq_self_eq_true _)

theorem newStreamCalls_le_one {c : State} (hacc : Accounts c) (h : c.shared.ids.count id ≤ 1) :
    c.shared.newStreamCalls id ≤ 1 := by
  by_contra hlt
  have hpos : 0 < c.shared.newStreamCalls id := by omega
  obtain ⟨cb, hmem, hcb⟩ := List.countP_pos_iff.1 hpos
  cases cb with
  | onCloseStream ctx => cases hcb
  | onNewStream ctx =>
      have hctx : c.shared.ids[ctx]? = some id := by simpa using hcb
      have hle : c.shared.newStreamCalls id ≤ c.shared.callbacks.count (.onNewStream ctx) := by
        refine List.countP_mono_left fun cb' _ hcb' => ?_
        cases cb' with
        | onCloseStream ctx' => cases hcb'
        | onNewStream ctx' =>
            have hctx' : c.shared.ids[ctx']? = some id := by simpa using hcb'
            rw [ctx_eq_of_count h hctx hctx']
            exact beq_self_eq_true _
      have := hacc.opens ctx
      rw [Shared.made] at this
      split at this <;> omega

end once

/-! ### Late frames -/

section late

variable {s s' : Shared} {g : Fins} {t t' : Task} {new : List Task} {a : Act} {id ctx n : Nat}
  {w w' w₁ w₂ : State × Fins} {ev : Event Task Act}

/-- The frame finds no stream, as far as its call has come. -/
def AcceptPc.Drops (s : Shared) (id : Nat) : AcceptPc → Prop
  | .unreserve | .lookupFin | .lookup | .checkOpened | .drop => True
  | .checkReserved => s.Peers id
  | .get .lookup | .get .make | .get .lookupAgain => s.closed = true
  | .get (.onNewStream _) | .sendMessage _ | .queueFin _ => False

/-- The stream has been released, and the calls from task `n` on are late. -/
structure Gone (n id : Nat) (c : State) : Prop where
  made : id ∈ c.shared.ids
  unregistered : ¬c.shared.Registered id
  taken : .newStream (some id) ∉ c.tasks
  late : ∀ j message fin pc, n ≤ j → c.tasks[j]? = some (.accept id message fin pc) →
    pc.Drops c.shared id

/-- A frame that has found no stream finds none with its next operation. -/
theorem drops_step {message fin message' fin' : Bool} {pc pc' : AcceptPc} (hid : id ≠ defaultStreamId)
    (hs : SharedOk s g) (ht : (Task.accept id message fin pc).Ok s g) (hmade : id ∈ s.ids)
    (hno : ¬s.Registered id) (hd : pc.Drops s id)
    (h : acceptStep s id message fin pc = (s', .accept id message' fin' pc', new)) :
    pc'.Drops s' id := by
  have hnone : s.lookupStreamCtx id = none := by
    rw [lookupStreamCtx_of_ne hid]
    exact (s.not_registered_iff id).1 hno
  cases pc with
  | unreserve =>
      cases h
      trivial
  | lookupFin =>
      rw [acceptStep, hnone] at h
      cases h
  | lookup =>
      simp only [acceptStep, hnone] at h
      cases h
      trivial
  | checkOpened =>
      simp only [acceptStep] at h
      split at h <;> cases h
      · trivial
      · rename_i hopened
        refine ⟨hid, Nat.not_lt.1 fun hlt => hopened ?_⟩
        exact (s.openedStream_iff id).2 ⟨hid, hlt⟩
  | checkReserved =>
      simp only [acceptStep] at h
      split at h <;> cases h
      · trivial
      · rename_i hres
        -- The ID was made and is registered no more: it is reserved, at its end, or the connection
        -- is closed.
        rcases hs.retired id hmade hd with hr | hr | hr | hr
        · exact absurd hr hno
        · exact absurd hr hres
        · exact absurd hr ht.2.1
        · exact hr
  | get pc =>
      cases pc with
      | lookup =>
          simp only [acceptStep, getStreamCtx, hnone] at h
          cases h
          exact hd
      | make =>
          have hmake : s.makeStream id = none := if_pos (.inl hd)
          simp only [acceptStep, getStreamCtx, hmake] at h
          cases h
          exact hd
      | lookupAgain =>
          simp only [acceptStep, getStreamCtx, hnone] at h
          cases h
      | onNewStream ctx => exact False.elim hd
  | drop => cases h
  | sendMessage ctx | queueFin ctx => exact False.elim hd

/-- Only `new_stream` and an accepted frame make a stream, and neither makes a released one. -/
theorem unregistered_step (hid : id ≠ defaultStreamId) (ht : t.Ok s g) (hgone : s.Released id)
    (htaken : t ≠ .newStream (some id))
    (hover : ∀ id' ∈ t.opensPeer, s.closed = false → s.openedStream id' → ¬s.Released id')
    (h : move s t a = some (s', t', new)) : ¬s'.Registered id := by
  have hold := hgone.2
  rw [registered_iff] at hold ⊢
  cases move_change h with
  | quiet _ hr => rwa [hr]
  | register id' ht' ho _ _ hr =>
      rw [hr, List.map_append, List.mem_append, not_or]
      refine ⟨hold, fun hmem => ?_⟩
      obtain rfl : id = id' := List.mem_singleton.1 hmem
      -- An ID of the peer is not made twice; one of this side only `new_stream` or a frame of an
      -- open stream makes.
      by_cases hp : s.Peers id
      · exact not_made_of_registers ht ht' hp ho hgone.1
      · have hopened : s.openedStream id = true := (s.openedStream_iff id).2
          ⟨hid, Nat.not_le.1 fun hle => hp ⟨hid, hle⟩⟩
        cases t with
        | accept id' message fin pc =>
            cases pc with
            | get pc =>
                cases pc with
                | make =>
                    cases ht'
                    exact hover id rfl ho hopened hgone
                | lookup | onNewStream ctx | lookupAgain => cases ht'
            | _ => cases ht'
        | newStream o => exact htaken (congrArg Task.newStream ht')
        | defaultStream pc =>
            cases pc with
            | make =>
                cases ht'
                exact hid rfl
            | lookup | onNewStream ctx | lookupAgain => cases ht'
        | decode ctx pc | close ctx pc | recvError ctx pc | markClosed pc | done => cases ht'
  | remove ctx _ _ hr =>
      rw [hr, map_fst_eraseP]
      exact fun hmem => hold (List.mem_of_mem_erase hmem)
  | reserve ctx _ hs => rwa [hs]
  | unreserve id' _ hs => rwa [hs]
  | take _ hs =>
      rw [hs]
      exact nofun

/-- The operation that takes an ID for `new_stream`. -/
theorem newStream_takes (h : move s t a = some (s', .newStream (some id), new)) :
    s.nextStreamId = id ∧ s'.nextStreamId = id + 1 := by
  generalize ht' : Task.newStream (some id) = t' at h
  cases move_continues h with
  | newStream =>
      cases ht'
      cases a with
      | go =>
          cases h
          exact ⟨rfl, rfl⟩
      | fail ends | seeClosed => cases h
  | _ => cases ht'

/-- What drops a frame stays so while other tasks move. -/
theorem AcceptPc.Drops.leaves {pc : AcceptPc} (hd : pc.Drops s id)
    (hc : s.closed = true → s'.closed = true) (hp : s.Peers id → s'.Peers id) : pc.Drops s' id := by
  cases pc with
  | unreserve | lookupFin | lookup | checkOpened | drop => trivial
  | checkReserved => exact hp hd
  | get pc =>
      cases pc with
      | lookup | make | lookupAgain => exact hc hd
      | onNewStream ctx => exact False.elim hd
  | sendMessage ctx | queueFin ctx => exact False.elim hd

/-- A step leaves a released stream released, and its late frames without a stream. -/
theorem gone_step (hI : Inv w) (hC : NotOvertaken w ev) (h : watched.step w ev = some w')
    (hid : id ≠ defaultStreamId) (hgone : Gone n id w.1)
    (hside : w.1.shared.Peers id → w'.1.shared.Peers id) : Gone n id w'.1 := by
  obtain ⟨c, g⟩ := w
  obtain ⟨c', g'⟩ := w'
  have hstep : machine.step c ev = some c' := (Machine.step_observe h).1
  rcases Program.step_cases hstep with ⟨i, a, t, s', t', new, rfl, ht, hm, rfl⟩ | ⟨t, rfl, hs, rfl⟩
  · have hok : t.Ok c.shared g := hI.tasks t (List.mem_of_getElem? ht)
    have hl := move_leaves hok hm
    have hmem := List.mem_of_getElem? ht
    refine ⟨hl.ids.subset hgone.made, ?_, fun hmem => ?_, fun j message fin pc hj hpc => ?_⟩
    · exact unregistered_step hid hok ⟨hgone.made, hgone.unregistered⟩
        (fun he => hgone.taken (he ▸ hmem)) (hC t ht) hm
    · rcases Machine.Pool.mem_of_mem_set_append hmem with he | hmem | hmem
      · rw [← he] at hm
        obtain ⟨hnext, hnext'⟩ := newStream_takes hm
        -- `new_stream` would take an ID of the peer.
        have hle : s'.nextStreamId ≤ id := (hside ⟨hid, hnext.le⟩).2
        omega
      · exact hgone.taken hmem
      · cases move_new hm hmem
    · rcases Machine.Pool.of_getElem?_set_append hpc with ⟨rfl, he⟩ | ⟨-, hpc⟩ | ⟨-, hpc⟩
      · rw [← he] at hm
        generalize ht' : Task.accept id message fin pc = t' at hm
        cases move_continues hm with
        | accept id' message' fin' pc₀ pc' =>
            cases ht'
            cases a with
            | go =>
                exact drops_step hid hI.shared hok hgone.made hgone.unregistered
                  (hgone.late i _ _ _ hj ht) (Option.some.inj hm)
            | fail ends | seeClosed => cases hm
        | _ => cases ht'
      · exact (hgone.late j _ _ _ hj hpc).leaves hl.closed hside
      · cases move_new hm (List.mem_of_getElem? hpc)
  · have hs : starts c.shared t = true := hs
    refine ⟨hgone.made, hgone.unregistered, fun hmem => ?_, fun j message fin pc hj hpc => ?_⟩
    · rcases List.mem_append.1 hmem with hmem | hmem
      · exact hgone.taken hmem
      · rw [← List.mem_singleton.1 hmem] at hs
        cases hs
    · rcases Nat.lt_or_ge j c.tasks.length with hlt | hge
      · rw [List.getElem?_append_left hlt] at hpc
        exact hgone.late j _ _ _ hj hpc
      · rw [List.getElem?_append_right hge] at hpc
        rw [← List.mem_singleton.1 (List.mem_of_getElem? hpc)] at hs
        simp only [starts, acceptFrame, decide_eq_true_eq, Task.accept.injEq, true_and] at hs
        rw [hs.2]
        split <;> trivial

/-- A stream that is removed is registered no more. -/
theorem removeStream_unregistered {r : Option Nat} (hk : (s.streamContexts.map Prod.fst).Nodup)
    (h : s.removeStream id = (r, s')) : ¬s'.Registered id := by
  rw [Shared.removeStream] at h
  split at h
  · rename_i hnone
    cases h
    exact (s.not_registered_iff id).2 hnone
  · cases h
    rw [registered_iff, map_fst_eraseP]
    exact hk.not_mem_erase

theorem releases_unregistered (hs : SharedOk s g) (ht : t.releases = some ctx)
    (hid : s.ids[ctx]? = some id) (h : move s t a = some (s', t', new)) : ¬s'.Registered id := by
  have he := streamId_eq hid
  -- After the error step at `remove` the id is free, whether or not it was registered.
  have herr {s' : Shared} {r : Option ErrorPc} (h : errorStep s ctx .remove = (s', r)) :
      ¬s'.Registered id := by
    simp only [errorStep, he] at h
    split at h
    all_goals
      rename_i hrem
      cases h
      exact (removeStream_unregistered hs.keys hrem :)
  cases t with
  | close ctx' pc =>
      cases pc with
      | remove =>
          cases ht
          cases a with
          | go =>
              simp only [move, closeStep, he] at h
              split at h
              all_goals
                rename_i hrem
                cases h
                exact removeStream_unregistered hs.keys hrem
          | fail ends | seeClosed => cases h
      | checkOpened | checkRegistered | reserve | swapFin | notify removed => cases ht
  | recvError ctx' pc =>
      cases pc with
      | remove =>
          cases ht
          cases a with
          | go =>
              simp only [move] at h
              split at h
              all_goals
                rename_i hrem
                cases h
                exact herr hrem
          | fail ends | seeClosed => cases h
      | checkOpened | checkRegistered | reserve | swapFin => cases ht
  | decode ctx' pc =>
      cases pc with
      | failing ends pc =>
          cases pc with
          | remove =>
              cases ht
              simp only [move, Option.map_eq_some_iff] at h
              obtain ⟨r, hr, h⟩ := h
              cases a with
              | go =>
                  simp only [decodeStep] at hr
                  split at hr
                  all_goals
                    rename_i hrem
                    cases hr
                    cases h
                    exact herr hrem
              | fail ends | seeClosed => cases hr
          | checkOpened | checkRegistered | reserve | swapFin => cases ht
      | receiving | remove | notify removed => cases ht
  | accept id message fin pc | defaultStream pc | newStream id | markClosed pc | done => cases ht

theorem nextStreamId_step (hI : Inv w) (h : watched.step w ev = some w') :
    w.1.shared.nextStreamId ≤ w'.1.shared.nextStreamId := by
  obtain ⟨c, g⟩ := w
  obtain ⟨c', g'⟩ := w'
  have hstep : machine.step c ev = some c' := (Machine.step_observe h).1
  rcases Program.step_cases hstep with ⟨i, a, t, s', t', new, rfl, ht, hm, rfl⟩ | ⟨t, rfl, -, rfl⟩
  · exact (move_leaves (hI.tasks t (List.mem_of_getElem? ht)) hm).next
  · exact le_rfl

/-- After the release the stream stays released, whatever calls follow. -/
theorem gone_run (hr₁ : watched.ReachableUnder InTurn w₁) (hid : id ≠ defaultStreamId)
    (hgone : Gone n id w₁.1) (h : (watched.startAt w₁).ReachableUnder InTurn w₂)
    (hside : w₁.1.shared.Peers id → w₂.1.shared.Peers id) :
    w₁.1.shared.nextStreamId ≤ w₂.1.shared.nextStreamId ∧ Gone n id w₂.1 := by
  induction h with
  | init he =>
      cases he
      exact ⟨le_rfl, hgone⟩
  | @step w w' ev hr hC hs ih =>
      have hI := inv_reachable (fun _ _ => And.left) (hr₁.trans hr)
      have hnext := nextStreamId_step hI hs
      -- The side of the ID is that at the end of the run, as the counter only grows.
      have hside' : w₁.1.shared.Peers id → w.1.shared.Peers id := fun hp =>
        peers_mono hnext (hside hp)
      obtain ⟨hle, hgone⟩ := ih hside'
      exact ⟨hle.trans hnext, gone_step hI hC.2 hs hid hgone fun hp => hside (peers_mono hle hp)⟩

end late

/-- **Streams that are closed stay closed**, where no accepted frame is overtaken. -/
theorem streams_stay_closed {w : State × Fins} (h : watched.ReachableUnder InTurn w) :
    StaysClosed InTurn w where
  once id hp := by
    have hle := (inv_reachable (fun _ _ => And.left) h).shared.once id hp
    exact ⟨hle, newStreamCalls_le_one (accounts_reachable h.of_observe) hle⟩
  late ev w₁ w₂ t ctx id hC hs ht hrel hctx hid htaken hrun hside := by
    have hI := inv_reachable (fun _ _ => And.left) h
    have hr₁ := h.step hC hs
    obtain ⟨c, g⟩ := w
    obtain ⟨c₁, g₁⟩ := w₁
    have hstep : machine.step c ev = some c₁ := (Machine.step_observe hs).1
    have hgone : Gone c₁.tasks.length id c₁ := by
      rcases Program.step_cases hstep with ⟨i, a, u, s', t', new, rfl, hu, hm, rfl⟩ |
          ⟨u, rfl, -, rfl⟩
      · cases hu.symm.trans ht
        have hl := move_leaves (hI.tasks t (List.mem_of_getElem? hu)) hm
        refine ⟨hl.ids.subset (List.mem_of_getElem? hctx),
          releases_unregistered hI.shared hrel hctx hm, htaken, fun j message fin pc hj hpc => ?_⟩
        rw [List.getElem?_eq_none hj] at hpc
        cases hpc
      · cases ht
    obtain ⟨-, hgone₂⟩ := gone_run hr₁ hid hgone hrun hside
    exact ⟨hgone₂.unregistered, fun j message fin ctx' hj hpc => hgone₂.late j _ _ _ hj hpc⟩

def runFrom (w : State × Fins) (evs : List (Event Task Act)) : State × Fins :=
  (watched.exec w evs).getD w

theorem exec_runFrom {w : State × Fins} {evs : List (Event Task Act)}
    (h : (watched.exec w evs).isSome) : watched.exec w evs = some (runFrom w evs) := by
  rw [runFrom, ← Option.some_get h, Option.getD_some]

/-- The peer's first message opens stream 1, which `Stream::close` is about to remove. -/
def closingCalls : List (Event Task Act) :=
  openRun ++ .start (.close 0 .checkOpened) :: List.replicate 3 (.task 2 .go)

/-- The next frame on it is reserved. -/
def droppedCalls : List (Event Task Act) :=
  .start (acceptFrame 1 true false) :: List.replicate 3 (.task 3 .go)

def closingState : State × Fins := runFrom (initial 1, ⟨[], []⟩) closingCalls

def removedState : State × Fins := runFrom closingState [.task 2 .go]

theorem streams_stay_closed_peer :
    ¬(runFrom removedState droppedCalls).1.shared.Registered 1 ∧
      (runFrom removedState droppedCalls).1.tasks[3]? = some (.accept 1 true false .drop) := by
  have h₀ : watched.ReachableUnder InTurn (initial 1, ⟨[], []⟩) := .init ⟨⟨1, rfl⟩, rfl⟩
  have hw : watched.ReachableUnder InTurn closingState :=
    .exec closingCalls h₀ (exec_runFrom (by decide)) (by decide)
  have hw₂ : (watched.startAt removedState).ReachableUnder InTurn (runFrom removedState droppedCalls) :=
    .exec_startAt droppedCalls (exec_runFrom (by decide)) (by decide)
  obtain ⟨hunregistered, -⟩ := (streams_stay_closed hw).late (.task 2 .go) removedState _
    (.close 0 .remove) 0 1 (by decide) rfl rfl rfl rfl (by decide) (by decide) hw₂ fun hp => hp
  exact ⟨hunregistered, rfl⟩

/-- The first frame of the peer's stream 1 is checked; then `new_stream` takes the ID 1, and its
stream is about to be removed by `Stream::close`. -/
def overtakenCalls : List (Event Task Act) :=
  Event.start (acceptFrame 1 true false) :: List.replicate 3 (.task 0 .go) ++
    Event.start (.newStream none) :: List.replicate 2 (.task 1 .go) ++
    Event.start (.close 0 .checkOpened) :: List.replicate 2 (.task 3 .go)

/-- The first frame opens the stream again, and the second one finds it. -/
def lateCalls : List (Event Task Act) :=
  List.replicate 4 (.task 0 .go) ++ [.start (acceptFrame 1 true false), .task 5 .go]

theorem stream_reopened : ¬∀ w, watched.ReachableUnder Reads w → StaysClosed Reads w := by
  intro h
  let w := runFrom (initial 1, ⟨[], []⟩) overtakenCalls
  let w₁ := runFrom w [.task 3 .go]
  let w₂ := runFrom w₁ lateCalls
  have h₀ : watched.ReachableUnder Reads (initial 1, ⟨[], []⟩) := .init ⟨⟨1, rfl⟩, rfl⟩
  have hw : watched.ReachableUnder Reads w :=
    .exec overtakenCalls h₀ (exec_runFrom (by decide +kernel)) (by decide +kernel)
  have hs : watched.step w (.task 3 .go) = some w₁ := by decide +kernel
  have ht : w.1.moving (.task 3 Act.go) = some (.close 0 .remove) := by decide +kernel
  have hid : w.1.shared.ids[0]? = some 1 := by decide +kernel
  have hopened : w₁.1.shared.nextStreamId = 2 := by decide +kernel
  have hw₂ : (watched.startAt w₁).ReachableUnder Reads w₂ :=
    .exec_startAt lateCalls (exec_runFrom (by decide +kernel)) (by decide +kernel)
  obtain ⟨-, hlate⟩ := (h w hw).late (.task 3 .go) w₁ w₂ (.close 0 .remove) 0 1 trivial hs ht rfl
    hid (by decide) (by decide +kernel) hw₂ fun hp => absurd hp.2 (hopened ▸ by decide)
  exact hlate 5 true false 1 (by decide +kernel) (by decide +kernel)

end AdaptiveMsg.Streams
