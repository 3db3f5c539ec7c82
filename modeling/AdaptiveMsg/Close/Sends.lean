import AdaptiveMsg.Machine.Pool
import AdaptiveMsg.Error

/-!
# Close — what sends return

Any number of calls of `enqueue_frame`, of `close` and of `close_by_peer` on one connection, v2 or
v3, and its writer: the check of `closing`, the channel send of a frame and the channel send of the
close marker are steps of their own.  An entry of the outbound queue is named by its position: how
many entries were queued before it.

`sends_told`: a send returns Ok just for a frame in front of the close marker, which the writer then
writes or keeps, as long as no v2 send queues its frame behind the marker (`InTime`); `sent_in_vain`
is a run in which one does.
-/

namespace AdaptiveMsg.Close.Sends

open Machine.Pool (Program State Event)

/-! ### State -/

/-- An entry of the outbound queue. -/
inductive Entry where
  | frame
  | close
  deriving DecidableEq, Repr

inductive WriterPc where
  | running
  /-- A v3 writer holds the frame at that position, which does not fit in the replay buffer. -/
  | holding (pos : Nat)
  /-- It has taken the close marker, and shuts the transport down. -/
  | closing
  /-- It has told `close` whether the marker was written, and has ended. -/
  | done (written : Bool)
  | aborted
  deriving DecidableEq, Repr

structure Shared where
  v3 : Bool
  /-- The size of the outbound queue. -/
  capacity : Nat
  closing : Bool
  closed : Bool
  /-- What was queued, of which the writer has taken the first `taken`. -/
  outbound : List Entry
  taken : Nat
  writer : WriterPc
  /-- What a v3 writer told the senders, by position. -/
  answers : List (Nat × Except Error Unit)
  /-- What the writer has written, and a v3 writer has kept (not part of the program's state). -/
  written : List Nat
  deriving DecidableEq

inductive SendPc where
  | check
  | push
  /-- In v3: waiting for the writer's answer. -/
  | answer (pos : Nat)
  /-- The position is that of the frame, if it was queued. -/
  | returned (pos : Option Nat) (result : Except Error Unit)
  deriving DecidableEq

inductive ClosePc where
  | swap
  | push
  /-- Waiting for the writer. -/
  | written
  /-- Waiting for the peer. -/
  | peer
  deriving DecidableEq, Repr

inductive Task where
  /-- `enqueue_frame`. -/
  | send (pc : SendPc)
  | close (pc : ClosePc)
  /-- `close_by_peer`, which delivers once it has set `closing`. -/
  | closeByPeer (delivering : Bool)
  | markClosed
  | ended
  | writer
  deriving DecidableEq

inductive Act where
  | goOn
  /-- `CLOSE_FLUSH_TIMEOUT` expires. -/
  | timeout
  /-- The writer goes on with the next entry, or the one it holds, and this is the outcome. -/
  | next (result : Except Error Unit)
  | hold
  /-- The writer ends without the marker. -/
  | stop
  deriving DecidableEq

/-! ### Operations -/

namespace Shared

variable (s : Shared)

/-- The writer has ended, and dropped the receiver. -/
def gone : Bool :=
  match s.writer with
  | .done _ | .aborted => true
  | _ => false

def holds : Bool :=
  match s.writer with
  | .holding _ => true
  | _ => false

/-- There is room in the outbound queue. -/
def room : Bool := s.outbound.length < s.taken + s.capacity

def push (entry : Entry) : Shared := { s with outbound := s.outbound ++ [entry] }

/-- The v3 writer tells the sender of a frame whether it was kept. -/
def tell (pos : Nat) (result : Except Error Unit) : Shared :=
  { s with
    answers := s.answers ++ [(pos, result)]
    written := match result with
      | .ok _ => s.written ++ [pos]
      | .error _ => s.written }

/-- `spawn_plain_writer`. -/
def plainWriter : Act → Option Shared
  | .next result =>
    match s.writer, s.outbound[s.taken]? with
    | .running, some .frame =>
      match result with
      | .ok _ => some { s with taken := s.taken + 1, written := s.written ++ [s.taken] }
      | .error _ => some { s with taken := s.taken + 1, closed := true, writer := .aborted }
    | .running, some .close => some { s with taken := s.taken + 1, writer := .closing }
    | .closing, _ => some { s with writer := .done result.isOk }
    | _, _ => none
  | .stop => if s.closed ∧ s.gone = false then some { s with writer := .aborted } else none
  | _ => none

/-- `RecoveryWriter`. -/
def recoveryWriter : Act → Option Shared
  | .next result =>
    match s.writer, s.outbound[s.taken]? with
    | .running, some .frame => some ({ s with taken := s.taken + 1 }.tell s.taken result)
    | .running, some .close => some { s with taken := s.taken + 1, writer := .closing }
    | .holding pos, _ => some ({ s with writer := .running }.tell pos result)
    | .closing, _ => some { s with writer := .done result.isOk }
    | _, _ => none
  | .hold =>
    match s.writer, s.outbound[s.taken]? with
    | .running, some .frame =>
      some { s with taken := s.taken + 1, writer := .holding s.taken }
    | _, _ => none
  | .stop =>
    -- Without a transport, a writer that holds a frame does not wait for the marker.
    if s.closed ∧ s.gone = false ∨ s.closing ∧ s.holds then some { s with writer := .aborted }
    else none
  | _ => none

def writerStep (a : Act) : Option Shared := if s.v3 then s.recoveryWriter a else s.plainWriter a

def enqueueFrame : SendPc → Option (Shared × SendPc)
  | .check => some (s, if s.closing then .returned none (.error .closed) else .push)
  | .push =>
    if s.gone then some (s, .returned none (.error .closed))
    else if s.room then
      some (s.push .frame,
        if s.v3 then .answer s.outbound.length else .returned (some s.outbound.length) (.ok ()))
    else none
  | .answer pos =>
    match s.answers.lookup pos with
    | some result => some (s, .returned (some pos) result)
    | none => if s.gone then some (s, .returned (some pos) (.error .closed)) else none
  | .returned _ _ => none

/-- `close` and `close_gracefully`. -/
def close : ClosePc → Option (Shared × Task)
  | .swap => some ({ s with closing := true }, if s.closing then .markClosed else .close .push)
  | .push =>
    if s.gone then some (s, .markClosed)
    else if s.room then some (s.push .close, .close .written)
    else none
  | .written =>
    match s.writer with
    | .done true => some (s, .close .peer)
    | .done false | .aborted => some (s, .markClosed)
    | _ => none
  | .peer => if s.closed then some (s, .markClosed) else none

def closeByPeer : Bool → Option (Shared × Task)
  | false =>
    some ({ s with closing := true }, if s.closing then .markClosed else .closeByPeer true)
  | true => some (s, .markClosed)

end Shared

def move (s : Shared) (t : Task) (a : Act) : Option (Shared × Task) :=
  match t, a with
  | .send pc, .goOn => (s.enqueueFrame pc).map fun r => (r.1, .send r.2)
  | .close pc, .goOn => s.close pc
  | .close .swap, .timeout => none
  | .close _, .timeout => some (s, .markClosed)
  | .closeByPeer delivering, .goOn => s.closeByPeer delivering
  | .markClosed, .goOn => some ({ s with closed := true }, .ended)
  | .writer, a => (s.writerStep a).map (·, .writer)
  | _, _ => none

/-- Calls of `enqueue_frame`, `close` and `close_by_peer` begin at any time, and whatever else closes
the connection calls `mark_closed`. -/
def starts : Task → Bool
  | .send .check | .close .swap | .closeByPeer false | .markClosed => true
  | _ => false

def program : Program Shared Task Act where
  move s _ _ t a := (move s t a).map fun r => (r.1, r.2, [])
  start _ t := starts t

def initial (v3 : Bool) (capacity : Nat) : State Shared Task where
  shared :=
    { v3 := v3
      capacity := capacity
      closing := false
      closed := false
      outbound := []
      taken := 0
      writer := .running
      answers := []
      written := [] }
  tasks := [.writer]

def machine : Machine (State Shared Task) (Event Task Act) where
  init c := ∃ v3 capacity, c = initial v3 capacity
  step c ev := program.step c ev

/-! ### What sends return -/

namespace Shared

variable (s : Shared)

/-- The position is in front of every close marker. -/
def InFront (pos : Nat) : Prop := ∀ m, s.outbound[m]? = some .close → pos < m

def Behind (pos : Nat) : Prop := ∃ m < pos, s.outbound[m]? = some .close

/-- What a send was told of the frame at `pos`, if it was queued, is so. -/
structure Told (pos : Option Nat) (result : Except Error Unit) : Prop where
  /-- Ok: the frame is in front of the close marker and the writer has written or kept it, or, in
  v2, has yet to come to it; unless the connection closes first. -/
  ok : result = .ok () → ∃ p, pos = some p ∧ s.outbound[p]? = some .frame ∧ s.InFront p ∧
    (p ∈ s.written ∨ s.v3 = false ∧ (s.writer = .running ∨ s.writer = .aborted ∧ s.closed = true))
  unqueued : pos = none → result = .error .closed
  behind : ∀ p, pos = some p → s.Behind p → result = .error .closed

end Shared

def SendsTold (c : State Shared Task) : Prop :=
  ∀ pos result, .send (.returned pos result) ∈ c.tasks → c.shared.Told pos result

/-- No v2 send, having found `closing` unset, queues its frame behind the close marker: it does so
before the marker is queued, or finds that the writer has ended. -/
def InTime (c : State Shared Task) (ev : Event Task Act) : Prop :=
  c.moving ev = some (.send .push) → c.shared.v3 = false → .close ∈ c.shared.outbound →
    c.shared.gone = true

instance (c : State Shared Task) : DecidablePred (InTime c) := fun _ =>
  inferInstanceAs (Decidable (_ → _ → _ → _))

/-! ### The outbound queue -/

section queue

variable {s s' : Shared} {t t' : Task} {a : Act} {pos p : Nat} {result : Except Error Unit}

/-- The outbound queue and what the writer has done with it. -/
structure Queue (s : Shared) : Prop where
  taken : s.taken ≤ s.outbound.length
  /-- The writer takes nothing behind a close marker. -/
  marker : ∀ m, s.outbound[m]? = some .close → s.taken ≤ m ∨
    s.taken = m + 1 ∧ s.writer ≠ .running ∧ ∀ pos, s.writer ≠ .holding pos
  /-- What a v2 writer has come past is written, unless the transport failed. -/
  written : s.v3 = false → s.writer ≠ .aborted →
    ∀ p < s.taken, s.outbound[p]? = some .frame → p ∈ s.written
  holding : ∀ pos, s.writer = .holding pos →
    s.v3 = true ∧ pos < s.taken ∧ s.outbound[pos]? = some .frame
  answers : ∀ pos result, (pos, result) ∈ s.answers → pos < s.taken ∧
    s.outbound[pos]? = some .frame ∧ (result = .ok () → pos ∈ s.written)
  ended : s.writer = .closing ∨ (∃ written, s.writer = .done written) →
    ∃ m, s.taken = m + 1 ∧ s.outbound[m]? = some .close
  aborted : s.v3 = false → s.writer = .aborted → s.closed = true

/-- What no operation takes back. -/
structure Grows (s s' : Shared) : Prop where
  v3 : s'.v3 = s.v3
  outbound : s.outbound <+: s'.outbound
  answers : s.answers ⊆ s'.answers

theorem Grows.same (hv : s'.v3 = s.v3) (ho : s'.outbound = s.outbound)
    (ha : s'.answers = s.answers) : Grows s s' :=
  ⟨hv, ho ▸ List.prefix_refl _, ha ▸ List.Subset.refl _⟩

theorem Grows.refl (s : Shared) : Grows s s := .same rfl rfl rfl

theorem Grows.getElem? (hG : Grows s s') {e : Entry} (h : s.outbound[p]? = some e) :
    s'.outbound[p]? = some e := by
  obtain ⟨rest, hrest⟩ := hG.outbound
  obtain ⟨hlt, -⟩ := List.getElem?_eq_some_iff.1 h
  rw [← hrest, List.getElem?_append_left hlt, h]

/-- What is queued later is queued behind. -/
theorem Grows.inFront (hG : Grows s s') (hp : p < s.outbound.length) (h : s.InFront p) :
    s'.InFront p := by
  intro m hm
  obtain ⟨rest, hrest⟩ := hG.outbound
  rcases Nat.lt_or_ge m s.outbound.length with hlt | hge
  · rw [← hrest, List.getElem?_append_left hlt] at hm
    exact h m hm
  · exact Nat.lt_of_lt_of_le hp hge

/-- An entry that is queued is queued at the end. -/
theorem getElem?_push {e e' : Entry} (h : (s.push e).outbound[p]? = some e') :
    s.outbound[p]? = some e' ∨ p = s.outbound.length ∧ e' = e := by
  simp only [Shared.push, List.getElem?_append] at h
  split at h
  · exact .inl h
  · obtain ⟨hlt, he⟩ := List.getElem?_eq_some_iff.1 h
    simp only [List.length_singleton] at hlt
    simp only [List.getElem_singleton] at he
    exact .inr ⟨by omega, he.symm⟩

theorem grows_push (s : Shared) (e : Entry) : Grows s (s.push e) :=
  ⟨rfl, List.prefix_append _ _, List.Subset.refl _⟩

theorem Queue.push (hQ : Queue s) (e : Entry) : Queue (s.push e) where
  taken := by
    simp only [Shared.push, List.length_append]
    exact Nat.le_add_right_of_le hQ.taken
  marker := by
    intro m hm
    rcases getElem?_push hm with hm | ⟨rfl, -⟩
    · exact hQ.marker m hm
    · exact .inl hQ.taken
  written := by
    intro hv hw p hp hf
    rcases getElem?_push hf with hf | ⟨rfl, -⟩
    · exact hQ.written hv hw p hp hf
    · exact absurd hp (Nat.not_lt.2 hQ.taken)
  holding := by
    intro pos h
    obtain ⟨hv, hlt, hf⟩ := hQ.holding pos h
    exact ⟨hv, hlt, (grows_push s e).getElem? hf⟩
  answers := by
    intro pos result h
    obtain ⟨hlt, hf, hok⟩ := hQ.answers pos result h
    exact ⟨hlt, (grows_push s e).getElem? hf, hok⟩
  ended := by
    intro h
    obtain ⟨m, hm, hc⟩ := hQ.ended h
    exact ⟨m, hm, (grows_push s e).getElem? hc⟩
  aborted := hQ.aborted

theorem Queue.setClosing (hQ : Queue s) (b : Bool) : Queue { s with closing := b } :=
  ⟨hQ.taken, hQ.marker, hQ.written, hQ.holding, hQ.answers, hQ.ended, hQ.aborted⟩

theorem Queue.markClosed (hQ : Queue s) : Queue { s with closed := true } :=
  ⟨hQ.taken, hQ.marker, hQ.written, hQ.holding, hQ.answers, hQ.ended, fun _ _ => rfl⟩

/-! ### The writer -/

/-- Nothing in front of what the writer takes next is a close marker that it has yet to heed. -/
theorem Queue.running (hQ : Queue s) (h : s.writer = .running ∨ ∃ pos, s.writer = .holding pos)
    {m : Nat} (hm : s.outbound[m]? = some .close) : s.taken ≤ m := by
  rcases hQ.marker m hm with hle | ⟨-, hrun, hhold⟩
  · exact hle
  · rcases h with h | ⟨pos, h⟩
    · exact absurd h hrun
    · exact absurd h (hhold pos)

/-- The entry that the writer takes next is queued, and no other one. -/
theorem taken_lt {e : Entry} (h : s.outbound[s.taken]? = some e) : s.taken < s.outbound.length :=
  (List.getElem?_eq_some_iff.1 h).1

theorem Queue.takeMarker (hQ : Queue s) (hrun : s.writer = .running)
    (hc : s.outbound[s.taken]? = some .close) :
    Queue { s with taken := s.taken + 1, writer := .closing } where
  taken := taken_lt hc
  marker := by
    intro m hm
    have hle := hQ.running (.inl hrun) hm
    rcases Nat.lt_or_ge s.taken m with hlt | hge
    · exact .inl hlt
    · exact .inr ⟨congrArg Nat.succ (Nat.le_antisymm hle hge), nofun, nofun⟩
  written := by
    intro hv _ p hp hf
    refine hQ.written hv (by rw [hrun]; exact nofun) p ?_ hf
    rcases Nat.lt_succ_iff_lt_or_eq.1 hp with hp | rfl
    · exact hp
    · cases hf.symm.trans hc
  holding := nofun
  answers := by
    intro pos result h
    obtain ⟨hlt, hrest⟩ := hQ.answers pos result h
    exact ⟨Nat.lt_succ_of_lt hlt, hrest⟩
  ended := fun _ => ⟨s.taken, rfl, hc⟩
  aborted := nofun

/-- The marker is behind a frame that the writer takes. -/
theorem Queue.marker_of_frame (hQ : Queue s) (hrun : s.writer = .running)
    (hf : s.outbound[s.taken]? = some .frame) {m : Nat} (hm : s.outbound[m]? = some .close) :
    s.taken + 1 ≤ m := by
  refine Nat.lt_of_le_of_ne (hQ.running (.inl hrun) hm) fun h => ?_
  subst h
  cases hf.symm.trans hm

theorem Queue.finish (hQ : Queue s) (hw : s.writer = .closing) (b : Bool) :
    Queue { s with writer := .done b } where
  taken := hQ.taken
  marker := by
    intro m hm
    rcases hQ.marker m hm with hle | ⟨htaken, -⟩
    · exact .inl hle
    · exact .inr ⟨htaken, nofun, nofun⟩
  written := fun hv _ => hQ.written hv (by rw [hw]; exact nofun)
  holding := nofun
  answers := hQ.answers
  ended := fun _ => hQ.ended (.inl hw)
  aborted := nofun

theorem Queue.abort (hQ : Queue s) (hclosed : s.v3 = false → s.closed = true) :
    Queue { s with writer := .aborted } where
  taken := hQ.taken
  marker := by
    intro m hm
    rcases hQ.marker m hm with hle | ⟨htaken, -⟩
    · exact .inl hle
    · exact .inr ⟨htaken, nofun, nofun⟩
  written := fun _ hw => absurd rfl hw
  holding := nofun
  answers := hQ.answers
  ended := by rintro (h | ⟨_, h⟩) <;> cases h
  aborted := fun hv _ => hclosed hv

/-- The v2 writer writes a frame. -/
theorem Queue.write (hQ : Queue s) (hrun : s.writer = .running)
    (hf : s.outbound[s.taken]? = some .frame) :
    Queue { s with taken := s.taken + 1, written := s.written ++ [s.taken] } where
  taken := taken_lt hf
  marker := fun _ hm => .inl (hQ.marker_of_frame hrun hf hm)
  written := by
    intro hv hw p hp hfp
    rcases Nat.lt_succ_iff_lt_or_eq.1 hp with hp | rfl
    · exact List.mem_append_left _ (hQ.written hv hw p hp hfp)
    · exact List.mem_append_right _ (List.mem_singleton.2 rfl)
  holding := by
    intro pos hpos
    cases hrun.symm.trans hpos
  answers := by
    intro pos result hmem
    obtain ⟨hlt, hfp, hok⟩ := hQ.answers pos result hmem
    exact ⟨Nat.lt_succ_of_lt hlt, hfp, fun h => List.mem_append_left _ (hok h)⟩
  ended := by
    intro hend
    simp only [hrun] at hend
    rcases hend with hend | ⟨_, hend⟩ <;> cases hend
  aborted := hQ.aborted

/-- The v2 writer fails to write a frame, and closes the connection. -/
theorem Queue.writeFail (hQ : Queue s) (hrun : s.writer = .running)
    (hf : s.outbound[s.taken]? = some .frame) :
    Queue { s with taken := s.taken + 1, writer := .aborted, closed := true } where
  taken := taken_lt hf
  marker := fun _ hm => .inl (hQ.marker_of_frame hrun hf hm)
  written := fun _ hw => absurd rfl hw
  holding := nofun
  answers := by
    intro pos result hmem
    obtain ⟨hlt, hfp, hok⟩ := hQ.answers pos result hmem
    exact ⟨Nat.lt_succ_of_lt hlt, hfp, hok⟩
  ended := by rintro (hend | ⟨_, hend⟩) <;> cases hend
  aborted := fun _ _ => rfl

theorem Queue.plainWriter (hQ : Queue s) (h : s.plainWriter a = some s') :
    Queue s' ∧ Grows s s' := by
  cases a with
  | next result =>
      simp only [Shared.plainWriter] at h
      split at h
      · rename_i hrun hf
        split at h
        · cases h
          exact ⟨hQ.write hrun hf, Grows.same rfl rfl rfl⟩
        · cases h
          exact ⟨hQ.writeFail hrun hf, Grows.same rfl rfl rfl⟩
      · rename_i hrun hc
        cases h
        exact ⟨hQ.takeMarker hrun hc, Grows.same rfl rfl rfl⟩
      · rename_i hrun
        cases h
        exact ⟨hQ.finish hrun _, Grows.same rfl rfl rfl⟩
      · cases h
  | stop =>
      simp only [Shared.plainWriter] at h
      split at h
      · rename_i hclosed
        cases h
        exact ⟨hQ.abort fun _ => hclosed.1, Grows.same rfl rfl rfl⟩
      · cases h
  | _ => cases h

/-- The v3 writer answers for a frame that it has taken, and goes on. -/
theorem Queue.tell (hQ : Queue s) (hv : s.v3 = true) (hrun : s.writer = .running)
    (hlt : pos < s.taken) (hf : s.outbound[pos]? = some .frame) (result : Except Error Unit) :
    Queue (s.tell pos result) where
  taken := hQ.taken
  marker := hQ.marker
  written := fun h => absurd (hv.symm.trans h) nofun
  holding := by
    intro pos' h
    cases hrun.symm.trans h
  answers := by
    intro pos' result' h
    rcases List.mem_append.1 h with h | h
    · obtain ⟨hlt', hf', hok⟩ := hQ.answers pos' result' h
      refine ⟨hlt', hf', fun hr => ?_⟩
      simp only [Shared.tell]
      split
      · exact List.mem_append_left _ (hok hr)
      · exact hok hr
    · cases List.mem_singleton.1 h
      refine ⟨hlt, hf, ?_⟩
      rintro rfl
      exact List.mem_append_right _ (List.mem_singleton.2 rfl)
  ended := by
    intro hend
    simp only [Shared.tell, hrun] at hend
    rcases hend with hend | ⟨_, hend⟩ <;> cases hend
  aborted := fun h => absurd (hv.symm.trans h) nofun

theorem Grows.tell (hG : Grows s s') (pos : Nat) (result : Except Error Unit) :
    Grows s (s'.tell pos result) :=
  ⟨hG.v3, hG.outbound, List.Subset.trans hG.answers (List.subset_append_left _ _)⟩

/-- The v3 writer takes a frame. -/
theorem Queue.takeFrame (hQ : Queue s) (hv : s.v3 = true) (hrun : s.writer = .running)
    (hf : s.outbound[s.taken]? = some .frame) : Queue { s with taken := s.taken + 1 } where
  taken := taken_lt hf
  marker := fun _ hm => .inl (hQ.marker_of_frame hrun hf hm)
  written := fun h => absurd (hv.symm.trans h) nofun
  holding := by
    intro pos h
    cases hrun.symm.trans h
  answers := by
    intro pos result h
    obtain ⟨hlt, hrest⟩ := hQ.answers pos result h
    exact ⟨Nat.lt_succ_of_lt hlt, hrest⟩
  ended := by
    intro hend
    simp only [hrun] at hend
    rcases hend with hend | ⟨_, hend⟩ <;> cases hend
  aborted := hQ.aborted

/-- The v3 writer holds a frame that it has taken. -/
theorem Queue.hold (hQ : Queue s) (hv : s.v3 = true) (hrun : s.writer = .running)
    (hlt : pos < s.taken) (hf : s.outbound[pos]? = some .frame) :
    Queue { s with writer := .holding pos } where
  taken := hQ.taken
  marker := fun _ hm => .inl (hQ.running (.inl hrun) hm)
  written := fun h => absurd (hv.symm.trans h) nofun
  holding := by
    rintro _ ⟨⟩
    exact ⟨hv, hlt, hf⟩
  answers := hQ.answers
  ended := by rintro (h | ⟨_, h⟩) <;> cases h
  aborted := nofun

/-- The v3 writer goes on from a frame that it held. -/
theorem Queue.release (hQ : Queue s) (hw : s.writer = .holding pos) :
    Queue { s with writer := .running } where
  taken := hQ.taken
  marker := fun _ hm => .inl (hQ.running (.inr ⟨pos, hw⟩) hm)
  written := fun hv => absurd ((hQ.holding pos hw).1.symm.trans hv) nofun
  holding := nofun
  answers := hQ.answers
  ended := by rintro (h | ⟨_, h⟩) <;> cases h
  aborted := nofun

theorem Queue.recoveryWriter (hQ : Queue s) (hv : s.v3 = true) (h : s.recoveryWriter a = some s') :
    Queue s' ∧ Grows s s' := by
  cases a with
  | next result =>
      simp only [Shared.recoveryWriter] at h
      split at h
      · rename_i hrun hf
        cases h
        refine ⟨(hQ.takeFrame hv hrun hf).tell hv hrun (Nat.lt_succ_self _) hf result,
          .tell ?_ s.taken result⟩
        exact .same rfl rfl rfl
      · rename_i hrun hc
        cases h
        exact ⟨hQ.takeMarker hrun hc, Grows.same rfl rfl rfl⟩
      · rename_i pos hhold
        cases h
        obtain ⟨-, hlt, hf⟩ := hQ.holding pos hhold
        refine ⟨(hQ.release hhold).tell hv rfl hlt hf result, .tell ?_ pos result⟩
        exact .same rfl rfl rfl
      · rename_i hclosing
        cases h
        exact ⟨hQ.finish hclosing _, Grows.same rfl rfl rfl⟩
      · cases h
  | hold =>
      simp only [Shared.recoveryWriter] at h
      split at h
      · rename_i hrun hf
        cases h
        exact ⟨(hQ.takeFrame hv hrun hf).hold hv hrun (Nat.lt_succ_self _) hf, Grows.same rfl rfl rfl⟩
      · cases h
  | stop =>
      simp only [Shared.recoveryWriter] at h
      split at h
      · cases h
        exact ⟨hQ.abort fun h => absurd (hv.symm.trans h) nofun, Grows.same rfl rfl rfl⟩
      · cases h
  | _ => cases h

/-! ### The senders -/

/-- What a send knows of its frame. -/
def Fits (s : Shared) : Task → Prop
  | .send (.answer pos) => s.v3 = true ∧ s.outbound[pos]? = some .frame
  | .send (.returned none result) => result = .error .closed
  | .send (.returned (some pos) result) => s.outbound[pos]? = some .frame ∧
      (s.v3 = true → result = .error .closed ∨ (pos, result) ∈ s.answers) ∧
      (s.v3 = false → result = .ok () ∧ s.InFront pos)
  | _ => True

theorem Fits.mono (hG : Grows s s') (h : Fits s t) : Fits s' t := by
  match t, h with
  | .send (.answer pos), ⟨hv, hf⟩ => exact ⟨hG.v3.trans hv, hG.getElem? hf⟩
  | .send (.returned none _), h => exact h
  | .send (.returned (some pos) result), ⟨hf, h3, h2⟩ =>
    refine ⟨hG.getElem? hf, fun hv => ?_, fun hv => ?_⟩
    · exact (h3 (hG.v3.symm.trans hv)).imp_right fun h => hG.answers h
    · obtain ⟨hok, hfront⟩ := h2 (hG.v3.symm.trans hv)
      exact ⟨hok, hG.inFront (List.getElem?_eq_some_iff.1 hf).1 hfront⟩
  | .send .check, _ | .send .push, _ | .close _, _ | .closeByPeer _, _ | .markClosed, _
  | .ended, _ | .writer, _ => trivial

/-- What the writer has answered for is in front of the close marker. -/
theorem Queue.inFront (hQ : Queue s) (h : (pos, result) ∈ s.answers) : s.InFront pos := by
  obtain ⟨hlt, hf, -⟩ := hQ.answers pos result h
  intro m hm
  have hne : pos ≠ m := by
    rintro rfl
    cases hf.symm.trans hm
  rcases hQ.marker m hm with hle | ⟨htaken, -⟩ <;> omega

/-- What a v2 writer is told to write it writes before it ends at the marker. -/
theorem Queue.written_of_inFront (hQ : Queue s) (hv : s.v3 = false) (hfront : s.InFront pos)
    (hf : s.outbound[pos]? = some .frame) :
    pos ∈ s.written ∨ s.v3 = false ∧
      (s.writer = .running ∨ s.writer = .aborted ∧ s.closed = true) := by
  have hend : s.writer = .closing ∨ (∃ written, s.writer = .done written) → pos ∈ s.written := by
    intro hw
    obtain ⟨m, htaken, hm⟩ := hQ.ended hw
    refine hQ.written hv ?_ pos ?_ hf
    · rcases hw with hw | ⟨_, hw⟩ <;> rw [hw] <;> exact nofun
    · rw [htaken]
      exact Nat.lt_succ_of_lt (hfront m hm)
  cases hw : s.writer with
  | running => exact .inr ⟨hv, .inl rfl⟩
  | holding pos => exact absurd ((hQ.holding pos hw).1.symm.trans hv) nofun
  | closing => exact .inl (hend (.inl hw))
  | done b => exact .inl (hend (.inr ⟨b, hw⟩))
  | aborted => exact .inr ⟨hv, .inr ⟨rfl, hQ.aborted hv hw⟩⟩

theorem Queue.told (hQ : Queue s) {pos : Option Nat} (h : Fits s (.send (.returned pos result))) :
    s.Told pos result := by
  cases pos with
  | none =>
      refine ⟨fun hok => ?_, fun _ => h, nofun⟩
      cases hok.symm.trans h
  | some pos =>
      obtain ⟨hf, h3, h2⟩ := h
      -- Either the sender was told Closed, or its frame is in front of the marker.
      have hcases : result = .error .closed ∨ s.InFront pos ∧
          (result = .ok () → pos ∈ s.written ∨ s.v3 = false ∧
            (s.writer = .running ∨ s.writer = .aborted ∧ s.closed = true)) := by
        cases hv : s.v3 with
        | true =>
            refine (h3 hv).imp_right fun ha => ⟨hQ.inFront ha, fun hok => .inl ?_⟩
            exact (hQ.answers pos result ha).2.2 hok
        | false =>
            obtain ⟨-, hfront⟩ := h2 hv
            refine .inr ⟨hfront, fun _ => ?_⟩
            simpa only [hv] using hQ.written_of_inFront hv hfront hf
      rcases hcases with rfl | ⟨hfront, hwritten⟩
      · exact ⟨nofun, fun _ => rfl, fun _ _ _ => rfl⟩
      · refine ⟨fun hok => ⟨pos, rfl, hf, hfront, hwritten hok⟩, nofun, ?_⟩
        rintro _ ⟨⟩ ⟨m, hlt, hm⟩
        exact absurd (hfront m hm) (Nat.lt_asymm hlt)

theorem enqueueFrame_spec {pc pc' : SendPc} (hQ : Queue s) (hF : Fits s (.send pc))
    (hin : pc = .push → s.v3 = false → .close ∈ s.outbound → s.gone = true)
    (h : s.enqueueFrame pc = some (s', pc')) :
    Queue s' ∧ Grows s s' ∧ Fits s' (.send pc') := by
  cases pc with
  | check =>
      cases h
      refine ⟨hQ, Grows.refl s, ?_⟩
      split
      · exact rfl
      · exact trivial
  | push =>
      simp only [Shared.enqueueFrame] at h
      split at h
      · cases h
        exact ⟨hQ, Grows.refl s, rfl⟩
      · rename_i hgone
        split at h
        · cases h
          have hf : (s.push .frame).outbound[s.outbound.length]? = some .frame :=
            List.getElem?_concat_length
          refine ⟨hQ.push .frame, grows_push s .frame, ?_⟩
          cases hv : s.v3 with
          | true => exact ⟨hv, hf⟩
          | false =>
              refine ⟨hf, fun h => absurd (hv.symm.trans h) nofun, fun _ => ⟨rfl, fun m hm => ?_⟩⟩
              rcases getElem?_push hm with hm | ⟨-, hm⟩
              · exact absurd (hin rfl hv (List.mem_of_getElem? hm)) hgone
              · cases hm
        · cases h
  | answer pos =>
      obtain ⟨hv, hf⟩ := hF
      have h2 : ∀ {p : Prop}, s.v3 = false → p := fun h => absurd (hv.symm.trans h) nofun
      simp only [Shared.enqueueFrame] at h
      split at h
      · rename_i result hlookup
        cases h
        refine ⟨hQ, Grows.refl s, hf, fun _ => .inr ?_, h2⟩
        obtain ⟨l₁, l₂, happ, -⟩ := List.lookup_eq_some_iff.1 hlookup
        rw [happ]
        exact List.mem_append_right _ List.mem_cons_self
      · split at h
        · cases h
          exact ⟨hQ, Grows.refl s, hf, fun _ => .inl rfl, h2⟩
        · cases h
  | returned pos result => cases h

theorem close_spec {pc : ClosePc} (hQ : Queue s) (h : s.close pc = some (s', t')) :
    Queue s' ∧ Grows s s' ∧ Fits s' t' := by
  cases pc with
  | swap =>
      cases h
      refine ⟨hQ.setClosing true, .same rfl rfl rfl, ?_⟩
      split <;> exact trivial
  | push =>
      simp only [Shared.close] at h
      split at h
      · cases h
        exact ⟨hQ, Grows.refl s, trivial⟩
      · split at h
        · cases h
          exact ⟨hQ.push .close, grows_push s .close, trivial⟩
        · cases h
  | written =>
      simp only [Shared.close] at h
      split at h <;> cases h <;> exact ⟨hQ, Grows.refl s, trivial⟩
  | peer =>
      simp only [Shared.close] at h
      split at h
      · cases h
        exact ⟨hQ, Grows.refl s, trivial⟩
      · cases h

theorem move_spec (hQ : Queue s) (hF : Fits s t)
    (hin : t = .send .push → s.v3 = false → .close ∈ s.outbound → s.gone = true)
    (h : move s t a = some (s', t')) : Queue s' ∧ Grows s s' ∧ Fits s' t' := by
  simp only [move] at h
  split at h
  · rename_i pc
    obtain ⟨⟨s₁, pc'⟩, hstep, he⟩ := Option.map_eq_some_iff.1 h
    cases he
    exact enqueueFrame_spec hQ hF (fun hpc => hin (congrArg Task.send hpc)) hstep
  · exact close_spec hQ h
  · cases h
  · cases h
    exact ⟨hQ, Grows.refl s, trivial⟩
  · rename_i delivering
    cases delivering with
    | false =>
        cases h
        refine ⟨hQ.setClosing true, .same rfl rfl rfl, ?_⟩
        split <;> exact trivial
    | true =>
        cases h
        exact ⟨hQ, Grows.refl s, trivial⟩
  · cases h
    exact ⟨hQ.markClosed, .same rfl rfl rfl, trivial⟩
  · obtain ⟨s₁, hstep, he⟩ := Option.map_eq_some_iff.1 h
    cases he
    have hwriter : Queue s' ∧ Grows s s' := by
      simp only [Shared.writerStep] at hstep
      split at hstep
      · rename_i hv
        exact hQ.recoveryWriter hv hstep
      · exact hQ.plainWriter hstep
    exact ⟨hwriter.1, hwriter.2, trivial⟩
  · cases h

end queue

/-! ### Runs -/

section run

variable {c c' : State Shared Task} {ev : Event Task Act}

structure Inv (c : State Shared Task) : Prop where
  queue : Queue c.shared
  fits : ∀ t ∈ c.tasks, Fits c.shared t

theorem Inv.step (hI : Inv c) (hin : InTime c ev) (h : machine.step c ev = some c') : Inv c' := by
  -- An operation keeps the queue, and takes back nothing that another task knows.
  have hspec : ∀ i x t s' t' new, ev = .task i x → c.tasks[i]? = some t →
      program.move c.shared c.tasks.length i t x = some (s', t', new) →
      new = [] ∧ Queue s' ∧ Grows c.shared s' ∧ Fits s' t' := by
    intro i x t s' t' new he ht hm
    obtain ⟨⟨s₁, t₁⟩, hmove, he'⟩ := Option.map_eq_some_iff.1 hm
    cases he'
    refine ⟨rfl, move_spec hI.queue (hI.fits t (List.mem_of_getElem? ht)) (fun hpush => ?_) hmove⟩
    subst hpush he
    exact hin ht
  refine ⟨?_, Program.step_forall h hI.fits ?_ ?_⟩
  · rcases Program.step_cases h with ⟨i, x, t, s', t', new, he, ht, hm, rfl⟩ | ⟨t, -, -, rfl⟩
    · exact (hspec i x t s' t' new he ht hm).2.1
    · exact hI.queue
  · intro i x t s' t' new he ht hm
    obtain ⟨rfl, -, hgrows, hfits⟩ := hspec i x t s' t' new he ht hm
    exact ⟨hfits, nofun, fun u _ hu => hu.mono hgrows⟩
  · rintro t - ht
    cases t with
    | send pc => cases pc <;> first | exact trivial | cases ht
    | _ => exact trivial

theorem inv_reachable (h : machine.ReachableUnder InTime c) : Inv c := by
  refine h.invariant ?_ fun _ _ _ hI hin hs => hI.step hin hs
  rintro _ ⟨v3, capacity, rfl⟩
  refine ⟨⟨Nat.le_refl _, nofun, fun _ _ _ hp => absurd hp (Nat.not_lt_zero _), nofun, nofun, ?_,
    nofun⟩, ?_⟩
  · rintro (h | ⟨_, h⟩) <;> cases h
  · intro t ht
    cases List.mem_singleton.1 ht
    exact trivial

theorem Inv.sendsTold (hI : Inv c) : SendsTold c :=
  fun _ _ hmem => hI.queue.told (hI.fits _ hmem)

/-- A v2 send that queues its frame behind the close marker returns Ok. -/
theorem not_sendsTold (hin : ¬InTime c ev) (h : machine.step c ev = some c') : ¬SendsTold c' := by
  intro htold
  simp only [InTime, Classical.not_imp] at hin
  obtain ⟨hmoving, hv, hclose, hgone⟩ := hin
  rcases Program.step_cases h with ⟨i, x, t, s', t', new, rfl, ht, hm, rfl⟩ | ⟨t, rfl, -, -⟩
  · cases ht.symm.trans hmoving
    obtain ⟨⟨s₁, t₁⟩, hmove, he⟩ := Option.map_eq_some_iff.1 hm
    cases he
    cases x with
    | goOn =>
        simp only [move, Shared.enqueueFrame, if_neg hgone, hv] at hmove
        split at hmove
        · cases hmove
          obtain ⟨p, hp, -, hfront, -⟩ := (htold (some c.shared.outbound.length) (.ok ())
            (List.mem_append_left _ (Machine.Pool.mem_set_self ht))).ok rfl
          cases hp
          obtain ⟨m, hm⟩ := List.mem_iff_getElem?.1 hclose
          have hlt := (List.getElem?_eq_some_iff.1 hm).1
          exact Nat.lt_asymm hlt (hfront m ((grows_push c.shared .frame).getElem? hm))
        · cases hmove
    | _ => cases hmove
  · cases hmoving

/-- **A send returns Ok just for a frame in front of the close marker.**  In every run in which no v2
send queues its frame behind the marker, every send was told what became of its frame; a step on
from such a run keeps that if and only if it is not such a send. -/
theorem sends_told (h : machine.ReachableUnder InTime c) :
    SendsTold c ∧ ∀ ev c', machine.step c ev = some c' → (SendsTold c' ↔ InTime c ev) := by
  have hI := inv_reachable h
  refine ⟨hI.sendsTold, fun ev c' hs => ⟨fun htold => ?_, fun hin => (hI.step hin hs).sendsTold⟩⟩
  by_contra hin
  exact not_sendsTold hin hs htold

end run

/-! ### A send behind the marker -/

/-- A v3 connection: a send is answered, one is caught behind the marker. -/
def answeredRun : List (Event Task Act) :=
  [.start (.send .check), .start (.send .check), .task 1 .goOn, .task 2 .goOn, .task 1 .goOn,
    .start (.close .swap), .task 3 .goOn, .task 3 .goOn, .task 2 .goOn, .task 0 (.next (.ok ())),
    .task 0 (.next (.ok ())), .task 0 (.next (.ok ())), .task 1 .goOn, .task 2 .goOn]

def answered : State Shared Task := (machine.exec (initial true 4) answeredRun).getD (initial true 4)

theorem sends_told_answered :
    .send (.returned (some 0) (.ok ())) ∈ answered.tasks ∧
      .send (.returned (some 2) (.error .closed)) ∈ answered.tasks ∧ SendsTold answered :=
  ⟨by decide, by decide,
    (sends_told (.exec answeredRun (.init ⟨true, 4, rfl⟩) rfl (by decide))).1⟩

/-- A v2 connection: `close` sets `closing` and queues its marker between the check and the channel
send of a send, which returns Ok; the writer ends at the marker. -/
def lateRun : List (Event Task Act) :=
  [.start (.send .check), .task 1 .goOn, .start (.close .swap), .task 2 .goOn, .task 2 .goOn,
    .task 1 .goOn, .task 0 (.next (.ok ())), .task 0 (.next (.ok ()))]

def late : State Shared Task := (machine.exec (initial false 4) lateRun).getD (initial false 4)

/-- The frame of a send that returned Ok is dropped. -/
theorem sent_in_vain : machine.Reachable late ∧ late.shared.writer = .done true ∧
    late.shared.outbound = [.close, .frame] ∧ late.shared.written = [] ∧
    .send (.returned (some 1) (.ok ())) ∈ late.tasks ∧ ¬SendsTold late := by
  have hmem : .send (.returned (some 1) (.ok ())) ∈ late.tasks := by decide
  refine ⟨Machine.reachable_of_exec lateRun ⟨false, 4, rfl⟩ rfl, rfl, rfl, rfl, hmem, fun htold => ?_⟩
  obtain ⟨p, hp, -, hfront, -⟩ := (htold _ _ hmem).ok rfl
  cases hp
  exact absurd (hfront 0 rfl) (by decide)

end AdaptiveMsg.Close.Sends
