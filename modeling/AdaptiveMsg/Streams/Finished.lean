import AdaptiveMsg.Streams.Knowing
import Mathlib.Data.List.Dedup
import Mathlib.Data.List.Perm.Subperm

/-!
# Streams — reservations of finished streams

`closed_peer_streams` in the runs of a connection whose peer may send any frames, with the streams
whose FIN `accept_frame` has accepted: it has ended the reservation of the ID, or returned.

`reservations_end`: no such stream is reserved, and there are no more reservations than streams that
the peer has not finished, as long as no stream is reserved after its FIN, or finished by a frame
with a message that finds it reserved (`BeforeFin`).  `reserved_forever` is a run in which a stream is
closed while its FIN is queued behind a message.
-/

namespace AdaptiveMsg.Streams

open Machine.Pool (Program Event)

/-! ### Streams that the peer has finished -/

/-- The stream whose FIN the next operation of the task accepts. -/
def Task.acceptsFin (s : Shared) : Task → Option Nat
  | .accept id message true pc =>
    if pc = .unreserve ∨ (acceptStep s id message true pc).2.1 = .done then some id else none
  | _ => none

/-- The machine, with the streams whose FIN has been accepted. -/
def finishing : Machine (State × List Nat) (Event Task Act) :=
  machine.observe (fun c ev g => ((c.moving ev).bind (Task.acceptsFin c.shared)).toList ++ g) []

/-- Only streams that the peer has not finished are reserved. -/
structure Unfinished (w : State × List Nat) : Prop where
  finished : ∀ id ∈ w.2, id ∉ w.1.shared.closedPeerStreams
  /-- There are as many of them at most as IDs of streams that the peer has not finished. -/
  bounded : w.1.shared.closedPeerStreams.length ≤
    (w.1.shared.ids.dedup.filter (· ∉ w.2)).length

/-- A stream is reserved only before its FIN is accepted, and a FIN that does not end the reservation
of its ID is accepted only while the ID is not reserved. -/
def BeforeFin (w : State × List Nat) (ev : Event Task Act) : Prop :=
  ∀ t ∈ w.1.moving ev,
    (∀ ctx ∈ t.reserves, w.1.shared.streamId ctx ∉ w.2) ∧
    ∀ id ∈ t.acceptsFin w.1.shared, t.unreserves = none → id ∉ w.1.shared.closedPeerStreams

instance (w : State × List Nat) : DecidablePred (BeforeFin w) := fun ev =>
  inferInstanceAs (Decidable (∀ t ∈ w.1.moving ev,
    (∀ ctx ∈ t.reserves, w.1.shared.streamId ctx ∉ w.2) ∧
    ∀ id ∈ t.acceptsFin w.1.shared, t.unreserves = none → id ∉ w.1.shared.closedPeerStreams))

/-! ### Reserved streams are streams made here -/

section made

variable {s s' : Shared} {t t' : Task} {new : List Task} {a : Act} {id ctx : Nat} {c c' : State}
  {ev : Event Task Act}

/-- The Context that a task is about is one that was made. -/
def Task.Made (s : Shared) : Task → Prop
  | .decode ctx _ | .close ctx _ | .recvError ctx _ => ctx < s.streams.length
  | _ => True

structure Makes (c : State) : Prop where
  nodup : c.shared.closedPeerStreams.Nodup
  made : c.shared.closedPeerStreams ⊆ c.shared.ids
  tasks : ∀ t ∈ c.tasks, t.Made c.shared

theorem Task.Made.mono (h : s.streams.length ≤ s'.streams.length) (ht : t.Made s) : t.Made s' := by
  cases t with
  | decode ctx pc | close ctx pc | recvError ctx pc => exact Nat.lt_of_lt_of_le ht h
  | accept id message fin pc | defaultStream pc | newStream id | markClosed pc | done => exact trivial

theorem Continues.made (h : Continues s t t') (ht : t.Made s) : t'.Made s := by
  cases h with
  | decode ctx pc pc' | close ctx pc pc' | recvError ctx pc pc' => exact ht
  | _ => exact trivial

theorem mem_reserve : id ∈ (s.reserve ctx).closedPeerStreams ↔
    id = ctx ∨ id ∈ s.closedPeerStreams := by
  simp only [Shared.reserve, List.mem_cons]
  by_cases hid : id = ctx
  · simp [hid]
  · rw [List.mem_erase_of_ne hid]

theorem streams_length_ids (s : Shared) : s.ids.length = s.streams.length := by
  rw [Shared.ids, List.length_map]

theorem streamId_mem (h : ctx < s.streams.length) : s.streamId ctx ∈ s.ids := by
  have hlt : ctx < s.ids.length := by rwa [streams_length_ids]
  rw [streamId_eq (List.getElem?_eq_getElem hlt)]
  exact List.getElem_mem hlt

theorem made_of_reserves (h : t.reserves = some ctx) (ht : t.Made s) : ctx < s.streams.length := by
  simp only [Task.reserves] at h
  split at h
  case h_4 => cases h
  all_goals
    cases h
    exact ht

/-! ### What an operation does to the reservations -/

theorem reserve_of_move (ht : t.reserves = some ctx) (h : move s t a = some (s', t', new)) :
    s' = s.reserve (s.streamId ctx) := by
  simp only [Task.reserves] at ht
  split at ht
  case h_4 => cases ht
  all_goals
    cases ht
    cases a with
    | go =>
        cases h
        rfl
    | fail ends | seeClosed => cases h

theorem unreserve_of_move (ht : t.unreserves = some id) (h : move s t a = some (s', t', new)) :
    s' = s.unreserve id := by
  simp only [Task.unreserves] at ht
  split at ht
  case h_3 => cases ht
  all_goals
    cases ht
    cases a with
    | go =>
        cases h
        rfl
    | fail ends | seeClosed => cases h

theorem ids_of_move (h : move s t a = some (s', t', new)) : s.ids <+: s'.ids := by
  cases move_change h with
  | quiet hi _ _ _ _ _ _ => exact hi ▸ List.prefix_rfl
  | register id _ _ _ hi _ _ _ _ _ _ => exact hi ▸ List.prefix_append _ _
  | remove ctx _ hi _ _ _ _ _ _ => exact hi ▸ List.prefix_rfl
  | reserve ctx _ hs | unreserve id _ hs | take _ hs =>
      subst hs
      exact List.prefix_rfl

theorem closedPeerStreams_of_move (hr : t.reserves = none) (hu : t.unreserves = none)
    (h : move s t a = some (s', t', new)) : s'.closedPeerStreams = s.closedPeerStreams := by
  cases move_change h with
  | quiet _ _ _ hp _ _ _ => exact hp
  | register id _ _ _ _ _ _ hp _ _ _ => exact hp
  | remove ctx _ _ _ _ hp _ _ _ => exact hp
  | reserve ctx ht _ => cases hr.symm.trans ht
  | unreserve id ht _ => cases hu.symm.trans ht
  | take _ hs =>
      subst hs
      rfl

theorem nodup_reserve (h : s.closedPeerStreams.Nodup) : (s.reserve id).closedPeerStreams.Nodup :=
  List.nodup_cons.2 ⟨h.not_mem_erase, h.erase id⟩

theorem Makes.move (hM : Makes c) (ht : t ∈ c.tasks) (h : move c.shared t a = some (s', t', new)) :
    s'.closedPeerStreams.Nodup ∧ s'.closedPeerStreams ⊆ s'.ids := by
  have hids : c.shared.ids ⊆ s'.ids := (ids_of_move h).subset
  cases hr : t.reserves with
  | some ctx =>
      have hs := reserve_of_move hr h
      subst hs
      refine ⟨nodup_reserve hM.nodup, fun id hid => ?_⟩
      rcases mem_reserve.1 hid with rfl | hid
      · exact hids (streamId_mem (made_of_reserves hr (hM.tasks t ht)))
      · exact hids (hM.made hid)
  | none =>
      cases hu : t.unreserves with
      | some id =>
          have hs := unreserve_of_move hu h
          subst hs
          exact ⟨hM.nodup.erase id, fun id' hid => hids (hM.made (List.mem_of_mem_erase hid))⟩
      | none =>
          rw [closedPeerStreams_of_move hr hu h]
          exact ⟨hM.nodup, fun id hid => hids (hM.made hid)⟩

theorem start_made (h : starts s t = true) : t.Made s := by
  cases t with
  | close ctx pc | recvError ctx pc =>
      simp only [starts, decide_eq_true_eq] at h
      exact h.1
  | decode ctx pc | done => cases h
  | accept id message fin pc | defaultStream pc | newStream id | markClosed pc => exact trivial

theorem Makes.step (hM : Makes c) (h : machine.step c ev = some c') : Makes c' := by
  have htasks : ∀ t ∈ c'.tasks, t.Made c'.shared := by
    refine Program.step_forall h hM.tasks ?_ fun t _ ht => start_made ht
    intro i x t s' t' new _ ht hm
    have hlen : c.shared.streams.length ≤ s'.streams.length := by
      rw [← streams_length_ids, ← streams_length_ids]
      exact (ids_of_move hm).length_le
    refine ⟨?_, fun u hu => ?_, fun u _ hu => hu.mono hlen⟩
    · exact ((move_continues hm).made (hM.tasks t (List.mem_of_getElem? ht))).mono hlen
    · rw [move_new hm hu]
      cases move_effect hm with
      | register _ _ _ _ _ hl _ _ =>
          show c.shared.streams.length < s'.streams.length
          rw [hl]
          exact Nat.lt_succ_self _
      | _ => cases hu
  rcases Program.step_cases h with ⟨i, x, t, s', t', new, -, ht, hm, rfl⟩ | ⟨t, -, -, rfl⟩
  · obtain ⟨hnodup, hmade⟩ := hM.move (List.mem_of_getElem? ht) hm
    exact ⟨hnodup, hmade, htasks⟩
  · exact ⟨hM.nodup, hM.made, htasks⟩

theorem makes_reachable (h : machine.Reachable c) : Makes c := by
  refine h.invariant ?_ fun _ _ _ hM _ hs => hM.step hs
  rintro _ ⟨nextStreamId, rfl⟩
  exact ⟨List.nodup_nil, List.nil_subset _, nofun⟩

end made

/-! ### Finished streams are not reserved -/

section finished

variable {s s' : Shared} {t t' : Task} {new : List Task} {a : Act} {id ctx : Nat}
  {w w' : State × List Nat} {ev : Event Task Act} {g : List Nat}

/-- A task that accepts a FIN reserves nothing, and ends no reservation but that of its stream. -/
theorem accept_of_acceptsFin (h : t.acceptsFin s = some id) :
    t.reserves = none ∧ ∀ id', t.unreserves = some id' → id' = id := by
  simp only [Task.acceptsFin] at h
  split at h
  · split at h
    · rename_i pc _
      cases h
      refine ⟨rfl, fun id' hu => ?_⟩
      cases pc with
      | unreserve | drop =>
          cases hu
          rfl
      | _ => cases hu
    · cases h
  · cases h

/-- What the streams that are finished are after an operation. -/
theorem finished_move (hnodup : s.closedPeerStreams.Nodup) (hg : ∀ id ∈ g, id ∉ s.closedPeerStreams)
    (h : move s t a = some (s', t', new)) :
    (∀ id ∈ (t.acceptsFin s).toList ++ g, id ∉ s'.closedPeerStreams) ↔
      (∀ ctx ∈ t.reserves, s.streamId ctx ∉ g) ∧
      ∀ id ∈ t.acceptsFin s, t.unreserves = none → id ∉ s.closedPeerStreams := by
  constructor
  · intro hfin
    refine ⟨fun ctx hr hid => ?_, fun id hid hu => ?_⟩
    · have hs := reserve_of_move hr h
      subst hs
      exact hfin _ (List.mem_append_right _ hid) (mem_reserve.2 (.inl rfl))
    · rw [← closedPeerStreams_of_move (accept_of_acceptsFin hid).1 hu h]
      exact hfin id (List.mem_append_left _ (Option.mem_toList.2 hid))
  · rintro ⟨hres, hacc⟩ id hid
    rcases List.mem_append.1 hid with hid | hid
    · have hid := Option.mem_toList.1 hid
      obtain ⟨hr, hun⟩ := accept_of_acceptsFin hid
      cases hu : t.unreserves with
      | some id' =>
          have hs := unreserve_of_move hu h
          subst hs
          rw [← hun id' hu]
          exact hnodup.not_mem_erase
      | none =>
          rw [closedPeerStreams_of_move hr hu h]
          exact hacc id hid hu
    · cases hr : t.reserves with
      | some ctx =>
          have hs := reserve_of_move hr h
          subst hs
          refine fun hmem => (mem_reserve.1 hmem).elim (fun he => ?_) (hg id hid)
          exact hres ctx hr (he ▸ hid)
      | none =>
          cases hu : t.unreserves with
          | some id' =>
              have hs := unreserve_of_move hu h
              subst hs
              exact fun hmem => hg id hid (List.mem_of_mem_erase hmem)
          | none =>
              rw [closedPeerStreams_of_move hr hu h]
              exact hg id hid

/-- Reserved streams that are not finished are among the streams made and not finished. -/
theorem Makes.unfinished (hM : Makes w.1) (h : ∀ id ∈ w.2, id ∉ w.1.shared.closedPeerStreams) :
    Unfinished w := by
  refine ⟨h, (List.Nodup.subperm hM.nodup fun id hid => ?_).length_le⟩
  refine List.mem_filter.2 ⟨List.mem_dedup.2 (hM.made hid), decide_eq_true fun hfin => ?_⟩
  exact h id hfin hid

/-- A step keeps finished streams free of reservations if and only if it meets the condition. -/
theorem unfinished_step (hM : Makes w.1) (hU : Unfinished w) (h : finishing.step w ev = some w') :
    Unfinished w' ↔ BeforeFin w ev := by
  obtain ⟨hs, hg⟩ := Machine.step_observe h
  have hM' := hM.step hs
  have hiff : (∀ id ∈ w'.2, id ∉ w'.1.shared.closedPeerStreams) ↔ BeforeFin w ev := by
    rcases Program.step_cases hs with ⟨i, x, t, s', t', new, rfl, ht, hm, he⟩ | ⟨t, rfl, -, he⟩
    · have hmoving : w.1.moving (.task i x) = some t := ht
      have hfin := finished_move hM.nodup hU.finished hm
      rw [hg, he, hmoving]
      simpa only [BeforeFin, hmoving, Option.bind_some, Option.mem_def, Option.some.injEq, forall_eq']
        using hfin
    · rw [hg, he]
      exact ⟨fun _ t ht => (by cases ht), fun _ => hU.finished⟩
  exact ⟨fun hU' => hiff.1 hU'.finished, fun hC => hM'.unfinished (hiff.2 hC)⟩

/-- **Reservations end with the stream.**  In every run in which no stream is reserved after its FIN,
and none is finished by a frame with a message that finds it reserved, only streams that the peer has
not finished are reserved; a step on from such a run keeps that if and only if it is none of these. -/
theorem reservations_end (h : finishing.ReachableUnder BeforeFin w) :
    Unfinished w ∧ ∀ ev w', finishing.step w ev = some w' → (Unfinished w' ↔ BeforeFin w ev) := by
  have hmakes : ∀ w, finishing.ReachableUnder BeforeFin w → Makes w.1 := fun w h =>
    makes_reachable h.of_observe
  have hU : Unfinished w := by
    refine h.invariant_of hmakes ?_ fun w ev w' hM hU hC hs => (unfinished_step hM hU hs).2 hC
    rintro w ⟨hinit, hg⟩
    refine (makes_reachable (.init hinit)).unfinished ?_
    rw [hg]
    exact nofun
  exact ⟨hU, fun ev w' hs => unfinished_step (hmakes w h) hU hs⟩

end finished

/-! ### Runs -/

/-- Task `i` closes the stream of the first Context. -/
def closeCall (i : Nat) : List (Event Task Act) :=
  .start (.close 0 .checkOpened) :: List.replicate 4 (.task i .go)

def finishedRun (evs : List (Event Task Act)) : State × List Nat :=
  (finishing.exec (initial 1, []) evs).getD (initial 1, [])

/-- Stream 1 is closed here, then the peer finishes it. -/
def closedFirst : List (Event Task Act) :=
  openRun ++ closeCall 2 ++
    Event.start (acceptFrame 1 false true) :: List.replicate 2 (.task 3 .go)

theorem reservations_end_closedFirst : 1 ∈ (finishedRun closedFirst).2 ∧
    (finishedRun closedFirst).1.shared.closedPeerStreams = [] ∧
    Unfinished (finishedRun closedFirst) := by
  have h₀ : finishing.ReachableUnder BeforeFin (initial 1, []) := .init ⟨⟨1, rfl⟩, rfl⟩
  exact ⟨by decide, by decide, (reservations_end (.exec closedFirst h₀ rfl (by decide))).1⟩

/-- The peer finishes stream 1, with its first message not decoded yet; then it is closed here, and
its decode task ends. -/
def finishedFirst : List (Event Task Act) :=
  openRun ++ .start (acceptFrame 1 false true) :: List.replicate 3 (.task 2 .go) ++ closeCall 3 ++
    [.task 3 .go, .task 1 .seeClosed]

/-- No call is left, and the finished stream is reserved. -/
theorem reserved_forever : finishing.Reachable (finishedRun finishedFirst) ∧
    (finishedRun finishedFirst).1.tasks = List.replicate 4 .done ∧
    (finishedRun finishedFirst).2 = [1, 1] ∧
    (finishedRun finishedFirst).1.shared.closedPeerStreams = [1] ∧
    ¬Unfinished (finishedRun finishedFirst) := by
  have hreserved : 1 ∈ (finishedRun finishedFirst).1.shared.closedPeerStreams := by decide
  have h₀ : finishing.init (initial 1, []) := ⟨⟨1, rfl⟩, rfl⟩
  exact ⟨Machine.reachable_of_exec finishedFirst h₀ rfl, by decide, by decide, by decide,
    fun hU => hU.finished 1 (by decide) hreserved⟩

end AdaptiveMsg.Streams
