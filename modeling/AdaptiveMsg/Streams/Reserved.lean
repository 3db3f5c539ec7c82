import AdaptiveMsg.Streams.Ids

/-!
# Streams — reserved streams

The peer sends no frame on a stream after its FIN, and the reader awaits each call of `accept_frame`
(`Reads`).  What the tasks then know of the stream IDs (`Task.Ok`): a stream that the peer opened is
reserved before it is removed, and the reservation ends with its FIN only.  What a task knows stays
true while the others move (`Task.Ok.leaves`), and the streams that the peer opened are registered,
reserved or at their end (`SharedOk`, `sharedOk_move`).
-/

namespace AdaptiveMsg.Streams

open Machine.Pool (Program Event)

/-! ### What the peer sends -/

/-- The stream IDs of the peer's FINs. -/
structure Fins where
  /-- The FIN has come. -/
  sent : List Nat
  /-- `accept_frame` has ended the reservation of the ID or queued the FIN marker. -/
  handled : List Nat
  deriving DecidableEq, Repr

/-- The FIN that the next operation of a task handles. -/
def Fins.move (g : Fins) : Task → Fins
  | .accept id _ fin .unreserve | .accept id _ fin .drop | .accept id _ fin (.queueFin _) =>
    if fin then { g with handled := id :: g.handled } else g
  | _ => g

def Fins.start (g : Fins) : Task → Fins
  | .accept id _ fin _ => if fin then { g with sent := id :: g.sent } else g
  | _ => g

def Fins.record (g : Fins) (c : State) (ev : Event Task Act) : Fins :=
  match ev with
  | .start t => g.start t
  | .task i _ => (c.tasks[i]?).elim g g.move

/-- The machine, with the FINs that have come. -/
def watched : Machine (State × Fins) (Event Task Act) := machine.observe (fun c ev g => g.record c ev) ⟨[], []⟩

/-- The stream whose frame the task is accepting. -/
def Task.accepts : Task → Option Nat
  | .accept id _ _ _ => some id
  | _ => none

/-- No frame of a stream comes after its FIN, or while another is being accepted. -/
def Reads (w : State × Fins) : Event Task Act → Prop
  | .start (.accept id _ _ _) => id ∉ w.2.sent ∧ ∀ t ∈ w.1.tasks, t.accepts ≠ some id
  | _ => True

instance (w : State × Fins) : DecidablePred (Reads w)
  | .start (.accept _ _ _ _) => inferInstanceAs (Decidable (_ ∧ _))
  | .start (.defaultStream _) | .start (.newStream _) | .start (.decode _ _) | .start (.close _ _)
  | .start (.recvError _ _) | .start (.markClosed _) | .start .done | .task _ _ => isTrue trivial

/-! ### What the tasks know -/

/-- Why a frame does not open the stream, though it is not registered. -/
def Shared.Retired (s : Shared) (g : Fins) (id : Nat) : Prop :=
  id ∈ s.closedPeerStreams ∨ id ∈ g.handled ∨ s.closed = true

def AcceptPc.Ok (s : Shared) (g : Fins) (id : Nat) (fin : Bool) : AcceptPc → Prop
  | .unreserve => fin = true
  | .lookupFin | .drop | .get .lookupAgain => True
  | .lookup => id ∉ g.handled
  | .checkOpened | .checkReserved => id ∉ g.handled ∧ (s.Peers id → ¬s.Registered id)
  | .get .lookup | .get .make => s.Peers id → ¬s.Registered id ∧ (id ∉ s.ids ∨ s.closed = true)
  | .get (.onNewStream ctx) | .sendMessage ctx => s.ids[ctx]? = some id
  | .queueFin ctx => s.ids[ctx]? = some id ∧ fin = true

def ErrorPc.Ok (s : Shared) (g : Fins) (id : Nat) : ErrorPc → Prop
  | .swapFin => ¬s.Peers id
  | .remove => s.Peers id → s.Retired g id
  | _ => True

def ClosePc.Ok (s : Shared) (g : Fins) (id : Nat) : ClosePc → Prop
  | .swapFin => ¬s.Peers id
  | .remove => s.Peers id → s.Retired g id
  | _ => True

def DecodePc.Ok (s : Shared) (g : Fins) (id : Nat) : DecodePc → Prop
  | .remove => id ∈ g.handled
  | .failing _ pc => pc.Ok s g id
  | _ => True

def Task.Ok (s : Shared) (g : Fins) : Task → Prop
  | .accept id _ fin pc => (fin = true → id ∈ g.sent) ∧ pc.Ok s g id fin
  | .newStream id => ∀ id' ∈ id, id' < s.nextStreamId
  | .decode ctx pc => ∃ id, s.ids[ctx]? = some id ∧ pc.Ok s g id
  | .close ctx pc => ∃ id, s.ids[ctx]? = some id ∧ pc.Ok s g id
  | .recvError ctx pc => ∃ id, s.ids[ctx]? = some id ∧ pc.Ok s g id
  | .markClosed pc => pc = .take → s.closed = true
  | .defaultStream (.onNewStream ctx) => s.ids[ctx]? = some defaultStreamId
  | .defaultStream _ | .done => True

structure SharedOk (s : Shared) (g : Fins) : Prop where
  keys : (s.streamContexts.map Prod.fst).Nodup
  contexts : ∀ e ∈ s.streamContexts, s.ids[e.2]? = some e.1
  default : ∀ ctx ∈ s.defaultStream, s.ids[ctx]? = some defaultStreamId
  retired : ∀ id ∈ s.ids, s.Peers id → s.Registered id ∨ s.Retired g id
  once : ∀ id, s.Peers id → s.ids.count id ≤ 1
  fin : ∀ id, s.FinQueued id → id ∈ g.handled
  handled : g.handled ⊆ g.sent

structure Inv (w : State × Fins) : Prop where
  shared : SharedOk w.1.shared w.2
  tasks : ∀ t ∈ w.1.tasks, t.Ok w.1.shared w.2
  /-- One call of `accept_frame` a stream. -/
  alone : ∀ id, w.1.tasks.countP (fun t => t.accepts = some id) ≤ 1

section invariant

variable {s s' : Shared} {g g' : Fins} {t t' u : Task} {new : List Task} {a : Act} {id ctx : Nat}

/-! ### What a step leaves to the others -/

/-- What a change by task `t` means for the others. -/
structure Leaves (t : Task) (s : Shared) (g : Fins) (s' : Shared) (g' : Fins) : Prop where
  ids : s.ids <+: s'.ids
  next : s.nextStreamId ≤ s'.nextStreamId
  closed : s.closed = true → s'.closed = true
  sent : g.sent ⊆ g'.sent
  handled : g.handled ⊆ g'.handled
  retired : ∀ id, s.Retired g id → s'.Retired g' id
  registered : ∀ id, s'.Registered id → s.Registered id ∨ t.registers = some id
  made : ∀ id ∈ s'.ids, id ∈ s.ids ∨ t.registers = some id
  handles : ∀ id ∈ g'.handled, id ∈ g.handled ∨ t.accepts = some id

theorem peers_mono (h : s.nextStreamId ≤ s'.nextStreamId) (hp : s'.Peers id) : s.Peers id :=
  ⟨hp.1, h.trans hp.2⟩

theorem Leaves.getElem (h : Leaves t s g s' g') (hid : s.ids[ctx]? = some id) :
    s'.ids[ctx]? = some id := by
  obtain ⟨rest, hrest⟩ := h.ids
  obtain ⟨hlt, -⟩ := List.getElem?_eq_some_iff.1 hid
  rw [← hrest, List.getElem?_append_left hlt, hid]

/-- A task that registers an ID of the peer is accepting its frame. -/
theorem accepts_of_registers (ht : t.Ok s g) (hreg : t.registers = some id) (hp : s.Peers id) :
    t.accepts = some id := by
  cases t with
  | accept id' message fin pc =>
      cases pc with
      | get pc =>
          cases pc with
          | make => exact hreg
          | lookup | onNewStream ctx | lookupAgain => cases hreg
      | _ => cases hreg
  | newStream o => exact absurd hp.2 (Nat.not_le.2 (ht id hreg))
  | defaultStream pc =>
      cases pc with
      | make =>
          cases hreg
          exact absurd rfl hp.1
      | lookup | onNewStream ctx | lookupAgain => cases hreg
  | decode ctx pc | close ctx pc | recvError ctx pc | markClosed pc | done => cases hreg

/-- Interference freedom: what a task knows stays true while another task moves. -/
theorem Task.Ok.leaves (hu : u.Ok s g) (hl : Leaves t s g s' g') (ht : t.Ok s g)
    (hne : ∀ id, u.accepts = some id → t.accepts ≠ some id) : u.Ok s' g' := by
  have hreg (id : Nat) (hid : u.accepts = some id) (hp : s'.Peers id)
      (hno : ¬s.Registered id) : ¬s'.Registered id := fun h =>
    (hl.registered id h).elim hno fun h =>
      hne id hid (accepts_of_registers ht h (peers_mono hl.next hp))
  -- The tail of an error is in two kinds of task.
  have herr (id : Nat) (pc : ErrorPc) (h : pc.Ok s g id) : pc.Ok s' g' id := by
    cases pc with
    | swapFin => exact fun hp => h (peers_mono hl.next hp)
    | remove => exact fun hp => hl.retired id (h (peers_mono hl.next hp))
    | checkOpened | checkRegistered | reserve => trivial
  cases u with
  | accept id message fin pc =>
      refine ⟨fun h => hl.sent (hu.1 h), ?_⟩
      have hu := hu.2
      have hhandled (hno : id ∉ g.handled) : id ∉ g'.handled := fun h =>
        (hl.handles id h).elim hno (hne id rfl)
      cases pc with
      | unreserve => exact hu
      | lookupFin | drop => trivial
      | lookup => exact hhandled hu
      | checkOpened | checkReserved =>
          exact ⟨hhandled hu.1, fun hp => hreg id rfl hp (hu.2 (peers_mono hl.next hp))⟩
      | get pc =>
          cases pc with
          | lookup | make =>
              intro hp
              have hp' := peers_mono hl.next hp
              refine ⟨hreg id rfl hp (hu hp').1, (hu hp').2.imp (fun hno h => ?_) hl.closed⟩
              exact (hl.made id h).elim hno fun h => hne id rfl (accepts_of_registers ht h hp')
          | onNewStream ctx => exact hl.getElem hu
          | lookupAgain => trivial
      | sendMessage ctx => exact hl.getElem hu
      | queueFin ctx => exact ⟨hl.getElem hu.1, hu.2⟩
  | newStream o => exact fun id hid => (hu id hid).trans_le hl.next
  | decode ctx pc =>
      obtain ⟨id, hid, hpc⟩ := hu
      refine ⟨id, hl.getElem hid, ?_⟩
      cases pc with
      | remove => exact hl.handled hpc
      | failing ends pc => exact herr id pc hpc
      | receiving | notify ctx => trivial
  | close ctx pc =>
      obtain ⟨id, hid, hpc⟩ := hu
      refine ⟨id, hl.getElem hid, ?_⟩
      cases pc with
      | swapFin => exact fun hp => hpc (peers_mono hl.next hp)
      | remove => exact fun hp => hl.retired id (hpc (peers_mono hl.next hp))
      | checkOpened | checkRegistered | reserve | notify ctx => trivial
  | recvError ctx pc =>
      obtain ⟨id, hid, hpc⟩ := hu
      exact ⟨id, hl.getElem hid, herr id pc hpc⟩
  | markClosed pc => exact fun hpc => hl.closed (hu hpc)
  | defaultStream pc =>
      cases pc with
      | onNewStream ctx => exact hl.getElem hu
      | lookup | make | lookupAgain => trivial
  | done => trivial

/-! ### What a step leaves of the IDs -/

@[simp] theorem move_sent (g : Fins) (t : Task) : (g.move t).sent = g.sent := by
  rw [Fins.move.eq_def]
  split
  all_goals first | split <;> rfl | rfl

theorem handled_move (g : Fins) (t : Task) : g.handled ⊆ (g.move t).handled := by
  rw [Fins.move.eq_def]
  split
  all_goals first | split | skip
  all_goals simp

/-- A FIN that is handled is one that `accept_frame` handles. -/
theorem handles_move (h : id ∈ (g.move t).handled) : id ∈ g.handled ∨ ∃ message pc,
    t = .accept id message true pc := by
  rw [Fins.move.eq_def] at h
  split at h
  all_goals first | split at h | skip
  all_goals first | exact .inl h | skip
  all_goals
    rename_i hfin
    subst hfin
    rcases List.mem_cons.1 h with rfl | h
    · exact .inr ⟨_, _, rfl⟩
    · exact .inl h

/-- A reservation ends with the FIN. -/
theorem handled_of_unreserves (ht : t.Ok s g) (h : t.unreserves = some id) :
    id ∈ (g.move t).handled := by
  cases t with
  | accept id' message fin pc =>
      cases pc with
      | unreserve =>
          have hfin : fin = true := ht.2
          cases h
          rw [Fins.move, if_pos hfin]
          exact List.mem_cons_self
      | drop =>
          cases fin with
          | false => cases h
          | true =>
              cases h
              exact List.mem_cons_self
      | _ => cases h
  | _ => cases h

theorem registered_iff : s.Registered id ↔ id ∈ s.streamContexts.map Prod.fst := by
  rw [← not_iff_not, Shared.not_registered_iff, lookup_eq_none]

theorem retired_mono (hp : s.closedPeerStreams ⊆ s'.closedPeerStreams) (hh : g.handled ⊆ g'.handled)
    (hc : s.closed = true → s'.closed = true) (h : s.Retired g id) : s'.Retired g' id :=
  h.imp (fun h => hp h) (Or.imp (fun h => hh h) hc)

/-- What a move leaves to the other tasks. -/
theorem move_leaves (ht : t.Ok s g) (h : move s t a = some (s', t', new)) :
    Leaves t s g s' (g.move t) := by
  have hsent : g.sent ⊆ (g.move t).sent := by simp
  have hhandled := handled_move g t
  have hhandles : ∀ id ∈ (g.move t).handled, id ∈ g.handled ∨ t.accepts = some id := fun id hid =>
    (handles_move hid).imp_right fun ⟨_, _, he⟩ => by rw [he]; rfl
  cases move_change h with
  | quiet hi hr _ hp hn hc _ =>
      refine ⟨hi ▸ List.prefix_rfl, hn, hc, hsent, hhandled,
        fun _ => retired_mono (by rw [hp]; exact List.Subset.refl _) hhandled hc, fun id hid => .inl ?_,
        fun id hid => .inl (hi ▸ hid), hhandles⟩
      rwa [registered_iff, hr, ← registered_iff] at hid
  | register id' ht' ho _ hi hr _ hp hn hc _ =>
      refine ⟨hi ▸ List.prefix_append _ _, hn.ge, fun h => hc.trans h, hsent, hhandled,
        fun _ => retired_mono (by rw [hp]; exact List.Subset.refl _) hhandled fun h => hc.trans h,
        fun id hid => ?_, fun id hid => ?_, hhandles⟩
      · rw [registered_iff, hr, List.map_append, List.mem_append, ← registered_iff] at hid
        refine hid.imp_right fun hid => ?_
        rw [List.mem_singleton.1 hid]
        exact ht'
      · rw [hi, List.mem_append] at hid
        refine hid.imp_right fun hid => ?_
        rw [List.mem_singleton.1 hid]
        exact ht'
  | remove ctx _ hi hr _ hp hn hc _ =>
      refine ⟨hi ▸ List.prefix_rfl, hn.ge, fun h => hc.trans h, hsent, hhandled,
        fun _ => retired_mono (by rw [hp]; exact List.Subset.refl _) hhandled fun h => hc.trans h,
        fun id hid => .inl ?_, fun id hid => .inl (hi ▸ hid), hhandles⟩
      rw [registered_iff, hr, map_fst_eraseP] at hid
      exact registered_iff.2 (List.mem_of_mem_erase hid)
  | reserve ctx _ hs =>
      subst hs
      refine ⟨List.prefix_rfl, le_rfl, fun h => h, hsent, hhandled,
        fun _ => retired_mono (fun id hid => ?_) hhandled fun h => h, fun id hid => .inl hid,
        fun id hid => .inl hid, hhandles⟩
      -- `reserve` puts the ID in front, and takes out an older entry of it.
      by_cases he : id = s.streamId ctx
      · exact he ▸ List.mem_cons_self
      · exact List.mem_cons_of_mem _ ((List.mem_erase_of_ne he).2 hid)
  | unreserve id' ht' hs =>
      subst hs
      refine ⟨List.prefix_rfl, le_rfl, fun h => h, hsent, hhandled, fun id hid => ?_,
        fun id hid => .inl hid, fun id hid => .inl hid, hhandles⟩
      rcases hid with hid | hid | hid
      · -- A reservation that ends is that of a handled FIN, so its ID stays retired.
        by_cases he : id = id'
        · exact .inr (.inl (handled_of_unreserves ht (he ▸ ht')))
        · exact .inl ((List.mem_erase_of_ne he).2 hid)
      · exact .inr (.inl (hhandled hid))
      · exact .inr (.inr hid)
  | take ht' hs =>
      subst ht' hs
      -- `mark_closed` has set the flag: every ID is retired.
      have hclosed : s.closed = true := ht rfl
      exact ⟨List.prefix_rfl, le_rfl, fun h => h, hsent, hhandled, fun _ _ => .inr (.inr hclosed),
        fun id hid => (by cases hid), fun id hid => .inl hid, hhandles⟩

/-! ### What a step leaves of the streams -/

/-- The stream that a task removes is retired. -/
theorem retired_of_removes (ht : t.Ok s g) (h : t.removes = some ctx) :
    ∃ id, s.ids[ctx]? = some id ∧ (s.Peers id → s.Retired g id) := by
  cases t with
  | decode ctx' pc =>
      obtain ⟨id, hid, hpc⟩ := ht
      cases pc with
      | remove =>
          cases h
          exact ⟨id, hid, fun _ => .inr (.inl hpc)⟩
      | failing ends pc =>
          cases pc with
          | remove =>
              cases h
              exact ⟨id, hid, hpc⟩
          | checkOpened | checkRegistered | reserve | swapFin => cases h
      | receiving | notify ctx => cases h
  | close ctx' pc =>
      obtain ⟨id, hid, hpc⟩ := ht
      cases pc with
      | remove =>
          cases h
          exact ⟨id, hid, hpc⟩
      | checkOpened | checkRegistered | reserve | swapFin | notify ctx => cases h
  | recvError ctx' pc =>
      obtain ⟨id, hid, hpc⟩ := ht
      cases pc with
      | remove =>
          cases h
          exact ⟨id, hid, hpc⟩
      | checkOpened | checkRegistered | reserve | swapFin => cases h
  | accept id message fin pc | defaultStream pc | newStream id | markClosed pc | done => cases h

theorem streamId_eq (h : s.ids[ctx]? = some id) : s.streamId ctx = id := by
  rw [Shared.ids, List.getElem?_map, Option.map_eq_some_iff] at h
  obtain ⟨stream, hs, rfl⟩ := h
  rw [Shared.streamId, hs, Option.elim]

/-- The marker that a task queues is that of a FIN it handles. -/
theorem handled_of_queuesFin (ht : t.Ok s g) (h : t.queuesFin = some ctx)
    (hid : s.ids[ctx]? = some id) : id ∈ (g.move t).handled := by
  cases t with
  | accept id' message fin pc =>
      cases pc with
      | queueFin ctx' =>
          cases h
          obtain ⟨hid', hfin⟩ := ht.2
          rw [hid] at hid'
          cases hid'
          rw [Fins.move, if_pos hfin]
          exact List.mem_cons_self
      | _ => cases h
  | _ => cases h

/-- A task registers no ID of the peer that has been made. -/
theorem not_made_of_registers (ht : t.Ok s g) (h : t.registers = some id) (hp : s.Peers id)
    (ho : s.closed = false) : id ∉ s.ids := by
  have hacc := accepts_of_registers ht h hp
  cases t with
  | accept id' message fin pc =>
      cases hacc
      cases pc with
      | get pc =>
          cases pc with
          | make =>
              obtain ⟨-, hno | hc⟩ := ht.2 hp
              · exact hno
              · rw [ho] at hc
                cases hc
          | lookup | onNewStream ctx | lookupAgain => cases h
      | _ => cases h
  | _ => cases hacc

theorem sharedOk_move (hs : SharedOk s g) (ht : t.Ok s g) (h : move s t a = some (s', t', new)) :
    SharedOk s' (g.move t) := by
  have hl := move_leaves ht h
  have hhandled : (g.move t).handled ⊆ (g.move t).sent := by
    intro id hid
    rw [move_sent]
    rcases handles_move hid with hid | ⟨message, pc, rfl⟩
    · exact hs.handled hid
    · exact ht.1 rfl
  have hfins (hf : FinsKept s t s') : ∀ id, s'.FinQueued id → id ∈ (g.move t).handled := by
    intro id hid
    rcases hf id hid with hid | ⟨ctx, hq, hctx⟩
    · exact handled_move g t (hs.fin id hid)
    · exact handled_of_queuesFin ht hq hctx
  cases move_change h with
  | quiet hi hr hd hp hn hc hf =>
      refine ⟨hr ▸ hs.keys, fun e he => hi ▸ hs.contexts e (hr ▸ he),
        fun ctx hctx => hi ▸ hs.default ctx (hd ▸ hctx), fun id hid hpeer => ?_, fun id hpeer => ?_,
        hfins hf, hhandled⟩
      · refine (hs.retired id (hi ▸ hid) (peers_mono hn hpeer)).imp (fun h => ?_) (hl.retired id)
        rwa [registered_iff, hr, ← registered_iff]
      · exact hi ▸ hs.once id (peers_mono hn hpeer)
  | register id' ht' ho hno hi hr hd hp hn hc hf =>
      -- The new stream is registered under an ID that is free.
      have hnew : (id', s.ids.length) ∈ s'.streamContexts := by
        rw [hr]
        exact List.mem_append_right _ List.mem_cons_self
      have hget : s'.ids[s.ids.length]? = some id' := by
        rw [hi, List.getElem?_append_right le_rfl, Nat.sub_self]
        rfl
      refine ⟨?_, fun e he => ?_, fun ctx hctx => ?_, fun id hid hpeer => ?_, fun id hpeer => ?_,
        hfins hf, hhandled⟩
      · rw [hr, List.map_append]
        refine List.nodup_append.2 ⟨hs.keys, by simp, fun a ha b hb he => hno ?_⟩
        cases List.mem_singleton.1 hb
        cases he
        exact registered_iff.2 ha
      · rw [hr] at he
        rcases List.mem_append.1 he with he | he
        · exact hl.getElem (hs.contexts e he)
        · rw [List.mem_singleton.1 he]
          exact hget
      · rw [hd] at hctx
        split at hctx
        · rename_i hid
          cases hctx
          rw [hget, hid]
        · exact hl.getElem (hs.default ctx hctx)
      · rw [hi] at hid
        rcases List.mem_append.1 hid with hid | hid
        · refine (hs.retired id hid (peers_mono hn.ge hpeer)).imp (fun h => ?_) (hl.retired id)
          rw [registered_iff, hr, List.map_append]
          exact List.mem_append_left _ (registered_iff.1 h)
        · rw [List.mem_singleton.1 hid]
          exact .inl (registered_iff.2 (List.mem_map_of_mem hnew))
      · have hold := hs.once id (peers_mono hn.ge hpeer)
        rw [hi, List.count_append, List.count_singleton]
        by_cases he : id' = id
        · subst he
          -- An ID of the peer is registered at its first stream only.
          have hno := not_made_of_registers ht ht' (peers_mono hn.ge hpeer) ho
          rw [List.count_eq_zero.2 hno]
          split <;> decide
        · rwa [if_neg (by simpa using he), Nat.add_zero]
  | remove ctx ht' hi hr hd hp hn hc hf =>
      -- A stream is removed once its ID is retired.
      obtain ⟨id₀, hid₀, hret⟩ := retired_of_removes ht ht'
      rw [streamId_eq hid₀] at hr
      refine ⟨?_, fun e he => ?_, fun ctx hctx => ?_, fun id hid hpeer => ?_, fun id hpeer => ?_,
        hfins hf, hhandled⟩
      · rw [hr, map_fst_eraseP]
        exact hs.keys.erase _
      · rw [hr] at he
        exact hi ▸ hs.contexts e (List.mem_of_mem_eraseP he)
      · exact hi ▸ hs.default ctx (hd ▸ hctx)
      · have hpeer' := peers_mono hn.ge hpeer
        rcases hs.retired id (hi ▸ hid) hpeer' with hreg | hret'
        · by_cases he : id = id₀
          · subst he
            exact .inr (hl.retired id (hret hpeer'))
          · refine .inl (registered_iff.2 ?_)
            rw [hr, map_fst_eraseP, List.mem_erase_of_ne he]
            exact registered_iff.1 hreg
        · exact .inr (hl.retired id hret')
      · exact hi ▸ hs.once id (peers_mono hn.ge hpeer)
  | reserve ctx ht' hs' =>
      subst hs'
      exact ⟨hs.keys, hs.contexts, hs.default,
        fun id hid hpeer => (hs.retired id hid hpeer).imp (fun h => h) (hl.retired id), hs.once,
        hfins (finsKept_of_streams rfl), hhandled⟩
  | unreserve id' ht' hs' =>
      subst hs'
      exact ⟨hs.keys, hs.contexts, hs.default,
        fun id hid hpeer => (hs.retired id hid hpeer).imp (fun h => h) (hl.retired id), hs.once,
        hfins (finsKept_of_streams rfl), hhandled⟩
  | take ht' hs' =>
      subst ht' hs'
      exact ⟨.nil, nofun, nofun, fun id _ _ => .inr (.inr (.inr (ht rfl))), hs.once,
        hfins (finsKept_of_streams rfl), hhandled⟩

end invariant

end AdaptiveMsg.Streams
