import AdaptiveMsg.Streams.Callbacks
import AdaptiveMsg.Streams.Reserved

/-!
# Streams — what the calls know

An operation leaves the task that moves with what its next control state knows (`move_ok`), and a
task goes on in the call it has begun (`Continues`).  With `Task.Ok.leaves` this makes up the
invariant of every run that meets `Reads` (`inv_reachable`).
-/

namespace AdaptiveMsg.Streams

open Machine.Pool (Program Event)

section invariant

variable {s s' : Shared} {g g' : Fins} {t t' u : Task} {new : List Task} {a : Act} {id ctx : Nat}

/-! ### What the task that moves knows -/

theorem lookupStreamCtx_ids (hs : SharedOk s g) (h : s.lookupStreamCtx id = some ctx) :
    s.ids[ctx]? = some id := by
  have hmap (h : s.streamContexts.lookup id = some ctx) : s.ids[ctx]? = some id :=
    hs.contexts (id, ctx) (mem_of_lookup h)
  by_cases hid : id = defaultStreamId
  · rw [Shared.lookupStreamCtx, if_pos hid, Option.or_eq_some_iff] at h
    rcases h with h | ⟨-, h⟩
    · exact hid ▸ hs.default ctx h
    · exact hmap h
  · exact hmap (lookupStreamCtx_of_ne hid ▸ h)

theorem acceptWith_ok {message fin : Bool} {r : Option Nat} (hsent : fin = true → id ∈ g.sent)
    (hr : ∀ ctx ∈ r, s.ids[ctx]? = some id) : (acceptWith id message fin r).Ok s g := by
  cases r with
  | none => trivial
  | some ctx =>
      rw [acceptWith]
      split
      · exact ⟨hsent, hr ctx rfl⟩
      · split
        · exact ⟨hsent, hr ctx rfl, ‹_›⟩
        · trivial

theorem makeStream_ids (h : s.makeStream id = some s') : s'.ids[s.streams.length]? = some id := by
  rw [Shared.makeStream] at h
  split at h
  · cases h
  · cases h
    simp [Shared.ids]

/-- Where a call of `get_stream_ctx` goes on. -/
theorem getStreamCtx_cases {pc : GetPc} {r : GetResult} (hs : SharedOk s g)
    (hpc : ∀ ctx, pc = .onNewStream ctx → s.ids[ctx]? = some id)
    (h : getStreamCtx s id pc = (s', r, new)) :
    (pc = .lookup ∧ r = .inl .make ∧ s' = s ∧ new = []) ∨
      (∃ ctx, r = .inl (.onNewStream ctx) ∧ s'.ids[ctx]? = some id ∧
        new = [.decode ctx .receiving]) ∨
      (r = .inl .lookupAgain ∧ new = []) ∨
      ∃ o, r = .inr o ∧ (∀ ctx ∈ o, s'.ids[ctx]? = some id) ∧ new = [] := by
  cases pc with
  | lookup =>
      simp only [getStreamCtx] at h
      split at h
      · rename_i ctx hctx
        cases h
        refine .inr (.inr (.inr ⟨_, rfl, fun ctx' hctx' => ?_, rfl⟩))
        exact lookupStreamCtx_ids hs (hctx.trans hctx')
      · cases h
        exact .inl ⟨rfl, rfl, rfl, rfl⟩
  | make =>
      simp only [getStreamCtx] at h
      split at h
      · rename_i hm
        cases h
        exact .inr (.inl ⟨_, rfl, makeStream_ids hm, rfl⟩)
      · cases h
        exact .inr (.inr (.inl ⟨rfl, rfl⟩))
  | onNewStream ctx =>
      cases h
      exact .inr (.inr (.inr ⟨_, rfl, fun ctx' hctx' => hpc ctx' (by cases hctx'; rfl), rfl⟩))
  | lookupAgain =>
      cases h
      exact .inr (.inr (.inr ⟨_, rfl, fun ctx hctx => lookupStreamCtx_ids hs hctx, rfl⟩))

theorem acceptStep_ok {message fin : Bool} {pc : AcceptPc} (hs : SharedOk s g)
    (ht : (Task.accept id message fin pc).Ok s g)
    (h : move s (.accept id message fin pc) .go = some (s', t', new)) :
    t'.Ok s' (g.move (.accept id message fin pc)) ∧
      ∀ u ∈ new, u.Ok s' (g.move (.accept id message fin pc)) := by
  have hl := move_leaves ht h
  obtain ⟨hsent, hpc⟩ := ht
  have hsent' : fin = true → id ∈ (g.move (.accept id message fin pc)).sent := fun h => by
    rw [move_sent]
    exact hsent h
  cases pc with
  | unreserve =>
      cases h
      exact ⟨⟨hsent', trivial⟩, List.forall_mem_nil _⟩
  | lookupFin =>
      cases h
      exact ⟨acceptWith_ok hsent fun ctx hctx => lookupStreamCtx_ids hs hctx, List.forall_mem_nil _⟩
  | lookup =>
      simp only [move, acceptStep] at h
      split at h
      · rename_i ctx hctx
        cases h
        exact ⟨acceptWith_ok hsent fun ctx' hctx' => lookupStreamCtx_ids hs (hctx.trans hctx'), List.forall_mem_nil _⟩
      · rename_i hnone
        cases h
        exact ⟨⟨hsent, hpc, fun _ => not_registered_of_lookup hnone⟩, List.forall_mem_nil _⟩
  | checkOpened =>
      cases h
      refine ⟨⟨hsent, ?_⟩, List.forall_mem_nil _⟩
      split
      · trivial
      · exact hpc
  | checkReserved =>
      cases h
      refine ⟨⟨hsent, ?_⟩, List.forall_mem_nil _⟩
      split
      · trivial
      · rename_i hno
        -- It is not registered, reserved or at its end: it was never made.
        intro hp
        refine ⟨hpc.2 hp, or_iff_not_imp_left.2 fun hmade => ?_⟩
        rcases hs.retired id (not_not.1 hmade) hp with h | h | h | h
        · exact absurd h (hpc.2 hp)
        · exact absurd h hno
        · exact absurd h hpc.1
        · exact h
  | get pc =>
      have hctx : ∀ ctx, pc = .onNewStream ctx → s.ids[ctx]? = some id := by
        rintro ctx rfl
        exact hpc
      simp only [move, acceptStep] at h
      split at h
      · rename_i hg
        cases h
        rcases getStreamCtx_cases hs hctx hg with ⟨rfl, he, rfl, rfl⟩ | ⟨ctx, he, hget, rfl⟩ |
            ⟨he, rfl⟩ | ⟨o, he, -⟩
        · cases he
          exact ⟨⟨hsent, hpc⟩, List.forall_mem_nil _⟩
        · cases he
          refine ⟨⟨hsent, hget⟩, fun u hu => ?_⟩
          rw [List.mem_singleton.1 hu]
          exact ⟨id, hget, trivial⟩
        · cases he
          exact ⟨⟨hsent, trivial⟩, List.forall_mem_nil _⟩
        · cases he
      · rename_i hg
        cases h
        rcases getStreamCtx_cases hs hctx hg with ⟨-, he, -⟩ | ⟨ctx, he, -⟩ | ⟨he, -⟩ |
            ⟨o, he, hget, rfl⟩
        · cases he
        · cases he
        · cases he
        · cases he
          exact ⟨acceptWith_ok hsent hget, List.forall_mem_nil _⟩
  | drop =>
      cases h
      exact ⟨trivial, List.forall_mem_nil _⟩
  | sendMessage ctx =>
      cases h
      refine ⟨?_, List.forall_mem_nil _⟩
      split
      · exact ⟨hsent, hl.getElem hpc, ‹_›⟩
      · trivial
  | queueFin ctx =>
      cases h
      exact ⟨trivial, List.forall_mem_nil _⟩

theorem not_peers_of_opened (h : s.openedStream id = true) : ¬s.Peers id := fun hp =>
  Nat.not_le.2 (Shared.openedStream_iff s id |>.1 h).2 hp.2

/-- A stream of the peer that is not registered is retired. -/
theorem retired_of_not_reserves (hs : SharedOk s g) (hid : s.ids[ctx]? = some id)
    (h : ¬s.reserves id = true) (hp : s.Peers id) : s.Retired g id := by
  refine (hs.retired id (List.mem_of_getElem? hid) hp).resolve_left fun hreg => h ?_
  rw [Shared.reserves, decide_eq_true_eq]
  exact ⟨hp.1, hreg⟩

theorem errorStep_ok {pc pc' : ErrorPc} (hs : SharedOk s g) (hid : s.ids[ctx]? = some id)
    (hpc : pc.Ok s g id) (h : errorStep s ctx pc = (s', some pc')) : pc'.Ok s' g id := by
  have he := streamId_eq hid
  cases pc with
  | checkOpened =>
      cases h
      rw [he]
      split
      · exact not_peers_of_opened ‹_›
      · trivial
  | checkRegistered =>
      cases h
      rw [he]
      split
      · trivial
      · exact retired_of_not_reserves hs hid ‹_›
  | reserve =>
      cases h
      rw [he]
      exact fun _ => .inl List.mem_cons_self
  | swapFin =>
      cases h
      exact fun hp => absurd hp hpc
  | remove =>
      simp only [errorStep] at h
      split at h <;> cases h

theorem closeStep_ok {pc : ClosePc} (hs : SharedOk s g) (hid : s.ids[ctx]? = some id)
    (hid' : (closeStep s ctx pc).1.ids[ctx]? = some id) (hpc : pc.Ok s g id) :
    (closeStep s ctx pc).2.Ok (closeStep s ctx pc).1 g := by
  have he := streamId_eq hid
  cases pc with
  | checkOpened =>
      refine ⟨id, hid', ?_⟩
      rw [he]
      split
      · exact not_peers_of_opened ‹_›
      · trivial
  | checkRegistered =>
      refine ⟨id, hid', ?_⟩
      rw [he]
      split
      · trivial
      · exact retired_of_not_reserves hs hid ‹_›
  | reserve =>
      refine ⟨id, hid', ?_⟩
      simp only [closeStep, he]
      exact fun _ => .inl List.mem_cons_self
  | swapFin =>
      simp only [closeStep] at hid' ⊢
      split at hid' <;> split
      · trivial
      · contradiction
      · contradiction
      · exact ⟨id, hid', fun hp => absurd hp hpc⟩
  | remove =>
      simp only [closeStep] at hid' ⊢
      split at hid'
      · exact ⟨id, hid', trivial⟩
      · trivial
  | notify removed => trivial

/-- Where a decode task goes on after what it received. -/
theorem receiving_cases (h : decodeStep s ctx .receiving a = some (s', t')) :
    t' = .done ∨ (s.FinQueued (s.streamId ctx) ∧ t' = .decode ctx .remove) ∨
      t' = .decode ctx .receiving ∨ ∃ ends, t' = .decode ctx (.failing ends .checkOpened) := by
  cases a with
  | seeClosed =>
      simp only [decodeStep] at h
      split at h <;> cases h
      exact .inl rfl
  | go | fail ends =>
      simp only [decodeStep] at h
      split at h
      · rename_i id incoming rest fin closed hstream
        cases incoming with
        | fin =>
            cases h
            try
              refine .inr (.inl ⟨⟨_, List.mem_of_getElem? hstream, ?_, List.mem_cons_self⟩, rfl⟩)
              rw [Shared.streamId, hstream, Option.elim]
        | message =>
            cases h
            first
              | exact .inr (.inr (.inl rfl))
              | exact .inr (.inr (.inr ⟨_, rfl⟩))
      · cases h

theorem decodeStep_ok {pc : DecodePc} (hs : SharedOk s g) (hid : s.ids[ctx]? = some id)
    (hid' : s'.ids[ctx]? = some id) (hpc : pc.Ok s g id)
    (h : decodeStep s ctx pc a = some (s', t')) : t'.Ok s' g := by
  cases pc with
  | receiving =>
      rcases receiving_cases h with rfl | ⟨hfin, rfl⟩ | rfl | ⟨ends, rfl⟩
      · trivial
      · rw [streamId_eq hid] at hfin
        exact ⟨id, hid', hs.fin id hfin⟩
      · exact ⟨id, hid', trivial⟩
      · exact ⟨id, hid', trivial⟩
  | remove =>
      cases a with
      | go =>
          simp only [decodeStep] at h
          split at h <;> cases h
          · exact ⟨id, hid', trivial⟩
          · trivial
      | fail ends | seeClosed => cases h
  | notify removed =>
      cases a with
      | go =>
          cases h
          trivial
      | fail ends | seeClosed => cases h
  | failing ends pc =>
      cases a with
      | go =>
          simp only [decodeStep] at h
          split at h
          · rename_i he
            cases h
            exact ⟨id, hid', errorStep_ok hs hid hpc he⟩
          · cases h
            split
            · trivial
            · exact ⟨id, hid', trivial⟩
      | fail ends | seeClosed => cases h

theorem newStreamStep_ok {o : Option Nat} (h : newStreamStep s o = (s', t', new)) :
    t'.Ok s' g ∧ ∀ u ∈ new, u.Ok s' g := by
  cases o with
  | none =>
      cases h
      refine ⟨fun id hid => ?_, List.forall_mem_nil _⟩
      cases hid
      exact Nat.lt_succ_self _
  | some id =>
      simp only [newStreamStep] at h
      split at h
      · cases h
        exact ⟨trivial, List.forall_mem_nil _⟩
      · split at h
        · rename_i hm
          cases h
          refine ⟨trivial, fun u hu => ?_⟩
          rw [List.mem_singleton.1 hu]
          exact ⟨id, makeStream_ids hm, trivial⟩
        · cases h
          exact ⟨trivial, List.forall_mem_nil _⟩

/-- What the task that moves and the tasks it starts know after its operation. -/
theorem move_ok (hs : SharedOk s g) (ht : t.Ok s g) (h : move s t a = some (s', t', new)) :
    t'.Ok s' (g.move t) ∧ ∀ u ∈ new, u.Ok s' (g.move t) := by
  have hl := move_leaves ht h
  cases t with
  | accept id message fin pc =>
      cases a with
      | go => exact acceptStep_ok hs ht h
      | fail ends | seeClosed => cases h
  | decode ctx pc =>
      simp only [move, Option.map_eq_some_iff] at h
      obtain ⟨r, hr, h⟩ := h
      cases h
      obtain ⟨id, hid, hpc⟩ := ht
      exact ⟨decodeStep_ok hs hid (hl.getElem hid) hpc hr, List.forall_mem_nil _⟩
  | defaultStream pc =>
      cases a with
      | go =>
          -- The default stream is made by the same calls, with ID 0.
          have hctx : ∀ ctx, pc = .onNewStream ctx → s.ids[ctx]? = some defaultStreamId := by
            rintro ctx rfl
            exact ht
          simp only [move] at h
          split at h
          · rename_i hg
            cases h
            rcases getStreamCtx_cases hs hctx hg with ⟨-, he, -, rfl⟩ | ⟨ctx, he, hget, rfl⟩ |
                ⟨he, rfl⟩ | ⟨o, he, -⟩
            · cases he
              exact ⟨trivial, List.forall_mem_nil _⟩
            · cases he
              refine ⟨hget, fun u hu => ?_⟩
              rw [List.mem_singleton.1 hu]
              exact ⟨_, hget, trivial⟩
            · cases he
              exact ⟨trivial, List.forall_mem_nil _⟩
            · cases he
          · rename_i hg
            cases h
            rcases getStreamCtx_cases hs hctx hg with ⟨-, he, -⟩ | ⟨ctx, he, -⟩ | ⟨he, -⟩ |
                ⟨o, he, -, rfl⟩
            · cases he
            · cases he
            · cases he
            · exact ⟨trivial, List.forall_mem_nil _⟩
      | fail ends | seeClosed => cases h
  | newStream o =>
      cases a with
      | go => exact newStreamStep_ok (Option.some.inj h)
      | fail ends | seeClosed => cases h
  | close ctx pc =>
      cases a with
      | go =>
          cases h
          obtain ⟨id, hid, hpc⟩ := ht
          exact ⟨closeStep_ok hs hid (hl.getElem hid) hpc, List.forall_mem_nil _⟩
      | fail ends | seeClosed => cases h
  | recvError ctx pc =>
      cases a with
      | go =>
          obtain ⟨id, hid, hpc⟩ := ht
          simp only [move] at h
          split at h
          · rename_i he
            cases h
            exact ⟨⟨id, hl.getElem hid, errorStep_ok hs hid hpc he⟩, List.forall_mem_nil _⟩
          · cases h
            exact ⟨trivial, List.forall_mem_nil _⟩
      | fail ends | seeClosed => cases h
  | markClosed pc =>
      cases a with
      | go =>
          cases h
          refine ⟨?_, List.forall_mem_nil _⟩
          cases pc with
          | swap =>
              simp only [markStep]
              split
              · trivial
              · exact fun _ => rfl
          | take =>
              intro h
              cases h
          | notify ctxs =>
              cases ctxs with
              | nil => trivial
              | cons ctx ctxs =>
                  intro h
                  cases h
      | fail ends | seeClosed => cases h
  | done => cases a <;> cases h

/-! ### A task goes on -/

/-- Where a task goes on after an operation: later in the same call. -/
inductive Continues (s : Shared) : Task → Task → Prop where
  | done (t : Task) : Continues s t .done
  | accept (id : Nat) (message fin : Bool) (pc pc' : AcceptPc) :
      Continues s (.accept id message fin pc) (.accept id message fin pc')
  | defaultStream (pc pc' : GetPc) : Continues s (.defaultStream pc) (.defaultStream pc')
  | newStream : Continues s (.newStream none) (.newStream (some s.nextStreamId))
  | decode (ctx : Nat) (pc pc' : DecodePc) : Continues s (.decode ctx pc) (.decode ctx pc')
  | close (ctx : Nat) (pc pc' : ClosePc) : Continues s (.close ctx pc) (.close ctx pc')
  | recvError (ctx : Nat) (pc pc' : ErrorPc) : Continues s (.recvError ctx pc) (.recvError ctx pc')
  | markClosed (pc pc' : MarkPc) : Continues s (.markClosed pc) (.markClosed pc')

theorem acceptWith_continues {message fin : Bool} {pc : AcceptPc} (r : Option Nat) :
    Continues s (.accept id message fin pc) (acceptWith id message fin r) := by
  rw [acceptWith.eq_def]
  repeat' split
  all_goals constructor

theorem acceptStep_continues {message fin : Bool} {pc : AcceptPc}
    (h : acceptStep s id message fin pc = (s', t', new)) :
    Continues s (.accept id message fin pc) t' := by
  cases pc with
  | unreserve | checkOpened | checkReserved | drop | queueFin ctx =>
      cases h
      constructor
  | lookupFin =>
      cases h
      exact acceptWith_continues _
  | lookup =>
      simp only [acceptStep] at h
      split at h <;> cases h
      · exact acceptWith_continues _
      · constructor
  | get pc =>
      simp only [acceptStep] at h
      split at h <;> cases h
      · constructor
      · exact acceptWith_continues _
  | sendMessage ctx =>
      cases h
      split <;> constructor

theorem decodeStep_continues {pc : DecodePc} (h : decodeStep s ctx pc a = some (s', t')) :
    Continues s (.decode ctx pc) t' := by
  cases pc with
  | receiving =>
      rcases receiving_cases h with rfl | ⟨-, rfl⟩ | rfl | ⟨ends, rfl⟩ <;> constructor
  | remove | notify removed =>
      cases a with
      | go =>
          simp only [decodeStep] at h
          first | split at h | skip
          all_goals
            cases h
            constructor
      | fail ends | seeClosed => cases h
  | failing ends pc =>
      cases a with
      | go =>
          simp only [decodeStep] at h
          split at h <;> cases h
          · constructor
          · split <;> constructor
      | fail ends | seeClosed => cases h

theorem move_continues (h : move s t a = some (s', t', new)) : Continues s t t' := by
  cases t with
  | accept id message fin pc =>
      cases a with
      | go => exact acceptStep_continues (Option.some.inj h)
      | fail ends | seeClosed => cases h
  | decode ctx pc =>
      simp only [move, Option.map_eq_some_iff] at h
      obtain ⟨r, hr, h⟩ := h
      cases h
      exact decodeStep_continues hr
  | defaultStream pc | recvError ctx pc =>
      cases a with
      | go =>
          simp only [move] at h
          split at h <;> cases h <;> constructor
      | fail ends | seeClosed => cases h
  | newStream o =>
      cases a with
      | go =>
          cases o with
          | none =>
              cases h
              constructor
          | some id =>
              simp only [move, newStreamStep] at h
              repeat' split at h
              all_goals
                cases h
                constructor
      | fail ends | seeClosed => cases h
  | close ctx pc =>
      cases a with
      | go =>
          cases h
          cases pc with
          | swapFin | remove =>
              simp only [closeStep]
              split <;> constructor
          | checkOpened | checkRegistered | reserve | notify ctx => constructor
      | fail ends | seeClosed => cases h
  | markClosed pc =>
      cases a with
      | go =>
          cases h
          cases pc with
          | swap =>
              simp only [markStep]
              split <;> constructor
          | take => constructor
          | notify ctxs => cases ctxs <;> constructor
      | fail ends | seeClosed => cases h
  | done => cases a <;> cases h

theorem Continues.accepts (h : Continues s t t') : t'.accepts = none ∨ t'.accepts = t.accepts := by
  cases h with
  | accept => exact .inr rfl
  | _ => exact .inl rfl

/-- The tasks that a task starts are decode tasks. -/
theorem move_new (h : move s t a = some (s', t', new)) (hu : u ∈ new) :
    u = .decode s.streams.length .receiving := by
  cases move_effect h with
  | register => exact List.mem_singleton.1 hu
  | _ => cases hu

end invariant

/-! ### The invariant over a run -/

section run

variable {w w' : State × Fins} {ev : Event Task Act} {id : Nat}

/-- A frame whose call begins. -/
theorem start_ok {s : Shared} {g : Fins} {t : Task} (hs : SharedOk s g) (h : starts s t = true)
    (hreads : ∀ id, t.accepts = some id → id ∉ g.sent) : t.Ok s (g.start t) := by
  cases t with
  | accept id message fin pc =>
      have hno := hreads id rfl
      simp only [starts, acceptFrame, decide_eq_true_eq, Task.accept.injEq, true_and] at h
      obtain ⟨hfin, rfl⟩ := h
      rw [← hfin]
      refine ⟨fun h => ?_, ?_⟩
      · -- The FIN is sent with the frame.
        rw [Fins.start, if_pos h]
        exact List.mem_cons_self
      · split
        · rename_i hpc
          exact (Bool.and_eq_true_iff.1 hpc).1
        · rw [Fins.start]
          split
          · exact fun h => hno (hs.handled h)
          · exact fun h => hno (hs.handled h)
  | defaultStream pc =>
      simp only [starts, decide_eq_true_eq] at h
      subst h
      trivial
  | newStream o =>
      simp only [starts, decide_eq_true_eq] at h
      subst h
      intro id hid
      cases hid
  | close ctx pc | recvError ctx pc =>
      simp only [starts, decide_eq_true_eq] at h
      obtain ⟨hlt, rfl⟩ := h
      have hlt' : ctx < s.ids.length := by simpa [Shared.ids] using hlt
      exact ⟨_, List.getElem?_eq_getElem hlt', trivial⟩
  | markClosed pc =>
      simp only [starts, decide_eq_true_eq] at h
      subst h
      intro h
      cases h
  | decode ctx pc | done => cases h

theorem inv_step (hI : Inv w) (hC : Reads w ev) (h : watched.step w ev = some w') : Inv w' := by
  obtain ⟨c, g⟩ := w
  obtain ⟨c', g'⟩ := w'
  obtain ⟨hstep, hg⟩ : machine.step c ev = some c' ∧ g' = g.record c ev := Machine.step_observe h
  have halone : ∀ id, c.tasks.countP (fun t => t.accepts = some id) ≤ 1 := hI.alone
  rcases Program.step_cases hstep with ⟨i, a, t, s', t', new, rfl, ht, hm, rfl⟩ | ⟨t, rfl, hs, rfl⟩
  · obtain rfl : g' = g.move t := hg.trans (by simp only [Fins.record, ht, Option.elim])
    have hok := hI.tasks t (List.mem_of_getElem? ht)
    obtain ⟨hok', hnew⟩ := move_ok hI.shared hok hm
    have hacc := (move_continues hm).accepts
    have haccNew : ∀ u ∈ new, u.accepts = none := fun u hu => by
      rw [move_new hm hu]
      rfl
    refine ⟨sharedOk_move hI.shared hok hm, fun u hu => ?_, fun id => ?_⟩
    · obtain ⟨j, hj⟩ := List.mem_iff_getElem?.1 hu
      rcases Machine.Pool.of_getElem?_set_append hj with ⟨-, rfl⟩ | ⟨hne, hj⟩ | ⟨-, hj⟩
      · exact hok'
      · refine (hI.tasks u (List.mem_of_getElem? hj)).leaves (move_leaves hok hm) hok fun id hu ht' => ?_
        -- The two accept frames of one stream: they are one task.
        refine hne (Machine.Pool.eq_of_countP_le_one (halone id) ht ?_ hj ?_)
        · simpa using ht'
        · simpa using hu
      · exact hnew u (List.mem_of_getElem? hj)
    · -- A task accepts the frame that it accepted before, or none.
      have hle := halone id
      have hc := Machine.Pool.countP_set_add (fun t => decide (t.accepts = some id)) t' ht
      have hn : new.countP (fun t => t.accepts = some id) = 0 :=
        List.countP_eq_zero.2 fun u hu => by simp [haccNew u hu]
      rw [List.countP_append, hn]
      rcases hacc with hacc | hacc
      · simp only [hacc, reduceCtorEq, decide_false, Bool.toNat_false] at hc
        omega
      · simp only [hacc] at hc
        omega
  · obtain rfl : g' = g.start t := hg
    have hreads : ∀ id, t.accepts = some id → id ∉ g.sent ∧ ∀ u ∈ c.tasks, u.accepts ≠ some id := by
      intro id hid
      cases t with
      | accept id' message fin pc =>
          cases hid
          exact hC
      | _ => cases hid
    have hhandled : (g.start t).handled = g.handled := by
      rw [Fins.start.eq_def]
      split
      · split <;> rfl
      · rfl
    have hsent : g.sent ⊆ (g.start t).sent := by
      rw [Fins.start.eq_def]
      split
      · split
        · exact List.subset_cons_self _ _
        · exact List.Subset.refl _
      · exact List.Subset.refl _
    have hleaves : Leaves .done c.shared g c.shared (g.start t) :=
      ⟨List.prefix_rfl, le_rfl, fun h => h, hsent, hhandled ▸ List.Subset.refl _,
        fun id h => h.imp_right (Or.imp_left fun h => hhandled ▸ h), fun id h => .inl h,
        fun id h => .inl h, fun id h => .inl (hhandled ▸ h)⟩
    have hok := start_ok hI.shared hs fun id hid => (hreads id hid).1
    refine ⟨⟨hI.shared.keys, hI.shared.contexts, hI.shared.default,
        fun id hid hp => (hI.shared.retired id hid hp).imp_right (hleaves.retired id), hI.shared.once,
        fun id hid => hleaves.handled (hI.shared.fin id hid), ?_⟩, fun u hu => ?_, fun id => ?_⟩
    · rw [hhandled]
      exact List.Subset.trans hI.shared.handled hsent
    · rcases List.mem_append.1 hu with hu | hu
      · exact (hI.tasks u hu).leaves hleaves trivial nofun
      · rw [List.mem_singleton.1 hu]
        exact hok
    · by_cases hid : t.accepts = some id
      · have hnone : c.tasks.countP (fun t => t.accepts = some id) = 0 :=
          List.countP_eq_zero.2 fun u hu => by simpa using (hreads id hid).2 u hu
        rw [List.countP_append, hnone, List.countP_singleton]
        split <;> decide
      · rw [List.countP_append, List.countP_singleton, if_neg (by simpa using hid)]
        exact halone id

theorem inv_reachable {C : State × Fins → Event Task Act → Prop} (hC : ∀ w ev, C w ev → Reads w ev)
    (h : watched.ReachableUnder C w) : Inv w := by
  refine h.invariant ?_ fun _ ev _ hI hc hs => inv_step hI (hC _ ev hc) hs
  rintro ⟨_, _⟩ ⟨⟨nextStreamId, rfl⟩, rfl⟩
  exact ⟨⟨.nil, nofun, nofun, nofun, fun _ _ => Nat.zero_le _, nofun, List.Subset.refl _⟩, nofun,
    fun _ => Nat.zero_le _⟩

end run

end AdaptiveMsg.Streams
