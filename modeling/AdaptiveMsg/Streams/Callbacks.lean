import AdaptiveMsg.Streams.Model
import Mathlib.Algebra.BigOperators.Group.List.Basic

/-!
# Streams — callbacks in pairs

Each Context is accounted for once: it is registered, a task that removed it has yet to call
`on_close_stream` for it, it was closed, or `protocol_error` dropped it.  What an operation does to
this account is one of seven effects (`Effect`, `move_effect`), and the account balances in every
state (`Accounts`).

`InOrder` is the condition under which the callbacks come in pairs: `protocol_error` removes no
stream for which `on_new_stream` was called or is about to be, and no release calls
`on_close_stream` between the registration of a Context and its `on_new_stream`.
`callbacks_paired`: then no Context is closed twice or before it was opened, and once the connection
is closed and its calls are over each one opened has been closed.  `never_closed` and
`closed_before_new` are runs without one and the other.
-/

namespace AdaptiveMsg.Streams

open Machine.Pool (Program Event sum_set_append)

/-! ### What a task has yet to call -/

/-- The Contexts that the task has yet to call `on_close_stream` for. -/
def Task.owes : Task → List Nat
  | .decode _ (.notify ctx) | .close _ (.notify ctx) => [ctx]
  | .markClosed (.notify ctxs) => ctxs
  | _ => []

def GetPc.opens : GetPc → Option Nat
  | .onNewStream ctx => some ctx
  | _ => none

/-- The Context that the task has yet to call `on_new_stream` for. -/
def Task.opens : Task → Option Nat
  | .accept _ _ _ (.get pc) | .defaultStream pc => pc.opens
  | _ => none

/-- The Context for which the task calls `on_close_stream` next. -/
def Task.closes (t : Task) : Option Nat := t.owes.head?

/-- The Context that `protocol_error` removes next. -/
def Task.drops (s : Shared) : Task → Option Nat
  | .decode ctx (.failing _ .remove) | .recvError ctx .remove =>
    s.streamContexts.lookup (s.streamId ctx)
  | _ => none

/-- A call of `get_stream_ctx` is about to call `on_new_stream`. -/
def Opening (c : State) (ctx : Nat) : Prop := ∃ t ∈ c.tasks, t.opens = some ctx

instance (c : State) (ctx : Nat) : Decidable (Opening c ctx) :=
  inferInstanceAs (Decidable (∃ t ∈ c.tasks, t.opens = some ctx))

def InOrder (c : State) (ev : Event Task Act) : Prop :=
  ∀ t ∈ c.moving ev,
    (∀ ctx ∈ t.drops c.shared, .onNewStream ctx ∉ c.shared.callbacks ∧ ¬Opening c ctx) ∧
      ∀ ctx ∈ t.closes, ¬Opening c ctx

instance (c : State) : DecidablePred (InOrder c) := fun ev =>
  inferInstanceAs (Decidable (∀ t ∈ c.moving ev,
    (∀ ctx ∈ t.drops c.shared, .onNewStream ctx ∉ c.shared.callbacks ∧ ¬Opening c ctx) ∧
      ∀ ctx ∈ t.closes, ¬Opening c ctx))

/-! ### The effect of an operation -/

/-- How often a Context is registered. -/
def Shared.registered (s : Shared) (ctx : Nat) : Nat := (s.streamContexts.map Prod.snd).count ctx

/-- What an operation does to the Contexts. -/
inductive Effect (s : Shared) (t : Task) (s' : Shared) (t' : Task) : List Task → Prop where
  | quiet (hcl : s'.closed = s.closed ∨ t' = .markClosed .take)
      (hr : s'.streamContexts = s.streamContexts) (hc : s'.callbacks = s.callbacks)
      (hd : s'.dropped = s.dropped) (hl : s'.streams.length = s.streams.length)
      (ho : t.owes = [] ∧ t'.owes = []) (hn : t.opens = none ∧ t'.opens = none) : Effect s t s' t' []
  /-- A stream is registered. -/
  | register (hclosed : s.closed = false) (hcl : s'.closed = s.closed)
      (hr : ∀ ctx, s'.registered ctx = s.registered ctx + if s.streams.length = ctx then 1 else 0)
      (hc : s'.callbacks = s.callbacks) (hd : s'.dropped = s.dropped)
      (hl : s'.streams.length = s.streams.length + 1) (ho : t.owes = [] ∧ t'.owes = [])
      (hn : t.opens = none ∧ ∀ ctx, t'.opens = some ctx → ctx = s.streams.length) :
      Effect s t s' t' [.decode s.streams.length .receiving]
  | opened (ctx : Nat) (hcl : s'.closed = s.closed) (hr : s'.streamContexts = s.streamContexts)
      (hc : s'.callbacks = s.callbacks ++ [.onNewStream ctx]) (hd : s'.dropped = s.dropped)
      (hl : s'.streams.length = s.streams.length) (ho : t.owes = [] ∧ t'.owes = [])
      (hn : t.opens = some ctx ∧ t'.opens = none) : Effect s t s' t' []
  /-- A stream is removed, by a task that goes on to call `on_close_stream`. -/
  | removed (ctx : Nat) (hcl : s'.closed = s.closed)
      (hr : ∀ ctx', s'.registered ctx' + (if ctx = ctx' then 1 else 0) = s.registered ctx')
      (hc : s'.callbacks = s.callbacks) (hd : s'.dropped = s.dropped)
      (hl : s'.streams.length = s.streams.length) (ho : t.owes = [] ∧ t'.owes = [ctx])
      (hn : t.opens = none ∧ t'.opens = none) : Effect s t s' t' []
  /-- `protocol_error` removes a stream. -/
  | dropped (ctx : Nat) (hx : t.drops s = some ctx) (hcl : s'.closed = s.closed)
      (hr : ∀ ctx', s'.registered ctx' + (if ctx = ctx' then 1 else 0) = s.registered ctx')
      (hc : s'.callbacks = s.callbacks) (hd : s'.dropped = s.dropped ++ [ctx])
      (hl : s'.streams.length = s.streams.length) (ho : t.owes = [] ∧ t'.owes = [])
      (hn : t.opens = none ∧ t'.opens = none) : Effect s t s' t' []
  | closed (ctx : Nat) (hcl : s'.closed = s.closed) (hr : s'.streamContexts = s.streamContexts)
      (hc : s'.callbacks = s.callbacks ++ [.onCloseStream ctx]) (hd : s'.dropped = s.dropped)
      (hl : s'.streams.length = s.streams.length) (ho : t.owes = ctx :: t'.owes)
      (hn : t.opens = none ∧ t'.opens = none) : Effect s t s' t' []
  /-- `mark_closed` takes the registered streams. -/
  | taken (ht : t = .markClosed .take) (hcl : s'.closed = s.closed) (hr : s'.streamContexts = []) (hc : s'.callbacks = s.callbacks)
      (hd : s'.dropped = s.dropped) (hl : s'.streams.length = s.streams.length)
      (ho : t.owes = [] ∧ t'.owes = s.streamContexts.map Prod.snd)
      (hn : t.opens = none ∧ t'.opens = none) : Effect s t s' t' []

section effect

variable {s s' : Shared} {t t' : Task} {new : List Task} {a : Act} {id ctx : Nat}

theorem count_eraseP_lookup {κ : Type*} [BEq κ] {id : κ} {l : List (κ × Nat)}
    (h : l.lookup id = some ctx) (ctx' : Nat) :
    ((l.eraseP fun e => id == e.1).map Prod.snd).count ctx' + (if ctx = ctx' then 1 else 0) =
      (l.map Prod.snd).count ctx' := by
  induction l with
  | nil => cases h
  | cons e l ih =>
      obtain ⟨id', c⟩ := e
      rw [List.lookup_cons] at h
      by_cases hid : id == id'
      · rw [hid] at h
        cases h
        simp [hid, List.count_cons]
      · simp only [Bool.not_eq_true] at hid
        rw [hid] at h
        have := ih h
        simp only [List.eraseP_cons, hid, Bool.cond_false, List.map_cons, List.count_cons]
        omega

/-- `remove_stream` finds nothing, or takes the Context registered. -/
theorem removeStream_cases (s : Shared) (id : Nat) :
    s.removeStream id = (none, s) ∨ ∃ ctx s', s.removeStream id = (some ctx, s') ∧
      s.streamContexts.lookup id = some ctx ∧
      (∀ ctx', s'.registered ctx' + (if ctx = ctx' then 1 else 0) = s.registered ctx') ∧
      s'.callbacks = s.callbacks ∧ s'.dropped = s.dropped ∧
      s'.streams.length = s.streams.length ∧ s'.closed = s.closed := by
  rw [Shared.removeStream]
  split
  · exact .inl rfl
  · rename_i ctx h
    exact .inr ⟨ctx, _, rfl, h, count_eraseP_lookup h, rfl, rfl, by simp [Shared.modify], rfl⟩

theorem makeStream_some (h : s.makeStream id = some s') : s.closed = false ∧
    (∀ ctx, s'.registered ctx = s.registered ctx + if s.streams.length = ctx then 1 else 0) ∧
    s'.callbacks = s.callbacks ∧ s'.dropped = s.dropped ∧
    s'.streams.length = s.streams.length + 1 ∧ s'.closed = s.closed := by
  simp only [Shared.makeStream] at h
  split at h
  · cases h
  · rename_i hno
    cases h
    refine ⟨by simpa using (not_or.mp hno).1, fun ctx => ?_, rfl, rfl, by simp, rfl⟩
    simp only [Shared.registered, List.map_append, List.count_append, List.map_cons, List.map_nil,
      List.count_singleton, beq_iff_eq]

@[simp] theorem owes_acceptWith (message fin : Bool) (r : Option Nat) :
    (acceptWith id message fin r).owes = [] := by
  simp only [acceptWith]
  repeat' split
  all_goals rfl

@[simp] theorem opens_acceptWith (message fin : Bool) (r : Option Nat) :
    (acceptWith id message fin r).opens = none := by
  simp only [acceptWith]
  repeat' split
  all_goals rfl

theorem getStreamCtx_effect {pc : GetPc} {r : GetResult} (h : getStreamCtx s id pc = (s', r, new))
    (ho : t.owes = []) (hn : t.opens = pc.opens) (ho' : t'.owes = [])
    (hn' : t'.opens = r.elim GetPc.opens fun _ => none) : Effect s t s' t' new := by
  cases pc with
  | lookup =>
      simp only [getStreamCtx] at h
      split at h <;> cases h <;> exact .quiet (.inl rfl) rfl rfl rfl rfl ⟨ho, ho'⟩ ⟨hn, hn'⟩
  | make =>
      simp only [getStreamCtx] at h
      split at h <;> cases h
      · rename_i hm
        obtain ⟨hopen, hr, hc, hd, hl, hcl⟩ := makeStream_some hm
        refine .register hopen hcl hr hc hd hl ⟨ho, ho'⟩ ⟨hn, fun ctx hctx => ?_⟩
        rw [hn'] at hctx
        cases hctx
        rfl
      · exact .quiet (.inl rfl) rfl rfl rfl rfl ⟨ho, ho'⟩ ⟨hn, hn'⟩
  | onNewStream ctx =>
      cases h
      exact .opened ctx rfl rfl rfl rfl rfl ⟨ho, ho'⟩ ⟨hn, hn'⟩
  | lookupAgain =>
      cases h
      exact .quiet (.inl rfl) rfl rfl rfl rfl ⟨ho, ho'⟩ ⟨hn, hn'⟩

theorem errorStep_effect {pc : ErrorPc} {r : Option ErrorPc} (h : errorStep s ctx pc = (s', r))
    (ho : t.owes = [] ∧ t'.owes = []) (hn : t.opens = none ∧ t'.opens = none)
    (hx : pc = .remove → t.drops s = s.streamContexts.lookup (s.streamId ctx)) :
    Effect s t s' t' [] := by
  cases pc with
  | checkOpened | checkRegistered | reserve =>
      cases h
      exact .quiet (.inl rfl) rfl rfl rfl rfl ho hn
  | swapFin =>
      cases h
      exact .quiet (.inl rfl) rfl rfl rfl (by simp [Shared.modify]) ho hn
  | remove =>
      simp only [errorStep] at h
      rcases removeStream_cases s (s.streamId ctx) with he | ⟨ctx', s₁, he, hlook, hr, hc, hd, hl, hcl⟩
      · rw [he] at h
        cases h
        exact .quiet (.inl rfl) rfl rfl rfl rfl ho hn
      · rw [he] at h
        cases h
        refine .dropped ctx' ((hx rfl).trans hlook) hcl hr hc ?_ hl ho hn
        simp only [hd]

theorem decodeStep_effect {pc : DecodePc} (h : decodeStep s ctx pc a = some (s', t')) :
    Effect s (.decode ctx pc) s' t' [] := by
  cases pc with
  | receiving =>
      cases a with
      | seeClosed =>
          simp only [decodeStep] at h
          split at h <;> cases h
          exact .quiet (.inl rfl) rfl rfl rfl rfl ⟨rfl, rfl⟩ ⟨rfl, rfl⟩
      | go | fail ends =>
          simp only [decodeStep] at h
          split at h
          · split at h
            all_goals first | cases h; done | skip
            all_goals
              cases h
              exact .quiet (.inl rfl) rfl rfl rfl (by simp [Shared.modify]) ⟨rfl, rfl⟩ ⟨rfl, rfl⟩
          · cases h
  | remove =>
      cases a with
      | go =>
          simp only [decodeStep] at h
          -- A stream that is gone already has been taken by another remover.
          rcases removeStream_cases s (s.streamId ctx) with he | ⟨r, s₁, he, -, hr, hc, hd, hl, hcl⟩
          · rw [he] at h
            cases h
            exact .quiet (.inl rfl) rfl rfl rfl rfl ⟨rfl, rfl⟩ ⟨rfl, rfl⟩
          · rw [he] at h
            cases h
            exact .removed r hcl hr hc hd hl ⟨rfl, rfl⟩ ⟨rfl, rfl⟩
      | fail ends | seeClosed => cases h
  | notify removed =>
      cases a with
      | go =>
          cases h
          exact .closed removed rfl rfl rfl rfl rfl rfl ⟨rfl, rfl⟩
      | fail ends | seeClosed => cases h
  | failing ends pc =>
      cases a with
      | go =>
          simp only [decodeStep] at h
          split at h
          · rename_i he
            cases h
            refine errorStep_effect he ⟨rfl, rfl⟩ ⟨rfl, rfl⟩ fun hpc => ?_
            rw [hpc]
            rfl
          · rename_i he
            cases h
            refine errorStep_effect he ?_ ?_ fun hpc => ?_
            · cases ends <;> exact ⟨rfl, rfl⟩
            · cases ends <;> exact ⟨rfl, rfl⟩
            · rw [hpc]
              rfl
      | fail ends | seeClosed => cases h

theorem closeStep_effect {pc : ClosePc} :
    Effect s (.close ctx pc) (closeStep s ctx pc).1 (closeStep s ctx pc).2 [] := by
  cases pc with
  | checkOpened | checkRegistered =>
      refine .quiet (.inl rfl) rfl rfl rfl rfl ⟨rfl, ?_⟩ ⟨rfl, rfl⟩
      simp only [closeStep]
      split <;> rfl
  | reserve => exact .quiet (.inl rfl) rfl rfl rfl rfl ⟨rfl, rfl⟩ ⟨rfl, rfl⟩
  | swapFin =>
      simp only [closeStep]
      split
      · exact .quiet (.inl rfl) rfl rfl rfl rfl ⟨rfl, rfl⟩ ⟨rfl, rfl⟩
      · exact .quiet (.inl rfl) rfl rfl rfl (by simp [Shared.modify]) ⟨rfl, rfl⟩ ⟨rfl, rfl⟩
  | remove =>
      simp only [closeStep]
      rcases removeStream_cases s (s.streamId ctx) with he | ⟨r, s₁, he, -, hr, hc, hd, hl, hcl⟩
      · rw [he]
        exact .quiet (.inl rfl) rfl rfl rfl rfl ⟨rfl, rfl⟩ ⟨rfl, rfl⟩
      · rw [he]
        exact .removed r hcl hr hc hd hl ⟨rfl, rfl⟩ ⟨rfl, rfl⟩
  | notify removed => exact .closed removed rfl rfl rfl rfl rfl rfl ⟨rfl, rfl⟩

theorem markStep_effect {pc : MarkPc} :
    Effect s (.markClosed pc) (markStep s pc).1 (markStep s pc).2 [] := by
  cases pc with
  | swap =>
      simp only [markStep]
      split
      · rename_i hclosed
        exact .quiet (.inl hclosed.symm) rfl rfl rfl rfl ⟨rfl, rfl⟩ ⟨rfl, rfl⟩
      · exact .quiet (.inr rfl) rfl rfl rfl rfl ⟨rfl, rfl⟩ ⟨rfl, rfl⟩
  | take => exact .taken rfl rfl rfl rfl rfl rfl ⟨rfl, rfl⟩ ⟨rfl, rfl⟩
  | notify ctxs =>
      cases ctxs with
      | nil => exact .quiet (.inl rfl) rfl rfl rfl rfl ⟨rfl, rfl⟩ ⟨rfl, rfl⟩
      | cons ctx ctxs =>
          exact .closed ctx rfl rfl rfl rfl (by simp [markStep, Shared.modify, Shared.call]) rfl ⟨rfl, rfl⟩

theorem newStreamStep_effect {o : Option Nat} (h : newStreamStep s o = (s', t', new)) :
    Effect s (.newStream o) s' t' new := by
  cases o with
  | none =>
      cases h
      exact .quiet (.inl rfl) rfl rfl rfl rfl ⟨rfl, rfl⟩ ⟨rfl, rfl⟩
  | some id =>
      simp only [newStreamStep] at h
      split at h
      · cases h
        exact .quiet (.inl rfl) rfl rfl rfl rfl ⟨rfl, rfl⟩ ⟨rfl, rfl⟩
      · split at h <;> cases h
        · rename_i hm
          obtain ⟨hopen, hr, hc, hd, hl, hcl⟩ := makeStream_some hm
          exact .register hopen hcl hr hc hd hl ⟨rfl, rfl⟩ ⟨rfl, fun ctx hctx => by cases hctx⟩
        · exact .quiet (.inl rfl) rfl rfl rfl rfl ⟨rfl, rfl⟩ ⟨rfl, rfl⟩

theorem acceptStep_effect {message fin : Bool} {pc : AcceptPc}
    (h : acceptStep s id message fin pc = (s', t', new)) :
    Effect s (.accept id message fin pc) s' t' new := by
  cases pc with
  | get pc =>
      simp only [acceptStep] at h
      split at h
      · rename_i hg
        cases h
        exact getStreamCtx_effect hg rfl rfl rfl rfl
      · rename_i hg
        cases h
        exact getStreamCtx_effect hg rfl rfl (owes_acceptWith ..) (opens_acceptWith ..)
  | unreserve | lookupFin | lookup | checkOpened | checkReserved | drop | sendMessage ctx
  | queueFin ctx =>
      simp only [acceptStep] at h
      repeat' split at h
      all_goals
        cases h
        first
          | exact .quiet (.inl rfl) rfl rfl rfl rfl ⟨rfl, rfl⟩ ⟨rfl, rfl⟩
          | exact .quiet (.inl rfl) rfl rfl rfl (by simp [Shared.modify]) ⟨rfl, rfl⟩ ⟨rfl, rfl⟩
          | exact .quiet (.inl rfl) rfl rfl rfl rfl ⟨rfl, owes_acceptWith ..⟩ ⟨rfl, opens_acceptWith ..⟩

/-- An operation has one of the effects. -/
theorem move_effect (h : move s t a = some (s', t', new)) : Effect s t s' t' new := by
  cases t with
  | decode ctx pc =>
      simp only [move, Option.map_eq_some_iff] at h
      obtain ⟨r, hr, h⟩ := h
      cases h
      exact decodeStep_effect hr
  | accept id message fin pc =>
      cases a with
      | go => exact acceptStep_effect (Option.some.inj h)
      | fail ends | seeClosed => cases h
  | defaultStream pc =>
      cases a with
      | go =>
          simp only [move] at h
          split at h <;> cases h
          · rename_i hg
            exact getStreamCtx_effect hg rfl rfl rfl rfl
          · rename_i hg
            exact getStreamCtx_effect hg rfl rfl rfl rfl
      | fail ends | seeClosed => cases h
  | newStream o =>
      cases a with
      | go => exact newStreamStep_effect (Option.some.inj h)
      | fail ends | seeClosed => cases h
  | close ctx pc =>
      cases a with
      | go =>
          cases h
          exact closeStep_effect
      | fail ends | seeClosed => cases h
  | recvError ctx pc =>
      cases a with
      | go =>
          simp only [move] at h
          split at h <;> cases h
          · rename_i he
            refine errorStep_effect he ⟨rfl, rfl⟩ ⟨rfl, rfl⟩ fun hpc => ?_
            rw [hpc]
            rfl
          · rename_i he
            refine errorStep_effect he ⟨rfl, rfl⟩ ⟨rfl, rfl⟩ fun hpc => ?_
            rw [hpc]
            rfl
      | fail ends | seeClosed => cases h
  | markClosed pc =>
      cases a with
      | go =>
          cases h
          exact markStep_effect
      | fail ends | seeClosed => cases h
  | done => cases a <;> cases h

end effect

/-! ### The account of a Context -/

namespace Shared

variable (s : Shared) (ctx : Nat)

/-- A Context that is registered, was dropped or was closed. -/
def settled : Nat :=
  s.registered ctx + s.dropped.count ctx + s.callbacks.count (.onCloseStream ctx)

/-- A Context that was made. -/
def made : Nat := if ctx < s.streams.length then 1 else 0

end Shared

/-- The task is about to call `on_new_stream` for the Context. -/
def Task.opening (ctx : Nat) (t : Task) : Nat := if t.opens = some ctx then 1 else 0

structure Accounts (c : State) : Prop where
  closes : ∀ ctx, c.shared.settled ctx + (c.tasks.map fun t => t.owes.count ctx).sum = c.shared.made ctx
  opens : ∀ ctx, c.shared.callbacks.count (.onNewStream ctx) + (c.tasks.map (Task.opening ctx)).sum ≤
    c.shared.made ctx
  /-- No stream is left registered once the connection has closed. -/
  taken : c.shared.closed = true → c.shared.streamContexts = [] ∨ .markClosed .take ∈ c.tasks

section accounts

variable {c c' : State} {ev : Event Task Act} {s s' : Shared} {t t' : Task} {new : List Task}
  {ctx : Nat}

theorem effect_closes (h : Effect s t s' t' new) (ctx : Nat) :
    s'.settled ctx + t'.owes.count ctx + (new.map fun t => t.owes.count ctx).sum + s.made ctx =
      s.settled ctx + t.owes.count ctx + s'.made ctx := by
  cases h with
  | quiet _ hr hc hd hl ho _ =>
      simp [Shared.settled, Shared.made, Shared.registered, hr, hc, hd, hl, ho.1, ho.2]
  | register _ _ hr hc hd hl ho _ =>
      have hmade : s'.made ctx = s.made ctx + if s.streams.length = ctx then 1 else 0 := by
        simp only [Shared.made, hl]
        split <;> split <;> split <;> omega
      have hnew : ([Task.decode s.streams.length .receiving].map fun t => t.owes.count ctx).sum = 0 := rfl
      rw [hnew, hmade, ho.1, ho.2]
      simp only [Shared.settled, hr, hc, hd]
      omega
  | opened ctx' _ hr hc hd hl ho _ =>
      simp [Shared.settled, Shared.made, Shared.registered, hr, hc, hd, hl, ho.1, ho.2]
  | removed ctx' _ hr hc hd hl ho _ =>
      have hr := hr ctx
      simp only [Shared.settled, Shared.made, hc, hd, hl, ho.1, ho.2, List.count_nil,
        List.count_singleton, List.map_nil, List.sum_nil, beq_iff_eq]
      omega
  | dropped ctx' _ _ hr hc hd hl ho _ =>
      have hr := hr ctx
      simp only [Shared.settled, Shared.made, hc, hd, hl, ho.1, ho.2, List.count_nil, List.count_append,
        List.count_singleton, List.map_nil, List.sum_nil, beq_iff_eq]
      omega
  | closed ctx' _ hr hc hd hl ho _ =>
      simp only [Shared.settled, Shared.made, Shared.registered, hr, hc, hd, hl, ho, List.count_append,
        List.count_cons, List.count_nil, List.map_nil, List.sum_nil, beq_iff_eq,
        Callback.onCloseStream.injEq]
      omega
  | taken _ _ hr hc hd hl ho _ =>
      simp only [Shared.settled, Shared.made, Shared.registered, hr, hc, hd, hl, ho.1, ho.2,
        List.count_nil, List.map_nil, List.sum_nil]
      omega

theorem effect_opens (h : Effect s t s' t' new) (ctx : Nat) :
    s'.callbacks.count (.onNewStream ctx) + t'.opening ctx + (new.map (Task.opening ctx)).sum +
        s.made ctx ≤
      s.callbacks.count (.onNewStream ctx) + t.opening ctx + s'.made ctx := by
  cases h with
  | quiet _ _ hc _ hl _ hn | removed _ _ _ hc _ hl _ hn | dropped _ _ _ _ hc _ hl _ hn
  | taken _ _ _ hc _ hl _ hn =>
      simp [Shared.made, Task.opening, hc, hl, hn.1, hn.2]
  | register _ _ _ hc _ hl _ hn =>
      have hmade : s'.made ctx = s.made ctx + if s.streams.length = ctx then 1 else 0 := by
        simp only [Shared.made, hl]
        split <;> split <;> split <;> omega
      have ht' : t'.opening ctx ≤ if s.streams.length = ctx then 1 else 0 := by
        rw [Task.opening]
        split
        · rename_i hctx
          exact Nat.le_of_eq (if_pos (hn.2 ctx hctx).symm).symm
        · exact Nat.zero_le _
      have hnew : ([Task.decode s.streams.length .receiving].map (Task.opening ctx)).sum = 0 := rfl
      rw [hc, hmade, hnew]
      omega
  | opened ctx' _ _ hc _ hl _ hn =>
      simp only [Shared.made, Task.opening, hc, hl, hn.1, hn.2, List.count_append, List.count_singleton,
        List.map_nil, List.sum_nil, beq_iff_eq, Callback.onNewStream.injEq, Option.some.injEq]
      simp
  | closed ctx' _ _ hc _ hl _ hn =>
      simp [Shared.made, Task.opening, hc, hl, hn.1, hn.2]

/-- A task that the environment starts has nothing to call. -/
theorem starts_idle (h : starts s t = true) : t.owes = [] ∧ t.opens = none := by
  cases t with
  | accept id message fin pc =>
      simp only [starts, acceptFrame, decide_eq_true_eq, Task.accept.injEq] at h
      obtain ⟨-, -, -, rfl⟩ := h
      split <;> exact ⟨rfl, rfl⟩
  | defaultStream pc =>
      simp only [starts, decide_eq_true_eq] at h
      subst h
      exact ⟨rfl, rfl⟩
  | newStream o => exact ⟨rfl, rfl⟩
  | close ctx pc | recvError ctx pc =>
      simp only [starts, decide_eq_true_eq] at h
      obtain ⟨-, rfl⟩ := h
      exact ⟨rfl, rfl⟩
  | markClosed pc =>
      simp only [starts, decide_eq_true_eq] at h
      subst h
      exact ⟨rfl, rfl⟩
  | decode ctx pc | done => cases h

/-- Removing from no registered streams is impossible. -/
theorem streamContexts_nil (h : ∀ ctx', s'.registered ctx' + (if ctx = ctx' then 1 else 0) =
    s.registered ctx') : s.streamContexts ≠ [] := by
  intro hnil
  have := h ctx
  simp [Shared.registered, hnil] at this

theorem move_take {a : Act} (h : move s (.markClosed .take) a = some (s', t', new)) :
    s'.streamContexts = [] := by
  cases a with
  | go =>
      cases h
      rfl
  | fail ends | seeClosed => cases h

theorem taken_step (hI : Accounts c) (h : machine.step c ev = some c')
    (hclosed : c'.shared.closed = true) :
    c'.shared.streamContexts = [] ∨ .markClosed .take ∈ c'.tasks := by
  rcases Program.step_cases h with ⟨i, a, t, s', t', new, -, ht, hm, rfl⟩ | ⟨t, -, -, rfl⟩
  · by_cases hne : t = .markClosed .take
    · subst hne
      exact .inl (move_take hm)
    have htake : c.shared.closed = true →
        c.shared.streamContexts = [] ∨ .markClosed .take ∈ c.tasks.set i t' ++ new := fun hc =>
      (hI.taken hc).imp_right fun hmem =>
        List.mem_append_left _ (Machine.Pool.mem_set_of_ne ht hmem (Ne.symm hne))
    cases move_effect hm with
    | quiet hcl hr =>
        rcases hcl with hcl | rfl
        · rw [hr]
          exact htake (hcl ▸ hclosed)
        · exact .inr (List.mem_append_left _ (Machine.Pool.mem_set_self ht))
    | register hopen hcl =>
        rw [hcl, hopen] at hclosed
        cases hclosed
    | opened ctx hcl hr | closed ctx hcl hr =>
        rw [hr]
        exact htake (hcl ▸ hclosed)
    | removed ctx hcl hr | dropped ctx _ hcl hr =>
        exact (htake (hcl ▸ hclosed)).imp_left fun hnil => absurd hnil (streamContexts_nil hr)
    | taken _ _ hr => exact .inl hr
  · exact (hI.taken hclosed).imp_right (List.mem_append_left _)

theorem accounts_step (hI : Accounts c) (h : machine.step c ev = some c') : Accounts c' := by
  refine ⟨fun ctx => ?_, fun ctx => ?_, taken_step hI h⟩
  · exact Program.step_sum (g := fun s => s.settled ctx) (k := fun s => s.made ctx) h (hI.closes ctx)
      (fun _ _ _ _ _ _ _ hm => effect_closes (move_effect hm) ctx)
      fun t ht => by rw [(starts_idle ht).1]; rfl
  · exact Program.step_sum_le (g := fun s => s.callbacks.count (.onNewStream ctx))
      (k := fun s => s.made ctx) h (hI.opens ctx)
      (fun _ _ _ _ _ _ _ hm => effect_opens (move_effect hm) ctx)
      fun t ht => by rw [Task.opening, (starts_idle ht).2]; rfl

/-! ### Callbacks in order -/

/-- No Context is closed before it is opened. -/
def NeverBefore (callbacks : List Callback) : Prop :=
  callbacks.Pairwise fun a b => ∀ ctx, a = .onCloseStream ctx → b ≠ .onNewStream ctx

structure PairedInv (c : State) : Prop where
  accounts : Accounts c
  dropped : ∀ ctx ∈ c.shared.dropped, .onNewStream ctx ∉ c.shared.callbacks ∧ ¬Opening c ctx
  closed : ∀ ctx, .onCloseStream ctx ∈ c.shared.callbacks → ¬Opening c ctx
  order : NeverBefore c.shared.callbacks

theorem Accounts.lt_of_settled (hI : Accounts c) (h : 0 < c.shared.settled ctx) :
    ctx < c.shared.streams.length := by
  have hc := hI.closes ctx
  rw [Shared.made] at hc
  split at hc
  · assumption
  · omega

theorem Accounts.lt_of_dropped (hI : Accounts c) (h : ctx ∈ c.shared.dropped) :
    ctx < c.shared.streams.length := by
  have := List.count_pos_iff.mpr h
  exact hI.lt_of_settled (by rw [Shared.settled]; omega)

theorem Accounts.lt_of_closed (hI : Accounts c) (h : .onCloseStream ctx ∈ c.shared.callbacks) :
    ctx < c.shared.streams.length := by
  have := List.count_pos_iff.mpr h
  exact hI.lt_of_settled (by rw [Shared.settled]; omega)

/-- Only a Context that is new is about to be opened after a step and not before. -/
theorem opening_step (h : machine.step c ev = some c') (hctx : ctx < c.shared.streams.length)
    (ho : Opening c' ctx) : Opening c ctx := by
  obtain ⟨u, hu, hopens⟩ := ho
  rcases Program.step_cases h with ⟨i, a, t, s', t', new, -, ht, hm, rfl⟩ | ⟨t, -, hs, rfl⟩
  · have heff := move_effect hm
    have hnew : (∀ v ∈ new, v.opens = none) ∧ (t'.opens = some ctx → ctx = c.shared.streams.length) := by
      cases heff with
      | register _ _ _ _ _ _ _ hn => exact ⟨by simp [Task.opens], hn.2 ctx⟩
      | quiet _ _ _ _ _ _ hn | opened _ _ _ _ _ _ _ hn | removed _ _ _ _ _ _ _ hn
      | dropped _ _ _ _ _ _ _ _ hn | closed _ _ _ _ _ _ _ hn | taken _ _ _ _ _ _ _ hn =>
          exact ⟨by simp, fun hsome => by rw [hn.2] at hsome; cases hsome⟩
    rcases Machine.Pool.mem_of_mem_set_append hu with rfl | hu | hu
    · have := hnew.2 hopens
      omega
    · exact ⟨u, hu, hopens⟩
    · rw [hnew.1 u hu] at hopens
      cases hopens
  · rcases List.mem_append.mp hu with hu | hu
    · exact ⟨u, hu, hopens⟩
    · rw [List.mem_singleton.mp hu, (starts_idle hs).2] at hopens
      cases hopens

theorem paired_step (hI : PairedInv c) (hC : InOrder c ev) (h : machine.step c ev = some c') :
    PairedInv c' := by
  have hdropped : ∀ ctx ∈ c.shared.dropped, ¬Opening c' ctx := fun ctx hctx ho =>
    (hI.dropped ctx hctx).2 (opening_step h (hI.accounts.lt_of_dropped hctx) ho)
  have hclosed : ∀ ctx, .onCloseStream ctx ∈ c.shared.callbacks → ¬Opening c' ctx := fun ctx hctx ho =>
    hI.closed ctx hctx (opening_step h (hI.accounts.lt_of_closed hctx) ho)
  have hacc := accounts_step hI.accounts h
  -- What the step leaves in place, when it calls no callback and drops nothing.
  have hsame : c'.shared.callbacks = c.shared.callbacks → c'.shared.dropped = c.shared.dropped →
      PairedInv c' := fun hc hd =>
    ⟨hacc, fun ctx hctx => ⟨hc ▸ (hI.dropped ctx (hd ▸ hctx)).1, hdropped ctx (hd ▸ hctx)⟩,
      fun ctx hctx => hclosed ctx (hc ▸ hctx), hc ▸ hI.order⟩
  rcases Program.step_cases h with ⟨i, a, t, s', t', new, rfl, ht, hm, rfl⟩ | ⟨t, -, -, rfl⟩
  · obtain ⟨hdrops, hcloses⟩ := hC t ht
    have hmem := List.mem_of_getElem? ht
    cases move_effect hm with
    | quiet _ _ hc hd | register _ _ _ hc hd | removed _ _ _ hc hd | taken _ _ _ hc hd =>
        exact hsame hc hd
    | opened ctx _ _ hc hd _ _ hn =>
        have hopening : Opening c ctx := ⟨t, hmem, hn.1⟩
        refine ⟨hacc, fun ctx' hctx' => ⟨?_, hdropped ctx' (hd ▸ hctx')⟩, fun ctx' hctx' => ?_, ?_⟩
        · have hold := hI.dropped ctx' (hd ▸ hctx')
          simp only [hc, List.mem_append, List.mem_singleton, Callback.onNewStream.injEq, not_or]
          exact ⟨hold.1, fun heq => hold.2 (heq ▸ hopening)⟩
        · simp only [hc, List.mem_append, List.mem_singleton, reduceCtorEq, or_false] at hctx'
          exact hclosed ctx' hctx'
        · rw [NeverBefore, hc, List.pairwise_append]
          refine ⟨hI.order, List.pairwise_singleton _ _, fun a ha b hb ctx' hctx' heq => ?_⟩
          subst hctx'
          rw [List.mem_singleton.mp hb, Callback.onNewStream.injEq] at heq
          exact hI.closed ctx' ha (heq ▸ hopening)
    | dropped ctx hx _ _ hc hd hl =>
        have hold := hdrops ctx hx
        have hlt : ctx < s'.streams.length := hacc.lt_of_dropped (by simp [hd])
        refine ⟨hacc, fun ctx' hctx' => ?_, fun ctx' hctx' => hclosed ctx' (hc ▸ hctx'), hc ▸ hI.order⟩
        simp only [hd, List.mem_append, List.mem_singleton] at hctx'
        rcases hctx' with hctx' | rfl
        · exact ⟨hc ▸ (hI.dropped ctx' hctx').1, hdropped ctx' hctx'⟩
        · exact ⟨hc ▸ hold.1, fun ho => hold.2 (opening_step h (hl ▸ hlt) ho)⟩
    | closed ctx _ _ hc hd hl ho =>
        have hold := hcloses ctx (by rw [Task.closes, ho]; rfl)
        have hlt : ctx < s'.streams.length := hacc.lt_of_closed (by simp [hc])
        refine ⟨hacc, fun ctx' hctx' => ⟨?_, hdropped ctx' (hd ▸ hctx')⟩, fun ctx' hctx' => ?_, ?_⟩
        · simp only [hc, List.mem_append, List.mem_singleton, reduceCtorEq, or_false]
          exact (hI.dropped ctx' (hd ▸ hctx')).1
        · simp only [hc, List.mem_append, List.mem_singleton, Callback.onCloseStream.injEq] at hctx'
          rcases hctx' with hctx' | rfl
          · exact hclosed ctx' hctx'
          · exact fun ho => hold (opening_step h (hl ▸ hlt) ho)
        · rw [NeverBefore, hc, List.pairwise_append]
          refine ⟨hI.order, List.pairwise_singleton _ _, fun a ha b hb ctx' hctx' heq => ?_⟩
          rw [List.mem_singleton.mp hb] at heq
          cases heq
  · exact hsame rfl rfl

theorem paired_reachable (h : machine.ReachableUnder InOrder c) : PairedInv c := by
  refine h.invariant ?_ fun _ _ _ hI hC hs => paired_step hI hC hs
  rintro _ ⟨nextStreamId, rfl⟩
  refine ⟨⟨fun ctx => ?_, fun ctx => ?_, fun h => by cases h⟩, by simp [initial], by simp [initial],
    .nil⟩
  · simp [initial, Shared.settled, Shared.made, Shared.registered]
  · simp [initial, Shared.made]

/-! ### The result -/

/-- The connection is closed, and no call has a callback left to make or streams left to take. -/
structure Finished (c : State) : Prop where
  closed : c.shared.closed = true
  owes : ∀ t ∈ c.tasks, t.owes = []
  opens : ∀ t ∈ c.tasks, t.opens = none
  taken : .markClosed .take ∉ c.tasks

/-- **Callbacks in pairs**, in the runs whose every step is in order. -/
theorem callbacks_paired (h : machine.ReachableUnder InOrder c) :
    NeverBefore c.shared.callbacks ∧
      (∀ ctx, c.shared.callbacks.count (.onCloseStream ctx) ≤ 1) ∧
      (Finished c → ∀ ctx, .onNewStream ctx ∈ c.shared.callbacks →
        c.shared.callbacks.count (.onCloseStream ctx) = 1) := by
  have hI := paired_reachable h
  refine ⟨hI.order, fun ctx => ?_, fun hfin ctx hnew => ?_⟩
  · have hc := hI.accounts.closes ctx
    simp only [Shared.settled, Shared.made] at hc
    split at hc <;> omega
  · -- When all has finished, no context is registered, dropped or owed a callback: all are settled.
    have hcontexts : c.shared.streamContexts = [] :=
      (hI.accounts.taken hfin.closed).resolve_right hfin.taken
    have hdropped : c.shared.dropped.count ctx = 0 :=
      List.count_eq_zero.mpr fun hmem => (hI.dropped ctx hmem).1 hnew
    have howes : (c.tasks.map fun t => t.owes.count ctx).sum = 0 := by
      refine List.sum_eq_zero fun n hn => ?_
      obtain ⟨t, ht, rfl⟩ := List.mem_map.mp hn
      rw [hfin.owes t ht]
      rfl
    have hlt : ctx < c.shared.streams.length := by
      have hpos := List.count_pos_iff.mpr hnew
      have hle := hI.accounts.opens ctx
      rw [Shared.made] at hle
      split at hle
      · assumption
      · omega
    have hc := hI.accounts.closes ctx
    simp only [Shared.settled, Shared.registered, hcontexts, hdropped, howes, List.map_nil,
      List.count_nil, Shared.made, if_pos hlt] at hc
    omega

end accounts

/-- The peer's first message opens stream 1. -/
def openRun : List (Event Task Act) :=
  .start (acceptFrame 1 true false) :: List.replicate 7 (.task 0 .go)

/-- Task `i` is `mark_closed`, with `n` streams to close. -/
def closeRun (i n : Nat) : List (Event Task Act) :=
  .start (.markClosed .swap) :: List.replicate (n + 3) (.task i .go)

def closedState : State := (machine.exec (initial 1) (openRun ++ closeRun 2 1)).getD (initial 1)

theorem callbacks_paired_closed : closedState.shared.callbacks.count (.onCloseStream 0) = 1 :=
  (callbacks_paired (.exec (openRun ++ closeRun 2 1) (.init ⟨1, rfl⟩) rfl (by decide))).2.2
    ⟨rfl, by decide, by decide, by decide⟩ 0 (by decide)

/-- The message does not decode, and the connection closes after the protocol error. -/
def droppedRun : List (Event Task Act) :=
  openRun ++ .task 1 (.fail true) :: List.replicate 4 (.task 1 .go) ++ closeRun 2 0

def droppedState : State := (machine.exec (initial 1) droppedRun).getD (initial 1)

theorem never_closed : ¬∀ c, machine.Reachable c → Finished c → ∀ ctx,
    .onNewStream ctx ∈ c.shared.callbacks → c.shared.callbacks.count (.onCloseStream ctx) = 1 := by
  intro hall
  have hr : machine.Reachable droppedState := Machine.reachable_of_exec droppedRun ⟨1, rfl⟩ rfl
  exact absurd (hall droppedState hr ⟨rfl, by decide, by decide, by decide⟩ 0 (by decide)) (by decide)

/-- The connection closes after the stream is registered, and before its `on_new_stream`. -/
def overtakenRun : List (Event Task Act) :=
  Event.start (acceptFrame 1 true false) :: List.replicate 5 (.task 0 .go) ++ closeRun 2 1 ++
    [Event.task 0 Act.go]

theorem closed_before_new : ¬∀ c, machine.Reachable c → NeverBefore c.shared.callbacks := by
  intro hall
  have h := hall ((machine.exec (initial 1) overtakenRun).getD (initial 1))
    (Machine.reachable_of_exec overtakenRun ⟨1, rfl⟩ rfl)
  have hc : ((machine.exec (initial 1) overtakenRun).getD (initial 1)).shared.callbacks =
      [.onCloseStream 0, .onNewStream 0] := by decide
  rw [hc, NeverBefore, List.pairwise_cons] at h
  exact h.1 _ List.mem_cons_self 0 rfl rfl

end AdaptiveMsg.Streams
