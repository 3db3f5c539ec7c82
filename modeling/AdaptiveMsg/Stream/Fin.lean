import AdaptiveMsg.Error
import AdaptiveMsg.Machine.Pool

/-!
# Stream — the FIN of a stream

A stream that `new_stream` opened, and the calls on it: sends (those of `send_recv` and of handlers
too), `close` with the task that it spawns, and `protocol_error`.  One step for each place where
another task may come between; a call may be dropped wherever it waits.

`opened_stream` is true of the stream for good.  Whether `enqueue_frame` queues a frame, and what the
v3 writer answers, is left to the environment.  `fin_is_last`: there is at most one FIN in the
outbound queue, no data frame behind it, and in front of it every send that returned Ok.
-/

namespace AdaptiveMsg.SendFin

open Machine.Pool (Program State Event Held)

/-! ### State -/

/-- A frame of the stream; a data frame is that of the send, or `protocol_error`, of a task. -/
inductive Entry where
  | data (task : Nat)
  | fin
  deriving DecidableEq, Repr

structure Shared where
  v3 : Bool
  finStarted : Bool
  closed : Bool
  /-- Whether `send_lock` is held. -/
  sendLock : Bool
  /-- The frames of the stream that were put into the outbound queue, in order. -/
  outbound : List Entry
  deriving DecidableEq

/-- The next operation of `send_boxed`. -/
inductive SendPc where
  | lock
  | check
  | encode
  | push
  /-- In v3: waiting for the writer's answer. -/
  | answer
  | returned (result : Except Error Unit)
  | dropped
  deriving DecidableEq

/-- The next operation of `send_fin`. -/
inductive FinPc where
  | lock
  | push
  | answer
  deriving DecidableEq, Repr

inductive Task where
  | send (pc : SendPc)
  | close
  /-- The task that `close` spawns. -/
  | closing (pc : FinPc)
  /-- `protocol_error`: its reply, the swap of `fin_started`, its FIN. -/
  | error (pc : SendPc)
  | errorSwap
  | errorFin (pc : FinPc)
  /-- About to remove the stream, as other tasks may as well. -/
  | remove
  | done
  deriving DecidableEq

inductive Act where
  | go
  | fail (err : Error)
  /-- The call is dropped. -/
  | drop
  deriving DecidableEq

/-! ### Operations -/

namespace Shared

variable (s : Shared)

def unlock : Shared := { s with sendLock := false }

def push (entry : Entry) : Shared := { s with outbound := s.outbound ++ [entry] }

/-- `send_boxed`, by task `i`. -/
def sendBoxed (i : Nat) : SendPc → Act → Option (Shared × SendPc)
  | .lock, .go => if s.sendLock then none else some ({ s with sendLock := true }, .check)
  | .lock, .drop => some (s, .dropped)
  | .check, .go =>
    if s.finStarted ∨ s.closed then some (s.unlock, .returned (.error .closed))
    else some (s, .encode)
  | .encode, .go => some (s, .push)
  | .encode, .fail err => some (s.unlock, .returned (.error err))
  | .push, .go =>
    let s := s.push (.data i)
    if s.v3 then some (s, .answer) else some (s.unlock, .returned (.ok ()))
  | .answer, .go => some (s.unlock, .returned (.ok ()))
  | .push, .fail err | .answer, .fail err => some (s.unlock, .returned (.error err))
  | .push, .drop | .answer, .drop => some (s.unlock, .dropped)
  | _, _ => none

/-- `send_fin`; none once it has returned. -/
def sendFin : FinPc → Act → Option (Shared × Option FinPc)
  | .lock, .go => if s.sendLock then none else some ({ s with sendLock := true }, some .push)
  | .push, .go =>
    let s := s.push .fin
    if s.v3 then some (s, some .answer) else some (s.unlock, none)
  | .answer, .go => some (s.unlock, none)
  | .push, .fail _ | .answer, .fail _ => some (s.unlock, none)
  | _, _ => none

/-- A call of `send_fin` is dropped. -/
def dropFin : FinPc → Shared
  | .lock => s
  | .push | .answer => s.unlock

end Shared

def move (s : Shared) (i : Nat) : Task → Act → Option (Shared × Task × List Task)
  | .send pc, a => (s.sendBoxed i pc a).map fun r => (r.1, .send r.2, [])
  | .close, .go =>
    some ({ s with finStarted := true }, .done, if s.finStarted then [] else [.closing .lock])
  | .closing pc, .drop => some (s.dropFin pc, .done, [])
  | .closing pc, a => (s.sendFin pc a).map fun r => (r.1, r.2.elim .remove .closing, [])
  | .error pc, a => (s.sendBoxed i pc a).map fun r =>
    (r.1,
      match r.2 with
      | .returned _ => .errorSwap
      | .dropped => .done
      | pc => .error pc, [])
  | .errorSwap, .go =>
    some ({ s with finStarted := true }, if s.finStarted then .remove else .errorFin .lock, [])
  | .errorFin pc, .drop => some (s.dropFin pc, .done, [])
  | .errorFin pc, a => (s.sendFin pc a).map fun r => (r.1, r.2.elim .remove .errorFin, [])
  | .remove, .go => some ({ s with closed := true }, .done, [])
  | _, _ => none

/-- Any number of calls may begin at any time, and the stream may be removed by others. -/
def starts : Task → Bool
  | .send .lock | .close | .error .lock | .remove => true
  | _ => false

def program : Program Shared Task Act where
  move s _ i t a := move s i t a
  start _ t := starts t

/-- `new_stream` returns a stream that is closed, if it could not register one. -/
def initial (v3 closed : Bool) : State Shared Task where
  shared := { v3 := v3, finStarted := closed, closed := closed, sendLock := false, outbound := [] }
  tasks := []

def machine : Machine (State Shared Task) (Event Task Act) where
  init c := ∃ v3 closed, c = initial v3 closed
  step c ev := program.step c ev

/-! ### The outbound queue of a stream -/

/-- The frames of a stream: data frames, and then at most one FIN. -/
structure FinIsLast (c : State Shared Task) : Prop where
  once : c.shared.outbound.count .fin ≤ 1
  last : ∀ m p task : Nat, c.shared.outbound[m]? = some .fin →
    c.shared.outbound[p]? = some (.data task) → p < m
  /-- A send that returned Ok is in front of FIN. -/
  sent : ∀ i, c.tasks[i]? = some (.send (.returned (.ok ()))) → ∃ p : Nat,
    c.shared.outbound[p]? = some (.data i) ∧ ∀ m : Nat, c.shared.outbound[m]? = some .fin → p < m

/-! ### What a task holds -/

def SendPc.holds : SendPc → Bool
  | .check | .encode | .push | .answer => true
  | .lock | .returned _ | .dropped => false

def FinPc.holds : FinPc → Bool
  | .push | .answer => true
  | .lock => false

/-- The task holds `send_lock`. -/
def Task.holds : Task → Bool
  | .send pc | .error pc => pc.holds
  | .closing pc | .errorFin pc => pc.holds
  | .close | .errorSwap | .remove | .done => false

def FinPc.owes : FinPc → Nat
  | .lock | .push => 1
  | .answer => 0

/-- How many FINs the task is to queue. -/
def Task.owes : Task → Nat
  | .closing pc | .errorFin pc => pc.owes
  | .send _ | .close | .error _ | .errorSwap | .remove | .done => 0

/-- The send has found `fin_started` unset, and may queue its frame. -/
def SendPc.checked : SendPc → Bool
  | .encode | .push => true
  | .lock | .check | .answer | .returned _ | .dropped => false

def Task.checked : Task → Bool
  | .send pc | .error pc => pc.checked
  | .close | .closing _ | .errorSwap | .errorFin _ | .remove | .done => false

/-- The frame of task `i` is queued, if the task has come so far. -/
def Task.Sent (s : Shared) (i : Nat) : Task → Prop
  | .send .answer | .send (.returned (.ok _)) => .data i ∈ s.outbound
  | _ => True

/-! ### What an operation does -/

/-- `send_lock` is kept, taken or released. -/
inductive Locks (s s' : Shared) (held held' : Bool) : Prop where
  | keep (hl : s'.sendLock = s.sendLock) (hh : held' = held)
  | take (hl : s.sendLock = false) (hl' : s'.sendLock = true) (hh : held = false)
      (hh' : held' = true)
  | release (hl' : s'.sendLock = false) (hh : held = true) (hh' : held' = false)

/-- What an operation of task `i` does: to `send_lock`, to `fin_started` and the FINs to come, and to
the outbound queue. -/
structure Does (s : Shared) (i : Nat) (t : Task) (s' : Shared) (t' : Task) (new : List Task) :
    Prop where
  locks : Locks s s' t.holds t'.holds
  /-- The tasks it starts hold nothing, and have queued nothing. -/
  started : ∀ u ∈ new, u = .closing .lock
  fins : s'.outbound.count .fin + t'.owes + (new.map Task.owes).sum + s.finStarted.toNat ≤
    s.outbound.count .fin + t.owes + s'.finStarted.toNat
  queue : s'.outbound = s.outbound ∨
    s'.outbound = s.outbound ++ [.data i] ∧ t.checked = true ∨
    s'.outbound = s.outbound ++ [.fin] ∧ t.holds = true ∧ t.owes = 1 ∧ t'.checked = false
  /-- A send goes on from its check only if FIN has not been started. -/
  checked : t'.checked = true → t.checked = true ∨ s.finStarted = false
  sent : t.Sent s i → t'.Sent s' i

section does

variable {s s' : Shared} {i : Nat} {t t' : Task} {new : List Task} {a : Act} {c c' : State Shared Task}
  {ev : Event Task Act}

theorem count_push_data (s : Shared) (i : Nat) : (s.push (.data i)).outbound.count .fin =
    s.outbound.count .fin := by
  rw [Shared.push, List.count_append, List.count_singleton]
  rfl

theorem count_push_fin (s : Shared) : (s.push .fin).outbound.count .fin =
    s.outbound.count .fin + 1 := by
  rw [Shared.push, List.count_append, List.count_singleton_self]

/-- What `send_boxed` does, as part of a task. -/
structure Sends (s : Shared) (i : Nat) (pc : SendPc) (s' : Shared) (pc' : SendPc) : Prop where
  locks : Locks s s' pc.holds pc'.holds
  finStarted : s'.finStarted = s.finStarted
  queue : s'.outbound = s.outbound ∨ s'.outbound = s.outbound ++ [.data i] ∧ pc.checked = true
  checked : pc'.checked = true → pc.checked = true ∨ s.finStarted = false
  sent : (Task.send pc).Sent s i → (Task.send pc').Sent s' i

theorem sendBoxed_sends {pc pc' : SendPc} (h : s.sendBoxed i pc a = some (s', pc')) :
    Sends s i pc s' pc' := by
  cases pc with
  | lock =>
      cases a with
      | go =>
          simp only [Shared.sendBoxed] at h
          split at h
          · cases h
          · rename_i hlock
            cases h
            exact ⟨.take (Bool.eq_false_iff.2 hlock) rfl rfl rfl, rfl, .inl rfl, nofun, id⟩
      | drop =>
          cases h
          exact ⟨.keep rfl rfl, rfl, .inl rfl, nofun, id⟩
      | fail err => cases h
  | check =>
      cases a with
      | go =>
          simp only [Shared.sendBoxed] at h
          split at h
          · cases h
            exact ⟨.release rfl rfl rfl, rfl, .inl rfl, nofun, id⟩
          · rename_i hno
            cases h
            exact ⟨.keep rfl rfl, rfl, .inl rfl,
              fun _ => .inr (Bool.eq_false_iff.2 (not_or.1 hno).1), id⟩
      | fail err | drop => cases h
  | encode =>
      cases a with
      | go =>
          cases h
          exact ⟨.keep rfl rfl, rfl, .inl rfl, fun _ => .inl rfl, id⟩
      | fail err =>
          cases h
          exact ⟨.release rfl rfl rfl, rfl, .inl rfl, nofun, id⟩
      | drop => cases h
  | push =>
      -- The frame is in the queue before the send learns whether it must wait for an answer.
      have hmem : Entry.data i ∈ (s.push (.data i)).outbound :=
        List.mem_append_right _ (List.mem_singleton.2 rfl)
      cases a with
      | go =>
          simp only [Shared.sendBoxed] at h
          split at h
          · cases h
            exact ⟨.keep rfl rfl, rfl, .inr ⟨rfl, rfl⟩, nofun, fun _ => hmem⟩
          · cases h
            exact ⟨.release rfl rfl rfl, rfl, .inr ⟨rfl, rfl⟩, nofun, fun _ => hmem⟩
      | fail err | drop =>
          cases h
          exact ⟨.release rfl rfl rfl, rfl, .inl rfl, nofun, id⟩
  | answer =>
      cases a with
      | go =>
          cases h
          exact ⟨.release rfl rfl rfl, rfl, .inl rfl, nofun, id⟩
      | fail err | drop =>
          cases h
          exact ⟨.release rfl rfl rfl, rfl, .inl rfl, nofun, fun _ => trivial⟩
  | returned result | dropped => cases a <;> cases h

/-- What `send_fin` does, as part of a task. -/
structure SendsFin (s : Shared) (pc : FinPc) (s' : Shared) (held : Bool) (owed : Nat) : Prop where
  locks : Locks s s' pc.holds held
  finStarted : s'.finStarted = s.finStarted
  queue : s'.outbound = s.outbound ∧ owed ≤ pc.owes ∨
    s'.outbound = s.outbound ++ [.fin] ∧ pc.holds = true ∧ pc.owes = 1 ∧ owed = 0

theorem sendFin_sendsFin {pc : FinPc} {r : Option FinPc} (h : s.sendFin pc a = some (s', r)) :
    SendsFin s pc s' (r.elim false FinPc.holds) (r.elim 0 FinPc.owes) := by
  cases pc with
  | lock =>
      cases a with
      | go =>
          simp only [Shared.sendFin] at h
          split at h
          · cases h
          · rename_i hlock
            cases h
            exact ⟨.take (Bool.eq_false_iff.2 hlock) rfl rfl rfl, rfl, .inl ⟨rfl, Nat.le_refl _⟩⟩
      | fail err | drop => cases h
  | push =>
      cases a with
      | go =>
          simp only [Shared.sendFin] at h
          split at h
          · cases h
            exact ⟨.keep rfl rfl, rfl, .inr ⟨rfl, rfl, rfl, rfl⟩⟩
          · cases h
            exact ⟨.release rfl rfl rfl, rfl, .inr ⟨rfl, rfl, rfl, rfl⟩⟩
      | fail err =>
          cases h
          exact ⟨.release rfl rfl rfl, rfl, .inl ⟨rfl, Nat.zero_le _⟩⟩
      | drop => cases h
  | answer =>
      cases a with
      | go | fail err =>
          cases h
          exact ⟨.release rfl rfl rfl, rfl, .inl ⟨rfl, Nat.zero_le _⟩⟩
      | drop => cases h

theorem dropFin_sendsFin (s : Shared) (pc : FinPc) : SendsFin s pc (s.dropFin pc) false 0 := by
  cases pc with
  | lock => exact ⟨.keep rfl rfl, rfl, .inl ⟨rfl, Nat.zero_le _⟩⟩
  | push | answer => exact ⟨.release rfl rfl rfl, rfl, .inl ⟨rfl, Nat.zero_le _⟩⟩

/-- A task in `send_boxed` that goes on in it, or past it. -/
theorem Sends.does {pc pc' : SendPc} (h : Sends s i pc s' pc') (hholds : t.holds = pc.holds)
    (howes : t.owes = 0) (hchecked : t.checked = pc.checked) (hholds' : t'.holds = pc'.holds)
    (howes' : t'.owes = 0) (hchecked' : t'.checked = pc'.checked)
    (hsent : t.Sent s i → t'.Sent s' i) : Does s i t s' t' [] where
  locks := by
    rw [hholds, hholds']
    exact h.locks
  started := nofun
  fins := by
    have hcount : s'.outbound.count .fin = s.outbound.count .fin := by
      rcases h.queue with hq | ⟨hq, -⟩
      · rw [hq]
      · rw [hq]
        exact count_push_data s i
    rw [hcount, howes, howes', h.finStarted]
    exact Nat.le_refl _
  queue := by
    rw [hchecked]
    exact h.queue.imp_right .inl
  checked := by
    rw [hchecked, hchecked']
    exact h.checked
  sent := hsent

/-- A task in `send_fin` that goes on in it, or past it. -/
theorem SendsFin.does {pc : FinPc} {held : Bool} {owed : Nat} (h : SendsFin s pc s' held owed)
    (hholds : t.holds = pc.holds) (howes : t.owes = pc.owes) (hholds' : t'.holds = held)
    (howes' : t'.owes = owed) (hchecked' : t'.checked = false) (hsent : t'.Sent s' i) :
    Does s i t s' t' [] where
  locks := by
    rw [hholds, hholds']
    exact h.locks
  started := nofun
  fins := by
    rw [howes, howes', h.finStarted]
    rcases h.queue with ⟨hq, hle⟩ | ⟨hq, -, hone, hzero⟩
    · rw [hq, List.map_nil, List.sum_nil]
      omega
    · have hcount := count_push_fin s
      rw [hq, hone, hzero, List.map_nil, List.sum_nil]
      simp only [Shared.push] at hcount
      omega
  queue := by
    rw [hholds, howes]
    exact h.queue.imp And.left fun ⟨hq, hh, hone, _⟩ => .inr ⟨hq, hh, hone, hchecked'⟩
  checked := by
    rw [hchecked']
    exact nofun
  sent := fun _ => hsent

theorem move_does (h : move s i t a = some (s', t', new)) : Does s i t s' t' new := by
  cases t with
  | send pc =>
      simp only [move, Option.map_eq_some_iff] at h
      obtain ⟨⟨s₁, pc'⟩, hsend, he⟩ := h
      cases he
      have hS := sendBoxed_sends hsend
      exact hS.does rfl rfl rfl rfl rfl rfl hS.sent
  | close =>
      cases a with
      | go =>
          cases h
          refine ⟨.keep rfl rfl, fun u hu => ?_, ?_, .inl rfl, nofun, id⟩
          · split at hu
            · cases hu
            · exact List.mem_singleton.1 hu
          · -- A close that finds `fin_started` set owes no FIN.
            cases s.finStarted <;> exact Nat.le_refl _
      | fail err | drop => cases h
  | closing pc =>
      cases a with
      | drop =>
          cases h
          exact (dropFin_sendsFin s pc).does rfl rfl rfl rfl rfl trivial
      | go | fail err =>
          simp only [move, Option.map_eq_some_iff] at h
          obtain ⟨⟨s₁, r⟩, hfin, he⟩ := h
          cases he
          cases r <;> exact (sendFin_sendsFin hfin).does rfl rfl rfl rfl rfl trivial
  | error pc =>
      simp only [move, Option.map_eq_some_iff] at h
      obtain ⟨⟨s₁, pc'⟩, hsend, he⟩ := h
      cases he
      have hS := sendBoxed_sends hsend
      cases pc' with
      | lock | check | encode | push | answer | returned result | dropped =>
          exact hS.does rfl rfl rfl rfl rfl rfl fun _ => trivial
  | errorSwap =>
      cases a with
      | go =>
          cases h
          cases hfin : s.finStarted with
          | false => exact ⟨.keep rfl rfl, nofun, by simp [hfin, Task.owes, FinPc.owes], .inl rfl, nofun, id⟩
          | true => exact ⟨.keep rfl rfl, nofun, by simp [hfin, Task.owes], .inl rfl, nofun, id⟩
      | fail err | drop => cases h
  | errorFin pc =>
      cases a with
      | drop =>
          cases h
          exact (dropFin_sendsFin s pc).does rfl rfl rfl rfl rfl trivial
      | go | fail err =>
          simp only [move, Option.map_eq_some_iff] at h
          obtain ⟨⟨s₁, r⟩, hfin, he⟩ := h
          cases he
          cases r <;> exact (sendFin_sendsFin hfin).does rfl rfl rfl rfl rfl trivial
  | remove =>
      cases a with
      | go =>
          cases h
          exact ⟨.keep rfl rfl, nofun, Nat.le_refl _, .inl rfl, nofun, id⟩
      | fail err | drop => cases h
  | done => cases a <;> cases h

end does

/-! ### Runs -/

section run

variable {s s' : Shared} {i : Nat} {t t' u : Task} {new : List Task} {a : Act}
  {c c' : State Shared Task} {ev : Event Task Act}

structure Inv (c : State Shared Task) : Prop where
  /-- `send_lock` is held by one task. -/
  lock : Held Task.holds c.tasks c.shared.sendLock
  /-- The FINs queued and to be queued are one, once `fin_started` is set. -/
  fins : c.shared.outbound.count .fin + (c.tasks.map Task.owes).sum ≤ c.shared.finStarted.toNat
  /-- No FIN is queued while a send has passed its check. -/
  checked : ∀ t ∈ c.tasks, t.checked = true → .fin ∉ c.shared.outbound
  last : ∀ m p task : Nat, c.shared.outbound[m]? = some .fin →
    c.shared.outbound[p]? = some (.data task) → p < m
  sent : ∀ (i : Nat) (t : Task), c.tasks[i]? = some t → t.Sent c.shared i

theorem holds_of_checked (h : t.checked = true) : t.holds = true := by
  cases t with
  | send pc | error pc =>
      cases pc with
      | encode | push => rfl
      | lock | check | answer | returned result | dropped => cases h
  | close | closing pc | errorSwap | errorFin pc | remove | done => cases h

theorem owes_of_checked (h : t.checked = true) : t.owes = 0 := by
  cases t with
  | send pc | error pc => rfl
  | close | closing pc | errorSwap | errorFin pc | remove | done => cases h

theorem Task.Sent.mono (h : t.Sent s i) (hsub : s.outbound ⊆ s'.outbound) : t.Sent s' i := by
  cases t with
  | send pc =>
      cases pc with
      | answer => exact hsub h
      | returned result =>
          cases result with
          | ok _ => exact hsub h
          | error err => exact trivial
      | lock | check | encode | push | dropped => exact trivial
  | close | closing pc | error pc | errorSwap | errorFin pc | remove | done => exact trivial

/-- Before `fin_started` is set, and while a FIN is to come, none is queued. -/
theorem Inv.no_fin (hI : Inv c) (h : c.shared.finStarted = false ∨ ∃ t ∈ c.tasks, 0 < t.owes) :
    .fin ∉ c.shared.outbound := by
  have hfins := hI.fins
  rw [← List.count_eq_zero]
  rcases h with h | ⟨t, ht, hpos⟩
  · rw [h, Bool.toNat_false] at hfins
    omega
  · obtain ⟨l₁, l₂, he⟩ := List.append_of_mem ht
    rw [he] at hfins
    simp only [List.map_append, List.map_cons, List.sum_append, List.sum_cons] at hfins
    have hone := Bool.toNat_le c.shared.finStarted
    omega

theorem Does.subset (h : Does s i t s' t' new) : s.outbound ⊆ s'.outbound := by
  rcases h.queue with hq | ⟨hq, -⟩ | ⟨hq, -⟩
  · exact hq ▸ List.Subset.refl _
  · exact hq ▸ List.subset_append_left _ _
  · exact hq ▸ List.subset_append_left _ _

theorem Inv.lock_step (hI : Inv c) (ht : c.tasks[i]? = some t)
    (hD : Does c.shared i t s' t' new) : Held Task.holds (c.tasks.set i t' ++ new) s'.sendLock := by
  refine Held.append ?_ fun u hu => by rw [hD.started u hu]; rfl
  have hlock := hI.lock
  cases hD.locks with
  | keep hl hh => exact hl ▸ hlock.set ht hh.symm
  | take hl hl' hh hh' =>
      rw [hl] at hlock
      exact hl' ▸ hlock.acquire ht hh hh'
  | release hl' hh hh' => exact hl' ▸ hlock.release ht hh hh'

/-- A FIN is queued by the task that holds `send_lock`, so by no send that has passed its check. -/
theorem Inv.checked_step (hI : Inv c) (ht : c.tasks[i]? = some t)
    (hD : Does c.shared i t s' t' new) :
    ∀ u ∈ c.tasks.set i t' ++ new, u.checked = true → .fin ∉ s'.outbound := by
  intro u hu hchecked
  have hmem : t ∈ c.tasks := List.mem_of_getElem? ht
  -- No FIN was queued before the step.
  have hbefore : .fin ∉ c.shared.outbound := by
    rcases Machine.Pool.mem_of_mem_set_append hu with rfl | hu | hu
    · rcases hD.checked hchecked with h | h
      · exact hI.checked t hmem h
      · exact hI.no_fin (.inl h)
    · exact hI.checked u hu hchecked
    · rw [hD.started u hu] at hchecked
      cases hchecked
  rcases hD.queue with hq | ⟨hq, -⟩ | ⟨hq, hholds, howes, hno⟩
  · rwa [hq]
  · rw [hq, List.mem_append, List.mem_singleton]
    exact fun h => h.elim hbefore nofun
  · rcases Machine.Pool.mem_of_mem_set_append hu with rfl | hu | hu
    · cases hno.symm.trans hchecked
    · obtain rfl : u = t := hI.lock.unique ht hholds hu (holds_of_checked hchecked)
      cases howes.symm.trans (owes_of_checked hchecked)
    · rw [hD.started u hu] at hchecked
      cases hchecked

/-- A data frame is queued while there is no FIN, and a FIN at the end. -/
theorem Inv.last_step (hI : Inv c) (ht : c.tasks[i]? = some t)
    (hD : Does c.shared i t s' t' new) (m p task : Nat) (hm : s'.outbound[m]? = some .fin)
    (hp : s'.outbound[p]? = some (.data task)) : p < m := by
  have hmem : t ∈ c.tasks := List.mem_of_getElem? ht
  rcases hD.queue with hq | ⟨hq, hchecked⟩ | ⟨hq, -, howes, -⟩
  · rw [hq] at hm hp
    exact hI.last m p task hm hp
  · have hno := hI.checked t hmem hchecked
    have hfin := List.mem_of_getElem? hm
    rw [hq, List.mem_append, List.mem_singleton] at hfin
    exact (hfin.elim hno nofun).elim
  · have hno := hI.no_fin (.inr ⟨t, hmem, by rw [howes]; exact Nat.one_pos⟩)
    have hge : c.shared.outbound.length ≤ m := by
      by_contra hlt
      rw [hq, List.getElem?_append_left (Nat.lt_of_not_le hlt)] at hm
      exact hno (List.mem_of_getElem? hm)
    refine Nat.lt_of_lt_of_le ?_ hge
    by_contra hlt
    rw [hq, List.getElem?_append_right (Nat.le_of_not_lt hlt)] at hp
    cases List.mem_singleton.1 (List.mem_of_getElem? hp)

theorem Inv.sent_step (hI : Inv c) (ht : c.tasks[i]? = some t)
    (hD : Does c.shared i t s' t' new) (j : Nat) (u : Task)
    (hu : (c.tasks.set i t' ++ new)[j]? = some u) : u.Sent s' j := by
  rcases Machine.Pool.of_getElem?_set_append hu with ⟨rfl, rfl⟩ | ⟨-, hu⟩ | ⟨-, hu⟩
  · exact hD.sent (hI.sent i t ht)
  · exact (hI.sent j u hu).mono hD.subset
  · rw [hD.started u (List.mem_of_getElem? hu)]
    exact trivial

theorem start_idle (h : starts t = true) :
    t.holds = false ∧ t.owes = 0 ∧ t.checked = false ∧ t.Sent s i := by
  cases t with
  | send pc | error pc =>
      cases pc with
      | lock => exact ⟨rfl, rfl, rfl, trivial⟩
      | check | encode | push | answer | returned result | dropped => cases h
  | close | remove => exact ⟨rfl, rfl, rfl, trivial⟩
  | closing pc | errorSwap | errorFin pc | done => cases h

theorem Inv.step (hI : Inv c) (h : machine.step c ev = some c') : Inv c' := by
  have hfins : c'.shared.outbound.count .fin + (c'.tasks.map Task.owes).sum ≤
      c'.shared.finStarted.toNat := by
    refine Program.step_sum_le (g := fun s => s.outbound.count .fin)
      (k := fun s => s.finStarted.toNat) (f := Task.owes) h hI.fins
      (fun _ _ _ _ _ _ _ hm => (move_does hm).fins) fun t ht => ?_
    exact (start_idle (s := c.shared) (i := 0) ht).2.1
  rcases Program.step_cases h with ⟨i, x, t, s', t', new, -, ht, hm, rfl⟩ | ⟨t, -, hstart, rfl⟩
  · have hD := move_does hm
    exact ⟨hI.lock_step ht hD, hfins, hI.checked_step ht hD, hI.last_step ht hD, hI.sent_step ht hD⟩
  · obtain ⟨hholds, -, hchecked, hsent⟩ :=
      start_idle (s := c.shared) (i := c.tasks.length) hstart
    refine ⟨hI.lock.append fun u hu => ?_, hfins, fun u hu hc => ?_, hI.last, fun j u hu => ?_⟩
    · rw [List.mem_singleton.1 hu]
      exact hholds
    · rcases List.mem_append.1 hu with hu | hu
      · exact hI.checked u hu hc
      · rw [List.mem_singleton.1 hu] at hc
        cases hchecked.symm.trans hc
    · rcases Nat.lt_or_ge j c.tasks.length with hlt | hge
      · rw [List.getElem?_append_left hlt] at hu
        exact hI.sent j u hu
      · rw [List.getElem?_append_right hge] at hu
        obtain ⟨hj, hu⟩ := List.getElem?_eq_some_iff.1 hu
        obtain rfl : j = c.tasks.length := by
          rw [List.length_singleton] at hj
          omega
        rw [List.getElem_singleton] at hu
        exact hu ▸ hsent

theorem inv_reachable (h : machine.Reachable c) : Inv c := by
  refine h.invariant ?_ fun _ _ _ hI _ hs => hI.step hs
  rintro _ ⟨v3, closed, rfl⟩
  exact ⟨rfl, Nat.zero_le _, nofun, nofun, nofun⟩

/-- **FIN is last and unique.**  Whatever calls there are on a stream that `new_stream` opened, and
however they interleave, its frames in the outbound queue are data frames and then at most one FIN,
which has every send that returned Ok in front of it. -/
theorem fin_is_last (h : machine.Reachable c) : FinIsLast c := by
  have hI := inv_reachable h
  refine ⟨?_, hI.last, fun i hi => ?_⟩
  · have hfins := hI.fins
    have hone := Bool.toNat_le c.shared.finStarted
    omega
  · obtain ⟨p, hp⟩ := List.mem_iff_getElem?.1 (hI.sent i _ hi)
    exact ⟨p, hp, fun m hm => hI.last m p i hm hp⟩

end run

/-! ### A stream that is closed -/

/-- A send returns Ok, and `protocol_error` sends its reply and FIN; `close` and another send come too
late. -/
def closedRun : List (Event Task Act) :=
  [.start (.send .lock), .start (.error .lock), .start .close, .start (.send .lock),
    .task 0 .go, .task 0 .go, .task 0 .go, .task 0 .go, .task 0 .go, .task 1 .go, .task 1 .go,
    .task 1 .go, .task 1 .go, .task 1 .go, .task 1 .go, .task 2 .go, .task 1 .go, .task 1 .go,
    .task 1 .go, .task 3 .go, .task 3 .go]

def closed : State Shared Task := (machine.exec (initial true false) closedRun).getD (initial true false)

theorem fin_is_last_closed : closed.shared.outbound = [.data 0, .data 1, .fin] ∧
    closed.tasks[3]? = some (.send (.returned (.error .closed))) ∧ FinIsLast closed :=
  ⟨rfl, rfl, fin_is_last (Machine.reachable_of_exec closedRun ⟨true, false, rfl⟩ rfl)⟩

end AdaptiveMsg.SendFin
