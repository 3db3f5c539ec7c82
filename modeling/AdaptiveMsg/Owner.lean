import AdaptiveMsg.Machine.Leads
import AdaptiveMsg.Machine.Pool
import Mathlib.Algebra.Order.BigOperators.Group.List
import Mathlib.Algebra.Order.Group.Nat
import Mathlib.Logic.Function.Basic

/-!
# Owner — the handles of a connection

`Client::connect` returns an owned connection.  Its handles, and those of its streams, share an
`Owner`, and dropping the last of them closes the connection in the background.  A stream handle is
made from a `Weak`, which no longer upgrades once the `Owner` is dropped; the handles of a server's
connection have none.  A handler's background task holds a stream handle as well, and the guard that
lets only one such task of a stream be active.

Each handle is a task of a pool; so is each call of `new_stream`, `new_task` and `close`.  The close
that dropping the `Owner` starts, or outside of a runtime makes at once, is one more task.

* `last_handle_closes`: the `Owner` is dropped once, when the last handle goes; no handle revives
  it, and the connection is bound to close.
* `open_while_held`: nothing else here closes a connection.
* `new_task_busy_iff`: `new_task` is refused exactly while another task of the stream has the
  guard.
-/

namespace AdaptiveMsg.Owner

open Machine.Pool (Program Event Held mem_set_self mem_of_mem_set_append)

/-! ### State -/

structure Shared where
  /-- `owner` holds the `Weak` of the `Owner`. -/
  ownerSet : Bool
  /-- The strong count of the `Owner`: 0 before it is made, and once it is dropped. -/
  strong : Nat
  closing : Bool
  closed : Bool
  /-- `handler_task_active`, of each stream context. -/
  handlerTaskActive : Nat → Bool
  /-- How often an `Owner` has been made, and how often dropped (neither is part of the program's
  state). -/
  made : Nat
  dropped : Nat

/-- Where a call of `close` or `close_by_peer` is. -/
inductive ClosePc where
  | swapClosing
  /-- In `close_gracefully`, or waiting for the streams. -/
  | waiting
  | markClosed
  deriving DecidableEq, Repr

inductive Task where
  /-- In `new_owned`, before and after `Arc::new`. -/
  | makeOwner
  | setOwner
  /-- A handle of the connection or of a stream; whether it has the `Owner`. -/
  | handle (owner : Bool)
  /-- In `stream_handle`. -/
  | streamHandle
  /-- In `new_task` of a stream context, before `stream_handle` and before the compare-exchange. -/
  | newTask (ctx : Nat)
  | exchange (ctx : Nat) (owner : Bool)
  /-- `new_task` returns `HandlerTaskBusy`, and drops the stream handle. -/
  | busy (ctx : Nat) (owner : Bool)
  /-- A background task: its stream handle, if it still has it, and whether it has the guard. -/
  | background (ctx : Nat) (stream : Option Bool) (guard : Bool)
  | close (pc : ClosePc)
  | done
  deriving DecidableEq, Repr

/-- What a task does next. -/
inductive Act where
  /-- The next operation of a call. -/
  | run
  | clone
  /-- It drops its handle, inside of a runtime or not. -/
  | drop (runtime : Bool)
  /-- A background task hands its stream on. -/
  | give
  /-- `HandlerTaskGuard` is dropped: the task has ended, or was aborted. -/
  | dropGuard
  deriving DecidableEq, Repr

/-! ### Steps -/

abbrev MoveResult := Option (Shared × Task × List Task)

namespace Shared

variable (s : Shared)

/-- `Arc::clone` of the `Owner`, if there is one. -/
def cloneOwner (owner : Bool) : Shared := { s with strong := s.strong + owner.toNat }

/-- `Weak::upgrade`, under the lock of `owner`. -/
def upgrade : Shared × Bool :=
  let owner := s.ownerSet && 0 < s.strong
  (s.cloneOwner owner, owner)

/-- A reference to the `Owner` is dropped, and with the last one the `Owner` itself. -/
def dropOwner (owner runtime : Bool) : Shared × List Task :=
  if owner then
    if s.strong = 1 then
      ({ s with strong := 0, dropped := s.dropped + 1 },
        [.close (if runtime then .swapClosing else .markClosed)])
    else ({ s with strong := s.strong - 1 }, [])
  else (s, [])

def setActive (ctx : Nat) (active : Bool) : Shared :=
  { s with handlerTaskActive := Function.update s.handlerTaskActive ctx active }

def closeStep : ClosePc → Shared × Task
  | .swapClosing =>
    ({ s with closing := true }, .close (if s.closing then .markClosed else .waiting))
  | .waiting => (s, .close .markClosed)
  | .markClosed => ({ s with closed := true }, .done)

/-- The next operation of a call. -/
def run : Task → MoveResult
  | .makeOwner => some ({ s with strong := s.strong + 1, made := s.made + 1 }, .setOwner, [])
  | .setOwner => some ({ s with ownerSet := true }, .handle true, [])
  | .streamHandle => some (s.upgrade.1, .handle s.upgrade.2, [])
  | .newTask ctx => some (s.upgrade.1, .exchange ctx s.upgrade.2, [])
  | .exchange ctx owner =>
    if s.handlerTaskActive ctx then some (s, .busy ctx owner, [])
    else some (s.setActive ctx true, .done, [.background ctx (some owner) true])
  | .close pc => some ((s.closeStep pc).1, (s.closeStep pc).2, [])
  | _ => none

/-- A task drops its handle, and goes on at `t`. -/
def dropHandle (owner runtime : Bool) (t : Task) : MoveResult :=
  some ((s.dropOwner owner runtime).1, t, (s.dropOwner owner runtime).2)

def move (t : Task) (a : Act) : MoveResult :=
  match t, a with
  | t, .run => s.run t
  | .handle owner, .clone => some (s.cloneOwner owner, .handle owner, [.handle owner])
  | .handle owner, .drop runtime => s.dropHandle owner runtime .done
  | .busy _ owner, .drop runtime => s.dropHandle owner runtime .done
  | .background ctx (some owner) guard, .clone =>
    some (s.cloneOwner owner, .background ctx (some owner) guard, [.handle owner])
  | .background ctx (some owner) guard, .drop runtime =>
    s.dropHandle owner runtime (.background ctx none guard)
  | .background ctx (some owner) guard, .give =>
    some (s, .background ctx none guard, [.handle owner])
  | .background ctx stream true, .dropGuard =>
    some (s.setActive ctx false, .background ctx stream false, [])
  | _, _ => none

end Shared

/-- The calls that may come at any time: `new_stream`, `new_task`, `close`, `close_now`. -/
def Task.isCall : Task → Bool
  | .streamHandle | .newTask _ | .close .swapClosing | .close .markClosed => true
  | _ => false

def program : Program Shared Task Act where
  move s _ _ t a := s.move t a
  start _ t := t.isCall

abbrev Conn := Machine.Pool.State Shared Task

/-- A connection that has started, `owned` by the caller of `connect` or not. -/
def started (owned : Bool) : Conn where
  shared :=
    { ownerSet := false
      strong := 0
      closing := false
      closed := false
      handlerTaskActive := fun _ => false
      made := 0
      dropped := 0 }
  tasks := if owned then [.makeOwner] else []

def machine (owned : Bool) : Machine Conn (Event Task Act) where
  init c := c = started owned
  step := program.step

/-! ### The references to the `Owner` -/

/-- The references to the `Owner` that a task holds. -/
def Task.refs : Task → Nat
  | .setOwner => 1
  | .handle owner | .exchange _ owner | .busy _ owner => owner.toNat
  | .background _ stream _ => (stream.getD false).toNat
  | _ => 0

/-- The connection has, or will have, an owner that is not yet made. -/
def Task.makes : Task → Nat
  | .makeOwner => 1
  | _ => 0

/-- The tasks that hold the guard of a stream context. -/
def Task.guards (ctx : Nat) : Task → Bool
  | .background ctx' _ guard => guard && ctx' = ctx
  | _ => false

section owner

variable {owned : Bool} {s s' : Shared} {t t' : Task} {a : Act} {new : List Task} {c c' : Conn}
  {e : Event Task Act}

theorem refs_of_isCall (h : t.isCall = true) :
    t.refs = 0 ∧ t.makes = 0 ∧ ∀ ctx, t.guards ctx = false := by
  cases t with
  | streamHandle | newTask _ | close _ => exact ⟨rfl, rfl, fun _ => rfl⟩
  | _ => cases h

/-- What an operation keeps: the strong count follows the references, and an `Owner` that was made
is dropped when the count returns to 0. -/
structure Counts (s s' : Shared) (gone kept : Nat) : Prop where
  strong : s'.strong + gone = s.strong + kept
  dropped : s.dropped + (decide (0 < s.strong)).toNat = s.made →
    s'.dropped + (decide (0 < s'.strong)).toNat = s'.made

theorem Counts.refl (s : Shared) (n : Nat) : Counts s s n n := ⟨rfl, id⟩

theorem counts_cloneOwner {owner : Bool} (h : owner.toNat ≤ s.strong) :
    Counts s (s.cloneOwner owner) 0 owner.toNat := by
  refine ⟨rfl, fun hd => ?_⟩
  cases owner with
  | false => exact hd
  | true =>
      have hpos : 0 < s.strong := h
      have hpos' : 0 < (s.cloneOwner true).strong := Nat.succ_pos _
      rw [decide_eq_true hpos] at hd
      rw [decide_eq_true hpos']
      exact hd

theorem counts_upgrade (s : Shared) : Counts s s.upgrade.1 0 s.upgrade.2.toNat := by
  refine counts_cloneOwner ?_
  by_cases hpos : 0 < s.strong
  · exact Nat.le_trans (Bool.toNat_le _) hpos
  · simp [hpos]

/-- Dropping a reference that is there. -/
theorem counts_dropOwner {owner : Bool} (h : owner.toNat ≤ s.strong) (runtime : Bool) :
    Counts s (s.dropOwner owner runtime).1 owner.toNat 0 := by
  cases owner with
  | false => exact .refl s 0
  | true =>
      have hpos : 0 < s.strong := h
      simp only [Shared.dropOwner, if_true]
      split
      · rename_i hone
        refine ⟨hone.symm ▸ rfl, fun hd => ?_⟩
        rw [decide_eq_true hpos] at hd
        exact hd
      · rename_i hne
        refine ⟨Nat.sub_add_cancel hpos, fun hd => ?_⟩
        have hpos' : 0 < s.strong - 1 := by omega
        rw [decide_eq_true hpos] at hd
        rw [decide_eq_true hpos']
        exact hd

/-- A step of a task accounts for the references the task holds, and for the `Owner` it makes. -/
def Balanced (s s' : Shared) (t t' : Task) (new : List Task) : Prop :=
  Counts s s' t.refs (t'.refs + (new.map Task.refs).sum) ∧
    s'.made + t'.makes + (new.map Task.makes).sum = s.made + t.makes

theorem run_balanced (h : s.run t = some (s', t', new)) (hmakes : t.makes = 1 → s.strong = 0) :
    Balanced s s' t t' new := by
  cases t with
  | makeOwner =>
      cases h
      have hzero : s.strong = 0 := hmakes rfl
      refine ⟨⟨rfl, fun hd => ?_⟩, rfl⟩
      simp only [hzero] at hd ⊢
      exact congrArg (· + 1) hd
  | setOwner =>
      cases h
      exact ⟨⟨rfl, id⟩, rfl⟩
  | streamHandle =>
      cases h
      exact ⟨counts_upgrade s, rfl⟩
  | newTask ctx =>
      cases h
      exact ⟨counts_upgrade s, rfl⟩
  | exchange ctx owner =>
      simp only [Shared.run] at h
      split at h
      · cases h
        exact ⟨.refl s _, rfl⟩
      · cases h
        refine ⟨⟨?_, id⟩, rfl⟩
        simp [Shared.setActive, Task.refs]
  | close pc =>
      cases pc with
      | swapClosing | waiting | markClosed =>
          cases h
          exact ⟨⟨rfl, id⟩, rfl⟩
  | handle _ | busy _ _ | background _ _ _ | done => cases h

theorem sum_dropOwner (owner runtime : Bool) :
    ((s.dropOwner owner runtime).2.map Task.refs).sum = 0 ∧
      ((s.dropOwner owner runtime).2.map Task.makes).sum = 0 ∧
        (s.dropOwner owner runtime).1.made = s.made := by
  unfold Shared.dropOwner
  split
  · split
    · exact ⟨rfl, rfl, rfl⟩
    · exact ⟨rfl, rfl, rfl⟩
  · exact ⟨rfl, rfl, rfl⟩

theorem dropHandle_balanced {owner runtime : Bool} {u : Task}
    (h : s.dropHandle owner runtime u = some (s', t', new)) (hrefs : owner.toNat ≤ s.strong)
    (ht : t.refs = owner.toNat ∧ t.makes = 0) (hu : u.refs = 0 ∧ u.makes = 0) :
    Balanced s s' t t' new := by
  cases h
  obtain ⟨hsum, hmakes, hmade⟩ := sum_dropOwner (s := s) owner runtime
  refine ⟨?_, ?_⟩
  · rw [ht.1, hu.1, hsum]
    exact counts_dropOwner hrefs runtime
  · rw [ht.2, hu.2, hmakes, hmade]

/-- The references and the `Owner`s that a step makes and drops. -/
theorem move_balanced (h : s.move t a = some (s', t', new)) (hrefs : t.refs ≤ s.strong)
    (hmakes : t.makes = 1 → s.strong = 0) : Balanced s s' t t' new := by
  unfold Shared.move at h
  split at h
  · exact run_balanced h hmakes
  · cases h
    have hc := counts_cloneOwner hrefs
    exact ⟨⟨by simp [Shared.cloneOwner, Task.refs]; omega, hc.dropped⟩, rfl⟩
  · exact dropHandle_balanced h hrefs ⟨rfl, rfl⟩ ⟨rfl, rfl⟩
  · exact dropHandle_balanced h hrefs ⟨rfl, rfl⟩ ⟨rfl, rfl⟩
  · cases h
    have hc := counts_cloneOwner hrefs
    exact ⟨⟨by simp [Shared.cloneOwner, Task.refs]; omega, hc.dropped⟩, rfl⟩
  · exact dropHandle_balanced h hrefs ⟨rfl, rfl⟩ ⟨rfl, rfl⟩
  · cases h
    exact ⟨⟨by simp [Task.refs], id⟩, rfl⟩
  · cases h
    exact ⟨⟨rfl, id⟩, rfl⟩
  · cases h

/-! ### The invariant -/

structure Inv (owned : Bool) (c : Conn) : Prop where
  /-- The strong count is the number of references. -/
  strong : (c.tasks.map Task.refs).sum = c.shared.strong
  made : c.shared.made + (c.tasks.map Task.makes).sum = owned.toNat
  dropped : c.shared.dropped + (decide (0 < c.shared.strong)).toNat = c.shared.made

theorem refs_le (hI : Inv owned c) (ht : t ∈ c.tasks) : t.refs ≤ c.shared.strong :=
  hI.strong ▸ List.le_sum_of_mem (List.mem_map_of_mem ht)

theorem strong_of_makes (hI : Inv owned c) (ht : t ∈ c.tasks) (hm : t.makes = 1) :
    c.shared.strong = 0 := by
  have hle : t.makes ≤ (c.tasks.map Task.makes).sum :=
    List.le_sum_of_mem (List.mem_map_of_mem ht)
  have hone : owned.toNat ≤ 1 := Bool.toNat_le owned
  have hmade := hI.made
  have hd := hI.dropped
  by_contra hne
  rw [decide_eq_true (Nat.pos_of_ne_zero hne), Bool.toNat_true] at hd
  omega

theorem inv_step (hI : Inv owned c) (h : program.step c e = some c') : Inv owned c' := by
  have hbal : ∀ i x t s' t' new, c.tasks[i]? = some t →
      program.move c.shared c.tasks.length i t x = some (s', t', new) →
        Balanced c.shared s' t t' new := fun i x t s' t' new ht hm =>
    move_balanced hm (refs_le hI (List.mem_of_getElem? ht))
      (strong_of_makes hI (List.mem_of_getElem? ht))
  refine ⟨?_, ?_, ?_⟩
  · have hsum := Program.step_sum (g := fun _ => 0) (k := Shared.strong) (f := Task.refs) h
      (by rw [Nat.zero_add]; exact hI.strong)
      (fun i x t s' t' new ht hm => by have := (hbal i x t s' t' new ht hm).1.strong; omega)
      (fun t ht => (refs_of_isCall ht).1)
    simpa using hsum
  · exact Program.step_sum (g := Shared.made) (k := fun _ => owned.toNat) (f := Task.makes) h
      hI.made (fun i x t s' t' new ht hm => by have := (hbal i x t s' t' new ht hm).2; omega)
      (fun t ht => (refs_of_isCall ht).2.1)
  · rcases Program.step_cases h with ⟨i, x, t, s', t', new, -, ht, hm, rfl⟩ | ⟨t, -, -, rfl⟩
    · exact (hbal i x t s' t' new ht hm).1.dropped hI.dropped
    · exact hI.dropped

theorem inv_reachable (h : (machine owned).Reachable c) : Inv owned c := by
  refine h.invariant ?_ fun c e c' hI _ hs => inv_step hI hs
  rintro _ rfl
  cases owned <;> exact ⟨rfl, rfl, rfl⟩

/-! ### Closing -/

def Task.closes : Task → Bool
  | .close _ => true
  | _ => false

theorem dropOwner_cases (s : Shared) (owner runtime : Bool) :
    (s.dropOwner owner runtime).1.closing = s.closing ∧
      (s.dropOwner owner runtime).1.closed = s.closed ∧
        ((s.dropOwner owner runtime).1.dropped = s.dropped ∧ (s.dropOwner owner runtime).2 = [] ∨
          (s.dropOwner owner runtime).1.dropped = s.dropped + 1 ∧
            ∃ pc, (s.dropOwner owner runtime).2 = [.close pc]) := by
  unfold Shared.dropOwner
  split
  · split
    · exact ⟨rfl, rfl, .inr ⟨rfl, _, rfl⟩⟩
    · exact ⟨rfl, rfl, .inl ⟨rfl, rfl⟩⟩
  · exact ⟨rfl, rfl, .inl ⟨rfl, rfl⟩⟩

/-- A step that is none of a close: it starts one if it drops the `Owner`. -/
structure Apart (s s' : Shared) (t t' : Task) (new : List Task) : Prop where
  closing : s'.closing = s.closing
  closed : s'.closed = s.closed
  before : t.closes = false
  after : t'.closes = false
  dropped : (s'.dropped = s.dropped ∧ ∀ u ∈ new, u.closes = false) ∨
    s'.dropped = s.dropped + 1 ∧ ∃ pc, new = [.close pc]

theorem run_cases (h : s.run t = some (s', t', new)) :
    (∃ pc, t = .close pc ∧ s' = (s.closeStep pc).1 ∧ t' = (s.closeStep pc).2 ∧ new = []) ∨
      Apart s s' t t' new := by
  cases t with
  | close pc =>
      cases h
      exact .inl ⟨pc, rfl, rfl, rfl, rfl⟩
  | exchange ctx owner =>
      refine .inr ?_
      simp only [Shared.run] at h
      split at h
      · cases h
        exact ⟨rfl, rfl, rfl, rfl, .inl ⟨rfl, by simp⟩⟩
      · cases h
        exact ⟨rfl, rfl, rfl, rfl, .inl ⟨rfl, by simp [Task.closes]⟩⟩
  | makeOwner | setOwner | streamHandle | newTask _ =>
      cases h
      exact .inr ⟨rfl, rfl, rfl, rfl, .inl ⟨rfl, by simp⟩⟩
  | handle _ | busy _ _ | background _ _ _ | done => cases h

theorem dropHandle_apart {owner runtime : Bool} {u : Task}
    (h : s.dropHandle owner runtime u = some (s', t', new)) (ht : t.closes = false)
    (hu : u.closes = false) : Apart s s' t t' new := by
  cases h
  obtain ⟨hclosing, hclosed, ⟨hd, hnew⟩ | hd⟩ := dropOwner_cases s owner runtime
  · exact ⟨hclosing, hclosed, ht, hu, .inl ⟨hd, by simp [hnew]⟩⟩
  · exact ⟨hclosing, hclosed, ht, hu, .inr hd⟩

theorem move_cases (h : s.move t a = some (s', t', new)) :
    (∃ pc, t = .close pc ∧ s' = (s.closeStep pc).1 ∧ t' = (s.closeStep pc).2 ∧ new = []) ∨
      Apart s s' t t' new := by
  unfold Shared.move at h
  split at h
  · exact run_cases h
  · cases h
    exact .inr ⟨rfl, rfl, rfl, rfl, .inl ⟨rfl, by simp [Task.closes]⟩⟩
  · exact .inr (dropHandle_apart h rfl rfl)
  · exact .inr (dropHandle_apart h rfl rfl)
  · cases h
    exact .inr ⟨rfl, rfl, rfl, rfl, .inl ⟨rfl, by simp [Task.closes]⟩⟩
  · exact .inr (dropHandle_apart h rfl rfl)
  · cases h
    exact .inr ⟨rfl, rfl, rfl, rfl, .inl ⟨rfl, by simp [Task.closes]⟩⟩
  · cases h
    exact .inr ⟨rfl, rfl, rfl, rfl, .inl ⟨rfl, by simp⟩⟩
  · cases h

theorem dropped_le (h : program.step c e = some c') : c.shared.dropped ≤ c'.shared.dropped := by
  rcases Program.step_cases h with ⟨i, x, t, s', t', new, -, -, hm, rfl⟩ | ⟨t, -, -, rfl⟩
  · rcases move_cases hm with ⟨pc, -, rfl, -⟩ | hA
    · cases pc <;> exact Nat.le_refl _
    · rcases hA.dropped with ⟨hd, -⟩ | ⟨hd, -⟩
      · exact hd.ge
      · exact hd ▸ Nat.le_succ _
  · exact Nat.le_refl _

/-- A close is under way, or over. -/
def Closing (c : Conn) : Prop := c.shared.closed = true ∨ ∃ t ∈ c.tasks, t.closes = true

theorem closing_step (hC : Closing c) (h : program.step c e = some c') : Closing c' := by
  rcases hC with hclosed | ⟨u, hu, hcloses⟩
  · left
    rcases Program.step_cases h with ⟨i, x, t, s', t', new, -, -, hm, rfl⟩ | ⟨t, -, -, rfl⟩
    · rcases move_cases hm with ⟨pc, -, rfl, -⟩ | hA
      · cases pc with
        | swapClosing | waiting => exact hclosed
        | markClosed => rfl
      · exact hA.closed.trans hclosed
    · exact hclosed
  · rcases Program.step_exists h hu with hu' | ⟨i, x, s', t', new, -, ht, hm, rfl⟩
    · exact .inr ⟨u, hu', hcloses⟩
    · rcases move_cases hm with ⟨pc, -, rfl, rfl, -⟩ | hA
      · cases pc with
        | swapClosing | waiting =>
            exact .inr ⟨_, List.mem_append_left _ (mem_set_self ht), rfl⟩
        | markClosed => exact .inl rfl
      · exact absurd hcloses (by simp [hA.before])

/-- Once the `Owner` is dropped. -/
theorem closing_of_dropped (h : (machine owned).Reachable c) (hd : 0 < c.shared.dropped) :
    Closing c := by
  refine h.invariant (I := fun c => 0 < c.shared.dropped → Closing c) ?_ ?_ hd
  · rintro _ rfl hd
    cases hd
  · intro c e c' hI _ hs hd
    by_cases hpos : 0 < c.shared.dropped
    · exact closing_step (hI hpos) hs
    · rcases Program.step_cases hs with ⟨i, x, t, s', t', new, -, -, hm, rfl⟩ | ⟨t, -, -, rfl⟩
      · rcases move_cases hm with ⟨pc, -, rfl, -⟩ | hA
        · exact absurd hd (by cases pc <;> exact hpos)
        · rcases hA.dropped with ⟨hsame, -⟩ | ⟨-, pc, rfl⟩
          · exact absurd (hsame ▸ hd) hpos
          · exact .inr ⟨.close pc, by simp, rfl⟩
      · exact absurd hd hpos

/-! ### What a run is bound to reach -/

/-- The calls that are under way go on. -/
def GoesOn : Event Task Act → Prop
  | .task _ .run => True
  | _ => False

def ClosePc.weight : ClosePc → Nat
  | .swapClosing => 3
  | .waiting => 2
  | .markClosed => 1

/-- The operations that a call has left. -/
def Task.weight : Task → Nat
  | .makeOwner | .newTask _ => 2
  | .setOwner | .streamHandle | .exchange _ _ => 1
  | .close pc => pc.weight
  | .handle _ | .busy _ _ | .background _ _ _ | .done => 0

theorem run_weight (h : s.run t = some (s', t', new)) :
    t'.weight + (new.map Task.weight).sum < t.weight := by
  cases t with
  | close pc =>
      cases h
      cases pc with
      | swapClosing =>
          simp only [Shared.closeStep]
          split <;> simp [Task.weight, ClosePc.weight]
      | waiting | markClosed => simp [Shared.closeStep, Task.weight, ClosePc.weight]
  | exchange ctx owner =>
      simp only [Shared.run] at h
      split at h <;> cases h <;> simp [Task.weight]
  | makeOwner | setOwner | streamHandle | newTask _ =>
      cases h
      simp [Task.weight]
  | handle _ | busy _ _ | background _ _ _ | done => cases h

theorem weight_step (he : GoesOn e) (h : program.step c e = some c') :
    (c'.tasks.map Task.weight).sum < (c.tasks.map Task.weight).sum := by
  rcases Program.step_cases h with ⟨i, x, t, s', t', new, rfl, ht, hm, rfl⟩ | ⟨t, rfl, -⟩
  · cases x with
    | run =>
        have hrun : c.shared.run t = some (s', t', new) := by
          cases t <;> exact hm
        have hlt := run_weight hrun
        have hsum := Machine.Pool.sum_set_append Task.weight t' new ht
        simp only at hsum ⊢
        omega
    | _ => cases he
  · cases he

/-- A close that is under way has a next operation. -/
theorem close_goes (hC : Closing c) (hopen : ¬c.shared.closed = true) :
    ∃ e c', GoesOn e ∧ program.step c e = some c' := by
  obtain ⟨t, ht, hcloses⟩ := hC.resolve_left hopen
  obtain ⟨i, hi⟩ := List.mem_iff_getElem?.mp ht
  cases t with
  | close pc =>
      refine ⟨.task i .run,
        ⟨(c.shared.closeStep pc).1, c.tasks.set i (c.shared.closeStep pc).2 ++ []⟩, trivial, ?_⟩
      simp only [Program.step, hi, program, Option.bind_some]
      rfl
  | _ => cases hcloses

/-! ### The last handle -/

theorem dropped_iff (hI : Inv owned c) : c.shared.dropped ≤ 1 ∧ (c.shared.dropped = 1 ↔
    owned = true ∧ .makeOwner ∉ c.tasks ∧ ∀ t ∈ c.tasks, t.refs = 0) := by
  have hone : owned.toNat ≤ 1 := Bool.toNat_le owned
  have hmade := hI.made
  have hd := hI.dropped
  refine ⟨by omega, fun h => ⟨?_, ?_, fun t ht => ?_⟩, fun ⟨ho, hmake, hrefs⟩ => ?_⟩
  · cases owned
    · simp only [Bool.toNat_false] at hmade
      omega
    · rfl
  · intro hmem
    have hle : Task.makeOwner.makes ≤ (c.tasks.map Task.makes).sum :=
      List.le_sum_of_mem (List.mem_map_of_mem hmem)
    simp only [Task.makes] at hle
    omega
  · have hle := refs_le hI ht
    by_contra hne
    have hpos : 0 < c.shared.strong := by omega
    rw [decide_eq_true hpos, Bool.toNat_true] at hd
    omega
  · subst ho
    have hnone : (c.tasks.map Task.makes).sum = 0 := by
      refine List.sum_eq_zero fun n hn => ?_
      obtain ⟨t, ht, rfl⟩ := List.mem_map.mp hn
      cases t with
      | makeOwner => exact absurd ht hmake
      | _ => rfl
    have hzero : c.shared.strong = 0 := by
      rw [← hI.strong]
      refine List.sum_eq_zero fun n hn => ?_
      obtain ⟨t, ht, rfl⟩ := List.mem_map.mp hn
      exact hrefs t ht
    simp only [hzero, Bool.toNat_true] at hd hmade
    simp only [Nat.lt_irrefl, decide_false, Bool.toNat_false] at hd
    omega

/-- **Dropping the last handle closes an owned connection, once and for good**: the `Owner` is
dropped exactly when it has been made and no reference is left; no handle made later has it again;
and the calls that are under way are bound to close the connection. -/
theorem last_handle_closes (h : (machine owned).Reachable c) :
    (c.shared.dropped ≤ 1 ∧ (c.shared.dropped = 1 ↔
      owned = true ∧ .makeOwner ∉ c.tasks ∧ ∀ t ∈ c.tasks, t.refs = 0)) ∧
    (c.shared.dropped = 1 →
      (∀ c', ((machine owned).startAt c).Reachable c' →
        c'.shared.dropped = 1 ∧ ∀ t ∈ c'.tasks, t.refs = 0) ∧
      (machine owned).Leads GoesOn (fun c' => c'.shared.closed = true) c) := by
  refine ⟨dropped_iff (inv_reachable h), fun hd => ⟨fun c' h' => ?_, ?_⟩⟩
  · have hiff := dropped_iff (inv_reachable (h.trans h'))
    have hle : c.shared.dropped ≤ c'.shared.dropped := by
      refine h'.invariant (I := fun c' => c.shared.dropped ≤ c'.shared.dropped) ?_ ?_
      · rintro _ rfl
        exact Nat.le_refl _
      · exact fun c₁ e c₂ hI _ hs => hI.trans (dropped_le hs)
    have hone : c'.shared.dropped = 1 := Nat.le_antisymm hiff.1 (hd ▸ hle)
    exact ⟨hone, (hiff.2.mp hone).2.2⟩
  · have hC : Closing c := closing_of_dropped h (hd ▸ Nat.one_pos)
    exact Machine.leads_of_measure (I := Closing) (fun c => (c.tasks.map Task.weight).sum)
      (fun _ _ _ hC he hs => ⟨closing_step hC hs, weight_step he hs⟩)
      (fun _ hC hopen => close_goes hC hopen) hC

/-- A stream is opened, and the handle of the connection dropped. -/
def connectionDropped : List (Event Task Act) :=
  [.task 0 .run, .task 0 .run, .start .streamHandle, .task 1 .run, .task 0 (.drop true)]

/-- The handle of the stream is dropped as well. -/
def streamDropped : List (Event Task Act) := connectionDropped ++ [.task 1 (.drop true)]

/-- The connection after a run from its start. -/
def after (events : List (Event Task Act)) : Conn :=
  ((machine true).exec (started true) events).getD (started true)

theorem last_handle_closes_dropped : (after streamDropped).shared.dropped = 1 ∧
    (machine true).Leads GoesOn (fun c => c.shared.closed = true) (after streamDropped) := by
  have h : (machine true).Reachable (after streamDropped) :=
    Machine.reachable_of_exec streamDropped rfl rfl
  exact ⟨rfl, ((last_handle_closes h).2 rfl).2⟩

/-- Nobody calls `close`, and the peer does not close the connection.  A failure or an expiry, which
would close it as well, is no event here. -/
def NoClose (_ : Conn) : Event Task Act → Prop
  | .start t => t.closes = false
  | .task _ _ => True

/-- Before the `Owner` is dropped nothing closes the connection. -/
structure Open (c : Conn) : Prop where
  closing : c.shared.closing = false
  closed : c.shared.closed = false
  closes : ∀ t ∈ c.tasks, t.closes = false

theorem open_reachable (h : (machine owned).ReachableUnder NoClose c)
    (hd : c.shared.dropped = 0) : Open c := by
  refine h.invariant (I := fun c => c.shared.dropped = 0 → Open c) ?_ ?_ hd
  · rintro _ rfl -
    refine ⟨rfl, rfl, fun t ht => ?_⟩
    cases owned with
    | false => cases ht
    | true => exact List.mem_singleton.mp ht ▸ rfl
  · intro c e c' hI hC hs hd
    have hO : Open c := hI (Nat.le_zero.mp (hd ▸ dropped_le hs))
    rcases Program.step_cases hs with ⟨i, x, t, s', t', new, -, ht, hm, rfl⟩ | ⟨t, rfl, -, rfl⟩
    · rcases move_cases hm with ⟨pc, rfl, -⟩ | hA
      · cases hO.closes _ (List.mem_of_getElem? ht)
      · rcases hA.dropped with ⟨-, hnew⟩ | ⟨hone, -⟩
        · refine ⟨hA.closing.trans hO.closing, hA.closed.trans hO.closed, fun u hu => ?_⟩
          rcases mem_of_mem_set_append hu with rfl | hu | hu
          · exact hA.after
          · exact hO.closes u hu
          · exact hnew u hu
        · cases hone.symm.trans hd
    · refine ⟨hO.closing, hO.closed, fun u hu => ?_⟩
      rcases List.mem_append.mp hu with hu | hu
      · exact hO.closes u hu
      · exact List.mem_singleton.mp hu ▸ hC

/-- **A handle keeps its connection open**, and a connection without an owner does not depend on
any: as long as nobody calls `close`, the peer does not close it and nothing fails, it is open. -/
theorem open_while_held (h : (machine owned).ReachableUnder NoClose c)
    (hheld : owned = false ∨ ∃ t ∈ c.tasks, 0 < t.refs) :
    c.shared.closing = false ∧ c.shared.closed = false := by
  have hiff := dropped_iff (inv_reachable h.reachable)
  have hO := open_reachable h (by
    by_contra hne
    have hone : c.shared.dropped = 1 := by have := hiff.1; omega
    obtain ⟨ho, -, hrefs⟩ := hiff.2.mp hone
    rcases hheld with rfl | ⟨t, ht, hpos⟩
    · cases ho
    · exact absurd (hrefs t ht) (Nat.ne_of_gt hpos))
  exact ⟨hO.closing, hO.closed⟩

theorem open_while_held_stream : (after connectionDropped).shared.closing = false ∧
    (after connectionDropped).shared.closed = false := by
  have h : (machine true).ReachableUnder NoClose (after connectionDropped) :=
    Machine.ReachableUnder.exec connectionDropped (.init rfl) rfl ⟨trivial, fun _ _ => ⟨trivial,
      fun _ _ => ⟨rfl, fun _ _ => ⟨trivial, fun _ _ => ⟨trivial, fun _ _ => trivial⟩⟩⟩⟩⟩
  exact open_while_held h (.inr ⟨.handle true, by decide, by decide⟩)

/-! ### Background tasks -/

theorem guards_dropOwner (ctx : Nat) (owner runtime : Bool) :
    (s.dropOwner owner runtime).1.handlerTaskActive = s.handlerTaskActive ∧
      ∀ u ∈ (s.dropOwner owner runtime).2, u.guards ctx = false := by
  unfold Shared.dropOwner
  split
  · split
    · exact ⟨rfl, by simp [Task.guards]⟩
    · exact ⟨rfl, by simp⟩
  · exact ⟨rfl, by simp⟩

theorem held_dropHandle {ctx i : Nat} {tasks : List Task} {owner runtime : Bool} {u : Task}
    (hl : Held (Task.guards ctx) tasks (s.handlerTaskActive ctx)) (ht : tasks[i]? = some t)
    (h : s.dropHandle owner runtime u = some (s', t', new)) (hu : t.guards ctx = u.guards ctx) :
    Held (Task.guards ctx) (tasks.set i t' ++ new) (s'.handlerTaskActive ctx) := by
  cases h
  obtain ⟨hactive, hnew⟩ := guards_dropOwner (s := s) ctx owner runtime
  rw [hactive]
  exact (hl.set ht hu).append hnew

/-- The compare-exchange of a stream context sees to it that one task has its guard. -/
theorem held_exchange {ctx ctx' i : Nat} {owner : Bool} {tasks : List Task}
    (hl : Held (Task.guards ctx) tasks (s.handlerTaskActive ctx))
    (ht : tasks[i]? = some (.exchange ctx' owner)) (hfree : s.handlerTaskActive ctx' = false) :
    Held (Task.guards ctx) (tasks.set i .done ++ [.background ctx' (some owner) true])
      ((s.setActive ctx' true).handlerTaskActive ctx) := by
  have hdone : Held (Task.guards ctx) (tasks.set i .done) (s.handlerTaskActive ctx) := hl.set ht rfl
  by_cases hctx : ctx' = ctx
  · subst hctx
    rw [hfree] at hdone
    simp only [Shared.setActive, Function.update_self]
    exact hdone.spawn (by simp [Task.guards])
  · simp only [Shared.setActive, Function.update_of_ne (Ne.symm hctx)]
    refine hdone.append ?_
    simp [Task.guards, hctx]

theorem held_move {ctx i : Nat} {tasks : List Task}
    (hl : Held (Task.guards ctx) tasks (s.handlerTaskActive ctx)) (ht : tasks[i]? = some t)
    (h : s.move t a = some (s', t', new)) :
    Held (Task.guards ctx) (tasks.set i t' ++ new) (s'.handlerTaskActive ctx) := by
  unfold Shared.move at h
  split at h
  · cases t with
    | exchange ctx' owner =>
        simp only [Shared.run] at h
        split at h
        · cases h
          rw [List.append_nil]
          exact hl.set ht rfl
        · rename_i hfree
          cases h
          exact held_exchange hl ht (Bool.eq_false_of_not_eq_true hfree)
    | close pc =>
        cases h
        rw [List.append_nil]
        cases pc with
        | swapClosing | waiting | markClosed => exact hl.set ht rfl
    | makeOwner | setOwner | streamHandle | newTask _ =>
        cases h
        rw [List.append_nil]
        exact hl.set ht rfl
    | handle _ | busy _ _ | background _ _ _ | done => cases h
  · cases h
    refine (hl.set ht rfl).append ?_
    simp [Task.guards]
  · exact held_dropHandle hl ht h rfl
  · exact held_dropHandle hl ht h rfl
  · cases h
    refine (hl.set ht rfl).append ?_
    simp [Task.guards]
  · exact held_dropHandle hl ht h rfl
  · rename_i ctx' owner guard
    cases h
    have hset : Held (Task.guards ctx) (tasks.set i (.background ctx' none guard)) _ :=
      hl.set ht rfl
    refine hset.append ?_
    simp [Task.guards]
  · rename_i ctx' stream
    cases h
    rw [List.append_nil]
    by_cases hctx : ctx' = ctx
    · subst hctx
      simp only [Shared.setActive, Function.update_self]
      exact hl.release ht (by simp [Task.guards]) rfl
    · simp only [Shared.setActive, Function.update_of_ne (Ne.symm hctx)]
      exact hl.set ht (by simp [Task.guards, hctx])
  · cases h

theorem guarded_reachable (h : (machine owned).Reachable c) (ctx : Nat) :
    Held (Task.guards ctx) c.tasks (c.shared.handlerTaskActive ctx) := by
  refine h.invariant
    (I := fun c => Held (Task.guards ctx) c.tasks (c.shared.handlerTaskActive ctx)) ?_ ?_
  · rintro _ rfl
    cases owned <;> rfl
  · intro c e c' hl _ hs
    rcases Program.step_cases hs with ⟨i, x, t, s', t', new, -, ht, hm, rfl⟩ | ⟨t, -, hcall, rfl⟩
    · exact held_move hl ht hm
    · exact hl.append fun u hu => List.mem_singleton.mp hu ▸ (refs_of_isCall hcall).2.2 ctx

/-- **One background task of a stream at a time**: `new_task` returns `HandlerTaskBusy` exactly if a
task of the stream still has the guard, and the task it starts otherwise gets the stream handle. -/
theorem new_task_busy_iff (h : (machine owned).Reachable c) (ctx : Nat) :
    c.tasks.countP (Task.guards ctx) ≤ 1 ∧
    ∀ i owner, c.tasks[i]? = some (.exchange ctx owner) →
      ∃ c', program.step c (.task i .run) = some c' ∧
        c'.tasks.countP (Task.guards ctx) = 1 ∧
        ((∃ t ∈ c.tasks, t.guards ctx = true) → c'.tasks = c.tasks.set i (.busy ctx owner)) ∧
        ((∀ t ∈ c.tasks, t.guards ctx = false) →
          c'.tasks = c.tasks.set i .done ++ [.background ctx (some owner) true]) := by
  have hl := guarded_reachable h ctx
  refine ⟨hl.trans_le (Bool.toNat_le _), fun i owner hi => ?_⟩
  cases hactive : c.shared.handlerTaskActive ctx with
  | true =>
      have hs : program.step c (.task i .run) =
          some ⟨c.shared, c.tasks.set i (.busy ctx owner) ++ []⟩ := by
        simp only [Program.step, hi, program, Option.bind_some, Shared.move, Shared.run, hactive]
        rfl
      rw [hactive] at hl
      rw [List.append_nil] at hs
      refine ⟨_, hs, hl.set hi rfl, fun _ => rfl, fun hnone => ?_⟩
      obtain ⟨t, ht, hg⟩ := hl.holder
      exact absurd hg (by simp [hnone t ht])
  | false =>
      have hs : program.step c (.task i .run) = some ⟨c.shared.setActive ctx true,
          c.tasks.set i .done ++ [.background ctx (some owner) true]⟩ := by
        simp only [Program.step, hi, program, Option.bind_some, Shared.move, Shared.run, hactive]
        rfl
      rw [hactive] at hl
      refine ⟨_, hs, ?_, fun hg => ?_, fun _ => rfl⟩
      · have hdone : Held (Task.guards ctx) (c.tasks.set i .done) false := hl.set hi rfl
        exact hdone.spawn (by simp [Task.guards])
      · obtain ⟨t, ht, hg⟩ := hg
        exact absurd (hl.flag_of_mem ht hg) Bool.false_ne_true

/-- Two calls of `new_task`, the second while the task of the first runs. -/
def twoTasks : List (Event Task Act) :=
  [.task 0 .run, .task 0 .run, .start (.newTask 3), .task 1 .run, .task 1 .run,
    .start (.newTask 3), .task 3 .run]

theorem new_task_busy_iff_two : ∃ c', program.step (after twoTasks) (.task 3 .run) = some c' ∧
    c'.tasks = (after twoTasks).tasks.set 3 (.busy 3 true) := by
  have h : (machine true).Reachable (after twoTasks) := Machine.reachable_of_exec twoTasks rfl rfl
  obtain ⟨c', hs, -, hbusy, -⟩ := (new_task_busy_iff h 3).2 3 true rfl
  exact ⟨c', hs, hbusy ⟨.background 3 (some true) true, by decide, rfl⟩⟩

end owner

end AdaptiveMsg.Owner
