import AdaptiveMsg.Machine.Leads
import AdaptiveMsg.Machine.Pool
import Mathlib.Data.Set.Insert

/-!
# Machine — flags with notifications

Flags that are set once and for all, each with a `Notify` whose `notify_waiters` is called after
the flag is set.  A waiter makes a future of the `Notify`, then looks at the flag, and then waits
for the future, which is ready once `notify_waiters` has been called since it was made.  It may wait
for several flags in turn, as a `select!` polls its branches, and it may be dropped at any point.
What sets the flags is a `Script`: it may do other things before it notifies, and the one that finds
a flag set may leave the notification to the one that set it.

* `Script.Sound`: whoever sets a flag notifies, and nobody notifies before the flag is set.
* `no_lost_wakeup`: a waiter that waits for a flag that is set has been notified, or a script that
  is yet to notify is still running.
* `waits_end`: whatever the order, all who wait for a flag that is or will be set return.
-/

namespace Machine.Notify

open Machine.Pool (Program Event)

variable {κ ι : Type*}

/-! ### Scripts and waiters -/

structure Shared (κ : Type*) where
  flag : κ → Bool
  /-- How often `notify_waiters` was called. -/
  calls : κ → Nat

/-- What is left to do of a task that sets flags. -/
inductive Script (κ : Type*) where
  | done
  /-- An operation on something else. -/
  | step (next : Script κ)
  /-- The flag is set; `lost` if it already was. -/
  | swap (k : κ) (won lost : Script κ)
  | notify (k : κ) (next : Script κ)
  deriving DecidableEq, Repr

/-- A waiter for the flags `todo`; `armed` has the futures it waits for already, with the number of
calls when they were made. -/
inductive Waiter (κ : Type*) where
  | poll (todo : List κ) (armed : List (κ × Nat))
  /-- The future is made, and the flag is next. -/
  | look (k : κ) (seen : Nat) (todo : List κ) (armed : List (κ × Nat))
  | returned (k : κ)
  | dropped
  deriving DecidableEq, Repr

/-- What a call does. -/
inductive Body (κ : Type*) where
  | waits (flags : List κ)
  | sets (script : Script κ)

inductive Task (κ ι : Type*) where
  | call (call : ι)
  | waiter (pc : Waiter κ)
  | setter (script : Script κ)
  deriving DecidableEq, Repr

inductive Act where
  | go
  | drop
  deriving DecidableEq, Repr

/-! ### Sound scripts -/

namespace Script

/-- However the script goes on, it calls `notify_waiters` of `k`. -/
def Notifies (k : κ) : Script κ → Prop
  | .done => False
  | .step next => next.Notifies k
  | .swap _ won lost => won.Notifies k ∧ lost.Notifies k
  | .notify j next => j = k ∨ next.Notifies k

/-- Who sets a flag notifies, and only a flag that is set is notified of; `known` are set. -/
def Sound (known : Set κ) : Script κ → Prop
  | .done => True
  | .step next => next.Sound known
  | .swap k won lost => won.Notifies k ∧ won.Sound (insert k known) ∧ lost.Sound (insert k known)
  | .notify k next => k ∈ known ∧ next.Sound known

/-- However the script goes on, it sets the flag or finds it set. -/
def Sets (k : κ) : Script κ → Prop
  | .done => False
  | .step next | .notify _ next => next.Sets k
  | .swap j won lost => j = k ∨ won.Sets k ∧ lost.Sets k

/-- How many steps the script may take. -/
def length : Script κ → Nat
  | .done => 0
  | .step next | .notify _ next => next.length + 1
  | .swap _ won lost => max won.length lost.length + 1

theorem Sound.mono {known known' : Set κ} {script : Script κ} (h : script.Sound known)
    (hk : known ⊆ known') : script.Sound known' := by
  induction script generalizing known known' with
  | done => trivial
  | step next ih => exact ih h hk
  | swap k won lost ihw ihl =>
      exact ⟨h.1, ihw h.2.1 (Set.insert_subset_insert hk), ihl h.2.2 (Set.insert_subset_insert hk)⟩
  | notify k next ih => exact ⟨hk h.1, ih h.2 hk⟩

end Script

/-! ### Operations -/

section operations

variable [DecidableEq κ]

def Shared.set (s : Shared κ) (k : κ) : Shared κ := { s with flag := Function.update s.flag k true }

def Shared.notifyWaiters (s : Shared κ) (k : κ) : Shared κ :=
  { s with calls := Function.update s.calls k (s.calls k + 1) }

def waiterStep (s : Shared κ) : Waiter κ → Act → Option (Waiter κ)
  | .poll (k :: todo) armed, .go => some (.look k (s.calls k) todo armed)
  | .poll [] armed, .go => (armed.find? fun a => s.calls a.1 ≠ a.2).map fun a => .returned a.1
  | .look k seen todo armed, .go =>
    some (if s.flag k then .returned k else .poll todo (armed ++ [(k, seen)]))
  | .poll _ _, .drop | .look .., .drop => some .dropped
  | .returned _, _ | .dropped, _ => none

def scriptStep (s : Shared κ) : Script κ → Option (Shared κ × Script κ)
  | .done => none
  | .step next => some (s, next)
  | .swap k won lost => some (if s.flag k then (s, lost) else (s.set k, won))
  | .notify k next => some (s.notifyWaiters k, next)

def Body.task : Body κ → Task κ ι
  | .waits flags => .waiter (.poll flags [])
  | .sets script => .setter script

def move (body : ι → Body κ) (s : Shared κ) :
    Task κ ι → Act → Option (Shared κ × Task κ ι × List (Task κ ι))
  | .call call, .go => some (s, (body call).task, [])
  | .waiter pc, a => (waiterStep s pc a).map fun pc => (s, .waiter pc, [])
  | .setter script, .go => (scriptStep s script).map fun (s, script) => (s, .setter script, [])
  | .call _, .drop | .setter _, .drop => none

def starts : Task κ ι → Bool
  | .call _ => true
  | .waiter _ | .setter _ => false

def program (body : ι → Body κ) : Program (Shared κ) (Task κ ι) Act :=
  ⟨fun s _ _ t a => move body s t a, fun _ t => starts t⟩

abbrev State (κ ι : Type*) := Machine.Pool.State (Shared κ) (Task κ ι)

def initial : State κ ι := ⟨⟨fun _ => false, fun _ => 0⟩, []⟩

/-- Any calls, made at any time. -/
def machine (body : ι → Body κ) : Machine (State κ ι) (Event (Task κ ι) Act) where
  init c := c = initial
  step := (program body).step

end operations

/-! ### The invariant -/

/-- The futures that a waiter has made. -/
def Waiter.futures : Waiter κ → List (κ × Nat)
  | .poll _ armed => armed
  | .look k seen _ armed => armed ++ [(k, seen)]
  | .returned _ | .dropped => []

/-- The flags that a waiter has yet to look at, or to look at and then wait for. -/
def Waiter.flags : Waiter κ → List κ
  | .poll todo armed => todo ++ armed.map Prod.fst
  | .look k _ todo armed => k :: todo ++ armed.map Prod.fst
  | .returned _ | .dropped => []

/-- What a task knows. -/
def Task.Ok (s : Shared κ) : Task κ ι → Prop
  | .call _ => True
  | .waiter pc => (∀ a ∈ pc.futures, a.2 ≤ s.calls a.1) ∧ ∀ k, pc = .returned k → s.flag k = true
  | .setter script => script.Sound {k | s.flag k = true}

/-- The scripts of the calls are sound. -/
def Sound (body : ι → Body κ) : Prop := ∀ call script, body call = .sets script → script.Sound ∅

def Task.flags (body : ι → Body κ) : Task κ ι → List κ
  | .call f =>
    match body f with
    | .waits flags => flags
    | .sets _ => []
  | .waiter pc => pc.flags
  | .setter _ => []

/-- A waiter has looked at a flag before it was set, and waits for a future made before that. -/
def Waiter.Awaits (k : κ) (seen : Nat) : Waiter κ → Prop
  | .poll _ armed | .look _ _ _ armed => (k, seen) ∈ armed
  | .returned _ | .dropped => False

structure Inv (c : State κ ι) : Prop where
  tasks : ∀ t ∈ c.tasks, t.Ok c.shared
  /-- Nobody is notified of a flag before it is set. -/
  called : ∀ k, c.shared.calls k ≠ 0 → c.shared.flag k = true
  /-- Who waits for a flag that is set will be notified, or has been. -/
  pending : ∀ k seen pc, .waiter pc ∈ c.tasks → pc.Awaits k seen → c.shared.flag k = true →
    c.shared.calls k = seen → ∃ script, .setter script ∈ c.tasks ∧ script.Notifies k

theorem awaits_futures {k : κ} {seen : Nat} {pc : Waiter κ} (h : pc.Awaits k seen) :
    (k, seen) ∈ pc.futures := by
  cases pc with
  | poll todo armed => exact h
  | look j n todo armed => exact List.mem_append_left _ h
  | returned | dropped => exact h.elim

theorem starts_call {t : Task κ ι} (h : starts t = true) : ∃ call, t = .call call := by
  cases t with
  | call call => exact ⟨call, rfl⟩
  | waiter | setter => cases h

section invariant

variable [DecidableEq κ] {s s' : Shared κ} {t t' u : Task κ ι} {new : List (Task κ ι)} {a : Act}
  {c c' : State κ ι} {e : Event (Task κ ι) Act} {body : ι → Body κ}

theorem flag_set (k j : κ) : (s.set k).flag j = true ↔ j = k ∨ s.flag j = true := by
  simp only [Shared.set, Function.update_apply]
  split <;> simp_all

/-- An operation of a task. -/
inductive Move (body : ι → Body κ) (s : Shared κ) :
    Task κ ι → Act → Shared κ → Task κ ι → Prop where
  | wait {call : ι} {flags : List κ} (hb : body call = .waits flags) :
      Move body s (.call call) .go s (.waiter (.poll flags []))
  | begin {call : ι} {script : Script κ} (hb : body call = .sets script) :
      Move body s (.call call) .go s (.setter script)
  | make (k : κ) (todo : List κ) (armed : List (κ × Nat)) :
      Move body s (.waiter (.poll (k :: todo) armed)) .go s
        (.waiter (.look k (s.calls k) todo armed))
  | wake {k : κ} {seen : Nat} {armed : List (κ × Nat)} (ha : (k, seen) ∈ armed)
      (hs : s.calls k ≠ seen) :
      Move body s (.waiter (.poll [] armed)) .go s (.waiter (.returned k))
  | see {k : κ} (seen : Nat) (todo : List κ) (armed : List (κ × Nat)) (hk : s.flag k = true) :
      Move body s (.waiter (.look k seen todo armed)) .go s (.waiter (.returned k))
  | arm {k : κ} (seen : Nat) (todo : List κ) (armed : List (κ × Nat)) (hk : s.flag k = false) :
      Move body s (.waiter (.look k seen todo armed)) .go s
        (.waiter (.poll todo (armed ++ [(k, seen)])))
  | drop (pc : Waiter κ) : Move body s (.waiter pc) .drop s (.waiter .dropped)
  | step (next : Script κ) : Move body s (.setter (.step next)) .go s (.setter next)
  | win {k : κ} (won lost : Script κ) (hk : s.flag k = false) :
      Move body s (.setter (.swap k won lost)) .go (s.set k) (.setter won)
  | lose {k : κ} (won lost : Script κ) (hk : s.flag k = true) :
      Move body s (.setter (.swap k won lost)) .go s (.setter lost)
  | notify (k : κ) (next : Script κ) :
      Move body s (.setter (.notify k next)) .go (s.notifyWaiters k) (.setter next)

theorem move_cases (h : move body s t a = some (s', t', new)) :
    Move body s t a s' t' ∧ new = [] := by
  cases t with
  | call call =>
      cases a with
      | go =>
          cases h
          refine ⟨?_, rfl⟩
          cases hb : body call with
          | waits flags => exact .wait hb
          | sets script => exact .begin hb
      | drop => cases h
  | waiter pc =>
      obtain ⟨pc', hs, he⟩ := Option.map_eq_some_iff.1 h
      cases he
      refine ⟨?_, rfl⟩
      cases pc with
      | poll todo armed =>
          cases a with
          | go =>
              cases todo with
              | nil =>
                  obtain ⟨⟨k, seen⟩, hf, rfl⟩ := Option.map_eq_some_iff.1 hs
                  exact .wake (List.mem_of_find?_eq_some hf) (by simpa using List.find?_some hf)
              | cons k todo =>
                  cases hs
                  exact .make k todo armed
          | drop =>
              cases todo <;> cases hs <;> exact .drop _
      | look k seen todo armed =>
          cases a with
          | go =>
              simp only [waiterStep] at hs
              split at hs <;> cases hs
              · exact .see seen todo armed ‹_›
              · exact .arm seen todo armed (Bool.eq_false_iff.2 ‹_›)
          | drop =>
              cases hs
              exact .drop _
      | returned k => cases hs
      | dropped => cases hs
  | setter script =>
      cases a with
      | go =>
          obtain ⟨⟨s₁, script'⟩, hs, he⟩ := Option.map_eq_some_iff.1 h
          cases he
          refine ⟨?_, rfl⟩
          cases script with
          | done => cases hs
          | step next =>
              cases hs
              exact .step _
          | swap k won lost =>
              simp only [scriptStep] at hs
              split at hs <;> cases hs
              · exact .lose _ _ ‹_›
              · exact .win _ _ (Bool.eq_false_iff.2 ‹_›)
          | notify k next =>
              cases hs
              exact .notify _ _
      | drop => cases h

/-- Flags stay set, and calls are never taken back. -/
theorem move_mono (h : Move body s t a s' t') :
    (∀ k, s.flag k = true → s'.flag k = true) ∧ ∀ k, s.calls k ≤ s'.calls k := by
  cases h with
  | win => exact ⟨fun k hk => (flag_set _ k).2 (.inr hk), fun _ => le_rfl⟩
  | @notify k next =>
      refine ⟨fun _ h => h, fun j => ?_⟩
      simp only [Shared.notifyWaiters, Function.update_apply]
      split
      · rename_i hj
        exact hj ▸ Nat.le_succ _
      · exact le_rfl
  | _ => exact ⟨fun _ h => h, fun _ => le_rfl⟩

theorem Task.Ok.mono (hu : u.Ok s) (h : Move body s t a s' t') : u.Ok s' := by
  obtain ⟨hflag, hcalls⟩ := move_mono h
  cases u with
  | call call => trivial
  | waiter pc => exact ⟨fun a ha => (hu.1 a ha).trans (hcalls _), fun k hk => hflag k (hu.2 k hk)⟩
  | setter script => exact Script.Sound.mono hu fun k hk => hflag k hk

/-- What the task that moves knows after its operation. -/
theorem move_ok (hsound : Sound body) (hcalled : ∀ k, s.calls k ≠ 0 → s.flag k = true)
    (ht : t.Ok s) (h : Move body s t a s' t') : t'.Ok s' := by
  cases h with
  | wait hb => exact ⟨by simp [Waiter.futures], by simp⟩
  | begin hb => exact (hsound _ _ hb).mono (Set.empty_subset _)
  | make k todo armed =>
      refine ⟨fun a ha => ?_, by simp⟩
      rcases List.mem_append.1 ha with ha | ha
      · exact ht.1 a ha
      · rw [List.mem_singleton.1 ha]
  | @wake k seen armed ha hs =>
      refine ⟨by simp [Waiter.futures], fun j hj => ?_⟩
      cases hj
      have hle : seen ≤ s.calls k := ht.1 (k, seen) ha
      exact hcalled k (by omega)
  | see seen todo armed hk =>
      refine ⟨by simp [Waiter.futures], fun j hj => ?_⟩
      cases hj
      exact hk
  | arm seen todo armed hk => exact ⟨ht.1, by simp⟩
  | drop pc => exact ⟨by simp [Waiter.futures], by simp⟩
  | step next => exact ht
  | win won lost hk =>
      exact Script.Sound.mono ht.2.1 fun j hj => (flag_set _ j).2 (Set.mem_insert_iff.1 hj)
  | lose won lost hk => exact Script.Sound.mono ht.2.2 (Set.insert_subset hk subset_rfl)
  | notify k next => exact ht.2

theorem called_move (hcalled : ∀ k, s.calls k ≠ 0 → s.flag k = true) (ht : t.Ok s)
    (h : Move body s t a s' t') : ∀ k, s'.calls k ≠ 0 → s'.flag k = true := by
  cases h with
  | win won lost hk => exact fun j hj => (flag_set _ j).2 (.inr (hcalled j hj))
  | notify k next =>
      intro j hj
      by_cases hjk : j = k
      · exact hjk ▸ ht.1
      · refine hcalled j ?_
        simpa only [Shared.notifyWaiters, Function.update_of_ne hjk] using hj
  | _ => exact hcalled

/-- A waiter that awaits a future awaited it before, or has just found the flag not set. -/
theorem awaits_move {k : κ} {seen : Nat} {pc' : Waiter κ} (h : Move body s t a s' (.waiter pc'))
    (ha : pc'.Awaits k seen) : s' = s ∧
      ((∃ pc, t = .waiter pc ∧ pc.Awaits k seen) ∨ s.flag k = false) := by
  cases h with
  | make k todo armed => exact ⟨rfl, .inl ⟨_, rfl, ha⟩⟩
  | @arm j n todo armed hk =>
      refine ⟨rfl, ?_⟩
      rcases List.mem_append.1 ha with ha | ha
      · exact .inl ⟨_, rfl, ha⟩
      · cases List.mem_singleton.1 ha
        exact .inr hk
  | wait => exact absurd ha List.not_mem_nil
  | wake | see | drop => exact ha.elim

/-- A script that will notify goes on to do so, or has just done so. -/
theorem notifies_move {k : κ} {script : Script κ} (hn : script.Notifies k)
    (h : Move body s (.setter script) a s' t') : s'.calls k = s.calls k + 1 ∨
      ∃ script', t' = .setter script' ∧ script'.Notifies k := by
  cases h with
  | step next => exact .inr ⟨next, rfl, hn⟩
  | win won lost => exact .inr ⟨won, rfl, hn.1⟩
  | lose won lost => exact .inr ⟨lost, rfl, hn.2⟩
  | notify j next =>
      rcases hn with rfl | hn
      · exact .inl (Function.update_self ..)
      · exact .inr ⟨next, rfl, hn⟩

/-- A flag that an operation sets is one that its task will notify of. -/
theorem flag_move {k : κ} (ht : t.Ok s) (h : Move body s t a s' t') (hk : s'.flag k = true) :
    s.flag k = true ∨ ∃ script, t' = .setter script ∧ script.Notifies k := by
  cases h with
  | @win j won lost =>
      rcases (flag_set j k).1 hk with rfl | hk
      · exact .inr ⟨won, rfl, ht.1⟩
      · exact .inl hk
  | _ => exact .inl hk

theorem pending_move {i : Nat} (hI : Inv c) (hi : c.tasks[i]? = some t)
    (h : Move body c.shared t a s' t') (k : κ) (seen : Nat) (pc : Waiter κ)
    (hpc : .waiter pc ∈ c.tasks.set i t' ++ []) (ha : pc.Awaits k seen) (hk : s'.flag k = true)
    (hs : s'.calls k = seen) : ∃ script, .setter script ∈ c.tasks.set i t' ++ [] ∧
      script.Notifies k := by
  have hself : t' ∈ c.tasks.set i t' ++ [] :=
    List.mem_append_left _ (Machine.Pool.mem_set_self hi)
  have ht := hI.tasks t (List.mem_of_getElem? hi)
  -- A script that was to notify of the flag before still is.
  have hkeep (hcalls : s'.calls k = c.shared.calls k)
      (hold : ∃ script, .setter script ∈ c.tasks ∧ script.Notifies k) :
      ∃ script, .setter script ∈ c.tasks.set i t' ++ [] ∧ script.Notifies k := by
    obtain ⟨script, hmem, hn⟩ := hold
    by_cases hst : Task.setter script = t
    · subst hst
      rcases notifies_move hn h with hcall | ⟨script', rfl, hn'⟩
      · omega
      · exact ⟨script', hself, hn'⟩
    · exact ⟨script, List.mem_append_left _ (Machine.Pool.mem_set_of_ne hi hmem hst), hn⟩
  rcases Machine.Pool.mem_of_mem_set_append hpc with rfl | hold | hnew
  · obtain ⟨rfl, ⟨pc₀, rfl, ha₀⟩ | hno⟩ := awaits_move h ha
    · exact hkeep rfl (hI.pending k seen pc₀ (List.mem_of_getElem? hi) ha₀ hk hs)
    · exact absurd (hno.symm.trans hk) Bool.false_ne_true
  · rcases flag_move ht h hk with hflag | ⟨script, rfl, hn⟩
    · -- Its future is older than any call.
      have hle : seen ≤ c.shared.calls k := (hI.tasks _ hold).1 (k, seen) (awaits_futures ha)
      have hmono := (move_mono h).2 k
      have hcalls : s'.calls k = c.shared.calls k := by omega
      exact hkeep hcalls (hI.pending k seen pc hold ha hflag (hcalls ▸ hs))
    · exact ⟨script, hself, hn⟩
  · cases hnew

theorem inv_step (hsound : Sound body) (hI : Inv c)
    (h : (machine body).step c e = some c') : Inv c' := by
  rcases Program.step_cases h with ⟨i, a, t, s', t', new, -, hi, hm, rfl⟩ | ⟨t, -, ht, rfl⟩
  · obtain ⟨hmove, rfl⟩ := move_cases hm
    have ht := hI.tasks t (List.mem_of_getElem? hi)
    refine ⟨fun u hu => ?_, called_move hI.called ht hmove,
      fun k seen pc => pending_move hI hi hmove k seen pc⟩
    rcases Machine.Pool.mem_of_mem_set_append hu with rfl | hu | hu
    · exact move_ok hsound hI.called ht hmove
    · exact (hI.tasks u hu).mono hmove
    · cases hu
  · obtain ⟨call, rfl⟩ := starts_call ht
    refine ⟨fun u hu => ?_, hI.called, fun k seen pc hpc ha hk hs => ?_⟩
    · rcases List.mem_append.1 hu with hu | hu
      · exact hI.tasks u hu
      · rw [List.mem_singleton.1 hu]
        trivial
    · rcases List.mem_append.1 hpc with hpc | hpc
      · obtain ⟨script, hmem, hn⟩ := hI.pending k seen pc hpc ha hk hs
        exact ⟨script, List.mem_append_left _ hmem, hn⟩
      · cases List.mem_singleton.1 hpc

theorem inv_reachable (hsound : Sound body) (h : (machine body).Reachable c) :
    Inv c := by
  refine h.invariant ?_ fun _ _ _ hI _ hs => inv_step hsound hI hs
  rintro _ rfl
  refine ⟨fun t ht => ?_, fun k hk => absurd rfl hk, fun k seen pc hpc => ?_⟩
  · cases ht
  · cases hpc

end invariant

/-! ### What every run comes to -/

/-- The task has yet to set the flag. -/
def Task.Sets (body : ι → Body κ) (k : κ) : Task κ ι → Prop
  | .call f => ∃ script, body f = .sets script ∧ script.Sets k
  | .waiter _ => False
  | .setter script => script.Sets k

/-- The flag is set, or about to be. -/
def Coming (body : ι → Body κ) (k : κ) (c : State κ ι) : Prop :=
  c.shared.flag k = true ∨ ∃ t ∈ c.tasks, t.Sets body k

/-- The flag is set, and nobody waits for it. -/
def Ended (body : ι → Body κ) (k : κ) (c : State κ ι) : Prop :=
  c.shared.flag k = true ∧ ∀ t ∈ c.tasks, k ∉ t.flags body

/-- A task goes on. -/
def GoesOn (e : Event (Task κ ι) Act) : Prop := ∃ i, e = .task i .go

def Waiter.length : Waiter κ → Nat
  | .poll todo _ => 2 * todo.length + 1
  | .look _ _ todo _ => 2 * todo.length + 2
  | .returned _ | .dropped => 0

def Body.length : Body κ → Nat
  | .waits flags => 2 * flags.length + 1
  | .sets script => script.length

/-- How many steps a task may take. -/
def Task.length (body : ι → Body κ) : Task κ ι → Nat
  | .call f => (body f).length + 1
  | .waiter pc => pc.length
  | .setter script => script.length

section results

variable [DecidableEq κ] {s s' : Shared κ} {t t' : Task κ ι} {c c' : State κ ι}
  {e : Event (Task κ ι) Act} {body : ι → Body κ}

/-- A waiter returns only once the flag is set, and none is left behind by who sets the flag. -/
theorem no_lost_wakeup (hsound : Sound body) (h : (machine body).Reachable c) :
    (∀ k, .waiter (.returned k) ∈ c.tasks → c.shared.flag k = true) ∧
      ∀ k seen pc, .waiter pc ∈ c.tasks → pc.Awaits k seen → c.shared.flag k = true →
        c.shared.calls k ≠ seen ∨ ∃ script, .setter script ∈ c.tasks ∧ script.Notifies k := by
  have hI := inv_reachable hsound h
  refine ⟨fun k hk => (hI.tasks _ hk).2 k rfl, fun k seen pc hpc ha hk => ?_⟩
  by_cases hs : c.shared.calls k = seen
  · exact .inr (hI.pending k seen pc hpc ha hk hs)
  · exact .inl hs

theorem length_move (h : Move body s t .go s' t') : t'.length body < t.length body := by
  cases h with
  | wait hb | begin hb =>
      simp only [Task.length, hb]
      exact Nat.lt_succ_self _
  | make | wake | see | arm =>
      simp only [Task.length, Waiter.length, List.length_cons]
      omega
  | step | notify => exact Nat.lt_succ_self _
  | win won lost | lose won lost =>
      simp only [Task.length, Script.length]
      omega

theorem length_step (he : GoesOn e) (h : (machine body).step c e = some c') :
    (c'.tasks.map (Task.length body)).sum < (c.tasks.map (Task.length body)).sum := by
  obtain ⟨i, hgo⟩ := he
  rcases Program.step_cases h with ⟨j, a, t, s', t', new, he, hj, hm, rfl⟩ | ⟨t, he, -⟩
  · cases he.symm.trans hgo
    obtain ⟨hmove, rfl⟩ := move_cases hm
    have hlt := length_move hmove
    have hsum := Machine.Pool.sum_set_append (Task.length body) t' [] hj
    simp only [List.map_nil, List.sum_nil] at hsum
    simp only
    omega
  · cases he.symm.trans hgo

theorem step_go {i : Nat} (hi : c.tasks[i]? = some t)
    (h : (move body c.shared t .go).isSome = true) :
    ∃ e c', GoesOn e ∧ (machine body).step c e = some c' := by
  obtain ⟨r, hr⟩ := Option.isSome_iff_exists.1 h
  refine ⟨.task i .go, ⟨r.1, c.tasks.set i r.2.1 ++ r.2.2⟩, ⟨i, rfl⟩, ?_⟩
  simp [machine, Program.step, program, hi, hr]

theorem sets_move {a : Act} {k : κ} (hk : t.Sets body k) (h : Move body s t a s' t') :
    s'.flag k = true ∨ t'.Sets body k := by
  cases h with
  | wait hb =>
      obtain ⟨script, hb', -⟩ := hk
      cases hb.symm.trans hb'
  | begin hb =>
      obtain ⟨script, hb', hk⟩ := hk
      cases hb.symm.trans hb'
      exact .inr hk
  | win won lost =>
      rcases hk with rfl | hk
      · exact .inl ((flag_set _ _).2 (.inl rfl))
      · exact .inr hk.1
  | lose won lost hflag =>
      rcases hk with rfl | hk
      · exact .inl hflag
      · exact .inr hk.2
  | step next | notify j next => exact .inr hk
  | make | wake | see | arm | drop => exact hk.elim

theorem coming_step {k : κ} (hk : Coming body k c) (h : (machine body).step c e = some c') :
    Coming body k c' := by
  rcases Program.step_cases h with ⟨i, a, t, s', t', new, -, hi, hm, rfl⟩ | ⟨t, -, -, rfl⟩
  · obtain ⟨hmove, rfl⟩ := move_cases hm
    rcases hk with hk | ⟨u, hu, hk⟩
    · exact .inl ((move_mono hmove).1 k hk)
    · by_cases hut : u = t
      · subst hut
        refine (sets_move hk hmove).imp_right fun hk => ?_
        exact ⟨t', List.mem_append_left _ (Machine.Pool.mem_set_self hi), hk⟩
      · exact .inr ⟨u, List.mem_append_left _ (Machine.Pool.mem_set_of_ne hi hu hut), hk⟩
  · refine hk.imp_right ?_
    rintro ⟨u, hu, hk⟩
    exact ⟨u, List.mem_append_left _ hu, hk⟩

/-- A waiter for a flag that is set can go on, or whoever is to wake it can. -/
theorem waiter_can_go {k : κ} {pc : Waiter κ} (hI : Inv c) (hmem : .waiter pc ∈ c.tasks)
    (hk : k ∈ pc.flags) (hflag : c.shared.flag k = true) :
    ∃ e c', GoesOn e ∧ (machine body).step c e = some c' := by
  obtain ⟨i, hi⟩ := List.mem_iff_getElem?.1 hmem
  cases pc with
  | poll todo armed =>
      cases todo with
      | cons j todo => exact step_go hi rfl
      | nil =>
          obtain ⟨⟨j, seen⟩, ha, rfl⟩ := List.mem_map.1 hk
          by_cases hs : c.shared.calls j = seen
          · obtain ⟨script, hset, hn⟩ := hI.pending j seen _ hmem ha hflag hs
            obtain ⟨m, hm⟩ := List.mem_iff_getElem?.1 hset
            refine step_go hm ?_
            cases script with
            | done => exact hn.elim
            | step | swap | notify => rfl
          · refine step_go hi ?_
            have hfind : (armed.find? fun a => c.shared.calls a.1 ≠ a.2).isSome = true :=
              List.find?_isSome.2 ⟨(j, seen), ha, by simpa using hs⟩
            simpa [move, waiterStep] using hfind
  | look j seen todo armed => exact step_go hi rfl
  | returned j | dropped => cases hk

/-- Until the flag is set and nobody waits for it, a task can go on. -/
theorem can_go {k : κ} (hI : Inv c) (hk : Coming body k c) (h : ¬Ended body k c) :
    ∃ e c', GoesOn e ∧ (machine body).step c e = some c' := by
  by_cases hflag : c.shared.flag k = true
  · simp only [Ended, hflag, true_and, not_forall, not_not] at h
    obtain ⟨t, hmem, hwaits⟩ := h
    cases t with
    | call f =>
        obtain ⟨i, hi⟩ := List.mem_iff_getElem?.1 hmem
        exact step_go hi rfl
    | waiter pc => exact waiter_can_go hI hmem hwaits hflag
    | setter script => cases hwaits
  · obtain ⟨t, hmem, ht⟩ := hk.resolve_left hflag
    obtain ⟨i, hi⟩ := List.mem_iff_getElem?.1 hmem
    refine step_go hi ?_
    cases t with
    | call f => rfl
    | waiter pc => exact ht.elim
    | setter script =>
        cases script with
        | done => exact ht.elim
        | step | swap | notify => rfl

/-- **Every wait for a flag that is or will be set ends**, however the tasks are ordered. -/
theorem waits_end {k : κ} (hsound : Sound body) (h : (machine body).Reachable c)
    (hk : Coming body k c) : (machine body).Leads GoesOn (Ended body k) c :=
  leads_of_measure (I := fun c => Inv c ∧ Coming body k c)
    (fun c => (c.tasks.map (Task.length body)).sum)
    (fun _ _ _ hI he hs =>
      ⟨⟨inv_step hsound hI.1 hs, coming_step hI.2 hs⟩, length_step he hs⟩)
    (fun _ hI hG => can_go hI.1 hI.2 hG) ⟨inv_reachable hsound h, hk⟩

end results

end Machine.Notify
