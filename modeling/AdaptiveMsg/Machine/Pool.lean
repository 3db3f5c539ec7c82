import AdaptiveMsg.Machine.Run
import Mathlib.Algebra.GroupWithZero.Nat
import Mathlib.Data.List.Basic

/-!
# Machine — pools of tasks

Concurrent tasks over a shared state.  A pool is the shared state and a list of tasks, each in its
own control state; a task keeps its index for life.  A `Program` says what one atomic operation
of a task does: it changes the shared state, moves the task to its next control state and may
start further tasks, which join at the end of the list.  The environment may start tasks as well.

* `Program.step_cases`: what a step of the pool is.
* `Program.step_forall`: an assertion of every task is kept if the task that moves and the ones it
  starts establish it, and no operation invalidates the assertion of another task.
* `Program.step_exists`: a task in some control state is still there after a step, unless it is
  the one that moved.
* `Program.step_sum`: what the tasks and the shared state hold together is conserved.
* `Held p tasks flag`: a lock that the tasks at the control states `p` hold, with `flag` set while
  it is taken.
-/

namespace Machine.Pool

variable {σ τ α : Type*}

/-- The shared state and the tasks. -/
structure State (σ τ : Type*) where
  shared : σ
  tasks : List τ
  deriving DecidableEq

/-- `move s n i t a`: what the operation `a` does of task `i`, at `t`, when the shared state is `s`
and there are `n` tasks: the new shared state, the task's next control state and the tasks it
starts.  `start s t`: whether the environment may start a task at `t`. -/
structure Program (σ τ α : Type*) where
  move : σ → Nat → Nat → τ → α → Option (σ × τ × List τ)
  start : σ → τ → Bool

inductive Event (τ α : Type*) where
  | task (i : Nat) (a : α)
  | start (t : τ)
  deriving DecidableEq, Repr

/-- The task that an event moves, before it. -/
def State.moving (c : State σ τ) : Event τ α → Option τ
  | .task i _ => c.tasks[i]?
  | .start _ => none

namespace Program

variable {P : Program σ τ α}

def step (P : Program σ τ α) (c : State σ τ) : Event τ α → Option (State σ τ)
  | .task i a =>
    (c.tasks[i]?).bind fun t =>
      (P.move c.shared c.tasks.length i t a).bind fun r => some ⟨r.1, c.tasks.set i r.2.1 ++ r.2.2⟩
  | .start t => if P.start c.shared t then some ⟨c.shared, c.tasks ++ [t]⟩ else none

end Program

/-! ### Membership after a step -/

variable {tasks new : List τ} {i j : Nat} {a b t u : τ}

/-- A pool split at task `i`, before and after its step. -/
theorem split_set (h : tasks[i]? = some a) (b : τ) :
    ∃ l₁ l₂, tasks = l₁ ++ a :: l₂ ∧ tasks.set i b = l₁ ++ b :: l₂ ∧ l₁.length = i := by
  obtain ⟨hlt, rfl⟩ := List.getElem?_eq_some_iff.mp h
  refine ⟨tasks.take i, tasks.drop (i + 1), ?_, ?_, ?_⟩
  · rw [← List.drop_eq_getElem_cons hlt, List.take_append_drop]
  · rw [List.set_eq_take_append_cons_drop, if_pos hlt]
  · rw [List.length_take, Nat.min_eq_left (Nat.le_of_lt hlt)]

/-- The task that moves is in the pool, at its next control state. -/
theorem mem_set_self (h : tasks[i]? = some a) : b ∈ tasks.set i b := by
  obtain ⟨l₁, l₂, -, hs, -⟩ := split_set h b
  rw [hs]
  simp

/-- A task at another control state than the one that moves is still in the pool. -/
theorem mem_set_of_ne (h : tasks[i]? = some a) (hu : u ∈ tasks) (hne : u ≠ a) :
    u ∈ tasks.set i b := by
  obtain ⟨l₁, l₂, he, hs, -⟩ := split_set h b
  rw [he] at hu
  rw [hs]
  simp only [List.mem_append, List.mem_cons] at hu ⊢
  rcases hu with hu | rfl | hu
  · exact .inl hu
  · exact absurd rfl hne
  · exact .inr (.inr hu)

theorem mem_of_mem_set_append (h : u ∈ tasks.set i b ++ new) : u = b ∨ u ∈ tasks ∨ u ∈ new := by
  rcases List.mem_append.mp h with h | h
  · rcases List.mem_or_eq_of_mem_set h with h | h
    · exact .inr (.inl h)
    · exact .inl h
  · exact .inr (.inr h)

/-- Another task is where it was. -/
theorem getElem?_set_append (hj : tasks[j]? = some u) (hne : i ≠ j) :
    (tasks.set i b ++ new)[j]? = some u := by
  obtain ⟨hlt, -⟩ := List.getElem?_eq_some_iff.mp hj
  rw [List.getElem?_append_left (by simpa using hlt), List.getElem?_set_ne hne, hj]

theorem getElem?_set_append_self (h : tasks[i]? = some a) :
    (tasks.set i b ++ new)[i]? = some b := by
  obtain ⟨hlt, -⟩ := List.getElem?_eq_some_iff.mp h
  rw [List.getElem?_append_left (by simpa using hlt), List.getElem?_set_self hlt]

/-- A task after a step is the one that moved, another task, or new. -/
theorem of_getElem?_set_append (h : (tasks.set i b ++ new)[j]? = some u) :
    (i = j ∧ u = b) ∨ (i ≠ j ∧ tasks[j]? = some u) ∨
      (tasks.length ≤ j ∧ new[j - tasks.length]? = some u) := by
  by_cases hj : j < tasks.length
  · rw [List.getElem?_append_left (by simpa using hj)] at h
    by_cases hij : i = j
    · subst hij
      rw [List.getElem?_set_self hj] at h
      exact .inl ⟨rfl, (Option.some.inj h).symm⟩
    · rw [List.getElem?_set_ne hij] at h
      exact .inr (.inl ⟨hij, h⟩)
  · rw [List.getElem?_append_right (by simpa using hj), List.length_set] at h
    exact .inr (.inr ⟨Nat.le_of_not_lt hj, h⟩)

theorem countP_set_add (p : τ → Bool) (b : τ) (h : tasks[i]? = some a) :
    (tasks.set i b).countP p + (p a).toNat = tasks.countP p + (p b).toNat := by
  obtain ⟨l₁, l₂, he, hs, -⟩ := split_set h b
  rw [hs, he]
  simp only [List.countP_append, List.countP_cons]
  cases p a <;> cases p b <;> simp <;> omega

/-- A task that stays in or out of a class leaves the class as large as it is. -/
theorem countP_set_of_eq {p : τ → Bool} (h : tasks[i]? = some a) (hab : p a = p b) :
    (tasks.set i b).countP p = tasks.countP p := by
  have hc := countP_set_add p b h
  rw [hab] at hc
  exact Nat.add_right_cancel hc

/-- One task at most is in the class. -/
theorem eq_of_countP_le_one {p : τ → Bool} (h : tasks.countP p ≤ 1) (hi : tasks[i]? = some a)
    (ha : p a = true) (hj : tasks[j]? = some b) (hb : p b = true) : i = j := by
  by_contra hne
  obtain ⟨l₁, l₂, he, -, hl⟩ := split_set hi a
  have hmem : b ∈ l₁ ++ l₂ := by
    rw [he] at hj
    rcases Nat.lt_or_ge j l₁.length with hlt | hge
    · rw [List.getElem?_append_left hlt] at hj
      exact List.mem_append_left _ (List.mem_of_getElem? hj)
    · obtain ⟨k, rfl⟩ : ∃ k, j = l₁.length + (k + 1) := ⟨j - l₁.length - 1, by omega⟩
      rw [List.getElem?_append_right (Nat.le_add_right _ _), Nat.add_sub_cancel_left,
        List.getElem?_cons_succ] at hj
      exact List.mem_append_right _ (List.mem_of_getElem? hj)
  have hpos : 0 < (l₁ ++ l₂).countP p := List.countP_pos_iff.mpr ⟨b, hmem, hb⟩
  rw [he] at h
  simp only [List.countP_append, List.countP_cons, ha, if_true] at h hpos
  omega

theorem sum_set_append (f : τ → Nat) (b : τ) (new : List τ) (h : tasks[i]? = some a) :
    ((tasks.set i b ++ new).map f).sum + f a = (tasks.map f).sum + f b + (new.map f).sum := by
  obtain ⟨l₁, l₂, he, hs, -⟩ := split_set h b
  rw [hs, he]
  simp only [List.map_append, List.map_cons, List.sum_append, List.sum_cons]
  omega

/-! ### Steps of a pool -/

namespace Program

variable {P : Program σ τ α} {c c' : State σ τ} {e : Event τ α}

/-- A step is an operation of one task, or the environment starts a task. -/
theorem step_cases (h : P.step c e = some c') :
    (∃ i x t s' t' new, e = .task i x ∧ c.tasks[i]? = some t ∧
      P.move c.shared c.tasks.length i t x = some (s', t', new) ∧
      c' = ⟨s', c.tasks.set i t' ++ new⟩) ∨
    ∃ t, e = .start t ∧ P.start c.shared t = true ∧ c' = ⟨c.shared, c.tasks ++ [t]⟩ := by
  cases e with
  | task i x =>
      simp only [step, Option.bind_eq_some_iff] at h
      obtain ⟨t, ht, ⟨s', t', new⟩, hm, h⟩ := h
      exact .inl ⟨i, x, t, s', t', new, rfl, ht, hm, (Option.some.inj h).symm⟩
  | start t =>
      simp only [step] at h
      split at h
      · exact .inr ⟨t, rfl, ‹_›, (Option.some.inj h).symm⟩
      · cases h

/-- **Interference freedom.**  An assertion `A` of every task is kept by a step if the moving task
and the tasks it starts establish it, the environment starts tasks that meet it, and the moving
task invalidates it for no other. -/
theorem step_forall {A : σ → τ → Prop} (h : P.step c e = some c')
    (hA : ∀ u ∈ c.tasks, A c.shared u)
    (hmove : ∀ i x t s' t' new, e = .task i x → c.tasks[i]? = some t →
      P.move c.shared c.tasks.length i t x = some (s', t', new) →
      A s' t' ∧ (∀ u ∈ new, A s' u) ∧ ∀ u ∈ c.tasks, A c.shared u → A s' u)
    (hstart : ∀ t, e = .start t → P.start c.shared t = true → A c.shared t) :
    ∀ u ∈ c'.tasks, A c'.shared u := by
  rcases step_cases h with ⟨i, x, t, s', t', new, he, ht, hm, rfl⟩ | ⟨t, he, ht, rfl⟩
  · obtain ⟨h₁, h₂, h₃⟩ := hmove i x t s' t' new he ht hm
    intro u hu
    rcases mem_of_mem_set_append hu with rfl | hu | hu
    · exact h₁
    · exact h₃ u hu (hA u hu)
    · exact h₂ u hu
  · intro u hu
    rcases List.mem_append.mp hu with hu | hu
    · exact hA u hu
    · rw [List.mem_singleton.mp hu]
      exact hstart t he ht

/-- A task is still in the pool after a step, unless it is the one that moved. -/
theorem step_exists (h : P.step c e = some c') (hu : u ∈ c.tasks) :
    u ∈ c'.tasks ∨ ∃ i x s' t' new, e = .task i x ∧ c.tasks[i]? = some u ∧
      P.move c.shared c.tasks.length i u x = some (s', t', new) ∧
      c' = ⟨s', c.tasks.set i t' ++ new⟩ := by
  rcases step_cases h with ⟨i, x, t, s', t', new, he, ht, hm, rfl⟩ | ⟨t, -, -, rfl⟩
  · by_cases hut : u = t
    · subst hut
      exact .inr ⟨i, x, s', t', new, he, ht, hm, rfl⟩
    · exact .inl (List.mem_append_left _ (mem_set_of_ne ht hu hut))
  · exact .inl (List.mem_append_left _ hu)

/-- `step_exists`, for the task with a given index. -/
theorem step_at (h : P.step c e = some c') (hj : c.tasks[j]? = some u) :
    c'.tasks[j]? = some u ∨ ∃ x s' t' new, e = .task j x ∧
      P.move c.shared c.tasks.length j u x = some (s', t', new) ∧
      c' = ⟨s', c.tasks.set j t' ++ new⟩ := by
  rcases step_cases h with ⟨i, x, t, s', t', new, rfl, ht, hm, rfl⟩ | ⟨t, -, -, rfl⟩
  · by_cases hij : i = j
    · subst hij
      obtain rfl : t = u := Option.some.inj (ht.symm.trans hj)
      exact .inr ⟨x, s', t', new, rfl, hm, rfl⟩
    · exact .inl (getElem?_set_append hj hij)
  · obtain ⟨hlt, -⟩ := List.getElem?_eq_some_iff.mp hj
    exact .inl ((List.getElem?_append_left hlt).trans hj)

theorem step_length (h : P.step c e = some c') : c.tasks.length ≤ c'.tasks.length := by
  rcases step_cases h with ⟨i, x, t, s', t', new, -, -, -, rfl⟩ | ⟨t, -, -, rfl⟩
  · simp
  · simp

/-- **Conservation.**  What the tasks hold by `f` and the shared state by `g` makes up `h` of the
shared state, if every operation keeps the balance and the environment starts tasks that hold
nothing. -/
theorem step_sum {g k : σ → Nat} {f : τ → Nat} (h : P.step c e = some c')
    (hI : g c.shared + (c.tasks.map f).sum = k c.shared)
    (hmove : ∀ i x t s' t' new, c.tasks[i]? = some t →
      P.move c.shared c.tasks.length i t x = some (s', t', new) →
      g s' + f t' + (new.map f).sum + k c.shared = g c.shared + f t + k s')
    (hstart : ∀ t, P.start c.shared t = true → f t = 0) :
    g c'.shared + (c'.tasks.map f).sum = k c'.shared := by
  rcases step_cases h with ⟨i, x, t, s', t', new, -, ht, hm, rfl⟩ | ⟨t, -, ht, rfl⟩
  · have hs := sum_set_append f t' new ht
    have hb := hmove i x t s' t' new ht hm
    simp only at hb ⊢
    omega
  · simpa [hstart t ht] using hI

/-- `step_sum`, for what is never more than `k`. -/
theorem step_sum_le {g k : σ → Nat} {f : τ → Nat} (h : P.step c e = some c')
    (hI : g c.shared + (c.tasks.map f).sum ≤ k c.shared)
    (hmove : ∀ i x t s' t' new, c.tasks[i]? = some t →
      P.move c.shared c.tasks.length i t x = some (s', t', new) →
      g s' + f t' + (new.map f).sum + k c.shared ≤ g c.shared + f t + k s')
    (hstart : ∀ t, P.start c.shared t = true → f t = 0) :
    g c'.shared + (c'.tasks.map f).sum ≤ k c'.shared := by
  rcases step_cases h with ⟨i, x, t, s', t', new, -, ht, hm, rfl⟩ | ⟨t, -, ht, rfl⟩
  · have hs := sum_set_append f t' new ht
    have hb := hmove i x t s' t' new ht hm
    simp only at hb ⊢
    omega
  · simpa [hstart t ht] using hI

end Program

/-! ### A lock held by one task -/

/-- Exactly one task is at a control state that holds the lock if `flag` is set, none if not. -/
def Held (p : τ → Bool) (tasks : List τ) (flag : Bool) : Prop := tasks.countP p = flag.toNat

namespace Held

variable {p : τ → Bool} {flag : Bool}

/-- A step that neither takes nor releases the lock. -/
theorem set (hH : Held p tasks flag) (h : tasks[i]? = some a) (hab : p a = p b) :
    Held p (tasks.set i b) flag := by
  exact (countP_set_of_eq h hab).trans hH

theorem acquire (hH : Held p tasks false) (h : tasks[i]? = some a) (ha : p a = false)
    (hb : p b = true) : Held p (tasks.set i b) true := by
  have hc := countP_set_add p b h
  simp only [Held, ha, hb, Bool.toNat_true, Bool.toNat_false] at *
  omega

theorem flag_of_mem (hH : Held p tasks flag) (ha : a ∈ tasks) (hp : p a = true) : flag = true := by
  have hpos : 0 < tasks.countP p := List.countP_pos_iff.mpr ⟨a, ha, hp⟩
  cases flag
  · simp only [Held, Bool.toNat_false] at hH; omega
  · rfl

theorem release (hH : Held p tasks flag) (h : tasks[i]? = some a) (ha : p a = true)
    (hb : p b = false) : Held p (tasks.set i b) false := by
  have hf := hH.flag_of_mem (List.mem_of_getElem? h) ha
  have hc := countP_set_add p b h
  simp only [Held, ha, hb, hf, Bool.toNat_true, Bool.toNat_false] at *
  omega

/-- New tasks that do not hold the lock. -/
theorem append (hH : Held p tasks flag) (hb : ∀ b ∈ new, p b = false) :
    Held p (tasks ++ new) flag := by
  have h0 : new.countP p = 0 := by
    rw [List.countP_eq_zero]
    exact fun b hb' => by simp [hb b hb']
  simpa only [Held, List.countP_append, h0, Nat.add_zero] using hH

/-- A new task that starts with the lock, which was free. -/
theorem spawn (hH : Held p tasks false) (hb : p b = true) : Held p (tasks ++ [b]) true := by
  simp only [Held, List.countP_append, List.countP_singleton, hb, if_true, Bool.toNat_true,
    Bool.toNat_false] at *
  omega

/-- While the lock is taken, some task holds it. -/
theorem holder (hH : Held p tasks true) : ∃ t ∈ tasks, p t = true := by
  refine List.countP_pos_iff.mp ?_
  simp only [Held, Bool.toNat_true] at hH
  omega

/-- No two tasks hold the lock: one that holds it is the task that moves. -/
theorem unique (hH : Held p tasks flag) (hi : tasks[i]? = some a) (ha : p a = true) (hu : u ∈ tasks)
    (hp : p u = true) : u = a := by
  by_contra hne
  obtain ⟨l₁, l₂, he, -, -⟩ := split_set hi a
  have hu' : u ∈ l₁ ++ l₂ := by
    rw [he] at hu
    simp only [List.mem_append, List.mem_cons] at hu ⊢
    rcases hu with hu | hu | hu
    · exact .inl hu
    · exact absurd hu hne
    · exact .inr hu
  have hpos : 0 < (l₁ ++ l₂).countP p := List.countP_pos_iff.mpr ⟨u, hu', hp⟩
  have hle : flag.toNat ≤ 1 := Bool.toNat_le flag
  simp only [Held, he, List.countP_append, List.countP_cons, ha, if_true] at hH hpos
  omega

end Held

end Machine.Pool
