import AdaptiveMsg.Machine.Pool

/-!
# Machine — monitors

A lock that guards a part of the shared state of a pool: while it is free, that part meets the
monitor's invariant `I`, and the task that holds it has its own assertion `A` in the place of `I`.

* `LockStep`: what an operation may do with the lock.
* `Monitor.step`: a pool whose operations are `LockStep`s keeps the monitor.
-/

namespace Machine.Pool

variable {σ τ α : Type*}

/-- The lock `locked`, which the tasks at `p` hold, and what it guards. -/
structure Monitor (p : τ → Bool) (locked : σ → Bool) (I : σ → Prop) (A : σ → τ → Prop)
    (c : State σ τ) : Prop where
  held : Held p c.tasks (locked c.shared)
  free : locked c.shared = false → I c.shared
  holder : ∀ u ∈ c.tasks, p u = true → A c.shared u

/-- An operation outside the lock, which disturbs nothing that the lock guards; one that takes the
lock, is made while holding it, or gives it back; or one that takes it and gives it back at once. -/
inductive LockStep (p : τ → Bool) (locked : σ → Bool) (I : σ → Prop) (A : σ → τ → Prop)
    (s : σ) (t : τ) (s' : σ) (t' : τ) : Prop where
  | outside (ht : p t = false) (ht' : p t' = false) (hl : locked s' = locked s)
      (hI : I s → I s') (hA : ∀ u, p u = true → A s u → A s' u)
  | acquire (ht : p t = false) (ht' : p t' = true) (hl : locked s = false)
      (hl' : locked s' = true) (hA : I s → A s' t')
  | inside (ht : p t = true) (ht' : p t' = true) (hl : locked s' = locked s)
      (hA : A s t → A s' t')
  | release (ht : p t = true) (ht' : p t' = false) (hl : locked s' = false) (hI : A s t → I s')
  | atomic (ht : p t = false) (ht' : p t' = false) (hl : locked s = false)
      (hl' : locked s' = false) (hI : I s → I s')

namespace Monitor

variable {p : τ → Bool} {locked : σ → Bool} {I : σ → Prop} {A : σ → τ → Prop}
variable {P : Program σ τ α} {c c' : State σ τ} {e : Event τ α} {s : σ}

theorem init (h : locked s = false) (hI : I s) : Monitor p locked I A ⟨s, []⟩ where
  held := by simp [Held, h]
  free _ := hI
  holder := by simp

/-- **The rule of the monitor.** -/
theorem step (hM : Monitor p locked I A c) (h : P.step c e = some c')
    (hmove : ∀ i x t s' t' new, e = .task i x → c.tasks[i]? = some t →
      P.move c.shared c.tasks.length i t x = some (s', t', new) →
      LockStep p locked I A c.shared t s' t' ∧ ∀ u ∈ new, p u = false)
    (hstart : ∀ t, P.start c.shared t = true → p t = false) : Monitor p locked I A c' := by
  rcases Program.step_cases h with ⟨i, x, t, s', t', new, he, ht, hm, rfl⟩ | ⟨t, -, ht, rfl⟩
  · obtain ⟨hlock, hnew⟩ := hmove i x t s' t' new he ht hm
    have hmem := List.mem_of_getElem? ht
    -- a holder after the step is the task that moved, or held the lock before
    have hcases : ∀ u ∈ c.tasks.set i t' ++ new, p u = true → u = t' ∨ u ∈ c.tasks := by
      intro u hu hpu
      rcases mem_of_mem_set_append hu with hu | hu | hu
      · exact .inl hu
      · exact .inr hu
      · rw [hnew u hu] at hpu
        cases hpu
    cases hlock with
    | outside hpt hpt' hl hI hA =>
        refine ⟨?_, fun hfree => hI (hM.free (hl.symm.trans hfree)), fun u hu hpu => ?_⟩
        · have hset := hM.held.set (b := t') ht (hpt.trans hpt'.symm)
          exact (hl ▸ hset).append hnew
        · rcases hcases u hu hpu with rfl | hu
          · rw [hpt'] at hpu
            cases hpu
          · exact hA u hpu (hM.holder u hu hpu)
    | acquire hpt hpt' hl hl' hA =>
        have hheld : Held p c.tasks false := hl ▸ hM.held
        have hset := (hheld.acquire ht hpt hpt').append hnew
        refine ⟨hl'.symm ▸ hset, fun hfree => absurd (hl'.symm.trans hfree) (by simp), ?_⟩
        intro u hu hpu
        rcases hcases u hu hpu with rfl | hu
        · exact hA (hM.free hl)
        · exact absurd (hheld.flag_of_mem hu hpu) (by simp)
    | inside hpt hpt' hl hA =>
        have hset := hM.held.set (b := t') ht (hpt.trans hpt'.symm)
        have hflag := hM.held.flag_of_mem hmem hpt
        refine ⟨(hl ▸ hset).append hnew,
          fun hfree => absurd ((hl.trans hflag).symm.trans hfree) (by simp), ?_⟩
        intro u hu hpu
        -- no second task holds the lock after the step either
        obtain rfl := ((hl ▸ hset).append hnew).unique (getElem?_set_append_self ht) hpt' hu hpu
        exact hA (hM.holder t hmem hpt)
    | release hpt hpt' hl hI =>
        have hset := (hM.held.release ht hpt hpt').append hnew
        refine ⟨hl.symm ▸ hset, fun _ => hI (hM.holder t hmem hpt), fun u hu hpu => ?_⟩
        exact absurd (hset.flag_of_mem hu hpu) (by simp)
    | atomic hpt hpt' hl hl' hI =>
        have hset := (hM.held.set (b := t') ht (hpt.trans hpt'.symm)).append hnew
        refine ⟨hl'.symm ▸ hl ▸ hset, fun _ => hI (hM.free hl), fun u hu hpu => ?_⟩
        exact absurd ((hl ▸ hset).flag_of_mem hu hpu) (by simp)
  · have hpt := hstart t ht
    have hnew : ∀ u ∈ [t], p u = false := by simpa using hpt
    refine ⟨hM.held.append hnew, hM.free, fun u hu hpu => ?_⟩
    rcases List.mem_append.mp hu with hu | hu
    · exact hM.holder u hu hpu
    · rw [List.mem_singleton.mp hu, hpt] at hpu
      cases hpu

end Monitor

end Machine.Pool
