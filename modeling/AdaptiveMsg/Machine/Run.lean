import Mathlib.Logic.Relation

/-!
# Machine — runs of an event-driven machine

A machine has initial states and, for each event, a partial step.  A run is a sequence of
enabled events.  Interleaving semantics is the special case in which an event names the task
that moves and what its environment answers.

* `ReachableUnder C`: the states of the runs every step of which meets `C`, a condition on the
  event and the state it is taken in.  `Reachable` is `ReachableUnder` with no condition.
* `ReachableUnder.invariant`: what holds initially and is kept by every step meeting `C` holds in
  all of them; `invariant_of` is the same with another invariant already known.
* `exec` runs a list of events, so a concrete run is reached by evaluation.
* `startAt`: the runs from a given state; `ReachableUnder.trans` appends one to a run.
* `observe`: the machine with an observer, which records what it sees and changes nothing.
* `ReachableUnder.map`: a map whose steps are steps or stutters of another machine takes the runs to
  runs of that machine.
-/

/-- The initial states of a machine, and the state each enabled event leads to. -/
structure Machine (σ ε : Type*) where
  init : σ → Prop
  step : σ → ε → Option σ

namespace Machine

variable {σ ε : Type*} {M : Machine σ ε} {C D : σ → ε → Prop} {s s' : σ}

/-! ### Reachability -/

/-- The states of the runs every step of which meets `C`. -/
inductive ReachableUnder (M : Machine σ ε) (C : σ → ε → Prop) : σ → Prop where
  | init {s : σ} (h : M.init s) : ReachableUnder M C s
  | step {s s' : σ} {e : ε} (h : ReachableUnder M C s) (hC : C s e)
      (hs : M.step s e = some s') : ReachableUnder M C s'

/-- The states of all runs. -/
abbrev Reachable (M : Machine σ ε) : σ → Prop := M.ReachableUnder fun _ _ => True

theorem ReachableUnder.mono (hCD : ∀ s e, C s e → D s e) (h : M.ReachableUnder C s) :
    M.ReachableUnder D s := by
  induction h with
  | init h => exact .init h
  | step _ hC hs ih => exact .step ih (hCD _ _ hC) hs

theorem ReachableUnder.reachable (h : M.ReachableUnder C s) : M.Reachable s :=
  h.mono fun _ _ _ => trivial

/-- What holds initially and is kept by every step meeting `C` holds in every state reached. -/
theorem ReachableUnder.invariant {I : σ → Prop} (h₀ : ∀ s, M.init s → I s)
    (h₁ : ∀ s e s', I s → C s e → M.step s e = some s' → I s') (h : M.ReachableUnder C s) :
    I s := by
  induction h with
  | init h => exact h₀ _ h
  | step _ hC hs ih => exact h₁ _ _ _ ih hC hs

/-- `invariant`, using an invariant `J` already known. -/
theorem ReachableUnder.invariant_of {I J : σ → Prop} (hJ : ∀ s, M.ReachableUnder C s → J s)
    (h₀ : ∀ s, M.init s → I s)
    (h₁ : ∀ s e s', J s → I s → C s e → M.step s e = some s' → I s')
    (h : M.ReachableUnder C s) : I s := by
  induction h with
  | init h => exact h₀ _ h
  | step h hC hs ih => exact h₁ _ _ _ (hJ _ h) ih hC hs

/-- The runs from `s`. -/
def startAt (M : Machine σ ε) (s : σ) : Machine σ ε := ⟨(· = s), M.step⟩

theorem ReachableUnder.trans (h : M.ReachableUnder C s) (h' : (M.startAt s).ReachableUnder C s') :
    M.ReachableUnder C s' := by
  induction h' with
  | init he => exact he ▸ h
  | step _ hC hs ih => exact ih.step hC hs

/-! ### Observers -/

section observe

variable {γ : Type*} {record : σ → ε → γ → γ} {g₀ : γ}

/-- The machine with an observer, whose record is `g₀` at first. -/
def observe (M : Machine σ ε) (record : σ → ε → γ → γ) (g₀ : γ) : Machine (σ × γ) ε where
  init w := M.init w.1 ∧ w.2 = g₀
  step w e := (M.step w.1 e).map fun s => (s, record w.1 e w.2)

theorem step_observe {w w' : σ × γ} {e : ε} (h : (M.observe record g₀).step w e = some w') :
    M.step w.1 e = some w'.1 ∧ w'.2 = record w.1 e w.2 := by
  obtain ⟨s, hs, he⟩ := Option.map_eq_some_iff.mp h
  exact ⟨he ▸ hs, he ▸ rfl⟩

/-- What is observed is a run. -/
theorem ReachableUnder.of_observe {C : σ × γ → ε → Prop} {w : σ × γ}
    (h : (M.observe record g₀).ReachableUnder C w) : M.Reachable w.1 := by
  induction h with
  | init h => exact .init h.1
  | step _ _ hs ih => exact ih.step trivial (step_observe hs).1

end observe

/-! ### Executing a list of events -/

/-- The state after the events of a list, if each is enabled in turn. -/
def exec (M : Machine σ ε) : σ → List ε → Option σ
  | s, [] => some s
  | s, e :: es => (M.step s e).bind fun s' => M.exec s' es

/-- Every step of the run of a list of events meets `C`. -/
def ExecMeets (M : Machine σ ε) (C : σ → ε → Prop) : σ → List ε → Prop
  | _, [] => True
  | s, e :: es => C s e ∧ ∀ s' ∈ M.step s e, M.ExecMeets C s' es

instance ExecMeets.decidable [∀ s e, Decidable (C s e)] :
    ∀ (s : σ) (es : List ε), Decidable (M.ExecMeets C s es)
  | _, [] => isTrue trivial
  | s, e :: es =>
    match h : M.step s e with
    | none => decidable_of_iff (C s e) (by simp [ExecMeets, h])
    | some s' =>
      have := ExecMeets.decidable s' es
      decidable_of_iff (C s e ∧ M.ExecMeets C s' es) (by simp [ExecMeets, h])

theorem ReachableUnder.exec (es : List ε) (h : M.ReachableUnder C s)
    (hs : M.exec s es = some s') (hC : M.ExecMeets C s es) : M.ReachableUnder C s' := by
  induction es generalizing s with
  | nil => cases hs; exact h
  | cons e es ih =>
      simp only [Machine.exec, Option.bind_eq_some_iff] at hs
      obtain ⟨s₁, h₁, hs⟩ := hs
      exact ih (h.step hC.1 h₁) hs (hC.2 s₁ h₁)

/-- `exec`, for the runs from `s`. -/
theorem ReachableUnder.exec_startAt (es : List ε) (hs : M.exec s es = some s')
    (hC : M.ExecMeets C s es) : (M.startAt s).ReachableUnder C s' := by
  suffices ∀ t, (M.startAt s).ReachableUnder C t → M.exec t es = some s' → M.ExecMeets C t es →
      (M.startAt s).ReachableUnder C s' from this s (.init rfl) hs hC
  clear hs hC
  induction es with
  | nil =>
      intro t ht hs _
      cases hs
      exact ht
  | cons e es ih =>
      intro t ht hs hC
      simp only [Machine.exec, Option.bind_eq_some_iff] at hs
      obtain ⟨t', h₁, hs⟩ := hs
      exact ih t' (ht.step hC.1 h₁) hs (hC.2 t' h₁)

/-- A condition that each event of the list meets in any state. -/
theorem execMeets_of_forall (s : σ) (es : List ε) (h : ∀ e ∈ es, ∀ s, C s e) :
    M.ExecMeets C s es := by
  induction es generalizing s with
  | nil => trivial
  | cons e es ih =>
      exact ⟨h e (List.mem_cons_self ..) s, fun s' _ =>
        ih s' fun e he => h e (List.mem_cons_of_mem _ he)⟩

theorem execMeets_true (s : σ) (es : List ε) : M.ExecMeets (fun _ _ => True) s es :=
  execMeets_of_forall s es fun _ _ _ => trivial

theorem reachable_of_exec (es : List ε) (h₀ : M.init s) (hs : M.exec s es = some s') :
    M.Reachable s' :=
  ReachableUnder.exec es (.init h₀) hs (execMeets_true s es)

/-! ### Simulation -/

/-- A map `f` under which every step is a step of `N` or a stutter takes the runs to runs of `N`. -/
theorem ReachableUnder.map {τ δ : Type*} {N : Machine τ δ} {D : τ → δ → Prop} (f : σ → τ)
    (h₀ : ∀ s, M.init s → N.init (f s))
    (h₁ : ∀ s e s', C s e → M.step s e = some s' →
      f s' = f s ∨ ∃ d, D (f s) d ∧ N.step (f s) d = some (f s'))
    (h : M.ReachableUnder C s) : N.ReachableUnder D (f s) := by
  induction h with
  | init h => exact .init (h₀ _ h)
  | step _ hC hs ih =>
      rcases h₁ _ _ _ hC hs with he | ⟨d, hD, hd⟩
      · exact he ▸ ih
      · exact ih.step hD hd

end Machine
