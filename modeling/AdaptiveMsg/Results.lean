import Mathlib.Data.List.Forall2

/-!
# Results

What a computation that may fail did, when it has not failed.
-/

namespace AdaptiveMsg

variable {ε α γ : Type}

theorem bind_eq_ok {x : Except ε α} {f : α → Except ε γ} {c : γ} :
    (x >>= f) = .ok c ↔ ∃ a, x = .ok a ∧ f a = .ok c := by
  cases x with
  | error err =>
      refine ⟨fun h => ?_, fun ⟨_, h, _⟩ => ?_⟩
      · cases h
      · cases h
  | ok a =>
      refine ⟨fun h => ⟨a, rfl, h⟩, fun ⟨_, h, hf⟩ => ?_⟩
      cases h
      exact hf

theorem map_eq_ok {x : Except ε α} {f : α → γ} {c : γ} :
    x.map f = .ok c ↔ ∃ a, x = .ok a ∧ f a = c := by
  cases x with
  | error err => simp [Except.map]
  | ok a => simp [Except.map]

/-- The result with what it is the result of. -/
def attach : (x : Except ε α) → Except ε {a : α // x = .ok a}
  | .error err => .error err
  | .ok a => .ok ⟨a, rfl⟩

theorem attach_bind {x : Except ε α} {a : α} (h : x = .ok a)
    (f : {a : α // x = .ok a} → Except ε γ) : (attach x >>= f) = f ⟨a, h⟩ := by
  subst h
  rfl

/-- A loop that ended has a result for each element. -/
theorem forall₂_of_mapM {f : α → Except ε γ} {l : List α} {l' : List γ} (h : l.mapM f = .ok l') :
    List.Forall₂ (fun a c => f a = .ok c) l l' := by
  induction l generalizing l' with
  | nil =>
      cases h
      exact .nil
  | cons a l ih =>
      rw [List.mapM_cons] at h
      obtain ⟨c, hc, h⟩ := bind_eq_ok.mp h
      obtain ⟨l', hl, h⟩ := bind_eq_ok.mp h
      cases h
      exact .cons hc (ih hl)

theorem length_of_mapM {f : α → Except ε γ} {l : List α} {l' : List γ} (h : l.mapM f = .ok l') :
    l'.length = l.length :=
  (forall₂_of_mapM h).length_eq.symm

end AdaptiveMsg
