import Mathlib.Data.List.Basic

/-!
# Machine — numbered sequences without gaps

A receiver that has taken the numbers up to `m` reads a sequence of numbers.  The sequence is
`Gapless m` if every number in it is at most one past the highest before it, so that each is a
duplicate or the next one.  `top m ds` is the highest number after the sequence.
-/

namespace Machine

/-- The highest number once `ds` was read after `m`. -/
def top : Nat → List Nat → Nat
  | m, [] => m
  | m, d :: ds => top (max m d) ds

def Gapless : Nat → List Nat → Prop
  | _, [] => True
  | m, d :: ds => d ≤ m + 1 ∧ Gapless (max m d) ds

variable {m n d : Nat} {ds es : List Nat}

@[simp] theorem top_nil : top m [] = m := rfl

@[simp] theorem top_cons : top m (d :: ds) = top (max m d) ds := rfl

theorem le_top : m ≤ top m ds := by
  induction ds generalizing m with
  | nil => exact Nat.le_refl _
  | cons d ds ih => exact Nat.le_trans (Nat.le_max_left _ _) ih

theorem top_mono (h : m ≤ n) : top m ds ≤ top n ds := by
  induction ds generalizing m n with
  | nil => exact h
  | cons d ds ih => exact ih (by omega)

theorem top_append : top m (ds ++ es) = top (top m ds) es := by
  induction ds generalizing m with
  | nil => rfl
  | cons d ds ih => exact ih

namespace Gapless

@[simp] theorem nil : Gapless m [] := trivial

theorem cons (hd : d ≤ m + 1) (h : Gapless (max m d) ds) : Gapless m (d :: ds) := ⟨hd, h⟩

/-- A receiver that has taken more reads the same sequence without a gap. -/
theorem mono (h : Gapless m ds) (hmn : m ≤ n) : Gapless n ds := by
  induction ds generalizing m n with
  | nil => trivial
  | cons d ds ih =>
      have hd := h.1
      exact ⟨by omega, ih h.2 (by omega)⟩

theorem append : Gapless m (ds ++ es) ↔ Gapless m ds ∧ Gapless (top m ds) es := by
  induction ds generalizing m with
  | nil => simp
  | cons d ds ih => simp only [List.cons_append, Gapless, ih, top_cons, and_assoc]

end Gapless

end Machine
