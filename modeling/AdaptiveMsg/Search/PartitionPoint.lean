import Mathlib.Data.List.Basic

/-!
# Search — the partition point of a list

A list is `Partitioned` by a predicate if the elements that meet it come first.  `partitionPoint`
finds where they end by halving an interval, looking at one element a time.

* `lt_partitionPoint_iff`: an element lies before the partition point iff it meets the predicate.
* `drop_partitionPoint`: from there on the list has the elements that do not, in order.
* `takeWhile_eq_filter`, `dropWhile_eq_filter`: a scan from the front splits the list there too.
-/

namespace Search

variable {α : Type*} {p : α → Bool} {l : List α} {x : α} {fuel lo hi i r : Nat}

/-- The elements that meet `p` come first. -/
def Partitioned (p : α → Bool) (l : List α) : Prop := l.Pairwise fun x y => p y → p x

/-- Halves the interval from `lo` to `hi` until it is empty. -/
def bisect (p : α → Bool) (l : List α) : Nat → Nat → Nat → Nat
  | 0, lo, _ => lo
  | fuel + 1, lo, hi =>
    if lo < hi then
      let mid := lo + (hi - lo) / 2
      if l[mid]?.any p then bisect p l fuel (mid + 1) hi else bisect p l fuel lo mid
    else lo

/-- The number of the elements of a partitioned list that meet `p`. -/
def partitionPoint (p : α → Bool) (l : List α) : Nat := bisect p l l.length 0 l.length

/-- What the search knows: the elements before `lo` meet `p`, those from `hi` on do not. -/
structure Bracket (p : α → Bool) (l : List α) (lo hi : Nat) : Prop where
  le : lo ≤ hi
  le_length : hi ≤ l.length
  below : ∀ i x, l[i]? = some x → i < lo → p x
  above : ∀ i x, l[i]? = some x → hi ≤ i → ¬p x

theorem Partitioned.of_le (hl : Partitioned p l) {i j : Nat} {x y : α} (hij : i ≤ j)
    (hx : l[i]? = some x) (hy : l[j]? = some y) (hp : p y) : p x := by
  obtain rfl | hlt := Nat.eq_or_lt_of_le hij
  · rw [hx] at hy
    exact Option.some.inj hy ▸ hp
  · obtain ⟨hi, rfl⟩ := List.getElem?_eq_some_iff.1 hx
    obtain ⟨hj, rfl⟩ := List.getElem?_eq_some_iff.1 hy
    exact List.pairwise_iff_getElem.1 hl i j hi hj hlt hp

/-- The search ends at a point between the elements that meet `p` and the others. -/
theorem bisect_spec (hl : Partitioned p l) (hb : Bracket p l lo hi) (hfuel : hi - lo ≤ fuel) :
    Bracket p l (bisect p l fuel lo hi) (bisect p l fuel lo hi) := by
  induction fuel generalizing lo hi with
  | zero =>
      obtain rfl : lo = hi := Nat.le_antisymm hb.le (Nat.le_of_sub_eq_zero (Nat.le_zero.1 hfuel))
      exact hb
  | succ fuel ih =>
      rw [bisect]
      split
      · rename_i hlt
        have hle_length := hb.le_length
        have hmid : lo + (hi - lo) / 2 < l.length := by omega
        obtain ⟨y, hy⟩ : ∃ y, l[lo + (hi - lo) / 2]? = some y :=
          ⟨_, List.getElem?_eq_getElem hmid⟩
        simp only [hy, Option.any_some]
        split
        · rename_i hp
          refine ih ⟨by omega, hle_length, fun i x hx hi => ?_, hb.above⟩ (by omega)
          exact hl.of_le (Nat.le_of_lt_succ hi) hx hy hp
        · rename_i hp
          refine ih ⟨by omega, by omega, hb.below, fun i x hx hi hpx => ?_⟩ (by omega)
          exact hp (hl.of_le hi hy hx hpx)
      · obtain rfl : lo = hi := Nat.le_antisymm hb.le (Nat.le_of_not_lt ‹_›)
        exact hb

theorem lt_partitionPoint_iff (hl : Partitioned p l) (hx : l[i]? = some x) :
    i < partitionPoint p l ↔ p x := by
  have hb : Bracket p l 0 l.length := by
    refine ⟨Nat.zero_le _, Nat.le_refl _, fun _ _ _ hi => absurd hi (Nat.not_lt_zero _), fun j y hy hj => ?_⟩
    obtain ⟨hlt, -⟩ := List.getElem?_eq_some_iff.1 hy
    exact absurd hlt (Nat.not_lt.2 hj)
  have hspec := bisect_spec hl hb (Nat.sub_le _ _)
  refine ⟨hspec.below i x hx, fun hp => ?_⟩
  by_contra hle
  exact hspec.above i x hx (Nat.le_of_not_lt hle) hp

theorem drop_eq_filter (h : ∀ i x, l[i]? = some x → (i < r ↔ p x)) :
    l.drop r = l.filter fun x => !p x := by
  induction l generalizing r with
  | nil => simp
  | cons y l ih =>
      have hy := h 0 y rfl
      cases r with
      | zero =>
          have hp (x : α) (hx : x ∈ y :: l) : (!p x) = true := by
            obtain ⟨i, hi⟩ := List.mem_iff_getElem?.1 hx
            simpa using (h i x hi).not.1 (Nat.not_lt_zero i)
          rw [List.drop_zero, List.filter_eq_self.2 hp]
      | succ r =>
          have hp : p y = true := hy.1 (Nat.zero_lt_succ r)
          rw [List.drop_succ_cons, List.filter_cons_of_neg (by simp [hp])]
          refine ih fun i x hx => ?_
          rw [← h (i + 1) x hx, Nat.succ_lt_succ_iff]

/-- **From its partition point on**, a partitioned list has the elements that do not meet `p`. -/
theorem drop_partitionPoint (hl : Partitioned p l) :
    l.drop (partitionPoint p l) = l.filter fun x => !p x :=
  drop_eq_filter fun _ _ hx => lt_partitionPoint_iff hl hx

/-! ### A scan from the front -/

theorem takeWhile_eq_filter (hl : Partitioned p l) : l.takeWhile p = l.filter p := by
  induction l with
  | nil => rfl
  | cons x l ih =>
      obtain ⟨hx, hl⟩ := List.pairwise_cons.1 hl
      by_cases hp : p x
      · rw [List.takeWhile_cons_of_pos hp, List.filter_cons_of_pos hp, ih hl]
      · rw [List.takeWhile_cons_of_neg hp, List.filter_cons_of_neg hp, eq_comm,
          List.filter_eq_nil_iff]
        exact fun y hy hpy => hp (hx y hy hpy)

theorem dropWhile_eq_filter (hl : Partitioned p l) : l.dropWhile p = l.filter fun x => !p x := by
  induction l with
  | nil => rfl
  | cons x l ih =>
      obtain ⟨hx, hl⟩ := List.pairwise_cons.1 hl
      by_cases hp : p x
      · rw [List.dropWhile_cons_of_pos hp, List.filter_cons_of_neg (by simp [hp]), ih hl]
      · rw [List.dropWhile_cons_of_neg hp, List.filter_eq_self.2]
        intro y hy
        rcases List.mem_cons.1 hy with rfl | hy
        · simpa using hp
        · simpa using fun hpy => hp (hx y hy hpy)

end Search
