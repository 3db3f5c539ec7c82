import Mathlib.Data.List.Basic

/-!
# Bytes — a stream read in pieces

A reader hands out a stream in the pieces in which it arrives: a read gets at least one byte and no
more than it asks for, unless the stream has ended.  `readFull` asks for the rest until it has all,
which gives the first bytes of the stream whatever the pieces: `readFull_eq_some`,
`readFull_eq_none`.
-/

namespace Bytes

/-- What is still to be read: the pieces in which it arrives. -/
abbrev Reader (α : Type*) := List {piece : List α // piece ≠ []}

namespace Reader

variable {α : Type*} {r r' : Reader α} {k : Nat} {got : List α}

/-- The stream, whatever its pieces. -/
def contents (r : Reader α) : List α := (r.map Subtype.val).flatten

theorem contents_cons (piece : {piece : List α // piece ≠ []}) (r : Reader α) :
    contents (piece :: r) = piece.val ++ contents r := rfl

theorem contents_eq_nil : r.contents = [] ↔ r = [] := by
  cases r with
  | nil => exact ⟨fun _ => rfl, fun _ => rfl⟩
  | cons piece r =>
      rw [contents_cons, List.append_eq_nil_iff]
      exact ⟨fun h => absurd h.1 piece.property, nofun⟩

/-- What a read of up to `k` bytes gets: nothing at the end of the stream. -/
def read (r : Reader α) (k : Nat) : List α × Reader α :=
  match r with
  | [] => ([], [])
  | piece :: rest =>
    (piece.val.take k, if h : piece.val.drop k = [] then rest else ⟨piece.val.drop k, h⟩ :: rest)

theorem contents_read (r : Reader α) (k : Nat) :
    (r.read k).1 ++ (r.read k).2.contents = r.contents := by
  cases r with
  | nil => rfl
  | cons piece rest =>
      simp only [read, contents_cons]
      split
      · rename_i h
        rw [List.take_of_length_le (List.drop_eq_nil_iff.1 h)]
      · rw [contents_cons, ← List.append_assoc, List.take_append_drop]

theorem length_read_le (r : Reader α) (k : Nat) : (r.read k).1.length ≤ k := by
  cases r with
  | nil => exact Nat.zero_le k
  | cons piece rest => exact List.length_take_le k _

/-- A read gets nothing only at the end. -/
theorem read_eq_nil (hk : k ≠ 0) : (r.read k).1 = [] ↔ r.contents = [] := by
  cases r with
  | nil => exact ⟨fun _ => rfl, fun _ => rfl⟩
  | cons piece rest =>
      simp only [read, contents_cons, List.take_eq_nil_iff, List.append_eq_nil_iff]
      exact ⟨fun h => absurd (h.resolve_left hk) piece.property, fun h => .inr h.1⟩

/-- Reads until it has `k` bytes, or none if the stream ends before. -/
def readFull (r : Reader α) (k : Nat) : Option (List α × Reader α) :=
  if k = 0 then some ([], r)
  else if (r.read k).1.length = 0 then none
  else ((r.read k).2.readFull (k - (r.read k).1.length)).map fun rest =>
    ((r.read k).1 ++ rest.1, rest.2)
  termination_by k
  decreasing_by exact Nat.sub_lt (Nat.pos_of_ne_zero ‹_›) (Nat.pos_of_ne_zero ‹_›)

/-- A first read and then the rest. -/
theorem readFull_eq_read (hk : k ≠ 0) (hne : r.contents ≠ []) :
    r.readFull k = ((r.read k).2.readFull (k - (r.read k).1.length)).map fun rest =>
      ((r.read k).1 ++ rest.1, rest.2) := by
  have hgot : (r.read k).1.length ≠ 0 := by rwa [Ne, List.length_eq_zero_iff, read_eq_nil hk]
  rw [readFull, if_neg hk, if_neg hgot]

/-- All the bytes there are, and the stream goes on after them. -/
theorem readFull_eq_some (hle : k ≤ r.contents.length) :
    ∃ r', r.readFull k = some (r.contents.take k, r') ∧ r'.contents = r.contents.drop k := by
  induction k using Nat.strongRecOn generalizing r with
  | _ k ih =>
      by_cases hk : k = 0
      · subst hk
        exact ⟨r, by rw [readFull, if_pos rfl, List.take_zero], List.drop_zero.symm⟩
      have hsplit := contents_read r k
      have hne : r.contents ≠ [] := by
        rintro hnil
        rw [hnil] at hle
        exact hk (Nat.le_zero.1 hle)
      have hgot : (r.read k).1.length ≠ 0 := by rwa [Ne, List.length_eq_zero_iff, read_eq_nil hk]
      have hlt : k - (r.read k).1.length < k :=
        Nat.sub_lt (Nat.pos_of_ne_zero hk) (Nat.pos_of_ne_zero hgot)
      have hrest : k - (r.read k).1.length ≤ (r.read k).2.contents.length := by
        rw [← hsplit, List.length_append] at hle
        exact Nat.sub_le_of_le_add (Nat.add_comm _ _ ▸ hle)
      obtain ⟨r', hr', hc⟩ := ih _ hlt hrest
      refine ⟨r', ?_, ?_⟩
      · rw [readFull_eq_read hk hne, hr', Option.map_some, ← hsplit, List.take_append,
          List.take_of_length_le (length_read_le r k)]
      · rw [hc, ← hsplit, List.drop_append, List.drop_of_length_le (length_read_le r k), List.nil_append]

/-- The stream ends before. -/
theorem readFull_eq_none (hlt : r.contents.length < k) : r.readFull k = none := by
  induction k using Nat.strongRecOn generalizing r with
  | _ k ih =>
      rw [readFull, if_neg (Nat.ne_of_gt (Nat.zero_lt_of_lt hlt))]
      split
      · rfl
      · rename_i hgot
        have hsplit := contents_read r k
        rw [← hsplit, List.length_append] at hlt
        rw [ih _ (Nat.sub_lt (Nat.zero_lt_of_lt hlt) (Nat.pos_of_ne_zero hgot))
          (Nat.lt_sub_of_add_lt (Nat.add_comm _ _ ▸ hlt)), Option.map_none]

theorem of_readFull (h : r.readFull k = some (got, r')) :
    k ≤ r.contents.length ∧ got = r.contents.take k ∧ r'.contents = r.contents.drop k := by
  by_cases hle : k ≤ r.contents.length
  · obtain ⟨r₁, hr, hc⟩ := readFull_eq_some hle
    cases hr.symm.trans h
    exact ⟨hle, rfl, hc⟩
  · rw [readFull_eq_none (Nat.lt_of_not_le hle)] at h
    cases h

end Reader

end Bytes
