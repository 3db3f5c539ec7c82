import Mathlib.Data.Nat.Init
import Mathlib.Tactic.Ring

/-!
# Bytes — unsigned LEB128

`leb128 n` is `n` in groups of seven bits, the lowest first, with the high bit set in every byte but
the last.

* `ofLeb128_leb128`: reading gives the number back, and leaves what follows it.
* `length_leb128_le`: how many bytes it takes.
* `leb128_minimal`: no encoding of the number is shorter.

`lengthPrefixed bytes` is a byte sequence behind its length.
-/

namespace Bytes

def leb128 (n : Nat) : List UInt8 :=
  if n < 128 then [UInt8.ofNat n] else UInt8.ofNat (n % 128 + 128) :: leb128 (n / 128)

/-- The number at the front, and what follows it. -/
def ofLeb128 : List UInt8 → Option (Nat × List UInt8)
  | [] => none
  | b :: bytes =>
    if b.toNat < 128 then some (b.toNat, bytes)
    else (ofLeb128 bytes).map fun r => (b.toNat - 128 + 128 * r.1, r.2)

variable {n : Nat} {bytes rest : List UInt8}

theorem leb128_of_lt (h : n < 128) : leb128 n = [UInt8.ofNat n] := by rw [leb128, if_pos h]

theorem leb128_of_le (h : 128 ≤ n) :
    leb128 n = UInt8.ofNat (n % 128 + 128) :: leb128 (n / 128) := by
  rw [leb128, if_neg (Nat.not_lt.2 h)]

/-- Reading gives the number back. -/
theorem ofLeb128_leb128 (n : Nat) (rest : List UInt8) :
    ofLeb128 (leb128 n ++ rest) = some (n, rest) := by
  induction n using Nat.strongRecOn with
  | _ n ih =>
      by_cases h : n < 128
      · have hb : (UInt8.ofNat n).toNat = n :=
          UInt8.toNat_ofNat_of_lt' (Nat.lt_trans h (by decide))
        rw [leb128_of_lt h, List.singleton_append, ofLeb128, hb, if_pos h]
      · have hb : (UInt8.ofNat (n % 128 + 128)).toNat = n % 128 + 128 :=
          UInt8.toNat_ofNat_of_lt' (Nat.add_lt_add_right (Nat.mod_lt n (by decide)) 128)
        have hlt : n / 128 < n := Nat.div_lt_self (by omega) (by decide)
        rw [leb128_of_le (Nat.not_lt.1 h), List.cons_append, ofLeb128, hb, if_neg (by omega),
          ih _ hlt, Option.map_some, Nat.add_sub_cancel, Nat.mod_add_div]

/-- Seven bits a byte. -/
theorem length_leb128_le {k : Nat} (hk : k ≠ 0) (h : n < 128 ^ k) : (leb128 n).length ≤ k := by
  induction k generalizing n with
  | zero => exact absurd rfl hk
  | succ k ih =>
      by_cases hn : n < 128
      · rw [leb128_of_lt hn]
        exact Nat.succ_le_succ (Nat.zero_le k)
      · have hk₀ : k ≠ 0 := by
          rintro rfl
          exact hn h
        have hdiv : n / 128 < 128 ^ k :=
          Nat.div_lt_of_lt_mul (by rwa [Nat.mul_comm, ← Nat.pow_succ])
        rw [leb128_of_le (Nat.not_lt.1 hn), List.length_cons]
        exact Nat.succ_le_succ (ih hk₀ hdiv)

/-- **No encoding of a number is shorter.** -/
theorem leb128_minimal (h : ofLeb128 bytes = some (n, rest)) :
    (leb128 n).length + rest.length ≤ bytes.length := by
  induction bytes generalizing n with
  | nil => cases h
  | cons b bytes ih =>
      rw [ofLeb128] at h
      split at h
      · rename_i hb
        cases h
        rw [leb128_of_lt hb, List.length_singleton, List.length_cons, Nat.add_comm]
      · obtain ⟨⟨m, rest'⟩, hm, he⟩ := Option.map_eq_some_iff.1 h
        cases he
        have hle := ih hm
        have hb : b.toNat - 128 < 128 := by
          have := b.toNat_lt
          omega
        have hlen : (leb128 (b.toNat - 128 + 128 * m)).length ≤ (leb128 m).length + 1 := by
          by_cases hs : b.toNat - 128 + 128 * m < 128
          · rw [leb128_of_lt hs]
            exact Nat.le_add_left 1 _
          · have hdiv : (b.toNat - 128 + 128 * m) / 128 = m := by omega
            rw [leb128_of_le (Nat.not_lt.1 hs), List.length_cons, hdiv]
        calc
          (leb128 (b.toNat - 128 + 128 * m)).length + rest'.length
              ≤ (leb128 m).length + 1 + rest'.length := Nat.add_le_add_right hlen _
          _ = (leb128 m).length + rest'.length + 1 := Nat.add_right_comm _ _ _
          _ ≤ (b :: bytes).length := Nat.succ_le_succ hle

/-! ### A byte sequence behind its length -/

def lengthPrefixed (bytes : List UInt8) : List UInt8 := leb128 bytes.length ++ bytes

end Bytes
