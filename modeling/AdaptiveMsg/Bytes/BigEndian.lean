import Mathlib.Data.Nat.Init
import Mathlib.Tactic.Ring

/-!
# Bytes — big-endian numbers

`toBE w n` is `n` in `w` bytes, the most significant first, and `ofBE` reads it back:
`ofBE_toBE`.
-/

namespace Bytes

def toBE : Nat → Nat → List UInt8
  | 0, _ => []
  | w + 1, n => UInt8.ofNat (n / 256 ^ w) :: toBE w n

def ofBE : List UInt8 → Nat
  | [] => 0
  | b :: bytes => b.toNat * 256 ^ bytes.length + ofBE bytes

@[simp] theorem length_toBE (w n : Nat) : (toBE w n).length = w := by
  induction w with
  | zero => rfl
  | succ w ih => rw [toBE, List.length_cons, ih]

/-- Reading back keeps what fits in the bytes. -/
theorem ofBE_toBE_mod (w n : Nat) : ofBE (toBE w n) = n % 256 ^ w := by
  induction w with
  | zero => rw [toBE, ofBE, Nat.pow_zero, Nat.mod_one]
  | succ w ih =>
      have hsplit : n % 256 ^ (w + 1) = n % 256 ^ w + 256 ^ w * (n / 256 ^ w % 256) := by
        rw [Nat.pow_succ, Nat.mod_mul]
      rw [toBE, ofBE, length_toBE, ih, UInt8.toNat_ofNat', hsplit, Nat.add_comm, Nat.mul_comm]

theorem ofBE_toBE {w n : Nat} (h : n < 256 ^ w) : ofBE (toBE w n) = n := by
  rw [ofBE_toBE_mod, Nat.mod_eq_of_lt h]

end Bytes
