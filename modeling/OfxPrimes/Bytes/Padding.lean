import Mathlib.Data.List.Basic

/-!
# Padding to four bytes

The next multiple of four, and byte strings padded to it with zeros.
-/

namespace OfxPrimes.Bytes

/-- The next multiple of four. -/
def roundUp4 (x : Nat) : Nat :=
  (x + 3) / 4 * 4

/-- Zero bytes up to the next multiple of four. -/
def pad4 (bytes : List UInt8) : List UInt8 :=
  bytes ++ List.replicate (roundUp4 bytes.length - bytes.length) 0

theorem le_roundUp4 (x : Nat) : x ≤ roundUp4 x := by
  rw [roundUp4]
  omega

theorem roundUp4_mod (x : Nat) : roundUp4 x % 4 = 0 :=
  Nat.mul_mod_left _ _

theorem roundUp4_mono {x y : Nat} (le : x ≤ y) : roundUp4 x ≤ roundUp4 y :=
  Nat.mul_le_mul_right 4 (Nat.div_le_div_right (Nat.add_le_add_right le 3))

@[simp]
theorem length_pad4 (bytes : List UInt8) : (pad4 bytes).length = roundUp4 bytes.length := by
  have room := le_roundUp4 bytes.length
  rw [pad4, List.length_append, List.length_replicate]
  omega

end OfxPrimes.Bytes
