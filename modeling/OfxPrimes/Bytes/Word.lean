import Mathlib.Algebra.Order.Ring.Int
import Mathlib.Data.List.Basic

/-!
# Words as bytes

A number is written with a fixed count of bytes, most significant first for the
network and least significant first in the memory of the host.
-/

namespace OfxPrimes.Bytes

/-- The `width` low bytes of a number, most significant first. -/
def bigEndian : Nat → Nat → List UInt8
  | 0, _ => []
  | width + 1, n => bigEndian width (n / 256) ++ [UInt8.ofNat n]

/-- The number with the given bytes, most significant first. -/
def ofBigEndian (bytes : List UInt8) : Nat :=
  bytes.foldl (fun value byte => value * 256 + byte.toNat) 0

/-- The `width` low bytes of a number, least significant first. -/
def littleEndian (width n : Nat) : List UInt8 :=
  (bigEndian width n).reverse

/-- The number with the given bytes, least significant first. -/
def ofLittleEndian (bytes : List UInt8) : Nat :=
  ofBigEndian bytes.reverse

@[simp]
theorem length_bigEndian (width n : Nat) : (bigEndian width n).length = width := by
  induction width generalizing n with
  | zero => rfl
  | succ width ih => simp [bigEndian, ih]

@[simp]
theorem length_littleEndian (width n : Nat) : (littleEndian width n).length = width := by
  simp [littleEndian]

theorem ofBigEndian_concat (bytes : List UInt8) (byte : UInt8) :
    ofBigEndian (bytes ++ [byte]) = ofBigEndian bytes * 256 + byte.toNat := by
  simp [ofBigEndian]

/-- Reading what was written gives the number modulo the range of the width. -/
theorem ofBigEndian_bigEndian (width n : Nat) :
    ofBigEndian (bigEndian width n) = n % 256 ^ width := by
  induction width generalizing n with
  | zero => simp [bigEndian, ofBigEndian, Nat.mod_one]
  | succ width ih =>
      rw [Nat.pow_succ', Nat.mod_mul, bigEndian, ofBigEndian_concat, ih,
        UInt8.toNat_ofNat', Nat.mul_comm, Nat.add_comm]

theorem ofBigEndian_bigEndian_of_lt {width n : Nat} (inRange : n < 256 ^ width) :
    ofBigEndian (bigEndian width n) = n := by
  rw [ofBigEndian_bigEndian, Nat.mod_eq_of_lt inRange]

theorem ofLittleEndian_littleEndian_of_lt {width n : Nat} (inRange : n < 256 ^ width) :
    ofLittleEndian (littleEndian width n) = n := by
  rw [ofLittleEndian, littleEndian, List.reverse_reverse, ofBigEndian_bigEndian_of_lt inRange]

end OfxPrimes.Bytes
