import Mathlib.Algebra.Order.Ring.Int
import Mathlib.Data.List.TakeWhile

/-!
# The platform the code runs on

Characters are bytes, a `std::string` is the list of its bytes, and a `float`
is its bit pattern.  Floating-point arithmetic is not interpreted: the
operations the code uses are the fields of `FloatOps`, over which every
definition that touches a float is parameterised.
-/

namespace OfxPrimes

/-- The bytes of a `std::string`, which may contain NUL. -/
abbrev Text :=
  List UInt8

/-- The bytes of a string literal of the source. -/
def ascii (literal : String) : Text :=
  literal.toList.map fun character => UInt8.ofNat character.toNat

/-- What `c_str()` shows to a function that reads up to the first NUL. -/
def cStr (text : Text) : Text :=
  text.takeWhile (· ≠ 0)

theorem cStr_eq_self {text : Text} (noNul : (0 : UInt8) ∉ text) : cStr text = text := by
  rw [cStr, List.takeWhile_eq_self_iff]
  intro byte mem
  simpa using fun isNul : byte = 0 => noNul (isNul ▸ mem)

/-- A string ends at its first NUL. -/
theorem cStr_append_nul {text : Text} (noNul : (0 : UInt8) ∉ text) (rest : Text) :
    cStr (text ++ 0 :: rest) = text := by
  have allBytes : ∀ byte ∈ text, decide (byte ≠ 0) = true := by
    intro byte mem
    simpa using fun isNul : byte = 0 => noNul (isNul ▸ mem)
  rw [cStr, List.takeWhile_append_of_pos allBytes]
  simp

/-- What follows the NUL does not matter. -/
theorem cStr_append_of_mem {front : Text} (hasNul : (0 : UInt8) ∈ front) (back : Text) :
    cStr (front ++ back) = cStr front := by
  rcases List.eq_append_cons_of_mem hasNul with ⟨text, rest, rfl, noNul⟩
  rw [List.append_assoc, List.cons_append, cStr_append_nul noNul, cStr_append_nul noNul]

/-- The `float` operations used by the code, on bit patterns. -/
structure FloatOps where
  /-- `(int32_t) f` -/
  toInt32 : UInt32 → Int32
  /-- `(float) i` -/
  ofInt32 : Int32 → UInt32
  /-- `sprintf( buf, "%f", f )` -/
  format : UInt32 → Text
  /-- `f != g` -/
  ne : UInt32 → UInt32 → Bool
  /-- `f < g` -/
  lt : UInt32 → UInt32 → Bool
  /-- `fabs( f )` -/
  fabs : UInt32 → UInt32
  /-- `ofLerp( start, stop, amount )` -/
  ofLerp : UInt32 → UInt32 → UInt32 → UInt32

end OfxPrimes
