import Mathlib.Algebra.Order.Ring.Int

/-!
# The numbers the tracking code computes with

Coordinates, angles and sizes are floating-point numbers.  Their arithmetic is
not interpreted: `FloatArith` lists the operations the code applies to them,
and every definition that computes with a coordinate takes one.  The few facts
about floating-point numbers that a result rests on are named where it is
stated.
-/

namespace OfxPrimes.Fiducial

/-- The operations on `float` and `double` values. -/
structure FloatArith (F : Type) where
  ofInt : Int → F
  add : F → F → F
  sub : F → F → F
  mul : F → F → F
  div : F → F → F
  sqrt : F → F
  fabs : F → F
  cos : F → F
  sin : F → F
  floor : F → Int
  ceil : F → Int
  lt : F → F → Bool
  le : F → F → Bool
  eq : F → F → Bool
  /-- `PI` -/
  pi : F

/-- The two coordinates of an `ofPoint` that the code uses. -/
structure Point (F : Type) where
  x : F
  y : F
  deriving DecidableEq, Repr

variable {F : Type}

namespace FloatArith

/-- `MIN(x, y)`: `(((x) < (y)) ? (x) : (y))`. -/
def min (arith : FloatArith F) (x y : F) : F :=
  if arith.lt x y then x else y

/-- `MAX(x, y)`: `(((x) > (y)) ? (x) : (y))`. -/
def max (arith : FloatArith F) (x y : F) : F :=
  if arith.lt y x then x else y

/-- `sqrt(dx*dx+dy*dy)`. -/
def hypot (arith : FloatArith F) (dx dy : F) : F :=
  arith.sqrt (arith.add (arith.mul dx dx) (arith.mul dy dy))

/-- `radians(degrees)`: `degrees*PI/180.0`. -/
def radians (arith : FloatArith F) (degrees : Int) : F :=
  arith.div (arith.mul (arith.ofInt degrees) arith.pi) (arith.ofInt 180)

/-- `TWO_PI`. -/
def twoPi (arith : FloatArith F) : F :=
  arith.mul (arith.ofInt 2) arith.pi

/-- `FIDUCIAL_INVALID_COORDS`. -/
def invalidCoords (arith : FloatArith F) : F :=
  arith.ofInt (-100)

/-- `jitterThreshold`. -/
def jitterThreshold (arith : FloatArith F) : F :=
  arith.ofInt 1

/-- The filter of the jitter in a coordinate or an angle: a new value within the
threshold of the current one is replaced by the last. -/
def filterJitter (arith : FloatArith F) (threshold new current last : F) : F :=
  if arith.lt threshold (arith.fabs (arith.sub new current)) then new else last

/-! ## Arithmetic on rational numbers -/

/-- The sum of the first `terms` terms of the power series in `square` whose
first term is `term`, where the term of index `index` is
`-square / (index * (index + 1))` times the one before it. -/
def alternatingSeries (square : Rat) : Nat → Rat → Rat → Rat
  | 0, _, _ => 0
  | terms + 1, index, term =>
      term + alternatingSeries square terms (index + 2)
        (-(term * square) / (index * (index + 1)))

/-- The square root of a rational number, exact for squares and otherwise to six
decimal places. -/
def rationalSqrt (x : Rat) : Rat :=
  mkRat (Nat.sqrt (x.num.toNat * x.den * 10 ^ 12)) (x.den * 10 ^ 6)

/-- The operations on rational numbers, with `none` for what is not a number.
They are exact apart from square roots, sines and cosines, and agree with the
floating-point operations where those are. -/
def rational : FloatArith (Option Rat) where
  ofInt n := some n
  add x y := x.bind fun a => y.map fun b => a + b
  sub x y := x.bind fun a => y.map fun b => a - b
  mul x y := x.bind fun a => y.map fun b => a * b
  div x y := x.bind fun a => y.bind fun b => if b = 0 then none else some (a / b)
  sqrt x := x.bind fun a => if a < 0 then none else some (rationalSqrt a)
  fabs x := x.map fun a => if a < 0 then -a else a
  cos x := x.map fun a => alternatingSeries (a * a) 30 1 1
  sin x := x.map fun a => alternatingSeries (a * a) 30 2 a
  floor x := x.elim 0 Rat.floor
  ceil x := x.elim 0 Rat.ceil
  lt x y := (x.bind fun a => y.map fun b => decide (a < b)).getD false
  le x y := (x.bind fun a => y.map fun b => decide (a ≤ b)).getD false
  eq x y := (x.bind fun a => y.map fun b => decide (a = b)).getD false
  pi := some (mkRat 355 113)

end FloatArith

end OfxPrimes.Fiducial
