import Mathlib.Analysis.SpecialFunctions.Trigonometric.Basic
import OfxPrimes.Fiducial.Scalar

/-!
# Exact arithmetic

Results about the geometry of the tracking code hold for real numbers.  As in
floating-point arithmetic a quotient by zero or the root of a negative number is
not a number, and no comparison with it succeeds.
-/

namespace OfxPrimes.Fiducial

namespace FloatArith

/-- The operations on real numbers, with `none` for what is not a number. -/
noncomputable def exact : FloatArith (Option ℝ) where
  ofInt n := some n
  add x y := x.bind fun a => y.map fun b => a + b
  sub x y := x.bind fun a => y.map fun b => a - b
  mul x y := x.bind fun a => y.map fun b => a * b
  div x y := x.bind fun a => y.bind fun b => if b = 0 then none else some (a / b)
  sqrt x := x.bind fun a => if a < 0 then none else some √a
  fabs x := x.map fun a => |a|
  cos x := x.map Real.cos
  sin x := x.map Real.sin
  floor x := x.elim 0 Int.floor
  ceil x := x.elim 0 Int.ceil
  lt x y := (x.bind fun a => y.map fun b => decide (a < b)).getD false
  le x y := (x.bind fun a => y.map fun b => decide (a ≤ b)).getD false
  eq x y := (x.bind fun a => y.map fun b => decide (a = b)).getD false
  pi := some Real.pi

variable (a b : ℝ) (x y : Option ℝ)

@[simp]
theorem exact_ofInt (n : Int) : exact.ofInt n = some (n : ℝ) :=
  rfl

@[simp]
theorem exact_add : exact.add (some a) (some b) = some (a + b) :=
  rfl

@[simp]
theorem exact_sub : exact.sub (some a) (some b) = some (a - b) :=
  rfl

@[simp]
theorem exact_mul : exact.mul (some a) (some b) = some (a * b) :=
  rfl

theorem exact_div : exact.div (some a) (some b) = if b = 0 then none else some (a / b) :=
  rfl

@[simp]
theorem exact_fabs : exact.fabs (some a) = some |a| :=
  rfl

@[simp]
theorem exact_cos : exact.cos (some a) = some (Real.cos a) :=
  rfl

@[simp]
theorem exact_sin : exact.sin (some a) = some (Real.sin a) :=
  rfl

@[simp]
theorem exact_pi : exact.pi = some Real.pi :=
  rfl

@[simp]
theorem exact_lt : exact.lt (some a) (some b) = decide (a < b) :=
  rfl

@[simp]
theorem exact_le : exact.le (some a) (some b) = decide (a ≤ b) :=
  rfl

@[simp]
theorem exact_eq : exact.eq (some a) (some b) = decide (a = b) :=
  rfl

variable {x y}

/-! ## What is not a number stays none -/

theorem exact_sub_eq_some {c : ℝ} :
    exact.sub x y = some c ↔ ∃ a b, x = some a ∧ y = some b ∧ a - b = c := by
  cases x <;> cases y <;> simp [exact]

theorem exact_mul_eq_some {c : ℝ} :
    exact.mul x y = some c ↔ ∃ a b, x = some a ∧ y = some b ∧ a * b = c := by
  cases x <;> cases y <;> simp [exact]

theorem exact_div_eq_some {c : ℝ} :
    exact.div x y = some c ↔ ∃ a b, x = some a ∧ y = some b ∧ b ≠ 0 ∧ a / b = c := by
  cases x <;> cases y <;> simp [exact]

theorem exact_le_eq_true :
    exact.le x y = true ↔ ∃ a b, x = some a ∧ y = some b ∧ a ≤ b := by
  cases x <;> cases y <;> simp [exact]

theorem exact_hypot : exact.hypot (some a) (some b) = some √(a * a + b * b) := by
  have nonneg : ¬ a * a + b * b < 0 :=
    not_lt.mpr (add_nonneg (mul_self_nonneg a) (mul_self_nonneg b))
  show (if a * a + b * b < 0 then none else some √(a * a + b * b)) = _
  rw [if_neg nonneg]

theorem exact_min : exact.min (some a) (some b) = some (Min.min a b) := by
  unfold FloatArith.min
  rw [exact_lt]
  rcases lt_or_ge a b with less | notLess
  · rw [if_pos (decide_eq_true less), min_eq_left less.le]
  · rw [if_neg (by simp [notLess]), min_eq_right notLess]

theorem exact_max : exact.max (some a) (some b) = some (Max.max a b) := by
  unfold FloatArith.max
  rw [exact_lt]
  rcases lt_or_ge b a with greater | notGreater
  · rw [if_pos (decide_eq_true greater), max_eq_left greater.le]
  · rw [if_neg (by simp [notGreater]), max_eq_right notGreater]

end FloatArith

/-- The point with the given coordinates. -/
def Point.exact (p : ℝ × ℝ) : Point (Option ℝ) :=
  ⟨some p.1, some p.2⟩

@[simp]
theorem Point.exact_x (p : ℝ × ℝ) : (Point.exact p).x = some p.1 :=
  rfl

@[simp]
theorem Point.exact_y (p : ℝ × ℝ) : (Point.exact p).y = some p.2 :=
  rfl

theorem Point.exact_injective : Function.Injective Point.exact := by
  intro p q same
  have fields := Point.mk.inj same
  exact Prod.ext (Option.some.inj fields.1) (Option.some.inj fields.2)

end OfxPrimes.Fiducial
