import Mathlib.Data.Fin.Basic
import Mathlib.Tactic.FinCases
import Mathlib.Tactic.Linarith
import OfxPrimes.Plane.Segment

/-!
# Convex quadrilaterals

The corners of a quadrilateral follow one another around it.  It is strictly
convex if all its turns go the same way.  Such a quadrilateral can be told apart
from its outside by counting the sides that a ray to the right crosses, where a
side contains the lower of its ends or the upper one, but not both.
-/

namespace OfxPrimes.Plane

universe u

section Turn

variable {K : Type u} [Field K]

/-- The turn at `q` on the way from `p` to `r`: twice the signed area of the
triangle, positive to the left. -/
def turn (p q r : K × K) : K :=
  cross (q - p) (r - p)

theorem turn_rotate (p q r : K × K) : turn p q r = turn q r p := by
  simp only [turn, cross, Prod.fst_sub, Prod.snd_sub]
  ring

theorem turn_eq_cross (p q x : K × K) : turn p q x = cross (p - x) (q - x) := by
  simp only [turn, cross, Prod.fst_sub, Prod.snd_sub]
  ring

@[simp]
theorem turn_self_left (p q : K × K) : turn p q p = 0 := by
  simp [turn, cross]

@[simp]
theorem turn_self_right (p q : K × K) : turn p q q = 0 := by
  simp only [turn, cross, Prod.fst_sub, Prod.snd_sub]
  ring

end Turn

variable {K : Type u} [Field K] [LinearOrder K] [IsStrictOrderedRing K]

/-- All turns around the quadrilateral go to the side of the sign `σ`. -/
def TurnsTo (σ : K) (corners : Fin 4 → K × K) : Prop :=
  ∀ i, 0 < σ * turn (corners i) (corners (i + 1)) (corners (i + 2))

/-- All turns to the left, or all to the right. -/
def StrictlyConvex (corners : Fin 4 → K × K) : Prop :=
  TurnsTo 1 corners ∨ TurnsTo (-1) corners

/-- The point is on the same side of all sides, and on none of them. -/
def StrictlyInside (corners : Fin 4 → K × K) (x : K × K) : Prop :=
  (∀ i, 0 < turn (corners i) (corners (i + 1)) x) ∨
    ∀ i, turn (corners i) (corners (i + 1)) x < 0

/-- The point is on a side. -/
def OnBoundary (corners : Fin 4 → K × K) (x : K × K) : Prop :=
  ∃ i, x ∈ segment K (corners i) (corners (i + 1))

/-- The side from `a` to `b` leads upwards through the height of `x`. -/
def Rises (x a b : K × K) : Prop :=
  a.2 < x.2 ∧ x.2 ≤ b.2

/-- The side from `a` to `b` crosses the ray from `x` to the right. -/
def CrossesRight (x a b : K × K) : Prop :=
  Rises x a b ∧ 0 ≤ turn a b x ∨ Rises x b a ∧ turn a b x ≤ 0

section Convex

variable {σ : K} {corners : Fin 4 → K × K} {x : K × K}

omit [IsStrictOrderedRing K] in
theorem turn_nonneg (convex : TurnsTo σ corners) (i k : Fin 4) :
    0 ≤ σ * turn (corners i) (corners (i + 1)) (corners k) := by
  have cases : ∀ i k : Fin 4, k = i ∨ k = i + 1 ∨ k = i + 2 ∨ k + 1 = i ∧ k + 2 = i + 1 := by
    decide
  rcases cases i k with rfl | rfl | rfl | ⟨rfl, next⟩
  · rw [turn_self_left, mul_zero]
  · rw [turn_self_right, mul_zero]
  · exact (convex i).le
  · rw [← turn_rotate, ← next]
    exact (convex k).le

/-- A point between a rising and a falling side of a convex quadrilateral is a mean
of their ends, and so on the inner side of all sides. -/
theorem inner_of_between (convex : TurnsTo σ corners) {i j : Fin 4}
    (rises : Rises x (corners i) (corners (i + 1)))
    (falls : Rises x (corners (j + 1)) (corners j))
    (same : 0 < turn (corners i) (corners (i + 1)) x * turn (corners j) (corners (j + 1)) x)
    (k : Fin 4) : 0 ≤ σ * turn (corners k) (corners (k + 1)) x := by
  have corner := turn_nonneg convex k
  generalize corners k = p at corner ⊢
  generalize corners (k + 1) = q at corner ⊢
  have cornerA := corner i
  have cornerB := corner (i + 1)
  have cornerD := corner j
  have cornerE := corner (j + 1)
  generalize corners i = a at *
  generalize corners (i + 1) = b at *
  generalize corners j = d at *
  generalize corners (j + 1) = e at *
  obtain ⟨belowA, aboveB⟩ := rises
  obtain ⟨belowE, aboveD⟩ := falls
  -- The means of `a` and `b` and of `d` and `e` at the height of `x` are on either side of it.
  have mean : turn d e x * ((b.2 - x.2) * turn p q a + (x.2 - a.2) * turn p q b) +
      turn a b x * ((x.2 - e.2) * turn p q d + (d.2 - x.2) * turn p q e) =
        (turn d e x * (b.2 - a.2) + turn a b x * (d.2 - e.2)) * turn p q x := by
    simp only [turn, cross, Prod.fst_sub, Prod.snd_sub]
    ring
  have left : 0 ≤ σ * ((b.2 - x.2) * turn p q a + (x.2 - a.2) * turn p q b) := by
    have first := mul_nonneg (sub_nonneg.mpr aboveB) cornerA
    have second := mul_nonneg (sub_nonneg.mpr belowA.le) cornerB
    linarith
  have right : 0 ≤ σ * ((x.2 - e.2) * turn p q d + (d.2 - x.2) * turn p q e) := by
    have first := mul_nonneg (sub_nonneg.mpr belowE.le) cornerD
    have second := mul_nonneg (sub_nonneg.mpr aboveD) cornerE
    linarith
  have heightAB : 0 < b.2 - a.2 := by linarith
  have heightDE : 0 < d.2 - e.2 := by linarith
  rcases pos_and_pos_or_neg_and_neg_of_mul_pos same with ⟨posAB, posDE⟩ | ⟨negAB, negDE⟩
  · have weight : 0 < turn d e x * (b.2 - a.2) + turn a b x * (d.2 - e.2) :=
      add_pos (mul_pos posDE heightAB) (mul_pos posAB heightDE)
    have total := add_nonneg (mul_nonneg posDE.le left) (mul_nonneg posAB.le right)
    apply nonneg_of_mul_nonneg_right _ weight
    linear_combination total + σ * mean
  · have weight : 0 < -(turn d e x * (b.2 - a.2) + turn a b x * (d.2 - e.2)) := by
      have first := mul_neg_of_neg_of_pos negDE heightAB
      have second := mul_neg_of_neg_of_pos negAB heightDE
      linarith
    have total := add_nonneg (mul_nonneg (neg_nonneg.mpr negDE.le) left)
      (mul_nonneg (neg_nonneg.mpr negAB.le) right)
    apply nonneg_of_mul_nonneg_right _ weight
    linear_combination total - σ * mean

/-- A point on the inner side of all sides and on the line through one of them is on
that side. -/
theorem mem_segment_of_turn_eq_zero (convex : TurnsTo σ corners)
    (inner : ∀ k, 0 ≤ σ * turn (corners k) (corners (k + 1)) x) {k : Fin 4}
    (level : turn (corners k) (corners (k + 1)) x = 0) :
    x ∈ segment K (corners k) (corners (k + 1)) := by
  have wraps : ∀ k : Fin 4, k + 3 + 1 = k ∧ k + 3 + 2 = k + 1 ∧ k + 1 + 1 = k + 2 := by
    decide
  obtain ⟨one, two, three⟩ := wraps k
  have area := convex k
  have areaBefore := convex (k + 3)
  have innerAfter := inner (k + 1)
  have innerBefore := inner (k + 3)
  rw [one, two] at areaBefore
  rw [one] at innerBefore
  rw [three] at innerAfter
  generalize corners k = a at *
  generalize corners (k + 1) = b at *
  generalize corners (k + 2) = c at *
  generalize corners (k + 3) = d at *
  have position : turn d a x * (b.1 - a.1) = turn d a b * (x.1 - a.1) ∧
      turn d a x * (b.2 - a.2) = turn d a b * (x.2 - a.2) := by
    simp only [turn, cross, Prod.fst_sub, Prod.snd_sub] at level ⊢
    constructor
    · linear_combination (a.1 - d.1) * level
    · linear_combination (a.2 - d.2) * level
  have balance : turn d a x * turn a b c + turn b c x * turn d a b = turn d a b * turn a b c := by
    simp only [turn, cross, Prod.fst_sub, Prod.snd_sub] at level ⊢
    linear_combination ((a.1 - d.1) * (c.2 - d.2) - (c.1 - d.1) * (a.2 - d.2) -
      ((a.1 - d.1) * (b.2 - d.2) - (b.1 - d.1) * (a.2 - d.2))) * level
  have notAfter : σ * turn d a x ≤ σ * turn d a b := by
    apply le_of_mul_le_mul_right _ area
    have rest := mul_nonneg innerAfter areaBefore.le
    linear_combination rest + σ * σ * balance
  apply mem_segment_iff.mpr
  refine ⟨σ * turn d a x / (σ * turn d a b), div_nonneg innerBefore areaBefore.le,
    (div_le_one areaBefore).mpr notAfter, ?_⟩
  have ratio : ∀ {height width : K}, turn d a x * width = turn d a b * height →
      σ * turn d a x / (σ * turn d a b) * width = height := by
    intro height width proportion
    rw [div_mul_eq_mul_div, div_eq_iff areaBefore.ne']
    linear_combination σ * proportion
  apply Prod.ext
  · simp only [along, ratio position.1, add_sub_cancel]
  · simp only [along, ratio position.2, add_sub_cancel]

/-- Numbers that are not negative are zero if a mean of them is not positive. -/
theorem eq_zero_of_mean_nonpos {f g m n : K} (positiveF : 0 < f) (positiveG : 0 < g)
    (nonnegM : 0 ≤ m) (nonnegN : 0 ≤ n) (atMost : f * m + g * n ≤ 0) : m = 0 ∧ n = 0 := by
  have partM := mul_nonneg positiveF.le nonnegM
  have partN := mul_nonneg positiveG.le nonnegN
  have zeroM : f * m = 0 := by linarith
  have zeroN : g * n = 0 := by linarith
  exact ⟨(mul_eq_zero_iff_left positiveF.ne').mp zeroM,
    (mul_eq_zero_iff_left positiveG.ne').mp zeroN⟩

/-- The corners of a quadrilateral that contains the origin are not all at or above its
height. -/
theorem exists_lower {v : Fin 4 → K × K} (inside : ∀ i, 0 < σ * cross (v i) (v (i + 1))) :
    ∃ i, (v i).2 < 0 := by
  by_contra above
  push Not at above
  have first := inside 0
  have second := inside 1
  have third := inside 2
  have fourth := inside 3
  have above0 := above 0
  have above1 := above 1
  have above2 := above 2
  have above3 := above 3
  simp only [Fin.reduceAdd, zero_add] at first second third fourth
  generalize v 0 = p at *
  generalize v 1 = q at *
  generalize v 2 = r at *
  generalize v 3 = s at *
  have overDiagonal : σ * cross q r * p.2 + σ * cross p q * r.2 = σ * cross p r * q.2 := by
    simp only [cross]
    ring
  have underDiagonal : σ * cross r s * p.2 + σ * cross s p * r.2 = -(σ * cross p r) * s.2 := by
    simp only [cross]
    ring
  have flat : p.2 = 0 ∧ r.2 = 0 := by
    rcases le_total 0 (σ * cross p r) with left | right
    · apply eq_zero_of_mean_nonpos third fourth above0 above2
      rw [underDiagonal]
      exact mul_nonpos_of_nonpos_of_nonneg (neg_nonpos.mpr left) above3
    · apply eq_zero_of_mean_nonpos second first above0 above2
      rw [overDiagonal]
      exact mul_nonpos_of_nonpos_of_nonneg right above1
  simp only [cross, flat, mul_zero, sub_zero, zero_sub] at first second third
  have side : 0 < q.2 := by
    apply lt_of_le_of_ne above1
    rintro zero
    rw [← zero, mul_zero, mul_zero] at first
    exact lt_irrefl 0 first
  have leftEnd : σ * r.1 < 0 := by
    by_contra notLeft
    have product := mul_nonneg (not_lt.mp notLeft) side.le
    linarith
  have product := mul_nonneg_of_nonpos_of_nonpos leftEnd.le (neg_nonpos.mpr above3)
  linarith

/-- The corners do not lie below and above a line in turns. -/
theorem not_alternating (convex : TurnsTo σ corners) (i : Fin 4) {height : K}
    (low : (corners i).2 < height) (high : height ≤ (corners (i + 1)).2)
    (lowAgain : (corners (i + 2)).2 < height) : (corners (i + 3)).2 < height := by
  have wraps : ∀ i : Fin 4, i + 1 + 1 = i + 2 ∧ i + 1 + 2 = i + 3 ∧ i + 2 + 1 = i + 3 ∧
      i + 2 + 2 = i ∧ i + 3 + 1 = i ∧ i + 3 + 2 = i + 1 := by
    decide
  obtain ⟨one, two, three, four, five, six⟩ := wraps i
  have areaA := convex i
  have areaB := convex (i + 1)
  have areaC := convex (i + 2)
  have areaD := convex (i + 3)
  rw [one, two] at areaB
  rw [three, four] at areaC
  rw [five, six] at areaD
  generalize corners i = a at *
  generalize corners (i + 1) = b at *
  generalize corners (i + 2) = c at *
  generalize corners (i + 3) = d at *
  by_contra highAgain
  -- The diagonals have a point in common.
  have diagonals : turn b c d * (a.2 - height) + turn d a b * (c.2 - height) =
      turn c d a * (b.2 - height) + turn a b c * (d.2 - height) := by
    simp only [turn, cross, Prod.fst_sub, Prod.snd_sub]
    ring
  have negative := add_neg (mul_neg_of_pos_of_neg areaB (sub_neg.mpr low))
    (mul_neg_of_pos_of_neg areaD (sub_neg.mpr lowAgain))
  have nonneg := add_nonneg (mul_nonneg areaC.le (sub_nonneg.mpr high))
    (mul_nonneg areaA.le (sub_nonneg.mpr (not_lt.mp highAgain)))
  have scaled := congrArg (σ * ·) diagonals
  linarith

/-- A quadrilateral that contains a point has corners on both sides of its height. -/
theorem exists_both_sides (inside : ∀ i, 0 < σ * turn (corners i) (corners (i + 1)) x) :
    (∃ i, (corners i).2 < x.2) ∧ ∃ i, x.2 < (corners i).2 := by
  constructor
  · obtain ⟨i, negative⟩ := exists_lower (v := fun i => corners i - x) (σ := σ) fun i => by
      rw [← turn_eq_cross]
      exact inside i
    exact ⟨i, sub_neg.mp negative⟩
  · obtain ⟨i, negative⟩ := exists_lower (v := fun i => x - corners i) (σ := σ) fun i => by
      have mirrored : cross (x - corners i) (x - corners (i + 1)) =
          turn (corners i) (corners (i + 1)) x := by
        simp only [turn, cross, Prod.fst_sub, Prod.snd_sub]
        ring
      rw [mirrored]
      exact inside i
    exact ⟨i, sub_neg.mp negative⟩

end Convex

/-! ## Counting the crossed sides -/

section Parity

/-- A side that leads through the height of a point passes it on the left or on the
right, or contains it. -/
theorem mem_segment_of_rises {x a b : K × K} (rises : Rises x a b) (level : turn a b x = 0) :
    x ∈ segment K a b := by
  have height : 0 < b.2 - a.2 := by
    have order := rises.1.trans_le rises.2
    linarith
  apply mem_segment_iff.mpr
  refine ⟨(x.2 - a.2) / (b.2 - a.2), div_nonneg (sub_nonneg.mpr rises.1.le) height.le,
    (div_le_one height).mpr (sub_le_sub_right rises.2 _), ?_⟩
  have level' : (x.2 - a.2) / (b.2 - a.2) * (b.1 - a.1) = x.1 - a.1 := by
    rw [div_mul_eq_mul_div, div_eq_iff height.ne']
    simp only [turn, cross, Prod.fst_sub, Prod.snd_sub] at level
    linear_combination level
  apply Prod.ext
  · simp only [along, level', add_sub_cancel]
  · simp only [along, div_mul_cancel₀ _ height.ne', add_sub_cancel]

/-- Around a cycle of four, the changes of a property go up and down in turns. -/
theorem changes_of_four (low : Fin 4 → Bool) :
    (∀ i, low i = low 0) ∨
    (∃ i, low i = true ∧ low (i + 1) = false ∧ low (i + 2) = true ∧ low (i + 3) = false) ∨
    ∃ i j, low i = true ∧ low (i + 1) = false ∧ low j = false ∧ low (j + 1) = true ∧ i ≠ j ∧
      ∀ k, k ≠ i → k ≠ j → low k = low (k + 1) := by
  revert low
  decide

theorem xor_of_two (crossed : Fin 4 → Bool) (i j : Fin 4) (different : i ≠ j)
    (others : ∀ k, k ≠ i → k ≠ j → crossed k = false) :
    (crossed 0 ^^ crossed 1 ^^ crossed 2 ^^ crossed 3) = (crossed i ^^ crossed j) := by
  revert crossed i j
  decide

variable {σ : K} {corners : Fin 4 → K × K} {x : K × K}

/-- Off the sides, the turn at a side through the height of the point is not zero. -/
theorem turn_ne_zero (off : ¬ OnBoundary corners x) {i : Fin 4}
    (through : Rises x (corners i) (corners (i + 1)) ∨ Rises x (corners (i + 1)) (corners i)) :
    turn (corners i) (corners (i + 1)) x ≠ 0 := by
  intro level
  apply off
  refine ⟨i, ?_⟩
  rcases through with rises | falls
  · exact mem_segment_of_rises rises level
  · rw [segment_symm]
    apply mem_segment_of_rises falls
    have mirrored :
        turn (corners (i + 1)) (corners i) x = -turn (corners i) (corners (i + 1)) x := by
      simp only [turn, cross, Prod.fst_sub, Prod.snd_sub]
      ring
    rw [mirrored, level, neg_zero]

omit [IsStrictOrderedRing K] in
/-- A rising side is crossed if the point is to its left. -/
theorem crossesRight_iff_of_rises {a b : K × K} (rises : Rises x a b) (apart : turn a b x ≠ 0) :
    CrossesRight x a b ↔ 0 < turn a b x := by
  constructor
  · rintro (⟨-, nonneg⟩ | ⟨falls, -⟩)
    · exact lt_of_le_of_ne nonneg apart.symm
    · exact absurd falls.1 (not_lt.mpr rises.2)
  · intro left
    exact Or.inl ⟨rises, left.le⟩

omit [IsStrictOrderedRing K] in
/-- A falling side is crossed if the point is to its right. -/
theorem crossesRight_iff_of_falls {a b : K × K} (falls : Rises x b a) (apart : turn a b x ≠ 0) :
    CrossesRight x a b ↔ turn a b x < 0 := by
  constructor
  · rintro (⟨rises, -⟩ | ⟨-, nonpos⟩)
    · exact absurd rises.1 (not_lt.mpr falls.2)
    · exact lt_of_le_of_ne nonpos apart
  · intro right
    exact Or.inr ⟨falls, right.le⟩

omit [IsStrictOrderedRing K] in
/-- A side whose ends are both below the point, or both not, is not crossed. -/
theorem not_crossesRight_of_iff {a b : K × K} (same : a.2 < x.2 ↔ b.2 < x.2) :
    ¬ CrossesRight x a b := by
  rintro (⟨⟨low, high⟩, -⟩ | ⟨⟨low, high⟩, -⟩)
  · exact absurd (same.mp low) (not_lt.mpr high)
  · exact absurd (same.mpr low) (not_lt.mpr high)

/-- The point is between a rising and a falling side exactly if it is inside. -/
theorem between_iff (convex : TurnsTo σ corners) (off : ¬ OnBoundary corners x) {i j : Fin 4}
    (rises : Rises x (corners i) (corners (i + 1)))
    (falls : Rises x (corners (j + 1)) (corners j)) :
    0 < turn (corners i) (corners (i + 1)) x * turn (corners j) (corners (j + 1)) x ↔
      ∀ k, 0 < σ * turn (corners k) (corners (k + 1)) x := by
  constructor
  · intro same k
    have inner := inner_of_between convex rises falls same
    apply lt_of_le_of_ne (inner k)
    intro zero
    have sign : σ ≠ 0 := left_ne_zero_of_mul (convex k).ne'
    have level := (mul_eq_zero_iff_left sign).mp zero.symm
    exact off ⟨k, mem_segment_of_turn_eq_zero convex inner level⟩
  · intro inside
    have product := mul_pos (inside i) (inside j)
    rw [mul_mul_mul_comm] at product
    exact pos_of_mul_pos_right product (mul_self_nonneg σ)

/-- The number of crossed sides is odd exactly for the points inside. -/
theorem crossings_odd_iff_of_turnsTo (convex : TurnsTo σ corners) (off : ¬ OnBoundary corners x)
    (crossed : Fin 4 → Bool)
    (counted : ∀ i, crossed i = true ↔ CrossesRight x (corners i) (corners (i + 1))) :
    (crossed 0 ^^ crossed 1 ^^ crossed 2 ^^ crossed 3) = true ↔
      ∀ k, 0 < σ * turn (corners k) (corners (k + 1)) x := by
  have still : ∀ k, decide ((corners k).2 < x.2) = decide ((corners (k + 1)).2 < x.2) →
      crossed k = false := by
    intro k same
    rw [← Bool.not_eq_true, counted]
    exact not_crossesRight_of_iff (decide_eq_decide.mp same)
  rcases changes_of_four fun i => decide ((corners i).2 < x.2) with
    level | ⟨i, low, high, lowAgain, highAgain⟩ |
      ⟨i, j, low, high, highAgain, lowAgain, differ, rest⟩
  · -- The quadrilateral is above or below the point.
    have none : ∀ k, crossed k = false := fun k => still k ((level k).trans (level (k + 1)).symm)
    simp only [none, Bool.xor_false, Bool.false_eq_true, false_iff]
    intro inside
    obtain ⟨⟨i, below⟩, k, above⟩ := exists_both_sides inside
    have same := (level i).trans (level k).symm
    exact absurd ((decide_eq_decide.mp same).mp below) (not_lt.mpr above.le)
  · simp only [decide_eq_true_eq, decide_eq_false_iff_not, not_lt] at low high lowAgain highAgain
    exact absurd (not_alternating convex i low high lowAgain) (not_lt.mpr highAgain)
  · simp only [decide_eq_true_eq, decide_eq_false_iff_not, not_lt] at low high lowAgain highAgain
    have rises : Rises x (corners i) (corners (i + 1)) := ⟨low, high⟩
    have falls : Rises x (corners (j + 1)) (corners j) := ⟨lowAgain, highAgain⟩
    rw [xor_of_two crossed i j differ fun k notI notJ => still k (rest k notI notJ),
      ← between_iff convex off rises falls]
    have apartI := turn_ne_zero off (Or.inl rises)
    have apartJ := turn_ne_zero off (Or.inr falls)
    have crossedI : crossed i = decide (0 < turn (corners i) (corners (i + 1)) x) := by
      rw [Bool.eq_iff_iff, counted, decide_eq_true_eq, crossesRight_iff_of_rises rises apartI]
    have crossedJ : crossed j = decide (turn (corners j) (corners (j + 1)) x < 0) := by
      rw [Bool.eq_iff_iff, counted, decide_eq_true_eq, crossesRight_iff_of_falls falls apartJ]
    rw [crossedI, crossedJ]
    rcases apartI.lt_or_gt with negI | posI <;> rcases apartJ.lt_or_gt with negJ | posJ
    · simp [negI.not_gt, negJ, mul_pos_of_neg_of_neg negI negJ]
    · simp [negI.not_gt, posJ.not_gt, (mul_neg_of_neg_of_pos negI posJ).not_gt]
    · simp [posI, negJ, (mul_neg_of_pos_of_neg posI negJ).not_gt]
    · simp [posI, posJ.not_gt, mul_pos posI posJ]

/-- The sides cannot all be passed on the outside. -/
theorem strictlyInside_iff (convex : TurnsTo σ corners) (sign : σ = 1 ∨ σ = -1) :
    StrictlyInside corners x ↔ ∀ k, 0 < σ * turn (corners k) (corners (k + 1)) x := by
  have area : turn (corners 0) (corners 1) (corners 2) + turn (corners 2) (corners 3) (corners 0) =
      turn (corners 0) (corners 1) x + turn (corners 1) (corners 2) x +
        turn (corners 2) (corners 3) x + turn (corners 3) (corners 0) x := by
    simp only [turn, cross, Prod.fst_sub, Prod.snd_sub]
    ring
  have areaA := convex 0
  have areaC := convex 2
  have noneOutside : ¬ ∀ k, σ * turn (corners k) (corners (k + 1)) x < 0 := by
    intro outside
    have total := add_neg (add_neg (add_neg (outside 0) (outside 1)) (outside 2)) (outside 3)
    simp only [Fin.reduceAdd, zero_add] at areaA areaC total
    have scaled := congrArg (σ * ·) area
    linarith
  rcases sign with rfl | rfl
  · simp only [one_mul] at noneOutside ⊢
    exact or_iff_left noneOutside
  · simp only [neg_mul, one_mul, neg_pos, neg_neg_iff_pos] at noneOutside ⊢
    exact or_iff_right noneOutside

/-- The even-odd rule for strictly convex quadrilaterals. -/
theorem crossings_odd_iff (convex : StrictlyConvex corners) (off : ¬ OnBoundary corners x)
    (crossed : Fin 4 → Bool)
    (counted : ∀ i, crossed i = true ↔ CrossesRight x (corners i) (corners (i + 1))) :
    (crossed 0 ^^ crossed 1 ^^ crossed 2 ^^ crossed 3) = true ↔ StrictlyInside corners x := by
  rcases convex with left | right
  · rw [crossings_odd_iff_of_turnsTo left off crossed counted,
      strictlyInside_iff left (Or.inl rfl)]
  · rw [crossings_odd_iff_of_turnsTo right off crossed counted,
      strictlyInside_iff right (Or.inr rfl)]

end Parity

end OfxPrimes.Plane
