import OfxPrimes.Fiducial.Exact
import OfxPrimes.Fiducial.OfxFiducial
import OfxPrimes.Plane.Quadrilateral

/-!
# Points inside a fiducial

`isPointInside` counts the edges of a fiducial that a ray to the right crosses.
In exact arithmetic each round of its loop decides whether one side is crossed,
and the count is odd exactly for the points inside.
-/

namespace OfxPrimes.Fiducial

open OfxPrimes.Plane
open OfxPrimes.Fiducial.FloatArith (exact)

namespace OfxFiducial

variable {x a b : ℝ × ℝ}

/-- The abscissa of an edge at the height of the point, against the point. -/
theorem intersection_sub (sloped : b.2 - a.2 ≠ 0) :
    ((x.2 - a.2) * (b.1 - a.1) / (b.2 - a.2) + a.1 - x.1) * (b.2 - a.2) = turn a b x := by
  simp only [turn, cross, Prod.fst_sub, Prod.snd_sub]
  field_simp
  ring

/-- A point to the right of both ends is to the right of the edge. -/
theorem le_max_of_turn (through : min a.2 b.2 < x.2 ∧ x.2 ≤ max a.2 b.2)
    (side : a.2 < b.2 ∧ 0 ≤ turn a b x ∨ b.2 < a.2 ∧ turn a b x ≤ 0) : x.1 ≤ max a.1 b.1 := by
  by_contra beyond
  obtain ⟨beyondA, beyondB⟩ := max_lt_iff.mp (not_le.mp beyond)
  have weights : turn a b x = (b.1 - x.1) * (x.2 - a.2) + (a.1 - x.1) * (b.2 - x.2) := by
    simp only [turn, cross, Prod.fst_sub, Prod.snd_sub]
    ring
  rcases side with ⟨order, left⟩ | ⟨order, right⟩
  · rw [min_eq_left order.le, max_eq_right order.le] at through
    have first := mul_neg_of_neg_of_pos (sub_neg.mpr beyondB) (sub_pos.mpr through.1)
    have second := mul_nonpos_of_nonpos_of_nonneg (sub_neg.mpr beyondA).le
      (sub_nonneg.mpr through.2)
    linarith
  · rw [min_eq_right order.le, max_eq_left order.le] at through
    have first := mul_nonneg_of_nonpos_of_nonpos (sub_neg.mpr beyondB).le
      (sub_nonpos.mpr through.2)
    have second := mul_pos_of_neg_of_neg (sub_neg.mpr beyondA) (sub_neg.mpr through.1)
    linarith

/-- The bounds on the abscissa, for an edge through the height of the point. -/
theorem le_intersection_iff (through : min a.2 b.2 < x.2 ∧ x.2 ≤ max a.2 b.2)
    (sloped : a.2 ≠ b.2) :
    x.1 ≤ max a.1 b.1 ∧
        (a.1 = b.1 ∨ x.1 ≤ (x.2 - a.2) * (b.1 - a.1) / (b.2 - a.2) + a.1) ↔
      a.2 < b.2 ∧ 0 ≤ turn a b x ∨ b.2 < a.2 ∧ turn a b x ≤ 0 := by
  have offset := intersection_sub (x := x) (sub_ne_zero.mpr sloped.symm)
  have side : x.1 ≤ (x.2 - a.2) * (b.1 - a.1) / (b.2 - a.2) + a.1 ↔
      a.2 < b.2 ∧ 0 ≤ turn a b x ∨ b.2 < a.2 ∧ turn a b x ≤ 0 := by
    rw [← offset, ← sub_nonneg]
    rcases lt_or_gt_of_ne sloped with order | order
    · have height : 0 < b.2 - a.2 := sub_pos.mpr order
      simp only [order, order.not_gt, true_and, false_and, or_false]
      exact (mul_nonneg_iff_left_nonneg_of_pos height).symm
    · have height : b.2 - a.2 < 0 := sub_neg.mpr order
      simp only [order, order.not_gt, true_and, false_and, false_or]
      constructor
      · exact fun before => mul_nonpos_of_nonneg_of_nonpos before height.le
      · exact fun product => nonneg_of_mul_nonpos_left product height
  rw [← side]
  constructor
  · rintro ⟨bounded, vertical | before⟩
    · simpa [vertical] using bounded
    · exact before
  · intro before
    exact ⟨le_max_of_turn through (side.mp before), Or.inr before⟩

theorem crossesEdge_exact :
    crossesEdge exact (some x.1) (some x.2) (Point.exact a) (Point.exact b) = true ↔
      CrossesRight x a b := by
  have unfolded : crossesEdge exact (some x.1) (some x.2) (Point.exact a) (Point.exact b) = true ↔
      (min a.2 b.2 < x.2 ∧ x.2 ≤ max a.2 b.2) ∧ a.2 ≠ b.2 ∧ x.1 ≤ max a.1 b.1 ∧
        (a.1 = b.1 ∨ x.1 ≤ (x.2 - a.2) * (b.1 - a.1) / (b.2 - a.2) + a.1) := by
    simp only [crossesEdge, Point.exact_x, Point.exact_y, FloatArith.exact_sub,
      FloatArith.exact_mul, FloatArith.exact_min, FloatArith.exact_max, FloatArith.exact_lt,
      FloatArith.exact_le, FloatArith.exact_eq, FloatArith.exact_div, Bool.and_eq_true,
      Bool.or_eq_true, Bool.not_eq_true', decide_eq_true_eq, decide_eq_false_iff_not]
    by_cases level : a.2 = b.2
    · simp [level]
    · have sloped : b.2 - a.2 ≠ 0 := sub_ne_zero.mpr (Ne.symm level)
      rw [if_neg sloped, FloatArith.exact_add, FloatArith.exact_le, decide_eq_true_eq]
      tauto
  rw [unfolded]
  constructor
  · rintro ⟨through, sloped, bounds⟩
    rcases (le_intersection_iff through sloped).mp bounds with ⟨order, left⟩ | ⟨order, right⟩
    · rw [min_eq_left order.le, max_eq_right order.le] at through
      exact Or.inl ⟨through, left⟩
    · rw [min_eq_right order.le, max_eq_left order.le] at through
      exact Or.inr ⟨through, right⟩
  · rintro (⟨⟨low, high⟩, left⟩ | ⟨⟨low, high⟩, right⟩)
    · have order : a.2 < b.2 := low.trans_le high
      have through : min a.2 b.2 < x.2 ∧ x.2 ≤ max a.2 b.2 :=
        ⟨min_lt_of_left_lt low, le_max_of_le_right high⟩
      exact ⟨through, order.ne, (le_intersection_iff through order.ne).mpr (Or.inl ⟨order, left⟩)⟩
    · have order : b.2 < a.2 := low.trans_le high
      have through : min a.2 b.2 < x.2 ∧ x.2 ≤ max a.2 b.2 :=
        ⟨min_lt_of_right_lt low, le_max_of_le_left high⟩
      exact ⟨through, order.ne', (le_intersection_iff through order.ne').mpr
        (Or.inr ⟨order, right⟩)⟩

/-- A counter that a loop increments is odd if it does so an odd number of times. -/
theorem odd_length_filter {α : Type} (test : α → Bool) (items : List α) :
    decide ((items.filter test).length % 2 ≠ 0) = (items.map test).foldr Bool.xor false := by
  induction items with
  | nil => rfl
  | cons item rest ih =>
      rw [List.map_cons, List.foldr_cons, ← ih]
      cases tested : test item with
      | false => simp [tested]
      | true =>
          simp only [List.filter_cons, tested, if_true, List.length_cons, Bool.true_xor]
          rcases Nat.mod_two_eq_zero_or_one (rest.filter test).length with even | odd
          · simp [Nat.add_mod, even]
          · simp [Nat.add_mod, odd]

/-- Whether an odd number of sides is crossed is their exclusive disjunction. -/
theorem isPointInside_eq_xor (self : OfxFiducial (Option ℝ)) (corners : Fin 4 → ℝ × ℝ)
    (x : ℝ × ℝ) (shape : self.cornerPoints = List.ofFn fun i => Point.exact (corners i))
    (upToDate : self.cornersUpdated = true) :
    let crossed (i : Fin 4) := crossesEdge exact (some x.1) (some x.2)
      (Point.exact (corners i)) (Point.exact (corners (i + 1)))
    (self.isPointInside exact (some x.1) (some x.2)).1 =
      (crossed 0 ^^ crossed 1 ^^ crossed 2 ^^ crossed 3) := by
  simp only [isPointInside, upToDate, if_true, odd_length_filter, shape]
  simp [List.ofFn_succ]

/-- With its corners up to date, a fiducial whose corners form a strictly convex
quadrilateral contains exactly the points inside, apart from those on an edge. -/
theorem isPointInside_iff (self : OfxFiducial (Option ℝ)) (corners : Fin 4 → ℝ × ℝ)
    (x : ℝ × ℝ) (shape : self.cornerPoints = List.ofFn fun i => Point.exact (corners i))
    (upToDate : self.cornersUpdated = true) (convex : StrictlyConvex corners)
    (off : ¬ OnBoundary corners x) :
    (self.isPointInside exact (some x.1) (some x.2)).1 = true ↔ StrictlyInside corners x := by
  rw [isPointInside_eq_xor self corners x shape upToDate]
  exact crossings_odd_iff convex off _ fun i => crossesEdge_exact

/-- The corners of a square around the point `(1, 1)`. -/
def squareCorners : Fin 4 → ℝ × ℝ :=
  ![(0, 0), (2, 0), (2, 2), (0, 2)]

theorem turn_squareCorners (i : Fin 4) :
    turn (squareCorners i) (squareCorners (i + 1)) (1, 1) = 2 ∧
      turn (squareCorners i) (squareCorners (i + 1)) (squareCorners (i + 2)) = 4 := by
  have turns : ∀ p q r : ℝ × ℝ,
      turn p q r = (q.1 - p.1) * (r.2 - p.2) - (r.1 - p.1) * (q.2 - p.2) := fun _ _ _ => rfl
  fin_cases i
  · change turn (0, 0) (2, 0) (1, 1) = 2 ∧ turn (0, 0) (2, 0) (2, 2) = 4
    norm_num [turns]
  · change turn (2, 0) (2, 2) (1, 1) = 2 ∧ turn (2, 0) (2, 2) (0, 2) = 4
    norm_num [turns]
  · change turn (2, 2) (0, 2) (1, 1) = 2 ∧ turn (2, 2) (0, 2) (0, 0) = 4
    norm_num [turns]
  · change turn (0, 2) (0, 0) (1, 1) = 2 ∧ turn (0, 2) (0, 0) (2, 0) = 4
    norm_num [turns]

/-- A fiducial with these corners. -/
noncomputable def squareFiducial : OfxFiducial (Option ℝ) :=
  { zeroed exact with
    cornerPoints := List.ofFn fun i => Point.exact (squareCorners i)
    cornersUpdated := true }

theorem isPointInside_iff_square :
    (squareFiducial.isPointInside exact (some 1) (some 1)).1 = true ↔
      StrictlyInside squareCorners (1, 1) := by
  apply isPointInside_iff squareFiducial squareCorners (1, 1) rfl rfl
  · left
    intro i
    rw [(turn_squareCorners i).2]
    norm_num
  · rintro ⟨i, onSide⟩
    obtain ⟨t, -, -, same⟩ := mem_segment_iff.mp onSide
    have area := (turn_squareCorners i).1
    have level : turn (squareCorners i) (squareCorners (i + 1))
        (along (squareCorners i) (squareCorners (i + 1)) t) = 0 := by
      simp only [turn, cross, along, Prod.fst_sub, Prod.snd_sub]
      ring
    rw [same, area] at level
    norm_num at level

end OfxFiducial

end OfxPrimes.Fiducial
