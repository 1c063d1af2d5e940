import OfxPrimes.Plane.Leaning
import OfxPrimes.Plane.Pose

/-!
# Squares of the plane

A square has a centre, a side and an angle by which it is turned.  Its corners
follow one another around it, and inside them is what lies nearer to its middle
lines than half the side.
-/

namespace OfxPrimes.Plane

open Filter Topology

theorem Pose.turn_place (pose : Pose) (p q r : ℝ × ℝ) :
    turn (pose.place p) (pose.place q) (pose.place r) = pose.scale ^ 2 * turn p q r := by
  have unit := Real.cos_sq_add_sin_sq pose.angle
  simp only [turn, cross, place, rotated, Prod.fst_sub, Prod.snd_sub, Prod.fst_add, Prod.snd_add,
    Prod.smul_fst, Prod.smul_snd, smul_eq_mul]
  linear_combination pose.scale ^ 2 *
    ((q.1 - p.1) * (r.2 - p.2) - (r.1 - p.1) * (q.2 - p.2)) * unit

/-- A square, possibly of side zero. -/
structure Square where
  center : ℝ × ℝ
  side : ℝ
  angle : ℝ
  nonneg : 0 ≤ side

namespace Square

variable (square : Square)

/-- The pose of a square around the origin that is not turned. -/
def pose : Pose where
  position := square.center
  angle := square.angle
  offset := 0
  scale := 1

/-- Half the side. -/
noncomputable def half : ℝ :=
  square.side / (2 : ℤ)

theorem half_eq : square.half = square.side / 2 := by
  rw [half, Int.cast_ofNat]

theorem zero_le_half : 0 ≤ square.half := by
  rw [half_eq]
  exact div_nonneg square.nonneg zero_le_two

/-- The corners, in order. -/
noncomputable def corner : Fin 4 → ℝ × ℝ :=
  ![square.pose.place (-square.half, square.half), square.pose.place (square.half, square.half),
    square.pose.place (square.half, -square.half), square.pose.place (-square.half, -square.half)]

/-- The points inside. -/
def interior : Set (ℝ × ℝ) :=
  { x | |(square.pose.locate x).1| < square.half ∧ |(square.pose.locate x).2| < square.half }

/-- The points inside and on the sides. -/
def closed : Set (ℝ × ℝ) :=
  { x | |(square.pose.locate x).1| ≤ square.half ∧ |(square.pose.locate x).2| ≤ square.half }

variable {square}

theorem place_locate (x : ℝ × ℝ) : square.pose.place (square.pose.locate x) = x :=
  Pose.place_locate one_ne_zero x

theorem turn_place (square : Square) (p q r : ℝ × ℝ) :
    turn (square.pose.place p) (square.pose.place q) (square.pose.place r) = turn p q r := by
  rw [Pose.turn_place]
  simp [pose]

/-- The turns at the sides tell the distances from them. -/
theorem turn_corner (square : Square) (x : ℝ × ℝ) :
    let w := square.pose.locate x
    turn (square.corner 0) (square.corner 1) x = square.side * (w.2 - square.half) ∧
      turn (square.corner 1) (square.corner 2) x = square.side * (w.1 - square.half) ∧
      turn (square.corner 2) (square.corner 3) x = square.side * (-square.half - w.2) ∧
      turn (square.corner 3) (square.corner 0) x = square.side * (-square.half - w.1) := by
  have sides : square.side = 2 * square.half := by
    rw [half_eq]
    ring
  have around (p q : ℝ × ℝ) : turn (square.pose.place p) (square.pose.place q) x =
      turn p q (square.pose.locate x) := by
    rw [← turn_place square p q, place_locate]
  simp only [corner, Matrix.cons_val, around]
  simp only [turn, cross, Prod.fst_sub, Prod.snd_sub, sides]
  refine ⟨?_, ?_, ?_, ?_⟩ <;> ring

theorem locate_place (p : ℝ × ℝ) : square.pose.locate (square.pose.place p) = p :=
  Pose.locate_place one_ne_zero p

theorem forall_four {P : Fin 4 → Prop} : (∀ i, P i) ↔ P 0 ∧ P 1 ∧ P 2 ∧ P 3 := by
  constructor
  · exact fun all => ⟨all 0, all 1, all 2, all 3⟩
  · rintro ⟨first, second, third, fourth⟩ i
    fin_cases i <;> assumption

theorem half_eq_zero (zero : square.side = 0) : square.half = 0 := by
  rw [half_eq, zero, zero_div]

theorem strictlyConvex_corner (positive : 0 < square.side) : StrictlyConvex square.corner := by
  have half : 0 < square.half := by
    rw [half_eq]
    exact half_pos positive
  have area := mul_pos positive half
  obtain ⟨first, -⟩ := turn_corner square (square.corner 2)
  obtain ⟨-, second, -⟩ := turn_corner square (square.corner 3)
  obtain ⟨-, -, third, -⟩ := turn_corner square (square.corner 0)
  obtain ⟨-, -, -, fourth⟩ := turn_corner square (square.corner 1)
  right
  rw [TurnsTo, forall_four]
  simp only [zero_add, Fin.reduceAdd, first, second, third, fourth]
  simp only [corner, Matrix.cons_val, locate_place]
  refine ⟨?_, ?_, ?_, ?_⟩ <;> linarith

theorem strictlyInside_corner_iff (x : ℝ × ℝ) :
    StrictlyInside square.corner x ↔ x ∈ square.interior := by
  obtain ⟨upper, right, lower, left⟩ := turn_corner square x
  rw [StrictlyInside, forall_four, forall_four, interior]
  simp only [zero_add, Fin.reduceAdd, upper, right, lower, left]
  rcases square.nonneg.eq_or_lt with zero | positive
  · simp [← zero, half_eq_zero zero.symm]
  · have negative (distance : ℝ) : square.side * distance < 0 ↔ distance < 0 := by
      rw [← neg_pos, ← mul_neg, mul_pos_iff_of_pos_left positive, neg_pos]
    simp only [mul_pos_iff_of_pos_left positive, negative]
    have half := square.zero_le_half
    constructor
    · rintro (⟨above, -, below, -⟩ | ⟨above, beside, below, before⟩)
      · linarith
      · exact ⟨abs_lt.mpr ⟨by linarith, by linarith⟩, abs_lt.mpr ⟨by linarith, by linarith⟩⟩
    · rintro ⟨inWidth, inHeight⟩
      obtain ⟨before, beside⟩ := abs_lt.mp inWidth
      obtain ⟨below, above⟩ := abs_lt.mp inHeight
      exact Or.inr ⟨by linarith, by linarith, by linarith, by linarith⟩

theorem interior_subset_closed : square.interior ⊆ square.closed :=
  fun _ inside => ⟨inside.1.le, inside.2.le⟩

theorem isClosed_closed : IsClosed square.closed := by
  have continuous : Continuous square.pose.locate := by
    unfold Pose.locate rotated
    fun_prop
  exact (isClosed_le (continuous_abs.comp (continuous_fst.comp continuous)) continuous_const).inter
    (isClosed_le (continuous_abs.comp (continuous_snd.comp continuous)) continuous_const)

/-- The points near a point to the left and, much less, below are inside. -/
theorem mem_closed_of_leansInto {x : ℝ × ℝ} (leans : LeansInto square.corner x) :
    x ∈ square.closed := by
  apply isClosed_closed.mem_of_tendsto (tendsto_leaning x)
  filter_upwards [leans] with δ inside
  exact interior_subset_closed ((strictlyInside_corner_iff _).mp inside)

/-- The corners of a square of side zero are the same. -/
theorem corner_eq_of_zero (zero : square.side = 0) (i : Fin 4) :
    square.corner i = square.pose.place 0 := by
  have all : ∀ i, square.corner i = square.pose.place 0 := by
    rw [forall_four]
    simp [corner, half_eq_zero zero, Prod.zero_eq_mk]
  exact all i

theorem not_leansInto_of_zero (zero : square.side = 0) (x : ℝ × ℝ) :
    ¬ LeansInto square.corner x := by
  intro leans
  obtain ⟨δ, inside⟩ := leans.exists
  have bound := ((strictlyInside_corner_iff _).mp inside).1
  rw [half_eq_zero zero] at bound
  exact absurd bound (abs_nonneg _).not_gt

theorem corner_mem_closed (i : Fin 4) : square.corner i ∈ square.closed := by
  have half := abs_of_nonneg square.zero_le_half
  have bounds : ∀ i, |(square.pose.locate (square.corner i)).1| ≤ square.half ∧
      |(square.pose.locate (square.corner i)).2| ≤ square.half := by
    rw [forall_four]
    simp [corner, locate_place, half]
  exact bounds i

/-! ## Squares with the same centre -/

variable {other : Square}

/-- Where a point of one square lies in another one with the same centre. -/
theorem locate_place_of_center (same : other.center = square.center) (w : ℝ × ℝ) :
    square.pose.locate (other.pose.place w) = rotated w (other.angle - square.angle) 0 := by
  simp only [Pose.locate, Pose.place, pose, same, rotated_rotated, zero_add, one_smul, inv_one,
    sub_zero, ← sub_eq_add_neg]
  apply Prod.ext <;> simp [rotated]

/-- A corner of a square around the origin leaves it when it is turned. -/
theorem rotated_outside {half θ : ℝ} {w : ℝ × ℝ} (positive : 0 < half) (width : w.1 ^ 2 = half ^ 2)
    (height : w.2 ^ 2 = half ^ 2) (turned : Real.sin θ * Real.cos θ ≠ 0) :
    ¬ (|(rotated w θ 0).1| ≤ half ∧ |(rotated w θ 0).2| ≤ half) := by
  rintro ⟨first, second⟩
  have unit := Real.cos_sq_add_sin_sq θ
  have firstSquare := sq_le_sq' (abs_le.mp first).1 (abs_le.mp first).2
  have secondSquare := sq_le_sq' (abs_le.mp second).1 (abs_le.mp second).2
  simp only [rotated, Prod.fst_zero, Prod.snd_zero, sub_zero, add_zero] at firstSquare secondSquare
  -- The squares of the coordinates are `half ^ 2` minus and plus the same.
  have level : w.1 * w.2 * (Real.sin θ * Real.cos θ) = 0 := by
    apply le_antisymm
    · linear_combination (1 / 2) * secondSquare - (1 / 2) * (half ^ 2 * unit) -
        (1 / 2) * Real.sin θ ^ 2 * width - (1 / 2) * Real.cos θ ^ 2 * height
    · linear_combination (1 / 2) * firstSquare - (1 / 2) * (half ^ 2 * unit) -
        (1 / 2) * Real.cos θ ^ 2 * width - (1 / 2) * Real.sin θ ^ 2 * height
  have nonzero (x : ℝ) (square : x ^ 2 = half ^ 2) : x ≠ 0 := by
    rintro rfl
    rw [zero_pow two_ne_zero] at square
    exact (pow_pos positive 2).ne square
  exact mul_ne_zero (mul_ne_zero (nonzero _ width) (nonzero _ height)) turned level

/-- The corners of one of two equal squares with the same centre are outside the other
one, unless their sides have the same directions. -/
theorem corner_not_mem_closed (center : other.center = square.center)
    (half : other.half = square.half) (positive : 0 < square.half)
    (turned : Real.sin (other.angle - square.angle) * Real.cos (other.angle - square.angle) ≠ 0)
    (i : Fin 4) : other.corner i ∉ square.closed := by
  have outside (w : ℝ × ℝ) (width : w.1 ^ 2 = square.half ^ 2)
      (height : w.2 ^ 2 = square.half ^ 2) :
      other.pose.place w ∉ square.closed := by
    intro inside
    apply rotated_outside positive width height turned
    rw [← locate_place_of_center center]
    exact inside
  have all : ∀ i, other.corner i ∉ square.closed := by
    rw [forall_four]
    simp only [corner, Matrix.cons_val, half]
    refine ⟨?_, ?_, ?_, ?_⟩ <;> exact outside _ (by ring) (by ring)
  exact all i

end Square

end OfxPrimes.Plane
