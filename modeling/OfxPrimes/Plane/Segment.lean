import Mathlib.Analysis.Convex.Segment
import Mathlib.Algebra.Order.Module.Field
import Mathlib.Analysis.Real.Sqrt
import Mathlib.Analysis.SpecialFunctions.Trigonometric.Basic
import Mathlib.Tactic.LinearCombination

/-!
# Segments of the plane

Points and vectors of the plane are pairs of coordinates.  Two segments whose
directions are not parallel have at most one point in common, and Cramer's rule
gives its parameter on each of them.
-/

namespace OfxPrimes.Plane

universe u

section Field

variable {K : Type u} [Field K]

/-- The cross product of two vectors: the signed area they span. -/
def cross (u v : K × K) : K :=
  u.1 * v.2 - v.1 * u.2

/-- The point at the parameter `t` of the line that is at `p` for 0 and at `q`
for 1. -/
def along (p q : K × K) (t : K) : K × K :=
  (p.1 + t * (q.1 - p.1), p.2 + t * (q.2 - p.2))

@[simp]
theorem along_zero (p q : K × K) : along p q 0 = p := by
  simp [along]

@[simp]
theorem along_one (p q : K × K) : along p q 1 = q := by
  simp [along]

/-- The point half way between two points. -/
def middle (p q : K × K) : K × K :=
  ((p.1 + q.1) / (2 : ℕ), (p.2 + q.2) / (2 : ℕ))

/-- The line to a point of a line runs through the same points. -/
theorem along_along (p q : K × K) (s t : K) : along p (along p q s) t = along p q (t * s) := by
  apply Prod.ext <;> simp only [along] <;> ring

theorem cross_along_sub (p q v : K × K) (s : K) :
    cross (along p q s - p) v = s * cross (q - p) v := by
  simp only [cross, along, Prod.fst_sub, Prod.snd_sub]
  ring

/-- Cramer's rule for the point that two lines have in common. -/
theorem along_eq_along_iff {p q a b : K × K} {s t : K}
    (nonparallel : cross (q - p) (b - a) ≠ 0) :
    along p q s = along a b t ↔
      s = cross (a - p) (b - a) / cross (q - p) (b - a) ∧
        t = cross (a - p) (q - p) / cross (q - p) (b - a) := by
  rw [eq_div_iff nonparallel, eq_div_iff nonparallel]
  simp only [along, Prod.mk.injEq]
  constructor
  · rintro ⟨first, second⟩
    constructor
    · simp only [cross, Prod.fst_sub, Prod.snd_sub]
      linear_combination (b.2 - a.2) * first - (b.1 - a.1) * second
    · simp only [cross, Prod.fst_sub, Prod.snd_sub]
      linear_combination (q.2 - p.2) * first - (q.1 - p.1) * second
  · rintro ⟨atS, atT⟩
    simp only [cross, Prod.fst_sub, Prod.snd_sub] at nonparallel atS atT
    constructor
    · apply mul_left_cancel₀ nonparallel
      linear_combination (q.1 - p.1) * atS - (b.1 - a.1) * atT
    · apply mul_left_cancel₀ nonparallel
      linear_combination (q.2 - p.2) * atS - (b.2 - a.2) * atT

end Field

section Order

variable {K : Type u} [Field K] [LinearOrder K] [IsStrictOrderedRing K]

theorem mem_segment_iff {p q x : K × K} :
    x ∈ segment K p q ↔ ∃ t, 0 ≤ t ∧ t ≤ 1 ∧ along p q t = x := by
  rw [segment_eq_image', Set.mem_image]
  constructor
  · rintro ⟨t, ⟨lower, upper⟩, rfl⟩
    exact ⟨t, lower, upper, by apply Prod.ext <;> simp [along]⟩
  · rintro ⟨t, lower, upper, rfl⟩
    exact ⟨t, ⟨lower, upper⟩, by apply Prod.ext <;> simp [along]⟩

theorem along_mem_segment {p q : K × K} {t : K} (lower : 0 ≤ t) (upper : t ≤ 1) :
    along p q t ∈ segment K p q :=
  mem_segment_iff.mpr ⟨t, lower, upper, rfl⟩

theorem along_mem_segment_along {p q : K × K} {s t : K} (nonneg : 0 ≤ s) (order : s ≤ t) :
    along p q s ∈ segment K p (along p q t) := by
  rcases nonneg.eq_or_lt with rfl | positive
  · rw [along_zero]
    exact left_mem_segment K p _
  · have positiveT : 0 < t := positive.trans_le order
    apply mem_segment_iff.mpr
    refine ⟨s / t, div_nonneg nonneg positiveT.le, (div_le_one positiveT).mpr order, ?_⟩
    rw [along_along, div_mul_cancel₀ s positiveT.ne']

/-- A shorter segment from the same point is a part of the longer one. -/
theorem segment_subset_of_mem {p q x : K × K} (onSegment : x ∈ segment K p q) :
    segment K p x ⊆ segment K p q := by
  obtain ⟨t, nonneg, bounded, rfl⟩ := mem_segment_iff.mp onSegment
  intro y onShorter
  obtain ⟨s, lower, upper, rfl⟩ := mem_segment_iff.mp onShorter
  rw [along_along]
  exact along_mem_segment (mul_nonneg lower nonneg) (mul_le_one₀ upper nonneg bounded)

/-- The parameters at which the segment from `p` to `q` meets a side, given by its
two ends, that is not parallel to it. -/
def crossings (p q : K × K) (side : (K × K) × (K × K)) : Set K :=
  { t | cross (q - p) (side.2 - side.1) ≠ 0 ∧ 0 ≤ t ∧ t ≤ 1 ∧
    along p q t ∈ segment K side.1 side.2 }

variable {p q : K × K} {side : (K × K) × (K × K)} {s t : K}

omit [IsStrictOrderedRing K] in
theorem mem_crossings_iff :
    t ∈ crossings p q side ↔ cross (q - p) (side.2 - side.1) ≠ 0 ∧ 0 ≤ t ∧ t ≤ 1 ∧
      along p q t ∈ segment K side.1 side.2 :=
  Iff.rfl

/-- The one crossing there can be, by Cramer's rule. -/
theorem mem_crossings_iff_cramer (nonparallel : cross (q - p) (side.2 - side.1) ≠ 0) :
    t ∈ crossings p q side ↔
      t = cross (side.1 - p) (side.2 - side.1) / cross (q - p) (side.2 - side.1) ∧
      0 ≤ t ∧ t ≤ 1 ∧
      0 ≤ cross (side.1 - p) (q - p) / cross (q - p) (side.2 - side.1) ∧
      cross (side.1 - p) (q - p) / cross (q - p) (side.2 - side.1) ≤ 1 := by
  rw [mem_crossings_iff, mem_segment_iff]
  constructor
  · rintro ⟨-, lower, upper, r, lowerSide, upperSide, same⟩
    obtain ⟨atT, rfl⟩ := (along_eq_along_iff nonparallel).mp same.symm
    exact ⟨atT, lower, upper, lowerSide, upperSide⟩
  · rintro ⟨atT, lower, upper, lowerSide, upperSide⟩
    exact ⟨nonparallel, lower, upper, _, lowerSide, upperSide,
      ((along_eq_along_iff nonparallel).mpr ⟨atT, rfl⟩).symm⟩

theorem crossings_subsingleton (p q : K × K) (side : (K × K) × (K × K)) :
    (crossings p q side).Subsingleton := by
  intro s atS t atT
  rw [((mem_crossings_iff_cramer atS.1).mp atS).1, ((mem_crossings_iff_cramer atT.1).mp atT).1]

/-- A shorter segment on the same line has the crossings up to its end. -/
theorem mem_crossings_along (positive : 0 < s) (bounded : s ≤ 1) :
    t ∈ crossings p (along p q s) side ↔ t ≤ 1 ∧ t * s ∈ crossings p q side := by
  rw [mem_crossings_iff, mem_crossings_iff, cross_along_sub, along_along]
  constructor
  · rintro ⟨nonparallel, lower, upper, meets⟩
    exact ⟨upper, right_ne_zero_of_mul nonparallel, mul_nonneg lower positive.le,
      mul_le_one₀ upper positive.le bounded, meets⟩
  · rintro ⟨upper, nonparallel, lower, -, meets⟩
    exact ⟨mul_ne_zero positive.ne' nonparallel, nonneg_of_mul_nonneg_left lower positive,
      upper, meets⟩

omit [IsStrictOrderedRing K] in
/-- A segment without length crosses nothing. -/
theorem crossings_along_zero : crossings p (along p q 0) side = ∅ := by
  rw [Set.eq_empty_iff_forall_notMem]
  rintro t ⟨nonparallel, -⟩
  rw [cross_along_sub, zero_mul] at nonparallel
  exact nonparallel rfl

/-- The coordinates of a point of a segment between non-negative ends are
non-negative. -/
theorem along_nonneg (source : 0 ≤ p) (target : 0 ≤ q) (lower : 0 ≤ t) (upper : t ≤ 1) :
    0 ≤ along p q t := by
  have convex : ∀ a b : K, 0 ≤ a → 0 ≤ b → 0 ≤ a + t * (b - a) := by
    intro a b nonnegA nonnegB
    have mixed := add_nonneg (mul_nonneg (sub_nonneg.mpr upper) nonnegA) (mul_nonneg lower nonnegB)
    linarith
  exact ⟨convex _ _ source.1 target.1, convex _ _ source.2 target.2⟩

/-- On the way to a point with negative coordinates the non-negative points come
first. -/
theorem along_nonneg_of_le (target : q.1 < 0 ∧ q.2 < 0) (order : s ≤ t) (upper : t ≤ 1)
    (later : 0 ≤ along p q t) : 0 ≤ along p q s := by
  have earlier : ∀ a b : K, b < 0 → 0 ≤ a + t * (b - a) → 0 ≤ a + s * (b - a) := by
    intro a b negative nonneg
    rcases le_or_gt b a with falling | rising
    · have gap := mul_nonneg (sub_nonneg.mpr order) (sub_nonneg.mpr falling)
      linarith
    · have gap := mul_nonneg (sub_nonneg.mpr upper) (sub_nonneg.mpr rising.le)
      linarith
  exact ⟨earlier _ _ target.1 later.1, earlier _ _ target.2 later.2⟩

end Order

/-! ## Distances -/

section Distance

/-- The distance of two points of the plane. -/
noncomputable def distance (p q : ℝ × ℝ) : ℝ :=
  √((p.1 - q.1) * (p.1 - q.1) + (p.2 - q.2) * (p.2 - q.2))

theorem distance_along {p q : ℝ × ℝ} {t : ℝ} (nonneg : 0 ≤ t) :
    distance p (along p q t) = t * distance p q := by
  have squares : (p.1 - (along p q t).1) * (p.1 - (along p q t).1) +
      (p.2 - (along p q t).2) * (p.2 - (along p q t).2) =
        t ^ 2 * ((p.1 - q.1) * (p.1 - q.1) + (p.2 - q.2) * (p.2 - q.2)) := by
    simp only [along]
    ring
  rw [distance, squares, Real.sqrt_mul (sq_nonneg t), Real.sqrt_sq nonneg, distance]

/-- Points behind one another are farther and farther away. -/
theorem distance_along_lt_iff {p q : ℝ × ℝ} {s t : ℝ} (apart : 0 < distance p q) (sNonneg : 0 ≤ s)
    (tNonneg : 0 ≤ t) : distance p (along p q s) < distance p (along p q t) ↔ s < t := by
  rw [distance_along sNonneg, distance_along tNonneg, mul_lt_mul_iff_of_pos_right apart]

theorem distance_along_le_iff {p q : ℝ × ℝ} {s t : ℝ} (apart : 0 < distance p q) (sNonneg : 0 ≤ s)
    (tNonneg : 0 ≤ t) : distance p (along p q s) ≤ distance p (along p q t) ↔ s ≤ t := by
  rw [distance_along sNonneg, distance_along tNonneg, mul_le_mul_iff_of_pos_right apart]

theorem distance_pos {p q v : ℝ × ℝ} (nonparallel : cross (q - p) v ≠ 0) : 0 < distance p q := by
  apply Real.sqrt_pos_of_pos
  by_contra zero
  have firstSquare := mul_self_nonneg (p.1 - q.1)
  have secondSquare := mul_self_nonneg (p.2 - q.2)
  have first : p.1 - q.1 = 0 := mul_self_eq_zero.mp (by linarith)
  have second : p.2 - q.2 = 0 := mul_self_eq_zero.mp (by linarith)
  apply nonparallel
  simp only [cross, Prod.fst_sub, Prod.snd_sub]
  linear_combination -v.2 * first + v.1 * second

/-- The point `p` turned about `pivot` by `angle`. -/
noncomputable def rotated (p : ℝ × ℝ) (angle : ℝ) (pivot : ℝ × ℝ) : ℝ × ℝ :=
  ((p.1 - pivot.1) * Real.cos angle - (p.2 - pivot.2) * Real.sin angle + pivot.1,
    (p.1 - pivot.1) * Real.sin angle + (p.2 - pivot.2) * Real.cos angle + pivot.2)

end Distance

end OfxPrimes.Plane
