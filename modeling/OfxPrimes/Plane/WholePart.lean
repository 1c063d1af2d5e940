import Mathlib.Algebra.Order.Archimedean.Real.Basic
import Mathlib.Algebra.Order.Floor.Ring
import Mathlib.Order.Interval.Set.LinearOrder

/-!
# Boxes of points by their whole parts

The whole part of a number is what is left of it when it is cut off towards zero.
The points whose whole parts lie strictly inside a box make up a box again, with
whole numbers for its edges.  It is never the inside of a box at the origin.
-/

namespace OfxPrimes.Plane

/-- The number, cut off towards zero. -/
noncomputable def wholePart (t : ℝ) : ℤ :=
  if t < 0 then ⌈t⌉ else ⌊t⌋

theorem wholePart_intCast (n : ℤ) : wholePart n = n := by
  simp [wholePart]

/-- The numbers from the first whole one that is greater than a bound.  Cutting
off leads to 0 from both sides, so below 0 they begin one earlier. -/
noncomputable def above (lower : ℝ) : Set ℝ :=
  if 0 ≤ lower then Set.Ici (⌊lower⌋ + 1) else Set.Ioi ⌊lower⌋

/-- The numbers up to the last whole one that is less than a bound, and above 0
those that are cut off to it. -/
noncomputable def below (upper : ℝ) : Set ℝ :=
  if 0 < upper then Set.Iio ⌈upper⌉ else Set.Iic (⌈upper⌉ - 1)

theorem lt_wholePart_iff (lower t : ℝ) : lower < wholePart t ↔ t ∈ above lower := by
  rw [← Int.floor_lt, wholePart, above]
  by_cases negative : t < 0
  · rw [if_pos negative, Int.lt_ceil]
    by_cases nonneg : 0 ≤ lower
    · have floorNonneg : (0 : ℝ) ≤ ⌊lower⌋ := Int.cast_nonneg (Int.floor_nonneg.mpr nonneg)
      rw [if_pos nonneg, Set.mem_Ici]
      constructor
      · intro less
        exact absurd (floorNonneg.trans_lt less) negative.not_gt
      · exact fun _ => by linarith
    · rw [if_neg nonneg, Set.mem_Ioi]
  · rw [if_neg negative, Int.lt_floor_iff]
    by_cases nonneg : 0 ≤ lower
    · rw [if_pos nonneg, Set.mem_Ici]
    · have floorNegative : (⌊lower⌋ : ℝ) + 1 ≤ 0 := by
        exact_mod_cast Int.floor_lt_zero.mpr (not_le.mp nonneg)
      rw [if_neg nonneg, Set.mem_Ioi]
      constructor
      · exact fun _ => by linarith
      · exact fun _ => by linarith

theorem wholePart_lt_iff (upper t : ℝ) : wholePart t < upper ↔ t ∈ below upper := by
  rw [← Int.lt_ceil, wholePart, below]
  by_cases negative : t < 0
  · rw [if_pos negative, ← Int.le_sub_one_iff, Int.ceil_le, Int.cast_sub, Int.cast_one]
    by_cases positive : 0 < upper
    · have ceilPositive : (1 : ℝ) ≤ ⌈upper⌉ := by exact_mod_cast Int.ceil_pos.mpr positive
      rw [if_pos positive, Set.mem_Iio]
      constructor
      · exact fun _ => by linarith
      · exact fun _ => by linarith
    · rw [if_neg positive, Set.mem_Iic]
  · rw [if_neg negative, Int.floor_lt]
    by_cases positive : 0 < upper
    · rw [if_pos positive, Set.mem_Iio]
    · have ceilNonpos : (⌈upper⌉ : ℝ) ≤ 0 := by
        exact_mod_cast Int.ceil_le.mpr (by simpa using positive)
      rw [if_neg positive, Set.mem_Iic]
      constructor
      · exact fun _ => by linarith
      · exact fun _ => by linarith

/-- The inside of a rectangle of a size, with a corner at the origin. -/
def inside (size : ℝ × ℝ) : Set (ℝ × ℝ) :=
  Set.Ioo 0 size.1 ×ˢ Set.Ioo 0 size.2

/-- The inside of the same rectangle with the corner elsewhere. -/
def insideAt (corner size : ℝ × ℝ) : Set (ℝ × ℝ) :=
  Set.Ioo corner.1 (corner.1 + size.1) ×ˢ Set.Ioo corner.2 (corner.2 + size.2)

/-- The points whose whole parts lie inside that rectangle. -/
noncomputable def wholesInside (corner size : ℝ × ℝ) : Set (ℝ × ℝ) :=
  (above corner.1 ∩ below (corner.1 + size.1)) ×ˢ (above corner.2 ∩ below (corner.2 + size.2))

theorem mem_wholesInside_iff (corner size p : ℝ × ℝ) :
    p ∈ wholesInside corner size ↔
      ((wholePart p.1 : ℝ), (wholePart p.2 : ℝ)) ∈ insideAt corner size := by
  simp only [wholesInside, insideAt, Set.mem_prod, Set.mem_inter_iff, Set.mem_Ioo,
    lt_wholePart_iff, wholePart_lt_iff]

/-- If a positive number less than 1 has its whole part between two bounds, so has 0. -/
theorem zero_mem_of_small {lower upper t : ℝ} (positive : 0 < t) (small : t < 1)
    (mem : t ∈ above lower ∩ below upper) : (0 : ℝ) ∈ above lower ∩ below upper := by
  have cutOff : wholePart t = wholePart 0 := by
    have floor : ⌊t⌋ = 0 := Int.floor_eq_zero_iff.mpr ⟨positive.le, small⟩
    simp [wholePart, positive.le.not_gt, floor]
  rw [Set.mem_inter_iff, ← lt_wholePart_iff, ← wholePart_lt_iff] at mem ⊢
  rwa [← cutOff]

/-- Some point lies in just one of the inside of a rectangle at the origin and the
points whose whole parts lie inside the shifted one. -/
theorem exists_mem_inside_iff_not (corner : ℝ × ℝ) {size : ℝ × ℝ} (wide : 0 < size.1)
    (high : 0 < size.2) :
    ∃ p, ¬ (p ∈ wholesInside corner size ↔ p ∈ inside size) := by
  obtain ⟨t, positive, small⟩ : ∃ t, 0 < t ∧ t < min size.1 1 :=
    exists_between (lt_min wide one_pos)
  obtain ⟨inSize, inUnit⟩ := lt_min_iff.mp small
  obtain ⟨u, uPositive, inHeight⟩ := exists_between high
  by_cases mem : (t, u) ∈ wholesInside corner size
  · refine ⟨(0, u), fun agree => ?_⟩
    have atEdge := agree.mp ⟨zero_mem_of_small positive inUnit mem.1, mem.2⟩
    exact lt_irrefl _ atEdge.1.1
  · exact ⟨(t, u), fun agree => mem (agree.mpr ⟨⟨positive, inSize⟩, uPositive, inHeight⟩)⟩

end OfxPrimes.Plane
