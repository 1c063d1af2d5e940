import Mathlib.Topology.Order.OrderClosed
import Mathlib.Topology.Algebra.Order.Field
import OfxPrimes.Plane.Quadrilateral

/-!
# The even-odd rule on the sides of a quadrilateral

A side contains the upper of its ends but not the lower one, and a point on a
side counts as one to its left.  So a point is counted like those near it to
the left and, much less, below: none of these is on a side.
-/

namespace OfxPrimes.Plane

open Filter Topology

/-- The point to the left of `x` by `δ`, and below it by the square of that. -/
def leaning (x : ℝ × ℝ) (δ : ℝ) : ℝ × ℝ :=
  (x.1 - δ, x.2 - δ * δ)

/-- The points near `x` to the left and, much less, below are strictly inside. -/
def LeansInto (corners : Fin 4 → ℝ × ℝ) (x : ℝ × ℝ) : Prop :=
  ∀ᶠ δ in 𝓝[>] (0 : ℝ), StrictlyInside corners (leaning x δ)

variable {x a b : ℝ × ℝ}

theorem turn_leaning (δ : ℝ) :
    turn a b (leaning x δ) = turn a b x + (b.2 - a.2) * δ + (a.1 - b.1) * (δ * δ) := by
  simp only [turn, cross, leaning, Prod.fst_sub, Prod.snd_sub]
  ring

theorem tendsto_leaning (x : ℝ × ℝ) : Tendsto (leaning x) (𝓝[>] 0) (𝓝 x) := by
  have continuous : Continuous (leaning x) := by
    unfold leaning
    fun_prop
  have atZero : leaning x 0 = x := by simp [leaning]
  have limit := continuous.tendsto 0
  rw [atZero] at limit
  exact limit.mono_left nhdsWithin_le_nhds

/-- A polynomial without a zero at the origin keeps its sign near it. -/
theorem eventually_pos {t : ℝ} (u v : ℝ) (positive : 0 < t) :
    ∀ᶠ δ in 𝓝[>] (0 : ℝ), 0 < t + u * δ + v * (δ * δ) := by
  have continuous : Continuous fun δ : ℝ => t + u * δ + v * (δ * δ) := by fun_prop
  have limit := continuous.tendsto 0
  simp only [mul_zero, add_zero] at limit
  exact (limit.mono_left nhdsWithin_le_nhds).eventually (lt_mem_nhds positive)

theorem eventually_pos_of_zero {u : ℝ} (v : ℝ) (positive : 0 < u) :
    ∀ᶠ δ in 𝓝[>] (0 : ℝ), 0 < 0 + u * δ + v * (δ * δ) := by
  filter_upwards [eventually_pos v 0 positive, self_mem_nhdsWithin] with δ factor right
  have product := mul_pos factor right
  linarith

theorem eventually_ne_zero {t : ℝ} (u v : ℝ) (nonzero : t ≠ 0) :
    ∀ᶠ δ in 𝓝[>] (0 : ℝ), t + u * δ + v * (δ * δ) ≠ 0 := by
  rcases nonzero.lt_or_gt with negative | positive
  · filter_upwards [eventually_pos (-u) (-v) (neg_pos.mpr negative)] with δ opposite zero
    linarith
  · filter_upwards [eventually_pos u v positive] with δ same
    exact same.ne'

/-! ## The crossed sides -/

/-- Near the point, a height is passed as at the point, where its own is not. -/
theorem eventually_above (x : ℝ × ℝ) (height : ℝ) :
    ∀ᶠ δ in 𝓝[>] (0 : ℝ), height < (leaning x δ).2 ↔ height < x.2 := by
  by_cases above : height < x.2
  · filter_upwards [eventually_pos 0 (-1) (sub_pos.mpr above)] with δ still
    have passed : height < x.2 - δ * δ := by linarith
    exact iff_of_true passed above
  · filter_upwards with δ
    have lower : (leaning x δ).2 ≤ x.2 := sub_le_self _ (mul_self_nonneg δ)
    exact iff_of_false (fun passed => above (passed.trans_le lower)) above

/-- Near the point, a rising side is passed on the left or met at the point itself as
it is at the point. -/
theorem eventually_left (x : ℝ × ℝ) (rising : a.2 < b.2) :
    ∀ᶠ δ in 𝓝[>] (0 : ℝ), 0 ≤ turn a b (leaning x δ) ↔ 0 ≤ turn a b x := by
  have slope := sub_pos.mpr rising
  rcases lt_trichotomy (turn a b x) 0 with right | level | left
  · filter_upwards [eventually_pos (-(b.2 - a.2)) (-(a.1 - b.1)) (neg_pos.mpr right)] with δ still
    rw [turn_leaning]
    exact iff_of_false (by linarith) right.not_ge
  · filter_upwards [eventually_pos_of_zero (a.1 - b.1) slope] with δ still
    rw [turn_leaning, level]
    exact iff_of_true still.le le_rfl
  · filter_upwards [eventually_pos (b.2 - a.2) (a.1 - b.1) left] with δ still
    rw [turn_leaning]
    exact iff_of_true still.le left.le

/-- The same for a falling side, passed on the right. -/
theorem eventually_right (x : ℝ × ℝ) (falling : b.2 < a.2) :
    ∀ᶠ δ in 𝓝[>] (0 : ℝ), turn a b (leaning x δ) ≤ 0 ↔ turn a b x ≤ 0 := by
  have mirrored (y : ℝ × ℝ) : turn a b y ≤ 0 ↔ 0 ≤ turn b a y := by
    have negated : turn b a y = -turn a b y := by
      simp only [turn, cross, Prod.fst_sub, Prod.snd_sub]
      ring
    rw [negated, neg_nonneg]
  filter_upwards [eventually_left x falling] with δ same
  rw [mirrored, mirrored, same]

/-- Near the point, a side is crossed as at the point. -/
theorem eventually_crossesRight (x a b : ℝ × ℝ) :
    ∀ᶠ δ in 𝓝[>] (0 : ℝ), CrossesRight (leaning x δ) a b ↔ CrossesRight x a b := by
  have apart {y p q : ℝ × ℝ} (order : p.2 ≤ q.2) : ¬ Rises y q p :=
    fun rises => (rises.1.trans_le rises.2).not_ge order
  have heights : ∀ᶠ δ in 𝓝[>] (0 : ℝ), ∀ p q : ℝ × ℝ, p = a ∧ q = b ∨ p = b ∧ q = a →
      (Rises (leaning x δ) p q ↔ Rises x p q) := by
    filter_upwards [eventually_above x a.2, eventually_above x b.2] with δ first second
    rintro p q (⟨rfl, rfl⟩ | ⟨rfl, rfl⟩)
    · rw [Rises, Rises, first, ← not_lt, ← not_lt, second]
    · rw [Rises, Rises, second, ← not_lt, ← not_lt, first]
  rcases lt_trichotomy a.2 b.2 with rising | level | falling
  · filter_upwards [heights, eventually_left x rising] with δ same side
    rw [CrossesRight, CrossesRight, same a b (Or.inl ⟨rfl, rfl⟩), side]
    simp only [apart rising.le, false_and, or_false]
  · filter_upwards with δ
    simp only [CrossesRight, apart level.le, apart level.ge, false_and, or_self]
  · filter_upwards [heights, eventually_right x falling] with δ same side
    rw [CrossesRight, CrossesRight, same b a (Or.inr ⟨rfl, rfl⟩), side]
    simp only [apart falling.le, false_and, false_or]

/-- The points near a point, to the left and much less below, are on no line. -/
theorem eventually_turn_ne_zero (x : ℝ × ℝ) (different : a ≠ b) :
    ∀ᶠ δ in 𝓝[>] (0 : ℝ), turn a b (leaning x δ) ≠ 0 := by
  simp only [turn_leaning]
  by_cases through : turn a b x = 0
  · rw [through]
    by_cases level : b.2 - a.2 = 0
    · have width : a.1 - b.1 ≠ 0 := fun upright =>
        different (Prod.ext (sub_eq_zero.mp upright) (sub_eq_zero.mp level).symm)
      rw [level]
      filter_upwards [self_mem_nhdsWithin] with δ right
      simp only [zero_mul, zero_add]
      exact mul_ne_zero width (mul_pos right right).ne'
    · filter_upwards [eventually_ne_zero (a.1 - b.1) 0 level, self_mem_nhdsWithin]
        with δ factor right
      have product := mul_ne_zero factor (ne_of_gt right)
      ring_nf at product ⊢
      exact product
  · exact eventually_ne_zero _ _ through

theorem eventually_off {corners : Fin 4 → ℝ × ℝ} (x : ℝ × ℝ)
    (different : ∀ i, corners i ≠ corners (i + 1)) :
    ∀ᶠ δ in 𝓝[>] (0 : ℝ), ¬ OnBoundary corners (leaning x δ) := by
  filter_upwards [eventually_all.mpr fun i => eventually_turn_ne_zero x (different i)] with δ apart
  rintro ⟨i, onSide⟩
  apply apart i
  obtain ⟨t, -, -, same⟩ := mem_segment_iff.mp onSide
  rw [← same]
  simp only [turn, cross, along, Prod.fst_sub, Prod.snd_sub]
  ring

/-- The even-odd rule for all points: one is counted if those near it to the left and,
much less, below are inside. -/
theorem crossings_odd_iff_leansInto {corners : Fin 4 → ℝ × ℝ} (convex : StrictlyConvex corners)
    (crossed : Fin 4 → Bool)
    (counted : ∀ i, crossed i = true ↔ CrossesRight x (corners i) (corners (i + 1))) :
    (crossed 0 ^^ crossed 1 ^^ crossed 2 ^^ crossed 3) = true ↔ LeansInto corners x := by
  have different (i : Fin 4) : corners i ≠ corners (i + 1) := by
    intro same
    rcases convex with left | right
    · have area := left i
      rw [← same] at area
      simp [turn, cross] at area
    · have area := right i
      rw [← same] at area
      simp [turn, cross] at area
  have near : ∀ᶠ δ in 𝓝[>] (0 : ℝ),
      ((crossed 0 ^^ crossed 1 ^^ crossed 2 ^^ crossed 3) = true ↔
        StrictlyInside corners (leaning x δ)) := by
    filter_upwards [eventually_off x different,
      eventually_all.mpr fun i => eventually_crossesRight x (corners i) (corners (i + 1))]
      with δ off same
    apply crossings_odd_iff convex off
    intro i
    rw [counted, same]
  rw [LeansInto, ← eventually_congr near, eventually_const]

end OfxPrimes.Plane
