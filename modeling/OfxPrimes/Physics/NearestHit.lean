import OfxPrimes.Fiducial.Exact
import OfxPrimes.Physics.Routines
import OfxPrimes.Plane.Segment
import OfxPrimes.Search.Nearest

/-!
# Where a ray ends

`findMinIntersectionRay` shortens a segment again and again: each fiducial is
tested against what the fiducials before it have left of the ray.  In exact
arithmetic this is a search for the least parameter at which the whole ray
crosses a side of a fiducial, since a shorter ray has the same crossings up to
its end.
-/

namespace OfxPrimes.Physics

open OfxPrimes.Fiducial OfxPrimes.Plane OfxPrimes.Search
open OfxPrimes.Fiducial.FloatArith (exact)

/-! ## The vectors of `ofxPoint2f` in exact arithmetic -/

/-- What the routines rely on in `ofxPoint2f`. -/
structure VectorMath.Exact (math : VectorMath (Option ℝ)) : Prop where
  distance : ∀ p q, math.distance (Point.exact p) (Point.exact q) = some (Plane.distance p q)
  rotateRad : ∀ p angle pivot,
    math.rotateRad (Point.exact p) (some angle) (Point.exact pivot) =
      Point.exact (rotated p angle pivot)

theorem VectorMath.exact_ofArith : (VectorMath.ofArith exact).Exact where
  distance p q := by
    simp [VectorMath.ofArith, FloatArith.exact_hypot, Plane.distance]
  rotateRad p angle pivot := by
    simp [VectorMath.ofArith, Point.exact, rotated]

/-- The sentinel of the segment test. -/
def invalidPair : ℝ × ℝ :=
  ((-100 : ℤ), (-100 : ℤ))

theorem invalidPoint_exact : invalidPoint exact = Point.exact invalidPair := by
  simp [invalidPoint, FloatArith.invalidCoords, Point.exact, invalidPair]

/-! ## The crossings of a shape -/

/-- The sides of a closed shape, the last of which leads back to the first corner. -/
def sides (corners : List (Point (Option ℝ))) : List (Point (Option ℝ) × Point (Option ℝ)) :=
  corners.zip (corners.rotate 1)

/-- The parameters at which the segment from `p` to `q` crosses a side. -/
def sideCrossings (p q : ℝ × ℝ) (side : Point (Option ℝ) × Point (Option ℝ)) : Set ℝ :=
  { t | ∃ a b, side = (Point.exact a, Point.exact b) ∧ t ∈ crossings p q (a, b) }

/-- The parameters at which the segment from `p` to `q` crosses a side of a shape. -/
def shapeCrossings (p q : ℝ × ℝ) (corners : List (Point (Option ℝ))) : Set ℝ :=
  { t | ∃ side ∈ sides corners, t ∈ sideCrossings p q side }

theorem sideCrossings_subsingleton (p q : ℝ × ℝ) (side : Point (Option ℝ) × Point (Option ℝ)) :
    (sideCrossings p q side).Subsingleton := by
  rintro s ⟨a, b, rfl, atS⟩ t ⟨a', b', same, atT⟩
  obtain ⟨first, second⟩ := Prod.mk.inj same
  rw [← Point.exact_injective first, ← Point.exact_injective second] at atT
  exact crossings_subsingleton p q (a, b) atS atT

/-- Only a segment with a length crosses a side. -/
theorem sideCrossings_bounds {p q : ℝ × ℝ} {side : Point (Option ℝ) × Point (Option ℝ)} {t : ℝ}
    (meets : t ∈ sideCrossings p q side) : 0 < distance p q ∧ 0 ≤ t ∧ t ≤ 1 := by
  obtain ⟨a, b, -, nonparallel, nonneg, bounded, -⟩ := meets
  exact ⟨distance_pos nonparallel, nonneg, bounded⟩

theorem crossing_exact (p q a b : ℝ × ℝ) (hit : Point (Option ℝ)) :
    crossing exact (Point.exact p) (Point.exact q) (Point.exact a) (Point.exact b) = some hit ↔
      ∃ t ∈ crossings p q (a, b), Point.exact (along p q t) = hit := by
  have determinant : (q.2 - p.2) * (b.1 - a.1) - (b.2 - a.2) * (q.1 - p.1) =
      -cross (q - p) (b - a) := by
    simp only [cross, Prod.fst_sub, Prod.snd_sub]
    ring
  have onRay : (b.1 - a.1) * (a.2 - p.2) - (b.2 - a.2) * (a.1 - p.1) =
      -cross (a - p) (b - a) := by
    simp only [cross, Prod.fst_sub, Prod.snd_sub]
    ring
  have onSide : (q.1 - p.1) * (a.2 - p.2) - (q.2 - p.2) * (a.1 - p.1) =
      -cross (a - p) (q - p) := by
    simp only [cross, Prod.fst_sub, Prod.snd_sub]
    ring
  simp only [crossing, Point.exact_x, Point.exact_y, FloatArith.exact_sub, FloatArith.exact_mul,
    FloatArith.exact_div, determinant, onRay, onSide, neg_eq_zero, neg_div_neg_eq]
  by_cases parallel : cross (q - p) (b - a) = 0
  · have noCrossing : ∀ t, t ∉ crossings p q (a, b) := fun t meets => meets.1 parallel
    simp [parallel, noCrossing, exact]
  · have cramer := fun t => @mem_crossings_iff_cramer ℝ _ _ _ p q (a, b) t parallel
    simp [if_neg parallel, cramer, Point.exact, along, and_assoc]

/-- A side is crossed only if the coordinates of its ends are numbers. -/
theorem exists_exact_of_crossing {p q : ℝ × ℝ} {side : Point (Option ℝ) × Point (Option ℝ)}
    {hit : Point (Option ℝ)}
    (crosses : crossing exact (Point.exact p) (Point.exact q) side.1 side.2 = some hit) :
    ∃ a b, side = (Point.exact a, Point.exact b) := by
  rcases side with ⟨⟨cornerX, cornerY⟩, ⟨nextX, nextY⟩⟩
  simp only [crossing, Point.exact_x, Point.exact_y, Option.ite_none_right_eq_some,
    Bool.and_eq_true] at crosses
  obtain ⟨⟨⟨⟨lower, -⟩, -⟩, -⟩, -⟩ := crosses
  obtain ⟨_, la, -, quotient, -⟩ := FloatArith.exact_le_eq_true.mp lower
  obtain ⟨_, _, numerator, -, -, -⟩ := FloatArith.exact_div_eq_some.mp quotient
  obtain ⟨_, _, left, right, -⟩ := FloatArith.exact_sub_eq_some.mp numerator
  obtain ⟨_, _, width, heightTo, -⟩ := FloatArith.exact_mul_eq_some.mp left
  obtain ⟨_, _, height, widthTo, -⟩ := FloatArith.exact_mul_eq_some.mp right
  obtain ⟨nx, cx, rfl, rfl, -⟩ := FloatArith.exact_sub_eq_some.mp width
  obtain ⟨ny, cy, rfl, rfl, -⟩ := FloatArith.exact_sub_eq_some.mp height
  exact ⟨(cx, cy), (nx, ny), rfl⟩

theorem crossing_eq_some_iff {p q : ℝ × ℝ} {side : Point (Option ℝ) × Point (Option ℝ)}
    {hit : Point (Option ℝ)} :
    crossing exact (Point.exact p) (Point.exact q) side.1 side.2 = some hit ↔
      ∃ t ∈ sideCrossings p q side, Point.exact (along p q t) = hit := by
  constructor
  · intro crosses
    obtain ⟨a, b, rfl⟩ := exists_exact_of_crossing crosses
    obtain ⟨t, meets, reached⟩ := (crossing_exact p q a b hit).mp crosses
    exact ⟨t, ⟨a, b, rfl, meets⟩, reached⟩
  · rintro ⟨t, ⟨a, b, rfl, meets⟩, reached⟩
    exact (crossing_exact p q a b hit).mpr ⟨t, meets, reached⟩

/-! ## One shape -/

section Shape

variable {math : VectorMath (Option ℝ)}

theorem distance_exact_along (vectors : math.Exact) {p q : ℝ × ℝ} {t : ℝ} (nonneg : 0 ≤ t) :
    math.distance (Point.exact p) (Point.exact (along p q t)) = some (t * distance p q) := by
  rw [vectors.distance, distance_along nonneg]

/-- The comparison of distances compares parameters. -/
theorem lt_distance_exact_along (vectors : math.Exact) {p q : ℝ × ℝ} {s t : ℝ}
    (apart : 0 < distance p q) (nonneg : 0 ≤ t) :
    exact.lt (math.distance (Point.exact p) (Point.exact (along p q t)))
      (some (s * distance p q)) = decide (t < s) := by
  rw [distance_exact_along vectors nonneg, FloatArith.exact_lt]
  exact decide_eq_decide.mpr (mul_lt_mul_iff_of_pos_right apart)

/-- One round of the loop of the segment test. -/
noncomputable def testSide (math : VectorMath (Option ℝ)) (origin endpoint : Point (Option ℝ))
    (best : Option ℝ × Point (Option ℝ)) (side : Point (Option ℝ) × Point (Option ℝ)) :
    Option ℝ × Point (Option ℝ) :=
  (crossing exact origin endpoint side.1 side.2).elim best fun hitPoint =>
    if exact.lt (math.distance origin hitPoint) best.1 then
      (math.distance origin hitPoint, hitPoint)
    else best

theorem lineSegmentTest_eq (origin endpoint : Point (Option ℝ))
    (corners : List (Point (Option ℝ))) :
    lineSegmentTest exact math origin endpoint corners =
      ((sides corners).foldl (testSide math origin endpoint)
        (math.distance origin endpoint, invalidPoint exact)).2 := by
  simp only [lineSegmentTest, sides]
  congr 2
  funext best side
  unfold testSide
  cases crossing exact origin endpoint side.1 side.2 <;> rfl

/-- What the loop of the segment test keeps, as the state of a search for the
least parameter. -/
structure TestView (p q : ℝ × ℝ) (state : Option ℝ × Point (Option ℝ))
    (best : Best (Point (Option ℝ) × Point (Option ℝ)) ℝ) : Prop where
  dist : state.1 = some (best.key * distance p q)
  hit : state.2 = best.item.elim (Point.exact invalidPair) fun _ =>
    Point.exact (along p q best.key)

theorem testSide_takes (vectors : math.Exact) {p q : ℝ × ℝ}
    {state : Option ℝ × Point (Option ℝ)}
    {best : Best (Point (Option ℝ) × Point (Option ℝ)) ℝ} (viewed : TestView p q state best)
    (side : Point (Option ℝ) × Point (Option ℝ)) :
    ∃ next, TestView p q (testSide math (Point.exact p) (Point.exact q) state side) next ∧
      Takes (sideCrossings p q) best side next := by
  unfold testSide
  cases crosses : crossing exact (Point.exact p) (Point.exact q) side.1 side.2 with
  | none =>
      refine ⟨best, viewed, Takes.keep fun t meets => ?_⟩
      have found := crossing_eq_some_iff.mpr ⟨t, meets, rfl⟩
      rw [crosses] at found
      contradiction
  | some hitPoint =>
      obtain ⟨t, meets, rfl⟩ := crossing_eq_some_iff.mp crosses
      have only : ∀ s ∈ sideCrossings p q side, s = t := fun s other =>
        sideCrossings_subsingleton p q side other meets
      obtain ⟨apart, nonneg, -⟩ := sideCrossings_bounds meets
      rw [Option.elim_some, viewed.dist, lt_distance_exact_along vectors apart nonneg]
      by_cases less : t < best.key
      · rw [if_pos (decide_eq_true less)]
        refine ⟨⟨t, some side⟩, ⟨?_, rfl⟩,
          Takes.take t ⟨meets, fun s other => (only s other).ge⟩ less⟩
        exact distance_exact_along vectors nonneg
      · rw [if_neg (by simpa using less)]
        exact ⟨best, viewed, Takes.keep fun s other => (only s other).symm ▸ not_lt.mp less⟩

/-- The segment test finds the first of the crossings of a shape. -/
theorem lineSegmentTest_search (vectors : math.Exact) (p q : ℝ × ℝ)
    (corners : List (Point (Option ℝ))) :
    ∃ best, FirstLeast (sideCrossings p q) 1 (sides corners) best ∧
      lineSegmentTest exact math (Point.exact p) (Point.exact q) corners =
        best.item.elim (Point.exact invalidPair) fun _ => Point.exact (along p q best.key) := by
  have started : TestView p q
      (math.distance (Point.exact p) (Point.exact q), invalidPoint exact) ⟨1, none⟩ := by
    constructor
    case dist => rw [vectors.distance, one_mul]
    case hit => exact invalidPoint_exact
  obtain ⟨best, viewed, least⟩ := foldl_firstLeast (sides corners) started
    fun state best viewed _ side _ => testSide_takes vectors viewed side
  refine ⟨best, least, ?_⟩
  rw [lineSegmentTest_eq, viewed.hit]

/-- A segment shortened to the parameter `s` is crossed at the same points before its
end. -/
theorem mem_sideCrossings_along {p q : ℝ × ℝ} {side : Point (Option ℝ) × Point (Option ℝ)}
    {s t : ℝ} (positive : 0 < s) (bounded : s ≤ 1) :
    t ∈ sideCrossings p (along p q s) side ↔ t ≤ 1 ∧ t * s ∈ sideCrossings p q side := by
  constructor
  · rintro ⟨a, b, rfl, meets⟩
    obtain ⟨upper, shorter⟩ := (mem_crossings_along positive bounded).mp meets
    exact ⟨upper, a, b, rfl, shorter⟩
  · rintro ⟨upper, a, b, rfl, meets⟩
    exact ⟨a, b, rfl, (mem_crossings_along positive bounded).mpr ⟨upper, meets⟩⟩

theorem div_mem_sideCrossings_along {p q : ℝ × ℝ} {side : Point (Option ℝ) × Point (Option ℝ)}
    {s t : ℝ} (positive : 0 < s) (bounded : s ≤ 1) (before : t ≤ s)
    (meets : t ∈ sideCrossings p q side) : t / s ∈ sideCrossings p (along p q s) side := by
  apply (mem_sideCrossings_along positive bounded).mpr
  rw [div_mul_cancel₀ t positive.ne']
  exact ⟨(div_le_one positive).mpr before, meets⟩

/-- The test of a shape with what is left of a ray: nothing is left to cross, or
the least crossing of the whole ray is before the end. -/
theorem lineSegmentTest_along (vectors : math.Exact) {p q : ℝ × ℝ} {s : ℝ} (nonneg : 0 ≤ s)
    (bounded : s ≤ 1) (corners : List (Point (Option ℝ))) :
    ((∀ t ∈ shapeCrossings p q corners, s ≤ t) ∧
      lineSegmentTest exact math (Point.exact p) (Point.exact (along p q s)) corners =
        Point.exact invalidPair) ∨
    ∃ t, t < s ∧ IsLeast (shapeCrossings p q corners) t ∧
      lineSegmentTest exact math (Point.exact p) (Point.exact (along p q s)) corners =
        Point.exact (along p q t) := by
  obtain ⟨best, least, tested⟩ := lineSegmentTest_search vectors p (along p q s) corners
  rw [tested]
  cases reached : best.item with
  | none =>
      refine Or.inl ⟨?_, rfl⟩
      rintro t ⟨side, listed, meets⟩
      by_contra before
      have less : t < s := not_le.mp before
      have positive : 0 < s := lt_of_le_of_lt (sideCrossings_bounds meets).2.1 less
      have scaled := div_mem_sideCrossings_along positive bounded less.le meets
      have late := least.item_eq_none_iff.mp reached side listed (t / s) scaled
      exact absurd ((one_le_div positive).mp late) (not_le.mpr less)
  | some side =>
      obtain ⟨below, meets, front, back, split, -⟩ := least.found side reached
      have positive : 0 < s := by
        apply lt_of_le_of_ne nonneg
        rintro rfl
        obtain ⟨a, b, -, crosses⟩ := meets
        rw [crossings_along_zero] at crosses
        exact crosses
      obtain ⟨upper, whole⟩ := (mem_sideCrossings_along positive bounded).mp meets
      refine Or.inr
        ⟨best.key * s, mul_lt_of_lt_one_left positive below, ⟨⟨side, ?_, whole⟩, ?_⟩, ?_⟩
      · simp [split]
      · rintro t ⟨other, listed, crosses⟩
        rcases le_total t s with before | after
        · have scaled := div_mem_sideCrossings_along positive bounded before crosses
          exact (le_div_iff₀ positive).mp (least.lower other listed _ scaled)
        · exact (mul_le_of_le_one_left positive.le upper).trans after
      · rw [Option.elim_some, along_along]

end Shape

/-! ## The fiducials one after the other -/

section Loop

variable {math : VectorMath (Option ℝ)} {origin target : ℝ × ℝ} {nearest : Nearest (Option ℝ)}
  {best : Best (OfxFiducial (Option ℝ)) ℝ}

/-- What the loop over the fiducials keeps, as the state of a search. -/
structure RayView (origin target : ℝ × ℝ) (nearest : Nearest (Option ℝ))
    (best : Best (OfxFiducial (Option ℝ)) ℝ) : Prop where
  nonneg : 0 ≤ best.key
  bounded : best.key ≤ 1
  dist : nearest.minDist = some (best.key * distance origin target)
  hit : nearest.firstHitPoint = Point.exact (along origin target best.key)
  fiducial : nearest.hitFiducial = best.item

/-- The test of the coordinates of a hit point. -/
theorem nonneg_test (p : ℝ × ℝ) :
    (exact.le (exact.ofInt 0) (Point.exact p).x && exact.le (exact.ofInt 0) (Point.exact p).y) =
      decide (0 ≤ p) := by
  simp [Prod.le_def]

/-- One round of the loop: the fiducial is passed over, since its crossings are not
before the nearest hit or the first of them has a negative coordinate, or it
becomes the nearest. -/
theorem checkFiducial_cases (vectors : math.Exact) (viewed : RayView origin target nearest best)
    (chkFiducial : OfxFiducial (Option ℝ)) :
    (checkFiducial exact math (Point.exact origin) nearest chkFiducial = nearest ∧
      ((∀ t ∈ shapeCrossings origin target chkFiducial.cornerPoints, best.key ≤ t) ∨
        ∃ t, IsLeast (shapeCrossings origin target chkFiducial.cornerPoints) t ∧
          ¬ 0 ≤ along origin target t)) ∨
    ∃ t, t < best.key ∧ IsLeast (shapeCrossings origin target chkFiducial.cornerPoints) t ∧
      0 ≤ along origin target t ∧
      RayView origin target (checkFiducial exact math (Point.exact origin) nearest chkFiducial)
        ⟨t, some chkFiducial⟩ := by
  unfold checkFiducial
  rw [viewed.hit]
  rcases lineSegmentTest_along vectors viewed.nonneg viewed.bounded chkFiducial.cornerPoints with
    ⟨later, missed⟩ | ⟨t, less, isLeast, tested⟩
  · have negative : ¬ (0 : ℝ × ℝ) ≤ invalidPair := by
      rintro ⟨first, -⟩
      norm_num [invalidPair] at first
    rw [missed]
    simp only [nonneg_test, decide_eq_true_eq, if_neg negative]
    exact Or.inl ⟨trivial, Or.inl later⟩
  · rw [tested]
    simp only [nonneg_test, decide_eq_true_eq]
    obtain ⟨side, -, meets⟩ := isLeast.1
    obtain ⟨apart, nonneg, bounded⟩ := sideCrossings_bounds meets
    by_cases visible : 0 ≤ along origin target t
    · have nearer : exact.lt
          (math.distance (Point.exact origin) (Point.exact (along origin target t)))
          nearest.minDist = true := by
        rw [viewed.dist, lt_distance_exact_along vectors apart nonneg, decide_eq_true less]
      rw [if_pos visible, if_pos nearer]
      refine Or.inr ⟨t, less, isLeast, visible, ?_⟩
      constructor
      case nonneg => exact nonneg
      case bounded => exact bounded
      case dist => exact distance_exact_along vectors nonneg
      case hit => rfl
      case fiducial => rfl
    · rw [if_neg visible]
      exact Or.inl ⟨rfl, Or.inr ⟨t, isLeast, visible⟩⟩

/-- The crossings of a fiducial that are not at negative coordinates. -/
def visibleCrossings (origin target : ℝ × ℝ) (fiducial : OfxFiducial (Option ℝ)) : Set ℝ :=
  { t | t ∈ shapeCrossings origin target fiducial.cornerPoints ∧ 0 ≤ along origin target t }

/-- The points of the segment at negative coordinates come after the others. -/
def VisibleFirst (origin target : ℝ × ℝ) : Prop :=
  ∀ s t, 0 ≤ s → s ≤ t → t ≤ 1 → 0 ≤ along origin target t → 0 ≤ along origin target s

theorem shapeCrossings_bounds {corners : List (Point (Option ℝ))} {t : ℝ}
    (meets : t ∈ shapeCrossings origin target corners) :
    0 < distance origin target ∧ 0 ≤ t ∧ t ≤ 1 := by
  obtain ⟨side, -, crosses⟩ := meets
  exact sideCrossings_bounds crosses

theorem checkFiducial_takes (vectors : math.Exact) (first : VisibleFirst origin target)
    (viewed : RayView origin target nearest best) (chkFiducial : OfxFiducial (Option ℝ)) :
    ∃ next,
      RayView origin target (checkFiducial exact math (Point.exact origin) nearest chkFiducial)
        next ∧
      Takes (visibleCrossings origin target) best chkFiducial next := by
  rcases checkFiducial_cases vectors viewed chkFiducial with
    ⟨same, passed⟩ | ⟨t, less, isLeast, visible, viewedNext⟩
  · rw [same]
    refine ⟨best, viewed, Takes.keep ?_⟩
    rintro t ⟨meets, visible⟩
    rcases passed with later | ⟨s, isLeast, hidden⟩
    · exact later t meets
    · -- A crossing at negative coordinates hides all later ones.
      have bounds := shapeCrossings_bounds meets
      exact absurd
        (first s t (shapeCrossings_bounds isLeast.1).2.1 (isLeast.2 meets) bounds.2.2 visible)
        hidden
  · exact ⟨_, viewedNext,
      Takes.take t ⟨⟨isLeast.1, visible⟩, fun s other => isLeast.2 other.1⟩ less⟩

/-- What the loop starts from. -/
theorem rayView_start (vectors : math.Exact) (origin target : ℝ × ℝ) :
    RayView origin target
      { minDist := math.distance (Point.exact origin) (Point.exact target)
        firstHitPoint := Point.exact target
        hitFiducial := none } ⟨1, none⟩ := by
  constructor
  case nonneg => exact zero_le_one
  case bounded => exact le_refl 1
  case dist => rw [vectors.distance, one_mul]
  case hit => rw [along_one]
  case fiducial => rfl

/-- Whatever fiducial the loop keeps, the hit point is one of its crossings. -/
theorem foldl_checkFiducial_onOutline (vectors : math.Exact)
    (fiducials : List (OfxFiducial (Option ℝ))) (viewed : RayView origin target nearest best)
    (meets : ∀ fiducial, best.item = some fiducial →
      best.key ∈ shapeCrossings origin target fiducial.cornerPoints) :
    ∃ next,
      RayView origin target
        (fiducials.foldl (checkFiducial exact math (Point.exact origin)) nearest) next ∧
      ∀ fiducial, next.item = some fiducial →
        next.key ∈ shapeCrossings origin target fiducial.cornerPoints := by
  induction fiducials generalizing nearest best with
  | nil => exact ⟨best, viewed, meets⟩
  | cons chkFiducial rest ih =>
      rw [List.foldl_cons]
      rcases checkFiducial_cases vectors viewed chkFiducial with
        ⟨same, -⟩ | ⟨t, -, isLeast, -, viewedNext⟩
      · rw [same]
        exact ih viewed meets
      · apply ih viewedNext
        rintro fiducial ⟨rfl⟩
        exact isLeast.1

end Loop

section Ray

variable {math : VectorMath (Option ℝ)} {windowCorners : Option (List (Point (Option ℝ)))}
  {fiducialsList : List (OfxFiducial (Option ℝ))} {position : Nat} {origin target : ℝ × ℝ}
  {angle : ℝ}

/-- The end of a ray of length `MAX_INTERSECTION_DIST`. -/
noncomputable def rayEnd (origin : ℝ × ℝ) (angle : ℝ) : ℝ × ℝ :=
  rotated (origin.1 + 1000, origin.2) angle origin

/-- The answer of the window test: the point of the window's edge that the ray
reaches. -/
noncomputable def windowTest (math : VectorMath (Option ℝ))
    (windowCorners : Option (List (Point (Option ℝ)))) (origin : ℝ × ℝ) (angle : ℝ) :
    Point (Option ℝ) :=
  intersectsWindowEdge exact math windowCorners (Point.exact origin)
    (Point.exact (rayEnd origin angle))

theorem findMinIntersectionRay_eq (vectors : math.Exact)
    (edge : windowTest math windowCorners origin angle = Point.exact target) :
    findMinIntersectionRay exact math windowCorners fiducialsList position (Point.exact origin)
        (some angle) =
      let nearest := (fiducialsList.eraseIdx position).foldl
        (checkFiducial exact math (Point.exact origin))
        { minDist := math.distance (Point.exact origin) (Point.exact target)
          firstHitPoint := Point.exact target
          hitFiducial := none }
      (nearest.hitFiducial, nearest.firstHitPoint) := by
  have ray : math.rotateRad
      ⟨exact.add (Point.exact origin).x (maxIntersectionDist exact), (Point.exact origin).y⟩
      (some angle) (Point.exact origin) = Point.exact (rayEnd origin angle) := by
    have turned := vectors.rotateRad (origin.1 + 1000, origin.2) angle origin
    simpa [maxIntersectionDist, Point.exact, rayEnd] using turned
  unfold findMinIntersectionRay
  rw [ray]
  unfold windowTest at edge
  simp only [edge]

/-- The loop finds the first of the visible crossings of the listed fiducials. -/
theorem findMinIntersectionRay_search (vectors : math.Exact) (first : VisibleFirst origin target)
    (fiducialsList : List (OfxFiducial (Option ℝ))) (position : Nat)
    (edge : windowTest math windowCorners origin angle = Point.exact target) :
    ∃ best, FirstLeast (visibleCrossings origin target) 1 (fiducialsList.eraseIdx position) best ∧
      findMinIntersectionRay exact math windowCorners fiducialsList position (Point.exact origin)
        (some angle) = (best.item, Point.exact (along origin target best.key)) := by
  rw [findMinIntersectionRay_eq vectors edge]
  obtain ⟨best, viewed, least⟩ := foldl_firstLeast (fiducialsList.eraseIdx position)
    (rayView_start vectors origin target)
    fun nearest best viewed _ fiducial _ => checkFiducial_takes vectors first viewed fiducial
  exact ⟨best, least, Prod.ext viewed.fiducial viewed.hit⟩

/-- The ray ends on the segment to the point of the window test, at a side of the
fiducial it hits. -/
theorem findMinIntersectionRay_onOutline (vectors : math.Exact)
    (fiducialsList : List (OfxFiducial (Option ℝ))) (position : Nat)
    (edge : windowTest math windowCorners origin angle = Point.exact target) :
    ∃ fiducial t, 0 ≤ t ∧ t ≤ 1 ∧
      findMinIntersectionRay exact math windowCorners fiducialsList position (Point.exact origin)
        (some angle) = (fiducial, Point.exact (along origin target t)) ∧
      ∀ hit, fiducial = some hit → t ∈ shapeCrossings origin target hit.cornerPoints := by
  rw [findMinIntersectionRay_eq vectors edge]
  obtain ⟨best, viewed, meets⟩ := foldl_checkFiducial_onOutline vectors
    (fiducialsList.eraseIdx position) (rayView_start vectors origin target) (by simp)
  exact ⟨best.item, best.key, viewed.nonneg, viewed.bounded,
    Prod.ext viewed.fiducial viewed.hit, meets⟩

end Ray

end OfxPrimes.Physics
