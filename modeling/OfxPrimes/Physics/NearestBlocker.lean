import OfxPrimes.Physics.Obstacles

/-!
# What the search returns, for any origin

A fiducial counts at the first point where the ray meets it, and not at all if
that point has a negative coordinate.  `findMinIntersectionRay` returns the
nearest fiducial that counts.  Neither the origin nor the end of the ray has to
be inside the window here.
-/

namespace OfxPrimes.Physics

open OfxPrimes.Fiducial OfxPrimes.Plane OfxPrimes.Search
open OfxPrimes.Fiducial.FloatArith (exact)

variable {math : VectorMath (Option ℝ)} {windowCorners : Option (List (Point (Option ℝ)))}
  {fiducialsList : List (OfxFiducial (Option ℝ))} {position : Nat} {origin target p : ℝ × ℝ}
  {angle : ℝ} {corners : List (Point (Option ℝ))} {fiducial : OfxFiducial (Option ℝ)}

/-! ## The first crossing of a shape -/

/-- The segment meets the shape at `p` and no earlier. -/
def MeetsFirstAt (origin target : ℝ × ℝ) (corners : List (Point (Option ℝ))) (p : ℝ × ℝ) :
    Prop :=
  Crosses origin target corners p ∧
    ∀ q, Crosses origin target corners q → distance origin p ≤ distance origin q

theorem meetsFirstAt_iff :
    MeetsFirstAt origin target corners p ↔
      ∃ t, IsLeast (shapeCrossings origin target corners) t ∧ t < 1 ∧
        along origin target t = p := by
  constructor
  · rintro ⟨crosses, first⟩
    obtain ⟨t, meets, less, rfl⟩ := crosses_iff.mp crosses
    obtain ⟨apart, nonneg, -⟩ := shapeCrossings_bounds meets
    refine ⟨t, ⟨meets, ?_⟩, less, rfl⟩
    intro s other
    rcases lt_or_ge s 1 with before | after
    · have nearer := first _ (crosses_iff.mpr ⟨s, other, before, rfl⟩)
      exact (distance_along_le_iff apart nonneg (shapeCrossings_bounds other).2.1).mp nearer
    · exact less.le.trans after
  · rintro ⟨t, isLeast, less, rfl⟩
    obtain ⟨apart, nonneg, -⟩ := shapeCrossings_bounds isLeast.1
    refine ⟨crosses_iff.mpr ⟨t, isLeast.1, less, rfl⟩, ?_⟩
    intro q crosses
    obtain ⟨s, meets, -, rfl⟩ := crosses_iff.mp crosses
    exact (distance_along_le_iff apart nonneg (shapeCrossings_bounds meets).2.1).mpr
      (isLeast.2 meets)

/-! ## The edge of the window -/

/-- Where the ray is aimed: where it first meets the edge of the window, or at the
sentinel if it does not reach the window. -/
def AimsAt (windowCorners : Option (List (Point (Option ℝ)))) (origin : ℝ × ℝ) (angle : ℝ)
    (target : ℝ × ℝ) : Prop :=
  (∃ corners, windowCorners = some corners ∧
      MeetsFirstAt origin (rayEnd origin angle) corners target) ∨
    ¬ ReachesWindow windowCorners origin angle ∧ target = invalidPair

theorem aimsAt_iff (vectors : math.Exact) :
    AimsAt windowCorners origin angle target ↔
      windowTest math windowCorners origin angle = Point.exact target := by
  cases windowCorners with
  | none =>
      have missed : ¬ ReachesWindow none origin angle := by
        rintro ⟨corners, absent, -⟩
        contradiction
      have tested : windowTest math none origin angle = Point.exact invalidPair :=
        invalidPoint_exact
      rw [tested, Point.exact_injective.eq_iff]
      constructor
      · rintro (⟨corners, absent, -⟩ | ⟨-, same⟩)
        · contradiction
        · exact same.symm
      · exact fun same => Or.inr ⟨missed, same.symm⟩
  | some corners =>
      have tested := lineSegmentTest_along vectors (p := origin) (q := rayEnd origin angle)
        zero_le_one le_rfl corners
      rw [along_one] at tested
      rcases tested with ⟨later, missed⟩ | ⟨t, less, isLeast, hit⟩
      · have unreached : ¬ ReachesWindow (some corners) origin angle := by
          rintro ⟨_, ⟨rfl⟩, q, crosses⟩
          obtain ⟨s, meets, before, -⟩ := crosses_iff.mp crosses
          exact absurd before (not_lt.mpr (later s meets))
        rw [windowTest, intersectsWindowEdge, missed, Point.exact_injective.eq_iff]
        constructor
        · rintro (⟨_, ⟨rfl⟩, first⟩ | ⟨-, same⟩)
          · exact absurd ⟨corners, rfl, target, first.1⟩ unreached
          · exact same.symm
        · exact fun same => Or.inr ⟨unreached, same.symm⟩
      · have first := meetsFirstAt_iff.mpr ⟨t, isLeast, less, rfl⟩
        rw [windowTest, intersectsWindowEdge, hit, Point.exact_injective.eq_iff]
        constructor
        · rintro (⟨_, ⟨rfl⟩, meets⟩ | ⟨unreached, -⟩)
          · obtain ⟨s, isLeastS, -, rfl⟩ := meetsFirstAt_iff.mp meets
            rw [isLeast.unique isLeastS]
          · exact absurd ⟨corners, rfl, _, first.1⟩ unreached
        · rintro rfl
          exact Or.inl ⟨corners, rfl, first⟩

/-- Every ray is aimed somewhere. -/
theorem exists_aimsAt (vectors : math.Exact)
    (windowCorners : Option (List (Point (Option ℝ)))) (origin : ℝ × ℝ) (angle : ℝ) :
    ∃ target, AimsAt windowCorners origin angle target := by
  rcases windowTest_cases vectors windowCorners origin angle with
    ⟨-, edge⟩ | ⟨-, t, -, -, edge⟩
  · exact ⟨_, (aimsAt_iff vectors).mpr edge⟩
  · exact ⟨_, (aimsAt_iff vectors).mpr edge⟩

/-! ## The nearest fiducial that counts -/

/-- The ray to `target` first meets the fiducial at `p`, which is not at negative
coordinates. -/
def BlocksAt (origin target : ℝ × ℝ) (fiducial : OfxFiducial (Option ℝ)) (p : ℝ × ℝ) : Prop :=
  MeetsFirstAt origin target fiducial.cornerPoints p ∧ 0 ≤ p

/-- No fiducial of the list blocks the ray nearer to its origin, and none in front of
this one blocks it as near. -/
def NearestBlocker (origin target : ℝ × ℝ) (others : List (OfxFiducial (Option ℝ)))
    (fiducial : OfxFiducial (Option ℝ)) : Prop :=
  ∃ front back p, others = front ++ fiducial :: back ∧ BlocksAt origin target fiducial p ∧
    (∀ other ∈ others, ∀ q, BlocksAt origin target other q →
      distance origin p ≤ distance origin q) ∧
    ∀ other ∈ front, ∀ q, BlocksAt origin target other q → distance origin p < distance origin q

/-- The first crossing of a fiducial, if it is not at negative coordinates. -/
def leadingCrossings (origin target : ℝ × ℝ) (fiducial : OfxFiducial (Option ℝ)) : Set ℝ :=
  { t | IsLeast (shapeCrossings origin target fiducial.cornerPoints) t ∧
    0 ≤ along origin target t }

theorem blocksAt_iff :
    BlocksAt origin target fiducial p ↔
      ∃ t ∈ leadingCrossings origin target fiducial, t < 1 ∧ along origin target t = p := by
  rw [BlocksAt, meetsFirstAt_iff]
  constructor
  · rintro ⟨⟨t, isLeast, less, rfl⟩, visible⟩
    exact ⟨t, ⟨isLeast, visible⟩, less, rfl⟩
  · rintro ⟨t, ⟨isLeast, visible⟩, less, rfl⟩
    exact ⟨⟨t, isLeast, less, rfl⟩, visible⟩

theorem checkFiducial_leads (vectors : math.Exact) {nearest : Nearest (Option ℝ)}
    {best : Best (OfxFiducial (Option ℝ)) ℝ} (viewed : RayView origin target nearest best)
    (chkFiducial : OfxFiducial (Option ℝ)) :
    ∃ next,
      RayView origin target (checkFiducial exact math (Point.exact origin) nearest chkFiducial)
        next ∧
      Takes (leadingCrossings origin target) best chkFiducial next := by
  rcases checkFiducial_cases vectors viewed chkFiducial with
    ⟨same, passed⟩ | ⟨t, less, isLeast, visible, viewedNext⟩
  · rw [same]
    refine ⟨best, viewed, Takes.keep ?_⟩
    rintro t ⟨isLeast, visible⟩
    rcases passed with later | ⟨s, isLeastS, hidden⟩
    · exact later t isLeast.1
    · rw [isLeastS.unique isLeast] at hidden
      exact absurd visible hidden
  · refine ⟨_, viewedNext, Takes.take t ⟨⟨isLeast, visible⟩, ?_⟩ less⟩
    rintro s ⟨isLeastS, -⟩
    exact (isLeast.unique isLeastS).le

/-- The loop finds the first of the leading crossings of the listed fiducials. -/
theorem findMinIntersectionRay_leads (vectors : math.Exact)
    (fiducialsList : List (OfxFiducial (Option ℝ))) (position : Nat)
    (edge : windowTest math windowCorners origin angle = Point.exact target) :
    ∃ best, FirstLeast (leadingCrossings origin target) 1 (fiducialsList.eraseIdx position) best ∧
      (findMinIntersectionRay exact math windowCorners fiducialsList position (Point.exact origin)
        (some angle)).1 = best.item := by
  rw [findMinIntersectionRay_eq vectors edge]
  obtain ⟨best, viewed, least⟩ := foldl_firstLeast (fiducialsList.eraseIdx position)
    (rayView_start vectors origin target)
    fun nearest best viewed _ fiducial _ => checkFiducial_leads vectors viewed fiducial
  exact ⟨best, least, viewed.fiducial⟩

theorem leadingCrossings_bounds {t : ℝ} (leads : t ∈ leadingCrossings origin target fiducial) :
    0 < distance origin target ∧ 0 ≤ t := by
  obtain ⟨apart, nonneg, -⟩ := shapeCrossings_bounds leads.1.1
  exact ⟨apart, nonneg⟩

/-- The search returns a fiducial exactly if it is the nearest blocker. -/
theorem findMinIntersectionRay_eq_some_iff (vectors : math.Exact)
    (edge : windowTest math windowCorners origin angle = Point.exact target) :
    (findMinIntersectionRay exact math windowCorners fiducialsList position (Point.exact origin)
        (some angle)).1 = some fiducial ↔
      NearestBlocker origin target (fiducialsList.eraseIdx position) fiducial := by
  obtain ⟨best, least, result⟩ :=
    findMinIntersectionRay_leads vectors fiducialsList position edge
  rw [result]
  constructor
  · intro found
    obtain ⟨below, leads, front, back, split, earlier⟩ := least.found fiducial found
    obtain ⟨apart, nonneg⟩ := leadingCrossings_bounds leads
    refine ⟨front, back, along origin target best.key, split,
      blocksAt_iff.mpr ⟨_, leads, below, rfl⟩, ?_, ?_⟩
    · intro other member q blocks
      obtain ⟨t, leadsT, -, rfl⟩ := blocksAt_iff.mp blocks
      apply (distance_along_le_iff apart nonneg (leadingCrossings_bounds leadsT).2).mpr
      exact least.lower other member t leadsT
    · intro other member q blocks
      obtain ⟨t, leadsT, -, rfl⟩ := blocksAt_iff.mp blocks
      apply (distance_along_lt_iff apart nonneg (leadingCrossings_bounds leadsT).2).mpr
      exact earlier other member t leadsT
  · rintro ⟨front, back, p, split, blocks, nearest, first⟩
    obtain ⟨t, leads, less, rfl⟩ := blocksAt_iff.mp blocks
    obtain ⟨apart, nonneg⟩ := leadingCrossings_bounds leads
    apply least.item_eq_of_isFirst split leads less
    · intro other member s leadsS
      rcases lt_or_ge s 1 with before | after
      · have nearer := nearest other member _ (blocksAt_iff.mpr ⟨s, leadsS, before, rfl⟩)
        exact (distance_along_le_iff apart nonneg (leadingCrossings_bounds leadsS).2).mp nearer
      · exact less.le.trans after
    · intro other member s leadsS
      rcases lt_or_ge s 1 with before | after
      · have nearer := first other member _ (blocksAt_iff.mpr ⟨s, leadsS, before, rfl⟩)
        exact (distance_along_lt_iff apart nonneg (leadingCrossings_bounds leadsS).2).mp nearer
      · exact less.trans_le after

end OfxPrimes.Physics
