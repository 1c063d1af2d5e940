import OfxPrimes.Physics.NearestHit

/-!
# What a ray meets

The nearest obstacle on the way to the edge of the window, and when the end that
`findMinIntersectionRay` reports lies on the ray at all: if no edge of the
window is within reach, the sentinel of the window test becomes the end of the
ray.
-/

namespace OfxPrimes.Physics

open OfxPrimes.Fiducial OfxPrimes.Plane OfxPrimes.Search
open OfxPrimes.Fiducial.FloatArith (exact)

variable {math : VectorMath (Option ℝ)} {windowCorners : Option (List (Point (Option ℝ)))}
  {fiducialsList : List (OfxFiducial (Option ℝ))} {position : Nat} {origin target p : ℝ × ℝ}
  {angle : ℝ} {corners : List (Point (Option ℝ))}

/-- `p` is a point of a side of the shape, the side is not parallel to the segment
from `origin` to `target`, and the segment passes through `p` before its end. -/
def Crosses (origin target : ℝ × ℝ) (corners : List (Point (Option ℝ))) (p : ℝ × ℝ) : Prop :=
  p ∈ segment ℝ origin target ∧ distance origin p < distance origin target ∧
    ∃ a b, (Point.exact a, Point.exact b) ∈ sides corners ∧
      cross (target - origin) (b - a) ≠ 0 ∧ p ∈ segment ℝ a b

/-- `p` is a point of a side of the shape. -/
def OnOutline (corners : List (Point (Option ℝ))) (p : ℝ × ℝ) : Prop :=
  ∃ a b, (Point.exact a, Point.exact b) ∈ sides corners ∧ p ∈ segment ℝ a b

theorem onOutline_of_mem_shapeCrossings {t : ℝ}
    (meets : t ∈ shapeCrossings origin target corners) :
    OnOutline corners (along origin target t) := by
  obtain ⟨_, listed, a, b, rfl, -, -, -, onSide⟩ := meets
  exact ⟨a, b, listed, onSide⟩

theorem crosses_along_iff {t : ℝ} :
    Crosses origin target corners (along origin target t) ∧ 0 ≤ t ↔
      t ∈ shapeCrossings origin target corners ∧ t < 1 := by
  constructor
  · rintro ⟨⟨-, closer, a, b, listed, nonparallel, onSide⟩, nonneg⟩
    have apart := distance_pos nonparallel
    have less : t < 1 := by
      rwa [← distance_along_lt_iff apart nonneg zero_le_one, along_one]
    exact ⟨⟨_, listed, a, b, rfl, nonparallel, nonneg, less.le, onSide⟩, less⟩
  · rintro ⟨meets, less⟩
    obtain ⟨apart, nonneg, bounded⟩ := shapeCrossings_bounds meets
    obtain ⟨_, listed, a, b, rfl, nonparallel, -, -, onSide⟩ := meets
    have closer := (distance_along_lt_iff apart nonneg zero_le_one).mpr less
    rw [along_one] at closer
    exact ⟨⟨along_mem_segment nonneg bounded, closer, a, b, listed, nonparallel, onSide⟩, nonneg⟩

theorem crosses_iff :
    Crosses origin target corners p ↔
      ∃ t ∈ shapeCrossings origin target corners, t < 1 ∧ along origin target t = p := by
  constructor
  · intro crosses
    obtain ⟨t, nonneg, -, rfl⟩ := mem_segment_iff.mp crosses.1
    obtain ⟨meets, less⟩ := crosses_along_iff.mp ⟨crosses, nonneg⟩
    exact ⟨t, meets, less, rfl⟩
  · rintro ⟨t, meets, less, rfl⟩
    exact (crosses_along_iff.mpr ⟨meets, less⟩).1

/-! ## The nearest obstacle -/

/-- `hit` is the nearest of the obstacles before `target` among `others`, and the
first listed of those at its distance; without obstacles it is `target`. -/
structure IsNearestObstacle (origin target : ℝ × ℝ) (others : List (OfxFiducial (Option ℝ)))
    (hit : Option (OfxFiducial (Option ℝ)) × Point (Option ℝ)) : Prop where
  free : (∀ other ∈ others, ∀ q, ¬ Crosses origin target other.cornerPoints q) →
    hit = (none, Point.exact target)
  blocked : (∃ other ∈ others, ∃ q, Crosses origin target other.cornerPoints q) →
    ∃ front fiducial back p, others = front ++ fiducial :: back ∧
      hit = (some fiducial, Point.exact p) ∧
      Crosses origin target fiducial.cornerPoints p ∧
      (∀ other ∈ others, ∀ q, Crosses origin target other.cornerPoints q →
        distance origin p ≤ distance origin q) ∧
      ∀ other ∈ front, ∀ q, Crosses origin target other.cornerPoints q →
        distance origin p < distance origin q

/-- Between points that are not at negative coordinates, the loop returns the nearest
obstacle. -/
theorem findMinIntersectionRay_nearest (vectors : math.Exact) (originNonneg : 0 ≤ origin)
    (targetNonneg : 0 ≤ target)
    (edge : windowTest math windowCorners origin angle = Point.exact target) :
    IsNearestObstacle origin target (fiducialsList.eraseIdx position)
      (findMinIntersectionRay exact math windowCorners fiducialsList position
        (Point.exact origin) (some angle)) := by
  have visible : ∀ t, 0 ≤ t → t ≤ 1 → 0 ≤ along origin target t := fun t =>
    along_nonneg originNonneg targetNonneg
  have first : VisibleFirst origin target := fun s t nonneg order bounded _ =>
    visible s nonneg (order.trans bounded)
  obtain ⟨best, least, result⟩ :=
    findMinIntersectionRay_search vectors first fiducialsList position edge
  rw [result]
  have visibleOf : ∀ {other : OfxFiducial (Option ℝ)} {t},
      t ∈ shapeCrossings origin target other.cornerPoints →
        t ∈ visibleCrossings origin target other := fun meets =>
    ⟨meets, visible _ (shapeCrossings_bounds meets).2.1 (shapeCrossings_bounds meets).2.2⟩
  constructor
  case free =>
    intro unobstructed
    have nothing : best.item = none := by
      rw [least.item_eq_none_iff]
      rintro other member t ⟨meets, -⟩
      by_contra before
      exact unobstructed other member _ (crosses_iff.mpr ⟨t, meets, not_le.mp before, rfl⟩)
    rw [nothing, least.unfound nothing, along_one]
  case blocked =>
    rintro ⟨other, member, q, crosses⟩
    obtain ⟨t, meets, less, rfl⟩ := crosses_iff.mp crosses
    cases found : best.item with
    | none =>
        have late := least.item_eq_none_iff.mp found other member t (visibleOf meets)
        exact absurd less (not_lt.mpr late)
    | some fiducial =>
        obtain ⟨below, ⟨reached, -⟩, front, back, split, earlier⟩ := least.found fiducial found
        obtain ⟨apart, nonneg, -⟩ := shapeCrossings_bounds reached
        refine ⟨front, fiducial, back, along origin target best.key, split, rfl,
          crosses_iff.mpr ⟨_, reached, below, rfl⟩, ?_, ?_⟩
        · intro other member q crosses
          obtain ⟨t, meets, -, rfl⟩ := crosses_iff.mp crosses
          apply (distance_along_le_iff apart nonneg (shapeCrossings_bounds meets).2.1).mpr
          exact least.lower other member t (visibleOf meets)
        · intro other member q crosses
          obtain ⟨t, meets, -, rfl⟩ := crosses_iff.mp crosses
          apply (distance_along_lt_iff apart nonneg (shapeCrossings_bounds meets).2.1).mpr
          exact earlier other member t (visibleOf meets)

/-! ## A window around the origin -/

/-- The corners of a square window. -/
def square (size : ℝ) : List (Point (Option ℝ)) :=
  [Point.exact (0, 0), Point.exact (size, 0), Point.exact (size, size), Point.exact (0, size)]

/-- A ray to the right crosses the square at most at its right edge. -/
theorem mem_shapeCrossings_square {x y size t : ℝ} (left : 0 < x)
    (meets : t ∈ shapeCrossings (x, y) (x + 1000, y) (square size)) : x + t * 1000 = size := by
  obtain ⟨side, listed, a, b, rfl, nonparallel, nonneg, -, onSide⟩ := meets
  obtain ⟨r, -, -, meeting⟩ := mem_segment_iff.mp onSide
  have first := congrArg Prod.fst meeting
  simp only [sides, square, List.rotate_cons_succ, List.rotate_zero, List.cons_append,
    List.nil_append, List.zip_cons_cons, List.zip_nil_right, List.mem_cons, List.not_mem_nil,
    or_false, Prod.mk.injEq, Point.exact_injective.eq_iff] at listed
  rcases listed with ⟨rfl, rfl⟩ | ⟨rfl, rfl⟩ | ⟨rfl, rfl⟩ | ⟨rfl, rfl⟩
  · exact absurd (by simp [cross]) nonparallel
  · simp only [along] at first
    linarith
  · exact absurd (by simp [cross]) nonparallel
  · simp only [along] at first
    linarith

theorem rayEnd_right (x y : ℝ) : rayEnd (x, y) 0 = (x + 1000, y) := by
  simp [rayEnd, rotated]
  ring

theorem right_mem_shapeCrossings_square {x y size : ℝ} (inside : x ≤ size)
    (reach : size < x + 1000) (below : 0 ≤ y) (above : y ≤ size) (positive : 0 < size) :
    (size - x) / 1000 ∈ shapeCrossings (x, y) (x + 1000, y) (square size) := by
  refine ⟨(Point.exact (size, 0), Point.exact (size, size)), by simp [sides, square], _, _, rfl,
    ?_, by linarith, by linarith, ?_⟩
  · simp [cross, positive.ne']
  · apply mem_segment_iff.mpr
    refine ⟨y / size, div_nonneg below positive.le, (div_le_one positive).mpr above, ?_⟩
    simp [along, positive.ne']

/-- The window test for a ray to the right from inside the square. -/
theorem windowTest_square (vectors : math.Exact) {x y size : ℝ} (left : 0 < x)
    (inside : x ≤ size) (below : 0 ≤ y) (above : y ≤ size) :
    windowTest math (some (square size)) (x, y) 0 =
      if size < x + 1000 then Point.exact (size, y) else Point.exact invalidPair := by
  have tested := lineSegmentTest_along vectors (p := (x, y)) (q := (x + 1000, y))
    zero_le_one le_rfl (square size)
  rw [along_one] at tested
  simp only [windowTest, intersectsWindowEdge, rayEnd_right]
  rcases tested with ⟨later, missed⟩ | ⟨t, less, isLeast, hit⟩
  · rw [missed, if_neg]
    intro reach
    have crossed := later _
      (right_mem_shapeCrossings_square inside reach below above (left.trans_le inside))
    linarith
  · have reached := mem_shapeCrossings_square left isLeast.1
    rw [hit, if_pos (by linarith)]
    simp [along, Point.exact, ← reached]

/-- A fiducial with sides of two units around a point, which shoots its ray to the
right. -/
noncomputable def standing (id : Int) (x y : ℝ) : OfxFiducial (Option ℝ) :=
  { OfxFiducial.zeroed exact with
    fidId := id
    current := { xpos := some x, ypos := some y, angle := exact.twoPi }
    updateCorners := true
    cornerPoints :=
      [Point.exact (x + 1, y - 1), Point.exact (x - 1, y - 1), Point.exact (x - 1, y + 1),
        Point.exact (x + 1, y + 1)]
    cornersUpdated := true }

/-- A window edge ten units across, and a fiducial on the way there. -/
theorem findMinIntersectionRay_nearest_square :
    IsNearestObstacle (3, 5) (10, 5) ([standing 1 2 5, standing 2 7 5].eraseIdx 0)
      (findMinIntersectionRay exact (VectorMath.ofArith exact) (some (square 10))
        [standing 1 2 5, standing 2 7 5] 0 (Point.exact (3, 5)) (some 0)) := by
  apply findMinIntersectionRay_nearest VectorMath.exact_ofArith
  · exact ⟨by norm_num, by norm_num⟩
  · exact ⟨by norm_num, by norm_num⟩
  · rw [windowTest_square VectorMath.exact_ofArith (by norm_num) (by norm_num) (by norm_num)
      (by norm_num), if_pos (by norm_num)]

/-! ## Ends that are not on the ray -/

/-- The ray ends on the way to the point that is `MAX_INTERSECTION_DIST` away, at a
side of the fiducial it hits if it hits one. -/
def EndsOnRay (math : VectorMath (Option ℝ)) (windowCorners : Option (List (Point (Option ℝ))))
    (fiducialsList : List (OfxFiducial (Option ℝ))) (position : Nat) (origin : ℝ × ℝ)
    (angle : ℝ) : Prop :=
  ∃ fiducial p,
    findMinIntersectionRay exact math windowCorners fiducialsList position (Point.exact origin)
      (some angle) = (fiducial, Point.exact p) ∧
    p ∈ segment ℝ origin (rayEnd origin angle) ∧
    ∀ hit, fiducial = some hit → OnOutline hit.cornerPoints p

/-- The ray crosses an edge of the window before its end. -/
def ReachesWindow (windowCorners : Option (List (Point (Option ℝ)))) (origin : ℝ × ℝ)
    (angle : ℝ) : Prop :=
  ∃ corners, windowCorners = some corners ∧
    ∃ p, Crosses origin (rayEnd origin angle) corners p

/-- The window test: the sentinel for a ray that does not reach the window. -/
theorem windowTest_cases (vectors : math.Exact)
    (windowCorners : Option (List (Point (Option ℝ)))) (origin : ℝ × ℝ) (angle : ℝ) :
    (¬ ReachesWindow windowCorners origin angle ∧
      windowTest math windowCorners origin angle = Point.exact invalidPair) ∨
    (ReachesWindow windowCorners origin angle ∧ ∃ t, 0 ≤ t ∧ t ≤ 1 ∧
      windowTest math windowCorners origin angle =
        Point.exact (along origin (rayEnd origin angle) t)) := by
  cases windowCorners with
  | none =>
      refine Or.inl ⟨?_, invalidPoint_exact⟩
      rintro ⟨corners, absent, -⟩
      contradiction
  | some corners =>
      have tested := lineSegmentTest_along vectors (p := origin) (q := rayEnd origin angle)
        zero_le_one le_rfl corners
      rw [along_one] at tested
      rcases tested with ⟨later, missed⟩ | ⟨t, less, isLeast, hit⟩
      · refine Or.inl ⟨?_, missed⟩
        rintro ⟨_, ⟨rfl⟩, p, crosses⟩
        obtain ⟨t, meets, less, -⟩ := crosses_iff.mp crosses
        exact absurd less (not_lt.mpr (later t meets))
      · obtain ⟨-, nonneg, bounded⟩ := shapeCrossings_bounds isLeast.1
        exact Or.inr ⟨⟨corners, rfl, _, crosses_iff.mpr ⟨t, isLeast.1, less, rfl⟩⟩,
          t, nonneg, bounded, hit⟩

theorem endsOnRay_of_reachesWindow (vectors : math.Exact) {t : ℝ} (nonneg : 0 ≤ t)
    (bounded : t ≤ 1)
    (edge : windowTest math windowCorners origin angle =
      Point.exact (along origin (rayEnd origin angle) t)) :
    EndsOnRay math windowCorners fiducialsList position origin angle := by
  obtain ⟨fiducial, s, lower, upper, result, meets⟩ :=
    findMinIntersectionRay_onOutline vectors fiducialsList position edge
  refine ⟨fiducial, _, result, ?_, fun hit found =>
    onOutline_of_mem_shapeCrossings (meets hit found)⟩
  exact segment_subset_of_mem (along_mem_segment nonneg bounded) (along_mem_segment lower upper)

theorem visibleFirst_invalidPair (origin : ℝ × ℝ) : VisibleFirst origin invalidPair := by
  intro s t _ order bounded visible
  apply along_nonneg_of_le ?_ order bounded visible
  constructor <;> norm_num [invalidPair]

/-- A search for the nearest hit ends on the ray exactly if the point it found does. -/
theorem endsOnRay_iff_of_search {best : Best (OfxFiducial (Option ℝ)) ℝ}
    (result : findMinIntersectionRay exact math windowCorners fiducialsList position
      (Point.exact origin) (some angle) =
        (best.item, Point.exact (along origin target best.key)))
    (meets : ∀ hit, best.item = some hit →
      best.key ∈ shapeCrossings origin target hit.cornerPoints) :
    EndsOnRay math windowCorners fiducialsList position origin angle ↔
      along origin target best.key ∈ segment ℝ origin (rayEnd origin angle) := by
  unfold EndsOnRay
  rw [result]
  constructor
  · rintro ⟨_, p, same, onRay, -⟩
    rw [Point.exact_injective (Prod.mk.inj same).2]
    exact onRay
  · intro onRay
    refine ⟨best.item, _, rfl, onRay, ?_⟩
    intro hit found
    exact onOutline_of_mem_shapeCrossings (meets hit found)

/-- A ray that misses the window is aimed at the sentinel.  It still ends on the
right segment exactly if the sentinel or a hit on the way there happens to lie on
it. -/
theorem endsOnRay_iff_of_missed (vectors : math.Exact)
    (edge : windowTest math windowCorners origin angle = Point.exact invalidPair) :
    EndsOnRay math windowCorners fiducialsList position origin angle ↔
      invalidPair ∈ segment ℝ origin (rayEnd origin angle) ∨
      ∃ other ∈ fiducialsList.eraseIdx position, ∃ q,
        Crosses origin invalidPair other.cornerPoints q ∧ 0 ≤ q ∧
          q ∈ segment ℝ origin (rayEnd origin angle) := by
  obtain ⟨best, least, result⟩ :=
    findMinIntersectionRay_search vectors (visibleFirst_invalidPair origin) fiducialsList position
      edge
  rw [endsOnRay_iff_of_search result fun hit found => (least.found hit found).2.1.1]
  cases found : best.item with
  | none =>
      rw [least.unfound found, along_one, or_iff_left]
      rintro ⟨other, member, q, crosses, visible, -⟩
      obtain ⟨t, meets, less, rfl⟩ := crosses_iff.mp crosses
      exact absurd less
        (not_lt.mpr (least.item_eq_none_iff.mp found other member t ⟨meets, visible⟩))
  | some fiducial =>
      obtain ⟨below, ⟨reached, visible⟩, front, back, split, -⟩ := least.found fiducial found
      obtain ⟨-, nonneg, bounded⟩ := shapeCrossings_bounds reached
      have listed : fiducial ∈ fiducialsList.eraseIdx position := by
        rw [split]
        exact List.mem_append_right front List.mem_cons_self
      constructor
      · intro onRay
        exact Or.inr ⟨fiducial, listed, _, crosses_iff.mpr ⟨_, reached, below, rfl⟩, visible,
          onRay⟩
      · rintro (sentinel | ⟨other, member, q, crosses, visibleQ, onRay⟩)
        · exact segment_subset_of_mem sentinel (along_mem_segment nonneg bounded)
        · -- The reported hit is no further away than any other visible one.
          obtain ⟨t, meets, -, rfl⟩ := crosses_iff.mp crosses
          have closer := least.lower other member t ⟨meets, visibleQ⟩
          exact segment_subset_of_mem onRay (along_mem_segment_along nonneg closer)

/-- The ray ends where it should exactly if it reaches the window, or misses it and the
sentinel or a hit on the way to it lies on the ray. -/
theorem endsOnRay_iff (vectors : math.Exact)
    (windowCorners : Option (List (Point (Option ℝ))))
    (fiducialsList : List (OfxFiducial (Option ℝ))) (position : Nat) (origin : ℝ × ℝ)
    (angle : ℝ) :
    EndsOnRay math windowCorners fiducialsList position origin angle ↔
      ReachesWindow windowCorners origin angle ∨
      invalidPair ∈ segment ℝ origin (rayEnd origin angle) ∨
      ∃ other ∈ fiducialsList.eraseIdx position, ∃ q,
        Crosses origin invalidPair other.cornerPoints q ∧ 0 ≤ q ∧
          q ∈ segment ℝ origin (rayEnd origin angle) := by
  rcases windowTest_cases vectors windowCorners origin angle with
    ⟨missed, edge⟩ | ⟨reached, t, nonneg, bounded, edge⟩
  · rw [endsOnRay_iff_of_missed vectors edge, or_iff_right missed]
  · exact iff_of_true (endsOnRay_of_reachesWindow vectors nonneg bounded edge) (Or.inl reached)

/-- In a window that is 4000 units wide, a ray from its middle reaches no edge within
1000 units, and the sentinel is reported as its end. -/
theorem not_endsOnRay_square :
    ¬ EndsOnRay (VectorMath.ofArith exact) (some (square 4000)) [] 0 (2000, 2000) 0 := by
  have edge : windowTest (VectorMath.ofArith exact) (some (square 4000)) (2000, 2000) 0 =
      Point.exact invalidPair := by
    rw [windowTest_square VectorMath.exact_ofArith (by norm_num) (by norm_num) (by norm_num)
      (by norm_num), if_neg (by norm_num)]
  rw [endsOnRay_iff_of_missed VectorMath.exact_ofArith edge]
  rintro (sentinel | ⟨other, absent, -⟩)
  · obtain ⟨t, nonneg, -, same⟩ := mem_segment_iff.mp sentinel
    have first := congrArg Prod.fst same
    simp only [along, rayEnd_right, invalidPair] at first
    push_cast at first
    linarith
  · simp at absent

/-- The ray to the right from the middle of a window that is 1000 units wide, with a
fiducial on the way to its edge. -/
theorem endsOnRay_iff_square :
    EndsOnRay (VectorMath.ofArith exact) (some (square 1000)) [standing 1 499 500,
        standing 2 700 500] 0 (500, 500) 0 ↔
      ReachesWindow (some (square 1000)) (500, 500) 0 ∨
      invalidPair ∈ segment ℝ ((500, 500) : ℝ × ℝ) (rayEnd (500, 500) 0) ∨
      ∃ other ∈ [standing 1 499 500, standing 2 700 500].eraseIdx 0, ∃ q,
        Crosses (500, 500) invalidPair other.cornerPoints q ∧ 0 ≤ q ∧
          q ∈ segment ℝ ((500, 500) : ℝ × ℝ) (rayEnd (500, 500) 0) :=
  endsOnRay_iff VectorMath.exact_ofArith _ _ _ _ _

end OfxPrimes.Physics
