import OfxPrimes.Fiducial.Inside
import OfxPrimes.Plane.Square

/-!
# Collisions of fiducials

`isFidCollided` tests the corners of each of two fiducials against the other
one.  Two squares may have a common interior although no corner of either is in
the other: equal ones with the same centre of which one is turned have.
-/

namespace OfxPrimes.Fiducial

open OfxPrimes.Plane
open OfxPrimes.Fiducial.FloatArith (exact)

namespace OfxFiducial

section Model

variable {F : Type}

/-- The loop over four corners that adds to the counter those that are inside a
fiducial: the counter and the fiducial afterwards. -/
def countInside (arith : FloatArith F) (corners : List (Point F))
    (start : Nat × OfxFiducial F) : Nat × OfxFiducial F :=
  corners.foldl (fun (counter, self) corner =>
    let (inside, self) := self.isPointInside arith corner.x corner.y
    (if inside then counter + 1 else counter, self)) start

/-- `isFidCollided(ofxFiducial& fiducial_2)`: the answer and both fiducials after the
call, which may compute their corners. -/
def isFidCollided (arith : FloatArith F) (self fiducial2 : OfxFiducial F) :
    Bool × OfxFiducial F × OfxFiducial F :=
  let fiducial2 := fiducial2.computeCorners arith
  let (counter, self) := countInside arith fiducial2.cornerPoints (0, self)
  let inside := decide (counter > 0)
  let (counter, fiducial2) := countInside arith self.cornerPoints (counter, fiducial2)
  let inside := if counter > 0 then true else inside
  (inside, self, fiducial2)

/-! ## The loops -/

variable (arith : FloatArith F) {self : OfxFiducial F}

/-- The fiducial after `isPointInside`. -/
def cornered (arith : FloatArith F) (self : OfxFiducial F) : OfxFiducial F :=
  if self.cornersUpdated then self else self.computeCorners arith

theorem cornered_cornersUpdated (self : OfxFiducial F) :
    (self.cornered arith).cornersUpdated = true := by
  unfold cornered
  split
  · assumption
  · rfl

theorem cornered_of_updated (updated : self.cornersUpdated = true) : self.cornered arith = self :=
  if_pos updated

theorem isPointInside_eq (x y : F) :
    self.isPointInside arith x y =
      let cornered := self.cornered arith
      let edges := cornered.cornerPoints.zip (cornered.cornerPoints.rotate 1)
      (decide ((edges.filter fun edge => crossesEdge arith x y edge.1 edge.2).length % 2 ≠ 0),
        cornered) :=
  rfl

theorem isPointInside_cornered (x y : F) :
    (self.cornered arith).isPointInside arith x y = self.isPointInside arith x y := by
  have again := cornered_of_updated arith (cornered_cornersUpdated arith self)
  simp only [isPointInside_eq, again]

theorem countInside_cons (corner : Point F) (rest : List (Point F)) (counter : Nat)
    (self : OfxFiducial F) :
    countInside arith (corner :: rest) (counter, self) =
      countInside arith rest
        (if (self.isPointInside arith corner.x corner.y).1 then counter + 1 else counter,
          self.cornered arith) :=
  rfl

theorem countInside_snd (corners : List (Point F)) (counter : Nat)
    (updated : self.cornersUpdated = true) :
    (countInside arith corners (counter, self)).2 = self := by
  induction corners generalizing counter with
  | nil => rfl
  | cons corner rest ih =>
      rw [countInside_cons, cornered_of_updated arith updated]
      exact ih _

/-- The counter is positive if it was before, or some corner is inside. -/
theorem countInside_pos_iff (corners : List (Point F)) (counter : Nat) (self : OfxFiducial F) :
    (countInside arith corners (counter, self)).1 > 0 ↔
      counter > 0 ∨ ∃ corner ∈ corners, (self.isPointInside arith corner.x corner.y).1 = true := by
  induction corners generalizing counter self with
  | nil => simp [countInside]
  | cons corner rest ih =>
      rw [countInside_cons, ih]
      simp only [isPointInside_cornered, List.mem_cons, exists_eq_or_imp]
      rw [← or_assoc]
      apply or_congr_left
      split
      · rename_i inside
        simp [inside]
      · rename_i outside
        simp [outside]

/-- Two fiducials are said to collide if a corner of either is inside the other. -/
theorem isFidCollided_iff (self fiducial2 : OfxFiducial F)
    (some : (fiducial2.computeCorners arith).cornerPoints ≠ []) :
    (self.isFidCollided arith fiducial2).1 = true ↔
      (∃ corner ∈ (fiducial2.computeCorners arith).cornerPoints,
        (self.isPointInside arith corner.x corner.y).1 = true) ∨
      ∃ corner ∈ (self.cornered arith).cornerPoints,
        ((fiducial2.computeCorners arith).isPointInside arith corner.x corner.y).1 = true := by
  have after : (countInside arith (fiducial2.computeCorners arith).cornerPoints (0, self)).2 =
      self.cornered arith := by
    rcases List.exists_cons_of_ne_nil some with ⟨corner, rest, corners⟩
    rw [corners, countInside_cons,
      countInside_snd arith rest _ (cornered_cornersUpdated arith self)]
  have first := countInside_pos_iff arith (fiducial2.computeCorners arith).cornerPoints 0 self
  rw [or_iff_right (Nat.lt_irrefl 0)] at first
  simp only [isFidCollided, after]
  have both := countInside_pos_iff arith (self.cornered arith).cornerPoints
    (countInside arith (fiducial2.computeCorners arith).cornerPoints (0, self)).1
    (fiducial2.computeCorners arith)
  rw [← first, ← both]
  split
  · rename_i inside
    exact iff_of_true rfl inside
  · rename_i outside
    rw [decide_eq_true_eq]
    exact iff_of_false (fun counted => outside (both.mpr (Or.inl counted))) outside

end Model

/-! ## The corners in exact arithmetic -/

/-- The square of a fiducial.  Its side is the root size, and it is turned against the
angle, and by half a turn more. -/
def HasSquare (self : OfxFiducial (Option ℝ)) (square : Square) : Prop :=
  ∃ rootSize angle, self.rSize = some rootSize ∧
    self.current =
      { xpos := some square.center.1, ypos := some square.center.2, angle := some angle } ∧
    square.side = |rootSize| ∧ square.angle = (2 : ℤ) * Real.pi - angle + Real.pi

/-- If the corners are kept, they are those that would be computed. -/
def UpToDate {F : Type} (arith : FloatArith F) (self : OfxFiducial F) : Prop :=
  self.cornersUpdated = true → self.cornerPoints = (self.computeCorners arith).cornerPoints

/-- The corner in a direction at which both coordinates of the unit circle are the
same up to their signs. -/
theorem corner_eq_place (square : Square) {degrees u v : ℝ}
    (cos : Real.cos (degrees * Real.pi / 180) = u * (√2 / 2))
    (sin : Real.sin (degrees * Real.pi / 180) = v * (√2 / 2)) :
    (square.half * √2 * Real.cos (square.angle + degrees * Real.pi / 180) + square.center.1,
        square.half * √2 * Real.sin (square.angle + degrees * Real.pi / 180) + square.center.2) =
      square.pose.place (u * square.half, v * square.half) := by
  have root : √2 * √2 = (2 : ℝ) := Real.mul_self_sqrt zero_le_two
  apply Prod.ext
  · simp only [Pose.place, rotated, Square.pose, Real.cos_add, cos, sin, Prod.fst_add, Prod.snd_add,
      zero_add, one_smul, add_sub_cancel_left]
    linear_combination square.half / 2 *
      (u * Real.cos square.angle - v * Real.sin square.angle) * root
  · simp only [Pose.place, rotated, Square.pose, Real.sin_add, cos, sin, Prod.fst_add, Prod.snd_add,
      zero_add, one_smul, add_sub_cancel_left]
    linear_combination square.half / 2 *
      (u * Real.sin square.angle + v * Real.cos square.angle) * root

/-- The directions of the four corners. -/
theorem directions :
    (Real.cos (135 * Real.pi / 180) = -1 * (√2 / 2) ∧
        Real.sin (135 * Real.pi / 180) = 1 * (√2 / 2)) ∧
      (Real.cos (45 * Real.pi / 180) = 1 * (√2 / 2) ∧
        Real.sin (45 * Real.pi / 180) = 1 * (√2 / 2)) ∧
      (Real.cos (315 * Real.pi / 180) = 1 * (√2 / 2) ∧
        Real.sin (315 * Real.pi / 180) = -1 * (√2 / 2)) ∧
      (Real.cos (225 * Real.pi / 180) = -1 * (√2 / 2) ∧
        Real.sin (225 * Real.pi / 180) = -1 * (√2 / 2)) := by
  have upperLeft : 135 * Real.pi / 180 = Real.pi - Real.pi / 4 := by ring
  have upperRight : 45 * Real.pi / 180 = Real.pi / 4 := by ring
  have lowerRight : 315 * Real.pi / 180 = -(Real.pi / 4) + 2 * Real.pi := by ring
  have lowerLeft : 225 * Real.pi / 180 = Real.pi / 4 + Real.pi := by ring
  rw [upperLeft, upperRight, lowerRight, lowerLeft, Real.cos_pi_sub, Real.sin_pi_sub,
    Real.cos_add_two_pi, Real.sin_add_two_pi, Real.cos_neg, Real.sin_neg, Real.cos_add_pi,
    Real.sin_add_pi, Real.cos_pi_div_four, Real.sin_pi_div_four]
  simp only [neg_one_mul, one_mul, and_self]

theorem cornerPoints_computeCorners {self : OfxFiducial (Option ℝ)} {square : Square}
    (has : self.HasSquare square) :
    (self.computeCorners exact).cornerPoints =
      List.ofFn fun i => Point.exact (square.corner i) := by
  obtain ⟨rootSize, angle, size, current, side, turned⟩ := has
  have half : exact.div self.rSize (exact.ofInt 2) = some (rootSize / 2) := by
    rw [size, FloatArith.exact_ofInt, FloatArith.exact_div]
    norm_num
  have hyp : self.getDistance exact
      (exact.sub self.current.xpos (exact.div self.rSize (exact.ofInt 2)))
      (exact.sub self.current.ypos (exact.div self.rSize (exact.ofInt 2))) =
        some (square.half * √2) := by
    rw [half, getDistance, current]
    simp only [FloatArith.exact_sub, FloatArith.exact_hypot]
    have squared : (square.center.1 - rootSize / 2 - square.center.1) *
        (square.center.1 - rootSize / 2 - square.center.1) +
        (square.center.2 - rootSize / 2 - square.center.2) *
        (square.center.2 - rootSize / 2 - square.center.2) = (square.half * √2) ^ 2 := by
      rw [mul_pow, Real.sq_sqrt zero_le_two, Square.half_eq, side, div_pow, sq_abs]
      ring
    rw [squared, Real.sqrt_sq (mul_nonneg square.zero_le_half (Real.sqrt_nonneg 2))]
  have rad : exact.add (self.getAngle exact) exact.pi = some square.angle := by
    rw [getAngle, current, FloatArith.twoPi, turned]
    simp
  have corner (degrees : ℤ) {u v : ℝ} (signs : Real.cos (degrees * Real.pi / 180) = u * (√2 / 2) ∧
      Real.sin (degrees * Real.pi / 180) = v * (√2 / 2)) :
      ({ x := exact.add (exact.mul (some (square.half * √2))
            (exact.cos (exact.add (some square.angle) (exact.radians degrees))))
          (some square.center.1)
         y := exact.add (exact.mul (some (square.half * √2))
            (exact.sin (exact.add (some square.angle) (exact.radians degrees))))
          (some square.center.2) } : Point (Option ℝ)) =
        Point.exact (square.pose.place (u * square.half, v * square.half)) := by
    have radians : exact.radians degrees = some (degrees * Real.pi / 180) := by
      rw [FloatArith.radians, FloatArith.exact_ofInt, FloatArith.exact_pi, FloatArith.exact_mul,
        FloatArith.exact_ofInt, FloatArith.exact_div]
      norm_num
    rw [← corner_eq_place square signs.1 signs.2, radians]
    rfl
  obtain ⟨first, second, third, fourth⟩ := directions
  simp only [computeCorners, hyp, rad]
  rw [current]
  rw [corner 135 (by exact_mod_cast first), corner 45 (by exact_mod_cast second),
    corner 315 (by exact_mod_cast third), corner 225 (by exact_mod_cast fourth)]
  simp [List.ofFn_succ, Square.corner]

theorem cornerPoints_cornered {self : OfxFiducial (Option ℝ)} {square : Square}
    (has : self.HasSquare square) (upToDate : self.UpToDate exact) :
    (self.cornered exact).cornerPoints = List.ofFn fun i => Point.exact (square.corner i) := by
  rw [← cornerPoints_computeCorners has, cornered]
  split
  · rename_i updated
    exact upToDate updated
  · rfl

/-- A point counts as inside if those near it to the left and, much less, below are
inside the square. -/
theorem isPointInside_iff_leansInto {self : OfxFiducial (Option ℝ)} {square : Square}
    (has : self.HasSquare square) (upToDate : self.UpToDate exact) (x : ℝ × ℝ) :
    (self.isPointInside exact (some x.1) (some x.2)).1 = true ↔ LeansInto square.corner x := by
  rw [← isPointInside_cornered, isPointInside_eq_xor _ square.corner x
    (cornerPoints_cornered has upToDate) (cornered_cornersUpdated exact self)]
  rcases square.nonneg.eq_or_lt with zero | positive
  · have uncrossed (i : Fin 4) : crossesEdge exact (some x.1) (some x.2)
        (Point.exact (square.corner i)) (Point.exact (square.corner (i + 1))) = false := by
      rw [← Bool.not_eq_true, crossesEdge_exact, Square.corner_eq_of_zero zero.symm,
        Square.corner_eq_of_zero zero.symm]
      exact not_crossesRight_of_iff Iff.rfl
    simp only [uncrossed, Bool.xor_false, Bool.false_eq_true, false_iff]
    exact Square.not_leansInto_of_zero zero.symm x
  · exact crossings_odd_iff_leansInto (Square.strictlyConvex_corner positive) _
      fun i => crossesEdge_exact

theorem hasSquare_computeCorners {self : OfxFiducial (Option ℝ)} {square : Square}
    (has : self.HasSquare square) : (self.computeCorners exact).HasSquare square :=
  has

theorem upToDate_computeCorners {F : Type} (arith : FloatArith F) (self : OfxFiducial F) :
    (self.computeCorners arith).UpToDate arith :=
  fun _ => rfl

section Collision

variable {first second : OfxFiducial (Option ℝ)} {square other : Square}

theorem exists_corner_inside_iff (has : first.HasSquare square) (upToDate : first.UpToDate exact)
    (corners : Fin 4 → ℝ × ℝ) :
    (∃ corner ∈ List.ofFn fun i => Point.exact (corners i),
      (first.isPointInside exact corner.x corner.y).1 = true) ↔
      ∃ i, LeansInto square.corner (corners i) := by
  constructor
  · rintro ⟨corner, mem, inside⟩
    obtain ⟨i, rfl⟩ := List.mem_ofFn.mp mem
    exact ⟨i, (isPointInside_iff_leansInto has upToDate _).mp inside⟩
  · rintro ⟨i, leans⟩
    exact ⟨Point.exact (corners i), List.mem_ofFn.mpr ⟨i, rfl⟩,
      (isPointInside_iff_leansInto has upToDate _).mpr leans⟩

/-- Two fiducials are said to collide if a corner of either square leans into the other. -/
theorem isFidCollided_iff_leansInto (has : first.HasSquare square) (upToDate : first.UpToDate exact)
    (hasOther : second.HasSquare other) :
    (first.isFidCollided exact second).1 = true ↔
      ∃ i, LeansInto square.corner (other.corner i) ∨ LeansInto other.corner (square.corner i) := by
  have corners := cornerPoints_computeCorners hasOther
  rw [isFidCollided_iff exact first second (by simp [corners]), corners,
    cornerPoints_cornered has upToDate, exists_or]
  apply or_congr
  · exact exists_corner_inside_iff has upToDate other.corner
  · exact exists_corner_inside_iff (hasSquare_computeCorners hasOther)
      (upToDate_computeCorners exact second) square.corner

/-- The answer is that the squares have a common interior or are apart, when they do or
are, if and only if they have none or a corner of either leans into the other. -/
theorem overlap_told_iff (has : first.HasSquare square) (upToDate : first.UpToDate exact)
    (hasOther : second.HasSquare other) :
    (((square.interior ∩ other.interior).Nonempty → (first.isFidCollided exact second).1 = true) ∧
      (square.closed ∩ other.closed = ∅ → (first.isFidCollided exact second).1 = false)) ↔
    (square.interior ∩ other.interior = ∅ ∨
      ∃ i, LeansInto square.corner (other.corner i) ∨
          LeansInto other.corner (square.corner i)) := by
  have told := isFidCollided_iff_leansInto has upToDate hasOther
  have apart (disjoint : square.closed ∩ other.closed = ∅) :
      (first.isFidCollided exact second).1 = false := by
    rw [← Bool.not_eq_true, told]
    rintro ⟨i, leans | leans⟩
    · exact Set.eq_empty_iff_forall_notMem.mp disjoint _
        ⟨Square.mem_closed_of_leansInto leans, Square.corner_mem_closed i⟩
    · exact Set.eq_empty_iff_forall_notMem.mp disjoint _
        ⟨Square.corner_mem_closed i, Square.mem_closed_of_leansInto leans⟩
  rw [and_iff_left apart, told, ← Set.not_nonempty_iff_eq_empty]
  exact imp_iff_not_or

end Collision

/-! ## Two squares around the origin -/

/-- A fiducial at the origin. -/
noncomputable def fiducialAt (rootSize angle : ℝ) : OfxFiducial (Option ℝ) :=
  { zeroed exact with
    rSize := some rootSize
    current := { xpos := some 0, ypos := some 0, angle := some angle } }

/-- Its square. -/
noncomputable def squareAt (rootSize angle : ℝ) : Square where
  center := (0, 0)
  side := |rootSize|
  angle := (2 : ℤ) * Real.pi - angle + Real.pi
  nonneg := abs_nonneg rootSize

theorem hasSquare_fiducialAt (rootSize angle : ℝ) :
    (fiducialAt rootSize angle).HasSquare (squareAt rootSize angle) :=
  ⟨rootSize, angle, rfl, rfl, rfl, rfl⟩

theorem upToDate_fiducialAt (rootSize angle : ℝ) : (fiducialAt rootSize angle).UpToDate exact :=
  fun updated => absurd updated Bool.false_ne_true

theorem overlap_told_iff_turned :
    ((((squareAt 2 0).interior ∩ (squareAt 2 (Real.pi / 4)).interior).Nonempty →
        ((fiducialAt 2 0).isFidCollided exact (fiducialAt 2 (Real.pi / 4))).1 = true) ∧
      ((squareAt 2 0).closed ∩ (squareAt 2 (Real.pi / 4)).closed = ∅ →
        ((fiducialAt 2 0).isFidCollided exact (fiducialAt 2 (Real.pi / 4))).1 = false)) ↔
    ((squareAt 2 0).interior ∩ (squareAt 2 (Real.pi / 4)).interior = ∅ ∨
      ∃ i, LeansInto (squareAt 2 0).corner ((squareAt 2 (Real.pi / 4)).corner i) ∨
        LeansInto (squareAt 2 (Real.pi / 4)).corner ((squareAt 2 0).corner i)) :=
  overlap_told_iff (hasSquare_fiducialAt 2 0) (upToDate_fiducialAt 2 0)
    (hasSquare_fiducialAt 2 (Real.pi / 4))

theorem half_squareAt (angle : ℝ) : (squareAt 2 angle).half = 1 := by
  simp [Square.half_eq, squareAt]

theorem zero_mem_interior (angle : ℝ) : (0, 0) ∈ (squareAt 2 angle).interior := by
  have located : (squareAt 2 angle).pose.locate (0, 0) = (0, 0) := by
    apply Prod.ext <;> simp [Pose.locate, rotated, Square.pose, squareAt]
  have inside : |(0 : ℝ)| < (squareAt 2 angle).half := by
    rw [half_squareAt, abs_zero]
    exact one_pos
  constructor
  · rwa [located]
  · rwa [located]

/-- The corners of one of the squares are outside another one. -/
theorem corner_squareAt_not_mem {angle other : ℝ}
    (turned : Real.sin (angle - other) * Real.cos (angle - other) ≠ 0) (i : Fin 4) :
    (squareAt 2 other).corner i ∉ (squareAt 2 angle).closed := by
  have half : (squareAt 2 other).half = (squareAt 2 angle).half := by
    rw [half_squareAt, half_squareAt]
  have positive : 0 < (squareAt 2 angle).half := by
    rw [half_squareAt]
    exact one_pos
  have difference : (squareAt 2 other).angle - (squareAt 2 angle).angle = angle - other := by
    simp only [squareAt]
    ring
  have center : (squareAt 2 other).center = (squareAt 2 angle).center := rfl
  rw [← difference] at turned
  exact Square.corner_not_mem_closed center half positive turned i

/-- Of two squares with the same centre and side, one is turned by an eighth. -/
theorem not_isFidCollided_turned :
    ((squareAt 2 0).interior ∩ (squareAt 2 (Real.pi / 4)).interior).Nonempty ∧
      ((fiducialAt 2 0).isFidCollided exact (fiducialAt 2 (Real.pi / 4))).1 = false := by
  have eighth : Real.sin (Real.pi / 4) * Real.cos (Real.pi / 4) ≠ 0 := by
    rw [Real.sin_pi_div_four, Real.cos_pi_div_four]
    positivity
  constructor
  · exact ⟨(0, 0), zero_mem_interior 0, zero_mem_interior (Real.pi / 4)⟩
  · rw [← Bool.not_eq_true, isFidCollided_iff_leansInto (hasSquare_fiducialAt 2 0)
      (upToDate_fiducialAt 2 0) (hasSquare_fiducialAt 2 (Real.pi / 4))]
    rintro ⟨i, leans | leans⟩
    · refine corner_squareAt_not_mem ?_ i (Square.mem_closed_of_leansInto leans)
      rw [zero_sub, Real.sin_neg, Real.cos_neg, neg_mul]
      exact neg_ne_zero.mpr eighth
    · refine corner_squareAt_not_mem ?_ i (Square.mem_closed_of_leansInto leans)
      rw [sub_zero]
      exact eighth

end OfxFiducial

end OfxPrimes.Fiducial
