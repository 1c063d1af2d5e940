import OfxPrimes.Fiducial.OfxFiducial

/-!
# Rays between fiducials

A fiducial shoots a ray from the middle of one of its sides.  The ray ends at
the first fiducial it hits on its way to the edge of the window, or else at that
edge.  The operations of `ofxPoint2f` are not part of this repository and are
the fields of `VectorMath`.
-/

namespace OfxPrimes.Physics

open OfxPrimes.Fiducial

variable {F : Type}

/-- The operations of `ofxPoint2f`. -/
structure VectorMath (F : Type) where
  /-- `p.distance(q)` -/
  distance : Point F → Point F → F
  /-- `p.getMiddle(q)` -/
  getMiddle : Point F → Point F → Point F
  /-- `p.rotateRad(angle, pivot)` -/
  rotateRad : Point F → F → Point F → Point F
  /-- `p.getInterpolated(q, pct)` -/
  getInterpolated : Point F → Point F → F → Point F
  /-- `p * q` -/
  mul : Point F → Point F → Point F

/-- The operations of `ofxPoint2f` over the given arithmetic. -/
def VectorMath.ofArith (arith : FloatArith F) : VectorMath F where
  distance p q := arith.hypot (arith.sub p.x q.x) (arith.sub p.y q.y)
  getMiddle p q :=
    let two := arith.ofInt 2
    ⟨arith.div (arith.add p.x q.x) two, arith.div (arith.add p.y q.y) two⟩
  rotateRad p angle pivot :=
    let dx := arith.sub p.x pivot.x
    let dy := arith.sub p.y pivot.y
    let cosine := arith.cos angle
    let sine := arith.sin angle
    ⟨arith.add (arith.sub (arith.mul dx cosine) (arith.mul dy sine)) pivot.x,
      arith.add (arith.add (arith.mul dx sine) (arith.mul dy cosine)) pivot.y⟩
  getInterpolated p q pct :=
    let rest := arith.sub (arith.ofInt 1) pct
    ⟨arith.add (arith.mul p.x rest) (arith.mul q.x pct),
      arith.add (arith.mul p.y rest) (arith.mul q.y pct)⟩
  mul p q := ⟨arith.mul p.x q.x, arith.mul p.y q.y⟩

/-- The factors `to_window` and `to_normal` that all events carry. -/
structure Conversion (F : Type) where
  toWindow : Point F
  toNormal : Point F
  deriving DecidableEq, Repr

/-- `struct fiducialRayIntersectionEvtArgs`.  A pointer is the fiducial it points
to, or none for `NULL`. -/
structure RayArgs (F : Type) where
  fromFiducial : Option (OfxFiducial F)
  toFiducial : Option (OfxFiducial F)
  fromPt : Point F
  toPt : Point F
  conversion : Conversion F
  deriving DecidableEq, Repr

/-- `MAX_INTERSECTION_DIST`. -/
def maxIntersectionDist (arith : FloatArith F) : F :=
  arith.ofInt 1000

/-- The point of `FIDUCIAL_INVALID_COORDS`. -/
def invalidPoint (arith : FloatArith F) : Point F :=
  ⟨arith.invalidCoords, arith.invalidCoords⟩

/-- Where the line from `origin` to `endpoint` crosses the side from `corner` to
`nextCorner`. -/
def crossing (arith : FloatArith F) (origin endpoint corner nextCorner : Point F) :
    Option (Point F) :=
  let dp : Point F := ⟨arith.sub corner.x origin.x, arith.sub corner.y origin.y⟩
  let qa : Point F := ⟨arith.sub endpoint.x origin.x, arith.sub endpoint.y origin.y⟩
  let qb : Point F := ⟨arith.sub nextCorner.x corner.x, arith.sub nextCorner.y corner.y⟩
  let d := arith.sub (arith.mul qa.y qb.x) (arith.mul qb.y qa.x)
  let la := arith.div (arith.sub (arith.mul qb.x dp.y) (arith.mul qb.y dp.x)) d
  let lb := arith.div (arith.sub (arith.mul qa.x dp.y) (arith.mul qa.y dp.x)) d
  let zero := arith.ofInt 0
  let one := arith.ofInt 1
  if arith.le zero la && arith.le la one && arith.le zero lb && arith.le lb one then
    some ⟨arith.add origin.x (arith.mul la qa.x), arith.add origin.y (arith.mul la qa.y)⟩
  else none

/-- `Routines::lineSegmentTest`. -/
def lineSegmentTest (arith : FloatArith F) (math : VectorMath F) (origin endpoint : Point F)
    (corners : List (Point F)) : Point F :=
  let sides := corners.zip (corners.rotate 1)
  let nearest := sides.foldl (fun (best : F × Point F) side =>
    match crossing arith origin endpoint side.1 side.2 with
    | some hitPoint =>
        let dist := math.distance origin hitPoint
        if arith.lt dist best.1 then (dist, hitPoint) else best
    | none => best) (math.distance origin endpoint, invalidPoint arith)
  nearest.2

/-- `Routines::intersects_window_edge`, with the corners of `SHAPE_WINDOW`. -/
def intersectsWindowEdge (arith : FloatArith F) (math : VectorMath F)
    (windowCorners : Option (List (Point F))) (origin endpoint : Point F) : Point F :=
  match windowCorners with
  | some corners => lineSegmentTest arith math origin endpoint corners
  | none => invalidPoint arith

/-- What the loop of `findMinIntersectionRay` keeps. -/
structure Nearest (F : Type) where
  minDist : F
  firstHitPoint : Point F
  hitFiducial : Option (OfxFiducial F)

/-- One round of the loop of `findMinIntersectionRay`. -/
def checkFiducial (arith : FloatArith F) (math : VectorMath F) (origin : Point F)
    (nearest : Nearest F) (chkFiducial : OfxFiducial F) : Nearest F :=
  let hitPoint := lineSegmentTest arith math origin nearest.firstHitPoint chkFiducial.cornerPoints
  if arith.le (arith.ofInt 0) hitPoint.x && arith.le (arith.ofInt 0) hitPoint.y then
    let dist := math.distance origin hitPoint
    if arith.lt dist nearest.minDist then
      { minDist := dist, firstHitPoint := hitPoint, hitFiducial := some chkFiducial }
    else nearest
  else nearest

/-- `Routines::findMinIntersectionRay` for the fiducial at a position of the
list: what the ray hits, and where. -/
def findMinIntersectionRay (arith : FloatArith F) (math : VectorMath F)
    (windowCorners : Option (List (Point F))) (fiducialsList : List (OfxFiducial F))
    (position : Nat) (origin : Point F) (angle : F) : Option (OfxFiducial F) × Point F :=
  let endpoint := math.rotateRad ⟨arith.add origin.x (maxIntersectionDist arith), origin.y⟩
    angle origin
  let edgeHitPoint := intersectsWindowEdge arith math windowCorners origin endpoint
  let others := fiducialsList.eraseIdx position
  let nearest := others.foldl (checkFiducial arith math origin)
    { minDist := math.distance origin edgeHitPoint
      firstHitPoint := edgeHitPoint
      hitFiducial := none }
  (nearest.hitFiducial, nearest.firstHitPoint)

/-- `cornerPoints[index]`. -/
def cornerPoint (arith : FloatArith F) (fiducial : OfxFiducial F) (index : Nat) : Point F :=
  fiducial.cornerPoints.getD index ⟨arith.ofInt 0, arith.ofInt 0⟩

/-- `FIDUCIAL_ANGLE_CORRECTION_RADIANS` of the physics: no correction. -/
def angleCorrectionRadians (arith : FloatArith F) : F :=
  arith.mul (arith.ofInt 0) (arith.div arith.pi (arith.ofInt 180))

/-- The event that `findIntersectionsRay` pushes. -/
def shootRay (arith : FloatArith F) (math : VectorMath F)
    (windowCorners : Option (List (Point F))) (fiducialsList : List (OfxFiducial F))
    (position : Nat) (fiducial : OfxFiducial F) : RayArgs F :=
  let origin := math.getMiddle (cornerPoint arith fiducial 0) (cornerPoint arith fiducial 3)
  let angle := arith.add (fiducial.getAngle arith) (angleCorrectionRadians arith)
  let hit := findMinIntersectionRay arith math windowCorners fiducialsList position origin angle
  let unit : Point F := ⟨arith.ofInt 1, arith.ofInt 1⟩
  { fromFiducial := some fiducial
    toFiducial := hit.1
    fromPt := origin
    toPt := hit.2
    conversion := ⟨unit, unit⟩ }

/-- `Routines::findIntersectionsRay`: the queue of the default routine. -/
def findIntersectionsRay (arith : FloatArith F) (math : VectorMath F)
    (windowCorners : Option (List (Point F))) (fiducialsList : List (OfxFiducial F))
    (position : Nat) (fiducial : OfxFiducial F) : List (RayArgs F) :=
  [shootRay arith math windowCorners fiducialsList position fiducial]

end OfxPrimes.Physics
