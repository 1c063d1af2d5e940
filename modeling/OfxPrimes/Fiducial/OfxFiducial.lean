import OfxPrimes.Fiducial.Scalar

/-!
# A tracked fiducial

`ofxFiducial` remembers where a marker was in the current and in the last frame,
whether it is found or lost, and how much life it has left.  `update` is called
when a frame shows the marker, `isAlive` once a frame for every marker.
Speeds, accelerations and times are written but never read by the code modelled
here and are left out.
-/

namespace OfxPrimes.Fiducial

/-- The values of `state`. -/
inductive FiducialState
  | lost
  | found
  | invalid
  | wrong
  | region
  deriving DecidableEq, Repr

/-- `INVALID_FIDUCIAL_ID`, which is also `INVALID_ID`. -/
def invalidFiducialId : Int :=
  -1

/-- A detection as `find_fiducialsX` reports it. -/
structure FiducialX (F : Type) where
  id : Int
  x : F
  y : F
  angle : F
  leafSize : F
  rootSize : F
  deriving DecidableEq, Repr

/-- `struct _frame`. -/
structure Frame (F : Type) where
  xpos : F
  ypos : F
  angle : F
  deriving DecidableEq, Repr

/-- `class ofxFiducial`. -/
structure OfxFiducial (F : Type) where
  fidId : Int
  rSize : F
  lSize : F
  current : Frame F
  last : Frame F
  updateCorners : Bool
  cornerPoints : List (Point F)
  life : Int
  state : FiducialState
  alive : Bool
  updated : Bool
  cornersUpdated : Bool
  deriving DecidableEq, Repr

/-- `MAX_FIDUCIAL_LIFE`. -/
def maxFiducialLife : Int :=
  3

/-- `MIN_FIDUCIAL_LIFE`. -/
def minFiducialLife : Int :=
  2

namespace OfxFiducial

variable {F : Type}

/-- `ofxFiducial()`, constructed over the memory `junk`: the sizes and the state
keep whatever value is there. -/
def construct (arith : FloatArith F) (junk : OfxFiducial F) : OfxFiducial F :=
  let current : Frame F :=
    { xpos := arith.invalidCoords, ypos := arith.invalidCoords, angle := arith.ofInt 0 }
  { junk with
    fidId := invalidFiducialId
    current := current
    alive := true
    cornersUpdated := false
    updated := false
    updateCorners := false
    life := minFiducialLife
    cornerPoints := List.replicate 4 ⟨arith.ofInt 0, arith.ofInt 0⟩
    last := current }

/-- Memory that is all zero. -/
def zeroed (arith : FloatArith F) : OfxFiducial F :=
  let zero : Frame F :=
    { xpos := arith.ofInt 0, ypos := arith.ofInt 0, angle := arith.ofInt 0 }
  { fidId := 0
    rSize := arith.ofInt 0
    lSize := arith.ofInt 0
    current := zero
    last := zero
    updateCorners := false
    cornerPoints := []
    life := 0
    state := .lost
    alive := false
    updated := false
    cornersUpdated := false }

/-- `operator=( const FiducialX& fiducial)`. -/
def assign (fiducial : FiducialX F) (self : OfxFiducial F) : OfxFiducial F :=
  { self with
    fidId := fiducial.id
    current := { xpos := fiducial.x, ypos := fiducial.y, angle := fiducial.angle }
    rSize := fiducial.rootSize
    lSize := fiducial.leafSize }

/-- `getAngle()`. -/
def getAngle (arith : FloatArith F) (self : OfxFiducial F) : F :=
  arith.sub arith.twoPi self.current.angle

/-- `getDistance(float _x, float _y)`. -/
def getDistance (arith : FloatArith F) (self : OfxFiducial F) (x y : F) : F :=
  arith.hypot (arith.sub x self.current.xpos) (arith.sub y self.current.ypos)

/-- `computeCorners()`. -/
def computeCorners (arith : FloatArith F) (self : OfxFiducial F) : OfxFiducial F :=
  let halfSize := arith.div self.rSize (arith.ofInt 2)
  let upperLeftCornerX := arith.sub self.current.xpos halfSize
  let upperLeftCornerY := arith.sub self.current.ypos halfSize
  let hyp := self.getDistance arith upperLeftCornerX upperLeftCornerY
  let rad := arith.add (self.getAngle arith) arith.pi
  let corner (degrees : Int) : Point F :=
    let direction := arith.add rad (arith.radians degrees)
    { x := arith.add (arith.mul hyp (arith.cos direction)) self.current.xpos
      y := arith.add (arith.mul hyp (arith.sin direction)) self.current.ypos }
  { self with
    cornerPoints := [corner 135, corner 45, corner 315, corner 225]
    cornersUpdated := true }

/-- `saveLastFrame()`. -/
def saveLastFrame (self : OfxFiducial F) : OfxFiducial F :=
  { self with last := self.current }

/-- The part of `update` that takes over the new values. -/
def takeOver (arith : FloatArith F) (x y angle root leaf : F) (self : OfxFiducial F) :
    OfxFiducial F :=
  let threshold := arith.jitterThreshold
  let angleThreshold := arith.div threshold (arith.ofInt 20)
  { self with
    current :=
      { xpos := arith.filterJitter threshold x self.current.xpos self.last.xpos
        ypos := arith.filterJitter threshold y self.current.ypos self.last.ypos
        angle := arith.filterJitter angleThreshold angle self.current.angle self.last.angle }
    rSize := root
    lSize := leaf
    state := .found
    updated := true }

/-- The part of `update` that keeps the corners up to date. -/
def refreshCorners (arith : FloatArith F) (self : OfxFiducial F) : OfxFiducial F :=
  if self.updateCorners then self.computeCorners arith else { self with cornersUpdated := false }

/-- The part of `update` that takes two steps forward in life. -/
def gainLife (self : OfxFiducial F) : OfxFiducial F :=
  if self.life < maxFiducialLife then { self with life := self.life + 2 } else self

/-- `update(float _x, float _y, float _angle, float _root, float _leaf)`. -/
def update (arith : FloatArith F) (x y angle root leaf : F) (self : OfxFiducial F) :
    OfxFiducial F :=
  (((self.takeOver arith x y angle root leaf).refreshCorners arith).saveLastFrame).gainLife

/-- The part of `isAlive` that deals with a fiducial that was not updated. -/
def missFrame (self : OfxFiducial F) : OfxFiducial F :=
  if self.updated then self
  else
    { self with
      state := .lost
      current := self.last
      life := self.life - 1 }

/-- `isAlive()`: the answer and the fiducial after the call. -/
def isAlive (self : OfxFiducial F) : Bool × OfxFiducial F :=
  let aged := self.missFrame
  let alive := if aged.life = 0 then false else aged.alive
  (alive, { aged with alive := alive, updated := false })

/-- One round of the loop in `isPointInside`: whether the edge from `p1` to `p2`
is crossed. -/
def crossesEdge (arith : FloatArith F) (x y : F) (p1 p2 : Point F) : Bool :=
  let xinters := arith.add
    (arith.div (arith.mul (arith.sub y p1.y) (arith.sub p2.x p1.x)) (arith.sub p2.y p1.y)) p1.x
  arith.lt (arith.min p1.y p2.y) y && arith.le y (arith.max p1.y p2.y) &&
    arith.le x (arith.max p1.x p2.x) && !arith.eq p1.y p2.y &&
      (arith.eq p1.x p2.x || arith.le x xinters)

/-- `isPointInside(float _x, float _y)`: the answer and the fiducial after the
call, which may compute its corners. -/
def isPointInside (arith : FloatArith F) (x y : F) (self : OfxFiducial F) :
    Bool × OfxFiducial F :=
  let cornered := if self.cornersUpdated then self else self.computeCorners arith
  let edges := cornered.cornerPoints.zip (cornered.cornerPoints.rotate 1)
  let counter := (edges.filter fun edge => crossesEdge arith x y edge.1 edge.2).length
  (counter % 2 ≠ 0, cornered)

/-! ## What the operations do to each field -/

section Parts

variable (arith : FloatArith F) (self : OfxFiducial F)

/-- The corners are all that `computeCorners` and `refreshCorners` change. -/
theorem refreshCorners_eq :
    self.refreshCorners arith =
      { self with
        cornerPoints := (self.refreshCorners arith).cornerPoints
        cornersUpdated := (self.refreshCorners arith).cornersUpdated } := by
  unfold refreshCorners
  split <;> rfl

theorem gainLife_eq :
    self.gainLife =
      { self with
        life := if self.life < maxFiducialLife then self.life + 2 else self.life } := by
  unfold gainLife
  split <;> rfl

end Parts

section Update

variable (arith : FloatArith F) (x y angle root leaf : F) (self : OfxFiducial F)

@[simp]
theorem update_fidId : (self.update arith x y angle root leaf).fidId = self.fidId := by
  rw [update, gainLife_eq, refreshCorners_eq]
  rfl

@[simp]
theorem update_state : (self.update arith x y angle root leaf).state = .found := by
  rw [update, gainLife_eq, refreshCorners_eq]
  rfl

@[simp]
theorem update_updated : (self.update arith x y angle root leaf).updated = true := by
  rw [update, gainLife_eq, refreshCorners_eq]
  rfl

@[simp]
theorem update_alive : (self.update arith x y angle root leaf).alive = self.alive := by
  rw [update, gainLife_eq, refreshCorners_eq]
  rfl

/-- Two steps forward, unless there is life enough. -/
@[simp]
theorem update_life :
    (self.update arith x y angle root leaf).life =
      if self.life < maxFiducialLife then self.life + 2 else self.life := by
  rw [update, gainLife_eq, refreshCorners_eq]
  rfl

@[simp]
theorem update_current :
    (self.update arith x y angle root leaf).current =
      { xpos := arith.filterJitter arith.jitterThreshold x self.current.xpos self.last.xpos
        ypos := arith.filterJitter arith.jitterThreshold y self.current.ypos self.last.ypos
        angle := arith.filterJitter (arith.div arith.jitterThreshold (arith.ofInt 20)) angle
          self.current.angle self.last.angle } := by
  rw [update, gainLife_eq, refreshCorners_eq]
  rfl

/-- After an update the last frame is the current one. -/
theorem update_last :
    (self.update arith x y angle root leaf).last =
      (self.update arith x y angle root leaf).current := by
  rw [update, gainLife_eq, refreshCorners_eq]
  rfl

end Update

/-- A fiducial that was updated keeps its life. -/
theorem isAlive_of_updated {self : OfxFiducial F} (updated : self.updated = true)
    (alive : self.alive = true) (life : self.life ≠ 0) :
    self.isAlive = (true, { self with updated := false }) := by
  have aged : self.missFrame = self := if_pos updated
  simp only [isAlive, aged, if_neg life, alive]

/-- A fiducial that was not updated is lost, is put back to where it was in the
last frame, and pays with one life. -/
theorem isAlive_of_missing {self : OfxFiducial F} (missing : self.updated = false)
    (alive : self.alive = true) (life : self.life ≠ 1) :
    self.isAlive =
      (true, { self with state := .lost, current := self.last, life := self.life - 1 }) := by
  have enough : self.life - 1 ≠ 0 := by omega
  simp only [isAlive, missFrame, missing, Bool.false_eq_true, if_false, if_neg enough, alive]

/-- The last life is the last. -/
theorem isAlive_of_dying {self : OfxFiducial F} (missing : self.updated = false)
    (life : self.life = 1) : self.isAlive.1 = false := by
  simp [isAlive, missFrame, missing, life]

@[simp]
theorem isAlive_fidId (self : OfxFiducial F) : self.isAlive.2.fidId = self.fidId := by
  simp only [isAlive, missFrame]
  split <;> rfl

end OfxFiducial

end OfxPrimes.Fiducial
