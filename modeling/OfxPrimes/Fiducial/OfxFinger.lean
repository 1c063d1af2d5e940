import OfxPrimes.Fiducial.OfxFiducial

/-!
# Fingers and the regions they are found in

`ofxFinger` is a tracked finger, `RegionX` a white region of the image.
`check_finger` compares the pixels of a region with a disc.  Speeds, times and
the state of a finger are written but never read and are left out.
-/

namespace OfxPrimes.Fiducial

variable {F : Type}

/-- A region as `find_regionsX` reports it. -/
structure RegionX where
  top : Int
  left : Int
  width : Int
  height : Int
  x : Int
  y : Int
  area : Int
  deriving DecidableEq, Repr

/-- The fields of the tracker that the search for fingers reads. -/
structure FingerSettings (F : Type) where
  mWidth : Int
  mHeight : Int
  fingerSensitivity : F
  minFingerSize : F
  maxFingerSize : F

/-! ## `ofxFinger` -/

/-- `class ofxFinger`. -/
structure OfxFinger (F : Type) where
  fingerId : Int
  area : Int
  width : Int
  height : Int
  current : Point F
  last : Point F
  alive : Bool
  updated : Bool
  life : Int
  deriving DecidableEq, Repr

namespace OfxFinger

/-- `ofxFinger()`.  Width and height keep whatever value is in memory. -/
def construct (arith : FloatArith F) (junkWidth junkHeight : Int) : OfxFinger F :=
  let outside : Point F := ⟨arith.invalidCoords, arith.invalidCoords⟩
  { fingerId := invalidFiducialId
    area := 0
    width := junkWidth
    height := junkHeight
    current := outside
    last := outside
    alive := true
    updated := false
    life := 1 }

/-- `operator=( const RegionX& region)`. -/
def assign (arith : FloatArith F) (region : RegionX) (self : OfxFinger F) : OfxFinger F :=
  { self with
    current := ⟨arith.ofInt region.x, arith.ofInt region.y⟩
    width := region.width
    height := region.height
    area := region.area }

/-- `update(float _x, float _y, short _width, short _height, int _area)`. -/
def update (arith : FloatArith F) (x y : F) (width height area : Int) (self : OfxFinger F) :
    OfxFinger F :=
  let threshold := arith.jitterThreshold
  let current : Point F :=
    { x := arith.filterJitter threshold x self.current.x self.last.x
      y := arith.filterJitter threshold y self.current.y self.last.y }
  { self with
    current := current
    width := width
    height := height
    area := area
    updated := true
    last := current }

/-- `isAlive()`: the answer and the finger after the call. -/
def isAlive (self : OfxFinger F) : Bool × OfxFinger F :=
  let aged :=
    if self.updated then self
    else { self with current := self.last, life := self.life - 1 }
  let alive := if aged.life = 0 then false else aged.alive
  (alive, { aged with alive := alive, updated := false })

/-- `getDistance(float _x, float _y)`. -/
def getDistance (arith : FloatArith F) (self : OfxFinger F) (x y : F) : F :=
  arith.hypot (arith.sub x self.current.x) (arith.sub y self.current.y)

@[simp]
theorem isAlive_fingerId (self : OfxFinger F) : self.isAlive.2.fingerId = self.fingerId := by
  simp only [isAlive]
  split <;> rfl

end OfxFinger

/-! ## The tests of a region -/

/-- A value stored in a `short`. -/
def toShort (value : Int) : Int :=
  value.bmod (2 ^ 16)

/-- The size test that the code makes of a region and of the regions around it. -/
def hasFingerSize (arith : FloatArith F) (settings : FingerSettings F) (region : RegionX) : Bool :=
  arith.lt settings.minFingerSize (arith.ofInt region.width) &&
    arith.lt (arith.ofInt region.width) settings.maxFingerSize &&
      arith.lt settings.minFingerSize (arith.ofInt region.height) &&
        arith.lt (arith.ofInt region.height) settings.maxFingerSize

/-- `diff < max_diff`: the region is about as wide as it is high. -/
def hasFingerShape (region : RegionX) : Bool :=
  let diff : Int := (region.width - region.height).natAbs
  let maxDiff :=
    if region.width < region.height then region.height.tdiv 2 else region.width.tdiv 2
  diff < maxDiff

/-- One round of the loops of `check_finger`, for the pixel at `x` and `y` of the
mask.  `none` is the early return. -/
def checkPixel (arith : FloatArith F) (settings : FingerSettings F) (pixels : Int → Int)
    (finger : RegionX) (maskSize : Int) (errors : Int × Int) (x y : Int) : Option (Int × Int) :=
  let half := arith.div (arith.ofInt 1) (arith.ofInt 2)
  let outerRadius := arith.div (arith.ofInt maskSize) (arith.ofInt 2)
  let innerRadius := arith.div (arith.ofInt maskSize) (arith.ofInt 3)
  let roundedOuterRadius := arith.floor (arith.add outerRadius half)
  let roundedInnerRadius := arith.ceil (arith.add innerRadius half)
  let xratio := arith.div (arith.ofInt maskSize) (arith.ofInt finger.width)
  let yratio := arith.div (arith.ofInt maskSize) (arith.ofInt finger.height)
  let px := finger.left + arith.floor (arith.add (arith.div (arith.ofInt x) xratio) half)
  let py := finger.top + arith.floor (arith.add (arith.div (arith.ofInt y) yratio) half)
  let fingerPixel := py * settings.mWidth + px
  if settings.mWidth * settings.mHeight ≤ fingerPixel ∨ fingerPixel < 0 then none
  else
    let dx := arith.add (arith.sub (arith.ofInt x) outerRadius) half
    let dy := arith.add (arith.sub (arith.ofInt y) outerRadius) half
    let dist := arith.floor (arith.add (arith.hypot dx dy) half)
    if roundedOuterRadius < dist ∧ pixels fingerPixel = 255 then
      some (toShort (errors.1 + 1), errors.2)
    else if dist < roundedInnerRadius ∧ pixels fingerPixel = 0 then
      some (errors.1, toShort (errors.2 + 1))
    else some errors

/-- `check_finger`. -/
def checkFinger (arith : FloatArith F) (settings : FingerSettings F) (pixels : Int → Int)
    (finger : RegionX) : Int :=
  let maskSize := if finger.width < finger.height then finger.height else finger.width
  let side := (List.range maskSize.toNat).map Int.ofNat
  let mask := side.flatMap fun x => side.map fun y => (x, y)
  let counted := mask.foldlM (fun errors position =>
    checkPixel arith settings pixels finger maskSize errors position.1 position.2) (0, 0)
  match counted with
  | none => -1
  | some (outerError, innerError) =>
      let half := arith.div (arith.ofInt 1) (arith.ofInt 2)
      let outerRadius := arith.div (arith.ofInt maskSize) (arith.ofInt 2)
      let innerRadius := arith.div (arith.ofInt maskSize) (arith.ofInt 3)
      let discArea (radius : F) := arith.mul (arith.mul radius radius) arith.pi
      let outerMaxError := toShort (arith.floor (arith.add
        (arith.sub (arith.ofInt (maskSize * maskSize)) (discArea outerRadius)) half))
      let innerMaxError := toShort (arith.floor (arith.add (discArea innerRadius) half))
      let exceeds (error maxError share : Int) :=
        arith.lt (arith.mul (arith.ofInt (maxError.tdiv share)) settings.fingerSensitivity)
          (arith.ofInt error)
      if exceeds outerError outerMaxError 4 || exceeds innerError innerMaxError 6 then -1
      else if exceeds outerError outerMaxError 6 || exceeds innerError innerMaxError 9 then 0
      else 1

/-- Whether a region is inside a listed fiducial, and the fiducials after the
test, which computes the corners of those it looks at. -/
def insideFiducial (arith : FloatArith F) (region : RegionX) :
    List (OfxFiducial F) → Bool × List (OfxFiducial F)
  | [] => (false, [])
  | fiducial :: rest =>
      let tested :=
        fiducial.isPointInside arith (arith.ofInt region.x) (arith.ofInt region.y)
      if tested.1 then (true, tested.2 :: rest)
      else
        let later := insideFiducial arith region rest
        (later.1, tested.2 :: later.2)

end OfxPrimes.Fiducial
