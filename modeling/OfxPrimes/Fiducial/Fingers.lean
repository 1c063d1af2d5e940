import Mathlib.Data.List.Induction
import OfxPrimes.Fiducial.OfxFinger

/-!
# The fingers of the tracker

`findFingers` gives every accepted region to the nearest finger, or starts a new
one, and then ages all fingers.  A finger has one life.  `update` does not add to
it, and `operator=(const RegionX&)` leaves `updated` unset, so after a call the
list holds exactly the fingers that a region of this call has updated: a new
finger is erased in the call that starts it, unless a later region of the same
call is given to it.
-/

namespace OfxPrimes.Fiducial

variable {F : Type}

/-- The fields of the tracker that the search for fingers writes. -/
structure FingerTracker (F : Type) where
  fiducialsList : List (OfxFiducial F)
  fingersList : List (OfxFinger F)
  fingerId : Int

/-- What a call of `findFingers` meets: the settings, the listed fiducials, the
regions and the pixels. -/
structure FingerCall (F : Type) where
  settings : FingerSettings F
  fiducialsList : List (OfxFiducial F)
  regions : List RegionX
  pixels : Int → Int

/-! ## The nearest finger -/

/-- What the loop over the fingers keeps: the position of the finger found so
far, and the distance to beat. -/
structure Match (F : Type) where
  existingFinger : Option Nat
  closest : F

/-- The distance between two regions. -/
def regionDistance (arith : FloatArith F) (region other : RegionX) : F :=
  let dx : Int := (other.x - region.x).natAbs
  let dy : Int := (other.y - region.y).natAbs
  arith.sqrt (arith.ofInt (dx * dx + dy * dy))

/-- The first other region of a finger's size that is no farther than `distance`:
its distance. -/
def anotherCloser (arith : FloatArith F) (call : FingerCall F) (entry : RegionX × Nat)
    (distance : F) : Option F :=
  call.regions.zipIdx.findSome? fun other =>
    let dist := regionDistance arith entry.1 other.1
    if other.2 ≠ entry.2 ∧ hasFingerSize arith call.settings other.1 = true ∧
        hasFingerShape entry.1 = true ∧ arith.le dist distance = true then
      some dist
    else none

/-- One round of the loop over the fingers. -/
def matchFinger (arith : FloatArith F) (call : FingerCall F) (entry : RegionX × Nat)
    (found : Match F) (finger : OfxFinger F × Nat) : Match F :=
  let distance :=
    finger.1.getDistance arith (arith.ofInt entry.1.x) (arith.ofInt entry.1.y)
  let maxFingerSize := call.settings.maxFingerSize
  if arith.lt distance (arith.mul maxFingerSize (arith.ofInt 2)) &&
      arith.lt distance found.closest then
    if arith.lt (arith.div maxFingerSize (arith.ofInt 2)) distance then
      match anotherCloser arith call entry distance with
      | some dist => { existingFinger := none, closest := dist }
      | none => { existingFinger := some finger.2, closest := distance }
    else { existingFinger := some finger.2, closest := distance }
  else found

/-- The loop over the fingers: the position of the finger a region is given to. -/
def searchFinger (arith : FloatArith F) (call : FingerCall F) (fingersList : List (OfxFinger F))
    (entry : RegionX × Nat) : Option Nat :=
  (fingersList.zipIdx.foldl (matchFinger arith call entry)
    { existingFinger := none, closest := arith.ofInt call.settings.mWidth }).existingFinger

/-! ## The call -/

/-- The region passes the fiducial, size, shape and `check_finger` tests. -/
def accepted (arith : FloatArith F) (call : FingerCall F) (fiducialsList : List (OfxFiducial F))
    (region : RegionX) : Bool :=
  !(insideFiducial arith region fiducialsList).1 && hasFingerSize arith call.settings region &&
    hasFingerShape region && 0 ≤ checkFinger arith call.settings call.pixels region

/-- The call of `update` for a finger that is listed already. -/
def updateFinger (arith : FloatArith F) (region : RegionX) (finger : OfxFinger F) : OfxFinger F :=
  finger.update arith (arith.ofInt region.x) (arith.ofInt region.y) region.width region.height
    region.area

/-- The finger that is listed for a region without one. -/
def addFinger (arith : FloatArith F) (fingerId : Int) (region : RegionX) : OfxFinger F :=
  { OfxFinger.construct arith 0 0 with fingerId := fingerId }.assign arith region

/-- One round of the loop over the regions. -/
def takeRegion (arith : FloatArith F) (call : FingerCall F) (tracker : FingerTracker F)
    (entry : RegionX × Nat) : FingerTracker F :=
  let looked :=
    { tracker with
      fiducialsList := (insideFiducial arith entry.1 tracker.fiducialsList).2 }
  if accepted arith call tracker.fiducialsList entry.1 then
    match searchFinger arith call tracker.fingersList entry with
    | some position =>
        { looked with
          fingersList := tracker.fingersList.modify position (updateFinger arith entry.1) }
    | none =>
        { looked with
          fingersList := tracker.fingersList ++ [addFinger arith tracker.fingerId entry.1]
          fingerId := tracker.fingerId + 1 }
  else looked

/-- One round of the loop that erases dead fingers. -/
def eraseDeadFinger (finger : OfxFinger F) : Option (OfxFinger F) :=
  let alive := finger.isAlive
  if alive.1 then some alive.2 else none

/-- The tracker when a call begins. -/
def FingerTracker.beginCall (tracker : FingerTracker F) (call : FingerCall F) :
    FingerTracker F :=
  { tracker with fiducialsList := call.fiducialsList }

/-- `findFingers`, from the regions of `find_regionsX` on. -/
def findFingers (arith : FloatArith F) (tracker : FingerTracker F) (call : FingerCall F) :
    FingerTracker F :=
  let taken := call.regions.zipIdx.foldl (takeRegion arith call) (tracker.beginCall call)
  { taken with fingersList := taken.fingersList.filterMap eraseDeadFinger }

/-- A tracker that has seen nothing yet. -/
def FingerTracker.start : FingerTracker F :=
  { fiducialsList := []
    fingersList := []
    fingerId := 0 }

/-- The tracker after a sequence of calls. -/
def fingersAfter (arith : FloatArith F) (calls : List (FingerCall F)) : FingerTracker F :=
  calls.foldl (findFingers arith) FingerTracker.start

/-! ## Which finger a region goes to -/

/-- What becomes of an accepted region. -/
inductive FingerEvent
  | updated (fingerId : Int)
  | started (fingerId : Int)
  deriving DecidableEq, Repr

/-- The finger of an accepted region. -/
def FingerEvent.fingerId : FingerEvent → Int
  | .updated fingerId => fingerId
  | .started fingerId => fingerId

/-- What becomes of a region, if it is accepted. -/
def regionEvent (arith : FloatArith F) (call : FingerCall F) (tracker : FingerTracker F)
    (entry : RegionX × Nat) : Option FingerEvent :=
  if accepted arith call tracker.fiducialsList entry.1 then
    match searchFinger arith call tracker.fingersList entry with
    | some position =>
        (tracker.fingersList[position]?).map fun finger => .updated finger.fingerId
    | none => some (.started tracker.fingerId)
  else none

/-- What becomes of the accepted ones among some regions, in order. -/
def regionEvents (arith : FloatArith F) (call : FingerCall F) :
    FingerTracker F → List (RegionX × Nat) → List FingerEvent
  | _, [] => []
  | tracker, entry :: rest =>
      (regionEvent arith call tracker entry).toList ++
        regionEvents arith call (takeRegion arith call tracker entry) rest

/-- What becomes of the accepted regions of a call. -/
def callEvents (arith : FloatArith F) (tracker : FingerTracker F) (call : FingerCall F) :
    List FingerEvent :=
  regionEvents arith call (tracker.beginCall call) call.regions.zipIdx

/-- The ids of the listed fingers. -/
def FingerTracker.ids (tracker : FingerTracker F) : List Int :=
  tracker.fingersList.map OfxFinger.fingerId

end OfxPrimes.Fiducial
