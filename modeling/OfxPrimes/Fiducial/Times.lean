import Mathlib.Data.List.Chain
import OfxPrimes.Fiducial.Tracker

/-!
# The times of a tracked fiducial

`computeSpeedAccel` divides by the time since the last frame of the fiducial.  It
does so in `update` and, for a fiducial that was not updated, in `isAlive`.  The
last time is set at the end of `update` only, so that two updates of one id in
one frame are a frame apart for it.
-/

namespace OfxPrimes.Fiducial

open OfxPrimes.Pool

variable {F : Type}

/-- The speeds and accelerations of `struct _frame`. -/
structure Motion (F : Type) where
  motionSpeed : F
  motionAccel : F
  motionSpeedX : F
  motionSpeedY : F
  rotationSpeed : F
  rotationAccel : F
  deriving DecidableEq, Repr

/-- `class ofxFiducial`, with the times and speeds of its current and last frame. -/
structure TimedFiducial (F : Type) where
  base : OfxFiducial F
  time : Int
  motion : Motion F
  lastTime : Int
  lastMotion : Motion F
  deriving DecidableEq, Repr

namespace TimedFiducial

/-- `fidId`. -/
abbrev fidId (self : TimedFiducial F) : Int :=
  self.base.fidId

/-- `saveLastFrame()`. -/
def saveLastFrame (self : TimedFiducial F) : TimedFiducial F :=
  { self with
    base := self.base.saveLastFrame
    lastTime := self.time
    lastMotion :=
      { self.lastMotion with
        motionSpeed := self.motion.motionSpeed
        rotationSpeed := self.motion.rotationSpeed } }

/-- `ofxFiducial()`. -/
def construct (arith : FloatArith F) (junk : TimedFiducial F) : TimedFiducial F :=
  let zero := arith.ofInt 0
  { junk with
    base := .construct arith junk.base
    time := 0
    motion := ⟨zero, zero, zero, zero, zero, zero⟩ }.saveLastFrame

/-- `operator=( const FiducialX& fiducial)` at a time of the clock. -/
def assign (fiducial : FiducialX F) (now : Int) (self : TimedFiducial F) : TimedFiducial F :=
  { self with base := self.base.assign fiducial, time := now }

/-- `computeSpeedAccel()`, with the time difference it divides by, if it does. -/
def computeSpeedAccel (arith : FloatArith F) (self : TimedFiducial F) :
    TimedFiducial F × List Int :=
  if self.lastTime = 0 then (self, [])
  else
    let dt := self.time - self.lastTime
    let dx := arith.sub self.base.current.xpos self.base.last.xpos
    let dy := arith.sub self.base.current.ypos self.base.last.ypos
    let dist := arith.hypot dx dy
    let turn := arith.fabs (arith.sub self.base.current.angle self.base.last.angle)
    let overTime (x : F) : F := arith.div x (arith.ofInt dt)
    let motionSpeed := overTime dist
    let rotationSpeed := overTime turn
    ({ self with
        motion :=
          { motionSpeed
            motionAccel := overTime (arith.sub motionSpeed self.lastMotion.motionSpeed)
            motionSpeedX := arith.fabs (overTime dx)
            motionSpeedY := arith.fabs (overTime dy)
            rotationSpeed
            rotationAccel := overTime (arith.sub rotationSpeed self.lastMotion.rotationSpeed) } },
      [dt])

/-- `update(float _x, float _y, float _angle, float _root, float _leaf)` at a time of
the clock, with what `computeSpeedAccel` divides by. -/
def update (arith : FloatArith F) (x y angle root leaf : F) (now : Int)
    (self : TimedFiducial F) : TimedFiducial F × List Int :=
  let taken := { self with base := self.base.takeOver arith x y angle root leaf, time := now }
  let measured := taken.computeSpeedAccel arith
  let saved := { measured.1 with base := measured.1.base.refreshCorners arith }.saveLastFrame
  ({ saved with base := saved.base.gainLife }, measured.2)

/-- `isAlive()`, which reads the clock if the fiducial was not updated: the answer,
the fiducial after the call, and what `computeSpeedAccel` divides by. -/
def isAlive (arith : FloatArith F) (now : Int) (self : TimedFiducial F) :
    Bool × TimedFiducial F × List Int :=
  let aged :=
    if self.base.updated then (self, [])
    else
      let lost :=
        { self with
          base := { self.base with state := .lost, current := self.base.last }
          time := now }
      let measured := lost.computeSpeedAccel arith
      ({ measured.1 with base := { measured.1.base with life := measured.1.base.life - 1 } },
        measured.2)
  let alive := if aged.1.base.life = 0 then false else aged.1.base.alive
  (alive, { aged.1 with base := { aged.1.base with alive, updated := false } }, aged.2)

end TimedFiducial

/-- A frame: the detections, each with the time at which it is taken over, and the
time at which `isAlive` is called for an id. -/
structure TimedFrame (F : Type) where
  fiducials : List (FiducialX F × Int)
  ageTime : Int → Int

namespace TimedFrame

/-- The readings of the clock in a frame. -/
def readings (frame : TimedFrame F) : Set Int :=
  { now | (∃ detected ∈ frame.fiducials, detected.2 = now) ∨ ∃ id, frame.ageTime id = now }

end TimedFrame

/-- The fiducials of a tracker, and what has been divided by. -/
structure TimedTracker (F : Type) where
  fiducialsList : List (TimedFiducial F)
  divisors : List Int

/-- The call of `update` for a fiducial that is listed already. -/
def updateTimed (arith : FloatArith F) (detected : FiducialX F) (now : Int)
    (existing : TimedFiducial F) : TimedFiducial F × List Int :=
  existing.update arith detected.x detected.y
    (arith.add detected.angle (angleCorrectionRadians arith)) detected.rootSize detected.leafSize
    now

/-- The fiducial that is listed for a new id. -/
def addTimed (arith : FloatArith F) (junk : TimedFiducial F) (detected : FiducialX F) (now : Int) :
    TimedFiducial F :=
  (TimedFiducial.construct arith junk).assign detected now

/-- One round of the loop that fills the list. -/
def addTimedDetection (arith : FloatArith F) (junk : TimedFiducial F) (tracker : TimedTracker F)
    (detected : FiducialX F × Int) : TimedTracker F :=
  if detected.1.id ≠ invalidFiducialId then
    let change := updateTimed arith detected.1 detected.2
    { fiducialsList :=
        Keyed.upsert TimedFiducial.fidId detected.1.id (fun existing => (change existing).1)
          (addTimed arith junk detected.1 detected.2) tracker.fiducialsList
      divisors :=
        tracker.divisors ++
          (Keyed.lookup TimedFiducial.fidId detected.1.id tracker.fiducialsList).elim []
            fun existing => (change existing).2 }
  else tracker

/-- The loop that erases dead fiducials. -/
def eraseDeadTimed (arith : FloatArith F) (ageTime : Int → Int) (tracker : TimedTracker F) :
    TimedTracker F :=
  let aged (fiducial : TimedFiducial F) := fiducial.isAlive arith (ageTime fiducial.fidId)
  { fiducialsList := tracker.fiducialsList.filterMap fun fiducial =>
      if (aged fiducial).1 then some (aged fiducial).2.1 else none
    divisors := tracker.divisors ++ tracker.fiducialsList.flatMap fun fiducial =>
      (aged fiducial).2.2 }

/-- `findFiducials`, from the detections of `find_fiducialsX` on. -/
def findFiducialsTimed (arith : FloatArith F) (junk : TimedFiducial F) (tracker : TimedTracker F)
    (frame : TimedFrame F) : TimedTracker F :=
  eraseDeadTimed arith frame.ageTime
    (frame.fiducials.foldl (addTimedDetection arith junk) tracker)

/-- A new tracker after a sequence of frames. -/
def afterTimed (arith : FloatArith F) (junk : TimedFiducial F) (frames : List (TimedFrame F)) :
    TimedTracker F :=
  frames.foldl (findFiducialsTimed arith junk) { fiducialsList := [], divisors := [] }

/-! ## The times are an addition to the fiducials -/

section Forget

variable {arith : FloatArith F} {junk : TimedFiducial F}

theorem computeSpeedAccel_base (self : TimedFiducial F) :
    (self.computeSpeedAccel arith).1.base = self.base := by
  rw [TimedFiducial.computeSpeedAccel]
  split <;> rfl

theorem updateTimed_base (detected : FiducialX F) (now : Int) (existing : TimedFiducial F) :
    (updateTimed arith detected now existing).1.base =
      updateExisting arith detected existing.base := by
  simp only [updateTimed, TimedFiducial.update, TimedFiducial.saveLastFrame,
    computeSpeedAccel_base]
  rfl

theorem isAlive_base (now : Int) (self : TimedFiducial F) :
    (self.isAlive arith now).1 = self.base.isAlive.1 ∧
      (self.isAlive arith now).2.1.base = self.base.isAlive.2 := by
  simp only [TimedFiducial.isAlive, OfxFiducial.isAlive, OfxFiducial.missFrame]
  split
  · exact ⟨rfl, rfl⟩
  · simp only [computeSpeedAccel_base, and_self]

theorem addTimedDetection_base (tracker : TimedTracker F) (detected : FiducialX F × Int) :
    (addTimedDetection arith junk tracker detected).fiducialsList.map TimedFiducial.base =
      addDetection arith junk.base (tracker.fiducialsList.map TimedFiducial.base) detected.1 := by
  rw [addTimedDetection, addDetection]
  split
  · exact Keyed.map_upsert (fun _ => rfl) (updateTimed_base detected.1 detected.2) _
  · rfl

theorem foldl_addTimedDetection_base (tracker : TimedTracker F)
    (fiducials : List (FiducialX F × Int)) :
    (fiducials.foldl (addTimedDetection arith junk) tracker).fiducialsList.map
        TimedFiducial.base =
      (fiducials.map Prod.fst).foldl (addDetection arith junk.base)
        (tracker.fiducialsList.map TimedFiducial.base) := by
  induction fiducials generalizing tracker with
  | nil => rfl
  | cons detected rest ih =>
      rw [List.foldl_cons, ih, addTimedDetection_base]
      rfl

theorem findFiducialsTimed_base (tracker : TimedTracker F) (frame : TimedFrame F) :
    (findFiducialsTimed arith junk tracker frame).fiducialsList.map TimedFiducial.base =
      findFiducials arith junk.base (tracker.fiducialsList.map TimedFiducial.base)
        (frame.fiducials.map Prod.fst) := by
  rw [findFiducials, ← foldl_addTimedDetection_base, findFiducialsTimed, eraseDeadTimed,
    List.map_filterMap, List.filterMap_map]
  congr 1
  funext fiducial
  obtain ⟨alive, aged⟩ :
      (fiducial.isAlive arith (frame.ageTime fiducial.fidId)).1 = fiducial.base.isAlive.1 ∧ _ :=
    isAlive_base _ fiducial
  rw [Function.comp_apply, eraseDead, alive]
  split
  · exact congrArg some aged
  · rfl

/-- Without their times, the fiducials are those of the tracker. -/
theorem afterTimed_base (frames : List (TimedFrame F)) :
    (afterTimed arith junk frames).fiducialsList.map TimedFiducial.base =
      after arith junk.base (frames.map fun frame => frame.fiducials.map Prod.fst) := by
  rw [afterTimed, after]
  induction frames using List.reverseRecOn with
  | nil => rfl
  | append_singleton past frame ih =>
      rw [List.foldl_append, List.map_append, List.foldl_append, ← ih]
      exact findFiducialsTimed_base _ frame

end Forget

end OfxPrimes.Fiducial
