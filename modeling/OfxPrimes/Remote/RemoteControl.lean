import OfxPrimes.Fiducial.Scalar
import OfxPrimes.Tuio.Client

/-!
# The remote control

`ofxRemoteControl` turns the cursors of a TUIO client into a position: two
cursors turn it and move it along the z axis by the change of their angle and
distance, one cursor moves it in the plane.  The client notifies it of new
cursors while it handles the waiting messages.
-/

namespace OfxPrimes.Remote

open OfxPrimes.Fiducial
open OfxPrimes.Osc
open OfxPrimes.Tuio

/-- `ofPoint`. -/
structure OfPoint (F : Type) where
  x : F
  y : F
  z : F
  deriving DecidableEq, Repr

/-- `struct RemotePosition`. -/
structure RemotePosition (F : Type) where
  rot : OfPoint F
  offset : OfPoint F
  deriving DecidableEq, Repr

/-- What the remote control uses and the repository does not contain: the
arithmetic of its numbers, the number a cursor or the client stores, and the
angle and the distance of two cursors. -/
structure RemoteExternals (F : Type) extends Externals where
  arith : FloatArith F
  ofBits : UInt32 → F
  getAngleDegrees : OfxTuioCursor → OfxTuioCursor → F
  getDistanceBetween : OfxTuioCursor → OfxTuioCursor → F

/-- `class ofxRemoteControl`, with the messages that wait for its client. -/
structure OfxRemoteControl (F β : Type) where
  msaRemote : MsaRemoteClient
  waiting : List (OfxOscMessage β)
  pos : RemotePosition F
  touchesAnglePrev : F
  touchesAngle : F
  touchesDistPrev : F
  touchesDist : F
  newCursorDetected : Bool

variable {F β : Type}

/-- `tuioCursorSpeedMult`. -/
def tuioCursorSpeedMult (arith : FloatArith F) : F :=
  arith.div (arith.ofInt 1) (arith.ofInt 100)

namespace OfxRemoteControl

/-- `setup()`.  The flag is in whatever state the memory is. -/
def setup (arith : FloatArith F) (newCursorDetected : Bool) : OfxRemoteControl F β :=
  let zero := arith.ofInt 0
  { msaRemote := {}
    waiting := []
    pos := { rot := ⟨zero, zero, zero⟩, offset := ⟨zero, zero, zero⟩ }
    touchesAnglePrev := zero
    touchesAngle := zero
    touchesDistPrev := zero
    touchesDist := zero
    newCursorDetected }

/-- `_cursorAdded`, the only listener that changes something, as an effect on
`newCursorDetected`. -/
def cursorAdded (newCursorDetected : Bool) : Notification → Bool
  | .cursorAdded tuioCursor => if tuioCursor.fingerId < 2 then true else newCursorDetected
  | _ => newCursorDetected

/-- `msaRemote.getMessage()`, which calls the listeners. -/
def getMessage (env : RemoteExternals F) (control : OfxRemoteControl F β) :
    Option (OfxRemoteControl F β) :=
  (control.msaRemote.getMessage env.toExternals control.waiting).map fun (msaRemote, waiting) =>
    let notified := msaRemote.notifications.drop control.msaRemote.notifications.length
    { control with
      msaRemote
      waiting
      newCursorDetected := notified.foldl cursorAdded control.newCursorDetected }

/-- The part of `update` that follows the accelerometer. -/
def followAccel (env : RemoteExternals F) (control : OfxRemoteControl F β) :
    OfxRemoteControl F β :=
  let turned (value : UInt32) : F := env.arith.mul (env.ofBits value) (env.arith.ofInt 90)
  { control with
    pos :=
      { control.pos with
        rot :=
          { control.pos.rot with
            x := turned control.msaRemote.accelData.1
            y := turned control.msaRemote.accelData.2.1 } } }

/-- The branch of `update` for two cursors. -/
def followPair (env : RemoteExternals F) (first second : OfxTuioCursor)
    (control : OfxRemoteControl F β) : OfxRemoteControl F β :=
  let arith := env.arith
  let touchesAngle := env.getAngleDegrees first second
  let touchesDist := env.getDistanceBetween first second
  let anglePrev := if control.newCursorDetected then touchesAngle else control.touchesAnglePrev
  let distPrev := if control.newCursorDetected then touchesDist else control.touchesDistPrev
  let pos := control.pos
  { control with
    pos :=
      { rot := { pos.rot with z := arith.add pos.rot.z (arith.sub touchesAngle anglePrev) }
        offset :=
          { pos.offset with
            z := arith.sub pos.offset.z
              (arith.mul (arith.sub touchesDist distPrev) (arith.ofInt 4)) } }
    touchesAnglePrev := touchesAngle
    touchesAngle
    touchesDistPrev := touchesDist
    touchesDist
    newCursorDetected := false }

/-- The branch of `update` for one cursor. -/
def followSingle (env : RemoteExternals F) (first : OfxTuioCursor)
    (control : OfxRemoteControl F β) : OfxRemoteControl F β :=
  let arith := env.arith
  let advance (value : F) (speed : UInt32) : F :=
    arith.add value (arith.mul (env.ofBits speed) (tuioCursorSpeedMult arith))
  let offset := control.pos.offset
  { control with
    pos :=
      { control.pos with
        offset :=
          { offset with
            x := advance offset.x first.xSpeed
            y := advance offset.y first.ySpeed } } }

/-- The finger part of `update`. -/
def followCursors (env : RemoteExternals F) (control : OfxRemoteControl F β) :
    OfxRemoteControl F β :=
  match control.msaRemote.cursorList with
  | [first, second] => control.followPair env first second
  | [first] => control.followSingle env first
  | _ => control

/-- `update()`.  Without a waiting message it returns at once. -/
def update (env : RemoteExternals F) (control : OfxRemoteControl F β) :
    Option (OfxRemoteControl F β) :=
  if control.waiting.isEmpty then some control
  else (control.getMessage env).map fun notified => (notified.followAccel env).followCursors env

end OfxRemoteControl

/-- What a remote control goes through: a message arrives for its client, or
`update` is called. -/
inductive RemoteEvent (β : Type) where
  | message (m : OfxOscMessage β)
  | update

end OfxPrimes.Remote
