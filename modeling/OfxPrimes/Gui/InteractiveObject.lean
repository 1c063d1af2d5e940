import OfxPrimes.Fiducial.Scalar
import OfxPrimes.Transition.Latch

/-!
# Interactive objects

An `ofxMSAInteractiveObject` turns mouse events into callbacks.  It remembers
whether the mouse is over its rectangle and whether it is pressed.  The
callbacks are virtual and empty here; the object keeps the list of those it has
made.  `hitTest` is virtual as well and a parameter of the handlers.
-/

namespace OfxPrimes.Gui

open OfxPrimes.Fiducial
open OfxPrimes.Transition

variable {F : Type}

/-- The operations of the mouse handlers on numbers. -/
structure MouseArith (F : Type) extends FloatArith F where
  /-- The number that an `int` holds when it is set to a given one. -/
  toInt : F → F

/-- The operations on rational numbers.  An `int` holds what is left of the point. -/
def MouseArith.rational : MouseArith (Option Rat) where
  toFloatArith := FloatArith.rational
  toInt x := x.map fun a => if a < 0 then a.ceil else a.floor

/-- `ofRectangle`. -/
structure Rectangle (F : Type) where
  x : F
  y : F
  width : F
  height : F
  deriving DecidableEq, Repr

/-- `ofMouseEventArgs`. -/
structure MouseEventArgs (F : Type) where
  x : F
  y : F
  button : Int
  deriving DecidableEq, Repr

/-- A callback with its arguments. -/
inductive Callback (F : Type)
  | onRollOver (x y : F)
  | onRollOut
  | onMouseMove (x y : F)
  | onDragOver (x y : F) (button : Int)
  | onDragOutside (x y : F) (button : Int)
  | onPress (x y : F) (button : Int)
  | onRelease (x y : F) (button : Int)
  | onReleaseOutside (x y : F) (button : Int)
  deriving DecidableEq, Repr

/-- The virtual `hitTest`: whether a point is over the object. -/
abbrev HitTest (F : Type) :=
  Rectangle F → F → F → Bool

/-- `class ofxMSAInteractiveObject`, with the callbacks it has made. -/
structure InteractiveObject (F : Type) where
  rect : Rectangle F
  oldRect : Rectangle F
  enabled : Bool
  mouseX : F
  mouseY : F
  mouseButton : Int
  mouseOver : Bool
  mouseDown : Bool
  callbacks : List (Callback F)
  deriving DecidableEq, Repr

namespace InteractiveObject

/-- The constructor, on memory that holds anything. -/
def constructed (memory : InteractiveObject F) : InteractiveObject F :=
  { memory with mouseOver := false, mouseDown := false, enabled := true, callbacks := [] }

/-- `ofxMSAInteractiveObject::hitTest`. -/
def hitTest (arith : MouseArith F) : HitTest F := fun rect tx ty =>
  arith.lt rect.x tx && arith.lt tx (arith.add rect.x rect.width) &&
    arith.lt rect.y ty && arith.lt ty (arith.add rect.y rect.height)

/-- Make a callback. -/
def call (object : InteractiveObject F) (callback : Callback F) : InteractiveObject F :=
  { object with callbacks := object.callbacks ++ [callback] }

/-- `ofxMSAInteractiveObject::_mouseMoved`. -/
def mouseMoved (arith : MouseArith F) (hitTest : HitTest F) (object : InteractiveObject F)
    (e : MouseEventArgs F) : InteractiveObject F :=
  let x := arith.toInt e.x
  let y := arith.toInt e.y
  if !object.enabled then object
  else
    let object := { object with mouseX := x, mouseY := y }
    if hitTest object.rect x y then
      let object :=
        if !object.mouseOver then { object.call (.onRollOver x y) with mouseOver := true }
        else object
      object.call (.onMouseMove x y)
    else if object.mouseOver then { object.call .onRollOut with mouseOver := false }
    else object

/-- `ofxMSAInteractiveObject::_mousePressed`. -/
def mousePressed (arith : MouseArith F) (hitTest : HitTest F) (object : InteractiveObject F)
    (e : MouseEventArgs F) : InteractiveObject F :=
  let x := arith.toInt e.x
  let y := arith.toInt e.y
  if !object.enabled then object
  else
    let object := { object with mouseX := x, mouseY := y, mouseButton := e.button }
    if hitTest object.rect x y then
      if !object.mouseDown then { object.call (.onPress x y e.button) with mouseDown := true }
      else object
    else object

/-- `ofxMSAInteractiveObject::_mouseDragged`. -/
def mouseDragged (arith : MouseArith F) (hitTest : HitTest F) (object : InteractiveObject F)
    (e : MouseEventArgs F) : InteractiveObject F :=
  let x := arith.toInt e.x
  let y := arith.toInt e.y
  if !object.enabled then object
  else
    let object := { object with mouseX := x, mouseY := y, mouseButton := e.button }
    if hitTest object.rect x y then
      let object := if !object.mouseOver then { object with mouseOver := true } else object
      object.call (.onDragOver x y e.button)
    else
      let object :=
        if object.mouseOver then { object.call .onRollOut with mouseOver := false }
        else object
      if object.mouseDown then object.call (.onDragOutside x y e.button) else object

/-- `ofxMSAInteractiveObject::_mouseReleased`. -/
def mouseReleased (arith : MouseArith F) (hitTest : HitTest F) (object : InteractiveObject F)
    (e : MouseEventArgs F) : InteractiveObject F :=
  let x := arith.toInt e.x
  let y := arith.toInt e.y
  if !object.enabled then object
  else
    let object := { object with mouseX := x, mouseY := y, mouseButton := e.button }
    let object :=
      if hitTest object.rect x y then object.call (.onRelease x y e.button)
      else if object.mouseDown then object.call (.onReleaseOutside x y e.button)
      else object
    { object with mouseDown := false }

/-- `oldRect.x != this->x || oldRect.y != this->y || ...`. -/
def hasMoved (arith : MouseArith F) (object : InteractiveObject F) : Bool :=
  !arith.eq object.oldRect.x object.rect.x || !arith.eq object.oldRect.y object.rect.y ||
    !arith.eq object.oldRect.width object.rect.width ||
    !arith.eq object.oldRect.height object.rect.height

/-- `ofxMSAInteractiveObject::_update`. -/
def update (arith : MouseArith F) (hitTest : HitTest F) (object : InteractiveObject F) :
    InteractiveObject F :=
  if !object.enabled then object
  else if object.hasMoved arith then
    let e := { x := object.mouseX, y := object.mouseY, button := object.mouseButton }
    let object :=
      if object.mouseDown then object.mouseDragged arith hitTest e
      else object.mouseMoved arith hitTest e
    { object with oldRect := object.rect }
  else object

end InteractiveObject

/-- A mouse event. -/
inductive MouseEvent (F : Type)
  | moved (e : MouseEventArgs F)
  | pressed (e : MouseEventArgs F)
  | dragged (e : MouseEventArgs F)
  | released (e : MouseEventArgs F)
  deriving DecidableEq, Repr

/-- What may happen to an object: a mouse event, a frame, or a change of its
rectangle or of `enabled` from outside. -/
inductive Happening (F : Type)
  | mouse (event : MouseEvent F)
  | update
  | setPosAndSize (rect : Rectangle F)
  | setEnabled (enabled : Bool)
  deriving DecidableEq, Repr

namespace InteractiveObject

/-- The handler of a mouse event. -/
def handle (arith : MouseArith F) (hitTest : HitTest F) (object : InteractiveObject F) :
    MouseEvent F → InteractiveObject F
  | .moved e => object.mouseMoved arith hitTest e
  | .pressed e => object.mousePressed arith hitTest e
  | .dragged e => object.mouseDragged arith hitTest e
  | .released e => object.mouseReleased arith hitTest e

/-- The object after one thing has happened to it. -/
def undergo (arith : MouseArith F) (hitTest : HitTest F) (object : InteractiveObject F) :
    Happening F → InteractiveObject F
  | .mouse event => object.handle arith hitTest event
  | .update => object.update arith hitTest
  | .setPosAndSize rect => { object with rect }
  | .setEnabled enabled => { object with enabled }

end InteractiveObject

namespace InteractiveObject

variable {arith : MouseArith F} {hitTest : HitTest F} {object : InteractiveObject F}

/-- No mouse event moves or disables the object. -/
theorem handle_frame (event : MouseEvent F) :
    (object.handle arith hitTest event).rect = object.rect ∧
      (object.handle arith hitTest event).enabled = object.enabled := by
  cases event with
  | moved e =>
      simp only [handle, mouseMoved]
      repeat' split
      all_goals exact ⟨rfl, rfl⟩
  | pressed e =>
      simp only [handle, mousePressed]
      repeat' split
      all_goals exact ⟨rfl, rfl⟩
  | dragged e =>
      simp only [handle, mouseDragged]
      repeat' split
      all_goals exact ⟨rfl, rfl⟩
  | released e =>
      simp only [handle, mouseReleased]
      repeat' split
      all_goals exact ⟨rfl, rfl⟩

@[simp]
theorem handle_rect (event : MouseEvent F) :
    (object.handle arith hitTest event).rect = object.rect :=
  (handle_frame event).1

@[simp]
theorem handle_enabled (event : MouseEvent F) :
    (object.handle arith hitTest event).enabled = object.enabled :=
  (handle_frame event).2

/-- A drag neither presses nor releases. -/
@[simp]
theorem mouseDragged_mouseDown (e : MouseEventArgs F) :
    (object.mouseDragged arith hitTest e).mouseDown = object.mouseDown := by
  simp only [mouseDragged]
  repeat' split
  all_goals rfl

/-- A square object of side 10 at the origin. -/
def tenSquare : InteractiveObject (Option Rat) :=
  { rect := ⟨some 0, some 0, some 10, some 10⟩
    oldRect := ⟨some 0, some 0, some 10, some 10⟩
    enabled := true
    mouseX := some 0
    mouseY := some 0
    mouseButton := 0
    mouseOver := false
    mouseDown := false
    callbacks := [] }

end InteractiveObject

/-! ## Presses and releases -/

namespace Callback

/-- The callback is `onPress`. -/
def isPress : Callback F → Bool
  | .onPress .. => true
  | _ => false

/-- The callback is `onRelease` or `onReleaseOutside`. -/
def isRelease : Callback F → Bool
  | .onRelease .. | .onReleaseOutside .. => true
  | _ => false

/-- The callback is `onDragOutside` or `onReleaseOutside`. -/
def isOutside : Callback F → Bool
  | .onDragOutside .. | .onReleaseOutside .. => true
  | _ => false

/-- A press is made only while the object is not pressed, and a drag or release
outside only while it is. -/
def Admitted (pressed : Bool) (callback : Callback F) : Prop :=
  (callback.isPress = true → pressed = false) ∧ (callback.isOutside = true → pressed = true)

end Callback

open Callback (isPress isRelease isOutside)

namespace InteractiveObject

variable {arith : MouseArith F} {hitTest : HitTest F} {object : InteractiveObject F}

/-- The down flag tells whether a press has not been released, and the callbacks
made so far were admitted by it. -/
structure Disciplined (object : InteractiveObject F) : Prop where
  down : object.mouseDown = latch isPress isRelease false object.callbacks
  guarded : Guarded isPress isRelease Callback.Admitted object.callbacks

theorem disciplined_constructed (memory : InteractiveObject F) :
    (constructed memory).Disciplined where
  down := rfl
  guarded := guarded_nil

/-- Only the down flag and the callbacks matter. -/
theorem Disciplined.congr {other : InteractiveObject F} (disciplined : object.Disciplined)
    (sameDown : other.mouseDown = object.mouseDown)
    (sameCallbacks : other.callbacks = object.callbacks) : other.Disciplined where
  down := by
    rw [sameDown, sameCallbacks]
    exact disciplined.down
  guarded := by
    rw [sameCallbacks]
    exact disciplined.guarded

/-- A callback that the down flag admits, after which the flag follows it. -/
theorem Disciplined.call (disciplined : object.Disciplined) {callback : Callback F} {down : Bool}
    (admitted : callback.Admitted object.mouseDown)
    (follows : down = latchStep isPress isRelease object.mouseDown callback) :
    ({ object.call callback with mouseDown := down } : InteractiveObject F).Disciplined where
  down := by
    rw [InteractiveObject.call, latch_append_singleton, ← disciplined.down]
    exact follows
  guarded := by
    apply guarded_append_singleton disciplined.guarded
    rw [← disciplined.down]
    exact admitted

/-- A callback that neither presses, releases nor is made outside. -/
theorem Disciplined.call_quiet (disciplined : object.Disciplined) {callback : Callback F}
    (noPress : callback.isPress = false) (noRelease : callback.isRelease = false)
    (noOutside : callback.isOutside = false) : (object.call callback).Disciplined := by
  have admitted : callback.Admitted object.mouseDown := by
    constructor
    · intro press
      exact absurd (noPress.symm.trans press) Bool.false_ne_true
    · intro outside
      exact absurd (noOutside.symm.trans outside) Bool.false_ne_true
  have unchanged : object.mouseDown = latchStep isPress isRelease object.mouseDown callback := by
    simp [latchStep, noPress, noRelease]
  exact disciplined.call admitted unchanged

theorem Disciplined.mouseMoved (disciplined : object.Disciplined) (e : MouseEventArgs F) :
    (object.mouseMoved arith hitTest e).Disciplined := by
  simp only [InteractiveObject.mouseMoved]
  split
  · exact disciplined
  · split
    · apply Disciplined.call_quiet _ rfl rfl rfl
      split
      · exact (disciplined.call_quiet rfl rfl rfl).congr rfl rfl
      · exact disciplined.congr rfl rfl
    · split
      · exact (disciplined.call_quiet rfl rfl rfl).congr rfl rfl
      · exact disciplined.congr rfl rfl

theorem Disciplined.mousePressed (disciplined : object.Disciplined) (e : MouseEventArgs F) :
    (object.mousePressed arith hitTest e).Disciplined := by
  simp only [InteractiveObject.mousePressed]
  split
  · exact disciplined
  · split
    · split
      · rename_i notDown
        have up : object.mouseDown = false := by simpa using notDown
        have admitted : (Callback.onPress (arith.toInt e.x) (arith.toInt e.y) e.button).Admitted
            object.mouseDown := ⟨fun _ => up, fun outside => absurd outside Bool.false_ne_true⟩
        exact (disciplined.call admitted rfl).congr rfl rfl
      · exact disciplined.congr rfl rfl
    · exact disciplined.congr rfl rfl

/-- A drag outside is reported only while the object is pressed. -/
theorem Disciplined.dragOutside (disciplined : object.Disciplined) {down : Bool}
    (same : down = object.mouseDown) {x y : F} {button : Int} :
    (if down then object.call (.onDragOutside x y button) else object).Disciplined := by
  split
  · rename_i isDown
    have admitted : (Callback.onDragOutside x y button).Admitted object.mouseDown :=
      ⟨fun press => absurd press Bool.false_ne_true, fun _ => same.symm.trans isDown⟩
    exact disciplined.call admitted rfl
  · exact disciplined

theorem Disciplined.mouseDragged (disciplined : object.Disciplined) (e : MouseEventArgs F) :
    (object.mouseDragged arith hitTest e).Disciplined := by
  simp only [InteractiveObject.mouseDragged]
  split
  · exact disciplined
  · split
    · apply Disciplined.call_quiet _ rfl rfl rfl
      split
      · exact disciplined.congr rfl rfl
      · exact disciplined.congr rfl rfl
    · split
      · apply Disciplined.dragOutside _ rfl
        exact (disciplined.call_quiet rfl rfl rfl).congr rfl rfl
      · apply Disciplined.dragOutside _ rfl
        exact disciplined.congr rfl rfl

theorem Disciplined.mouseReleased (disciplined : object.Disciplined) (e : MouseEventArgs F) :
    (object.mouseReleased arith hitTest e).Disciplined := by
  simp only [InteractiveObject.mouseReleased]
  split
  · exact disciplined
  · split
    · have admitted : (Callback.onRelease (arith.toInt e.x) (arith.toInt e.y) e.button).Admitted
          object.mouseDown :=
        ⟨fun press => absurd press Bool.false_ne_true,
          fun outside => absurd outside Bool.false_ne_true⟩
      exact (disciplined.call admitted rfl).congr rfl rfl
    · split
      · rename_i isDown
        have admitted : (Callback.onReleaseOutside (arith.toInt e.x) (arith.toInt e.y)
            e.button).Admitted object.mouseDown :=
          ⟨fun press => absurd press Bool.false_ne_true, fun _ => isDown⟩
        exact (disciplined.call admitted rfl).congr rfl rfl
      · rename_i notDown
        exact disciplined.congr (Bool.eq_false_iff.mpr notDown).symm rfl

theorem Disciplined.update (disciplined : object.Disciplined) :
    (object.update arith hitTest).Disciplined := by
  simp only [InteractiveObject.update]
  split
  · exact disciplined
  · split
    · split
      · exact (disciplined.mouseDragged _).congr rfl rfl
      · exact (disciplined.mouseMoved _).congr rfl rfl
    · exact disciplined

/-- Whatever happens keeps the discipline. -/
theorem Disciplined.undergo (disciplined : object.Disciplined) (happening : Happening F) :
    (object.undergo arith hitTest happening).Disciplined := by
  cases happening with
  | mouse event =>
      cases event with
      | moved e => exact disciplined.mouseMoved e
      | pressed e => exact disciplined.mousePressed e
      | dragged e => exact disciplined.mouseDragged e
      | released e => exact disciplined.mouseReleased e
  | update => exact disciplined.update
  | setPosAndSize rect => exact disciplined.congr rfl rfl
  | setEnabled enabled => exact disciplined.congr rfl rfl

theorem Disciplined.foldl_undergo (disciplined : object.Disciplined)
    (happenings : List (Happening F)) :
    (happenings.foldl (InteractiveObject.undergo arith hitTest) object).Disciplined := by
  induction happenings generalizing object with
  | nil => exact disciplined
  | cons happening rest ih => exact ih (disciplined.undergo happening)

/-- In every run of a new object, a press is followed by a release before the
next one, and what is made outside comes after a press that is not released. -/
theorem press_discipline (memory : InteractiveObject F) (happenings : List (Happening F)) :
    let callbacks := (happenings.foldl (undergo arith hitTest) (constructed memory)).callbacks
    (∀ past first between second rest,
      callbacks = past ++ first :: between ++ second :: rest →
      first.isPress = true → second.isPress = true →
        ∃ callback ∈ between, callback.isRelease = true) ∧
    ∀ past callback rest, callbacks = past ++ callback :: rest → callback.isOutside = true →
      ∃ before press after, past = before ++ press :: after ∧ press.isPress = true ∧
        ∀ later ∈ after, later.isRelease = false := by
  have disciplined : (happenings.foldl (undergo arith hitTest) (constructed memory)).Disciplined :=
    (disciplined_constructed memory).foldl_undergo happenings
  constructor
  · intro past first between second rest whole pressFirst pressSecond
    exact exists_clears_between disciplined.guarded whole pressFirst
      fun admitted => absurd (admitted.1 pressSecond) (Ne.symm Bool.false_ne_true)
  · intro past callback rest whole outside
    exact latch_iff.mp ((disciplined.guarded past callback rest whole).2 outside)

end InteractiveObject

end OfxPrimes.Gui
