import OfxPrimes.Gui.InteractiveObject

/-!
# What a mouse event does to an object

The handlers of an enabled object set its two flags and make callbacks.  Which
ones they make depends on whether the mouse is over the rectangle and on the
flags before.  A derived class overrides callbacks, and what they do is all that
it adds: its objects are an interactive object with fields of the class beside it.
-/

namespace OfxPrimes.Gui

variable {F σ : Type}

namespace MouseEvent

/-- The arguments of the event. -/
def args : MouseEvent F → MouseEventArgs F
  | .moved e | .pressed e | .dragged e | .released e => e

section Flags

variable (arith : MouseArith F) (hitTest : HitTest F) (rect : Rectangle F)

/-- The mouse of the event is over the rectangle. -/
def isOver (e : MouseEventArgs F) : Bool :=
  hitTest rect (arith.toInt e.x) (arith.toInt e.y)

/-- The over flag after the event. -/
def overAfter (isOn : Bool) : MouseEvent F → Bool
  | .moved e | .dragged e => isOver arith hitTest rect e
  | _ => isOn

end Flags

variable (arith : MouseArith F) (hitTest : HitTest F) (object : InteractiveObject F)

/-- The callbacks that an enabled object makes at an event. -/
def callbacks : MouseEvent F → List (Callback F)
  | .moved e =>
      if isOver arith hitTest object.rect e then
        (if object.mouseOver then [] else [.onRollOver (arith.toInt e.x) (arith.toInt e.y)]) ++
          [.onMouseMove (arith.toInt e.x) (arith.toInt e.y)]
      else if object.mouseOver then [.onRollOut] else []
  | .pressed e =>
      if isOver arith hitTest object.rect e && !object.mouseDown then
        [.onPress (arith.toInt e.x) (arith.toInt e.y) e.button]
      else []
  | .dragged e =>
      if isOver arith hitTest object.rect e then
        [.onDragOver (arith.toInt e.x) (arith.toInt e.y) e.button]
      else
        (if object.mouseOver then [.onRollOut] else []) ++
          if object.mouseDown then [.onDragOutside (arith.toInt e.x) (arith.toInt e.y) e.button]
          else []
  | .released e =>
      if isOver arith hitTest object.rect e then
        [.onRelease (arith.toInt e.x) (arith.toInt e.y) e.button]
      else if object.mouseDown then
        [.onReleaseOutside (arith.toInt e.x) (arith.toInt e.y) e.button]
      else []

/-- The down flag of an enabled object after an event. -/
def downAfter : MouseEvent F → Bool
  | .pressed e => isOver arith hitTest object.rect e || object.mouseDown
  | .released _ => false
  | .moved _ | .dragged _ => object.mouseDown

end MouseEvent

namespace InteractiveObject

variable {arith : MouseArith F} {hitTest : HitTest F} {object : InteractiveObject F}

theorem handle_callbacks (enabled : object.enabled = true) (event : MouseEvent F) :
    (object.handle arith hitTest event).callbacks =
      object.callbacks ++ event.callbacks arith hitTest object := by
  have awake : (!object.enabled) = false := by rw [enabled]; rfl
  cases event with
  | moved e =>
      simp only [handle, mouseMoved, awake, Bool.false_eq_true, if_false, MouseEvent.callbacks,
        MouseEvent.isOver]
      cases object.mouseOver <;> split <;> simp [call, *]
  | pressed e =>
      simp only [handle, mousePressed, awake, Bool.false_eq_true, if_false, MouseEvent.callbacks,
        MouseEvent.isOver]
      cases object.mouseDown <;> split <;> simp [call, *]
  | dragged e =>
      simp only [handle, mouseDragged, awake, Bool.false_eq_true, if_false, MouseEvent.callbacks,
        MouseEvent.isOver]
      cases object.mouseOver <;> cases down : object.mouseDown <;> split <;> simp [call, *]
  | released e =>
      simp only [handle, mouseReleased, awake, Bool.false_eq_true, if_false, MouseEvent.callbacks,
        MouseEvent.isOver]
      cases object.mouseDown <;> split <;> simp [call, *]

theorem handle_mouseDown (enabled : object.enabled = true) (event : MouseEvent F) :
    (object.handle arith hitTest event).mouseDown = event.downAfter arith hitTest object := by
  have awake : (!object.enabled) = false := by rw [enabled]; rfl
  cases event with
  | moved e =>
      simp only [handle, mouseMoved, awake, Bool.false_eq_true, if_false, MouseEvent.downAfter]
      repeat' split
      all_goals rfl
  | pressed e =>
      simp only [handle, mousePressed, awake, Bool.false_eq_true, if_false, MouseEvent.downAfter,
        MouseEvent.isOver]
      cases down : object.mouseDown <;> split <;> simp [call, *]
  | dragged e => exact mouseDragged_mouseDown e
  | released e =>
      simp only [handle, mouseReleased, awake, Bool.false_eq_true, if_false, MouseEvent.downAfter]

theorem handle_mouseOver (enabled : object.enabled = true) (event : MouseEvent F) :
    (object.handle arith hitTest event).mouseOver =
      event.overAfter arith hitTest object.rect object.mouseOver := by
  have awake : (!object.enabled) = false := by rw [enabled]; rfl
  cases event with
  | moved e =>
      simp only [handle, mouseMoved, awake, Bool.false_eq_true, if_false, MouseEvent.overAfter,
        MouseEvent.isOver]
      cases object.mouseOver <;> split <;> simp [call, *]
  | pressed e =>
      simp only [handle, mousePressed, awake, Bool.false_eq_true, if_false, MouseEvent.overAfter]
      repeat' split
      all_goals rfl
  | dragged e =>
      simp only [handle, mouseDragged, awake, Bool.false_eq_true, if_false, MouseEvent.overAfter,
        MouseEvent.isOver]
      cases object.mouseOver <;> cases object.mouseDown <;> split <;> simp [call, *]
  | released e =>
      simp only [handle, mouseReleased, awake, Bool.false_eq_true, if_false, MouseEvent.overAfter]
      repeat' split
      all_goals rfl

/-- An enabled object keeps where the mouse is. -/
theorem handle_mouseX (enabled : object.enabled = true) (event : MouseEvent F) :
    (object.handle arith hitTest event).mouseX = arith.toInt event.args.x := by
  have awake : (!object.enabled) = false := by rw [enabled]; rfl
  cases event with
  | moved e =>
      simp only [handle, mouseMoved, awake, Bool.false_eq_true, if_false]
      repeat' split
      all_goals rfl
  | pressed e =>
      simp only [handle, mousePressed, awake, Bool.false_eq_true, if_false]
      repeat' split
      all_goals rfl
  | dragged e =>
      simp only [handle, mouseDragged, awake, Bool.false_eq_true, if_false]
      repeat' split
      all_goals rfl
  | released e =>
      simp only [handle, mouseReleased, awake, Bool.false_eq_true, if_false]
      repeat' split
      all_goals rfl

end InteractiveObject

/-! ## Derived classes -/

/-- What the callbacks of a class do to an object and the fields that the class adds. -/
abbrev Overrides (F σ : Type) :=
  Callback F → InteractiveObject F × σ → InteractiveObject F × σ

/-- The handler of a mouse event, with the callbacks of a class.  A handler reads nothing
after a callback that the classes here change in it, so the callbacks can be made when
the handler of the object is done. -/
def handleWith (arith : MouseArith F) (hitTest : HitTest F) (overrides : Overrides F σ)
    (self : InteractiveObject F × σ) (event : MouseEvent F) : InteractiveObject F × σ :=
  let object := self.1.handle arith hitTest event
  let made := object.callbacks.drop self.1.callbacks.length
  made.foldl (fun self callback => overrides callback self) (object, self.2)

variable {arith : MouseArith F} {hitTest : HitTest F}

/-- What an enabled object of a class makes of an event. -/
theorem InteractiveObject.handleWith_of_enabled {overrides : Overrides F σ}
    {object : InteractiveObject F} (enabled : object.enabled = true) (fields : σ)
    (event : MouseEvent F) :
    handleWith arith hitTest overrides (object, fields) event =
      (event.callbacks arith hitTest object).foldl (fun self callback => overrides callback self)
        (object.handle arith hitTest event, fields) := by
  rw [handleWith, handle_callbacks enabled, List.drop_left]

end OfxPrimes.Gui
