import OfxPrimes.Gui.GuiPage
import OfxPrimes.Gui.MouseEvents
import OfxPrimes.SimpleGui.Controls

/-!
# Objects that are dragged with the mouse

A press on an `ofxDraggable` saves how far the mouse is from the position, and a
drag puts the position back to that distance.  `onDragOver` is called for every
drag over the object, also for one that did not begin with a press on it, and
`saveX` and `saveY` are of type `int`.  An `ofxDraggableGui` is a page that is
dragged in this way where it has no control.
-/

namespace OfxPrimes.Gui

open OfxPrimes.Fiducial
open OfxPrimes.SimpleGui (truncate)

variable {F : Type}

/-- `int saveX, saveY`. -/
structure Saved where
  saveX : Int
  saveY : Int
  deriving DecidableEq, Repr

/-- The position of an object. -/
def InteractiveObject.position (object : InteractiveObject F) : Point F :=
  ⟨object.rect.x, object.rect.y⟩

/-- `class ofxDraggable`: an interactive object with the distances that were saved. -/
abbrev OfxDraggable (F : Type) :=
  InteractiveObject F × Saved

namespace OfxDraggable

variable (arith : MouseArith F)

/-- `ofxDraggable::onPress`. -/
def onPress (mx my : F) (self : OfxDraggable F) : OfxDraggable F :=
  (self.1,
    { saveX := truncate arith.toFloatArith (arith.sub mx self.1.rect.x)
      saveY := truncate arith.toFloatArith (arith.sub my self.1.rect.y) })

/-- `ofxDraggable::onDragOver`. -/
def onDragOver (mx my : F) (self : OfxDraggable F) : OfxDraggable F :=
  let rect :=
    { self.1.rect with
      x := arith.sub mx (arith.ofInt self.2.saveX)
      y := arith.sub my (arith.ofInt self.2.saveY) }
  ({ self.1 with rect }, self.2)

/-- The callbacks that `ofxDraggable` overrides. -/
def overrides : Overrides F Saved
  | .onPress mx my _, self => onPress arith mx my self
  | .onDragOver mx my _, self => onDragOver arith mx my self
  | _, self => self

/-- The handler of a mouse event. -/
def handle (self : OfxDraggable F) (event : MouseEvent F) : OfxDraggable F :=
  handleWith arith (InteractiveObject.hitTest arith) (overrides arith) self event

end OfxDraggable

/-- The fields that `ofxDraggableGui` and its page add to an interactive object. -/
structure OfxDraggableGui (F : Type) extends Saved where
  bDraggable : Bool
  controls : List (PageControl F)
  deriving DecidableEq, Repr

/-- A mouse event, and where the controls are at that time. -/
structure LayoutEvent (F : Type) where
  controls : List (PageControl F)
  event : MouseEvent F
  deriving DecidableEq, Repr

namespace OfxDraggableGui

variable (arith : MouseArith F)

/-- `controlType != "Title" && controlType != "Content" && hitTest(x, y)` for some control. -/
def hitsControl (controls : List (PageControl F)) (x y : F) : Bool :=
  controls.any fun control =>
    decide (control.controlType ≠ ascii "Title") &&
      decide (control.controlType ≠ ascii "Content") &&
        InteractiveObject.hitTest arith control.object.rect x y

/-- `ofxDraggableGui::onPress`. -/
def onPress (x y : F) (self : InteractiveObject F × OfxDraggableGui F) :
    InteractiveObject F × OfxDraggableGui F :=
  if !self.2.bDraggable then self
  else if hitsControl arith self.2.controls x y then self
  else
    (self.1,
      { self.2 with
        saveX := truncate arith.toFloatArith (arith.sub x self.1.rect.x)
        saveY := truncate arith.toFloatArith (arith.sub y self.1.rect.y) })

/-- `ofxDraggableGui::onDragOver`. -/
def onDragOver (x y : F) (self : InteractiveObject F × OfxDraggableGui F) :
    InteractiveObject F × OfxDraggableGui F :=
  if !self.2.bDraggable then self
  else if hitsControl arith self.2.controls x y then self
  else
    let rect :=
      { self.1.rect with
        x := arith.sub x (arith.ofInt self.2.saveX)
        y := arith.sub y (arith.ofInt self.2.saveY) }
    ({ self.1 with rect }, self.2)

/-- The part of a page that is draggable: where no control is hit. -/
def canDrag (gui : OfxDraggableGui F) (mouse : Point F) : Bool :=
  gui.bDraggable && !hitsControl arith gui.controls mouse.x mouse.y

/-- The callbacks that `ofxDraggableGui` overrides. -/
def overrides : Overrides F (OfxDraggableGui F)
  | .onPress x y _, self => onPress arith x y self
  | .onDragOver x y _, self => onDragOver arith x y self
  | _, self => self

/-- The handler of a mouse event, with the controls where they are at that time. -/
def handle (self : InteractiveObject F × OfxDraggableGui F) (input : LayoutEvent F) :
    InteractiveObject F × OfxDraggableGui F :=
  let gui := { self.2 with controls := input.controls }
  handleWith arith (InteractiveObject.hitTest arith) (overrides arith) (self.1, gui) input.event

end OfxDraggableGui

/-! ## A part that is draggable -/

/-- The mouse at an event. -/
def MouseEventArgs.mouse (arith : MouseArith F) (e : MouseEventArgs F) : Point F :=
  ⟨arith.toInt e.x, arith.toInt e.y⟩

variable {arith : MouseArith F}

/-- The callbacks of an `ofxDraggable` of which a part is draggable. -/
def gripping (arith : MouseArith F) (canDrag : Point F → Bool) : Overrides F Saved
  | .onPress mx my _, self =>
      if canDrag ⟨mx, my⟩ then OfxDraggable.onPress arith mx my self else self
  | .onDragOver mx my _, self =>
      if canDrag ⟨mx, my⟩ then OfxDraggable.onDragOver arith mx my self else self
  | _, self => self

theorem OfxDraggable.overrides_eq :
    OfxDraggable.overrides arith = gripping arith fun _ => true := by
  funext callback self
  cases callback <;> rfl

namespace OfxDraggableGui

/-- A page handles its callbacks like an object that is draggable where no control is hit. -/
theorem overrides_eq (callback : Callback F) (object : InteractiveObject F)
    (gui : OfxDraggableGui F) :
    let gripped := gripping arith (canDrag arith gui) callback (object, gui.toSaved)
    overrides arith callback (object, gui) = (gripped.1, { gui with toSaved := gripped.2 }) := by
  obtain ⟨saved, bDraggable, controls⟩ := gui
  cases callback with
  | onPress x y button =>
      cases bDraggable <;> cases hits : hitsControl arith controls x y <;>
        simp [overrides, onPress, gripping, canDrag, OfxDraggable.onPress, hits]
  | onDragOver x y button =>
      cases bDraggable <;> cases hits : hitsControl arith controls x y <;>
        simp [overrides, onDragOver, gripping, canDrag, OfxDraggable.onDragOver, hits]
  | _ => rfl

theorem foldl_overrides (callbacks : List (Callback F)) (object : InteractiveObject F)
    (gui : OfxDraggableGui F) :
    let gripped := callbacks.foldl
      (fun self callback => gripping arith (canDrag arith gui) callback self) (object, gui.toSaved)
    callbacks.foldl (fun self callback => overrides arith callback self) (object, gui) =
      (gripped.1, { gui with toSaved := gripped.2 }) := by
  induction callbacks generalizing object gui with
  | nil => rfl
  | cons callback rest ih =>
      simp only [List.foldl_cons, overrides_eq]
      exact ih _ _

end OfxDraggableGui

variable {canDrag : Point F → Bool} {object : InteractiveObject F} {saved : Saved}

/-- The event drags over the draggable part. -/
def dragsPart (arith : MouseArith F) (canDrag : Point F → Bool) (object : InteractiveObject F) :
    MouseEvent F → Bool
  | .dragged e =>
      MouseEvent.isOver arith (InteractiveObject.hitTest arith) object.rect e &&
        canDrag (e.mouse arith)
  | _ => false

theorem exists_of_dragsPart {event : MouseEvent F}
    (drags : dragsPart arith canDrag object event = true) : ∃ e, event = .dragged e := by
  cases event with
  | dragged e => exact ⟨e, rfl⟩
  | moved e | pressed e | released e => exact absurd drags Bool.false_ne_true

/-- The event presses on the draggable part of an object that is not down. -/
def pressesPart (arith : MouseArith F) (canDrag : Point F → Bool) (object : InteractiveObject F) :
    MouseEvent F → Bool
  | .pressed e =>
      (MouseEvent.isOver arith (InteractiveObject.hitTest arith) object.rect e &&
        !object.mouseDown) && canDrag (e.mouse arith)
  | _ => false

/-- The handler of an `ofxDraggable` of which a part is draggable. -/
def gripWith (arith : MouseArith F) (canDrag : Point F → Bool) (self : OfxDraggable F)
    (event : MouseEvent F) : OfxDraggable F :=
  handleWith arith (InteractiveObject.hitTest arith) (gripping arith canDrag) self event

/-- The object after an event, as far as the base class goes. -/
def baseHandle (arith : MouseArith F) (object : InteractiveObject F) (event : MouseEvent F) :
    InteractiveObject F :=
  object.handle arith (InteractiveObject.hitTest arith) event

theorem gripWith_of_dragsPart (enabled : object.enabled = true) {e : MouseEventArgs F}
    (drags : dragsPart arith canDrag object (.dragged e) = true) :
    gripWith arith canDrag (object, saved) (.dragged e) =
      OfxDraggable.onDragOver arith (arith.toInt e.x) (arith.toInt e.y)
        (baseHandle arith object (.dragged e), saved) := by
  obtain ⟨onIt, part⟩ := Bool.and_eq_true_iff.mp drags
  rw [gripWith, InteractiveObject.handleWith_of_enabled enabled, MouseEvent.callbacks, if_pos onIt]
  exact if_pos part

theorem gripWith_of_pressesPart (enabled : object.enabled = true) {e : MouseEventArgs F}
    (presses : pressesPart arith canDrag object (.pressed e) = true) :
    gripWith arith canDrag (object, saved) (.pressed e) =
      OfxDraggable.onPress arith (arith.toInt e.x) (arith.toInt e.y)
        (baseHandle arith object (.pressed e), saved) := by
  obtain ⟨starts, part⟩ := Bool.and_eq_true_iff.mp presses
  rw [gripWith, InteractiveObject.handleWith_of_enabled enabled, MouseEvent.callbacks,
    if_pos starts]
  exact if_pos part

/-- No other event does more than the base class. -/
theorem gripWith_of_not (enabled : object.enabled = true) {event : MouseEvent F}
    (noDrag : dragsPart arith canDrag object event = false)
    (noPress : pressesPart arith canDrag object event = false) :
    gripWith arith canDrag (object, saved) event = (baseHandle arith object event, saved) := by
  rw [gripWith, InteractiveObject.handleWith_of_enabled enabled]
  cases event with
  | moved e | released e =>
      simp only [MouseEvent.callbacks]
      repeat' split
      all_goals rfl
  | pressed e =>
      simp only [MouseEvent.callbacks]
      split
      · rename_i starts
        have off : canDrag (e.mouse arith) = false := by
          rwa [pressesPart, starts, Bool.true_and] at noPress
        exact if_neg (Bool.eq_false_iff.mp off)
      · rfl
  | dragged e =>
      simp only [MouseEvent.callbacks]
      split
      · rename_i onIt
        have off : canDrag (e.mouse arith) = false := by
          rwa [dragsPart, onIt, Bool.true_and] at noDrag
        exact if_neg (Bool.eq_false_iff.mp off)
      · repeat' split
        all_goals rfl

theorem position_baseHandle (event : MouseEvent F) :
    (baseHandle arith object event).position = object.position := by
  rw [InteractiveObject.position, baseHandle, InteractiveObject.handle_rect]
  rfl

/-- The position that a drag gives to an object. -/
def Saved.positionAt (arith : MouseArith F) (saved : Saved) (mouse : Point F) : Point F :=
  ⟨arith.sub mouse.x (arith.ofInt saved.saveX), arith.sub mouse.y (arith.ofInt saved.saveY)⟩

theorem position_of_dragsPart (enabled : object.enabled = true) {e : MouseEventArgs F}
    (drags : dragsPart arith canDrag object (.dragged e) = true) :
    (gripWith arith canDrag (object, saved) (.dragged e)).1.position =
      saved.positionAt arith (e.mouse arith) := by
  rw [gripWith_of_dragsPart enabled drags]
  rfl

/-- Only a drag over the draggable part moves the object. -/
theorem position_of_not_dragsPart (enabled : object.enabled = true) {event : MouseEvent F}
    (noDrag : dragsPart arith canDrag object event = false) :
    (gripWith arith canDrag (object, saved) event).1.position = object.position := by
  by_cases presses : pressesPart arith canDrag object event = true
  · cases event with
    | pressed e =>
        rw [gripWith_of_pressesPart enabled presses]
        exact position_baseHandle (.pressed e)
    | moved e | dragged e | released e => exact absurd presses Bool.false_ne_true
  · rw [gripWith_of_not enabled noDrag (Bool.eq_false_iff.mpr presses)]
    exact position_baseHandle event

end OfxPrimes.Gui
