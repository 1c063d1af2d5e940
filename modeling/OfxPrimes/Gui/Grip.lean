import Mathlib.Algebra.Ring.Rat
import OfxPrimes.Gui.Draggable
import OfxPrimes.Transition.Run

/-!
# What holds a draggable object

The mouse grips a draggable object with a press on its draggable part, and holds
it until it is released.  A draggable object also moves under a drag that does
not hold it, and one that was gripped at a position between whole numbers moves
away from the mouse.
-/

namespace OfxPrimes.Gui

open OfxPrimes.Fiducial
open OfxPrimes.SimpleGui (truncate)
open OfxPrimes.Transition

variable {F σ ι : Type}

/-! ## What holds an object -/

/-- Whether the mouse is down since a press on an object, and how far from the position
it was pressed if that was on the draggable part. -/
inductive Hold (F : Type)
  | released
  | elsewhere
  | gripped (offset : Point F)
  deriving DecidableEq, Repr

/-- The distance from a position to the mouse. -/
def offsetFrom (arith : MouseArith F) (position mouse : Point F) : Point F :=
  ⟨arith.sub mouse.x position.x, arith.sub mouse.y position.y⟩

/-- The hold after an event, on an object of which a part is draggable. -/
def Hold.after (arith : MouseArith F) (canDrag : Point F → Bool) (object : InteractiveObject F)
    (hold : Hold F) : MouseEvent F → Hold F
  | .pressed e =>
      match hold with
      | .released =>
          if MouseEvent.isOver arith (InteractiveObject.hitTest arith) object.rect e then
            if canDrag (e.mouse arith) then
              .gripped (offsetFrom arith object.position (e.mouse arith))
            else .elsewhere
          else .released
      | held => held
  | .released _ => .released
  | .moved _ | .dragged _ => hold

/-- A class of draggable objects: the handler of its inputs, with the mouse event of an
input, the part of an object that is draggable at it, and the saved distances. -/
structure DragClass (F σ ι : Type) where
  handle : InteractiveObject F × σ → ι → InteractiveObject F × σ
  event : ι → MouseEvent F
  canDrag : σ → ι → Point F → Bool
  saved : σ → Saved

/-- All of an `ofxDraggable` is draggable. -/
def OfxDraggable.dragClass (arith : MouseArith F) : DragClass F Saved (MouseEvent F) where
  handle := OfxDraggable.handle arith
  event event := event
  canDrag _ _ _ := true
  saved saved := saved

/-- An `ofxDraggableGui` is draggable where none of its controls is at that time. -/
def OfxDraggableGui.dragClass (arith : MouseArith F) :
    DragClass F (OfxDraggableGui F) (LayoutEvent F) where
  handle := OfxDraggableGui.handle arith
  event input := input.event
  canDrag gui input := canDrag arith { gui with controls := input.controls }
  saved gui := gui.toSaved

namespace DragClass

variable (cls : DragClass F σ ι) (arith : MouseArith F)

/-- An object of the class, and its hold. -/
abbrev Watched (F σ : Type) :=
  (InteractiveObject F × σ) × Hold F

/-- The object and the hold after an input. -/
def watch (watched : Watched F σ) (input : ι) : Watched F σ :=
  (cls.handle watched.1 input,
    watched.2.after arith (cls.canDrag watched.1.2 input) watched.1.1 (cls.event input))

/-- If an input moves the object, it is a drag that began with a press on the draggable
part, and the mouse is as far from the position after it as it was at the press. -/
def MovesWithMouse (watched : Watched F σ) (input : ι) : Prop :=
  let after := (cls.handle watched.1 input).1
  after.position ≠ watched.1.1.position →
    ∃ e offset, cls.event input = .dragged e ∧ watched.2 = .gripped offset ∧
      offsetFrom arith after.position (e.mouse arith) = offset

/-- Every input of a sequence moves a new object with the mouse, if it moves it. -/
def KeepsGrip (object : InteractiveObject F) (fields : σ) (inputs : List ι) : Prop :=
  ∀ past input rest, inputs = past ++ input :: rest →
    cls.MovesWithMouse arith
      (past.foldl (cls.watch arith) ((object.constructed, fields), .released)) input

end DragClass

/-! ## The classes -/

variable {arith : MouseArith F}

/-- A class handles its inputs like an `ofxDraggable` of which the part is draggable. -/
def DragClass.Grips (cls : DragClass F σ ι) (arith : MouseArith F) : Prop :=
  ∀ object fields input,
    ((cls.handle (object, fields) input).1, cls.saved (cls.handle (object, fields) input).2) =
      handleWith arith (InteractiveObject.hitTest arith) (gripping arith (cls.canDrag fields input))
        (object, cls.saved fields) (cls.event input)

theorem OfxDraggable.grips : (OfxDraggable.dragClass arith).Grips arith := by
  intro object fields input
  rw [OfxDraggable.dragClass, ← OfxDraggable.overrides_eq]
  rfl

theorem OfxDraggableGui.grips : (OfxDraggableGui.dragClass arith).Grips arith := by
  intro object gui input
  simp only [dragClass, handle, handleWith, foldl_overrides]

/-! ## Keeping track of the hold -/

section Tracking

variable {canDrag : Point F → Bool} {object : InteractiveObject F} {saved : Saved}
variable {hold : Hold F}

/-- Whether the mouse is down since a press on the object. -/
def Hold.isDown : Hold F → Bool
  | .released => false
  | .elsewhere | .gripped _ => true

/-- What `onPress` saves at a distance. -/
def Saved.ofOffset (arith : MouseArith F) (offset : Point F) : Saved where
  saveX := truncate arith.toFloatArith offset.x
  saveY := truncate arith.toFloatArith offset.y

/-- The object is down while it is held, and keeps what was saved at the press. -/
structure Tracks (arith : MouseArith F) (draggable : OfxDraggable F) (hold : Hold F) : Prop where
  enabled : draggable.1.enabled = true
  down : draggable.1.mouseDown = hold.isDown
  grip : ∀ offset, hold = .gripped offset → draggable.2 = Saved.ofOffset arith offset

/-- Without a grip nothing needs to be kept. -/
theorem Tracks.of_ungripped {draggable : OfxDraggable F} (enabled : draggable.1.enabled = true)
    (down : draggable.1.mouseDown = hold.isDown) (free : ∀ offset, hold ≠ .gripped offset) :
    Tracks arith draggable hold :=
  ⟨enabled, down, fun offset gripped => absurd gripped (free offset)⟩

theorem Hold.released_ne_gripped (offset : Point F) : Hold.released ≠ .gripped offset := by
  intro same
  cases same

theorem Hold.elsewhere_ne_gripped (offset : Point F) : Hold.elsewhere ≠ .gripped offset := by
  intro same
  cases same

/-- A press on an object that is not held. -/
theorem Tracks.press (tracks : Tracks arith (object, saved) .released) (e : MouseEventArgs F) :
    Tracks arith (gripWith arith canDrag (object, saved) (.pressed e))
      (Hold.released.after arith canDrag object (.pressed e)) := by
  have enabled : (baseHandle arith object (.pressed e)).enabled = true :=
    (InteractiveObject.handle_enabled _).trans tracks.enabled
  have down : (baseHandle arith object (.pressed e)).mouseDown =
      (MouseEvent.isOver arith (InteractiveObject.hitTest arith) object.rect e ||
        object.mouseDown) :=
    InteractiveObject.handle_mouseDown tracks.enabled _
  have up : object.mouseDown = false := tracks.down
  rw [up, Bool.or_false] at down
  rw [Hold.after]
  by_cases onIt : MouseEvent.isOver arith (InteractiveObject.hitTest arith) object.rect e = true
  · rw [if_pos onIt]
    by_cases part : canDrag (e.mouse arith) = true
    · have presses : pressesPart arith canDrag object (.pressed e) = true := by
        rw [pressesPart, onIt, up, part]
        rfl
      rw [if_pos part, gripWith_of_pressesPart tracks.enabled presses]
      refine ⟨enabled, down.trans onIt, ?_⟩
      intro offset gripped
      cases gripped
      rw [OfxDraggable.onPress, baseHandle, InteractiveObject.handle_rect]
      rfl
    · have noPress : pressesPart arith canDrag object (.pressed e) = false := by
        rw [pressesPart, Bool.eq_false_iff.mpr part, Bool.and_false]
      rw [if_neg part, gripWith_of_not tracks.enabled rfl noPress]
      exact Tracks.of_ungripped enabled (down.trans onIt) Hold.elsewhere_ne_gripped
  · have noPress : pressesPart arith canDrag object (.pressed e) = false := by
      rw [pressesPart, Bool.eq_false_iff.mpr onIt, Bool.false_and, Bool.false_and]
    rw [if_neg onIt, gripWith_of_not tracks.enabled rfl noPress]
    exact Tracks.of_ungripped enabled (down.trans (Bool.eq_false_iff.mpr onIt))
      Hold.released_ne_gripped

/-- A press on an object that is held changes nothing. -/
theorem Tracks.press_held (tracks : Tracks arith (object, saved) hold)
    (held : hold.isDown = true) (e : MouseEventArgs F) :
    Tracks arith (gripWith arith canDrag (object, saved) (.pressed e)) hold := by
  have isDown : object.mouseDown = true := tracks.down.trans held
  have down : (baseHandle arith object (.pressed e)).mouseDown =
      (MouseEvent.isOver arith (InteractiveObject.hitTest arith) object.rect e ||
        object.mouseDown) :=
    InteractiveObject.handle_mouseDown tracks.enabled _
  rw [isDown, Bool.or_true] at down
  have noPress : pressesPart arith canDrag object (.pressed e) = false := by
    rw [pressesPart, isDown, Bool.not_true, Bool.and_false, Bool.false_and]
  rw [gripWith_of_not tracks.enabled rfl noPress]
  exact ⟨(InteractiveObject.handle_enabled _).trans tracks.enabled, down.trans held.symm,
      tracks.grip⟩

theorem Tracks.gripWith (tracks : Tracks arith (object, saved) hold) (event : MouseEvent F) :
    Tracks arith (gripWith arith canDrag (object, saved) event)
      (hold.after arith canDrag object event) := by
  have enabled : (baseHandle arith object event).enabled = true :=
    (InteractiveObject.handle_enabled event).trans tracks.enabled
  have down : (baseHandle arith object event).mouseDown =
      event.downAfter arith (InteractiveObject.hitTest arith) object :=
    InteractiveObject.handle_mouseDown tracks.enabled event
  cases event with
  | moved e =>
      rw [gripWith_of_not tracks.enabled rfl rfl]
      exact ⟨enabled, down.trans tracks.down, tracks.grip⟩
  | dragged e =>
      by_cases drags : dragsPart arith canDrag object (.dragged e) = true
      · rw [gripWith_of_dragsPart tracks.enabled drags]
        exact ⟨enabled, down.trans tracks.down, tracks.grip⟩
      · rw [gripWith_of_not tracks.enabled (Bool.eq_false_iff.mpr drags) rfl]
        exact ⟨enabled, down.trans tracks.down, tracks.grip⟩
  | released e =>
      rw [gripWith_of_not tracks.enabled rfl rfl]
      exact Tracks.of_ungripped enabled down Hold.released_ne_gripped
  | pressed e =>
      cases hold with
      | released => exact tracks.press e
      | elsewhere => exact tracks.press_held rfl e
      | gripped offset => exact tracks.press_held rfl e

end Tracking

/-! ## Exact distances -/

section Rational

/-- The distances that are saved, as numbers. -/
def Saved.offset (arith : MouseArith F) (saved : Saved) : Point F :=
  ⟨arith.ofInt saved.saveX, arith.ofInt saved.saveY⟩

variable {saved : Saved}

theorem truncate_ofInt (n : Int) : truncate FloatArith.rational (some (n : Rat)) = n := by
  rw [truncate]
  split
  · exact Rat.ceil_intCast n
  · exact Rat.floor_intCast n

theorem ofOffset_offset (saved : Saved) :
    Saved.ofOffset .rational (saved.offset .rational) = saved := by
  cases saved with
  | mk saveX saveY =>
      exact congrArg₂ Saved.mk (truncate_ofInt saveX) (truncate_ofInt saveY)

theorem exists_of_lt {a b : Option Rat} (less : FloatArith.rational.lt a b = true) :
    ∃ x y : Rat, a = some x ∧ b = some y := by
  cases a with
  | none => exact absurd less Bool.false_ne_true
  | some x =>
      cases b with
      | none => exact absurd less Bool.false_ne_true
      | some y => exact ⟨x, y, rfl, rfl⟩

/-- A point over an object is a pair of numbers, and so is the position. -/
theorem exists_of_isOver {rect : Rectangle (Option Rat)} {e : MouseEventArgs (Option Rat)}
    (onIt : MouseEvent.isOver .rational (InteractiveObject.hitTest .rational) rect e = true) :
    ∃ x y mx my : Rat, rect.x = some x ∧ rect.y = some y ∧
      e.mouse .rational = ⟨some mx, some my⟩ := by
  rw [MouseEvent.isOver, InteractiveObject.hitTest] at onIt
  simp only [Bool.and_eq_true] at onIt
  obtain ⟨⟨⟨leftX, -⟩, leftY⟩, -⟩ := onIt
  obtain ⟨x, mx, atX, mouseX⟩ := exists_of_lt leftX
  obtain ⟨y, my, atY, mouseY⟩ := exists_of_lt leftY
  exact ⟨x, y, mx, my, atX, atY, congrArg₂ Point.mk mouseX mouseY⟩

variable {object : InteractiveObject (Option Rat)} {e : MouseEventArgs (Option Rat)}

/-- After a drag over the object, the mouse is at the saved distances. -/
theorem offsetFrom_positionAt
    (onIt : MouseEvent.isOver .rational (InteractiveObject.hitTest .rational) object.rect e =
      true) :
    offsetFrom .rational (saved.positionAt .rational (e.mouse .rational)) (e.mouse .rational) =
      saved.offset .rational := by
  obtain ⟨_, _, mx, my, -, -, atMouse⟩ := exists_of_isOver onIt
  have cancel (m : Rat) (n : Int) : m - (m - n) = n := sub_sub_cancel m n
  rw [atMouse]
  exact congrArg₂ Point.mk (congrArg some (cancel mx saved.saveX))
    (congrArg some (cancel my saved.saveY))

/-- A drag over the object leaves it where it is if the mouse is at the saved distances. -/
theorem positionAt_eq_iff
    (onIt : MouseEvent.isOver .rational (InteractiveObject.hitTest .rational) object.rect e =
      true) :
    saved.positionAt .rational (e.mouse .rational) = object.position ↔
      offsetFrom .rational object.position (e.mouse .rational) = saved.offset .rational := by
  obtain ⟨x, y, mx, my, atX, atY, atMouse⟩ := exists_of_isOver onIt
  have swap (a m : Rat) (n : Int) : some (m - n) = some a ↔ some (m - a) = some (n : Rat) := by
    rw [Option.some_inj, Option.some_inj]
    constructor
    · rintro rfl
      exact sub_sub_cancel m n
    · intro distance
      rw [← distance]
      exact sub_sub_cancel m a
  rw [atMouse, InteractiveObject.position, atX, atY, Saved.offset, Saved.positionAt, offsetFrom,
    Point.mk.injEq, Point.mk.injEq]
  exact and_congr (swap x mx saved.saveX) (swap y my saved.saveY)

end Rational

namespace DragClass

variable {cls : DragClass (Option Rat) σ ι}

/-- At a drag over the draggable part, the drag began with a press on it at whole distances
from the position, or the mouse is at the saved distances. -/
def HeldAt (cls : DragClass F σ ι) (arith : MouseArith F) (watched : Watched F σ) (input : ι) :
    Prop :=
  ∀ e, cls.event input = .dragged e →
    dragsPart arith (cls.canDrag watched.1.2 input) watched.1.1 (.dragged e) = true →
      (∃ whole : Saved, watched.2 = .gripped (whole.offset arith)) ∨
        offsetFrom arith watched.1.1.position (e.mouse arith) =
          (cls.saved watched.1.2).offset arith

theorem movesWithMouse_iff (grips : cls.Grips .rational) {watched : Watched (Option Rat) σ}
    (tracks : Tracks .rational (watched.1.1, cls.saved watched.1.2) watched.2) (input : ι) :
    cls.MovesWithMouse .rational watched input ↔ cls.HeldAt .rational watched input := by
  obtain ⟨⟨object, fields⟩, hold⟩ := watched
  have handled : (cls.handle (object, fields) input).1 =
      (gripWith .rational (cls.canDrag fields input) (object, cls.saved fields)
        (cls.event input)).1 :=
    congrArg Prod.fst (grips object fields input)
  rw [MovesWithMouse, HeldAt]
  simp only [handled]
  by_cases drags : dragsPart .rational (cls.canDrag fields input) object (cls.event input) = true
  · obtain ⟨e, isDrag⟩ := exists_of_dragsPart drags
    rw [isDrag] at drags ⊢
    have onIt := (Bool.and_eq_true_iff.mp drags).1
    have distance : offsetFrom .rational
        ((cls.saved fields).positionAt .rational (e.mouse .rational)) (e.mouse .rational) =
          (cls.saved fields).offset .rational := offsetFrom_positionAt onIt
    rw [position_of_dragsPart tracks.enabled drags, ne_eq, positionAt_eq_iff onIt]
    constructor
    · intro moved other sameEvent _
      cases sameEvent
      by_contra neither
      obtain ⟨noWhole, away⟩ := not_or.mp neither
      obtain ⟨_, offset, sameEvent, gripped, atOffset⟩ := moved away
      cases sameEvent
      exact noWhole ⟨cls.saved fields, by rw [gripped, ← atOffset, distance]⟩
    · intro held away
      rcases held e rfl drags with ⟨whole, gripped⟩ | near
      · have same : cls.saved fields = whole :=
          (tracks.grip _ gripped).trans (ofOffset_offset whole)
        exact ⟨e, _, rfl, gripped, by rw [distance, same]⟩
      · exact absurd near away
  · have noDrag := Bool.eq_false_iff.mpr drags
    constructor
    · intro _ e isDrag dragsPart
      rw [isDrag] at drags
      exact absurd dragsPart drags
    · intro _ moved
      exact absurd (position_of_not_dragsPart tracks.enabled noDrag) moved

/-- A new object is held at every drag of a sequence. -/
def AlwaysHeld (cls : DragClass F σ ι) (arith : MouseArith F) (object : InteractiveObject F)
    (fields : σ) (inputs : List ι) : Prop :=
  ∀ past input rest, inputs = past ++ input :: rest →
    cls.HeldAt arith (past.foldl (cls.watch arith) ((object.constructed, fields), .released)) input

theorem keepsGrip_iff_of_grips (grips : cls.Grips .rational)
    (object : InteractiveObject (Option Rat)) (fields : σ) (inputs : List ι) :
    cls.KeepsGrip .rational object fields inputs ↔
      cls.AlwaysHeld .rational object fields inputs := by
  have start : Tracks .rational (object.constructed, cls.saved fields) .released :=
    Tracks.of_ungripped rfl rfl Hold.released_ne_gripped
  apply foldl_good_iff (fun watched : Watched (Option Rat) σ =>
    Tracks .rational (watched.1.1, cls.saved watched.1.2) watched.2) _
    (fun _ tracks input => movesWithMouse_iff grips tracks input) start
  rintro ⟨⟨held, fields⟩, hold⟩ input tracks -
  have after : Tracks .rational
      (gripWith .rational (cls.canDrag fields input) (held, cls.saved fields) (cls.event input))
      (hold.after .rational (cls.canDrag fields input) held (cls.event input)) :=
    tracks.gripWith (cls.event input)
  rw [gripWith, ← grips held fields input] at after
  exact after

end DragClass

/-- A new `ofxDraggable` and a new `ofxDraggableGui` move only with the mouse that grips
them, exactly if they are held at every drag over their draggable part. -/
theorem keepsGrip_iff (object : InteractiveObject (Option Rat)) :
    (∀ saved events, (OfxDraggable.dragClass .rational).KeepsGrip .rational object saved events ↔
      (OfxDraggable.dragClass .rational).AlwaysHeld .rational object saved events) ∧
    ∀ gui inputs, (OfxDraggableGui.dragClass .rational).KeepsGrip .rational object gui inputs ↔
      (OfxDraggableGui.dragClass .rational).AlwaysHeld .rational object gui inputs :=
  ⟨DragClass.keepsGrip_iff_of_grips OfxDraggable.grips object,
    DragClass.keepsGrip_iff_of_grips OfxDraggableGui.grips object⟩

/-- A drag that began with a press beside an object moves it when it comes onto it. -/
theorem not_keepsGrip_drag_onto :
    ¬ (OfxDraggable.dragClass .rational).KeepsGrip .rational InteractiveObject.tenSquare ⟨0, 0⟩
      [.pressed ⟨some 20, some 5, 0⟩, .dragged ⟨some 5, some 5, 0⟩] := by
  intro keeps
  have moves := keeps [.pressed ⟨some 20, some 5, 0⟩] (.dragged ⟨some 5, some 5, 0⟩) [] rfl
  obtain ⟨_, offset, -, gripped, -⟩ := moves (by decide +kernel)
  have beside : ((OfxDraggable.dragClass .rational).watch .rational
      ((InteractiveObject.tenSquare.constructed, ⟨0, 0⟩), .released)
        (.pressed ⟨some 20, some 5, 0⟩)).2 = .released := by
    decide +kernel
  exact Hold.released_ne_gripped offset (beside.symm.trans gripped)

end OfxPrimes.Gui
