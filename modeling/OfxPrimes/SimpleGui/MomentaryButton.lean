import OfxPrimes.Gui.MouseEvents
import OfxPrimes.SimpleGui.OfxSimpleGuiToo
import OfxPrimes.Transition.Run

/-!
# Momentary buttons

A momentary button sets its variable when it is pressed and clears it when it is
released.  It overrides `onRelease`, but not `onReleaseOutside`, so the variable
stays set when the mouse is released beside the button.
-/

namespace OfxPrimes.SimpleGui

open OfxPrimes.Fiducial
open OfxPrimes.Gui
open OfxPrimes.Transition

variable {F : Type}

namespace Button

/-- The callbacks that `ofxSimpleGuiButton` overrides. -/
def overrides : Overrides F (Button F × Memory F)
  | .onPress .., self => (self.1, self.2.1.onPress self.2.2)
  | .onRelease .., self => (self.1, self.2.1.onRelease self.2.2)
  | _, self => self

/-- A button as an interactive object, and the memory that its variable is in. -/
abbrev Live (F : Type) :=
  InteractiveObject F × Button F × Memory F

/-- The value of the variable. -/
def Live.value (self : Live F) : Bool :=
  self.2.2 self.2.1.cell

variable (arith : MouseArith F) (hitTest : HitTest F)

/-- The handler of a mouse event. -/
def handle (self : Live F) (event : MouseEvent F) : Live F :=
  handleWith arith hitTest overrides self event

/-- After every event, the variable tells whether the button is held down. -/
def TellsDown (self : Live F) (events : List (MouseEvent F)) : Prop :=
  ∀ past event rest, events = past ++ event :: rest →
    (handle arith hitTest (past.foldl (handle arith hitTest) self) event).value =
      (handle arith hitTest (past.foldl (handle arith hitTest) self) event).1.mouseDown

/-- The event releases the mouse outside an object that is held down. -/
def letsGoOutside (object : InteractiveObject F) : MouseEvent F → Bool
  | .released e => object.mouseDown && !MouseEvent.isOver arith hitTest object.rect e
  | _ => false

/-- The button is enabled and momentary, and both values tell whether it is held down. -/
structure Follows (live : Live F) : Prop where
  enabled : live.1.enabled = true
  momentary : live.2.1.momentary = true
  remembered : live.2.1.oldValue = live.1.mouseDown
  bound : live.value = live.1.mouseDown

variable {arith hitTest} {live : Live F}

/-- What `set` leaves behind where the two values agree. -/
theorem set_spec {self : Button F} {memory : Memory F} (b : Bool)
    (agree : memory self.cell = self.oldValue) :
    (self.set b memory).1.momentary = self.momentary ∧
      (self.set b memory).1.oldValue = b ∧
      (self.set b memory).2 (self.set b memory).1.cell = b := by
  by_cases same : self.oldValue = b
  · rw [set, if_neg (not_not.mpr same)]
    exact ⟨rfl, same, agree.trans same⟩
  · rw [set, if_pos same]
    exact ⟨rfl, rfl, Function.update_self ..⟩

/-- A callback that sets the variable of a button to the down flag of its object. -/
theorem Follows.set (follows : Follows live) {object : InteractiveObject F} {down : Bool}
    (enabled : object.enabled = true) (same : object.mouseDown = down) :
    Follows (object, live.2.1.set down live.2.2) := by
  obtain ⟨momentary, remembered, bound⟩ := set_spec down
    (follows.bound.trans follows.remembered.symm)
  exact ⟨enabled, momentary.trans follows.momentary, remembered.trans same.symm,
    bound.trans same.symm⟩

/-- An event without such a callback, which leaves the down flag as it is. -/
theorem Follows.keep (follows : Follows live) {object : InteractiveObject F}
    (enabled : object.enabled = true) (same : object.mouseDown = live.1.mouseDown) :
    Follows (object, live.2) where
  enabled := enabled
  momentary := follows.momentary
  remembered := follows.remembered.trans same.symm
  bound := follows.bound.trans same.symm

theorem Follows.onPress (follows : Follows live) {object : InteractiveObject F}
    (enabled : object.enabled = true) (down : object.mouseDown = true) :
    Follows (object, live.2.1.onPress live.2.2) := by
  rw [Button.onPress, if_pos follows.momentary]
  exact follows.set enabled down

theorem Follows.onRelease (follows : Follows live) {object : InteractiveObject F}
    (enabled : object.enabled = true) (up : object.mouseDown = false) :
    Follows (object, live.2.1.onRelease live.2.2) := by
  rw [Button.onRelease, if_pos follows.momentary]
  exact follows.set enabled up

/-- A press sets the variable, or the button is as it was. -/
theorem Follows.pressed (follows : Follows live) (e : MouseEventArgs F) :
    Follows (handle arith hitTest live (.pressed e)) := by
  obtain ⟨object, button, memory⟩ := live
  have enabled : (object.handle arith hitTest (.pressed e)).enabled = true :=
    (InteractiveObject.handle_enabled _).trans follows.enabled
  have down : (object.handle arith hitTest (.pressed e)).mouseDown =
      (MouseEvent.isOver arith hitTest object.rect e || object.mouseDown) :=
    InteractiveObject.handle_mouseDown follows.enabled _
  rw [Button.handle, InteractiveObject.handleWith_of_enabled follows.enabled, MouseEvent.callbacks]
  split
  · rename_i starts
    have onIt := Bool.and_elim_left starts
    exact follows.onPress enabled (down.trans (Bool.or_eq_true_iff.mpr (Or.inl onIt)))
  · rename_i idle
    apply follows.keep enabled
    rw [down]
    cases onIt : MouseEvent.isOver arith hitTest object.rect e with
    | false => exact Bool.false_or _
    | true =>
        cases held : object.mouseDown with
        | true => rfl
        | false => exact absurd (by rw [onIt, held]; rfl) idle

/-- A release on the button clears the variable, and one beside it finds it cleared. -/
theorem Follows.released (follows : Follows live) {e : MouseEventArgs F}
    (keeps : letsGoOutside arith hitTest live.1 (.released e) = false) :
    Follows (handle arith hitTest live (.released e)) := by
  obtain ⟨object, button, memory⟩ := live
  have enabled : (object.handle arith hitTest (.released e)).enabled = true :=
    (InteractiveObject.handle_enabled _).trans follows.enabled
  have down : (object.handle arith hitTest (.released e)).mouseDown = false :=
    InteractiveObject.handle_mouseDown follows.enabled _
  rw [Button.handle, InteractiveObject.handleWith_of_enabled follows.enabled, MouseEvent.callbacks]
  split
  · exact follows.onRelease enabled down
  · rename_i off
    have up : object.mouseDown = false := by
      rwa [letsGoOutside, Bool.eq_false_iff.mpr off, Bool.not_false, Bool.and_true] at keeps
    rw [if_neg (Bool.eq_false_iff.mp up)]
    exact follows.keep enabled (down.trans up.symm)

/-- Any event but a release outside keeps the variable at the down flag. -/
theorem Follows.handle (follows : Follows live) {event : MouseEvent F}
    (keeps : letsGoOutside arith hitTest live.1 event = false) :
    Follows (handle arith hitTest live event) := by
  have enabled : (live.1.handle arith hitTest event).enabled = true :=
    (InteractiveObject.handle_enabled event).trans follows.enabled
  have down : (live.1.handle arith hitTest event).mouseDown =
      event.downAfter arith hitTest live.1 :=
    InteractiveObject.handle_mouseDown follows.enabled event
  cases event with
  | pressed e => exact follows.pressed e
  | released e => exact follows.released keeps
  | moved e | dragged e =>
      have kept := follows.keep enabled down
      rw [Button.handle, InteractiveObject.handleWith_of_enabled follows.enabled,
        MouseEvent.callbacks]
      repeat' split
      all_goals exact kept

/-- A release outside leaves the variable of a button that was held down. -/
theorem Follows.value_ne_of_letsGoOutside (follows : Follows live) {event : MouseEvent F}
    (leaves : letsGoOutside arith hitTest live.1 event = true) :
    (Button.handle arith hitTest live event).value ≠
      (Button.handle arith hitTest live event).1.mouseDown := by
  obtain ⟨object, button, memory⟩ := live
  cases event with
  | moved e | pressed e | dragged e => exact absurd leaves Bool.false_ne_true
  | released e =>
      obtain ⟨held, off⟩ := Bool.and_eq_true_iff.mp leaves
      have down : (object.handle arith hitTest (.released e)).mouseDown = false :=
        InteractiveObject.handle_mouseDown follows.enabled _
      have stays : memory button.cell = true := follows.bound.trans held
      have notOver : ¬ MouseEvent.isOver arith hitTest object.rect e = true :=
        Bool.eq_false_iff.mp ((Bool.not_eq_true' _).mp off)
      rw [Button.handle, InteractiveObject.handleWith_of_enabled follows.enabled,
        MouseEvent.callbacks, if_neg notOver, if_pos held]
      intro tells
      exact Bool.false_ne_true (down.symm.trans (tells.symm.trans stays))

/-- The variable of a new momentary button tells after every event whether the button is
held down, exactly if the mouse is never released outside while it is. -/
theorem tellsDown_iff (object : InteractiveObject F) (button : Button F) (memory : Memory F)
    (momentary : button.momentary = true) (remembered : button.oldValue = false)
    (bound : memory button.cell = false) (events : List (MouseEvent F)) :
    TellsDown arith hitTest (object.constructed, button, memory) events ↔
      ∀ past event rest, events = past ++ event :: rest →
        letsGoOutside arith hitTest
          (past.foldl (handle arith hitTest) (object.constructed, button, memory)).1 event =
            false := by
  have start : Follows (object.constructed, button, memory) := ⟨rfl, momentary, remembered, bound⟩
  have tells (live : Live F) (follows : Follows live) (event : MouseEvent F) :
      (handle arith hitTest live event).value = (handle arith hitTest live event).1.mouseDown ↔
        letsGoOutside arith hitTest live.1 event = false := by
    constructor
    · intro tells
      by_contra leaves
      exact follows.value_ne_of_letsGoOutside (Bool.not_eq_false _ ▸ leaves) tells
    · exact fun keeps => (follows.handle keeps).bound
  exact foldl_good_iff Follows (fun _ _ follows keeps => follows.handle keeps) tells start events

/-- A momentary button of side 10 at the origin. -/
def sample : Button (Option Rat) :=
  { base :=
      { name := ascii "Fire"
        key := ascii "Fire"
        controlType := ascii "Button"
        x := some 0
        y := some 0
        width := some 10
        height := some 10
        enabled := true
        lock := false }
    address := 0
    oldValue := false
    momentary := true }

theorem tellsDown_click :
    TellsDown .rational (InteractiveObject.hitTest .rational)
      (InteractiveObject.tenSquare.constructed, sample, fun cell => zero .rational cell.type)
      [.pressed ⟨some 5, some 5, 0⟩, .released ⟨some 5, some 5, 0⟩] := by
  apply (tellsDown_iff InteractiveObject.tenSquare sample _ rfl rfl rfl _).mpr
  refine forall_split_pair.mpr ?_
  decide +kernel

/-- A press on the button and a release beside it leave the variable set. -/
theorem not_tellsDown_let_go_outside :
    ¬ TellsDown .rational (InteractiveObject.hitTest .rational)
      (InteractiveObject.tenSquare.constructed, sample, fun cell => zero .rational cell.type)
      [.pressed ⟨some 5, some 5, 0⟩, .released ⟨some 20, some 5, 0⟩] := by
  intro tells
  have atEnd := tells [.pressed ⟨some 5, some 5, 0⟩] (.released ⟨some 20, some 5, 0⟩) [] rfl
  revert atEnd
  decide +kernel

end Button

end OfxPrimes.SimpleGui
