import OfxPrimes.Gui.MouseEvents

/-!
# Rolling over an object

`onRollOver` and `onRollOut` tell of the mouse entering and leaving an object.
A move that enters calls `onRollOver`.  A drag that enters sets the flag without
a callback, so when the mouse leaves after that, `onRollOut` has no partner.
-/

namespace OfxPrimes.Gui

open OfxPrimes.Transition

variable {F : Type}

/-- Whether a callback rolls over (`true`) or out (`false`). -/
def Callback.roll : Callback F → Option Bool
  | .onRollOver _ _ => some true
  | .onRollOut => some false
  | _ => none

/-- The callbacks that roll over and out, in order. -/
def rolls (callbacks : List (Callback F)) : List Bool :=
  callbacks.filterMap Callback.roll

/-- Rolls over and rolls out alternate, beginning with a roll over. -/
def Alternate (rolls : List Bool) : Prop :=
  rolls.IsChain (· ≠ ·) ∧ rolls.head? ≠ some false

instance : DecidablePred Alternate := fun rolls =>
  inferInstanceAs (Decidable (rolls.IsChain (· ≠ ·) ∧ rolls.head? ≠ some false))

theorem alternate_iff {rolls : List Bool} :
    Alternate rolls ↔ (false :: rolls).IsChain (· ≠ ·) := by
  cases rolls with
  | nil => simp [Alternate]
  | cons first rest =>
      rw [Alternate, List.isChain_cons_cons]
      constructor
      · rintro ⟨chain, begins⟩
        exact ⟨fun same => begins (congrArg some same.symm), chain⟩
      · rintro ⟨differs, chain⟩
        exact ⟨chain, fun begins => differs (Option.some.inj begins).symm⟩

/-! ## What an event shows -/

namespace MouseEvent

variable (arith : MouseArith F) (hitTest : HitTest F) (rect : Rectangle F)

/-- The event drags the mouse, and it is over the rectangle. -/
def dragsOver : MouseEvent F → Bool
  | .dragged e => isOver arith hitTest rect e
  | _ => false

/-- The event moves or drags the mouse, and it is outside the rectangle. -/
def isOutside : MouseEvent F → Bool
  | .moved e | .dragged e => !isOver arith hitTest rect e
  | _ => false

/-- The rolls that the event calls. -/
def rolls (isOn : Bool) : MouseEvent F → List Bool
  | .moved e =>
      if isOver arith hitTest rect e then if isOn then [] else [true]
      else if isOn then [false] else []
  | .dragged e => if isOver arith hitTest rect e then [] else if isOn then [false] else []
  | _ => []

end MouseEvent

/-- The rolls that a sequence of events calls. -/
def rollsFrom (arith : MouseArith F) (hitTest : HitTest F) (rect : Rectangle F) :
    Bool → List (MouseEvent F) → List Bool
  | _, [] => []
  | isOn, event :: rest =>
      event.rolls arith hitTest rect isOn ++
        rollsFrom arith hitTest rect (event.overAfter arith hitTest rect isOn) rest

namespace InteractiveObject

variable {arith : MouseArith F} {hitTest : HitTest F} {object : InteractiveObject F}

theorem rolls_callbacks (event : MouseEvent F) :
    rolls (event.callbacks arith hitTest object) =
      event.rolls arith hitTest object.rect object.mouseOver := by
  cases event with
  | moved e =>
      simp only [MouseEvent.callbacks, MouseEvent.rolls]
      cases object.mouseOver <;> split <;> rfl
  | dragged e =>
      simp only [MouseEvent.callbacks, MouseEvent.rolls]
      cases object.mouseOver <;> cases object.mouseDown <;> split <;> rfl
  | pressed e =>
      simp only [MouseEvent.callbacks, MouseEvent.rolls]
      split <;> rfl
  | released e =>
      simp only [MouseEvent.callbacks, MouseEvent.rolls]
      cases object.mouseDown <;> split <;> rfl

/-- What an enabled object makes of an event, as far as rolls go. -/
theorem handle_of_enabled (enabled : object.enabled = true) (event : MouseEvent F) :
    (object.handle arith hitTest event).enabled = true ∧
      (object.handle arith hitTest event).rect = object.rect ∧
      (object.handle arith hitTest event).mouseOver =
        event.overAfter arith hitTest object.rect object.mouseOver ∧
      rolls (object.handle arith hitTest event).callbacks =
        rolls object.callbacks ++ event.rolls arith hitTest object.rect object.mouseOver := by
  have called : rolls (object.handle arith hitTest event).callbacks =
      rolls object.callbacks ++ rolls (event.callbacks arith hitTest object) := by
    rw [handle_callbacks enabled]
    exact List.filterMap_append
  rw [rolls_callbacks] at called
  exact ⟨(handle_enabled event).trans enabled, handle_rect event, handle_mouseOver enabled event,
    called⟩

/-- What an enabled object makes of a sequence of events. -/
theorem foldl_handle_of_enabled (enabled : object.enabled = true) (events : List (MouseEvent F)) :
    (events.foldl (handle arith hitTest) object).mouseOver =
        events.foldl (MouseEvent.overAfter arith hitTest object.rect) object.mouseOver ∧
      rolls (events.foldl (handle arith hitTest) object).callbacks =
        rolls object.callbacks ++ rollsFrom arith hitTest object.rect object.mouseOver events := by
  induction events generalizing object with
  | nil => exact ⟨rfl, (List.append_nil _).symm⟩
  | cons event rest ih =>
      obtain ⟨awake, sameRect, isOn, rolled⟩ :
          (object.handle arith hitTest event).enabled = true ∧ _ :=
        handle_of_enabled enabled event
      obtain ⟨overLater, rolledLater⟩ := ih awake
      rw [sameRect, isOn] at overLater rolledLater
      constructor
      · exact overLater
      · rw [List.foldl_cons, rolledLater, rolled, List.append_assoc]
        rfl

end InteractiveObject

/-! ## Drags onto the object -/

section Sequences

variable {arith : MouseArith F} {hitTest : HitTest F} {rect : Rectangle F}

/-- After a drag onto the object that no roll over has told of, the callbacks
alternate exactly if the mouse stays. -/
theorem silent_iff {events : List (MouseEvent F)} :
    (false :: rollsFrom arith hitTest rect true events).IsChain (· ≠ ·) ↔
      ∀ later ∈ events, later.isOutside arith hitTest rect = false := by
  induction events with
  | nil => simp [rollsFrom]
  | cons event rest ih =>
      rw [List.forall_mem_cons, ← ih]
      cases event with
      | moved e | dragged e =>
          by_cases isOn : MouseEvent.isOver arith hitTest rect e = true
          · simp [rollsFrom, MouseEvent.rolls, MouseEvent.overAfter, MouseEvent.isOutside, isOn]
          · simp [rollsFrom, MouseEvent.rolls, MouseEvent.overAfter, MouseEvent.isOutside, isOn]
      | pressed e | released e =>
          simp [rollsFrom, MouseEvent.rolls, MouseEvent.overAfter, MouseEvent.isOutside]

theorem rolls_of_silent {event : MouseEvent F}
    (drags : event.dragsOver arith hitTest rect = true) :
    event.rolls arith hitTest rect false = [] := by
  cases event with
  | dragged e => exact if_pos drags
  | moved e | pressed e | released e => exact absurd drags Bool.false_ne_true

theorem overAfter_of_drags {isOn : Bool} {event : MouseEvent F}
    (drags : event.dragsOver arith hitTest rect = true) :
    event.overAfter arith hitTest rect isOn = true := by
  cases event with
  | dragged e => exact drags
  | moved e | pressed e | released e => exact absurd drags Bool.false_ne_true

/-- Any other event rolls exactly when it changes the over flag. -/
theorem rolls_of_not_silent {isOn : Bool} {event : MouseEvent F}
    (loud : event.dragsOver arith hitTest rect = true → isOn = true) :
    event.rolls arith hitTest rect isOn =
      if event.overAfter arith hitTest rect isOn = isOn then []
      else [event.overAfter arith hitTest rect isOn] := by
  cases event with
  | moved e =>
      by_cases onto : MouseEvent.isOver arith hitTest rect e = true
      · cases isOn <;> simp [MouseEvent.rolls, MouseEvent.overAfter, onto]
      · cases isOn <;> simp [MouseEvent.rolls, MouseEvent.overAfter, onto]
  | dragged e =>
      by_cases onto : MouseEvent.isOver arith hitTest rect e = true
      · rw [loud onto]
        simp [MouseEvent.rolls, MouseEvent.overAfter, onto]
      · cases isOn <;> simp [MouseEvent.rolls, MouseEvent.overAfter, onto]
  | pressed e | released e => simp [MouseEvent.rolls, MouseEvent.overAfter]

/-- The rolls alternate exactly if no drag onto the object, with the over flag
off, is followed by the mouse leaving. -/
theorem chain_rollsFrom_iff {isOn : Bool} {events : List (MouseEvent F)} :
    (isOn :: rollsFrom arith hitTest rect isOn events).IsChain (· ≠ ·) ↔
      ∀ past event rest, events = past ++ event :: rest →
        event.dragsOver arith hitTest rect = true →
        past.foldl (MouseEvent.overAfter arith hitTest rect) isOn = false →
          ∀ later ∈ rest, later.isOutside arith hitTest rect = false := by
  induction events generalizing isOn with
  | nil => simp [rollsFrom]
  | cons event rest ih =>
      rw [forall_split_cons]
      by_cases silent : event.dragsOver arith hitTest rect = true ∧ isOn = false
      · obtain ⟨drags, rfl⟩ := silent
        rw [rollsFrom, rolls_of_silent drags, overAfter_of_drags drags, List.nil_append, silent_iff]
        constructor
        · intro stays
          constructor
          · exact fun _ _ => stays
          · rintro past second last rfl - - later mem
            exact stays later (List.mem_append_right _ (List.mem_cons_of_mem _ mem))
        · exact fun ⟨here, _⟩ => here drags rfl
      · have loud : event.dragsOver arith hitTest rect = true → isOn = true := by
          intro drags
          by_contra off
          exact silent ⟨drags, Bool.eq_false_iff.mpr off⟩
        have vacuous : ∀ P : Prop, (event.dragsOver arith hitTest rect = true →
            ([] : List (MouseEvent F)).foldl (MouseEvent.overAfter arith hitTest rect) isOn =
              false → P) := by
          intro P drags off
          exact absurd ((loud drags).symm.trans off) (Ne.symm Bool.false_ne_true)
        have tail := @ih (event.overAfter arith hitTest rect isOn)
        rw [rollsFrom, rolls_of_not_silent loud]
        split
        · rename_i same
          rw [same] at tail
          rw [List.nil_append, same, tail]
          simp only [List.foldl_cons, same]
          exact ⟨fun later => ⟨vacuous _, later⟩, And.right⟩
        · rename_i changed
          rw [List.singleton_append, List.isChain_cons_cons, tail]
          constructor
          · exact fun ⟨_, later⟩ => ⟨vacuous _, later⟩
          · exact fun ⟨_, later⟩ => ⟨Ne.symm changed, later⟩

end Sequences

namespace InteractiveObject

variable {arith : MouseArith F} {hitTest : HitTest F}

/-- The rolls of a new object alternate exactly if no drag onto it, while its
over flag is off, is followed by a move or a drag outside. -/
theorem alternate_rolls_iff (memory : InteractiveObject F) (events : List (MouseEvent F)) :
    Alternate (rolls (events.foldl (handle arith hitTest) (constructed memory)).callbacks) ↔
      ∀ past event rest, events = past ++ event :: rest →
        event.dragsOver arith hitTest memory.rect = true →
        (past.foldl (handle arith hitTest) (constructed memory)).mouseOver = false →
          ∀ later ∈ rest, later.isOutside arith hitTest memory.rect = false := by
  have ran := fun past => @foldl_handle_of_enabled F arith hitTest (constructed memory) rfl past
  simp only [fun past => (ran past).1]
  rw [(ran events).2, alternate_iff]
  exact chain_rollsFrom_iff

/-- A drag onto the object and a move off it roll out without having rolled over. -/
theorem not_alternate_drag_on_move_off :
    ¬ Alternate (rolls
      ([.dragged ⟨some 5, some 5, 0⟩, .moved ⟨some 20, some 5, 0⟩].foldl
        (handle .rational (InteractiveObject.hitTest .rational))
        (constructed tenSquare)).callbacks) := by
  decide +kernel

end InteractiveObject

end OfxPrimes.Gui
