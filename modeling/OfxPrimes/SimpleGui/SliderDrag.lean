import OfxPrimes.Fiducial.Exact
import OfxPrimes.Gui.MouseEvents
import OfxPrimes.SimpleGui.OfxSimpleGuiToo
import OfxPrimes.Transition.Latch
import OfxPrimes.Transition.Run

/-!
# Dragging a slider

`updateSlider` maps the position of the mouse on the slider to a value between
`min` and `max`.  Once the mouse is beyond the right end, the next event only
puts `pct` back to the end, and the position of the mouse at that event is lost.
-/

namespace OfxPrimes.SimpleGui

open OfxPrimes.Fiducial
open OfxPrimes.Fiducial.FloatArith
open OfxPrimes.Gui
open OfxPrimes.Transition

variable {F : Type}

/-- A callback that `ofxSimpleGuiSliderBase` overrides, while the mouse is at a position. -/
inductive SliderEvent (P : Type)
  | onPress (mouseX : P)
  | onDragOver (mouseX : P)
  | onDragOutside (mouseX : P)

namespace SliderEvent

variable {P Q : Type}

/-- `getMouseX()`. -/
def mouseX : SliderEvent P → P
  | .onPress mouseX | .onDragOver mouseX | .onDragOutside mouseX => mouseX

/-- The same callback at another position. -/
def map (f : P → Q) : SliderEvent P → SliderEvent Q
  | .onPress mouseX => .onPress (f mouseX)
  | .onDragOver mouseX => .onDragOver (f mouseX)
  | .onDragOutside mouseX => .onDragOutside (f mouseX)

/-- A callback of the object that the class overrides. -/
def ofCallback : Callback P → Option (SliderEvent P)
  | .onPress x _ _ => some (.onPress x)
  | .onDragOver x _ _ => some (.onDragOver x)
  | .onDragOutside x _ _ => some (.onDragOutside x)
  | _ => none

end SliderEvent

/-- The linear map that takes one interval to another. -/
noncomputable def linearMap (inMin inMax outMin outMax value : ℝ) : ℝ :=
  outMin + (value - inMin) / (inMax - inMin) * (outMax - outMin)

/-- `ofMap` is the linear map. -/
def MapsLinearly (ofMap : Option ℝ → Option ℝ → Option ℝ → Option ℝ → Option ℝ → Option ℝ) :
    Prop :=
  ∀ value inMin inMax outMin outMax : ℝ, inMin ≠ inMax →
    ofMap (some value) (some inMin) (some inMax) (some outMin) (some outMax) =
      some (linearMap inMin inMax outMin outMax value)

namespace Slider

section Callbacks

variable (arith : FloatArith F) (ofMap : F → F → F → F → F → F)

/-- `onPress(int x, int y, int button)` with the mouse at `mouseX`. -/
def onPress (mouseX : F) (self : Slider F) (memory : Memory F) : Slider F × Memory F :=
  self.updateSlider arith ofMap mouseX memory

/-- `onDragOver(int x, int y, int button)` with the mouse at `mouseX`. -/
def onDragOver (mouseX : F) (self : Slider F) (memory : Memory F) : Slider F × Memory F :=
  self.updateSlider arith ofMap mouseX memory

/-- `onDragOutside(int x, int y, int button)` with the mouse at `mouseX`. -/
def onDragOutside (mouseX : F) (self : Slider F) (memory : Memory F) : Slider F × Memory F :=
  self.updateSlider arith ofMap mouseX memory

/-- The slider and the memory after a callback. -/
def respond (live : Slider F × Memory F) : SliderEvent F → Slider F × Memory F
  | .onPress mouseX => live.1.onPress arith ofMap mouseX live.2
  | .onDragOver mouseX => live.1.onDragOver arith ofMap mouseX live.2
  | .onDragOutside mouseX => live.1.onDragOutside arith ofMap mouseX live.2

/-- All three update the slider. -/
theorem respond_map {P : Type} (f : P → F) (live : Slider F × Memory F) (event : SliderEvent P) :
    respond arith ofMap live (event.map f) =
      live.1.updateSlider arith ofMap (f event.mouseX) live.2 := by
  cases event <;> rfl

end Callbacks

/-! ## The callbacks of mouse events -/

section MouseEvents

variable (arith : MouseArith F) (ofMap : F → F → F → F → F → F)

/-- The callbacks that `ofxSimpleGuiSliderBase` overrides.  They read the mouse that the
object keeps. -/
def overrides : Overrides F (Slider F × Memory F)
  | .onPress .., self =>
      (self.1, self.2.1.onPress arith.toFloatArith ofMap self.1.mouseX self.2.2)
  | .onDragOver .., self =>
      (self.1, self.2.1.onDragOver arith.toFloatArith ofMap self.1.mouseX self.2.2)
  | .onDragOutside .., self =>
      (self.1, self.2.1.onDragOutside arith.toFloatArith ofMap self.1.mouseX self.2.2)
  | _, self => self

variable {arith ofMap} {hitTest : HitTest F} {object : InteractiveObject F}

theorem foldl_overrides {callbacks : List (Callback F)} (live : Slider F × Memory F)
    (atMouse : ∀ callback ∈ callbacks, ∀ event ∈ SliderEvent.ofCallback callback,
      event.mouseX = object.mouseX) :
    callbacks.foldl (fun self callback => overrides arith ofMap callback self) (object, live) =
      (object, (callbacks.filterMap SliderEvent.ofCallback).foldl
        (respond arith.toFloatArith ofMap) live) := by
  induction callbacks generalizing live with
  | nil => rfl
  | cons callback rest ih =>
      rw [List.forall_mem_cons] at atMouse
      obtain ⟨here, later⟩ := atMouse
      have next (live : Slider F × Memory F) := ih live later
      cases callback with
      | onPress x y button | onDragOver x y button | onDragOutside x y button =>
          have same : x = object.mouseX := here _ rfl
          subst same
          exact next _
      | onRollOver | onRollOut | onMouseMove | onRelease | onReleaseOutside => exact next live

/-- A mouse event on an enabled slider makes callbacks with the mouse where it is. -/
theorem mouseX_of_mem_callbacks (enabled : object.enabled = true) {event : MouseEvent F}
    {callback : Callback F} (mem : callback ∈ event.callbacks arith hitTest object)
    {sliderEvent : SliderEvent F} (is : sliderEvent ∈ SliderEvent.ofCallback callback) :
    sliderEvent.mouseX = (object.handle arith hitTest event).mouseX := by
  rw [InteractiveObject.handle_mouseX enabled]
  cases event with
  | moved e | pressed e | dragged e | released e =>
      rw [MouseEvent.callbacks] at mem
      grind [SliderEvent.ofCallback, SliderEvent.mouseX, MouseEvent.args]

/-- The handler of a mouse event, on an enabled slider, answers those of its callbacks that
the class overrides. -/
theorem handleWith_overrides (enabled : object.enabled = true) (live : Slider F × Memory F)
    (event : MouseEvent F) :
    handleWith arith hitTest (overrides arith ofMap) (object, live) event =
      (object.handle arith hitTest event,
        ((event.callbacks arith hitTest object).filterMap SliderEvent.ofCallback).foldl
          (respond arith.toFloatArith ofMap) live) := by
  rw [InteractiveObject.handleWith_of_enabled enabled]
  apply foldl_overrides
  intro callback mem sliderEvent is
  exact mouseX_of_mem_callbacks enabled mem is

/-- What mouse events do to an enabled slider, the overridden ones among the callbacks that
they make do. -/
theorem foldl_handleWith_overrides (enabled : object.enabled = true)
    (live : Slider F × Memory F) (events : List (MouseEvent F)) :
    ∃ made, (events.foldl (handleWith arith hitTest (overrides arith ofMap))
        (object, live)).1.callbacks = object.callbacks ++ made ∧
      (events.foldl (handleWith arith hitTest (overrides arith ofMap)) (object, live)).2 =
        (made.filterMap SliderEvent.ofCallback).foldl (respond arith.toFloatArith ofMap) live := by
  induction events generalizing object live with
  | nil => exact ⟨[], (List.append_nil _).symm, rfl⟩
  | cons event rest ih =>
      have still : (object.handle arith hitTest event).enabled = true :=
        (InteractiveObject.handle_enabled event).trans enabled
      rw [List.foldl_cons, handleWith_overrides enabled]
      obtain ⟨later, log, same⟩ := ih still _
      use event.callbacks arith hitTest object ++ later
      constructor
      · rw [log, InteractiveObject.handle_callbacks enabled, List.append_assoc]
      · rw [same, List.filterMap_append, List.foldl_append]

end MouseEvents

/-! ## Following the mouse -/

/-- An enabled slider without smoothing, at `left`, of a positive width and with `min`
less than `max`. -/
structure Measures (slider : Slider (Option ℝ)) (left width lower upper : ℝ) : Prop where
  enabled : slider.base.enabled = true
  direct : slider.bLerpValue = false
  begins : slider.base.x = some left
  wide : slider.base.width = some width
  least : toFloat exact slider.type slider.min = some lower
  greatest : toFloat exact slider.type slider.max = some upper
  positive : 0 < width
  ordered : lower < upper

/-- The mouse at `mouseX` mapped to a value between the bounds. -/
noncomputable def mappedMouse (left width lower upper mouseX : ℝ) : ℝ :=
  Max.max lower (Min.min upper (linearMap 0 width lower upper (mouseX - left)))

/-- The variable holds the value, as the type of the slider has it. -/
def Shows (live : Slider (Option ℝ) × Memory (Option ℝ)) (value : ℝ) : Prop :=
  live.2 live.1.cell = ofFloat exact live.1.type (some value)

/-- `pct > width`: the next event will be lost. -/
def IsAhead (self : Slider (Option ℝ)) : Prop :=
  exact.lt self.base.width self.pct = true

variable {ofMap : Option ℝ → Option ℝ → Option ℝ → Option ℝ → Option ℝ → Option ℝ}
variable {self : Slider (Option ℝ)} {memory : Memory (Option ℝ)}
variable {left width lower upper : ℝ}

theorem eq_of_exact_eq {a b : Option ℝ} (equal : exact.eq a b = true) : a = b := by
  cases a <;> cases b <;> simp_all [exact]

theorem eq_of_differ_eq_false {type : VarType} {a b : Carrier (Option ℝ) type}
    (same : differ exact type a b = false) : a = b := by
  cases type with
  | int | byte | bool => exact not_not.mp (of_decide_eq_false same)
  | float | double =>
      have equal : exact.eq a b = true := (Bool.not_eq_false' _).mp same
      exact eq_of_exact_eq equal

/-- `set` stores the value. -/
theorem set_exact (direct : self.bLerpValue = false) (owned : self.oldValue = memory self.cell)
    (f : Carrier (Option ℝ) self.type) :
    ∃ later, self.set exact f memory = ({ self with oldValue := f }, later) ∧
      later self.cell = f := by
  by_cases changed : differ exact self.type self.oldValue f = true
  · rw [set, if_pos changed]
    simp only [direct, Bool.false_eq_true, if_false]
    exact ⟨_, rfl, Function.update_self ..⟩
  · have same := eq_of_differ_eq_false (Bool.eq_false_iff.mpr changed)
    subst same
    exact ⟨memory, if_neg changed, owned.symm⟩

/-- A mouse beyond the right end is mapped to the greatest value. -/
theorem mappedMouse_of_beyond (positive : 0 < width) (ordered : lower < upper) {mouseX : ℝ}
    (ahead : width < mouseX - left) : mappedMouse left width lower upper mouseX = upper := by
  have beyond : 1 ≤ (mouseX - left) / width := (one_le_div positive).mpr ahead.le
  have stretched := mul_le_mul_of_nonneg_right beyond (sub_pos.mpr ordered).le
  have above : upper ≤ linearMap 0 width lower upper (mouseX - left) := by
    rw [linearMap, sub_zero, sub_zero]
    linarith
  rw [mappedMouse, min_eq_left above, max_eq_right ordered.le]

/-- The value at a relative position. -/
theorem valueAt_exact (linear : MapsLinearly ofMap)
    (measures : Measures self left width lower upper) {pct : ℝ} (known : self.pct = some pct) :
    self.valueAt exact ofMap =
      some (Max.max lower (Min.min upper (linearMap 0 width lower upper pct))) := by
  have mapped := linear pct 0 width lower upper measures.positive.ne
  have zero : exact.ofInt 0 = some 0 := congrArg some Int.cast_zero
  rw [valueAt, known, zero, measures.wide, measures.least, measures.greatest]
  simp only [mapped, exact_le, decide_eq_true_eq]
  split
  · rename_i above
    rw [min_eq_left above, max_eq_right measures.ordered.le]
  · rename_i notAbove
    rw [min_eq_right (not_le.mp notAbove).le]
    split
    · rename_i below
      rw [max_eq_left below]
    · rename_i notBelow
      rw [max_eq_right (not_le.mp notBelow).le]

/-! ## One event -/

/-- The slider measures as it did, and no other has written to its variable. -/
structure Owns (live : Slider (Option ℝ) × Memory (Option ℝ)) (type : VarType)
    (left width lower upper : ℝ) : Prop where
  sameType : live.1.type = type
  measures : Measures live.1 left width lower upper
  owned : live.1.oldValue = live.2 live.1.cell

variable {live : Slider (Option ℝ) × Memory (Option ℝ)} {type : VarType}

/-- An event while the slider is ahead only takes `pct` back. -/
theorem Owns.updateSlider_of_isAhead (owns : Owns live type left width lower upper)
    (ahead : live.1.IsAhead) (mouseX : Option ℝ) :
    live.1.updateSlider exact ofMap mouseX live.2 =
      ({ live.1 with pct := live.1.base.width }, live.2) := by
  have awake : ¬ (!live.1.base.enabled) = true := by simp [owns.measures.enabled]
  rw [IsAhead] at ahead
  rw [updateSlider, if_neg awake, if_pos ahead]

/-- Any other event stores the value that the mouse is mapped to. -/
theorem Owns.updateSlider_of_not_isAhead (owns : Owns live type left width lower upper)
    (linear : MapsLinearly ofMap) (near : ¬ live.1.IsAhead) (mouseX : ℝ) :
    let f := ofFloat exact live.1.type (some (mappedMouse left width lower upper mouseX))
    ∃ later, live.1.updateSlider exact ofMap (some mouseX) live.2 =
      ({ live.1 with pct := some (mouseX - left), oldValue := f }, later) ∧
        later live.1.cell = f := by
  have awake : ¬ (!live.1.base.enabled) = true := by simp [owns.measures.enabled]
  rw [IsAhead] at near
  let moved : Slider (Option ℝ) := { live.1 with pct := some (mouseX - left) }
  have measures : Measures moved left width lower upper := { owns.measures with }
  rw [updateSlider, if_neg awake, if_neg near, owns.measures.begins, exact_sub, moveTo]
  rw [valueAt_exact linear measures rfl]
  have direct : moved.bLerpValue = false := owns.measures.direct
  have owned : moved.oldValue = live.2 moved.cell := owns.owned
  exact set_exact direct owned _

/-! ## Sequences of events -/

/-- The slider and the memory after an event with the mouse at a real number. -/
noncomputable def dragTo (ofMap : Option ℝ → Option ℝ → Option ℝ → Option ℝ → Option ℝ → Option ℝ)
    (live : Slider (Option ℝ) × Memory (Option ℝ)) (event : SliderEvent ℝ) :
    Slider (Option ℝ) × Memory (Option ℝ) :=
  respond exact ofMap live (event.map some)

theorem Owns.dragTo (owns : Owns live type left width lower upper) (linear : MapsLinearly ofMap)
    (event : SliderEvent ℝ) : Owns (dragTo ofMap live event) type left width lower upper := by
  rw [Slider.dragTo, respond_map]
  by_cases ahead : live.1.IsAhead
  · rw [owns.updateSlider_of_isAhead ahead]
    exact ⟨owns.sameType, { owns.measures with }, owns.owned⟩
  · obtain ⟨later, updated, stored⟩ := owns.updateSlider_of_not_isAhead linear ahead event.mouseX
    rw [updated]
    exact ⟨owns.sameType, { owns.measures with }, stored.symm⟩

/-- After an event the variable shows where the mouse is, unless the event is lost. -/
theorem Owns.shows_dragTo_iff (owns : Owns live type left width lower upper)
    (linear : MapsLinearly ofMap) (event : SliderEvent ℝ) :
    Shows (Slider.dragTo ofMap live event) (mappedMouse left width lower upper event.mouseX) ↔
      (live.1.IsAhead → Shows live (mappedMouse left width lower upper event.mouseX)) := by
  rw [Slider.dragTo, respond_map]
  by_cases ahead : live.1.IsAhead
  · rw [owns.updateSlider_of_isAhead ahead, forall_prop_of_true ahead]
    rfl
  · obtain ⟨later, updated, stored⟩ := owns.updateSlider_of_not_isAhead linear ahead event.mouseX
    rw [updated]
    exact iff_of_true stored fun isAhead => absurd isAhead ahead

/-- An event that is not lost takes the slider ahead if the mouse is beyond the right end. -/
theorem Owns.isAhead_dragTo_iff (owns : Owns live type left width lower upper)
    (linear : MapsLinearly ofMap) (near : ¬ live.1.IsAhead) (event : SliderEvent ℝ) :
    (Slider.dragTo ofMap live event).1.IsAhead ↔ width < event.mouseX - left := by
  obtain ⟨later, updated, -⟩ := owns.updateSlider_of_not_isAhead linear near event.mouseX
  rw [Slider.dragTo, respond_map, updated, IsAhead, owns.measures.wide, exact_lt]
  exact decide_eq_true_iff

/-- An event that is lost does not leave the slider ahead. -/
theorem Owns.not_isAhead_of_isAhead (owns : Owns live type left width lower upper)
    (ahead : live.1.IsAhead) (event : SliderEvent ℝ) :
    ¬ (Slider.dragTo ofMap live event).1.IsAhead := by
  rw [Slider.dragTo, respond_map, owns.updateSlider_of_isAhead ahead, IsAhead,
    owns.measures.wide, exact_lt]
  exact fun still => lt_irrefl width (of_decide_eq_true still)

/-- A slider that an event has taken ahead shows the greatest value. -/
theorem Owns.shows_upper (owns : Owns live type left width lower upper)
    (linear : MapsLinearly ofMap) (event : SliderEvent ℝ)
    (ahead : (Slider.dragTo ofMap live event).1.IsAhead) :
    Shows (Slider.dragTo ofMap live event) upper := by
  have near : ¬ live.1.IsAhead := fun wasAhead => owns.not_isAhead_of_isAhead wasAhead event ahead
  have beyond := (owns.isAhead_dragTo_iff linear near event).mp ahead
  have shown := (owns.shows_dragTo_iff linear event).mpr fun wasAhead => absurd wasAhead near
  rw [mappedMouse_of_beyond owns.measures.positive owns.measures.ordered beyond] at shown
  exact shown

/-- After every event, the variable shows where the mouse is. -/
def FollowsMouse (ofMap : Option ℝ → Option ℝ → Option ℝ → Option ℝ → Option ℝ → Option ℝ)
    (left width lower upper : ℝ) (live : Slider (Option ℝ) × Memory (Option ℝ))
    (events : List (SliderEvent ℝ)) : Prop :=
  ∀ past event rest, events = past ++ event :: rest →
    Shows (dragTo ofMap (past.foldl (dragTo ofMap) live) event)
      (mappedMouse left width lower upper event.mouseX)

theorem Owns.foldl_dragTo (owns : Owns live type left width lower upper)
    (linear : MapsLinearly ofMap) (past : List (SliderEvent ℝ)) :
    Owns (past.foldl (Slider.dragTo ofMap) live) type left width lower upper := by
  induction past generalizing live with
  | nil => exact owns
  | cons event rest ih => exact ih (owns.dragTo linear event)

/-- A slider that an event has taken ahead shows a value exactly if it is the greatest. -/
theorem Owns.shows_iff_of_isAhead (owns : Owns live type left width lower upper)
    (linear : MapsLinearly ofMap) (event : SliderEvent ℝ)
    (ahead : (Slider.dragTo ofMap live event).1.IsAhead) (value : ℝ) :
    Shows (Slider.dragTo ofMap live event) value ↔
      ofFloat exact type (some upper) = ofFloat exact type (some value) := by
  have shown := owns.shows_upper linear event ahead
  rw [Shows] at shown ⊢
  rw [shown]
  cases (owns.dragTo linear event).sameType
  rfl

/-- The variable of a slider shows after every event where the mouse is, exactly if every
event that comes while the slider is ahead maps to what it shows already: at the first
event its value at the start, and later the greatest value. -/
theorem followsMouse_iff (linear : MapsLinearly ofMap)
    (measures : Measures self left width lower upper) (owned : self.oldValue = memory self.cell)
    (events : List (SliderEvent ℝ)) :
    FollowsMouse ofMap left width lower upper (self, memory) events ↔
      (∀ event rest, events = event :: rest → self.IsAhead →
        memory self.cell =
          ofFloat exact self.type (some (mappedMouse left width lower upper event.mouseX))) ∧
      ∀ past last event rest, events = past ++ last :: event :: rest →
        (dragTo ofMap (past.foldl (dragTo ofMap) (self, memory)) last).1.IsAhead →
          ofFloat exact self.type (some upper) =
            ofFloat exact self.type (some (mappedMouse left width lower upper event.mouseX)) := by
  have owns : Owns (self, memory) self.type left width lower upper := ⟨rfl, measures, owned⟩
  have lost := foldl_good_iff (fun live => Owns live self.type left width lower upper)
    (fun _ event owns _ => owns.dragTo linear event)
    (fun _ owns event => owns.shows_dragTo_iff linear event) owns events
  rw [FollowsMouse, lost]
  constructor
  · intro keeps
    constructor
    · exact keeps []
    · intro past last event rest whole ahead
      have before := owns.foldl_dragTo linear past
      have shown := keeps (past ++ [last]) event rest (by rw [whole, List.append_cons])
      rw [List.foldl_append] at shown
      exact (before.shows_iff_of_isAhead linear last ahead _).mp (shown ahead)
  · rintro ⟨first, later⟩ past event rest whole ahead
    rcases List.eq_nil_or_concat past with rfl | ⟨earlier, last, rfl⟩
    · exact first event rest whole ahead
    · have before := owns.foldl_dragTo linear earlier
      rw [List.concat_eq_append, List.foldl_append] at ahead ⊢
      rw [List.concat_eq_append, ← List.append_cons] at whole
      exact (before.shows_iff_of_isAhead linear last ahead _).mpr
        (later earlier last event rest whole ahead)

/-- A slider of width 100 at the origin, for a variable from 0 to 10. -/
noncomputable def sample : Slider (Option ℝ) :=
  let base : Base (Option ℝ) :=
    { name := ascii "level"
      key := ascii "level"
      controlType := ascii "SliderFloat"
      x := some 0
      y := some 0
      width := some (100 : ℤ)
      height := some (20 : ℤ)
      enabled := true
      lock := false }
  let min : Option ℝ := some 0
  let max : Option ℝ := some (10 : ℤ)
  Slider.construct exact base .float 0 min max (some 0) (some 0) fun cell => zero exact cell.type

/-- The unclamped linear map. -/
noncomputable def unclampedMap (value inMin inMax outMin outMax : Option ℝ) : Option ℝ :=
  exact.add outMin
    (exact.mul (exact.div (exact.sub value inMin) (exact.sub inMax inMin))
      (exact.sub outMax outMin))

theorem mapsLinearly_unclampedMap : MapsLinearly unclampedMap := by
  intro value inMin inMax outMin outMax apart
  have notZero : inMax - inMin ≠ 0 := sub_ne_zero.mpr apart.symm
  simp only [unclampedMap, exact_sub, exact_div, if_neg notZero, exact_mul, exact_add, linearMap]

theorem measures_sample : Measures sample 0 (100 : ℤ) 0 (10 : ℤ) where
  enabled := rfl
  direct := by simp [sample, construct]
  begins := rfl
  wide := rfl
  least := rfl
  greatest := rfl
  positive := by norm_num
  ordered := by norm_num

theorem not_isAhead_sample : ¬ sample.IsAhead := by
  have notAhead : ¬ ((100 : ℤ) : ℝ) < 0 := by norm_num
  exact fun ahead => notAhead (of_decide_eq_true ahead)

/-- A drag beyond the right end that stays there. -/
theorem followsMouse_beyond :
    FollowsMouse unclampedMap 0 (100 : ℤ) 0 (10 : ℤ)
      (sample, fun cell => zero exact cell.type)
      [.onDragOutside (150 : ℤ), .onDragOutside (200 : ℤ)] := by
  apply (followsMouse_iff mapsLinearly_unclampedMap measures_sample rfl _).mpr
  constructor
  · intro event rest whole ahead
    exact absurd ahead not_isAhead_sample
  · intro past last event rest whole ahead
    have second : event = .onDragOutside ((200 : ℤ) : ℝ) := by
      cases past with
      | nil =>
          injection whole with _ tail
          injection tail with same
          exact same.symm
      | cons _ past => cases past <;> simp at whole
    have beyond : ((100 : ℤ) : ℝ) < (200 : ℤ) - 0 := by norm_num
    rw [second, SliderEvent.mouseX, mappedMouse_of_beyond measures_sample.positive
      measures_sample.ordered beyond]

/-- A drag back from beyond the right end leaves the variable where it was. -/
theorem not_followsMouse_back :
    ¬ FollowsMouse unclampedMap 0 (100 : ℤ) 0 (10 : ℤ)
      (sample, fun cell => zero exact cell.type)
      [.onPress (90 : ℤ), .onDragOutside (150 : ℤ), .onDragOver (50 : ℤ)] := by
  intro follows
  have linear := mapsLinearly_unclampedMap
  have owns : Owns (sample, fun cell => zero exact cell.type) .float 0 (100 : ℤ) 0 (10 : ℤ) :=
    ⟨rfl, measures_sample, rfl⟩
  have pressed := owns.dragTo linear (.onPress (90 : ℤ))
  have dragged := pressed.dragTo linear (.onDragOutside (150 : ℤ))
  have onIt : ¬ ((100 : ℤ) : ℝ) < (90 : ℤ) - 0 := by norm_num
  have near :=
    mt (owns.isAhead_dragTo_iff linear not_isAhead_sample (.onPress (90 : ℤ))).mp onIt
  have beyond : ((100 : ℤ) : ℝ) < (150 : ℤ) - 0 := by norm_num
  have ahead := (pressed.isAhead_dragTo_iff linear near (.onDragOutside (150 : ℤ))).mpr beyond
  have shown := follows [.onPress (90 : ℤ), .onDragOutside (150 : ℤ)] (.onDragOver (50 : ℤ)) [] rfl
  have lost := (dragged.shows_dragTo_iff linear (.onDragOver (50 : ℤ))).mp shown ahead
  have same := (pressed.shows_iff_of_isAhead linear _ ahead _).mp lost
  have middle : ((10 : ℤ) : ℝ) = mappedMouse 0 (100 : ℤ) 0 (10 : ℤ) (50 : ℤ) :=
    Option.some.inj same
  rw [mappedMouse, linearMap] at middle
  norm_num at middle

end Slider

end OfxPrimes.SimpleGui
