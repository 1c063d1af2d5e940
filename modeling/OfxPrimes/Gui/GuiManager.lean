import OfxPrimes.SimpleGui.OfxSimpleGuiToo
import OfxPrimes.Transition.Run

/-!
# Pages from messages

`GuiManager::recv` turns a `Gui` message into a page: a title, and one widget for
each description of a control.  The loop keeps a pointer to the widget it has
made last, and a description that makes none works on that widget.  What a second
`ofAddListener` does to the registrations is left to the parameter `count`.
-/

namespace OfxPrimes.Gui

open OfxPrimes.Fiducial
open OfxPrimes.SimpleGui
open OfxPrimes.Transition

variable {F : Type}

/-! ## The messages -/

/-- `FieldDescriptorProto::Type`. -/
inductive FieldType
  | double
  | float
  | int64
  | uint64
  | int32
  | fixed64
  | fixed32
  | bool
  | string
  | group
  | message
  | bytes
  | uint32
  | enum
  | sfixed32
  | sfixed64
  | sint32
  | sint64
  deriving DecidableEq, Repr

/-- The types that `recv` makes a widget for. -/
def FieldType.isSupported : FieldType → Bool
  | .bytes | .enum | .group | .message => false
  | _ => true

/-- `Gui::Control`, with the fields that are read.  A field that is not set is none. -/
structure ControlMessage (F : Type) where
  name : Option Text
  key : Option Text
  valueType : Option FieldType
  min : Option F
  max : Option F
  deriving DecidableEq, Repr

/-- `Gui`, with the fields that are read. -/
structure GuiMessage (F : Type) where
  name : Option Text
  key : Option Text
  controls : List (ControlMessage F)
  deriving DecidableEq, Repr

namespace ControlMessage

/-- `name()`. -/
def getName (control : ControlMessage F) : Text :=
  control.name.getD []

/-- `value_type()`. -/
def getValueType (control : ControlMessage F) : FieldType :=
  control.valueType.getD .double

/-- `min()`. -/
def getMin (arith : FloatArith F) (control : ControlMessage F) : F :=
  control.min.getD (arith.ofInt 0)

/-- `max()`. -/
def getMax (arith : FloatArith F) (control : ControlMessage F) : F :=
  control.max.getD (arith.ofInt 0)

/-- `IsInitialized()`: the required fields are set. -/
def isInitialized (control : ControlMessage F) : Bool :=
  control.name.isSome && control.valueType.isSome

end ControlMessage

namespace GuiMessage

/-- `name()`. -/
def getName (gui : GuiMessage F) : Text :=
  gui.name.getD []

/-- `IsInitialized()`. -/
def isInitialized (gui : GuiMessage F) : Bool :=
  gui.name.isSome && gui.key.isSome && gui.controls.all ControlMessage.isInitialized

end GuiMessage

/-! ## The widgets -/

/-- The kinds of widgets that `recv` makes, with their bounds. -/
inductive WidgetKind (F : Type)
  | title
  | toggle
  | sliderFloat (min max : F)
  | sliderInt (min max : Int)
  deriving DecidableEq, Repr

/-- A control of a page, with the number of times that `controlValueChanged` has
been registered on it. -/
structure Widget (F : Type) where
  kind : WidgetKind F
  name : Text
  key : Text
  registered : Nat
  deriving DecidableEq, Repr

/-- `if(key[i] == ' ') key[i] = '_'` for every character. -/
def underscored (text : Text) : Text :=
  text.map fun character => if character = 32 then 95 else character

namespace Widget

/-- `ofxSimpleGuiControl::setKey`. -/
def setKey (newKey : Text) (widget : Widget F) : Widget F :=
  { widget with key := underscored (if newKey = [] then widget.name else newKey) }

/-- `ofxSimpleGuiControl::setName`. -/
def setName (newName : Text) (widget : Widget F) : Widget F :=
  let widget := { widget with name := newName }
  if widget.key = [] then widget.setKey [] else widget

/-- `ofxSimpleGuiControl::ofxSimpleGuiControl`, for a widget of some kind. -/
def construct (kind : WidgetKind F) (name : Text) : Widget F :=
  let widget : Widget F := { kind, name := [], key := [], registered := 0 }
  let widget := widget.setName name
  widget.setKey widget.key

/-- `ofAddListener(valueChangedEvt, this, &GuiManager::controlValueChanged)`. -/
def addListener (count : ListenerCount) (widget : Widget F) : Widget F :=
  { widget with registered := count.add widget.registered }

end Widget

/-! ## The loop -/

/-- The variables of `recv`.  `newControl` is the position of the control that
`new_control` points to, or none while nothing has been assigned to it. -/
structure Receiving (F : Type) where
  controls : List (Widget F)
  newControl : Option Nat
  deriving DecidableEq, Repr

namespace Receiving

/-- `new_control = &new_gui->add...`: a new control, and a pointer to it. -/
def add (state : Receiving F) (widget : Widget F) : Receiving F :=
  { controls := state.controls ++ [widget]
    newControl := some state.controls.length }

/-- Change the control that `new_control` points to.  To follow a pointer that
nothing has been assigned to goes wrong. -/
def change (f : Widget F → Widget F) (state : Receiving F) : Option (Receiving F) :=
  state.newControl.map fun position =>
    { state with controls := state.controls.modify position f }

end Receiving

/-- The widget that the `switch` makes for a description. -/
def newWidget (arith : FloatArith F) (control : ControlMessage F) : Option (Widget F) :=
  let name := control.getName
  let min := control.getMin arith
  let max := control.getMax arith
  match control.getValueType with
  | .bool => some (.construct .toggle name)
  | .string => some (.construct .title name)
  | .double | .float => some (.construct (.sliderFloat min max) name)
  | .int32 | .int64 | .sint32 | .sint64 | .fixed32 | .fixed64 | .sfixed32 | .sfixed64
  | .uint32 | .uint64 =>
      some (.construct (.sliderInt (truncate arith min) (truncate arith max)) name)
  | _ => none

/-- One round of the loop of `GuiManager::recv`. -/
def recvControl (arith : FloatArith F) (count : ListenerCount) :
    Step (Receiving F) (ControlMessage F) :=
  fun state control =>
    let state :=
      match newWidget arith control with
      | some widget => state.add widget
      | none => state
    let keyed :=
      match control.key with
      | some key => state.change (Widget.setKey key)
      | none => some state
    keyed.bind (Receiving.change (Widget.addListener count))

/-- The controls of a new page with its title. -/
def titled (gui : GuiMessage F) : Receiving F :=
  { controls := [.construct .title gui.getName]
    newControl := none }

/-- `GuiManager::recv`: the controls of the page, or none for `NULL`.  The outer
option is none when the call goes wrong. -/
def recv (arith : FloatArith F) (count : ListenerCount) (gui : GuiMessage F) :
    Option (Option (List (Widget F))) :=
  if !gui.isInitialized then some none
  else
    (run (recvControl arith count) (titled gui) gui.controls).map fun state =>
      some state.controls

/-! ## What the page should be -/

/-- The widget of a description: under its own key, or else its name, with the
listener registered once. -/
def describedWidget (arith : FloatArith F) (control : ControlMessage F) : Option (Widget F) :=
  (newWidget arith control).map fun widget =>
    { widget with
      key := underscored (control.key.getD control.getName)
      registered := 1 }

/-- The title, and the widgets of the descriptions. -/
def describedControls (arith : FloatArith F) (gui : GuiMessage F) : List (Widget F) :=
  Widget.construct .title gui.getName :: gui.controls.filterMap (describedWidget arith)

/-! ## When the page is as described -/

namespace ControlMessage

/-- A description without a widget of its own. -/
def isUnsupported (control : ControlMessage F) : Bool :=
  !control.getValueType.isSupported

/-- The last key that a description and those behind it set, where the empty one
stands for the name. -/
def lastKey (control : ControlMessage F) (behind : List (ControlMessage F)) : Text :=
  match ((control :: behind).filterMap ControlMessage.key).getLast? with
  | none => control.getName
  | some key => if key = [] then control.getName else key

/-- The descriptions without a widget behind one with a widget do that widget no
harm: they leave it its key, and to register as many times again is to be
registered once. -/
structure Unharmed (count : ListenerCount) (control : ControlMessage F)
    (behind : List (ControlMessage F)) : Prop where
  key : underscored (control.lastKey behind) = underscored (control.key.getD control.getName)
  once : count.add^[behind.length] 1 = 1

end ControlMessage

/-- The descriptions without a widget that stand first. -/
def behind (controls : List (ControlMessage F)) : List (ControlMessage F) :=
  controls.takeWhile ControlMessage.isUnsupported

/-! ## Widgets and their keys -/

theorem underscored_underscored (text : Text) :
    underscored (underscored text) = underscored text := by
  simp only [underscored, List.map_map]
  apply List.map_congr_left
  intro character _
  by_cases space : character = 32
  · simp [space]
  · simp [space]

theorem Widget.construct_eq (kind : WidgetKind F) (name : Text) :
    construct kind name = { kind, name, key := underscored name, registered := 0 } := by
  simp only [construct, setName, setKey, if_true, Widget.mk.injEq, true_and, and_true]
  by_cases empty : underscored name = []
  · rw [if_pos empty]
  · rw [if_neg empty, underscored_underscored]

theorem isSome_newWidget (arith : FloatArith F) (control : ControlMessage F) :
    (newWidget arith control).isSome = control.getValueType.isSupported := by
  simp only [newWidget]
  cases control.getValueType <;> rfl

theorem newWidget_eq {arith : FloatArith F} {control : ControlMessage F} {widget : Widget F}
    (made : newWidget arith control = some widget) :
    widget.name = control.getName ∧ widget.key = underscored control.getName ∧
      widget.registered = 0 := by
  simp only [newWidget, Widget.construct_eq] at made
  split at made <;> first | contradiction | (cases made; exact ⟨rfl, rfl, rfl⟩)

section Touched

variable (count : ListenerCount)

/-- What a round does to the control that `new_control` points to. -/
def Widget.touched (widget : Widget F) (control : ControlMessage F) : Widget F :=
  (control.key.elim widget fun key => widget.setKey key).addListener count

theorem Widget.touched_name (widget : Widget F) (control : ControlMessage F) :
    (widget.touched count control).name = widget.name := by
  cases hasKey : control.key <;> simp [touched, hasKey, addListener, setKey]

theorem Widget.touched_kind (widget : Widget F) (control : ControlMessage F) :
    (widget.touched count control).kind = widget.kind := by
  cases hasKey : control.key <;> simp [touched, hasKey, addListener, setKey]

theorem Widget.touched_registered (widget : Widget F) (control : ControlMessage F) :
    (widget.touched count control).registered = count.add widget.registered := by
  cases hasKey : control.key <;> simp [touched, hasKey, addListener, setKey]

theorem Widget.touched_key (widget : Widget F) (control : ControlMessage F) :
    (widget.touched count control).key =
      control.key.elim widget.key fun key =>
        underscored (if key = [] then widget.name else key) := by
  cases hasKey : control.key <;> simp [touched, hasKey, addListener, setKey]

/-- Rounds on one widget keep its kind and its name, register once each, and leave
the last key. -/
theorem Widget.foldl_touched (controls : List (ControlMessage F)) (widget : Widget F) :
    controls.foldl (Widget.touched count) widget =
      { widget with
        key := ((controls.filterMap ControlMessage.key).getLast?).elim widget.key fun key =>
          underscored (if key = [] then widget.name else key)
        registered := count.add^[controls.length] widget.registered } := by
  induction controls generalizing widget with
  | nil => rfl
  | cons control rest ih =>
      rw [List.foldl_cons, ih, touched_name, touched_kind, touched_registered, touched_key]
      cases hasKey : control.key with
      | none =>
          rw [List.filterMap_cons_none hasKey]
          rfl
      | some key =>
          rw [List.filterMap_cons_some hasKey, List.getLast?_cons]
          cases (rest.filterMap ControlMessage.key).getLast? <;> rfl

end Touched

/-! ## The loop on descriptions -/

section Loop

variable (arith : FloatArith F) (count : ListenerCount)

/-- The widget of a description after the rounds behind it that work on it. -/
def builtWidget (control : ControlMessage F) (behind : List (ControlMessage F)) :
    Option (Widget F) :=
  (newWidget arith control).map fun widget =>
    (control :: behind).foldl (Widget.touched count) widget

/-- A widget is as described exactly if the descriptions behind it do it no harm. -/
theorem builtWidget_eq_iff (registers : count.add 0 = 1) {control : ControlMessage F}
    (supported : control.getValueType.isSupported = true) (behind : List (ControlMessage F)) :
    builtWidget arith count control behind = describedWidget arith control ↔
      control.Unharmed count behind := by
  rw [← isSome_newWidget arith] at supported
  obtain ⟨widget, made⟩ := Option.isSome_iff_exists.mp supported
  obtain ⟨sameName, sameKey, fresh⟩ := newWidget_eq made
  have registrations :
      count.add^[(control :: behind).length] widget.registered =
        count.add^[behind.length] 1 := by
    rw [fresh, List.length_cons, Function.iterate_succ_apply, registers]
  have leftKey :
      (((control :: behind).filterMap ControlMessage.key).getLast?).elim widget.key (fun key =>
        underscored (if key = [] then widget.name else key)) =
          underscored (control.lastKey behind) := by
    rw [ControlMessage.lastKey, sameName, sameKey]
    cases ((control :: behind).filterMap ControlMessage.key).getLast? <;> rfl
  rw [builtWidget, describedWidget, made, Option.map_some, Option.map_some, Option.some.injEq,
    Widget.foldl_touched, registrations, leftKey, Widget.mk.injEq]
  constructor
  · rintro ⟨-, -, key, once⟩
    exact ⟨key, once⟩
  · rintro ⟨key, once⟩
    exact ⟨rfl, rfl, key, once⟩

/-- The widgets from the one that is worked on to the end. -/
def settled (current : Widget F) : List (ControlMessage F) → List (Widget F)
  | [] => [current]
  | control :: rest =>
      match newWidget arith control with
      | some widget => current :: settled (widget.touched count control) rest
      | none => settled (current.touched count control) rest

theorem modify_append_length {α : Type} (front back : List α) (item : α) (f : α → α) :
    (front ++ item :: back).modify front.length f = front ++ f item :: back := by
  induction front with
  | nil => rfl
  | cons first rest ih => exact congrArg (first :: ·) ih

theorem Receiving.change_add (state : Receiving F) (widget : Widget F)
    (f : Widget F → Widget F) :
    (state.add widget).change f = some (state.add (f widget)) := by
  simp only [change, add, Option.map_some]
  rw [modify_append_length]

/-- A round on the last control changes nothing but it. -/
theorem Receiving.touch_add (state : Receiving F) (widget : Widget F)
    (control : ControlMessage F) :
    ((match control.key with
      | some key => (state.add widget).change (Widget.setKey key)
      | none => some (state.add widget)).bind (Receiving.change (Widget.addListener count))) =
        some (state.add (widget.touched count control)) := by
  cases hasKey : control.key with
  | none =>
      rw [Option.bind_some, change_add, Widget.touched, hasKey]
      rfl
  | some key =>
      dsimp only
      rw [change_add, Option.bind_some, change_add, Widget.touched, hasKey]
      rfl

/-- A description with a widget of its own adds it. -/
theorem recvControl_of_some {control : ControlMessage F} {widget : Widget F}
    (made : newWidget arith control = some widget) (state : Receiving F) :
    recvControl arith count state control = some (state.add (widget.touched count control)) := by
  simp only [recvControl, made]
  exact state.touch_add count widget control

/-- A description without one works on the last widget. -/
theorem recvControl_of_none {control : ControlMessage F}
    (noWidget : newWidget arith control = none) (state : Receiving F) (widget : Widget F) :
    recvControl arith count (state.add widget) control =
      some (state.add (widget.touched count control)) := by
  simp only [recvControl, noWidget]
  exact state.touch_add count widget control

/-- Behind a widget the loop never goes wrong. -/
theorem run_add (controls : List (ControlMessage F)) (state : Receiving F)
    (current : Widget F) :
    ∃ final, run (recvControl arith count) (state.add current) controls = some final ∧
      final.controls = state.controls ++ settled arith count current controls := by
  induction controls generalizing state current with
  | nil => exact ⟨state.add current, rfl, rfl⟩
  | cons control rest ih =>
      cases made : newWidget arith control with
      | none =>
          obtain ⟨final, reached, listed⟩ := ih state (current.touched count control)
          refine ⟨final, ?_, ?_⟩
          · rw [run_cons, recvControl_of_none arith count made, Option.bind_some]
            exact reached
          · rw [listed, settled, made]
      | some widget =>
          obtain ⟨final, reached, listed⟩ :=
            ih (state.add current) (widget.touched count control)
          refine ⟨final, ?_, ?_⟩
          · rw [run_cons, recvControl_of_some arith count made, Option.bind_some]
            exact reached
          · rw [listed, settled, made, Receiving.add, List.append_assoc, List.singleton_append]

theorem behind_cons_of_none {control : ControlMessage F}
    (noWidget : newWidget arith control = none) (rest : List (ControlMessage F)) :
    behind (control :: rest) = control :: behind rest := by
  have unsupported : control.isUnsupported = true := by
    rw [ControlMessage.isUnsupported, ← isSome_newWidget arith, noWidget]
    rfl
  exact List.takeWhile_cons_of_pos unsupported

theorem behind_cons_of_some {control : ControlMessage F} {widget : Widget F}
    (made : newWidget arith control = some widget) (rest : List (ControlMessage F)) :
    behind (control :: rest) = [] := by
  have supported : ¬ control.isUnsupported = true := by
    rw [ControlMessage.isUnsupported, ← isSome_newWidget arith, made]
    exact Bool.false_ne_true
  exact List.takeWhile_cons_of_neg supported

/-- Every description with a widget of its own gets it as described. -/
def BuildsDescribed (controls : List (ControlMessage F)) : Prop :=
  ∀ control rest, control :: rest <:+ controls → control.getValueType.isSupported = true →
    builtWidget arith count control (behind rest) = describedWidget arith control

theorem buildsDescribed_cons_of_none {control : ControlMessage F}
    (noWidget : newWidget arith control = none) (rest : List (ControlMessage F)) :
    BuildsDescribed arith count (control :: rest) ↔ BuildsDescribed arith count rest := by
  constructor
  · exact fun builds other later suffix => builds other later (suffix.trans (rest.suffix_cons _))
  · intro builds other later suffix supported
    rcases List.suffix_cons_iff.mp suffix with same | inRest
    · cases same
      rw [← isSome_newWidget arith, noWidget] at supported
      exact absurd supported Bool.false_ne_true
    · exact builds other later inRest supported

theorem buildsDescribed_cons_of_some {control : ControlMessage F} {widget : Widget F}
    (made : newWidget arith control = some widget) (rest : List (ControlMessage F)) :
    BuildsDescribed arith count (control :: rest) ↔
      builtWidget arith count control (behind rest) = describedWidget arith control ∧
        BuildsDescribed arith count rest := by
  have supported : control.getValueType.isSupported = true := by
    rw [← isSome_newWidget arith, made]
    rfl
  constructor
  · intro builds
    exact ⟨builds control rest List.suffix_rfl supported,
      fun other later suffix => builds other later (suffix.trans (rest.suffix_cons _))⟩
  · rintro ⟨first, builds⟩ other later suffix otherSupported
    rcases List.suffix_cons_iff.mp suffix with same | inRest
    · cases same
      exact first
    · exact builds other later inRest otherSupported

/-- The loop ends with a certain widget followed by the described ones exactly if
the rounds up to the next one make that widget and every later one is as
described. -/
theorem settled_eq_iff (controls : List (ControlMessage F)) (current target : Widget F) :
    settled arith count current controls =
        target :: controls.filterMap (describedWidget arith) ↔
      (behind controls).foldl (Widget.touched count) current = target ∧
        BuildsDescribed arith count controls := by
  induction controls generalizing current target with
  | nil =>
      have none : BuildsDescribed arith count ([] : List (ControlMessage F)) := by
        intro control rest suffix
        exact absurd (List.suffix_nil.mp suffix) (List.cons_ne_nil control rest)
      rw [settled, List.filterMap_nil, List.cons.injEq, and_iff_left rfl]
      exact (and_iff_left none).symm
  | cons control rest ih =>
      cases made : newWidget arith control with
      | none =>
          have undescribed : describedWidget arith control = none := by
            rw [describedWidget, made, Option.map_none]
          rw [settled, made, List.filterMap_cons_none undescribed,
            behind_cons_of_none arith made, List.foldl_cons,
            buildsDescribed_cons_of_none arith count made]
          exact ih (current.touched count control) target
      | some widget =>
          obtain ⟨described, isDescribed⟩ :
              ∃ described, describedWidget arith control = some described := by
            rw [describedWidget, made]
            exact ⟨_, rfl⟩
          rw [settled, made, List.filterMap_cons_some isDescribed, List.cons.injEq,
            ih (widget.touched count control) described, behind_cons_of_some arith made,
            buildsDescribed_cons_of_some arith count made, builtWidget, made, Option.map_some,
            List.foldl_cons, isDescribed, Option.some.injEq, List.foldl_nil]

/-- The loop goes wrong at a first description without a widget. -/
theorem run_titled_of_none (gui : GuiMessage F) {control : ControlMessage F}
    (noWidget : newWidget arith control = none) (rest : List (ControlMessage F)) :
    run (recvControl arith count) (titled gui) (control :: rest) = none := by
  have nowhere : recvControl arith count (titled gui) control = none := by
    simp only [recvControl, noWidget]
    cases control.key <;> rfl
  rw [run_cons, nowhere, Option.bind_none]

/-- The whole loop yields the described widgets exactly if the first description
has a widget and each widget is as described. -/
theorem run_titled_iff (gui : GuiMessage F) :
    (∃ final, run (recvControl arith count) (titled gui) gui.controls = some final ∧
        final.controls = describedControls arith gui) ↔
      (∀ control ∈ gui.controls.head?, control.getValueType.isSupported = true) ∧
        BuildsDescribed arith count gui.controls := by
  rw [describedControls]
  cases gui.controls with
  | nil =>
      apply iff_of_true ⟨titled gui, rfl, rfl⟩
      exact ⟨fun control mem => absurd mem (Option.not_mem_none control),
        fun control rest suffix =>
          absurd (List.suffix_nil.mp suffix) (List.cons_ne_nil control rest)⟩
  | cons control rest =>
      have head : (∀ first ∈ (control :: rest).head?,
          first.getValueType.isSupported = true) ↔ (newWidget arith control).isSome = true := by
        simp [isSome_newWidget]
      cases made : newWidget arith control with
      | none =>
          rw [run_titled_of_none arith count gui made, head, made]
          simp
      | some widget =>
          obtain ⟨final, reached, listed⟩ :=
            run_add arith count rest (titled gui) (widget.touched count control)
          have whole :
              run (recvControl arith count) (titled gui) (control :: rest) = some final := by
            rw [run_cons, recvControl_of_some arith count made, Option.bind_some]
            exact reached
          obtain ⟨described, isDescribed⟩ :
              ∃ described, describedWidget arith control = some described := by
            rw [describedWidget, made]
            exact ⟨_, rfl⟩
          rw [head, made, and_iff_right Option.isSome_some,
            buildsDescribed_cons_of_some arith count made, builtWidget, made, Option.map_some,
            List.foldl_cons, isDescribed, Option.some.injEq, ← settled_eq_iff,
            List.filterMap_cons_some isDescribed, whole]
          constructor
          · rintro ⟨other, same, asDescribed⟩
            cases same
            rw [listed] at asDescribed
            exact (List.cons.inj asDescribed).2
          · intro asDescribed
            refine ⟨final, rfl, ?_⟩
            rw [listed, asDescribed]
            rfl

end Loop

/-- An initialised message yields the page that it describes exactly if its first
description has a widget, and no widget is harmed by the descriptions behind it.
To register for the first time is to be registered once. -/
theorem recv_eq_described_iff (arith : FloatArith F) (count : ListenerCount)
    (registers : count.add 0 = 1) (gui : GuiMessage F) (initialized : gui.isInitialized = true) :
    recv arith count gui = some (some (describedControls arith gui)) ↔
      (∀ control ∈ gui.controls.head?, control.getValueType.isSupported = true) ∧
        ∀ control rest, control :: rest <:+ gui.controls →
          control.getValueType.isSupported = true → control.Unharmed count (behind rest) := by
  have guarded : (!gui.isInitialized) = false := by rw [initialized]; rfl
  have harmless : BuildsDescribed arith count gui.controls ↔
      ∀ control rest, control :: rest <:+ gui.controls →
        control.getValueType.isSupported = true → control.Unharmed count (behind rest) :=
    forall₄_congr fun control rest _ supported =>
      builtWidget_eq_iff arith count registers supported (behind rest)
  rw [recv, guarded, if_neg Bool.false_ne_true, ← harmless, ← run_titled_iff arith count gui,
    Option.map_eq_some_iff]
  exact exists_congr fun final => and_congr_right' Option.some_inj

/-- A number with a key, and bytes with another. -/
def numberThenBytes : GuiMessage (Option Rat) :=
  { name := some (ascii "page")
    key := some (ascii "page")
    controls :=
      [{ name := some (ascii "level"), key := some (ascii "/level"), valueType := some .int32,
         min := some (some 0), max := some (some 10) },
       { name := some (ascii "image"), key := some (ascii "/image"), valueType := some .bytes,
         min := none, max := none }] }

/-- The bytes have no widget, and the number gets their key, whether or not it is
registered twice. -/
theorem numberThenBytes_ne_described :
    recv .rational .plain numberThenBytes ≠
        some (some (describedControls .rational numberThenBytes)) ∧
      recv .rational .single numberThenBytes ≠
        some (some (describedControls .rational numberThenBytes)) := by
  decide +kernel

/-- A number with a key, and a switch with nothing but a name. -/
def numberThenSwitch : GuiMessage (Option Rat) :=
  { numberThenBytes with
    controls := numberThenBytes.controls.take 1 ++
      [{ name := some (ascii "show all"), key := none, valueType := some .bool,
         min := none, max := none }] }

/-- Both get their widgets under their own keys. -/
theorem numberThenSwitch_eq_described :
    recv .rational .plain numberThenSwitch =
      some (some (describedControls .rational numberThenSwitch)) := by
  apply (recv_eq_described_iff .rational .plain rfl numberThenSwitch (by decide +kernel)).mpr
  refine ⟨by decide +kernel, ?_⟩
  intro control rest suffix supported
  rcases List.suffix_cons_iff.mp suffix with same | suffix
  · cases same
    exact ⟨by decide +kernel, rfl⟩
  · rcases List.suffix_cons_iff.mp suffix with same | suffix
    · cases same
      exact ⟨by decide +kernel, rfl⟩
    · exact absurd (List.suffix_nil.mp suffix) (List.cons_ne_nil control rest)

end OfxPrimes.Gui
