import Mathlib.Logic.Relation
import OfxPrimes.SimpleGui.Settings

/-!
# Loading what was saved

A slider or a button takes over a loaded value only if it differs from
`oldValue`, the last value it wrote itself.  So a variable that was written
around its controls is not put back when `oldValue` already is the saved value.
-/

namespace OfxPrimes.SimpleGui

open OfxPrimes.Fiducial

variable {F D : Type}

/-- Two values are the same, or equal for the code. -/
def Same (arith : FloatArith F) (type : VarType) (a b : Carrier F type) : Prop :=
  a = b ∨ differ arith type a b = false

/-- The value of the variable of a slider. -/
def Slider.held (self : Slider F) (memory : Memory F) : Carrier F self.type :=
  memory self.cell

/-- The value of the variable of a button. -/
def Button.held (self : Button F) (memory : Memory F) : Bool :=
  memory self.cell

namespace Control

/-- The variables a control is bound to. -/
def bound (control : Control F) : List Variable :=
  control.cells.map Prod.snd

/-- The control takes over the values of its variables in `saved`: these differ
from the last value it wrote. -/
def takesOver (arith : FloatArith F) (saved : Memory F) : Control F → Bool
  | .slider self => differ arith self.type self.oldValue (self.held saved)
  | .button self => decide (self.oldValue ≠ self.held saved)
  | .slider2d _ => true

/-- The step of a slider with smoothing from the value in `saved` to that same
value ends at the value. -/
def Settles (arith : FloatArith F) (saved : Memory F) : Control F → Prop
  | .slider self => self.bLerpValue = true →
      Same arith self.type
        (lerp arith self.type (self.held saved) (self.held saved) self.lerpSpeed)
        (self.held saved)
  | .button _ => True
  | .slider2d _ => True

/-- What a control writes when it takes over the values in `saved`. -/
def leaves (arith : FloatArith F) (saved : Memory F) : Control F → Memory F
  | .slider self =>
      if self.bLerpValue then
        Function.update saved self.cell
          (lerp arith self.type (self.held saved) (self.held saved) self.lerpSpeed)
      else saved
  | .button _ => saved
  | .slider2d _ => saved

variable {arith : FloatArith F} {saved : Memory F}

theorem mem_bound_slider {self : Slider F} {cell : Variable} :
    cell ∈ (Control.slider self).bound ↔ cell = self.cell :=
  List.mem_singleton

theorem mem_bound_button {self : Button F} {cell : Variable} :
    cell ∈ (Control.button self).bound ↔ cell = self.cell :=
  List.mem_singleton

theorem mem_bound_slider2d {self : Slider2d F} {cell : Variable} :
    cell ∈ (Control.slider2d self).bound ↔ cell = self.xCell ∨ cell = self.yCell :=
  List.mem_pair

/-- What a control leaves in its variables are the saved values, if it settles. -/
theorem same_leaves_iff {control : Control F} {cell : Variable} (isBound : cell ∈ control.bound) :
    Same arith cell.type (control.leaves arith saved cell) (saved cell) ↔
      control.Settles arith saved := by
  cases control with
  | slider self =>
      rcases mem_bound_slider.mp isBound with rfl
      by_cases smooth : self.bLerpValue = true
      · rw [leaves, if_pos smooth, Function.update_self, Settles]
        exact ⟨fun same _ => same, fun settles => settles smooth⟩
      · rw [leaves, if_neg smooth]
        exact iff_of_true (Or.inl rfl) fun lerps => absurd lerps smooth
  | button self => exact iff_of_true (Or.inl rfl) trivial
  | slider2d self => exact iff_of_true (Or.inl rfl) trivial

end Control

/-! ## Loading the controls -/

section Loading

variable (arith : FloatArith F) {xml : XmlSettings F D} (laws : StoresByPath xml)
variable {saved : Memory F} {document : D}

/-- The last of some controls that is bound to a variable and takes over the saved
values. -/
def lastWriter (saved : Memory F) (controls : List (Control F)) (cell : Variable) :
    Option (Control F) :=
  (controls.filter fun control =>
    decide (cell ∈ control.bound) && control.takesOver arith saved).getLast?

variable {arith}

theorem slider_set_memory (self : Slider F) (memory : Memory F) (cell : Variable) :
    (self.set arith (self.held saved) memory).2 cell =
      if cell ∈ (Control.slider self).bound ∧
          (Control.slider self).takesOver arith saved = true then
        (Control.slider self).leaves arith saved cell
      else memory cell := by
  by_cases takes : differ arith self.type self.oldValue (self.held saved) = true
  · rw [Slider.set, if_pos takes]
    dsimp only
    by_cases here : cell = self.cell
    · have writes : cell ∈ (Control.slider self).bound ∧
          (Control.slider self).takesOver arith saved = true :=
        ⟨Control.mem_bound_slider.mpr here, takes⟩
      rw [if_pos writes, here, Function.update_self, Function.update_self, Control.leaves]
      by_cases smooth : self.bLerpValue = true
      · rw [if_pos smooth, if_pos smooth, Function.update_self]
      · rw [if_neg smooth, if_neg smooth, Slider.held]
    · have keeps : ¬ (cell ∈ (Control.slider self).bound ∧
          (Control.slider self).takesOver arith saved = true) :=
        fun both => here (Control.mem_bound_slider.mp both.1)
      rw [if_neg keeps, Function.update_of_ne here, Function.update_of_ne here]
  · rw [Slider.set, if_neg takes, if_neg fun both => takes both.2]

theorem button_set_memory (self : Button F) (memory : Memory F) (cell : Variable) :
    (self.set (self.held saved) memory).2 cell =
      if cell ∈ (Control.button self).bound ∧
          (Control.button self).takesOver arith saved = true then
        (Control.button self).leaves arith saved cell
      else memory cell := by
  by_cases takes : self.oldValue ≠ self.held saved
  · rw [Button.set, if_pos takes]
    dsimp only
    by_cases here : cell = self.cell
    · rw [if_pos ⟨Control.mem_bound_button.mpr here, decide_eq_true takes⟩, here]
      exact Function.update_self ..
    · rw [if_neg fun both => here (Control.mem_bound_button.mp both.1),
        Function.update_of_ne here]
  · rw [Button.set, if_neg takes, if_neg fun both => takes (of_decide_eq_true both.2)]

theorem slider2d_set_memory (self : Slider2d F) (memory : Memory F) (cell : Variable) :
    self.set (saved self.xCell) (saved self.yCell) memory cell =
      if cell ∈ (Control.slider2d self).bound ∧
          (Control.slider2d self).takesOver arith saved = true then
        (Control.slider2d self).leaves arith saved cell
      else memory cell := by
  rw [Slider2d.set]
  by_cases isY : cell = self.yCell
  · rw [if_pos ⟨Control.mem_bound_slider2d.mpr (Or.inr isY), rfl⟩, isY]
    exact Function.update_self ..
  · rw [Function.update_of_ne isY]
    by_cases isX : cell = self.xCell
    · rw [if_pos ⟨Control.mem_bound_slider2d.mpr (Or.inl isX), rfl⟩, isX]
      exact Function.update_self ..
    · rw [Function.update_of_ne isX, if_neg fun both =>
        (Control.mem_bound_slider2d.mp both.1).elim isX isY]

/-- Loading a control writes what it leaves to its variables, if it takes the saved
values over. -/
theorem loadFromXML_memory {controls : List (Control F)}
    (holds : Holds laws saved controls document) {control : Control F}
    (mem : control ∈ controls) (tagFree : colon ∉ control.base.tag) (memory : Memory F)
    (cell : Variable) :
    (control.loadFromXML arith xml document memory).2 cell =
      if cell ∈ control.bound ∧ control.takesOver arith saved = true then
        control.leaves arith saved cell
      else memory cell := by
  have valueFree : colon ∉ ascii "value" := by decide
  have valueXFree : colon ∉ ascii "valueX" := by decide
  have valueYFree : colon ∉ ascii "valueY" := by decide
  cases control with
  | slider self =>
      have value : xml.getValue document (self.base.path (ascii "value")) self.type
          (zero arith self.type) = self.held saved :=
        getValue_of_holds laws saved holds mem tagFree
          (List.mem_singleton_self (ascii "value", self.cell)) valueFree _
      rw [Control.loadFromXML, value]
      exact slider_set_memory self memory cell
  | button self =>
      have value : xml.getValue document (self.base.path (ascii "value")) .bool
          (zero arith .bool) = self.held saved :=
        getValue_of_holds laws saved holds mem tagFree
          (List.mem_singleton_self (ascii "value", self.cell)) valueFree _
      rw [Control.loadFromXML, value]
      exact button_set_memory self memory cell
  | slider2d self =>
      have x : xml.getValue document (self.base.path (ascii "valueX")) .float
          (zero arith .float) = saved self.xCell :=
        getValue_of_holds laws saved holds mem tagFree
          (List.mem_cons_self : (ascii "valueX", self.xCell) ∈ (Control.slider2d self).cells)
          valueXFree _
      have y : xml.getValue document (self.base.path (ascii "valueY")) .float
          (zero arith .float) = saved self.yCell :=
        getValue_of_holds laws saved holds mem tagFree
          (List.mem_cons_of_mem _ (List.mem_singleton_self (ascii "valueY", self.yCell)))
          valueYFree _
      rw [Control.loadFromXML, x, y]
      exact slider2d_set_memory self memory cell

/-- Loading controls leaves in a variable what the last of them that is bound to it
and takes the saved values over leaves there. -/
theorem loadControls_memory {controls : List (Control F)}
    (holds : Holds laws saved controls document)
    (tagsFree : ∀ control ∈ controls, colon ∉ control.base.tag) (cell : Variable)
    {loaded : List (Control F)} (listed : ∀ control ∈ loaded, control ∈ controls)
    (memory : Memory F) :
    (loadControls arith xml document loaded memory).2 cell =
      (lastWriter arith saved loaded cell).elim (memory cell) fun control =>
        control.leaves arith saved cell := by
  induction loaded generalizing memory with
  | nil => rfl
  | cons control rest ih =>
      have mem := listed control List.mem_cons_self
      rw [loadControls, ih fun later laterMem => listed later (List.mem_cons_of_mem _ laterMem),
        loadFromXML_memory laws holds mem (tagsFree control mem)]
      by_cases writes : cell ∈ control.bound ∧ control.takesOver arith saved = true
      · have kept : (decide (cell ∈ control.bound) && control.takesOver arith saved) = true := by
          simpa using writes
        simp only [if_pos writes, lastWriter, List.filter_cons, kept, if_true, List.getLast?_cons]
        cases (rest.filter fun control =>
          decide (cell ∈ control.bound) && control.takesOver arith saved).getLast? <;> rfl
      · have dropped : ¬ (decide (cell ∈ control.bound) &&
            control.takesOver arith saved) = true := by
          simpa using writes
        simp only [if_neg writes, lastWriter, List.filter_cons, if_neg dropped]

variable (arith xml document) in
theorem loadPages_memory (pages : List (List (Control F))) (memory : Memory F) :
    (loadPages arith xml document pages memory).2 =
      (loadControls arith xml document pages.flatten memory).2 := by
  have append : ∀ (first second : List (Control F)) (memory : Memory F),
      (loadControls arith xml document (first ++ second) memory).2 =
        (loadControls arith xml document second
          (loadControls arith xml document first memory).2).2 := by
    intro first second
    induction first with
    | nil => exact fun _ => rfl
    | cons control rest ih => exact fun _ => ih _
  induction pages generalizing memory with
  | nil => rfl
  | cons page rest ih =>
      rw [loadPages, List.flatten_cons, append]
      exact ih _

end Loading

/-! ## What happens between saving and loading -/

/-- What stays the same of a control: its tag and the variables it is bound to. -/
def Control.layout (control : Control F) : Text × List (Text × Variable) :=
  (control.base.tag, control.cells)

/-- What stays the same of the pages. -/
def OfxSimpleGuiToo.layout (gui : OfxSimpleGuiToo F D) :
    List (List (Text × List (Text × Variable))) :=
  gui.pages.map fun page => page.map Control.layout

section Histories

variable (arith : FloatArith F) (ofMap : F → F → F → F → F → F)

/-- What the user, the program and the drawing code do with one control. -/
inductive Interacts : Control F → Memory F → Control F → Memory F → Prop
  | sliderSet (self : Slider F) (f : Carrier F self.type) (memory : Memory F) :
      Interacts (.slider self) memory (.slider (self.set arith f memory).1)
        (self.set arith f memory).2
  | sliderAdd (self : Slider F) (memory : Memory F) :
      Interacts (.slider self) memory (.slider (self.add arith ofMap memory).1)
        (self.add arith ofMap memory).2
  | sliderSub (self : Slider F) (memory : Memory F) :
      Interacts (.slider self) memory (.slider (self.sub arith ofMap memory).1)
        (self.sub arith ofMap memory).2
  | updateSlider (mouseX : F) (self : Slider F) (memory : Memory F) :
      Interacts (.slider self) memory (.slider (self.updateSlider arith ofMap mouseX memory).1)
        (self.updateSlider arith ofMap mouseX memory).2
  | sliderUpdate (mouseX : F) (self : Slider F) (memory : Memory F) :
      Interacts (.slider self) memory (.slider (self.update arith ofMap mouseX memory).1)
        (self.update arith ofMap mouseX memory).2
  | buttonSet (self : Button F) (b : Bool) (memory : Memory F) :
      Interacts (.button self) memory (.button (self.set b memory).1) (self.set b memory).2
  | buttonToggle (self : Button F) (memory : Memory F) :
      Interacts (.button self) memory (.button (self.toggle memory).1) (self.toggle memory).2
  | buttonPress (self : Button F) (memory : Memory F) :
      Interacts (.button self) memory (.button (self.onPress memory).1) (self.onPress memory).2
  | buttonRelease (self : Button F) (memory : Memory F) :
      Interacts (.button self) memory (.button (self.onRelease memory).1)
        (self.onRelease memory).2
  | slider2dSet (self : Slider2d F) (x y : F) (memory : Memory F) :
      Interacts (.slider2d self) memory (.slider2d self) (self.set x y memory)
  | slider2dPress (self : Slider2d F) (x y : F) (memory : Memory F) :
      Interacts (.slider2d self) memory (.slider2d (self.onPress x y)) memory
  | slider2dDrag (self : Slider2d F) (x y : F) (memory : Memory F) :
      Interacts (.slider2d self) memory (.slider2d (self.onDrag x y)) memory
  | slider2dUpdate (self : Slider2d F) (memory : Memory F) :
      Interacts (.slider2d self) memory (.slider2d (self.update arith ofMap memory).1)
        (self.update arith ofMap memory).2
  -- drawing and the mouse move, resize, enable and lock controls
  | sliderBase (self : Slider F) (base : Base F) (sameTag : base.tag = self.base.tag)
      (memory : Memory F) :
      Interacts (.slider self) memory (.slider { self with base := base }) memory
  | buttonBase (self : Button F) (base : Base F) (sameTag : base.tag = self.base.tag)
      (memory : Memory F) :
      Interacts (.button self) memory (.button { self with base := base }) memory
  | slider2dBase (self : Slider2d F) (base : Base F) (sameTag : base.tag = self.base.tag)
      (memory : Memory F) :
      Interacts (.slider2d self) memory (.slider2d { self with base := base }) memory

/-- What happens to a GUI between saving and loading. -/
inductive Event : OfxSimpleGuiToo F D → OfxSimpleGuiToo F D → Prop
  /-- The program assigns a value to a variable. -/
  | assign (gui : OfxSimpleGuiToo F D) (cell : Variable) (value : Carrier F cell.type) :
      Event gui { gui with memory := Function.update gui.memory cell value }
  /-- Something is done with one of the controls. -/
  | interact (gui : OfxSimpleGuiToo F D) (pagesBefore pagesAfter : List (List (Control F)))
      (controlsBefore controlsAfter : List (Control F)) (control changed : Control F)
      (memory : Memory F)
      (isAt : gui.pages =
        pagesBefore ++ (controlsBefore ++ control :: controlsAfter) :: pagesAfter)
      (interacts : Interacts arith ofMap control gui.memory changed memory) :
      Event gui { gui with
        pages := pagesBefore ++ (controlsBefore ++ changed :: controlsAfter) :: pagesAfter
        memory := memory }
  /-- A page is turned, the GUI is shown or hidden, a file is saved. -/
  | turn (gui turned : OfxSimpleGuiToo F D) (samePages : turned.pages = gui.pages)
      (sameMemory : turned.memory = gui.memory) : Event gui turned

variable {arith ofMap}

theorem slider_base_layout {self : Slider F} (base : Base F) (sameTag : base.tag = self.base.tag) :
    (Control.slider { self with base := base }).layout = (Control.slider self).layout :=
  congrArg (·, (Control.slider self).cells) sameTag

theorem slider_set_layout (self : Slider F) (f : Carrier F self.type) (memory : Memory F) :
    (Control.slider (self.set arith f memory).1).layout = (Control.slider self).layout := by
  rw [Slider.set]
  split <;> rfl

theorem slider_moveTo_layout (pct : F) (self : Slider F) (memory : Memory F) :
    (Control.slider (self.moveTo arith ofMap pct memory).1).layout =
      (Control.slider self).layout :=
  slider_set_layout { self with pct := pct } _ memory

theorem slider_updateSlider_layout (mouseX : F) (self : Slider F) (memory : Memory F) :
    (Control.slider (self.updateSlider arith ofMap mouseX memory).1).layout =
      (Control.slider self).layout := by
  rw [Slider.updateSlider]
  split
  · rfl
  · split
    · rfl
    · exact slider_moveTo_layout _ self memory

theorem slider_update_layout (mouseX : F) (self : Slider F) (memory : Memory F) :
    (Control.slider (self.update arith ofMap mouseX memory).1).layout =
      (Control.slider self).layout := by
  rw [Slider.update]
  split
  · rfl
  · apply (slider_base_layout _ rfl).trans
    split
    · exact slider_updateSlider_layout mouseX self memory
    · rfl

theorem button_set_layout (self : Button F) (b : Bool) (memory : Memory F) :
    (Control.button (self.set b memory).1).layout = (Control.button self).layout := by
  rw [Button.set]
  split <;> rfl

/-- Whatever is done with a control, it keeps its tag and its variables. -/
theorem interacts_layout {control changed : Control F} {memory memory' : Memory F}
    (interacts : Interacts arith ofMap control memory changed memory') :
    changed.layout = control.layout := by
  cases interacts with
  | sliderSet self f => exact slider_set_layout self f memory
  | sliderAdd self => exact slider_moveTo_layout _ self memory
  | sliderSub self => exact slider_moveTo_layout _ self memory
  | updateSlider mouseX self => exact slider_updateSlider_layout mouseX self memory
  | sliderUpdate mouseX self => exact slider_update_layout mouseX self memory
  | buttonSet self b => exact button_set_layout self b memory
  | buttonToggle => rfl
  | buttonPress self =>
      rw [Button.onPress]
      split
      · exact button_set_layout self true memory
      · rfl
  | buttonRelease self =>
      rw [Button.onRelease]
      split
      · exact button_set_layout self false memory
      · rfl
  | slider2dSet => rfl
  | slider2dPress => rfl
  | slider2dDrag self x y =>
      rw [Slider2d.onDrag]
      split <;> rfl
  | slider2dUpdate self =>
      rw [Slider2d.update]
      split <;> rfl
  | sliderBase self base sameTag => exact slider_base_layout base sameTag
  | buttonBase self base sameTag => exact congrArg (·, (Control.button self).cells) sameTag
  | slider2dBase self base sameTag => exact congrArg (·, (Control.slider2d self).cells) sameTag

theorem event_layout {gui changed : OfxSimpleGuiToo F D}
    (event : Event arith ofMap gui changed) : changed.layout = gui.layout := by
  cases event with
  | assign => rfl
  | interact pagesBefore pagesAfter controlsBefore controlsAfter control other memory isAt
      interacts =>
      simp only [OfxSimpleGuiToo.layout, isAt, List.map_append, List.map_cons,
        interacts_layout interacts]
  | turn turned samePages => rw [OfxSimpleGuiToo.layout, samePages, OfxSimpleGuiToo.layout]

/-- Nothing that happens between saving and loading changes tags or bindings. -/
theorem history_layout {before after : OfxSimpleGuiToo F D}
    (history : Relation.ReflTransGen (Event arith ofMap) before after) :
    after.layout = before.layout := by
  induction history with
  | refl => rfl
  | tail _ event ih => rw [event_layout event, ih]

end Histories

/-! ## Loading after a history -/

/-- Controls with the same tags and variables find the same values in a document. -/
theorem Holds.of_layout {xml : XmlSettings F D} {laws : StoresByPath xml} {memory : Memory F}
    {controls others : List (Control F)} {document : D}
    (holds : Holds laws memory controls document)
    (sameLayout : others.map Control.layout = controls.map Control.layout) :
    Holds laws memory others document := by
  refine ⟨holds.pushed, fun other mem cell cellMem => ?_⟩
  have listed : other.layout ∈ controls.map Control.layout :=
    sameLayout ▸ List.mem_map_of_mem mem
  rcases List.mem_map.mp listed with ⟨control, controlMem, same⟩
  rcases Prod.mk.inj same with ⟨sameTag, sameCells⟩
  rw [← sameTag]
  exact holds.stored control controlMem cell (sameCells ▸ cellMem)

/-- A GUI with the same layout saves and loads controls with the same tags and
variables. -/
theorem savedControls_layout {gui other : OfxSimpleGuiToo F D} (same : other.layout = gui.layout) :
    other.savedControls.map Control.layout = gui.savedControls.map Control.layout := by
  have flat : ∀ some : OfxSimpleGuiToo F D,
      some.savedControls.map Control.layout = (some.layout.drop 2).flatten := by
    intro some
    rw [OfxSimpleGuiToo.savedControls, OfxSimpleGuiToo.savedPages, OfxSimpleGuiToo.layout,
      List.map_flatten, List.map_drop]
  rw [flat, flat, same]

/-- A settings file that can be read is loaded into the controls. -/
theorem loadFromXML_memory_eq (arith : FloatArith F) (xml : XmlSettings F D)
    (count : ListenerCount) (document : D) (gui : OfxSimpleGuiToo F D) :
    (gui.loadFromXML arith xml count (some document)).memory =
      (loadControls arith xml document gui.savedControls gui.memory).2 := by
  rw [OfxSimpleGuiToo.savedControls, ← loadPages_memory, OfxSimpleGuiToo.loadFromXML_some]
  rfl

/-- Loading puts a variable back: the last control that is bound to it and takes
the saved value over settles there, or none does and the variable still has that
value. -/
def Restorable (arith : FloatArith F) (saved : Memory F) (gui : OfxSimpleGuiToo F D)
    (cell : Variable) : Prop :=
  (lastWriter arith saved gui.savedControls cell).elim
    (Same arith cell.type (gui.memory cell) (saved cell)) (Control.Settles arith saved)

/-- Every variable that one of the controls is bound to has its saved value. -/
def Restored (arith : FloatArith F) (saved : Memory F) (controls : List (Control F))
    (memory : Memory F) : Prop :=
  ∀ control ∈ controls, ∀ cell ∈ control.bound,
    Same arith cell.type (memory cell) (saved cell)

/-- The last writer of a variable is bound to it. -/
theorem mem_bound_of_lastWriter {arith : FloatArith F} {saved : Memory F}
    {controls : List (Control F)} {cell : Variable} {control : Control F}
    (isLast : lastWriter arith saved controls cell = some control) : cell ∈ control.bound := by
  have kept := (List.mem_filter.mp (List.mem_of_getLast? isLast)).2
  exact of_decide_eq_true (Bool.and_eq_true_iff.mp kept).1

/-- `ofMap` on rational numbers. -/
def rationalMap (value inputMin inputMax outputMin outputMax : Option Rat) : Option Rat :=
  let arith := FloatArith.rational
  let part := arith.div (arith.sub value inputMin) (arith.sub inputMax inputMin)
  arith.add outputMin (arith.mul part (arith.sub outputMax outputMin))

/-- A variable of type `int`. -/
def level : Variable :=
  ⟨.int, 0⟩

/-- The memory in which it has a given value and all other variables are zero. -/
def levelIs (value : Int) : Memory (Option Rat) :=
  let zeros : Memory (Option Rat) := fun cell => zero FloatArith.rational cell.type
  Function.update zeros level value

/-- A slider from 0 to 10 for the variable, made while its value is 5. -/
def levelSlider : Slider (Option Rat) :=
  let base : Base (Option Rat) :=
    { name := ascii "level"
      key := ascii "level"
      controlType := ascii "SliderInt"
      x := some 0
      y := some 0
      width := some 100
      height := some 20
      enabled := true
      lock := false }
  let min : Int := 0
  let max : Int := 10
  Slider.construct FloatArith.rational base .int 0 min max (some 0) (some 50) (levelIs 5)

/-- The GUI that has this slider on its first page. -/
def levelGui : OfxSimpleGuiToo (Option Rat) (PathDocument (Option Rat)) where
  doDraw := true
  doAutoSave := false
  doSave := false
  currentPage := 2
  pages := [[], [], [.slider levelSlider]]
  document := ⟨[], [], []⟩
  listeners := fun _ => 1
  memory := levelIs 5

/-- The GUI after its settings are saved. -/
def levelSaved : OfxSimpleGuiToo (Option Rat) (PathDocument (Option Rat)) :=
  levelGui.saveToXML PathDocument.settings

/-- The program assigns 7 to the variable after the settings are saved with 5. -/
def levelAssigned : OfxSimpleGuiToo (Option Rat) (PathDocument (Option Rat)) :=
  { levelSaved with memory := Function.update levelSaved.memory level (7 : Int) }

/-- The user moves the slider to 7 after the settings are saved with 5. -/
def levelMoved : OfxSimpleGuiToo (Option Rat) (PathDocument (Option Rat)) :=
  { levelSaved with
    pages := [[], [], [.slider (levelSlider.set FloatArith.rational (7 : Int) (levelIs 5)).1]]
    memory := (levelSlider.set FloatArith.rational (7 : Int) (levelIs 5)).2 }

end OfxPrimes.SimpleGui
