import OfxPrimes.Fiducial.Scalar
import OfxPrimes.Platform
import Mathlib.Logic.Function.Basic

/-!
# Controls and the variables they are bound to

A control holds a pointer to a variable of the program, which the program and
other controls can write as well.  Sliders and buttons also remember in
`oldValue` the last value they wrote themselves.  A variable is a type and an
address, and the memory holds a value of that type for each.
-/

namespace OfxPrimes.SimpleGui

open OfxPrimes.Fiducial

variable {F : Type}

/-- The types a control can be bound to. -/
inductive VarType
  | int
  | byte
  | float
  | double
  | bool
  deriving DecidableEq, Repr

/-- The values of a type. -/
abbrev Carrier (F : Type) : VarType → Type
  | .int => Int
  | .byte => UInt8
  | .float => F
  | .double => F
  | .bool => Bool

/-- A variable of the program. -/
structure Variable where
  type : VarType
  address : Nat
  deriving DecidableEq, Repr

/-- The values of all variables. -/
abbrev Memory (F : Type) : Type :=
  (cell : Variable) → Carrier F cell.type

section Values

variable (arith : FloatArith F)

/-- `a != b`. -/
def differ : (type : VarType) → Carrier F type → Carrier F type → Bool
  | .int, a, b => decide (a ≠ b)
  | .byte, a, b => decide (a ≠ b)
  | .float, a, b => !arith.eq a b
  | .double, a, b => !arith.eq a b
  | .bool, a, b => decide (a ≠ b)

/-- `(float) a`. -/
def toFloat : (type : VarType) → Carrier F type → F
  | .int, a => arith.ofInt a
  | .byte, a => arith.ofInt a.toNat
  | .float, a => a
  | .double, a => a
  | .bool, a => arith.ofInt a.toNat

/-- `(int) x`. -/
def truncate (x : F) : Int :=
  if arith.lt x (arith.ofInt 0) then arith.ceil x else arith.floor x

/-- `(Type) x`. -/
def ofFloat : (type : VarType) → F → Carrier F type
  | .int, x => truncate arith x
  | .byte, x => UInt8.ofInt (truncate arith x)
  | .float, x => x
  | .double, x => x
  | .bool, x => !arith.eq x (arith.ofInt 0)

/-- `a - b`, where the result is multiplied with a `float`. -/
def difference : (type : VarType) → Carrier F type → Carrier F type → F
  | .int, a, b => arith.ofInt (a - b)
  | .byte, a, b => arith.ofInt ((a.toNat : Int) - b.toNat)
  | .float, a, b => arith.sub a b
  | .double, a, b => arith.sub a b
  | .bool, a, b => arith.ofInt ((a.toNat : Int) - b.toNat)

/-- `a + b`, stored in a variable of the type. -/
def plus : (type : VarType) → Carrier F type → Carrier F type → Carrier F type
  | .int, a, b => (a : Int) + b
  | .byte, a, b => (a : UInt8) + b
  | .float, a, b => arith.add a b
  | .double, a, b => arith.add a b
  | .bool, a, b => a || b

/-- `value + (Type)((f - value) * lerpSpeed)`. -/
def lerp (type : VarType) (f value : Carrier F type) (lerpSpeed : F) : Carrier F type :=
  plus arith type value
    (ofFloat arith type (arith.mul (difference arith type f value) lerpSpeed))

end Values

/-- The fields of `ofxSimpleGuiControl` that loading, saving and the mouse use. -/
structure Base (F : Type) where
  name : Text
  key : Text
  controlType : Text
  x : F
  y : F
  width : F
  height : F
  enabled : Bool
  lock : Bool

/-- `controlType + "_" + key`. -/
def Base.tag (base : Base F) : Text :=
  base.controlType ++ ascii "_" ++ base.key

/-! ## Sliders -/

/-- `class ofxSimpleGuiSliderBase<Type>`. -/
structure Slider (F : Type) where
  base : Base F
  type : VarType
  address : Nat
  min : Carrier F type
  max : Carrier F type
  pct : F
  lerpSpeed : F
  bLerpValue : Bool
  oldValue : Carrier F type

namespace Slider

/-- The variable that `value` points to. -/
abbrev cell (self : Slider F) : Variable :=
  ⟨self.type, self.address⟩

variable (arith : FloatArith F)

/-- `ofxSimpleGuiSliderBase(string name, Type &value, Type min, Type max, float smoothing)`. -/
def construct (base : Base F) (type : VarType) (address : Nat) (min max : Carrier F type)
    (smoothing pct : F) (memory : Memory F) : Slider F :=
  { base := base
    type := type
    address := address
    min := min
    max := max
    pct := pct
    lerpSpeed := arith.sub (arith.ofInt 1)
      (arith.mul smoothing (arith.div (arith.ofInt 99) (arith.ofInt 100)))
    bLerpValue := !arith.eq smoothing (arith.ofInt 0)
    oldValue := memory ⟨type, address⟩ }

/-- `set(Type f)`: the slider and the memory after the call. -/
def set (self : Slider F) (f : Carrier F self.type) (memory : Memory F) :
    Slider F × Memory F :=
  if differ arith self.type self.oldValue f then
    let assigned : Memory F := Function.update memory self.cell f
    let value : Carrier F self.type :=
      if self.bLerpValue then lerp arith self.type f (assigned self.cell) self.lerpSpeed else f
    ({ self with oldValue := value }, Function.update assigned self.cell value)
  else (self, memory)

/-- The value a slider takes at the relative position `pct`, as a `float`. -/
def valueAt (ofMap : F → F → F → F → F → F) (self : Slider F) : F :=
  let min := toFloat arith self.type self.min
  let max := toFloat arith self.type self.max
  let temp := ofMap self.pct (arith.ofInt 0) self.base.width min max
  if arith.le max temp then max
  else if arith.le temp min then min
  else temp

/-- The common part of `add()` and `sub()`: go to a new relative position. -/
def moveTo (ofMap : F → F → F → F → F → F) (pct : F) (self : Slider F) (memory : Memory F) :
    Slider F × Memory F :=
  let moved := { self with pct := pct }
  moved.set arith (ofFloat arith self.type (moved.valueAt arith ofMap)) memory

/-- `add()`. -/
def add (ofMap : F → F → F → F → F → F) (self : Slider F) (memory : Memory F) :
    Slider F × Memory F :=
  let step := arith.div (arith.ofInt 1) (arith.ofInt 20)
  self.moveTo arith ofMap (arith.add self.pct step) memory

/-- `sub()`. -/
def sub (ofMap : F → F → F → F → F → F) (self : Slider F) (memory : Memory F) :
    Slider F × Memory F :=
  let step := arith.div (arith.ofInt 1) (arith.ofInt 20)
  self.moveTo arith ofMap (arith.sub self.pct step) memory

/-- `updateSlider()` with the mouse at `mouseX`. -/
def updateSlider (ofMap : F → F → F → F → F → F) (mouseX : F) (self : Slider F)
    (memory : Memory F) : Slider F × Memory F :=
  if !self.base.enabled then (self, memory)
  else if arith.lt self.base.width self.pct then ({ self with pct := self.base.width }, memory)
  else self.moveTo arith ofMap (arith.sub mouseX self.base.x) memory

/-- `update()` with the mouse at `mouseX`. -/
def update (ofMap : F → F → F → F → F → F) (mouseX : F) (self : Slider F) (memory : Memory F) :
    Slider F × Memory F :=
  if !self.base.enabled then (self, memory)
  else
    let updated :=
      if self.base.lock then self.updateSlider arith ofMap mouseX memory else (self, memory)
    ({ updated.1 with base := { updated.1.base with enabled := false } }, updated.2)

end Slider

/-! ## Buttons and toggles -/

/-- `class ofxSimpleGuiButton`, and `ofxSimpleGuiToggle`, which is not momentary. -/
structure Button (F : Type) where
  base : Base F
  address : Nat
  oldValue : Bool
  momentary : Bool

namespace Button

/-- The variable that `value` points to. -/
abbrev cell (self : Button F) : Variable :=
  ⟨.bool, self.address⟩

/-- `set(bool b)`. -/
def set (self : Button F) (b : Bool) (memory : Memory F) : Button F × Memory F :=
  if self.oldValue ≠ b then
    ({ self with oldValue := b }, Function.update memory self.cell b)
  else (self, memory)

/-- `toggle()`. -/
def toggle (self : Button F) (memory : Memory F) : Button F × Memory F :=
  let value : Bool := memory self.cell
  ({ self with oldValue := !value }, Function.update memory self.cell !value)

/-- `onPress(int x, int y, int button)`. -/
def onPress (self : Button F) (memory : Memory F) : Button F × Memory F :=
  if self.momentary then self.set true memory else self.toggle memory

/-- `onRelease(int x, int y, int button)`. -/
def onRelease (self : Button F) (memory : Memory F) : Button F × Memory F :=
  if self.momentary then self.set false memory else (self, memory)

end Button

/-! ## Two-dimensional sliders -/

/-- `class ofxSimpleGuiSlider2d`.  The two coordinates of its `ofPoint` are two
variables. -/
structure Slider2d (F : Type) where
  base : Base F
  xAddress : Nat
  yAddress : Nat
  point : Point F
  min : Point F
  max : Point F
  textHeight : F

namespace Slider2d

/-- The variable `value->x`. -/
abbrev xCell (self : Slider2d F) : Variable :=
  ⟨.float, self.xAddress⟩

/-- The variable `value->y`. -/
abbrev yCell (self : Slider2d F) : Variable :=
  ⟨.float, self.yAddress⟩

/-- `set(float x, float y)`. -/
def set (self : Slider2d F) (x y : F) (memory : Memory F) : Memory F :=
  Function.update (Function.update memory self.xCell x) self.yCell y

/-- `onPress(int x, int y, int button)`. -/
def onPress (self : Slider2d F) (x y : F) : Slider2d F :=
  { self with
    base := { self.base with lock := true }
    point := ⟨x, y⟩ }

/-- `onDragOver(int x, int y, int button)` and `onDragOutside`. -/
def onDrag (self : Slider2d F) (x y : F) : Slider2d F :=
  if self.base.lock then { self with point := ⟨x, y⟩ } else self

/-- A coordinate of `point`, put back between two bounds. -/
def confine (arith : FloatArith F) (value lower upper : F) : F :=
  if arith.lt upper value then upper
  else if arith.lt value lower then lower
  else value

/-- `update()`. -/
def update (arith : FloatArith F) (ofMap : F → F → F → F → F → F) (self : Slider2d F)
    (memory : Memory F) : Slider2d F × Memory F :=
  let right := arith.add self.base.x self.base.width
  let bottom := arith.sub (arith.add self.base.y self.base.height) self.textHeight
  let point : Point F :=
    { x := confine arith self.point.x self.base.x right
      y := confine arith self.point.y self.base.y bottom }
  let confined := { self with point := point }
  if self.base.lock then
    (confined, confined.set (ofMap point.x self.base.x right self.min.x self.max.x)
      (ofMap point.y self.base.y bottom self.min.y self.max.y) memory)
  else (confined, memory)

end Slider2d

/-- A control of a page. -/
inductive Control (F : Type)
  | slider (slider : Slider F)
  | button (button : Button F)
  | slider2d (slider2d : Slider2d F)

end OfxPrimes.SimpleGui
