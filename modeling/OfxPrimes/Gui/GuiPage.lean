import OfxPrimes.Gui.InteractiveObject
import OfxPrimes.Physics.Routines
import OfxPrimes.Platform

/-!
# Pages that lie on a fiducial

A `GuiPage` is drawn at the pose of its fiducial: at a position, turned by an
angle, shifted by an offset and scaled.  `relocateMouseEvent` leads a mouse event
from the window to the coordinates of the page before the page and its controls
handle it.  A drag of a `Content` control shifts the offset.
-/

namespace OfxPrimes.Gui

open OfxPrimes.Fiducial
open OfxPrimes.Physics

variable {F : Type}

/-- A control of a page, with its type. -/
structure PageControl (F : Type) where
  controlType : Text
  object : InteractiveObject F
  deriving DecidableEq, Repr

/-- `class GuiPage`. -/
structure GuiPage (F : Type) where
  object : InteractiveObject F
  angle : F
  scale : F
  offset : Point F
  saveX : F
  saveY : F
  controls : List (PageControl F)
  deriving DecidableEq, Repr

/-- A call that changes the matrix under which is drawn. -/
inductive Transform (F : Type)
  | translatef (x y : F)
  | rotatef (degrees : F)
  | scalef (x y : F)
  deriving DecidableEq, Repr

namespace Transform

/-- Where a point goes under a call. -/
def apply (arith : FloatArith F) (point : Point F) : Transform F → Point F
  | .translatef x y => ⟨arith.add x point.x, arith.add y point.y⟩
  | .rotatef degrees =>
      let angle := arith.div (arith.mul degrees arith.pi) (arith.ofInt 180)
      let cosine := arith.cos angle
      let sine := arith.sin angle
      ⟨arith.sub (arith.mul point.x cosine) (arith.mul point.y sine),
        arith.add (arith.mul point.x sine) (arith.mul point.y cosine)⟩
  | .scalef x y => ⟨arith.mul x point.x, arith.mul y point.y⟩

/-- Where a point goes under a sequence of calls.  The last is applied first. -/
def applyAll (arith : FloatArith F) (calls : List (Transform F)) (point : Point F) : Point F :=
  calls.foldr (fun call moved => call.apply arith moved) point

end Transform

namespace GuiPage

/-- `ofRadToDeg`. -/
def radToDeg (arith : FloatArith F) (radians : F) : F :=
  arith.div (arith.mul radians (arith.ofInt 180)) arith.pi

/-- `GuiPage::draw`: the calls before the page is drawn at the origin, or none when
nothing is drawn. -/
def draw (arith : FloatArith F) (page : GuiPage F) : Option (List (Transform F)) :=
  let rect := page.object.rect
  if !page.object.enabled then none
  else if arith.eq rect.x arith.invalidCoords && arith.eq rect.y arith.invalidCoords then none
  else
    some
      [.translatef rect.x rect.y, .rotatef (radToDeg arith page.angle),
        .translatef page.offset.x page.offset.y, .scalef page.scale page.scale]

/-- `GuiPage::hitTest`. -/
def hitTest (arith : MouseArith F) : HitTest F := fun rect tx ty =>
  arith.lt rect.x tx && arith.lt tx (arith.add rect.x rect.width) &&
    arith.lt rect.y ty && arith.lt ty (arith.add rect.y rect.height)

variable (arith : MouseArith F) (math : VectorMath F)

/-- `GuiPage::relocateMouseEvent`. -/
def relocateMouseEvent (page : GuiPage F) (e : MouseEventArgs F) : MouseEventArgs F :=
  let rect := page.object.rect
  let minusAngle := arith.mul (arith.ofInt (-1)) page.angle
  let new := math.rotateRad ⟨e.x, e.y⟩ minusAngle ⟨rect.x, rect.y⟩
  { e with
    x := arith.div (arith.sub (arith.sub new.x rect.x) page.offset.x) page.scale
    y := arith.div (arith.sub (arith.sub new.y rect.y) page.offset.y) page.scale }

/-- `for (int i=0; i<controls.size(); i++)`: a handler of every control. -/
def forControls (handler : HitTest F → InteractiveObject F → InteractiveObject F)
    (page : GuiPage F) : List (PageControl F) :=
  page.controls.map fun control =>
    { control with object := handler (InteractiveObject.hitTest arith) control.object }

/-- Whether a `Content` control is down. -/
def draggable (page : GuiPage F) : Bool :=
  page.controls.any fun control =>
    decide (control.controlType = ascii "Content") && control.object.mouseDown

/-- `GuiPage::_mouseMoved`. -/
def mouseMoved (page : GuiPage F) (e : MouseEventArgs F) : GuiPage F :=
  let copy := page.relocateMouseEvent arith math e
  { page with
    object := page.object.mouseMoved arith (hitTest arith) copy
    controls := page.forControls arith fun hitTest object => object.mouseMoved arith hitTest copy }

/-- `GuiPage::_mousePressed`. -/
def mousePressed (page : GuiPage F) (e : MouseEventArgs F) : GuiPage F :=
  let copy := page.relocateMouseEvent arith math e
  let page :=
    { page with
      object := page.object.mousePressed arith (hitTest arith) copy
      controls := page.forControls arith fun hitTest object =>
        object.mousePressed arith hitTest copy }
  if page.draggable then { page with saveX := arith.toInt copy.x, saveY := arith.toInt copy.y }
  else page

/-- `GuiPage::_mouseDragged`. -/
def mouseDragged (page : GuiPage F) (e : MouseEventArgs F) : GuiPage F :=
  let copy := page.relocateMouseEvent arith math e
  let page :=
    { page with
      object := page.object.mouseDragged arith (hitTest arith) copy
      controls := page.forControls arith fun hitTest object =>
        object.mouseDragged arith hitTest copy }
  if page.draggable then
    { page with
      offset :=
        ⟨arith.add page.offset.x (arith.sub copy.x page.saveX),
          arith.add page.offset.y (arith.sub copy.y page.saveY)⟩ }
  else page

/-- `GuiPage::_mouseReleased`. -/
def mouseReleased (page : GuiPage F) (e : MouseEventArgs F) : GuiPage F :=
  let copy := page.relocateMouseEvent arith math e
  { page with
    object := page.object.mouseReleased arith (hitTest arith) copy
    controls := page.forControls arith fun hitTest object =>
      object.mouseReleased arith hitTest copy }

end GuiPage

end OfxPrimes.Gui
