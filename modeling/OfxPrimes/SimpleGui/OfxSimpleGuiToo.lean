import OfxPrimes.SimpleGui.Controls

/-!
# The GUI, its settings and its listeners

`ofxSimpleGuiToo` owns the pages, saves their controls and its own options to a
settings file and loads them again, and registers for the events of the
application while it draws.  `ofxXmlSettings` is not part of this repository:
`XmlSettings` lists the operations that are used of it.
-/

namespace OfxPrimes.SimpleGui

open OfxPrimes.Fiducial

variable {F D : Type}

/-- The operations of `ofxXmlSettings`, on documents of type `D`.  `getValue` reads
a value as the type of the variable it is assigned to. -/
structure XmlSettings (F D : Type) where
  clear : D → D
  addTag : Text → D → D
  pushTag : Text → D → D
  popTag : D → D
  /-- `addValue(const string& tag, const string& value)` -/
  addText : Text → Text → D → D
  /-- `addValue(const string& tag, value)` for a value that is not a string -/
  addValue : Text → (type : VarType) → Carrier F type → D → D
  /-- `getValue(const string& tag, defaultValue)` -/
  getValue : D → Text → (type : VarType) → Carrier F type → Carrier F type

/-! ## Saving and loading a control -/

/-- `"controls:" + controlType + "_" + key + ":" + field`. -/
def Base.path (base : Base F) (field : Text) : Text :=
  ascii "controls:" ++ base.tag ++ ascii ":" ++ field

/-- `0.0f` as a value of the type, and `0` as a `bool`. -/
def zero (arith : FloatArith F) (type : VarType) : Carrier F type :=
  ofFloat arith type (arith.ofInt 0)

namespace Control

/-- The fields of the base class. -/
def base : Control F → Base F
  | .slider self => self.base
  | .button self => self.base
  | .slider2d self => self.base

/-- The variables a control is bound to, each under the name it is saved under. -/
def cells : Control F → List (Text × Variable)
  | .slider self => [(ascii "value", self.cell)]
  | .button self => [(ascii "value", self.cell)]
  | .slider2d self => [(ascii "valueX", self.xCell), (ascii "valueY", self.yCell)]

/-- `saveToXML` of all kinds of controls. -/
def saveToXML (xml : XmlSettings F D) (memory : Memory F) (document : D) (control : Control F) :
    D :=
  let tag := control.base.tag
  let opened := xml.pushTag tag (xml.addTag tag document)
  let named := xml.addText (ascii "name") control.base.name opened
  let valued := control.cells.foldl (fun doc cell =>
    xml.addValue cell.1 cell.2.type (memory cell.2) doc) named
  xml.popTag valued

/-- `loadFromXML`: the control and the memory after the call. -/
def loadFromXML (arith : FloatArith F) (xml : XmlSettings F D) (document : D)
    (control : Control F) (memory : Memory F) : Control F × Memory F :=
  match control with
  | .slider self =>
      let f := xml.getValue document (self.base.path (ascii "value")) self.type
        (zero arith self.type)
      let loaded := self.set arith f memory
      (.slider loaded.1, loaded.2)
  | .button self =>
      let b : Bool := xml.getValue document (self.base.path (ascii "value")) .bool
        (zero arith .bool)
      let loaded := self.set b memory
      (.button loaded.1, loaded.2)
  | .slider2d self =>
      let x : F := xml.getValue document (self.base.path (ascii "valueX")) .float
        (zero arith .float)
      let y : F := xml.getValue document (self.base.path (ascii "valueY")) .float
        (zero arith .float)
      (.slider2d self, self.set x y memory)

end Control

/-- `loadFromXML` of the controls of a page, one after the other. -/
def loadControls (arith : FloatArith F) (xml : XmlSettings F D) (document : D) :
    List (Control F) → Memory F → List (Control F) × Memory F
  | [], memory => ([], memory)
  | control :: rest, memory =>
      let loaded := control.loadFromXML arith xml document memory
      let later := loadControls arith xml document rest loaded.2
      (loaded.1 :: later.1, later.2)

/-- `loadFromXML` of some pages, one after the other. -/
def loadPages (arith : FloatArith F) (xml : XmlSettings F D) (document : D) :
    List (List (Control F)) → Memory F → List (List (Control F)) × Memory F
  | [], memory => ([], memory)
  | page :: rest, memory =>
      let loaded := loadControls arith xml document page memory
      let later := loadPages arith xml document rest loaded.2
      (loaded.1 :: later.1, later.2)

/-! ## `ofxSimpleGuiToo` -/

/-- The events the GUI registers for. -/
inductive ListenedEvent
  | update
  | mousePressed
  | mouseMoved
  | mouseDragged
  | mouseReleased
  | keyPressed
  | keyReleased
  deriving DecidableEq, Repr

/-- `class ofxSimpleGuiToo`, with the number of times it is registered for each
event and the memory its controls are bound to. -/
structure OfxSimpleGuiToo (F D : Type) where
  doDraw : Bool
  doAutoSave : Bool
  doSave : Bool
  currentPage : Int
  pages : List (List (Control F))
  document : D
  listeners : ListenedEvent → Nat
  memory : Memory F

/-- `ofAddListener` and `ofRemoveListener`, on the number of registrations. -/
structure ListenerCount where
  add : Nat → Nat
  remove : Nat → Nat

/-- Every registration counts, and every removal takes one back. -/
def ListenerCount.plain : ListenerCount where
  add n := n + 1
  remove n := n - 1

/-- What is registered is not registered again. -/
def ListenerCount.single : ListenerCount where
  add _ := 1
  remove _ := 0

namespace OfxSimpleGuiToo

/-- The pages that are saved and loaded: neither the header nor the footer. -/
def savedPages (gui : OfxSimpleGuiToo F D) : List (List (Control F)) :=
  gui.pages.drop 2

/-- The controls that are saved and loaded. -/
def savedControls (gui : OfxSimpleGuiToo F D) : List (Control F) :=
  gui.savedPages.flatten

/-- `addListeners()`. -/
def addListeners (count : ListenerCount) (gui : OfxSimpleGuiToo F D) : OfxSimpleGuiToo F D :=
  { gui with listeners := fun event => count.add (gui.listeners event) }

/-- `removeListeners()`. -/
def removeListeners (count : ListenerCount) (gui : OfxSimpleGuiToo F D) :
    OfxSimpleGuiToo F D :=
  { gui with listeners := fun event => count.remove (gui.listeners event) }

/-- The part of `saveToXML` that writes the options. -/
def saveOptions (xml : XmlSettings F D) (gui : OfxSimpleGuiToo F D) (document : D) : D :=
  let opened := xml.pushTag (ascii "options") (xml.addTag (ascii "options") document)
  let withDraw := xml.addValue (ascii "doDraw") .bool gui.doDraw opened
  let withAutoSave := xml.addValue (ascii "doAutoSave") .bool gui.doAutoSave withDraw
  let withPage := xml.addValue (ascii "currentPage") .int gui.currentPage withAutoSave
  xml.popTag withPage

/-- The part of `saveToXML` that writes the controls. -/
def savePages (xml : XmlSettings F D) (gui : OfxSimpleGuiToo F D) (document : D) : D :=
  let opened := xml.pushTag (ascii "controls") (xml.addTag (ascii "controls") document)
  let controls := gui.savedPages.foldl (fun document page =>
    page.foldl (Control.saveToXML xml gui.memory) document) opened
  xml.popTag controls

/-- `saveToXML(string file)`: what is written to the file is `document` after the
call. -/
def saveToXML (xml : XmlSettings F D) (gui : OfxSimpleGuiToo F D) : OfxSimpleGuiToo F D :=
  { gui with
    doSave := false
    document := gui.savePages xml (gui.saveOptions xml (xml.clear gui.document)) }

/-- `setDraw(bool b)`. -/
def setDraw (xml : XmlSettings F D) (count : ListenerCount) (b : Bool)
    (gui : OfxSimpleGuiToo F D) : OfxSimpleGuiToo F D :=
  if gui.doDraw ≠ b then
    let drawn := { gui with doDraw := b }
    let registered := if b then drawn.addListeners count else drawn.removeListeners count
    if registered.doAutoSave then registered.saveToXML xml else registered
  else gui

/-- Nothing happens when `doDraw` already is the given value. -/
theorem setDraw_doDraw (xml : XmlSettings F D) (count : ListenerCount)
    (gui : OfxSimpleGuiToo F D) : gui.setDraw xml count gui.doDraw = gui :=
  if_neg (not_not.mpr rfl)

/-- `toggleDraw()`. -/
def toggleDraw (xml : XmlSettings F D) (count : ListenerCount) (gui : OfxSimpleGuiToo F D) :
    OfxSimpleGuiToo F D :=
  gui.setDraw xml count !gui.doDraw

/-- `setPage(int i)`.  The comparison with `pages.size()` is one of unsigned
numbers, so a negative page is past the end. -/
def setPage (i : Int) (gui : OfxSimpleGuiToo F D) : OfxSimpleGuiToo F D :=
  let size : Int := gui.pages.length
  { gui with
    currentPage :=
      if i < 0 ∨ size ≤ i then 2
      else if i < 2 then size - 1
      else i }

/-- `nextPageWithBlank()`. -/
def nextPageWithBlank (xml : XmlSettings F D) (count : ListenerCount)
    (gui : OfxSimpleGuiToo F D) : OfxSimpleGuiToo F D :=
  if gui.doDraw then
    let turned := gui.setPage (gui.currentPage + 1)
    if turned.currentPage = 2 then turned.setDraw xml count false else turned
  else (gui.setDraw xml count true).setPage 2

/-- The value of `options:doDraw` in a settings file. -/
def drawOption (xml : XmlSettings F D) (document : D) : Bool :=
  xml.getValue document (ascii "options:doDraw") .bool true

/-- The part of `loadFromXML` that reads the options and the controls. -/
def readSettings (arith : FloatArith F) (xml : XmlSettings F D) (document : D)
    (gui : OfxSimpleGuiToo F D) : OfxSimpleGuiToo F D :=
  let controls := loadPages arith xml document gui.savedPages gui.memory
  { gui with
    doDraw := drawOption xml document
    doAutoSave := xml.getValue document (ascii "options:doAutoSave") .bool false
    currentPage := (xml.getValue document (ascii "options:currentPage") .int 2 : Int)
    pages := gui.pages.take 2 ++ controls.1
    document := document
    memory := controls.2 }

/-- `loadFromXML(string file)`, where `XML.loadFile` yields the given document, or
none if it fails. -/
def loadFromXML (arith : FloatArith F) (xml : XmlSettings F D) (count : ListenerCount)
    (loaded : Option D) (gui : OfxSimpleGuiToo F D) : OfxSimpleGuiToo F D :=
  match loaded with
  | none => gui
  | some document =>
      let restored := gui.readSettings arith xml document
      (restored.setPage restored.currentPage).setDraw xml count restored.doDraw

/-- The last call of `loadFromXML` does nothing: `doDraw` already has the value. -/
theorem loadFromXML_some (arith : FloatArith F) (xml : XmlSettings F D) (count : ListenerCount)
    (document : D) (gui : OfxSimpleGuiToo F D) :
    gui.loadFromXML arith xml count (some document) =
      (gui.readSettings arith xml document).setPage
        (gui.readSettings arith xml document).currentPage :=
  setDraw_doDraw xml count
    ((gui.readSettings arith xml document).setPage
      (gui.readSettings arith xml document).currentPage)

end OfxSimpleGuiToo

end OfxPrimes.SimpleGui
