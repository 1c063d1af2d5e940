import Mathlib.Data.List.Nodup
import OfxPrimes.SimpleGui.OfxSimpleGuiToo

/-!
# What a settings file holds

`StoresByPath` is what the GUI relies on of `ofxXmlSettings`: a value is stored
under the tags that are pushed and its own name, and is read back by that path,
split at its colons.  Then, while no two controls share a tag, a saved file
holds under each control's tag the values of its variables.
-/

namespace OfxPrimes.SimpleGui

open OfxPrimes.Fiducial

variable {F D : Type}

/-- The separator of the tags in a path. -/
def colon : UInt8 :=
  58

/-- A path, split at its colons. -/
def tokens : Text → List Text
  | [] => [[]]
  | byte :: rest =>
      if byte = colon then [] :: tokens rest
      else
        match tokens rest with
        | [] => [[byte]]
        | first :: later => (byte :: first) :: later

theorem tokens_of_not_mem {text : Text} (noColon : colon ∉ text) : tokens text = [text] := by
  induction text with
  | nil => rfl
  | cons byte rest ih =>
      rcases not_or.mp (List.mem_cons.not.mp noColon) with ⟨apart, restFree⟩
      rw [tokens, if_neg (Ne.symm apart), ih restFree]

theorem tokens_append {front : Text} (noColon : colon ∉ front) (rest : Text) :
    tokens (front ++ colon :: rest) = front :: tokens rest := by
  induction front with
  | nil => rw [List.nil_append, tokens, if_pos rfl]
  | cons byte front ih =>
      rcases not_or.mp (List.mem_cons.not.mp noColon) with ⟨apart, frontFree⟩
      rw [List.cons_append, tokens, if_neg (Ne.symm apart), ih frontFree]

/-- A stored value. -/
abbrev Stored (F : Type) : Type :=
  (type : VarType) × Carrier F type

/-- What the GUI relies on of `ofxXmlSettings`. -/
structure StoresByPath (xml : XmlSettings F D) where
  /-- The tags that are pushed. -/
  pushed : D → List Text
  /-- The values of the document, by their paths. -/
  stored : D → List Text → Option (Stored F)
  pushed_clear : ∀ document, pushed (xml.clear document) = []
  stored_clear : ∀ document path, stored (xml.clear document) path = none
  pushed_addTag : ∀ tag document, pushed (xml.addTag tag document) = pushed document
  stored_addTag : ∀ tag document, stored (xml.addTag tag document) = stored document
  pushed_pushTag : ∀ tag document, pushed (xml.pushTag tag document) = pushed document ++ [tag]
  stored_pushTag : ∀ tag document, stored (xml.pushTag tag document) = stored document
  pushed_popTag : ∀ document, pushed (xml.popTag document) = (pushed document).dropLast
  stored_popTag : ∀ document, stored (xml.popTag document) = stored document
  pushed_addText : ∀ tag text document, pushed (xml.addText tag text document) = pushed document
  stored_addText : ∀ tag text document path, path ≠ pushed document ++ [tag] →
    stored (xml.addText tag text document) path = stored document path
  pushed_addValue : ∀ tag type value document,
    pushed (xml.addValue tag type value document) = pushed document
  stored_addValue_self : ∀ tag type value document,
    stored document (pushed document ++ [tag]) = none →
      stored (xml.addValue tag type value document) (pushed document ++ [tag]) =
        some ⟨type, value⟩
  stored_addValue_of_ne : ∀ tag type value document path, path ≠ pushed document ++ [tag] →
    stored (xml.addValue tag type value document) path = stored document path
  getValue_of_stored : ∀ document path type value default, pushed document = [] →
    stored document (tokens path) = some ⟨type, value⟩ →
      xml.getValue document path type default = value

/-! ## The values of one control -/

section Saving

variable {xml : XmlSettings F D} (laws : StoresByPath xml) (memory : Memory F)

/-- A tag that is added and pushed stands behind the tags pushed before. -/
theorem pushed_opened (tag : Text) (document : D) :
    laws.pushed (xml.pushTag tag (xml.addTag tag document)) = laws.pushed document ++ [tag] := by
  rw [laws.pushed_pushTag, laws.pushed_addTag]

theorem stored_opened (tag : Text) (document : D) :
    laws.stored (xml.pushTag tag (xml.addTag tag document)) = laws.stored document := by
  rw [laws.stored_pushTag, laws.stored_addTag]

/-- The values of some variables are stored under their names. -/
theorem foldl_addValue {cells : List (Text × Variable)} (distinct : (cells.map Prod.fst).Nodup)
    {document : D}
    (fresh : ∀ cell ∈ cells, laws.stored document (laws.pushed document ++ [cell.1]) = none) :
    let added := cells.foldl (fun doc cell =>
      xml.addValue cell.1 cell.2.type (memory cell.2) doc) document
    laws.pushed added = laws.pushed document ∧
      (∀ cell ∈ cells, laws.stored added (laws.pushed document ++ [cell.1]) =
        some ⟨cell.2.type, memory cell.2⟩) ∧
      ∀ path, (∀ cell ∈ cells, path ≠ laws.pushed document ++ [cell.1]) →
        laws.stored added path = laws.stored document path := by
  induction cells generalizing document with
  | nil => exact ⟨rfl, fun _ mem => absurd mem List.not_mem_nil, fun _ _ => rfl⟩
  | cons cell rest ih =>
      rcases List.nodup_cons.mp distinct with ⟨newName, restDistinct⟩
      have others : ∀ other ∈ rest,
          laws.pushed document ++ [other.1] ≠ laws.pushed document ++ [cell.1] := by
        intro other mem same
        have sameName : other.1 = cell.1 := by simpa using List.append_cancel_left same
        exact newName (sameName ▸ List.mem_map_of_mem mem)
      have pushedNow := laws.pushed_addValue cell.1 cell.2.type (memory cell.2) document
      have restFresh : ∀ other ∈ rest,
          laws.stored (xml.addValue cell.1 cell.2.type (memory cell.2) document)
            (laws.pushed (xml.addValue cell.1 cell.2.type (memory cell.2) document) ++
              [other.1]) = none := by
        intro other mem
        rw [pushedNow, laws.stored_addValue_of_ne _ _ _ _ _ (others other mem)]
        exact fresh other (List.mem_cons_of_mem _ mem)
      rcases ih restDistinct restFresh with ⟨pushedLater, storedLater, kept⟩
      rw [pushedNow] at pushedLater storedLater kept
      refine ⟨pushedLater, ?_, ?_⟩
      · intro other mem
        rcases List.mem_cons.mp mem with rfl | inRest
        · rw [List.foldl_cons, kept _ fun later laterMem => Ne.symm (others later laterMem)]
          exact laws.stored_addValue_self _ _ _ _ (fresh other List.mem_cons_self)
        · exact storedLater other inRest
      · intro path apart
        rw [List.foldl_cons, kept path fun later mem => apart later (List.mem_cons_of_mem _ mem)]
        exact laws.stored_addValue_of_ne _ _ _ _ _ (apart cell List.mem_cons_self)

/-- The names of the variables of a control differ from one another and from
`name`. -/
theorem cells_names (control : Control F) :
    (control.cells.map Prod.fst).Nodup ∧ ascii "name" ∉ control.cells.map Prod.fst := by
  have single : ascii "name" ∉ [ascii "value"] := by decide
  have pair : [ascii "valueX", ascii "valueY"].Nodup ∧
      ascii "name" ∉ [ascii "valueX", ascii "valueY"] := by decide
  cases control with
  | slider self => exact ⟨List.nodup_singleton _, single⟩
  | button self => exact ⟨List.nodup_singleton _, single⟩
  | slider2d self => exact pair

/-- Before its values, a control writes its name below its tag. -/
theorem named_frame (control : Control F) (document : D) :
    let named := xml.addText (ascii "name") control.base.name
      (xml.pushTag control.base.tag (xml.addTag control.base.tag document))
    laws.pushed named = laws.pushed document ++ [control.base.tag] ∧
      ∀ path, path ≠ laws.pushed document ++ [control.base.tag, ascii "name"] →
        laws.stored named path = laws.stored document path := by
  constructor
  · rw [laws.pushed_addText, pushed_opened]
  · intro path apart
    have notName : path ≠ laws.pushed (xml.pushTag control.base.tag
        (xml.addTag control.base.tag document)) ++ [ascii "name"] := by
      rw [pushed_opened, List.append_assoc]
      exact apart
    rw [laws.stored_addText _ _ _ _ notName, stored_opened]

/-- Saving a control stores the values of its variables under its tag, and
nothing outside. -/
theorem control_saveToXML (control : Control F) {document : D}
    (fresh : ∀ name,
      laws.stored document (laws.pushed document ++ [control.base.tag, name]) = none) :
    let savedDocument := control.saveToXML xml memory document
    laws.pushed savedDocument = laws.pushed document ∧
      (∀ cell ∈ control.cells,
        laws.stored savedDocument (laws.pushed document ++ [control.base.tag, cell.1]) =
          some ⟨cell.2.type, memory cell.2⟩) ∧
      ∀ path, (∀ name, path ≠ laws.pushed document ++ [control.base.tag, name]) →
        laws.stored savedDocument path = laws.stored document path := by
  rcases cells_names control with ⟨distinct, notName⟩
  rcases named_frame laws control document with ⟨pushedNamed, storedNamed⟩
  have below : ∀ name : Text, laws.pushed document ++ [control.base.tag] ++ [name] =
      laws.pushed document ++ [control.base.tag, name] := by
    intro name
    rw [List.append_assoc, List.singleton_append]
  have freshNamed : ∀ cell ∈ control.cells, laws.stored (xml.addText (ascii "name")
      control.base.name (xml.pushTag control.base.tag (xml.addTag control.base.tag document)))
        (laws.pushed (xml.addText (ascii "name") control.base.name
          (xml.pushTag control.base.tag (xml.addTag control.base.tag document))) ++ [cell.1]) =
            none := by
    intro cell mem
    rw [pushedNamed, below, storedNamed]
    · exact fresh cell.1
    · intro same
      have isName : cell.1 = ascii "name" := by simpa using List.append_cancel_left same
      exact notName (isName ▸ List.mem_map_of_mem mem)
  rcases foldl_addValue laws memory distinct freshNamed with ⟨pushedAdded, storedAdded, kept⟩
  rw [pushedNamed] at pushedAdded storedAdded kept
  refine ⟨?_, ?_, ?_⟩
  · rw [Control.saveToXML, laws.pushed_popTag, pushedAdded, List.dropLast_concat]
  · intro cell mem
    rw [Control.saveToXML, laws.stored_popTag, ← below]
    exact storedAdded cell mem
  · intro path apart
    rw [Control.saveToXML, laws.stored_popTag, kept path fun cell _ => below cell.1 ▸ apart cell.1,
      storedNamed path (apart (ascii "name"))]

/-- Saving controls with distinct tags stores the values of all their variables. -/
theorem foldl_saveToXML {controls : List (Control F)}
    (distinct : (controls.map fun control => control.base.tag).Nodup) {document : D}
    (fresh : ∀ control ∈ controls, ∀ name,
      laws.stored document (laws.pushed document ++ [control.base.tag, name]) = none) :
    let savedDocument := controls.foldl (Control.saveToXML xml memory) document
    laws.pushed savedDocument = laws.pushed document ∧
      (∀ control ∈ controls, ∀ cell ∈ control.cells,
        laws.stored savedDocument (laws.pushed document ++ [control.base.tag, cell.1]) =
          some ⟨cell.2.type, memory cell.2⟩) ∧
      ∀ path, (∀ control ∈ controls, ∀ name,
          path ≠ laws.pushed document ++ [control.base.tag, name]) →
        laws.stored savedDocument path = laws.stored document path := by
  induction controls generalizing document with
  | nil => exact ⟨rfl, fun _ mem => absurd mem List.not_mem_nil, fun _ _ => rfl⟩
  | cons control rest ih =>
      rcases List.nodup_cons.mp distinct with ⟨newTag, restDistinct⟩
      rcases control_saveToXML laws memory control (fresh control List.mem_cons_self) with
        ⟨pushedNow, storedNow, keptNow⟩
      have others : ∀ other ∈ rest, ∀ name otherName,
          laws.pushed document ++ [other.base.tag, otherName] ≠
            laws.pushed document ++ [control.base.tag, name] := by
        intro other mem name otherName same
        have sameTag : other.base.tag = control.base.tag := by
          simpa using (List.cons.inj (List.append_cancel_left same)).1
        exact newTag (List.mem_map.mpr ⟨other, mem, sameTag⟩)
      have restFresh : ∀ other ∈ rest, ∀ name,
          laws.stored (control.saveToXML xml memory document)
            (laws.pushed (control.saveToXML xml memory document) ++ [other.base.tag, name]) =
              none := by
        intro other mem otherName
        rw [pushedNow, keptNow _ fun name => others other mem name otherName]
        exact fresh other (List.mem_cons_of_mem _ mem) otherName
      rcases ih restDistinct restFresh with ⟨pushedLater, storedLater, kept⟩
      rw [pushedNow] at pushedLater storedLater kept
      refine ⟨pushedLater, ?_, ?_⟩
      · intro other mem cell cellMem
        rcases List.mem_cons.mp mem with rfl | inRest
        · rw [List.foldl_cons, kept _ fun later laterMem name =>
            Ne.symm (others later laterMem cell.1 name)]
          exact storedNow cell cellMem
        · exact storedLater other inRest cell cellMem
      · intro path apart
        rw [List.foldl_cons,
          kept path fun later mem => apart later (List.mem_cons_of_mem _ mem),
          keptNow path (apart control List.mem_cons_self)]

/-- A document in which the variables of some controls are stored with their
values. -/
structure Holds (controls : List (Control F)) (document : D) : Prop where
  pushed : laws.pushed document = []
  stored : ∀ control ∈ controls, ∀ cell ∈ control.cells,
    laws.stored document [ascii "controls", control.base.tag, cell.1] =
      some ⟨cell.2.type, memory cell.2⟩

/-- The options are stored under a tag of their own. -/
theorem saveOptions_frame (gui : OfxSimpleGuiToo F D) {document : D}
    (isPushed : laws.pushed document = []) :
    laws.pushed (gui.saveOptions xml document) = [] ∧
      ∀ path, (∀ field, path ≠ [ascii "options", field]) →
        laws.stored (gui.saveOptions xml document) path = laws.stored document path := by
  have pushedOpened : laws.pushed (xml.pushTag (ascii "options")
      (xml.addTag (ascii "options") document)) = [ascii "options"] := by
    rw [pushed_opened, isPushed, List.nil_append]
  constructor
  · simp only [OfxSimpleGuiToo.saveOptions, laws.pushed_popTag, laws.pushed_addValue, pushedOpened]
    rfl
  · intro path apart
    have notField : ∀ field, path ≠ [ascii "options"] ++ [field] := apart
    rw [OfxSimpleGuiToo.saveOptions, laws.stored_popTag, laws.stored_addValue_of_ne,
      laws.stored_addValue_of_ne, laws.stored_addValue_of_ne, stored_opened]
    · rw [pushedOpened]
      exact notField _
    · rw [laws.pushed_addValue, pushedOpened]
      exact notField _
    · rw [laws.pushed_addValue, laws.pushed_addValue, pushedOpened]
      exact notField _

/-- A saved document holds the values of all variables of the saved controls. -/
theorem holds_saveToXML (gui : OfxSimpleGuiToo F D)
    (distinct : (gui.savedControls.map fun control => control.base.tag).Nodup) :
    Holds laws gui.memory gui.savedControls (gui.saveToXML xml).document := by
  rcases saveOptions_frame laws gui (laws.pushed_clear gui.document) with
    ⟨pushedOptions, storedOptions⟩
  have pushedOpened : laws.pushed (xml.pushTag (ascii "controls") (xml.addTag (ascii "controls")
      (gui.saveOptions xml (xml.clear gui.document)))) = [ascii "controls"] := by
    rw [pushed_opened, pushedOptions, List.nil_append]
  have fresh : ∀ control ∈ gui.savedControls, ∀ name,
      laws.stored (xml.pushTag (ascii "controls") (xml.addTag (ascii "controls")
        (gui.saveOptions xml (xml.clear gui.document))))
          (laws.pushed (xml.pushTag (ascii "controls") (xml.addTag (ascii "controls")
            (gui.saveOptions xml (xml.clear gui.document)))) ++ [control.base.tag, name]) =
              none := by
    intro control _ name
    rw [pushedOpened, stored_opened, storedOptions, laws.stored_clear]
    simp
  rcases foldl_saveToXML laws gui.memory distinct fresh with ⟨pushedSaved, storedSaved, -⟩
  rw [pushedOpened] at pushedSaved storedSaved
  have whole : (gui.saveToXML xml).document = xml.popTag (gui.savedControls.foldl
      (Control.saveToXML xml gui.memory) (xml.pushTag (ascii "controls")
        (xml.addTag (ascii "controls") (gui.saveOptions xml (xml.clear gui.document))))) := by
    rw [OfxSimpleGuiToo.saveToXML, OfxSimpleGuiToo.savePages, OfxSimpleGuiToo.savedControls,
      List.foldl_flatten]
  rw [whole]
  constructor
  · rw [laws.pushed_popTag, pushedSaved]
    rfl
  · intro control mem cell cellMem
    rw [laws.stored_popTag]
    exact storedSaved control mem cell cellMem

theorem tokens_path (base : Base F) {field : Text} (tagFree : colon ∉ base.tag)
    (fieldFree : colon ∉ field) :
    tokens (base.path field) = [ascii "controls", base.tag, field] := by
  have split : base.path field =
      ascii "controls" ++ colon :: (base.tag ++ colon :: field) := by
    have first : ascii "controls:" = ascii "controls" ++ [colon] := by decide
    have second : ascii ":" = [colon] := by decide
    rw [Base.path, first, second]
    simp
  rw [split, tokens_append (by decide), tokens_append tagFree, tokens_of_not_mem fieldFree]

/-- A control whose tag has no colon reads back what was saved. -/
theorem getValue_of_holds {controls : List (Control F)} {document : D}
    (holds : Holds laws memory controls document) {control : Control F}
    (mem : control ∈ controls) (tagFree : colon ∉ control.base.tag)
    {cell : Text × Variable} (cellMem : cell ∈ control.cells) (fieldFree : colon ∉ cell.1)
    (default : Carrier F cell.2.type) :
    xml.getValue document (control.base.path cell.1) cell.2.type default = memory cell.2 := by
  apply laws.getValue_of_stored document _ _ _ _ holds.pushed
  rw [tokens_path control.base tagFree fieldFree]
  exact holds.stored control mem cell cellMem

end Saving

/-! ## Documents as lists of values -/

/-- A document as the pushed tags, and the texts and the values with their paths. -/
structure PathDocument (F : Type) where
  pushed : List Text
  texts : List (List Text × Text)
  stored : List (List Text × Stored F)

namespace PathDocument

/-- The value at a path. -/
def lookup (document : PathDocument F) (path : List Text) : Option (Stored F) :=
  (document.stored.find? fun entry => decide (entry.1 = path)).map Prod.snd

/-- A stored value, read as a given type. -/
def readAs (type : VarType) (default : Carrier F type) (value : Stored F) : Carrier F type :=
  if same : value.1 = type then same ▸ value.2 else default

/-- The operations on such documents. -/
def settings : XmlSettings F (PathDocument F) where
  clear _ := ⟨[], [], []⟩
  addTag _ document := document
  pushTag tag document := { document with pushed := document.pushed ++ [tag] }
  popTag document := { document with pushed := document.pushed.dropLast }
  addText tag text document :=
    { document with texts := document.texts ++ [(document.pushed ++ [tag], text)] }
  addValue tag type value document :=
    { document with
      stored := document.stored ++ [(document.pushed ++ [tag], ⟨type, value⟩)] }
  getValue document path type default :=
    (document.lookup (tokens path)).elim default (readAs type default)

theorem lookup_append_self {document : PathDocument F} {path : List Text} (value : Stored F)
    (fresh : document.lookup path = none) :
    lookup { document with stored := document.stored ++ [(path, value)] } path =
      some value := by
  have absent : (document.stored.find? fun entry => decide (entry.1 = path)) = none :=
    Option.map_eq_none_iff.mp fresh
  simp [lookup, List.find?_append, absent]

theorem lookup_append_of_ne (document : PathDocument F) {path other : List Text}
    (apart : path ≠ other) (value : Stored F) :
    lookup { document with stored := document.stored ++ [(other, value)] } path =
      document.lookup path := by
  simp [lookup, List.find?_append, Ne.symm apart]

/-- They store and read by path. -/
def storesByPath : StoresByPath (settings : XmlSettings F (PathDocument F)) where
  pushed := PathDocument.pushed
  stored := lookup
  pushed_clear _ := rfl
  stored_clear _ _ := rfl
  pushed_addTag _ _ := rfl
  stored_addTag _ _ := rfl
  pushed_pushTag _ _ := rfl
  stored_pushTag _ _ := rfl
  pushed_popTag _ := rfl
  stored_popTag _ := rfl
  pushed_addText _ _ _ := rfl
  stored_addText _ _ _ _ _ := rfl
  pushed_addValue _ _ _ _ := rfl
  stored_addValue_self _ type value document fresh :=
    lookup_append_self ⟨type, value⟩ fresh
  stored_addValue_of_ne _ type value document _ apart :=
    lookup_append_of_ne document apart ⟨type, value⟩
  getValue_of_stored document path type value default _ isStored := by
    simp only [settings, isStored, Option.elim_some, readAs, dif_pos]

end PathDocument

end OfxPrimes.SimpleGui
