import OfxPrimes.SimpleGui.Settings
import OfxPrimes.Transition.Run

/-!
# The listeners of the GUI

`setDraw` registers and removes the listeners of the GUI when it changes
`doDraw`.  `loadFromXML` writes `doDraw` itself before it calls `setDraw`, which
then has nothing to change.
-/

namespace OfxPrimes.SimpleGui

open OfxPrimes.Fiducial

variable {F D : Type}

/-- A call that can change `doDraw`. -/
inductive DrawCall (D : Type)
  | setDraw (b : Bool)
  | toggleDraw
  | nextPageWithBlank
  /-- `loadFromXML` of a file, or of none that can be read -/
  | loadFromXML (loaded : Option D)

/-- What the code relies on of `ofAddListener` and `ofRemoveListener`: they
register what is not registered, and remove what is registered once. -/
structure ListenerCount.Counts (count : ListenerCount) : Prop where
  add_zero : count.add 0 = 1
  remove_one : count.remove 1 = 0

namespace OfxSimpleGuiToo

section Calls

variable (arith : FloatArith F) (xml : XmlSettings F D) (count : ListenerCount)

/-- The GUI after a call. -/
def perform (gui : OfxSimpleGuiToo F D) : DrawCall D → OfxSimpleGuiToo F D
  | .setDraw b => gui.setDraw xml count b
  | .toggleDraw => gui.toggleDraw xml count
  | .nextPageWithBlank => gui.nextPageWithBlank xml count
  | .loadFromXML loaded => gui.loadFromXML arith xml count loaded

/-- The listeners are registered once if the GUI draws, and not at all otherwise. -/
def Registered (gui : OfxSimpleGuiToo F D) : Prop :=
  ∀ event, gui.listeners event = if gui.doDraw then 1 else 0

/-- They are so before the calls and after each of them. -/
def StaysRegistered (gui : OfxSimpleGuiToo F D) (calls : List (DrawCall D)) : Prop :=
  ∀ past rest, calls = past ++ rest → (past.foldl (perform arith xml count) gui).Registered

end Calls

/-- A call does not load a file that says otherwise about `doDraw`. -/
def Agrees (xml : XmlSettings F D) (gui : OfxSimpleGuiToo F D) : DrawCall D → Prop
  | .setDraw _ => True
  | .toggleDraw => True
  | .nextPageWithBlank => True
  | .loadFromXML loaded => ∀ document ∈ loaded, drawOption xml document = gui.doDraw

theorem Registered.congr {gui other : OfxSimpleGuiToo F D} (registered : gui.Registered)
    (sameDraw : other.doDraw = gui.doDraw) (sameListeners : other.listeners = gui.listeners) :
    other.Registered := by
  intro event
  rw [sameDraw, sameListeners]
  exact registered event

theorem registered_setPage (i : Int) {gui : OfxSimpleGuiToo F D} (registered : gui.Registered) :
    (gui.setPage i).Registered :=
  registered.congr rfl rfl

section Steps

variable {arith : FloatArith F} {xml : XmlSettings F D} {count : ListenerCount}
variable (counts : count.Counts)

/-- Saving the settings leaves the listeners and `doDraw` as they are. -/
theorem registered_autoSave {gui : OfxSimpleGuiToo F D} (registered : gui.Registered) :
    (if gui.doAutoSave then gui.saveToXML xml else gui).Registered := by
  split
  · exact registered.congr rfl rfl
  · exact registered

include counts in
/-- `setDraw` registers and removes the listeners along with `doDraw`. -/
theorem registered_setDraw (b : Bool) {gui : OfxSimpleGuiToo F D} (registered : gui.Registered) :
    (gui.setDraw xml count b).Registered := by
  rw [setDraw]
  by_cases changes : gui.doDraw ≠ b
  · rw [if_pos changes]
    cases b with
    | true =>
        have hidden : gui.doDraw = false := Bool.eq_false_of_not_eq_true changes
        have shown : ({ gui with doDraw := true }.addListeners count).Registered := by
          intro event
          have none : gui.listeners event = 0 := by rw [registered event, hidden]; rfl
          exact (congrArg count.add none).trans counts.add_zero
        exact registered_autoSave shown
    | false =>
        have drawn : gui.doDraw = true := Bool.eq_true_of_not_eq_false changes
        have gone : ({ gui with doDraw := false }.removeListeners count).Registered := by
          intro event
          have once : gui.listeners event = 1 := by rw [registered event, drawn]; rfl
          exact (congrArg count.remove once).trans counts.remove_one
        exact registered_autoSave gone
  · rw [if_neg changes]
    exact registered

include counts in
theorem registered_nextPageWithBlank {gui : OfxSimpleGuiToo F D} (registered : gui.Registered) :
    (gui.nextPageWithBlank xml count).Registered := by
  have turned := registered_setPage (gui.currentPage + 1) registered
  rw [nextPageWithBlank]
  split
  · dsimp only
    split
    · exact registered_setDraw counts false turned
    · exact turned
  · exact registered_setPage 2 (registered_setDraw counts true registered)

/-- Loading a file takes over its `doDraw` and leaves the listeners as they are. -/
theorem registered_loadFromXML_iff {document : D} {gui : OfxSimpleGuiToo F D}
    (registered : gui.Registered) :
    (gui.loadFromXML arith xml count (some document)).Registered ↔
      drawOption xml document = gui.doDraw := by
  rw [loadFromXML_some]
  constructor
  · intro stillRegistered
    have before := registered .update
    have after : gui.listeners .update = if drawOption xml document then 1 else 0 :=
      stillRegistered .update
    rw [before] at after
    cases drawn : gui.doDraw <;> cases option : drawOption xml document <;>
      simp [drawn, option] at after ⊢
  · exact fun agrees => registered.congr agrees rfl

include counts in
/-- A call keeps the listeners in step with `doDraw` exactly if it agrees with it. -/
theorem registered_perform_iff {gui : OfxSimpleGuiToo F D} (registered : gui.Registered)
    (call : DrawCall D) :
    (gui.perform arith xml count call).Registered ↔ gui.Agrees xml call := by
  cases call with
  | setDraw b => exact iff_of_true (registered_setDraw counts b registered) trivial
  | toggleDraw => exact iff_of_true (registered_setDraw counts _ registered) trivial
  | nextPageWithBlank =>
      exact iff_of_true (registered_nextPageWithBlank counts registered) trivial
  | loadFromXML loaded =>
      cases loaded with
      | none => exact iff_of_true registered fun _ mem => absurd mem (Option.not_mem_none _)
      | some document =>
          apply (registered_loadFromXML_iff registered).trans
          constructor
          · intro agrees loaded mem
            rcases Option.mem_some_iff.mp mem with rfl
            exact agrees
          · exact fun agrees => agrees document rfl

include counts in
/-- After every call the listeners are registered once if the GUI draws and not at
all otherwise, if and only if every file that is loaded agrees with the `doDraw`
before it is. -/
theorem registered_calls_iff {gui : OfxSimpleGuiToo F D} (draws : gui.doDraw = true)
    (once : ∀ event, gui.listeners event = 1) (calls : List (DrawCall D)) :
    gui.StaysRegistered arith xml count calls ↔
      ∀ past call rest, calls = past ++ call :: rest →
        (past.foldl (perform arith xml count) gui).Agrees xml call := by
  have registered : gui.Registered := by
    intro event
    rw [once event, draws]
    rfl
  exact Transition.foldl_invariant_iff Registered
    (fun _ before call => registered_perform_iff counts before call) registered calls

end Steps

/-! ## Files that show and hide the GUI -/

/-- A settings file with nothing but `doDraw`. -/
def drawFile (doDraw : Bool) : PathDocument (Option Rat) where
  pushed := []
  texts := []
  stored := [([ascii "options", ascii "doDraw"], ⟨.bool, doDraw⟩)]

/-- A GUI that draws, without controls. -/
def drawnGui : OfxSimpleGuiToo (Option Rat) (PathDocument (Option Rat)) where
  doDraw := true
  doAutoSave := false
  doSave := false
  currentPage := 2
  pages := [[], [], []]
  document := drawFile true
  listeners := fun _ => 1
  memory := fun cell => zero FloatArith.rational cell.type

/-- The GUI no longer draws after it loads a file that hides it, but all its
listeners are still registered. -/
theorem loadFromXML_keepsListeners :
    drawnGui.Registered ∧ drawnGui.doDraw = true ∧
      (drawnGui.perform FloatArith.rational PathDocument.settings ListenerCount.plain
        (.loadFromXML (some (drawFile false)))).doDraw = false ∧
      ∀ event, (drawnGui.perform FloatArith.rational PathDocument.settings ListenerCount.plain
        (.loadFromXML (some (drawFile false)))).listeners event = 1 :=
  ⟨fun _ => rfl, rfl, rfl, fun _ => rfl⟩

/-- The listeners are in step with `doDraw` while the GUI is hidden, loads a file
that hides it, is shown and turns its page. -/
theorem registered_hiddenAndShown :
    drawnGui.StaysRegistered FloatArith.rational PathDocument.settings ListenerCount.plain
      [.setDraw false, .loadFromXML (some (drawFile false)), .toggleDraw,
        .nextPageWithBlank] := by
  have counts : ListenerCount.plain.Counts := ⟨rfl, rfl⟩
  apply (registered_calls_iff counts rfl (fun _ => rfl) _).mpr
  intro past call rest whole
  rcases past with _ | ⟨first, _ | ⟨second, _ | ⟨third, _ | ⟨fourth, past⟩⟩⟩⟩
  all_goals
    simp only [List.nil_append, List.cons_append, List.cons.injEq] at whole
  · rcases whole with ⟨rfl, -⟩
    trivial
  · rcases whole with ⟨rfl, rfl, -⟩
    intro document mem
    rcases Option.mem_some_iff.mp mem with rfl
    rfl
  · rcases whole with ⟨rfl, rfl, rfl, -⟩
    trivial
  · rcases whole with ⟨rfl, rfl, rfl, rfl, -⟩
    trivial
  · simp at whole

end OfxSimpleGuiToo

end OfxPrimes.SimpleGui
