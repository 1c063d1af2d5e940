import OfxPrimes.Fiducial.Placement
import OfxPrimes.Gui.GuiGraph
import OfxPrimes.Physics.Intervals
import OfxPrimes.Physics.System

/-!
# Segments and listed fiducials

After every frame the graph holds a segment exactly for the ids that are not
ignored and whose fiducial is found and stands somewhere.  A fiducial that is
found and stands somewhere has its ray followed in the same call.  One that is
lost was remembered as found and is told of, or had no segment.  One that has
left the list was lost before.
-/

namespace OfxPrimes.Gui

open OfxPrimes.Fiducial
open OfxPrimes.Physics
open OfxPrimes.Pool

variable {F : Type}

/-- The fiducial is found and stands somewhere. -/
def visible (arith : FloatArith F) (fiducial : OfxFiducial F) : Bool :=
  decide (fiducial.state = .found) && !fiducial.atInvalidCoords arith

/-- No frame of the run detects anything at the invalid coordinates. -/
def Clear (arith : FloatArith F) (ticks : List (Tick F)) : Prop :=
  ∀ tick ∈ ticks, ∀ fiducials ∈ tick.fiducials, FrameClear arith fiducials

section Frames

variable {arith : FloatArith F} {math : VectorMath F} {junk : OfxFiducial F}
variable {id : Int} {system : System F}

theorem visible_scannedFiducial (engine : Engine F) (fiducial : OfxFiducial F) :
    visible arith (scannedFiducial arith engine fiducial) = visible arith fiducial := by
  rw [visible, OfxFiducial.atInvalidCoords, scannedFiducial_state, scannedFiducial_current]
  rfl

theorem validOutputFiducial_eq (engine : Engine F) (fiducial : OfxFiducial F) :
    engine.validOutputFiducial arith fiducial =
      (!fiducial.atInvalidCoords arith && (engine.fiducialStates fiducial.fidId).isSome) := by
  rw [Engine.validOutputFiducial, Engine.validFiducial, OfxFiducial.atInvalidCoords]
  split
  · rename_i invalid
    rw [invalid]
    rfl
  · rename_i invalid
    rw [Bool.eq_false_of_not_eq_true invalid]
    rfl

/-- Whether the segment of an id is there after a frame: what is told of the id
may take it away, and a visible fiducial that the engine knows brings it. -/
theorem foldl_drawn_advance (distinct : DistinctIds system.fiducialsList) (tick : Tick F)
    (shown : Bool) :
    (system.advance arith math junk tick).2.foldl (drawn id) shown =
      ((statusTrace id (statusLoop arith system.engine (system.found arith junk tick)).2.2).foldl
          erased shown ||
        (system.observed arith junk tick id).any fun fiducial => visible arith fiducial &&
          ((system.advance arith math junk tick).1.engine.fiducialStates id).isSome) := by
  have scannedDistinct := distinctIds_advance arith math junk distinct tick
  have listed := lookup_advance arith math junk distinct tick id
  have states : (system.advance arith math junk tick).1.engine.fiducialStates =
      (statusLoop arith system.engine (system.found arith junk tick)).1.fiducialStates :=
    advance_fiducialStates arith math junk tick
  rw [advance_fiducialsList] at scannedDistinct listed
  rw [states]
  simp only [System.advance, update_eq, List.foldl_append, statusLoop_list]
  rw [foldl_drawn_of_status (statusLoop_isStatus arith _ _),
    foldl_drawn_raySent_zipIdx scannedDistinct, listed]
  cases observed : system.observed arith junk tick id with
  | none => rfl
  | some fiducial =>
      have found := lookup_found arith junk distinct tick id
      rw [observed] at found
      have sameId : fiducial.fidId = id := (Keyed.mem_of_lookup found).2
      have valid : (decide ((scannedFiducial arith system.engine fiducial).state = .found) &&
          (statusLoop arith system.engine (system.found arith junk tick)).1.validOutputFiducial
            arith (scannedFiducial arith system.engine fiducial)) =
          (visible arith fiducial && ((statusLoop arith system.engine
            (system.found arith junk tick)).1.fiducialStates id).isSome) := by
        rw [validOutputFiducial_eq, scannedFiducial_fidId, sameId, ← Bool.and_assoc]
        exact congrArg (· && _) (visible_scannedFiducial system.engine fiducial)
      rw [Option.map_some, Option.any_some, Option.any_some]
      exact congrArg _ valid

/-- The graph has the segment of an id exactly while its fiducial is visible. -/
def Drawn (arith : FloatArith F) (id : Int) (system : System F) (shown : Bool) : Prop :=
  shown = (lookup id system.fiducialsList).any (visible arith)

/-- An id that was not found when it was last seen has no segment. -/
theorem shown_eq_false (kept : Kept id system) {shown : Bool}
    (isDrawn : Drawn arith id system shown)
    (notFound : system.engine.fiducialStates id ≠ some .found) : shown = false := by
  rw [isDrawn]
  cases listed : lookup id system.fiducialsList with
  | none => rfl
  | some fiducial =>
      have notNow : fiducial.state ≠ .found :=
        fun found => notFound ((kept.remembered fiducial listed).trans (congrArg some found))
      rw [Option.any_some, visible, decide_eq_false notNow, Bool.false_and]

/-- What is told of a watched id in a frame takes the segment away unless its
fiducial stays found. -/
theorem foldl_erased_told (kept : Kept id system) {shown : Bool}
    (isDrawn : Drawn arith id system shown) (tick : Tick F) :
    (told (system.engine.fiducialStates id) (system.observed arith junk tick id)).foldl erased
        shown =
      (shown && (system.observed arith junk tick id).any fun fiducial =>
        decide (fiducial.state = .found)) := by
  cases observed : system.observed arith junk tick id with
  | none =>
      have notFound : system.engine.fiducialStates id ≠ some .found := by
        rcases kept.lost_of_gone arith junk tick observed with unknown | lost
        · simp [unknown]
        · simp [lost]
      rw [shown_eq_false kept isDrawn notFound, Bool.false_and]
      rfl
  | some fiducial =>
      rw [told, Option.elim_some, foldl_erased_reported, Option.any_some]
      rcases ((kept.observed arith junk tick).1 fiducial observed).shown with found | lost
      · simp [found]
      · by_cases wasFound : system.engine.fiducialStates id = some .found
        · simp [lost, wasFound]
        · simp [shown_eq_false kept isDrawn wasFound]

/-- A fiducial that stood somewhere still does after a clear frame. -/
theorem observed_clear (kept : Kept id system) {tick : Tick F}
    (clear : ∀ fiducials ∈ tick.fiducials, FrameClear arith fiducials)
    {known fiducial : OfxFiducial F} (listed : lookup id system.fiducialsList = some known)
    (away : known.atInvalidCoords arith = false)
    (observed : system.observed arith junk tick id = some fiducial) :
    fiducial.atInvalidCoords arith = false := by
  rw [System.observed, listed] at observed
  rcases tick with ⟨_ | fiducials, stale⟩
  · exact Option.some.inj observed ▸ away
  · exact observe_clear junk (kept.settled known listed) away
      (frameClear_sightings (clear fiducials rfl) id) fiducial observed

/-- A clear frame keeps the segment of a watched id right. -/
theorem drawn_advance (kept : Kept id system) {shown : Bool}
    (isDrawn : Drawn arith id system shown) {tick : Tick F}
    (clear : ∀ fiducials ∈ tick.fiducials, FrameClear arith fiducials) :
    Drawn arith id (system.advance arith math junk tick).1
      ((system.advance arith math junk tick).2.foldl (drawn id) shown) := by
  rcases statusLoop_of_watched arith kept.watched (distinctIds_found arith junk kept.distinct tick)
    with ⟨-, trace⟩
  rcases advance_of_watched arith math junk kept.distinct tick kept.watched with ⟨states, -⟩
  rw [lookup_found arith junk kept.distinct] at trace
  rw [Drawn, foldl_drawn_advance kept.distinct, trace, foldl_erased_told kept isDrawn, states,
    lookup_advance arith math junk kept.distinct]
  cases observed : system.observed arith junk tick id with
  | none => simp
  | some fiducial =>
      simp only [Option.any_some, Option.map_some, recorded, Option.elim_some, Option.isSome_some,
        Bool.and_true, visible_scannedFiducial]
      cases visibleNow : visible arith fiducial with
      | true => exact Bool.or_true _
      | false =>
          rw [Bool.or_false, Bool.and_eq_false_iff]
          by_contra both
          rw [not_or, Bool.not_eq_false, Bool.not_eq_false] at both
          rcases both with ⟨wasShown, found⟩
          rw [isDrawn, Option.any_eq_true] at wasShown
          rcases wasShown with ⟨known, listed, wasVisible⟩
          have wasAway : known.atInvalidCoords arith = false := by
            simpa using (Bool.and_eq_true_iff.mp wasVisible).2
          have away := observed_clear kept clear listed wasAway observed
          rw [visible, found, away] at visibleNow
          contradiction

end Frames

section Runs

variable (arith : FloatArith F) (math : VectorMath F) (junk : OfxFiducial F)

theorem distinctIds_systemRun (settings : Engine F) (ticks : List (Tick F)) :
    DistinctIds (systemRun arith math junk settings ticks).1.fiducialsList := by
  induction ticks using List.reverseRecOn with
  | nil => exact List.nodup_nil
  | append_singleton past tick ih =>
      rw [systemRun_concat]
      exact distinctIds_advance arith math junk ih tick

/-- After a clear run the segment of a watched id is there exactly when its
fiducial is visible. -/
theorem drawn_systemRun {settings : Engine F} {id : Int} (watched : id ∉ settings.ignoreFiducialIds)
    {ticks : List (Tick F)} (clear : Clear arith ticks) :
    Drawn arith id (systemRun arith math junk settings ticks).1
      ((systemRun arith math junk settings ticks).2.foldl (drawn id) false) := by
  induction ticks using List.reverseRecOn with
  | nil => rfl
  | append_singleton past tick ih =>
      have pastDrawn := ih fun earlier mem => clear earlier (List.mem_append_left _ mem)
      rw [systemRun_concat, addFrame, List.foldl_append]
      exact drawn_advance (Kept.systemRun arith junk math watched past) pastDrawn
        (clear tick (by simp))

/-- Nothing is remembered of an ignored id, and it never has a segment. -/
theorem undrawn_of_ignored {settings : Engine F} {id : Int}
    (ignored : id ∈ settings.ignoreFiducialIds) (ticks : List (Tick F)) :
    id ∈ (systemRun arith math junk settings ticks).1.engine.ignoreFiducialIds ∧
      (systemRun arith math junk settings ticks).1.engine.fiducialStates id = none ∧
        (systemRun arith math junk settings ticks).2.foldl (drawn id) false = false := by
  induction ticks using List.reverseRecOn with
  | nil => exact ⟨ignored, rfl, rfl⟩
  | append_singleton past tick ih =>
      rcases ih with ⟨stillIgnored, unknown, undrawn⟩
      have states : ((systemRun arith math junk settings past).1.advance arith math junk
          tick).1.engine.fiducialStates id = none := by
        rw [advance_fiducialStates, statusLoop_of_ignored arith stillIgnored, unknown]
      rw [systemRun_concat, addFrame, List.foldl_append, undrawn]
      refine ⟨?_, states, ?_⟩
      · rw [advance_ignoreFiducialIds]
        exact stillIgnored
      · rw [foldl_drawn_advance (distinctIds_systemRun arith math junk settings past), states,
          foldl_erased_false, Bool.false_or]
        simp

/-- After every frame the keys of the segments are the ids that are not ignored
and whose listed fiducial is found and not at the invalid coordinates. -/
theorem segments_systemRun_iff (settings : Engine F) {ticks : List (Tick F)}
    (clear : Clear arith ticks) (id : Int) :
    ((GuiGraph.heard arith math
        (systemRun arith math junk settings ticks).2).segments id).isSome = true ↔
      id ∉ settings.ignoreFiducialIds ∧
        ∃ fiducial ∈ (systemRun arith math junk settings ticks).1.fiducialsList,
          fiducial.fidId = id ∧ fiducial.state = .found ∧
            fiducial.atInvalidCoords arith = false := by
  rw [isSome_heard]
  by_cases ignored : id ∈ settings.ignoreFiducialIds
  · rw [(undrawn_of_ignored arith math junk ignored ticks).2.2]
    exact iff_of_false (by simp) fun watched => watched.1 ignored
  · have isDrawn := drawn_systemRun arith math junk ignored clear
    have tested := Keyed.any_lookup (distinctIds_systemRun arith math junk settings ticks) id
      (visible arith)
    rw [isDrawn, ← tested, List.any_eq_true, and_iff_right ignored]
    simp only [visible, Bool.and_eq_true, decide_eq_true_eq, Bool.not_eq_true']

end Runs

theorem segments_twiceAndGone :
    ((GuiGraph.heard .rational (.ofArith .rational) (systemRun .rational (.ofArith .rational)
        (.zeroed .rational) (rationalEngine [7] 640 480)
          [⟨some [detection 5 100 100, detection 5 140 90], none⟩]).2).segments 5).isSome = true ↔
      5 ∉ (rationalEngine [7] 640 480).ignoreFiducialIds ∧
        ∃ fiducial ∈ (systemRun .rational (.ofArith .rational) (.zeroed .rational)
            (rationalEngine [7] 640 480)
              [⟨some [detection 5 100 100, detection 5 140 90], none⟩]).1.fiducialsList,
          fiducial.fidId = 5 ∧ fiducial.state = .found ∧
            fiducial.atInvalidCoords .rational = false :=
  segments_systemRun_iff .rational (.ofArith .rational) (.zeroed .rational)
    (rationalEngine [7] 640 480) (by unfold Clear; decide) 5

end OfxPrimes.Gui
