import OfxPrimes.Physics.Intervals
import OfxPrimes.Physics.System

/-!
# The order of the events about one id

The events about a watched id should find it, update it, and lose it, over and
over.  They do unless its very first frame detects it once only: the tracker
then lists it as lost, the engine remembers nothing of it, and the first event
tells of the loss of a fiducial that was never found.
-/

namespace OfxPrimes.Physics

open OfxPrimes.Fiducial
open OfxPrimes.Transition

variable {F : Type}

/-- The interval that is open when an id is remembered as given. -/
def openness (memory : Option FiducialState) : Option Unit :=
  if memory = some .found then some () else none

/-- No frame of the run detects the id. -/
def Unseen (id : Int) (ticks : List (Tick F)) : Prop :=
  ∀ tick ∈ ticks, tick.sightings id = []

/-- The first frame that detects the id does not detect it just once. -/
def FirstRepeated (id : Int) (ticks : List (Tick F)) : Prop :=
  ∀ past tick rest, ticks = past ++ tick :: rest → Unseen id past →
    (tick.sightings id).length ≠ 1

theorem firstRepeated_concat {id : Int} {past : List (Tick F)} {tick : Tick F} :
    FirstRepeated id (past ++ [tick]) ↔
      FirstRepeated id past ∧
        (Unseen id past → (tick.sightings id).length ≠ 1) := by
  constructor
  · intro repeated
    constructor
    · rintro front first rest rfl
      exact repeated front first (rest ++ [tick]) (by simp)
    · exact repeated past tick [] rfl
  · rintro ⟨pastRepeated, now⟩ front first rest split
    rcases List.eq_nil_or_concat rest with rfl | ⟨middle, last, rfl⟩
    · rcases List.append_inj' split rfl with ⟨rfl, single⟩
      cases single
      exact now
    · have pastSplit : past = front ++ first :: middle := by
        have regrouped : past ++ [tick] = (front ++ first :: middle) ++ [last] := by
          simpa using split
        exact (List.append_inj' regrouped rfl).1
      exact pastRepeated front first middle pastSplit

/-- What is told of an id between two known states keeps the intervals matched. -/
theorem run_reported {state prev : FiducialState} (shown : state = .found ∨ state = .lost)
    (known : prev = .found ∨ prev = .lost) :
    run intervalStep (openness (some prev)) (reported state prev) =
      some (openness (some state)) := by
  rcases shown with rfl | rfl
  · rcases known with rfl | rfl
    · rfl
    · rfl
  · rcases known with rfl | rfl
    · rfl
    · rfl

/-- What is first told of an id keeps them matched exactly when it is found. -/
theorem run_reported_invalid {state : FiducialState} (shown : state = .found ∨ state = .lost) :
    run intervalStep none (reported state .invalid) =
      if state = .found then some (openness (some state)) else none := by
  rcases shown with rfl | rfl
  · rfl
  · rfl

section Frames

variable (arith : FloatArith F) (math : VectorMath F) (junk : OfxFiducial F)
variable {id : Int} {system : System F}

/-- The machine of an id that is not listed, in a frame. -/
theorem observed_track (unlisted : lookup id system.fiducialsList = none) (tick : Tick F) :
    (system.observed arith junk tick id).map OfxFiducial.track =
      Track.next none (tick.sightings id).length := by
  rw [observed_of_unlisted arith junk unlisted]
  exact (observe_refines (by simp) (tick.sightings id)).2

/-- The events of one frame, from matched intervals. -/
theorem run_told (kept : Kept id system) (tick : Tick F) :
    run intervalStep (openness (system.engine.fiducialStates id))
        (told (system.engine.fiducialStates id) (system.observed arith junk tick id)) =
      if system.engine.fiducialStates id = none →
          (tick.sightings id).length ≠ 1 then
        some (openness
          (recorded (system.engine.fiducialStates id) (system.observed arith junk tick id)))
      else none := by
  have settled := (kept.observed arith junk tick).1
  cases memory : system.engine.fiducialStates id with
  | none =>
      have next := observed_track arith junk (kept.lookup_eq_none memory) tick
      match count : (tick.sightings id).length with
      | 0 =>
          rw [count] at next
          rw [Option.map_eq_none_iff.mp next, if_pos (by simp)]
          rfl
      | 1 =>
          rw [count] at next
          rcases Option.map_eq_some_iff.mp next with ⟨fiducial, isListed, isTrack⟩
          have lost : fiducial.state ≠ .found := by
            intro found
            simp [OfxFiducial.track, found] at isTrack
          rw [isListed, if_neg (by simp)]
          exact (run_reported_invalid (settled fiducial isListed).shown).trans (if_neg lost)
      | more + 2 =>
          rw [count] at next
          rcases Option.map_eq_some_iff.mp next with ⟨fiducial, isListed, isTrack⟩
          have found : fiducial.state = .found := by
            simpa [OfxFiducial.track] using congrArg Track.found isTrack
          rw [isListed, if_pos (by simp)]
          exact (run_reported_invalid (settled fiducial isListed).shown).trans (if_pos found)
  | some prev =>
      rw [if_pos (by simp)]
      cases listed : system.observed arith junk tick id with
      | none => rfl
      | some fiducial =>
          exact run_reported (settled fiducial listed).shown (kept.memory memory)

/-- Nothing is remembered of an id as long as no frame has detected it. -/
theorem fiducialStates_eq_none_iff {settings : Engine F}
    (watched : id ∉ settings.ignoreFiducialIds) (ticks : List (Tick F)) :
    (systemRun arith math junk settings ticks).1.engine.fiducialStates id = none ↔
      Unseen id ticks := by
  induction ticks using List.reverseRecOn with
  | nil => exact iff_of_true rfl (by simp [Unseen])
  | append_singleton past tick ih =>
      have kept := Kept.systemRun arith junk math watched past
      have states := (advance_of_watched arith math junk kept.distinct tick kept.watched).1
      have extended : Unseen id (past ++ [tick]) ↔
          Unseen id past ∧ tick.sightings id = [] := by
        simp [Unseen, or_imp, forall_and]
      have next (unknown : (systemRun arith math junk settings past).1.engine.fiducialStates id =
          none) := observed_track arith junk (kept.lookup_eq_none unknown) tick
      rw [systemRun_concat, addFrame, states, extended, ← ih]
      cases listed : (systemRun arith math junk settings past).1.observed arith junk tick id with
      | none =>
          refine (and_iff_left_of_imp fun unknown => ?_).symm
          have isNone := next unknown
          rw [listed, Option.map_none] at isNone
          match count : (tick.sightings id).length with
          | 0 => exact List.length_eq_zero_iff.mp count
          | 1 =>
              rw [count] at isNone
              contradiction
          | more + 2 =>
              rw [count] at isNone
              contradiction
      | some fiducial =>
          refine iff_of_false (Option.some_ne_none _) ?_
          rintro ⟨unknown, missed⟩
          have isSome := next unknown
          rw [listed, missed] at isSome
          contradiction

/-- The events of a run go through the monitor exactly when the first frame that
detects the id does so more than once. -/
theorem run_statusTrace [∀ ticks : List (Tick F), Decidable (FirstRepeated id ticks)]
    {settings : Engine F} (watched : id ∉ settings.ignoreFiducialIds) (ticks : List (Tick F)) :
    run intervalStep none (statusTrace id (systemRun arith math junk settings ticks).2) =
      if FirstRepeated id ticks then
        some (openness ((systemRun arith math junk settings ticks).1.engine.fiducialStates id))
      else none := by
  induction ticks using List.reverseRecOn with
  | nil =>
      have vacuous : FirstRepeated id ([] : List (Tick F)) := by simp [FirstRepeated]
      rw [if_pos vacuous]
      rfl
  | append_singleton past tick ih =>
      have kept := Kept.systemRun arith junk math watched past
      rcases advance_of_watched arith math junk kept.distinct tick kept.watched with
        ⟨states, trace⟩
      have frame := run_told arith junk kept tick
      rw [systemRun_concat, addFrame, statusTrace_append, trace, states, run_append, ih]
      by_cases pastRepeated : FirstRepeated id past
      · rw [if_pos pastRepeated, Option.bind_some, frame]
        apply if_congr _ rfl rfl
        rw [firstRepeated_concat, fiducialStates_eq_none_iff arith math junk watched]
        exact (and_iff_right pastRepeated).symm
      · rw [if_neg pastRepeated, Option.bind_none,
          if_neg fun repeated => pastRepeated (firstRepeated_concat.mp repeated).1]

/-- The events about a watched id find, update and lose it in this order, over
and over, exactly when the first frame that detects it does not detect it just
once. -/
theorem statusTrace_matched_iff {settings : Engine F}
    (watched : id ∉ settings.ignoreFiducialIds) (ticks : List (Tick F)) :
    Matched (statusTrace id (systemRun arith math junk settings ticks).2) ↔
      FirstRepeated id ticks := by
  classical
  rw [matched_iff_run, run_statusTrace arith math junk watched ticks]
  by_cases repeated : FirstRepeated id ticks
  · rw [if_pos repeated]
    exact iff_of_true rfl repeated
  · rw [if_neg repeated]
    exact iff_of_false (by simp) repeated

end Frames

/-- A marker that is detected twice in the frame in which it comes, and then not
any more. -/
def twiceAndGone : List (Tick (Option Rat)) :=
  [⟨some [detection 5 100 100, detection 5 140 90], none⟩, ⟨none, none⟩, ⟨some [], none⟩]

theorem statusTrace_matched_twiceAndGone :
    Matched (statusTrace 5 (systemRun .rational (.ofArith .rational) (.zeroed .rational)
        (rationalEngine [7] 640 480) twiceAndGone).2) ↔
      FirstRepeated 5 twiceAndGone :=
  statusTrace_matched_iff .rational (.ofArith .rational) (.zeroed .rational) (by decide)
    twiceAndGone

/-- The first event about a marker that is detected once tells of its loss. -/
theorem newFiducial_lostFirst :
    statusTrace 5 (systemRun .rational (.ofArith .rational) (.zeroed .rational)
        (rationalEngine [7] 640 480) [⟨some [detection 5 100 100], none⟩]).2 = [.closed ()] ∧
      ¬ Matched (statusTrace 5 (systemRun .rational (.ofArith .rational) (.zeroed .rational)
        (rationalEngine [7] 640 480) [⟨some [detection 5 100 100], none⟩]).2) := by
  have trace : statusTrace 5 (systemRun .rational (.ofArith .rational) (.zeroed .rational)
      (rationalEngine [7] 640 480) [⟨some [detection 5 100 100], none⟩]).2 = [.closed ()] := by
    decide +kernel
  refine ⟨trace, ?_⟩
  rw [trace, matched_iff_run]
  decide

end OfxPrimes.Physics
