import OfxPrimes.Physics.Rays

/-!
# What the status loop tells its listeners

The status loop looks at each listed fiducial once.  It leaves the list as it
is but for the corners, records the state of every id that is not ignored, and
sends at most one event for it, which depends on the recorded state only.
-/

namespace OfxPrimes.Physics

open OfxPrimes.Fiducial
open OfxPrimes.Pool
open OfxPrimes.Transition

variable {F : Type}

section Scan

variable (arith : FloatArith F)

/-- What the status loop makes of a listed fiducial. -/
def scannedFiducial (engine : Engine F) (fiducial : OfxFiducial F) : OfxFiducial F :=
  if fiducial.fidId ∈ engine.ignoreFiducialIds then fiducial
  else forceCorners arith engine fiducial

/-- Only what concerns the corners is changed. -/
theorem forceCorners_eq (engine : Engine F) (fiducial : OfxFiducial F) :
    forceCorners arith engine fiducial =
      { fiducial with
        updateCorners := (forceCorners arith engine fiducial).updateCorners
        cornerPoints := (forceCorners arith engine fiducial).cornerPoints
        cornersUpdated := (forceCorners arith engine fiducial).cornersUpdated } := by
  unfold forceCorners
  split <;> rfl

@[simp]
theorem forceCorners_fidId (engine : Engine F) (fiducial : OfxFiducial F) :
    (forceCorners arith engine fiducial).fidId = fiducial.fidId := by
  rw [forceCorners_eq]

@[simp]
theorem forceCorners_state (engine : Engine F) (fiducial : OfxFiducial F) :
    (forceCorners arith engine fiducial).state = fiducial.state := by
  rw [forceCorners_eq]

/-- What is recorded of the id of a fiducial. -/
theorem recordState_forceCorners (engine : Engine F) (fiducial : OfxFiducial F) :
    (engine.recordState (forceCorners arith engine fiducial)).fiducialStates fiducial.fidId =
      some fiducial.state := by
  rw [Engine.recordState, forceCorners_fidId, forceCorners_state]
  exact Function.update_self ..

/-- Nothing changes in what is recorded of another id. -/
theorem recordState_forceCorners_of_ne (engine : Engine F) {fiducial : OfxFiducial F} {id : Int}
    (other : fiducial.fidId ≠ id) :
    (engine.recordState (forceCorners arith engine fiducial)).fiducialStates id =
      engine.fiducialStates id := by
  rw [Engine.recordState, forceCorners_fidId]
  exact Function.update_of_ne (Ne.symm other) ..

theorem scannedFiducial_eq (engine : Engine F) (fiducial : OfxFiducial F) :
    scannedFiducial arith engine fiducial =
      { fiducial with
        updateCorners := (scannedFiducial arith engine fiducial).updateCorners
        cornerPoints := (scannedFiducial arith engine fiducial).cornerPoints
        cornersUpdated := (scannedFiducial arith engine fiducial).cornersUpdated } := by
  unfold scannedFiducial
  split
  · rfl
  · exact forceCorners_eq arith engine fiducial

@[simp]
theorem scannedFiducial_fidId (engine : Engine F) (fiducial : OfxFiducial F) :
    (scannedFiducial arith engine fiducial).fidId = fiducial.fidId := by
  rw [scannedFiducial_eq]

@[simp]
theorem scannedFiducial_state (engine : Engine F) (fiducial : OfxFiducial F) :
    (scannedFiducial arith engine fiducial).state = fiducial.state := by
  rw [scannedFiducial_eq]

@[simp]
theorem scannedFiducial_current (engine : Engine F) (fiducial : OfxFiducial F) :
    (scannedFiducial arith engine fiducial).current = fiducial.current := by
  rw [scannedFiducial_eq]

theorem statusLoop_list (engine : Engine F) (fiducialsList : List (OfxFiducial F)) :
    (statusLoop arith engine fiducialsList).2.1 =
      fiducialsList.map (scannedFiducial arith engine) := by
  induction fiducialsList generalizing engine with
  | nil => rfl
  | cons fiducial rest ih =>
      rw [statusLoop, List.map_cons, scannedFiducial]
      split
      · rw [← ih engine]
      · exact congrArg _ (ih _)

/-- The status loop changes nothing in the engine but the states. -/
theorem statusLoop_engine (engine : Engine F) (fiducialsList : List (OfxFiducial F)) :
    (statusLoop arith engine fiducialsList).1 =
      { engine with
        fiducialStates := (statusLoop arith engine fiducialsList).1.fiducialStates } := by
  induction fiducialsList generalizing engine with
  | nil => rfl
  | cons fiducial rest ih =>
      rw [statusLoop]
      split
      · exact ih engine
      · exact ih _

/-- The status loop sends no event about a ray. -/
theorem rayTrace_statusLoop (engine : Engine F) (fiducialsList : List (OfxFiducial F))
    (source : Int) :
    rayTrace source (statusLoop arith engine fiducialsList).2.2 = [] := by
  induction fiducialsList generalizing engine with
  | nil => rfl
  | cons fiducial rest ih =>
      rw [statusLoop]
      split
      · exact ih engine
      · have noRay : ∀ cornered : OfxFiducial F,
            rayTrace source (engine.statusNotification cornered) = [] := by
          intro cornered
          rw [Engine.statusNotification]
          rcases statusEvent cornered.state
            ((engine.fiducialStates cornered.fidId).getD .invalid) with _ | event
          · rfl
          · rfl
        rw [rayTrace_append, noRay, List.nil_append]
        exact ih _

end Scan

/-- `Engine::update` in full. -/
theorem update_eq (arith : FloatArith F) (math : VectorMath F) (stale : Option (OfxFiducial F))
    (engine : Engine F) (fiducialsList : List (OfxFiducial F)) :
    engine.update arith math stale fiducialsList =
      let scanned := statusLoop arith engine fiducialsList
      (followRays arith math scanned.2.1 scanned.1 scanned.2.1.zipIdx, scanned.2.1,
        scanned.2.2 ++ raySent arith math scanned.2.1 stale scanned.1 scanned.2.1.zipIdx) := by
  simp only [Engine.update, rayLoop_eq]

/-! ## The events about one id -/

/-- What an event about a fiducial means for the interval in which it is found. -/
def StatusEvent.interval : StatusEvent → IntervalEvent Unit
  | .found => .opened ()
  | .updated => .touched ()
  | .lost => .closed ()

/-- What a notification means for the intervals of an id. -/
def statusInterval (id : Int) : Notification F → Option (IntervalEvent Unit)
  | .status event fiducial _ => if fiducial.fidId = id then some event.interval else none
  | .ray _ _ => none

/-- The intervals that the notifications about an id tell of. -/
def statusTrace (id : Int) (sent : List (Notification F)) : List (IntervalEvent Unit) :=
  sent.filterMap (statusInterval id)

/-- The intervals that a listed fiducial in a state tells of. -/
def reported (state prev : FiducialState) : List (IntervalEvent Unit) :=
  ((statusEvent state prev).map StatusEvent.interval).toList

/-- What is recorded of an id after a call that lists it as given. -/
def recorded (prev : Option FiducialState) (listed : Option (OfxFiducial F)) :
    Option FiducialState :=
  listed.elim prev fun fiducial => some fiducial.state

/-- What is told of an id in a call that lists it as given. -/
def told (prev : Option FiducialState) (listed : Option (OfxFiducial F)) :
    List (IntervalEvent Unit) :=
  listed.elim [] fun fiducial => reported fiducial.state (prev.getD .invalid)

theorem statusTrace_append (id : Int) (first second : List (Notification F)) :
    statusTrace id (first ++ second) = statusTrace id first ++ statusTrace id second :=
  List.filterMap_append ..

theorem statusTrace_statusNotification (engine : Engine F) (fiducial : OfxFiducial F) (id : Int) :
    statusTrace id (engine.statusNotification fiducial) =
      if fiducial.fidId = id then
        told (engine.fiducialStates fiducial.fidId) (some fiducial)
      else [] := by
  rw [Engine.statusNotification, told, Option.elim_some, reported]
  rcases statusEvent fiducial.state
    ((engine.fiducialStates fiducial.fidId).getD .invalid) with _ | event
  · exact (ite_self _).symm
  · by_cases same : fiducial.fidId = id
    · rw [if_pos same]
      simp [statusTrace, statusInterval, same]
    · rw [if_neg same]
      simp [statusTrace, statusInterval, same]

section Watched

variable (arith : FloatArith F)

/-- The loop records and tells of a watched id what the list shows of it. -/
theorem statusLoop_of_watched {engine : Engine F} {id : Int}
    (watched : id ∉ engine.ignoreFiducialIds) {fiducialsList : List (OfxFiducial F)}
    (distinct : DistinctIds fiducialsList) :
    (statusLoop arith engine fiducialsList).1.fiducialStates id =
        recorded (engine.fiducialStates id) (lookup id fiducialsList) ∧
      statusTrace id (statusLoop arith engine fiducialsList).2.2 =
        told (engine.fiducialStates id) (lookup id fiducialsList) := by
  induction fiducialsList generalizing engine with
  | nil => exact ⟨rfl, rfl⟩
  | cons fiducial rest ih =>
      rcases List.nodup_cons.mp distinct with ⟨fresh, restDistinct⟩
      rw [statusLoop]
      by_cases same : fiducial.fidId = id
      · subst same
        have absent : lookup fiducial.fidId rest = none := by
          rw [lookup, Keyed.lookup_eq_none_iff]
          exact fun other mem equal => fresh (equal ▸ List.mem_map_of_mem mem)
        have stillWatched : fiducial.fidId ∉
            (engine.recordState (forceCorners arith engine fiducial)).ignoreFiducialIds := watched
        rcases ih stillWatched restDistinct with ⟨states, trace⟩
        rw [absent, recordState_forceCorners] at states trace
        rw [if_neg watched, lookup, Keyed.lookup_cons_self]
        refine ⟨states, ?_⟩
        rw [statusTrace_append, trace, statusTrace_statusNotification,
          if_pos (forceCorners_fidId arith engine fiducial)]
        simp only [told, forceCorners_fidId, forceCorners_state, Option.elim_some,
          Option.elim_none, List.append_nil]
      · rw [lookup, Keyed.lookup_cons_of_ne same]
        split
        · exact ih watched restDistinct
        · have corneredId : (forceCorners arith engine fiducial).fidId ≠ id := by
            rw [forceCorners_fidId]
            exact same
          have stillWatched : id ∉
              (engine.recordState (forceCorners arith engine fiducial)).ignoreFiducialIds := watched
          rcases ih stillWatched restDistinct with ⟨states, trace⟩
          rw [recordState_forceCorners_of_ne arith engine same] at states trace
          refine ⟨states, ?_⟩
          rw [statusTrace_append, statusTrace_statusNotification, if_neg corneredId,
            List.nil_append]
          exact trace

/-- Nothing is recorded of an ignored id. -/
theorem statusLoop_of_ignored {engine : Engine F} {id : Int}
    (ignored : id ∈ engine.ignoreFiducialIds) (fiducialsList : List (OfxFiducial F)) :
    (statusLoop arith engine fiducialsList).1.fiducialStates id = engine.fiducialStates id := by
  induction fiducialsList generalizing engine with
  | nil => rfl
  | cons fiducial rest ih =>
      rw [statusLoop]
      split
      · exact ih ignored
      · rename_i watched
        have other : fiducial.fidId ≠ id := fun same => watched (same ▸ ignored)
        have stillIgnored : id ∈
            (engine.recordState (forceCorners arith engine fiducial)).ignoreFiducialIds := ignored
        exact (ih stillIgnored).trans (recordState_forceCorners_of_ne arith engine other)

end Watched

/-- The ray loop sends no event about a fiducial. -/
theorem statusTrace_raySent (arith : FloatArith F) (math : VectorMath F)
    (fiducialsList : List (OfxFiducial F)) (stale : Option (OfxFiducial F)) (id : Int)
    (entries : List (OfxFiducial F × Nat)) (engine : Engine F) :
    statusTrace id (raySent arith math fiducialsList stale engine entries) = [] := by
  induction entries generalizing engine with
  | nil => rfl
  | cons entry rest ih =>
      rw [raySent]
      split
      · have noStatus : ∀ edge args,
            statusTrace id (rayNotifications entry.1 stale edge args) = [] := by
          intro edge args
          have ray : ∀ event (sent : RayArgs F), statusTrace id [.ray event sent] = [] :=
            fun _ _ => rfl
          have nothing : statusTrace id ([] : List (Notification F)) = [] := rfl
          simp only [rayNotifications, statusTrace_append, apply_ite (statusTrace id), ray,
            nothing, ite_self, List.append_nil]
        rw [statusTrace_append, noStatus, List.nil_append]
        exact ih _
      · exact ih engine

end OfxPrimes.Physics
