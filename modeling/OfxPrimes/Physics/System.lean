import OfxPrimes.Fiducial.Survival
import OfxPrimes.Physics.Status

/-!
# The tracker and the engine together

Every frame first goes to the tracker and then the engine looks at the tracker's
list.  The engine writes into that list as well, but to the corners only, so the
machine of an id goes on as it does in the tracker alone.  Between two frames
the engine remembers of every id it watches what the list shows of it, and of an
id that has left the list that it was lost.
-/

namespace OfxPrimes.Physics

open OfxPrimes.Fiducial
open OfxPrimes.Pool

variable {F : Type}

/-- A tracker and an engine that looks at its list. -/
structure System (F : Type) where
  fiducialsList : List (OfxFiducial F)
  engine : Engine F

/-- What a frame brings: the detections, or none when `findFiducials` returns
before it looks for any, and what the stack holds where `hit_fiducial_prev` is. -/
structure Tick (F : Type) where
  fiducials : Option (List (FiducialX F))
  stale : Option (OfxFiducial F)

/-- The detections of an id in a frame. -/
def Tick.sightings (tick : Tick F) (id : Int) : List (FiducialX F) :=
  tick.fiducials.elim [] (Fiducial.sightings id)

/-- A new tracker and a new engine with the given settings. -/
def System.start (settings : Engine F) : System F :=
  { fiducialsList := []
    engine := Engine.start settings }

section Frames

variable (arith : FloatArith F) (math : VectorMath F) (junk : OfxFiducial F)

/-- The tracker's list after a call of `findFiducials`. -/
def System.found (system : System F) (tick : Tick F) : List (OfxFiducial F) :=
  tick.fiducials.elim system.fiducialsList (findFiducials arith junk system.fiducialsList)

/-- One call of `findFiducials` and one of `Engine::update`: the system after it,
and what was sent. -/
def System.advance (system : System F) (tick : Tick F) : System F × List (Notification F) :=
  let found := system.found arith junk tick
  let updated := system.engine.update arith math tick.stale found
  (⟨updated.2.1, updated.1⟩, updated.2.2)

/-- The system and all it has sent, after one more frame. -/
def addFrame (state : System F × List (Notification F)) (tick : Tick F) :
    System F × List (Notification F) :=
  let advanced := state.1.advance arith math junk tick
  (advanced.1, state.2 ++ advanced.2)

/-- The system and all it has sent, after a run of frames. -/
def systemRun (settings : Engine F) (ticks : List (Tick F)) :
    System F × List (Notification F) :=
  ticks.foldl (addFrame arith math junk) (System.start settings, [])

theorem systemRun_concat (settings : Engine F) (past : List (Tick F)) (tick : Tick F) :
    systemRun arith math junk settings (past ++ [tick]) =
      addFrame arith math junk (systemRun arith math junk settings past) tick := by
  rw [systemRun, List.foldl_append]
  rfl

/-! ## One id at a time -/

/-- What the tracker has of an id after the detections of a frame. -/
def System.observed (system : System F) (tick : Tick F) (id : Int) : Option (OfxFiducial F) :=
  let known := lookup id system.fiducialsList
  tick.fiducials.elim known fun fiducials =>
    observe arith junk known (Fiducial.sightings id fiducials)

variable {system : System F}

theorem lookup_found (distinct : DistinctIds system.fiducialsList) (tick : Tick F) (id : Int) :
    lookup id (system.found arith junk tick) = system.observed arith junk tick id := by
  rcases tick with ⟨_ | fiducials, stale⟩
  · rfl
  · exact lookup_findFiducials distinct id fiducials

theorem distinctIds_found (distinct : DistinctIds system.fiducialsList) (tick : Tick F) :
    DistinctIds (system.found arith junk tick) := by
  rcases tick with ⟨_ | fiducials, stale⟩
  · exact distinct
  · exact distinctIds_findFiducials distinct fiducials

/-- An id that is not listed is observed as in a frame of its own. -/
theorem observed_of_unlisted {id : Int} (unlisted : lookup id system.fiducialsList = none)
    (tick : Tick F) :
    system.observed arith junk tick id = observe arith junk none (tick.sightings id) := by
  rw [System.observed, unlisted]
  rcases tick with ⟨_ | fiducials, stale⟩ <;> rfl

theorem advance_fiducialsList (tick : Tick F) :
    (system.advance arith math junk tick).1.fiducialsList =
      (system.found arith junk tick).map (scannedFiducial arith system.engine) := by
  simp only [System.advance, update_eq, statusLoop_list]

theorem advance_ignoreFiducialIds (tick : Tick F) :
    (system.advance arith math junk tick).1.engine.ignoreFiducialIds =
      system.engine.ignoreFiducialIds := by
  simp only [System.advance, update_eq]
  rw [followRays_eq, statusLoop_engine]

theorem advance_fiducialStates (tick : Tick F) :
    (system.advance arith math junk tick).1.engine.fiducialStates =
      (statusLoop arith system.engine (system.found arith junk tick)).1.fiducialStates := by
  simp only [System.advance, update_eq]
  rw [followRays_eq]

theorem distinctIds_advance (distinct : DistinctIds system.fiducialsList) (tick : Tick F) :
    DistinctIds (system.advance arith math junk tick).1.fiducialsList := by
  have sameIds : OfxFiducial.fidId ∘ scannedFiducial arith system.engine = OfxFiducial.fidId :=
    funext fun fiducial => scannedFiducial_fidId arith system.engine fiducial
  rw [advance_fiducialsList, DistinctIds, Keyed.Distinct, List.map_map, sameIds]
  exact distinctIds_found arith junk distinct tick

/-- The engine changes no more than the corners of the fiducial of an id. -/
theorem lookup_advance (distinct : DistinctIds system.fiducialsList) (tick : Tick F) (id : Int) :
    lookup id (system.advance arith math junk tick).1.fiducialsList =
      (system.observed arith junk tick id).map (scannedFiducial arith system.engine) := by
  have scanned := Keyed.lookup_map (scannedFiducial_fidId arith system.engine) id
    (system.found arith junk tick)
  rw [advance_fiducialsList, lookup, scanned]
  exact congrArg _ (lookup_found arith junk distinct tick id)

/-- What a frame leaves in the engine of a watched id, and what it tells of it. -/
theorem advance_of_watched (distinct : DistinctIds system.fiducialsList) (tick : Tick F)
    {id : Int} (watched : id ∉ system.engine.ignoreFiducialIds) :
    (system.advance arith math junk tick).1.engine.fiducialStates id =
        recorded (system.engine.fiducialStates id) (system.observed arith junk tick id) ∧
      statusTrace id (system.advance arith math junk tick).2 =
        told (system.engine.fiducialStates id) (system.observed arith junk tick id) := by
  rcases statusLoop_of_watched arith watched (distinctIds_found arith junk distinct tick) with
    ⟨states, trace⟩
  rw [lookup_found arith junk distinct] at states trace
  constructor
  · rw [advance_fiducialStates, states]
  · simp only [System.advance, update_eq, statusTrace_append, statusTrace_raySent,
      List.append_nil]
    exact trace

end Frames

/-! ## What holds between two frames -/

/-- What holds of a watched id between two frames. -/
structure Kept (id : Int) (system : System F) : Prop where
  distinct : DistinctIds system.fiducialsList
  settled : ∀ fiducial ∈ lookup id system.fiducialsList, Settled fiducial
  live : Track.Live ((lookup id system.fiducialsList).map OfxFiducial.track)
  watched : id ∉ system.engine.ignoreFiducialIds
  remembered : ∀ fiducial ∈ lookup id system.fiducialsList,
    system.engine.fiducialStates id = some fiducial.state
  forgotten : lookup id system.fiducialsList = none →
    system.engine.fiducialStates id = none ∨ system.engine.fiducialStates id = some .lost

theorem settled_scannedFiducial (arith : FloatArith F) (engine : Engine F)
    {fiducial : OfxFiducial F} (settled : Settled fiducial) :
    Settled (scannedFiducial arith engine fiducial) := by
  rw [scannedFiducial_eq]
  exact ⟨settled.alive, settled.updated, settled.life_pos, settled.stands, settled.shown⟩

theorem track_scannedFiducial (arith : FloatArith F) (engine : Engine F)
    (fiducial : OfxFiducial F) :
    (scannedFiducial arith engine fiducial).track = fiducial.track := by
  rw [scannedFiducial_eq]
  rfl

namespace Kept

variable {id : Int} {system : System F}

theorem start {settings : Engine F} (watched : id ∉ settings.ignoreFiducialIds) :
    Kept id (System.start settings) where
  distinct := List.nodup_nil
  settled _ isListed := absurd isListed (Option.not_mem_none _)
  live _ isListed := absurd isListed (Option.not_mem_none _)
  watched := watched
  remembered _ isListed := absurd isListed (Option.not_mem_none _)
  forgotten _ := Or.inl rfl

/-- An id of which nothing is remembered is not listed. -/
theorem lookup_eq_none (kept : Kept id system)
    (unknown : system.engine.fiducialStates id = none) :
    lookup id system.fiducialsList = none := by
  cases listed : lookup id system.fiducialsList with
  | none => rfl
  | some fiducial =>
      have known := kept.remembered fiducial listed
      rw [unknown] at known
      contradiction

/-- What is remembered of an id is that it was found or lost. -/
theorem memory (kept : Kept id system) {prev : FiducialState}
    (known : system.engine.fiducialStates id = some prev) : prev = .found ∨ prev = .lost := by
  cases listed : lookup id system.fiducialsList with
  | none =>
      rcases kept.forgotten listed with unknown | lost
      · rw [unknown] at known
        contradiction
      · rw [lost] at known
        exact Or.inr (Option.some.inj known).symm
  | some fiducial =>
      rw [kept.remembered fiducial listed] at known
      exact Option.some.inj known ▸ (kept.settled fiducial listed).shown

section Frame

variable (arith : FloatArith F) (junk : OfxFiducial F)

/-- The tracker's part of a frame. -/
theorem observed (kept : Kept id system) (tick : Tick F) :
    (∀ fiducial ∈ system.observed arith junk tick id, Settled fiducial) ∧
      Track.Live ((system.observed arith junk tick id).map OfxFiducial.track) := by
  rcases tick with ⟨_ | fiducials, stale⟩
  · exact ⟨kept.settled, kept.live⟩
  · rcases observe_refines kept.settled (Fiducial.sightings id fiducials) with ⟨settled, next⟩
    refine ⟨settled, ?_⟩
    rw [System.observed, Option.elim_some, next]
    exact Track.live_next kept.live _

/-- A found fiducial does not leave the list in the next frame. -/
theorem lost_of_gone (kept : Kept id system) (tick : Tick F)
    (gone : system.observed arith junk tick id = none) :
    system.engine.fiducialStates id = none ∨ system.engine.fiducialStates id = some .lost := by
  rcases tick with ⟨_ | fiducials, stale⟩
  · exact kept.forgotten gone
  · cases listed : lookup id system.fiducialsList with
    | none => exact kept.forgotten listed
    | some fiducial =>
        have next : (observe arith junk (lookup id system.fiducialsList)
            (Fiducial.sightings id fiducials)).map OfxFiducial.track =
              Track.next ((lookup id system.fiducialsList).map OfxFiducial.track)
                (Fiducial.sightings id fiducials).length :=
          (observe_refines kept.settled _).2
        have live := kept.live fiducial.track
        have notObserved : observe arith junk (lookup id system.fiducialsList)
            (Fiducial.sightings id fiducials) = none := gone
        rw [notObserved, listed, Option.map_none, Option.map_some] at next
        rw [listed] at live
        have lost : fiducial.track.found = false :=
          Track.lost_of_next_eq_none (live rfl) next.symm
        rw [kept.remembered fiducial listed]
        rcases (kept.settled fiducial listed).shown with found | isLost
        · exact absurd found (by simpa [OfxFiducial.track] using lost)
        · exact Or.inr (congrArg some isLost)

/-- A frame keeps it. -/
theorem advance (kept : Kept id system) (math : VectorMath F) (tick : Tick F) :
    Kept id (system.advance arith math junk tick).1 := by
  have listed := lookup_advance arith math junk kept.distinct tick id
  have states := (advance_of_watched arith math junk kept.distinct tick kept.watched).1
  rcases kept.observed arith junk tick with ⟨settled, live⟩
  refine
    { distinct := distinctIds_advance arith math junk kept.distinct tick
      settled := ?_
      live := ?_
      watched := by
        rw [advance_ignoreFiducialIds]
        exact kept.watched
      remembered := ?_
      forgotten := ?_ }
  · rw [listed]
    intro fiducial isListed
    rcases Option.map_eq_some_iff.mp isListed with ⟨seen, isSeen, rfl⟩
    exact settled_scannedFiducial arith system.engine (settled seen isSeen)
  · have sameTrack : OfxFiducial.track ∘ scannedFiducial arith system.engine =
        OfxFiducial.track :=
      funext fun fiducial => track_scannedFiducial arith system.engine fiducial
    rw [listed, Option.map_map, sameTrack]
    exact live
  · rw [listed, states]
    intro fiducial isListed
    rcases Option.map_eq_some_iff.mp isListed with ⟨seen, isSeen, rfl⟩
    rw [isSeen, recorded, Option.elim_some, scannedFiducial_state]
  · rw [listed, states]
    intro isNone
    have gone := Option.map_eq_none_iff.mp isNone
    rw [gone]
    exact kept.lost_of_gone arith junk tick gone

/-- It holds after every run of frames. -/
theorem systemRun (math : VectorMath F) {settings : Engine F}
    (watched : id ∉ settings.ignoreFiducialIds) (ticks : List (Tick F)) :
    Kept id (systemRun arith math junk settings ticks).1 := by
  induction ticks using List.reverseRecOn with
  | nil => exact Kept.start watched
  | append_singleton past tick ih =>
      rw [systemRun_concat]
      exact ih.advance arith junk math tick

end Frame

end Kept

end OfxPrimes.Physics
