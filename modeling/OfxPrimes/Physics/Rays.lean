import OfxPrimes.Physics.Engine
import OfxPrimes.Transition.Interval

/-!
# What the ray loop tells its listeners

`fiducialEdgePrev` is an iterator into the map that is written while the
iterator is still compared.  So the code that should notice that a ray went over
to another target compares the new target with itself and never runs: no lost
event is sent for the old one.  When a ray stops hitting anything, the lost
event names whatever `hit_fiducial_prev` happens to hold, since no path has
assigned it.
-/

namespace OfxPrimes.Physics

open OfxPrimes.Fiducial
open OfxPrimes.Transition

variable {F : Type}

/-- The notifications of one ray, from the edge it had before. -/
def rayNotifications (fiducial : OfxFiducial F) (stale : Option (OfxFiducial F))
    (edge : Option Int) (args : RayArgs F) : List (Notification F) :=
  let hit := args.toFiducial.map OfxFiducial.fidId
  (if hit.isNone then [] else if edge = hit then [.ray .updated args] else [.ray .found args]) ++
    (if fiducial.state = .found then [.ray .termination args] else []) ++
      (if hit.isNone && edge.isSome then [.ray .lost { args with toFiducial := stale }] else [])

/-- One ray in full: the edge becomes what the ray hits, and the pointer to the
previous target is never assigned. -/
theorem handleRay_eq (fiducialsList : List (OfxFiducial F)) (fiducial : OfxFiducial F)
    (loop : RayLoop F) (intersection : RayArgs F) :
    handleRay fiducialsList fiducial loop intersection =
      { engine := { loop.engine with
          fiducialEdges := Function.update loop.engine.fiducialEdges fiducial.fidId
            (intersection.toFiducial.map OfxFiducial.fidId) }
        hitFiducialPrev := loop.hitFiducialPrev
        sent := loop.sent ++ rayNotifications fiducial loop.hitFiducialPrev
          (loop.engine.fiducialEdges fiducial.fidId)
          { intersection with conversion := loop.engine.commonIntersectionArgs } } := by
  rcases loop with ⟨engine, stale, sent⟩
  rcases intersection with ⟨fromFiducial, toFiducial, fromPt, toPt, conversion⟩
  cases toFiducial with
  | none =>
      cases edge : engine.fiducialEdges fiducial.fidId with
      | none =>
          have kept : Function.update engine.fiducialEdges fiducial.fidId none =
              engine.fiducialEdges := Function.update_eq_self_iff.mpr edge.symm
          by_cases found : fiducial.state = .found <;>
            simp [handleRay, noteHit, noteLoss, edgeIsStale, rayNotifications, edge, found, kept]
      | some target =>
          by_cases found : fiducial.state = .found <;>
            simp [handleRay, noteHit, noteLoss, edgeIsStale, lostTarget, rayNotifications, edge,
              found]
  | some hit =>
      by_cases same : engine.fiducialEdges fiducial.fidId = some hit.fidId
      · have kept : Function.update engine.fiducialEdges fiducial.fidId (some hit.fidId) =
            engine.fiducialEdges := Function.update_eq_self_iff.mpr same.symm
        by_cases found : fiducial.state = .found <;>
          simp [handleRay, noteHit, noteLoss, edgeIsStale, rayNotifications, same, found, kept]
      · by_cases found : fiducial.state = .found <;>
          simp [handleRay, noteHit, noteLoss, edgeIsStale, rayNotifications, same, found]

/-! ## The ray of one entry of the list -/

/-- The arguments of the notifications about the ray of an entry. -/
def rayArgs (arith : FloatArith F) (math : VectorMath F) (engine : Engine F)
    (fiducialsList : List (OfxFiducial F)) (entry : OfxFiducial F × Nat) : RayArgs F :=
  { shootRay arith math engine.windowCorners fiducialsList entry.2 entry.1 with
    conversion := engine.commonIntersectionArgs }

/-- What the ray of an entry hits, by its id. -/
def rayHit (arith : FloatArith F) (math : VectorMath F) (engine : Engine F)
    (fiducialsList : List (OfxFiducial F)) (entry : OfxFiducial F × Nat) : Option Int :=
  (shootRay arith math engine.windowCorners fiducialsList entry.2 entry.1).toFiducial.map
    OfxFiducial.fidId

/-- The engine after a ray of `source` that hits `hit`. -/
def Engine.followRay (engine : Engine F) (source : Int) (hit : Option Int) : Engine F :=
  { engine with fiducialEdges := Function.update engine.fiducialEdges source hit }

theorem Engine.followRay_self (engine : Engine F) (source : Int) (hit : Option Int) :
    (engine.followRay source hit).fiducialEdges source = hit :=
  Function.update_self ..

theorem Engine.followRay_of_ne (engine : Engine F) {source other : Int} (apart : other ≠ source)
    (hit : Option Int) :
    (engine.followRay other hit).fiducialEdges source = engine.fiducialEdges source :=
  Function.update_of_ne (Ne.symm apart) ..

/-- The engine after the rays of some entries. -/
def followRays (arith : FloatArith F) (math : VectorMath F)
    (fiducialsList : List (OfxFiducial F)) :
    Engine F → List (OfxFiducial F × Nat) → Engine F
  | engine, [] => engine
  | engine, entry :: rest =>
      if engine.validOutputFiducial arith entry.1 then
        followRays arith math fiducialsList
          (engine.followRay entry.1.fidId (rayHit arith math engine fiducialsList entry)) rest
      else followRays arith math fiducialsList engine rest

/-- The notifications about the rays of some entries. -/
def raySent (arith : FloatArith F) (math : VectorMath F) (fiducialsList : List (OfxFiducial F))
    (stale : Option (OfxFiducial F)) :
    Engine F → List (OfxFiducial F × Nat) → List (Notification F)
  | _, [] => []
  | engine, entry :: rest =>
      if engine.validOutputFiducial arith entry.1 then
        rayNotifications entry.1 stale (engine.fiducialEdges entry.1.fidId)
            (rayArgs arith math engine fiducialsList entry) ++
          raySent arith math fiducialsList stale
            (engine.followRay entry.1.fidId (rayHit arith math engine fiducialsList entry)) rest
      else raySent arith math fiducialsList stale engine rest

section Loop

variable (arith : FloatArith F) (math : VectorMath F) (fiducialsList : List (OfxFiducial F))

/-- The ray loop in full. -/
theorem rayLoop_eq (entries : List (OfxFiducial F × Nat)) (loop : RayLoop F) :
    entries.foldl (rayStep arith math fiducialsList) loop =
      { engine := followRays arith math fiducialsList loop.engine entries
        hitFiducialPrev := loop.hitFiducialPrev
        sent := loop.sent ++
          raySent arith math fiducialsList loop.hitFiducialPrev loop.engine entries } := by
  induction entries generalizing loop with
  | nil => simp [followRays, raySent]
  | cons entry rest ih =>
      rw [List.foldl_cons, ih]
      by_cases valid : loop.engine.validOutputFiducial arith entry.1 = true
      · have round : rayStep arith math fiducialsList loop entry =
            { engine := loop.engine.followRay entry.1.fidId
                (rayHit arith math loop.engine fiducialsList entry)
              hitFiducialPrev := loop.hitFiducialPrev
              sent := loop.sent ++ rayNotifications entry.1 loop.hitFiducialPrev
                (loop.engine.fiducialEdges entry.1.fidId)
                (rayArgs arith math loop.engine fiducialsList entry) } := by
          rw [rayStep, if_pos valid, findIntersectionsRay, List.foldl_cons, List.foldl_nil,
            handleRay_eq]
          rfl
        rw [round, followRays, raySent, if_pos valid, if_pos valid, List.append_assoc]
      · have round : rayStep arith math fiducialsList loop entry = loop := if_neg valid
        rw [round, followRays, raySent, if_neg valid, if_neg valid]

/-- The rays change nothing in the engine but the edges. -/
theorem followRays_eq (entries : List (OfxFiducial F × Nat)) (engine : Engine F) :
    followRays arith math fiducialsList engine entries =
      { engine with
        fiducialEdges :=
          (followRays arith math fiducialsList engine entries).fiducialEdges } := by
  induction entries generalizing engine with
  | nil => rfl
  | cons entry rest ih =>
      rw [followRays]
      split
      · rw [ih]
        rfl
      · exact ih engine

end Loop

/-! ## The intervals of one source -/

/-- What an event about a ray means for the interval of its target. -/
def RayEvent.interval (event : RayEvent) (target : Option Int) :
    Option (IntervalEvent (Option Int)) :=
  match event with
  | .found => some (.opened target)
  | .updated => some (.touched target)
  | .lost => some (.closed target)
  | .termination => none

/-- What a notification means for the intervals of a source. -/
def rayInterval (source : Int) : Notification F → Option (IntervalEvent (Option Int))
  | .status _ _ _ => none
  | .ray event args =>
      if args.fromFiducial.map OfxFiducial.fidId = some source then
        event.interval (args.toFiducial.map OfxFiducial.fidId)
      else none

/-- The intervals that the notifications about the rays of a source tell of. -/
def rayTrace (source : Int) (sent : List (Notification F)) :
    List (IntervalEvent (Option Int)) :=
  sent.filterMap (rayInterval source)

/-- The intervals that one ray tells of. -/
def rayIntervals (stale edge hit : Option Int) : List (IntervalEvent (Option Int)) :=
  (if hit.isNone then [] else if edge = hit then [.touched hit] else [.opened hit]) ++
    (if hit.isNone && edge.isSome then [.closed stale] else [])

/-- The ray hits what its edge names, if it has one.  When it hits nothing any
more, the stale pointer happens to point at what it hit. -/
def Follows (stale edge hit : Option Int) : Prop :=
  edge = none ∨ hit = edge ∨ hit = none ∧ stale = edge

instance (stale edge hit : Option Int) : Decidable (Follows stale edge hit) :=
  inferInstanceAs (Decidable (_ ∨ _ ∨ _ ∧ _))

/-- Each ray of a sequence hits what the edge left by those before it names. -/
def Steady (stale : Option Int) : Option Int → List (Option Int) → Prop
  | _, [] => True
  | edge, hit :: rest => Follows stale edge hit ∧ Steady stale hit rest

instance Steady.decidable (stale : Option Int) :
    ∀ edge hits, Decidable (Steady stale edge hits)
  | _, [] => isTrue trivial
  | edge, hit :: rest =>
      have : Decidable (Steady stale hit rest) := Steady.decidable stale hit rest
      inferInstanceAs (Decidable (Follows stale edge hit ∧ Steady stale hit rest))

/-- One ray keeps the intervals matched exactly when it follows its edge. -/
theorem run_rayIntervals (stale edge hit : Option Int) :
    run intervalStep (edge.map some) (rayIntervals stale edge hit) =
      if Follows stale edge hit then some (hit.map some) else none := by
  cases edge with
  | none => cases hit <;> simp [rayIntervals, Follows, intervalStep]
  | some current =>
      cases hit with
      | none => by_cases lucky : stale = some current <;>
          simp [rayIntervals, Follows, intervalStep, lucky]
      | some target =>
          by_cases same : current = target
          · simp [rayIntervals, Follows, intervalStep, same]
          · simp [rayIntervals, Follows, intervalStep, same, Ne.symm same]

theorem rayTrace_append (source : Int) (first second : List (Notification F)) :
    rayTrace source (first ++ second) = rayTrace source first ++ rayTrace source second :=
  List.filterMap_append ..

theorem rayTrace_singleton (source : Int) (notification : Notification F) :
    rayTrace source [notification] = (rayInterval source notification).toList := by
  rw [rayTrace, List.filterMap_cons]
  cases rayInterval source notification <;> rfl

theorem rayInterval_ray {fiducial : OfxFiducial F} {args : RayArgs F}
    (isFrom : args.fromFiducial = some fiducial) (event : RayEvent) (source : Int) :
    rayInterval source (.ray event args) =
      if fiducial.fidId = source then
        event.interval (args.toFiducial.map OfxFiducial.fidId)
      else none := by
  simp only [rayInterval, isFrom, Option.map_some, Option.some.injEq]

theorem rayTrace_rayNotifications {fiducial : OfxFiducial F} {args : RayArgs F}
    (isFrom : args.fromFiducial = some fiducial) (stale : Option (OfxFiducial F))
    (edge : Option Int) (source : Int) :
    rayTrace source (rayNotifications fiducial stale edge args) =
      if fiducial.fidId = source then
        rayIntervals (stale.map OfxFiducial.fidId) edge (args.toFiducial.map OfxFiducial.fidId)
      else [] := by
  have sent : ∀ event, rayTrace source [.ray event args] =
      if fiducial.fidId = source then
        (event.interval (args.toFiducial.map OfxFiducial.fidId)).toList
      else [] := by
    intro event
    rw [rayTrace_singleton, rayInterval_ray isFrom]
    split <;> rfl
  have sentLost : rayTrace source [.ray .lost { args with toFiducial := stale }] =
      if fiducial.fidId = source then [.closed (stale.map OfxFiducial.fidId)] else [] := by
    have lostFrom : ({ args with toFiducial := stale } : RayArgs F).fromFiducial =
        some fiducial := isFrom
    rw [rayTrace_singleton, rayInterval_ray lostFrom]
    split <;> rfl
  have nothing : rayTrace source ([] : List (Notification F)) = [] := rfl
  simp only [rayNotifications, rayIntervals, rayTrace_append, apply_ite (rayTrace source), sent,
    sentLost, nothing]
  by_cases same : fiducial.fidId = source
  · simp only [if_pos same, RayEvent.interval, Option.toList, ite_self, List.append_nil]
  · simp only [if_neg same, ite_self, List.append_nil]

section Loop

variable (arith : FloatArith F) (math : VectorMath F) (fiducialsList : List (OfxFiducial F))

/-- What the rays of a source hit, in the order in which they are shot. -/
def rayHits (engine : Engine F) (source : Int) (entries : List (OfxFiducial F × Nat)) :
    List (Option Int) :=
  (entries.filter fun entry =>
    entry.1.fidId = source ∧ engine.validOutputFiducial arith entry.1 = true).map
      (rayHit arith math engine fiducialsList)

theorem rayHits_cons_of_pos {engine : Engine F} {source : Int} {entry : OfxFiducial F × Nat}
    (same : entry.1.fidId = source) (valid : engine.validOutputFiducial arith entry.1 = true)
    (rest : List (OfxFiducial F × Nat)) :
    rayHits arith math fiducialsList engine source (entry :: rest) =
      rayHit arith math engine fiducialsList entry ::
        rayHits arith math fiducialsList engine source rest := by
  simp [rayHits, same, valid]

theorem rayHits_cons_of_neg {engine : Engine F} {source : Int} {entry : OfxFiducial F × Nat}
    (other : ¬ (entry.1.fidId = source ∧ engine.validOutputFiducial arith entry.1 = true))
    (rest : List (OfxFiducial F × Nat)) :
    rayHits arith math fiducialsList engine source (entry :: rest) =
      rayHits arith math fiducialsList engine source rest := by
  rw [rayHits, List.filter_cons_of_neg (by simpa using other), rayHits]

/-- The rays of a source keep its intervals matched exactly when they are
steady, and the edge then names the open one. -/
theorem run_raySent (stale : Option (OfxFiducial F)) (source : Int)
    (entries : List (OfxFiducial F × Nat)) (engine : Engine F) :
    run intervalStep ((engine.fiducialEdges source).map some)
        (rayTrace source (raySent arith math fiducialsList stale engine entries)) =
      if Steady (stale.map OfxFiducial.fidId) (engine.fiducialEdges source)
          (rayHits arith math fiducialsList engine source entries) then
        some (((followRays arith math fiducialsList engine entries).fiducialEdges source).map some)
      else none := by
  induction entries generalizing engine with
  | nil => simp [raySent, rayTrace, rayHits, Steady, followRays]
  | cons entry rest ih =>
      by_cases valid : engine.validOutputFiducial arith entry.1 = true
      · have isFrom : (rayArgs arith math engine fiducialsList entry).fromFiducial =
            some entry.1 := rfl
        have target : (rayArgs arith math engine fiducialsList entry).toFiducial.map
            OfxFiducial.fidId = rayHit arith math engine fiducialsList entry := rfl
        have restSent := ih (engine.followRay entry.1.fidId
          (rayHit arith math engine fiducialsList entry))
        rw [raySent, followRays, if_pos valid, if_pos valid, rayTrace_append,
          rayTrace_rayNotifications isFrom, target]
        by_cases same : entry.1.fidId = source
        · subst same
          rw [Engine.followRay_self] at restSent
          rw [if_pos rfl, run_append, run_rayIntervals,
            rayHits_cons_of_pos arith math fiducialsList rfl valid]
          by_cases follows : Follows (stale.map OfxFiducial.fidId)
              (engine.fiducialEdges entry.1.fidId) (rayHit arith math engine fiducialsList entry)
          · rw [if_pos follows, Option.bind_some, restSent]
            exact if_congr (and_iff_right follows).symm rfl rfl
          · rw [if_neg follows, Option.bind_none, if_neg fun steady => follows steady.1]
        · rw [Engine.followRay_of_ne engine same] at restSent
          rw [if_neg same, List.nil_append, restSent,
            rayHits_cons_of_neg arith math fiducialsList fun both => same both.1]
          rfl
      · rw [raySent, followRays, if_neg valid, if_neg valid,
          rayHits_cons_of_neg arith math fiducialsList fun both => valid both.2]
        exact ih engine

end Loop

end OfxPrimes.Physics
