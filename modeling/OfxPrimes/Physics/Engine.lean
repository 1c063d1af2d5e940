import OfxPrimes.Fiducial.Tracker
import OfxPrimes.Physics.Routines

/-!
# The physics engine

`Engine::update` tells its listeners what became of each listed fiducial, and
then of the ray of each.  It remembers the last state it saw of an id in
`fiducialStates` and the target of its ray in `fiducialEdges`.  A map is a
function to options, an iterator into one is the key it stands at, and what
`->second` reads is what the map holds then.  `fiducialPhysicsTypes` is empty,
so every ray is found by the default routine.
-/

namespace OfxPrimes.Physics

open OfxPrimes.Fiducial

variable {F : Type}

/-- The three events about a fiducial. -/
inductive StatusEvent
  | found
  | lost
  | updated
  deriving DecidableEq, Repr

/-- The four events about a ray. -/
inductive RayEvent
  | found
  | lost
  | updated
  | termination
  deriving DecidableEq, Repr

/-- A call of `ofNotifyEvent`. -/
inductive Notification (F : Type)
  | status (event : StatusEvent) (fiducial : OfxFiducial F) (conversion : Conversion F)
  | ray (event : RayEvent) (args : RayArgs F)
  deriving DecidableEq, Repr

/-- `class Engine`. -/
structure Engine (F : Type) where
  ignoreFiducialIds : List Int
  bForceFiducialCorners : Bool
  windowCorners : Option (List (Point F))
  fiducialStates : Int → Option FiducialState
  fiducialEdges : Int → Option Int
  commonStatusArgs : Conversion F
  commonIntersectionArgs : Conversion F
  dummyFiducial : OfxFiducial F

/-- An engine with the given settings that has seen nothing yet. -/
def Engine.start (settings : Engine F) : Engine F :=
  { settings with fiducialStates := fun _ => none, fiducialEdges := fun _ => none }

/-! ## The status loop -/

/-- The event, if any, for a fiducial whose id was last seen in state `prev`. -/
def statusEvent (state prev : FiducialState) : Option StatusEvent :=
  if state = .found then
    if prev = .found then some .updated else some .found
  else if state = .lost then
    if prev ≠ .lost then some .lost else none
  else none

/-- The corners of a fiducial that has not been asked to keep them. -/
def forceCorners (arith : FloatArith F) (engine : Engine F) (fiducial : OfxFiducial F) :
    OfxFiducial F :=
  if engine.bForceFiducialCorners && !fiducial.updateCorners then
    { fiducial.computeCorners arith with updateCorners := true }
  else fiducial

/-- What one round of the status loop leaves in the engine. -/
def Engine.recordState (engine : Engine F) (fiducial : OfxFiducial F) : Engine F :=
  { engine with
    fiducialStates :=
      Function.update engine.fiducialStates fiducial.fidId (some fiducial.state) }

/-- The notification, if any, of one round of the status loop. -/
def Engine.statusNotification (engine : Engine F) (fiducial : OfxFiducial F) :
    List (Notification F) :=
  let fiducialStatePrev := (engine.fiducialStates fiducial.fidId).getD .invalid
  ((statusEvent fiducial.state fiducialStatePrev).map fun event =>
    Notification.status event fiducial engine.commonStatusArgs).toList

/-- The loop that scans for new fiducials. -/
def statusLoop (arith : FloatArith F) :
    Engine F → List (OfxFiducial F) → Engine F × List (OfxFiducial F) × List (Notification F)
  | engine, [] => (engine, [], [])
  | engine, fiducial :: rest =>
      if fiducial.fidId ∈ engine.ignoreFiducialIds then
        let after := statusLoop arith engine rest
        (after.1, fiducial :: after.2.1, after.2.2)
      else
        let cornered := forceCorners arith engine fiducial
        let after := statusLoop arith (engine.recordState cornered) rest
        (after.1, cornered :: after.2.1, engine.statusNotification cornered ++ after.2.2)

/-! ## The ray loop -/

/-- `Engine::validFiducial` of a fiducial that is not `NULL`. -/
def Engine.validFiducial (arith : FloatArith F) (engine : Engine F) (fiducial : OfxFiducial F) :
    Bool :=
  if arith.eq fiducial.current.xpos arith.invalidCoords &&
      arith.eq fiducial.current.ypos arith.invalidCoords then false
  else (engine.fiducialStates fiducial.fidId).isSome

/-- `Engine::validOutputFiducial`. -/
def Engine.validOutputFiducial (arith : FloatArith F) (engine : Engine F)
    (fiducial : OfxFiducial F) : Bool :=
  engine.validFiducial arith fiducial

/-- The variables of the ray loop.  `hitFiducialPrev` is declared without a
value: it starts with whatever the stack holds. -/
structure RayLoop (F : Type) where
  engine : Engine F
  hitFiducialPrev : Option (OfxFiducial F)
  sent : List (Notification F)

/-- Whether the ray of a source went on to something else, as the code asks it
after it may have written the edge: `edgePrev` says whether `find` found one. -/
def edgeIsStale (engine : Engine F) (source : Int) (edgePrev : Option Int)
    (hitFiducial : Option (OfxFiducial F)) (hitFiducialId : Int) : Bool :=
  edgePrev.isSome &&
    (hitFiducial.isNone || engine.fiducialEdges source ≠ some hitFiducialId)

/-- The fiducial that the lost event is made to name. -/
def lostTarget (fiducialsList : List (OfxFiducial F)) (loop : RayLoop F) (source : Int)
    (hitFiducial : Option (OfxFiducial F)) (hitFiducialId : Int) : Option (OfxFiducial F) :=
  if hitFiducial.isNone then loop.hitFiducialPrev
  else if loop.engine.fiducialEdges source ≠ some hitFiducialId then
    -- `find_if` over an empty range returns `begin()`
    match fiducialsList.head? with
    | some first => some first
    | none =>
        some { loop.engine.dummyFiducial with
          fidId := (loop.engine.fiducialEdges source).getD invalidFiducialId }
  else loop.hitFiducialPrev

/-- The found or updated event of a ray that hits something, and the edge it
leaves. -/
def noteHit (loop : RayLoop F) (source : Int) (args : RayArgs F) : RayLoop F :=
  match args.toFiducial with
  | some hitFiducial =>
      if loop.engine.fiducialEdges source = some hitFiducial.fidId then
        { loop with sent := loop.sent ++ [.ray .updated args] }
      else
        { loop with
          engine := { loop.engine with
            fiducialEdges :=
              Function.update loop.engine.fiducialEdges source (some hitFiducial.fidId) }
          sent := loop.sent ++ [.ray .found args] }
  | none => loop

/-- The lost event of a ray that went on, and the edge it takes away. -/
def noteLoss (fiducialsList : List (OfxFiducial F)) (loop : RayLoop F) (source : Int)
    (edgePrev : Option Int) (args : RayArgs F) : RayLoop F :=
  let hitFiducialId := (args.toFiducial.map OfxFiducial.fidId).getD invalidFiducialId
  if edgeIsStale loop.engine source edgePrev args.toFiducial hitFiducialId then
    let hitFiducialPrev := lostTarget fiducialsList loop source args.toFiducial hitFiducialId
    { engine := { loop.engine with
        fiducialEdges := Function.update loop.engine.fiducialEdges source none }
      hitFiducialPrev := hitFiducialPrev
      sent := loop.sent ++ [.ray .lost { args with toFiducial := hitFiducialPrev }] }
  else loop

/-- One round of the loop over the intersection events of a fiducial. -/
def handleRay (fiducialsList : List (OfxFiducial F)) (fiducial : OfxFiducial F)
    (loop : RayLoop F) (intersection : RayArgs F) : RayLoop F :=
  let args := { intersection with conversion := loop.engine.commonIntersectionArgs }
  let edgePrev := loop.engine.fiducialEdges fiducial.fidId
  let noted := noteHit loop fiducial.fidId args
  let terminated :=
    if fiducial.state = .found then
      { noted with sent := noted.sent ++ [.ray .termination args] }
    else noted
  noteLoss fiducialsList terminated fiducial.fidId edgePrev args

/-- One round of the ray loop. -/
def rayStep (arith : FloatArith F) (math : VectorMath F) (fiducialsList : List (OfxFiducial F))
    (loop : RayLoop F) (entry : OfxFiducial F × Nat) : RayLoop F :=
  if loop.engine.validOutputFiducial arith entry.1 then
    (findIntersectionsRay arith math loop.engine.windowCorners fiducialsList entry.2
      entry.1).foldl (handleRay fiducialsList entry.1) loop
  else loop

/-- `Engine::update`: the engine, the tracker's list and the notifications after
the call.  `stale` is what the stack holds where `hit_fiducial_prev` is. -/
def Engine.update (arith : FloatArith F) (math : VectorMath F) (stale : Option (OfxFiducial F))
    (engine : Engine F) (fiducialsList : List (OfxFiducial F)) :
    Engine F × List (OfxFiducial F) × List (Notification F) :=
  let scanned := statusLoop arith engine fiducialsList
  let loop := scanned.2.1.zipIdx.foldl (rayStep arith math scanned.2.1)
    { engine := scanned.1, hitFiducialPrev := stale, sent := scanned.2.2 }
  (loop.engine, scanned.2.1, loop.sent)

end OfxPrimes.Physics
