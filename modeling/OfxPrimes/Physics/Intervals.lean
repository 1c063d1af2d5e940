import OfxPrimes.Physics.Status

/-!
# The ray of a source as intervals

Every call of `Engine::update` tells of the ray of a source: it found a target,
still hits it, lost it.  The events of a run are matched intervals, and the
edges tell which one is open, exactly while each ray hits what its edge names.
-/

namespace OfxPrimes.Physics

open OfxPrimes.Fiducial
open OfxPrimes.Transition

variable {F : Type}

/-- What one call of `Engine::update` meets: the tracker's list, and what the
stack holds where `hit_fiducial_prev` is. -/
structure Call (F : Type) where
  fiducialsList : List (OfxFiducial F)
  stale : Option (OfxFiducial F)

/-- The engine and all it has sent, after one more call. -/
def callUpdate (arith : FloatArith F) (math : VectorMath F)
    (state : Engine F × List (Notification F)) (call : Call F) :
    Engine F × List (Notification F) :=
  let updated := state.1.update arith math call.stale call.fiducialsList
  (updated.1, state.2 ++ updated.2.2)

/-- The engine and all it has sent, after a sequence of calls on a new engine. -/
def updates (arith : FloatArith F) (math : VectorMath F) (settings : Engine F)
    (calls : List (Call F)) : Engine F × List (Notification F) :=
  calls.foldl (callUpdate arith math) (Engine.start settings, [])

/-- The events about the rays of a source are matched intervals, and the edge of
the source names the one that is open. -/
def IntervalsMatched (source : Int) (state : Engine F × List (Notification F)) : Prop :=
  run intervalStep none (rayTrace source state.2) =
    some ((state.1.fiducialEdges source).map some)

/-- In this call, each ray of the source hits what its edge names, if it has one
by then; where it hits nothing any more, the stale pointer happens to point at
what it hit. -/
def SteadyCall (arith : FloatArith F) (math : VectorMath F) (source : Int) (engine : Engine F)
    (call : Call F) : Prop :=
  let scanned := statusLoop arith engine call.fiducialsList
  Steady (call.stale.map OfxFiducial.fidId) (engine.fiducialEdges source)
    (rayHits arith math scanned.2.1 scanned.1 source scanned.2.1.zipIdx)

section Calls

variable (arith : FloatArith F) (math : VectorMath F)

instance (source : Int) (engine : Engine F) (call : Call F) :
    Decidable (SteadyCall arith math source engine call) :=
  Steady.decidable ..

/-- One call from a state with matched intervals. -/
theorem intervalsMatched_callUpdate {source : Int} {state : Engine F × List (Notification F)}
    (isMatched : IntervalsMatched source state) (call : Call F) :
    IntervalsMatched source (callUpdate arith math state call) ↔
      SteadyCall arith math source state.1 call := by
  have edges : (statusLoop arith state.1 call.fiducialsList).1.fiducialEdges =
      state.1.fiducialEdges := by
    rw [statusLoop_engine]
  have sent := run_raySent arith math (statusLoop arith state.1 call.fiducialsList).2.1 call.stale
    source (statusLoop arith state.1 call.fiducialsList).2.1.zipIdx
    (statusLoop arith state.1 call.fiducialsList).1
  rw [edges] at sent
  simp only [IntervalsMatched, callUpdate, update_eq, rayTrace_append, rayTrace_statusLoop,
    List.nil_append]
  rw [run_append_of_eq isMatched, sent]
  constructor
  · intro reached
    by_contra unsteady
    exact absurd (reached.symm.trans (if_neg unsteady)) (Option.some_ne_none _)
  · exact fun steady => if_pos steady

/-- In a run of `Engine::update` on any lists, the events about the rays of a
source are matched intervals after every call exactly when in every call its
rays are steady. -/
theorem intervalsMatched_run_iff (settings : Engine F) (source : Int) (calls : List (Call F)) :
    (∀ past rest, calls = past ++ rest →
        IntervalsMatched source (updates arith math settings past)) ↔
      ∀ past call rest, calls = past ++ call :: rest →
        SteadyCall arith math source (updates arith math settings past).1 call := by
  have start : IntervalsMatched source ((Engine.start settings, []) :
      Engine F × List (Notification F)) := rfl
  exact foldl_invariant_iff (IntervalsMatched source)
    (fun _ isMatched call => intervalsMatched_callUpdate arith math isMatched call) start calls

end Calls

/-! ## Runs with rational coordinates -/

/-- An engine with a window of the given size. -/
def rationalEngine (ignoreFiducialIds : List Int) (width height : Rat) :
    Engine (Option Rat) :=
  let zero : Option Rat := some 0
  let unit : Point (Option Rat) := ⟨some 1, some 1⟩
  { ignoreFiducialIds := ignoreFiducialIds
    bForceFiducialCorners := true
    windowCorners := some
      [⟨zero, zero⟩, ⟨some width, zero⟩, ⟨some width, some height⟩, ⟨zero, some height⟩]
    fiducialStates := fun _ => none
    fiducialEdges := fun _ => none
    commonStatusArgs := ⟨unit, unit⟩
    commonIntersectionArgs := ⟨unit, unit⟩
    dummyFiducial := .zeroed .rational }

/-- A found fiducial with sides of 20 that shoots its ray to the right. -/
def rightwards (id : Int) (x y : Rat) : OfxFiducial (Option Rat) :=
  let current : Frame (Option Rat) :=
    { xpos := some x, ypos := some y, angle := FloatArith.rational.twoPi }
  { fidId := id
    rSize := some 20
    lSize := some 2
    current := current
    last := current
    updateCorners := true
    cornerPoints :=
      [⟨some (x + 10), some (y - 10)⟩, ⟨some (x - 10), some (y - 10)⟩,
        ⟨some (x - 10), some (y + 10)⟩, ⟨some (x + 10), some (y + 10)⟩]
    life := 4
    state := .found
    alive := true
    updated := false
    cornersUpdated := true }

/-- A third fiducial comes between a fiducial and the one its ray hits. -/
def interceptedRay : List (Call (Option Rat)) :=
  [⟨[rightwards 1 100 100, rightwards 2 300 100], none⟩,
    ⟨[rightwards 1 100 100, rightwards 2 300 100, rightwards 3 200 100], none⟩]

/-- The ray goes over to the nearer target, and no event tells of the loss. -/
theorem intervals_overlap :
    rayTrace 1 (updates .rational (.ofArith .rational) (rationalEngine [] 640 480)
        interceptedRay).2 = [.opened (some 2), .opened (some 3)] ∧
      ¬ IntervalsMatched 1 (updates .rational (.ofArith .rational) (rationalEngine [] 640 480)
        interceptedRay) := by
  have trace : rayTrace 1 (updates .rational (.ofArith .rational) (rationalEngine [] 640 480)
      interceptedRay).2 = [.opened (some 2), .opened (some 3)] := by
    decide +kernel
  refine ⟨trace, fun isMatched => ?_⟩
  rw [IntervalsMatched, trace] at isMatched
  exact absurd isMatched (by simp [intervalStep])

end OfxPrimes.Physics
