import OfxPrimes.Physics.Status

/-!
# The segments that the graph draws

`GuiGraph` keeps one segment an id.  It draws the segment when the ray of the id
is followed to its end, and takes it away when the id is lost.  No event tells
that a fiducial has left the list, so a segment goes away in time only because
a found fiducial has life enough to be seen lost before it is erased.
-/

namespace OfxPrimes.Gui

open OfxPrimes.Fiducial
open OfxPrimes.Physics
open OfxPrimes.Pool
open OfxPrimes.Transition

variable {F : Type}

/-- `class GuiGraph`: of each page the flag `enabled`, and the segments. -/
structure GuiGraph (F : Type) where
  pages : Int → Option Bool
  segments : Int → Option (Point F × Point F)

namespace GuiGraph

/-- A new graph. -/
def empty : GuiGraph F :=
  { pages := fun _ => none
    segments := fun _ => none }

/-- `TRIM_RAY_PIXELS`. -/
def trimRayPixels (arith : FloatArith F) : F :=
  arith.ofInt 16

/-- `GuiGraph::fiducialLost`. -/
def fiducialLost (graph : GuiGraph F) (fiducial : OfxFiducial F) : GuiGraph F :=
  { pages := Function.update graph.pages fiducial.fidId
      ((graph.pages fiducial.fidId).map fun _ => false)
    segments := Function.update graph.segments fiducial.fidId none }

/-- `GuiGraph::fiducialRayTermination`. -/
def fiducialRayTermination (arith : FloatArith F) (math : VectorMath F) (graph : GuiGraph F)
    (args : RayArgs F) : GuiGraph F :=
  match args.fromFiducial with
  | none => graph
  | some source =>
      let fromPt := math.mul args.fromPt args.conversion.toWindow
      let toPt := math.mul args.toPt args.conversion.toWindow
      let dist := math.distance fromPt toPt
      let trimPct := arith.div (trimRayPixels arith) dist
      let drawFrom := math.getInterpolated fromPt toPt trimPct
      let drawTo :=
        if args.toFiducial.isSome then
          math.getInterpolated fromPt toPt (arith.sub (arith.ofInt 1) trimPct)
        else toPt
      { graph with
        segments := Function.update graph.segments source.fidId (some (drawFrom, drawTo)) }

/-- What a graph that listens to `fiducialLostEvt` and `fiducialRayTerminationEvt`
does on a call of `ofNotifyEvent`. -/
def listen (arith : FloatArith F) (math : VectorMath F) (graph : GuiGraph F) :
    Notification F → GuiGraph F
  | .status .lost fiducial _ => graph.fiducialLost fiducial
  | .ray .termination args => graph.fiducialRayTermination arith math args
  | _ => graph

/-- A new graph that has listened to all that was sent. -/
def heard (arith : FloatArith F) (math : VectorMath F) (sent : List (Notification F)) :
    GuiGraph F :=
  sent.foldl (listen arith math) empty

end GuiGraph

/-! ## Whether the segment of an id is there -/

/-- Whether a notification draws the segment of an id or takes it away. -/
def segmentChange (id : Int) : Notification F → Option Bool
  | .status .lost fiducial _ => if fiducial.fidId = id then some false else none
  | .ray .termination args =>
      if args.fromFiducial.map OfxFiducial.fidId = some id then some true else none
  | _ => none

/-- Whether the segment of an id is there after a notification. -/
def drawn (id : Int) (shown : Bool) (notification : Notification F) : Bool :=
  (segmentChange id notification).getD shown

/-- Whether the segment of an id is there after an event about the id. -/
def erased (shown : Bool) : IntervalEvent Unit → Bool
  | .closed () => false
  | _ => shown

section Graph

variable {arith : FloatArith F} {math : VectorMath F}

theorem isSome_update (segments : Int → Option (Point F × Point F)) (key id : Int)
    (value : Option (Point F × Point F)) :
    (Function.update segments key value id).isSome =
      if key = id then value.isSome else (segments id).isSome := by
  by_cases same : key = id
  · subst same
    rw [Function.update_self, if_pos rfl]
  · rw [Function.update_of_ne (Ne.symm same), if_neg same]

theorem isSome_listen (graph : GuiGraph F) (notification : Notification F) (id : Int) :
    ((graph.listen arith math notification).segments id).isSome =
      drawn id (graph.segments id).isSome notification := by
  cases notification with
  | status event fiducial conversion =>
      cases event with
      | found => rfl
      | updated => rfl
      | lost =>
          rw [GuiGraph.listen, GuiGraph.fiducialLost, isSome_update, drawn, segmentChange]
          split <;> rfl
  | ray event args =>
      cases event with
      | found => rfl
      | updated => rfl
      | lost => rfl
      | termination =>
          rw [GuiGraph.listen, GuiGraph.fiducialRayTermination, drawn, segmentChange]
          cases args.fromFiducial with
          | none => rfl
          | some source =>
              rw [Option.map_some, isSome_update]
              by_cases same : source.fidId = id
              · rw [if_pos same, if_pos (congrArg some same)]
                rfl
              · rw [if_neg same, if_neg fun equal => same (Option.some.inj equal)]
                rfl

theorem isSome_foldl (sent : List (Notification F)) (graph : GuiGraph F) (id : Int) :
    ((sent.foldl (GuiGraph.listen arith math) graph).segments id).isSome =
      sent.foldl (drawn id) (graph.segments id).isSome := by
  induction sent generalizing graph with
  | nil => rfl
  | cons notification rest ih =>
      rw [List.foldl_cons, List.foldl_cons, ih, isSome_listen]

theorem isSome_heard (sent : List (Notification F)) (id : Int) :
    ((GuiGraph.heard arith math sent).segments id).isSome =
      sent.foldl (drawn id) false :=
  isSome_foldl sent GuiGraph.empty id

/-! ## The notifications of the status loop -/

theorem drawn_status (event : StatusEvent) (fiducial : OfxFiducial F) (conversion : Conversion F)
    (id : Int) (shown : Bool) :
    drawn id shown (.status event fiducial conversion) =
      (statusInterval id (.status event fiducial conversion)).elim shown (erased shown) := by
  by_cases same : fiducial.fidId = id
  · cases event <;> simp [drawn, segmentChange, statusInterval, same, StatusEvent.interval, erased]
  · cases event <;> simp [drawn, segmentChange, statusInterval, same]

theorem foldl_drawn_of_status {sent : List (Notification F)}
    (isStatus : ∀ notification ∈ sent, ∃ event fiducial conversion,
      notification = .status event fiducial conversion) (id : Int) (shown : Bool) :
    sent.foldl (drawn id) shown = (statusTrace id sent).foldl erased shown := by
  induction sent generalizing shown with
  | nil => rfl
  | cons notification rest ih =>
      rcases isStatus notification List.mem_cons_self with ⟨event, fiducial, conversion, rfl⟩
      have restIh := ih fun later mem => isStatus later (List.mem_cons_of_mem _ mem)
      rw [List.foldl_cons, restIh, drawn_status, statusTrace, statusTrace, List.filterMap_cons]
      cases statusInterval id (.status event fiducial conversion) with
      | none => rfl
      | some interval => rfl

variable (arith) in
theorem statusLoop_isStatus (engine : Engine F) (fiducialsList : List (OfxFiducial F)) :
    ∀ notification ∈ (statusLoop arith engine fiducialsList).2.2, ∃ event fiducial conversion,
      notification = .status event fiducial conversion := by
  induction fiducialsList generalizing engine with
  | nil => exact fun _ mem => absurd mem List.not_mem_nil
  | cons fiducial rest ih =>
      rw [statusLoop]
      split
      · exact ih engine
      · intro notification mem
        rcases List.mem_append.mp mem with now | later
        · rw [Engine.statusNotification, Option.mem_toList] at now
          rcases Option.map_eq_some_iff.mp now with ⟨event, -, rfl⟩
          exact ⟨event, _, _, rfl⟩
        · exact ih _ notification later

/-- A report takes the segment away exactly when it is the first of a loss. -/
theorem foldl_erased_reported (state prev : FiducialState) (shown : Bool) :
    (reported state prev).foldl erased shown =
      (shown && !(decide (state = .lost) && decide (prev ≠ .lost))) := by
  cases state <;> cases prev <;> cases shown <;> rfl

/-- No event about an id brings a segment back. -/
theorem foldl_erased_false (events : List (IntervalEvent Unit)) :
    events.foldl erased false = false := by
  induction events with
  | nil => rfl
  | cons event rest ih =>
      have still : erased false event = false := by
        cases event <;> rfl
      rw [List.foldl_cons, still, ih]

/-! ## The notifications of the ray loop -/

theorem drawn_ray_of_ne {event : RayEvent} (other : event ≠ .termination) (args : RayArgs F)
    (id : Int) (shown : Bool) : drawn id shown (.ray event args) = shown := by
  cases event with
  | found => rfl
  | updated => rfl
  | lost => rfl
  | termination => exact absurd rfl other

theorem foldl_drawn_rayNotifications {fiducial : OfxFiducial F} {args : RayArgs F}
    (isFrom : args.fromFiducial = some fiducial) (stale : Option (OfxFiducial F))
    (edge : Option Int) (id : Int) (shown : Bool) :
    (rayNotifications fiducial stale edge args).foldl (drawn id) shown =
      (shown || (decide (fiducial.fidId = id) && decide (fiducial.state = .found))) := by
  have updated : RayEvent.updated ≠ .termination := by decide
  have found : RayEvent.found ≠ .termination := by decide
  have lost : RayEvent.lost ≠ .termination := by decide
  have terminated : ∀ before, drawn id before (.ray .termination args) =
      (before || decide (fiducial.fidId = id)) := by
    intro before
    by_cases same : fiducial.fidId = id <;> simp [drawn, segmentChange, isFrom, same]
  have hitKeeps : ∀ before,
      (if (args.toFiducial.map OfxFiducial.fidId).isNone then []
        else if edge = args.toFiducial.map OfxFiducial.fidId then
          [Notification.ray .updated args] else [.ray .found args]).foldl (drawn id) before =
        before := by
    intro before
    split
    · rfl
    · split
      · exact drawn_ray_of_ne updated args id before
      · exact drawn_ray_of_ne found args id before
  have lossKeeps : ∀ before,
      (if (args.toFiducial.map OfxFiducial.fidId).isNone && edge.isSome then
          [Notification.ray .lost { args with toFiducial := stale }] else []).foldl
        (drawn id) before = before := by
    intro before
    split
    · exact drawn_ray_of_ne lost { args with toFiducial := stale } id before
    · rfl
  rw [rayNotifications, List.foldl_append, List.foldl_append, lossKeeps, hitKeeps]
  by_cases found : fiducial.state = .found
  · rw [if_pos found, List.foldl_cons, List.foldl_nil, terminated, decide_eq_true found,
      Bool.and_true]
  · rw [if_neg found, List.foldl_nil, decide_eq_false found, Bool.and_false, Bool.or_false]

/-- The rays of an id draw its segment exactly when one of them is valid and
comes from a found fiducial. -/
theorem foldl_drawn_raySent (fiducialsList : List (OfxFiducial F))
    (stale : Option (OfxFiducial F)) (id : Int) (entries : List (OfxFiducial F × Nat))
    (engine : Engine F) (shown : Bool) :
    (raySent arith math fiducialsList stale engine entries).foldl (drawn id) shown =
      (shown || entries.any fun entry => decide (entry.1.fidId = id) &&
        (decide (entry.1.state = .found) && engine.validOutputFiducial arith entry.1)) := by
  induction entries generalizing engine shown with
  | nil => rw [List.any_nil, Bool.or_false, raySent, List.foldl_nil]
  | cons entry rest ih =>
      rw [raySent, List.any_cons]
      by_cases valid : engine.validOutputFiducial arith entry.1 = true
      · have isFrom : (rayArgs arith math engine fiducialsList entry).fromFiducial =
            some entry.1 := rfl
        rw [if_pos valid, List.foldl_append, foldl_drawn_rayNotifications isFrom, ih, valid,
          Bool.and_true, Bool.or_assoc]
        rfl
      · rw [if_neg valid, ih, Bool.eq_false_of_not_eq_true valid, Bool.and_false,
          Bool.and_false, Bool.false_or]

/-- The rays of a list draw the segment of an id exactly when its fiducial is
found and valid. -/
theorem foldl_drawn_raySent_zipIdx {fiducialsList : List (OfxFiducial F)}
    (distinct : DistinctIds fiducialsList) (stale : Option (OfxFiducial F)) (id : Int)
    (engine : Engine F) (shown : Bool) :
    (raySent arith math fiducialsList stale engine fiducialsList.zipIdx).foldl (drawn id) shown =
      (shown || (lookup id fiducialsList).any fun fiducial =>
        decide (fiducial.state = .found) && engine.validOutputFiducial arith fiducial) := by
  have positionless : ∀ test : OfxFiducial F → Bool,
      (fiducialsList.zipIdx.any fun entry => test entry.1) = fiducialsList.any test := by
    intro test
    calc
      (fiducialsList.zipIdx.any fun entry => test entry.1) =
          (fiducialsList.zipIdx.map Prod.fst).any test := List.any_map.symm
      _ = fiducialsList.any test := by rw [List.zipIdx_map_fst]
  rw [foldl_drawn_raySent, ← Keyed.any_lookup distinct]
  exact congrArg _ (positionless fun fiducial => decide (fiducial.fidId = id) &&
    (decide (fiducial.state = .found) && engine.validOutputFiducial arith fiducial))

end Graph

end OfxPrimes.Gui
