import OfxPrimes.Physics.Intervals
import OfxPrimes.Physics.NearestBlocker

/-!
# Which fiducials the rays are said to hit

`validInputFiducial` is to keep fiducials from being hit: those without a place,
those that have not sent a status event, and those of `ignoreHitFiducialIds`.
Nothing calls it.  So the events about rays name whatever a ray meets first,
excluded or not.  In exact arithmetic that is the nearest of the other fiducials
on the way to the edge of the window.
-/

namespace OfxPrimes.Physics

open OfxPrimes.Fiducial
open OfxPrimes.Plane (middle)
open OfxPrimes.Fiducial.FloatArith (exact)

variable {F : Type}

/-- `Engine::validInputFiducial` of a fiducial that is not `NULL`.  No other function
reads `ignoreHitFiducialIds`. -/
def Engine.validInputFiducial (arith : FloatArith F) (engine : Engine F)
    (ignoreHitFiducialIds : List Int) (fiducial : OfxFiducial F) : Bool :=
  if !engine.validFiducial arith fiducial then false
  else if fiducial.fidId ∈ ignoreHitFiducialIds then false
  else true

/-- A found, updated or termination event names the target. -/
def Names (sent : List (Notification F)) (target : OfxFiducial F) : Prop :=
  ∃ event args, Notification.ray event args ∈ sent ∧ event ≠ .lost ∧
    args.toFiducial = some target

/-- All targets that the events name are valid. -/
def TargetsValid (arith : FloatArith F) (ignoreHitFiducialIds : List Int)
    (after : Engine F × List (OfxFiducial F) × List (Notification F)) : Prop :=
  ∀ target, Names after.2.2 target →
    after.1.validInputFiducial arith ignoreHitFiducialIds target = true

/-! ## The targets that are named -/

section Named

variable {target : OfxFiducial F}

@[simp]
theorem not_names_nil : ¬ Names [] target := by
  simp [Names]

theorem names_append {first second : List (Notification F)} :
    Names (first ++ second) target ↔ Names first target ∨ Names second target := by
  constructor
  · rintro ⟨event, args, sent, kind, named⟩
    rcases List.mem_append.mp sent with early | late
    · exact Or.inl ⟨event, args, early, kind, named⟩
    · exact Or.inr ⟨event, args, late, kind, named⟩
  · rintro (⟨event, args, early, kind, named⟩ | ⟨event, args, late, kind, named⟩)
    · exact ⟨event, args, List.mem_append_left _ early, kind, named⟩
    · exact ⟨event, args, List.mem_append_right _ late, kind, named⟩

theorem names_cons {event : RayEvent} {args : RayArgs F} {rest : List (Notification F)} :
    Names (.ray event args :: rest) target ↔
      event ≠ .lost ∧ args.toFiducial = some target ∨ Names rest target := by
  rw [← List.singleton_append, names_append]
  apply or_congr_left
  constructor
  · rintro ⟨_, _, sent, kind, named⟩
    cases List.mem_singleton.mp sent
    exact ⟨kind, named⟩
  · rintro ⟨kind, named⟩
    exact ⟨event, args, List.mem_singleton_self _, kind, named⟩

theorem names_ite_nil {c : Prop} [Decidable c] {sent : List (Notification F)} :
    Names (if c then sent else []) target ↔ c ∧ Names sent target := by
  by_cases sends : c
  · rw [if_pos sends, and_iff_right sends]
  · rw [if_neg sends]
    exact iff_of_false not_names_nil fun both => sends both.1

/-- The events about a ray that hits something name what it hits. -/
theorem names_rayNotifications {fiducial : OfxFiducial F} {stale : Option (OfxFiducial F)}
    {edge : Option Int} {args : RayArgs F} :
    Names (rayNotifications fiducial stale edge args) target ↔ args.toFiducial = some target := by
  cases hit : args.toFiducial with
  | none =>
      simp [rayNotifications, names_append, names_ite_nil, names_cons, hit]
  | some other =>
      by_cases same : edge = some other.fidId
      · simp [rayNotifications, names_ite_nil, names_cons, hit, same]
      · simp [rayNotifications, names_ite_nil, names_cons, hit, same]

/-- The status loop names no target. -/
theorem not_names_statusLoop (arith : FloatArith F) (engine : Engine F)
    (fiducialsList : List (OfxFiducial F)) :
    ¬ Names (statusLoop arith engine fiducialsList).2.2 target := by
  induction fiducialsList generalizing engine with
  | nil => exact not_names_nil
  | cons fiducial rest ih =>
      rw [statusLoop]
      split
      · exact ih engine
      · rw [names_append, not_or]
        refine ⟨?_, ih _⟩
        rintro ⟨event, args, sent, -⟩
        simp [Engine.statusNotification] at sent

variable (arith : FloatArith F) (math : VectorMath F) (fiducialsList : List (OfxFiducial F))

/-- What the search finds on the ray of an entry. -/
def firstOnRay (engine : Engine F) (entry : OfxFiducial F × Nat) : Option (OfxFiducial F) :=
  (shootRay arith math engine.windowCorners fiducialsList entry.2 entry.1).toFiducial

/-- The targets that are named are those that the searches find. -/
theorem names_raySent (stale : Option (OfxFiducial F)) (entries : List (OfxFiducial F × Nat))
    (engine : Engine F) :
    Names (raySent arith math fiducialsList stale engine entries) target ↔
      ∃ entry ∈ entries, engine.validOutputFiducial arith entry.1 = true ∧
        firstOnRay arith math fiducialsList engine entry = some target := by
  induction entries generalizing engine with
  | nil => simp [raySent]
  | cons entry rest ih =>
      rw [raySent]
      by_cases valid : engine.validOutputFiducial arith entry.1 = true
      · rw [if_pos valid, names_append, names_rayNotifications, ih, List.exists_mem_cons_iff]
        exact or_congr (and_iff_right valid).symm Iff.rfl
      · rw [if_neg valid, ih, List.exists_mem_cons_iff]
        exact (or_iff_right fun both => valid both.1).symm

end Named

/-! ## The state before the call -/

section Before

variable (arith : FloatArith F) (math : VectorMath F)

/-- Whether a fiducial has a place and has sent a status event once the status loop is
through: the state recorded before the call counts, and that of any id that is not
ignored. -/
def Shown (engine : Engine F) (fiducial : OfxFiducial F) : Prop :=
  ¬ (arith.eq fiducial.current.xpos arith.invalidCoords = true ∧
      arith.eq fiducial.current.ypos arith.invalidCoords = true) ∧
    (fiducial.fidId ∉ engine.ignoreFiducialIds ∨
      (engine.fiducialStates fiducial.fidId).isSome = true)

/-- The status loop records every listed id that is not ignored. -/
theorem isSome_statusLoop (engine : Engine F) (fiducialsList : List (OfxFiducial F)) (id : Int) :
    ((statusLoop arith engine fiducialsList).1.fiducialStates id).isSome = true ↔
      (engine.fiducialStates id).isSome = true ∨
        id ∉ engine.ignoreFiducialIds ∧ id ∈ fiducialsList.map OfxFiducial.fidId := by
  induction fiducialsList generalizing engine with
  | nil => simp [statusLoop]
  | cons fiducial rest ih =>
      rw [statusLoop]
      split
      · rename_i ignored
        rw [ih, List.map_cons, List.mem_cons]
        apply or_congr_right
        constructor
        · rintro ⟨watched, later⟩
          exact ⟨watched, Or.inr later⟩
        · rintro ⟨watched, rfl | later⟩
          · exact absurd ignored watched
          · exact ⟨watched, later⟩
      · rename_i watched
        rw [ih, List.map_cons, List.mem_cons]
        by_cases same : id = fiducial.fidId
        · subst same
          rw [recordState_forceCorners]
          exact iff_of_true (Or.inl rfl) (Or.inr ⟨watched, Or.inl rfl⟩)
        · rw [recordState_forceCorners_of_ne arith engine (Ne.symm same), or_iff_right same]
          exact Iff.rfl

/-- Whatever the loop over the fiducials keeps is one of them. -/
theorem mem_of_foldl_checkFiducial {origin : Point F} {target : OfxFiducial F}
    (fiducials : List (OfxFiducial F)) (nearest : Nearest F)
    (hit : (fiducials.foldl (checkFiducial arith math origin) nearest).hitFiducial =
      some target) :
    nearest.hitFiducial = some target ∨ target ∈ fiducials := by
  induction fiducials generalizing nearest with
  | nil => exact Or.inl hit
  | cons fiducial rest ih =>
      rcases ih _ hit with kept | later
      · have round : (checkFiducial arith math origin nearest fiducial).hitFiducial =
            nearest.hitFiducial ∨
            (checkFiducial arith math origin nearest fiducial).hitFiducial = some fiducial := by
          unfold checkFiducial
          dsimp only
          split
          · split
            · exact Or.inr rfl
            · exact Or.inl rfl
          · exact Or.inl rfl
        rcases round with same | taken
        · exact Or.inl (same.symm.trans kept)
        · rw [taken] at kept
          rw [Option.some.inj kept]
          exact Or.inr List.mem_cons_self
      · exact Or.inr (List.mem_cons_of_mem _ later)

/-- What a ray hits is listed. -/
theorem mem_of_firstOnRay {engine : Engine F} {fiducialsList : List (OfxFiducial F)}
    {entry : OfxFiducial F × Nat} {target : OfxFiducial F}
    (meets : firstOnRay arith math fiducialsList engine entry = some target) :
    target ∈ fiducialsList := by
  rcases mem_of_foldl_checkFiducial arith math _ _ meets with nothing | member
  · contradiction
  · exact List.mem_of_mem_eraseIdx member

/-- Whether a listed fiducial is valid after the status loop is decided before it. -/
theorem validFiducial_statusLoop {engine : Engine F} {fiducialsList : List (OfxFiducial F)}
    {fiducial : OfxFiducial F}
    (listed : fiducial ∈ fiducialsList.map (scannedFiducial arith engine)) :
    (statusLoop arith engine fiducialsList).1.validFiducial arith fiducial = true ↔
      Shown arith engine fiducial := by
  have idListed : fiducial.fidId ∈ fiducialsList.map OfxFiducial.fidId := by
    obtain ⟨original, member, rfl⟩ := List.mem_map.mp listed
    rw [scannedFiducial_fidId]
    exact List.mem_map_of_mem member
  unfold Engine.validFiducial Shown
  rw [← Bool.and_eq_true]
  by_cases displaced : (arith.eq fiducial.current.xpos arith.invalidCoords &&
      arith.eq fiducial.current.ypos arith.invalidCoords) = true
  · rw [if_pos displaced]
    exact iff_of_false Bool.false_ne_true fun shown => shown.1 displaced
  · rw [if_neg displaced, and_iff_right displaced, isSome_statusLoop, and_iff_left idListed,
      or_comm]

end Before

/-- A fiducial that is not to be hit. -/
def Excluded (arith : FloatArith F) (engine : Engine F) (ignoreHitFiducialIds : List Int)
    (fiducial : OfxFiducial F) : Prop :=
  ¬ Shown arith engine fiducial ∨ fiducial.fidId ∈ ignoreHitFiducialIds

theorem validInputFiducial_eq_true (arith : FloatArith F) {engine : Engine F}
    {ignoreHitFiducialIds : List Int} {fiducial : OfxFiducial F} :
    engine.validInputFiducial arith ignoreHitFiducialIds fiducial = true ↔
      engine.validFiducial arith fiducial = true ∧ fiducial.fidId ∉ ignoreHitFiducialIds := by
  cases valid : engine.validFiducial arith fiducial <;>
    by_cases ignored : fiducial.fidId ∈ ignoreHitFiducialIds <;>
    simp [Engine.validInputFiducial, valid, ignored]

section Update

variable {arith : FloatArith F} {engine : Engine F} {fiducialsList : List (OfxFiducial F)}
  {target : OfxFiducial F}

/-- The events of a call name what is found on the rays of the fiducials that are
shown. -/
theorem names_update {math : VectorMath F} (stale : Option (OfxFiducial F)) :
    Names (engine.update arith math stale fiducialsList).2.2 target ↔
      ∃ entry ∈ (fiducialsList.map (scannedFiducial arith engine)).zipIdx,
        Shown arith engine entry.1 ∧
        firstOnRay arith math (fiducialsList.map (scannedFiducial arith engine)) engine entry =
          some target := by
  simp only [update_eq, names_append, not_names_statusLoop arith engine fiducialsList, false_or,
    names_raySent, statusLoop_list]
  apply exists_congr
  intro entry
  apply and_congr_right
  intro member
  have listed : entry.1 ∈ fiducialsList.map (scannedFiducial arith engine) :=
    List.mem_of_getElem? (List.mk_mem_zipIdx_iff_getElem?.mp member)
  have sameWindow : firstOnRay arith math (fiducialsList.map (scannedFiducial arith engine))
      (statusLoop arith engine fiducialsList).1 entry =
        firstOnRay arith math (fiducialsList.map (scannedFiducial arith engine)) engine entry := by
    rw [statusLoop_engine]
    rfl
  rw [Engine.validOutputFiducial, validFiducial_statusLoop arith listed, sameWindow]

/-- A listed fiducial is a valid target after a call unless it was excluded before. -/
theorem validInputFiducial_update {math : VectorMath F} {stale : Option (OfxFiducial F)}
    {ignoreHitFiducialIds : List Int}
    (listed : target ∈ fiducialsList.map (scannedFiducial arith engine)) :
    (engine.update arith math stale fiducialsList).1.validInputFiducial arith
        ignoreHitFiducialIds target = true ↔
      ¬ Excluded arith engine ignoreHitFiducialIds target := by
  have sameStates : (engine.update arith math stale fiducialsList).1.validFiducial arith target =
      (statusLoop arith engine fiducialsList).1.validFiducial arith target := by
    rw [update_eq]
    dsimp only
    rw [followRays_eq]
    rfl
  rw [validInputFiducial_eq_true, sameStates, validFiducial_statusLoop arith listed, Excluded,
    not_or, not_not]

end Update

/-! ## Rays in exact arithmetic -/

/-- What the ray of a fiducial relies on in `ofxPoint2f`. -/
structure VectorMath.ExactRays (math : VectorMath (Option ℝ)) : Prop extends math.Exact where
  getMiddle : ∀ p q, math.getMiddle (Point.exact p) (Point.exact q) = Point.exact (middle p q)

/-- The fiducial shoots its ray from `origin`, the middle of its side between the first
corner and the last, in the direction of `angle`. -/
structure ShootsFrom (fiducial : OfxFiducial (Option ℝ)) (origin : ℝ × ℝ) (angle : ℝ) :
    Prop where
  origin : ∃ first last, cornerPoint exact fiducial 0 = Point.exact first ∧
    cornerPoint exact fiducial 3 = Point.exact last ∧ middle first last = origin
  angle : fiducial.getAngle exact = some angle

theorem angleCorrectionRadians_exact : angleCorrectionRadians exact = some 0 := by
  have divided : exact.div (some Real.pi) (some ((180 : ℤ) : ℝ)) = some (Real.pi / (180 : ℤ)) := by
    rw [FloatArith.exact_div, if_neg (by norm_num)]
  rw [angleCorrectionRadians, FloatArith.exact_ofInt, FloatArith.exact_ofInt,
    FloatArith.exact_pi, divided, FloatArith.exact_mul]
  norm_num

/-- What the search finds on a ray is the nearest blocker. -/
theorem firstOnRay_eq_some_iff {math : VectorMath (Option ℝ)} (vectors : math.ExactRays)
    {engine : Engine (Option ℝ)} {fiducialsList : List (OfxFiducial (Option ℝ))}
    {entry : OfxFiducial (Option ℝ) × Nat} {origin target : ℝ × ℝ} {angle : ℝ}
    (shoots : ShootsFrom entry.1 origin angle)
    (aims : AimsAt engine.windowCorners origin angle target) {hit : OfxFiducial (Option ℝ)} :
    firstOnRay exact math fiducialsList engine entry = some hit ↔
      NearestBlocker origin target (fiducialsList.eraseIdx entry.2) hit := by
  obtain ⟨⟨first, last, isFirst, isLast, rfl⟩, isAngle⟩ := shoots
  have direction : exact.add (entry.1.getAngle exact) (angleCorrectionRadians exact) =
      some angle := by
    rw [isAngle, angleCorrectionRadians_exact, FloatArith.exact_add, add_zero]
  have edge := (aimsAt_iff vectors.toExact).mp aims
  rw [← findMinIntersectionRay_eq_some_iff vectors.toExact edge, firstOnRay, shootRay]
  simp only [isFirst, isLast, vectors.getMiddle, direction]

/-- No fiducial that is shown has an excluded fiducial for the nearest blocker of its
ray.  The list has the corners that the status loop leaves. -/
def ExcludedOffRays (ignoreHitFiducialIds : List Int) (engine : Engine (Option ℝ))
    (fiducialsList : List (OfxFiducial (Option ℝ))) : Prop :=
  let scanned := fiducialsList.map (scannedFiducial exact engine)
  ∀ entry ∈ scanned.zipIdx, Shown exact engine entry.1 →
    ∀ origin angle target, ShootsFrom entry.1 origin angle →
      AimsAt engine.windowCorners origin angle target →
        ∀ blocker, NearestBlocker origin target (scanned.eraseIdx entry.2) blocker →
          ¬ Excluded exact engine ignoreHitFiducialIds blocker

theorem VectorMath.exactRays_ofArith : (VectorMath.ofArith exact).ExactRays where
  toExact := VectorMath.exact_ofArith
  getMiddle p q := by
    have halved : ∀ a b : ℝ, exact.div (some (a + b)) (some ((2 : ℤ) : ℝ)) =
        some ((a + b) / 2) := by
      intro a b
      rw [FloatArith.exact_div, if_neg (by norm_num)]
      norm_num
    simp only [VectorMath.ofArith, Point.exact_x, Point.exact_y, FloatArith.exact_add,
      FloatArith.exact_ofInt, halved]
    rfl

/-- An interval that is opened names its target. -/
theorem names_of_opened {source id : Int} {sent : List (Notification F)}
    (opened : .opened (some id) ∈ rayTrace source sent) :
    ∃ target, target.fidId = id ∧ Names sent target := by
  obtain ⟨notification, isSent, told⟩ := List.mem_filterMap.mp opened
  cases notification with
  | status event fiducial conversion => contradiction
  | ray event args =>
      simp only [rayInterval] at told
      split at told
      · cases event with
        | found =>
            have sameId := Transition.IntervalEvent.opened.inj (Option.some.inj told)
            obtain ⟨target, named, isId⟩ := Option.map_eq_some_iff.mp sameId
            exact ⟨target, isId, .found, args, isSent, by decide, named⟩
        | updated => simp [RayEvent.interval] at told
        | lost => simp [RayEvent.interval] at told
        | termination => simp [RayEvent.interval] at told
      · contradiction

end OfxPrimes.Physics
