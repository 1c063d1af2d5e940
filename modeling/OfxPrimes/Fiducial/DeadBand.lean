import OfxPrimes.Fiducial.Exact
import OfxPrimes.Fiducial.Survival

/-!
# The filter of the jitter

A listed fiducial follows the detections of its id with a dead band: a value
that is within the threshold of the current one leaves it as it is.  `update`
compares with `current` but falls back to `last`, so this rests on the two being
the same between the frames.
-/

namespace OfxPrimes.Fiducial

open OfxPrimes.Pool
open OfxPrimes.Fiducial.FloatArith (exact)

/-- A value that follows another, except within the threshold. -/
noncomputable def deadBand (threshold current new : ℝ) : ℝ :=
  if threshold < |new - current| then new else current

/-- A frame with the given numbers. -/
def Frame.exact (pose : Frame ℝ) : Frame (Option ℝ) :=
  { xpos := some pose.xpos, ypos := some pose.ypos, angle := some pose.angle }

/-- A detection with the given numbers. -/
def FiducialX.exact (detected : FiducialX ℝ) : FiducialX (Option ℝ) :=
  { id := detected.id
    x := some detected.x
    y := some detected.y
    angle := some detected.angle
    leafSize := some detected.leafSize
    rootSize := some detected.rootSize }

/-- Position and angle after a detection.  The angle that the finder reports is
corrected by 90 degrees. -/
noncomputable def Frame.follow (pose : Frame ℝ) (detected : FiducialX ℝ) : Frame ℝ :=
  { xpos := deadBand 1 pose.xpos detected.x
    ypos := deadBand 1 pose.ypos detected.y
    angle := deadBand (1 / (20 : ℤ)) pose.angle (detected.angle + Real.pi / (2 : ℤ)) }

/-- The detections of a run, as numbers. -/
abbrev exactFrames (frames : List (List (FiducialX ℝ))) : List (List (FiducialX (Option ℝ))) :=
  frames.map fun frame => frame.map FiducialX.exact

variable {junk fiducial next : OfxFiducial (Option ℝ)} {pose : Frame ℝ}

/-! ## The numbers of a fiducial -/

/-- Position and angle of the current and the last frame are numbers. -/
structure Numeric (fiducial : OfxFiducial (Option ℝ)) : Prop where
  current : ∃ pose, fiducial.current = Frame.exact pose
  last : ∃ pose, fiducial.last = Frame.exact pose

/-- The fiducial is at the given position and angle, and was there in the last frame. -/
structure StandsAt (pose : Frame ℝ) (fiducial : OfxFiducial (Option ℝ)) : Prop where
  current : fiducial.current = Frame.exact pose
  last : fiducial.last = Frame.exact pose

theorem filterJitter_exact (threshold new current last : ℝ) :
    exact.filterJitter (some threshold) (some new) (some current) (some last) =
      some (if threshold < |new - current| then new else last) := by
  simp only [FloatArith.filterJitter, FloatArith.exact_sub, FloatArith.exact_fabs,
    FloatArith.exact_lt, decide_eq_true_eq]
  split <;> rfl

theorem angleThreshold_exact :
    exact.div exact.jitterThreshold (exact.ofInt 20) = some (1 / 20) := by
  simp [FloatArith.jitterThreshold, FloatArith.exact_div]

theorem correctedAngle_exact (angle : ℝ) :
    exact.add (some angle) (angleCorrectionRadians exact) = some (angle + Real.pi / 2) := by
  have correction : angleCorrectionRadians exact = some (Real.pi / 2) := by
    simp only [angleCorrectionRadians, FloatArith.exact_ofInt, FloatArith.exact_pi,
      FloatArith.exact_div]
    norm_num
    ring
  rw [correction, FloatArith.exact_add]

/-- What `update` makes of a detection: it falls back to the last frame. -/
theorem updateExisting_current {current last : Frame ℝ}
    (isCurrent : fiducial.current = Frame.exact current)
    (isLast : fiducial.last = Frame.exact last) (detected : FiducialX ℝ) :
    (updateExisting exact (FiducialX.exact detected) fiducial).current = Frame.exact
      { xpos := if 1 < |detected.x - current.xpos| then detected.x else last.xpos
        ypos := if 1 < |detected.y - current.ypos| then detected.y else last.ypos
        angle :=
          if 1 / 20 < |detected.angle + Real.pi / 2 - current.angle| then
            detected.angle + Real.pi / 2
          else last.angle } := by
  have threshold : exact.jitterThreshold = some 1 := by simp [FloatArith.jitterThreshold]
  rw [updateExisting, OfxFiducial.update_current, angleThreshold_exact, threshold, isCurrent,
    isLast]
  simp only [FiducialX.exact, Frame.exact, correctedAngle_exact, filterJitter_exact]

theorem numeric_updateExisting (numeric : Numeric fiducial) (detected : FiducialX ℝ) :
    Numeric (updateExisting exact (FiducialX.exact detected) fiducial) := by
  obtain ⟨current, isCurrent⟩ := numeric.current
  obtain ⟨last, isLast⟩ := numeric.last
  have updated := updateExisting_current isCurrent isLast detected
  constructor
  case current => exact ⟨_, updated⟩
  case last => exact ⟨_, (OfxFiducial.update_last ..).trans updated⟩

/-- Between frames a detection moves the fiducial by the law of the dead band. -/
theorem standsAt_updateExisting (stands : StandsAt pose fiducial) (detected : FiducialX ℝ) :
    StandsAt (pose.follow detected)
      (updateExisting exact (FiducialX.exact detected) fiducial) := by
  have updated := updateExisting_current stands.current stands.last detected
  constructor
  case current => exact updated
  case last => exact (OfxFiducial.update_last ..).trans updated

theorem numeric_addFiducial (detected : FiducialX ℝ) :
    Numeric (addFiducial exact junk (FiducialX.exact detected)) := by
  constructor
  case current =>
    exact ⟨{ xpos := detected.x, ypos := detected.y, angle := detected.angle }, rfl⟩
  case last =>
    refine ⟨{ xpos := -100, ypos := -100, angle := 0 }, ?_⟩
    simp [addFiducial, OfxFiducial.construct, OfxFiducial.assign, FloatArith.invalidCoords,
      Frame.exact]

/-- The ageing loop leaves a survivor where it is, or puts it back to the last frame. -/
theorem eraseDead_frames (survives : eraseDead fiducial = some next) :
    next.last = fiducial.last ∧
      (next.current = fiducial.current ∨ next.current = fiducial.last) := by
  simp only [eraseDead] at survives
  split at survives
  · rw [← Option.some.inj survives]
    simp only [OfxFiducial.isAlive, OfxFiducial.missFrame]
    split
    · exact ⟨rfl, Or.inl rfl⟩
    · exact ⟨rfl, Or.inr rfl⟩
  · contradiction

theorem numeric_eraseDead (numeric : Numeric fiducial) (survives : eraseDead fiducial = some next) :
    Numeric next := by
  obtain ⟨sameLast, current | putBack⟩ := eraseDead_frames survives
  · exact ⟨current ▸ numeric.current, sameLast ▸ numeric.last⟩
  · exact ⟨putBack ▸ numeric.last, sameLast ▸ numeric.last⟩

theorem standsAt_eraseDead (stands : StandsAt pose fiducial)
    (survives : eraseDead fiducial = some next) : StandsAt pose next := by
  obtain ⟨sameLast, current | putBack⟩ := eraseDead_frames survives
  · exact ⟨current.trans stands.current, sameLast.trans stands.last⟩
  · exact ⟨putBack.trans stands.last, sameLast.trans stands.last⟩

/-! ## The detections of a frame -/

theorem sightings_exact (id : Int) (frame : List (FiducialX ℝ)) :
    sightings id (frame.map FiducialX.exact) = (sightings id frame).map FiducialX.exact := by
  rw [sightings, sightings, List.filter_map]
  rfl

theorem numeric_foldl {known : Option (OfxFiducial (Option ℝ))}
    (numeric : ∀ fiducial ∈ known, Numeric fiducial) (seen : List (FiducialX ℝ)) :
    ∀ fiducial ∈ (seen.map FiducialX.exact).foldl (sight exact junk) known, Numeric fiducial := by
  induction seen generalizing known with
  | nil => exact numeric
  | cons detected rest ih =>
      apply ih
      rintro fiducial ⟨rfl⟩
      cases known with
      | none => exact numeric_addFiducial detected
      | some existing => exact numeric_updateExisting (numeric existing rfl) detected

variable (junk) in
/-- The detections of its id move a listed fiducial one after the other. -/
theorem standsAt_foldl (stands : StandsAt pose fiducial) (seen : List (FiducialX ℝ)) :
    ∃ final, (seen.map FiducialX.exact).foldl (sight exact junk) (some fiducial) = some final ∧
      StandsAt (seen.foldl Frame.follow pose) final := by
  induction seen generalizing fiducial pose with
  | nil => exact ⟨fiducial, rfl, stands⟩
  | cons detected rest ih => exact ih (standsAt_updateExisting stands detected)

/-! ## Runs -/

theorem numeric_after (frames : List (List (FiducialX ℝ))) (id : Int) :
    ∀ fiducial ∈ lookup id (after exact junk (exactFrames frames)), Numeric fiducial := by
  induction frames using List.reverseRecOn with
  | nil => simp [exactFrames, after]
  | append_singleton past frame ih =>
      intro fiducial listed
      rw [exactFrames, List.map_append, List.map_singleton, lookup_after_concat, sightings_exact,
        observe] at listed
      obtain ⟨aged, folded, survives⟩ := Option.bind_eq_some_iff.mp listed
      exact numeric_eraseDead (numeric_foldl ih _ aged folded) survives

/-- Every listed fiducial stands somewhere between two frames. -/
theorem standsAt_of_mem_after {frames : List (List (FiducialX ℝ))}
    (listed : fiducial ∈ after exact junk (exactFrames frames)) :
    ∃ pose, StandsAt pose fiducial := by
  have known := mem_after_iff.mp listed
  obtain ⟨pose, isCurrent⟩ := (numeric_after frames fiducial.fidId fiducial known).current
  have settled := (after_refines (exactFrames frames) fiducial.fidId).1 fiducial known
  exact ⟨pose, isCurrent, settled.stands.trans isCurrent⟩

/-- Over frames in which it remains listed, a fiducial follows all detections of its
id. -/
theorem standsAt_of_remains {past later : List (List (FiducialX ℝ))}
    (listed : fiducial ∈ after exact junk (exactFrames past)) (stands : StandsAt pose fiducial)
    (remains : ∀ frames, frames <+: later →
      Listed fiducial.fidId (after exact junk (exactFrames (past ++ frames)))) :
    ∃ survivor,
      lookup fiducial.fidId (after exact junk (exactFrames (past ++ later))) = some survivor ∧
      StandsAt ((later.flatMap (sightings fiducial.fidId)).foldl Frame.follow pose) survivor := by
  induction later using List.reverseRecOn with
  | nil =>
      rw [List.append_nil]
      exact ⟨fiducial, mem_after_iff.mp listed, stands⟩
  | append_singleton earlier frame ih =>
      obtain ⟨survivor, known, standsThere⟩ := ih fun frames isPrefix =>
        remains frames (isPrefix.trans (List.prefix_append earlier [frame]))
      obtain ⟨final, folded, moved⟩ :=
        standsAt_foldl junk standsThere (sightings fiducial.fidId frame)
      have concatenated : exactFrames (past ++ (earlier ++ [frame])) =
          exactFrames (past ++ earlier) ++ [frame.map FiducialX.exact] := by
        simp [exactFrames]
      have observed : lookup fiducial.fidId
          (after exact junk (exactFrames (past ++ (earlier ++ [frame])))) = eraseDead final := by
        rw [concatenated, lookup_after_concat, sightings_exact, observe, known, folded,
          Option.bind_some]
      have still := listed_iff_lookup.mp (remains _ (List.prefix_refl _))
      obtain ⟨latest, isLatest⟩ := Option.isSome_iff_exists.mp still
      refine ⟨latest, isLatest, ?_⟩
      rw [observed] at isLatest
      rw [List.flatMap_append, List.foldl_append, List.flatMap_singleton]
      exact standsAt_eraseDead moved isLatest

/-- From the frames `past` on, each detection of the fiducial's id moves it by the law
of the dead band, in the order of the frame, and as long as it remains listed
nothing else does. -/
def FollowsDetections (junk : OfxFiducial (Option ℝ)) (past : List (List (FiducialX ℝ)))
    (fiducial : OfxFiducial (Option ℝ)) : Prop :=
  ∃ pose, fiducial.current = Frame.exact pose ∧
    (∀ processed : List (FiducialX ℝ), ∃ now,
      lookup fiducial.fidId ((processed.map FiducialX.exact).foldl (addDetection exact junk)
        (after exact junk (exactFrames past))) = some now ∧
      now.current =
        Frame.exact ((sightings fiducial.fidId processed).foldl Frame.follow pose)) ∧
    ∀ later, (∀ frames, frames <+: later →
        Listed fiducial.fidId (after exact junk (exactFrames (past ++ frames)))) →
      ∃ survivor,
        lookup fiducial.fidId (after exact junk (exactFrames (past ++ later))) = some survivor ∧
        survivor.current = Frame.exact
          ((later.flatMap (sightings fiducial.fidId)).foldl Frame.follow pose)

theorem followsDetections_of_mem_after (junk : OfxFiducial (Option ℝ))
    (past : List (List (FiducialX ℝ))) (fiducial : OfxFiducial (Option ℝ))
    (listed : fiducial ∈ after exact junk (exactFrames past)) :
    FollowsDetections junk past fiducial := by
  obtain ⟨pose, stands⟩ := standsAt_of_mem_after listed
  refine ⟨pose, stands.current, ?_, ?_⟩
  · intro processed
    obtain ⟨now, folded, moved⟩ :=
      standsAt_foldl junk stands (sightings fiducial.fidId processed)
    refine ⟨now, ?_, moved.current⟩
    rw [lookup_foldl, sightings_exact, mem_after_iff.mp listed, folded]
  · intro later remains
    obtain ⟨survivor, known, moved⟩ := standsAt_of_remains listed stands remains
    exact ⟨survivor, known, moved.current⟩

/-- A marker with the id 5. -/
def marker : FiducialX ℝ :=
  { id := 5, x := (100 : ℤ), y := (100 : ℤ), angle := 0, leafSize := (2 : ℤ), rootSize := (20 : ℤ) }

/-- A new fiducial after the frame that shows it once. -/
noncomputable def newcomer : OfxFiducial (Option ℝ) :=
  { addFiducial exact (OfxFiducial.zeroed exact) (FiducialX.exact marker) with
    state := .lost
    current := (addFiducial exact (OfxFiducial.zeroed exact) (FiducialX.exact marker)).last
    life := 1 }

theorem followsDetections_newcomer :
    FollowsDetections (OfxFiducial.zeroed exact) [[marker]] newcomer := by
  apply followsDetections_of_mem_after
  have listed : after exact (OfxFiducial.zeroed exact) (exactFrames [[marker]]) = [newcomer] := rfl
  rw [listed]
  exact List.mem_singleton_self newcomer

end OfxPrimes.Fiducial
