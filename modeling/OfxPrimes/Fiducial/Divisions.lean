import OfxPrimes.Fiducial.Times
import OfxPrimes.Transition.Latch

/-!
# What the speeds are divided by

The last time of a listed fiducial is zero or the time of an update.  A
fiducial that is aged was not updated in the frame, so its last time is one of
an earlier frame.  One that is updated may have been updated in the same frame
before, and then the times may be the same.
-/

namespace OfxPrimes.Fiducial

open OfxPrimes.Pool
open OfxPrimes.Transition

variable {F : Type}

/-! ## The last time of one id -/

/-- What a detection at a time divides by, where the last time is known if the id is
listed. -/
def divided (known : Option Int) (now : Int) : List Int :=
  known.elim [] fun last => if last = 0 then [] else [now - last]

/-- What detections of one id at some times divide by. -/
def gaps : Option Int → List Int → List Int
  | _, [] => []
  | known, now :: rest => divided known now ++ gaps (some (known.elim 0 fun _ => now)) rest

/-- Two successive times are equal only if they are zero. -/
def Apart (first second : Int) : Prop :=
  first = second → second = 0

theorem zero_not_mem_divided {last now : Int} :
    0 ∉ divided (some last) now ↔ Apart last now := by
  rw [divided, Option.elim_some, Apart]
  split
  · rename_i zero
    subst zero
    simp only [List.not_mem_nil, not_false_eq_true, true_iff]
    exact Eq.symm
  · rename_i nonzero
    rw [List.mem_singleton, eq_comm, sub_eq_zero]
    constructor
    · exact fun differs same => absurd same.symm differs
    · exact fun apart same => nonzero (same ▸ apart same.symm)

theorem zero_not_mem_gaps_some {last : Int} {times : List Int} :
    0 ∉ gaps (some last) times ↔ (last :: times).IsChain Apart := by
  induction times generalizing last with
  | nil => simp [gaps]
  | cons now rest ih =>
      rw [gaps, List.mem_append, not_or, List.isChain_cons_cons]
      exact and_congr zero_not_mem_divided ih

/-- The times at which an id is updated: the first time lists it if it is not
listed. -/
def updateTimes (listed : Bool) (times : List Int) : List Int :=
  if listed then times else times.tail

theorem isChain_cons_iff {last : Int} {times : List Int} (before : ∀ now ∈ times, Apart last now) :
    (last :: times).IsChain Apart ↔ times.IsChain Apart := by
  cases times with
  | nil => simp
  | cons now rest =>
      rw [List.isChain_cons_cons]
      exact ⟨And.right, fun chain => ⟨before now List.mem_cons_self, chain⟩⟩

theorem zero_not_mem_gaps {known : Option Int} {times : List Int}
    (before : ∀ last ∈ known, ∀ now ∈ times, Apart last now) :
    0 ∉ gaps known times ↔ (updateTimes known.isSome times).IsChain Apart := by
  cases known with
  | none =>
      cases times with
      | nil => simp [gaps, updateTimes]
      | cons now rest =>
          rw [gaps, List.mem_append, not_or, zero_not_mem_gaps_some]
          have listing : (0 :: rest).IsChain Apart ↔ rest.IsChain Apart :=
            isChain_cons_iff fun _ _ => Eq.symm
          rw [Option.elim_none, listing]
          exact ⟨And.right, fun chain => ⟨List.not_mem_nil, chain⟩⟩
  | some last =>
      rw [zero_not_mem_gaps_some]
      exact isChain_cons_iff (before last rfl)

/-! ## The calls and the last time -/

section Calls

variable {arith : FloatArith F} {junk : TimedFiducial F}

theorem computeSpeedAccel_times (self : TimedFiducial F) :
    (self.computeSpeedAccel arith).1.time = self.time ∧
      (self.computeSpeedAccel arith).1.lastTime = self.lastTime ∧
        (self.computeSpeedAccel arith).2 = divided (some self.lastTime) self.time := by
  rw [TimedFiducial.computeSpeedAccel, divided, Option.elim_some]
  split
  · exact ⟨rfl, rfl, rfl⟩
  · exact ⟨rfl, rfl, rfl⟩

theorem updateTimed_times (detected : FiducialX F) (now : Int) (existing : TimedFiducial F) :
    (updateTimed arith detected now existing).1.lastTime = now ∧
      (updateTimed arith detected now existing).1.base.updated = true ∧
        (updateTimed arith detected now existing).2 = divided (some existing.lastTime) now := by
  refine ⟨?_, ?_, ?_⟩
  · simp only [updateTimed, TimedFiducial.update, TimedFiducial.saveLastFrame,
      computeSpeedAccel_times]
  · rw [updateTimed_base]
    exact OfxFiducial.update_updated ..
  · exact (computeSpeedAccel_times _).2.2

theorem isAlive_times (now : Int) (self : TimedFiducial F) :
    (self.isAlive arith now).2.1.lastTime = self.lastTime ∧
      (self.isAlive arith now).2.1.base.updated = false ∧
        (self.isAlive arith now).2.2 =
          if self.base.updated then [] else divided (some self.lastTime) now := by
  by_cases updated : self.base.updated = true
  · simp only [TimedFiducial.isAlive, if_pos updated, and_self]
  · simp only [TimedFiducial.isAlive, if_neg updated, computeSpeedAccel_times, and_self]

end Calls

/-! ## The detections of a frame -/

/-- The last time of the listed fiducial with an id. -/
def lastTimeOf (id : Int) (fiducialsList : List (TimedFiducial F)) : Option Int :=
  (Keyed.lookup TimedFiducial.fidId id fiducialsList).map TimedFiducial.lastTime

/-- The times of the detections of an id in a frame. -/
def sightTimes (id : Int) (fiducials : List (FiducialX F × Int)) : List Int :=
  (fiducials.filter fun detected =>
    detected.1.id = id ∧ detected.1.id ≠ invalidFiducialId).map Prod.snd

section Detections

variable {arith : FloatArith F} {junk : TimedFiducial F}

theorem updateTimed_fidId (detected : FiducialX F) (now : Int) (existing : TimedFiducial F) :
    (updateTimed arith detected now existing).1.fidId = existing.fidId := by
  rw [TimedFiducial.fidId, updateTimed_base, updateExisting_fidId]

theorem addTimed_fidId (detected : FiducialX F) (now : Int) :
    (addTimed arith junk detected now).fidId = detected.id :=
  rfl

theorem addTimedDetection_of_valid (tracker : TimedTracker F) {detected : FiducialX F × Int}
    (valid : detected.1.id ≠ invalidFiducialId) :
    (addTimedDetection arith junk tracker detected).fiducialsList =
      Keyed.upsert TimedFiducial.fidId detected.1.id
        (fun existing => (updateTimed arith detected.1 detected.2 existing).1)
        (addTimed arith junk detected.1 detected.2) tracker.fiducialsList := by
  rw [addTimedDetection, if_pos valid]

theorem lastTimeOf_addTimedDetection_self (tracker : TimedTracker F)
    {detected : FiducialX F × Int} (valid : detected.1.id ≠ invalidFiducialId) :
    lastTimeOf detected.1.id (addTimedDetection arith junk tracker detected).fiducialsList =
      some ((lastTimeOf detected.1.id tracker.fiducialsList).elim 0 fun _ => detected.2) := by
  rw [lastTimeOf, addTimedDetection_of_valid tracker valid,
    Keyed.lookup_upsert_self (updateTimed_fidId detected.1 detected.2)
      (addTimed_fidId detected.1 detected.2), lastTimeOf]
  cases Keyed.lookup TimedFiducial.fidId detected.1.id tracker.fiducialsList with
  | none => rfl
  | some existing => exact congrArg some (updateTimed_times detected.1 detected.2 existing).1

theorem lastTimeOf_addTimedDetection_of_ne (tracker : TimedTracker F)
    {detected : FiducialX F × Int} {id : Int} (other : id ≠ detected.1.id) :
    lastTimeOf id (addTimedDetection arith junk tracker detected).fiducialsList =
      lastTimeOf id tracker.fiducialsList := by
  by_cases valid : detected.1.id ≠ invalidFiducialId
  · rw [lastTimeOf, addTimedDetection_of_valid tracker valid,
      Keyed.lookup_upsert_of_ne (updateTimed_fidId detected.1 detected.2)
        (addTimed_fidId detected.1 detected.2) other, lastTimeOf]
  · rw [addTimedDetection, if_neg valid]

theorem mem_divisors_addTimedDetection (tracker : TimedTracker F)
    {detected : FiducialX F × Int} (valid : detected.1.id ≠ invalidFiducialId) {n : Int} :
    n ∈ (addTimedDetection arith junk tracker detected).divisors ↔
      n ∈ tracker.divisors ∨
        n ∈ divided (lastTimeOf detected.1.id tracker.fiducialsList) detected.2 := by
  rw [addTimedDetection, if_pos valid, List.mem_append, lastTimeOf]
  cases Keyed.lookup TimedFiducial.fidId detected.1.id tracker.fiducialsList with
  | none => rfl
  | some existing =>
      rw [Option.elim_some, (updateTimed_times detected.1 detected.2 existing).2.2]
      rfl

theorem sightTimes_cons_self {detected : FiducialX F × Int}
    (valid : detected.1.id ≠ invalidFiducialId) (rest : List (FiducialX F × Int)) :
    sightTimes detected.1.id (detected :: rest) =
      detected.2 :: sightTimes detected.1.id rest := by
  simp [sightTimes, valid]

theorem sightTimes_cons_of_not {detected : FiducialX F × Int} {id : Int}
    (not : ¬(detected.1.id = id ∧ detected.1.id ≠ invalidFiducialId))
    (rest : List (FiducialX F × Int)) :
    sightTimes id (detected :: rest) = sightTimes id rest := by
  simp only [sightTimes, List.filter_cons, decide_eq_false not, Bool.false_eq_true, if_false]

/-- What the detections of the id that is detected first divide by. -/
theorem mem_gaps_cons_self (tracker : TimedTracker F) {detected : FiducialX F × Int}
    (valid : detected.1.id ≠ invalidFiducialId) (rest : List (FiducialX F × Int)) {n : Int} :
    n ∈ gaps (lastTimeOf detected.1.id tracker.fiducialsList)
        (sightTimes detected.1.id (detected :: rest)) ↔
      n ∈ divided (lastTimeOf detected.1.id tracker.fiducialsList) detected.2 ∨
        n ∈ gaps (lastTimeOf detected.1.id
            (addTimedDetection arith junk tracker detected).fiducialsList)
          (sightTimes detected.1.id rest) := by
  rw [sightTimes_cons_self valid, gaps, List.mem_append,
    lastTimeOf_addTimedDetection_self tracker valid]

/-- What the detections of another id divide by. -/
theorem gaps_cons_of_ne (tracker : TimedTracker F) {detected : FiducialX F × Int} {id : Int}
    (other : id ≠ detected.1.id) (rest : List (FiducialX F × Int)) :
    gaps (lastTimeOf id tracker.fiducialsList) (sightTimes id (detected :: rest)) =
      gaps (lastTimeOf id (addTimedDetection arith junk tracker detected).fiducialsList)
        (sightTimes id rest) := by
  rw [lastTimeOf_addTimedDetection_of_ne tracker other,
    sightTimes_cons_of_not fun same => other same.1.symm]

/-- What the detections of a frame divide by is what those of each id do. -/
theorem mem_divisors_foldl (tracker : TimedTracker F) (fiducials : List (FiducialX F × Int))
    {n : Int} :
    n ∈ (fiducials.foldl (addTimedDetection arith junk) tracker).divisors ↔
      n ∈ tracker.divisors ∨
        ∃ id, n ∈ gaps (lastTimeOf id tracker.fiducialsList) (sightTimes id fiducials) := by
  induction fiducials generalizing tracker with
  | nil => simp [sightTimes, gaps]
  | cons detected rest ih =>
      rw [List.foldl_cons, ih]
      by_cases valid : detected.1.id ≠ invalidFiducialId
      · have first := @mem_gaps_cons_self F arith junk tracker detected valid rest n
        have others (id : Int) (other : id ≠ detected.1.id) :=
          @gaps_cons_of_ne F arith junk tracker detected id other rest
        rw [mem_divisors_addTimedDetection tracker valid, or_assoc]
        apply or_congr_right
        constructor
        · rintro (now | ⟨id, later⟩)
          · exact ⟨detected.1.id, first.mpr (Or.inl now)⟩
          · by_cases same : id = detected.1.id
            · subst same
              exact ⟨detected.1.id, first.mpr (Or.inr later)⟩
            · exact ⟨id, (others id same).symm ▸ later⟩
        · rintro ⟨id, divides⟩
          by_cases same : id = detected.1.id
          · subst same
            rcases first.mp divides with now | later
            · exact Or.inl now
            · exact Or.inr ⟨detected.1.id, later⟩
          · exact Or.inr ⟨id, others id same ▸ divides⟩
      · have ignored : addTimedDetection arith junk tracker detected = tracker := if_neg valid
        have same (id : Int) : sightTimes id (detected :: rest) = sightTimes id rest :=
          sightTimes_cons_of_not (fun both => valid both.2) rest
        simp only [ignored, same]

end Detections

/-! ## The last times of a run -/

/-- In a frame after some others, two successive updates of one id are at different
times, unless both are at time zero. -/
def UpdatesApart (arith : FloatArith F) (junk : TimedFiducial F) (past : List (TimedFrame F))
    (frame : TimedFrame F) : Prop :=
  ∀ id,
    let listed := Keyed.lookup TimedFiducial.fidId id (afterTimed arith junk past).fiducialsList
    (updateTimes listed.isSome (sightTimes id frame.fiducials)).IsChain Apart

section Run

variable {arith : FloatArith F} {junk : TimedFiducial F}

/-- The last time is zero or one of some frames. -/
def SavedIn (frames : List (TimedFrame F)) (fiducial : TimedFiducial F) : Prop :=
  fiducial.lastTime = 0 ∨ ∃ frame ∈ frames, fiducial.lastTime ∈ frame.readings

theorem savedIn_append {frames later : List (TimedFrame F)} {fiducial : TimedFiducial F}
    (saved : SavedIn frames fiducial) : SavedIn (frames ++ later) fiducial :=
  saved.imp_right fun ⟨frame, mem, read⟩ => ⟨frame, List.mem_append_left later mem, read⟩

/-- A time after those of some frames is apart from a last time of them. -/
theorem apart_of_savedIn {frames : List (TimedFrame F)} {fiducial : TimedFiducial F}
    (saved : SavedIn frames fiducial) {now : Int}
    (later : ∀ frame ∈ frames, ∀ before ∈ frame.readings, before < now) :
    Apart fiducial.lastTime now := by
  intro same
  rcases saved with zero | ⟨frame, mem, read⟩
  · exact same.symm.trans zero
  · exact absurd same (later frame mem _ read).ne

/-- During the detections of a frame: a fiducial that was not updated has a last
time of the frames before. -/
def Counted (past : List (TimedFrame F)) (frame : TimedFrame F) (fiducial : TimedFiducial F) :
    Prop :=
  SavedIn (past ++ [frame]) fiducial ∧
    (fiducial.base.updated = false → SavedIn past fiducial)

theorem counted_addTimedDetection {past : List (TimedFrame F)} {frame : TimedFrame F}
    {tracker : TimedTracker F} (counted : ∀ fiducial ∈ tracker.fiducialsList,
      Counted past frame fiducial)
    {detected : FiducialX F × Int} (mem : detected ∈ frame.fiducials) :
    ∀ fiducial ∈ (addTimedDetection arith junk tracker detected).fiducialsList,
      Counted past frame fiducial := by
  by_cases valid : detected.1.id ≠ invalidFiducialId
  · rw [addTimedDetection_of_valid tracker valid]
    apply Keyed.forall_mem_upsert counted
    · intro existing _
      obtain ⟨lastTime, updated, -⟩ :
          (updateTimed arith detected.1 detected.2 existing).1.lastTime = detected.2 ∧ _ ∧ _ :=
        updateTimed_times detected.1 detected.2 existing
      constructor
      · have last : frame ∈ past ++ [frame] := List.mem_append_right _ List.mem_cons_self
        exact Or.inr ⟨frame, last, Or.inl ⟨detected, mem, lastTime.symm⟩⟩
      · intro missed
        exact absurd (updated.symm.trans missed) Bool.noConfusion
    · exact ⟨Or.inl rfl, fun _ => Or.inl rfl⟩
  · rw [addTimedDetection, if_neg valid]
    exact counted

theorem counted_foldl {past : List (TimedFrame F)} {frame : TimedFrame F}
    (fiducials : List (FiducialX F × Int)) (sub : fiducials ⊆ frame.fiducials)
    {tracker : TimedTracker F} (counted : ∀ fiducial ∈ tracker.fiducialsList,
      Counted past frame fiducial) :
    ∀ fiducial ∈ (fiducials.foldl (addTimedDetection arith junk) tracker).fiducialsList,
      Counted past frame fiducial := by
  induction fiducials generalizing tracker with
  | nil => exact counted
  | cons detected rest ih =>
      rcases List.cons_subset.mp sub with ⟨mem, restSub⟩
      exact ih restSub (counted_addTimedDetection counted mem)

theorem savedIn_eraseDeadTimed {past : List (TimedFrame F)} {frame : TimedFrame F}
    {tracker : TimedTracker F} (counted : ∀ fiducial ∈ tracker.fiducialsList,
      Counted past frame fiducial) :
    ∀ fiducial ∈ (eraseDeadTimed arith frame.ageTime tracker).fiducialsList,
      SavedIn (past ++ [frame]) fiducial := by
  intro fiducial mem
  rcases List.mem_filterMap.mp mem with ⟨before, beforeMem, aged⟩
  obtain ⟨lastTime, -, -⟩ :
      (before.isAlive arith (frame.ageTime before.fidId)).2.1.lastTime = before.lastTime ∧ _ ∧ _ :=
    isAlive_times _ before
  split at aged
  · rw [← Option.some.inj aged, SavedIn, lastTime]
    exact (counted before beforeMem).1
  · contradiction

/-- After the frames of a run, every listed fiducial has a last time of it. -/
theorem savedIn_afterTimed (frames : List (TimedFrame F)) :
    ∀ fiducial ∈ (afterTimed arith junk frames).fiducialsList, SavedIn frames fiducial := by
  induction frames using List.reverseRecOn with
  | nil => exact fun fiducial mem => absurd mem List.not_mem_nil
  | append_singleton past frame ih =>
      rw [afterTimed, List.foldl_append]
      apply savedIn_eraseDeadTimed
      apply counted_foldl frame.fiducials (List.Subset.refl _)
      intro fiducial mem
      exact ⟨savedIn_append (ih fiducial mem), fun _ => ih fiducial mem⟩

/-- What a frame divides by, when the times of the frames before are earlier. -/
theorem zero_not_mem_findFiducialsTimed {past : List (TimedFrame F)} {frame : TimedFrame F}
    (later : ∀ earlier ∈ past, ∀ before ∈ earlier.readings, ∀ now ∈ frame.readings, before < now) :
    0 ∉ (findFiducialsTimed arith junk (afterTimed arith junk past) frame).divisors ↔
      0 ∉ (afterTimed arith junk past).divisors ∧ UpdatesApart arith junk past frame := by
  have saved : ∀ fiducial ∈ (afterTimed arith junk past).fiducialsList, SavedIn past fiducial :=
    savedIn_afterTimed past
  have counted : ∀ fiducial ∈ (frame.fiducials.foldl (addTimedDetection arith junk)
      (afterTimed arith junk past)).fiducialsList, Counted past frame fiducial :=
    counted_foldl frame.fiducials (List.Subset.refl _) fun fiducial mem =>
      ⟨savedIn_append (saved fiducial mem), fun _ => saved fiducial mem⟩
  have aged : 0 ∉ (frame.fiducials.foldl (addTimedDetection arith junk)
      (afterTimed arith junk past)).fiducialsList.flatMap fun fiducial =>
        (fiducial.isAlive arith (frame.ageTime fiducial.fidId)).2.2 := by
    intro zero
    rcases List.mem_flatMap.mp zero with ⟨fiducial, mem, divides⟩
    rw [(isAlive_times _ fiducial).2.2] at divides
    split at divides
    · contradiction
    · rename_i missed
      have before := (counted fiducial mem).2 (Bool.eq_false_iff.mpr missed)
      have differs := apart_of_savedIn before fun earlier earlierMem time read =>
        later earlier earlierMem time read (frame.ageTime fiducial.fidId) (Or.inr ⟨_, rfl⟩)
      exact zero_not_mem_divided.mpr differs divides
  rw [findFiducialsTimed, eraseDeadTimed, List.mem_append, not_or, and_iff_left aged,
    mem_divisors_foldl, not_or, not_exists]
  apply and_congr_right
  intro _
  apply forall_congr'
  intro id
  rw [zero_not_mem_gaps, lastTimeOf, Option.isSome_map]
  intro last lastMem now nowMem
  rcases Option.mem_map.mp lastMem with ⟨fiducial, found, rfl⟩
  rcases List.mem_map.mp nowMem with ⟨detected, sighted, rfl⟩
  have mem : fiducial ∈ (afterTimed arith junk past).fiducialsList := (Keyed.mem_of_lookup found).1
  apply apart_of_savedIn (saved fiducial mem)
  intro earlier earlierMem before read
  exact later earlier earlierMem before read detected.2
    (Or.inl ⟨detected, (List.mem_filter.mp sighted).1, rfl⟩)

/-- On a clock on which frames are apart, the speeds are never divided by zero if
and only if no two successive updates of one id in one frame are at the same time. -/
theorem divisors_ne_zero_iff (frames : List (TimedFrame F))
    (apart : frames.Pairwise fun earlier later =>
      ∀ before ∈ earlier.readings, ∀ now ∈ later.readings, before < now) :
    0 ∉ (afterTimed arith junk frames).divisors ↔
      ∀ past frame rest, frames = past ++ frame :: rest → UpdatesApart arith junk past frame := by
  induction frames using List.reverseRecOn with
  | nil => simp [afterTimed]
  | append_singleton past frame ih =>
      rcases List.pairwise_append.mp apart with ⟨pastApart, -, later⟩
      rw [forall_split_append_singleton, ← ih pastApart, afterTimed, List.foldl_append]
      apply zero_not_mem_findFiducialsTimed
      intro earlier mem before read now nowRead
      exact later earlier mem frame List.mem_cons_self before read now nowRead

/-! ## An id twice in one frame -/

/-- A frame in which the clock does not advance. -/
def frameAt (now : Int) (fiducials : List (FiducialX F)) : TimedFrame F :=
  { fiducials := fiducials.map fun detected => (detected, now), ageTime := fun _ => now }

theorem eq_of_mem_readings_frameAt {now time : Int} {fiducials : List (FiducialX F)}
    (read : time ∈ (frameAt now fiducials).readings) : time = now := by
  rcases read with ⟨detected, mem, rfl⟩ | ⟨id, rfl⟩
  · rcases List.mem_map.mp mem with ⟨fiducial, -, rfl⟩
    rfl
  · rfl

theorem pairwise_frameAt {first second : Int} (before : first < second)
    (fiducials later : List (FiducialX F)) :
    [frameAt first fiducials, frameAt second later].Pairwise fun earlier later =>
      ∀ before ∈ earlier.readings, ∀ now ∈ later.readings, before < now := by
  rw [List.pairwise_pair]
  intro time read now nowRead
  rw [eq_of_mem_readings_frameAt read, eq_of_mem_readings_frameAt nowRead]
  exact before

end Run

/-- A marker with the id 5. -/
def fifthMarker : FiducialX (Option Rat) :=
  { id := 5, x := some 100, y := some 100, angle := some 0, leafSize := some 2,
    rootSize := some 20 }

/-- A fiducial in memory that is all zero. -/
def zeroedTimed : TimedFiducial (Option Rat) :=
  let still : Motion (Option Rat) := ⟨some 0, some 0, some 0, some 0, some 0, some 0⟩
  { base := .zeroed FloatArith.rational, time := 0, motion := still, lastTime := 0,
    lastMotion := still }

/-- Two frames that show the marker once each. -/
theorem updatesApart_onceEach :
    UpdatesApart FloatArith.rational zeroedTimed [frameAt 1 [fifthMarker]]
      (frameAt 2 [fifthMarker]) :=
  (divisors_ne_zero_iff _ (pairwise_frameAt (by decide) _ _)).mp (by decide +kernel)
    [frameAt 1 [fifthMarker]] (frameAt 2 [fifthMarker]) [] rfl

/-- The second update in the second frame is at the time of the first one. -/
theorem zero_mem_divisors_twice :
    let frames := [frameAt 1 [fifthMarker], frameAt 2 [fifthMarker, fifthMarker]]
    (frames.Pairwise fun earlier later =>
      ∀ before ∈ earlier.readings, ∀ now ∈ later.readings, before < now) ∧
      0 ∈ (afterTimed FloatArith.rational zeroedTimed frames).divisors :=
  ⟨pairwise_frameAt (by decide) _ _, by decide +kernel⟩

end OfxPrimes.Fiducial
