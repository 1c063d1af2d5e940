import Mathlib.Data.List.Induction
import OfxPrimes.Fiducial.OfxFiducial
import OfxPrimes.Pool.Keyed

/-!
# The fiducial tracker

`findFiducials` updates the listed fiducial of every detection, or lists a new
one, and then ages the whole list and erases the dead.  Since a fiducial is
found by its id, the list behaves as one small machine an id: what the machine
of an id does in a frame depends on the detections of that id alone.
-/

namespace OfxPrimes.Fiducial

open OfxPrimes.Pool

variable {F : Type}

/-- `FIDUCIAL_ANGLE_CORRECTION_RADIANS` of the tracker: 90 degrees. -/
def angleCorrectionRadians (arith : FloatArith F) : F :=
  arith.mul (arith.ofInt 90) (arith.div arith.pi (arith.ofInt 180))

/-- The call of `update` for a fiducial that is listed already. -/
def updateExisting (arith : FloatArith F) (detected : FiducialX F) (existing : OfxFiducial F) :
    OfxFiducial F :=
  existing.update arith detected.x detected.y
    (arith.add detected.angle (angleCorrectionRadians arith)) detected.rootSize detected.leafSize

/-- The fiducial that is listed for a new id. -/
def addFiducial (arith : FloatArith F) (junk : OfxFiducial F) (detected : FiducialX F) :
    OfxFiducial F :=
  (OfxFiducial.construct arith junk).assign detected

/-- One round of the loop that fills the list. -/
def addDetection (arith : FloatArith F) (junk : OfxFiducial F)
    (fiducialsList : List (OfxFiducial F)) (detected : FiducialX F) : List (OfxFiducial F) :=
  if detected.id ≠ invalidFiducialId then
    Keyed.upsert OfxFiducial.fidId detected.id (updateExisting arith detected)
      (addFiducial arith junk detected) fiducialsList
  else fiducialsList

/-- One round of the loop that erases dead fiducials. -/
def eraseDead (fiducial : OfxFiducial F) : Option (OfxFiducial F) :=
  let alive := fiducial.isAlive
  if alive.1 then some alive.2 else none

/-- `findFiducials`, from the detections of `find_fiducialsX` on. -/
def findFiducials (arith : FloatArith F) (junk : OfxFiducial F)
    (fiducialsList : List (OfxFiducial F)) (fiducials : List (FiducialX F)) :
    List (OfxFiducial F) :=
  (fiducials.foldl (addDetection arith junk) fiducialsList).filterMap eraseDead

/-- The list after a sequence of frames, from the empty list of a new tracker. -/
def after (arith : FloatArith F) (junk : OfxFiducial F) (frames : List (List (FiducialX F))) :
    List (OfxFiducial F) :=
  frames.foldl (findFiducials arith junk) []

/-! ## One id at a time -/

/-- The listed fiducial with an id. -/
abbrev lookup (id : Int) (fiducialsList : List (OfxFiducial F)) : Option (OfxFiducial F) :=
  Keyed.lookup OfxFiducial.fidId id fiducialsList

/-- No two listed fiducials have one id. -/
abbrev DistinctIds (fiducialsList : List (OfxFiducial F)) : Prop :=
  Keyed.Distinct OfxFiducial.fidId fiducialsList

/-- The detections of an id in a frame. -/
def sightings (id : Int) (fiducials : List (FiducialX F)) : List (FiducialX F) :=
  fiducials.filter fun detected => detected.id = id ∧ detected.id ≠ invalidFiducialId

/-- The id is detected in the frame. -/
def Detected (id : Int) (fiducials : List (FiducialX F)) : Prop :=
  sightings id fiducials ≠ []

instance (id : Int) (fiducials : List (FiducialX F)) : Decidable (Detected id fiducials) :=
  inferInstanceAs (Decidable (¬ sightings id fiducials = []))

/-- The fiducial of one id after a detection of it. -/
def sight (arith : FloatArith F) (junk : OfxFiducial F) (known : Option (OfxFiducial F))
    (detected : FiducialX F) : Option (OfxFiducial F) :=
  some (known.elim (addFiducial arith junk detected) (updateExisting arith detected))

/-- The fiducial of one id after a frame with the given detections of it. -/
def observe (arith : FloatArith F) (junk : OfxFiducial F) (known : Option (OfxFiducial F))
    (seen : List (FiducialX F)) : Option (OfxFiducial F) :=
  (seen.foldl (sight arith junk) known).bind eraseDead

section Machines

variable {arith : FloatArith F} {junk : OfxFiducial F}

theorem updateExisting_fidId (detected : FiducialX F) (existing : OfxFiducial F) :
    (updateExisting arith detected existing).fidId = existing.fidId :=
  OfxFiducial.update_fidId ..

theorem addFiducial_fidId (detected : FiducialX F) :
    (addFiducial arith junk detected).fidId = detected.id :=
  rfl

theorem eraseDead_fidId (fiducial next : OfxFiducial F)
    (survives : eraseDead fiducial = some next) :
    next.fidId = fiducial.fidId := by
  simp only [eraseDead] at survives
  split at survives
  · rw [← Option.some.inj survives, OfxFiducial.isAlive_fidId]
  · contradiction

theorem distinctIds_addDetection {fiducialsList : List (OfxFiducial F)}
    (distinct : DistinctIds fiducialsList) (detected : FiducialX F) :
    DistinctIds (addDetection arith junk fiducialsList detected) := by
  unfold addDetection
  split
  · exact Keyed.distinct_upsert (updateExisting_fidId detected) (addFiducial_fidId detected)
      distinct
  · exact distinct

variable (arith junk) in
theorem distinctIds_foldl {fiducialsList : List (OfxFiducial F)}
    (distinct : DistinctIds fiducialsList) (fiducials : List (FiducialX F)) :
    DistinctIds (fiducials.foldl (addDetection arith junk) fiducialsList) := by
  induction fiducials generalizing fiducialsList with
  | nil => exact distinct
  | cons detected rest ih => exact ih (distinctIds_addDetection distinct detected)

/-- A call keeps the ids distinct. -/
theorem distinctIds_findFiducials {fiducialsList : List (OfxFiducial F)}
    (distinct : DistinctIds fiducialsList) (fiducials : List (FiducialX F)) :
    DistinctIds (findFiducials arith junk fiducialsList fiducials) :=
  Keyed.distinct_filterMap eraseDead_fidId (distinctIds_foldl arith junk distinct fiducials)

theorem distinctIds_after (frames : List (List (FiducialX F))) :
    DistinctIds (after arith junk frames) := by
  unfold after
  induction frames using List.reverseRecOn with
  | nil => exact List.nodup_nil
  | append_singleton past frame ih =>
      rw [List.foldl_append]
      exact distinctIds_findFiducials ih frame

theorem lookup_addDetection (id : Int) (fiducialsList : List (OfxFiducial F))
    (detected : FiducialX F) :
    lookup id (addDetection arith junk fiducialsList detected) =
      (sightings id [detected]).foldl (sight arith junk) (lookup id fiducialsList) := by
  by_cases valid : detected.id ≠ invalidFiducialId
  · rw [addDetection, if_pos valid]
    by_cases same : id = detected.id
    · subst same
      have seen : sightings detected.id [detected] = [detected] := by simp [sightings, valid]
      rw [seen]
      exact Keyed.lookup_upsert_self (updateExisting_fidId detected)
        (addFiducial_fidId detected) fiducialsList
    · have unseen : sightings id [detected] = [] := by
        simp [sightings, Ne.symm same]
      rw [unseen]
      exact Keyed.lookup_upsert_of_ne (updateExisting_fidId detected)
        (addFiducial_fidId detected) same fiducialsList
  · have unseen : sightings id [detected] = [] := by simp [sightings, valid]
    rw [addDetection, if_neg valid, unseen]
    rfl

theorem lookup_foldl (id : Int) (fiducials : List (FiducialX F))
    (fiducialsList : List (OfxFiducial F)) :
    lookup id (fiducials.foldl (addDetection arith junk) fiducialsList) =
      (sightings id fiducials).foldl (sight arith junk) (lookup id fiducialsList) := by
  induction fiducials generalizing fiducialsList with
  | nil => rfl
  | cons detected rest ih =>
      have split : sightings id (detected :: rest) =
          sightings id [detected] ++ sightings id rest := by
        rw [sightings, sightings, sightings, ← List.filter_append, List.singleton_append]
      rw [List.foldl_cons, ih, lookup_addDetection, split, List.foldl_append]

/-- What a call does to the fiducial of an id is decided by that id's own
detections. -/
theorem lookup_findFiducials {fiducialsList : List (OfxFiducial F)}
    (distinct : DistinctIds fiducialsList) (id : Int) (fiducials : List (FiducialX F)) :
    lookup id (findFiducials arith junk fiducialsList fiducials) =
      observe arith junk (lookup id fiducialsList) (sightings id fiducials) := by
  have aged := Keyed.lookup_filterMap eraseDead_fidId
    (distinctIds_foldl arith junk distinct fiducials) id
  rw [findFiducials, lookup, aged, observe, ← lookup_foldl]

theorem lookup_after_concat (id : Int) (past : List (List (FiducialX F)))
    (frame : List (FiducialX F)) :
    lookup id (after arith junk (past ++ [frame])) =
      observe arith junk (lookup id (after arith junk past)) (sightings id frame) := by
  have last : after arith junk (past ++ [frame]) =
      findFiducials arith junk (after arith junk past) frame := by
    rw [after, List.foldl_append]
    rfl
  rw [last, lookup_findFiducials (distinctIds_after past)]

/-- A listed fiducial is the one that a lookup of its id finds. -/
theorem mem_after_iff {frames : List (List (FiducialX F))} {fiducial : OfxFiducial F} :
    fiducial ∈ after arith junk frames ↔
      lookup fiducial.fidId (after arith junk frames) = some fiducial :=
  Keyed.mem_iff_lookup (distinctIds_after frames)

end Machines

end OfxPrimes.Fiducial
