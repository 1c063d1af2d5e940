import OfxPrimes.Fiducial.Survival

/-!
# State and place of the listed fiducials

After a call a fiducial that is listed already and is detected is found, and
stands on the image.  A new one detected once is aged in the same call: it is
lost, and is put back to the place of a last frame it never had.  A second
detection finds it, but within the jitter of the first it is put back as well.
-/

namespace OfxPrimes.Fiducial

open OfxPrimes.Pool

variable {F : Type}

/-- What the code relies on of `FIDUCIAL_INVALID_COORDS`: it is farther than the
jitter from every coordinate of the image, and equal to itself only. -/
structure InvalidCoordsLaws (arith : FloatArith F) : Prop where
  far : ∀ x, arith.le (arith.ofInt 0) x = true →
    arith.lt arith.jitterThreshold (arith.fabs (arith.sub x arith.invalidCoords)) = true
  apart : ∀ x, arith.le (arith.ofInt 0) x = true → arith.eq x arith.invalidCoords = false
  same : arith.eq arith.invalidCoords arith.invalidCoords = true

/-- The point has non-negative coordinates. -/
def OnImage (arith : FloatArith F) (x y : F) : Prop :=
  arith.le (arith.ofInt 0) x = true ∧ arith.le (arith.ofInt 0) y = true

/-- The detections of a frame have non-negative coordinates. -/
def FrameOnImage (arith : FloatArith F) (fiducials : List (FiducialX F)) : Prop :=
  ∀ detected ∈ fiducials, OnImage arith detected.x detected.y

instance (arith : FloatArith F) (fiducials : List (FiducialX F)) :
    Decidable (FrameOnImage arith fiducials) :=
  inferInstanceAs (Decidable (∀ detected ∈ fiducials,
    arith.le (arith.ofInt 0) detected.x = true ∧ arith.le (arith.ofInt 0) detected.y = true))

/-- A coordinate of a listed fiducial. -/
def Placed (arith : FloatArith F) (x : F) : Prop :=
  x = arith.invalidCoords ∨ arith.le (arith.ofInt 0) x = true

section Coordinates

variable {arith : FloatArith F}

/-- A detected coordinate puts a placed one on the image. -/
theorem filterJitter_onImage (laws : InvalidCoordsLaws arith) {x current : F}
    (onImage : arith.le (arith.ofInt 0) x = true) (placed : Placed arith current) :
    arith.le (arith.ofInt 0)
      (arith.filterJitter arith.jitterThreshold x current current) = true := by
  unfold FloatArith.filterJitter
  split
  · exact onImage
  · rename_i near
    rcases placed with rfl | nonneg
    · exact absurd (laws.far x onImage) near
    · exact nonneg

theorem filterJitter_placed {x current : F} (onImage : arith.le (arith.ofInt 0) x = true) :
    Placed arith
      (arith.filterJitter arith.jitterThreshold x current arith.invalidCoords) := by
  unfold FloatArith.filterJitter
  split
  · exact Or.inr onImage
  · exact Or.inl rfl

/-- A coordinate of a new fiducial is valid after its second detection exactly
when the two are farther apart than the jitter. -/
theorem eq_filterJitter_invalidCoords (laws : InvalidCoordsLaws arith) {x : F}
    (onImage : arith.le (arith.ofInt 0) x = true) (current : F) :
    arith.eq (arith.filterJitter arith.jitterThreshold x current arith.invalidCoords)
        arith.invalidCoords = false ↔
      arith.lt arith.jitterThreshold (arith.fabs (arith.sub x current)) = true := by
  unfold FloatArith.filterJitter
  split
  · rename_i far
    exact iff_of_true (laws.apart x onImage) far
  · rename_i near
    simp [laws.same, near]

end Coordinates

/-- Both coordinates of a fiducial are placed. -/
def OfxFiducial.Placed (arith : FloatArith F) (fiducial : OfxFiducial F) : Prop :=
  Fiducial.Placed arith fiducial.current.xpos ∧ Fiducial.Placed arith fiducial.current.ypos

/-- A fiducial stands on the image. -/
def OfxFiducial.OnImage (arith : FloatArith F) (fiducial : OfxFiducial F) : Prop :=
  Fiducial.OnImage arith fiducial.current.xpos fiducial.current.ypos

section Fiducials

variable {arith : FloatArith F}

theorem OfxFiducial.OnImage.placed {fiducial : OfxFiducial F}
    (onImage : fiducial.OnImage arith) : fiducial.Placed arith :=
  ⟨Or.inr onImage.1, Or.inr onImage.2⟩

theorem updateExisting_onImage (laws : InvalidCoordsLaws arith) {fiducial : OfxFiducial F}
    (stands : fiducial.last = fiducial.current) (placed : fiducial.Placed arith)
    {detected : FiducialX F} (onImage : OnImage arith detected.x detected.y) :
    (updateExisting arith detected fiducial).OnImage arith := by
  simp only [OfxFiducial.OnImage, updateExisting, OfxFiducial.update_current, stands]
  exact ⟨filterJitter_onImage laws onImage.1 placed.1,
    filterJitter_onImage laws onImage.2 placed.2⟩

/-- A fiducial that stands somewhere is on the image after any detections. -/
theorem foldl_onImage (laws : InvalidCoordsLaws arith) (junk : OfxFiducial F)
    {fiducial : OfxFiducial F} (alive : fiducial.alive = true)
    (stands : fiducial.last = fiducial.current) (placed : fiducial.Placed arith)
    (detected : FiducialX F) (rest : List (FiducialX F))
    (onImage : FrameOnImage arith (detected :: rest)) :
    ∀ final, (detected :: rest).foldl (sight arith junk) (some fiducial) = some final →
      final.OnImage arith := by
  have first : (updateExisting arith detected fiducial).OnImage arith :=
    updateExisting_onImage laws stands placed (onImage detected List.mem_cons_self)
  have sighted := sighted_updateExisting arith alive detected
  induction rest generalizing detected fiducial with
  | nil =>
      intro final isFinal
      cases isFinal
      exact first
  | cons again rest ih =>
      have restOnImage : FrameOnImage arith (again :: rest) :=
        fun later mem => onImage later (List.mem_cons_of_mem _ mem)
      have second : (updateExisting arith again
          (updateExisting arith detected fiducial)).OnImage arith :=
        updateExisting_onImage laws sighted.stands first.placed
          (restOnImage again List.mem_cons_self)
      exact ih sighted.alive sighted.stands first.placed again restOnImage second
        (sighted_updateExisting arith sighted.alive again)

/-- A listed fiducial that is detected stands on the image. -/
theorem observe_some_onImage (laws : InvalidCoordsLaws arith) (junk : OfxFiducial F)
    {known : OfxFiducial F} (settled : Settled known) (placed : known.Placed arith)
    {seen : List (FiducialX F)} (nonempty : seen ≠ []) (onImage : FrameOnImage arith seen) :
    ∀ fiducial ∈ observe arith junk (some known) seen, fiducial.OnImage arith := by
  rcases List.exists_cons_of_ne_nil nonempty with ⟨detected, rest, rfl⟩
  rcases sighted_of_known arith junk settled.alive settled.life_pos detected rest with
    ⟨final, folded, sighted⟩
  have strong : 1 ≤ Track.gain known.life :=
    le_trans (by decide) (Track.three_le_gain settled.life_pos)
  have finalOnImage := foldl_onImage laws junk settled.alive settled.stands placed detected rest
    onImage final folded
  intro fiducial isFiducial
  rw [observe_of_sighted sighted strong folded] at isFiducial
  cases isFiducial
  exact finalOnImage

/-- A new fiducial detected three times or more stands on the image. -/
theorem observe_thrice_onImage (laws : InvalidCoordsLaws arith) (junk : OfxFiducial F)
    (first second third : FiducialX F) (rest : List (FiducialX F))
    (onImage : FrameOnImage arith (first :: second :: third :: rest)) :
    ∀ fiducial ∈ observe arith junk none (first :: second :: third :: rest),
      fiducial.OnImage arith := by
  have secondOnImage := onImage second (by simp)
  have placed : (updateExisting arith second (addFiducial arith junk first)).Placed arith := by
    simp only [OfxFiducial.Placed, updateExisting, OfxFiducial.update_current]
    exact ⟨filterJitter_placed secondOnImage.1, filterJitter_placed secondOnImage.2⟩
  have restOnImage : FrameOnImage arith (third :: rest) :=
    fun later mem => onImage later (List.mem_cons_of_mem _ (List.mem_cons_of_mem _ mem))
  have sighted := sighted_addFiducial arith junk first second
  rcases sighted_foldl arith junk sighted (by decide) (third :: rest) with
    ⟨final, folded, finalSighted⟩
  have finalOnImage := foldl_onImage laws junk sighted.alive sighted.stands placed third rest
    restOnImage final folded
  intro fiducial isFiducial
  have observed : observe arith junk none (first :: second :: third :: rest) =
      some { final with updated := false } :=
    observe_of_sighted finalSighted (by decide) folded
  rw [observed] at isFiducial
  cases isFiducial
  exact finalOnImage

theorem observe_twice_isSome (junk : OfxFiducial F) (first second : FiducialX F) :
    (observe arith junk none [first, second]).isSome := by
  rw [observe_of_sighted (sighted_addFiducial arith junk first second) (by decide) rfl,
    Option.isSome_some]

/-- Where a new fiducial detected twice stands. -/
theorem observe_twice (junk : OfxFiducial F) (first second : FiducialX F) :
    ∀ fiducial ∈ observe arith junk none [first, second],
      fiducial.current.xpos =
          arith.filterJitter arith.jitterThreshold second.x first.x arith.invalidCoords ∧
        fiducial.current.ypos =
          arith.filterJitter arith.jitterThreshold second.y first.y arith.invalidCoords := by
  have sighted := sighted_addFiducial arith junk first second
  intro fiducial isFiducial
  rw [observe_of_sighted sighted (by decide) rfl] at isFiducial
  cases isFiducial
  simp only [updateExisting, OfxFiducial.update_current]
  exact ⟨rfl, rfl⟩

/-- Listed fiducials stay placed. -/
theorem observe_placed (laws : InvalidCoordsLaws arith) (junk : OfxFiducial F)
    {known : Option (OfxFiducial F)}
    (settled : ∀ fiducial ∈ known, Settled fiducial ∧ fiducial.Placed arith)
    {seen : List (FiducialX F)} (onImage : FrameOnImage arith seen) :
    ∀ fiducial ∈ observe arith junk known seen, fiducial.Placed arith := by
  intro fiducial isFiducial
  cases known with
  | none =>
      rcases seen with _ | ⟨first, _ | ⟨second, _ | ⟨third, rest⟩⟩⟩
      · simp [observe] at isFiducial
      · rw [observe_once] at isFiducial
        cases isFiducial
        exact ⟨Or.inl rfl, Or.inl rfl⟩
      · have secondOnImage := onImage second (by simp)
        rcases observe_twice junk first second fiducial isFiducial with ⟨xpos, ypos⟩
        rw [OfxFiducial.Placed, xpos, ypos]
        exact ⟨filterJitter_placed secondOnImage.1, filterJitter_placed secondOnImage.2⟩
      · exact (observe_thrice_onImage laws junk first second third rest onImage fiducial
          isFiducial).placed
  | some listed =>
      rcases settled listed rfl with ⟨isSettled, placed⟩
      by_cases nonempty : seen = []
      · subst nonempty
        by_cases last : listed.life = 1
        · simp [observe_dying isSettled last] at isFiducial
        · rw [observe_missed isSettled last, isSettled.stands] at isFiducial
          cases isFiducial
          exact placed
      · exact (observe_some_onImage laws junk isSettled placed nonempty onImage fiducial
          isFiducial).placed

theorem frameOnImage_sightings {frame : List (FiducialX F)} (onImage : FrameOnImage arith frame)
    (id : Int) : FrameOnImage arith (sightings id frame) :=
  fun detected mem => onImage detected (List.mem_filter.mp mem).1

/-- After any run on the image every listed fiducial is settled and placed. -/
theorem settled_placed_after (laws : InvalidCoordsLaws arith) (junk : OfxFiducial F)
    {frames : List (List (FiducialX F))} (onImage : ∀ frame ∈ frames, FrameOnImage arith frame)
    (id : Int) :
    ∀ fiducial ∈ lookup id (after arith junk frames),
      Settled fiducial ∧ fiducial.Placed arith := by
  have placed : ∀ fiducial ∈ lookup id (after arith junk frames), fiducial.Placed arith := by
    induction frames using List.reverseRecOn with
    | nil => simp [after]
    | append_singleton past frame ih =>
        have pastOnImage : ∀ earlier ∈ past, FrameOnImage arith earlier :=
          fun earlier mem => onImage earlier (List.mem_append_left _ mem)
        have frameOnImage : FrameOnImage arith frame := onImage frame (by simp)
        rw [lookup_after_concat]
        apply observe_placed laws junk _ (frameOnImage_sightings frameOnImage id)
        exact fun fiducial isFiducial =>
          ⟨(after_refines past id).1 fiducial isFiducial, ih pastOnImage fiducial isFiducial⟩
  exact fun fiducial isFiducial =>
    ⟨(after_refines frames id).1 fiducial isFiducial, placed fiducial isFiducial⟩

end Fiducials

/-! ## Away from the invalid coordinates -/

/-- The position is the pair of `FIDUCIAL_INVALID_COORDS`. -/
def OfxFiducial.atInvalidCoords (arith : FloatArith F) (fiducial : OfxFiducial F) : Bool :=
  arith.eq fiducial.current.xpos arith.invalidCoords &&
    arith.eq fiducial.current.ypos arith.invalidCoords

/-- No detected coordinate is `FIDUCIAL_INVALID_COORDS`: `find_fiducialsX` reports
means of pixel positions, and these are not negative. -/
def FrameClear (arith : FloatArith F) (fiducials : List (FiducialX F)) : Prop :=
  ∀ detected ∈ fiducials, arith.eq detected.x arith.invalidCoords = false ∧
    arith.eq detected.y arith.invalidCoords = false

instance (arith : FloatArith F) (fiducials : List (FiducialX F)) :
    Decidable (FrameClear arith fiducials) :=
  inferInstanceAs (Decidable (∀ detected ∈ fiducials,
    arith.eq detected.x arith.invalidCoords = false ∧
      arith.eq detected.y arith.invalidCoords = false))

section Clear

variable {arith : FloatArith F}

theorem frameClear_sightings {frame : List (FiducialX F)} (clear : FrameClear arith frame)
    (id : Int) : FrameClear arith (sightings id frame) :=
  fun detected mem => clear detected (List.mem_filter.mp mem).1

/-- A filtered coordinate is the new one or the last. -/
theorem filterJitter_eq (threshold new current last : F) :
    arith.filterJitter threshold new current last = new ∨
      arith.filterJitter threshold new current last = last := by
  unfold FloatArith.filterJitter
  split
  · exact Or.inl rfl
  · exact Or.inr rfl

theorem filterJitter_clear {new last : F} (newClear : arith.eq new arith.invalidCoords = false)
    (lastClear : arith.eq last arith.invalidCoords = false) (threshold current : F) :
    arith.eq (arith.filterJitter threshold new current last) arith.invalidCoords = false := by
  rcases filterJitter_eq threshold new current last with isNew | isLast
  · rw [isNew, newClear]
  · rw [isLast, lastClear]

/-- A detection away from the invalid coordinates keeps a fiducial away. -/
theorem updateExisting_clear {fiducial : OfxFiducial F}
    (stands : fiducial.last = fiducial.current) (away : fiducial.atInvalidCoords arith = false)
    {detected : FiducialX F} (xClear : arith.eq detected.x arith.invalidCoords = false)
    (yClear : arith.eq detected.y arith.invalidCoords = false) :
    (updateExisting arith detected fiducial).atInvalidCoords arith = false := by
  simp only [OfxFiducial.atInvalidCoords, updateExisting, OfxFiducial.update_current, stands]
  rcases Bool.and_eq_false_iff.mp away with xAway | yAway
  · rw [filterJitter_clear xClear xAway, Bool.false_and]
  · rw [filterJitter_clear yClear yAway, Bool.and_false]

theorem foldl_clear (junk : OfxFiducial F) {fiducial : OfxFiducial F}
    (alive : fiducial.alive = true) (stands : fiducial.last = fiducial.current)
    (away : fiducial.atInvalidCoords arith = false) {seen : List (FiducialX F)}
    (clear : FrameClear arith seen) :
    ∀ final, seen.foldl (sight arith junk) (some fiducial) = some final →
      final.atInvalidCoords arith = false := by
  induction seen generalizing fiducial with
  | nil =>
      intro final isFinal
      cases isFinal
      exact away
  | cons detected rest ih =>
      have sighted := sighted_updateExisting arith alive detected
      rcases clear detected List.mem_cons_self with ⟨xClear, yClear⟩
      exact ih sighted.alive sighted.stands (updateExisting_clear stands away xClear yClear)
        fun later mem => clear later (List.mem_cons_of_mem _ mem)

/-- A listed fiducial that is away from the invalid coordinates stays away. -/
theorem observe_clear (junk : OfxFiducial F) {known : OfxFiducial F} (settled : Settled known)
    (away : known.atInvalidCoords arith = false) {seen : List (FiducialX F)}
    (clear : FrameClear arith seen) :
    ∀ fiducial ∈ observe arith junk (some known) seen,
      fiducial.atInvalidCoords arith = false := by
  intro fiducial isFiducial
  cases seen with
  | nil =>
      by_cases last : known.life = 1
      · simp [observe_dying settled last] at isFiducial
      · rw [observe_missed settled last, settled.stands] at isFiducial
        cases isFiducial
        exact away
  | cons detected rest =>
      rcases sighted_of_known arith junk settled.alive settled.life_pos detected rest with
        ⟨final, folded, sighted⟩
      have strong : 1 ≤ Track.gain known.life :=
        le_trans (by decide) (Track.three_le_gain settled.life_pos)
      have finalAway := foldl_clear junk settled.alive settled.stands away clear final folded
      rw [observe_of_sighted sighted strong folded] at isFiducial
      cases isFiducial
      exact finalAway

end Clear

/-! ## State and coordinates after a call -/

/-- The listed fiducials are found if the frame detects their id and lost
otherwise, and neither coordinate of a detected one is invalid. -/
def ShownAs (arith : FloatArith F) (fiducialsList : List (OfxFiducial F))
    (frame : List (FiducialX F)) : Prop :=
  ∀ fiducial ∈ fiducialsList,
    fiducial.state = (if Detected fiducial.fidId frame then .found else .lost) ∧
      (Detected fiducial.fidId frame →
        arith.eq fiducial.current.xpos arith.invalidCoords = false ∧
          arith.eq fiducial.current.ypos arith.invalidCoords = false)

instance (arith : FloatArith F) (fiducialsList : List (OfxFiducial F))
    (frame : List (FiducialX F)) : Decidable (ShownAs arith fiducialsList frame) :=
  inferInstanceAs (Decidable (∀ fiducial ∈ fiducialsList,
    fiducial.state = (if Detected fiducial.fidId frame then .found else .lost) ∧
      (Detected fiducial.fidId frame →
        arith.eq fiducial.current.xpos arith.invalidCoords = false ∧
          arith.eq fiducial.current.ypos arith.invalidCoords = false)))

/-- The detections of a new id are more than two, or two that are farther apart
than the jitter in both coordinates. -/
def Confirmed (arith : FloatArith F) : List (FiducialX F) → Prop
  | [] => False
  | [_] => False
  | [first, second] =>
      arith.lt arith.jitterThreshold (arith.fabs (arith.sub second.x first.x)) = true ∧
        arith.lt arith.jitterThreshold (arith.fabs (arith.sub second.y first.y)) = true
  | _ :: _ :: _ :: _ => True

/-- Every id that a frame shows is listed already, or its detections confirm
one another. -/
def FrameConfirmed (arith : FloatArith F) (fiducialsList : List (OfxFiducial F))
    (frame : List (FiducialX F)) : Prop :=
  ∀ id, Detected id frame → ¬ Listed id fiducialsList → Confirmed arith (sightings id frame)

section Shown

variable {arith : FloatArith F}

/-- One id after a frame: the state tells whether it was detected, and the
coordinates of a detected one are valid. -/
def OfxFiducial.ShownAs (arith : FloatArith F) (seen : List (FiducialX F))
    (fiducial : OfxFiducial F) : Prop :=
  fiducial.state = (if seen ≠ [] then .found else .lost) ∧
    (seen ≠ [] →
      arith.eq fiducial.current.xpos arith.invalidCoords = false ∧
        arith.eq fiducial.current.ypos arith.invalidCoords = false)

theorem state_of_settled {fiducial : OfxFiducial F} (settled : Settled fiducial) :
    fiducial.state = if fiducial.track.found then .found else .lost := by
  rcases settled.shown with found | lost
  · simp [OfxFiducial.track, found]
  · simp [OfxFiducial.track, lost]

theorem shownAs_of_onImage (laws : InvalidCoordsLaws arith) {fiducial : OfxFiducial F}
    {seen : List (FiducialX F)} (nonempty : seen ≠ []) (found : fiducial.state = .found)
    (onImage : fiducial.OnImage arith) : fiducial.ShownAs arith seen :=
  ⟨by rw [found, if_pos nonempty],
    fun _ => ⟨laws.apart _ onImage.1, laws.apart _ onImage.2⟩⟩

/-- An id that its track finds is found. -/
theorem found_of_observe (junk : OfxFiducial F) {known : Option (OfxFiducial F)}
    (settled : ∀ fiducial ∈ known, Settled fiducial) {seen : List (FiducialX F)} {life : Int}
    (isTrack : Track.next (known.map OfxFiducial.track) seen.length = some ⟨true, life⟩) :
    ∀ fiducial ∈ observe arith junk known seen, fiducial.state = .found := by
  intro fiducial isFiducial
  rcases observe_refines settled seen with ⟨isSettled, tracks⟩
  rw [Option.mem_def.mp isFiducial, isTrack, Option.map_some] at tracks
  rw [state_of_settled (isSettled fiducial isFiducial), Option.some.inj tracks]
  rfl

/-- A listed id that is not detected is lost. -/
theorem observe_missed_shownAs (junk : OfxFiducial F) {listed : OfxFiducial F}
    (settled : Settled listed) :
    ∀ fiducial ∈ observe arith junk (some listed) [], fiducial.ShownAs arith [] := by
  intro fiducial isFiducial
  by_cases last : listed.life = 1
  · simp [observe_dying settled last] at isFiducial
  · rw [observe_missed settled last] at isFiducial
    cases isFiducial
    exact ⟨rfl, fun nonempty => absurd rfl nonempty⟩

/-- A new id with one detection is lost in the frame that detects it. -/
theorem not_observe_once_shownAs (junk : OfxFiducial F) (detected : FiducialX F) :
    ¬ ∀ fiducial ∈ observe arith junk none [detected], fiducial.ShownAs arith [detected] := by
  intro shown
  have isFound := (shown _ (observe_once detected)).1
  rw [if_pos (List.cons_ne_nil _ _)] at isFound
  contradiction

/-- A new id with two detections is shown right exactly when they are farther apart
than the jitter. -/
theorem observe_twice_shownAs_iff (laws : InvalidCoordsLaws arith) (junk : OfxFiducial F)
    {first second : FiducialX F} (onImage : FrameOnImage arith [first, second]) :
    (∀ fiducial ∈ observe arith junk none [first, second],
        fiducial.ShownAs arith [first, second]) ↔ Confirmed arith [first, second] := by
  have secondOnImage := onImage second (by simp)
  have valid := and_congr (eq_filterJitter_invalidCoords laws secondOnImage.1 first.x)
    (eq_filterJitter_invalidCoords laws secondOnImage.2 first.y)
  rcases Option.isSome_iff_exists.mp (observe_twice_isSome junk first second) with
    ⟨listed, observed⟩
  rcases observe_twice junk first second listed observed with ⟨xpos, ypos⟩
  have found : listed.state = .found :=
    found_of_observe junk (fun _ isNone => absurd isNone (Option.not_mem_none _)) rfl listed
      observed
  constructor
  · intro shown
    have coords := (shown listed observed).2 (List.cons_ne_nil _ _)
    rw [xpos, ypos] at coords
    exact valid.mp coords
  · intro confirmed fiducial isFiducial
    cases Option.some.inj (observed.symm.trans isFiducial)
    constructor
    · rw [found, if_pos (List.cons_ne_nil _ _)]
    · intro _
      rw [xpos, ypos]
      exact valid.mpr confirmed

/-- A listed id is always shown right, a new one exactly when its detections
confirm one another. -/
theorem observe_shownAs_iff (laws : InvalidCoordsLaws arith) (junk : OfxFiducial F)
    {known : Option (OfxFiducial F)}
    (settled : ∀ fiducial ∈ known, Settled fiducial ∧ fiducial.Placed arith)
    {seen : List (FiducialX F)} (onImage : FrameOnImage arith seen) :
    (∀ fiducial ∈ observe arith junk known seen, fiducial.ShownAs arith seen) ↔
      (seen ≠ [] → known = none → Confirmed arith seen) := by
  have allSettled : ∀ fiducial ∈ known, Settled fiducial :=
    fun fiducial isFiducial => (settled fiducial isFiducial).1
  cases known with
  | none =>
      rcases seen with _ | ⟨first, _ | ⟨second, _ | ⟨third, rest⟩⟩⟩
      · simp [observe]
      · exact iff_of_false (not_observe_once_shownAs junk first)
          fun confirmed => confirmed (List.cons_ne_nil _ _) rfl
      · apply (observe_twice_shownAs_iff laws junk onImage).trans
        exact ⟨fun confirmed _ _ => confirmed,
          fun confirmed => confirmed (List.cons_ne_nil _ _) rfl⟩
      · refine iff_of_true ?_ fun _ _ => trivial
        intro fiducial isFiducial
        exact shownAs_of_onImage laws (List.cons_ne_nil _ _)
          (found_of_observe junk allSettled rfl fiducial isFiducial)
          (observe_thrice_onImage laws junk first second third rest onImage fiducial isFiducial)
  | some listed =>
      rcases settled listed rfl with ⟨listedSettled, placed⟩
      refine iff_of_true ?_ fun _ isNone => absurd isNone (Option.some_ne_none _)
      cases seen with
      | nil => exact observe_missed_shownAs junk listedSettled
      | cons detected rest =>
          intro fiducial isFiducial
          exact shownAs_of_onImage laws (List.cons_ne_nil _ _)
            (found_of_observe junk allSettled rfl fiducial isFiducial)
            (observe_some_onImage laws junk listedSettled placed (List.cons_ne_nil _ _) onImage
              fiducial isFiducial)

/-- A call shows the frame right exactly when every new id in it is confirmed. -/
theorem shownAs_after_iff (laws : InvalidCoordsLaws arith) (junk : OfxFiducial F)
    {past : List (List (FiducialX F))} {frame : List (FiducialX F)}
    (pastOnImage : ∀ earlier ∈ past, FrameOnImage arith earlier)
    (onImage : FrameOnImage arith frame) :
    ShownAs arith (after arith junk (past ++ [frame])) frame ↔
      FrameConfirmed arith (after arith junk past) frame := by
  have perId : ∀ id, (∀ fiducial ∈ lookup id (after arith junk (past ++ [frame])),
      fiducial.ShownAs arith (sightings id frame)) ↔
        (Detected id frame → ¬ Listed id (after arith junk past) →
          Confirmed arith (sightings id frame)) := by
    intro id
    rw [lookup_after_concat, listed_iff_lookup, Option.not_isSome_iff_eq_none]
    exact observe_shownAs_iff laws junk (settled_placed_after laws junk pastOnImage id)
      (frameOnImage_sightings onImage id)
  constructor
  · intro shown id
    apply (perId id).mp
    intro fiducial isFiducial
    rcases Keyed.mem_of_lookup isFiducial with ⟨mem, rfl⟩
    exact shown fiducial mem
  · intro confirmed fiducial mem
    have found := mem_after_iff.mp mem
    exact (perId fiducial.fidId).mpr (confirmed fiducial.fidId) fiducial found

/-- A run of frames on the image is shown right after every call exactly when in
every frame each id that is not listed yet is confirmed. -/
theorem shownAs_run_iff (laws : InvalidCoordsLaws arith) (junk : OfxFiducial F)
    {frames : List (List (FiducialX F))} (onImage : ∀ frame ∈ frames, FrameOnImage arith frame) :
    (∀ past frame rest, frames = past ++ frame :: rest →
        ShownAs arith (after arith junk (past ++ [frame])) frame) ↔
      ∀ past frame rest, frames = past ++ frame :: rest →
        FrameConfirmed arith (after arith junk past) frame := by
  have each : ∀ past frame rest, frames = past ++ frame :: rest →
      (ShownAs arith (after arith junk (past ++ [frame])) frame ↔
        FrameConfirmed arith (after arith junk past) frame) := by
    rintro past frame rest rfl
    exact shownAs_after_iff laws junk (fun earlier mem => onImage earlier (by simp [mem]))
      (onImage frame (by simp))
  constructor
  · exact fun shown past frame rest split => (each past frame rest split).mp
      (shown past frame rest split)
  · exact fun confirmed past frame rest split => (each past frame rest split).mpr
      (confirmed past frame rest split)

end Shown

/-- The laws hold of rational numbers. -/
theorem invalidCoordsLaws_rational : InvalidCoordsLaws FloatArith.rational where
  far x nonneg := by
    cases x with
    | none => exact absurd nonneg (by decide)
    | some a =>
        have positive : 0 ≤ a := by simpa [FloatArith.rational] using nonneg
        have far : ¬ a - ((-100 : Int) : Rat) < 0 := by grind
        have above : ((1 : Int) : Rat) < a - ((-100 : Int) : Rat) := by grind
        have distance : FloatArith.rational.fabs
            (FloatArith.rational.sub (some a) FloatArith.rational.invalidCoords) =
              some (a - ((-100 : Int) : Rat)) :=
          congrArg some (if_neg far)
        rw [distance]
        exact decide_eq_true above
  apart x nonneg := by
    cases x with
    | none => exact absurd nonneg (by decide)
    | some a =>
        have positive : 0 ≤ a := by simpa [FloatArith.rational] using nonneg
        have apart : a ≠ -100 := by grind
        simp [FloatArith.rational, FloatArith.invalidCoords, apart]
  same := by decide

theorem shownAs_run_twiceDetected :
    (∀ past frame rest,
        [[detection 5 100 100, detection 5 140 90], [], [detection 5 150 95]] =
          past ++ frame :: rest →
        ShownAs .rational (after .rational (.zeroed .rational) (past ++ [frame])) frame) ↔
      ∀ past frame rest,
        [[detection 5 100 100, detection 5 140 90], [], [detection 5 150 95]] =
          past ++ frame :: rest →
        FrameConfirmed .rational (after .rational (.zeroed .rational) past) frame :=
  shownAs_run_iff invalidCoordsLaws_rational (.zeroed .rational) (by decide)

theorem newFiducial_lost :
    ¬ ShownAs .rational
      (after .rational (.zeroed .rational) ([] ++ [[detection 5 100 100]]))
      [detection 5 100 100] := by
  decide

end OfxPrimes.Fiducial
