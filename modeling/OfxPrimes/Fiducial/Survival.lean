import OfxPrimes.Fiducial.Tracker

/-!
# How long a fiducial stays listed

`Track` is the abstract machine of one id: whether the last frame showed it and
how much life it has left.  The list refines one such machine an id.  A marker
that is listed already survives two frames without being seen.  A new one does
not: `operator=(const FiducialX&)` leaves `updated` unset, so the ageing loop
of the same call takes a life from it, and one missed frame takes the other.
-/

namespace OfxPrimes.Fiducial

open OfxPrimes.Pool

variable {F : Type}

/-- What is remembered of a listed id. -/
structure Track where
  found : Bool
  life : Int
  deriving DecidableEq, Repr

namespace Track

/-- The life after being seen. -/
def gain (life : Int) : Int :=
  if life < maxFiducialLife then life + 2 else life

/-- The machine of one id: a frame with `count` detections of it. -/
def next (known : Option Track) (count : Nat) : Option Track :=
  match known, count with
  | none, 0 => none
  | none, 1 => some ⟨false, 1⟩
  | none, _ + 2 => some ⟨true, 4⟩
  | some track, 0 => if track.life = 1 then none else some ⟨false, track.life - 1⟩
  | some track, _ + 1 => some ⟨true, gain track.life⟩

/-- The lives a listed id can have. -/
def Live (known : Option Track) : Prop :=
  ∀ track ∈ known, 1 ≤ track.life ∧ track.life ≤ 4 ∧ (track.found = true → 3 ≤ track.life)

theorem three_le_gain {life : Int} (live : 1 ≤ life) : 3 ≤ gain life := by
  simp only [gain, maxFiducialLife]
  omega

theorem gain_le_four {life : Int} (bound : life ≤ 4) : gain life ≤ 4 := by
  simp only [gain, maxFiducialLife]
  omega

theorem live_next {known : Option Track} (live : Live known) (count : Nat) :
    Live (next known count) := by
  cases known with
  | none =>
      match count with
      | 0 => simp [next, Live]
      | 1 => simp [next, Live]
      | _ + 2 => simp [next, Live]
  | some track =>
      rcases live track rfl with ⟨positive, bound, -⟩
      match count with
      | 0 =>
          simp only [next, Live]
          split
          · simp
          · intro later isLater
            cases isLater
            have lower : 1 ≤ track.life - 1 := by omega
            have upper : track.life - 1 ≤ 4 := by omega
            exact ⟨lower, upper, by simp⟩
      | _ + 1 =>
          intro later isLater
          cases isLater
          exact ⟨le_trans (by decide) (three_le_gain positive), gain_le_four bound,
            fun _ => three_le_gain positive⟩

theorem live_foldl {known : Option Track} (live : Live known) (counts : List Nat) :
    Live (counts.foldl next known) := by
  induction counts generalizing known with
  | nil => exact live
  | cons count rest ih => exact ih (live_next live count)

/-- With more than one life left an id survives any frame, with one life less in
the worst case. -/
theorem next_of_life {track : Track} (enough : 1 < track.life) (count : Nat) :
    ∃ later, next (some track) count = some later ∧ track.life - 1 ≤ later.life := by
  match count with
  | 0 =>
      have notLast : track.life ≠ 1 := (ne_of_lt enough).symm
      exact ⟨⟨false, track.life - 1⟩, by simp [next, notLast], le_refl _⟩
  | _ + 1 =>
      refine ⟨⟨true, gain track.life⟩, rfl, ?_⟩
      simp only [gain, maxFiducialLife]
      omega

/-- Only a lost id leaves the list. -/
theorem lost_of_next_eq_none {track : Track} {count : Nat}
    (live : 1 ≤ track.life ∧ track.life ≤ 4 ∧ (track.found = true → 3 ≤ track.life))
    (gone : next (some track) count = none) : track.found = false := by
  match count with
  | 0 =>
      simp only [next] at gone
      split at gone
      · rename_i last
        by_contra found
        have strong := live.2.2 (Bool.eq_true_of_not_eq_false found)
        omega
      · contradiction
  | _ + 1 => exact absurd gone (by simp [next])

theorem next_zero_life {known : Option Track} {bound : Int}
    (lives : ∀ track ∈ known, track.life ≤ bound) :
    ∀ later ∈ next known 0, later.life ≤ bound - 1 := by
  intro later isLater
  cases known with
  | none => simp [next] at isLater
  | some track =>
      have life := lives track rfl
      simp only [next] at isLater
      split at isLater
      · simp at isLater
      · cases isLater
        exact Int.sub_le_sub_right life 1

/-- Four frames without a detection outlast every life. -/
theorem next_zero_four {known : Option Track} (live : Live known) :
    next (next (next (next known 0) 0) 0) 0 = none := by
  have once := next_zero_life fun track isTrack => (live track isTrack).2.1
  have twice := next_zero_life once
  have thrice := next_zero_life twice
  have gone := next_zero_life thrice
  have positive := live_next (live_next (live_next (live_next live 0) 0) 0) 0
  cases final : next (next (next (next known 0) 0) 0) 0 with
  | none => rfl
  | some track =>
      have upper := gone track final
      have lower := (positive track final).1
      omega

/-- An id that is listed already, or shown more than once, survives the next two
frames, whatever they show. -/
theorem survives {known : Option Track} (live : Live known) {count : Nat} (seen : 0 < count)
    (either : known.isSome ∨ 2 ≤ count) (second third : Nat) :
    (next known count).isSome ∧ (next (next known count) second).isSome ∧
      (next (next (next known count) second) third).isSome := by
  have strong : ∃ track, next known count = some track ∧ 3 ≤ track.life := by
    cases known with
    | none =>
        match count, either with
        | _ + 2, _ => exact ⟨⟨true, 4⟩, rfl, by decide⟩
    | some track =>
        match count, seen with
        | _ + 1, _ => exact ⟨⟨true, gain track.life⟩, rfl, three_le_gain (live track rfl).1⟩
  rcases strong with ⟨track, first, life⟩
  have enough : 1 < track.life := lt_of_lt_of_le (by decide) life
  rcases next_of_life enough second with ⟨later, secondNext, laterLife⟩
  have stillEnough : 1 < later.life := by omega
  rcases next_of_life stillEnough third with ⟨latest, thirdNext, -⟩
  rw [first, secondNext, thirdNext]
  exact ⟨rfl, rfl, rfl⟩

/-- A new id shown once does not survive the next frame that misses it. -/
theorem next_once_missed : next (next none 1) 0 = none :=
  rfl

end Track

/-! ## The list refines the machines -/

/-- What holds of every fiducial between two calls. -/
structure Settled (fiducial : OfxFiducial F) : Prop where
  alive : fiducial.alive = true
  updated : fiducial.updated = false
  life_pos : 1 ≤ fiducial.life
  stands : fiducial.last = fiducial.current
  shown : fiducial.state = .found ∨ fiducial.state = .lost

/-- What holds of a fiducial with the given life after the detections of a frame
that shows it. -/
structure Sighted (life : Int) (fiducial : OfxFiducial F) : Prop where
  alive : fiducial.alive = true
  updated : fiducial.updated = true
  found : fiducial.state = .found
  life_eq : fiducial.life = life
  stands : fiducial.last = fiducial.current

/-- The machine's view of a listed fiducial. -/
def OfxFiducial.track (fiducial : OfxFiducial F) : Track :=
  ⟨fiducial.state = .found, fiducial.life⟩

section Refinement

variable {arith : FloatArith F} {junk : OfxFiducial F}

variable (arith) in
theorem sighted_updateExisting {fiducial : OfxFiducial F} (alive : fiducial.alive = true)
    (detected : FiducialX F) :
    Sighted (Track.gain fiducial.life) (updateExisting arith detected fiducial) where
  alive := by rw [updateExisting, OfxFiducial.update_alive, alive]
  updated := OfxFiducial.update_updated ..
  found := OfxFiducial.update_state ..
  life_eq := OfxFiducial.update_life ..
  stands := OfxFiducial.update_last ..

variable (arith junk) in
/-- Further detections in the same frame change no more than where it is. -/
theorem sighted_foldl {fiducial : OfxFiducial F} {life : Int} (sighted : Sighted life fiducial)
    (strong : 3 ≤ life) (seen : List (FiducialX F)) :
    ∃ final, seen.foldl (sight arith junk) (some fiducial) = some final ∧ Sighted life final := by
  induction seen generalizing fiducial with
  | nil => exact ⟨fiducial, rfl, sighted⟩
  | cons detected rest ih =>
      have again := sighted_updateExisting arith sighted.alive detected
      have same : Track.gain fiducial.life = life := by
        rw [sighted.life_eq, Track.gain, maxFiducialLife, if_neg (not_lt.mpr strong)]
      rw [same] at again
      exact ih again

variable (arith junk) in
theorem sighted_of_known {fiducial : OfxFiducial F} (alive : fiducial.alive = true)
    (life : 1 ≤ fiducial.life) (detected : FiducialX F) (rest : List (FiducialX F)) :
    ∃ final, (detected :: rest).foldl (sight arith junk) (some fiducial) = some final ∧
      Sighted (Track.gain fiducial.life) final :=
  sighted_foldl arith junk (sighted_updateExisting arith alive detected)
    (Track.three_le_gain life) rest

theorem eraseDead_of_sighted {fiducial : OfxFiducial F} {life : Int}
    (sighted : Sighted life fiducial) (strong : 1 ≤ life) :
    eraseDead fiducial = some { fiducial with updated := false } := by
  have living : fiducial.life ≠ 0 := by
    rw [sighted.life_eq]
    omega
  rw [eraseDead, OfxFiducial.isAlive_of_updated sighted.updated sighted.alive living]
  rfl

theorem settled_of_sighted {fiducial : OfxFiducial F} {life : Int}
    (sighted : Sighted life fiducial) (strong : 1 ≤ life) :
    Settled { fiducial with updated := false } where
  alive := sighted.alive
  updated := rfl
  life_pos := sighted.life_eq.symm ▸ strong
  stands := sighted.stands
  shown := Or.inl sighted.found

theorem observe_of_sighted {known : Option (OfxFiducial F)} {seen : List (FiducialX F)}
    {final : OfxFiducial F} {life : Int} (sighted : Sighted life final) (strong : 1 ≤ life)
    (folded : seen.foldl (sight arith junk) known = some final) :
    observe arith junk known seen = some { final with updated := false } := by
  rw [observe, folded, Option.bind_some, eraseDead_of_sighted sighted strong]

/-- A new fiducial shown once is lost at once: the ageing loop takes one of its
two lives and puts it back to the place of the constructor. -/
theorem observe_once (detected : FiducialX F) :
    observe arith junk none [detected] =
      some { addFiducial arith junk detected with
        state := .lost
        current := (addFiducial arith junk detected).last
        life := 1 } :=
  rfl

variable (arith junk) in
/-- A new fiducial shown again in its first frame. -/
theorem sighted_addFiducial (first second : FiducialX F) :
    Sighted 4 (updateExisting arith second (addFiducial arith junk first)) := by
  have alive : (addFiducial arith junk first).alive = true := rfl
  exact sighted_updateExisting arith alive second

theorem observe_missed {fiducial : OfxFiducial F} (settled : Settled fiducial)
    (life : fiducial.life ≠ 1) :
    observe arith junk (some fiducial) [] =
      some { fiducial with
        state := .lost
        current := fiducial.last
        life := fiducial.life - 1 } := by
  simp [observe, eraseDead, OfxFiducial.isAlive_of_missing settled.updated settled.alive life]

theorem observe_dying {fiducial : OfxFiducial F} (settled : Settled fiducial)
    (life : fiducial.life = 1) : observe arith junk (some fiducial) [] = none := by
  simp [observe, eraseDead, OfxFiducial.isAlive_of_dying settled.updated life]

theorem track_of_sighted {fiducial : OfxFiducial F} {life : Int}
    (sighted : Sighted life fiducial) :
    OfxFiducial.track { fiducial with updated := false } = ⟨true, life⟩ := by
  simp [OfxFiducial.track, sighted.found, sighted.life_eq]

/-- One frame of one id: the fiducial and the machine move together. -/
theorem observe_refines {known : Option (OfxFiducial F)}
    (settled : ∀ fiducial ∈ known, Settled fiducial) (seen : List (FiducialX F)) :
    (∀ fiducial ∈ observe arith junk known seen, Settled fiducial) ∧
      (observe arith junk known seen).map OfxFiducial.track =
        Track.next (known.map OfxFiducial.track) seen.length := by
  have ofSighted : ∀ {final : OfxFiducial F} {life : Int}, 1 ≤ life → Sighted life final →
      seen.foldl (sight arith junk) known = some final →
      (∀ fiducial ∈ observe arith junk known seen, Settled fiducial) ∧
        (observe arith junk known seen).map OfxFiducial.track = some ⟨true, life⟩ := by
    intro final life strong sighted folded
    rw [observe_of_sighted sighted strong folded]
    constructor
    · intro fiducial isFiducial
      cases isFiducial
      exact settled_of_sighted sighted strong
    · rw [Option.map_some, track_of_sighted sighted]
  cases known with
  | none =>
      rcases seen with _ | ⟨first, _ | ⟨second, rest⟩⟩
      · exact ⟨by simp [observe], rfl⟩
      · rw [observe_once]
        constructor
        · intro fiducial isFiducial
          cases isFiducial
          exact ⟨rfl, rfl, le_refl _, rfl, Or.inr rfl⟩
        · rfl
      · rcases sighted_foldl arith junk (sighted_addFiducial arith junk first second)
          (by decide) rest with ⟨final, folded, sighted⟩
        exact ofSighted (by decide : (1 : Int) ≤ 4) sighted folded
  | some fiducial =>
      have isSettled := settled fiducial rfl
      cases seen with
      | nil =>
          by_cases last : fiducial.life = 1
          · rw [observe_dying isSettled last]
            exact ⟨by simp, by simp [Track.next, OfxFiducial.track, last]⟩
          · rw [observe_missed isSettled last]
            constructor
            · intro later isLater
              cases isLater
              have positive := isSettled.life_pos
              exact ⟨isSettled.alive, isSettled.updated, by dsimp only; omega, rfl, Or.inr rfl⟩
            · simp [Track.next, OfxFiducial.track, last]
      | cons detected rest =>
          rcases sighted_of_known arith junk isSettled.alive isSettled.life_pos detected rest with
            ⟨final, folded, sighted⟩
          have strong : 1 ≤ Track.gain fiducial.life :=
            le_trans (by decide) (Track.three_le_gain isSettled.life_pos)
          exact ofSighted strong sighted folded

/-- After any run the fiducial of an id is settled, and its machine has taken one
step a frame. -/
theorem after_refines (frames : List (List (FiducialX F))) (id : Int) :
    (∀ fiducial ∈ lookup id (after arith junk frames), Settled fiducial) ∧
      (lookup id (after arith junk frames)).map OfxFiducial.track =
        (frames.map fun frame => (sightings id frame).length).foldl Track.next none := by
  induction frames using List.reverseRecOn with
  | nil => exact ⟨by simp [after], rfl⟩
  | append_singleton past frame ih =>
      rw [lookup_after_concat, List.map_append, List.foldl_append, ← ih.2]
      exact observe_refines ih.1 (sightings id frame)

/-! ## Membership of the list -/

/-- An id is listed. -/
def Listed (id : Int) (fiducialsList : List (OfxFiducial F)) : Prop :=
  id ∈ fiducialsList.map OfxFiducial.fidId

instance (id : Int) (fiducialsList : List (OfxFiducial F)) :
    Decidable (Listed id fiducialsList) :=
  inferInstanceAs (Decidable (id ∈ fiducialsList.map OfxFiducial.fidId))

theorem listed_iff_lookup {id : Int} {fiducialsList : List (OfxFiducial F)} :
    Listed id fiducialsList ↔ (lookup id fiducialsList).isSome := by
  rw [Listed, List.mem_map, Keyed.isSome_lookup_iff]

/-- The machine of an id after a run. -/
def trackAfter (frames : List (List (FiducialX F))) (id : Int) : Option Track :=
  (frames.map fun frame => (sightings id frame).length).foldl Track.next none

theorem live_trackAfter (frames : List (List (FiducialX F))) (id : Int) :
    Track.Live (trackAfter frames id) :=
  Track.live_foldl (by simp [Track.Live]) _

theorem trackAfter_append (past frames : List (List (FiducialX F))) (id : Int) :
    trackAfter (past ++ frames) id =
      (frames.map fun frame => (sightings id frame).length).foldl Track.next
        (trackAfter past id) := by
  rw [trackAfter, List.map_append, List.foldl_append]
  rfl

theorem listed_after_iff {frames : List (List (FiducialX F))} {id : Int} :
    Listed id (after arith junk frames) ↔ (trackAfter frames id).isSome := by
  rw [listed_iff_lookup, trackAfter, ← (after_refines frames id).2, Option.isSome_map]

/-- No two entries share an id, and an id missing from four frames is gone.  A
detected id survives the next two frames, whatever they show, exactly when it
was listed already or the frame detects it more than once. -/
theorem fiducialsList_survival (arith : FloatArith F) (junk : OfxFiducial F)
    (past : List (List (FiducialX F))) :
    DistinctIds (after arith junk past) ∧
      (∀ frame id, Detected id frame →
        ((∀ second third,
            Listed id (after arith junk (past ++ [frame])) ∧
              Listed id (after arith junk (past ++ [frame, second])) ∧
                Listed id (after arith junk (past ++ [frame, second, third]))) ↔
          Listed id (after arith junk past) ∨ 2 ≤ (sightings id frame).length)) ∧
      ∀ id first second third fourth, ¬ Detected id first → ¬ Detected id second →
        ¬ Detected id third → ¬ Detected id fourth →
          ¬ Listed id (after arith junk (past ++ [first, second, third, fourth])) := by
  have missed : ∀ {id : Int} {frame : List (FiducialX F)}, ¬ Detected id frame →
      (sightings id frame).length = 0 := by
    intro id frame unseen
    rw [not_not.mp unseen, List.length_nil]
  refine ⟨distinctIds_after past, ?_, ?_⟩
  · intro frame id detected
    have seen : 0 < (sightings id frame).length := List.length_pos_of_ne_nil detected
    simp only [listed_after_iff, trackAfter_append, List.map_cons, List.map_nil,
      List.foldl_cons, List.foldl_nil]
    constructor
    · intro survives
      by_contra neither
      rw [not_or, Option.not_isSome_iff_eq_none, not_le] at neither
      have once : (sightings id frame).length = 1 := by omega
      have lives := (survives [] []).2.1
      have noSightings : (sightings id ([] : List (FiducialX F))).length = 0 := rfl
      rw [neither.1, once, noSightings, Track.next_once_missed] at lives
      exact absurd lives (by decide)
    · intro either second third
      exact Track.survives (live_trackAfter past id) seen either _ _
  · intro id first second third fourth firstMissed secondMissed thirdMissed fourthMissed
    rw [listed_after_iff, trackAfter_append]
    simp only [List.map_cons, List.map_nil, List.foldl_cons, List.foldl_nil, missed firstMissed,
      missed secondMissed, missed thirdMissed, missed fourthMissed,
      Track.next_zero_four (live_trackAfter past id)]
    decide

end Refinement

/-- A detection at the given place. -/
def detection (id : Int) (x y : Rat) : FiducialX (Option Rat) :=
  { id := id
    x := some x
    y := some y
    angle := some 0
    leafSize := some 2
    rootSize := some 20 }

theorem newFiducial_erased :
    Detected 5 [detection 5 100 100] ∧
      ¬ ∀ second third,
        Listed 5 (after .rational (.zeroed .rational) ([] ++ [[detection 5 100 100]])) ∧
          Listed 5 (after .rational (.zeroed .rational) ([] ++ [[detection 5 100 100], second])) ∧
            Listed 5 (after .rational (.zeroed .rational)
              ([] ++ [[detection 5 100 100], second, third])) := by
  have erased :
      ¬ Listed 5 (after .rational (.zeroed .rational) ([] ++ [[detection 5 100 100], []])) := by
    decide
  exact ⟨by decide, fun survives => erased (survives [] []).2.1⟩

end OfxPrimes.Fiducial
