import Mathlib.Data.List.Nodup
import OfxPrimes.Fiducial.Fingers
import OfxPrimes.Pool.Keyed

/-!
# How long a finger stays listed

Between two calls every listed finger has its one life and is not updated.
While the regions of a call are taken, exactly the fingers that a region was
given to are updated, and only these outlive the call.
-/

namespace OfxPrimes.Fiducial

open OfxPrimes.Pool

variable {F : Type}

/-- What holds while the regions of a call are taken, after the given events. -/
structure Attended (tracker : FingerTracker F) (events : List FingerEvent) : Prop where
  single : ∀ finger ∈ tracker.fingersList, finger.life = 1 ∧ finger.alive = true
  updated_iff : ∀ finger ∈ tracker.fingersList,
    finger.updated = true ↔ .updated finger.fingerId ∈ events
  distinct : tracker.ids.Nodup
  fresh : ∀ id ∈ tracker.ids, id < tracker.fingerId
  listed : ∀ event ∈ events, event.fingerId ∈ tracker.ids

/-- What holds between two calls. -/
abbrev Resting (tracker : FingerTracker F) : Prop :=
  Attended tracker []

theorem resting_start : Resting (FingerTracker.start : FingerTracker F) where
  single _ mem := absurd mem List.not_mem_nil
  updated_iff _ mem := absurd mem List.not_mem_nil
  distinct := List.nodup_nil
  fresh _ mem := absurd mem List.not_mem_nil
  listed _ mem := absurd mem List.not_mem_nil

theorem exists_modify {α : Type} {items : List α} {position : Nat} {item : α}
    (found : items[position]? = some item) (change : α → α) :
    ∃ front back, items = front ++ item :: back ∧
      items.modify position change = front ++ change item :: back := by
  rcases List.getElem?_eq_some_iff.mp found with ⟨inside, -⟩
  rcases List.exists_of_modify change inside with ⟨front, other, back, split, length, changed⟩
  have here : items[position]? = some other := by
    rw [split, List.getElem?_append_right (le_of_eq length), length, Nat.sub_self,
      List.getElem?_cons_zero]
  rw [found] at here
  cases here
  exact ⟨front, back, split, changed⟩

section Regions

variable (arith : FloatArith F) (call : FingerCall F)

/-- One round of the search keeps what was found, or finds the finger at hand, or
drops all for another region. -/
theorem matchFinger_cases (entry : RegionX × Nat) (found : Match F)
    (finger : OfxFinger F × Nat) :
    matchFinger arith call entry found finger = found ∨
      (matchFinger arith call entry found finger).existingFinger = some finger.2 ∨
        (matchFinger arith call entry found finger).existingFinger = none := by
  simp only [matchFinger]
  split
  · split
    · cases anotherCloser arith call entry (finger.1.getDistance arith (arith.ofInt entry.1.x)
        (arith.ofInt entry.1.y)) with
      | some dist => exact Or.inr (Or.inr rfl)
      | none => exact Or.inr (Or.inl rfl)
    · exact Or.inr (Or.inl rfl)
  · exact Or.inl rfl

theorem foldl_matchFinger_position (fingers : List (OfxFinger F × Nat)) {entry : RegionX × Nat}
    {start : Match F} {position : Nat}
    (reached : (fingers.foldl (matchFinger arith call entry) start).existingFinger =
      some position) :
    start.existingFinger = some position ∨ ∃ finger, (finger, position) ∈ fingers := by
  induction fingers generalizing start with
  | nil => exact Or.inl reached
  | cons head rest ih =>
      rcases ih reached with now | ⟨finger, mem⟩
      · rcases matchFinger_cases arith call entry start head with kept | isHead | cleared
        · exact Or.inl (kept ▸ now)
        · rw [isHead] at now
          exact Or.inr ⟨head.1, Option.some.inj now ▸ List.mem_cons_self⟩
        · rw [cleared] at now
          contradiction
      · exact Or.inr ⟨finger, List.mem_cons_of_mem _ mem⟩

/-- A position that the search yields is the position of a finger. -/
theorem searchFinger_position {fingersList : List (OfxFinger F)} {entry : RegionX × Nat}
    {position : Nat} (found : searchFinger arith call fingersList entry = some position) :
    ∃ finger, fingersList[position]? = some finger := by
  rcases foldl_matchFinger_position arith call _ found with none | ⟨finger, mem⟩
  · contradiction
  · exact ⟨finger, List.mem_zipIdx_iff_getElem?.mp mem⟩

variable {arith call} {tracker : FingerTracker F} {events : List FingerEvent}

/-- A region that is given to a finger. -/
theorem attended_updated (attended : Attended tracker events) (region : RegionX)
    (fiducialsList : List (OfxFiducial F)) {position : Nat} {finger : OfxFinger F}
    (isFinger : tracker.fingersList[position]? = some finger) :
    Attended
      { tracker with
        fiducialsList := fiducialsList
        fingersList := tracker.fingersList.modify position (updateFinger arith region) }
      (events ++ [.updated finger.fingerId]) := by
  rcases exists_modify isFinger (updateFinger arith region) with ⟨front, back, split, changed⟩
  have sameIds : (tracker.fingersList.modify position (updateFinger arith region)).map
      OfxFinger.fingerId = tracker.ids := by
    rw [changed, FingerTracker.ids, split, List.map_append, List.map_append]
    rfl
  have mem : finger ∈ tracker.fingersList := List.mem_of_getElem? isFinger
  have others : ∀ other ∈ front ++ back,
      other ∈ tracker.fingersList ∧ other.fingerId ≠ finger.fingerId := by
    have distinct : Keyed.Distinct OfxFinger.fingerId tracker.fingersList := attended.distinct
    rw [split] at distinct ⊢
    exact Keyed.apart_of_distinct distinct
  have cases : ∀ other ∈ tracker.fingersList.modify position (updateFinger arith region),
      other = updateFinger arith region finger ∨ other ∈ front ++ back := by
    intro other otherMem
    rw [changed] at otherMem
    simp only [List.mem_append, List.mem_cons] at otherMem ⊢
    tauto
  constructor
  case single =>
    intro other otherMem
    rcases cases other otherMem with rfl | inRest
    · exact attended.single finger mem
    · exact attended.single other (others other inRest).1
  case updated_iff =>
    intro other otherMem
    rcases cases other otherMem with rfl | inRest
    · exact iff_of_true rfl (by simp [updateFinger, OfxFinger.update])
    · rcases others other inRest with ⟨wasListed, apart⟩
      rw [attended.updated_iff other wasListed]
      simp [apart]
  case distinct =>
    rw [FingerTracker.ids, sameIds]
    exact attended.distinct
  case fresh =>
    intro id idMem
    rw [FingerTracker.ids, sameIds] at idMem
    exact attended.fresh id idMem
  case listed =>
    intro event eventMem
    rw [FingerTracker.ids, sameIds]
    rcases List.mem_append.mp eventMem with earlier | now
    · exact attended.listed event earlier
    · rw [List.mem_singleton.mp now]
      exact List.mem_map_of_mem mem

/-- A region that starts a finger. -/
theorem attended_started (attended : Attended tracker events) (region : RegionX)
    (fiducialsList : List (OfxFiducial F)) :
    Attended
      { fiducialsList := fiducialsList
        fingersList := tracker.fingersList ++ [addFinger arith tracker.fingerId region]
        fingerId := tracker.fingerId + 1 }
      (events ++ [.started tracker.fingerId]) := by
  have ids : (tracker.fingersList ++ [addFinger arith tracker.fingerId region]).map
      OfxFinger.fingerId = tracker.ids ++ [tracker.fingerId] := by
    rw [List.map_append]
    rfl
  have unused : tracker.fingerId ∉ tracker.ids :=
    fun mem => lt_irrefl _ (attended.fresh tracker.fingerId mem)
  constructor
  case single =>
    intro finger mem
    rcases List.mem_append.mp mem with earlier | now
    · exact attended.single finger earlier
    · rw [List.mem_singleton.mp now]
      exact ⟨rfl, rfl⟩
  case updated_iff =>
    intro finger mem
    rcases List.mem_append.mp mem with earlier | now
    · rw [attended.updated_iff finger earlier]
      simp
    · rw [List.mem_singleton.mp now]
      refine iff_of_false (by simp [addFinger, OfxFinger.assign, OfxFinger.construct]) ?_
      intro isUpdated
      rcases List.mem_append.mp isUpdated with earlier | last
      · exact unused (attended.listed _ earlier)
      · exact absurd (List.mem_singleton.mp last) (by simp)
  case distinct =>
    rw [FingerTracker.ids, ids]
    exact List.nodup_append.mpr ⟨attended.distinct, List.nodup_singleton _, by
      intro id mem new isNew same
      rw [List.mem_singleton.mp isNew] at same
      exact unused (same ▸ mem)⟩
  case fresh =>
    intro id mem
    rw [FingerTracker.ids, ids] at mem
    rcases List.mem_append.mp mem with earlier | now
    · exact lt_trans (attended.fresh id earlier) (Int.lt_succ _)
    · rw [List.mem_singleton.mp now]
      exact Int.lt_succ _
  case listed =>
    intro event mem
    rw [FingerTracker.ids, ids]
    rcases List.mem_append.mp mem with earlier | now
    · exact List.mem_append_left _ (attended.listed event earlier)
    · rw [List.mem_singleton.mp now]
      exact List.mem_append_right _ (List.mem_singleton_self _)

/-- Taking a region keeps it. -/
theorem attended_takeRegion (attended : Attended tracker events) (entry : RegionX × Nat) :
    Attended (takeRegion arith call tracker entry)
      (events ++ (regionEvent arith call tracker entry).toList) := by
  unfold takeRegion regionEvent
  split
  · cases found : searchFinger arith call tracker.fingersList entry with
    | none => exact attended_started attended entry.1 _
    | some position =>
        rcases searchFinger_position arith call found with ⟨finger, isFinger⟩
        dsimp only
        rw [isFinger]
        exact attended_updated attended entry.1 _ isFinger
  · rw [Option.toList_none, List.append_nil]
    exact
      { single := attended.single
        updated_iff := attended.updated_iff
        distinct := attended.distinct
        fresh := attended.fresh
        listed := attended.listed }

theorem attended_foldl (attended : Attended tracker events) (entries : List (RegionX × Nat)) :
    Attended (entries.foldl (takeRegion arith call) tracker)
      (events ++ regionEvents arith call tracker entries) := by
  induction entries generalizing tracker events with
  | nil =>
      rw [regionEvents, List.append_nil]
      exact attended
  | cons entry rest ih =>
      rw [List.foldl_cons, regionEvents, ← List.append_assoc]
      exact ih (attended_takeRegion attended entry)

end Regions

/-! ## Ageing -/

theorem eraseDeadFinger_of_updated {finger : OfxFinger F} (life : finger.life = 1)
    (alive : finger.alive = true) (updated : finger.updated = true) :
    eraseDeadFinger finger = some { finger with updated := false } := by
  simp [eraseDeadFinger, OfxFinger.isAlive, life, alive, updated]

theorem eraseDeadFinger_of_missing {finger : OfxFinger F} (life : finger.life = 1)
    (missing : finger.updated = false) : eraseDeadFinger finger = none := by
  simp [eraseDeadFinger, OfxFinger.isAlive, life, missing]

section Calls

variable {arith : FloatArith F} {tracker : FingerTracker F} {events : List FingerEvent}

/-- Only updated fingers outlive the ageing. -/
theorem mem_filterMap_eraseDeadFinger (attended : Attended tracker events)
    {survivor : OfxFinger F} :
    survivor ∈ tracker.fingersList.filterMap eraseDeadFinger ↔
      ∃ finger ∈ tracker.fingersList,
        finger.updated = true ∧ survivor = { finger with updated := false } := by
  rw [List.mem_filterMap]
  apply exists_congr
  intro finger
  apply and_congr_right
  intro mem
  rcases attended.single finger mem with ⟨life, alive⟩
  cases updated : finger.updated with
  | false => simp [eraseDeadFinger_of_missing life updated]
  | true => simp [eraseDeadFinger_of_updated life alive updated, eq_comm]

variable (arith) in
theorem attended_call (resting : Resting tracker) (call : FingerCall F) :
    Attended (call.regions.zipIdx.foldl (takeRegion arith call) (tracker.beginCall call))
      (callEvents arith tracker call) := by
  have begun : Attended (tracker.beginCall call) [] :=
    { single := resting.single
      updated_iff := resting.updated_iff
      distinct := resting.distinct
      fresh := resting.fresh
      listed := resting.listed }
  exact attended_foldl begun call.regions.zipIdx

/-- After a call the list holds exactly the fingers that a region was given to. -/
theorem mem_ids_findFingers (resting : Resting tracker) (call : FingerCall F) (id : Int) :
    id ∈ (findFingers arith tracker call).ids ↔
      .updated id ∈ callEvents arith tracker call := by
  have attended := attended_call arith resting call
  constructor
  · intro mem
    rcases List.mem_map.mp mem with ⟨survivor, survived, rfl⟩
    rcases (mem_filterMap_eraseDeadFinger attended).mp survived with ⟨finger, listed, updated, rfl⟩
    exact (attended.updated_iff finger listed).mp updated
  · intro given
    rcases List.mem_map.mp (attended.listed _ given) with ⟨finger, listed, sameId⟩
    have updated : finger.updated = true := by
      rw [attended.updated_iff finger listed, sameId]
      exact given
    rw [FingerTracker.ids, List.mem_map]
    exact ⟨{ finger with updated := false },
      (mem_filterMap_eraseDeadFinger attended).mpr ⟨finger, listed, updated, rfl⟩, sameId⟩

theorem eraseDeadFinger_fingerId (finger next : OfxFinger F)
    (survives : eraseDeadFinger finger = some next) : next.fingerId = finger.fingerId := by
  simp only [eraseDeadFinger] at survives
  split at survives
  · rw [← Option.some.inj survives, OfxFinger.isAlive_fingerId]
  · contradiction

/-- A call leaves the fingers at rest. -/
theorem resting_findFingers (resting : Resting tracker) (call : FingerCall F) :
    Resting (findFingers arith tracker call) := by
  have attended := attended_call arith resting call
  constructor
  case single =>
    intro survivor survived
    rcases (mem_filterMap_eraseDeadFinger attended).mp survived with ⟨finger, listed, -, rfl⟩
    exact attended.single finger listed
  case updated_iff =>
    intro survivor survived
    rcases (mem_filterMap_eraseDeadFinger attended).mp survived with ⟨finger, -, -, rfl⟩
    exact iff_of_false Bool.false_ne_true List.not_mem_nil
  case distinct => exact Keyed.distinct_filterMap eraseDeadFinger_fingerId attended.distinct
  case listed => exact fun _ mem => absurd mem List.not_mem_nil
  case fresh =>
    intro id mem
    have given := (mem_ids_findFingers resting call id).mp mem
    exact attended.fresh id (attended.listed _ given)

theorem resting_fingersAfter (calls : List (FingerCall F)) :
    Resting (fingersAfter arith calls) := by
  unfold fingersAfter
  induction calls using List.reverseRecOn with
  | nil => exact resting_start
  | append_singleton past call ih =>
      rw [List.foldl_append]
      exact resting_findFingers ih call

end Calls

/-! ## Regions near a finger -/

/-- The distance between a finger and a region. -/
abbrev distanceTo (arith : FloatArith F) (entry : RegionX × Nat) (finger : OfxFinger F) : F :=
  finger.getDistance arith (arith.ofInt entry.1.x) (arith.ofInt entry.1.y)

/-- The finger is near enough to the region to be compared. -/
def WithinReach (arith : FloatArith F) (call : FingerCall F) (distance : F) : Prop :=
  arith.lt distance (arith.mul call.settings.maxFingerSize (arith.ofInt 2)) = true

/-- The finger is so far from the region that it is given up for another region at
most as far from the region. -/
def GivenUpFor (arith : FloatArith F) (call : FingerCall F) (entry : RegionX × Nat)
    (distance dist : F) : Prop :=
  arith.lt (arith.div call.settings.maxFingerSize (arith.ofInt 2)) distance = true ∧
    anotherCloser arith call entry distance = some dist

/-- Nothing takes the region from the finger at the position: no finger is nearer to
it, the finger is not given up for another region, and no finger in front of it is
given up for a region as near as this finger. -/
structure Undisputed (arith : FloatArith F) (call : FingerCall F)
    (fingersList : List (OfxFinger F)) (entry : RegionX × Nat) (position : Nat)
    (distance : F) : Prop where
  inImage : arith.lt distance (arith.ofInt call.settings.mWidth) = true
  before : ∀ other otherPosition, fingersList[otherPosition]? = some other →
    otherPosition < position → arith.lt distance (distanceTo arith entry other) = true
  behind : ∀ other otherPosition, fingersList[otherPosition]? = some other →
    position < otherPosition → arith.lt (distanceTo arith entry other) distance = false
  kept : ∀ dist, ¬ GivenUpFor arith call entry distance dist
  others : ∀ other otherPosition dist, fingersList[otherPosition]? = some other →
    otherPosition < position → WithinReach arith call (distanceTo arith entry other) →
      GivenUpFor arith call entry (distanceTo arith entry other) dist →
        arith.lt distance dist = true

section Undisputed

variable {arith : FloatArith F} {call : FingerCall F} {entry : RegionX × Nat}
  {fingersList : List (OfxFinger F)} {position : Nat} {distance : F}

/-- A finger in front leaves room for a nearer one. -/
theorem lt_closest_matchFinger
    (undisputed : Undisputed arith call fingersList entry position distance)
    {found : Match F} (room : arith.lt distance found.closest = true)
    {other : OfxFinger F × Nat} (listed : fingersList[other.2]? = some other.1)
    (before : other.2 < position) :
    arith.lt distance (matchFinger arith call entry found other).closest = true := by
  have farther := undisputed.before other.1 other.2 listed before
  simp only [matchFinger]
  split
  · rename_i compared
    have reach := (Bool.and_eq_true_iff.mp compared).1
    split
    · rename_i far
      cases closer : anotherCloser arith call entry (distanceTo arith entry other.1) with
      | none => exact farther
      | some dist => exact undisputed.others other.1 other.2 dist listed before reach ⟨far, closer⟩
    · exact farther
  · exact room

/-- The finger is found in its turn. -/
theorem matchFinger_undisputed
    (undisputed : Undisputed arith call fingersList entry position distance)
    (reach : WithinReach arith call distance) {found : Match F}
    (room : arith.lt distance found.closest = true) {finger : OfxFinger F}
    (isDistance : distanceTo arith entry finger = distance) :
    matchFinger arith call entry found (finger, position) =
      { existingFinger := some position, closest := distance } := by
  have compared :
        arith.lt distance (arith.mul call.settings.maxFingerSize (arith.ofInt 2)) = true :=
    reach
  simp only [matchFinger, isDistance, compared, room, Bool.and_self, if_true]
  split
  · rename_i far
    cases closer : anotherCloser arith call entry distance with
    | none => rfl
    | some dist => exact absurd ⟨far, closer⟩ (undisputed.kept dist)
  · rfl

/-- A finger behind does not replace it. -/
theorem matchFinger_of_behind
    (undisputed : Undisputed arith call fingersList entry position distance)
    {other : OfxFinger F × Nat} (listed : fingersList[other.2]? = some other.1)
    (behind : position < other.2) (existing : Option Nat) :
    matchFinger arith call entry { existingFinger := existing, closest := distance } other =
      { existingFinger := existing, closest := distance } := by
  have notCloser := undisputed.behind other.1 other.2 listed behind
  simp only [matchFinger, notCloser, Bool.and_false, Bool.false_eq_true, if_false]

/-- The fingers in front leave room. -/
theorem lt_closest_foldl
    (undisputed : Undisputed arith call fingersList entry position distance)
    {fingers : List (OfxFinger F × Nat)}
    (before : ∀ other ∈ fingers, fingersList[other.2]? = some other.1 ∧ other.2 < position)
    (found : Match F) (room : arith.lt distance found.closest = true) :
    arith.lt distance (fingers.foldl (matchFinger arith call entry) found).closest = true := by
  induction fingers generalizing found with
  | nil => exact room
  | cons other rest ih =>
      rcases before other List.mem_cons_self with ⟨listed, inFront⟩
      exact ih (fun later mem => before later (List.mem_cons_of_mem _ mem)) _
        (lt_closest_matchFinger undisputed room listed inFront)

/-- The fingers behind do not replace it. -/
theorem foldl_of_behind
    (undisputed : Undisputed arith call fingersList entry position distance)
    {fingers : List (OfxFinger F × Nat)}
    (behind : ∀ other ∈ fingers, fingersList[other.2]? = some other.1 ∧ position < other.2)
    (existing : Option Nat) :
    fingers.foldl (matchFinger arith call entry)
        { existingFinger := existing, closest := distance } =
      { existingFinger := existing, closest := distance } := by
  induction fingers with
  | nil => rfl
  | cons other rest ih =>
      rcases behind other List.mem_cons_self with ⟨listed, after⟩
      rw [List.foldl_cons, matchFinger_of_behind undisputed listed after]
      exact ih fun later mem => behind later (List.mem_cons_of_mem _ mem)

/-- The search gives an undisputed region to the finger within reach. -/
theorem searchFinger_of_undisputed {finger : OfxFinger F}
    (isFinger : fingersList[position]? = some finger)
    (reach : WithinReach arith call (distanceTo arith entry finger))
    (undisputed : Undisputed arith call fingersList entry position
      (distanceTo arith entry finger)) :
    searchFinger arith call fingersList entry = some position := by
  rcases List.getElem?_eq_some_iff.mp isFinger with ⟨inside, sameFinger⟩
  have split : fingersList.zipIdx = (fingersList.take position).zipIdx ++
      (finger, position) :: (fingersList.drop (position + 1)).zipIdx (position + 1) := by
    have parts : fingersList = fingersList.take position ++
        finger :: fingersList.drop (position + 1) := by
      rw [← sameFinger, List.getElem_cons_drop, List.take_append_drop]
    have count : (fingersList.take position).length = position :=
      List.length_take_of_le inside.le
    conv_lhs => rw [parts]
    rw [List.zipIdx_append, List.zipIdx_cons, count, Nat.zero_add]
  have listed : ∀ other ∈ fingersList.zipIdx, fingersList[other.2]? = some other.1 :=
    fun other mem => List.mem_zipIdx_iff_getElem?.mp mem
  rw [split] at listed
  have before : ∀ other ∈ (fingersList.take position).zipIdx,
      fingersList[other.2]? = some other.1 ∧ other.2 < position := by
    intro other mem
    have below := List.snd_lt_of_mem_zipIdx mem
    rw [List.length_take_of_le inside.le] at below
    exact ⟨listed other (List.mem_append_left _ mem), by simpa using below⟩
  have behind : ∀ other ∈ (fingersList.drop (position + 1)).zipIdx (position + 1),
      fingersList[other.2]? = some other.1 ∧ position < other.2 := by
    intro other mem
    exact ⟨listed other (List.mem_append_right _ (List.mem_cons_of_mem _ mem)),
      List.le_snd_of_mem_zipIdx mem⟩
  have room := lt_closest_foldl undisputed before
    { existingFinger := none, closest := arith.ofInt call.settings.mWidth } undisputed.inImage
  rw [searchFinger, split, List.foldl_append, List.foldl_cons,
    matchFinger_undisputed undisputed reach room rfl,
    foldl_of_behind undisputed behind (some position)]

end Undisputed

/-! ## Accepted regions and their fingers -/

/-- The tracker when the regions of a call up to a certain one have been taken. -/
def FingerTracker.took (arith : FloatArith F) (tracker : FingerTracker F) (call : FingerCall F)
    (front : List (RegionX × Nat)) : FingerTracker F :=
  front.foldl (takeRegion arith call) (tracker.beginCall call)

/-- After the call the list contains the finger of every accepted region. -/
def ContainsAccepted (arith : FloatArith F) (tracker : FingerTracker F) (call : FingerCall F) :
    Prop :=
  ∀ front entry back, call.regions.zipIdx = front ++ entry :: back →
    accepted arith call (tracker.took arith call front).fiducialsList entry.1 = true →
      ∃ event ∈ regionEvent arith call (tracker.took arith call front) entry,
        event.fingerId ∈ (findFingers arith tracker call).ids

/-- Every finger that the call starts is given another accepted region of the
same call. -/
def NewUpdated (arith : FloatArith F) (tracker : FingerTracker F) (call : FingerCall F) : Prop :=
  ∀ id, .started id ∈ callEvents arith tracker call → .updated id ∈ callEvents arith tracker call

/-- The call accepts a region, and the finger with the id is within reach of it at
that moment. -/
structure NearRegion (arith : FloatArith F) (id : Int) (tracker : FingerTracker F)
    (call : FingerCall F) (front : List (RegionX × Nat)) (entry : RegionX × Nat)
    (position : Nat) (distance : F) : Prop where
  isRegion : ∃ back, call.regions.zipIdx = front ++ entry :: back
  isAccepted : accepted arith call (tracker.took arith call front).fiducialsList entry.1 = true
  isFinger : ∃ finger, (tracker.took arith call front).fingersList[position]? = some finger ∧
    finger.fingerId = id ∧ distanceTo arith entry finger = distance
  reach : WithinReach arith call distance

/-- The finger with the id is accepted near its last position. -/
def AcceptedNear (arith : FloatArith F) (id : Int) (tracker : FingerTracker F)
    (call : FingerCall F) : Prop :=
  ∃ front entry position distance, NearRegion arith id tracker call front entry position distance

/-- When the finger with the id is accepted near its last position, some region that
is accepted there is undisputed. -/
def NearUndisputed (arith : FloatArith F) (id : Int) (tracker : FingerTracker F)
    (call : FingerCall F) : Prop :=
  AcceptedNear arith id tracker call → ∃ front entry position distance,
    NearRegion arith id tracker call front entry position distance ∧
      Undisputed arith call (tracker.took arith call front).fingersList entry position distance

section Events

variable {arith : FloatArith F} {call : FingerCall F} {tracker : FingerTracker F}

theorem regionEvent_of_found {entry : RegionX × Nat}
    (isAccepted : accepted arith call tracker.fiducialsList entry.1 = true) {position : Nat}
    (found : searchFinger arith call tracker.fingersList entry = some position)
    {finger : OfxFinger F} (isFinger : tracker.fingersList[position]? = some finger) :
    regionEvent arith call tracker entry = some (.updated finger.fingerId) := by
  simp only [regionEvent, if_pos isAccepted, found, isFinger, Option.map_some]

theorem exists_regionEvent {entry : RegionX × Nat}
    (isAccepted : accepted arith call tracker.fiducialsList entry.1 = true) :
    ∃ event, regionEvent arith call tracker entry = some event := by
  cases found : searchFinger arith call tracker.fingersList entry with
  | none =>
      refine ⟨.started tracker.fingerId, ?_⟩
      simp only [regionEvent, if_pos isAccepted, found]
  | some position =>
      rcases searchFinger_position arith call found with ⟨finger, isFinger⟩
      exact ⟨.updated finger.fingerId, regionEvent_of_found isAccepted found isFinger⟩

theorem accepted_of_regionEvent {entry : RegionX × Nat} {event : FingerEvent}
    (isEvent : regionEvent arith call tracker entry = some event) :
    accepted arith call tracker.fiducialsList entry.1 = true := by
  by_contra rejected
  rw [regionEvent, if_neg rejected] at isEvent
  contradiction

theorem mem_regionEvents_iff {entries : List (RegionX × Nat)} {event : FingerEvent} :
    event ∈ regionEvents arith call tracker entries ↔
      ∃ front entry back, entries = front ++ entry :: back ∧
        regionEvent arith call (front.foldl (takeRegion arith call) tracker) entry =
          some event := by
  induction entries generalizing tracker with
  | nil => exact iff_of_false List.not_mem_nil (by simp)
  | cons head rest ih =>
      rw [regionEvents, List.mem_append, Option.mem_toList, ih]
      constructor
      · rintro (now | ⟨front, entry, back, rfl, isEvent⟩)
        · exact ⟨[], head, rest, rfl, now⟩
        · exact ⟨head :: front, entry, back, rfl, isEvent⟩
      · rintro ⟨front, entry, back, split, isEvent⟩
        cases front with
        | nil =>
            cases split
            exact Or.inl isEvent
        | cons first front =>
            cases split
            exact Or.inr ⟨front, entry, back, rfl, isEvent⟩

theorem containsAccepted_iff :
    ContainsAccepted arith tracker call ↔
      ∀ event ∈ callEvents arith tracker call,
        event.fingerId ∈ (findFingers arith tracker call).ids := by
  constructor
  · intro contains event mem
    rcases mem_regionEvents_iff.mp mem with ⟨front, entry, back, split, isEvent⟩
    rcases contains front entry back split (accepted_of_regionEvent isEvent) with
      ⟨other, isOther, listed⟩
    cases Option.some.inj (isEvent.symm.trans isOther)
    exact listed
  · intro listed front entry back split isAccepted
    rcases exists_regionEvent isAccepted with ⟨event, isEvent⟩
    have mem : event ∈ callEvents arith tracker call :=
      mem_regionEvents_iff.mpr ⟨front, entry, back, split, isEvent⟩
    exact ⟨event, isEvent, listed event mem⟩

/-- The list contains the finger of every accepted region exactly when every new
finger is given another one. -/
theorem containsAccepted_iff_newUpdated (resting : Resting tracker) :
    ContainsAccepted arith tracker call ↔ NewUpdated arith tracker call := by
  rw [containsAccepted_iff]
  constructor
  · intro listed id started
    exact (mem_ids_findFingers resting call id).mp (listed (.started id) started)
  · intro updated event mem
    rw [mem_ids_findFingers resting]
    cases event with
    | updated id => exact mem
    | started id => exact updated id mem

/-- A finger with an undisputed region near to it outlives the call. -/
theorem mem_ids_of_nearUndisputed (resting : Resting tracker) {fingerId : Int}
    (isNear : AcceptedNear arith fingerId tracker call)
    (isUndisputed : NearUndisputed arith fingerId tracker call) :
    fingerId ∈ (findFingers arith tracker call).ids := by
  rcases isUndisputed isNear with ⟨front, entry, position, distance, region, undisputed⟩
  rcases region with ⟨⟨back, split⟩, isAccepted, ⟨finger, isFinger, rfl, rfl⟩, reach⟩
  have found := searchFinger_of_undisputed isFinger reach undisputed
  rw [mem_ids_findFingers resting]
  exact mem_regionEvents_iff.mpr ⟨front, entry, back, split,
    regionEvent_of_found isAccepted found isFinger⟩

variable (arith) in
theorem fingersAfter_concat (past : List (FingerCall F)) (call : FingerCall F) :
    fingersAfter arith (past ++ [call]) = findFingers arith (fingersAfter arith past) call := by
  rw [fingersAfter, List.foldl_append]
  rfl

end Events

/-- A call with white regions of nine pixels around the given points. -/
def whiteSpots (maxFingerSize : Nat) (points : List (Int × Int)) : FingerCall (Option Rat) :=
  { settings :=
      { mWidth := 640
        mHeight := 480
        fingerSensitivity := some (mkRat 1 20)
        minFingerSize := some 2
        maxFingerSize := some maxFingerSize }
    fiducialsList := []
    regions := points.map fun point =>
      { top := point.2 - 1
        left := point.1 - 1
        width := 3
        height := 3
        x := point.1
        y := point.2
        area := 9 }
    pixels := fun _ => 255 }

/-- Two regions five pixels apart, the second of which is given to the finger of the
first. -/
def listedFinger : FingerTracker (Option Rat) :=
  findFingers .rational .start (whiteSpots 12 [(101, 101), (104, 105)])

/-- A region ten pixels from the listed finger, with another region ten pixels from
it. -/
def disputedSpots : FingerCall (Option Rat) :=
  whiteSpots 12 [(112, 111), (120, 117)]

end OfxPrimes.Fiducial
