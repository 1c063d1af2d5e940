import OfxPrimes.Pool.Dense
import OfxPrimes.Tuio.Client

/-!
# Finger ids of the TUIO cursors

The finger ids of the listed cursors, those of the free cursors and
`maxFingerID` form a dense pool as long as no removal empties `cursorList`
while a free cursor is kept: `lowerMaxFingerID` resets the maximum in that case
but forgets to drop the free cursors, whose ids are then handed out a second
time.  In a dense pool the removal that empties the list keeps nothing exactly
when the cursor that leaves last has finger id zero.
-/

namespace OfxPrimes.Tuio

open OfxPrimes.Osc
open OfxPrimes.Pool
open OfxPrimes.Transition

variable {β : Type}

/-- Walking the departed ids through the listed cursors: whenever the only
cursor left departs, its finger id is zero. -/
def LastLeaverIsZero : List Int → List OfxTuioCursor → Prop
  | [], _ => True
  | sid :: departed, cursors =>
      (∀ cursor, cursors = [cursor] → cursor.sessionId = sid → cursor.fingerId = 0) ∧
        LastLeaverIsZero departed (cursors.eraseP (·.sessionId == sid))

instance : ∀ departed cursors, Decidable (LastLeaverIsZero departed cursors)
  | [], _ => isTrue trivial
  | sid :: departed, cursors =>
      have : Decidable (∀ cursor, cursors = [cursor] → cursor.sessionId = sid →
          cursor.fingerId = 0) :=
        match cursors with
        | [] => isTrue (by simp)
        | [only] =>
            decidable_of_iff (only.sessionId = sid → only.fingerId = 0) (by simp)
        | _ :: _ :: _ => isTrue (by simp)
      have := instDecidableLastLeaverIsZero departed (cursors.eraseP (·.sessionId == sid))
      inferInstanceAs (Decidable (_ ∧ _))

namespace MsaRemoteClient

/-- The finger ids of the listed cursors. -/
def fingerIds (client : MsaRemoteClient) : List Int :=
  client.cursorList.map OfxTuioCursor.fingerId

/-- The finger ids kept for new cursors. -/
def freeFingerIds (client : MsaRemoteClient) : List Int :=
  client.freeCursorList.map OfxTuioCursor.fingerId

/-- The condition on a message: an `alive` message that makes every listed
cursor leave makes the one with finger id zero leave last. -/
def ReleasesZeroLast (env : Externals) (client : MsaRemoteClient) (m : OfxOscMessage β) : Prop :=
  IsMessage env.toFloatOps "/tuio/2Dcur" "alive" m → ¬ client.Stale →
    LastLeaverIsZero (departedIds client.aliveCursorList (aliveIds env.toFloatOps m))
      client.cursorList

instance (env : Externals) (client : MsaRemoteClient) (m : OfxOscMessage β) :
    Decidable (client.ReleasesZeroLast env m) :=
  inferInstanceAs (Decidable (_ → _ → _))

/-- The finger ids in use and the free ones are a dense pool. -/
structure FingersDense (client : MsaRemoteClient) : Prop where
  buffer : client.freeCursorBuffer = []
  dense : Dense client.fingerIds client.freeFingerIds client.maxFingerID

theorem fingersDense_initial : FingersDense {} :=
  ⟨rfl, Dense.empty⟩

/-! ## What one message does to the cursors -/

/-- The two clients have the same cursors, listed, free and alive. -/
structure SameCursors (client after : MsaRemoteClient) : Prop where
  cursorList : after.cursorList = client.cursorList
  freeCursorList : after.freeCursorList = client.freeCursorList
  freeCursorBuffer : after.freeCursorBuffer = client.freeCursorBuffer
  maxFingerID : after.maxFingerID = client.maxFingerID

theorem SameCursors.refl (client : MsaRemoteClient) : SameCursors client client :=
  ⟨rfl, rfl, rfl, rfl⟩

theorem SameCursors.trans {first second third : MsaRemoteClient}
    (left : SameCursors first second) (right : SameCursors second third) :
    SameCursors first third where
  cursorList := right.cursorList.trans left.cursorList
  freeCursorList := right.freeCursorList.trans left.freeCursorList
  freeCursorBuffer := right.freeCursorBuffer.trans left.freeCursorBuffer
  maxFingerID := right.maxFingerID.trans left.maxFingerID

theorem FingersDense.of_same {client after : MsaRemoteClient} (inv : FingersDense client)
    (same : SameCursors client after) : FingersDense after := by
  rcases same with ⟨cursors, free, buffer, top⟩
  constructor
  · exact buffer.trans inv.buffer
  · rw [fingerIds, freeFingerIds, cursors, free, top]
    exact inv.dense

theorem objectSet_sameCursors (env : Externals) (client : MsaRemoteClient)
    (m : OfxOscMessage β) : SameCursors client (client.objectSet env m) := by
  unfold objectSet
  dsimp only
  split
  · exact ⟨rfl, rfl, rfl, rfl⟩
  · split
    · exact SameCursors.refl client
    · split
      · exact ⟨rfl, rfl, rfl, rfl⟩
      · exact SameCursors.refl client

theorem removeObject_sameCursors (client : MsaRemoteClient) (sid : Int) :
    SameCursors client (client.removeObject sid) := by
  unfold removeObject
  split
  · exact SameCursors.refl client
  · exact ⟨rfl, rfl, rfl, rfl⟩

theorem foldl_removeObject_sameCursors (departed : List Int) (client : MsaRemoteClient) :
    SameCursors client (departed.foldl removeObject client) := by
  induction departed generalizing client with
  | nil => exact SameCursors.refl client
  | cons sid rest ih => exact (removeObject_sameCursors client sid).trans (ih _)

theorem objectAlive_sameCursors (env : Externals) (client : MsaRemoteClient)
    (m : OfxOscMessage β) : SameCursors client (client.objectAlive env m) := by
  rcases foldl_removeObject_sameCursors
    (departedIds client.aliveObjectList (aliveIds env.toFloatOps m)) client with
    ⟨cursors, free, buffer, top⟩
  exact ⟨cursors, free, buffer, top⟩

theorem accelerometer_sameCursors (env : Externals) (client : MsaRemoteClient)
    (m : OfxOscMessage β) : SameCursors client (client.accelerometer env m) := by
  unfold accelerometer
  split
  · dsimp only
    split <;> exact ⟨rfl, rfl, rfl, rfl⟩
  · exact SameCursors.refl client

/-! ## Handing out a finger id -/

theorem closestCursor_lt_length (env : Externals) (xpos ypos : UInt32)
    {free : List OfxTuioCursor} (nonempty : free ≠ []) :
    closestCursor env xpos ypos free < free.length := by
  unfold closestCursor
  refine List.foldlRecOn (motive := fun closest => closest < free.length) _ _
    (List.length_pos_iff.mpr nonempty) ?_
  intro closest inRange test testMem
  split
  · split
    · exact List.mem_range.mp testMem
    · exact inRange
  · exact inRange

/-- Taking over the id of a free cursor or adding a new one keeps the pool
dense, with the id handed out in use. -/
theorem allocateFinger_dense {env : Externals} {client after : MsaRemoteClient}
    {xpos ypos : UInt32} {fid : Int} (inv : FingersDense client)
    (allocated : client.allocateFinger env xpos ypos = some (fid, after)) :
    after.cursorList = client.cursorList ∧ after.freeCursorBuffer = [] ∧
      Dense (client.fingerIds ++ [fid]) after.freeFingerIds after.maxFingerID := by
  simp only [allocateFinger] at allocated
  split_ifs at allocated with few
  · rcases Option.map_eq_some_iff.mp allocated with ⟨cursor, found, pair_eq⟩
    cases pair_eq
    rcases List.getElem?_eq_some_iff.mp found with ⟨bound, get_eq⟩
    have taken : client.freeFingerIds.Perm
        (cursor.fingerId :: (client.freeCursorList.eraseIdx
          (closestCursor env xpos ypos client.freeCursorList)).map OfxTuioCursor.fingerId) := by
      rw [freeFingerIds, ← List.map_cons, ← get_eq]
      exact (List.getElem_cons_eraseIdx_perm bound).symm.map _
    exact ⟨rfl, inv.buffer, (inv.dense.perm (List.Perm.refl _) taken).reuse⟩
  · cases allocated
    have many : client.maxFingerID < client.fingerIds.length := by
      rw [fingerIds, List.length_map]
      exact not_le.mp few
    have extended := inv.dense.extend many
    rw [fingerIds, List.length_map] at extended
    exact ⟨rfl, inv.buffer, extended⟩

/-- A `set` message keeps the pool dense. -/
theorem cursorSet_dense {env : Externals} {client after : MsaRemoteClient}
    {m : OfxOscMessage β} (inv : FingersDense client)
    (done : client.cursorSet env m = some after) : FingersDense after := by
  simp only [cursorSet] at done
  split at done
  · rcases Option.map_eq_some_iff.mp done with ⟨⟨fid, allocated⟩, allocation, after_eq⟩
    rcases allocateFinger_dense inv allocation with ⟨cursors, buffer, dense⟩
    cases after_eq
    constructor
    · exact buffer
    · simpa [fingerIds, freeFingerIds, notify, cursors, OfxTuioCursor.construct] using dense
  · rename_i i _
    split at done
    · cases done
      exact inv
    · rename_i tcur found
      split_ifs at done
      · cases done
        rcases List.getElem?_eq_some_iff.mp found with ⟨bound, get_eq⟩
        have kept : (client.cursorList.set i
            (tcur.update (readCursor env.toFloatOps 0 m))).map OfxTuioCursor.fingerId =
            client.fingerIds := by
          have same : (tcur.update (readCursor env.toFloatOps 0 m)).fingerId =
              client.cursorList[i].fingerId := by
            rw [get_eq]
            rfl
          rw [List.map_set, same, fingerIds, ← List.getElem_map OfxTuioCursor.fingerId]
          exact List.set_getElem_self (by simpa using bound)
        constructor
        · exact inv.buffer
        · simpa only [fingerIds, freeFingerIds, notify, kept] using inv.dense
      · cases done
        exact inv

/-! ## Taking a finger id back -/

theorem perm_cons_eraseP {α : Type} {p : α → Bool} {list : List α} {found : α}
    (search : list.find? p = some found) : list.Perm (found :: list.eraseP p) := by
  rcases List.find?_eq_some_iff_append.mp search with ⟨holds, front, back, rfl, absent⟩
  rw [List.eraseP_append_right _ (by simpa using absent), List.eraseP_cons_of_pos holds]
  exact List.perm_middle

theorem largestFingerId_spec (cursors : List OfxTuioCursor) :
    (∀ cursor ∈ cursors, cursor.fingerId ≤ largestFingerId cursors) ∧
      (largestFingerId cursors = -1 ∨
        largestFingerId cursors ∈ cursors.map OfxTuioCursor.fingerId) := by
  induction cursors using List.reverseRecOn with
  | nil => exact ⟨by simp, .inl rfl⟩
  | append_singleton rest cursor ih =>
      rcases ih with ⟨bound, attained⟩
      have folded : largestFingerId (rest ++ [cursor]) =
          if cursor.fingerId > largestFingerId rest then cursor.fingerId
          else largestFingerId rest := by
        simp [largestFingerId]
      rw [folded]
      split_ifs with larger
      · constructor
        · intro other mem
          rcases List.mem_append.mp mem with old | new
          · exact (bound other old).trans (le_of_lt larger)
          · rw [List.mem_singleton.mp new]
        · exact .inr (by simp)
      · constructor
        · intro other mem
          rcases List.mem_append.mp mem with old | new
          · exact bound other old
          · rw [List.mem_singleton.mp new]
            exact not_lt.mp larger
        · exact attained.imp id fun mem => by simp [mem]

@[simp]
theorem lowerMaxFingerID_cursorList (client : MsaRemoteClient) :
    client.lowerMaxFingerID.cursorList = client.cursorList := by
  unfold lowerMaxFingerID
  split <;> rfl

theorem removeCursor_cursorList (client : MsaRemoteClient) (sid : Int) :
    (client.removeCursor sid).cursorList = client.cursorList.eraseP (·.sessionId == sid) := by
  unfold removeCursor
  split
  · rename_i absent
    exact (List.eraseP_of_forall_not (List.find?_eq_none.mp absent)).symm
  · dsimp only
    split_ifs <;> simp

/-- The cursor with the largest id leaves, others stay. -/
theorem lowerMaxFingerID_dense {client : MsaRemoteClient} (left : OfxTuioCursor)
    (buffer : client.freeCursorBuffer = [])
    (dense : Dense (left.fingerId :: client.fingerIds) client.freeFingerIds left.fingerId)
    (others : client.cursorList ≠ []) : FingersDense client.lowerMaxFingerID := by
  rcases largestFingerId_spec client.cursorList with ⟨bound, attained⟩
  have attained : largestFingerId client.cursorList ∈ client.fingerIds := by
    rcases attained with small | mem
    · rcases List.exists_mem_of_ne_nil _ others with ⟨cursor, mem⟩
      have nonneg := ((dense.mem_iff cursor.fingerId).mp (by
        simp only [fingerIds, List.cons_append, List.mem_cons, List.mem_append, List.mem_map]
        exact .inr (.inl ⟨cursor, mem, rfl⟩))).1
      have le := bound cursor mem
      omega
    · exact mem
  have shrunk := dense.shrink attained (by
    intro id mem
    rcases List.mem_map.mp mem with ⟨cursor, cursorMem, rfl⟩
    exact bound cursor cursorMem)
  rw [lowerMaxFingerID, if_pos (List.length_pos_iff.mpr others)]
  have filtered : (client.freeCursorBuffer ++ client.freeCursorList.filter fun freeCursor =>
      ¬ freeCursor.fingerId > largestFingerId client.cursorList).map OfxTuioCursor.fingerId =
      client.freeFingerIds.filter
        fun id => decide (id ≤ largestFingerId client.cursorList) := by
    simp [buffer, freeFingerIds, List.filter_map, Function.comp_def]
  constructor
  · rfl
  · simpa only [fingerIds, freeFingerIds, filtered] using shrunk

/-- The removal of one cursor keeps the pool dense, unless it is the only one
and its finger id is not zero. -/
theorem removeCursor_dense {client : MsaRemoteClient} {sid : Int} (inv : FingersDense client)
    (lastIsZero : ∀ cursor, client.cursorList = [cursor] → cursor.sessionId = sid →
      cursor.fingerId = 0) : FingersDense (client.removeCursor sid) := by
  cases search : client.cursorList.find? (·.sessionId == sid) with
  | none => simpa only [removeCursor, search] using inv
  | some left =>
      have leaving := perm_cons_eraseP search
      have dense := inv.dense.perm (leaving.map OfxTuioCursor.fingerId) (List.Perm.refl _)
      rw [List.map_cons] at dense
      simp only [removeCursor, search]
      split_ifs with isMax below
      · by_cases others : client.cursorList.eraseP (·.sessionId == sid) = []
        · -- the branch without a recomputation: nothing may be free
          rw [others] at leaving dense
          have only := List.perm_singleton.mp leaving
          have sidEq : left.sessionId = sid := by simpa using List.find?_some search
          have zero := lastIsZero left only sidEq
          rw [zero] at dense
          have noFree := dense.free_eq_nil_of_zero
          have lists : client.freeCursorList = [] := List.map_eq_nil_iff.mp noFree
          rw [lowerMaxFingerID, if_neg (by simp [others])]
          constructor
          · exact inv.buffer
          · simpa [fingerIds, freeFingerIds, notify, others, lists] using Dense.empty
        · refine lowerMaxFingerID_dense left inv.buffer ?_ others
          rw [isMax] at dense ⊢
          exact dense
      · have released := dense.release isMax
        constructor
        · exact inv.buffer
        · simpa [fingerIds, freeFingerIds, notify] using released
      · exact absurd (lt_of_le_of_ne (dense.le_top List.mem_cons_self) isMax) below

theorem foldl_removeCursor_dense {departed : List Int} {client : MsaRemoteClient}
    (inv : FingersDense client)
    (lastIsZero : LastLeaverIsZero departed client.cursorList) :
    FingersDense (departed.foldl removeCursor client) := by
  induction departed generalizing client with
  | nil => exact inv
  | cons sid rest ih =>
      apply ih (removeCursor_dense inv lastIsZero.1)
      rw [removeCursor_cursorList]
      exact lastIsZero.2

/-- The search for the closest free cursor ends at one in a dense pool with
fewer cursors than `maxFingerID` allows. -/
theorem closestCursor_exists {client : MsaRemoteClient} (inv : FingersDense client)
    (reuses : (client.cursorList.length : Int) ≤ client.maxFingerID) (env : Externals)
    (xpos ypos : UInt32) :
    client.freeCursorList ≠ [] ∧
      ∃ cursor, client.freeCursorList[closestCursor env xpos ypos client.freeCursorList]? =
        some cursor := by
  have freeIds := inv.dense.free_ne_nil (by rwa [fingerIds, List.length_map])
  have free : client.freeCursorList ≠ [] := fun none => freeIds (by simp [freeFingerIds, none])
  exact ⟨free, _, List.getElem?_eq_getElem (closestCursor_lt_length env _ _ free)⟩

theorem cursorSet_exists {client : MsaRemoteClient} (inv : FingersDense client)
    (env : Externals) (m : OfxOscMessage β) : ∃ after, client.cursorSet env m = some after := by
  simp only [cursorSet]
  split
  · simp only [allocateFinger]
    split_ifs with reuses
    · rcases closestCursor_exists inv reuses env
        (readCursor env.toFloatOps 0 m).x (readCursor env.toFloatOps 0 m).y with ⟨_, cursor, found⟩
      simp [found]
    · simp
  · split
    · simp
    · split_ifs <;> simp

/-- One message that releases the zero finger id last is handled and keeps the
pool dense. -/
theorem step_dense {env : Externals} {client : MsaRemoteClient} {m : OfxOscMessage β}
    (inv : FingersDense client) (releases : client.ReleasesZeroLast env m) :
    ∃ after, step env client m = some after ∧ FingersDense after := by
  obtain ⟨after, stepped⟩ : ∃ after, step env client m = some after := by
    rcases cursorSet_exists inv env m with ⟨set, setEq⟩
    simp only [step, handleMessage, guarded, setEq]
    split_ifs <;> simp
  refine ⟨after, stepped, ?_⟩
  cases step_effect stepped with
  | skipped => exact inv
  | objectSet => exact inv.of_same (objectSet_sameCursors env client m)
  | objectAlive => exact inv.of_same (objectAlive_sameCursors env client m)
  | cursorSet _ _ done => exact cursorSet_dense inv done
  | cursorAlive fresh isAlive =>
      rcases foldl_removeCursor_dense inv (releases isAlive fresh) with ⟨buffer, dense⟩
      exact ⟨buffer, dense⟩
  | frameSequence => exact inv.of_same ⟨rfl, rfl, rfl, rfl⟩
  | accelerometer => exact inv.of_same (accelerometer_sameCursors env client m)

theorem run_dense {env : Externals} {messages : List (OfxOscMessage β)}
    (meets : Meets (step env) (ReleasesZeroLast env) {} messages) :
    ∃ client, run (step env) {} messages = some client ∧ FingersDense client :=
  exists_run_of_meets (fun _ _ inv releases => step_dense inv releases)
    fingersDense_initial meets

/-! ## Removals that leave free cursors behind -/

theorem foldl_removeCursor_nil {departed : List Int} {client : MsaRemoteClient}
    (noCursor : client.cursorList = []) : departed.foldl removeCursor client = client := by
  induction departed generalizing client with
  | nil => rfl
  | cons sid rest ih =>
      have unchanged : client.removeCursor sid = client := by simp [removeCursor, noCursor]
      rw [List.foldl_cons, unchanged, ih noCursor]

/-- The only cursor leaves and its finger id is not zero: the cursors that hold
the smaller ids stay free. -/
theorem removeCursor_leaves_free {client : MsaRemoteClient} {cursor : OfxTuioCursor}
    (inv : FingersDense client) (only : client.cursorList = [cursor])
    (nonzero : cursor.fingerId ≠ 0) :
    (client.removeCursor cursor.sessionId).cursorList = [] ∧
      (client.removeCursor cursor.sessionId).freeCursorList ≠ [] := by
  have dense := inv.dense
  rw [fingerIds, only, List.map_singleton] at dense
  have bounds := (dense.mem_iff cursor.fingerId).mp (by simp)
  have isMax : cursor.fingerId = client.maxFingerID :=
    (List.mem_singleton.mp (dense.top_used (by omega))).symm
  have freeIds := dense.free_ne_nil (by rw [List.length_singleton]; omega)
  have free : client.freeCursorList ≠ [] := fun none => freeIds (by simp [freeFingerIds, none])
  constructor
  · simp [removeCursor_cursorList, only]
  · simpa [removeCursor, only, isMax, notify, lowerMaxFingerID] using free

/-- The messages the condition rules out are those that leave free cursors to a
client without cursors. -/
theorem cursorAlive_leaves_free {env : Externals} {client : MsaRemoteClient}
    {m : OfxOscMessage β} (inv : FingersDense client)
    (violates : ¬ LastLeaverIsZero
      (departedIds client.aliveCursorList (aliveIds env.toFloatOps m)) client.cursorList) :
    (client.cursorAlive env m).cursorList = [] ∧
      (client.cursorAlive env m).freeCursorList ≠ [] := by
  simp only [cursorAlive]
  generalize departedIds client.aliveCursorList (aliveIds env.toFloatOps m) = departed
    at violates
  induction departed generalizing client with
  | nil => exact absurd trivial violates
  | cons sid rest ih =>
      rw [List.foldl_cons]
      by_cases lastIsZero : ∀ cursor, client.cursorList = [cursor] → cursor.sessionId = sid →
          cursor.fingerId = 0
      · have later : ¬ LastLeaverIsZero rest (client.removeCursor sid).cursorList := by
          rw [removeCursor_cursorList]
          exact fun after => violates ⟨lastIsZero, after⟩
        exact ih (removeCursor_dense inv lastIsZero) later
      · push Not at lastIsZero
        rcases lastIsZero with ⟨cursor, only, rfl, nonzero⟩
        rcases removeCursor_leaves_free inv only nonzero with ⟨empty, free⟩
        rw [foldl_removeCursor_nil empty]
        exact ⟨empty, free⟩

/-! ## Distinct finger ids -/

/-- An `alive` message of the cursor profile. -/
def cursorAliveMessage (sids : List Int32) : OfxOscMessage Blob :=
  tuioMessage "/tuio/2Dcur" "alive" (sids.map .int32)

/-- A `set` message of the cursor profile for a resting cursor at `(x, 0)`. -/
def cursorSetMessage (sid : Int32) (x : UInt32) : OfxOscMessage Blob :=
  tuioMessage "/tuio/2Dcur" "set" [.int32 sid, .float x, .float 0, .float 0, .float 0, .float 0]

/-- Of two cursors the one with finger id zero leaves. -/
def recyclingMessages : List (OfxOscMessage Blob) :=
  [cursorAliveMessage [1, 2], cursorSetMessage 1 0, cursorSetMessage 2 0,
    cursorAliveMessage [2, 3]]

/-- In every run of messages that release the zero finger id last, each
message is handled and the listed cursors have pairwise distinct finger ids
after it. -/
theorem fingerIds_nodup (env : Externals) (messages handled : List (OfxOscMessage β))
    (meets : Meets (step env) (ReleasesZeroLast env) {} messages)
    (isPrefix : handled <+: messages) :
    ∃ client, run (step env) {} handled = some client ∧ client.fingerIds.Nodup := by
  rcases isPrefix with ⟨later, rfl⟩
  rcases run_dense meets.of_append with ⟨client, reached, inv⟩
  exact ⟨client, reached, inv.dense.used_nodup⟩

theorem fingerIds_nodup_recycling :
    ∃ client, run (step .sample) {} (recyclingMessages ++ [cursorSetMessage 3 0]) = some client ∧
      client.fingerIds.Nodup :=
  fingerIds_nodup .sample (recyclingMessages ++ [cursorSetMessage 3 0]) _ (by decide +kernel)
    (List.prefix_refl _)

/-- Two cursors leave at once, the one with finger id one last; one of the
three that follow is replaced. -/
def repeatedIdMessages : List (OfxOscMessage Blob) :=
  [cursorAliveMessage [1, 2], cursorSetMessage 1 0, cursorSetMessage 2 0,
    cursorAliveMessage [], cursorAliveMessage [3, 4, 5], cursorSetMessage 3 0,
    cursorSetMessage 4 0, cursorSetMessage 5 0, cursorAliveMessage [3, 5, 6],
    cursorSetMessage 6 0]

theorem repeatedIdMessages_fingerIds :
    (run (step .sample) {} repeatedIdMessages).map fingerIds = some [0, 2, 0] := by
  decide +kernel

/-- Distinct finger ids are not an invariant of all cursor messages. -/
theorem fingerIds_repeat :
    ¬ ∀ (env : Externals) (messages : List (OfxOscMessage Blob)) (client : MsaRemoteClient),
      (∀ m ∈ messages, m.getAddress = ascii "/tuio/2Dcur") →
        run (step env) {} messages = some client → client.fingerIds.Nodup := by
  intro distinct
  rcases Option.map_eq_some_iff.mp repeatedIdMessages_fingerIds with ⟨client, reached, ids⟩
  have nodup := distinct .sample repeatedIdMessages client (by decide +kernel) reached
  rw [ids] at nodup
  exact absurd nodup (by decide)

/-! ## The closest free cursor -/

/-- A `set` message for a session that no listed cursor has. -/
def IntroducesCursor (env : Externals) (client : MsaRemoteClient) (m : OfxOscMessage β) : Prop :=
  IsMessage env.toFloatOps "/tuio/2Dcur" "set" m ∧
    ∀ cursor ∈ client.cursorList, cursor.sessionId ≠ (m.getArgAsInt32 env.toFloatOps 1).toInt

instance (env : Externals) (client : MsaRemoteClient) (m : OfxOscMessage β) :
    Decidable (client.IntroducesCursor env m) :=
  inferInstanceAs (Decidable (_ ∧ _))

/-- In every run of messages that release the zero finger id last, a new
session that meets no more cursors than `maxFingerID` finds a free cursor, and
the search ends at one. -/
theorem freeCursorList_ne_nil (env : Externals) (messages : List (OfxOscMessage β))
    (client : MsaRemoteClient) (m : OfxOscMessage β)
    (meets : Meets (step env) (ReleasesZeroLast env) {} messages)
    (reached : run (step env) {} messages = some client)
    (_introduces : client.IntroducesCursor env m)
    (reuses : (client.cursorList.length : Int) ≤ client.maxFingerID) :
    client.freeCursorList ≠ [] ∧
      ∃ cursor, client.freeCursorList[closestCursor env (m.getArgAsFloat env.toFloatOps 2)
        (m.getArgAsFloat env.toFloatOps 3) client.freeCursorList]? = some cursor := by
  rcases run_dense meets with ⟨final, reachedFinal, inv⟩
  cases reachedFinal.symm.trans reached
  exact closestCursor_exists inv reuses env _ _

theorem freeCursorList_ne_nil_recycling :
    ∃ client, run (step .sample) {} recyclingMessages = some client ∧
      client.freeCursorList ≠ [] := by
  have reuse : ((run (step .sample) {} recyclingMessages).any fun client =>
      decide (client.IntroducesCursor .sample (cursorSetMessage 3 0) ∧
        (client.cursorList.length : Int) ≤ client.maxFingerID)) = true := by decide +kernel
  rcases (Option.any_eq_true _ _).mp reuse with ⟨client, reached, condition⟩
  rcases of_decide_eq_true condition with ⟨introduces, reuses⟩
  exact ⟨client, reached, (freeCursorList_ne_nil .sample _ client (cursorSetMessage 3 0)
    (by decide +kernel) reached introduces reuses).1⟩

/-- Six cursors leave at once, the one with finger id five last, and five of
them stay free.  Cursors that take the free ids two and three leave without
being kept, and the one that takes id four outlives the only other cursor. -/
def exhaustingMessages : List (OfxOscMessage Blob) :=
  [cursorAliveMessage [1, 2, 3, 4, 5, 6], cursorSetMessage 1 0,
    cursorSetMessage 2 0x3f800000, cursorSetMessage 3 0x40000000,
    cursorSetMessage 4 0x40400000, cursorSetMessage 5 0x40800000,
    cursorSetMessage 6 0x40a00000, cursorAliveMessage [],
    cursorAliveMessage [7, 8], cursorSetMessage 7 0, cursorSetMessage 8 0x3f800000,
    cursorAliveMessage [8, 9], cursorSetMessage 9 0x40000000,
    cursorAliveMessage [8, 10], cursorSetMessage 10 0x40400000,
    cursorAliveMessage [8, 11], cursorSetMessage 11 0x40800000,
    cursorAliveMessage [11, 12, 13, 14, 15], cursorSetMessage 12 0,
    cursorSetMessage 13 0, cursorSetMessage 14 0]

theorem exhaustingMessages_exhaust :
    ((run (step .sample) {} exhaustingMessages).any fun client =>
      decide (client.IntroducesCursor .sample (cursorSetMessage 15 0) ∧
        (client.cursorList.length : Int) ≤ client.maxFingerID ∧
        client.freeCursorList = [])) = true := by
  decide +kernel

/-- A new session can meet no more cursors than `maxFingerID` and an empty list
of free cursors. -/
theorem freeCursorList_exhausted :
    ¬ ∀ (env : Externals) (messages : List (OfxOscMessage Blob)) (client : MsaRemoteClient)
      (m : OfxOscMessage Blob),
      (∀ m ∈ messages, m.getAddress = ascii "/tuio/2Dcur") →
        run (step env) {} messages = some client → client.IntroducesCursor env m →
          (client.cursorList.length : Int) ≤ client.maxFingerID →
            client.freeCursorList ≠ [] := by
  intro available
  rcases (Option.any_eq_true _ _).mp exhaustingMessages_exhaust with ⟨client, reached, exhausted⟩
  rcases of_decide_eq_true exhausted with ⟨introduces, reuses, empty⟩
  exact available .sample exhaustingMessages client (cursorSetMessage 15 0)
    (by decide +kernel) reached introduces reuses empty

end MsaRemoteClient

end OfxPrimes.Tuio
