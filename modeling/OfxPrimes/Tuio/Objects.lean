import OfxPrimes.Tuio.Bundle
import Mathlib.Data.List.Induction
import Mathlib.Data.List.Nodup
import Mathlib.Tactic.Tauto

/-!
# Tracking objects over conforming bundles

While the frame numbers do not decrease, every object bundle passes the guard.
The session ids of `objectList` then follow the alive lists exactly: after a
bundle they are the ids of its alive list that were tracked before or set in
it, and the notifications of the bundle name each id that entered or left once.
-/

namespace OfxPrimes.Tuio

open OfxPrimes.Osc
open OfxPrimes.Transition

variable {β : Type}

/-- Session ids of the `objectAdded` notifications. -/
def addedIds (notifications : List Notification) : List Int :=
  notifications.filterMap fun
    | .objectAdded object => some object.sessionId
    | _ => none

/-- Session ids of the `objectRemoved` notifications. -/
def removedIds (notifications : List Notification) : List Int :=
  notifications.filterMap fun
    | .objectRemoved object => some object.sessionId
    | _ => none

@[simp]
theorem addedIds_append (first second : List Notification) :
    addedIds (first ++ second) = addedIds first ++ addedIds second :=
  List.filterMap_append

@[simp]
theorem removedIds_append (first second : List Notification) :
    removedIds (first ++ second) = removedIds first ++ removedIds second :=
  List.filterMap_append

/-- The departed ids of an alive list without repetition are those the new
list does not name. -/
theorem mem_departedIds {aliveList ids : List Int} (nodup : aliveList.Nodup) {sid : Int} :
    sid ∈ departedIds aliveList ids ↔ sid ∈ aliveList ∧ sid ∉ ids := by
  rw [departedIds, ← List.diff_eq_foldl]
  exact nodup.mem_sdiff_iff

theorem departedIds_nodup {aliveList : List Int} (nodup : aliveList.Nodup) (ids : List Int) :
    (departedIds aliveList ids).Nodup := by
  rw [departedIds, ← List.diff_eq_foldl]
  exact nodup.diff

namespace MsaRemoteClient

/-- The session ids of the listed objects. -/
def objectIds (client : MsaRemoteClient) : List Int :=
  client.objectList.map OfxTuioObject.sessionId

/-- The session ids of the listed objects are distinct and alive. -/
structure ObjectsTracked (client : MsaRemoteClient) : Prop where
  nodup : client.objectIds.Nodup
  alive_nodup : client.aliveObjectList.Nodup
  subset : client.objectIds ⊆ client.aliveObjectList
  pending : client.newObjectList = []

theorem objectsTracked_initial : ObjectsTracked {} :=
  ⟨List.nodup_nil, List.nodup_nil, List.nil_subset _, rfl⟩

/-! ## The two object messages -/

/-- A `set` message lists its session id if it is not listed, and notifies
`objectAdded` exactly then. -/
theorem objectSet_spec (env : Externals) (client : MsaRemoteClient) (m : OfxOscMessage β) :
    ∃ events, (client.objectSet env m).notifications = client.notifications ++ events ∧
      (client.objectSet env m).objectIds = client.objectIds ++ addedIds events ∧
      addedIds events =
        (if (readObject env.toFloatOps m).sessionId ∈ client.objectIds then []
          else [(readObject env.toFloatOps m).sessionId]) ∧
      removedIds events = [] := by
  set read := readObject env.toFloatOps m with readEq
  cases search : client.objectList.findIdx? (·.sessionId == read.sessionId) with
  | none =>
      have absent : read.sessionId ∉ client.objectIds := by
        rw [List.findIdx?_eq_none_iff] at search
        intro mem
        rcases List.mem_map.mp mem with ⟨object, objectMem, same⟩
        simpa [same] using search object objectMem
      have log : (client.objectSet env m).notifications =
          client.notifications ++ [.objectAdded (OfxTuioObject.construct env read)] := by
        simp [objectSet, ← readEq, search, notify]
      have ids : (client.objectSet env m).objectIds = client.objectIds ++
          addedIds [.objectAdded (OfxTuioObject.construct env read)] := by
        simp [objectSet, ← readEq, search, notify, objectIds, addedIds]
      rw [if_neg absent]
      exact ⟨_, log, ids, rfl, rfl⟩
  | some i =>
      rcases List.findIdx?_eq_some_iff_getElem.mp search with ⟨bound, found, _⟩
      have listed : read.sessionId ∈ client.objectIds :=
        List.mem_map.mpr ⟨client.objectList[i], List.getElem_mem bound, by simpa using found⟩
      rw [if_pos listed]
      have lookup : client.objectList[i]? = some client.objectList[i] :=
        List.getElem?_eq_getElem bound
      by_cases differs : client.objectList[i].differs env.toFloatOps read
      · have log : (client.objectSet env m).notifications =
            client.notifications ++ [.objectUpdated (client.objectList[i].update read)] := by
          simp [objectSet, ← readEq, search, lookup, differs, notify]
        have ids : (client.objectSet env m).objectIds = client.objectIds ++
            addedIds [.objectUpdated (client.objectList[i].update read)] := by
          have idBound : i < client.objectIds.length := by simpa [objectIds] using bound
          have kept : (client.objectList[i].update read).sessionId = client.objectIds[i] := by
            simp [objectIds, OfxTuioObject.update]
          simp only [objectSet, ← readEq, search, lookup, differs, if_true, notify, objectIds,
            List.map_set]
          rw [kept]
          exact (List.set_getElem_self _).trans (List.append_nil _).symm
        exact ⟨_, log, ids, rfl, rfl⟩
      · have log : (client.objectSet env m).notifications = client.notifications ++ [] := by
          simp [objectSet, ← readEq, search, lookup, differs]
        have ids : (client.objectSet env m).objectIds = client.objectIds ++ addedIds [] := by
          simp [objectSet, ← readEq, search, lookup, differs, addedIds]
        exact ⟨[], log, ids, rfl, rfl⟩

/-- Removing a departed id erases it and notifies `objectRemoved` if it was
listed. -/
theorem removeObject_spec (client : MsaRemoteClient) (sid : Int) :
    ∃ events, (client.removeObject sid).notifications = client.notifications ++ events ∧
      (client.removeObject sid).objectIds = client.objectIds.erase sid ∧
      addedIds events = [] ∧
      removedIds events = (if sid ∈ client.objectIds then [sid] else []) := by
  have erased : (client.objectList.eraseP (·.sessionId == sid)).map OfxTuioObject.sessionId =
      client.objectIds.erase sid := by
    rw [objectIds, List.erase_eq_eraseP', List.eraseP_map]
    rfl
  cases search : client.objectList.find? (·.sessionId == sid) with
  | none =>
      have absent : sid ∉ client.objectIds := by
        rw [List.find?_eq_none] at search
        intro mem
        rcases List.mem_map.mp mem with ⟨object, objectMem, same⟩
        simpa [same] using search object objectMem
      have log : (client.removeObject sid).notifications = client.notifications ++ [] := by
        simp [removeObject, search]
      have ids : (client.removeObject sid).objectIds = client.objectIds.erase sid := by
        simp [removeObject, search, List.erase_of_not_mem absent]
      rw [if_neg absent]
      exact ⟨[], log, ids, rfl, rfl⟩
  | some object =>
      have same : object.sessionId = sid := by simpa using List.find?_some search
      have listed : sid ∈ client.objectIds :=
        List.mem_map.mpr ⟨object, List.mem_of_find?_eq_some search, same⟩
      have log : (client.removeObject sid).notifications =
          client.notifications ++ [.objectRemoved object] := by
        simp [removeObject, search, notify]
      have ids : (client.removeObject sid).objectIds = client.objectIds.erase sid := by
        simpa only [removeObject, search, objectIds] using erased
      have removed : removedIds [.objectRemoved object] = [object.sessionId] := rfl
      rw [if_pos listed, ← same] at *
      exact ⟨_, log, ids, rfl, removed⟩

theorem foldl_removeObject_spec {departed : List Int} (client : MsaRemoteClient)
    (nodup : departed.Nodup) (idsNodup : client.objectIds.Nodup) :
    ∃ events,
      (departed.foldl removeObject client).notifications = client.notifications ++ events ∧
      (departed.foldl removeObject client).objectIds =
        departed.foldl List.erase client.objectIds ∧
      addedIds events = [] ∧
      removedIds events = departed.filter (· ∈ client.objectIds) := by
  induction departed generalizing client with
  | nil => exact ⟨[], by simp, rfl, rfl, rfl⟩
  | cons sid rest ih =>
      rcases removeObject_spec client sid with ⟨events, log, ids, added, removed⟩
      rcases List.nodup_cons.mp nodup with ⟨sidNotMem, restNodup⟩
      rcases ih (client.removeObject sid) restNodup (by rw [ids]; exact idsNodup.erase sid) with
        ⟨later, laterLog, laterIds, laterAdded, laterRemoved⟩
      have filtered : rest.filter (· ∈ client.objectIds.erase sid) =
          rest.filter (· ∈ client.objectIds) := by
        apply List.filter_congr
        intro other mem
        have ne : other ≠ sid := ne_of_mem_of_not_mem mem sidNotMem
        simp only [idsNodup.mem_erase_iff, ne_eq, ne, not_false_eq_true, true_and]
      have bothRemoved : removedIds (events ++ later) =
          (sid :: rest).filter (· ∈ client.objectIds) := by
        rw [removedIds_append, removed, laterRemoved, ids, filtered, List.filter_cons]
        by_cases listed : sid ∈ client.objectIds <;> simp [listed]
      have noneAdded : addedIds (events ++ later) = [] := by
        rw [addedIds_append, added, laterAdded, List.append_nil]
      rw [List.foldl_cons, laterLog, log, laterIds, ids, List.foldl_cons, List.append_assoc]
      exact ⟨events ++ later, rfl, rfl, noneAdded, bothRemoved⟩

/-- The `set` messages of a bundle list the new ids in their order. -/
theorem foldl_objectSet_spec (env : Externals) (bundle : TuioBundle β)
    (sets : List (Int32 × List (OfxOscArg β))) (client : MsaRemoteClient)
    (idsNodup : client.objectIds.Nodup) :
    ∃ events, ((sets.map bundle.setMessage).foldl (fun client m => client.objectSet env m)
        client).notifications = client.notifications ++ events ∧
      ((sets.map bundle.setMessage).foldl (fun client m => client.objectSet env m)
        client).objectIds = client.objectIds ++ addedIds events ∧
      (client.objectIds ++ addedIds events).Nodup ∧
      (∀ sid, sid ∈ client.objectIds ++ addedIds events ↔
        sid ∈ client.objectIds ∨ sid ∈ sets.map fun set => set.1.toInt) ∧
      removedIds events = [] := by
  induction sets generalizing client with
  | nil => exact ⟨[], by simp, by simp [addedIds], by simpa [addedIds] using idsNodup,
      by simp [addedIds], rfl⟩
  | cons set rest ih =>
      rcases objectSet_spec env client (bundle.setMessage set) with
        ⟨events, log, ids, added, removed⟩
      have sidEq : (readObject env.toFloatOps (bundle.setMessage set)).sessionId =
          set.1.toInt := rfl
      rw [sidEq] at added
      have nextNodup : (client.objectSet env (bundle.setMessage set)).objectIds.Nodup := by
        rw [ids, added]
        split_ifs with listed
        · simpa using idsNodup
        · simpa [List.nodup_append, idsNodup] using
            fun sid mem => ne_of_mem_of_not_mem mem listed
      rcases ih (client.objectSet env (bundle.setMessage set)) nextNodup with
        ⟨later, laterLog, laterIds, laterNodup, laterMem, laterRemoved⟩
      rw [ids] at laterIds laterNodup laterMem
      have bothMem : ∀ sid, sid ∈ client.objectIds ++ addedIds (events ++ later) ↔
          sid ∈ client.objectIds ∨ sid ∈ (set :: rest).map fun set => set.1.toInt := by
        intro sid
        rw [addedIds_append, ← List.append_assoc, laterMem, List.map_cons, List.mem_cons,
          List.mem_append, added]
        split_ifs with listed
        · constructor
          · rintro ((mem | none) | mem)
            · exact .inl mem
            · simp at none
            · exact .inr (.inr mem)
          · rintro (mem | rfl | mem)
            · exact .inl (.inl mem)
            · exact .inl (.inl listed)
            · exact .inr mem
        · rw [List.mem_singleton]
          tauto
      rw [addedIds_append, ← List.append_assoc] at bothMem
      use events ++ later
      rw [List.map_cons, List.foldl_cons, addedIds_append, removedIds_append, removed, laterRemoved,
        laterLog, log, List.append_assoc, ← List.append_assoc client.objectIds]
      exact ⟨rfl, laterIds, laterNodup, bothMem, rfl⟩

/-! ## One conforming bundle -/

theorem objectSet_lists (env : Externals) (client : MsaRemoteClient) (m : OfxOscMessage β) :
    (client.objectSet env m).aliveObjectList = client.aliveObjectList ∧
      (client.objectSet env m).newObjectList = client.newObjectList := by
  simp only [objectSet]
  split
  · exact ⟨rfl, rfl⟩
  · split
    · exact ⟨rfl, rfl⟩
    · split_ifs <;> exact ⟨rfl, rfl⟩

theorem foldl_objectSet_lists (env : Externals) (messages : List (OfxOscMessage β))
    (client : MsaRemoteClient) :
    (messages.foldl (fun client m => client.objectSet env m) client).aliveObjectList =
        client.aliveObjectList ∧
      (messages.foldl (fun client m => client.objectSet env m) client).newObjectList =
        client.newObjectList := by
  induction messages generalizing client with
  | nil => exact ⟨rfl, rfl⟩
  | cons m rest ih =>
      rcases objectSet_lists env client m with ⟨alive, new⟩
      rcases ih (client.objectSet env m) with ⟨laterAlive, laterNew⟩
      exact ⟨laterAlive.trans alive, laterNew.trans new⟩

end MsaRemoteClient

namespace TuioBundle

/-- The session ids that the bundle lists as alive. -/
def aliveSids (bundle : TuioBundle β) : List Int :=
  bundle.alive.map Int32.toInt

/-- The session ids that the bundle sets. -/
def setSids (bundle : TuioBundle β) : List Int :=
  bundle.sets.map fun set => set.1.toInt

/-- A bundle of the object profile that lists distinct sessions as alive and
sets only sessions it lists. -/
structure Conforming (bundle : TuioBundle β) : Prop where
  object : bundle.profile = .object
  alive_nodup : bundle.alive.Nodup
  sets_alive : ∀ set ∈ bundle.sets, set.1 ∈ bundle.alive

instance (bundle : TuioBundle β) : Decidable bundle.Conforming :=
  decidable_of_iff (bundle.profile = .object ∧ bundle.alive.Nodup ∧
    ∀ set ∈ bundle.sets, set.1 ∈ bundle.alive)
    ⟨fun ⟨object, nodup, alive⟩ => ⟨object, nodup, alive⟩,
      fun ⟨object, nodup, alive⟩ => ⟨object, nodup, alive⟩⟩

theorem Conforming.aliveSids_nodup {bundle : TuioBundle β} (conforming : bundle.Conforming) :
    bundle.aliveSids.Nodup :=
  conforming.alive_nodup.map fun _ _ => Int32.toInt_inj.mp

theorem Conforming.setSids_subset {bundle : TuioBundle β} (conforming : bundle.Conforming) :
    bundle.setSids ⊆ bundle.aliveSids := by
  intro sid mem
  rcases List.mem_map.mp mem with ⟨set, setMem, rfl⟩
  exact List.mem_map_of_mem (conforming.sets_alive set setMem)

end TuioBundle

namespace MsaRemoteClient

/-- What a conforming bundle is to do: the listed sessions are those alive that
were tracked before or set in the bundle, and each session that entered or left
is notified once. -/
structure TracksBundle (client after : MsaRemoteClient) (bundle : TuioBundle β) : Prop where
  nodup : after.objectIds.Nodup
  mem_iff : ∀ sid, sid ∈ after.objectIds ↔
    sid ∈ bundle.aliveSids ∧ (sid ∈ client.objectIds ∨ sid ∈ bundle.setSids)
  notified : ∃ events, after.notifications = client.notifications ++ events ∧
    (∀ sid, (addedIds events).count sid =
      if sid ∈ after.objectIds ∧ sid ∉ client.objectIds then 1 else 0) ∧
    ∀ sid, (removedIds events).count sid =
      if sid ∈ client.objectIds ∧ sid ∉ after.objectIds then 1 else 0

/-- The `alive` message keeps the listed sessions that are alive and notifies
`objectRemoved` once for each of the others. -/
theorem objectAlive_spec (env : Externals) {client : MsaRemoteClient}
    (bundle : TuioBundle β) (inv : ObjectsTracked client) :
    ∃ events, (client.objectAlive env bundle.aliveMessage).notifications =
        client.notifications ++ events ∧
      (client.objectAlive env bundle.aliveMessage).objectIds.Nodup ∧
      (∀ sid, sid ∈ (client.objectAlive env bundle.aliveMessage).objectIds ↔
        sid ∈ client.objectIds ∧ sid ∈ bundle.aliveSids) ∧
      addedIds events = [] ∧ (removedIds events).Nodup ∧
      (∀ sid, sid ∈ removedIds events ↔ sid ∈ client.objectIds ∧ sid ∉ bundle.aliveSids) ∧
      (client.objectAlive env bundle.aliveMessage).aliveObjectList = bundle.aliveSids ∧
      (client.objectAlive env bundle.aliveMessage).newObjectList = [] := by
  have idsEq : aliveIds env.toFloatOps bundle.aliveMessage = bundle.aliveSids :=
    aliveIds_tuioMessage _ _ _ _
  have departedNodup := departedIds_nodup inv.alive_nodup bundle.aliveSids
  have departedMem : ∀ sid, sid ∈ departedIds client.aliveObjectList bundle.aliveSids ↔
      sid ∈ client.aliveObjectList ∧ sid ∉ bundle.aliveSids :=
    fun _ => mem_departedIds inv.alive_nodup
  rcases foldl_removeObject_spec client departedNodup inv.nodup with
    ⟨events, log, ids, added, removed⟩
  simp only [objectAlive, idsEq, inv.pending, List.nil_append]
  generalize departedIds client.aliveObjectList bundle.aliveSids = departed at *
  change (departed.foldl removeObject client).objectIds = _ at ids
  rw [← List.diff_eq_foldl] at ids
  have stayNodup : (departed.foldl removeObject client).objectIds.Nodup := by
    rw [ids]
    exact inv.nodup.diff
  have stays : ∀ sid, sid ∈ (departed.foldl removeObject client).objectIds ↔
      sid ∈ client.objectIds ∧ sid ∈ bundle.aliveSids := by
    intro sid
    rw [ids, inv.nodup.mem_sdiff_iff, departedMem]
    constructor
    · rintro ⟨listed, kept⟩
      exact ⟨listed, by_contra fun gone => kept ⟨inv.subset listed, gone⟩⟩
    · rintro ⟨listed, alive⟩
      exact ⟨listed, fun departs => departs.2 alive⟩
  have removedNodup : (removedIds events).Nodup := by
    rw [removed]
    exact departedNodup.filter _
  have leaves : ∀ sid, sid ∈ removedIds events ↔
      sid ∈ client.objectIds ∧ sid ∉ bundle.aliveSids := by
    intro sid
    rw [removed, List.mem_filter, departedMem, decide_eq_true_eq]
    constructor
    · rintro ⟨⟨_, gone⟩, listed⟩
      exact ⟨listed, gone⟩
    · rintro ⟨listed, gone⟩
      exact ⟨⟨inv.subset listed, gone⟩, listed⟩
  exact ⟨events, log, stayNodup, stays, added, removedNodup, leaves, trivial, trivial⟩

theorem objectBundle_tracks (env : Externals) {client : MsaRemoteClient}
    {bundle : TuioBundle β} (inv : ObjectsTracked client) (conforming : bundle.Conforming) :
    ObjectsTracked (client.objectBundle env bundle) ∧
      TracksBundle client (client.objectBundle env bundle) bundle := by
  obtain ⟨gone, goneLog, aliveNodup, survivors, goneAdded, goneNodup, goneMem, aliveList,
    newList⟩ := objectAlive_spec env bundle inv
  rcases foldl_objectSet_spec env bundle bundle.sets _ aliveNodup with
    ⟨come, comeLog, comeIds, comeNodup, comeMem, comeRemoved⟩
  rcases foldl_objectSet_lists env bundle.setMessages
      (client.objectAlive env bundle.aliveMessage) with
    ⟨laterAlive, laterNew⟩
  change (client.objectBundle env bundle).notifications = _ at comeLog
  change (client.objectBundle env bundle).objectIds = _ at comeIds
  change (client.objectBundle env bundle).aliveObjectList = _ at laterAlive
  change (client.objectBundle env bundle).newObjectList = _ at laterNew
  have setAlive := conforming.setSids_subset
  have aliveNodupSids := conforming.aliveSids_nodup
  generalize client.objectBundle env bundle = after at *
  generalize client.objectAlive env bundle.aliveMessage = alive at *
  have afterMem : ∀ sid, sid ∈ after.objectIds ↔
      sid ∈ bundle.aliveSids ∧ (sid ∈ client.objectIds ∨ sid ∈ bundle.setSids) := by
    intro sid
    rw [comeIds, comeMem, survivors]
    constructor
    · rintro (⟨listed, isAlive⟩ | isSet)
      · exact ⟨isAlive, .inl listed⟩
      · exact ⟨setAlive isSet, .inr isSet⟩
    · rintro ⟨isAlive, listed | isSet⟩
      · exact .inl ⟨listed, isAlive⟩
      · exact .inr isSet
  rcases List.nodup_append.mp comeNodup with ⟨_, addedNodup, apart⟩
  rw [aliveList] at laterAlive
  have subset : after.objectIds ⊆ after.aliveObjectList := by
    intro sid mem
    rw [laterAlive]
    exact ((afterMem sid).mp mem).1
  have log : after.notifications = client.notifications ++ (gone ++ come) := by
    rw [comeLog, goneLog, List.append_assoc]
  have addedOnce : ∀ sid, (addedIds (gone ++ come)).count sid =
      if sid ∈ after.objectIds ∧ sid ∉ client.objectIds then 1 else 0 := by
    intro sid
    rw [addedIds_append, goneAdded, List.nil_append, addedNodup.count]
    apply if_congr _ rfl rfl
    rw [comeIds, List.mem_append]
    constructor
    · intro added
      have isAlive := ((afterMem sid).mp (comeIds ▸ List.mem_append_right _ added)).1
      have unlisted : sid ∉ client.objectIds := fun listed =>
        apart sid ((survivors sid).mpr ⟨listed, isAlive⟩) sid added rfl
      exact ⟨.inr added, unlisted⟩
    · rintro ⟨stayed | added, unlisted⟩
      · exact absurd ((survivors sid).mp stayed).1 unlisted
      · exact added
  have removedOnce : ∀ sid, (removedIds (gone ++ come)).count sid =
      if sid ∈ client.objectIds ∧ sid ∉ after.objectIds then 1 else 0 := by
    intro sid
    rw [removedIds_append, comeRemoved, List.append_nil, goneNodup.count]
    apply if_congr _ rfl rfl
    rw [goneMem, afterMem]
    constructor
    · rintro ⟨listed, departed⟩
      exact ⟨listed, fun stays => departed stays.1⟩
    · rintro ⟨listed, left⟩
      exact ⟨listed, fun isAlive => left ⟨isAlive, .inl listed⟩⟩
  constructor
  · exact ⟨comeIds ▸ comeNodup, laterAlive ▸ aliveNodupSids, subset, laterNew.trans newList⟩
  · exact ⟨comeIds ▸ comeNodup, afterMem, gone ++ come, log, addedOnce, removedOnce⟩

/-! ## Runs of conforming bundles -/

/-- A conforming bundle that passes the guard is handled and tracks its alive
list. -/
theorem handleBundle_tracks (env : Externals) {client : MsaRemoteClient}
    {bundle : TuioBundle β} (inv : ObjectsTracked client) (conforming : bundle.Conforming)
    (fresh : ¬ client.Stale) :
    ∃ after, handleBundle env client bundle = some after ∧ ObjectsTracked after ∧
      TracksBundle client after bundle := by
  rcases objectBundle_tracks env inv conforming with
    ⟨⟨nodup, aliveNodup, subset, pending⟩, ⟨_, members, notified⟩⟩
  exact ⟨_, handleBundle_object env bundle conforming.object fresh,
    ⟨nodup, aliveNodup, subset, pending⟩, ⟨nodup, members, notified⟩⟩

/-- Conforming bundles with non-decreasing frame numbers are all handled, and
each of them tracks its alive list. -/
theorem conforming_run (env : Externals) {bundles : List (TuioBundle β)}
    (conforming : ∀ bundle ∈ bundles, bundle.Conforming) (sorted : FramesSorted bundles) :
    ∃ client, run (handleBundle env) {} bundles = some client ∧ ObjectsTracked client := by
  induction bundles using List.reverseRecOn with
  | nil => exact ⟨{}, rfl, objectsTracked_initial⟩
  | append_singleton before bundle ih =>
      rcases ih
        (fun earlier mem => conforming earlier (List.mem_append_left _ mem)) sorted.of_append with
        ⟨client, reached, inv⟩
      have fresh := not_stale_of_framesSorted sorted.of_append reached
      rcases handleBundle_tracks env inv (conforming bundle (by simp)) fresh with
        ⟨after, handled, tracked, _⟩
      exact ⟨after, by rw [run_append_of_eq reached, run_singleton, handled], tracked⟩

/-- A session set in one bundle stays listed while the alive lists name it. -/
theorem mem_objectIds_of_run (env : Externals) {before later : List (TuioBundle β)}
    {bundle : TuioBundle β} (sid : Int)
    (conforming : ∀ member ∈ before ++ bundle :: later, member.Conforming)
    (sorted : FramesSorted (before ++ bundle :: later)) (isSet : sid ∈ bundle.setSids)
    (listed : ∀ member ∈ later, sid ∈ member.aliveSids) :
    ∃ client, run (handleBundle env) {} (before ++ bundle :: later) = some client ∧
      ObjectsTracked client ∧ sid ∈ client.objectIds := by
  induction later using List.reverseRecOn with
  | nil =>
      rcases conforming_run env
        (fun earlier mem => conforming earlier (List.mem_append_left _ mem)) sorted.of_append with
        ⟨client, reached, inv⟩
      have isConforming := conforming bundle (by simp)
      rcases handleBundle_tracks env inv isConforming
        (not_stale_of_framesSorted sorted.of_append reached) with ⟨after, handled, tracked, tracks⟩
      refine ⟨after, by rw [run_append_of_eq reached, run_singleton, handled], tracked, ?_⟩
      exact (tracks.mem_iff sid).mpr ⟨isConforming.setSids_subset isSet, .inr isSet⟩
  | append_singleton later last ih =>
      rw [← List.cons_append, ← List.append_assoc] at conforming sorted ⊢
      rcases ih
        (fun member mem => conforming member (List.mem_append_left _ mem)) sorted.of_append
        (fun member mem => listed member (List.mem_append_left _ mem)) with
        ⟨client, reached, inv, mem⟩
      rcases handleBundle_tracks env inv
        (conforming last (by simp)) (not_stale_of_framesSorted sorted.of_append reached) with
        ⟨after, handled, tracked, tracks⟩
      refine ⟨after, by rw [run_append_of_eq reached, run_singleton, handled], tracked, ?_⟩
      exact (tracks.mem_iff sid).mpr ⟨listed last (by simp), .inl mem⟩

/-- After each bundle of a conforming stream the listed sessions are distinct
and exactly those of the alive list that were tracked before or set in the
bundle, and each session that entered or left was notified exactly once. -/
theorem objects_tracked (env : Externals) (before later : List (TuioBundle β))
    (bundle : TuioBundle β)
    (conforming : ∀ member ∈ before ++ bundle :: later, member.Conforming)
    (sorted : FramesSorted (before ++ bundle :: later)) :
    ∃ client after, run (handleBundle env) {} before = some client ∧
      handleBundle env client bundle = some after ∧ TracksBundle client after bundle := by
  rcases conforming_run env
    (fun earlier mem => conforming earlier (List.mem_append_left _ mem)) sorted.of_append with
    ⟨client, reached, inv⟩
  rcases handleBundle_tracks env inv
    (conforming bundle (by simp)) (not_stale_of_framesSorted sorted.of_append reached) with
    ⟨after, handled, _, tracks⟩
  exact ⟨client, after, reached, handled, tracks⟩

/-- Of the sessions one and two the first leaves and session three enters. -/
theorem objects_tracked_exchange :
    ∃ client after, run (handleBundle .sample) {}
        [TuioBundle.bare .object [1, 2] [1, 2] ⟨1, by decide⟩] = some client ∧
      handleBundle .sample client (TuioBundle.bare .object [2, 3] [3] ⟨2, by decide⟩) =
        some after ∧
      TracksBundle client after (TuioBundle.bare .object [2, 3] [3] ⟨2, by decide⟩) :=
  objects_tracked .sample [TuioBundle.bare .object [1, 2] [1, 2] ⟨1, by decide⟩] []
    (TuioBundle.bare .object [2, 3] [3] ⟨2, by decide⟩) (by decide) (by decide)

end MsaRemoteClient

end OfxPrimes.Tuio
