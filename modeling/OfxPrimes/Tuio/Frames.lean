import OfxPrimes.Tuio.Fingers
import OfxPrimes.Tuio.Objects

/-!
# Frame numbers and the guard

The guard is meant to drop bundles that arrive late.  A bundle carries its
frame number in its last message, so the guard in front of its `alive` and
`set` messages compares the frame numbers of the two bundles before it.  Both
profiles write the same two frame fields.
-/

namespace OfxPrimes.Tuio

open OfxPrimes.Osc
open OfxPrimes.Transition

variable {β : Type}

namespace TuioBundle

/-- What the frame fields see of a bundle, and for which profile. -/
def shape (bundle : TuioBundle β) : Profile × FrameNumber :=
  (bundle.profile, bundle.frame)

/-- A bundle in which session one is alive and nothing is set. -/
def quiet (shape : Profile × FrameNumber) : TuioBundle Blob :=
  bare shape.1 [1] [] shape.2

/-- An object bundle that sets session one. -/
def loud (frame : FrameNumber) : TuioBundle Blob :=
  bare .object [1] [1] frame

theorem messages_eq (bundle : TuioBundle β) :
    bundle.messages = (bundle.aliveMessage :: bundle.setMessages) ++ [bundle.fseqMessage] :=
  rfl

/-- Quiet bundles with a loud one among them. -/
def oneLoud (front : List (Profile × FrameNumber)) (frame : FrameNumber)
    (back : List (Profile × FrameNumber)) : List (TuioBundle Blob) :=
  front.map quiet ++ loud frame :: back.map quiet

theorem shape_oneLoud (front : List (Profile × FrameNumber)) (frame : FrameNumber)
    (back : List (Profile × FrameNumber)) :
    (oneLoud front frame back).map shape = front ++ (.object, frame) :: back := by
  have quietShapes : shape ∘ quiet = id := rfl
  rw [oneLoud, List.map_append, List.map_map, List.map_cons, List.map_map, quietShapes,
    List.map_id, List.map_id]
  rfl

theorem quiet_conforming {shape : Profile × FrameNumber} (isObject : shape.1 = .object) :
    (quiet shape).Conforming :=
  ⟨isObject, List.nodup_singleton 1, by simp [quiet, bare]⟩

theorem loud_conforming (frame : FrameNumber) : (loud frame).Conforming :=
  ⟨rfl, List.nodup_singleton 1, by simp [loud, bare]⟩

end TuioBundle

open TuioBundle

namespace MsaRemoteClient

/-! ## What the guard decides -/

/-- The message loop only returns from a guard. -/
theorem stale_of_leave {env : Externals} {client after : MsaRemoteClient}
    {m : OfxOscMessage β} (left : client.handleMessage env m = some (after, .leave)) :
    client.Stale := by
  by_contra fresh
  have goesOn : ∀ body, client.guarded body ≠ some (after, .leave) := by
    intro body guardedEq
    rw [guarded, if_neg fresh, Option.map_eq_some_iff] at guardedEq
    rcases guardedEq with ⟨_, _, pair_eq⟩
    cases pair_eq
  simp only [handleMessage] at left
  split_ifs at left <;> first | exact goesOn _ left | cases left

/-- A bundle is dropped exactly when the guard is up as it arrives. -/
theorem drops_iff_stale {env : Externals} {client : MsaRemoteClient}
    {bundle : TuioBundle β} : Drops env client bundle ↔ client.Stale := by
  constructor
  · rintro ⟨front, m, back, middle, after, messages, reached, left⟩
    -- what precedes `m` is a part of the body, since `fseq` comes last
    have body : bundle.aliveMessage :: bundle.setMessages = front ++ (m :: back).dropLast := by
      rw [← List.dropLast_append_of_ne_nil (List.cons_ne_nil m back), ← messages, messages_eq,
        List.dropLast_concat]
    have frames := run_body_sameFrames bundle
      (fun m' mem => body ▸ List.mem_append_left _ mem) reached
    exact frames.stale_iff.mp (stale_of_leave left)
  · intro stale
    exact ⟨[], bundle.aliveMessage, _, client, client, rfl, rfl,
      step_of_stale stale (isMessage_tuioMessage _ _ _ _) (.inr rfl)⟩

/-! ## Late and newest bundles -/

/-- In the run of `bundles`, a bundle with a smaller frame number than one
before it is handled without a crash and changes neither list. -/
def LateUnchanged (env : Externals) (bundles : List (TuioBundle β)) : Prop :=
  ∀ before bundle later client, bundles = before ++ bundle :: later →
    run (handleBundle env) {} before = some client →
    (∃ earlier ∈ before, bundle.frame.toInt < earlier.frame.toInt) →
    ∃ after, handleBundle env client bundle = some after ∧
      after.objectList = client.objectList ∧ after.cursorList = client.cursorList

/-- In the run of `bundles`, no bundle with a larger frame number than all
before it is dropped. -/
def NewestHandled (env : Externals) (bundles : List (TuioBundle β)) : Prop :=
  ∀ before bundle later client, bundles = before ++ bundle :: later →
    run (handleBundle env) {} before = some client →
    (∀ earlier ∈ before, earlier.frame.toInt < bundle.frame.toInt) →
    ¬ Drops env client bundle

/-- The guard does what it is there for.  A run that the search for a free
cursor cuts short arrives at no later bundle, and the bundle in which it stops
is held to both halves like any other. -/
structure OrderRespected (env : Externals) (bundles : List (TuioBundle β)) : Prop where
  late : LateUnchanged env bundles
  newest : NewestHandled env bundles

/-- Bundles in the order of their frame numbers are never late and never
dropped. -/
theorem orderRespected_of_sorted (env : Externals) {bundles : List (TuioBundle β)}
    (sorted : FramesSorted bundles) : OrderRespected env bundles := by
  constructor
  · rintro before bundle later client rfl _ ⟨earlier, mem, below⟩
    rw [FramesSorted, List.map_append, List.pairwise_append] at sorted
    have := sorted.2.2 _ (List.mem_map_of_mem mem) bundle.frame.toInt (by simp)
    omega
  · rintro before bundle later client rfl reached _
    rw [drops_iff_stale]
    exact not_stale_of_framesSorted sorted.of_append reached

/-- A list that is not sorted by a key has a first descent. -/
theorem exists_first_descent {α : Type} {key : α → Int} {items : List α}
    (unsorted : ¬ items.Pairwise fun first second => key first ≤ key second) :
    ∃ front high low back, items = front ++ high :: low :: back ∧ key low < key high ∧
      (front ++ [high]).Pairwise fun first second => key first ≤ key second := by
  induction items using List.reverseRecOn with
  | nil => exact absurd List.Pairwise.nil unsorted
  | append_singleton before low ih =>
      by_cases sorted : before.Pairwise fun first second => key first ≤ key second
      · rcases List.eq_nil_or_concat before with rfl | ⟨front, high, rfl⟩
        · exact absurd (List.pairwise_singleton _ _) unsorted
        · rw [List.concat_eq_append] at sorted unsorted ⊢
          have below : key low < key high := by
            by_contra above
            have highLargest := (List.pairwise_append.mp sorted).2.2
            apply unsorted
            apply List.pairwise_append.mpr
            constructor
            · exact sorted
            · constructor
              · exact List.pairwise_singleton _ _
              · intro first mem second isLow
                rw [List.mem_singleton.mp isLow]
                rcases List.mem_append.mp mem with old | isHigh
                · have bound := highLargest first old high (List.mem_singleton_self high)
                  omega
                · rw [List.mem_singleton.mp isHigh]
                  omega
          exact ⟨front, high, low, [], by simp, below, sorted⟩
      · rcases ih sorted with ⟨front, high, other, back, rfl, below, sortedFront⟩
        exact ⟨front, high, other, back ++ [low], by simp, below, sortedFront⟩

/-- While no object is listed, a quiet bundle lists none. -/
theorem handleBundle_quiet (env : Externals) {client : MsaRemoteClient}
    (shape : Profile × FrameNumber) (empty : client.objectList = []) :
    ∃ after, handleBundle env client (quiet shape) = some after ∧ after.objectList = [] := by
  by_cases stale : client.Stale
  · exact ⟨_, handleBundle_of_stale env _ stale, empty⟩
  · rcases shape with ⟨profile, frame⟩
    cases profile with
    | object =>
        have folded : ∀ (departed : List Int) (client : MsaRemoteClient),
            client.objectList = [] → (departed.foldl removeObject client).objectList = [] := by
          intro departed
          induction departed with
          | nil => exact fun _ none => none
          | cons sid rest ih =>
              intro client none
              exact ih _ (by simp [removeObject, none])
        exact ⟨_, handleBundle_object env _ rfl stale, folded _ client empty⟩
    | cursor =>
        have isAlive : IsMessage env.toFloatOps "/tuio/2Dcur" "alive"
            (quiet (.cursor, frame)).aliveMessage := isMessage_tuioMessage _ _ _ _
        have aliveStep : step env client (quiet (.cursor, frame)).aliveMessage =
            some (client.cursorAlive env (quiet (.cursor, frame)).aliveMessage) := by
          rw [step, handleMessage_cursorAlive isAlive, guarded, if_neg stale, Option.map_some,
            Option.map_some]
        have handled : handleBundle env client (quiet (.cursor, frame)) = some
            ((client.cursorAlive env (quiet (.cursor, frame)).aliveMessage).frameSequence env
              (quiet (.cursor, frame)).fseqMessage) := by
          rw [handleBundle, messages, run_cons, aliveStep, Option.bind_some]
          exact (run_singleton _ _ _).trans (step_fseqMessage env _ _)
        exact ⟨_, handled, (handleBundle_cursor rfl handled).objectList.trans empty⟩

theorem run_quiet (env : Externals) (client : MsaRemoteClient)
    (shapes : List (Profile × FrameNumber)) (empty : client.objectList = []) :
    ∃ after, run (handleBundle env) client (shapes.map quiet) = some after ∧
      after.objectList = [] := by
  induction shapes generalizing client with
  | nil => exact ⟨client, rfl, empty⟩
  | cons shape rest ih =>
      rcases handleBundle_quiet env shape empty with ⟨middle, handled, none⟩
      rcases ih middle none with ⟨after, reached, still⟩
      exact ⟨after, by rw [List.map_cons, run_cons, handled, Option.bind_some, reached], still⟩

/-- A loud bundle that passes the guard lists session one. -/
theorem handleBundle_loud (env : Externals) {client : MsaRemoteClient} (frame : FrameNumber)
    (inv : ObjectsTracked client) (fresh : ¬ client.Stale) :
    ∃ after, handleBundle env client (loud frame) = some after ∧ after.objectList ≠ [] := by
  rcases handleBundle_tracks env inv (loud_conforming frame) fresh with ⟨after, handled, _, tracks⟩
  have listed : (1 : Int) ∈ after.objectIds :=
    (tracks.mem_iff 1).mpr ⟨List.mem_singleton_self _, .inr (List.mem_singleton_self _)⟩
  have nonempty : after.objectList ≠ [] := by
    intro empty
    simp [objectIds, empty] at listed
  exact ⟨after, handled, nonempty⟩

/-- Late bundles are without effect and newest bundles are handled, whatever
the bundles hold, exactly for the arrival orders in which no frame number
decreases. -/
theorem orderRespected_iff (env : Externals) (frames : List FrameNumber) :
    (∀ bundles : List (TuioBundle Blob), bundles.map TuioBundle.frame = frames →
      OrderRespected env bundles) ↔
    frames.Pairwise fun first second => first.toInt ≤ second.toInt := by
  constructor
  · intro respected
    by_contra unsorted
    rcases exists_first_descent unsorted with ⟨front, high, low, back, rfl, below, sorted⟩
    let object : FrameNumber → Profile × FrameNumber := fun frame => (.object, frame)
    let before := ((front ++ [high]).map object).map quiet
    have frames : (oneLoud ((front ++ [high]).map object) low (back.map object)).map
        TuioBundle.frame = front ++ high :: low :: back := by
      have ofShape : TuioBundle.frame (β := Blob) = Prod.snd ∘ shape := rfl
      have ofObject : Prod.snd ∘ object = id := rfl
      rw [ofShape, ← List.map_map, shape_oneLoud, List.map_append, List.map_cons, List.map_map,
        List.map_map, ofObject, List.map_id, List.map_id, List.append_assoc]
      rfl
    have sortedBefore : FramesSorted before := by
      rw [FramesSorted, List.map_map, List.map_map, List.pairwise_map]
      exact sorted
    have conforming : ∀ bundle ∈ before, bundle.Conforming := by
      intro bundle mem
      simp only [before, List.map_map, List.mem_map] at mem
      rcases mem with ⟨frame, _, rfl⟩
      exact quiet_conforming rfl
    rcases conforming_run env conforming sortedBefore with ⟨client, reached, inv⟩
    rcases run_quiet env {} _ rfl with ⟨same, reachedSame, empty⟩
    cases reached.symm.trans reachedSame
    rcases handleBundle_loud env low inv
      (not_stale_of_framesSorted sortedBefore reached) with ⟨after, handled, listed⟩
    rcases (respected _ frames).late before (loud low) _ client rfl reached
      ⟨quiet (object high), by simp [before], below⟩ with ⟨late, handledLate, kept, _⟩
    cases handled.symm.trans handledLate
    exact listed (kept.trans empty)
  · rintro sorted bundles rfl
    exact orderRespected_of_sorted env (by simpa [FramesSorted, List.pairwise_map] using sorted)

/-- Frames two, one and three: the late bundle is applied and, since the two
before it arrived out of order, the newest is dropped. -/
theorem lateBundle_applied :
    let bundles := [quiet (.object, ⟨2, by decide⟩), loud ⟨1, by decide⟩,
      quiet (.object, ⟨3, by decide⟩)]
    ¬ LateUnchanged .sample bundles ∧ ¬ NewestHandled .sample bundles := by
  constructor
  · intro unchanged
    let client := (run (handleBundle .sample) {} [quiet (.object, ⟨2, by decide⟩)]).get
      (by decide)
    have applied : ∀ after, handleBundle .sample client (loud ⟨1, by decide⟩) = some after →
        after.objectList ≠ client.objectList := by decide
    rcases unchanged [quiet (.object, ⟨2, by decide⟩)] (loud ⟨1, by decide⟩)
      [quiet (.object, ⟨3, by decide⟩)] client rfl (by decide) (by decide) with
      ⟨after, handled, kept, _⟩
    exact applied after handled kept
  · intro handled
    have admitted := handled [quiet (.object, ⟨2, by decide⟩), loud ⟨1, by decide⟩]
      (quiet (.object, ⟨3, by decide⟩)) []
      ((run (handleBundle .sample) {} [quiet (.object, ⟨2, by decide⟩),
        loud ⟨1, by decide⟩]).get (by decide)) rfl (by decide) (by decide)
    rw [drops_iff_stale] at admitted
    revert admitted
    decide

/-! ## Two interleaved profiles -/

/-- The bundles of the object profile, in their order. -/
def objectBundles (bundles : List (TuioBundle β)) : List (TuioBundle β) :=
  bundles.filter fun bundle => bundle.profile = .object

/-- Both runs are there, and the interleaved one ends with the objects of the
object stream alone. -/
def ObjectsUndisturbed (env : Externals) (bundles : List (TuioBundle β)) : Prop :=
  ∃ client alone, run (handleBundle env) {} bundles = some client ∧
    run (handleBundle env) {} (objectBundles bundles) = some alone ∧
    client.objectList = alone.objectList

/-- Each profile numbers its own frames in strictly increasing order. -/
def StreamsIncreasing (shapes : List (Profile × FrameNumber)) : Prop :=
  ∀ profile, (shapes.filter fun shape => shape.1 = profile).Pairwise
    fun first second => first.2.toInt < second.2.toInt

/-- No object bundle arrives right behind a bundle whose frame number is
smaller than the one before it. -/
def ObjectsInOrder (shapes : List (Profile × FrameNumber)) : Prop :=
  ∀ front first second third back, shapes = front ++ [first, second] ++ third :: back →
    third.1 = .object → first.2.toInt ≤ second.2.toInt

/-- When the message passes the guard and introduces a session while there are at
most `maxFingerID` cursors, there is a free cursor. -/
def CursorServed (env : Externals) (client : MsaRemoteClient) (m : OfxOscMessage β) : Prop :=
  ¬ client.Stale → client.IntroducesCursor env m →
    (client.cursorList.length : Int) ≤ client.maxFingerID → client.freeCursorList ≠ []

/-- Every message of the interleaved run that needs a free cursor finds one. -/
def CursorsServed (env : Externals) (bundles : List (TuioBundle β)) : Prop :=
  Meets (step env) (CursorServed env) {} (bundles.flatMap TuioBundle.messages)

theorem exists_allocateFinger_iff (env : Externals) (client : MsaRemoteClient)
    (xpos ypos : UInt32) :
    (∃ allocated, client.allocateFinger env xpos ypos = some allocated) ↔
      ((client.cursorList.length : Int) ≤ client.maxFingerID → client.freeCursorList ≠ []) := by
  simp only [allocateFinger]
  split_ifs with reuses
  · constructor
    · rintro ⟨allocated, taken⟩ _ empty
      simp [empty] at taken
    · intro available
      have bound := closestCursor_lt_length env xpos ypos (available reuses)
      rw [List.getElem?_eq_getElem bound, Option.map_some]
      exact ⟨_, rfl⟩
  · exact ⟨fun _ few => absurd few reuses, fun _ => ⟨_, rfl⟩⟩

theorem exists_cursorSet_iff (env : Externals) (client : MsaRemoteClient)
    (m : OfxOscMessage β) :
    (∃ after, client.cursorSet env m = some after) ↔
      ((∀ cursor ∈ client.cursorList,
          cursor.sessionId ≠ (m.getArgAsInt32 env.toFloatOps 1).toInt) →
        (client.cursorList.length : Int) ≤ client.maxFingerID →
          client.freeCursorList ≠ []) := by
  simp only [MsaRemoteClient.cursorSet]
  split
  · rename_i unlisted
    have introduced : ∀ cursor ∈ client.cursorList,
        cursor.sessionId ≠ (m.getArgAsInt32 env.toFloatOps 1).toInt := by
      intro cursor mem
      exact ne_of_beq_false (List.findIdx?_eq_none_iff.mp unlisted cursor mem)
    rw [forall_prop_of_true introduced, ← exists_allocateFinger_iff env client
      (readCursor env.toFloatOps 0 m).x (readCursor env.toFloatOps 0 m).y]
    simp
  · rename_i i found
    have listed : ¬ ∀ cursor ∈ client.cursorList,
        cursor.sessionId ≠ (m.getArgAsInt32 env.toFloatOps 1).toInt := by
      intro introduced
      rcases List.findIdx?_eq_some_iff_getElem.mp found with ⟨bound, same, _⟩
      exact introduced _ (List.getElem_mem bound) (eq_of_beq same)
    constructor
    · exact fun _ introduced => absurd introduced listed
    · intro _
      split
      · exact ⟨client, rfl⟩
      · split_ifs <;> exact ⟨_, rfl⟩

/-- The search for a free cursor is the only step that can go wrong. -/
theorem cursorServed_iff (env : Externals) (client : MsaRemoteClient) (m : OfxOscMessage β) :
    client.CursorServed env m ↔ ∃ after, step env client m = some after := by
  by_cases isSet : IsMessage env.toFloatOps "/tuio/2Dcur" "set" m
  · by_cases stale : client.Stale
    · have skipped : step env client m = some client := by
        rw [step, handleMessage_cursorSet isSet, guarded, if_pos stale, Option.map_some]
      exact ⟨fun _ => ⟨client, skipped⟩, fun _ fresh => absurd stale fresh⟩
    · have stepped : step env client m = client.cursorSet env m := by
        rw [step, handleMessage_cursorSet isSet, guarded, if_neg stale, Option.map_map]
        exact Option.map_id'
      rw [stepped, exists_cursorSet_iff, CursorServed, forall_prop_of_true stale]
      exact ⟨fun served introduced => served ⟨isSet, introduced⟩,
        fun served introduces => served introduces.2⟩
  · have handled : ∃ after, step env client m = some after := by
      simp only [step, handleMessage, guarded]
      split_ifs <;> first | exact ⟨_, rfl⟩ | exact absurd ⟨‹_›, ‹_›⟩ isSet
    exact ⟨fun _ => handled, fun _ _ introduces => absurd introduces.1 isSet⟩

theorem cursorsServed_iff (env : Externals) (bundles : List (TuioBundle β)) :
    CursorsServed env bundles ↔ ∃ client, run (handleBundle env) {} bundles = some client := by
  rw [CursorsServed, meets_iff_exists_run (cursorServed_iff env), run_flatMap]
  rfl

theorem SameObjects.objectSet {client alone : MsaRemoteClient}
    (same : SameObjects client alone) (env : Externals) (m : OfxOscMessage β) :
    SameObjects (client.objectSet env m) (alone.objectSet env m) := by
  simp only [MsaRemoteClient.objectSet, same.objectList]
  split
  · exact ⟨by simp [notify], same.2, same.3⟩
  · split
    · exact same
    · split_ifs
      · exact ⟨by simp [notify], same.2, same.3⟩
      · exact same

theorem SameObjects.removeObject {client alone : MsaRemoteClient}
    (same : SameObjects client alone) (sid : Int) :
    SameObjects (client.removeObject sid) (alone.removeObject sid) := by
  simp only [MsaRemoteClient.removeObject, same.objectList]
  split
  · exact same
  · exact ⟨by simp, same.2, same.3⟩

theorem SameObjects.objectAlive {client alone : MsaRemoteClient}
    (same : SameObjects client alone) (env : Externals) (m : OfxOscMessage β) :
    SameObjects (client.objectAlive env m) (alone.objectAlive env m) := by
  have folded : ∀ (departed : List Int) (client alone : MsaRemoteClient),
      SameObjects client alone → SameObjects (departed.foldl MsaRemoteClient.removeObject client)
        (departed.foldl MsaRemoteClient.removeObject alone) := by
    intro departed
    induction departed with
    | nil => exact fun _ _ same => same
    | cons sid rest ih => exact fun _ _ same => ih _ _ (same.removeObject sid)
  simp only [MsaRemoteClient.objectAlive, same.aliveObjectList, same.newObjectList]
  exact ⟨(folded _ client alone same).objectList, rfl, rfl⟩

/-- The objects after an object bundle depend on the objects before it only. -/
theorem SameObjects.objectBundle {client alone : MsaRemoteClient}
    (same : SameObjects client alone) (env : Externals) (bundle : TuioBundle β) :
    SameObjects (client.objectBundle env bundle) (alone.objectBundle env bundle) := by
  have folded : ∀ (messages : List (OfxOscMessage β)) (client alone : MsaRemoteClient),
      SameObjects client alone →
        SameObjects (messages.foldl (fun client m => client.objectSet env m) client)
          (messages.foldl (fun client m => client.objectSet env m) alone) := by
    intro messages
    induction messages with
    | nil => exact fun _ _ same => same
    | cons m rest ih => exact fun _ _ same => ih _ _ (same.objectSet env m)
  exact folded _ _ _ (same.objectAlive env bundle.aliveMessage)

/-- When no object bundle meets the guard, cursor bundles do not show in the
objects. -/
theorem sameObjects_of_inOrder {env : Externals} {bundles : List (TuioBundle β)}
    (inOrder : ObjectsInOrder (bundles.map shape)) (sorted : FramesSorted (objectBundles bundles))
    {client alone : MsaRemoteClient} (together : run (handleBundle env) {} bundles = some client)
    (apart : run (handleBundle env) {} (objectBundles bundles) = some alone) :
    SameObjects client alone := by
  induction bundles using List.reverseRecOn generalizing client alone with
  | nil =>
      cases together
      cases apart
      exact SameObjects.refl _
  | append_singleton before bundle ih =>
      rw [objectBundles, List.filter_append] at sorted apart
      rw [run_append] at together apart
      rcases Option.bind_eq_some_iff.mp together with ⟨middle, reached, last⟩
      rcases Option.bind_eq_some_iff.mp apart with ⟨middleAlone, reachedAlone, lastAlone⟩
      have inOrderBefore : ObjectsInOrder (before.map shape) := by
        intro front first second third back shapes isObject
        exact inOrder front first second third (back ++ [bundle.shape]) (by simp [shapes]) isObject
      have same := ih inOrderBefore sorted.of_append reached reachedAlone
      rw [run_singleton] at last
      cases profile : bundle.profile with
      | cursor =>
          have dropped : [bundle].filter (fun bundle => bundle.profile = .object) = [] := by
            simp [profile]
          rw [dropped, run_nil] at lastAlone
          cases lastAlone
          rcases handleBundle_cursor profile last with ⟨objects, aliveList, newList⟩
          exact ⟨same.1.trans objects.symm, same.2.trans aliveList.symm, same.3.trans newList.symm⟩
      | object =>
          have kept : [bundle].filter (fun bundle => bundle.profile = .object) = [bundle] := by
            simp [profile]
          rw [kept, run_singleton] at lastAlone
          have fresh : ¬ middle.Stale := by
            rw [stale_iff_of_run reached]
            rintro ⟨front, first, second, rfl, below⟩
            have ordered := inOrder (front.map shape) first.shape second.shape bundle.shape []
              (by simp) profile
            exact absurd below (Int.not_lt.mpr ordered)
          have freshAlone := not_stale_of_framesSorted sorted.of_append reachedAlone
          rw [handleBundle_object env bundle profile fresh] at last
          rw [handleBundle_object env bundle profile freshAlone] at lastAlone
          cases last
          cases lastAlone
          rcases same.objectBundle env bundle with ⟨objects, aliveList, newList⟩
          exact ⟨objects, aliveList, newList⟩

/-- Behind a descent of the frame numbers the loud bundle is dropped, and no
object is ever listed. -/
theorem exists_run_oneLoud (env : Externals) (front back : List (Profile × FrameNumber))
    {first second : Profile × FrameNumber} (frame : FrameNumber)
    (descends : second.2.toInt < first.2.toInt) :
    ∃ client, run (handleBundle env) {} (oneLoud (front ++ [first, second]) frame back) =
      some client ∧ client.objectList = [] := by
  rcases run_quiet env {} (front ++ [first, second]) rfl with ⟨middle, reached, none⟩
  have stale : middle.Stale := by
    rw [stale_iff_of_run reached]
    exact ⟨front.map quiet, quiet first, quiet second, by simp, descends⟩
  rcases run_quiet env
    (middle.frameSequence env (loud frame).fseqMessage) back none with
    ⟨client, reachedClient, unlisted⟩
  have reachedAll : run (handleBundle env) {} (oneLoud (front ++ [first, second]) frame back) =
      some client := by
    rw [oneLoud, run_append_of_eq reached, run_cons, handleBundle_of_stale env _ stale,
      Option.bind_some, reachedClient]
  exact ⟨client, reachedAll, unlisted⟩

/-- Among object bundles in order the loud one is handled, and its session
stays listed. -/
theorem exists_run_objectBundles (env : Externals) {front back : List (Profile × FrameNumber)}
    {frame : FrameNumber} (sorted : FramesSorted (objectBundles (oneLoud front frame back))) :
    ∃ alone, run (handleBundle env) {} (objectBundles (oneLoud front frame back)) = some alone ∧
      alone.objectList ≠ [] := by
  have quietObjects : ∀ shapes : List (Profile × FrameNumber),
      ∀ member ∈ objectBundles (shapes.map quiet),
        member.Conforming ∧ (1 : Int) ∈ member.aliveSids := by
    intro shapes member mem
    rcases List.mem_filter.mp mem with ⟨mem, profile⟩
    rcases List.mem_map.mp mem with ⟨shape, _, rfl⟩
    exact ⟨quiet_conforming (of_decide_eq_true profile), List.mem_singleton_self _⟩
  have filtered : objectBundles (oneLoud front frame back) =
      objectBundles (front.map quiet) ++ loud frame :: objectBundles (back.map quiet) := by
    simp [objectBundles, oneLoud, loud, bare]
  rw [filtered] at sorted ⊢
  have conforming : ∀ member ∈ objectBundles (front.map quiet) ++
      loud frame :: objectBundles (back.map quiet), member.Conforming := by
    intro member mem
    rcases List.mem_append.mp mem with mem | mem
    · exact (quietObjects front member mem).1
    · rcases List.mem_cons.mp mem with rfl | mem
      · exact loud_conforming frame
      · exact (quietObjects back member mem).1
  rcases mem_objectIds_of_run env 1 conforming sorted
    (List.mem_singleton_self _) fun member mem => (quietObjects back member mem).2 with
    ⟨alone, reached, _, listed⟩
  have nonempty : alone.objectList ≠ [] := by
    intro empty
    simp [objectIds, empty] at listed
  exact ⟨alone, reached, nonempty⟩

/-- Alone, the object stream never goes wrong. -/
theorem exists_run_objects (env : Externals) (client : MsaRemoteClient)
    (bundles : List (TuioBundle β)) :
    ∃ after, run (handleBundle env) client (objectBundles bundles) = some after := by
  have progress : ∀ ⦃client : MsaRemoteClient⦄, True → ∀ bundle ∈ objectBundles bundles,
      ∃ after, handleBundle env client bundle = some after ∧ True := by
    intro client _ bundle mem
    have isObject := of_decide_eq_true (List.mem_filter.mp mem).2
    by_cases stale : client.Stale
    · exact ⟨_, handleBundle_of_stale env bundle stale, trivial⟩
    · exact ⟨_, handleBundle_object env bundle isObject stale, trivial⟩
  rcases exists_run_of_progress (fun _ => True) progress trivial with ⟨after, reached, _⟩
  exact ⟨after, reached⟩

/-- An undisturbed run never lacks a free cursor.  The runs that lack none are
undisturbed, whatever the bundles hold, exactly for the interleavings in which no
object bundle arrives right behind a bundle whose frame number is smaller than the
one before it. -/
theorem objectsUndisturbed_iff (env : Externals) {shapes : List (Profile × FrameNumber)}
    (increasing : StreamsIncreasing shapes) :
    (∀ bundles : List (TuioBundle Blob), bundles.map shape = shapes →
      ObjectsUndisturbed env bundles → CursorsServed env bundles) ∧
    ((∀ bundles : List (TuioBundle Blob), bundles.map shape = shapes →
      CursorsServed env bundles → ObjectsUndisturbed env bundles) ↔ ObjectsInOrder shapes) := by
  have sortedObjects : ∀ bundles : List (TuioBundle Blob), bundles.map shape = shapes →
      FramesSorted (objectBundles bundles) := by
    rintro bundles rfl
    have strict := increasing .object
    rw [List.filter_map, List.pairwise_map] at strict
    rw [FramesSorted, List.pairwise_map]
    exact strict.imp fun below => Int.le_of_lt below
  constructor
  · rintro bundles _ ⟨client, _, together, _⟩
    exact (cursorsServed_iff env bundles).mpr ⟨client, together⟩
  constructor
  · rintro undisturbed front first second ⟨profile, frame⟩ back rfl isObject
    cases isObject
    by_contra descends
    have shapesOf := shape_oneLoud (front ++ [first, second]) frame back
    rcases exists_run_oneLoud env front back frame (Int.not_le.mp descends) with
      ⟨client, together, unlisted⟩
    rcases exists_run_objectBundles env (sortedObjects _ shapesOf) with ⟨alone, apart, listed⟩
    rcases undisturbed _ shapesOf ((cursorsServed_iff env _).mpr ⟨client, together⟩) with
      ⟨client', alone', together', apart', same⟩
    cases together.symm.trans together'
    cases apart.symm.trans apart'
    exact listed (same.symm.trans unlisted)
  · rintro inOrder bundles rfl served
    rcases (cursorsServed_iff env bundles).mp served with ⟨client, together⟩
    rcases exists_run_objects env {} bundles with ⟨alone, apart⟩
    have same := sameObjects_of_inOrder inOrder (sortedObjects bundles rfl) together apart
    exact ⟨client, alone, together, apart, same.objectList.symm⟩

/-- Two object frames on either side of a cursor frame, their numbers in
order. -/
theorem objectsUndisturbed_iff_alternating :
    let shapes : List (Profile × FrameNumber) :=
      [(.object, ⟨1, by decide⟩), (.cursor, ⟨2, by decide⟩), (.object, ⟨3, by decide⟩)]
    (∀ bundles : List (TuioBundle Blob), bundles.map shape = shapes →
      ObjectsUndisturbed .sample bundles → CursorsServed .sample bundles) ∧
    ((∀ bundles : List (TuioBundle Blob), bundles.map shape = shapes →
      CursorsServed .sample bundles → ObjectsUndisturbed .sample bundles) ↔
        ObjectsInOrder shapes) :=
  objectsUndisturbed_iff .sample (by intro profile; cases profile <;> decide)

/-- A cursor frame with a small number makes the guard drop the object frame
behind it, whose session two is then missing. -/
theorem objects_disturbed :
    let bundles := [bare .object [1] [1] ⟨10, by decide⟩, bare .cursor [] [] ⟨1, by decide⟩,
      bare .object [1, 2] [2] ⟨11, by decide⟩]
    StreamsIncreasing (bundles.map shape) ∧ ¬ ObjectsUndisturbed .sample bundles := by
  constructor
  · intro profile
    cases profile <;> decide
  · rintro ⟨client, alone, together, apart, same⟩
    have differs : ((run (handleBundle .sample) {} [bare .object [1] [1] ⟨10, by decide⟩,
        bare .cursor [] [] ⟨1, by decide⟩, bare .object [1, 2] [2] ⟨11, by decide⟩]).map
          (·.objectList)) ≠
        ((run (handleBundle .sample) {} [bare .object [1] [1] ⟨10, by decide⟩,
          bare .object [1, 2] [2] ⟨11, by decide⟩]).map (·.objectList)) := by decide
    have filtered : objectBundles [bare .object [1] [1] ⟨10, by decide⟩,
        bare .cursor [] [] ⟨1, by decide⟩, bare .object [1, 2] [2] ⟨11, by decide⟩] =
        [bare .object [1] [1] ⟨10, by decide⟩, bare .object [1, 2] [2] ⟨11, by decide⟩] := rfl
    rw [filtered] at apart
    rw [together, apart, Option.map_some, Option.map_some, same] at differs
    exact differs rfl

end MsaRemoteClient

end OfxPrimes.Tuio
