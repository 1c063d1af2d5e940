import OfxPrimes.Tuio.Client

/-!
# TUIO bundles

A TUIO source sends, for one profile and one frame, an `alive` message, any
`set` messages and an `fseq` message in one OSC bundle.  The receiver queues
the messages of a bundle one after the other, so the client handles them in a
row.  The guard in front of `set` and `alive` reads the frame fields, which
only `fseq` writes: it admits or drops all of them alike.
-/

namespace OfxPrimes.Tuio

open OfxPrimes.Osc
open OfxPrimes.Transition

variable {β : Type}

/-- The two profiles the client follows. -/
inductive Profile where
  | object
  | cursor
  deriving DecidableEq

namespace Profile

/-- The OSC address of the messages of a profile. -/
def address : Profile → String
  | object => "/tuio/2Dobj"
  | cursor => "/tuio/2Dcur"

end Profile

/-- The frame number of a bundle; TUIO numbers its frames from one. -/
abbrev FrameNumber :=
  { frame : Int32 // 0 < frame.toInt }

/-- A frame number as `fseq` stores it. -/
def FrameNumber.toInt (frame : FrameNumber) : Int :=
  frame.val.toInt

/-- One bundle of a TUIO source.  A `set` message is its session id and the
arguments that follow. -/
structure TuioBundle (β : Type) where
  profile : Profile
  alive : List Int32
  sets : List (Int32 × List (OfxOscArg β))
  frame : FrameNumber

namespace TuioBundle

/-- The first message of a bundle, with every session that is still there. -/
def aliveMessage (bundle : TuioBundle β) : OfxOscMessage β :=
  tuioMessage bundle.profile.address "alive" (bundle.alive.map .int32)

/-- One `set` message of a bundle. -/
def setMessage (bundle : TuioBundle β) (set : Int32 × List (OfxOscArg β)) : OfxOscMessage β :=
  tuioMessage bundle.profile.address "set" (.int32 set.1 :: set.2)

/-- The `set` messages of a bundle, in its order. -/
def setMessages (bundle : TuioBundle β) : List (OfxOscMessage β) :=
  bundle.sets.map bundle.setMessage

/-- The last message of a bundle, with its frame number. -/
def fseqMessage (bundle : TuioBundle β) : OfxOscMessage β :=
  tuioMessage bundle.profile.address "fseq" [.int32 bundle.frame.val]

/-- The messages of a bundle in the order in which they are queued. -/
def messages (bundle : TuioBundle β) : List (OfxOscMessage β) :=
  bundle.aliveMessage :: (bundle.setMessages ++ [bundle.fseqMessage])

/-- A bundle whose `set` messages carry nothing but their session id. -/
def bare (profile : Profile) (alive sets : List Int32) (frame : FrameNumber) :
    TuioBundle Blob where
  profile := profile
  alive := alive
  sets := sets.map fun sid => (sid, [])
  frame := frame

end TuioBundle

/-! ## Reading the messages of a bundle -/

theorem isMessage_tuioMessage (ops : FloatOps) (address command : String)
    (args : List (OfxOscArg β)) :
    IsMessage ops address command (tuioMessage address command args) :=
  ⟨rfl, rfl⟩

/-- An `alive` message of integers lists them as session ids. -/
theorem aliveIds_tuioMessage (ops : FloatOps) (address command : String) (sids : List Int32) :
    aliveIds ops (tuioMessage address command (sids.map (OfxOscArg.int32 (β := β)))) =
      sids.map Int32.toInt := by
  apply List.ext_getElem
  · simp [aliveIds, tuioMessage, OfxOscMessage.getNumArgs]
  · intro i bound _
    have inRange : i < sids.length := by
      simpa [aliveIds, tuioMessage, OfxOscMessage.getNumArgs] using bound
    simp [aliveIds, tuioMessage, OfxOscMessage.getArgAsInt32, Nat.add_comm 1 i, inRange]

namespace MsaRemoteClient

variable {env : Externals} {client : MsaRemoteClient} {m : OfxOscMessage β}

theorem handleMessage_objectSet (isSet : IsMessage env.toFloatOps "/tuio/2Dobj" "set" m) :
    client.handleMessage env m = client.guarded (some (client.objectSet env m)) := by
  simp only [handleMessage, isSet.1, isSet.2, if_true]

theorem handleMessage_objectAlive (isAlive : IsMessage env.toFloatOps "/tuio/2Dobj" "alive" m) :
    client.handleMessage env m = client.guarded (some (client.objectAlive env m)) := by
  have notSet : ascii "alive" ≠ ascii "set" := by decide
  simp only [handleMessage, isAlive.1, isAlive.2, notSet, if_true, if_false]

theorem handleMessage_cursorSet (isSet : IsMessage env.toFloatOps "/tuio/2Dcur" "set" m) :
    client.handleMessage env m = client.guarded (client.cursorSet env m) := by
  have notObject : ascii "/tuio/2Dcur" ≠ ascii "/tuio/2Dobj" := by decide
  simp only [handleMessage, isSet.1, isSet.2, notObject, if_true, if_false]

theorem handleMessage_cursorAlive (isAlive : IsMessage env.toFloatOps "/tuio/2Dcur" "alive" m) :
    client.handleMessage env m = client.guarded (some (client.cursorAlive env m)) := by
  have notObject : ascii "/tuio/2Dcur" ≠ ascii "/tuio/2Dobj" := by decide
  have notSet : ascii "alive" ≠ ascii "set" := by decide
  simp only [handleMessage, isAlive.1, isAlive.2, notObject, notSet, if_true, if_false]

theorem handleMessage_fseq {profile : Profile}
    (isFseq : IsMessage env.toFloatOps profile.address "fseq" m) :
    client.handleMessage env m = some (client.frameSequence env m, .next) := by
  have notObject : ascii "/tuio/2Dcur" ≠ ascii "/tuio/2Dobj" := by decide
  have notSet : ascii "fseq" ≠ ascii "set" := by decide
  have notAlive : ascii "fseq" ≠ ascii "alive" := by decide
  cases profile <;>
    simp only [handleMessage, isFseq.1, isFseq.2, Profile.address, notObject, notSet, notAlive,
      if_true, if_false]

/-! ## What the messages leave unchanged -/

/-- The guard reads the same in both clients. -/
structure SameFrames (client after : MsaRemoteClient) : Prop where
  currentFrame : after.currentFrame = client.currentFrame
  lastFrame : after.lastFrame = client.lastFrame

/-- The object profile is in the same state in both clients. -/
structure SameObjects (client after : MsaRemoteClient) : Prop where
  objectList : after.objectList = client.objectList
  aliveObjectList : after.aliveObjectList = client.aliveObjectList
  newObjectList : after.newObjectList = client.newObjectList

theorem SameFrames.refl (client : MsaRemoteClient) : SameFrames client client :=
  ⟨rfl, rfl⟩

theorem SameFrames.trans {first second third : MsaRemoteClient}
    (left : SameFrames first second) (right : SameFrames second third) :
    SameFrames first third :=
  ⟨right.1.trans left.1, right.2.trans left.2⟩

theorem SameFrames.stale_iff {client after : MsaRemoteClient}
    (same : SameFrames client after) : after.Stale ↔ client.Stale := by
  rw [Stale, Stale, same.currentFrame, same.lastFrame]

theorem SameObjects.refl (client : MsaRemoteClient) : SameObjects client client :=
  ⟨rfl, rfl, rfl⟩

theorem SameObjects.trans {first second third : MsaRemoteClient}
    (left : SameObjects first second) (right : SameObjects second third) :
    SameObjects first third :=
  ⟨right.1.trans left.1, right.2.trans left.2, right.3.trans left.3⟩

theorem objectSet_sameFrames (env : Externals) (client : MsaRemoteClient)
    (m : OfxOscMessage β) : SameFrames client (client.objectSet env m) := by
  simp only [objectSet]
  split
  · exact ⟨rfl, rfl⟩
  · split
    · exact SameFrames.refl client
    · split_ifs <;> exact ⟨rfl, rfl⟩

theorem removeObject_sameFrames (client : MsaRemoteClient) (sid : Int) :
    SameFrames client (client.removeObject sid) := by
  unfold removeObject
  split <;> exact ⟨rfl, rfl⟩

theorem objectAlive_sameFrames (env : Externals) (client : MsaRemoteClient)
    (m : OfxOscMessage β) : SameFrames client (client.objectAlive env m) := by
  have folded : ∀ (departed : List Int) (client : MsaRemoteClient),
      SameFrames client (departed.foldl removeObject client) := by
    intro departed
    induction departed with
    | nil => exact SameFrames.refl
    | cons sid rest ih =>
        intro client
        exact (removeObject_sameFrames client sid).trans (ih _)
  rcases folded (departedIds client.aliveObjectList (aliveIds env.toFloatOps m)) client with
    ⟨current, last⟩
  exact ⟨current, last⟩

theorem allocateFinger_same {env : Externals} {client after : MsaRemoteClient}
    {xpos ypos : UInt32} {fid : Int}
    (allocated : client.allocateFinger env xpos ypos = some (fid, after)) :
    SameFrames client after ∧ SameObjects client after := by
  simp only [allocateFinger] at allocated
  split_ifs at allocated
  · rcases Option.map_eq_some_iff.mp allocated with ⟨_, _, pair_eq⟩
    cases pair_eq
    exact ⟨⟨rfl, rfl⟩, ⟨rfl, rfl, rfl⟩⟩
  · cases allocated
    exact ⟨⟨rfl, rfl⟩, ⟨rfl, rfl, rfl⟩⟩

theorem cursorSet_same {env : Externals} {client after : MsaRemoteClient}
    {m : OfxOscMessage β} (done : client.cursorSet env m = some after) :
    SameFrames client after ∧ SameObjects client after := by
  simp only [cursorSet] at done
  split at done
  · rcases Option.map_eq_some_iff.mp done with ⟨⟨fid, middle⟩, allocated, after_eq⟩
    cases after_eq
    rcases allocateFinger_same allocated with ⟨⟨current, last⟩, ⟨objects, aliveList, newList⟩⟩
    exact ⟨⟨current, last⟩, ⟨objects, aliveList, newList⟩⟩
  · split at done
    · cases done
      exact ⟨SameFrames.refl client, SameObjects.refl client⟩
    · split_ifs at done <;> cases done <;> exact ⟨⟨rfl, rfl⟩, ⟨rfl, rfl, rfl⟩⟩

theorem removeCursor_same (client : MsaRemoteClient) (sid : Int) :
    SameFrames client (client.removeCursor sid) ∧
      SameObjects client (client.removeCursor sid) := by
  simp only [removeCursor]
  split
  · exact ⟨SameFrames.refl client, SameObjects.refl client⟩
  · simp only [lowerMaxFingerID]
    split_ifs <;> exact ⟨⟨rfl, rfl⟩, ⟨rfl, rfl, rfl⟩⟩

theorem cursorAlive_same (env : Externals) (client : MsaRemoteClient) (m : OfxOscMessage β) :
    SameFrames client (client.cursorAlive env m) ∧
      SameObjects client (client.cursorAlive env m) := by
  have folded : ∀ (departed : List Int) (client : MsaRemoteClient),
      SameFrames client (departed.foldl removeCursor client) ∧
        SameObjects client (departed.foldl removeCursor client) := by
    intro departed
    induction departed with
    | nil => exact fun client => ⟨SameFrames.refl client, SameObjects.refl client⟩
    | cons sid rest ih =>
        intro client
        rcases removeCursor_same client sid with ⟨frames, objects⟩
        rcases ih (client.removeCursor sid) with ⟨laterFrames, laterObjects⟩
        exact ⟨frames.trans laterFrames, objects.trans laterObjects⟩
  rcases folded (departedIds client.aliveCursorList (aliveIds env.toFloatOps m)) client with
    ⟨⟨current, last⟩, ⟨objects, aliveList, newList⟩⟩
  exact ⟨⟨current, last⟩, ⟨objects, aliveList, newList⟩⟩

/-! ## One bundle -/

/-- The messages of one bundle in a row. -/
def handleBundle (env : Externals) : Step MsaRemoteClient (TuioBundle β) :=
  fun client bundle => run (step env) client bundle.messages

/-- Some message of the bundle makes `getMessage` return without using it. -/
def Drops (env : Externals) (client : MsaRemoteClient) (bundle : TuioBundle β) : Prop :=
  ∃ front m back middle after, bundle.messages = front ++ m :: back ∧
    run (step env) client front = some middle ∧
    middle.handleMessage env m = some (after, .leave)

/-- The effect of the `alive` and `set` messages of an object bundle. -/
def objectBundle (env : Externals) (client : MsaRemoteClient) (bundle : TuioBundle β) :
    MsaRemoteClient :=
  bundle.setMessages.foldl (fun client m => client.objectSet env m)
    (client.objectAlive env bundle.aliveMessage)

theorem step_of_stale {profile : Profile} {command : String} (stale : client.Stale)
    (isMessage : IsMessage env.toFloatOps profile.address command m)
    (isBody : command = "set" ∨ command = "alive") :
    client.handleMessage env m = some (client, .leave) := by
  have dropped : ∀ body, client.guarded body = some (client, .leave) := fun body => by
    rw [guarded, if_pos stale]
  cases profile <;> rcases isBody with rfl | rfl
  · rw [handleMessage_objectSet isMessage, dropped]
  · rw [handleMessage_objectAlive isMessage, dropped]
  · rw [handleMessage_cursorSet isMessage, dropped]
  · rw [handleMessage_cursorAlive isMessage, dropped]

theorem frameSequence_fseqMessage (env : Externals) (client : MsaRemoteClient)
    (bundle : TuioBundle β) :
    client.frameSequence env bundle.fseqMessage =
      { client with
        lastFrame := if client.currentFrame > 0 then client.currentFrame else client.lastFrame
        currentFrame := bundle.frame.toInt } :=
  rfl

@[simp]
theorem step_fseqMessage (env : Externals) (client : MsaRemoteClient) (bundle : TuioBundle β) :
    step env client bundle.fseqMessage = some (client.frameSequence env bundle.fseqMessage) := by
  have isFseq : IsMessage env.toFloatOps bundle.profile.address "fseq" bundle.fseqMessage :=
    isMessage_tuioMessage _ _ _ _
  rw [step, handleMessage_fseq isFseq, Option.map_some]

/-- Before its `fseq` a bundle holds only `set` and `alive` messages. -/
theorem isMessage_of_mem_body (ops : FloatOps) {bundle : TuioBundle β} {m : OfxOscMessage β}
    (mem : m ∈ bundle.aliveMessage :: bundle.setMessages) :
    ∃ command, IsMessage ops bundle.profile.address command m ∧
      (command = "set" ∨ command = "alive") := by
  rcases List.mem_cons.mp mem with rfl | mem
  · exact ⟨"alive", isMessage_tuioMessage _ _ _ _, .inr rfl⟩
  · rcases List.mem_map.mp mem with ⟨set, _, rfl⟩
    exact ⟨"set", isMessage_tuioMessage _ _ _ _, .inl rfl⟩

/-- A bundle that meets the guard changes nothing but the frame fields. -/
theorem handleBundle_of_stale (env : Externals) {client : MsaRemoteClient}
    (bundle : TuioBundle β) (stale : client.Stale) :
    handleBundle env client bundle = some (client.frameSequence env bundle.fseqMessage) := by
  have skipped : ∀ m ∈ bundle.aliveMessage :: bundle.setMessages,
      step env client m = some client := by
    intro m mem
    rcases isMessage_of_mem_body env.toFloatOps mem with ⟨command, isMessage, isBody⟩
    rw [step, step_of_stale stale isMessage isBody, Option.map_some]
  have folded : ∀ body : List (OfxOscMessage β), (∀ m ∈ body, step env client m = some client) →
      run (step env) client body = some client := by
    intro body
    induction body with
    | nil => exact fun _ => rfl
    | cons m rest ih =>
        intro same
        rw [run_cons, same m List.mem_cons_self, Option.bind_some]
        exact ih fun later mem => same later (List.mem_cons_of_mem m mem)
  rw [handleBundle, TuioBundle.messages, ← List.cons_append,
    run_append_of_eq (folded _ skipped), run_singleton, step_fseqMessage]

/-- A bundle of the object profile that passes the guard is applied in full. -/
theorem handleBundle_object (env : Externals) {client : MsaRemoteClient}
    (bundle : TuioBundle β) (isObject : bundle.profile = .object) (fresh : ¬ client.Stale) :
    handleBundle env client bundle =
      some ((client.objectBundle env bundle).frameSequence env bundle.fseqMessage) := by
  have isAlive : IsMessage env.toFloatOps "/tuio/2Dobj" "alive" bundle.aliveMessage := by
    rw [TuioBundle.aliveMessage, isObject]
    exact isMessage_tuioMessage _ _ _ _
  have aliveStep : step env client bundle.aliveMessage =
      some (client.objectAlive env bundle.aliveMessage) := by
    rw [step, handleMessage_objectAlive isAlive, guarded, if_neg fresh, Option.map_some,
      Option.map_some]
  have aliveFresh : ¬ (client.objectAlive env bundle.aliveMessage).Stale := by
    rwa [(objectAlive_sameFrames env client _).stale_iff]
  have setsRun : ∀ (sets : List (Int32 × List (OfxOscArg β))) (client : MsaRemoteClient),
      ¬ client.Stale → run (step env) client (sets.map bundle.setMessage) =
        some ((sets.map bundle.setMessage).foldl (fun client m => client.objectSet env m)
          client) := by
    intro sets
    induction sets with
    | nil => exact fun _ _ => rfl
    | cons set rest ih =>
        intro client fresh
        have isSet : IsMessage env.toFloatOps "/tuio/2Dobj" "set" (bundle.setMessage set) := by
          rw [TuioBundle.setMessage, isObject]
          exact isMessage_tuioMessage _ _ _ _
        rw [List.map_cons, run_cons, step, handleMessage_objectSet isSet, guarded,
          if_neg fresh, Option.map_some, Option.map_some, Option.bind_some, List.foldl_cons]
        exact ih _ (by rwa [(objectSet_sameFrames env client _).stale_iff])
  rw [handleBundle, TuioBundle.messages, TuioBundle.setMessages, run_cons, aliveStep,
    Option.bind_some, run_append_of_eq (setsRun bundle.sets _ aliveFresh), run_singleton,
    step_fseqMessage, objectBundle, TuioBundle.setMessages]

/-- A message of the body of a cursor bundle leaves the frames and the objects
alone. -/
theorem step_cursor_body {env : Externals} {client after : MsaRemoteClient}
    {m : OfxOscMessage β} {command : String}
    (isMessage : IsMessage env.toFloatOps "/tuio/2Dcur" command m)
    (isBody : command = "set" ∨ command = "alive")
    (stepped : step env client m = some after) :
    SameFrames client after ∧ SameObjects client after := by
  have body : ∀ body, (client.guarded body).map Prod.fst = some after →
      after = client ∨ body = some after := by
    intro body done
    rcases Option.map_eq_some_iff.mp done with ⟨⟨result, flow⟩, guardedEq, rfl⟩
    exact (guarded_eq_some guardedEq).imp And.right And.right
  rcases isBody with rfl | rfl
  · rw [step, handleMessage_cursorSet isMessage] at stepped
    rcases body _ stepped with rfl | done
    · exact ⟨SameFrames.refl _, SameObjects.refl _⟩
    · exact cursorSet_same done
  · rw [step, handleMessage_cursorAlive isMessage] at stepped
    rcases body _ stepped with rfl | done
    · exact ⟨SameFrames.refl _, SameObjects.refl _⟩
    · cases done
      exact cursorAlive_same env client m

/-- A bundle of the cursor profile leaves the objects alone. -/
theorem handleBundle_cursor {env : Externals} {client after : MsaRemoteClient}
    {bundle : TuioBundle β} (isCursor : bundle.profile = .cursor)
    (handled : handleBundle env client bundle = some after) : SameObjects client after := by
  rw [handleBundle, TuioBundle.messages, ← List.cons_append, run_append] at handled
  rcases Option.bind_eq_some_iff.mp handled with ⟨middle, body, last⟩
  rw [run_singleton, step_fseqMessage, Option.some.injEq] at last
  subst last
  have kept : SameObjects client middle := by
    refine run_invariant_of_forall_mem (· ∈ bundle.aliveMessage :: bundle.setMessages)
      (SameObjects client) ?_ (SameObjects.refl client) (fun _ mem => mem) body
    intro state m next objects mem stepped
    rcases isMessage_of_mem_body env.toFloatOps mem with ⟨command, isMessage, isBody⟩
    rw [isCursor] at isMessage
    exact objects.trans (step_cursor_body isMessage isBody stepped).2
  exact ⟨kept.1, kept.2, kept.3⟩

/-! ## Frame numbers over a run of bundles -/

/-- Only `fseq` writes the frame fields. -/
theorem step_body_sameFrames {env : Externals} {client after : MsaRemoteClient}
    {m : OfxOscMessage β} {profile : Profile} {command : String}
    (isMessage : IsMessage env.toFloatOps profile.address command m)
    (isBody : command = "set" ∨ command = "alive")
    (stepped : step env client m = some after) : SameFrames client after := by
  cases profile with
  | cursor => exact (step_cursor_body isMessage isBody stepped).1
  | object =>
      rcases Option.map_eq_some_iff.mp stepped with ⟨⟨result, flow⟩, handled, rfl⟩
      rcases isBody with rfl | rfl
      · rw [handleMessage_objectSet isMessage] at handled
        rcases guarded_eq_some handled with ⟨_, rfl⟩ | ⟨_, done⟩
        · exact SameFrames.refl _
        · cases done
          exact objectSet_sameFrames env client m
      · rw [handleMessage_objectAlive isMessage] at handled
        rcases guarded_eq_some handled with ⟨_, rfl⟩ | ⟨_, done⟩
        · exact SameFrames.refl _
        · cases done
          exact objectAlive_sameFrames env client m

theorem run_body_sameFrames {env : Externals} {client after : MsaRemoteClient}
    (bundle : TuioBundle β) {body : List (OfxOscMessage β)}
    (inBody : ∀ m ∈ body, m ∈ bundle.aliveMessage :: bundle.setMessages)
    (reached : run (step env) client body = some after) : SameFrames client after := by
  refine run_invariant_of_forall_mem (· ∈ bundle.aliveMessage :: bundle.setMessages)
    (SameFrames client) ?_ (SameFrames.refl client) inBody reached
  intro state m next frames mem stepped
  rcases isMessage_of_mem_body env.toFloatOps mem with ⟨command, isMessage, isBody⟩
  exact frames.trans (step_body_sameFrames isMessage isBody stepped)

/-- Whatever the guard decides, a bundle leaves its own frame number and the
positive frame number before it. -/
theorem handleBundle_sameFrames {env : Externals} {client after : MsaRemoteClient}
    {bundle : TuioBundle β} (handled : handleBundle env client bundle = some after) :
    SameFrames (client.frameSequence env bundle.fseqMessage) after := by
  rw [handleBundle, TuioBundle.messages, ← List.cons_append, run_append] at handled
  rcases Option.bind_eq_some_iff.mp handled with ⟨middle, body, last⟩
  rw [run_singleton, step_fseqMessage, Option.some.injEq] at last
  subst last
  rcases run_body_sameFrames bundle (fun _ mem => mem) body with ⟨current, last⟩
  constructor
  · rfl
  · simp only [frameSequence_fseqMessage, current, last]

theorem currentFrame_of_run_append {env : Externals} {start client : MsaRemoteClient}
    {before : List (TuioBundle β)} {bundle : TuioBundle β}
    (reached : run (handleBundle env) start (before ++ [bundle]) = some client) :
    client.currentFrame = bundle.frame.toInt := by
  rw [run_append] at reached
  rcases Option.bind_eq_some_iff.mp reached with ⟨middle, _, last⟩
  rw [run_singleton] at last
  exact (handleBundle_sameFrames last).currentFrame

/-- After a run of bundles the guard is up exactly when the last bundle has a
smaller frame number than the one before it. -/
theorem stale_iff_of_run {env : Externals} {client : MsaRemoteClient}
    {bundles : List (TuioBundle β)}
    (reached : run (handleBundle env) {} bundles = some client) :
    client.Stale ↔ ∃ before first second, bundles = before ++ [first, second] ∧
      second.frame.toInt < first.frame.toInt := by
  rcases List.eq_nil_or_concat bundles with rfl | ⟨front, second, rfl⟩
  · cases reached
    simp [Stale]
  · rw [List.concat_eq_append] at reached ⊢
    have current := currentFrame_of_run_append reached
    have positive : 0 < second.frame.toInt := second.frame.property
    rw [run_append] at reached
    rcases Option.bind_eq_some_iff.mp reached with ⟨middle, reachedMiddle, last⟩
    rw [run_singleton] at last
    have lastFrame := (handleBundle_sameFrames last).lastFrame
    simp only [frameSequence_fseqMessage] at lastFrame
    rcases List.eq_nil_or_concat front with rfl | ⟨before, first, rfl⟩
    · cases reachedMiddle
      have lastFrame : client.lastFrame = -1 := by simpa using lastFrame
      constructor
      · rintro ⟨below, _⟩
        omega
      · rintro ⟨before, first, second', same, _⟩
        have lengths := congrArg List.length same
        simp at lengths
    · rw [List.concat_eq_append] at reachedMiddle ⊢
      have middleFrame := currentFrame_of_run_append reachedMiddle
      have firstPositive : 0 < first.frame.toInt := first.frame.property
      rw [if_pos (by omega), middleFrame] at lastFrame
      rw [Stale, current, lastFrame]
      constructor
      · rintro ⟨below, _⟩
        exact ⟨before, first, second, by simp, below⟩
      · rintro ⟨before', first', second', same, below⟩
        rw [List.append_assoc, List.singleton_append] at same
        rcases List.append_inj' same rfl with ⟨_, pair⟩
        cases pair
        exact ⟨below, positive⟩

/-- The frame numbers of a list of bundles do not decrease. -/
def FramesSorted (bundles : List (TuioBundle β)) : Prop :=
  (bundles.map fun bundle => bundle.frame.toInt).Pairwise (· ≤ ·)

instance (bundles : List (TuioBundle β)) : Decidable (FramesSorted bundles) :=
  inferInstanceAs (Decidable (List.Pairwise _ _))

/-- Bundles whose frame numbers do not decrease never meet the guard. -/
theorem not_stale_of_framesSorted {env : Externals} {client : MsaRemoteClient}
    {bundles : List (TuioBundle β)} (sorted : FramesSorted bundles)
    (reached : run (handleBundle env) {} bundles = some client) : ¬ client.Stale := by
  rw [stale_iff_of_run reached]
  rintro ⟨before, first, second, rfl, below⟩
  rw [FramesSorted, List.map_append, List.pairwise_append] at sorted
  have ordered := sorted.2.1
  simp only [List.map_cons, List.map_nil, List.pairwise_cons, List.mem_singleton] at ordered
  have := ordered.1 _ rfl
  omega

theorem FramesSorted.of_append {first second : List (TuioBundle β)}
    (sorted : FramesSorted (first ++ second)) : FramesSorted first := by
  rw [FramesSorted, List.map_append, List.pairwise_append] at sorted
  exact sorted.1

end MsaRemoteClient

end OfxPrimes.Tuio
