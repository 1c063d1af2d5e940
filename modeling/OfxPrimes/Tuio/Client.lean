import OfxPrimes.Osc.Message
import OfxPrimes.Transition.Run
import Mathlib.Tactic.SplitIfs

/-!
# The TUIO client

`msaRemoteClient` follows the objects and cursors of a TUIO source.  The class
keeps pointers to heap objects; nothing but the client reaches an object
through two of its lists, so the lists here hold the objects themselves, and
every notification carries the object as it was when it was sent.

`handleMessage` is the body of the loop in `getMessage`, and `getMessage`
repeats it until the queue is empty or a stale message makes it return.
-/

namespace OfxPrimes.Tuio

open OfxPrimes.Osc
open OfxPrimes.Transition

/-- `ofxTuioObject`, which stores what it is given. -/
structure OfxTuioObject where
  sessionId : Int
  fiducialId : Int32
  x : UInt32
  y : UInt32
  angle : UInt32
  xSpeed : UInt32
  ySpeed : UInt32
  rotationSpeed : UInt32
  motionAccel : UInt32
  rotationAccel : UInt32
  deriving DecidableEq

/-- `ofxTuioCursor`, which stores what it is given. -/
structure OfxTuioCursor where
  sessionId : Int
  fingerId : Int
  x : UInt32
  y : UInt32
  xSpeed : UInt32
  ySpeed : UInt32
  motionAccel : UInt32
  deriving DecidableEq

/-- What the client uses and the repository does not contain: the float
operations, the distance of a cursor to a point, and the speed a new object or
cursor starts with. -/
structure Externals extends FloatOps where
  getDistance : OfxTuioCursor → UInt32 → UInt32 → UInt32
  restSpeed : UInt32

/-- Externals for runs on given messages.  Bit patterns of non-negative floats
are ordered like the floats, and the distance only tells whether the cursor is
at the point. -/
def Externals.sample : Externals where
  toInt32 _ := 0
  ofInt32 _ := 0
  format _ := []
  ne f g := f != g
  lt f g := f < g
  fabs f := f &&& 0x7fffffff
  ofLerp _ stop _ := stop
  getDistance cursor x y := if cursor.x = x ∧ cursor.y = y then 0 else 0x3f800000
  restSpeed := 0

/-- The events of the client, in the order of their `ofNotifyEvent`. -/
inductive Notification where
  | objectAdded (object : OfxTuioObject)
  | objectUpdated (object : OfxTuioObject)
  | objectRemoved (object : OfxTuioObject)
  | cursorAdded (cursor : OfxTuioCursor)
  | cursorUpdated (cursor : OfxTuioCursor)
  | cursorRemoved (cursor : OfxTuioCursor)
  deriving DecidableEq

/-- `PORTRAIT` and `LANDSCAPE`. -/
inductive Orientation where
  | portrait
  | landscape
  deriving DecidableEq

/-- `ON_THE_BOTTOM`, `ON_THE_TOP`, `ON_THE_LEFT` and `ON_THE_RIGHT`. -/
inductive HomeButton where
  | onTheBottom
  | onTheTop
  | onTheLeft
  | onTheRight
  deriving DecidableEq

/-- The state of `msaRemoteClient`, with the log of its notifications.  The
defaults are those of the constructor; the two orientation fields are
indeterminate until the first accelerometer message. -/
structure MsaRemoteClient where
  cursorList : List OfxTuioCursor := []
  freeCursorList : List OfxTuioCursor := []
  freeCursorBuffer : List OfxTuioCursor := []
  objectList : List OfxTuioObject := []
  aliveObjectList : List Int := []
  newObjectList : List Int := []
  aliveCursorList : List Int := []
  newCursorList : List Int := []
  currentFrame : Int := -1
  lastFrame : Int := -1
  maxFingerID : Int := -1
  accelData : UInt32 × UInt32 × UInt32 := (0, 0, 0)
  lerpSpeed : UInt32 := 0x3dc28f5c
  remoteOrientation : Option Orientation := none
  remoteHomeButton : Option HomeButton := none
  notifications : List Notification := []
  deriving DecidableEq

variable {β : Type}

/-- The session ids of an `alive` message: `getArgAsInt32(1)` and following. -/
def aliveIds (ops : FloatOps) (m : OfxOscMessage β) : List Int :=
  (List.range' 1 (m.getNumArgs - 1)).map fun i => (m.getArgAsInt32 ops i).toInt

/-- The ids left in the previous alive list once every id of the new one has
erased its first occurrence. -/
def departedIds (aliveList ids : List Int) : List Int :=
  ids.foldl List.erase aliveList

/-- The fields of a `/tuio/2Dobj set` message. -/
def readObject (ops : FloatOps) (m : OfxOscMessage β) : OfxTuioObject where
  sessionId := (m.getArgAsInt32 ops 1).toInt
  fiducialId := m.getArgAsInt32 ops 2
  x := m.getArgAsFloat ops 3
  y := m.getArgAsFloat ops 4
  angle := m.getArgAsFloat ops 5
  xSpeed := m.getArgAsFloat ops 6
  ySpeed := m.getArgAsFloat ops 7
  rotationSpeed := m.getArgAsFloat ops 8
  motionAccel := m.getArgAsFloat ops 9
  rotationAccel := m.getArgAsFloat ops 10

/-- The fields of a `/tuio/2Dcur set` message; the finger id is not sent. -/
def readCursor (ops : FloatOps) (fingerId : Int) (m : OfxOscMessage β) : OfxTuioCursor where
  sessionId := (m.getArgAsInt32 ops 1).toInt
  fingerId := fingerId
  x := m.getArgAsFloat ops 2
  y := m.getArgAsFloat ops 3
  xSpeed := m.getArgAsFloat ops 4
  ySpeed := m.getArgAsFloat ops 5
  motionAccel := m.getArgAsFloat ops 6

/-- A message with the given address, command and further arguments. -/
def tuioMessage (address command : String) (args : List (OfxOscArg β)) : OfxOscMessage β where
  address := ascii address
  args := .string (ascii command) :: args

/-- The message has the given address and its first argument is the given
command. -/
def IsMessage (ops : FloatOps) (address command : String) (m : OfxOscMessage β) : Prop :=
  m.getAddress = ascii address ∧ m.getArgAsString ops 0 = ascii command

instance (ops : FloatOps) (address command : String) (m : OfxOscMessage β) :
    Decidable (IsMessage ops address command m) :=
  inferInstanceAs (Decidable (_ ∧ _))

namespace OfxTuioObject

/-- The comparison that decides whether a `set` message updates the object. -/
def differs (ops : FloatOps) (object read : OfxTuioObject) : Bool :=
  ops.ne object.x read.x || ops.ne object.y read.y || ops.ne object.angle read.angle ||
    ops.ne object.xSpeed read.xSpeed || ops.ne object.ySpeed read.ySpeed ||
    ops.ne object.rotationSpeed read.rotationSpeed ||
    ops.ne object.motionAccel read.motionAccel ||
    ops.ne object.rotationAccel read.rotationAccel

/-- `ofxTuioObject::update`. -/
def update (object read : OfxTuioObject) : OfxTuioObject :=
  { read with sessionId := object.sessionId, fiducialId := object.fiducialId }

/-- The constructor, which is given neither speeds nor accelerations. -/
def construct (env : Externals) (read : OfxTuioObject) : OfxTuioObject :=
  { read with
    xSpeed := env.restSpeed, ySpeed := env.restSpeed, rotationSpeed := env.restSpeed
    motionAccel := env.restSpeed, rotationAccel := env.restSpeed }

end OfxTuioObject

namespace OfxTuioCursor

/-- The comparison that decides whether a `set` message updates the cursor. -/
def differs (ops : FloatOps) (cursor read : OfxTuioCursor) : Bool :=
  ops.ne cursor.x read.x || ops.ne cursor.y read.y || ops.ne cursor.xSpeed read.xSpeed ||
    ops.ne cursor.ySpeed read.ySpeed || ops.ne cursor.motionAccel read.motionAccel

/-- `ofxTuioCursor::update`. -/
def update (cursor read : OfxTuioCursor) : OfxTuioCursor :=
  { read with sessionId := cursor.sessionId, fingerId := cursor.fingerId }

/-- The constructor, which is given neither speeds nor accelerations. -/
def construct (env : Externals) (read : OfxTuioCursor) : OfxTuioCursor :=
  { read with
    xSpeed := env.restSpeed, ySpeed := env.restSpeed, motionAccel := env.restSpeed }

end OfxTuioCursor

/-- The index reached by the search for the closest free cursor: the first
cursor, replaced whenever a later one is strictly closer. -/
def closestCursor (env : Externals) (xpos ypos : UInt32) (free : List OfxTuioCursor) : Nat :=
  (List.range free.length).foldl
    (fun closest test =>
      match free[test]?, free[closest]? with
      | some testCursor, some closestCursor =>
          if env.lt (env.getDistance testCursor xpos ypos)
              (env.getDistance closestCursor xpos ypos) then test else closest
      | _, _ => closest) 0

namespace MsaRemoteClient

/-- The guard in front of every `set` and `alive` message. -/
def Stale (client : MsaRemoteClient) : Prop :=
  client.currentFrame < client.lastFrame ∧ 0 < client.currentFrame

instance (client : MsaRemoteClient) : Decidable client.Stale :=
  inferInstanceAs (Decidable (_ ∧ _))

/-- `ofNotifyEvent`, as an entry of the log. -/
def notify (client : MsaRemoteClient) (event : Notification) : MsaRemoteClient :=
  { client with notifications := client.notifications ++ [event] }

/-! ## Objects -/

/-- `/tuio/2Dobj set`, after the guard. -/
def objectSet (env : Externals) (client : MsaRemoteClient) (m : OfxOscMessage β) :
    MsaRemoteClient :=
  let read := readObject env.toFloatOps m
  match client.objectList.findIdx? (·.sessionId == read.sessionId) with
  | none =>
      let addObject := OfxTuioObject.construct env read
      { client with objectList := client.objectList ++ [addObject] }.notify
        (.objectAdded addObject)
  | some i =>
      match client.objectList[i]? with
      | none => client
      | some tobj =>
          if tobj.differs env.toFloatOps read then
            { client with objectList := client.objectList.set i (tobj.update read) }.notify
              (.objectUpdated (tobj.update read))
          else client

/-- The removal of the first object with one departed session id. -/
def removeObject (client : MsaRemoteClient) (sid : Int) : MsaRemoteClient :=
  match client.objectList.find? (·.sessionId == sid) with
  | none => client
  | some deleteObject =>
      { client.notify (.objectRemoved deleteObject) with
        objectList := client.objectList.eraseP (·.sessionId == sid) }

/-- `/tuio/2Dobj alive`, after the guard. -/
def objectAlive (env : Externals) (client : MsaRemoteClient) (m : OfxOscMessage β) :
    MsaRemoteClient :=
  let ids := aliveIds env.toFloatOps m
  let departed := departedIds client.aliveObjectList ids
  let newObjectList := client.newObjectList ++ ids
  { departed.foldl removeObject client with
    aliveObjectList := newObjectList, newObjectList := [] }

/-! ## Cursors -/

/-- The finger id of a new cursor.  While there are at most `maxFingerID`
cursors the id of the closest free cursor is taken over; `none` is the
dereference of the end iterator of an empty list of free cursors.  The code
erases the iterator before its last read, the one of the cursor to delete; the
list node it reads there still held that cursor when it was erased. -/
def allocateFinger (env : Externals) (client : MsaRemoteClient) (xpos ypos : UInt32) :
    Option (Int × MsaRemoteClient) :=
  let fid : Int := client.cursorList.length
  if fid ≤ client.maxFingerID then
    let closest := closestCursor env xpos ypos client.freeCursorList
    (client.freeCursorList[closest]?).map fun cursor =>
      (cursor.fingerId,
        { client with freeCursorList := client.freeCursorList.eraseIdx closest })
  else
    some (fid, { client with maxFingerID := fid })

/-- `/tuio/2Dcur set`, after the guard. -/
def cursorSet (env : Externals) (client : MsaRemoteClient) (m : OfxOscMessage β) :
    Option MsaRemoteClient :=
  let read := readCursor env.toFloatOps 0 m
  match client.cursorList.findIdx? (·.sessionId == read.sessionId) with
  | none =>
      (client.allocateFinger env read.x read.y).map fun (fid, client) =>
        let addCursor := OfxTuioCursor.construct env { read with fingerId := fid }
        { client with cursorList := client.cursorList ++ [addCursor] }.notify
          (.cursorAdded addCursor)
  | some i =>
      match client.cursorList[i]? with
      | none => some client
      | some tcur =>
          if tcur.differs env.toFloatOps read then
            some ({ client with cursorList := client.cursorList.set i (tcur.update read) }.notify
              (.cursorUpdated (tcur.update read)))
          else some client

/-- The largest finger id of the listed cursors, at least `-1`. -/
def largestFingerId (cursors : List OfxTuioCursor) : Int :=
  cursors.foldl (fun largest cursor =>
    if cursor.fingerId > largest then cursor.fingerId else largest) (-1)

/-- `maxFingerID` is recomputed after its cursor left, and free cursors above
the new maximum are deleted; with no cursor left the free cursors stay. -/
def lowerMaxFingerID (client : MsaRemoteClient) : MsaRemoteClient :=
  if client.cursorList.length > 0 then
    let largest := largestFingerId client.cursorList
    { client with
      maxFingerID := largest
      freeCursorList := client.freeCursorBuffer ++
        client.freeCursorList.filter fun freeCursor => ¬ freeCursor.fingerId > largest
      freeCursorBuffer := [] }
  else
    { client with maxFingerID := -1 }

/-- The removal of the first cursor with one departed session id. -/
def removeCursor (client : MsaRemoteClient) (sid : Int) : MsaRemoteClient :=
  match client.cursorList.find? (·.sessionId == sid) with
  | none => client
  | some deleteCursor =>
      let client :=
        { client.notify (.cursorRemoved deleteCursor) with
          cursorList := client.cursorList.eraseP (·.sessionId == sid) }
      if deleteCursor.fingerId = client.maxFingerID then
        client.lowerMaxFingerID
      else if deleteCursor.fingerId < client.maxFingerID then
        { client with freeCursorList := client.freeCursorList ++ [deleteCursor] }
      else client

/-- `/tuio/2Dcur alive`, after the guard. -/
def cursorAlive (env : Externals) (client : MsaRemoteClient) (m : OfxOscMessage β) :
    MsaRemoteClient :=
  let ids := aliveIds env.toFloatOps m
  let departed := departedIds client.aliveCursorList ids
  let newCursorList := client.newCursorList ++ ids
  { departed.foldl removeCursor client with
    aliveCursorList := newCursorList, newCursorList := [] }

/-! ## Frames, accelerometer and the message loop -/

/-- `fseq` of either profile. -/
def frameSequence (env : Externals) (client : MsaRemoteClient) (m : OfxOscMessage β) :
    MsaRemoteClient :=
  { client with
    lastFrame := if client.currentFrame > 0 then client.currentFrame else client.lastFrame
    currentFrame := (m.getArgAsInt32 env.toFloatOps 1).toInt }

/-- `/msaremote/accelerometer`. -/
def accelerometer (env : Externals) (client : MsaRemoteClient) (m : OfxOscMessage β) :
    MsaRemoteClient :=
  if m.getNumArgs = 3 then
    let follow := fun old i =>
      env.ofLerp old (m.getArgAsFloat env.toFloatOps i) client.lerpSpeed
    let x := follow client.accelData.1 0
    let y := follow client.accelData.2.1 1
    let z := follow client.accelData.2.2 2
    if env.lt (env.fabs x) (env.fabs y) then
      { client with
        accelData := (x, y, z)
        remoteOrientation := some .portrait
        remoteHomeButton := some (if env.lt y 0 then .onTheBottom else .onTheTop) }
    else
      { client with
        accelData := (x, y, z)
        remoteOrientation := some .landscape
        remoteHomeButton := some (if env.lt x 0 then .onTheRight else .onTheLeft) }
  else client

/-- Whether the loop of `getMessage` goes on or the function returns. -/
inductive Flow where
  | next
  | leave
  deriving DecidableEq

/-- Run the body of a `set` or `alive` branch unless the guard returns. -/
def guarded (client : MsaRemoteClient) (body : Option MsaRemoteClient) :
    Option (MsaRemoteClient × Flow) :=
  if client.Stale then some (client, .leave) else body.map fun after => (after, .next)

/-- The body of the message loop of `getMessage`. -/
def handleMessage (env : Externals) (client : MsaRemoteClient) (m : OfxOscMessage β) :
    Option (MsaRemoteClient × Flow) :=
  let command := m.getArgAsString env.toFloatOps 0
  if m.getAddress = ascii "/tuio/2Dobj" then
    if command = ascii "set" then
      client.guarded (some (client.objectSet env m))
    else if command = ascii "alive" then
      client.guarded (some (client.objectAlive env m))
    else if command = ascii "fseq" then
      some (client.frameSequence env m, .next)
    else some (client, .next)
  else if m.getAddress = ascii "/tuio/2Dcur" then
    if command = ascii "set" then
      client.guarded (client.cursorSet env m)
    else if command = ascii "alive" then
      client.guarded (some (client.cursorAlive env m))
    else if command = ascii "fseq" then
      some (client.frameSequence env m, .next)
    else some (client, .next)
  else if m.getAddress = ascii "/msaremote/accelerometer" then
    some (client.accelerometer env m, .next)
  else some (client, .next)

/-- One message, whichever call of `getMessage` handles it. -/
def step (env : Externals) : Step MsaRemoteClient (OfxOscMessage β) :=
  fun client m => (client.handleMessage env m).map Prod.fst

/-- Everything one message can do to the client.  A message is skipped when the
guard returns or when no branch is written for it. -/
inductive Effect (env : Externals) (client : MsaRemoteClient) (m : OfxOscMessage β) :
    MsaRemoteClient → Prop
  | skipped : Effect env client m client
  | objectSet : ¬ client.Stale → IsMessage env.toFloatOps "/tuio/2Dobj" "set" m →
      Effect env client m (client.objectSet env m)
  | objectAlive : ¬ client.Stale → IsMessage env.toFloatOps "/tuio/2Dobj" "alive" m →
      Effect env client m (client.objectAlive env m)
  | cursorSet {after : MsaRemoteClient} : ¬ client.Stale →
      IsMessage env.toFloatOps "/tuio/2Dcur" "set" m →
      client.cursorSet env m = some after → Effect env client m after
  | cursorAlive : ¬ client.Stale → IsMessage env.toFloatOps "/tuio/2Dcur" "alive" m →
      Effect env client m (client.cursorAlive env m)
  | frameSequence : Effect env client m (client.frameSequence env m)
  | accelerometer : Effect env client m (client.accelerometer env m)

theorem guarded_eq_some {client after : MsaRemoteClient} {body : Option MsaRemoteClient}
    {flow : Flow} (done : client.guarded body = some (after, flow)) :
    (client.Stale ∧ after = client) ∨ (¬ client.Stale ∧ body = some after) := by
  unfold guarded at done
  split at done
  · rename_i stale
    cases done
    exact .inl ⟨stale, rfl⟩
  · rename_i fresh
    obtain ⟨result, body_eq, pair_eq⟩ := Option.map_eq_some_iff.mp done
    cases pair_eq
    exact .inr ⟨fresh, body_eq⟩

theorem step_effect {env : Externals} {client after : MsaRemoteClient}
    {m : OfxOscMessage β} (stepped : step env client m = some after) :
    Effect env client m after := by
  obtain ⟨⟨result, flow⟩, handled, rfl⟩ := Option.map_eq_some_iff.mp stepped
  simp only [handleMessage] at handled
  split_ifs at handled with object set alive fseq cursor set alive fseq
  · rcases guarded_eq_some handled with ⟨_, rfl⟩ | ⟨fresh, body⟩
    · exact .skipped
    · cases body
      exact .objectSet fresh ⟨object, set⟩
  · rcases guarded_eq_some handled with ⟨_, rfl⟩ | ⟨fresh, body⟩
    · exact .skipped
    · cases body
      exact .objectAlive fresh ⟨object, alive⟩
  · cases handled
    exact .frameSequence
  · cases handled
    exact .skipped
  · rcases guarded_eq_some handled with ⟨_, rfl⟩ | ⟨fresh, body⟩
    · exact .skipped
    · exact .cursorSet fresh ⟨cursor, set⟩ body
  · rcases guarded_eq_some handled with ⟨_, rfl⟩ | ⟨fresh, body⟩
    · exact .skipped
    · cases body
      exact .cursorAlive fresh ⟨cursor, alive⟩
  · cases handled
    exact .frameSequence
  · cases handled
    exact .skipped
  · cases handled
    exact .accelerometer
  · cases handled
    exact .skipped

/-- `getMessage` on a queue of waiting messages: the client after the call and
the messages it left waiting. -/
def getMessage (env : Externals) (client : MsaRemoteClient) :
    List (OfxOscMessage β) → Option (MsaRemoteClient × List (OfxOscMessage β))
  | [] => some (client, [])
  | m :: waiting =>
      match client.handleMessage env m with
      | none => none
      | some (after, .leave) => some (after, waiting)
      | some (after, .next) => getMessage env after waiting

/-- A call of `getMessage` handles a prefix of the queue, one step a message.
Repeated calls therefore handle every message exactly once, in arrival order. -/
theorem getMessage_eq_run (env : Externals) (client after : MsaRemoteClient)
    (queue waiting : List (OfxOscMessage β))
    (called : client.getMessage env queue = some (after, waiting)) :
    ∃ handled, queue = handled ++ waiting ∧ run (step env) client handled = some after := by
  induction queue generalizing client with
  | nil =>
      cases called
      exact ⟨[], rfl, rfl⟩
  | cons m rest ih =>
      rw [getMessage] at called
      cases handled : client.handleMessage env m with
      | none => simp [handled] at called
      | some result =>
          obtain ⟨middle, flow⟩ := result
          have stepped : step env client m = some middle := by simp [step, handled]
          cases flow with
          | leave =>
              simp only [handled, Option.some.injEq, Prod.mk.injEq] at called
              obtain ⟨rfl, rfl⟩ := called
              exact ⟨[m], rfl, by simp [stepped]⟩
          | next =>
              simp only [handled] at called
              obtain ⟨more, rfl, reached⟩ := ih middle called
              exact ⟨m :: more, rfl, by simp [stepped, reached]⟩

end MsaRemoteClient

end OfxPrimes.Tuio
