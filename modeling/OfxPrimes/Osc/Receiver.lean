import OfxPrimes.Osc.Acceptance
import OfxPrimes.Transition.Channel
import OfxPrimes.Transition.Run

/-!
# From the listener thread to the consumer

`ofxOscReceiver` between its two threads.  The listener refills the one data
buffer and pushes the messages of the datagram under the mutex, one at a time;
the consumer copies messages from the front of the queue.  The copy of a blob is
again a pointer into the data buffer, so its bytes are those that the buffer holds
when the consumer looks.

The receiver is a channel as long as no refill changes the bytes of a blob that
is still waiting or that the consumer still has.
-/

namespace OfxPrimes.Osc

open OfxPrimes.Bytes OfxPrimes.Transition

/-- The abort ends the program; a loop that does not end only occupies the
listener thread. -/
def Abort.endsProgram : Abort → Bool
  | .malformedMessage _ | .malformedBundle _ | .assertion => true
  | .outOfFuel => false

/-- More turns than the elements of any datagram take. -/
def processingFuel : Nat :=
  maxBufferSize + 1

/-- `ofxOscReceiver` and its listener thread.  `pending` are the messages of the
current datagram that the thread has yet to push, `delivered` the messages that the
consumer got and `discarded` the places of those it is done with.  `arrived` is
history: the messages as they were in their datagrams. -/
structure OfxOscReceiver where
  data : Memory UInt8
  pending : List (OfxOscMessage Blob) := []
  abort : Option Abort := none
  messages : List (OfxOscMessage Blob) := []
  delivered : List (OfxOscMessage Blob) := []
  discarded : List ℕ := []
  arrived : List (OfxOscMessage Text) := []

/-- A step of one of the threads. -/
inductive Event where
  /-- The read loop takes the next datagram. -/
  | receive (endpoint : IpEndpointName) (datagram : Datagram)
  /-- `ProcessMessage` pushes the next message. -/
  | push
  /-- The consumer calls `getNextMessage` with a fresh message. -/
  | getNextMessage
  /-- The consumer is done with the `k`-th message it got. -/
  | discard (k : ℕ)

/-- The messages of a datagram as they are in it. -/
def arrivals (buffer : Memory UInt8) (endpoint : IpEndpointName) (datagram : Datagram) :
    List (OfxOscMessage Text) :=
  (receiveDatagram buffer endpoint processingFuel datagram).queued.map
    (·.mapBlob (blobBytes datagram.val))

/-- A message with its blobs read where they point to. -/
def readBlobs (memory : Memory UInt8) (message : OfxOscMessage Blob) : OfxOscMessage Text :=
  message.mapBlob fun blob => memory.load blob.data blob.size

/-- A queued message with nothing but the sizes of its blobs. -/
def queuedSizes (message : OfxOscMessage Blob) : OfxOscMessage ℕ :=
  message.mapBlob Blob.size

/-- A message with nothing but the lengths of its blobs. -/
def blobLengths (message : OfxOscMessage Text) : OfxOscMessage ℕ :=
  message.mapBlob List.length

theorem blobLengths_readBlobs (memory : Memory UInt8) (message : OfxOscMessage Blob) :
    blobLengths (readBlobs memory message) = queuedSizes message := by
  rw [blobLengths, readBlobs, OfxOscMessage.mapBlob_mapBlob, queuedSizes]
  apply OfxOscMessage.mapBlob_congr
  intro blob _
  exact memory.length_load blob.data blob.size

namespace OfxOscReceiver

/-- An exception or an assertion has ended the program. -/
def ended (receiver : OfxOscReceiver) : Bool :=
  receiver.pending.isEmpty && receiver.abort.any Abort.endsProgram

/-- The read loop takes a datagram when it is done with the one before. -/
def receive (receiver : OfxOscReceiver) (endpoint : IpEndpointName) (datagram : Datagram) :
    Option OfxOscReceiver :=
  if receiver.pending.isEmpty && receiver.abort.isNone then
    let processed := receiveDatagram receiver.data endpoint processingFuel datagram
    some
      { receiver with
        data := receiver.data.store 0 datagram.val
        pending := processed.queued
        abort := processed.abort
        arrived := receiver.arrived ++ arrivals receiver.data endpoint datagram }
  else none

/-- The push at the end of `ProcessMessage`. -/
def push (receiver : OfxOscReceiver) : Option OfxOscReceiver :=
  match receiver.pending with
  | [] => none
  | message :: rest =>
      some { receiver with pending := rest, messages := receiver.messages ++ [message] }

/-- `getNextMessage` into a fresh message; the empty queue is left alone. -/
def getNextMessage (receiver : OfxOscReceiver) : Option OfxOscReceiver :=
  if receiver.ended then none
  else
    match receiver.messages with
    | [] => some receiver
    | srcMessage :: rest =>
        let message : OfxOscMessage Blob := OfxOscMessage.copy {} srcMessage
        some
          { receiver with messages := rest, delivered := receiver.delivered ++ [message] }

/-- The consumer discards a message it has. -/
def discard (receiver : OfxOscReceiver) (k : ℕ) : Option OfxOscReceiver :=
  if receiver.ended then none
  else if k < receiver.delivered.length then
    some { receiver with discarded := k :: receiver.discarded }
  else none

/-- The threads in any order. -/
def step : Step OfxOscReceiver Event
  | receiver, .receive endpoint datagram => receiver.receive endpoint datagram
  | receiver, .push => receiver.push
  | receiver, .getNextMessage => receiver.getNextMessage
  | receiver, .discard k => receiver.discard k

/-- The consumer has the message as the `k`-th it got. -/
def Holds (receiver : OfxOscReceiver) (k : ℕ) (message : OfxOscMessage Blob) : Prop :=
  k ∉ receiver.discarded ∧ receiver.delivered[k]? = some message

/-- The messages come out as they went in: in their order and with the rest still
waiting, and whatever the consumer has reads as it arrived. -/
structure DeliversInOrder (receiver : OfxOscReceiver) : Prop where
  delivered_prefix :
    receiver.delivered.map queuedSizes <+: receiver.arrived.map blobLengths
  length_arrived : receiver.arrived.length =
    receiver.delivered.length + (receiver.messages.length + receiver.pending.length)
  reads : ∀ k message, receiver.Holds k message →
    receiver.arrived[k]? = some (readBlobs receiver.data message)

/-- The datagram leaves the bytes of the blobs of the message as they are. -/
def SparesBlobs (receiver : OfxOscReceiver) (datagram : Text)
    (message : OfxOscMessage Blob) : Prop :=
  ∀ blob, .blob blob ∈ message.args → ∀ a, blob.data ≤ a → a < blob.data + blob.size →
    datagram[a]? = none ∨ datagram[a]? = some (receiver.data a)

/-- The datagram leaves the blobs that wait and those that the consumer has as they
are. -/
structure Spares (receiver : OfxOscReceiver) (datagram : Text) : Prop where
  waiting : ∀ message ∈ receiver.messages, receiver.SparesBlobs datagram message
  held : ∀ k message, receiver.Holds k message → receiver.SparesBlobs datagram message

/-- A datagram is harmless when it is empty or well formed and spares the blobs
that are still to be read; the other steps always are. -/
def Harmless (receiver : OfxOscReceiver) : Event → Prop
  | .receive _ datagram =>
      (datagram.val = [] ∨ WellFormed datagram.val) ∧ receiver.Spares datagram.val
  | _ => True

/-! ## The receiver as a channel -/

/-- Every message in the order in which they arrived: what the consumer got, what is
queued and what is yet to be pushed. -/
def receivedMessages (receiver : OfxOscReceiver) : List (OfxOscMessage Blob) :=
  receiver.delivered ++ (receiver.messages ++ receiver.pending)

/-- The channel that the receiver implements, up to the bytes of the blobs. -/
def channel (receiver : OfxOscReceiver) : Channel (OfxOscMessage ℕ) where
  arrived := receiver.arrived.map blobLengths
  delivered := receiver.delivered.map queuedSizes
  waiting := (receiver.messages ++ receiver.pending).map queuedSizes

/-- The receiver is a channel, and what is still to be read reads as it arrived. -/
structure Intact (receiver : OfxOscReceiver) : Prop where
  conserved : receiver.channel.Conserved
  discarded : ∀ k ∈ receiver.discarded, k < receiver.delivered.length
  reads : ∀ k message, k ∉ receiver.discarded → receiver.receivedMessages[k]? = some message →
    receiver.arrived[k]? = some (readBlobs receiver.data message)

theorem intact_initial (buffer : Memory UInt8) : Intact { data := buffer } where
  conserved := rfl
  discarded := by simp
  reads := by simp [receivedMessages]

/-- A refill that spares the blobs of a message does not change what is read. -/
theorem SparesBlobs.readBlobs_eq {receiver : OfxOscReceiver} {datagram : Text}
    {message : OfxOscMessage Blob} (spares : receiver.SparesBlobs datagram message) :
    readBlobs (receiver.data.store 0 datagram) message = readBlobs receiver.data message := by
  apply OfxOscMessage.mapBlob_congr
  intro blob mem
  apply Memory.load_congr
  intro a atLeast below
  rw [Memory.store, if_pos (Nat.zero_le a), Nat.sub_zero]
  rcases spares blob mem a atLeast below with outside | same
  · rw [outside, Option.getD_none]
  · rw [same, Option.getD_some]

/-- Between two datagrams a message is got by the consumer or queued. -/
theorem Spares.of_receivedMessages {receiver : OfxOscReceiver} {datagram : Text}
    (spares : receiver.Spares datagram) (idle : receiver.pending = []) {k : ℕ}
    {message : OfxOscMessage Blob} (kept : k ∉ receiver.discarded)
    (found : receiver.receivedMessages[k]? = some message) :
    receiver.SparesBlobs datagram message := by
  rw [receivedMessages, idle, List.append_nil] at found
  by_cases below : k < receiver.delivered.length
  · rw [List.getElem?_append_left below] at found
    exact spares.held k message ⟨kept, found⟩
  · rw [List.getElem?_append_right (Nat.le_of_not_lt below)] at found
    exact spares.waiting message (List.mem_of_getElem? found)

/-- The messages that a well-formed datagram leaves to be pushed are read as they
are in the datagram. -/
theorem readBlobs_queued (buffer : Memory UInt8) (endpoint : IpEndpointName)
    {datagram : Datagram} (accepted : datagram.val = [] ∨ WellFormed datagram.val) :
    (receiveDatagram buffer endpoint processingFuel datagram).queued.map
        (readBlobs (buffer.store 0 datagram.val)) =
      arrivals buffer endpoint datagram := by
  rw [arrivals]
  rcases accepted with empty | ⟨messages, packet⟩
  · rw [receiveDatagram, empty]
    rfl
  · have enough : datagram.val.length < processingFuel := Nat.lt_succ_of_le datagram.property
    rcases receiveDatagram_of_packet packet buffer endpoint enough with ⟨processed, isInside⟩
    simp only [processed, List.map_map]
    apply List.map_congr_left
    intro message mem
    exact (holds_store buffer datagram.val).mapBlob_load (isInside message mem)

/-- The messages of the datagram go into the channel. -/
theorem channel_receive {receiver after : OfxOscReceiver} {endpoint : IpEndpointName}
    {datagram : Datagram} (accepted : datagram.val = [] ∨ WellFormed datagram.val)
    (stepped : receiver.receive endpoint datagram = some after) :
    after.channel =
      receiver.channel.arrive ((arrivals receiver.data endpoint datagram).map blobLengths) := by
  rw [receive] at stepped
  split_ifs at stepped with idle
  cases stepped
  rw [Bool.and_eq_true, List.isEmpty_iff] at idle
  have sizes : queuedSizes =
      blobLengths ∘ readBlobs (receiver.data.store 0 datagram.val) := by
    funext message
    exact (blobLengths_readBlobs _ message).symm
  have queued : (receiveDatagram receiver.data endpoint processingFuel datagram).queued.map
      queuedSizes = (arrivals receiver.data endpoint datagram).map blobLengths := by
    rw [← readBlobs_queued receiver.data endpoint accepted, List.map_map, sizes]
  simp only [channel, Channel.arrive, idle.1, List.append_nil, List.map_append, queued]

/-- A harmless datagram leaves everything readable. -/
theorem intact_receive {receiver after : OfxOscReceiver} {endpoint : IpEndpointName}
    {datagram : Datagram} (intact : receiver.Intact)
    (harmless : receiver.Harmless (.receive endpoint datagram))
    (stepped : receiver.receive endpoint datagram = some after) : after.Intact := by
  rcases harmless with ⟨accepted, spares⟩
  have conserved : after.channel.Conserved := by
    rw [channel_receive accepted stepped]
    exact intact.conserved.arrive _
  have length : receiver.arrived.length = receiver.receivedMessages.length := by
    have counted := intact.conserved.length_arrived
    simpa [channel, receivedMessages] using counted
  rw [receive] at stepped
  split_ifs at stepped with idle
  cases stepped
  rw [Bool.and_eq_true, List.isEmpty_iff] at idle
  constructor
  · exact conserved
  · exact intact.discarded
  · intro k message kept found
    have split : receiver.delivered ++ (receiver.messages ++
        (receiveDatagram receiver.data endpoint processingFuel datagram).queued) =
        receiver.receivedMessages ++
          (receiveDatagram receiver.data endpoint processingFuel datagram).queued := by
      rw [receivedMessages, idle.1, List.append_nil, List.append_assoc]
    rw [receivedMessages, split] at found
    by_cases below : k < receiver.receivedMessages.length
    · rw [List.getElem?_append_left below] at found
      rw [List.getElem?_append_left (length ▸ below),
        (spares.of_receivedMessages idle.1 kept found).readBlobs_eq]
      exact intact.reads k message kept found
    · rw [List.getElem?_append_right (Nat.le_of_not_lt below)] at found
      rw [List.getElem?_append_right (length ▸ Nat.le_of_not_lt below), length,
        ← readBlobs_queued receiver.data endpoint accepted, List.getElem?_map, found,
        Option.map_some]

/-- A push goes on inside the channel. -/
theorem intact_push {receiver after : OfxOscReceiver} (intact : receiver.Intact)
    (stepped : receiver.push = some after) : after.Intact := by
  rw [push] at stepped
  cases pending : receiver.pending with
  | nil =>
      rw [pending] at stepped
      cases stepped
  | cons message rest =>
      rw [pending] at stepped
      cases stepped
      rcases intact with ⟨conserved, discarded, reads⟩
      constructor
      · simpa [channel, pending] using conserved
      · exact discarded
      · simpa [receivedMessages, pending] using reads

/-- A call of `getNextMessage` takes from the channel, or finds the queue
empty. -/
theorem intact_getNextMessage {receiver after : OfxOscReceiver} (intact : receiver.Intact)
    (stepped : receiver.getNextMessage = some after) : after.Intact := by
  rw [getNextMessage] at stepped
  split_ifs at stepped with running
  cases messages : receiver.messages with
  | nil =>
      rw [messages] at stepped
      cases stepped
      exact intact
  | cons message rest =>
      rw [messages] at stepped
      cases stepped
      rcases intact with ⟨conserved, discarded, reads⟩
      constructor
      · have delivered := conserved.deliver
        simpa [channel, Channel.deliver, messages] using delivered
      · intro k mem
        rw [List.length_append]
        exact Nat.lt_add_right _ (discarded k mem)
      · simpa [receivedMessages, messages] using reads

/-- A message that the consumer is done with is out of reach. -/
theorem intact_discard {receiver after : OfxOscReceiver} {k : ℕ} (intact : receiver.Intact)
    (stepped : receiver.discard k = some after) : after.Intact := by
  rw [discard] at stepped
  split_ifs at stepped with running below
  cases stepped
  constructor
  · exact intact.conserved
  · intro other mem
    rcases List.mem_cons.mp mem with rfl | old
    · exact below
    · exact intact.discarded other old
  · intro other message kept found
    exact intact.reads other message (fun old => kept (List.mem_cons_of_mem _ old)) found

/-- Every harmless step leaves the receiver intact. -/
theorem step_intact {receiver after : OfxOscReceiver} {event : Event}
    (intact : receiver.Intact) (harmless : receiver.Harmless event)
    (stepped : step receiver event = some after) : after.Intact := by
  cases event with
  | receive endpoint datagram => exact intact_receive intact harmless stepped
  | push => exact intact_push intact stepped
  | getNextMessage => exact intact_getNextMessage intact stepped
  | discard k => exact intact_discard intact stepped

theorem Intact.deliversInOrder {receiver : OfxOscReceiver} (intact : receiver.Intact) :
    receiver.DeliversInOrder := by
  constructor
  · exact intact.conserved.delivered_prefix
  · have lengths := intact.conserved.length_arrived
    simpa [channel] using lengths
  · rintro k message ⟨kept, found⟩
    apply intact.reads k message kept
    have below := (List.getElem?_eq_some_iff.mp found).1
    rw [receivedMessages, List.getElem?_append_left below, found]

/-- In a run of harmless steps, with the threads in any order, messages come out
as they went in. -/
theorem deliversInOrder_of_harmless {buffer : Memory UInt8} {events : List Event}
    {receiver : OfxOscReceiver} (meets : Meets step Harmless { data := buffer } events)
    (reached : run step { data := buffer } events = some receiver) :
    receiver.DeliversInOrder := by
  have intact : receiver.Intact :=
    run_invariant_of_meets Intact (fun _ _ _ => step_intact) (intact_initial buffer) meets reached
  exact intact.deliversInOrder

/-! ## Two runs -/

/-- A message `/a` with four bytes in a blob. -/
def blobDatagram (byte : UInt8) : Datagram where
  val := ascii "/a" ++ [0, 0] ++ ascii ",b" ++ [0, 0] ++ [0, 0, 0, 4, byte, byte, byte, byte]
  property := by simp [ascii, maxBufferSize]

/-- A message `/c` without arguments, which ends before the blob of the other. -/
def shortDatagram : Datagram where
  val := ascii "/c" ++ [0, 0]
  property := by decide

/-- The endpoint of the sender. -/
def sender : IpEndpointName where
  address := 0x7f000001
  port := 9000

/-- In the run, the consumer reads the bytes of the second blob in the first message. -/
def ReadsOverwritten (events : List Event) : Prop :=
  ∃ receiver, run step { data := fun _ => 0 } events = some receiver ∧
    receiver.arrived.map (·.args) = [[.blob [1, 1, 1, 1]], [.blob [2, 2, 2, 2]]] ∧
    receiver.delivered.map (fun message => (readBlobs receiver.data message).args) =
      [[.blob [2, 2, 2, 2]]] ∧
    ¬receiver.DeliversInOrder

/-- Whether the second datagram arrives before the first message is taken or after,
the consumer reads its bytes in the blob of the first. -/
theorem blob_overwritten :
    ReadsOverwritten [.receive sender (blobDatagram 1), .push, .receive sender (blobDatagram 2),
        .push, .getNextMessage] ∧
      ReadsOverwritten [.receive sender (blobDatagram 1), .push, .getNextMessage,
        .receive sender (blobDatagram 2)] := by
  have differs : ∀ receiver : OfxOscReceiver, ∀ message,
      receiver.arrived.map (·.args) = [[.blob [1, 1, 1, 1]], [.blob [2, 2, 2, 2]]] →
      receiver.discarded = [] → receiver.delivered = [message] →
      (readBlobs receiver.data message).args = [.blob [2, 2, 2, 2]] →
      ¬receiver.DeliversInOrder := by
    intro receiver message arrived discarded delivered reads inOrder
    have held : receiver.Holds 0 message := by
      constructor
      · rw [discarded]
        exact List.not_mem_nil
      · rw [delivered]
        rfl
    have first := congrArg (Option.map (·.args)) (inOrder.reads 0 message held)
    rw [← List.getElem?_map, arrived, Option.map_some, reads] at first
    revert first
    decide
  constructor
  · exact ⟨_, rfl, rfl, rfl, differs _ _ rfl rfl rfl rfl⟩
  · exact ⟨_, rfl, rfl, rfl, differs _ _ rfl rfl rfl rfl⟩

theorem wellFormed_blobDatagram (byte : UInt8) : WellFormed (blobDatagram byte).val := by
  have address : PaddedString (blobDatagram byte).val 0 4 :=
    ⟨0, rfl, .inr ⟨by simp [blobDatagram, ascii], rfl, by simp⟩⟩
  have typeTags : PaddedString (blobDatagram byte).val 4 8 :=
    ⟨0, rfl, .inr ⟨by simp [blobDatagram, ascii], rfl, by simp⟩⟩
  have size : (wordAt (blobDatagram byte).val 8).toNat = 4 := rfl
  have length : (blobDatagram byte).val.length = 16 := rfl
  have arguments : ∃ args, Arguments (blobDatagram byte).val 16 [0x62] 8 args :=
    ⟨_, .cons (.blob (by rw [size, length])) .nil⟩
  rcases arguments with ⟨args, derived⟩
  have body : Body (blobDatagram byte).val (0 + 16) 4 args :=
    .tagged (by decide) rfl (by simp [blobDatagram, ascii]) typeTags (by decide) derived
  have message : Message (blobDatagram byte).val 0 16 _ :=
    .mk (by decide) (by decide) address (by decide) body
  exact ⟨_, .message (by simp [blobDatagram, ascii]) message⟩

theorem wellFormed_shortDatagram : WellFormed shortDatagram.val := by
  have address : PaddedString shortDatagram.val 0 4 :=
    ⟨0, rfl, .inr ⟨by decide, rfl, by simp⟩⟩
  exact ⟨_, .message (by decide) (.mk (by decide) (by decide) address (by decide) .none)⟩

/-- The blob of the first message lies behind the end of the second datagram, and the
consumer is done with it when the third arrives. -/
theorem deliversInOrder_shortDatagram :
    ∃ receiver,
      run step { data := fun _ => 0 }
          [.receive sender (blobDatagram 1), .push, .receive sender shortDatagram, .push,
            .getNextMessage, .getNextMessage, .discard 0, .receive sender (blobDatagram 2),
            .push, .getNextMessage] = some receiver ∧
        receiver.DeliversInOrder := by
  let early : List Event := [.receive sender (blobDatagram 1), .push]
  let middle : List Event := [.receive sender shortDatagram, .push, .getNextMessage,
    .getNextMessage, .discard 0]
  let late : List Event := [.receive sender (blobDatagram 2), .push, .getNextMessage]
  have meetsEarly : Meets step Harmless { data := fun _ => 0 } early := by
    have spares : OfxOscReceiver.Spares { data := fun _ => 0 } (blobDatagram 1).val :=
      ⟨by simp, by simp [Holds]⟩
    exact ⟨⟨.inr (wellFormed_blobDatagram 1), spares⟩, fun _ _ => ⟨trivial, fun _ _ => trivial⟩⟩
  have meetsMiddle : ∀ receiver, run step { data := fun _ => 0 } early = some receiver →
      Meets step Harmless receiver middle := by
    intro receiver reached
    have waiting : receiver.messages.map (·.args) = [[.blob { data := 12, size := 4 }]] := by
      cases reached
      rfl
    have delivered : receiver.delivered = [] := by
      cases reached
      rfl
    have spares : receiver.Spares shortDatagram.val := by
      constructor
      · intro message mem blob isBlob a atLeast _
        have args : message.args ∈ receiver.messages.map (·.args) := List.mem_map_of_mem mem
        rw [waiting, List.mem_singleton] at args
        rw [args, List.mem_singleton, OfxOscArg.blob.injEq] at isBlob
        rw [isBlob] at atLeast
        exact .inl (List.getElem?_eq_none (Nat.le_trans (by decide) atLeast))
      · rintro k message ⟨_, found⟩
        rw [delivered] at found
        cases found
    exact ⟨⟨.inr wellFormed_shortDatagram, spares⟩, fun _ _ => ⟨trivial, fun _ _ => ⟨trivial,
      fun _ _ => ⟨trivial, fun _ _ => ⟨trivial, fun _ _ => trivial⟩⟩⟩⟩⟩
  have meetsLate : ∀ receiver,
      run step { data := fun _ => 0 } (early ++ middle) = some receiver →
      Meets step Harmless receiver late := by
    intro receiver reached
    have waiting : receiver.messages = [] := by
      cases reached
      rfl
    have delivered : receiver.delivered.map (·.args) =
        [[.blob { data := 12, size := 4 }], []] := by
      cases reached
      rfl
    have discarded : receiver.discarded = [0] := by
      cases reached
      rfl
    have spares : receiver.Spares (blobDatagram 2).val := by
      constructor
      · rw [waiting]
        simp
      · rintro k message ⟨kept, found⟩ blob isBlob
        have args := congrArg (Option.map (·.args)) found
        rw [← List.getElem?_map, delivered, Option.map_some] at args
        rcases k with _ | _ | k
        · exact absurd (discarded ▸ List.mem_singleton_self 0) kept
        · have none : message.args = [] := (Option.some.inj args).symm
          rw [none] at isBlob
          cases isBlob
        · cases args
    exact ⟨⟨.inr (wellFormed_blobDatagram 2), spares⟩, fun _ _ => ⟨trivial, fun _ _ => ⟨trivial,
      fun _ _ => trivial⟩⟩⟩
  have meets := (meetsEarly.append meetsMiddle).append meetsLate
  have runs : (run step { data := fun _ => 0 } ((early ++ middle) ++ late)).isSome = true := rfl
  rcases Option.isSome_iff_exists.mp runs with ⟨receiver, reached⟩
  exact ⟨receiver, reached, deliversInOrder_of_harmless meets reached⟩

end OfxOscReceiver

end OfxPrimes.Osc
