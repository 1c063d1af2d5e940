import OfxPrimes.Bytes.Memory
import OfxPrimes.Bytes.Padding
import OfxPrimes.Bytes.Word
import OfxPrimes.Osc.Message

/-!
# Sending OSC bundles

`osc::OutboundPacketStream` composes a packet in a caller's buffer, and
`ofxOscSender` streams a bundle tree into it.  Pointers into the buffer are
offsets from its start.  While an element is open its size slot holds the
offset of the slot of the element around it, as a word of the little-endian
host; the type tags of the message in progress grow downwards from the end of
the buffer.
-/

namespace OfxPrimes.Osc

open OfxPrimes.Bytes

/-- The exceptions the stream throws. -/
inductive StreamException where
  | outOfBufferMemory
  | bundleNotInProgress
  | messageInProgress
  | messageNotInProgress
  deriving DecidableEq

/-- `what()` of the exceptions. -/
def StreamException.what : StreamException → String
  | outOfBufferMemory => "out of buffer memory"
  | bundleNotInProgress => "call to EndBundle when bundle is not in progress"
  | messageInProgress => "opening or closing bundle or message while message is in progress"
  | messageNotInProgress => "call to EndMessage when message is not in progress"

/-- `osc::OutboundPacketStream`.  The pointer `elementSizePtr_` is `none` when
it is null and offset zero for the outermost element, which has no size slot. -/
structure OutboundPacketStream where
  data : Memory UInt8
  bufferEnd : Nat
  typeTagsCurrent : Nat
  messageCursor : Nat
  argumentCurrent : Nat
  elementSizePtr : Option Nat
  messageIsInProgress : Bool

namespace OutboundPacketStream

/-- The constructor, on a buffer with any contents. -/
def construct (buffer : Memory UInt8) (capacity : Nat) : OutboundPacketStream where
  data := buffer
  bufferEnd := capacity
  typeTagsCurrent := capacity
  messageCursor := 0
  argumentCurrent := 0
  elementSizePtr := none
  messageIsInProgress := false

/-- `BeginElement`: the stream and where the contents of the element begin. -/
def beginElement (p : OutboundPacketStream) (beginPtr : Nat) : OutboundPacketStream × Nat :=
  match p.elementSizePtr with
  | none => ({ p with elementSizePtr := some 0 }, beginPtr)
  | some enclosing =>
      ({ p with
          data := p.data.store beginPtr (littleEndian 4 enclosing)
          elementSizePtr := some beginPtr }, beginPtr + 4)

/-- `EndElement`.  It asserts an open element, which both callers have. -/
def endElement (p : OutboundPacketStream) (endPtr : Nat) : OutboundPacketStream :=
  match p.elementSizePtr with
  | none => p
  | some 0 => { p with elementSizePtr := none }
  | some sizePtr =>
      { p with
        data := p.data.store sizePtr (bigEndian 4 (endPtr - sizePtr - 4))
        elementSizePtr := some (ofLittleEndian (p.data.load sizePtr 4)) }

/-- The bytes a size slot takes, if the next element needs one. -/
def sizeSlot (p : OutboundPacketStream) : Nat :=
  if p.elementSizePtr.isSome then 4 else 0

/-- `Size`, which accounts for the type tags of a message in progress. -/
def size (p : OutboundPacketStream) : Nat :=
  if p.messageIsInProgress then
    p.argumentCurrent + roundUp4 ((p.bufferEnd - p.typeTagsCurrent) + 2)
  else p.argumentCurrent

/-- `<< BundleInitiator`, after the checks. -/
def startBundle (p : OutboundPacketStream) (timeTag : UInt64) : OutboundPacketStream :=
  let (p, contents) := p.beginElement p.messageCursor
  { p with
    data := p.data.store contents (ascii "#bundle" ++ [0] ++ bigEndian 8 timeTag.toNat)
    messageCursor := contents + 16
    argumentCurrent := contents + 16 }

/-- `<< BundleInitiator`. -/
def beginBundle (p : OutboundPacketStream) (timeTag : UInt64) :
    Except StreamException OutboundPacketStream :=
  if p.messageIsInProgress then .error .messageInProgress
  else if p.size + p.sizeSlot + 16 > p.bufferEnd then .error .outOfBufferMemory
  else .ok (p.startBundle timeTag)

/-- `<< EndBundle`. -/
def endBundle (p : OutboundPacketStream) : Except StreamException OutboundPacketStream :=
  if p.elementSizePtr.isNone then .error .bundleNotInProgress
  else if p.messageIsInProgress then .error .messageInProgress
  else .ok (p.endElement p.messageCursor)

/-- `<< BeginMessage`, after the checks. -/
def startMessage (p : OutboundPacketStream) (addressPattern : Text) : OutboundPacketStream :=
  let (p, contents) := p.beginElement p.messageCursor
  let padded := pad4 (addressPattern ++ [0])
  { p with
    data := p.data.store contents padded
    messageCursor := contents + padded.length
    argumentCurrent := contents + padded.length
    typeTagsCurrent := p.bufferEnd
    messageIsInProgress := true }

/-- `<< BeginMessage`, given the address pattern without its terminator. -/
def beginMessage (p : OutboundPacketStream) (addressPattern : Text) :
    Except StreamException OutboundPacketStream :=
  if p.messageIsInProgress then .error .messageInProgress
  else if p.size + p.sizeSlot + roundUp4 (addressPattern.length + 1) + 4 > p.bufferEnd then
    .error .outOfBufferMemory
  else .ok (p.startMessage addressPattern)

/-- The arguments move up to make room for the type tags, which are copied from
the end of the buffer in reverse order. -/
def placeTypeTags (p : OutboundPacketStream) : OutboundPacketStream :=
  let typeTagsCount := p.bufferEnd - p.typeTagsCurrent
  if typeTagsCount ≠ 0 then
    let tempTypeTags := p.data.load p.typeTagsCurrent typeTagsCount
    let typeTagSlotSize := roundUp4 (typeTagsCount + 2)
    let argumentsSize := p.argumentCurrent - p.messageCursor
    let moved := p.data.store (p.messageCursor + typeTagSlotSize)
      (p.data.load p.messageCursor argumentsSize)
    { p with
      data := moved.store p.messageCursor
        (0x2c :: tempTypeTags.reverse ++
          List.replicate (typeTagSlotSize - (typeTagsCount + 1)) 0)
      typeTagsCurrent := p.bufferEnd
      messageCursor := p.messageCursor + (typeTagSlotSize + argumentsSize) }
  else
    { p with
      data := p.data.store p.messageCursor [0x2c, 0, 0, 0]
      messageCursor := p.messageCursor + 4 }

/-- `<< EndMessage`. -/
def endMessage (p : OutboundPacketStream) : Except StreamException OutboundPacketStream :=
  if p.messageIsInProgress then
    let p := p.placeTypeTags
    let p := { p with argumentCurrent := p.messageCursor, messageIsInProgress := false }
    .ok (p.endElement p.messageCursor)
  else .error .messageNotInProgress

/-- What every argument operator does: check the space, push a type tag and
write the argument. -/
def putArgument (p : OutboundPacketStream) (typeTag : UInt8) (argument : Text) :
    Except StreamException OutboundPacketStream :=
  if p.argumentCurrent + argument.length + roundUp4 ((p.bufferEnd - p.typeTagsCurrent) + 3) >
      p.bufferEnd then .error .outOfBufferMemory
  else .ok { p with
    data := (p.data.store (p.typeTagsCurrent - 1) [typeTag]).store p.argumentCurrent argument
    typeTagsCurrent := p.typeTagsCurrent - 1
    argumentCurrent := p.argumentCurrent + argument.length }

/-- `<< int32`. -/
def putInt32 (p : OutboundPacketStream) (rhs : Int32) :
    Except StreamException OutboundPacketStream :=
  p.putArgument 0x69 (bigEndian 4 rhs.toUInt32.toNat)

/-- `<< float`, on its bit pattern. -/
def putFloat (p : OutboundPacketStream) (rhs : UInt32) :
    Except StreamException OutboundPacketStream :=
  p.putArgument 0x66 (bigEndian 4 rhs.toNat)

/-- `<< const char*`, given the string without its terminator. -/
def putString (p : OutboundPacketStream) (rhs : Text) :
    Except StreamException OutboundPacketStream :=
  p.putArgument 0x73 (pad4 (rhs ++ [0]))

/-- `<< Blob`. -/
def putBlob (p : OutboundPacketStream) (rhs : Text) :
    Except StreamException OutboundPacketStream :=
  p.putArgument 0x62 (bigEndian 4 rhs.length ++ pad4 rhs)

end OutboundPacketStream

/-! ## The sender -/

/-- `BeginBundleImmediate`. -/
def immediately : UInt64 :=
  1

/-- The branch of `appendMessage` for one argument. -/
def appendArgument (p : OutboundPacketStream) :
    OfxOscArg Text → Except StreamException OutboundPacketStream
  | .int32 value => p.putInt32 value
  | .float value => p.putFloat value
  | .string value => p.putString (cStr value)
  | .blob value => p.putBlob value

/-- `ofxOscSender::appendMessage`. -/
def appendMessage (message : OfxOscMessage Text) (p : OutboundPacketStream) :
    Except StreamException OutboundPacketStream := do
  let p ← p.beginMessage (cStr message.getAddress)
  let p ← message.args.foldlM appendArgument p
  p.endMessage

/-- The message loop of `appendBundle`. -/
def appendMessages (messages : List (OfxOscMessage Text)) (p : OutboundPacketStream) :
    Except StreamException OutboundPacketStream :=
  messages.foldlM (fun p message => appendMessage message p) p

mutual

/-- `ofxOscSender::appendBundle`. -/
def appendBundle : OfxOscBundle Text → OutboundPacketStream →
    Except StreamException OutboundPacketStream
  | .mk messages bundles, p => do
      let p ← p.beginBundle immediately
      let p ← appendBundles bundles p
      let p ← appendMessages messages p
      p.endBundle

/-- The bundle loop of `appendBundle`. -/
def appendBundles : List (OfxOscBundle Text) → OutboundPacketStream →
    Except StreamException OutboundPacketStream
  | [], p => .ok p
  | bundle :: rest, p => do
      let p ← appendBundle bundle p
      appendBundles rest p

end

/-- `ofxOscSender::sendBundle`: the datagram it sends, composed in a buffer of
`OUTPUT_BUFFER_SIZE` bytes with any contents. -/
def sendBundle (buffer : Memory UInt8) (bundle : OfxOscBundle Text) :
    Except StreamException Text := do
  let p ← appendBundle bundle (.construct buffer 32768)
  return p.data.load 0 p.size

end OfxPrimes.Osc
