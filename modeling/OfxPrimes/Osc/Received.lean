import OfxPrimes.Bytes.Memory
import OfxPrimes.Bytes.Padding
import OfxPrimes.Bytes.Word
import OfxPrimes.Osc.Message

/-!
# Receiving OSC datagrams

The listener thread refills one data buffer with each datagram and processes
it there: `osc::ReceivedBundle` and `osc::ReceivedMessage` check the packet,
`osc::OscPacketListener` walks the elements, and `ofxOscReceiver` converts and
queues the messages.  Pointers are offsets into the data buffer.  Nothing
between the socket loop and `ProcessMessage` handles an exception.

A loop that may not end takes fuel; running out of it stands for not ending.
-/

namespace OfxPrimes.Osc

open OfxPrimes.Bytes

/-- `MAX_BUFFER_SIZE`. -/
def maxBufferSize : Nat :=
  4098

/-- The bytes `ReceiveFrom` puts into the data buffer. -/
abbrev Datagram :=
  { bytes : Text // bytes.length ≤ maxBufferSize }

/-- What ends the processing of a datagram before its end. -/
inductive Abort where
  | malformedMessage (what : String)
  | malformedBundle (what : String)
  | assertion
  | outOfFuel
  deriving DecidableEq

/-! ## Reading the data buffer -/

/-- `ToUInt32`. -/
def toUInt32 (memory : Memory UInt8) (p : Nat) : UInt32 :=
  UInt32.ofNat (ofBigEndian (memory.load p 4))

/-- The string at an address of the data buffer.  `Init` has found its NUL, so
the size of the buffer bounds the search. -/
def cStringAt (memory : Memory UInt8) (p : Nat) : Text :=
  cStr (memory.load p maxBufferSize)

/-- The loop of `FindStr4End`: the last byte of each block of four is tested. -/
def findStr4EndLoop (memory : Memory UInt8) (last : Nat) : Nat → Nat → Nat
  | 0, p => p
  | fuel + 1, p =>
      if p < last ∧ memory p ≠ 0 then findStr4EndLoop memory last fuel (p + 4) else p

/-- `FindStr4End( p, end )`. -/
def findStr4End (memory : Memory UInt8) (p stop : Nat) : Option Nat :=
  if p ≥ stop then none
  else if memory p = 0 then some (p + 4)
  else
    let found := findStr4EndLoop memory (stop - 1) stop (p + 3)
    if memory found ≠ 0 then none else some (found + 1)

/-- `FindStr4End( p )`, which is only used on strings that `Init` has checked;
the size of the buffer bounds the search. -/
def findStr4EndUnchecked (memory : Memory UInt8) (p : Nat) : Nat :=
  if memory p = 0 then p + 4
  else findStr4EndLoop memory (p + maxBufferSize) maxBufferSize (p + 3) + 1

/-! ## Messages -/

/-- `TypeTagValues`. -/
inductive TypeTag where
  | trueTag
  | falseTag
  | nil
  | infinitum
  | int32
  | float
  | char
  | rgbaColor
  | midiMessage
  | int64
  | timeTag
  | double
  | string
  | symbol
  | blob
  deriving DecidableEq

/-- The characters of the enumeration. -/
def TypeTag.byte : TypeTag → UInt8
  | trueTag => 0x54
  | falseTag => 0x46
  | nil => 0x4e
  | infinitum => 0x49
  | int32 => 0x69
  | float => 0x66
  | char => 0x63
  | rgbaColor => 0x72
  | midiMessage => 0x6d
  | int64 => 0x68
  | timeTag => 0x74
  | double => 0x64
  | string => 0x73
  | symbol => 0x53
  | blob => 0x62

/-- The case a `switch` over the type tags takes for a character. -/
def TypeTag.ofByte (byte : UInt8) : Option TypeTag :=
  match byte with
  | 0x54 => some trueTag
  | 0x46 => some falseTag
  | 0x4e => some nil
  | 0x49 => some infinitum
  | 0x69 => some int32
  | 0x66 => some float
  | 0x63 => some char
  | 0x72 => some rgbaColor
  | 0x6d => some midiMessage
  | 0x68 => some int64
  | 0x74 => some timeTag
  | 0x64 => some double
  | 0x73 => some string
  | 0x53 => some symbol
  | 0x62 => some blob
  | _ => none

/-- The check of an argument of fixed size. -/
def checkFixed (stop argument width : Nat) : Except Abort Nat :=
  if argument = stop then .error (.malformedMessage "arguments exceed message size")
  else if argument + width > stop then .error (.malformedMessage "arguments exceed message size")
  else .ok (argument + width)

/-- One turn of the loop of `ReceivedMessage::Init`: where the next argument
begins.  For a blob the two exceptions are constructed and not thrown. -/
def checkArgument (memory : Memory UInt8) (stop argument : Nat) (typeTag : UInt8) :
    Except Abort Nat :=
  match TypeTag.ofByte typeTag with
  | none => .error (.malformedMessage "unknown type tag")
  | some .trueTag | some .falseTag | some .nil | some .infinitum => .ok argument
  | some .int32 | some .float | some .char | some .rgbaColor | some .midiMessage =>
      checkFixed stop argument 4
  | some .int64 | some .timeTag | some .double => checkFixed stop argument 8
  | some .string | some .symbol =>
      if argument = stop then .error (.malformedMessage "arguments exceed message size")
      else
        match findStr4End memory argument stop with
        | none => .error (.malformedMessage "unterminated string argument")
        | some next => .ok next
  | some .blob => .ok (argument + 4 + roundUp4 (toUInt32 memory argument).toNat)

/-- `ReceivedMessage`.  The pointers to type tags and arguments are null in a
message without them. -/
structure ReceivedMessage where
  addressPattern : Nat
  typeTagsBegin : Nat := 0
  typeTagsEnd : Nat := 0
  arguments : Nat := 0

/-- `ReceivedMessage::Init`. -/
def ReceivedMessage.init (memory : Memory UInt8) (message size : Nat) :
    Except Abort ReceivedMessage :=
  if size = 0 then .error (.malformedMessage "zero length messages not permitted")
  else if size % 4 ≠ 0 then .error (.malformedMessage "message size must be multiple of four")
  else
    let stop := message + size
    match findStr4End memory message stop with
    | none => .error (.malformedMessage "unterminated address pattern")
    | some typeTagsBegin =>
        if typeTagsBegin = stop then .ok { addressPattern := message }
        else if memory typeTagsBegin ≠ 0x2c then
          .error (.malformedMessage "type tags not present")
        else if memory (typeTagsBegin + 1) = 0 then .ok { addressPattern := message }
        else
          match findStr4End memory typeTagsBegin stop with
          | none =>
              .error (.malformedMessage "type tags were not terminated before end of message")
          | some arguments =>
              let typeTags := cStringAt memory (typeTagsBegin + 1)
              (typeTags.foldlM (checkArgument memory stop) arguments).map fun _ =>
                { addressPattern := message
                  typeTagsBegin := typeTagsBegin + 1
                  typeTagsEnd := typeTagsBegin + 1 + typeTags.length
                  arguments := arguments }

/-- `ReceivedMessageArgumentIterator::Advance` over one type tag. -/
def advance (memory : Memory UInt8) (typeTag : UInt8) (argument : Nat) : Nat :=
  match TypeTag.ofByte typeTag with
  | none | some .trueTag | some .falseTag | some .nil | some .infinitum => argument
  | some .int32 | some .float | some .char | some .rgbaColor | some .midiMessage => argument + 4
  | some .int64 | some .timeTag | some .double => argument + 8
  | some .string | some .symbol => findStr4EndUnchecked memory argument
  | some .blob => argument + 4 + roundUp4 (toUInt32 memory argument).toNat

/-- The argument `ProcessMessage` makes of a type tag, if it has a branch for
it.  A blob keeps an address in the data buffer. -/
def convertArgument (memory : Memory UInt8) (typeTag : UInt8) (argument : Nat) :
    Option (OfxOscArg Blob) :=
  match TypeTag.ofByte typeTag with
  | some .int32 => some (.int32 (toUInt32 memory argument).toInt32)
  | some .float => some (.float (toUInt32 memory argument))
  | some .string => some (.string (cStringAt memory argument))
  | some .blob =>
      some (.blob { data := argument + 4, size := (toUInt32 memory argument).toNat })
  | _ => none

/-- The argument loop of `ProcessMessage`, which asserts that it has a branch
for every type tag. -/
def convertArguments (memory : Memory UInt8) : Text → Nat → Except Abort (List (OfxOscArg Blob))
  | [], _ => .ok []
  | typeTag :: rest, argument =>
      match convertArgument memory typeTag argument with
      | none => .error .assertion
      | some converted =>
          (convertArguments memory rest (advance memory typeTag argument)).map (converted :: ·)

/-- `IpEndpointName`; the address is in host byte order. -/
structure IpEndpointName where
  address : UInt32
  port : Int

/-- `IpEndpointName::AddressAsString`. -/
def IpEndpointName.addressAsString (endpoint : IpEndpointName) : Text :=
  if endpoint.address = 0xffffffff then ascii "<any>"
  else
    let part := fun shift => ascii (toString ((endpoint.address >>> shift) &&& 0xff).toNat)
    part 24 ++ ascii "." ++ part 16 ++ ascii "." ++ part 8 ++ ascii "." ++ part 0

/-- `ofxOscMessage::setRemoteEndpoint`, as `ProcessMessage` calls it. -/
def OfxOscMessage.setRemoteEndpoint {β : Type} (message : OfxOscMessage β)
    (endpoint : IpEndpointName) : OfxOscMessage β :=
  { message with remoteHost := endpoint.addressAsString, remotePort := some endpoint.port }

/-- The messages pushed on the queue, and what cut the processing short. -/
structure Processed where
  queued : List (OfxOscMessage Blob) := []
  abort : Option Abort := none

/-- Go on unless the processing was cut short. -/
def Processed.andThen (first second : Processed) : Processed :=
  match first.abort with
  | some _ => first
  | none => { second with queued := first.queued ++ second.queued }

/-- `ofxOscReceiver::ProcessMessage` on the message at an address. -/
def processMessage (memory : Memory UInt8) (endpoint : IpEndpointName) (message size : Nat) :
    Processed :=
  match ReceivedMessage.init memory message size with
  | .error abort => { abort := some abort }
  | .ok m =>
      let typeTags := memory.load m.typeTagsBegin (m.typeTagsEnd - m.typeTagsBegin)
      match convertArguments memory typeTags m.arguments with
      | .error abort => { abort := some abort }
      | .ok args =>
          let ofMessage : OfxOscMessage Blob :=
            { address := cStringAt memory m.addressPattern, args := args }
          { queued := [ofMessage.setRemoteEndpoint endpoint] }

/-! ## Bundles -/

/-- The loop of `ReceivedBundle::Init`.  The step `4 + elementSize` is computed
in 32 bits. -/
def checkElements (memory : Memory UInt8) (stop : Nat) : Nat → Nat → Except Abort Unit
  | 0, _ => .error .outOfFuel
  | fuel + 1, p =>
      if p < stop then
        if p + 4 > stop then .error (.malformedBundle "packet too short for elementSize")
        else if (toUInt32 memory p).toNat % 4 ≠ 0 then
          .error (.malformedBundle "bundle element size must be multiple of four")
        else if p + (4 + toUInt32 memory p).toNat > stop then
          .error (.malformedBundle "packet too short for bundle element")
        else checkElements memory stop fuel (p + (4 + toUInt32 memory p).toNat)
      else if p ≠ stop then .error (.malformedBundle "bundle contents ")
      else .ok ()

/-- `ReceivedBundle`. -/
structure ReceivedBundle where
  timeTag : Nat
  stop : Nat

/-- `ReceivedBundle::Init`. -/
def ReceivedBundle.init (memory : Memory UInt8) (fuel bundle size : Nat) :
    Except Abort ReceivedBundle :=
  if size < 16 then .error (.malformedBundle "packet too short for bundle")
  else if size % 4 ≠ 0 then .error (.malformedBundle "bundle size must be multiple of four")
  else if memory.load bundle 8 ≠ ascii "#bundle" ++ [0] then
    .error (.malformedBundle "bad bundle address pattern")
  else
    (checkElements memory (bundle + size) fuel (bundle + 16)).map fun _ =>
      { timeTag := bundle + 8, stop := bundle + size }

/-- `ReceivedBundleElement::Size`. -/
def elementSize (memory : Memory UInt8) (p : Nat) : Int32 :=
  (toUInt32 memory p).toInt32

/-- An `int32` size as the `unsigned long` that `Init` takes. -/
def toULong (size : Int32) : Nat :=
  (size.toInt % 2 ^ 64).toNat

mutual

/-- `OscPacketListener::ProcessBundle` on the bundle at an address. -/
def processBundle (memory : Memory UInt8) (endpoint : IpEndpointName) :
    Nat → Nat → Nat → Processed
  | 0, _, _ => { abort := some .outOfFuel }
  | fuel + 1, bundle, size =>
      match ReceivedBundle.init memory fuel bundle size with
      | .error abort => { abort := some abort }
      | .ok b => processElements memory endpoint b.stop fuel (b.timeTag + 8)

/-- Its loop over the elements. -/
def processElements (memory : Memory UInt8) (endpoint : IpEndpointName) (stop : Nat) :
    Nat → Nat → Processed
  | 0, _ => { abort := some .outOfFuel }
  | fuel + 1, p =>
      if p = stop then {}
      else
        let size := elementSize memory p
        let element :=
          if 0 < size ∧ memory (p + 4) = 0x23 then
            processBundle memory endpoint fuel (p + 4) (toULong size)
          else processMessage memory endpoint (p + 4) (toULong size)
        element.andThen
          (processElements memory endpoint stop fuel ((p + 4 : Nat) + size.toInt).toNat)

end

/-- `OscPacketListener::ProcessPacket`. -/
def processPacket (memory : Memory UInt8) (endpoint : IpEndpointName) (fuel size : Nat) :
    Processed :=
  if 0 < size ∧ memory 0 = 0x23 then processBundle memory endpoint fuel 0 size
  else processMessage memory endpoint 0 size

/-- The turn of the socket loop for one datagram: the data buffer is refilled,
and an empty datagram is passed over. -/
def receiveDatagram (buffer : Memory UInt8) (endpoint : IpEndpointName) (fuel : Nat)
    (datagram : Datagram) : Processed :=
  if datagram.val.length > 0 then
    processPacket (buffer.store 0 datagram.val) endpoint fuel datagram.val.length
  else {}

end OfxPrimes.Osc
