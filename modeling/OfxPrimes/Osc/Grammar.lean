import OfxPrimes.Osc.Message
import OfxPrimes.Bytes.Padding
import OfxPrimes.Bytes.Word

/-!
# Well-formed OSC datagrams

A grammar over the bytes of one datagram, addressed by position, with the
messages it derives.  It describes the packets the receiver can take: strings
end in a block of four whose last byte is zero, type tags are those of the four
argument kinds, and a blob lies inside the datagram.  Bytes behind the last
argument of a message are not looked at.
-/

namespace OfxPrimes.Osc

open OfxPrimes.Bytes

/-- The 32-bit number at a position. -/
def wordAt (datagram : Text) (p : Nat) : UInt32 :=
  UInt32.ofNat (ofBigEndian ((datagram.drop p).take 4))

/-- The string at a position, up to its first NUL. -/
def stringAt (datagram : Text) (p : Nat) : Text :=
  cStr (datagram.drop p)

/-- A string stands at `p` and its blocks of four end at `next`: the last byte
of the last block is the first such byte that is zero.  A string that begins
with NUL is one block, whatever else it holds. -/
def PaddedString (datagram : Text) (p next : Nat) : Prop :=
  ∃ blocks, next = p + 4 * (blocks + 1) ∧
    ((datagram[p]? = some 0 ∧ blocks = 0) ∨
      (datagram[p]? ≠ some 0 ∧ datagram[p + 4 * blocks + 3]? = some 0 ∧
        ∀ earlier < blocks, datagram[p + 4 * earlier + 3]? ≠ some 0))

/-- The argument that a type tag finds at position `p`, and where the next one
begins, in a message that ends at `stop`. -/
inductive Argument (datagram : Text) (stop : Nat) :
    UInt8 → Nat → OfxOscArg Blob → Nat → Prop
  | int32 {p : Nat} : p + 4 ≤ stop →
      Argument datagram stop 0x69 p (.int32 (wordAt datagram p).toInt32) (p + 4)
  | float {p : Nat} : p + 4 ≤ stop →
      Argument datagram stop 0x66 p (.float (wordAt datagram p)) (p + 4)
  | string {p next : Nat} : PaddedString datagram p next → next ≤ stop →
      Argument datagram stop 0x73 p (.string (stringAt datagram p)) next
  | blob {p : Nat} : p + 4 + (wordAt datagram p).toNat ≤ datagram.length →
      Argument datagram stop 0x62 p
        (.blob { data := p + 4, size := (wordAt datagram p).toNat })
        (p + 4 + roundUp4 (wordAt datagram p).toNat)

/-- The arguments of a string of type tags. -/
inductive Arguments (datagram : Text) (stop : Nat) : Text → Nat → List (OfxOscArg Blob) → Prop
  | nil {p : Nat} : Arguments datagram stop [] p []
  | cons {tag : UInt8} {tags : Text} {p next : Nat} {argument : OfxOscArg Blob}
      {args : List (OfxOscArg Blob)} : Argument datagram stop tag p argument next →
      Arguments datagram stop tags next args →
      Arguments datagram stop (tag :: tags) p (argument :: args)

/-- What may follow the address of a message, from position `p` on: nothing, an
empty string of type tags, or type tags and arguments. -/
inductive Body (datagram : Text) (stop : Nat) : Nat → List (OfxOscArg Blob) → Prop
  | none : Body datagram stop stop []
  | empty {p : Nat} : p < stop → datagram[p]? = some 0x2c → datagram[p + 1]? = some 0 →
      Body datagram stop p []
  | tagged {p next : Nat} {args : List (OfxOscArg Blob)} : p < stop →
      datagram[p]? = some 0x2c → datagram[p + 1]? ≠ some 0 →
      PaddedString datagram p next → next ≤ stop →
      Arguments datagram stop (stringAt datagram (p + 1)) next args →
      Body datagram stop p args

/-- A message of `size` bytes stands at `start`. -/
inductive Message (datagram : Text) (start size : Nat) : OfxOscMessage Blob → Prop
  | mk {p : Nat} {args : List (OfxOscArg Blob)} : 0 < size → size % 4 = 0 →
      PaddedString datagram start p → p ≤ start + size → Body datagram (start + size) p args →
      Message datagram start size { address := stringAt datagram start, args := args }

/-- A bundle of `size` bytes begins at `start`; any time tag is taken. -/
structure BundleAt (datagram : Text) (start size : Nat) : Prop where
  size_ge : 16 ≤ size
  size_mod : size % 4 = 0
  pattern : (datagram.drop start).take 8 = ascii "#bundle" ++ [0]

/-- The slot at `p` holds the size of an element that ends at or before
`stop`. -/
structure SlotAt (datagram : Text) (stop p size : Nat) : Prop where
  size_eq : (wordAt datagram p).toNat = size
  size_mod : size % 4 = 0
  inside : p + 4 + size ≤ stop

/-- The elements from `p` to `stop`, with their messages in order. -/
inductive Elements (datagram : Text) : Nat → Nat → List (OfxOscMessage Blob) → Prop
  | nil {stop : Nat} : Elements datagram stop stop []
  | message {stop p size : Nat} {message : OfxOscMessage Blob}
      {rest : List (OfxOscMessage Blob)} :
      SlotAt datagram stop p size → datagram[p + 4]? ≠ some 0x23 →
      Message datagram (p + 4) size message → Elements datagram stop (p + 4 + size) rest →
      Elements datagram stop p (message :: rest)
  | bundle {stop p size : Nat} {inner rest : List (OfxOscMessage Blob)} :
      SlotAt datagram stop p size → BundleAt datagram (p + 4) size →
      Elements datagram (p + 4 + size) (p + 4 + 16) inner →
      Elements datagram stop (p + 4 + size) rest →
      Elements datagram stop p (inner ++ rest)

/-- A whole datagram is one message or one bundle. -/
inductive Packet (datagram : Text) : List (OfxOscMessage Blob) → Prop
  | message {message : OfxOscMessage Blob} : datagram[0]? ≠ some 0x23 →
      Message datagram 0 datagram.length message → Packet datagram [message]
  | bundle {messages : List (OfxOscMessage Blob)} : BundleAt datagram 0 datagram.length →
      Elements datagram datagram.length 16 messages → Packet datagram messages

/-- The datagram is a packet of the grammar. -/
def WellFormed (datagram : Text) : Prop :=
  ∃ messages, Packet datagram messages

end OfxPrimes.Osc
