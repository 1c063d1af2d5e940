import OfxPrimes.Osc.Outbound

/-!
# The OSC encoding

What a bundle tree looks like on the wire, defined by recursion on the tree.
A string is terminated and padded to four bytes, a message is its address, the
string of its type tags behind a comma and its arguments, and the elements of a
bundle stand behind their sizes.
-/

namespace OfxPrimes.Osc

open OfxPrimes.Bytes

universe u

/-! ## Messages -/

/-- The type tag of an argument. -/
def typeTag : OfxOscArg Text → UInt8
  | .int32 _ => 0x69
  | .float _ => 0x66
  | .string _ => 0x73
  | .blob _ => 0x62

/-- The bytes of one argument; a blob stands behind its size. -/
def encodeArgument : OfxOscArg Text → Text
  | .int32 value => bigEndian 4 value.toUInt32.toNat
  | .float value => bigEndian 4 value.toNat
  | .string value => pad4 (value ++ [0])
  | .blob value => bigEndian 4 value.length ++ pad4 value

/-- The string of type tags. -/
def encodeTypeTags (args : List (OfxOscArg Text)) : Text :=
  pad4 (0x2c :: (args.map typeTag ++ [0]))

/-- The bytes of the arguments, one after the other. -/
def encodeArguments (args : List (OfxOscArg Text)) : Text :=
  args.flatMap encodeArgument

/-- The bytes of one message. -/
def encodeMessage (message : OfxOscMessage Text) : Text :=
  pad4 (message.address ++ [0]) ++ encodeTypeTags message.args ++ encodeArguments message.args

/-! ## Bundles -/

/-- An element of a bundle behind its size. -/
def sized (element : Text) : Text :=
  bigEndian 4 element.length ++ element

/-- `#bundle` and the time tag for immediate delivery. -/
def bundleHeader : Text :=
  ascii "#bundle" ++ [0] ++ bigEndian 8 immediately.toNat

/-- The messages of a bundle, each behind its size. -/
def encodeMessages (messages : List (OfxOscMessage Text)) : Text :=
  messages.flatMap fun message => sized (encodeMessage message)

mutual

/-- A bundle: its header, its nested bundles and then its messages. -/
def encodeBundle : OfxOscBundle Text → Text
  | .mk messages bundles => bundleHeader ++ encodeBundles bundles ++ encodeMessages messages

/-- The nested bundles of a bundle, each behind its size. -/
def encodeBundles : List (OfxOscBundle Text) → Text
  | [] => []
  | bundle :: rest => sized (encodeBundle bundle) ++ encodeBundles rest

end

mutual

/-- The messages of a tree, those of nested bundles first. -/
def OfxOscBundle.flatten {β : Type u} : OfxOscBundle β → List (OfxOscMessage β)
  | .mk messages bundles => OfxOscBundle.flattenAll bundles ++ messages

/-- The messages of a list of trees, tree by tree. -/
def OfxOscBundle.flattenAll {β : Type u} : List (OfxOscBundle β) → List (OfxOscMessage β)
  | [] => []
  | bundle :: rest => bundle.flatten ++ OfxOscBundle.flattenAll rest

end

/-- A message that survives the encoding: no string of it contains NUL, and its
address is not taken for a bundle. -/
structure OfxOscMessage.Encodable (message : OfxOscMessage Text) : Prop where
  address_noNul : 0 ∉ message.address
  address_notBundle : message.address.head? ≠ some 0x23
  strings_noNul : ∀ text, .string text ∈ message.args → 0 ∉ text

@[simp]
theorem length_sized (element : Text) : (sized element).length = 4 + element.length := by
  simp [sized]

theorem length_bundleHeader : bundleHeader.length = 16 := by
  decide

theorem length_encodeTypeTags (args : List (OfxOscArg Text)) :
    (encodeTypeTags args).length = roundUp4 (args.length + 2) := by
  simp [encodeTypeTags, length_pad4]

end OfxPrimes.Osc
