import OfxPrimes.Bytes.Block
import OfxPrimes.Osc.Acceptance
import OfxPrimes.Osc.Sender

/-!
# Bundles on the wire and back

The encoding of a bundle tree is a packet of the grammar: each encoded item,
wherever it stands in the datagram, derives the item it was made from, with the
blobs resolved in the datagram.  With the sender, which produces the encoding,
and the receiver, which decodes the grammar, this gives the round trip.
-/

namespace OfxPrimes.Osc

open OfxPrimes.Bytes

/-! ## Sizes -/

theorem length_encodeArgument_mod (argument : OfxOscArg Text) :
    (encodeArgument argument).length % 4 = 0 := by
  cases argument with
  | int32 value => rw [encodeArgument, length_bigEndian]
  | float value => rw [encodeArgument, length_bigEndian]
  | string value => rw [encodeArgument, length_pad4, roundUp4_mod]
  | blob value =>
      have rounded := roundUp4_mod value.length
      rw [encodeArgument, List.length_append, length_bigEndian, length_pad4]
      omega

theorem length_encodeArguments_mod (args : List (OfxOscArg Text)) :
    (encodeArguments args).length % 4 = 0 := by
  induction args with
  | nil => rfl
  | cons argument args ih =>
      have first := length_encodeArgument_mod argument
      rw [encodeArguments, List.flatMap_cons, List.length_append, ← encodeArguments]
      omega

theorem length_encodeMessage_mod (message : OfxOscMessage Text) :
    (encodeMessage message).length % 4 = 0 := by
  have address := roundUp4_mod (message.address ++ [0]).length
  have typeTags := roundUp4_mod (message.args.length + 2)
  have arguments := length_encodeArguments_mod message.args
  rw [encodeMessage, List.length_append, List.length_append, length_pad4, length_encodeTypeTags]
  omega

theorem length_encodeMessages_mod (messages : List (OfxOscMessage Text)) :
    (encodeMessages messages).length % 4 = 0 := by
  induction messages with
  | nil => rfl
  | cons message messages ih =>
      have first := length_encodeMessage_mod message
      rw [encodeMessages, List.flatMap_cons, List.length_append, length_sized, ← encodeMessages]
      omega

mutual

theorem length_encodeBundle_mod :
    ∀ bundle : OfxOscBundle Text, (encodeBundle bundle).length % 4 = 0
  | .mk messages bundles => by
      have nested := length_encodeBundles_mod bundles
      have own := length_encodeMessages_mod messages
      rw [encodeBundle, List.length_append, List.length_append, length_bundleHeader]
      omega

theorem length_encodeBundles_mod :
    ∀ bundles : List (OfxOscBundle Text), (encodeBundles bundles).length % 4 = 0
  | [] => rfl
  | bundle :: rest => by
      have first := length_encodeBundle_mod bundle
      have remaining := length_encodeBundles_mod rest
      rw [encodeBundles, List.length_append, length_sized]
      omega

end

/-! ## Strings and words -/

section Datagram

variable {datagram : Text} {p : Nat}

/-- A block that ends in NUL is a padded string. -/
theorem paddedString_of_standsAt {text : Text} (noNul : 0 ∉ text)
    (stands : StandsAt datagram p (pad4 (text ++ [0]))) :
    PaddedString datagram p (p + roundUp4 (text.length + 1)) := by
  have size : (pad4 (text ++ [0])).length = roundUp4 (text.length + 1) := by simp
  have blocks : roundUp4 (text.length + 1) = 4 * (text.length / 4 + 1) := by
    rw [roundUp4]
    omega
  have inText : ∀ i < text.length, datagram[p + i]? ≠ some 0 := by
    intro i below
    rw [stands.getElem? (by omega), pad4, List.append_assoc, List.getElem?_append_left below]
    exact fun isZero => noNul (List.mem_of_getElem? isZero)
  have behindText : ∀ i, text.length ≤ i → i < roundUp4 (text.length + 1) →
      datagram[p + i]? = some 0 := by
    intro i behind below
    have zeros : [0] ++ List.replicate (roundUp4 (text.length + 1) - (text.length + 1)) 0 =
        List.replicate (roundUp4 (text.length + 1) - (text.length + 1) + 1) (0 : UInt8) := rfl
    rw [stands.getElem? (by omega), pad4, List.append_assoc, List.getElem?_append_right behind,
      List.length_append, List.length_singleton, zeros, List.getElem?_replicate,
      if_pos (by omega)]
  use text.length / 4
  constructor
  · omega
  rcases Nat.eq_zero_or_pos text.length with empty | nonempty
  · exact .inl ⟨behindText 0 (by omega) (by omega), by omega⟩
  · have lastIsNul : datagram[p + 4 * (text.length / 4) + 3]? = some 0 := by
      rw [Nat.add_assoc]
      exact behindText _ (by omega) (by omega)
    have earlierNonzero : ∀ earlier < text.length / 4,
        datagram[p + 4 * earlier + 3]? ≠ some 0 := by
      intro earlier below
      rw [Nat.add_assoc]
      exact inText _ (by omega)
    exact .inr ⟨inText 0 nonempty, lastIsNul, earlierNonzero⟩

theorem stringAt_of_standsAt {text : Text} (noNul : 0 ∉ text)
    (stands : StandsAt datagram p (pad4 (text ++ [0]))) : stringAt datagram p = text := by
  rcases stands.drop_eq with ⟨back, behind⟩
  rw [stringAt, behind, pad4, List.append_assoc, List.append_assoc]
  exact cStr_append_nul noNul _

/-- The rest of a string. -/
theorem stringAt_succ {char : UInt8} {text : Text} (read : stringAt datagram p = char :: text) :
    stringAt datagram (p + 1) = text := by
  rw [stringAt] at read ⊢
  rw [← List.tail_drop]
  cases behind : datagram.drop p with
  | nil =>
      rw [behind] at read
      cases read
  | cons first rest =>
      rw [behind, cStr, List.takeWhile_cons] at read
      split_ifs at read with nonzero
      exact (List.cons.inj read).2

theorem wordAt_of_standsAt {n : Nat} (stands : StandsAt datagram p (bigEndian 4 n))
    (inRange : n < 2 ^ 32) : wordAt datagram p = UInt32.ofNat n := by
  have read := stands.take_drop
  rw [length_bigEndian] at read
  rw [wordAt, read, ofBigEndian_bigEndian_of_lt inRange]

/-! ## Arguments -/

/-- An encoded argument derives the argument, whatever stands behind it. -/
theorem argument_of_standsAt {stop : Nat} {argument : OfxOscArg Text}
    (noNul : ∀ text, argument = .string text → 0 ∉ text)
    (fits : datagram.length ≤ maxBufferSize)
    (stands : StandsAt datagram p (encodeArgument argument))
    (inTime : p + (encodeArgument argument).length ≤ stop) :
    ∃ got, Argument datagram stop (typeTag argument) p got
        (p + (encodeArgument argument).length) ∧
      got.mapBlob (blobBytes datagram) = argument := by
  cases argument with
  | int32 value =>
      rw [encodeArgument, length_bigEndian] at inTime ⊢
      have word := wordAt_of_standsAt stands value.toUInt32.toNat_lt
      have same : (wordAt datagram p).toInt32 = value := by
        rw [word, UInt32.ofNat_toNat, Int32.toInt32_toUInt32]
      exact ⟨_, .int32 inTime, congrArg OfxOscArg.int32 same⟩
  | float value =>
      rw [encodeArgument, length_bigEndian] at inTime ⊢
      have word := wordAt_of_standsAt stands value.toNat_lt
      have same : wordAt datagram p = value := by
        rw [word, UInt32.ofNat_toNat]
      exact ⟨_, .float inTime, congrArg OfxOscArg.float same⟩
  | string value =>
      have size : (encodeArgument (.string value)).length = roundUp4 (value.length + 1) := by
        simp [encodeArgument]
      rw [size] at inTime ⊢
      have isString := paddedString_of_standsAt (noNul value rfl) stands
      have same := stringAt_of_standsAt (noNul value rfl) stands
      exact ⟨_, .string isString inTime, congrArg OfxOscArg.string same⟩
  | blob value =>
      have within := stands.length_le
      have padding := le_roundUp4 value.length
      rw [encodeArgument, List.length_append, length_bigEndian, length_pad4] at within ⊢
      rw [maxBufferSize] at fits
      have word := wordAt_of_standsAt stands.left (by omega)
      have size : (wordAt datagram p).toNat = value.length := by
        rw [word, UInt32.toNat_ofNat_of_lt' (by simp only [UInt32.size]; omega)]
      have bytes := stands.right.left
      rw [length_bigEndian] at bytes
      have derived : Argument datagram stop 0x62 p _ _ := .blob (by rw [size]; omega)
      rw [size, Nat.add_assoc] at derived
      exact ⟨_, derived, congrArg OfxOscArg.blob bytes.take_drop⟩

/-- The encoded arguments of a message derive the arguments. -/
theorem arguments_of_standsAt {stop : Nat} {args : List (OfxOscArg Text)}
    (noNul : ∀ text, .string text ∈ args → 0 ∉ text)
    (fits : datagram.length ≤ maxBufferSize)
    (stands : StandsAt datagram p (encodeArguments args))
    (inTime : p + (encodeArguments args).length ≤ stop) :
    ∃ got, Arguments datagram stop (args.map typeTag) p got ∧
      got.map (OfxOscArg.mapBlob (blobBytes datagram)) = args := by
  induction args generalizing p with
  | nil => exact ⟨[], .nil, rfl⟩
  | cons argument args ih =>
      rw [encodeArguments, List.flatMap_cons, ← encodeArguments] at stands inTime
      rw [List.length_append] at inTime
      have firstNoNul : ∀ text, argument = .string text → 0 ∉ text := by
        rintro text rfl
        exact noNul text List.mem_cons_self
      have firstInTime : p + (encodeArgument argument).length ≤ stop := by omega
      rcases argument_of_standsAt firstNoNul fits stands.left firstInTime with
        ⟨got, derived, same⟩
      rcases ih (fun text mem => noNul text (List.mem_cons_of_mem _ mem)) stands.right
        (by omega) with ⟨gots, restDerived, restSame⟩
      exact ⟨got :: gots, .cons derived restDerived, by rw [List.map_cons, same, restSame]⟩

/-! ## Messages -/

theorem typeTag_ne_zero (argument : OfxOscArg Text) : typeTag argument ≠ 0 := by
  cases argument <;> simp [typeTag]

/-- What stands behind the address of an encoded message is a body with its
arguments. -/
theorem body_of_standsAt {stop : Nat} {args : List (OfxOscArg Text)}
    (noNul : ∀ text, .string text ∈ args → 0 ∉ text)
    (fits : datagram.length ≤ maxBufferSize)
    (stands : StandsAt datagram p (encodeTypeTags args ++ encodeArguments args))
    (stop_eq : stop = p + (encodeTypeTags args ++ encodeArguments args).length) :
    ∃ got, Body datagram stop p got ∧
      got.map (OfxOscArg.mapBlob (blobBytes datagram)) = args := by
  have tagsNoNul : (0 : UInt8) ∉ 0x2c :: args.map typeTag := by
    simp only [List.mem_cons, List.mem_map, not_or, not_exists, not_and]
    exact ⟨by decide, fun argument _ => typeTag_ne_zero argument⟩
  have size := length_encodeTypeTags args
  have room : args.length + 2 ≤ roundUp4 (args.length + 2) := le_roundUp4 _
  rw [List.length_append, size] at stop_eq
  have typeTags : StandsAt datagram p (pad4 ((0x2c :: args.map typeTag) ++ [0])) := stands.left
  have unpadded : StandsAt datagram p (0x2c :: (args.map typeTag ++ [0])) := typeTags.left
  have comma : datagram[p]? = some 0x2c := unpadded.head
  cases args with
  | nil => exact ⟨[], .empty (by omega) comma unpadded.tail.head, rfl⟩
  | cons argument args =>
      have nonempty : datagram[p + 1]? ≠ some 0 := by
        have second : datagram[p + 1]? = some (typeTag argument) := unpadded.tail.head
        rw [second, ne_eq, Option.some.injEq]
        exact typeTag_ne_zero argument
      have isString :
          PaddedString datagram p (p + roundUp4 ((argument :: args).length + 2)) := by
        simpa using paddedString_of_standsAt tagsNoNul typeTags
      have arguments := stands.right
      rw [size] at arguments
      have inTime : p + roundUp4 ((argument :: args).length + 2) +
          (encodeArguments (argument :: args)).length ≤ stop := by omega
      rcases arguments_of_standsAt noNul fits arguments inTime with ⟨got, derived, same⟩
      rw [← stringAt_succ (stringAt_of_standsAt tagsNoNul typeTags)] at derived
      exact ⟨got, .tagged (by omega) comma nonempty isString (by omega) derived, same⟩

/-- An encoded message is a message of the grammar. -/
theorem message_of_standsAt {message : OfxOscMessage Text} (encodable : message.Encodable)
    (fits : datagram.length ≤ maxBufferSize) (endpoint : IpEndpointName)
    (stands : StandsAt datagram p (encodeMessage message)) :
    ∃ got, Message datagram p (encodeMessage message).length got ∧
      received datagram endpoint got = message.setRemoteEndpoint endpoint := by
  have sizeAligned := length_encodeMessage_mod message
  rw [encodeMessage, List.append_assoc] at stands sizeAligned ⊢
  have room := le_roundUp4 (message.address.length + 1)
  have addressSize : (pad4 (message.address ++ [0])).length =
      roundUp4 (message.address.length + 1) := by simp
  have address := paddedString_of_standsAt encodable.address_noNul stands.left
  have behind := stands.right
  rw [addressSize] at behind
  rw [List.length_append, addressSize] at sizeAligned ⊢
  rcases body_of_standsAt encodable.strings_noNul fits behind rfl with ⟨got, body, same⟩
  rw [Nat.add_assoc] at body
  refine ⟨_, .mk (by omega) sizeAligned address (by omega) body, ?_⟩
  rw [stringAt_of_standsAt encodable.address_noNul stands.left]
  simp only [received, OfxOscMessage.setRemoteEndpoint, OfxOscMessage.mapBlob, same]

/-- An encoded message is not taken for a bundle. -/
theorem notBundle_of_standsAt {message : OfxOscMessage Text} (encodable : message.Encodable)
    (stands : StandsAt datagram p (encodeMessage message)) : datagram[p]? ≠ some 0x23 := by
  have address : StandsAt datagram p (message.address ++ [0]) := stands.left.left.left
  have first := address.getElem? (i := 0) (by simp)
  rw [Nat.add_zero] at first
  rw [first]
  have notBundle := encodable.address_notBundle
  cases chars : message.address with
  | nil => simp
  | cons char chars' => simpa [chars] using notBundle

/-! ## Bundles -/

/-- An element behind its size fills a slot. -/
theorem slotAt_of_standsAt {stop : Nat} {element : Text} (sizeAligned : element.length % 4 = 0)
    (fits : datagram.length ≤ maxBufferSize) (stands : StandsAt datagram p (sized element))
    (inTime : p + (sized element).length ≤ stop) : SlotAt datagram stop p element.length := by
  have within := stands.length_le
  rw [length_sized] at within inTime
  rw [maxBufferSize] at fits
  refine ⟨?_, sizeAligned, by omega⟩
  rw [wordAt_of_standsAt stands.left (by omega), UInt32.toNat_ofNat_of_lt']
  simp only [UInt32.size]
  omega

/-- The element itself stands behind the slot. -/
theorem standsAt_element {element : Text} (stands : StandsAt datagram p (sized element)) :
    StandsAt datagram (p + 4) element := by
  have behind := stands.right
  rwa [length_bigEndian] at behind

/-- Encoded messages in front of other elements. -/
theorem messages_of_standsAt {stop : Nat} {messages : List (OfxOscMessage Text)}
    {rest : List (OfxOscMessage Blob)} (encodable : ∀ message ∈ messages, message.Encodable)
    (fits : datagram.length ≤ maxBufferSize) (endpoint : IpEndpointName)
    (stands : StandsAt datagram p (encodeMessages messages))
    (inTime : p + (encodeMessages messages).length ≤ stop)
    (restDerived : Elements datagram stop (p + (encodeMessages messages).length) rest) :
    ∃ got, Elements datagram stop p (got ++ rest) ∧
      got.map (received datagram endpoint) = messages.map (·.setRemoteEndpoint endpoint) := by
  induction messages generalizing p with
  | nil => exact ⟨[], restDerived, rfl⟩
  | cons message messages ih =>
      rw [encodeMessages, List.flatMap_cons, ← encodeMessages] at stands inTime restDerived
      rw [List.length_append, ← Nat.add_assoc] at inTime restDerived
      rcases List.forall_mem_cons.mp encodable with ⟨isEncodable, restEncodable⟩
      have element := standsAt_element stands.left
      have slot := slotAt_of_standsAt (length_encodeMessage_mod message) fits stands.left
        (Nat.le_trans (Nat.le_add_right _ _) inTime)
      rcases message_of_standsAt isEncodable fits endpoint element with ⟨got, derived, same⟩
      rcases ih restEncodable stands.right inTime restDerived with ⟨gots, elements, restSame⟩
      rw [length_sized, ← Nat.add_assoc] at elements
      exact ⟨got :: gots,
        .message slot (notBundle_of_standsAt isEncodable element) derived elements,
        by rw [List.map_cons, List.map_cons, same, restSame]⟩

mutual

/-- An encoded bundle is a bundle of the grammar with the messages of the tree,
those of nested bundles first. -/
theorem bundle_of_standsAt {p : Nat} (fits : datagram.length ≤ maxBufferSize)
    (endpoint : IpEndpointName) : ∀ bundle : OfxOscBundle Text,
      (∀ message ∈ bundle.flatten, message.Encodable) →
      StandsAt datagram p (encodeBundle bundle) →
      BundleAt datagram p (encodeBundle bundle).length ∧
        ∃ got, Elements datagram (p + (encodeBundle bundle).length) (p + 16) got ∧
          got.map (received datagram endpoint) =
            bundle.flatten.map (·.setRemoteEndpoint endpoint)
  | .mk messages bundles, encodable, stands => by
      have sizeAligned := length_encodeBundle_mod (.mk messages bundles)
      rw [OfxOscBundle.flatten] at encodable ⊢
      rw [encodeBundle, List.append_assoc] at stands sizeAligned ⊢
      have sizeGe :
          16 ≤ (bundleHeader ++ (encodeBundles bundles ++ encodeMessages messages)).length := by
        rw [List.length_append, length_bundleHeader]
        exact Nat.le_add_right _ _
      have pattern : (datagram.drop p).take 8 = ascii "#bundle" ++ [0] := stands.left.left.take_drop
      have contents := stands.right
      rw [length_bundleHeader] at contents
      have stop_eq :
          p + (bundleHeader ++ (encodeBundles bundles ++ encodeMessages messages)).length =
            p + 16 + (encodeBundles bundles).length + (encodeMessages messages).length := by
        rw [List.length_append, length_bundleHeader, List.length_append]
        omega
      rw [stop_eq]
      rcases messages_of_standsAt
        (fun message mem => encodable message (List.mem_append_right _ mem))
        fits endpoint contents.right (Nat.le_refl _) .nil with ⟨own, ownDerived, ownSame⟩
      rcases bundles_of_standsAt fits endpoint bundles
        (fun message mem => encodable message (List.mem_append_left _ mem)) contents.left
        (Nat.le_add_right _ _) ownDerived with ⟨nested, derived, nestedSame⟩
      have same : (nested ++ (own ++ [])).map (received datagram endpoint) =
          (OfxOscBundle.flattenAll bundles ++ messages).map (·.setRemoteEndpoint endpoint) := by
        rw [List.append_nil, List.map_append, List.map_append, nestedSame, ownSame]
      exact ⟨⟨sizeGe, sizeAligned, pattern⟩, _, derived, same⟩

/-- Encoded bundles in front of other elements. -/
theorem bundles_of_standsAt {p stop : Nat} {rest : List (OfxOscMessage Blob)}
    (fits : datagram.length ≤ maxBufferSize) (endpoint : IpEndpointName) :
    ∀ bundles : List (OfxOscBundle Text),
      (∀ message ∈ OfxOscBundle.flattenAll bundles, message.Encodable) →
      StandsAt datagram p (encodeBundles bundles) →
      p + (encodeBundles bundles).length ≤ stop →
      Elements datagram stop (p + (encodeBundles bundles).length) rest →
      ∃ got, Elements datagram stop p (got ++ rest) ∧
        got.map (received datagram endpoint) =
          (OfxOscBundle.flattenAll bundles).map (·.setRemoteEndpoint endpoint)
  | [], _, _, _, restDerived => ⟨[], restDerived, rfl⟩
  | bundle :: bundles, encodable, stands, inTime, restDerived => by
      rw [OfxOscBundle.flattenAll] at encodable ⊢
      rw [encodeBundles] at stands inTime restDerived
      rw [List.length_append, ← Nat.add_assoc] at inTime restDerived
      have slot := slotAt_of_standsAt (length_encodeBundle_mod bundle) fits stands.left
        (Nat.le_trans (Nat.le_add_right _ _) inTime)
      rcases bundle_of_standsAt fits endpoint bundle
        (fun message mem => encodable message (List.mem_append_left _ mem))
        (standsAt_element stands.left) with ⟨isBundle, inner, innerDerived, innerSame⟩
      rcases bundles_of_standsAt fits endpoint bundles
        (fun message mem => encodable message (List.mem_append_right _ mem)) stands.right inTime
        restDerived with ⟨later, laterDerived, laterSame⟩
      rw [length_sized, ← Nat.add_assoc] at laterDerived
      have derived := Elements.bundle slot isBundle innerDerived laterDerived
      rw [← List.append_assoc] at derived
      exact ⟨_, derived, by rw [List.map_append, List.map_append, innerSame, laterSame]⟩

end

end Datagram

/-- The encoding of a tree is a packet with its messages. -/
theorem packet_encodeBundle {bundle : OfxOscBundle Text}
    (encodable : ∀ message ∈ bundle.flatten, message.Encodable)
    (fits : (encodeBundle bundle).length ≤ maxBufferSize) (endpoint : IpEndpointName) :
    ∃ got, Packet (encodeBundle bundle) got ∧
      got.map (received (encodeBundle bundle) endpoint) =
        bundle.flatten.map (·.setRemoteEndpoint endpoint) := by
  rcases bundle_of_standsAt fits endpoint bundle encodable (.self _) with
    ⟨isBundle, got, derived, same⟩
  rw [Nat.zero_add, Nat.zero_add] at derived
  exact ⟨got, .bundle isBundle derived, same⟩

/-- The datagram made of a tree of encodable messages that fits both buffers is
received as the messages of the tree, nested bundles first, whatever the two
buffers held before. -/
theorem receiveDatagram_sendBundle (sendBuffer buffer : Memory UInt8) (endpoint : IpEndpointName)
    {bundle : OfxOscBundle Text} (encodable : ∀ message ∈ bundle.flatten, message.Encodable)
    (fits : (encodeBundle bundle).length ≤ maxBufferSize) :
    ∃ datagram : Datagram, sendBundle sendBuffer bundle = .ok datagram.val ∧
      ∀ fuel, datagram.val.length < fuel →
        let processed := receiveDatagram buffer endpoint fuel datagram
        let read := fun blob : Blob =>
          (buffer.store 0 datagram.val).load blob.data blob.size
        processed.abort = none ∧
          processed.queued.map (·.mapBlob read) =
            bundle.flatten.map (·.setRemoteEndpoint endpoint) := by
  have sent : (encodeBundle bundle).length ≤ 32768 := Nat.le_trans fits (by decide)
  let datagram : Datagram := ⟨encodeBundle bundle, fits⟩
  refine ⟨datagram, sendBundle_eq sendBuffer encodable sent, ?_⟩
  intro fuel enough
  rcases packet_encodeBundle encodable fits endpoint with ⟨got, packet, same⟩
  have isPacket : Packet datagram.val got := packet
  rcases receiveDatagram_of_packet isPacket buffer endpoint enough with ⟨processed, isInside⟩
  have holds := holds_store buffer (encodeBundle bundle)
  simp only [processed, true_and]
  rw [List.map_map, ← same]
  apply List.map_congr_left
  intro message mem
  exact holds.mapBlob_load (isInside message mem)

/-- A bundle in a bundle, with an argument of every kind. -/
def nestedBundle : OfxOscBundle Text :=
  .mk [{ address := ascii "/outer" }]
    [.mk [{ address := ascii "/inner"
            args := [.int32 (-7), .float 0x3f800000, .string (ascii "tuio"), .blob [0, 1, 2]] }] []]

theorem receiveDatagram_nestedBundle :
    let endpoint : IpEndpointName := { address := 0x7f000001, port := 9000 }
    let buffer : Memory UInt8 := fun _ => 0
    ∃ datagram : Datagram, sendBundle buffer nestedBundle = .ok datagram.val ∧
      ∀ fuel, datagram.val.length < fuel →
        let processed := receiveDatagram buffer endpoint fuel datagram
        let read := fun blob : Blob =>
          (buffer.store 0 datagram.val).load blob.data blob.size
        processed.abort = none ∧
          processed.queued.map (·.mapBlob read) =
            nestedBundle.flatten.map (·.setRemoteEndpoint endpoint) := by
  have encodable : ∀ message ∈ nestedBundle.flatten, message.Encodable := by
    have messages : nestedBundle.flatten =
        [{ address := ascii "/inner"
           args := [.int32 (-7), .float 0x3f800000, .string (ascii "tuio"), .blob [0, 1, 2]] },
          { address := ascii "/outer" }] := rfl
    rw [messages, List.forall_mem_cons, List.forall_mem_singleton]
    constructor
    · refine ⟨by decide, by decide, fun text mem => ?_⟩
      have isText : text = ascii "tuio" := by simpa using mem
      rw [isText]
      decide
    · exact ⟨by decide, by decide, fun text mem => absurd mem (List.not_mem_nil)⟩
  exact receiveDatagram_sendBundle _ _ _ encodable (by decide)

end OfxPrimes.Osc
