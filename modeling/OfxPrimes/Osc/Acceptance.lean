import OfxPrimes.Osc.Decoding

/-!
# The datagrams the receiver accepts

Bundles are checked element by element and then walked element by element, to
any depth.  Both loops end on the elements of the grammar, and only there: the
size `0xfffffffc` makes the first one stand still.  With the empty datagram,
which is passed over, this gives the datagrams that are processed to their end.
-/

namespace OfxPrimes.Osc

open OfxPrimes.Bytes

variable {memory : Memory UInt8} {datagram : Text} {endpoint : IpEndpointName}

/-! ## Sizes of elements -/

theorem SlotAt.size_le {stop p size : Nat} (slot : SlotAt datagram stop p size)
    (inside : stop ≤ datagram.length) (fits : datagram.length ≤ maxBufferSize) :
    size ≤ 4098 := by
  have within := slot.inside
  rw [maxBufferSize] at fits
  omega

theorem Holds.slot_word (holds : Holds memory datagram) {stop p size : Nat}
    (slot : SlotAt datagram stop p size) (inside : stop ≤ datagram.length) :
    (toUInt32 memory p).toNat = size := by
  have within := slot.inside
  rw [holds.wordAt (by omega), slot.size_eq]

/-- The step to the next element does not wrap around. -/
theorem toNat_four_add {word : UInt32} (small : word.toNat ≤ 4098) :
    (4 + word).toNat = 4 + word.toNat := by
  rw [UInt32.toNat_add, Nat.mod_eq_of_lt]
  · rfl
  · have four : (4 : UInt32).toNat = 4 := rfl
    omega

theorem toInt_toInt32 {word : UInt32} (small : word.toNat ≤ 4098) :
    word.toInt32.toInt = word.toNat := by
  rw [Int32.toInt, UInt32.toBitVec_toInt32, BitVec.toInt_eq_toNat_of_lt]
  · rfl
  · have same : word.toBitVec.toNat = word.toNat := rfl
    omega

/-- The only aligned size for which the step wraps around is the one for which
it is zero. -/
theorem toNat_four_add_of_mod {word : UInt32} (aligned : word.toNat % 4 = 0)
    (moves : word ≠ 0xfffffffc) : (4 + word).toNat = 4 + word.toNat := by
  have bound := word.toNat_lt
  have notLast : word.toNat ≠ 4294967292 := fun last => moves (UInt32.toNat_inj.mp last)
  have four : (4 : UInt32).toNat = 4 := rfl
  rw [UInt32.toNat_add, Nat.mod_eq_of_lt (by omega), four]

/-! ## Checking the elements of a bundle -/

/-- An element whose size is `0xfffffffc` is checked over and over. -/
theorem checkElements_stuck {stop p : Nat} (room : p + 4 ≤ stop)
    (stuck : toUInt32 memory p = 0xfffffffc) (fuel : Nat) :
    checkElements memory stop fuel p = .error .outOfFuel := by
  induction fuel with
  | zero => rfl
  | succ fuel ih =>
      have sizeAligned : (0xfffffffc : UInt32).toNat % 4 = 0 := by decide
      have noStep : (4 + 0xfffffffc : UInt32).toNat = 0 := by decide
      rw [checkElements, if_pos (by omega), if_neg (by omega), stuck,
        if_neg (not_not.mpr sizeAligned), noStep, Nat.add_zero, if_neg (by omega), ih]

theorem Holds.checkElements_slot (holds : Holds memory datagram)
    (fits : datagram.length ≤ maxBufferSize) {stop p size fuel : Nat}
    (slot : SlotAt datagram stop p size) (inside : stop ≤ datagram.length) :
    checkElements memory stop (fuel + 1) p = checkElements memory stop fuel (p + 4 + size) := by
  have within := slot.inside
  have word := holds.slot_word slot inside
  have small := slot.size_le inside fits
  have step := toNat_four_add (word ▸ small)
  rw [checkElements, if_pos (by omega), if_neg (by omega),
    if_neg (not_not.mpr (word ▸ slot.size_mod)), step, word, ← Nat.add_assoc, if_neg (by omega)]

/-- Inversion of the check: before the end there is a slot, and the rest passes
the check. -/
theorem Holds.slot_of_checkElements (holds : Holds memory datagram) {stop p fuel : Nat}
    (inside : stop ≤ datagram.length) (checked : checkElements memory stop fuel p = .ok ())
    (notEnd : p ≠ stop) :
    ∃ size restFuel, SlotAt datagram stop p size ∧
      checkElements memory stop restFuel (p + 4 + size) = .ok () := by
  cases fuel with
  | zero => cases checked
  | succ fuel =>
      have unrolled := checked
      rw [checkElements] at unrolled
      split_ifs at unrolled with before short unaligned beyond
      have moves : toUInt32 memory p ≠ 0xfffffffc := by
        intro stuck
        rw [checkElements_stuck (by omega) stuck] at checked
        cases checked
      have sizeAligned : (toUInt32 memory p).toNat % 4 = 0 := not_not.mp unaligned
      have step := toNat_four_add_of_mod sizeAligned moves
      rw [step, ← Nat.add_assoc] at unrolled beyond
      rw [holds.wordAt (by omega)] at unrolled beyond sizeAligned
      exact ⟨_, fuel, ⟨rfl, sizeAligned, by omega⟩, unrolled⟩

/-! ## Walking the elements of a bundle -/

theorem Processed.andThen_done (first : List (OfxOscMessage Blob)) (second : Processed) :
    ({ queued := first } : Processed).andThen second =
      { second with queued := first ++ second.queued } :=
  rfl

theorem Processed.Clean.of_andThen {limit : Nat} {first second : Processed}
    (clean : (first.andThen second).Clean limit) : first.Clean limit ∧ second.Clean limit := by
  rcases first with ⟨queued, _ | abort⟩
  · constructor
    · exact ⟨rfl, fun message mem => clean.inside message (List.mem_append_left _ mem)⟩
    · exact ⟨clean.abort_eq, fun message mem => clean.inside message (List.mem_append_right _ mem)⟩
  · cases clean.abort_eq

/-- One turn of the walk. -/
theorem Holds.processElements_slot (holds : Holds memory datagram)
    (fits : datagram.length ≤ maxBufferSize) {stop p size fuel : Nat}
    (slot : SlotAt datagram stop p size) (inside : stop ≤ datagram.length) :
    processElements memory endpoint stop (fuel + 1) p =
      (if 0 < size ∧ datagram[p + 4]? = some 0x23 then
          processBundle memory endpoint fuel (p + 4) size
        else processMessage memory endpoint (p + 4) size).andThen
        (processElements memory endpoint stop fuel (p + 4 + size)) := by
  have within := slot.inside
  have word := holds.slot_word slot inside
  have small := slot.size_le inside fits
  have toInt : (elementSize memory p).toInt = size := by
    rw [elementSize, toInt_toInt32 (word ▸ small), word]
  have toULongEq : toULong (elementSize memory p) = size := by
    rw [toULong, toInt]
    omega
  have positive : 0 < elementSize memory p ↔ 0 < size := by
    rw [Int32.lt_iff_toInt_lt, toInt, Int32.toInt_zero]
    omega
  have next : (((p + 4 : Nat) : Int) + (size : Int)).toNat = p + 4 + size := by omega
  have opens : (0 < elementSize memory p ∧ memory (p + 4) = 0x23) ↔
      (0 < size ∧ datagram[p + 4]? = some 0x23) := by
    rw [positive]
    apply and_congr_right
    intro nonempty
    rw [holds.getElem? (by omega), Option.some.injEq]
  rw [processElements, if_neg (by omega)]
  simp only [toULongEq, opens, toInt, next]

theorem Holds.pattern_iff (holds : Holds memory datagram) {start size : Nat}
    (inside : start + size ≤ datagram.length) (room : 16 ≤ size) :
    memory.load start 8 = ascii "#bundle" ++ [0] ↔
      (datagram.drop start).take 8 = ascii "#bundle" ++ [0] := by
  rw [holds.load (by omega)]

theorem Holds.processBundle_of_bundleAt (holds : Holds memory datagram) {start size fuel : Nat}
    (bundle : BundleAt datagram start size) (inside : start + size ≤ datagram.length)
    (checked : checkElements memory (start + size) fuel (start + 16) = .ok ()) :
    processBundle memory endpoint (fuel + 1) start size =
      processElements memory endpoint (start + size) fuel (start + 16) := by
  have pattern := (holds.pattern_iff inside bundle.size_ge).mpr bundle.pattern
  have parsed : ReceivedBundle.init memory fuel start size =
      .ok { timeTag := start + 8, stop := start + size } := by
    rw [ReceivedBundle.init, if_neg (Nat.not_lt.mpr bundle.size_ge),
      if_neg (not_not.mpr bundle.size_mod), if_neg (not_not.mpr pattern), checked]
    rfl
  rw [processBundle, parsed]

/-- Inversion of `ProcessBundle`. -/
theorem Holds.bundleAt_of_clean (holds : Holds memory datagram) {start size fuel limit : Nat}
    (inside : start + size ≤ datagram.length)
    (clean : (processBundle memory endpoint fuel start size).Clean limit) :
    BundleAt datagram start size ∧ ∃ innerFuel < fuel,
      checkElements memory (start + size) innerFuel (start + 16) = .ok () ∧
        (processElements memory endpoint (start + size) innerFuel (start + 16)).Clean limit := by
  cases fuel with
  | zero => cases clean.abort_eq
  | succ fuel =>
      cases parsed : ReceivedBundle.init memory fuel start size with
      | error abort =>
          rw [processBundle, parsed] at clean
          cases clean.abort_eq
      | ok b =>
          have unfolded := parsed
          rw [ReceivedBundle.init] at unfolded
          split_ifs at unfolded with short unaligned badPattern
          have pattern := (holds.pattern_iff inside (Nat.not_lt.mp short)).mp
            (not_not.mp badPattern)
          cases checked : checkElements memory (start + size) fuel (start + 16) with
          | error abort =>
              rw [checked] at unfolded
              cases unfolded
          | ok =>
              rw [checked] at unfolded
              cases unfolded
              rw [processBundle, parsed] at clean
              exact ⟨⟨Nat.not_lt.mp short, not_not.mp unaligned, pattern⟩, fuel,
                Nat.lt_succ_self fuel, checked, clean⟩

theorem BundleAt.opens {start size : Nat} (bundle : BundleAt datagram start size) :
    datagram[start]? = some 0x23 := by
  have first : ((datagram.drop start).take 8)[0]? = some 0x23 := by
    rw [bundle.pattern]
    rfl
  rwa [List.getElem?_take_of_lt (by decide), List.getElem?_drop] at first

/-- The elements of the grammar pass the check, and the walk queues their
messages; each turn uses one unit of fuel and at least four bytes. -/
theorem Holds.processElements_of_elements (holds : Holds memory datagram)
    (fits : datagram.length ≤ maxBufferSize) (endpoint : IpEndpointName) {stop p : Nat}
    {messages : List (OfxOscMessage Blob)} (derived : Elements datagram stop p messages)
    (aligned : p % 4 = 0) (inside : stop ≤ datagram.length) {fuel : Nat}
    (enough : stop < p + fuel) :
    checkElements memory stop fuel p = .ok () ∧
      processElements memory endpoint stop fuel p =
        { queued := messages.map (·.setRemoteEndpoint endpoint) } ∧
      ∀ message ∈ messages, message.Inside datagram.length := by
  induction derived generalizing fuel with
  | @nil stop =>
      cases fuel with
      | zero => omega
      | succ fuel =>
          have checked : checkElements memory stop (fuel + 1) stop = .ok () := by
            rw [checkElements, if_neg (Nat.lt_irrefl stop), if_neg (not_not.mpr rfl)]
          have walked : processElements memory endpoint stop (fuel + 1) stop = {} := by
            rw [processElements, if_pos rfl]
          exact ⟨checked, walked, by simp⟩
  | @message stop p size message rest slot notBundle derived restDerived ih =>
      have within := slot.inside
      have sizeAligned := slot.size_mod
      cases fuel with
      | zero => omega
      | succ fuel =>
          have enoughRest : stop < p + 4 + size + fuel := by omega
          rcases ih (by omega) inside enoughRest with ⟨restChecked, restProcessed, restInside⟩
          rcases holds.processMessage_of_message fits endpoint (by omega)
            (Nat.le_trans within inside) derived with ⟨processed, isInside⟩
          have checked : checkElements memory stop (fuel + 1) p = .ok () := by
            rw [holds.checkElements_slot fits slot inside, restChecked]
          have walked : processElements memory endpoint stop (fuel + 1) p =
              { queued := (message :: rest).map (·.setRemoteEndpoint endpoint) } := by
            rw [holds.processElements_slot fits slot inside, if_neg fun opens => notBundle opens.2,
              processed, restProcessed, Processed.andThen_done]
            rfl
          exact ⟨checked, walked, List.forall_mem_cons.mpr ⟨isInside, restInside⟩⟩
  | @bundle stop p size inner rest slot bundle innerDerived restDerived innerIh restIh =>
      have within := slot.inside
      have sizeAligned := slot.size_mod
      have sizeGe := bundle.size_ge
      rcases fuel with _ | _ | fuel
      · omega
      · omega
      · have enoughRest : stop < p + 4 + size + (fuel + 1) := by omega
        have enoughInner : p + 4 + size < p + 4 + 16 + fuel := by omega
        rcases restIh (by omega) inside enoughRest with ⟨restChecked, restProcessed, restInside⟩
        rcases innerIh (by omega) (Nat.le_trans within inside) enoughInner with
          ⟨innerChecked, innerProcessed, innerInside⟩
        have checked : checkElements memory stop (fuel + 1 + 1) p = .ok () := by
          rw [holds.checkElements_slot fits slot inside, restChecked]
        have walked : processElements memory endpoint stop (fuel + 1 + 1) p =
            { queued := (inner ++ rest).map (·.setRemoteEndpoint endpoint) } := by
          rw [holds.processElements_slot fits slot inside, if_pos ⟨by omega, bundle.opens⟩,
            holds.processBundle_of_bundleAt bundle (Nat.le_trans within inside) innerChecked,
            innerProcessed, restProcessed, Processed.andThen_done, List.map_append]
        exact ⟨checked, walked, List.forall_mem_append.mpr ⟨innerInside, restInside⟩⟩

theorem Message.size_pos {start size : Nat} {message : OfxOscMessage Blob}
    (derived : Message datagram start size message) : 0 < size := by
  cases derived with
  | mk positive _ _ _ _ => exact positive

/-- What passes the check and is walked cleanly are the elements of the
grammar.  The induction is on the fuel, which bounds the nesting as well. -/
theorem Holds.elements_of_clean (holds : Holds memory datagram)
    (fits : datagram.length ≤ maxBufferSize) {fuel stop p checkFuel : Nat}
    (aligned : p % 4 = 0) (inside : stop ≤ datagram.length)
    (checked : checkElements memory stop checkFuel p = .ok ())
    (clean : (processElements memory endpoint stop fuel p).Clean datagram.length) :
    ∃ messages, Elements datagram stop p messages := by
  induction fuel using Nat.strong_induction_on generalizing stop p checkFuel with
  | _ fuel ih =>
      by_cases atEnd : p = stop
      · exact ⟨[], atEnd ▸ .nil⟩
      cases fuel with
      | zero => cases clean.abort_eq
      | succ fuel =>
          rcases holds.slot_of_checkElements inside checked atEnd with
            ⟨size, restFuel, slot, restChecked⟩
          have within := slot.inside
          have sizeAligned := slot.size_mod
          rw [holds.processElements_slot fits slot inside] at clean
          rcases clean.of_andThen with ⟨elementClean, restClean⟩
          rcases ih fuel (Nat.lt_succ_self fuel) (by omega) inside restChecked restClean with
            ⟨rest, restDerived⟩
          by_cases opens : 0 < size ∧ datagram[p + 4]? = some 0x23
          · rw [if_pos opens] at elementClean
            rcases holds.bundleAt_of_clean (Nat.le_trans within inside) elementClean with
              ⟨bundle, innerFuel, less, innerChecked, innerClean⟩
            rcases ih innerFuel (Nat.lt_succ_of_lt less) (by omega) (Nat.le_trans within inside)
              innerChecked innerClean with ⟨inner, innerDerived⟩
            exact ⟨inner ++ rest, .bundle slot bundle innerDerived restDerived⟩
          · rw [if_neg opens] at elementClean
            rcases holds.message_of_clean fits (by omega) (Nat.le_trans within inside)
              elementClean with ⟨message, derived⟩
            have positive : 0 < size := derived.size_pos
            exact ⟨message :: rest, .message slot (fun starts => opens ⟨positive, starts⟩) derived
              restDerived⟩

/-! ## Blobs in the datagram -/

/-- The bytes a blob points to in the datagram. -/
def blobBytes (datagram : Text) (blob : Blob) : Text :=
  (datagram.drop blob.data).take blob.size

/-- What a message of the grammar is once it comes from the endpoint and its
blobs are read. -/
def received (datagram : Text) (endpoint : IpEndpointName) (message : OfxOscMessage Blob) :
    OfxOscMessage Text :=
  (message.setRemoteEndpoint endpoint).mapBlob (blobBytes datagram)

/-- Blobs inside the datagram are read from the data buffer as they are in the
datagram. -/
theorem Holds.mapBlob_load (holds : Holds memory datagram) {message : OfxOscMessage Blob}
    (isInside : message.Inside datagram.length) :
    (message.setRemoteEndpoint endpoint).mapBlob (fun blob => memory.load blob.data blob.size) =
      received datagram endpoint message := by
  apply OfxOscMessage.mapBlob_congr
  intro blob mem
  have within : blob.data + blob.size ≤ datagram.length := isInside _ mem
  rw [blobBytes, holds.load within]

/-! ## Whole datagrams -/

theorem processPacket_eq {datagram : Datagram} (buffer : Memory UInt8) (fuel : Nat)
    (nonempty : 0 < datagram.val.length) :
    receiveDatagram buffer endpoint fuel datagram =
      if datagram.val[0]? = some 0x23 then
        processBundle (buffer.store 0 datagram.val) endpoint fuel 0 datagram.val.length
      else processMessage (buffer.store 0 datagram.val) endpoint 0 datagram.val.length := by
  have holds := holds_store buffer datagram.val
  have opens : (0 < datagram.val.length ∧ buffer.store 0 datagram.val 0 = 0x23) ↔
      datagram.val[0]? = some 0x23 := by
    rw [holds.getElem? nonempty, Option.some.injEq, and_iff_right nonempty]
  rw [receiveDatagram, if_pos nonempty, processPacket]
  simp only [opens]

/-- A packet of the grammar is processed to its end: its messages are queued in
order, with the blobs where the packet has them. -/
theorem receiveDatagram_of_packet {datagram : Datagram} {messages : List (OfxOscMessage Blob)}
    (packet : Packet datagram.val messages) (buffer : Memory UInt8) (endpoint : IpEndpointName)
    {fuel : Nat}
    (enough : datagram.val.length < fuel) :
    receiveDatagram buffer endpoint fuel datagram =
        { queued := messages.map (·.setRemoteEndpoint endpoint) } ∧
      ∀ message ∈ messages, message.Inside datagram.val.length := by
  have holds := holds_store buffer datagram.val
  have whole : 0 + datagram.val.length ≤ datagram.val.length := by omega
  cases packet with
  | message notBundle derived =>
      rcases holds.processMessage_of_message datagram.property endpoint rfl whole derived with
        ⟨processed, isInside⟩
      rw [processPacket_eq buffer fuel derived.size_pos, if_neg notBundle, processed]
      exact ⟨rfl, by simpa using isInside⟩
  | bundle bundle derived =>
      have sizeGe := bundle.size_ge
      cases fuel with
      | zero => omega
      | succ fuel =>
          have enoughInner : datagram.val.length < 0 + 16 + fuel := by omega
          rcases holds.processElements_of_elements datagram.property endpoint
            derived rfl (Nat.le_refl _) enoughInner with ⟨checked, processed, isInside⟩
          rw [← Nat.zero_add datagram.val.length] at checked processed
          rw [processPacket_eq buffer (fuel + 1) (by omega), if_pos bundle.opens,
            holds.processBundle_of_bundleAt bundle whole checked, processed]
          exact ⟨rfl, isInside⟩

/-- What is processed to its end is a packet of the grammar. -/
theorem wellFormed_of_clean {datagram : Datagram} {buffer : Memory UInt8} {fuel : Nat}
    (nonempty : 0 < datagram.val.length)
    (clean : (receiveDatagram buffer endpoint fuel datagram).Clean datagram.val.length) :
    WellFormed datagram.val := by
  have holds := holds_store buffer datagram.val
  have whole : 0 + datagram.val.length ≤ datagram.val.length := by omega
  rw [processPacket_eq buffer fuel nonempty] at clean
  by_cases opens : datagram.val[0]? = some 0x23
  · rw [if_pos opens] at clean
    rcases holds.bundleAt_of_clean whole clean with ⟨bundle, innerFuel, -, checked, innerClean⟩
    rw [Nat.zero_add] at checked innerClean
    rcases holds.elements_of_clean datagram.property rfl (Nat.le_refl _) checked innerClean with
      ⟨messages, derived⟩
    exact ⟨messages, .bundle bundle derived⟩
  · rw [if_neg opens] at clean
    rcases holds.message_of_clean datagram.property rfl whole clean with ⟨message, derived⟩
    exact ⟨[message], .message opens derived⟩

/-- A datagram is processed to its end, without an exception or an assertion
and with every queued blob inside it, exactly when it is empty or a packet of
the grammar. -/
theorem receiveDatagram_clean_iff (buffer : Memory UInt8) (endpoint : IpEndpointName)
    (datagram : Datagram) :
    (∃ fuel, (receiveDatagram buffer endpoint fuel datagram).Clean datagram.val.length) ↔
      datagram.val = [] ∨ WellFormed datagram.val := by
  constructor
  · rintro ⟨fuel, clean⟩
    rcases Nat.eq_zero_or_pos datagram.val.length with empty | nonempty
    · exact .inl (List.eq_nil_of_length_eq_zero empty)
    · exact .inr (wellFormed_of_clean nonempty clean)
  · rintro (empty | ⟨messages, packet⟩)
    · use 0
      rw [receiveDatagram, empty]
      exact ⟨rfl, by simp⟩
    · rcases receiveDatagram_of_packet packet buffer endpoint
        (Nat.lt_succ_self _) with ⟨processed, isInside⟩
      use datagram.val.length + 1
      rw [processed]
      exact ⟨rfl, by simpa [OfxOscMessage.Inside, OfxOscMessage.setRemoteEndpoint] using isInside⟩

/-- The size check of a one-byte datagram throws, and nothing catches it. -/
theorem receiveDatagram_throws :
    let processed := fun fuel =>
      receiveDatagram (fun _ => 0) { address := 0x7f000001, port := 9000 } fuel
        ⟨ascii "a", by decide⟩
    (∀ fuel, (processed fuel).abort =
        some (.malformedMessage "message size must be multiple of four")) ∧
      ¬∃ fuel, (processed fuel).Clean 1 := by
  constructor
  · intro fuel
    rfl
  · rintro ⟨fuel, clean⟩
    cases clean.abort_eq

end OfxPrimes.Osc
