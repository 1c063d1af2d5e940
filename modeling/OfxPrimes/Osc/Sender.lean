import OfxPrimes.Osc.Encoding

/-!
# The sender writes the encoding

Appending a message or a bundle to the stream appends its encoding to the bytes
below the message cursor and leaves those below untouched, the open size slots
of the elements around it among them.  An element that fits the buffer never
runs into one of the stream's checks.
-/

namespace OfxPrimes.Osc

open OfxPrimes.Bytes

namespace OutboundPacketStream

/-! ## Elements -/

/-- Between two elements: no message is in progress, and the size slot of the
open element lies below the cursor. -/
structure Idle (p : OutboundPacketStream) : Prop where
  noMessage : p.messageIsInProgress = false
  argumentCurrent : p.argumentCurrent = p.messageCursor
  slot_below : ∀ sizePtr, p.elementSizePtr = some sizePtr → sizePtr < p.messageCursor

/-- A new element starts behind its size slot. -/
theorem Idle.size_add_sizeSlot {p : OutboundPacketStream} {enclosing : Nat} (idle : p.Idle)
    (isOpen : p.elementSizePtr = some enclosing) : p.size + p.sizeSlot = p.messageCursor + 4 := by
  simp only [size, sizeSlot, idle.noMessage, idle.argumentCurrent, isOpen, Option.isSome_some,
    if_true, Bool.false_eq_true, if_false]

/-- `after` is `p` with some bytes appended, everything below kept. -/
structure Appended (p after : OutboundPacketStream) (bytes : Text) : Prop where
  idle : after.Idle
  bufferEnd : after.bufferEnd = p.bufferEnd
  elementSizePtr : after.elementSizePtr = p.elementSizePtr
  messageCursor : after.messageCursor = p.messageCursor + bytes.length
  kept : ∀ a < p.messageCursor, after.data a = p.data a
  written : after.data.load p.messageCursor bytes.length = bytes

theorem Appended.refl {p : OutboundPacketStream} (idle : p.Idle) : Appended p p [] :=
  ⟨idle, rfl, rfl, rfl, fun _ _ => rfl, rfl⟩

theorem Appended.trans {p middle after : OutboundPacketStream} {first second : Text}
    (left : Appended p middle first) (right : Appended middle after second) :
    Appended p after (first ++ second) where
  idle := right.idle
  bufferEnd := right.bufferEnd.trans left.bufferEnd
  elementSizePtr := right.elementSizePtr.trans left.elementSizePtr
  messageCursor := by
    rw [right.messageCursor, left.messageCursor, List.length_append, Nat.add_assoc]
  kept a below := by
    rw [right.kept a (by rw [left.messageCursor]; omega), left.kept a below]
  written := by
    have same : after.data.load p.messageCursor first.length =
        middle.data.load p.messageCursor first.length :=
      Memory.load_congr fun a _ below => right.kept a (by rw [left.messageCursor]; exact below)
    have behind := right.written
    rw [left.messageCursor] at behind
    rw [List.length_append, Memory.load_add, same, left.written, behind]

/-- An element with a size slot was opened at the cursor of `p`, and some of
its contents are written.  The slot holds the offset of the slot around it. -/
structure Opened (p after : OutboundPacketStream) (enclosing : Nat) (contents : Text) : Prop where
  bufferEnd : after.bufferEnd = p.bufferEnd
  elementSizePtr : after.elementSizePtr = some p.messageCursor
  kept : ∀ a < p.messageCursor, after.data a = p.data a
  slot : after.data.load p.messageCursor 4 = littleEndian 4 enclosing
  written : after.data.load (p.messageCursor + 4) contents.length = contents

theorem beginElement_opened {p : OutboundPacketStream} {enclosing : Nat}
    (isOpen : p.elementSizePtr = some enclosing) :
    Opened p (p.beginElement p.messageCursor).1 enclosing [] ∧
      (p.beginElement p.messageCursor).2 = p.messageCursor + 4 := by
  simp only [beginElement, isOpen]
  refine ⟨⟨rfl, rfl, fun a below => Memory.store_of_lt _ below, ?_, rfl⟩, trivial⟩
  have stored := p.data.load_store p.messageCursor (littleEndian 4 enclosing)
  rwa [length_littleEndian] at stored

/-- A store above the contents leaves them alone. -/
theorem Opened.store_above {p after : OutboundPacketStream} {enclosing a : Nat} {contents : Text}
    (opened : Opened p after enclosing contents)
    (above : p.messageCursor + 4 + contents.length ≤ a) (block : Text) :
    Opened p { after with data := after.data.store a block } enclosing contents where
  bufferEnd := opened.bufferEnd
  elementSizePtr := opened.elementSizePtr
  kept b below := by
    rw [← opened.kept b below]
    exact Memory.store_of_lt _ (by omega)
  slot := by
    rw [← opened.slot]
    exact Memory.load_store_of_disjoint (.inl (by omega))
  written := (Memory.load_store_of_disjoint (.inl above)).trans opened.written

/-- A store behind the contents extends them. -/
theorem Opened.store {p after : OutboundPacketStream} {enclosing : Nat} {contents : Text}
    (opened : Opened p after enclosing contents) (block : Text) :
    Opened p
      { after with
        data := after.data.store (p.messageCursor + 4 + contents.length) block }
      enclosing (contents ++ block) where
  bufferEnd := opened.bufferEnd
  elementSizePtr := opened.elementSizePtr
  kept := (opened.store_above (Nat.le_refl _) block).kept
  slot := (opened.store_above (Nat.le_refl _) block).slot
  written := Memory.load_store_append opened.written block

/-- Appended bytes extend the contents. -/
theorem Opened.append {p middle after : OutboundPacketStream} {enclosing : Nat}
    {contents bytes : Text} (opened : Opened p middle enclosing contents)
    (cursor : middle.messageCursor = p.messageCursor + 4 + contents.length)
    (appended : Appended middle after bytes) :
    Opened p after enclosing (contents ++ bytes) where
  bufferEnd := appended.bufferEnd.trans opened.bufferEnd
  elementSizePtr := appended.elementSizePtr.trans opened.elementSizePtr
  kept a below := by rw [appended.kept a (by omega), opened.kept a below]
  slot := by
    rw [← opened.slot]
    exact Memory.load_congr fun a _ below => appended.kept a (by omega)
  written := by
    have same : after.data.load (p.messageCursor + 4) contents.length =
        middle.data.load (p.messageCursor + 4) contents.length :=
      Memory.load_congr fun a _ below => appended.kept a (by omega)
    have behind := appended.written
    rw [cursor] at behind
    rw [List.length_append, Memory.load_add, same, opened.written, behind]

/-- Closing the element writes its size into the slot and reopens the element
around it. -/
theorem Opened.endElement {p after : OutboundPacketStream} {enclosing : Nat} {contents : Text}
    (opened : Opened p after enclosing contents) (isOpen : p.elementSizePtr = some enclosing)
    (below : enclosing < p.messageCursor) (inRange : p.messageCursor < 2 ^ 32)
    (noMessage : after.messageIsInProgress = false)
    (argumentCurrent : after.argumentCurrent = after.messageCursor)
    (cursor : after.messageCursor = p.messageCursor + 4 + contents.length) :
    Appended p (after.endElement after.messageCursor) (sized contents) := by
  have closed : after.endElement after.messageCursor =
      { after with
        data := after.data.store p.messageCursor (bigEndian 4 contents.length)
        elementSizePtr := some enclosing } := by
    have size : p.messageCursor + 4 + contents.length - p.messageCursor - 4 =
        contents.length := by omega
    have previous : ofLittleEndian (after.data.load p.messageCursor 4) = enclosing := by
      rw [opened.slot, ofLittleEndian_littleEndian_of_lt (by omega)]
    have notOutermost : p.messageCursor ≠ 0 := by omega
    simp only [OutboundPacketStream.endElement, opened.elementSizePtr]
    rw [previous, cursor, size]
  rw [closed]
  refine ⟨⟨noMessage, argumentCurrent, ?_⟩, opened.bufferEnd, isOpen.symm, ?_, ?_, ?_⟩
  · intro sizePtr isPtr
    cases isPtr
    simp only [cursor]
    omega
  · simp only [cursor, length_sized]
    omega
  · intro a aBelow
    rw [← opened.kept a aBelow]
    exact Memory.store_of_lt _ aBelow
  · have slot := after.data.load_store p.messageCursor (bigEndian 4 contents.length)
    rw [length_bigEndian] at slot
    rw [length_sized, Memory.load_add, slot,
      Memory.load_store_of_disjoint (.inr (by rw [length_bigEndian])), opened.written, sized]

/-! ## Messages -/

/-- A message is in progress in the element opened at the cursor of `p`: its
padded address and the arguments so far are written, their type tags stand
reversed at the end of the buffer. -/
structure Composing (p after : OutboundPacketStream) (enclosing : Nat) (address : Text)
    (args : List (OfxOscArg Text)) : Prop where
  opened : Opened p after enclosing (address ++ encodeArguments args)
  inProgress : after.messageIsInProgress = true
  messageCursor : after.messageCursor = p.messageCursor + 4 + address.length
  argumentCurrent : after.argumentCurrent = after.messageCursor + (encodeArguments args).length
  typeTagsCurrent : after.typeTagsCurrent + args.length = after.bufferEnd
  typeTags : after.data.load after.typeTagsCurrent args.length = (args.map typeTag).reverse

theorem beginMessage_composing {p : OutboundPacketStream} {enclosing : Nat} (idle : p.Idle)
    (isOpen : p.elementSizePtr = some enclosing) (address : Text)
    (space : p.messageCursor + 4 + roundUp4 (address.length + 1) + 4 ≤ p.bufferEnd) :
    ∃ after, p.beginMessage address = .ok after ∧
      Composing p after enclosing (pad4 (address ++ [0])) [] := by
  have enough : ¬ p.size + p.sizeSlot + roundUp4 (address.length + 1) + 4 > p.bufferEnd := by
    rw [idle.size_add_sizeSlot isOpen]
    omega
  use p.startMessage address
  constructor
  · rw [beginMessage, if_neg (by simp [idle.noMessage]), if_neg enough]
  · rcases beginElement_opened isOpen with ⟨opened, contents⟩
    have stored := opened.store (pad4 (address ++ [0]))
    simp only [List.length_nil, Nat.add_zero, List.nil_append] at stored
    simp only [startMessage, contents]
    refine ⟨?_, rfl, rfl, by simp [encodeArguments], rfl, rfl⟩
    have noArguments : pad4 (address ++ [0]) ++ encodeArguments [] = pad4 (address ++ [0]) := by
      simp [encodeArguments]
    rw [noArguments]
    exact ⟨stored.bufferEnd, stored.elementSizePtr, stored.kept, stored.slot, stored.written⟩

/-- Each branch of the sender puts the tag and the encoding of its argument. -/
theorem appendArgument_eq (p : OutboundPacketStream) {argument : OfxOscArg Text}
    (noNul : ∀ text, argument = .string text → 0 ∉ text) :
    appendArgument p argument = p.putArgument (typeTag argument) (encodeArgument argument) := by
  cases argument with
  | int32 value => rfl
  | float value => rfl
  | string text => rw [appendArgument, cStr_eq_self (noNul text rfl), putString]; rfl
  | blob bytes => rfl

theorem appendArgument_composing {p before : OutboundPacketStream} {enclosing : Nat}
    {address : Text} {args : List (OfxOscArg Text)} {argument : OfxOscArg Text}
    (composing : Composing p before enclosing address args)
    (noNul : ∀ text, argument = .string text → 0 ∉ text)
    (space : p.messageCursor + 4 + address.length + (encodeArguments (args ++ [argument])).length +
      roundUp4 (args.length + 3) ≤ p.bufferEnd) :
    ∃ after, appendArgument before argument = .ok after ∧
      Composing p after enclosing address (args ++ [argument]) := by
  rcases composing with
    ⟨opened, inProgress, messageCursor, argumentCurrent, typeTagsCurrent, typeTags⟩
  have bufferEnd := opened.bufferEnd
  have encoded : encodeArguments (args ++ [argument]) =
      encodeArguments args ++ encodeArgument argument := by
    simp [encodeArguments]
  rw [encoded, List.length_append] at space
  have room := le_roundUp4 (args.length + 3)
  have count : before.bufferEnd - before.typeTagsCurrent = args.length := by omega
  rw [appendArgument_eq before noNul, putArgument, if_neg (by rw [count]; omega)]
  refine ⟨_, rfl, ?_⟩
  have behind : before.argumentCurrent =
      p.messageCursor + 4 + (address ++ encodeArguments args).length := by
    rw [List.length_append]
    omega
  -- the tag lies above everything written so far, and the argument below the tag
  have tagAbove : p.messageCursor + 4 + (address ++ encodeArguments args).length ≤
      before.typeTagsCurrent - 1 := by omega
  have tagged := opened.store_above tagAbove [typeTag argument]
  have extended := tagged.store (encodeArgument argument)
  rw [List.append_assoc, ← encoded, ← behind] at extended
  refine ⟨⟨extended.bufferEnd, extended.elementSizePtr, extended.kept, extended.slot,
    extended.written⟩, inProgress, messageCursor, ?_, ?_, ?_⟩
  · simp only [argumentCurrent, encoded, List.length_append]
    omega
  · simp only [List.length_append, List.length_singleton]
    omega
  · have oneMore : args.length + 1 = 1 + args.length := Nat.add_comm _ _
    have above : before.typeTagsCurrent - 1 + 1 = before.typeTagsCurrent := by omega
    simp only [List.length_append, List.length_singleton, List.map_append, List.map_cons,
      List.map_nil, List.reverse_append, List.reverse_cons, List.reverse_nil, List.nil_append,
      List.singleton_append]
    rw [Memory.load_succ, above,
      Memory.load_store_of_disjoint (.inr (by omega)),
      Memory.load_store_of_disjoint (.inr (by simp; omega)), typeTags,
      Memory.store_of_ge (by omega)]
    congr 1
    exact Memory.store_of_mem (i := 0) (by simp)

/-- The argument loop. -/
theorem appendArguments_composing {p before : OutboundPacketStream} {enclosing : Nat}
    {address : Text} (args rest : List (OfxOscArg Text))
    (composing : Composing p before enclosing address args)
    (noNul : ∀ text, .string text ∈ rest → 0 ∉ text)
    (space : p.messageCursor + 4 + address.length + (encodeArguments (args ++ rest)).length +
      roundUp4 ((args ++ rest).length + 2) ≤ p.bufferEnd) :
    ∃ after, rest.foldlM appendArgument before = .ok after ∧
      Composing p after enclosing address (args ++ rest) := by
  induction rest generalizing args before with
  | nil => exact ⟨before, rfl, by rwa [List.append_nil]⟩
  | cons argument rest ih =>
      have encoded : encodeArguments (args ++ argument :: rest) =
          encodeArguments (args ++ [argument]) ++ encodeArguments rest := by
        simp [encodeArguments]
      have fewer : roundUp4 (args.length + 3) ≤
          roundUp4 ((args ++ argument :: rest).length + 2) :=
        roundUp4_mono (by simp only [List.length_append, List.length_cons]; omega)
      have argumentNoNul : ∀ text, argument = .string text → 0 ∉ text :=
        fun text isString => noNul text (isString ▸ List.mem_cons_self)
      rcases appendArgument_composing composing argumentNoNul
        (by rw [encoded, List.length_append] at space; omega) with ⟨middle, appended, composed⟩
      rcases ih (args ++ [argument]) composed
        (fun text mem => noNul text (List.mem_cons_of_mem _ mem))
        (by rwa [List.append_assoc, List.singleton_append]) with ⟨after, folded, done⟩
      rw [List.append_assoc, List.singleton_append] at done
      rw [List.foldlM_cons, appended]
      exact ⟨after, folded, done⟩

/-- The block of type tags as the stream pads it. -/
theorem encodeTypeTags_eq (args : List (OfxOscArg Text)) :
    encodeTypeTags args = 0x2c :: args.map typeTag ++
      List.replicate (roundUp4 (args.length + 2) - (args.length + 1)) 0 := by
  have room := le_roundUp4 (args.length + 2)
  have oneMore : roundUp4 (args.length + 2) - (args.length + 1) =
      (roundUp4 (args.length + 2) - (args.length + 2)) + 1 := by omega
  rw [oneMore, List.replicate_succ]
  simp [encodeTypeTags, pad4]

/-- Whichever branch places the type tags, they and the arguments end up behind
the cursor. -/
theorem placeTypeTags_spec {p : OutboundPacketStream} {args : List (OfxOscArg Text)}
    (typeTagsCurrent : p.typeTagsCurrent + args.length = p.bufferEnd)
    (typeTags : p.data.load p.typeTagsCurrent args.length = (args.map typeTag).reverse)
    (argumentCurrent : p.argumentCurrent = p.messageCursor + (encodeArguments args).length)
    (arguments : p.data.load p.messageCursor (encodeArguments args).length =
      encodeArguments args) :
    ∃ data : Memory UInt8,
      p.placeTypeTags =
        { p with
          data := data
          typeTagsCurrent := p.bufferEnd
          messageCursor := p.messageCursor +
            (encodeTypeTags args ++ encodeArguments args).length } ∧
      (∀ a < p.messageCursor, data a = p.data a) ∧
      data.load p.messageCursor (encodeTypeTags args ++ encodeArguments args).length =
        encodeTypeTags args ++ encodeArguments args := by
  have count : p.bufferEnd - p.typeTagsCurrent = args.length := by omega
  have slotLength := length_encodeTypeTags args
  cases args with
  | nil =>
      refine ⟨p.data.store p.messageCursor (encodeTypeTags []), ?_,
        fun a below => Memory.store_of_lt _ below, ?_⟩
      · have atEnd : p.bufferEnd = p.typeTagsCurrent := typeTagsCurrent.symm
        rw [List.length_nil] at count
        rw [placeTypeTags, count]
        simp only [ne_eq, not_true_eq_false, if_false, atEnd]
        rfl
      · simp only [encodeArguments, List.flatMap_nil, List.append_nil]
        exact Memory.load_store _ _ _
  | cons argument rest =>
      have nonempty : (argument :: rest).length ≠ 0 := Nat.succ_ne_zero _
      generalize argument :: rest = args at *
      have argumentsSize : p.argumentCurrent - p.messageCursor =
          (encodeArguments args).length := by omega
      let moved := p.data.store (p.messageCursor + (encodeTypeTags args).length)
        (encodeArguments args)
      refine ⟨moved.store p.messageCursor (encodeTypeTags args), ?_, fun a below => ?_, ?_⟩
      · simp only [placeTypeTags, count, argumentsSize, typeTags, arguments, ne_eq, nonempty,
          not_false_eq_true, if_true, List.reverse_reverse, ← encodeTypeTags_eq, List.length_append,
          slotLength, moved]
      · exact (Memory.store_of_lt _ below).trans (Memory.store_of_lt _ (by omega))
      · rw [List.length_append, Memory.load_add, Memory.load_store,
          Memory.load_store_of_disjoint (.inr (Nat.le_refl _)), Memory.load_store]

/-- `EndMessage` completes the element. -/
theorem endMessage_appended {p before : OutboundPacketStream} {enclosing : Nat} {address : Text}
    {args : List (OfxOscArg Text)} (composing : Composing p before enclosing address args)
    (isOpen : p.elementSizePtr = some enclosing) (below : enclosing < p.messageCursor)
    (inRange : p.messageCursor < 2 ^ 32) :
    ∃ after, before.endMessage = .ok after ∧
      Appended p after (sized (address ++ (encodeTypeTags args ++ encodeArguments args))) := by
  rcases composing with
    ⟨opened, inProgress, messageCursor, argumentCurrent, typeTagsCurrent, typeTags⟩
  rcases Memory.load_of_load_append opened.written with ⟨addressWritten, argumentsWritten⟩
  rw [← messageCursor] at argumentsWritten
  rcases placeTypeTags_spec typeTagsCurrent typeTags argumentCurrent argumentsWritten with
    ⟨data, placed, kept, written⟩
  let ended : OutboundPacketStream :=
    { before.placeTypeTags with
      argumentCurrent := before.placeTypeTags.messageCursor, messageIsInProgress := false }
  have cursor : ended.messageCursor = p.messageCursor + 4 +
      (address ++ (encodeTypeTags args ++ encodeArguments args)).length := by
    simp only [ended, placed, messageCursor, List.length_append]
    omega
  have reopened : Opened p ended enclosing
      (address ++ (encodeTypeTags args ++ encodeArguments args)) := by
    have endedData : ended.data = data := congrArg OutboundPacketStream.data placed
    refine ⟨?_, ?_, fun a aBelow => ?_, ?_, ?_⟩
    · simpa only [ended, placed] using opened.bufferEnd
    · simpa only [ended, placed] using opened.elementSizePtr
    · rw [endedData, kept a (by omega), opened.kept a aBelow]
    · rw [endedData, ← opened.slot]
      exact Memory.load_congr fun a _ above => kept a (by omega)
    · have same : data.load (p.messageCursor + 4) address.length =
          before.data.load (p.messageCursor + 4) address.length :=
        Memory.load_congr fun a _ above => kept a (by omega)
      rw [endedData, List.length_append, Memory.load_add, same, addressWritten, ← messageCursor,
        written]
  exact ⟨ended.endElement ended.messageCursor, if_pos inProgress,
    reopened.endElement isOpen below inRange rfl rfl cursor⟩

end OutboundPacketStream

open OutboundPacketStream

/-- A message that fits is appended behind its size. -/
theorem appendMessage_appended {p : OutboundPacketStream} {enclosing : Nat} (idle : p.Idle)
    (isOpen : p.elementSizePtr = some enclosing) {message : OfxOscMessage Text}
    (encodable : message.Encodable) (inRange : p.bufferEnd < 2 ^ 32)
    (space : p.messageCursor + (sized (encodeMessage message)).length ≤ p.bufferEnd) :
    ∃ after, appendMessage message p = .ok after ∧
      Appended p after (sized (encodeMessage message)) := by
  rw [length_sized, encodeMessage, List.length_append, List.length_append, length_pad4,
    length_encodeTypeTags, List.length_append, List.length_singleton] at space
  have tagSlot : 2 ≤ roundUp4 (message.args.length + 2) :=
    Nat.le_trans (Nat.le_add_left 2 _) (le_roundUp4 _)
  have tagSlotMod := roundUp4_mod (message.args.length + 2)
  rcases beginMessage_composing idle isOpen message.address (by omega) with ⟨begun, started, empty⟩
  have argumentSpace : p.messageCursor + 4 + (pad4 (message.address ++ [0])).length +
      (encodeArguments ([] ++ message.args)).length +
      roundUp4 (([] ++ message.args).length + 2) ≤ p.bufferEnd := by
    rw [length_pad4, List.length_append, List.length_singleton, List.nil_append]
    omega
  rcases appendArguments_composing [] message.args empty encodable.strings_noNul argumentSpace with
    ⟨filled, appended, composing⟩
  rcases endMessage_appended composing isOpen (idle.slot_below enclosing isOpen) (by omega) with
    ⟨after, ended, written⟩
  use after
  constructor
  · rw [appendMessage, OfxOscMessage.getAddress, cStr_eq_self encodable.address_noNul, started]
    simp only [bind, Except.bind, appended]
    exact ended
  · rwa [encodeMessage, List.append_assoc]

/-- The message loop. -/
theorem appendMessages_appended {enclosing : Nat} (messages : List (OfxOscMessage Text))
    {p : OutboundPacketStream} (idle : p.Idle) (isOpen : p.elementSizePtr = some enclosing)
    (encodable : ∀ message ∈ messages, message.Encodable) (inRange : p.bufferEnd < 2 ^ 32)
    (space : p.messageCursor + (encodeMessages messages).length ≤ p.bufferEnd) :
    ∃ after, appendMessages messages p = .ok after ∧
      Appended p after (encodeMessages messages) := by
  induction messages generalizing p with
  | nil => exact ⟨p, rfl, Appended.refl idle⟩
  | cons message rest ih =>
      rw [encodeMessages, List.flatMap_cons, List.length_append] at space
      rcases appendMessage_appended idle isOpen (encodable message List.mem_cons_self) inRange
        (by omega) with ⟨middle, first, appended⟩
      rcases ih appended.idle (appended.elementSizePtr.trans isOpen)
        (fun later mem => encodable later (List.mem_cons_of_mem _ mem))
        (by rwa [appended.bufferEnd])
        (by rw [appended.messageCursor, appended.bufferEnd, encodeMessages]; omega) with
        ⟨after, remaining, done⟩
      rw [appendMessages, List.foldlM_cons, first]
      exact ⟨after, remaining, appended.trans done⟩

/-- Messages behind what is already appended. -/
theorem OutboundPacketStream.Appended.appendMessages {p middle : OutboundPacketStream}
    {enclosing : Nat} {bytes : Text}
    (appended : Appended p middle bytes) (isOpen : p.elementSizePtr = some enclosing)
    (inRange : p.bufferEnd < 2 ^ 32) {messages : List (OfxOscMessage Text)}
    (encodable : ∀ message ∈ messages, message.Encodable)
    (space : p.messageCursor + (bytes ++ encodeMessages messages).length ≤ p.bufferEnd) :
    ∃ last, Osc.appendMessages messages middle = .ok last ∧
      Appended p last (bytes ++ encodeMessages messages) := by
  have middleEnd := appended.bufferEnd
  have cursor := appended.messageCursor
  rw [List.length_append] at space
  rcases appendMessages_appended messages appended.idle (appended.elementSizePtr.trans isOpen)
    encodable (by omega) (by omega) with ⟨last, own, lastAppended⟩
  exact ⟨last, own, appended.trans lastAppended⟩

/-! ## Bundles -/

theorem beginBundle_opened {p : OutboundPacketStream} {enclosing : Nat} (idle : p.Idle)
    (isOpen : p.elementSizePtr = some enclosing) (space : p.messageCursor + 20 ≤ p.bufferEnd) :
    ∃ after, p.beginBundle immediately = .ok after ∧ after.Idle ∧
      Opened p after enclosing bundleHeader ∧
      after.messageCursor = p.messageCursor + 4 + bundleHeader.length := by
  have enough : ¬ p.size + p.sizeSlot + 16 > p.bufferEnd := by
    rw [idle.size_add_sizeSlot isOpen]
    omega
  rcases beginElement_opened isOpen with ⟨opened, contents⟩
  have stored := opened.store bundleHeader
  simp only [List.length_nil, Nat.add_zero, List.nil_append] at stored
  refine ⟨p.startBundle immediately, ?_, ?_, ?_, ?_⟩
  · rw [beginBundle, if_neg (by simp [idle.noMessage]), if_neg enough]
  · simp only [startBundle, contents]
    refine ⟨?_, rfl, fun sizePtr isPtr => ?_⟩
    · simpa only [beginElement, isOpen] using idle.noMessage
    · rw [opened.elementSizePtr] at isPtr
      cases isPtr
      simp only
      omega
  · simp only [startBundle, contents]
    exact ⟨stored.bufferEnd, stored.elementSizePtr, stored.kept, stored.slot, stored.written⟩
  · simp only [startBundle, contents, length_bundleHeader]

mutual

/-- A bundle inside another is appended behind its size. -/
theorem appendBundle_appended {p : OutboundPacketStream} {enclosing : Nat} (idle : p.Idle)
    (isOpen : p.elementSizePtr = some enclosing) (inRange : p.bufferEnd < 2 ^ 32) :
    ∀ bundle : OfxOscBundle Text, (∀ message ∈ bundle.flatten, message.Encodable) →
      p.messageCursor + (sized (encodeBundle bundle)).length ≤ p.bufferEnd →
      ∃ after, appendBundle bundle p = .ok after ∧ Appended p after (sized (encodeBundle bundle))
  | .mk messages bundles, encodable, space => by
      rw [OfxOscBundle.flatten] at encodable
      rw [length_sized, encodeBundle, List.length_append, List.length_append,
        length_bundleHeader] at space
      rcases beginBundle_opened idle isOpen (by omega) with
        ⟨begun, started, begunIdle, opened, cursor⟩
      rw [length_bundleHeader] at cursor
      have bufferEnd := opened.bufferEnd
      rcases appendBundles_appended begunIdle opened.elementSizePtr (by rwa [bufferEnd]) bundles
        (fun message mem => encodable message (List.mem_append_left _ mem))
        (by rw [cursor, bufferEnd]; omega) with ⟨middle, nested, middleAppended⟩
      rcases middleAppended.appendMessages opened.elementSizePtr (by rwa [bufferEnd])
        (fun message mem => encodable message (List.mem_append_right _ mem))
        (by rw [cursor, bufferEnd, List.length_append]; omega) with ⟨last, own, contents⟩
      have filled := opened.append (by rw [cursor, length_bundleHeader]) contents
      rw [← List.append_assoc] at filled
      have closed := filled.endElement isOpen (idle.slot_below enclosing isOpen) (by omega)
        contents.idle.noMessage contents.idle.argumentCurrent
        (by simp only [contents.messageCursor, cursor, List.length_append, length_bundleHeader];
            omega)
      refine ⟨_, ?_, by rwa [encodeBundle]⟩
      have isElement : last.elementSizePtr.isNone = false := by rw [filled.elementSizePtr]; rfl
      have noMessage : last.messageIsInProgress = false := contents.idle.noMessage
      rw [appendBundle, started]
      simp only [bind, Except.bind, nested, own, endBundle, isElement, noMessage,
        Bool.false_eq_true, if_false]

/-- The bundle loop. -/
theorem appendBundles_appended {p : OutboundPacketStream} {enclosing : Nat} (idle : p.Idle)
    (isOpen : p.elementSizePtr = some enclosing) (inRange : p.bufferEnd < 2 ^ 32) :
    ∀ bundles : List (OfxOscBundle Text),
      (∀ message ∈ OfxOscBundle.flattenAll bundles, message.Encodable) →
      p.messageCursor + (encodeBundles bundles).length ≤ p.bufferEnd →
      ∃ after, appendBundles bundles p = .ok after ∧ Appended p after (encodeBundles bundles)
  | [], _, _ => ⟨p, rfl, Appended.refl idle⟩
  | bundle :: rest, encodable, space => by
      rw [OfxOscBundle.flattenAll] at encodable
      rw [encodeBundles, List.length_append] at space
      rcases appendBundle_appended idle isOpen inRange bundle
        (fun message mem => encodable message (List.mem_append_left _ mem)) (by omega) with
        ⟨middle, first, appended⟩
      rcases appendBundles_appended appended.idle (appended.elementSizePtr.trans isOpen)
        (by rwa [appended.bufferEnd]) rest
        (fun message mem => encodable message (List.mem_append_right _ mem))
        (by rw [appended.messageCursor, appended.bufferEnd]; omega) with
        ⟨after, remaining, done⟩
      rw [appendBundles, first]
      exact ⟨after, remaining, appended.trans done⟩

end

/-- The datagram of a bundle that fits the output buffer is its encoding. -/
theorem sendBundle_eq (buffer : Memory UInt8) {bundle : OfxOscBundle Text}
    (encodable : ∀ message ∈ bundle.flatten, message.Encodable)
    (fits : (encodeBundle bundle).length ≤ 32768) :
    sendBundle buffer bundle = .ok (encodeBundle bundle) := by
  cases bundle with
  | mk messages bundles =>
      rw [OfxOscBundle.flatten] at encodable
      rw [encodeBundle, List.length_append, List.length_append, length_bundleHeader] at fits
      let begun := (OutboundPacketStream.construct buffer 32768).startBundle immediately
      have cursor : begun.messageCursor = 16 := rfl
      have bufferEnd : begun.bufferEnd = 32768 := rfl
      have outermost : begun.elementSizePtr = some 0 := rfl
      have begunIdle : begun.Idle := by
        refine ⟨rfl, rfl, fun sizePtr isPtr => ?_⟩
        cases isPtr
        exact Nat.zero_lt_succ 15
      rcases appendBundles_appended begunIdle outermost (by rw [bufferEnd]; decide) bundles
        (fun message mem => encodable message (List.mem_append_left _ mem))
        (by rw [cursor, bufferEnd]; omega) with ⟨middle, nested, middleAppended⟩
      rcases middleAppended.appendMessages outermost (by rw [bufferEnd]; decide)
        (fun message mem => encodable message (List.mem_append_right _ mem))
        (by rw [bufferEnd, cursor, List.length_append]; omega) with ⟨last, own, contents⟩
      have lastCursor := contents.messageCursor
      rw [cursor] at lastCursor
      have header : last.data.load 0 16 = bundleHeader := by
        have kept : last.data.load 0 16 = begun.data.load 0 16 :=
          Memory.load_congr fun a _ below => contents.kept a (by rw [cursor]; omega)
        rw [kept]
        exact buffer.load_store 0 bundleHeader
      have written := contents.written
      rw [cursor] at written
      have appended : appendBundle (.mk messages bundles) (.construct buffer 32768) =
          .ok { last with elementSizePtr := none } := by
        have noMessage : last.messageIsInProgress = false := contents.idle.noMessage
        have isElement : last.elementSizePtr = some 0 := contents.elementSizePtr.trans outermost
        have started : (OutboundPacketStream.construct buffer 32768).beginBundle immediately =
            .ok begun := rfl
        rw [appendBundle, started]
        simp only [bind, Except.bind, nested, own, endBundle, endElement, isElement, noMessage,
          Option.isNone_some, Bool.false_eq_true, if_false]
      have size : ({ last with elementSizePtr := none } : OutboundPacketStream).size =
          16 + (encodeBundles bundles ++ encodeMessages messages).length := by
        rw [← lastCursor, ← contents.idle.argumentCurrent]
        exact if_neg (by simp [contents.idle.noMessage])
      rw [sendBundle, appended]
      simp only [bind, Except.bind, pure, Except.pure, size]
      rw [Memory.load_add, header, Nat.zero_add, written, encodeBundle, List.append_assoc]

end OfxPrimes.Osc
