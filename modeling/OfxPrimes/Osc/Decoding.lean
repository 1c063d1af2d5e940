import OfxPrimes.Osc.Grammar
import OfxPrimes.Osc.Received

/-!
# The receiver decodes the grammar

A datagram that lies in the data buffer is read position by position: strings,
arguments and whole messages, each against the grammar in both directions.  A
message is processed to its end, with its blobs inside the datagram, exactly
when the grammar has it.  What an earlier datagram left in the data buffer
makes no difference.
-/

namespace OfxPrimes.Osc

open OfxPrimes.Bytes

/-! ## The datagram in the data buffer -/

/-- The datagram lies at the start of the memory. -/
def Holds (memory : Memory UInt8) (datagram : Text) : Prop :=
  memory.load 0 datagram.length = datagram

theorem holds_store (buffer : Memory UInt8) (datagram : Text) :
    Holds (buffer.store 0 datagram) datagram :=
  buffer.load_store 0 datagram

section Buffer

variable {memory : Memory UInt8} {datagram : Text}

theorem Holds.getElem? (holds : Holds memory datagram) {p : Nat} (inside : p < datagram.length) :
    datagram[p]? = some (memory p) := by
  have whole := memory.getElem?_load 0 inside
  rwa [holds, Nat.zero_add] at whole

theorem Holds.eq_zero_iff (holds : Holds memory datagram) {p : Nat}
    (inside : p < datagram.length) : memory p = 0 ↔ datagram[p]? = some 0 := by
  rw [holds.getElem? inside, Option.some.injEq]

theorem Holds.load (holds : Holds memory datagram) {p count : Nat}
    (inside : p + count ≤ datagram.length) :
    memory.load p count = (datagram.drop p).take count := by
  apply List.ext_getElem?
  intro i
  rw [List.getElem?_take, List.getElem?_drop]
  by_cases below : i < count
  · rw [if_pos below, memory.getElem?_load p below, holds.getElem? (by omega)]
  · rw [if_neg below, List.getElem?_eq_none (by rw [Memory.length_load]; omega)]

theorem Holds.wordAt (holds : Holds memory datagram) {p : Nat}
    (inside : p + 4 ≤ datagram.length) : toUInt32 memory p = wordAt datagram p := by
  rw [toUInt32, holds.load inside, Osc.wordAt]

/-- A string that ends inside the datagram is read to its NUL. -/
theorem Holds.stringAt (holds : Holds memory datagram) (fits : datagram.length ≤ maxBufferSize)
    {p nul : Nat} (behind : p ≤ nul) (isNul : datagram[nul]? = some 0) :
    cStringAt memory p = stringAt datagram p := by
  have nulInside : nul < datagram.length := (List.getElem?_eq_some_iff.mp isNul).1
  have front : memory.load p (datagram.length - p) = datagram.drop p := by
    rw [holds.load (by omega), List.take_of_length_le (by rw [List.length_drop])]
  have split : maxBufferSize = (datagram.length - p) + (maxBufferSize - (datagram.length - p)) := by
    omega
  have mem : (0 : UInt8) ∈ datagram.drop p := by
    have found : (datagram.drop p)[nul - p]? = some 0 := by
      rw [List.getElem?_drop, Nat.add_sub_cancel' behind, isNul]
    exact List.mem_of_getElem? found
  rw [cStringAt, split, Memory.load_add, front, cStr_append_of_mem mem, Osc.stringAt]

/-! ## Strings -/

/-- The loop stops at the first tested byte that is zero or at the end. -/
theorem findStr4EndLoop_eq {last fuel p blocks : Nat} (enough : last ≤ p + fuel)
    (earlier : ∀ block < blocks, p + 4 * block < last ∧ memory (p + 4 * block) ≠ 0)
    (stops : last ≤ p + 4 * blocks ∨ memory (p + 4 * blocks) = 0) :
    findStr4EndLoop memory last fuel p = p + 4 * blocks := by
  induction blocks generalizing fuel p with
  | zero =>
      cases fuel with
      | zero => rfl
      | succ fuel =>
          rw [findStr4EndLoop, if_neg]
          · rfl
          · rintro ⟨below, nonzero⟩
            rcases stops with atEnd | isZero
            · omega
            · exact nonzero isZero
  | succ blocks ih =>
      have first : p < last ∧ memory p ≠ 0 := earlier 0 (Nat.zero_lt_succ blocks)
      cases fuel with
      | zero => omega
      | succ fuel =>
          have shift : ∀ block, p + 4 + 4 * block = p + 4 * (block + 1) := fun block => by omega
          rw [findStr4EndLoop, if_pos first, ← shift]
          apply ih (by omega)
          · intro block below
            rw [shift]
            exact earlier (block + 1) (Nat.succ_lt_succ below)
          · rwa [shift]

/-- A search that fails its end stops at some tested byte. -/
theorem exists_findStr4EndLoop (memory : Memory UInt8) {last fuel p : Nat}
    (enough : last ≤ p + fuel) :
    ∃ blocks, findStr4EndLoop memory last fuel p = p + 4 * blocks ∧
      (∀ block < blocks, p + 4 * block < last ∧ memory (p + 4 * block) ≠ 0) := by
  induction fuel generalizing p with
  | zero => exact ⟨0, rfl, fun _ below => absurd below (Nat.not_lt_zero _)⟩
  | succ fuel ih =>
      rw [findStr4EndLoop]
      by_cases goesOn : p < last ∧ memory p ≠ 0
      · rcases ih (p := p + 4) (by omega) with ⟨blocks, found, earlier⟩
        refine ⟨blocks + 1, ?_, ?_⟩
        · rw [if_pos goesOn, found]
          omega
        · intro block below
          cases block with
          | zero => exact goesOn
          | succ block =>
              have shift : p + 4 * (block + 1) = p + 4 + 4 * block := by omega
              rw [shift]
              exact earlier block (Nat.lt_of_succ_lt_succ below)
      · rw [if_neg goesOn]
        exact ⟨0, rfl, fun _ below => absurd below (Nat.not_lt_zero _)⟩

/-- The end of a padded string is where the loop stops. -/
theorem Holds.findStr4EndLoop_eq (holds : Holds memory datagram) {last fuel p blocks : Nat}
    (enough : last ≤ p + 3 + fuel) (inTime : p + 4 * blocks ≤ last)
    (inside : p + 4 * blocks + 3 < datagram.length)
    (isZero : datagram[p + 4 * blocks + 3]? = some 0)
    (earlier : ∀ block < blocks, datagram[p + 4 * block + 3]? ≠ some 0) :
    findStr4EndLoop memory last fuel (p + 3) = p + 4 * blocks + 3 := by
  have shift : ∀ block, p + 4 * block + 3 = p + 3 + 4 * block := fun block => by omega
  rw [shift]
  apply Osc.findStr4EndLoop_eq enough
  · intro block below
    rw [← shift, ne_eq, holds.eq_zero_iff (by omega)]
    exact ⟨by omega, earlier block below⟩
  · rw [← shift, holds.eq_zero_iff inside]
    exact .inr isZero

/-- Between aligned positions the checked search only succeeds on padded strings
that end in time. -/
theorem Holds.paddedString_of_findStr4End (holds : Holds memory datagram) {p stop next : Nat}
    (aligned : p % 4 = 0) (stopAligned : stop % 4 = 0) (inside : stop ≤ datagram.length)
    (found : findStr4End memory p stop = some next) :
    PaddedString datagram p next ∧ next ≤ stop := by
  rw [findStr4End] at found
  by_cases outside : p ≥ stop
  · rw [if_pos outside] at found
    cases found
  have pInside : p < datagram.length := by omega
  simp only [if_neg outside, holds.eq_zero_iff pInside] at found
  by_cases startsZero : datagram[p]? = some 0
  · rw [if_pos startsZero] at found
    cases found
    exact ⟨⟨0, rfl, .inl ⟨startsZero, rfl⟩⟩, by omega⟩
  rw [if_neg startsZero] at found
  have enough : stop - 1 ≤ p + 3 + stop := by omega
  rcases exists_findStr4EndLoop memory enough with ⟨blocks, foundAt, earlier⟩
  have within : p + 3 + 4 * blocks < stop := by
    cases blocks with
    | zero => omega
    | succ blocks =>
        have lastTested := (earlier blocks (Nat.lt_succ_self blocks)).1
        omega
  have shift : ∀ block, p + 4 * block + 3 = p + 3 + 4 * block := fun block => by omega
  simp only [foundAt, ne_eq, ite_not, holds.eq_zero_iff (by omega : p + 3 + 4 * blocks < _)]
    at found
  by_cases isZero : datagram[p + 3 + 4 * blocks]? = some 0
  · rw [if_pos isZero] at found
    cases found
    have earlierNonzero : ∀ block < blocks, datagram[p + 4 * block + 3]? ≠ some 0 := by
      intro block below
      rw [shift, ne_eq, ← holds.eq_zero_iff (by omega)]
      exact (earlier block below).2
    rw [← shift] at isZero
    exact ⟨⟨blocks, by omega, .inr ⟨startsZero, isZero, earlierNonzero⟩⟩, by omega⟩
  · rw [if_neg isZero] at found
    cases found

/-- The checked search finds the end of a padded string that ends in time. -/
theorem Holds.findStr4End_of_paddedString (holds : Holds memory datagram) {p stop next : Nat}
    (inside : stop ≤ datagram.length) (isString : PaddedString datagram p next)
    (inTime : next ≤ stop) : findStr4End memory p stop = some next := by
  rcases isString with ⟨blocks, rfl, isString⟩
  have pInside : p < datagram.length := by omega
  have notOutside : ¬p ≥ stop := by omega
  simp only [findStr4End, if_neg notOutside, holds.eq_zero_iff pInside]
  rcases isString with ⟨startsZero, rfl⟩ | ⟨nonzero, isZero, earlier⟩
  · rw [if_pos startsZero]
  · have foundAt : findStr4EndLoop memory (stop - 1) stop (p + 3) = p + 4 * blocks + 3 :=
      holds.findStr4EndLoop_eq (by omega) (by omega) (by omega) isZero earlier
    rw [if_neg nonzero]
    simp only [foundAt, ne_eq, ite_not, holds.eq_zero_iff (by omega : p + 4 * blocks + 3 < _)]
    rw [if_pos isZero]
    rfl

theorem Holds.findStr4End_eq_some_iff (holds : Holds memory datagram) {p stop next : Nat}
    (aligned : p % 4 = 0) (stopAligned : stop % 4 = 0) (inside : stop ≤ datagram.length) :
    findStr4End memory p stop = some next ↔ PaddedString datagram p next ∧ next ≤ stop := by
  constructor
  · exact holds.paddedString_of_findStr4End aligned stopAligned inside
  · rintro ⟨isString, inTime⟩
    exact holds.findStr4End_of_paddedString inside isString inTime

/-- A padded string ends in a NUL. -/
theorem PaddedString.exists_nul {p next : Nat} (isString : PaddedString datagram p next) :
    ∃ nul, p ≤ nul ∧ nul < next ∧ datagram[nul]? = some 0 := by
  rcases isString with ⟨blocks, rfl, ⟨startsZero, rfl⟩ | ⟨-, isZero, -⟩⟩
  · exact ⟨p, Nat.le_refl p, by omega, startsZero⟩
  · exact ⟨p + 4 * blocks + 3, by omega, by omega, isZero⟩

theorem Holds.stringAt_of_padded (holds : Holds memory datagram)
    (fits : datagram.length ≤ maxBufferSize) {p next : Nat}
    (isString : PaddedString datagram p next) :
    cStringAt memory p = Osc.stringAt datagram p := by
  rcases isString.exists_nul with ⟨nul, behind, -, isNul⟩
  exact holds.stringAt fits behind isNul

/-- The unchecked search finds the end of a padded string. -/
theorem Holds.findStr4EndUnchecked_eq (holds : Holds memory datagram)
    (fits : datagram.length ≤ maxBufferSize) {p next : Nat}
    (isString : PaddedString datagram p next) (inside : next ≤ datagram.length) :
    findStr4EndUnchecked memory p = next := by
  rcases isString with ⟨blocks, rfl, isString⟩
  have pInside : p < datagram.length := by omega
  simp only [findStr4EndUnchecked, holds.eq_zero_iff pInside]
  rcases isString with ⟨startsZero, rfl⟩ | ⟨nonzero, isZero, earlier⟩
  · rw [if_pos startsZero]
  · rw [if_neg nonzero, holds.findStr4EndLoop_eq (by omega) (by omega) (by omega) isZero earlier]
    omega

/-! ## Arguments -/

theorem TypeTag.eq_byte_of_ofByte {tag : UInt8} {typeTag : TypeTag}
    (found : TypeTag.ofByte tag = some typeTag) : tag = typeTag.byte := by
  unfold TypeTag.ofByte at found
  split at found <;> cases found <;> rfl

/-- A blob argument lies below the limit. -/
def OfxOscArg.Inside (limit : Nat) : OfxOscArg Blob → Prop
  | .blob value => value.data + value.size ≤ limit
  | _ => True

theorem checkFixed_eq_ok_iff {stop p width next : Nat} (positive : 0 < width) :
    checkFixed stop p width = .ok next ↔ p + width ≤ stop ∧ next = p + width := by
  rw [checkFixed]
  split_ifs with atEnd beyond
  · simp only [false_iff, not_and]
    omega
  · simp only [false_iff, not_and]
    omega
  · simp only [Except.ok.injEq, eq_comm, iff_and_self]
    omega

/-- A string argument passes its check exactly when it is a padded string that
ends in time. -/
theorem Holds.checkString_iff (holds : Holds memory datagram) {p stop next : Nat}
    (aligned : p % 4 = 0) (stopAligned : stop % 4 = 0) (inside : stop ≤ datagram.length) :
    checkArgument memory stop p 0x73 = .ok next ↔ PaddedString datagram p next ∧ next ≤ stop := by
  rw [← holds.findStr4End_eq_some_iff aligned stopAligned inside]
  by_cases atEnd : p = stop
  · have checked : checkArgument memory stop p 0x73 = _ := if_pos atEnd
    rw [checked, findStr4End, if_pos (Nat.le_of_eq atEnd.symm)]
    simp
  · have checked : checkArgument memory stop p 0x73 = _ := if_neg atEnd
    rw [checked]
    cases findStr4End memory p stop <;> simp

/-- An argument of the grammar passes its check and converts. -/
theorem Holds.checked_of_argument (holds : Holds memory datagram)
    (fits : datagram.length ≤ maxBufferSize) {p stop next : Nat} {tag : UInt8}
    {argument : OfxOscArg Blob} (aligned : p % 4 = 0) (stopAligned : stop % 4 = 0)
    (inside : stop ≤ datagram.length) (derived : Argument datagram stop tag p argument next) :
    checkArgument memory stop p tag = .ok next ∧
      convertArgument memory tag p = some argument ∧ argument.Inside datagram.length := by
  cases derived with
  | int32 within =>
      have checked := (checkFixed_eq_ok_iff (by decide)).mpr ⟨within, rfl⟩
      rw [← holds.wordAt (by omega)]
      exact ⟨checked, rfl, trivial⟩
  | float within =>
      have checked := (checkFixed_eq_ok_iff (by decide)).mpr ⟨within, rfl⟩
      rw [← holds.wordAt (by omega)]
      exact ⟨checked, rfl, trivial⟩
  | string isString inTime =>
      have checked := (holds.checkString_iff aligned stopAligned inside).mpr ⟨isString, inTime⟩
      rw [← holds.stringAt_of_padded fits isString]
      exact ⟨checked, rfl, trivial⟩
  | blob within =>
      rw [← holds.wordAt (by omega)] at within ⊢
      exact ⟨rfl, rfl, within⟩

/-- What passes its check and converts, inside the datagram, is an argument of
the grammar. -/
theorem Holds.argument_of_checked (holds : Holds memory datagram)
    (fits : datagram.length ≤ maxBufferSize) {p stop next : Nat} {tag : UInt8}
    {argument : OfxOscArg Blob} (aligned : p % 4 = 0) (stopAligned : stop % 4 = 0)
    (inside : stop ≤ datagram.length) (checked : checkArgument memory stop p tag = .ok next)
    (converted : convertArgument memory tag p = some argument)
    (isInside : argument.Inside datagram.length) :
    Argument datagram stop tag p argument next := by
  rw [convertArgument] at converted
  split at converted
  · next isTag =>
      cases TypeTag.eq_byte_of_ofByte isTag
      cases converted
      rcases (checkFixed_eq_ok_iff (by decide)).mp checked with ⟨within, rfl⟩
      rw [holds.wordAt (by omega)]
      exact .int32 within
  · next isTag =>
      cases TypeTag.eq_byte_of_ofByte isTag
      cases converted
      rcases (checkFixed_eq_ok_iff (by decide)).mp checked with ⟨within, rfl⟩
      rw [holds.wordAt (by omega)]
      exact .float within
  · next isTag =>
      cases TypeTag.eq_byte_of_ofByte isTag
      cases converted
      rcases (holds.checkString_iff aligned stopAligned inside).mp checked with ⟨isString, inTime⟩
      rw [holds.stringAt_of_padded fits isString]
      exact .string isString inTime
  · next isTag =>
      cases TypeTag.eq_byte_of_ofByte isTag
      cases converted
      have within : p + 4 + (toUInt32 memory p).toNat ≤ datagram.length := isInside
      have reached : next = p + 4 + roundUp4 (toUInt32 memory p).toNat :=
        (Except.ok.inj checked).symm
      rw [holds.wordAt (by omega)] at within reached ⊢
      rw [reached]
      exact .blob within
  · cases converted

/-- The iterator of the arguments goes where the check went. -/
theorem Holds.advance_eq (holds : Holds memory datagram)
    (fits : datagram.length ≤ maxBufferSize) {p stop next : Nat} {tag : UInt8}
    {argument : OfxOscArg Blob} (inside : stop ≤ datagram.length)
    (derived : Argument datagram stop tag p argument next) : advance memory tag p = next := by
  cases derived with
  | int32 within => rfl
  | float within => rfl
  | string isString inTime =>
      exact holds.findStr4EndUnchecked_eq fits isString (Nat.le_trans inTime inside)
  | blob within =>
      rw [← holds.wordAt (by omega)]
      rfl

theorem PaddedString.aligned {p next : Nat} (isString : PaddedString datagram p next)
    (aligned : p % 4 = 0) : next % 4 = 0 := by
  rcases isString with ⟨blocks, rfl, -⟩
  omega

theorem Argument.aligned {p stop next : Nat} {tag : UInt8} {argument : OfxOscArg Blob}
    (derived : Argument datagram stop tag p argument next) (aligned : p % 4 = 0) :
    next % 4 = 0 := by
  cases derived with
  | int32 within => omega
  | float within => omega
  | string isString inTime => exact isString.aligned aligned
  | blob within =>
      have rounded := roundUp4_mod (wordAt datagram p).toNat
      omega

/-- Inversion of the loop of `Init`. -/
theorem foldlM_checkArgument_cons {stop p last : Nat} {tag : UInt8} {tags : Text}
    (checked : (tag :: tags).foldlM (checkArgument memory stop) p = .ok last) :
    ∃ next, checkArgument memory stop p tag = .ok next ∧
      tags.foldlM (checkArgument memory stop) next = .ok last := by
  rw [List.foldlM_cons] at checked
  cases first : checkArgument memory stop p tag with
  | error abort =>
      rw [first] at checked
      cases checked
  | ok next =>
      rw [first] at checked
      exact ⟨next, rfl, checked⟩

/-- Inversion of the loop of `ProcessMessage`. -/
theorem convertArguments_cons {p : Nat} {tag : UInt8} {tags : Text} {args : List (OfxOscArg Blob)}
    (converted : convertArguments memory (tag :: tags) p = .ok args) :
    ∃ argument rest, convertArgument memory tag p = some argument ∧
      convertArguments memory tags (advance memory tag p) = .ok rest ∧ args = argument :: rest := by
  rw [convertArguments] at converted
  cases first : convertArgument memory tag p with
  | none =>
      rw [first] at converted
      cases converted
  | some argument =>
      simp only [first] at converted
      cases others : convertArguments memory tags (advance memory tag p) with
      | error abort =>
          rw [others] at converted
          cases converted
      | ok rest =>
          rw [others] at converted
          exact ⟨argument, rest, rfl, rfl, (Except.ok.inj converted).symm⟩

/-- The arguments of the grammar pass the check and convert. -/
theorem Holds.checked_of_arguments (holds : Holds memory datagram)
    (fits : datagram.length ≤ maxBufferSize) {stop : Nat} (stopAligned : stop % 4 = 0)
    (inside : stop ≤ datagram.length) {tags : Text} {p : Nat} {args : List (OfxOscArg Blob)}
    (derived : Arguments datagram stop tags p args) (aligned : p % 4 = 0) :
    (∃ last, tags.foldlM (checkArgument memory stop) p = .ok last) ∧
      convertArguments memory tags p = .ok args ∧
        ∀ argument ∈ args, argument.Inside datagram.length := by
  induction derived with
  | @nil p => exact ⟨⟨p, rfl⟩, rfl, by simp⟩
  | cons first rest ih =>
      rcases holds.checked_of_argument fits aligned stopAligned inside first with
        ⟨checked, converted, isInside⟩
      rcases ih (first.aligned aligned) with ⟨restChecked, restConverted, restInside⟩
      constructor
      · rwa [List.foldlM_cons, checked]
      · constructor
        · rw [convertArguments, converted, holds.advance_eq fits inside first, restConverted]
          rfl
        · exact List.forall_mem_cons.mpr ⟨isInside, restInside⟩

/-- What passes the check and converts, with every blob inside the datagram, are
arguments of the grammar. -/
theorem Holds.arguments_of_checked (holds : Holds memory datagram)
    (fits : datagram.length ≤ maxBufferSize) {stop : Nat} (stopAligned : stop % 4 = 0)
    (inside : stop ≤ datagram.length) {tags : Text} {p last : Nat}
    {args : List (OfxOscArg Blob)} (aligned : p % 4 = 0)
    (checked : tags.foldlM (checkArgument memory stop) p = .ok last)
    (converted : convertArguments memory tags p = .ok args)
    (isInside : ∀ argument ∈ args, argument.Inside datagram.length) :
    Arguments datagram stop tags p args := by
  induction tags generalizing p args with
  | nil =>
      cases converted
      exact .nil
  | cons tag tags ih =>
      rcases foldlM_checkArgument_cons checked with ⟨next, firstChecked, restChecked⟩
      rcases convertArguments_cons converted with
        ⟨argument, rest, firstConverted, restConverted, rfl⟩
      rcases List.forall_mem_cons.mp isInside with ⟨firstInside, restInside⟩
      have first : Argument datagram stop tag p argument next :=
        holds.argument_of_checked fits aligned stopAligned inside firstChecked firstConverted
          firstInside
      rw [holds.advance_eq fits inside first] at restConverted
      exact .cons first (ih (first.aligned aligned) restChecked restConverted restInside)

/-! ## Messages -/

/-- A string that is read is followed by itself in memory. -/
theorem load_cStringAt (p : Nat) :
    memory.load p (cStringAt memory p).length = cStringAt memory p := by
  have isPrefix : cStringAt memory p <+: memory.load p maxBufferSize :=
    List.takeWhile_prefix _
  have shorter := isPrefix.length_le
  rw [Memory.length_load] at shorter
  have split : memory.load p maxBufferSize = memory.load p (cStringAt memory p).length ++
      memory.load (p + (cStringAt memory p).length)
        (maxBufferSize - (cStringAt memory p).length) := by
    rw [← Memory.load_add, Nat.add_sub_cancel' shorter]
  have sameFront := List.prefix_iff_eq_take.mp isPrefix
  rw [split, List.take_left' (Memory.length_load _ _ _)] at sameFront
  exact sameFront.symm

/-- A message without type tags is queued without arguments. -/
theorem processMessage_untagged {endpoint : IpEndpointName} {start size : Nat}
    (parsed : ReceivedMessage.init memory start size = .ok { addressPattern := start }) :
    processMessage memory endpoint start size =
      { queued := [({ address := cStringAt memory start } :
          OfxOscMessage Blob).setRemoteEndpoint endpoint] } := by
  simp [processMessage, parsed, convertArguments]

/-- Where `Init` leaves the pointers of a message with type tags at `tags`. -/
def ReceivedMessage.tagged (memory : Memory UInt8) (start tags arguments : Nat) :
    ReceivedMessage where
  addressPattern := start
  typeTagsBegin := tags + 1
  typeTagsEnd := tags + 1 + (cStringAt memory (tags + 1)).length
  arguments := arguments

/-- A message with type tags is queued when its arguments convert. -/
theorem processMessage_tagged {endpoint : IpEndpointName} {start size tags arguments : Nat}
    {args : List (OfxOscArg Blob)}
    (parsed : ReceivedMessage.init memory start size =
      .ok (ReceivedMessage.tagged memory start tags arguments))
    (converted : convertArguments memory (cStringAt memory (tags + 1)) arguments = .ok args) :
    processMessage memory endpoint start size =
      { queued := [({ address := cStringAt memory start, args := args } :
          OfxOscMessage Blob).setRemoteEndpoint endpoint] } := by
  simp only [processMessage, parsed, ReceivedMessage.tagged, Nat.add_sub_cancel_left,
    load_cStringAt, converted]

/-- Otherwise its processing is cut short. -/
theorem abort_processMessage_tagged {endpoint : IpEndpointName}
    {start size tags arguments : Nat} {abort : Abort}
    (parsed : ReceivedMessage.init memory start size =
      .ok (ReceivedMessage.tagged memory start tags arguments))
    (notConverted : convertArguments memory (cStringAt memory (tags + 1)) arguments =
      .error abort) :
    (processMessage memory endpoint start size).abort = some abort := by
  simp only [processMessage, parsed, ReceivedMessage.tagged, Nat.add_sub_cancel_left,
    load_cStringAt, notConverted]

/-- What `Init` makes of a message whose address ends at `p`. -/
def ReceivedMessage.initBody (memory : Memory UInt8) (start stop p : Nat) :
    Except Abort ReceivedMessage :=
  if p = stop then .ok { addressPattern := start }
  else if memory p ≠ 0x2c then .error (.malformedMessage "type tags not present")
  else if memory (p + 1) = 0 then .ok { addressPattern := start }
  else
    match findStr4End memory p stop with
    | none => .error (.malformedMessage "type tags were not terminated before end of message")
    | some arguments =>
        ((cStringAt memory (p + 1)).foldlM (checkArgument memory stop) arguments).map fun _ =>
          ReceivedMessage.tagged memory start p arguments

/-- `Init` on a message of a legal size whose address is terminated. -/
theorem ReceivedMessage.init_of_address {start size p : Nat} (positive : 0 < size)
    (sizeAligned : size % 4 = 0) (found : findStr4End memory start (start + size) = some p) :
    ReceivedMessage.init memory start size =
      ReceivedMessage.initBody memory start (start + size) p := by
  rw [ReceivedMessage.init, if_neg (Nat.ne_of_gt positive), if_neg (not_not.mpr sizeAligned)]
  simp only [found]
  rfl

/-- Inversion of `Init`. -/
theorem ReceivedMessage.init_eq_ok {start size : Nat} {m : ReceivedMessage}
    (parsed : ReceivedMessage.init memory start size = .ok m) :
    0 < size ∧ size % 4 = 0 ∧ ∃ p, findStr4End memory start (start + size) = some p ∧
      ReceivedMessage.initBody memory start (start + size) p = .ok m := by
  by_cases zero : size = 0
  · rw [ReceivedMessage.init, if_pos zero] at parsed
    cases parsed
  by_cases sizeAligned : size % 4 = 0
  · cases found : findStr4End memory start (start + size) with
    | none =>
        rw [ReceivedMessage.init, if_neg zero, if_neg (not_not.mpr sizeAligned)] at parsed
        simp only [found] at parsed
        cases parsed
    | some p =>
        rw [ReceivedMessage.init_of_address (by omega) sizeAligned found] at parsed
        exact ⟨by omega, sizeAligned, p, rfl, parsed⟩
  · rw [ReceivedMessage.init, if_neg zero, if_pos sizeAligned] at parsed
    cases parsed

/-- Inversion of `initBody`: nothing behind the address, an empty string of type
tags, or type tags that pass the check. -/
theorem ReceivedMessage.initBody_eq_ok {start stop p : Nat} {m : ReceivedMessage}
    (parsed : ReceivedMessage.initBody memory start stop p = .ok m) :
    p = stop ∨ p ≠ stop ∧ memory p = 0x2c ∧
      (memory (p + 1) = 0 ∨ memory (p + 1) ≠ 0 ∧ ∃ arguments last,
        findStr4End memory p stop = some arguments ∧
          (cStringAt memory (p + 1)).foldlM (checkArgument memory stop) arguments = .ok last ∧
          m = ReceivedMessage.tagged memory start p arguments) := by
  rw [ReceivedMessage.initBody] at parsed
  by_cases atEnd : p = stop
  · exact .inl atEnd
  rw [if_neg atEnd] at parsed
  by_cases comma : memory p = 0x2c
  · rw [if_neg (not_not.mpr comma)] at parsed
    by_cases empty : memory (p + 1) = 0
    · exact .inr ⟨atEnd, comma, .inl empty⟩
    rw [if_neg empty] at parsed
    cases found : findStr4End memory p stop with
    | none =>
        rw [found] at parsed
        cases parsed
    | some arguments =>
        simp only [found] at parsed
        cases checked : (cStringAt memory (p + 1)).foldlM (checkArgument memory stop) arguments with
        | error abort =>
            rw [checked] at parsed
            cases parsed
        | ok last =>
            rw [checked] at parsed
            exact .inr ⟨atEnd, comma,
              .inr ⟨empty, arguments, last, rfl, checked, (Except.ok.inj parsed).symm⟩⟩
  · rw [if_pos comma] at parsed
    cases parsed

/-- The blobs of a message lie below the limit. -/
def OfxOscMessage.Inside (limit : Nat) (message : OfxOscMessage Blob) : Prop :=
  ∀ argument ∈ message.args, argument.Inside limit

/-- The processing came to its end, and every queued blob lies below the
limit. -/
structure Processed.Clean (limit : Nat) (processed : Processed) : Prop where
  abort_eq : processed.abort = none
  inside : ∀ message ∈ processed.queued, message.Inside limit

/-- The string of type tags behind the comma. -/
theorem Holds.stringAt_typeTags (holds : Holds memory datagram)
    (fits : datagram.length ≤ maxBufferSize) {p next : Nat}
    (typeTags : PaddedString datagram p next) (isComma : datagram[p]? = some 0x2c) :
    cStringAt memory (p + 1) = Osc.stringAt datagram (p + 1) := by
  rcases typeTags.exists_nul with ⟨nul, behind, -, isNul⟩
  have notFirst : nul ≠ p := by
    rintro rfl
    rw [isComma] at isNul
    cases isNul
  exact holds.stringAt fits (by omega) isNul

/-- What follows the address of a message that is processed cleanly. -/
theorem Holds.body_of_clean (holds : Holds memory datagram)
    (fits : datagram.length ≤ maxBufferSize) {endpoint : IpEndpointName} {start size p : Nat}
    {m : ReceivedMessage} (aligned : p % 4 = 0) (stopAligned : (start + size) % 4 = 0)
    (inTime : p ≤ start + size) (inside : start + size ≤ datagram.length)
    (parsed : ReceivedMessage.init memory start size = .ok m)
    (bodyParsed : ReceivedMessage.initBody memory start (start + size) p = .ok m)
    (clean : (processMessage memory endpoint start size).Clean datagram.length) :
    ∃ args, Body datagram (start + size) p args := by
  rcases ReceivedMessage.initBody_eq_ok bodyParsed with rfl | ⟨notEnd, comma, tags⟩
  · exact ⟨[], .none⟩
  have before : p < start + size := by omega
  have isComma : datagram[p]? = some 0x2c := by rw [holds.getElem? (by omega), comma]
  rcases tags with empty | ⟨nonempty, arguments, last, tagFound, checked, rfl⟩
  · rw [holds.eq_zero_iff (by omega)] at empty
    exact ⟨[], .empty before isComma empty⟩
  rcases (holds.findStr4End_eq_some_iff aligned stopAligned inside).mp tagFound with
    ⟨typeTags, tagsInTime⟩
  cases converted : convertArguments memory (cStringAt memory (p + 1)) arguments with
  | error abort =>
      have aborted : (processMessage memory endpoint start size).abort = some abort :=
        abort_processMessage_tagged parsed converted
      rw [clean.abort_eq] at aborted
      cases aborted
  | ok args =>
      rw [processMessage_tagged parsed converted] at clean
      have isInside := clean.inside _ (List.mem_singleton_self _)
      have derived := holds.arguments_of_checked fits stopAligned inside
        (typeTags.aligned aligned) checked converted isInside
      rw [holds.stringAt_typeTags fits typeTags isComma] at derived
      rw [ne_eq, holds.eq_zero_iff (by omega)] at nonempty
      exact ⟨args, .tagged before isComma nonempty typeTags tagsInTime derived⟩

/-- A message of the grammar is queued. -/
theorem Holds.processMessage_of_message (holds : Holds memory datagram)
    (fits : datagram.length ≤ maxBufferSize) (endpoint : IpEndpointName) {start size : Nat}
    (aligned : start % 4 = 0) (inside : start + size ≤ datagram.length)
    {message : OfxOscMessage Blob} (derived : Message datagram start size message) :
    processMessage memory endpoint start size =
        { queued := [message.setRemoteEndpoint endpoint] } ∧
      message.Inside datagram.length := by
  rcases derived with ⟨positive, sizeAligned, address, inTime, body⟩
  have stopAligned : (start + size) % 4 = 0 := by omega
  have tagAligned := address.aligned aligned
  have found := (holds.findStr4End_eq_some_iff aligned stopAligned inside).mpr ⟨address, inTime⟩
  have initEq := ReceivedMessage.init_of_address positive sizeAligned found
  rw [← holds.stringAt_of_padded fits address]
  cases body with
  | none =>
      rw [ReceivedMessage.initBody, if_pos rfl] at initEq
      exact ⟨processMessage_untagged initEq, by simp [OfxOscMessage.Inside]⟩
  | empty before isComma isEmpty =>
      rw [holds.getElem? (by omega)] at isComma isEmpty
      rw [ReceivedMessage.initBody, if_neg (by omega),
        if_neg (not_not.mpr (Option.some.inj isComma)), if_pos (Option.some.inj isEmpty)] at initEq
      exact ⟨processMessage_untagged initEq, by simp [OfxOscMessage.Inside]⟩
  | tagged before isComma nonempty typeTags tagsInTime arguments =>
      have tagFound := (holds.findStr4End_eq_some_iff tagAligned stopAligned inside).mpr
        ⟨typeTags, tagsInTime⟩
      rw [← holds.stringAt_typeTags fits typeTags isComma] at arguments
      rw [holds.getElem? (by omega)] at isComma nonempty
      rcases holds.checked_of_arguments fits stopAligned inside arguments
        (typeTags.aligned tagAligned) with ⟨⟨last, checked⟩, converted, isInside⟩
      rw [ReceivedMessage.initBody, if_neg (by omega),
        if_neg (not_not.mpr (Option.some.inj isComma)),
        if_neg fun isEmpty => nonempty (congrArg some isEmpty)] at initEq
      simp only [tagFound, checked] at initEq
      rw [processMessage_tagged initEq converted]
      exact ⟨rfl, isInside⟩

/-- What is processed cleanly is a message of the grammar. -/
theorem Holds.message_of_clean (holds : Holds memory datagram)
    (fits : datagram.length ≤ maxBufferSize) {endpoint : IpEndpointName} {start size : Nat}
    (aligned : start % 4 = 0) (inside : start + size ≤ datagram.length)
    (clean : (processMessage memory endpoint start size).Clean datagram.length) :
    ∃ message, Message datagram start size message := by
  cases parsed : ReceivedMessage.init memory start size with
  | error abort =>
      have noAbort := clean.abort_eq
      rw [processMessage, parsed] at noAbort
      cases noAbort
  | ok m =>
      rcases ReceivedMessage.init_eq_ok parsed with ⟨positive, sizeAligned, p, found, bodyParsed⟩
      have stopAligned : (start + size) % 4 = 0 := by omega
      rcases (holds.findStr4End_eq_some_iff aligned stopAligned inside).mp found with
        ⟨address, inTime⟩
      rcases holds.body_of_clean fits (address.aligned aligned) stopAligned inTime inside parsed
        bodyParsed clean with ⟨args, body⟩
      exact ⟨_, .mk positive sizeAligned address inTime body⟩

end Buffer

end OfxPrimes.Osc
