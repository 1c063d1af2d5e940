import OfxPrimes.Search.Substring
import OfxPrimes.WebSocket.Handler

/-!
# Searching the packet

`strnstr` finds first occurrences, as long as no NUL stands in front of them.
`readHeader` and `readResource` return what stands between two of them,
`find_last_of` finds the last colon, and `atoi` reads back what a stream wrote.
-/

namespace OfxPrimes.WebSocket

open OfxPrimes.Search

variable {little text front rest : Text}

theorem strnstr_cons_of_here {byte : UInt8} (here : little <+: byte :: text) :
    strnstr little (byte :: text) = some 0 := by
  rw [strnstr, if_pos (List.isPrefixOf_iff_prefix.mpr here)]

theorem strnstr_cons_of_later {byte : UInt8} (notHere : ¬ little <+: byte :: text) :
    strnstr little (byte :: text) =
      if byte = 0 then none else (strnstr little text).map (· + 1) := by
  rw [strnstr, if_neg (mt List.isPrefixOf_iff_prefix.mp notHere)]

/-- `strnstr` finds the first occurrence, if no NUL is in front of it. -/
theorem strnstr_eq_some_iff {found : Nat} :
    strnstr little text = some found ↔
      ∃ front rest, FirstOccurrence little text front rest ∧ 0 ∉ front ∧ front.length = found := by
  induction text generalizing found with
  | nil =>
      constructor
      · intro finds
        obtain ⟨rfl, rfl⟩ : little = [] ∧ found = 0 := by
          simpa [strnstr, eq_comm] using finds
        exact ⟨[], [], FirstOccurrence.ofPrefix [] [], List.not_mem_nil, rfl⟩
      · rintro ⟨front, rest, occurs, -, rfl⟩
        obtain ⟨together, -⟩ := List.append_eq_nil_iff.mp occurs.split.symm
        obtain ⟨rfl, rfl⟩ := List.append_eq_nil_iff.mp together
        rfl
  | cons byte text ih =>
      by_cases here : little <+: byte :: text
      · rw [strnstr_cons_of_here here]
        obtain ⟨rest, split⟩ := here
        have atOnce : FirstOccurrence little (byte :: text) [] rest :=
          split ▸ FirstOccurrence.ofPrefix little rest
        constructor
        · rintro ⟨rfl⟩
          exact ⟨[], rest, atOnce, List.not_mem_nil, rfl⟩
        · rintro ⟨front, rest', occurs, -, rfl⟩
          obtain ⟨rfl, -⟩ := occurs.unique atOnce
          rfl
      · rw [strnstr_cons_of_later here]
        constructor
        · intro finds
          by_cases isNul : byte = 0
          · rw [if_pos isNul] at finds
            cases finds
          · rw [if_neg isNul, Option.map_eq_some_iff] at finds
            obtain ⟨before, later, rfl⟩ := finds
            obtain ⟨front, rest, occurs, noNul, rfl⟩ := ih.mp later
            have noNul' : 0 ∉ byte :: front := by simpa [eq_comm, isNul] using noNul
            have longer := (FirstOccurrence.cons_iff here).mpr ⟨front, rfl, occurs⟩
            exact ⟨byte :: front, rest, longer, noNul', rfl⟩
        · rintro ⟨front, rest, occurs, noNul, rfl⟩
          obtain ⟨front', rfl, later⟩ := (FirstOccurrence.cons_iff here).mp occurs
          obtain ⟨notNul, noNul'⟩ := List.ne_and_not_mem_of_not_mem_cons noNul
          rw [if_neg notNul.symm, ih.mpr ⟨front', rest, later, noNul', rfl⟩]
          rfl

theorem strnstr_of_first (occurs : FirstOccurrence little text front rest) (noNul : 0 ∉ front) :
    strnstr little text = some front.length :=
  strnstr_eq_some_iff.mpr ⟨front, rest, occurs, noNul, rfl⟩

/-- `strnstr` finds something when there is something to find. -/
theorem strnstr_ne_none_iff :
    strnstr little text ≠ none ↔ ∃ front rest, text = front ++ little ++ rest ∧ 0 ∉ front := by
  rw [Option.ne_none_iff_exists']
  constructor
  · rintro ⟨found, finds⟩
    obtain ⟨front, rest, occurs, noNul, -⟩ := strnstr_eq_some_iff.mp finds
    exact ⟨front, rest, occurs.split, noNul⟩
  · rintro ⟨front, rest, split, noNul⟩
    obtain ⟨first, last, occurs⟩ := FirstOccurrence.exists_of_infix ⟨front, rest, split.symm⟩
    -- The first occurrence is no later than this one, so its front is a part of this front.
    have notLater := occurs.first front rest split
    have firstInText : first <+: text := ⟨little ++ last, by rw [occurs.split, List.append_assoc]⟩
    have frontInText : front <+: text := ⟨little ++ rest, by rw [split, List.append_assoc]⟩
    have within := List.prefix_of_prefix_length_le firstInText frontInText notLater
    exact ⟨_, strnstr_of_first occurs fun mem => noNul (within.subset mem)⟩

/-! ## Headers and the resource -/

/-- `readHeader` returns what stands between the first occurrence of the header's name and
the next line break. -/
theorem readHeader_of_first {packet header value more : Text}
    (occurs : FirstOccurrence (header ++ ascii ": ") packet front (value ++ ascii "\r\n" ++ more))
    (frontNoNul : 0 ∉ front) (valueNoNul : 0 ∉ value) (oneLine : ¬ ascii "\r\n" <:+: value) :
    readHeader packet header = value := by
  have headerFrom := strnstr_of_first occurs frontNoNul
  have behind : packet.drop (front.length + (header ++ ascii ": ").length) =
      value ++ ascii "\r\n" ++ more := by
    rw [occurs.split, ← List.length_append, List.drop_left]
  have lineEnds : FirstOccurrence (ascii "\r\n") (value ++ ascii "\r\n" ++ more) value more :=
    FirstOccurrence.ofAbsent (by decide) oneLine
  have headerTo := strnstr_of_first lineEnds valueNoNul
  simp only [readHeader, headerFrom, behind, headerTo]
  rw [List.append_assoc, List.take_left]

/-- `readResource` returns the second word of a packet that begins with `GET `. -/
theorem readResource_of_request {resource more : Text} (noSpace : 0x20 ∉ resource)
    (noNul : 0 ∉ resource) :
    readResource (ascii "GET " ++ (resource ++ ascii " " ++ more)) = resource := by
  have resourceFrom := strnstr_of_first
    (FirstOccurrence.ofPrefix (ascii "GET ") (resource ++ ascii " " ++ more)) List.not_mem_nil
  have wordEnds : FirstOccurrence (ascii " ") (resource ++ ascii " " ++ more) resource more := by
    apply FirstOccurrence.ofAbsent List.not_mem_nil
    exact mt (List.singleton_infix_iff _ _).mp noSpace
  have resourceTo := strnstr_of_first wordEnds noNul
  simp only [readResource, resourceFrom, List.length_nil, Nat.zero_add, List.drop_left, resourceTo]
  rw [List.append_assoc, List.take_left]

/-! ## The last colon -/

theorem findLastColon_of_notMem {text : Text} (noColon : 0x3a ∉ text) :
    findLastColon text = none := by
  rw [findLastColon, Option.map_eq_none_iff, List.findIdx?_eq_none_iff]
  intro byte mem
  simpa using fun isColon : byte = 0x3a => noColon (isColon ▸ List.mem_reverse.mp mem)

theorem findLastColon_append (name : Text) {behind : Text} (noColon : 0x3a ∉ behind) :
    findLastColon (name ++ 0x3a :: behind) = some name.length := by
  have found : (name ++ 0x3a :: behind).reverse.findIdx? (· == 0x3a) = some behind.length := by
    have noneBehind : behind.reverse.findIdx? (· == 0x3a) = none := by
      rw [List.findIdx?_eq_none_iff]
      intro byte mem
      simpa using fun isColon : byte = 0x3a => noColon (isColon ▸ List.mem_reverse.mp mem)
    simp [List.findIdx?_append, List.findIdx?_cons, noneBehind]
  rw [findLastColon, found, Option.map_some, List.length_append, List.length_cons]
  congr 1
  omega

/-- A text is split at its last colon in one way. -/
theorem last_colon_unique {name name' behind behind' : Text} (noColon : 0x3a ∉ behind)
    (noColon' : 0x3a ∉ behind') (same : name ++ 0x3a :: behind = name' ++ 0x3a :: behind') :
    name = name' ∧ behind = behind' := by
  have found := findLastColon_append name noColon
  rw [same, findLastColon_append name' noColon', Option.some.injEq] at found
  obtain ⟨sameName, sameBack⟩ := List.append_inj same found.symm
  exact ⟨sameName, (List.cons.inj sameBack).2⟩

/-- A text without a colon, or a text split at its last one. -/
theorem colon_cases (text : Text) :
    0x3a ∉ text ∨ ∃ name behind, text = name ++ 0x3a :: behind ∧ 0x3a ∉ behind := by
  by_cases colon : 0x3a ∈ text.reverse
  · obtain ⟨behind, name, split, noColon⟩ := List.eq_append_cons_of_mem colon
    refine .inr ⟨name.reverse, behind.reverse, ?_, mt List.mem_reverse.mp noColon⟩
    have turned := congrArg List.reverse split
    simpa using turned
  · exact .inl (mt List.mem_reverse.mpr colon)

/-! ## Decimal numbers -/

/-- What `operator<<` writes for a number. -/
def decimal (n : Nat) : Text :=
  ascii (toString n)

/-- The characters `0` to `9`. -/
def IsDigit (byte : UInt8) : Prop :=
  0x30 ≤ byte ∧ byte ≤ 0x39

instance : DecidablePred IsDigit :=
  fun byte => inferInstanceAs (Decidable (0x30 ≤ byte ∧ byte ≤ 0x39))

theorem decimal_eq_map (n : Nat) :
    decimal n = (Nat.toDigits 10 n).map fun digit => UInt8.ofNat digit.toNat := by
  rw [decimal, ascii, Nat.toString_eq_repr, Nat.toList_repr]

theorem toNat_digit {digit : Char} (isDigit : digit.isDigit) :
    (UInt8.ofNat digit.toNat).toNat = digit.toNat ∧ 0x30 ≤ digit.toNat ∧ digit.toNat ≤ 0x39 := by
  have bounds : 0x30 ≤ digit.toNat ∧ digit.toNat ≤ 0x39 := by
    simpa [Char.isDigit, UInt32.le_iff_toNat_le] using isDigit
  refine ⟨?_, bounds⟩
  rw [UInt8.toNat_ofNat']
  omega

theorem isDigit_of_mem_decimal {n : Nat} {byte : UInt8} (mem : byte ∈ decimal n) :
    IsDigit byte := by
  rw [decimal_eq_map, List.mem_map] at mem
  obtain ⟨digit, mem, rfl⟩ := mem
  have bounds := toNat_digit (Nat.isDigit_of_mem_toDigits (by decide) (by decide) mem)
  rw [IsDigit, UInt8.le_iff_toNat_le, UInt8.le_iff_toNat_le, bounds.1]
  exact bounds.2

theorem decimal_ne_nil (n : Nat) : decimal n ≠ [] := by
  rw [decimal_eq_map, Ne, List.map_eq_nil_iff]
  exact Nat.toDigits_ne_nil

/-- A text with a number at its end ends with a digit. -/
theorem append_decimal_ne {n : Nat} (front back : Text) {last : UInt8} (notDigit : ¬ IsDigit last) :
    front ++ decimal n ≠ back ++ [last] := by
  intro same
  obtain ⟨digits, digit, split⟩ :=
    (List.eq_nil_or_concat (decimal n)).resolve_left (decimal_ne_nil n)
  rw [List.concat_eq_append] at split
  have isDigit : IsDigit digit := by
    apply isDigit_of_mem_decimal
    rw [split]
    exact List.mem_append_right digits (List.mem_singleton_self digit)
  rw [split, ← List.append_assoc] at same
  obtain ⟨-, sameLast⟩ := List.append_inj' same rfl
  cases sameLast
  exact notDigit isDigit

theorem decimal_noColon (n : Nat) : 0x3a ∉ decimal n := fun mem =>
  absurd (isDigit_of_mem_decimal mem).2 (by decide)

/-- Digits alone. -/
theorem spelledNumber_digits {text : Text} (digits : ∀ byte ∈ text, IsDigit byte) :
    spelledNumber text =
      text.foldl (fun value byte => 10 * value + (byte.toNat - 0x30 : Int)) 0 := by
  have noNul : 0 ∉ text := fun mem => absurd (digits 0 mem).1 (by decide)
  have allDigits : text.takeWhile (fun byte => 0x30 ≤ byte && byte ≤ 0x39) = text := by
    rw [List.takeWhile_eq_self_iff]
    intro byte mem
    simpa [IsDigit] using digits byte mem
  have noSpace : text.dropWhile (fun byte => byte == 0x20 || (0x09 ≤ byte && byte ≤ 0x0d)) =
      text := by
    cases text with
    | nil => rfl
    | cons head tail =>
        obtain ⟨atLeast, -⟩ := digits head List.mem_cons_self
        rw [List.dropWhile_cons_of_neg]
        rw [UInt8.le_iff_toNat_le] at atLeast
        simp [← UInt8.toNat_inj, UInt8.le_iff_toNat_le] at atLeast ⊢
        omega
  have noSign : ∀ sign ∈ text.head?, sign ≠ 0x2d ∧ sign ≠ 0x2b := by
    intro sign mem
    obtain ⟨atLeast, -⟩ := digits sign (List.mem_of_mem_head? mem)
    constructor <;> rintro rfl <;> revert atLeast <;> decide
  rw [spelledNumber, cStr_eq_self noNul, noSpace]
  split
  · exact absurd rfl (noSign _ rfl).1
  · exact absurd rfl (noSign _ rfl).2
  · simp only [allDigits]

/-- What the stream wrote spells the number. -/
theorem spelledNumber_decimal (n : Nat) : spelledNumber (decimal n) = n := by
  have value : ∀ (digits : List Char) (start : Nat), (∀ digit ∈ digits, digit.isDigit) →
      (digits.map fun digit => UInt8.ofNat digit.toNat).foldl
          (fun value byte => 10 * value + (byte.toNat - 0x30 : Int)) (start : Int) =
        Nat.ofDigitChars 10 digits start := by
    intro digits start allDigits
    induction digits generalizing start with
    | nil => rfl
    | cons digit digits ih =>
        have here := toNat_digit (allDigits digit List.mem_cons_self)
        have next : (10 * (start : Int) + ((UInt8.ofNat digit.toNat).toNat - 0x30 : Int)) =
            ((10 * start + (digit.toNat - 0x30) : Nat) : Int) := by
          rw [here.1]
          omega
        rw [List.map_cons, List.foldl_cons, next,
          ih _ fun digit mem => allDigits digit (List.mem_cons_of_mem _ mem),
          Nat.ofDigitChars_cons]
        rfl
  rw [spelledNumber_digits fun byte mem => isDigit_of_mem_decimal mem, decimal_eq_map]
  have read := value (Nat.toDigits 10 n) 0 fun digit mem =>
    Nat.isDigit_of_mem_toDigits (by decide) (by decide) mem
  rwa [Nat.ofDigitChars_ten_toDigits] at read

theorem decimal_inj {m n : Nat} (same : decimal m = decimal n) : m = n := by
  have read := spelledNumber_decimal m
  rw [same, spelledNumber_decimal] at read
  exact_mod_cast read.symm

/-- `atoi` reads back what the stream wrote, if an `int` can hold it. -/
theorem atoi_decimal {n : Nat} (fits : n < 2 ^ 31) : atoi (decimal n) = n := by
  have same : strtol (decimal n) = n := by
    rw [strtol, spelledNumber_decimal]
    omega
  rw [atoi, same]
  exact Int.bmod_eq_of_le (by omega) (by omega)

/-- Digits that a `long` cannot hold are not taken modulo anything. -/
example : atoi (ascii "18446744073709551696") = -1 := by
  decide

end OfxPrimes.WebSocket
