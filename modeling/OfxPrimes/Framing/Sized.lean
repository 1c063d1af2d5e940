import Mathlib.Algebra.Order.Ring.Int
import Mathlib.Data.List.Basic

/-!
# Frames with a size

A frame is a start byte, the size of its body in base 128, and the body.  The
bytes of a size hold seven bits each, least significant first, and all but the
last of them have their high bit set, so a reader knows where the size ends.  It
never looks for a start byte inside a body.
-/

namespace OfxPrimes.Framing

/-! ## Numbers in base 128 -/

/-- All bytes but the last have the high bit set. -/
def IsSize (bytes : List UInt8) : Prop :=
  ∃ front last, bytes = front ++ [last] ∧ (∀ byte ∈ front, 0x80 ≤ byte) ∧ last < 0x80

/-- The number whose groups of seven bits are the low bits of the bytes, least significant
first. -/
def sizeValue : List UInt8 → Nat
  | [] => 0
  | byte :: rest => byte.toNat % 0x80 + 0x80 * sizeValue rest

theorem IsSize.single {byte : UInt8} (low : byte < 0x80) : IsSize [byte] :=
  ⟨[], byte, rfl, fun _ mem => absurd mem List.not_mem_nil, low⟩

theorem IsSize.cons {byte : UInt8} {bytes : List UInt8} (high : 0x80 ≤ byte)
    (isSize : IsSize bytes) : IsSize (byte :: bytes) := by
  obtain ⟨front, last, rfl, allHigh, low⟩ := isSize
  refine ⟨byte :: front, last, rfl, ?_, low⟩
  intro other mem
  rcases List.mem_cons.mp mem with rfl | mem
  · exact high
  · exact allHigh other mem

/-- Take a size off a stream, up to the first byte without the high bit. -/
def readSize : List UInt8 → Option (Nat × List UInt8)
  | [] => none
  | byte :: rest =>
      if byte < 0x80 then some (byte.toNat, rest)
      else (readSize rest).map fun (high, behind) => (byte.toNat % 0x80 + 0x80 * high, behind)

/-- Reading a size gives its value, whatever follows. -/
theorem readSize_append {bytes : List UInt8} (isSize : IsSize bytes) (rest : List UInt8) :
    readSize (bytes ++ rest) = some (sizeValue bytes, rest) := by
  obtain ⟨front, last, rfl, allHigh, low⟩ := isSize
  induction front with
  | nil =>
      have small : last.toNat % 0x80 = last.toNat := Nat.mod_eq_of_lt low
      simp only [List.nil_append, List.singleton_append, readSize, if_pos low, sizeValue, small]
      rfl
  | cons byte front ih =>
      have notLow : ¬ byte < 0x80 := UInt8.not_lt.mpr (allHigh byte List.mem_cons_self)
      have later := ih fun other mem => allHigh other (List.mem_cons_of_mem byte mem)
      simp only [List.cons_append, readSize, if_neg notLow, later, Option.map_some, sizeValue]

theorem length_lt_of_readSize {stream rest : List UInt8} {size : Nat}
    (read : readSize stream = some (size, rest)) : rest.length < stream.length := by
  induction stream generalizing size with
  | nil => cases read
  | cons byte stream ih =>
      rw [readSize] at read
      by_cases low : byte < 0x80
      · rw [if_pos low] at read
        cases read
        exact Nat.lt_succ_self _
      · rw [if_neg low, Option.map_eq_some_iff] at read
        obtain ⟨⟨high, behind⟩, later, same⟩ := read
        cases same
        exact Nat.lt_succ_of_lt (ih later)

/-! ## Frames -/

/-- The start byte, a size, and a body of that size. -/
def IsSizedFrame (start : UInt8) (frame body : List UInt8) : Prop :=
  ∃ size, frame = start :: (size ++ body) ∧ IsSize size ∧ sizeValue size = body.length

/-- Split a stream into the bodies of its frames; `none` if it is no sequence of frames. -/
def splitFrames (start : UInt8) : List UInt8 → Option (List (List UInt8))
  | [] => some []
  | byte :: stream =>
      if byte = start then
        match _read : readSize stream with
        | none => none
        | some (size, behind) =>
            if size ≤ behind.length then
              (splitFrames start (behind.drop size)).map (behind.take size :: ·)
            else none
      else none
termination_by stream => stream.length
decreasing_by
  have shorter := length_lt_of_readSize _read
  simp only [List.length_drop, List.length_cons]
  omega

/-- A frame in front of a stream is split off. -/
theorem splitFrames_append {start : UInt8} {frame body : List UInt8}
    (isFrame : IsSizedFrame start frame body) (stream : List UInt8) :
    splitFrames start (frame ++ stream) = (splitFrames start stream).map (body :: ·) := by
  obtain ⟨size, rfl, isSize, value⟩ := isFrame
  have read : readSize (size ++ body ++ stream) = some (body.length, body ++ stream) := by
    rw [List.append_assoc, readSize_append isSize, value]
  have fits : body.length ≤ (body ++ stream).length := by
    rw [List.length_append]
    exact Nat.le_add_right _ _
  rw [List.cons_append, splitFrames, if_pos rfl]
  split
  · rename_i nothing
    rw [read] at nothing
    cases nothing
  · rename_i found
    rw [read] at found
    cases found
    rw [if_pos fits, List.drop_left, List.take_left]

/-- A sequence of frames is split into its bodies. -/
theorem splitFrames_flatMap {start : UInt8} {frame : List UInt8 → List UInt8}
    {bodies : List (List UInt8)} (isFrame : ∀ body ∈ bodies, IsSizedFrame start (frame body) body) :
    splitFrames start (bodies.flatMap frame) = some bodies := by
  induction bodies with
  | nil => rw [List.flatMap_nil, splitFrames]
  | cons body bodies ih =>
      have later := ih fun other mem => isFrame other (List.mem_cons_of_mem body mem)
      rw [List.flatMap_cons, splitFrames_append (isFrame body List.mem_cons_self), later,
        Option.map_some]

end OfxPrimes.Framing
