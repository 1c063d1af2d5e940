import OfxPrimes.WebSocket.Framing
import OfxPrimes.WebSocket.Search

/-!
# The bounds of the scan

`onReadable` scans as many bytes as it received, beginning where `handshake`
tells it to.  Behind the end of the handshake these are not the bytes it
received: the scan reads on into what the buffer held before, and behind the
buffer.
-/

namespace OfxPrimes.WebSocket

open OfxPrimes.Bytes
open OfxPrimes.Framing

/-- `HANDSHAKE_TERMINATION` stands in the packet, with no NUL in front of it. -/
def Terminated (packet : Text) : Prop :=
  ∃ front rest, packet = front ++ ascii "\r\n\r\n" ++ rest ∧ 0 ∉ front

theorem Terminated.length_pos {packet : Text} (terminated : Terminated packet) :
    0 < packet.length := by
  obtain ⟨front, rest, split, -⟩ := terminated
  rw [split, List.length_append, List.length_append]
  exact Nat.add_pos_left (Nat.add_pos_right _ (by decide)) _

namespace WebSocketHandler

variable (handler : WebSocketHandler)

/-! ## What is read -/

/-- The handshake leaves the buffer and what was delivered alone, and where the scan
begins does not depend on the reply. -/
theorem handshake_spec (packet : Text) :
    (handler.handshake packet).1.buffer = handler.buffer ∧
      (handler.handshake packet).1.delivered = handler.delivered ∧
      (handler.handshake packet).2 =
        if handler.gotHandshake then some 0
        else (strnstr (ascii "\r\n\r\n") packet).map (· + (ascii "\r\n\r\n").length) := by
  cases sent : handler.sentHandshake <;> cases got : handler.gotHandshake <;>
    cases replicate : handler.bReplicateHeaders <;>
    cases found : strnstr (ascii "\r\n\r\n") packet <;>
    simp [handshake, replicateHeaders, sent, got, replicate, found]

/-- The positions of the buffer that the scan of `onReadable` reads. -/
def scanned (read : Read) : List Nat :=
  match (handler.handshake read.val).2 with
  | none => []
  | some offset => List.range' offset read.val.length

/-- The frames that `onReadable` hands to `onmessage`. -/
def handed (read : Read) : List Text :=
  (handler.onReadable read).delivered.drop handler.delivered.length

/-- The frames handed on are those of the bytes at the scanned positions. -/
theorem onReadable_delivered (read : Read) :
    (handler.onReadable read).delivered =
      handler.delivered ++
        frames 0x00 0xff ((handler.scanned read).map (handler.buffer.store 0 read.val)) := by
  obtain ⟨buffer, delivered, -⟩ :=
    handshake_spec { handler with buffer := handler.buffer.store 0 read.val } read.val
  have offset : ({ handler with buffer := handler.buffer.store 0 read.val }.handshake read.val).2 =
      (handler.handshake read.val).2 := by
    rw [(handshake_spec _ _).2.2, (handshake_spec handler _).2.2]
  rw [onReadable, scanned, ← offset]
  generalize { handler with buffer := handler.buffer.store 0 read.val }.handshake read.val =
    shaken at buffer delivered
  obtain ⟨shaken, begins⟩ := shaken
  simp only at buffer delivered
  cases begins with
  | none => simp [delivered, frames, framesFrom]
  | some offset =>
      have shifted : Memory.load (fun i => shaken.buffer (offset + i)) 0 read.val.length =
          (List.range' offset read.val.length).map (handler.buffer.store 0 read.val) := by
        rw [buffer, Memory.load, ← List.range_eq_range', List.range'_eq_map_range, List.map_map]
        rfl
      simp only [delivered, (foldl_scanByte _ _).1, shifted]

theorem handed_eq (read : Read) :
    handler.handed read =
      frames 0x00 0xff ((handler.scanned read).map (handler.buffer.store 0 read.val)) := by
  rw [handed, onReadable_delivered, List.drop_left]

/-! ## What was received -/

/-- Every byte `onReadable` examines or hands to `onmessage` was received in this read.
The handshake only sees the received bytes, so these are the bytes of the scan. -/
structure StaysWithinRead (read : Read) : Prop where
  examined : ∀ i ∈ handler.scanned read, i < read.val.length
  handed : ∀ frame ∈ handler.handed read, frame <:+: read.val

/-- A scan from the beginning of the buffer reads the received bytes. -/
theorem scanned_bytes {read : Read}
    (begins : (handler.handshake read.val).2 = some 0) :
    (handler.scanned read).map (handler.buffer.store 0 read.val) = read.val := by
  rw [scanned, begins]
  exact Memory.load_store handler.buffer 0 read.val

/-- With the handshake complete the scan begins with the read. -/
theorem staysWithinRead_of_complete (got : handler.gotHandshake = true) (read : Read) :
    handler.StaysWithinRead read := by
  have offset := (handler.handshake_spec read.val).2.2
  rw [if_pos got] at offset
  constructor
  case examined =>
    rw [scanned, offset]
    intro i mem
    simpa using mem
  case handed =>
    rw [handed_eq, handler.scanned_bytes offset]
    exact fun frame mem => infix_of_mem_frames mem

/-- As long as the handshake is not complete nothing is scanned. -/
theorem staysWithinRead_of_waiting {read : Read} (waiting : (handler.handshake read.val).2 = none) :
    handler.StaysWithinRead read := by
  have nothing : handler.scanned read = [] := by rw [scanned, waiting]
  constructor
  case examined => simp [nothing]
  case handed => simp [handed_eq, nothing, frames, framesFrom]

/-- A scan that begins behind the terminator ends as far behind the read. -/
theorem not_staysWithinRead_of_offset {read : Read} {offset : Nat} (notEmpty : 0 < read.val.length)
    (begins : (handler.handshake read.val).2 = some (offset + 1)) :
    ¬ handler.StaysWithinRead read := by
  intro within
  have last : offset + 1 + (read.val.length - 1) ∈ handler.scanned read := by
    rw [scanned, begins, List.mem_range'_1]
    constructor
    · exact Nat.le_add_right _ _
    · exact Nat.add_lt_add_left (Nat.sub_lt notEmpty Nat.one_pos) _
  have below := within.examined _ last
  rw [Nat.add_assoc, Nat.add_sub_cancel' notEmpty] at below
  exact Nat.not_lt.mpr (Nat.le_add_left _ offset) below

/-- The bytes examined and handed on are those of the read exactly when the read does not
end the handshake: the handshake was complete before, or is not complete after it. -/
theorem staysWithinRead_iff (read : Read) :
    handler.StaysWithinRead read ↔ handler.gotHandshake = true ∨ ¬ Terminated read.val := by
  by_cases got : handler.gotHandshake = true
  · exact iff_of_true (handler.staysWithinRead_of_complete got read) (.inl got)
  · have offset := (handler.handshake_spec read.val).2.2
    rw [if_neg got] at offset
    rw [or_iff_right got]
    cases found : strnstr (ascii "\r\n\r\n") read.val with
    | none =>
        rw [found, Option.map_none] at offset
        have notTerminated : ¬ Terminated read.val := fun terminated =>
          strnstr_ne_none_iff.mpr terminated found
        exact iff_of_true (handler.staysWithinRead_of_waiting offset) notTerminated
    | some before =>
        rw [found, Option.map_some] at offset
        have terminated : Terminated read.val := strnstr_ne_none_iff.mp (by simp [found])
        apply iff_of_false _ (not_not.mpr terminated)
        exact handler.not_staysWithinRead_of_offset terminated.length_pos offset

/-- A handler before the handshake, whose buffer still holds a frame. -/
def stale : WebSocketHandler where
  buffer := fun i => [0x00, 0x00, 0x00, 0x00, 0x00, 0x41, 0xff].getD i 0x00

/-- The end of the handshake alone is read, and a frame of the old buffer delivered. -/
theorem not_staysWithinRead_stale :
    ¬ stale.StaysWithinRead ⟨ascii "\r\n\r\n", by decide⟩ := by
  intro within
  have handed : [0x41] ∈ stale.handed ⟨ascii "\r\n\r\n", by decide⟩ := by
    rw [handed_eq]
    decide
  have received := within.handed [0x41] handed
  revert received
  decide

end WebSocketHandler

end OfxPrimes.WebSocket
