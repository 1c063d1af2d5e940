import OfxPrimes.Framing.Delimited
import OfxPrimes.WebSocket.Handler

/-!
# Frames over reads

With the handshake complete `onReadable` delivers the frames of the bytes it
received.  It starts to scan anew in each read, so over several reads it
delivers the frames of the stream exactly when none of them is split.
-/

namespace OfxPrimes.WebSocket

open OfxPrimes.Bytes
open OfxPrimes.Framing

namespace WebSocketHandler

/-- Both sides of the handshake are done. -/
def HandshakeComplete (handler : WebSocketHandler) : Prop :=
  handler.sentHandshake = true ∧ handler.gotHandshake = true

/-! ## One read -/

/-- After `n` turns the scan has delivered the frames of the first `n` bytes,
and `begin_idx` marks the open one. -/
theorem foldl_scanByte (packet : Memory UInt8) (n : Nat) :
    ((List.range n).foldl (scanByte packet) {}).frames = frames 0x00 0xff (packet.load 0 n) ∧
      pendingAfter 0x00 0xff none (packet.load 0 n) =
        ((List.range n).foldl (scanByte packet) {}).beginIdx.map
          (fun beginIdx => packet.load (beginIdx + 1) (n - beginIdx - 1)) ∧
      ∀ beginIdx ∈ ((List.range n).foldl (scanByte packet) {}).beginIdx, beginIdx < n := by
  induction n with
  | zero => exact ⟨rfl, rfl, fun _ mem => by cases mem⟩
  | succ n ih =>
      obtain ⟨delivered, pending, bound⟩ := ih
      rw [List.range_succ, List.foldl_append, List.foldl_cons, List.foldl_nil, Memory.load_concat,
        frames_concat, pendingAfter_concat, Nat.zero_add, ← delivered, pending]
      generalize (List.range n).foldl (scanByte packet) {} = scan at *
      obtain ⟨beginIdx, scanned⟩ := scan
      cases beginIdx with
      | none =>
          by_cases opens : packet n = 0x00
          · simp [scanByte, completed, advance, opens]
          · simp [scanByte, completed, advance, opens]
      | some beginIdx =>
          have below : beginIdx < n := bound beginIdx rfl
          by_cases ends : packet n = 0xff
          · simp [scanByte, completed, advance, ends]
          · have longer : n + 1 - beginIdx - 1 = (n - beginIdx - 1) + 1 := by omega
            have last : beginIdx + 1 + (n - beginIdx - 1) = n := by omega
            simp [scanByte, completed, advance, ends, longer, Memory.load_concat, last]
            omega

/-- With the handshake complete a read delivers the frames of its bytes. -/
theorem onReadable_of_complete {handler : WebSocketHandler} (complete : handler.HandshakeComplete)
    (read : Read) :
    handler.onReadable read =
      { handler with
        buffer := handler.buffer.store 0 read.val
        delivered := handler.delivered ++ frames 0x00 0xff read.val } := by
  obtain ⟨sent, got⟩ := complete
  have delivered := (foldl_scanByte (handler.buffer.store 0 read.val) read.val.length).1
  rw [Memory.load_store] at delivered
  simp only [onReadable, handshake, sent, got, if_true, Nat.zero_add, delivered]

/-! ## Several reads -/

/-- The handler after a sequence of reads. -/
def onReadables (handler : WebSocketHandler) (reads : List Read) : WebSocketHandler :=
  reads.foldl onReadable handler

theorem onReadables_delivered {handler : WebSocketHandler}
    (complete : handler.HandshakeComplete) (reads : List Read) :
    (handler.onReadables reads).delivered =
      handler.delivered ++ (reads.map Subtype.val).flatMap (frames 0x00 0xff) := by
  induction reads generalizing handler with
  | nil => simp [onReadables]
  | cons read rest ih =>
      rw [onReadables, List.foldl_cons, ← onReadables, ih, onReadable_of_complete complete,
        List.map_cons, List.flatMap_cons, List.append_assoc]
      rw [onReadable_of_complete complete]
      exact complete

/-- The frames delivered over a sequence of reads are those of the stream the
reads are cut from exactly when no completed frame spans two reads. -/
theorem onReadables_delivered_iff {handler : WebSocketHandler}
    (complete : handler.HandshakeComplete) (reads : List Read) :
    (handler.onReadables reads).delivered =
        handler.delivered ++ frames 0x00 0xff (reads.map Subtype.val).flatten ↔
      FramesWithinChunks 0x00 0xff (reads.map Subtype.val) := by
  rw [onReadables_delivered complete, List.append_cancel_left_eq,
    flatMap_frames_eq_iff (by decide)]

/-- A handler whose handshake is complete. -/
def sample : WebSocketHandler where
  buffer := fun _ => 0
  sentHandshake := true
  gotHandshake := true

/-- Of three reads the first two end behind a frame, and a frame is left open in the
last. -/
theorem onReadables_delivered_iff_whole :
    (sample.onReadables [⟨[0x00, 0x41, 0xff], by decide⟩, ⟨[0x00, 0x00, 0xff, 0xff], by decide⟩,
        ⟨[0x00, 0xff, 0x00, 0x42], by decide⟩]).delivered =
      sample.delivered ++
        frames 0x00 0xff [0x00, 0x41, 0xff, 0x00, 0x00, 0xff, 0xff, 0x00, 0xff, 0x00, 0x42] ↔
      FramesWithinChunks (0x00 : UInt8) 0xff
        [[0x00, 0x41, 0xff], [0x00, 0x00, 0xff, 0xff], [0x00, 0xff, 0x00, 0x42]] :=
  onReadables_delivered_iff ⟨rfl, rfl⟩
    [⟨[0x00, 0x41, 0xff], by decide⟩, ⟨[0x00, 0x00, 0xff, 0xff], by decide⟩,
      ⟨[0x00, 0xff, 0x00, 0x42], by decide⟩]

/-- A frame that arrives in two reads is lost. -/
theorem onReadables_split :
    (sample.onReadables [⟨[0x00, 0x41, 0xff], by decide⟩]).delivered = [[0x41]] ∧
      (sample.onReadables [⟨[0x00, 0x41], by decide⟩, ⟨[0xff], by decide⟩]).delivered = [] := by
  decide

/-! ## What `send` wrote -/

/-- The frames `send` transmitted for a list of messages, read at once, are delivered
as that list.  They are the strings that it left. -/
theorem onReadable_framed (sender receiver : WebSocketHandler)
    (noPreamble : sender.bUseSizePreamble = false) (complete : receiver.HandshakeComplete)
    (messages : List Text) (noStop : ∀ data ∈ messages, (0xff : UInt8) ∉ data) (read : Read)
    (arrived : (sender.sendAll messages).transmitted = sender.transmitted ++ read.val) :
    (receiver.onReadable read).delivered = receiver.delivered ++ messages ∧
      read.val = messages.flatMap fun data => (sender.send data).2 := by
  have written : ∀ data, (sender.send data).2 = frame 0x00 0xff data := by
    intro data
    simp [send, framed, noPreamble, frame]
  rw [sendAll_transmitted, List.append_cancel_left_eq] at arrived
  refine ⟨?_, arrived.symm⟩
  rw [onReadable_of_complete complete, ← arrived]
  simp only [written, frames_flatMap_frame noStop]

/-- An empty message and one that holds the start byte. -/
theorem onReadable_framed_two :
    (sample.onReadable ⟨[0x00, 0xff, 0x00, 0x00, 0x41, 0xff], by decide⟩).delivered =
      [[], [0x00, 0x41]] :=
  (onReadable_framed sample sample rfl ⟨rfl, rfl⟩ [[], [0x00, 0x41]] (by decide)
    ⟨[0x00, 0xff, 0x00, 0x00, 0x41, 0xff], by decide⟩ (by decide)).1

end WebSocketHandler

end OfxPrimes.WebSocket
