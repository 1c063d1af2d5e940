import Mathlib.Logic.Function.Iterate
import OfxPrimes.Framing.Sized
import OfxPrimes.WebSocket.Handler

/-!
# What `send` writes

With a size preamble the frames of `send` can be split again, whatever their
bodies are.  `send` assembles the frame in the caller's string, so a string that
is sent again is framed again.
-/

namespace OfxPrimes.WebSocket

open OfxPrimes.Framing

namespace WebSocketHandler

/-! ## The size preamble -/

/-- The high bit of a group that is not the last. -/
theorem toNat_group_or (n : Nat) :
    (UInt8.ofNat (n % 0x80) ||| 0x80).toNat = n % 0x80 + 0x80 := by
  have below : n % 0x80 < 2 ^ 7 := Nat.mod_lt n (by decide)
  have small : (UInt8.ofNat (n % 0x80)).toNat = n % 0x80 := by
    rw [UInt8.toNat_ofNat']
    omega
  have apart := Nat.two_pow_add_eq_or_of_lt below 1
  rw [UInt8.toNat_or, small, Nat.or_comm, Nat.add_comm]
  exact apart.symm

/-- The length bytes are a size of the value they were made of. -/
theorem sizeBytes_spec (n : Nat) : IsSize (sizeBytes n) ∧ sizeValue (sizeBytes n) = n := by
  induction n using Nat.strongRecOn with
  | ind n ih =>
      have group : ((n : Int) % 0x80).toNat = n % 0x80 := by omega
      have groupSmall : n % 0x80 < 0x80 := Nat.mod_lt n (by decide)
      rw [sizeBytes, group]
      by_cases more : (n : Int) > 0x7f
      · have rest : (n : Int) / 0x80 = ((n / 0x80 : Nat) : Int) := by omega
        obtain ⟨isSize, value⟩ := ih (n / 0x80) (by omega)
        rw [if_pos more, rest]
        constructor
        · apply IsSize.cons _ isSize
          rw [UInt8.le_iff_toNat_le, toNat_group_or]
          exact Nat.le_add_left _ _
        · rw [sizeValue, toNat_group_or, value]
          omega
      · have small : (UInt8.ofNat (n % 0x80)).toNat = n % 0x80 := by
          rw [UInt8.toNat_ofNat']
          omega
        rw [if_neg more]
        constructor
        · apply IsSize.single
          rw [UInt8.lt_iff_toNat_lt, small]
          exact groupSmall
        · rw [sizeValue, sizeValue, small]
          omega

/-- With a size preamble the frame of a short message has its length in front. -/
theorem isSizedFrame_framed {handler : WebSocketHandler} (sized : handler.bUseSizePreamble = true)
    {payload : Text} (short : payload.length < 2 ^ 31) :
    IsSizedFrame 0x80 (handler.framed payload) payload := by
  have length : (Int32.ofNat payload.length).toInt = payload.length := by
    rw [Int32.toInt_ofNat_of_lt short]
  obtain ⟨isSize, value⟩ := sizeBytes_spec payload.length
  refine ⟨sizeBytes payload.length, ?_, isSize, value⟩
  rw [framed, if_pos sized, length, List.cons_append]

/-- The bytes that are transmitted for a list of messages, each in a string of its own. -/
def sentBytes (handler : WebSocketHandler) (payloads : List Text) : Text :=
  (handler.sendAll payloads).transmitted.drop handler.transmitted.length

theorem sentBytes_eq (handler : WebSocketHandler) (payloads : List Text) :
    handler.sentBytes payloads = payloads.flatMap fun payload => (handler.send payload).2 := by
  rw [sentBytes, sendAll_transmitted, List.drop_left]

theorem splitFrames_sentBytes {handler : WebSocketHandler}
    (sized : handler.bUseSizePreamble = true) {payloads : List Text}
    (short : ∀ payload ∈ payloads, payload.length < 2 ^ 31) :
    splitFrames 0x80 (handler.sentBytes payloads) = some payloads := by
  rw [sentBytes_eq]
  exact splitFrames_flatMap fun payload mem => isSizedFrame_framed sized (short payload mem)

/-- The frames `send` transmits for a list of short messages determine the list: they are
the strings that it builds, each has its length in front, and splitting them by these
lengths gives back the messages. -/
theorem sentBytes_determines (handler : WebSocketHandler)
    (sized : handler.bUseSizePreamble = true) (payloads : List Text)
    (short : ∀ payload ∈ payloads, payload.length < 2 ^ 31) :
    handler.sentBytes payloads = (payloads.flatMap fun payload => (handler.send payload).2) ∧
      (∀ payload ∈ payloads, IsSizedFrame 0x80 (handler.send payload).2 payload) ∧
      splitFrames 0x80 (handler.sentBytes payloads) = some payloads ∧
      ∀ others : List Text, (∀ other ∈ others, other.length < 2 ^ 31) →
        handler.sentBytes others = handler.sentBytes payloads → others = payloads := by
  refine ⟨handler.sentBytes_eq payloads, ?_, splitFrames_sentBytes sized short, ?_⟩
  · intro payload mem
    exact isSizedFrame_framed sized (short payload mem)
  · intro others othersShort same
    have split := splitFrames_sentBytes sized othersShort
    rw [same, splitFrames_sentBytes sized short, Option.some.injEq] at split
    exact split.symm

/-- A handler with size preambles. -/
def sizedSample : WebSocketHandler where
  buffer := fun _ => 0
  bUseSizePreamble := true

/-- An empty message, and one that looks like an empty frame. -/
theorem sentBytes_determines_two :
    splitFrames 0x80 (sizedSample.sentBytes [[], [0x80, 0x00]]) = some [[], [0x80, 0x00]] :=
  (sentBytes_determines sizedSample rfl [[], [0x80, 0x00]] (by decide)).2.2.1

/-! ## Sending one string to several peers -/

/-- `send` with the same string on each connection in turn: the connections and the string
afterwards. -/
def sendEach : List WebSocketHandler → Text → List WebSocketHandler × Text
  | [], data => ([], data)
  | connection :: rest, data =>
      let (connection, data) := connection.send data
      let (rest, data) := sendEach rest data
      (connection :: rest, data)

/-- Every peer gets the same bytes, the message framed once, and the string is unchanged. -/
def Broadcasts (connections : List WebSocketHandler) (data : Text) : Prop :=
  ∃ bytes, (∀ connection ∈ connections, connection.framed data = bytes) ∧
    (sendEach connections data).1.map transmitted =
      connections.map (fun connection => connection.transmitted ++ bytes) ∧
    (sendEach connections data).2 = data

/-- A frame is longer than its message, in either mode. -/
theorem length_lt_framed (handler : WebSocketHandler) (data : Text) :
    data.length < (handler.framed data).length := by
  rw [framed]
  split
  · rw [List.length_append, List.length_cons]
    omega
  · rw [List.length_cons, List.length_append]
    omega

theorem length_le_sendEach (connections : List WebSocketHandler) (data : Text) :
    data.length ≤ (sendEach connections data).2.length := by
  induction connections generalizing data with
  | nil => exact Nat.le_refl _
  | cons connection rest ih =>
      calc data.length
        _ ≤ (connection.framed data).length := Nat.le_of_lt (connection.length_lt_framed data)
        _ ≤ (sendEach (connection :: rest) data).2.length := ih _

/-- In one framing mode every connection transmits the message framed once more than the one
before it. -/
theorem getElem?_sendEach {handler : WebSocketHandler} {connections : List WebSocketHandler}
    (sameMode : ∀ connection ∈ connections,
      connection.bUseSizePreamble = handler.bUseSizePreamble) (data : Text) (i : Nat) :
    (sendEach connections data).1[i]? =
      connections[i]?.map fun connection =>
        { connection with
          transmitted := connection.transmitted ++ handler.framed^[i + 1] data } := by
  induction connections generalizing data i with
  | nil => rfl
  | cons connection rest ih =>
      have sameFrame : connection.framed data = handler.framed data := by
        rw [framed, framed, sameMode connection List.mem_cons_self]
      have later := ih fun other mem => sameMode other (List.mem_cons_of_mem connection mem)
      cases i with
      | zero => simp [sendEach, send, sameFrame]
      | succ i =>
          simp only [sendEach, send, List.getElem?_cons_succ, later, sameFrame,
            Function.iterate_succ_apply]

/-- Beyond the first connection the message is not framed exactly once. -/
theorem framedOnce_iff {handler : WebSocketHandler} {connections : List WebSocketHandler}
    (sameMode : ∀ connection ∈ connections,
      connection.bUseSizePreamble = handler.bUseSizePreamble) (data : Text) :
    (sendEach connections data).1.map transmitted =
        connections.map (fun connection => connection.transmitted ++ handler.framed data) ↔
      connections.length ≤ 1 := by
  constructor
  · intro once
    by_contra several
    have second : 1 < connections.length := Nat.lt_of_not_le several
    have sent := congrArg (·[1]?) once
    simp only [List.getElem?_map, getElem?_sendEach sameMode, List.getElem?_eq_getElem second,
      Option.map_some, Option.some.injEq, List.append_cancel_left_eq] at sent
    have longer := handler.length_lt_framed (handler.framed data)
    rw [Function.iterate_succ_apply, Function.iterate_one] at sent
    rw [sent] at longer
    exact Nat.lt_irrefl _ longer
  · intro atMostOne
    apply List.ext_getElem?
    intro i
    rw [List.getElem?_map, List.getElem?_map, getElem?_sendEach sameMode, Option.map_map]
    cases i with
    | zero => rfl
    | succ i =>
        have beyond : connections.length ≤ i + 1 := by omega
        rw [List.getElem?_eq_none beyond]
        rfl

/-- The message reaches every peer framed once and the string stays as it was exactly when
there is no connection: a single `send` changes the string. -/
theorem broadcasts_iff (connections : List WebSocketHandler) (data : Text) :
    Broadcasts connections data ↔ connections = [] := by
  constructor
  · rintro ⟨bytes, -, -, unchanged⟩
    cases connections with
    | nil => rfl
    | cons connection rest =>
        have longer := connection.length_lt_framed data
        have atLeast := length_le_sendEach rest (connection.framed data)
        have same : (sendEach rest (connection.framed data)).2 = data := unchanged
        rw [same] at atLeast
        exact absurd atLeast (Nat.not_le.mpr longer)
  · rintro rfl
    exact ⟨[], fun _ mem => absurd mem List.not_mem_nil, rfl, rfl⟩

/-- The second peer gets the frame of a frame. -/
theorem not_broadcasts_two :
    (sendEach [fresh, fresh] [0x41]).1.map transmitted =
        [[0x00, 0x41, 0xff], [0x00, 0x00, 0x41, 0xff, 0xff]] ∧
      ¬ Broadcasts [fresh, fresh] [0x41] := by
  constructor
  · decide
  · rintro ⟨bytes, -, -, unchanged⟩
    revert unchanged
    decide

end WebSocketHandler

end OfxPrimes.WebSocket
