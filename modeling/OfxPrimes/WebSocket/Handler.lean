import OfxPrimes.Bytes.Memory
import OfxPrimes.Platform

/-!
# The web socket handler

`WebSocketHandler` serves one connection.  `onReadable` receives into the
handler's buffer, completes the opening handshake and hands the frames it finds
to `onmessage`; `send` frames a message.  The handler of this model records
what it transmitted and what it delivered.
-/

namespace OfxPrimes.WebSocket

open OfxPrimes.Bytes

/-- `BUFFER_SIZE`. -/
def bufferSize : Nat :=
  1024

/-- The bytes of one `receiveBytes( buffer, BUFFER_SIZE )`. -/
abbrev Read :=
  { bytes : Text // bytes.length ≤ bufferSize }

/-- `readyStates`: `CONNECTING`, `OPEN` and `CLOSED`. -/
inductive ReadyState where
  | connecting
  | opened
  | closed
  deriving DecidableEq

/-- The state of `WebSocketHandler`, with what it transmitted and delivered so
far.  The defaults are those of the constructor; the buffer, and what lies
behind it, is uninitialised. -/
structure WebSocketHandler where
  buffer : Memory UInt8
  sentHandshake : Bool := false
  gotHandshake : Bool := false
  readyState : ReadyState := .connecting
  bReplicateHeaders : Bool := true
  bUseSizePreamble : Bool := false
  origin : Text := ascii "http://robo-p-rimes.appspot.com"
  service : Text := ascii "ws://ws://new-dilly.local:9000/fiducials:9000/fiducials.pb"
  resource : Text := ascii "fiducials.pb"
  host : Text := ascii "ws://new-dilly.local:9000/fiducials"
  port : UInt16 := 9000
  transmitted : Text := []
  delivered : List Text := []

/-! ## Reading the opening request -/

/-- `strnstr`: the first occurrence of a string without NUL.  Characters behind
a NUL are not searched. -/
def strnstr (little : Text) : Text → Option Nat
  | [] => if little = [] then some 0 else none
  | byte :: rest =>
      if little.isPrefixOf (byte :: rest) then some 0
      else if byte = 0 then none
      else (strnstr little rest).map (· + 1)

/-- `readHeader`: what stands between the header name and the end of its line,
or nothing. -/
def readHeader (packet header : Text) : Text :=
  let name := header ++ ascii ": "
  match strnstr name packet with
  | none => []
  | some headerFrom =>
      let value := packet.drop (headerFrom + name.length)
      match strnstr (ascii "\r\n") value with
      | none => []
      | some headerTo => value.take headerTo

/-- `readResource`: what stands between `GET ` and the next space, or nothing. -/
def readResource (packet : Text) : Text :=
  match strnstr (ascii "GET ") packet with
  | none => []
  | some resourceFrom =>
      let resource := packet.drop (resourceFrom + (ascii "GET ").length)
      match strnstr (ascii " ") resource with
      | none => []
      | some resourceTo => resource.take resourceTo

/-- `find_last_of( ":" )`. -/
def findLastColon (text : Text) : Option Nat :=
  (text.reverse.findIdx? (· == 0x3a)).map fun behind => text.length - 1 - behind

/-- What leading white space, an optional sign and digits spell. -/
def spelledNumber (text : Text) : Int :=
  let digits : Text → Int := fun text =>
    (text.takeWhile fun byte => 0x30 ≤ byte && byte ≤ 0x39).foldl
      (fun value byte => 10 * value + (byte.toNat - 0x30 : Int)) 0
  match (cStr text).dropWhile fun byte => byte == 0x20 || (0x09 ≤ byte && byte ≤ 0x0d) with
  | 0x2d :: rest => - digits rest
  | 0x2b :: rest => digits rest
  | rest => digits rest

/-- `strtol` in base ten, which stops at the ends of a `long` of 64 bits. -/
def strtol (text : Text) : Int :=
  max (-2 ^ 63) (min (spelledNumber text) (2 ^ 63 - 1))

/-- `atoi`, as the C library has it: the answer of `strtol` as an `int`. -/
def atoi (text : Text) : Int :=
  (strtol text).bmod (2 ^ 32)

namespace WebSocketHandler

/-- The handshake replies `HANDSHAKE_PREAMBLE` and the two header lines. -/
def handshakeReply (handler : WebSocketHandler) : Text :=
  ascii "HTTP/1.1 101 Web Socket Protocol Handshake\r\n" ++ ascii "Upgrade: WebSocket\r\n" ++
    ascii "Connection: Upgrade\r\n" ++
    ascii "WebSocket-Origin: " ++ handler.origin ++ ascii "\r\n" ++
    ascii "WebSocket-Location: " ++ handler.service ++ ascii "\r\n\r\n"

/-- The header values replicated from the request. -/
def replicateHeaders (handler : WebSocketHandler) (packet : Text) : WebSocketHandler :=
  let socket := readHeader packet (ascii "Host")
  let (host, port) :=
    match findLastColon socket with
    | none => (handler.host, handler.port)
    | some colon =>
        (socket.take colon, UInt16.ofNat (atoi (socket.drop (colon + 1)) % 2 ^ 16).toNat)
  let resource := readResource packet
  { handler with
    host := host
    port := port
    origin := readHeader packet (ascii "Origin")
    resource := resource
    service := ascii "ws://" ++ host ++ ascii ":" ++ ascii (toString port.toNat) ++ resource }

/-- `handshake` on the bytes just received: the offset in the buffer from which
frames are scanned, or `NULL`. -/
def handshake (handler : WebSocketHandler) (packet : Text) : WebSocketHandler × Option Nat :=
  let handler :=
    if handler.sentHandshake then handler
    else
      let handler := { handler with sentHandshake := true }
      let handler := if handler.bReplicateHeaders then handler.replicateHeaders packet else handler
      { handler with transmitted := handler.transmitted ++ handler.handshakeReply }
  if handler.gotHandshake then (handler, some 0)
  else
    match strnstr (ascii "\r\n\r\n") packet with
    | none => (handler, none)
    | some found =>
        ({ handler with gotHandshake := true, readyState := .opened },
          some (found + (ascii "\r\n\r\n").length))

/-! ## Frames -/

/-- The variables of the scan: `begin_idx`, with `UNSET` as `none`, and the
frames handed to `onmessage`. -/
structure Scan where
  beginIdx : Option Nat := none
  frames : List Text := []

/-- One turn of the scan. -/
def scanByte (packet : Memory UInt8) (scan : Scan) (i : Nat) : Scan :=
  match scan.beginIdx with
  | none => if packet i = 0x00 then { scan with beginIdx := some i } else scan
  | some beginIdx =>
      if packet i = 0xff then
        { beginIdx := none
          frames := scan.frames ++ [packet.load (beginIdx + 1) (i - beginIdx - 1)] }
      else scan

/-- `onReadable`. -/
def onReadable (handler : WebSocketHandler) (read : Read) : WebSocketHandler :=
  let n := read.val.length
  let handler := { handler with buffer := handler.buffer.store 0 read.val }
  match handler.handshake read.val with
  | (handler, none) => handler
  | (handler, some offset) =>
      let packet : Memory UInt8 := fun i => handler.buffer (offset + i)
      let scan := (List.range n).foldl (scanByte packet) {}
      { handler with delivered := handler.delivered ++ scan.frames }

/-- The length bytes of a size preamble, least significant group first. -/
def sizeBytes (s : Int) : Text :=
  if s > 0x7f then (UInt8.ofNat (s % 0x80).toNat ||| 0x80) :: sizeBytes (s / 0x80)
  else [UInt8.ofNat (s % 0x80).toNat]
termination_by s.toNat

/-- The frame `send` builds in the caller's string. -/
def framed (handler : WebSocketHandler) (data : Text) : Text :=
  if handler.bUseSizePreamble then
    0x80 :: sizeBytes (Int32.ofNat data.length).toInt ++ data
  else 0x00 :: (data ++ [0xff])

/-- `send`: the handler after the transmission, and the caller's string. -/
def send (handler : WebSocketHandler) (data : Text) : WebSocketHandler × Text :=
  let data := handler.framed data
  ({ handler with transmitted := handler.transmitted ++ data }, data)

/-- The handler after it has sent some messages, each in a string of its own. -/
def sendAll (handler : WebSocketHandler) (messages : List Text) : WebSocketHandler :=
  messages.foldl (fun handler data => (handler.send data).1) handler

/-- What is transmitted are the strings that `send` leaves. -/
theorem sendAll_transmitted (handler : WebSocketHandler) (messages : List Text) :
    (handler.sendAll messages).transmitted =
      handler.transmitted ++ messages.flatMap fun data => (handler.send data).2 := by
  induction messages generalizing handler with
  | nil => exact (List.append_nil _).symm
  | cons data rest ih =>
      have later := ih (handler.send data).1
      rw [sendAll, List.foldl_cons, ← sendAll, later, List.flatMap_cons, ← List.append_assoc]
      rfl

/-- A handler as constructed, with one of the contents its buffer can have. -/
def fresh : WebSocketHandler where
  buffer := fun _ => 0

end WebSocketHandler

end OfxPrimes.WebSocket
