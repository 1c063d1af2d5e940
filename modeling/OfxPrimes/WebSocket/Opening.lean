import OfxPrimes.WebSocket.Search

/-!
# The reply to an opening request

`handshake` replicates the origin and the host of a request in its reply.  It
searches the packet for their names instead of reading line by line, and puts
its own host and port where the request names no port.
-/

namespace OfxPrimes.WebSocket

open OfxPrimes.Bytes
open OfxPrimes.Search

/-! ## Lines -/

/-- The lines of a packet, each with its end. -/
def joinLines (lines : List Text) : Text :=
  lines.flatMap (· ++ ascii "\r\n")

/-- The line has no end in it, and no NUL. -/
def IsLine (line : Text) : Prop :=
  ¬ ascii "\r\n" <:+: line ∧ 0 ∉ line

instance : DecidablePred IsLine :=
  fun line => inferInstanceAs (Decidable (¬ ascii "\r\n" <:+: line ∧ 0 ∉ line))

theorem IsLine.of_suffix {line value : Text} (isLine : IsLine line) (part : value <:+ line) :
    IsLine value :=
  ⟨fun ends => isLine.1 (ends.trans part.isInfix), fun mem => isLine.2 (part.subset mem)⟩

/-- The value stands behind the first place where the name stands in the lines, and goes on
to the end of its line. -/
def FoundIn (name : Text) (lines : List Text) (value : Text) : Prop :=
  ∃ before line after front, lines = before ++ line :: after ∧
    (∀ earlier ∈ before, ¬ name <:+: earlier) ∧ FirstOccurrence name line front value

section FoundIn

variable {name value : Text} {lines : List Text}

theorem foundIn_cons_of_infix {line front : Text} (occurs : FirstOccurrence name line front value)
    (after : List Text) : FoundIn name (line :: after) value :=
  ⟨[], line, after, front, rfl, fun _ mem => absurd mem List.not_mem_nil, occurs⟩

theorem FoundIn.cons {line : Text} (absent : ¬ name <:+: line) (found : FoundIn name lines value) :
    FoundIn name (line :: lines) value := by
  obtain ⟨before, hit, after, front, rfl, earlier, occurs⟩ := found
  refine ⟨line :: before, hit, after, front, rfl, ?_, occurs⟩
  intro other mem
  rcases List.mem_cons.mp mem with rfl | mem
  · exact absent
  · exact earlier other mem

/-- A name that stands in some line is found. -/
theorem exists_foundIn {line : Text} (mem : line ∈ lines) (occurs : name <:+: line) :
    ∃ value, FoundIn name lines value := by
  induction lines with
  | nil => cases mem
  | cons head lines ih =>
      by_cases here : name <:+: head
      · obtain ⟨front, value, first⟩ := FirstOccurrence.exists_of_infix here
        exact ⟨value, foundIn_cons_of_infix first lines⟩
      · rcases List.mem_cons.mp mem with rfl | later
        · exact absurd occurs here
        · obtain ⟨value, found⟩ := ih later
          exact ⟨value, found.cons here⟩

/-- The value stays on its line. -/
theorem FoundIn.isLine (found : FoundIn name lines value) (whole : ∀ line ∈ lines, IsLine line) :
    IsLine value := by
  obtain ⟨before, line, after, front, rfl, -, occurs⟩ := found
  have isLine := whole line (List.mem_append_right _ List.mem_cons_self)
  exact isLine.of_suffix ⟨front ++ name, occurs.split.symm⟩

/-- What is found in the lines is the first occurrence in the packet, and the line ends
behind the value. -/
theorem FoundIn.firstOccurrence (found : FoundIn name lines value)
    (whole : ∀ line ∈ lines, IsLine line) (notEmpty : name ≠ [])
    (apart : 0x0d ∉ name ∧ 0x0a ∉ name) (behind : Text) :
    ∃ front more, FirstOccurrence name (joinLines lines ++ behind) front
      (value ++ ascii "\r\n" ++ more) ∧ 0 ∉ front := by
  obtain ⟨before, line, after, front, rfl, earlier, occurs⟩ := found
  induction before with
  | nil =>
      have first := occurs.append (ascii "\r\n" ++ (joinLines after ++ behind))
      refine ⟨front, joinLines after ++ behind, ?_, ?_⟩
      · simpa [joinLines] using first
      · intro mem
        apply (whole line List.mem_cons_self).2
        rw [occurs.split]
        simp [mem]
  | cons head before ih =>
      have absent : ¬ name <:+: head := earlier head List.mem_cons_self
      obtain ⟨front', more, later, noNul⟩ := ih
        (fun line mem => whole line (List.mem_cons_of_mem head mem))
        (fun line mem => earlier line (List.mem_cons_of_mem head mem))
      have atLineFeed := later.skipSeparator notEmpty apart.2
      have first := atLineFeed.skip absent apart.1
      refine ⟨head ++ 0x0d :: 0x0a :: front', more, ?_, ?_⟩
      · simpa [joinLines, ascii] using first
      · have headNoNul := (whole head List.mem_cons_self).2
        simp [headNoNul, noNul]

theorem FoundIn.readHeader {header : Text} (found : FoundIn (header ++ ascii ": ") lines value)
    (whole : ∀ line ∈ lines, IsLine line) (apart : 0x0d ∉ header ∧ 0x0a ∉ header)
    (behind : Text) : readHeader (joinLines lines ++ behind) header = value := by
  have notEmpty : header ++ ascii ": " ≠ [] := by simp [ascii]
  have apart' : 0x0d ∉ header ++ ascii ": " ∧ 0x0a ∉ header ++ ascii ": " := by
    simp [ascii, apart]
  obtain ⟨front, more, occurs, noNul⟩ := found.firstOccurrence whole notEmpty apart' behind
  have isLine := found.isLine whole
  exact readHeader_of_first occurs noNul isLine.2 isLine.1

end FoundIn

/-! ## Requests -/

/-- The value of a `Host` line: a name, and a port behind a colon if there is one. -/
def hostText (name : Text) (port : Option UInt16) : Text :=
  name ++ port.elim [] fun port => 0x3a :: decimal port.toNat

/-- The lines of an opening request in front of the empty line. -/
def requestLines (resource version : Text) (headers : List (Text × Text)) : List Text :=
  (ascii "GET " ++ resource ++ ascii " " ++ version) ::
    headers.map fun (name, value) => name ++ ascii ": " ++ value

/-- A well-formed opening request that arrives in one read: `GET <resource> <version>`, then
header lines in any order, one of them `Host` and one `Origin`, then an empty line. -/
structure OpeningRequest where
  resource : Text
  version : Text
  headers : List (Text × Text)
  hostName : Text
  port : Option UInt16
  origin : Text
  oneHost : headers.filter (·.1 = ascii "Host") = [(ascii "Host", hostText hostName port)]
  oneOrigin : headers.filter (·.1 = ascii "Origin") = [(ascii "Origin", origin)]
  /-- A colon in the name of a host stands between brackets. -/
  isHostName : 0x3a ∉ hostName ∨ ∃ address, hostName = ascii "[" ++ address ++ ascii "]"
  isPort : port ≠ some 0
  oneWord : 0x20 ∉ resource
  whole : ∀ line ∈ requestLines resource version headers, IsLine line
  fits : (joinLines (requestLines resource version headers) ++ ascii "\r\n").length ≤ bufferSize

namespace OpeningRequest

variable (request : OpeningRequest)

/-- The lines of the request, without the empty one at the end. -/
def lines : List Text :=
  requestLines request.resource request.version request.headers

/-- The read with which the request arrives. -/
def read : Read :=
  ⟨joinLines request.lines ++ ascii "\r\n", request.fits⟩

theorem header_mem_lines {header : Text × Text} (mem : header ∈ request.headers) :
    header.1 ++ ascii ": " ++ header.2 ∈ request.lines :=
  List.mem_cons_of_mem _ (List.mem_map_of_mem mem)

/-- A name that some header has is found, though not always in that header. -/
theorem exists_foundIn_of_header {name value : Text}
    (mem : (name, value) ∈ request.headers) :
    ∃ found, FoundIn (name ++ ascii ": ") request.lines found :=
  exists_foundIn (request.header_mem_lines mem) (List.prefix_append _ value).isInfix

theorem host_mem_headers :
    (ascii "Host", hostText request.hostName request.port) ∈ request.headers := by
  apply List.mem_of_mem_filter (p := fun header => header.1 = ascii "Host")
  rw [request.oneHost]
  exact List.mem_singleton_self _

theorem origin_mem_headers : (ascii "Origin", request.origin) ∈ request.headers := by
  apply List.mem_of_mem_filter (p := fun header => header.1 = ascii "Origin")
  rw [request.oneOrigin]
  exact List.mem_singleton_self _

theorem readHeader_read {header value : Text}
    (found : FoundIn (header ++ ascii ": ") request.lines value)
    (apart : 0x0d ∉ header ∧ 0x0a ∉ header) : readHeader request.read.val header = value :=
  found.readHeader request.whole apart (ascii "\r\n")

theorem readResource_read : readResource request.read.val = request.resource := by
  have noNul : 0 ∉ request.resource := by
    have requestLine := (request.whole _ List.mem_cons_self).2
    intro mem
    exact requestLine (by simp [mem])
  have split : request.read.val = ascii "GET " ++ (request.resource ++ ascii " " ++
      (request.version ++ ascii "\r\n" ++ (joinLines request.lines.tail ++ ascii "\r\n"))) := by
    simp [read, lines, requestLines, joinLines]
  rw [split, readResource_of_request request.oneWord noNul]

/-- The value of a header stays on its line. -/
theorem isLine_origin : IsLine request.origin := by
  have isLine := request.whole _ (request.header_mem_lines request.origin_mem_headers)
  exact isLine.of_suffix (List.suffix_append _ _)

end OpeningRequest

/-! ## The host -/

/-- A host and a port spell the value of a `Host` line only if the line names that port. -/
theorem hostText_eq_iff {name name' : Text} {port : Option UInt16} {port' : UInt16}
    (isHostName : 0x3a ∉ name ∨ ∃ address, name = ascii "[" ++ address ++ ascii "]") :
    name' ++ 0x3a :: decimal port'.toNat = hostText name port ↔
      name = name' ∧ port = some port' := by
  cases port with
  | some port =>
      constructor
      · intro same
        obtain ⟨rfl, samePort⟩ :=
          last_colon_unique (decimal_noColon _) (decimal_noColon port.toNat) same
        exact ⟨rfl, congrArg some (UInt16.toNat_inj.mp (decimal_inj samePort).symm)⟩
      · rintro ⟨rfl, samePort⟩
        cases samePort
        rfl
  | none =>
      constructor
      · intro same
        rw [hostText, Option.elim_none, List.append_nil] at same
        rcases isHostName with noColon | ⟨address, rfl⟩
        · exact absurd (same ▸ List.mem_append_right name' List.mem_cons_self) noColon
        · rw [List.append_cons] at same
          exact absurd same (append_decimal_ne _ _ (by decide))
      · rintro ⟨-, impossible⟩
        cases impossible

namespace WebSocketHandler

variable (handler : WebSocketHandler)

/-- From what stands behind `Host: ` the handler takes this host and this port: those around
the last colon, or its own where there is no colon. -/
def TakesHost (socket name : Text) (port : UInt16) : Prop :=
  (∃ behind, socket = name ++ 0x3a :: behind ∧ 0x3a ∉ behind ∧
      UInt16.ofNat (atoi behind % 2 ^ 16).toNat = port) ∨
    (0x3a ∉ socket ∧ handler.host = name ∧ handler.port = port)

/-- The handler takes one host and one port, and its service is made of them. -/
theorem replicateHeaders_service {packet socket : Text}
    (isSocket : readHeader packet (ascii "Host") = socket) :
    ∃ name port,
      (∀ name' port', handler.TakesHost socket name' port' ↔ name = name' ∧ port = port') ∧
      (handler.replicateHeaders packet).service =
        ascii "ws://" ++ (name ++ 0x3a :: decimal port.toNat) ++ readResource packet := by
  rcases colon_cases socket with noColon | ⟨name, behind, rfl, last⟩
  · refine ⟨handler.host, handler.port, ?_, ?_⟩
    · intro name' port'
      constructor
      · rintro (⟨behind, rfl, -⟩ | ⟨-, sameHost, samePort⟩)
        · exact absurd (List.mem_append_right name' List.mem_cons_self) noColon
        · exact ⟨sameHost, samePort⟩
      · rintro ⟨sameHost, samePort⟩
        exact .inr ⟨noColon, sameHost, samePort⟩
    · simp only [replicateHeaders, isSocket, findLastColon_of_notMem noColon]
      simp [decimal, ascii]
  · refine ⟨name, UInt16.ofNat (atoi behind % 2 ^ 16).toNat, ?_, ?_⟩
    · intro name' port'
      constructor
      · rintro (⟨behind', same, last', samePort⟩ | ⟨noColon, -⟩)
        · obtain ⟨rfl, rfl⟩ := last_colon_unique last last' same
          exact ⟨rfl, samePort⟩
        · exact absurd (List.mem_append_right name List.mem_cons_self) noColon
      · rintro ⟨rfl, samePort⟩
        exact .inl ⟨behind, rfl, last, samePort⟩
    · have behindColon : (name ++ 0x3a :: behind).drop (name.length + 1) = behind := by
        rw [List.append_cons, List.drop_left' (by simp)]
      simp only [replicateHeaders, isSocket, findLastColon_append name last, List.take_left,
        behindColon]
      simp [decimal, ascii]

/-! ## The reply -/

/-- The reply that carries an origin and a location. -/
def openingReply (origin location : Text) : Text :=
  ascii "HTTP/1.1 101 Web Socket Protocol Handshake\r\n" ++ ascii "Upgrade: WebSocket\r\n" ++
    ascii "Connection: Upgrade\r\n" ++
    ascii "WebSocket-Origin: " ++ origin ++ ascii "\r\n" ++
    ascii "WebSocket-Location: " ++ location ++ ascii "\r\n\r\n"

/-- The reply to the request carries its origin, and its host and resource as the location. -/
def RepliesTo (request : OpeningRequest) : Prop :=
  (handler.onReadable request.read).transmitted =
    handler.transmitted ++ openingReply request.origin
      (ascii "ws://" ++ hostText request.hostName request.port ++ request.resource)

theorem handshakeReply_eq : handler.handshakeReply = openingReply handler.origin handler.service :=
  rfl

/-- Replies that carry one-line origins are the same only if they carry the same. -/
theorem openingReply_eq_iff {origin origin' location location' : Text} (isLine : IsLine origin)
    (isLine' : IsLine origin') :
    openingReply origin location = openingReply origin' location' ↔
      origin = origin' ∧ location = location' := by
  constructor
  · intro same
    simp only [openingReply, List.append_assoc, List.append_cancel_left_eq] at same
    have ends : ∀ {origin : Text} (location : Text), IsLine origin →
        FirstOccurrence (ascii "\r\n") (origin ++ (ascii "\r\n" ++ (ascii "WebSocket-Location: " ++
          (location ++ ascii "\r\n\r\n")))) origin
          (ascii "WebSocket-Location: " ++ (location ++ ascii "\r\n\r\n")) := by
      intro origin location isLine
      rw [← List.append_assoc]
      exact FirstOccurrence.ofAbsent (by decide) isLine.1
    obtain ⟨sameOrigin, sameRest⟩ := (ends location isLine).unique (same ▸ ends location' isLine')
    exact ⟨sameOrigin, List.append_cancel_right (List.append_cancel_left sameRest)⟩
  · rintro ⟨rfl, rfl⟩
    rfl

/-- What is transmitted in reply to a first read. -/
theorem onReadable_transmitted (unsent : handler.sentHandshake = false)
    (replicates : handler.bReplicateHeaders = true) (read : Read) :
    (handler.onReadable read).transmitted =
      handler.transmitted ++ openingReply (readHeader read.val (ascii "Origin"))
        (handler.replicateHeaders read.val).service := by
  cases got : handler.gotHandshake <;>
    cases found : strnstr (ascii "\r\n\r\n") read.val <;>
    simp [onReadable, handshake, unsent, replicates, got, found, handshakeReply_eq,
      replicateHeaders]

/-- The reply is right exactly when the origin that is found is the request's, and the host
and port that are taken are those the request names. -/
theorem repliesTo_iff_of_found {request : OpeningRequest} {origin socket : Text}
    (unsent : handler.sentHandshake = false) (replicates : handler.bReplicateHeaders = true)
    (foundOrigin : FoundIn (ascii "Origin: ") request.lines origin)
    (foundHost : FoundIn (ascii "Host: ") request.lines socket) :
    handler.RepliesTo request ↔
      origin = request.origin ∧
        ∃ port, request.port = some port ∧ handler.TakesHost socket request.hostName port := by
  have readOrigin : readHeader request.read.val (ascii "Origin") = origin :=
    request.readHeader_read foundOrigin (by decide)
  have readHost : readHeader request.read.val (ascii "Host") = socket :=
    request.readHeader_read foundHost (by decide)
  obtain ⟨name, port, takes, service⟩ := handler.replicateHeaders_service readHost
  rw [RepliesTo, handler.onReadable_transmitted unsent replicates, List.append_cancel_left_eq,
    readOrigin, service, request.readResource_read,
    openingReply_eq_iff (foundOrigin.isLine request.whole) request.isLine_origin,
    List.append_cancel_right_eq, List.append_cancel_left_eq, hostText_eq_iff request.isHostName]
  constructor
  · rintro ⟨sameOrigin, sameName, samePort⟩
    exact ⟨sameOrigin, port, samePort, (takes _ _).mpr ⟨sameName.symm, rfl⟩⟩
  · rintro ⟨sameOrigin, port', samePort, taken⟩
    obtain ⟨sameName, rfl⟩ := (takes _ _).mp taken
    exact ⟨sameOrigin, sameName.symm, samePort⟩

/-- A request that names no port gets a wrong location. -/
theorem not_repliesTo_of_noPort {request : OpeningRequest}
    (unsent : handler.sentHandshake = false) (replicates : handler.bReplicateHeaders = true)
    (noPort : request.port = none) : ¬ handler.RepliesTo request := by
  obtain ⟨origin, foundOrigin⟩ := request.exists_foundIn_of_header request.origin_mem_headers
  obtain ⟨socket, foundHost⟩ := request.exists_foundIn_of_header request.host_mem_headers
  rw [handler.repliesTo_iff_of_found unsent replicates foundOrigin foundHost]
  rintro ⟨-, port, somePort, -⟩
  rw [noPort] at somePort
  cases somePort

/-- A request that names a port gets the right reply if the names of its two lines stand
nowhere before them. -/
theorem repliesTo_of_port {request : OpeningRequest} {port : UInt16}
    (unsent : handler.sentHandshake = false) (replicates : handler.bReplicateHeaders = true)
    (hasPort : request.port = some port)
    (foundOrigin : FoundIn (ascii "Origin: ") request.lines request.origin)
    (foundHost : FoundIn (ascii "Host: ") request.lines
      (hostText request.hostName request.port)) :
    handler.RepliesTo request := by
  rw [handler.repliesTo_iff_of_found unsent replicates foundOrigin foundHost]
  refine ⟨rfl, port, hasPort, .inl ⟨decimal port.toNat, ?_, decimal_noColon _, ?_⟩⟩
  · rw [hasPort, hostText, Option.elim_some]
  · have inRange : ((port.toNat : Int) % 2 ^ 16).toNat = port.toNat := by
      have below := port.toNat_lt
      omega
    rw [atoi_decimal (lt_trans port.toNat_lt (by decide)), inRange, UInt16.ofNat_toNat]

/-- The reply carries the request's origin, host and resource exactly when the first place
with `Origin: ` is followed by the origin, the request names a port, and the handler takes that
host and port from the first place with `Host: `. -/
theorem repliesTo_iff (request : OpeningRequest) (unsent : handler.sentHandshake = false)
    (replicates : handler.bReplicateHeaders = true) :
    handler.RepliesTo request ↔
      FoundIn (ascii "Origin: ") request.lines request.origin ∧
        ∃ port, request.port = some port ∧
          ∃ socket, FoundIn (ascii "Host: ") request.lines socket ∧
            handler.TakesHost socket request.hostName port := by
  constructor
  · intro replies
    obtain ⟨origin, foundOrigin⟩ := request.exists_foundIn_of_header request.origin_mem_headers
    obtain ⟨socket, foundHost⟩ := request.exists_foundIn_of_header request.host_mem_headers
    obtain ⟨rfl, port, hasPort, taken⟩ :=
      (handler.repliesTo_iff_of_found unsent replicates foundOrigin foundHost).mp replies
    exact ⟨foundOrigin, port, hasPort, socket, foundHost, taken⟩
  · rintro ⟨foundOrigin, port, hasPort, socket, foundHost, taken⟩
    exact (handler.repliesTo_iff_of_found unsent replicates foundOrigin foundHost).mpr
      ⟨rfl, port, hasPort, taken⟩

/-- `GET / HTTP/1.1`, `Host: h` or `Host: h:80`, and `Origin: o`. -/
def sampleRequest (port : Option UInt16) (isPort : port = none ∨ port = some 80) :
    OpeningRequest where
  resource := ascii "/"
  version := ascii "HTTP/1.1"
  headers := [(ascii "Host", hostText (ascii "h") port), (ascii "Origin", ascii "o")]
  hostName := ascii "h"
  port := port
  origin := ascii "o"
  oneHost := rfl
  oneOrigin := rfl
  isHostName := .inl (by decide)
  isPort := by rcases isPort with rfl | rfl <;> decide
  oneWord := by decide
  whole := by rcases isPort with rfl | rfl <;> decide
  fits := by rcases isPort with rfl | rfl <;> decide

theorem repliesTo_iff_sample : fresh.RepliesTo (sampleRequest (some 80) (.inr rfl)) := by
  apply (repliesTo_iff fresh (sampleRequest (some 80) (.inr rfl)) rfl rfl).mpr
  refine ⟨?_, 80, rfl, ascii "h:80", ?_, .inl ⟨ascii "80", rfl, by decide, by decide⟩⟩
  · apply FoundIn.cons (by decide)
    apply FoundIn.cons (by decide)
    exact foundIn_cons_of_infix (FirstOccurrence.ofPrefix (ascii "Origin: ") (ascii "o")) _
  · apply FoundIn.cons (by decide)
    exact foundIn_cons_of_infix (FirstOccurrence.ofPrefix (ascii "Host: ") (ascii "h:80")) _

/-- Where the request names no port, the handler puts its own host and port. -/
theorem not_repliesTo_sample : ¬ fresh.RepliesTo (sampleRequest none (.inl rfl)) :=
  fresh.not_repliesTo_of_noPort rfl rfl rfl

end WebSocketHandler

end OfxPrimes.WebSocket
