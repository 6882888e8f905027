import Tigerso.MessageArrivals
import Tigerso.ParserRuns

/-!
# http/HttpMessage and http/lib/http_parser: what is sent is what is read

The header string of a message is reported as the fields it was made of, the bytes behind it as the
body they code, and the callbacks store the fields in the message that is read.
-/

open SystemCalls HttpMessage HttpParser HttpHelper ChunkedCoding

namespace HttpLib

/-- A request that can be sent, and not for another protocol. -/
structure SentRequest (strict : Bool) (m : HttpMessage) (k : Method) (minor : Byte) : Prop where
  role : m.role = .httpRoleRequest
  method : m.method = methodStrings k
  url : IsUrl strict k m.url
  version : m.version = versionText minor
  digit : isNum minor
  headers : SentHeaders m.headers
  plain : ¬ Names m.headers (literal "upgrade")
  short : m.getHeader.length ≤ httpMaxHeaderSize

/-- A response that can be sent, and not for another protocol. -/
structure SentResponse (m : HttpMessage) (minor : Byte) : Prop where
  role : m.role = .httpRoleResponse
  some_code : m.statuscode ≠ 0
  code : m.statuscode ≤ 999
  reason : IsReason m.desc
  version : m.version = versionText minor
  digit : isNum minor
  headers : SentHeaders m.headers
  plain : ¬ Names m.headers (literal "upgrade")
  short : m.getHeader.length ≤ httpMaxHeaderSize

variable {strict : Bool} {m : HttpMessage} {k : Method} {minor : Byte} {stream body first : Bytes}
  {buffers : List (Bytes × Nat)}

theorem headerLines_eq (headers : List (Bytes × Bytes)) :
    headerLines headers = headers.flatMap headerLine ++ literal "\r\n" := rfl

theorem SentRequest.header (sent : SentRequest strict m k minor) :
    m.getHeader = messageHead (requestLine k m.url minor) m.headers := by
  have some_method : m.method ≠ [] := by
    rw [sent.method]
    cases k <;> decide
  have some_url : m.url ≠ [] := sent.url.some_
  unfold HttpMessage.getHeader
  rw [sent.role]
  refine (if_neg (not_or.mpr ⟨some_method, some_url⟩)).trans ?_
  rw [sent.method, sent.version, headerLines_eq]
  simp only [messageHead, requestLine, List.append_assoc]

theorem SentResponse.header (sent : SentResponse m minor) :
    m.getHeader = messageHead (statusLine minor m.statuscode m.desc) m.headers := by
  unfold HttpMessage.getHeader
  rw [sent.role]
  refine (if_neg (not_or.mpr ⟨sent.some_code, sent.reason.some_⟩)).trans ?_
  rw [sent.version, headerLines_eq]
  simp only [messageHead, statusLine, List.append_assoc]

theorem messageHead_length (line : Bytes) (headers : List (Bytes × Bytes)) :
    (messageHead line headers).length = line.length + (headers.flatMap headerLine).length + 2 := by
  have crlf : (literal "\r\n").length = 2 := by decide
  simp only [messageHead, List.length_append, crlf]

theorem messageHead_some (line : Bytes) (headers : List (Bytes × Bytes)) :
    messageHead line headers ≠ [] := by
  intro none_left
  have length := congrArg List.length none_left
  rw [messageHead_length, List.length_nil] at length
  omega

theorem requestLine_some (k : Method) (url : Bytes) (minor : Byte) :
    requestLine k url minor ≠ [] := by
  intro none_left
  have length := requestLine_length k url minor
  rw [none_left, List.length_nil] at length
  omega

theorem statusLine_some (minor : Byte) (code : Nat) (desc : Bytes) :
    statusLine minor code desc ≠ [] := by
  simp [statusLine, versionText]

theorem Run.start_clear {q : Parser} (fresh : resumed q.state = none) :
    Run.start q = .clear q [] := by
  have unset := start_none fresh
  rw [Run.eq_clear unset]
  rfl

/-- The request line at the start of a connection. -/
theorem SentRequest.line (sent : SentRequest strict m k minor) (answer : Nat) :
    Takes strict answer (.start (httpParserInit .httpRequest)) (requestLine k m.url minor)
        (.clear ((httpParserInit .httpRequest).requested k minor (requestLine k m.url minor).length)
          [.onMessageBegin, .onUrl m.url]) ∧
      AtHeaders ((httpParserInit .httpRequest).requested k minor
        (requestLine k m.url minor).length) ∧
      ((httpParserInit .httpRequest).requested k minor (requestLine k m.url minor).length).nread +
        (m.headers.flatMap headerLine).length + 2 ≤ httpMaxHeaderSize := by
  have short : 0 + (requestLine k m.url minor).length + (m.headers.flatMap headerLine).length + 2 ≤
      httpMaxHeaderSize := by
    rw [Nat.zero_add, ← messageHead_length, ← sent.header]
    exact sent.short
  have start : Run.start (httpParserInit .httpRequest) = .clear (httpParserInit .httpRequest) [] :=
    Run.start_clear rfl
  rw [start]
  refine ⟨takes_requestLine rfl sent.url sent.digit ?_, ⟨rfl, rfl, rfl, rfl, rfl⟩, short⟩
  show 0 + (requestLine k m.url minor).length ≤ _
  omega

/-- The status line at the start of a connection. -/
theorem SentResponse.line (sent : SentResponse m minor) (strict : Bool) (answer : Nat) :
    Takes strict answer (.start (httpParserInit .httpResponse))
      (statusLine minor m.statuscode m.desc)
        (.clear ((httpParserInit .httpResponse).responded minor m.statuscode
          (statusLine minor m.statuscode m.desc).length) [.onMessageBegin, .onStatus m.desc]) ∧
      AtHeaders ((httpParserInit .httpResponse).responded minor m.statuscode
        (statusLine minor m.statuscode m.desc).length) ∧
      ((httpParserInit .httpResponse).responded minor m.statuscode
        (statusLine minor m.statuscode m.desc).length).nread +
        (m.headers.flatMap headerLine).length + 2 ≤ httpMaxHeaderSize := by
  have short : 0 + (statusLine minor m.statuscode m.desc).length +
      (m.headers.flatMap headerLine).length + 2 ≤ httpMaxHeaderSize := by
    rw [Nat.zero_add, ← messageHead_length, ← sent.header]
    exact sent.short
  have start : Run.start (httpParserInit .httpResponse) =
    .clear (httpParserInit .httpResponse) [] :=
    Run.start_clear rfl
  rw [start]
  refine ⟨takes_statusLine rfl sent.digit sent.code sent.reason ?_,
    ⟨rfl, rfl, rfl, rfl, rfl⟩, short⟩
  show 0 + (statusLine minor m.statuscode m.desc).length ≤ _
  omega

instance (name : Bytes) : Decidable (IsName name) :=
  inferInstanceAs (Decidable (∀ c ∈ name, tokens c ≠ 0))

instance (value : Bytes) : Decidable (IsValue value) :=
  inferInstanceAs (Decidable (∀ c ∈ value, isHeaderChar c ∧ c ≠ cr ∧ c ≠ lf))

instance (headers : List (Bytes × Bytes)) (name : Bytes) : Decidable (Names headers name) :=
  inferInstanceAs (Decidable (∃ p ∈ headers, p.1.map tokens = name))

theorem isChunked_iff (value : Bytes) :
    IsChunked value ↔ value.map lower =
      literal "chunked" ++ List.replicate (value.length - 7) sp := by
  refine ⟨?_, fun same => ⟨_, same⟩⟩
  rintro ⟨n, same⟩
  have length := congrArg List.length same
  have seven : (literal "chunked").length = 7 := by decide
  rw [List.length_map, List.length_append, List.length_replicate, seven] at length
  rw [same, length, Nat.add_sub_cancel_left]

instance (value : Bytes) : Decidable (IsChunked value) := decidable_of_iff' _ (isChunked_iff value)

instance (headers : List (Bytes × Bytes)) : Decidable (SaysChunked headers) :=
  inferInstanceAs (Decidable
    (∃ p ∈ headers, p.1.map tokens = literal "transfer-encoding" ∧ IsChunked p.2))

instance (headers : List (Bytes × Bytes)) (length : Nat) : Decidable (SaysLength headers length) :=
  inferInstanceAs (Decidable
    (∃ p ∈ headers, p.1.map tokens = literal "content-length" ∧ decimalFrom 0 p.2 = length))

theorem sentHeader_iff (name value : Bytes) :
    SentHeader name value ↔ name ≠ [] ∧ IsName name ∧ IsValue value ∧
      (∀ c ∈ value.take 1, c ≠ sp ∧ c ≠ ht) ∧ (name.map tokens = literal "content-length" →
        value ≠ [] ∧ (∀ c ∈ value, isNum c) ∧ decimalFrom 0 value ≤ lengthLimit) := by
  constructor
  · intro sent
    refine ⟨sent.some_name, sent.isName, sent.isValue, fun c first => ?_, sent.number⟩
    cases value with
    | nil => cases first
    | cons b rest =>
      obtain rfl := List.mem_singleton.mp first
      exact sent.begins c rest rfl
  · rintro ⟨some_name, isName, isValue, begins, number⟩
    refine ⟨some_name, isName, isValue, fun c rest same => ?_, number⟩
    subst same
    exact begins c List.mem_cons_self

instance (name value : Bytes) : Decidable (SentHeader name value) :=
  haveI : Decidable (∀ c ∈ value.take 1, c ≠ sp ∧ c ≠ ht) := List.decidableBAll _ _
  haveI : Decidable (∀ c ∈ value, isNum c) := List.decidableBAll _ _
  decidable_of_iff' _ (sentHeader_iff name value)

theorem sentHeaders_iff (headers : List (Bytes × Bytes)) :
    SentHeaders headers ↔ (∀ p ∈ headers, SentHeader p.1 p.2) ∧
      headers.Pairwise fun p p' => p.1.map tokens ≠ p'.1.map tokens :=
  ⟨fun sent => ⟨sent.sent, sent.distinct⟩, fun ⟨sent, distinct⟩ => ⟨sent, distinct⟩⟩

instance (headers : List (Bytes × Bytes)) : Decidable (SentHeaders headers) :=
  decidable_of_iff' _ (sentHeaders_iff headers)

def postedThree : HttpMessage :=
  { HttpMessage.construct .httpRoleRequest fun _ => 0 with
    method := literal "POST", url := literal "/a"
    headers := [(literal "Host", literal "b"), (literal "Content-Length", literal "3")] }

def tunnelled : HttpMessage :=
  { HttpMessage.construct .httpRoleRequest fun _ => 0 with
    method := literal "CONNECT", url := literal "b:80", headers := [(literal "Host", literal "b")] }

def chunkedThree : HttpMessage :=
  { HttpMessage.construct .httpRoleResponse fun _ => 0 with
    statuscode := 200, desc := literal "OK"
    headers := [(literal "Server", literal "b"), (literal "Transfer-Encoding", literal "Chunked")] }

def unsizedThree : HttpMessage :=
  { HttpMessage.construct .httpRoleResponse fun _ => 0 with
    statuscode := 200, desc := literal "OK", headers := [(literal "Server", literal "b")] }

theorem postedThree_sent : SentRequest true postedThree .httpPost (ascii '1') where
  role := rfl
  method := by decide
  url := by
    unfold IsUrl
    decide +kernel
  version := by decide
  digit := by decide
  headers := by decide +kernel
  plain := by decide +kernel
  short := by decide +kernel

theorem postedThree_carries : Carries postedThree.headers (literal "abc") (literal "abc") :=
  .sized (by decide +kernel) (by decide +kernel)

theorem tunnelled_sent : SentRequest true tunnelled .httpConnect (ascii '1') where
  role := rfl
  method := by decide
  url := by
    unfold IsUrl
    decide +kernel
  version := by decide
  digit := by decide
  headers := by decide +kernel
  plain := by decide +kernel
  short := by decide +kernel

theorem chunkedThree_sent : SentResponse chunkedThree (ascii '1') where
  role := rfl
  some_code := by decide
  code := by decide
  reason := ⟨by decide, by decide +kernel⟩
  version := by decide
  digit := by decide
  headers := by decide +kernel
  plain := by decide +kernel
  short := by decide +kernel

theorem unsizedThree_sent : SentResponse unsizedThree (ascii '1') where
  role := rfl
  some_code := by decide
  code := by decide
  reason := ⟨by decide, by decide +kernel⟩
  version := by decide
  digit := by decide
  headers := by decide +kernel
  plain := by decide +kernel
  short := by decide +kernel

theorem chunkedThree_carries :
    Carries chunkedThree.headers (literal "3\r\nabc\r\n0\r\n\r\n") (literal "abc") := by
  have coded : Limited sizeDigits (literal "3" ++ crlf ++ (literal "abc" ++ crlf ++ lastChunk))
      (literal "abc" ++ []) := .chunk (by decide) (by decide) (by decide) .last
  exact .chunked (by decide +kernel) (by decide +kernel) coded (by decide)

/-- The number of a digit is zero for `0` only. -/
theorem digit_zero {c : Byte} (digit : isNum c) : c.toNat - 48 = 0 ↔ c = ascii '0' :=
  forall_byte (P := fun c => isNum c → (c.toNat - 48 = 0 ↔ c = ascii '0'))
    (by decide +kernel) c digit

/-- Where a message leaves the parser, by the last digit of its version. -/
theorem AtNext.ready {headers : List (Bytes × Bytes)} {q q' : Parser} {start : State}
    (next : AtNext strict headers q q') (minor_ : q.httpMinor = minor.toNat - 48)
    (digit : isNum minor) (kind : startState q = start) :
    (q'.state = if strict ∧ httpShouldKeepAlive q' = false then .sDead else start) ∧
      ((∀ p ∈ headers, ¬ IsConnection p.1) →
        q'.state = if strict ∧ minor = ascii '0' then .sDead else start) := by
  subst kind
  refine ⟨next.state, fun plain => ?_⟩
  rw [next.byVersion plain, minor_]
  simp only [digit_zero digit]

/-- A request whose headers say how its body is coded is reported as it was sent, with its body and
its end, when the bytes behind the header are cut in any way. The next one is read when the
connection stays open. -/
theorem request_arrives (sent : SentRequest strict m k minor) (noTunnel : k ≠ .httpConnect)
    (carries : Carries m.headers stream body) (some_ : ∀ buffer ∈ buffers, buffer.1 ≠ [])
    (cut : first ++ (buffers.map (·.1)).flatten = stream) :
    ∃ q start bodies, feed strict (httpParserInit .httpRequest)
        ((m.getHeader ++ first, 0) :: buffers) =
        some (q, [.onMessageBegin, .onUrl m.url] ++ m.headers.flatMap headerReports ++
          [.onHeadersComplete start] ++ List.map .onBody bodies ++ [.onMessageComplete]) ∧
      bodies.flatten = body ∧ start.method = m.method ∧ start.httpMajor = 1 ∧
      start.httpMinor = minor.toNat - 48 ∧ (start.chunked ↔ SaysChunked m.headers) ∧
      (q.state = if strict ∧ httpShouldKeepAlive q = false then .sDead else .sStartReq) ∧
      ((∀ p ∈ m.headers, ¬ IsConnection p.1) →
        q.state = if strict ∧ minor = ascii '0' then .sDead else .sStartReq) ∧
      q.httpErrno = .hpeOk := by
  obtain ⟨taken, at_, short⟩ := sent.line 0
  obtain ⟨q, callbacks, fed, ⟨start, bodies, knows, all, rfl⟩, next, ok⟩ :=
    carried_arrives rfl (requestLine_some _ _ _) taken at_ noTunnel sent.headers sent.plain
      short carries
      (.inr (.inr rfl)) some_ cut
  obtain ⟨state, byVersion⟩ := next.ready rfl sent.digit rfl
  rw [sent.header]
  exact ⟨q, start, bodies, fed, all, knows.method.trans sent.method.symm, knows.major, knows.minor,
    knows.chunked, state, byVersion, ok⟩

/-- The body cut behind its first byte. -/
theorem request_arrives_posted :
    ∃ q start bodies, feed true (httpParserInit .httpRequest)
        [(postedThree.getHeader ++ literal "a", 0), (literal "bc", 0)] =
        some (q, [.onMessageBegin, .onUrl (literal "/a")] ++
          postedThree.headers.flatMap headerReports ++ [.onHeadersComplete start] ++
          List.map .onBody bodies ++ [.onMessageComplete]) ∧
      bodies.flatten = literal "abc" := by
  have some_ : ∀ buffer ∈ ([(literal "bc", 0)] : List (Bytes × Nat)), buffer.1 ≠ [] := by decide
  have cut : literal "a" ++ ([(literal "bc", 0)].map (·.1 : Bytes × Nat → Bytes)).flatten =
    literal "abc" := by decide
  obtain ⟨q, start, bodies, fed, all, -⟩ :=
    request_arrives postedThree_sent (by decide) postedThree_carries some_ cut
  exact ⟨q, start, bodies, fed, all⟩

/-- A response, too, when its headers say how its body is coded. -/
theorem response_arrives (sent : SentResponse m minor) (carries : Carries m.headers stream body)
    (ends : Names m.headers (literal "content-length") ∨ SaysChunked m.headers)
    (some_ : ∀ buffer ∈ buffers, buffer.1 ≠ [])
    (cut : first ++ (buffers.map (·.1)).flatten = stream) :
    ∃ q start bodies, feed strict (httpParserInit .httpResponse)
        ((m.getHeader ++ first, 0) :: buffers) =
        some (q, [.onMessageBegin, .onStatus m.desc] ++ m.headers.flatMap headerReports ++
          [.onHeadersComplete start] ++ List.map .onBody bodies ++ [.onMessageComplete]) ∧
      bodies.flatten = body ∧ start.statusCode = m.statuscode ∧ start.httpMajor = 1 ∧
      start.httpMinor = minor.toNat - 48 ∧ (start.chunked ↔ SaysChunked m.headers) ∧
      (q.state = if strict ∧ httpShouldKeepAlive q = false then .sDead else .sStartRes) ∧
      ((∀ p ∈ m.headers, ¬ IsConnection p.1) →
        q.state = if strict ∧ minor = ascii '0' then .sDead else .sStartRes) ∧
      q.httpErrno = .hpeOk := by
  obtain ⟨taken, at_, short⟩ := sent.line strict 0
  have noTunnel : Method.httpDelete ≠ .httpConnect := by decide
  obtain ⟨q, callbacks, fed, ⟨start, bodies, knows, all, rfl⟩, next, ok⟩ :=
    carried_arrives rfl (statusLine_some _ _ _) taken at_ noTunnel sent.headers sent.plain
      short carries
      (ends.imp_right .inl) some_ cut
  obtain ⟨state, byVersion⟩ := next.ready rfl sent.digit rfl
  rw [sent.header]
  exact ⟨q, start, bodies, fed, all, knows.code, knows.major, knows.minor, knows.chunked, state,
    byVersion, ok⟩

/-- The chunks cut inside of the size line. -/
theorem response_arrives_chunked :
    ∃ q start bodies, feed true (httpParserInit .httpResponse)
        [(chunkedThree.getHeader ++ literal "3\r", 0), (literal "\nabc\r\n0\r\n\r\n", 0)] =
        some (q, [.onMessageBegin, .onStatus (literal "OK")] ++
          chunkedThree.headers.flatMap headerReports ++ [.onHeadersComplete start] ++
          List.map .onBody bodies ++ [.onMessageComplete]) ∧
      bodies.flatten = literal "abc" := by
  have some_ : ∀ buffer ∈ ([(literal "\nabc\r\n0\r\n\r\n", 0)] : List (Bytes × Nat)),
      buffer.1 ≠ [] := by decide
  have cut : literal "3\r" ++ ([(literal "\nabc\r\n0\r\n\r\n", 0)].map
      (·.1 : Bytes × Nat → Bytes)).flatten = literal "3\r\nabc\r\n0\r\n\r\n" := by decide
  obtain ⟨q, start, bodies, fed, all, -⟩ :=
    response_arrives chunkedThree_sent chunkedThree_carries (.inr (by decide +kernel)) some_ cut
  exact ⟨q, start, bodies, fed, all⟩

/-- Behind the header of a request for a tunnel the call returns: the bytes that follow are left,
and the parser says so. -/
theorem tunnel_stops (sent : SentRequest strict m .httpConnect minor)
    (framed : ¬ (SaysChunked m.headers ∧ Names m.headers (literal "content-length")))
    (rest : Bytes) :
    ∃ q start, httpParserExecute strict 0 (httpParserInit .httpRequest) (m.getHeader ++ rest) =
        some (q, ⟨[.onMessageBegin, .onUrl m.url] ++ m.headers.flatMap headerReports ++
          [.onHeadersComplete start] ++ [.onMessageComplete], m.getHeader.length⟩) ∧
      start.method = m.method ∧ q.upgrade ∧ q.httpErrno = .hpeOk := by
  obtain ⟨taken, at_, short⟩ := sent.line (answerOf false)
  obtain ⟨q', behind, -, leaves⟩ := head_ends taken at_ sent.headers framed short
  have tunnel : q'.method = .httpConnect := behind.method
  have upgrade : (q'.headed false).upgrade = true := by
    show (q'.flags.fUpgrade && q'.flags.fConnectionUpgrade ||
      decide (q'.method = .httpConnect)) = true
    rw [decide_eq_true tunnel, Bool.or_true]
  let head : Bytes := messageHead (requestLine .httpConnect m.url minor) m.headers
  let q₁ : Parser := { q'.headed false with
    nread := 0, state := newMessage strict { q'.headed false with nread := 0 } }
  let cs₁ : List Callback := [.onMessageBegin, .onUrl m.url] ++ m.headers.flatMap headerReports ++
    [.onHeadersComplete q'.startLine] ++ [.onMessageComplete]
  have returned : loop strict 0 0 (.start (httpParserInit .httpRequest)) (head ++ rest) =
      .returned (.clear q₁ cs₁) rest.length := leaves _ rest (headers_done_tunnel upgrade tunnel)
  have some_data : head ++ rest ≠ [] := List.append_ne_nil_of_left_ne_nil
    (messageHead_some _ _) rest
  have left : (head ++ rest).length - rest.length = head.length := by
    rw [List.length_append, Nat.add_sub_cancel]
  have executed : httpParserExecute strict 0 (httpParserInit .httpRequest) (head ++ rest) =
      some (q₁, ⟨cs₁, head.length⟩) := by
    have ok : (httpParserInit .httpRequest).httpErrno = .hpeOk := rfl
    unfold httpParserExecute
    rw [if_neg (not_not.mpr ok), if_neg some_data, returned]
    dsimp only
    rw [left]
    rfl
  rw [sent.header]
  exact ⟨q₁, q'.startLine, executed, behind.knows.method.trans sent.method.symm, upgrade, behind.ok⟩

/-- The first byte behind the header is left. -/
theorem tunnel_stops_connect :
    ∃ q e, httpParserExecute true 0 (httpParserInit .httpRequest)
        (tunnelled.getHeader ++ literal "x") = some (q, e) ∧
      e.parsedn = tunnelled.getHeader.length ∧ q.upgrade := by
  have unframed : ¬ (SaysChunked tunnelled.headers ∧
      Names tunnelled.headers (literal "content-length")) := by decide +kernel
  obtain ⟨q, start, executed, -, upgrade, -⟩ := tunnel_stops tunnelled_sent unframed (literal "x")
  exact ⟨q, _, executed, rfl, upgrade⟩

/-- When `on_headers_complete` says that a response has no body, the response is complete behind its
header, whatever its headers say. -/
theorem response_skips (sent : SentResponse m minor)
    (framed : ¬ (SaysChunked m.headers ∧ Names m.headers (literal "content-length"))) :
    ∃ q start, httpParserExecute strict 1 (httpParserInit .httpResponse) m.getHeader =
        some (q, ⟨[.onMessageBegin, .onStatus m.desc] ++ m.headers.flatMap headerReports ++
          [.onHeadersComplete start] ++ [.onMessageComplete], m.getHeader.length⟩) ∧
      start.statusCode = m.statuscode ∧
      (q.state = if strict ∧ httpShouldKeepAlive q = false then .sDead else .sStartRes) ∧
      ((∀ p ∈ m.headers, ¬ IsConnection p.1) →
        q.state = if strict ∧ minor = ascii '0' then .sDead else .sStartRes) ∧
      q.httpErrno = .hpeOk := by
  obtain ⟨taken, at_, short⟩ := sent.line strict (answerOf true)
  have noTunnel : Method.httpDelete ≠ .httpConnect := by decide
  obtain ⟨q', behind, next, -⟩ := head_ends taken at_ sent.headers framed short
  have skipped := next _ _ (headers_done_skipped (behind.kept noTunnel sent.plain true) rfl)
  let p : Parser := { q'.headed true with nread := 0 }
  have type : p.type = .httpResponse := behind.type
  have other : ¬ p.type = .httpRequest := by
    rw [type]
    decide
  have needless : httpMessageNeedsEof p = false :=
    (if_neg other).trans (if_pos (.inr (.inr (.inr rfl))))
  have ends : AtNext strict m.headers _ { p with state := newMessage strict p } :=
    behind.next at_.major (p := p) rfl needless rfl rfl
  obtain ⟨state, byVersion⟩ := ends.ready rfl sent.digit rfl
  rw [sent.header]
  exact ⟨_, q'.startLine, execute_taken rfl (messageHead_some _ _) skipped, behind.code, state,
    byVersion, behind.ok⟩

/-- The chunks are not waited for. -/
theorem response_skips_chunked :
    ∃ q e, httpParserExecute true 1 (httpParserInit .httpResponse) chunkedThree.getHeader =
        some (q, e) ∧ .onMessageComplete ∈ e.callbacks ∧ q.httpErrno = .hpeOk := by
  have unsized : ¬ (SaysChunked chunkedThree.headers ∧
      Names chunkedThree.headers (literal "content-length")) := by decide +kernel
  obtain ⟨q, start, executed, -, -, -, ok⟩ := @response_skips true _ _ chunkedThree_sent unsized
  exact ⟨q, _, executed, List.mem_append_right _ List.mem_cons_self, ok⟩

/-- The codes of responses that have no body. -/
def Bodiless (code : Nat) : Prop := code / 100 = 1 ∨ code = 204 ∨ code = 304

instance (code : Nat) : Decidable (Bodiless code) :=
  inferInstanceAs (Decidable (code / 100 = 1 ∨ code = 204 ∨ code = 304))

def responseHead (m : HttpMessage) (start : StartLine) : List Callback :=
  [.onMessageBegin, .onStatus m.desc] ++ m.headers.flatMap headerReports ++
    [.onHeadersComplete start]

/-- A response without chunks and without a length needs the end of the stream, but for some codes.
-/
theorem needs_eof_unframed {q : Parser} (type : q.type = .httpResponse)
    (read : q.flags.fSkipbody = false)
    (plain : ¬ q.flags.fChunked) (unsized : q.contentLength = ullongMax) :
    httpMessageNeedsEof q = !decide (Bodiless q.statusCode) := by
  have other : ¬ q.type = .httpRequest := by
    rw [type]
    decide
  have unframed : ¬ (q.flags.fChunked = true ∨ q.contentLength ≠ ullongMax) :=
    not_or.mpr ⟨plain, not_not.mpr unsized⟩
  unfold httpMessageNeedsEof
  rw [if_neg other, if_neg unframed]
  have same : (q.statusCode / 100 = 1 ∨ q.statusCode = 204 ∨ q.statusCode = 304 ∨
      q.flags.fSkipbody = true) ↔ Bodiless q.statusCode := by
    simp [Bodiless, read]
  by_cases bodiless : Bodiless q.statusCode
  · rw [if_pos (same.mpr bodiless), decide_eq_true bodiless]
    rfl
  · rw [if_neg (mt same.mp bodiless), decide_eq_false bodiless]
    rfl

/-- Buffers that are not empty are heard one by one. -/
theorem heard_split (front : List Callback) (first : Bytes) {buffers : List (Bytes × Nat)}
    (some_ : ∀ buffer ∈ buffers, buffer.1 ≠ []) :
    front ++ ((first :: buffers.map (·.1)).filter (· ≠ [])).map .onBody =
      front ++ ([first].filter (· ≠ [])).map .onBody ++ (buffers.map (·.1)).map .onBody := by
  have all : (buffers.map (·.1)).filter (· ≠ []) = buffers.map (·.1) := by simpa using some_
  have one : first :: buffers.map (·.1) = [first] ++ buffers.map (·.1) := rfl
  rw [one, List.filter_append, all, List.map_append, List.append_assoc]

/-- A response that says neither chunks nor a length is complete behind its header when its code is
one of those without a body; otherwise all that follows is its body, buffer by buffer, and it is
complete when the end of the stream is reported, not before. -/
theorem response_lasts (sent : SentResponse m minor) (plain : ¬ SaysChunked m.headers)
    (unsized : ¬ Names m.headers (literal "content-length")) :
    ∃ q start, start.statusCode = m.statuscode ∧ q.httpErrno = .hpeOk ∧
      (Bodiless m.statuscode →
        httpParserExecute strict 0 (httpParserInit .httpResponse) m.getHeader =
          some (q, ⟨responseHead m start ++ [.onMessageComplete], m.getHeader.length⟩)) ∧
      (¬ Bodiless m.statuscode → ∀ first buffers answer, (∀ buffer ∈ buffers, buffer.1 ≠ []) →
        let heard := responseHead m start ++
          ((first :: buffers.map (·.1)).filter (· ≠ [])).map .onBody
        feed strict (httpParserInit .httpResponse) ((m.getHeader ++ first, 0) :: buffers) =
            some (q, heard) ∧
          feed strict (httpParserInit .httpResponse)
              ((m.getHeader ++ first, 0) :: buffers ++ [([], answer)]) =
            some (q, heard ++ [.onMessageComplete])) := by
  obtain ⟨taken, at_, short⟩ := sent.line strict 0
  have noTunnel : Method.httpDelete ≠ .httpConnect := by decide
  obtain ⟨q', behind, head⟩ :=
    head_arrives taken at_ noTunnel sent.headers sent.plain short fun both => unsized both.2
  let p : Parser := q'.headed false
  have chunked : ¬ p.flags.fChunked := mt behind.chunked.mp plain
  have unknown : p.contentLength = ullongMax := behind.unsized unsized
  have code : p.statusCode = m.statuscode := behind.code
  have needs : httpMessageNeedsEof p = !decide (Bodiless m.statuscode) := by
    rw [← code]
    exact needs_eof_unframed behind.type behind.read chunked unknown
  rw [sent.header]
  by_cases bodiless : Bodiless m.statuscode
  · rw [decide_eq_true bodiless] at needs
    have reported := head _ _ (bodyBegins_over chunked unknown _ needs)
    let q : Parser := { p with nread := 0, state := newMessage strict { p with nread := 0 } }
    refine ⟨q, q'.startLine, behind.code, behind.ok, fun _ => ?_,
      fun bodied => absurd bodiless bodied⟩
    exact execute_taken rfl (messageHead_some _ _) reported
  · rw [decide_eq_false bodiless] at needs
    have lasts := head _ _ (bodyBegins_lasts chunked unknown _ needs)
    let q : Parser := { p with nread := 0, state := .sBodyIdentityEof }
    refine ⟨q, q'.startLine, behind.code, behind.ok, fun bodied => absurd bodied bodiless, ?_⟩
    intro _ first buffers answer some_ heard
    have here : q.state = .sBodyIdentityEof := rfl
    have executed := execute_unsized here rfl
      (List.append_ne_nil_of_left_ne_nil (messageHead_some _ _) first) (lasts first)
    have fed : feed strict (httpParserInit .httpResponse)
        ((messageHead (statusLine minor m.statuscode m.desc) m.headers ++ first, 0) :: buffers) =
        some (q, heard) := by
      have split : heard = responseHead m q'.startLine ++ ([first].filter (· ≠ [])).map .onBody ++
          (buffers.map (·.1)).map .onBody := heard_split _ first some_
      rw [split]
      simp only [feed, executed, feed_unsized here behind.ok some_, Option.bind_eq_bind,
        Option.bind_some]
      rfl
    refine ⟨fed, ?_⟩
    have last : feed strict q [([], answer)] = some (q, [.onMessageComplete]) :=
      feed_end here behind.ok
    rw [feed_append, fed]
    simp only [Option.bind_some, last, Option.map_some]

/-- The end of the stream behind three bytes, the first of which came with the header. -/
theorem response_lasts_three :
    ∃ q start, feed true (httpParserInit .httpResponse)
        [(unsizedThree.getHeader ++ literal "a", 0), (literal "bc", 0), ([], 0)] =
      some (q, responseHead unsizedThree start ++
        [.onBody (literal "a"), .onBody (literal "bc")] ++ [.onMessageComplete]) := by
  have plain : ¬ SaysChunked unsizedThree.headers := by decide +kernel
  have unsized : ¬ Names unsizedThree.headers (literal "content-length") := by decide +kernel
  have bodied : ¬ Bodiless unsizedThree.statuscode := by decide
  have some_ : ∀ buffer ∈ ([(literal "bc", 0)] : List (Bytes × Nat)), buffer.1 ≠ [] := by decide
  obtain ⟨q, start, -, -, -, lasts⟩ := @response_lasts true _ _ unsizedThree_sent plain unsized
  obtain ⟨-, ended⟩ := lasts bodied (literal "a") _ 0 some_
  exact ⟨q, start, ended⟩

theorem tokens_tolower {c : Byte} (isToken : tokens c ≠ 0) : c ≠ 0 ∧ tolower c = tokens c :=
  forall_byte (P := fun c => tokens c ≠ 0 → c ≠ 0 ∧ tolower c = tokens c)
    (by decide +kernel) c isToken

/-- A name is compared by its small letters. -/
theorem fieldKey_name {name : Bytes} (isName : IsName name) : fieldKey name = name.map tokens := by
  have whole : cString name = name := by
    refine List.takeWhile_eq_self_iff.mpr fun c inside => ?_
    simpa using (tokens_tolower (isName c inside)).1
  rw [fieldKey, whole]
  exact List.map_congr_left fun c inside => (tokens_tolower (isName c inside)).2

theorem setValue_absent {name value : Bytes} {held : List (Bytes × Bytes)}
    (absent : ∀ p ∈ held, fieldKey name ≠ fieldKey p.1) :
    setValue name value held = held ++ [(name, value)] := by
  rw [setValue_eq]
  induction held with
  | nil => rfl
  | cons p held ih =>
    rw [KeyedList.put, if_neg (absent p List.mem_cons_self), List.cons_append,
      ih fun p inside => absent p (List.mem_cons_of_mem _ inside)]

/-- The headers are stored behind those that are there. -/
theorem hear_reports {headers : List (Bytes × Bytes)} (sent : SentHeaders headers) (m : HttpMessage)
    (apart : ∀ p ∈ headers, ∀ p' ∈ m.headers, fieldKey p.1 ≠ fieldKey p'.1) :
    ∃ field, (headers.flatMap headerReports).foldl hear m =
      { m with headers := m.headers ++ headers, headerField := field } := by
  induction headers generalizing m with
  | nil =>
    refine ⟨m.headerField, ?_⟩
    rw [List.append_nil]
    rfl
  | cons p headers ih =>
    obtain ⟨name, value⟩ := p
    have stored : setValue name value m.headers = m.headers ++ [(name, value)] :=
      setValue_absent (apart (name, value) List.mem_cons_self)
    let m₁ : HttpMessage := { m with headerField := name, headers := m.headers ++ [(name, value)] }
    have first : (headerReports (name, value)).foldl hear m = m₁ := by
      show { m with headerField := name, headers := setValue name value m.headers } = m₁
      rw [stored]
    have distinct := (List.pairwise_cons.mp sent.distinct).1
    have apart_later : ∀ p ∈ headers, ∀ p' ∈ m₁.headers, fieldKey p.1 ≠ fieldKey p'.1 := by
      intro p inside p' there
      rcases List.mem_append.mp there with before | here
      · exact apart p (List.mem_cons_of_mem _ inside) p' before
      · obtain rfl := List.mem_singleton.mp here
        rw [fieldKey_name (sent.sent p (List.mem_cons_of_mem _ inside)).isName,
          fieldKey_name (sent.sent _ List.mem_cons_self).isName]
        exact (distinct p inside).symm
    obtain ⟨field, all⟩ := ih sent.tail m₁ apart_later
    refine ⟨field, ?_⟩
    rw [List.flatMap_cons, List.foldl_append, first, all]
    show { m with headers := m.headers ++ [(name, value)] ++ headers, headerField := field } = _
    rw [List.append_assoc]
    rfl

theorem headerReports_opens (headers : List (Bytes × Bytes)) :
    ∀ callback ∈ headers.flatMap headerReports, Opens callback := by
  intro callback inside
  obtain ⟨p, -, inside⟩ := List.mem_flatMap.mp inside
  rcases List.mem_cons.mp inside with rfl | inside
  · exact .reported .headerField p.1
  · obtain rfl := List.mem_singleton.mp inside
    exact .reported .headerValue p.2

/-- The callbacks up to the end of the headers. -/
theorem head_opens {word : Callback} (opens : Opens word) (headers : List (Bytes × Bytes)) :
    ∀ callback ∈ [.onMessageBegin, word] ++ headers.flatMap headerReports, Opens callback := by
  intro callback inside
  rcases List.mem_append.mp inside with line | header
  · rcases List.mem_cons.mp line with rfl | line
    · exact .begun
    · obtain rfl := List.mem_singleton.mp line
      exact opens
  · exact headerReports_opens _ callback header

theorem parse_fired {p p' : HttpParser} {m m' : HttpMessage} {callbacks : List Callback}
    (fired : fireAll { p.initParser with completed := [] } m callbacks = some (p', m')) (n : Nat) :
    p.parse m ⟨callbacks, n⟩ = some (n, p', m') := by
  unfold HttpParser.parse
  rw [fired]
  rfl

/-- A message object that was not used, or that was cleared. -/
structure Blank (m : HttpMessage) (role : HttpRole) : Prop where
  role : m.role = role
  headers : m.headers = []
  version : m.version = literal "HTTP/1.1"
  empty : m.body.ringbuf.size = 0

/-- The callbacks of a head, and of the end of the message when there is no body. -/
theorem fire_head (p : HttpParser) {m : HttpMessage} {front : List Callback}
    (opens : ∀ callback ∈ front, Opens callback) (start : StartLine)
    (empty : m.body.ringbuf.size = 0) (stream : Bytes) :
    ∃ p' body, fireAll p m (front ++ [.onHeadersComplete start] ++
        if stream = [] then [.onMessageComplete] else []) =
        some (p', { headersCompleted (front.foldl hear m) start with body := body }) ∧
      p'.state = if stream = [] then .parseComplete else .parseHeaderComplete := by
  by_cases none_left : stream = []
  · obtain ⟨p', body, fired, state, -⟩ := fireAll_completes p opens start empty
    rw [if_pos none_left, if_pos none_left, List.append_assoc]
    exact ⟨p', body, fired, state⟩
  · obtain ⟨p₁, fired⟩ := fireAll_opens p m opens
    obtain ⟨p', chunked, complete⟩ := onHeadersComplete_message p₁ (front.foldl hear m) start
    rw [if_neg none_left, if_neg none_left, List.append_nil]
    have all : fireAll p m (front ++ [.onHeadersComplete start]) =
        some (p', { headersCompleted (front.foldl hear m) start with
          body := { (front.foldl hear m).body with chunked := chunked } }) := by
      rw [fireAll_append, fired, Option.bind_some]
      simp only [fireAll, fire, complete, Option.bind_eq_bind, Option.bind_some]
    refine ⟨p', _, all, ?_⟩
    rw [fireAll_state all, List.foldl_append]
    rfl

/-- The callbacks over the header string of a message alone. -/
theorem head_executed {q₀ q : Parser} {line : Bytes} {cs : List Callback}
    {headers : List (Bytes × Bytes)} (ok : q₀.httpErrno = .hpeOk)
    (taken : Takes strict 0 (.start q₀) line (.clear q cs)) (at_ : AtHeaders q)
    (noTunnel : q.method ≠ .httpConnect) (sent : SentHeaders headers)
    (plain : ¬ Names headers (literal "upgrade"))
    (short : q.nread + (headers.flatMap headerLine).length + 2 ≤ httpMaxHeaderSize)
    (carries : Carries headers stream body)
    (ends : Names headers (literal "content-length") ∨ SaysChunked headers ∨
      q.type = .httpRequest) :
    ∃ q₁ start, Knows q headers start ∧
      httpParserExecute strict 0 q₀ (messageHead line headers) =
        some (q₁, ⟨cs ++ headers.flatMap headerReports ++ [.onHeadersComplete start] ++
          if stream = [] then [.onMessageComplete] else [],
            (messageHead line headers).length⟩) := by
  obtain ⟨q', behind, head⟩ := head_arrives taken at_ noTunnel sent plain short carries.framed
  rcases carries.begins sent behind ends
    (cs ++ headers.flatMap headerReports ++ [.onHeadersComplete q'.startLine]) with
    ⟨none_left, -, begins, -⟩ | ⟨some_left, q'', s, begins, -⟩
  · rw [if_pos none_left]
    exact ⟨_, q'.startLine, behind.knows, execute_taken ok (messageHead_some _ _) (head _ _ begins)⟩
  · refine ⟨q'', q'.startLine, behind.knows, ?_⟩
    rw [if_neg some_left, List.append_nil]
    exact execute_taken ok (messageHead_some _ _) (head _ _ begins)

/-- The headers of a message are stored in a blank one. -/
theorem Blank.hears {m₀ : HttpMessage} {role : HttpRole} {headers : List (Bytes × Bytes)}
    (blank : Blank m₀ role) (sent : SentHeaders headers) (m₁ : HttpMessage)
    (same : m₁.headers = m₀.headers) :
    ∃ field, (headers.flatMap headerReports).foldl hear m₁ =
      { m₁ with headers := headers, headerField := field } := by
  have none_held : m₁.headers = [] := same.trans blank.headers
  obtain ⟨field, all⟩ := hear_reports sent m₁ fun p _ p' there => by
    rw [none_held] at there
    cases there
  rw [none_held] at all
  exact ⟨field, all⟩

section
variable {start : StartLine} (known : minor = ascii '0' ∨ minor = ascii '1')
  (major : start.httpMajor = 1) (last : start.httpMinor = minor.toNat - 48)
  (default_ : m.version = literal "HTTP/1.1")
include known major last default_

/-- The version that a message has when its headers are complete. -/
theorem version_stored : (if ¬ (start.httpMajor > 0 ∧ start.httpMinor > 0) then
    m.setVersion (literal "HTTP/1.0") else m) = { m with version := versionText minor } := by
  rw [major, last]
  rcases known with rfl | rfl
  · have old : versionText (ascii '0') = literal "HTTP/1.0" := by decide
    rw [old]
    exact if_pos (by decide)
  · have new : versionText (ascii '1') = literal "HTTP/1.1" := by decide
    rw [new, ← default_]
    exact if_neg (by decide)

theorem headersCompleted_request (role : m.role = .httpRoleRequest) :
    headersCompleted m start = { m with method := start.method, version := versionText minor } := by
  obtain ⟨role_, method, url, code, desc, version, headers, field, body⟩ := m
  obtain rfl : role_ = .httpRoleRequest := role
  let m₁ : HttpMessage :=
    ⟨.httpRoleRequest, start.method, url, code, desc, version, headers, field, body⟩
  exact version_stored (m := m₁) known major last default_

/-- A response is read back with the description of its code. -/
theorem headersCompleted_response (role : m.role = .httpRoleResponse)
    (described : getResponseStatusDesc start.statusCode = m.desc ∨
      getResponseStatusDesc start.statusCode = []) :
    headersCompleted m start =
      { m with statuscode := start.statusCode, version := versionText minor } := by
  have stored : m.setStatuscode start.statusCode = { m with statuscode := start.statusCode } := by
    unfold setStatuscode
    rcases described with same | unknown
    · rw [same]
      dsimp only
      split_ifs <;> rfl
    · rw [unknown]
      exact if_neg (not_not.mpr rfl)
  have version := version_stored (m := { m with statuscode := start.statusCode }) known major last
    default_
  rw [← stored] at version
  obtain ⟨role_, method, url, code, desc, version_, headers, field, body⟩ := m
  obtain rfl : role_ = .httpRoleResponse := role
  unfold headersCompleted
  dsimp only
  rw [version, stored]

end

/-- The header string of a request is read back into a blank message as the request it was made of.
-/
theorem request_read_back (sent : SentRequest strict m k minor) (noTunnel : k ≠ .httpConnect)
    (known : minor = ascii '0' ∨ minor = ascii '1') (carries : Carries m.headers stream body)
    {p : HttpParser} (reads : p.nobody = false) {m₀ : HttpMessage}
    (blank : Blank m₀ .httpRoleRequest) :
    ∃ q e p' m', httpParserExecute strict (answerOf p.nobody) (httpParserInit .httpRequest)
        m.getHeader = some (q, e) ∧
      p.parse m₀ e = some (m.getHeader.length, p', m') ∧ m'.getHeader = m.getHeader ∧
      m'.method = m.method ∧ m'.url = m.url ∧ m'.version = m.version ∧
      m'.headers = m.headers ∧
      p'.state = if stream = [] then .parseComplete else .parseHeaderComplete := by
  obtain ⟨taken, at_, short⟩ := sent.line 0
  obtain ⟨q, start, knows, executed⟩ := head_executed rfl taken at_ noTunnel sent.headers
    sent.plain short carries (.inr (.inr rfl))
  rw [← sent.header] at executed
  have url : Opens (.onUrl m.url) := .reported .url m.url
  have opens := head_opens url m.headers
  obtain ⟨p', body_, fired, state⟩ :=
    fire_head { p.initParser with completed := [] } opens start blank.empty stream
  let m₁ : HttpMessage := { m₀ with url := m.url }
  have phrase : ([.onMessageBegin, .onUrl m.url] : List Callback).foldl hear m₀ = m₁ := by
    show HttpParser.onUrl m₀ m.url = m₁
    unfold HttpParser.onUrl
    rw [blank.role]
    rfl
  obtain ⟨field, stored⟩ := blank.hears sent.headers m₁ rfl
  have heard : ([.onMessageBegin, .onUrl m.url] ++ m.headers.flatMap headerReports :
      List Callback).foldl hear m₀ =
      { m₁ with headers := m.headers, headerField := field } := by
    rw [List.foldl_append, phrase, stored]
  have method : start.method = m.method := knows.method.trans sent.method.symm
  have major : start.httpMajor = 1 := knows.major
  have minor_ : start.httpMinor = minor.toNat - 48 := knows.minor
  have completed := headersCompleted_request
    (m := { m₁ with headers := m.headers, headerField := field })
    known major minor_ blank.version blank.role
  rw [heard, completed] at fired
  have same_header : ∀ body_, HttpMessage.getHeader { m₁ with
      headers := m.headers, headerField := field, method := start.method
      version := versionText minor, body := body_ } = m.getHeader := by
    intro body_
    have role : m₁.role = .httpRoleRequest := blank.role
    unfold HttpMessage.getHeader
    rw [sent.role, method, ← sent.version]
    dsimp only
    rw [role]
  rw [reads]
  exact ⟨q, _, p', _, executed, parse_fired fired _, same_header body_, method, rfl,
    sent.version.symm, rfl, state⟩

/-- A parser and a message that were just made. -/
theorem request_read_back_posted :
    ∃ q e p' m', httpParserExecute true 0 (httpParserInit .httpRequest) postedThree.getHeader =
        some (q, e) ∧
      HttpParser.construct.parse (HttpMessage.construct .httpRoleRequest fun _ => 0) e =
        some (postedThree.getHeader.length, p', m') ∧ m'.getHeader = postedThree.getHeader := by
  have blank : Blank (HttpMessage.construct .httpRoleRequest fun _ => 0) .httpRoleRequest :=
    ⟨rfl, rfl, rfl, rfl⟩
  have reads : HttpParser.construct.nobody = false := rfl
  obtain ⟨q, e, p', m', executed, parsed, same, -⟩ :=
    request_read_back postedThree_sent (by decide) (.inr rfl) postedThree_carries reads blank
  exact ⟨q, e, p', m', executed, parsed, same⟩

/-- The header string of a response is read back into a blank message as the response it was made
of, when its reason is the one of its code or the code has none. -/
theorem response_read_back (sent : SentResponse m minor)
    (known : minor = ascii '0' ∨ minor = ascii '1') (carries : Carries m.headers stream body)
    (ends : Names m.headers (literal "content-length") ∨ SaysChunked m.headers)
    (described : getResponseStatusDesc m.statuscode = m.desc ∨
      getResponseStatusDesc m.statuscode = [])
    {p : HttpParser} (reads : p.nobody = false) {m₀ : HttpMessage}
    (blank : Blank m₀ .httpRoleResponse) :
    ∃ q e p' m', httpParserExecute strict (answerOf p.nobody) (httpParserInit .httpResponse)
        m.getHeader = some (q, e) ∧
      p.parse m₀ e = some (m.getHeader.length, p', m') ∧ m'.getHeader = m.getHeader ∧
      m'.statuscode = m.statuscode ∧ m'.desc = m.desc ∧ m'.version = m.version ∧
      m'.headers = m.headers ∧
      p'.state = if stream = [] then .parseComplete else .parseHeaderComplete := by
  obtain ⟨taken, at_, short⟩ := sent.line strict 0
  have noTunnel : Method.httpDelete ≠ .httpConnect := by decide
  obtain ⟨q, start, knows, executed⟩ := head_executed rfl taken at_ noTunnel sent.headers
    sent.plain short carries (ends.imp_right .inl)
  rw [← sent.header] at executed
  have status : Opens (.onStatus m.desc) := .reported .status m.desc
  have opens := head_opens status m.headers
  obtain ⟨p', body_, fired, state⟩ :=
    fire_head { p.initParser with completed := [] } opens start blank.empty stream
  let m₁ : HttpMessage := { m₀ with desc := m.desc }
  have phrase : ([.onMessageBegin, .onStatus m.desc] : List Callback).foldl hear m₀ = m₁ := by
    show HttpParser.onStatus m₀ m.desc = m₁
    unfold HttpParser.onStatus
    rw [blank.role]
    rfl
  obtain ⟨field, stored⟩ := blank.hears sent.headers m₁ rfl
  have heard : ([.onMessageBegin, .onStatus m.desc] ++ m.headers.flatMap headerReports :
      List Callback).foldl hear m₀ =
      { m₁ with headers := m.headers, headerField := field } := by
    rw [List.foldl_append, phrase, stored]
  have code : start.statusCode = m.statuscode := knows.code
  have described : getResponseStatusDesc start.statusCode = m.desc ∨
      getResponseStatusDesc start.statusCode = [] := code ▸ described
  have completed := headersCompleted_response
    (m := { m₁ with headers := m.headers, headerField := field })
    known knows.major knows.minor blank.version blank.role described
  rw [heard, completed] at fired
  have same_header : ∀ body_, HttpMessage.getHeader { m₁ with
      headers := m.headers, headerField := field, statuscode := start.statusCode
      version := versionText minor, body := body_ } = m.getHeader := by
    intro body_
    have role : m₁.role = .httpRoleResponse := blank.role
    unfold HttpMessage.getHeader
    rw [sent.role, code, ← sent.version]
    dsimp only
    rw [role]
  rw [reads]
  exact ⟨q, _, p', _, executed, parse_fired fired _, same_header body_, code, rfl,
    sent.version.symm, rfl, state⟩

/-- The reason is the one of the code. -/
theorem response_read_back_chunked :
    ∃ q e p' m', httpParserExecute true 0 (httpParserInit .httpResponse)
        chunkedThree.getHeader = some (q, e) ∧
      HttpParser.construct.parse (HttpMessage.construct .httpRoleResponse fun _ => 0) e =
        some (chunkedThree.getHeader.length, p', m') ∧ m'.getHeader = chunkedThree.getHeader := by
  have blank : Blank (HttpMessage.construct .httpRoleResponse fun _ => 0) .httpRoleResponse :=
    ⟨rfl, rfl, rfl, rfl⟩
  have reads : HttpParser.construct.nobody = false := rfl
  have described : getResponseStatusDesc chunkedThree.statuscode = chunkedThree.desc ∨
      getResponseStatusDesc chunkedThree.statuscode = [] := .inl (by decide)
  obtain ⟨q, e, p', m', executed, parsed, same, -⟩ :=
    response_read_back chunkedThree_sent (.inr rfl) chunkedThree_carries (.inr (by decide +kernel))
      described reads blank
  exact ⟨q, e, p', m', executed, parsed, same⟩

end HttpLib
