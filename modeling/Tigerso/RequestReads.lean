import Tigerso.ConnectionLifetime
import Tigerso.HeaderFragments
import Tigerso.RequestAnswer

/-!
# http/HttpConnection: requests that come in several reads

The reads of one client, each of which is answered by one buffer of the stream. A response
that a read leads to is sent before the next read.
-/

open SystemCalls

namespace HttpConnection
open HttpParser HttpMessage

/-- The channel reports what can be read to `readHandle`. -/
def readDue (c : HttpConnection) : Bool :=
  match c.sock.channelptr with
  | none => false
  | some channel => channel.readFlag && decide (channel.readableCb = some .readHandle)

/-- The channel reports that it can be written to `writeHandle`. -/
def writeDue (c : HttpConnection) : Bool :=
  match c.sock.channelptr with
  | none => false
  | some channel => channel.writeFlag && decide (channel.writeableCb = some .writeHandle)

/-- What the handlers are answered: a handshake succeeds, a read gets the buffer, and a response
is sent whole. -/
def answers (disk : Disk) (shutdown : Option SocketEvent) (read : List Span) : Answers where
  prepared := true
  accepted := .sctxIoOk
  received := .bytes (read.flatMap Span.bytes)
  execution := execution read
  sent := .done
  shutdown := shutdown
  disk := disk

def send (a : Answers) (o : Outcome) : Outcome :=
  if o.conn.writeDue then writeHandle a o.conn o.gc else o

/-- The reads of a connection, as long as its channel reports them. -/
def serve (disk : Disk) (shutdown : Option SocketEvent) (c : HttpConnection) (gc : Gc) :
    List (List Span) → Option HttpConnection
  | [] => some c
  | read :: rest =>
    if c.readDue then do
      let o ← readHandle (answers disk shutdown read) c gc
      let o := send (answers disk shutdown read) o
      serve disk shutdown o.conn o.gc rest
    else some c

/-- The socket is open, and only what can be read is reported. -/
structure Reads (sock : NetSocket HttpHandler) : Prop where
  opened : sock.exist = true
  channel : ∃ channel, sock.channelptr = some channel ∧ channel.readFlag = true ∧
    channel.readableCb = some .readHandle ∧ channel.writeFlag = false

section
variable {sock : NetSocket HttpHandler} {c : HttpConnection} {a : Answers} {gc : Gc}

theorem Reads.connected (reads : Reads sock) : Connected sock := by
  obtain ⟨channel, eq, _⟩ := reads.channel
  exact ⟨reads.opened, by rw [eq]; rfl⟩

theorem Reads.readDue (reads : Reads c.sock) : c.readDue = true := by
  obtain ⟨channel, eq, flag, handler, _⟩ := reads.channel
  simp [HttpConnection.readDue, eq, flag, handler]

theorem Reads.writeDue (reads : Reads c.sock) : c.writeDue = false := by
  obtain ⟨channel, eq, _, _, flag⟩ := reads.channel
  simp [HttpConnection.writeDue, eq, flag]

/-- `disableWriteEvent`, `readHandle` bound and `enableReadEvent`. -/
theorem reads_again (connected : Connected sock) :
    Reads ((sock.disableWriteEvent.setEventHandle .readHandle
      .socketEventRead).enableReadEvent) := by
  obtain ⟨channel, eq⟩ := Option.isSome_iff_exists.mp connected.registered
  have opened : sock.exist = true := connected.opened
  refine ⟨?_, { channel with writeFlag := false, readableCb := some .readHandle, readFlag := true },
    ?_, rfl, rfl, rfl⟩
  · simpa [NetSocket.exist] using connected.opened
  · simp [NetSocket.switchEvent, NetSocket.setEventHandle, NetSocket.exist, eq, connected.opened]

/-- The response waits for being written, and nothing is read. -/
theorem attachResponse_due (reads : Reads c.sock) :
    c.attachResponse.writeDue = true ∧ Connected c.attachResponse.sock := by
  obtain ⟨channel, eq, _⟩ := reads.channel
  have opened : c.sock.sockfd.isSome = true := reads.opened
  constructor
  · simp [attachResponse, writeDue, NetSocket.switchEvent, NetSocket.setEventHandle,
      NetSocket.exist, eq, opened]
  · constructor
    · simpa [attachResponse] using opened
    · simp [attachResponse, eq]

/-- A connection that closes reads no more, also while the closing is put off. -/
theorem closeHandle_unread (connected : Connected c.sock) :
    (closeHandle a c gc).conn.readDue = false := by
  obtain ⟨channel, eq⟩ := Option.isSome_iff_exists.mp connected.registered
  rcases c.sock.close_cases a.shutdown with ⟨event, active, _, waits⟩ | ⟨_, closed⟩
  · have still : tigersoIoError ≠ 0 ∧ ({ c.sock with serrno := event }).isSSL = true :=
      ⟨by decide, active⟩
    simp only [closeHandle, waits]
    rw [if_pos still]
    cases event <;>
      simp [waitFor, readDue, NetSocket.wanted, NetSocket.switchEvent, NetSocket.setEventHandle,
        NetSocket.exist, eq, active, connected.opened]
  · simp only [closeHandle, closed]
    rw [if_neg fun still => still.1 rfl]
    rfl

end

/-- The connection waits for more of a request, of which it was told `heard`. -/
structure Midway (c₀ c : HttpConnection) (heard : List Callback) : Prop where
  state : c.state = .tcpInit ∨ c.state = .recvRequest
  reads : Reads c.sock
  unfinished : c.parser.state ≠ .parseComplete
  acptptr : c.acptptr = c₀.acptptr
  request : c.request = heard.foldl hear c₀.request
  response : c.response = c₀.response
  attached : c.attached = c₀.attached

/-- Nothing of a request was received. -/
structure Fresh (c : HttpConnection) : Prop where
  midway : Midway c c []
  role : c.request.role = .httpRoleRequest
  request : Blank c.request
  response : Blank c.response

section
variable {c₀ c : HttpConnection} {heard : List Callback} {disk : Disk}
  {shutdown : Option SocketEvent} {read : List Span} {gc : Gc}

variable (disk shutdown gc) in
/-- A read parses what it gets, behind a handshake if there is one. -/
theorem readHandle_parses (midway : Midway c₀ c heard) (full : read.flatMap Span.bytes ≠ []) :
    ∃ c', readHandle (answers disk shutdown read) c gc =
        parseRequest (answers disk shutdown read) (read.flatMap Span.bytes) c' gc ∧
      Midway c₀ c' heard := by
  have receives {c' : HttpConnection} (reads : Reads c'.sock) :
      recvRequest (answers disk shutdown read) c' gc =
        parseRequest (answers disk shutdown read) (read.flatMap Span.bytes) c' gc := by
    obtain ⟨byte, rest, eq⟩ := List.exists_cons_of_ne_nil full
    rw [recvRequest, reads.opened, answers, eq]
    rfl
  rcases midway.state with init | recv
  · rw [readHandle, init, tcpInit]
    by_cases ssl : c.acptptr.sslEnabled = true
    · have reads : Reads (((c.sock.prepareSSLContext true).disableWriteEvent.setEventHandle
          .readHandle .socketEventRead).enableReadEvent) :=
        reads_again ⟨midway.reads.connected.opened, midway.reads.connected.registered⟩
      rw [if_pos ssl]
      exact ⟨_, receives reads, { midway with state := Or.inr rfl, reads := reads }⟩
    · rw [if_neg ssl]
      exact ⟨_, receives midway.reads, { midway with state := Or.inr rfl }⟩
  · refine ⟨{ c with state := .recvRequest }, ?_, { midway with state := Or.inr rfl }⟩
    rw [readHandle, recv]
    have same : ({ c with state := .recvRequest } : HttpConnection) = c := by rw [← recv]
    rw [same]
    exact receives midway.reads

variable (disk shutdown gc) in
/-- The buffer is taken whole. -/
theorem parseRequest_parsed {p : HttpParser} {m : HttpMessage}
    (parsed : c.parser.parse c.request (execution read) =
      some ((execution read).parsedn, p, m)) :
    parseRequest (answers disk shutdown read) (read.flatMap Span.bytes) c gc =
      if p.needMoreData then
        some ⟨eventCallbackContinue, { c with parser := p, request := m }, gc⟩
      else recvRequestDone (answers disk shutdown read)
        { c with parser := p, request := m, state := .recvRequestDone } gc := by
  have length : (execution read).parsedn = (read.flatMap Span.bytes).length := rfl
  rw [parseRequest, answers, parsed]
  simp only [Option.bind_eq_bind, Option.bind_some, length, ne_eq, not_true_eq_false, if_false]

variable (disk shutdown gc) in
/-- A read that ends in front of `on_headers_complete`. -/
theorem serve_more (midway : Midway c₀ c heard) (full : read.flatMap Span.bytes ≠ [])
    (opens : ∀ callback ∈ read.flatMap Span.reported, Opens callback) (rest : List (List Span)) :
    ∃ c', serve disk shutdown c gc (read :: rest) = serve disk shutdown c' gc rest ∧
      Midway c₀ c' (heard ++ read.flatMap Span.reported) := by
  obtain ⟨c₁, parses, midway₁⟩ := readHandle_parses disk shutdown gc midway full
  obtain ⟨p, fired⟩ := fireAll_opens { c₁.parser.initParser with completed := [] } c₁.request opens
  have unfinished : p.state ≠ .parseComplete := by
    rw [fireAll_state fired]
    exact opens_unfinished opens (initParser_unfinished midway₁.unfinished)
  have more : p.needMoreData = true := decide_eq_true unfinished
  have midway₂ : Midway c₀ { c₁ with
      parser := p
      request := (read.flatMap Span.reported).foldl hear c₁.request }
      (heard ++ read.flatMap Span.reported) :=
    { midway₁ with
      unfinished := unfinished
      request := by rw [List.foldl_append, ← midway₁.request] }
  refine ⟨_, ?_, midway₂⟩
  rw [serve, if_pos midway.reads.readDue, parses,
    parseRequest_parsed disk shutdown gc (parse_eq fired), if_pos more]
  have silent := Reads.writeDue midway₂.reads
  simp only [Option.bind_eq_bind, Option.bind_some, send, silent, Bool.false_eq_true, if_false]

/-- How a connection is left by a response that was sent. -/
structure Answered (c : HttpConnection) (r : HttpMessage) (c' : HttpConnection) : Prop where
  attached : c'.attached = c.attached ++ [r]
  kept : r.isKeepAlive = true → Reads c'.sock ∧ c'.state = .recvRequest ∧
    c'.parser = c.parser.reset ∧ c'.request = c.request.clear ∧ c'.response = r.clear ∧
    c'.acptptr = c.acptptr
  closed : r.isKeepAlive = false → c'.readDue = false

theorem closeHandle_attached (a : Answers) (c : HttpConnection) (gc : Gc) :
    (closeHandle a c gc).conn.attached = c.attached := by
  rcases c.sock.close_cases a.shutdown with ⟨event, active, _, waits⟩ | ⟨_, closed⟩
  · have still : tigersoIoError ≠ 0 ∧ ({ c.sock with serrno := event }).isSSL = true :=
      ⟨by decide, active⟩
    simp only [closeHandle, waits]
    rw [if_pos still]
    rfl
  · simp only [closeHandle, closed]
    rw [if_neg fun still => still.1 rfl]
    rfl

/-- The response was sent whole. -/
theorem sendDone_answered (a : Answers) (gc : Gc) (connected : Connected c.sock) :
    (sendDone a c gc).conn.attached = c.attached ∧
    (c.response.isKeepAlive = true → Reads (sendDone a c gc).conn.sock ∧
      (sendDone a c gc).conn.state = .recvRequest ∧
      (sendDone a c gc).conn.parser = c.parser.reset ∧
      (sendDone a c gc).conn.request = c.request.clear ∧
      (sendDone a c gc).conn.response = c.response.clear ∧
      (sendDone a c gc).conn.acptptr = c.acptptr) ∧
    (c.response.isKeepAlive = false → (sendDone a c gc).conn.readDue = false) := by
  rw [sendDone]
  by_cases alive : c.response.isKeepAlive = true
  · simp only [alive, if_true]
    exact ⟨rfl, fun _ => ⟨reads_again connected, rfl, rfl, rfl, rfl, rfl⟩,
      fun wrong => by cases wrong⟩
  · simp only [alive, if_false, Bool.false_eq_true]
    exact ⟨closeHandle_attached _ _ _, False.elim, fun _ => closeHandle_unread connected⟩

variable (shutdown read gc) in
/-- A request that was read is answered by its file. -/
theorem recvRequestDone_answered (reads : Reads c.sock) {r : HttpMessage}
    (got : doGet c.acptptr.rootDir disk c.request c.response = some r) :
    ∃ o, recvRequestDone (answers disk shutdown read) c gc = some o ∧
      Answered c r (send (answers disk shutdown read) o).conn := by
  obtain ⟨due, connected⟩ := attachResponse_due (c := { c with response := r }) reads
  obtain ⟨c₁, eq⟩ : ∃ c₁, c₁ = { ({ c with response := r } : HttpConnection).attachResponse with
    state := .sendResponse } := ⟨_, rfl⟩
  have sock : c₁.sock = ({ c with response := r } : HttpConnection).attachResponse.sock := by
    rw [eq]
  have waiting : c₁.writeDue = true := by
    rw [writeDue, sock]
    exact due
  have sent : send (answers disk shutdown read) ⟨eventCallbackContinue, c₁, gc⟩ =
      sendDone (answers disk shutdown read) c₁ gc := by
    have opened : c₁.sock.exist = true := by
      rw [sock]
      exact connected.opened
    rw [send, if_pos waiting, writeHandle, opened]
    rfl
  refine ⟨⟨eventCallbackContinue, c₁, gc⟩, ?_, ?_⟩
  · rw [recvRequestDone, answers, got, eq]
    rfl
  · have still : Connected c₁.sock := by
      rw [sock]
      exact connected
    obtain ⟨attached, kept, closed⟩ :=
      sendDone_answered (answers disk shutdown read) gc (c := c₁) still
    rw [eq] at attached kept closed
    rw [sent, eq]
    exact ⟨attached, kept, closed⟩

def staysOpen (root : Bytes) (disk : Disk) (request : HttpMessage) : Bool :=
  (disk.contents (filepath root request.url)).isSome && request.isKeepAlive

theorem doGet_answers (disk : Disk) (root : Bytes) (request : HttpMessage)
    {response : HttpMessage} (blank : Blank response) :
    ∃ r, doGet root disk request response = some r ∧
      IsFor disk (filepath root request.url) r ∧
      r.isKeepAlive = staysOpen root disk request ∧ r.body.ringbuf.Valid := by
  rw [staysOpen]
  cases found : disk.contents (filepath root request.url) with
  | none => exact doGet_missing blank found
  | some data => exact doGet_found blank found

theorem Answered.fresh {r : HttpMessage} {c' : HttpConnection} (answered : Answered c r c')
    (alive : r.isKeepAlive = true) (role : c.request.role = .httpRoleRequest)
    (request : c.request.body.ringbuf.Valid) (response : r.body.ringbuf.Valid) : Fresh c' := by
  obtain ⟨reads, state, parser, requestCleared, responseCleared, _⟩ := answered.kept alive
  refine ⟨⟨Or.inr state, reads, ?_, rfl, rfl, rfl, rfl⟩, ?_, ?_, ?_⟩
  · rw [parser]
    exact ParseState.noConfusion
  · rw [requestCleared]
    exact role
  · rw [requestCleared]
    exact clear_blank request
  · rw [responseCleared]
    exact clear_blank response

variable (disk shutdown gc) in
/-- The read that completes a request is answered. -/
theorem serve_answer (fresh : Fresh c₀) (midway : Midway c₀ c heard)
    (full : read.flatMap Span.bytes ≠ []) {front : List Callback} {start : StartLine}
    (opens : ∀ callback ∈ front, Opens callback)
    (reported : read.flatMap Span.reported =
      front ++ [.onHeadersComplete start, .onMessageComplete]) (rest : List (List Span)) :
    ∃ c' gc' r, serve disk shutdown c gc (read :: rest) = serve disk shutdown c' gc' rest ∧
      c'.attached = c₀.attached ++ [r] ∧
      IsFor disk (filepath c₀.acptptr.rootDir
        (headersCompleted ((heard ++ front).foldl hear c₀.request) start).url) r ∧
      (staysOpen c₀.acptptr.rootDir disk
        (headersCompleted ((heard ++ front).foldl hear c₀.request) start) = true →
          Fresh c' ∧ c'.acptptr = c₀.acptptr) ∧
      (staysOpen c₀.acptptr.rootDir disk
        (headersCompleted ((heard ++ front).foldl hear c₀.request) start) = false →
          c'.readDue = false) := by
  obtain ⟨c₁, parses, midway₁⟩ := readHandle_parses disk shutdown gc midway full
  have bodies : c₁.request.body = c₀.request.body ∧ c₁.request.role = c₀.request.role := by
    rw [midway₁.request]
    exact hearAll_frame c₀.request heard
  have empty : c₁.request.body.ringbuf.size = 0 := by
    rw [bodies.1, RingBuffer.size_eq fresh.request.sane.valid, fresh.request.empty]
    rfl
  obtain ⟨p, body, fired, complete, ring⟩ := fireAll_completes
    { c₁.parser.initParser with completed := [] } opens start empty
  rw [← reported] at fired
  have heardAll : front.foldl hear c₁.request = (heard ++ front).foldl hear c₀.request := by
    rw [midway₁.request, List.foldl_append]
  rw [heardAll] at fired
  obtain ⟨request, requestEq⟩ : ∃ request, request =
    headersCompleted ((heard ++ front).foldl hear c₀.request) start := ⟨_, rfl⟩
  rw [← requestEq] at fired ⊢
  have done : p.needMoreData = false := by
    rw [needMoreData, complete]
    rfl
  obtain ⟨r, got, isFor, alive, valid⟩ := doGet_answers disk c₀.acptptr.rootDir
    { request with body := body } fresh.response
  obtain ⟨o, finished, answered⟩ := recvRequestDone_answered shutdown read gc (c := { c₁ with
      parser := p
      request := { request with body := body }
      state := .recvRequestDone }) midway₁.reads (by
        rw [midway₁.acptptr, midway₁.response]
        exact got)
  have stays : staysOpen c₀.acptptr.rootDir disk { request with body := body } =
    staysOpen c₀.acptptr.rootDir disk request := rfl
  rw [stays] at alive
  refine ⟨(send (answers disk shutdown read) o).conn, (send (answers disk shutdown read) o).gc, r,
    ?_, ?_, isFor, ?_, ?_⟩
  · have parsed := parseRequest_parsed disk shutdown gc (parse_eq (e := execution read) fired)
    rw [done] at parsed
    rw [serve, if_pos midway.reads.readDue, parses, parsed]
    simp only [Bool.false_eq_true, if_false, finished, Option.bind_eq_bind, Option.bind_some]
  · rw [answered.attached]
    exact congrArg (fun held => held ++ [r]) midway₁.attached
  · intro open_
    have kept := alive.trans open_
    have role : request.role = .httpRoleRequest := by
      rw [requestEq, (headersCompleted_frame _ _).2, (hearAll_frame _ _).2]
      exact fresh.role
    have ringValid : body.ringbuf.Valid := by
      rw [ring, bodies.1]
      exact fresh.request.sane.valid
    refine ⟨answered.fresh kept role ringValid valid, ?_⟩
    obtain ⟨_, _, _, _, _, acceptor⟩ := answered.kept kept
    rw [acceptor]
    exact midway₁.acptptr
  · intro closes
    exact answered.closed (alive.trans closes)

end

end HttpConnection
