import Tigerso.ConnectionLifetime
import Tigerso.RequestReads
import Tigerso.ServedConnection

/-!
# http/HttpConnection: what is waited for, and in which state

Between two events a connection waits to read or to write, not for both. It waits with
`readHandle` only in states that the loop of `readHandle` has a case for.
-/

open SystemCalls

namespace HttpConnection
open HttpParser HttpMessage

/-- The states that `readHandle` has a case for. -/
inductive Handled : HttpState → Prop
  | init : Handled .tcpInit
  | handshake : Handled .httpsHandshake
  | handshaken : Handled .httpsHandshakeDone
  | receiving : Handled .recvRequest
  | received : Handled .recvRequestDone

/-- No body of the request is stored, and none will be. -/
structure Bodiless (p : HttpParser) (m : HttpMessage) : Prop where
  role : m.role = .httpRoleRequest
  ring : m.body.ringbuf.Valid
  empty : m.body.ringbuf.size = 0
  nobody : p.nobody = false
  tunnel : p.headerCompleted = true → p.tunnelbody = true

/-- A request can be received, and a response can be prepared. -/
structure Cleared (c : HttpConnection) : Prop where
  request : Bodiless c.parser c.request
  response : Blank c.response

/-- `readHandle` can be called. -/
structure Ready (c : HttpConnection) : Prop where
  handled : Handled c.state
  cleared : Cleared c

/-- The callbacks that stay. -/
structure Callbacks (channel : SocketChannel HttpHandler) : Prop where
  error : channel.errorCb = some .errorHandle
  rdhup : channel.rdhupCb = some .rdhupHandle
  timeout : channel.timeoutCb = some .timeoutHandle

/-- The two interests of a channel. -/
structure Watched (ready : Prop) (channel : SocketChannel HttpHandler) : Prop where
  callbacks : Callbacks channel
  single : ¬ (channel.readFlag = true ∧ channel.writeFlag = true)
  reading : channel.readFlag = true → channel.readableCb = some .readHandle → ready
  writing : channel.writeFlag = true → channel.writeableCb = some .readHandle → ready

/-- The messages can be cleared, and nothing was stored in them before a client is served. -/
structure Clearable (c : HttpConnection) : Prop where
  role : c.request.role = .httpRoleRequest
  request : c.request.body.ringbuf.Valid
  response : c.response.body.ringbuf.Valid
  fresh : c.state = .tcpInit → Cleared c

/-- What is true of a connection between two events. -/
structure Tended (c : HttpConnection) : Prop where
  clearable : Clearable c
  watched : ∀ channel, c.sock.channelptr = some channel → Watched (Ready c) channel

/-- The same within an event, in any state. -/
structure Attended (c : HttpConnection) : Prop where
  clearable : Clearable c
  opened : c.sock.sockfd.isSome = true
  watched : ∀ channel, c.sock.channelptr = some channel → Watched True channel

/-- The callbacks that the header of the message comes before. -/
def behindHeader : Callback → Bool
  | .onBody _ => true
  | .onMessageComplete => true
  | _ => false

/-- The body of a message and its end are reported behind the end of its header. -/
def BodiesBehindHeaders (p : HttpParser) : List Callback → Prop
  | [] => True
  | callback :: rest => (behindHeader callback = true → p.headerCompleted = true) ∧
      BodiesBehindHeaders (p.setParseState (settle p.state callback)) rest

section
variable {p p' : HttpParser} {m : HttpMessage} {callbacks : List Callback}

theorem headerCompleted_of_state (state : p'.state = p.state) :
    p'.headerCompleted = p.headerCompleted := by
  rw [headerCompleted, headerCompleted, state]

/-- Only whether the header is complete matters. -/
theorem BodiesBehindHeaders.of_completed (ordered : BodiesBehindHeaders p callbacks)
    (same : p'.headerCompleted = p.headerCompleted) : BodiesBehindHeaders p' callbacks := by
  induction callbacks generalizing p p' with
  | nil => trivial
  | cons callback rest ih =>
    refine ⟨fun behind => same.trans (ordered.1 behind), ih ordered.2 ?_⟩
    cases callback with
    | onMessageBegin => rfl
    | onHeadersComplete start => rfl
    | onBody at_ => rfl
    | onMessageComplete => rfl
    | onUrl at_ => exact same
    | onStatus at_ => exact same
    | onHeaderField at_ => exact same
    | onHeaderValue at_ => exact same

/-- The header of a request leads to a tunnelled body. -/
theorem lookAtBody_tunnels (nobody : p.nobody = false) (role : m.role = .httpRoleRequest)
    (start : StartLine) : (p.lookAtBody m start).1.tunnelbody = true ∧
      (p.lookAtBody m start).1.nobody = false := by
  have neither : (!sameIgnoringCase (mimeType m) (literal "text")) = true ∨
      (!sameIgnoringCase (mimeType m) (literal "image")) = true := by
    by_cases text : sameIgnoringCase (mimeType m) (literal "text") = true
    · by_cases image : sameIgnoringCase (mimeType m) (literal "image") = true
      · simp only [sameIgnoringCase, beq_iff_eq] at text image
        exact absurd (text.symm.trans image) (by decide)
      · simp [image]
    · simp [text]
  rw [lookAtBody, nobody, if_neg Bool.false_ne_true]
  dsimp only
  split_ifs with _ big
  · exact ⟨rfl, nobody⟩
  · exact absurd (Or.inr role) big
  · exact ⟨rfl, nobody⟩

theorem onHeadersComplete_tunnels (nobody : p.nobody = false)
    (role : m.role = .httpRoleRequest) (start : StartLine) :
    (p.onHeadersComplete m start).1.tunnelbody = true ∧
      (p.onHeadersComplete m start).1.nobody = false := by
  rw [onHeadersComplete]
  apply lookAtBody_tunnels
  · split_ifs
    · exact nobody
    · exact nobody
  · exact (headersCompleted_frame m start).2.trans role

/-- A callback of an ordered report returns. -/
theorem Bodiless.fire {callback : Callback} (bodiless : Bodiless p m)
    (behind : behindHeader callback = true → p.headerCompleted = true) :
    ∃ p' m', p.fire m callback = some (p', m') ∧ Bodiless p' m' := by
  have heard : Bodiless p (hear m callback) := by
    obtain ⟨body, role⟩ := hear_frame m callback
    constructor
    · exact role.trans bodiless.role
    · rw [body]
      exact bodiless.ring
    · rw [body]
      exact bodiless.empty
    · exact bodiless.nobody
    · exact bodiless.tunnel
  cases callback with
  | onMessageBegin =>
    exact ⟨_, _, rfl, bodiless.role, bodiless.ring, bodiless.empty, bodiless.nobody, nofun⟩
  | onUrl at_ => exact ⟨_, _, rfl, heard⟩
  | onStatus at_ => exact ⟨_, _, rfl, heard⟩
  | onHeaderField at_ => exact ⟨_, _, rfl, heard⟩
  | onHeaderValue at_ => exact ⟨_, _, rfl, heard⟩
  | onHeadersComplete start =>
    obtain ⟨tunnel, nobody⟩ := onHeadersComplete_tunnels bodiless.nobody bodiless.role start
    obtain ⟨p', chunked, done⟩ := onHeadersComplete_message p m start
    rw [done] at tunnel nobody
    refine ⟨p', _, congrArg some done, ?_, bodiless.ring, bodiless.empty, nobody, fun _ => tunnel⟩
    exact (headersCompleted_frame m start).2.trans bodiless.role
  | onBody at_ =>
    have tunnel := bodiless.tunnel (behind rfl)
    refine ⟨p.setParseState .parseBodyNeedMoreData, m, ?_, bodiless.role, bodiless.ring,
      bodiless.empty, bodiless.nobody, fun _ => tunnel⟩
    simp [HttpParser.fire, HttpParser.onBody, tunnel]
  | onMessageComplete =>
    have tunnel := bodiless.tunnel (behind rfl)
    exact ⟨_, _, onMessageComplete_message p bodiless.empty, bodiless.role, bodiless.ring,
      bodiless.empty, bodiless.nobody, fun _ => tunnel⟩

theorem Bodiless.fireAll (bodiless : Bodiless p m) (ordered : BodiesBehindHeaders p callbacks) :
    ∃ p' m', HttpParser.fireAll p m callbacks = some (p', m') ∧ Bodiless p' m' := by
  induction callbacks generalizing p m with
  | nil => exact ⟨p, m, rfl, bodiless⟩
  | cons callback rest ih =>
    obtain ⟨p₁, m₁, first, bodiless⟩ := bodiless.fire ordered.1
    have ordered := ordered.2.of_completed (headerCompleted_of_state (fire_state first))
    obtain ⟨p', m', later, bodiless⟩ := ih bodiless ordered
    refine ⟨p', m', ?_, bodiless⟩
    rw [HttpParser.fireAll, first]
    exact later

/-- `parse` of an ordered report returns. -/
theorem Bodiless.parse {e : Execution} (bodiless : Bodiless p m)
    (ordered : BodiesBehindHeaders p e.callbacks) :
    ∃ p' m', p.parse m e = some (e.parsedn, p', m') ∧ Bodiless p' m' := by
  have begun : Bodiless { p.initParser with completed := [] } m := by
    rw [initParser]
    split_ifs
    · exact ⟨bodiless.role, bodiless.ring, bodiless.empty, bodiless.nobody,
        fun wrong => by cases wrong⟩
    · exact ⟨bodiless.role, bodiless.ring, bodiless.empty, bodiless.nobody, bodiless.tunnel⟩
  have same : { p.initParser with completed := [] }.headerCompleted = p.headerCompleted := by
    rw [initParser]
    split_ifs with uninit
    · rw [headerCompleted, headerCompleted, uninit]
    · rfl
  obtain ⟨p', m', fired, bodiless⟩ := begun.fireAll (ordered.of_completed same)
  exact ⟨p', m', parse_eq fired, bodiless⟩

end

/-- The channel waits for an event with this handler, and for nothing else. -/
def waiting (handler : HttpHandler) (event : SocketEvent) (channel : SocketChannel HttpHandler) :
    SocketChannel HttpHandler :=
  match event with
  | .socketEventNone => { channel with readFlag := false, writeFlag := false }
  | .socketEventRead =>
    { channel with readableCb := some handler, readFlag := true, writeFlag := false }
  | .socketEventWrite =>
    { channel with writeableCb := some handler, readFlag := false, writeFlag := true }

/-- The socket is left waiting. -/
structure Waits (handler : HttpHandler) (event : SocketEvent)
    (sock sock' : NetSocket HttpHandler) : Prop where
  fd : sock'.sockfd = sock.sockfd
  channel : sock'.channelptr = sock.channelptr.map (waiting handler event)

section
variable {sock sock' : NetSocket HttpHandler} {handler : HttpHandler} {event : SocketEvent}
  {c c' : HttpConnection} {a : Answers} {gc : Gc} {o : Outcome}

theorem waitFor_waits (opened : c.sock.sockfd.isSome = true) :
    Waits handler event c.sock (c.waitFor handler event).sock := by
  refine ⟨by simp [waitFor], ?_⟩
  cases channel : c.sock.channelptr <;> cases event <;>
    simp [waitFor, NetSocket.switchEvent, NetSocket.setEventHandle, NetSocket.exist, channel,
      opened, waiting]

theorem quiet_waits (opened : sock.sockfd.isSome = true) :
    Waits handler .socketEventNone sock sock.disableReadEvent.disableWriteEvent := by
  refine ⟨by simp, ?_⟩
  cases channel : sock.channelptr <;>
    simp [NetSocket.switchEvent, NetSocket.exist, channel, opened, waiting]

theorem attachResponse_waits (opened : c.sock.sockfd.isSome = true) :
    Waits .writeHandle .socketEventWrite c.sock c.attachResponse.sock := by
  refine ⟨by simp [attachResponse], ?_⟩
  cases channel : c.sock.channelptr <;>
    simp [attachResponse, NetSocket.switchEvent, NetSocket.setEventHandle, NetSocket.exist,
      channel, opened, waiting]

theorem readAgain_waits (opened : sock.sockfd.isSome = true) :
    Waits .readHandle .socketEventRead sock
      (sock.disableWriteEvent.setEventHandle .readHandle .socketEventRead).enableReadEvent := by
  refine ⟨by simp, ?_⟩
  cases channel : sock.channelptr <;>
    simp [NetSocket.switchEvent, NetSocket.setEventHandle, NetSocket.exist, channel, opened,
      waiting]

/-- `recvNIO` received nothing. -/
theorem nothing_waits (opened : sock.sockfd.isSome = true) :
    Waits .readHandle .socketEventRead sock
      ((sock.setEventHandle .readHandle .socketEventRead).disableWriteEvent).enableReadEvent := by
  refine ⟨by simp, ?_⟩
  cases channel : sock.channelptr <;>
    simp [NetSocket.switchEvent, NetSocket.setEventHandle, NetSocket.exist, channel, opened,
      waiting]

/-- `recvNIO` has to be called again. -/
theorem recall_waits (opened : sock.sockfd.isSome = true) (some_ : event ≠ .socketEventNone) :
    Waits .readHandle event sock
      (((sock.disableReadEvent.disableWriteEvent.setEventHandle .readHandle event).disableEvent
        .socketEventRead).enableEvent event) := by
  refine ⟨by simp, ?_⟩
  cases event with
  | socketEventNone => exact absurd rfl some_
  | socketEventRead =>
    cases channel : sock.channelptr <;>
      simp [NetSocket.switchEvent, NetSocket.setEventHandle, NetSocket.exist, channel, opened,
        waiting]
  | socketEventWrite =>
    cases channel : sock.channelptr <;>
      simp [NetSocket.switchEvent, NetSocket.setEventHandle, NetSocket.exist, channel, opened,
        waiting]

/-- A channel that waits with a handler watches what the handler waits for. -/
theorem waiting_watched {channel : SocketChannel HttpHandler} {ready : Prop}
    (callbacks : Callbacks channel) (can : handler = .readHandle → ready) :
    Watched ready (waiting handler event channel) := by
  have stay : Callbacks (waiting handler event channel) := by
    cases event with
    | socketEventNone => exact ⟨callbacks.error, callbacks.rdhup, callbacks.timeout⟩
    | socketEventRead => exact ⟨callbacks.error, callbacks.rdhup, callbacks.timeout⟩
    | socketEventWrite => exact ⟨callbacks.error, callbacks.rdhup, callbacks.timeout⟩
  cases event with
  | socketEventNone =>
    constructor
    · exact stay
    · exact fun both => nomatch both.1
    · exact fun on => nomatch on
    · exact fun on => nomatch on
  | socketEventRead =>
    constructor
    · exact stay
    · exact fun both => nomatch both.2
    · exact fun _ bound => can (Option.some.inj bound)
    · exact fun on => nomatch on
  | socketEventWrite =>
    constructor
    · exact stay
    · exact fun both => nomatch both.1
    · exact fun on => nomatch on
    · exact fun _ bound => can (Option.some.inj bound)

/-- A connection that is left waiting. -/
theorem Attended.waits (attended : Attended c) (clearable : Clearable c')
    (waits : Waits handler event c.sock c'.sock) (can : handler = .readHandle → Ready c') :
    Tended c' := by
  refine ⟨clearable, fun channel' there => ?_⟩
  rw [waits.channel] at there
  obtain ⟨channel, here, rfl⟩ := Option.map_eq_some_iff.mp there
  exact waiting_watched (attended.watched channel here).callbacks can

theorem Attended.of_waits (attended : Attended c) (clearable : Clearable c')
    (waits : Waits handler event c.sock c'.sock) : Attended c' := by
  refine ⟨clearable, ?_, fun channel' there => ?_⟩
  · rw [waits.fd]
    exact attended.opened
  · rw [waits.channel] at there
    obtain ⟨channel, here, rfl⟩ := Option.map_eq_some_iff.mp there
    exact waiting_watched (attended.watched channel here).callbacks fun _ => trivial

theorem Watched.of_ready {ready ready' : Prop} {channel : SocketChannel HttpHandler}
    (watched : Watched ready channel) (holds : ready') : Watched ready' channel :=
  ⟨watched.callbacks, watched.single, fun _ _ => holds, fun _ _ => holds⟩

/-- Nothing is changed while `readHandle` can be called. -/
theorem Attended.tended (attended : Attended c) (ready : Ready c) : Tended c :=
  ⟨attended.clearable, fun channel there => (attended.watched channel there).of_ready ready⟩

theorem Tended.attended (tended : Tended c) (connected : Connected c.sock) : Attended c :=
  ⟨tended.clearable, connected.opened,
    fun channel there => (tended.watched channel there).of_ready trivial⟩

theorem Cleared.of_same (cleared : Cleared c) (request : c'.request = c.request)
    (response : c'.response = c.response) (parser : c'.parser = c.parser) : Cleared c' := by
  constructor
  · rw [request, parser]
    exact cleared.request
  · rw [response]
    exact cleared.response

theorem Clearable.of_same (clearable : Clearable c) (request : c'.request = c.request)
    (response : c'.response = c.response) (fresh : c'.state = .tcpInit → Cleared c') :
    Clearable c' := by
  constructor
  · rw [request]
    exact clearable.role
  · rw [request]
    exact clearable.request
  · rw [response]
    exact clearable.response
  · exact fresh

theorem resetResources_cleared (clearable : Clearable c) : Cleared c.resetResources := by
  have blank := clear_blank clearable.request
  refine ⟨⟨clearable.role, blank.sane.valid, ?_, rfl, nofun⟩, clear_blank clearable.response⟩
  show c.request.clear.body.ringbuf.size = 0
  rw [RingBuffer.size_eq blank.sane.valid, blank.empty]
  rfl

theorem restart_tended (clearable : Clearable c) : Tended c.restart := by
  have cleared : Cleared c.restart :=
    (resetResources_cleared clearable).of_same rfl rfl rfl
  have clearable : Clearable c.restart := ⟨cleared.request.role, cleared.request.ring,
    cleared.response.sane.valid, fun _ => cleared⟩
  have unregistered : c.restart.sock.channelptr = none := rfl
  refine ⟨clearable, fun channel there => ?_⟩
  rw [unregistered] at there
  cases there

theorem Attended.of_sock (attended : Attended c) (state : c'.state = c.state)
    (request : c'.request = c.request) (response : c'.response = c.response)
    (parser : c'.parser = c.parser) (fd : c'.sock.sockfd = c.sock.sockfd)
    (channel : c'.sock.channelptr = c.sock.channelptr) : Attended c' := by
  refine ⟨attended.clearable.of_same request response fun init => ?_, ?_, ?_⟩
  · exact (attended.clearable.fresh (state ▸ init)).of_same request response parser
  · rw [fd]
    exact attended.opened
  · rw [channel]
    exact attended.watched

theorem closeHandle_tended (attended : Attended c) : Tended (closeHandle a c gc).conn := by
  rcases c.sock.close_cases a.shutdown with ⟨event, active, _, waits⟩ | ⟨_, closed⟩
  · have still : tigersoIoError ≠ 0 ∧ ({ c.sock with serrno := event }).isSSL = true :=
      ⟨by decide, active⟩
    have here : Attended { c with sock := { c.sock with serrno := event } } :=
      attended.of_sock rfl rfl rfl rfl rfl rfl
    simp only [closeHandle, waits]
    rw [if_pos still]
    refine here.waits ?_ (waitFor_waits here.opened) (fun wrong => by cases wrong)
    exact here.clearable.of_same rfl rfl fun init =>
      (here.clearable.fresh init).of_same rfl rfl rfl
  · simp only [closeHandle, closed]
    rw [if_neg fun still => still.1 rfl]
    refine restart_tended (attended.clearable.of_same rfl rfl fun init => ?_)
    exact (attended.clearable.fresh init).of_same rfl rfl rfl

theorem Attended.afterFailure (attended : Attended c) (kept : Option SocketEvent) :
    Attended { c with sock := afterFailure c.sock kept } := by
  obtain ⟨fd, channel⟩ := afterFailure_same c.sock kept
  exact attended.of_sock rfl rfl rfl rfl fd channel

/-- The interests are switched off, and the socket is closed. -/
theorem quiet_close_tended (attended : Attended c) : Tended
    (closeHandle a { c with sock := c.sock.disableReadEvent.disableWriteEvent } gc).conn := by
  refine closeHandle_tended (attended.of_waits ?_
    (@quiet_waits c.sock .closeHandle attended.opened))
  exact attended.clearable.of_same rfl rfl fun init =>
    (attended.clearable.fresh init).of_same rfl rfl rfl

theorem Ready.of_sock (ready : Ready c) (sock : NetSocket HttpHandler) :
    Ready { c with sock := sock } :=
  ⟨ready.handled, ready.cleared.of_same rfl rfl rfl⟩

theorem recvFailed_tended (attended : Attended c) (ready : Ready c) :
    Tended (recvFailed a c gc).conn := by
  have waiting (event : SocketEvent) (some_ : event ≠ .socketEventNone) : Tended { c with
      sock := ((c.sock.disableReadEvent.disableWriteEvent.setEventHandle .readHandle
        event).disableEvent .socketEventRead).enableEvent event } := by
    refine attended.waits ?_ (recall_waits attended.opened some_) fun _ => ready.of_sock _
    exact attended.clearable.of_same rfl rfl fun _ => ready.cleared.of_same rfl rfl rfl
  rw [recvFailed]
  split_ifs
  · split
    · exact quiet_close_tended attended
    · rename_i some_
      exact waiting c.sock.wanted some_
  · exact closeHandle_tended attended

/-- What is attached is waited for with `writeHandle`. -/
theorem attachResponse_tended (attended : Attended c) {r : HttpMessage}
    (response : r.body.ringbuf.Valid) (state : HttpState) (other : state ≠ .tcpInit) :
    Tended { { c with response := r }.attachResponse with state := state } := by
  have answered : Attended { { c with response := r } with state := state } :=
    ⟨⟨attended.clearable.role, attended.clearable.request, response, fun init => absurd init other⟩,
      attended.opened, attended.watched⟩
  have waits := attachResponse_waits answered.opened
  refine answered.waits ?_ ⟨waits.fd, waits.channel⟩ nofun
  exact ⟨attended.clearable.role, attended.clearable.request, response,
    fun init => absurd init other⟩

theorem recvRequestDone_returns (attended : Attended c) (cleared : Cleared c) :
    ∃ o, recvRequestDone a c gc = some o ∧ Tended o.conn := by
  obtain ⟨r, got, _, _, ring⟩ :=
    doGet_answers a.disk c.acptptr.rootDir c.request cleared.response
  refine ⟨⟨eventCallbackContinue,
    { { c with response := r }.attachResponse with state := .sendResponse }, gc⟩, ?_, ?_⟩
  · rw [recvRequestDone, got]
    rfl
  · exact attachResponse_tended attended ring .sendResponse (fun wrong => by cases wrong)

theorem badRequest_returns (attended : Attended c) (cleared : Cleared c)
    (state : c.state = .recvRequest) : ∃ o, badRequest c gc = some o ∧ Tended o.conn := by
  obtain ⟨r, prepared, _, _, ring⟩ := HttpHelper.prepareResponse_closes cleared.response 403
    (by decide +kernel : HttpHelper.defaultResponse403Body.length < 1022)
  refine ⟨⟨eventCallbackBreak, { c with response := r }.attachResponse, gc⟩, ?_, ?_⟩
  · have prepared : HttpHelper.prepare400Response c.response = some r := prepared
    rw [badRequest, prepared]
    rfl
  · have kept : { { c with response := r }.attachResponse with state := .recvRequest } =
        { c with response := r }.attachResponse := by
      rw [← state]
      rfl
    have tended := attachResponse_tended attended ring .recvRequest (fun wrong => by cases wrong)
    rw [kept] at tended
    exact tended

theorem parseRequest_returns {data : Bytes} (attended : Attended c) (cleared : Cleared c)
    (state : c.state = .recvRequest)
    (ordered : BodiesBehindHeaders c.parser a.execution.callbacks) :
    ∃ o, parseRequest a data c gc = some o ∧ Tended o.conn := by
  obtain ⟨p, m, parsed, bodiless⟩ := cleared.request.parse ordered
  have heard : Cleared { c with parser := p, request := m } := ⟨bodiless, cleared.response⟩
  have still : Attended { c with parser := p, request := m } :=
    ⟨⟨bodiless.role, bodiless.ring, attended.clearable.response, fun _ => heard⟩,
      attended.opened, attended.watched⟩
  rw [parseRequest, parsed]
  dsimp only [Option.bind_eq_bind, Option.bind_some]
  split_ifs
  · exact badRequest_returns still heard state
  · exact ⟨_, rfl, still.tended ⟨by rw [state]; exact .receiving, heard⟩⟩
  · refine recvRequestDone_returns ?_ ⟨bodiless, cleared.response⟩
    exact ⟨⟨bodiless.role, bodiless.ring, attended.clearable.response, fun wrong => by cases wrong⟩,
      attended.opened, attended.watched⟩

theorem recvRequest_returns (attended : Attended c) (cleared : Cleared c)
    (state : c.state = .recvRequest)
    (ordered : BodiesBehindHeaders c.parser a.execution.callbacks) :
    ∃ o, recvRequest a c gc = some o ∧ Tended o.conn := by
  have ready : Ready c := ⟨by rw [state]; exact .receiving, cleared⟩
  have opened : (!c.sock.exist) = false := by
    rw [NetSocket.exist, attended.opened]
    rfl
  rw [recvRequest, opened, if_neg Bool.false_ne_true]
  split
  · rename_i kept _
    have failed : Ready { c with sock := afterFailure c.sock kept } := ready.of_sock _
    exact ⟨_, rfl, recvFailed_tended (attended.afterFailure kept) failed⟩
  · split_ifs
    · exact ⟨_, rfl, closeHandle_tended attended⟩
    · refine ⟨_, rfl, attended.waits ?_ (nothing_waits attended.opened) fun _ => ready.of_sock _⟩
      exact attended.clearable.of_same rfl rfl fun _ => cleared.of_same rfl rfl rfl
  · exact parseRequest_returns attended cleared state ordered

/-- The state is changed, and a request can be received as before. -/
theorem Attended.of_state (attended : Attended c) (cleared : Cleared c) (state : HttpState) :
    Attended { c with state := state } ∧ Cleared { c with state := state } := by
  have same : Cleared { c with state := state } := cleared.of_same rfl rfl rfl
  exact ⟨⟨attended.clearable.of_same rfl rfl fun _ => same, attended.opened, attended.watched⟩,
    same⟩

/-- A handshake is over, or is waited for, or failed. -/
theorem sslHandShake_tended (attended : Attended c) (ready : Ready c)
    (active : c.sock.active = true) :
    Tended (sslHandShake a c gc).conn ∧ ((sslHandShake a c gc).ret = tigersoIoOk →
      Attended (sslHandShake a c gc).conn ∧ Cleared (sslHandShake a c gc).conn ∧
        (sslHandShake a c gc).conn.parser = c.parser) := by
  have ssl : (!c.sock.isSSL) = false := by
    rw [NetSocket.isSSL, active]
    rfl
  rw [sslHandShake, ssl, if_neg Bool.false_ne_true]
  cases a.accepted with
  | sctxIoOk =>
    have waits := readAgain_waits attended.opened
    generalize (c.sock.disableWriteEvent.setEventHandle .readHandle
      .socketEventRead).enableReadEvent = sock at *
    have cleared : Cleared { c with state := .httpsHandshakeDone, sock := sock } :=
      ready.cleared.of_same rfl rfl rfl
    have clearable : Clearable { c with state := .httpsHandshakeDone, sock := sock } :=
      attended.clearable.of_same rfl rfl fun _ => cleared
    exact ⟨attended.waits clearable waits fun _ => ⟨.handshaken, cleared⟩,
      fun _ => ⟨attended.of_waits clearable waits, cleared, rfl⟩⟩
  | sctxIoRecall waits =>
    have here : Attended { c with sock := { c.sock with serrno := waits } } :=
      attended.of_sock rfl rfl rfl rfl rfl rfl
    refine ⟨here.waits ?_ (waitFor_waits here.opened) fun _ => ?_, fun done => ?_⟩
    · exact attended.clearable.of_same rfl rfl fun _ => ready.cleared.of_same rfl rfl rfl
    · exact ⟨ready.handled, ready.cleared.of_same rfl rfl rfl⟩
    · exact absurd done (show ¬ tigersoIoRecall = tigersoIoOk by decide)
  | sctxIoError =>
    have here : Attended { c with sock := c.sock.destory } :=
      attended.of_sock rfl rfl rfl rfl rfl rfl
    refine ⟨closeHandle_tended here, fun done => ?_⟩
    exact absurd done (show ¬ tigersoIoError = tigersoIoOk by decide)

theorem httpsHandshake_returns (attended : Attended c) (ready : Ready c)
    (active : c.sock.active = true)
    (ordered : BodiesBehindHeaders c.parser a.execution.callbacks) :
    ∃ o, httpsHandshake a c gc = some o ∧ Tended o.conn := by
  obtain ⟨tended, going⟩ := @sslHandShake_tended c a gc attended ready active
  rw [httpsHandshake]
  dsimp only
  split_ifs with ok
  · exact ⟨_, rfl, tended⟩
  · obtain ⟨attended, cleared, parser⟩ := going (not_not.mp ok)
    obtain ⟨attended, cleared⟩ := attended.of_state cleared .recvRequest
    refine recvRequest_returns attended cleared rfl ?_
    show BodiesBehindHeaders (sslHandShake a c gc).conn.parser a.execution.callbacks
    rw [parser]
    exact ordered

/-- `readHandle` returns in the states that it has a case for. -/
theorem readHandle_returns (attended : Attended c) (ready : Ready c)
    (secured : c.state = .httpsHandshake → c.sock.active = true)
    (prepared : c.state = .tcpInit → c.acptptr.sslEnabled = true → a.prepared = true)
    (ordered : BodiesBehindHeaders c.parser a.execution.callbacks) :
    ∃ o, readHandle a c gc = some o ∧ Tended o.conn := by
  have receives : ∃ o, recvRequest a { c with state := .recvRequest } gc = some o ∧
      Tended o.conn := by
    obtain ⟨attended, cleared⟩ := attended.of_state ready.cleared .recvRequest
    exact recvRequest_returns attended cleared rfl ordered
  have handled := ready.handled
  rw [readHandle]
  cases state : c.state with
  | tcpInit =>
    dsimp only
    rw [tcpInit]
    split_ifs with enabled
    · obtain ⟨attended, cleared⟩ := attended.of_state ready.cleared .httpsHandshake
      have granted : Attended { c with
          sock := c.sock.prepareSSLContext a.prepared
          state := .httpsHandshake } := attended.of_sock rfl rfl rfl rfl rfl rfl
      refine httpsHandshake_returns granted ⟨.handshake, ?_⟩ (prepared state enabled) ordered
      exact cleared.of_same rfl rfl rfl
    · exact receives
  | httpsHandshake => exact httpsHandshake_returns attended ready (secured state) ordered
  | httpsHandshakeDone => exact receives
  | recvRequest => exact recvRequest_returns attended ready.cleared state ordered
  | recvRequestDone => exact recvRequestDone_returns attended ready.cleared
  | sendResponse =>
    rw [state] at handled
    cases handled
  | sendResponseDone =>
    rw [state] at handled
    cases handled

theorem sendFailed_tended (attended : Attended c) : Tended (sendFailed a c gc).conn := by
  rw [sendFailed]
  split_ifs
  · split
    · exact quiet_close_tended attended
    · refine attended.waits ?_ (waitFor_waits attended.opened) (fun wrong => by cases wrong)
      exact attended.clearable.of_same rfl rfl fun init =>
        (attended.clearable.fresh init).of_same rfl rfl rfl
  · exact closeHandle_tended attended

theorem sendDone_tended (attended : Attended c) : Tended (sendDone a c gc).conn := by
  have sent : Attended { c with state := .sendResponseDone } :=
    ⟨⟨attended.clearable.role, attended.clearable.request, attended.clearable.response,
        fun wrong => by cases wrong⟩,
      attended.opened, attended.watched⟩
  rw [sendDone]
  dsimp only
  split_ifs
  · have cleared := resetResources_cleared sent.clearable
    refine sent.waits ?_ (readAgain_waits sent.opened) fun _ => ⟨.receiving, ?_⟩
    · exact ⟨cleared.request.role, cleared.request.ring, cleared.response.sane.valid,
        fun wrong => by cases wrong⟩
    · exact cleared.of_same rfl rfl rfl
  · exact closeHandle_tended sent

theorem writeHandle_tended (attended : Attended c) (tended : Tended c) :
    Tended (writeHandle a c gc).conn := by
  rw [writeHandle]
  split_ifs
  · exact sendFailed_tended attended
  · split
    · rename_i kept _
      exact sendFailed_tended (attended.afterFailure kept)
    · exact tended
    · exact sendDone_tended attended

/-- What a handler is answered: a context is granted, and http_parser reports in order. -/
structure Answerable (c : HttpConnection) (a : Answers) : Prop where
  granted : c.state = .tcpInit → c.acptptr.sslEnabled = true → a.prepared = true
  ordered : BodiesBehindHeaders c.parser a.execution.callbacks

/-- A handler returns, when it is not `readHandle` in a state that this has no case for. -/
theorem handle_returns (live : Live c) (tended : Tended c)
    (can : handler = .readHandle → Ready c ∧ Answerable c a) :
    ∃ o, c.handle handler a gc = some o ∧ Tended o.conn := by
  have attended := tended.attended live.connected
  cases handler with
  | readHandle =>
    obtain ⟨ready, answerable⟩ := can rfl
    exact readHandle_returns attended ready live.secured answerable.granted answerable.ordered
  | writeHandle => exact ⟨_, rfl, writeHandle_tended attended tended⟩
  | errorHandle => exact ⟨_, rfl, closeHandle_tended attended⟩
  | rdhupHandle => exact ⟨_, rfl, closeHandle_tended attended⟩
  | closeHandle => exact ⟨_, rfl, closeHandle_tended attended⟩
  | timeoutHandle =>
    refine ⟨_, rfl, ?_, fun channel there => nomatch there⟩
    exact attended.clearable.of_same rfl rfl fun init =>
      (attended.clearable.fresh init).of_same rfl rfl rfl

end

end HttpConnection
