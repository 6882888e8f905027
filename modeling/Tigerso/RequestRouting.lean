import Tigerso.ForwardedRequests
import Tigerso.HostCheck

/-!
# http/HttpProxyConnection: the server that a request is sent to

The handler that looks at the host of a request goes when the request is cleared, and comes back
with the next client only.
-/

open SystemCalls

namespace HttpProxyConnection
open HttpMessage HttpHelper GuardedRuns MessageObject

/-- The end of a message is not reported unless the end of its header is. -/
def HeadersReported (lib : ParserLib) : Prop :=
  ∀ fed, .onMessageComplete ∈ lib.callbacks .httpRoleRequest fed →
    ∃ start, .onHeadersComplete start ∈ lib.callbacks .httpRoleRequest fed

/-- Bytes are only sent to a server that was connected for the host and the port of the request. -/
def Routed (c : HttpProxyConnection) : Prop :=
  ∀ data request peer, .forwarded data request peer ∈ c.log →
    ∃ host, request.getHost.map Prod.fst = some host ∧ peer = some (host, request.getHostPort.1)

/-- The host and the port of the request are those of the last look. -/
def Served (c : HttpProxyConnection) : Prop :=
  c.request.getHost.map Prod.fst = some c.host ∧ c.request.getHostPort.1 = c.port

/-- The header of the request was looked at, and named a host and a port. -/
def Watched (c : HttpProxyConnection) : Prop := c.checks = true ∧ c.host ≠ [] ∧ c.port ≠ []

/-- A request that is not looked at is for the host and the port of the last look when it is to
be sent to the server that is there. -/
def Examined (c : HttpProxyConnection) (_ : Round) : Prop :=
  c.state = .clientRecvRequestDone → c.mServer.exist = true →
    sameIgnoringCase c.request.message.method (literal "connect") = false →
      Watched c ∨ Served c

/-- An answer to a query comes while the request that asked is there. -/
def InTime (c : HttpProxyConnection) (_ : Option ConnectResult) : Prop :=
  Watched c ∧ c.resolver.query = some c.host ∧ c.mServer.active = false

/-- What makes a request go where it belongs. -/
structure Routing (lib : ParserLib) (c : HttpProxyConnection) : Prop where
  role : c.request.message.role = .httpRoleRequest
  matched : Matched c
  fresh : c.state = .proxyInit →
    c.request.parser.state = .parseUninit ∧ c.resolver.query = none
  ended : c.request.parser.state = .parseComplete → c.request.Ended lib
  known : c.checks = true → c.request.parser.state ≠ .parseUninit → c.request.Headed lib →
    Known c
  asked : c.checks = true → c.resolver.query ≠ none → Known c
  complete : c.state = .clientRecvRequestDone → c.request.parser.state = .parseComplete
  served : c.state = .serverSendRequest → Served c
  routed : Routed c

section
variable {c c' : HttpProxyConnection} {side : Side} {lib : ParserLib} {r : Round}

theorem Routed.of_forwards (routed : Routed c) (same : c'.forwards = c.forwards) : Routed c' := by
  intro data request peer there
  have here : .forwarded data request peer ∈ c'.forwards := List.mem_filter.mpr ⟨there, rfl⟩
  rw [same] at here
  exact routed data request peer (List.mem_filter.mp here).1

/-- The request is as it was, and the server is one for what is remembered. -/
theorem Routing.of_matched (routing : Routing lib c) (matched : Matched c')
    (request : c'.request = c.request) (host : c'.host = c.host) (port : c'.port = c.port)
    (query : c'.resolver.query = c.resolver.query) (state : c'.state = c.state)
    (forwards : c'.forwards = c.forwards) : Routing lib c' := by
  have checks : c'.checks = c.checks := by
    rw [HttpProxyConnection.checks, request, HttpProxyConnection.checks]
  have known : Known c → Known c' := by
    rintro ⟨sameHost, samePort⟩
    constructor
    · rw [request, host]
      exact sameHost
    · rw [request, port]
      exact samePort
  constructor
  · rw [request]
    exact routing.role
  · exact matched
  · rw [state, request, query]
    exact routing.fresh
  · rw [request]
    exact routing.ended
  · rw [checks, request]
    exact fun on begun headed => known (routing.known on begun headed)
  · rw [checks, query]
    exact fun on some_ => known (routing.asked on some_)
  · rw [state, request]
    exact routing.complete
  · rw [state, Served, request, host, port]
    exact routing.served
  · exact routing.routed.of_forwards forwards

/-- The request, and what is known of the server, are as they were. -/
theorem Routing.of_same (routing : Routing lib c) (request : c'.request = c.request)
    (host : c'.host = c.host) (port : c'.port = c.port) (peer : c'.peer = c.peer)
    (query : c'.resolver.query = c.resolver.query)
    (server : c'.mServer.exist = true → c.mServer.exist = true)
    (state : c'.state = c.state) (forwards : c'.forwards = c.forwards) : Routing lib c' := by
  refine routing.of_matched (fun there => ?_) request host port query state forwards
  rw [peer, host, port]
  exact routing.matched (server there)

theorem Routing.of_untouched (routing : Routing lib c) (same : Untouched c c')
    (forwards : c'.forwards = c.forwards) : Routing lib c' :=
  routing.of_same same.request same.host same.port same.peer
    (congrArg ProxyResolver.query same.resolver) (fun there => same.server.symm.trans there)
    same.state forwards

/-- The states in which something is asked of the request. -/
def plainState : HttpProxyState → Bool
  | .proxyInit => false
  | .clientRecvRequestDone => false
  | .serverSendRequest => false
  | _ => true

theorem Routing.enter (routing : Routing lib c) {state : HttpProxyState}
    (plain : plainState state = true) : Routing lib (c.enter state) := by
  have other {state' : HttpProxyState} (special : plainState state' = false) :
      (c.enter state).state ≠ state' := by
    rintro rfl
    exact Bool.false_ne_true (special.symm.trans plain)
  exact ⟨routing.role, routing.matched, fun same => absurd same (other rfl), routing.ended,
    routing.known, routing.asked, fun same => absurd same (other rfl),
    fun same => absurd same (other rfl), routing.routed.of_forwards rfl⟩

/-- A message that is complete has come. -/
theorem Routing.requested (routing : Routing lib c)
    (complete : c.request.parser.needMoreData = false) :
    Routing lib (c.enter .clientRecvRequestDone) :=
  ⟨routing.role, routing.matched, nofun, routing.ended, routing.known, routing.asked,
    fun _ => not_not.mp (of_decide_eq_false complete), nofun, routing.routed.of_forwards rfl⟩

theorem Routing.onSocket (routing : Routing lib c) (side : Side)
    {change : NetSocket ProxyHandler → NetSocket ProxyHandler}
    (exists_ : (change (c.socket side)).exist = true → (c.socket side).exist = true) :
    Routing lib (c.onSocket side change) := by
  cases side with
  | client => exact routing.of_same rfl rfl rfl rfl rfl id rfl rfl
  | server => exact routing.of_same rfl rfl rfl rfl rfl exists_ rfl rfl

/-- The next state asks no more of the request. -/
theorem Routing.predict (routing : Routing lib c) (busy : Busy c) :
    Routing lib c.predictNextState := by
  have state (state : HttpProxyState) (here : c.state = state) : routine state = true :=
    (congrArg routine here).symm.trans busy
  rw [predictNextState]
  cases here : c.state with
  | proxyInit =>
    have entered : Routing lib (c.enter .clientRecvRequest) := routing.enter rfl
    exact entered.onSocket .client fun there => (enableEvent_mild _).exist.symm.trans there
  | clientRecvRequest =>
    dsimp only
    split_ifs with complete
    · exact routing.requested (by simpa using complete)
    · exact routing
  | serverSendRequestDone => exact routing.enter rfl
  | serverRecvResponse => exact routing.enter rfl
  | serverRecvResponseDone => exact routing.enter rfl
  | serverHandshake => exact routing.enter rfl
  | serverHandshakeDone => exact routing.enter rfl
  | clientHandshake => exact routing.enter rfl
  | _ => cases state _ here

theorem recvNIO_forwards (read : SocketRead) : ( c.recvNIO side read).2.forwards = c.forwards := by
  rcases @recvNIO_log c side read with same | received
  · rw [forwards, same, forwards]
  · rw [forwards, received, forwards]
    exact List.filter_cons_of_neg Bool.false_ne_true

/-- What is sent to the server goes where the request belongs. -/
theorem Routing.sendNIO (routing : Routing lib c) (sending : Sending c side) (sent : SocketSend) :
    Routing lib ( c.sendNIO side sent).2 := by
  rw [ HttpProxyConnection.sendNIO]
  split_ifs with there
  · exact routing
  · cases side with
    | client =>
      have answered : Routing lib ((c.withOutBuffer .client
          (c.downstream.sendToSocket sent.taken (c.sentBody sent)).2.2).note
            (.answered (c.downstream.sendToSocket sent.taken (c.sentBody sent)).2.1
              c.downstream.msgptr)) := routing.of_same rfl rfl rfl rfl rfl id rfl rfl
      exact answered.onSocket .client fun there => (afterSSL_kept _ _).exist.symm.trans there
    | server =>
      have forwarded : Routing lib ((c.withOutBuffer .server
          (c.upstream.sendToSocket sent.taken (c.sentBody sent)).2.2).note
            (.forwarded (c.upstream.sendToSocket sent.taken (c.sentBody sent)).2.1 c.request
              c.peer)) := by
        have exists_ : (c.socket .server).exist = true := by simpa using there
        obtain ⟨host, port⟩ := routing.served sending
        refine ⟨routing.role, routing.matched, routing.fresh, routing.ended, routing.known,
          routing.asked, routing.complete, routing.served, ?_⟩
        intro data request peer inside
        rcases List.mem_cons.mp inside with here | earlier
        · injection here with _ request peer_
          rw [request, peer_, host, port, routing.matched exists_]
          exact ⟨c.host, rfl, rfl⟩
        · exact routing.routed data request peer earlier
      exact forwarded.onSocket .server fun there => (afterSSL_kept _ _).exist.symm.trans there

/-- Steps that do not look at the request keep its server. -/
theorem routing_stable : Stable (Routing lib) where
  socket c side change exists_ _ routing := routing.onSocket side exists_
  respond c _ routing := routing.enter rfl
  recycle c routing :=
    ⟨routing.role, nofun, fun _ => ⟨rfl, rfl⟩, nofun, nofun, nofun, nofun, nofun,
      routing.routed.of_forwards rfl⟩
  predict c busy routing := routing.predict busy
  sentAll c side sending _ routing := by
    cases side with
    | client =>
      rcases sending with state | state
      · rw [predictNextState, state]
        exact routing.enter rfl
      · rw [predictNextState, state]
        exact routing.enter rfl
    | server =>
      rw [predictNextState, sending]
      exact routing.enter rfl
  recvNIO c side read _ routing :=
    routing.of_untouched (recvNIO_untouched read) (recvNIO_forwards read)
  sendNIO c side sent sending routing := routing.sendNIO sending sent
  notify c n _ routing := routing.of_same rfl rfl rfl rfl rfl id rfl rfl
  handleCalled c ret routing := routing.of_same rfl rfl rfl rfl rfl id rfl rfl
  answered c routing :=
    ⟨routing.role, routing.matched, fun first => ⟨(routing.fresh first).1, rfl⟩, routing.ended,
      routing.known, fun _ some_ => absurd rfl some_, routing.complete, routing.served,
      routing.routed.of_forwards rfl⟩
  queue c gc routing := routing.of_same rfl rfl rfl rfl rfl id rfl rfl
  handedOut c routing := routing.of_same rfl rfl rfl rfl rfl id rfl rfl
  accept c fd routing := routing.of_same rfl rfl rfl rfl rfl id rfl rfl

/-- A request that was looked at is for the host and the port of the look. -/
theorem Routing.served_of_watched (routing : Routing lib c) (known : Known c)
    (watched : Watched c) : Served c := by
  obtain ⟨_, host, port⟩ := watched
  constructor
  · rw [getHost_of_known routing.role (known.1 ▸ host), known.1]
  · rw [getHostPort_of_known routing.role (known.2 ▸ port), known.2]

/-- A request that is complete was looked at. -/
theorem Routing.known_of_complete (reported : HeadersReported lib) (routing : Routing lib c)
    (state : c.state = .clientRecvRequestDone) (on : c.checks = true) : Known c := by
  have complete := routing.complete state
  have ended := routing.ended complete
  rw [Ended, routing.role] at ended
  refine routing.known on (fun uninit => nomatch complete.symm.trans uninit) ?_
  rw [Headed, routing.role]
  exact reported _ ended

theorem Routing.prepared (reported : HeadersReported lib) (routing : Routing lib c)
    (examined : Examined c r) (state : c.state = .clientRecvRequestDone) :
    Routing lib c.predictNextState := by
  rw [predictNextState, state]
  dsimp only
  split_ifs with there tunnel
  · exact routing.enter rfl
  · have served : Served c := by
      rcases examined state there (Bool.eq_false_iff.mpr tunnel) with watched | served
      · exact routing.served_of_watched (routing.known_of_complete reported state watched.1) watched
      · exact served
    exact ⟨routing.role, routing.matched, (fun wrong => by cases wrong), routing.ended,
      routing.known, routing.asked,
      (fun wrong => by cases wrong), fun _ => served, routing.routed.of_forwards rfl⟩
  · exact routing.enter rfl

/-- The messages are cleared, and with them the handler. -/
theorem Routing.cleared (routing : Routing lib c) (later : c.state ≠ .proxyInit)
    (other : c.state ≠ .serverSendRequest) (received : c.state ≠ .clientRecvRequestDone) :
    Routing lib c.cleared :=
  ⟨routing.role, routing.matched, fun first => absurd first later, nofun, nofun, nofun,
    fun state => absurd state received, fun state => absurd state other,
    routing.routed.of_forwards rfl⟩

/-- The request is parsed, and its headers are looked at. -/
theorem Routing.parsed (routing : Routing lib c) (state : c.state = .clientRecvRequest)
    (there : c.mClient.exist = true) {o : MessageObject} (looked : Looked lib c.request o)
    {lookup : Nat → Lookup}
    (called : requestHeaders lookup 0 o.parser.completed { c with request := o } = some c') :
    Routing lib c' ∧ c'.state = .clientRecvRequest := by
  have roles : ∀ m ∈ o.parser.completed, m.role = .httpRoleRequest :=
    fun m inside => (looked.roles m inside).trans routing.role
  have matched : Matched { c with request := o } := routing.matched
  obtain ⟨unmoved, matched, known⟩ :=
    @requestHeaders_looks { c with request := o } c' lookup 0 _ roles there matched called
  have state' : c'.state = .clientRecvRequest := unmoved.state.trans state
  have parser : c'.request.parser = o.parser := unmoved.parser
  have message : c'.request.message = o.message := unmoved.message
  have fed : c'.request.fed = o.fed := unmoved.fed
  have checks : c'.checks = c.checks := by
    rw [HttpProxyConnection.checks, parser, looked.handle, HttpProxyConnection.checks]
  have before : Known c → Known { c with request := o } :=
    fun known => ⟨looked.host.trans known.1, looked.port.trans known.2⟩
  refine ⟨⟨?_, matched, ?_, ?_, ?_, ?_, ?_, ?_, ?_⟩, state'⟩
  · rw [message, looked.role]
    exact routing.role
  · exact fun first => nomatch state'.symm.trans first
  · rw [parser, Ended, message, fed]
    exact fun complete => looked.ended complete routing.ended
  · rw [checks, Headed, message, fed]
    intro on _ headed
    rcases known with known | ⟨none_, rfl⟩
    · exact known
    · rcases looked.headed on headed with some_ | ⟨begun, headed⟩
      · exact absurd none_ some_
      · exact before (routing.known on begun headed)
  · rw [checks]
    intro on some_
    rcases known with known | ⟨_, rfl⟩
    · exact known
    · exact before (routing.asked on some_)
  · exact fun done => nomatch state'.symm.trans done
  · exact fun sending => nomatch state'.symm.trans sending
  · exact routing.routed.of_forwards unmoved.forwards

/-- In a round the server is looked for before anything is sent to it. -/
theorem routing_rounds (reported : HeadersReported lib) :
    Rounds lib Examined (Routing lib) where
  toStable := routing_stable
  begins c state routing := by
    obtain ⟨uninit, none_⟩ := routing.fresh state
    exact ⟨routing.role, routing.matched, routing.fresh, routing.ended,
      fun _ begun => absurd uninit begun, fun _ some_ => absurd none_ some_, routing.complete,
      (fun sending => nomatch state.symm.trans sending), routing.routed.of_forwards rfl⟩
  tunnelled c state routing := ⟨routing.role, routing.matched, routing.fresh, routing.ended,
    routing.known, routing.asked, routing.complete,
    (fun sending => nomatch state.symm.trans sending), routing.routed.of_forwards rfl⟩
  behind c c₁ r side _ _ _ _ _ routing _ :=
    beyond_keeps (fun _ => routing.of_same rfl rfl rfl rfl rfl id rfl rfl) routing
  prepared c r examined state routing := routing.prepared reported examined state
  granted c r _ state routing := by
    have cleared := routing.cleared (by rw [state]; nofun) (by rw [state]; nofun)
      (by rw [state]; nofun)
    rw [predict_granted (c := c.cleared) state]
    exact cleared.enter rfl
  responded c r _ state routing := by
    have cleared := routing.cleared (by rw [state]; nofun) (by rw [state]; nofun)
      (by rw [state]; nofun)
    rw [predict_responded (c := c.cleared) state]
    exact cleared.enter rfl
  shaken c r _ state routing := by
    rw [predict_shaken state]
    exact routing.enter rfl
  request c c₁ r finish _ state same there routing filled parsed := by
    generalize arrived r = data at *
    obtain ⟨⟨answer, request⟩, read, rest⟩ := Option.bind_eq_some_iff.mp parsed
    obtain ⟨c₂, called, rest⟩ := Option.bind_eq_some_iff.mp rest
    have receiving : c₁.state = .clientRecvRequest := same.state.trans state
    obtain ⟨after, state₂⟩ := routing.parsed receiving there (parse_looked filled read) called
    exact routing_stable.requestParsed (congrArg routine state₂) after rest
  response c c₁ r finish _ state same _ routing filled parsed := by
    generalize arrived r = data at *
    obtain ⟨⟨answer, response⟩, read, rest⟩ := Option.bind_eq_some_iff.mp parsed
    obtain rfl := Option.some.inj rest
    have receiving : Receiving c₁ .server := same.state.trans state
    have noted : Routing lib (c₁.note
        (.responded c₁.request.message c₁.response.parser.nobody)) :=
      routing.of_same rfl rfl rfl rfl rfl id rfl rfl
    split_ifs at read ⊢
    · have after : Routing lib { c₁.note
          (.responded c₁.request.message c₁.response.parser.nobody) with
          response := response } := noted.of_same rfl rfl rfl rfl rfl id rfl rfl
      refine routing_stable.responseParsed ?_ after answer.code
      exact receiving.busy.of_state rfl
    · have after : Routing lib { c₁ with response := response } :=
        routing.of_same rfl rfl rfl rfl rfl id rfl rfl
      refine routing_stable.responseParsed ?_ after answer.code
      exact receiving.busy.of_state rfl

/-- An answer in time connects a server for the host and the port that are remembered. -/
theorem Routing.answered (routing : Routing lib c) {host : Bytes} {address : Option ConnectResult}
    (inTime : InTime c address) (asked : c.resolver.query = some host) :
    Routing lib
      ({ c with
        resolver := { c.resolver with query := none } }.connectServer host address).2 := by
  obtain ⟨watched, named, plain⟩ := inTime
  obtain rfl : c.host = host := Option.some.inj (named.symm.trans asked)
  have known : Known c := routing.asked watched.1 fun none_ => nomatch asked.symm.trans none_
  have served := routing.served_of_watched known watched
  have ported := getHostPort_remembers routing.role
  have same : c.request.getHostPort.2 = c.request := by
    rw [ported, served.2, ← known.2]
  have before : Routing lib { c with resolver := { c.resolver with query := none } } :=
    routing_stable.answered c routing
  have connects := @connectServer_connects
    { c with resolver := { c.resolver with query := none } } plain c.host address
  generalize ({ c with resolver := { c.resolver with query := none } }.connectServer c.host
    address).2 = c' at *
  have request : c'.request = c.request := by
    rcases connects.request with eq | eq
    · exact eq
    · exact eq.trans same
  refine before.of_matched (fun there => ?_) request connects.hostKept connects.portKept
    (congrArg ProxyResolver.query connects.resolver) connects.state connects.forwards
  rw [connects.hostKept, connects.portKept]
  rcases connects.server there with peer | ⟨already, peer⟩
  · rw [peer]
    exact congrArg (fun port => some (c.host, port)) served.2
  · rw [peer]
    exact routing.matched already

end

/-- In a run in which a request that is not looked at is for the host and the port of the last
look, and in which name servers answer in time, every request goes where it belongs. -/
theorem routed_of_examined {lib : ParserLib} (reported : HeadersReported lib) {id : IDType}
    {garbage : Nat → Byte} {status fd : Nat} {c : HttpProxyConnection}
    (run : Reaches (step lib) (Guarded lib Examined InTime) (start id garbage status fd) c) :
    Routed c := by
  have routing : Routing lib c := by
    refine (routing_rounds reported).rules.run
      (fun c address host inTime asked routing => ?_) ?_ run
    · exact routing.answered inTime asked
    · refine ⟨rfl, nofun, fun _ => ⟨rfl, rfl⟩, nofun, nofun, nofun, nofun, nofun, ?_⟩
      intro data request peer there
      cases there with
      | tail _ there => cases there
  exact routing.routed

/-- What is written down is in order when every entry is. -/
theorem recorded_reported {script : List (Bytes × List Callback)}
    (headed : ∀ entry ∈ script, .onMessageComplete ∈ entry.2 →
      ∃ start, .onHeadersComplete start ∈ entry.2) : HeadersReported (recorded script) := by
  intro fed ended
  obtain ⟨k, inside, there⟩ := List.mem_flatMap.mp ended
  suffices found : ∃ start, .onHeadersComplete start ∈
      (recorded script .httpRoleRequest (fed.take (k + 1))).callbacks by
    obtain ⟨start, found⟩ := found
    exact ⟨start, List.mem_flatMap.mpr ⟨k, inside, found⟩⟩
  rw [recorded] at there ⊢
  cases last : (fed.take (k + 1)).getLast? with
  | none =>
    rw [last] at there
    cases there
  | some buffer =>
    rw [last] at there
    dsimp only at there ⊢
    cases written : script.lookup buffer.1 with
    | none =>
      rw [written] at there
      cases there
    | some callbacks =>
      rw [written] at there
      obtain ⟨front, back, rfl, _⟩ := List.lookup_eq_some_iff.mp written
      exact headed (buffer.1, callbacks) (List.mem_append_right _ List.mem_cons_self) there

def getFrom (host : String) : Bytes :=
  literal "GET / HTTP/1.1\r\nHost: " ++ literal host ++ literal "\r\n\r\n"

def emptyResponse : Bytes := literal "HTTP/1.1 200 OK\r\nContent-Length: 0\r\n\r\n"

def getCallbacks (host : String) : List Callback :=
  [.onMessageBegin, .onUrl (literal "/"), .onHeaderField (literal "Host"),
    .onHeaderValue (literal host), .onHeadersComplete ⟨literal "GET", 0, 1, 1, false⟩,
    .onMessageComplete]

def keepAlive (host : String) : ParserLib := recorded
  [(getFrom "a", getCallbacks "a"),
   (emptyResponse,
    [.onMessageBegin, .onStatus (literal "OK"), .onHeaderField (literal "Content-Length"),
     .onHeaderValue (literal "0"), .onHeadersComplete ⟨[], 200, 1, 1, false⟩,
     .onMessageComplete]),
   (getFrom host, getCallbacks host)]

def keepAliveRun (host : String) : ProxyEvent :=
  .called .client .readable
    [calm, asking (getFrom "a"), calm, calm, calm, arriving emptyResponse, calm, calm, calm,
     arriving (getFrom host), calm, calm, calm, calm]

theorem keepAlive_reported (host : String) : HeadersReported (keepAlive host) := by
  refine recorded_reported fun entry there complete => ?_
  simp only [List.mem_cons, List.not_mem_nil, or_false] at there
  rcases there with rfl | rfl | rfl
  · exact ⟨⟨literal "GET", 0, 1, 1, false⟩, by simp [getCallbacks]⟩
  · exact ⟨⟨[], 200, 1, 1, false⟩, by simp⟩
  · exact ⟨⟨literal "GET", 0, 1, 1, false⟩, by simp [getCallbacks]⟩

/-- Two requests for the same host are sent to its server. -/
theorem routed_of_examined_same :
    ∃ c, (start 1 (fun _ => 0) 0 5).step (keepAlive "a") (keepAliveRun "a") = some c ∧
      Routed c := by
  obtain ⟨c, steps⟩ : ∃ c,
      (start 1 (fun _ => 0) 0 5).step (keepAlive "a") (keepAliveRun "a") = some c := ⟨_, rfl⟩
  have examined (c : HttpProxyConnection) (r : Round) :
      (c.state != .clientRecvRequestDone ||
        (c.checks && c.host != [] && c.port != []) ||
        (c.request.getHost.map Prod.fst == some c.host &&
          c.request.getHostPort.1 == c.port)) = true → Examined c r := by
    intro met state _ _
    rcases Bool.or_eq_true_iff.mp met with first | served
    · rcases Bool.or_eq_true_iff.mp first with other | watched
      · simp [state] at other
      · left
        simpa [Watched, and_assoc] using watched
    · right
      simpa [Served] using served
  have guarded : Guarded (keepAlive "a") Examined InTime (start 1 (fun _ => 0) 0 5)
      (keepAliveRun "a") := by
    intro channel handler there bound _
    exact EveryRound.of_everyRound examined rfl
  exact ⟨c, steps, routed_of_examined (keepAlive_reported "a") (Reaches.start.next guarded steps)⟩

/-- A request was sent to another host than its own. -/
def misrouted : ProxyAction → Bool
  | .forwarded _ request peer => request.getHost.map Prod.fst != peer.map Prod.fst
  | _ => false

/-- The second request is for `b`, and is sent to the server of `a`. -/
theorem not_routed :
    ∃ c, HeadersReported (keepAlive "b") ∧
      Reaches (step (keepAlive "b")) (fun _ _ => True) (start 1 (fun _ => 0) 0 5) c ∧
      ¬ Routed c := by
  have run : ((follow (step (keepAlive "b")) (fun _ _ => True) (start 1 (fun _ => 0) 0 5)
      [keepAliveRun "b"]).map fun c => c.log.any misrouted) = some true := rfl
  obtain ⟨c, followed, found⟩ := Option.map_eq_some_iff.mp run
  obtain ⟨action, there, wrong⟩ := List.any_eq_true.mp found
  refine ⟨c, keepAlive_reported "b", reaches_of_follow followed, fun routed => ?_⟩
  cases action with
  | forwarded data request peer =>
    obtain ⟨host, named, rfl⟩ := routed data request peer there
    simp [misrouted, named] at wrong
  | _ => cases wrong

end HttpProxyConnection
