import Tigerso.HeadResponses
import Tigerso.MessageMemory
import Tigerso.ParserRuns
import Tigerso.ProxyRecycling

/-!
# http/HttpProxyConnection: the look at the host of a request

`requestHeaderCompleteHandle` remembers the host and the port in the request and in the
connection, and looks for another server when the one that is there is not theirs.
-/

open SystemCalls

namespace MessageObject
open HttpMessage

section
variable {o o' : MessageObject} {host : Bytes}

/-- The host that is given is remembered, and nothing else is changed. -/
theorem getHost_remembers (role : o.message.role = .httpRoleRequest)
    (got : o.getHost = some (host, o')) : o' = { o with host := host } := by
  rw [getHost, role] at got
  dsimp only at got
  split_ifs at got
  · obtain ⟨rfl, rfl⟩ := Prod.mk.inj (Option.some.inj got)
    rfl
  · obtain ⟨found, _, got⟩ := Option.bind_eq_some_iff.mp got
    obtain ⟨rfl, rfl⟩ := Prod.mk.inj (Option.some.inj got)
    rfl
  · obtain ⟨rfl, rfl⟩ := Prod.mk.inj (Option.some.inj got)
    rfl

theorem getHostPort_remembers (role : o.message.role = .httpRoleRequest) :
    o.getHostPort.2 = { o with port := o.getHostPort.1 } := by
  rw [getHostPort, role]
  dsimp only
  split_ifs
  · rfl
  · rfl

/-- A port that is remembered is given again. -/
theorem getHostPort_again (o : MessageObject) :
    o.getHostPort.2.getHostPort = o.getHostPort := by
  cases role : o.message.role with
  | httpRoleResponse =>
    have same : o.getHostPort = ([], o) := by
      rw [getHostPort, role]
    rw [same]
    exact same
  | httpRoleRequest =>
    by_cases known : o.port ≠ []
    · have same : o.getHostPort = (o.port, o) := by
        rw [getHostPort, role]
        exact if_pos known
      rw [same]
      exact same
    · rw [getHostPort, getHostPort, role]
      dsimp only
      rw [if_neg known, role]
      dsimp only
      split_ifs
      · rfl
      · rfl

theorem getHost_of_known (role : o.message.role = .httpRoleRequest) (known : o.host ≠ []) :
    o.getHost.map Prod.fst = some o.host := by
  rw [getHost, role]
  dsimp only
  rw [if_pos known]
  rfl

theorem getHostPort_of_known (role : o.message.role = .httpRoleRequest)
    (known : o.port ≠ []) : o.getHostPort.1 = o.port := by
  rw [getHostPort, role]
  dsimp only
  rw [if_pos known]

end

namespace Parsing

variable {bodyHandle : Bool} {d d' : Parsing} {callback : Callback} {callbacks : List Callback}

/-- What a callback does to the role, to the handler of the header and to the state. -/
theorem deliver_frame (done : d.deliver bodyHandle callback = some d') :
    d'.message.role = d.message.role ∧
      d'.parser.headerCompletedHandle = d.parser.headerCompletedHandle ∧
      d'.parser.state = HttpParser.settle d.parser.state callback := by
  cases callback with
  | onBody at_ =>
    rw [deliver] at done
    have same : (if !d.parser.tunnelbody ∧ fileBigContent ≤ d.message.body.size then
        d.parser.labelTunnelBody else d.parser).headerCompletedHandle =
          d.parser.headerCompletedHandle := by
      split_ifs
      · rfl
      · rfl
    generalize (if !d.parser.tunnelbody ∧ fileBigContent ≤ d.message.body.size then
      d.parser.labelTunnelBody else d.parser) = parser at *
    dsimp only at done
    split_ifs at done
    · obtain rfl := Option.some.inj done
      exact ⟨rfl, same, rfl⟩
    · obtain ⟨⟨_, body, results⟩, _, done⟩ := Option.bind_eq_some_iff.mp done
      obtain rfl := Option.some.inj done
      exact ⟨rfl, same, rfl⟩
  | onMessageComplete =>
    obtain ⟨⟨body, results⟩, _, done⟩ := Option.bind_eq_some_iff.mp done
    obtain rfl := Option.some.inj done
    exact ⟨rfl, rfl, rfl⟩
  | onHeadersComplete start =>
    obtain rfl := Option.some.inj done
    have state : (d.parser.onHeadersComplete d.message start).1.state =
        .parseHeaderComplete := by
      rw [HttpParser.onHeadersComplete, HttpParser.lookAtBody_state]
      split_ifs
      · rfl
      · rfl
    have handle : (d.parser.onHeadersComplete d.message start).1.headerCompletedHandle =
        d.parser.headerCompletedHandle := by
      rw [HttpParser.onHeadersComplete, HttpParser.lookAtBody]
      dsimp only
      split_ifs <;> rfl
    exact ⟨HttpParser.onHeadersComplete_role d.parser d.message start, handle, state⟩
  | onUrl at_ =>
    obtain rfl := Option.some.inj done
    exact ⟨HttpParser.onUrl_role d.message at_, rfl, rfl⟩
  | onStatus at_ =>
    obtain rfl := Option.some.inj done
    exact ⟨HttpParser.onStatus_role d.message at_, rfl, rfl⟩
  | onMessageBegin =>
    obtain rfl := Option.some.inj done
    exact ⟨rfl, rfl, rfl⟩
  | onHeaderField at_ =>
    obtain rfl := Option.some.inj done
    exact ⟨rfl, rfl, rfl⟩
  | onHeaderValue at_ =>
    obtain rfl := Option.some.inj done
    exact ⟨rfl, rfl, rfl⟩

/-- The end of a header goes to the handler, if there is one. -/
theorem deliver_header {start : StartLine}
    (done : d.deliver bodyHandle (.onHeadersComplete start) = some d') :
    d'.parser.completed = if d.parser.headerCompletedHandle then
      d.parser.completed ++ [HttpParser.headersCompleted d.message start]
    else d.parser.completed := by
  obtain rfl := Option.some.inj done
  exact (HttpProxyConnection.onHeadersComplete_does d.parser d.message start).2.1

/-- Nothing else does. -/
theorem deliver_other (done : d.deliver bodyHandle callback = some d')
    (other : ∀ start, callback ≠ .onHeadersComplete start) :
    d'.parser.completed = d.parser.completed := by
  rcases (HttpProxyConnection.deliver_does done).2 with ⟨_, same⟩ | ⟨start, header, _⟩
  · exact same
  · exact absurd header (other start)

/-- A header that was handed to the handler stays handed. -/
theorem deliver_handed (handed : d.parser.completed ≠ [])
    (done : d.deliver bodyHandle callback = some d') : d'.parser.completed ≠ [] := by
  by_cases header : ∃ start, callback = .onHeadersComplete start
  · obtain ⟨start, rfl⟩ := header
    rw [deliver_header done]
    split_ifs
    · exact List.append_ne_nil_of_right_ne_nil _ (List.cons_ne_nil _ _)
    · exact handed
  · rw [deliver_other done fun start same => header ⟨start, same⟩]
    exact handed

theorem deliverAll_handle (done : d.deliverAll bodyHandle callbacks = some d') :
    d'.parser.headerCompletedHandle = d.parser.headerCompletedHandle :=
  deliverAll_keeps (fun e => e.parser.headerCompletedHandle = d.parser.headerCompletedHandle)
    (fun _ _ _ _ same done => (deliver_frame done).2.1.trans same) rfl done

theorem deliverAll_role (done : d.deliverAll bodyHandle callbacks = some d') :
    d'.message.role = d.message.role :=
  deliverAll_keeps (fun e => e.message.role = d.message.role)
    (fun _ _ _ _ same done => (deliver_frame done).1.trans same) rfl done

/-- Every header goes to the handler. -/
theorem deliverAll_handed {start : StartLine} (handle : d.parser.headerCompletedHandle = true)
    (there : .onHeadersComplete start ∈ callbacks)
    (done : d.deliverAll bodyHandle callbacks = some d') : d'.parser.completed ≠ [] := by
  induction callbacks generalizing d with
  | nil => cases there
  | cons callback rest ih =>
    obtain ⟨next, first, delivered⟩ := Option.bind_eq_some_iff.mp done
    rcases List.mem_cons.mp there with here | later
    · subst here
      have handed : next.parser.completed ≠ [] := by
        rw [deliver_header first, handle]
        exact List.append_ne_nil_of_right_ne_nil _ (List.cons_ne_nil _ _)
      exact deliverAll_keeps (fun e => e.parser.completed ≠ [])
        (fun _ _ _ _ handed done => deliver_handed handed done) handed delivered
    · exact ih ((deliver_frame first).2.1.trans handle) later delivered

/-- What goes to the handler is of the role of the message. -/
theorem deliverAll_completed (none_ : d.parser.completed = [])
    (done : d.deliverAll bodyHandle callbacks = some d') :
    ∀ m ∈ d'.parser.completed, m.role = d.message.role := by
  have kept := deliverAll_keeps (fun e => e.message.role = d.message.role ∧
      ∀ m ∈ e.parser.completed, m.role = d.message.role)
    (fun e e' callback _ ⟨role, roles⟩ done => by
      refine ⟨(deliver_frame done).1.trans role, ?_⟩
      by_cases header : ∃ start, callback = .onHeadersComplete start
      · obtain ⟨start, rfl⟩ := header
        rw [deliver_header done]
        split_ifs
        · intro m there
          rcases List.mem_append.mp there with earlier | last
          · exact roles m earlier
          · rw [List.mem_singleton.mp last]
            exact (HttpParser.headersCompleted_frame e.message start).2.trans role
        · exact roles
      · rw [deliver_other done fun start same => header ⟨start, same⟩]
        exact roles)
    ⟨rfl, fun m there => absurd there (none_ ▸ List.not_mem_nil)⟩ done
  exact kept.2

/-- A message that is complete was before, or its end is reported. -/
theorem deliverAll_complete (done : d.deliverAll bodyHandle callbacks = some d')
    (complete : d'.parser.state = .parseComplete) :
    d.parser.state = .parseComplete ∨ .onMessageComplete ∈ callbacks := by
  refine deliverAll_keeps (fun e => e.parser.state = .parseComplete →
    d.parser.state = .parseComplete ∨ .onMessageComplete ∈ callbacks) ?_ Or.inl done complete
  intro e e' callback there before done complete
  rw [(deliver_frame done).2.2] at complete
  cases callback with
  | onMessageComplete => exact Or.inr there
  | onMessageBegin => cases complete
  | onHeadersComplete start => cases complete
  | onBody at_ => cases complete
  | onUrl at_ => exact before complete
  | onStatus at_ => exact before complete
  | onHeaderField at_ => exact before complete
  | onHeaderValue at_ => exact before complete

end Parsing

section
variable {lib : ParserLib} {o o' : MessageObject} {buffer : Bytes} {results : List WriteResult}
  {answer : ParseAnswer}

/-- The end of the header was reported for the buffers that the parser was given. -/
def Headed (lib : ParserLib) (o : MessageObject) : Prop :=
  ∃ start, .onHeadersComplete start ∈ lib.callbacks o.message.role o.fed

/-- The end of the message was reported. -/
def Ended (lib : ParserLib) (o : MessageObject) : Prop :=
  .onMessageComplete ∈ lib.callbacks o.message.role o.fed

theorem callbacks_feed (lib : ParserLib) (o : MessageObject) (buffer : Bytes) :
    lib.callbacks o.message.role (o.feed buffer) =
      (if o.parser.state = .parseUninit then [] else lib.callbacks o.message.role o.fed) ++
        (lib o.message.role (o.feed buffer)).callbacks := by
  rw [feed]
  split_ifs
  · exact lib.callbacks_append _ [] _
  · exact lib.callbacks_append _ _ _

/-- What one call of `parse` does to a message whose headers are looked at. -/
structure Looked (lib : ParserLib) (o o' : MessageObject) : Prop where
  role : o'.message.role = o.message.role
  handle : o'.parser.headerCompletedHandle = o.parser.headerCompletedHandle
  host : o'.host = o.host
  port : o'.port = o.port
  roles : ∀ m ∈ o'.parser.completed, m.role = o.message.role
  headed : o.parser.headerCompletedHandle = true → o'.Headed lib →
    o'.parser.completed ≠ [] ∨ o.parser.state ≠ .parseUninit ∧ o.Headed lib
  ended : o'.parser.state = .parseComplete →
    (o.parser.state = .parseComplete → o.Ended lib) → o'.Ended lib

/-- Parsing leaves the host and the port that were kept. -/
theorem parse_looked (filled : buffer ≠ [])
    (parsed : o.parse lib buffer results = some (answer, o')) : Looked lib o o' := by
  rw [parse, if_neg fun empty => filled (List.length_eq_zero_iff.mp empty)] at parsed
  obtain ⟨d, delivered, parsed⟩ := Option.bind_eq_some_iff.mp parsed
  obtain ⟨_, rfl⟩ := Prod.mk.inj (Option.some.inj parsed)
  have handle : o.parser.initParser.headerCompletedHandle =
      o.parser.headerCompletedHandle := by
    rw [HttpParser.initParser]
    split_ifs
    · rfl
    · rfl
  have role := Parsing.deliverAll_role delivered
  have roles := Parsing.deliverAll_completed rfl delivered
  have traced := callbacks_feed lib o buffer
  refine ⟨role, (Parsing.deliverAll_handle delivered).trans handle, rfl, rfl, roles, ?_, ?_⟩
  · rintro on ⟨start, there⟩
    dsimp only at there
    rw [role, traced] at there
    rcases List.mem_append.mp there with earlier | now
    · split_ifs at earlier with new
      · cases earlier
      · exact Or.inr ⟨new, start, earlier⟩
    · exact Or.inl (Parsing.deliverAll_handed (handle.trans on) now delivered)
  · intro complete before
    show .onMessageComplete ∈ lib.callbacks d.message.role (o.feed buffer)
    rw [role, traced]
    rcases Parsing.deliverAll_complete delivered complete with already | now
    · have begun : o.parser.initParser.state = .parseComplete := already
      by_cases new : o.parser.state = .parseUninit
      · rw [HttpParser.initParser, if_pos new] at begun
        cases begun
      · rw [HttpParser.initParser, if_neg new] at begun
        rw [if_neg new]
        exact List.mem_append_left _ (before begun)
    · exact List.mem_append_right _ now

end

end MessageObject

namespace HttpProxyConnection
open HttpMessage HttpHelper

/-- Whether `requestHeaderCompleteHandle` is called when the header of a request is complete. -/
def checks (c : HttpProxyConnection) : Bool := c.request.parser.headerCompletedHandle

/-- The host and the port of the request are those that are remembered. -/
def Known (c : HttpProxyConnection) : Prop :=
  c.request.host = c.host ∧ c.request.port = c.port

/-- A server that is there was connected for the host and the port that are remembered. -/
def Matched (c : HttpProxyConnection) : Prop :=
  c.mServer.exist = true → c.peer = some (c.host, c.port)

/-- The bytes that were sent to a server, each with the request and with what the socket was
connected for. -/
def forwards (c : HttpProxyConnection) : List ProxyAction :=
  c.log.filter fun
    | .forwarded _ _ _ => true
    | _ => false

section
variable {c c' : HttpProxyConnection} {host port : Bytes}

/-- What connecting changes. -/
structure Connects (c c' : HttpProxyConnection) (host : Bytes) : Prop where
  request : c'.request = c.request ∨ c'.request = c.request.getHostPort.2
  hostKept : c'.host = c.host
  portKept : c'.port = c.port
  resolver : c'.resolver = c.resolver
  state : c'.state = c.state
  client : c'.mClient = c.mClient
  server : c'.mServer.exist = true → c'.peer = some (host, c.request.getHostPort.1) ∨
    c.mServer.exist = true ∧ c'.peer = c.peer
  forwards : c'.forwards = c.forwards

theorem connectServer_connects (plain : c.mServer.active = false) (host : Bytes)
    (address : Option ConnectResult) : Connects c (c.connectServer host address).2 host := by
  cases address with
  | none => exact ⟨Or.inl rfl, rfl, rfl, rfl, rfl, rfl, fun there => Or.inr ⟨there, rfl⟩, rfl⟩
  | some address =>
    cases address with
    | invalid =>
      exact ⟨Or.inr rfl, rfl, rfl, rfl, rfl, rfl, fun there => Or.inr ⟨there, rfl⟩, rfl⟩
    | failed fd shutdown =>
      refine ⟨Or.inr rfl, rfl, rfl, rfl, rfl, rfl, fun there => ?_, rfl⟩
      have closed : (({ c.mServer with sockfd := fd.map c.descriptor }.close shutdown).2).exist =
          false := by
        rw [NetSocket.close, NetSocket.isSSL, plain]
        rfl
      exact absurd (closed.symm.trans there) Bool.false_ne_true
    | opened fd => exact ⟨Or.inr rfl, rfl, rfl, rfl, rfl, rfl, fun _ => Or.inl rfl, rfl⟩

/-- What is kept while the headers of a request are looked at. -/
structure Unmoved (c c' : HttpProxyConnection) : Prop where
  state : c'.state = c.state
  client : c'.mClient = c.mClient
  parser : c'.request.parser = c.request.parser
  message : c'.request.message = c.request.message
  fed : c'.request.fed = c.request.fed
  forwards : c'.forwards = c.forwards

theorem Unmoved.refl : Unmoved c c := ⟨rfl, rfl, rfl, rfl, rfl, rfl⟩

theorem Unmoved.trans {c'' : HttpProxyConnection} (first : Unmoved c c') (second : Unmoved c' c'') :
    Unmoved c c'' where
  state := second.state.trans first.state
  client := second.client.trans first.client
  parser := second.parser.trans first.parser
  message := second.message.trans first.message
  fed := second.fed.trans first.fed
  forwards := second.forwards.trans first.forwards

/-- The server that is there behind the test is one for the host and the port. -/
structure Sought (c c' : HttpProxyConnection) (host port : Bytes) : Prop extends Unmoved c c' where
  toHost : c'.host = host
  toPort : c'.port = port
  requested : c'.request = c.request
  server : c'.mServer.exist = true → c'.peer = some (host, port)

theorem Sought.resolving (sought : Sought c c' host port) (resolver : ProxyResolver) :
    Sought c { c' with resolver := resolver } host port where
  state := sought.state
  client := sought.client
  parser := sought.parser
  message := sought.message
  fed := sought.fed
  forwards := sought.forwards
  toHost := sought.toHost
  toPort := sought.toPort
  requested := sought.requested
  server := sought.server

/-- The server behind the search is the one for the host and the port, or there is none. -/
theorem seekServer_sought (there : c.mClient.exist = true)
    (kept : c.request.getHostPort = (port, c.request)) (matched : Matched c) (host : Bytes)
    (lookup : Lookup) : Sought c (c.seekServer host port lookup) host port := by
  rw [seekServer]
  split_ifs with another
  · rw [forceCloseServer_eq there]
    dsimp only
    generalize asking : ({ c.onSocket .server NetSocket.tcpClose with
      response := (c.onSocket .server NetSocket.tcpClose).response.clear
      host := host
      port := port
      resolver := { (c.onSocket .server NetSocket.tcpClose).resolver with
        callback := true } } : HttpProxyConnection) = c₁
    have begun : Sought c c₁ host port := by
      subst asking
      exact ⟨⟨rfl, rfl, rfl, rfl, rfl, rfl⟩, rfl, rfl, rfl, fun wrong => by cases wrong⟩
    have closed : c₁.mServer.exist = false ∧ c₁.mServer.active = false := by
      subst asking
      exact ⟨rfl, rfl⟩
    cases lookup with
    | found address =>
      have connects := connectServer_connects closed.2 host address
      have requested : (c₁.connectServer host address).2.request = c.request := by
        rcases connects.request with same | same
        · exact same.trans begun.requested
        · rw [same, begun.requested, kept]
      refine ⟨⟨connects.state.trans begun.state, connects.client.trans begun.client, ?_, ?_, ?_,
        connects.forwards.trans begun.forwards⟩, connects.hostKept.trans begun.toHost,
        connects.portKept.trans begun.toPort, requested, fun there => ?_⟩
      · exact congrArg MessageObject.parser requested
      · exact congrArg MessageObject.message requested
      · exact congrArg MessageObject.fed requested
      · rcases connects.server there with peer | ⟨already, _⟩
        · rw [begun.requested, kept] at peer
          exact peer
        · exact absurd (closed.1.symm.trans already) Bool.false_ne_true
    | failed => exact begun.resolving _
    | asked => exact begun.resolving _
  · have same := not_or.mp another
    have same' := not_or.mp same.2
    refine ⟨.refl, not_not.mp same.1, not_not.mp same'.1, rfl, fun there => ?_⟩
    rw [matched there, not_not.mp same.1, not_not.mp same'.1]

/-- Behind one call of the handler the host and the port are known. -/
theorem requestHeaderCompleteHandle_looks {lookup : Lookup} {message : HttpMessage}
    (role : message.role = .httpRoleRequest) (there : c.mClient.exist = true)
    (matched : Matched c) (called : c.requestHeaderCompleteHandle lookup message = some c') :
    Unmoved c c' ∧ Known c' ∧ Matched c' := by
  obtain ⟨⟨host, request⟩, got, rfl⟩ := Option.map_eq_some_iff.mp called
  have named := MessageObject.getHost_remembers (o := c.request.withMessage message) role got
  have asked : request.message.role = .httpRoleRequest := by
    rw [named]
    exact role
  have ported := MessageObject.getHostPort_remembers asked
  obtain ⟨response, labelled⟩ : ∃ response,
      { c with request := request.getHostPort.2 }.labelHead message.method =
        { c with request := request.getHostPort.2, response := response } := by
    rw [labelHead]
    split_ifs
    · exact ⟨_, rfl⟩
    · exact ⟨_, rfl⟩
  have sought := @seekServer_sought
    { c with request := request.getHostPort.2, response := response } request.getHostPort.1
    there (MessageObject.getHostPort_again request) matched host lookup
  dsimp only
  rw [labelled]
  generalize ({ c with request := request.getHostPort.2, response := response }.seekServer host
    request.getHostPort.1 lookup) = c₂ at *
  have remembered : c₂.request =
      { c.request with message := message, host := host, port := request.getHostPort.1 } := by
    rw [sought.requested, ported, named]
    rfl
  have parser : c₂.request.parser = c.request.parser := by
    rw [remembered]
  have fed : c₂.request.fed = c.request.fed := by
    rw [remembered]
  refine ⟨⟨sought.state, sought.client, parser, rfl, fed, sought.forwards⟩, ⟨?_, ?_⟩, ?_⟩
  · exact (congrArg MessageObject.host remembered).trans sought.toHost.symm
  · exact (congrArg MessageObject.port remembered).trans sought.toPort.symm
  · intro exists_
    rw [sought.toHost, sought.toPort]
    exact sought.server exists_

/-- When a header was looked at, the host and the port are known. -/
theorem requestHeaders_looks {lookup : Nat → Lookup} {k : Nat} {messages : List HttpMessage}
    (roles : ∀ m ∈ messages, m.role = .httpRoleRequest) (there : c.mClient.exist = true)
    (matched : Matched c) (called : requestHeaders lookup k messages c = some c') :
    Unmoved c c' ∧ Matched c' ∧ (Known c' ∨ messages = [] ∧ c' = c) := by
  induction messages generalizing c k with
  | nil =>
    obtain rfl := Option.some.inj called
    exact ⟨.refl, matched, Or.inr ⟨rfl, rfl⟩⟩
  | cons message rest ih =>
    obtain ⟨next, first, called⟩ := Option.bind_eq_some_iff.mp called
    obtain ⟨unmoved, known, matched⟩ := requestHeaderCompleteHandle_looks
      (roles message List.mem_cons_self) there matched first
    have still : next.mClient.exist = true := by
      rw [unmoved.client]
      exact there
    obtain ⟨later, matched, last⟩ :=
      ih (fun m inside => roles m (List.mem_cons_of_mem message inside)) still matched called
    refine ⟨unmoved.trans later, matched, Or.inl ?_⟩
    rcases last with known' | ⟨_, rfl⟩
    · exact known'
    · exact known

end

end HttpProxyConnection
