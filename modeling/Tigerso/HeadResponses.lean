import Tigerso.ProxyRuns

/-!
# http/HttpProxyConnection: the responses to HEAD

The response object is told that no body follows before it is cleared, or is not told at all.
-/

open SystemCalls

namespace HttpProxyConnection
open HttpMessage HttpHelper GuardedRuns

def isHead (method : Bytes) : Bool := sameIgnoringCase method (literal "head")

def isResponse : ProxyAction → Bool
  | .responded _ _ => true
  | _ => false

/-- What was promised of the responses. -/
def HeadLabelled (c : HttpProxyConnection) : Prop :=
  ∀ request nobody, ProxyAction.responded request nobody ∈ c.log →
    nobody = isHead request.method

/-- No header of a HEAD request is completed by the bytes that come. -/
def NoHead (lib : ParserLib) (c : HttpProxyConnection) (r : Round) : Prop :=
  c.state = .clientRecvRequest → ∀ start, .onHeadersComplete start ∈
    (lib c.request.message.role (c.request.feed (arrived r))).callbacks →
      isHead start.method = false

/-- There was no HEAD request, and the response object knows of none. -/
structure Headless (c : HttpProxyConnection) : Prop where
  method : isHead c.request.message.method = false
  nobody : c.response.parser.nobody = false
  labelled : HeadLabelled c

section
variable {c c' : HttpProxyConnection} {side : Side} {lib : ParserLib} {r : Round}

theorem HeadLabelled.cons (labelled : HeadLabelled c) {action : ProxyAction}
    (other : isResponse action = false) (log : c'.log = action :: c.log) : HeadLabelled c' := by
  intro request nobody there
  rw [log] at there
  rcases List.mem_cons.mp there with same | earlier
  · rw [← same] at other
    cases other
  · exact labelled request nobody earlier

theorem Headless.note (headless : Headless c) {action : ProxyAction}
    (other : isResponse action = false) : Headless (c.note action) :=
  ⟨headless.method, headless.nobody, headless.labelled.cons other rfl⟩

theorem Headless.enter (headless : Headless c) (state : HttpProxyState) :
    Headless (c.enter state) :=
  ⟨headless.method, headless.nobody, headless.labelled.cons rfl rfl⟩

theorem Headless.of_untouched (headless : Headless c) (same : Untouched c c')
    (labelled : HeadLabelled c') : Headless c' := by
  refine ⟨?_, ?_, labelled⟩
  · rw [same.request]
    exact headless.method
  · rw [same.response]
    exact headless.nobody

theorem Headless.predict (headless : Headless c) : Headless c.predictNextState := by
  refine predict_of_enter headless.enter (fun c headless => ?_) headless
  exact ⟨headless.method, headless.nobody, headless.labelled⟩

/-- No step but the parsing of a header sets the flag. -/
theorem headless_stable : Stable Headless where
  socket c side change _ _ headless := by
    cases side with
    | client => exact ⟨headless.method, headless.nobody, headless.labelled⟩
    | server => exact ⟨headless.method, headless.nobody, headless.labelled⟩
  respond c _ headless := headless.enter _
  recycle c headless := ⟨rfl, rfl, headless.labelled.cons rfl rfl⟩
  predict c _ headless := headless.predict
  sentAll c side _ _ headless := headless.predict
  recvNIO c side read _ headless := by
    refine headless.of_untouched (recvNIO_untouched read) ?_
    rcases @recvNIO_log c side read with eq | eq
    · intro request nobody there
      rw [eq] at there
      exact headless.labelled request nobody there
    · exact headless.labelled.cons rfl eq
  sendNIO c side sent _ headless := by
    refine headless.of_untouched (sendNIO_untouched sent) ?_
    rcases @sendNIO_log c side sent with eq | ⟨data, eq⟩
    · intro request nobody there
      rw [eq] at there
      exact headless.labelled request nobody there
    · cases side with
      | client => exact headless.labelled.cons rfl eq
      | server => exact headless.labelled.cons rfl eq
  notify c n _ headless :=
    ⟨headless.method, headless.nobody, headless.labelled.cons rfl rfl⟩
  handleCalled c ret headless := ⟨headless.method, headless.nobody, headless.labelled⟩
  answered c headless := ⟨headless.method, headless.nobody, headless.labelled⟩
  queue c gc headless := ⟨headless.method, headless.nobody, headless.labelled⟩
  handedOut c headless := headless.note rfl
  accept c fd headless := ⟨headless.method, headless.nobody, headless.labelled⟩

/-- The method of a message, and those of the messages whose headers were completed. -/
def WithoutHead (d : MessageObject.Parsing) : Prop :=
  isHead d.message.method = false ∧ ∀ m ∈ d.parser.completed, isHead m.method = false

theorem setStatuscode_method (m : HttpMessage) (code : Nat) :
    (m.setStatuscode code).method = m.method := by
  rw [setStatuscode]
  split_ifs
  · rfl
  · rfl

theorem headersCompleted_method (m : HttpMessage) (start : StartLine) :
    (HttpParser.headersCompleted m start).method = m.method ∨
      (HttpParser.headersCompleted m start).method = start.method := by
  rw [HttpParser.headersCompleted]
  cases m.role with
  | httpRoleRequest =>
    dsimp only
    split_ifs
    · exact Or.inr rfl
    · exact Or.inr rfl
  | httpRoleResponse =>
    dsimp only
    split_ifs
    · exact Or.inl (setStatuscode_method m _)
    · exact Or.inl (setStatuscode_method m _)

/-- What the header's end does not touch. -/
theorem lookAtBody_keeps (p : HttpParser) (m : HttpMessage) (start : StartLine) :
    (p.lookAtBody m start).2.method = m.method ∧
      (p.lookAtBody m start).1.completed = p.completed ∧
      (p.lookAtBody m start).1.nobody = p.nobody := by
  rw [HttpParser.lookAtBody]
  dsimp only
  split_ifs
  · exact ⟨rfl, rfl, rfl⟩
  · exact ⟨rfl, rfl, rfl⟩
  · exact ⟨rfl, rfl, rfl⟩
  · exact ⟨rfl, rfl, rfl⟩
  · exact ⟨rfl, rfl, rfl⟩
  · exact ⟨rfl, rfl, rfl⟩

/-- What the end of a header does. -/
theorem onHeadersComplete_does (p : HttpParser) (m : HttpMessage) (start : StartLine) :
    (p.onHeadersComplete m start).2.method = (HttpParser.headersCompleted m start).method ∧
      (p.onHeadersComplete m start).1.completed = (if p.headerCompletedHandle then
        p.completed ++ [HttpParser.headersCompleted m start] else p.completed) ∧
      (p.onHeadersComplete m start).1.nobody = p.nobody := by
  obtain ⟨method, completed, nobody⟩ := lookAtBody_keeps
    (if (p.setParseState .parseHeaderComplete).headerCompletedHandle then
      { p.setParseState .parseHeaderComplete with
        completed := (p.setParseState .parseHeaderComplete).completed ++
          [HttpParser.headersCompleted m start] }
    else p.setParseState .parseHeaderComplete) (HttpParser.headersCompleted m start) start
  refine ⟨method, completed.trans (apply_ite HttpParser.completed _ _ _), nobody.trans ?_⟩
  split_ifs
  · rfl
  · rfl

/-- A callback leaves the method and the completed headers alone, or it is the end of a header. -/
theorem deliver_does {bodyHandle : Bool} {d d' : MessageObject.Parsing} {callback : Callback}
    (done : d.deliver bodyHandle callback = some d') :
    d'.parser.nobody = d.parser.nobody ∧
      ((d'.message.method = d.message.method ∧ d'.parser.completed = d.parser.completed) ∨
        ∃ start, callback = .onHeadersComplete start ∧
          d'.message.method = (HttpParser.headersCompleted d.message start).method ∧
          d'.parser.completed = if d.parser.headerCompletedHandle then
            d.parser.completed ++ [HttpParser.headersCompleted d.message start]
          else d.parser.completed) := by
  cases callback with
  | onBody at_ =>
    rw [MessageObject.Parsing.deliver] at done
    have same : (if !d.parser.tunnelbody ∧ fileBigContent ≤ d.message.body.size then
        d.parser.labelTunnelBody else d.parser).completed = d.parser.completed ∧
        (if !d.parser.tunnelbody ∧ fileBigContent ≤ d.message.body.size then
        d.parser.labelTunnelBody else d.parser).nobody = d.parser.nobody := by
      split_ifs
      · exact ⟨rfl, rfl⟩
      · exact ⟨rfl, rfl⟩
    generalize (if !d.parser.tunnelbody ∧ fileBigContent ≤ d.message.body.size then
      d.parser.labelTunnelBody else d.parser) = parser at *
    dsimp only at done
    split_ifs at done
    · obtain rfl := Option.some.inj done
      exact ⟨same.2, Or.inl ⟨rfl, same.1⟩⟩
    · obtain ⟨⟨_, body, results⟩, _, done⟩ := Option.bind_eq_some_iff.mp done
      obtain rfl := Option.some.inj done
      exact ⟨same.2, Or.inl ⟨rfl, same.1⟩⟩
  | onMessageComplete =>
    obtain ⟨⟨body, results⟩, _, done⟩ := Option.bind_eq_some_iff.mp done
    obtain rfl := Option.some.inj done
    exact ⟨rfl, Or.inl ⟨rfl, rfl⟩⟩
  | onHeadersComplete start =>
    rw [MessageObject.Parsing.deliver] at done
    obtain ⟨method, completed, nobody⟩ := onHeadersComplete_does d.parser d.message start
    generalize d.parser.onHeadersComplete d.message start = answer at *
    obtain ⟨parser, message⟩ := answer
    obtain rfl := Option.some.inj done
    exact ⟨nobody, Or.inr ⟨start, rfl, method, completed⟩⟩
  | onMessageBegin =>
    obtain rfl := Option.some.inj done
    exact ⟨rfl, Or.inl ⟨rfl, rfl⟩⟩
  | onUrl at_ =>
    obtain rfl := Option.some.inj done
    have method : (HttpParser.onUrl d.message at_).method = d.message.method := by
      rw [HttpParser.onUrl]
      cases d.message.role with
      | httpRoleRequest => rfl
      | httpRoleResponse => rfl
    exact ⟨rfl, Or.inl ⟨method, rfl⟩⟩
  | onStatus at_ =>
    obtain rfl := Option.some.inj done
    have method : (HttpParser.onStatus d.message at_).method = d.message.method := by
      rw [HttpParser.onStatus]
      cases d.message.role with
      | httpRoleRequest => rfl
      | httpRoleResponse => rfl
    exact ⟨rfl, Or.inl ⟨method, rfl⟩⟩
  | onHeaderField at_ =>
    obtain rfl := Option.some.inj done
    exact ⟨rfl, Or.inl ⟨rfl, rfl⟩⟩
  | onHeaderValue at_ =>
    obtain rfl := Option.some.inj done
    exact ⟨rfl, Or.inl ⟨rfl, rfl⟩⟩

/-- Nor does a header of another method. -/
theorem deliver_withoutHead {bodyHandle : Bool} {d d' : MessageObject.Parsing}
    {callback : Callback} (headless : ∀ start, callback = .onHeadersComplete start →
      isHead start.method = false) (without : WithoutHead d)
    (done : d.deliver bodyHandle callback = some d') : WithoutHead d' := by
  rcases (deliver_does done).2 with ⟨method, completed⟩ | ⟨start, here, method, completed⟩
  · rw [WithoutHead, method, completed]
    exact without
  · have other : isHead (HttpParser.headersCompleted d.message start).method = false := by
      rcases headersCompleted_method d.message start with eq | eq
      · rw [eq]
        exact without.1
      · rw [eq]
        exact headless start here
    rw [WithoutHead, method, completed]
    refine ⟨other, ?_⟩
    split_ifs
    · intro m there
      rcases List.mem_append.mp there with earlier | last
      · exact without.2 m earlier
      · rw [List.mem_singleton.mp last]
        exact other
    · exact without.2

theorem parse_withoutHead {o o' : MessageObject} {buffer : Bytes} {results : List WriteResult}
    {answer : MessageObject.ParseAnswer} (filled : buffer ≠ [])
    (method : isHead o.message.method = false)
    (headless : ∀ start, .onHeadersComplete start ∈
      (lib o.message.role (o.feed buffer)).callbacks → isHead start.method = false)
    (parsed : o.parse lib buffer results = some (answer, o')) :
    isHead o'.message.method = false ∧ ∀ m ∈ o'.parser.completed, isHead m.method = false := by
  rw [MessageObject.parse, if_neg fun empty => filled (List.length_eq_zero_iff.mp empty)] at parsed
  obtain ⟨d, delivered, parsed⟩ := Option.bind_eq_some_iff.mp parsed
  obtain ⟨_, rfl⟩ := Prod.mk.inj (Option.some.inj parsed)
  refine MessageObject.Parsing.deliverAll_keeps WithoutHead ?_
    ⟨method, fun m there => absurd there List.not_mem_nil⟩ delivered
  intro d d' callback there without done
  refine deliver_withoutHead (fun start eq => headless start ?_) without done
  rw [← eq]
  exact there

theorem labelHead_other {method : Bytes} (other : isHead method = false) :
    c.labelHead method = c := by
  rw [labelHead]
  exact if_neg (Bool.eq_false_iff.mp other)

theorem connectServer_headless (headless : Headless c) (host : Bytes)
    (address : Option ConnectResult) : Headless (c.connectServer host address).2 := by
  have method : isHead c.request.getHostPort.2.message.method = false := by
    rw [MessageObject.getHostPort_message]
    exact headless.method
  cases address with
  | none => exact headless
  | some address =>
    cases address with
    | invalid => exact ⟨method, headless.nobody, headless.labelled⟩
    | failed fd shutdown => exact ⟨method, headless.nobody, headless.labelled⟩
    | opened fd => exact ⟨method, headless.nobody, headless.labelled.cons rfl rfl⟩

theorem resolve_headless (headless : Headless c) (host : Bytes) (lookup : Lookup) :
    Headless (c.resolve host lookup) := by
  cases lookup with
  | found address =>
    exact headless_stable.handleCalled _ _ (connectServer_headless headless host address)
  | failed => exact ⟨headless.method, headless.nobody, headless.labelled⟩
  | asked => exact ⟨headless.method, headless.nobody, headless.labelled⟩

theorem seekServer_headless (headless : Headless c) (host port : Bytes) (lookup : Lookup) :
    Headless (c.seekServer host port lookup) := by
  rw [seekServer]
  split_ifs
  · have closed := headless_stable.lasting.forceCloseServer headless
    have seeking : Headless { c.forceCloseServer with
        response := c.forceCloseServer.response.clear
        host := host
        port := port
        resolver := { c.forceCloseServer.resolver with callback := true } } :=
      ⟨closed.method, rfl, closed.labelled⟩
    exact resolve_headless seeking host lookup
  · exact headless

theorem requestHeaderCompleteHandle_headless (headless : Headless c) {lookup : Lookup}
    {message : HttpMessage} (method : isHead message.method = false)
    (called : c.requestHeaderCompleteHandle lookup message = some c') : Headless c' := by
  obtain ⟨⟨host, request⟩, got, rfl⟩ := Option.map_eq_some_iff.mp called
  have partly : isHead request.getHostPort.2.message.method = false := by
    rw [MessageObject.getHostPort_message, MessageObject.getHost_message got]
    exact method
  have before : Headless { c with request := request.getHostPort.2 } :=
    ⟨partly, headless.nobody, headless.labelled⟩
  have sought := seekServer_headless before host request.getHostPort.1 lookup
  dsimp only
  rw [labelHead_other method]
  exact ⟨headless.method, sought.nobody, sought.labelled⟩

theorem requestHeaders_headless (busy : Busy c) (headless : Headless c) {lookup : Nat → Lookup}
    {k : Nat} {messages : List HttpMessage} (methods : ∀ m ∈ messages, isHead m.method = false)
    (called : requestHeaders lookup k messages c = some c') : Busy c' ∧ Headless c' := by
  induction messages generalizing c k with
  | nil =>
    obtain rfl := Option.some.inj called
    exact ⟨busy, headless⟩
  | cons message rest ih =>
    obtain ⟨next, first, called⟩ := Option.bind_eq_some_iff.mp called
    have method : isHead message.method = false := methods message List.mem_cons_self
    have later : ∀ m ∈ rest, isHead m.method = false :=
      fun m there => methods m (List.mem_cons_of_mem message there)
    exact ih (requestHeaderCompleteHandle_busy busy first)
      (requestHeaderCompleteHandle_headless headless method first) later called

theorem parse_nobody {o o' : MessageObject} {buffer : Bytes} {results : List WriteResult}
    {answer : MessageObject.ParseAnswer} (filled : buffer ≠ [])
    (parsed : o.parse lib buffer results = some (answer, o')) :
    o'.parser.nobody = o.parser.nobody := by
  rw [MessageObject.parse, if_neg fun empty => filled (List.length_eq_zero_iff.mp empty)] at parsed
  obtain ⟨d, delivered, parsed⟩ := Option.bind_eq_some_iff.mp parsed
  obtain ⟨_, rfl⟩ := Prod.mk.inj (Option.some.inj parsed)
  have begins : o.parser.initParser.nobody = o.parser.nobody := by
    rw [HttpParser.initParser]
    split_ifs
    · rfl
    · rfl
  exact MessageObject.Parsing.deliverAll_keeps (fun d => d.parser.nobody = o.parser.nobody)
    (fun d d' callback _ same done => (deliver_does done).1.trans same) begins delivered

/-- So a round leaves it unset. -/
theorem headless_rounds : Rounds lib (NoHead lib) Headless where
  toStable := headless_stable
  begins c _ headless := ⟨headless.method, headless.nobody, headless.labelled⟩
  tunnelled c _ headless := ⟨headless.method, headless.nobody, headless.labelled⟩
  behind c c₁ r side _ _ _ _ _ headless _ := beyond_keeps (fun _ => headless.note rfl) headless
  prepared c r _ _ headless := headless.predict
  granted c r _ _ headless := by
    have clean : Headless c.cleared := ⟨rfl, rfl, headless.labelled⟩
    exact clean.predict
  responded c r _ _ headless := by
    have clean : Headless c.cleared := ⟨rfl, rfl, headless.labelled⟩
    exact clean.predict
  shaken c r _ _ headless := headless.predict
  request c c₁ r finish met state same _ headless filled parsed := by
    have other := met state
    generalize arrived r = data at *
    obtain ⟨⟨answer, request⟩, read, rest⟩ := Option.bind_eq_some_iff.mp parsed
    obtain ⟨c₂, called, rest⟩ := Option.bind_eq_some_iff.mp rest
    have receiving : Receiving c₁ .client := same.state.trans state
    obtain ⟨method, completed⟩ := parse_withoutHead filled headless.method
      (by rw [same.request]; exact other) read
    have before : Headless { c₁ with request := request } :=
      ⟨method, headless.nobody, headless.labelled⟩
    have busy : Busy { c₁ with request := request } := receiving.busy.of_state rfl
    obtain ⟨busy, after⟩ := requestHeaders_headless busy before completed called
    exact headless_stable.requestParsed busy after rest
  response c c₁ r finish met state same _ headless filled parsed := by
    generalize arrived r = data at *
    obtain ⟨⟨answer, response⟩, read, rest⟩ := Option.bind_eq_some_iff.mp parsed
    obtain rfl := Option.some.inj rest
    have receiving : Receiving c₁ .server := same.state.trans state
    have noted : HeadLabelled (c₁.note
        (.responded c₁.request.message c₁.response.parser.nobody)) := by
      intro request nobody there
      rcases List.mem_cons.mp there with eq | earlier
      · injection eq with message flag
        rw [message, flag, headless.nobody, headless.method]
      · exact headless.labelled request nobody earlier
    split_ifs at read ⊢
    · have after : Headless { c₁.note
          (.responded c₁.request.message c₁.response.parser.nobody) with
          response := response } :=
        ⟨headless.method, (parse_nobody filled read).trans headless.nobody, noted⟩
      refine headless_stable.responseParsed ?_ after answer.code
      exact receiving.busy.of_state rfl
    · have after : Headless { c₁ with response := response } :=
        ⟨headless.method, (parse_nobody filled read).trans headless.nobody, headless.labelled⟩
      refine headless_stable.responseParsed ?_ after answer.code
      exact receiving.busy.of_state rfl

end

/-- In a run without HEAD requests the flag is set for no response. -/
theorem head_labelled {lib : ParserLib} {id : IDType} {garbage : Nat → Byte} {status fd : Nat}
    {c : HttpProxyConnection} (run : Reaches (step lib)
      (Guarded lib (NoHead lib) fun _ _ => True) (start id garbage status fd) c) :
    HeadLabelled c := by
  have headless : Headless c := by
    refine headless_rounds.rules.run (fun c address host _ _ inv => ?_) ⟨rfl, rfl, ?_⟩ run
    · exact connectServer_headless (headless_stable.answered c inv) host address
    · exact fun request nobody there => by cases there with | tail _ h => cases h
  exact headless.labelled

def responseHeader : Bytes := literal "HTTP/1.1 200 OK\r\nContent-Length: 5\r\n\r\n"

/-- A request for `http://a/` without a body, and the header of its response. -/
def exchange (method : String) : ParserLib := recorded
  [(literal method ++ literal " / HTTP/1.1\r\nHost: a\r\n\r\n",
    [.onMessageBegin, .onUrl (literal "/"), .onHeaderField (literal "Host"),
     .onHeaderValue (literal "a"), .onHeadersComplete ⟨literal method, 0, 1, 1, false⟩,
     .onMessageComplete]),
   (responseHeader,
    [.onMessageBegin, .onStatus (literal "OK"), .onHeaderField (literal "Content-Length"),
     .onHeaderValue (literal "5"), .onHeadersComplete ⟨[], 200, 1, 1, false⟩])]

def exchangeRun (method : String) : ProxyEvent :=
  .called .client .readable
    [calm,
     { arriving (literal method ++ literal " / HTTP/1.1\r\nHost: a\r\n\r\n") with
       lookup := fun _ => .found (some (.opened 7)) },
     calm, calm, calm, arriving responseHeader]

/-- A response to a `GET`. -/
theorem head_labelled_get :
    ∃ c, (start 1 (fun _ => 0) 0 5).step (exchange "GET") (exchangeRun "GET") = some c ∧
      HeadLabelled c := by
  obtain ⟨c, steps⟩ : ∃ c, (start 1 (fun _ => 0) 0 5).step (exchange "GET")
      (exchangeRun "GET") = some c := ⟨_, rfl⟩
  have other (c : HttpProxyConnection) (r : Round) : NoHead (exchange "GET") c r := by
    intro _ start there
    obtain ⟨entry, written, there⟩ := recorded_mem there
    simp only [List.mem_cons, List.not_mem_nil, or_false] at written
    rcases written with rfl | rfl
    · simp at there
      rw [there]
      rfl
    · simp at there
      rw [there]
      rfl
  have guarded : Guarded (exchange "GET") (NoHead (exchange "GET")) (fun _ _ => True)
      (start 1 (fun _ => 0) 0 5) (exchangeRun "GET") :=
    fun _ _ _ _ _ => EveryRound.of_all other _ _
  exact ⟨c, steps, head_labelled (Reaches.start.next guarded steps)⟩

/-- The header of the response to a HEAD request is complete, and the flag is not set. -/
theorem not_head_labelled :
    ∃ c, Reaches (step (exchange "HEAD")) (fun _ _ => True) (start 1 (fun _ => 0) 0 5) c ∧
      ¬ HeadLabelled c := by
  have run : ((follow (step (exchange "HEAD")) (fun _ _ => True) (start 1 (fun _ => 0) 0 5)
      [exchangeRun "HEAD"]).map fun c => c.log.any fun
        | .responded request nobody => nobody != isHead request.method
        | _ => false) = some true := rfl
  obtain ⟨c, followed, found⟩ := Option.map_eq_some_iff.mp run
  obtain ⟨action, there, wrong⟩ := List.any_eq_true.mp found
  refine ⟨c, reaches_of_follow followed, fun labelled => ?_⟩
  cases action with
  | responded request nobody =>
    rw [labelled request nobody there] at wrong
    simp at wrong
  | _ => cases wrong

end HttpProxyConnection
