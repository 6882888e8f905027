import Tigerso.BodyMemory
import Tigerso.HttpMessageObject
import Tigerso.ParserRuns

/-!
# What two message objects have to share

Two objects are alike when they differ only in what nothing shows: cells of the ring that were
not written, a name of a header that is replaced before it is used, a status code that was
never set.
-/

open SystemCalls RelatedResults

namespace HttpMessage

/-- `code` says that the status codes are the same, and `named` that the names of the last
header are. -/
inductive Alike (c code named : Bool) (m : HttpMessage) : HttpMessage → Prop
  | mk {status : Nat} {field : Bytes} {b : HttpBodyFile}
      (codes : code = true → status = m.statuscode)
      (fields : named = true → field = m.headerField)
      (bodies : HttpBodyFile.Alike c m.body b) :
      Alike c code named m { m with statuscode := status, headerField := field, body := b }

variable {c code named : Bool} {m m' : HttpMessage}

theorem Alike.bodies (alike : Alike c code named m m') : HttpBodyFile.Alike c m.body m'.body := by
  cases alike with
  | mk _ _ bodies => exact bodies

theorem Alike.fields (alike : Alike c code named m m') : m'.role = m.role ∧
    m'.method = m.method ∧ m'.url = m.url ∧ m'.desc = m.desc ∧
    m'.version = m.version ∧ m'.headers = m.headers := by
  cases alike with
  | mk => exact ⟨rfl, rfl, rfl, rfl, rfl, rfl⟩

theorem Alike.role (alike : Alike c code named m m') : m'.role = m.role := alike.fields.1

theorem Alike.getValueByHeader (alike : Alike c code named m m') (header : Bytes) :
    m'.getValueByHeader header = m.getValueByHeader header := by
  cases alike with
  | mk => rfl

theorem Alike.getHeader (alike : Alike c code named m m')
    (set : m.role = .httpRoleResponse → code = true) : m'.getHeader = m.getHeader := by
  cases alike with
  | mk codes =>
    rw [HttpMessage.getHeader, HttpMessage.getHeader]
    dsimp only
    cases role : m.role with
    | httpRoleRequest => rfl
    | httpRoleResponse => rw [codes (set role)]

theorem Alike.withBodies (alike : Alike c code named m m') {c₁ : Bool} {b b' : HttpBodyFile}
    (bodies : HttpBodyFile.Alike c₁ b b') :
    Alike c₁ code named { m with body := b } { m' with body := b' } := by
  cases alike with
  | mk codes fields => exact .mk (m := { m with body := b }) codes fields bodies

theorem Alike.withHeaders (alike : Alike c code named m m') (headers : List (Bytes × Bytes)) :
    Alike c code named { m with headers := headers } { m' with headers := headers } := by
  cases alike with
  | mk codes fields bodies => exact .mk (m := { m with headers := headers }) codes fields bodies

theorem Alike.setUrl (alike : Alike c code named m m') (url : Bytes) :
    Alike c code named (m.setUrl url) (m'.setUrl url) := by
  cases alike with
  | mk codes fields bodies => exact .mk (m := m.setUrl url) codes fields bodies

theorem Alike.setMethod (alike : Alike c code named m m') (method : Bytes) :
    Alike c code named (m.setMethod method) (m'.setMethod method) := by
  cases alike with
  | mk codes fields bodies => exact .mk (m := m.setMethod method) codes fields bodies

theorem Alike.setDesc (alike : Alike c code named m m') (desc : Bytes) :
    Alike c code named (m.setDesc desc) (m'.setDesc desc) := by
  cases alike with
  | mk codes fields bodies => exact .mk (m := m.setDesc desc) codes fields bodies

theorem Alike.setVersion (alike : Alike c code named m m') (version : Bytes) :
    Alike c code named (m.setVersion version) (m'.setVersion version) := by
  cases alike with
  | mk codes fields bodies => exact .mk (m := m.setVersion version) codes fields bodies

/-- The codes are the same when one was set. -/
theorem Alike.setStatuscode (alike : Alike c code named m m') (status : Nat) :
    Alike c true named (m.setStatuscode status) (m'.setStatuscode status) := by
  cases alike with
  | mk codes fields bodies =>
    rw [HttpMessage.setStatuscode, HttpMessage.setStatuscode]
    dsimp only
    split_ifs
    · exact .mk (m := { m with statuscode := status, desc := _ }) (fun _ => rfl) fields bodies
    · exact .mk (m := { m with statuscode := status }) (fun _ => rfl) fields bodies

/-- The names are the same when one was reported. -/
theorem Alike.onHeaderField (alike : Alike c code named m m') (name : Bytes) :
    Alike c code true (HttpParser.onHeaderField m name) (HttpParser.onHeaderField m' name) := by
  cases alike with
  | mk codes fields bodies =>
    exact .mk (m := { m with headerField := name }) codes (fun _ => rfl) bodies

theorem Alike.setValueByHeader (alike : Alike c code named m m') (header value : Bytes) :
    Alike c code named (m.setValueByHeader header value) (m'.setValueByHeader header value) := by
  rw [HttpMessage.setValueByHeader, HttpMessage.setValueByHeader, alike.fields.2.2.2.2.2]
  exact alike.withHeaders _

theorem Alike.removeHeader (alike : Alike c code named m m') (header : Bytes) :
    Alike c code named (m.removeHeader header) (m'.removeHeader header) := by
  rw [HttpMessage.removeHeader, HttpMessage.removeHeader, alike.fields.2.2.2.2.2]
  exact alike.withHeaders _

/-- An edit of a header does not look at the body. -/
theorem Alike.edit (alike : Alike c code named m m') (edit : HeaderEdit) :
    Alike c code named (m.edit edit) (m'.edit edit) := by
  cases edit with
  | setValueByHeader header value => exact alike.setValueByHeader header value
  | appendHeader header value =>
    rw [HttpMessage.edit, HttpMessage.edit, HttpMessage.appendHeader, HttpMessage.appendHeader,
      alike.fields.2.2.2.2.2]
    exact alike.withHeaders _
  | removeHeader header => exact alike.removeHeader header
  | setContentLength length => exact alike.setValueByHeader _ _
  | setContentType type => exact alike.setValueByHeader _ _
  | setCookie cookie =>
    rw [HttpMessage.edit, HttpMessage.edit, HttpMessage.setCookie, HttpMessage.setCookie,
      alike.fields.2.2.2.2.2]
    exact alike.withHeaders _
  | setKeepAlive bin => exact alike.setValueByHeader _ _
  | markTrade =>
    rw [HttpMessage.edit, HttpMessage.edit, HttpMessage.markTrade, HttpMessage.markTrade,
      alike.getValueByHeader]
    exact alike.setValueByHeader _ _

/-- Once it is chunked, the body of the message stays so. -/
theorem Alike.setChunkedTransfer (alike : Alike c code named m m') (bin : Bool) :
    Alike (c || bin) code named (m.setChunkedTransfer bin) (m'.setChunkedTransfer bin) := by
  cases bin with
  | false =>
    rw [Bool.or_false]
    exact alike.removeHeader _
  | true =>
    rw [Bool.or_true]
    have edited := (alike.removeHeader (literal "Content-Length")).setValueByHeader
      (literal "Transfer-Encoding") (literal "chunked")
    exact edited.withBodies edited.bodies.withChunked

theorem Alike.clear (alike : Alike c code named m m') :
    Alike c true false m.clear m'.clear := by
  cases alike with
  | mk _ _ bodies => exact .mk (m := m.clear) (fun _ => rfl) (fun no => nomatch no) bodies.reset

theorem Alike.setBodyFileName (alike : Alike c code named m m') (disk : Option Bytes)
    (readable : Bool) (mimetype : Option Bytes) :
    Alike c code named (m.setBodyFileName disk readable mimetype)
      (m'.setBodyFileName disk readable mimetype) := by
  have set := alike.withBodies (alike.bodies.setFile disk readable)
  cases disk with
  | none => exact set
  | some data =>
    cases mimetype with
    | none => exact set.setValueByHeader _ _
    | some type => exact (set.setValueByHeader _ _).setValueByHeader _ _

theorem setStatuscode_role (m : HttpMessage) (status : Nat) :
    (m.setStatuscode status).role = m.role := by
  rw [setStatuscode]
  split_ifs <;> rfl

theorem setBodyFileName_role (m : HttpMessage) (disk : Option Bytes) (readable : Bool)
    (mimetype : Option Bytes) : (m.setBodyFileName disk readable mimetype).role = m.role := by
  cases disk with
  | none => rfl
  | some data => cases mimetype <;> rfl

end HttpMessage

namespace HttpParser
open HttpMessage

/-- Parsers that differ at most in the messages that `headerCompletedHandle_` was called with. -/
structure InStep (p p' : HttpParser) : Prop where
  state : p'.state = p.state
  nobody : p'.nobody = p.nobody
  tunnelbody : p'.tunnelbody = p.tunnelbody
  handle : p'.headerCompletedHandle = p.headerCompletedHandle

/-- And these messages have the same header strings. -/
structure Alike (p p' : HttpParser) : Prop extends InStep p p' where
  completed : p'.completed.map getHeader = p.completed.map getHeader

variable {p p' : HttpParser}

theorem Alike.setParseState (alike : Alike p p') (state : ParseState) :
    Alike (p.setParseState state) (p'.setParseState state) :=
  ⟨⟨rfl, alike.nobody, alike.tunnelbody, alike.handle⟩, alike.completed⟩

theorem Alike.labelTunnelBody (alike : Alike p p') :
    Alike p.labelTunnelBody p'.labelTunnelBody :=
  ⟨⟨alike.state, alike.nobody, rfl, alike.handle⟩, alike.completed⟩

/-- `headerCompletedHandle_` was called. -/
theorem Alike.told (alike : Alike p p') {m m' : HttpMessage} (header : m'.getHeader = m.getHeader) :
    Alike { p with completed := p.completed ++ [m] }
      { p' with completed := p'.completed ++ [m'] } := by
  refine ⟨⟨alike.state, alike.nobody, alike.tunnelbody, alike.handle⟩, ?_⟩
  rw [List.map_append, List.map_append, alike.completed, List.map_singleton, List.map_singleton,
    header]

/-- What `parse` begins with. -/
theorem InStep.begun (step : InStep p p') : Alike { p.initParser with completed := [] }
    { p'.initParser with completed := [] } := by
  rw [initParser, initParser, step.state]
  split_ifs
  · exact ⟨⟨rfl, step.nobody, step.tunnelbody, step.handle⟩, rfl⟩
  · exact ⟨⟨step.state, step.nobody, step.tunnelbody, step.handle⟩, rfl⟩

/-- No type is `text` and `image` at once. -/
theorem mime_differs (mime : Bytes) : (!sameIgnoringCase mime (literal "text")) = true ∨
    (!sameIgnoringCase mime (literal "image")) = true := by
  by_contra both
  rw [not_or, Bool.not_eq_true', Bool.not_eq_false, Bool.not_eq_true', Bool.not_eq_false] at both
  have text := eq_of_beq both.1
  have image := eq_of_beq both.2
  exact absurd (text.symm.trans image) (by decide)

/-- The body is not one that the program stores. -/
def Tunnels (p : HttpParser) (m : HttpMessage) : Prop :=
  p.nobody = false ∧ (m.getValueByHeader (literal "content-length") = [] ∨
    atoi (m.getValueByHeader (literal "content-length")) ≥ fileBigContent ∨
      m.role = .httpRoleRequest)

instance (p : HttpParser) (m : HttpMessage) : Decidable (Tunnels p m) := by
  rw [Tunnels]
  infer_instance

/-- Looking at the body labels it at most: that it is chunked is never stored. -/
theorem lookAtBody_eq (p : HttpParser) (m : HttpMessage) (start : StartLine) :
    p.lookAtBody m start = (if Tunnels p m then p.labelTunnelBody else p, m) := by
  rw [lookAtBody]
  by_cases nobody : p.nobody = true
  · have stays : ¬ Tunnels p m := fun tunnels => Bool.false_ne_true (tunnels.1.symm.trans nobody)
    rw [if_pos nobody, if_neg stays]
  rw [if_neg nobody]
  rw [Bool.not_eq_true] at nobody
  dsimp only
  by_cases absent : m.getValueByHeader (literal "content-length") = []
  · have tunnels : Tunnels p m := ⟨nobody, Or.inl absent⟩
    rw [if_neg (not_not.mpr absent), if_pos (mime_differs _), if_pos tunnels]
  rw [if_pos absent]
  by_cases big : atoi (m.getValueByHeader (literal "content-length")) ≥ fileBigContent ∨
      m.role = .httpRoleRequest
  · have tunnels : Tunnels p m := ⟨nobody, Or.inr big⟩
    rw [if_pos big, if_pos tunnels]
  · have stays : ¬ Tunnels p m := fun tunnels => (tunnels.2.resolve_left absent |> big)
    rw [if_neg big, if_neg stays]

theorem Alike.tunnels (alike : Alike p p') {c code named : Bool} {m m' : HttpMessage}
    (messages : HttpMessage.Alike c code named m m') : Tunnels p' m' ↔ Tunnels p m := by
  rw [Tunnels, Tunnels, alike.nobody, messages.getValueByHeader, messages.role]

theorem Alike.lookAtBody (alike : Alike p p') {c code named : Bool} {m m' : HttpMessage}
    (messages : HttpMessage.Alike c code named m m') (start : StartLine) :
    Alike (p.lookAtBody m start).1 (p'.lookAtBody m' start).1 ∧
      HttpMessage.Alike c code named (p.lookAtBody m start).2 (p'.lookAtBody m' start).2 := by
  rw [lookAtBody_eq, lookAtBody_eq]
  refine ⟨?_, messages⟩
  by_cases tunnels : Tunnels p m
  · rw [if_pos tunnels, if_pos ((alike.tunnels messages).mpr tunnels)]
    exact alike.labelTunnelBody
  · rw [if_neg tunnels, if_neg (mt (alike.tunnels messages).mp tunnels)]
    exact alike

/-- Behind its headers a response has its own code. -/
theorem headersCompleted_alike {c code named : Bool} {m m' : HttpMessage}
    (messages : HttpMessage.Alike c code named m m') (start : StartLine) :
    HttpMessage.Alike c (code || m.role == .httpRoleResponse) named
      (headersCompleted m start) (headersCompleted m' start) := by
  have role' := messages.role
  rw [headersCompleted, headersCompleted]
  cases role : m.role with
  | httpRoleRequest =>
    have same : (code || HttpRole.httpRoleRequest == .httpRoleResponse) = code := by
      cases code <;> rfl
    have begun := messages.setMethod start.method
    rw [role'.trans role, same]
    dsimp only
    split_ifs
    · exact begun
    · exact begun.setVersion _
  | httpRoleResponse =>
    have set : (code || HttpRole.httpRoleResponse == .httpRoleResponse) = true := by
      cases code <;> rfl
    have begun := messages.setStatuscode start.statusCode
    rw [role'.trans role, set]
    dsimp only
    split_ifs
    · exact begun
    · exact begun.setVersion _

theorem onHeadersComplete_alike (alike : Alike p p') {c code named : Bool} {m m' : HttpMessage}
    (messages : HttpMessage.Alike c code named m m') (start : StartLine) :
    Alike (p.onHeadersComplete m start).1 (p'.onHeadersComplete m' start).1 ∧
      HttpMessage.Alike c (code || m.role == .httpRoleResponse) named
        (p.onHeadersComplete m start).2 (p'.onHeadersComplete m' start).2 := by
  have complete := headersCompleted_alike messages start
  have stated := alike.setParseState .parseHeaderComplete
  refine Alike.lookAtBody ?_ complete start
  have same := stated.handle
  by_cases handle : (p.setParseState .parseHeaderComplete).headerCompletedHandle = true
  · rw [if_pos handle, if_pos (same.trans handle)]
    have header := complete.getHeader fun response => by
      rw [(headersCompleted_frame m start).2] at response
      rw [response, beq_self_eq_true, Bool.or_true]
    exact stated.told header
  · rw [if_neg handle, if_neg (same ▸ handle)]
    exact stated

theorem onHeadersComplete_role (p : HttpParser) (m : HttpMessage) (start : StartLine) :
    (p.onHeadersComplete m start).2.role = m.role := by
  rw [onHeadersComplete, lookAtBody_eq]
  exact (headersCompleted_frame m start).2

theorem onUrl_role (m : HttpMessage) (at_ : Bytes) :
    (HttpParser.onUrl m at_).role = m.role := by
  rw [HttpParser.onUrl]
  split <;> rfl

theorem onStatus_role (m : HttpMessage) (at_ : Bytes) :
    (HttpParser.onStatus m at_).role = m.role := by
  rw [HttpParser.onStatus]
  split <;> rfl

theorem onUrl_alike {c code named : Bool} {m m' : HttpMessage}
    (messages : HttpMessage.Alike c code named m m') (at_ : Bytes) :
    HttpMessage.Alike c code named (HttpParser.onUrl m at_) (HttpParser.onUrl m' at_) := by
  rw [HttpParser.onUrl, HttpParser.onUrl, messages.role]
  cases m.role with
  | httpRoleRequest => exact messages.setUrl at_
  | httpRoleResponse => exact messages

theorem onStatus_alike {c code named : Bool} {m m' : HttpMessage}
    (messages : HttpMessage.Alike c code named m m') (at_ : Bytes) :
    HttpMessage.Alike c code named (HttpParser.onStatus m at_) (HttpParser.onStatus m' at_) := by
  rw [HttpParser.onStatus, HttpParser.onStatus, messages.role]
  cases m.role with
  | httpRoleRequest => exact messages
  | httpRoleResponse => exact messages.setDesc at_

theorem onHeaderValue_alike {c code : Bool} {m m' : HttpMessage}
    (messages : HttpMessage.Alike c code true m m') (at_ : Bytes) :
    HttpMessage.Alike c code true (HttpParser.onHeaderValue m at_)
      (HttpParser.onHeaderValue m' at_) := by
  have field : m'.headerField = m.headerField := by
    cases messages with
    | mk _ fields => exact fields rfl
  rw [HttpParser.onHeaderValue, HttpParser.onHeaderValue, field]
  exact messages.setValueByHeader _ _

end HttpParser

namespace MessageObject.Parsing
open HttpMessage

/-- Two calls of `parse` that have shown the same so far. -/
structure Alike (role : HttpRole) (c named : Bool) (d d' : Parsing) : Prop where
  role : d.message.role = role
  parsers : HttpParser.Alike d.parser d'.parser
  messages : HttpMessage.Alike c d.statusSet named d.message d'.message
  status : d.statusSet = true → d'.statusSet = true
  results : d'.results = d.results
  bodies : d'.bodies = d.bodies

def names : Callback → Bool
  | .onHeaderField _ => true
  | _ => false

/-- A callback shows the same; the value of a header needs a name that was reported. -/
theorem deliver_alike {r : HttpRole} {c named : Bool} {d d' : Parsing}
    (alike : Alike r c named d d') (bodyHandle : Bool) (callback : Callback)
    (known : named = true ∨ NameFirst [callback]) :
    Option.Rel (Alike r c (named || names callback)) (d.deliver bodyHandle callback)
      (d'.deliver bodyHandle callback) := by
  obtain ⟨kind, parsers, messages, status, results, bodies⟩ := alike
  cases callback with
  | onMessageBegin =>
    dsimp only [names]
    rw [Bool.or_false]
    exact .some ⟨kind, parsers.setParseState _, messages, status, results, bodies⟩
  | onUrl at_ =>
    dsimp only [names]
    rw [Bool.or_false]
    exact .some ⟨(HttpParser.onUrl_role d.message at_).trans kind, parsers,
      HttpParser.onUrl_alike messages at_, status, results, bodies⟩
  | onStatus at_ =>
    dsimp only [names]
    rw [Bool.or_false]
    exact .some ⟨(HttpParser.onStatus_role d.message at_).trans kind, parsers,
      HttpParser.onStatus_alike messages at_, status, results, bodies⟩
  | onHeaderField at_ =>
    dsimp only [names]
    rw [Bool.or_true]
    exact .some ⟨kind, parsers, messages.onHeaderField at_, status, results, bodies⟩
  | onHeaderValue at_ =>
    obtain rfl : named = true := known.resolve_right id
    exact .some
      ⟨kind, parsers, HttpParser.onHeaderValue_alike messages at_, status, results, bodies⟩
  | onHeadersComplete start =>
    dsimp only [names]
    rw [Bool.or_false]
    obtain ⟨parsers, complete⟩ := HttpParser.onHeadersComplete_alike parsers messages start
    have role := HttpParser.onHeadersComplete_role d.parser d.message start
    have same : (d'.parser.onHeadersComplete d'.message start).2.role = d.message.role :=
      complete.role.trans role
    rw [deliver, deliver]
    dsimp only
    rw [role, same]
    refine .some ⟨role.trans kind, parsers, complete, fun set => ?_, results, bodies⟩
    rcases Bool.or_eq_true_iff.mp set with before | response
    · exact Bool.or_eq_true_iff.mpr (Or.inl (status before))
    · exact Bool.or_eq_true_iff.mpr (Or.inr response)
  | onBody at_ =>
    dsimp only [names]
    have looked : HttpParser.Alike
        (if !d.parser.tunnelbody ∧ fileBigContent ≤ d.message.body.size then
          d.parser.labelTunnelBody else d.parser)
        (if !d'.parser.tunnelbody ∧ fileBigContent ≤ d'.message.body.size then
          d'.parser.labelTunnelBody else d'.parser) := by
      rw [parsers.tunnelbody, messages.bodies.size]
      split_ifs
      · exact parsers.labelTunnelBody
      · exact parsers
    have tunnels := looked.tunnelbody
    have stated := looked.setParseState .parseBodyNeedMoreData
    rw [Bool.or_false, deliver, deliver]
    dsimp only
    rw [tunnels, results]
    by_cases past : (if !d.parser.tunnelbody ∧ fileBigContent ≤ d.message.body.size then
        d.parser.labelTunnelBody else d.parser).tunnelbody = true
    · rw [if_pos past, if_pos past]
      exact .some ⟨kind, stated, messages, status, rfl, bodies⟩
    · rw [if_neg past, if_neg past]
      refine optionBind (HttpBodyFile.writeIn_alike messages.bodies at_ d.results)
        fun x y ⟨_, written, rest⟩ => ?_
      rw [rest]
      exact .some ⟨kind, stated, messages.withBodies written, status, rfl, bodies⟩
  | onMessageComplete =>
    dsimp only [names]
    rw [Bool.or_false, deliver, deliver, results]
    refine optionBind (HttpBodyFile.flushFile_alike messages.bodies d.results)
      fun x y ⟨flushed, rest⟩ => ?_
    dsimp only
    rw [bodies, rest]
    exact .some ⟨kind, parsers.setParseState _,
      messages.withBodies (flushed.withFiles flushed.files.close), status, rfl, rfl⟩

/-- What stands behind callbacks that report no name. -/
theorem nameFirst_silent {front : List Callback}
    (silent : ∀ callback ∈ front, names callback = false) (rest : List Callback)
    (first : NameFirst (front ++ rest)) : NameFirst rest := by
  induction front with
  | nil => exact first
  | cons callback front ih =>
    have later := ih fun callback there => silent callback (List.mem_cons_of_mem _ there)
    have unnamed := silent callback List.mem_cons_self
    cases callback with
    | onHeaderField => cases unnamed
    | onHeaderValue => exact False.elim first
    | onMessageBegin => exact later first
    | onUrl => exact later first
    | onStatus => exact later first
    | onHeadersComplete => exact later first
    | onBody => exact later first
    | onMessageComplete => exact later first

theorem nameFirst_head {callback : Callback} {rest : List Callback}
    (first : NameFirst (callback :: rest)) : NameFirst [callback] := by
  cases callback with
  | onHeaderValue => exact first
  | _ => trivial

/-- All callbacks of a call show the same. -/
theorem deliverAll_alike {r : HttpRole} {c named : Bool} {d d' : Parsing}
    (alike : Alike r c named d d') (bodyHandle : Bool) (callbacks : List Callback)
    (known : named = true ∨ NameFirst callbacks) :
    Option.Rel (Alike r c (named || callbacks.any names)) (d.deliverAll bodyHandle callbacks)
      (d'.deliverAll bodyHandle callbacks) := by
  induction callbacks generalizing d d' named with
  | nil =>
    rw [List.any_nil, Bool.or_false]
    exact .some alike
  | cons callback rest ih =>
    rw [List.any_cons, ← Bool.or_assoc]
    refine optionBind (deliver_alike alike bodyHandle callback (known.imp_right nameFirst_head))
      fun d d' after => ih after ?_
    rcases known with reported | first
    · exact Or.inl (Bool.or_eq_true_iff.mpr (Or.inl reported))
    · cases reports : names callback with
      | true => exact Or.inl (Bool.or_true named)
      | false =>
        have silent : ∀ callback' ∈ [callback], names callback' = false := by
          intro callback' there
          rwa [List.mem_singleton.mp there]
        exact Or.inr (nameFirst_silent silent rest first)

end MessageObject.Parsing

theorem ParserLib.callbacks_append (lib : ParserLib) (role : HttpRole) (fed : List (Bytes × Bool))
    (next : Bytes × Bool) : lib.callbacks role (fed ++ [next]) =
      lib.callbacks role fed ++ (lib role (fed ++ [next])).callbacks := by
  rw [callbacks, List.length_append, List.length_singleton, List.range_succ, List.flatMap_append,
    List.flatMap_singleton]
  congr 1
  · apply List.flatMap_congr
    intro k inside
    have short := List.mem_range.mp inside
    rw [List.take_append_of_le_length (by omega)]
  · rw [List.take_of_length_le (by simp)]

namespace MessageObject
open HttpMessage

/-- No name of a header was reported since `http_parser` was initialised. -/
def Unnamed (lib : ParserLib) (o : MessageObject) : Prop :=
  o.parser.state = .parseUninit ∨
    ∀ callback ∈ lib.callbacks o.message.role o.fed, Parsing.names callback = false

/-- `c` says whether the body is chunked. -/
structure Alike (lib : ParserLib) (c : Bool) (o o' : MessageObject) : Prop where
  messages : ∃ named, HttpMessage.Alike c o.statusSet named o.message o'.message ∧
    (named = true ∨ o.Unnamed lib)
  status : o.statusSet = true → o'.statusSet = true
  parsers : HttpParser.InStep o.parser o'.parser
  bodyHandle : o'.bodyCompletedHandle = o.bodyCompletedHandle
  fed : o.parser.state = .parseUninit ∨ o'.fed = o.fed
  host : o'.host = o.host
  port : o'.port = o.port

/-- What is shown is the same, unless it is the header of a code that was never set. -/
def Matches (shown shown' : Observation) : Prop := shown = .header none ∨ shown' = shown

variable {lib : ParserLib} {c c₁ : Bool} {o o' : MessageObject}

theorem Alike.role (alike : Alike lib c o o') : o'.message.role = o.message.role := by
  obtain ⟨_, messages, _⟩ := alike.messages
  exact messages.role

theorem Alike.bodies (alike : Alike lib c o o') :
    HttpBodyFile.Alike c o.message.body o'.message.body := by
  obtain ⟨_, messages, _⟩ := alike.messages
  exact messages.bodies

/-- A change of the messages that leaves them alike. -/
theorem Alike.withMessages (alike : Alike lib c o o') {m m' : HttpMessage}
    (role : m.role = o.message.role)
    (changes : ∀ named, HttpMessage.Alike c o.statusSet named o.message o'.message →
      HttpMessage.Alike c₁ o.statusSet named m m') :
    Alike lib c₁ (o.withMessage m) (o'.withMessage m') := by
  obtain ⟨⟨named, messages, known⟩, status, parsers, bodyHandle, fed, host, port⟩ := alike
  refine ⟨⟨named, changes named messages, ?_⟩, status, parsers, bodyHandle, fed, host, port⟩
  rw [Unnamed, withMessage]
  dsimp only
  rwa [role]

theorem Alike.onRole (alike : Alike lib c o o') (role : HttpRole)
    {change : MessageObject → MessageObject}
    (changes : Alike lib c (change o) (change o')) :
    Alike lib c (o.onRole role change) (o'.onRole role change) := by
  rw [MessageObject.onRole, MessageObject.onRole, alike.role]
  split_ifs
  · exact changes
  · exact alike

theorem Alike.headerString (alike : Alike lib c o o') :
    Matches (.header o.headerString) (.header o'.headerString) := by
  obtain ⟨⟨named, messages, _⟩, status, _⟩ := alike
  by_cases unset : o.message.role = .httpRoleResponse ∧ o.statusSet = false
  · left
    rw [MessageObject.headerString, if_pos unset]
  · right
    have set : o.message.role = .httpRoleResponse → o.statusSet = true := fun response => by
      by_contra unknown
      exact unset ⟨response, Bool.not_eq_true _ ▸ unknown⟩
    have set' : ¬ (o'.message.role = .httpRoleResponse ∧ o'.statusSet = false) := by
      rintro ⟨response, unknown⟩
      rw [messages.role] at response
      exact Bool.false_ne_true (unknown.symm.trans (status (set response)))
    rw [MessageObject.headerString, MessageObject.headerString, if_neg unset, if_neg set',
      messages.getHeader set]

theorem Alike.withHost (alike : Alike lib c o o') (host : Bytes) :
    Alike lib c { o with host := host } { o' with host := host } := by
  obtain ⟨messages, status, parsers, bodyHandle, fed, _, port⟩ := alike
  exact ⟨messages, status, parsers, bodyHandle, fed, rfl, port⟩

theorem Alike.withPort (alike : Alike lib c o o') (port : Bytes) :
    Alike lib c { o with port := port } { o' with port := port } := by
  obtain ⟨messages, status, parsers, bodyHandle, fed, host, _⟩ := alike
  exact ⟨messages, status, parsers, bodyHandle, fed, host, rfl⟩

/-- The host that is kept is that of the same URL and headers. -/
theorem Alike.getHost (alike : Alike lib c o o') :
    Option.Rel (Same (Alike lib c)) o.getHost o'.getHost := by
  obtain ⟨_, messages, _⟩ := alike.messages
  rw [MessageObject.getHost, MessageObject.getHost, alike.role, alike.host,
    messages.getValueByHeader, messages.fields.2.2.1]
  cases o.message.role with
  | httpRoleResponse => exact .some ⟨rfl, alike⟩
  | httpRoleRequest =>
    by_cases known : o.host ≠ []
    · simp only [if_pos known]
      exact .some ⟨rfl, alike⟩
    · simp only [if_neg known]
      have found (host : Option Bytes) : Option.Rel (Same (Alike lib c))
          (host.bind fun host => some (host, { o with host := host }))
          (host.bind fun host => some (host, { o' with host := host })) := by
        cases host with
        | none => exact .none
        | some host => exact .some ⟨rfl, alike.withHost host⟩
      split_ifs
      · exact found _
      · exact found (some _)

theorem Alike.getHostPort (alike : Alike lib c o o') :
    Same (Alike lib c) o.getHostPort o'.getHostPort := by
  obtain ⟨_, messages, _⟩ := alike.messages
  rw [MessageObject.getHostPort, MessageObject.getHostPort, alike.role, alike.port,
    messages.getValueByHeader, messages.fields.2.2.1]
  cases o.message.role with
  | httpRoleResponse => exact ⟨rfl, alike⟩
  | httpRoleRequest =>
    dsimp only
    split_ifs
    · exact ⟨rfl, alike⟩
    · exact ⟨rfl, alike.withPort _⟩

theorem Alike.feed (alike : Alike lib c o o') (buffer : Bytes) :
    o'.feed buffer = o.feed buffer := by
  rw [MessageObject.feed, MessageObject.feed, alike.parsers.state, alike.parsers.nobody]
  rcases alike.fed with new | same
  · rw [if_pos new, if_pos new]
  · rw [same]

/-- The value of a header that `parse` sees has the name that this object was told. -/
theorem Unnamed.known (unnamed : o.Unnamed lib) (buffer : Bytes) :
    ∃ front, (∀ callback ∈ front, Parsing.names callback = false) ∧
      lib.callbacks o.message.role (o.feed buffer) =
        front ++ (lib o.message.role (o.feed buffer)).callbacks := by
  rw [MessageObject.feed]
  by_cases new : o.parser.state = .parseUninit
  · rw [if_pos new]
    refine ⟨[], fun _ no => absurd no List.not_mem_nil, ?_⟩
    exact lib.callbacks_append _ [] _
  · rw [if_neg new]
    exact ⟨_, unnamed.resolve_left new, lib.callbacks_append _ _ _⟩

/-- Bytes are parsed alike; the names come before the values. -/
theorem Alike.parse (names : lib.NamesFirst) (alike : Alike lib c o o') (buffer : Bytes)
    (results : List WriteResult) :
    Option.Rel (Same (Alike lib c)) (o.parse lib buffer results)
      (o'.parse lib buffer results) := by
  rw [MessageObject.parse, MessageObject.parse]
  by_cases empty : buffer.length = 0
  · rw [if_pos empty, if_pos empty]
    exact .some ⟨rfl, alike⟩
  rw [if_neg empty, if_neg empty]
  have fed' := alike.feed buffer
  obtain ⟨⟨named, messages, known⟩, status, parsers, bodyHandle, fed, host, port⟩ := alike
  have begun : Parsing.Alike o.message.role c named
      ⟨{ o.parser.initParser with completed := [] }, o.message, o.statusSet, results, 0⟩
      ⟨{ o'.parser.initParser with completed := [] }, o'.message, o'.statusSet, results, 0⟩ :=
    ⟨rfl, parsers.begun, messages, status, rfl, rfl⟩
  have told : named = true ∨ NameFirst (lib o.message.role (o.feed buffer)).callbacks :=
    known.imp_right fun unnamed => by
      obtain ⟨front, silent, split⟩ := unnamed.known buffer
      have first := names o.message.role (o.feed buffer)
      rw [split] at first
      exact Parsing.nameFirst_silent silent _ first
  dsimp only
  rw [fed', messages.role, bodyHandle]
  refine optionBind (Parsing.deliverAll_alike begun _ _ told) fun d d' after => ?_
  rw [HttpParser.needMoreData, HttpParser.needMoreData, after.parsers.state,
    after.parsers.completed, after.bodies]
  refine .some ⟨rfl, ⟨_, after.messages, ?_⟩, after.status, after.parsers.toInStep, rfl,
    Or.inr rfl, host, port⟩
  by_cases reported : (named || (lib o.message.role (o.feed buffer)).callbacks.any
      Parsing.names) = true
  · exact Or.inl reported
  · have unnamed : o.Unnamed lib := known.resolve_left fun before =>
      reported (Bool.or_eq_true_iff.mpr (Or.inl before))
    obtain ⟨front, silent, split⟩ := unnamed.known buffer
    refine Or.inr (Or.inr fun callback there => ?_)
    dsimp only at there
    rw [after.role, split] at there
    rcases List.mem_append.mp there with before | now
    · exact silent callback before
    · by_contra named_now
      refine reported (Bool.or_eq_true_iff.mpr (Or.inr (List.any_eq_true.mpr ⟨callback, now, ?_⟩)))
      rwa [Bool.not_eq_false] at named_now

theorem Alike.clear (alike : Alike lib c o o') : Alike lib c o.clear o'.clear := by
  obtain ⟨⟨named, messages, _⟩, _, parsers, _⟩ := alike
  refine ⟨⟨false, messages.clear, Or.inr (Or.inl rfl)⟩, fun _ => rfl, ⟨rfl, rfl, rfl, rfl⟩, rfl,
    Or.inl rfl, rfl, rfl⟩

def Op.chunks : Op → Bool
  | .setChunkedTransfer bin => bin
  | _ => false

theorem Alike.withParsers (alike : Alike lib c o o') {p p' : HttpParser}
    (state : p.state = o.parser.state) (step : HttpParser.InStep p p') :
    Alike lib c { o with parser := p } { o' with parser := p' } := by
  obtain ⟨⟨named, messages, known⟩, status, parsers, bodyHandle, fed, host, port⟩ := alike
  refine ⟨⟨named, messages, ?_⟩, status, step, bodyHandle, ?_, host, port⟩
  · rwa [Unnamed, state]
  · rwa [state]

/-- Two calls that show the same and leave objects that are alike. -/
def Shows (lib : ParserLib) (c : Bool) (op : Op) :
    Except Bytes (Observation × MessageObject) →
      Except Bytes (Observation × MessageObject) → Prop :=
  ExceptRel Eq fun x y => Matches x.1 y.1 ∧ Alike lib (c || op.chunks) x.2 y.2

theorem shows_ok {op : Op} (plain : op.chunks = false) {shown shown' : Observation}
    (same : Matches shown shown') (alike : Alike lib c o o') :
    Shows lib c op (.ok (shown, o)) (.ok (shown', o')) := by
  refine .ok ⟨same, ?_⟩
  rwa [plain, Bool.or_false]

/-- The status code is set. -/
theorem Alike.withStatus (alike : Alike lib c o o') (code : Nat) :
    Alike lib c { o.withMessage (o.message.setStatuscode code) with statusSet := true }
      { o'.withMessage (o'.message.setStatuscode code) with statusSet := true } := by
  obtain ⟨⟨named, messages, known⟩, status, parsers, bodyHandle, fed, host, port⟩ := alike
  refine ⟨⟨named, messages.setStatuscode code, ?_⟩, fun _ => rfl, parsers, bodyHandle, fed, host,
    port⟩
  rw [Unnamed, withMessage]
  dsimp only
  rwa [HttpMessage.setStatuscode_role]

theorem Alike.withHandle (alike : Alike lib c o o') :
    Alike lib c { o with bodyCompletedHandle := true }
      { o' with bodyCompletedHandle := true } := by
  obtain ⟨messages, status, parsers, _, fed, host, port⟩ := alike
  exact ⟨messages, status, parsers, rfl, fed, host, port⟩

theorem Alike.withBodies (alike : Alike lib c o o') {b b' : HttpBodyFile}
    (bodies : HttpBodyFile.Alike c b b') :
    Alike lib c (o.withMessage { o.message with body := b })
      (o'.withMessage { o'.message with body := b' }) :=
  alike.withMessages rfl fun _ messages => messages.withBodies bodies

/-- Every call shows the same of objects that are alike. -/
theorem apply_alike (names : lib.NamesFirst) (alike : Alike lib c o o') (op : Op) :
    Shows lib c op (o.apply lib op) (o'.apply lib op) := by
  have ⟨state, nobody, tunnelbody, handle⟩ := alike.parsers
  cases op with
  | setMethod method =>
    exact shows_ok rfl (Or.inr rfl) (alike.onRole _
      (alike.withMessages rfl fun _ messages => messages.setMethod method))
  | setUrl url =>
    exact shows_ok rfl (Or.inr rfl) (alike.onRole _
      (alike.withMessages rfl fun _ messages => messages.setUrl url))
  | setStatuscode status =>
    exact shows_ok rfl (Or.inr rfl) (alike.onRole _ (alike.withStatus status))
  | setDesc desc =>
    exact shows_ok rfl (Or.inr rfl) (alike.onRole _
      (alike.withMessages rfl fun _ messages => messages.setDesc desc))
  | setVersion version =>
    exact shows_ok rfl (Or.inr rfl)
      (alike.withMessages rfl fun _ messages => messages.setVersion version)
  | edit edit =>
    refine shows_ok rfl (Or.inr rfl) (alike.withMessages ?_ fun _ messages => messages.edit edit)
    cases edit <;> rfl
  | setChunkedTransfer bin =>
    refine .ok ⟨Or.inr rfl, alike.withMessages ?_
      fun _ messages => messages.setChunkedTransfer bin⟩
    cases bin <;> rfl
  | setBodyFileName fn disk readable mimetype =>
    rw [apply, apply]
    split_ifs
    · exact shows_ok rfl (Or.inr rfl) alike
    · refine shows_ok rfl (Or.inr rfl) (alike.withMessages ?_
        fun _ messages => messages.setBodyFileName disk readable mimetype)
      exact HttpMessage.setBodyFileName_role _ _ _ _
  | appendBody body results =>
    have wrote := HttpBodyFile.writeIn_alike alike.bodies body results
    rw [apply, apply]
    generalize o.message.body.writeIn body results = x at wrote ⊢
    generalize o'.message.body.writeIn body results = y at wrote ⊢
    cases wrote with
    | none => exact .error rfl
    | some same =>
      refine shows_ok rfl (Or.inr ?_) (alike.withBodies same.2.1)
      rw [same.1]
  | tunnelBody =>
    exact shows_ok rfl (Or.inr rfl) (alike.withParsers rfl ⟨state, nobody, rfl, handle⟩)
  | shouldNoBody =>
    exact shows_ok rfl (Or.inr rfl)
      (alike.onRole _ (alike.withParsers rfl ⟨state, rfl, tunnelbody, handle⟩))
  | setHeaderCompletedHandle =>
    exact shows_ok rfl (Or.inr rfl) (alike.withParsers rfl ⟨state, nobody, tunnelbody, rfl⟩)
  | setBodyCompletedHandle => exact shows_ok rfl (Or.inr rfl) alike.withHandle
  | getHeader => exact shows_ok rfl alike.headerString alike
  | getHost =>
    have got := alike.getHost
    rw [apply, apply]
    generalize o.getHost = x at got ⊢
    generalize o'.getHost = y at got ⊢
    cases got with
    | none => exact .error rfl
    | some same =>
      refine shows_ok rfl (Or.inr ?_) same.2
      rw [same.1]
  | getHostPort =>
    have same := alike.getHostPort
    refine shows_ok rfl (Or.inr ?_) same.2
    rw [same.1]
  | getBodySize =>
    refine shows_ok rfl (Or.inr ?_) alike
    rw [alike.bodies.size]
  | parse buffer results =>
    have parsed := alike.parse names buffer results
    rw [apply, apply]
    generalize o.parse lib buffer results = x at parsed ⊢
    generalize o'.parse lib buffer results = y at parsed ⊢
    cases parsed with
    | none => exact .error rfl
    | some same =>
      refine shows_ok rfl (Or.inr ?_) same.2
      rw [same.1]
  | send2Socket sendfile mcsock results =>
    have sent := Transfer.send2Socket_keeps sendfile mcsock _ _
      (Transfer.Alike.mk (t := ⟨o.message.body, [], results, []⟩) alike.bodies)
    rw [apply, apply]
    generalize Transfer.send2Socket sendfile mcsock ⟨o.message.body, [], results, []⟩ = x
      at sent ⊢
    generalize Transfer.send2Socket sendfile mcsock ⟨o'.message.body, [], results, []⟩ = y
      at sent ⊢
    cases sent with
    | error transfers => exact .error transfers.sent.symm
    | ok same =>
      refine shows_ok rfl (Or.inr ?_) (alike.withBodies same.2.bodies)
      rw [same.1, same.2.sent]
  | clear => exact shows_ok rfl (Or.inr rfl) alike.clear

end MessageObject
