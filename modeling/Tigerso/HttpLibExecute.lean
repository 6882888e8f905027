import Tigerso.HttpLibStartLine

/-!
# http/lib/http_parser: headers, bodies and http_parser_execute
-/

open SystemCalls

namespace HttpLib

/-- `++parser->index`, in 7 bits. -/
def Parser.nextIndex (q : Parser) : Parser := { q with index := (q.index + 1) % 2 ^ 7 }

def Parser.setHeaderState (q : Parser) (h : HeaderState) : Parser := { q with headerState := h }

/-- One more byte of a name that is compared with `text`. -/
def matchName (text : Bytes) (found : HeaderState) (q : Parser) (c : Byte) : Parser :=
  let q := q.nextIndex
  if q.index > text.length ∨ c ≠ (text ++ [0]).getD q.index 0 then q.setHeaderState .hGeneral
  else if q.index = text.length - 1 then q.setHeaderState found
  else q

/-- The switch inside of `s_header_field`; `none` is the assertion. -/
def fieldChar (q : Parser) (ch c : Byte) : Option Parser :=
  match q.headerState with
  | .hGeneral => some q
  | .hC => some (q.nextIndex.setHeaderState (if c = ascii 'o' then .hCO else .hGeneral))
  | .hCO => some (q.nextIndex.setHeaderState (if c = ascii 'n' then .hCON else .hGeneral))
  | .hCON =>
    some (q.nextIndex.setHeaderState
      (if c = ascii 'n' then .hMatchingConnection
      else if c = ascii 't' then .hMatchingContentLength
      else .hGeneral))
  | .hMatchingConnection => some (matchName (literal "connection") .hConnection q c)
  | .hMatchingProxyConnection => some (matchName (literal "proxy-connection") .hConnection q c)
  | .hMatchingContentLength => some (matchName (literal "content-length") .hContentLength q c)
  | .hMatchingTransferEncoding =>
    some (matchName (literal "transfer-encoding") .hTransferEncoding q c)
  | .hMatchingUpgrade => some (matchName (literal "upgrade") .hUpgrade q c)
  | .hConnection => some (if ch ≠ sp then q.setHeaderState .hGeneral else q)
  | .hContentLength => some (if ch ≠ sp then q.setHeaderState .hGeneral else q)
  | .hTransferEncoding => some (if ch ≠ sp then q.setHeaderState .hGeneral else q)
  | .hUpgrade => some (if ch ≠ sp then q.setHeaderState .hGeneral else q)
  | _ => none

/-- The loop of `s_header_field`, with the number of bytes that it goes over. -/
def fieldLoop (strict : Bool) (q : Parser) : Bytes → Option (Parser × Nat)
  | [] => some (q, 0)
  | ch :: rest =>
    if token strict ch = 0 then some (q, 0)
    else do
      let q ← fieldChar q ch (token strict ch)
      let (q, n) ← fieldLoop strict q rest
      some (q, n + 1)

/-- `p` is the rest of the buffer, which is not empty. -/
def sHeaderField (strict : Bool) (r : Run) (p : Bytes) : Step :=
  match fieldLoop strict r.parser p with
  | none => .abort
  | some (q, n) =>
    { r with parser := q }.countHeaderSize n n fun r =>
      match p.drop n with
      | [] => .next r (n - 1)
      | ch :: _ =>
        if ch = ascii ':' then
          .next ((r.updateState .sHeaderValueDiscardWs).callbackData_ .headerField
            (p.take n)) n
        else .error .hpeInvalidHeaderToken r n

/-- `limit` bytes from `p` on are searched for the end of the line; without one there, `p` goes
to the end of the buffer. -/
def lineEnd (p : Bytes) : Nat :=
  let p_cr := (p.take httpMaxHeaderSize).findIdx? (· == cr)
  let p_lf := (p.take httpMaxHeaderSize).findIdx? (· == lf)
  match p_cr, p_lf with
  | some cr, some lf => if cr ≥ lf then lf else cr
  | some cr, none => cr
  | none, some lf => lf
  | none, none => p.length

/-- One more byte of a value that is compared with `text`. -/
def matchValue (text : Bytes) (other found : HeaderState) (q : Parser) (h : HeaderState)
    (c : Byte) :
    Parser × HeaderState :=
  let q := q.nextIndex
  if q.index > text.length ∨ c ≠ (text ++ [0]).getD q.index 0 then (q, other)
  else if q.index = text.length - 1 then (q, found)
  else (q, h)

/-- The flag that a complete value of `Connection` or `Transfer-Encoding` sets. -/
def Flags.found (f : Flags) : HeaderState → Flags
  | .hConnectionKeepAlive => { f with fConnectionKeepAlive := true }
  | .hConnectionClose => { f with fConnectionClose := true }
  | .hConnectionUpgrade => { f with fConnectionUpgrade := true }
  | .hTransferEncodingChunked => { f with fChunked := true }
  | _ => f

/-- `h_connection_keep_alive`, `h_connection_close` and `h_connection_upgrade`. -/
def tokenFound (q : Parser) (h : HeaderState) (ch : Byte) : Parser × HeaderState :=
  if ch = ascii ',' then
    ({ q with flags := q.flags.found h, index := 0 }, .hMatchingConnectionTokenStart)
  else if ch ≠ sp then (q, .hMatchingConnectionToken)
  else (q, h)

/-- `h_content_length`. -/
def lengthDigit (q : Parser) (ch : Byte) : Except (Option Errno) (Parser × HeaderState) :=
  if ch = sp then .ok (q, .hContentLength)
  else if !isNum ch then .error (some .hpeInvalidContentLength)
  else if (ullongMax - 10) / 10 < q.contentLength then .error (some .hpeInvalidContentLength)
  else
    .ok ({ q with contentLength := (q.contentLength * 10 + (ch.toNat - 48)) % 2 ^ 64 },
      .hContentLength)

/-- The switch inside of `s_header_value` but for `h_general`; the error `none` is the
assertion. -/
def valueChar (q : Parser) (h : HeaderState) (ch : Byte) :
    Except (Option Errno) (Parser × HeaderState) :=
  let c := lower ch
  match h with
  | .hConnection => .error none
  | .hTransferEncoding => .error none
  | .hContentLength => lengthDigit q ch
  | .hMatchingTransferEncodingChunked =>
    .ok (matchValue (literal "chunked") .hGeneral .hTransferEncodingChunked q h c)
  | .hMatchingConnectionTokenStart =>
    .ok (q,
      if c = ascii 'k' then .hMatchingConnectionKeepAlive
      else if c = ascii 'c' then .hMatchingConnectionClose
      else if c = ascii 'u' then .hMatchingConnectionUpgrade
      else if tokens c ≠ 0 then .hMatchingConnectionToken
      else if c = sp ∨ c = ht then h
      else .hGeneral)
  | .hMatchingConnectionKeepAlive =>
    .ok (matchValue (literal "keep-alive") .hMatchingConnectionToken .hConnectionKeepAlive
      q h c)
  | .hMatchingConnectionClose =>
    .ok (matchValue (literal "close") .hMatchingConnectionToken .hConnectionClose q h c)
  | .hMatchingConnectionUpgrade =>
    .ok (matchValue (literal "upgrade") .hMatchingConnectionToken .hConnectionUpgrade q h c)
  | .hMatchingConnectionToken =>
    .ok (if ch = ascii ',' then
      ({ q with index := 0 }, .hMatchingConnectionTokenStart) else (q, h))
  | .hTransferEncodingChunked => .ok (q, if ch ≠ sp then .hGeneral else h)
  | .hConnectionKeepAlive => .ok (tokenFound q h ch)
  | .hConnectionClose => .ok (tokenFound q h ch)
  | .hConnectionUpgrade => .ok (tokenFound q h ch)
  | _ => .ok (q, .hGeneral)

/-- Where the loop of `s_header_value` stops, `n` bytes behind its start; `h` is `h_state`. -/
inductive ValueEnd where
  | cr (q : Parser) (h : HeaderState) (n : Nat)
  | lf (q : Parser) (h : HeaderState) (n : Nat)
  | finished (q : Parser) (h : HeaderState) (n : Nat)
  | bad (e : Errno) (q : Parser) (n : Nat)
  | abort

def ValueEnd.behind : ValueEnd → ValueEnd
  | .cr q h n => .cr q h (n + 1)
  | .lf q h n => .lf q h (n + 1)
  | .finished q h n => .finished q h (n + 1)
  | .bad e q n => .bad e q (n + 1)
  | .abort => .abort

/-- The loop of `s_header_value`; it does not look at the next `skipped` bytes. -/
def valueLoop (q : Parser) (h : HeaderState) : Nat → Bytes → ValueEnd
  | _, [] => .finished q h 0
  | skipped + 1, _ :: rest => (valueLoop q h skipped rest).behind
  | 0, ch :: rest =>
    if ch = cr then .cr q h 0
    else if ch = lf then .lf q h 0
    else if !q.lenientHttpHeaders ∧ !isHeaderChar ch then .bad .hpeInvalidHeaderToken q 0
    else if h = .hGeneral then (valueLoop q h (lineEnd (ch :: rest) - 1) rest).behind
    else
      match valueChar q h ch with
      | .ok (q, h) => (valueLoop q h 0 rest).behind
      | .error (some e) => .bad e (q.setHeaderState h) 0
      | .error none => .abort

def sHeaderAlmostDone (r : Run) (ch : Byte) : Step :=
  if ch ≠ lf then .error .hpeLfExpected r 0
  else .next (r.updateState .sHeaderValueLws) 0

def sHeaderValue (r : Run) (p : Bytes) : Step :=
  match valueLoop r.parser r.parser.headerState 0 p with
  | .cr q h n =>
    (({ r with parser := q.setHeaderState h }.updateState .sHeaderAlmostDone).callbackData_
      .headerValue (p.take n)).countHeaderSize n n fun r => .next r n
  | .lf q h n =>
    ({ r with parser := q }.updateState .sHeaderAlmostDone).countHeaderSize n n fun r =>
      (sHeaderAlmostDone ((r.setHeaderState h).callbackData_ .headerValue (p.take n)) lf).behind
        n
  | .finished q h n =>
    { r with parser := q.setHeaderState h }.countHeaderSize n n fun r => .next r (n - 1)
  | .bad e q n => .error e { r with parser := q } n
  | .abort => .abort

section
variable (strict : Bool) (answer : Nat) (r : Run) (ch : Byte)

def sHeaderValueStart : Step :=
  let r := (((r.mark .headerValue).updateState .sHeaderValue).setIndex 0)
  let c := lower ch
  match r.parser.headerState with
  | .hUpgrade =>
    .next ((r.setFlags { r.parser.flags with fUpgrade := true }).setHeaderState .hGeneral) 0
  | .hTransferEncoding =>
    .next (r.setHeaderState
      (if c = ascii 'c' then .hMatchingTransferEncodingChunked else .hGeneral)) 0
  | .hContentLength =>
    if !isNum ch then .error .hpeInvalidContentLength r 0
    else if r.parser.flags.fContentlength then .error .hpeUnexpectedContentLength r 0
    else
      .next ((r.setFlags { r.parser.flags with fContentlength := true }).setContentLength
        (ch.toNat - 48)) 0
  | .hConnection =>
    .next (r.setHeaderState
      (if c = ascii 'k' then .hMatchingConnectionKeepAlive
      else if c = ascii 'c' then .hMatchingConnectionClose
      else if c = ascii 'u' then .hMatchingConnectionUpgrade
      else .hMatchingConnectionToken)) 0
  | .hMatchingConnectionTokenStart => .next r 0
  | _ => .next (r.setHeaderState .hGeneral) 0

def sHeaderValueDiscardWs : Step :=
  if ch = sp ∨ ch = ht then .next r 0
  else if ch = cr then .next (r.updateState .sHeaderValueDiscardWsAlmostDone) 0
  else if ch = lf then .next (r.updateState .sHeaderValueDiscardLws) 0
  else sHeaderValueStart r ch

def sMessageDone : Step :=
  let r := (r.updateState (newMessage strict r.parser)).callbackNotify .onMessageComplete
  if r.parser.upgrade then .leave r 0 else .next r 0

def Run.setUpgrade (r : Run) (b : Bool) : Run := { r with parser := { r.parser with upgrade := b } }

def sHeadersDone : Step :=
  if strict ∧ ch ≠ lf then .error .hpeStrict r 0
  else
    let r := r.setNread 0
    let q := r.parser
    let hasBody := q.flags.fChunked ∨ (q.contentLength > 0 ∧ q.contentLength ≠ ullongMax)
    let completed := (r.updateState (newMessage strict q)).callbackNotify .onMessageComplete
    if q.upgrade ∧ (q.method = .httpConnect ∨ q.flags.fSkipbody ∨ ¬ hasBody) then
      .leave completed 0
    else if q.flags.fSkipbody then .next completed 0
    else if q.flags.fChunked then .next (r.updateState .sChunkSizeStart) 0
    else if q.contentLength = 0 then .next completed 0
    else if q.contentLength ≠ ullongMax then .next (r.updateState .sBodyIdentity) 0
    else if !httpMessageNeedsEof q then .next completed 0
    else .next (r.updateState .sBodyIdentityEof) 0

/-- `F_SKIPBODY` is set. -/
def Run.skipBody (r : Run) : Run := r.setFlags { r.parser.flags with fSkipbody := true }

def sHeadersAlmostDone : Step :=
  if strict ∧ ch ≠ lf then .error .hpeStrict r 0
  else if r.parser.flags.fTrailing then sMessageDone strict (r.updateState .sMessageDone)
  else if r.parser.flags.fChunked ∧ r.parser.flags.fContentlength then
    .error .hpeUnexpectedContentLength r 0
  else
    let r := (r.updateState .sHeadersDone).setUpgrade
      ((r.parser.flags.fUpgrade && r.parser.flags.fConnectionUpgrade) ||
        decide (r.parser.method = .httpConnect))
    let r := r.callbackNotify (.onHeadersComplete r.parser.startLine)
    match answer with
    | 0 => sHeadersDone strict r ch
    | 1 => sHeadersDone strict r.skipBody ch
    | 2 => sHeadersDone strict (r.setUpgrade true).skipBody ch
    | _ => .error .hpeCbHeadersComplete r 0

def sHeaderFieldStart : Step :=
  if ch = cr then .next (r.updateState .sHeadersAlmostDone) 0
  else if ch = lf then sHeadersAlmostDone strict answer (r.updateState .sHeadersAlmostDone) ch
  else
    let c := token strict ch
    if c = 0 then .error .hpeInvalidHeaderToken r 0
    else
      .next ((((r.mark .headerField).setIndex 0).updateState .sHeaderField).setHeaderState
        (if c = ascii 'c' then .hC
        else if c = ascii 'p' then .hMatchingProxyConnection
        else if c = ascii 't' then .hMatchingTransferEncoding
        else if c = ascii 'u' then .hMatchingUpgrade
        else .hGeneral)) 0

def sHeaderValueLws : Step :=
  if ch = sp ∨ ch = ht then sHeaderValueStart (r.updateState .sHeaderValueStart) ch
  else
    sHeaderFieldStart strict answer
      ((r.setFlags (r.parser.flags.found r.parser.headerState)).updateState .sHeaderFieldStart)
      ch

def sHeaderValueDiscardLws : Step :=
  if ch = sp ∨ ch = ht then .next (r.updateState .sHeaderValueDiscardWs) 0
  else
    sHeaderFieldStart strict answer
      ((((r.setFlags (r.parser.flags.found r.parser.headerState)).mark .headerValue).updateState
        .sHeaderFieldStart).callbackData .headerValue)
      ch

/-- `p` is the rest of the buffer. -/
def sBodyIdentity (p : Bytes) : Step :=
  if r.parser.contentLength = 0 ∨ r.parser.contentLength = ullongMax then .abort
  else
    let to_read := min r.parser.contentLength p.length
    let r := (r.mark .body).setContentLength (r.parser.contentLength - to_read)
    if r.parser.contentLength = 0 then
      (sMessageDone strict
        ((r.updateState .sMessageDone).callbackData_ .body (p.take to_read))).behind (to_read - 1)
    else .next r (to_read - 1)

def sBodyIdentityEof (p : Bytes) : Step := .next (r.mark .body) (p.length - 1)

def sChunkSizeStart : Step :=
  if r.parser.nread ≠ 1 ∨ !r.parser.flags.fChunked then .abort
  else
    match unhex ch with
    | none => .error .hpeInvalidChunkSize r 0
    | some unhex_val => .next ((r.setContentLength unhex_val).updateState .sChunkSize) 0

def sChunkSize : Step :=
  if !r.parser.flags.fChunked then .abort
  else if ch = cr then .next (r.updateState .sChunkSizeAlmostDone) 0
  else
    match unhex ch with
    | none =>
      if ch = ascii ';' ∨ ch = sp then .next (r.updateState .sChunkParameters) 0
      else .error .hpeInvalidChunkSize r 0
    | some unhex_val =>
      if (ullongMax - 16) / 16 < r.parser.contentLength then
        .error .hpeInvalidContentLength r 0
      else .next (r.setContentLength ((r.parser.contentLength * 16 + unhex_val) % 2 ^ 64)) 0

def sChunkParameters : Step :=
  if !r.parser.flags.fChunked then .abort
  else if ch = cr then .next (r.updateState .sChunkSizeAlmostDone) 0
  else .next r 0

def sChunkSizeAlmostDone : Step :=
  if !r.parser.flags.fChunked then .abort
  else if strict ∧ ch ≠ lf then .error .hpeStrict r 0
  else
    let r := r.setNread 0
    if r.parser.contentLength = 0 then
      .next ((r.setFlags { r.parser.flags with fTrailing := true }).updateState
        .sHeaderFieldStart) 0
    else .next (r.updateState .sChunkData) 0

def sChunkData (p : Bytes) : Step :=
  if !r.parser.flags.fChunked ∨ r.parser.contentLength = 0 ∨
      r.parser.contentLength = ullongMax then .abort
  else
    let to_read := min r.parser.contentLength p.length
    let r := (r.mark .body).setContentLength (r.parser.contentLength - to_read)
    .next (if r.parser.contentLength = 0 then r.updateState .sChunkDataAlmostDone else r)
      (to_read - 1)

def sChunkDataAlmostDone : Step :=
  if !r.parser.flags.fChunked ∨ r.parser.contentLength ≠ 0 then .abort
  else if strict ∧ ch ≠ cr then .error .hpeStrict r 0
  else .next ((r.updateState .sChunkDataDone).callbackData .body) 0

def sChunkDataDone : Step :=
  if !r.parser.flags.fChunked then .abort
  else if strict ∧ ch ≠ lf then .error .hpeStrict r 0
  else .next ((r.setNread 0).updateState .sChunkSizeStart) 0

/-- The switch over `CURRENT_STATE()`; behind `ch` the buffer has `rest`. -/
def step (rest : Bytes) : Step :=
  match r.parser.state with
  | .sDead => sDead r ch
  | .sStartReqOrRes => sStartReqOrRes r ch
  | .sResOrRespH => sResOrRespH r ch
  | .sStartRes => sStartRes r ch
  | .sResH => expect strict r ch (ascii 'T') .sResHT
  | .sResHT => expect strict r ch (ascii 'T') .sResHTT
  | .sResHTT => expect strict r ch (ascii 'P') .sResHTTP
  | .sResHTTP => expect strict r ch (ascii '/') .sResFirstHttpMajor
  | .sResFirstHttpMajor => firstMajor r ch (ascii '0') .sResHttpMajor
  | .sResHttpMajor => httpMajor r ch .sResFirstHttpMinor
  | .sResFirstHttpMinor => firstMinor r ch .sResHttpMinor
  | .sResHttpMinor => sResHttpMinor r ch
  | .sResFirstStatusCode => sResFirstStatusCode r ch
  | .sResStatusCode => sResStatusCode r ch
  | .sResStatusStart => sResStatusStart r ch
  | .sResStatus => sResStatus r ch
  | .sResLineAlmostDone => expect strict r ch lf .sHeaderFieldStart
  | .sStartReq => sStartReq r ch
  | .sReqMethod => sReqMethod r ch
  | .sReqSpacesBeforeUrl => sReqSpacesBeforeUrl strict r ch
  | .sReqSchema => sReqSchema strict r ch
  | .sReqSchemaSlash => sReqSchema strict r ch
  | .sReqSchemaSlashSlash => sReqSchema strict r ch
  | .sReqServerStart => sReqSchema strict r ch
  | .sReqServer => sReqPath strict r ch
  | .sReqServerWithAt => sReqPath strict r ch
  | .sReqPath => sReqPath strict r ch
  | .sReqQueryStringStart => sReqPath strict r ch
  | .sReqQueryString => sReqPath strict r ch
  | .sReqFragmentStart => sReqPath strict r ch
  | .sReqFragment => sReqPath strict r ch
  | .sReqHttpStart => sReqHttpStart r ch
  | .sReqHttpH => expect strict r ch (ascii 'T') .sReqHttpHT
  | .sReqHttpHT => expect strict r ch (ascii 'T') .sReqHttpHTT
  | .sReqHttpHTT => expect strict r ch (ascii 'P') .sReqHttpHTTP
  | .sReqHttpHTTP => expect strict r ch (ascii '/') .sReqFirstHttpMajor
  | .sReqFirstHttpMajor => firstMajor r ch (ascii '1') .sReqHttpMajor
  | .sReqHttpMajor => httpMajor r ch .sReqFirstHttpMinor
  | .sReqFirstHttpMinor => firstMinor r ch .sReqHttpMinor
  | .sReqHttpMinor => sReqHttpMinor r ch
  | .sReqLineAlmostDone => sReqLineAlmostDone r ch
  | .sHeaderFieldStart => sHeaderFieldStart strict answer r ch
  | .sHeaderField => sHeaderField strict r (ch :: rest)
  | .sHeaderValueDiscardWs => sHeaderValueDiscardWs r ch
  | .sHeaderValueStart => sHeaderValueStart r ch
  | .sHeaderValue => sHeaderValue r (ch :: rest)
  | .sHeaderAlmostDone => sHeaderAlmostDone r ch
  | .sHeaderValueLws => sHeaderValueLws strict answer r ch
  | .sHeaderValueDiscardWsAlmostDone => expect strict r ch lf .sHeaderValueDiscardLws
  | .sHeaderValueDiscardLws => sHeaderValueDiscardLws strict answer r ch
  | .sHeadersAlmostDone => sHeadersAlmostDone strict answer r ch
  | .sHeadersDone => sHeadersDone strict r ch
  | .sBodyIdentity => sBodyIdentity strict r (ch :: rest)
  | .sBodyIdentityEof => sBodyIdentityEof r (ch :: rest)
  | .sMessageDone => sMessageDone strict r
  | .sChunkSizeStart => sChunkSizeStart r ch
  | .sChunkSize => sChunkSize r ch
  | .sChunkParameters => sChunkParameters r ch
  | .sChunkSizeAlmostDone => sChunkSizeAlmostDone strict r ch
  | .sChunkData => sChunkData r (ch :: rest)
  | .sChunkDataAlmostDone => sChunkDataAlmostDone strict r ch
  | .sChunkDataDone => sChunkDataDone strict r ch

end

/-- How the loop over the buffer ends. -/
inductive Ending where
  | finished (r : Run)
  /-- `RETURN` with `unread` bytes of the buffer not taken. -/
  | returned (r : Run) (unread : Nat)
  | aborted

def Run.setErrno (r : Run) (e : Errno) : Run := { r with parser := r.parser.setErrno e }

/-- The loop over the buffer; `p` is already behind the next `passed` bytes. -/
def loop (strict : Bool) (answer : Nat) : Nat → Run → Bytes → Ending
  | _, r, [] => .finished r
  | passed + 1, r, _ :: rest => loop strict answer passed r rest
  | 0, r, ch :: rest =>
    let counted := if parsingHeader r.parser.state then r.count 1 else r
    if parsingHeader r.parser.state ∧ counted.parser.nread > httpMaxHeaderSize then
      .returned (counted.setErrno .hpeHeaderOverflow) (rest.length + 1)
    else
      match step strict answer counted ch rest with
      | .next r passed => loop strict answer passed
        (r.advance ((ch :: rest).take (passed + 1))) rest
      | .error e r passed => .returned (r.setErrno e) (rest.length + 1 - passed)
      | .leave r passed => .returned r (rest.length - passed)
      | .abort => .aborted

/-- The marks that are set at the start of a buffer. -/
def resumed : State → Option Mark
  | .sHeaderField => some .headerField
  | .sHeaderValue => some .headerValue
  | .sReqPath => some .url
  | .sReqSchema => some .url
  | .sReqSchemaSlash => some .url
  | .sReqSchemaSlashSlash => some .url
  | .sReqServerStart => some .url
  | .sReqServer => some .url
  | .sReqServerWithAt => some .url
  | .sReqQueryStringStart => some .url
  | .sReqQueryString => some .url
  | .sReqFragmentStart => some .url
  | .sReqFragment => some .url
  | .sResStatus => some .status
  | _ => none

def Run.start (q : Parser) : Run where
  parser := q
  marks := fun m => if resumed q.state = some m then some [] else none
  callbacks := []

/-- The callbacks for the marks that are left; at most one of them is set. -/
def Run.finish (r : Run) : Option Run :=
  if (Mark.all.filter fun m => (r.marks m).isSome).length ≤ 1 then
    some (Mark.all.foldl Run.callbackData r)
  else none

/-- `http_parser_execute`; `none` when an assertion fails. -/
def httpParserExecute (strict : Bool) (answer : Nat) (q : Parser) (data : Bytes) :
    Option (Parser × Execution) :=
  if q.httpErrno ≠ .hpeOk then some (q, ⟨[], 0⟩)
  else if data = [] then
    match q.state with
    | .sBodyIdentityEof => some (q, ⟨[.onMessageComplete], 0⟩)
    | .sDead => some (q, ⟨[], 0⟩)
    | .sStartReqOrRes => some (q, ⟨[], 0⟩)
    | .sStartRes => some (q, ⟨[], 0⟩)
    | .sStartReq => some (q, ⟨[], 0⟩)
    | _ => some (q.setErrno .hpeInvalidEofState, ⟨[], 1⟩)
  else
    match loop strict answer 0 (.start q) data with
    | .finished r => do
      let r ← r.finish
      some (r.parser, ⟨r.callbacks, data.length⟩)
    | .returned r unread => some (r.parser, ⟨r.callbacks, data.length - unread⟩)
    | .aborted => none

end HttpLib
