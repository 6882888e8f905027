import Tigerso.StartLines
import Tigerso.ChunkDecoding
import Tigerso.SizedBodies

/-!
# Messages that arrive

A message whose headers say how its body is coded is reported as it was sent: the start line, the
headers in their order, the body and the end of the message, however the bytes behind the headers
are cut into buffers.
-/

open SystemCalls HttpMessage ChunkedCoding

namespace HttpLib

/-- How the bytes behind the headers of a message code a body. -/
inductive Carries (headers : List (Bytes × Bytes)) : Bytes → Bytes → Prop
  | chunked {stream body : Bytes} (encoded : SaysChunked headers)
      (unsized : ¬ Names headers (literal "content-length"))
        (coded : Limited sizeDigits stream body)
      (small : stream.length < 2 ^ 60) : Carries headers stream body
  | sized {body : Bytes} (plain : ¬ SaysChunked headers) (length : SaysLength headers body.length) :
      Carries headers body body
  | nothing (plain : ¬ SaysChunked headers) (unsized : ¬ Names headers (literal "content-length")) :
      Carries headers [] []

/-- A parser behind the start line of a message. -/
structure AtHeaders (q : Parser) : Prop where
  state : q.state = .sHeaderFieldStart
  major : q.httpMajor = 1
  flags : q.flags = .zero
  length : q.contentLength = ullongMax
  ok : q.httpErrno = .hpeOk

variable {strict : Bool} {q₀ q q' : Parser} {line : Bytes} {cs : List Callback}
  {headers : List (Bytes × Bytes)}

/-- What the headers leave of a parser that was at them. -/
structure BehindHeaders (headers : List (Bytes × Bytes)) (q q' : Parser) : Prop where
  state : q'.state = .sHeaderFieldStart
  untrailed : q'.flags.fTrailing = false
  read : q'.flags.fSkipbody = false
  ok : q'.httpErrno = .hpeOk
  type : q'.type = q.type
  method : q'.method = q.method
  major : q'.httpMajor = q.httpMajor
  minor : q'.httpMinor = q.httpMinor
  code : q'.statusCode = q.statusCode
  chunked : q'.flags.fChunked ↔ SaysChunked headers
  sized : ∀ length, SaysLength headers length → q'.contentLength = length
  flagged : q'.flags.fContentlength → Names headers (literal "content-length")
  unsized : ¬ Names headers (literal "content-length") → q'.contentLength = ullongMax
  upgrade : ¬ Names headers (literal "upgrade") → q'.flags.fUpgrade = false
  connection : (∀ p ∈ headers, ¬ IsConnection p.1) → q'.flags.connection = (false, false)

/-- What the headers say of the body is what the parser knows behind them. -/
theorem HeadersEffect.behind (effect : HeadersEffect headers q q') (at_ : AtHeaders q) :
    BehindHeaders headers q q' := by
  obtain ⟨h, index, nread, length, flags, same⟩ : ∃ h i n l f, q' = { q with
      headerState := h, index := i, nread := n, contentLength := l, flags := f } :=
    ⟨_, _, _, _, _, effect.same⟩
  constructor
  · rw [same]
    exact at_.state
  · rw [effect.trailing, at_.flags]
    rfl
  · rw [effect.skipBody, at_.flags]
    rfl
  · rw [same]
    exact at_.ok
  · rw [same]
  · rw [same]
  · rw [same]
  · rw [same]
  · rw [same]
  · rw [effect.chunked, at_.flags]
    exact ⟨fun either => either.resolve_left Bool.false_ne_true, .inr⟩
  · exact fun length given => (effect.sized length given).2
  · intro set
    by_contra absent
    rw [(effect.unsized absent).1, at_.flags] at set
    cases set
  · exact fun absent => (effect.unsized absent).2.trans at_.length
  · intro absent
    cases set : q'.flags.fUpgrade with
    | false => rfl
    | true =>
      rcases effect.upgrade set with before | named
      · rw [at_.flags] at before
        cases before
      · exact absurd named absent
  · intro plain
    rw [effect.connection plain, at_.flags]
    rfl

/-- The headers of a message, up to the empty line. -/
theorem headers_arrive {answer : Nat} (taken : Takes strict answer (.start q₀) line (.clear q cs))
    (at_ : AtHeaders q) (sent : SentHeaders headers)
    (short : q.nread + (headers.flatMap headerLine).length ≤ httpMaxHeaderSize) :
    ∃ r' q', Takes strict answer (.start q₀) (line ++ headers.flatMap headerLine) r' ∧
      AtLine strict answer r' q' (cs ++ headers.flatMap headerReports) ∧
      BehindHeaders headers q q' ∧ q'.nread = q.nread + (headers.flatMap headerLine).length := by
  have unflagged : Names headers (literal "content-length") → q.flags.fContentlength = false := by
    intro _
    rw [at_.flags]
    rfl
  obtain ⟨r', q', lines, atLine, effect, nread⟩ :=
    AtLine.block (.start at_.state) sent unflagged short
  exact ⟨r', q', taken.trans lines, atLine, effect.behind at_, nread⟩

/-- A length that can be sent is no `ULLONG_MAX`. -/
theorem SentHeaders.length_small (sent : SentHeaders headers) {length : Nat}
    (given : SaysLength headers length) : length < ullongMax := by
  obtain ⟨p, inside, named, rfl⟩ := given
  obtain ⟨-, -, small⟩ := (sent.sent p inside).number named
  have limit : lengthLimit < ullongMax := by decide
  exact lt_of_le_of_lt small limit

section
variable (behind : BehindHeaders headers q q')
  (method : q.method ≠ .httpConnect) (plain : ¬ Names headers (literal "upgrade"))
include behind method plain

theorem BehindHeaders.kept (skips : Bool) : (q'.headed skips).upgrade = false := by
  have other : decide (q'.method = .httpConnect) = false := by
    rw [behind.method]
    exact decide_eq_false method
  show (q'.flags.fUpgrade && q'.flags.fConnectionUpgrade || decide (q'.method = .httpConnect)) =
    false
  rw [behind.upgrade plain, other]
  rfl

end

def messageHead (line : Bytes) (headers : List (Bytes × Bytes)) : Bytes :=
  line ++ headers.flatMap headerLine ++ literal "\r\n"

section
variable {skips : Bool} (taken : Takes strict (answerOf skips) (.start q₀) line (.clear q cs))
  (at_ : AtHeaders q) (sent : SentHeaders headers)
  (framed : ¬ (SaysChunked headers ∧ Names headers (literal "content-length")))
  (short : q.nread + (headers.flatMap headerLine).length + 2 ≤ httpMaxHeaderSize)
include taken at_ sent framed short

/-- The head of a message, up to what `s_headers_done` goes on with. -/
theorem head_ends : ∃ q', BehindHeaders headers q q' ∧
    (∀ q'' cs', sHeadersDone strict (.clear (q'.headed skips)
        (cs ++ headers.flatMap headerReports ++ [.onHeadersComplete q'.startLine])) lf =
        .next (.clear q'' cs') 0 →
      Takes strict (answerOf skips) (.start q₀) (messageHead line headers) (.clear q'' cs')) ∧
    ∀ r' rest, sHeadersDone strict (.clear (q'.headed skips)
        (cs ++ headers.flatMap headerReports ++ [.onHeadersComplete q'.startLine])) lf =
        .leave r' 0 →
      loop strict (answerOf skips) 0 (.start q₀) (messageHead line headers ++ rest) =
        .returned r' rest.length := by
  obtain ⟨r', q', lines, atLine, behind, nread⟩ := headers_arrive taken at_ sent (by omega)
  have single : ¬ (q'.flags.fChunked ∧ q'.flags.fContentlength) := by
    rintro ⟨chunked, sized⟩
    exact framed ⟨behind.chunked.mp chunked, behind.flagged sized⟩
  refine ⟨q', behind, fun q'' cs' done => lines.trans ?_, fun r'' rest done => ?_⟩
  · exact atLine.ends behind.untrailed single (by omega) done
  · rw [messageHead, List.append_assoc, lines]
    exact atLine.leaves behind.untrailed single (by omega) done rest

end

/-- The head of a message, up to where its body begins. -/
theorem head_arrives (taken : Takes strict 0 (.start q₀) line (.clear q cs)) (at_ : AtHeaders q)
    (noTunnel : q.method ≠ .httpConnect) (sent : SentHeaders headers)
    (plain : ¬ Names headers (literal "upgrade"))
    (short : q.nread + (headers.flatMap headerLine).length + 2 ≤ httpMaxHeaderSize)
    (framed : ¬ (SaysChunked headers ∧ Names headers (literal "content-length"))) :
    ∃ q', BehindHeaders headers q q' ∧ ∀ q'' cs', bodyBegins strict (q'.headed false)
        (cs ++ headers.flatMap headerReports ++ [.onHeadersComplete q'.startLine]) =
          .clear q'' cs' →
      Takes strict 0 (.start q₀) (messageHead line headers) (.clear q'' cs') := by
  have taken : Takes strict (answerOf false) (.start q₀) line (.clear q cs) := taken
  obtain ⟨q', behind, next, -⟩ := head_ends taken at_ sent framed short
  refine ⟨q', behind, fun q'' cs' begins => next q'' cs' ?_⟩
  rw [headers_done_body (behind.kept noTunnel plain false) behind.read]
  exact congrArg (Step.next · 0) begins

/-- A buffer behind which nothing is open. -/
theorem execute_taken {answer : Nat} {data : Bytes} (ok : q₀.httpErrno = .hpeOk)
    (some_data : data ≠ []) (taken : Takes strict answer (.start q₀) data (.clear q cs)) :
    httpParserExecute strict answer q₀ data = some (q, ⟨cs, data.length⟩) := by
  have ended : loop strict answer 0 (.start q₀) data = .finished (.clear q cs) := by
    have all := taken []
    rw [List.append_nil] at all
    exact all
  have finish : (Run.clear q cs).finish = some (.clear q cs) := finish_none fun _ => rfl
  unfold httpParserExecute
  rw [if_neg (not_not.mpr ok), if_neg some_data, ended]
  dsimp only
  rw [finish]
  rfl

theorem feed_taken {answer : Nat} {data : Bytes} (ok : q₀.httpErrno = .hpeOk)
    (some_data : data ≠ [])
    (taken : Takes strict answer (.start q₀) data (.clear q cs)) :
    feed strict q₀ [(data, answer)] = some (q, cs) := by
  simp only [feed, execute_taken ok some_data taken, Option.bind_eq_bind, Option.bind_some,
    List.append_nil]

/-- Where a message leaves the parser: where the next one starts, or in strict mode at `s_dead` when
the connection does not stay open. Without a header for it, the version says whether it does. -/
structure AtNext (strict : Bool) (headers : List (Bytes × Bytes)) (q q' : Parser) : Prop where
  state : q'.state = if strict ∧ httpShouldKeepAlive q' = false then .sDead else startState q
  byVersion : (∀ p ∈ headers, ¬ IsConnection p.1) →
    q'.state = if strict ∧ q.httpMinor = 0 then .sDead else startState q

theorem newMessage_eq (strict : Bool) (q : Parser) : newMessage strict q =
    if strict ∧ httpShouldKeepAlive q = false then .sDead else startState q := by
  unfold newMessage
  cases strict <;> cases httpShouldKeepAlive q <;> rfl

theorem startState_alive (q : Parser) : startState q ≠ .sDead := by
  unfold startState
  split <;> decide

/-- Without a header for it, the connection of a message that does not need the end of the stream
stays open when the version is not 1.0. -/
theorem BehindHeaders.keeps (behind : BehindHeaders headers q q') (major : q.httpMajor = 1)
    {p : Parser} {skips : Bool} {n : Nat} {s : State}
    (here : p = { q'.headed skips with nread := n, state := s })
    (needless : httpMessageNeedsEof p = false) (plain : ∀ p ∈ headers, ¬ IsConnection p.1) :
    httpShouldKeepAlive p = decide (q.httpMinor ≠ 0) := by
  have flags : p.flags.connection = (false, false) := by
    rw [here]
    exact behind.connection plain
  obtain ⟨close, keep⟩ := Prod.mk.inj flags
  have major : p.httpMajor = 1 := by
    rw [here]
    exact behind.major.trans major
  have minor : p.httpMinor = q.httpMinor := by
    rw [here]
    exact behind.minor
  unfold httpShouldKeepAlive
  rw [major, minor, close, keep, needless]
  by_cases old : q.httpMinor = 0
  · simp [old]
  · simp [old, Nat.pos_of_ne_zero old]

/-- A message leaves the parser where `NEW_MESSAGE` of the parser in front of its body is. -/
theorem BehindHeaders.next (behind : BehindHeaders headers q q') (major : q.httpMajor = 1)
    {p q₁ : Parser} {skips : Bool} {n : Nat} {s : State}
    (here : p = { q'.headed skips with nread := n, state := s })
    (needless : httpMessageNeedsEof p = false) (state : q₁.state = newMessage strict p)
    (next : newMessage strict q₁ = newMessage strict p) : AtNext strict headers q q₁ := by
  have start : startState p = startState q := by
    rw [here]
    unfold startState
    rw [← behind.type]
    rfl
  have leads := newMessage_eq strict p
  rw [start] at leads
  refine ⟨?_, fun plain => ?_⟩
  · rw [newMessage_eq, leads] at next
    rw [state, leads]
    split_ifs at next ⊢
    · rfl
    · exact absurd next (startState_alive q₁)
    · exact next.symm
    · rfl
  · rw [state, leads, behind.keeps major here needless plain]
    simp

/-- What is known of the start line when the headers are complete. -/
structure Knows (q : Parser) (headers : List (Bytes × Bytes)) (start : StartLine) : Prop where
  method : start.method = methodStrings q.method
  code : start.statusCode = q.statusCode
  major : start.httpMajor = q.httpMajor
  minor : start.httpMinor = q.httpMinor
  chunked : start.chunked ↔ SaysChunked headers

theorem BehindHeaders.knows (behind : BehindHeaders headers q q') :
    Knows q headers q'.startLine where
  method := congrArg methodStrings behind.method
  code := behind.code
  major := behind.major
  minor := behind.minor
  chunked := behind.chunked

/-- A message that was reported whole, and the parser behind it. -/
structure Reported (strict : Bool) (q : Parser) (cs : List Callback)
    (headers : List (Bytes × Bytes)) (body : Bytes) (q' : Parser) (callbacks : List Callback) :
    Prop where
  reports : ∃ start bodies, Knows q headers start ∧ bodies.flatten = body ∧
    callbacks = cs ++ headers.flatMap headerReports ++ [.onHeadersComplete start] ++
      List.map .onBody bodies ++ [.onMessageComplete]
  next : AtNext strict headers q q'
  ok : q'.httpErrno = .hpeOk

/-- A message whose body is awaited as the bytes behind its headers. -/
theorem body_arrives {first body : Bytes} {buffers : List (Bytes × Nat)}
    {Awaits : Parser → Bytes → Bytes → Prop} {q' q'' : Parser}
    {s : State} (ok : q₀.httpErrno = .hpeOk) (some_line : line ≠ []) (major : q.httpMajor = 1)
    (rule : BodyRule strict (newMessage strict q'') Awaits) (behind : BehindHeaders headers q q')
    (head : Takes strict 0 (.start q₀) (messageHead line headers) (.clear q''
      (cs ++ headers.flatMap headerReports ++ [.onHeadersComplete q'.startLine])))
    (some_ : ∀ buffer ∈ buffers, buffer.1 ≠ [])
    (here : q'' = { q'.headed false with nread := 0, state := s })
    (needless : httpMessageNeedsEof q'' = false)
    (awaits : Awaits q'' (first ++ (buffers.map (·.1)).flatten) body) :
    ∃ q₁ callbacks, feed strict q₀ ((messageHead line headers ++ first, 0) :: buffers) =
      some (q₁, callbacks) ∧ Reported strict q cs headers body q₁ callbacks := by
  have some_data : messageHead line headers ++ first ≠ [] := by
    simp [messageHead, some_line]
  obtain ⟨q₁, bodies, fed, all, state, next, ok₁⟩ :=
    rule.feed_behind ok some_data (fun _ => rfl) rfl 0 buffers (head first) some_ awaits
  exact ⟨q₁, _, fed, ⟨q'.startLine, bodies, behind.knows, all, rfl⟩,
    behind.next major here needless state next, ok₁⟩

theorem Carries.framed {stream body : Bytes} (carries : Carries headers stream body) :
    ¬ (SaysChunked headers ∧ Names headers (literal "content-length")) := by
  rintro ⟨chunked, sized⟩
  cases carries with
  | chunked _ unsized => exact unsized sized
  | sized plain => exact plain chunked
  | nothing plain => exact plain chunked

/-- A length, or chunks, say where a message ends. -/
theorem needs_eof_framed {q : Parser} (framed : q.flags.fChunked ∨ q.contentLength ≠ ullongMax) :
    httpMessageNeedsEof q = false := by
  unfold httpMessageNeedsEof
  rw [if_pos framed]
  split_ifs <;> rfl

section
variable {p : Parser} (plain : ¬ p.flags.fChunked) (unsized : p.contentLength = ullongMax)
  (cs' : List Callback)
include plain unsized

/-- Without chunks and a length, `http_message_needs_eof` decides. -/
theorem bodyBegins_unframed : bodyBegins strict p cs' =
    if !httpMessageNeedsEof p then
      .clear { p with nread := 0, state := newMessage strict { p with nread := 0 } }
        (cs' ++ [.onMessageComplete])
    else .clear { p with nread := 0, state := .sBodyIdentityEof } cs' := by
  have some_left : p.contentLength ≠ 0 := by
    rw [unsized]
    decide
  exact (if_neg plain).trans ((if_neg some_left).trans (if_neg (not_not.mpr unsized)))

theorem bodyBegins_over (needless : httpMessageNeedsEof p = false) : bodyBegins strict p cs' =
    .clear { p with nread := 0, state := newMessage strict { p with nread := 0 } }
      (cs' ++ [.onMessageComplete]) := by
  rw [bodyBegins_unframed plain unsized, needless]
  rfl

theorem bodyBegins_lasts (needs : httpMessageNeedsEof p = true) : bodyBegins strict p cs' =
    .clear { p with nread := 0, state := .sBodyIdentityEof } cs' := by
  rw [bodyBegins_unframed plain unsized, needs]
  rfl

end

/-- What a parser behind the headers goes on with. -/
theorem Carries.begins {stream body : Bytes} (carries : Carries headers stream body)
    (sent : SentHeaders headers) (behind : BehindHeaders headers q q')
    (ends : Names headers (literal "content-length") ∨ SaysChunked headers ∨ q.type = .httpRequest)
    (cs' : List Callback) :
    (stream = [] ∧ body = [] ∧ bodyBegins strict (q'.headed false) cs' =
      .clear { q'.headed false with
        nread := 0, state := newMessage strict { q'.headed false with nread := 0 } }
        (cs' ++ [.onMessageComplete]) ∧ httpMessageNeedsEof (q'.headed false) = false) ∨
    (stream ≠ [] ∧ ∃ q'' s, bodyBegins strict (q'.headed false) cs' = .clear q'' cs' ∧
      q'' = { q'.headed false with nread := 0, state := s } ∧
      httpMessageNeedsEof q'' = false ∧
      (AwaitsChunks strict (newMessage strict q'') q'' stream body ∨
        AwaitsBytes strict (newMessage strict q'') q'' stream body)) := by
  cases carries with
  | chunked encoded unsized coded small =>
    have chunked : (q'.headed false).flags.fChunked := behind.chunked.mpr encoded
    let q'' : Parser := { q'.headed false with nread := 0, state := .sChunkSizeStart }
    have awaits : AwaitsChunks strict (newMessage strict q'') q'' stream body :=
      ⟨chunked, behind.ok, rfl, small, .start rfl rfl coded⟩
    have needless : httpMessageNeedsEof q'' = false :=
      needs_eof_framed (.inl chunked)
    exact .inr ⟨(chunkRule strict _).some_ awaits, q'', _, if_pos chunked, rfl, needless,
      .inl awaits⟩
  | sized plain length =>
    have chunked : ¬ (q'.headed false).flags.fChunked := mt behind.chunked.mp plain
    have sized : (q'.headed false).contentLength = stream.length := behind.sized _ length
    by_cases none_left : stream = []
    · subst none_left
      have zero : (q'.headed false).contentLength ≠ ullongMax := by
        rw [sized]
        decide
      exact .inl ⟨rfl, rfl, (if_neg chunked).trans (if_pos sized), needs_eof_framed (.inr zero)⟩
    · have small := sent.length_small length
      have some_left : (q'.headed false).contentLength ≠ 0 := by
        rw [sized]
        exact fun zero => none_left (List.length_eq_zero_iff.mp zero)
      have known : (q'.headed false).contentLength ≠ ullongMax := by
        rw [sized]
        exact small.ne
      let q'' : Parser := { q'.headed false with nread := 0, state := .sBodyIdentity }
      have awaits : AwaitsBytes strict (newMessage strict q'') q'' stream stream :=
        ⟨rfl, behind.ok, rfl, sized, none_left, small, rfl⟩
      exact .inr ⟨none_left, q'', _,
        (if_neg chunked).trans ((if_neg some_left).trans (if_pos known)), rfl,
        needs_eof_framed (.inr known), .inr awaits⟩
  | nothing plain unsized =>
    have chunked : ¬ (q'.headed false).flags.fChunked := mt behind.chunked.mp plain
    have unknown : (q'.headed false).contentLength = ullongMax := behind.unsized unsized
    have request : (q'.headed false).type = .httpRequest :=
      behind.type.trans ((ends.resolve_left unsized).resolve_left plain)
    have needless : httpMessageNeedsEof (q'.headed false) = false := if_pos request
    exact .inl ⟨rfl, rfl, bodyBegins_over chunked unknown cs' needless, needless⟩

section
variable (ok : q₀.httpErrno = .hpeOk) (some_line : line ≠ [])
  (taken : Takes strict 0 (.start q₀) line (.clear q cs)) (at_ : AtHeaders q)
  (noTunnel : q.method ≠ .httpConnect) (sent : SentHeaders headers)
  (plain : ¬ Names headers (literal "upgrade"))
  (short : q.nread + (headers.flatMap headerLine).length + 2 ≤ httpMaxHeaderSize)
include ok some_line taken at_ noTunnel sent plain short

/-- A message whose headers say how its body is coded. -/
theorem carried_arrives {stream body first : Bytes} {buffers : List (Bytes × Nat)}
    (carries : Carries headers stream body)
    (ends : Names headers (literal "content-length") ∨ SaysChunked headers ∨ q.type = .httpRequest)
    (some_ : ∀ buffer ∈ buffers, buffer.1 ≠ [])
    (cut : first ++ (buffers.map (·.1)).flatten = stream) :
    ∃ q₁ callbacks, feed strict q₀ ((messageHead line headers ++ first, 0) :: buffers) =
      some (q₁, callbacks) ∧ Reported strict q cs headers body q₁ callbacks := by
  have nothing_more : first ++ (buffers.map (·.1)).flatten = [] →
      (messageHead line headers ++ first, 0) :: buffers = [(messageHead line headers, 0)] := by
    intro none_left
    obtain ⟨rfl, unread⟩ := List.append_eq_nil_iff.mp none_left
    cases buffers with
    | nil => rw [List.append_nil]
    | cons buffer later =>
      have none_here : buffer.1 = [] := (List.append_eq_nil_iff.mp unread).1
      exact absurd none_here (some_ buffer List.mem_cons_self)
  obtain ⟨q', behind, head⟩ := head_arrives taken at_ noTunnel sent plain short carries.framed
  rcases carries.begins sent behind ends
    (cs ++ headers.flatMap headerReports ++ [.onHeadersComplete q'.startLine]) with
    ⟨rfl, rfl, begins, needless⟩ | ⟨-, q'', s, begins, here, needless, chunks | bytes⟩
  · have some_data : messageHead line headers ≠ [] := by
      simp [messageHead, some_line]
    let p : Parser := { q'.headed false with nread := 0 }
    have next : AtNext strict headers q { p with state := newMessage strict p } :=
      behind.next at_.major (p := p) rfl needless rfl rfl
    rw [nothing_more cut]
    refine ⟨_, _, feed_taken ok some_data (head _ _ begins),
      ⟨q'.startLine, [], behind.knows, rfl, ?_⟩,
      next, behind.ok⟩
    rw [List.map_nil, List.append_nil]
  · rw [← cut] at chunks
    exact body_arrives ok some_line at_.major (chunkRule strict _) behind
      (head _ _ begins) some_ here
      needless chunks
  · rw [← cut] at bytes
    exact body_arrives ok some_line at_.major (sizedRule strict _) behind
      (head _ _ begins) some_ here
      needless bytes

end

end HttpLib
