import Tigerso.HeaderLines

/-!
# The headers of a message

Over header lines that can be sent, and over the empty line behind them, the parser reports the
headers in their order, and the framing of the body is what they say.
-/

open SystemCalls

namespace HttpLib

/-- Headers that can be sent: each name is given once. -/
structure SentHeaders (headers : List (Bytes × Bytes)) : Prop where
  sent : ∀ p ∈ headers, SentHeader p.1 p.2
  distinct : headers.Pairwise fun p p' => p.1.map tokens ≠ p'.1.map tokens

def headerLine (p : Bytes × Bytes) : Bytes := p.1 ++ literal ": " ++ p.2 ++ literal "\r\n"

def headerReports (p : Bytes × Bytes) : List Callback := [.onHeaderField p.1, .onHeaderValue p.2]

/-- One of the headers has this name, in any case of the letters. -/
def Names (headers : List (Bytes × Bytes)) (name : Bytes) : Prop :=
  ∃ p ∈ headers, p.1.map tokens = name

/-- One of the headers says that the body is chunked. -/
def SaysChunked (headers : List (Bytes × Bytes)) : Prop :=
  ∃ p ∈ headers, p.1.map tokens = literal "transfer-encoding" ∧ IsChunked p.2

/-- One of the headers gives the length of the body. -/
def SaysLength (headers : List (Bytes × Bytes)) (length : Nat) : Prop :=
  ∃ p ∈ headers, p.1.map tokens = literal "content-length" ∧ decimalFrom 0 p.2 = length

/-- What the header lines do to the parser. -/
structure HeadersEffect (headers : List (Bytes × Bytes)) (q q' : Parser) : Prop where
  same : q' = { q with
    headerState := q'.headerState, index := q'.index, nread := q'.nread
    contentLength := q'.contentLength, flags := q'.flags }
  trailing : q'.flags.fTrailing = q.flags.fTrailing
  skipBody : q'.flags.fSkipbody = q.flags.fSkipbody
  chunked : q'.flags.fChunked ↔ q.flags.fChunked ∨ SaysChunked headers
  sized : ∀ length, SaysLength headers length →
    q'.flags.fContentlength ∧ q'.contentLength = length
  unsized : ¬ Names headers (literal "content-length") →
    q'.flags.fContentlength = q.flags.fContentlength ∧ q'.contentLength = q.contentLength
  upgrade : q'.flags.fUpgrade → q.flags.fUpgrade ∨ Names headers (literal "upgrade")
  connection : (∀ p ∈ headers, ¬ IsConnection p.1) → q'.flags.connection = q.flags.connection

variable {strict : Bool} {answer : Nat} {r : Run} {q q' q'' : Parser} {cs : List Callback}
  {p : Bytes × Bytes} {headers : List (Bytes × Bytes)}

theorem Names.cons {name : Bytes} :
    Names (p :: headers) name ↔ p.1.map tokens = name ∨ Names headers name := by
  simp [Names]

theorem SaysChunked.cons : SaysChunked (p :: headers) ↔
    (p.1.map tokens = literal "transfer-encoding" ∧ IsChunked p.2) ∨ SaysChunked headers := by
  simp [SaysChunked]

theorem HeadersEffect.nil (q : Parser) : HeadersEffect [] q q where
  same := rfl
  trailing := rfl
  skipBody := rfl
  chunked := by simp [SaysChunked]
  sized length given := by
    obtain ⟨p, inside, -⟩ := given
    cases inside
  unsized _ := ⟨rfl, rfl⟩
  upgrade := .inl
  connection _ := rfl

/-- One header, and then the others. -/
theorem HeadersEffect.cons (first : HeaderEffect p.1 p.2 q q')
    (others : HeadersEffect headers q' q'')
    (distinct : ∀ p' ∈ headers, p.1.map tokens ≠ p'.1.map tokens) :
    HeadersEffect (p :: headers) q q'' where
  same := by
    have same := others.same
    rw [first.same] at same
    exact same
  trailing := others.trailing.trans first.trailing
  skipBody := others.skipBody.trans first.skipBody
  chunked := by
    rw [others.chunked, first.chunked, SaysChunked.cons, or_assoc]
  sized := by
    rintro length ⟨p', inside, named, spelled⟩
    rcases List.mem_cons.mp inside with rfl | later
    · have alone : ¬ Names headers (literal "content-length") := by
        rintro ⟨p, there, same⟩
        exact distinct p there (named.trans same.symm)
      obtain ⟨flag, kept⟩ := others.unsized alone
      obtain ⟨set, number⟩ := first.sized named
      exact ⟨flag.trans set, kept.trans (number.trans spelled)⟩
    · exact others.sized length ⟨p', later, named, spelled⟩
  unsized absent := by
    rw [Names.cons, not_or] at absent
    obtain ⟨flag, kept⟩ := others.unsized absent.2
    obtain ⟨flag', kept'⟩ := first.unsized absent.1
    exact ⟨flag.trans flag', kept.trans kept'⟩
  upgrade set := by
    rw [Names.cons, ← or_assoc]
    exact (others.upgrade set).imp_left first.upgrade
  connection plain := by
    have later := others.connection fun p' inside => plain p' (List.mem_cons_of_mem _ inside)
    exact later.trans (first.connection (plain p List.mem_cons_self))

theorem SentHeaders.tail (sent : SentHeaders (p :: headers)) : SentHeaders headers :=
  ⟨fun p' inside => sent.sent p' (List.mem_cons_of_mem _ inside),
    (List.pairwise_cons.mp sent.distinct).2⟩

theorem headerLine_length (p : Bytes × Bytes) :
    (headerLine p).length = p.1.length + p.2.length + 4 := by
  have colon : (literal ": ").length = 2 := by decide
  have crlf : (literal "\r\n").length = 2 := by decide
  simp only [headerLine, List.length_append, colon, crlf]
  omega

/-- The header lines, one after the other. -/
theorem AtLine.block (atLine : AtLine strict answer r q cs) (sent : SentHeaders headers)
    (first : Names headers (literal "content-length") → q.flags.fContentlength = false)
    (short : q.nread + (headers.flatMap headerLine).length ≤ httpMaxHeaderSize) :
    ∃ r' q', Takes strict answer r (headers.flatMap headerLine) r' ∧
      AtLine strict answer r' q' (cs ++ headers.flatMap headerReports) ∧
        HeadersEffect headers q q' ∧
      q'.nread = q.nread + (headers.flatMap headerLine).length := by
  induction headers generalizing r q cs with
  | nil =>
    refine ⟨r, q, .nil, ?_, .nil q, rfl⟩
    rwa [List.flatMap_nil, List.append_nil]
  | cons p headers ih =>
    obtain ⟨name, value⟩ := p
    have line : (headerLine (name, value)).length = name.length + value.length + 4 :=
      headerLine_length _
    rw [List.flatMap_cons, List.length_append] at short ⊢
    have sent_here : SentHeader name value := sent.sent _ List.mem_cons_self
    have distinct := (List.pairwise_cons.mp sent.distinct).1
    obtain ⟨r₁, q₁, taken, atLine₁, effect, nread⟩ :=
      atLine.header sent_here (fun named => first (Names.cons.mpr (.inl named))) (by omega)
    have first_later : Names headers (literal "content-length") →
      q₁.flags.fContentlength = false := by
      rintro ⟨p', inside, named⟩
      have other : name.map tokens ≠ literal "content-length" := fun same =>
        distinct p' inside (same.trans named.symm)
      rw [(effect.unsized other).1]
      exact first (Names.cons.mpr (.inr ⟨p', inside, named⟩))
    obtain ⟨r', q', others, atLine', effects, nread'⟩ := ih atLine₁ sent.tail first_later (by omega)
    refine ⟨r', q', taken.trans others, ?_, effects.cons effect distinct, by omega⟩
    rwa [List.append_assoc] at atLine'

/-- The parser behind the headers of a message; `skips` when `on_headers_complete` returns 1. -/
def Parser.headed (q : Parser) (skips : Bool) : Parser :=
  { q with
    nread := q.nread + 2
    state := .sHeadersDone
    upgrade := (q.flags.fUpgrade && q.flags.fConnectionUpgrade) || decide (q.method = .httpConnect)
    flags := { q.flags with fSkipbody := skips || q.flags.fSkipbody } }

/-- What `on_headers_complete` returns. -/
def answerOf (skips : Bool) : Nat := if skips then 1 else 0

theorem almost_done (skips : Bool) (untrailed : q.flags.fTrailing = false)
    (framed : ¬ (q.flags.fChunked ∧ q.flags.fContentlength)) :
    sHeadersAlmostDone strict (answerOf skips)
        (.clear { q with nread := q.nread + 2, state := .sHeadersAlmostDone } cs) lf =
      sHeadersDone strict (.clear (q.headed skips)
        (cs ++ [.onHeadersComplete q.startLine])) lf := by
  have isLf : ¬ (strict = true ∧ lf ≠ lf) := fun both => both.2 rfl
  have trailing : ¬ (q.flags.fTrailing = true) := by
    rw [untrailed]
    exact Bool.false_ne_true
  unfold sHeadersAlmostDone
  refine (if_neg isLf).trans ((if_neg trailing).trans ((if_neg framed).trans ?_))
  cases skips <;> rfl

section
variable {skips : Bool} (atLine : AtLine strict (answerOf skips) r q cs)
  (untrailed : q.flags.fTrailing = false)
  (framed : ¬ (q.flags.fChunked ∧ q.flags.fContentlength)) (short : q.nread + 2 ≤ httpMaxHeaderSize)
include atLine short

/-- The CR of the empty line. -/
theorem AtLine.emptyLine : Takes strict (answerOf skips) r [cr]
    (.clear { q with nread := q.nread + 1, state := .sHeadersAlmostDone } cs) := by
  have less : q.nread < httpMaxHeaderSize := by omega
  have turned : ∀ rest, step strict (answerOf skips) r.counted cr ([] ++ rest) =
      .next (.clear { q with nread := q.nread + 1, state := .sHeadersAlmostDone } cs) 0 := by
    intro rest
    rw [atLine.turn less cr _ (by decide) (by decide)]
    exact if_pos rfl
  exact Takes.turn (fun _ => atLine.nread ▸ less) turned

include untrailed framed

/-- The empty line in front of a body, or of the next message. -/
theorem AtLine.ends {q' : Parser} {cs' : List Callback}
    (done : sHeadersDone strict (.clear (q.headed skips)
      (cs ++ [.onHeadersComplete q.startLine])) lf =
      .next (.clear q' cs') 0) : Takes strict (answerOf skips) r (literal "\r\n")
        (.clear q' cs') := by
  have less : q.nread + 1 < httpMaxHeaderSize := by omega
  have last : Takes strict (answerOf skips)
      (.clear { q with nread := q.nread + 1, state := .sHeadersAlmostDone } cs) [lf]
      (.clear q' cs') :=
    takes_clear rfl less fun rest => (almost_done skips untrailed framed).trans done
  have crlf : literal "\r\n" = [cr] ++ [lf] := by decide
  rw [crlf]
  exact (atLine.emptyLine short).trans last

/-- The empty line behind which the call returns. -/
theorem AtLine.leaves {r' : Run}
    (done : sHeadersDone strict (.clear (q.headed skips)
      (cs ++ [.onHeadersComplete q.startLine])) lf =
      .leave r' 0) (rest : Bytes) :
    loop strict (answerOf skips) 0 r (literal "\r\n" ++ rest) = .returned r' rest.length := by
  have less : q.nread + 1 < httpMaxHeaderSize := by omega
  let q₁ : Parser := { q with nread := q.nread + 1, state := .sHeadersAlmostDone }
  have counted : (Run.clear q₁ cs).counted = .clear { q₁ with nread := q₁.nread + 1 } cs :=
    Run.counted_head rfl less
  have turned : step strict (answerOf skips) (Run.clear q₁ cs).counted lf rest = .leave r' 0 := by
    rw [counted]
    exact (almost_done skips untrailed framed).trans done
  have fits : ¬ (parsingHeader (Run.clear q₁ cs).parser.state ∧
      (Run.clear q₁ cs).counted.parser.nread > httpMaxHeaderSize) := by
    rw [counted]
    rintro ⟨-, long⟩
    have long : q.nread + 1 + 1 > httpMaxHeaderSize := long
    omega
  have crlf : literal "\r\n" = [cr] ++ [lf] := by decide
  rw [crlf, List.append_assoc, atLine.emptyLine short]
  show loop strict (answerOf skips) 0 (.clear q₁ cs) (lf :: rest) = _
  rw [loop_cons, if_neg fits, turned]
  rfl

end

/-- Without an upgrade, a body that is to be skipped is not there. -/
theorem headers_done_skipped (kept : q.upgrade = false) (skips : q.flags.fSkipbody) :
    sHeadersDone strict (.clear q cs) lf =
      .next (.clear { q with nread := 0, state := newMessage strict { q with nread := 0 } }
        (cs ++ [.onMessageComplete])) 0 := by
  have isLf : ¬ (strict = true ∧ lf ≠ lf) := fun both => both.2 rfl
  have upgrade : ¬ (q.upgrade = true) := by
    rw [kept]
    exact Bool.false_ne_true
  unfold sHeadersDone
  exact (if_neg isLf).trans ((if_neg fun both => upgrade both.1).trans (if_pos skips))

/-- Behind the headers of a tunnel the call returns. -/
theorem headers_done_tunnel (upgrade : q.upgrade = true) (tunnel : q.method = .httpConnect) :
    sHeadersDone strict (.clear q cs) lf =
      .leave (.clear { q with nread := 0, state := newMessage strict { q with nread := 0 } }
        (cs ++ [.onMessageComplete])) 0 := by
  have isLf : ¬ (strict = true ∧ lf ≠ lf) := fun both => both.2 rfl
  unfold sHeadersDone
  exact (if_neg isLf).trans (if_pos ⟨upgrade, .inl tunnel⟩)

/-- Where the end of the headers leads when no upgrade and no body is to be skipped. -/
def bodyBegins (strict : Bool) (q : Parser) (cs : List Callback) : Run :=
  let completed : Run :=
    .clear { q with nread := 0, state := newMessage strict { q with nread := 0 } }
    (cs ++ [.onMessageComplete])
  if q.flags.fChunked then .clear { q with nread := 0, state := .sChunkSizeStart } cs
  else if q.contentLength = 0 then completed
  else if q.contentLength ≠ ullongMax then
    .clear { q with nread := 0, state := .sBodyIdentity } cs
  else if !httpMessageNeedsEof q then completed
  else .clear { q with nread := 0, state := .sBodyIdentityEof } cs

theorem headers_done_body (kept : q.upgrade = false) (read : q.flags.fSkipbody = false) :
    sHeadersDone strict (.clear q cs) lf = .next (bodyBegins strict q cs) 0 := by
  have isLf : ¬ (strict = true ∧ lf ≠ lf) := fun both => both.2 rfl
  have upgrade : ¬ (q.upgrade = true) := by
    rw [kept]
    exact Bool.false_ne_true
  have skip : ¬ (q.flags.fSkipbody = true) := by
    rw [read]
    exact Bool.false_ne_true
  unfold sHeadersDone
  refine (if_neg isLf).trans ((if_neg fun both => upgrade both.1).trans ((if_neg skip).trans ?_))
  unfold bodyBegins
  split_ifs <;> first | rfl | contradiction

end HttpLib
