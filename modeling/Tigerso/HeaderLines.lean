import Tigerso.TakenBytes
import Tigerso.HeaderValues

/-!
# A header line

Over a name, a colon, a space, a value and CRLF the parser reports the name and the value, and keeps
of the header what its framing needs.
-/

open SystemCalls

namespace HttpLib

/-- The names whose values say whether the connection stays open. -/
def IsConnection (name : Bytes) : Prop :=
  name.map tokens = literal "connection" ∨ name.map tokens = literal "proxy-connection"

/-- What a header line does to the parser. -/
structure HeaderEffect (name value : Bytes) (q q' : Parser) : Prop where
  same : q' = { q with
    headerState := q'.headerState, index := q'.index, nread := q'.nread
    contentLength := q'.contentLength, flags := q'.flags }
  trailing : q'.flags.fTrailing = q.flags.fTrailing
  skipBody : q'.flags.fSkipbody = q.flags.fSkipbody
  chunked : q'.flags.fChunked ↔
    q.flags.fChunked ∨ name.map tokens = literal "transfer-encoding" ∧ IsChunked value
  sized : name.map tokens = literal "content-length" →
    q'.flags.fContentlength ∧ q'.contentLength = decimalFrom 0 value
  unsized : name.map tokens ≠ literal "content-length" →
    q'.flags.fContentlength = q.flags.fContentlength ∧ q'.contentLength = q.contentLength
  upgrade : q'.flags.fUpgrade → q.flags.fUpgrade ∨ name.map tokens = literal "upgrade"
  connection : ¬ IsConnection name → q'.flags.connection = q.flags.connection

/-- A header that can be sent: the value does not begin with a space, and a length is a number. -/
structure SentHeader (name value : Bytes) : Prop where
  some_name : name ≠ []
  isName : IsName name
  isValue : IsValue value
  begins : ∀ c rest, value = c :: rest → c ≠ sp ∧ c ≠ ht
  number : name.map tokens = literal "content-length" →
    value ≠ [] ∧ (∀ c ∈ value, isNum c) ∧ decimalFrom 0 value ≤ lengthLimit

variable (strict : Bool) (answer : Nat)

/-- A run that is at the start of a line, where `q` is what the parser is without the line before:
that one may have to be settled first. -/
structure AtLine (r : Run) (q : Parser) (cs : List Callback) : Prop where
  state : q.state = .sHeaderFieldStart
  head : parsingHeader r.parser.state
  nread : r.parser.nread = q.nread
  turn : q.nread < httpMaxHeaderSize → ∀ ch rest, ch ≠ sp → ch ≠ ht →
    step strict answer r.counted ch rest =
      sHeaderFieldStart strict answer (.clear { q with nread := q.nread + 1 } cs) ch

variable {strict answer} {r : Run} {q : Parser} {cs : List Callback} {name value : Bytes}

/-- The turn of a run without marks. -/
theorem step_clear (head : parsingHeader q.state) (short : q.nread < httpMaxHeaderSize) (ch : Byte)
    (rest : Bytes) :
    step strict answer (Run.clear q cs).counted ch rest =
      step strict answer (.clear { q with nread := q.nread + 1 } cs) ch rest := by
  have counted : (Run.clear q cs).counted = .clear { q with nread := q.nread + 1 } cs :=
    Run.counted_head head short
  rw [counted]

/-- A turn over one byte, without marks before and after it. -/
theorem takes_clear {q' : Parser} {cs' : List Callback} {ch : Byte} (head : parsingHeader q.state)
    (short : q.nread < httpMaxHeaderSize)
    (turned : ∀ rest, step strict answer (.clear { q with nread := q.nread + 1 } cs) ch rest =
      .next (.clear q' cs') 0) : Takes strict answer (.clear q cs) [ch] (.clear q' cs') := by
  have taken : Takes strict answer (.clear q cs) [ch] ((Run.clear q' cs').advance [ch]) :=
    Takes.turn (fun _ => short) fun rest => (step_clear head short ch _).trans (turned _)
  rwa [Run.clear_advance] at taken

namespace AtLine

theorem start (at_ : q.state = .sHeaderFieldStart) :
    AtLine strict answer (.clear q cs) q cs where
  state := at_
  head := by
    show parsingHeader q.state
    rw [at_]
    rfl
  nread := rfl
  turn short ch rest _ _ := by
    rw [step_clear (by rw [at_]; rfl) short]
    cases q
    cases at_
    rfl

/-- The line before is settled by the first byte of the next one. -/
theorem behindValue (at_ : q.state = .sHeaderValueLws) :
    AtLine strict answer (.clear q cs)
      { q with flags := q.flags.found q.headerState, state := .sHeaderFieldStart } cs where
  state := rfl
  head := by
    show parsingHeader q.state
    rw [at_]
    rfl
  nread := rfl
  turn short ch rest space tab := by
    have short : q.nread < httpMaxHeaderSize := short
    rw [step_clear (by rw [at_]; rfl) short]
    cases q
    cases at_
    exact if_neg (not_or.mpr ⟨space, tab⟩)

/-- An empty value is reported by the first byte of the next line. -/
theorem behindNothing (at_ : q.state = .sHeaderValueDiscardLws) :
    AtLine strict answer (.clear q cs)
      { q with flags := q.flags.found q.headerState, state := .sHeaderFieldStart }
      (cs ++ [.onHeaderValue []]) where
  state := rfl
  head := by
    show parsingHeader q.state
    rw [at_]
    rfl
  nread := rfl
  turn short ch rest space tab := by
    have reported : ∀ q : Parser, (Run.marking q .headerValue [] cs).callbackData .headerValue =
        .clear q (cs ++ [.onHeaderValue []]) := fun q => Run.marking_CALLBACK
    have short : q.nread < httpMaxHeaderSize := short
    rw [step_clear (by rw [at_]; rfl) short]
    cases q
    cases at_
    refine (if_neg (not_or.mpr ⟨space, tab⟩)).trans ?_
    exact congrArg (sHeaderFieldStart strict answer · ch) (reported _)

end AtLine

theorem token_ne {c : Byte} (isToken : tokens c ≠ 0) :
    c ≠ sp ∧ c ≠ ht ∧ c ≠ cr ∧ c ≠ lf :=
  forall_byte (P := fun c => tokens c ≠ 0 → c ≠ sp ∧ c ≠ ht ∧ c ≠ cr ∧ c ≠ lf)
    (by decide +kernel) c isToken

/-- The first letter of a name. -/
theorem AtLine.letter (atLine : AtLine strict answer r q cs) (short : q.nread < httpMaxHeaderSize)
    {ch : Byte} (isToken : tokens ch ≠ 0) :
    Takes strict answer r [ch] (.marking { q.nameStart (tokens ch) with
      nread := q.nread + 1, state := .sHeaderField } .headerField [ch] cs) := by
  obtain ⟨space, tab, isCr, isLf⟩ := token_ne isToken
  have first : ∀ rest, step strict answer r.counted ch ([] ++ rest) =
      .next (.marking { q.nameStart (tokens ch) with
        nread := q.nread + 1, state := .sHeaderField } .headerField [] cs) 0 := by
    intro rest
    rw [atLine.turn short ch _ space tab]
    unfold sHeaderFieldStart
    rw [if_neg isCr, if_neg isLf, token_of_tokens strict isToken]
    exact if_neg isToken
  have taken := Takes.turn (fun _ => atLine.nread ▸ short) first
  rwa [Run.marking_advance] at taken

/-- The rest of a name, and the colon. -/
theorem takes_name {at_ : Bytes} (here : q.state = .sHeaderField) {q' : Parser} {tail : Bytes}
    (read : ∀ rest, fieldLoop strict { q with nread := q.nread + 1 } (tail ++ ascii ':' :: rest) =
      some (q', tail.length))
    (nread : q'.nread = q.nread + 1)
    (short : q.nread + 1 + tail.length ≤ httpMaxHeaderSize) :
    Takes strict answer (.marking q .headerField at_ cs) (tail ++ [ascii ':'])
      (.clear { q' with nread := q.nread + 1 + tail.length, state := .sHeaderValueDiscardWs }
        (cs ++ [.onHeaderField (at_ ++ tail)])) := by
  have head : parsingHeader (Run.marking q .headerField at_ cs).parser.state := by
    show parsingHeader q.state
    rw [here]
    rfl
  obtain ⟨ch, more, split⟩ : ∃ ch more, tail ++ [ascii ':'] = ch :: more :=
    List.exists_cons_of_ne_nil (by simp)
  have length : more.length = tail.length := by
    have both := congrArg List.length split
    simpa using both.symm
  have counted : (Run.marking q .headerField at_ cs).counted =
      .marking { q with nread := q.nread + 1 } .headerField at_ cs :=
    Run.counted_head head (by show q.nread < httpMaxHeaderSize; omega)
  have turned : ∀ rest, step strict answer (Run.marking q .headerField at_ cs).counted ch
    (more ++ rest) =
      .next (.clear { q' with nread := q.nread + 1 + tail.length, state := .sHeaderValueDiscardWs }
        (cs ++ [.onHeaderField (at_ ++ tail)])) more.length := by
    intro rest
    have all : ch :: (more ++ rest) = tail ++ ascii ':' :: rest := by
      rw [← List.cons_append, ← split, List.append_assoc]
      rfl
    have field : step strict answer (Run.marking q .headerField at_ cs).counted ch (more ++ rest) =
        sHeaderField strict (.marking { q with nread := q.nread + 1 } .headerField at_ cs)
          (ch :: (more ++ rest)) := by
      rw [counted]
      cases q
      cases here
      rfl
    rw [field, all, length]
    unfold sHeaderField
    rw [Run.parser_marking, read]
    dsimp only
    rw [countHeaderSize_short (by show q'.nread + tail.length ≤ _; omega), List.drop_left,
      List.take_left]
    show Step.next _ _ = Step.next _ _
    rw [← nread]
    exact congrArg (Step.next · tail.length) Run.marking_CALLBACK
  rw [split]
  exact Takes.turn (fun _ => by show q.nread < httpMaxHeaderSize; omega) turned

/-- The name, the colon and the space. -/
theorem AtLine.named (atLine : AtLine strict answer r q cs)
    (some_name : name ≠ []) (isName : IsName name)
    (short : q.nread + name.length + 2 ≤ httpMaxHeaderSize) :
    ∃ h index, Takes strict answer r (name ++ literal ": ")
        (.clear { q with
          headerState := h, index := index, nread := q.nread + name.length + 2
          state := .sHeaderValueDiscardWs } (cs ++ [.onHeaderField name])) ∧
      h.ofField ∧ h.known = headerNamed (name.map tokens) := by
  obtain ⟨ch, tail, rfl⟩ := List.exists_cons_of_ne_nil some_name
  rw [List.length_cons] at short ⊢
  let q₁ : Parser := { q with nread := q.nread + 1, state := .sHeaderField }
  have letter : Takes strict answer r [ch]
      (.marking (q₁.nameStart (tokens ch)) .headerField [ch] cs) :=
    atLine.letter (by omega) (isName ch List.mem_cons_self)
  obtain ⟨q₂, read, same, ofField, known⟩ := fieldLoop_recognises strict
    { q₁ with nread := q₁.nread + 1 } isName
  have nread : q₂.nread = q.nread + 1 + 1 := by rw [same]
  have field : Takes strict answer (.marking (q₁.nameStart (tokens ch)) .headerField [ch] cs)
      (tail ++ [ascii ':'])
      (.clear { q₂ with nread := q.nread + 1 + 1 + tail.length, state := .sHeaderValueDiscardWs }
        (cs ++ [.onHeaderField ([ch] ++ tail)])) :=
    takes_name rfl read nread (by show q.nread + 1 + 1 + tail.length ≤ _; omega)
  have less : q.nread + 1 + 1 + tail.length < httpMaxHeaderSize := by omega
  have space : Takes strict answer
      (.clear { q₂ with nread := q.nread + 1 + 1 + tail.length, state := .sHeaderValueDiscardWs }
        (cs ++ [.onHeaderField ([ch] ++ tail)])) [sp]
      (.clear { q₂ with
        nread := q.nread + 1 + 1 + tail.length + 1, state := .sHeaderValueDiscardWs }
        (cs ++ [.onHeaderField ([ch] ++ tail)])) :=
    takes_clear rfl less fun rest => rfl
  have colon : literal ": " = [ascii ':'] ++ [sp] := by decide
  have total : q.nread + (tail.length + 1) + 2 = q.nread + 1 + 1 + tail.length + 1 := by omega
  refine ⟨q₂.headerState, q₂.index, ?_, ofField, known⟩
  have all := (letter.trans field).trans space
  rw [List.append_assoc, List.append_assoc, ← colon, same] at all
  rw [total]
  exact all

/-- The rest of a value, and the CR. -/
theorem takes_value {at_ : Bytes} (here : q.state = .sHeaderValue) {q' : Parser} {h : HeaderState}
    {tail : Bytes}
    (read : ∀ rest, valueLoop { q with nread := q.nread + 1 } q.headerState 0 (tail ++ cr :: rest) =
      .cr q' h tail.length)
    (nread : q'.nread = q.nread + 1)
    (short : q.nread + 1 + tail.length ≤ httpMaxHeaderSize) :
    Takes strict answer (.marking q .headerValue at_ cs) (tail ++ [cr])
      (.clear { q' with
        headerState := h, nread := q.nread + 1 + tail.length, state := .sHeaderAlmostDone }
        (cs ++ [.onHeaderValue (at_ ++ tail)])) := by
  have head : parsingHeader (Run.marking q .headerValue at_ cs).parser.state := by
    show parsingHeader q.state
    rw [here]
    rfl
  obtain ⟨ch, more, split⟩ : ∃ ch more, tail ++ [cr] = ch :: more :=
    List.exists_cons_of_ne_nil (by simp)
  have length : more.length = tail.length := by
    have both := congrArg List.length split
    simpa using both.symm
  have counted : (Run.marking q .headerValue at_ cs).counted =
      .marking { q with nread := q.nread + 1 } .headerValue at_ cs :=
    Run.counted_head head (by show q.nread < httpMaxHeaderSize; omega)
  have turned : ∀ rest, step strict answer (Run.marking q .headerValue at_ cs).counted ch
    (more ++ rest) =
      .next (.clear { q' with
        headerState := h, nread := q.nread + 1 + tail.length, state := .sHeaderAlmostDone }
        (cs ++ [.onHeaderValue (at_ ++ tail)])) more.length := by
    intro rest
    have all : ch :: (more ++ rest) = tail ++ cr :: rest := by
      rw [← List.cons_append, ← split, List.append_assoc]
      rfl
    have value : step strict answer (Run.marking q .headerValue at_ cs).counted ch (more ++ rest) =
        sHeaderValue (.marking { q with nread := q.nread + 1 } .headerValue at_ cs)
          (ch :: (more ++ rest)) := by
      rw [counted]
      cases q
      cases here
      rfl
    have reported : ∀ q : Parser, (Run.marking q .headerValue at_ cs).callbackData_
      .headerValue tail =
        .clear q (cs ++ [.onHeaderValue (at_ ++ tail)]) := fun q => Run.marking_CALLBACK
    rw [value, all, length]
    unfold sHeaderValue
    rw [Run.parser_marking, read]
    dsimp only
    rw [List.take_left]
    refine (congrArg (fun r : Run => r.countHeaderSize tail.length tail.length
      (Step.next · tail.length))
      (reported _)).trans ?_
    rw [countHeaderSize_short (by show q'.nread + tail.length ≤ _; omega), ← nread]
    rfl
  rw [split]
  have taken : Takes strict answer _ (ch :: more) ((Run.clear _ _).advance (ch :: more)) :=
    Takes.turn (fun _ => by show q.nread < httpMaxHeaderSize; omega) turned
  exact taken

/-- The rest of a value, and the end of its line. -/
theorem takes_line {at_ : Bytes} (here : q.state = .sHeaderValue) {q' : Parser} {h : HeaderState}
    {tail : Bytes}
    (read : ∀ rest, valueLoop { q with nread := q.nread + 1 } q.headerState 0 (tail ++ cr :: rest) =
      .cr q' h tail.length)
    (nread : q'.nread = q.nread + 1) (short : q.nread + 1 + tail.length < httpMaxHeaderSize) :
    ∃ r', Takes strict answer (.marking q .headerValue at_ cs) (tail ++ literal "\r\n") r' ∧
      AtLine strict answer r' { q' with
        headerState := h, nread := q.nread + 1 + tail.length + 1
        flags := q'.flags.found h, state := .sHeaderFieldStart }
        (cs ++ [.onHeaderValue (at_ ++ tail)]) := by
  have value : Takes strict answer (.marking q .headerValue at_ cs) (tail ++ [cr])
      (.clear { q' with
        headerState := h, nread := q.nread + 1 + tail.length, state := .sHeaderAlmostDone }
        (cs ++ [.onHeaderValue (at_ ++ tail)])) :=
    takes_value here read nread short.le
  have isLf : Takes strict answer
      (.clear { q' with
        headerState := h, nread := q.nread + 1 + tail.length, state := .sHeaderAlmostDone }
        (cs ++ [.onHeaderValue (at_ ++ tail)])) [lf]
      (.clear { q' with
        headerState := h, nread := q.nread + 1 + tail.length + 1, state := .sHeaderValueLws }
        (cs ++ [.onHeaderValue (at_ ++ tail)])) :=
    takes_clear rfl short fun rest => rfl
  have crlf : literal "\r\n" = [cr] ++ [lf] := by decide
  have all := value.trans isLf
  rw [List.append_assoc, ← crlf] at all
  exact ⟨_, all, .behindValue rfl⟩

/-- The first byte of a value. -/
theorem takes_first {q₁ : Parser} {c : Byte} (here : q.state = .sHeaderValueDiscardWs)
    (space : c ≠ sp) (tab : c ≠ ht) (isCr : c ≠ cr) (isLf : c ≠ lf)
    (short : q.nread < httpMaxHeaderSize)
    (begins : sHeaderValueStart (.clear { q with nread := q.nread + 1 } cs) c =
      .next (.marking q₁ .headerValue [] cs) 0) :
    Takes strict answer (.clear q cs) [c] (.marking q₁ .headerValue [c] cs) := by
  have turned : ∀ rest, step strict answer (Run.clear q cs).counted c ([] ++ rest) =
      .next (.marking q₁ .headerValue [] cs) 0 := by
    intro rest
    rw [step_clear (by rw [here]; rfl) short]
    have discard : step strict answer (.clear { q with nread := q.nread + 1 } cs) c ([] ++ rest) =
        sHeaderValueDiscardWs (.clear { q with nread := q.nread + 1 } cs) c := by
      cases q
      cases here
      rfl
    rw [discard, sHeaderValueDiscardWs, if_neg (not_or.mpr ⟨space, tab⟩), if_neg isCr, if_neg isLf]
    exact begins
  have taken : Takes strict answer (.clear q cs) [c]
      ((Run.marking q₁ .headerValue [] cs).advance [c]) := Takes.turn (fun _ => short) turned
  rwa [Run.marking_advance] at taken

/-- The parser behind the first byte of a value, but for the part that depends on the name. -/
def Parser.valueStart (q : Parser) (h : HeaderState) (flags : Flags) (length : Nat) : Parser :=
  { q with
    state := .sHeaderValue, index := 0, headerState := h, flags := flags, contentLength := length }

theorem length_start (at_ : q.headerState = .hContentLength) {c : Byte} (digit : isNum c)
    (first : q.flags.fContentlength = false) :
    sHeaderValueStart (.clear q cs) c =
      .next (.marking (q.valueStart .hContentLength { q.flags with fContentlength := true }
        (c.toNat - 48)) .headerValue [] cs) 0 := by
  cases q
  cases at_
  refine (if_neg (by simp [digit])).trans ?_
  exact if_neg fun set => absurd (first.symm.trans set) (by decide)

theorem encoding_start (at_ : q.headerState = .hTransferEncoding) (c : Byte) :
    sHeaderValueStart (.clear q cs) c =
      .next (.marking (q.valueStart (if lower c = ascii 'c' then
        .hMatchingTransferEncodingChunked else .hGeneral) q.flags q.contentLength)
        .headerValue [] cs) 0 := by
  cases q
  cases at_
  rfl

/-- The other names. -/
theorem other_start (ofField : q.headerState.ofField) (sized : q.headerState ≠ .hContentLength)
    (encoded : q.headerState ≠ .hTransferEncoding) (c : Byte) :
    ∃ h flags, sHeaderValueStart (.clear q cs) c =
        .next (.marking (q.valueStart h flags q.contentLength) .headerValue [] cs) 0 ∧
      h.ofValue ∧ h ≠ .hContentLength ∧ h.encodes = false ∧
      flags = { q.flags with fUpgrade := flags.fUpgrade } ∧
      (flags.fUpgrade → q.flags.fUpgrade ∨ q.headerState = .hUpgrade) ∧
      (q.headerState ≠ .hConnection → h.tells = false) := by
  obtain ⟨type, flags, state, h⟩ := q
  cases h
  case hContentLength => exact absurd rfl sized
  case hTransferEncoding => exact absurd rfl encoded
  case hUpgrade => exact ⟨_, _, rfl, rfl, by decide, rfl, rfl, fun _ => .inr rfl, fun _ => rfl⟩
  case hConnection =>
    refine ⟨_, _, rfl, ?_, ?_, ?_, rfl, .inl, fun same => absurd rfl same⟩ <;> split_ifs <;> decide
  all_goals first
    | exact ⟨_, _, rfl, rfl, by decide, rfl, rfl, .inl, fun _ => rfl⟩
    | cases ofField

theorem found_frame (f : Flags) (h : HeaderState) :
    (f.found h).fTrailing = f.fTrailing ∧ (f.found h).fSkipbody = f.fSkipbody ∧
      (f.found h).fContentlength = f.fContentlength ∧ (f.found h).fUpgrade = f.fUpgrade := by
  cases h <;> exact ⟨rfl, rfl, rfl, rfl⟩

theorem found_connection (f : Flags) {h : HeaderState} (quiet : h.tells = false) :
    (f.found h).connection = f.connection := by
  cases h <;> first | rfl | cases quiet

theorem found_chunked (f : Flags) (h : HeaderState) :
    (f.found h).fChunked ↔ f.fChunked ∨ h = .hTransferEncodingChunked := by
  cases h <;> simp [Flags.found]

theorem headerNamed_connection (name : Bytes) :
    headerNamed (name.map tokens) = .hConnection ↔ IsConnection name := by
  unfold headerNamed
  split_ifs with connection
  · exact ⟨fun _ => connection, fun _ => rfl⟩
  all_goals exact ⟨fun same => (by cases same), fun same => absurd same connection⟩

theorem headerNamed_length (text : Bytes) :
    headerNamed text = .hContentLength ↔ text = literal "content-length" := by
  unfold headerNamed
  split_ifs with connection length encoding upgrade
  · refine ⟨fun same => (by cases same), ?_⟩
    rintro rfl
    exact absurd connection (by decide)
  · exact ⟨fun _ => length, fun _ => rfl⟩
  all_goals exact ⟨fun same => (by cases same), fun same => absurd same length⟩

theorem headerNamed_encoding (text : Bytes) :
    headerNamed text = .hTransferEncoding ↔ text = literal "transfer-encoding" := by
  unfold headerNamed
  split_ifs with connection length encoding upgrade
  · refine ⟨fun same => (by cases same), ?_⟩
    rintro rfl
    exact absurd connection (by decide)
  · refine ⟨fun same => (by cases same), ?_⟩
    rintro rfl
    exact absurd length (by decide)
  · exact ⟨fun _ => encoding, fun _ => rfl⟩
  all_goals exact ⟨fun same => (by cases same), fun same => absurd same encoding⟩

theorem headerNamed_upgrade (text : Bytes) :
    headerNamed text = .hUpgrade ↔ text = literal "upgrade" := by
  unfold headerNamed
  split_ifs with connection length encoding upgrade
  · refine ⟨fun same => (by cases same), ?_⟩
    rintro rfl
    exact absurd connection (by decide)
  · refine ⟨fun same => (by cases same), ?_⟩
    rintro rfl
    exact absurd length (by decide)
  · refine ⟨fun same => (by cases same), ?_⟩
    rintro rfl
    exact absurd encoding (by decide)
  · exact ⟨fun _ => upgrade, fun _ => rfl⟩
  · exact ⟨fun same => (by cases same), fun same => absurd same upgrade⟩

/-- A value that is no number. -/
theorem effect_of_reads {p q' : Parser} {h : HeaderState} {n : Nat} (read : p.SameButTokens q')
    (begins : p = { q with
      state := p.state, headerState := p.headerState, index := p.index, nread := p.nread
      flags := { q.flags with fUpgrade := p.flags.fUpgrade } })
    (unsized : name.map tokens ≠ literal "content-length")
    (chunked : h = .hTransferEncodingChunked ↔
      name.map tokens = literal "transfer-encoding" ∧ IsChunked value)
    (upgrade : p.flags.fUpgrade → q.flags.fUpgrade ∨ name.map tokens = literal "upgrade")
    (quiet : ¬ IsConnection name → q'.flags = p.flags ∧ h.tells = false) :
    HeaderEffect name value q
      { q' with headerState := h, nread := n, flags := q'.flags.found h, state := q.state } := by
  obtain ⟨trailing, skipBody, sized, upgrades⟩ := found_frame q'.flags h
  have found := found_chunked q'.flags h
  unfold Parser.SameButTokens at read
  rw [begins] at read
  have flags : q'.flags = _ := congrArg Parser.flags read
  have length : q'.contentLength = q.contentLength := by rw [read]
  refine ⟨?_, trailing.trans ?_, skipBody.trans ?_, found.trans ?_, fun same => absurd same unsized,
    fun _ => ⟨sized.trans ?_, ?_⟩, fun set => upgrade ?_, fun other => ?_⟩
  · obtain ⟨index, flags', same⟩ : ∃ i f, q' = { q with
        state := p.state, headerState := p.headerState, index := i,
        nread := p.nread, flags := f } :=
      ⟨_, _, read⟩
    rw [same]
  · rw [flags]
  · rw [flags]
  · rw [flags, chunked]
  · rw [flags]
  · exact length
  · have kept := upgrades.symm.trans set
    rwa [flags] at kept
  · obtain ⟨kept, untold⟩ := quiet other
    refine (found_connection q'.flags untold).trans ?_
    rw [kept, begins]
    rfl

/-- A number. -/
theorem effect_of_length {c : Byte} {tail : Bytes} {p : Parser} {n : Nat}
    (begins : p = { q with
      state := p.state, headerState := p.headerState, index := p.index, nread := p.nread
      contentLength := c.toNat - 48, flags := { q.flags with fContentlength := true } })
    (sized : name.map tokens = literal "content-length") :
    HeaderEffect name (c :: tail) q
      { p with
        contentLength := decimalFrom p.contentLength tail
        headerState := .hContentLength, nread := n
        flags := p.flags.found .hContentLength, state := q.state } := by
  have flags : p.flags = { q.flags with fContentlength := true } := by rw [begins]
  have length : decimalFrom p.contentLength tail = decimalFrom 0 (c :: tail) := by
    rw [begins]
    simp [decimalFrom]
  have not_encoding : ¬ (name.map tokens = literal "transfer-encoding" ∧
    IsChunked (c :: tail)) := by
    rintro ⟨encoding, -⟩
    exact absurd (sized.symm.trans encoding) (by decide)
  refine ⟨?_, ?_, ?_, ?_, fun _ => ⟨?_, length⟩, fun other => absurd sized other,
    fun set => .inl ?_,
    fun _ => ?_⟩
  · obtain ⟨state, h, index, nread, flags', length', same⟩ : ∃ s h i k f l, p = { q with
        state := s, headerState := h, index := i, nread := k, flags := f, contentLength := l } :=
      ⟨_, _, _, _, _, _, begins⟩
    rw [same]
  · show p.flags.fTrailing = _
    rw [flags]
  · show p.flags.fSkipbody = _
    rw [flags]
  · show p.flags.fChunked ↔ _
    rw [flags]
    exact ⟨.inl, fun either => either.resolve_right not_encoding⟩
  · show p.flags.fContentlength
    rw [flags]
  · have set : p.flags.fUpgrade := set
    rwa [flags] at set
  · show p.flags.connection = _
    rw [flags]
    rfl

/-- A value that is empty. -/
theorem effect_of_nothing {h : HeaderState} {n index : Nat} (ofField : h.ofField)
    (unsized : name.map tokens ≠ literal "content-length") :
    HeaderEffect name [] q
      { q with headerState := h, index := index, nread := n, flags := q.flags.found h } := by
  have flags : q.flags.found h = q.flags := by
    cases h <;> first | rfl | cases ofField
  have not_chunked : ¬ IsChunked [] := by
    rintro ⟨m, same⟩
    exact absurd (congrArg List.length same) (by simp [literal])
  rw [flags]
  exact ⟨rfl, rfl, rfl, ⟨.inl, fun either => either.resolve_right fun both => not_chunked both.2⟩,
    fun sized => absurd sized unsized, fun _ => ⟨rfl, rfl⟩, .inl, fun _ => rfl⟩

/-- A value that is not empty, and the end of its line. -/
theorem takes_valued {q₁ q' : Parser} {h : HeaderState} {c : Byte} {tail : Bytes}
    (here : q.state = .sHeaderValueDiscardWs) (isValue : IsValue (c :: tail)) (space : c ≠ sp)
    (tab : c ≠ ht)
    (begins : sHeaderValueStart (.clear { q with nread := q.nread + 1 } cs) c =
      .next (.marking q₁ .headerValue [] cs) 0)
    (state : q₁.state = .sHeaderValue) (nread₁ : q₁.nread = q.nread + 1)
    (read : ∀ rest, valueLoop { q₁ with nread := q₁.nread + 1 } q₁.headerState 0
      (tail ++ cr :: rest) =
      .cr q' h tail.length)
    (nread : q'.nread = q₁.nread + 1) (short : q.nread + tail.length + 3 ≤ httpMaxHeaderSize) :
    ∃ r', Takes strict answer (.clear q cs) (c :: tail ++ literal "\r\n") r' ∧
      AtLine strict answer r' { q' with
        headerState := h, nread := q.nread + tail.length + 3
        flags := q'.flags.found h, state := .sHeaderFieldStart }
        (cs ++ [.onHeaderValue (c :: tail)]) := by
  obtain ⟨-, isCr, isLf⟩ := isValue c List.mem_cons_self
  have first : Takes strict answer (.clear q cs) [c] (.marking q₁ .headerValue [c] cs) :=
    takes_first here space tab isCr isLf (by omega) begins
  obtain ⟨r', line, atLine⟩ : ∃ r', Takes strict answer (.marking q₁ .headerValue [c] cs)
      (tail ++ literal "\r\n") r' ∧ AtLine strict answer r' _
        (cs ++ [.onHeaderValue ([c] ++ tail)]) :=
    takes_line state read nread (by omega)
  have total : q₁.nread + 1 + tail.length + 1 = q.nread + tail.length + 3 := by omega
  rw [total] at atLine
  exact ⟨r', first.trans line, atLine⟩

/-- An empty value. -/
theorem takes_nothing {h : HeaderState} {index n : Nat} (at_ : q.state = .sHeaderFieldStart)
    (ofField : h.ofField) (unsized : name.map tokens ≠ literal "content-length")
    (short : n + 2 ≤ httpMaxHeaderSize) :
    ∃ r' q', Takes strict answer
        (.clear { q with
          headerState := h, index := index, nread := n, state := .sHeaderValueDiscardWs } cs)
        (literal "\r\n") r' ∧
      AtLine strict answer r' q' (cs ++ [.onHeaderValue []]) ∧ HeaderEffect name [] q q' ∧
      q'.nread = n + 2 := by
  have isCr : Takes strict answer
      (.clear { q with
        headerState := h, index := index, nread := n, state := .sHeaderValueDiscardWs } cs) [cr]
      (.clear { q with
        headerState := h, index := index, nread := n + 1
        state := .sHeaderValueDiscardWsAlmostDone } cs) :=
    takes_clear rfl (by show n < _; omega) fun rest => rfl
  have isLf : Takes strict answer
      (.clear { q with
        headerState := h, index := index, nread := n + 1
        state := .sHeaderValueDiscardWsAlmostDone } cs) [lf]
      (.clear { q with
        headerState := h, index := index, nread := n + 2, state := .sHeaderValueDiscardLws } cs) :=
    takes_clear rfl (by show n + 1 < _; omega) fun rest => if_neg fun both => both.2 rfl
  have crlf : literal "\r\n" = [cr] ++ [lf] := by decide
  have effect : HeaderEffect name [] q
      { q with headerState := h, index := index, nread := n + 2, flags := q.flags.found h } :=
    effect_of_nothing ofField unsized
  have taken := isCr.trans isLf
  rw [← crlf] at taken
  refine ⟨_, _, taken, ?_, effect, rfl⟩
  rw [at_]
  exact .behindNothing rfl

section
variable {h : HeaderState} {index n : Nat} {c : Byte} {tail : Bytes}
  (at_ : q.state = .sHeaderFieldStart) (isValue : IsValue (c :: tail)) (space : c ≠ sp)
    (tab : c ≠ ht)
  (short : n + tail.length + 3 ≤ httpMaxHeaderSize)
include at_ isValue space tab short

/-- A number. -/
theorem takes_number (named : name.map tokens = literal "content-length")
    (digits : ∀ b ∈ c :: tail, isNum b) (small : decimalFrom 0 (c :: tail) ≤ lengthLimit)
    (first : q.flags.fContentlength = false) :
    ∃ r' q', Takes strict answer
        (.clear { q with
          headerState := .hContentLength, index := index, nread := n
          state := .sHeaderValueDiscardWs } cs)
        (c :: tail ++ literal "\r\n") r' ∧
      AtLine strict answer r' q' (cs ++ [.onHeaderValue (c :: tail)]) ∧
      HeaderEffect name (c :: tail) q q' ∧ q'.nread = n + tail.length + 3 := by
  let qd : Parser := { q with
    headerState := .hContentLength, index := index, nread := n, state := .sHeaderValueDiscardWs }
  let q₁ : Parser := ({ qd with nread := n + 1 } : Parser).valueStart .hContentLength
    { q.flags with fContentlength := true } (c.toNat - 48)
  let p : Parser := { q₁ with nread := n + 1 + 1 }
  have begins : sHeaderValueStart (.clear { qd with nread := qd.nread + 1 } cs) c =
      .next (.marking q₁ .headerValue [] cs) 0 :=
    length_start rfl (digits c List.mem_cons_self) first
  have spelled : decimalFrom 0 (c :: tail) = decimalFrom (c.toNat - 48) tail := by
    simp [decimalFrom]
  have one : c.toNat - 48 ≤ lengthLimit := by
    have nine := (isNum_value (digits c List.mem_cons_self)).2.2.2.2
    exact nine.trans (by decide)
  have tailDigits : ∀ b ∈ tail, isNum b := fun b inside => digits b (List.mem_cons_of_mem _ inside)
  have read : ∀ rest, valueLoop p .hContentLength 0 (tail ++ cr :: rest) =
      .cr { p with contentLength := decimalFrom p.contentLength tail } .hContentLength
        tail.length := by
    intro rest
    rcases valueLoop_length p tailDigits one rest with ⟨-, read⟩ | ⟨long, -⟩
    · exact read
    · have long : lengthLimit < decimalFrom (c.toNat - 48) tail := long
      omega
  obtain ⟨r', taken, atLine⟩ : ∃ r', Takes strict answer (.clear qd cs)
    (c :: tail ++ literal "\r\n") r' ∧
      AtLine strict answer r' _ (cs ++ [.onHeaderValue (c :: tail)]) :=
    takes_valued rfl isValue space tab begins rfl rfl read rfl short
  have effect : HeaderEffect name (c :: tail) q _ :=
    effect_of_length (p := p) (n := n + tail.length + 3) rfl named
  refine ⟨r', _, taken, atLine, ?_, rfl⟩
  rw [at_] at effect
  exact effect

/-- Any other value; `chunked` says whether its end sets `F_CHUNKED`. -/
theorem takes_text {h₁ : HeaderState} {flags : Flags}
    (begins : sHeaderValueStart (.clear { q with
        headerState := h, index := index, nread := n + 1, state := .sHeaderValueDiscardWs } cs) c =
      .next (.marking (({ q with nread := n + 1 } : Parser).valueStart h₁ flags q.contentLength)
        .headerValue [] cs) 0)
    (ofValue : h₁.ofValue) (other : h₁ ≠ .hContentLength)
    (same_flags : flags = { q.flags with fUpgrade := flags.fUpgrade })
    (upgrade : flags.fUpgrade → q.flags.fUpgrade ∨ name.map tokens = literal "upgrade")
    (quiet : ¬ IsConnection name → h₁.tells = false)
    (unsized : name.map tokens ≠ literal "content-length")
    (chunked : ∀ p q' h' k, p.index = 0 → valueLoop p h₁ 0 (tail ++ [cr]) = .cr q' h' k →
      (h' = .hTransferEncodingChunked ↔
        name.map tokens = literal "transfer-encoding" ∧ IsChunked (c :: tail))) :
    ∃ r' q', Takes strict answer
        (.clear { q with
          headerState := h, index := index, nread := n, state := .sHeaderValueDiscardWs } cs)
        (c :: tail ++ literal "\r\n") r' ∧
      AtLine strict answer r' q' (cs ++ [.onHeaderValue (c :: tail)]) ∧
      HeaderEffect name (c :: tail) q q' ∧ q'.nread = n + tail.length + 3 := by
  have limit : httpMaxHeaderSize = 81920 := rfl
  have tailValue : IsValue tail := fun b inside => isValue b (List.mem_cons_of_mem _ inside)
  let q₁ : Parser := ({ q with nread := n + 1 } : Parser).valueStart h₁ flags q.contentLength
  let p : Parser := { q₁ with nread := n + 1 + 1 }
  obtain ⟨q₂, h₂, read, same, -⟩ := valueLoop_reads p ofValue other tailValue (by omega)
  have nread : q₂.nread = n + 1 + 1 := by rw [same]
  obtain ⟨r', taken, atLine⟩ : ∃ r', Takes strict answer
      (.clear { q with
        headerState := h, index := index, nread := n, state := .sHeaderValueDiscardWs } cs)
      (c :: tail ++ literal "\r\n") r' ∧
      AtLine strict answer r' _ (cs ++ [.onHeaderValue (c :: tail)]) :=
    takes_valued rfl isValue space tab begins rfl rfl read nread short
  have effect : HeaderEffect name (c :: tail) q
      { q₂ with
        headerState := h₂, nread := n + tail.length + 3, flags := q₂.flags.found h₂,
        state := q.state } := by
    refine effect_of_reads same ?_ unsized (chunked p q₂ h₂ _ rfl (read [])) upgrade fun plain =>
      valueLoop_quiet ofValue other (quiet plain) tailValue (by omega) (read [])
    show p = { q with
      state := .sHeaderValue, headerState := h₁, index := 0, nread := n + 1 + 1
      flags := { q.flags with fUpgrade := flags.fUpgrade } }
    rw [← same_flags]
    rfl
  rw [at_] at effect
  exact ⟨r', _, taken, atLine, effect, rfl⟩

end

theorem isChunked_cons {c : Byte} {tail : Bytes} (chunked : IsChunked (c :: tail)) :
    lower c = ascii 'c' := by
  obtain ⟨m, same⟩ := chunked
  have split : literal "chunked" = ascii 'c' :: literal "hunked" := by decide
  rw [split] at same
  exact List.head_eq_of_cons_eq same

/-- The value of a header whose name was read, and the end of its line. -/
theorem takes_rest {h : HeaderState} {index n : Nat} (sent : SentHeader name value)
    (first : name.map tokens = literal "content-length" → q.flags.fContentlength = false)
    (at_ : q.state = .sHeaderFieldStart) (ofField : h.ofField)
    (known : h.known = headerNamed (name.map tokens))
    (short : n + value.length + 2 ≤ httpMaxHeaderSize) :
    ∃ r' q', Takes strict answer
        (.clear { q with
          headerState := h, index := index, nread := n, state := .sHeaderValueDiscardWs } cs)
        (value ++ literal "\r\n") r' ∧
      AtLine strict answer r' q' (cs ++ [.onHeaderValue value]) ∧ HeaderEffect name value q q' ∧
      q'.nread = n + value.length + 2 := by
  have length_known : h = .hContentLength ↔ name.map tokens = literal "content-length" := by
    rw [← headerNamed_length, ← known]
    cases h <;> decide
  have encoding_known : h = .hTransferEncoding ↔ name.map tokens = literal "transfer-encoding" := by
    rw [← headerNamed_encoding, ← known]
    cases h <;> decide
  have upgrade_known : h = .hUpgrade ↔ name.map tokens = literal "upgrade" := by
    rw [← headerNamed_upgrade, ← known]
    cases h <;> decide
  have connection_known : h = .hConnection ↔ IsConnection name := by
    rw [← headerNamed_connection, ← known]
    cases h <;> decide
  cases value with
  | nil => exact takes_nothing at_ ofField (fun sized => (sent.number sized).1 rfl) short
  | cons c tail =>
    obtain ⟨space, tab⟩ := sent.begins c tail rfl
    have tailValue : IsValue tail := fun b inside => sent.isValue b (List.mem_cons_of_mem _ inside)
    rw [List.length_cons] at short ⊢
    have limit : httpMaxHeaderSize = 81920 := rfl
    have tail_short : tail.length < httpMaxHeaderSize := by omega
    have total : n + (tail.length + 1) + 2 = n + tail.length + 3 := by omega
    rw [total] at short ⊢
    by_cases sized : h = .hContentLength
    · subst sized
      have named := length_known.mp rfl
      obtain ⟨-, digits, small⟩ := sent.number named
      exact takes_number at_ sent.isValue space tab short named digits small (first named)
    have unsized : name.map tokens ≠ literal "content-length" :=
      fun named => sized (length_known.mpr named)
    by_cases encoded : h = .hTransferEncoding
    · subst encoded
      have named := encoding_known.mp rfl
      refine takes_text at_ sent.isValue space tab short (encoding_start rfl c) ?_ ?_ rfl .inl
        (fun _ => ?_) unsized ?_
      · split_ifs <;> rfl
      · split_ifs <;> decide
      · split_ifs <;> rfl
      · intro p q' h' k fresh read
        split_ifs at read with begins
        · have within : Within (literal "chunked") p.index [lower c] := by
            rw [fresh, begins]
            exact ⟨by decide, by decide⟩
          rw [chunked_matching tailValue tail_short within read]
          exact ⟨fun spelled => ⟨named, spelled⟩, fun both => both.2⟩
        · obtain rfl := valueLoop_general_end tailValue tail_short read
          refine ⟨fun found => (by cases found), fun both => ?_⟩
          exact absurd (isChunked_cons both.2) begins
    · have other : name.map tokens ≠ literal "transfer-encoding" :=
        fun named => encoded (encoding_known.mpr named)
      let qd : Parser := { q with
        headerState := h, index := index, nread := n + 1, state := .sHeaderValueDiscardWs }
      have start : ∃ h₁ flags, sHeaderValueStart (.clear qd cs) c =
          .next (.marking (qd.valueStart h₁ flags q.contentLength) .headerValue [] cs) 0 ∧
          h₁.ofValue ∧ h₁ ≠ .hContentLength ∧ _ ∧ _ ∧ _ ∧ (h ≠ .hConnection → h₁.tells = false) :=
        other_start ofField sized encoded c
      obtain ⟨h₁, flags, begins, ofValue, notSized, notEncodes, same_flags, upgrade, quiet⟩ := start
      have upgrade : flags.fUpgrade → q.flags.fUpgrade ∨ name.map tokens = literal "upgrade" :=
        fun set => (upgrade set).imp_right upgrade_known.mp
      refine takes_text at_ sent.isValue space tab short begins ofValue notSized same_flags upgrade
        (fun plain => quiet (mt connection_known.mp plain)) unsized ?_
      intro p q' h' k _ read
      obtain ⟨q₂, h₂, reads, -, -, -, encodes⟩ :=
        valueLoop_reads p ofValue notSized tailValue tail_short
      obtain ⟨-, rfl, -⟩ := ValueEnd.cr.inj ((reads []).symm.trans read)
      refine ⟨?_, fun both => absurd both.1 other⟩
      rintro rfl
      exact absurd (encodes rfl) (by rw [notEncodes]; decide)

/-- A whole header line. -/
theorem AtLine.header (atLine : AtLine strict answer r q cs) (sent : SentHeader name value)
    (first : name.map tokens = literal "content-length" → q.flags.fContentlength = false)
    (short : q.nread + name.length + value.length + 4 ≤ httpMaxHeaderSize) :
    ∃ r' q', Takes strict answer r (name ++ literal ": " ++ value ++ literal "\r\n") r' ∧
      AtLine strict answer r' q' (cs ++ [.onHeaderField name, .onHeaderValue value]) ∧
      HeaderEffect name value q q' ∧ q'.nread = q.nread + name.length + value.length + 4 := by
  obtain ⟨h, index, named, ofField, known⟩ := atLine.named sent.some_name sent.isName (by omega)
  obtain ⟨r', q', rest, atLine', effect, nread⟩ : ∃ r' q', Takes strict answer
      (.clear { q with
        headerState := h, index := index, nread := q.nread + name.length + 2
        state := .sHeaderValueDiscardWs } (cs ++ [.onHeaderField name]))
      (value ++ literal "\r\n") r' ∧
      AtLine strict answer r' q' (cs ++ [.onHeaderField name] ++ [.onHeaderValue value]) ∧
      HeaderEffect name value q q' ∧ q'.nread = q.nread + name.length + 2 + value.length + 2 :=
    takes_rest sent first atLine.state ofField known (by omega)
  refine ⟨r', q', ?_, ?_, effect, by omega⟩
  · have all := named.trans rest
    rwa [← List.append_assoc] at all
  · rwa [List.append_assoc] at atLine'

end HttpLib
