import Tigerso.CutLoops
import Tigerso.HeaderNames

/-!
# What http_parser makes of the value of a header

The loop goes over a value to the end of the line. Only the value of `Transfer-Encoding` sets
`F_CHUNKED`, when it is `chunked` in any case of the letters, and only the one of `Content-Length`
is a number.
-/

open SystemCalls

namespace HttpLib

/-- The bytes of a value. -/
def IsValue (value : Bytes) : Prop := ∀ c ∈ value, isHeaderChar c ∧ c ≠ cr ∧ c ≠ lf

/-- A value that asks for chunks. -/
def IsChunked (value : Bytes) : Prop :=
  ∃ n, value.map lower = literal "chunked" ++ List.replicate n sp

/-- The header states of a value that may set `F_CHUNKED`. -/
def HeaderState.encodes : HeaderState → Bool
  | .hMatchingTransferEncodingChunked => true
  | .hTransferEncodingChunked => true
  | _ => false

/-- The header states of a value that may set the flags of `Connection`. -/
def HeaderState.tells : HeaderState → Bool
  | .hMatchingConnectionTokenStart => true
  | .hMatchingConnectionKeepAlive => true
  | .hMatchingConnectionClose => true
  | .hMatchingConnectionUpgrade => true
  | .hMatchingConnectionToken => true
  | .hConnectionKeepAlive => true
  | .hConnectionClose => true
  | .hConnectionUpgrade => true
  | _ => false

/-- The flags that `http_should_keep_alive` reads. -/
def Flags.connection (f : Flags) : Bool × Bool := (f.fConnectionClose, f.fConnectionKeepAlive)

/-- Only the index and the flags for `Connection` are others. -/
def Parser.SameButTokens (q q' : Parser) : Prop :=
  q' = { q with
    index := q'.index
    flags := { q.flags with
      fConnectionKeepAlive := q'.flags.fConnectionKeepAlive
      fConnectionClose := q'.flags.fConnectionClose
      fConnectionUpgrade := q'.flags.fConnectionUpgrade } }

theorem Parser.SameButTokens.trans {q q' q'' : Parser} (first : q.SameButTokens q')
    (second : q'.SameButTokens q'') : q.SameButTokens q'' := by
  unfold Parser.SameButTokens at first second ⊢
  rw [first] at second
  exact second

theorem ends_none {value : Bytes} (isValue : IsValue value) : value.findIdx? ends = none := by
  rw [List.findIdx?_eq_none_iff]
  intro c inside
  obtain ⟨-, isCr, isLf⟩ := isValue c inside
  simp [ends, isCr, isLf]

theorem lineEnd_value {value : Bytes} (isValue : IsValue value)
    (short : value.length < httpMaxHeaderSize) (rest : Bytes) :
    lineEnd (value ++ cr :: rest) = value.length := by
  refine lineEnd_found ?_
  obtain ⟨n, more⟩ : ∃ n, httpMaxHeaderSize - value.length = n + 1 :=
    Nat.exists_eq_add_one.mpr (Nat.sub_pos_of_lt short)
  rw [List.take_append, List.take_of_length_le short.le, more, List.take_succ_cons,
    List.findIdx?_append, ends_none isValue, List.findIdx?_cons]
  simp [ends]

theorem valueLoop_general_value (q : Parser) {value : Bytes} (isValue : IsValue value)
    (short : value.length < httpMaxHeaderSize) (rest : Bytes) :
    valueLoop q .hGeneral 0 (value ++ cr :: rest) = .cr q .hGeneral value.length := by
  cases value with
  | nil => exact if_pos rfl
  | cons ch value =>
    obtain ⟨allowed, isCr, isLf⟩ := isValue ch List.mem_cons_self
    have line := lineEnd_value isValue short rest
    rw [List.cons_append] at line ⊢
    rw [valueLoop_line q _ isCr isLf (by simp [allowed]), line, valueStop, ← List.cons_append,
      List.drop_left]
    exact if_pos rfl

/-- One byte of a value. -/
theorem valueLoop_cons {q q' : Parser} {h h' : HeaderState} {ch : Byte} (allowed : isHeaderChar ch)
    (isCr : ch ≠ cr) (isLf : ch ≠ lf) (special : h ≠ .hGeneral)
    (read : valueChar q h ch = .ok (q', h')) (rest : Bytes) :
    valueLoop q h 0 (ch :: rest) = (valueLoop q' h' 0 rest).behind := by
  rw [valueLoop, if_neg isCr, if_neg isLf, if_neg (by simp [allowed]), if_neg special, read]

/-- A header state of a value that does not become one of another header. -/
def HeaderState.Goes (h h' : HeaderState) : Prop :=
  h'.ofValue ∧ h' ≠ .hContentLength ∧ (h'.encodes → h.encodes)

theorem HeaderState.Goes.free {h h' : HeaderState} (ofValue : h'.ofValue)
    (other : h' ≠ .hContentLength) (not_encodes : h'.encodes = false) : h.Goes h' :=
  ⟨ofValue, other, fun encodes => absurd encodes (by rw [not_encodes]; decide)⟩

theorem tokenFound_reads (q : Parser) {h : HeaderState} (other : h.encodes = false)
    (stays : h.Goes h) (ch : Byte) :
    q.SameButTokens (tokenFound q h ch).1 ∧ h.Goes (tokenFound q h ch).2 := by
  have start : h.Goes .hMatchingConnectionTokenStart := .free rfl (by decide) rfl
  have isToken : h.Goes .hMatchingConnectionToken := .free rfl (by decide) rfl
  unfold tokenFound
  split_ifs
  · refine ⟨?_, start⟩
    cases h <;> first | rfl | cases other
  · exact ⟨rfl, isToken⟩
  · exact ⟨rfl, stays⟩

theorem matchValue_reads (text : Bytes) {other found : HeaderState} (q : Parser) {h : HeaderState}
    (others : h.Goes other) (finds : h.Goes found) (stays : h.Goes h) (c : Byte) :
    q.SameButTokens (matchValue text other found q h c).1 ∧
      h.Goes (matchValue text other found q h c).2 := by
  unfold matchValue
  dsimp only
  split_ifs
  · exact ⟨rfl, others⟩
  · exact ⟨rfl, finds⟩
  · exact ⟨rfl, stays⟩

/-- No byte of a value is an error, but for those of a length. -/
theorem valueChar_reads (q : Parser) {h : HeaderState} (ofValue : h.ofValue)
    (other : h ≠ .hContentLength) (ch : Byte) :
    ∃ q' h', valueChar q h ch = .ok (q', h') ∧ q.SameButTokens q' ∧ h.Goes h' := by
  have stays : h.Goes h := ⟨ofValue, other, id⟩
  have general : h.Goes .hGeneral := .free rfl (by decide) rfl
  have isToken : h.Goes .hMatchingConnectionToken := .free rfl (by decide) rfl
  cases h
  case hConnection => cases ofValue
  case hTransferEncoding => cases ofValue
  case hContentLength => exact absurd rfl other
  case hMatchingTransferEncodingChunked =>
    exact ⟨_, _, rfl, matchValue_reads _ q general ⟨rfl, by decide, fun _ => rfl⟩ stays _⟩
  case hMatchingConnectionTokenStart =>
    refine ⟨_, _, rfl, rfl, ?_⟩
    split_ifs
    · exact .free rfl (by decide) rfl
    · exact .free rfl (by decide) rfl
    · exact .free rfl (by decide) rfl
    · exact isToken
    · exact stays
    · exact general
  case hMatchingConnectionKeepAlive =>
    exact ⟨_, _, rfl, matchValue_reads _ q isToken (.free rfl (by decide) rfl) stays _⟩
  case hMatchingConnectionClose =>
    exact ⟨_, _, rfl, matchValue_reads _ q isToken (.free rfl (by decide) rfl) stays _⟩
  case hMatchingConnectionUpgrade =>
    exact ⟨_, _, rfl, matchValue_reads _ q isToken (.free rfl (by decide) rfl) stays _⟩
  case hMatchingConnectionToken =>
    by_cases comma : ch = ascii ','
    · exact ⟨_, _, congrArg Except.ok (if_pos comma), rfl, .free rfl (by decide) rfl⟩
    · exact ⟨_, _, congrArg Except.ok (if_neg comma), rfl, stays⟩
  case hTransferEncodingChunked =>
    refine ⟨_, _, rfl, rfl, ?_⟩
    split_ifs
    · exact general
    · exact stays
  case hConnectionKeepAlive => exact ⟨_, _, rfl, tokenFound_reads q rfl stays ch⟩
  case hConnectionClose => exact ⟨_, _, rfl, tokenFound_reads q rfl stays ch⟩
  case hConnectionUpgrade => exact ⟨_, _, rfl, tokenFound_reads q rfl stays ch⟩
  all_goals exact ⟨_, _, rfl, rfl, general⟩

/-- The loop over a whole value that is no number. -/
theorem valueLoop_reads (q : Parser) {h : HeaderState} (ofValue : h.ofValue)
    (other : h ≠ .hContentLength) {value : Bytes} (isValue : IsValue value)
    (short : value.length < httpMaxHeaderSize) :
    ∃ q' h', (∀ rest, valueLoop q h 0 (value ++ cr :: rest) = .cr q' h' value.length) ∧
      q.SameButTokens q' ∧ h.Goes h' := by
  induction value generalizing q h with
  | nil => exact ⟨q, h, fun rest => if_pos rfl, rfl, ofValue, other, id⟩
  | cons ch value ih =>
    by_cases special : h = .hGeneral
    · subst special
      exact ⟨q, _, fun rest => valueLoop_general_value q isValue short rest, rfl,
        ofValue, other, id⟩
    · obtain ⟨allowed, isCr, isLf⟩ := isValue ch List.mem_cons_self
      obtain ⟨q₁, h₁, read, same, ofValue₁, other₁, encodes₁⟩ := valueChar_reads q ofValue other ch
      obtain ⟨q', h', later, same', ofValue', other', encodes'⟩ :=
        ih q₁ ofValue₁ other₁ (fun c inside => isValue c (List.mem_cons_of_mem _ inside))
          (Nat.lt_of_succ_lt short)
      refine ⟨q', h', fun rest => ?_, same.trans same', ofValue', other', encodes₁ ∘ encodes'⟩
      rw [List.cons_append, valueLoop_cons allowed isCr isLf special read, later]
      rfl

theorem lower_space {c : Byte} (allowed : isHeaderChar c) : lower c = sp ↔ c = sp :=
  forall_byte (P := fun c => isHeaderChar c → (lower c = sp ↔ c = sp)) (by decide +kernel) c allowed

/-- The loop behind one byte of a value. -/
theorem valueLoop_rest {q q₁ q' : Parser} {h h₁ h' : HeaderState} {ch : Byte}
    {value : Bytes} {n : Nat}
    (isValue : IsValue (ch :: value)) (short : (ch :: value).length < httpMaxHeaderSize)
    (special : h ≠ .hGeneral) (turned : valueChar q h ch = .ok (q₁, h₁)) (ofValue : h₁.ofValue)
    (other : h₁ ≠ .hContentLength)
    (read : valueLoop q h 0 (ch :: value ++ [cr]) = .cr q' h' n) :
    ∃ n, valueLoop q₁ h₁ 0 (value ++ [cr]) = .cr q' h' n := by
  obtain ⟨allowed, isCr, isLf⟩ := isValue ch List.mem_cons_self
  obtain ⟨q₂, h₂, later, -⟩ := valueLoop_reads q₁ ofValue other
    (fun c inside => isValue c (List.mem_cons_of_mem _ inside)) (Nat.lt_of_succ_lt short)
  rw [List.cons_append, valueLoop_cons allowed isCr isLf special turned, later] at read
  obtain ⟨rfl, rfl, -⟩ := ValueEnd.cr.inj read
  exact ⟨_, later []⟩

theorem valueLoop_general_end {q q' : Parser} {h' : HeaderState} {value : Bytes} {n : Nat}
    (isValue : IsValue value) (short : value.length < httpMaxHeaderSize)
    (read : valueLoop q .hGeneral 0 (value ++ [cr]) = .cr q' h' n) : h' = .hGeneral := by
  rw [valueLoop_general_value q isValue short] at read
  exact (ValueEnd.cr.inj read).2.1.symm

theorem matchValue_quiet (text : Bytes) {other found h : HeaderState} (q : Parser)
    (others : other.tells = false) (finds : found.tells = false) (stays : h.tells = false)
      (c : Byte) :
    (matchValue text other found q h c).1.flags = q.flags ∧
      (matchValue text other found q h c).2.tells = false := by
  unfold matchValue
  dsimp only
  split_ifs
  · exact ⟨rfl, others⟩
  · exact ⟨rfl, finds⟩
  · exact ⟨rfl, stays⟩

/-- A value that does not tell its header sets no flag. -/
theorem valueChar_quiet {q q₁ : Parser} {h h₁ : HeaderState} {ch : Byte} (ofValue : h.ofValue)
    (other : h ≠ .hContentLength) (quiet : h.tells = false)
    (read : valueChar q h ch = .ok (q₁, h₁)) : q₁.flags = q.flags ∧ h₁.tells = false := by
  cases h
  case hConnection => cases ofValue
  case hTransferEncoding => cases ofValue
  case hContentLength => exact absurd rfl other
  case hMatchingTransferEncodingChunked =>
    have matched : matchValue (literal "chunked") .hGeneral .hTransferEncodingChunked q
        .hMatchingTransferEncodingChunked (lower ch) = (q₁, h₁) := Except.ok.inj read
    have general : HeaderState.hGeneral.tells = false := rfl
    have found : HeaderState.hTransferEncodingChunked.tells = false := rfl
    have kept := matchValue_quiet (literal "chunked") q general found quiet (lower ch)
    rwa [matched] at kept
  case hTransferEncodingChunked =>
    obtain ⟨rfl, rfl⟩ := Prod.mk.inj (Except.ok.inj read)
    refine ⟨rfl, ?_⟩
    split_ifs <;> rfl
  all_goals first
    | exact absurd quiet (by decide)
    | (obtain ⟨rfl, rfl⟩ := Prod.mk.inj (Except.ok.inj read)
       exact ⟨rfl, rfl⟩)

/-- The value of another header leaves the flags of `Connection`. -/
theorem valueLoop_quiet {q q' : Parser} {h h' : HeaderState} (ofValue : h.ofValue)
    (other : h ≠ .hContentLength) (quiet : h.tells = false) {value : Bytes}
      (isValue : IsValue value)
    (short : value.length < httpMaxHeaderSize) {n : Nat}
    (read : valueLoop q h 0 (value ++ [cr]) = .cr q' h' n) :
    q'.flags = q.flags ∧ h'.tells = false := by
  induction value generalizing q h n with
  | nil =>
    obtain ⟨rfl, rfl, -⟩ := ValueEnd.cr.inj read
    exact ⟨rfl, quiet⟩
  | cons ch value ih =>
    by_cases special : h = .hGeneral
    · subst special
      rw [valueLoop_general_value q isValue short] at read
      obtain ⟨rfl, rfl, -⟩ := ValueEnd.cr.inj read
      exact ⟨rfl, rfl⟩
    · obtain ⟨q₁, h₁, turned, -, ofValue₁, other₁, -⟩ := valueChar_reads q ofValue other ch
      obtain ⟨same, quiet₁⟩ := valueChar_quiet ofValue other quiet turned
      obtain ⟨n, rest_read⟩ := valueLoop_rest isValue short special turned ofValue₁ other₁ read
      obtain ⟨same', quiet'⟩ := ih ofValue₁ other₁ quiet₁
        (fun c inside => isValue c (List.mem_cons_of_mem _ inside))
          (Nat.lt_of_succ_lt short) rest_read
      exact ⟨same'.trans same, quiet'⟩

/-- Behind `chunked`, only spaces keep what was found. -/
theorem chunked_found {value : Bytes} (isValue : IsValue value)
    (short : value.length < httpMaxHeaderSize) {q q' : Parser} {h' : HeaderState} {n : Nat}
    (read : valueLoop q .hTransferEncodingChunked 0 (value ++ [cr]) = .cr q' h' n) :
    h' = .hTransferEncodingChunked ↔ ∃ m, value.map lower = List.replicate m sp := by
  induction value generalizing q n with
  | nil =>
    obtain ⟨-, rfl, -⟩ := ValueEnd.cr.inj read
    exact ⟨fun _ => ⟨0, rfl⟩, fun _ => rfl⟩
  | cons ch value ih =>
    have allowed := (isValue ch List.mem_cons_self).1
    have later : IsValue value := fun c inside => isValue c (List.mem_cons_of_mem _ inside)
    have shorter : value.length < httpMaxHeaderSize := Nat.lt_of_succ_lt short
    by_cases space : ch = sp
    · have turned : valueChar q .hTransferEncodingChunked ch =
          .ok (q, .hTransferEncodingChunked) := by
        rw [valueChar, if_neg (not_not.mpr space)]
      obtain ⟨n, rest_read⟩ :=
        valueLoop_rest isValue short (by decide) turned rfl (by decide) read
      rw [ih later shorter rest_read, List.map_cons, (lower_space allowed).mpr space]
      constructor
      · rintro ⟨m, same⟩
        exact ⟨m + 1, by rw [same]; rfl⟩
      · rintro ⟨m, same⟩
        cases m with
        | zero => cases same
        | succ m => exact ⟨m, List.tail_eq_of_cons_eq same⟩
    · have turned : valueChar q .hTransferEncodingChunked ch = .ok (q, .hGeneral) := by
        rw [valueChar, if_pos space]
      obtain ⟨n, rest_read⟩ :=
        valueLoop_rest isValue short (by decide) turned rfl (by decide) read
      obtain rfl := valueLoop_general_end later shorter rest_read
      refine ⟨fun found => (by cases found), ?_⟩
      rintro ⟨m, same⟩
      have inside : lower ch ∈ List.replicate m sp := by
        rw [← same]
        exact List.mem_cons_self
      exact absurd ((lower_space allowed).mp (List.eq_of_mem_replicate inside)) space

/-- While `chunked` is read. -/
theorem chunked_matching {value : Bytes} (isValue : IsValue value)
    (short : value.length < httpMaxHeaderSize) {q q' : Parser} {h' : HeaderState} {n : Nat}
    {text : Bytes} (within : Within (literal "chunked") q.index text)
    (read : valueLoop q .hMatchingTransferEncodingChunked 0 (value ++ [cr]) = .cr q' h' n) :
    h' = .hTransferEncodingChunked ↔
      ∃ m, text ++ value.map lower = literal "chunked" ++ List.replicate m sp := by
  induction value generalizing q n text with
  | nil =>
    obtain ⟨-, rfl, -⟩ := ValueEnd.cr.inj read
    refine ⟨fun found => (by cases found), ?_⟩
    rintro ⟨m, same⟩
    have length := congrArg List.length same
    have less := within.2
    rw [List.map_nil, List.append_nil, List.length_append, within.1, List.length_take] at length
    omega
  | cons ch value ih =>
    have later : IsValue value := fun c inside => isValue c (List.mem_cons_of_mem _ inside)
    have shorter : value.length < httpMaxHeaderSize := Nat.lt_of_succ_lt short
    obtain ⟨same, less⟩ := within
    have seven : (literal "chunked").length = 7 := by decide
    have wraps : (q.index + 1) % 2 ^ 7 = q.index + 1 := Nat.mod_eq_of_lt (by omega)
    have here : (literal "chunked" ++ [0]).getD (q.index + 1) 0 =
        (literal "chunked")[q.index + 1] := by
      rw [List.getD_eq_getElem?_getD, List.getElem?_append_left less, List.getElem?_eq_getElem less]
      rfl
    have parts : text ++ (ch :: value).map lower = (text ++ [lower ch]) ++ value.map lower := by
      rw [List.append_assoc]
      rfl
    rw [parts]
    by_cases next : lower ch = (literal "chunked")[q.index + 1]
    · have longer : text ++ [lower ch] = (literal "chunked").take (q.index + 1 + 1) := by
        rw [same, next, List.take_append_getElem less]
      have inside : ¬ (q.index + 1 > (literal "chunked").length ∨
          lower ch ≠ (literal "chunked")[q.index + 1]) :=
        not_or.mpr ⟨Nat.not_lt.mpr less.le, not_not.mpr next⟩
      by_cases last : q.index + 1 = (literal "chunked").length - 1
      · have turned : valueChar q .hMatchingTransferEncodingChunked ch =
            .ok (q.nextIndex, .hTransferEncodingChunked) := by
          unfold valueChar matchValue Parser.nextIndex
          dsimp only
          rw [wraps, here, if_neg inside, if_pos last]
        obtain ⟨n, rest_read⟩ :=
          valueLoop_rest isValue short (by decide) turned rfl (by decide) read
        have whole : text ++ [lower ch] = literal "chunked" := by
          rw [longer, List.take_of_length_le (by omega)]
        rw [chunked_found later shorter rest_read, whole]
        simp only [List.append_cancel_left_eq]
      · have turned : valueChar q .hMatchingTransferEncodingChunked ch =
            .ok (q.nextIndex, .hMatchingTransferEncodingChunked) := by
          unfold valueChar matchValue Parser.nextIndex
          dsimp only
          rw [wraps, here, if_neg inside, if_neg last]
        obtain ⟨n, rest_read⟩ :=
          valueLoop_rest isValue short (by decide) turned rfl (by decide) read
        have index : q.nextIndex.index = q.index + 1 := wraps
        refine ih later shorter ⟨?_, ?_⟩ rest_read
        · rw [index, longer]
        · rw [index]
          omega
    · have turned : valueChar q .hMatchingTransferEncodingChunked ch =
          .ok (q.nextIndex, .hGeneral) := by
        unfold valueChar matchValue Parser.nextIndex
        dsimp only
        rw [wraps, here, if_pos (.inr next)]
      obtain ⟨n, rest_read⟩ :=
        valueLoop_rest isValue short (by decide) turned rfl (by decide) read
      obtain rfl := valueLoop_general_end later shorter rest_read
      refine ⟨fun found => (by cases found), ?_⟩
      rintro ⟨m, both⟩
      have length : text.length = q.index + 1 := by
        rw [same, List.length_take, Nat.min_eq_left less.le]
      -- the byte behind the text is another one
      have left : (text ++ [lower ch] ++ value.map lower)[q.index + 1]? = some (lower ch) := by
        rw [List.append_assoc, ← length, List.getElem?_append_right (Nat.le_refl _), Nat.sub_self]
        rfl
      have right : (literal "chunked" ++ List.replicate m sp)[q.index + 1]? =
          some (literal "chunked")[q.index + 1] := by
        rw [List.getElem?_append_left less, List.getElem?_eq_getElem less]
      rw [both] at left
      exact absurd (Option.some.inj (left.symm.trans right)) next

/-- The number that the digits spell behind `n`. -/
def decimalFrom (n : Nat) (digits : Bytes) : Nat :=
  digits.foldl (fun n c => n * 10 + (c.toNat - 48)) n

def lengthLimit : Nat := (ullongMax - 10) / 10 * 10 + 9

theorem le_decimalFrom (n : Nat) (digits : Bytes) : n ≤ decimalFrom n digits := by
  induction digits generalizing n with
  | nil => exact Nat.le_refl n
  | cons c digits ih => exact le_trans (by omega) (ih (n * 10 + (c.toNat - 48)))

/-- A digit is a byte of a value. -/
theorem isNum_value {c : Byte} (digit : isNum c) :
    isHeaderChar c ∧ c ≠ cr ∧ c ≠ lf ∧ c ≠ sp ∧ c.toNat - 48 ≤ 9 :=
  forall_byte (P := fun c => isNum c → isHeaderChar c ∧ c ≠ cr ∧ c ≠ lf ∧ c ≠ sp ∧ c.toNat - 48 ≤ 9)
    (by decide +kernel) c digit

/-- One more digit, which is taken exactly when the number is not too large with it. -/
theorem lengthDigit_cases (q : Parser) {ch : Byte} (digit : isNum ch) :
    (q.contentLength * 10 + (ch.toNat - 48) ≤ lengthLimit ∧
      lengthDigit q ch =
        .ok ({ q with contentLength := q.contentLength * 10 + (ch.toNat - 48) }, .hContentLength)) ∨
    (lengthLimit < q.contentLength * 10 + (ch.toNat - 48) ∧
      lengthDigit q ch = .error (some .hpeInvalidContentLength)) := by
  obtain ⟨-, -, -, space, nine⟩ := isNum_value digit
  have limit : lengthLimit = (ullongMax - 10) / 10 * 10 + 9 := rfl
  have top : (ullongMax - 10) / 10 = 1844674407370955160 := rfl
  unfold lengthDigit
  rw [if_neg space, if_neg (by simp [digit])]
  split_ifs with long
  · exact .inr ⟨by omega, rfl⟩
  · have wraps : (q.contentLength * 10 + (ch.toNat - 48)) % 2 ^ 64 =
        q.contentLength * 10 + (ch.toNat - 48) := Nat.mod_eq_of_lt (by omega)
    rw [wraps]
    exact .inl ⟨by omega, rfl⟩

/-- A number in digits is taken as it is, or it is too large and refused: it never wraps around. -/
theorem valueLoop_length (q : Parser) {digits : Bytes} (digits_ : ∀ c ∈ digits, isNum c)
    (small : q.contentLength ≤ lengthLimit) (rest : Bytes) :
    (decimalFrom q.contentLength digits ≤ lengthLimit ∧
      valueLoop q .hContentLength 0 (digits ++ cr :: rest) =
        .cr { q with contentLength := decimalFrom q.contentLength digits } .hContentLength
          digits.length) ∨
    (lengthLimit < decimalFrom q.contentLength digits ∧
      ∃ q' n, valueLoop q .hContentLength 0 (digits ++ cr :: rest) =
        .bad .hpeInvalidContentLength q' n) := by
  induction digits generalizing q with
  | nil => exact .inl ⟨small, if_pos rfl⟩
  | cons ch digits ih =>
    have digit := digits_ ch List.mem_cons_self
    obtain ⟨allowed, isCr, isLf, -, -⟩ := isNum_value digit
    rcases lengthDigit_cases q digit with ⟨less, read⟩ | ⟨long, failed⟩
    · have turned : valueChar q .hContentLength ch = _ := read
      rw [List.cons_append, valueLoop_cons allowed isCr isLf (by decide) turned]
      rcases ih { q with contentLength := q.contentLength * 10 + (ch.toNat - 48) }
        (fun c inside => digits_ c (List.mem_cons_of_mem _ inside)) less with
        ⟨fits, later⟩ | ⟨long, q', n, failed⟩
      · exact .inl ⟨fits, by rw [later]; rfl⟩
      · exact .inr ⟨long, q', n + 1, by rw [failed]; rfl⟩
    · refine .inr ⟨lt_of_lt_of_le long (le_decimalFrom _ digits),
        q.setHeaderState .hContentLength, 0, ?_⟩
      have turned : valueChar q .hContentLength ch = .error (some .hpeInvalidContentLength) :=
        failed
      rw [List.cons_append, valueLoop, if_neg isCr, if_neg isLf, if_neg (by simp [allowed]),
        if_neg (by decide), turned]

end HttpLib
