import Tigerso.BodyRules
import Tigerso.ChunkedCoding

/-!
# Chunked bodies

A parser that is at a size line takes a chunked coding, reports the body that is coded and no other
byte, and is at the next message behind the last chunk.
-/

open SystemCalls ChunkedCoding

namespace HttpLib

/-- The digits for which, with the CRLF, a size line is not too long. -/
def sizeDigits : Nat := httpMaxHeaderSize - 2

/-- Where a parser stands in a chunked coding. -/
inductive ChunkPlace (q : Parser) : Bytes → Bytes → Prop
  | start {todo body : Bytes} (at_ : q.state = .sChunkSizeStart) (nread : q.nread = 0)
      (coded : Limited sizeDigits todo body) : ChunkPlace q todo body
  | size {digits tail body : Bytes} {n : Nat} (at_ : q.state = .sChunkSize)
      (spelled : valueFrom q.contentLength digits = some n)
      (short : q.nread + digits.length ≤ sizeDigits) (behind : Behind sizeDigits n tail body) :
      ChunkPlace q (digits ++ crlf ++ tail) body
  | sizeEnd {tail body : Bytes} (at_ : q.state = .sChunkSizeAlmostDone)
      (short : q.nread ≤ sizeDigits + 1) (behind : Behind sizeDigits q.contentLength tail body) :
      ChunkPlace q (lf :: tail) body
  | data {data rest body : Bytes} (at_ : q.state = .sChunkData)
      (length : q.contentLength = data.length) (some_data : data ≠ [])
      (later : Limited sizeDigits rest body) : ChunkPlace q (data ++ crlf ++ rest) (data ++ body)
  | dataEnd {rest body : Bytes} (at_ : q.state = .sChunkDataAlmostDone)
      (none_left : q.contentLength = 0) (later : Limited sizeDigits rest body) :
      ChunkPlace q (crlf ++ rest) body
  | dataDone {rest body : Bytes} (at_ : q.state = .sChunkDataDone)
      (later : Limited sizeDigits rest body) : ChunkPlace q (lf :: rest) body
  | trailer (at_ : q.state = .sHeaderFieldStart) (trailing : q.flags.fTrailing)
      (nread : q.nread = 0) : ChunkPlace q crlf []
  | trailerEnd (at_ : q.state = .sHeadersAlmostDone) (trailing : q.flags.fTrailing)
      (nread : q.nread ≤ 1) : ChunkPlace q [lf] []

/-- What a parser awaits in a chunked body. -/
structure AwaitsChunks (strict : Bool) (start : State) (q : Parser) (todo body : Bytes) : Prop where
  chunked : q.flags.fChunked
  ok : q.httpErrno = .hpeOk
  next : newMessage strict q = start
  small : todo.length < 2 ^ 60
  place : ChunkPlace q todo body

/-- With chunks, only the start line and the flags say whether the connection stays open. -/
theorem newMessage_chunked (strict : Bool) {q : Parser} (chunked : q.flags.fChunked) (s : State)
    (n length : Nat) (trailing : Bool) :
    newMessage strict { q with
      state := s, nread := n, contentLength := length
      flags := { q.flags with fTrailing := trailing } } = newMessage strict q := by
  simp [newMessage, httpShouldKeepAlive, httpMessageNeedsEof, startState, chunked]

theorem unhex_of_digitValue {c : Byte} {d : Nat} (digit : digitValue c = some d) :
    unhex c = some d := by
  unfold digitValue at digit
  unfold unhex isNum
  split_ifs at digit with num isLower upper
  · simpa [num] using digit
  · have high : ¬ (65 ≤ c ∧ c ≤ 70) := fun upper =>
      absurd (UInt8.le_trans isLower.1 upper.2) (by decide)
    have other : ¬ (48 ≤ c ∧ c ≤ 57) := num
    simpa [other, high, isLower] using digit
  · have other : ¬ (48 ≤ c ∧ c ≤ 57) := num
    simpa [other, upper] using digit

theorem digit_ne_cr {c : Byte} {d : Nat} (digit : digitValue c = some d) : c ≠ cr := by
  rintro rfl
  have none_here : digitValue cr = none := by decide
  exact Option.some_ne_none d (digit.symm.trans none_here)

section
variable {strict : Bool} {start : State} {Awaits : Parser → Bytes → Bytes → Prop} {r : Run}
  {q : Parser}
  {before : List Callback}
  {whole body todo rest more : Bytes} {ch : Byte}

/-- The parser that a turn works on is one byte on. -/
theorem Run.counted_eq (r : Run) :
    ∃ n, r.counted = r.setNread n ∧ (parsingHeader r.parser.state → r.parser.nread < 2 ^ 31 →
      n = r.parser.nread + 1) := by
  unfold counted
  by_cases head : parsingHeader r.parser.state
  · rw [if_pos head]
    refine ⟨_, rfl, fun _ small => Nat.mod_eq_of_lt ?_⟩
    omega
  · rw [if_neg head]
    exact ⟨r.parser.nread, rfl, fun here => absurd here head⟩

/-- A turn behind which nothing is marked. -/
theorem closed_turn (inBody : r.InBody before whole body) (unset : ∀ m, r.marks m = none)
    (awaits : Awaits r.parser (rest ++ more) body) :
    (Step.next r 0).TakesBody strict Awaits start before whole (ch :: rest) more :=
  ⟨Nat.succ_pos _, .inl ⟨body, inBody.passes unset r.parser _, awaits⟩⟩

/-- A byte that is not of the body. -/
theorem quiet_turn (inBody : r.InBody before whole body) (unset : ∀ m, r.marks m = none)
    (q : Parser)
    (awaits : Awaits q (rest ++ more) body) :
    (Step.next { r with parser := q } 0).TakesBody strict Awaits start before whole
      (ch :: rest) more :=
  ⟨Nat.succ_pos _, .inl ⟨body, inBody.passes unset q _, awaits⟩⟩

theorem AwaitsChunks.moves (awaits : AwaitsChunks strict start q todo body) (s : State)
    (n length : Nat) (trailing : Bool) {todo' body' : Bytes} (le : todo'.length ≤ todo.length)
    (place : ChunkPlace { q with
      state := s, nread := n, contentLength := length
      flags := { q.flags with fTrailing := trailing } } todo' body') :
    AwaitsChunks strict start { q with
      state := s, nread := n, contentLength := length
      flags := { q.flags with fTrailing := trailing } } todo' body' where
  chunked := awaits.chunked
  ok := awaits.ok
  next := (newMessage_chunked strict awaits.chunked s n length trailing).trans awaits.next
  small := le.trans_lt awaits.small
  place := place

section
variable (awaits : AwaitsChunks strict start r.parser (ch :: rest ++ more) body)
  (inBody : r.InBody before whole body)
include awaits inBody

/-- The first digit of a size line. -/
theorem sChunkSizeStart_turn (at_ : r.parser.state = .sChunkSizeStart)
    (fresh : r.parser.nread = 0) (coded : Limited sizeDigits (ch :: (rest ++ more)) body) :
    (sChunkSizeStart r.counted ch).TakesBody strict (AwaitsChunks strict start) start before whole
      (ch :: rest) more := by
  obtain ⟨c, digits, n, tail, split, spelled, short, behind⟩ := coded.first (by decide)
  obtain ⟨rfl, left⟩ := List.cons_eq_cons.mp split
  have left : rest ++ more = digits ++ crlf ++ tail := left
  obtain ⟨d, digit, spelled⟩ := valueFrom_cons spelled
  obtain ⟨k, counted, one⟩ := r.counted_eq
  obtain rfl := one (by rw [at_]; rfl) (by rw [fresh]; decide)
  rw [counted]
  unfold sChunkSizeStart
  rw [if_neg (by simp [Run.setNread, fresh, awaits.chunked]), unhex_of_digitValue digit]
  refine quiet_turn inBody (inBody.closed_all (by rw [at_]; rfl)) _
    (awaits.moves .sChunkSize _ d r.parser.flags.fTrailing (Nat.le_succ _) ?_)
  rw [left]
  rw [Nat.mul_zero, Nat.zero_add] at spelled
  refine .size rfl spelled ?_ behind
  show r.parser.nread + 1 + digits.length ≤ sizeDigits
  omega

/-- One more digit: the length is what the digits spell so far. -/
theorem sChunkSize_digit (at_ : r.parser.state = .sChunkSize) {digits tail : Bytes} {n : Nat}
    (spelled : valueFrom r.parser.contentLength (ch :: digits) = some n)
    (short : r.parser.nread + 1 + digits.length ≤ sizeDigits)
    (behind : Behind sizeDigits n tail body) (left : rest ++ more = digits ++ crlf ++ tail) :
    (sChunkSize r.counted ch).TakesBody strict (AwaitsChunks strict start) start before whole
      (ch :: rest) more := by
  obtain ⟨d, digit, spelled⟩ := valueFrom_cons spelled
  have most : n ≤ tail.length := by
    cases behind with
    | last => exact Nat.zero_le _
    | data some_data later => simp
  have small : r.parser.contentLength * 16 + d < 2 ^ 60 := by
    have le := le_valueFrom spelled
    have whole_small := awaits.small
    have length := congrArg List.length left
    simp only [List.length_append, List.cons_append, List.length_cons] at whole_small length
    omega
  obtain ⟨k, counted, one⟩ := r.counted_eq
  have limit : sizeDigits = 81918 := rfl
  have top : (ullongMax - 16) / 16 = 1152921504606846974 := rfl
  obtain rfl := one (by rw [at_]; rfl) (by omega)
  rw [counted]
  unfold sChunkSize
  rw [if_neg (by simp [Run.setNread, awaits.chunked]), if_neg (digit_ne_cr digit),
    unhex_of_digitValue digit]
  have fits : ¬ (ullongMax - 16) / 16 < (r.setNread (r.parser.nread + 1)).parser.contentLength := by
    show ¬ (ullongMax - 16) / 16 < r.parser.contentLength
    omega
  have wrapped : ((r.setNread (r.parser.nread + 1)).parser.contentLength * 16 + d) % 2 ^ 64 =
      16 * r.parser.contentLength + d := by
    show (r.parser.contentLength * 16 + d) % 2 ^ 64 = _
    omega
  simp only [fits, if_false, wrapped]
  refine quiet_turn inBody (inBody.closed_all (by rw [at_]; rfl)) _
    (awaits.moves r.parser.state _ _ r.parser.flags.fTrailing (Nat.le_succ _) ?_)
  rw [left]
  exact .size at_ spelled short behind

theorem sChunkSize_end (at_ : r.parser.state = .sChunkSize) {tail : Bytes} (isCr : ch = cr)
    (short : r.parser.nread ≤ sizeDigits)
    (behind : Behind sizeDigits r.parser.contentLength tail body)
      (left : rest ++ more = lf :: tail) :
    (sChunkSize r.counted ch).TakesBody strict (AwaitsChunks strict start) start before whole
      (ch :: rest) more := by
  obtain ⟨k, counted, one⟩ := r.counted_eq
  have limit : sizeDigits = 81918 := rfl
  obtain rfl := one (by rw [at_]; rfl) (by omega)
  rw [counted]
  unfold sChunkSize
  rw [if_neg (by simp [Run.setNread, awaits.chunked]), if_pos isCr]
  refine quiet_turn inBody (inBody.closed_all (by rw [at_]; rfl)) _
    (awaits.moves .sChunkSizeAlmostDone _ _ r.parser.flags.fTrailing (Nat.le_succ _) ?_)
  rw [left]
  exact .sizeEnd rfl (Nat.succ_le_succ short) behind

/-- Behind the size line comes the data, or the end of the body behind a size of zero. -/
theorem sChunkSizeAlmostDone_turn (at_ : r.parser.state = .sChunkSizeAlmostDone)
    (isLf : ch = lf) (behind : Behind sizeDigits r.parser.contentLength (rest ++ more) body) :
    (sChunkSizeAlmostDone strict r.counted ch).TakesBody strict
      (AwaitsChunks strict start) start before whole (ch :: rest) more := by
  have unset := inBody.closed_all (by rw [at_]; rfl)
  obtain ⟨k, counted, -⟩ := r.counted_eq
  rw [counted]
  unfold sChunkSizeAlmostDone
  rw [if_neg (by simp [Run.setNread, awaits.chunked]), if_neg (fun both => both.2 isLf)]
  dsimp only [Run.setNread]
  generalize length : r.parser.contentLength = n at behind
  generalize left : rest ++ more = todo at behind
  cases behind with
  | last =>
    rw [if_pos rfl]
    refine quiet_turn inBody unset _
      (awaits.moves .sHeaderFieldStart 0 0 true (Nat.le_succ _) ?_)
    rw [left]
    exact .trailer rfl rfl rfl
  | @data data _ _ some_data later =>
    have some_length : data.length ≠ 0 := fun none => some_data (List.length_eq_zero_iff.mp none)
    rw [if_neg some_length]
    refine quiet_turn inBody unset _
      (awaits.moves .sChunkData 0 _ r.parser.flags.fTrailing (Nat.le_succ _) ?_)
    rw [left]
    exact .data rfl rfl some_data later

theorem sChunkDataDone_turn (at_ : r.parser.state = .sChunkDataDone) (isLf : ch = lf)
    (later : Limited sizeDigits (rest ++ more) body) :
    (sChunkDataDone strict r.counted ch).TakesBody strict
      (AwaitsChunks strict start) start before whole (ch :: rest) more := by
  obtain ⟨k, counted, -⟩ := r.counted_eq
  rw [counted]
  unfold sChunkDataDone
  rw [if_neg (by simp [Run.setNread, awaits.chunked]), if_neg (fun both => both.2 isLf)]
  refine quiet_turn inBody (inBody.closed_all (by rw [at_]; rfl)) _
    (awaits.moves .sChunkSizeStart 0 _ r.parser.flags.fTrailing (Nat.le_succ _) ?_)
  exact .start rfl rfl later

/-- The data of a chunk, as far as the buffer has it. -/
theorem sChunkData_turn (at_ : r.parser.state = .sChunkData) {data tail left : Bytes}
    (length : r.parser.contentLength = data.length) (some_data : data ≠ [])
    (later : Limited sizeDigits tail left) (all : body = data ++ left)
    (split : ch :: rest ++ more = data ++ (crlf ++ tail)) :
    (sChunkData r.counted (ch :: rest)).TakesBody strict
      (AwaitsChunks strict start) start before whole (ch :: rest) more := by
  have positive : 0 < data.length := List.length_pos_iff.mpr some_data
  have small : data.length < ullongMax := by
    have small := awaits.small
    have top : ullongMax = 18446744073709551615 := rfl
    rw [split, List.length_append] at small
    omega
  obtain ⟨k, counted, -⟩ := r.counted_eq
  rw [counted]
  unfold sChunkData
  rw [if_neg (by simp [Run.setNread, awaits.chunked, length, some_data, Nat.ne_of_lt small])]
  have same : (r.setNread k).parser.contentLength = data.length := length
  rw [same]
  set n := min data.length (ch :: rest).length with taken
  have n_pos : 0 < n := Nat.lt_min.mpr ⟨positive, Nat.succ_pos _⟩
  have n_data : n ≤ data.length := Nat.min_le_left _ _
  have n_buffer : n ≤ (ch :: rest).length := Nat.min_le_right _ _
  have piece : (ch :: rest).take n = data.take n := by
    have both := congrArg (List.take n) split
    rwa [List.take_append_of_le_length n_buffer, List.take_append_of_le_length n_data] at both
  have behind : (ch :: rest).drop n ++ more = data.drop n ++ (crlf ++ tail) := by
    have both := congrArg (List.drop n) split
    rwa [List.drop_append_of_le_length n_buffer, List.drop_append_of_le_length n_data] at both
  have last : n - 1 + 1 = n := Nat.sub_add_cancel n_pos
  have body_split : body = (ch :: rest).take n ++ (data.drop n ++ left) := by
    rw [piece, ← List.append_assoc, List.take_append_drop, all]
  rw [body_split] at inBody
  have shorter : ((ch :: rest).drop n ++ more).length ≤ (ch :: rest ++ more).length := by
    rw [List.length_append, List.length_append, List.length_drop]
    omega
  have marked : (r.setNread k).mark .body = { r.mark .body with parser := (r.setNread k).parser } :=
    r.mark_changed .body _
  have still : (data.drop n).length = data.length - n := List.length_drop
  rw [marked]
  dsimp only [Run.setContentLength]
  by_cases finished : data.length - n = 0
  · rw [if_pos finished]
    have none_left : data.drop n = [] := List.length_eq_zero_iff.mp (still.trans finished)
    rw [none_left] at behind inBody
    refine ⟨last.symm ▸ n_buffer, .inl ⟨left, ?_, ?_⟩⟩
    · rw [last]
      exact inBody.takes rfl
    · rw [last, behind]
      exact awaits.moves .sChunkDataAlmostDone k _ r.parser.flags.fTrailing
        (behind ▸ shorter) (.dataEnd rfl finished later)
  · rw [if_neg finished]
    refine ⟨last.symm ▸ n_buffer, .inl ⟨data.drop n ++ left, ?_, ?_⟩⟩
    · rw [last]
      exact inBody.takes (by rw [Run.setNread, at_]; rfl)
    · rw [last, behind, ← List.append_assoc]
      refine awaits.moves r.parser.state k _ r.parser.flags.fTrailing ?_
        (.data at_ still.symm ?_ later)
      · rw [List.append_assoc]
        exact behind ▸ shorter
      · intro none_left
        rw [none_left] at still
        exact finished still.symm

theorem sChunkDataAlmostDone_turn (isCr : ch = cr) {tail : Bytes}
    (none_left : r.parser.contentLength = 0) (later : Limited sizeDigits tail body)
    (left : rest ++ more = lf :: tail) :
    (sChunkDataAlmostDone strict r.counted ch).TakesBody strict
      (AwaitsChunks strict start) start before whole (ch :: rest) more := by
  obtain ⟨k, counted, -⟩ := r.counted_eq
  rw [counted]
  unfold sChunkDataAlmostDone
  rw [if_neg (by simp [Run.setNread, awaits.chunked, none_left]), if_neg (fun both => both.2 isCr)]
  have nothing_more : r.InBody before whole ([] ++ body) := inBody
  obtain ⟨reported, unset⟩ := nothing_more.reports (.inl rfl)
    { r.parser with nread := k, state := .sChunkDataDone }
  refine closed_turn reported unset ?_
  have parser := Run.CALLBACK_keeps ((r.setNread k).updateState .sChunkDataDone) .body []
  rw [Run.callbackData, parser, left]
  exact awaits.moves .sChunkDataDone k _ r.parser.flags.fTrailing (left ▸ Nat.le_succ _)
    (.dataDone rfl later)

theorem sHeaderFieldStart_trailer (answer : Nat) (at_ : r.parser.state = .sHeaderFieldStart)
    (trailing : r.parser.flags.fTrailing) (fresh : r.parser.nread = 0) (isCr : ch = cr)
    (left : rest ++ more = [lf]) (none_left : body = []) :
    (sHeaderFieldStart strict answer r.counted ch).TakesBody strict
      (AwaitsChunks strict start) start before whole (ch :: rest) more := by
  subst none_left
  obtain ⟨k, counted, one⟩ := r.counted_eq
  obtain rfl := one (by rw [at_]; rfl) (by rw [fresh]; decide)
  rw [counted]
  unfold sHeaderFieldStart
  rw [if_pos isCr]
  refine quiet_turn inBody (inBody.closed_all (by rw [at_]; rfl)) _
    (awaits.moves .sHeadersAlmostDone _ _ r.parser.flags.fTrailing (Nat.le_succ _) ?_)
  rw [left]
  exact .trailerEnd rfl trailing (by rw [fresh]; exact Nat.le_refl 1)

/-- The empty line behind the last chunk completes the message. -/
theorem sHeadersAlmostDone_trailer (answer : Nat) (at_ : r.parser.state = .sHeadersAlmostDone)
    (trailing : r.parser.flags.fTrailing) (isLf : ch = lf) (left : rest ++ more = [])
    (none_left : body = []) :
    (sHeadersAlmostDone strict answer r.counted ch).TakesBody strict
      (AwaitsChunks strict start) start before whole (ch :: rest) more := by
  subst none_left
  have unset := inBody.closed_all (by rw [at_]; rfl)
  obtain ⟨k, counted, -⟩ := r.counted_eq
  rw [counted]
  unfold sHeadersAlmostDone
  have trailing : (r.setNread k).parser.flags.fTrailing := trailing
  rw [if_neg (fun both => both.2 isLf), if_pos trailing]
  obtain ⟨bodies, reported, all⟩ := inBody.reported
  have moved : ((r.setNread k).updateState .sMessageDone).InBody before whole [] :=
    ⟨inBody.single, fun _ => unset .body, bodies, reported, all⟩
  have none_left : (ch :: rest).drop (0 + 1) ++ more = [] := left
  rw [← Step.behind_zero (sMessageDone _ _)]
  exact last_turn (Nat.succ_pos _) none_left moved unset
    ((newMessage_chunked strict awaits.chunked .sMessageDone k _ r.parser.flags.fTrailing).trans
      awaits.next) awaits.ok

/-- Every turn takes bytes of the coding. -/
theorem chunk_turn (answer : Nat) :
    (step strict answer r.counted ch rest).TakesBody strict
      (AwaitsChunks strict start) start before whole (ch :: rest) more := by
  have place := awaits.place
  have same := r.counted_state
  unfold step
  rw [same]
  generalize split : ch :: rest ++ more = todo at place
  cases place with
  | start at_ fresh coded =>
    subst split
    rw [at_]
    exact sChunkSizeStart_turn awaits inBody at_ fresh coded
  | @size digits tail body n at_ spelled short behind =>
    rw [at_]
    cases digits with
    | nil =>
      obtain ⟨isCr, left⟩ := List.cons_eq_cons.mp split
      have same : r.parser.contentLength = n := Option.some.inj spelled
      exact sChunkSize_end awaits inBody at_ isCr short (same ▸ behind) left
    | cons c digits =>
      obtain ⟨rfl, left⟩ := List.cons_eq_cons.mp split
      rw [List.length_cons] at short
      exact sChunkSize_digit awaits inBody at_ spelled (by omega) behind left
  | sizeEnd at_ short behind =>
    obtain ⟨isLf, rfl⟩ := List.cons_eq_cons.mp split
    rw [at_]
    exact sChunkSizeAlmostDone_turn awaits inBody at_ isLf behind
  | data at_ length some_data later =>
    rw [at_]
    rw [List.append_assoc] at split
    exact sChunkData_turn awaits inBody at_ length some_data later rfl split
  | dataEnd at_ none_left later =>
    obtain ⟨isCr, left⟩ := List.cons_eq_cons.mp split
    rw [at_]
    exact sChunkDataAlmostDone_turn awaits inBody isCr none_left later left
  | dataDone at_ later =>
    obtain ⟨isLf, rfl⟩ := List.cons_eq_cons.mp split
    rw [at_]
    exact sChunkDataDone_turn awaits inBody at_ isLf later
  | trailer at_ trailing fresh =>
    obtain ⟨isCr, left⟩ := List.cons_eq_cons.mp split
    rw [at_]
    exact sHeaderFieldStart_trailer awaits inBody answer at_ trailing fresh isCr left rfl
  | trailerEnd at_ trailing nread =>
    obtain ⟨isLf, left⟩ := List.cons_eq_cons.mp split
    rw [at_]
    exact sHeadersAlmostDone_trailer awaits inBody answer at_ trailing isLf left rfl

end

/-- The framing of chunked bodies. -/
theorem chunkRule (strict : Bool) (start : State) :
    BodyRule strict start (AwaitsChunks strict start) where
  fresh awaits := by cases awaits.place <;> simp_all [resumed]
  ok awaits := awaits.ok
  some_ awaits := by
    cases awaits.place with
    | start at_ nread coded =>
      obtain ⟨c, digits, n, tail, rfl, -⟩ := coded.first (by decide)
      exact List.cons_ne_nil _ _
    | size => simp [crlf]
    | sizeEnd => exact List.cons_ne_nil _ _
    | data => simp [crlf]
    | dataEnd => exact List.cons_ne_nil _ _
    | dataDone => exact List.cons_ne_nil _ _
    | trailer => exact List.cons_ne_nil _ _
    | trailerEnd => exact List.cons_ne_nil _ _
  short awaits head := by
    have limit : httpMaxHeaderSize = sizeDigits + 2 := rfl
    cases awaits.place with
    | start at_ nread => omega
    | size at_ spelled short => omega
    | sizeEnd at_ short => omega
    | data at_ => rw [at_] at head; cases head
    | dataEnd at_ => rw [at_] at head; cases head
    | dataDone at_ => rw [at_] at head; cases head
    | trailer at_ trailing nread => omega
    | trailerEnd at_ trailing nread =>
      have positive : 0 < sizeDigits := by decide
      omega
  turn answer awaits inBody := chunk_turn awaits inBody answer

end

/-- However a chunked coding is cut into buffers, the body that is coded is reported, and the parser
is at the next message behind the last chunk. -/
theorem feed_chunked (strict : Bool) {q : Parser} (ok : q.httpErrno = .hpeOk)
    (at_ : q.state = .sChunkSizeStart) (chunked : q.flags.fChunked) (fresh : q.nread = 0)
    {stream body : Bytes} (coded : Limited sizeDigits stream body) (small : stream.length < 2 ^ 60)
    {buffers : List (Bytes × Nat)} (some_ : ∀ buffer ∈ buffers, buffer.1 ≠ [])
    (cut : (buffers.map (·.1)).flatten = stream) :
    ∃ q' bodies, feed strict q buffers =
        some (q', List.map .onBody bodies ++ [.onMessageComplete]) ∧
      bodies.flatten = body ∧ q'.state = newMessage strict q ∧ q'.httpErrno = .hpeOk := by
  have awaits : AwaitsChunks strict (newMessage strict q) q stream body :=
    ⟨chunked, ok, rfl, small, .start at_ fresh coded⟩
  obtain ⟨q', bodies, fed, all, state, -, ok⟩ :=
    (chunkRule strict _).feed buffers some_ (cut ▸ awaits)
  exact ⟨q', bodies, fed, all, state, ok⟩

/-- Three bytes, cut inside of the size line and inside of the data. -/
theorem feed_chunked_three :
    ∃ q' bodies, feed true
        { httpParserInit .httpRequest with
          state := .sChunkSizeStart, flags := { Flags.zero with fChunked := true } }
        [(literal "3\r", 0), (literal "\nab", 0), (literal "c\r\n0\r\n\r\n", 0)] =
        some (q', List.map .onBody bodies ++ [.onMessageComplete]) ∧
      bodies.flatten = literal "abc" := by
  have coded : Limited sizeDigits (literal "3" ++ crlf ++ (literal "abc" ++ crlf ++ lastChunk))
      (literal "abc" ++ []) := .chunk (by decide) (by decide) (by decide) .last
  have some_ :
    ∀ buffer ∈ ([(literal "3\r", 0), (literal "\nab", 0), (literal "c\r\n0\r\n\r\n", 0)] :
      List (Bytes × Nat)), buffer.1 ≠ [] := by decide
  have chunked : Parser.state { httpParserInit .httpRequest with
      state := .sChunkSizeStart, flags := { Flags.zero with fChunked := true } } =
      .sChunkSizeStart := rfl
  obtain ⟨q', bodies, fed, all, -⟩ :=
    feed_chunked true rfl chunked rfl rfl coded (by decide) some_ (by decide)
  exact ⟨q', bodies, fed, all⟩

end HttpLib
