import Tigerso.HttpBodyFile

/-!
# The chunk machines

`chunkStream fill rest` is what a machine sends for the unread bytes `rest` when
each of its chunks carries up to `fill` of them, whatever the size line says. A
stage says what a body in a given state still has to send. Each case of the
machines keeps sent bytes and bytes to send together the same, as long as the
events of the run are among those allowed.
-/

open SystemCalls DiskFile RingBuffer HttpBodyFile Dechex

namespace ChunkSending

/-- The chunks of the unread bytes, in the order of sending. -/
def chunkStream (fill : Nat) (rest : Bytes) : Bytes :=
  if _more : rest ≠ [] ∧ 0 < fill then
    dec2hex (min rest.length 8192) ++ crlf ++
      (rest.take fill ++ crlf ++ chunkStream fill (rest.drop fill))
  else nullChunk
termination_by rest.length
decreasing_by
  have := List.length_pos_iff.mpr _more.1
  rw [List.length_drop]
  omega

@[simp] theorem chunkStream_nil (fill : Nat) : chunkStream fill [] = nullChunk := by
  rw [chunkStream, dif_neg (by simp)]

theorem chunkStream_more {fill : Nat} {rest : Bytes} (positive : 0 < fill) (more : rest ≠ []) :
    chunkStream fill rest = dec2hex (min rest.length 8192) ++ crlf ++
      (rest.take fill ++ crlf ++ chunkStream fill (rest.drop fill)) := by
  rw [chunkStream, dif_pos ⟨more, positive⟩]

/-- The stream is a chunked coding when every chunk is as long as its size line says. -/
theorem chunkStream_chunked {fill : Nat} {rest : Bytes} (positive : 0 < fill)
    (fits : fill = 8192 ∨ rest.length ≤ min fill 8192) :
    ChunkedCoding.Chunked (chunkStream fill rest) rest := by
  induction n : rest.length using Nat.strong_induction_on generalizing rest with
  | _ n ih =>
    by_cases more : rest = []
    · rw [more, chunkStream_nil]
      exact .last
    · have hpos := List.length_pos_iff.mpr more
      have later := ih (rest.drop fill).length (by rw [List.length_drop]; omega)
        (fits.imp_right fun h => by rw [List.length_drop]; omega) rfl
      have size : ChunkedCoding.value (dec2hex (min rest.length 8192)) =
          some (rest.take fill).length := by
        rw [dec2hex_value (by omega), List.length_take]
        congr 1
        omega
      rw [chunkStream_more positive more]
      conv => arg 2; rw [← List.take_append_drop fill rest]
      exact .chunk size (by simp [more]; omega) later

/-- What stays unread after up to `fill` bytes. -/
theorem drop_taken (F : Bytes) (p fill : Nat) :
    F.drop (p + ((F.drop p).take fill).length) = F.drop (p + fill) := by
  rw [List.length_take, List.length_drop]
  rcases Nat.le_total fill (F.length - p) with enough | short
  · rw [Nat.min_eq_left enough]
  · rw [Nat.min_eq_right short, List.drop_eq_nil_of_le (by omega),
      List.drop_eq_nil_of_le (by omega)]

/-- `t'` has sent what stood before `todo'` in `todo`, at one byte or more for each
result that moves bytes. -/
structure Moved (t : Transfer) (todo : Bytes) (t' : Transfer) (todo' : Bytes) : Prop where
  sent : t'.sent ++ todo' = t.sent ++ todo
  suffix : t'.results <:+ t.results
  pace : moving t.results + todo'.length ≤ moving t'.results + todo.length

theorem Moved.refl (t : Transfer) (todo : Bytes) : Moved t todo t todo :=
  ⟨rfl, List.suffix_rfl, Nat.le_refl _⟩

theorem Moved.trans {t t₁ t₂ : Transfer} {todo todo₁ todo₂ : Bytes}
    (first : Moved t todo t₁ todo₁) (second : Moved t₁ todo₁ t₂ todo₂) :
    Moved t todo t₂ todo₂ := by
  obtain ⟨sent, suffix, pace⟩ := first
  obtain ⟨sent', suffix', pace'⟩ := second
  exact ⟨sent'.trans sent, suffix'.trans suffix, by omega⟩

/-- No call fails. -/
def Calm (t : Transfer) : Prop := ∀ r ∈ t.results, r ≠ .failed

theorem Calm.suffix {t t' : Transfer} (h : Calm t) (suffix : t'.results <:+ t.results) :
    Calm t' :=
  fun r hr => h r (suffix.mem hr)

/-- Every event of the run so far is allowed. -/
def Clean (ok : SendEvent → Prop) (t : Transfer) : Prop := ∀ e ∈ t.log, ok e

def anyEvent (_ : SendEvent) : Prop := True

/-- The transfer at which a case ends. -/
def final {α : Type} : Except Transfer (α × Transfer) → Transfer
  | .error t => t
  | .ok (_, t) => t

/-- The log only grows. -/
def Grows {α : Type} (f : Transfer → Except Transfer (α × Transfer)) : Prop :=
  ∀ t, t.log <+: (final (f t)).log

theorem Grows.of_log {α : Type} {f : Transfer → Except Transfer (α × Transfer)} (grows : Grows f)
    {t : Transfer} {log : List SendEvent} (same : t.log = log) : log <+: (final (f t)).log :=
  same ▸ grows t

/-- A case of a machine at `todo`: if it uses up the results, these were too few;
else it goes back to the loop or asks for a recall, in a state that stands for the
bytes still to send. -/
def Advances (ok : SendEvent → Prop) (Stage : HttpBodyFile → Bytes → Prop) (used : Nat)
    (t : Transfer) (todo : Bytes) : Except Transfer (CaseFlow × Transfer) → Prop
  | .error t' => Clean ok t' → moving t.results < todo.length
  | .ok (flow, t') => Clean ok t' →
    (flow = .looping ∨
      flow = .returned fileSendfileRecall ∧ t'.body.chunkstate ≠ .chunkNullDone) ∧
    ∃ todo', Moved t todo t' todo' ∧ t'.results.length + used ≤ t.results.length ∧
      Stage t'.body todo'

theorem Advances.after {ok : SendEvent → Prop} {Stage : HttpBodyFile → Bytes → Prop}
    {used used' : Nat} {t t₁ : Transfer} {todo todo₁ : Bytes}
    {result : Except Transfer (CaseFlow × Transfer)}
    (later : Advances ok Stage used' t₁ todo₁ result)
    (moved : Moved t todo t₁ todo₁) (spent : t₁.results.length + used ≤ t.results.length + used') :
    Advances ok Stage used t todo result := by
  have pace := moved.pace
  cases result with
  | error t' =>
    intro clean
    have := later clean
    omega
  | ok p =>
    intro clean
    obtain ⟨flow, todo', moved', fewer, stage⟩ := later clean
    exact ⟨flow, todo', moved.trans moved', by omega, stage⟩

/-- Only clean runs are in question. -/
theorem Advances.of_clean {ok : SendEvent → Prop} {Stage : HttpBodyFile → Bytes → Prop}
    {used : Nat} {t : Transfer} {todo : Bytes} {result : Except Transfer (CaseFlow × Transfer)}
    (h : Clean ok (final result) → Advances ok Stage used t todo result) :
    Advances ok Stage used t todo result := by
  cases result with
  | error t' => exact fun clean => h clean clean
  | ok p => exact fun clean => h clean clean

/-- The body plays no part in what a case has sent. -/
theorem Advances.of_body {ok : SendEvent → Prop} {Stage : HttpBodyFile → Bytes → Prop}
    {used : Nat} {t t₁ : Transfer} {todo : Bytes} {result : Except Transfer (CaseFlow × Transfer)}
    (h : Advances ok Stage used t₁ todo result) (sent : t₁.sent = t.sent)
    (results : t₁.results = t.results) : Advances ok Stage used t todo result :=
  h.after ⟨by rw [sent], results ▸ List.suffix_rfl, by rw [results]⟩ (by rw [results])

/-- What the machines need of the way to send from the ring. -/
def Sends (send : RingSender) : Prop :=
  ∀ rb results, rb.Rested → rb.content ≠ [] → (∀ r ∈ results, r ≠ .failed) →
    ∃ d, send rb results = some (d, ()) ∧ Flushed rb results d

theorem sends_socket (isSSL : Bool) : Sends (RingBuffer.send2Socket · isSSL) :=
  fun _ _ rested occupied calm => send2Socket_flushed rested occupied isSSL calm

theorem sends_fd {sockfd : Fd} (valid : sockfd.valid = true) (nonblock : sockfd.nonblock = true) :
    Sends (RingBuffer.send2SocketFd · sockfd) :=
  fun _ _ rested occupied calm => send2SocketFd_flushed rested occupied valid nonblock calm

theorem sendRing_grows (send : RingSender) : Grows (Transfer.sendRing send) := by
  intro t
  rw [Transfer.sendRing]
  split
  · exact List.prefix_rfl
  · dsimp only
    split <;> exact List.prefix_append _ _

/-- The ring's part of a transfer after one send. -/
inductive RingSent (t : Transfer) : Except Transfer (Int × Transfer) → Prop
  | starved {t' : Transfer} (few : moving t.results < t.body.ringbuf.content.length) :
      RingSent t (.error t')
  | returned {rb : RingBuffer} {out : Bytes} {rest : List WriteResult}
      (split : t.body.ringbuf.content = out ++ rb.content) (rested : rb.Rested)
      (capacity : rb.capacity = t.body.ringbuf.capacity)
      (cleared : rb.content = [] → rb.Cleared)
      (complete : (∀ r ∈ t.results, r.IsTook) → rb.content = []) (suffix : rest <:+ t.results)
      (used : rest.length < t.results.length)
      (pace : moving t.results ≤ moving rest + out.length)
      (cut : out ≠ [] → rb.content ≠ [] → CutShort (spent t.results rest)) :
      RingSent t (.ok ((out.length : Nat), ⟨{ t.body with ringbuf := rb }, t.sent ++ out, rest,
        t.log ++ [.ringSend t.body.chunkstate (spent t.results rest)]⟩))

theorem sendRing_spec {send : RingSender} (sends : Sends send) {t : Transfer}
    (rested : t.body.ringbuf.Rested) (occupied : t.body.ringbuf.content ≠ []) (calm : Calm t) :
    RingSent t (t.sendRing send) := by
  obtain ⟨d, result, flushed⟩ := sends t.body.ringbuf t.results rested occupied calm
  rw [Transfer.sendRing, result]
  cases flushed with
  | starved none few =>
    simp only [none]
    exact .starved few
  | returned hret split rested' capacity cleared complete suffix used pace cut =>
    simp only [hret]
    exact .returned split rested' capacity cleared complete suffix used pace cut

section
variable {ok : SendEvent → Prop} {Stage : HttpBodyFile → Bytes → Prop} {send : RingSender}

theorem flush_grows {state : ChunkState} {next : Transfer → Except Transfer (CaseFlow × Transfer)}
    (grows : Grows next) : Grows (Transfer.flush send state next) := by
  intro t
  have first := sendRing_grows send t
  rw [Transfer.flush]
  generalize t.sendRing send = result at first
  cases result with
  | error t' => exact first
  | ok p =>
    obtain ⟨ret, t'⟩ := p
    simp only [bind, Except.bind]
    split_ifs
    · exact first
    · exact first
    · exact first.trans (grows t')

/-- A flush of an occupied ring: what follows is to accept a cleared ring, and the
state it returns in is to stand for what is left. -/
theorem flush_advances (sends : Sends send) {state : ChunkState}
    {next : Transfer → Except Transfer (CaseFlow × Transfer)}
    {t : Transfer} {tail : Bytes} (rested : t.body.ringbuf.Rested)
    (occupied : t.body.ringbuf.content ≠ []) (calm : Calm t) (open_ : state ≠ .chunkNullDone)
    (blocked : ∀ rb : RingBuffer, rb.Rested → rb.capacity = t.body.ringbuf.capacity →
      rb.content ≠ [] → (∃ out used, t.body.ringbuf.content = out ++ rb.content ∧
        (out ≠ [] → CutShort used) ∧ ok (.ringSend t.body.chunkstate used)) →
      Stage { t.body with ringbuf := rb, chunkstate := state } (rb.content ++ tail))
    (later : ∀ rb t₁, rb.Cleared → rb.capacity = t.body.ringbuf.capacity →
      t₁.body = { t.body with ringbuf := rb } → Calm t₁ →
      Advances ok Stage 0 t₁ tail (next t₁)) :
    Advances ok Stage 1 t (t.body.ringbuf.content ++ tail) (t.flush send state next) := by
  have sent := sendRing_spec sends rested occupied calm
  rw [Transfer.flush]
  generalize t.sendRing send = result at sent
  cases sent with
  | starved few =>
    intro _
    rw [List.length_append]
    omega
  | @returned rb out rest split rested' capacity cleared _ suffix used pace cut =>
    simp only [bind, Except.bind]
    rw [if_neg (by omega)]
    by_cases empty : rb.content = []
    · rw [if_neg (by rw [size_eq rested'.valid, empty]; simp)]
      rw [empty, List.append_nil] at split
      refine (later rb _ (cleared empty) capacity rfl (calm.suffix suffix)).after
        ⟨?_, suffix, ?_⟩ (by simp only; omega)
      · rw [split, List.append_assoc]
      · rw [split, List.length_append]
        simp only
        omega
    · rw [if_pos (by rw [size_eq rested'.valid]; simpa using empty)]
      intro clean
      refine ⟨Or.inr ⟨rfl, open_⟩, rb.content ++ tail, ⟨?_, suffix, ?_⟩, by
        simp only [Transfer.setState]; omega, ?_⟩
      · simp only [Transfer.setState, split, List.append_assoc]
      · simp only [Transfer.setState, split, List.length_append]
        omega
      · exact blocked rb rested' capacity empty ⟨out, spent t.results rest, split,
          fun some_sent => cut some_sent empty, clean _ (by simp [Transfer.setState])⟩

theorem writeRing_cleared {t : Transfer} {bytes : Bytes} (cleared : t.body.ringbuf.Cleared)
    (data : bytes ≠ []) (short : bytes.length ≤ ringbufferMinLength) :
    ∃ rb : RingBuffer, t.writeRing bytes = .ok { t with body := { t.body with ringbuf := rb } } ∧
      rb.Rested ∧ rb.content = bytes ∧ rb.capacity = t.body.ringbuf.capacity := by
  obtain ⟨ret, rb, result, rested, content, capacity⟩ := writeIn_cleared cleared data short
  exact ⟨rb, by rw [Transfer.writeRing, result], rested, content, capacity⟩

theorem writeRing_log (t : Transfer) (bytes : Bytes) :
    (∃ t', t.writeRing bytes = .ok t' ∧ t'.log = t.log) ∨ t.writeRing bytes = .error t := by
  rw [Transfer.writeRing]
  split
  · exact Or.inr rfl
  · exact Or.inl ⟨_, rfl, rfl⟩

theorem writeRing_grows {bytes : Bytes} {next : Transfer → Except Transfer (CaseFlow × Transfer)}
    (grows : Grows next) (t t₀ : Transfer) (same : t.log = t₀.log) :
    t₀.log <+: (final (t.writeRing bytes >>= next)).log := by
  rcases writeRing_log t bytes with ⟨t', result, log⟩ | result
  · rw [result, ← same, ← log]
    exact grows t'
  · rw [result, ← same]
    exact List.prefix_rfl

end

theorem grows_ok (flow : CaseFlow) (f : Transfer → Transfer) (same : ∀ t, (f t).log = t.log) :
    Grows fun t => .ok (flow, f t) :=
  fun t => (same t).symm ▸ List.prefix_rfl

theorem caseNullOn_grows (send : RingSender) : Grows (Transfer.caseNullOn send) :=
  flush_grows (grows_ok _ _ fun _ => rfl)

theorem caseFileDone_grows (send : RingSender) : Grows (Transfer.caseFileDone send) := by
  intro t
  have later : Grows fun t => Transfer.caseNullOn send (t.setState .chunkNullOn) :=
    fun t => caseNullOn_grows send (t.setState .chunkNullOn)
  exact writeRing_grows later t.clearRing t rfl

theorem chunkSent_grows (send : RingSender) : Grows (Transfer.chunkSent send) := by
  intro t
  rw [Transfer.chunkSent]
  dsimp only
  split_ifs
  · exact List.prefix_rfl
  · exact caseFileDone_grows send (Transfer.setState
      { t with body := { t.body with chunksize := httpFileCacheSize } } .chunkFileDone)

theorem caseSizeOn_grows (send : RingSender)
    {data : Transfer → Except Transfer (CaseFlow × Transfer)} (grows : Grows data) :
    Grows (Transfer.caseSizeOn send data) :=
  flush_grows fun t => grows (t.setState .chunkSizeDone)

theorem caseUinit_grows (send : RingSender)
    {data : Transfer → Except Transfer (CaseFlow × Transfer)} (grows : Grows data) :
    Grows (Transfer.caseUinit send data) := by
  intro t
  have later : Grows fun t => Transfer.caseSizeOn send data (t.setState .chunkSizeOn) :=
    fun t => caseSizeOn_grows send grows (t.setState .chunkSizeOn)
  rw [Transfer.caseUinit]
  dsimp only
  generalize (if sizeT t.body.unread < sizeT t.body.chunksize then _ else _ : Int) = size
  split_ifs
  · exact List.prefix_rfl
  · exact writeRing_grows later (Transfer.clearRing
      { t with body := { t.body with chunksize := size } }) t rfl

section
variable (F : Bytes) (fill cap : Nat) (At : Nat → File → Prop)
  (Data : HttpBodyFile → Bytes → Prop)

/-- A body that has taken the first `p` bytes of the file into chunks. -/
structure Sits (p : Nat) (b : HttpBodyFile) : Prop where
  offset : b.readoffset = p
  file : At p b.file
  ring : b.ringbuf.Valid
  capacity : b.ringbuf.capacity = cap

/-- The chunk data that follows the size line at `p`, and the later chunks. -/
def chunkRest (p : Nat) : Bytes :=
  (F.drop p).take fill ++ crlf ++ chunkStream fill (F.drop (p + fill))

/-- What a body still has to send. `Data` are the stages of the chunk data. -/
inductive Stage : HttpBodyFile → Bytes → Prop
  | start {b : HttpBodyFile} {p : Nat} (state : b.chunkstate = .chunkUinit)
      (sits : Sits cap At p b) (more : p < F.length) (size : b.chunksize = httpFileCacheSize) :
      Stage b (chunkStream fill (F.drop p))
  | sizeOn {b : HttpBodyFile} {p : Nat} (state : b.chunkstate = .chunkSizeOn)
      (sits : Sits cap At p b) (more : p < F.length)
      (size : b.chunksize = ((min (F.length - p) 8192 : Nat) : Int)) (rested : b.ringbuf.Rested)
      (occupied : b.ringbuf.content ≠ []) : Stage b (b.ringbuf.content ++ chunkRest F fill p)
  | data {b : HttpBodyFile} {todo : Bytes} (here : Data b todo) : Stage b todo
  | eofOn {b : HttpBodyFile} {p : Nat} (state : b.chunkstate = .chunkEofOn)
      (sits : Sits cap At p b) (some_file : F ≠ []) (rested : b.ringbuf.Rested)
      (occupied : b.ringbuf.content ≠ []) :
      Stage b (b.ringbuf.content ++ chunkStream fill (F.drop p))
  | fileDone {b : HttpBodyFile} {p : Nat} (state : b.chunkstate = .chunkFileDone)
      (sits : Sits cap At p b) : Stage b nullChunk
  | nullOn {b : HttpBodyFile} {p : Nat} (state : b.chunkstate = .chunkNullOn)
      (sits : Sits cap At p b) (whole : F = [] → b.ringbuf.content = nullChunk)
      (rested : b.ringbuf.Rested) (occupied : b.ringbuf.content ≠ []) :
      Stage b b.ringbuf.content
  | done {b : HttpBodyFile} (state : b.chunkstate = .chunkNullDone) : Stage b []

end

section
variable {F : Bytes} {fill cap : Nat} {At : Nat → File → Prop}
  {Data : HttpBodyFile → Bytes → Prop} {ok : SendEvent → Prop} {send : RingSender}

/-- An empty file is sent anew after a recall: no send may split its last chunk. -/
def EmptyWhole (F : Bytes) (ok : SendEvent → Prop) : Prop :=
  F = [] → ∀ state used, ok (.ringSend state used) → ¬ CutShort used

/-- The last chunk is sent as far as the socket takes it. -/
theorem caseNullOn_advances (sends : Sends send) (whole : EmptyWhole F ok) {t : Transfer}
    {p : Nat} (sits : Sits cap At p t.body)
    (full : F = [] → t.body.ringbuf.content = nullChunk) (rested : t.body.ringbuf.Rested)
    (occupied : t.body.ringbuf.content ≠ []) (calm : Calm t) :
    Advances ok (Stage F fill cap At Data) 1 t t.body.ringbuf.content
      (t.caseNullOn send) := by
  have flushed : Advances ok (Stage F fill cap At Data) 1 t (t.body.ringbuf.content ++ [])
      (t.caseNullOn send) := by
    refine flush_advances sends rested occupied calm (by decide) ?_ ?_
    · rintro rb rested' capacity occupied' ⟨out, used, split, cut, allowed⟩
      rw [List.append_nil]
      refine .nullOn rfl ⟨sits.offset, sits.file, rested'.valid, capacity.trans sits.capacity⟩
        ?_ rested' occupied'
      intro empty
      have nothing : out = [] :=
        Classical.by_contradiction fun some_sent => whole empty _ _ allowed (cut some_sent)
      rw [nothing, List.nil_append] at split
      rw [← split, full empty]
    · intro rb t₁ _ _ _ _ _
      exact ⟨Or.inl rfl, [], ⟨rfl, List.suffix_rfl, Nat.le_refl _⟩, Nat.le_refl _, .done rfl⟩
  rwa [List.append_nil] at flushed

theorem caseFileDone_advances (sends : Sends send) (whole : EmptyWhole F ok) {t : Transfer}
    {p : Nat} (sits : Sits cap At p t.body) (calm : Calm t) :
    Advances ok (Stage F fill cap At Data) 1 t nullChunk (t.caseFileDone send) := by
  obtain ⟨offset, file, ring, capacity⟩ := sits
  have cleared : t.clearRing.body.ringbuf.Cleared := clear_cleared ring
  obtain ⟨rb, wrote, rested, content, same⟩ := writeRing_cleared cleared
    (show nullChunk ≠ [] by decide) (by decide)
  let t₁ := Transfer.setState { t with body := { t.body with ringbuf := rb } } .chunkNullOn
  have advances : Advances ok (Stage F fill cap At Data) 1 t₁ rb.content (t₁.caseNullOn send) :=
    caseNullOn_advances sends whole ⟨offset, file, rested.valid, same.trans capacity⟩
      (fun _ => content) rested (by show rb.content ≠ []; rw [content]; decide) calm
  rw [content] at advances
  rw [Transfer.caseFileDone, wrote]
  show Advances ok _ 1 t nullChunk (t₁.caseNullOn send)
  exact advances.of_body rfl rfl

/-- What follows the CRLF of the chunk that ends at `p`. -/
theorem chunkSent_advances (sends : Sends send)
    (measure : ∀ p f, At p f → f.getFileSize = F.length) {t : Transfer} {p : Nat}
    (sits : Sits cap At p t.body) (some_file : F ≠ []) (calm : Calm t) :
    Advances ok (Stage F fill cap At Data) 0 t (chunkStream fill (F.drop p))
      (t.chunkSent send) := by
  obtain ⟨offset, file, ring, capacity⟩ := sits
  have size : t.body.unread = F.length - p := by
    rw [unread, measure p _ file, offset]
  rw [Transfer.chunkSent]
  by_cases more : p < F.length
  · rw [if_pos (by show 0 < t.body.unread; omega)]
    exact fun _ => ⟨Or.inl rfl, _, ⟨rfl, List.suffix_rfl, Nat.le_refl _⟩, Nat.le_refl _,
      .start rfl ⟨offset, file, ring, capacity⟩ more rfl⟩
  · rw [if_neg (by show ¬ 0 < t.body.unread; omega), List.drop_eq_nil_of_le (by omega),
      chunkStream_nil]
    let t₁ := Transfer.setState
      { t with body := { t.body with chunksize := httpFileCacheSize } } .chunkFileDone
    have advances : Advances ok (Stage F fill cap At Data) 1 t₁ nullChunk
        (t₁.caseFileDone send) :=
      caseFileDone_advances sends (fun e => absurd e some_file)
        ⟨offset, file, ring, capacity⟩ calm
    exact advances.after ⟨rfl, List.suffix_rfl, Nat.le_refl _⟩ (Nat.le_succ _)

/-- What the cases of the chunk data must do behind a sent size line. -/
def DataAdvances (F : Bytes) (fill cap : Nat) (At : Nat → File → Prop)
    (Data : HttpBodyFile → Bytes → Prop) (ok : SendEvent → Prop)
    (data : Transfer → Except Transfer (CaseFlow × Transfer)) : Prop :=
  ∀ t p, Sits cap At p t.body → p < F.length →
    t.body.chunksize = ((min (F.length - p) 8192 : Nat) : Int) → t.body.ringbuf.Cleared → Calm t →
    Advances ok (Stage F fill cap At Data) 0 t (chunkRest F fill p) (data t)

/-- The size line is sent, and the data follow it. -/
theorem caseSizeOn_advances (sends : Sends send)
    {data : Transfer → Except Transfer (CaseFlow × Transfer)}
    (dataAdvances : DataAdvances F fill cap At Data ok data) {t : Transfer} {p : Nat}
    (sits : Sits cap At p t.body) (more : p < F.length)
    (size : t.body.chunksize = ((min (F.length - p) 8192 : Nat) : Int))
    (rested : t.body.ringbuf.Rested)
    (occupied : t.body.ringbuf.content ≠ []) (calm : Calm t) :
    Advances ok (Stage F fill cap At Data) 1 t
      (t.body.ringbuf.content ++ chunkRest F fill p) (t.caseSizeOn send data) := by
  obtain ⟨offset, file, ring, capacity⟩ := sits
  refine flush_advances sends rested occupied calm (by decide) ?_ ?_
  · intro rb rested' same occupied' _
    exact .sizeOn rfl ⟨offset, file, rested'.valid, same.trans capacity⟩ more size rested'
      occupied'
  · rintro rb t₁ cleared same body calm'
    have here : (t₁.setState .chunkSizeDone).body =
        { t.body with ringbuf := rb, chunkstate := .chunkSizeDone } := by
      simp only [Transfer.setState, body]
    refine Advances.of_body (dataAdvances _ p ?_ more ?_ ?_ calm') rfl rfl
    · rw [here]
      exact ⟨offset, file, cleared.valid, same.trans capacity⟩
    · rw [here]
      exact size
    · rw [here]
      exact cleared

theorem sizeLine (rest : Bytes) (positive : 0 < fill) (more : rest ≠ []) :
    chunkStream fill rest =
      (inter2HexString (min rest.length 8192 : Nat) ++ crlf) ++
        (rest.take fill ++ crlf ++ chunkStream fill (rest.drop fill)) := by
  rw [chunkStream_more positive more, inter2HexString]
  congr 4
  omega

/-- A chunk begins: its size line goes to the ring. -/
theorem caseUinit_advances (sends : Sends send) (positive : 0 < fill)
    (small : F.length < 2 ^ 63) (measure : ∀ p f, At p f → f.getFileSize = F.length)
    {data : Transfer → Except Transfer (CaseFlow × Transfer)}
    (dataAdvances : DataAdvances F fill cap At Data ok data) {t : Transfer} {p : Nat}
    (sits : Sits cap At p t.body) (more : p < F.length)
    (size : t.body.chunksize = httpFileCacheSize) (calm : Calm t) :
    Advances ok (Stage F fill cap At Data) 1 t (chunkStream fill (F.drop p))
      (t.caseUinit send data) := by
  obtain ⟨offset, file, ring, capacity⟩ := sits
  have left : sizeT t.body.unread = F.length - p := by
    apply sizeT_eq
    · rw [unread, measure p _ file, offset]
      omega
    · omega
  have some_left : F.drop p ≠ [] := by simpa using more
  have chosen : (if sizeT t.body.unread < sizeT t.body.chunksize then
      toInt (sizeT t.body.unread) else t.body.chunksize) =
        ((min (F.length - p) 8192 : Nat) : Int) := by
    rw [left, size, show sizeT httpFileCacheSize = 8192 from by decide]
    split_ifs with less
    · rw [toInt, Int.bmod_eq_of_le (by omega) (by omega)]
      omega
    · rw [httpFileCacheSize]
      omega
  let chunk : Int := (min (F.length - p) 8192 : Nat)
  let line := inter2HexString chunk ++ crlf
  have short : line.length ≤ ringbufferMinLength := by
    have := dec2hex_length (chunk % 2 ^ 32).toNat
    simp only [line, List.length_append, inter2HexString, crlf, ringbufferMinLength,
      List.length_cons, List.length_nil]
    omega
  let t₀ : Transfer := { t with body := { t.body with chunksize := chunk } }
  have cleared : t₀.clearRing.body.ringbuf.Cleared := clear_cleared ring
  obtain ⟨rb, wrote, rested, content, same⟩ :=
    writeRing_cleared cleared (show line ≠ [] by simp [line, crlf]) short
  let t₁ := Transfer.setState
    { t₀ with body := { t₀.body with ringbuf := rb } } .chunkSizeOn
  have advances : Advances ok (Stage F fill cap At Data) 1 t₁ (rb.content ++ chunkRest F fill p)
      (t₁.caseSizeOn send data) :=
    caseSizeOn_advances sends dataAdvances ⟨offset, file, rested.valid, same.trans capacity⟩ more
      rfl rested (by show rb.content ≠ []; rw [content]; simp [line, crlf]) calm
  have todo : rb.content ++ chunkRest F fill p = chunkStream fill (F.drop p) := by
    rw [content, sizeLine _ positive some_left, List.length_drop, chunkRest, List.drop_drop]
  rw [todo] at advances
  rw [Transfer.caseUinit]
  dsimp only
  rw [if_neg (by omega), chosen, wrote]
  exact advances.of_body rfl rfl

end

section
variable {F : Bytes} {fill cap : Nat} {At : Nat → File → Prop}
  {Data : HttpBodyFile → Bytes → Prop}

theorem stage_finished (running : ∀ b todo, Data b todo → b.chunkstate ≠ .chunkNullDone)
    (b : HttpBodyFile) (todo : Bytes) (stage : Stage F fill cap At Data b todo)
    (ended : b.chunkstate = .chunkNullDone) : todo = [] := by
  cases stage with
  | start state => simp [state] at ended
  | sizeOn state => simp [state] at ended
  | data here => exact absurd ended (running b todo here)
  | eofOn state => simp [state] at ended
  | fileDone state => simp [state] at ended
  | nullOn state => simp [state] at ended
  | done => rfl

theorem stage_size (measure : ∀ p f, At p f → f.getFileSize = F.length)
    (inside : ∀ b todo, Data b todo → b.file.getFileSize = F.length) (b : HttpBodyFile)
    (todo : Bytes) (stage : Stage F fill cap At Data b todo)
    (running : b.chunkstate ≠ .chunkNullDone) : b.file.getFileSize = F.length := by
  cases stage with
  | start _ sits => exact measure _ _ sits.file
  | sizeOn _ sits => exact measure _ _ sits.file
  | data here => exact inside b todo here
  | eofOn _ sits => exact measure _ _ sits.file
  | fileDone _ sits => exact measure _ _ sits.file
  | nullOn _ sits => exact measure _ _ sits.file
  | done state => exact absurd state running

end

section
variable {ok : SendEvent → Prop} {Stage : HttpBodyFile → Bytes → Prop}
  {switch : Transfer → Except Transfer (CaseFlow × Transfer)}

/-- What a call may do at `todo`: finish, or ask for a recall with less to send. -/
def CallAdvances (ok : SendEvent → Prop) (Stage : HttpBodyFile → Bytes → Prop) (t : Transfer)
    (todo : Bytes) : Except Transfer (Int × Transfer) → Prop
  | .error t' => Clean ok t' → moving t.results < todo.length
  | .ok (ret, t') => Clean ok t' →
    (ret = fileSendfileDone ∧ t'.sent = t.sent ++ todo) ∨
      ret = fileSendfileRecall ∧ ∃ todo', Moved t todo t' todo' ∧
        t'.results.length < t.results.length ∧ Stage t'.body todo' ∧
        t'.body.chunkstate ≠ .chunkNullDone

theorem CallAdvances.of_body {t t₁ : Transfer} {todo : Bytes}
    {result : Except Transfer (Int × Transfer)} (h : CallAdvances ok Stage t₁ todo result)
    (sent : t₁.sent = t.sent) (results : t₁.results = t.results) :
    CallAdvances ok Stage t todo result := by
  have moved : Moved t todo t₁ todo := ⟨by rw [sent], results ▸ List.suffix_rfl, by rw [results]⟩
  cases result with
  | error t' =>
    intro clean
    rw [← results]
    exact h clean
  | ok p =>
    intro clean
    rw [← sent, ← results]
    rcases h clean with done | ⟨recalled, todo', moved', later⟩
    · exact Or.inl done
    · exact Or.inr ⟨recalled, todo', moved.trans moved', later⟩

/-- A run that was clean at its end was clean at its start. -/
def Keeps {α : Type} (ok : SendEvent → Prop)
    (f : Transfer → Except Transfer (α × Transfer)) : Prop :=
  ∀ t, Clean ok (final (f t)) → Clean ok t

theorem keeps_any {α : Type} (f : Transfer → Except Transfer (α × Transfer)) :
    Keeps anyEvent f :=
  fun _ _ _ _ => trivial

theorem Grows.keeps {α : Type} {f : Transfer → Except Transfer (α × Transfer)}
    (grows : Grows f) : Keeps ok f :=
  fun t clean e he => clean e ((grows t).mem he)

/-- What a case keeps the loop keeps. -/
theorem chunkLoop_keeps (keeps : Keeps ok switch) (fuel : Nat) :
    Keeps ok (Transfer.chunkLoop switch fuel) := by
  induction fuel with
  | zero => exact fun t clean => clean
  | succ fuel ih =>
    intro t clean
    rw [Transfer.chunkLoop] at clean
    split_ifs at clean with ended
    · exact clean
    · apply keeps t
      cases h : switch t with
      | error t' =>
        rw [h] at clean
        exact clean
      | ok p =>
        obtain ⟨flow, t₁⟩ := p
        rw [h] at clean
        simp only [bind, Except.bind] at clean
        cases flow with
        | returned ret => exact clean
        | looping => exact ih t₁ clean

/-- When each case sends a part of what is to come, so does the loop; it ends when nothing is left
or when the results are used up. -/
theorem chunkLoop_advances (keeps : Keeps ok switch)
    (finished : ∀ b todo, Stage b todo → b.chunkstate = .chunkNullDone → todo = [])
    (step : ∀ t todo, Stage t.body todo → t.body.chunkstate ≠ .chunkNullDone → Calm t →
      Advances ok Stage 1 t todo (switch t))
    (fuel : Nat) (t : Transfer) (todo : Bytes) (stage : Stage t.body todo) (calm : Calm t)
    (enough : t.results.length + 1 < fuel) :
    CallAdvances ok Stage t todo (Transfer.chunkLoop switch fuel t) := by
  induction fuel generalizing t todo with
  | zero => omega
  | succ fuel ih =>
    rw [Transfer.chunkLoop]
    by_cases ended : t.body.chunkstate = .chunkNullDone
    · rw [if_pos ended, finished _ _ stage ended]
      exact fun _ => Or.inl ⟨rfl, (List.append_nil _).symm⟩
    rw [if_neg ended]
    have advances := step t todo stage ended calm
    cases h : switch t with
    | error t' =>
      rw [h] at advances
      exact advances
    | ok p =>
      obtain ⟨flow, t₁⟩ := p
      rw [h] at advances
      simp only [bind, Except.bind]
      cases flow with
      | returned ret =>
        intro clean
        obtain ⟨ends, todo', moved, used, stage'⟩ := advances clean
        rcases ends with looping | ⟨recalled, unfinished⟩
        · cases looping
        · cases recalled
          exact Or.inr ⟨rfl, todo', moved, by omega, stage', unfinished⟩
      | looping =>
        have back := chunkLoop_keeps keeps fuel t₁
        have later : ∀ todo', Moved t todo t₁ todo' → t₁.results.length + 1 ≤ t.results.length →
            Stage t₁.body todo' →
            CallAdvances ok Stage t₁ todo' (Transfer.chunkLoop switch fuel t₁) :=
          fun todo' moved used stage' =>
            ih t₁ todo' stage' (calm.suffix moved.suffix) (by omega)
        cases h₁ : Transfer.chunkLoop switch fuel t₁ with
        | error t' =>
          intro clean
          rw [h₁] at back
          obtain ⟨_, todo', moved, used, stage'⟩ := advances (back clean)
          have few := later todo' moved used stage'
          rw [h₁] at few
          have short := few clean
          have pace := moved.pace
          omega
        | ok p =>
          obtain ⟨ret, t'⟩ := p
          intro clean
          rw [h₁] at back
          obtain ⟨_, todo', moved, used, stage'⟩ := advances (back clean)
          have result := later todo' moved used stage'
          rw [h₁] at result
          rcases result clean with
            ⟨done, sent⟩ | ⟨recalled, todo'', moved', used', stage'', unfinished⟩
          · exact Or.inl ⟨done, by rw [sent, moved.sent]⟩
          · exact Or.inr ⟨recalled, todo'', moved.trans moved', by omega, stage'', unfinished⟩

theorem resume_keeps {call : Transfer → Except Transfer (Int × Transfer)} (keeps : Keeps ok call)
    (fuel : Nat) : Keeps ok (Transfer.resume call fuel) := by
  induction fuel with
  | zero => exact fun t clean => clean
  | succ fuel ih =>
    intro t clean
    rw [Transfer.resume] at clean
    apply keeps t
    cases h : call t with
    | error t' =>
      rw [h] at clean
      exact clean
    | ok p =>
      obtain ⟨ret, t₁⟩ := p
      rw [h] at clean
      simp only [bind, Except.bind] at clean
      split_ifs at clean with again
      · exact ih t₁ clean
      · exact clean

/-- What all calls together do at `todo`. -/
def RunAdvances (ok : SendEvent → Prop) (t : Transfer) (todo : Bytes) :
    Except Transfer (Int × Transfer) → Prop
  | .error t' => Clean ok t' → moving t.results < todo.length
  | .ok (ret, t') => Clean ok t' → ret = fileSendfileDone ∧ t'.sent = t.sent ++ todo

/-- Calling again after every recall. -/
theorem resume_advances {call : Transfer → Except Transfer (Int × Transfer)}
    (keeps : Keeps ok call)
    (step : ∀ t todo, Stage t.body todo → t.body.chunkstate ≠ .chunkNullDone → Calm t →
      CallAdvances ok Stage t todo (call t))
    (fuel : Nat) (t : Transfer) (todo : Bytes) (stage : Stage t.body todo)
    (unfinished : t.body.chunkstate ≠ .chunkNullDone) (calm : Calm t)
    (enough : t.results.length < fuel) :
    RunAdvances ok t todo (Transfer.resume call fuel t) := by
  induction fuel generalizing t todo with
  | zero => omega
  | succ fuel ih =>
    rw [Transfer.resume]
    have advances := step t todo stage unfinished calm
    cases h : call t with
    | error t' =>
      rw [h] at advances
      exact advances
    | ok p =>
      obtain ⟨ret, t₁⟩ := p
      rw [h] at advances
      simp only [bind, Except.bind]
      by_cases again : ret = fileSendfileRecall
      · rw [if_pos again]
        have back := resume_keeps keeps fuel t₁
        have later : Clean ok t₁ → ∃ todo', Moved t todo t₁ todo' ∧
            RunAdvances ok t₁ todo' (Transfer.resume call fuel t₁) := by
          intro clean
          rcases advances clean with ⟨done, _⟩ | ⟨_, todo', moved, used, stage', unfinished'⟩
          · rw [again] at done
            exact absurd done (by decide)
          · exact ⟨todo', moved, ih t₁ todo' stage' unfinished' (calm.suffix moved.suffix)
              (by omega)⟩
        cases h₁ : Transfer.resume call fuel t₁ with
        | error t' =>
          intro clean
          rw [h₁] at back
          obtain ⟨todo', moved, result⟩ := later (back clean)
          rw [h₁] at result
          have short := result clean
          have pace := moved.pace
          omega
        | ok p =>
          obtain ⟨ret', t'⟩ := p
          intro clean
          rw [h₁] at back
          obtain ⟨todo', moved, result⟩ := later (back clean)
          rw [h₁] at result
          obtain ⟨done, sent⟩ := result clean
          exact ⟨done, by rw [sent, moved.sent]⟩
      · rw [if_neg again]
        intro clean
        rcases advances clean with finished | ⟨recalled, _⟩
        · exact finished
        · exact absurd recalled again

end

end ChunkSending
