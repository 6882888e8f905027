import Tigerso.ChunkSending

/-!
# sendChunk: chunk data through the ring buffer

The size line counts up to 8192 bytes while the ring is filled with as many bytes
as it can store. The two agree for every file exactly when the ring stores 8192
bytes; for files that fit into one chunk they agree on rings of any size.
-/

open SystemCalls DiskFile RingBuffer HttpBodyFile ChunkSending

namespace SendChunk

/-- The file holds `F`, and its first `p` bytes have been read. -/
structure FileAt (F : Bytes) (p : Nat) (f : File) : Prop where
  named : f.named = true
  disk : f.disk = some F
  readable : f.readable = true
  position : p < F.length → f.fd = .opened p ∨ f.fd = .closed ∧ p = 0

section
variable {F : Bytes} {fill cap : Nat} {send : RingSender}

theorem FileAt.contents {p : Nat} {f : File} (h : FileAt F p f) : f.contents = F := by
  rw [File.contents, if_pos h.named, h.disk]
  rfl

theorem FileAt.size {p : Nat} {f : File} (h : FileAt F p f) : f.getFileSize = F.length := by
  rw [File.getFileSize, h.contents]

theorem readFd_at {p len : Nat} {f : File} (h : FileAt F p f) (opened : f.fd = .opened p) :
    ∃ f', f.readFd len .full = ((((F.drop p).take len).length : Int), (F.drop p).take len, f') ∧
      FileAt F (p + ((F.drop p).take len).length) f' := by
  obtain ⟨named, disk, readable, _⟩ := h
  have contents := FileAt.contents ⟨named, disk, readable, fun _ => Or.inl opened⟩
  simp only [File.readFd, opened, File.readAt, contents]
  split_ifs with short
  · refine ⟨_, rfl, named, disk, readable, fun more => ?_⟩
    rw [List.length_take, List.length_drop] at short more
    omega
  · exact ⟨_, rfl, named, disk, readable, fun _ => Or.inl rfl⟩

/-- A full read of the unread bytes. -/
theorem continuousReadOut_at {p len : Nat} {f : File} (h : FileAt F p f) (more : p < F.length)
    (asked : len ≠ 0) :
    ∃ f', f.continuousReadOut len .full =
        ((((F.drop p).take len).length : Int), (F.drop p).take len, f') ∧
      FileAt F (p + ((F.drop p).take len).length) f' := by
  have exists_ : f.testExist = true := by simp [File.testExist, h.named, h.disk]
  have reads : f.testRead = true := by simp [File.testRead, exists_, h.readable]
  rw [File.continuousReadOut, if_neg asked, if_neg (by simp [exists_, reads])]
  rcases h.position more with opened | ⟨closed, rfl⟩
  · rw [if_neg (by simp [File.validFd, opened])]
    exact readFd_at h opened
  · rw [if_pos (by simp [File.validFd, closed])]
    exact readFd_at ⟨h.named, h.disk, h.readable, fun _ => Or.inl rfl⟩ rfl

/-- A cleared ring is filled with the next unread bytes. -/
theorem writeInFromFile_at {p : Nat} {f : File} {rb : RingBuffer} (cleared : rb.Cleared)
    (h : FileAt F p f) (more : p < F.length) :
    ∃ rb' f', rb.writeInFromFile f .full .full =
        some ((((F.drop p).take (rb.capacity - 1)).length : Int), rb', f') ∧
      rb'.Rested ∧ rb'.content = (F.drop p).take (rb.capacity - 1) ∧
      rb'.capacity = rb.capacity ∧
      FileAt F (p + ((F.drop p).take (rb.capacity - 1)).length) f' := by
  obtain ⟨bytes, hbytes⟩ : ∃ bytes, bytes = (F.drop p).take (rb.capacity - 1) := ⟨_, rfl⟩
  have hroom := cleared.valid.room
  have hlimit := cleared.valid.limit
  have hspace := space_eq cleared.valid
  rw [cleared.content, List.length_nil, Nat.sub_zero] at hspace
  simp only [ringbufferMinLength, ringbufferMaxLength] at hroom hlimit
  have short : bytes.length ≤ rb.capacity - 1 := hbytes ▸ List.length_take_le _ _
  obtain ⟨f', read, at'⟩ := continuousReadOut_at h more (show rb.capacity - 1 ≠ 0 by omega)
  rw [← hbytes] at read at' ⊢
  obtain ⟨rb₁, copied, _, ⟨valid, content, capacity, readptr⟩⟩ := append_right cleared.valid
    (by rw [cleared.read]; exact Nat.zero_le _) bytes
    (by rw [cleared.write]; omega) (by rw [cleared.content, List.length_nil]; omega)
  have asked : sizeT (rb.capacity - rb.writeptr - 1 : Int) = rb.capacity - 1 := by
    rw [cleared.write]
    apply sizeT_eq <;> omega
  have filled : rb.fillAt f rb.writeptr (sizeT (rb.capacity - rb.writeptr - 1 : Int)) .full =
      some ((bytes.length : Int), { rb₁ with writeptr := rb.writeptr + bytes.length }, f') := by
    rw [fillAt, asked, read]
    dsimp only
    rw [if_neg (by omega), copied]
    rfl
  have noLeft : ¬ (0 : Int) ≤ rb.readptr - 1 := by
    rw [cleared.read]
    decide
  refine ⟨{ rb₁ with writeptr := rb.writeptr + bytes.length }, f', ?_, ⟨valid, ?_, ?_⟩, ?_,
    capacity, at'⟩
  · have order : rb.readptr ≤ rb.writeptr := by
      rw [cleared.read]
      exact Nat.zero_le _
    have free : ¬ rb.isFull = true := by
      rw [isFull_iff]
      omega
    rw [writeInFromFile, if_neg free, if_pos order]
    dsimp only
    rw [if_neg noLeft, if_neg noLeft, filled]
    simp only [Option.bind_eq_bind, Option.bind_some]
    rw [if_neg (by omega)]
    by_cases partly : (bytes.length : Int) < rb.capacity - rb.writeptr - 1
    · rw [if_pos partly]
    · have all : rb.space = bytes.length := by
        rw [cleared.write] at partly
        omega
      rw [if_neg partly, if_neg (Int.lt_irrefl 0), all]
  · have inside : 0 < rb.capacity := by omega
    rwa [readptr, cleared.read, capacity]
  · rw [capacity, cleared.write]
    show 0 + bytes.length < rb.capacity
    omega
  · rw [content, cleared.content, List.nil_append]

/-- Chunk data in the ring: the file has been read up to `p`. -/
inductive InRing (F : Bytes) (fill cap : Nat) : HttpBodyFile → Bytes → Prop
  | dataOn {b : HttpBodyFile} {p : Nat} (state : b.chunkstate = .chunkEDataOn)
      (sits : Sits cap (FileAt F) p b) (some_file : F ≠ []) (rested : b.ringbuf.Rested)
      (occupied : b.ringbuf.content ≠ []) :
      InRing F fill cap b (b.ringbuf.content ++ (crlf ++ chunkStream fill (F.drop p)))

/-- The stages of `sendChunk`. -/
abbrev Stages (F : Bytes) (fill cap : Nat) : HttpBodyFile → Bytes → Prop :=
  Stage F fill cap (FileAt F) (InRing F fill cap)

theorem chunkCaseEofOn_advances (sends : Sends send) {t : Transfer} {p : Nat}
    (sits : Sits cap (FileAt F) p t.body) (some_file : F ≠ [])
    (rested : t.body.ringbuf.Rested) (occupied : t.body.ringbuf.content ≠ []) (calm : Calm t) :
    Advances anyEvent (Stages F fill cap) 1 t
      (t.body.ringbuf.content ++ chunkStream fill (F.drop p)) (t.chunkCaseEofOn send) := by
  obtain ⟨offset, file, ring, capacity⟩ := sits
  refine flush_advances sends rested occupied calm (by decide) ?_ ?_
  · intro rb rested' same occupied' _
    exact .eofOn rfl ⟨offset, file, rested'.valid, same.trans capacity⟩ some_file rested' occupied'
  · intro rb t₁ cleared same body calm'
    refine chunkSent_advances sends (fun _ _ => FileAt.size) ?_ some_file calm'
    rw [body]
    exact ⟨offset, file, cleared.valid, same.trans capacity⟩

theorem chunkCaseDataDone_advances (sends : Sends send) {t : Transfer} {p : Nat}
    (sits : Sits cap (FileAt F) p t.body) (some_file : F ≠ [])
    (cleared : t.body.ringbuf.Cleared) (calm : Calm t) :
    Advances anyEvent (Stages F fill cap) 1 t (crlf ++ chunkStream fill (F.drop p))
      (t.chunkCaseDataDone send) := by
  obtain ⟨offset, file, ring, capacity⟩ := sits
  obtain ⟨rb, wrote, rested, content, same⟩ :=
    writeRing_cleared cleared (show crlf ≠ [] by decide) (by decide)
  let t₁ := Transfer.setState { t with body := { t.body with ringbuf := rb } } .chunkEofOn
  have advances : Advances anyEvent (Stages F fill cap) 1 t₁
      (rb.content ++ chunkStream fill (F.drop p)) (t₁.chunkCaseEofOn send) :=
    chunkCaseEofOn_advances sends ⟨offset, file, rested.valid, same.trans capacity⟩ some_file
      rested (by show rb.content ≠ []; rw [content]; decide) calm
  rw [content] at advances
  rw [Transfer.chunkCaseDataDone, wrote]
  exact advances.of_body rfl rfl

/-- The data of a chunk, from the ring. -/
theorem chunkCaseDataOn_advances (sends : Sends send) {t : Transfer} {p : Nat}
    (sits : Sits cap (FileAt F) p t.body) (some_file : F ≠ [])
    (rested : t.body.ringbuf.Rested) (occupied : t.body.ringbuf.content ≠ []) (calm : Calm t) :
    Advances anyEvent (Stages F fill cap) 1 t
      (t.body.ringbuf.content ++ (crlf ++ chunkStream fill (F.drop p)))
      (t.chunkCaseDataOn send) := by
  obtain ⟨offset, file, ring, capacity⟩ := sits
  refine flush_advances sends rested occupied calm (by decide) ?_ ?_
  · intro rb rested' same occupied' _
    exact .data (.dataOn rfl ⟨offset, file, rested'.valid, same.trans capacity⟩ some_file rested'
      occupied')
  · intro rb t₁ cleared same body calm'
    have here : (t₁.setState .chunkEDataDone).body =
        { t.body with ringbuf := rb, chunkstate := .chunkEDataDone } := by
      simp only [Transfer.setState, body]
    have sits' : Sits cap (FileAt F) p (t₁.setState .chunkEDataDone).body := by
      rw [here]
      exact ⟨offset, file, cleared.valid, same.trans capacity⟩
    exact (chunkCaseDataDone_advances sends sits' some_file (by rw [here]; exact cleared)
      calm').after ⟨rfl, List.suffix_rfl, Nat.le_refl _⟩ (Nat.le_succ _)

/-- The data of a chunk fit the ring. -/
theorem chunkCaseSizeDone_advances (sends : Sends send) (fits : fill = cap - 1) :
    DataAdvances F fill cap (FileAt F) (InRing F fill cap) anyEvent
      (Transfer.chunkCaseSizeDone send) := by
  intro t p sits more _ cleared calm
  obtain ⟨offset, file, ring, capacity⟩ := sits
  obtain ⟨rb, f, filled, rested, content, same, at'⟩ := writeInFromFile_at cleared file more
  rw [capacity, ← fits] at filled content at'
  have some_file : F ≠ [] := List.ne_nil_of_length_pos (by omega)
  have roomy : 0 < fill := by
    have room : 1024 < t.body.ringbuf.capacity := ring.room
    omega
  let n := ((F.drop p).take fill).length
  let t₁ : Transfer := Transfer.setState { t with body := { t.body with
    ringbuf := rb, file := f, readoffset := t.body.readoffset + n } } .chunkSizeDone
  have sits' : Sits cap (FileAt F) (p + n) t₁.body :=
    ⟨by show t.body.readoffset + n = (p + n : Nat); rw [offset]; rfl, at', rested.valid,
      same.trans capacity⟩
  have occupied : t₁.body.ringbuf.content ≠ [] := by
    show rb.content ≠ []
    rw [content]
    simp
    omega
  have advances : Advances anyEvent (Stages F fill cap) 1 t₁ (t₁.body.ringbuf.content ++
      (crlf ++ chunkStream fill (F.drop (p + n)))) (t₁.chunkCaseDataOn send) :=
    chunkCaseDataOn_advances sends sits' some_file rested occupied calm
  have todo : rb.content ++ (crlf ++ chunkStream fill (F.drop (p + n))) = chunkRest F fill p := by
    rw [content, chunkRest, drop_taken, List.append_assoc]
  rw [show t₁.body.ringbuf = rb from rfl, todo] at advances
  rw [Transfer.chunkCaseSizeDone, filled]
  dsimp only
  rw [if_neg (by omega)]
  exact advances.after ⟨rfl, List.suffix_rfl, Nat.le_refl _⟩ (Nat.le_succ _)

/-- Every case sends a part of the chunks that are to come. -/
theorem chunkSwitch_advances (sends : Sends send) (fits : fill = cap - 1)
    (positive : 0 < fill) (small : F.length < 2 ^ 63) (some_file : F ≠ []) (t : Transfer)
    (todo : Bytes) (stage : Stages F fill cap t.body todo)
    (running : t.body.chunkstate ≠ .chunkNullDone) (calm : Calm t) :
    Advances anyEvent (Stages F fill cap) 1 t todo (t.chunkSwitch send) := by
  have dataAdvances := chunkCaseSizeDone_advances (F := F) sends fits
  rw [Transfer.chunkSwitch]
  cases stage with
  | start state sits more size =>
    simp only [state]
    exact caseUinit_advances sends positive small (fun _ _ => FileAt.size) dataAdvances sits more
      size calm
  | sizeOn state sits more size rested occupied =>
    simp only [state]
    exact caseSizeOn_advances sends dataAdvances sits more size rested occupied calm
  | data here =>
    cases here with
    | dataOn state sits _ rested occupied =>
      simp only [state]
      exact chunkCaseDataOn_advances sends sits some_file rested occupied calm
  | eofOn state sits _ rested occupied =>
    simp only [state]
    exact chunkCaseEofOn_advances sends sits some_file rested occupied calm
  | fileDone state sits =>
    simp only [state]
    exact caseFileDone_advances sends (fun e => absurd e some_file) sits calm
  | nullOn state sits whole rested occupied =>
    simp only [state]
    exact caseNullOn_advances sends (fun e => absurd e some_file) sits whole rested occupied calm
  | done state => exact absurd state running

theorem inRing_running (b : HttpBodyFile) (todo : Bytes) (here : InRing F fill cap b todo) :
    b.chunkstate ≠ .chunkNullDone := by
  cases here with
  | dataOn state => simp [state]

theorem inRing_size (b : HttpBodyFile) (todo : Bytes) (here : InRing F fill cap b todo) :
    b.file.getFileSize = F.length := by
  cases here with
  | dataOn _ sits => exact sits.file.size

theorem sendChunk_advances (isSSL : Bool) (fits : fill = cap - 1) (positive : 0 < fill)
    (small : F.length < 2 ^ 63) (some_file : F ≠ []) (t : Transfer) (todo : Bytes)
    (stage : Stages F fill cap t.body todo) (running : t.body.chunkstate ≠ .chunkNullDone)
    (calm : Calm t) :
    CallAdvances anyEvent (Stages F fill cap) t todo (t.sendChunk isSSL) := by
  have some_size : t.body.file.getFileSize ≠ 0 := by
    rw [stage_size (fun _ _ => FileAt.size) inRing_size _ _ stage running]
    exact List.length_pos_iff.mpr some_file |>.ne'
  rw [Transfer.sendChunk, Transfer.enter, if_neg some_size]
  exact chunkLoop_advances (keeps_any _) (stage_finished inRing_running)
    (chunkSwitch_advances (sends_socket isSSL) fits positive small some_file) _ t todo stage calm
    (by omega)

end

/-- A new body for the file `F`, and the calls of `sendChunk` until it is done. -/
def run (bufsize : Nat) (garbage : Nat → Byte) (isSSL : Bool) (F : Bytes)
    (results : List WriteResult) : Except Transfer (Int × Transfer) :=
  Transfer.sendAll (Transfer.sendChunk isSSL)
    ⟨(HttpBodyFile.construct bufsize garbage).setFile (some F) true, [], results, []⟩

/-- Whatever the sends do short of failing, the calls send a chunked coding of the
file, and they finish when enough sends move bytes. -/
def Encodes (bufsize : Nat) (F : Bytes) : Prop :=
  ∀ garbage isSSL,
    (∀ results, (∀ r ∈ results, r ≠ .failed) → ∀ ret t,
      run bufsize garbage isSSL F results = .ok (ret, t) →
        ret = fileSendfileDone ∧ ChunkedCoding.Chunked t.sent F) ∧
    ∃ N, ∀ results, (∀ r ∈ results, r ≠ .failed) → N ≤ moving results →
      ∃ t, run bufsize garbage isSSL F results = .ok (fileSendfileDone, t)

section
variable {F : Bytes} {bufsize : Nat}

theorem start_stage (bufsize : Nat) (garbage : Nat → Byte) (some_file : F ≠ []) :
    Stages F (clampLength bufsize) (clampLength bufsize + 1)
      ((HttpBodyFile.construct bufsize garbage).setFile (some F) true)
      (chunkStream (clampLength bufsize) F) := by
  have more : 0 < F.length := List.length_pos_iff.mpr some_file
  exact .start (p := 0) rfl
    ⟨rfl, ⟨rfl, rfl, rfl, fun _ => Or.inr ⟨rfl, rfl⟩⟩,
      clear_valid (construct_valid bufsize garbage), rfl⟩ more rfl

/-- A nonempty file is sent as its chunk stream, however the sends are cut. -/
theorem run_advances (bufsize : Nat) (garbage : Nat → Byte) (isSSL : Bool)
    (small : F.length < 2 ^ 63) (some_file : F ≠ []) (results : List WriteResult)
    (calm : ∀ r ∈ results, r ≠ .failed) :
    RunAdvances anyEvent
      ⟨(HttpBodyFile.construct bufsize garbage).setFile (some F) true, [], results, []⟩
      (chunkStream (clampLength bufsize) F) (run bufsize garbage isSSL F results) := by
  obtain ⟨positive, _⟩ := clampLength_bounds bufsize
  simp only [ringbufferMinLength] at positive
  exact resume_advances (keeps_any _)
    (sendChunk_advances isSSL (Nat.add_sub_cancel _ 1).symm (by omega) small some_file) _ _ _
    (start_stage bufsize garbage some_file)
    (show ChunkState.chunkUinit ≠ .chunkNullDone by decide) calm (Nat.lt_succ_self _)

/-- A ring of 8192 bytes holds every chunk; a smaller one, a file of one chunk. -/
theorem encodes_of_fits (small : F.length < 2 ^ 63) (some_file : F ≠ [])
    (fits : clampLength bufsize = 8192 ∨ F.length ≤ min (clampLength bufsize) 8192) :
    Encodes bufsize F := by
  obtain ⟨positive, _⟩ := clampLength_bounds bufsize
  simp only [ringbufferMinLength] at positive
  intro garbage isSSL
  refine ⟨?_, (chunkStream (clampLength bufsize) F).length, ?_⟩
  · intro results calm ret t ends
    have result := run_advances bufsize garbage isSSL small some_file results calm
    rw [ends] at result
    obtain ⟨done, sent⟩ := result fun _ _ => trivial
    rw [sent]
    exact ⟨done, chunkStream_chunked (by omega) fits⟩
  · intro results calm enough
    have result := run_advances bufsize garbage isSSL small some_file results calm
    cases ends : run bufsize garbage isSSL F results with
    | error t =>
      rw [ends] at result
      have few := result fun _ _ => trivial
      simp only at few
      omega
    | ok p =>
      obtain ⟨ret, t⟩ := p
      rw [ends] at result
      obtain ⟨rfl, _⟩ := result fun _ _ => trivial
      exact ⟨t, rfl⟩

/-- A chunk stream whose first chunk is not as long as its size line codes no file
without a carriage return. -/
theorem chunkStream_not_chunked {fill : Nat} (positive : 0 < fill) (some_file : F ≠ [])
    (plain : 13 ∉ F) (misfit : ¬ (fill = 8192 ∨ F.length ≤ min fill 8192)) :
    ¬ ChunkedCoding.Chunked (chunkStream fill F) F := by
  have hpos := List.length_pos_iff.mpr some_file
  intro coded
  rw [chunkStream_more positive some_file] at coded
  obtain ⟨data, rest, body, size, tail, split, _⟩ :=
    coded.first_chunk (Dechex.dec2hex_value (by omega)) (by omega)
  have cr : ∀ k : Nat, F[k]? ≠ some 13 := fun k e => plain (List.mem_of_getElem? e)
  rcases Nat.lt_or_ge fill (min F.length 8192) with under | beyond
  · -- the data ends early: the CRLF of the chunk is taken for data
    have left : (F.take fill ++ crlf ++ chunkStream fill (F.drop fill))[fill]? = some 13 := by
      rw [List.append_assoc, List.getElem?_append_right (by rw [List.length_take]; omega),
        List.length_take, Nat.min_eq_left (by omega), Nat.sub_self]
      rfl
    rw [tail, List.append_assoc, List.getElem?_append_left (by omega)] at left
    apply cr fill
    rw [split, List.getElem?_append_left (by omega)]
    exact left
  · -- the data goes on where the CRLF should stand
    have right : (data ++ ChunkedCoding.crlf ++ rest)[8192]? = some 13 := by
      rw [List.append_assoc, List.getElem?_append_right (by omega), size,
        Nat.min_eq_right (by omega), Nat.sub_self]
      rfl
    rw [← tail, List.append_assoc, List.getElem?_append_left (by rw [List.length_take]; omega),
      List.getElem?_take_of_lt (by omega)] at right
    exact cr _ right

theorem fits_of_encodes (small : F.length < 2 ^ 63) (some_file : F ≠ []) (plain : 13 ∉ F)
    (encodes : Encodes bufsize F) :
    clampLength bufsize = 8192 ∨ F.length ≤ min (clampLength bufsize) 8192 := by
  by_contra misfit
  obtain ⟨positive, _⟩ := clampLength_bounds bufsize
  simp only [ringbufferMinLength] at positive
  obtain ⟨coded, N, finishes⟩ := encodes (fun _ => 0) true
  let results : List WriteResult := List.replicate N (.took 0)
  have calm : ∀ r ∈ results, r ≠ .failed := by
    intro r hr
    rw [List.eq_of_mem_replicate hr]
    decide
  obtain ⟨t, ends⟩ := finishes results calm (by rw [moving_replicate])
  have result := run_advances bufsize (fun _ => 0) true small some_file results calm
  rw [ends] at result
  obtain ⟨_, sent⟩ := result fun _ _ => trivial
  obtain ⟨_, chunked⟩ := coded results calm _ _ ends
  rw [sent] at chunked
  exact chunkStream_not_chunked (by omega) some_file plain misfit chunked

end

section
variable {t : Transfer}

theorem caseFileDone_loads (valid : t.body.ringbuf.Valid) :
    ∃ rb : RingBuffer, rb.Rested ∧ rb.content = nullChunk ∧ ∀ send, t.caseFileDone send =
      Transfer.caseNullOn send
        { t with body := { t.body with ringbuf := rb, chunkstate := .chunkNullOn } } := by
  have cleared : t.clearRing.body.ringbuf.Cleared := clear_cleared valid
  obtain ⟨rb, wrote, rested, content, _⟩ := writeRing_cleared cleared
    (show nullChunk ≠ [] by decide) (by decide)
  refine ⟨rb, rested, content, fun send => ?_⟩
  rw [Transfer.caseFileDone, wrote]
  rfl

/-- Only the first two bytes of the last chunk are taken. -/
theorem caseNullOn_two_bytes (rested : t.body.ringbuf.Rested)
    (content : t.body.ringbuf.content = nullChunk) {rest : List WriteResult}
    (next : t.results = .took 0 :: .took 0 :: .wouldBlock :: rest) :
    ∃ t₁, t.caseNullOn (RingBuffer.send2Socket · true) = .ok (.returned fileSendfileRecall, t₁) ∧
      t₁.sent = t.sent ++ [48, 13] ∧ t₁.results = rest ∧ t₁.body.file = t.body.file ∧
      t₁.body.ringbuf.Valid := by
  obtain ⟨ret, rb, sent, valid, pending⟩ :=
    send2Socket_bytes 2 rested (by rw [content]; decide) rest
  rw [content] at sent
  change t.body.ringbuf.send2Socket true (.took 0 :: .took 0 :: .wouldBlock :: rest) = _ at sent
  rw [Transfer.caseNullOn, Transfer.flush, Transfer.sendRing, next, sent]
  simp only [bind, Except.bind]
  rw [if_neg (by omega), if_pos pending]
  exact ⟨_, rfl, rfl, rfl, rfl, valid⟩

/-- Every send takes a byte. -/
theorem caseNullOn_all (rested : t.body.ringbuf.Rested)
    (content : t.body.ringbuf.content = nullChunk)
    (next : t.results = List.replicate 5 (.took 0)) :
    ∃ t₁, t.caseNullOn (RingBuffer.send2Socket · true) = .ok (.looping, t₁) ∧
      t₁.sent = t.sent ++ nullChunk ∧ t₁.body.chunkstate = .chunkNullDone := by
  have calm : Calm t := by
    intro r hr
    rw [next] at hr
    rw [List.eq_of_mem_replicate hr]
    decide
  have took : ∀ r ∈ t.results, r.IsTook := by
    intro r hr
    rw [next] at hr
    rw [List.eq_of_mem_replicate hr]
    exact trivial
  have sent := sendRing_spec (sends_socket true) rested (by rw [content]; decide) calm
  rw [Transfer.caseNullOn, Transfer.flush]
  generalize t.sendRing (RingBuffer.send2Socket · true) = result at sent
  cases sent with
  | starved few =>
    rw [next, moving_replicate, content] at few
    exact absurd few (by decide)
  | @returned rb out rest split rested' _ _ complete _ _ _ _ =>
    have empty := complete took
    rw [content, empty, List.append_nil] at split
    simp only [bind, Except.bind]
    rw [if_neg (by omega), if_neg (by rw [size_eq rested'.valid, empty]; simp), ← split]
    exact ⟨_, rfl, rfl, rfl⟩

theorem sendChunk_recalls (empty : t.body.file.getFileSize = 0) (valid : t.body.ringbuf.Valid)
    {rest : List WriteResult} (next : t.results = .took 0 :: .took 0 :: .wouldBlock :: rest) :
    ∃ t₁, t.sendChunk true = .ok (fileSendfileRecall, t₁) ∧ t₁.sent = t.sent ++ [48, 13] ∧
      t₁.results = rest ∧ t₁.body.file = t.body.file ∧ t₁.body.ringbuf.Valid := by
  obtain ⟨rb, rested, content, loads⟩ := caseFileDone_loads (t := t.setState .chunkFileDone) valid
  obtain ⟨t₁, result, sent, left, file, valid'⟩ := caseNullOn_two_bytes
    (t := { t with body := { t.body with ringbuf := rb, chunkstate := .chunkNullOn } })
    rested content next
  refine ⟨t₁, ?_, sent, left, file, valid'⟩
  rw [Transfer.sendChunk, Transfer.enter, if_pos empty, Transfer.chunkLoop,
    if_neg (by simp [Transfer.setState])]
  simp only [Transfer.chunkSwitch, Transfer.setState] at loads ⊢
  rw [loads, result]
  rfl

theorem sendChunk_finishes (empty : t.body.file.getFileSize = 0) (valid : t.body.ringbuf.Valid)
    (next : t.results = List.replicate 5 (.took 0)) :
    ∃ t₁, t.sendChunk true = .ok (fileSendfileDone, t₁) ∧ t₁.sent = t.sent ++ nullChunk := by
  obtain ⟨rb, rested, content, loads⟩ := caseFileDone_loads (t := t.setState .chunkFileDone) valid
  obtain ⟨t₁, result, sent, ended⟩ := caseNullOn_all
    (t := { t with body := { t.body with ringbuf := rb, chunkstate := .chunkNullOn } })
    rested content next
  refine ⟨t₁.resetBody, ?_, sent⟩
  rw [Transfer.sendChunk, Transfer.enter, if_pos empty, Transfer.chunkLoop,
    if_neg (by simp [Transfer.setState])]
  simp only [Transfer.chunkSwitch, Transfer.setState] at loads ⊢
  rw [loads, result]
  simp only [bind, Except.bind]
  rw [Transfer.chunkLoop, if_pos ended]

end

def cutLastChunk : List WriteResult :=
  .took 0 :: .took 0 :: .wouldBlock :: List.replicate 5 (.took 0)

/-- An empty file whose last chunk is cut after two bytes is ended twice. -/
theorem run_empty (bufsize : Nat) (garbage : Nat → Byte) :
    ∃ t, run bufsize garbage true [] cutLastChunk = .ok (fileSendfileDone, t) ∧
      t.sent = 48 :: 13 :: nullChunk := by
  have valid : ((HttpBodyFile.construct bufsize garbage).setFile (some []) true).ringbuf.Valid :=
    clear_valid (construct_valid bufsize garbage)
  obtain ⟨t₁, first, sent₁, left, file, valid₁⟩ := sendChunk_recalls
    (t := ⟨(HttpBodyFile.construct bufsize garbage).setFile (some []) true, [], cutLastChunk, []⟩)
    rfl valid rfl
  obtain ⟨t₂, second, sent₂⟩ := sendChunk_finishes (t := t₁) (by rw [file]; rfl) valid₁ left
  refine ⟨t₂, ?_, by rw [sent₂, sent₁]; rfl⟩
  show Transfer.resume (Transfer.sendChunk true) (7 + 1 + 1) _ = _
  rw [Transfer.resume, first]
  simp only [bind, Except.bind]
  rw [if_pos trivial, Transfer.resume, second]
  rfl

/-- For every file length: the files of that length are sent as a chunked coding
of themselves, whatever the sends do, exactly when there is a file to send and the
ring stores what the size lines count. -/
theorem encodes_iff (bufsize n : Nat) (small : n < 2 ^ 63) :
    (∀ F : Bytes, F.length = n → Encodes bufsize F) ↔
      0 < n ∧ (clampLength bufsize = 8192 ∨ n ≤ min (clampLength bufsize) 8192) := by
  constructor
  · intro encodes
    have positive : 0 < n := by
      rcases Nat.eq_zero_or_pos n with rfl | positive
      · obtain ⟨t, ends, sent⟩ := run_empty bufsize fun _ => 0
        obtain ⟨coded, _⟩ := encodes [] rfl (fun _ => 0) true
        obtain ⟨_, chunked⟩ := coded _ (by decide) _ _ ends
        rw [sent] at chunked
        exact absurd chunked.of_nil (by decide)
      · exact positive
    refine ⟨positive, ?_⟩
    have some_file : List.replicate n (0 : Byte) ≠ [] := by simp; omega
    have fits := fits_of_encodes (by rwa [List.length_replicate]) some_file
      (fun cr => by rw [List.mem_replicate] at cr; exact absurd cr.2 (by decide))
      (encodes _ List.length_replicate)
    rwa [List.length_replicate] at fits
  · rintro ⟨positive, fits⟩ F rfl
    exact encodes_of_fits small (List.ne_nil_of_length_pos positive) fits

/-- A file of five bytes on a ring of the default length. -/
theorem encodes_five : Encodes ringbufferDefaultLength [104, 101, 108, 108, 111] :=
  (encodes_iff ringbufferDefaultLength 5 (by decide)).mpr ⟨by decide, Or.inl rfl⟩ _ rfl

/-- The empty file on a ring of the default length, and a file that is one byte
longer than its ring. -/
theorem empty_and_long_misframed : ¬ Encodes ringbufferDefaultLength [] ∧
    ¬ Encodes 1024 (List.replicate 1025 0) := by
  constructor
  · intro encodes
    obtain ⟨t, ends, sent⟩ := run_empty ringbufferDefaultLength fun _ => 0
    obtain ⟨_, chunked⟩ := (encodes (fun _ => 0) true).1 _ (by decide) _ _ ends
    rw [sent] at chunked
    exact absurd chunked.of_nil (by decide)
  · intro encodes
    have fits := fits_of_encodes (by rw [List.length_replicate]; decide)
      (List.ne_nil_of_length_pos (by rw [List.length_replicate]; decide))
      (fun cr => by rw [List.mem_replicate] at cr; exact absurd cr.2 (by decide)) encodes
    rw [List.length_replicate] at fits
    exact absurd fits (by decide)

end SendChunk
