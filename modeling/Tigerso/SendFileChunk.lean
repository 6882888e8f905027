import Tigerso.ChunkSending
import Tigerso.FileRanges

/-!
# sendFileChunk: chunk data through sendfile

A run sends the chunk stream of its file as long as three things do not happen:
a `sendfile` that sends part of what it was asked for (the offset then advances
twice), a send that takes one byte of the CRLF behind a chunk (the return value is
not 0, so the other byte is dropped), and, for an empty file, a send that takes part
of the last chunk (the next call starts it anew).
-/

open SystemCalls DiskFile RingBuffer HttpBodyFile ChunkSending

namespace SendFileChunk

/-- The events that keep a run of `sendFileChunk` on the file `F` intact. -/
def Intact (F : Bytes) : SendEvent → Prop
  | .sendfile count (some (.took n)) => count ≤ n + 1
  | .sendfile _ _ => True
  | .ringSend state used => state = .chunkEofOn ∨ F = [] → ¬ CutShort used

instance (F : Bytes) (e : SendEvent) : Decidable (Intact F e) := by
  rcases e with _ | ⟨_, _ | _ | _ | _⟩ <;> simp only [Intact, CutShort] <;> infer_instance

/-- The file holds `F` and its descriptor is usable. -/
structure FileOn (F : Bytes) (_p : Nat) (f : File) : Prop where
  named : f.named = true
  disk : f.disk = some F
  readable : f.readable = true
  usable : f.fd ≠ .dangling

section
variable {F : Bytes} {cap : Nat} {send : RingSender} {sockfd : Fd}

theorem FileOn.contents {p : Nat} {f : File} (h : FileOn F p f) : f.contents = F := by
  rw [File.contents, if_pos h.named, h.disk]
  rfl

theorem FileOn.size {p : Nat} {f : File} (h : FileOn F p f) : f.getFileSize = F.length := by
  rw [File.getFileSize, h.contents]

theorem FileOn.openRead {p : Nat} {f : File} (h : FileOn F p f) : FileOn F p f.openRead := by
  obtain ⟨named, disk, readable, usable⟩ := h
  rw [File.openRead]
  split_ifs
  · exact ⟨named, disk, readable, usable⟩
  · exact ⟨named, disk, readable, by simp⟩

theorem FileOn.reset {p q : Nat} {f : File} (h : FileOn F p f) : FileOn F q f.reset :=
  ⟨h.named, h.disk, h.readable, by simp [File.reset, File.close]⟩

/-- Within the file, on a non-blocking socket, the call comes to its `sendfile` loop. -/
theorem send2SocketRange_loop {p count : Nat} {f : File} (h : FileOn F p f)
    (valid : sockfd.valid = true) (nonblock : sockfd.nonblock = true) (positive : 0 < count)
    (inside : p + count ≤ F.length) (small : F.length < 2 ^ 63) (results : List WriteResult) :
    f.send2SocketRange sockfd p count results = f.openRead.sendRangeNonblock p count results := by
  have exists_ : f.testExist = true := by simp [File.testExist, h.named, h.disk]
  have reads : f.testRead = true := by simp [File.testRead, exists_, h.readable]
  have sum : sizeT ((p : Int) + count) = p + count := sizeT_eq (by simp) (by omega)
  have whole : f.leftInRange p count = count := by
    rw [File.leftInRange, if_neg (by rw [sum, h.size]; omega), ssizeT_of_small (by omega)]
  have accepts : ¬ f.openRead.sendfileRefuses p count := by
    simp only [File.sendfileRefuses, h.openRead.usable, false_or]
    omega
  rw [File.send2SocketRange, if_neg (by simp [valid]), if_neg (by rw [h.size]; omega),
    if_neg (by simp [exists_, reads]), whole, File.sendLeft, if_pos nonblock,
    if_neg (fun both => accepts both.2)]
  rfl

theorem sendRange_full {p count n : Nat} (positive : 0 < count) (inside : p + count ≤ F.length)
    (full : count ≤ n + 1) (rest : List WriteResult) :
    sendRange F (.took n :: rest) p count =
      ⟨some fileSendfileDone, ((p + count : Nat) : Int), (F.drop p).take count, rest⟩ := by
  have within : (p : Int).toNat + count ≤ F.length := inside
  rw [FileRanges.sendRange_whole positive full within]
  rfl

theorem fileCaseEofOn_grows (send : RingSender) : Grows (Transfer.fileCaseEofOn send) := by
  intro t
  have first := sendRing_grows send t
  rw [Transfer.fileCaseEofOn]
  generalize t.sendRing send = result at first
  cases result with
  | error t' => exact first
  | ok p =>
    obtain ⟨ret, t'⟩ := p
    simp only [bind, Except.bind]
    split_ifs
    · exact first
    · exact first
    · exact first.trans (chunkSent_grows send t')

theorem fileCaseDataDone_grows (send : RingSender) :
    Grows (Transfer.fileCaseDataDone send) := by
  intro t
  have later : Grows fun t => Transfer.fileCaseEofOn send (t.setState .chunkEofOn) :=
    fun t => fileCaseEofOn_grows send (t.setState .chunkEofOn)
  exact writeRing_grows later t.clearRing t rfl

/-- Asking for chunk data is logged, whatever comes of it. -/
theorem fileCaseDataOn_logs (sockfd : Fd) (send : RingSender) (t : Transfer) :
    t.log ++ [.sendfile (sizeT t.body.chunksize) t.results.head?] <+:
      (final (t.fileCaseDataOn sockfd send)).log := by
  rw [Transfer.fileCaseDataOn]
  dsimp only
  split
  · exact List.prefix_rfl
  · split_ifs
    · exact List.prefix_rfl
    · exact List.prefix_rfl
    · exact (fileCaseDataDone_grows send).of_log rfl

theorem fileCaseDataOn_grows (sockfd : Fd) (send : RingSender) :
    Grows (Transfer.fileCaseDataOn sockfd send) :=
  fun t => (List.prefix_append _ _).trans (fileCaseDataOn_logs sockfd send t)

theorem fileSwitch_grows (sockfd : Fd) (send : RingSender) :
    Grows (Transfer.fileSwitch sockfd send) := by
  intro t
  rw [Transfer.fileSwitch]
  split
  · exact caseUinit_grows send (fileCaseDataOn_grows sockfd send) t
  · exact caseSizeOn_grows send (fileCaseDataOn_grows sockfd send) t
  · exact fileCaseDataOn_grows sockfd send t
  · exact fileCaseDataOn_grows sockfd send t
  · exact fileCaseDataDone_grows send t
  · exact fileCaseEofOn_grows send t
  · exact caseFileDone_grows send t
  · exact caseNullOn_grows send t
  · exact List.prefix_rfl

/-- Chunk data still in the file. -/
inductive InFile (F : Bytes) (cap : Nat) : HttpBodyFile → Bytes → Prop
  | dataOn {b : HttpBodyFile} {p : Nat} (state : b.chunkstate = .chunkEDataOn)
      (sits : Sits cap (FileOn F) p b) (more : p < F.length)
      (size : b.chunksize = ((min (F.length - p) 8192 : Nat) : Int)) :
      InFile F cap b (chunkRest F 8192 p)

/-- The stages of `sendFileChunk`. -/
abbrev Stages (F : Bytes) (cap : Nat) : HttpBodyFile → Bytes → Prop :=
  Stage F 8192 cap (FileOn F) (InFile F cap)

theorem emptyWhole (F : Bytes) : EmptyWhole F (Intact F) :=
  fun empty _ _ allowed => allowed (Or.inr empty)

/-- The CRLF behind a chunk, and what follows it. -/
theorem fileCaseEofOn_advances (sends : Sends send) {t : Transfer} {p : Nat}
    (sits : Sits cap (FileOn F) p t.body) (some_file : F ≠ [])
    (state : t.body.chunkstate = .chunkEofOn) (rested : t.body.ringbuf.Rested)
    (occupied : t.body.ringbuf.content ≠ []) (calm : Calm t) :
    Advances (Intact F) (Stages F cap) 1 t
      (t.body.ringbuf.content ++ chunkStream 8192 (F.drop p)) (t.fileCaseEofOn send) := by
  obtain ⟨offset, file, ring, capacity⟩ := sits
  have sent := sendRing_spec sends rested occupied calm
  apply Advances.of_clean
  rw [Transfer.fileCaseEofOn]
  generalize t.sendRing send = result at sent
  cases sent with
  | starved few =>
    intro _ _
    rw [List.length_append]
    omega
  | @returned rb out rest split rested' same cleared _ suffix used pace cut =>
    simp only [bind, Except.bind]
    rw [if_neg (by omega)]
    by_cases nothing : out = []
    · subst nothing
      rw [if_pos (by decide)]
      intro _ _
      rw [List.nil_append] at split
      rw [split]
      refine ⟨Or.inr ⟨rfl, by simp [Transfer.setState]⟩, _, ⟨?_, suffix, ?_⟩, ?_, .eofOn rfl
        ⟨offset, file, rested'.valid, same.trans capacity⟩ some_file rested' (split ▸ occupied)⟩
      · simp only [Transfer.setState, List.append_nil]
      · simp only [Transfer.setState, List.length_nil, Nat.add_zero] at pace ⊢
        omega
      · simp only [Transfer.setState]
        omega
    · have took := List.length_pos_iff.mpr nothing
      rw [if_neg (by rw [fileSendfileRecall]; omega)]
      intro clean
      have whole : ¬ CutShort (spent t.results rest) :=
        clean (.ringSend t.body.chunkstate (spent t.results rest))
          ((chunkSent_grows send _).mem (by simp)) (Or.inl state)
      have empty : rb.content = [] :=
        Classical.by_contradiction fun some_left => whole (cut nothing some_left)
      rw [empty, List.append_nil] at split
      let t₁ : Transfer := ⟨{ t.body with ringbuf := rb }, t.sent ++ out, rest, t.log ++
        [.ringSend t.body.chunkstate (spent t.results rest)]⟩
      have advances : Advances (Intact F) (Stages F cap) 0 t₁ (chunkStream 8192 (F.drop p))
          (t₁.chunkSent send) :=
        chunkSent_advances sends (fun _ _ => FileOn.size)
          ⟨offset, file, (cleared empty).valid, same.trans capacity⟩ some_file (calm.suffix suffix)
      refine advances.after ⟨?_, suffix, ?_⟩ (by simp only [t₁]; omega)
      · rw [split, List.append_assoc]
      · rw [split, List.length_append]
        simp only [t₁]
        omega

theorem fileCaseDataDone_advances (sends : Sends send) {t : Transfer} {p : Nat}
    (sits : Sits cap (FileOn F) p t.body) (some_file : F ≠ []) (calm : Calm t) :
    Advances (Intact F) (Stages F cap) 1 t (crlf ++ chunkStream 8192 (F.drop p))
      (t.fileCaseDataDone send) := by
  obtain ⟨offset, file, ring, capacity⟩ := sits
  have cleared : t.clearRing.body.ringbuf.Cleared := clear_cleared ring
  obtain ⟨rb, wrote, rested, content, same⟩ :=
    writeRing_cleared cleared (show crlf ≠ [] by decide) (by decide)
  let t₁ := Transfer.setState { t with body := { t.body with ringbuf := rb } } .chunkEofOn
  have advances : Advances (Intact F) (Stages F cap) 1 t₁
      (rb.content ++ chunkStream 8192 (F.drop p)) (t₁.fileCaseEofOn send) :=
    fileCaseEofOn_advances sends ⟨offset, file, rested.valid, same.trans capacity⟩ some_file rfl
      rested (by show rb.content ≠ []; rw [content]; decide) calm
  rw [content] at advances
  rw [Transfer.fileCaseDataDone, wrote]
  exact advances.of_body rfl rfl

/-- A chunk of the file, as `sendfile` is asked for it. -/
theorem chunkRest_split (F : Bytes) (p : Nat) :
    chunkRest F 8192 p = (F.drop p).take (min (F.length - p) 8192) ++
      (crlf ++ chunkStream 8192 (F.drop (p + min (F.length - p) 8192))) := by
  have asked : (F.drop p).take (min (F.length - p) 8192) = (F.drop p).take 8192 := by
    rw [Nat.min_comm, ← List.take_take,
      List.take_of_length_le (i := F.length - p) (by rw [List.length_drop])]
  have later := drop_taken F p 8192
  rw [List.length_take, List.length_drop, Nat.min_comm] at later
  rw [chunkRest, asked, later, List.append_assoc]

/-- The data of a chunk, over `sendfile`; a chunk that was cut is gone on with. -/
theorem fileCaseDataOn_advances (sends : Sends send) (valid : sockfd.valid = true)
    (nonblock : sockfd.nonblock = true) (small : F.length < 2 ^ 63) {t : Transfer} {p : Nat}
    (sits : Sits cap (FileOn F) p t.body) (more : p < F.length)
    (size : t.body.chunksize = ((min (F.length - p) 8192 : Nat) : Int)) (calm : Calm t) :
    Advances (Intact F) (Stages F cap) 1 t (chunkRest F 8192 p)
      (t.fileCaseDataOn sockfd send) := by
  obtain ⟨offset, file, ring, capacity⟩ := sits
  have some_file : F ≠ [] := List.ne_nil_of_length_pos (by omega)
  obtain ⟨count, hcount⟩ : ∃ count, count = min (F.length - p) 8192 := ⟨_, rfl⟩
  rw [← hcount] at size
  have asked : sizeT t.body.chunksize = count := by
    rw [size]
    apply sizeT_eq <;> omega
  have todo := chunkRest_split F p
  rw [← hcount] at todo
  have length : ((F.drop p).take count).length = count := by
    rw [List.length_take, List.length_drop]
    omega
  apply Advances.of_clean
  intro clean
  have logged := clean _ ((fileCaseDataOn_logs sockfd send t).mem
    (List.mem_append_right _ (List.mem_singleton_self _)))
  rw [asked] at logged
  rw [Transfer.fileCaseDataOn, asked, offset]
  rw [send2SocketRange_loop file valid nonblock (by omega) (by omega) small, File.sendRangeNonblock,
    file.openRead.contents]
  cases results : t.results with
  | nil =>
    rw [sendRange, if_neg (by omega)]
    intro _
    rw [results, todo, List.length_append, length, moving_nil]
    omega
  | cons r rest =>
    have suffix : rest <:+ t.results := results ▸ List.suffix_cons r rest
    cases r with
    | took n =>
      have full : count ≤ n + 1 := by rwa [results] at logged
      rw [sendRange_full (by omega) (by omega) full]
      let t₁ : Transfer := Transfer.setState ⟨{ t.body with
          file := t.body.file.openRead.reset, readoffset := (p + count : Nat) },
        t.sent ++ (F.drop p).take count, rest,
        t.log ++ [.sendfile count (some (.took n))]⟩ .chunkEDataDone
      have advances : Advances (Intact F) (Stages F cap) 1 t₁
          (crlf ++ chunkStream 8192 (F.drop (p + count))) (t₁.fileCaseDataDone send) :=
        fileCaseDataDone_advances sends ⟨rfl, file.openRead.reset, ring, capacity⟩ some_file
          (calm.suffix suffix)
      refine advances.after ⟨?_, suffix, ?_⟩ ?_
      · show t.sent ++ (F.drop p).take count ++ _ = _
        rw [todo, List.append_assoc]
      · show moving t.results + _ ≤ moving rest + _
        rw [results, moving_took, todo]
        simp only [List.length_append, length]
        omega
      · show rest.length + 1 ≤ t.results.length + 1
        have := suffix.length_le
        omega
    | wouldBlock =>
      rw [sendRange, if_neg (by omega)]
      intro _
      refine ⟨Or.inr ⟨rfl, by simp [Transfer.setState]⟩, _, ⟨?_, suffix, ?_⟩, ?_, .data (.dataOn rfl
        ⟨rfl, file.openRead, ring, capacity⟩ more ?_)⟩
      · show t.sent ++ [] ++ _ = _
        rw [List.append_nil]
      · show moving t.results + _ ≤ moving rest + _
        rw [results, moving_of_not_took (by simp [WriteResult.IsTook])]
      · show rest.length + 1 ≤ t.results.length
        rw [results]
        exact Nat.le_refl _
      · show toInt (t.body.chunksize - (p - p)) = _
        rw [size, hcount, toInt, Int.bmod_eq_of_le (by omega) (by omega)]
        omega
    | failed => exact absurd rfl (calm .failed (by rw [results]; exact List.mem_cons_self))

/-- Every case sends a part of the chunks that are to come, as long as no chunk is split. -/
theorem fileSwitch_advances (sends : Sends send) (valid : sockfd.valid = true)
    (nonblock : sockfd.nonblock = true) (small : F.length < 2 ^ 63) (t : Transfer) (todo : Bytes)
    (stage : Stages F cap t.body todo) (running : t.body.chunkstate ≠ .chunkNullDone)
    (calm : Calm t) :
    Advances (Intact F) (Stages F cap) 1 t todo (t.fileSwitch sockfd send) := by
  have dataAdvances : DataAdvances F 8192 cap (FileOn F) (InFile F cap) (Intact F)
      (Transfer.fileCaseDataOn sockfd send) := fun t p sits more size _ calm =>
    (fileCaseDataOn_advances sends valid nonblock small sits more size calm).after (.refl t _)
      (by omega)
  rw [Transfer.fileSwitch]
  cases stage with
  | start state sits more size =>
    simp only [state]
    exact caseUinit_advances sends (by decide) small (fun _ _ => FileOn.size) dataAdvances sits
      more size calm
  | sizeOn state sits more size rested occupied =>
    simp only [state]
    exact caseSizeOn_advances sends dataAdvances sits more size rested occupied calm
  | data here =>
    cases here with
    | dataOn state sits more size =>
      simp only [state]
      exact fileCaseDataOn_advances sends valid nonblock small sits more size calm
  | eofOn state sits some_file rested occupied =>
    simp only [state]
    exact fileCaseEofOn_advances sends sits some_file state rested occupied calm
  | fileDone state sits =>
    simp only [state]
    exact caseFileDone_advances sends (emptyWhole F) sits calm
  | nullOn state sits whole rested occupied =>
    simp only [state]
    exact caseNullOn_advances sends (emptyWhole F) sits whole rested occupied calm
  | done state => exact absurd state running

theorem inFile_running (b : HttpBodyFile) (todo : Bytes) (here : InFile F cap b todo) :
    b.chunkstate ≠ .chunkNullDone := by
  cases here with
  | dataOn state => simp [state]

theorem inFile_size (b : HttpBodyFile) (todo : Bytes) (here : InFile F cap b todo) :
    b.file.getFileSize = F.length := by
  cases here with
  | dataOn _ sits => exact sits.file.size

/-- The last chunk of an empty file is started anew, which changes nothing as long
as none of it was sent. -/
theorem enter_stage {t : Transfer} {todo : Bytes} (stage : Stages F cap t.body todo)
    (running : t.body.chunkstate ≠ .chunkNullDone) : Stages F cap t.enter.body todo := by
  rw [Transfer.enter]
  split_ifs with none
  · rw [stage_size (fun _ _ => FileOn.size) inFile_size _ _ stage running,
      List.length_eq_zero_iff] at none
    subst none
    cases stage with
    | start _ _ more => exact absurd more (Nat.not_lt_zero _)
    | sizeOn _ _ more => exact absurd more (Nat.not_lt_zero _)
    | data here =>
      cases here with
      | dataOn _ _ more => exact absurd more (Nat.not_lt_zero _)
    | eofOn _ _ some_file => exact absurd rfl some_file
    | fileDone state sits =>
      exact .fileDone rfl ⟨sits.offset, sits.file, sits.ring, sits.capacity⟩
    | nullOn state sits whole =>
      rw [whole rfl]
      exact .fileDone rfl ⟨sits.offset, sits.file, sits.ring, sits.capacity⟩
    | done state => exact absurd state running
  · exact stage

theorem enter_same (t : Transfer) :
    t.enter.sent = t.sent ∧ t.enter.results = t.results ∧ t.enter.log = t.log := by
  rw [Transfer.enter]
  split_ifs <;> exact ⟨rfl, rfl, rfl⟩

theorem sendFileChunk_keeps (sockfd : Fd) : Keeps (Intact F) (Transfer.sendFileChunk sockfd) := by
  intro t clean
  have kept := chunkLoop_keeps (fileSwitch_grows sockfd _).keeps _ _ clean
  rwa [Clean, (enter_same t).2.2] at kept

theorem sendFileChunk_advances (valid : sockfd.valid = true) (nonblock : sockfd.nonblock = true)
    (small : F.length < 2 ^ 63) (t : Transfer) (todo : Bytes) (stage : Stages F cap t.body todo)
    (running : t.body.chunkstate ≠ .chunkNullDone) (calm : Calm t) :
    CallAdvances (Intact F) (Stages F cap) t todo (t.sendFileChunk sockfd) := by
  obtain ⟨sent, results, _⟩ := enter_same t
  have loop := chunkLoop_advances
    (fileSwitch_grows sockfd (RingBuffer.send2SocketFd · sockfd)).keeps
    (stage_finished inFile_running)
    (fileSwitch_advances (sends_fd valid nonblock) valid nonblock small) (t.results.length + 3)
    t.enter todo (enter_stage stage running) (by rwa [Calm, results]) (by rw [results]; omega)
  exact loop.of_body sent results

end

/-- A new body for the file `F`, and the calls of `sendFileChunk` until it is done. -/
def run (bufsize : Nat) (garbage : Nat → Byte) (sockfd : Fd) (F : Bytes)
    (results : List WriteResult) : Except Transfer (Int × Transfer) :=
  Transfer.sendAll (Transfer.sendFileChunk sockfd)
    ⟨(HttpBodyFile.construct bufsize garbage).setFile (some F) true, [], results, []⟩

section
variable {F : Bytes} {sockfd : Fd}

theorem sendFileChunk_enter (t : Transfer) :
    t.enter.sendFileChunk sockfd = t.sendFileChunk sockfd := by
  have again : t.enter.enter = t.enter := by
    by_cases none : t.body.file.getFileSize = 0
    · simp [Transfer.enter, Transfer.setState, none]
    · simp [Transfer.enter, none]
  rw [Transfer.sendFileChunk, Transfer.sendFileChunk, again, (enter_same t).2.1]

theorem sendAll_enter (t : Transfer) :
    Transfer.sendAll (Transfer.sendFileChunk sockfd) t.enter =
      Transfer.sendAll (Transfer.sendFileChunk sockfd) t := by
  rw [Transfer.sendAll, Transfer.sendAll, (enter_same t).2.1, Transfer.resume, Transfer.resume,
    sendFileChunk_enter]

/-- What the first call enters with. -/
theorem start_stage (bufsize : Nat) (garbage : Nat → Byte) (results : List WriteResult) :
    let t : Transfer :=
      ⟨(HttpBodyFile.construct bufsize garbage).setFile (some F) true, [], results, []⟩
    Stages F (clampLength bufsize + 1) t.enter.body (chunkStream 8192 F) ∧
      t.enter.body.chunkstate ≠ .chunkNullDone := by
  intro t
  have sits : ∀ b : HttpBodyFile, b.readoffset = 0 → b.file = t.body.file →
      b.ringbuf = t.body.ringbuf → Sits (clampLength bufsize + 1) (FileOn F) 0 b := by
    intro b offset file ring
    refine ⟨offset, ?_, ?_, ?_⟩
    · rw [file]
      exact ⟨rfl, rfl, rfl, show Descriptor.closed ≠ .dangling by decide⟩
    · rw [ring]
      exact clear_valid (construct_valid bufsize garbage)
    · rw [ring]
      rfl
  have size : t.body.file.getFileSize = F.length := FileOn.size (sits t.body rfl rfl rfl).file
  rw [Transfer.enter, size]
  split_ifs with none
  · obtain rfl := List.length_eq_zero_iff.mp none
    rw [chunkStream_nil]
    exact ⟨.fileDone (p := 0) rfl (sits (t.setState .chunkFileDone).body rfl rfl rfl),
      show ChunkState.chunkFileDone ≠ .chunkNullDone by decide⟩
  · exact ⟨.start (p := 0) rfl (sits _ rfl rfl rfl) (by omega) rfl,
      show ChunkState.chunkUinit ≠ .chunkNullDone by decide⟩

/-- A run without the three splits: the calls send a chunked coding of the file, and
they finish when enough sends move bytes. -/
theorem intact_run_encodes (small : F.length < 2 ^ 63) (bufsize : Nat) (garbage : Nat → Byte)
    (valid : sockfd.valid = true) (nonblock : sockfd.nonblock = true)
    (results : List WriteResult) (calm : ∀ r ∈ results, r ≠ .failed)
    (intact : ∀ e ∈ (final (run bufsize garbage sockfd F results)).log, Intact F e) :
    (∀ ret t, run bufsize garbage sockfd F results = .ok (ret, t) →
      ret = fileSendfileDone ∧ ChunkedCoding.Chunked t.sent F) ∧
    ((chunkStream 8192 F).length ≤ moving results →
      ∃ t, run bufsize garbage sockfd F results = .ok (fileSendfileDone, t)) := by
  let t : Transfer :=
    ⟨(HttpBodyFile.construct bufsize garbage).setFile (some F) true, [], results, []⟩
  obtain ⟨stage, running⟩ := start_stage (F := F) bufsize garbage results
  obtain ⟨sent, left, _⟩ := enter_same t
  have advances : RunAdvances (Intact F) t.enter (chunkStream 8192 F)
      (run bufsize garbage sockfd F results) := by
    rw [run, ← sendAll_enter]
    exact resume_advances (sendFileChunk_keeps sockfd)
      (sendFileChunk_advances valid nonblock small) _ t.enter _ stage running
      (by rwa [Calm, left]) (Nat.lt_succ_self _)
  cases ends : run bufsize garbage sockfd F results with
  | error t' =>
    rw [ends] at advances intact
    have few := advances intact
    rw [left] at few
    exact ⟨fun _ _ e => (by cases e), fun enough => absurd few (Nat.not_lt.mpr enough)⟩
  | ok p =>
    obtain ⟨ret, t'⟩ := p
    rw [ends] at advances intact
    obtain ⟨rfl, coded⟩ := advances intact
    rw [sent] at coded
    have chunked : ChunkedCoding.Chunked t'.sent F := by
      rw [coded]
      exact chunkStream_chunked (by decide) (Or.inl rfl)
    exact ⟨fun _ _ e => by cases e; exact ⟨rfl, chunked⟩, fun _ => ⟨t', rfl⟩⟩

end

section
variable {ret : Int} {sent : Bytes}

def outcome : Except Transfer (Int × Transfer) → Option (Int × Bytes)
  | .error _ => none
  | .ok (ret, t) => some (ret, t.sent)

theorem of_outcome {result : Except Transfer (Int × Transfer)}
    (h : outcome result = some (ret, sent)) : ∃ t, result = .ok (ret, t) ∧ t.sent = sent := by
  cases result with
  | error t => cases h
  | ok p =>
    cases h
    exact ⟨p.2, rfl, rfl⟩

end

def hello : Bytes := [104, 101, 108, 108, 111]

/-- `hello`, with sends that take nothing, or the size line or the last chunk in part. -/
theorem hello_encodes :
    ∃ t, run 8192 (fun _ => 0) ⟨true, true, true⟩ hello
        ([.took 0, .wouldBlock, .took 0, .took 0, .wouldBlock, .took 4, .wouldBlock] ++
          List.replicate 12 (.took 1)) = .ok (fileSendfileDone, t) ∧
      ChunkedCoding.Chunked t.sent hello := by
  obtain ⟨coded, finishes⟩ := intact_run_encodes (F := hello) (by decide) 8192 (fun _ => 0)
    (show Fd.valid ⟨true, true, true⟩ = true from rfl) rfl
    ([.took 0, .wouldBlock, .took 0, .took 0, .wouldBlock, .took 4, .wouldBlock] ++
      List.replicate 12 (.took 1)) (by decide) (by decide +kernel)
  obtain ⟨t, ends⟩ := finishes (by
    rw [chunkStream_more (by decide) (by decide)]
    have none_left : hello.drop 8192 = [] := by decide
    rw [none_left, chunkStream_nil]
    decide)
  exact ⟨t, ends, (coded _ t ends).2⟩

/-- A `sendfile` of 3 of the 5 bytes of `hello`, a send of one byte of the CRLF behind
them, and a send of two bytes of an empty file's last chunk: each run returns as done
with a stream that codes another body or none. -/
theorem splits_misframe :
    (∃ t, run 8192 (fun _ => 0) ⟨true, true, true⟩ hello
        [.took 9, .took 2, .wouldBlock, .took 9, .took 9, .took 9] =
          .ok (fileSendfileDone, t) ∧ ¬ ChunkedCoding.Chunked t.sent hello) ∧
      (∃ t, run 8192 (fun _ => 0) ⟨true, true, true⟩ hello
          [.took 9, .took 9, .took 0, .wouldBlock, .took 9] =
            .ok (fileSendfileDone, t) ∧ ¬ ChunkedCoding.Chunked t.sent hello) ∧
      ∃ t, run 8192 (fun _ => 0) ⟨true, true, true⟩ [] [.took 1, .wouldBlock, .took 9] =
        .ok (fileSendfileDone, t) ∧ ¬ ChunkedCoding.Chunked t.sent [] := by
  have five : ChunkedCoding.value [53] = some 5 := by decide
  refine ⟨?_, ?_, ?_⟩
  · obtain ⟨t, ends, sent⟩ := of_outcome (show outcome (run 8192 (fun _ => 0) ⟨true, true, true⟩
      hello [.took 9, .took 2, .wouldBlock, .took 9, .took 9, .took 9]) =
        some (1, [53] ++ crlf ++ ([104, 101, 108] ++ crlf ++ nullChunk)) by decide +kernel)
    refine ⟨t, ends, fun coded => ?_⟩
    rw [sent] at coded
    exact absurd (coded.first_ends five (by decide)) (by decide)
  · obtain ⟨t, ends, sent⟩ := of_outcome (show outcome (run 8192 (fun _ => 0) ⟨true, true, true⟩
      hello [.took 9, .took 9, .took 0, .wouldBlock, .took 9]) =
        some (1, [53] ++ crlf ++ (hello ++ [13] ++ nullChunk)) by decide +kernel)
    refine ⟨t, ends, fun coded => ?_⟩
    rw [sent] at coded
    exact absurd (coded.first_ends five (by decide)) (by decide)
  · obtain ⟨t, ends, sent⟩ := of_outcome (show outcome (run 8192 (fun _ => 0) ⟨true, true, true⟩
      [] [.took 1, .wouldBlock, .took 9]) = some (1, [48, 13] ++ nullChunk) by decide +kernel)
    refine ⟨t, ends, fun coded => ?_⟩
    rw [sent] at coded
    exact absurd coded.of_nil (by decide)

end SendFileChunk
