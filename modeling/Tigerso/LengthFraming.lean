import Tigerso.ChunkSending
import Tigerso.HttpMessage
import Tigerso.NetBuffer

/-!
# Messages framed by their length

A message without chunks is sent as its header and then whatever `send2Socket` makes
of the body: nothing when there is no file on the disk, the file and a CRLF through
`sendfile`, the ring, the file and a CRLF through the ring. The body that the
setters stored is the file followed by the ring.
-/

open SystemCalls DiskFile RingBuffer HttpBodyFile Buffer ChunkSending

namespace LengthFraming

/-- A body as the setters leave it: nothing of it has been sent. -/
structure Unsent (b : HttpBodyFile) : Prop where
  plain : b.chunked = false
  ring : b.ringbuf.Valid
  closed : b.file.fd = .closed
  start : b.file.cur = 0
  unread : b.file.readdone = false
  pending : b.sendContentDone = false
  fresh : b.chunkstate = .chunkUinit

/-- The body that was stored: full rings were flushed behind the file. -/
def payload (b : HttpBodyFile) : Bytes := b.file.contents ++ b.ringbuf.content

/-- `attachHttpMessage`, then `sendToSocket` until the message is sent. -/
def run (sendfile : Bool) (mcsock : Socket) (buf : Buffer) (msg : HttpMessage)
    (results : List WriteResult) : Except Delivery (Int × Delivery) :=
  match buf.attachHttpMessage msg.getHeader true with
  | none => .error ⟨buf, ⟨msg.body, [], results, []⟩⟩
  | some buf =>
    Delivery.sendUntilDone sendfile mcsock (results.length + 1)
      ⟨buf, ⟨msg.body, [], results, []⟩⟩

/-- Whatever the sends do short of failing, what is sent is the header and
Content-Length bytes that are the body, and all of it is sent when enough sends move
bytes. -/
def Framed (sendfile : Bool) (mcsock : Socket) (msg : HttpMessage) : Prop :=
  ∀ buf : Buffer, buf.Allocated →
    (∀ results, (∀ r ∈ results, r ≠ .failed) → ∀ ret d,
      run sendfile mcsock buf msg results = .ok (ret, d) →
        ret = tigersoIoOk ∧ ∃ body, d.transfer.sent = msg.getHeader ++ body ∧
          (body.length : Int) = msg.getContentLength ∧ body = payload msg.body) ∧
    ∃ N, ∀ results, (∀ r ∈ results, r ≠ .failed) → N ≤ moving results →
      ∃ d, run sendfile mcsock buf msg results = .ok (tigersoIoOk, d)

section
variable {sendfile : Bool} {mcsock : Socket} {Stage : HttpBodyFile → Bytes → Prop}

/-- What one `sendToSocket` does to a message with `header` and `todo` unsent. -/
inductive Step (Stage : HttpBodyFile → Bytes → Prop) (d : Delivery) (header todo : Bytes) :
    Except Delivery (Int × Delivery) → Prop
  | starved {d' : Delivery} (few : moving d.transfer.results < (header ++ todo).length) :
      Step Stage d header todo (.error d')
  | done {d' : Delivery} (finished : d'.buf.isSendDone = true)
      (sent : d'.transfer.sent = d.transfer.sent ++ (header ++ todo)) :
      Step Stage d header todo (.ok (tigersoIoOk, d'))
  | further {d' : Delivery} {ret : Int} {header' todo' : Bytes} (fine : ret ≠ tigersoIoError)
      (waits : d'.buf.isSendDone = false) (holds : d'.buf.Holds header')
      (stage : Stage d'.transfer.body todo')
      (moved : Moved d.transfer (header ++ todo) d'.transfer (header' ++ todo'))
      (used : d'.transfer.results.length < d.transfer.results.length)
      (less : header'.length ≤ header.length) : Step Stage d header todo (.ok (ret, d'))

/-- One call sends the rest of the header first, and then what the body sends. -/
theorem sendToSocket_step
    (call : ∀ t todo, Stage t.body todo → Calm t →
      CallAdvances anyEvent Stage t todo (t.send2Socket sendfile mcsock))
    {d : Delivery} {header todo : Bytes} (holds : d.buf.Holds header)
    (stage : Stage d.transfer.body todo) (calm : Calm d.transfer)
    (short : header.length < 2 ^ 31) :
    Step Stage d header todo (d.sendToSocket sendfile mcsock) := by
  have loop := sendLoop_spec (b := d.buf) mcsock.isSSL d.transfer.results calm d.buf.readIdx
    holds.order
  have length := holds.length
  rw [Delivery.sendToSocket]
  generalize d.buf.sendLoop mcsock.isSSL d.transfer.results d.buf.readIdx = sent at loop
  obtain ⟨from_, upTo, bytes, suffix, pace, starved, cut⟩ := loop
  obtain ⟨left, split⟩ := holds.advance from_ upTo
  rw [← bytes] at split
  have sentLength : sent.sent.length = sent.readIdx - d.buf.readIdx := by
    rw [bytes, ByteMemory.window_length]
  dsimp only
  cases settled : sent.settled with
  | false =>
    obtain ⟨nothing, more⟩ := starved settled
    rw [nothing, moving_nil] at pace
    refine .starved ?_
    rw [List.length_append]
    omega
  | true =>
    let t : Transfer :=
      { d.transfer with sent := d.transfer.sent ++ sent.sent, results := sent.rest }
    rw [if_neg (by decide)]
    rcases Nat.lt_or_eq_of_le upTo with partly | all
    · -- the rest of the header stays in the buffer, aligned or not
      obtain ⟨used, _⟩ := cut settled partly
      have left_length := left.length
      have stays : ∀ b' : Buffer,
          b'.Holds (ByteMemory.window d.buf.buffer sent.readIdx (d.buf.writeIdx - sent.readIdx)) →
          Step Stage d header todo (.ok (toInt sent.sent.length, ⟨b', t⟩)) := by
        intro b' holds'
        refine .further ?_ ?_ holds' stage ⟨?_, suffix, ?_⟩ used ?_
        · rw [toInt_of_short (by omega), tigersoIoError]
          omega
        · simp [isSendDone, holds'.attached, holds'.pending]
        · show d.transfer.sent ++ sent.sent ++ _ = _
          rw [split]
          simp only [List.append_assoc]
        · rw [List.length_append, List.length_append, left_length]
          simp only [t]
          omega
        · rw [left_length]
          simp only
          omega
      rw [if_neg (show ¬ d.buf.writeIdx = sent.readIdx by omega)]
      split_ifs with near
      · obtain ⟨b', aligned, holds'⟩ := left.align (by
          rw [left_length]
          simp only at near ⊢
          omega)
        rw [aligned]
        exact stays b' holds'
      · exact stays _ left
    · have whole : header = sent.sent := by
        rw [split, ← all, Nat.sub_self, ByteMemory.window_zero, List.append_nil]
      have calm' : Calm t := calm.suffix suffix
      have result := call t todo stage calm'
      rw [if_pos (show d.buf.writeIdx = sent.readIdx from all.symm), if_pos holds.attached,
        Delivery.sendBody]
      change CallAdvances anyEvent Stage t todo (t.send2Socket sendfile mcsock) at result
      generalize t.send2Socket sendfile mcsock = ended at result
      cases ended with
      | error t' =>
        have few := result fun _ _ => trivial
        refine .starved ?_
        rw [List.length_append]
        simp only [t] at few
        omega
      | ok p =>
        obtain ⟨ret, t'⟩ := p
        rcases result fun _ _ => trivial with ⟨rfl, all_sent⟩ | ⟨rfl, todo', moved, used, stage', _⟩
        · refine .done ?_ ?_
          · simp [isSendDone, readableBytes, all, sizeT]
          · rw [all_sent, whole]
            simp only [t, List.append_assoc]
        · refine @Step.further _ _ _ _ _ _ [] _ (by decide) ?_
            ⟨holds.attached, holds.pending, ?_, ?_, holds.inside, holds.small, ?_⟩ stage'
            ⟨?_, moved.suffix.trans suffix, ?_⟩ ?_
            (Nat.zero_le _)
          · simp [isSendDone, holds.attached, holds.pending]
          · exact holds.behind.trans from_
          · exact all.le
          · simp [all]
          · rw [List.nil_append, moved.sent, whole]
            simp only [t, List.append_assoc]
          · have later := moved.pace
            simp only [t, List.length_append, List.length_nil, whole] at later ⊢
            omega
          · exact Nat.lt_of_lt_of_le used suffix.length_le

/-- What all calls together do. -/
def Ends (d : Delivery) (todo : Bytes) : Except Delivery (Int × Delivery) → Prop
  | .error _ => moving d.transfer.results < todo.length
  | .ok (ret, d') => ret = tigersoIoOk ∧ d'.transfer.sent = d.transfer.sent ++ todo

/-- All calls together send the header and the body. -/
theorem sendUntilDone_ends
    (call : ∀ t todo, Stage t.body todo → Calm t →
      CallAdvances anyEvent Stage t todo (t.send2Socket sendfile mcsock))
    (fuel : Nat) (d : Delivery) (header todo : Bytes) (holds : d.buf.Holds header)
    (stage : Stage d.transfer.body todo) (calm : Calm d.transfer)
    (short : header.length < 2 ^ 31) (enough : d.transfer.results.length < fuel) :
    Ends d (header ++ todo) (Delivery.sendUntilDone sendfile mcsock fuel d) := by
  induction fuel generalizing d header todo with
  | zero => exact absurd enough (Nat.not_lt_zero _)
  | succ fuel ih =>
    have step := sendToSocket_step call holds stage calm short
    rw [Delivery.sendUntilDone]
    generalize d.sendToSocket sendfile mcsock = result at step
    cases step with
    | starved few => exact few
    | done finished sent =>
      simp only [bind, Except.bind]
      rw [if_pos (Or.inr finished)]
      exact ⟨rfl, sent⟩
    | @further d' ret header' todo' fine waits holds' stage' moved used less =>
      simp only [bind, Except.bind]
      rw [if_neg (by simp [fine, waits])]
      have later := ih d' header' todo' holds' stage' (calm.suffix moved.suffix) (by omega)
        (by omega)
      generalize Delivery.sendUntilDone sendfile mcsock fuel d' = ended at later
      cases ended with
      | error _ =>
        have pace := moved.pace
        have few : moving d'.transfer.results < (header' ++ todo').length := later
        show moving d.transfer.results < (header ++ todo).length
        omega
      | ok p =>
        obtain ⟨ret', d''⟩ := p
        obtain ⟨rfl, sent⟩ := later
        exact ⟨rfl, by rw [sent, moved.sent]⟩

/-- A message whose body has a stage is sent as its header and what the stage says. -/
theorem run_ends {msg : HttpMessage} {todo : Bytes} {buf : Buffer}
    (call : ∀ t todo, Stage t.body todo → Calm t →
      CallAdvances anyEvent Stage t todo (t.send2Socket sendfile mcsock))
    (stage : Stage msg.body todo) (allocated : buf.Allocated)
    (short : msg.getHeader.length < 2 ^ 31) (results : List WriteResult)
    (calm : ∀ r ∈ results, r ≠ .failed) :
    (∀ ret d, run sendfile mcsock buf msg results = .ok (ret, d) →
      ret = tigersoIoOk ∧ d.transfer.sent = msg.getHeader ++ todo) ∧
    ((msg.getHeader ++ todo).length ≤ moving results →
      ∃ d, run sendfile mcsock buf msg results = .ok (tigersoIoOk, d)) := by
  obtain ⟨b, attached, holds⟩ :=
    attach_holds allocated (show msg.getHeader.length < 2 ^ 63 by omega)
  have ends := sendUntilDone_ends call (results.length + 1) ⟨b, ⟨msg.body, [], results, []⟩⟩
    msg.getHeader todo holds stage calm short (Nat.lt_succ_self _)
  rw [run, attached]
  simp only
  cases ended : Delivery.sendUntilDone sendfile mcsock (results.length + 1)
      ⟨b, ⟨msg.body, [], results, []⟩⟩ with
  | error d =>
    rw [ended] at ends
    exact ⟨fun _ _ e => (nomatch e), fun enough => absurd ends (Nat.not_lt.mpr enough)⟩
  | ok p =>
    obtain ⟨ret, d⟩ := p
    rw [ended] at ends
    obtain ⟨rfl, sent⟩ := ends
    exact ⟨fun _ _ e => by cases e; exact ⟨rfl, sent⟩, fun _ => ⟨d, rfl⟩⟩

/-- Sends of one byte each up to the end of the header. -/
theorem sendLoop_bytes (b : Buffer) (isSSL : Bool) (rest : List WriteResult) (k : Nat)
    {readIdx : Nat} (total : readIdx + k = b.writeIdx) :
    b.sendLoop isSSL (List.replicate k (.took 0) ++ rest) readIdx =
      ⟨true, b.writeIdx, ByteMemory.window b.buffer readIdx k, rest⟩ := by
  induction k generalizing readIdx with
  | zero =>
    rw [List.replicate_zero, List.nil_append]
    cases rest <;> rw [sendLoop, if_neg (by omega)] <;> simp [← total]
  | succ k ih =>
    have length : (ByteMemory.window b.buffer readIdx (b.writeIdx - readIdx)).length =
        b.writeIdx - readIdx := ByteMemory.window_length ..
    have one : (writeSocket isSSL () (ByteMemory.window b.buffer readIdx
        (b.writeIdx - readIdx)) (.took 0)).1 = .moved 1 := by
      rw [writeSocket, if_neg (by simp; omega), length]
      simp only [accepted]
      congr 1
      omega
    rw [List.replicate_succ, List.cons_append, sendLoop, if_pos (by omega)]
    simp only [one]
    rw [ih (by omega), ByteMemory.window_take, Nat.min_eq_left (by omega), Nat.add_comm k 1,
      ByteMemory.window_add]

/-- A call whose loop sends all that is buffered goes on with the body. -/
theorem sendToSocket_through {d : Delivery} {bytes : Bytes} {rest : List WriteResult}
    (attached : d.buf.msgptr = true)
    (loop : d.buf.sendLoop mcsock.isSSL d.transfer.results d.buf.readIdx =
      ⟨true, d.buf.writeIdx, bytes, rest⟩) :
    d.sendToSocket sendfile mcsock =
      Delivery.sendBody sendfile mcsock ⟨{ d.buf with readIdx := d.buf.writeIdx },
        { d.transfer with sent := d.transfer.sent ++ bytes, results := rest }⟩ := by
  rw [Delivery.sendToSocket, loop]
  dsimp only
  rw [if_neg (by decide), if_pos rfl, if_pos attached]

/-- Once the header is sent, a call is a call of the body. -/
theorem sendToSocket_body {d : Delivery} (attached : d.buf.msgptr = true)
    (empty : d.buf.readIdx = d.buf.writeIdx) :
    d.sendToSocket sendfile mcsock = d.sendBody sendfile mcsock := by
  have loop := sendLoop_bytes d.buf mcsock.isSSL d.transfer.results 0
    (show d.buf.readIdx + 0 = d.buf.writeIdx from empty)
  rw [List.replicate_zero, List.nil_append, ByteMemory.window_zero] at loop
  have same : ({ d.buf with readIdx := d.buf.writeIdx } : Buffer) = d.buf := by rw [← empty]
  rw [sendToSocket_through attached loop, same, List.append_nil]

/-- A run whose first results send the header byte by byte. -/
theorem run_body (sendfile : Bool) (mcsock : Socket) {msg : HttpMessage} {buf : Buffer}
    (allocated : buf.Allocated)
    (short : msg.getHeader.length < 2 ^ 31) (rest : List WriteResult) :
    ∃ b : Buffer, b.msgptr = true ∧ b.senddone = false ∧ b.readIdx = b.writeIdx ∧
      run sendfile mcsock buf msg (List.replicate msg.getHeader.length (.took 0) ++ rest) =
        Delivery.sendUntilDone sendfile mcsock (msg.getHeader.length + rest.length + 1)
          ⟨b, ⟨msg.body, msg.getHeader, rest, []⟩⟩ := by
  obtain ⟨b, attached, holds⟩ :=
    attach_holds allocated (show msg.getHeader.length < 2 ^ 63 by omega)
  have length := holds.length
  have order := holds.order
  let b' : Buffer := { b with readIdx := b.writeIdx }
  have first := sendLoop_bytes b mcsock.isSSL rest msg.getHeader.length
    (show b.readIdx + _ = b.writeIdx by omega)
  rw [length, holds.unsent, ← length] at first
  let d : Delivery :=
    ⟨b, ⟨msg.body, [], List.replicate msg.getHeader.length (.took 0) ++ rest, []⟩⟩
  have same : d.sendToSocket sendfile mcsock =
      Delivery.sendToSocket sendfile mcsock ⟨b', ⟨msg.body, msg.getHeader, rest, []⟩⟩ := by
    rw [sendToSocket_through holds.attached first, sendToSocket_body holds.attached rfl]
    rfl
  refine ⟨b', holds.attached, holds.pending, rfl, ?_⟩
  rw [run, attached]
  simp only [List.length_append, List.length_replicate]
  rw [Delivery.sendUntilDone, Delivery.sendUntilDone, same]

end

section
variable {sendfile : Bool} {mcsock : Socket}

/-- No file on the disk: nothing is sent behind the header. -/
inductive NoFile : HttpBodyFile → Bytes → Prop
  | nothing {b : HttpBodyFile} (gone : b.file.testExist = false) : NoFile b []

theorem noFile_advances (t : Transfer) (todo : Bytes) (stage : NoFile t.body todo)
    (_ : Calm t) : CallAdvances anyEvent NoFile t todo (t.send2Socket sendfile mcsock) := by
  cases stage with
  | nothing gone =>
    rw [Transfer.send2Socket, if_pos (by simp [gone])]
    exact fun _ => Or.inl ⟨rfl, (List.append_nil _).symm⟩

/-- An empty file through `sendfile`: the CRLF alone. -/
inductive EmptyFile : HttpBodyFile → Bytes → Prop
  | start {b : HttpBodyFile} (unsent : Unsent b) (there : b.file.testRead = true)
      (empty : b.file.contents = []) : EmptyFile b crlf
  | eof {b : HttpBodyFile} (plain : b.chunked = false) (there : b.file.testExist = true)
      (done : b.sendContentDone = true) (fresh : b.chunkstate = .chunkUinit)
      (rested : b.ringbuf.Rested) (occupied : b.ringbuf.content ≠ []) :
      EmptyFile b b.ringbuf.content

/-- The CRLF behind an empty file. -/
theorem sendFileEof_advances {send : RingSender} (sends : Sends send) {t : Transfer}
    (plain : t.body.chunked = false) (there : t.body.file.testExist = true)
    (done : t.body.sendContentDone = true) (fresh : t.body.chunkstate = .chunkUinit)
    (rested : t.body.ringbuf.Rested) (occupied : t.body.ringbuf.content ≠ []) (calm : Calm t) :
    CallAdvances anyEvent EmptyFile t t.body.ringbuf.content (t.sendFileEof send) := by
  have sent := sendRing_spec sends rested occupied calm
  rw [Transfer.sendFileEof]
  generalize t.sendRing send = result at sent
  cases sent with
  | starved few => exact fun _ => few
  | @returned rb out rest split rested' same cleared _ suffix used pace _ =>
    simp only [bind, Except.bind]
    rw [if_neg (by omega)]
    by_cases empty : rb.content = []
    · rw [if_neg (by rw [size_eq rested'.valid, empty]; simp)]
      rw [empty, List.append_nil] at split
      exact fun _ => Or.inl ⟨rfl, by rw [split]; rfl⟩
    · rw [if_pos (by rw [size_eq rested'.valid]; simpa using empty)]
      refine fun _ => Or.inr ⟨rfl, rb.content, ⟨?_, suffix, ?_⟩, used,
        .eof plain there done fresh rested' empty, ?_⟩
      · rw [split, List.append_assoc]
      · rw [split, List.length_append]
        simp only
        omega
      · simp [fresh]

theorem send2Socket_empty {f : File} {fd : Fd} (valid : fd.valid = true)
    (nonblock : fd.nonblock = true) (there : f.testRead = true) (closed : f.fd = .closed)
    (start : f.cur = 0) (empty : f.contents = []) (results : List WriteResult) :
    ∃ f', f.send2Socket fd results = ⟨some fileSendfileDone, f', 0, 0, [], results⟩ ∧
      f'.testExist = f.testExist := by
  have left : ((f.getFileSize : Int) - f.cur).toNat = 0 := by
    rw [File.getFileSize, empty, start]
    rfl
  have stands : f.readPos = 0 := by simp [File.readPos, closed]
  rw [send2Socket_onward valid nonblock there (by simp [closed]), File.sendOnwardNonblock, left,
    stands, sendOnward_zero]
  exact ⟨_, rfl, rfl⟩

/-- An empty file is no more than that. -/
theorem emptyFile_advances (plainSocket : mcsock.isSSL = false) (valid : mcsock.fd.valid = true)
    (nonblock : mcsock.fd.nonblock = true) (t : Transfer) (todo : Bytes)
    (stage : EmptyFile t.body todo) (calm : Calm t) :
    CallAdvances anyEvent EmptyFile t todo (t.send2Socket true mcsock) := by
  have sends := sends_fd valid nonblock
  rw [Transfer.send2Socket]
  cases stage with
  | start unsent there empty =>
    obtain ⟨plain, ring, closed, start, _, pending, fresh⟩ := unsent
    obtain ⟨f, sent, same⟩ := send2Socket_empty valid nonblock there closed start empty t.results
    have exists_ := exists_of_readable there
    let t₀ : Transfer := ⟨{ t.body with file := f, sendContentDone := true }, t.sent ++ [],
      t.results, t.log⟩
    have cleared : t₀.clearRing.body.ringbuf.Cleared := clear_cleared ring
    obtain ⟨rb, wrote, rested, content, _⟩ :=
      writeRing_cleared cleared (show crlf ≠ [] by decide) (by decide)
    let t₁ : Transfer := { t₀ with body := { t₀.body with ringbuf := rb } }
    have ends : CallAdvances anyEvent EmptyFile t₁ rb.content
        (t₁.sendFileEof (RingBuffer.send2SocketFd · mcsock.fd)) :=
      sendFileEof_advances sends plain (same.trans exists_) rfl fresh rested
        (by show rb.content ≠ []; rw [content]; decide) calm
    rw [content] at ends
    rw [if_neg (by simp [exists_]), if_pos (by simp [plainSocket]), if_neg (by simp [plain]),
      Transfer.sendFileContent, if_neg (by simp [pending]), sent]
    dsimp only
    rw [if_neg (by decide), if_pos rfl]
    change CallAdvances anyEvent EmptyFile t crlf
      (t₀.clearRing.writeRing crlf >>= fun t => t.sendFileEof _)
    rw [wrote]
    exact ends.of_body (List.append_nil _) rfl
  | eof plain there done fresh rested occupied =>
    rw [if_neg (by simp [there]), if_pos (by simp [plainSocket]), if_neg (by simp [plain]),
      Transfer.sendFileContent, if_pos done]
    exact sendFileEof_advances sends plain there done fresh rested occupied calm

theorem send2Socket_blocked {f : File} {fd : Fd} (valid : fd.valid = true)
    (nonblock : fd.nonblock = true) (there : f.testRead = true) (closed : f.fd = .closed)
    (start : f.cur = 0) (some_data : f.contents ≠ []) (more : List WriteResult) :
    ∃ f', f.send2Socket fd (.wouldBlock :: more) =
        ⟨some fileSendfileRecall, f', -1, 0, [], more⟩ ∧
      f'.testRead = true ∧ f'.fd = .opened 0 ∧ f'.cur = -1 := by
  have positive := List.length_pos_iff.mpr some_data
  have left : ((f.getFileSize : Int) - f.cur).toNat = f.contents.length := by
    rw [File.getFileSize, start]
    omega
  have stands : f.readPos = 0 := by simp [File.readPos, closed]
  rw [send2Socket_onward valid nonblock there (by simp [closed]), File.sendOnwardNonblock, left,
    stands, sendOnward, if_neg (by omega)]
  refine ⟨_, rfl, there, rfl, ?_⟩
  show f.cur - 1 = -1
  rw [start]
  rfl

theorem send2Socket_starves {f : File} {fd : Fd} (valid : fd.valid = true)
    (nonblock : fd.nonblock = true) (there : f.testRead = true) (opened : f.fd = .opened 0)
    (back : f.cur = -1) {results : List WriteResult} (all : ∀ r ∈ results, r.IsTook) :
    (f.send2Socket fd results).ret = none := by
  have left : ((f.getFileSize : Int) - f.cur).toNat = f.contents.length + 1 := by
    rw [File.getFileSize, back]
    omega
  have stands : f.readPos = 0 := by simp [File.readPos, opened]
  rw [send2Socket_onward valid nonblock there (by simp [opened]), File.sendOnwardNonblock, left,
    stands]
  have starved := sendOnward_starves all (Nat.zero_le f.contents.length)
    (show f.contents.length < 0 + (f.contents.length + 1) by omega)
  change (sendOnward (File.contents { f with size := f.getFileSize, fd := .opened 0 }) results
    _ _).status = none at starved
  simp only [starved]

/-- A `sendfile` that would block is never made up for. -/
theorem run_blocked {msg : HttpMessage} {buf : Buffer} (allocated : buf.Allocated)
    (short : msg.getHeader.length < 2 ^ 31) (unsent : Unsent msg.body)
    (there : msg.body.file.testRead = true) (some_data : msg.body.file.contents ≠ [])
    (plainSocket : mcsock.isSSL = false) (valid : mcsock.fd.valid = true)
    (nonblock : mcsock.fd.nonblock = true) {more : List WriteResult}
    (all : ∀ r ∈ more, r.IsTook) :
    ∃ d, run true mcsock buf msg
      (List.replicate msg.getHeader.length (.took 0) ++ .wouldBlock :: more) = .error d := by
  obtain ⟨b, attached, pending, empty, goes⟩ := run_body true mcsock allocated short
    (.wouldBlock :: more)
  obtain ⟨f, blocked, there', opened, back⟩ := send2Socket_blocked valid nonblock there
    unsent.closed unsent.start some_data more
  have starves := send2Socket_starves valid nonblock there' opened back all
  let t₁ : Transfer := ⟨{ msg.body with file := f }, msg.getHeader ++ [], more, []⟩
  have first : Delivery.sendBody true mcsock
      ⟨b, ⟨msg.body, msg.getHeader, .wouldBlock :: more, []⟩⟩ =
        .ok (tigersoIoOk, ⟨b, t₁⟩) := by
    rw [Delivery.sendBody, Transfer.send2Socket,
      if_neg (by simp [exists_of_readable there]), if_pos (by simp [plainSocket]),
      if_neg (by simp [unsent.plain]), Transfer.sendFileContent, if_neg (by simp [unsent.pending])]
    simp only [blocked]
    rfl
  have second : ∃ d, Delivery.sendBody true mcsock ⟨b, t₁⟩ = .error d := by
    rw [Delivery.sendBody, Transfer.send2Socket,
      if_neg (by simp [t₁, exists_of_readable there']), if_pos (by simp [plainSocket]),
      if_neg (by simp [t₁, unsent.plain]), Transfer.sendFileContent,
      if_neg (by simp [t₁, unsent.pending])]
    simp only [t₁, starves]
    exact ⟨_, rfl⟩
  obtain ⟨d, second⟩ := second
  refine ⟨d, ?_⟩
  rw [goes, Delivery.sendUntilDone, sendToSocket_body attached empty, first]
  simp only [bind, Except.bind]
  rw [if_neg (by simp [isSendDone, attached, pending]; decide), List.length_cons, ← Nat.add_assoc,
    Delivery.sendUntilDone, sendToSocket_body attached empty, second]
  rfl

/-- The file holds `F`, and its first `p` bytes have been read. -/
structure Reading (F : Bytes) (p : Nat) (f : File) : Prop where
  named : f.named = true
  disk : f.disk = some F
  position : f.fd = .opened p ∨ (f.fd = .closed ∧ p = 0) ∨ f.fd = .dangling
  inside : p ≤ F.length
  done : f.readdone = true → p = F.length

section
variable {F : Bytes} {p : Nat} {f f' : File} {bytes : Bytes}

theorem unread_reading (there : f.testExist = true) (closed : f.fd = .closed)
    (unread : f.readdone = false) : Reading f.contents 0 f := by
  obtain ⟨named, found⟩ : f.named = true ∧ f.disk.isSome = true := by
    simpa [File.testExist] using there
  obtain ⟨data, disk⟩ := Option.isSome_iff_exists.mp found
  refine ⟨named, ?_, Or.inr (Or.inl ⟨closed, rfl⟩), Nat.zero_le _, fun done => ?_⟩
  · rw [File.contents, if_pos named, disk]
    rfl
  · exact absurd (unread.symm.trans done) (by decide)

/-- A read continues where the last one ended. -/
theorem readFd_reading (h : Reading F p f) {len : Nat} {ret : Int} (opened : f.fd = .opened p)
    (read : f.readFd len .full = (ret, bytes, f')) :
    bytes = (F.drop p).take bytes.length ∧ Reading F (p + bytes.length) f' := by
  obtain ⟨named, disk, _, inside, done⟩ := h
  have contents : f.contents = F := by
    rw [File.contents, if_pos named, disk]
    rfl
  simp only [File.readFd, opened, File.readAt, contents] at read
  have fits : ((F.drop p).take len).length = min len (F.length - p) := by
    rw [List.length_take, List.length_drop]
  have same : (F.drop p).take len = (F.drop p).take ((F.drop p).take len).length := by
    rw [List.length_take, ← List.take_take, List.take_length]
  split_ifs at read with short
  · cases read
    refine ⟨same, named, disk, Or.inr (Or.inr rfl), ?_, fun _ => ?_⟩
    · omega
    · omega
  · cases read
    refine ⟨same, named, disk, Or.inl rfl, ?_, fun e => ?_⟩
    · omega
    · have all := done e
      omega

/-- So it does when the file is opened by it. -/
theorem continuousReadOut_reading (h : Reading F p f) {len : Nat} {ret : Int}
    (read : f.continuousReadOut len .full = (ret, bytes, f')) (nonneg : 0 ≤ ret) :
    bytes = (F.drop p).take bytes.length ∧ Reading F (p + bytes.length) f' := by
  rw [File.continuousReadOut] at read
  split_ifs at read with nothing denied fresh
  · cases read
    exact absurd nonneg (by decide)
  · cases read
    exact absurd nonneg (by decide)
  · rcases h.position with opened | ⟨closed, rfl⟩ | dangling
    · simp [File.validFd, opened] at fresh
    · have opened : Reading F 0 { f with readdone := false, fd := .opened 0 } :=
        ⟨h.named, h.disk, Or.inl rfl, h.inside, fun e => by cases e⟩
      exact readFd_reading opened rfl read
    · simp [File.validFd, dangling] at fresh
  · rcases h.position with opened | ⟨closed, rfl⟩ | dangling
    · exact readFd_reading h opened read
    · simp [File.validFd, closed] at fresh
    · simp only [File.readFd, dangling] at read
      cases read
      exact absurd nonneg (by decide)

/-- Full reads hand out the file in order. -/
theorem readsOut_reading (h : Reading F p f)
    (reads : File.ReadsOut (fun r => r = .full ∨ r = .full) f bytes f') :
    bytes = (F.drop p).take bytes.length ∧ Reading F (p + bytes.length) f' := by
  induction reads generalizing p with
  | nothing f => exact ⟨by simp, h⟩
  | @further f f₁ f₂ len r ret bytes more allowed read nonneg _ ih =>
    obtain rfl : r = .full := allowed.elim id id
    obtain ⟨first, reading⟩ := continuousReadOut_reading h read nonneg
    obtain ⟨second, reading'⟩ := ih reading
    rw [List.length_append, ← Nat.add_assoc]
    refine ⟨?_, reading'⟩
    rw [List.take_add, ← first, List.drop_drop, ← second]

end

/-- The CRLF behind the content, as long as it was not put into the ring. -/
def eofLeft (b : HttpBodyFile) : Bytes := if b.sendContentDone then [] else crlf

/-- A ring send whose calls all take bytes. -/
inductive RingSentAll (t : Transfer) : Except Transfer (Int × Transfer) → Prop
  | starved {t' : Transfer} : RingSentAll t (.error t')
  | refused {t' : Transfer} {ret : Int} (error : ret < 0) : RingSentAll t (.ok (ret, t'))
  | emptied {t' : Transfer} {ret : Int} (fine : ¬ ret < 0) (valid : t'.body.ringbuf.Valid)
      (empty : t'.body.ringbuf.content = []) (drained : ¬ t'.body.ringbuf.size ≠ 0)
      (same : t'.body = { t.body with ringbuf := t'.body.ringbuf })
      (sent : t'.sent = t.sent ++ t.body.ringbuf.content) (all : ∀ r ∈ t'.results, r.IsTook) :
      RingSentAll t (.ok (ret, t'))

theorem sendRing_all (isSSL : Bool) {t : Transfer} (valid : t.body.ringbuf.Valid)
    (all : ∀ r ∈ t.results, r.IsTook) :
    RingSentAll t (t.sendRing (RingBuffer.send2Socket · isSSL)) := by
  obtain ⟨d, result, suffix, ends⟩ := send2Socket_all valid isSSL all
  rw [Transfer.sendRing, result]
  dsimp only
  cases returns : d.ret with
  | none => exact .starved
  | some ret =>
    by_cases error : ret < 0
    · exact .refused error
    · obtain ⟨sent, valid', empty⟩ := (ends ret returns).resolve_left error
      exact .emptied error valid' empty (by rw [size_eq valid', empty]; simp) rfl
        (by rw [← sent]) fun r hr => all r (suffix.subset hr)

theorem appendEof_empty {t : Transfer} (valid : t.body.ringbuf.Valid)
    (empty : t.body.ringbuf.content = []) :
    ∃ t' : Transfer, t.appendEof = .ok t' ∧ t'.body.ringbuf.Valid ∧
      t'.body.ringbuf.content = crlf ∧ t'.body.sendContentDone = true ∧
      t'.body.file = t.body.file ∧ t'.sent = t.sent ∧ t'.results = t.results := by
  have room := valid.room
  have space := space_eq valid
  rw [empty, List.length_nil] at space
  simp only [ringbufferMinLength] at room
  obtain ⟨rb, written, appended, _⟩ :=
    writeIn_spec valid (by omega) (show crlf ≠ [] by decide)
  have content : rb.content = crlf := by
    rw [appended.content, empty, List.nil_append,
      List.take_of_length_le (by show 2 ≤ _; omega)]
  rw [Transfer.appendEof, Transfer.writeRing, written]
  exact ⟨_, rfl, appended.valid, content, rfl, rfl, rfl, rfl⟩

/-- A sender that ends with an error or with `total` sent. -/
def SendsAll (total : Bytes) : Except Transfer (Int × Transfer) → Prop
  | .error _ => True
  | .ok (ret, t) => ret = fileSendfileError ∨ ret = fileSendfileDone ∧ t.sent = total

/-- When every result moves bytes, the CRLF follows the stored bytes. -/
theorem contentEof_all (isSSL : Bool) (passes : Nat) {t : Transfer}
    (valid : t.body.ringbuf.Valid) (all : ∀ r ∈ t.results, r.IsTook) :
    SendsAll (t.sent ++ t.body.ringbuf.content ++ eofLeft t.body)
      (Transfer.contentEof (RingBuffer.send2Socket · isSSL) passes t) := by
  induction passes generalizing t with
  | zero => exact trivial
  | succ passes ih =>
    have sent := sendRing_all isSSL valid all
    rw [Transfer.contentEof]
    generalize t.sendRing (RingBuffer.send2Socket · isSSL) = result at sent
    cases sent with
    | starved => exact trivial
    | refused error =>
      simp only [bind, Except.bind, if_pos error]
      exact Or.inl rfl
    | @emptied t' ret fine valid' empty drained same sent all' =>
      have pending : t'.body.sendContentDone = t.body.sendContentDone := by rw [same]
      simp only [bind, Except.bind]
      rw [if_neg fine, if_neg drained, pending, eofLeft]
      split_ifs
      · exact Or.inr ⟨rfl, by rw [List.append_nil]; exact sent⟩
      · -- the second pass sends the CRLF
        obtain ⟨t'', appended, valid'', content, done, _, same', results⟩ :=
          appendEof_empty valid' empty
        have last := ih valid'' (by rw [results]; exact all')
        rw [content, eofLeft, if_pos done, List.append_nil, same', sent] at last
        rw [appended]
        exact last

/-- When all calls take bytes, `sendContent` sends the ring, the rest of the file and
a CRLF. -/
theorem contentLoop_all (isSSL : Bool) {F : Bytes} (fuel : Nat) {t : Transfer} {p : Nat}
    (valid : t.body.ringbuf.Valid) (reading : Reading F p t.body.file)
    (finished : t.body.sendContentDone = true → t.body.file.isReadDone = true)
    (all : ∀ r ∈ t.results, r.IsTook) :
    SendsAll (t.sent ++ t.body.ringbuf.content ++ F.drop p ++ eofLeft t.body)
      (Transfer.contentLoop (RingBuffer.send2Socket · isSSL) fuel t) := by
  induction fuel generalizing t p with
  | zero => exact trivial
  | succ fuel ih =>
    rw [Transfer.contentLoop]
    by_cases done : t.body.file.isReadDone = true
    · rw [if_pos done, reading.done done, List.drop_length, List.append_nil]
      exact contentEof_all isSSL 2 valid all
    rw [if_neg done]
    obtain ⟨ret, rb, file, bytes, wrote, appended, reads⟩ :=
      writeInFromFile_spec valid t.body.file .full .full
    rw [wrote]
    dsimp only
    by_cases error : ret < 0
    · rw [if_pos error]
      exact Or.inl rfl
    obtain ⟨order, reading'⟩ := readsOut_reading reading (reads (by omega))
    have split : F.drop p = bytes ++ F.drop (p + bytes.length) := by
      have parts := List.take_append_drop bytes.length (F.drop p)
      rwa [← order, List.drop_drop, eq_comm] at parts
    have eof : eofLeft t.body = crlf := if_neg fun sent => done (finished sent)
    have sent := sendRing_all isSSL
      (t := { t with body := { t.body with ringbuf := rb, file := file } }) appended.valid all
    rw [if_neg error, split, eof, ← List.append_assoc, List.append_assoc t.sent, ← appended.content]
    generalize Transfer.sendRing _ _ = result at sent ⊢
    cases sent with
    | starved => exact trivial
    | refused error' =>
      simp only [bind, Except.bind, if_pos error']
      exact Or.inl rfl
    | @emptied t' ret' fine valid' empty drained same sent all' =>
      have reading'' : Reading F (p + bytes.length) t'.body.file := by rw [same]; exact reading'
      simp only [bind, Except.bind]
      rw [if_neg fine, if_neg drained, ← sent]
      split_ifs with done'
      · obtain ⟨t'', appended', valid'', content, pending, file', same', results⟩ :=
          appendEof_empty valid' empty
        have later := ih valid'' (by rw [file']; exact reading'')
          (fun _ => by rw [file']; exact done') (by rw [results]; exact all')
        rw [content, eofLeft, if_pos pending, reading''.done done', List.drop_length, same',
          List.append_nil, List.append_nil] at later
        rw [appended', reading''.done done', List.drop_length, List.append_nil]
        exact later
      · have pending : ¬ t'.body.sendContentDone = true := by
          rw [same]
          exact fun sent => done (finished sent)
        have later := ih valid' reading'' (fun sent => absurd sent pending) all'
        rw [empty, eofLeft, if_neg pending, List.append_nil] at later
        exact later

theorem readsOut_unreadable {f f' : File} {bytes : Bytes} {rds : ReadResult → Prop}
    (denied : f.testRead = false) (reads : File.ReadsOut rds f bytes f') : f' = f := by
  cases reads with
  | nothing => rfl
  | @further _ _ _ len r ret bytes more allowed read nonneg _ =>
    rw [File.continuousReadOut] at read
    split_ifs at read with nothing access
    · cases read
      exact absurd nonneg (by decide)
    · cases read
      exact absurd nonneg (by decide)
    all_goals exact absurd denied (by simp_all)

/-- A file that may not be read keeps `sendContent` from ending well. -/
theorem contentLoop_unreadable (isSSL : Bool) (total : Bytes) (fuel : Nat) {t : Transfer}
    (valid : t.body.ringbuf.Valid) (denied : t.body.file.testRead = false)
    (unread : t.body.file.isReadDone = false) (all : ∀ r ∈ t.results, r.IsTook) :
    SendsAll total (Transfer.contentLoop (RingBuffer.send2Socket · isSSL) fuel t) := by
  induction fuel generalizing t with
  | zero => exact trivial
  | succ fuel ih =>
    obtain ⟨ret, rb, file, bytes, wrote, appended, reads⟩ :=
      writeInFromFile_spec valid t.body.file .full .full
    rw [Transfer.contentLoop, if_neg (by simp [unread]), wrote]
    dsimp only
    by_cases error : ret < 0
    · rw [if_pos error]
      exact Or.inl rfl
    have same_file := readsOut_unreadable denied (reads (by omega))
    have sent := sendRing_all isSSL
      (t := { t with body := { t.body with ringbuf := rb, file := file } }) appended.valid all
    rw [if_neg error]
    generalize Transfer.sendRing _ _ = result at sent ⊢
    cases sent with
    | starved => exact trivial
    | refused error' =>
      simp only [bind, Except.bind, if_pos error']
      exact Or.inl rfl
    | @emptied t' ret' fine valid' empty drained same sent all' =>
      have file' : t'.body.file = t.body.file := by rw [same]; exact same_file
      simp only [bind, Except.bind]
      rw [if_neg fine, if_neg drained, if_neg (by rw [file', unread]; decide)]
      exact ih valid' (by rw [file']; exact denied) (by rw [file']; exact unread) all'

end

section
variable {sendfile : Bool} {mcsock : Socket} {msg : HttpMessage}

theorem sendBody_error {d : Delivery} {t : Transfer}
    (result : d.transfer.send2Socket sendfile mcsock = .ok (fileSendfileError, t)) :
    d.sendBody sendfile mcsock = .ok (tigersoIoError, ⟨d.buf, t⟩) := by
  rw [Delivery.sendBody, result]
  rfl

theorem sendBody_done {d : Delivery} {t : Transfer}
    (result : d.transfer.send2Socket sendfile mcsock = .ok (fileSendfileDone, t)) :
    d.sendBody sendfile mcsock =
      .ok (tigersoIoOk, ⟨{ d.buf with senddone := true, msgptr := false }, t⟩) := by
  rw [Delivery.sendBody, result]
  rfl

theorem took_replicate (k : Nat) : ∀ r ∈ List.replicate k (WriteResult.took 0), r.IsTook := by
  intro r hr
  rw [List.eq_of_mem_replicate hr]
  trivial

/-- A body of a framed message is what its sender sends when all calls take bytes. -/
theorem Framed.todo_eq (framed : Framed sendfile mcsock msg)
    (short : msg.getHeader.length < 2 ^ 31) {todo : Bytes}
    (sends : ∀ results, (∀ r ∈ results, r.IsTook) → SendsAll (msg.getHeader ++ todo)
      (Transfer.send2Socket sendfile mcsock ⟨msg.body, msg.getHeader, results, []⟩)) :
    todo = payload msg.body := by
  have allocated : (Buffer.construct 8 fun _ => 0).Allocated :=
    construct_allocated (by decide) _
  obtain ⟨safe, N, live⟩ := framed _ allocated
  let rest : List WriteResult := List.replicate N (.took 0)
  obtain ⟨b, attached, _, empty, goes⟩ := run_body sendfile mcsock allocated short
    rest
  have fine : ∀ r ∈ List.replicate msg.getHeader.length (.took 0) ++ rest,
      r ≠ WriteResult.failed := by
    intro r hr
    rcases List.mem_append.mp hr with h | h <;> rw [List.eq_of_mem_replicate h] <;> decide
  obtain ⟨d, ended⟩ := live _ fine (by
    rw [moving, List.countP_append]
    exact (moving_replicate N 0).ge.trans (Nat.le_add_left _ _))
  obtain ⟨_, body, sent, _, same⟩ := safe _ fine _ _ ended
  have result := sends rest (took_replicate N)
  rw [goes, Delivery.sendUntilDone, sendToSocket_body attached empty] at ended
  cases settled : Transfer.send2Socket sendfile mcsock ⟨msg.body, msg.getHeader, rest, []⟩ with
  | error t =>
    rw [Delivery.sendBody, settled] at ended
    exact nomatch ended
  | ok p =>
    obtain ⟨ret, t⟩ := p
    rw [settled] at result
    rcases result with rfl | ⟨rfl, total⟩
    · rw [sendBody_error settled] at ended
      simp only [bind, Except.bind] at ended
      rw [if_pos (Or.inl trivial)] at ended
      exact nomatch ended
    · have finished : Buffer.isSendDone { b with senddone := true, msgptr := false } = true := by
        simp [isSendDone, readableBytes, empty, sizeT]
      rw [sendBody_done settled] at ended
      simp only [bind, Except.bind] at ended
      rw [if_pos (Or.inr finished)] at ended
      cases ended
      rw [total] at sent
      rw [List.append_cancel_left sent, same]

/-- A framed message without a file has no body. -/
theorem Framed.nothing (framed : Framed sendfile mcsock msg)
    (short : msg.getHeader.length < 2 ^ 31) (gone : msg.body.file.testExist = false) :
    payload msg.body = [] :=
  (framed.todo_eq short fun results _ => by
    rw [Transfer.send2Socket, if_pos (by simp [gone])]
    exact Or.inr ⟨rfl, (List.append_nil _).symm⟩).symm

/-- The bodies that are framed by their length: no body at all, and, through
`sendfile`, an empty file in front of a ring that holds a CRLF. -/
def Framable (sendfile : Bool) (mcsock : Socket) (b : HttpBodyFile) : Prop :=
  b.file.testExist = false ∧ b.ringbuf.content = [] ∨
    b.file.testRead = true ∧ b.file.contents = [] ∧ b.ringbuf.content = crlf ∧
      mcsock.isSSL = false ∧ sendfile = true

theorem contents_of_gone {f : File} (gone : f.testExist = false) : f.contents = [] := by
  rw [File.contents]
  split_ifs with named
  · cases there : f.disk with
    | none => rfl
    | some data => simp [File.testExist, named, there] at gone
  · rfl

theorem framed_of_framable (valid : mcsock.fd.valid = true) (nonblock : mcsock.fd.nonblock = true)
    (unsent : Unsent msg.body) (short : msg.getHeader.length < 2 ^ 31)
    (length : msg.getContentLength = (payload msg.body).length)
    (framable : Framable sendfile mcsock msg.body) : Framed sendfile mcsock msg := by
  intro buf allocated
  rcases framable with ⟨gone, empty⟩ | ⟨there, empty, eof, plainSocket, rfl⟩
  · have nothing : payload msg.body = [] := by
      rw [payload, contents_of_gone gone, empty, List.append_nil]
    have ends := run_ends (@noFile_advances sendfile mcsock) (.nothing gone) allocated
      short
    refine ⟨fun results fine ret d ended => ?_, _, fun results fine => (ends results fine).2⟩
    obtain ⟨rfl, sent⟩ := (ends results fine).1 ret d ended
    exact ⟨rfl, [], sent, by rw [length, nothing], nothing.symm⟩
  · have whole : payload msg.body = crlf := by rw [payload, empty, eof, List.nil_append]
    have ends := run_ends (emptyFile_advances plainSocket valid nonblock)
      (.start unsent there empty) allocated short
    refine ⟨fun results fine ret d ended => ?_, _, fun results fine => (ends results fine).2⟩
    obtain ⟨rfl, sent⟩ := (ends results fine).1 ret d ended
    exact ⟨rfl, crlf, sent, by rw [length, whole], whole.symm⟩

/-- A body whose length is announced right over `sendfile` has its CRLF counted in it. -/
theorem framable_of_sendfile (valid : mcsock.fd.valid = true)
    (nonblock : mcsock.fd.nonblock = true) (unsent : Unsent msg.body)
    (short : msg.getHeader.length < 2 ^ 31) (there : msg.body.file.testExist = true)
    (plainSocket : mcsock.isSSL = false) (framed : Framed true mcsock msg) :
    Framable true mcsock msg.body := by
  have allocated : (Buffer.construct 8 fun _ => 0).Allocated :=
    construct_allocated (by decide) _
  by_cases readable : msg.body.file.testRead = true
  · by_cases empty : msg.body.file.contents = []
    · have ends := run_ends (emptyFile_advances plainSocket valid nonblock)
        (.start unsent readable empty) allocated short
      obtain ⟨safe, N, live⟩ := framed _ allocated
      have fine : ∀ r ∈ List.replicate N (WriteResult.took 0), r ≠ .failed := fun r hr => by
        rw [List.eq_of_mem_replicate hr]; decide
      obtain ⟨d, ended⟩ := live _ fine (moving_replicate N 0).ge
      obtain ⟨_, body, sent, _, same⟩ := safe _ fine _ _ ended
      have eof := ((ends _ fine).1 _ _ ended).2
      rw [sent] at eof
      rw [List.append_cancel_left eof, payload, empty, List.nil_append] at same
      exact Or.inr ⟨readable, empty, same.symm, plainSocket, rfl⟩
    · obtain ⟨_, N, live⟩ := framed _ allocated
      obtain ⟨d, blocked⟩ := run_blocked allocated short unsent readable empty plainSocket valid
        nonblock (took_replicate N)
      obtain ⟨d', ended⟩ := live (List.replicate msg.getHeader.length (.took 0) ++
          .wouldBlock :: List.replicate N (.took 0)) (by
        intro r hr
        rcases List.mem_append.mp hr with h | h
        · rw [List.eq_of_mem_replicate h]; decide
        · rcases List.mem_cons.mp h with rfl | h
          · decide
          · rw [List.eq_of_mem_replicate h]; decide) (by
        rw [moving, List.countP_append, List.countP_cons_of_neg (by decide)]
        exact (moving_replicate N 0).ge.trans (Nat.le_add_left _ _))
      rw [blocked] at ended
      exact nomatch ended
  · have todo := @Framed.todo_eq _ _ _ framed short (0 :: payload msg.body) fun results _ => by
      rw [Transfer.send2Socket, if_neg (by simp [there]), if_pos (by simp [plainSocket]),
        if_neg (by simp [unsent.plain]), Transfer.sendFileContent,
        if_neg (by simp [unsent.pending])]
      simp only
      rw [File.send2Socket, if_neg (by simp [valid]), if_pos (by simp [readable])]
      exact Or.inl rfl
    exact absurd todo (List.cons_ne_self _ _)

/-- The same for a body that goes through the ring. -/
theorem framable_of_ring (unsent : Unsent msg.body) (short : msg.getHeader.length < 2 ^ 31)
    (there : msg.body.file.testExist = true) (ring : (!mcsock.isSSL && sendfile) = false)
    (framed : Framed sendfile mcsock msg) : Framable sendfile mcsock msg.body := by
  have sender : ∀ results, Transfer.send2Socket sendfile mcsock
      ⟨msg.body, msg.getHeader, results, []⟩ =
        Transfer.sendContent mcsock.isSSL ⟨msg.body, msg.getHeader, results, []⟩ := by
    intro results
    rw [Transfer.send2Socket, if_neg (by simp [there]), if_neg (by simp [ring]),
      if_neg (by simp [unsent.plain])]
  by_cases readable : msg.body.file.testRead = true
  · have reading := unread_reading there unsent.closed unsent.unread
    have todo := @Framed.todo_eq _ _ _ framed short
      (msg.body.ringbuf.content ++ msg.body.file.contents ++ crlf) fun results all => by
        have sends := contentLoop_all mcsock.isSSL (results.length + 3)
          (t := ⟨msg.body, msg.getHeader, results, []⟩) unsent.ring reading
          (fun sent => absurd (unsent.pending.symm.trans sent) (by decide)) all
        rw [List.drop_zero, eofLeft, if_neg (by simp [unsent.pending])] at sends
        rw [sender, ← List.append_assoc, ← List.append_assoc]
        exact sends
    have lengths := congrArg List.length todo
    simp only [payload, List.length_append, crlf, List.length_cons] at lengths
    omega
  · have todo := @Framed.todo_eq _ _ _ framed short (0 :: payload msg.body) fun results all => by
      rw [sender]
      exact contentLoop_unreadable _ _ _ unsent.ring (by simpa using readable) unsent.unread all
    exact absurd todo (List.cons_ne_self _ _)

/-- The messages that are framed by their length are the ones without a body, and by
accident those whose ring holds the CRLF that is sent behind an empty file. -/
theorem framed_iff (valid : mcsock.fd.valid = true) (nonblock : mcsock.fd.nonblock = true)
    (unsent : Unsent msg.body) (short : msg.getHeader.length < 2 ^ 31)
    (length : msg.getContentLength = (payload msg.body).length) :
    Framed sendfile mcsock msg ↔ Framable sendfile mcsock msg.body := by
  refine ⟨fun framed => ?_, framed_of_framable valid nonblock unsent short length⟩
  cases there : msg.body.file.testExist with
  | false =>
    have nothing := framed.nothing short there
    rw [payload, contents_of_gone there, List.nil_append] at nothing
    exact Or.inl ⟨there, nothing⟩
  | true =>
    cases ring : !mcsock.isSSL && sendfile with
    | false => exact framable_of_ring unsent short there ring framed
    | true =>
      obtain ⟨plainSocket, rfl⟩ : mcsock.isSSL = false ∧ sendfile = true := by simpa using ring
      exact framable_of_sendfile valid nonblock unsent short there plainSocket framed

end

theorem construct_unsent (role : HttpRole) (garbage : Nat → Byte) :
    Unsent (HttpMessage.construct role garbage).body :=
  ⟨rfl, construct_valid _ _, rfl, rfl, rfl, rfl, rfl⟩

theorem setBodyFileName_unsent {m : HttpMessage} (unsent : Unsent m.body) (disk : Option Bytes)
    (readable : Bool) (mimetype : Option Bytes) :
    Unsent (m.setBodyFileName disk readable mimetype).body := by
  have reset : Unsent (m.body.setFile disk readable) :=
    ⟨unsent.plain, clear_valid unsent.ring, rfl, rfl, rfl, rfl, rfl⟩
  cases disk with
  | none => exact reset
  | some data =>
    cases mimetype with
    | none => exact reset
    | some type => exact reset

/-- A body that fits into the ring is put behind what is there. -/
theorem appendBody_fits {m : HttpMessage} (unsent : Unsent m.body) {body : Bytes}
    (data : body ≠ []) (fits : body.length < m.body.ringbuf.space) (results : List WriteResult) :
    ∃ b, m.appendBody body results = some { m with body := b } ∧ Unsent b ∧
      payload b = payload m.body ++ body ∧ b.file = m.body.file := by
  obtain ⟨plain, ring, closed, start, unread, pending, fresh⟩ := unsent
  obtain ⟨rb, written, appended, _⟩ := writeIn_spec ring (by omega) data
  refine ⟨{ m.body with ringbuf := rb }, ?_,
    ⟨plain, appended.valid, closed, start, unread, pending, fresh⟩, ?_, rfl⟩
  · rw [HttpMessage.appendBody, HttpBodyFile.writeIn, if_pos fits, written]
    rfl
  · rw [payload, payload, appended.content, List.take_of_length_le fits.le, List.append_assoc]

def response : HttpMessage :=
  { HttpMessage.construct .httpRoleResponse fun _ => 0 with
    statuscode := 200
    desc := literal "OK" }

/-- An empty response of length 0. -/
theorem empty_response_framed :
    Framed true ⟨⟨true, true, true⟩, false⟩ (response.setContentLength 0) :=
  (@framed_iff true ⟨⟨true, true, true⟩, false⟩ (response.setContentLength 0) rfl rfl
    (construct_unsent .httpRoleResponse fun _ => 0) (by decide) (by decide)).mpr
      (Or.inl ⟨rfl, clear_content _⟩)

/-- Of a response with `hello` as its body the header alone is sent when the body was
written, and `hello` and a CRLF when it was named. -/
theorem hello_misframed :
    (∃ m, (response.setContentLength 5).appendBody (literal "hello") [] = some m ∧
      Unsent m.body ∧ payload m.body = literal "hello" ∧ m.getContentLength = 5 ∧
      ¬ Framed true ⟨⟨true, true, true⟩, false⟩ m) ∧
    ∃ m, response.setBodyFileName (some (literal "hello")) true none = m ∧
      Unsent m.body ∧ payload m.body = literal "hello" ∧ m.getContentLength = 5 ∧
      ¬ Framed false ⟨⟨true, true, true⟩, false⟩ m := by
  have fresh : Unsent response.body := construct_unsent .httpRoleResponse _
  constructor
  · obtain ⟨b, appended, unsent, stored, file⟩ :=
      appendBody_fits (m := response.setContentLength 5) fresh
        (show literal "hello" ≠ [] by decide) (by decide) []
    rw [show payload (response.setContentLength 5).body = [] from
      clear_content response.body.ringbuf] at stored
    have length : (response.setContentLength 5).getContentLength = 5 := by decide
    have short : (response.setContentLength 5).getHeader.length < 2 ^ 31 := by decide
    refine ⟨_, appended, unsent, stored, length, fun framed => ?_⟩
    have nothing := framed.nothing short (by rw [file]; rfl)
    rw [stored] at nothing
    exact absurd nothing (by decide)
  · refine ⟨_, rfl, setBodyFileName_unsent fresh _ _ _, by decide, by decide, fun framed => ?_⟩
    have framable :=
      framable_of_ring (setBodyFileName_unsent fresh _ _ _) (by decide) rfl rfl framed
    rcases framable with ⟨gone, _⟩ | ⟨_, _, _, _, sendfile⟩
    · exact absurd gone (by decide)
    · exact absurd sendfile (by decide)

end LengthFraming
