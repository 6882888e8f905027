import Tigerso.HttpBodyFile
import Tigerso.RingMemory

/-!
# What a message body keeps of its past

Two bodies are alike when they differ only in cells of the ring that were not written since it
was cleared. Everything that is done to two such bodies has the same results, sends the same
bytes and leaves two such bodies; `chunked` is kept by all of it.
-/

open SystemCalls DiskFile Dechex RelatedResults

namespace HttpBodyFile

inductive Alike (c : Bool) (b : HttpBodyFile) : HttpBodyFile → Prop
  | mk {file : File} {rb : RingBuffer} (chunked : b.chunked = c) (files : File.Alike b.file file)
      (rings : RingBuffer.Alike b.ringbuf rb) : Alike c b { b with file := file, ringbuf := rb }

variable {c : Bool} {b b' : HttpBodyFile}

theorem Alike.chunked_eq (alike : Alike c b b') : b.chunked = c ∧ b'.chunked = c := by
  cases alike with
  | mk chunked => exact ⟨chunked, chunked⟩

theorem Alike.files (alike : Alike c b b') : File.Alike b.file b'.file := by
  cases alike with
  | mk _ files => exact files

theorem Alike.rings (alike : Alike c b b') : RingBuffer.Alike b.ringbuf b'.ringbuf := by
  cases alike with
  | mk _ _ rings => exact rings

theorem Alike.reset (alike : Alike c b b') : Alike c b.reset b'.reset := by
  cases alike with
  | mk chunked files rings => exact .mk (b := b.reset) chunked files.clear rings.clear

/-- A body that was reset is like a new one with its `chunked`. -/
theorem Alike.reset_fresh (alike : Alike c b b') (garbage : Nat → Byte) :
    Alike c { construct httpFileCacheSize.toNat garbage with chunked := c } b.reset := by
  have files : File.Alike .fresh b.file.clear :=
    .unnamed (f := .fresh) rfl b.file.readable
  have capacity : b.ringbuf.capacity = ringbufferDefaultLength + 1 := alike.rings.limit
  have rings :
      RingBuffer.Alike (.construct httpFileCacheSize.toNat garbage) b.ringbuf.clear := by
    have cleared : b.ringbuf.clear = (RingBuffer.construct httpFileCacheSize.toNat
        garbage).clear.withBuffer b.ringbuf.buffer := by
      rw [RingBuffer.clear, capacity]
      rfl
    rw [cleared]
    exact RingBuffer.clear_alike rfl _
  have same : b.reset =
      { ({ construct httpFileCacheSize.toNat garbage with chunked := c } : HttpBodyFile) with
      file := b.file.clear, ringbuf := b.ringbuf.clear } := by
    rw [HttpBodyFile.reset, alike.chunked_eq.1]
    rfl
  rw [same]
  exact .mk rfl files rings

theorem Alike.size (alike : Alike c b b') : b'.size = b.size := by
  rw [HttpBodyFile.size, HttpBodyFile.size, alike.rings.size, alike.files.testExist,
    alike.files.getFileSize]

/-- A ring with bytes of its own goes into the two bodies. -/
theorem Alike.withRings (alike : Alike c b b') {rb rb' : RingBuffer}
    (rings : RingBuffer.Alike rb rb') :
    Alike c { b with ringbuf := rb } { b' with ringbuf := rb' } := by
  cases alike with
  | mk chunked files => exact .mk (b := { b with ringbuf := rb }) chunked files rings

theorem Alike.withFiles (alike : Alike c b b') {file file' : File}
    (files : File.Alike file file') :
    Alike c { b with file := file } { b' with file := file' } := by
  cases alike with
  | mk chunked _ rings => exact .mk (b := { b with file := file }) chunked files rings

theorem Alike.withState (alike : Alike c b b') (state : ChunkState) :
    Alike c { b with chunkstate := state } { b' with chunkstate := state } := by
  cases alike with
  | mk chunked files rings => exact .mk (b := { b with chunkstate := state }) chunked files rings

theorem Alike.withOffset (alike : Alike c b b') (offset : Int) :
    Alike c { b with readoffset := offset } { b' with readoffset := offset } := by
  cases alike with
  | mk chunked files rings => exact .mk (b := { b with readoffset := offset }) chunked files rings

theorem Alike.withSize (alike : Alike c b b') (size : Int) :
    Alike c { b with chunksize := size } { b' with chunksize := size } := by
  cases alike with
  | mk chunked files rings => exact .mk (b := { b with chunksize := size }) chunked files rings

theorem Alike.withDone (alike : Alike c b b') (done : Bool) :
    Alike c { b with sendContentDone := done } { b' with sendContentDone := done } := by
  cases alike with
  | mk chunked files rings =>
    exact .mk (b := { b with sendContentDone := done }) chunked files rings

theorem Alike.withChunked (alike : Alike c b b') :
    Alike true { b with chunked := true } { b' with chunked := true } := by
  cases alike with
  | mk _ files rings => exact .mk (b := { b with chunked := true }) rfl files rings

/-- What the cases of the senders look at. -/
theorem Alike.fields (alike : Alike c b b') : b'.readoffset = b.readoffset ∧
    b'.chunksize = b.chunksize ∧ b'.sendContentDone = b.sendContentDone ∧
    b'.chunkstate = b.chunkstate := by
  cases alike with
  | mk => exact ⟨rfl, rfl, rfl, rfl⟩

theorem Alike.unread (alike : Alike c b b') : b'.unread = b.unread := by
  rw [HttpBodyFile.unread, HttpBodyFile.unread, alike.files.getFileSize, alike.fields.1]

theorem Alike.setFile (alike : Alike c b b') (disk : Option Bytes) (readable : Bool) :
    Alike c (b.setFile disk readable) (b'.setFile disk readable) := by
  rw [HttpBodyFile.setFile, HttpBodyFile.setFile, alike.reset.files.setFilename]
  exact alike.reset.withFiles (.same _)

theorem flushFile_alike (alike : Alike c b b') (results : List WriteResult) :
    Option.Rel (fun x y => Alike c x.1 y.1 ∧ x.2 = y.2) (b.flushFile results)
      (b'.flushFile results) := by
  rw [flushFile, flushFile, alike.rings.size]
  split_ifs
  · exact .some ⟨alike, rfl⟩
  · refine optionBind (RingBuffer.readOut2File_alike alike.rings alike.files results)
      fun x y ⟨⟨ret, ring, sent, rest⟩, files⟩ => ?_
    dsimp only
    rw [← ret]
    cases x.1.ret with
    | none => exact .none
    | some ret => exact .some ⟨(alike.withRings ring).withFiles files, rest⟩

/-- The spill loop does not look at the coding of the body. -/
theorem spill_alike (fuel len : Nat) (alike : Alike c b b') (left : Bytes)
    (results : List WriteResult) :
    Option.Rel (fun x y => x.1 = y.1 ∧ Alike c x.2.1 y.2.1 ∧ x.2.2 = y.2.2)
      (spill fuel b left len results) (spill fuel b' left len results) := by
  induction fuel generalizing b b' left results with
  | zero => exact .none
  | succ fuel ih =>
    rw [spill, spill]
    refine optionBind (RingBuffer.writeIn_alike alike.rings left) fun x y ⟨same, rings⟩ => ?_
    obtain ⟨writen, rb⟩ := x
    obtain ⟨writen', rb'⟩ := y
    obtain rfl : writen = writen' := same
    dsimp only at rings ⊢
    have written := alike.withRings rings
    by_cases nothing : writen = ringbufferNoData
    · rw [if_pos nothing, if_pos nothing]
      exact .some ⟨rfl, written, rfl⟩
    rw [if_neg nothing, if_neg nothing, rings.isFull]
    have go (x y : HttpBodyFile × List WriteResult) (same : Alike c x.1 y.1 ∧ x.2 = y.2)
        (left : Bytes) : Option.Rel (fun x y => x.1 = y.1 ∧ Alike c x.2.1 y.2.1 ∧ x.2.2 = y.2.2)
          (if left.length = 0 then some ((len : Int), x.1, x.2) else spill fuel x.1 left len x.2)
          (if left.length = 0 then some ((len : Int), y.1, y.2)
            else spill fuel y.1 left len y.2) := by
      rw [same.2]
      split_ifs
      · exact .some ⟨rfl, same.1, rfl⟩
      · exact ih same.1 _ _
    by_cases full : rb.isFull = true
    · rw [if_pos full, if_pos full]
      exact optionBind (flushFile_alike written results) fun x y same => go x y same _
    · rw [if_neg full, if_neg full]
      exact go ({ b with ringbuf := rb }, results) ({ b' with ringbuf := rb' }, results)
        ⟨written, rfl⟩ _

theorem writeIn_alike (alike : Alike c b b') (buf : Bytes) (results : List WriteResult) :
    Option.Rel (fun x y => x.1 = y.1 ∧ Alike c x.2.1 y.2.1 ∧ x.2.2 = y.2.2)
      (b.writeIn buf results) (b'.writeIn buf results) := by
  rw [writeIn, writeIn, alike.rings.space]
  split_ifs
  · refine optionBind (RingBuffer.writeIn_alike alike.rings buf) fun x y ⟨ret, rings⟩ => ?_
    exact .some ⟨ret, alike.withRings rings, rfl⟩
  · refine optionBind (flushFile_alike alike results) fun x y ⟨bodies, same⟩ => ?_
    obtain ⟨body, rest⟩ := x
    obtain ⟨body', rest'⟩ := y
    obtain rfl : rest = rest' := same
    dsimp only at bodies ⊢
    cases rest with
    | nil => exact .none
    | cons r rest =>
      obtain ⟨ret, g, g', wrote, wrote', kept⟩ := bodies.files.appendWriteIn buf r
      simp only [wrote, wrote']
      exact .some ⟨rfl, bodies.withFiles kept, rfl⟩
  · exact spill_alike _ _ alike buf results

end HttpBodyFile

namespace Transfer
open HttpBodyFile

/-- Two bodies on their way that are alike, with the same past and the same results to come. -/
inductive Alike (c : Bool) (t : Transfer) : Transfer → Prop
  | mk {b : HttpBodyFile} (bodies : HttpBodyFile.Alike c t.body b) : Alike c t { t with body := b }

/-- A call that does not tell such bodies apart. -/
def Keeps {ι : Type} (c : Bool) (call : Transfer → Except Transfer (ι × Transfer)) : Prop :=
  ∀ t t', Alike c t t' → ExceptRel (Alike c) (Same (Alike c)) (call t) (call t')

variable {c : Bool} {t t' : Transfer}

theorem Alike.bodies (alike : Alike c t t') : HttpBodyFile.Alike c t.body t'.body := by
  cases alike with
  | mk bodies => exact bodies

theorem Alike.sent (alike : Alike c t t') : t'.sent = t.sent := by
  cases alike with
  | mk => rfl

theorem Alike.results (alike : Alike c t t') : t'.results = t.results := by
  cases alike with
  | mk => rfl

/-- The transfers go on with bodies that are alike. -/
theorem Alike.withBodies (alike : Alike c t t') {b b' : HttpBodyFile}
    (bodies : HttpBodyFile.Alike c b b') :
    Alike c { t with body := b } { t' with body := b' } := by
  cases alike with
  | mk => exact .mk (t := { t with body := b }) bodies

theorem Alike.resumed (alike : Alike c t t') (sent : Bytes) (rest : List WriteResult)
    (events : List SendEvent) :
    Alike c ⟨t.body, t.sent ++ sent, rest, t.log ++ events⟩
      ⟨t'.body, t'.sent ++ sent, rest, t'.log ++ events⟩ := by
  cases alike with
  | mk bodies => exact .mk (t := ⟨t.body, t.sent ++ sent, rest, t.log ++ events⟩) bodies

theorem Alike.setState (alike : Alike c t t') (state : ChunkState) :
    Alike c (t.setState state) (t'.setState state) :=
  alike.withBodies (alike.bodies.withState state)

theorem Alike.resetBody (alike : Alike c t t') : Alike c t.resetBody t'.resetBody :=
  alike.withBodies alike.bodies.reset

theorem Alike.clearRing (alike : Alike c t t') : Alike c t.clearRing t'.clearRing :=
  alike.withBodies (alike.bodies.withRings alike.bodies.rings.clear)

theorem writeRing_alike (alike : Alike c t t') (bytes : Bytes) :
    ExceptRel (Alike c) (Alike c) (t.writeRing bytes) (t'.writeRing bytes) := by
  have wrote := RingBuffer.writeIn_alike alike.bodies.rings bytes
  rw [writeRing, writeRing]
  generalize t.body.ringbuf.writeIn bytes = x at wrote ⊢
  generalize t'.body.ringbuf.writeIn bytes = y at wrote ⊢
  cases wrote with
  | none => exact .error alike
  | some same => exact .ok (alike.withBodies (alike.bodies.withRings same.2))

theorem appendEof_alike (alike : Alike c t t') :
    ExceptRel (Alike c) (Alike c) t.appendEof t'.appendEof :=
  writeRing_alike (alike.withBodies (alike.bodies.withDone true)) _

section
variable {send : RingSender} (sends : RingBuffer.SendAlike send)
include sends

theorem sendRing_keeps : Keeps c (sendRing send) := by
  intro t t' alike
  have sent := sends _ _ t.results alike.bodies.rings
  have state := alike.bodies.fields.2.2.2
  rw [sendRing, sendRing, alike.results, state]
  generalize send t.body.ringbuf t.results = x at sent ⊢
  generalize send t'.body.ringbuf t.results = y at sent ⊢
  cases sent with
  | none => exact .error alike
  | @some x y same =>
    obtain ⟨⟨ret, ring, bytes, rest⟩, _⟩ := same
    dsimp only
    rw [ret, bytes, rest]
    have after := (alike.withBodies (alike.bodies.withRings ring)).resumed y.1.sent y.1.rest
      [.ringSend t.body.chunkstate (spent t.results y.1.rest)]
    cases y.1.ret with
    | none => exact .error after
    | some ret => exact .ok ⟨rfl, after⟩

theorem flush_keeps (state : ChunkState)
    {next : Transfer → Except Transfer (CaseFlow × Transfer)} (goes : Keeps c next) :
    Keeps c (flush send state next) := by
  intro t t' alike
  refine ExceptRel.bind (sendRing_keeps sends t t' alike) fun x y ⟨ret, after⟩ => ?_
  dsimp only
  rw [ret, after.bodies.rings.size]
  split_ifs
  · exact .ok ⟨rfl, after.resetBody⟩
  · exact .ok ⟨rfl, after.setState state⟩
  · exact goes _ _ after

theorem caseNullOn_keeps : Keeps c (caseNullOn send) :=
  flush_keeps sends _ fun _ _ alike => .ok ⟨rfl, alike.setState _⟩

theorem caseFileDone_keeps : Keeps c (caseFileDone send) := by
  intro t t' alike
  refine ExceptRel.bind (writeRing_alike alike.clearRing _) fun x y after => ?_
  exact caseNullOn_keeps sends _ _ (after.setState _)

theorem chunkSent_keeps : Keeps c (chunkSent send) := by
  intro t t' alike
  have sized := alike.withBodies (alike.bodies.withSize httpFileCacheSize)
  rw [chunkSent, chunkSent]
  dsimp only
  rw [sized.bodies.unread]
  split_ifs
  · exact .ok ⟨rfl, sized.setState _⟩
  · exact caseFileDone_keeps sends _ _ (sized.setState _)

section
variable {data : Transfer → Except Transfer (CaseFlow × Transfer)} (goes : Keeps c data)
include goes

theorem caseSizeOn_keeps : Keeps c (caseSizeOn send data) :=
  flush_keeps sends _ fun _ _ alike => goes _ _ (alike.setState _)

theorem caseUinit_keeps : Keeps c (caseUinit send data) := by
  intro t t' alike
  have size := alike.bodies.fields.2.1
  rw [caseUinit, caseUinit]
  dsimp only
  rw [alike.bodies.unread, size]
  by_cases done : sizeT t.body.unread = 0
  · rw [if_pos done, if_pos done]
    exact .ok ⟨rfl, alike.setState _⟩
  · rw [if_neg done, if_neg done]
    have sized := alike.withBodies (alike.bodies.withSize
      (if sizeT t.body.unread < sizeT t.body.chunksize then toInt (sizeT t.body.unread)
        else t.body.chunksize))
    refine ExceptRel.bind (writeRing_alike sized.clearRing _) fun x y after => ?_
    exact caseSizeOn_keeps sends goes _ _ (after.setState _)

end

theorem chunkCaseEofOn_keeps : Keeps c (chunkCaseEofOn send) :=
  flush_keeps sends _ (chunkSent_keeps sends)

theorem chunkCaseDataDone_keeps : Keeps c (chunkCaseDataDone send) := by
  intro t t' alike
  refine ExceptRel.bind (writeRing_alike alike _) fun x y after => ?_
  exact chunkCaseEofOn_keeps sends _ _ (after.setState _)

theorem chunkCaseDataOn_keeps : Keeps c (chunkCaseDataOn send) :=
  flush_keeps sends _ fun _ _ alike => chunkCaseDataDone_keeps sends _ _ (alike.setState _)

theorem chunkCaseSizeDone_keeps : Keeps c (chunkCaseSizeDone send) := by
  intro t t' alike
  have read := RingBuffer.writeInFromFile_alike alike.bodies.rings alike.bodies.files .full .full
  rw [chunkCaseSizeDone, chunkCaseSizeDone]
  generalize t.body.ringbuf.writeInFromFile t.body.file .full .full = x at read ⊢
  generalize t'.body.ringbuf.writeInFromFile t'.body.file .full .full = y at read ⊢
  cases read with
  | none => exact .error alike
  | @some x y same =>
    obtain ⟨ret, rings, files⟩ := same
    have filled := alike.withBodies ((alike.bodies.withRings rings).withFiles files)
    dsimp only
    rw [ret, alike.bodies.fields.1]
    split_ifs
    · exact .ok ⟨rfl, filled.resetBody⟩
    · exact chunkCaseDataOn_keeps sends _ _
        ((filled.withBodies (filled.bodies.withOffset (t.body.readoffset + y.1))).setState _)

theorem chunkSwitch_keeps : Keeps c (chunkSwitch send) := by
  intro t t' alike
  rw [chunkSwitch, chunkSwitch, alike.bodies.fields.2.2.2]
  cases t.body.chunkstate with
  | chunkUinit => exact caseUinit_keeps sends (chunkCaseSizeDone_keeps sends) _ _ alike
  | chunkSizeOn => exact caseSizeOn_keeps sends (chunkCaseSizeDone_keeps sends) _ _ alike
  | chunkSizeDone => exact chunkCaseSizeDone_keeps sends _ _ alike
  | chunkEDataOn => exact chunkCaseDataOn_keeps sends _ _ alike
  | chunkEDataDone => exact chunkCaseDataDone_keeps sends _ _ alike
  | chunkEofOn => exact chunkCaseEofOn_keeps sends _ _ alike
  | chunkEofDone => exact .ok ⟨rfl, alike⟩
  | chunkFileDone => exact caseFileDone_keeps sends _ _ alike
  | chunkNullOn => exact caseNullOn_keeps sends _ _ alike
  | chunkNullDone => exact .ok ⟨rfl, alike⟩

theorem fileCaseEofOn_keeps : Keeps c (fileCaseEofOn send) := by
  intro t t' alike
  refine ExceptRel.bind (sendRing_keeps sends t t' alike) fun x y ⟨ret, after⟩ => ?_
  dsimp only
  rw [ret]
  split_ifs
  · exact .ok ⟨rfl, after.resetBody⟩
  · exact .ok ⟨rfl, after.setState _⟩
  · exact chunkSent_keeps sends _ _ after

theorem fileCaseDataDone_keeps : Keeps c (fileCaseDataDone send) := by
  intro t t' alike
  refine ExceptRel.bind (writeRing_alike alike.clearRing _) fun x y after => ?_
  exact fileCaseEofOn_keeps sends _ _ (after.setState _)

/-- The case that reads the file. -/
theorem fileCaseDataOn_keeps (sockfd : Fd) : Keeps c (fileCaseDataOn sockfd send) := by
  intro t t' alike
  obtain ⟨offset, size, _, _⟩ := alike.bodies.fields
  have moved := alike.bodies.files.send2SocketRange sockfd t.body.readoffset
    (sizeT t.body.chunksize) t.results
  rw [fileCaseDataOn, fileCaseDataOn, alike.results, offset, size]
  generalize t.body.file.send2SocketRange sockfd t.body.readoffset (sizeT t.body.chunksize)
    t.results = s at moved ⊢
  generalize t'.body.file.send2SocketRange sockfd t.body.readoffset (sizeT t.body.chunksize)
    t.results = s' at moved ⊢
  obtain ⟨ret, files, sendn, reached, sent, rest⟩ := moved
  dsimp only
  rw [ret, sendn, reached, sent, rest]
  have bodies := (alike.bodies.withFiles files).withOffset s'.offset
  have after := (alike.withBodies bodies).resumed s'.sent s'.rest
    [.sendfile (sizeT t.body.chunksize) t.results.head?]
  cases s'.ret with
  | none => exact .error after
  | some ret =>
    dsimp only
    split_ifs
    · exact .ok ⟨rfl, after.resetBody⟩
    · exact .ok ⟨rfl, (after.withBodies (bodies.withSize
        (toInt (t.body.chunksize - s'.sendn)))).setState _⟩
    · exact fileCaseDataDone_keeps sends _ _ (after.setState _)

theorem fileSwitch_keeps (sockfd : Fd) : Keeps c (fileSwitch sockfd send) := by
  intro t t' alike
  have data : Keeps c (fileCaseDataOn sockfd send) := fileCaseDataOn_keeps sends sockfd
  rw [fileSwitch, fileSwitch, alike.bodies.fields.2.2.2]
  cases t.body.chunkstate with
  | chunkUinit => exact caseUinit_keeps sends data _ _ alike
  | chunkSizeOn => exact caseSizeOn_keeps sends data _ _ alike
  | chunkSizeDone => exact data _ _ alike
  | chunkEDataOn => exact data _ _ alike
  | chunkEDataDone => exact fileCaseDataDone_keeps sends _ _ alike
  | chunkEofOn => exact fileCaseEofOn_keeps sends _ _ alike
  | chunkEofDone => exact .ok ⟨rfl, alike⟩
  | chunkFileDone => exact caseFileDone_keeps sends _ _ alike
  | chunkNullOn => exact caseNullOn_keeps sends _ _ alike
  | chunkNullDone => exact .ok ⟨rfl, alike⟩

theorem sendFileEof_keeps : Keeps c (sendFileEof send) := by
  intro t t' alike
  refine ExceptRel.bind (sendRing_keeps sends t t' alike) fun x y ⟨ret, after⟩ => ?_
  dsimp only
  rw [ret, after.bodies.rings.size]
  split_ifs
  · exact .ok ⟨rfl, after⟩
  · exact .ok ⟨rfl, after⟩
  · exact .ok ⟨rfl, after.resetBody⟩

theorem contentEof_keeps (passes : Nat) : Keeps c (contentEof send passes) := by
  induction passes with
  | zero =>
    intro t t' alike
    exact .error alike
  | succ passes ih =>
    intro t t' alike
    refine ExceptRel.bind (sendRing_keeps sends t t' alike) fun x y ⟨ret, after⟩ => ?_
    dsimp only
    rw [ret, after.bodies.rings.size, after.bodies.fields.2.2.1]
    split_ifs
    · exact .ok ⟨rfl, after⟩
    · exact .ok ⟨rfl, after⟩
    · exact .ok ⟨rfl, after.resetBody⟩
    · exact ExceptRel.bind (appendEof_alike after) ih

/-- Nor does the loop of `sendFileContent`. -/
theorem contentLoop_keeps (fuel : Nat) : Keeps c (contentLoop send fuel) := by
  induction fuel with
  | zero =>
    intro t t' alike
    exact .error alike
  | succ fuel ih =>
    intro t t' alike
    rw [contentLoop, contentLoop, alike.bodies.files.isReadDone]
    by_cases done : t.body.file.isReadDone = true
    · rw [if_pos done, if_pos done]
      exact contentEof_keeps sends 2 t t' alike
    rw [if_neg done, if_neg done]
    have read :=
      RingBuffer.writeInFromFile_alike alike.bodies.rings alike.bodies.files .full .full
    generalize t.body.ringbuf.writeInFromFile t.body.file .full .full = x at read ⊢
    generalize t'.body.ringbuf.writeInFromFile t'.body.file .full .full = y at read ⊢
    cases read with
    | none => exact .error alike
    | @some x y same =>
      obtain ⟨ret, rings, files⟩ := same
      have filled := alike.withBodies ((alike.bodies.withRings rings).withFiles files)
      dsimp only
      rw [ret]
      by_cases error : y.1 < 0
      · rw [if_pos error, if_pos error]
        exact .ok ⟨rfl, filled⟩
      rw [if_neg error, if_neg error]
      refine ExceptRel.bind (sendRing_keeps sends _ _ filled) fun x y ⟨ret, after⟩ => ?_
      rw [ret, after.bodies.rings.size, after.bodies.files.isReadDone]
      split_ifs
      · exact .ok ⟨rfl, after⟩
      · exact .ok ⟨rfl, after⟩
      · exact ExceptRel.bind (appendEof_alike after) ih
      · exact ih _ _ after

end

theorem chunkLoop_keeps {switch : Transfer → Except Transfer (CaseFlow × Transfer)}
    (keeps : Keeps c switch) (fuel : Nat) : Keeps c (chunkLoop switch fuel) := by
  induction fuel with
  | zero =>
    intro t t' alike
    exact .error alike
  | succ fuel ih =>
    intro t t' alike
    rw [chunkLoop, chunkLoop, alike.bodies.fields.2.2.2]
    split_ifs
    · exact .ok ⟨rfl, alike.resetBody⟩
    · refine ExceptRel.bind (keeps t t' alike) fun x y ⟨flow, after⟩ => ?_
      dsimp only
      rw [flow]
      cases y.1 with
      | returned ret => exact .ok ⟨rfl, after⟩
      | looping => exact ih _ _ after

theorem Alike.enter (alike : Alike c t t') : Alike c t.enter t'.enter := by
  rw [Transfer.enter, Transfer.enter, alike.bodies.files.getFileSize]
  split_ifs
  · exact alike.setState _
  · exact alike

theorem sendChunk_keeps (isSSL : Bool) : Keeps c (sendChunk isSSL) := by
  intro t t' alike
  rw [sendChunk, sendChunk, alike.results]
  exact chunkLoop_keeps (chunkSwitch_keeps (RingBuffer.send2Socket_alike isSSL)) _ _ _ alike.enter

theorem sendFileChunk_keeps (sockfd : Fd) : Keeps c (sendFileChunk sockfd) := by
  intro t t' alike
  rw [sendFileChunk, sendFileChunk, alike.results]
  exact chunkLoop_keeps (fileSwitch_keeps (RingBuffer.send2SocketFd_alike sockfd) sockfd) _ _ _
    alike.enter

theorem sendContent_keeps (isSSL : Bool) : Keeps c (sendContent isSSL) := by
  intro t t' alike
  rw [sendContent, sendContent, alike.results]
  exact contentLoop_keeps (RingBuffer.send2Socket_alike isSSL) _ _ _ alike

/-- Without chunks a body is sent in the same way, whatever coding was left in it. -/
theorem sendFileContent_keeps (sockfd : Fd) : Keeps c (sendFileContent sockfd) := by
  intro t t' alike
  have sends := RingBuffer.send2SocketFd_alike sockfd
  have moved := alike.bodies.files.send2Socket sockfd t.results
  rw [sendFileContent, sendFileContent, alike.bodies.fields.2.2.1, alike.results]
  dsimp only
  by_cases done : t.body.sendContentDone = true
  · rw [if_pos done, if_pos done]
    exact sendFileEof_keeps sends _ _ alike
  rw [if_neg done, if_neg done]
  generalize t.body.file.send2Socket sockfd t.results = s at moved ⊢
  generalize t'.body.file.send2Socket sockfd t.results = s' at moved ⊢
  obtain ⟨ret, files, _, _, sent, rest⟩ := moved
  rw [ret, sent, rest]
  have bodies := alike.bodies.withFiles files
  have after : Alike c ⟨{ t.body with file := s.file }, t.sent ++ s'.sent, s'.rest, t.log⟩
      ⟨{ t'.body with file := s'.file }, t'.sent ++ s'.sent, s'.rest, t'.log⟩ := by
    have resumed := (alike.withBodies bodies).resumed s'.sent s'.rest []
    simpa only [List.append_nil] using resumed
  cases s'.ret with
  | none => exact .error after
  | some ret =>
    dsimp only
    split_ifs
    · exact .ok ⟨rfl, after⟩
    · have content := (after.withBodies (bodies.withDone true)).clearRing
      exact ExceptRel.bind (writeRing_alike content _) fun x y filled =>
        sendFileEof_keeps sends _ _ filled
    · exact .ok ⟨rfl, after⟩

/-- `send2Socket` sends the same of bodies that are alike. -/
theorem send2Socket_keeps (sendfile : Bool) (mcsock : Socket) :
    Keeps c (send2Socket sendfile mcsock) := by
  intro t t' alike
  obtain ⟨chunked, chunked'⟩ := alike.bodies.chunked_eq
  rw [send2Socket, send2Socket, alike.bodies.files.testExist, chunked, chunked']
  split_ifs
  · exact .ok ⟨rfl, alike⟩
  · exact sendFileChunk_keeps _ _ _ alike
  · exact sendFileContent_keeps _ _ _ alike
  · exact sendChunk_keeps _ _ _ alike
  · exact sendContent_keeps _ _ _ alike

end Transfer
