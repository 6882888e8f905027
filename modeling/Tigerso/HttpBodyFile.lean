import Tigerso.Dechex
import Tigerso.FileSend
import Tigerso.RingSinks

/-!
# http/HttpBodyFile: sending a message body

The four senders resume from the fields of the body after every partial send.
Each case of the chunk machines is one definition, and falling through to the
next case is a call of it. A sender stops with an error of the `Except` when the
results are used up (or a copy would leave the ring's allocation); the log keeps
what the socket did to the calls that the resumption depends on.
-/

open SystemCalls DiskFile Dechex

def httpFileCacheSize : Int := 8192

inductive ChunkState where
  | chunkUinit
  | chunkSizeOn
  | chunkSizeDone
  | chunkEDataOn
  | chunkEDataDone
  | chunkEofOn
  | chunkEofDone
  | chunkFileDone
  | chunkNullOn
  | chunkNullDone
  deriving DecidableEq, Repr

structure HttpBodyFile where
  chunked : Bool
  file : File
  ringbuf : RingBuffer
  readoffset : Int
  chunksize : Int
  sendContentDone : Bool
  chunkstate : ChunkState

namespace HttpBodyFile

/-- The constructor; `garbage` is what `malloc` left in the ring. -/
def construct (bufsize : Nat) (garbage : Nat → Byte) : HttpBodyFile :=
  ⟨false, .fresh, .construct bufsize garbage, 0, httpFileCacheSize, false, .chunkUinit⟩

/-- `HttpBodyFile::reset`; `chunked` survives it. -/
def reset (b : HttpBodyFile) : HttpBodyFile :=
  { b with
    ringbuf := b.ringbuf.clear
    file := b.file.clear
    readoffset := 0
    chunksize := httpFileCacheSize
    sendContentDone := false
    chunkstate := .chunkUinit }

/-- `HttpBodyFile::setFile` for a name under which the disk holds `disk`. -/
def setFile (b : HttpBodyFile) (disk : Option Bytes) (readable : Bool) : HttpBodyFile :=
  { b.reset with file := b.reset.file.setFilename disk readable }

/-- The `int` that a 64-bit value is stored into. -/
def toInt (x : Int) : Int := Int.bmod x (2 ^ 32)

theorem toInt_of_short {n : Nat} (short : n < 2 ^ 31) : toInt n = n := by
  rw [toInt, Int.bmod_eq_of_le (by omega) (by omega)]

def inter2HexString (num : Int) : Bytes := dec2hex (num % 2 ^ 32).toNat

def crlf : Bytes := [13, 10]

def nullChunk : Bytes := [48, 13, 10, 13, 10]

/-- `file.getFileSize() - readoffset`. -/
def unread (b : HttpBodyFile) : Int := b.file.getFileSize - b.readoffset

def size (b : HttpBodyFile) : Nat :=
  b.ringbuf.size + if b.file.testExist then b.file.getFileSize else 0

/-- `HttpBodyFile::flushFile`; `none` when the results of the writes are used up. -/
def flushFile (b : HttpBodyFile) (results : List WriteResult) :
    Option (HttpBodyFile × List WriteResult) :=
  if b.ringbuf.size = 0 then some (b, results)
  else do
    let (d, file) ← b.ringbuf.readOut2File b.file results
    let _ ← d.ret
    some ({ b with ringbuf := d.ring, file := file }, d.rest)

/-- The `while(1)` of `writeIn` for a block that does not fit into the ring. -/
def spill : Nat → HttpBodyFile → Bytes → Nat → List WriteResult →
    Option (Int × HttpBodyFile × List WriteResult)
  | 0, _, _, _, _ => none
  | fuel + 1, b, left, len, results => do
    let (writen, rb) ← b.ringbuf.writeIn left
    let b := { b with ringbuf := rb }
    let left := if 0 < writen then left.drop writen.toNat else left
    if writen = ringbufferNoData then some (0, b, results)
    else
      let (b, results) ← if rb.isFull then b.flushFile results else some (b, results)
      if left.length = 0 then some (len, b, results) else spill fuel b left len results

/-- `HttpBodyFile::writeIn`; `results` are those of the writes to the file. -/
def writeIn (b : HttpBodyFile) (buf : Bytes) (results : List WriteResult) :
    Option (Int × HttpBodyFile × List WriteResult) :=
  if buf.length < b.ringbuf.space then do
    let (ret, rb) ← b.ringbuf.writeIn buf
    some (ret, { b with ringbuf := rb }, results)
  else if ringbufferDefaultLength ≤ buf.length then do
    let (b, results) ← b.flushFile results
    match results with
    | [] => none
    | r :: results =>
      let (ret, file) := b.file.appendWriteIn buf r
      some (ret, { b with file := file }, results)
  else spill (results.length + 2) b buf buf.length results

def closeFile (b : HttpBodyFile) (results : List WriteResult) : Option HttpBodyFile := do
  let (b, _) ← b.flushFile results
  some { b with file := b.file.close }

end HttpBodyFile

/-- What the socket did to a call that the resumption depends on: a send of the
ring used these results, or `sendfile` was asked for `count` bytes with this result
coming next. -/
inductive SendEvent where
  | ringSend (state : ChunkState) (used : List WriteResult)
  | sendfile (count : Nat) (next : Option WriteResult)
  deriving DecidableEq

/-- A body on its way to a socket: what the socket has taken so far, and the
results of the calls to come. -/
structure Transfer where
  body : HttpBodyFile
  sent : Bytes
  results : List WriteResult
  log : List SendEvent

/-- How a case of a chunk machine ends: `return ret`, or back to the loop. -/
inductive CaseFlow where
  | returned (ret : Int)
  | looping
  deriving DecidableEq

/-- A connected socket: its descriptor, and whether it speaks TLS. -/
structure Socket where
  fd : Fd
  isSSL : Bool

abbrev RingSender := RingBuffer → List WriteResult → Option (RingBuffer.Drain × Unit)

namespace Transfer

open HttpBodyFile

def setState (t : Transfer) (state : ChunkState) : Transfer :=
  { t with body := { t.body with chunkstate := state } }

def resetBody (t : Transfer) : Transfer := { t with body := t.body.reset }

def clearRing (t : Transfer) : Transfer :=
  { t with body := { t.body with ringbuf := t.body.ringbuf.clear } }

/-- `ringbuf.writeIn(bytes, …)`, whose result the senders ignore. -/
def writeRing (t : Transfer) (bytes : Bytes) : Except Transfer Transfer :=
  match t.body.ringbuf.writeIn bytes with
  | none => .error t
  | some (_, rb) => .ok { t with body := { t.body with ringbuf := rb } }

/-- `ret = ringbuf.send2Socket(…)`. -/
def sendRing (send : RingSender) (t : Transfer) : Except Transfer (Int × Transfer) :=
  match send t.body.ringbuf t.results with
  | none => .error t
  | some (d, _) =>
    let event := .ringSend t.body.chunkstate (spent t.results d.rest)
    let after : Transfer :=
      ⟨{ t.body with ringbuf := d.ring }, t.sent ++ d.sent, d.rest, t.log ++ [event]⟩
    match d.ret with
    | none => .error after
    | some ret => .ok (ret, after)

/-- Send the ring; on an error reset, on a partial send return in `state`, else
go on with the next case. -/
def flush (send : RingSender) (state : ChunkState)
    (next : Transfer → Except Transfer (CaseFlow × Transfer)) (t : Transfer) :
    Except Transfer (CaseFlow × Transfer) := do
  let (ret, t) ← t.sendRing send
  if ret < 0 then .ok (.returned fileSendfileError, t.resetBody)
  else if t.body.ringbuf.size ≠ 0 then .ok (.returned fileSendfileRecall, t.setState state)
  else next t

/-- `while (chunkstate != CHUNKNULLDONE) { switch … } reset(); return DONE`. -/
def chunkLoop (switch : Transfer → Except Transfer (CaseFlow × Transfer)) :
    Nat → Transfer → Except Transfer (Int × Transfer)
  | 0, t => .error t
  | fuel + 1, t =>
    if t.body.chunkstate = .chunkNullDone then .ok (fileSendfileDone, t.resetBody)
    else do
      let (flow, t) ← switch t
      match flow with
      | .returned ret => .ok (ret, t)
      | .looping => chunkLoop switch fuel t

/-- `case CHUNKNULLON`. -/
def caseNullOn (send : RingSender) : Transfer → Except Transfer (CaseFlow × Transfer) :=
  flush send .chunkNullOn fun t => .ok (.looping, t.setState .chunkNullDone)

/-- `case CHUNKFILEDONE`. -/
def caseFileDone (send : RingSender) (t : Transfer) : Except Transfer (CaseFlow × Transfer) := do
  let t ← t.clearRing.writeRing nullChunk
  caseNullOn send (t.setState .chunkNullOn)

/-- `case CHUNKSIZEON`; `data` is the case of the chunk data. -/
def caseSizeOn (send : RingSender) (data : Transfer → Except Transfer (CaseFlow × Transfer)) :
    Transfer → Except Transfer (CaseFlow × Transfer) :=
  flush send .chunkSizeOn fun t => data (t.setState .chunkSizeDone)

/-- `case CHUNKUINIT`. -/
def caseUinit (send : RingSender) (data : Transfer → Except Transfer (CaseFlow × Transfer))
    (t : Transfer) : Except Transfer (CaseFlow × Transfer) :=
  let leftdata := sizeT t.body.unread
  if leftdata = 0 then .ok (.looping, t.setState .chunkFileDone)
  else do
    let size := if leftdata < sizeT t.body.chunksize then toInt leftdata else t.body.chunksize
    let t : Transfer := { t with body := { t.body with chunksize := size } }
    let t ← t.clearRing.writeRing (inter2HexString size ++ crlf)
    caseSizeOn send data (t.setState .chunkSizeOn)

/-- What follows the chunk's CRLF: the next chunk or the last one. -/
def chunkSent (send : RingSender) (t : Transfer) : Except Transfer (CaseFlow × Transfer) :=
  let t : Transfer := { t with body := { t.body with chunksize := httpFileCacheSize } }
  if 0 < t.body.unread then .ok (.looping, t.setState .chunkUinit)
  else caseFileDone send (t.setState .chunkFileDone)

/-- `case CHUNKEOFON` of `sendChunk`. -/
def chunkCaseEofOn (send : RingSender) : Transfer → Except Transfer (CaseFlow × Transfer) :=
  flush send .chunkEofOn (chunkSent send)

/-- `case CHUNKEDATADONE` of `sendChunk`. -/
def chunkCaseDataDone (send : RingSender) (t : Transfer) :
    Except Transfer (CaseFlow × Transfer) := do
  let t ← t.writeRing crlf
  chunkCaseEofOn send (t.setState .chunkEofOn)

/-- `case CHUNKEDATAON` of `sendChunk`. -/
def chunkCaseDataOn (send : RingSender) : Transfer → Except Transfer (CaseFlow × Transfer) :=
  flush send .chunkEDataOn fun t => chunkCaseDataDone send (t.setState .chunkEDataDone)

/-- `case CHUNKSIZEDONE` of `sendChunk`; reads of the file are full. -/
def chunkCaseSizeDone (send : RingSender) (t : Transfer) : Except Transfer (CaseFlow × Transfer) :=
  match t.body.ringbuf.writeInFromFile t.body.file .full .full with
  | none => .error t
  | some (ret, rb, file) =>
    let t : Transfer := { t with body := { t.body with ringbuf := rb, file := file } }
    if ret < 0 then .ok (.returned fileSendfileError, t.resetBody)
    else
      let t : Transfer := { t with body := { t.body with readoffset := t.body.readoffset + ret } }
      chunkCaseDataOn send (t.setState .chunkSizeDone)

/-- The `switch` of `sendChunk`. -/
def chunkSwitch (send : RingSender) (t : Transfer) : Except Transfer (CaseFlow × Transfer) :=
  match t.body.chunkstate with
  | .chunkUinit => caseUinit send (chunkCaseSizeDone send) t
  | .chunkSizeOn => caseSizeOn send (chunkCaseSizeDone send) t
  | .chunkSizeDone => chunkCaseSizeDone send t
  | .chunkEDataOn => chunkCaseDataOn send t
  | .chunkEDataDone => chunkCaseDataDone send t
  | .chunkEofOn => chunkCaseEofOn send t
  | .chunkFileDone => caseFileDone send t
  | .chunkNullOn => caseNullOn send t
  | _ => .ok (.looping, t)

/-- An empty file is taken for a sent one at every entry. -/
def enter (t : Transfer) : Transfer :=
  if t.body.file.getFileSize = 0 then t.setState .chunkFileDone else t

/-- `HttpBodyFile::sendChunk`. Every pass through the loop but two uses a result. -/
def sendChunk (isSSL : Bool) (t : Transfer) : Except Transfer (Int × Transfer) :=
  chunkLoop (chunkSwitch (RingBuffer.send2Socket · isSSL)) (t.results.length + 3) t.enter

/-- `case CHUNKEOFON` of `sendFileChunk`, which looks at the return value where
the other cases look at the ring. -/
def fileCaseEofOn (send : RingSender) (t : Transfer) : Except Transfer (CaseFlow × Transfer) := do
  let (ret, t) ← t.sendRing send
  if ret < 0 then .ok (.returned fileSendfileError, t.resetBody)
  else if ret = fileSendfileRecall then
    .ok (.returned fileSendfileRecall, t.setState .chunkEofOn)
  else chunkSent send t

/-- `case CHUNKEDATADONE` of `sendFileChunk`. -/
def fileCaseDataDone (send : RingSender) (t : Transfer) :
    Except Transfer (CaseFlow × Transfer) := do
  let t ← t.clearRing.writeRing crlf
  fileCaseEofOn send (t.setState .chunkEofOn)

/-- `case CHUNKEDATAON` of `sendFileChunk`, which `CHUNKSIZEDONE` falls into. -/
def fileCaseDataOn (sockfd : Fd) (send : RingSender) (t : Transfer) :
    Except Transfer (CaseFlow × Transfer) :=
  let count := sizeT t.body.chunksize
  let s := t.body.file.send2SocketRange sockfd t.body.readoffset count t.results
  let body := { t.body with file := s.file, readoffset := s.offset }
  let after : Transfer :=
    ⟨body, t.sent ++ s.sent, s.rest, t.log ++ [.sendfile count t.results.head?]⟩
  match s.ret with
  | none => .error after
  | some ret =>
    if ret < 0 then .ok (.returned fileSendfileError, after.resetBody)
    else if ret = fileSendfileRecall then
      let rest := { body with chunksize := toInt (body.chunksize - s.sendn) }
      .ok (.returned ret, { after with body := rest }.setState .chunkEDataOn)
    else fileCaseDataDone send (after.setState .chunkEDataDone)

/-- The `switch` of `sendFileChunk`. -/
def fileSwitch (sockfd : Fd) (send : RingSender) (t : Transfer) :
    Except Transfer (CaseFlow × Transfer) :=
  match t.body.chunkstate with
  | .chunkUinit => caseUinit send (fileCaseDataOn sockfd send) t
  | .chunkSizeOn => caseSizeOn send (fileCaseDataOn sockfd send) t
  | .chunkSizeDone => fileCaseDataOn sockfd send t
  | .chunkEDataOn => fileCaseDataOn sockfd send t
  | .chunkEDataDone => fileCaseDataDone send t
  | .chunkEofOn => fileCaseEofOn send t
  | .chunkFileDone => caseFileDone send t
  | .chunkNullOn => caseNullOn send t
  | _ => .ok (.looping, t)

def sendFileChunk (sockfd : Fd) (t : Transfer) : Except Transfer (Int × Transfer) :=
  chunkLoop (fileSwitch sockfd (RingBuffer.send2SocketFd · sockfd)) (t.results.length + 3) t.enter

/-- `sendFileContent` behind the file: the CRLF, which the ring holds. -/
def sendFileEof (send : RingSender) (t : Transfer) : Except Transfer (Int × Transfer) := do
  let (ret, t) ← t.sendRing send
  if ret < 0 then .ok (fileSendfileError, t)
  else if t.body.ringbuf.size ≠ 0 then .ok (fileSendfileRecall, t)
  else .ok (fileSendfileDone, t.resetBody)

def sendFileContent (sockfd : Fd) (t : Transfer) : Except Transfer (Int × Transfer) :=
  let send := (RingBuffer.send2SocketFd · sockfd)
  if t.body.sendContentDone then t.sendFileEof send
  else
    let s := t.body.file.send2Socket sockfd t.results
    let after : Transfer := ⟨{ t.body with file := s.file }, t.sent ++ s.sent, s.rest, t.log⟩
    match s.ret with
    | none => .error after
    | some ret =>
      if ret < 0 then .ok (fileSendfileError, after)
      else if ret = fileSendfileDone then do
        let done : Transfer := { after with body := { after.body with sendContentDone := true } }
        let t ← done.clearRing.writeRing crlf
        t.sendFileEof send
      else .ok (fileSendfileRecall, after)

def appendEof (t : Transfer) : Except Transfer Transfer :=
  { t with body := { t.body with sendContentDone := true } }.writeRing crlf

/-- The `while(1)` of `sendContent`: the second pass is the last one. -/
def contentEof (send : RingSender) : Nat → Transfer → Except Transfer (Int × Transfer)
  | 0, t => .error t
  | passes + 1, t => do
    let (ret, t) ← t.sendRing send
    if ret < 0 then .ok (fileSendfileError, t)
    else if t.body.ringbuf.size ≠ 0 then .ok (fileSendfileRecall, t)
    else if t.body.sendContentDone then .ok (fileSendfileDone, t.resetBody)
    else do
      let t ← t.appendEof
      contentEof send passes t

/-- `while(!_file.isReadDone()) { … }` and what follows it. -/
def contentLoop (send : RingSender) : Nat → Transfer → Except Transfer (Int × Transfer)
  | 0, t => .error t
  | fuel + 1, t =>
    if t.body.file.isReadDone then contentEof send 2 t
    else
      match t.body.ringbuf.writeInFromFile t.body.file .full .full with
      | none => .error t
      | some (ret, rb, file) => do
        let t : Transfer := { t with body := { t.body with ringbuf := rb, file := file } }
        if ret < 0 then .ok (fileSendfileError, t)
        else do
          let (ret, t) ← t.sendRing send
          if ret < 0 then .ok (fileSendfileError, t)
          else if t.body.ringbuf.size ≠ 0 then .ok (fileSendfileRecall, t)
          else if t.body.file.isReadDone then do
            let t ← t.appendEof
            contentLoop send fuel t
          else contentLoop send fuel t

/-- `HttpBodyFile::sendContent`. Every pass but two uses a result. -/
def sendContent (isSSL : Bool) (t : Transfer) : Except Transfer (Int × Transfer) :=
  contentLoop (RingBuffer.send2Socket · isSSL) (t.results.length + 3) t

/-- `HttpBodyFile::send2Socket`; `sendfile` is the static switch of the class. -/
def send2Socket (sendfile : Bool) (mcsock : Socket) (t : Transfer) :
    Except Transfer (Int × Transfer) :=
  if !t.body.file.testExist then .ok (fileSendfileDone, t)
  else if !mcsock.isSSL && sendfile then
    if t.body.chunked then t.sendFileChunk mcsock.fd else t.sendFileContent mcsock.fd
  else if t.body.chunked then t.sendChunk mcsock.isSSL
  else t.sendContent mcsock.isSSL

/-- Call again after each `FILE_SENDFILE_RECALL`. -/
def resume (call : Transfer → Except Transfer (Int × Transfer)) :
    Nat → Transfer → Except Transfer (Int × Transfer)
  | 0, t => .error t
  | fuel + 1, t => do
    let (ret, t) ← call t
    if ret = fileSendfileRecall then resume call fuel t else .ok (ret, t)

/-- A call that asks for a recall has used a result. -/
def sendAll (call : Transfer → Except Transfer (Int × Transfer)) (t : Transfer) :
    Except Transfer (Int × Transfer) :=
  resume call (t.results.length + 1) t

end Transfer
