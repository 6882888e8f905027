import Tigerso.DiskFile

/-!
# core/File: sending a file with sendfile

Two overloads of `File::send2Socket`. The ranged one hands `sendfile` the
caller's offset, which the kernel advances by the bytes it sent; the loop
advances it by the same count once more. The other one reads through the
position of the descriptor and keeps its own count in `cur_`.
-/

open SystemCalls

namespace DiskFile

/-- A call of `File::send2Socket`: `ret = none` when the results are used up
before it returns. -/
structure FileSend where
  ret : Option Int
  file : File
  sendn : Int
  offset : Int
  sent : Bytes
  rest : List WriteResult

/-- The bytes one `sendfile` of `count` from `offset` moves on the result `took n`. -/
def sendfileBytes (data : Bytes) (offset : Int) (count n : Nat) : Bytes :=
  ((data.drop offset.toNat).take count).take (n + 1)

/-- Progress of a `sendfile` loop; `status = none` while it waits for a result. -/
structure SendfileLoop where
  status : Option Int
  offset : Int
  sent : Bytes
  rest : List WriteResult

/-- `while (left > 0 && (n = sendfile(sockfd, fd_, &offset, left)) < left)`. -/
def sendRange (data : Bytes) : List WriteResult → Int → Nat → SendfileLoop
  | [], offset, left =>
    if left = 0 then ⟨some fileSendfileDone, offset, [], []⟩ else ⟨none, offset, [], []⟩
  | r :: results, offset, left =>
    if left = 0 then ⟨some fileSendfileDone, offset, [], r :: results⟩
    else
      match r with
      | .took n =>
        let bytes := sendfileBytes data offset left n
        if bytes.length < left then
          -- sendfile has advanced offset by n, `offset += n` does it again
          let later := sendRange data results (offset + bytes.length + bytes.length)
            (left - bytes.length)
          { later with sent := bytes ++ later.sent }
        else ⟨some fileSendfileDone, offset + bytes.length, bytes, results⟩
      | .wouldBlock => ⟨some fileSendfileRecall, offset, [], results⟩
      | .failed => ⟨some fileSendfileError, offset, [], results⟩

/-- `while (left > 0 && (n = sendfile(sockfd, fd_, NULL, left)) < left)`, with the
position of the descriptor. -/
def sendOnward (data : Bytes) : List WriteResult → Int → Nat → SendfileLoop
  | [], pos, left =>
    if left = 0 then ⟨some fileSendfileDone, pos, [], []⟩ else ⟨none, pos, [], []⟩
  | r :: results, pos, left =>
    if left = 0 then ⟨some fileSendfileDone, pos, [], r :: results⟩
    else
      match r with
      | .took n =>
        let bytes := sendfileBytes data pos left n
        if bytes.length < left then
          let later := sendOnward data results (pos + bytes.length) (left - bytes.length)
          { later with sent := bytes ++ later.sent }
        else ⟨some fileSendfileDone, pos + bytes.length, bytes, results⟩
      | .wouldBlock => ⟨some fileSendfileRecall, pos, [], results⟩
      | .failed => ⟨some fileSendfileError, pos, [], results⟩

namespace File

/-- `if(!validFd(fd_)) { fd_ = ::open(filename_, O_RDONLY); }`. -/
def openRead (f : File) : File := if f.validFd then f else { f with fd := .opened 0 }

/-- `sendfile` fails with EBADF for the number of a closed descriptor and with EINVAL
for a negative offset or count. -/
def sendfileRefuses (f : File) (offset left : Int) : Prop :=
  f.fd = .dangling ∨ offset < 0 ∨ left < 0

instance (f : File) (offset left : Int) : Decidable (f.sendfileRefuses offset left) :=
  inferInstanceAs (Decidable (_ ∨ _ ∨ _))

def sendRangeBlocking (f : File) (offset : Int) (left : Nat) : List WriteResult → FileSend
  | results =>
    if left = 0 then ⟨some fileSendfileDone, f.reset, 0, offset, [], results⟩
    else
      match results with
      | [] => ⟨none, f, 0, offset, [], []⟩
      | .took n :: results =>
        let bytes := sendfileBytes f.contents offset left n
        let after := offset + bytes.length + bytes.length
        if bytes.length < left then
          ⟨some fileSendfileRecall, f, after - offset, after, bytes, results⟩
        else ⟨some fileSendfileDone, f.reset, after - offset, after, bytes, results⟩
      | _ :: results => ⟨some fileSendfileError, f, 0, offset - 1, [], results⟩

def sendRangeNonblock (f : File) (offset : Int) (count : Nat) (results : List WriteResult) :
    FileSend :=
  let loop := sendRange f.contents results offset count
  match loop.status with
  | none => ⟨none, f, 0, loop.offset, loop.sent, loop.rest⟩
  | some status =>
    if status = fileSendfileError then ⟨some status, f, 0, loop.offset, loop.sent, loop.rest⟩
    else
      let f := if status = fileSendfileDone then f.reset else f
      ⟨some status, f, loop.offset - offset, loop.offset, loop.sent, loop.rest⟩

/-- `ssize_t left`: the count, cut to the file. The sum is a `size_t`, which wraps for a
count close to 2^64. -/
def leftInRange (f : File) (offset : Int) (count : Nat) : Int :=
  ssizeT (if f.getFileSize < sizeT (offset + count) then sizeT (f.getFileSize - offset) else count)

def sendLeft (f : File) (sockfd : Fd) (offset left : Int) (results : List WriteResult) :
    FileSend :=
  if sockfd.nonblock then
    if 0 < left ∧ f.sendfileRefuses offset left then
      ⟨some fileSendfileError, f, 0, offset, [], results⟩
    else f.sendRangeNonblock offset left.toNat results
  else if left ≠ 0 ∧ f.sendfileRefuses offset left then
    -- `offset += n` with n = -1
    ⟨some fileSendfileError, f, 0, offset - 1, [], results⟩
  else f.sendRangeBlocking offset left.toNat results

/-- `File::send2Socket(int, size_t&, off_t&, size_t)`. -/
def send2SocketRange (f : File) (sockfd : Fd) (offset : Int) (count : Nat)
    (results : List WriteResult) : FileSend :=
  if !sockfd.valid then ⟨some fileFdInvalid, f, 0, offset, [], results⟩
  else if f.getFileSize ≤ offset then ⟨some fileSendfileDone, f.reset, 0, offset, [], results⟩
  else if !f.testExist || !f.testRead then
    ⟨some fileReadAccessDeny, f, 0, offset, [], results⟩
  else f.openRead.sendLeft sockfd offset (f.leftInRange offset count) results

def sendOnwardBlocking (f : File) (left : Int) : List WriteResult → FileSend
  | results =>
    if left = 0 then ⟨some fileSendfileDone, f.reset, 0, 0, [], results⟩
    else if f.sendfileRefuses f.cur left then ⟨some fileSendfileError, f, 0, 0, [], results⟩
    else
      match results with
      | [] => ⟨none, f, 0, 0, [], []⟩
      | .took n :: results =>
        let bytes := sendfileBytes f.contents f.cur (sizeT left) n
        let after := { f with cur := f.cur + bytes.length }
        if bytes.length < left then
          ⟨some fileSendfileRecall, after, bytes.length, 0, bytes, results⟩
        else if bytes.length = left then
          ⟨some fileSendfileDone, f.reset, bytes.length, 0, bytes, results⟩
        else ⟨some fileSendfileError, after, 0, 0, bytes, results⟩
      | _ :: results => ⟨some fileSendfileError, f, 0, 0, [], results⟩

/-- The branch of a non-blocking socket in the other overload; `fd_` stands at `pos`. -/
def sendOnwardNonblock (f : File) (pos : Nat) (left : Int) (results : List WriteResult) :
    FileSend :=
  let loop := sendOnward f.contents results pos left.toNat
  let f := { f with fd := .opened loop.offset.toNat }
  match loop.status with
  | none => ⟨none, f, 0, 0, loop.sent, loop.rest⟩
  | some status =>
    if status = fileSendfileRecall then
      -- `cur_ += n` with n = -1; what was sent is not counted
      ⟨some status, { f with cur := f.cur - 1 }, -1, 0, loop.sent, loop.rest⟩
    else if status = fileSendfileDone then
      ⟨some status, f.reset, 0, 0, loop.sent, loop.rest⟩
    else ⟨some status, f, 0, 0, loop.sent, loop.rest⟩

/-- Where the whole file is sent from: its beginning, unless `cur_` says that a send is
under way. -/
def readPos (f : File) : Nat :=
  match f.fd with
  | .opened pos => if f.cur = 0 then 0 else pos
  | _ => 0

def send2Socket (f : File) (sockfd : Fd) (results : List WriteResult) : FileSend :=
  if !sockfd.valid then ⟨some fileFdInvalid, f, 0, 0, [], results⟩
  else if !f.testExist || !f.testRead then ⟨some fileReadAccessDeny, f, 0, 0, [], results⟩
  -- lseek on the number of a closed descriptor
  else if f.fd = .dangling ∧ f.cur = 0 then ⟨some fileFdInvalid, f, 0, 0, [], results⟩
  else
    let pos := f.readPos
    let left : Int := f.getFileSize - f.cur
    let fd := if f.fd = .dangling then .dangling else .opened pos
    let f := { f with size := f.getFileSize, fd := fd }
    if f.fd = .dangling ∧ 0 < left then ⟨some fileSendfileError, f, 0, 0, [], results⟩
    else if sockfd.nonblock then f.sendOnwardNonblock pos left results
    else f.sendOnwardBlocking left results

end File

theorem exists_of_readable {f : File} (there : f.testRead = true) : f.testExist = true := by
  simp only [File.testRead, Bool.and_eq_true] at there
  exact there.1

/-- On a descriptor that is not dangling the call comes to its `sendfile` loop. -/
theorem send2Socket_onward {f : File} {fd : Fd} (valid : fd.valid = true)
    (nonblock : fd.nonblock = true) (there : f.testRead = true) (usable : f.fd ≠ .dangling)
    (results : List WriteResult) :
    f.send2Socket fd results =
      File.sendOnwardNonblock { f with size := f.getFileSize, fd := .opened f.readPos } f.readPos
        (f.getFileSize - f.cur) results := by
  rw [File.send2Socket, if_neg (by simp [valid]),
    if_neg (by simp [exists_of_readable there, there]), if_neg (by simp [usable])]
  simp [usable, nonblock]

theorem sendOnward_zero (data : Bytes) (results : List WriteResult) (pos : Int) :
    sendOnward data results pos 0 = ⟨some fileSendfileDone, pos, [], results⟩ := by
  cases results <;> rfl

/-- A count that is larger than the file is never used up at its end. -/
theorem sendOnward_starves {data : Bytes} {results : List WriteResult}
    (all : ∀ r ∈ results, r.IsTook) {pos left : Nat} (inside : pos ≤ data.length)
    (beyond : data.length < pos + left) :
    (sendOnward data results pos left).status = none := by
  induction results generalizing pos left with
  | nil => rw [sendOnward, if_neg (by omega)]
  | cons r results ih =>
    cases r with
    | took n =>
      have few : (sendfileBytes data pos left n).length ≤ data.length - pos := by
        rw [sendfileBytes, Int.toNat_natCast, List.length_take, List.length_take, List.length_drop]
        omega
      rw [sendOnward, if_neg (by omega)]
      simp only
      rw [if_pos (by omega)]
      have later := ih (fun r hr => all r (List.mem_cons_of_mem _ hr))
        (show pos + (sendfileBytes data pos left n).length ≤ data.length by omega)
        (show data.length < pos + (sendfileBytes data pos left n).length +
          (left - (sendfileBytes data pos left n).length) by omega)
      simpa using later
    | wouldBlock => exact absurd (all _ List.mem_cons_self) id
    | failed => exact absurd (all _ List.mem_cons_self) id

end DiskFile
