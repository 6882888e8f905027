import Tigerso.SystemCalls

/-!
# core/File: one named file and the descriptor it is read through

The disk contents are what `stat` and `open` find under `filename_`. The
descriptor is `closed` after `File::close`, and `dangling` when
`continuousReadOut` has closed it at the end of the file without storing -1.
-/

open SystemCalls

namespace DiskFile

def fileReadAccessDeny : Int := -3
def fileFdInvalid : Int := -4
def fileArgsInvalid : Int := -6

def fileSendfileError : Int := -1
def fileSendfileRecall : Int := 0
def fileSendfileDone : Int := 1

inductive Descriptor where
  | closed
  | opened (pos : Nat)
  | dangling
  deriving DecidableEq, Repr

structure File where
  /-- `strlen(filename_) != 0`. -/
  named : Bool
  /-- Contents found under the name; `none` when there is no such file. -/
  disk : Option Bytes
  readable : Bool
  fd : Descriptor
  size : Nat
  cur : Int
  readdone : Bool
  deriving Repr

namespace File

/-- `TEST_FILEACCESS(filename_, F_OK)`; the empty name exists nowhere. -/
def testExist (f : File) : Bool := f.named && f.disk.isSome

def testRead (f : File) : Bool := f.testExist && f.readable

def contents (f : File) : Bytes := if f.named then f.disk.getD [] else []

def getFileSize (f : File) : Nat := f.contents.length

def isReadDone (f : File) : Bool := f.readdone

def validFd (f : File) : Bool :=
  match f.fd with
  | .closed => false
  | _ => true

def close (f : File) : File := { f with fd := .closed }

/-- `File::reset`: close the descriptor and forget all progress. -/
def reset (f : File) : File :=
  { f.close with size := 0, cur := 0, readdone := false }

/-- `File::clear`: reset and forget the name; the file on disk stays. -/
def clear (f : File) : File := { f.reset with named := false, disk := none }

/-- `File::setFilename` for a name under which the disk holds `disk`. -/
def setFilename (f : File) (disk : Option Bytes) (readable : Bool) : File :=
  { f.reset with named := true, disk := disk, readable := readable }

def fresh : File := ⟨false, none, false, .closed, 0, 0, false⟩

/-- Bytes a read of `len` at offset `pos` returns; `none` for -1. -/
def readAt (data : Bytes) (pos len : Nat) : ReadResult → Option Bytes
  | .full => some ((data.drop pos).take len)
  | .upTo limit => some ((data.drop pos).take (min limit len))
  | .failed => none

/-- `::read(fd_, buf, len)` and what `continuousReadOut` does with its result. -/
def readFd (f : File) (len : Nat) (r : ReadResult) : Int × Bytes × File :=
  match f.fd with
  | .opened pos =>
    match readAt f.contents pos len r with
    | none => (-1, [], f)
    | some bytes =>
      if bytes.length < len then
        -- ::close(fd_) without resetting fd_
        (bytes.length, bytes, { f with readdone := true, fd := .dangling })
      else (bytes.length, bytes, { f with fd := .opened (pos + bytes.length) })
  -- EBADF
  | _ => (-1, [], f)

/-- `File::continuousReadOut`: the return value, the bytes stored at `buf` and
the file afterwards. -/
def continuousReadOut (f : File) (len : Nat) (r : ReadResult) : Int × Bytes × File :=
  if len = 0 then (fileArgsInvalid, [], f)
  else if !f.testExist || !f.testRead then (fileReadAccessDeny, [], f)
  else if !f.validFd then readFd { f with readdone := false, fd := .opened 0 } len r
  else readFd f len r

theorem readAt_length_le {data : Bytes} {pos len : Nat} {r : ReadResult} {bytes : Bytes}
    (h : readAt data pos len r = some bytes) : bytes.length ≤ len := by
  cases r with
  | full =>
    cases h
    exact List.length_take_le ..
  | upTo limit =>
    cases h
    exact (List.length_take_le ..).trans (Nat.min_le_right _ _)
  | failed => cases h

theorem readFd_counts (f : File) (len : Nat) (r : ReadResult) :
    (f.readFd len r).2.1.length ≤ len ∧
      (0 ≤ (f.readFd len r).1 → (f.readFd len r).1 = (f.readFd len r).2.1.length) := by
  rw [readFd]
  split
  · split
    · simp
    · rename_i got
      split_ifs <;> exact ⟨readAt_length_le got, fun _ => rfl⟩
  · simp

/-- A read stores at most what was asked for and returns the count, or an error. -/
theorem continuousReadOut_counts {f f' : File} {len : Nat} {r : ReadResult} {ret : Int}
    {bytes : Bytes} (h : f.continuousReadOut len r = (ret, bytes, f')) :
    bytes.length ≤ len ∧ (0 ≤ ret → ret = bytes.length) := by
  have parts : (f.continuousReadOut len r).2.1.length ≤ len ∧
      (0 ≤ (f.continuousReadOut len r).1 →
        (f.continuousReadOut len r).1 = (f.continuousReadOut len r).2.1.length) := by
    rw [continuousReadOut]
    split_ifs
    · simp [fileArgsInvalid]
    · simp [fileReadAccessDeny]
    · exact readFd_counts ..
    · exact readFd_counts ..
  simpa only [h] using parts

/-- Reads one after another, settled by results among `rds` and none failing:
`bytes` are what they deliver. -/
inductive ReadsOut (rds : ReadResult → Prop) : File → Bytes → File → Prop
  | nothing (f : File) : ReadsOut rds f [] f
  | further {f f₁ f₂ : File} {len : Nat} {r : ReadResult} {ret : Int} {bytes more : Bytes}
      (allowed : rds r) (read : f.continuousReadOut len r = (ret, bytes, f₁)) (nonneg : 0 ≤ ret)
      (later : ReadsOut rds f₁ more f₂) : ReadsOut rds f (bytes ++ more) f₂

theorem ReadsOut.once {rds : ReadResult → Prop} {f f₁ : File} {len : Nat} {r : ReadResult}
    {ret : Int} {bytes : Bytes} (allowed : rds r)
    (read : f.continuousReadOut len r = (ret, bytes, f₁)) (nonneg : 0 ≤ ret) :
    ReadsOut rds f bytes f₁ := by
  have one := ReadsOut.further allowed read nonneg (.nothing f₁)
  rwa [List.append_nil] at one

/-- `File::appendWriteIn`: the return value and the file afterwards. -/
def appendWriteIn (f : File) (buf : Bytes) (r : WriteResult) : Int × File :=
  if buf.length = 0 || !f.named then (fileArgsInvalid, f)
  else
    match r with
    | .took n =>
      let writen := accepted n buf.length
      (writen, { f with disk := some (f.contents ++ buf.take writen) })
    -- O_CREAT creates the file even when the write then fails
    | _ => (-1, { f with disk := some f.contents })

end File

end DiskFile
