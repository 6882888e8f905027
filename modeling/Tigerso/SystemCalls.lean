import Mathlib.Data.List.Basic
import Mathlib.Tactic.Linarith

/-!
# Machine words, status codes and the results of system calls

`size_t` arithmetic is taken modulo 2^64, so that a subtraction that underflows
gives the value the program really computes. The kernel's side of a read or a
write is a list of results: each entry settles one call. A write moves at least
one byte of a nonempty request and never more than the request.
-/

abbrev Byte := UInt8
abbrev Bytes := List Byte

namespace SystemCalls

/-- An integer expression stored into a `size_t`. -/
def sizeT (x : Int) : Nat := (x % 2 ^ 64).toNat

theorem sizeT_natCast {n : Nat} (h : n < 2 ^ 64) : sizeT (n : Int) = n := by
  rw [sizeT, Int.emod_eq_of_lt (by omega) (by exact_mod_cast h), Int.toNat_natCast]

theorem sizeT_eq {x : Int} {n : Nat} (hx : x = n) (h : n < 2 ^ 64) : sizeT x = n := by
  rw [hx, sizeT_natCast h]

/-- A `size_t` stored into an `ssize_t`. -/
def ssizeT (n : Nat) : Int := if n < 2 ^ 63 then n else n - 2 ^ 64

theorem ssizeT_of_small {n : Nat} (h : n < 2 ^ 63) : ssizeT n = n := if_pos h

theorem ssizeT_of_large {n : Nat} (h : 2 ^ 63 ≤ n) : ssizeT n = n - 2 ^ 64 :=
  if_neg (Nat.not_lt.mpr h)

/-- Codes of `core/tigerso.h`. -/
def tigersoIoError : Int := -1
def tigersoIoRecall : Int := 0
def tigersoIoOk : Int := 1

/-- How the kernel settles one non-blocking write. `took n` accepts `n + 1`
bytes, or the whole request if that is shorter. -/
inductive WriteResult where
  | took (n : Nat)
  | wouldBlock
  | failed
  deriving DecidableEq, Repr

/-- Bytes accepted out of a request of `count` bytes. -/
def accepted (n count : Nat) : Nat := min (n + 1) count

theorem accepted_le (n count : Nat) : accepted n count ≤ count := Nat.min_le_right _ _

theorem accepted_pos {n count : Nat} (h : 0 < count) : 0 < accepted n count := by
  simp only [accepted]
  omega

/-- How the kernel settles one file read: everything asked for and available,
at most `limit` bytes of that, or an error. -/
inductive ReadResult where
  | full
  | upTo (limit : Nat)
  | failed
  deriving DecidableEq, Repr

/-- A descriptor with the answers of `fcntl` to it. -/
structure Fd where
  /-- Not negative, and `fcntl(fd, F_GETFL)` succeeds. -/
  valid : Bool
  /-- `fcntl(fd, F_SETFL, …)` succeeds. -/
  settable : Bool
  nonblock : Bool
  deriving DecidableEq

/-- A result that moves bytes. -/
def WriteResult.IsTook : WriteResult → Prop
  | .took _ => True
  | _ => False

instance (r : WriteResult) : Decidable r.IsTook := by
  cases r <;> simp only [WriteResult.IsTook] <;> infer_instance

def moving (results : List WriteResult) : Nat := results.countP (fun r => decide r.IsTook)

@[simp] theorem moving_nil : moving [] = 0 := rfl

theorem moving_took (n : Nat) (results : List WriteResult) :
    moving (.took n :: results) = moving results + 1 :=
  List.countP_cons_of_pos (decide_eq_true trivial)

theorem moving_replicate (k n : Nat) : moving (List.replicate k (.took n)) = k := by
  induction k with
  | zero => rfl
  | succ k ih => rw [List.replicate_succ, moving_took, ih]

theorem moving_of_not_took {r : WriteResult} (h : ¬ r.IsTook) (results : List WriteResult) :
    moving (r :: results) = moving results :=
  List.countP_cons_of_neg (by simpa using h)

/-- What a call has used of the results when it leaves `rest`. -/
def spent (results rest : List WriteResult) : List WriteResult :=
  results.take (results.length - rest.length)

theorem spent_cons {results rest : List WriteResult} (suffix : rest <:+ results)
    (r : WriteResult) : spent (r :: results) rest = r :: spent results rest := by
  have shorter := suffix.length_le
  rw [spent, spent, List.length_cons, Nat.succ_sub shorter, List.take_succ_cons]

/-- Some of the data was taken, and then the socket took no more. -/
def CutShort (used : List WriteResult) : Prop :=
  (∃ r ∈ used, r.IsTook) ∧ ∃ r ∈ used, ¬ r.IsTook

end SystemCalls
