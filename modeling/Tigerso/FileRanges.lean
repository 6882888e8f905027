import Tigerso.FileSend

/-!
# What a ranged send reports

`sendfile` advances the offset by what it sent, and `send2Socket` adds the same count once
more: on a blocking socket after every call, on a non-blocking one after every call that was
cut short. The report is right on a non-blocking socket whose first `sendfile` is not cut
short, for a range that `off_t` and `size_t` hold.
-/

open SystemCalls DiskFile

namespace FileRanges

/-- A call that was given `offset` and `count` on the file `data` reports what it sent. -/
structure Accounts (data : Bytes) (offset : Int) (count : Nat) (s : FileSend) : Prop where
  advanced : s.offset = offset + s.sent.length
  bytes : s.sent = (data.drop offset.toNat).take s.sent.length
  counted : s.sendn = s.sent.length
  most : s.sendn ≤ count
  whole : s.ret = some fileSendfileDone →
    s.sent.length = min count (data.length - offset).toNat

/-- The call returns `FILE_SENDFILE_DONE` or `FILE_SENDFILE_RECALL`. -/
def Served (s : FileSend) : Prop :=
  s.ret = some fileSendfileDone ∨ s.ret = some fileSendfileRecall

/-- The first `sendfile` moves all that is asked for, or nothing. -/
def NotCut (asked : Nat) : List WriteResult → Prop
  | .took n :: _ => asked ≤ n + 1
  | _ => True

section
variable {f : File} {sockfd : Fd} {offset : Int} {count left n : Nat} {data : Bytes}
  {results : List WriteResult}

theorem sendfileBytes_length (inside : offset.toNat + left ≤ data.length) :
    (sendfileBytes data offset left n).length = min (n + 1) left := by
  rw [sendfileBytes, List.length_take, List.length_take, List.length_drop]
  omega

theorem openRead_contents (f : File) : f.openRead.contents = f.contents := by
  rw [File.openRead]
  split_ifs
  · rfl
  · rfl

/-- The offset never stays behind what was sent. -/
theorem sendRange_offset (data : Bytes) (results : List WriteResult) :
    ∀ offset left, offset + (sendRange data results offset left).sent.length ≤
      (sendRange data results offset left).offset := by
  induction results with
  | nil =>
    intro offset left
    simp only [sendRange]
    split_ifs
    · simp
    · simp
  | cons r results ih =>
    intro offset left
    simp only [sendRange]
    split_ifs with nothing
    · simp
    · cases r with
      | took n =>
        dsimp only
        split_ifs with cut
        · have later := ih (offset + (sendfileBytes data offset left n).length +
            (sendfileBytes data offset left n).length)
            (left - (sendfileBytes data offset left n).length)
          rw [List.length_append]
          push_cast
          omega
        · exact Int.le_refl _
      | wouldBlock => simp
      | failed => simp

/-- A `sendfile` that is cut short leaves the offset ahead of what was sent, to the end. -/
theorem sendRange_ahead (cut : n + 1 < left) (inside : offset.toNat + left ≤ data.length) :
    offset + (sendRange data (.took n :: results) offset left).sent.length <
      (sendRange data (.took n :: results) offset left).offset := by
  have moved : (sendfileBytes data offset left n).length = n + 1 := by
    rw [sendfileBytes_length inside]
    omega
  have later := sendRange_offset data results (offset + (n + 1 : Nat) + (n + 1 : Nat))
    (left - (n + 1))
  rw [sendRange, if_neg (by omega)]
  dsimp only
  rw [moved, if_pos cut, List.length_append, moved]
  push_cast at later ⊢
  omega

theorem sendRange_whole (positive : 0 < left) (whole : left ≤ n + 1)
    (inside : offset.toNat + left ≤ data.length) :
    sendRange data (.took n :: results) offset left =
      ⟨some fileSendfileDone, offset + left, (data.drop offset.toNat).take left, results⟩ := by
  have moved : (sendfileBytes data offset left n).length = left := by
    rw [sendfileBytes_length inside]
    omega
  have bytes : sendfileBytes data offset left n = (data.drop offset.toNat).take left := by
    rw [sendfileBytes, List.take_take, Nat.min_eq_right whole]
  rw [sendRange, if_neg (by omega)]
  dsimp only
  rw [moved, if_neg (Nat.lt_irrefl left), bytes]

theorem sendRangeNonblock_offset (f : File) (offset : Int) (left : Nat)
    (results : List WriteResult) :
    (f.sendRangeNonblock offset left results).offset =
      (sendRange f.contents results offset left).offset := by
  rw [File.sendRangeNonblock]
  dsimp only
  split
  · rfl
  · split_ifs
    · rfl
    · rfl
    · rfl

theorem sendRangeNonblock_sent (f : File) (offset : Int) (left : Nat)
    (results : List WriteResult) :
    (f.sendRangeNonblock offset left results).sent =
      (sendRange f.contents results offset left).sent := by
  rw [File.sendRangeNonblock]
  dsimp only
  split
  · rfl
  · split_ifs
    · rfl
    · rfl
    · rfl

theorem sendRangeNonblock_whole (positive : 0 < left) (whole : left ≤ n + 1)
    (inside : offset.toNat + left ≤ f.contents.length) :
    f.sendRangeNonblock offset left (.took n :: results) =
      ⟨some fileSendfileDone, f.reset, left, offset + left,
        (f.contents.drop offset.toNat).take left, results⟩ := by
  rw [File.sendRangeNonblock, sendRange_whole positive whole inside]
  simp [fileSendfileDone, fileSendfileError]

theorem sendRangeNonblock_blocked (positive : 0 < left) :
    f.sendRangeNonblock offset left (.wouldBlock :: results) =
      ⟨some fileSendfileRecall, f, 0, offset, [], results⟩ := by
  rw [File.sendRangeNonblock, sendRange, if_neg (by omega)]
  simp [fileSendfileDone, fileSendfileError, fileSendfileRecall]

/-- Nothing is sent of a range that has no length, and the call returns DONE. -/
theorem not_accounts_of_nothing {s : FileSend} (ret : s.ret = some fileSendfileDone)
    (sent : s.sent = []) (below : offset < data.length) (positive : 0 < count) :
    ¬ Accounts data offset count s := by
  intro accounts
  have all := accounts.whole ret
  rw [sent, List.length_nil] at all
  omega

/-- On a non-blocking socket the call tells how far it came unless it was cut in the middle. -/
theorem nonblock_accounts_iff (left_eq : left = min count (f.contents.length - offset).toNat)
    (nonneg : 0 ≤ offset) (below : offset < f.contents.length) (positive : 0 < count)
    (served : Served (f.sendRangeNonblock offset left results)) :
    Accounts f.contents offset count (f.sendRangeNonblock offset left results) ↔
      NotCut left results := by
  have inside : offset.toNat + left ≤ f.contents.length := by omega
  cases results with
  | nil =>
    have waits : sendRange f.contents [] offset left = ⟨none, offset, [], []⟩ := by
      rw [sendRange, if_neg (by omega)]
    rw [Served, File.sendRangeNonblock, waits] at served
    simp at served
  | cons r results =>
    cases r with
    | took n =>
      constructor
      · intro accounts
        by_contra cut
        have ahead : offset +
            (sendRange f.contents (.took n :: results) offset left).sent.length <
            (sendRange f.contents (.took n :: results) offset left).offset :=
          sendRange_ahead (Nat.not_le.mp cut) inside
        have advanced := accounts.advanced
        rw [sendRangeNonblock_offset, sendRangeNonblock_sent] at advanced
        omega
      · intro whole
        rw [sendRangeNonblock_whole (by omega) whole inside]
        have length : ((f.contents.drop offset.toNat).take left).length = left := by
          rw [List.length_take, List.length_drop]
          omega
        constructor
        · simp [length]
        · simp [length]
        · simp [length]
        · simp only
          omega
        · exact fun _ => length.trans left_eq
    | wouldBlock =>
      rw [sendRangeNonblock_blocked (by omega)]
      constructor
      · intro _
        trivial
      · intro _
        constructor
        · simp
        · simp
        · simp
        · simp
        · simp [fileSendfileRecall, fileSendfileDone]
    | failed =>
      have stops : sendRange f.contents (.failed :: results) offset left =
          ⟨some fileSendfileError, offset, [], results⟩ := by
        rw [sendRange, if_neg (by omega)]
      rw [Served, File.sendRangeNonblock, stops] at served
      simp [fileSendfileError, fileSendfileDone, fileSendfileRecall] at served

/-- On a blocking socket what was sent is added twice. -/
theorem blocking_not_accounts (positive : 0 < left)
    (inside : offset.toNat + left ≤ f.contents.length)
    (served : Served (f.sendRangeBlocking offset left results)) :
    ¬ Accounts f.contents offset count (f.sendRangeBlocking offset left results) := by
  intro accounts
  have busy : left ≠ 0 := by omega
  have advanced := accounts.advanced
  cases results with
  | nil => simp [Served, File.sendRangeBlocking, busy] at served
  | cons r results =>
    cases r with
    | took n =>
      have moved := sendfileBytes_length (n := n) inside
      simp only [File.sendRangeBlocking, if_neg busy] at advanced
      split_ifs at advanced
      · dsimp only at advanced
        omega
      · dsimp only at advanced
        omega
    | wouldBlock =>
      simp [Served, File.sendRangeBlocking, busy, fileSendfileError, fileSendfileDone,
        fileSendfileRecall] at served
    | failed =>
      simp [Served, File.sendRangeBlocking, busy, fileSendfileError, fileSendfileDone,
        fileSendfileRecall] at served

theorem leftInRange_inside (nonneg : 0 ≤ offset) (below : offset < f.getFileSize)
    (small : f.getFileSize < 2 ^ 63) (fits : offset + count < 2 ^ 64) :
    f.leftInRange offset count = (min count (f.getFileSize - offset).toNat : Nat) := by
  have sum : sizeT (offset + count) = offset.toNat + count := sizeT_eq (by omega) (by omega)
  have cut_to : sizeT (f.getFileSize - offset) = (f.getFileSize - offset).toNat :=
    sizeT_eq (by omega) (by omega)
  rw [File.leftInRange, sum, cut_to, ssizeT_of_small (by split_ifs <;> omega)]
  split_ifs
  · rw [Nat.min_eq_right (by omega)]
  · rw [Nat.min_eq_left (by omega)]

/-- The sum that wraps is not past the end of the file, and the count is negative. -/
theorem leftInRange_wrapped (nonneg : 0 ≤ offset) (below : offset < f.getFileSize)
    (small : f.getFileSize < 2 ^ 63) (word : count < 2 ^ 64) (wraps : 2 ^ 64 ≤ offset + count) :
    f.leftInRange offset count < 0 := by
  have sum : sizeT (offset + count) = offset.toNat + count - 2 ^ 64 := by
    rw [sizeT]
    omega
  rw [File.leftInRange, if_neg (by omega), ssizeT_of_large (by omega)]
  omega

/-- There is nothing to send. -/
theorem sendLeft_nothing {toGo : Int} (idle : offset < 0 ∨ toGo < 0)
    (served : Served (f.sendLeft sockfd offset toGo results)) :
    (f.sendLeft sockfd offset toGo results).ret = some fileSendfileDone ∧
      (f.sendLeft sockfd offset toGo results).sent = [] := by
  have refused : f.sendfileRefuses offset toGo := Or.inr idle
  have unserved {at_ : Int} : ¬ Served ⟨some fileSendfileError, f, 0, at_, [], results⟩ := by
    simp [Served, fileSendfileError, fileSendfileDone, fileSendfileRecall]
  by_cases nonblock : sockfd.nonblock = true
  · by_cases busy : 0 < toGo
    · rw [File.sendLeft, if_pos nonblock, if_pos ⟨busy, refused⟩] at served
      exact absurd served unserved
    · have zero : toGo.toNat = 0 := by omega
      have none_left : sendRange f.contents results offset 0 =
          ⟨some fileSendfileDone, offset, [], results⟩ := by
        cases results <;> simp [sendRange]
      rw [File.sendLeft, if_pos nonblock, if_neg (fun both => busy both.1), zero,
        File.sendRangeNonblock, none_left]
      simp [fileSendfileDone, fileSendfileError]
  · by_cases busy : toGo = 0
    · have none_left : ¬ (toGo ≠ 0 ∧ f.sendfileRefuses offset toGo) := fun both => both.1 busy
      rw [File.sendLeft, if_neg nonblock, if_neg none_left, busy]
      simp [File.sendRangeBlocking]
    · rw [File.sendLeft, if_neg nonblock, if_pos ⟨busy, refused⟩] at served
      exact absurd served unserved

/-- On a blocking socket a call that comes back never tells. -/
theorem sendLeft_accounts_iff (nonneg : 0 ≤ offset) (below : offset < f.contents.length)
    (positive : 0 < count)
    (left_eq : left = min count (f.contents.length - offset).toNat)
    (served : Served (f.sendLeft sockfd offset left results)) :
    Accounts f.contents offset count (f.sendLeft sockfd offset left results) ↔
      sockfd.nonblock = true ∧ NotCut left results := by
  have inside : offset.toNat + left ≤ f.contents.length := by omega
  have unserved {at_ : Int} : ¬ Served ⟨some fileSendfileError, f, 0, at_, [], results⟩ := by
    simp [Served, fileSendfileError, fileSendfileDone, fileSendfileRecall]
  by_cases nonblock : sockfd.nonblock = true
  · rw [File.sendLeft, if_pos nonblock] at served ⊢
    split_ifs at served ⊢
    · exact absurd served unserved
    · rw [Int.toNat_natCast] at served ⊢
      rw [nonblock_accounts_iff left_eq nonneg below positive served]
      exact (and_iff_right nonblock).symm
  · rw [File.sendLeft, if_neg nonblock] at served ⊢
    split_ifs at served ⊢
    · exact absurd served unserved
    · rw [Int.toNat_natCast] at served ⊢
      constructor
      · intro accounts
        exact absurd accounts (blocking_not_accounts (by omega) inside served)
      · intro both
        exact absurd both.1 nonblock

/-- A call that is served has come to the descriptor. -/
theorem send2SocketRange_served (below : offset < f.getFileSize)
    (served : Served (f.send2SocketRange sockfd offset count results)) :
    f.send2SocketRange sockfd offset count results =
      f.openRead.sendLeft sockfd offset (f.leftInRange offset count) results := by
  rw [File.send2SocketRange] at served ⊢
  split_ifs at served ⊢
  · simp [Served, fileFdInvalid, fileSendfileDone, fileSendfileRecall] at served
  · omega
  · simp [Served, fileReadAccessDeny, fileSendfileDone, fileSendfileRecall] at served
  · rfl

/-- A call that returns DONE or RECALL reports what it sent exactly on a non-blocking socket
whose first `sendfile` is not cut short, when the range starts in the file and its end is
a `size_t`. -/
theorem accounts_iff (below : offset < f.getFileSize) (small : f.getFileSize < 2 ^ 63)
    (positive : 0 < count) (word : count < 2 ^ 64)
    (served : Served (f.send2SocketRange sockfd offset count results)) :
    Accounts f.contents offset count (f.send2SocketRange sockfd offset count results) ↔
      sockfd.nonblock = true ∧ 0 ≤ offset ∧ offset + count < 2 ^ 64 ∧
        NotCut (min count (f.getFileSize - offset).toNat) results := by
  have call := send2SocketRange_served below served
  have same := openRead_contents f
  rw [call] at served ⊢
  by_cases range : 0 ≤ offset ∧ offset + count < 2 ^ 64
  · obtain ⟨nonneg, fits⟩ := range
    rw [leftInRange_inside nonneg below small fits] at served ⊢
    rw [← same]
    rw [sendLeft_accounts_iff nonneg (by rwa [same]) positive (by rw [same]; rfl) served]
    constructor
    · rintro ⟨nonblock, whole⟩
      exact ⟨nonblock, nonneg, fits, whole⟩
    · rintro ⟨nonblock, -, -, whole⟩
      exact ⟨nonblock, whole⟩
  · have idle : offset < 0 ∨ f.leftInRange offset count < 0 := by
      by_cases negative : offset < 0
      · exact Or.inl negative
      · have nonneg := Int.not_lt.mp negative
        refine Or.inr (leftInRange_wrapped nonneg below small word ?_)
        exact Int.not_lt.mp fun fits => range ⟨nonneg, fits⟩
    obtain ⟨ret, sent⟩ := sendLeft_nothing idle served
    constructor
    · intro accounts
      exact absurd accounts (not_accounts_of_nothing ret sent below positive)
    · rintro ⟨-, nonneg, fits, -⟩
      exact absurd ⟨nonneg, fits⟩ range

end

def hello : File := ⟨true, some [104, 101, 108, 108, 111], true, .closed, 0, 0, false⟩

/-- Four of five bytes, with a count that passes the end of the file. -/
theorem accounts_iff_hello :
    Accounts hello.contents 1 9 (hello.send2SocketRange ⟨true, true, true⟩ 1 9 [.took 3]) ↔
      (true = true ∧ (0 : Int) ≤ 1 ∧ (1 : Int) + (9 : Nat) < 2 ^ 64 ∧ NotCut 4 [.took 3]) :=
  accounts_iff (by decide) (by decide) (by decide) (by decide)
    (Or.inl (by decide))

/-- Three of five bytes are sent before the socket would block; the offset stands at six. -/
theorem partial_counted_twice :
    Served (hello.send2SocketRange ⟨true, true, true⟩ 0 5 [.took 2, .wouldBlock]) ∧
      ¬ Accounts hello.contents 0 5
        (hello.send2SocketRange ⟨true, true, true⟩ 0 5 [.took 2, .wouldBlock]) := by
  constructor
  · exact Or.inr (by decide)
  · intro accounts
    exact absurd accounts.advanced (by decide)

end FileRanges
