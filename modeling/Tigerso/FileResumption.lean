import Tigerso.FileSend

/-!
# Sending a whole file over several calls

`send2Socket(int, size_t&)` is called again after each `FILE_SENDFILE_RECALL`. It works out what
is left from `cur_`, which a non-blocking send does not advance; when the socket would block, the
-1 of `sendfile` is added to it. From then on more is left than the file has, and at the end
of the file the loop goes on asking.
-/

open SystemCalls DiskFile

namespace FileResumption

/-- What the socket does with one `sendfile` after the other: `some n` takes up to n + 1 bytes,
`none` is EAGAIN. -/
abbrev Outcomes := Nat → Option Nat

def amount : Option Nat → Nat
  | some n => n + 1
  | none => 0

/-- What `m` outcomes from the `k`-th on take. -/
def taken (outcomes : Outcomes) (k : Nat) : Nat → Nat
  | 0 => 0
  | m + 1 => amount (outcomes k) + taken outcomes (k + 1) m

/-- The answers to `len` calls from the `k`-th on, the file standing at `pos`: at its end
`sendfile` returns 0 whatever the socket would do. -/
def answers (outcomes : Outcomes) (size : Nat) : Nat → Nat → Nat → List WriteResult
  | _, _, 0 => []
  | k, pos, len + 1 =>
    if size ≤ pos then .took 0 :: answers outcomes size (k + 1) pos len
    else
      match outcomes k with
      | some n => .took n :: answers outcomes size (k + 1) (min size (pos + (n + 1))) len
      | none => .wouldBlock :: answers outcomes size (k + 1) pos len

/-- The call returns after `len` answers from the `k`-th on. -/
def Returns (outcomes : Outcomes) (sockfd : Fd) (f : File) (k len : Nat) (s : FileSend) : Prop :=
  s = f.send2Socket sockfd (answers outcomes f.getFileSize k f.readPos len) ∧ s.ret ≠ none ∧
    s.rest = []

/-- Calls that returned `FILE_SENDFILE_RECALL`, one after the other: the file, the next outcome,
the bytes the socket has taken and the sum of the values of `sendn`. -/
inductive Recalled (outcomes : Outcomes) (sockfd : Fd) (f : File) :
    File → Nat → Bytes → Nat → Prop
  | start : Recalled outcomes sockfd f f 0 [] 0
  | again {g : File} {k len total : Nat} {sent : Bytes} {s : FileSend}
      (before : Recalled outcomes sockfd f g k sent total)
      (call : Returns outcomes sockfd g k len s) (ret : s.ret = some fileSendfileRecall) :
      Recalled outcomes sockfd f s.file (k + len) (sent ++ s.sent) (total + sizeT s.sendn)

/-- Every call returns, and when one returns `FILE_SENDFILE_DONE` the file was sent and counted. -/
structure Resumes (outcomes : Outcomes) (sockfd : Fd) (f : File) : Prop where
  terminates : ∀ {g k sent total}, Recalled outcomes sockfd f g k sent total →
    ∃ len s, Returns outcomes sockfd g k len s
  content : ∀ {g k len sent total s}, Recalled outcomes sockfd f g k sent total →
    Returns outcomes sockfd g k len s → s.ret = some fileSendfileDone →
    sent ++ s.sent = f.contents
  counted : ∀ {g k len sent total s}, Recalled outcomes sockfd f g k sent total →
    Returns outcomes sockfd g k len s → s.ret = some fileSendfileDone →
    total + sizeT s.sendn = f.getFileSize

/-- A file of which nothing was sent yet. -/
structure Ready (f : File) : Prop where
  there : f.testRead = true
  start : f.cur = 0
  usable : f.fd ≠ .dangling

section
variable {outcomes : Outcomes} {data : Bytes} {k len m pos left size : Nat}
  {status : Int}

theorem taken_add (outcomes : Outcomes) (k m l : Nat) :
    taken outcomes k (m + l) = taken outcomes k m + taken outcomes (k + m) l := by
  induction m generalizing k with
  | zero => simp [taken]
  | succ m ih =>
    have place : k + 1 + m = k + (m + 1) := by omega
    rw [Nat.succ_add, taken, taken, ih (k + 1), place, Nat.add_assoc]

theorem taken_mono (outcomes : Outcomes) {m l : Nat} (le : m ≤ l) :
    taken outcomes 0 m ≤ taken outcomes 0 l := by
  obtain ⟨d, rfl⟩ := Nat.exists_eq_add_of_le le
  rw [taken_add]
  exact Nat.le_add_right _ _

/-- Outcomes that all take something take as many bytes as there are of them. -/
theorem le_taken (all : ∀ i, outcomes (k + i) ≠ none) (m : Nat) : m ≤ taken outcomes k m := by
  induction m generalizing k with
  | zero => exact Nat.zero_le _
  | succ m ih =>
    have later := ih (k := k + 1) (fun i => by
      have := all (1 + i)
      rwa [← Nat.add_assoc] at this)
    have first : 1 ≤ amount (outcomes k) := by
      cases here : outcomes k with
      | none => exact absurd here (all 0)
      | some n => exact Nat.succ_le_succ (Nat.zero_le n)
    rw [taken]
    omega

@[simp] theorem answers_length (outcomes : Outcomes) (size k pos len : Nat) :
    (answers outcomes size k pos len).length = len := by
  induction len generalizing k pos with
  | zero => rfl
  | succ len ih =>
    rw [answers]
    split_ifs
    · rw [List.length_cons, ih]
    · cases outcomes k with
      | some n => exact congrArg (· + 1) (ih _ _)
      | none => exact congrArg (· + 1) (ih _ _)

theorem eq_zero_of_answers (used : answers outcomes size k pos len = []) : len = 0 := by
  rw [← answers_length outcomes size k pos len, used]
  rfl

theorem sendfile_length (enough : data.length ≤ pos + left) (n : Nat) :
    (sendfileBytes data pos left n).length = min (n + 1) (data.length - pos) := by
  rw [sendfileBytes, List.length_take, List.length_take, List.length_drop, Int.toNat_natCast]
  omega

/-- How a loop that has used up its answers ended: the socket would block before the end of the
file, or the file was sent and no more was left. -/
theorem sendOnward_ends (inside : pos ≤ data.length) (enough : data.length ≤ pos + left)
    (ends : (sendOnward data (answers outcomes data.length k pos len) pos left).status =
      some status)
    (used : (sendOnward data (answers outcomes data.length k pos len) pos left).rest = []) :
    (status = fileSendfileRecall ∧ 0 < len ∧ pos + taken outcomes k len < data.length ∧
        (sendOnward data (answers outcomes data.length k pos len) pos left).offset =
          (pos + taken outcomes k len : Nat)) ∨
      status = fileSendfileDone ∧ left = data.length - pos ∧
        data.length ≤ pos + taken outcomes k len := by
  induction len generalizing k pos left with
  | zero =>
    rw [answers, sendOnward] at ends
    split_ifs at ends with nothing
    · cases ends
      right
      exact ⟨rfl, by omega, by omega⟩
  | succ len ih =>
    by_cases nothing : left = 0
    · rw [nothing, sendOnward_zero] at used
      exact absurd (eq_zero_of_answers used) (Nat.succ_ne_zero len)
    · have moved := sendfile_length enough
      rw [answers] at ends used ⊢
      by_cases at_end : data.length ≤ pos
      · -- nothing is sent, and the loop never comes out of here
        have none_sent : (sendfileBytes data pos left 0).length = 0 := by
          rw [moved]
          omega
        rw [if_pos at_end, sendOnward, if_neg nothing] at ends used
        simp only [none_sent, if_pos (Nat.pos_of_ne_zero nothing), Nat.sub_zero, Nat.cast_zero,
          Int.add_zero] at ends used
        obtain ⟨-, -, short, -⟩ | ⟨-, all, -⟩ := ih inside enough ends used
        · omega
        · omega
      · rw [if_neg at_end] at ends used ⊢
        cases first : outcomes k with
        | none =>
          rw [first, sendOnward, if_neg nothing] at ends used
          rw [sendOnward, if_neg nothing, taken, first]
          cases ends
          have last : len = 0 := eq_zero_of_answers used
          subst last
          left
          refine ⟨rfl, Nat.one_pos, ?_, ?_⟩
          · simp only [taken, amount]
            omega
          · simp [taken, amount]
        | some n =>
          have place : min data.length (pos + (n + 1)) =
              pos + (sendfileBytes data pos left n).length := by
            rw [moved]
            omega
          rw [first, sendOnward, if_neg nothing] at ends used
          rw [sendOnward, if_neg nothing]
          dsimp only at ends used ⊢
          rw [taken, first, amount]
          split_ifs at ends used ⊢ with cut
          · rw [place, ← Int.natCast_add] at ends used ⊢
            have result := ih (by omega) (by omega) ends used
            rw [moved] at result cut ⊢
            obtain ⟨ret, positive, short, stands⟩ | ⟨ret, all, reached⟩ := result
            · left
              refine ⟨ret, by omega, by omega, ?_⟩
              rw [stands]
              congr 1
              omega
            · right
              exact ⟨ret, by omega, by omega⟩
          · cases ends
            right
            rw [moved] at cut
            exact ⟨rfl, by omega, by omega⟩

/-- A loop whose socket would block before the end of the file returns. -/
theorem sendOnward_returns (inside : pos ≤ data.length) (enough : data.length ≤ pos + left)
    (blocks : outcomes (k + m) = none) (short : pos + taken outcomes k m < data.length) :
    ∃ len, (sendOnward data (answers outcomes data.length k pos len) pos left).status ≠ none ∧
      (sendOnward data (answers outcomes data.length k pos len) pos left).rest = [] := by
  have before_end : pos < data.length := by omega
  have some_left : left ≠ 0 := by omega
  induction m generalizing k pos left with
  | zero =>
    refine ⟨1, ?_⟩
    rw [answers, if_neg (Nat.not_le.mpr before_end), show outcomes k = none from blocks]
    simp [sendOnward, some_left, answers]
  | succ m ih =>
    cases first : outcomes k with
    | none =>
      refine ⟨1, ?_⟩
      rw [answers, if_neg (Nat.not_le.mpr before_end), first]
      simp [sendOnward, some_left, answers]
    | some n =>
      have moved := sendfile_length enough n
      rw [taken, first, amount] at short
      have place : min data.length (pos + (n + 1)) =
          pos + (sendfileBytes data pos left n).length := by
        rw [moved]
        omega
      have next : outcomes (k + 1 + m) = none := by
        rw [Nat.add_right_comm]
        exact blocks
      obtain ⟨len, returns, used⟩ := @ih (k + 1) (pos + (sendfileBytes data pos left n).length)
        (left - (sendfileBytes data pos left n).length) (by omega) (by omega) next (by omega)
        (by omega) (by omega)
      refine ⟨len + 1, ?_⟩
      rw [answers, if_neg (Nat.not_le.mpr before_end), first, sendOnward, if_neg some_left]
      dsimp only
      rw [if_pos (by omega), place, ← Int.natCast_add]
      exact ⟨returns, used⟩

/-- Between two calls: the descriptor stands behind what was sent, which is not all of the file,
and `cur_` has gone back by one for each call. -/
structure Behind (outcomes : Outcomes) (f g : File) (k total : Nat) : Prop where
  contents : g.contents = f.contents
  there : g.testRead = true
  usable : g.fd ≠ .dangling
  stands : g.readPos = taken outcomes 0 k
  short : taken outcomes 0 k < f.contents.length
  back : g.cur ≤ 0
  fresh : g.cur = 0 → total = 0

variable {sockfd : Fd} {f g : File} {s : FileSend} {sent : Bytes} {total : Nat}

theorem Ready.behind (ready : Ready f) (some_data : f.contents ≠ []) :
    Behind outcomes f f 0 0 := by
  constructor
  · rfl
  · exact ready.there
  · exact ready.usable
  · rw [File.readPos, taken]
    split
    · rw [if_pos ready.start]
    · rfl
  · exact List.length_pos_iff.mpr some_data
  · rw [ready.start]
  · exact fun _ => rfl

/-- The loop of a call, with the file as it stands then. -/
theorem Behind.call_eq (behind : Behind outcomes f g k total) (valid : sockfd.valid = true)
    (nonblock : sockfd.nonblock = true) (len : Nat) :
    g.send2Socket sockfd (answers outcomes g.getFileSize k g.readPos len) =
      File.sendOnwardNonblock { g with size := g.getFileSize, fd := .opened g.readPos } g.readPos
        (f.contents.length - g.cur)
        (answers outcomes f.contents.length k (taken outcomes 0 k) len) := by
  rw [send2Socket_onward valid nonblock behind.there behind.usable, behind.stands,
    File.getFileSize, behind.contents]

/-- A call either advances and asks to be recalled, or it has come to the end. -/
theorem Behind.call (behind : Behind outcomes f g k total) (valid : sockfd.valid = true)
    (nonblock : sockfd.nonblock = true) (call : Returns outcomes sockfd g k len s) :
    s.ret = some fileSendfileRecall ∧ 0 < len ∧
        Behind outcomes f s.file (k + len) (total + sizeT s.sendn) ∨
      s.ret = some fileSendfileDone ∧ total + sizeT s.sendn = 0 ∧
        f.contents.length ≤ taken outcomes 0 (k + len) := by
  obtain ⟨rfl, returned, used⟩ := call
  have back := behind.back
  have short := behind.short
  rw [behind.call_eq valid nonblock] at returned used ⊢
  have same : File.contents { g with size := g.getFileSize, fd := .opened g.readPos } =
      f.contents := behind.contents
  rw [File.sendOnwardNonblock, same, behind.stands] at returned used ⊢
  obtain ⟨left, toGo⟩ : ∃ left : Nat, left = (f.contents.length - g.cur).toNat := ⟨_, rfl⟩
  rw [← toGo] at returned used ⊢
  have ends := @sendOnward_ends outcomes f.contents k len (taken outcomes 0 k) left
  generalize sendOnward f.contents (answers outcomes f.contents.length k (taken outcomes 0 k) len)
    (taken outcomes 0 k : Nat) left = loop at ends returned used ⊢
  obtain ⟨status, offset, out, rest⟩ := loop
  cases status with
  | none => exact absurd rfl returned
  | some status =>
    have rest_nil : rest = [] := by
      dsimp only at used
      split_ifs at used
      · exact used
      · exact used
      · exact used
    obtain ⟨rfl, positive, unsent, moved⟩ | ⟨rfl, all, reached⟩ :=
      ends (Nat.le_of_lt short) (by omega) rfl rest_nil
    · left
      refine ⟨rfl, positive, ?_⟩
      have onward : taken outcomes 0 (k + len) = taken outcomes 0 k + taken outcomes k len := by
        rw [taken_add, Nat.zero_add]
      constructor
      · exact behind.contents
      · exact behind.there
      · simp
      · have started : g.cur - 1 ≠ 0 := by omega
        show (if g.cur - 1 = 0 then 0 else offset.toNat) = _
        rw [if_neg started, onward, show offset = _ from moved, Int.toNat_natCast]
      · rw [onward]
        exact unsent
      · show g.cur - 1 ≤ 0
        omega
      · intro stopped
        change g.cur - 1 = 0 at stopped
        omega
    · right
      have started : g.cur = 0 := by omega
      refine ⟨rfl, behind.fresh started, ?_⟩
      rw [taken_add, Nat.zero_add]
      exact reached

theorem Recalled.behind {f g : File} (ready : Ready f) (valid : sockfd.valid = true)
    (nonblock : sockfd.nonblock = true) (some_data : f.contents ≠ [])
    (recalled : Recalled outcomes sockfd f g k sent total) : Behind outcomes f g k total := by
  induction recalled with
  | start => exact ready.behind some_data
  | again _ call ret ih =>
    obtain ⟨-, -, behind⟩ | ⟨done, -⟩ := ih.call valid nonblock call
    · exact behind
    · rw [ret] at done
      cases done

/-- When the whole file is taken, the code never gets through: a call that would have to go on
behind a RECALL does not return, and a first call that sends the file counts nothing. -/
theorem not_resumes (ready : Ready f) (valid : sockfd.valid = true)
    (nonblock : sockfd.nonblock = true) (some_data : f.contents ≠ [])
    (resumes : Resumes outcomes sockfd f) {l : Nat}
    (all : f.contents.length ≤ taken outcomes 0 l) (d : Nat) :
    ∀ {g : File} {k total : Nat} {sent : Bytes}, Recalled outcomes sockfd f g k sent total →
      k + d = l → False := by
  induction d using Nat.strong_induction_on with
  | h d ih =>
    intro g k total sent recalled place
    have behind := recalled.behind ready valid nonblock some_data
    obtain ⟨len, s, call⟩ := resumes.terminates recalled
    obtain ⟨ret, positive, later⟩ | ⟨ret, none_counted, -⟩ := behind.call valid nonblock call
    · have short := later.short
      have before : k + len < l := by
        by_contra past
        have := taken_mono outcomes (Nat.not_lt.mp past)
        omega
      exact ih (d - len) (by omega) (recalled.again call ret) (by omega)
    · have counted := resumes.counted recalled call ret
      have size := List.length_pos_iff.mpr some_data
      rw [none_counted, File.getFileSize] at counted
      omega

/-- A socket that never takes the whole file would block again and again. -/
theorem blocks_again (never : ∀ m, taken outcomes 0 m < size) (k : Nat) :
    ∃ m, outcomes (k + m) = none := by
  by_contra none_blocks
  have all : ∀ i, outcomes (k + i) ≠ none := fun i here => none_blocks ⟨i, here⟩
  have many := le_taken all size
  have few := never (k + size)
  rw [taken_add, Nat.zero_add] at few
  omega

/-- A file that the outcomes never finish is asked for again and again. -/
theorem Behind.returns (behind : Behind outcomes f g k total) (valid : sockfd.valid = true)
    (nonblock : sockfd.nonblock = true) (never : ∀ m, taken outcomes 0 m < f.contents.length) :
    ∃ len s, Returns outcomes sockfd g k len s := by
  obtain ⟨m, blocks⟩ := blocks_again never k
  have short := never (k + m)
  rw [taken_add, Nat.zero_add] at short
  have back := behind.back
  obtain ⟨len, returned, used⟩ := @sendOnward_returns outcomes f.contents k m
    (taken outcomes 0 k) (f.contents.length - g.cur : Int).toNat (by omega) (by omega) blocks short
  refine ⟨len, _, rfl, ?_⟩
  have same : File.contents { g with size := g.getFileSize, fd := .opened g.readPos } =
      f.contents := behind.contents
  rw [behind.call_eq valid nonblock, File.sendOnwardNonblock, same, behind.stands]
  generalize sendOnward f.contents (answers outcomes f.contents.length k (taken outcomes 0 k) len)
    (taken outcomes 0 k : Nat) (f.contents.length - g.cur : Int).toNat = loop at returned used ⊢
  obtain ⟨status, offset, out, rest⟩ := loop
  cases status with
  | none => exact absurd rfl returned
  | some status =>
    dsimp only
    split_ifs
    · exact ⟨Option.some_ne_none _, used⟩
    · exact ⟨Option.some_ne_none _, used⟩
    · exact ⟨Option.some_ne_none _, used⟩

theorem resumes_of_never (ready : Ready f) (valid : sockfd.valid = true)
    (nonblock : sockfd.nonblock = true) (some_data : f.contents ≠ [])
    (never : ∀ m, taken outcomes 0 m < f.contents.length) : Resumes outcomes sockfd f := by
  have unfinished : ∀ {g k len sent total s}, Recalled outcomes sockfd f g k sent total →
      Returns outcomes sockfd g k len s → s.ret ≠ some fileSendfileDone := by
    intro g k len sent total s recalled call done
    obtain ⟨ret, -⟩ | ⟨-, -, all⟩ :=
      (recalled.behind ready valid nonblock some_data).call valid nonblock call
    · rw [done] at ret
      cases ret
    · exact absurd (never (k + len)) (Nat.not_lt.mpr all)
  constructor
  · intro g k sent total recalled
    exact (recalled.behind ready valid nonblock some_data).returns valid nonblock never
  · intro g k len sent total s recalled call done
    exact absurd done (unfinished recalled call)
  · intro g k len sent total s recalled call done
    exact absurd done (unfinished recalled call)

/-- Of an empty file the first call returns DONE at once. -/
theorem resumes_of_empty (ready : Ready f) (valid : sockfd.valid = true)
    (nonblock : sockfd.nonblock = true) (empty : f.contents = []) :
    Resumes outcomes sockfd f := by
  have size : f.getFileSize = 0 := by rw [File.getFileSize, empty, List.length_nil]
  have call_eq : ∀ results, ∃ g, f.send2Socket sockfd results =
      ⟨some fileSendfileDone, g, 0, 0, [], results⟩ := by
    intro results
    have left : ((f.getFileSize : Int) - f.cur).toNat = 0 := by
      rw [size, ready.start]
      rfl
    rw [send2Socket_onward valid nonblock ready.there ready.usable, File.sendOnwardNonblock, left,
      sendOnward_zero]
    exact ⟨_, rfl⟩
  have first : ∀ {g k sent total}, Recalled outcomes sockfd f g k sent total →
      g = f ∧ sent = [] ∧ total = 0 := by
    intro g k sent total recalled
    induction recalled with
    | start => exact ⟨rfl, rfl, rfl⟩
    | again _ call ret ih =>
      rw [ih.1] at call
      obtain ⟨g, eq⟩ := call_eq (answers outcomes f.getFileSize _ f.readPos _)
      rw [call.1, eq] at ret
      cases ret
  constructor
  · intro g k sent total recalled
    obtain ⟨rfl, -, -⟩ := first recalled
    obtain ⟨g', eq⟩ := call_eq (answers outcomes g.getFileSize k g.readPos 0)
    refine ⟨0, _, rfl, ?_⟩
    rw [eq]
    exact ⟨Option.some_ne_none _, rfl⟩
  · intro g k len sent total s recalled call _
    obtain ⟨rfl, rfl, -⟩ := first recalled
    obtain ⟨g', eq⟩ := call_eq (answers outcomes g.getFileSize k g.readPos len)
    rw [call.1, eq, empty]
    rfl
  · intro g k len sent total s recalled call _
    obtain ⟨rfl, -, rfl⟩ := first recalled
    obtain ⟨g', eq⟩ := call_eq (answers outcomes g.getFileSize k g.readPos len)
    rw [call.1, eq, size]
    rfl

/-- Repeating the call sends and counts a file exactly when the file is empty, or the socket never
takes all of it: then no call comes to FILE_SENDFILE_DONE. -/
theorem resumes_iff (ready : Ready f) (valid : sockfd.valid = true)
    (nonblock : sockfd.nonblock = true) :
    Resumes outcomes sockfd f ↔
      f.contents = [] ∨ ∀ m, taken outcomes 0 m < f.contents.length := by
  constructor
  · intro resumes
    by_contra neither
    obtain ⟨some_data, taken_all⟩ := not_or.mp neither
    obtain ⟨l, all⟩ := not_forall.mp taken_all
    exact not_resumes ready valid nonblock some_data resumes (Nat.not_lt.mp all) l .start
      (Nat.zero_add l)
  · intro either
    by_cases empty : f.contents = []
    · exact resumes_of_empty ready valid nonblock empty
    · exact resumes_of_never ready valid nonblock empty (either.resolve_left empty)

end

def hi : File := ⟨true, some [104, 105], true, .closed, 0, 0, false⟩

theorem hi_ready : Ready hi := ⟨by decide, rfl, by decide⟩

/-- A socket that takes nothing. -/
theorem resumes_iff_hi :
    Resumes (fun _ => none) ⟨true, true, true⟩ hi ↔
      hi.contents = [] ∨ ∀ m, taken (fun _ => none) 0 m < hi.contents.length :=
  resumes_iff hi_ready rfl rfl

/-- Sent at once the file is not counted; with one byte taken before the socket blocks the next
call never returns. -/
theorem hi_not_resumed :
    ¬ Resumes (fun _ => some 1) ⟨true, true, true⟩ hi ∧
      ¬ Resumes (fun k => if k = 1 then none else some 0) ⟨true, true, true⟩ hi := by
  constructor
  · intro resumes
    exact not_resumes hi_ready rfl rfl (by decide) resumes (l := 1) (by decide) 1 .start rfl
  · intro resumes
    exact not_resumes hi_ready rfl rfl (by decide) resumes (l := 3) (by decide) 3 .start rfl

end FileResumption
