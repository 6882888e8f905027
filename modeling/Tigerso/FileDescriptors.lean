import Tigerso.HandleLog
import Tigerso.SystemCalls

/-!
# core/File: the number in fd_

`DiskFile` follows what a file object reads and sends; here the descriptor is the number the
object stores, and each call is what it does with that number. The results of the system calls
are inputs, so whatever other code opens and closes between two calls shows in them.
-/

open SystemCalls HandleLog

namespace FileDescriptors

structure File where
  fd : Int
  size : Int
  cur : Int
  readdone : Bool
  log : List (Event Int)

/-- What fresh memory holds in the members that no constructor sets. -/
structure Garbage where
  fd : Int
  size : Int
  cur : Int

/-- One `sendfile`. -/
inductive SendfileResult where
  | moved (n : Nat)
  | wouldBlock
  | failed

/-- `continuousReadOut` and what the system calls in it answer; `opened` is negative and `readn`
is `none` for -1. -/
structure ReadOut where
  /-- `NULL != buf`. -/
  buf : Bool
  len : Nat
  accessible : Bool
  opened : Int
  readn : Option Nat

/-- `send2Socket(sockfd, sendn, offset, count)`: `size`, `sum` and `rest` are what the three calls
of `getFileSize` return. -/
structure SendRange where
  sockfd : Int
  offset : Int
  count : Nat
  size : Int
  sum : Int
  rest : Int
  accessible : Bool
  opened : Int
  nonblock : Bool
  results : List SendfileResult

/-- `send2Socket(sockfd, sendn)`; `seeks` when `lseek(fd_, 0, SEEK_SET)` succeeds. -/
structure SendWhole where
  sockfd : Int
  accessible : Bool
  opened : Int
  seeks : Bool
  nonblock : Bool
  size : Int
  results : List SendfileResult

inductive Call where
  | setFilename
  | reset
  | clear
  | close
  | continuousReadOut (c : ReadOut)
  | send2SocketRange (c : SendRange)
  | send2Socket (c : SendWhole)

/-- How a `sendfile` loop ends. -/
inductive LoopEnd where
  | sent
  | wouldBlock
  | failed

namespace File

/-- `File::File()`. -/
def construct (g : Garbage) : File := ⟨g.fd, g.size, g.cur, false, []⟩

def close (f : File) : File := { f with fd := -1, log := .closed f.fd :: f.log }

def reset (f : File) : File := { f.close with size := 0, cur := 0, readdone := false }

/-- `File::File(const std::string&)`. -/
def constructNamed (g : Garbage) : File := (construct g).reset

/-- `fd_ = ::open(filename_, O_RDONLY)`. -/
def openFile (f : File) (opened : Int) : File :=
  { f with fd := opened, log := if 0 ≤ opened then .opened opened :: f.log else f.log }

/-- `if(!validFd(fd_)) { fd_ = ::open(filename_, O_RDONLY); }`. -/
def openRead (f : File) (opened : Int) : File := if 0 ≤ f.fd then f else f.openFile opened

/-- The same in `continuousReadOut`. -/
def openToRead (f : File) (opened : Int) : File :=
  if 0 ≤ f.fd then f else { f.openFile opened with readdone := false }

/-- `::read(fd_, buf, len)`, which fails for a negative number, and what is done with its
result: at the end of the file the descriptor is closed and its number stays. -/
def readFd (f : File) (len : Nat) (readn : Option Nat) : File :=
  match if 0 ≤ f.fd then readn else none with
  | none => f
  | some n =>
    if n < len then { f with readdone := true, log := .closed f.fd :: f.log } else f

def continuousReadOut (f : File) (c : ReadOut) : File :=
  if !c.buf ∨ c.len = 0 ∨ !c.accessible then f else (f.openToRead c.opened).readFd c.len c.readn

/-- `while (left > 0 && (n = sendfile(sockfd, fd_, …, left)) < left)`; `none` while it waits for
a result. -/
def sendLoop (fd : Int) : List SendfileResult → Int → Option LoopEnd
  | [], left => if left ≤ 0 then some .sent else if fd < 0 then some .failed else none
  | r :: results, left =>
    if left ≤ 0 then some .sent
    else if fd < 0 then some .failed
    else
      match r with
      | .moved n => if n < left then sendLoop fd results (left - n) else some .sent
      | .wouldBlock => some .wouldBlock
      | .failed => some .failed

/-- The `sendfile` of a blocking socket; `none` while it waits. A negative count is refused. -/
def sendOnce (fd left : Int) : List SendfileResult → Option SendfileResult
  | results => if fd < 0 ∨ left < 0 then some .failed else results.head?

/-- The two overloads once the descriptor is open and `left` is known: `blocked` is the object
after EAGAIN, `advanced n` after a send that was cut short; `none` while the call waits. -/
def serve (f : File) (nonblock : Bool) (left : Int) (results : List SendfileResult)
    (blocked : File) (advanced : Nat → File) : Option File :=
  if nonblock then
    (sendLoop f.fd results left).map fun
      | .sent => f.reset
      | .wouldBlock => blocked
      | .failed => f
  else if left = 0 then some f.reset
  else
    (sendOnce f.fd left results).map fun
      | .moved n => if n = left then f.reset else advanced n
      | _ => f

/-- `ssize_t left` of the ranged overload. -/
def leftInRange (c : SendRange) : Int :=
  ssizeT (if sizeT c.sum < sizeT (c.offset + c.count) then sizeT (c.rest - c.offset) else c.count)

/-- `File::send2Socket(int, size_t&, off_t&, size_t)`. -/
def send2SocketRange (f : File) (c : SendRange) : Option File :=
  if c.sockfd < 0 then some f
  else if c.size ≤ c.offset then some f.reset
  else if !c.accessible then some f
  else
    let f := f.openRead c.opened
    f.serve c.nonblock (leftInRange c) c.results f (fun _ => f)

def send2Socket (f : File) (c : SendWhole) : Option File :=
  if c.sockfd < 0 ∨ !c.accessible then some f
  else if 0 ≤ f.fd ∧ f.cur = 0 ∧ !c.seeks then some f
  else
    let f := { f.openRead c.opened with size := c.size }
    -- EAGAIN is `cur_ += n` with n = -1
    f.serve c.nonblock (c.size - f.cur) c.results { f with cur := f.cur - 1 }
      (fun n => { f with cur := f.cur + n })

/-- `setFilename` and `clear` do the same to the descriptor as `reset`: the name is no part of
this model. -/
def step (f : File) : Call → Option File
  | .setFilename | .reset | .clear => some f.reset
  | .close => some f.close
  | .continuousReadOut c => some (f.continuousReadOut c)
  | .send2SocketRange c => f.send2SocketRange c
  | .send2Socket c => f.send2Socket c

def run : File → List Call → Option File
  | f, [] => some f
  | f, c :: calls => (f.step c).bind (run · calls)

/-- `File::~File`. -/
def destroy (f : File) : File := if 0 ≤ f.fd then f.close else f

/-- The file is open, or `::open` opens it. -/
def CanOpen (f : File) (opened : Int) : Prop := 0 ≤ f.fd ∨ 0 ≤ opened

end File

/-- Nothing is left to send. -/
def NothingLeft (nonblock : Bool) (left : Int) : Prop := if nonblock then left ≤ 0 else left = 0

/-- What a call must find: the closing ones a valid number in `fd_`, a read more in the file than
it asks for, a send with nothing to send a file that is open or can be opened. -/
def Tidy (f : File) : Call → Prop
  | .setFilename | .reset | .clear | .close => 0 ≤ f.fd
  | .continuousReadOut c =>
    c.buf = true → c.accessible = true → f.CanOpen c.opened → ∀ n, c.readn = some n → c.len ≤ n
  | .send2SocketRange c =>
    0 ≤ c.sockfd → if c.size ≤ c.offset then 0 ≤ f.fd
      else c.accessible = true → NothingLeft c.nonblock (File.leftInRange c) → f.CanOpen c.opened
  | .send2Socket c =>
    0 ≤ c.sockfd → c.accessible = true → NothingLeft c.nonblock (c.size - f.cur) →
      f.CanOpen c.opened

/-- Every call of the sequence is tidy when its turn comes. -/
def AllTidy : File → List Call → Prop
  | _, [] => True
  | f, c :: calls => Tidy f c ∧ ∀ g, f.step c = some g → AllTidy g calls

/-- The descriptor when a call comes to it: as it was, or opened because `fd_` was negative. -/
inductive Opens (f g : File) : Prop
  | same (fd : g.fd = f.fd) (log : g.log = f.log)
  | opened (negative : f.fd < 0) (valid : 0 ≤ g.fd) (log : g.log = .opened g.fd :: f.log)
  | refused (negative : f.fd < 0) (invalid : g.fd < 0) (log : g.log = f.log)

/-- What a call leaves: the descriptor as it was opened, no descriptor, or the number of one that
it has closed. -/
inductive Leaves (tidy : Prop) (g f' : File) : Prop
  | kept (fine : tidy) (fd : f'.fd = g.fd) (log : f'.log = g.log)
  | closed (when : tidy ↔ 0 ≤ g.fd) (fd : f'.fd = -1) (log : f'.log = .closed g.fd :: g.log)
  | stale (never : ¬ tidy) (valid : 0 ≤ g.fd) (fd : f'.fd = g.fd)
      (log : f'.log = .closed g.fd :: g.log)

section
variable {f f' g : File} {nonblock : Bool} {left opened : Int} {results : List SendfileResult}

theorem reset_leaves {tidy : Prop} (when : tidy ↔ 0 ≤ f.fd) : Leaves tidy f f.reset :=
  .closed when rfl rfl

theorem openRead_opens (f : File) (opened : Int) : Opens f (f.openRead opened) := by
  rw [File.openRead]
  split_ifs with valid
  · exact .same rfl rfl
  · have negative := Int.not_le.mp valid
    by_cases success : 0 ≤ opened
    · refine .opened negative success ?_
      simp [File.openFile, success]
    · refine .refused negative (Int.not_le.mp success) ?_
      simp [File.openFile, success]

theorem canOpen_iff (f : File) (opened : Int) :
    0 ≤ (f.openRead opened).fd ↔ f.CanOpen opened := by
  rw [File.openRead, File.CanOpen]
  split_ifs with valid
  · exact (or_iff_left_of_imp fun _ => valid).symm
  · exact (or_iff_right valid).symm

/-- A loop that comes to its end had nothing to send, or sent through a valid descriptor. -/
theorem sendLoop_sent {fd : Int} (ends : File.sendLoop fd results left = some .sent) :
    left ≤ 0 ∨ 0 ≤ fd := by
  by_contra neither
  obtain ⟨busy, negative⟩ := not_or.mp neither
  have invalid := Int.not_le.mp negative
  cases results with
  | nil => simp [File.sendLoop, busy, invalid] at ends
  | cons r results => simp [File.sendLoop, busy, invalid] at ends

theorem sendLoop_done {fd : Int} (done : left ≤ 0) :
    File.sendLoop fd results left = some .sent := by
  cases results with
  | nil => simp [File.sendLoop, done]
  | cons r results => simp [File.sendLoop, done]

/-- Sending closes a descriptor once, or leaves it open. -/
theorem serve_leaves {blocked : File} {advanced : Nat → File} {usable : Prop}
    (returned : g.serve nonblock left results blocked advanced = some f')
    (blocked_eq : blocked.fd = g.fd ∧ blocked.log = g.log)
    (advanced_eq : ∀ n, (advanced n).fd = g.fd ∧ (advanced n).log = g.log)
    (usable_iff : usable ↔ 0 ≤ g.fd) :
    Leaves (NothingLeft nonblock left → usable) g f' := by
  rw [File.serve] at returned
  cases nonblock with
  | true =>
    rw [if_pos rfl] at returned
    obtain ⟨ending, ends, rfl⟩ := Option.map_eq_some_iff.mp returned
    have busy (other : ending ≠ .sent) : ¬ NothingLeft true left := by
      intro done
      rw [sendLoop_done done] at ends
      exact other (Option.some.inj ends).symm
    cases ending with
    | sent =>
      apply reset_leaves
      constructor
      · intro tidy
        rcases sendLoop_sent ends with done | valid
        · exact usable_iff.mp (tidy done)
        · exact valid
      · intro valid _
        exact usable_iff.mpr valid
    | wouldBlock =>
      exact .kept (fun done => absurd done (busy (by simp))) blocked_eq.1 blocked_eq.2
    | failed => exact .kept (fun done => absurd done (busy (by simp))) rfl rfl
  | false =>
    rw [if_neg Bool.false_ne_true] at returned
    split_ifs at returned with done
    · cases returned
      apply reset_leaves
      constructor
      · intro tidy
        exact usable_iff.mp (tidy done)
      · intro valid _
        exact usable_iff.mpr valid
    · obtain ⟨result, ends, rfl⟩ := Option.map_eq_some_iff.mp returned
      have vacuous : NothingLeft false left → usable := fun nothing => absurd nothing done
      cases result with
      | moved n =>
        simp only
        split_ifs
        · apply reset_leaves
          constructor
          · intro _
            by_contra negative
            rw [File.sendOnce, if_pos (Or.inl (Int.not_le.mp negative))] at ends
            cases ends
          · exact fun _ => vacuous
        · exact .kept vacuous (advanced_eq n).1 (advanced_eq n).2
      | wouldBlock => exact .kept vacuous rfl rfl
      | failed => exact .kept vacuous rfl rfl

theorem openToRead_opens (f : File) (opened : Int) : Opens f (f.openToRead opened) := by
  have read := openRead_opens f opened
  rw [File.openRead] at read
  rw [File.openToRead]
  split_ifs at read ⊢
  · exact read
  · cases read with
    | same fd log => exact .same fd log
    | opened negative valid log => exact .opened negative valid log
    | refused negative invalid log => exact .refused negative invalid log

theorem canOpenToRead_iff (f : File) (opened : Int) :
    0 ≤ (f.openToRead opened).fd ↔ f.CanOpen opened := by
  rw [← canOpen_iff, File.openToRead, File.openRead]
  split_ifs
  · exact Iff.rfl
  · exact Iff.rfl

theorem readFd_leaves (g : File) (len : Nat) (readn : Option Nat) :
    Leaves (0 ≤ g.fd → ∀ n, readn = some n → len ≤ n) g (g.readFd len readn) := by
  rw [File.readFd]
  by_cases valid : 0 ≤ g.fd
  · rw [if_pos valid]
    cases readn with
    | none => exact .kept (fun _ n here => by cases here) rfl rfl
    | some n =>
      simp only
      split_ifs with short
      · refine .stale (fun tidy => ?_) valid rfl rfl
        exact absurd (tidy valid n rfl) (Nat.not_le.mpr short)
      · refine .kept (fun _ m here => ?_) rfl rfl
        cases here
        exact Nat.not_lt.mp short
  · rw [if_neg valid]
    exact .kept (fun opened => absurd opened valid) rfl rfl

theorem continuousReadOut_leaves (f : File) (c : ReadOut) :
    ∃ g, Opens f g ∧ Leaves (Tidy f (.continuousReadOut c)) g (f.continuousReadOut c) := by
  rw [File.continuousReadOut]
  split_ifs with refused
  · refine ⟨f, .same rfl rfl, .kept ?_ rfl rfl⟩
    intro buf accessible _ n _
    rcases refused with noBuf | empty | denied
    · simp [buf] at noBuf
    · omega
    · simp [accessible] at denied
  · obtain ⟨buf, -, accessible⟩ : c.buf = true ∧ c.len ≠ 0 ∧ c.accessible = true := by
      simpa [not_or] using refused
    have tidy_iff : Tidy f (.continuousReadOut c) ↔
        (0 ≤ (f.openToRead c.opened).fd → ∀ n, c.readn = some n → c.len ≤ n) := by
      simp [Tidy, buf, accessible, canOpenToRead_iff]
    rw [tidy_iff]
    exact ⟨_, openToRead_opens f c.opened, readFd_leaves _ _ _⟩

/-- The file may be opened before, in either overload. -/
theorem send2SocketRange_leaves {c : SendRange} (returned : f.send2SocketRange c = some f') :
    ∃ g, Opens f g ∧ Leaves (Tidy f (.send2SocketRange c)) g f' := by
  rw [File.send2SocketRange] at returned
  split_ifs at returned with invalid behind denied
  · cases returned
    exact ⟨f, .same rfl rfl, .kept (fun valid => absurd valid (Int.not_le.mpr invalid)) rfl rfl⟩
  · cases returned
    refine ⟨f, .same rfl rfl, reset_leaves ?_⟩
    simp [Tidy, behind, Int.not_lt.mp invalid]
  · cases returned
    refine ⟨f, .same rfl rfl, .kept (fun _ => ?_) rfl rfl⟩
    rw [if_neg behind]
    intro accessible
    simp [accessible] at denied
  · have accessible : c.accessible = true := by simpa using denied
    have leaves := serve_leaves returned ⟨rfl, rfl⟩ (fun _ => ⟨rfl, rfl⟩)
      (canOpen_iff f c.opened).symm
    have tidy_iff : Tidy f (.send2SocketRange c) ↔
        (NothingLeft c.nonblock (File.leftInRange c) → f.CanOpen c.opened) := by
      simp [Tidy, behind, Int.not_lt.mp invalid, accessible]
    rw [tidy_iff]
    exact ⟨_, openRead_opens f c.opened, leaves⟩

/-- As in the ranged overload. -/
theorem send2Socket_leaves {c : SendWhole} (returned : f.send2Socket c = some f') :
    ∃ g, Opens f g ∧ Leaves (Tidy f (.send2Socket c)) g f' := by
  rw [File.send2Socket] at returned
  split_ifs at returned with refused stuck
  · cases returned
    refine ⟨f, .same rfl rfl, .kept (fun valid accessible => ?_) rfl rfl⟩
    rcases refused with invalid | denied
    · omega
    · simp [accessible] at denied
  · cases returned
    exact ⟨f, .same rfl rfl, .kept (fun _ _ _ => Or.inl stuck.1) rfl rfl⟩
  · obtain ⟨valid, accessible⟩ : 0 ≤ c.sockfd ∧ c.accessible = true := by
      simpa [not_or] using refused
    have leaves := serve_leaves returned ⟨rfl, rfl⟩ (fun _ => ⟨rfl, rfl⟩)
      (canOpen_iff f c.opened).symm
    have opens : Opens f { f.openRead c.opened with size := c.size } := by
      cases openRead_opens f c.opened with
      | same fd log => exact .same fd log
      | opened negative valid log => exact .opened negative valid log
      | refused negative invalid log => exact .refused negative invalid log
    have cursor : (f.openRead c.opened).cur = f.cur := by
      rw [File.openRead]
      split_ifs
      · rfl
      · rfl
    have tidy_iff : Tidy f (.send2Socket c) ↔
        (NothingLeft c.nonblock (c.size - f.cur) → f.CanOpen c.opened) := by
      simp [Tidy, valid, accessible]
    rw [tidy_iff, ← cursor]
    exact ⟨_, opens, leaves⟩

/-- Every call opens the descriptor at most once and then closes it at most once. -/
theorem step_leaves {c : Call} (returned : f.step c = some f') :
    ∃ g, Opens f g ∧ Leaves (Tidy f c) g f' := by
  cases c with
  | setFilename =>
    cases returned
    exact ⟨f, .same rfl rfl, reset_leaves Iff.rfl⟩
  | reset =>
    cases returned
    exact ⟨f, .same rfl rfl, reset_leaves Iff.rfl⟩
  | clear =>
    cases returned
    exact ⟨f, .same rfl rfl, reset_leaves Iff.rfl⟩
  | close =>
    cases returned
    exact ⟨f, .same rfl rfl, .closed Iff.rfl rfl rfl⟩
  | continuousReadOut c =>
    cases returned
    exact continuousReadOut_leaves f c
  | send2SocketRange c => exact send2SocketRange_leaves returned
  | send2Socket c => exact send2Socket_leaves returned

/-- The object holds the descriptor in `fd_`, and nothing when that is negative. -/
def Sound (f : File) : Prop := ∀ n, Holds n f.log ↔ n = f.fd ∧ 0 ≤ n

/-- `fd_` is the number of a descriptor that the object does not hold. -/
def Stale (f : File) : Prop := 0 ≤ f.fd ∧ ¬ Holds f.fd f.log

theorem Opens.sound (opens : Opens f g) (sound : Sound f) : Sound g := by
  cases opens with
  | same fd log => rwa [Sound, log, fd]
  | opened negative valid log =>
    intro n
    rw [log, holds_opened, sound n]
    constructor
    · rintro (rfl | ⟨rfl, held⟩)
      · exact ⟨rfl, valid⟩
      · omega
    · exact fun here => Or.inl here.1
  | refused negative invalid log =>
    intro n
    rw [log, sound n]
    omega

theorem Opens.suffix (opens : Opens f g) : f.log <:+ g.log := by
  cases opens with
  | same fd log => exact log ▸ List.suffix_rfl
  | opened negative valid log => exact log ▸ List.suffix_cons _ _
  | refused negative invalid log => exact log ▸ List.suffix_rfl

theorem Leaves.suffix {tidy : Prop} (leaves : Leaves tidy g f') : g.log <:+ f'.log := by
  cases leaves with
  | kept fine fd log => exact log ▸ List.suffix_rfl
  | closed when fd log => exact log ▸ List.suffix_cons _ _
  | stale never valid fd log => exact log ▸ List.suffix_cons _ _

theorem step_suffix {c : Call} (returned : f.step c = some f') : f.log <:+ f'.log := by
  obtain ⟨g, opens, leaves⟩ := step_leaves returned
  exact opens.suffix.trans leaves.suffix

theorem run_suffix {calls : List Call} (ran : f.run calls = some f') : f.log <:+ f'.log := by
  induction calls generalizing f with
  | nil =>
    cases ran
    exact List.suffix_rfl
  | cons c calls ih =>
    obtain ⟨g, returned, later⟩ := Option.bind_eq_some_iff.mp ran
    exact (step_suffix returned).trans (ih later)

theorem destroy_suffix (f : File) : f.log <:+ f.destroy.log := by
  rw [File.destroy]
  split_ifs
  · exact List.suffix_cons _ _
  · exact List.suffix_rfl

/-- A tidy call of a sound object closes only what the object holds. -/
theorem step_tidy {c : Call} (sound : Sound f) (own : OwnCloses f.log) (tidy : Tidy f c)
    (returned : f.step c = some f') : Sound f' ∧ OwnCloses f'.log := by
  obtain ⟨g, opens, leaves⟩ := step_leaves returned
  have sound_g := opens.sound sound
  have own_g : OwnCloses g.log := by
    cases opens with
    | same fd log => rwa [log]
    | opened negative valid log => rwa [log, ownCloses_opened]
    | refused negative invalid log => rwa [log]
  cases leaves with
  | kept fine fd log =>
    constructor
    · rwa [Sound, log, fd]
    · rwa [log]
  | closed when fd log =>
    have valid := when.mp tidy
    constructor
    · intro n
      rw [log, fd, holds_closed, sound_g n]
      omega
    · rw [log, ownCloses_closed]
      exact ⟨(sound_g g.fd).mpr ⟨rfl, valid⟩, own_g⟩
  | stale never valid fd log => exact absurd tidy never

/-- After a call that is not tidy a closing was wrong, or the next one will be. -/
theorem step_untidy {c : Call} (sound : Sound f) (untidy : ¬ Tidy f c)
    (returned : f.step c = some f') : Stale f' ∨ ¬ OwnCloses f'.log := by
  obtain ⟨g, opens, leaves⟩ := step_leaves returned
  have sound_g := opens.sound sound
  cases leaves with
  | kept fine fd log => exact absurd fine untidy
  | closed when fd log =>
    right
    intro own
    rw [log, ownCloses_closed] at own
    exact untidy (when.mpr ((sound_g g.fd).mp own.1).2)
  | stale never valid fd log =>
    left
    constructor
    · rwa [fd]
    · rw [log, fd, holds_closed]
      exact fun held => held.1 rfl

/-- A stale number stays, until it is closed. -/
theorem step_stale {c : Call} (stale : Stale f) (returned : f.step c = some f') :
    Stale f' ∨ ¬ OwnCloses f'.log := by
  obtain ⟨g, opens, leaves⟩ := step_leaves returned
  obtain ⟨valid, unheld⟩ := stale
  obtain ⟨fd_eq, log_eq⟩ : g.fd = f.fd ∧ g.log = f.log := by
    cases opens with
    | same fd log => exact ⟨fd, log⟩
    | opened negative _ _ => omega
    | refused negative _ _ => omega
  cases leaves with
  | kept fine fd log =>
    left
    rw [Stale, fd, log, fd_eq, log_eq]
    exact ⟨valid, unheld⟩
  | closed when fd log =>
    right
    intro own
    rw [log, fd_eq, log_eq, ownCloses_closed] at own
    exact unheld own.1
  | stale never valid fd log =>
    right
    intro own
    rw [log, fd_eq, log_eq, ownCloses_closed] at own
    exact unheld own.1

theorem run_stale {calls : List Call} (stale : Stale f) (ran : f.run calls = some f') :
    ¬ OwnCloses f'.destroy.log := by
  induction calls generalizing f with
  | nil =>
    cases ran
    intro own
    rw [File.destroy, if_pos stale.1, File.close, ownCloses_closed] at own
    exact stale.2 own.1
  | cons c calls ih =>
    obtain ⟨g, returned, later⟩ := Option.bind_eq_some_iff.mp ran
    rcases step_stale stale returned with still | wrong
    · exact ih still later
    · exact fun own => wrong (own.suffix ((run_suffix later).trans (destroy_suffix f')))

/-- From a sound object on, all closings are own exactly when all calls are tidy. -/
theorem run_own_iff {calls : List Call} (sound : Sound f) (own : OwnCloses f.log)
    (ran : f.run calls = some f') : OwnCloses f'.destroy.log ↔ AllTidy f calls := by
  induction calls generalizing f with
  | nil =>
    cases ran
    refine iff_of_true ?_ trivial
    rw [File.destroy]
    split_ifs with valid
    · rw [File.close, ownCloses_closed]
      exact ⟨(sound _).mpr ⟨rfl, valid⟩, own⟩
    · exact own
  | cons c calls ih =>
    obtain ⟨g, returned, later⟩ := Option.bind_eq_some_iff.mp ran
    rw [AllTidy, returned]
    by_cases tidy : Tidy f c
    · obtain ⟨sound_g, own_g⟩ := step_tidy sound own tidy returned
      rw [ih sound_g own_g later]
      constructor
      · rintro rest
        exact ⟨tidy, fun g' same => Option.some.inj same ▸ rest⟩
      · rintro ⟨-, rest⟩
        exact rest g rfl
    · refine iff_of_false ?_ (fun all => tidy all.1)
      rcases step_untidy sound tidy returned with stale | wrong
      · exact run_stale stale later
      · exact fun later_own =>
          wrong (later_own.suffix ((run_suffix later).trans (destroy_suffix f')))

/-- A file object closes only descriptors of its own, from its construction to its destructor,
exactly when it is made without a name, in memory that happens to hold a negative number, and
every call is tidy. -/
theorem own_closes_iff {named : Bool} {garbage : Garbage} {calls : List Call}
    (ran : (if named then File.constructNamed garbage else File.construct garbage).run calls =
      some f) :
    OwnCloses f.destroy.log ↔
      named = false ∧ garbage.fd < 0 ∧ AllTidy (File.construct garbage) calls := by
  cases named with
  | true =>
    refine iff_of_false (fun own => ?_) (fun all => Bool.false_ne_true all.1.symm)
    have start := own.suffix ((run_suffix ran).trans (destroy_suffix f))
    exact start.1
  | false =>
    by_cases negative : garbage.fd < 0
    · have sound : Sound (File.construct garbage) := by
        intro n
        rw [File.construct, holds_nil]
        simp only [false_iff, not_and]
        omega
      rw [run_own_iff sound trivial ran]
      simp [negative]
    · have stale : Stale (File.construct garbage) := ⟨Int.not_lt.mp negative, id⟩
      exact iff_of_false (run_stale stale ran) (fun all => negative all.2.1)

end

/-- A call that opens the file over a descriptor of its own. -/
theorem own_closes_iff_read :
    OwnCloses (File.destroy ⟨-1, 0, 0, false, [.closed 7, .opened 7]⟩).log ↔
      false = false ∧ (-1 : Int) < 0 ∧ AllTidy (File.construct ⟨-1, 0, 0⟩)
        [.continuousReadOut ⟨true, 4, true, 7, some 4⟩, .reset] :=
  own_closes_iff (show (if false = true then File.constructNamed ⟨-1, 0, 0⟩
    else File.construct ⟨-1, 0, 0⟩).run
      [.continuousReadOut ⟨true, 4, true, 7, some 4⟩, .reset] = some _ from rfl)

/-- The end of the file closes the descriptor, and the destructor closes its number again; the
constructor with a name closes whatever number it finds. -/
theorem closed_again :
    (∃ f, (File.construct ⟨-1, 0, 0⟩).run [.continuousReadOut ⟨true, 10, true, 7, some 5⟩] =
      some f ∧ ¬ OwnCloses f.destroy.log) ∧
    ∃ f, (File.constructNamed ⟨7, 0, 0⟩).run [] = some f ∧ ¬ OwnCloses f.destroy.log := by
  constructor
  · exact ⟨_, rfl, by decide⟩
  · exact ⟨_, rfl, by decide⟩

end FileDescriptors
