import Mathlib.Logic.Function.Basic
import Tigerso.GuardedRuns
import Tigerso.RecordLocks
import Tigerso.SystemCalls

/-!
# core/FileLock and LockGuard: sections that several processes guard by one lock file

Any number of processes, each with a `FileLock` of the same file name, as `CertCache` has one.
The constructor and the destructor take several steps, since other processes run in between.
-/

open SystemCalls RecordLocks GuardedRuns

def lockSuccess : Int := 0
def lockFailure : Int := -1

/-- `l_type`. -/
inductive LockType where
  | fRdlck
  | fWrlck
  | fUnlck
  deriving DecidableEq, Repr

structure FileLock where
  content : Bytes
  locked : Bool
  /-- The file behind the descriptor; `none` for -1. -/
  fd : Option Nat

namespace FileLock
variable {P : Type} [DecidableEq P]

/-- `fcntl(fd_, F_SETLK, &lk)` for the whole file; `none` for -1. -/
def lockCmd (l : FileLock) (t : Table P Nat) (p : P) (cmd : LockType) : Option (Table P Nat) :=
  match l.fd, cmd with
  | none, _ => none
  | some file, .fUnlck => some (release t file p)
  | some file, .fRdlck => if grants t file p .shared then some (place t file p .shared) else none
  | some file, .fWrlck =>
    if grants t file p .exclusive then some (place t file p .exclusive) else none

def readLock (l : FileLock) (t : Table P Nat) (p : P) : Int × Table P Nat :=
  match l.lockCmd t p .fRdlck with
  | none => (lockFailure, t)
  | some t => (lockSuccess, t)

def lock (l : FileLock) (t : Table P Nat) (p : P) : Int × FileLock × Table P Nat :=
  match l.lockCmd t p .fWrlck with
  | none => (lockFailure, l, t)
  | some t => (lockSuccess, { l with locked := true }, t)

def unlock (l : FileLock) (t : Table P Nat) (p : P) : Int × FileLock × Table P Nat :=
  match l.lockCmd t p .fUnlck with
  | none => (lockFailure, l, t)
  | some t => (lockSuccess, { l with locked := false }, t)

/-- Where a process is in the code of its `FileLock`. -/
inductive Place where
  | absent
  /-- `init` has opened the file. -/
  | opened
  /-- `init` holds the lock and writes the content. -/
  | writing
  | outside
  /-- `hashSearch` compares the names. -/
  | reading
  /-- Between the constructor and the destructor of a `LockGuard`. -/
  | guarded
  /-- `destroy` has unlocked. -/
  | unlocked
  /-- `destroy` has closed the descriptor. -/
  | closed
  deriving DecidableEq, Repr

structure Process where
  object : FileLock
  place : Place

structure System (P : Type) where
  /-- What the file name leads to. -/
  file : Option Nat
  /-- How many files were created under it. -/
  created : Nat
  table : Table P Nat
  processes : P → Process

inductive Event (P : Type) where
  /-- The constructor; whether `open` fails. -/
  | construct (p : P) (content : Bytes) (fails : Bool)
  | initLock (p : P)
  | initUnlock (p : P)
  | readLock (p : P)
  | readUnlock (p : P)
  | guard (p : P)
  | unguard (p : P)
  | destroyUnlock (p : P)
  | destroyClose (p : P)
  | destroyUnlink (p : P)
  | fork (p child : P)
  | exit (p : P)

def absentProcess : Process := ⟨⟨[], false, none⟩, .absent⟩

namespace System

/-- No process has a `FileLock`, and the file may be there or not. -/
def init (file : Option Nat) : System P where
  file := file
  created := file.elim 0 (· + 1)
  table := []
  processes := fun _ => absentProcess

def change (s : System P) (p : P) (t : Table P Nat) (object : FileLock)
    (place : Place) : System P :=
  { s with table := t, processes := Function.update s.processes p ⟨object, place⟩ }

/-- `open` with `O_CREAT`. -/
def construct (s : System P) (p : P) (content : Bytes) (fails : Bool) : System P :=
  if fails then s.change p s.table ⟨content, false, none⟩ .outside
  else match s.file with
    | some file => s.change p s.table ⟨content, false, some file⟩ .opened
    | none => { s with file := some s.created, created := s.created + 1 }.change p s.table
        ⟨content, false, some s.created⟩ .opened

/-- The rest of `init`: the lock stays when there is nothing to write. -/
def initLock (s : System P) (p : P) : System P :=
  let object := (s.processes p).object
  if object.locked then s.change p s.table object .outside
  else
    let (ret, object, t) := object.lock s.table p
    if ret = lockSuccess ∧ object.content ≠ [] then s.change p t object .writing
    else s.change p t object .outside

/-- `LockGuard` does not look at what `lock` returns. -/
def guard (s : System P) (p : P) : System P :=
  let (_, object, t) := (s.processes p).object.lock s.table p
  s.change p t object .guarded

def unlockTo (s : System P) (p : P) (place : Place) : System P :=
  let (_, object, t) := (s.processes p).object.unlock s.table p
  s.change p t object place

def readLock (s : System P) (p : P) : System P :=
  let object := (s.processes p).object
  s.change p (object.readLock s.table p).2 object .reading

def destroyUnlock (s : System P) (p : P) : System P :=
  if (s.processes p).object.locked then s.unlockTo p .unlocked
  else s.change p s.table (s.processes p).object .unlocked

/-- `close` drops the locks that the process has on the file. -/
def destroyClose (s : System P) (p : P) : System P :=
  let object := (s.processes p).object
  match object.fd with
  | none => s.change p s.table object .closed
  | some file => s.change p (release s.table file p) { object with fd := none } .closed

/-- `unlink`. -/
def destroyUnlink (s : System P) (p : P) : System P :=
  { s with file := none }.change p s.table absentProcess.object .absent

def fork (s : System P) (p child : P) : System P :=
  s.change child s.table (s.processes p).object .outside

def exit (s : System P) (p : P) : System P :=
  s.change p (releaseAll s.table p) absentProcess.object .absent

def ready (s : System P) : Event P → Bool
  | .construct p _ _ => (s.processes p).place = .absent
  | .initLock p => (s.processes p).place = .opened
  | .initUnlock p => (s.processes p).place = .writing
  | .readLock p => (s.processes p).place = .outside
  | .readUnlock p => (s.processes p).place = .reading
  | .guard p => (s.processes p).place = .outside
  | .unguard p => (s.processes p).place = .guarded
  | .destroyUnlock p => (s.processes p).place = .outside
  | .destroyClose p => (s.processes p).place = .unlocked
  | .destroyUnlink p => (s.processes p).place = .closed
  | .fork p child => (s.processes p).place = .outside ∧ (s.processes child).place = .absent
  | .exit p => (s.processes p).place ≠ .absent

def take (s : System P) : Event P → System P
  | .construct p content fails => s.construct p content fails
  | .initLock p => s.initLock p
  | .initUnlock p => s.unlockTo p .outside
  | .readLock p => s.readLock p
  | .readUnlock p => s.unlockTo p .outside
  | .guard p => s.guard p
  | .unguard p => s.unlockTo p .outside
  | .destroyUnlock p => s.destroyUnlock p
  | .destroyClose p => s.destroyClose p
  | .destroyUnlink p => s.destroyUnlink p
  | .fork p child => s.fork p child
  | .exit p => s.exit p

def step (s : System P) (e : Event P) : Option (System P) :=
  if s.ready e then some (s.take e) else none

/-- No two processes are inside a guarded section. -/
def Exclusive (s : System P) : Prop :=
  ∀ p q, (s.processes p).place = .guarded → (s.processes q).place = .guarded → p = q

def lockable (s : System P) (p : P) : Bool :=
  (s.processes p).object.fd.any fun file => grants s.table file p .exclusive

/-- A guard gets the lock, and the file is not created anew while a process has the old one. -/
def Met (s : System P) : Event P → Prop
  | .construct _ _ fails =>
    fails = false → s.file = none → ∀ q, (s.processes q).object.fd = none
  | .guard p => s.lockable p = true
  | _ => True

end System

section
variable {l : FileLock} {t : Table P Nat} {p : P} {s s' : System P}

/-- A command changes the locks of its process only. -/
theorem lockCmd_changed {cmd : LockType} {t' : Table P Nat} (ok : l.lockCmd t p cmd = some t') :
    ChangedFor p t t' := by
  unfold lockCmd at ok
  cases fd : l.fd with
  | none =>
    rw [fd] at ok
    cases ok
  | some file =>
    rw [fd] at ok
    cases cmd with
    | fUnlck =>
      cases ok
      exact release_changed t file p
    | fRdlck =>
      dsimp only at ok
      split_ifs at ok with granted
      cases ok
      exact place_changed granted
    | fWrlck =>
      dsimp only at ok
      split_ifs at ok with granted
      cases ok
      exact place_changed granted

/-- `lock` keeps the descriptor, and the locks of the other processes. -/
theorem lock_changed (l : FileLock) (t : Table P Nat) (p : P) :
    (l.lock t p).2.1.fd = l.fd ∧ ChangedFor p t (l.lock t p).2.2 := by
  rw [lock]
  cases ok : l.lockCmd t p .fWrlck with
  | none => exact ⟨rfl, .refl p t⟩
  | some t' => exact ⟨rfl, lockCmd_changed ok⟩

theorem unlock_changed (l : FileLock) (t : Table P Nat) (p : P) :
    (l.unlock t p).2.1.fd = l.fd ∧ ChangedFor p t (l.unlock t p).2.2 := by
  rw [unlock]
  cases ok : l.lockCmd t p .fUnlck with
  | none => exact ⟨rfl, .refl p t⟩
  | some t' => exact ⟨rfl, lockCmd_changed ok⟩

theorem readLock_changed (l : FileLock) (t : Table P Nat) (p : P) :
    ChangedFor p t (l.readLock t p).2 := by
  rw [readLock]
  cases ok : l.lockCmd t p .fRdlck with
  | none => exact .refl p t
  | some t' => exact lockCmd_changed ok

/-- A lock that no other process prevents is held. -/
theorem lock_held {file : Nat} (fd : l.fd = some file)
    (granted : grants t file p .exclusive = true) :
    ⟨file, p, .exclusive⟩ ∈ (l.lock t p).2.2 := by
  have ok : l.lockCmd t p .fWrlck = some (place t file p .exclusive) := by
    unfold lockCmd
    rw [fd]
    exact if_pos granted
  rw [lock, ok]
  exact List.mem_cons_self

namespace System

theorem change_self (s : System P) (p : P) (t : Table P Nat) (object : FileLock) (place : Place) :
    (s.change p t object place).processes p = ⟨object, place⟩ := Function.update_self _ _ _

theorem change_other (s : System P) {p q : P} (t : Table P Nat) (object : FileLock) (place : Place)
    (other : q ≠ p) : (s.change p t object place).processes q = s.processes q :=
  Function.update_of_ne other _ _

/-- All descriptors lead to one file, and who is inside holds the lock on it. -/
structure Held (s : System P) : Prop where
  coherent : Coherent s.table
  oneFile : ∀ p q file file', (s.processes p).object.fd = some file →
    (s.processes q).object.fd = some file' → file = file'
  named : ∀ p file file', (s.processes p).object.fd = some file → s.file = some file' →
    file = file'
  locked : ∀ p, (s.processes p).place = .guarded → ∃ file,
    (s.processes p).object.fd = some file ∧ ⟨file, p, .exclusive⟩ ∈ s.table

omit [DecidableEq P] in
theorem init_held (file : Option Nat) : Held (init file : System P) where
  coherent := coherent_nil
  oneFile := nofun
  named := nofun
  locked := nofun

omit [DecidableEq P] in
theorem Held.exclusive (held : Held s) : s.Exclusive := by
  intro p q first second
  obtain ⟨file, fd, mine⟩ := held.locked p first
  obtain ⟨file', fd', other⟩ := held.locked q second
  obtain rfl := held.oneFile p q file file' fd fd'
  exact held.coherent.exclusive mine other

/-- What a process keeps of the invariant when only its own state and locks change. -/
theorem Held.change {t : Table P Nat} {object : FileLock} {place : Place} (held : Held s)
    (changed : ChangedFor p s.table t)
    (fd : ∀ file, object.fd = some file → (∀ q file', q ≠ p →
      (s.processes q).object.fd = some file' → file = file') ∧
      ∀ file', s.file = some file' → file = file')
    (own : place = .guarded → ∃ file, object.fd = some file ∧ ⟨file, p, .exclusive⟩ ∈ t) :
    Held (s.change p t object place) where
  coherent := changed.coherent held.coherent
  oneFile := by
    intro q r file file' first second
    by_cases mine : q = p
    · subst mine
      rw [change_self] at first
      by_cases both : r = q
      · subst both
        rw [change_self] at second
        exact Option.some.inj (first.symm.trans second)
      · rw [change_other s t object place both] at second
        exact (fd file first).1 r file' both second
    · rw [change_other s t object place mine] at first
      by_cases other : r = p
      · subst other
        rw [change_self] at second
        exact ((fd file' second).1 q file mine first).symm
      · rw [change_other s t object place other] at second
        exact held.oneFile q r file file' first second
  named := by
    intro q file file' open_ name
    by_cases mine : q = p
    · subst mine
      rw [change_self] at open_
      exact (fd file open_).2 file' name
    · rw [change_other s t object place mine] at open_
      exact held.named q file file' open_ name
  locked := by
    intro q inside
    by_cases mine : q = p
    · subst mine
      rw [change_self] at inside ⊢
      exact own inside
    · rw [change_other s t object place mine] at inside ⊢
      obtain ⟨file, open_, there⟩ := held.locked q inside
      exact ⟨file, open_, changed.kept _ there mine⟩

/-- The descriptor is the old one, or none. -/
theorem Held.keep {t : Table P Nat} {object : FileLock} {place : Place} (held : Held s)
    (changed : ChangedFor p s.table t)
    (fd : object.fd = none ∨ object.fd = (s.processes p).object.fd)
    (own : place = .guarded → ∃ file, object.fd = some file ∧ ⟨file, p, .exclusive⟩ ∈ t) :
    Held (s.change p t object place) := by
  refine held.change changed (fun file open_ => ?_) own
  rcases fd with none | same
  · rw [none] at open_
    cases open_
  · rw [same] at open_
    exact ⟨fun q file' _ => held.oneFile p q file file' open_,
      fun file' => held.named p file file' open_⟩

theorem Held.unlockTo (held : Held s) (p : P) {place : Place} (out : place ≠ .guarded) :
    Held (s.unlockTo p place) := by
  obtain ⟨fd, changed⟩ := unlock_changed (s.processes p).object s.table p
  exact held.keep changed (Or.inr fd) fun inside => absurd inside out

theorem Held.unlink (held : Held s) : Held { s with file := none } where
  coherent := held.coherent
  oneFile := held.oneFile
  named := nofun
  locked := held.locked

theorem Held.create (held : Held s) (closed : ∀ q, (s.processes q).object.fd = none)
    (file : Nat) : Held { s with file := some file, created := s.created + 1 } where
  coherent := held.coherent
  oneFile := held.oneFile
  named := by
    intro p file file' open_
    rw [closed p] at open_
    cases open_
  locked := held.locked

/-- The constructor opens the file but locks nothing. -/
theorem Held.construct (held : Held s) (p : P) (content : Bytes) {fails : Bool}
    (met : s.Met (.construct p content fails)) : Held (s.construct p content fails) := by
  rw [System.construct]
  cases fails with
  | true => exact held.keep (.refl p _) (Or.inl rfl) nofun
  | false =>
    rw [if_neg Bool.false_ne_true]
    cases name : s.file with
    | some file =>
      refine held.change (.refl p _) ?_ nofun
      rintro _ ⟨⟩
      exact ⟨fun q file' _ open_ => (held.named q file' file open_ name).symm,
        fun file' same => Option.some.inj (name.symm.trans same)⟩
    | none =>
      have closed := met rfl name
      refine (held.create closed s.created).change (.refl p _) ?_ nofun
      rintro _ ⟨⟩
      refine ⟨fun q file' _ open_ => ?_, fun file' same => Option.some.inj same⟩
      rw [closed q] at open_
      cases open_

theorem Held.initLock (held : Held s) (p : P) : Held (s.initLock p) := by
  obtain ⟨fd, changed⟩ := lock_changed (s.processes p).object s.table p
  simp only [System.initLock]
  split_ifs
  · exact held.keep (.refl p _) (Or.inr rfl) nofun
  · exact held.keep changed (Or.inr fd) nofun
  · exact held.keep changed (Or.inr fd) nofun

theorem lockable_fd (lockable : s.lockable p = true) : ∃ file,
    (s.processes p).object.fd = some file ∧ grants s.table file p .exclusive = true := by
  rw [System.lockable] at lockable
  cases open_ : (s.processes p).object.fd with
  | none =>
    rw [open_] at lockable
    cases lockable
  | some file =>
    rw [open_] at lockable
    exact ⟨file, rfl, lockable⟩

/-- A guard that gets the lock. -/
theorem Held.guard (held : Held s) (p : P) (met : s.Met (.guard p)) : Held (s.guard p) := by
  obtain ⟨file, open_, granted⟩ := lockable_fd met
  obtain ⟨fd, changed⟩ := lock_changed (s.processes p).object s.table p
  exact held.keep changed (Or.inr fd) fun _ => ⟨file, fd.trans open_, lock_held open_ granted⟩

theorem Held.destroyUnlock (held : Held s) (p : P) : Held (s.destroyUnlock p) := by
  rw [System.destroyUnlock]
  split_ifs
  · exact held.unlockTo p nofun
  · exact held.keep (.refl p _) (Or.inr rfl) nofun

theorem Held.destroyClose (held : Held s) (p : P) : Held (s.destroyClose p) := by
  simp only [System.destroyClose]
  cases (s.processes p).object.fd with
  | none => exact held.keep (.refl p _) (Or.inr rfl) nofun
  | some file => exact held.keep (release_changed _ file p) (Or.inl rfl) nofun

/-- A child gets the descriptor of its parent. -/
theorem Held.fork (held : Held s) (p child : P) : Held (s.fork p child) := by
  refine held.change (.refl child _) (fun file open_ => ?_) nofun
  exact ⟨fun q file' _ => held.oneFile p q file file' open_,
    fun file' => held.named p file file' open_⟩

theorem Held.take {e : Event P} (held : Held s) (met : s.Met e) : Held (s.take e) := by
  cases e with
  | construct p content fails => exact held.construct p content met
  | initLock p => exact held.initLock p
  | initUnlock p => exact held.unlockTo p nofun
  | readLock p => exact held.keep (readLock_changed _ _ p) (Or.inr rfl) nofun
  | readUnlock p => exact held.unlockTo p nofun
  | guard p => exact held.guard p met
  | unguard p => exact held.unlockTo p nofun
  | destroyUnlock p => exact held.destroyUnlock p
  | destroyClose p => exact held.destroyClose p
  | destroyUnlink p => exact held.unlink.keep (.refl p _) (Or.inl rfl) nofun
  | fork p child => exact held.fork p child
  | exit p => exact held.keep (releaseAll_changed _ p) (Or.inl rfl) nofun

theorem Held.step {e : Event P} (held : Held s) (met : s.Met e) (steps : s.step e = some s') :
    Held s' := by
  rw [System.step] at steps
  split_ifs at steps
  cases steps
  exact held.take met

/-- In a run in which every guard gets the lock, and the file is not created anew while it is
open, no two processes are inside a guarded section. -/
theorem guarded_exclusive {file : Option Nat} {s : System P}
    (run : Reaches System.step System.Met (init file) s) : s.Exclusive :=
  Held.exclusive
    (run.invariant Held (init_held file) fun _ _ _ held met steps => held.step met steps)

end System

end

namespace System

/-- Two processes with a `FileLock` each. -/
def constructed : List (Event (Fin 2)) :=
  [.construct 0 [1] false, .initLock 0, .initUnlock 0, .construct 1 [1] false, .initLock 1,
    .initUnlock 1]

instance (s : System (Fin 2)) : ∀ e, Decidable (s.Met e)
  | .construct _ _ fails => inferInstanceAs (Decidable
      (fails = false → s.file = none → ∀ q, (s.processes q).object.fd = none))
  | .guard p => inferInstanceAs (Decidable (s.lockable p = true))
  | .initLock _ | .initUnlock _ | .readLock _ | .readUnlock _ | .unguard _ | .destroyUnlock _
  | .destroyClose _ | .destroyUnlink _ | .fork _ _ | .exit _ => inferInstanceAs (Decidable True)

/-- One guard behind the other. -/
theorem guarded_in_turn : ∃ s : System (Fin 2),
    follow step Met (init none) (constructed ++ [.guard 0, .unguard 0, .guard 1]) = some s ∧
      s.Exclusive := by
  obtain ⟨s, followed⟩ := Option.isSome_iff_exists.mp (by decide : (follow step Met (init none)
    (constructed ++ [.guard 0, .unguard 0, .guard 1])).isSome = true)
  exact ⟨s, followed, guarded_exclusive (reaches_of_follow followed)⟩

/-- The second guard does not get the lock. -/
theorem guarded_together : ∃ s : System (Fin 2),
    Reaches step (fun _ _ => True) (init none) s ∧ ¬ s.Exclusive := by
  have both : (follow step (fun _ _ => True) (init none)
      (constructed ++ [.guard 0, .guard 1])).map
        (fun s => ((s.processes 0).place, (s.processes 1).place)) =
      some (.guarded, .guarded) := by decide
  obtain ⟨s, followed, places⟩ := Option.map_eq_some_iff.mp both
  refine ⟨s, reaches_of_follow followed, fun exclusive => ?_⟩
  obtain ⟨first, second⟩ := Prod.mk.inj places
  exact absurd (exclusive 0 1 first second) (by decide)

end System

end FileLock
