import Mathlib.Logic.Function.Basic
import Tigerso.GuardedRuns
import Tigerso.HandleLog
import Tigerso.HttpMessage

/-!
# core/SysUtil: mutexes in shared memory

The handles of one process. An access through a pointer that does not point to a mapped
`shm_mutex_t` is undefined and has no result. Of a `shm_mutex_t` the count is kept (a process has
fewer than `2 ^ 31` handles); nothing reads its copy of the name. No handle is locked.
-/

open HandleLog

def defaultShmMutexFilename : Bytes := literal "tigerso-mutex"

structure ShmMutexT where
  referNum : Int

/-- What the kernel answers when a mutex is created. -/
inductive Creation where
  /-- `shm_open` fails. -/
  | refused
  /-- `mmap` fails, and what it returns is not `NULL`. -/
  | unmapped
  /-- The address of the mapping, and whether the mutex in it was initialised. -/
  | mapped (addr : Nat) (initialised : Bool)
  deriving DecidableEq

/-- The mappings of the process and the names in `/dev/shm`, each with the address at which the
memory behind it was mapped. -/
structure SharedMutexes where
  memory : Nat → Option ShmMutexT
  names : Bytes → Option Nat
  /-- `pthread_mutex_init` and `pthread_mutex_destroy`. -/
  mutexes : List (Event Nat)
  /-- `mmap` and `munmap`. -/
  mappings : List (Event Nat)

namespace SharedMutexes

def empty : SharedMutexes := ⟨fun _ => none, fun _ => none, [], []⟩

/-- The name in `/dev/shm`; the slashes in front of it do not count. -/
def inDirectory (shmName : Bytes) : Bytes := shmName.dropWhile (· = 47)

def shmUnlink (m : SharedMutexes) (shmName : Bytes) : SharedMutexes :=
  { m with names := Function.update m.names (inDirectory shmName) none }

/-- `remove("/dev/shm" + shm_name)`, which is in the directory when the name starts with a slash. -/
def removeFile (m : SharedMutexes) (shmName : Bytes) : SharedMutexes :=
  if shmName.head? = some 47 then m.shmUnlink shmName else m

/-- `create_process_shared_memory`; the memory is cleared. -/
def create (m : SharedMutexes) (shmName : Bytes) (c : Creation) :
    Option (Option Nat × SharedMutexes) :=
  if shmName = [] then some (none, m)
  else match c with
    | .refused => some (none, m)
    | .unmapped => none
    | .mapped addr _ => some (some addr, { m with
        memory := Function.update m.memory addr (some ⟨0⟩)
        names := Function.update m.names (inDirectory shmName) (some addr)
        mappings := .opened addr :: m.mappings })

/-- `destroy_process_shared_memory`. -/
def release (m : SharedMutexes) (shmName : Bytes) (ptr : Option Nat) : SharedMutexes :=
  match ptr with
  | none => m
  | some addr =>
    if shmName = [] then m
    else { m with
      memory := Function.update m.memory addr none
      mappings := .closed addr :: m.mappings }.shmUnlink shmName

/-- `if(mutex_ptr) mutex_ptr->refer_num = …`. -/
def count (m : SharedMutexes) (mutexPtr : Option Nat) (f : Int → Int) : Option SharedMutexes :=
  match mutexPtr with
  | none => some m
  | some addr => (m.memory addr).map fun mutex =>
    { m with memory := Function.update m.memory addr (some ⟨f mutex.referNum⟩) }

end SharedMutexes

structure ShmMutex where
  mutexPtr : Option Nat
  shmName : Bytes
  shmPid : Nat
  deriving DecidableEq

namespace ShmMutex

/-- A handle without a name gets the default one; `time` is the formatted time. -/
def title (shmName time : Bytes) : Bytes :=
  if shmName = [] then defaultShmMutexFilename ++ time else shmName

/-- `init`; its result is not read. -/
def init (h : ShmMutex) (time : Bytes) (c : Creation) (m : SharedMutexes) :
    Option (ShmMutex × SharedMutexes) :=
  if h.mutexPtr ≠ none then some (h, m)
  else
    let name := title h.shmName time
    ((m.shmUnlink name).create name c).map fun (ptr, m) =>
      match ptr, c with
      | some addr, .mapped _ true =>
        (⟨ptr, name, h.shmPid⟩, { m with mutexes := .opened addr :: m.mutexes })
      | _, _ => (⟨ptr, name, h.shmPid⟩, m)

def construct (h : ShmMutex) (time : Bytes) (c : Creation) (m : SharedMutexes) :
    Option (ShmMutex × SharedMutexes) := do
  let (h, m) ← h.init time c m
  let m ← m.count h.mutexPtr fun _ => 1
  some (h, m)

def copy (h : ShmMutex) (pid : Nat) (m : SharedMutexes) : Option (ShmMutex × SharedMutexes) := do
  let m ← m.count h.mutexPtr (· + 1)
  some (⟨h.mutexPtr, h.shmName, pid⟩, m)

def destroy (h : ShmMutex) (m : SharedMutexes) : SharedMutexes :=
  match h.mutexPtr with
  | none => m
  | some addr => { m with mutexes := .closed addr :: m.mutexes }

/-- The destructor in the process `pid`. -/
def destruct (h : ShmMutex) (pid : Nat) (m : SharedMutexes) : Option SharedMutexes := do
  let m ← m.count h.mutexPtr (· - 1)
  if pid = h.shmPid then
    some (((h.destroy m).release h.shmName h.mutexPtr).removeFile h.shmName)
  else some m

/-- What the assignment makes of the handle, whose old pointer is forgotten. -/
def assigned (source : ShmMutex) (pid : Nat) (m : SharedMutexes) :
    Option (ShmMutex × SharedMutexes) := source.copy pid m

/-- The copy that an assignment returns lives until the end of the statement. -/
def returned (h : ShmMutex) (pid : Nat) (m : SharedMutexes) : Option SharedMutexes := do
  let (temporary, m) ← h.copy pid m
  temporary.destruct pid m

end ShmMutex

/-- What the process does with its handles; a handle is known by its address. -/
inductive HandleEvent where
  /-- `ShmMutex()`. -/
  | construct (id : Nat) (time : Bytes) (c : Creation)
  /-- `ShmMutex(shm_name)`, which compares `mutex_ptr` with `NULL` where it should set it; `garbage`
  is what the pointer was. -/
  | constructNamed (id : Nat) (shmName : Bytes) (garbage : Option Nat) (time : Bytes)
      (c : Creation)
  | copy (id source : Nat)
  /-- `target = source;` -/
  | assign (target source : Nat)
  | destruct (id : Nat)

/-- A process and its live handles. -/
structure HandleProcess where
  pid : Nat
  handles : List (Nat × ShmMutex)
  shared : SharedMutexes

namespace HandleProcess
open ShmMutex

def start (pid : Nat) : HandleProcess := ⟨pid, [], .empty⟩

def find (p : HandleProcess) (id : Nat) : Option ShmMutex :=
  (p.handles.find? fun h => h.1 = id).map Prod.snd

/-- `mmap` returns an address where nothing is mapped. -/
def Vacant (p : HandleProcess) : Creation → Prop
  | .mapped addr _ => (p.shared.memory addr).isNone
  | _ => True

instance (p : HandleProcess) : ∀ c, Decidable (p.Vacant c)
  | .mapped addr _ => inferInstanceAs (Decidable ((p.shared.memory addr).isNone = true))
  | .refused | .unmapped => inferInstanceAs (Decidable True)

/-- A new handle, with what its constructor makes of the memory. -/
def built (p : HandleProcess) (id : Nat) (made : Option (ShmMutex × SharedMutexes)) :
    Option HandleProcess :=
  made.map fun (h, m) => { p with handles := (id, h) :: p.handles, shared := m }

/-- `target = source;` -/
def assigning (p : HandleProcess) (target source : Nat) (h other : ShmMutex) :
    Option HandleProcess :=
  if target = source then (h.returned p.pid p.shared).map fun m => { p with shared := m }
  else do
    let (h', m) ← other.assigned p.pid p.shared
    let m ← h'.returned p.pid m
    some { p with handles := (target, h') :: p.handles.erase (target, h), shared := m }

def dropped (p : HandleProcess) (id : Nat) (h : ShmMutex) (m : SharedMutexes) : HandleProcess :=
  { p with handles := p.handles.erase (id, h), shared := m }

/-- What an event leaves. The outer `none` is an event that cannot happen, the inner one
undefined behaviour. -/
def outcome (p : HandleProcess) : HandleEvent → Option (Option HandleProcess)
  | .construct id time c =>
    if p.find id = none ∧ p.Vacant c then
      some (p.built id (construct ⟨none, [], p.pid⟩ time c p.shared))
    else none
  | .constructNamed id shmName garbage time c =>
    if p.find id = none ∧ p.Vacant c then
      some (p.built id (construct ⟨garbage, shmName, p.pid⟩ time c p.shared))
    else none
  | .copy id source =>
    if p.find id = none then
      (p.find source).map fun h => p.built id (h.copy p.pid p.shared)
    else none
  | .assign target source =>
    (p.find target).bind fun h => (p.find source).map fun other =>
      p.assigning target source h other
  | .destruct id =>
    (p.find id).map fun h => (h.destruct p.pid p.shared).map fun m => p.dropped id h m

def step (p : HandleProcess) (e : HandleEvent) : Option HandleProcess := (p.outcome e).join

def referring (p : HandleProcess) (addr : Nat) : Nat :=
  p.handles.countP fun h => h.2.mutexPtr = some addr

/-- A mutex is there, and its memory, exactly as long as a handle refers to it; it was never
destroyed or released twice, and its count is the number of handles. -/
structure Counted (p : HandleProcess) : Prop where
  live : ∀ addr, Holds addr p.shared.mutexes ↔ p.referring addr ≠ 0
  mapped : ∀ addr, Holds addr p.shared.mappings ↔ p.referring addr ≠ 0
  counted : ∀ addr, p.referring addr ≠ 0 → p.shared.memory addr = some ⟨p.referring addr⟩
  destroyed : OwnCloses p.shared.mutexes
  released : OwnCloses p.shared.mappings
  named : ∀ name addr, p.shared.names name = some addr → p.referring addr ≠ 0

end HandleProcess
