import Tigerso.ShmMutex

/-!
# core/SysUtil: the count of a shared mutex over all runs
-/

open HandleLog GuardedRuns

namespace ShmMutex
open SharedMutexes

section
variable {h : ShmMutex} {m : SharedMutexes} {pid addr : Nat} {name time : Bytes}
  {mutex : ShmMutexT}

theorem title_ne_nil (name time : Bytes) : title name time ≠ [] := by
  rw [title]
  split_ifs with none_
  · exact List.append_ne_nil_of_left_ne_nil (by decide) _
  · exact none_

/-- Names are only taken away. -/
structure Forgets (m m' : SharedMutexes) : Prop where
  memory : m'.memory = m.memory
  mutexes : m'.mutexes = m.mutexes
  mappings : m'.mappings = m.mappings
  fewer : ∀ name addr, m'.names name = some addr → m.names name = some addr

theorem shmUnlink_forgets (m : SharedMutexes) (name : Bytes) : Forgets m (m.shmUnlink name) := by
  refine ⟨rfl, rfl, rfl, fun other addr there => ?_⟩
  rw [shmUnlink] at there
  simp only [Function.update_apply] at there
  split_ifs at there
  exact there

theorem removeFile_forgets (m : SharedMutexes) (name : Bytes) : Forgets m (m.removeFile name) := by
  rw [removeFile]
  split_ifs
  · exact shmUnlink_forgets m name
  · exact ⟨rfl, rfl, rfl, fun _ _ => id⟩

theorem construct_refused (name time : Bytes) (pid : Nat) (m : SharedMutexes) :
    construct ⟨none, name, pid⟩ time .refused m =
      some (⟨none, title name time, pid⟩, m.shmUnlink (title name time)) := by
  simp [construct, init, create, title_ne_nil, count]

theorem construct_unmapped (name time : Bytes) (pid : Nat) (m : SharedMutexes) :
    construct ⟨none, name, pid⟩ time .unmapped m = none := by
  simp [construct, init, create, title_ne_nil, count]

def created (m : SharedMutexes) (name : Bytes) (addr : Nat) (initialised : Bool) :
    SharedMutexes where
  memory := Function.update m.memory addr (some ⟨1⟩)
  names := Function.update (m.shmUnlink name).names (inDirectory name) (some addr)
  mutexes := if initialised then .opened addr :: m.mutexes else m.mutexes
  mappings := .opened addr :: m.mappings

theorem construct_mapped (name time : Bytes) (pid addr : Nat) (initialised : Bool)
    (m : SharedMutexes) :
    construct ⟨none, name, pid⟩ time (.mapped addr initialised) m =
      some (⟨some addr, title name time, pid⟩,
        created m (title name time) addr initialised) := by
  cases initialised <;>
    simp [construct, init, create, title_ne_nil, count, created, shmUnlink]

/-- A pointer that was not `NULL` is kept, and a mutex behind it is counted anew. -/
theorem construct_garbage (name time : Bytes) (pid addr : Nat) (c : Creation)
    (m : SharedMutexes) :
    construct ⟨some addr, name, pid⟩ time c m =
      (m.count (some addr) fun _ => 1).map fun m => (⟨some addr, name, pid⟩, m) := by
  simp [construct, init, Option.map_eq_bind]

theorem copy_null (null : h.mutexPtr = none) :
    h.copy pid m = some (⟨none, h.shmName, pid⟩, m) := by
  rw [copy, null]
  rfl

theorem copy_some (refers : h.mutexPtr = some addr) (there : m.memory addr = some mutex) :
    h.copy pid m = some (⟨some addr, h.shmName, pid⟩,
      { m with memory := Function.update m.memory addr (some ⟨mutex.referNum + 1⟩) }) := by
  rw [copy, refers, count, there]
  rfl

theorem destruct_null (null : h.mutexPtr = none) :
    ∃ m', h.destruct pid m = some m' ∧ Forgets m m' := by
  simp only [destruct, null, count, destroy, release, Option.bind_eq_bind, Option.bind_some]
  split_ifs
  · exact ⟨_, rfl, removeFile_forgets m h.shmName⟩
  · exact ⟨_, rfl, rfl, rfl, rfl, fun _ _ => id⟩

/-- The mutex behind a handle is destroyed and its memory released. -/
structure Releases (m : SharedMutexes) (addr : Nat) (name : Bytes) (m' : SharedMutexes) : Prop where
  memory : m'.memory = Function.update m.memory addr none
  mutexes : m'.mutexes = .closed addr :: m.mutexes
  mappings : m'.mappings = .closed addr :: m.mappings
  fewer : ∀ other b, m'.names other = some b → m.names other = some b ∧ other ≠ inDirectory name

/-- The destructor of a process that may unlink the name: the last handle does. -/
theorem destruct_some (refers : h.mutexPtr = some addr) (there : m.memory addr = some mutex)
    (own : h.shmPid = pid) (entitled : h.shmName ≠ []) :
    ∃ m', h.destruct pid m = some m' ∧ Releases m addr h.shmName m' := by
  obtain ⟨m₁, counted⟩ : ∃ m₁, m₁ = { m with
    memory := Function.update m.memory addr (some ⟨mutex.referNum - 1⟩) } := ⟨_, rfl⟩
  have first : m.count h.mutexPtr (· - 1) = some m₁ := by
    rw [refers, count, there, counted]
    rfl
  obtain ⟨m₂, released⟩ : ∃ m₂, m₂ = (h.destroy m₁).release h.shmName h.mutexPtr := ⟨_, rfl⟩
  have second : m₂ = { m₁ with
      memory := Function.update m₁.memory addr none
      mutexes := .closed addr :: m₁.mutexes
      mappings := .closed addr :: m₁.mappings }.shmUnlink h.shmName := by
    rw [released, destroy, refers, release, if_neg entitled]
  obtain ⟨memory, mutexes, mappings, fewer⟩ := removeFile_forgets m₂ h.shmName
  refine ⟨m₂.removeFile h.shmName, ?_, ?_, ?_, ?_, fun other b there => ?_⟩
  · rw [destruct, first, Option.bind_eq_bind, Option.bind_some, if_pos own.symm, released]
  · rw [memory, second, counted]
    exact Function.update_idem _ _ _
  · rw [mutexes, second, counted]
    rfl
  · rw [mappings, second, counted]
    rfl
  · have kept := fewer other b there
    rw [second, shmUnlink, counted] at kept
    simp only [Function.update_apply] at kept
    split_ifs at kept with same
    exact ⟨kept, same⟩

/-- The copy that is returned destroys the mutex. -/
theorem returned_some (refers : h.mutexPtr = some addr) (there : m.memory addr = some mutex)
    (entitled : h.shmName ≠ []) :
    ∃ m', h.returned pid m = some m' ∧ m'.memory addr = none := by
  rw [returned, copy_some refers there, Option.bind_eq_bind, Option.bind_some]
  obtain ⟨m', done, released⟩ := @destruct_some ⟨some addr, h.shmName, pid⟩
    { m with memory := Function.update m.memory addr (some ⟨mutex.referNum + 1⟩) } pid addr
    ⟨mutex.referNum + 1⟩ rfl (Function.update_self ..) rfl entitled
  refine ⟨m', done, ?_⟩
  rw [released.memory, Function.update_self]

theorem returned_null (null : h.mutexPtr = none) :
    ∃ m', h.returned pid m = some m' ∧ Forgets m m' := by
  rw [returned, copy_null null, Option.bind_eq_bind, Option.bind_some]
  exact destruct_null rfl

end

end ShmMutex

/-- The memory is granted and the mutex in it initialised, or `shm_open` fails. -/
def Creation.Fine : Creation → Prop
  | .refused => True
  | .unmapped => False
  | .mapped _ initialised => initialised = true

namespace HandleProcess
open ShmMutex SharedMutexes

/-- A mutex is created and initialised, and a named handle finds `NULL` in its pointer; neither
side of an assignment has a mutex; a handle that is destroyed is the only one of its mutex. -/
def Alone (p : HandleProcess) : HandleEvent → Prop
  | .construct _ _ c => c.Fine
  | .constructNamed _ _ garbage _ c => garbage = none ∧ c.Fine
  | .copy _ _ => True
  | .assign target source => ∀ h,
    p.find target = some h ∨ p.find source = some h → h.mutexPtr = none
  | .destruct id => ∀ h addr, p.find id = some h → h.mutexPtr = some addr → p.referring addr = 1

/-- The condition on an event that can happen. -/
def Met (p : HandleProcess) (e : HandleEvent) : Prop := p.outcome e ≠ none → p.Alone e

/-- What is known besides: the names of the handles, and that nothing else is mapped. -/
structure Sound (p : HandleProcess) : Prop extends Counted p where
  own : ∀ h ∈ p.handles, h.2.shmPid = p.pid
  entitled : ∀ h ∈ p.handles, h.2.shmName ≠ []
  unreferred : ∀ addr, p.referring addr = 0 → p.shared.memory addr = none
  titled : ∀ name addr, p.shared.names name = some addr → ∀ h ∈ p.handles,
    h.2.mutexPtr = some addr → name = inDirectory h.2.shmName

section
variable {p p' : HandleProcess} {id addr : Nat} {h : ShmMutex} {m : SharedMutexes}

theorem find_mem (found : p.find id = some h) : (id, h) ∈ p.handles := by
  obtain ⟨⟨id', h'⟩, first, rfl⟩ := Option.map_eq_some_iff.mp found
  have same : id' = id := of_decide_eq_true (List.find?_some first :)
  exact same ▸ List.mem_of_find?_eq_some first

/-- One more handle of a mutex. -/
theorem referring_cons (p : HandleProcess) (m : SharedMutexes) (addr : Nat) :
    referring ⟨p.pid, (id, h) :: p.handles, m⟩ addr =
      p.referring addr + if h.mutexPtr = some addr then 1 else 0 := by
  rw [referring, List.countP_cons]
  simp only [decide_eq_true_eq]
  rfl

theorem referring_erase (there : (id, h) ∈ p.handles) (m : SharedMutexes) (addr : Nat) :
    p.referring addr = referring ⟨p.pid, p.handles.erase (id, h), m⟩ addr +
      if h.mutexPtr = some addr then 1 else 0 := by
  rw [referring, (List.perm_cons_erase there).countP_eq]
  exact referring_cons ⟨p.pid, p.handles.erase (id, h), m⟩ m addr

theorem referring_pos (there : (id, h) ∈ p.handles) (refers : h.mutexPtr = some addr) :
    p.referring addr ≠ 0 := by
  rw [referring_erase there p.shared, if_pos refers]
  exact Nat.succ_ne_zero _

/-- A handle has a mutex in the memory. -/
theorem Sound.there (sound : Sound p) (there : (id, h) ∈ p.handles)
    (refers : h.mutexPtr = some addr) :
    p.shared.memory addr = some ⟨p.referring addr⟩ :=
  sound.counted addr (referring_pos there refers)

/-- Handles without a mutex come and go. -/
theorem Sound.unchanged (sound : Sound p) (forgets : Forgets p.shared p'.shared)
    (pid : p'.pid = p.pid) (same : ∀ addr, p'.referring addr = p.referring addr)
    (handles : ∀ h ∈ p'.handles, h ∈ p.handles ∨
      h.2.mutexPtr = none ∧ h.2.shmPid = p.pid ∧ h.2.shmName ≠ []) : Sound p' where
  live addr := by
    rw [forgets.mutexes, same]
    exact sound.live addr
  mapped addr := by
    rw [forgets.mappings, same]
    exact sound.mapped addr
  counted addr := by
    rw [forgets.memory, same]
    exact sound.counted addr
  destroyed := by
    rw [forgets.mutexes]
    exact sound.destroyed
  released := by
    rw [forgets.mappings]
    exact sound.released
  named name addr there := by
    rw [same]
    exact sound.named name addr (forgets.fewer name addr there)
  own h there := by
    rw [pid]
    rcases handles h there with old | ⟨_, own, _⟩
    · exact sound.own h old
    · exact own
  entitled h there := by
    rcases handles h there with old | ⟨_, _, entitled⟩
    · exact sound.entitled h old
    · exact entitled
  unreferred addr none_ := by
    rw [forgets.memory]
    exact sound.unreferred addr (same addr ▸ none_)
  titled name addr named h there refers := by
    rcases handles h there with old | ⟨null, _⟩
    · exact sound.titled name addr (forgets.fewer name addr named) h old refers
    · rw [null] at refers
      cases refers

/-- What a step does that is about the mutex at one address only. -/
structure Elsewhere (p p' : HandleProcess) (addr : Nat) : Prop where
  referring : ∀ b, addr ≠ b → p'.referring b = p.referring b
  memory : ∀ b, addr ≠ b → p'.shared.memory b = p.shared.memory b
  mutexes : ∀ b, addr ≠ b → (Holds b p'.shared.mutexes ↔ Holds b p.shared.mutexes)
  mappings : ∀ b, addr ≠ b → (Holds b p'.shared.mappings ↔ Holds b p.shared.mappings)

/-- The mutex at one address. -/
structure CountedAt (p : HandleProcess) (addr : Nat) : Prop where
  live : Holds addr p.shared.mutexes ↔ p.referring addr ≠ 0
  mapped : Holds addr p.shared.mappings ↔ p.referring addr ≠ 0
  counted : p.referring addr ≠ 0 → p.shared.memory addr = some ⟨p.referring addr⟩
  unreferred : p.referring addr = 0 → p.shared.memory addr = none

theorem Sound.countedAt (sound : Sound p) (addr : Nat) : CountedAt p addr :=
  ⟨sound.live addr, sound.mapped addr, sound.counted addr, sound.unreferred addr⟩

theorem Elsewhere.countedAt (elsewhere : Elsewhere p p' addr) (sound : Sound p)
    (here : CountedAt p' addr) (b : Nat) : CountedAt p' b := by
  rcases eq_or_ne addr b with rfl | apart
  · exact here
  · have old := sound.countedAt b
    have same := elsewhere.referring b apart
    refine ⟨?_, ?_, ?_, ?_⟩
    · rw [same, elsewhere.mutexes b apart, old.live]
    · rw [same, elsewhere.mappings b apart, old.mapped]
    · rw [same, elsewhere.memory b apart]
      exact old.counted
    · rw [same, elsewhere.memory b apart]
      exact old.unreferred

/-- What is left to be shown of a step that is about one mutex. -/
theorem Elsewhere.sound (elsewhere : Elsewhere p p' addr) (sound : Sound p)
    (here : CountedAt p' addr) (pid : p'.pid = p.pid) (destroyed : OwnCloses p'.shared.mutexes)
    (released : OwnCloses p'.shared.mappings)
    (handles : ∀ h ∈ p'.handles, h ∈ p.handles ∨ h.2.shmPid = p.pid ∧ h.2.shmName ≠ [])
    (named : ∀ name b, p'.shared.names name = some b → p'.referring b ≠ 0)
    (titled : ∀ name b, p'.shared.names name = some b → ∀ h ∈ p'.handles,
      h.2.mutexPtr = some b → name = inDirectory h.2.shmName) : Sound p' where
  live b := (elsewhere.countedAt sound here b).live
  mapped b := (elsewhere.countedAt sound here b).mapped
  counted b := (elsewhere.countedAt sound here b).counted
  unreferred b := (elsewhere.countedAt sound here b).unreferred
  destroyed := destroyed
  released := released
  named := named
  titled := titled
  own h there := by
    rw [pid]
    rcases handles h there with old | ⟨own, _⟩
    · exact sound.own h old
    · exact own
  entitled h there := by
    rcases handles h there with old | ⟨_, entitled⟩
    · exact sound.entitled h old
    · exact entitled

/-- One more handle of the mutex at `addr`. -/
structure OneMore (p p' : HandleProcess) (addr : Nat) (h : Nat × ShmMutex) : Prop where
  pid : p'.pid = p.pid
  handles : p'.handles = h :: p.handles
  refers : h.2.mutexPtr = some addr
  own : h.2.shmPid = p.pid
  entitled : h.2.shmName ≠ []

section
variable {one : Nat × ShmMutex}

theorem OneMore.referring (more : OneMore p p' addr one) (b : Nat) :
    p'.referring b = p.referring b + if addr = b then 1 else 0 := by
  rw [HandleProcess.referring, more.handles]
  refine (referring_cons p p'.shared b).trans ?_
  rw [more.refers]
  simp only [Option.some.injEq]

theorem OneMore.here (more : OneMore p p' addr one) : p'.referring addr = p.referring addr + 1 := by
  rw [more.referring, if_pos rfl]

theorem OneMore.elsewhere (more : OneMore p p' addr one) {b : Nat} (apart : addr ≠ b) :
    p'.referring b = p.referring b := by
  rw [more.referring, if_neg apart, Nat.add_zero]

theorem OneMore.still (more : OneMore p p' addr one) {b : Nat} (referred : p.referring b ≠ 0) :
    p'.referring b ≠ 0 := by
  rw [more.referring]
  omega

theorem OneMore.known (more : OneMore p p' addr one) {h : Nat × ShmMutex} (there : h ∈ p'.handles) :
    h = one ∨ h ∈ p.handles := by
  rw [more.handles] at there
  exact List.mem_cons.mp there

theorem OneMore.owned (more : OneMore p p' addr one) {h : Nat × ShmMutex} (there : h ∈ p'.handles) :
    h ∈ p.handles ∨ h.2.shmPid = p.pid ∧ h.2.shmName ≠ [] := by
  rcases more.known there with rfl | old
  · exact Or.inr ⟨more.own, more.entitled⟩
  · exact Or.inl old

end

/-- A new mutex. -/
theorem Sound.created (sound : Sound p) (vacant : p.shared.memory addr = none) (id : Nat)
    {name : Bytes} (entitled : name ≠ []) :
    Sound { p with
      handles := (id, ⟨some addr, name, p.pid⟩) :: p.handles
      shared := ShmMutex.created p.shared name addr true } := by
  obtain ⟨p', same⟩ : ∃ p', p' = { p with
    handles := (id, ⟨some addr, name, p.pid⟩) :: p.handles
    shared := ShmMutex.created p.shared name addr true } := ⟨_, rfl⟩
  have more : OneMore p p' addr (id, ⟨some addr, name, p.pid⟩) := by
    rw [same]
    exact ⟨rfl, rfl, rfl, rfl, entitled⟩
  have fresh : p.referring addr = 0 := by
    by_contra referred
    rw [sound.counted addr referred] at vacant
    cases vacant
  have self : p'.referring addr = 1 := by rw [more.here, fresh]
  have mutexes : p'.shared.mutexes = .opened addr :: p.shared.mutexes := by rw [same]; rfl
  have mappings : p'.shared.mappings = .opened addr :: p.shared.mappings := by rw [same]; rfl
  have memory : p'.shared.memory = Function.update p.shared.memory addr (some ⟨1⟩) := by
    rw [same]
    rfl
  have names : ∀ title b, p'.shared.names title = some b →
      title = inDirectory name ∧ b = addr ∨ p.shared.names title = some b := by
    intro title b named
    rw [same] at named
    simp only [ShmMutex.created, shmUnlink, Function.update_apply] at named
    split_ifs at named with again
    · exact Or.inl ⟨again, (Option.some.inj named).symm⟩
    · exact Or.inr named
  have elsewhere : Elsewhere p p' addr := by
    refine ⟨fun b apart => more.elsewhere apart, fun b apart => ?_, fun b apart => ?_,
      fun b apart => ?_⟩
    · rw [memory, Function.update_of_ne apart.symm]
    · rw [mutexes, holds_opened, or_iff_right apart.symm]
    · rw [mappings, holds_opened, or_iff_right apart.symm]
  have here : CountedAt p' addr := by
    refine ⟨?_, ?_, fun _ => ?_, fun none_ => ?_⟩
    · rw [mutexes, self]
      exact iff_of_true (Or.inl rfl) Nat.one_ne_zero
    · rw [mappings, self]
      exact iff_of_true (Or.inl rfl) Nat.one_ne_zero
    · rw [memory, self, Function.update_self]
      rfl
    · rw [self] at none_
      cases none_
  rw [← same]
  refine elsewhere.sound sound here more.pid ?_ ?_ (fun h => more.owned) (fun title b named => ?_)
    fun title b named h there refers => ?_
  · rw [mutexes]
    exact sound.destroyed
  · rw [mappings]
    exact sound.released
  · rcases names title b named with ⟨_, rfl⟩ | old
    · rw [self]
      exact Nat.one_ne_zero
    · exact more.still (sound.named title b old)
  · rcases names title b named with ⟨rfl, rfl⟩ | old
    · rcases more.known there with rfl | before
      · rfl
      · exact absurd fresh (referring_pos before refers)
    · rcases more.known there with rfl | before
      · obtain rfl := Option.some.inj refers
        exact absurd fresh (sound.named title _ old)
      · exact sound.titled title b old h before refers

/-- One more handle of a mutex. -/
theorem Sound.copied (sound : Sound p) (there : (id, h) ∈ p.handles)
    (refers : h.mutexPtr = some addr) (new : Nat) :
    Sound { p with
      handles := (new, ⟨some addr, h.shmName, p.pid⟩) :: p.handles
      shared := { p.shared with
        memory := Function.update p.shared.memory addr (some ⟨p.referring addr + 1⟩) } } := by
  obtain ⟨p', same⟩ : ∃ p', p' = { p with
      handles := (new, ⟨some addr, h.shmName, p.pid⟩) :: p.handles
      shared := { p.shared with
        memory := Function.update p.shared.memory addr (some ⟨p.referring addr + 1⟩) } } :=
    ⟨_, rfl⟩
  have more : OneMore p p' addr (new, ⟨some addr, h.shmName, p.pid⟩) := by
    rw [same]
    exact ⟨rfl, rfl, rfl, rfl, sound.entitled (id, h) there⟩
  have referred := referring_pos there refers
  have mutexes : p'.shared.mutexes = p.shared.mutexes := by rw [same]
  have mappings : p'.shared.mappings = p.shared.mappings := by rw [same]
  have memory : p'.shared.memory =
      Function.update p.shared.memory addr (some ⟨p.referring addr + 1⟩) := by rw [same]
  have names : p'.shared.names = p.shared.names := by rw [same]
  have elsewhere : Elsewhere p p' addr := by
    refine ⟨fun b apart => more.elsewhere apart, fun b apart => ?_, fun b _ => ?_, fun b _ => ?_⟩
    · rw [memory, Function.update_of_ne apart.symm]
    · rw [mutexes]
    · rw [mappings]
  have here : CountedAt p' addr := by
    refine ⟨?_, ?_, fun _ => ?_, fun none_ => absurd none_ (more.still referred)⟩
    · rw [mutexes]
      exact iff_of_true ((sound.live addr).mpr referred) (more.still referred)
    · rw [mappings]
      exact iff_of_true ((sound.mapped addr).mpr referred) (more.still referred)
    · rw [memory, more.here, Function.update_self, Nat.cast_succ]
  rw [← same]
  refine elsewhere.sound sound here more.pid ?_ ?_ (fun h => more.owned) (fun title b named => ?_)
    fun title b named h' there' refers' => ?_
  · rw [mutexes]
    exact sound.destroyed
  · rw [mappings]
    exact sound.released
  · rw [names] at named
    exact more.still (sound.named title b named)
  · rw [names] at named
    rcases more.known there' with rfl | old
    · obtain rfl := Option.some.inj refers'
      exact sound.titled title _ named (id, h) there refers
    · exact sound.titled title b named h' old refers'

/-- The only handle of a mutex goes, and the mutex with it. -/
theorem Sound.destroyed_last (sound : Sound p) (there : (id, h) ∈ p.handles)
    (refers : h.mutexPtr = some addr) (last : p.referring addr = 1)
    (releases : Releases p.shared addr h.shmName m) :
    Sound { p with handles := p.handles.erase (id, h), shared := m } := by
  obtain ⟨p', same⟩ : ∃ p', p' = { p with handles := p.handles.erase (id, h), shared := m } :=
    ⟨_, rfl⟩
  have less : ∀ b, p.referring b = p'.referring b + if addr = b then 1 else 0 := by
    intro b
    rw [referring_erase there m, same, refers]
    simp only [Option.some.injEq]
  have self : p'.referring addr = 0 := by
    have one := less addr
    rw [if_pos rfl, last] at one
    omega
  have shared : p'.shared = m := by rw [same]
  have pid : p'.pid = p.pid := by rw [same]
  have old : ∀ h' ∈ p'.handles, h' ∈ p.handles := by
    rw [same]
    exact fun h' there' => List.mem_of_mem_erase there'
  have elsewhere : Elsewhere p p' addr := by
    refine ⟨fun b apart => ?_, fun b apart => ?_, fun b apart => ?_, fun b apart => ?_⟩
    · rw [less, if_neg apart, Nat.add_zero]
    · rw [shared, releases.memory, Function.update_of_ne apart.symm]
    · rw [shared, releases.mutexes, holds_closed, and_iff_right apart.symm]
    · rw [shared, releases.mappings, holds_closed, and_iff_right apart.symm]
  have here : CountedAt p' addr := by
    refine ⟨?_, ?_, fun some_ => absurd self some_, fun _ => ?_⟩
    · rw [shared, releases.mutexes, holds_closed, self]
      exact iff_of_false (fun held => held.1 rfl) (fun some_ => some_ rfl)
    · rw [shared, releases.mappings, holds_closed, self]
      exact iff_of_false (fun held => held.1 rfl) (fun some_ => some_ rfl)
    · rw [shared, releases.memory, Function.update_self]
  have referred : p.referring addr ≠ 0 := referring_pos there refers
  rw [← same]
  refine elsewhere.sound sound here pid ?_ ?_ (fun h' there' => Or.inl (old h' there'))
    (fun title b named => ?_) fun title b named h' there' refers' => ?_
  · rw [shared, releases.mutexes, ownCloses_closed]
    exact ⟨(sound.live addr).mpr referred, sound.destroyed⟩
  · rw [shared, releases.mappings, ownCloses_closed]
    exact ⟨(sound.mapped addr).mpr referred, sound.released⟩
  · rw [shared] at named
    obtain ⟨before, other⟩ := releases.fewer title b named
    have apart : addr ≠ b := by
      rintro rfl
      exact other (sound.titled title _ before _ there refers)
    rw [elsewhere.referring b apart]
    exact sound.named title b before
  · rw [shared] at named
    exact sound.titled title b (releases.fewer title b named).1 h' (old h' there') refers'

/-- A handle without a mutex. -/
theorem referring_null (p : HandleProcess) (null : h.mutexPtr = none) (m : SharedMutexes)
    (addr : Nat) : referring ⟨p.pid, (id, h) :: p.handles, m⟩ addr = p.referring addr := by
  rw [referring_cons, null, if_neg nofun, Nat.add_zero]

theorem Sound.built_refused (sound : Sound p) (id : Nat) (name time : Bytes) :
    ∃ p', p.built id (construct ⟨none, name, p.pid⟩ time .refused p.shared) = some p' ∧
      Sound p' := by
  rw [construct_refused]
  refine ⟨_, rfl, sound.unchanged (shmUnlink_forgets _ _) rfl
    (fun addr => referring_null p rfl _ addr) fun h there => ?_⟩
  rcases List.mem_cons.mp there with rfl | old
  · exact Or.inr ⟨rfl, rfl, title_ne_nil name time⟩
  · exact Or.inl old

/-- A constructor leaves the count right exactly when the mutex was granted and initialised, or
refused. -/
theorem Sound.built_iff (sound : Sound p) (id : Nat) (name time : Bytes) {c : Creation}
    (vacant : p.Vacant c) :
    (∃ p', p.built id (construct ⟨none, name, p.pid⟩ time c p.shared) = some p' ∧ Counted p') ↔
      c.Fine := by
  cases c with
  | refused =>
    obtain ⟨p', built, sound'⟩ := sound.built_refused id name time
    exact iff_of_true ⟨p', built, sound'.toCounted⟩ trivial
  | unmapped =>
    rw [construct_unmapped]
    exact iff_of_false (fun ⟨_, built, _⟩ => nomatch built) not_false
  | mapped addr initialised =>
    have free : p.shared.memory addr = none := Option.isNone_iff_eq_none.mp vacant
    rw [construct_mapped]
    cases initialised with
    | true =>
      exact iff_of_true ⟨_, rfl, (sound.created free id (title_ne_nil name time)).toCounted⟩ rfl
    | false =>
      refine iff_of_false ?_ nofun
      rintro ⟨p', built, counted⟩
      obtain rfl := Option.some.inj built
      have held := (counted.live addr).mpr (referring_pos (List.mem_cons_self ..) rfl)
      have referred := (sound.live addr).mp held
      rw [sound.counted addr referred] at free
      cases free

theorem Sound.built (sound : Sound p) (id : Nat) (name time : Bytes) {c : Creation}
    (vacant : p.Vacant c) (fine : c.Fine)
    (built : p.built id (construct ⟨none, name, p.pid⟩ time c p.shared) = some p') : Sound p' := by
  cases c with
  | refused =>
    obtain ⟨p'', built', sound'⟩ := sound.built_refused id name time
    rw [built] at built'
    exact Option.some.inj built' ▸ sound'
  | unmapped => cases fine
  | mapped addr initialised =>
    obtain rfl : initialised = true := fine
    rw [construct_mapped] at built
    obtain rfl := Option.some.inj built
    exact sound.created (Option.isNone_iff_eq_none.mp vacant) id (title_ne_nil name time)

/-- A constructor that finds another pointer than `NULL` makes a count wrong, or has no result. -/
theorem Sound.built_garbage (sound : Sound p) (id addr : Nat) (name time : Bytes) (c : Creation)
    (built : p.built id (construct ⟨some addr, name, p.pid⟩ time c p.shared) = some p') :
    ¬ Counted p' := by
  intro counted
  rw [construct_garbage, count] at built
  by_cases referred : p.referring addr = 0
  · rw [sound.unreferred addr referred] at built
    cases built
  · rw [sound.counted addr referred] at built
    obtain rfl := Option.some.inj built
    have right := counted.counted addr (referring_pos (List.mem_cons_self ..) rfl)
    rw [referring_cons, if_pos rfl] at right
    simp only [Function.update_self, Option.some.injEq, ShmMutexT.mk.injEq] at right
    omega

theorem Sound.copy_sound (sound : Sound p) {source : Nat} (found : p.find source = some h)
    (new : Nat) : ∃ p', p.built new (h.copy p.pid p.shared) = some p' ∧ Sound p' := by
  have there := find_mem found
  cases refers : h.mutexPtr with
  | none =>
    rw [copy_null refers]
    refine ⟨_, rfl, sound.unchanged ⟨rfl, rfl, rfl, fun _ _ => id⟩ rfl
      (fun addr => referring_null p rfl _ addr) fun h' there' => ?_⟩
    rcases List.mem_cons.mp there' with rfl | old
    · exact Or.inr ⟨rfl, rfl, sound.entitled (source, h) there⟩
    · exact Or.inl old
  | some addr =>
    rw [copy_some refers (sound.there there refers)]
    exact ⟨_, rfl, sound.copied there refers new⟩

theorem Sound.destruct_sound (sound : Sound p) (found : p.find id = some h)
    (last : ∀ addr, h.mutexPtr = some addr → p.referring addr = 1) :
    ∃ m, h.destruct p.pid p.shared = some m ∧ Sound (p.dropped id h m) := by
  have there := find_mem found
  cases refers : h.mutexPtr with
  | none =>
    obtain ⟨m, destructed, forgets⟩ := destruct_null refers
    refine ⟨m, destructed, sound.unchanged forgets rfl (fun addr => ?_)
      fun h' there' => Or.inl (List.mem_of_mem_erase there')⟩
    rw [referring_erase there m, refers, if_neg nofun]
    rfl
  | some addr =>
    obtain ⟨m, destructed, releases⟩ := destruct_some refers (sound.there there refers)
      (sound.own _ there) (sound.entitled _ there)
    exact ⟨m, destructed, sound.destroyed_last there refers (last addr refers) releases⟩

/-- Where another handle is left its mutex is not there any more. -/
theorem Sound.destruct_last (sound : Sound p) (found : p.find id = some h)
    (destructed : h.destruct p.pid p.shared = some m) (counted : Counted (p.dropped id h m)) :
    ∀ addr, h.mutexPtr = some addr → p.referring addr = 1 := by
  intro addr refers
  have there := find_mem found
  obtain ⟨m', destructed', releases⟩ := destruct_some refers (sound.there there refers)
    (sound.own _ there) (sound.entitled _ there)
  rw [destructed] at destructed'
  obtain rfl := Option.some.inj destructed'
  have less := referring_erase there m addr
  rw [if_pos refers] at less
  have none_ : referring (p.dropped id h m) addr = 0 := by
    by_contra left
    have held := (counted.live addr).mpr left
    rw [dropped, releases.mutexes, holds_closed] at held
    exact held.1 rfl
  rw [dropped] at none_
  omega

theorem Sound.assign_sound (sound : Sound p) {target source : Nat} {other : ShmMutex}
    (found : p.find target = some h) (found' : p.find source = some other)
    (null : h.mutexPtr = none) (null' : other.mutexPtr = none) :
    ∃ p', p.assigning target source h other = some p' ∧ Sound p' := by
  have there := find_mem found
  rw [assigning, assigned]
  split_ifs with same
  · obtain ⟨m, returned, forgets⟩ := @returned_null h p.shared p.pid null
    rw [returned]
    exact ⟨_, rfl, sound.unchanged forgets rfl (fun _ => rfl) fun h' there' => Or.inl there'⟩
  · rw [copy_null null']
    obtain ⟨m, returned, forgets⟩ := @returned_null ⟨none, other.shmName, p.pid⟩ p.shared p.pid rfl
    simp only [Option.bind_eq_bind, Option.bind_some, returned]
    refine ⟨_, rfl, sound.unchanged forgets rfl (fun addr => ?_) fun h' there' => ?_⟩
    · rw [referring_erase there m, null, if_neg nofun]
      exact referring_null ⟨p.pid, p.handles.erase (target, h), m⟩ rfl m addr
    · rcases List.mem_cons.mp there' with rfl | old
      · exact Or.inr ⟨rfl, rfl, sound.entitled (source, other) (find_mem found')⟩
      · exact Or.inl (List.mem_of_mem_erase old)

/-- An assignment forgets the mutex of the target, and destroys the one of the source. -/
theorem Sound.assign_null (sound : Sound p) {target source : Nat} {other : ShmMutex}
    (found : p.find target = some h) (found' : p.find source = some other)
    (assigned : p.assigning target source h other = some p') (counted : Counted p') :
    h.mutexPtr = none ∧ other.mutexPtr = none := by
  have there := find_mem found
  have there' := find_mem found'
  have gone : ∀ {id addr h}, (id, h) ∈ p'.handles → h.mutexPtr = some addr →
      p'.shared.memory addr ≠ none := by
    intro id addr h there refers none_
    rw [counted.counted addr (referring_pos there refers)] at none_
    cases none_
  rw [assigning, ShmMutex.assigned] at assigned
  split_ifs at assigned with same
  · obtain rfl : h = other := Option.some.inj (found.symm.trans (same ▸ found'))
    suffices null : h.mutexPtr = none from ⟨null, null⟩
    cases refers : h.mutexPtr with
    | none => rfl
    | some addr =>
      obtain ⟨m, returned, none_⟩ := @returned_some h p.shared p.pid addr _ refers
        (sound.there there refers) (sound.entitled _ there)
      rw [returned] at assigned
      obtain rfl := Option.some.inj assigned
      exact absurd none_ (gone there refers)
  · have null' : other.mutexPtr = none := by
      cases refers : other.mutexPtr with
      | none => rfl
      | some addr =>
        rw [copy_some refers (sound.there there' refers)] at assigned
        obtain ⟨m, returned, none_⟩ := @returned_some ⟨some addr, other.shmName, p.pid⟩
          { p.shared with
            memory := Function.update p.shared.memory addr (some ⟨p.referring addr + 1⟩) }
          p.pid addr ⟨p.referring addr + 1⟩ rfl (Function.update_self ..)
          (sound.entitled (source, other) there')
        simp only [Option.bind_eq_bind, Option.bind_some, returned] at assigned
        obtain rfl := Option.some.inj assigned
        exact absurd none_ (gone (List.mem_cons_self ..) rfl)
    refine ⟨?_, null'⟩
    cases refers : h.mutexPtr with
    | none => rfl
    | some addr =>
      rw [copy_null null'] at assigned
      obtain ⟨m, returned, forgets⟩ :=
        @returned_null ⟨none, other.shmName, p.pid⟩ p.shared p.pid rfl
      simp only [Option.bind_eq_bind, Option.bind_some, returned] at assigned
      obtain rfl := Option.some.inj assigned
      have less := referring_erase there m addr
      rw [if_pos refers] at less
      have rest : referring ⟨p.pid, (target, ⟨none, other.shmName, p.pid⟩) ::
          p.handles.erase (target, h), m⟩ addr =
          referring ⟨p.pid, p.handles.erase (target, h), m⟩ addr :=
        referring_null ⟨p.pid, p.handles.erase (target, h), m⟩ rfl m addr
      have held := (sound.live addr).mpr (referring_pos there refers)
      rw [← forgets.mutexes] at held
      have right := counted.counted addr ((counted.live addr).mp held)
      have before := sound.there there refers
      rw [← forgets.memory] at before
      have kept := before.symm.trans right
      simp only [Option.some.injEq, ShmMutexT.mk.injEq, Nat.cast_inj] at kept
      omega

theorem alone_assign {target source : Nat} {other : ShmMutex} (found : p.find target = some h)
    (found' : p.find source = some other) :
    p.Alone (.assign target source) ↔ h.mutexPtr = none ∧ other.mutexPtr = none := by
  rw [Alone, found, found']
  constructor
  · intro alone
    exact ⟨alone h (Or.inl rfl), alone other (Or.inr rfl)⟩
  · rintro ⟨null, null'⟩ h' (same | same)
    · exact Option.some.inj same ▸ null
    · exact Option.some.inj same ▸ null'

theorem alone_destruct (found : p.find id = some h) :
    p.Alone (.destruct id) ↔ ∀ addr, h.mutexPtr = some addr → p.referring addr = 1 := by
  rw [Alone, found]
  constructor
  · intro alone addr
    exact alone h addr rfl
  · intro last h' addr same
    exact Option.some.inj same ▸ last addr

/-- A result in which the count is right; undefined behaviour is none. -/
def Right (result : Option HandleProcess) : Prop := ∃ p, result = some p ∧ Counted p

/-- An event leaves the count right exactly when it meets the condition, and then all the rest is
kept as well. -/
theorem Sound.outcome (sound : Sound p) (e : HandleEvent) {result : Option HandleProcess}
    (happens : p.outcome e = some result) :
    (Right result ↔ p.Alone e) ∧ ∀ p', p.Alone e → result = some p' → Sound p' := by
  cases e with
  | construct id time c =>
    rw [HandleProcess.outcome] at happens
    split_ifs at happens with possible
    cases happens
    exact ⟨sound.built_iff id [] time possible.2,
      fun p' fine built => sound.built id [] time possible.2 fine built⟩
  | constructNamed id shmName garbage time c =>
    rw [HandleProcess.outcome] at happens
    split_ifs at happens with possible
    cases happens
    cases garbage with
    | none =>
      rw [Right, sound.built_iff id shmName time possible.2]
      exact ⟨⟨fun fine => ⟨rfl, fine⟩, And.right⟩,
        fun p' fine built => sound.built id shmName time possible.2 fine.2 built⟩
    | some addr =>
      refine ⟨iff_of_false ?_ (fun fine => nomatch fine.1), fun _ fine => nomatch fine.1⟩
      rintro ⟨p', built, counted⟩
      exact sound.built_garbage id addr shmName time c built counted
  | copy id source =>
    rw [HandleProcess.outcome] at happens
    split_ifs at happens
    obtain ⟨h, found, rfl⟩ := Option.map_eq_some_iff.mp happens
    obtain ⟨p', copied, sound'⟩ := sound.copy_sound found id
    rw [copied]
    exact ⟨iff_of_true ⟨p', rfl, sound'.toCounted⟩ trivial,
      fun p'' _ same => Option.some.inj same ▸ sound'⟩
  | assign target source =>
    obtain ⟨h, found, happens⟩ := Option.bind_eq_some_iff.mp happens
    obtain ⟨other, found', rfl⟩ := Option.map_eq_some_iff.mp happens
    rw [alone_assign found found']
    refine ⟨⟨?_, ?_⟩, ?_⟩
    · rintro ⟨p', assigned, counted⟩
      exact sound.assign_null found found' assigned counted
    · rintro ⟨null, null'⟩
      obtain ⟨p', assigned, sound'⟩ := sound.assign_sound found found' null null'
      exact ⟨p', assigned, sound'.toCounted⟩
    · rintro p' ⟨null, null'⟩ assigned
      obtain ⟨p'', assigned', sound'⟩ := sound.assign_sound found found' null null'
      rw [assigned] at assigned'
      exact Option.some.inj assigned' ▸ sound'
  | destruct id =>
    obtain ⟨h, found, rfl⟩ := Option.map_eq_some_iff.mp happens
    rw [alone_destruct found]
    refine ⟨⟨?_, ?_⟩, ?_⟩
    · rintro ⟨p', dropped, counted⟩
      obtain ⟨m, destructed, rfl⟩ := Option.map_eq_some_iff.mp dropped
      exact sound.destruct_last found destructed counted
    · intro last
      obtain ⟨m, destructed, sound'⟩ := sound.destruct_sound found last
      exact ⟨_, by rw [destructed]; rfl, sound'.toCounted⟩
    · rintro p' last dropped
      obtain ⟨m, destructed, sound'⟩ := sound.destruct_sound found last
      rw [destructed] at dropped
      exact Option.some.inj dropped ▸ sound'

def results (p : HandleProcess) (e : HandleEvent) : List (Option HandleProcess) :=
  (p.outcome e).toList

theorem start_sound (pid : Nat) : Sound (start pid) where
  live _ := iff_of_false id fun some_ => some_ rfl
  mapped _ := iff_of_false id fun some_ => some_ rfl
  counted _ some_ := absurd rfl some_
  destroyed := trivial
  released := trivial
  named := nofun
  own := nofun
  entitled := nofun
  unreferred _ _ := rfl
  titled := nofun

theorem Sound.results_iff (sound : Sound p) (e : HandleEvent) :
    (∀ result ∈ p.results e, Right result) ↔ p.Met e := by
  rw [results, Met]
  cases happens : p.outcome e with
  | none => exact ⟨fun _ none_ => absurd rfl none_, fun _ => nofun⟩
  | some result =>
    rw [Option.toList_some, List.forall_mem_singleton, (sound.outcome e happens).1]
    exact ⟨fun alone _ => alone, fun alone => alone nofun⟩

theorem Sound.step (sound : Sound p) (e : HandleEvent) (met : p.Met e)
    (steps : p.step e = some p') : Sound p' := by
  rw [HandleProcess.step] at steps
  have happens := Option.join_eq_some_iff.mp steps
  exact (sound.outcome e happens).2 p' (met (by rw [happens]; exact nofun)) rfl

/-- In a run of a process each event leaves every count right exactly when all of them meet the
condition. -/
theorem results_right_iff (pid : Nat) (events : List HandleEvent) :
    (∀ result ∈ trace step results (start pid) events, Right result) ↔
      Throughout step Met (start pid) events :=
  forall_trace_iff Sound (fun _ e sound => sound.results_iff e) (fun _ e _ sound => sound.step e)
    (start_sound pid) events

end

def copiedOnce : List HandleEvent :=
  [.construct 0 [] (.mapped 4096 true), .copy 1 0, .destruct 1]

/-- The first handle is left without its mutex. -/
theorem not_results_right : ¬ ∀ pid events,
    ∀ result ∈ trace step results (start pid) events, Right result := by
  intro right
  have throughout := (forall_trace_iff Sound (fun _ e sound => sound.results_iff e)
    (fun _ e _ sound => sound.step e) (start_sound 1) copiedOnce).mp (right 1 copiedOnce)
  have last := ((throughout.2 _ rfl).2 _ rfl).1 nofun _ 4096 rfl rfl
  exact absurd last (by decide)

end HandleProcess
