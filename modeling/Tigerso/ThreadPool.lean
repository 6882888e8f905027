import Mathlib.Data.List.Perm.Basic
import Mathlib.Data.List.Range
import Mathlib.Tactic.SplitIfs
import Tigerso.GuardedRuns

/-!
# thread/ThreadPool: tasks, workers and `stop`

What is done under the mutex is one step. A wait can end at any time, as one on a condition may,
so that `notify` needs no step of its own. Tasks are known by the order in which their calls of
`run` returned.
-/

open GuardedRuns

inductive Worker where
  /-- In front of `while(running_)`. -/
  | loop
  /-- In `take`, in front of its test. -/
  | taking
  /-- `notEmpty_.wait()`. -/
  | waiting
  | holding (task : Nat)
  | left
  deriving DecidableEq, Repr

/-- Where the call of `stop` is. -/
inductive Stopping where
  | none
  | called
  /-- Behind the block that holds the mutex. -/
  | joining
  | returned
  deriving DecidableEq, Repr

namespace Worker

def task : Worker → Option Nat
  | .holding task => some task
  | _ => none

/-- The worker gets a task if there is one, whatever `running_` is. -/
def takes : Worker → Bool
  | .taking | .waiting => true
  | _ => false

end Worker

structure ThreadPool where
  threadNum : Nat
  tasks : List Nat
  running : Bool
  workers : List Worker
  stopping : Stopping
  /-- How many tasks were taken out of the queue. -/
  taken : Nat
  /-- How many calls of `run` had returned when `stop` was called. -/
  accepted : Nat
  executed : List Nat

namespace ThreadPool

inductive Event where
  | run
  /-- A worker looks at `running_`. -/
  | look (i : Nat)
  | take (i : Nat)
  | wake (i : Nat)
  | execute (i : Nat)
  | stop
  /-- `stop` has the mutex. -/
  | lock
  | join

/-- Behind `start(threadNum)`. -/
def start (threadNum : Nat) : ThreadPool :=
  ⟨threadNum, [], true, List.replicate threadNum .loop, .none, 0, 0, []⟩

def isFull (s : ThreadPool) : Bool := decide (s.threadNum ≤ s.tasks.length)

def setWorker (s : ThreadPool) (i : Nat) (worker : Worker) : ThreadPool :=
  { s with workers := s.workers.set i worker }

def take (s : ThreadPool) (i : Nat) : ThreadPool :=
  match s.tasks with
  | [] => s.setWorker i (if s.running then .waiting else .loop)
  | task :: rest => { s with tasks := rest, taken := s.taken + 1 }.setWorker i (.holding task)

def step (s : ThreadPool) : Event → Option ThreadPool
  | .run =>
    if s.isFull then none
    else some { s with tasks := s.tasks ++ [s.taken + s.tasks.length] }
  | .look i =>
    if s.workers[i]? = some .loop then
      some (s.setWorker i (if s.running then .taking else .left))
    else none
  | .take i => if s.workers[i]? = some .taking then some (s.take i) else none
  | .wake i => if s.workers[i]? = some .waiting then some (s.setWorker i .taking) else none
  | .execute i =>
    match s.workers[i]? with
    | some (.holding task) => some { s.setWorker i .loop with executed := s.executed ++ [task] }
    | _ => none
  | .stop =>
    if s.stopping = .none then
      some { s with stopping := .called, accepted := s.taken + s.tasks.length }
    else none
  | .lock =>
    if s.stopping = .called then some { s with stopping := .joining, running := false } else none
  | .join =>
    if s.stopping = .joining ∧ ∀ worker ∈ s.workers, worker = .left then
      some { s with stopping := .returned }
    else none

def takers (s : ThreadPool) : Nat := s.workers.countP Worker.takes

def held (s : ThreadPool) : List Nat := s.workers.filterMap Worker.task

/-- When `stop` has returned, each task that was accepted before was executed once; and the
queue is never longer than `threadNum_`. -/
def Once (s : ThreadPool) : Prop :=
  (s.stopping = .returned → ∀ task < s.accepted, s.executed.count task = 1) ∧
    s.tasks.length ≤ s.threadNum

/-- When `stop` has the mutex, no more accepted tasks are in the queue than workers will take
one. -/
def Met (s : ThreadPool) : Event → Prop
  | .lock => s.accepted ≤ s.taken + s.takers
  | _ => True

instance (s : ThreadPool) : ∀ e, Decidable (s.Met e)
  | .lock => inferInstanceAs (Decidable (s.accepted ≤ s.taken + s.takers))
  | .run | .look _ | .take _ | .wake _ | .execute _ | .stop | .join =>
    inferInstanceAs (Decidable True)

/-- `stop` has told the workers. -/
def Told (s : ThreadPool) : Prop := s.stopping = .joining ∨ s.stopping = .returned

/-- Every accepted task that is in the queue will be taken. -/
def Enough (s : ThreadPool) : Prop := s.accepted ≤ s.taken + s.takers

/-- The queue has the tasks that were not taken, in order, and the others are executed or held. -/
structure Accounted (s : ThreadPool) : Prop where
  queue : s.tasks = List.range' s.taken s.tasks.length
  others : (s.executed ++ s.held).Perm (List.range s.taken)
  bounded : s.tasks.length ≤ s.threadNum
  known : s.accepted ≤ s.taken + s.tasks.length
  halted : s.Told → s.running = false
  gone : s.stopping = .returned → ∀ worker ∈ s.workers, worker = .left

/-- What an event does, with what was tested for it. -/
inductive Does (s : ThreadPool) : Event → ThreadPool → Prop
  | run (room : s.isFull = false) :
    Does s .run { s with tasks := s.tasks ++ [s.taken + s.tasks.length] }
  | look {i : Nat} (there : s.workers[i]? = some .loop) :
    Does s (.look i) (s.setWorker i (if s.running then .taking else .left))
  | idle {i : Nat} (there : s.workers[i]? = some .taking) (queue : s.tasks = []) :
    Does s (.take i) (s.setWorker i (if s.running then .waiting else .loop))
  | take {i task : Nat} {rest : List Nat} (there : s.workers[i]? = some .taking)
      (queue : s.tasks = task :: rest) :
    Does s (.take i)
      ({ s with tasks := rest, taken := s.taken + 1 }.setWorker i (.holding task))
  | wake {i : Nat} (there : s.workers[i]? = some .waiting) :
    Does s (.wake i) (s.setWorker i .taking)
  | execute {i task : Nat} (there : s.workers[i]? = some (.holding task)) :
    Does s (.execute i) { s.setWorker i .loop with executed := s.executed ++ [task] }
  | stop (quiet : s.stopping = .none) :
    Does s .stop { s with stopping := .called, accepted := s.taken + s.tasks.length }
  | lock (called : s.stopping = .called) :
    Does s .lock { s with stopping := .joining, running := false }
  | join (joining : s.stopping = .joining) (gone : ∀ worker ∈ s.workers, worker = .left) :
    Does s .join { s with stopping := .returned }

section
variable {s s' : ThreadPool} {i : Nat} {old new : Worker}

theorem take_does (there : s.workers[i]? = some .taking) : Does s (.take i) (s.take i) := by
  rw [take]
  cases queue : s.tasks with
  | nil => exact .idle there queue
  | cons task rest => exact .take there queue

/-- What a step does, event by event. -/
theorem step_does {e : Event} (steps : s.step e = some s') : Does s e s' := by
  cases e with
  | run =>
    rw [step] at steps
    split_ifs at steps with full
    cases steps
    exact .run (Bool.eq_false_iff.mpr full)
  | look i =>
    obtain ⟨there, same⟩ := Option.ite_none_right_eq_some.mp steps
    cases same
    exact .look there
  | take i =>
    obtain ⟨there, same⟩ := Option.ite_none_right_eq_some.mp steps
    cases same
    exact take_does there
  | wake i =>
    obtain ⟨there, same⟩ := Option.ite_none_right_eq_some.mp steps
    cases same
    exact .wake there
  | execute i =>
    rw [step] at steps
    split at steps
    · cases steps
      exact .execute ‹_›
    · cases steps
  | stop =>
    obtain ⟨quiet, same⟩ := Option.ite_none_right_eq_some.mp steps
    cases same
    exact .stop quiet
  | lock =>
    obtain ⟨called, same⟩ := Option.ite_none_right_eq_some.mp steps
    cases same
    exact .lock called
  | join =>
    obtain ⟨⟨joining, gone⟩, same⟩ := Option.ite_none_right_eq_some.mp steps
    cases same
    exact .join joining gone

/-- One worker changes. -/
theorem set_perm {workers : List Worker} (there : workers[i]? = some old) (new : Worker) :
    ∃ rest, workers.Perm (old :: rest) ∧ (workers.set i new).Perm (new :: rest) := by
  obtain ⟨bound, rfl⟩ := List.getElem?_eq_some_iff.mp there
  exact ⟨workers.eraseIdx i, (List.getElem_cons_eraseIdx_perm bound).symm,
    List.set_perm_cons_eraseIdx bound new⟩

theorem setWorker_takers (there : s.workers[i]? = some old) (new : Worker) :
    (s.setWorker i new).takers + (if old.takes then 1 else 0) =
      s.takers + (if new.takes then 1 else 0) := by
  obtain ⟨rest, before, after⟩ := set_perm there new
  rw [takers, takers, setWorker, before.countP_eq, after.countP_eq, List.countP_cons,
    List.countP_cons]
  omega

theorem setWorker_held (there : s.workers[i]? = some old) (new : Worker) :
    ∃ rest, s.held.Perm (old.task.toList ++ rest) ∧
      (s.setWorker i new).held.Perm (new.task.toList ++ rest) := by
  obtain ⟨rest, before, after⟩ := set_perm there new
  refine ⟨rest.filterMap Worker.task, ?_, ?_⟩
  · refine (before.filterMap Worker.task).trans ?_
    cases old <;> exact .refl _
  · refine (after.filterMap Worker.task).trans ?_
    cases new <;> exact .refl _

theorem start_accounted (threadNum : Nat) : Accounted (start threadNum) where
  queue := rfl
  others := by
    have none : (start threadNum).held = [] := by
      rw [held, start, List.filterMap_replicate_of_none rfl]
    rw [none]
    exact .refl _
  bounded := Nat.zero_le _
  known := Nat.le_refl _
  halted := by rintro ⟨⟩ <;> contradiction
  gone := nofun

/-- A worker that is not gone goes on without a task. -/
theorem Accounted.move (accounted : Accounted s) (there : s.workers[i]? = some old)
    (stays : old ≠ .left) (same : old.task = new.task) : Accounted (s.setWorker i new) where
  queue := accounted.queue
  others := by
    obtain ⟨rest, before, after⟩ := setWorker_held there new
    rw [same] at before
    exact ((after.trans before.symm).append_left _).trans accounted.others
  bounded := accounted.bounded
  known := accounted.known
  halted := accounted.halted
  gone := by
    intro returned
    exact absurd (accounted.gone returned old (List.mem_of_getElem? there)) stays

theorem Accounted.run (accounted : Accounted s) (room : s.isFull = false) :
    Accounted { s with tasks := s.tasks ++ [s.taken + s.tasks.length] } where
  queue := by
    rw [List.length_append, List.length_singleton, List.range'_1_concat, ← accounted.queue]
  others := accounted.others
  bounded := by
    rw [List.length_append, List.length_singleton]
    exact Nat.not_le.mp (of_decide_eq_false room)
  known := by
    have known := accounted.known
    rw [List.length_append]
    exact Nat.le_trans known (Nat.add_le_add_left (Nat.le_add_right _ _) _)
  halted := accounted.halted
  gone := accounted.gone

/-- The task at the front is the first that was not taken. -/
theorem Accounted.front (accounted : Accounted s) {task : Nat} {rest : List Nat}
    (queue : s.tasks = task :: rest) :
    task = s.taken ∧ rest = List.range' (s.taken + 1) rest.length := by
  have all := accounted.queue
  rw [queue, List.length_cons, List.range'_succ] at all
  exact List.cons.inj all

/-- The front of the queue is what was taken least recently. -/
theorem Accounted.pop (accounted : Accounted s) (there : s.workers[i]? = some .taking)
    {rest : List Nat} (queue : s.tasks = s.taken :: rest) :
    Accounted ({ s with tasks := rest, taken := s.taken + 1 }.setWorker i (.holding s.taken)) where
  queue := (accounted.front queue).2
  others := by
    obtain ⟨others, before, after⟩ := setWorker_held there (.holding s.taken)
    have held : (s.setWorker i (.holding s.taken)).held.Perm (s.held ++ [s.taken]) :=
      (after.trans (List.perm_append_singleton s.taken others).symm).trans
        (before.symm.append_right _)
    have all : (s.executed ++ (s.setWorker i (.holding s.taken)).held).Perm
        (List.range s.taken ++ [s.taken]) := by
      refine (held.append_left s.executed).trans ?_
      rw [← List.append_assoc]
      exact accounted.others.append_right _
    rw [← List.range_succ] at all
    exact all
  bounded := by
    have bounded := accounted.bounded
    rw [queue] at bounded
    exact Nat.le_of_succ_le bounded
  known := by
    have known := accounted.known
    rw [queue, List.length_cons, Nat.add_comm rest.length, ← Nat.add_assoc] at known
    exact known
  halted := accounted.halted
  gone := by
    intro returned
    exact absurd (accounted.gone returned _ (List.mem_of_getElem? there)) nofun

theorem Accounted.execute (accounted : Accounted s) {task : Nat}
    (there : s.workers[i]? = some (.holding task)) :
    Accounted { s.setWorker i .loop with executed := s.executed ++ [task] } where
  queue := accounted.queue
  others := by
    obtain ⟨others, before, after⟩ := setWorker_held there .loop
    have same : ((s.executed ++ [task]) ++ (s.setWorker i .loop).held).Perm
        (s.executed ++ s.held) := by
      rw [List.append_assoc]
      exact (((after.append_left [task]).trans before.symm).append_left _)
    exact same.trans accounted.others
  bounded := accounted.bounded
  known := accounted.known
  halted := accounted.halted
  gone := by
    intro returned
    exact absurd (accounted.gone returned _ (List.mem_of_getElem? there)) nofun

/-- Every step keeps the account of the tasks. -/
theorem Accounted.step {e : Event} (accounted : Accounted s) (steps : s.step e = some s') :
    Accounted s' := by
  cases step_does steps with
  | run room => exact accounted.run room
  | look there =>
    refine accounted.move there nofun ?_
    split_ifs <;> rfl
  | idle there queue =>
    refine accounted.move there nofun ?_
    split_ifs <;> rfl
  | take there queue =>
    obtain ⟨rfl, _⟩ := accounted.front queue
    exact accounted.pop there queue
  | wake there => exact accounted.move there nofun rfl
  | execute there => exact accounted.execute there
  | stop quiet =>
    exact ⟨accounted.queue, accounted.others, accounted.bounded, Nat.le_refl _,
      fun either => either.elim nofun nofun, nofun⟩
  | lock called =>
    exact ⟨accounted.queue, accounted.others, accounted.bounded, accounted.known, fun _ => rfl,
      nofun⟩
  | join joining gone =>
    exact ⟨accounted.queue, accounted.others, accounted.bounded, accounted.known,
      fun _ => accounted.halted (Or.inl joining), fun _ => gone⟩

/-- A worker that takes a task now takes one later, or neither. -/
theorem setWorker_enough (there : s.workers[i]? = some old) (same : old.takes = new.takes) :
    (s.setWorker i new).Enough ↔ s.Enough := by
  have takers := setWorker_takers there new
  rw [same] at takers
  rw [Enough, Enough, ← Nat.add_right_cancel takers]
  exact Iff.rfl

/-- Once the workers are told, a step changes neither that nor whether every accepted task will be
taken. -/
theorem told_step {e : Event} (accounted : Accounted s) (told : s.Told)
    (steps : s.step e = some s') : s'.Told ∧ (s'.Enough ↔ s.Enough) := by
  have halted := accounted.halted told
  cases step_does steps with
  | run room => exact ⟨told, Iff.rfl⟩
  | look there =>
    rw [halted, if_neg Bool.false_ne_true]
    exact ⟨told, setWorker_enough there rfl⟩
  | idle there queue =>
    have known := accounted.known
    rw [queue] at known
    refine ⟨told, iff_of_true ?_ ?_⟩
    · exact Nat.le_trans known (Nat.add_le_add_left (Nat.zero_le _) _)
    · exact Nat.le_trans known (Nat.add_le_add_left (Nat.zero_le _) _)
  | @take i task rest there queue =>
    have fewer := setWorker_takers there (.holding task)
    have total : s.taken + 1 + (s.setWorker i (.holding task)).takers = s.taken + s.takers := by
      rw [Nat.add_assoc, Nat.add_comm 1]
      exact congrArg (s.taken + ·) fewer
    refine ⟨told, ?_⟩
    rw [Enough, Enough, ← total]
    exact Iff.rfl
  | wake there => exact ⟨told, setWorker_enough there rfl⟩
  | execute there => exact ⟨told, setWorker_enough there rfl⟩
  | stop quiet => rcases told with other | other <;> cases quiet.symm.trans other
  | lock called => rcases told with other | other <;> cases called.symm.trans other
  | join joining gone => exact ⟨Or.inr rfl, Iff.rfl⟩

/-- Only `lock` tells the workers. -/
theorem told_by_lock {e : Event} (untold : ¬ s.Told) (steps : s.step e = some s') (told : s'.Told) :
    e = .lock := by
  cases step_does steps with
  | lock called => rfl
  | stop quiet => exact told.elim nofun nofun
  | join joining gone => exact absurd (Or.inl joining) untold
  | _ => exact absurd told untold

/-- When `stop` has returned, the tasks that were executed are those that were taken. -/
theorem Accounted.executed_count (accounted : Accounted s) (returned : s.stopping = .returned)
    (task : Nat) : s.executed.count task = if task < s.taken then 1 else 0 := by
  have none : s.held = [] := by
    rw [held, List.filterMap_eq_nil_iff]
    intro worker there
    rw [accounted.gone returned worker there]
    rfl
  have all := accounted.others
  rw [none, List.append_nil] at all
  rw [all.count_eq, List.count_range]

/-- Each accepted task was executed once exactly when enough workers took one. -/
theorem Accounted.once_iff (accounted : Accounted s) (returned : s.stopping = .returned) :
    (∀ task < s.accepted, s.executed.count task = 1) ↔ s.Enough := by
  have idle : s.takers = 0 := by
    rw [takers, List.countP_eq_zero]
    intro worker there
    rw [accounted.gone returned worker there]
    exact Bool.false_ne_true
  rw [Enough, idle, Nat.add_zero]
  constructor
  · intro each
    by_contra more
    have missed := each s.taken (Nat.not_le.mp more)
    rw [accounted.executed_count returned, if_neg (Nat.lt_irrefl _)] at missed
    exact absurd missed (by decide)
  · intro enough task early
    rw [accounted.executed_count returned, if_pos (Nat.lt_of_lt_of_le early enough)]

/-- In a run in which `stop` gets the mutex when enough workers will take a task, every task
that was accepted is executed once. -/
theorem once_of_run {threadNum : Nat} {s : ThreadPool}
    (run : Reaches step Met (start threadNum) s) : s.Once := by
  have kept : Accounted s ∧ (s.Told → s.Enough) :=
    run.invariant (fun s => Accounted s ∧ (s.Told → s.Enough))
      ⟨start_accounted threadNum, fun told => told.elim nofun nofun⟩
      fun s e s' kept met steps => by
        refine ⟨kept.1.step steps, fun told' => ?_⟩
        by_cases told : s.Told
        · exact (told_step kept.1 told steps).2.mpr (kept.2 told)
        · obtain rfl := told_by_lock told steps told'
          rw [ThreadPool.step] at steps
          split_ifs at steps
          cases steps
          exact met
  exact ⟨fun returned => (kept.1.once_iff returned).mpr (kept.2 (Or.inr returned)), kept.1.bounded⟩

end

/-- One worker and one task, that the worker takes before `stop` has the mutex. -/
theorem once_when_taken : ∃ s, follow step Met (start 1)
    [.run, .look 0, .take 0, .stop, .lock, .execute 0, .look 0, .join] = some s ∧ s.Once := by
  obtain ⟨s, followed⟩ := Option.isSome_iff_exists.mp (by decide : (follow step Met (start 1)
    [.run, .look 0, .take 0, .stop, .lock, .execute 0, .look 0, .join]).isSome = true)
  exact ⟨s, followed, once_of_run (reaches_of_follow followed)⟩

/-- `stop` gets the mutex before the worker has looked at `running_`. -/
theorem task_left : ∃ s, Reaches step (fun _ _ => True) (start 1) s ∧ ¬ s.Once := by
  refine ⟨⟨1, [0], false, [.left], .returned, 0, 1, []⟩, @reaches_of_follow _ _ _ _
    (fun _ _ => inferInstance) [.run, .stop, .lock, .look 0, .join] _ _ rfl, ?_⟩
  exact fun once => absurd (once.1 rfl 0 (by decide)) (by decide)

end ThreadPool
