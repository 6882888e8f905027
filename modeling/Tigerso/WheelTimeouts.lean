import Tigerso.TimeoutLog
import Tigerso.TimeWheelEvent

/-!
# The timing wheel is exact

A channel sits as many nodes behind the current one as ticks are missing until it
expires. The sweep of a node runs the timeout callbacks, which erase and close
channels; which channel `begin()` finds next is part of the run.
-/

open TimeoutLog

universe u

namespace WheelTimeouts

/-- What the wheel reads of a channel. -/
structure Channel where
  sockfd : Int
  /-- `sock_` is not null. -/
  hasSocket : Bool
  listening : Bool
  /-- The socket is the wheel's own `_timerfd`. -/
  isTimer : Bool
  deriving DecidableEq

def isSkipChannel (cn : Channel) : Bool :=
  if cn.sockfd = -1 then true
  else if cn.hasSocket then cn.listening || cn.isTimer
  else true

theorem alive_of_not_skip {cn : Channel} (taken : ¬ isSkipChannel cn = true) :
    cn.sockfd ≠ -1 ∧ cn.hasSocket = true := by
  constructor
  · intro closed
    exact taken (by simp [isSkipChannel, closed])
  · by_contra missing
    exact taken (by simp [isSkipChannel, missing])

structure Timer (α : Type u) where
  wheel : TimeWheelEvent α
  channel : α → Channel
  log : List (Event α)

/-- What a timeout callback does to the wheel. -/
inductive Act (α : Type u) where
  | eraseChannel (c : α)
  /-- The part of `unregisterChannel` that the wheel sees. -/
  | closeChannel (c : α)

/-- One pass of the sweep: what `begin()` points to, and what its callback does. -/
structure Timeout (α : Type u) where
  found : α
  callback : List (Act α)

inductive Op (α : Type u) where
  | updateChannel (c : α)
  | act (a : Act α)
  /-- A new `Channel` object. -/
  | construct (c : α) (cn : Channel)
  | listen (c : α)
  | clockJump (timeouts : List (Timeout α))

variable {α : Type u} [DecidableEq α]

namespace Timer

omit [DecidableEq α] in
def init (nodenum : Nat) (channel : α → Channel) : Timer α := ⟨.init nodenum, channel, []⟩

def setChannel (s : Timer α) (c : α) (cn : Channel) : Timer α :=
  { s with channel := Function.update s.channel c cn }

def eraseChannel (s : Timer α) (c : α) : Timer α :=
  { s with wheel := s.wheel.eraseChannel c, log := .dropped c :: s.log }

def updateChannel (s : Timer α) (c : α) : Timer α :=
  if isSkipChannel (s.channel c) then s
  else { s with wheel := s.wheel.updateChannel c false, log := .touched c :: s.log }

def runAct (s : Timer α) : Act α → Timer α
  | .eraseChannel c => s.eraseChannel c
  | .closeChannel c => (s.setChannel c { s.channel c with sockfd := -1 }).eraseChannel c

/-- `clearCurrentTimeNode`; `none` when `timeouts` is not a run of its loop. -/
def clearCurrentTimeNode : List (Timeout α) → Timer α → Option (Timer α)
  | [], s => if s.wheel.current = [] then some s else none
  | t :: timeouts, s =>
    if t.found ∈ s.wheel.current then
      let cn := s.channel t.found
      let s :=
        if cn.sockfd ≠ -1 ∧ cn.hasSocket then
          t.callback.foldl runAct { s with log := .expired t.found :: s.log }
        else s
      clearCurrentTimeNode timeouts { s with wheel := s.wheel.eraseCurrent t.found }
    else none

def clockJump (s : Timer α) (timeouts : List (Timeout α)) : Option (Timer α) :=
  clearCurrentTimeNode timeouts { s with wheel := s.wheel.jump, log := .ticked :: s.log }

def step (s : Timer α) : Op α → Option (Timer α)
  | .updateChannel c => some (s.updateChannel c)
  | .act a => some (s.runAct a)
  -- an object that is still in the wheel is not constructed anew
  | .construct c cn => if s.wheel.contains c then none else some (s.setChannel c cn)
  | .listen c => some (s.setChannel c { s.channel c with listening := true })
  | .clockJump timeouts => s.clockJump timeouts

def run (s : Timer α) : List (Op α) → Option (Timer α)
  | [] => some s
  | op :: ops => (s.step op).bind (run · ops)

/-- With `n` nodes, the channels in the node `i` places behind the current one have been
there for `n - i` ticks. The current node holds those of age `z`: new ones, or, during its
sweep, the ones that are due. The callback of `firing` is under way. -/
structure Placed (n z : Nat) (firing : Option α) (s : Timer α) : Prop where
  length : s.wheel.ring.length = n
  single : s.wheel.Single
  place : ∀ c i, firing ≠ some c →
    (c ∈ s.wheel.node i ↔ i < n ∧ age c s.log = some (if i = 0 then z else n - i))
  ages : ∀ c k, age c s.log = some k → k = z ∨ 0 < k ∧ k < n
  fired : ∀ c, firing = some c → age c s.log = none ∧ ∀ i, c ∈ s.wheel.node i → i = 0
  alive : ∀ c, s.wheel.Contains c → (s.channel c).sockfd ≠ -1 ∧ (s.channel c).hasSocket
  onTime : OnTime n s.log

variable {n z : Nat} {firing : Option α} {s s' : Timer α}

theorem placed_init (pos : 1 ≤ n) (channel : α → Channel) :
    Placed n 0 none (init n channel) := by
  refine ⟨?_, TimeWheelEvent.single_init n, fun c i _ => ?_, fun c k aged => (nomatch aged),
    fun c h => (nomatch h), fun c h => ?_, onTime_nil⟩
  · simp [init, TimeWheelEvent.init, TimeWheelEvent.ring]
    omega
  · simp [init, age]
  · obtain ⟨i, mem⟩ := h
    simp [init] at mem

theorem Placed.setChannel (h : Placed n z firing s) {c : α} {cn : Channel}
    (alive : s.wheel.Contains c → cn.sockfd ≠ -1 ∧ cn.hasSocket) :
    Placed n z firing (s.setChannel c cn) := by
  refine ⟨h.length, h.single, h.place, h.ages, h.fired, fun d held => ?_, h.onTime⟩
  simp only [Timer.setChannel]
  by_cases same : d = c
  · subst same
    rw [Function.update_self]
    exact alive held
  · rw [Function.update_of_ne same]
    exact h.alive d held

/-- A channel that is erased is nowhere. -/
theorem Placed.eraseChannel (h : Placed n z firing s) (c : α) :
    Placed n z firing (s.eraseChannel c) := by
  have mem : ∀ d i, d ∈ (s.wheel.eraseChannel c).node i ↔ d ≠ c ∧ d ∈ s.wheel.node i :=
    fun d i => TimeWheelEvent.mem_eraseChannel h.single
  refine ⟨?_, h.single.eraseChannel c, fun d i out => ?_, fun d k aged => ?_, fun d fired => ?_,
    fun d held => ?_, h.onTime.cons fun d e => (nomatch e)⟩
  · rw [← h.length]
    exact TimeWheelEvent.ring_eraseChannel_length
  · simp only [Timer.eraseChannel, age]
    rw [mem, h.place d i out]
    by_cases same : c = d
    · simp [same]
    · simp [same, Ne.symm same]
  · simp only [Timer.eraseChannel, age] at aged
    split_ifs at aged
    exact h.ages d k aged
  · obtain ⟨gone, only⟩ := h.fired d fired
    refine ⟨?_, fun i held => only i ((mem d i).mp held).2⟩
    simp only [Timer.eraseChannel, age, gone, ite_self]
  · obtain ⟨i, held⟩ := held
    exact h.alive d ⟨i, ((mem d i).mp held).2⟩

theorem Placed.closeChannel (h : Placed n z firing s) (c : α) :
    Placed n z firing (s.runAct (.closeChannel c)) := by
  have erased := h.eraseChannel c
  have same : s.runAct (.closeChannel c) =
      (s.eraseChannel c).setChannel c { s.channel c with sockfd := -1 } := rfl
  rw [same]
  refine erased.setChannel fun held => ?_
  obtain ⟨i, mem⟩ := held
  exact absurd rfl ((TimeWheelEvent.mem_eraseChannel h.single).mp mem).1

theorem Placed.runAct (h : Placed n z firing s) (a : Act α) : Placed n z firing (s.runAct a) := by
  cases a with
  | eraseChannel c => exact h.eraseChannel c
  | closeChannel c => exact h.closeChannel c

theorem Placed.callback (h : Placed n z firing s) (acts : List (Act α)) :
    Placed n z firing (acts.foldl Timer.runAct s) := by
  induction acts generalizing s with
  | nil => exact h
  | cons a acts ih => exact ih (h.runAct a)

/-- A channel that is updated is as far from the sweep as it can be. -/
theorem Placed.updateChannel (h : Placed n 0 none s) (pos : 1 ≤ n) (c : α) :
    Placed n 0 none (s.updateChannel c) := by
  rw [Timer.updateChannel]
  split_ifs with skip
  · exact h
  have mem : ∀ d i, d ∈ (s.wheel.updateChannel c false).node i ↔
      d ≠ c ∧ d ∈ s.wheel.node i ∨ i = 0 ∧ d = c := by
    intro d i
    rw [TimeWheelEvent.updateChannel, if_neg (by decide), TimeWheelEvent.mem_insertCurrent,
      TimeWheelEvent.mem_eraseChannel h.single]
  refine ⟨?_, h.single.updateChannel c false, fun d i _ => ?_, fun d k aged => ?_, ?_,
    fun d held => ?_, h.onTime.cons ?_⟩
  · rw [← h.length]
    exact TimeWheelEvent.ring_eraseChannel_length
  · simp only [age]
    rw [mem, h.place d i (by simp)]
    by_cases same : c = d
    · subst same
      rw [if_pos rfl]
      constructor
      · rintro (⟨other, _⟩ | ⟨rfl, _⟩)
        · exact absurd rfl other
        · exact ⟨pos, rfl⟩
      · rintro ⟨inside, here⟩
        refine Or.inr ⟨?_, rfl⟩
        by_contra start
        rw [if_neg start] at here
        have := Option.some.inj here
        omega
    · simp [same, Ne.symm same]
  · simp only [age] at aged
    split_ifs at aged with same
    · exact Or.inl (Option.some.inj aged).symm
    · exact h.ages d k aged
  · intro d fired
    cases fired
  · obtain ⟨i, held⟩ := held
    rcases (mem d i).mp held with ⟨_, before⟩ | ⟨_, rfl⟩
    · exact h.alive d ⟨i, before⟩
    · exact alive_of_not_skip skip
  · intro d fired
    cases fired

/-- At a tick every channel is one node nearer. -/
theorem Placed.jump (h : Placed n 0 none s) (pos : 1 ≤ n) :
    Placed n n none { s with wheel := s.wheel.jump, log := .ticked :: s.log } := by
  have length := h.length
  have mem : ∀ d i, d ∈ s.wheel.jump.node i ↔ i < n ∧ d ∈ s.wheel.node ((i + 1) % n) := by
    intro d i
    constructor
    · intro held
      have inside := TimeWheelEvent.lt_of_mem_node held
      rw [TimeWheelEvent.ring_jump_length] at inside
      rw [TimeWheelEvent.node_jump inside, length] at held
      exact ⟨length ▸ inside, held⟩
    · rintro ⟨inside, held⟩
      rw [TimeWheelEvent.node_jump (by rw [length]; exact inside), length]
      exact held
  refine ⟨?_, h.single.jump, fun d i _ => ?_, fun d k aged => ?_, fun d fired => (nomatch fired),
    fun d held => ?_, h.onTime.cons fun d e => (nomatch e)⟩
  · rw [← length]
    exact TimeWheelEvent.ring_jump_length
  · simp only [age]
    rw [mem, h.place d _ nofun]
    have older : ∀ k, (age d s.log).map (· + 1) = some (k + 1) ↔ age d s.log = some k := by
      intro k
      cases age d s.log <;> simp
    refine and_congr_right fun inside => ?_
    have below : (i + 1) % n < n := Nat.mod_lt _ pos
    rw [and_iff_right below]
    rcases Nat.lt_or_eq_of_le (Nat.succ_le_of_lt inside) with before | last
    · rw [Nat.mod_eq_of_lt before, if_neg (Nat.succ_ne_zero i), ← older,
        show n - (i + 1) + 1 = if i = 0 then n else n - i by split_ifs <;> omega]
    · have wraps : (i + 1) % n = 0 := by rw [← last]; exact Nat.mod_self _
      rw [wraps, if_pos rfl, ← older,
        show 0 + 1 = if i = 0 then n else n - i by split_ifs <;> omega]
  · simp only [age, Option.map_eq_some_iff] at aged
    obtain ⟨j, before, rfl⟩ := aged
    rcases h.ages d j before with rfl | ⟨_, less⟩ <;> omega
  · obtain ⟨i, held⟩ := held
    exact h.alive d ⟨_, ((mem d i).mp held).2⟩

/-- One pass of the sweep. -/
theorem Placed.timeout (h : Placed n n none s) {c : α}
    (found : c ∈ s.wheel.current) (acts : List (Act α)) :
    let s₁ := acts.foldl Timer.runAct { s with log := .expired c :: s.log }
    Placed n n none { s₁ with wheel := s₁.wheel.eraseCurrent c } := by
  have due : age c s.log = some n := ((h.place c 0 nofun).mp found).2
  have fires : Placed n n (some c) { s with log := .expired c :: s.log } := by
    refine ⟨h.length, h.single, fun d i out => ?_, fun d k aged => ?_, ?_, h.alive,
      h.onTime.cons fun d e => by cases e; exact due⟩
    · have apart : c ≠ d := fun same => out (by rw [same])
      simpa only [age, if_neg apart] using h.place d i nofun
    · simp only [age] at aged
      split_ifs at aged
      exact h.ages d k aged
    · rintro d ⟨⟩
      exact ⟨by simp only [age, if_pos], fun i held => h.single.once c i 0 held found⟩
  intro s₁
  have after : Placed n n (some c) s₁ := fires.callback acts
  have mem : ∀ d i, d ∈ (s₁.wheel.eraseCurrent c).node i ↔ d ≠ c ∧ d ∈ s₁.wheel.node i := by
    intro d i
    rw [TimeWheelEvent.node_eraseCurrent]
    split_ifs with start
    · subst start
      exact (after.single.nodup 0).mem_erase_iff
    · refine ⟨fun held => ⟨?_, held⟩, And.right⟩
      rintro rfl
      exact start ((after.fired d rfl).2 i held)
  refine ⟨after.length, after.single.eraseCurrent c, fun d i _ => ?_, after.ages,
    fun d fired => (nomatch fired), fun d held => ?_, after.onTime⟩
  · rw [mem]
    by_cases same : d = c
    · subst same
      simp [(after.fired d rfl).1]
    · rw [and_iff_right same]
      exact after.place d i fun e => same (Option.some.inj e).symm
  · obtain ⟨i, held⟩ := held
    exact after.alive d ⟨i, ((mem d i).mp held).2⟩

/-- Behind the sweep the current node is empty. -/
theorem Placed.swept (h : Placed n n none s) (pos : 1 ≤ n) (empty : s.wheel.current = []) :
    Placed n 0 none s := by
  have overdue : ∀ c, age c s.log ≠ some n := by
    intro c due
    have held := (h.place c 0 nofun).mpr ⟨pos, due⟩
    rw [TimeWheelEvent.node_zero, empty] at held
    exact nomatch held
  have fresh : ∀ c k, age c s.log = some k → 0 < k ∧ k < n := by
    intro c k aged
    rcases h.ages c k aged with rfl | inside
    · exact absurd aged (overdue c)
    · exact inside
  refine ⟨h.length, h.single, fun c i out => ?_, fun c k aged => Or.inr (fresh c k aged), h.fired,
    h.alive, h.onTime⟩
  rw [h.place c i out]
  refine and_congr_right fun _ => ?_
  by_cases start : i = 0
  · rw [if_pos start, if_pos start]
    exact ⟨fun due => absurd due (overdue c), fun new => absurd (fresh c 0 new).1 (Nat.lt_irrefl 0)⟩
  · rw [if_neg start, if_neg start]

theorem clearCurrentTimeNode_placed (pos : 1 ≤ n) (timeouts : List (Timeout α))
    (h : Placed n n none s) (ends : clearCurrentTimeNode timeouts s = some s') :
    Placed n 0 none s' := by
  induction timeouts generalizing s with
  | nil =>
    rw [clearCurrentTimeNode] at ends
    split_ifs at ends with empty
    cases ends
    exact h.swept pos empty
  | cons t timeouts ih =>
    rw [clearCurrentTimeNode] at ends
    split_ifs at ends with found
    have alive := h.alive t.found ⟨0, found⟩
    simp only [if_pos alive] at ends
    exact ih (h.timeout found t.callback) ends

theorem step_placed (pos : 1 ≤ n) (h : Placed n 0 none s) {op : Op α}
    (ends : s.step op = some s') : Placed n 0 none s' := by
  cases op with
  | updateChannel c =>
    cases ends
    exact h.updateChannel pos c
  | act a =>
    cases ends
    exact h.runAct a
  | construct c cn =>
    rw [step] at ends
    split_ifs at ends with held
    cases ends
    exact h.setChannel fun inside => absurd (TimeWheelEvent.contains_iff.mpr inside) held
  | listen c =>
    cases ends
    exact h.setChannel fun inside => h.alive c inside
  | clockJump timeouts => exact clearCurrentTimeNode_placed pos timeouts (h.jump pos) ends

theorem run_placed (pos : 1 ≤ n) (ops : List (Op α)) (h : Placed n 0 none s)
    (ends : s.run ops = some s') : Placed n 0 none s' := by
  induction ops generalizing s with
  | nil =>
    cases ends
    exact h
  | cons op ops ih =>
    obtain ⟨s₁, first, rest⟩ := Option.bind_eq_some_iff.mp ends
    exact ih (step_placed pos h first) rest

/-- A channel is in the wheel exactly as long as it has an age. -/
theorem Placed.contains (h : Placed n 0 none s) (pos : 1 ≤ n) (c : α) :
    s.wheel.Contains c ↔ ∃ k, age c s.log = some k := by
  constructor
  · rintro ⟨i, held⟩
    exact ⟨_, ((h.place c i nofun).mp held).2⟩
  · rintro ⟨k, aged⟩
    rcases h.ages c k aged with rfl | ⟨ticked, less⟩
    · exact ⟨0, (h.place c 0 nofun).mpr ⟨pos, aged⟩⟩
    · refine ⟨n - k, (h.place c (n - k) nofun).mpr ⟨by omega, ?_⟩⟩
      rw [if_neg (by omega), aged]
      congr 1
      omega

theorem runAct_current (s : Timer α) (a : Act α) :
    (s.runAct a).wheel.current.Sublist s.wheel.current := by
  cases a <;> exact TimeWheelEvent.eraseChannel_current

theorem callback_current (acts : List (Act α)) (s : Timer α) :
    (acts.foldl runAct s).wheel.current.Sublist s.wheel.current := by
  induction acts generalizing s with
  | nil => exact List.Sublist.refl _
  | cons a acts ih => exact (ih (s.runAct a)).trans (s.runAct_current a)

theorem erase_shorter {xs ys : List α} {c : α} (sub : ys.Sublist xs) (mem : c ∈ xs) :
    (ys.erase c).length < xs.length := by
  by_cases held : c ∈ ys
  · have positive := List.length_pos_of_mem held
    have shorter := sub.length_le
    rw [List.length_erase_of_mem held]
    omega
  · rw [List.erase_of_not_mem held]
    refine Nat.lt_of_le_of_ne sub.length_le fun same => ?_
    rw [sub.eq_of_length same] at held
    exact held mem

def swept (s : Timer α) (t : Timeout α) : Timer α :=
  let cn := s.channel t.found
  let s :=
    if cn.sockfd ≠ -1 ∧ cn.hasSocket then
      t.callback.foldl runAct { s with log := .expired t.found :: s.log }
    else s
  { s with wheel := s.wheel.eraseCurrent t.found }

theorem clearCurrentTimeNode_cons {s : Timer α} {t : Timeout α} (held : t.found ∈ s.wheel.current)
    (timeouts : List (Timeout α)) :
    clearCurrentTimeNode (t :: timeouts) s = clearCurrentTimeNode timeouts (s.swept t) :=
  if_pos held

theorem swept_shorter {s : Timer α} {t : Timeout α} (held : t.found ∈ s.wheel.current) :
    (s.swept t).wheel.current.length < s.wheel.current.length := by
  refine erase_shorter ?_ held
  split_ifs
  · exact callback_current _ _
  · exact List.Sublist.refl _

end Timer

/-- Which channel `begin()` points to in a timer whose current node is not empty, and what the
callback of that channel does. -/
structure Sweeper (α : Type u) [DecidableEq α] where
  begin_ : ∀ s : Timer α, s.wheel.current ≠ [] → { c // c ∈ s.wheel.current }
  callback : Timer α → α → List (Act α)

namespace Timer

/-- The passes of a sweep up to an empty node. -/
def Passes (sweeper : Sweeper α) : Timer α → List (Timeout α) → Prop
  | s, [] => s.wheel.current = []
  | s, t :: timeouts =>
    (∃ more : s.wheel.current ≠ [],
      t = ⟨sweeper.begin_ s more, sweeper.callback s (sweeper.begin_ s more)⟩) ∧
    Passes sweeper (s.swept t) timeouts

/-- Whatever `begin()` points to and the callbacks erase and close, the loop of the sweep comes to
its end. -/
theorem sweep_ends (sweeper : Sweeper α) (s : Timer α) :
    ∃ timeouts s', Passes sweeper s timeouts ∧ clearCurrentTimeNode timeouts s = some s' := by
  induction left : s.wheel.current.length using Nat.strong_induction_on generalizing s with
  | _ k ih =>
    subst left
    by_cases empty : s.wheel.current = []
    · exact ⟨[], s, empty, by rw [clearCurrentTimeNode, if_pos empty]⟩
    · let t : Timeout α := ⟨sweeper.begin_ s empty, sweeper.callback s (sweeper.begin_ s empty)⟩
      have held : t.found ∈ s.wheel.current := (sweeper.begin_ s empty).2
      obtain ⟨timeouts, s', passes, ends⟩ := ih _ (swept_shorter held) (s.swept t) rfl
      refine ⟨t :: timeouts, s', ⟨⟨empty, rfl⟩, passes⟩, ?_⟩
      rw [clearCurrentTimeNode_cons held]
      exact ends

/-- Channels that `isSkipChannel` does not exclude expire in the `n`-th jump after they
were updated, once, unless they were erased. -/
theorem timeouts_exact {n : Nat} (pos : 1 ≤ n) (channel : α → Channel) (ops : List (Op α))
    {s : Timer α} (ran : (init n channel).run ops = some s) :
    Exact n s.log ∧ s.wheel.Single ∧ (∀ c, s.wheel.Contains c ↔ ∃ k, age c s.log = some k) ∧
      ∀ sweeper : Sweeper α, ∃ timeouts s',
        Passes sweeper { s with wheel := s.wheel.jump, log := .ticked :: s.log } timeouts ∧
          s.clockJump timeouts = some s' := by
  have placed := run_placed pos ops (placed_init pos channel) ran
  refine ⟨exact_of_onTime placed.onTime fun c k aged => ?_, placed.single,
    placed.contains pos, fun sweeper => sweep_ends sweeper _⟩
  rcases placed.ages c k aged with rfl | ⟨_, less⟩
  · exact pos
  · exact less

/-- Two channels are due in the same jump, and the callback of one closes the other. -/
theorem close_in_callback_exact :
    ∃ s, (init 2 fun _ : Nat => ⟨5, true, false, false⟩).run [.updateChannel 0, .updateChannel 1,
        .clockJump [], .clockJump [⟨0, [.closeChannel 1]⟩]] = some s ∧ Exact 2 s.log := by
  refine ⟨_, rfl, ?_⟩
  exact (timeouts_exact (by decide) (fun _ : Nat => ⟨5, true, false, false⟩)
    [.updateChannel 0, .updateChannel 1, .clockJump [], .clockJump [⟨0, [.closeChannel 1]⟩]] rfl).1

/-- The channel of a listening socket is updated and never times out. -/
theorem listening_never_expires :
    ∃ s, (init 1 fun _ : Nat => ⟨5, true, true, false⟩).run
        [.updateChannel 0, .clockJump [], .clockJump []] = some s ∧
      s.log = [.ticked, .ticked] :=
  ⟨_, rfl, rfl⟩

end Timer

end WheelTimeouts
