import Tigerso.EventsLoop

/-!
# Channel lifetime in the event loop

A channel is created, unregistered and deleted in this order, and called only before
it is unregistered. The wheel and the interest list hold registered channels only,
and nothing is deleted while a batch is being dispatched.
-/

namespace ChannelLifetime

open EventsLoop

inductive Status where
  | absent
  | registered
  | unregistered
  deriving DecidableEq

/-- What the memory says of a channel. -/
def statusOf : Option Channel → Status
  | none => .absent
  | some ch => if ch.sockfd = -1 then .unregistered else .registered

/-- What the log says of the channel at `a`. -/
def status (a : Addr) : List ChannelEvent → Status
  | [] => .absent
  | .created c :: log => if c = a then .registered else status a log
  | .unregistered c :: log => if c = a then .unregistered else status a log
  | .called _ :: log => status a log
  | .deleted c :: log => if c = a then .absent else status a log

/-- Channels are called while they are registered, unregistered once, and then deleted
once. -/
def Lawful : List ChannelEvent → Prop
  | [] => True
  | .created c :: log => status c log = .absent ∧ Lawful log
  | .unregistered c :: log => status c log = .registered ∧ Lawful log
  | .called c :: log => status c log = .registered ∧ Lawful log
  | .deleted c :: log => status c log = .unregistered ∧ Lawful log

/-- The channels that the rest of `waitChannel` reads. -/
def refs : Control → List Addr
  | .idle => []
  | .next rest => rest.map EpollEvent.ptr
  | .test _ c _ rest => c :: rest.map EpollEvent.ptr
  | .calling _ c _ rest => c :: rest.map EpollEvent.ptr
  | .sweep c _ rest => c :: rest.map EpollEvent.ptr
  | .timeout t c _ rest => t :: c :: rest.map EpollEvent.ptr
  | .fault => []

/-- What holds of the tables, wherever `waitChannel` stands. -/
structure Tables (s : EventsLoop) : Prop where
  status : ∀ a, status a s.log = statusOf (s.channels a)
  lawful : Lawful s.log
  single : s.timer.Single
  wheel : ∀ a, s.timer.Contains a → statusOf (s.channels a) = .registered
  epoll : ∀ fd a, s.epoll fd = some a →
    ∃ ch, s.channels a = some ch ∧ ch.sockfd = fd ∧ ch.sockfd ≠ -1
  pointer : ∀ sock a, s.channelptr sock = some a →
    ∃ ch, s.channels a = some ch ∧ ch.sock = sock ∧ ch.sockfd ≠ -1
  pending : ∀ a, a ∈ s.needDeletedChannelSet ↔ statusOf (s.channels a) = .unregistered
  nodup : s.needDeletedChannelSet.Nodup

structure Inv (s : EventsLoop) : Prop where
  tables : Tables s
  live : ∀ a ∈ refs s.control, s.channels a ≠ none
  sound : s.control ≠ .fault

/-- The channels of `s` are still there in `s'`, and `waitChannel` stands where it stood. -/
structure Keeps (s s' : EventsLoop) : Prop where
  tables : Tables s'
  control : s'.control = s.control
  live : ∀ a, s.channels a ≠ none → s'.channels a ≠ none

variable {s s' : EventsLoop} {a c : Addr} {ch : Channel}

theorem deref_some (found : s.channels c = some ch) (k : Channel → EventsLoop) :
    s.deref c k = k ch := by
  rw [deref, found]

theorem statusOf_registered {o : Option Channel} :
    statusOf o = .registered ↔ ∃ ch, o = some ch ∧ ch.sockfd ≠ -1 := by
  cases o with
  | none => simp [statusOf]
  | some ch =>
    simp only [statusOf]
    split_ifs with gone <;> simp [gone]

theorem Keeps.trans {s'' : EventsLoop} (first : Keeps s s') (second : Keeps s' s'') :
    Keeps s s'' :=
  ⟨second.tables, second.control.trans first.control, fun a h => second.live a (first.live a h)⟩

theorem Keeps.inv (h : Inv s) (keeps : Keeps s s') : Inv s' := by
  refine ⟨keeps.tables, fun a mem => ?_, ?_⟩
  · rw [keeps.control] at mem
    exact keeps.live a (h.live a mem)
  · rw [keeps.control]
    exact h.sound

theorem tables_init (nodenum : Nat) (timerfd : SocketId) (fds : SocketId → Int) :
    Tables (init nodenum timerfd fds) := by
  refine ⟨fun _ => rfl, trivial, TimeWheelEvent.single_init nodenum, fun a held => ?_,
    fun _ _ h => (nomatch h), fun _ _ h => (nomatch h), fun a => ?_, List.nodup_nil⟩
  · obtain ⟨i, mem⟩ := held
    simp [init] at mem
  · simp [init, statusOf]

theorem updateTimer_keeps (h : Tables s) (found : s.channels c = some ch) :
    Keeps s (s.updateTimer c) := by
  rw [updateTimer, deref_some found]
  refine ⟨⟨h.status, h.lawful, h.single.updateChannel c _, fun a held => ?_, h.epoll, h.pointer,
    h.pending, h.nodup⟩, rfl, fun _ there => there⟩
  rcases TimeWheelEvent.contains_updateChannel h.single held with before | ⟨taken, rfl⟩
  · exact h.wheel a before
  · refine statusOf_registered.mpr ⟨ch, found, fun gone => ?_⟩
    simp [isSkipChannel, gone] at taken

theorem ctlChannel_keeps (h : Tables s) (found : s.channels c = some ch) (open_ : ch.sockfd ≠ -1)
    (granted : Bool) : Keeps s (s.ctlChannel c granted) := by
  rw [ctlChannel, deref_some found]
  split_ifs
  · refine ⟨⟨h.status, h.lawful, h.single, h.wheel, fun fd a entry => ?_, h.pointer, h.pending,
      h.nodup⟩, rfl, fun _ there => there⟩
    by_cases same : fd = ch.sockfd
    · subst same
      simp only [Function.update_self, Option.some.injEq] at entry
      subst entry
      exact ⟨ch, found, rfl, open_⟩
    · simp only [Function.update_of_ne same] at entry
      exact h.epoll fd a entry
  · exact ⟨h, rfl, fun _ there => there⟩

/-- A new channel at an address that is free. -/
theorem created_keeps (h : Tables s) {sock : SocketId} (free : s.channels c = none)
    (open_ : s.sockfd sock ≠ -1) :
    Keeps s { s with
      channels := Function.update s.channels c (some ⟨sock, s.sockfd sock⟩)
      channelptr := Function.update s.channelptr sock (some c)
      log := .created c :: s.log } := by
  have other : ∀ {a : Addr} {o : Option Channel}, s.channels a = o → o ≠ none →
      Function.update s.channels c (some ⟨sock, s.sockfd sock⟩) a = o := by
    rintro a o found there
    rw [Function.update_of_ne ?_, found]
    rintro rfl
    exact there (found.symm.trans free)
  have new : Function.update s.channels c (some ⟨sock, s.sockfd sock⟩) c =
      some ⟨sock, s.sockfd sock⟩ := Function.update_self ..
  refine ⟨⟨fun a => ?_, ⟨?_, h.lawful⟩, h.single, fun a held => ?_, fun fd a entry => ?_,
    fun sock' a pointer => ?_, fun a => ?_, h.nodup⟩, rfl, fun a there => ?_⟩
  · simp only [ChannelLifetime.status]
    by_cases same : c = a
    · subst same
      simp [statusOf, open_]
    · rw [if_neg same, Function.update_of_ne (Ne.symm same)]
      exact h.status a
  · rw [h.status, free]
    rfl
  · obtain ⟨ch, found, alive⟩ := statusOf_registered.mp (h.wheel a held)
    exact statusOf_registered.mpr ⟨ch, other found nofun, alive⟩
  · obtain ⟨ch, found, entry⟩ := h.epoll fd a entry
    exact ⟨ch, other found nofun, entry⟩
  · by_cases same : sock' = sock
    · subst same
      simp only [Function.update_self, Option.some.injEq] at pointer
      subst pointer
      exact ⟨_, new, rfl, open_⟩
    · simp only [Function.update_of_ne same] at pointer
      obtain ⟨ch, found, alive⟩ := h.pointer sock' a pointer
      exact ⟨ch, other found nofun, alive⟩
  · rw [h.pending]
    by_cases same : a = c
    · subst same
      simp [free, statusOf, open_]
    · simp only [Function.update_of_ne same]
  · intro gone
    by_cases same : a = c
    · subst same
      exact nomatch new.symm.trans gone
    · simp only [Function.update_of_ne same] at gone
      exact there gone

/-- A new channel is in the tables or was given back. -/
theorem registerChannel_keeps (h : Tables s) (sock : SocketId) (fresh : Addr) (granted : Bool) :
    Keeps s (s.registerChannel sock fresh granted) := by
  have stays : Keeps s s := ⟨h, rfl, fun _ there => there⟩
  rw [registerChannel]
  by_cases closed : (!s.exist sock) = true
  · rw [if_pos closed]
    exact stays
  rw [if_neg closed]
  have open_ : s.sockfd sock ≠ -1 := by
    intro gone
    simp [exist, gone] at closed
  cases pointer : s.channelptr sock with
  | some c =>
    obtain ⟨ch, found, _, alive⟩ := h.pointer sock c pointer
    exact ctlChannel_keeps h found alive granted
  | none =>
    dsimp only
    split_ifs with used
    · exact stays
    · have free : s.channels fresh = none := by simpa using used
      have created := created_keeps h free open_
      have found : ∀ ch : Channel, Function.update s.channels fresh (some ch) fresh = some ch :=
        fun ch => Function.update_self ..
      have timed := updateTimer_keeps created.tables (found _)
      have controls (there : _ = some (⟨sock, s.sockfd sock⟩ : Channel)) :=
        ctlChannel_keeps (c := fresh) timed.tables there open_ granted
      refine (created.trans timed).trans (controls ?_)
      rw [updateTimer, deref_some (found _)]
      exact found _

/-- A channel leaves the tables at once, and its memory when the batch is over. -/
theorem unregisterChannel_keeps (h : Tables s) (sock : SocketId) :
    Keeps s (s.unregisterChannel sock) := by
  rw [unregisterChannel]
  cases pointer : s.channelptr sock with
  | none => exact ⟨h, rfl, fun _ there => there⟩
  | some c =>
    obtain ⟨ch, found, rfl, alive⟩ := h.pointer _ c pointer
    dsimp only
    rw [deref_some found]
    have gone : Function.update s.channels c (some { ch with sockfd := -1 }) c =
        some { ch with sockfd := -1 } := Function.update_self ..
    have other : ∀ {a : Addr}, a ≠ c →
        Function.update s.channels c (some { ch with sockfd := -1 }) a = s.channels a :=
      fun apart => Function.update_of_ne apart _ _
    refine ⟨⟨fun a => ?_, ⟨?_, h.lawful⟩, h.single.eraseChannel c, fun a held => ?_,
      fun fd a entry => ?_, fun sock' a pointer' => ?_, fun a => ?_, h.nodup.insert⟩, rfl,
      fun a there => ?_⟩
    · simp only [ChannelLifetime.status]
      by_cases same : c = a
      · subst same
        simp [statusOf]
      · rw [if_neg same, other (Ne.symm same)]
        exact h.status a
    · rw [h.status]
      exact statusOf_registered.mpr ⟨ch, found, alive⟩
    · obtain ⟨i, mem⟩ := held
      obtain ⟨apart, mem⟩ := (TimeWheelEvent.mem_eraseChannel h.single).mp mem
      simp only [other apart]
      exact h.wheel a ⟨i, mem⟩
    · by_cases same : fd = ch.sockfd
      · subst same
        simp only [Function.update_self] at entry
        exact nomatch entry
      · simp only [Function.update_of_ne same] at entry
        obtain ⟨ch', found', here, entry⟩ := h.epoll fd a entry
        have apart : a ≠ c := by
          rintro rfl
          rw [found] at found'
          cases found'
          exact same here.symm
        exact ⟨ch', (other apart).trans found', here, entry⟩
    · by_cases same : sock' = ch.sock
      · subst same
        simp only [Function.update_self] at pointer'
        exact nomatch pointer'
      · simp only [Function.update_of_ne same] at pointer'
        obtain ⟨ch', found', here, alive'⟩ := h.pointer sock' a pointer'
        have apart : a ≠ c := by
          rintro rfl
          rw [found] at found'
          cases found'
          exact same here.symm
        exact ⟨ch', (other apart).trans found', here, alive'⟩
    · rw [List.mem_insert_iff, h.pending]
      by_cases same : a = c
      · subst same
        simp [statusOf]
      · simp only [other same, same, false_or]
    · by_cases same : a = c
      · subst same
        exact fun none_left => nomatch gone.symm.trans none_left
      · exact fun none_left => there ((other same).symm.trans none_left)

theorem runOp_keeps (h : Tables s) (op : Op) : Keeps s (s.runOp op) := by
  cases op with
  | registerChannel sock fresh granted => exact registerChannel_keeps h sock fresh granted
  | unregisterChannel sock => exact unregisterChannel_keeps h sock
  | setSocket sock fd =>
    exact ⟨⟨h.status, h.lawful, h.single, h.wheel, h.epoll, h.pointer, h.pending, h.nodup⟩, rfl,
      fun _ there => there⟩
  | listen sock on =>
    exact ⟨⟨h.status, h.lawful, h.single, h.wheel, h.epoll, h.pointer, h.pending, h.nodup⟩, rfl,
      fun _ there => there⟩
  | closeFd fd =>
    refine ⟨⟨h.status, h.lawful, h.single, h.wheel, fun fd' a entry => ?_, h.pointer, h.pending,
      h.nodup⟩, rfl, fun _ there => there⟩
    simp only [runOp, Function.update_apply] at entry
    split_ifs at entry
    exact h.epoll fd' a entry

/-- Deleting a list of unregistered channels: they are gone, and nothing else changes. -/
theorem deleteAll (cs : List Addr) (unique : cs.Nodup)
    (unregistered : ∀ a ∈ cs, statusOf (s.channels a) = .unregistered)
    (known : ∀ a, status a s.log = statusOf (s.channels a)) (lawful : Lawful s.log) :
    ∃ channels log, cs.foldl deleteChannel s = { s with channels := channels, log := log } ∧
      (∀ a, channels a = if a ∈ cs then none else s.channels a) ∧
      (∀ a, status a log = statusOf (channels a)) ∧ Lawful log := by
  induction cs generalizing s with
  | nil => exact ⟨s.channels, s.log, rfl, fun a => by simp, known, lawful⟩
  | cons c cs ih =>
    obtain ⟨fresh, unique⟩ := List.nodup_cons.mp unique
    have out := unregistered c List.mem_cons_self
    obtain ⟨ch, found⟩ : ∃ ch, s.channels c = some ch := by
      cases found : s.channels c with
      | none => rw [found] at out; exact nomatch out
      | some ch => exact ⟨ch, rfl⟩
    let s₁ : EventsLoop :=
      { s with channels := Function.update s.channels c none, log := .deleted c :: s.log }
    have first : s.deleteChannel c = s₁ := deref_some found _
    obtain ⟨channels, log, rest, spec, known', lawful'⟩ := @ih s₁ unique
      (fun a mem => by
        have apart : a ≠ c := fun same => fresh (same ▸ mem)
        simp only [s₁, Function.update_of_ne apart]
        exact unregistered a (List.mem_cons_of_mem _ mem))
      (fun a => by
        simp only [s₁, status]
        by_cases same : c = a
        · subst same
          simp [statusOf]
        · rw [if_neg same, Function.update_of_ne (Ne.symm same)]
          exact known a)
      ⟨(known c).trans out, lawful⟩
    refine ⟨channels, log, ?_, fun a => ?_, known', lawful'⟩
    · rw [List.foldl_cons, first, rest]
    · rw [spec]
      by_cases same : a = c
      · subst same
        simp [s₁]
      · simp [s₁, same]

/-- `cleanNeedDeletedChannels` deletes the unregistered channels, to which neither the
wheel nor the interest list refers. -/
theorem clean_tables (h : Tables s) :
    Tables s.cleanNeedDeletedChannels ∧
      s.cleanNeedDeletedChannels.control = s.control ∧
      s.cleanNeedDeletedChannels.timer = s.timer ∧
      s.cleanNeedDeletedChannels.epoll = s.epoll ∧
      ∀ a, s.cleanNeedDeletedChannels.channels a =
        if a ∈ s.needDeletedChannelSet then none else s.channels a := by
  obtain ⟨channels, log, deleted, spec, known, lawful⟩ := deleteAll s.needDeletedChannelSet h.nodup
    (fun a mem => (h.pending a).mp mem) h.status h.lawful
  have kept : ∀ {a : Addr} {ch : Channel}, s.channels a = some ch → ch.sockfd ≠ -1 →
      channels a = some ch := by
    intro a ch found alive
    rw [spec, if_neg fun mem => ?_, found]
    have out := (h.pending a).mp mem
    rw [statusOf_registered.mpr ⟨ch, found, alive⟩] at out
    exact nomatch out
  rw [cleanNeedDeletedChannels, deleted]
  refine ⟨⟨known, lawful, h.single, fun a held => ?_, fun fd a entry => ?_,
    fun sock a pointer => ?_, fun a => ?_, List.nodup_nil⟩, rfl, rfl, rfl, spec⟩
  · obtain ⟨ch, found, alive⟩ := statusOf_registered.mp (h.wheel a held)
    exact statusOf_registered.mpr ⟨ch, kept found alive, alive⟩
  · obtain ⟨ch, found, here, alive⟩ := h.epoll fd a entry
    exact ⟨ch, kept found alive, here, alive⟩
  · obtain ⟨ch, found, here, alive⟩ := h.pointer sock a pointer
    exact ⟨ch, kept found alive, here, alive⟩
  · simp only [List.not_mem_nil, false_iff]
    rw [spec]
    split_ifs with mem
    · simp [statusOf]
    · exact fun out => mem ((h.pending a).mpr out)

theorem goTo_inv (h : Tables s) (sound : s.control ≠ .fault) {control : Control}
    (live : ∀ a ∈ refs control, s.channels a ≠ none) (fine : control ≠ .fault) :
    Inv (s.goTo control) := by
  have same : s.goTo control = { s with control := control } := by
    rw [goTo]
    split
    · exact absurd ‹_› sound
    · rfl
  rw [same]
  exact ⟨⟨h.status, h.lawful, h.single, h.wheel, h.epoll, h.pointer, h.pending, h.nodup⟩, live,
    fine⟩

/-- Going on with the next event of the batch, when the timer has been updated. -/
theorem updateTimer_next (h : Tables s) (sound : s.control ≠ .fault) {rest : List EpollEvent}
    (live : ∀ a ∈ c :: rest.map EpollEvent.ptr, s.channels a ≠ none) :
    Inv ((s.updateTimer c).goTo (.next rest)) := by
  obtain ⟨ch, found⟩ := Option.ne_none_iff_exists'.mp (live c List.mem_cons_self)
  have keeps := updateTimer_keeps h found
  refine goTo_inv keeps.tables (by rw [keeps.control]; exact sound) (fun a mem => ?_) nofun
  exact keeps.live a (live a (List.mem_cons_of_mem _ mem))

theorem pass_inv (h : Tables s) (sound : s.control ≠ .fault) (stage : Stage) (events : EventMask)
    {rest : List EpollEvent} (live : ∀ a ∈ c :: rest.map EpollEvent.ptr, s.channels a ≠ none) :
    Inv (s.pass stage c events rest) := by
  cases stage
  case after => exact updateTimer_next h sound live
  all_goals exact goTo_inv h sound live nofun

theorem clean_idle (h : Inv s) : Inv (s.cleanNeedDeletedChannels.goTo .idle) := by
  obtain ⟨tables, control, _⟩ := clean_tables h.tables
  exact goTo_inv tables (by rw [control]; exact h.sound) nofun nofun

/-- A callback of a registered channel begins. -/
theorem called_inv (h : Tables s) (found : s.channels c = some ch) (alive : ch.sockfd ≠ -1)
    {control : Control} (live : ∀ a ∈ refs control, s.channels a ≠ none)
    (fine : control ≠ .fault) :
    Inv { s with control := control, log := .called c :: s.log } := by
  refine ⟨⟨h.status, ⟨?_, h.lawful⟩, h.single, h.wheel, h.epoll, h.pointer, h.pending, h.nodup⟩,
    live, fine⟩
  rw [h.status]
  exact statusOf_registered.mpr ⟨ch, found, alive⟩

theorem timer_inv (h : Tables s) {timer : TimeWheelEvent Addr} (single : timer.Single)
    (less : ∀ a, timer.Contains a → s.timer.Contains a) {control : Control}
    (live : ∀ a ∈ refs control, s.channels a ≠ none) (fine : control ≠ .fault) :
    Inv { s with timer := timer, control := control } :=
  ⟨⟨h.status, h.lawful, single, fun a held => h.wheel a (less a held), h.epoll, h.pointer,
    h.pending, h.nodup⟩, live, fine⟩

/-- Every step keeps the tables and the log in agreement. -/
theorem step_inv (h : Inv s) (input : Input) : Inv (s.step input) := by
  obtain ⟨tables, live, sound⟩ := h
  have h : Inv s := ⟨tables, live, sound⟩
  have op_inv : ∀ op, Inv (s.runOp op) := fun op => (runOp_keeps tables op).inv h
  unfold step
  split
  -- between two batches
  · exact op_inv _
  · refine goTo_inv tables sound (fun a mem => ?_) nofun
    simp only [refs, List.mem_map, List.mem_filterMap, Option.map_eq_some_iff] at mem
    obtain ⟨e, ⟨p, _, b, entry, rfl⟩, rfl⟩ := mem
    obtain ⟨ch, found, _⟩ := tables.epoll p.1 b entry
    rw [found]
    exact nofun
  -- the head of the `for`
  · exact clean_idle h
  · rename_i e rest set control
    rw [control] at live
    obtain ⟨ch, found⟩ := Option.ne_none_iff_exists'.mp (live e.ptr List.mem_cons_self)
    rw [deref_some found]
    split_ifs
    · exact goTo_inv tables sound (fun a mem => live a (List.mem_cons_of_mem _ mem)) nofun
    · exact goTo_inv tables sound live nofun
  -- the tests
  · rename_i stage c events rest set control
    rw [control] at live
    obtain ⟨ch, found⟩ := Option.ne_none_iff_exists'.mp (live c List.mem_cons_self)
    rw [deref_some found]
    split_ifs with called
    · have valid : 0 < ch.sockfd := by
        simp only [Bool.and_eq_true, validChannel, decide_eq_true_eq] at called
        exact called.1.2
      exact called_inv tables found (by omega) live nofun
    · exact pass_inv tables sound stage events live
  -- in a callback
  · exact op_inv _
  · rename_i stage c events rest code control
    rw [control] at live
    rw [decideEventCallback]
    split_ifs
    · exact updateTimer_next tables sound live
    · exact clean_idle h
    · exact pass_inv tables sound stage events live
  · rename_i c events rest control
    rw [control] at live
    obtain ⟨ch, found⟩ := Option.ne_none_iff_exists'.mp (live c List.mem_cons_self)
    rw [deref_some found]
    split_ifs
    · exact timer_inv tables tables.single.jump (fun a held => TimeWheelEvent.contains_jump held)
        live nofun
    · exact h
  -- in the sweep of the timer
  · rename_i c events rest set control
    rw [control] at live
    split_ifs
    · exact pass_inv tables sound .readable events live
    · exact h
  · rename_i c events rest t control
    rw [control] at live
    split_ifs with mem
    · obtain ⟨ch, found, alive⟩ := statusOf_registered.mp (tables.wheel t ⟨0, mem⟩)
      rw [deref_some found, if_pos alive]
      refine called_inv tables found alive (fun a held => ?_) nofun
      rcases List.mem_cons.mp held with rfl | held
      · rw [found]
        exact nofun
      · exact live a held
    · exact h
  · exact op_inv _
  · rename_i t c events rest code control
    rw [control] at live
    exact timer_inv tables (tables.single.eraseCurrent t)
      (fun a held => TimeWheelEvent.contains_eraseCurrent held)
      (fun a mem => live a (List.mem_cons_of_mem _ mem)) nofun
  · exact h

@[simp] theorem goTo_channels (control : Control) : (s.goTo control).channels = s.channels := by
  rw [goTo]
  split <;> rfl

@[simp] theorem updateTimer_channels : (s.updateTimer c).channels = s.channels := by
  rw [updateTimer, deref]
  split <;> rfl

@[simp] theorem pass_channels (stage : Stage) (events : EventMask) (rest : List EpollEvent) :
    (s.pass stage c events rest).channels = s.channels := by
  cases stage <;> simp [EventsLoop.pass]

theorem clean_control (h : Inv s) : (s.cleanNeedDeletedChannels.goTo .idle).control = .idle := by
  obtain ⟨_, control, _⟩ := clean_tables h.tables
  rw [goTo, control]
  split
  · exact absurd ‹_› h.sound
  · rfl

/-- Only the end of a batch deletes channels. -/
theorem step_deletes (h : Inv s) (input : Input) :
    (s.step input).control = .idle ∨
      ∀ a, s.channels a ≠ none → (s.step input).channels a ≠ none := by
  have op_keeps : ∀ op a, s.channels a ≠ none → (s.runOp op).channels a ≠ none :=
    fun op => (runOp_keeps h.tables op).live
  have deref_keeps : ∀ (c : Addr) (k : Channel → EventsLoop),
      (∀ ch, (k ch).channels = s.channels) → (s.deref c k).channels = s.channels := by
    intro c k same
    rw [deref]
    split
    · rfl
    · exact same _
  unfold step
  split
  · exact Or.inr (op_keeps _)
  · exact Or.inr fun a there => by rwa [goTo_channels]
  · exact Or.inl (clean_control h)
  · refine Or.inr fun a there => ?_
    rwa [deref_keeps _ _ fun ch => by split_ifs <;> simp]
  · refine Or.inr fun a there => ?_
    rwa [deref_keeps _ _ fun ch => by split_ifs <;> simp]
  · exact Or.inr (op_keeps _)
  · rw [decideEventCallback]
    split_ifs
    · exact Or.inr fun a there => by rwa [goTo_channels, updateTimer_channels]
    · exact Or.inl (clean_control h)
    · exact Or.inr fun a there => by rwa [pass_channels]
  · refine Or.inr fun a there => ?_
    rwa [deref_keeps _ _ fun ch => by split_ifs <;> rfl]
  · refine Or.inr fun a there => ?_
    split_ifs
    · rwa [pass_channels]
    · exact there
  · refine Or.inr fun a there => ?_
    split_ifs
    · rwa [deref_keeps _ _ fun ch => by split_ifs <;> rfl]
    · exact there
  · exact Or.inr (op_keeps _)
  · exact Or.inr fun _ there => there
  · exact Or.inr fun _ there => there

theorem run_inv (h : Inv s) (inputs : List Input) : Inv (s.run inputs) := by
  induction inputs generalizing s with
  | nil => exact h
  | cons input inputs ih => exact ih (step_inv h input)

theorem inv_init (nodenum : Nat) (timerfd : SocketId) (fds : SocketId → Int) :
    Inv (init nodenum timerfd fds) :=
  ⟨tables_init nodenum timerfd fds, nofun, nofun⟩

/-- In every run a deleted channel is never read. A channel is called only while it is
registered, and after it was unregistered it is in no node of the wheel and is deleted
once. That happens when the batch is over and neither the wheel nor the interest list
holds it. -/
theorem channel_lifetime (nodenum : Nat) (timerfd : SocketId) (fds : SocketId → Int)
    (inputs : List Input) :
    let s := (init nodenum timerfd fds).run inputs
    s.control ≠ .fault ∧ Lawful s.log ∧
      (∀ a, status a s.log ≠ .registered → ¬ s.timer.Contains a) ∧
      ∀ input a, s.channels a ≠ none → (s.step input).channels a = none →
        (s.step input).control = .idle ∧ ¬ (s.step input).timer.Contains a ∧
          ∀ fd, (s.step input).epoll fd ≠ some a := by
  intro s
  have h : Inv s := run_inv (inv_init nodenum timerfd fds) inputs
  refine ⟨h.sound, h.tables.lawful, fun a out held => ?_, fun input a there gone => ?_⟩
  · rw [h.tables.status, h.tables.wheel a held] at out
    exact out rfl
  have h' := step_inv h input
  refine ⟨?_, fun held => ?_, fun fd entry => ?_⟩
  · exact (step_deletes h input).resolve_right fun keeps => keeps a there gone
  · obtain ⟨ch, found, _⟩ := statusOf_registered.mp (h'.tables.wheel a held)
    exact nomatch found.symm.trans gone
  · obtain ⟨ch, found, _⟩ := h'.tables.epoll fd a entry
    exact nomatch found.symm.trans gone

end ChannelLifetime
