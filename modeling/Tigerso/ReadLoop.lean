import Tigerso.ConnectionRecycling
import Tigerso.ReadInterests

/-!
# http/HttpConnection: the read loop in the events of a client

No event finds `readHandle` in a state that its loop has no case for, also when the callback of
another test of the event came first.
-/

open SystemCalls HttpConnection GuardedRuns CallbackDispatch

namespace ServedConnection

/-- Where the connection is: a client is served, or the queue holds it, or a timeout lost it. -/
inductive Place (s : ServedConnection) : Prop
  | serving (live : Live s.conn) (free : ∀ type, s.conn.id_ ∉ s.gc type)
  | waiting (idle : Idle s.conn) (once : (s.gc s.conn.getType).count s.conn.id_ = 1)
      (elsewhere : ∀ type, type ≠ s.conn.getType → s.conn.id_ ∉ s.gc type)
  | lost (gone : Gone s.conn) (free : ∀ type, s.conn.id_ ∉ s.gc type)

/-- A connection between two events. -/
structure Settled (s : ServedConnection) : Prop where
  tended : Tended s.conn
  place : Place s

def looksAtInterest : Stage → Bool
  | .readable => true
  | .writeable => true
  | _ => false

/-- Within an event; `left` are the tests that are still to be made. -/
structure Pending (events : EventMask) (answers : Stage → Answers) (left : List Stage)
    (s : ServedConnection) : Prop where
  settled : Settled s
  once : left.Nodup
  single : ¬ (events.epollIn = true ∧ events.epollOut = true)
  awaits : ∀ stage ∈ left, looksAtInterest stage = true → ∀ handler,
    called bound events stage s = some handler → handler = .readHandle →
      Ready s.conn ∧ Answerable s.conn (answers stage)

section
variable {s s' : ServedConnection} {events : EventMask} {answers : Stage → Answers}
  {left : List Stage} {c c' : HttpConnection} {gc : Gc} {o : Outcome} {a : Answers}
  {handler : HttpHandler} {stage : Stage}

/-- A connection with a channel serves a client. -/
theorem Place.live (place : Place s) (registered : s.conn.sock.channelptr.isSome = true) :
    Live s.conn ∧ ∀ type, s.conn.id_ ∉ s.gc type := by
  cases place with
  | serving live free => exact ⟨live, free⟩
  | waiting idle _ _ =>
    rw [idle.gone.unregistered] at registered
    cases registered
  | lost gone _ =>
    rw [gone.unregistered] at registered
    cases registered

theorem bound_registered {kind : CallbackKind} (here : s.bound kind = some handler) :
    ∃ channel, s.conn.sock.channelptr = some channel ∧ channel.callback kind = some handler :=
  Option.bind_eq_some_iff.mp here

/-- A recycled connection is in the queue once. -/
theorem pushed_once (free : ∀ type, c.id_ ∉ gc type) :
    (c.push gc c.getType).count c.id_ = 1 ∧
      ∀ type, type ≠ c.getType → c.id_ ∉ c.push gc type := by
  constructor
  · rw [push, Function.update_self, List.count_append, List.count_eq_zero.mpr (free c.getType)]
    simp
  · intro type other
    rw [push, Function.update_of_ne other]
    exact free type

theorem Place.handled (free : ∀ type, s.conn.id_ ∉ s.gc type)
    (settled : HttpConnection.Settled s.conn s.gc o) : Place ⟨o.conn, o.gc⟩ := by
  cases settled with
  | kept same live fd queues =>
    refine .serving live fun type => ?_
    show o.conn.id_ ∉ o.gc type
    rw [same.id_, queues]
    exact free type
  | recycled same idle queues =>
    have pushed : o.gc = o.conn.push s.gc := by
      rw [queues, push, push, getType, getType, same.id_, same.acptptr]
    have free : ∀ type, o.conn.id_ ∉ s.gc type := by
      rw [same.id_]
      exact free
    obtain ⟨once, elsewhere⟩ := pushed_once free
    rw [← pushed] at once elsewhere
    exact .waiting idle once elsewhere

/-- The call of a handler between two events leaves the connection settled. -/
theorem Settled.handle (settled : Settled s) (registered : s.conn.sock.channelptr.isSome = true)
    (can : handler = .readHandle → Ready s.conn ∧ Answerable s.conn a) :
    ∃ o, s.conn.handle handler a s.gc = some o ∧ Settled ⟨o.conn, o.gc⟩ := by
  obtain ⟨live, free⟩ := settled.place.live registered
  obtain ⟨o, done, tended⟩ := handle_returns live settled.tended can
  refine ⟨o, done, tended, ?_⟩
  by_cases timeout : handler = .timeoutHandle
  · rw [timeout] at done
    obtain rfl := Option.some.inj done
    exact .lost ⟨rfl, rfl⟩ free
  · exact Place.handled free (handle_settled live (fun read => (can read).2.granted) timeout done)

/-- The closing of the socket ends the event, or leaves all but what is waited for. -/
theorem closeHandle_pending (opened : c.sock.sockfd.isSome = true) :
    (closeHandle a c gc).conn.sock.channelptr = none ∨
      ∃ event sock, (closeHandle a c gc).conn = { c with sock := sock } ∧
        Waits .closeHandle event c.sock sock := by
  rcases c.sock.close_cases a.shutdown with ⟨event, active, _, waits⟩ | ⟨_, closed⟩
  · have still : tigersoIoError ≠ 0 ∧ ({ c.sock with serrno := event }).isSSL = true :=
      ⟨by decide, active⟩
    simp only [closeHandle, waits]
    rw [if_pos still]
    have here := @waitFor_waits .closeHandle
      (NetSocket.wanted { c.sock with serrno := event })
      { c with sock := { c.sock with serrno := event } } opened
    exact Or.inr ⟨_, _, rfl, here.fd, here.channel⟩
  · simp only [closeHandle, closed]
    rw [if_neg fun still => still.1 rfl]
    exact Or.inl rfl

/-- A test that is passed. -/
theorem Pending.passes (pending : Pending events answers (stage :: left) s) :
    Pending events answers left s :=
  ⟨pending.settled, (List.nodup_cons.mp pending.once).2, pending.single,
    fun stage' there => pending.awaits stage' (List.mem_cons_of_mem _ there)⟩

/-- Only one of the interests was reported. -/
theorem Pending.alone (pending : Pending events answers (stage :: left) s)
    (looks : looksAtInterest stage = true) (here : EventsLoop.wanted events stage = true)
    {stage' : Stage} (there : stage' ∈ left) (looks' : looksAtInterest stage' = true) :
    EventsLoop.wanted events stage' = false := by
  have other : stage' ≠ stage := fun same =>
    (List.nodup_cons.mp pending.once).1 (same ▸ there)
  by_contra wanted
  have wanted := Bool.eq_true_of_not_eq_false wanted
  cases stage with
  | readable =>
    cases stage' with
    | readable => exact other rfl
    | writeable => exact pending.single ⟨here, wanted⟩
    | _ => cases looks'
  | writeable =>
    cases stage' with
    | readable => exact pending.single ⟨wanted, here⟩
    | writeable => exact other rfl
    | _ => cases looks'
  | _ => cases looks

/-- The handlers of the tests that look at no interest. -/
theorem closes_of_called (settled : Settled s) (other : looksAtInterest stage = false)
    (here : called bound events stage s = some handler) :
    handler = .rdhupHandle ∨ handler = .errorHandle := by
  obtain ⟨_, kind, looked, there⟩ := called_some here
  obtain ⟨channel, registered, bound⟩ := bound_registered there
  have callbacks := (settled.tended.watched channel registered).callbacks
  cases stage with
  | before => cases looked
  | rdhup =>
    obtain rfl := Option.some.inj looked
    exact Or.inl (Option.some.inj (callbacks.rdhup.symm.trans bound)).symm
  | hup =>
    obtain rfl := Option.some.inj looked
    exact Or.inr (Option.some.inj (callbacks.error.symm.trans bound)).symm
  | error =>
    obtain rfl := Option.some.inj looked
    exact Or.inr (Option.some.inj (callbacks.error.symm.trans bound)).symm
  | readable => cases other
  | writeable => cases other
  | after => cases looked

/-- What is bound behind a closing that has to wait was bound before, or closes. -/
theorem called_behind {sock : NetSocket HttpHandler} {event : SocketEvent}
    (waits : Waits .closeHandle event s.conn.sock sock)
    (here : called bound events stage ⟨{ s.conn with sock := sock }, gc⟩ = some handler) :
    handler = .closeHandle ∨ called bound events stage s = some handler := by
  obtain ⟨wanted, kind, looked, there⟩ := called_some here
  obtain ⟨channel', registered, bound'⟩ := bound_registered there
  rw [show ({ s.conn with sock := sock } : HttpConnection).sock = sock from rfl,
    waits.channel] at registered
  obtain ⟨channel, before, rfl⟩ := Option.map_eq_some_iff.mp registered
  have same (eq : (waiting .closeHandle event channel).callback kind = channel.callback kind) :
      called bound events stage s = some handler := by
    rw [called, if_pos wanted, looked, Option.bind_some, bound, before, Option.bind_some, ← eq]
    exact bound'
  cases event with
  | socketEventNone => exact Or.inr (same (by cases kind <;> rfl))
  | socketEventRead =>
    cases kind with
    | readable => exact Or.inl (Option.some.inj bound').symm
    | _ => exact Or.inr (same rfl)
  | socketEventWrite =>
    cases kind with
    | writeable => exact Or.inl (Option.some.inj bound').symm
    | _ => exact Or.inr (same rfl)

/-- The call of a test. -/
theorem Pending.calls (pending : Pending events answers (stage :: left) s)
    (here : called bound events stage s = some handler) :
    ∃ ret s', invoke answers stage handler s = some (ret, s') ∧
      Pending events answers left s' := by
  have settled := pending.settled
  obtain ⟨wanted, kind, looked, there⟩ := called_some here
  obtain ⟨channel, registered, _⟩ := bound_registered there
  have registered : s.conn.sock.channelptr.isSome = true := by
    rw [registered]
    rfl
  have once := (List.nodup_cons.mp pending.once).2
  by_cases looks : looksAtInterest stage = true
  · obtain ⟨o, done, after⟩ := settled.handle registered
      (pending.awaits stage List.mem_cons_self looks handler here)
    refine ⟨o.ret, ⟨o.conn, o.gc⟩, by rw [invoke, done]; rfl, after, once, pending.single, ?_⟩
    intro stage' there looks' handler' called'
    have unwanted := pending.alone looks wanted there looks'
    rw [(called_some called').1] at unwanted
    cases unwanted
  · have closes := closes_of_called settled (Bool.eq_false_of_not_eq_true looks) here
    have other : handler ≠ .readHandle := by
      rintro rfl
      cases closes with
      | inl eq => cases eq
      | inr eq => cases eq
    obtain ⟨o, done, after⟩ := @Settled.handle s (answers stage) handler settled registered
      fun read => absurd read other
    have eq : o = closeHandle (answers stage) s.conn s.gc := by
      cases closes with
      | inl rdhup =>
        rw [rdhup] at done
        exact (Option.some.inj done).symm
      | inr error =>
        rw [error] at done
        exact (Option.some.inj done).symm
    refine ⟨o.ret, ⟨o.conn, o.gc⟩, by rw [invoke, done]; rfl, after, once, pending.single, ?_⟩
    intro stage' there looks' handler' called' read
    have opened := (settled.place.live registered).1.connected.opened
    obtain none_ | ⟨event, sock, kept, waits⟩ :=
      @closeHandle_pending s.conn s.gc (answers stage) opened
    · obtain ⟨_, kind', _, bound'⟩ := called_some called'
      obtain ⟨channel', registered', _⟩ := bound_registered bound'
      rw [eq, none_] at registered'
      cases registered'
    · rw [eq, kept] at called' ⊢
      obtain closing | before := called_behind waits called'
      · rw [closing] at read
        cases read
      · obtain ⟨ready, answerable⟩ :=
          pending.awaits stage' (List.mem_cons_of_mem _ there) looks' handler' before read
        exact ⟨ready.of_sock sock, answerable.granted, answerable.ordered⟩

/-- `epoll_wait` reports what is waited for, and the handlers get proper answers. -/
def Genuine (s : ServedConnection) : ConnectionEvent → Prop
  | .dispatched events answers =>
    s.Reported events ∧ ∀ stage, Answerable s.conn (answers stage)
  | _ => True

theorem Settled.pending (settled : Settled s) (reported : s.Reported events)
    (answerable : ∀ stage, Answerable s.conn (answers stage)) :
    Pending events answers stages s := by
  obtain ⟨channel, registered, reads, writes⟩ := reported
  have watched := settled.tended.watched channel registered
  refine ⟨settled, by decide, fun both => watched.single ⟨reads both.1, writes both.2⟩, ?_⟩
  intro stage _ looks handler here read
  obtain ⟨wanted, kind, looked, there⟩ := called_some here
  obtain ⟨channel', registered', bound'⟩ := bound_registered there
  obtain rfl := Option.some.inj (registered.symm.trans registered')
  rw [read] at bound'
  cases stage with
  | readable =>
    obtain rfl := Option.some.inj looked
    exact ⟨watched.reading (reads wanted) bound', answerable .readable⟩
  | writeable =>
    obtain rfl := Option.some.inj looked
    exact ⟨watched.writing (writes wanted) bound', answerable .writeable⟩
  | _ => cases looks

/-- An event is dealt with to its end. -/
theorem Settled.dispatched (settled : Settled s) (reported : s.Reported events)
    (answerable : ∀ stage, Answerable s.conn (answers stage)) :
    ∃ s', s.dispatch events answers = some s' ∧ Settled s' := by
  apply dispatch_returns (Pending events answers) Settled
  · exact fun s pending => pending.settled
  · exact fun stage rest s _ pending => pending.passes
  · intro stage rest s handler here pending
    obtain ⟨ret, s', invoked, after⟩ := pending.calls here
    exact ⟨ret, s', invoked, fun _ => after.settled, fun _ => after⟩
  · exact settled.pending reported answerable

/-- A client of a connection that waited for one. -/
theorem accepted_tended (tended : Tended c) (idle : Idle c) (acptptr : Acceptor) (fd : Nat) :
    Tended (ConnectionFactory.acceptClient fd (ConnectionFactory.linkToAcceptor acptptr c)) := by
  have cleared := tended.clearable.fresh idle.state
  have accepted : Cleared (ConnectionFactory.acceptClient fd
      (ConnectionFactory.linkToAcceptor acptptr c)) := cleared.of_same rfl rfl rfl
  have state : (ConnectionFactory.acceptClient fd
      (ConnectionFactory.linkToAcceptor acptptr c)).state = .tcpInit := idle.state
  refine ⟨tended.clearable.of_same rfl rfl fun _ => accepted, fun channel there => ?_⟩
  have new : channel = { (NetSocket.newChannel : SocketChannel HttpHandler) with
      readableCb := some .readHandle
      errorCb := some .errorHandle
      rdhupCb := some .rdhupHandle
      timeoutCb := some .timeoutHandle
      readFlag := true } := by
    have unregistered : c.sock.channelptr = none := idle.gone.unregistered
    simp [ConnectionFactory.acceptClient, ConnectionFactory.linkToAcceptor, NetSocket.switchEvent,
      NetSocket.setHandles, NetSocket.registerChannel, NetSocket.exist, unregistered] at there
    exact there.symm
  rw [new]
  constructor
  · exact ⟨rfl, rfl, rfl⟩
  · exact fun both => by cases both.2
  · intro _ _
    refine ⟨?_, accepted⟩
    rw [state]
    exact .init
  · exact fun on => by cases on

theorem start_settled (id : IDType) (acptptr : Acceptor) (garbage : Nat → Byte) (fd : Nat) :
    Settled (start id acptptr garbage fd) := by
  have idle : Idle (HttpConnection.construct id acptptr garbage) := ⟨⟨rfl, rfl⟩, rfl⟩
  have request := HttpMessage.construct_blank .httpRoleRequest garbage
  have response := HttpMessage.construct_blank .httpRoleResponse garbage
  have cleared : Cleared (HttpConnection.construct id acptptr garbage) := by
    refine ⟨⟨rfl, request.sane.valid, ?_, rfl, nofun⟩, response⟩
    show (HttpMessage.construct .httpRoleRequest garbage).body.ringbuf.size = 0
    rw [RingBuffer.size_eq request.sane.valid, request.empty]
    rfl
  have tended : Tended (HttpConnection.construct id acptptr garbage) :=
    ⟨⟨rfl, request.sane.valid, response.sane.valid, fun _ => cleared⟩,
      fun channel there => nomatch there⟩
  refine ⟨accepted_tended tended idle acptptr fd, .serving ?_ fun type there => nomatch there⟩
  exact ConnectionFactory.acceptClient_live idle

/-- The connection is taken out of the queue. -/
theorem Settled.handOut (settled : Settled s) {acptptr : Acceptor}
    (taken : s.handOut acptptr = some s') : Idle s.conn ∧
      s'.conn = ConnectionFactory.linkToAcceptor acptptr s.conn ∧
        ∀ type, s.conn.id_ ∉ s'.gc type := by
  rw [ServedConnection.handOut] at taken
  cases queue : s.gc acptptr.type with
  | nil =>
    rw [queue] at taken
    cases taken
  | cons id rest =>
    rw [queue] at taken
    dsimp only at taken
    split_ifs at taken with own
    obtain rfl := Option.some.inj taken
    have here : s.conn.id_ ∈ s.gc acptptr.type := by
      rw [queue, ← own]
      exact List.mem_cons_self
    cases settled.place with
    | serving live free => exact absurd here (free acptptr.type)
    | lost gone free => exact absurd here (free acptptr.type)
    | waiting idle once elsewhere =>
      have type : acptptr.type = s.conn.getType := by
        by_contra other
        exact elsewhere acptptr.type other here
      refine ⟨idle, rfl, fun type' => ?_⟩
      show s.conn.id_ ∉ Function.update s.gc acptptr.type rest type'
      by_cases same : type' = acptptr.type
      · rw [same, Function.update_self]
        rw [← type, queue, own, List.count_cons_self] at once
        exact List.count_eq_zero.mp (Nat.succ.inj once)
      · rw [Function.update_of_ne same]
        exact elsewhere type' (type ▸ same)

theorem Settled.queues (settled : Settled s) {type : ConnectionType} {queue : List IDType}
    (count : queue.count s.conn.id_ = (s.gc type).count s.conn.id_) :
    Settled { s with gc := Function.update s.gc type queue } := by
  have same (type' : ConnectionType) : (Function.update s.gc type queue type').count s.conn.id_ =
      (s.gc type').count s.conn.id_ := by
    by_cases here : type' = type
    · rw [here, Function.update_self, count]
    · rw [Function.update_of_ne here]
  have free (type' : ConnectionType) (free : s.conn.id_ ∉ s.gc type') :
      s.conn.id_ ∉ Function.update s.gc type queue type' := by
    rw [← List.count_eq_zero, same]
    exact List.count_eq_zero.mpr free
  refine ⟨settled.tended, ?_⟩
  cases settled.place with
  | serving live out => exact .serving live fun type' => free type' (out type')
  | lost gone out => exact .lost gone fun type' => free type' (out type')
  | waiting idle once elsewhere =>
    exact .waiting idle ((same _).trans once) fun type' other => free type' (elsewhere type' other)

/-- A step of the connection, between any two events. -/
theorem Settled.step {event : ConnectionEvent} (settled : Settled s) (genuine : Genuine s event)
    (steps : s.step event = some s') : Settled s' := by
  cases event with
  | accepted acptptr fd =>
    obtain ⟨s₁, taken, rfl⟩ := Option.map_eq_some_iff.mp steps
    obtain ⟨idle, linked, free⟩ := settled.handOut taken
    have waits : Idle (ConnectionFactory.linkToAcceptor acptptr s.conn) :=
      ⟨⟨idle.gone.closed, idle.gone.unregistered⟩, idle.state⟩
    rw [linked]
    exact ⟨accepted_tended settled.tended idle acptptr fd,
      .serving (ConnectionFactory.acceptClient_live waits) free⟩
  | refused acptptr =>
    obtain ⟨s₁, taken, rfl⟩ := Option.map_eq_some_iff.mp steps
    obtain ⟨idle, linked, free⟩ := settled.handOut taken
    have restarted : Idle s₁.conn.restart := ⟨⟨rfl, rfl⟩, rfl⟩
    have cleared := settled.tended.clearable.fresh idle.state
    have clearable : Clearable s₁.conn := by
      rw [linked]
      exact settled.tended.clearable.of_same rfl rfl fun _ => cleared.of_same rfl rfl rfl
    have free : ∀ type, s₁.conn.id_ ∉ s₁.gc type := by
      rw [linked]
      exact free
    obtain ⟨once, elsewhere⟩ := pushed_once free
    exact ⟨restart_tended clearable, .waiting restarted once elsewhere⟩
  | queued type id =>
    rw [ServedConnection.step] at steps
    split_ifs at steps with own
    obtain rfl := Option.some.inj steps
    refine settled.queues ?_
    rw [List.count_append, List.count_singleton]
    simp [own]
  | taken type =>
    rw [ServedConnection.step] at steps
    cases queue : s.gc type with
    | nil =>
      rw [queue] at steps
      cases steps
    | cons id rest =>
      rw [queue] at steps
      dsimp only at steps
      split_ifs at steps with own
      obtain rfl := Option.some.inj steps
      refine settled.queues ?_
      rw [queue, List.count_cons_of_ne own]
  | dispatched events answers =>
    obtain ⟨s₁, done, after⟩ := settled.dispatched genuine.1 genuine.2
    obtain rfl := Option.some.inj (done.symm.trans steps)
    exact after
  | timedOut answers =>
    obtain ⟨handler, there, steps⟩ := Option.bind_eq_some_iff.mp steps
    obtain ⟨o, done, steps⟩ := Option.bind_eq_some_iff.mp steps
    obtain rfl := Option.some.inj steps
    obtain ⟨channel, registered, bound⟩ := bound_registered there
    have timeout := (settled.tended.watched channel registered).callbacks.timeout
    obtain rfl := Option.some.inj (timeout.symm.trans bound)
    obtain ⟨o', done', after⟩ := @Settled.handle s answers .timeoutHandle settled
      (by rw [registered]; rfl) nofun
    obtain rfl := Option.some.inj (done.symm.trans done')
    exact after

theorem settled_of_run {id : IDType} {acptptr : Acceptor} {garbage : Nat → Byte} {fd : Nat}
    (run : Reaches step Genuine (start id acptptr garbage fd) s) : Settled s :=
  run.invariant Settled (start_settled id acptptr garbage fd)
    fun _ _ _ settled genuine steps => settled.step genuine steps

end

/-- `readHandle` is the callback of the interest that is on. -/
def ReadsNext (channel : SocketChannel HttpHandler) : Prop :=
  channel.readFlag = true ∧ channel.readableCb = some .readHandle ∨
    channel.writeFlag = true ∧ channel.writeableCb = some .readHandle

/-- One interest at most is on; when it leads to `readHandle`, the state has a case and the call
returns; and every event is dealt with to its end. -/
theorem read_loop_handled {id : IDType} {acptptr : Acceptor} {garbage : Nat → Byte} {fd : Nat}
    {s : ServedConnection} (run : Reaches step Genuine (start id acptptr garbage fd) s) :
    (∀ channel, s.conn.sock.channelptr = some channel →
      ¬ (channel.readFlag = true ∧ channel.writeFlag = true) ∧
      (ReadsNext channel → Handled s.conn.state ∧ ∀ a, Answerable s.conn a →
        (readHandle a s.conn s.gc).isSome = true)) ∧
    ∀ events answers, Genuine s (.dispatched events answers) →
      (s.step (.dispatched events answers)).isSome = true := by
  have settled := settled_of_run run
  constructor
  · intro channel there
    have watched := settled.tended.watched channel there
    refine ⟨watched.single, fun reads => ?_⟩
    have ready : Ready s.conn := by
      rcases reads with ⟨on, bound⟩ | ⟨on, bound⟩
      · exact watched.reading on bound
      · exact watched.writing on bound
    refine ⟨ready.handled, fun a answerable => ?_⟩
    obtain ⟨o, done, _⟩ := @Settled.handle s a .readHandle settled (by rw [there]; rfl)
      fun _ => ⟨ready, answerable⟩
    exact Option.isSome_iff_exists.mpr ⟨o, done⟩
  · intro events answers genuine
    obtain ⟨s', done, _⟩ := settled.dispatched genuine.1 genuine.2
    exact Option.isSome_iff_exists.mpr ⟨s', done⟩

/-- The first bytes of a client of an HTTPS server; the handshake has to write. -/
def handshaking : ConnectionEvent :=
  .dispatched ⟨true, false, false, false, false⟩ fun _ => { ConnectionFactory.silent with
    prepared := true
    accepted := .sctxIoRecall .socketEventWrite }

/-- A handshake that has to write waits for the socket to be writeable. -/
theorem read_loop_handled_handshake : ∃ s channel,
    (start 1 ConnectionFactory.httpsServer (fun _ => 0) 5).step handshaking = some s ∧
      s.conn.sock.channelptr = some channel ∧ channel.writeFlag = true ∧
        channel.writeableCb = some .readHandle ∧ channel.readFlag = false ∧
          Handled s.conn.state := by
  obtain ⟨s, channel, steps, there, on, bound⟩ : ∃ s channel,
      (start 1 ConnectionFactory.httpsServer (fun _ => 0) 5).step handshaking = some s ∧
        s.conn.sock.channelptr = some channel ∧ channel.writeFlag = true ∧
          channel.writeableCb = some .readHandle := ⟨_, _, rfl, rfl, rfl, rfl⟩
  have genuine : Genuine (start 1 ConnectionFactory.httpsServer (fun _ => 0) 5) handshaking :=
    ⟨⟨_, rfl, fun _ => rfl, fun on => nomatch on⟩, fun _ => ⟨fun _ _ => rfl, trivial⟩⟩
  obtain ⟨single, handled⟩ :=
    (read_loop_handled (Reaches.start.next genuine steps)).1 channel there
  have off : channel.readFlag = false := by
    by_contra reads
    exact single ⟨Bool.eq_true_of_not_eq_false reads, on⟩
  exact ⟨s, channel, steps, there, on, bound, off, (handled (Or.inr ⟨on, bound⟩)).1⟩

end ServedConnection
