import Tigerso.ConnectionRecycling
import Tigerso.ProxyMachine
import Tigerso.ServedConnection

/-!
# The peer's FIN and the last bytes

`waitChannel` tests for the FIN, for a hang-up and for an error before it tests for bytes. The
connections close their sockets in the first three.
-/

open SystemCalls CallbackDispatch

namespace NetSocket
variable {H : Type} {s : NetSocket H}

def callback (s : NetSocket H) (kind : CallbackKind) : Option H :=
  s.channelptr.bind fun channel => channel.callback kind

/-- The socket is open, and its channel calls these handlers for an error and for a FIN. -/
structure Attached (error rdhup : H) (s : NetSocket H) : Prop where
  opened : s.exist = true
  error : s.callback .error = some error
  rdhup : s.callback .rdhup = some rdhup

theorem switchEvent_callback (event : SocketEvent) (on : Bool) (kind : CallbackKind) :
    (s.switchEvent event on).callback kind = s.callback kind := by
  rw [switchEvent]
  split_ifs
  · rw [callback, callback]
    cases s.channelptr with
    | none => rfl
    | some channel =>
      cases event with
      | socketEventNone => rfl
      | socketEventRead => cases kind <;> rfl
      | socketEventWrite => cases kind <;> rfl
  · rfl

/-- A handler for reading or writing leaves the other callbacks alone. -/
theorem setEventHandle_callback (func : H) {event : SocketEvent} {kind : CallbackKind}
    (other : kind = .readable → event ≠ .socketEventRead)
    (other' : kind = .writeable → event ≠ .socketEventWrite) :
    (s.setEventHandle func event).callback kind = s.callback kind := by
  rw [setEventHandle, callback, callback]
  cases s.channelptr with
  | none => rfl
  | some channel =>
    cases event with
    | socketEventNone => rfl
    | socketEventRead =>
      cases kind with
      | readable => exact absurd rfl (other rfl)
      | _ => rfl
    | socketEventWrite =>
      cases kind with
      | writeable => exact absurd rfl (other' rfl)
      | _ => rfl

theorem setEventHandle_readable (func : H) {before : H} (bound : s.callback .error = some before) :
    (s.setEventHandle func .socketEventRead).callback .readable = some func := by
  rw [callback] at bound
  rw [setEventHandle, callback]
  cases channels : s.channelptr with
  | none =>
    rw [channels] at bound
    cases bound
  | some channel => rfl

theorem setHandles_attached (opened : s.exist = true) (registered : s.channelptr.isSome = true)
    (read error rdhup timeout : H) :
    Attached error rdhup (s.setHandles read error rdhup timeout) := by
  obtain ⟨channel, there⟩ := Option.isSome_iff_exists.mp registered
  have bound : (s.setHandles read error rdhup timeout).channelptr = some { channel with
      readableCb := some read
      errorCb := some error
      rdhupCb := some rdhup
      timeoutCb := some timeout } := by
    rw [setHandles, there]
    rfl
  exact ⟨opened, by rw [callback, bound]; rfl, by rw [callback, bound]; rfl⟩

theorem Attached.switchEvent {error rdhup : H} (attached : Attached error rdhup s)
    (event : SocketEvent) (on : Bool) : Attached error rdhup (s.switchEvent event on) where
  opened := (switchEvent_kept event on).exist.trans attached.opened
  error := (switchEvent_callback event on .error).trans attached.error
  rdhup := (switchEvent_callback event on .rdhup).trans attached.rdhup

/-- `registerChannel` of a socket that was opened. -/
theorem registerChannel_opened (s : NetSocket H) (fd : Nat) :
    ({ s with sockfd := some fd } : NetSocket H).registerChannel.exist = true ∧
      ({ s with sockfd := some fd } : NetSocket H).registerChannel.channelptr.isSome = true := by
  have registered : ({ s with sockfd := some fd } : NetSocket H).registerChannel =
      { s with sockfd := some fd, channelptr := some (s.channelptr.getD newChannel) } := if_pos rfl
  rw [registered]
  exact ⟨rfl, rfl⟩

end NetSocket

namespace HttpConnection
open NetSocket

variable {c : HttpConnection} {gc : Gc} {a : Answers}

/-- The acceptor binds the handlers. -/
theorem acceptClient_attached (c : HttpConnection) (fd : Nat) :
    Attached .errorHandle .rdhupHandle (ConnectionFactory.acceptClient fd c).sock := by
  obtain ⟨opened, registered⟩ := registerChannel_opened c.sock fd
  exact (setHandles_attached opened registered .readHandle .errorHandle .rdhupHandle
    .timeoutHandle).switchEvent .socketEventRead true

/-- The closing is put off when `SSL_shutdown` has to be called again. -/
theorem closeHandle_waits {event : SocketEvent} (active : c.sock.active = true)
    (waits : a.shutdown = some event) : closeHandle a c gc = ⟨eventCallbackContinue,
      { c with sock := { c.sock with serrno := event } }.waitFor .closeHandle event, gc⟩ := by
  have closing : c.sock.close a.shutdown =
      (tigersoIoError, { c.sock with serrno := event }) := by
    rw [NetSocket.close, NetSocket.isSSL, if_pos active, waits]
  have wanted : ({ c.sock with serrno := event } : NetSocket HttpHandler).wanted = event :=
    if_pos active
  rw [closeHandle, closing]
  dsimp only
  rw [wanted]
  exact if_pos ⟨by decide, active⟩

theorem closeHandle_closes (done : c.sock.active = false ∨ a.shutdown = none) :
    (closeHandle a c gc).ret = eventCallbackBreak := by
  have closing : c.sock.close a.shutdown = (0, c.sock.tcpClose) := by
    rcases NetSocket.close_cases c.sock a.shutdown with ⟨event, active, waits, _⟩ | ⟨_, closed⟩
    · rcases done with off | none_
      · exact absurd (off.symm.trans active) Bool.false_ne_true
      · exact nomatch none_.symm.trans waits
    · exact closed
  rw [closeHandle, closing]
  rfl

/-- What is bound while the closing waits. -/
theorem waitFor_attached (attached : Attached .errorHandle .rdhupHandle c.sock)
    (event : SocketEvent) :
    Attached .errorHandle .rdhupHandle (c.waitFor .closeHandle event).sock ∧
      (c.waitFor .closeHandle event).sock.active = c.sock.active ∧
      (c.waitFor .closeHandle event).sock.callback .readable =
        if event = .socketEventRead then some .closeHandle else c.sock.callback .readable := by
  have same (kind : CallbackKind) : c.sock.disableReadEvent.disableWriteEvent.callback kind =
      c.sock.callback kind := (switchEvent_callback _ _ kind).trans (switchEvent_callback _ _ kind)
  have others (kind : CallbackKind) (other : kind ≠ .writeable)
      (reading : kind = .readable → event ≠ .socketEventRead) :
      (c.waitFor .closeHandle event).sock.callback kind = c.sock.callback kind :=
    (switchEvent_callback ..).trans ((setEventHandle_callback .closeHandle reading
      fun writing => absurd writing other).trans (same kind))
  have kept : NetSocket.Kept c.sock (c.waitFor .closeHandle event).sock :=
    (quiet_kept.trans (setEventHandle_kept _ _)).trans (enableEvent_kept _)
  have error := others .error (by decide) fun reading => by cases reading
  have rdhup := others .rdhup (by decide) fun reading => by cases reading
  refine ⟨⟨kept.exist.trans attached.opened, error.trans attached.error,
    rdhup.trans attached.rdhup⟩, ?_, ?_⟩
  · rw [waitFor]
    simp
  · split_ifs with reading
    · rw [reading]
      exact (switchEvent_callback ..).trans
        (setEventHandle_readable .closeHandle ((same .error).trans attached.error))
    · exact others .readable (by decide) fun _ => reading

end HttpConnection

namespace ServedConnection

def closings : List Stage := [.rdhup, .hup, .error]

/-- The callback that is bound for reading is called, and finds the socket open. -/
def ReadsFirst (s : ServedConnection) (events : EventMask) (answers : Stage → Answers) : Prop :=
  ∃ handler, s.bound .readable = some handler ∧
    CallsAt bound (invoke answers) events .readable handler (fun s => s.conn.sock.exist = true)
      stages s

/-- `SSL_shutdown` has to be called again, and the callback for reading stays what it was. -/
def PutOff (s : ServedConnection) (answers : Stage → Answers) (handler : HttpHandler)
    (stage : Stage) : Prop :=
  s.conn.sock.active = true ∧ ∃ event, (answers stage).shutdown = some event ∧
    (event = .socketEventRead → handler = .closeHandle)

variable {s : ServedConnection} {events : EventMask} {answers : Stage → Answers} {stage : Stage}
  {handler : HttpHandler} {rest : List Stage}

open NetSocket (Attached)

theorem called_closing (attached : Attached .errorHandle .rdhupHandle s.conn.sock)
    (closing : stage ∈ closings) (wanted : EventsLoop.wanted events stage = true) :
    ∃ h, called bound events stage s = some h ∧ invoke answers stage h s =
      some ((HttpConnection.closeHandle (answers stage) s.conn s.gc).ret,
        ⟨(HttpConnection.closeHandle (answers stage) s.conn s.gc).conn,
          (HttpConnection.closeHandle (answers stage) s.conn s.gc).gc⟩) := by
  have error : s.bound .error = some .errorHandle := attached.error
  have rdhup : s.bound .rdhup = some .rdhupHandle := attached.rdhup
  rw [called, if_pos wanted]
  rcases List.mem_cons.mp closing with rfl | closing
  · exact ⟨.rdhupHandle, rdhup, rfl⟩
  · rcases List.mem_cons.mp closing with rfl | closing
    · exact ⟨.errorHandle, error, rfl⟩
    · rw [List.mem_singleton.mp closing]
      exact ⟨.errorHandle, error, rfl⟩

def deferred (s : ServedConnection) (event : SocketEvent) : ServedConnection :=
  { s with
    conn := HttpConnection.waitFor { s.conn with sock := { s.conn.sock with serrno := event } }
      .closeHandle event }

theorem deferred_attached (attached : Attached .errorHandle .rdhupHandle s.conn.sock)
    (event : SocketEvent) : Attached .errorHandle .rdhupHandle (s.deferred event).conn.sock ∧
      (s.deferred event).conn.sock.active = s.conn.sock.active ∧
      (s.deferred event).bound .readable =
        if event = .socketEventRead then some .closeHandle else s.bound .readable := by
  have still : Attached .errorHandle .rdhupHandle { s.conn.sock with serrno := event } :=
    ⟨attached.opened, attached.error, attached.rdhup⟩
  exact HttpConnection.waitFor_attached
    (c := { s.conn with sock := { s.conn.sock with serrno := event } }) still event

/-- What a call at the test for bytes asks of a test that closes. -/
theorem reads_closing (attached : Attached .errorHandle .rdhupHandle s.conn.sock)
    (closing : stage ∈ closings) {there : ServedConnection → Prop} :
    CallsAt bound (invoke answers) events .readable handler there (stage :: rest) s ↔
      if EventsLoop.wanted events stage = true then
        ∃ event, s.conn.sock.active = true ∧ (answers stage).shutdown = some event ∧
          CallsAt bound (invoke answers) events .readable handler there rest (s.deferred event)
      else CallsAt bound (invoke answers) events .readable handler there rest s := by
  split_ifs with wanted
  · have other : stage ≠ .readable := by
      rintro rfl
      exact absurd closing (by decide)
    obtain ⟨h, here, invoked⟩ :=
      @called_closing s events answers stage attached closing wanted
    rw [callsAt_calls here invoked other]
    by_cases waits : ∃ event, s.conn.sock.active = true ∧ (answers stage).shutdown = some event
    · obtain ⟨event, active, again⟩ := waits
      rw [HttpConnection.closeHandle_waits active again]
      constructor
      · rintro ⟨_, later⟩
        exact ⟨event, active, again, later⟩
      · rintro ⟨event', _, again', later⟩
        obtain rfl := Option.some.inj (again.symm.trans again')
        have goes : ¬ Leaves eventCallbackContinue := by decide
        exact ⟨goes, later⟩
    · have closes := @HttpConnection.closeHandle_closes s.conn s.gc (answers stage) (by
        cases active : s.conn.sock.active with
        | false => exact Or.inl rfl
        | true =>
          cases again : (answers stage).shutdown with
          | none => exact Or.inr rfl
          | some event => exact absurd ⟨event, active, again⟩ waits)
      refine iff_of_false (fun both => both.1 (Or.inl closes)) ?_
      rintro ⟨event, active, again, _⟩
      exact waits ⟨event, active, again⟩
  · have none_ : called bound events stage s = none := if_neg wanted
    exact callsAt_passes none_

/-- Once a closing waits for bytes, the callback for reading is the one that closes. -/
theorem not_reads_deferred (attached : Attached .errorHandle .rdhupHandle s.conn.sock)
    (bound_ : s.bound .readable = some .closeHandle) (other : handler ≠ .closeHandle)
    {there : ServedConnection → Prop} (left : ∀ stage ∈ rest, stage ∈ closings) :
    ¬ CallsAt bound (invoke answers) events .readable handler there
      (rest ++ [.readable, .writeable, .after]) s := by
  induction rest generalizing s with
  | nil =>
    rw [List.nil_append, callsAt_here (by decide)]
    rintro ⟨here, _⟩
    obtain ⟨_, kind, same, bound'⟩ := called_some here
    obtain rfl := Option.some.inj same
    exact other (Option.some.inj (bound'.symm.trans bound_))
  | cons stage rest ih =>
    have left' := fun stage inside => left stage (List.mem_cons_of_mem _ inside)
    rw [List.cons_append, reads_closing attached (left stage List.mem_cons_self)]
    split_ifs
    · rintro ⟨event, active, _, later⟩
      obtain ⟨attached, _, bound'⟩ := deferred_attached attached event
      refine ih attached (bound'.trans ?_) left' later
      split_ifs
      · rfl
      · exact bound_
    · exact ih attached bound_ left'

/-- The callback for reading is called when every closing is put off. -/
theorem reads_iff (attached : Attached .errorHandle .rdhupHandle s.conn.sock)
    (bound_ : s.bound .readable = some handler) (arrives : events.epollIn = true)
    (left : ∀ stage ∈ rest, stage ∈ closings) :
    CallsAt bound (invoke answers) events .readable handler (fun s => s.conn.sock.exist = true)
        (rest ++ [.readable, .writeable, .after]) s ↔
      ∀ stage ∈ rest, EventsLoop.wanted events stage = true → s.PutOff answers handler stage := by
  induction rest generalizing s with
  | nil =>
    rw [List.nil_append, callsAt_here (by decide)]
    refine iff_of_true ⟨?_, attached.opened⟩ fun stage inside => nomatch inside
    exact (if_pos arrives).trans bound_
  | cons stage rest ih =>
    have left' := fun stage inside => left stage (List.mem_cons_of_mem _ inside)
    rw [List.cons_append, reads_closing attached (left stage List.mem_cons_self),
      List.forall_mem_cons]
    split_ifs with wanted
    · constructor
      · rintro ⟨event, active, again, later⟩
        obtain ⟨attached', same, bound'⟩ := deferred_attached attached event
        by_cases stays : event = .socketEventRead → handler = .closeHandle
        · have bound' : (s.deferred event).bound .readable = some handler := by
            rw [bound', bound_]
            split_ifs with reading
            · rw [stays reading]
            · rfl
          refine ⟨fun _ => ⟨active, event, again, stays⟩, fun stage' inside wanted' => ?_⟩
          have put := (ih attached' bound' left').mp later stage' inside wanted'
          exact ⟨active, put.2⟩
        · obtain ⟨reading, other⟩ := Classical.not_imp.mp stays
          rw [if_pos reading] at bound'
          exact absurd later (not_reads_deferred attached' bound' other left')
      · rintro ⟨first, later⟩
        obtain ⟨active, event, again, stays⟩ := first wanted
        obtain ⟨attached', same, bound'⟩ := deferred_attached attached event
        have bound' : (s.deferred event).bound .readable = some handler := by
          rw [bound', bound_]
          split_ifs with reading
          · rw [stays reading]
          · rfl
        refine ⟨event, active, again, (ih attached' bound' left').mpr ?_⟩
        intro stage' inside wanted'
        obtain ⟨_, put⟩ := later stage' inside wanted'
        exact ⟨same.trans active, put⟩
    · rw [ih attached bound_ left']
      exact ⟨fun all => ⟨fun wanted' => absurd wanted' wanted, all⟩, And.right⟩

/-- The connection reads before it closes exactly when OpenSSL puts every closing off. -/
theorem readsFirst_iff (attached : Attached .errorHandle .rdhupHandle s.conn.sock)
    (arrives : events.epollIn = true) : s.ReadsFirst events answers ↔
      ∃ handler, s.bound .readable = some handler ∧
        ∀ stage ∈ closings, EventsLoop.wanted events stage = true →
          s.PutOff answers handler stage := by
  have first (handler : HttpHandler) (bound_ : s.bound .readable = some handler) :
      CallsAt bound (invoke answers) events .readable handler
          (fun s => s.conn.sock.exist = true) stages s ↔
        ∀ stage ∈ closings, EventsLoop.wanted events stage = true →
          s.PutOff answers handler stage := by
    rw [← reads_iff attached bound_ arrives fun _ => id]
    exact callsAt_passes (if_pos rfl)
  constructor
  · rintro ⟨handler, bound_, reads⟩
    exact ⟨handler, bound_, (first handler bound_).mp reads⟩
  · rintro ⟨handler, bound_, put⟩
    exact ⟨handler, bound_, (first handler bound_).mpr put⟩

end ServedConnection

namespace HttpProxyConnection
open NetSocket (Attached)

/-- The callbacks of the channel of a side. -/
def bound (side : Side) (c : HttpProxyConnection) (kind : CallbackKind) : Option ProxyHandler :=
  (c.socket side).callback kind

/-- The acceptor binds the handlers of the client. -/
theorem acceptClient_attached (c : HttpProxyConnection) (fd : Nat) :
    Attached .errorHandle .rdhupHandle (c.acceptClient fd).mClient := by
  obtain ⟨opened, registered⟩ := NetSocket.registerChannel_opened c.mClient fd
  exact (NetSocket.setHandles_attached opened registered .readHandle .errorHandle .rdhupHandle
    .timeoutHandle).switchEvent .socketEventRead true

/-- `serverConnectHandle` binds those of the server. -/
theorem connectServer_attached (c : HttpProxyConnection) (host : Bytes) (fd : Nat) :
    Attached .errorHandle .rdhupHandle (c.connectServer host (some (.opened fd))).2.mServer := by
  obtain ⟨opened, registered⟩ := NetSocket.registerChannel_opened c.mServer (c.descriptor fd)
  have kept := NetSocket.setEventHandle_kept
    (s := { c.mServer with sockfd := some (c.descriptor fd) }.registerChannel)
    ProxyHandler.writeHandle .socketEventWrite
  exact NetSocket.setHandles_attached (kept.exist.trans opened) (kept.channel.trans registered) ..

/-- What `SSLTunnelReadHandle` returns. -/
def tunnelRead (c : HttpProxyConnection) (side : Side) (r : Round) : Int :=
  let (recvn, c) := c.recvNIO side r.received
  if recvn < 0 then (c.closeHandle r.shutdown side).1 else eventCallbackContinue

/-- What `SSLTunnelWriteHandle` returns. -/
def tunnelWritten (c : HttpProxyConnection) (side : Side) (r : Round) : Int :=
  if (c.outBuffer side).readable = [] then eventCallbackContinue
  else
    let (sendn, c) := c.sendNIO side r.sent
    if sendn < 0 then (c.closeHandle r.shutdown side).1 else eventCallbackContinue

/-- The call of a handler with what it returns; `forceCloseProxy` and `forceCloseServer` return
zero. -/
def invoke (lib : ParserLib) (side : Side) (rounds : Stage → List Round) (stage : Stage)
    (handler : ProxyHandler) (c : HttpProxyConnection) : Option (Int × HttpProxyConnection) :=
  match handler with
  | .readHandle => rwEventHandle lib (rounds stage) c
  | .writeHandle => rwEventHandle lib (rounds stage) c
  | .errorHandle => some (0, c.forceClose side)
  | .rdhupHandle => some (0, c.forceClose side)
  | .timeoutHandle => some (0, c.forceClose side)
  | .closeHandle => (rounds stage).head?.map fun r => c.closeHandle r.shutdown side
  | .sslTunnelReadHandle => (rounds stage).head?.map fun r =>
      (c.tunnelRead side r, c.sslTunnelReadHandle side r)
  | .sslTunnelWriteHandle => (rounds stage).head?.map fun r =>
      (c.tunnelWritten side r, c.sslTunnelWriteHandle side r)

/-- The callback that is bound for reading is called, and finds the socket open. -/
def ReadsFirst (lib : ParserLib) (c : HttpProxyConnection) (side : Side) (events : EventMask)
    (rounds : Stage → List Round) : Prop :=
  ∃ handler, c.bound side .readable = some handler ∧
    CallsAt (bound side) (invoke lib side rounds) events .readable handler
      (fun c => (c.socket side).exist = true) stages c

variable {lib : ParserLib} {c : HttpProxyConnection} {side : Side} {events : EventMask}
  {rounds : Stage → List Round} {handler : ProxyHandler} {left : List Stage}

theorem forceCloseServer_detached (c : HttpProxyConnection) :
    (c.forceCloseServer.socket .server).channelptr = none ∧
      (c.forceCloseServer.socket .server).exist = false := by
  rw [forceCloseServer]
  split_ifs
  · exact ⟨rfl, rfl⟩
  · exact ⟨rfl, rfl⟩

/-- The socket is closed, and its channel unregistered. -/
theorem forceClose_detached (c : HttpProxyConnection) (side : Side) :
    ((c.forceClose side).socket side).channelptr = none ∧
      ((c.forceClose side).socket side).exist = false := by
  rw [forceClose]
  split_ifs with same
  · cases side with
    | server => exact forceCloseServer_detached _
    | client =>
      rw [forceCloseClient, forceCloseProxy, forceCloseServer]
      split_ifs
      · exact ⟨rfl, rfl⟩
      · exact ⟨rfl, rfl⟩
  · cases side with
    | server => exact forceCloseServer_detached c
    | client => exact absurd (beq_self_eq_true _) same

theorem called_detached (gone : (c.socket side).channelptr = none) (stage : Stage) :
    called (bound side) events stage c = none := by
  have none_ (kind : CallbackKind) : c.bound side kind = none := by
    rw [bound, NetSocket.callback, gone]
    rfl
  rw [called]
  split_ifs
  · cases callbackOf stage with
    | none => rfl
    | some kind => exact none_ kind
  · rfl

/-- Without a channel nothing more is called. -/
theorem dispatch_detached (gone : (c.socket side).channelptr = none) :
    traced (bound side) (invoke lib side rounds) events left c = ([], some c) := by
  induction left with
  | nil => rfl
  | cons stage rest ih =>
    rw [traced, called_detached gone]
    exact ih

/-- One callback is called, and it closes the socket. -/
theorem traced_shutdown (attached : Attached .errorHandle .rdhupHandle (c.socket side))
    (shut : events.epollRdhup = true ∨ events.epollHup = true) :
    ∃ stage handler, stage ∈ [Stage.rdhup, Stage.hup] ∧
      traced (bound side) (invoke lib side rounds) events stages c =
        ([(stage, handler, c)], some (c.forceClose side)) := by
  have error : c.bound side .error = some .errorHandle := attached.error
  have rdhup : c.bound side .rdhup = some .rdhupHandle := attached.rdhup
  have goes : ¬ Leaves 0 := by decide
  have closed {left : List Stage} :
      traced (bound side) (invoke lib side rounds) events left (c.forceClose side) =
        ([], some (c.forceClose side)) := dispatch_detached (forceClose_detached c side).1
  have before : called (bound side) events .before c = none := if_pos rfl
  rw [stages, traced, before]
  dsimp only
  by_cases first : events.epollRdhup = true
  · have here : called (bound side) events .rdhup c = some .rdhupHandle :=
      (if_pos first).trans rdhup
    refine ⟨.rdhup, .rdhupHandle, List.mem_cons_self, ?_⟩
    rw [traced, here]
    dsimp only [invoke]
    rw [if_neg goes, closed]
  · have skipped : called (bound side) events .rdhup c = none := if_neg first
    have second : events.epollHup = true := shut.resolve_left first
    have here : called (bound side) events .hup c = some .errorHandle := (if_pos second).trans error
    refine ⟨.hup, .errorHandle, List.mem_cons_of_mem _ List.mem_cons_self, ?_⟩
    rw [traced, skipped]
    dsimp only
    rw [traced, here]
    dsimp only [invoke]
    rw [if_neg goes, closed]

theorem not_readsFirst (attached : Attached .errorHandle .rdhupHandle (c.socket side))
    (shut : events.epollRdhup = true ∨ events.epollHup = true) :
    ¬ ReadsFirst lib c side events rounds := by
  rintro ⟨handler, _, c', inside, _⟩
  obtain ⟨stage, first, early, trace⟩ := @traced_shutdown lib c side events rounds attached shut
  rw [trace] at inside
  have same := (Prod.mk.inj (List.mem_singleton.mp inside)).1
  rw [← same] at early
  exact absurd early (by decide)

end HttpProxyConnection

namespace PeerShutdown
open NetSocket HttpConnection

def lastBytes (events : EventMask) : Prop :=
  events.epollIn = true ∧ (events.epollRdhup = true ∨ events.epollHup = true)

/-- A connection of the server reads the bytes first only while OpenSSL puts its closing off, and a
connection of the proxy closes the socket at once. -/
theorem reads_before_closing (s : ServedConnection) (answers : Stage → Answers) (lib : ParserLib)
    (c : HttpProxyConnection) (side : Side) (rounds : Stage → List Round) (events : EventMask)
    (served : Attached .errorHandle .rdhupHandle s.conn.sock)
    (proxied : Attached .errorHandle .rdhupHandle (c.socket side)) (last : lastBytes events) :
    (s.ReadsFirst events answers ↔ ∃ handler, s.bound .readable = some handler ∧
      ∀ stage ∈ ServedConnection.closings, EventsLoop.wanted events stage = true →
        s.PutOff answers handler stage) ∧
    ¬ c.ReadsFirst lib side events rounds ∧
    dispatch (HttpProxyConnection.bound side) (HttpProxyConnection.invoke lib side rounds)
      events stages c = some (c.forceClose side) ∧
    ((c.forceClose side).socket side).exist = false := by
  refine ⟨ServedConnection.readsFirst_iff served last.1,
    HttpProxyConnection.not_readsFirst proxied last.2, ?_,
    (HttpProxyConnection.forceClose_detached c side).2⟩
  obtain ⟨stage, handler, _, trace⟩ :=
    @HttpProxyConnection.traced_shutdown lib c side events rounds proxied last.2
  rw [← traced_dispatch, trace]

def finMask : EventMask := ⟨true, false, true, false, false⟩

def served : ServedConnection :=
  .start 1 ConnectionFactory.httpServer (fun _ => 0) 5

def proxied : HttpProxyConnection :=
  ((HttpProxyConnection.start 1 (fun _ => 0) 0 5).connectServer (literal "a")
    (some (.opened 7))).2

theorem served_attached : Attached .errorHandle .rdhupHandle served.conn.sock :=
  acceptClient_attached _ 5

theorem proxied_attached (side : Side) :
    Attached .errorHandle .rdhupHandle (proxied.socket side) := by
  cases side with
  | client => exact HttpProxyConnection.acceptClient_attached _ 5
  | server => exact HttpProxyConnection.connectServer_attached _ _ 7

/-- With TLS the closing may wait for the socket to become writeable, and the bytes are read. -/
theorem reads_before_closing_tls :
    ServedConnection.ReadsFirst
        { served with
          conn := { served.conn with sock := { served.conn.sock with active := true } } }
        finMask (fun _ => { ConnectionFactory.silent with
          shutdown := some .socketEventWrite }) ∧
      dispatch (HttpProxyConnection.bound .server)
        (HttpProxyConnection.invoke (HttpProxyConnection.recorded []) .server fun _ => []) finMask
        stages proxied = some (proxied.forceClose .server) := by
  obtain ⟨reads, _, closes, _⟩ := reads_before_closing
    { served with conn := { served.conn with sock := { served.conn.sock with active := true } } }
    (fun _ => { ConnectionFactory.silent with shutdown := some .socketEventWrite })
    (HttpProxyConnection.recorded []) proxied .server (fun _ => []) finMask ⟨rfl, rfl, rfl⟩
    (proxied_attached .server) ⟨rfl, Or.inl rfl⟩
  refine ⟨reads.mpr ⟨.readHandle, rfl, ?_⟩, closes⟩
  intro stage _ _
  exact ⟨rfl, .socketEventWrite, rfl, fun reading => nomatch reading⟩

/-- The bytes that come with the FIN of a client, or of the server of a proxy, are not read. -/
theorem last_bytes_lost :
    ¬ ServedConnection.ReadsFirst served finMask (fun _ => ConnectionFactory.silent) ∧
      ∀ side, ¬ HttpProxyConnection.ReadsFirst (HttpProxyConnection.recorded []) proxied side
        finMask fun _ => [] := by
  constructor
  · rw [ServedConnection.readsFirst_iff served_attached rfl]
    rintro ⟨handler, _, put⟩
    have off := (put .rdhup List.mem_cons_self rfl).1
    cases off
  · intro side
    exact HttpProxyConnection.not_readsFirst (proxied_attached side) (Or.inl rfl)

end PeerShutdown
