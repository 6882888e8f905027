import Tigerso.ConnectionFactory

/-!
# What a handler does to the client socket and to the queues

A handler keeps the client, or closes its socket and pushes the connection's identifier
once; only a timeout closes the socket and pushes nothing.
-/

open SystemCalls

namespace HttpConnection

/-- The client socket is open, and its callbacks are registered. -/
structure Connected (sock : NetSocket HttpHandler) : Prop where
  opened : sock.sockfd.isSome = true
  registered : sock.channelptr.isSome = true

/-- A client is served: a handshake goes on with a context. -/
structure Live (c : HttpConnection) : Prop where
  connected : Connected c.sock
  secured : c.state = .httpsHandshake → c.sock.active = true

/-- The client socket is closed, and no callback is left on it. -/
structure Gone (c : HttpConnection) : Prop where
  closed : c.sock.sockfd = none
  unregistered : c.sock.channelptr = none

/-- The connection waits for a client. -/
structure Idle (c : HttpConnection) : Prop where
  gone : Gone c
  state : c.state = .tcpInit

/-- The same object, linked to the same acceptor. -/
structure Same (c c' : HttpConnection) : Prop where
  id_ : c'.id_ = c.id_
  acptptr : c'.acptptr = c.acptptr

/-- How a handler leaves a client that it was called for. -/
inductive Settled (c : HttpConnection) (gc : Gc) (o : Outcome) : Prop
  | kept (same : Same c o.conn) (live : Live o.conn)
      (fd : o.conn.sock.sockfd = c.sock.sockfd) (queues : o.gc = gc)
  | recycled (same : Same c o.conn) (idle : Idle o.conn) (queues : o.gc = c.push gc)

section
variable {c c' : HttpConnection} {gc : Gc} {o : Outcome} {a : Answers}

/-- What is changed before a handler goes on makes no difference. -/
theorem Settled.of_same (settled : Settled c' gc o) (same : Same c c')
    (fd : c'.sock.sockfd = c.sock.sockfd) : Settled c gc o := by
  cases settled with
  | kept same' live fd' queues =>
    exact .kept ⟨same'.id_.trans same.id_, same'.acptptr.trans same.acptptr⟩ live
      (fd'.trans fd) queues
  | recycled same' idle queues =>
    refine .recycled ⟨same'.id_.trans same.id_, same'.acptptr.trans same.acptptr⟩ idle ?_
    rw [queues, push, push, getType, getType, same.id_, same.acptptr]

theorem waitFor_live {handler : HttpHandler} {event : SocketEvent} (live : Live c) :
    Live (c.waitFor handler event) :=
  ⟨⟨by simpa [waitFor] using live.connected.opened,
      by simpa [waitFor] using live.connected.registered⟩,
    fun state => by simpa [waitFor] using live.secured state⟩

/-- The socket stays open only when the SSL context puts the closing off. -/
theorem closeHandle_settled (there : Connected c.sock) : Settled c gc (closeHandle a c gc) := by
  rcases c.sock.close_cases a.shutdown with ⟨event, active, _, waits⟩ | ⟨_, closed⟩
  · have still : tigersoIoError ≠ 0 ∧ ({ c.sock with serrno := event }).isSSL = true :=
      ⟨by decide, active⟩
    simp only [closeHandle, waits]
    rw [if_pos still]
    exact .kept ⟨rfl, rfl⟩ (waitFor_live ⟨⟨there.opened, there.registered⟩, fun _ => active⟩)
      (by simp [waitFor]) rfl
  · simp only [closeHandle, closed]
    rw [if_neg fun still => still.1 rfl]
    exact .recycled ⟨rfl, rfl⟩ ⟨⟨rfl, rfl⟩, rfl⟩ rfl

/-- The connection was changed in ways that do not matter here. -/
theorem closeHandle_settled_from (there : Connected c.sock) (same : Same c c')
    (fd : c'.sock.sockfd = c.sock.sockfd)
    (channel : c'.sock.channelptr.isSome = c.sock.channelptr.isSome) :
    Settled c gc (closeHandle a c' gc) := by
  refine (closeHandle_settled ⟨?_, ?_⟩).of_same same fd
  · rw [fd]
    exact there.opened
  · rw [channel]
    exact there.registered

theorem afterFailure_same (sock : NetSocket HttpHandler) (kept : Option SocketEvent) :
    (afterFailure sock kept).sockfd = sock.sockfd ∧
      (afterFailure sock kept).channelptr = sock.channelptr := by
  rw [afterFailure]
  split
  · exact ⟨rfl, rfl⟩
  · exact ⟨rfl, rfl⟩

/-- The outcome leaves the client where it was. -/
structure Kept (c : HttpConnection) (gc : Gc) (c' : HttpConnection) (gc' : Gc) : Prop where
  same : Same c c'
  live : Live c'
  fd : c'.sock.sockfd = c.sock.sockfd
  queues : gc' = gc

theorem Kept.settled (kept : Kept c gc o.conn o.gc) : Settled c gc o :=
  .kept kept.same kept.live kept.fd kept.queues

theorem Settled.after {c₁ : HttpConnection} {gc₁ : Gc} (settled : Settled c₁ gc₁ o)
    (kept : Kept c gc c₁ gc₁) : Settled c gc o := by
  rw [kept.queues] at settled
  exact settled.of_same kept.same kept.fd

/-- With a context the handshake goes on, waits, or closes the socket. -/
theorem sslHandShake_settled (live : Live c) (active : c.sock.active = true) :
    Settled c gc (sslHandShake a c gc) ∧
      ((sslHandShake a c gc).ret = tigersoIoOk →
        Kept c gc (sslHandShake a c gc).conn (sslHandShake a c gc).gc) := by
  have ssl : (!c.sock.isSSL) = false := by
    rw [NetSocket.isSSL, active]
    rfl
  rw [sslHandShake, ssl, if_neg Bool.false_ne_true]
  cases a.accepted with
  | sctxIoOk =>
    have kept : Kept c gc { c with
        state := .httpsHandshakeDone
        sock := (c.sock.disableWriteEvent.setEventHandle .readHandle
          .socketEventRead).enableReadEvent } gc :=
      ⟨⟨rfl, rfl⟩, ⟨⟨by simpa using live.connected.opened,
          by simpa using live.connected.registered⟩, nofun⟩, by simp,
        rfl⟩
    exact ⟨Kept.settled kept, fun _ => kept⟩
  | sctxIoRecall waits =>
    have connected : Connected { c.sock with serrno := waits } :=
      ⟨live.connected.opened, live.connected.registered⟩
    refine ⟨.kept ⟨rfl, rfl⟩ (waitFor_live ⟨connected, fun _ => active⟩)
      (by simp [waitFor]) rfl, fun done => ?_⟩
    exact absurd done (show ¬ tigersoIoRecall = tigersoIoOk by decide)
  | sctxIoError =>
    have closed := @closeHandle_settled_from c { c with sock := c.sock.destory } gc a live.connected
      ⟨rfl, rfl⟩ rfl rfl
    refine ⟨?_, fun done => absurd done (show ¬ tigersoIoError = tigersoIoOk by decide)⟩
    cases closed with
    | kept same live fd queues => exact .kept same live fd queues
    | recycled same idle queues => exact .recycled same idle queues

theorem recvFailed_settled (there : Connected c.sock) : Settled c gc (recvFailed a c gc) := by
  have quiet := @closeHandle_settled_from c
    { c with sock := c.sock.disableReadEvent.disableWriteEvent } gc a there ⟨rfl, rfl⟩ (by simp)
    (by simp)
  rw [recvFailed]
  split_ifs with ssl
  · split
    · exact quiet
    · rename_i event _
      refine .kept ⟨rfl, rfl⟩ ⟨⟨?_, ?_⟩, ?_⟩ ?_ rfl
      · simpa using there.opened
      · simpa using there.registered
      · intro _
        simpa using ssl
      · simp
  · exact closeHandle_settled there

theorem attachResponse_kept (live : Live c) : Kept c gc c.attachResponse gc :=
  ⟨⟨rfl, rfl⟩, ⟨⟨by simpa [attachResponse] using live.connected.opened,
    by simpa [attachResponse] using live.connected.registered⟩,
    fun state => by simpa [attachResponse] using live.secured state⟩, by simp [attachResponse], rfl⟩

theorem recvRequestDone_settled (live : Live c) (done : recvRequestDone a c gc = some o) :
    Settled c gc o := by
  rw [recvRequestDone] at done
  obtain ⟨response, _, done⟩ := Option.bind_eq_some_iff.mp done
  obtain rfl := Option.some.inj done
  have answered : Live { c with response := response } := ⟨live.connected, live.secured⟩
  have kept := @attachResponse_kept { c with response := response } gc answered
  have sent : Live { { c with response := response }.attachResponse with
      state := .sendResponse } := by
    constructor
    · exact kept.live.connected
    · intro state
      cases state
  exact Settled.kept ⟨rfl, rfl⟩ sent kept.fd rfl

theorem badRequest_settled (live : Live c) (done : badRequest c gc = some o) : Settled c gc o := by
  rw [badRequest] at done
  obtain ⟨response, _, done⟩ := Option.bind_eq_some_iff.mp done
  obtain rfl := Option.some.inj done
  have answered : Live { c with response := response } := ⟨live.connected, live.secured⟩
  have kept := @attachResponse_kept { c with response := response } gc answered
  exact Settled.kept ⟨rfl, rfl⟩ kept.live kept.fd rfl

theorem parseRequest_settled {data : Bytes} (live : Live c)
    (done : parseRequest a data c gc = some o) : Settled c gc o := by
  rw [parseRequest] at done
  obtain ⟨⟨parsedn, parser, request⟩, _, done⟩ := Option.bind_eq_some_iff.mp done
  have kept : Kept c gc { c with parser := parser, request := request } gc :=
    ⟨⟨rfl, rfl⟩, ⟨live.connected, live.secured⟩, rfl, rfl⟩
  simp only at done
  split_ifs at done
  · exact (badRequest_settled kept.live done).after kept
  · cases done
    exact kept.settled
  · exact (@recvRequestDone_settled
      { c with parser := parser, request := request, state := .recvRequestDone } gc o a
      ⟨live.connected, nofun⟩ done).of_same ⟨rfl, rfl⟩ rfl

theorem afterFailure_settled (there : Connected c.sock) {kept : Option SocketEvent}
    (fail : Answers → HttpConnection → Gc → Outcome)
    (settles : ∀ c', Connected c'.sock → Settled c' gc (fail a c' gc)) :
    Settled c gc (fail a { c with sock := afterFailure c.sock kept } gc) := by
  obtain ⟨fd, channel⟩ := afterFailure_same c.sock kept
  refine (settles _ ⟨?_, ?_⟩).of_same ⟨rfl, rfl⟩ fd
  · rw [fd]
    exact there.opened
  · rw [channel]
    exact there.registered

theorem recvRequest_settled (live : Live c) (done : recvRequest a c gc = some o) :
    Settled c gc o := by
  have opened : (!c.sock.exist) = false := by
    rw [NetSocket.exist, live.connected.opened]
    rfl
  rw [recvRequest, opened, if_neg Bool.false_ne_true] at done
  split at done
  · cases done
    exact afterFailure_settled live.connected recvFailed fun _ there => recvFailed_settled there
  · split_ifs at done
    · cases done
      exact closeHandle_settled live.connected
    · cases done
      refine .kept ⟨rfl, rfl⟩ ⟨⟨?_, ?_⟩, ?_⟩ ?_ rfl
      · simpa using live.connected.opened
      · simpa using live.connected.registered
      · simpa using live.secured
      · simp
  · exact parseRequest_settled live done

theorem httpsHandshake_settled (live : Live c) (active : c.sock.active = true)
    (done : httpsHandshake a c gc = some o) : Settled c gc o := by
  obtain ⟨settled, going⟩ := @sslHandShake_settled c gc a live active
  rw [httpsHandshake] at done
  by_cases ok : (sslHandShake a c gc).ret = tigersoIoOk
  · rw [if_neg (not_not.mpr ok)] at done
    have kept := going ok
    exact (@recvRequest_settled { (sslHandShake a c gc).conn with state := .recvRequest } _ _ a
      ⟨kept.live.connected, nofun⟩ done).after
        ⟨⟨kept.same.id_, kept.same.acptptr⟩, ⟨kept.live.connected, nofun⟩, kept.fd, kept.queues⟩
  · rw [if_pos ok] at done
    cases done
    cases settled with
    | kept same live fd queues => exact .kept same live fd queues
    | recycled same idle queues => exact .recycled same idle queues

/-- Behind every call of the handler the connection waits for an event or is recycled. -/
theorem readHandle_settled (live : Live c)
    (prepared : c.state = .tcpInit → c.acptptr.sslEnabled = true → a.prepared = true)
    (done : readHandle a c gc = some o) : Settled c gc o := by
  have receiving : Live { c with state := .recvRequest } := ⟨live.connected, nofun⟩
  rw [readHandle] at done
  cases state : c.state with
  | tcpInit =>
    rw [state, tcpInit] at done
    split_ifs at done with enabled
    · have granted := prepared state enabled
      have secured : Live { c with
          sock := c.sock.prepareSSLContext a.prepared
          state := .httpsHandshake } :=
        ⟨⟨live.connected.opened, live.connected.registered⟩, fun _ => granted⟩
      exact (httpsHandshake_settled secured granted done).of_same ⟨rfl, rfl⟩ rfl
    · exact (recvRequest_settled receiving done).of_same ⟨rfl, rfl⟩ rfl
  | httpsHandshake =>
    rw [state] at done
    exact httpsHandshake_settled live (live.secured state) done
  | httpsHandshakeDone =>
    rw [state] at done
    exact (recvRequest_settled receiving done).of_same ⟨rfl, rfl⟩ rfl
  | recvRequest =>
    rw [state] at done
    exact recvRequest_settled live done
  | recvRequestDone =>
    rw [state] at done
    exact recvRequestDone_settled live done
  | sendResponse =>
    rw [state] at done
    exact nomatch done
  | sendResponseDone =>
    rw [state] at done
    exact nomatch done

theorem sendFailed_settled (there : Connected c.sock) : Settled c gc (sendFailed a c gc) := by
  have quiet := @closeHandle_settled_from c
    { c with sock := c.sock.disableReadEvent.disableWriteEvent } gc a there ⟨rfl, rfl⟩ (by simp)
    (by simp)
  rw [sendFailed]
  split_ifs with ssl
  · split
    · exact quiet
    · have live : Live c := ⟨there, fun _ => ssl⟩
      exact .kept ⟨rfl, rfl⟩ (waitFor_live live) (by simp [waitFor]) rfl
  · exact closeHandle_settled there

theorem writeHandle_settled (live : Live c) : Settled c gc (writeHandle a c gc) := by
  have opened : (!c.sock.exist) = false := by
    rw [NetSocket.exist, live.connected.opened]
    rfl
  rw [writeHandle, opened, if_neg Bool.false_ne_true]
  split
  · exact afterFailure_settled live.connected sendFailed fun _ there => sendFailed_settled there
  · exact .kept ⟨rfl, rfl⟩ live rfl rfl
  · rw [sendDone]
    split_ifs
    · refine .kept ⟨rfl, rfl⟩ ⟨⟨?_, ?_⟩, nofun⟩ ?_ rfl
      · simpa [resetResources] using live.connected.opened
      · simpa [resetResources] using live.connected.registered
      · simp [resetResources]
    · exact (@closeHandle_settled { c with state := .sendResponseDone } gc a
        live.connected).of_same ⟨rfl, rfl⟩ rfl

/-- A handler other than the one of timeouts keeps the client, or closes its socket and
pushes the identifier once. -/
theorem handle_settled {handler : HttpHandler} (live : Live c)
    (prepared : handler = .readHandle → c.state = .tcpInit → c.acptptr.sslEnabled = true →
      a.prepared = true)
    (other : handler ≠ .timeoutHandle) (done : c.handle handler a gc = some o) :
    Settled c gc o := by
  cases handler with
  | readHandle => exact readHandle_settled live (prepared rfl) done
  | writeHandle =>
    cases done
    exact writeHandle_settled live
  | errorHandle =>
    cases done
    exact closeHandle_settled live.connected
  | rdhupHandle =>
    cases done
    exact closeHandle_settled live.connected
  | timeoutHandle => exact absurd rfl other
  | closeHandle =>
    cases done
    exact closeHandle_settled live.connected

end

end HttpConnection
