import Tigerso.MemoryBodies
import Tigerso.ProxyRuns
import Tigerso.RequestHost

/-!
# http/HttpProxyConnection: the loop ends

When nothing comes any more every round of the loop returns or goes on to a state of lower rank.
A round that bytes come in ends when their parsing does.
-/

open SystemCalls BodyAccumulation

namespace HttpProxyConnection
open HttpMessage HttpHelper GuardedRuns HttpBodyFile MessageObject

def isServerSocket (c : HttpProxyConnection) (side : Side) : Bool :=
  (c.socket side).sockfd == c.mServer.sockfd

/-- `closeHandle`, with at most so many calls of itself. -/
def closeCalls (shutdown : Side → Option SocketEvent) :
    Nat → HttpProxyConnection → Side → Option (Int × HttpProxyConnection)
  | 0, _, _ => none
  | calls + 1, c, side =>
    match closeSocket (c.socket side) (shutdown side) with
    | (false, sock) => some (eventCallbackContinue, c.onSocket side fun _ => sock)
    | (true, sock) =>
      let c := c.onSocket side fun _ => sock
      if c.closed then some (eventCallbackBreak, c.recycle)
      else if c.isClientSocket side then closeCalls shutdown calls c .server
      else if c.isServerSocket side then
        if !c.downstream.isSendDone then some (eventCallbackContinue,
          (c.enter .clientSendResponse).onSocket .client NetSocket.enableWriteEvent)
        else some (eventCallbackContinue, c.onSocket .client NetSocket.enableReadEvent)
      else some (eventCallbackContinue, c)

section
variable {c c' : HttpProxyConnection} {side : Side} {lib : ParserLib} {r : Round}

/-- The server's socket is not taken for the client's. -/
theorem isClientSocket_server (gone : c.mServer.sockfd = none) (other : ¬ c.closed = true) :
    c.isClientSocket .server = false := by
  have there : c.mClient.exist = true := by
    by_contra client
    have server : c.mServer.exist = false := congrArg Option.isSome gone
    rw [closed, Bool.eq_false_iff.mpr client, server] at other
    exact other rfl
  obtain ⟨fd, same⟩ := Option.isSome_iff_exists.mp there
  rw [isClientSocket, same]
  show (c.mServer.sockfd == some fd) = false
  rw [gone]
  rfl

/-- A server socket is closed at the first call. -/
theorem closeCalls_server (shutdown : Side → Option SocketEvent) (calls : Nat)
    (c : HttpProxyConnection) :
    closeCalls shutdown (calls + 1) c .server = some (c.closeServer shutdown) := by
  rw [closeCalls, closeServer, show c.socket .server = c.mServer from rfl]
  obtain ⟨s, eq, _⟩ | eq := closeSocket_cases c.mServer (shutdown .server)
  · rw [eq]
    rfl
  · rw [eq]
    have gone : (c.onSocket .server fun _ => c.mServer.tcpClose).mServer.sockfd = none := rfl
    have shape : { c with mServer := c.mServer.tcpClose } =
        c.onSocket .server fun _ => c.mServer.tcpClose := rfl
    dsimp only
    rw [shape]
    generalize (c.onSocket .server fun _ => c.mServer.tcpClose) = c at *
    have itself : c.isServerSocket .server = true := beq_self_eq_true _
    rw [serverClosed]
    by_cases closed : c.closed = true
    · rw [if_pos closed, if_pos closed]
    · have other : ¬ c.isClientSocket .server = true := by
        rw [isClientSocket_server gone closed]
        exact fun wrong => by cases wrong
      rw [if_neg closed, if_neg closed, if_neg other, if_pos itself]
      split_ifs
      · rfl
      · rfl

/-- `closeHandle` calls itself once at most. -/
theorem closeCalls_returns (shutdown : Side → Option SocketEvent) (calls : Nat)
    (c : HttpProxyConnection) (side : Side) :
    closeCalls shutdown (calls + 2) c side = some (c.closeHandle shutdown side) := by
  cases side with
  | server => exact closeCalls_server shutdown (calls + 1) c
  | client =>
    rw [closeCalls, closeHandle, show c.socket .client = c.mClient from rfl]
    obtain ⟨s, eq, _⟩ | eq := closeSocket_cases c.mClient (shutdown .client)
    · rw [eq]
      rfl
    · rw [eq]
      have shape : { c with mClient := c.mClient.tcpClose } =
          c.onSocket .client fun _ => c.mClient.tcpClose := rfl
      dsimp only
      rw [shape]
      generalize (c.onSocket .client fun _ => c.mClient.tcpClose) = c
      have itself : c.isClientSocket .client = true := beq_self_eq_true _
      rw [clientClosed]
      split_ifs
      · rfl
      · exact closeCalls_server shutdown calls c

/-- How many rounds go on at most when nothing comes; `request` is what is still to be done for
a request that is complete. -/
def stateRank (request : Nat) : HttpProxyState → Nat
  | .proxyInit => request + 1
  | .clientRecvRequest => request
  | .clientRecvRequestDone => 7
  | .clientSend200ok => 6
  | .clientSend200okDone => 5
  | .serverHandshake => request + 4
  | .serverHandshakeDone => request + 3
  | .clientHandshake => request + 2
  | .clientHandshakeDone => request + 1
  | .serverSendRequest => 6
  | .serverSendRequestDone => 5
  | .serverRecvResponse => 4
  | .serverRecvResponseDone => 3
  | .clientSendResponse => 2
  | .clientSendResponseDone => 1
  | _ => 0

def requestRank (c : HttpProxyConnection) : Nat :=
  if c.request.parser.needMoreData then 0 else 10

def rank (c : HttpProxyConnection) : Nat := stateRank c.requestRank c.state

theorem rank_le (c : HttpProxyConnection) : c.rank ≤ 14 := by
  have request : c.requestRank ≤ 10 := by
    rw [requestRank]
    split_ifs <;> decide
  rw [rank]
  cases c.state <;> simp only [stateRank] <;> omega

theorem rank_eq (state : c'.state = c.state) (request : c'.request = c.request) :
    c'.rank = c.rank := by
  rw [rank, rank, requestRank, requestRank, state, request]

theorem rank_untouched (same : Untouched c c') : c'.rank = c.rank :=
  rank_eq same.state same.request

theorem rank_onSocket (change : NetSocket ProxyHandler → NetSocket ProxyHandler) :
    (c.onSocket side change).rank = c.rank := by
  cases side with
  | client => exact rank_eq rfl rfl
  | server => exact rank_eq rfl rfl

theorem rank_enter (state : HttpProxyState) :
    (c.enter state).rank = stateRank c.requestRank state := rfl

/-- The next state has a lower rank. -/
theorem predict_rank (positive : 0 < c.rank)
    (cleared : c.state = .clientSend200okDone ∨ c.state = .clientSendResponseDone →
      c.request.parser.needMoreData = true) : c.predictNextState.rank < c.rank := by
  have clean (done : c.state = .clientSend200okDone ∨
      c.state = .clientSendResponseDone) : c.requestRank = 0 := if_pos (cleared done)
  have here : c.rank = stateRank c.requestRank c.state := rfl
  rw [here] at positive ⊢
  rw [predictNextState]
  cases state : c.state with
  | proxyInit =>
    dsimp only
    rw [rank_onSocket, rank_enter]
    exact Nat.lt_succ_self _
  | clientRecvRequest =>
    rw [state, stateRank] at positive
    have complete : c.request.parser.needMoreData = false := by
      by_contra more
      rw [requestRank, if_pos (Bool.eq_true_of_not_eq_false more)] at positive
      exact absurd positive (by decide)
    have ten : c.requestRank = 10 := if_neg (Bool.eq_false_iff.mp complete)
    rw [complete, ten]
    exact (by decide : 7 < 10)
  | clientRecvRequestDone =>
    dsimp only
    split_ifs <;> simp [rank_enter, stateRank]
  | clientSend200okDone => simp [rank_enter, stateRank, clean (Or.inl state)]
  | clientSendResponseDone => simp [rank_enter, stateRank, clean (Or.inr state)]
  | clientSend200ok => simp [rank_enter, stateRank]
  | serverHandshake => simp [rank_enter, stateRank]
  | serverHandshakeDone => simp [rank_enter, stateRank]
  | clientHandshake => simp [rank_enter, stateRank]
  | clientHandshakeDone => simp [rank_enter, stateRank]
  | serverSendRequest => simp [rank_enter, stateRank]
  | serverSendRequestDone => simp [rank_enter, stateRank]
  | serverRecvResponse => simp [rank_enter, stateRank]
  | serverRecvResponseDone => simp [rank_enter, stateRank]
  | clientSendResponse => simp [rank_enter, stateRank]
  | _ => simp [state, stateRank] at positive

/-- A round that returns, or goes on to a state of lower rank. -/
def Descends (c : HttpProxyConnection) : RoundEnd → Prop
  | .returned _ _ => True
  | .looping c' => c'.rank < c.rank

/-- A case that returns, or is left for the next state. -/
def Advances (c : HttpProxyConnection) (finish : RoundEnd) : Prop :=
  (∃ ret c₁, finish = .returned ret c₁) ∨
    ∃ side c₁, Untouched c c₁ ∧ finish = c₁.advance side

/-- The states that the messages are not cleared in. -/
def Keeping (c : HttpProxyConnection) : Prop :=
  c.state ≠ .clientSend200okDone ∧ c.state ≠ .clientSendResponseDone

theorem Keeping.predict (keeping : Keeping c) (positive : 0 < c.rank) :
    c.predictNextState.rank < c.rank :=
  predict_rank positive fun done => (done.elim keeping.1 keeping.2).elim

theorem Advances.descends {finish : RoundEnd} (advances : Advances c finish)
    (keeping : Keeping c) (positive : 0 < c.rank) : Descends c finish := by
  obtain ⟨_, _, rfl⟩ | ⟨side, c₁, same, rfl⟩ := advances
  · trivial
  · have ranks := rank_untouched same
    have keeping : Keeping c₁ := by
      rw [Keeping, same.state]
      exact keeping
    show (c₁.predictNextState.quiet side).rank < c.rank
    rw [quiet, rank_onSocket, ← ranks]
    exact keeping.predict (ranks.symm ▸ positive)

def recvn (c : HttpProxyConnection) (side : Side) (r : Round) : Int :=
  ( recvNIO (c.onSocket side fun sock => sock.enableReadEvent.disableWriteEvent) side
    r.received).1

theorem reading_untouched (c : HttpProxyConnection) (side : Side) :
    Untouched c (c.onSocket side fun sock => sock.enableReadEvent.disableWriteEvent) :=
  onSocket_untouched fun _ => NetSocket.reading_kept

theorem recvn_blocked (there : (c.socket side).exist = true) {waits : SocketEvent}
    (blocked : r.received.ending = .blocked waits) :
    c.recvn side r = HttpBodyFile.toInt r.received.data.length := by
  have there := (@Untouched.exist c _ side (reading_untouched c side)).trans there
  rw [recvn, recvNIO, there, blocked, if_neg (by decide)]

theorem recvn_dry (dry : r.received.data = []) : c.recvn side r ≤ 0 := by
  rw [recvn, recvNIO]
  split_ifs
  · exact show (-1 : Int) ≤ 0 by decide
  · cases r.received.ending with
    | blocked waits =>
      dsimp only
      rw [dry]
      exact show (0 : Int) ≤ 0 from Int.le_refl 0
    | failed kept => exact show tigersoIoError ≤ 0 by decide

theorem onSocket_notification (change : NetSocket ProxyHandler → NetSocket ProxyHandler) :
    (c.onSocket side change).notification = c.notification := by
  cases side with
  | client => rfl
  | server => rfl

theorem recvNIO_notification (read : SocketRead) :
    ( c.recvNIO side read).2.notification = c.notification := by
  rw [ recvNIO]
  split_ifs
  · rfl
  · cases read.ending with
    | blocked waits => cases side <;> rfl
    | failed kept => cases side <;> rfl

/-- What lies behind a message is only noted. -/
theorem beyond_notification (data : Bytes) :
    (beyond lib c side data).notification = c.notification := by
  rw [beyond]
  split_ifs
  · rfl
  · rfl

/-- When nothing was received the case may return; else it goes on with what was. -/
theorem recvMessage_cases (lib : ParserLib) (c : HttpProxyConnection) (side : Side) (r : Round) :
    (c.recvn side r ≤ 0 ∧ ∃ ret c₁, c.recvMessage lib side r = some (.returned ret c₁)) ∨
      0 ≤ c.recvn side r ∧ ∃ c₁, Untouched c c₁ ∧ c₁.notification = c.notification ∧
        c.recvMessage lib side r = c₁.received lib side r (c.recvn side r) := by
  have reading := reading_untouched c side
  have kept := @onSocket_notification c side fun sock => sock.enableReadEvent.disableWriteEvent
  rw [recvMessage, recvn]
  dsimp only
  generalize (c.onSocket side fun sock => sock.enableReadEvent.disableWriteEvent) = c₁ at *
  have same : Untouched c ( c₁.recvNIO side r.received).2 :=
    reading.trans (recvNIO_untouched r.received)
  have kept : ( c₁.recvNIO side r.received).2.notification = c.notification :=
    (recvNIO_notification r.received).trans kept
  generalize c₁.recvNIO side r.received = answer at *
  obtain ⟨recvn, c₂⟩ := answer
  dsimp only at same kept ⊢
  have still (event : SocketEvent) : ((c₂.quiet side).onSocket side fun sock =>
      sock.enableEvent event).notification = c.notification :=
    ((onSocket_notification _).trans (onSocket_notification _)).trans kept
  have waiting (event : SocketEvent) : Untouched c
      ((c₂.quiet side).onSocket side fun sock => sock.enableEvent event) :=
    (same.trans (onSocket_untouched fun _ => NetSocket.quiet_kept)).trans
      (onSocket_untouched fun _ => NetSocket.enableEvent_kept event)
  split_ifs with failed
  · exact Or.inl ⟨Int.le_of_lt failed, _, _, rfl⟩
  · have fine := Int.not_lt.mp failed
    cases (c₂.socket side).wanted with
    | socketEventNone => exact Or.inr ⟨fine, c₂, same, kept, rfl⟩
    | socketEventRead =>
      refine Or.inr ⟨fine, _, waiting .socketEventRead, still .socketEventRead, ?_⟩
      dsimp only
      exact if_neg fun both => by cases both.2
    | socketEventWrite =>
      dsimp only
      split_ifs with nothing
      · exact Or.inl ⟨Int.le_of_eq nothing.1, _, _, rfl⟩
      · exact Or.inr ⟨fine, _, waiting _, still _, rfl⟩

/-- What was received is parsed. -/
theorem received_parses (some_ : 0 < c.recvn side r) (c₁ : HttpProxyConnection) :
    c₁.received lib side r (c.recvn side r) =
      (beyond lib c₁ side (arrived r)).parse lib side r (arrived r) ∧ arrived r ≠ [] := by
  have there : ¬ c.recvn side r < 0 :=
    fun less => absurd (Int.lt_trans some_ less) (Int.lt_irrefl 0)
  have some_ : c.recvn side r ≠ 0 := fun none_ => absurd (none_ ▸ some_) (Int.lt_irrefl 0)
  refine ⟨?_, arrived_ne_nil there some_⟩
  rw [received, if_neg some_, recvn]
  dsimp only
  rw [recvNIO_arrived there]

/-- A case that receives returns when the parsing does. -/
theorem recvMessage_returns (parses : ∀ c₁, Untouched c c₁ →
    c₁.notification = c.notification → arrived r ≠ [] →
      ∃ finish, c₁.parse lib side r (arrived r) = some finish) :
    ∃ finish, c.recvMessage lib side r = some finish := by
  obtain ⟨_, ret, c₁, ends⟩ | ⟨fine, c₁, same, kept, ends⟩ := recvMessage_cases lib c side r
  · exact ⟨_, ends⟩
  · obtain some_ | none_ := Int.lt_or_eq_of_le fine
    · obtain ⟨reads, filled⟩ := @received_parses c side lib r some_ c₁
      rw [ends, reads]
      exact parses _ (same.trans (beyond_untouched (arrived r)))
        ((beyond_notification (arrived r)).trans kept) filled
    · rw [ends, received, if_pos none_.symm]
      split_ifs
      · exact ⟨_, rfl⟩
      · exact ⟨_, rfl⟩

/-- When nothing comes, what is received is no message. -/
theorem recvMessage_dry (dry : r.received.data = []) :
    ∃ finish, c.recvMessage lib side r = some finish ∧ Advances c finish ∧
      (c.needMoreData side = true → ∃ ret c₁, finish = .returned ret c₁) := by
  obtain ⟨_, ret, c₁, ends⟩ | ⟨fine, c₁, same, _, ends⟩ := recvMessage_cases lib c side r
  · exact ⟨_, ends, Or.inl ⟨_, _, rfl⟩, fun _ => ⟨_, _, rfl⟩⟩
  · have nothing : c.recvn side r = 0 := Int.le_antisymm (recvn_dry dry) fine
    have needs : c₁.needMoreData side = c.needMoreData side := by
      cases side with
      | client => exact congrArg (fun o => o.parser.needMoreData) same.request
      | server => exact congrArg (fun o => o.parser.needMoreData) same.response
    rw [ends, received, if_pos nothing, needs]
    split_ifs with complete
    · refine ⟨_, rfl, Or.inr ⟨side, c₁, same, rfl⟩, fun more => ?_⟩
      rw [more] at complete
      cases complete
    · exact ⟨_, rfl, Or.inl ⟨_, _, rfl⟩, fun _ => ⟨_, _, rfl⟩⟩

theorem sendMessage_advances (c : HttpProxyConnection) (side : Side) (r : Round) :
    Advances c (c.sendMessage side r) := by
  have writing : Untouched c (c.onSocket side fun sock =>
      sock.enableWriteEvent.disableReadEvent) := onSocket_untouched fun _ => NetSocket.writing_kept
  rw [sendMessage]
  dsimp only
  generalize (c.onSocket side fun sock => sock.enableWriteEvent.disableReadEvent) = c₁ at *
  have same : Untouched c ( c₁.sendNIO side r.sent).2 := writing.trans (sendNIO_untouched r.sent)
  generalize c₁.sendNIO side r.sent = answer at *
  obtain ⟨sendn, c₂⟩ := answer
  dsimp only at same ⊢
  split_ifs
  · exact Or.inl ⟨_, _, rfl⟩
  · cases (c₂.socket side).wanted with
    | socketEventNone => exact Or.inl ⟨_, _, rfl⟩
    | socketEventRead => exact Or.inl ⟨_, _, rfl⟩
    | socketEventWrite => exact Or.inl ⟨_, _, rfl⟩
  · exact Or.inr ⟨side, c₂, same, rfl⟩

theorem handshake_untouched {change : NetSocket ProxyHandler → NetSocket ProxyHandler}
    (kept : ∀ s, NetSocket.Kept s (change s)) (handshake : Handshake) :
    Untouched c ((c.onSocket side change).sslHandShake side handshake).2 := by
  obtain ⟨shaken, mild, eq⟩ := @sslHandShake_mild (c.onSocket side change) side handshake
  have shaking : Untouched (c.onSocket side change)
      ((c.onSocket side change).onSocket side shaken) :=
    onSocket_untouched fun s => (mild s).toKept
  rw [eq]
  exact (onSocket_untouched kept).trans shaking

theorem serverHandshake_advances (c : HttpProxyConnection) (r : Round) :
    Advances c (c.serverHandshake r) := by
  have same := @handshake_untouched c .server
    (fun sock => sock.enableWriteEvent.disableReadEvent) (fun _ => NetSocket.writing_kept)
    r.handshake
  rw [serverHandshake]
  dsimp only
  split_ifs
  · exact Or.inl ⟨_, _, rfl⟩
  · exact Or.inl ⟨_, _, rfl⟩
  · exact Or.inl ⟨_, _, rfl⟩
  · exact Or.inr ⟨.server, _, same, rfl⟩

theorem clientHandshake_advances (c : HttpProxyConnection) (r : Round) :
    Advances c (c.clientHandshake r) := by
  have same := @handshake_untouched c .client
    (fun sock => sock.enableReadEvent.disableWriteEvent) (fun _ => NetSocket.reading_kept)
    r.handshake
  rw [clientHandshake]
  dsimp only
  split_ifs
  · exact Or.inl ⟨_, _, rfl⟩
  · exact Or.inl ⟨_, _, rfl⟩
  · exact Or.inr ⟨.client, _, same, rfl⟩

theorem sendDone_descends (c c₀ : HttpProxyConnection) (r : Round)
    (lower : c.predictNextState.rank < c₀.rank) : Descends c₀ (c.sendDone r) := by
  rw [sendDone]
  dsimp only
  split_ifs
  · trivial
  · trivial
  · show rank _ < _
    rw [rank_onSocket, rank_onSocket]
    exact lower
  · exact lower

/-- The messages of a state that clears them are cleared. -/
theorem cleared_descends (c : HttpProxyConnection) (r : Round)
    (done : c.state = .clientSend200okDone ∨ c.state = .clientSendResponseDone) :
    Descends c (c.cleared.sendDone r) := by
  have same : c.cleared.rank = c.rank := by
    obtain state | state := done
    · rw [rank, rank, show c.cleared.state = c.state from rfl, state]
      rfl
    · rw [rank, rank, show c.cleared.state = c.state from rfl, state]
      rfl
  have positive : 0 < c.cleared.rank := by
    rw [same, rank]
    obtain state | state := done
    · rw [state]
      exact (by decide : 0 < 5)
    · rw [state]
      exact (by decide : 0 < 1)
  refine sendDone_descends c.cleared c r ?_
  rw [← same]
  exact predict_rank positive fun _ => rfl

/-- A round that nothing comes in returns or descends. -/
theorem round_dry (untunnelled : c.state ≠ .tcpTunnel) (dry : r.received.data = []) :
    ∃ finish, c.round lib r = some finish ∧ Descends c finish := by
  have keeping {state : HttpProxyState} (here : c.state = state)
      (other : state ≠ .clientSend200okDone ∧ state ≠ .clientSendResponseDone) :
      Keeping c := by
    rw [Keeping, here]
    exact other
  have positive {state : HttpProxyState} (here : c.state = state)
      (some_ : 0 < stateRank c.requestRank state) : 0 < c.rank := by
    rw [rank, here]
    exact some_
  have prepares (lower : c.predictNextState.rank < c.rank) : Descends c (.looping
      (if c.predictNextState.state = .clientSend200ok then c.predictNextState.notify200
        else c.predictNextState)) := by
    rw [Descends]
    split_ifs
    · exact lower
    · exact lower
  rw [HttpProxyConnection.round]
  split
  case h_1 state =>
    have other : Keeping c.withHandle := keeping state ⟨by decide, by decide⟩
    exact ⟨_, rfl, other.predict (positive state (Nat.succ_pos _))⟩
  case h_2 state =>
    obtain ⟨finish, ends, advances, waits⟩ := @recvMessage_dry c.tunnelled .client lib r dry
    refine ⟨finish, ends, ?_⟩
    by_cases more : c.request.parser.needMoreData = true
    · obtain ⟨ret, c₁, rfl⟩ := waits more
      trivial
    · have other : Keeping c.tunnelled := keeping state ⟨by decide, by decide⟩
      have ten : c.requestRank = 10 := if_neg more
      exact advances.descends other (positive state (ten ▸ by decide))
  case h_3 state =>
    obtain ⟨finish, ends, advances, _⟩ := @recvMessage_dry c .server lib r dry
    exact ⟨finish, ends, advances.descends (keeping state ⟨by decide, by decide⟩)
      (positive state (Nat.succ_pos _))⟩
  case h_4 state =>
    have lower := (keeping state ⟨by decide, by decide⟩).predict (positive state (Nat.succ_pos _))
    exact ⟨_, rfl, prepares lower⟩
  case h_5 state =>
    have lower := (keeping state ⟨by decide, by decide⟩).predict (positive state (Nat.succ_pos _))
    exact ⟨_, rfl, prepares lower⟩
  case h_6 state =>
    exact ⟨_, rfl, (sendMessage_advances c .client r).descends
      (keeping state ⟨by decide, by decide⟩)
      (positive state (Nat.succ_pos _))⟩
  case h_7 state =>
    exact ⟨_, rfl, (sendMessage_advances c .client r).descends
      (keeping state ⟨by decide, by decide⟩)
      (positive state (Nat.succ_pos _))⟩
  case h_8 state =>
    exact ⟨_, rfl, (sendMessage_advances c .server r).descends
      (keeping state ⟨by decide, by decide⟩)
      (positive state (Nat.succ_pos _))⟩
  case h_9 state => exact ⟨_, rfl, cleared_descends c r (Or.inl state)⟩
  case h_10 state => exact ⟨_, rfl, cleared_descends c r (Or.inr state)⟩
  case h_11 state =>
    exact ⟨_, rfl, sendDone_descends c c r
      ((keeping state ⟨by decide, by decide⟩).predict (positive state (Nat.succ_pos _)))⟩
  case h_12 state => exact absurd state untunnelled
  case h_13 state =>
    exact ⟨_, rfl, (serverHandshake_advances c r).descends (keeping state ⟨by decide, by decide⟩)
      (positive state (Nat.succ_pos _))⟩
  case h_14 state =>
    have lower := (keeping state ⟨by decide, by decide⟩).predict (positive state (Nat.succ_pos _))
    dsimp only
    split_ifs
    · exact ⟨_, rfl, trivial⟩
    · exact ⟨_, rfl, lower⟩
  case h_15 state =>
    exact ⟨_, rfl, (clientHandshake_advances c r).descends (keeping state ⟨by decide, by decide⟩)
      (positive state (Nat.succ_pos _))⟩
  case h_16 state =>
    exact ⟨_, rfl, (keeping state ⟨by decide, by decide⟩).predict (positive state (Nat.succ_pos _))⟩
  all_goals exact ⟨_, rfl, trivial⟩

structure Bodies (c : HttpProxyConnection) : Prop where
  request : c.request.message.body.InRing
  response : c.response.message.body.InRing
  notification : c.notification.body.InRing

theorem Bodies.of_same (bodies : Bodies c)
    (request : c'.request.message.body = c.request.message.body)
    (response : c'.response.message.body = c.response.message.body)
    (notification : c'.notification = c.notification) : Bodies c' := by
  refine ⟨?_, ?_, ?_⟩
  · rw [request]
    exact bodies.request
  · rw [response]
    exact bodies.response
  · rw [notification]
    exact bodies.notification

theorem Bodies.of_untouched (bodies : Bodies c) (same : Untouched c c')
    (notification : c'.notification = c.notification) : Bodies c' :=
  bodies.of_same (by rw [same.request]) (by rw [same.response]) notification

theorem sendNIO_notification (sent : SocketSend) :
    ( c.sendNIO side sent).2.notification = c.notification := by
  rw [ sendNIO]
  split_ifs
  · rfl
  · cases side <;> rfl

/-- The body of a notification is kept in the ring. -/
theorem prepared_inRing {n n' : HttpMessage} (inRing : n.body.InRing) (prepared : Prepared n n') :
    n'.body.InRing := by
  cases prepared with
  | granted =>
    obtain ⟨_, _, _, same⟩ := prepare200Response_fields n
    rw [same]
    exact inRing
  | refused done =>
    obtain ⟨_, b, _, wrote, rfl⟩ := prepareResponse_some done
    exact inRing.written wrote

/-- A notification is prepared when its body finds room. -/
theorem prepareResponse_returns {n : HttpMessage} {body : Bytes} (inRing : n.body.InRing)
    (room : n.body.Room body) (code : Nat) : ∃ n', prepareResponse code body n = some n' := by
  obtain ⟨_, _, _, same⟩ := notice_fields n code body.length
  obtain ⟨ret, b, rest, wrote, _⟩ := inRing.writeIn room .failed .failed []
  refine ⟨{ notice code body.length n with body := b }, ?_⟩
  rw [prepareResponse, appendBody, same, wrote]
  rfl

theorem Bodies.predict (bodies : Bodies c) : Bodies c.predictNextState :=
  predict_of_enter (fun _ => bodies.of_same rfl rfl rfl)
    (fun _ bodies => bodies.of_same rfl rfl rfl) bodies

theorem Bodies.cleared (bodies : Bodies c) : Bodies c.cleared :=
  ⟨bodies.request.reset, bodies.response.reset, bodies.notification⟩

/-- The body of a notification is written by `notify` alone. -/
theorem bodies_stable : Stable Bodies where
  socket c side change _ _ bodies := by
    cases side with
    | client => exact bodies.of_same rfl rfl rfl
    | server => exact bodies.of_same rfl rfl rfl
  respond c _ bodies := bodies.of_same rfl rfl rfl
  recycle c bodies := ⟨bodies.request.reset, bodies.response.reset, bodies.notification⟩
  predict c _ bodies := bodies.predict
  sentAll c side _ _ bodies := bodies.predict
  recvNIO c side read _ bodies :=
    bodies.of_untouched (recvNIO_untouched read) (recvNIO_notification read)
  sendNIO c side sent _ bodies :=
    bodies.of_untouched (sendNIO_untouched sent) (sendNIO_notification sent)
  notify c n prepared bodies :=
    ⟨bodies.request, bodies.response, prepared_inRing bodies.notification prepared⟩
  handleCalled c ret bodies := bodies.of_same rfl rfl rfl
  answered c bodies := bodies.of_same rfl rfl rfl
  queue c gc bodies := bodies.of_same rfl rfl rfl
  handedOut c bodies := bodies.of_same rfl rfl rfl
  accept c fd bodies := bodies.of_same rfl rfl rfl

theorem connectServer_response (host : Bytes) (address : Option ConnectResult) :
    (c.connectServer host address).2.response = c.response := by
  cases address with
  | none => rfl
  | some address =>
    cases address with
    | invalid => rfl
    | failed fd shutdown => rfl
    | opened fd => rfl

theorem Bodies.connectServer (bodies : Bodies c) (host : Bytes)
    (address : Option ConnectResult) : Bodies (c.connectServer host address).2 := by
  have same := MessageObject.getHostPort_message c.request
  cases address with
  | none => exact bodies
  | some address =>
    cases address with
    | invalid => exact bodies.of_same (congrArg HttpMessage.body same) rfl rfl
    | failed fd shutdown => exact bodies.of_same (congrArg HttpMessage.body same) rfl rfl
    | opened fd => exact bodies.of_same (congrArg HttpMessage.body same) rfl rfl

/-- Looking for a server leaves the response as it is, or clears it. -/
theorem seekServer_response (response : c.response.message.body.InRing) (host port : Bytes)
    (lookup : Lookup) : (c.seekServer host port lookup).response.message.body.InRing := by
  have closed : c.forceCloseServer.response.message.body.InRing := by
    rw [forceCloseServer]
    split_ifs
    · exact response.reset
    · exact response
  rw [seekServer]
  split_ifs
  · cases lookup with
    | found address =>
      dsimp only [resolve, handleCalled]
      rw [connectServer_response]
      exact closed.reset
    | failed => exact closed.reset
    | asked => exact closed.reset
  · exact response

theorem connectServer_notification (host : Bytes) (address : Option ConnectResult) :
    (c.connectServer host address).2.notification = c.notification := by
  cases address with
  | none => rfl
  | some address =>
    cases address with
    | invalid => rfl
    | failed fd shutdown => rfl
    | opened fd => rfl

theorem seekServer_notification (host port : Bytes) (lookup : Lookup) :
    (c.seekServer host port lookup).notification = c.notification := by
  have closed : c.forceCloseServer.notification = c.notification := by
    rw [forceCloseServer]
    split_ifs
    · rfl
    · rfl
  rw [seekServer]
  split_ifs
  · cases lookup with
    | found address =>
      dsimp only [resolve, handleCalled]
      rw [connectServer_notification]
      exact closed
    | failed => exact closed
    | asked => exact closed
  · rfl

theorem labelHead_notification (method : Bytes) :
    (c.labelHead method).notification = c.notification := by
  rw [labelHead]
  split_ifs
  · rfl
  · rfl

theorem requestHeaders_notification {lookup : Nat → Lookup} {k : Nat} {messages : List HttpMessage}
    (called : requestHeaders lookup k messages c = some c') :
    c'.notification = c.notification := by
  induction messages generalizing c k with
  | nil =>
    obtain rfl := Option.some.inj called
    rfl
  | cons message rest ih =>
    obtain ⟨next, first, called⟩ := Option.bind_eq_some_iff.mp called
    obtain ⟨⟨host, request⟩, _, rfl⟩ := Option.map_eq_some_iff.mp first
    refine (ih called).trans ?_
    dsimp only
    rw [seekServer_notification, labelHead_notification]

/-- Looking at the headers of a request keeps the notification. -/
theorem requestHeaders_bodies (busy : Busy c) (bodies : Bodies c) {lookup : Nat → Lookup}
    {k : Nat} {messages : List HttpMessage}
    (called : requestHeaders lookup k messages c = some c') : Busy c' ∧ Bodies c' := by
  have notification := requestHeaders_notification called
  suffices both : Busy c' ∧ c'.request.message.body.InRing ∧ c'.response.message.body.InRing by
    refine ⟨both.1, both.2.1, both.2.2, ?_⟩
    rw [notification]
    exact bodies.notification
  obtain ⟨inRequest, inResponse, inNotification⟩ := bodies
  clear notification inNotification
  induction messages generalizing c k with
  | nil =>
    obtain rfl := Option.some.inj called
    exact ⟨busy, inRequest, inResponse⟩
  | cons message rest ih =>
    obtain ⟨next, first, called⟩ := Option.bind_eq_some_iff.mp called
    have busy := requestHeaderCompleteHandle_busy busy first
    obtain ⟨⟨host, request⟩, _, rfl⟩ := Option.map_eq_some_iff.mp first
    have labelled : ({ c with request := request.getHostPort.2 }.labelHead
        message.method).response.message.body.InRing := by
      rw [labelHead]
      split_ifs
      · exact inResponse
      · exact inResponse
    have next := seekServer_response labelled host request.getHostPort.1 (lookup k)
    exact ih busy called inRequest next

/-- So does every case of the switch. -/
theorem bodies_rounds {cond : HttpProxyConnection → Round → Prop} : Rounds lib cond Bodies where
  toStable := bodies_stable
  begins c _ bodies := bodies.of_same rfl rfl rfl
  tunnelled c _ bodies := bodies.of_same rfl rfl rfl
  behind c c₁ r side _ _ _ _ _ bodies _ := beyond_keeps (fun _ => bodies.of_same rfl rfl rfl) bodies
  prepared c _ _ _ bodies := bodies.predict
  granted c _ _ _ bodies := bodies.cleared.predict
  responded c _ _ _ bodies := bodies.cleared.predict
  shaken c _ _ _ bodies := bodies.predict
  request c c₁ r finish _ state same _ bodies _ parsed := by
    generalize arrived r = data at *
    obtain ⟨⟨answer, request⟩, read, rest⟩ := Option.bind_eq_some_iff.mp parsed
    obtain ⟨c₂, called, rest⟩ := Option.bind_eq_some_iff.mp rest
    have receiving : Receiving c₁ .client := same.state.trans state
    have before : Bodies { c₁ with request := request } :=
      ⟨parse_inRing bodies.request read, bodies.response, bodies.notification⟩
    have busy : Busy { c₁ with request := request } := receiving.busy.of_state rfl
    obtain ⟨busy, after⟩ := requestHeaders_bodies busy before called
    exact bodies_stable.requestParsed busy after rest
  response c c₁ r finish _ state same _ bodies _ parsed := by
    generalize arrived r = data at *
    obtain ⟨⟨answer, response⟩, read, rest⟩ := Option.bind_eq_some_iff.mp parsed
    obtain rfl := Option.some.inj rest
    have receiving : Receiving c₁ .server := same.state.trans state
    split_ifs at read ⊢
    · have after : Bodies { c₁.note
          (.responded c₁.request.message c₁.response.parser.nobody) with
          response := response } :=
        ⟨bodies.request, parse_inRing bodies.response read, bodies.notification⟩
      refine bodies_stable.responseParsed ?_ after answer.code
      exact receiving.busy.of_state rfl
    · have after : Bodies { c₁ with response := response } :=
        ⟨bodies.request, parse_inRing bodies.response read, bodies.notification⟩
      refine bodies_stable.responseParsed ?_ after answer.code
      exact receiving.busy.of_state rfl

theorem start_bodies (id : IDType) (garbage : Nat → Byte) (status fd : Nat) :
    Bodies (start id garbage status fd) :=
  ⟨construct_inRing _ garbage, construct_inRing _ garbage, construct_inRing _ garbage⟩

/-- The host can be asked for. -/
def Named (m : HttpMessage) : Prop :=
  RequestHost.headerHost m ≠ [] ∨ (literal "http://" <+: m.url → 16 ≤ m.url.length) ∧
    (literal "https://" <+: m.url → 18 ≤ m.url.length)

def reported (lib : ParserLib) (o : MessageObject) (r : Round) : List Callback :=
  (lib o.message.role (o.feed (arrived r))).callbacks

/-- Every write to a body file that a round can ask for is answered. -/
def Answered (lib : ParserLib) (o : MessageObject) (r : Round) : Prop :=
  2 * (reported lib o r).length ≤ r.results.length

/-- No server was found. -/
def Lost (c : HttpProxyConnection) : Prop :=
  c.mServer.exist = false ∧ c.resolver.resolveState = .dnsErr

/-- A look that leads to no server and to no query. -/
def lookupFails : Lookup → Bool
  | .asked => false
  | .found (some (.opened _)) => false
  | _ => true

/-- So many headers are completed in a round, and then there is no server. -/
def Unserved (c : HttpProxyConnection) (r : Round) : Nat → Prop
  | 0 => c.Lost
  | headers + 1 => lookupFails (r.lookup headers) = true

/-- What comes in a round has a host for every request, the body of a response finds room, and so
does the body of a notification that the round makes. -/
structure Safe (lib : ParserLib) (c : HttpProxyConnection) (r : Round) : Prop where
  request : c.state = .clientRecvRequest → arrived r ≠ [] → Answered lib c.request r ∧
    ∀ answer request, (tunnelBody c.request).parse lib (arrived r) r.results =
      some (answer, request) → (∀ m ∈ request.parser.completed, Named m) ∧
        (answer.code = hpParseError → c.notification.body.Room defaultResponse403Body) ∧
        (answer.code ≠ hpParseError → Unserved c r request.parser.completed.length →
          c.notification.body.Room defaultResponse503Body)
  response : c.state = .serverRecvResponse → arrived r ≠ [] → Answered lib c.response r ∧
    SettledAll c.response.bodyCompletedHandle (c.response.opened r.results)
      (reported lib c.response r)

theorem getHost_named {o : MessageObject} (named : Named o.message) : o.getHost.isSome = true := by
  cases role : o.message.role with
  | httpRoleRequest => exact (RequestHost.getHost_returns_iff role).mpr (Or.inr named)
  | httpRoleResponse =>
    rw [getHost, role]
    rfl

theorem requestHeaders_returns {lookup : Nat → Lookup} {messages : List HttpMessage}
    (named : ∀ m ∈ messages, Named m) (k : Nat) (c : HttpProxyConnection) :
    ∃ c', requestHeaders lookup k messages c = some c' := by
  induction messages generalizing c k with
  | nil => exact ⟨c, rfl⟩
  | cons message rest ih =>
    have asked : (c.request.withMessage message).getHost.isSome = true :=
      getHost_named (named message List.mem_cons_self)
    obtain ⟨⟨host, request⟩, got⟩ := Option.isSome_iff_exists.mp asked
    obtain ⟨c', later⟩ := ih (fun m there => named m (List.mem_cons_of_mem _ there)) (k + 1)
      _
    refine ⟨c', Option.bind_eq_some_iff.mpr ⟨_, ?_, later⟩⟩
    rw [requestHeaderCompleteHandle, got]
    rfl

theorem seekServer_found (host port : Bytes) {lookup : Lookup}
    (lost : Lost (c.seekServer host port lookup)) : lookupFails lookup = true := by
  by_contra fine
  rw [Lost, seekServer] at lost
  split_ifs at lost with sought
  · cases lookup with
    | found address =>
      cases address with
      | none => exact fine rfl
      | some address =>
        cases address with
        | opened fd => cases lost.2
        | _ => exact fine rfl
    | failed => exact fine rfl
    | asked => cases lost.2
  · refine sought (Or.inr (Or.inr ?_))
    exact lost.1

/-- When there is no server behind the looks, the last one failed. -/
theorem requestHeaders_lost {lookup : Nat → Lookup} {k : Nat} {messages : List HttpMessage}
    (called : requestHeaders lookup k messages c = some c') (lost : Lost c') :
    messages = [] ∧ Lost c ∨ ∃ n, messages.length = n + 1 ∧
      lookupFails (lookup (k + n)) = true := by
  induction messages generalizing c k with
  | nil =>
    obtain rfl := Option.some.inj called
    exact Or.inl ⟨rfl, lost⟩
  | cons message rest ih =>
    obtain ⟨next, first, called⟩ := Option.bind_eq_some_iff.mp called
    obtain ⟨⟨host, request⟩, _, rfl⟩ := Option.map_eq_some_iff.mp first
    rcases ih called with ⟨rfl, here⟩ | ⟨n, length, failed⟩
    · exact Or.inr ⟨0, rfl, seekServer_found host request.getHostPort.1 here⟩
    · refine Or.inr ⟨n + 1, congrArg (· + 1) length, ?_⟩
      rw [Nat.add_right_comm] at failed
      exact failed

/-- Behind a request that was parsed a notification is written when there is room for it. -/
theorem requestParsed_returns (bodies : Bodies c) {code : Int}
    (refused : code = hpParseError → c.notification.body.Room defaultResponse403Body)
    (unserved : code ≠ hpParseError → Lost c →
      c.notification.body.Room defaultResponse503Body) :
    ∃ finish, c.requestParsed code = some finish := by
  have lost (failed : c.getServerConnectState = .serverConnectError) : Lost c := by
    rw [getServerConnectState] at failed
    split_ifs at failed with there completed
    refine ⟨Bool.eq_false_iff.mpr there, ?_⟩
    cases state : c.resolver.resolveState with
    | dnsErr => rfl
    | dnsUinit =>
      rw [state] at failed
      cases failed
    | dnsOnProcess =>
      rw [state] at failed
      cases failed
  have notifies (fine : code ≠ hpParseError)
      (failed : c.getServerConnectState = .serverConnectError) :
      ∃ finish, (c.notify503.map fun c => c.advance .client) = some finish := by
    obtain ⟨n, prepared⟩ :=
      prepareResponse_returns bodies.notification (unserved fine (lost failed)) 503
    rw [notify503, prepare503Response, prepared]
    exact ⟨_, rfl⟩
  rw [requestParsed]
  split_ifs with rejected partly
  · obtain ⟨n, prepared⟩ := prepareResponse_returns bodies.notification (refused rejected) 403
    rw [notify400, prepare400Response, prepare403Response, prepared]
    exact ⟨_, rfl⟩
  · cases failed : c.getServerConnectState with
    | serverConnectError => exact notifies rejected failed
    | _ => exact ⟨_, rfl⟩
  · cases failed : c.getServerConnectState with
    | serverConnectError => exact notifies rejected failed
    | _ => exact ⟨_, rfl⟩

theorem parse_request {data : Bytes} {answer : ParseAnswer} {request : MessageObject}
    {c₂ : HttpProxyConnection}
    (read : c.request.parse lib data r.results = some (answer, request))
    (called : requestHeaders r.lookup 0 request.parser.completed
      { c with request := request } = some c₂) :
    c.parse lib .client r data = c₂.requestParsed answer.code := by
  simp only [HttpProxyConnection.parse, read, Option.bind_eq_bind, Option.bind_some, called]

theorem parse_response {data : Bytes} {answer : ParseAnswer} {response : MessageObject}
    (read : c.response.parse lib data r.results = some (answer, response)) :
    ∃ finish, c.parse lib .server r data = some finish := by
  rw [HttpProxyConnection.parse]
  dsimp only
  split_ifs
  · have same : (c.note (.responded c.request.message c.response.parser.nobody)).response =
        c.response := rfl
    rw [same, read]
    exact ⟨_, rfl⟩
  · rw [read]
    exact ⟨_, rfl⟩

/-- A round comes back when its notification finds room. -/
theorem round_returns (bodies : Bodies c) (safe : Safe lib c r) :
    ∃ finish, c.round lib r = some finish := by
  rw [HttpProxyConnection.round]
  split
  case h_2 state =>
    refine @recvMessage_returns c.tunnelled .client lib r fun c₁ same notification filled => ?_
    obtain ⟨answered, fine⟩ := safe.request state filled
    have begun : (tunnelBody c.request).parser.initParser.tunnelbody = true := by
      rw [HttpParser.initParser]
      split_ifs <;> rfl
    have settled : SettledAll c.request.bodyCompletedHandle
        ((tunnelBody c.request).opened r.results) (reported lib c.request r) :=
      settledAll_of_tunnelled _ begun
    obtain ⟨⟨answer, request⟩, parsed⟩ :=
      @parse_returns lib (tunnelBody c.request) (arrived r) r.results bodies.request settled
        answered
    obtain ⟨named, refused, unserved⟩ := fine answer request parsed
    obtain ⟨c₂, called⟩ := requestHeaders_returns named 0 { c₁ with request := request }
    have here : c₁.request.parse lib (arrived r) r.results = some (answer, request) := by
      rw [same.request]
      exact parsed
    have lost : Lost c₂ → Unserved c r request.parser.completed.length := by
      intro lost
      rcases requestHeaders_lost called lost with ⟨none_, gone, err⟩ | ⟨n, length, failed⟩
      · rw [none_]
        exact ⟨same.server.symm.trans gone, (congrArg _ same.resolver.symm).trans err⟩
      · rw [length]
        rwa [Nat.zero_add] at failed
    have kept : c₂.notification = c.notification :=
      (requestHeaders_notification called).trans notification
    have after : Bodies c₂ := by
      have before : Bodies { c₁ with request := request } := by
        refine ⟨@parse_inRing lib (tunnelBody c.request) request (arrived r) r.results answer
          bodies.request parsed, ?_, ?_⟩
        · rw [same.response]
          exact bodies.response
        · rw [notification]
          exact bodies.notification
      have busy : Busy { c₁ with request := request } :=
        (congrArg routine (same.state.trans state)).trans rfl
      exact (requestHeaders_bodies busy before called).2
    obtain ⟨finish, ends⟩ := @requestParsed_returns _ after answer.code
      (fun rejected => kept ▸ refused rejected) fun fine gone => kept ▸ unserved fine (lost gone)
    have reads := @parse_request c₁ lib r _ _ _ _ here called
    exact ⟨finish, reads.trans ends⟩
  case h_3 state =>
    refine @recvMessage_returns c .server lib r fun c₁ same _ filled => ?_
    obtain ⟨answered, settled⟩ := safe.response state filled
    obtain ⟨⟨answer, response⟩, parsed⟩ :=
      @parse_returns lib c.response (arrived r) r.results bodies.response settled answered
    have here : c₁.response.parse lib (arrived r) r.results = some (answer, response) := by
      rw [same.response]
      exact parsed
    exact parse_response here
  case h_14 state =>
    dsimp only
    split_ifs
    · exact ⟨_, rfl⟩
    · exact ⟨_, rfl⟩
  all_goals exact ⟨_, rfl⟩

/-- With as many rounds as the rank and one more the loop returns when nothing comes. -/
theorem loop_dry {quiet : List Round} (dry : ∀ r ∈ quiet, r.received.data = [])
    (long : c.rank < quiet.length) (untunnelled : NoTunnel c) :
    ∃ answer, rwEventHandle lib quiet c = some answer := by
  induction quiet generalizing c with
  | nil => exact absurd long (Nat.not_lt_zero _)
  | cons r rest ih =>
    obtain ⟨finish, ends, descends⟩ :=
      @round_dry c lib r untunnelled.state (dry r List.mem_cons_self)
    rw [rwEventHandle, ends]
    cases finish with
    | returned ret c' => exact ⟨_, rfl⟩
    | looping c' =>
      have lower : c'.rank < c.rank := descends
      rw [List.length_cons] at long
      have rules : RoundRules lib (fun _ _ => True) NoTunnel := noTunnel_rounds.rules
      exact ih (fun r there => dry r (List.mem_cons_of_mem _ there)) (by omega)
        (rules.round trivial untunnelled.state untunnelled ends)

/-- The bytes come in finitely many rounds; behind them the loop returns. -/
theorem loop_returns {supply quiet : List Round} (dry : ∀ r ∈ quiet, r.received.data = [])
    (long : 15 ≤ quiet.length) (untunnelled : NoTunnel c) (bodies : Bodies c)
    (safe : EveryRound lib (Safe lib) supply c) :
    ∃ answer, rwEventHandle lib (supply ++ quiet) c = some answer := by
  induction supply generalizing c with
  | nil => exact loop_dry dry (Nat.lt_of_le_of_lt c.rank_le long) untunnelled
  | cons r rest ih =>
    obtain ⟨finish, ends⟩ := round_returns bodies safe.1
    rw [List.cons_append, rwEventHandle, ends]
    cases finish with
    | returned ret c' => exact ⟨_, rfl⟩
    | looping c' =>
      exact ih (noTunnel_rounds.rules.round safe.1 untunnelled.state untunnelled ends)
        (bodies_rounds.rules.round safe.1 untunnelled.state bodies ends) (safe.2 c' ends)

end

/-- A state that a run of the connection reaches, or what the answer to a query makes of it. -/
inductive Activated (lib : ParserLib) (id : IDType) (garbage : Nat → Byte) (status fd : Nat) :
    HttpProxyConnection → Prop
  | called {c : HttpProxyConnection}
      (run : Reaches (step lib) (fun _ _ => True) (start id garbage status fd) c) :
      Activated lib id garbage status fd c
  | resolved {c : HttpProxyConnection} {host : Bytes} (address : Option ConnectResult)
      (run : Reaches (step lib) (fun _ _ => True) (start id garbage status fd) c)
      (asked : c.resolver.query = some host) :
      Activated lib id garbage status fd
        ({ c with resolver := { c.resolver with query := none } }.connectServer host address).2

/-- Events of which nothing is asked. -/
theorem guarded_any (lib : ParserLib) (c : HttpProxyConnection) (event : ProxyEvent) :
    Guarded lib (fun _ _ => True) (fun _ _ => True) c event := by
  cases event with
  | called side kind rounds => exact fun _ _ _ _ _ => EveryRound.of_all (fun _ _ => trivial) _ _
  | recalled k kind rounds => exact fun _ _ _ _ _ _ => EveryRound.of_all (fun _ _ => trivial) _ _
  | resolved address rounds =>
    exact ⟨trivial, fun _ _ => EveryRound.of_all (fun _ _ => trivial) _ _⟩
  | accepted fd => trivial
  | refused => trivial
  | queued id => trivial
  | taken => trivial

section
variable {lib : ParserLib} {id : IDType} {garbage : Nat → Byte} {status fd : Nat}
  {c : HttpProxyConnection}

theorem reached_quiet
    (run : Reaches (step lib) (fun _ _ => True) (start id garbage status fd) c) :
    Bodies c ∧ NoTunnel c := by
  refine run.invariant (fun c => Bodies c ∧ NoTunnel c)
    ⟨start_bodies .., start_noTunnel ..⟩ ?_
  intro c event c' both _ steps
  have rules : RoundRules lib (fun _ _ => True) Bodies := bodies_rounds.rules
  refine rules.step ?_ both.1 both.2 (guarded_any lib c event) steps
  intro c address host _ _ bodies
  exact (bodies_stable.answered c bodies).connectServer host address

theorem Activated.quiet (active : Activated lib id garbage status fd c) :
    Bodies c ∧ NoTunnel c := by
  cases active with
  | called run => exact reached_quiet run
  | @resolved c host address run asked =>
    obtain ⟨bodies, untunnelled⟩ := reached_quiet run
    constructor
    · exact (bodies_stable.answered c bodies).connectServer host address
    · exact noTunnel_aloof.connectServer (noTunnel_stable.answered c untunnelled) host address

end

/-- The loop returns when the bytes that come have a host for every request and room for every
piece of a body; `closeHandle` returns anyway. -/
theorem rwEventHandle_returns {lib : ParserLib} {id : IDType} {garbage : Nat → Byte}
    {status fd : Nat} {c : HttpProxyConnection} {supply quiet : List Round}
    (active : Activated lib id garbage status fd c) (safe : EveryRound lib (Safe lib) supply c)
    (dry : ∀ r ∈ quiet, r.received.data = []) (long : 15 ≤ quiet.length) :
    (∃ answer, rwEventHandle lib (supply ++ quiet) c = some answer) ∧
      ∀ c' shutdown side, closeCalls shutdown 2 c' side = some (c'.closeHandle shutdown side) :=
  ⟨loop_returns dry long active.quiet.2 active.quiet.1 safe,
    fun c' shutdown side => closeCalls_returns shutdown 0 c' side⟩

def answering (request : Bytes) : Round :=
  { arriving request with
    lookup := fun _ => .found (some (.opened 7))
    results := List.replicate 12 .failed }

def oneRequest : ParserLib := recorded
  [(literal "GET / HTTP/1.1\r\nHost: a\r\n\r\n",
    [.onMessageBegin, .onUrl (literal "/"), .onHeaderField (literal "Host"),
     .onHeaderValue (literal "a"), .onHeadersComplete ⟨literal "GET", 0, 1, 1, false⟩,
     .onMessageComplete])]

/-- A request that is answered. -/
theorem rwEventHandle_returns_get :
    ∃ answer, rwEventHandle oneRequest
      ([calm, answering (literal "GET / HTTP/1.1\r\nHost: a\r\n\r\n")] ++
        List.replicate 15 calm) (start 1 (fun _ => 0) 0 5) = some answer := by
  have sound (c : HttpProxyConnection) (r : Round) : (c.state != .serverRecvResponse &&
      (c.state != .clientRecvRequest ||
        (decide (2 * (reported oneRequest c.request r).length ≤ r.results.length) &&
          decide (122 ≤ c.notification.body.ringbuf.space) &&
          match (tunnelBody c.request).parse oneRequest (arrived r) r.results with
          | some (_, request) =>
            request.parser.completed.all fun m => RequestHost.headerHost m != []
          | none => true))) = true → Safe oneRequest c r := by
    intro met
    obtain ⟨other, met⟩ := Bool.and_eq_true_iff.mp met
    constructor
    · intro state _
      rw [state] at met
      obtain ⟨met, named⟩ := Bool.and_eq_true_iff.mp met
      obtain ⟨answered, room⟩ := Bool.and_eq_true_iff.mp met
      have answered : 2 * (reported oneRequest c.request r).length ≤ r.results.length :=
        of_decide_eq_true answered
      have room : 122 ≤ c.notification.body.ringbuf.space := of_decide_eq_true room
      have short : defaultResponse403Body.length ≤ 122 ∧ defaultResponse503Body.length ≤ 122 := by
        decide +kernel
      refine ⟨answered, fun answer request parsed => ⟨fun m there => ?_,
        fun _ => Or.inl (Nat.le_trans short.1 room),
        fun _ _ => Or.inl (Nat.le_trans short.2 room)⟩⟩
      rw [parsed] at named
      exact Or.inl (bne_iff_ne.mp (List.all_eq_true.mp named m there))
    · intro state
      rw [state] at other
      cases other
  exact (rwEventHandle_returns (Activated.called Reaches.start)
    (EveryRound.of_everyRound sound rfl) (by decide) (by decide)).1

/-- A response of 9000 bytes: the first two come with its header, the others as they are read. -/
def oversized : ParserLib := fun role fed =>
  match role, fed with
  | .httpRoleResponse, [(buffer, _)] =>
    ⟨[.onMessageBegin, .onStatus (literal "OK"), .onHeaderField (literal "Content-Length"),
      .onHeaderValue (literal "9000"), .onHeadersComplete ⟨[], 200, 1, 1, false⟩,
      .onBody (literal "ok")], buffer.length⟩
  | .httpRoleResponse, _ :: (buffer, _) :: _ => ⟨[.onBody buffer], buffer.length⟩
  | role, fed => oneRequest role fed

def oversizedRun : ProxyEvent :=
  .called .client .readable
    [calm, answering (literal "GET / HTTP/1.1\r\nHost: a\r\n\r\n"), calm, calm, calm,
     arriving (literal "HTTP/1.1 200 OK\r\nContent-Length: 9000\r\n\r\nok")]

/-- The rest of the response comes in one piece. -/
theorem not_returns : ∃ c, Reaches (step oversized) (fun _ _ => True) (start 1 (fun _ => 0) 0 5) c ∧
    ∀ results rest, rwEventHandle oversized
      ({ arriving (List.replicate 8191 0) with results := results } :: rest) c = none := by
  have run : ((follow (step oversized) (fun _ _ => True) (start 1 (fun _ => 0) 0 5)
      [oversizedRun]).map fun c => decide (c.state = .serverRecvResponse ∧
        c.mServer.exist = true ∧ c.response.message.body.ringbuf.space = 8190 ∧
        c.response.message.body.size < fileBigContent ∧
        c.response.parser.tunnelbody = false ∧ c.response.fed.length = 1 ∧
        c.response.parser.state ≠ .parseUninit ∧
        c.response.message.role = .httpRoleResponse)) = some true := rfl
  obtain ⟨c, followed, met⟩ := Option.map_eq_some_iff.mp run
  obtain ⟨state, there, space, small, untunnelled, fed, begun, role⟩ := of_decide_eq_true met
  have reached := reaches_of_follow followed
  refine ⟨c, reached, fun results rest => ?_⟩
  have full : ¬ c.response.message.body.Room (List.replicate 8191 0) := by
    rw [Room, space, List.length_replicate]
    decide
  have spins : c.response.parse oversized (List.replicate 8191 0) results = none := by
    apply parse_spins (reached_quiet reached).1.response _ begun untunnelled small full
    · rw [role, MessageObject.feed, if_neg begun]
      obtain ⟨first, same⟩ := List.length_eq_one_iff.mp fed
      rw [same]
      rfl
    · intro empty
      have length := congrArg List.length empty
      rw [List.length_replicate] at length
      cases length
  suffices stuck : c.round oversized
      { arriving (List.replicate 8191 0) with results := results } = none by
    rw [rwEventHandle, stuck]
  rw [HttpProxyConnection.round, state]
  generalize here : ({ arriving (List.replicate 8191 0) with results := results } : Round) = r
  have taken : r.results = results := congrArg Round.results here.symm
  have comes : r.received = ⟨List.replicate 8191 0, .blocked .socketEventNone⟩ :=
    congrArg Round.received here.symm
  have amount : c.recvn .server r = 8191 := by
    rw [@recvn_blocked c .server r there _ (congrArg SocketRead.ending comes), comes,
      List.length_replicate]
    rfl
  have whole : arrived r = List.replicate 8191 0 := by
    rw [arrived, comes, List.length_replicate]
    rfl
  obtain ⟨nothing, _⟩ | ⟨_, c₁, same, _, ends⟩ := recvMessage_cases oversized c .server r
  · rw [amount] at nothing
    exact absurd nothing (by decide)
  · have some_ : 0 < c.recvn .server r := amount ▸ show (0 : Int) < 8191 by decide
    have same := same.trans (@beyond_untouched oversized c₁ .server (arrived r))
    rw [(received_parses some_ c₁).1] at ends
    generalize beyond oversized c₁ .server (arrived r) = c₂ at same ends
    rw [whole, HttpProxyConnection.parse, taken] at ends
    dsimp only at ends ⊢
    rw [ends]
    have spins : c₂.response.parse oversized (List.replicate 8191 0) results = none := by
      rw [same.response]
      exact spins
    split_ifs
    · have noted : (c₂.note (.responded c₂.request.message
          c₂.response.parser.nobody)).response = c₂.response := rfl
      rw [noted, spins]
      rfl
    · rw [spins]
      rfl

end HttpProxyConnection
