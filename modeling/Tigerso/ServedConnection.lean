import Tigerso.CallbackDispatch
import Tigerso.GuardedRuns

/-!
# http/HttpConnection: the life of one connection

The events of the client's channel, and the queues that the connection is handed out from. An
event reports that the socket can be read or written only while the channel is interested in it.
-/

open SystemCalls HttpConnection

/-- A connection, and the queues `gc_` of the factory. -/
structure ServedConnection where
  conn : HttpConnection
  gc : Gc

inductive ConnectionEvent where
  /-- The acceptor takes the connection from the queue, and `accept` returns `fd`. -/
  | accepted (acptptr : Acceptor) (fd : Nat)
  /-- The acceptor takes the connection from the queue, and `accept` returns none. -/
  | refused (acptptr : Acceptor)
  /-- Another connection is put behind the queue. -/
  | queued (type : ConnectionType) (id : IDType)
  /-- Another connection is taken from the queue. -/
  | taken (type : ConnectionType)
  /-- `epoll_wait` returns the channel; every callback that is called has answers of its own. -/
  | dispatched (events : EventMask) (answers : Stage → Answers)
  /-- The timing wheel calls the timeout callback. -/
  | timedOut (answers : Answers)

namespace ServedConnection

def start (id : IDType) (acptptr : Acceptor) (garbage : Nat → Byte) (fd : Nat) :
    ServedConnection :=
  ⟨ConnectionFactory.acceptClient fd (.construct id acptptr garbage), fun _ => []⟩

def bound (s : ServedConnection) (kind : CallbackKind) : Option HttpHandler :=
  s.conn.sock.channelptr.bind fun channel => channel.callback kind

def invoke (answers : Stage → Answers) (stage : Stage) (handler : HttpHandler)
    (s : ServedConnection) : Option (Int × ServedConnection) :=
  (s.conn.handle handler (answers stage) s.gc).map fun o => (o.ret, ⟨o.conn, o.gc⟩)

/-- `epoll_wait` reports what the channel is interested in. -/
def Reported (s : ServedConnection) (events : EventMask) : Prop :=
  ∃ channel, s.conn.sock.channelptr = some channel ∧
    (events.epollIn = true → channel.readFlag = true) ∧
    (events.epollOut = true → channel.writeFlag = true)

/-- The front of the queue, when it is this connection. -/
def handOut (s : ServedConnection) (acptptr : Acceptor) : Option ServedConnection :=
  match s.gc acptptr.type with
  | [] => none
  | id :: rest =>
    if id = s.conn.id_ then
      some ⟨ConnectionFactory.linkToAcceptor acptptr s.conn,
        Function.update s.gc acptptr.type rest⟩
    else none

def dispatch (s : ServedConnection) (events : EventMask) (answers : Stage → Answers) :
    Option ServedConnection :=
  CallbackDispatch.dispatch bound (invoke answers) events CallbackDispatch.stages s

def step (s : ServedConnection) : ConnectionEvent → Option ServedConnection
  | .accepted acptptr fd => (s.handOut acptptr).map fun s =>
      { s with conn := ConnectionFactory.acceptClient fd s.conn }
  | .refused acptptr => (s.handOut acptptr).map fun s => ⟨s.conn.restart, s.conn.push s.gc⟩
  | .queued type id =>
    if id = s.conn.id_ then none
    else some { s with gc := Function.update s.gc type (s.gc type ++ [id]) }
  | .taken type =>
    match s.gc type with
    | [] => none
    | id :: rest =>
      if id = s.conn.id_ then none
      else some { s with gc := Function.update s.gc type rest }
  | .dispatched events answers => s.dispatch events answers
  | .timedOut answers => do
    let handler ← s.bound .timeout
    let o ← s.conn.handle handler answers s.gc
    some ⟨o.conn, o.gc⟩

end ServedConnection
