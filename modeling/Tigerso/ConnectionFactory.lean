import Tigerso.HttpConnection

/-!
# net/ConnectionFactory and net/Acceptor: the connections of the HTTP servers of a process

A round of the loop of `acceptHandle` and the call of one callback are the steps.
-/

open SystemCalls

/-- `ids` are the keys of `connections_`. -/
structure ConnectionFactory where
  ids : List IDType
  connections : IDType → Option HttpConnection
  gc : Gc
  idbase : Nat

/-- `~(0)` as an `IDType`. -/
def IDType.max : Nat := 2 ^ 32 - 1

/-- The callbacks of a channel. -/
inductive CallbackKind where
  | readable
  | writeable
  | error
  | rdhup
  | timeout
  deriving DecidableEq, Repr

inductive ServerEvent where
  /-- `accept` returned this descriptor. -/
  | accepted (acptptr : Acceptor) (fd : Nat) (garbage : Nat → Byte)
  /-- `accept` returned none. -/
  | refused (acptptr : Acceptor) (garbage : Nat → Byte)
  | called (id : IDType) (kind : CallbackKind) (answers : Answers)

namespace SocketChannel

def callback {H : Type} (channel : SocketChannel H) : CallbackKind → Option H
  | .readable => channel.readableCb
  | .writeable => channel.writeableCb
  | .error => channel.errorCb
  | .rdhup => channel.rdhupCb
  | .timeout => channel.timeoutCb

end SocketChannel

namespace ConnectionFactory

def init : ConnectionFactory := ⟨[], fun _ => none, fun _ => [], 0⟩

def allocID (s : ConnectionFactory) : Nat := if IDType.max ≤ s.idbase then 1 else s.idbase + 1

/-- The connection behind `id` becomes `c`. -/
def put (s : ConnectionFactory) (id : IDType) (c : HttpConnection) : ConnectionFactory :=
  { s with connections := Function.update s.connections id (some c) }

/-- The connection behind `id` is changed. -/
def modify (s : ConnectionFactory) (id : IDType) (change : HttpConnection → HttpConnection) :
    ConnectionFactory :=
  match s.connections id with
  | none => s
  | some c => s.put id (change c)

/-- `connections_[id] = connptr` for a new connection. -/
def assign (s : ConnectionFactory) (id : IDType) (c : HttpConnection) : ConnectionFactory :=
  { s.put id c with ids := if id ∈ s.ids then s.ids else s.ids ++ [id] }

def linkToAcceptor (acptptr : Acceptor) (c : HttpConnection) : HttpConnection :=
  { c with acptptr := acptptr }

def createConnection (s : ConnectionFactory) (acptptr : Acceptor) (garbage : Nat → Byte) :
    IDType × ConnectionFactory :=
  match s.gc acptptr.type with
  | id :: rest =>
    let s := { s with gc := Function.update s.gc acptptr.type rest }
    (id, s.modify id (linkToAcceptor acptptr))
  | [] =>
    let id := s.allocID
    let s := { s with idbase := id }
    (id, s.assign id (.construct id acptptr garbage))

/-- `connections_.size()` without the sizes of the queues of `HTTP_CONNECTION` and
`HTTP_PROXY_CONNECTION`. -/
def countAliveConnection (s : ConnectionFactory) : Int :=
  s.ids.length - (s.gc httpConnection).length - (s.gc httpProxyConnection).length

/-- The client socket after `Accept`, registered and with its callbacks. -/
def acceptClient (fd : Nat) (c : HttpConnection) : HttpConnection :=
  { c with sock := ({ c.sock with sockfd := some fd }.registerChannel.setHandles .readHandle
      .errorHandle .rdhupHandle .timeoutHandle).enableReadEvent }

/-- The round of `acceptHandle` in which `accept` returns `fd`. -/
def accepted (s : ConnectionFactory) (acptptr : Acceptor) (fd : Nat) (garbage : Nat → Byte) :
    ConnectionFactory :=
  let (id, s) := s.createConnection acptptr garbage
  s.modify id (acceptClient fd)

/-- `Connection::recycle` of the connection behind `id`. -/
def recycle (s : ConnectionFactory) (id : IDType) : ConnectionFactory :=
  match s.connections id with
  | none => s
  | some c => { s.put id c.restart with gc := c.push s.gc }

/-- The last round of `acceptHandle`. -/
def refused (s : ConnectionFactory) (acptptr : Acceptor) (garbage : Nat → Byte) :
    ConnectionFactory :=
  let (id, s) := s.createConnection acptptr garbage
  s.recycle id

/-- The handler that a callback of the connection's channel is bound to. -/
def boundHandler (s : ConnectionFactory) (id : IDType) (kind : CallbackKind) :
    Option (HttpConnection × HttpHandler) := do
  let c ← s.connections id
  let channel ← c.sock.channelptr
  let handler ← channel.callback kind
  some (c, handler)

/-- `none` when the callback is not there or does not return. -/
def called (s : ConnectionFactory) (id : IDType) (kind : CallbackKind) (a : Answers) :
    Option ConnectionFactory := do
  let (c, handler) ← s.boundHandler id kind
  let o ← c.handle handler a s.gc
  some { s.put id o.conn with gc := o.gc }

def step (s : ConnectionFactory) : ServerEvent → Option ConnectionFactory
  | .accepted acptptr fd garbage => some (s.accepted acptptr fd garbage)
  | .refused acptptr garbage => some (s.refused acptptr garbage)
  | .called id kind a => s.called id kind a

/-- The states that runs reach whose steps are all allowed. -/
inductive Reaches (Allowed : ConnectionFactory → ServerEvent → Prop) : ConnectionFactory → Prop
  | start : Reaches Allowed init
  | next {s s' : ConnectionFactory} {event : ServerEvent} (run : Reaches Allowed s)
      (allowed : Allowed s event) (steps : s.step event = some s') : Reaches Allowed s'

/-- A property that the first state has and the allowed steps keep is one of every state
that is reached. -/
theorem Reaches.invariant {Allowed : ConnectionFactory → ServerEvent → Prop}
    {Inv : ConnectionFactory → Prop} (first : Inv init)
    (keeps : ∀ {s s' event}, Inv s → Allowed s event → s.step event = some s' → Inv s')
    {s : ConnectionFactory} (run : Reaches Allowed s) : Inv s := by
  induction run with
  | start => exact first
  | next _ allowed steps ih => exact keeps ih allowed steps

end ConnectionFactory
