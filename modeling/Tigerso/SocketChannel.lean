import Tigerso.SystemCalls

/-!
# net/Socket and net/Channel: callbacks, events and closing

`H` are the handlers that can be bound to a channel.
-/

open SystemCalls

inductive SocketEvent where
  | socketEventNone
  | socketEventRead
  | socketEventWrite
  deriving DecidableEq, Repr

/-- `events` are the two flags that are registered with epoll. -/
structure SocketChannel (H : Type) where
  readableCb : Option H
  writeableCb : Option H
  errorCb : Option H
  rdhupCb : Option H
  timeoutCb : Option H
  readFlag : Bool
  writeFlag : Bool

/-- `active` says whether there is an SSL context, and `serrno` what its last call waits
for. -/
structure NetSocket (H : Type) where
  sockfd : Option Nat
  channelptr : Option (SocketChannel H)
  active : Bool
  serrno : SocketEvent

namespace NetSocket
variable {H : Type}

/-- A new `Socket`. -/
def construct : NetSocket H := ⟨none, none, false, .socketEventNone⟩

def exist (s : NetSocket H) : Bool := s.sockfd.isSome

def isSSL (s : NetSocket H) : Bool := s.active

/-- `SSLWantReadMore` and `SSLWantWriteMore`. -/
def wanted (s : NetSocket H) : SocketEvent := if s.isSSL then s.serrno else .socketEventNone

/-- `setEventHandle` for reading or writing. -/
def setEventHandle (s : NetSocket H) (func : H) (event : SocketEvent) : NetSocket H :=
  { s with channelptr := s.channelptr.map fun channel =>
      match event with
      | .socketEventNone => channel
      | .socketEventRead => { channel with readableCb := some func }
      | .socketEventWrite => { channel with writeableCb := some func } }

/-- `enableEvent` and `disableEvent`. -/
def switchEvent (s : NetSocket H) (event : SocketEvent) (on : Bool) : NetSocket H :=
  if s.exist then
    { s with channelptr := s.channelptr.map fun channel =>
        match event with
        | .socketEventNone => channel
        | .socketEventRead => { channel with readFlag := on }
        | .socketEventWrite => { channel with writeFlag := on } }
  else s

def enableEvent (s : NetSocket H) (event : SocketEvent) : NetSocket H := s.switchEvent event true
def disableEvent (s : NetSocket H) (event : SocketEvent) : NetSocket H := s.switchEvent event false
def enableReadEvent (s : NetSocket H) : NetSocket H := s.enableEvent .socketEventRead
def enableWriteEvent (s : NetSocket H) : NetSocket H := s.enableEvent .socketEventWrite
def disableReadEvent (s : NetSocket H) : NetSocket H := s.disableEvent .socketEventRead
def disableWriteEvent (s : NetSocket H) : NetSocket H := s.disableEvent .socketEventWrite

/-- `sctx.destory()`. -/
def destory (s : NetSocket H) : NetSocket H :=
  { s with active := false, serrno := .socketEventNone }

/-- `prepareSSLContext`; `prepared` is whether OpenSSL grants the context. -/
def prepareSSLContext (s : NetSocket H) (prepared : Bool) : NetSocket H :=
  { s with active := prepared, serrno := .socketEventNone }

/-- `tcpClose`: the channel is unregistered and the descriptor closed. -/
def tcpClose (s : NetSocket H) : NetSocket H :=
  { s.destory with channelptr := none, sockfd := none }

/-- `close`; `shutdown` is what `SSL_shutdown` waits for when it has to be called again. -/
def close (s : NetSocket H) (shutdown : Option SocketEvent) : Int × NetSocket H :=
  match if s.isSSL then shutdown else none with
  | some event => (tigersoIoError, { s with serrno := event })
  | none => (0, s.tcpClose)

/-- `reset`; the SSL context is left alone. -/
def reset (s : NetSocket H) : NetSocket H := { s with channelptr := none, sockfd := none }

def newChannel : SocketChannel H := ⟨none, none, none, none, none, false, false⟩

def registerChannel (s : NetSocket H) : NetSocket H :=
  if s.exist then { s with channelptr := some (s.channelptr.getD newChannel) } else s

def setHandles (s : NetSocket H) (read error rdhup timeout : H) : NetSocket H :=
  { s with channelptr := s.channelptr.map fun channel =>
      { channel with
        readableCb := some read
        errorCb := some error
        rdhupCb := some rdhup
        timeoutCb := some timeout } }

/-- The SSL context puts the closing off, or the socket is closed. -/
theorem close_cases (s : NetSocket H) (shutdown : Option SocketEvent) :
    (∃ event, s.active = true ∧ shutdown = some event ∧
      s.close shutdown = (tigersoIoError, { s with serrno := event })) ∨
    ((s.active = false ∨ shutdown = none) ∧ s.close shutdown = (0, s.tcpClose)) := by
  rw [close, isSSL]
  cases s.active with
  | false => exact Or.inr ⟨Or.inl rfl, rfl⟩
  | true =>
    cases shutdown with
    | none => exact Or.inr ⟨Or.inr rfl, rfl⟩
    | some event => exact Or.inl ⟨event, rfl, rfl, rfl⟩

section
variable (s : NetSocket H) (func : H) (event : SocketEvent) (on : Bool)

attribute [simp] enableEvent disableEvent enableReadEvent enableWriteEvent disableReadEvent
  disableWriteEvent isSSL

@[simp] theorem setEventHandle_sockfd : (s.setEventHandle func event).sockfd = s.sockfd := rfl

@[simp] theorem setEventHandle_active : (s.setEventHandle func event).active = s.active := rfl

@[simp] theorem setEventHandle_registered :
    (s.setEventHandle func event).channelptr.isSome = s.channelptr.isSome := by
  rw [setEventHandle, Option.isSome_map]

@[simp] theorem switchEvent_sockfd : (s.switchEvent event on).sockfd = s.sockfd := by
  rw [switchEvent]
  split_ifs
  · rfl
  · rfl

@[simp] theorem switchEvent_active : (s.switchEvent event on).active = s.active := by
  rw [switchEvent]
  split_ifs
  · rfl
  · rfl

@[simp] theorem switchEvent_registered :
    (s.switchEvent event on).channelptr.isSome = s.channelptr.isSome := by
  rw [switchEvent]
  split_ifs
  · rw [Option.isSome_map]
  · rfl

end

/-- The descriptor and the registration stay. -/
structure Kept (s s' : NetSocket H) : Prop where
  fd : s'.sockfd = s.sockfd
  channel : s'.channelptr.isSome = s.channelptr.isSome

section
variable {s s' s'' : NetSocket H}

theorem Kept.refl : Kept s s := ⟨rfl, rfl⟩

theorem Kept.trans (first : Kept s s') (second : Kept s' s'') : Kept s s'' :=
  ⟨second.fd.trans first.fd, second.channel.trans first.channel⟩

theorem Kept.exist (kept : Kept s s') : s'.exist = s.exist := congrArg Option.isSome kept.fd

theorem switchEvent_kept (event : SocketEvent) (on : Bool) : Kept s (s.switchEvent event on) :=
  ⟨switchEvent_sockfd s event on, switchEvent_registered s event on⟩

theorem enableEvent_kept (event : SocketEvent) : Kept s (s.enableEvent event) :=
  switchEvent_kept event true

theorem disableEvent_kept (event : SocketEvent) : Kept s (s.disableEvent event) :=
  switchEvent_kept event false

theorem reading_kept : Kept s s.enableReadEvent.disableWriteEvent :=
  (enableEvent_kept .socketEventRead).trans (disableEvent_kept .socketEventWrite)

theorem writing_kept : Kept s s.enableWriteEvent.disableReadEvent :=
  (enableEvent_kept .socketEventWrite).trans (disableEvent_kept .socketEventRead)

theorem quiet_kept : Kept s s.disableReadEvent.disableWriteEvent :=
  (disableEvent_kept .socketEventRead).trans (disableEvent_kept .socketEventWrite)

theorem switchEvent_wanted (event : SocketEvent) (on : Bool) :
    (s.switchEvent event on).wanted = s.wanted := by
  rw [switchEvent]
  split_ifs
  · rfl
  · rfl

theorem quiet_wanted : s.disableReadEvent.disableWriteEvent.wanted = s.wanted :=
  (switchEvent_wanted _ _).trans (switchEvent_wanted _ _)

theorem setEventHandle_kept (func : H) (event : SocketEvent) :
    Kept s (s.setEventHandle func event) :=
  ⟨setEventHandle_sockfd s func event, setEventHandle_registered s func event⟩

theorem setHandles_kept (read error rdhup timeout : H) :
    Kept s (s.setHandles read error rdhup timeout) :=
  ⟨rfl, Option.isSome_map ..⟩

/-- A socket without a descriptor has no channel. -/
def Registered (s : NetSocket H) : Prop := s.channelptr.isSome = true → s.exist = true

theorem registerChannel_fd : s.registerChannel.sockfd = s.sockfd := by
  rw [registerChannel]
  split_ifs
  · rfl
  · rfl

theorem registered_of_exist (there : s.exist = true) : Registered s := fun _ => there

theorem Kept.registered (kept : Kept s s') (registered : Registered s) : Registered s' := by
  intro there
  rw [kept.exist]
  rw [kept.channel] at there
  exact registered there

theorem tcpClose_registered (s : NetSocket H) : Registered s.tcpClose := nofun

theorem Registered.unregistered (registered : Registered s) (closed : s.exist = false) :
    s.channelptr = none := by
  cases channel : s.channelptr with
  | none => rfl
  | some there =>
    have exists_ := registered (by rw [channel]; rfl)
    exact absurd (closed.symm.trans exists_) Bool.false_ne_true

end

end NetSocket
