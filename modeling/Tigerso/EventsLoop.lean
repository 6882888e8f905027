import Mathlib.Logic.Function.Basic
import Tigerso.TimeWheelEvent

/-!
# net/EventsLoop: channels, epoll and the dispatch of one batch

Channels live at addresses; a step that reads a channel that was deleted goes to
`fault`. The kernel's interest list maps a descriptor to the pointer registered for
it, and loses the entry when the descriptor is closed. Which callbacks are set, what
they do and what they return is the input of the machine.
-/

def eventCallbackContinue : Int := 0
def eventCallbackBreak : Int := 1
def eventCallbackDropwaited : Int := 2

/-- The address of a `Channel`. -/
abbrev Addr := Nat

/-- A `Socket` object. -/
abbrev SocketId := Nat

structure Channel where
  sock : SocketId
  /-- -1 from `unregisterChannel` on. -/
  sockfd : Int
  deriving DecidableEq

/-- `events` of an `epoll_event`. -/
structure EventMask where
  epollIn : Bool
  epollOut : Bool
  epollRdhup : Bool
  epollHup : Bool
  epollErr : Bool
  deriving DecidableEq

structure EpollEvent where
  ptr : Addr
  events : EventMask
  deriving DecidableEq

/-- What happens to a channel. -/
inductive ChannelEvent where
  | created (c : Addr)
  | unregistered (c : Addr)
  | called (c : Addr)
  | deleted (c : Addr)
  deriving DecidableEq

/-- The tests of `waitChannel`, in their order. -/
inductive Stage where
  | before
  | rdhup
  | hup
  | error
  | readable
  | writeable
  | after
  deriving DecidableEq

/-- Where `waitChannel` stands; `rest` are the events of the batch behind this one. -/
inductive Control where
  /-- Between two batches. -/
  | idle
  /-- The head of the `for`. -/
  | next (rest : List EpollEvent)
  | test (stage : Stage) (c : Addr) (events : EventMask) (rest : List EpollEvent)
  /-- In the callback of a stage. -/
  | calling (stage : Stage) (c : Addr) (events : EventMask) (rest : List EpollEvent)
  /-- The head of the `while` of `clearCurrentTimeNode`, in the callback of the timer. -/
  | sweep (c : Addr) (events : EventMask) (rest : List EpollEvent)
  /-- In the timeout callback of `t`. -/
  | timeout (t : Addr) (c : Addr) (events : EventMask) (rest : List EpollEvent)
  /-- A deleted channel was read. -/
  | fault
  deriving DecidableEq

structure EventsLoop where
  /-- The channels that are allocated. -/
  channels : Addr → Option Channel
  sockfd : SocketId → Int
  listening : SocketId → Bool
  channelptr : SocketId → Option Addr
  /-- The interest list of `epfd_`. -/
  epoll : Int → Option Addr
  timer : TimeWheelEvent Addr
  /-- The socket of the timing wheel. -/
  timerfd : SocketId
  needDeletedChannelSet : List Addr
  control : Control
  /-- Newest first. -/
  log : List ChannelEvent

/-- What a callback, or the program between two batches, does. -/
inductive Op where
  /-- `registerChannel`: where `new` finds memory if it is called, and whether
  `epoll_ctl` adds the descriptor. -/
  | registerChannel (sock : SocketId) (fresh : Addr) (granted : Bool)
  | unregisterChannel (sock : SocketId)
  /-- The descriptor of a `Socket` object changes. -/
  | setSocket (sock : SocketId) (fd : Int)
  | listen (sock : SocketId) (on : Bool)
  /-- The kernel closes a descriptor. -/
  | closeFd (fd : Int)

inductive Input where
  | op (op : Op)
  /-- `epoll_wait` returns these descriptors. -/
  | wait (ready : List (Int × EventMask))
  /-- Go on; `set` says whether the callback that is looked at is not null. -/
  | go (set : Bool)
  /-- The callback returns. -/
  | ret (code : Int)
  /-- `clockEventHandle` reads its eight bytes and calls `clockJump`. -/
  | clockJump
  /-- What `begin()` of the swept node points to. -/
  | found (t : Addr)

namespace EventsLoop

def init (nodenum : Nat) (timerfd : SocketId) (fds : SocketId → Int) : EventsLoop :=
  ⟨fun _ => none, fds, fun _ => false, fun _ => none, fun _ => none, .init nodenum, timerfd, [],
    .idle, []⟩

def deref (s : EventsLoop) (c : Addr) (k : Channel → EventsLoop) : EventsLoop :=
  match s.channels c with
  | none => { s with control := .fault }
  | some ch => k ch

def exist (s : EventsLoop) (sock : SocketId) : Bool := decide (0 ≤ s.sockfd sock)

def isSkipChannel (s : EventsLoop) (ch : Channel) : Bool :=
  ch.sockfd == -1 || (s.exist ch.sock && s.listening ch.sock) || ch.sock == s.timerfd

/-- `timer_.updateChannel(c)`. -/
def updateTimer (s : EventsLoop) (c : Addr) : EventsLoop :=
  s.deref c fun ch => { s with timer := s.timer.updateChannel c (s.isSkipChannel ch) }

/-- `epoll_ctl` with `EPOLL_CTL_MOD`, and with `EPOLL_CTL_ADD` when there is no entry;
`addChannel` tries them the other way round. One of them succeeds if `granted`. -/
def ctlChannel (s : EventsLoop) (c : Addr) (granted : Bool) : EventsLoop :=
  s.deref c fun ch =>
    if granted then { s with epoll := Function.update s.epoll ch.sockfd (some c) } else s

/-- The memory that `new` returns is not in use. -/
def registerChannel (s : EventsLoop) (sock : SocketId) (fresh : Addr) (granted : Bool) :
    EventsLoop :=
  if !s.exist sock then s
  else
    match s.channelptr sock with
    | some c => s.ctlChannel c granted
    | none =>
      if (s.channels fresh).isSome then s
      else
        let s : EventsLoop :=
          { s with
            channels := Function.update s.channels fresh (some ⟨sock, s.sockfd sock⟩)
            channelptr := Function.update s.channelptr sock (some fresh)
            log := .created fresh :: s.log }
        (s.updateTimer fresh).ctlChannel fresh granted

/-- `unregisterChannel`; removing the descriptor from the interest list succeeds. -/
def unregisterChannel (s : EventsLoop) (sock : SocketId) : EventsLoop :=
  match s.channelptr sock with
  | none => s
  | some c => s.deref c fun ch =>
    { s with
      epoll := Function.update s.epoll ch.sockfd none
      channels := Function.update s.channels c (some { ch with sockfd := -1 })
      needDeletedChannelSet := s.needDeletedChannelSet.insert c
      timer := s.timer.eraseChannel c
      channelptr := Function.update s.channelptr sock none
      log := .unregistered c :: s.log }

/-- `delete c`; the memory is given back. -/
def deleteChannel (s : EventsLoop) (c : Addr) : EventsLoop :=
  s.deref c fun _ =>
    { s with channels := Function.update s.channels c none, log := .deleted c :: s.log }

def cleanNeedDeletedChannels (s : EventsLoop) : EventsLoop :=
  { s.needDeletedChannelSet.foldl deleteChannel s with needDeletedChannelSet := [] }

def runOp (s : EventsLoop) : Op → EventsLoop
  | .registerChannel sock fresh granted => s.registerChannel sock fresh granted
  | .unregisterChannel sock => s.unregisterChannel sock
  | .setSocket sock fd => { s with sockfd := Function.update s.sockfd sock fd }
  | .listen sock on => { s with listening := Function.update s.listening sock on }
  | .closeFd fd => { s with epoll := Function.update s.epoll fd none }

def goTo (s : EventsLoop) (control : Control) : EventsLoop :=
  match s.control with
  | .fault => s
  | _ => { s with control := control }

/-- The bit of the mask that a stage looks at. -/
def wanted (events : EventMask) : Stage → Bool
  | .before => true
  | .rdhup => events.epollRdhup
  | .hup => events.epollHup
  | .error => events.epollErr
  | .readable => events.epollIn
  | .writeable => events.epollOut
  | .after => true

/-- The test behind `stage`; behind the last one the timer is updated. -/
def pass (s : EventsLoop) (stage : Stage) (c : Addr) (events : EventMask)
    (rest : List EpollEvent) : EventsLoop :=
  match stage with
  | .before => s.goTo (.test .rdhup c events rest)
  | .rdhup => s.goTo (.test .hup c events rest)
  | .hup => s.goTo (.test .error c events rest)
  | .error => s.goTo (.test .readable c events rest)
  | .readable => s.goTo (.test .writeable c events rest)
  | .writeable => s.goTo (.test .after c events rest)
  | .after => (s.updateTimer c).goTo (.next rest)

def validChannel (ch : Channel) : Bool := decide (0 < ch.sockfd)

def decideEventCallback (s : EventsLoop) (code : Int) (stage : Stage) (c : Addr)
    (events : EventMask) (rest : List EpollEvent) : EventsLoop :=
  if code = eventCallbackBreak then (s.updateTimer c).goTo (.next rest)
  else if code = eventCallbackDropwaited then s.cleanNeedDeletedChannels.goTo .idle
  else s.pass stage c events rest

def step (s : EventsLoop) (input : Input) : EventsLoop :=
  match s.control, input with
  | .idle, .op op => s.runOp op
  | .idle, .wait ready =>
    s.goTo (.next (ready.filterMap fun (fd, events) => (s.epoll fd).map (⟨·, events⟩)))
  | .next [], .go _ => s.cleanNeedDeletedChannels.goTo .idle
  | .next (e :: rest), .go _ => s.deref e.ptr fun ch =>
    if !validChannel ch || !s.exist ch.sock then s.goTo (.next rest)
    else s.goTo (.test .before e.ptr e.events rest)
  | .test stage c events rest, .go set => s.deref c fun ch =>
    if wanted events stage && validChannel ch && set then
      { s with control := .calling stage c events rest, log := .called c :: s.log }
    else s.pass stage c events rest
  | .calling _ _ _ _, .op op => s.runOp op
  | .calling stage c events rest, .ret code => s.decideEventCallback code stage c events rest
  | .calling .readable c events rest, .clockJump => s.deref c fun ch =>
    if ch.sock = s.timerfd then { s with timer := s.timer.jump, control := .sweep c events rest }
    else s
  | .sweep c events rest, .go _ =>
    if s.timer.current = [] then s.pass .readable c events rest else s
  | .sweep c events rest, .found t =>
    if t ∈ s.timer.current then s.deref t fun ch =>
      if ch.sockfd ≠ -1 then
        { s with control := .timeout t c events rest, log := .called t :: s.log }
      else { s with timer := s.timer.eraseCurrent t }
    else s
  | .timeout _ _ _ _, .op op => s.runOp op
  | .timeout t c events rest, .ret _ =>
    { s with timer := s.timer.eraseCurrent t, control := .sweep c events rest }
  | _, _ => s

def run (s : EventsLoop) (inputs : List Input) : EventsLoop := inputs.foldl step s

end EventsLoop
