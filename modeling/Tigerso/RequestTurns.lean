import Tigerso.ForwardedRequests

/-!
# http/HttpProxyConnection: what was done for a request

A request is over when the next one is waited for. Until then the client was sent what came from
the server, or the notification that was put in the place of it.
-/

open SystemCalls

namespace HttpProxyConnection
open HttpMessage HttpHelper GuardedRuns

/-- What happened since the last request was begun: the last notification, what the client was
sent, what came from the server, and whether bytes of other messages came with those of the
request or of the response. `begun` is false when the connection was recycled since. -/
structure Turn where
  begun : Bool
  notice : Option HttpMessage
  sent : Bytes
  came : Bytes
  crowded : Bool

def Turn.note (t : Turn) : ProxyAction → Turn
  | .recycled => ⟨false, none, [], [], false⟩
  | .entered .clientRecvRequest => ⟨true, none, [], [], false⟩
  | .notified n => { t with notice := some n }
  | .answered data _ => { t with sent := t.sent ++ data }
  | .received .server data => { t with came := t.came ++ data }
  | .behind _ _ => { t with crowded := true }
  | _ => t

def turn : List ProxyAction → Turn
  | [] => ⟨false, none, [], [], false⟩
  | action :: earlier => (turn earlier).note action

/-- How many bytes of a body the header of a message promises. -/
def promised (n : HttpMessage) : Nat := n.getContentLength.toNat

/-- The whole message: its header, and the body that the header promises. -/
def Whole (n : HttpMessage) (text : Bytes) : Prop :=
  ∃ body : Bytes, body.length = promised n ∧ text = n.getHeader ++ body

/-- The client was sent one whole notification and there was nothing from the server, or it was
sent what came from the server; and there was one request and one response. -/
structure Turn.OneResponse (t : Turn) : Prop where
  alone : t.crowded = false
  some_ : t.sent ≠ []
  noticed : ∀ n, t.notice = some n → Whole n t.sent ∧ t.came = []
  passed : t.notice = none → t.sent = t.came

/-- Nothing is left for the client. -/
def Drained (left : BufferQueue) : Prop := left.readable = [] ∧ left.msgptr = false

/-- A request is begun, and there is nothing for the client. -/
structure Unanswered (t : Turn) (left : BufferQueue) : Prop where
  notice : t.notice = none
  sent : t.sent = []
  came : t.came = []
  drained : Drained left

/-- The notification `n` is sent, or waits to be sent. -/
structure Notified (t : Turn) (left : BufferQueue) (n : HttpMessage) : Prop where
  notice : t.notice = some n
  header : t.sent ++ left.readable = n.getHeader
  filled : n.getHeader ≠ []
  came : t.came = []
  unfinished : left.msgptr = true → left.senddone = false
  finished : left.msgptr = false → left.readable = []

/-- It waits. -/
structure Pending (t : Turn) (left : BufferQueue) (n : HttpMessage) : Prop
    extends Notified t left n where
  attached : left.msgptr = true
  unsent : t.sent = []

/-- What comes from the server is sent on. -/
structure Passing (t : Turn) (left : BufferQueue) : Prop where
  notice : t.notice = none
  whole : t.sent ++ left.readable = t.came
  detached : left.msgptr = false

/-- The response to the request is on its way. -/
def Responding (t : Turn) (left : BufferQueue) (n : HttpMessage) : Prop :=
  Notified t left n ∨ Passing t left ∧ t.came ≠ []

/-- The request had its response, and the server had no part in it. -/
def Granted (t : Turn) (left : BufferQueue) : Prop :=
  t.OneResponse ∧ t.came = [] ∧ Drained left

/-- What was done for the request in a state; `n` is the notification of the connection. A tunnel
and the closing states are not reached. -/
def Phase (t : Turn) (left : BufferQueue) (n : HttpMessage) : HttpProxyState → Prop
  | .proxyInit => t.begun = false ∧ t.came = [] ∧ Drained left
  | .clientRecvRequest => Unanswered t left ∨ Pending t left n
  | .clientRecvRequestDone => Unanswered t left ∨ Pending t left n
  | .clientSend200ok => Notified t left n
  | .clientSend200okDone => Granted t left
  | .serverHandshake => Granted t left
  | .serverHandshakeDone => Granted t left
  | .clientHandshake => Granted t left
  | .clientHandshakeDone => Granted t left
  | .serverSendRequest => Passing t left
  | .serverSendRequestDone => Passing t left
  | .serverRecvResponse => Passing t left
  | .serverRecvResponseDone => Passing t left ∧ t.came ≠ []
  | .clientSendResponse => Unanswered t left ∨ Responding t left n
  | .clientSendResponseDone => t.OneResponse ∧ Drained left
  | _ => False

section
variable {t : Turn} {left : BufferQueue} {n : HttpMessage} {text : Bytes}

/-- A message whose header promises no body is whole behind its header. -/
theorem whole_of_promised (none_ : promised n = 0) : Whole n n.getHeader :=
  ⟨[], none_.symm, (List.append_nil _).symm⟩

/-- A header that promises a body is no whole message. -/
theorem not_whole_of_short (short : text.length < n.getHeader.length + promised n) :
    ¬ Whole n text := by
  rintro ⟨body, length, rfl⟩
  rw [List.length_append, length] at short
  exact Nat.lt_irrefl _ short

theorem Drained.isSendDone (drained : Drained left) : left.isSendDone = true := by
  rw [BufferQueue.isSendDone, drained.1, drained.2]
  rfl

theorem Drained.undone (drained : Drained left) : ¬ left.isSendDone = false :=
  fun unsent => Bool.false_ne_true (unsent.symm.trans drained.isSendDone)

theorem Notified.drained (notified : Notified t left n) (done : left.isSendDone = true) :
    Drained left := by
  rw [BufferQueue.isSendDone] at done
  split_ifs at done with attached
  · rw [notified.unfinished attached] at done
    cases done
  · have detached := Bool.eq_false_iff.mpr attached
    exact ⟨notified.finished detached, detached⟩

/-- A notification of which something is left is attached. -/
theorem Notified.attached (notified : Notified t left n) (unsent : left.isSendDone = false) :
    left.msgptr = true := by
  by_contra other
  have detached := Bool.eq_false_iff.mpr other
  exact Drained.undone ⟨notified.finished detached, detached⟩ unsent

theorem Notified.oneResponse (notified : Notified t left n) (alone : t.crowded = false)
    (none_ : promised n = 0) (drained : Drained left) : t.OneResponse := by
  have sent := notified.header
  rw [drained.1, List.append_nil] at sent
  refine ⟨alone, ?_, fun n' notice => ?_, fun other => ?_⟩
  · rw [sent]
    exact notified.filled
  · obtain rfl := Option.some.inj (notified.notice.symm.trans notice)
    rw [sent]
    exact ⟨whole_of_promised none_, notified.came⟩
  · cases notified.notice.symm.trans other

theorem Passing.drained (passing : Passing t left) (done : left.isSendDone = true) :
    Drained left := by
  rw [BufferQueue.isSendDone, passing.detached] at done
  exact ⟨by simpa using done, passing.detached⟩

theorem Passing.oneResponse (passing : Passing t left) (alone : t.crowded = false)
    (came : t.came ≠ []) (drained : Drained left) : t.OneResponse := by
  have whole := passing.whole
  rw [drained.1, List.append_nil] at whole
  refine ⟨alone, ?_, fun n notice => ?_, fun _ => whole⟩
  · rw [whole]
    exact came
  · cases passing.notice.symm.trans notice

theorem Responding.drained (responding : Responding t left n) (done : left.isSendDone = true) :
    Drained left := by
  rcases responding with notified | ⟨passing, _⟩
  · exact notified.drained done
  · exact passing.drained done

theorem Unanswered.passing (unanswered : Unanswered t left) : Passing t left := by
  refine ⟨unanswered.notice, ?_, unanswered.drained.2⟩
  rw [unanswered.sent, unanswered.came, unanswered.drained.1]
  rfl

theorem Pending.unsent_queue (pending : Pending t left n) : left.isSendDone = false := by
  rw [BufferQueue.isSendDone, pending.attached]
  exact pending.unfinished pending.attached

/-- What is left for the client in any state is part of a response. -/
theorem Phase.responding {state : HttpProxyState} (phase : Phase t left n state)
    (unsent : left.isSendDone = false) : Responding t left n := by
  have passes (passing : Passing t left) : Responding t left n := by
    refine Or.inr ⟨passing, fun nothing => Drained.undone ⟨?_, passing.detached⟩ unsent⟩
    have whole := passing.whole
    rw [nothing] at whole
    exact (List.append_eq_nil_iff.mp whole).2
  have waits (phase : Unanswered t left ∨ Pending t left n) : Responding t left n := by
    rcases phase with unanswered | pending
    · exact (unanswered.drained.undone unsent).elim
    · exact Or.inl pending.toNotified
  have grants (granted : Granted t left) : Responding t left n :=
    (granted.2.2.undone unsent).elim
  cases state with
  | proxyInit => exact (phase.2.2.undone unsent).elim
  | clientRecvRequest => exact waits phase
  | clientRecvRequestDone => exact waits phase
  | clientSend200ok => exact Or.inl phase
  | clientSend200okDone => exact grants phase
  | serverHandshake => exact grants phase
  | serverHandshakeDone => exact grants phase
  | clientHandshake => exact grants phase
  | clientHandshakeDone => exact grants phase
  | serverSendRequest => exact passes phase
  | serverSendRequestDone => exact passes phase
  | serverRecvResponse => exact passes phase
  | serverRecvResponseDone => exact Or.inr phase
  | clientSendResponse =>
    rcases phase with unanswered | responding
    · exact (unanswered.drained.undone unsent).elim
    · exact responding
  | clientSendResponseDone => exact (phase.2.undone unsent).elim
  | _ => exact False.elim phase

/-- What the client is sent of a notification is what is no longer left of it. -/
theorem Notified.sendToSocket (notified : Notified t left n) (taken : Nat) (body : Int) :
    Notified { t with sent := t.sent ++ (left.sendToSocket taken body).2.1 }
      (left.sendToSocket taken body).2.2 n := by
  obtain ⟨notice, header, filled, came, unfinished, finished⟩ := notified
  have split := List.take_append_drop taken left.readable
  have header' : t.sent ++ left.readable.take taken ++ left.readable.drop taken = n.getHeader := by
    rw [List.append_assoc, split]
    exact header
  rw [BufferQueue.sendToSocket]
  dsimp only
  split_ifs with all attached failed done
  · exact ⟨notice, header', filled, came, unfinished, fun _ => all⟩
  · exact ⟨notice, header', filled, came, fun wrong => absurd wrong Bool.false_ne_true,
      fun _ => all⟩
  · exact ⟨notice, header', filled, came, unfinished, fun _ => all⟩
  · rw [all] at header'
    exact ⟨notice, header', filled, came, fun wrong => absurd wrong Bool.false_ne_true,
      fun _ => rfl⟩
  · refine ⟨notice, header', filled, came, unfinished, fun detached => ?_⟩
    rw [finished detached] at all
    exact absurd List.drop_nil all

theorem Passing.sendToSocket (passing : Passing t left) (taken : Nat) (body : Int) :
    Passing { t with sent := t.sent ++ (left.sendToSocket taken body).2.1 }
      (left.sendToSocket taken body).2.2 := by
  obtain ⟨moved, detached⟩ := sendToSocket_detached passing.detached taken body
  refine ⟨passing.notice, ?_, detached⟩
  rw [List.append_assoc, moved]
  exact passing.whole

theorem Responding.sendToSocket (responding : Responding t left n) (taken : Nat) (body : Int) :
    Responding { t with sent := t.sent ++ (left.sendToSocket taken body).2.1 }
      (left.sendToSocket taken body).2.2 n := by
  rcases responding with notified | ⟨passing, came⟩
  · exact Or.inl (notified.sendToSocket taken body)
  · exact Or.inr ⟨passing.sendToSocket taken body, came⟩

/-- A notification takes the place of another one or of nothing. -/
theorem pending_notified (sent : t.sent = []) (came : t.came = []) (filled : n.getHeader ≠ []) :
    Pending (t.note (.notified n)) (.attachHttpMessage n.getHeader) n := by
  have header : t.sent ++ n.getHeader = n.getHeader := by
    rw [sent, List.nil_append]
  exact ⟨⟨rfl, header, filled, came, fun _ => rfl, fun wrong => by cases wrong⟩, rfl, sent⟩

end

end HttpProxyConnection
