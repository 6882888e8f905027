import Tigerso.SystemCalls

/-!
# net/SocketUtil: Recv and Send

What the kernel comes back with, and what is made of it. On a secure socket `EAGAIN` stands for
`SSL_ERROR_WANT_READ` and `SSL_ERROR_WANT_WRITE`.
-/

open SystemCalls

namespace SocketUtil

def eagain : Nat := 11
def ewouldblock : Nat := 11

/-- `EAGAIN == errno || EWOULDBLOCK == errno`. -/
def blocks (errno : Nat) : Bool := eagain == errno || ewouldblock == errno

/-- The result that ends a loop of reads: 0, or -1 with an error. -/
inductive RecvEnd where
  | closed
  | failed (errno : Nat)
  deriving DecidableEq, Repr

/-- `bytes` are as many as fit into the request; a request for nothing gets nothing. -/
inductive RecvResult where
  | bytes (data : Bytes)
  | ended (ending : RecvEnd)

/-- `sent n` takes `n + 1` bytes, or the whole request if that is shorter. -/
inductive SendResult where
  | sent (n : Nat)
  | failed (errno : Nat)

/-- What a result without bytes is taken for; the end of a stream does not set `errno`. -/
def ended (isSSL : Bool) (errno : Nat) : RecvEnd → Int
  | .closed => if !isSSL && blocks errno then tigersoIoRecall else tigersoIoError
  | .failed errno => if blocks errno then tigersoIoRecall else tigersoIoError

/-- `Recv` of at most `len` bytes: the code and the bytes. -/
def recv (isSSL : Bool) (errno len : Nat) : RecvResult → Int × Bytes
  | .bytes data =>
    if data.take len = [] then (ended isSSL errno .closed, []) else (tigersoIoOk, data.take len)
  | .ended ending => (ended isSSL errno ending, [])

/-- `Send` of `len` bytes: the code and `*sendn`. On a plain socket the test is
`EAGAIN == errno || EWOULDBLOCK`. -/
def send (isSSL : Bool) (len : Nat) : SendResult → Int × Nat
  | .sent n => (tigersoIoOk, accepted n len)
  | .failed errno =>
    if isSSL then (if blocks errno then tigersoIoRecall else tigersoIoError, 0)
    else (if eagain == errno || ewouldblock != 0 then tigersoIoRecall else tigersoIoError, 0)

section
variable {isSSL : Bool} {errno len : Nat} {data : Bytes}

theorem recv_bytes (some_ : data.take len ≠ []) :
    recv isSSL errno len (.bytes data) = (tigersoIoOk, data.take len) := if_neg some_

theorem recv_nothing (nothing : data.take len = []) :
    recv isSSL errno len (.bytes data) = (ended isSSL errno .closed, []) := if_pos nothing

theorem send_failed_le (isSSL : Bool) (len errno : Nat) :
    (send isSSL len (.failed errno)).1 ≤ 0 := by
  rw [send]
  split_ifs <;> decide

end

end SocketUtil
