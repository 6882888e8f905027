import Tigerso.BufferBounds

/-!
# net/Buffer as a queue

What can be read of a buffer, and whether a message is attached to it. Adding, receiving and
sending are those of the queue as long as the buffer gets its space.
-/

open SystemCalls ByteMemory DiskFile SocketUtil

structure BufferQueue where
  readable : Bytes
  msgptr : Bool
  senddone : Bool

namespace BufferQueue

def construct : BufferQueue := ⟨[], false, false⟩

def isSendDone (q : BufferQueue) : Bool := if q.msgptr then q.senddone else q.readable == []

def clear (q : BufferQueue) : BufferQueue := { q with readable := [], msgptr := false }

/-- `addData`, and what `recvFromSocket` does with the bytes that it receives. -/
def addData (q : BufferQueue) (data : Bytes) : BufferQueue :=
  { q with readable := q.readable ++ data }

/-- `attachHttpMessage` of a message with this header. -/
def attachHttpMessage (header : Bytes) : BufferQueue := ⟨header, true, false⟩

/-- `sendToSocket` on a socket that takes `taken` bytes; `body` is what `send2Socket` of the
attached message returns. -/
def sendToSocket (q : BufferQueue) (taken : Nat) (body : Int) : Int × Bytes × BufferQueue :=
  let sent := q.readable.take taken
  let q := { q with readable := q.readable.drop taken }
  if q.readable = [] then
    if q.msgptr then
      if body = fileSendfileError then (tigersoIoError, sent, q)
      else if body = fileSendfileDone then
        (tigersoIoOk, sent, { q with senddone := true, msgptr := false })
      else (tigersoIoOk, sent, q)
    else (HttpBodyFile.toInt sent.length, sent, q.clear)
  else (HttpBodyFile.toInt sent.length, sent, q)

end BufferQueue

namespace Buffer

def queue (b : Buffer) : BufferQueue := ⟨b.content, b.msgptr, b.senddone⟩

section
variable {b b' : Buffer} {data : Bytes} {realloc : Realloc}

end

end Buffer
