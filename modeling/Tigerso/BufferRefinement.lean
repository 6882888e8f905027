import Tigerso.BufferQueue

/-!
# net/Buffer: runs are those of the queue

Whatever calls are made of a buffer that gets its space, they answer what the queue answers, and the
buffer holds what the queue holds.
-/

open SystemCalls DiskFile SocketUtil GuardedRuns

/-- What a call hands back. -/
inductive BufferReply where
  | done
  | received (ret : Int) (data : Bytes)
  | sent (ret : Int) (data : Bytes)
  | removed (ret : Nat) (data : Bytes)
  | text (data : Bytes)

namespace BufferQueue

/-- `removeData`, which hands out a C string. -/
def removeData (q : BufferQueue) (len : Nat) : Nat × Bytes × BufferQueue :=
  let n := min len q.readable.length
  (n, CText.cString (q.readable.take n), { q with readable := q.readable.drop n })

/-- What the queue answers to a call. How much a socket takes or has is not known before. -/
inductive Answers (q : BufferQueue) : BufferCall → BufferReply → BufferQueue → Prop
  | addData {data realloc} : Answers q (.addData data realloc) .done (q.addData data)
  | recvFromSocket {isSSL realloc errno chunks ending} (ret : Int) (data : Bytes) :
      Answers q (.recvFromSocket isSSL realloc errno chunks ending) (.received ret data)
        (q.addData data)
  | sendToSocket {isSSL counts errno body ret} {sent : Bytes} {q' : BufferQueue}
      (front : sent <+: q.readable) (sends : q.sendToSocket sent.length body = (ret, sent, q')) :
      Answers q (.sendToSocket isSSL counts errno body) (.sent ret sent) q'
  | removeData {len} : Answers q (.removeData len)
      (.removed (q.removeData len).1 (q.removeData len).2.1) (q.removeData len).2.2
  | attachNothing {realloc} : Answers q (.attachHttpMessage none realloc) .done q
  | attachHttpMessage {header realloc} :
      Answers q (.attachHttpMessage (some header) realloc) .done (.attachHttpMessage header)
  | clear : Answers q .clear .done q.clear
  | toString : Answers q .toString (.text (CText.cString q.readable)) q

/-- Calls of a new queue, with their answers. -/
inductive Run : List (BufferCall × BufferReply) → BufferQueue → Prop
  | start : Run [] construct
  | call {log q c r q'} (run : Run log q) (answers : q.Answers c r q') : Run (log ++ [(c, r)]) q'

end BufferQueue

namespace Buffer

/-- What a call hands back and leaves; no result where it reads or writes outside the allocation. -/
def reply (b : Buffer) : BufferCall → Option (BufferReply × Buffer)
  | .addData data realloc =>
    (b.addData data (b.asked realloc data.length)).map fun b => (.done, b)
  | .recvFromSocket isSSL realloc errno chunks ending =>
    (b.recvFromSocket isSSL realloc errno chunks ending).map fun (ret, data, b) =>
      (.received ret data, b)
  | .sendToSocket isSSL counts errno body =>
    (b.sendToSocket isSSL counts errno body).map fun (ret, data, b) => (.sent ret data, b)
  | .removeData len => (b.removeData len).map fun (ret, data, b) => (.removed ret data, b)
  | .attachHttpMessage none _ => some (.done, b)
  | .attachHttpMessage (some header) realloc =>
    (b.attachHttpMessage header (b.asked realloc header.length)).map fun b => (.done, b)
  | .clear => some (.done, b.clear)
  | .toString => b.toString.map fun (data, b) => (.text data, b)

/-- A buffer and the calls that were made of it. -/
structure Logged where
  buf : Buffer
  log : List (BufferCall × BufferReply)

def Logged.call (s : Logged) (c : BufferCall) : Option Logged :=
  (s.buf.reply c).map fun (r, buf) => ⟨buf, s.log ++ [(c, r)]⟩

/-- The call gets its space. -/
def Logged.Met (s : Logged) (c : BufferCall) : Prop := s.buf.Met c

instance (s : Logged) (c : BufferCall) : Decidable (s.Met c) :=
  inferInstanceAs (Decidable (s.buf.Met c))

section
variable {b b' : Buffer}

end

end Buffer
