import Tigerso.BufferBounds

/-!
# net/Buffer: what a send or a receive reports

The codes that the results of a plain socket lead to, and how much of the bytes is gone or there.
-/

open SystemCalls SocketUtil HttpBodyFile

namespace Buffer

/-- The `int` of a length is the length below `2 ^ 31`. -/
theorem toInt_eq_iff (n : Nat) : toInt n = n ↔ n < 2 ^ 31 := by
  rw [toInt, Int.bmod_def]
  split_ifs <;> omega

theorem toInt_error_iff (n : Nat) : toInt n = tigersoIoError ↔ n % 2 ^ 32 = 2 ^ 32 - 1 := by
  rw [toInt, Int.bmod_def, tigersoIoError]
  split_ifs <;> omega

/-- How many bytes the socket takes before it fails. -/
def taken (counts : List Nat) : Nat := (counts.map (· + 1)).sum

/-- Some `::send` fails with an `errno` that does not ask for another try. -/
def sendFails (b : Buffer) (counts : List Nat) (errno : Nat) : Bool :=
  decide (taken counts < b.content.length) && !blocks errno

/-- The bytes that the socket took have left the buffer, and the result is their number, or the
code of an error if a send failed. -/
def ReportsSend (b : Buffer) (counts : List Nat) (errno : Nat) (body : Int) : Prop :=
  ∃ ret sent b', b.sendToSocket false counts errno body = some (ret, sent, b') ∧
    sent = b.content.take (taken counts) ∧ b.content = sent ++ b'.content ∧
    if b.sendFails counts errno then ret = tigersoIoError else ret = sent.length

section
variable {b b' : Buffer} {counts : List Nat} {errno : Nat}

theorem sendWhile_taken (isSSL : Bool) (within : Within b) (ret : Int) :
    (sendWhile isSSL errno counts ret b).2.1 = b.content.take (taken counts) := by
  induction counts generalizing b ret with
  | nil =>
    rw [sendWhile, sendOnce_failed]
    split_ifs <;> rfl
  | cons n counts ih =>
    rw [sendWhile, within.readable, sendOnce_sent within]
    split_ifs with empty
    · rw [List.length_eq_zero_iff.mp empty, List.take_nil]
    · have later := ih (within.advance (accepted_le n b.content.length)).within 1
      dsimp only
      rw [later, advance_content, ← List.take_add, List.take_eq_take_iff, taken, taken, accepted,
        List.map_cons, List.sum_cons]
      omega

theorem sendToSocket_sent {isSSL : Bool} {body ret : Int} {sent : Bytes}
    (done : b.sendToSocket isSSL counts errno body = some (ret, sent, b')) :
    sent = (sendWhile isSSL errno counts 0 b).2.1 := by
  rw [sendToSocket] at done
  dsimp only at done
  split_ifs at done
  · cases done
    rfl
  · cases done
    rfl
  · obtain ⟨_, _, done⟩ := Option.map_eq_some_iff.mp done
    cases done
    rfl
  · cases done
    rfl

/-- A send is reported as it went exactly when none fails and the number of bytes is an `int`;
or, behind a failed send, the number of bytes happens to be the code of an error. -/
theorem send_reports_iff (ordered : Ordered b) (detached : b.msgptr = false)
    (counts : List Nat) (errno : Nat) (body : Int) : ReportsSend b counts errno body ↔
      if b.sendFails counts errno then
        min (taken counts) b.content.length % 2 ^ 32 = 2 ^ 32 - 1
      else min (taken counts) b.content.length < 2 ^ 31 := by
  obtain ⟨ret, sent, b', done, _, content, reported⟩ :=
    ordered.sendToSocket false counts errno body
  obtain ⟨_, code⟩ := reported detached
  have all := sendToSocket_sent done
  rw [sendWhile_taken false ordered.toWithin] at all
  have length : sent.length = min (taken counts) b.content.length := by
    rw [all, List.length_take]
  have same : ReportsSend b counts errno body ↔
      if b.sendFails counts errno then ret = tigersoIoError else ret = sent.length := by
    constructor
    · rintro ⟨ret', sent', b'', done', _, _, right⟩
      cases done.symm.trans done'
      exact right
    · intro right
      exact ⟨ret, sent, b', done, all, content, right⟩
  rw [same, code, toInt_error_iff, toInt_eq_iff, length]

end

/-- Every chunk fits into the request that it answers. -/
def Fits (realloc : Realloc) : List Bytes → Nat → Buffer → Prop
  | [], _, _ => True
  | chunk :: chunks, extend, b => chunk ≠ [] ∧ chunk.length ≤ b.writeableBytes ∧
    ∀ next, b.recvNext realloc chunk extend = some next → Fits realloc chunks next.2 next.1

/-- The buffer behind the chunks, if no `makeSpace` copies between overlapping ranges. -/
def behindChunks (realloc : Realloc) : List Bytes → Nat → Buffer → Option Buffer
  | [], _, b => some b
  | chunk :: chunks, extend, b => (b.recvNext realloc chunk extend).bind fun next =>
    behindChunks realloc chunks next.2 next.1

/-- What the last `::recv` asks for: another try, or that the socket is given up. -/
def triesAgain (errno : Nat) : RecvEnd → Bool
  | .closed => blocks errno
  | .failed errno => blocks errno

/-- The `errno` that the last `::recv` finds: of before the call, or of a refused `realloc`. -/
def errnoLast (realloc : Realloc) (errno : Nat) (chunks : List Bytes) (b : Buffer) : Nat :=
  if recvSupplied false realloc errno chunks gainGap b then errno else enomem

/-- The result of a receive without bytes: 0 if it would have blocked. -/
def emptyHanded : RecvEnd → Int
  | .closed => tigersoIoError
  | .failed errno => if blocks errno then 0 else tigersoIoError

/-- The received bytes are appended, and the result is their number; without any it is 0 if the
read would have blocked, and the code of an error else. -/
def ReportsReceive (b : Buffer) (realloc : Realloc) (errno : Nat) (chunks : List Bytes)
    (ending : RecvEnd) : Prop :=
  ∃ ret b', b.recvFromSocket false realloc errno chunks ending = some (ret, chunks.flatten, b') ∧
    b'.content = b.content ++ chunks.flatten ∧
    if chunks ≠ [] then ret = chunks.flatten.length
    else ret = emptyHanded ending

section
variable {b b' : Buffer} {realloc : Realloc} {errno extend : Nat} {chunk : Bytes}
  {chunks : List Bytes} {ending : RecvEnd}

/-- A chunk is behind the content, whether the allocation grows or not. -/
theorem Within.recvNext (within : Within b) (fits : chunk.length ≤ b.writeableBytes)
    {next : Buffer × Nat} (received : b.recvNext realloc chunk extend = some next) :
    Within next.1 ∧ next.1.content = b.content ++ chunk := by
  have free := within.writeable
  have inside := within.inside
  obtain ⟨filled, fill, within', content, _⟩ := within.fill chunk (by omega)
  rw [Buffer.recvNext, fill, Option.bind_some, Buffer.recvMore] at received
  split_ifs at received
  · obtain ⟨b', made, rfl⟩ := Option.map_eq_some_iff.mp received
    have kept := within'.makeSpace_kept made
    exact ⟨kept.within, kept.content.trans content⟩
  · cases received
    exact ⟨within', content⟩

/-- While every growth is granted, all that comes is behind the other bytes. -/
theorem recvWhile_fits (errno : Nat) (ending : RecvEnd) (within : Within b)
    (fits : Fits realloc chunks extend b) :
    recvWhile false realloc ending chunks errno extend b =
      (behindChunks realloc chunks extend b).map fun b' =>
        (ended false (if recvSupplied false realloc errno chunks extend b then errno else enomem)
          ending, chunks.flatten, b') := by
  induction chunks generalizing b errno extend with
  | nil => rfl
  | cons chunk chunks ih =>
    obtain ⟨some_, fit, later⟩ := fits
    have whole : chunk.take b.writeableBytes = chunk := List.take_of_length_le fit
    have more : chunk.take b.writeableBytes ≠ [] := by
      rw [whole]
      exact some_
    rw [recvWhile_some more, recvSupplied_some more, whole, behindChunks]
    cases received : b.recvNext realloc chunk extend with
    | none => rfl
    | some next =>
      obtain ⟨filled, fill, _⟩ := Option.bind_eq_some_iff.mp received
      rw [Option.bind_some, Option.bind_some,
        ih _ (within.recvNext fit received).1 (later next received), Option.map_map, fill,
        errnoNext, fill, recvSupplied_errno errno]
      dsimp only [Option.all_some]
      -- one refused growth is enough
      have found : (if recvSupplied false realloc errno chunks next.2 next.1 then
          if filled.writeableBytes < pregap ∧ filled.supplied realloc extend = false then enomem
            else errno
          else enomem) =
          if (decide (pregap ≤ filled.writeableBytes) || filled.supplied realloc extend) &&
            recvSupplied false realloc errno chunks next.2 next.1 then errno else enomem := by
        grind
      rw [found]
      rfl

theorem behindChunks_content (within : Within b) (fits : Fits realloc chunks extend b)
    (behind : behindChunks realloc chunks extend b = some b') :
    b'.content = b.content ++ chunks.flatten := by
  induction chunks generalizing b extend with
  | nil =>
    cases behind
    exact (List.append_nil _).symm
  | cons chunk chunks ih =>
    obtain ⟨_, fit, later⟩ := fits
    rw [behindChunks] at behind
    obtain ⟨next, received, behind⟩ := Option.bind_eq_some_iff.mp behind
    obtain ⟨within', content⟩ := within.recvNext fit received
    rw [ih within' (later next received) behind, content, List.append_assoc]
    rfl

theorem ended_plain (errno : Nat) (ending : RecvEnd) : ended false errno ending =
    if triesAgain errno ending then tigersoIoRecall else tigersoIoError := by
  cases ending <;> rfl

theorem report_plain (errno len : Nat) (ending : RecvEnd) :
    report (ended false errno ending) len =
      if triesAgain errno ending then toInt len else tigersoIoError := by
  rw [ended_plain, report]
  split_ifs with again error error
  · rfl
  · exact absurd error (by decide)
  · exact absurd rfl error
  · rfl

/-- A receive is reported as it went exactly when no `makeSpace` copies between overlapping
ranges, and the last `::recv` asks for another try, behind fewer than `2 ^ 31` bytes, or comes
without any bytes before it and does not take an old `errno` for its own. -/
theorem receive_reports_iff (ordered : Ordered b) (fits : Fits realloc chunks gainGap b) :
    ReportsReceive b realloc errno chunks ending ↔
      (behindChunks realloc chunks gainGap b).isSome = true ∧
      if chunks ≠ [] then
        triesAgain (b.errnoLast realloc errno chunks) ending = true ∧
          chunks.flatten.length < 2 ^ 31
      else ending = .closed → blocks errno = false := by
  have looped := recvWhile_fits errno ending ordered.toWithin fits
  rw [← errnoLast] at looped
  cases behind : behindChunks realloc chunks gainGap b with
  | none =>
    rw [behind] at looped
    refine iff_of_false ?_ (fun met => Bool.false_ne_true met.1)
    rintro ⟨ret, b', received, _⟩
    rw [recvFromSocket, looped] at received
    cases received
  | some b' =>
    have content := behindChunks_content ordered.toWithin fits behind
    rw [behind, Option.map_some] at looped
    obtain ⟨last, last_eq⟩ : ∃ last, last = b.errnoLast realloc errno chunks := ⟨_, rfl⟩
    rw [← last_eq] at looped ⊢
    have same : ReportsReceive b realloc errno chunks ending ↔
        if chunks ≠ [] then
          report (ended false last ending) chunks.flatten.length = chunks.flatten.length
        else report (ended false last ending) chunks.flatten.length = emptyHanded ending := by
      constructor
      · rintro ⟨ret, b'', received, _, right⟩
        rw [recvFromSocket, looped] at received
        cases received
        exact right
      · intro right
        exact ⟨_, b', by rw [recvFromSocket, looped]; rfl, content, right⟩
    rw [same, Option.isSome_some]
    by_cases some_ : chunks ≠ []
    · rw [if_pos some_, if_pos some_, report_plain]
      generalize chunks.flatten.length = received
      cases triesAgain last ending with
      | true => simp [toInt_eq_iff]
      | false =>
        have negative : ¬ tigersoIoError = (received : Int) := by
          rw [tigersoIoError]
          omega
        simpa using negative
    · have zero : toInt 0 = 0 := by decide
      have error : ¬ (0 : Int) = tigersoIoError := by decide
      have none_ := not_not.mp some_
      have before : last = errno := by
        rw [last_eq, none_]
        rfl
      rw [if_neg some_, if_neg some_, report_plain, none_, before]
      cases ending with
      | closed => cases stale : blocks errno <;> simp [triesAgain, emptyHanded, stale, zero, error]
      | failed e => simp [triesAgain, emptyHanded, zero]

end

def threeBytes : Buffer := ⟨fun _ => 7, 8, 11, 64, false, false⟩

theorem threeBytes_ordered : threeBytes.Ordered :=
  ⟨⟨by decide, by decide, by decide, by decide⟩, by decide⟩

/-- Two of three bytes are sent, and then the socket would block. -/
theorem two_reported : ReportsSend threeBytes [1] eagain 0 :=
  (send_reports_iff threeBytes_ordered rfl [1] eagain 0).mpr (by decide)

/-- The connection is gone: 0 is returned, as for a socket that would block. -/
theorem broken_unreported : ¬ ReportsSend threeBytes [] 32 0 := by
  rintro ⟨ret, sent, b', done, all, _, right⟩
  obtain ⟨ret', sent', b'', done', _, _, reported⟩ :=
    threeBytes_ordered.sendToSocket false [] 32 0
  cases done.symm.trans done'
  obtain ⟨_, code⟩ := reported rfl
  have fails : threeBytes.sendFails [] 32 = true := by decide
  rw [if_pos fails, code, all] at right
  exact absurd right (by decide)

/-- Two bytes, and then the socket would block. -/
theorem two_received : ReportsReceive threeBytes refusing 0 [[1, 2]] (.failed eagain) := by
  have fits : Fits refusing [[1, 2]] gainGap threeBytes :=
    ⟨by decide, by decide, fun _ _ => trivial⟩
  exact (receive_reports_iff threeBytes_ordered fits).mpr (by decide +kernel)

/-- One byte, and then the end of the stream: the byte is not reported. -/
theorem last_byte_dropped : ¬ ReportsReceive threeBytes refusing 0 [[1]] .closed := by
  rintro ⟨ret, b', received, _, right⟩
  have code : (threeBytes.recvFromSocket false refusing 0 [[1]] .closed).map Prod.fst =
      some tigersoIoError := by decide +kernel
  rw [received] at code
  cases code
  exact absurd right (by decide)

end Buffer
