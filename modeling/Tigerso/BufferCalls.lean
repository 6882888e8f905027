import Tigerso.CText
import Tigerso.NetBuffer
import Tigerso.SocketUtil

/-!
# net/Buffer: reading, sending, removing

The calls of a buffer with what the socket and `realloc` answer. A copy or a terminator that
leaves the allocation, and a `memcpy` between overlapping ranges, have no result.
-/

open SystemCalls ByteMemory DiskFile SocketUtil

/-- Which sizes `realloc` grants during a call; it never grants more than `PTRDIFF_MAX`. -/
structure Realloc where
  grants : Nat → Bool
  bounded : ∀ size, grants size = true → size < 2 ^ 63

namespace Buffer

/-- Whether `makeSpace(len)` is granted the size that it asks for. -/
def asked (realloc : Realloc) (b : Buffer) (len : Nat) : Bool :=
  (extendFor len 46 gainGap).any fun extend => realloc.grants (b.bufsize + extend)

/-- A `realloc` that grants nothing sets `errno` to it. -/
def enomem : Nat := 12

def sendOnce (isSSL : Bool) (b : Buffer) (r : SendResult) : Int × Bytes × Buffer :=
  let (io, n) := send isSSL b.readableBytes r
  if 0 < io then
    (1, window b.buffer b.readIdx n, { b with readIdx := b.readIdx + n })
  else (0, [], b)

/-- The loop of `sendToSocket`, where `ret` is `Send(…) > 0`. The socket takes `counts`, one
after the other, and then fails. -/
def sendWhile (isSSL : Bool) (errno : Nat) : List Nat → Int → Buffer → Int × Bytes × Buffer
  | [], ret, b => if b.readableBytes = 0 then (ret, [], b) else b.sendOnce isSSL (.failed errno)
  | n :: counts, ret, b =>
    if b.readableBytes = 0 then (ret, [], b)
    else
      let (ret, sent, b) := b.sendOnce isSSL (.sent n)
      let (ret, more, b) := sendWhile isSSL errno counts ret b
      (ret, sent ++ more, b)

/-- The end of `sendToSocket` and of `recvFromSocket`. -/
def report (ret : Int) (len : Nat) : Int :=
  if ret ≠ tigersoIoError then HttpBodyFile.toInt len else tigersoIoError

/-- What `sendToSocket` does behind the buffered bytes when a message is attached; `body` is
what `send2Socket` returns. -/
def sendBody (b : Buffer) (body : Int) : Int × Buffer :=
  if body = fileSendfileError then (tigersoIoError, b)
  else if body = fileSendfileDone then
    (tigersoIoOk, { b with senddone := true, msgptr := false })
  else (tigersoIoOk, b)

/-- `sendToSocket`; its result and the bytes that the socket took. -/
def sendToSocket (b : Buffer) (isSSL : Bool) (counts : List Nat) (errno : Nat) (body : Int) :
    Option (Int × Bytes × Buffer) :=
  let (ret, sent, b) := sendWhile isSSL errno counts 0 b
  if b.writeIdx = b.readIdx then
    if b.msgptr then
      let (ret, b) := b.sendBody body
      some (ret, sent, b)
    else some (report ret sent.length, sent, b.clear)
  else if b.writeIdx < b.readIdx + gainGap then
    b.align.map fun b => (report ret sent.length, sent, b)
  else some (report ret sent.length, sent, b)

def fill (b : Buffer) (data : Bytes) : Option Buffer :=
  (b.copyIn b.writeIdx data).map fun copied =>
    { copied with writeIdx := b.writeIdx + data.length }

/-- The test behind a receive, and what `extend` becomes. -/
def recvMore (realloc : Realloc) (b : Buffer) (extend : Nat) : Option (Buffer × Nat) :=
  if b.writeableBytes < pregap then
    (b.makeSpace extend (b.asked realloc extend)).map fun b => (b, sizeT (2 * extend))
  else some (b, extend)

/-- The body of the loop of `recvFromSocket`. -/
def recvNext (realloc : Realloc) (b : Buffer) (data : Bytes) (extend : Nat) :
    Option (Buffer × Nat) :=
  (b.fill data).bind fun b => b.recvMore realloc extend

/-- `makeSpace(len)` does not copy between overlapping ranges, and finds the space or is granted
it. -/
def supplied (realloc : Realloc) (b : Buffer) (len : Nat) : Bool :=
  b.align.any fun aligned => decide (len < aligned.writeableBytes) || b.asked realloc len

/-- `errno` behind the body of the loop: a `realloc` that grants nothing sets it. -/
def errnoNext (realloc : Realloc) (b : Buffer) (data : Bytes) (extend errno : Nat) : Nat :=
  match b.fill data with
  | none => errno
  | some filled =>
    if filled.writeableBytes < pregap ∧ filled.supplied realloc extend = false then enomem
    else errno

/-- The loop of `recvFromSocket`. The socket has `chunks`, one after the other, and then
`ending`. -/
def recvWhile (isSSL : Bool) (realloc : Realloc) (ending : RecvEnd) :
    List Bytes → Nat → Nat → Buffer → Option (Int × Bytes × Buffer)
  | [], errno, _, b => some ((recv isSSL errno b.writeableBytes (.ended ending)).1, [], b)
  | chunk :: chunks, errno, extend, b =>
    match recv isSSL errno b.writeableBytes (.bytes chunk) with
    | (ret, []) => some (ret, [], b)
    | (_, data) => (b.recvNext realloc data extend).bind fun next =>
      (recvWhile isSSL realloc ending chunks (b.errnoNext realloc data extend errno) next.2
        next.1).map fun (ret, more, b) => (ret, data ++ more, b)

/-- `recvFromSocket`, where `errno` is what an earlier call left; its result and the bytes that
were received. -/
def recvFromSocket (b : Buffer) (isSSL : Bool) (realloc : Realloc) (errno : Nat)
    (chunks : List Bytes) (ending : RecvEnd) : Option (Int × Bytes × Buffer) :=
  (recvWhile isSSL realloc ending chunks errno gainGap b).map fun (ret, data, b) =>
    (report ret data.length, data, b)

def terminated (b : Buffer) : Buffer :=
  { b with buffer := paste b.buffer b.writeIdx [0] }

/-- `toString`, which stores a terminator. -/
def toString (b : Buffer) : Option (Bytes × Buffer) :=
  (b.copyIn b.writeIdx [0]).map fun b =>
    (CText.cString (window b.buffer b.readIdx (b.readableBytes + 1)), b)

/-- `removeData`: its result and what it appends to `data`. The byte behind the removed ones is
put back, and `printInfo` calls `toString`. -/
def removeData (b : Buffer) (len : Nat) : Option (Nat × Bytes × Buffer) :=
  let remove_len := if b.readableBytes < len then b.readableBytes else len
  let start := b.readIdx
  let b := { b with readIdx := b.readIdx + remove_len }
  let tmp := b.buffer b.readIdx
  do
    let ended ← b.copyIn b.readIdx [0]
    let data := CText.cString (window ended.buffer start (remove_len + 1))
    let restored ← ended.copyIn ended.readIdx [tmp]
    let (_, b) ← restored.toString
    some (remove_len, data, b)

/-- The indices are in order and inside the allocation. -/
structure Within (b : Buffer) : Prop where
  behind : prefix_ ≤ b.readIdx
  order : b.readIdx ≤ b.writeIdx
  inside : b.writeIdx ≤ b.bufsize
  small : b.bufsize < 2 ^ 63

/-- And one byte is left. -/
structure Ordered (b : Buffer) : Prop extends Within b where
  room : b.writeIdx < b.bufsize

/-- The readable bytes. -/
def content (b : Buffer) : Bytes := window b.buffer b.readIdx (b.writeIdx - b.readIdx)

/-- The allocation was moved or has grown. -/
structure Kept (b b' : Buffer) : Prop where
  within : Within b'
  content : b'.content = b.content
  attached : b'.msgptr = b.msgptr

section
variable {b b' : Buffer} {len : Nat} {data : Bytes} {realloc : Realloc}

theorem content_length (b : Buffer) : b.content.length = b.writeIdx - b.readIdx :=
  window_length ..

theorem Within.readable (within : Within b) : b.readableBytes = b.content.length := by
  obtain ⟨_, order, inside, small⟩ := within
  rw [content_length]
  apply sizeT_eq <;> omega

theorem Within.writeable (within : Within b) : b.writeableBytes = b.bufsize - b.writeIdx := by
  obtain ⟨_, _, inside, small⟩ := within
  apply sizeT_eq <;> omega

theorem Within.prefree (within : Within b) : b.prefreeBytes = b.readIdx - prefix_ := by
  obtain ⟨behind, order, inside, small⟩ := within
  apply sizeT_eq <;> omega

theorem Within.moved (within : Within b) : b.writeIdx = b.readIdx + b.content.length := by
  rw [content_length, Nat.add_sub_cancel' within.order]

/-- Bytes that fit are copied to the end. -/
theorem Within.fill (within : Within b) (data : Bytes)
    (fits : b.writeIdx + data.length ≤ b.bufsize) :
    ∃ b', b.fill data = some b' ∧ Within b' ∧ b'.content = b.content ++ data ∧
      b'.writeIdx = b.writeIdx + data.length ∧ b'.bufsize = b.bufsize ∧
      b'.msgptr = b.msgptr := by
  refine ⟨{ b with
    buffer := paste b.buffer b.writeIdx data
    writeIdx := b.writeIdx + data.length }, ?_, ⟨within.behind,
      Nat.le_add_right_of_le within.order, fits, within.small⟩, ?_, rfl, rfl, rfl⟩
  · rw [Buffer.fill, copyIn, if_pos fits]
    rfl
  · have split : b.writeIdx + data.length - b.readIdx =
        b.writeIdx - b.readIdx + data.length := Nat.sub_add_comm within.order
    rw [Buffer.content, split]
    exact window_paste_append b.buffer within.order data

/-- `align` moves the readable bytes to the start, or nothing. -/
theorem Within.align (within : Within b) (aligned : b.align = some b') :
    Kept b b' ∧ b'.writeIdx ≤ b.writeIdx ∧ b'.bufsize = b.bufsize := by
  have readable := within.readable
  have moved := within.moved
  have behind := within.behind
  have inside := within.inside
  rw [Buffer.align] at aligned
  split_ifs at aligned with near apart
  · cases aligned
    exact ⟨⟨within, rfl, rfl⟩, Nat.le_refl _, rfl⟩
  · rw [readable, copyIn, window_length] at aligned
    have fits : prefix_ + b.content.length ≤ b.bufsize := by omega
    rw [if_pos fits] at aligned
    cases aligned
    have same : window b.buffer b.readIdx b.content.length = b.content := by
      rw [content_length]
      rfl
    refine ⟨⟨⟨Nat.le_refl _, Nat.le_add_right _ _, fits, within.small⟩, ?_, rfl⟩, ?_, rfl⟩
    · rw [Buffer.content]
      simp only [Nat.add_sub_cancel_left, same]
      exact window_paste_same _ _ _
    · simp only
      omega

theorem extendFor_more {len : Nat} : ∀ {shifts extend found : Nat},
    extendFor len shifts extend = some found → len < found
  | 0, _, _, found => nomatch found
  | shifts + 1, extend, _, found => by
    rw [extendFor] at found
    split_ifs at found with more
    · exact extendFor_more found
    · cases found
      exact Nat.lt_of_not_le more

/-- The content stays, whether the allocation grows or not. -/
theorem Within.makeSpace_kept (within : Within b)
    (made : b.makeSpace len (b.asked realloc len) = some b') : Kept b b' := by
  rw [Buffer.makeSpace] at made
  obtain ⟨b₁, aligned, made⟩ := Option.bind_eq_some_iff.mp made
  obtain ⟨kept, _, size⟩ := within.align aligned
  split_ifs at made with enough granted
  · cases made
    exact kept
  · obtain ⟨extend, grown, made⟩ := Option.bind_eq_some_iff.mp made
    cases made
    rw [asked, grown, Option.any_some, ← size] at granted
    exact ⟨⟨kept.within.behind, kept.within.order, Nat.le_add_right_of_le kept.within.inside,
      realloc.bounded _ granted⟩, kept.content, kept.attached⟩
  · obtain ⟨_, _, made⟩ := Option.bind_eq_some_iff.mp made
    cases made
    exact kept

/-- The space that was asked for is there. -/
theorem Within.makeSpace (within : Within b) (got : b.supplied realloc len = true) :
    ∃ b', b.makeSpace len (b.asked realloc len) = some b' ∧ Kept b b' ∧
      b'.writeIdx + len < b'.bufsize := by
  rw [supplied] at got
  cases aligned : b.align with
  | none =>
    rw [aligned] at got
    cases got
  | some b₁ =>
    obtain ⟨kept, _, size⟩ := within.align aligned
    have free := kept.within.writeable
    have inside := kept.within.inside
    rw [Buffer.makeSpace, aligned, Option.bind_eq_bind, Option.bind_some]
    by_cases enough : len < b₁.writeableBytes
    · rw [if_pos enough]
      exact ⟨b₁, rfl, kept, by omega⟩
    · rw [if_neg enough]
      rw [aligned, Option.any_some, decide_eq_false enough, Bool.false_or] at got
      rw [asked] at got ⊢
      cases grown : extendFor len 46 gainGap with
      | none =>
        rw [grown] at got
        cases got
      | some extend =>
        rw [grown, Option.any_some] at got
        have more := extendFor_more grown
        have bound := realloc.bounded _ got
        refine ⟨{ b₁ with bufsize := b₁.bufsize + extend }, ?_,
          ⟨⟨kept.within.behind, kept.within.order, Nat.le_add_right_of_le inside, ?_⟩,
            kept.content, kept.attached⟩, ?_⟩
        · simp only [Option.bind_eq_bind, Option.bind_some, Option.any_some, got, if_true]
        · rw [size]
          exact bound
        · simp only
          omega

/-- Data that gets its space is behind the content. -/
theorem Within.addData (within : Within b) (got : data ≠ [] → b.supplied realloc data.length = true)
    (room : b.writeIdx < b.bufsize ∨ data ≠ []) :
    ∃ b', b.addData data (b.asked realloc data.length) = some b' ∧ Ordered b' ∧
      b'.content = b.content ++ data ∧ b'.msgptr = b.msgptr := by
  rw [Buffer.addData]
  by_cases nothing : data.length = 0
  · obtain rfl := List.length_eq_zero_iff.mp nothing
    rw [if_pos nothing, List.append_nil]
    exact ⟨b, rfl, ⟨within, room.resolve_right fun more => more rfl⟩, rfl, rfl⟩
  · rw [if_neg nothing]
    obtain ⟨b₁, made, kept, free⟩ := within.makeSpace (got fun none => nothing (by rw [none]; rfl))
    obtain ⟨b₂, filled, within₂, content, index, size, attached⟩ :=
      kept.within.fill data (Nat.le_of_lt free)
    refine ⟨b₂, ?_, ⟨within₂, by rw [index, size]; exact free⟩, ?_, attached.trans kept.attached⟩
    · rw [made, ← filled, Buffer.fill, Option.map_eq_bind]
      rfl
    · rw [content, kept.content]

theorem Ordered.clear (ordered : Ordered b) : Ordered b.clear where
  behind := Nat.le_refl _
  order := Nat.le_refl _
  inside := ordered.behind.trans (ordered.order.trans ordered.inside)
  small := ordered.small
  room := Nat.lt_of_le_of_lt (ordered.behind.trans ordered.order) ordered.room

theorem clear_content (b : Buffer) : b.clear.content = [] := by
  rw [content, clear, Nat.sub_self, window_zero]

theorem sendOnce_sent (within : Within b) (isSSL : Bool) (n : Nat) :
    b.sendOnce isSSL (.sent n) =
      (1, b.content.take (accepted n b.content.length),
        { b with readIdx := b.readIdx + accepted n b.content.length }) := by
  rw [sendOnce, send, within.readable, Buffer.content, window_take, Nat.min_eq_left]
  · rfl
  · exact (accepted_le ..).trans (Nat.le_of_eq (window_length ..))

theorem sendOnce_failed (b : Buffer) (isSSL : Bool) (errno : Nat) :
    b.sendOnce isSSL (.failed errno) = (0, [], b) := by
  have stopped := send_failed_le isSSL b.readableBytes errno
  rw [sendOnce]
  exact if_neg (Int.not_lt.mpr stopped)

/-- What a loop of sends leaves of a buffer. -/
structure Sent (b : Buffer) (sent : Bytes) (b' : Buffer) : Prop where
  within : Within b'
  content : b.content = sent ++ b'.content
  index : b'.writeIdx = b.writeIdx
  size : b'.bufsize = b.bufsize
  attached : b'.msgptr = b.msgptr

theorem advance_content (b : Buffer) (k : Nat) :
    { b with readIdx := b.readIdx + k }.content = b.content.drop k := by
  rw [Buffer.content, Buffer.content, window_drop, Nat.sub_add_eq]

theorem Within.advance (within : Within b) {k : Nat} (fits : k ≤ b.content.length) :
    Sent b (b.content.take k) { b with readIdx := b.readIdx + k } where
  within := by
    have length := content_length b
    have order := within.order
    exact ⟨Nat.le_add_right_of_le within.behind, by simp only; omega, within.inside, within.small⟩
  content := by
    rw [advance_content, List.take_append_drop]
  index := rfl
  size := rfl
  attached := rfl

theorem Sent.append {b₁ b₂ : Buffer} {sent more : Bytes} (first : Sent b sent b₁)
    (second : Sent b₁ more b₂) : Sent b (sent ++ more) b₂ where
  within := second.within
  content := by rw [first.content, second.content, List.append_assoc]
  index := second.index.trans first.index
  size := second.size.trans first.size
  attached := second.attached.trans first.attached

/-- The loop sends what the socket takes, and never ends with the code of an error. -/
theorem sendWhile_sent (isSSL : Bool) (errno : Nat) (counts : List Nat) (within : Within b)
    {ret : Int} (fine : ret ≠ tigersoIoError) :
    ∃ ret' sent b', sendWhile isSSL errno counts ret b = (ret', sent, b') ∧
      ret' ≠ tigersoIoError ∧ Sent b sent b' := by
  have nothing : Sent b [] b := ⟨within, rfl, rfl, rfl, rfl⟩
  induction counts generalizing b ret with
  | nil =>
    rw [sendWhile, sendOnce_failed]
    split_ifs
    · exact ⟨_, _, _, rfl, fine, nothing⟩
    · exact ⟨_, _, _, rfl, by decide, nothing⟩
  | cons n counts ih =>
    rw [sendWhile, sendOnce_sent within]
    split_ifs
    · exact ⟨_, _, _, rfl, fine, nothing⟩
    · have first := within.advance (accepted_le n b.content.length)
      obtain ⟨ret', more, b', looped, fine', rest⟩ :=
        ih first.within (by decide : (1 : Int) ≠ tigersoIoError)
          ⟨first.within, rfl, rfl, rfl, rfl⟩
      simp only [looped]
      exact ⟨_, _, _, rfl, fine', first.append rest⟩

/-- Fewer bytes than the gap are moved without an overlap. -/
theorem Within.align_few (within : Within b) (few : b.content.length < gainGap) :
    ∃ b', b.align = some b' := by
  have moved := within.moved
  have inside := within.inside
  rw [Buffer.align, within.prefree, within.readable]
  split_ifs with near apart
  · exact ⟨b, rfl⟩
  · have fits : prefix_ + (window b.buffer b.readIdx b.content.length).length ≤ b.bufsize := by
      rw [window_length]
      omega
    rw [copyIn, if_pos fits]
    exact ⟨_, rfl⟩
  · exfalso
    omega

theorem sendBody_kept (b : Buffer) (body : Int) :
    ∃ msgptr senddone, (b.sendBody body).2 =
      { b with msgptr := msgptr, senddone := senddone } := by
  rw [sendBody]
  split_ifs
  · exact ⟨b.msgptr, b.senddone, rfl⟩
  · exact ⟨false, true, rfl⟩
  · exact ⟨b.msgptr, b.senddone, rfl⟩

/-- A loop of sends and what follows it. -/
theorem Ordered.sendToSocket (ordered : Ordered b) (isSSL : Bool) (counts : List Nat)
    (errno : Nat) (body : Int) : ∃ ret sent b',
      b.sendToSocket isSSL counts errno body = some (ret, sent, b') ∧ Ordered b' ∧
      b.content = sent ++ b'.content ∧
      (b.msgptr = false → b'.msgptr = false ∧ ret = HttpBodyFile.toInt sent.length) := by
  obtain ⟨ret, sent, b₁, looped, fine, left⟩ := sendWhile_sent isSSL errno counts
    ordered.toWithin (by decide : (0 : Int) ≠ tigersoIoError)
  have reported : report ret sent.length = HttpBodyFile.toInt sent.length := if_pos fine
  have ordered₁ : Ordered b₁ := ⟨left.within, by rw [left.index, left.size]; exact ordered.room⟩
  rw [Buffer.sendToSocket, looped]
  dsimp only
  split_ifs with all attached near
  · obtain ⟨msgptr, senddone, same⟩ := sendBody_kept b₁ body
    rw [same]
    refine ⟨_, _, _, rfl, ?_, left.content, fun detached => ?_⟩
    · exact ⟨⟨ordered₁.behind, ordered₁.order, ordered₁.inside, ordered₁.small⟩, ordered₁.room⟩
    · rw [left.attached, detached] at attached
      cases attached
  · have none : b₁.content = [] := by rw [content, all, Nat.sub_self, window_zero]
    refine ⟨_, _, _, rfl, ordered₁.clear, ?_, fun _ => ⟨rfl, reported⟩⟩
    rw [clear_content, left.content, none]
  · have few : b₁.content.length < gainGap := by
      have moved := left.within.moved
      omega
    obtain ⟨b₂, aligned⟩ := left.within.align_few few
    obtain ⟨kept, index, size⟩ := left.within.align aligned
    have room := ordered₁.room
    rw [aligned]
    refine ⟨_, _, _, rfl, ⟨kept.within, by omega⟩, ?_, fun detached => ?_⟩
    · rw [kept.content]
      exact left.content
    · exact ⟨kept.attached.trans (left.attached.trans detached), reported⟩
  · exact ⟨_, _, _, rfl, ordered₁, left.content, fun detached =>
      ⟨left.attached.trans detached, reported⟩⟩

/-- The test behind a receive leaves a byte. -/
theorem Within.recvMore (within : Within b) (extend : Nat)
    (got : b.writeableBytes < pregap → b.supplied realloc extend = true) :
    ∃ b' extend', b.recvMore realloc extend = some (b', extend') ∧ Ordered b' ∧
      b'.content = b.content ∧ b'.msgptr = b.msgptr := by
  rw [Buffer.recvMore]
  split_ifs with low
  · obtain ⟨b', made, kept, free⟩ := within.makeSpace (got low)
    rw [made]
    exact ⟨b', _, rfl, ⟨kept.within, by omega⟩, kept.content, kept.attached⟩
  · have free := within.writeable
    have enough : pregap ≤ b.writeableBytes := Nat.not_lt.mp low
    rw [pregap] at enough
    exact ⟨b, extend, rfl, ⟨within, by omega⟩, rfl, rfl⟩

end

/-- Every `makeSpace` of a loop of receives finds the space or is granted it. -/
def recvSupplied (isSSL : Bool) (realloc : Realloc) (errno : Nat) :
    List Bytes → Nat → Buffer → Bool
  | [], _, _ => true
  | chunk :: chunks, extend, b =>
    match recv isSSL errno b.writeableBytes (.bytes chunk) with
    | (_, []) => true
    | (_, data) => (b.fill data).all fun filled =>
      (decide (pregap ≤ filled.writeableBytes) || filled.supplied realloc extend) &&
        (b.recvNext realloc data extend).all fun next =>
          recvSupplied isSSL realloc errno chunks next.2 next.1

section
variable {b b' : Buffer} {isSSL : Bool} {realloc : Realloc} {errno extend : Nat}
  {ending : RecvEnd} {chunk : Bytes} {chunks : List Bytes}

theorem recvWhile_nothing (nothing : chunk.take b.writeableBytes = []) :
    recvWhile isSSL realloc ending (chunk :: chunks) errno extend b =
      some (ended isSSL errno .closed, [], b) := by
  rw [recvWhile, recv_nothing nothing]

theorem recvWhile_some (some_ : chunk.take b.writeableBytes ≠ []) :
    recvWhile isSSL realloc ending (chunk :: chunks) errno extend b =
      (b.recvNext realloc (chunk.take b.writeableBytes) extend).bind fun next =>
        (recvWhile isSSL realloc ending chunks
          (b.errnoNext realloc (chunk.take b.writeableBytes) extend errno) next.2 next.1).map
          fun later => (later.1, chunk.take b.writeableBytes ++ later.2.1, later.2.2) := by
  rw [recvWhile, recv_bytes some_]
  obtain ⟨byte, rest, eq⟩ := List.exists_cons_of_ne_nil some_
  rw [eq]

theorem recvSupplied_some (some_ : chunk.take b.writeableBytes ≠ []) :
    recvSupplied isSSL realloc errno (chunk :: chunks) extend b =
      (b.fill (chunk.take b.writeableBytes)).all fun filled =>
        (decide (pregap ≤ filled.writeableBytes) || filled.supplied realloc extend) &&
          (b.recvNext realloc (chunk.take b.writeableBytes) extend).all fun next =>
            recvSupplied isSSL realloc errno chunks next.2 next.1 := by
  rw [recvSupplied, recv_bytes some_]
  obtain ⟨byte, rest, eq⟩ := List.exists_cons_of_ne_nil some_
  rw [eq]

/-- The results do not depend on an earlier `errno`. -/
theorem recvSupplied_errno (errno' : Nat) :
    recvSupplied isSSL realloc errno chunks extend b =
      recvSupplied isSSL realloc errno' chunks extend b := by
  induction chunks generalizing b extend with
  | nil => rfl
  | cons chunk chunks ih =>
    by_cases nothing : chunk.take b.writeableBytes = []
    · rw [recvSupplied, recvSupplied, recv_nothing nothing, recv_nothing nothing]
    · rw [recvSupplied_some nothing, recvSupplied_some nothing]
      simp only [ih]

/-- One receive. -/
theorem Ordered.recvNext (ordered : Ordered b)
    (got : recvSupplied isSSL realloc errno (chunk :: chunks) extend b = true)
    (some_ : chunk.take b.writeableBytes ≠ []) :
    ∃ next extend', b.recvNext realloc (chunk.take b.writeableBytes) extend = some (next, extend') ∧
      Ordered next ∧ next.content = b.content ++ chunk.take b.writeableBytes ∧
      next.msgptr = b.msgptr ∧
      recvSupplied isSSL realloc errno chunks extend' next = true := by
  have free := ordered.writeable
  have inside := ordered.inside
  have fits : b.writeIdx + (chunk.take b.writeableBytes).length ≤ b.bufsize := by
    rw [List.length_take]
    omega
  obtain ⟨filled, fill, within, content, _, _, attached⟩ := ordered.toWithin.fill _ fits
  rw [recvSupplied_some some_, fill, Option.all_some, Bool.and_eq_true, Bool.or_eq_true,
    decide_eq_true_iff] at got
  obtain ⟨next, extend', more, ordered', same, attached'⟩ := within.recvMore extend
    fun low => got.1.resolve_left (Nat.not_le.mpr low)
  have received : b.recvNext realloc (chunk.take b.writeableBytes) extend =
      some (next, extend') := by
    rw [Buffer.recvNext, fill]
    exact more
  rw [received] at got
  exact ⟨next, extend', received, ordered', same.trans content, attached'.trans attached, got.2⟩

/-- A loop of receives appends what the socket has. -/
theorem recvWhile_received (ending : RecvEnd) (ordered : Ordered b)
    (got : recvSupplied isSSL realloc errno chunks extend b = true) :
    ∃ ret data b', recvWhile isSSL realloc ending chunks errno extend b = some (ret, data, b') ∧
      Ordered b' ∧ b'.content = b.content ++ data ∧ b'.msgptr = b.msgptr := by
  induction chunks generalizing b errno extend with
  | nil => exact ⟨_, [], b, rfl, ordered, (List.append_nil _).symm, rfl⟩
  | cons chunk chunks ih =>
    by_cases nothing : chunk.take b.writeableBytes = []
    · rw [recvWhile_nothing nothing]
      exact ⟨_, [], b, rfl, ordered, (List.append_nil _).symm, rfl⟩
    · obtain ⟨next, extend', received, ordered', content, attached, got'⟩ :=
        ordered.recvNext got nothing
      obtain ⟨ret, more, b', looped, ordered'', content', attached'⟩ :=
        ih ordered' ((recvSupplied_errno _).symm.trans got')
      rw [recvWhile_some nothing, received, Option.bind_some, looped]
      refine ⟨ret, _, b', rfl, ordered'', ?_, attached'.trans attached⟩
      rw [content', content, List.append_assoc]

theorem Ordered.recvFromSocket (ordered : Ordered b) (ending : RecvEnd)
    (got : recvSupplied isSSL realloc errno chunks gainGap b = true) :
    ∃ ret data b', b.recvFromSocket isSSL realloc errno chunks ending = some (ret, data, b') ∧
      Ordered b' ∧ b'.content = b.content ++ data ∧ b'.msgptr = b.msgptr := by
  obtain ⟨ret, data, b', looped, rest⟩ := recvWhile_received ending ordered got
  rw [Buffer.recvFromSocket, looped]
  exact ⟨_, data, b', rfl, rest⟩

theorem Ordered.terminate (ordered : Ordered b) : b.copyIn b.writeIdx [0] = some b.terminated :=
  if_pos ordered.room

theorem Ordered.terminated (ordered : Ordered b) : Ordered b.terminated :=
  ⟨⟨ordered.behind, ordered.order, ordered.inside, ordered.small⟩, ordered.room⟩

theorem Ordered.terminated_content (ordered : Ordered b) : b.terminated.content = b.content := by
  have order := Nat.add_sub_cancel' ordered.order
  exact window_paste_disjoint b.buffer b.writeIdx [0] b.readIdx _
    (Or.inl (Nat.le_of_eq order))

/-- The terminator is behind the content. -/
theorem Ordered.toString (ordered : Ordered b) :
    b.toString = some (CText.cString b.content, b.terminated) := by
  have behind : window b.terminated.buffer b.terminated.readIdx (b.content.length + 1) =
      b.content ++ [0] := by
    rw [content_length]
    exact window_paste_append b.buffer ordered.order [(0 : Byte)]
  rw [Buffer.toString, ordered.terminate, Option.map_some, ordered.terminated.readable,
    ordered.terminated_content, behind, CText.cString_terminated]

/-- The bytes that are removed, up to the first zero among them. -/
theorem Ordered.removeData (ordered : Ordered b) (len : Nat) : ∃ b',
    b.removeData len = some (min len b.content.length,
      CText.cString (b.content.take (min len b.content.length)), b') ∧ Ordered b' ∧
    b'.content = b.content.drop (min len b.content.length) ∧ b'.msgptr = b.msgptr := by
  obtain ⟨k, size⟩ : ∃ k, k = min len b.content.length := ⟨_, rfl⟩
  have fits : k ≤ b.content.length := size ▸ Nat.min_le_right _ _
  have removed : (if b.readableBytes < len then b.readableBytes else len) = k := by
    rw [ordered.readable, size]
    split_ifs <;> omega
  obtain ⟨b₁, same⟩ : ∃ b₁, b₁ = { b with readIdx := b.readIdx + k } := ⟨_, rfl⟩
  have left := ordered.toWithin.advance fits
  rw [← same] at left
  have ordered₁ : Ordered b₁ := ⟨left.within, by rw [left.index, left.size]; exact ordered.room⟩
  have rest : b₁.content = b.content.drop k := same ▸ advance_content b k
  have room : b₁.readIdx + 1 ≤ b₁.bufsize :=
    Nat.lt_of_le_of_lt ordered₁.order ordered₁.room
  have cut : window (paste b₁.buffer b₁.readIdx [0]) b.readIdx (k + 1) =
      b.content.take k ++ [0] := by
    have behind := window_paste_append b.buffer (Nat.le_add_right b.readIdx k) [(0 : Byte)]
    rw [Nat.add_sub_cancel_left, List.length_singleton] at behind
    rw [same, Buffer.content, window_take, Nat.min_eq_left]
    · exact behind
    · exact fits.trans (Nat.le_of_eq (content_length b))
  have restored : ({ b₁ with
      buffer := paste (paste b₁.buffer b₁.readIdx [0]) b₁.readIdx [b₁.buffer b₁.readIdx] } :
        Buffer) = b₁ := by
    rw [paste_restore]
  refine ⟨b₁.terminated, ?_, ordered₁.terminated, ?_, left.attached⟩
  · have call : b.removeData len = (do
        let ended ← b₁.copyIn b₁.readIdx [0]
        let data := CText.cString (window ended.buffer b.readIdx (k + 1))
        let restored ← ended.copyIn ended.readIdx [b₁.buffer b₁.readIdx]
        let (_, b) ← restored.toString
        some (k, data, b)) := by
      rw [same, Buffer.removeData, removed]
    have first : b₁.copyIn b₁.readIdx [0] =
        some { b₁ with buffer := paste b₁.buffer b₁.readIdx [0] } := if_pos room
    have second : ({ b₁ with buffer := paste b₁.buffer b₁.readIdx [0] } : Buffer).copyIn
        b₁.readIdx [b₁.buffer b₁.readIdx] = some b₁ := by
      rw [copyIn, if_pos (by exact room), restored]
    rw [call, first, Option.bind_eq_bind, Option.bind_some]
    dsimp only
    rw [cut, second, Option.bind_some, ordered₁.toString, CText.cString_terminated, ← size]
    rfl
  · rw [ordered₁.terminated_content, rest, size]

end

end Buffer
