import Tigerso.HttpBodyFile

/-!
# net/Buffer: header bytes in front of a message body

Indices are offsets into the allocation. A copy that leaves the allocation, or a
`memcpy` between overlapping ranges, is undefined behaviour and has no result. An
attached message is sent behind the buffered bytes; the buffer itself only knows
whether one is attached.
-/

open SystemCalls ByteMemory DiskFile RingBuffer

def bufferLeastLength : Nat := 256 * 1024
def bufferGapLength : Nat := bufferLeastLength

structure Buffer where
  buffer : Nat → Byte
  readIdx : Nat
  writeIdx : Nat
  bufsize : Nat
  /-- `msgptr_ != nullptr`. -/
  msgptr : Bool
  senddone : Bool

namespace Buffer

def pregap : Nat := 8
def prefix_ : Nat := pregap
def leastLen : Nat := bufferLeastLength
def gainGap : Nat := bufferGapLength

/-- The constructor; `garbage` is what `malloc` left in the allocation. -/
def construct (size : Nat) (garbage : Nat → Byte) : Buffer :=
  ⟨garbage, prefix_, prefix_, if size < prefix_ then leastLen else size, false, false⟩

def readableBytes (b : Buffer) : Nat := sizeT (b.writeIdx - b.readIdx : Int)

def writeableBytes (b : Buffer) : Nat := sizeT (b.bufsize - b.writeIdx : Int)

def prefreeBytes (b : Buffer) : Nat := sizeT (b.readIdx - prefix_ : Int)

def isSendDone (b : Buffer) : Bool :=
  if b.msgptr then b.senddone else b.readableBytes == 0

def clear (b : Buffer) : Buffer :=
  { b with readIdx := prefix_, writeIdx := prefix_, msgptr := false }

/-- `memcpy` into the allocation at offset `off`. -/
def copyIn (b : Buffer) (off : Nat) (bytes : Bytes) : Option Buffer :=
  if off + bytes.length ≤ b.bufsize then some { b with buffer := paste b.buffer off bytes }
  else none

def align (b : Buffer) : Option Buffer :=
  if b.prefreeBytes < gainGap then some b
  else if b.readableBytes = 0 ∨ prefix_ + b.readableBytes ≤ b.readIdx then do
    let moved ← b.copyIn prefix_ (window b.buffer b.readIdx b.readableBytes)
    some { moved with readIdx := prefix_, writeIdx := prefix_ + b.readableBytes }
  else none

/-- `while((extend + bufsize_) <= need) { extend = extend << 1; }` with
`need = len + bufsize_`; it does not end once `extend` has been shifted to 0. -/
def extendFor (len : Nat) : Nat → Nat → Option Nat
  | 0, _ => none
  | shifts + 1, extend =>
    if extend ≤ len then extendFor len shifts (2 * extend) else some extend

/-- `makeSpace`; `granted` is whether `realloc` succeeds. -/
def makeSpace (b : Buffer) (len : Nat) (granted : Bool) : Option Buffer := do
  let b ← b.align
  if len < b.writeableBytes then some b
  else
    let extend ← extendFor len 46 gainGap
    if granted then some { b with bufsize := b.bufsize + extend } else some b

/-- `addData`, whose result is the number of bytes. -/
def addData (b : Buffer) (bytes : Bytes) (granted : Bool) : Option Buffer :=
  if bytes.length = 0 then some b
  else do
    let b ← b.makeSpace bytes.length granted
    let copied ← b.copyIn b.writeIdx bytes
    some { copied with writeIdx := b.writeIdx + bytes.length }

/-- `attachHttpMessage` of a message with this header. -/
def attachHttpMessage (b : Buffer) (header : Bytes) (granted : Bool) : Option Buffer :=
  { b.clear with msgptr := true, senddone := false }.addData header granted

/-- Progress of the send loop; `settled = false` while it waits for a result. -/
structure SendLoop where
  settled : Bool
  readIdx : Nat
  sent : Bytes
  rest : List WriteResult

/-- `while(readableBytes() > 0 && SocketUtil::Send(…) > 0)`. -/
def sendLoop (b : Buffer) (isSSL : Bool) : List WriteResult → Nat → SendLoop
  | [], readIdx =>
    if readIdx < b.writeIdx then ⟨false, readIdx, [], []⟩ else ⟨true, readIdx, [], []⟩
  | r :: results, readIdx =>
    if readIdx < b.writeIdx then
      let bytes := window b.buffer readIdx (b.writeIdx - readIdx)
      match (writeSocket isSSL () bytes r).1 with
      | .moved n =>
        let later := b.sendLoop isSSL results (readIdx + n)
        { later with sent := bytes.take n ++ later.sent }
      | _ => ⟨true, readIdx, [], results⟩
    else ⟨true, readIdx, [], r :: results⟩

end Buffer

/-- A buffer and the message attached to it, on their way to a socket. -/
structure Delivery where
  buf : Buffer
  transfer : Transfer

namespace Delivery

open Buffer HttpBodyFile

/-- The part of `sendToSocket` behind the buffered bytes. -/
def sendBody (sendfile : Bool) (mcsock : Socket) (d : Delivery) :
    Except Delivery (Int × Delivery) :=
  match d.transfer.send2Socket sendfile mcsock with
  | .error transfer => .error ⟨d.buf, transfer⟩
  | .ok (ret, transfer) =>
    if ret = fileSendfileError then .ok (tigersoIoError, ⟨d.buf, transfer⟩)
    else if ret = fileSendfileDone then
      .ok (tigersoIoOk, ⟨{ d.buf with senddone := true, msgptr := false }, transfer⟩)
    else .ok (tigersoIoOk, ⟨d.buf, transfer⟩)

/-- `Buffer::sendToSocket`. The `ret` of its loop is the comparison, so no failed
send is reported. -/
def sendToSocket (sendfile : Bool) (mcsock : Socket) (d : Delivery) :
    Except Delivery (Int × Delivery) :=
  let loop := d.buf.sendLoop mcsock.isSSL d.transfer.results d.buf.readIdx
  let buf := { d.buf with readIdx := loop.readIdx }
  let transfer : Transfer :=
    { d.transfer with sent := d.transfer.sent ++ loop.sent, results := loop.rest }
  let len := toInt loop.sent.length
  if !loop.settled then .error ⟨buf, transfer⟩
  else if buf.writeIdx = buf.readIdx then
    if buf.msgptr then sendBody sendfile mcsock ⟨buf, transfer⟩
    else .ok (len, ⟨buf.clear, transfer⟩)
  else if buf.writeIdx < buf.readIdx + gainGap then
    match buf.align with
    | none => .error ⟨buf, transfer⟩
    | some buf => .ok (len, ⟨buf, transfer⟩)
  else .ok (len, ⟨buf, transfer⟩)

/-- Send until `isSendDone()` or an error. -/
def sendUntilDone (sendfile : Bool) (mcsock : Socket) :
    Nat → Delivery → Except Delivery (Int × Delivery)
  | 0, d => .error d
  | fuel + 1, d => do
    let (ret, d) ← d.sendToSocket sendfile mcsock
    if ret = tigersoIoError ∨ d.buf.isSendDone then .ok (ret, d)
    else sendUntilDone sendfile mcsock fuel d

end Delivery

namespace Buffer

/-- An allocation as the constructor and `makeSpace` leave it. -/
structure Allocated (b : Buffer) : Prop where
  room : prefix_ ≤ b.bufsize
  small : b.bufsize < 2 ^ 64

/-- The buffer holds `todo` unsent, and a message is attached behind it. -/
structure Holds (b : Buffer) (todo : Bytes) : Prop where
  attached : b.msgptr = true
  pending : b.senddone = false
  behind : prefix_ ≤ b.readIdx
  order : b.readIdx ≤ b.writeIdx
  inside : b.writeIdx ≤ b.bufsize
  small : b.writeIdx < 2 ^ 64
  unsent : window b.buffer b.readIdx (b.writeIdx - b.readIdx) = todo

section
variable {b : Buffer} {todo : Bytes}

theorem construct_allocated {size : Nat} (small : size < 2 ^ 64) (garbage : Nat → Byte) :
    (construct size garbage).Allocated := by
  constructor
  · show 8 ≤ if size < 8 then 262144 else size
    split_ifs <;> omega
  · show (if size < 8 then 262144 else size) < 2 ^ 64
    split_ifs <;> omega

theorem Holds.length (h : b.Holds todo) : todo.length = b.writeIdx - b.readIdx := by
  rw [← h.unsent, window_length]

theorem Holds.readable (h : b.Holds todo) : b.readableBytes = todo.length := by
  have length := h.length
  obtain ⟨_, _, _, order, _, small, _⟩ := h
  rw [length]
  apply sizeT_eq <;> omega

/-- What the send loop has done from `readIdx` on. -/
structure LoopSent (b : Buffer) (results : List WriteResult) (readIdx : Nat)
    (loop : SendLoop) : Prop where
  from_ : readIdx ≤ loop.readIdx
  upTo : loop.readIdx ≤ b.writeIdx
  sent : loop.sent = window b.buffer readIdx (loop.readIdx - readIdx)
  suffix : loop.rest <:+ results
  pace : moving results ≤ moving loop.rest + (loop.readIdx - readIdx)
  starved : loop.settled = false → loop.rest = [] ∧ loop.readIdx < b.writeIdx
  cut : loop.settled = true → loop.readIdx < b.writeIdx →
    loop.rest.length < results.length ∧ ∃ r ∈ results, ¬ r.IsTook

/-- The loop of sends, without a result that fails. -/
theorem sendLoop_spec (isSSL : Bool) (results : List WriteResult)
    (calm : ∀ r ∈ results, r ≠ .failed) (readIdx : Nat) (order : readIdx ≤ b.writeIdx) :
    LoopSent b results readIdx (b.sendLoop isSSL results readIdx) := by
  induction results generalizing readIdx with
  | nil =>
    rw [sendLoop]
    split_ifs with more
    · exact ⟨Nat.le_refl _, order, by simp, List.suffix_rfl, Nat.le_add_right _ _,
        fun _ => ⟨rfl, more⟩, fun e => Bool.noConfusion e⟩
    · exact ⟨Nat.le_refl _, order, by simp, List.suffix_rfl, Nat.le_add_right _ _,
        fun e => Bool.noConfusion e, fun _ e => absurd e more⟩
  | cons r results ih =>
    rw [sendLoop]
    split_ifs with more
    · have length : (window b.buffer readIdx (b.writeIdx - readIdx)).length =
          b.writeIdx - readIdx := window_length ..
      cases r with
      | took n =>
        obtain ⟨k, taken, positive, fits⟩ : ∃ k,
            (writeSocket isSSL () (window b.buffer readIdx (b.writeIdx - readIdx)) (.took n)).1 =
              .moved k ∧ 0 < k ∧ k ≤ b.writeIdx - readIdx := by
          refine ⟨accepted n (b.writeIdx - readIdx), ?_, accepted_pos (by omega), accepted_le ..⟩
          rw [writeSocket, if_neg (by simp; omega), length]
        obtain ⟨from_, upTo, sent, suffix, pace, starved, cut⟩ :=
          ih (fun r hr => calm r (List.mem_cons_of_mem _ hr)) (readIdx + k) (by omega)
        simp only [taken]
        generalize b.sendLoop isSSL results (readIdx + k) = later at *
        have span : later.readIdx - readIdx = k + (later.readIdx - (readIdx + k)) := by omega
        refine ⟨(Nat.le_add_right _ _).trans from_, upTo, ?_, suffix.trans (List.suffix_cons _ _),
          ?_, starved, ?_⟩
        · show _ ++ later.sent = window b.buffer readIdx (later.readIdx - readIdx)
          rw [span, window_add, sent, window_take, Nat.min_eq_left fits]
        · show moving _ ≤ moving later.rest + (later.readIdx - readIdx)
          rw [moving_took, span]
          omega
        · intro settled behind
          obtain ⟨used, r, mem, stopped⟩ := cut settled behind
          exact ⟨Nat.lt_succ_of_lt used, r, List.mem_cons_of_mem _ mem, stopped⟩
      | wouldBlock =>
        simp only [writeSocket]
        refine ⟨Nat.le_refl _, order, by simp, List.suffix_cons _ _, ?_,
          fun e => Bool.noConfusion e, fun _ _ => ⟨Nat.lt_succ_self _, .wouldBlock,
            List.mem_cons_self, id⟩⟩
        rw [moving_of_not_took (show ¬ WriteResult.wouldBlock.IsTook from id)]
        exact Nat.le_add_right _ _
      | failed => exact absurd rfl (calm _ List.mem_cons_self)
    · exact ⟨Nat.le_refl _, order, by simp, List.suffix_rfl, Nat.le_add_right _ _,
        fun e => Bool.noConfusion e, fun _ e => absurd e more⟩

/-- What is left behind a send, moved to the start of the allocation or not. -/
theorem Holds.advance (h : b.Holds todo) {readIdx : Nat} (from_ : b.readIdx ≤ readIdx)
    (upTo : readIdx ≤ b.writeIdx) :
    { b with readIdx := readIdx }.Holds
        (window b.buffer readIdx (b.writeIdx - readIdx)) ∧
      todo = window b.buffer b.readIdx (readIdx - b.readIdx) ++
        window b.buffer readIdx (b.writeIdx - readIdx) := by
  obtain ⟨attached, pending, behind, order, inside, small, unsent⟩ := h
  refine ⟨⟨attached, pending, behind.trans from_, upTo, inside, small, rfl⟩, ?_⟩
  have split := window_add b.buffer b.readIdx (readIdx - b.readIdx) (b.writeIdx - readIdx)
  rw [Nat.add_sub_cancel' from_] at split
  rw [← unsent, ← split]
  congr 1
  omega

/-- The readable bytes move to the front. -/
theorem Holds.align (h : b.Holds todo) (few : todo.length < gainGap) :
    ∃ b', b.align = some b' ∧ b'.Holds todo := by
  have readable := h.readable
  have length := h.length
  obtain ⟨attached, pending, behind, order, inside, small, unsent⟩ := h
  rw [Buffer.align]
  split_ifs with near apart
  · exact ⟨b, rfl, attached, pending, behind, order, inside, small, unsent⟩
  · rw [readable, copyIn, length, unsent, if_pos (by simp only [length]; omega)]
    refine ⟨_, rfl, attached, pending, Nat.le_refl _, Nat.le_add_right _ _, ?_, ?_, ?_⟩
    · simp only
      omega
    · simp only
      omega
    · simp only [Nat.add_sub_cancel_left, ← length, window_paste_same]
  · exfalso
    have far : b.prefreeBytes = b.readIdx - prefix_ := by
      apply sizeT_eq
      · omega
      · omega
    rw [far] at near
    exact apart (Or.inr (by rw [readable]; omega))

/-- The gap is doubled until it exceeds what a string can be long. -/
theorem extendFor_grows {len : Nat} (small : len < 2 ^ 63) :
    ∃ extend, extendFor len 46 gainGap = some extend ∧ len < extend := by
  have grows : ∀ shifts k, shifts + k = 64 → 0 < shifts →
      ∃ extend, extendFor len shifts (2 ^ k) = some extend ∧ len < extend := by
    intro shifts
    induction shifts with
    | zero => exact fun _ _ positive => absurd positive (Nat.lt_irrefl 0)
    | succ shifts ih =>
      intro k total _
      rw [extendFor]
      split_ifs with more
      · have below : k < 63 := by
          by_contra above
          have := Nat.pow_le_pow_right (show 0 < 2 by decide) (Nat.le_of_not_lt above)
          omega
        rw [← Nat.pow_succ']
        exact ih (k + 1) (by omega) (by omega)
      · exact ⟨2 ^ k, rfl, Nat.lt_of_not_le more⟩
  exact grows 46 18 rfl (by decide)

/-- A header is attached at the start of the allocation, whatever was there. -/
theorem attach_holds (h : b.Allocated) {header : Bytes} (small : header.length < 2 ^ 63) :
    ∃ b', b.attachHttpMessage header true = some b' ∧ b'.Holds header := by
  obtain ⟨room, fits⟩ := h
  simp only [prefix_, pregap] at room
  rw [attachHttpMessage, addData]
  split_ifs with nothing
  · obtain rfl := List.length_eq_zero_iff.mp nothing
    exact ⟨_, rfl, rfl, rfl, Nat.le_refl _, Nat.le_refl _, room, show 8 < 2 ^ 64 by decide,
      by simp [clear]⟩
  · let b₀ : Buffer := { b.clear with msgptr := true, senddone := false }
    obtain ⟨b₁, made, same, space⟩ : ∃ b₁, b₀.makeSpace header.length true = some b₁ ∧
        b₁ = { b₀ with bufsize := b₁.bufsize } ∧ 8 + header.length ≤ b₁.bufsize := by
      have still : b₀.align = some b₀ := by
        have none_free : b₀.prefreeBytes = 0 := sizeT_eq (Int.sub_self _) (by decide)
        rw [align, none_free, if_pos (by decide)]
      have free : b₀.writeableBytes = b.bufsize - 8 :=
        sizeT_eq (by show (b.bufsize - (8 : Nat) : Int) = _; omega) (by omega)
      rw [makeSpace, still]
      simp only [Option.bind_eq_bind, Option.bind_some, if_true]
      rw [free]
      split_ifs with enough
      · exact ⟨b₀, rfl, rfl, by show 8 + header.length ≤ b.bufsize; omega⟩
      · obtain ⟨extend, found, more⟩ := extendFor_grows small
        rw [found]
        exact ⟨_, rfl, rfl, by show 8 + header.length ≤ b.bufsize + extend; omega⟩
    have start : b₁.writeIdx = 8 := by rw [same]; rfl
    rw [made]
    simp only [Option.bind_eq_bind, Option.bind_some]
    rw [copyIn, start, if_pos space]
    refine ⟨_, rfl, by rw [same], by rw [same], by rw [same]; exact Nat.le_refl _, ?_, space,
      ?_, ?_⟩
    · rw [same]
      exact Nat.le_add_right _ _
    · show 8 + header.length < 2 ^ 64
      omega
    · have read : b₁.readIdx = 8 := by rw [same]; rfl
      show window (paste b₁.buffer 8 header) b₁.readIdx (8 + header.length - b₁.readIdx) = _
      rw [read, Nat.add_sub_cancel_left, window_paste_same]

end

end Buffer
