import Tigerso.RingBuffer

/-!
# Draining the ring buffer

The four drain loops are one loop over the results of the underlying write. They
differ in what a result means to the loop and in what happens to the ring when
nothing is left. The loop wraps the read pointer modulo the capacity; `writeIn`
and `writeInFromFile` leave the write pointer on the end of the allocation.
-/

open SystemCalls ByteMemory DiskFile

namespace RingBuffer

/-- What one result of the underlying write means to a drain loop. -/
inductive Settled where
  | moved (n : Nat)
  | stop (ret : Int)
  | again
  deriving DecidableEq

/-- The loop's progress: `ret = none` while it waits for a further result, and
`rest` are the results of later calls. -/
structure Drain where
  ret : Option Int
  ring : RingBuffer
  sent : Bytes
  rest : List WriteResult

/-- `(_writeptr > _readptr)? size() : (_capacity - (_readptr - _buffer))`. -/
def request (rb : RingBuffer) : Nat :=
  if rb.readptr < rb.writeptr then rb.size else sizeT (rb.capacity - rb.readptr : Int)

/-- `_readptr += n; _readptr = _buffer + ((_readptr - _buffer) % _capacity)`. -/
def consume (rb : RingBuffer) (n : Nat) : RingBuffer :=
  { rb with readptr := (rb.readptr + n) % rb.capacity }

section
variable {σ : Type}

/-- `while(size()) { … }` and what follows it. -/
def drainLoop (write : σ → Bytes → WriteResult → Settled × σ)
    (finish : RingBuffer → RingBuffer) (datasize : Nat) :
    List WriteResult → RingBuffer → σ → Option (Drain × σ)
  | [], rb, s =>
    if rb.size = 0 then some (⟨some datasize, finish rb, [], []⟩, s)
    else some (⟨none, rb, [], []⟩, s)
  | r :: results, rb, s =>
    if rb.size = 0 then some (⟨some datasize, finish rb, [], r :: results⟩, s)
    else do
      let bytes ← rb.copyOut rb.readptr rb.request
      match write s bytes r with
      | (.stop ret, s) => some (⟨some ret, rb, [], results⟩, s)
      -- an `int` takes the difference of the two `size_t`
      | (.again, s) => some (⟨some (Int.bmod (datasize - rb.size) (2 ^ 32)), rb, [], results⟩, s)
      | (.moved n, s) =>
        let (d, s) ← drainLoop write finish datasize results (rb.consume n) s
        some ({ d with sent := bytes.take n ++ d.sent }, s)

end

/-- `::write(fd, …)`. -/
def writeFd (_ : Unit) (bytes : Bytes) : WriteResult → Settled × Unit
  | .took n => (.moved (accepted n bytes.length), ())
  | _ => (.stop (-1), ())

/-- `file.appendWriteIn(…)`. -/
def writeFile (file : File) (bytes : Bytes) (r : WriteResult) : Settled × File :=
  match file.appendWriteIn bytes r with
  | (ret, file) => if ret < 0 then (.stop tigersoIoError, file) else (.moved ret.toNat, file)

/-- `::send(sockfd, …, MSG_DONTWAIT|MSG_NOSIGNAL)`. -/
def writeSocketFd (_ : Unit) (bytes : Bytes) : WriteResult → Settled × Unit
  | .took n => (.moved (accepted n bytes.length), ())
  | .wouldBlock => (.again, ())
  | .failed => (.stop (-1), ())

/-- `SocketUtil::Send(mcsock, …)`. On a plain socket the test `EWOULDBLOCK` is
true, so every failure asks for a recall; `SSL_write` of no bytes is an error. -/
def writeSocket (isSSL : Bool) (_ : Unit) (bytes : Bytes) : WriteResult → Settled × Unit
  | .took n =>
    if isSSL && bytes.length == 0 then (.stop tigersoIoError, ())
    else (.moved (accepted n bytes.length), ())
  | .wouldBlock => (.again, ())
  | .failed => if isSSL then (.stop tigersoIoError, ()) else (.again, ())

def readOut2File (rb : RingBuffer) (file : File) (results : List WriteResult) :
    Option (Drain × File) :=
  if rb.isEmpty then some (⟨some tigersoIoOk, rb, [], results⟩, file)
  else drainLoop writeFile id rb.size results rb file

/-- `RingBuffer::readOut(int)`. -/
def readOutFd (rb : RingBuffer) (fd : Fd) (results : List WriteResult) :
    Option (Drain × Unit) :=
  if rb.isEmpty then some (⟨some 0, rb, [], results⟩, ())
  else if !fd.valid || !fd.settable then some (⟨some ringbufferNoSpace, rb, [], results⟩, ())
  else drainLoop writeFd id rb.size results rb ()

/-- `RingBuffer::send2Socket(int)`. -/
def send2SocketFd (rb : RingBuffer) (fd : Fd) (results : List WriteResult) :
    Option (Drain × Unit) :=
  if rb.isEmpty then some (⟨some 0, rb, [], results⟩, ())
  else if !fd.valid then some (⟨some ringbufferNoSpace, rb, [], results⟩, ())
  else if !fd.nonblock then rb.readOutFd fd results
  else drainLoop writeSocketFd clear rb.size results rb ()

def send2Socket (rb : RingBuffer) (isSSL : Bool) (results : List WriteResult) :
    Option (Drain × Unit) :=
  if rb.isEmpty then some (⟨some 0, rb, [], results⟩, ())
  else drainLoop (writeSocket isSSL) clear rb.size results rb ()

theorem request_eq {rb : RingBuffer} (h : rb.Valid) : rb.request = rb.straight := by
  have hlen := content_length rb
  rw [request, straight]
  split_ifs with order
  · rw [size_eq h, hlen, if_pos (Nat.le_of_lt order)]
  · exact offset_eq h h.read_le

/-- The loop body reads the stored bytes that lie straight behind the read pointer. -/
theorem copyOut_request {rb : RingBuffer} (h : rb.Valid) (occupied : rb.readptr ≠ rb.writeptr) :
    rb.copyOut rb.readptr rb.request = some (rb.content.take rb.straight) := by
  have inside : rb.readptr + rb.straight ≤ rb.capacity :=
    (advance_valid h (Nat.le_refl rb.straight)).read_le
  rw [request_eq h, copyOut, if_pos inside, straight_take occupied (Nat.le_refl _)]

theorem straight_le {rb : RingBuffer} (occupied : rb.readptr ≠ rb.writeptr) :
    rb.straight ≤ rb.content.length := by
  rw [straight, content_length]
  split_ifs <;> omega

theorem straight_pos {rb : RingBuffer} (before : rb.readptr < rb.capacity) : 0 < rb.straight := by
  rw [straight]
  split_ifs <;> omega

/-- Wrapping removes the bytes handed over, provided that the write pointer does
not rest on the end of the allocation. -/
theorem consume_spec {rb : RingBuffer} (h : rb.Valid) (inside : rb.writeptr < rb.capacity)
    (occupied : rb.readptr ≠ rb.writeptr) {n : Nat} (hn : n ≤ rb.straight) :
    (rb.consume n).Valid ∧ (rb.consume n).content = rb.content.drop n ∧
      (rb.consume n).readptr < (rb.consume n).capacity ∧
      (rb.consume n).writeptr < (rb.consume n).capacity := by
  have moved := advance_valid h hn
  have rest := advance_content occupied hn
  have hread := moved.read_le
  have positive : 0 < rb.capacity := Nat.zero_lt_of_lt inside
  rcases Nat.lt_or_eq_of_le hread with before | atEnd
  · have same : rb.consume n = rb.advance n := by
      rw [consume, Nat.mod_eq_of_lt (show rb.readptr + n < rb.capacity from before)]
      rfl
    rw [same]
    exact ⟨moved, rest, before, inside⟩
  · have wrapped : rb.consume n = (rb.advance n).rewind := by
      rw [consume, show rb.readptr + n = rb.capacity from atEnd, Nat.mod_self]
      rfl
    rw [wrapped, rewind_content atEnd inside]
    exact ⟨rewind_valid moved inside, rest, positive, inside⟩

/-- How a sink in a state `ok` takes a request; a `tolerant` one takes an empty
request as well. -/
structure Takes {σ : Type} (write : σ → Bytes → WriteResult → Settled × σ)
    (ok : σ → Prop) (tolerant : Prop) : Prop where
  took : ∀ s bytes n, ok s → bytes ≠ [] ∨ tolerant →
    ∃ s', ok s' ∧ write s bytes (.took n) = (.moved (accepted n bytes.length), s')
  refused : ¬ tolerant → ∀ s n, ∃ ret s', write s [] (.took n) = (.stop ret, s')
  interrupted : ∀ s bytes r, ¬ r.IsTook → ∃ ret s', (∀ n, ret ≠ .moved n) ∧
    write s bytes r = (ret, s')

/-- Would-block asks for a recall and is no error. -/
def Patient {σ : Type} (write : σ → Bytes → WriteResult → Settled × σ) : Prop :=
  ∀ s bytes, (write s bytes .wouldBlock).1 = .again

/-- What the loop must do when nothing is left. -/
def Finishes (finish : RingBuffer → RingBuffer) : Prop :=
  ∀ rb, rb.Valid → rb.readptr = rb.writeptr →
    (finish rb).Valid ∧ (finish rb).content = [] ∧ (finish rb).isEmpty = true ∧
      (finish rb).capacity = rb.capacity ∧ (finish rb).readptr ≤ rb.readptr

/-- `d` hands over a prefix of `rb`'s bytes and, once returned, keeps the rest. -/
structure Drained (rb : RingBuffer) (results : List WriteResult) (d : Drain) : Prop where
  order : d.sent <+: rb.content
  kept : d.ret ≠ none → d.ring.Valid ∧ d.ring.content = rb.content.drop d.sent.length ∧
    (d.ring.content = [] → d.ring.isEmpty = true)
  complete : (∀ r ∈ results, r.IsTook) → d.ret ≠ none → d.sent = rb.content

/-- What a drain with both pointers off the end does with the results: it uses a
prefix of them, and every result that moves bytes hands over at least one. -/
structure Paced (finish : RingBuffer → RingBuffer) (patient : Prop) (datasize : Nat)
    (rb : RingBuffer) (results : List WriteResult) (d : Drain) : Prop where
  suffix : d.rest <:+ results
  used : rb.content ≠ [] → d.ret ≠ none → d.rest.length < results.length
  starved : d.ret = none → d.rest = [] ∧ d.sent.length < rb.content.length
  pace : moving results ≤ moving d.rest + d.sent.length
  rested : d.ret ≠ none → d.ring.capacity = rb.capacity ∧
    d.ring.readptr < d.ring.capacity ∧ d.ring.writeptr < d.ring.capacity
  last : d.ret ≠ none → d.sent = rb.content → ∃ rb₀, d.ring = finish rb₀
  answer : patient → (∀ r ∈ results, r ≠ .failed) → datasize < 2 ^ 31 →
    ∀ before, datasize = before + rb.content.length →
      ∀ ret, d.ret = some ret → ret = (before + d.sent.length : Nat)
  begun : d.sent ≠ [] → ∃ r ∈ spent results d.rest, r.IsTook
  cut : d.ret ≠ none → d.ring.content ≠ [] → ∃ r ∈ spent results d.rest, ¬ r.IsTook

section
variable {σ : Type} {write : σ → Bytes → WriteResult → Settled × σ} {ok : σ → Prop}
  {tolerant patient : Prop} {finish : RingBuffer → RingBuffer} {rb : RingBuffer}

theorem occupied_of_size (h : rb.Valid) (pending : rb.size ≠ 0) :
    rb.readptr ≠ rb.writeptr := by
  intro same
  rw [size_eq h, content_length, same] at pending
  simp at pending

theorem empty_of_size (h : rb.Valid) (start : rb.readptr < rb.capacity ∨ 0 < rb.writeptr)
    (done : rb.size = 0) : rb.readptr = rb.writeptr := by
  rw [size_eq h, content_length] at done
  split_ifs at done <;> omega

theorem drained_finish (h : rb.Valid) (fin : Finishes finish) (done : rb.size = 0)
    (empty : rb.readptr = rb.writeptr) (results : List WriteResult) (datasize : Int) :
    Drained rb results ⟨some datasize, finish rb, [], results⟩ := by
  obtain ⟨valid, nothing, isEmpty, _, _⟩ := fin rb h empty
  have none_left : rb.content = [] := List.length_eq_zero_iff.mp (size_eq h ▸ done)
  exact ⟨List.nil_prefix, fun _ => ⟨valid, by simp [nothing, none_left], fun _ => isEmpty⟩,
    fun _ _ => none_left.symm⟩

theorem paced_finish (h : rb.Valid) (fin : Finishes finish) (done : rb.size = 0)
    (empty : rb.readptr = rb.writeptr) (inside : rb.writeptr < rb.capacity)
    (results : List WriteResult) (datasize : Nat) :
    Paced finish patient datasize rb results ⟨some datasize, finish rb, [], results⟩ := by
  obtain ⟨_, nothing, isEmpty, capacity, back⟩ := fin rb h empty
  have none_left : rb.content = [] := List.length_eq_zero_iff.mp (size_eq h ▸ done)
  have same := isEmpty_iff.mp isEmpty
  refine ⟨List.suffix_rfl, fun e => absurd none_left e, fun e => by simp at e, Nat.le_refl _,
    fun _ => ⟨capacity, ?_, ?_⟩, fun _ _ => ⟨rb, rfl⟩, ?_, fun e => absurd rfl e,
    fun _ e => absurd nothing e⟩
  · simp only
    omega
  · simp only
    omega
  · rintro _ _ _ before total ret ⟨⟩
    rw [none_left] at total
    rw [total]

theorem drained_interrupted (h : rb.Valid) (occupied : rb.content ≠ [])
    {r : WriteResult} (stopped : ¬ r.IsTook) (results : List WriteResult) (ret : Option Int) :
    Drained rb (r :: results) ⟨ret, rb, [], results⟩ := by
  refine ⟨List.nil_prefix, fun _ => ⟨h, rfl, fun e => absurd e occupied⟩, ?_⟩
  intro all _
  exact absurd (all r List.mem_cons_self) stopped

theorem paced_interrupted (before : rb.readptr < rb.capacity)
    (inside : rb.writeptr < rb.capacity) (occupied : rb.content ≠ [])
    {r : WriteResult} (stopped : ¬ r.IsTook) (results : List WriteResult) (ret : Int)
    (datasize : Nat) (answer : patient → r = .wouldBlock → datasize < 2 ^ 31 →
      ∀ before, datasize = before + rb.content.length → ret = (before : Nat)) :
    Paced finish patient datasize rb (r :: results) ⟨some ret, rb, [], results⟩ := by
  refine ⟨List.suffix_cons r results, fun _ _ => Nat.lt_succ_self _, fun e => by simp at e, ?_,
    fun _ => ⟨rfl, before, inside⟩, fun _ e => absurd e.symm occupied, ?_, fun e => absurd rfl e,
    fun _ _ => ⟨r, ?_, stopped⟩⟩
  · rw [moving_of_not_took stopped]
    exact Nat.le_refl _
  · rintro waits calm small before total v ⟨⟩
    cases r with
    | took n => exact absurd trivial stopped
    | wouldBlock => exact answer waits rfl small before total
    | failed => exact absurd rfl (calm _ List.mem_cons_self)
  · rw [spent_cons List.suffix_rfl]
    exact List.mem_cons_self

/-- A result that moves bytes, in front of a drain of the others. -/
theorem drained_moved {n k : Nat} {results : List WriteResult} {d : Drain}
    (occupied : rb.readptr ≠ rb.writeptr) (fits : n ≤ rb.straight)
    (rest : (rb.consume n).content = rb.content.drop n)
    (drained : Drained (rb.consume n) results d) :
    Drained rb (.took k :: results)
      { d with sent := (rb.content.take rb.straight).take n ++ d.sent } := by
  obtain ⟨⟨left, order⟩, kept, complete⟩ := drained
  rw [rest] at order kept complete
  rw [List.take_take, Nat.min_eq_left fits]
  refine ⟨⟨left, ?_⟩, ?_, ?_⟩
  · rw [List.append_assoc, order, List.take_append_drop]
  · intro returned
    obtain ⟨valid, kept, isEmpty⟩ := kept returned
    refine ⟨valid, ?_, isEmpty⟩
    have within := straight_le occupied
    rw [List.length_append, List.length_take, Nat.min_eq_left (by omega), ← List.drop_drop]
    exact kept
  · intro all returned
    simp only
    rw [complete (fun r hr => all r (List.mem_cons_of_mem _ hr)) returned,
      List.take_append_drop]

/-- The same for the pace of the loop. -/
theorem paced_moved {n k datasize : Nat} {results : List WriteResult} {d : Drain}
    (occupied : rb.readptr ≠ rb.writeptr) (fits : n ≤ rb.straight) (positive : 0 < n)
    (rest : (rb.consume n).content = rb.content.drop n)
    (paced : Paced finish patient datasize (rb.consume n) results d) :
    Paced finish patient datasize rb (.took k :: results)
      { d with sent := (rb.content.take rb.straight).take n ++ d.sent } := by
  obtain ⟨suffix, used, starved, pace, rested, last, answer, _, cut⟩ := paced
  have within := straight_le occupied
  have taken : ((rb.content.take rb.straight).take n).length = n := by
    rw [List.take_take, Nat.min_eq_left fits, List.length_take]
    omega
  have front : (rb.content.take rb.straight).take n = rb.content.take n := by
    rw [List.take_take, Nat.min_eq_left fits]
  refine ⟨suffix.trans (List.suffix_cons _ _), ?_, ?_, ?_, rested, ?_, ?_, ?_, ?_⟩
  · intro _ _
    have := suffix.length_le
    simp only [List.length_cons]
    omega
  · intro waiting
    obtain ⟨nothing, short⟩ := starved waiting
    refine ⟨nothing, ?_⟩
    rw [rest, List.length_drop] at short
    simp only [List.length_append, taken]
    omega
  · simp only [moving_took, List.length_append, taken]
    omega
  · intro returned all
    apply last returned
    rw [rest]
    simp only [front] at all
    have := congrArg (List.drop n) all
    rwa [List.drop_append_of_le_length (by rw [← front, taken]), List.drop_eq_nil_of_le
      (by rw [← front, taken]), List.nil_append] at this
  · intro waits calm small before total ret returned
    have later := answer waits (fun r hr => calm r (List.mem_cons_of_mem _ hr)) small (before + n)
      (by rw [rest, List.length_drop]; omega) ret returned
    simp only [later, List.length_append, taken]
    omega
  · intro _
    rw [spent_cons suffix]
    exact ⟨.took k, List.mem_cons_self, trivial⟩
  · intro returned left
    obtain ⟨r, mem, refused⟩ := cut returned left
    rw [spent_cons suffix]
    exact ⟨r, List.mem_cons_of_mem _ mem, refused⟩

/-- Every sequence of results, from any ring whose write pointer is off the end. -/
theorem drainLoop_spec (takes : Takes write ok tolerant) (fin : Finishes finish)
    (waits : patient → Patient write) (datasize : Nat) (results : List WriteResult)
    (h : rb.Valid) (inside : rb.writeptr < rb.capacity)
    (start : rb.readptr < rb.capacity ∨ tolerant ∧ 0 < rb.writeptr) (s : σ) (hs : ok s) :
    ∃ d s', drainLoop write finish datasize results rb s = some (d, s') ∧
      Drained rb results d ∧
      (rb.readptr < rb.capacity → Paced finish patient datasize rb results d) ∧
      (rb.content.length + (if rb.readptr < rb.capacity then 0 else 1) ≤ results.length →
        d.ret ≠ none) := by
  induction results generalizing rb s with
  | nil =>
    rw [drainLoop]
    by_cases done : rb.size = 0
    · have empty := empty_of_size h (start.imp_right And.right) done
      rw [if_pos done]
      exact ⟨_, s, rfl, drained_finish h fin done empty _ _,
        fun _ => paced_finish h fin done empty inside _ _, fun _ => by simp⟩
    · rw [size_eq h] at done
      rw [if_neg (by rwa [size_eq h])]
      refine ⟨_, s, rfl, ⟨List.nil_prefix, fun e => absurd rfl e, fun _ e => absurd rfl e⟩,
        fun _ => ⟨List.suffix_rfl, fun _ e => absurd rfl e, fun _ => ⟨rfl, ?_⟩, Nat.le_refl _,
          fun e => absurd rfl e, fun e => absurd rfl e, fun _ _ _ _ _ _ e => by simp at e,
          fun e => absurd rfl e, fun e => absurd rfl e⟩, ?_⟩
      · exact Nat.pos_of_ne_zero done
      · intro enough
        simp only [List.length_nil] at enough
        omega
  | cons r results ih =>
    rw [drainLoop]
    by_cases done : rb.size = 0
    · have empty := empty_of_size h (start.imp_right And.right) done
      rw [if_pos done]
      exact ⟨_, s, rfl, drained_finish h fin done empty _ _,
        fun _ => paced_finish h fin done empty inside _ _, fun _ => by simp⟩
    have occupied := occupied_of_size h done
    have nonempty : rb.content ≠ [] := fun e => done (by rw [size_eq h, e]; rfl)
    rw [if_neg done, copyOut_request h occupied]
    simp only [Option.bind_eq_bind, Option.bind_some]
    by_cases moves : r.IsTook
    · obtain ⟨k, rfl⟩ : ∃ k, r = .took k := by
        cases r with
        | took k => exact ⟨k, rfl⟩
        | wouldBlock => exact absurd moves id
        | failed => exact absurd moves id
      have hlen : (rb.content.take rb.straight).length = rb.straight := by
        rw [List.length_take, Nat.min_eq_left (straight_le occupied)]
      have asks : rb.readptr < rb.capacity → 0 < rb.straight := straight_pos
      obtain ⟨s', hs', result⟩ := takes.took s (rb.content.take rb.straight) k hs (by
        rcases start with before | ⟨easy, _⟩
        · exact Or.inl fun e => by rw [e] at hlen; exact absurd (asks before) (by simp_all)
        · exact Or.inr easy)
      rw [hlen] at result
      have fits := accepted_le k rb.straight
      obtain ⟨valid, rest, before, behind⟩ := consume_spec h inside occupied fits
      obtain ⟨d, s'', later, drained, paced, ends⟩ := ih valid behind (Or.inl before) s' hs'
      rw [result]
      simp only [later, Option.bind_some]
      refine ⟨_, s'', rfl, drained_moved occupied fits rest drained, fun ahead =>
        paced_moved occupied fits (accepted_pos (asks ahead)) rest (paced before), ?_⟩
      intro enough
      apply ends
      rw [rest, List.length_drop, if_pos before]
      rw [List.length_cons] at enough
      split_ifs at enough with ahead
      · have := accepted_pos (n := k) (asks ahead)
        omega
      · omega
    · obtain ⟨ret, s', stops, result⟩ := takes.interrupted s (rb.content.take rb.straight) r moves
      rw [result]
      cases ret with
      | moved n => exact absurd rfl (stops n)
      | stop ret =>
        refine ⟨_, s', rfl, drained_interrupted h nonempty moves _ _, fun before =>
          paced_interrupted before inside nonempty moves _ _ _ ?_, fun _ => by simp⟩
        rintro polite rfl
        have asked := waits polite s (rb.content.take rb.straight)
        rw [result] at asked
        cases asked
      | again =>
        refine ⟨_, s', rfl, drained_interrupted h nonempty moves _ _, fun before =>
          paced_interrupted before inside nonempty moves _ _ _ ?_, fun _ => by simp⟩
        intro _ _ small sentBefore total
        have left : (datasize - rb.size : Int) = sentBefore := by
          rw [size_eq h]
          omega
        exact left ▸ Int.bmod_eq_of_le (by omega) (by omega)

/-- Wrapping onto the start below a write pointer on the end makes the whole
allocation look stored. -/
theorem size_lapped (atStart : rb.readptr = 0) (atEnd : rb.writeptr = rb.capacity)
    (small : rb.capacity < 2 ^ 64) : rb.size = rb.capacity := by
  have hspace : rb.space = 2 ^ 64 - 1 := by
    rw [space, if_pos (by omega), sizeT]
    omega
  rw [size, hspace, sizeT]
  omega

section
variable {datasize : Nat} {results : List WriteResult} {s s' : σ} {d : Drain}

/-- The loop moves the read pointer only. -/
theorem drainLoop_writeptr (result : drainLoop write id datasize results rb s = some (d, s')) :
    d.ring.writeptr = rb.writeptr ∧ d.ring.capacity = rb.capacity := by
  induction results generalizing rb s s' d with
  | nil =>
    rw [drainLoop] at result
    split_ifs at result <;> cases result <;> exact ⟨rfl, rfl⟩
  | cons r results ih =>
    rw [drainLoop] at result
    split_ifs at result
    · cases result
      exact ⟨rfl, rfl⟩
    obtain ⟨bytes, _, result⟩ := Option.bind_eq_some_iff.mp result
    split at result
    · cases result
      exact ⟨rfl, rfl⟩
    · cases result
      exact ⟨rfl, rfl⟩
    · obtain ⟨⟨d₁, s₂⟩, later, result⟩ := Option.bind_eq_some_iff.mp result
      cases result
      have same := ih later
      exact same

/-- Results behind those that settle the loop are left over. -/
theorem drainLoop_more (more : List WriteResult)
    (result : drainLoop write finish datasize results rb s = some (d, s')) (ends : d.ret ≠ none) :
    drainLoop write finish datasize (results ++ more) rb s =
      some ({ d with rest := d.rest ++ more }, s') := by
  induction results generalizing rb s s' d with
  | nil =>
    rw [drainLoop] at result
    split_ifs at result with empty
    · cases result
      cases more <;> rw [List.nil_append, drainLoop, if_pos empty]
    · cases result
      exact absurd rfl ends
  | cons r results ih =>
    rw [drainLoop] at result
    rw [List.cons_append, drainLoop]
    split_ifs at result ⊢ with empty
    · cases result
      rfl
    obtain ⟨bytes, read, result⟩ := Option.bind_eq_some_iff.mp result
    rw [read]
    simp only [Option.bind_eq_bind, Option.bind_some]
    split at result
    · cases result
      rfl
    · cases result
      rfl
    · obtain ⟨⟨d₁, s₂⟩, later, result⟩ := Option.bind_eq_some_iff.mp result
      cases result
      simp only [ih later ends, Option.bind_some]

/-- The results are used in their order. -/
theorem drainLoop_rest (result : drainLoop write finish datasize results rb s = some (d, s')) :
    d.rest <:+ results := by
  induction results generalizing rb s d with
  | nil =>
    rw [drainLoop] at result
    split_ifs at result <;> cases result <;> exact List.suffix_rfl
  | cons r results ih =>
    rw [drainLoop] at result
    split_ifs at result
    · cases result
      exact List.suffix_rfl
    cases read : rb.copyOut rb.readptr rb.request with
    | none =>
      rw [read] at result
      cases result
    | some bytes =>
      rw [read] at result
      simp only [Option.bind_eq_bind, Option.bind_some] at result
      split at result
      · cases result
        exact List.suffix_cons r results
      · cases result
        exact List.suffix_cons r results
      · rename_i n s₁ _
        cases later : drainLoop write finish datasize results (rb.consume n) s₁ with
        | none =>
          rw [later] at result
          cases result
        | some p =>
          obtain ⟨d₁, s₂⟩ := p
          rw [later] at result
          cases result
          exact (ih later).trans (List.suffix_cons r results)

end

theorem size_atEnd (atEnd : rb.writeptr = rb.capacity) (before : rb.readptr < rb.capacity)
    (small : rb.capacity < 2 ^ 64) : rb.size = rb.capacity - rb.readptr := by
  rcases Nat.eq_zero_or_pos rb.readptr with atStart | behind
  · rw [size_lapped atStart atEnd small, atStart]
    rfl
  · have hspace : rb.space = rb.readptr - 1 := by
      rw [space, if_pos (by omega)]
      apply sizeT_eq <;> omega
    rw [size, hspace]
    apply sizeT_eq <;> omega

/-- While every call takes bytes, the loop never ends on a write pointer that rests on
the end of the allocation. -/
theorem drainLoop_lapped (takes : Takes write ok tolerant) (datasize : Nat)
    (small : rb.capacity < 2 ^ 64) (atEnd : rb.writeptr = rb.capacity)
    (before : rb.readptr < rb.capacity) (results : List WriteResult)
    (all : ∀ r ∈ results, r.IsTook) (s : σ) (hs : ok s) :
    ∃ d s', drainLoop write finish datasize results rb s = some (d, s') ∧ d.ret = none := by
  induction results generalizing rb s with
  | nil =>
    have pending := size_atEnd atEnd before small
    rw [drainLoop, if_neg (by omega)]
    exact ⟨_, s, rfl, rfl⟩
  | cons r results ih =>
    have pending := size_atEnd atEnd before small
    have asks : rb.request = rb.capacity - rb.readptr := by
      rw [request, if_pos (by omega), pending]
    have read : rb.copyOut rb.readptr rb.request =
        some (window rb.buffer rb.readptr (rb.capacity - rb.readptr)) := by
      rw [asks, copyOut, if_pos (by omega)]
    cases r with
    | took n =>
      obtain ⟨s₁, hs₁, moved⟩ := takes.took s
        (window rb.buffer rb.readptr (rb.capacity - rb.readptr)) n hs (Or.inl fun e => by
          have := congrArg List.length e
          rw [window_length, List.length_nil] at this
          omega)
      rw [window_length] at moved
      let k := accepted n (rb.capacity - rb.readptr)
      obtain ⟨d, s₂, later, waits⟩ := ih (show (rb.consume k).capacity < _ from small) atEnd
        (Nat.mod_lt _ (by show 0 < rb.capacity; omega))
        (fun r hr => all r (List.mem_cons_of_mem _ hr)) s₁ hs₁
      rw [drainLoop, if_neg (by omega), read]
      simp only [Option.bind_eq_bind, Option.bind_some, moved]
      rw [later]
      exact ⟨_, s₂, rfl, waits⟩
    | wouldBlock => exact absurd (all _ List.mem_cons_self) id
    | failed => exact absurd (all _ List.mem_cons_self) id

/-- Two results that take everything already carry the loop past the queued bytes. -/
theorem drainLoop_overrun (takes : Takes write ok tolerant)
    (finish : RingBuffer → RingBuffer) (datasize : Nat) (h : rb.Valid)
    (atEnd : rb.writeptr = rb.capacity) (before : rb.readptr < rb.capacity) (s : σ) (hs : ok s) :
    ∃ d s', drainLoop write finish datasize
        [.took rb.capacity, .took rb.capacity] rb s = some (d, s') ∧
      rb.content.length < d.sent.length := by
  have occupied : rb.readptr ≠ rb.writeptr := by omega
  have hlimit := h.limit
  simp only [ringbufferMaxLength] at hlimit
  have hlen := content_length rb
  rw [if_pos (by omega)] at hlen
  have hstraight : rb.straight = rb.content.length := by
    rw [straight, if_pos (by omega), hlen]
  have hsize : rb.size ≠ 0 := by
    rw [size_eq h]
    omega
  have takenLen : (rb.content.take rb.straight).length = rb.content.length := by
    rw [List.length_take, hstraight, Nat.min_self]
  have all₁ : accepted rb.capacity rb.content.length = rb.content.length :=
    Nat.min_eq_right (by omega)
  have all₂ : accepted rb.capacity rb.capacity = rb.capacity := Nat.min_eq_right (by omega)
  obtain ⟨s₁, hs₁, first⟩ := takes.took s (rb.content.take rb.straight) rb.capacity hs
    (Or.inl fun e => by rw [e, List.length_nil] at takenLen; omega)
  rw [takenLen, all₁] at first
  let lapped := rb.consume rb.content.length
  have atStart : lapped.readptr = 0 := by
    show (rb.readptr + rb.content.length) % rb.capacity = 0
    rw [hlen, atEnd, Nat.add_sub_cancel' (Nat.le_of_lt before), Nat.mod_self]
  have hsize' : lapped.size = rb.capacity :=
    size_lapped atStart (show rb.writeptr = rb.capacity from atEnd)
      (show rb.capacity < 2 ^ 64 by omega)
  have hrequest : lapped.request = rb.capacity := by
    rw [request, if_pos (by rw [atStart]; show 0 < rb.writeptr; omega), hsize']
  have stale : lapped.copyOut lapped.readptr lapped.request =
      some (window lapped.buffer lapped.readptr rb.capacity) := by
    rw [hrequest, copyOut, atStart]
    exact if_pos (by show 0 + rb.capacity ≤ rb.capacity; omega)
  obtain ⟨s₂, _, second⟩ := takes.took s₁ (window lapped.buffer lapped.readptr rb.capacity)
    rb.capacity hs₁ (Or.inl fun e => by
      have := congrArg List.length e
      rw [window_length, List.length_nil] at this
      omega)
  rw [window_length, all₂] at second
  rw [drainLoop, if_neg hsize, copyOut_request h occupied]
  simp only [Option.bind_eq_bind, Option.bind_some, first]
  rw [drainLoop, if_neg (by rw [show (rb.consume rb.content.length).size = _ from hsize']; omega),
    show (rb.consume rb.content.length).copyOut _ _ = _ from stale]
  simp only [Option.bind_eq_bind, Option.bind_some, second]
  obtain ⟨d, s', rest⟩ : ∃ d s', drainLoop write finish datasize []
      ((rb.consume rb.content.length).consume rb.capacity) s₂ = some (d, s') := by
    rw [drainLoop]
    split_ifs <;> exact ⟨_, _, rfl⟩
  rw [rest]
  refine ⟨_, s', rfl, ?_⟩
  simp only [List.length_append, List.length_take, window_length]
  omega

end

end RingBuffer
