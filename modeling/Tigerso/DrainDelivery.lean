import Tigerso.RingSinks

/-!
# What the drains deliver

A drain delivers when, for every sequence of results, it hands over a prefix of
the queued bytes, keeps the rest, returns, and leaves an empty ring once nothing
is left. On the reachable rings each of the four drains delivers exactly when
the write pointer is off the end of the allocation, apart from what happens to a
read pointer that rests there.
-/

open SystemCalls DiskFile RingBuffer

namespace DrainDelivery

/-- A call of one of the drains, with the sink it is given. -/
inductive Call where
  | readOut2File (file : File)
  | readOutFd (fd : Fd)
  | send2SocketFd (fd : Fd)
  | send2Socket (isSSL : Bool)

namespace Call

def run : Call → RingBuffer → List WriteResult → Option Drain
  | .readOut2File file, rb, results => (rb.readOut2File file results).map Prod.fst
  | .readOutFd fd, rb, results => (rb.readOutFd fd results).map Prod.fst
  | .send2SocketFd fd, rb, results => (rb.send2SocketFd fd results).map Prod.fst
  | .send2Socket isSSL, rb, results => (rb.send2Socket isSSL results).map Prod.fst

/-- The sink passes the checks that come before its first write. -/
def usable : Call → Bool
  | .readOut2File file => file.named
  | .readOutFd fd => fd.valid && fd.settable
  | .send2SocketFd fd => fd.valid && (fd.nonblock || fd.settable)
  | .send2Socket _ => true

def tolerant : Call → Bool
  | .readOut2File _ => false
  | .readOutFd _ => true
  | .send2SocketFd _ => true
  | .send2Socket isSSL => !isSSL

/-- The drain ends with `clear()`. -/
def clears : Call → Bool
  | .readOut2File _ => false
  | .readOutFd _ => false
  | .send2SocketFd fd => fd.nonblock
  | .send2Socket _ => true

end Call

/-- What the drain `d` of `rb` must have done with these results. -/
structure Delivered (usable : Bool) (rb : RingBuffer) (results : List WriteResult)
    (d : Drain) : Prop where
  order : d.sent <+: rb.content
  valid : d.ret ≠ none → d.ring.Valid
  kept : d.ret ≠ none →
    d.ring.content = rb.content.drop d.sent.length ∧ d.ring.size = d.ring.content.length
  emptied : usable = true → d.ret ≠ none → d.ring.content = [] → d.ring.isEmpty = true
  returns : rb.content.length < results.length → d.ret ≠ none
  complete : usable = true → (∀ r ∈ results, r.IsTook) → d.ret ≠ none → d.sent = rb.content

def Delivers (c : Call) (rb : RingBuffer) : Prop :=
  ∀ results, ∃ d, c.run rb results = some d ∧ Delivered c.usable rb results d

/-- The rings from which a drain delivers. -/
def DrainSafe (c : Call) (rb : RingBuffer) : Prop :=
  rb.isEmpty = true ∨ c.usable = false ∨
    rb.writeptr < rb.capacity ∧ (rb.readptr < rb.capacity ∨
      0 < rb.writeptr ∧ c.tolerant = true ∨ rb.writeptr = 0 ∧ c.clears = true)

section
variable {σ : Type} {write : σ → Bytes → WriteResult → Settled × σ} {ok : σ → Prop}
  {tolerant clears : Bool} {finish : RingBuffer → RingBuffer} {rb : RingBuffer}

theorem delivered_of_drained {results : List WriteResult} {d : Drain} (usable : Bool)
    (h : Drained rb results d) (returns : rb.content.length < results.length → d.ret ≠ none) :
    Delivered usable rb results d := by
  obtain ⟨order, kept, complete⟩ := h
  refine ⟨order, fun returned => (kept returned).1, ?_, ?_, returns, fun _ => complete⟩
  · intro returned
    obtain ⟨valid, left, _⟩ := kept returned
    exact ⟨left, size_eq valid⟩
  · intro _ returned
    exact (kept returned).2.2

/-- A call that returns at once and leaves the ring as it is. -/
theorem delivered_untouched (h : rb.Valid) {usable : Bool}
    (refused : usable = true → rb.isEmpty = true) (results rest : List WriteResult) (ret : Int) :
    Delivered usable rb results ⟨some ret, rb, [], rest⟩ := by
  refine ⟨List.nil_prefix, fun _ => h, fun _ => ⟨rfl, size_eq h⟩, fun u _ _ => refused u,
    fun _ => by simp, ?_⟩
  intro u _ _
  have same := RingBuffer.isEmpty_iff.mp (refused u)
  exact (id_finishes rb h same).2.1.symm

theorem drainLoop_done (done : rb.size = 0) (results : List WriteResult) (s : σ)
    (datasize : Nat) : drainLoop write finish datasize results rb s =
      some (⟨some datasize, finish rb, [], results⟩, s) := by
  cases results <;> rw [drainLoop, if_pos done]

/-- A write pointer that the file reader left at offset 0 and a read pointer at rest
on the end: nothing is stored and the pointers differ. -/
theorem content_resting (h : rb.Valid) (low : rb.writeptr = 0)
    (resting : rb.readptr = rb.capacity) : rb.content = [] := by
  have hroom := h.room
  apply List.length_eq_zero_iff.mp
  rw [content_length, if_neg (by omega), low, resting, Nat.sub_self]

theorem size_resting (h : rb.Valid) (low : rb.writeptr = 0)
    (resting : rb.readptr = rb.capacity) : rb.size = 0 := by
  rw [size_eq h, content_resting h low resting, List.length_nil]

theorem clears_of_delivers (keeps : finish = if clears then RingBuffer.clear else id)
    (h : rb.Valid) (apart : rb.readptr ≠ rb.writeptr) (resting : rb.readptr = rb.capacity)
    (low : rb.writeptr = 0) {s : σ} {datasize : Nat}
    (delivers : ∀ results, ∃ d,
      (drainLoop write finish datasize results rb s).map Prod.fst = some d ∧
        Delivered true rb results d) : clears = true := by
  by_contra not_cleared
  have nothing := content_resting h low resting
  obtain ⟨d, result, delivered⟩ := delivers []
  rw [drainLoop_done (size_resting h low resting)] at result
  cases result
  subst keeps
  have left := delivered.emptied rfl (by simp)
  simp only [if_neg not_cleared, id] at left
  exact apart (RingBuffer.isEmpty_iff.mp (left nothing))

/-- A read pointer at the end makes a write of no bytes, so that the sink has to take one. -/
theorem tolerant_of_delivers (takes : Takes write ok (tolerant = true)) (h : rb.Valid)
    (resting : rb.readptr = rb.capacity) (inside : rb.writeptr < rb.capacity)
    (behind : 0 < rb.writeptr) {s : σ} {datasize : Nat}
    (delivers : ∀ results, ∃ d,
      (drainLoop write finish datasize results rb s).map Prod.fst = some d ∧
        Delivered true rb results d) : tolerant = true := by
  by_contra strict
  have apart : rb.readptr ≠ rb.writeptr := by omega
  have stored : rb.content.length = rb.writeptr := by
    rw [content_length, if_neg (by omega), resting, Nat.sub_self, Nat.zero_add]
  have pending : rb.size ≠ 0 := by rw [size_eq h, stored]; omega
  have nothing_asked : rb.straight = 0 := by
    rw [straight, if_neg (by omega), resting, Nat.sub_self]
  obtain ⟨ret, s', stops⟩ := takes.refused strict s 0
  obtain ⟨d, result, delivered⟩ := delivers [.took 0]
  rw [drainLoop, if_neg pending, copyOut_request h apart, nothing_asked] at result
  simp only [List.take_zero, Option.bind_eq_bind, Option.bind_some, stops, Option.map_some,
    Option.some.injEq] at result
  subst result
  have all := delivered.complete rfl (by simp [WriteResult.IsTook]) (by simp)
  rw [← all] at stored
  simp at stored
  omega

/-- The loop over a sink that takes requests delivers exactly from these rings. -/
theorem loop_delivers_iff (takes : Takes write ok (tolerant = true))
    (keeps : finish = if clears then RingBuffer.clear else id)
    (h : rb.Valid) (occupied : rb.isEmpty = false) (s : σ) (hs : ok s) (datasize : Nat) :
    (∀ results, ∃ d, (drainLoop write finish datasize results rb s).map Prod.fst = some d ∧
        Delivered true rb results d) ↔
      rb.writeptr < rb.capacity ∧ (rb.readptr < rb.capacity ∨
        0 < rb.writeptr ∧ tolerant = true ∨ rb.writeptr = 0 ∧ clears = true) := by
  have apart : rb.readptr ≠ rb.writeptr := by simpa [isEmpty] using occupied
  have fin : Finishes finish := by
    subst keeps
    split
    · exact clear_finishes
    · exact id_finishes
  have hread := h.read_le
  have hwrite := h.write_le
  constructor
  · intro delivers
    rcases Nat.lt_or_eq_of_le hwrite with inside | atEnd
    · refine ⟨inside, ?_⟩
      rcases Nat.lt_or_eq_of_le hread with before | resting
      · exact Or.inl before
      · rcases Nat.eq_zero_or_pos rb.writeptr with low | behind
        · exact Or.inr (Or.inr ⟨low, clears_of_delivers keeps h apart resting low delivers⟩)
        · exact Or.inr (Or.inl
            ⟨behind, tolerant_of_delivers takes h resting inside behind delivers⟩)
    · obtain ⟨d, s', result, overrun⟩ := drainLoop_overrun takes finish datasize h atEnd
        (by omega) s hs
      obtain ⟨d', result', delivered⟩ := delivers [.took rb.capacity, .took rb.capacity]
      rw [result] at result'
      cases result'
      exact absurd delivered.order.length_le (Nat.not_le_of_lt overrun)
  · rintro ⟨inside, start⟩ results
    by_cases drained : rb.writeptr = 0 ∧ rb.readptr = rb.capacity
    · obtain ⟨low, resting⟩ := drained
      have clear_last : clears = true := by
        rcases start with before | ⟨behind, _⟩ | ⟨_, yes⟩
        · omega
        · omega
        · exact yes
      subst keeps
      rw [if_pos clear_last, drainLoop_done (size_resting h low resting)]
      refine ⟨_, rfl, List.nil_prefix, fun _ => clear_valid h, fun _ => ⟨?_, ?_⟩,
        fun _ _ _ => RingBuffer.isEmpty_iff.mpr rfl, fun _ => by simp,
        fun _ _ _ => (content_resting h low resting).symm⟩
      · rw [content_resting h low resting]
        exact clear_content rb
      · exact size_eq (clear_valid h)
    · have inLoop : rb.readptr < rb.capacity ∨ tolerant = true ∧ 0 < rb.writeptr := by
        rcases start with before | ⟨behind, easy⟩ | ⟨low, _⟩
        · exact Or.inl before
        · exact Or.inr ⟨easy, behind⟩
        · exact Or.inl (by omega)
      obtain ⟨d, s', result, hd, _, returns⟩ :=
        drainLoop_spec takes fin (fun none : False => none.elim) datasize results h inside
          inLoop s hs
      refine ⟨d, by rw [result]; rfl, delivered_of_drained true hd ?_⟩
      intro enough
      apply returns
      split_ifs <;> omega

/-- An unnamed file takes nothing. -/
theorem unnamed_delivers {file : File} (h : rb.Valid) (unnamed : file.named = false) :
    Delivers (.readOut2File file) rb := by
  have refuses : ∀ bytes r, writeFile file bytes r = (.stop tigersoIoError, file) := by
    intro bytes r
    simp [writeFile, File.appendWriteIn, unnamed, fileArgsInvalid]
  intro results
  simp only [Call.run, RingBuffer.readOut2File, Call.usable, unnamed]
  by_cases empty : rb.isEmpty = true
  · rw [if_pos empty]
    exact ⟨_, rfl, delivered_untouched h (fun _ => empty) _ _ _⟩
  rw [if_neg empty]
  by_cases done : rb.size = 0
  · rw [drainLoop_done done]
    exact ⟨_, rfl, delivered_untouched h (by simp) _ _ _⟩
  cases results with
  | nil =>
    rw [drainLoop, if_neg done]
    exact ⟨_, rfl, List.nil_prefix, fun e => absurd rfl e, fun e => absurd rfl e,
      fun _ e => absurd rfl e, fun e => absurd e (Nat.not_lt_zero _), fun _ _ e => absurd rfl e⟩
  | cons r results =>
    have apart : rb.readptr ≠ rb.writeptr := fun e => empty (RingBuffer.isEmpty_iff.mpr e)
    rw [drainLoop, if_neg done, copyOut_request h apart]
    simp only [Option.bind_eq_bind, Option.bind_some, refuses]
    exact ⟨_, rfl, delivered_untouched h (by simp) _ _ _⟩

theorem run_empty (c : Call) (empty : rb.isEmpty = true) (results : List WriteResult) :
    ∃ ret, c.run rb results = some ⟨some ret, rb, [], results⟩ := by
  cases c <;>
    simp [Call.run, RingBuffer.readOut2File, RingBuffer.readOutFd, RingBuffer.send2SocketFd,
      RingBuffer.send2Socket, empty]

theorem delivers_of_empty (c : Call) (h : rb.Valid) (empty : rb.isEmpty = true) :
    Delivers c rb := by
  intro results
  obtain ⟨ret, result⟩ := run_empty c empty results
  exact ⟨_, result, delivered_untouched h (fun _ => empty) _ _ _⟩

/-- A sink that fails the checks before the loop. -/
theorem delivers_of_refused {c : Call} (h : rb.Valid) (unusable : c.usable = false)
    (refused : ∀ results, ∃ ret, c.run rb results = some ⟨some ret, rb, [], results⟩) :
    Delivers c rb := by
  intro results
  obtain ⟨ret, result⟩ := refused results
  exact ⟨_, result, delivered_untouched h (by simp [unusable]) _ _ _⟩

theorem delivers_iff_of_loop {c : Call} (finish : RingBuffer → RingBuffer) (s : σ)
    (run : ∀ results, c.run rb results =
      (drainLoop write finish rb.size results rb s).map Prod.fst)
    (usable : c.usable = true) (takes : Takes write ok (c.tolerant = true))
    (keeps : finish = if c.clears then RingBuffer.clear else id)
    (h : rb.Valid) (apart : rb.isEmpty = false) (hs : ok s) :
    Delivers c rb ↔ DrainSafe c rb := by
  simp only [Delivers, DrainSafe, run, usable, apart, Bool.false_eq_true, false_or,
    Bool.true_eq_false]
  exact loop_delivers_iff takes keeps h apart s hs _

theorem readOutFd_delivers_iff (fd : Fd) (h : rb.Valid) (apart : rb.isEmpty = false) :
    Delivers (.readOutFd fd) rb ↔ DrainSafe (.readOutFd fd) rb := by
  by_cases usable : (fd.valid && fd.settable) = true
  · have passes : (!fd.valid || !fd.settable) = false := by simp_all
    refine delivers_iff_of_loop id () (fun results => ?_) usable writeFd_takes rfl h apart trivial
    simp [Call.run, RingBuffer.readOutFd, apart, passes]
  · have refuses : (!fd.valid || !fd.settable) = true := by
      revert usable
      cases fd.valid <;> cases fd.settable <;> simp
    have unusable : (Call.readOutFd fd).usable = false := Bool.eq_false_iff.mpr usable
    refine ⟨fun _ => Or.inr (Or.inl unusable), fun _ => ?_⟩
    refine delivers_of_refused h unusable fun results => ⟨ringbufferNoSpace, ?_⟩
    simp [Call.run, RingBuffer.readOutFd, apart, refuses]

/-- The four drains, from any valid ring. -/
theorem delivers_iff (c : Call) (h : rb.Valid) : Delivers c rb ↔ DrainSafe c rb := by
  by_cases empty : rb.isEmpty = true
  · exact ⟨fun _ => Or.inl empty, fun _ => delivers_of_empty c h empty⟩
  have apart : rb.isEmpty = false := by simpa using empty
  cases c with
  | readOut2File file =>
    by_cases named : file.named = true
    · refine delivers_iff_of_loop id file (fun results => ?_) named writeFile_takes rfl h
        apart named
      simp [Call.run, RingBuffer.readOut2File, apart]
    · have unnamed : file.named = false := by simpa using named
      exact ⟨fun _ => Or.inr (Or.inl unnamed), fun _ => unnamed_delivers h unnamed⟩
  | readOutFd fd => exact readOutFd_delivers_iff fd h apart
  | send2SocketFd fd =>
    by_cases valid : fd.valid = true
    · by_cases nonblock : fd.nonblock = true
      · refine delivers_iff_of_loop RingBuffer.clear () (fun results => ?_) ?_
          writeSocketFd_takes (by simp [Call.clears, nonblock]) h apart trivial
        · simp [Call.run, RingBuffer.send2SocketFd, apart, valid, nonblock]
        · simp [Call.usable, valid, nonblock]
      · have blocking : fd.nonblock = false := by simpa using nonblock
        have same : Delivers (.send2SocketFd fd) rb ↔ Delivers (.readOutFd fd) rb := by
          simp [Delivers, Call.run, RingBuffer.send2SocketFd, apart, valid, blocking, Call.usable]
        rw [same, readOutFd_delivers_iff fd h apart]
        simp [DrainSafe, Call.usable, Call.tolerant, Call.clears, valid, blocking]
    · have invalid : fd.valid = false := by simpa using valid
      have unusable : (Call.send2SocketFd fd).usable = false := by simp [Call.usable, invalid]
      refine ⟨fun _ => Or.inr (Or.inl unusable), fun _ => ?_⟩
      refine delivers_of_refused h unusable fun results => ⟨ringbufferNoSpace, ?_⟩
      simp [Call.run, RingBuffer.send2SocketFd, apart, invalid]
  | send2Socket isSSL =>
    refine delivers_iff_of_loop RingBuffer.clear () (fun results => ?_) rfl
      (writeSocket_takes isSSL) rfl h apart trivial
    simp [Call.run, RingBuffer.send2Socket, apart]

end

/-- The rings that the operations reach when every drain starts from a safe ring. -/
inductive Reached : RingBuffer → Prop
  | construct (len : Nat) (garbage : Nat → Byte) : Reached (.construct len garbage)
  | writeIn {rb rb' : RingBuffer} {buf : Bytes} {ret : Int} (before : Reached rb)
      (result : rb.writeIn buf = some (ret, rb')) : Reached rb'
  | writeInFromFile {rb rb' : RingBuffer} {file file' : File} {rd₁ rd₂ : ReadResult} {ret : Int}
      (before : Reached rb) (result : rb.writeInFromFile file rd₁ rd₂ = some (ret, rb', file')) :
      Reached rb'
  | readOut {rb rb' : RingBuffer} {len : Nat} {bytes : Bytes} {ret : Int} (before : Reached rb)
      (result : rb.readOut len = some (ret, bytes, rb')) : Reached rb'
  | clear {rb : RingBuffer} (before : Reached rb) : Reached rb.clear
  | drain {rb : RingBuffer} {c : Call} {results : List WriteResult} {d : Drain}
      (before : Reached rb) (safe : DrainSafe c rb) (result : c.run rb results = some d)
      (returned : d.ret ≠ none) : Reached d.ring

theorem Reached.valid {rb : RingBuffer} (reached : Reached rb) : rb.Valid := by
  induction reached with
  | construct len garbage => exact construct_valid len garbage
  | writeIn _ result valid => exact writeIn_valid valid result
  | writeInFromFile _ result valid =>
    obtain ⟨_, _, _, _, result', appended, _⟩ := writeInFromFile_spec valid _ _ _
    rw [result'] at result
    cases result
    exact appended.valid
  | readOut _ result valid => exact readOut_valid valid result
  | clear _ valid => exact clear_valid valid
  | drain _ safe result returned valid =>
    obtain ⟨d', result', delivered⟩ := (delivers_iff _ valid).mpr safe _
    rw [result'] at result
    cases result
    exact delivered.valid returned

/-- On every reachable ring and for every sink, a drain delivers for all results
exactly when the ring is safe for it. -/
theorem drain_delivers_iff {rb : RingBuffer} (reached : Reached rb) (c : Call) :
    Delivers c rb ↔ DrainSafe c rb :=
  delivers_iff c reached.valid

/-- Three bytes in a new ring reach a plain socket. -/
theorem drain_delivers_three_bytes :
    Delivers (.send2Socket false) ⟨ByteMemory.paste (fun _ => 0) 0 [1, 2, 3], 0, 3, 1025⟩ := by
  have written : (RingBuffer.construct 1024 fun _ => 0).writeIn [1, 2, 3] =
      some (3, ⟨ByteMemory.paste (fun _ => 0) 0 [1, 2, 3], 0, 3, 1025⟩) := rfl
  refine (drain_delivers_iff (.writeIn (.construct 1024 fun _ => 0) written) _).mpr ?_
  exact Or.inr (Or.inr ⟨by decide, Or.inl (by decide)⟩)

/-- The write pointer rests on the end; two calls of `send` that take everything then emit stale
memory. -/
theorem full_drain_overruns : ∃ rb, Reached rb ∧
    ¬ Delivers (.send2SocketFd ⟨true, true, true⟩) rb := by
  obtain ⟨rb₁, rb₂, rb₃, ⟨_, _, written₁⟩, ⟨_, _, read₂⟩, ⟨_, written₃⟩, resting⟩ := exists_resting
  have reached := Reached.writeIn (.readOut (.writeIn (.construct 1024 fun _ => 0) written₁) read₂)
    written₃
  refine ⟨rb₃, reached, fun delivers => ?_⟩
  rcases (delivers_iff _ reached.valid).mp delivers with empty | unusable | ⟨inside, _⟩
  · have same : rb₃.readptr = rb₃.writeptr := RingBuffer.isEmpty_iff.mp empty
    have room : 1024 < rb₃.capacity := reached.valid.room
    omega
  · exact absurd unusable (by decide)
  · exact absurd resting.2.1 (Nat.ne_of_lt inside)

end DrainDelivery
