import Tigerso.RingDrain

/-!
# The sinks of the drain loops

How each of the four sinks takes a request, and what sending to a socket does to
a ring whose pointers are both off the end of the allocation.
-/

open SystemCalls DiskFile

namespace RingBuffer

theorem writeFd_takes : Takes writeFd (fun _ => True) (true = true) :=
  ⟨fun _ _ _ _ _ => ⟨(), trivial, rfl⟩, fun h => absurd rfl h, fun _ _ r hr => by
    cases r with
    | took n => exact absurd trivial hr
    | wouldBlock => exact ⟨_, _, by simp, rfl⟩
    | failed => exact ⟨_, _, by simp, rfl⟩⟩

theorem writeSocketFd_takes : Takes writeSocketFd (fun _ => True) (true = true) :=
  ⟨fun _ _ _ _ _ => ⟨(), trivial, rfl⟩, fun h => absurd rfl h, fun _ _ r hr => by
    cases r with
    | took n => exact absurd trivial hr
    | wouldBlock => exact ⟨_, _, by simp, rfl⟩
    | failed => exact ⟨_, _, by simp, rfl⟩⟩

theorem writeSocket_takes (isSSL : Bool) :
    Takes (writeSocket isSSL) (fun _ => True) ((!isSSL) = true) := by
  refine ⟨?_, ?_, ?_⟩
  · intro _ bytes n _ some_asked
    refine ⟨(), trivial, ?_⟩
    have asked : ¬ (isSSL && bytes.length == 0) = true := by
      rcases some_asked with nonempty | plain
      · simp [nonempty]
      · simp only [Bool.not_eq_true'] at plain
        simp [plain]
    rw [writeSocket, if_neg asked]
  · intro strict _ n
    have ssl : isSSL = true := by simpa using strict
    exact ⟨tigersoIoError, (), by simp [writeSocket, ssl]⟩
  · intro _ bytes r hr
    cases r with
    | took n => exact absurd trivial hr
    | wouldBlock => exact ⟨_, _, by simp, rfl⟩
    | failed => cases isSSL <;> exact ⟨_, _, by simp, rfl⟩

theorem writeFile_takes : Takes writeFile (fun file => file.named = true) (false = true) := by
  refine ⟨?_, ?_, ?_⟩
  · intro file bytes n named some_asked
    have nonempty : bytes.length ≠ 0 := by simpa using some_asked
    refine ⟨{ file with disk := some (file.contents ++ bytes.take (accepted n bytes.length)) },
      named, ?_⟩
    simp [writeFile, File.appendWriteIn, named, nonempty]
  · intro _ file n
    exact ⟨tigersoIoError, file, by simp [writeFile, File.appendWriteIn, fileArgsInvalid]⟩
  · intro file bytes r hr
    by_cases empty : bytes.length = 0 ∨ file.named = false
    · refine ⟨.stop tigersoIoError, file, by simp, ?_⟩
      rcases empty with e | e <;> simp [writeFile, File.appendWriteIn, fileArgsInvalid, e]
    · refine ⟨.stop tigersoIoError, { file with disk := some file.contents }, by simp, ?_⟩
      rw [not_or] at empty
      cases r with
      | took n => exact absurd trivial hr
      | wouldBlock => simp [writeFile, File.appendWriteIn, empty]
      | failed => simp [writeFile, File.appendWriteIn, empty]

/-- What a result of the file sink leaves in the file. -/
theorem writeFile_contents {file file' : File} {bytes : Bytes} {r : WriteResult} {w : Settled}
    (named : file.named = true) (result : writeFile file bytes r = (w, file')) :
    file'.named = true ∧ (∀ n, w = .moved n → file'.contents = file.contents ++ bytes.take n) ∧
      ((∀ n, w ≠ .moved n) → file'.contents = file.contents) := by
  by_cases empty : bytes.length = 0
  · simp only [writeFile, File.appendWriteIn, empty, fileArgsInvalid] at result
    cases result
    simp [named]
  · simp only [writeFile, File.appendWriteIn, empty, named] at result
    cases r with
    | took n =>
      have positive : ¬ ((accepted n bytes.length : Nat) : Int) < 0 := by omega
      simp [positive] at result
      obtain ⟨rfl, rfl⟩ := result
      simp [File.contents, named]
    | wouldBlock =>
      simp at result
      obtain ⟨rfl, rfl⟩ := result
      simp [File.contents, named]
    | failed =>
      simp at result
      obtain ⟨rfl, rfl⟩ := result
      simp [File.contents, named]

/-- The bytes handed over are the bytes the file grows by. -/
theorem drainLoop_contents {finish : RingBuffer → RingBuffer} {datasize : Nat}
    {results : List WriteResult} {rb : RingBuffer} {file file' : File} {d : Drain}
    (named : file.named = true)
    (result : drainLoop writeFile finish datasize results rb file = some (d, file')) :
    file'.contents = file.contents ++ d.sent := by
  induction results generalizing rb file d with
  | nil =>
    rw [drainLoop] at result
    split_ifs at result <;> cases result <;> simp
  | cons r results ih =>
    rw [drainLoop] at result
    split_ifs at result with done
    · cases result
      simp
    obtain ⟨bytes, _, result⟩ := Option.bind_eq_some_iff.mp result
    obtain ⟨w, file₁, wrote⟩ : ∃ w file₁, writeFile file bytes r = (w, file₁) := ⟨_, _, rfl⟩
    obtain ⟨named₁, grows, same⟩ := writeFile_contents named wrote
    rw [wrote] at result
    cases w with
    | stop ret =>
      cases result
      simp [same (by simp)]
    | again =>
      cases result
      simp [same (by simp)]
    | moved n =>
      obtain ⟨⟨d₁, file₂⟩, later, result⟩ := Option.bind_eq_some_iff.mp result
      cases result
      simp only [ih named₁ later, grows n rfl, List.append_assoc]

/-- A drain leaves a file its name. -/
theorem drainLoop_named {finish : RingBuffer → RingBuffer} {datasize : Nat}
    {results : List WriteResult} {rb : RingBuffer} {file file' : File} {d : Drain}
    (named : file.named = true)
    (result : drainLoop writeFile finish datasize results rb file = some (d, file')) :
    file'.named = true := by
  induction results generalizing rb file d with
  | nil =>
    rw [drainLoop] at result
    split_ifs at result <;> cases result <;> exact named
  | cons r results ih =>
    rw [drainLoop] at result
    split_ifs at result
    · cases result
      exact named
    obtain ⟨bytes, _, result⟩ := Option.bind_eq_some_iff.mp result
    obtain ⟨w, file₁, wrote⟩ : ∃ w file₁, writeFile file bytes r = (w, file₁) := ⟨_, _, rfl⟩
    obtain ⟨named₁, _⟩ := writeFile_contents named wrote
    rw [wrote] at result
    cases w with
    | stop ret =>
      cases result
      exact named₁
    | again =>
      cases result
      exact named₁
    | moved n =>
      obtain ⟨⟨d₁, file₂⟩, later, result⟩ := Option.bind_eq_some_iff.mp result
      cases result
      exact ih named₁ later

theorem readOut2File_contents {results : List WriteResult} {rb : RingBuffer}
    {file file' : File} {d : Drain} (named : file.named = true)
    (result : rb.readOut2File file results = some (d, file')) :
    file'.contents = file.contents ++ d.sent := by
  rw [RingBuffer.readOut2File] at result
  split_ifs at result
  · cases result
    simp
  · exact drainLoop_contents named result

theorem id_finishes : Finishes id := by
  rintro rb h same
  have nothing : rb.content.length = 0 := by
    rw [content_length, if_pos (Nat.le_of_eq same), same, Nat.sub_self]
  exact ⟨h, List.length_eq_zero_iff.mp nothing, RingBuffer.isEmpty_iff.mpr same, rfl,
    Nat.le_refl _⟩

theorem clear_finishes : Finishes RingBuffer.clear :=
  fun rb h _ => ⟨clear_valid h, clear_content rb, RingBuffer.isEmpty_iff.mpr rfl, rfl,
    Nat.zero_le _⟩

/-- Neither pointer rests on the end. -/
structure Rested (rb : RingBuffer) : Prop where
  valid : rb.Valid
  before : rb.readptr < rb.capacity
  inside : rb.writeptr < rb.capacity

/-- Both pointers are at the start, as `clear` leaves them. -/
structure Cleared (rb : RingBuffer) : Prop where
  valid : rb.Valid
  read : rb.readptr = 0
  write : rb.writeptr = 0

theorem clear_cleared {rb : RingBuffer} (h : rb.Valid) : rb.clear.Cleared :=
  ⟨clear_valid h, rfl, rfl⟩

theorem Cleared.content {rb : RingBuffer} (h : rb.Cleared) : rb.content = [] := by
  have hlen := content_length rb
  rw [h.read, h.write, if_pos (Nat.le_refl 0)] at hlen
  exact List.length_eq_zero_iff.mp hlen

/-- A short block written to a cleared ring is all that the ring stores. -/
theorem writeIn_cleared {rb : RingBuffer} (h : rb.Cleared) {bytes : Bytes} (data : bytes ≠ [])
    (short : bytes.length ≤ ringbufferMinLength) :
    ∃ ret rb', rb.writeIn bytes = some (ret, rb') ∧ rb'.Rested ∧ rb'.content = bytes ∧
      rb'.capacity = rb.capacity := by
  have hroom := h.valid.room
  have hspace := space_eq h.valid
  rw [h.content, List.length_nil] at hspace
  simp only [ringbufferMinLength] at hroom short
  obtain ⟨rb', result, ⟨valid, content, capacity, read⟩, _⟩ :=
    writeIn_spec h.valid (by omega) data
  rw [h.content, List.nil_append, List.take_of_length_le (by omega)] at content
  have hlen := content_length rb'
  rw [read, h.read, if_pos (Nat.zero_le _), content] at hlen
  exact ⟨_, rb', result, ⟨valid, by rw [read, h.read]; omega, by omega⟩, content, capacity⟩

/-- The outcome of sending from a rested ring when no call fails: the results are
used up, or the rest of the bytes stays in the ring. -/
inductive Flushed (rb : RingBuffer) (results : List WriteResult) (d : Drain) : Prop
  | starved (ret : d.ret = none) (few : moving results < rb.content.length)
  | returned (hret : d.ret = some (d.sent.length : Int))
      (split : rb.content = d.sent ++ d.ring.content) (rested : d.ring.Rested)
      (capacity : d.ring.capacity = rb.capacity)
      (cleared : d.ring.content = [] → d.ring.Cleared)
      (complete : (∀ r ∈ results, r.IsTook) → d.ring.content = [])
      (suffix : d.rest <:+ results) (used : d.rest.length < results.length)
      (pace : moving results ≤ moving d.rest + d.sent.length)
      (cut : d.sent ≠ [] → d.ring.content ≠ [] → CutShort (spent results d.rest))

/-- A ring holds less than an `int` can count. -/
theorem size_small {rb : RingBuffer} (h : rb.Valid) : rb.size < 2 ^ 31 := by
  have hlt := contentLength_lt h
  have hlimit := h.limit
  rw [size_eq h]
  simp only [ringbufferMaxLength] at hlimit
  omega

/-- A drain whose results do not fail is a flush. -/
theorem flushed_of_drained {rb : RingBuffer} {results : List WriteResult} {d : Drain}
    (h : rb.Valid) (occupied : rb.content ≠ []) (calm : ∀ r ∈ results, r ≠ .failed)
    (drained : Drained rb results d) (paced : Paced clear True rb.size rb results d) :
    Flushed rb results d := by
  cases returns : d.ret with
  | none =>
    obtain ⟨nothing, short⟩ := paced.starved returns
    have pace := paced.pace
    rw [nothing, moving_nil] at pace
    exact .starved returns (by omega)
  | some ret =>
    have returned : d.ret ≠ none := by simp [returns]
    obtain ⟨valid, left, _⟩ := drained.kept returned
    obtain ⟨capacity, before, inside⟩ := paced.rested returned
    obtain ⟨tail, order⟩ := drained.order
    have split : rb.content = d.sent ++ d.ring.content := by
      rw [left, ← order, List.drop_left]
    have answer := paced.answer trivial calm (size_small h) 0
      (by rw [size_eq h, Nat.zero_add]) ret returns
    rw [Nat.zero_add] at answer
    refine .returned (by rw [returns, answer]) split
      ⟨valid, before, inside⟩ capacity ?_ ?_ paced.suffix (paced.used occupied returned) paced.pace
      fun some_sent some_left => ⟨paced.begun some_sent, paced.cut returned some_left⟩
    · intro nothing
      rw [nothing, List.append_nil] at split
      obtain ⟨rb₀, cleared⟩ := paced.last returned split.symm
      exact ⟨valid, by rw [cleared]; rfl, by rw [cleared]; rfl⟩
    · intro all
      rw [drained.complete all returned] at left
      rw [left, List.drop_length]

section
variable {rb : RingBuffer} {results : List WriteResult}

theorem occupied_of_content (occupied : rb.content ≠ []) : rb.isEmpty = false := by
  rw [Bool.eq_false_iff]
  intro empty
  have same := isEmpty_iff.mp empty
  have hlen := content_length rb
  rw [if_pos (Nat.le_of_eq same), same, Nat.sub_self] at hlen
  exact occupied (List.length_eq_zero_iff.mp hlen)

theorem send2Socket_flushed (h : rb.Rested) (occupied : rb.content ≠ []) (isSSL : Bool)
    (calm : ∀ r ∈ results, r ≠ .failed) :
    ∃ d, rb.send2Socket isSSL results = some (d, ()) ∧ Flushed rb results d := by
  obtain ⟨valid, before, inside⟩ := h
  obtain ⟨d, _, result, drained, paced, _⟩ := drainLoop_spec (writeSocket_takes isSSL)
    clear_finishes (fun (_ : True) _ _ => rfl) rb.size results valid inside (Or.inl before) ()
    trivial
  refine ⟨d, ?_, flushed_of_drained valid occupied calm drained (paced before)⟩
  simp [send2Socket, occupied_of_content occupied, result]

theorem send2SocketFd_flushed (h : rb.Rested) (occupied : rb.content ≠ []) {fd : Fd}
    (hfd : fd.valid = true) (nonblock : fd.nonblock = true)
    (calm : ∀ r ∈ results, r ≠ .failed) :
    ∃ d, rb.send2SocketFd fd results = some (d, ()) ∧ Flushed rb results d := by
  obtain ⟨valid, before, inside⟩ := h
  obtain ⟨d, _, result, drained, paced, _⟩ := drainLoop_spec writeSocketFd_takes
    clear_finishes (fun (_ : True) _ _ => rfl) rb.size results valid inside (Or.inl before) ()
    trivial
  refine ⟨d, ?_, flushed_of_drained valid occupied calm drained (paced before)⟩
  simp [send2SocketFd, occupied_of_content occupied, hfd, nonblock, result]

/-- Sends that all take bytes empty any ring, fail, or go on for as long as there are
results. -/
theorem send2Socket_all (h : rb.Valid) (isSSL : Bool) (all : ∀ r ∈ results, r.IsTook) :
    ∃ d, rb.send2Socket isSSL results = some (d, ()) ∧ d.rest <:+ results ∧
      ∀ ret, d.ret = some ret → ret < 0 ∨
        d.sent = rb.content ∧ d.ring.Valid ∧ d.ring.content = [] := by
  rw [send2Socket]
  split_ifs with empty
  · have same := isEmpty_iff.mp empty
    have none_left : rb.content = [] := by
      have hlen := content_length rb
      rw [if_pos (Nat.le_of_eq same), same, Nat.sub_self] at hlen
      exact List.length_eq_zero_iff.mp hlen
    exact ⟨_, rfl, List.suffix_rfl, fun _ _ => Or.inr ⟨none_left.symm, h, none_left⟩⟩
  have apart : rb.readptr ≠ rb.writeptr := fun same => empty (isEmpty_iff.mpr same)
  have hread := h.read_le
  have hlimit := h.limit
  simp only [ringbufferMaxLength] at hlimit
  have takes := writeSocket_takes isSSL
  -- the loop on a ring it can drain
  have drains : (rb.readptr < rb.capacity ∨ (!isSSL) = true ∧ 0 < rb.writeptr) →
      rb.writeptr < rb.capacity →
      ∃ d, drainLoop (writeSocket isSSL) clear rb.size results rb () = some (d, ()) ∧
        d.rest <:+ results ∧ ∀ ret, d.ret = some ret → ret < 0 ∨
          d.sent = rb.content ∧ d.ring.Valid ∧ d.ring.content = [] := by
    intro start inside
    obtain ⟨d, ⟨⟩, result, drained, _, _⟩ := drainLoop_spec takes clear_finishes
      (fun (_ : True) _ _ => rfl) rb.size results h inside start () trivial
    refine ⟨d, result, drainLoop_rest result, fun ret returns => Or.inr ?_⟩
    have returned : d.ret ≠ none := by simp [returns]
    obtain ⟨valid, left, _⟩ := drained.kept returned
    have complete := drained.complete all returned
    exact ⟨complete, valid, by rw [left, complete, List.drop_length]⟩
  rcases Nat.lt_or_eq_of_le h.write_le with inside | atEnd
  · rcases Nat.lt_or_eq_of_le hread with before | resting
    · exact drains (Or.inl before) inside
    rcases Nat.eq_zero_or_pos rb.writeptr with low | positive
    · have none_left : rb.content = [] := by
        have hlen := content_length rb
        rw [if_neg (by omega), resting, low, Nat.sub_self] at hlen
        exact List.length_eq_zero_iff.mp hlen
      have done : rb.size = 0 := by rw [size_eq h, none_left]; rfl
      have finished : drainLoop (writeSocket isSSL) clear rb.size results rb () =
          some (⟨some rb.size, rb.clear, [], results⟩, ()) := by
        cases results <;> rw [drainLoop, if_pos done]
      rw [finished]
      exact ⟨_, rfl, List.suffix_rfl, fun _ _ => Or.inr
        ⟨none_left.symm, clear_valid h, clear_content rb⟩⟩
    · cases isSSL with
      | false => exact drains (Or.inr ⟨rfl, positive⟩) inside
      | true =>
        have pending : rb.size ≠ 0 := by
          rw [size_eq h, content_length, if_neg (by omega)]
          omega
        have nothing : rb.copyOut rb.readptr rb.request = some [] := by
          rw [copyOut_request h apart, straight, if_neg (by omega), resting, Nat.sub_self,
            List.take_zero]
        cases results with
        | nil =>
          rw [drainLoop, if_neg pending]
          exact ⟨_, rfl, List.suffix_rfl, fun _ e => by cases e⟩
        | cons r results =>
          cases r with
          | took n =>
            rw [drainLoop, if_neg pending, nothing]
            exact ⟨_, rfl, List.suffix_cons _ _, fun _ e => Or.inl (by cases e; decide)⟩
          | wouldBlock => exact absurd (all _ List.mem_cons_self) id
          | failed => exact absurd (all _ List.mem_cons_self) id
  · obtain ⟨d, ⟨⟩, result, waits⟩ : ∃ d s',
        drainLoop (writeSocket isSSL) clear rb.size results rb () = some (d, s') ∧ d.ret = none :=
      drainLoop_lapped takes rb.size (by omega) atEnd (by omega) results all () trivial
    exact ⟨d, result, drainLoop_rest result, fun _ e => by rw [waits] at e; cases e⟩

/-- `k` bytes taken one by one, then would-block: the rest stays in the ring. -/
theorem drainLoop_bytes (k : Nat) (h : rb.Rested) (some_more : k < rb.content.length)
    (rest : List WriteResult) {datasize : Nat} (enough : rb.content.length ≤ datasize)
    (small : datasize < 2 ^ 31) :
    ∃ ret rb', drainLoop (writeSocket true) clear datasize
        (List.replicate k (.took 0) ++ .wouldBlock :: rest) rb () =
        some (⟨some ((ret : Nat) : Int), rb', rb.content.take k, rest⟩, ()) ∧
      rb'.Valid ∧ rb'.size ≠ 0 := by
  have pending : rb.size ≠ 0 := by
    rw [size_eq h.valid]
    omega
  have apart := occupied_of_size h.valid pending
  induction k generalizing rb with
  | zero =>
    have left : Int.bmod (datasize - rb.size) (2 ^ 32) = (datasize - rb.size : Nat) := by
      rw [size_eq h.valid, Int.bmod_eq_of_le (by omega) (by omega)]
      omega
    refine ⟨datasize - rb.size, rb, ?_, h.valid, pending⟩
    rw [List.replicate_zero, List.nil_append, drainLoop, if_neg pending,
      copyOut_request h.valid apart, ← left]
    rfl
  | succ k ih =>
    obtain ⟨valid, before, inside⟩ := h
    have asked := straight_pos before
    have asksLen : (rb.content.take rb.straight).length = rb.straight := by
      rw [List.length_take, Nat.min_eq_left (straight_le apart)]
    have one : accepted 0 rb.straight = 1 := by
      simp only [accepted]
      omega
    obtain ⟨valid', content', before', inside'⟩ := consume_spec valid inside apart
      (show 1 ≤ rb.straight by omega)
    have shorter : k < (rb.consume 1).content.length := by
      rw [content', List.length_drop]
      omega
    have pending' : (rb.consume 1).size ≠ 0 := by
      rw [size_eq valid']
      omega
    have enough' : (rb.consume 1).content.length ≤ datasize := by
      rw [content', List.length_drop]
      omega
    obtain ⟨ret, rb', later, kept⟩ := ih ⟨valid', before', inside'⟩ shorter enough' pending'
      (occupied_of_size valid' pending')
    refine ⟨ret, rb', ?_, kept⟩
    rw [List.replicate_succ, List.cons_append, drainLoop, if_neg pending,
      copyOut_request valid apart]
    simp only [Option.bind_eq_bind, Option.bind_some]
    rw [writeSocket, if_neg (by rw [asksLen]; simp; omega), asksLen, one]
    simp only [later, Option.bind_some, List.take_take,
      Nat.min_eq_left (show 1 ≤ rb.straight by omega), content']
    rw [Nat.add_comm k 1, List.take_add]

theorem send2Socket_bytes (k : Nat) (h : rb.Rested) (some_more : k < rb.content.length)
    (rest : List WriteResult) :
    ∃ ret rb', rb.send2Socket true (List.replicate k (.took 0) ++ .wouldBlock :: rest) =
        some (⟨some ((ret : Nat) : Int), rb', rb.content.take k, rest⟩, ()) ∧
      rb'.Valid ∧ rb'.size ≠ 0 := by
  rw [send2Socket, occupied_of_content (List.ne_nil_of_length_pos (by omega)),
    if_neg Bool.false_ne_true]
  exact drainLoop_bytes k h some_more rest (Nat.le_of_eq (size_eq h.valid).symm)
    (size_small h.valid)

end

end RingBuffer
