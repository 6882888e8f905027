import Tigerso.CutLoops

/-!
# One turn of http_parser_execute over a buffer that is cut in two

Five states look at more than one byte. Where such a turn comes to the end of the first part, the
run that goes on there does with the second part what is left to do.
-/

open SystemCalls LabelledPaths JoinedPieces

namespace HttpLib

variable {eof : Prop} {start : Phase} {n : Nat} {r r' : Run}

def Step.passed : Step → Nat
  | .next _ n => n
  | .error _ _ n => n
  | .leave _ n => n
  | .abort => 0

theorem Step.passed_behind (s : Step) (k : Nat) : (s.behind k).passed ≤ k + s.passed := by
  cases s <;> first | exact Nat.le_refl _ | exact Nat.zero_le _

section
variable (strict : Bool) (answer : Nat) (r : Run) (ch : Byte)

theorem expect_passed (expected : Byte) (s : State) :
    (expect strict r ch expected s).passed = 0 := by
  unfold expect
  split_ifs <;> rfl

theorem sDead_passed : (sDead r ch).passed = 0 := by
  unfold sDead
  split_ifs <;> rfl

theorem sStartReq_passed : (sStartReq r ch).passed = 0 := by
  unfold sStartReq
  dsimp only
  split_ifs
  · rfl
  · rfl
  · cases firstMethod ch <;> rfl

theorem sStartReqOrRes_passed : (sStartReqOrRes r ch).passed = 0 := by
  unfold sStartReqOrRes
  split_ifs
  · rfl
  · rfl
  · exact sStartReq_passed _ ch

theorem sResOrRespH_passed : (sResOrRespH r ch).passed = 0 := by
  unfold sResOrRespH
  split_ifs <;> rfl

theorem sStartRes_passed : (sStartRes r ch).passed = 0 := by
  unfold sStartRes
  dsimp only
  split_ifs <;> rfl

theorem sReqMethod_passed : (sReqMethod r ch).passed = 0 := by
  unfold sReqMethod
  by_cases zero : ch = 0
  · rw [if_pos zero]
    rfl
  · rw [if_neg zero]
    cases (methodStrings r.parser.method ++ [0])[r.parser.index]? with
    | none => rfl
    | some expected =>
      cases otherMethod r.parser.method r.parser.index ch with
      | none =>
        dsimp only
        split_ifs <;> rfl
      | some m =>
        dsimp only
        split_ifs <;> rfl

theorem urlChar_passed : (urlChar strict r ch).passed = 0 := by
  unfold urlChar
  dsimp only
  split_ifs <;> rfl

theorem sReqSpacesBeforeUrl_passed : (sReqSpacesBeforeUrl strict r ch).passed = 0 := by
  unfold sReqSpacesBeforeUrl
  dsimp only
  split_ifs
  · rfl
  · exact urlChar_passed strict _ ch
  · exact urlChar_passed strict _ ch

theorem sReqSchema_passed : (sReqSchema strict r ch).passed = 0 := by
  unfold sReqSchema
  split_ifs
  · rfl
  · exact urlChar_passed strict r ch

theorem sReqPath_passed : (sReqPath strict r ch).passed = 0 := by
  have more := urlChar_passed strict r ch
  unfold sReqPath
  split_ifs <;> first | rfl | exact more

theorem sReqHttpStart_passed : (sReqHttpStart r ch).passed = 0 := by
  unfold sReqHttpStart
  split_ifs <;> rfl

theorem firstMajor_passed (least : Byte) (s : State) : (firstMajor r ch least s).passed = 0 := by
  unfold firstMajor
  split_ifs <;> rfl

theorem httpMajor_passed (s : State) : (httpMajor r ch s).passed = 0 := by
  unfold httpMajor
  dsimp only
  split_ifs <;> rfl

theorem firstMinor_passed (s : State) : (firstMinor r ch s).passed = 0 := by
  unfold firstMinor
  split_ifs <;> rfl

theorem httpMinor_passed : (httpMinor r ch).passed = 0 := by
  unfold httpMinor
  dsimp only
  split_ifs <;> rfl

theorem sResHttpMinor_passed : (sResHttpMinor r ch).passed = 0 := by
  have more := httpMinor_passed r ch
  unfold sResHttpMinor
  split_ifs <;> first | rfl | exact more

theorem sReqHttpMinor_passed : (sReqHttpMinor r ch).passed = 0 := by
  have more := httpMinor_passed r ch
  unfold sReqHttpMinor
  split_ifs <;> first | rfl | exact more

theorem sResFirstStatusCode_passed : (sResFirstStatusCode r ch).passed = 0 := by
  unfold sResFirstStatusCode
  split_ifs <;> rfl

theorem sResStatusCode_passed : (sResStatusCode r ch).passed = 0 := by
  unfold sResStatusCode
  dsimp only
  split_ifs <;> rfl

theorem sResStatusStart_passed : (sResStatusStart r ch).passed = 0 := by
  unfold sResStatusStart
  split_ifs <;> rfl

theorem sResStatus_passed : (sResStatus r ch).passed = 0 := by
  unfold sResStatus
  split_ifs <;> rfl

theorem sReqLineAlmostDone_passed : (sReqLineAlmostDone r ch).passed = 0 := by
  unfold sReqLineAlmostDone
  split_ifs <;> rfl

theorem sHeaderValueStart_passed : (sHeaderValueStart r ch).passed = 0 := by
  unfold sHeaderValueStart
  dsimp only
  split <;> first | rfl | (split_ifs <;> rfl)

theorem sHeaderValueDiscardWs_passed : (sHeaderValueDiscardWs r ch).passed = 0 := by
  have more := sHeaderValueStart_passed r ch
  unfold sHeaderValueDiscardWs
  split_ifs <;> first | rfl | exact more

theorem sHeaderAlmostDone_passed : (sHeaderAlmostDone r ch).passed = 0 := by
  unfold sHeaderAlmostDone
  split_ifs <;> rfl

theorem sMessageDone_passed : (sMessageDone strict r).passed = 0 := by
  unfold sMessageDone
  dsimp only
  split_ifs <;> rfl

theorem sHeadersDone_passed : (sHeadersDone strict r ch).passed = 0 := by
  unfold sHeadersDone
  dsimp only
  split_ifs <;> rfl

theorem sHeadersAlmostDone_passed : (sHeadersAlmostDone strict answer r ch).passed = 0 := by
  unfold sHeadersAlmostDone
  dsimp only
  split_ifs
  · rfl
  · exact sMessageDone_passed strict _
  · rfl
  · split <;> first | exact sHeadersDone_passed strict _ ch | rfl

theorem sHeaderFieldStart_passed : (sHeaderFieldStart strict answer r ch).passed = 0 := by
  have more := sHeadersAlmostDone_passed strict answer (r.updateState .sHeadersAlmostDone) ch
  unfold sHeaderFieldStart
  dsimp only
  split_ifs <;> first | rfl | exact more

theorem sHeaderValueLws_passed : (sHeaderValueLws strict answer r ch).passed = 0 := by
  unfold sHeaderValueLws
  split_ifs
  · exact sHeaderValueStart_passed _ ch
  · exact sHeaderFieldStart_passed strict answer _ ch

theorem sHeaderValueDiscardLws_passed :
    (sHeaderValueDiscardLws strict answer r ch).passed = 0 := by
  unfold sHeaderValueDiscardLws
  split_ifs
  · rfl
  · exact sHeaderFieldStart_passed strict answer _ ch

theorem sChunkSizeStart_passed : (sChunkSizeStart r ch).passed = 0 := by
  unfold sChunkSizeStart
  split_ifs
  · rfl
  · cases unhex ch <;> rfl

theorem sChunkSize_passed : (sChunkSize r ch).passed = 0 := by
  unfold sChunkSize
  cases unhex ch with
  | none =>
    dsimp only
    split_ifs <;> rfl
  | some digit =>
    dsimp only
    split_ifs <;> rfl

theorem sChunkParameters_passed : (sChunkParameters r ch).passed = 0 := by
  unfold sChunkParameters
  split_ifs <;> rfl

theorem sChunkSizeAlmostDone_passed : (sChunkSizeAlmostDone strict r ch).passed = 0 := by
  unfold sChunkSizeAlmostDone
  dsimp only
  split_ifs <;> rfl

theorem sChunkDataAlmostDone_passed : (sChunkDataAlmostDone strict r ch).passed = 0 := by
  unfold sChunkDataAlmostDone
  split_ifs <;> rfl

theorem sChunkDataDone_passed : (sChunkDataDone strict r ch).passed = 0 := by
  unfold sChunkDataDone
  split_ifs <;> rfl

def State.far : State → Bool
  | .sHeaderField => true
  | .sHeaderValue => true
  | .sBodyIdentity => true
  | .sBodyIdentityEof => true
  | .sChunkData => true
  | _ => false

/-- In the other states a turn is about one byte. -/
theorem step_near (near : ¬ r.parser.state.far) (rest b : Bytes) :
    step strict answer r ch (rest ++ b) = step strict answer r ch rest ∧
      (step strict answer r ch rest).passed = 0 := by
  unfold step
  cases at_ : r.parser.state with
  | sHeaderField => exact absurd (by rw [at_]; rfl) near
  | sHeaderValue => exact absurd (by rw [at_]; rfl) near
  | sBodyIdentity => exact absurd (by rw [at_]; rfl) near
  | sBodyIdentityEof => exact absurd (by rw [at_]; rfl) near
  | sChunkData => exact absurd (by rw [at_]; rfl) near
  | sDead => exact ⟨rfl, sDead_passed r ch⟩
  | sStartReqOrRes => exact ⟨rfl, sStartReqOrRes_passed r ch⟩
  | sResOrRespH => exact ⟨rfl, sResOrRespH_passed r ch⟩
  | sStartRes => exact ⟨rfl, sStartRes_passed r ch⟩
  | sResFirstHttpMajor => exact ⟨rfl, firstMajor_passed r ch _ _⟩
  | sResHttpMajor => exact ⟨rfl, httpMajor_passed r ch _⟩
  | sResFirstHttpMinor => exact ⟨rfl, firstMinor_passed r ch _⟩
  | sResHttpMinor => exact ⟨rfl, sResHttpMinor_passed r ch⟩
  | sResFirstStatusCode => exact ⟨rfl, sResFirstStatusCode_passed r ch⟩
  | sResStatusCode => exact ⟨rfl, sResStatusCode_passed r ch⟩
  | sResStatusStart => exact ⟨rfl, sResStatusStart_passed r ch⟩
  | sResStatus => exact ⟨rfl, sResStatus_passed r ch⟩
  | sStartReq => exact ⟨rfl, sStartReq_passed r ch⟩
  | sReqMethod => exact ⟨rfl, sReqMethod_passed r ch⟩
  | sReqSpacesBeforeUrl => exact ⟨rfl, sReqSpacesBeforeUrl_passed strict r ch⟩
  | sReqSchema => exact ⟨rfl, sReqSchema_passed strict r ch⟩
  | sReqSchemaSlash => exact ⟨rfl, sReqSchema_passed strict r ch⟩
  | sReqSchemaSlashSlash => exact ⟨rfl, sReqSchema_passed strict r ch⟩
  | sReqServerStart => exact ⟨rfl, sReqSchema_passed strict r ch⟩
  | sReqServer => exact ⟨rfl, sReqPath_passed strict r ch⟩
  | sReqServerWithAt => exact ⟨rfl, sReqPath_passed strict r ch⟩
  | sReqPath => exact ⟨rfl, sReqPath_passed strict r ch⟩
  | sReqQueryStringStart => exact ⟨rfl, sReqPath_passed strict r ch⟩
  | sReqQueryString => exact ⟨rfl, sReqPath_passed strict r ch⟩
  | sReqFragmentStart => exact ⟨rfl, sReqPath_passed strict r ch⟩
  | sReqFragment => exact ⟨rfl, sReqPath_passed strict r ch⟩
  | sReqHttpStart => exact ⟨rfl, sReqHttpStart_passed r ch⟩
  | sReqFirstHttpMajor => exact ⟨rfl, firstMajor_passed r ch _ _⟩
  | sReqHttpMajor => exact ⟨rfl, httpMajor_passed r ch _⟩
  | sReqFirstHttpMinor => exact ⟨rfl, firstMinor_passed r ch _⟩
  | sReqHttpMinor => exact ⟨rfl, sReqHttpMinor_passed r ch⟩
  | sReqLineAlmostDone => exact ⟨rfl, sReqLineAlmostDone_passed r ch⟩
  | sHeaderFieldStart => exact ⟨rfl, sHeaderFieldStart_passed strict answer r ch⟩
  | sHeaderValueDiscardWs => exact ⟨rfl, sHeaderValueDiscardWs_passed r ch⟩
  | sHeaderValueStart => exact ⟨rfl, sHeaderValueStart_passed r ch⟩
  | sHeaderAlmostDone => exact ⟨rfl, sHeaderAlmostDone_passed r ch⟩
  | sHeaderValueLws => exact ⟨rfl, sHeaderValueLws_passed strict answer r ch⟩
  | sHeaderValueDiscardLws => exact ⟨rfl, sHeaderValueDiscardLws_passed strict answer r ch⟩
  | sHeadersAlmostDone => exact ⟨rfl, sHeadersAlmostDone_passed strict answer r ch⟩
  | sHeadersDone => exact ⟨rfl, sHeadersDone_passed strict r ch⟩
  | sMessageDone => exact ⟨rfl, sMessageDone_passed strict r⟩
  | sChunkSizeStart => exact ⟨rfl, sChunkSizeStart_passed r ch⟩
  | sChunkSize => exact ⟨rfl, sChunkSize_passed r ch⟩
  | sChunkParameters => exact ⟨rfl, sChunkParameters_passed r ch⟩
  | sChunkSizeAlmostDone => exact ⟨rfl, sChunkSizeAlmostDone_passed strict r ch⟩
  | sChunkDataAlmostDone => exact ⟨rfl, sChunkDataAlmostDone_passed strict r ch⟩
  | sChunkDataDone => exact ⟨rfl, sChunkDataDone_passed strict r ch⟩
  | _ => exact ⟨rfl, expect_passed strict r ch _ _⟩

end

/-- A turn that began at `x` and the same one from behind `x` on. -/
inductive Shifted (x : Bytes) : Step → Step → Prop
  | next {r r' : Run} (n : Nat) (same : ∀ y, r.advance (x ++ y) = r'.advance y) :
      Shifted x (.next r (x.length + n)) (.next r' n)
  | leave (r : Run) (n : Nat) : Shifted x (.leave r (x.length + n)) (.leave r n)
  | error (e : Errno) (r r' : Run) (n : Nat) :
      Shifted x (.error e r (x.length + n)) (.error e r' n)
  | abort : Shifted x .abort .abort

namespace Run

theorem advance_append (r : Run) (x y : Bytes) : (r.advance x).advance y = r.advance (x ++ y) := by
  have marks : (fun m => ((r.marks m).map (· ++ x)).map (· ++ y)) =
      fun m => (r.marks m).map (· ++ (x ++ y)) := by
    funext m
    cases r.marks m with
    | none => rfl
    | some at_ => exact congrArg some (List.append_assoc at_ x y)
  exact congrArg (fun marks => (⟨r.parser, marks, r.callbacks⟩ : Run)) marks

theorem advance_closed (closed : ∀ m, r.marks m = none) (x : Bytes) : r.advance x = r := by
  have marks : (fun m => (r.marks m).map (· ++ x)) = r.marks := by
    funext m
    rw [closed m]
    rfl
  unfold advance
  rw [marks]

/-- What is marked is reported behind `x`. -/
theorem flush_advance {m : Mark} (single : Single r.marks m) (x y : Bytes) :
    (r.advance x).callbackData_ m y = r.callbackData_ m (x ++ y) := by
  cases set : r.marks m with
  | none =>
    have closed : ∀ k, r.marks k = none := fun k => by
      by_cases same : k = m
      · exact same ▸ set
      · exact single k same
    rw [advance_closed closed]
    simp only [callbackData_, set]
  | some at_ =>
    have longer : (r.advance x).marks m = some (at_ ++ x) := by simp [advance, set]
    have cleared : Function.update (r.advance x).marks m none = Function.update r.marks m none := by
      funext k
      by_cases same : k = m
      · simp [same]
      · simp [same, advance, single k same]
    simp only [callbackData_, set, longer, cleared, List.append_assoc]
    rfl

end Run

/-- A turn that leaves no mark. -/
theorem Shifted.closed {s : Step} (closed : ∀ r n, s = .next r n → ∀ m, r.marks m = none)
    (x : Bytes) (n : Nat) : Shifted x (s.behind (x.length + n)) (s.behind n) := by
  cases s with
  | next r k =>
    have unset := closed r k rfl
    rw [Step.behind, Step.behind, Nat.add_assoc]
    refine .next (n + k) fun y => ?_
    rw [Run.advance_closed unset, Run.advance_closed unset]
  | leave r k =>
    rw [Step.behind, Step.behind, Nat.add_assoc]
    exact .leave r (n + k)
  | error e r k =>
    rw [Step.behind, Step.behind, Nat.add_assoc]
    exact .error e r r (n + k)
  | abort => exact .abort

/-- What is counted in two parts, where the parser has changed in between. -/
theorem Run.count_advance (r : Run) {q q' : Parser} (same : q'.nread = q.nread)
    (x : Bytes) (n : Nat) :
    (⟨q'.setNread (({ r with parser := q } : Run).count x.length).parser.nread,
      ((({ r with parser := q } : Run).count x.length).advance x).marks,
      ((({ r with parser := q } : Run).count x.length).advance x).callbacks⟩ : Run).count n =
      (({ r with parser := q' } : Run).count (x.length + n)).advance x := by
  have counted : ((q.nread + x.length) % 2 ^ 32 + n) % 2 ^ 32 =
      (q'.nread + (x.length + n)) % 2 ^ 32 := by
    rw [Nat.mod_add_mod, Nat.add_assoc, same]
  exact congrArg (fun nread => (⟨q'.setNread nread, (r.advance x).marks, r.callbacks⟩ : Run))
    counted

theorem Shifted.counted {x : Bytes} {r' : Run} {n : Nat} {k k' : Run → Step}
    (counted : (r'.count n).parser.nread = (r.count (x.length + n)).parser.nread)
    (follows : Shifted x (k (r.count (x.length + n))) (k' (r'.count n))) :
    Shifted x (r.countHeaderSize (x.length + n) (x.length + n) k) (r'.countHeaderSize n n k') := by
  unfold Run.countHeaderSize
  rw [counted]
  split_ifs
  · exact .error _ _ _ _
  · exact follows

/-- The same, where all of both parts is counted. -/
theorem Shifted.all {x b : Bytes} (r : Run) (some_ : b ≠ []) :
    Shifted x (.next r (x.length + b.length - 1)) (.next (r.advance x) (b.length - 1)) := by
  have long : 0 < b.length := List.length_pos_iff.mpr some_
  rw [show x.length + b.length - 1 = x.length + (b.length - 1) by omega]
  exact .next _ fun y => (Run.advance_append r x y).symm

/-- The same, where what is marked is reported. -/
theorem Shifted.flushed {m : Mark} (single : Single r.marks m) (x y : Bytes) (n : Nat) :
    Shifted x (.next (r.callbackData_ m (x ++ y)) (x.length + n))
      (.next ((r.advance x).callbackData_ m y) n) := by
  have closed := Run.closed_flush single (x ++ y)
  rw [Run.flush_advance single]
  refine .next n fun z => ?_
  rw [Run.advance_closed closed, Run.advance_closed closed]

/-- What the second part of a turn may fail with, when it begins with another byte counted. -/
def Run.Lost (r : Run) (b : Bytes) : Prop :=
  r.parser.state = .sHeaderValue ∧
    (valueLoop r.parser r.parser.headerState 0 b).Lost (r.parser.nread + 1)

/-- What a turn over `ch :: rest` says about the one over `ch :: (rest ++ b)`. -/
inductive CutTurn (strict : Bool) (answer : Nat) (r : Run) (ch : Byte) (rest b : Bytes) : Prop
  | inside (same : step strict answer r ch (rest ++ b) = step strict answer r ch rest)
      (le : (step strict answer r ch rest).passed ≤ rest.length)
  | tooLong (r' : Run) (n : Nat)
      (failed : step strict answer r ch rest = .error .hpeHeaderOverflow r' n)
  | finished (r' : Run) (turned : step strict answer r ch rest = .next r' rest.length)
      (far : r'.parser.state.far)
      (goesOn : (∀ b₀ more, b = b₀ :: more → Shifted (ch :: rest)
          (step strict answer r ch (rest ++ b))
          (step strict answer (r'.advance (ch :: rest)) b₀ more)) ∨
        (r'.advance (ch :: rest)).Lost b)

section
variable (fits : r.Fits eof start n) (strict : Bool) (answer : Nat) (ch : Byte) (rest b : Bytes)

include fits in
/-- The name may go on in the second buffer. -/
theorem sHeaderField_cut (at_ : r.parser.state = .sHeaderField) :
    CutTurn strict answer r ch rest b := by
  have turn : ∀ (r : Run) ch rest, r.parser.state = .sHeaderField →
      step strict answer r ch rest = sHeaderField strict r (ch :: rest) := by
    intro r ch rest at_
    simp only [step, at_]
  have field : r.parser.headerState.ofField := by
    have data := fits.data
    simpa only [Parser.Data, at_] using data
  have single : Single r.marks .headerField := fits.marked.single (.inr (by rw [at_]; rfl))
  obtain ⟨q, passed, looped, kept, -⟩ := fieldLoop_kept strict (ch :: rest) field
  have le := fieldLoop_le strict (ch :: rest) looped
  have first := turn r ch rest at_
  have whole := turn r ch (rest ++ b) at_
  unfold sHeaderField at first whole
  rw [looped] at first
  dsimp only at first
  rcases Nat.lt_or_eq_of_le le with inside | all
  · -- the name ends in the first part
    have same := fieldLoop_stops strict b looped inside
    rw [List.cons_append] at same
    rw [same] at whole
    obtain ⟨c, more, here⟩ : ∃ c more, (ch :: rest).drop passed = c :: more := by
      refine ⟨(ch :: rest)[passed], (ch :: rest).drop (passed + 1), ?_⟩
      exact List.drop_eq_getElem_cons inside
    have there : (ch :: (rest ++ b)).drop passed = c :: (more ++ b) := by
      rw [← List.cons_append, List.drop_append_of_le_length le, here]
      rfl
    have taken : (ch :: (rest ++ b)).take passed = (ch :: rest).take passed := by
      rw [← List.cons_append, List.take_append_of_le_length le]
    rw [here] at first
    dsimp only at whole
    rw [there, taken] at whole
    refine .inside (whole.trans first.symm) ?_
    rw [first, Run.countHeaderSize]
    dsimp only
    have short : passed ≤ rest.length := Nat.le_of_lt_succ inside
    split_ifs <;> exact short
  · subst all
    have same := fieldLoop_keeps strict (ch :: rest) looped
    rw [List.drop_length] at first
    by_cases long : (({ r with parser := q } : Run).count (ch :: rest).length).parser.nread >
        httpMaxHeaderSize
    · exact .tooLong _ _ (first.trans (if_pos long))
    refine .finished _ (first.trans (if_neg long)) ?_ (.inl ?_)
    · have here : q.state = .sHeaderField := kept.state.trans at_
      exact congrArg State.far here
    intro b₀ more cut
    have second := turn ((({ r with parser := q } : Run).count (ch :: rest).length).advance
      (ch :: rest)) b₀ more (kept.state.trans at_)
    rw [← cut] at second
    unfold sHeaderField at second
    rw [← List.cons_append, fieldLoop_append strict b looped] at whole
    have parser : ((({ r with parser := q } : Run).count (ch :: rest).length).advance
        (ch :: rest)).parser =
        q.setNread (({ r with parser := q } : Run).count (ch :: rest).length).parser.nread := rfl
    rw [parser, fieldLoop_nread] at second
    rw [whole, second]
    cases more_looped : fieldLoop strict q b with
    | none => exact .abort
    | some turned =>
      obtain ⟨q₂, k⟩ := turned
      have same₂ := fieldLoop_keeps strict b more_looped
      have counted := Run.count_advance r same₂ (ch :: rest) k
      have dropped : (ch :: rest ++ b).drop ((ch :: rest).length + k) = b.drop k := by
        rw [List.drop_append, List.drop_of_length_le (Nat.le_add_right _ _), List.nil_append,
          Nat.add_sub_cancel_left]
      have taken : (ch :: rest ++ b).take ((ch :: rest).length + k) = ch :: rest ++ b.take k := by
        rw [List.take_append, List.take_of_length_le (Nat.le_add_right _ _),
          Nat.add_sub_cancel_left]
      dsimp only [Option.map_some]
      rw [dropped, taken]
      refine .counted (congrArg (·.parser.nread) counted) ?_
      rw [counted]
      cases left : b.drop k with
      | nil =>
        have le := fieldLoop_le strict b more_looped
        obtain rfl : k = b.length := Nat.le_antisymm le (List.drop_eq_nil_iff.mp left)
        exact .all _ (by rw [cut]; exact List.cons_ne_nil _ _)
      | cons c _ =>
        dsimp only
        split_ifs
        · exact .flushed (r := ((({ r with parser := q₂ } : Run).count
            ((ch :: rest).length + k)).updateState .sHeaderValueDiscardWs)) single _ _ k
        · exact .error _ _ _ k

/-- The two changes of the parser between the parts of a value. -/
theorem Parser.Apart.both (h : HeaderState) (k : Nat) :
    Parser.Apart fun q => (q.setHeaderState h).setNread k :=
  ⟨fun _ => rfl, fun _ => rfl, fun _ => rfl, fun _ => rfl, fun _ _ _ _ => rfl⟩

theorem ValueEnd.Under.lost {f : Parser → Parser} {e e' : ValueEnd} (under : e.Under f e')
    {nread : Nat} (lost : e.Lost nread) : e'.Lost nread := by
  cases under <;> exact lost

theorem callbackData_setNread (r : Run) (m : Mark) (more : Bytes) (k : Nat) :
    (r.setNread k).callbackData_ m more = (r.callbackData_ m more).setNread k := by
  have same : (r.setNread k).marks = r.marks := rfl
  unfold Run.callbackData_
  rw [same]
  cases r.marks m <;> rfl

theorem Run.count_setNread (r : Run) {m v k : Nat} (same : r.parser.nread = m) :
    (r.setNread ((m + v) % 2 ^ 32)).count k = r.count (v + k) := by
  have counted : ((m + v) % 2 ^ 32 + k) % 2 ^ 32 = (r.parser.nread + (v + k)) % 2 ^ 32 := by
    rw [Nat.mod_add_mod, Nat.add_assoc, same]
  exact congrArg r.setNread counted

/-- What is marked is reported, and then counted. -/
theorem Shifted.reported {m : Mark} (single : Single r.marks m) {nread : Nat}
    (same : r.parser.nread = nread) (x y : Bytes) (k : Nat) :
    Shifted x
      ((r.callbackData_ m (x ++ y)).countHeaderSize (x.length + k) (x.length + k) fun r =>
        .next r (x.length + k))
      ((((r.setNread ((nread + x.length) % 2 ^ 32)).advance x).callbackData_ m y).countHeaderSize
        k k fun r => .next r k) := by
  have closed := Run.closed_flush single (x ++ y)
  have flushed : ((r.setNread ((nread + x.length) % 2 ^ 32)).advance x).callbackData_ m y =
      (r.callbackData_ m (x ++ y)).setNread ((nread + x.length) % 2 ^ 32) :=
    (Run.flush_advance (r := r.setNread ((nread + x.length) % 2 ^ 32)) single x y).trans
      (callbackData_setNread r m _ _)
  have counted := Run.count_setNread (r.callbackData_ m (x ++ y)) (v := x.length) (k := k)
    ((congrArg Parser.nread (r.CALLBACK_keeps m _)).trans same)
  rw [← flushed] at counted
  refine .counted (congrArg (·.parser.nread) counted) (.next k fun z => ?_)
  have closed' : ∀ k', ((r.callbackData_ m (x ++ y)).count (x.length + k)).marks k' = none := closed
  rw [counted, Run.advance_closed closed', Run.advance_closed closed']

/-- The loop over a value goes on in the second buffer where it was left in the first. -/
theorem value_shifted (single : Single r.marks .headerValue) {q : Parser} {h : HeaderState}
    {x b : Bytes} (some_ : b ≠ [])
    (same : valueLoop r.parser r.parser.headerState 0 (x ++ b) =
      (valueLoop q h 0 b).further x.length) :
    Shifted x (sHeaderValue r (x ++ b)) (sHeaderValue ((({ r with
      parser := q.setHeaderState h } : Run).count x.length).advance x) b) := by
  have under := valueLoop_apart (.both h (({ r with parser := q.setHeaderState h } : Run).count
    x.length).parser.nread) q h 0 b
  have counted := valueLoop_counted q h 0 b
  have within := valueLoop_within q h 0 b
  have seen : valueLoop ((({ r with parser := q.setHeaderState h } : Run).count
      x.length).advance x).parser ((({ r with parser := q.setHeaderState h } : Run).count
      x.length).advance x).parser.headerState 0 b =
      valueLoop ((q.setHeaderState h).setNread (({ r with parser := q.setHeaderState h } :
        Run).count x.length).parser.nread) h 0 b := rfl
  have taken : ∀ k, (x ++ b).take (x.length + k) = x ++ b.take k := fun k => by
    rw [List.take_append, List.take_of_length_le (Nat.le_add_right _ _), Nat.add_sub_cancel_left]
  unfold sHeaderValue
  rw [same, seen]
  generalize valueLoop ((q.setHeaderState h).setNread (({ r with parser := q.setHeaderState h } :
    Run).count x.length).parser.nread) h 0 b = e' at under ⊢
  generalize valueLoop q h 0 b = e at under counted within ⊢
  cases under with
  | cr q₂ h₂ k =>
    have same₂ : (({ r with parser := q₂.setHeaderState h₂ } : Run).updateState
        .sHeaderAlmostDone).parser.nread = q.nread := counted
    dsimp only [ValueEnd.further]
    rw [taken]
    exact .reported (r := ({ r with parser := q₂.setHeaderState h₂ } : Run).updateState
      .sHeaderAlmostDone) single same₂ x (b.take k) k
  | lf q₂ h₂ k =>
    have same₂ : (q₂.setHeaderState h).nread = (q.setHeaderState h).nread := counted
    have nread := Run.count_advance r same₂ x k
    refine .counted (congrArg (·.parser.nread) nread) ?_
    have parts := congrArg (fun r => (r.updateState .sHeaderAlmostDone).setHeaderState h₂) nread
    have flushed := (congrArg (Run.callbackData_ · .headerValue (b.take k)) parts).trans
      (Run.flush_advance (r := ((({ r with parser := q₂.setHeaderState h } : Run).count
        (x.length + k)).updateState .sHeaderAlmostDone).setHeaderState h₂) single x (b.take k))
    rw [taken]
    refine Eq.mp (congrArg (fun r => Shifted x _ ((sHeaderAlmostDone r lf).behind k))
      flushed.symm) ?_
    refine .closed ?_ x k
    intro r' n turned m
    have closed := Run.closed_flush (r := ((({ r with parser := q₂.setHeaderState h } : Run).count
      (x.length + k)).updateState .sHeaderAlmostDone).setHeaderState h₂) single (x ++ b.take k)
    unfold sHeaderAlmostDone at turned
    rw [if_neg (by decide)] at turned
    injection turned with here
    rw [← here]
    exact closed m
  | finished q₂ h₂ k =>
    obtain rfl : k = b.length := within
    have same₂ : (q₂.setHeaderState h₂).nread = (q.setHeaderState h).nread := counted
    have nread := Run.count_advance r same₂ x b.length
    refine .counted (congrArg (·.parser.nread) nread) ?_
    have all := Shifted.all (x := x) (({ r with parser := q₂.setHeaderState h₂ } : Run).count
      (x.length + b.length)) some_
    rw [← nread] at all
    exact all
  | bad e q₂ q₃ k => exact .error e _ _ k
  | abort => exact .abort

include fits in
/-- The value may go on in the second buffer, and its line may end there. -/
theorem sHeaderValue_cut (at_ : r.parser.state = .sHeaderValue)
    (small : r.parser.nread ≤ httpMaxHeaderSize) (short : (ch :: rest).length < 2 ^ 31) :
    CutTurn strict answer r ch rest b := by
  have turn : ∀ (r : Run) ch rest, r.parser.state = .sHeaderValue →
      step strict answer r ch rest = sHeaderValue r (ch :: rest) := by
    intro r ch rest at_
    simp only [step, at_]
  have value : r.parser.headerState.ofValue := by
    have data := fits.data
    simpa only [Parser.Data, at_] using data
  have single : Single r.marks .headerValue := fits.marked.single (.inr (by rw [at_]; rfl))
  have kept := valueLoop_kept (ch :: rest) value (q := r.parser) 0
  have within := valueLoop_within r.parser r.parser.headerState 0 (ch :: rest)
  have counted := valueLoop_counted r.parser r.parser.headerState 0 (ch :: rest)
  have first := turn r ch rest at_
  have whole := turn r ch (rest ++ b) at_
  unfold sHeaderValue at first whole
  rw [← List.cons_append] at whole
  have ended : ∀ e, valueLoop r.parser r.parser.headerState 0 (ch :: rest) = e →
      (∀ q h n, e ≠ .finished q h n) →
      valueLoop r.parser r.parser.headerState 0 (ch :: rest ++ b) = e := by
    rintro e rfl stops
    exact valueLoop_stops r.parser r.parser.headerState 0 (ch :: rest) b stops
  cases looped : valueLoop r.parser r.parser.headerState 0 (ch :: rest) with
  | cr q h k =>
    rw [looped] at within first
    rw [ended _ looped (by rintro _ _ _ ⟨⟩)] at whole
    have inside : k < (ch :: rest).length := within
    dsimp only at first whole
    rw [List.take_append_of_le_length inside.le] at whole
    refine .inside (whole.trans first.symm) ?_
    have le : k ≤ rest.length := Nat.le_of_lt_succ inside
    rw [first, Run.countHeaderSize]
    split_ifs <;> exact le
  | lf q h k =>
    rw [looped] at within first
    rw [ended _ looped (by rintro _ _ _ ⟨⟩)] at whole
    have inside : k < (ch :: rest).length := within
    dsimp only at first whole
    rw [List.take_append_of_le_length inside.le] at whole
    refine .inside (whole.trans first.symm) ?_
    have le : k ≤ rest.length := Nat.le_of_lt_succ inside
    rw [first, Run.countHeaderSize]
    split_ifs
    · exact le
    · exact le
  | bad e q k =>
    rw [looped] at within first
    rw [ended _ looped (by rintro _ _ _ ⟨⟩)] at whole
    refine .inside (whole.trans first.symm) ?_
    rw [first]
    exact Nat.le_of_lt_succ within
  | abort =>
    rw [looped] at kept
    exact kept.elim
  | finished q h k =>
    rw [looped] at within first kept counted
    obtain rfl : k = (ch :: rest).length := within
    have same : q.nread = r.parser.nread := counted
    dsimp only at first
    by_cases long : (({ r with parser := q.setHeaderState h } : Run).count
        (ch :: rest).length).parser.nread > httpMaxHeaderSize
    · exact .tooLong _ _ (first.trans (if_pos long))
    have at_' : q.state = .sHeaderValue := kept.1.state.trans at_
    refine .finished _ (first.trans (if_neg long)) (congrArg State.far at_') ?_
    have few : q.nread + (ch :: rest).length ≤ httpMaxHeaderSize := by
      refine Nat.not_lt.mp fun finished => long ((Run.count_long ?_ short).mpr finished)
      exact same.le.trans small
    have nread : (({ r with parser := q.setHeaderState h } : Run).count
        (ch :: rest).length).parser.nread = q.nread + (ch :: rest).length :=
      Nat.mod_eq_of_lt (Nat.lt_of_le_of_lt few (by decide))
    have under := valueLoop_apart (.both h (({ r with parser := q.setHeaderState h } : Run).count
      (ch :: rest).length).parser.nread) q h 0 b
    have all : (ch :: rest).length ≤ httpMaxHeaderSize := Nat.le_of_add_left_le few
    have counted_more : (ch :: rest).length < (({ r with parser := q.setHeaderState h } :
        Run).count (ch :: rest).length).parser.nread + 1 := by omega
    rcases valueLoop_append b looped all counted_more with same_end | lost
    · left
      intro b₀ more cut
      rw [turn r ch (rest ++ b) at_, turn _ b₀ more at_', ← cut, ← List.cons_append]
      exact value_shifted single (by rw [cut]; exact List.cons_ne_nil _ _) same_end
    · exact .inr ⟨at_', under.lost lost⟩

theorem Run.mark_some (r : Run) (m : Mark) :
    ∃ marks at_, r.mark m = { r with marks := marks } ∧ marks m = some at_ := by
  unfold mark
  cases set : r.marks m with
  | none => exact ⟨_, [], rfl, by simp⟩
  | some at_ => exact ⟨r.marks, at_, rfl, set⟩

theorem Run.mark_set {m : Mark} (x : Bytes) :
    ((r.mark m).advance x).mark m = (r.mark m).advance x := by
  obtain ⟨marks, at_, same, set⟩ := r.mark_some m
  rw [same]
  simp only [advance, mark, set, Option.map_some]

theorem sBodyIdentityEof_cut (at_ : r.parser.state = .sBodyIdentityEof) :
    CutTurn strict answer r ch rest b := by
  have turn : ∀ (r : Run) ch rest, r.parser.state = .sBodyIdentityEof →
      step strict answer r ch rest = .next (r.mark .body) rest.length := by
    intro r ch rest at_
    simp only [step, at_, sBodyIdentityEof, List.length_cons, Nat.add_sub_cancel]
  have at_' : (r.mark .body).parser.state = .sBodyIdentityEof := by rw [Run.mark_keeps, at_]
  refine .finished (r.mark .body) (turn r ch rest at_) (by rw [at_']; rfl) (.inl ?_)
  rintro b₀ more rfl
  rw [turn r ch _ at_, turn ((r.mark .body).advance (ch :: rest)) b₀ more at_', Run.mark_set]
  have all := Shifted.all (x := ch :: rest) (r.mark .body) (List.cons_ne_nil b₀ more)
  have lengths : (ch :: rest).length + (b₀ :: more).length - 1 = (rest ++ b₀ :: more).length := by
    simp only [List.length_cons, List.length_append]
    omega
  rw [lengths] at all
  exact all

/-- `k` bytes of the body are taken. -/
def Run.taken (r : Run) (k : Nat) : Run :=
  (r.mark .body).setContentLength (r.parser.contentLength - k)

theorem Run.taken_state (r : Run) (k : Nat) : (r.taken k).parser.state = r.parser.state := by
  change (r.mark .body).parser.state = _
  rw [mark_keeps]

theorem Run.taken_flags (r : Run) (k : Nat) : (r.taken k).parser.flags = r.parser.flags := by
  change (r.mark .body).parser.flags = _
  rw [mark_keeps]

/-- The body is taken in two parts. -/
theorem Run.taken_taken (r : Run) (x : Bytes) (k : Nat) :
    ((r.taken x.length).advance x).taken k = (r.taken (x.length + k)).advance x := by
  have parts : r.parser.contentLength - x.length - k = r.parser.contentLength - (x.length + k) :=
    Nat.sub_sub _ _ _
  obtain ⟨marks, at_, same, set⟩ := r.mark_some .body
  unfold taken
  rw [same]
  simp only [advance, setContentLength, mark, set, Option.map_some, parts]

/-- A body that goes on in the second part. -/
theorem min_cut {length k m : Nat} (goesOn : k < length) :
    min length (k + m) = k + min (length - k) m := by
  omega

include fits in
/-- A chunk of which the first buffer has a part. -/
theorem sChunkData_cut (at_ : r.parser.state = .sChunkData) :
    CutTurn strict answer r ch rest b := by
  have turn : ∀ (r : Run) ch rest, r.parser.state = .sChunkData →
      r.parser.flags.fChunked = true → r.parser.contentLength ≠ 0 →
      r.parser.contentLength ≠ ullongMax →
      step strict answer r ch rest = .next
        (if r.parser.contentLength - min r.parser.contentLength (ch :: rest).length = 0 then
          (r.taken (min r.parser.contentLength (ch :: rest).length)).updateState
            .sChunkDataAlmostDone
        else r.taken (min r.parser.contentLength (ch :: rest).length))
        (min r.parser.contentLength (ch :: rest).length - 1) := by
    intro r ch rest at_ chunked some_ known
    simp only [step, at_, sChunkData, chunked, some_, known, Bool.not_true, Bool.false_eq_true,
      or_self, if_false]
    rfl
  have data : r.parser.flags.fChunked = true ∧ r.parser.contentLength ≠ 0 ∧
      r.parser.contentLength ≠ ullongMax := by
    have data := fits.data
    simpa only [Parser.Data, at_] using data
  have most := fits.bounded.length
  have first := turn r ch rest at_ data.1 data.2.1 data.2.2
  have whole := turn r ch (rest ++ b) at_ data.1 data.2.1 data.2.2
  rcases Nat.lt_or_ge (ch :: rest).length r.parser.contentLength with goesOn | ends
  · -- all of the first part is data of the chunk
    rw [Nat.min_eq_right goesOn.le, if_neg (Nat.sub_ne_zero_of_lt goesOn)] at first
    refine .finished _ first (by rw [Run.taken_state, at_]; rfl) (.inl fun b₀ more cut => ?_)
    have left : ((r.taken (ch :: rest).length).advance (ch :: rest)).parser.contentLength =
        r.parser.contentLength - (ch :: rest).length := rfl
    have second := turn ((r.taken (ch :: rest).length).advance (ch :: rest)) b₀ more
      ((r.taken_state _).trans at_) ((congrArg Flags.fChunked (r.taken_flags _)).trans data.1)
      (Nat.sub_ne_zero_of_lt goesOn) (Nat.ne_of_lt (Nat.lt_of_lt_of_le (Nat.sub_lt
        (Nat.pos_of_ne_zero data.2.1) (Nat.succ_pos _)) most))
    have long : (ch :: (rest ++ b)).length = (ch :: rest).length + b.length := by
      rw [← List.cons_append, List.length_append]
    have pos : 0 < min (r.parser.contentLength - (ch :: rest).length) b.length := by
      rw [cut]
      exact Nat.lt_min.mpr ⟨Nat.sub_pos_of_lt goesOn, Nat.succ_pos _⟩
    rw [left, ← cut, Run.taken_taken] at second
    rw [long, min_cut goesOn, Nat.sub_add_eq, Nat.add_sub_assoc pos] at whole
    rw [whole, second]
    split_ifs
    · exact .next _ fun y => (Run.advance_append ((r.taken _).updateState _) (ch :: rest) y).symm
    · exact .next _ fun y => (Run.advance_append (r.taken _) (ch :: rest) y).symm
  · have longer : (ch :: rest).length ≤ (ch :: (rest ++ b)).length := by simp
    rw [Nat.min_eq_left ends] at first
    rw [Nat.min_eq_left (ends.trans longer)] at whole
    refine .inside (whole.trans first.symm) ?_
    rw [first]
    exact Nat.sub_le_of_le_add ends

/-- The end of a body that is reported. -/
theorem Shifted.done (strict : Bool) (body : Single r.marks .body) (x y : Bytes) (n : Nat) :
    Shifted x ((sMessageDone strict (r.callbackData_ .body (x ++ y))).behind (x.length + n))
      ((sMessageDone strict ((r.advance x).callbackData_ .body y)).behind n) := by
  have closed := Run.closed_flush body (x ++ y)
  rw [Run.flush_advance body]
  refine .closed ?_ x n
  intro r' k turned m
  unfold sMessageDone at turned
  dsimp only at turned
  split_ifs at turned
  injection turned with here
  rw [← here]
  exact closed m

include fits in
/-- A body of which the first buffer has a part. -/
theorem sBodyIdentity_cut (at_ : r.parser.state = .sBodyIdentity) :
    CutTurn strict answer r ch rest b := by
  have turn : ∀ (r : Run) ch rest, r.parser.state = .sBodyIdentity →
      r.parser.contentLength ≠ 0 → r.parser.contentLength ≠ ullongMax →
      step strict answer r ch rest =
        (if r.parser.contentLength - min r.parser.contentLength (ch :: rest).length = 0 then
          (sMessageDone strict (((r.taken (min r.parser.contentLength
            (ch :: rest).length)).updateState .sMessageDone).callbackData_ .body
            ((ch :: rest).take (min r.parser.contentLength (ch :: rest).length)))).behind
            (min r.parser.contentLength (ch :: rest).length - 1)
        else .next (r.taken (min r.parser.contentLength (ch :: rest).length))
          (min r.parser.contentLength (ch :: rest).length - 1)) := by
    intro r ch rest at_ some_ known
    simp only [step, at_, sBodyIdentity, some_, known, or_self, if_false]
    rfl
  have data : r.parser.contentLength ≠ 0 ∧ r.parser.contentLength ≠ ullongMax := by
    have data := fits.data
    simpa only [Parser.Data, at_] using data
  have body : Single r.marks .body := fits.marked.single (.inr (by rw [at_]; rfl))
  have most := fits.bounded.length
  have first := turn r ch rest at_ data.1 data.2
  have whole := turn r ch (rest ++ b) at_ data.1 data.2
  rw [← List.cons_append] at whole
  rcases Nat.lt_or_ge (ch :: rest).length r.parser.contentLength with goesOn | ends
  · -- all of the first part belongs to the body
    rw [Nat.min_eq_right goesOn.le, if_neg (Nat.sub_ne_zero_of_lt goesOn)] at first
    refine .finished _ first (by rw [Run.taken_state, at_]; rfl) (.inl fun b₀ more cut => ?_)
    have left : ((r.taken (ch :: rest).length).advance (ch :: rest)).parser.contentLength =
        r.parser.contentLength - (ch :: rest).length := rfl
    have second := turn ((r.taken (ch :: rest).length).advance (ch :: rest)) b₀ more
      ((r.taken_state _).trans at_) (Nat.sub_ne_zero_of_lt goesOn)
      (Nat.ne_of_lt (Nat.lt_of_lt_of_le (Nat.sub_lt (Nat.pos_of_ne_zero data.1) (Nat.succ_pos _))
        most))
    have pos : 0 < min (r.parser.contentLength - (ch :: rest).length) b.length := by
      rw [cut]
      exact Nat.lt_min.mpr ⟨Nat.sub_pos_of_lt goesOn, Nat.succ_pos _⟩
    have taken : ∀ k, (ch :: rest ++ b).take ((ch :: rest).length + k) =
        ch :: rest ++ b.take k := fun k => by
      rw [List.take_append, List.take_of_length_le (Nat.le_add_right _ _), Nat.add_sub_cancel_left]
    rw [left, ← cut, Run.taken_taken] at second
    rw [List.length_append, min_cut goesOn, Nat.sub_add_eq, Nat.add_sub_assoc pos, taken] at whole
    rw [whole, second]
    split_ifs
    · exact .done (r := (r.taken ((ch :: rest).length + min (r.parser.contentLength -
        (ch :: rest).length) b.length)).updateState .sMessageDone) strict
          (Run.single_mark body) _ _ _
    · exact .next _ fun y => (Run.advance_append (r.taken _) (ch :: rest) y).symm
  · have longer : (ch :: rest).length ≤ (ch :: rest ++ b).length := by simp
    rw [Nat.min_eq_left ends] at first
    rw [Nat.min_eq_left (ends.trans longer), List.take_append_of_le_length ends] at whole
    refine .inside (whole.trans first.symm) ?_
    have le : r.parser.contentLength - 1 ≤ rest.length := Nat.sub_le_of_le_add ends
    rw [first]
    split_ifs
    · refine (Step.passed_behind _ _).trans ?_
      rw [sMessageDone_passed]
      exact le
    · exact le

include fits in
theorem step_cut (small : r.parser.state = .sHeaderValue →
    r.parser.nread ≤ httpMaxHeaderSize) (short : (ch :: rest).length < 2 ^ 31) :
    CutTurn strict answer r ch rest b := by
  by_cases near : ¬ r.parser.state.far
  · obtain ⟨same, one⟩ := step_near strict answer r ch near rest b
    exact .inside same (one ▸ Nat.zero_le _)
  · cases at_ : r.parser.state with
    | sHeaderField => exact sHeaderField_cut fits strict answer ch rest b at_
    | sHeaderValue => exact sHeaderValue_cut fits strict answer ch rest b at_ (small at_) short
    | sBodyIdentity => exact sBodyIdentity_cut fits strict answer ch rest b at_
    | sBodyIdentityEof => exact sBodyIdentityEof_cut strict answer ch rest b at_
    | sChunkData => exact sChunkData_cut fits strict answer ch rest b at_
    | _ => exact absurd (by rw [at_]; exact Bool.false_ne_true) near

end

end HttpLib
