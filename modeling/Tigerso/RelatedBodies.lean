import Tigerso.RelatedHeaders

/-!
# Two runs over the same bytes, at the end of the headers and in a body
-/

open SystemCalls LabelledPaths JoinedPieces

namespace HttpLib

variable {past : List Callback} {r r' : Run}

namespace Alike

theorem updateState (alike : Alike past r r') (s : State) :
    Alike past (r.updateState s) (r'.updateState s) := by
  obtain ⟨n, marks, callbacks, rfl⟩ := alike.shape
  exact alike.changed rfl alike.nread alike.small

theorem setFlags (alike : Alike past r r') (flags : Flags) :
    Alike past (r.setFlags flags) (r'.setFlags flags) := by
  obtain ⟨n, marks, callbacks, rfl⟩ := alike.shape
  exact alike.changed rfl alike.nread alike.small

theorem setUpgrade (alike : Alike past r r') (b : Bool) :
    Alike past (r.setUpgrade b) (r'.setUpgrade b) := by
  obtain ⟨n, marks, callbacks, rfl⟩ := alike.shape
  exact alike.changed rfl alike.nread alike.small

theorem setContentLength (alike : Alike past r r') (length : Nat) :
    Alike past (r.setContentLength length) (r'.setContentLength length) := by
  obtain ⟨n, marks, callbacks, rfl⟩ := alike.shape
  exact alike.changed rfl alike.nread alike.small

/-- Both have counted nothing of what comes next. -/
theorem uncounted (alike : Alike past r r') : Alike past (r.setNread 0) (r'.setNread 0) := by
  obtain ⟨n, marks, callbacks, rfl⟩ := alike.shape
  exact alike.changed rfl (Nat.le_refl 0) (Nat.zero_le _)

theorem flags (alike : Alike past r r') : r'.parser.flags = r.parser.flags := by
  rw [alike.parser]

theorem contentLength (alike : Alike past r r') :
    r'.parser.contentLength = r.parser.contentLength := by
  rw [alike.parser]

end Alike

section
variable (alike : Alike past r r')

include alike in
theorem sHeaderValueStart_alike (value : Single r.marks .headerValue) (ch : Byte) :
    TurnsAlike past (sHeaderValueStart r ch) (sHeaderValueStart r' ch) := by
  have marked := alike.mark value
  have same : (r'.mark .headerValue).parser.headerState =
      (r.mark .headerValue).parser.headerState := by rw [marked.parser]
  obtain ⟨n, marks, callbacks, shape⟩ := marked.shape
  unfold sHeaderValueStart
  rw [shape] at marked same ⊢
  dsimp only [Run.updateState, Run.setIndex]
  cases (r.mark .headerValue).parser.headerState with
  | hUpgrade => exact .next 0 (marked.changed rfl marked.nread marked.small)
  | hTransferEncoding => exact .next 0 (marked.changed rfl marked.nread marked.small)
  | hContentLength =>
    dsimp only
    split_ifs
    · exact .error _ 0
    · exact .error _ 0
    · exact .next 0 (marked.changed rfl marked.nread marked.small)
  | _ => exact .next 0 (marked.changed rfl marked.nread marked.small)

include alike in
theorem sHeaderValueDiscardWs_alike (value : Single r.marks .headerValue) (ch : Byte) :
    TurnsAlike past (sHeaderValueDiscardWs r ch) (sHeaderValueDiscardWs r' ch) := by
  have starts := sHeaderValueStart_alike alike value ch
  obtain ⟨n, marks, callbacks, rfl⟩ := alike.shape
  unfold sHeaderValueDiscardWs
  split_ifs
  · exact .next 0 alike
  · exact .next 0 (alike.changed rfl alike.nread alike.small)
  · exact .next 0 (alike.changed rfl alike.nread alike.small)
  · exact starts

include alike in
theorem sMessageDone_alike (closed : ∀ m, r.marks m = none) (strict : Bool) :
    TurnsAlike past (sMessageDone strict r) (sMessageDone strict r') := by
  obtain ⟨n, marks, callbacks, rfl⟩ := alike.shape
  have complete := (alike.updateState (newMessage strict r.parser)).notify closed
    .onMessageComplete
  unfold sMessageDone
  dsimp only [Run.callbackNotify, Run.updateState]
  split_ifs
  · exact .leave 0 complete
  · exact .next 0 complete

include alike in
theorem sHeadersDone_alike (closed : ∀ m, r.marks m = none) (strict : Bool) (ch : Byte) :
    TurnsAlike past (sHeadersDone strict r ch) (sHeadersDone strict r' ch) := by
  have fresh := alike.uncounted
  have complete := (fresh.updateState (newMessage strict (r.setNread 0).parser)).notify closed
    .onMessageComplete
  obtain ⟨n, marks, callbacks, rfl⟩ := alike.shape
  unfold sHeadersDone
  dsimp only [Run.setNread]
  split_ifs <;> first
    | exact .error _ 0
    | exact .leave 0 complete
    | exact .next 0 complete
    | exact .next 0 (fresh.updateState _)

include alike in
/-- The end of the headers is reached alike. -/
theorem sHeadersAlmostDone_alike (closed : ∀ m, r.marks m = none) (strict : Bool) (answer : Nat)
    (ch : Byte) :
    TurnsAlike past (sHeadersAlmostDone strict answer r ch)
      (sHeadersAlmostDone strict answer r' ch) := by
  have trailing := sMessageDone_alike (alike.updateState .sMessageDone) closed strict
  have upgraded := (alike.updateState .sHeadersDone).setUpgrade
    ((r.parser.flags.fUpgrade && r.parser.flags.fConnectionUpgrade) ||
      decide (r.parser.method = .httpConnect))
  have reported := upgraded.notify closed (.onHeadersComplete r.parser.startLine)
  obtain ⟨n, marks, callbacks, rfl⟩ := alike.shape
  unfold sHeadersAlmostDone
  split_ifs
  · exact .error _ 0
  · exact trailing
  · exact .error _ 0
  · match answer with
    | 0 => exact sHeadersDone_alike reported closed strict ch
    | 1 => exact sHeadersDone_alike (reported.setFlags _) closed strict ch
    | 2 => exact sHeadersDone_alike ((reported.setUpgrade true).setFlags _) closed strict ch
    | _ + 3 => exact .error _ 0

include alike in
/-- So is the beginning of a header. -/
theorem sHeaderFieldStart_alike (closed : ∀ m, r.marks m = none) (strict : Bool) (answer : Nat)
    (ch : Byte) :
    TurnsAlike past (sHeaderFieldStart strict answer r ch)
      (sHeaderFieldStart strict answer r' ch) := by
  have marked := alike.mark (m := .headerField) fun k _ => closed k
  have ends := sHeadersAlmostDone_alike (alike.updateState .sHeadersAlmostDone) closed strict
    answer ch
  have named : ∀ h, TurnsAlike past
      (.next ((((r.mark .headerField).setIndex 0).updateState .sHeaderField).setHeaderState h) 0)
      (.next ((((r'.mark .headerField).setIndex 0).updateState .sHeaderField).setHeaderState h)
        0) := by
    intro h
    obtain ⟨n, marks, callbacks, shape⟩ := marked.shape
    rw [shape] at marked ⊢
    exact .next 0 (marked.changed rfl marked.nread marked.small)
  unfold sHeaderFieldStart
  dsimp only
  by_cases isCr : ch = cr
  · rw [if_pos isCr, if_pos isCr]
    exact .next 0 (alike.updateState _)
  rw [if_neg isCr, if_neg isCr]
  by_cases isLf : ch = lf
  · rw [if_pos isLf, if_pos isLf]
    exact ends
  rw [if_neg isLf, if_neg isLf]
  by_cases none_ : token strict ch = 0
  · rw [if_pos none_, if_pos none_]
    exact .error _ 0
  · rw [if_neg none_, if_neg none_]
    exact named _

include alike in
theorem sHeaderValueLws_alike (closed : ∀ m, r.marks m = none) (strict : Bool) (answer : Nat)
    (ch : Byte) :
    TurnsAlike past (sHeaderValueLws strict answer r ch)
      (sHeaderValueLws strict answer r' ch) := by
  have single : Single r.marks .headerValue := fun k _ => closed k
  have found := alike.setFlags (r.parser.flags.found r.parser.headerState)
  have again := sHeaderFieldStart_alike (found.updateState .sHeaderFieldStart) closed strict
    answer ch
  unfold sHeaderValueLws
  split_ifs
  · exact sHeaderValueStart_alike (alike.updateState .sHeaderValueStart) single ch
  · obtain ⟨n, marks, callbacks, rfl⟩ := alike.shape
    exact again

theorem Run.closed_flush {m : Mark} (single : Single r.marks m) (more : Bytes) :
    ∀ k, (r.callbackData_ m more).marks k = none := by
  intro k
  unfold callbackData_
  cases set : r.marks m with
  | none =>
    by_cases same : k = m
    · exact same ▸ set
    · exact single k same
  | some at_ =>
    by_cases same : k = m
    · simp [same]
    · simp [same, single k same]

theorem Run.single_mark {m : Mark} (single : Single r.marks m) : Single (r.mark m).marks m := by
  intro k other
  unfold mark
  cases r.marks m with
  | none => simpa [other] using single k other
  | some at_ => exact single k other

include alike in
theorem sHeaderValueDiscardLws_alike (closed : ∀ m, r.marks m = none) (strict : Bool)
    (answer : Nat) (ch : Byte) :
    TurnsAlike past (sHeaderValueDiscardLws strict answer r ch)
      (sHeaderValueDiscardLws strict answer r' ch) := by
  have single : Single r.marks .headerValue := fun k _ => closed k
  have found := alike.setFlags (r.parser.flags.found r.parser.headerState)
  have marked := (found.mark single).updateState .sHeaderFieldStart
  have single' :=
    Run.single_mark (r := r.setFlags (r.parser.flags.found r.parser.headerState)) single
  have closed' := Run.closed_flush (r := ((r.setFlags (r.parser.flags.found
    r.parser.headerState)).mark .headerValue).updateState .sHeaderFieldStart) single' []
  have again := sHeaderFieldStart_alike (marked.flush single' []) closed' strict answer ch
  unfold sHeaderValueDiscardLws
  split_ifs
  · exact .next 0 (alike.updateState _)
  · obtain ⟨n, marks, callbacks, rfl⟩ := alike.shape
    exact again

theorem Run.setContentLength_length (r : Run) (length : Nat) :
    (r.setContentLength length).parser.contentLength = length := rfl

/-- What is left of the body after these bytes. -/
theorem Alike.taken (alike : Alike past r r') (body : Single r.marks .body) (length : Nat) :
    Alike past ((r.mark .body).setContentLength length) ((r'.mark .body).setContentLength length) :=
  (alike.mark body).setContentLength length

include alike in
theorem sBodyIdentity_alike (body : Single r.marks .body) (strict : Bool) (p : Bytes) :
    TurnsAlike past (sBodyIdentity strict r p) (sBodyIdentity strict r' p) := by
  have marked := alike.taken body (r.parser.contentLength - min r.parser.contentLength p.length)
  have single := Run.single_mark (r := r) body
  have flushed := (marked.updateState .sMessageDone).flush single
    (p.take (min r.parser.contentLength p.length))
  have closed := Run.closed_flush (r := ((r.mark .body).setContentLength
    (r.parser.contentLength - min r.parser.contentLength p.length)).updateState .sMessageDone)
    single (p.take (min r.parser.contentLength p.length))
  have done := sMessageDone_alike flushed closed strict
  unfold sBodyIdentity
  rw [alike.contentLength]
  dsimp only
  rw [Run.setContentLength_length, Run.setContentLength_length]
  split_ifs
  · exact .abort
  · exact done.behind _
  · exact .next _ marked

include alike in
theorem sBodyIdentityEof_alike (body : Single r.marks .body) (p : Bytes) :
    TurnsAlike past (sBodyIdentityEof r p) (sBodyIdentityEof r' p) :=
  .next _ (alike.mark body)

include alike in
theorem sChunkSizeStart_alike (ch : Byte) (one : r.parser.nread = 1) (one' : r'.parser.nread = 1) :
    TurnsAlike past (sChunkSizeStart r ch) (sChunkSizeStart r' ch) := by
  unfold sChunkSizeStart
  rw [one, one', alike.flags]
  split_ifs
  · exact .abort
  · cases unhex ch with
    | none => exact .error _ 0
    | some digit => exact .next 0 ((alike.setContentLength digit).updateState _)

include alike in
theorem sChunkSize_alike (ch : Byte) :
    TurnsAlike past (sChunkSize r ch) (sChunkSize r' ch) := by
  unfold sChunkSize
  rw [alike.flags, alike.contentLength]
  cases unhex ch with
  | none =>
    dsimp only
    split_ifs <;> first
      | exact .abort
      | exact .error _ 0
      | exact .next 0 (alike.updateState _)
  | some digit =>
    dsimp only
    split_ifs <;> first
      | exact .abort
      | exact .error _ 0
      | exact .next 0 (alike.updateState _)
      | exact .next 0 (alike.setContentLength _)

include alike in
theorem sChunkParameters_alike (ch : Byte) :
    TurnsAlike past (sChunkParameters r ch) (sChunkParameters r' ch) := by
  unfold sChunkParameters
  rw [alike.flags]
  split_ifs
  · exact .abort
  · exact .next 0 (alike.updateState _)
  · exact .next 0 alike

include alike in
theorem sChunkSizeAlmostDone_alike (strict : Bool) (ch : Byte) :
    TurnsAlike past (sChunkSizeAlmostDone strict r ch)
      (sChunkSizeAlmostDone strict r' ch) := by
  have fresh := alike.uncounted
  have last := (fresh.setFlags { r.parser.flags with fTrailing := true }).updateState
    .sHeaderFieldStart
  obtain ⟨n, marks, callbacks, rfl⟩ := alike.shape
  unfold sChunkSizeAlmostDone
  dsimp only [Run.setNread]
  split_ifs
  · exact .abort
  · exact .error _ 0
  · exact .next 0 last
  · exact .next 0 (fresh.updateState _)

include alike in
theorem sChunkData_alike (body : Single r.marks .body) (p : Bytes) :
    TurnsAlike past (sChunkData r p) (sChunkData r' p) := by
  have marked := alike.taken body (r.parser.contentLength - min r.parser.contentLength p.length)
  unfold sChunkData
  rw [alike.flags, alike.contentLength]
  dsimp only
  rw [Run.setContentLength_length, Run.setContentLength_length]
  split_ifs
  · exact .abort
  · exact .next _ (marked.updateState _)
  · exact .next _ marked

include alike in
theorem sChunkDataAlmostDone_alike (body : Single r.marks .body) (strict : Bool) (ch : Byte) :
    TurnsAlike past (sChunkDataAlmostDone strict r ch)
      (sChunkDataAlmostDone strict r' ch) := by
  unfold sChunkDataAlmostDone
  rw [alike.flags, alike.contentLength]
  split_ifs
  · exact .abort
  · exact .error _ 0
  · exact .next 0 ((alike.updateState .sChunkDataDone).flush body [])

include alike in
theorem sChunkDataDone_alike (strict : Bool) (ch : Byte) :
    TurnsAlike past (sChunkDataDone strict r ch) (sChunkDataDone strict r' ch) := by
  unfold sChunkDataDone
  rw [alike.flags]
  split_ifs
  · exact .abort
  · exact .error _ 0
  · exact .next 0 (alike.uncounted.updateState _)

end

/-- The marks that the turns of a state look at. -/
theorem Marked.single {s : State} {marks : Mark → Option Bytes} {m : Mark} (marked : Marked s marks)
    (here : openMark s = none ∨ openMark s = some m) : Single marks m :=
  fun _ other => marked.other_none here other

/-- A turn of two runs that differ in their counts and in what was reported of a mark. -/
theorem step_alike (alike : Alike past r r') (marked : Marked r.parser.state r.marks)
    (strict : Bool) (answer : Nat) (ch : Byte) (rest : Bytes) (short : (ch :: rest).length < 2 ^ 31)
    (counted : r.parser.state = .sChunkSizeStart →
      r.parser.nread = 1 ∧ r'.parser.nread = 1) :
    TurnsAlike past (step strict answer r ch rest) (step strict answer r' ch rest) := by
  have same : r'.parser.state = r.parser.state := by rw [alike.parser]
  unfold step
  rw [same]
  cases at_ : r.parser.state with
  | sDead => exact sDead_alike alike ch
  | sStartReqOrRes =>
    exact sStartReqOrRes_alike alike (marked.none_set (by rw [at_]; rfl)) ch
  | sResOrRespH => exact sResOrRespH_alike alike ch
  | sStartRes => exact sStartRes_alike alike (marked.none_set (by rw [at_]; rfl)) ch
  | sResFirstHttpMajor => exact firstMajor_alike alike ch _ _
  | sResHttpMajor => exact httpMajor_alike alike ch _
  | sResFirstHttpMinor => exact firstMinor_alike alike ch _
  | sResHttpMinor => exact sResHttpMinor_alike alike ch
  | sResFirstStatusCode => exact sResFirstStatusCode_alike alike ch
  | sResStatusCode => exact sResStatusCode_alike alike ch
  | sResStatusStart => exact sResStatusStart_alike alike (marked.none_set (by rw [at_]; rfl)) ch
  | sResStatus => exact sResStatus_alike alike (marked.single (.inr (by rw [at_]; rfl))) ch
  | sStartReq => exact sStartReq_alike alike (marked.none_set (by rw [at_]; rfl)) ch
  | sReqMethod => exact sReqMethod_alike alike ch
  | sReqSpacesBeforeUrl =>
    exact sReqSpacesBeforeUrl_alike alike (marked.none_set (by rw [at_]; rfl)) strict ch
  | sReqSchema => exact sReqSchema_alike alike strict ch
  | sReqSchemaSlash => exact sReqSchema_alike alike strict ch
  | sReqSchemaSlashSlash => exact sReqSchema_alike alike strict ch
  | sReqServerStart => exact sReqSchema_alike alike strict ch
  | sReqHttpStart => exact sReqHttpStart_alike alike ch
  | sReqFirstHttpMajor => exact firstMajor_alike alike ch _ _
  | sReqHttpMajor => exact httpMajor_alike alike ch _
  | sReqFirstHttpMinor => exact firstMinor_alike alike ch _
  | sReqHttpMinor => exact sReqHttpMinor_alike alike ch
  | sReqLineAlmostDone => exact sReqLineAlmostDone_alike alike ch
  | sHeaderFieldStart =>
    exact sHeaderFieldStart_alike alike (marked.none_set (by rw [at_]; rfl)) strict answer ch
  | sHeaderField =>
    exact sHeaderField_alike alike (marked.single (.inr (by rw [at_]; rfl))) strict _ short
  | sHeaderValueDiscardWs =>
    exact sHeaderValueDiscardWs_alike alike (marked.single (.inl (by rw [at_]; rfl))) ch
  | sHeaderValueStart =>
    exact sHeaderValueStart_alike alike (marked.single (.inl (by rw [at_]; rfl))) ch
  | sHeaderValue =>
    exact sHeaderValue_alike alike (marked.single (.inr (by rw [at_]; rfl))) _ short
  | sHeaderAlmostDone => exact sHeaderAlmostDone_alike alike ch
  | sHeaderValueLws =>
    exact sHeaderValueLws_alike alike (marked.none_set (by rw [at_]; rfl)) strict answer ch
  | sHeaderValueDiscardLws =>
    exact sHeaderValueDiscardLws_alike alike (marked.none_set (by rw [at_]; rfl)) strict answer ch
  | sHeadersAlmostDone =>
    exact sHeadersAlmostDone_alike alike (marked.none_set (by rw [at_]; rfl)) strict answer ch
  | sHeadersDone =>
    exact sHeadersDone_alike alike (marked.none_set (by rw [at_]; rfl)) strict ch
  | sBodyIdentity =>
    exact sBodyIdentity_alike alike (marked.single (.inr (by rw [at_]; rfl))) strict _
  | sBodyIdentityEof =>
    exact sBodyIdentityEof_alike alike (marked.single (.inr (by rw [at_]; rfl))) _
  | sMessageDone =>
    exact sMessageDone_alike alike (marked.none_set (by rw [at_]; rfl)) strict
  | sChunkSizeStart => exact sChunkSizeStart_alike alike ch (counted at_).1 (counted at_).2
  | sChunkSize => exact sChunkSize_alike alike ch
  | sChunkParameters => exact sChunkParameters_alike alike ch
  | sChunkSizeAlmostDone => exact sChunkSizeAlmostDone_alike alike strict ch
  | sChunkData => exact sChunkData_alike alike (marked.single (.inr (by rw [at_]; rfl))) _
  | sChunkDataAlmostDone =>
    exact sChunkDataAlmostDone_alike alike (marked.single (.inr (by rw [at_]; rfl))) strict ch
  | sChunkDataDone => exact sChunkDataDone_alike alike strict ch
  | sReqServer => exact sReqPath_alike alike (marked.single (.inr (by rw [at_]; rfl))) strict ch
  | sReqServerWithAt =>
    exact sReqPath_alike alike (marked.single (.inr (by rw [at_]; rfl))) strict ch
  | sReqPath => exact sReqPath_alike alike (marked.single (.inr (by rw [at_]; rfl))) strict ch
  | sReqQueryStringStart =>
    exact sReqPath_alike alike (marked.single (.inr (by rw [at_]; rfl))) strict ch
  | sReqQueryString =>
    exact sReqPath_alike alike (marked.single (.inr (by rw [at_]; rfl))) strict ch
  | sReqFragmentStart =>
    exact sReqPath_alike alike (marked.single (.inr (by rw [at_]; rfl))) strict ch
  | sReqFragment => exact sReqPath_alike alike (marked.single (.inr (by rw [at_]; rfl))) strict ch
  | _ => exact expect_alike alike strict ch _ _

end HttpLib
