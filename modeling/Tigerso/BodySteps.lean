import Tigerso.HeaderSteps

/-!
# The turns of http_parser_execute in a body, and all of them together
-/

open SystemCalls LabelledPaths

namespace HttpLib

variable {eof : Prop} {start : Phase} {n : Nat} {r : Run} {s : State}

theorem unhex_le {ch : Byte} {digit : Nat} (hex : unhex ch = some digit) : digit ≤ 15 := by
  unfold unhex at hex
  simp only [isNum, Bool.and_eq_true, decide_eq_true_eq, UInt8.le_iff_toNat_le] at hex
  split_ifs at hex with num upper isLower high
  · obtain rfl := Option.some.inj hex
    have most : ch.toNat ≤ 57 := num.2
    omega
  · obtain rfl := Option.some.inj hex
    have most : ch.toNat ≤ 70 := upper.2
    omega
  · obtain rfl := Option.some.inj hex
    have most : ch.toNat ≤ 102 := isLower.2
    omega
  · obtain rfl := Option.some.inj hex
    omega

section
variable (fits : r.Fits eof start n)
include fits

/-- What was read of the body is reported. -/
theorem Run.Fits.reportsBody (s' : State) (at_ : r.parser.state = s)
    (here : openMark s = some .body)
    (phases : ∀ b, allowed s b ⊆ [.complete]) (r' : Run) (to_ : r'.parser.state = s')
    (sub : allowed s r.parser.flags.fTrailing ⊆ allowed s' r'.parser.flags.fTrailing)
    (fresh : resumed s' = none) (marked : Marked s r'.marks)
    (callbacks : r'.callbacks = r.callbacks) (more : Bytes) (data : r'.parser.Data 0)
    (bounded : r'.parser.Bounded) : (r'.callbackData_ .body more).Fits eof start 0 := by
  have parser := r'.CALLBACK_keeps .body more
  have marked := Run.marked_CALLBACK marked here fresh more
  obtain ⟨ph, inside, path⟩ := fits.path
  rw [at_] at inside
  obtain rfl := List.mem_singleton.mp (phases _ inside)
  refine ⟨⟨.complete, ?_, ?_⟩, ?_, ?_, ?_⟩
  · rw [parser, to_]
    exact sub inside
  · unfold callbackData_
    cases r'.marks .body with
    | none => exact callbacks ▸ path
    | some at_ => exact callbacks ▸ path.snoc .body
  · rw [parser, to_]
    exact marked
  · rw [parser]
    exact data
  · rw [parser]
    exact bounded

/-- The length that is left is never less than zero. -/
theorem sBodyIdentity_fits (strict : Bool) (p : Bytes) (some_ : p ≠ [])
    (at_ : r.parser.state = .sBodyIdentity) : (sBodyIdentity strict r p).Fits eof start := by
  have data : r.parser.contentLength ≠ 0 ∧ r.parser.contentLength ≠ ullongMax := by
    have data := fits.data
    simpa only [Parser.Data, at_] using data
  have most := fits.bounded.length
  have long : 0 < p.length := List.length_pos_iff.mpr some_
  have bounded := fits.bounded.contentLength
    ((Nat.sub_le r.parser.contentLength (min r.parser.contentLength p.length)).trans most)
  have marked : Marked .sBodyIdentity (r.mark .body).marks :=
    Run.marked_mark (at_ ▸ fits.marked) (.inr rfl) rfl (.inl rfl)
  obtain ⟨marks, same⟩ := r.mark_eq .body
  unfold sBodyIdentity
  rw [if_neg (by simp only [data.1, data.2, or_self, not_false_eq_true])]
  rw [same] at marked ⊢
  dsimp only [Run.setContentLength]
  split_ifs with finished
  · refine (sMessageDone_fits (n := 0) ?_ strict (by rw [Run.CALLBACK_keeps]; rfl)).behind _
    refine fits.reportsBody .sMessageDone at_ rfl (by decide) _ ?_ ?_ rfl ?_ ?_ _ ?_ ?_
    · rfl
    · change allowed .sBodyIdentity r.parser.flags.fTrailing ⊆
        allowed .sMessageDone r.parser.flags.fTrailing
      cases r.parser.flags.fTrailing <;> decide
    · exact marked
    · rfl
    · exact .of_free rfl 0
    · exact bounded.same rfl rfl rfl rfl rfl
  · refine fits.goes rfl (List.Subset.refl _) (by rw [at_]; exact marked) ?_ bounded
    simp only [Parser.Data, at_]
    refine ⟨finished, ?_⟩
    omega

theorem sBodyIdentityEof_fits (p : Bytes) (at_ : r.parser.state = .sBodyIdentityEof) :
    (sBodyIdentityEof r p).Fits eof start := by
  have parser := r.mark_keeps .body
  refine fits.goes (r.mark_callbacks .body) ?_ ?_ ?_ ?_ <;> rw [parser]
  · exact List.Subset.refl _
  · rw [at_]
    exact Run.marked_mark (at_ ▸ fits.marked) (.inr rfl) rfl (.inl rfl)
  · exact .of_free (by rw [at_]; rfl) 0
  · exact fits.bounded

theorem sChunkSizeStart_fits (ch : Byte) (at_ : r.parser.state = .sChunkSizeStart)
    (one : n = 1) : (sChunkSizeStart r ch).Fits eof start := by
  have data : r.parser.flags.fChunked ∧ r.parser.nread = n := by
    have data := fits.data
    simpa only [Parser.Data, at_] using data
  unfold sChunkSizeStart
  rw [if_neg (by simp [data.1, data.2, one])]
  cases hex : unhex ch with
  | none => exact fits.failed .hpeInvalidChunkSize (by decide) rfl 0
  | some digit =>
    have le := unhex_le hex
    have most : digit ≤ ullongMax := le.trans (by decide)
    refine fits.moves .sChunkSize at_ rfl rfl rfl rfl (by decide) (.inl ⟨rfl, rfl⟩) ?_
      ((fits.bounded.contentLength most).same rfl rfl rfl rfl rfl)
    exact ⟨data.1, Nat.lt_of_le_of_lt le (by decide)⟩

/-- What is asked for while a chunk size is read. -/
theorem Run.Fits.chunkSize (at_ : s = .sChunkSize ∨ s = .sChunkParameters ∨
    s = .sChunkSizeAlmostDone) (here : r.parser.state = s) :
    r.parser.flags.fChunked = true ∧ r.parser.contentLength < ullongMax := by
  have data := fits.data
  rcases at_ with rfl | rfl | rfl <;> simpa only [Parser.Data, here] using data

/-- A digit that would overflow the length is an error, not a wrap. -/
theorem sChunkSize_fits (ch : Byte) (at_ : r.parser.state = .sChunkSize) :
    (sChunkSize r ch).Fits eof start := by
  have data := fits.chunkSize (.inl rfl) at_
  unfold sChunkSize
  rw [if_neg (by simp [data.1])]
  have ends : (Step.next (r.updateState .sChunkSizeAlmostDone) 0).Fits eof start :=
    fits.moves .sChunkSizeAlmostDone at_ rfl rfl rfl rfl (by decide) (.inl ⟨rfl, rfl⟩) data
      (fits.bounded.same rfl rfl rfl rfl rfl)
  cases hex : unhex ch with
  | none =>
    dsimp only
    split_ifs
    · exact ends
    · exact fits.moves .sChunkParameters at_ rfl rfl rfl rfl (by decide) (.inl ⟨rfl, rfl⟩) data
        (fits.bounded.same rfl rfl rfl rfl rfl)
    · exact fits.failed .hpeInvalidChunkSize (by decide) rfl 0
  | some digit =>
    dsimp only
    split_ifs with _ long
    · exact ends
    · exact fits.failed .hpeInvalidContentLength (by decide) rfl 0
    · have le := unhex_le hex
      have small : r.parser.contentLength * 16 + digit < ullongMax := by
        have top : ullongMax = 18446744073709551615 := rfl
        omega
      have fits_in : r.parser.contentLength * 16 + digit < 2 ^ 64 := small.trans (by decide)
      rw [Nat.mod_eq_of_lt fits_in]
      refine fits.moves .sChunkSize at_ at_ rfl rfl rfl (by decide) (.inr rfl) ?_
        (fits.bounded.contentLength small.le)
      have here : (r.setContentLength (r.parser.contentLength * 16 + digit)).parser.state =
        .sChunkSize := at_
      simp only [Parser.Data, here]
      exact ⟨data.1, small⟩

theorem sChunkParameters_fits (ch : Byte) (at_ : r.parser.state = .sChunkParameters) :
    (sChunkParameters r ch).Fits eof start := by
  have data := fits.chunkSize (.inr (.inl rfl)) at_
  unfold sChunkParameters
  rw [if_neg (by simp [data.1])]
  split_ifs
  · exact fits.moves .sChunkSizeAlmostDone at_ rfl rfl rfl rfl (by decide) (.inl ⟨rfl, rfl⟩) data
      (fits.bounded.same rfl rfl rfl rfl rfl)
  · refine fits.moves .sChunkParameters at_ at_ rfl rfl rfl (by decide) (.inr rfl) ?_ fits.bounded
    simpa only [Parser.Data, at_] using data

theorem sChunkSizeAlmostDone_fits (strict : Bool) (ch : Byte)
    (at_ : r.parser.state = .sChunkSizeAlmostDone) :
    (sChunkSizeAlmostDone strict r ch).Fits eof start := by
  have data := fits.chunkSize (.inr (.inr rfl)) at_
  unfold sChunkSizeAlmostDone
  rw [if_neg (by simp [data.1])]
  dsimp only
  split_ifs with _ last
  · exact fits.failed .hpeStrict (by decide) rfl 0
  · refine fits.goes rfl ?_ (fits.marked.move (by rw [at_]; rfl) rfl) (.of_free rfl 0)
      (fits.bounded.same rfl rfl rfl rfl rfl)
    rw [at_]
    change allowed .sChunkSizeAlmostDone r.parser.flags.fTrailing ⊆ Phase.opens true
    cases r.parser.flags.fTrailing <;> decide
  · refine fits.moves .sChunkData at_ rfl rfl rfl rfl (by decide) (.inl ⟨rfl, rfl⟩) ?_
      (fits.bounded.same rfl rfl rfl rfl rfl)
    exact ⟨data.1, last, Nat.ne_of_lt data.2⟩

/-- As in a body of a known length. -/
theorem sChunkData_fits (p : Bytes) (some_ : p ≠ []) (at_ : r.parser.state = .sChunkData) :
    (sChunkData r p).Fits eof start := by
  have data : r.parser.flags.fChunked = true ∧ r.parser.contentLength ≠ 0 ∧
      r.parser.contentLength ≠ ullongMax := by
    have data := fits.data
    simpa only [Parser.Data, at_] using data
  have most := fits.bounded.length
  have long : 0 < p.length := List.length_pos_iff.mpr some_
  have bounded := fits.bounded.contentLength
    ((Nat.sub_le r.parser.contentLength (min r.parser.contentLength p.length)).trans most)
  have marked : Marked .sChunkData (r.mark .body).marks :=
    Run.marked_mark (at_ ▸ fits.marked) (.inr rfl) rfl (.inl rfl)
  obtain ⟨marks, same⟩ := r.mark_eq .body
  unfold sChunkData
  rw [if_neg (by simp [data])]
  rw [same] at marked ⊢
  dsimp only [Run.setContentLength]
  split_ifs with finished
  · refine fits.goes rfl ?_ (marked.stay rfl (.inl rfl)) ⟨data.1, finished⟩
      (bounded.same rfl rfl rfl rfl rfl)
    rw [at_]
    change allowed .sChunkData r.parser.flags.fTrailing ⊆
      allowed .sChunkDataAlmostDone r.parser.flags.fTrailing
    cases r.parser.flags.fTrailing <;> decide
  · refine fits.goes rfl (List.Subset.refl _) (by rw [at_]; exact marked) ?_ bounded
    simp only [Parser.Data, at_]
    refine ⟨data.1, finished, ?_⟩
    omega

theorem sChunkDataAlmostDone_fits (strict : Bool) (ch : Byte)
    (at_ : r.parser.state = .sChunkDataAlmostDone) :
    (sChunkDataAlmostDone strict r ch).Fits eof start := by
  have data : r.parser.flags.fChunked = true ∧ r.parser.contentLength = 0 := by
    have data := fits.data
    simpa only [Parser.Data, at_] using data
  unfold sChunkDataAlmostDone
  rw [if_neg (by simp [data])]
  split_ifs
  · exact fits.failed .hpeStrict (by decide) rfl 0
  · refine fits.reportsBody .sChunkDataDone at_ rfl (by decide) _ ?_ ?_ rfl ?_ ?_ _ ?_ ?_
    · rfl
    · change allowed .sChunkDataAlmostDone r.parser.flags.fTrailing ⊆
        allowed .sChunkDataDone r.parser.flags.fTrailing
      cases r.parser.flags.fTrailing <;> decide
    · exact at_ ▸ fits.marked
    · rfl
    · exact data.1
    · exact fits.bounded.same rfl rfl rfl rfl rfl

theorem sChunkDataDone_fits (strict : Bool) (ch : Byte)
    (at_ : r.parser.state = .sChunkDataDone) :
    (sChunkDataDone strict r ch).Fits eof start := by
  have data : r.parser.flags.fChunked = true := by
    have data := fits.data
    simpa only [Parser.Data, at_] using data
  unfold sChunkDataDone
  rw [if_neg (by simp [data])]
  split_ifs
  · exact fits.failed .hpeStrict (by decide) rfl 0
  · exact fits.moves .sChunkSizeStart at_ rfl rfl rfl rfl (by decide) (.inl ⟨rfl, rfl⟩)
      ⟨data, rfl⟩ (fits.bounded.same rfl rfl rfl rfl rfl)

/-- Every case of the switch keeps the invariant. -/
theorem step_fits (strict : Bool) (answer : Nat) (ch : Byte) (rest : Bytes)
    (counted : r.parser.state = .sChunkSizeStart → n = 1) :
    (step strict answer r ch rest).Fits eof start := by
  have some_ : ch :: rest ≠ [] := List.cons_ne_nil ch rest
  unfold step
  cases at_ : r.parser.state with
  | sDead => exact sDead_fits fits ch at_
  | sStartReqOrRes => exact sStartReqOrRes_fits fits ch at_
  | sResOrRespH => exact sResOrRespH_fits fits ch at_
  | sStartRes => exact sStartRes_fits fits ch at_
  | sResH => exact expect_fits fits strict ch _ at_ (by decide) ⟨rfl, rfl⟩ rfl
  | sResHT => exact expect_fits fits strict ch _ at_ (by decide) ⟨rfl, rfl⟩ rfl
  | sResHTT => exact expect_fits fits strict ch _ at_ (by decide) ⟨rfl, rfl⟩ rfl
  | sResHTTP => exact expect_fits fits strict ch _ at_ (by decide) ⟨rfl, rfl⟩ rfl
  | sResFirstHttpMajor => exact firstMajor_fits fits ch _ at_ (by decide) ⟨rfl, rfl⟩ rfl
  | sResHttpMajor => exact httpMajor_fits fits ch at_ rfl (by decide) ⟨rfl, rfl⟩ rfl
  | sResFirstHttpMinor => exact firstMinor_fits fits ch at_ (by decide) ⟨rfl, rfl⟩ rfl
  | sResHttpMinor => exact sResHttpMinor_fits fits ch at_
  | sResFirstStatusCode => exact sResFirstStatusCode_fits fits ch at_
  | sResStatusCode => exact sResStatusCode_fits fits ch at_
  | sResStatusStart => exact sResStatusStart_fits fits ch at_
  | sResStatus => exact sResStatus_fits fits ch at_
  | sResLineAlmostDone => exact expect_fits fits strict ch _ at_ (by decide) ⟨rfl, rfl⟩ rfl
  | sStartReq => exact sStartReq_fits fits ch at_
  | sReqMethod => exact sReqMethod_fits fits ch at_
  | sReqSpacesBeforeUrl => exact sReqSpacesBeforeUrl_fits fits strict ch at_
  | sReqSchema => exact sReqSchema_fits fits strict ch rfl at_
  | sReqSchemaSlash => exact sReqSchema_fits fits strict ch rfl at_
  | sReqSchemaSlashSlash => exact sReqSchema_fits fits strict ch rfl at_
  | sReqServerStart => exact sReqSchema_fits fits strict ch rfl at_
  | sReqServer => exact sReqPath_fits fits strict ch rfl at_
  | sReqServerWithAt => exact sReqPath_fits fits strict ch rfl at_
  | sReqPath => exact sReqPath_fits fits strict ch rfl at_
  | sReqQueryStringStart => exact sReqPath_fits fits strict ch rfl at_
  | sReqQueryString => exact sReqPath_fits fits strict ch rfl at_
  | sReqFragmentStart => exact sReqPath_fits fits strict ch rfl at_
  | sReqFragment => exact sReqPath_fits fits strict ch rfl at_
  | sReqHttpStart => exact sReqHttpStart_fits fits ch at_
  | sReqHttpH => exact expect_fits fits strict ch _ at_ (by decide) ⟨rfl, rfl⟩ rfl
  | sReqHttpHT => exact expect_fits fits strict ch _ at_ (by decide) ⟨rfl, rfl⟩ rfl
  | sReqHttpHTT => exact expect_fits fits strict ch _ at_ (by decide) ⟨rfl, rfl⟩ rfl
  | sReqHttpHTTP => exact expect_fits fits strict ch _ at_ (by decide) ⟨rfl, rfl⟩ rfl
  | sReqFirstHttpMajor => exact firstMajor_fits fits ch _ at_ (by decide) ⟨rfl, rfl⟩ rfl
  | sReqHttpMajor => exact httpMajor_fits fits ch at_ rfl (by decide) ⟨rfl, rfl⟩ rfl
  | sReqFirstHttpMinor => exact firstMinor_fits fits ch at_ (by decide) ⟨rfl, rfl⟩ rfl
  | sReqHttpMinor => exact sReqHttpMinor_fits fits ch at_
  | sReqLineAlmostDone => exact sReqLineAlmostDone_fits fits ch at_
  | sHeaderFieldStart => exact sHeaderFieldStart_fits fits strict answer ch at_
  | sHeaderField => exact sHeaderField_fits fits strict _ at_
  | sHeaderValueDiscardWs => exact sHeaderValueDiscardWs_fits fits ch at_
  | sHeaderValueDiscardWsAlmostDone =>
    exact expect_fits fits strict ch _ at_ (by decide) ⟨rfl, rfl⟩ rfl
  | sHeaderValueDiscardLws => exact sHeaderValueDiscardLws_fits fits strict answer ch at_
  | sHeaderValueStart => exact sHeaderValueStart_fits fits ch (.inr rfl) at_
  | sHeaderValue => exact sHeaderValue_fits fits _ at_
  | sHeaderValueLws => exact sHeaderValueLws_fits fits strict answer ch at_
  | sHeaderAlmostDone => exact sHeaderAlmostDone_fits fits ch at_
  | sChunkSizeStart => exact sChunkSizeStart_fits fits ch at_ (counted at_)
  | sChunkSize => exact sChunkSize_fits fits ch at_
  | sChunkParameters => exact sChunkParameters_fits fits ch at_
  | sChunkSizeAlmostDone => exact sChunkSizeAlmostDone_fits fits strict ch at_
  | sHeadersAlmostDone => exact sHeadersAlmostDone_fits fits strict answer ch at_
  | sHeadersDone => exact sHeadersDone_fits fits strict ch at_
  | sChunkData => exact sChunkData_fits fits _ some_ at_
  | sChunkDataAlmostDone => exact sChunkDataAlmostDone_fits fits strict ch at_
  | sChunkDataDone => exact sChunkDataDone_fits fits strict ch at_
  | sBodyIdentity => exact sBodyIdentity_fits fits strict _ some_ at_
  | sBodyIdentityEof => exact sBodyIdentityEof_fits fits _ at_
  | sMessageDone => exact sMessageDone_fits fits strict at_

end

end HttpLib
