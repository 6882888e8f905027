import Tigerso.ParserSafety

/-!
# The turns of http_parser_execute in the start line
-/

open SystemCalls LabelledPaths

namespace HttpLib

variable {eof : Prop} {start : Phase} {n : Nat} {r : Run} {s : State}

/-- A digit is small. -/
theorem digit_le {ch : Byte} (num : ¬ (!isNum ch) = true) : ch.toNat - 48 ≤ 999 := by
  simp only [isNum, Bool.not_eq_true', Bool.not_eq_false, Bool.and_eq_true, decide_eq_true_eq,
    UInt8.le_iff_toNat_le] at num
  have most : ch.toNat ≤ 57 := num.2
  omega

theorem Parser.Bounded.version {q : Parser} (bounded : q.Bounded) {major minor : Nat}
    (major_le : major ≤ 999) (minor_le : minor ≤ 999) :
    { q with httpMajor := major, httpMinor := minor }.Bounded :=
  ⟨major_le, minor_le, bounded.status, bounded.length, bounded.ok⟩

theorem Parser.Bounded.code {q : Parser} (bounded : q.Bounded) {code : Nat} (le : code ≤ 999) :
    { q with statusCode := code }.Bounded :=
  ⟨bounded.major, bounded.minor, le, bounded.length, bounded.ok⟩

theorem Parser.Bounded.contentLength {q : Parser} (bounded : q.Bounded) {length : Nat}
    (le : length ≤ ullongMax) : { q with contentLength := length }.Bounded :=
  ⟨bounded.major, bounded.minor, bounded.status, le, bounded.ok⟩

/-- The members that no bound speaks of. -/
theorem Parser.Bounded.same {q q' : Parser} (bounded : q.Bounded)
    (major : q'.httpMajor = q.httpMajor) (minor : q'.httpMinor = q.httpMinor)
    (status : q'.statusCode = q.statusCode) (length : q'.contentLength = q.contentLength)
    (ok : q'.httpErrno = q.httpErrno) : q'.Bounded := by
  constructor
  · exact major ▸ bounded.major
  · exact minor ▸ bounded.minor
  · exact status ▸ bounded.status
  · exact length ▸ bounded.length
  · exact ok.trans bounded.ok

def State.free : State → Bool
  | .sReqMethod => false
  | .sHeaderField => false
  | .sHeaderValue => false
  | .sChunkSizeStart => false
  | .sChunkSize => false
  | .sChunkParameters => false
  | .sChunkSizeAlmostDone => false
  | .sChunkData => false
  | .sChunkDataAlmostDone => false
  | .sChunkDataDone => false
  | .sBodyIdentity => false
  | _ => true

theorem Parser.Data.of_free {q : Parser} (free : q.state.free) (n : Nat) : q.Data n := by
  unfold Parser.Data
  revert free
  cases q.state <;> simp [State.free]

theorem otherMethod_long {m m' : Method} {i : Nat} {ch : Byte}
    (other : otherMethod m i ch = some m') : i + 1 ≤ (methodStrings m').length := by
  unfold otherMethod at other
  split at other <;> first | (split_ifs at other <;> (cases other; decide)) | cases other

theorem method_short (m : Method) : (methodStrings m).length ≤ 11 := by
  cases m <;> decide

def State.ofUrl : State → Bool
  | .sReqSchema => true
  | .sReqSchemaSlash => true
  | .sReqSchemaSlashSlash => true
  | .sReqServerStart => true
  | .sReqServer => true
  | .sReqServerWithAt => true
  | .sReqPath => true
  | .sReqQueryStringStart => true
  | .sReqQueryString => true
  | .sReqFragmentStart => true
  | .sReqFragment => true
  | _ => false

theorem State.allowed_ofUrl {s : State} (url : s.ofUrl) (trailing : Bool) :
    allowed s trailing = if trailing then [] else [.begun, .url] := by
  cases s <;> first | (cases url; done) | (cases trailing <;> rfl)

theorem State.resumed_ofUrl {s : State} (url : s.ofUrl) : resumed s = some .url := by
  cases s <;> first | (cases url; done) | rfl

theorem State.openMark_ofUrl {s : State} (url : s.ofUrl) : openMark s = some .url := by
  cases s <;> first | (cases url; done) | rfl

theorem State.free_ofUrl {s : State} (url : s.ofUrl) : s.free := by
  cases s <;> first | (cases url; done) | rfl

theorem server_ofUrl (ch : Byte) :
    parseUrlChar.server ch = .sDead ∨ (parseUrlChar.server ch).ofUrl := by
  unfold parseUrlChar.server
  split_ifs <;> first | exact .inl rfl | exact .inr rfl

theorem query_ofUrl (strict : Bool) (ch : Byte) :
    parseUrlChar.query strict ch = .sDead ∨ (parseUrlChar.query strict ch).ofUrl := by
  unfold parseUrlChar.query
  split_ifs <;> first | exact .inl rfl | exact .inr rfl

theorem parseUrlChar_ofUrl (strict : Bool) (s : State) (ch : Byte) :
    parseUrlChar strict s ch = .sDead ∨ (parseUrlChar strict s ch).ofUrl := by
  unfold parseUrlChar
  split
  · exact .inl rfl
  split
  · exact .inl rfl
  split <;> (try exact server_ofUrl ch) <;> (try exact query_ofUrl strict ch) <;>
    (try split_ifs) <;>
    first | exact .inl rfl | exact .inr rfl | exact server_ofUrl ch

def State.afterUrl : State → Bool
  | .sReqHttpStart => true
  | .sReqLineAlmostDone => true
  | .sHeaderFieldStart => true
  | _ => false

theorem State.url_mem {s : State} (after : s.afterUrl) : Phase.url ∈ allowed s false := by
  cases s <;> first | (cases after; done) | decide

theorem State.resumed_afterUrl {s : State} (after : s.afterUrl) : resumed s = none := by
  cases s <;> first | (cases after; done) | rfl

theorem State.free_afterUrl {s : State} (after : s.afterUrl) : s.free := by
  cases s <;> first | (cases after; done) | rfl

section
variable (fits : r.Fits eof start n)
include fits

/-- To another state, without a mark. -/
theorem Run.Fits.update (s' : State) (at_ : r.parser.state = s)
    (sub : ∀ b, allowed s b ⊆ allowed s' b)
    (closed : openMark s = none ∧ resumed s' = none ∨ s' = s) (free : s'.free) :
    (r.updateState s').Fits eof start 0 :=
  fits.moves s' at_ rfl rfl rfl rfl sub closed (.of_free free 0)
    (fits.bounded.same rfl rfl rfl rfl rfl)

/-- Nothing happens. -/
theorem Run.Fits.stays (at_ : r.parser.state = s) (free : s.free) : r.Fits eof start 0 :=
  fits.moves s at_ at_ rfl rfl rfl (fun _ => List.Subset.refl _) (.inr rfl)
    (.of_free (at_ ▸ free) 0) fits.bounded

theorem expect_fits (strict : Bool) (ch expected : Byte) (at_ : r.parser.state = s) {s' : State}
    (sub : ∀ b, allowed s b ⊆ allowed s' b) (closed : openMark s = none ∧ resumed s' = none)
    (free : s'.free) : (expect strict r ch expected s').Fits eof start := by
  unfold expect
  split_ifs
  · exact fits.failed .hpeStrict (by decide) rfl 0
  · exact fits.update _ at_ sub (.inl closed) free

theorem sDead_fits (ch : Byte) (at_ : r.parser.state = .sDead) :
    (sDead r ch).Fits eof start := by
  unfold sDead
  split_ifs
  · exact fits.stays at_ rfl
  · exact fits.failed .hpeClosedConnection (by decide) rfl 0

/-- A request begins. -/
theorem sStartReq_fits (ch : Byte) (at_ : r.parser.state = .sStartReq) :
    (sStartReq r ch).Fits eof start := by
  unfold sStartReq
  dsimp only
  split_ifs
  · exact fits.stays at_ rfl
  · exact fits.failed .hpeInvalidMethod (by decide) rfl 0
  · cases first : firstMethod ch with
    | none => exact fits.failed .hpeInvalidMethod (by decide) rfl 0
    | some m =>
      refine fits.reports rfl ?_ (fits.marked.move (by rw [at_]; rfl) rfl) ?_
        ((fits.bounded.contentLength (Nat.le_refl _)).same rfl rfl rfl rfl rfl)
      · rw [at_]
        rintro ph here
        obtain rfl := List.mem_singleton.mp here
        exact ⟨.begun, List.mem_singleton_self _, .begin_⟩
      · have long : 1 ≤ (methodStrings m).length := by cases m <;> decide
        exact long

theorem sStartReqOrRes_fits (ch : Byte) (at_ : r.parser.state = .sStartReqOrRes) :
    (sStartReqOrRes r ch).Fits eof start := by
  have fresh := fits.bounded.contentLength (Nat.le_refl ullongMax)
  unfold sStartReqOrRes
  split_ifs
  · exact fits.stays at_ rfl
  · refine fits.reports rfl ?_ (fits.marked.move (by rw [at_]; rfl) rfl) (.of_free rfl 0)
      (fresh.same rfl rfl rfl rfl rfl)
    rw [at_]
    rintro ph here
    obtain rfl := List.mem_singleton.mp here
    exact ⟨.begun, List.mem_singleton_self _, .begin_⟩
  · have fresh : (((freshMessage r).setType .httpRequest).updateState .sStartReq).Fits eof
        start 0 := by
      refine fits.goes rfl ?_ (fits.marked.move (by rw [at_]; rfl) rfl) (.of_free rfl 0)
        (fresh.same rfl rfl rfl rfl rfl)
      rw [at_]
      exact List.Subset.refl _
    exact sStartReq_fits fresh ch rfl

theorem sResOrRespH_fits (ch : Byte) (at_ : r.parser.state = .sResOrRespH) :
    (sResOrRespH r ch).Fits eof start := by
  unfold sResOrRespH
  split_ifs
  · exact fits.moves .sResHT at_ rfl rfl rfl rfl (by decide) (.inl ⟨rfl, rfl⟩) (.of_free rfl 0)
      (fits.bounded.same rfl rfl rfl rfl rfl)
  · exact fits.failed .hpeInvalidConstant (by decide) rfl 0
  · refine fits.moves .sReqMethod at_ rfl rfl rfl rfl (by decide) (.inl ⟨rfl, rfl⟩) ?_
      (fits.bounded.same rfl rfl rfl rfl rfl)
    have long : 2 ≤ (methodStrings .httpHead).length := by decide
    exact long

/-- A response begins with its first letter. -/
theorem sStartRes_fits (ch : Byte) (at_ : r.parser.state = .sStartRes) :
    (sStartRes r ch).Fits eof start := by
  have begins : ∀ ph ∈ allowed r.parser.state r.parser.flags.fTrailing,
      Phase.Next eof ph .onMessageBegin .begun := by
    rw [at_]
    intro ph here
    cases trailing : r.parser.flags.fTrailing with
    | false =>
      rw [trailing] at here
      rcases List.mem_pair.mp here with rfl | rfl
      · exact .begin_
      · exact .again
    | true =>
      rw [trailing] at here
      obtain rfl := List.mem_singleton.mp here
      exact .begin_
  have fresh := fits.bounded.contentLength (Nat.le_refl ullongMax)
  unfold sStartRes
  dsimp only
  split_ifs
  · exact fits.reports rfl (fun ph here => ⟨.begun, List.mem_singleton_self _, begins ph here⟩)
      (fits.marked.move (by rw [at_]; rfl) rfl) (.of_free rfl 0) (fresh.same rfl rfl rfl rfl rfl)
  · refine fits.reports rfl (fun ph here => ⟨.begun, ?_, begins ph here⟩)
      fits.marked (.of_free ?_ 0) (fresh.same rfl rfl rfl rfl rfl)
    · change Phase.begun ∈ allowed r.parser.state false
      rw [at_]
      exact List.mem_pair.mpr (.inr rfl)
    · change r.parser.state.free
      rw [at_]
      rfl
  · exact fits.failed .hpeInvalidConstant (by decide) rfl 0

/-- The method stays one of the table, and the index inside of its name. -/
theorem sReqMethod_fits (ch : Byte) (at_ : r.parser.state = .sReqMethod) :
    (sReqMethod r ch).Fits eof start := by
  have index : r.parser.index ≤ (methodStrings r.parser.method).length := by
    have data := fits.data
    simpa only [Parser.Data, at_] using data
  have short := method_short r.parser.method
  have wraps : (r.parser.index + 1) % 2 ^ 7 = r.parser.index + 1 := Nat.mod_eq_of_lt (by omega)
  -- one more byte of the method `m`
  have goes : ∀ m, r.parser.index + 1 ≤ (methodStrings m).length →
      (r.setMethod m).nextIndex.Fits eof start 0 := by
    intro m long
    refine fits.moves .sReqMethod at_ at_ rfl rfl rfl (fun _ => List.Subset.refl _) (.inr rfl) ?_
      (fits.bounded.same rfl rfl rfl rfl rfl)
    have here : (r.setMethod m).nextIndex.parser.state = .sReqMethod := at_
    simp only [Parser.Data, here]
    exact (Nat.le_of_eq wraps).trans long
  have inside : r.parser.index < (methodStrings r.parser.method ++ [0]).length := by
    simp only [List.length_append, List.length_singleton]
    omega
  unfold sReqMethod
  rw [List.getElem?_eq_getElem inside]
  dsimp only
  split_ifs with zero ends more alpha dash
  · exact fits.failed .hpeInvalidMethod (by decide) rfl 0
  · exact fits.moves .sReqSpacesBeforeUrl at_ rfl rfl rfl rfl (by decide) (.inl ⟨rfl, rfl⟩)
      (.of_free rfl 0) (fits.bounded.same rfl rfl rfl rfl rfl)
  · refine goes r.parser.method ?_
    by_contra long
    have last : r.parser.index = (methodStrings r.parser.method).length := by omega
    refine zero (more.trans ?_)
    simp only [last, List.getElem_concat_length]
  · cases other : otherMethod r.parser.method r.parser.index ch with
    | none => exact fits.failed .hpeInvalidMethod (by decide) rfl 0
    | some m => exact goes m (otherMethod_long other)
  · refine goes .httpMsearch ?_
    rw [dash.2.1]
    decide
  · exact fits.failed .hpeInvalidMethod (by decide) rfl 0

/-- What is reported at the end of a URL. -/
theorem Run.Fits.reportsUrl (url : s.ofUrl) (at_ : r.parser.state = s) {r' : Run} (s' : State)
    (to_ : r'.parser.state = s') (after : s'.afterUrl) (flags : r'.parser.flags = r.parser.flags)
    (marks : r'.marks = r.marks) (callbacks : r'.callbacks = r.callbacks)
    (bounded : r'.parser.Bounded) : (r'.callbackData .url).Fits eof start 0 := by
  refine fits.flushes r' s' at_ (State.resumed_ofUrl url) to_ (State.resumed_afterUrl after) marks
    callbacks [] ?_ (.of_free (to_ ▸ State.free_afterUrl after) 0) bounded
  rw [flags, State.allowed_ofUrl url]
  intro ph here at_
  cases off : r.parser.flags.fTrailing with
  | true =>
    rw [off] at here
    exact absurd here List.not_mem_nil
  | false =>
    rw [off] at here
    refine ⟨.url, State.url_mem after, ?_⟩
    rcases List.mem_pair.mp here with rfl | rfl
    · exact .url
    · exact .moreUrl

theorem urlChar_fits (strict : Bool) (ch : Byte) (url : s.ofUrl) (at_ : r.parser.state = s) :
    (urlChar strict r ch).Fits eof start := by
  unfold urlChar
  dsimp only
  split_ifs with dead
  · exact fits.failed .hpeInvalidUrl (by decide) rfl 0
  · have goes := (parseUrlChar_ofUrl strict r.parser.state ch).resolve_left dead
    refine fits.goes rfl ?_ ?_ (.of_free (State.free_ofUrl goes) 0)
      (fits.bounded.same rfl rfl rfl rfl rfl)
    · change allowed r.parser.state r.parser.flags.fTrailing ⊆
        allowed (parseUrlChar strict r.parser.state ch) r.parser.flags.fTrailing
      rw [State.allowed_ofUrl (at_ ▸ url), State.allowed_ofUrl goes]
      exact List.Subset.refl _
    · have marked := fits.marked
      rw [at_] at marked
      refine marked.stay ?_ (.inr ?_)
      · exact (State.openMark_ofUrl goes).trans (State.openMark_ofUrl url).symm
      · exact (State.resumed_ofUrl goes).trans (State.resumed_ofUrl url).symm

theorem sReqSchema_fits (strict : Bool) (ch : Byte) (url : s.ofUrl)
    (at_ : r.parser.state = s) : (sReqSchema strict r ch).Fits eof start := by
  unfold sReqSchema
  split_ifs
  · exact fits.failed .hpeInvalidUrl (by decide) rfl 0
  · exact urlChar_fits fits strict ch url at_

theorem sReqPath_fits (strict : Bool) (ch : Byte) (url : s.ofUrl) (at_ : r.parser.state = s) :
    (sReqPath strict r ch).Fits eof start := by
  have bounded : (r.setVersion 0 9).parser.Bounded :=
    fits.bounded.version (by decide) (by decide)
  unfold sReqPath
  split_ifs
  · exact fits.reportsUrl url at_ .sReqHttpStart rfl rfl rfl rfl rfl
      (fits.bounded.same rfl rfl rfl rfl rfl)
  · exact fits.reportsUrl url at_ .sReqLineAlmostDone rfl rfl rfl rfl rfl
      (bounded.same rfl rfl rfl rfl rfl)
  · exact fits.reportsUrl url at_ .sHeaderFieldStart rfl rfl rfl rfl rfl
      (bounded.same rfl rfl rfl rfl rfl)
  · exact urlChar_fits fits strict ch url at_

/-- The URL is marked at its first byte. -/
theorem sReqSpacesBeforeUrl_fits (strict : Bool) (ch : Byte)
    (at_ : r.parser.state = .sReqSpacesBeforeUrl) :
    (sReqSpacesBeforeUrl strict r ch).Fits eof start := by
  -- the first byte of a URL
  have first : ∀ s : State, (urlChar strict ((r.mark .url).updateState s) ch).Fits eof start := by
    intro s
    unfold urlChar
    dsimp only
    split_ifs with dead
    · exact fits.failed .hpeInvalidUrl (by decide) (r.mark_callbacks .url) 0
    · have goes := (parseUrlChar_ofUrl strict s ch).resolve_left dead
      refine fits.marks (parseUrlChar strict s ch) at_ (.inl rfl) rfl (State.openMark_ofUrl goes)
        (.inr (State.resumed_ofUrl goes)) rfl (r.mark_callbacks .url) ?_
        (.of_free (State.free_ofUrl goes) 0) ?_
      · rw [State.allowed_ofUrl goes]
        change (_ : List Phase) ⊆ if (r.mark .url).parser.flags.fTrailing then _ else _
        rw [r.mark_keeps]
        cases r.parser.flags.fTrailing <;> decide
      · refine fits.bounded.same ?_ ?_ ?_ ?_ ?_ <;>
          simp only [Run.updateState, r.mark_keeps]
  have unchanged : r.mark .url = (r.mark .url).updateState .sReqSpacesBeforeUrl := by
    rw [← at_, ← r.mark_keeps .url]
    rfl
  unfold sReqSpacesBeforeUrl
  dsimp only
  split_ifs
  · exact fits.stays at_ rfl
  · exact first .sReqServerStart
  · rw [unchanged]
    exact first .sReqSpacesBeforeUrl

theorem firstMajor_fits (ch least : Byte) (at_ : r.parser.state = s) {s' : State}
    (sub : ∀ b, allowed s b ⊆ allowed s' b) (closed : openMark s = none ∧ resumed s' = none)
    (free : s'.free) : (firstMajor r ch least s').Fits eof start := by
  unfold firstMajor
  split_ifs with bad
  · exact fits.failed .hpeInvalidVersion (by decide) rfl 0
  · have le : ch.toNat - 48 ≤ 999 := by
      have most : ch ≤ 57 := UInt8.not_lt.mp (not_or.mp bad).2
      have most : ch.toNat ≤ 57 := UInt8.le_iff_toNat_le.mp most
      omega
    exact fits.moves s' at_ rfl rfl rfl rfl sub (.inl closed) (.of_free free 0)
      ((fits.bounded.version le fits.bounded.minor).same rfl rfl rfl rfl rfl)

theorem httpMajor_fits (ch : Byte) (at_ : r.parser.state = s) (here : s.free) {s' : State}
    (sub : ∀ b, allowed s b ⊆ allowed s' b) (closed : openMark s = none ∧ resumed s' = none)
    (free : s'.free) : (httpMajor r ch s').Fits eof start := by
  unfold httpMajor
  dsimp only
  split_ifs with dot num most
  · exact fits.update _ at_ sub (.inl closed) free
  · exact fits.failed .hpeInvalidVersion (by decide) rfl 0
  · exact fits.failed .hpeInvalidVersion (by decide) rfl 0
  · exact fits.moves s at_ at_ rfl rfl rfl (fun _ => List.Subset.refl _) (.inr rfl)
      (.of_free (at_ ▸ here) 0) (fits.bounded.version (Nat.not_lt.mp most) fits.bounded.minor)

theorem firstMinor_fits (ch : Byte) (at_ : r.parser.state = s) {s' : State}
    (sub : ∀ b, allowed s b ⊆ allowed s' b) (closed : openMark s = none ∧ resumed s' = none)
    (free : s'.free) : (firstMinor r ch s').Fits eof start := by
  unfold firstMinor
  split_ifs with num
  · exact fits.failed .hpeInvalidVersion (by decide) rfl 0
  · exact fits.moves s' at_ rfl rfl rfl rfl sub (.inl closed) (.of_free free 0)
      ((fits.bounded.version fits.bounded.major (digit_le num)).same rfl rfl rfl rfl rfl)

theorem httpMinor_fits (ch : Byte) (at_ : r.parser.state = s) (here : s.free) :
    (httpMinor r ch).Fits eof start := by
  unfold httpMinor
  dsimp only
  split_ifs with num most
  · exact fits.failed .hpeInvalidVersion (by decide) rfl 0
  · exact fits.failed .hpeInvalidVersion (by decide) rfl 0
  · exact fits.moves s at_ at_ rfl rfl rfl (fun _ => List.Subset.refl _) (.inr rfl)
      (.of_free (at_ ▸ here) 0) (fits.bounded.version fits.bounded.major (Nat.not_lt.mp most))

theorem sResHttpMinor_fits (ch : Byte) (at_ : r.parser.state = .sResHttpMinor) :
    (sResHttpMinor r ch).Fits eof start := by
  unfold sResHttpMinor
  split_ifs
  · exact fits.update _ at_ (by decide) (.inl ⟨rfl, rfl⟩) rfl
  · exact httpMinor_fits fits ch at_ rfl

theorem sReqHttpMinor_fits (ch : Byte) (at_ : r.parser.state = .sReqHttpMinor) :
    (sReqHttpMinor r ch).Fits eof start := by
  unfold sReqHttpMinor
  split_ifs
  · exact fits.update _ at_ (by decide) (.inl ⟨rfl, rfl⟩) rfl
  · exact fits.update _ at_ (by decide) (.inl ⟨rfl, rfl⟩) rfl
  · exact httpMinor_fits fits ch at_ rfl

theorem sReqHttpStart_fits (ch : Byte) (at_ : r.parser.state = .sReqHttpStart) :
    (sReqHttpStart r ch).Fits eof start := by
  unfold sReqHttpStart
  split_ifs
  · exact fits.update _ at_ (by decide) (.inl ⟨rfl, rfl⟩) rfl
  · exact fits.stays at_ rfl
  · exact fits.failed .hpeInvalidConstant (by decide) rfl 0

theorem sReqLineAlmostDone_fits (ch : Byte) (at_ : r.parser.state = .sReqLineAlmostDone) :
    (sReqLineAlmostDone r ch).Fits eof start := by
  unfold sReqLineAlmostDone
  split_ifs
  · exact fits.failed .hpeLfExpected (by decide) rfl 0
  · exact fits.update _ at_ (by decide) (.inl ⟨rfl, rfl⟩) rfl

theorem sResFirstStatusCode_fits (ch : Byte) (at_ : r.parser.state = .sResFirstStatusCode) :
    (sResFirstStatusCode r ch).Fits eof start := by
  unfold sResFirstStatusCode
  split_ifs with num
  · exact fits.stays at_ rfl
  · exact fits.failed .hpeInvalidStatus (by decide) rfl 0
  · exact fits.moves .sResStatusCode at_ rfl rfl rfl rfl (by decide) (.inl ⟨rfl, rfl⟩)
      (.of_free rfl 0) ((fits.bounded.code (digit_le num)).same rfl rfl rfl rfl rfl)

theorem sResStatusCode_fits (ch : Byte) (at_ : r.parser.state = .sResStatusCode) :
    (sResStatusCode r ch).Fits eof start := by
  unfold sResStatusCode
  dsimp only
  split_ifs with num _ _ _ most
  · exact fits.update _ at_ (by decide) (.inl ⟨rfl, rfl⟩) rfl
  · exact fits.update _ at_ (by decide) (.inl ⟨rfl, rfl⟩) rfl
  · exact fits.update _ at_ (by decide) (.inl ⟨rfl, rfl⟩) rfl
  · exact fits.failed .hpeInvalidStatus (by decide) rfl 0
  · exact fits.failed .hpeInvalidStatus (by decide) rfl 0
  · exact fits.moves .sResStatusCode at_ at_ rfl rfl rfl (by decide) (.inr rfl)
      (.of_free (at_ ▸ rfl) 0) (fits.bounded.code (Nat.not_lt.mp most))

theorem sResStatusStart_fits (ch : Byte) (at_ : r.parser.state = .sResStatusStart) :
    (sResStatusStart r ch).Fits eof start := by
  unfold sResStatusStart
  split_ifs
  · exact fits.update _ at_ (by decide) (.inl ⟨rfl, rfl⟩) rfl
  · exact fits.update _ at_ (by decide) (.inl ⟨rfl, rfl⟩) rfl
  · refine fits.marks .sResStatus at_ (.inl rfl) rfl rfl (.inr rfl) rfl (r.mark_callbacks .status)
      ?_ (.of_free rfl 0) ?_
    · change (_ : List Phase) ⊆ allowed _ (r.mark .status).parser.flags.fTrailing
      rw [r.mark_keeps]
      cases r.parser.flags.fTrailing <;> decide
    · refine fits.bounded.same ?_ ?_ ?_ ?_ ?_ <;>
        simp only [Run.updateState, Run.setIndex, r.mark_keeps]

/-- The text is marked until the end of its line. -/
theorem sResStatus_fits (ch : Byte) (at_ : r.parser.state = .sResStatus) :
    (sResStatus r ch).Fits eof start := by
  have next : ∀ s' : State, (∀ b, Phase.status ∈ allowed s' b ∨ b = true) →
      ∀ ph ∈ allowed .sResStatus r.parser.flags.fTrailing, ∀ at_,
        ∃ ph' ∈ allowed s' r.parser.flags.fTrailing, Phase.Next eof ph (.onStatus at_) ph' := by
    intro s' there ph here at_
    rcases there r.parser.flags.fTrailing with there | on
    · refine ⟨.status, there, ?_⟩
      cases off : r.parser.flags.fTrailing with
      | true =>
        rw [off] at here
        exact absurd here List.not_mem_nil
      | false =>
        rw [off] at here
        rcases List.mem_pair.mp here with rfl | rfl
        · exact .status
        · exact .moreStatus
    · rw [on] at here
      exact absurd here List.not_mem_nil
  unfold sResStatus
  split_ifs
  · exact fits.flushes (r.updateState .sResLineAlmostDone) .sResLineAlmostDone at_ rfl rfl
      rfl rfl rfl [] (next .sResLineAlmostDone (by decide)) (.of_free rfl 0)
      (fits.bounded.same rfl rfl rfl rfl rfl)
  · exact fits.flushes (r.updateState .sHeaderFieldStart) .sHeaderFieldStart at_ rfl rfl
      rfl rfl rfl [] (next .sHeaderFieldStart (by decide)) (.of_free rfl 0)
      (fits.bounded.same rfl rfl rfl rfl rfl)
  · exact fits.stays at_ rfl

end

end HttpLib
