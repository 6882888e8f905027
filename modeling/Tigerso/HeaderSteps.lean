import Tigerso.StartLineSteps

/-!
# The turns of http_parser_execute in headers and bodies
-/

open SystemCalls LabelledPaths

namespace HttpLib

variable {eof : Prop} {start : Phase} {n : Nat} {r : Run} {s : State}

/-- What the loops over a header leave as it is. -/
structure Parser.Kept (q q' : Parser) : Prop where
  state : q'.state = q.state
  trailing : q'.flags.fTrailing = q.flags.fTrailing
  bounded : q.Bounded → q'.Bounded

namespace Parser.Kept

theorem refl (q : Parser) : q.Kept q := ⟨rfl, rfl, id⟩

theorem trans {q q' q'' : Parser} (kept : q.Kept q') (more : q'.Kept q'') : q.Kept q'' :=
  ⟨more.state.trans kept.state, more.trailing.trans kept.trailing,
    fun bounded => more.bounded (kept.bounded bounded)⟩

theorem setHeaderState {q q' : Parser} (kept : q.Kept q') (h : HeaderState) :
    q.Kept (q'.setHeaderState h) :=
  ⟨kept.state, kept.trailing, fun bounded => (kept.bounded bounded).same rfl rfl rfl rfl rfl⟩

theorem nextIndex (q : Parser) : q.Kept q.nextIndex :=
  ⟨rfl, rfl, fun bounded => bounded.same rfl rfl rfl rfl rfl⟩

end Parser.Kept

theorem matchName_kept (text : Bytes) {found : HeaderState} (found_ok : found.ofField) {q : Parser}
    (field : q.headerState.ofField) (c : Byte) :
    q.Kept (matchName text found q c) ∧ (matchName text found q c).headerState.ofField := by
  unfold matchName
  dsimp only
  split_ifs
  · exact ⟨(Parser.Kept.nextIndex q).setHeaderState _, rfl⟩
  · exact ⟨(Parser.Kept.nextIndex q).setHeaderState _, found_ok⟩
  · exact ⟨Parser.Kept.nextIndex q, field⟩

/-- The state of a header name stays one, whatever the byte is. -/
theorem fieldChar_kept {q : Parser} (field : q.headerState.ofField) (ch c : Byte) :
    ∃ q', fieldChar q ch c = some q' ∧ q.Kept q' ∧ q'.headerState.ofField := by
  have next := Parser.Kept.nextIndex q
  have space : q.Kept (if ch ≠ sp then q.setHeaderState .hGeneral else q) ∧
      (if ch ≠ sp then q.setHeaderState .hGeneral else q).headerState.ofField := by
    split_ifs
    · exact ⟨(Parser.Kept.refl q).setHeaderState _, rfl⟩
    · exact ⟨.refl q, field⟩
  unfold fieldChar
  cases here : q.headerState with
  | hGeneral => exact ⟨q, rfl, .refl q, by rw [here]; rfl⟩
  | hC => exact ⟨_, rfl, next.setHeaderState _, by
      simp only [Parser.setHeaderState]; split_ifs <;> rfl⟩
  | hCO => exact ⟨_, rfl, next.setHeaderState _, by
      simp only [Parser.setHeaderState]; split_ifs <;> rfl⟩
  | hCON => exact ⟨_, rfl, next.setHeaderState _, by
      simp only [Parser.setHeaderState]; split_ifs <;> rfl⟩
  | hMatchingConnection => exact ⟨_, rfl, matchName_kept _ rfl field c⟩
  | hMatchingProxyConnection => exact ⟨_, rfl, matchName_kept _ rfl field c⟩
  | hMatchingContentLength => exact ⟨_, rfl, matchName_kept _ rfl field c⟩
  | hMatchingTransferEncoding => exact ⟨_, rfl, matchName_kept _ rfl field c⟩
  | hMatchingUpgrade => exact ⟨_, rfl, matchName_kept _ rfl field c⟩
  | hConnection => exact ⟨_, rfl, space⟩
  | hContentLength => exact ⟨_, rfl, space⟩
  | hTransferEncoding => exact ⟨_, rfl, space⟩
  | hUpgrade => exact ⟨_, rfl, space⟩
  | _ => rw [here] at field; cases field

theorem fieldLoop_kept (strict : Bool) (p : Bytes) {q : Parser} (field : q.headerState.ofField) :
    ∃ q' n, fieldLoop strict q p = some (q', n) ∧ q.Kept q' ∧ q'.headerState.ofField := by
  induction p generalizing q with
  | nil => exact ⟨q, 0, rfl, .refl q, field⟩
  | cons ch rest ih =>
    rw [fieldLoop]
    split_ifs
    · exact ⟨q, 0, rfl, .refl q, field⟩
    · obtain ⟨q', turned, kept, field⟩ := fieldChar_kept field ch (token strict ch)
      obtain ⟨q'', n, looped, more, field⟩ := ih field
      refine ⟨q'', n + 1, ?_, kept.trans more, field⟩
      simp only [turned, looped, Option.bind_eq_bind, Option.bind_some]

theorem matchValue_kept (text : Bytes) {other found h : HeaderState} (other_ok : other.ofValue)
    (found_ok : found.ofValue) (value : h.ofValue) (q : Parser) (c : Byte) :
    q.Kept (matchValue text other found q h c).1 ∧
      (matchValue text other found q h c).2.ofValue := by
  have next := Parser.Kept.nextIndex q
  unfold matchValue
  dsimp only
  split_ifs
  · exact ⟨next, other_ok⟩
  · exact ⟨next, found_ok⟩
  · exact ⟨next, value⟩

theorem Flags.found_trailing (f : Flags) (h : HeaderState) :
    (f.found h).fTrailing = f.fTrailing := by
  cases h <;> rfl

theorem tokenFound_kept {h : HeaderState} (value : h.ofValue) (q : Parser) (ch : Byte) :
    q.Kept (tokenFound q h ch).1 ∧ (tokenFound q h ch).2.ofValue := by
  unfold tokenFound
  split_ifs
  · exact ⟨⟨rfl, Flags.found_trailing _ _, fun bounded => bounded.same rfl rfl rfl rfl rfl⟩, rfl⟩
  · exact ⟨.refl q, rfl⟩
  · exact ⟨.refl q, value⟩

theorem lengthDigit_kept {q q' : Parser} {h' : HeaderState} {ch : Byte}
    (turned : lengthDigit q ch = .ok (q', h')) : q.Kept q' ∧ h'.ofValue := by
  unfold lengthDigit at turned
  split_ifs at turned with space num long
  · obtain ⟨rfl, rfl⟩ := Prod.mk.inj (Except.ok.inj turned)
    exact ⟨.refl q, rfl⟩
  · obtain ⟨rfl, rfl⟩ := Prod.mk.inj (Except.ok.inj turned)
    refine ⟨⟨rfl, rfl, fun bounded => ?_⟩, rfl⟩
    exact bounded.contentLength (Nat.le_pred_of_lt (Nat.mod_lt _ (by decide)))

theorem lengthDigit_failed {q : Parser} {ch : Byte} {e : Option Errno}
    (failed : lengthDigit q ch = .error e) : e = some .hpeInvalidContentLength := by
  unfold lengthDigit at failed
  split_ifs at failed
  · exact (Except.error.inj failed).symm
  · exact (Except.error.inj failed).symm

/-- So does that of a value, or the byte is an error. -/
theorem valueChar_kept {q : Parser} {h : HeaderState} (value : h.ofValue) (ch : Byte) :
    valueChar q h ch ≠ .error none ∧ (∀ e, valueChar q h ch = .error (some e) → e ≠ .hpeOk) ∧
      ∀ q' h', valueChar q h ch = .ok (q', h') → q.Kept q' ∧ h'.ofValue := by
  have same : ∀ {x : Parser × HeaderState}, q.Kept x.1 ∧ x.2.ofValue →
      (Except.ok x : Except (Option Errno) _) ≠ .error none ∧
        (∀ e, (Except.ok x : Except (Option Errno) _) = .error (some e) → e ≠ .hpeOk) ∧
        ∀ q' h', (Except.ok x : Except (Option Errno) _) = .ok (q', h') → q.Kept q' ∧
          h'.ofValue := by
    intro x kept
    refine ⟨(nomatch ·), (fun e failed => nomatch failed), ?_⟩
    rintro q' h' turned
    obtain rfl := Except.ok.inj turned
    exact kept
  unfold valueChar
  dsimp only
  cases h with
  | hConnection => cases value
  | hTransferEncoding => cases value
  | hContentLength =>
    refine ⟨?_, ?_, fun q' h' turned => lengthDigit_kept turned⟩
    · intro failed
      exact absurd (lengthDigit_failed failed) nofun
    · intro e failed
      exact Option.some.inj (lengthDigit_failed failed) ▸ nofun
  | hMatchingTransferEncodingChunked => exact same (matchValue_kept _ rfl rfl rfl q _)
  | hMatchingConnectionTokenStart =>
    refine same ⟨.refl q, ?_⟩
    dsimp only
    split_ifs <;> rfl
  | hMatchingConnectionKeepAlive => exact same (matchValue_kept _ rfl rfl rfl q _)
  | hMatchingConnectionClose => exact same (matchValue_kept _ rfl rfl rfl q _)
  | hMatchingConnectionUpgrade => exact same (matchValue_kept _ rfl rfl rfl q _)
  | hMatchingConnectionToken =>
    refine same ?_
    split_ifs
    · exact ⟨⟨rfl, rfl, fun bounded => bounded.same rfl rfl rfl rfl rfl⟩, rfl⟩
    · exact ⟨.refl q, rfl⟩
  | hTransferEncodingChunked =>
    refine same ⟨.refl q, ?_⟩
    dsimp only
    split_ifs <;> rfl
  | hConnectionKeepAlive => exact same (tokenFound_kept rfl q ch)
  | hConnectionClose => exact same (tokenFound_kept rfl q ch)
  | hConnectionUpgrade => exact same (tokenFound_kept rfl q ch)
  | _ => exact same ⟨.refl q, rfl⟩

/-- What the loop over a value makes of the parser. -/
def ValueEnd.Kept (q : Parser) : ValueEnd → Prop
  | .cr q' h _ => q.Kept q' ∧ h.ofValue
  | .lf q' h _ => q.Kept q' ∧ h.ofValue
  | .finished q' h _ => q.Kept q' ∧ h.ofValue
  | .bad e q' _ => e ≠ .hpeOk ∧ q.Kept q'
  | .abort => False

theorem ValueEnd.Kept.behind {q : Parser} {e : ValueEnd} (kept : e.Kept q) : e.behind.Kept q := by
  cases e <;> exact kept

theorem ValueEnd.Kept.trans {q q' : Parser} (kept : q.Kept q') {e : ValueEnd} (more : e.Kept q') :
    e.Kept q := by
  cases e with
  | cr => exact ⟨kept.trans more.1, more.2⟩
  | lf => exact ⟨kept.trans more.1, more.2⟩
  | finished => exact ⟨kept.trans more.1, more.2⟩
  | bad => exact ⟨more.1, kept.trans more.2⟩
  | abort => exact more

/-- The loop over a value, by induction on the buffer. -/
theorem valueLoop_kept (p : Bytes) {q : Parser} {h : HeaderState} (value : h.ofValue)
    (skipped : Nat) : (valueLoop q h skipped p).Kept q := by
  induction p generalizing q h skipped with
  | nil =>
    cases skipped <;> exact ⟨.refl q, value⟩
  | cons ch rest ih =>
    cases skipped with
    | succ skipped => exact (ih value skipped).behind
    | zero =>
      rw [valueLoop]
      split_ifs
      · exact ⟨.refl q, value⟩
      · exact ⟨.refl q, value⟩
      · exact ⟨by decide, .refl q⟩
      · exact (ih value _).behind
      · obtain ⟨no_abort, bad, kept⟩ := valueChar_kept (q := q) value ch
        cases turned : valueChar q h ch with
        | ok turned' =>
          obtain ⟨q', h'⟩ := turned'
          obtain ⟨kept, value⟩ := kept q' h' turned
          exact (ValueEnd.Kept.trans kept (ih value 0)).behind
        | error e =>
          cases e with
          | none => exact absurd turned no_abort
          | some e => exact ⟨bad e turned, (Parser.Kept.refl q).setHeaderState h⟩

/-- `COUNT_HEADER_SIZE` when what follows fits. -/
theorem counted_fits (r' : Run) {ph : Phase} (path : Path (Phase.Next eof) start r'.callbacks ph)
    (v passed : Nat) {k : Run → Step} (follows : (k (r'.count v)).Fits eof start) :
    (r'.countHeaderSize v passed k).Fits eof start := by
  unfold Run.countHeaderSize
  split_ifs
  · exact ⟨by decide, ph, path⟩
  · exact follows

theorem fieldNext {trailing : Bool} {ph : Phase}
    (here : ph ∈ allowed .sHeaderField trailing) (at_ : Bytes) :
    Phase.Next eof ph (.onHeaderField at_) (.field trailing) := by
  rcases List.mem_cons.mp here with rfl | here
  · exact .moreField
  · exact .field here

theorem valueNext {trailing : Bool} {ph : Phase}
    (here : ph ∈ allowed .sHeaderValue trailing) (at_ : Bytes) :
    Phase.Next eof ph (.onHeaderValue at_) (.value trailing) := by
  rcases List.mem_pair.mp here with rfl | rfl
  · exact .value
  · exact .moreValue

theorem Step.Fits.behind {step : Step} (ok : step.Fits eof start) (passed : Nat) :
    (step.behind passed).Fits eof start := by
  cases step <;> exact ok

section
variable (fits : r.Fits eof start n)
include fits

/-- The name is marked until its colon. -/
theorem sHeaderField_fits (strict : Bool) (p : Bytes) (at_ : r.parser.state = .sHeaderField) :
    (sHeaderField strict r p).Fits eof start := by
  have field : r.parser.headerState.ofField := by
    have data := fits.data
    simpa only [Parser.Data, at_] using data
  obtain ⟨q, passed, looped, kept, field⟩ := fieldLoop_kept strict p field
  have bounded := kept.bounded fits.bounded
  have here : q.state = .sHeaderField := kept.state.trans at_
  obtain ⟨ph, -, path⟩ := fits.path
  unfold sHeaderField
  rw [looped]
  refine counted_fits { r with parser := q } path passed passed ?_
  cases p.drop passed with
  | nil =>
    refine fits.moves .sHeaderField at_ here rfl rfl kept.trailing (fun _ => List.Subset.refl _)
      (.inr rfl) ?_ (bounded.same rfl rfl rfl rfl rfl)
    have counted : (({ r with parser := q } : Run).count passed).parser.state = .sHeaderField :=
      here
    unfold Parser.Data
    rw [counted]
    exact field
  | cons ch rest =>
    dsimp only
    split_ifs
    · refine fits.flushes ((({ r with parser := q } : Run).count passed).updateState
        .sHeaderValueDiscardWs) .sHeaderValueDiscardWs at_ rfl rfl rfl rfl rfl _ ?_
        (.of_free rfl 0) (bounded.same rfl rfl rfl rfl rfl)
      intro ph here at_
      refine ⟨.field r.parser.flags.fTrailing, ?_, fieldNext here at_⟩
      have trailing : ((({ r with parser := q } : Run).count passed).updateState
        .sHeaderValueDiscardWs).parser.flags.fTrailing = r.parser.flags.fTrailing :=
        kept.trailing
      rw [trailing]
      exact List.mem_singleton_self _
    · exact ⟨by decide, ph, path⟩

theorem sHeaderAlmostDone_fits (ch : Byte) (at_ : r.parser.state = .sHeaderAlmostDone) :
    (sHeaderAlmostDone r ch).Fits eof start := by
  unfold sHeaderAlmostDone
  split_ifs
  · exact fits.failed .hpeLfExpected (by decide) rfl 0
  · exact fits.update _ at_ (by decide) (.inl ⟨rfl, rfl⟩) rfl

/-- The value is reported. -/
theorem Run.Fits.reportsValue (at_ : r.parser.state = .sHeaderValue) (r' : Run) (more : Bytes)
    (to_ : r'.parser.state = .sHeaderAlmostDone)
    (trailing : r'.parser.flags.fTrailing = r.parser.flags.fTrailing)
    (marks : r'.marks = r.marks) (callbacks : r'.callbacks = r.callbacks)
    (bounded : r'.parser.Bounded) :
    (r'.callbackData_ .headerValue more).Fits eof start 0 := by
  refine fits.flushes r' .sHeaderAlmostDone at_ rfl to_ rfl marks callbacks more ?_
    (.of_free (by rw [to_]; rfl) 0) bounded
  intro ph here at_
  refine ⟨.value r.parser.flags.fTrailing, ?_, valueNext here at_⟩
  rw [trailing]
  exact List.mem_singleton_self _

theorem Run.Fits.count (v : Nat) (free : r.parser.state.free) : (r.count v).Fits eof start 0 :=
  ⟨fits.path, fits.marked, .of_free (q := (r.count v).parser) free 0,
    fits.bounded.same rfl rfl rfl rfl rfl⟩

/-- The value is marked until the end of its line. -/
theorem sHeaderValue_fits (p : Bytes) (at_ : r.parser.state = .sHeaderValue) :
    (sHeaderValue r p).Fits eof start := by
  have value : r.parser.headerState.ofValue := by
    have data := fits.data
    simpa only [Parser.Data, at_] using data
  have kept := valueLoop_kept p value (q := r.parser) 0
  obtain ⟨ph, -, path⟩ := fits.path
  unfold sHeaderValue
  cases looped : valueLoop r.parser r.parser.headerState 0 p with
  | cr q h passed =>
    rw [looped] at kept
    obtain ⟨kept, -⟩ := kept
    have reported := fits.reportsValue at_
      ({ r with parser := q.setHeaderState h }.updateState .sHeaderAlmostDone) (p.take passed)
      rfl kept.trailing rfl rfl ((kept.bounded fits.bounded).same rfl rfl rfl rfl rfl)
    obtain ⟨ph, -, path⟩ := reported.path
    refine counted_fits _ path passed passed (reported.count passed ?_)
    rw [Run.CALLBACK_keeps]
    rfl
  | lf q h passed =>
    rw [looped] at kept
    obtain ⟨kept, -⟩ := kept
    refine counted_fits ({ r with parser := q }.updateState .sHeaderAlmostDone) path passed
      passed ?_
    have reported := fits.reportsValue at_
      (((({ r with parser := q } : Run).updateState .sHeaderAlmostDone).count
        passed).setHeaderState h) (p.take passed)
      rfl kept.trailing rfl rfl ((kept.bounded fits.bounded).same rfl rfl rfl rfl rfl)
    refine (sHeaderAlmostDone_fits reported lf ?_).behind passed
    rw [Run.CALLBACK_keeps]
    rfl
  | finished q h passed =>
    rw [looped] at kept
    obtain ⟨kept, value⟩ := kept
    have here : q.state = .sHeaderValue := kept.state.trans at_
    refine counted_fits { r with parser := q.setHeaderState h } path passed passed ?_
    refine fits.moves .sHeaderValue at_ here rfl rfl kept.trailing
      (fun _ => List.Subset.refl _) (.inr rfl) ?_
      ((kept.bounded fits.bounded).same rfl rfl rfl rfl rfl)
    have here : ((({ r with parser := q.setHeaderState h } : Run).count passed).parser).state =
      .sHeaderValue := here
    simp only [Parser.Data, here]
    exact value
  | bad e q passed =>
    rw [looped] at kept
    exact ⟨kept.1, ph, path⟩
  | abort =>
    rw [looped] at kept
    exact kept

/-- The first byte of a value sets the flags of its header. -/
theorem sHeaderValueStart_fits (ch : Byte)
    (at_ : s = .sHeaderValueDiscardWs ∨ s = .sHeaderValueStart)
    (here : r.parser.state = s) : (sHeaderValueStart r ch).Fits eof start := by
  have closed : openMark s = none := by rcases at_ with rfl | rfl <;> rfl
  have sub : ∀ b, allowed s b ⊆ allowed .sHeaderValue b := by
    rcases at_ with rfl | rfl <;> decide
  have goes : ∀ q : Parser, q.state = .sHeaderValue → q.headerState.ofValue →
      q.flags.fTrailing = r.parser.flags.fTrailing → q.Bounded →
      ({ r.mark .headerValue with parser := q } : Run).Fits eof start 0 := by
    intro q to_ value trailing bounded
    refine fits.marks .sHeaderValue here (.inl closed) to_ rfl (.inr rfl) rfl
      (r.mark_callbacks .headerValue) ?_ ?_ bounded
    · rw [trailing]
      exact sub _
    · simpa only [Parser.Data, to_] using value
  have parser := r.mark_keeps .headerValue
  have bounded : (r.mark .headerValue).parser.Bounded := by rw [parser]; exact fits.bounded
  have same : (r.mark .headerValue).parser.flags.fTrailing = r.parser.flags.fTrailing := by
    rw [parser]
  obtain ⟨ph, -, path⟩ := fits.path
  rw [← r.mark_callbacks .headerValue] at path
  unfold sHeaderValueStart
  dsimp only
  have number : ∀ {ch : Byte}, ¬ (!isNum ch) = true → ch.toNat - 48 ≤ ullongMax :=
    fun num => (digit_le num).trans (by decide)
  split
  · exact goes _ rfl rfl same (bounded.same rfl rfl rfl rfl rfl)
  · refine goes _ rfl ?_ same (bounded.same rfl rfl rfl rfl rfl)
    dsimp only
    split_ifs <;> rfl
  · next length =>
    split_ifs with num
    · exact ⟨by decide, ph, path⟩
    · exact ⟨by decide, ph, path⟩
    · refine goes _ rfl ?_ same ((bounded.contentLength (number num)).same rfl rfl rfl rfl rfl)
      exact (congrArg HeaderState.ofValue length).trans rfl
  · refine goes _ rfl ?_ same (bounded.same rfl rfl rfl rfl rfl)
    dsimp only
    split_ifs <;> rfl
  · next isToken =>
    refine goes _ rfl ?_ same (bounded.same rfl rfl rfl rfl rfl)
    exact (congrArg HeaderState.ofValue isToken).trans rfl
  · exact goes _ rfl rfl same (bounded.same rfl rfl rfl rfl rfl)

theorem sHeaderValueDiscardWs_fits (ch : Byte)
    (at_ : r.parser.state = .sHeaderValueDiscardWs) :
    (sHeaderValueDiscardWs r ch).Fits eof start := by
  unfold sHeaderValueDiscardWs
  split_ifs
  · exact fits.stays at_ rfl
  · exact fits.update _ at_ (by decide) (.inl ⟨rfl, rfl⟩) rfl
  · exact fits.update _ at_ (by decide) (.inl ⟨rfl, rfl⟩) rfl
  · exact sHeaderValueStart_fits fits ch (.inl rfl) at_

end

theorem newMessage_cases (strict : Bool) (q : Parser) :
    newMessage strict q = .sDead ∨ newMessage strict q = .sStartReq ∨
      newMessage strict q = .sStartRes := by
  unfold newMessage startState
  cases q.type <;> split_ifs <;> simp

theorem newMessage_idle (strict : Bool) (q : Parser) (b : Bool) :
    Phase.idle ∈ allowed (newMessage strict q) b := by
  rcases newMessage_cases strict q with same | same | same <;> rw [same] <;> revert b <;> decide

theorem newMessage_resumed (strict : Bool) (q : Parser) : resumed (newMessage strict q) = none := by
  rcases newMessage_cases strict q with same | same | same <;> rw [same] <;> rfl

theorem newMessage_free (strict : Bool) (q : Parser) : (newMessage strict q).free := by
  rcases newMessage_cases strict q with same | same | same <;> rw [same] <;> rfl

section
variable (fits : r.Fits eof start n)
include fits

/-- The end of a message is reported. -/
theorem Run.Fits.completes (strict : Bool) (q : Parser) (closed : openMark r.parser.state = none)
    (finished : ∀ ph ∈ allowed r.parser.state r.parser.flags.fTrailing, ph ∈ Phase.opens true) :
    ((r.updateState (newMessage strict q)).callbackNotify .onMessageComplete).Fits eof
      start 0 := by
  refine fits.reports rfl ?_ (fits.marked.move closed (newMessage_resumed strict q))
    (.of_free (newMessage_free strict q) 0) (fits.bounded.same rfl rfl rfl rfl rfl)
  intro ph here
  exact ⟨.idle, newMessage_idle strict q _, .done (finished ph here)⟩

theorem sMessageDone_fits (strict : Bool) (at_ : r.parser.state = .sMessageDone) :
    (sMessageDone strict r).Fits eof start := by
  have completed := fits.completes strict r.parser (by rw [at_]; rfl) (by
    rw [at_]
    cases r.parser.flags.fTrailing <;> decide)
  unfold sMessageDone
  dsimp only
  split_ifs with up
  · exact ⟨completed, up, newMessage_cases strict r.parser⟩
  · exact completed

/-- The bodies that a message may have behind its headers. -/
theorem sHeadersDone_fits (strict : Bool) (ch : Byte) (at_ : r.parser.state = .sHeadersDone) :
    (sHeadersDone strict r ch).Fits eof start := by
  have fresh : (r.setNread 0).Fits eof start 0 :=
    ⟨fits.path, fits.marked, .of_free (q := (r.setNread 0).parser) (by
      change r.parser.state.free
      rw [at_]
      rfl) 0, fits.bounded.same rfl rfl rfl rfl rfl⟩
  have here : (r.setNread 0).parser.state = .sHeadersDone := at_
  have completed := fresh.completes strict (r.setNread 0).parser (by rw [here]; rfl) (by
    rw [here]
    cases (r.setNread 0).parser.flags.fTrailing <;> decide)
  have goes : ∀ s', (∀ b, allowed .sHeadersDone b ⊆ allowed s' b) → resumed s' = none →
      ((r.setNread 0).updateState s').parser.Data 0 →
      ((r.setNread 0).updateState s').Fits eof start 0 := by
    intro s' sub closed data
    exact fresh.moves s' here rfl rfl rfl rfl sub (.inl ⟨rfl, closed⟩) data
      (fits.bounded.same rfl rfl rfl rfl rfl)
  unfold sHeadersDone
  dsimp only
  split_ifs with _ up _ chunked zero long eof_
  · exact fits.failed .hpeStrict (by decide) rfl 0
  · exact ⟨completed, up.1, newMessage_cases strict (r.setNread 0).parser⟩
  · exact completed
  · exact goes .sChunkSizeStart (by decide) rfl ⟨chunked, rfl⟩
  · exact completed
  · exact goes .sBodyIdentity (by decide) rfl ⟨zero, long⟩
  · exact completed
  · exact goes .sBodyIdentityEof (by decide) rfl (.of_free rfl 0)

/-- The answer of `on_headers_complete` may skip the body, or end the reading. -/
theorem sHeadersAlmostDone_fits (strict : Bool) (answer : Nat) (ch : Byte)
    (at_ : r.parser.state = .sHeadersAlmostDone) :
    (sHeadersAlmostDone strict answer r ch).Fits eof start := by
  -- the headers are reported
  have reported : ∀ up flags, flags.fTrailing = false → r.parser.flags.fTrailing = false →
      ∀ start' : StartLine, start'.Small → ∀ r' : Run,
      r'.parser = { r.parser with state := .sHeadersDone, upgrade := up, flags := flags } →
      r'.marks = r.marks → r'.callbacks = r.callbacks ++ [.onHeadersComplete start'] →
      r'.Fits eof start 0 := by
    intro up flags off was start' small r' parser marks callbacks
    refine fits.reports callbacks ?_ ?_ (.of_free (by rw [parser]; rfl) 0)
      (fits.bounded.same (by rw [parser]) (by rw [parser]) (by rw [parser]) (by rw [parser])
        (by rw [parser]))
    · rw [at_, was, parser]
      intro ph here
      exact ⟨.complete, by rw [off]; exact List.mem_singleton_self _, .headers here small⟩
    · rw [parser, marks]
      exact fits.marked.move (by rw [at_]; rfl) rfl
  unfold sHeadersAlmostDone
  split_ifs with _ trailing both
  · exact fits.failed .hpeStrict (by decide) rfl 0
  · refine sMessageDone_fits (n := 0) ?_ strict rfl
    refine fits.goes rfl ?_ (fits.marked.move (by rw [at_]; rfl) rfl) (.of_free rfl 0)
      (fits.bounded.same rfl rfl rfl rfl rfl)
    rw [at_]
    change allowed .sHeadersAlmostDone r.parser.flags.fTrailing ⊆
      allowed .sMessageDone r.parser.flags.fTrailing
    rw [trailing]
    decide
  · exact fits.failed .hpeUnexpectedContentLength (by decide) rfl 0
  · have off : r.parser.flags.fTrailing = false := by simpa using trailing
    have small : r.parser.startLine.Small :=
      ⟨fits.bounded.major, fits.bounded.minor, fits.bounded.status⟩
    dsimp only
    split
    · refine sHeadersDone_fits (n := 0) ?_ strict ch rfl
      exact reported _ _ off off _ small _ rfl rfl rfl
    · refine sHeadersDone_fits (n := 0) ?_ strict ch rfl
      exact reported _ { r.parser.flags with fSkipbody := true } off off _ small _ rfl rfl rfl
    · refine sHeadersDone_fits (n := 0) ?_ strict ch rfl
      exact reported _ { r.parser.flags with fSkipbody := true } off off _ small _ rfl rfl rfl
    · obtain ⟨ph, here, path⟩ := fits.path
      rw [at_, off] at here
      exact ⟨by decide, .complete, path.snoc (.headers here small)⟩

/-- A header begins, or the empty line does. -/
theorem sHeaderFieldStart_fits (strict : Bool) (answer : Nat) (ch : Byte)
    (at_ : r.parser.state = .sHeaderFieldStart) :
    (sHeaderFieldStart strict answer r ch).Fits eof start := by
  -- a name begins
  have begins : ∀ h : HeaderState, h.ofField →
      ((((r.mark .headerField).setIndex 0).updateState .sHeaderField).setHeaderState h).Fits eof
        start 0 := by
    intro h field
    refine fits.marks .sHeaderField at_ (.inl rfl) rfl rfl (.inr rfl) rfl
      (r.mark_callbacks .headerField) ?_ field ?_
    · change allowed .sHeaderFieldStart r.parser.flags.fTrailing ⊆
        allowed .sHeaderField (r.mark .headerField).parser.flags.fTrailing
      rw [r.mark_keeps]
      cases r.parser.flags.fTrailing <;> decide
    · refine fits.bounded.same ?_ ?_ ?_ ?_ ?_ <;>
        simp only [Run.updateState, Run.setIndex, Run.setHeaderState, r.mark_keeps]
  unfold sHeaderFieldStart
  dsimp only
  split_ifs
  · exact fits.update _ at_ (by decide) (.inl ⟨rfl, rfl⟩) rfl
  · exact sHeadersAlmostDone_fits
      (fits.update .sHeadersAlmostDone at_ (by decide) (.inl ⟨rfl, rfl⟩) rfl) strict answer
      ch rfl
  · exact fits.failed .hpeInvalidHeaderToken (by decide) rfl 0
  all_goals exact begins _ rfl

theorem sHeaderValueLws_fits (strict : Bool) (answer : Nat) (ch : Byte)
    (at_ : r.parser.state = .sHeaderValueLws) :
    (sHeaderValueLws strict answer r ch).Fits eof start := by
  unfold sHeaderValueLws
  split_ifs
  · exact sHeaderValueStart_fits
      (fits.update .sHeaderValueStart at_ (by decide) (.inl ⟨rfl, rfl⟩) rfl) ch (.inr rfl)
      rfl
  · refine sHeaderFieldStart_fits (n := 0) ?_ strict answer ch rfl
    exact fits.moves .sHeaderFieldStart at_ rfl rfl rfl (Flags.found_trailing _ _) (by decide)
      (.inl ⟨rfl, rfl⟩) (.of_free rfl 0) (fits.bounded.same rfl rfl rfl rfl rfl)

/-- A line that goes on, or the end of an empty value. -/
theorem sHeaderValueDiscardLws_fits (strict : Bool) (answer : Nat) (ch : Byte)
    (at_ : r.parser.state = .sHeaderValueDiscardLws) :
    (sHeaderValueDiscardLws strict answer r ch).Fits eof start := by
  unfold sHeaderValueDiscardLws
  split_ifs
  · exact fits.update _ at_ (by decide) (.inl ⟨rfl, rfl⟩) rfl
  · refine sHeaderFieldStart_fits (n := 0) ?_ strict answer ch (by
      rw [Run.callbackData, Run.CALLBACK_keeps]
      rfl)
    -- the empty value
    have unset : r.marks .headerValue = none := fits.marked.none_set (by rw [at_]; rfl) _
    have reported : ((((r.setFlags (r.parser.flags.found r.parser.headerState)).mark
        .headerValue).updateState .sHeaderFieldStart).callbackData .headerValue) =
        { parser := { r.parser with
            state := .sHeaderFieldStart
            flags := r.parser.flags.found r.parser.headerState }
          marks := r.marks
          callbacks := r.callbacks ++ [.onHeaderValue []] } := by
      have back : Function.update (Function.update r.marks .headerValue (some []))
          .headerValue none = r.marks := by
        rw [Function.update_idem, ← unset, Function.update_eq_self]
      simp only [Run.callbackData, Run.callbackData_, Run.updateState, Run.mark, Run.setFlags,
        unset, Function.update_self, back]
      rfl
    rw [reported]
    refine fits.reports rfl ?_ (fits.marked.move (by rw [at_]; rfl) rfl) (.of_free rfl 0)
      (fits.bounded.same rfl rfl rfl rfl rfl)
    rw [at_]
    intro ph here
    obtain rfl := List.mem_singleton.mp here
    refine ⟨.value r.parser.flags.fTrailing, ?_, .value⟩
    dsimp only
    rw [Flags.found_trailing]
    cases r.parser.flags.fTrailing <;> decide

end

end HttpLib
