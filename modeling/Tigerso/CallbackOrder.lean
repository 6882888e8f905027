import Tigerso.BodySteps
import Tigerso.RequestRouting
import Mathlib.Data.List.Perm.Subperm

/-!
# What is reported over all the buffers of a connection

No assertion fails, and what is reported keeps to the order of the callbacks. So `http_parser`
has the two properties that the code above it relies on.
-/

open SystemCalls LabelledPaths

namespace HttpLib

variable {eof : Prop} {start : Phase} {r : Run}

/-- What the loop makes of a run that fits. -/
def Ending.Fits (eof : Prop) (start : Phase) : Ending → Prop
  | .finished r => r.Fits eof start 0
  | .returned r _ => r.Fits eof start 0 ∧ r.parser.Switched ∨
      r.parser.httpErrno ≠ .hpeOk ∧ ∃ ph, Path (Phase.Next eof) start r.callbacks ph
  | .aborted => False

theorem setErrno_bad (q : Parser) {e : Errno} (bad : e ≠ .hpeOk) :
    (q.setErrno e).httpErrno ≠ .hpeOk := bad

theorem Parser.Data.nread {q : Parser} (data : q.Data 0) (n k : Nat)
    (other : q.state ≠ .sChunkSizeStart) : { q with nread := k }.Data n := by
  revert data other
  unfold Parser.Data
  cases q.state <;> simp

/-- A byte is counted. -/
theorem Run.Fits.counts (fits : r.Fits eof start 0) (b : Bool) :
    (if b then r.count 1 else r).Fits eof start
      (if b ∧ r.parser.state = .sChunkSizeStart then 1 else 0) := by
  cases b with
  | false => simpa using fits
  | true =>
    refine ⟨fits.path, fits.marked, ?_, fits.bounded.same rfl rfl rfl rfl rfl⟩
    by_cases at_ : r.parser.state = .sChunkSizeStart
    · have data := fits.data
      simp only [Parser.Data, at_] at data
      have here : (r.count 1).parser.state = .sChunkSizeStart := at_
      simp only [at_, and_self, if_true, Parser.Data, here]
      refine ⟨data.1, ?_⟩
      simp [Run.count, Run.setNread, data.2]
    · have data := fits.data.nread 0 ((r.parser.nread + 1) % 2 ^ 32) at_
      rw [if_neg (fun both => at_ both.2)]
      exact data

/-- The phase of a run is kept from turn to turn. -/
theorem loop_fits (strict : Bool) (answer : Nat) (p : Bytes) (passed : Nat)
    (fits : r.Fits eof start 0) : (loop strict answer passed r p).Fits eof start := by
  induction p generalizing passed r with
  | nil => cases passed <;> exact fits
  | cons ch rest ih =>
    cases passed with
    | succ passed => exact ih passed fits
    | zero =>
      have counts := fits.counts (parsingHeader r.parser.state)
      have same : (if parsingHeader r.parser.state then r.count 1 else r).parser.state =
          r.parser.state := by
        split_ifs <;> rfl
      rw [loop]
      generalize (if parsingHeader r.parser.state then r.count 1 else r) = counted at counts same ⊢
      split_ifs
      · obtain ⟨ph, -, path⟩ := counts.path
        exact .inr ⟨setErrno_bad _ (by decide), ph, path⟩
      have turn : (step strict answer counted ch rest).Fits eof start := by
        refine step_fits counts strict answer ch rest fun at_ => if_pos ?_
        have here : r.parser.state = .sChunkSizeStart := same.symm.trans at_
        rw [here]
        exact ⟨rfl, rfl⟩
      cases turned : step strict answer counted ch rest with
      | next r passed =>
        rw [turned] at turn
        exact ih passed (turn.advance _)
      | error e r passed =>
        rw [turned] at turn
        exact .inr turn
      | leave r passed =>
        rw [turned] at turn
        exact .inl turn
      | abort =>
        rw [turned] at turn
        exact turn

theorem callbackData_none {m : Mark} (unset : r.marks m = none) : r.callbackData m = r := by
  simp only [Run.callbackData, Run.callbackData_, unset]

theorem finish_none (unset : ∀ m, r.marks m = none) : r.finish = some r := by
  simp only [Run.finish, Mark.all, List.filter_cons, List.filter_nil, unset, Option.isSome_none,
    Bool.false_eq_true, if_false, List.length_nil, Nat.zero_le, if_true, List.foldl_cons,
    List.foldl_nil, callbackData_none]

/-- The assertion at the end of a buffer holds: no other mark is set. -/
theorem finish_some {m : Mark} (others : ∀ k, k ≠ m → r.marks k = none) :
    r.finish = some (r.callbackData m) := by
  have after : ∀ k, k ≠ m → (r.callbackData m).marks k = none := by
    intro k other
    unfold Run.callbackData Run.callbackData_
    cases r.marks m with
    | none => exact others k other
    | some at_ => simpa [other] using others k other
  have one : (Mark.all.filter fun k => (r.marks k).isSome).length ≤ 1 := by
    have sub : Mark.all.filter (fun k => (r.marks k).isSome) ⊆ [m] := by
      intro k inside
      by_contra other
      have other : k ≠ m := fun same => other (List.mem_singleton.mpr same)
      have set := (List.mem_filter.mp inside).2
      rw [others k other] at set
      cases set
    exact (((by decide : Mark.all.Nodup).filter _).subperm sub).length_le
  rw [Run.finish, if_pos one]
  congr 1
  cases m <;>
    simp only [Mark.all, List.foldl_cons, List.foldl_nil, callbackData_none, others, after, ne_eq,
      reduceCtorEq, not_false_eq_true]

/-- What is marked at the end of a buffer may be reported there. -/
theorem leftover_next {s : State} {b : Bool} {m : Mark} (opens : openMark s = some m) {ph : Phase}
    (here : ph ∈ allowed s b) (at_ : Bytes) :
    ∃ ph' ∈ allowed s b, Phase.Next eof ph (m.callback at_) ph' := by
  have url : s.ofUrl → ∃ ph' ∈ allowed s b, Phase.Next eof ph (.onUrl at_) ph' := by
    intro url
    rw [State.allowed_ofUrl url] at here ⊢
    cases b with
    | true => exact absurd here List.not_mem_nil
    | false =>
      rcases List.mem_pair.mp here with rfl | rfl
      · exact ⟨.url, by decide, .url⟩
      · exact ⟨.url, by decide, .moreUrl⟩
  have complete : allowed s b ⊆ [.complete] →
      ∃ ph' ∈ allowed s b, Phase.Next eof ph (.onBody at_) ph' := by
    intro sub
    obtain rfl := List.mem_singleton.mp (sub here)
    exact ⟨.complete, here, .body⟩
  cases s <;> cases opens
  case sHeaderField => exact ⟨.field b, List.mem_cons_self, fieldNext here at_⟩
  case sHeaderValue => exact ⟨.value b, by cases b <;> decide, valueNext here at_⟩
  case sResStatus =>
    cases b with
    | true => exact absurd here List.not_mem_nil
    | false =>
      rcases List.mem_pair.mp here with rfl | rfl
      · exact ⟨.status, by decide, .status⟩
      · exact ⟨.status, by decide, .moreStatus⟩
  case sBodyIdentityEof =>
    cases b with
    | true => exact absurd here List.not_mem_nil
    | false =>
      rcases List.mem_pair.mp here with rfl | rfl
      · exact ⟨.complete, by decide, .body⟩
      · exact ⟨.ended, by decide, .endedBody⟩
  all_goals first | exact url rfl | exact complete (by cases b <;> decide)

theorem Run.Fits.finish (fits : r.Fits eof start 0) :
    ∃ r', r.finish = some r' ∧ r'.parser = r.parser ∧
      ∃ ph ∈ allowed r.parser.state r.parser.flags.fTrailing,
        Path (Phase.Next eof) start r'.callbacks ph := by
  obtain ⟨ph, here, path⟩ := fits.path
  cases opens : openMark r.parser.state with
  | none => exact ⟨r, finish_none (fits.marked.none_set opens), rfl, ph, here, path⟩
  | some m =>
    refine ⟨r.callbackData m, finish_some ?_, r.CALLBACK_keeps m [], ?_⟩
    · intro k other
      exact fits.marked.other_none (.inr opens) other
    · unfold Run.callbackData Run.callbackData_
      cases r.marks m with
      | none => exact ⟨ph, here, path⟩
      | some at_ =>
        obtain ⟨ph', there, next⟩ := leftover_next opens here (at_ ++ [])
        exact ⟨ph', there, path.snoc next⟩

/-- A parser that is at `ph`, when no error was found yet. -/
structure Parser.Fits (q : Parser) (ph : Phase) : Prop where
  phase : ph ∈ allowed q.state q.flags.fTrailing
  data : q.Data 0
  bounded : q.Bounded

theorem Parser.Fits.init (t : ParserType) : (httpParserInit t).Fits .idle where
  phase := by cases t <;> decide
  data := by cases t <;> exact .of_free rfl 0
  bounded := ⟨Nat.zero_le _, Nat.zero_le _, Nat.zero_le _, Nat.zero_le _, rfl⟩

theorem Parser.Fits.started {q : Parser} {ph : Phase} (fits : q.Fits ph) :
    (Run.start q).Fits eof ph 0 where
  path := ⟨ph, fits.phase, .done ph⟩
  marked := by
    constructor
    · intro m set
      have resumes : resumed q.state = some m := by
        by_contra other
        exact set (if_neg other)
      exact openMark_of_resumed resumes
    · intro m resumes
      have set : (Run.start q).marks m = some [] := if_pos resumes
      rw [set]
      exact Option.some_ne_none _
  data := fits.data
  bounded := fits.bounded

/-- The end of the stream is reported. -/
theorem eof_fits (strict : Bool) (answer : Nat) {q : Parser} {ph : Phase} (fits : q.Fits ph)
    (here : eof) :
    ∃ q' e ph', httpParserExecute strict answer q [] = some (q', e) ∧
      Path (Phase.Next eof) ph e.callbacks ph' ∧ (q'.httpErrno ≠ .hpeOk ∨ q'.Fits ph') := by
  unfold httpParserExecute
  rw [if_neg (not_not.mpr fits.bounded.ok), if_pos rfl]
  split
  · next at_ =>
    have phase := fits.phase
    rw [at_] at phase
    cases trailing : q.flags.fTrailing with
    | true =>
      rw [trailing] at phase
      exact absurd phase List.not_mem_nil
    | false =>
      refine ⟨q, _, .ended, rfl, ?_, .inr ⟨?_, fits.data, fits.bounded⟩⟩
      · rw [trailing] at phase
        rcases List.mem_pair.mp phase with rfl | rfl
        · exact .step (.ended here) (.done _)
        · exact .step .endedAgain (.done _)
      · rw [at_, trailing]
        decide
  all_goals first
    | exact ⟨q, _, ph, rfl, .done ph, .inr fits⟩
    | exact ⟨_, _, ph, rfl, .done ph, .inl (setErrno_bad _ (by decide))⟩

/-- One call of `http_parser_execute`: it returns, and what it reports is in order. -/
theorem execute_fits (strict : Bool) (answer : Nat) {q : Parser} {ph : Phase} (fits : q.Fits ph)
    (data : Bytes) (eof_ : data = [] → eof) :
    ∃ q' e ph', httpParserExecute strict answer q data = some (q', e) ∧
      Path (Phase.Next eof) ph e.callbacks ph' ∧ (q'.httpErrno ≠ .hpeOk ∨ q'.Fits ph') := by
  by_cases empty : data = []
  · subst empty
    exact eof_fits strict answer fits (eof_ rfl)
  have run : (loop strict answer 0 (.start q) data).Fits eof ph :=
    loop_fits strict answer data 0 fits.started
  unfold httpParserExecute
  rw [if_neg (not_not.mpr fits.bounded.ok), if_neg empty]
  cases ended : loop strict answer 0 (.start q) data with
  | finished r =>
    rw [ended] at run
    obtain ⟨r', finished, parser, ph', there, path⟩ := run.finish
    refine ⟨r'.parser, ⟨r'.callbacks, data.length⟩, ph', ?_, path, .inr ?_⟩
    · simp only [finished, Option.bind_eq_bind, Option.bind_some]
    · rw [parser]
      exact ⟨there, run.data, run.bounded⟩
  | returned r unread =>
    rw [ended] at run
    rcases run with ⟨run, -⟩ | ⟨bad, ph', path⟩
    · obtain ⟨ph', there, path⟩ := run.path
      exact ⟨r.parser, _, ph', rfl, path, .inr ⟨there, run.data, run.bounded⟩⟩
    · exact ⟨r.parser, _, ph', rfl, path, .inl bad⟩
  | aborted =>
    rw [ended] at run
    exact run.elim

/-- One buffer after the other, each with what `on_headers_complete` answers in it. -/
def feed (strict : Bool) (q : Parser) : List (Bytes × Nat) → Option (Parser × List Callback)
  | [] => some (q, [])
  | (data, answer) :: rest => do
    let (q, e) ← httpParserExecute strict answer q data
    let (q, more) ← feed strict q rest
    some (q, e.callbacks ++ more)

/-- After an error nothing is reported. -/
theorem feed_failed (strict : Bool) {q : Parser} (bad : q.httpErrno ≠ .hpeOk)
    (buffers : List (Bytes × Nat)) : feed strict q buffers = some (q, []) := by
  induction buffers with
  | nil => rfl
  | cons buffer rest ih =>
    have nothing : httpParserExecute strict buffer.2 q buffer.1 = some (q, ⟨[], 0⟩) := if_pos bad
    simp only [feed, nothing, Option.bind_eq_bind, Option.bind_some, ih, List.append_nil]

theorem feed_fits (strict : Bool) {q : Parser} {ph : Phase} (fits : q.Fits ph)
    (buffers : List (Bytes × Nat)) (eof_ : ∀ buffer ∈ buffers, buffer.1 = [] → eof) :
    ∃ q' callbacks ph', feed strict q buffers = some (q', callbacks) ∧
      Path (Phase.Next eof) ph callbacks ph' ∧ (q'.httpErrno ≠ .hpeOk ∨ q'.Fits ph') := by
  induction buffers generalizing q ph with
  | nil => exact ⟨q, [], ph, rfl, .done ph, .inr fits⟩
  | cons buffer rest ih =>
    obtain ⟨q', e, ph', executed, path, after⟩ :=
      execute_fits strict buffer.2 fits buffer.1 (eof_ buffer List.mem_cons_self)
    rcases after with bad | fits
    · refine ⟨q', e.callbacks, ph', ?_, path, .inl bad⟩
      simp only [feed, executed, feed_failed strict bad, Option.bind_eq_bind, Option.bind_some,
        List.append_nil]
    · obtain ⟨q'', more, ph'', fed, path', after⟩ :=
        ih fits fun buffer inside => eof_ buffer (List.mem_cons_of_mem _ inside)
      refine ⟨q'', e.callbacks ++ more, ph'', ?_, path.append path', after⟩
      simp only [feed, executed, fed, Option.bind_eq_bind, Option.bind_some]

/-- No assertion of `http_parser_execute` fails and no string is read behind its end, over any
buffers; the numbers that the parser holds are those that were written. -/
theorem feed_safe (strict : Bool) (t : ParserType) (buffers : List (Bytes × Nat)) :
    ∃ q callbacks, feed strict (httpParserInit t) buffers = some (q, callbacks) ∧
      (q.httpErrno = .hpeOk → q.Bounded) := by
  have always : ∀ buffer ∈ buffers, buffer.1 = [] → True := fun _ _ _ => trivial
  obtain ⟨q, callbacks, ph, fed, -, after⟩ := feed_fits strict (.init t) buffers always
  exact ⟨q, callbacks, fed, fun ok => (after.resolve_left (not_not.mpr ok)).bounded⟩

/-- Over any buffers the callbacks keep to their order, and end where the state says. Without an
empty buffer no message is complete before its body is over. -/
theorem feed_order (strict : Bool) (t : ParserType) (buffers : List (Bytes × Nat)) :
    ∃ q callbacks ph, feed strict (httpParserInit t) buffers = some (q, callbacks) ∧
      Path (Phase.Next (∃ buffer ∈ buffers, buffer.1 = [])) .idle callbacks ph ∧
      (q.httpErrno = .hpeOk → ph ∈ allowed q.state q.flags.fTrailing) := by
  have given : ∀ buffer ∈ buffers, buffer.1 = [] → ∃ buffer ∈ buffers, buffer.1 = [] :=
    fun buffer inside empty => ⟨buffer, inside, empty⟩
  obtain ⟨q, callbacks, ph, fed, path, after⟩ := feed_fits strict (.init t) buffers given
  exact ⟨q, callbacks, ph, fed, path, fun ok => (after.resolve_left (not_not.mpr ok)).phase⟩

def parserType : HttpRole → ParserType
  | .httpRoleRequest => .httpRequest
  | .httpRoleResponse => .httpResponse

/-- The buffers of a `ParserLib` as they are fed; `true` is the answer 1. -/
def answers (fed : List (Bytes × Bool)) : List (Bytes × Nat) :=
  fed.map fun buffer => (buffer.1, buffer.2.toNat)

def fedParser (strict : Bool) (role : HttpRole) (fed : List (Bytes × Bool)) : Option Parser :=
  (feed strict (httpParserInit (parserType role)) (answers fed)).map (·.1)

/-- `http_parser` as the code above it sees it. -/
def library (strict : Bool) : ParserLib := fun role fed =>
  match fed.getLast? with
  | none => ⟨[], 0⟩
  | some (data, answer) =>
    match fedParser strict role fed.dropLast with
    | none => ⟨[], 0⟩
    | some q => ((httpParserExecute strict answer.toNat q data).map (·.2)).getD ⟨[], 0⟩

/-- Buffers are fed one after another. -/
theorem feed_append (strict : Bool) (q : Parser) (buffers more : List (Bytes × Nat)) :
    feed strict q (buffers ++ more) =
      (feed strict q buffers).bind fun (q, callbacks) =>
        (feed strict q more).map fun (q, rest) => (q, callbacks ++ rest) := by
  induction buffers generalizing q with
  | nil => simp [feed]
  | cons buffer rest ih =>
    simp only [List.cons_append, feed, ih, Option.bind_eq_bind]
    cases httpParserExecute strict buffer.2 q buffer.1 with
    | none => rfl
    | some executed =>
      simp only [Option.bind_some]
      cases feed strict executed.1 rest with
      | none => rfl
      | some fed =>
        simp only [Option.bind_some]
        cases feed strict fed.1 more with
        | none => rfl
        | some last =>
          simp only [Option.map_some, Option.bind_some, List.append_assoc]

/-- What the program hears is what the parser reports. -/
theorem library_callbacks (strict : Bool) (role : HttpRole) (fed : List (Bytes × Bool)) :
    ∃ q, feed strict (httpParserInit (parserType role)) (answers fed) =
      some (q, (library strict).callbacks role fed) := by
  induction fed using List.reverseRecOn with
  | nil => exact ⟨_, rfl⟩
  | append_singleton fed buffer ih =>
    obtain ⟨q, before⟩ := ih
    obtain ⟨q', callbacks, all, -⟩ :=
      feed_safe strict (parserType role) (answers (fed ++ [buffer]))
    have parts : answers (fed ++ [buffer]) = answers fed ++ [(buffer.1, buffer.2.toNat)] := by
      rw [answers, List.map_append]
      rfl
    rw [parts, feed_append, before, Option.bind_some] at all
    cases executed : httpParserExecute strict buffer.2.toNat q buffer.1 with
    | none => simp [feed, executed] at all
    | some result =>
      have one : feed strict q [(buffer.1, buffer.2.toNat)] =
          some (result.1, result.2.callbacks) := by
        simp [feed, executed]
      have here : fedParser strict role fed = some q := by
        rw [fedParser, before]
        rfl
      have reported : (library strict role (fed ++ [buffer])).callbacks = result.2.callbacks := by
        simp [library, here, executed]
      refine ⟨result.1, ?_⟩
      rw [parts, feed_append, before, ParserLib.callbacks_append, reported]
      simp only [Option.bind_some, one, Option.map_some]

theorem library_path (strict : Bool) (role : HttpRole) (fed : List (Bytes × Bool)) :
    ∃ ph, Path (Phase.Next (∃ buffer ∈ answers fed, buffer.1 = [])) .idle
      ((library strict).callbacks role fed) ph := by
  obtain ⟨q, callbacks, ph, fed_, path, -⟩ := feed_order strict (parserType role) (answers fed)
  obtain ⟨q', same⟩ := library_callbacks strict role fed
  obtain ⟨-, rfl⟩ := Prod.mk.inj (Option.some.inj (fed_.symm.trans same))
  exact ⟨ph, path⟩

theorem nameFirst_of {pre post : List Callback} {at_ : Bytes}
    (clear : ∀ c ∈ pre, ¬ ∃ at_, c = .onHeaderValue at_) :
    NameFirst (pre ++ .onHeaderField at_ :: post) := by
  induction pre with
  | nil => trivial
  | cons c pre ih =>
    have ih := ih fun c inside => clear c (List.mem_cons_of_mem _ inside)
    cases c with
    | onHeaderValue at_ => exact absurd ⟨at_, rfl⟩ (clear _ List.mem_cons_self)
    | onHeaderField at_ => trivial
    | _ => exact ih

theorem nameFirst_none {callbacks : List Callback}
    (clear : ∀ c ∈ callbacks, ¬ ∃ at_, c = .onHeaderValue at_) : NameFirst callbacks := by
  induction callbacks with
  | nil => trivial
  | cons c rest ih =>
    have ih := ih fun c inside => clear c (List.mem_cons_of_mem _ inside)
    cases c with
    | onHeaderValue at_ => exact absurd ⟨at_, rfl⟩ (clear _ List.mem_cons_self)
    | onHeaderField at_ => trivial
    | _ => exact ih

def Phase.unnamed : Phase → Bool
  | .field _ => false
  | .value _ => false
  | _ => true

theorem Phase.Next.unnamed {ph ph' : Phase} {c : Callback} (next : Phase.Next eof ph c ph')
    (before : ph.unnamed) : (∃ at_, c = .onHeaderField at_) ∨ ph'.unnamed := by
  cases next <;> first | exact .inl ⟨_, rfl⟩ | exact .inr rfl | cases before

theorem Phase.Next.no_value {ph ph' : Phase} {c : Callback} (next : Phase.Next eof ph c ph')
    (before : ph.unnamed) : ¬ ∃ at_, c = .onHeaderValue at_ := by
  rintro ⟨at_, rfl⟩
  cases next <;> cases before

/-- `http_parser` reports no value of a header ahead of the first name. -/
theorem library_namesFirst (strict : Bool) : (library strict).NamesFirst := by
  intro role fed
  obtain ⟨ph, path⟩ := library_path strict role fed
  by_cases valued : ∃ c ∈ (library strict).callbacks role fed, ∃ at_, c = .onHeaderValue at_
  · obtain ⟨c, inside, value⟩ := valued
    obtain ⟨pre, first, post, same, ⟨at_, rfl⟩, clear⟩ :=
      path.early_first (fun ph => ph.unnamed) _ _ rfl (fun _ _ _ before next => next.unnamed before)
        (fun _ _ _ before next => next.no_value before) inside value
    rw [same]
    exact nameFirst_of clear
  · exact nameFirst_none fun c inside value => valued ⟨c, inside, value⟩

/-- Nothing of them begins a message or ends headers. -/
def Plain (callbacks : List Callback) : Prop :=
  ∀ c ∈ callbacks, c ≠ .onMessageBegin ∧ ∀ start, c ≠ .onHeadersComplete start

/-- Of the message that was begun last, the end of the headers was not reported. -/
def Begun (callbacks : List Callback) : Prop :=
  ∃ earlier since, callbacks = earlier ++ .onMessageBegin :: since ∧ Plain since

/-- It was reported once. -/
def Headed (callbacks : List Callback) : Prop :=
  ∃ before start since, callbacks = before ++ .onHeadersComplete start :: since ∧
    Begun before ∧ Plain since

theorem Plain.snoc {callbacks : List Callback} {c : Callback} (plain : Plain callbacks)
    (first : c ≠ .onMessageBegin) (other : ∀ start, c ≠ .onHeadersComplete start) :
    Plain (callbacks ++ [c]) := by
  intro c' inside
  rcases List.mem_append.mp inside with before | last
  · exact plain c' before
  · obtain rfl := List.mem_singleton.mp last
    exact ⟨first, other⟩

theorem Begun.snoc {callbacks : List Callback} {c : Callback} (begun : Begun callbacks)
    (first : c ≠ .onMessageBegin) (other : ∀ start, c ≠ .onHeadersComplete start) :
    Begun (callbacks ++ [c]) := by
  obtain ⟨earlier, since, rfl, plain⟩ := begun
  exact ⟨earlier, since ++ [c], List.append_assoc _ _ _, plain.snoc first other⟩

theorem Headed.snoc {callbacks : List Callback} {c : Callback} (headed : Headed callbacks)
    (first : c ≠ .onMessageBegin) (other : ∀ start, c ≠ .onHeadersComplete start) :
    Headed (callbacks ++ [c]) := by
  obtain ⟨before, start, since, rfl, begun, plain⟩ := headed
  exact ⟨before, start, since ++ [c], List.append_assoc _ _ _, begun, plain.snoc first other⟩

/-- What a phase says of the message that was begun last. -/
def Phase.Shows (callbacks : List Callback) : Phase → Prop
  | .idle => True
  | .begun => Begun callbacks
  | .url => Begun callbacks
  | .status => Begun callbacks
  | .field false => Begun callbacks
  | .field true => Headed callbacks
  | .value false => Begun callbacks
  | .value true => Headed callbacks
  | .complete => Headed callbacks
  | .ended => Headed callbacks

theorem Phase.opens_shows {ph : Phase} {trailer : Bool} {callbacks : List Callback}
    (here : ph ∈ opens trailer) (shown : ph.Shows callbacks) :
    (Phase.value trailer).Shows callbacks := by
  cases trailer with
  | true =>
    rcases List.mem_pair.mp here with rfl | rfl
    · exact shown
    · exact shown
  | false =>
    simp only [opens, List.mem_cons, List.not_mem_nil, or_false] at here
    rcases here with rfl | rfl | rfl | rfl
    · exact shown
    · exact shown
    · exact shown
    · exact shown

/-- A phase says what has been reported so far of its message. -/
theorem Phase.Next.shows {ph ph' : Phase} {c : Callback} {callbacks : List Callback}
    (next : Phase.Next eof ph c ph') (shown : ph.Shows callbacks) :
    ph'.Shows (callbacks ++ [c]) := by
  have begins : Begun (callbacks ++ [.onMessageBegin]) := ⟨callbacks, [], rfl, nofun⟩
  cases next with
  | begin_ => exact begins
  | again => exact begins
  | url => exact shown.snoc nofun nofun
  | moreUrl => exact shown.snoc nofun nofun
  | status => exact shown.snoc nofun nofun
  | moreStatus => exact shown.snoc nofun nofun
  | @field _ trailer _ here =>
    have shown := opens_shows here shown
    cases trailer with
    | false => exact Begun.snoc shown nofun nofun
    | true => exact Headed.snoc shown nofun nofun
  | @moreField trailer _ =>
    cases trailer with
    | false => exact Begun.snoc shown nofun nofun
    | true => exact Headed.snoc shown nofun nofun
  | @value trailer _ =>
    cases trailer with
    | false => exact Begun.snoc shown nofun nofun
    | true => exact Headed.snoc shown nofun nofun
  | @moreValue trailer _ =>
    cases trailer with
    | false => exact Begun.snoc shown nofun nofun
    | true => exact Headed.snoc shown nofun nofun
  | headers here => exact ⟨callbacks, _, [], rfl, opens_shows here shown, nofun⟩
  | body => exact shown.snoc nofun nofun
  | done => trivial
  | ended => exact shown.snoc nofun nofun
  | endedBody => exact shown.snoc nofun nofun
  | endedAgain => exact shown.snoc nofun nofun

theorem Phase.Next.headed {ph ph' : Phase} {callbacks : List Callback}
    (next : Phase.Next eof ph .onMessageComplete ph') (shown : ph.Shows callbacks) :
    Headed callbacks := by
  cases next with
  | done here => exact opens_shows here shown
  | ended => exact shown
  | endedAgain => exact shown

/-- Before every end of a message `http_parser` reports the end of the headers of this message, and
once. The proxy relies on less than this. -/
theorem library_headersReported (strict : Bool) :
    (∀ role fed pre post,
      (library strict).callbacks role fed = pre ++ .onMessageComplete :: post → Headed pre) ∧
      HttpProxyConnection.HeadersReported (library strict) := by
  have headed (role : HttpRole) (fed : List (Bytes × Bool)) (pre post : List Callback)
      (same : (library strict).callbacks role fed = pre ++ .onMessageComplete :: post) :
      Headed pre := by
    obtain ⟨ph, path⟩ := library_path strict role fed
    rw [same] at path
    obtain ⟨ph', ph'', before, next⟩ := path.split
    exact next.headed (before.shows (fun callbacks ph => ph.Shows callbacks) trivial
      fun _ _ _ _ shown next => next.shows shown)
  refine ⟨headed, fun fed complete => ?_⟩
  obtain ⟨pre, post, same⟩ := List.append_of_mem complete
  obtain ⟨before, start, since, rfl, -, -⟩ := headed _ fed pre post same
  refine ⟨start, ?_⟩
  rw [same, List.append_assoc]
  exact List.mem_append_right _ List.mem_cons_self

end HttpLib
