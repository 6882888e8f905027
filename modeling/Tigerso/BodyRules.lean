import Tigerso.CutBuffers

/-!
# Bodies over any cuts

A framing of bodies is given by what a parser that is inside of a body awaits: the bytes to come,
and the part of the body in them. When every turn takes some of these bytes, the body is reported
whole and the message is complete behind its last byte, however the bytes are cut into buffers.
-/

open SystemCalls

namespace HttpLib

/-- Behind `before`, nothing but pieces of the body was reported; `body` is to come of the `whole`.
-/
structure Run.InBody (before : List Callback) (whole body : Bytes) (r : Run) : Prop where
  single : Single r.marks .body
  closed : openMark r.parser.state = none → r.marks .body = none
  reported : ∃ bodies : List Bytes, r.callbacks = before ++ bodies.map .onBody ∧
    bodies.flatten ++ (r.marks .body).getD [] ++ body = whole

/-- The body was reported, and the parser is where the next message starts. -/
structure Run.BodyOver (strict : Bool) (before : List Callback) (whole : Bytes) (start : State)
    (r : Run) : Prop where
  unset : ∀ m, r.marks m = none
  reported : ∃ bodies : List Bytes,
    r.callbacks = before ++ bodies.map .onBody ++ [.onMessageComplete] ∧
    bodies.flatten = whole
  state : r.parser.state = start
  next : newMessage strict r.parser = start
  ok : r.parser.httpErrno = .hpeOk

variable {strict : Bool} {start : State} {Awaits : Parser → Bytes → Bytes → Prop}
  {before : List Callback} {whole body todo : Bytes} {r : Run} {q : Parser}

namespace Run

theorem mark_here (r : Run) (m : Mark) : (r.mark m).marks m = some ((r.marks m).getD []) := by
  unfold mark
  cases set : r.marks m with
  | none => simp
  | some at_ => exact set

theorem mark_other (r : Run) {m k : Mark} (other : k ≠ m) : (r.mark m).marks k = r.marks k := by
  unfold mark
  cases r.marks m with
  | none => simp [other]
  | some at_ => rfl

theorem mark_changed (r : Run) (m : Mark) (q : Parser) :
    ({ r with parser := q } : Run).mark m = { r.mark m with parser := q } := by
  unfold mark
  dsimp only
  cases r.marks m <;> rfl

namespace InBody

theorem closed_all (inBody : r.InBody before whole body) (closed : openMark r.parser.state = none)
    (m : Mark) : r.marks m = none := by
  by_cases same : m = .body
  · exact same ▸ inBody.closed closed
  · exact inBody.single m same

/-- A turn outside of the data. -/
theorem passes (inBody : r.InBody before whole body) (unset : ∀ m, r.marks m = none) (q : Parser)
    (bytes : Bytes) : (({ r with parser := q } : Run).advance bytes).InBody before whole body := by
  obtain ⟨bodies, reported, all⟩ := inBody.reported
  have still : ∀ m, (({ r with parser := q } : Run).advance bytes).marks m = none := fun m => by
    simp [advance, unset m]
  refine ⟨fun m _ => still m, fun _ => still .body, bodies, reported, ?_⟩
  rw [unset] at all
  simpa [still] using all

/-- A mark at the next byte. -/
theorem marks (inBody : r.InBody before whole body) {q : Parser}
    (opens : openMark q.state = some .body) :
    ({ r.mark .body with parser := q } : Run).InBody before whole body := by
  obtain ⟨bodies, reported, all⟩ := inBody.reported
  refine ⟨fun k other => ?_, ?_, bodies, (r.mark_callbacks .body).trans reported, ?_⟩
  · rw [r.mark_other other, inBody.single k other]
  · intro closed
    exact absurd (opens.symm.trans closed) (Option.some_ne_none _)
  · rw [r.mark_here]
    exact all

/-- The next bytes are of the body. -/
theorem takes {piece : Bytes} (inBody : r.InBody before whole (piece ++ body)) {q : Parser}
    (opens : openMark q.state = some .body) :
    (({ r.mark .body with parser := q } : Run).advance piece).InBody before whole body := by
  obtain ⟨bodies, reported, all⟩ := inBody.reported
  refine ⟨fun k other => ?_, ?_, bodies, (r.mark_callbacks .body).trans reported, ?_⟩
  · simp [advance, r.mark_other other, inBody.single k other]
  · intro closed
    exact absurd (opens.symm.trans closed) (Option.some_ne_none _)
  · simpa [advance, r.mark_here] using all

/-- What is marked is reported. -/
theorem reports {more : Bytes} (inBody : r.InBody before whole (more ++ body))
    (marked : more = [] ∨ r.marks .body ≠ none) (q : Parser) :
    (({ r with parser := q } : Run).callbackData_ .body more).InBody before whole body ∧
      ∀ m, (({ r with parser := q } : Run).callbackData_ .body more).marks m = none := by
  obtain ⟨bodies, reported, all⟩ := inBody.reported
  unfold callbackData_
  cases set : r.marks .body with
  | none =>
    obtain rfl := marked.resolve_right (not_not.mpr set)
    refine ⟨⟨inBody.single, fun _ => set, inBody.reported⟩, fun m => ?_⟩
    by_cases same : m = .body
    · exact same ▸ set
    · exact inBody.single m same
  | some at_ =>
    have cleared : ∀ m, Function.update r.marks .body none m = none := by
      intro m
      by_cases same : m = .body
      · simp [same]
      · simp [same, inBody.single m same]
    refine ⟨⟨fun m _ => cleared m, fun _ => cleared .body, bodies ++ [at_ ++ more], ?_, ?_⟩,
      cleared⟩
    · simp [reported, Mark.callback]
    · rw [set] at all
      simpa [cleared] using all

theorem completes (inBody : r.InBody before whole []) (unset : ∀ m, r.marks m = none)
    (state : r.parser.state = start) (next : newMessage strict r.parser = start)
    (ok : r.parser.httpErrno = .hpeOk) :
    (r.callbackNotify .onMessageComplete).BodyOver strict before whole start := by
  obtain ⟨bodies, reported, all⟩ := inBody.reported
  refine ⟨unset, ⟨bodies, ?_, ?_⟩, state, next, ok⟩
  · rw [callbackNotify, reported]
  · rw [unset] at all
    simpa using all

end InBody

end Run

/-- A turn takes some of the bytes to come, and no others. -/
def Step.TakesBody (strict : Bool) (Awaits : Parser → Bytes → Bytes → Prop) (start : State)
    (before : List Callback) (whole p more : Bytes) :
    Step → Prop
  | .next r k => k < p.length ∧
      ((∃ body, (r.advance (p.take (k + 1))).InBody before whole body ∧
        Awaits r.parser (p.drop (k + 1) ++ more) body) ∨
      p.drop (k + 1) ++ more = [] ∧ r.BodyOver strict before whole start)
  | .leave r k => k < p.length ∧ p.drop (k + 1) ++ more = [] ∧ r.BodyOver strict before whole start
  | _ => False

theorem Step.behind_zero (s : Step) : s.behind 0 = s := by
  cases s <;> simp only [behind, Nat.zero_add]

/-- The turn behind the last byte. -/
theorem last_turn {p more : Bytes} {k : Nat} (less : k < p.length)
    (none_left : p.drop (k + 1) ++ more = []) (inBody : r.InBody before whole [])
    (unset : ∀ m, r.marks m = none) (next : newMessage strict r.parser = start)
    (ok : r.parser.httpErrno = .hpeOk) :
    ((sMessageDone strict r).behind k).TakesBody strict Awaits start before whole p more := by
  obtain ⟨bodies, reported, all⟩ := inBody.reported
  have same : (r.updateState (newMessage strict r.parser)).InBody before whole [] :=
    ⟨inBody.single, fun _ => unset .body, bodies, reported, all⟩
  have finished : (_ : Run).BodyOver strict before whole start := same.completes unset next next ok
  unfold sMessageDone
  dsimp only
  split_ifs
  · exact ⟨less, none_left, finished⟩
  · exact ⟨less, .inr ⟨none_left, finished⟩⟩

/-- A framing of bodies. -/
structure BodyRule (strict : Bool) (start : State)
    (Awaits : Parser → Bytes → Bytes → Prop) : Prop where
  fresh : ∀ {q todo body}, Awaits q todo body → resumed q.state = none
  ok : ∀ {q todo body}, Awaits q todo body → q.httpErrno = .hpeOk
  some_ : ∀ {q todo body}, Awaits q todo body → todo ≠ []
  short : ∀ {q todo body}, Awaits q todo body → parsingHeader q.state →
    q.nread < httpMaxHeaderSize
  turn : ∀ {r : Run} {ch rest more body before whole} (answer : Nat),
    Awaits r.parser (ch :: rest ++ more) body → r.InBody before whole body →
    (step strict answer r.counted ch rest).TakesBody strict Awaits start before whole
      (ch :: rest) more

/-- What the loop over some of the bytes to come leaves. -/
def Ending.TakesBody (strict : Bool) (Awaits : Parser → Bytes → Bytes → Prop) (start : State)
    (before : List Callback) (whole more : Bytes) :
    Ending → Prop
  | .finished r => (∃ body, r.InBody before whole body ∧ Awaits r.parser more body) ∨
      more = [] ∧ r.BodyOver strict before whole start
  | .returned r unread => unread = 0 ∧ more = [] ∧ r.BodyOver strict before whole start
  | .aborted => False

theorem Run.BodyOver.advance (finished : r.BodyOver strict before whole start) (bytes : Bytes) :
    (r.advance bytes).BodyOver strict before whole start := by
  refine ⟨fun m => ?_, finished.reported, finished.state, finished.next, finished.ok⟩
  simp [Run.advance, finished.unset m]

/-- The loop goes on behind the bytes of a turn. -/
theorem loop_drop (strict : Bool) (answer : Nat) (r : Run) {k : Nat} {rest : Bytes}
    (le : k ≤ rest.length) : loop strict answer k r rest =
      loop strict answer 0 r (rest.drop k) := by
  have length : (rest.take k).length + 0 = k := by
    rw [List.length_take, Nat.min_eq_left le, Nat.add_zero]
  have passed := loop_passed strict answer r 0 (rest.take k) (rest.drop k)
  rw [length, List.take_append_drop] at passed
  exact passed

namespace BodyRule

variable (rule : BodyRule strict start Awaits)
include rule

theorem counted {todo : Bytes} (awaits : Awaits r.parser todo body) :
    ¬ (parsingHeader r.parser.state ∧ r.counted.parser.nread > httpMaxHeaderSize) := by
  rintro ⟨head, long⟩
  have short := rule.short awaits head
  have counts : r.counted.parser.nread ≤ r.parser.nread + 1 := by
    rw [Run.counted, if_pos head]
    exact Nat.mod_le _ _
  omega

/-- From every turn of the rule follows the loop: it takes its part of the body. -/
theorem loop (answer : Nat) (p more : Bytes) (awaits : Awaits r.parser (p ++ more) body)
    (inBody : r.InBody before whole body) :
    (loop strict answer 0 r p).TakesBody strict Awaits start before whole more := by
  induction length : p.length using Nat.strong_induction_on generalizing p r body with
  | _ n ih =>
    cases p with
    | nil => exact .inl ⟨body, inBody, awaits⟩
    | cons ch rest =>
      have turn := rule.turn answer awaits inBody
      rw [loop_cons, if_neg (rule.counted awaits)]
      cases turned : step strict answer r.counted ch rest with
      | error e r' k =>
        rw [turned] at turn
        exact turn.elim
      | abort =>
        rw [turned] at turn
        exact turn
      | leave r' k =>
        rw [turned] at turn
        obtain ⟨less, none_left, finished⟩ := turn
        obtain ⟨all, rfl⟩ := List.append_eq_nil_iff.mp none_left
        have taken : rest.length ≤ k := Nat.le_of_succ_le_succ (List.drop_eq_nil_iff.mp all)
        exact ⟨Nat.sub_eq_zero_of_le taken, rfl, finished⟩
      | next r' k =>
        rw [turned] at turn
        obtain ⟨less, turn⟩ := turn
        have le : k ≤ rest.length := Nat.le_of_lt_succ less
        have left : (rest.drop k).length < n := by
          rw [← length, List.length_drop, List.length_cons]
          omega
        show (HttpLib.loop strict answer k _ rest).TakesBody strict Awaits start before whole more
        rw [loop_drop strict answer _ le]
        rcases turn with ⟨body, inBody, awaits⟩ | ⟨none_left, finished⟩
        · exact ih _ left (rest.drop k) awaits inBody rfl
        · obtain ⟨all, rfl⟩ := List.append_eq_nil_iff.mp none_left
          have all : rest.drop k = [] := all
          rw [all]
          exact .inr ⟨rfl, finished.advance _⟩

section
variable {q₀ : Parser} {data rest : Bytes} {before : List Callback} (ok : q₀.httpErrno = .hpeOk)
  (some_data : data ≠ []) (unset : ∀ m, r.marks m = none) (reported : r.callbacks = before)
include ok some_data unset reported

/-- A buffer whose loop comes to a run at the bytes to come. -/
theorem execute (answer : Nat)
    (reaches : HttpLib.loop strict answer 0 (.start q₀) data = HttpLib.loop strict answer 0 r rest)
    (more : Bytes) (awaits : Awaits r.parser (rest ++ more) body) :
    ∃ q' e, httpParserExecute strict answer q₀ data = some (q', e) ∧ e.parsedn = data.length ∧
      ∃ (bodies : List Bytes) (left : Bytes), bodies.flatten ++ left = body ∧
        (e.callbacks = before ++ bodies.map .onBody ∧ Awaits q' more left ∨
          e.callbacks = before ++ bodies.map .onBody ++ [.onMessageComplete] ∧ more = [] ∧
            left = [] ∧ q'.state = start ∧ newMessage strict q' = start ∧
              q'.httpErrno = .hpeOk) := by
  have inBody : r.InBody before body body := by
    refine ⟨fun m _ => unset m, fun _ => unset .body, [], ?_, ?_⟩
    · rw [reported, List.map_nil, List.append_nil]
    · rw [unset]
      rfl
  have run := rule.loop answer rest more awaits inBody
  unfold httpParserExecute
  rw [if_neg (not_not.mpr ok), if_neg some_data, reaches]
  cases ended : HttpLib.loop strict answer 0 r rest with
  | aborted =>
    rw [ended] at run
    exact run.elim
  | returned r unread =>
    rw [ended] at run
    obtain ⟨rfl, rfl, finished⟩ := run
    obtain ⟨bodies, reported, all⟩ := finished.reported
    refine ⟨r.parser, _, rfl, rfl, bodies, [], ?_,
      .inr ⟨reported, rfl, rfl, finished.state, finished.next, finished.ok⟩⟩
    rw [List.append_nil, all]
  | finished r =>
    rw [ended] at run
    rcases run with ⟨left, inBody, awaits⟩ | ⟨rfl, finished⟩
    · have nothing_more : left = [] ++ left := rfl
      rw [nothing_more] at inBody
      obtain ⟨reports, cleared⟩ := inBody.reports (.inl rfl) r.parser
      obtain ⟨bodies, reported, all⟩ := reports.reported
      have finish : r.finish = some (r.callbackData .body) := finish_some inBody.single
      refine ⟨r.parser, ⟨(r.callbackData .body).callbacks, data.length⟩, ?_, rfl, bodies, left, ?_,
        .inl ⟨reported, awaits⟩⟩
      · simp only [finish, Option.bind_eq_bind, Option.bind_some, Run.callbackData,
          Run.CALLBACK_keeps]
      · rw [cleared] at all
        simpa using all
    · obtain ⟨bodies, reported, all⟩ := finished.reported
      refine ⟨r.parser, ⟨r.callbacks, data.length⟩, ?_, rfl, bodies, [], ?_,
        .inr ⟨reported, rfl, rfl, finished.state, finished.next, finished.ok⟩⟩
      · simp only [finish_none finished.unset, Option.bind_eq_bind, Option.bind_some]
      · rw [List.append_nil, all]

/-- All the buffers from such a one on. -/
theorem feed_behind (answer : Nat) (buffers : List (Bytes × Nat))
    (reaches : HttpLib.loop strict answer 0 (.start q₀) data = HttpLib.loop strict answer 0 r rest)
    (some_ : ∀ buffer ∈ buffers, buffer.1 ≠ [])
    (awaits : Awaits r.parser (rest ++ (buffers.map (·.1)).flatten) body) :
    ∃ q' bodies, HttpLib.feed strict q₀ ((data, answer) :: buffers) =
        some (q', before ++ List.map .onBody bodies ++ [.onMessageComplete]) ∧
      bodies.flatten = body ∧ q'.state = start ∧ newMessage strict q' = start ∧
        q'.httpErrno = .hpeOk := by
  induction buffers generalizing q₀ r data rest before body answer with
  | nil =>
    obtain ⟨q', e, executed, -, bodies, left, all, callbacks⟩ :=
      rule.execute ok some_data unset reported answer reaches [] awaits
    rcases callbacks with ⟨-, awaits⟩ | ⟨callbacks, -, rfl, after⟩
    · exact absurd rfl (rule.some_ awaits)
    · refine ⟨q', bodies, ?_, ?_, after⟩
      · simp only [HttpLib.feed, executed, callbacks, Option.bind_eq_bind, Option.bind_some,
          List.append_nil]
      · rw [← all, List.append_nil]
  | cons buffer later ih =>
    have some_here : buffer.1 ≠ [] := some_ buffer List.mem_cons_self
    have some_later : ∀ buffer ∈ later, buffer.1 ≠ [] :=
      fun buffer inside => some_ buffer (List.mem_cons_of_mem _ inside)
    obtain ⟨q₁, e, executed, -, bodies, left, all, callbacks⟩ :=
      rule.execute ok some_data unset reported answer reaches
        ((buffer :: later).map (·.1)).flatten awaits
    rcases callbacks with ⟨callbacks, awaits⟩ | ⟨-, none_left, -⟩
    · obtain ⟨q', bodies', fed, all', after⟩ :=
        ih (rule.ok awaits) some_here (start_none (rule.fresh awaits)) rfl buffer.2 rfl
          some_later awaits
      refine ⟨q', bodies ++ bodies', ?_, ?_, after⟩
      · have fed : HttpLib.feed strict q₁ (buffer :: later) = _ := fed
        have first : HttpLib.feed strict q₀ ((data, answer) :: buffer :: later) =
            (HttpLib.feed strict q₁ (buffer :: later)).bind fun rest =>
              some (rest.1, e.callbacks ++ rest.2) := by
          rw [HttpLib.feed, executed]
          rfl
        rw [first, fed, callbacks]
        simp [Run.start]
      · rw [List.flatten_append, all', all]
    · exact absurd (List.append_eq_nil_iff.mp none_left).1 some_here

end

/-- All the buffers of the bytes to come. -/
theorem feed (buffers : List (Bytes × Nat)) (some_ : ∀ buffer ∈ buffers, buffer.1 ≠ [])
    (awaits : Awaits q (buffers.map (·.1)).flatten body) :
    ∃ q' bodies, feed strict q buffers =
        some (q', List.map .onBody bodies ++ [.onMessageComplete]) ∧
      bodies.flatten = body ∧ q'.state = start ∧ newMessage strict q' = start ∧
        q'.httpErrno = .hpeOk := by
  cases buffers with
  | nil => exact absurd rfl (rule.some_ awaits)
  | cons buffer later =>
    exact rule.feed_behind (rule.ok awaits) (some_ buffer List.mem_cons_self)
      (start_none (rule.fresh awaits)) rfl buffer.2 later rfl
      (fun buffer inside => some_ buffer (List.mem_cons_of_mem _ inside)) awaits

end BodyRule

end HttpLib
