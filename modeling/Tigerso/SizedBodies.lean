import Tigerso.TakenBytes

/-!
# Bodies with a Content-Length, and bodies up to the end of the stream

The first ones are over after as many bytes as their length says. The others are not complete before
the end of the stream is reported.
-/

open SystemCalls

namespace HttpLib

/-- What a parser awaits in a body of a known length. -/
structure AwaitsBytes (strict : Bool) (start : State) (q : Parser) (todo body : Bytes) : Prop where
  state : q.state = .sBodyIdentity
  ok : q.httpErrno = .hpeOk
  next : newMessage strict q = start
  length : q.contentLength = todo.length
  some_ : todo ≠ []
  small : todo.length < ullongMax
  all : body = todo

/-- How much of a body is left does not matter for the connection. -/
theorem newMessage_length (strict : Bool) {q : Parser} (sized : q.contentLength ≠ ullongMax)
    (s : State) {length : Nat} (less : length ≠ ullongMax) :
    newMessage strict { q with state := s, contentLength := length } = newMessage strict q := by
  simp [newMessage, httpShouldKeepAlive, httpMessageNeedsEof, startState, sized, less]

variable {strict : Bool} {start : State} {r : Run} {before : List Callback}
  {whole body rest more : Bytes} {ch : Byte}

/-- The bytes of the buffer, up to the end of the body. -/
theorem sBodyIdentity_turn (awaits : AwaitsBytes strict start r.parser (ch :: rest ++ more) body)
    (inBody : r.InBody before whole body) :
    (sBodyIdentity strict r (ch :: rest)).TakesBody strict
      (AwaitsBytes strict start) start before whole (ch :: rest) more := by
  have positive : 0 < (ch :: rest).length := Nat.succ_pos _
  have total : r.parser.contentLength = (ch :: rest).length + more.length := by
    rw [awaits.length, List.length_append]
  have sized : r.parser.contentLength ≠ ullongMax := by
    rw [awaits.length]
    exact Nat.ne_of_lt awaits.small
  have taken : min r.parser.contentLength (ch :: rest).length = (ch :: rest).length :=
    Nat.min_eq_right (total ▸ Nat.le_add_right _ _)
  have left : r.parser.contentLength - (ch :: rest).length = more.length := by
    rw [total, Nat.add_sub_cancel_left]
  have last : (ch :: rest).length - 1 + 1 = (ch :: rest).length := Nat.sub_add_cancel positive
  have all : (ch :: rest).take (ch :: rest).length = ch :: rest := List.take_length
  have behind : (ch :: rest).drop (ch :: rest).length = [] := List.drop_length
  have more_small : more.length < ullongMax := by
    have small := awaits.small
    rw [List.length_append] at small
    omega
  have body_split : body = (ch :: rest) ++ more := awaits.all
  rw [body_split] at inBody
  unfold sBodyIdentity
  rw [if_neg (not_or.mpr ⟨by omega, sized⟩), taken]
  dsimp only [Run.setContentLength]
  rw [left, r.mark_keeps .body]
  by_cases finished : more.length = 0
  · obtain rfl := List.length_eq_zero_iff.mp finished
    rw [if_pos finished]
    have opened : (r.mark .body).marks .body ≠ none := by
      rw [r.mark_here]
      exact Option.some_ne_none _
    have here : openMark r.parser.state = some .body := by
      rw [awaits.state]
      rfl
    obtain ⟨reported, unset⟩ := (inBody.marks here).reports (.inr opened)
      { r.parser with contentLength := ([] : Bytes).length, state := .sMessageDone }
    rw [all]
    refine last_turn (by omega) (by rw [last, behind]; rfl) reported unset ?_ ?_
    · rw [Run.CALLBACK_keeps]
      exact (newMessage_length strict sized .sMessageDone more_small.ne).trans awaits.next
    · rw [Run.CALLBACK_keeps]
      exact awaits.ok
  · rw [if_neg finished]
    refine ⟨last.symm ▸ Nat.le_refl _, .inl ⟨more, ?_, ?_⟩⟩
    · rw [last, all]
      exact inBody.takes (by rw [awaits.state]; rfl)
    · rw [last, behind, List.nil_append]
      exact ⟨awaits.state, awaits.ok,
        (newMessage_length strict sized r.parser.state more_small.ne).trans awaits.next, rfl,
        fun none_left => finished (List.length_eq_zero_iff.mpr none_left), more_small, rfl⟩

/-- The framing of bodies with a Content-Length. -/
theorem sizedRule (strict : Bool) (start : State) :
    BodyRule strict start (AwaitsBytes strict start) where
  fresh awaits := by
    rw [awaits.state]
    rfl
  ok awaits := awaits.ok
  some_ awaits := awaits.some_
  short awaits head := by
    rw [awaits.state] at head
    cases head
  turn {r ch rest more body before whole} answer awaits inBody := by
    have head : ¬ parsingHeader r.parser.state := by
      rw [awaits.state]
      decide
    have counted : r.counted = r := if_neg head
    unfold step
    rw [counted, awaits.state]
    exact sBodyIdentity_turn awaits inBody

/-- However a body of a known length is cut into buffers, its bytes are reported, and the parser is
at the next message behind the last one. -/
theorem feed_sized (strict : Bool) {q : Parser} (ok : q.httpErrno = .hpeOk)
    (at_ : q.state = .sBodyIdentity) {body : Bytes} (length : q.contentLength = body.length)
    (some_body : body ≠ []) (small : body.length < ullongMax)
    {buffers : List (Bytes × Nat)} (some_ : ∀ buffer ∈ buffers, buffer.1 ≠ [])
    (cut : (buffers.map (·.1)).flatten = body) :
    ∃ q' bodies, feed strict q buffers =
        some (q', List.map .onBody bodies ++ [.onMessageComplete]) ∧
      bodies.flatten = body ∧ q'.state = newMessage strict q ∧ q'.httpErrno = .hpeOk := by
  subst cut
  have awaits : AwaitsBytes strict (newMessage strict q) q _ _ :=
    ⟨at_, ok, rfl, length, some_body, small, rfl⟩
  obtain ⟨q', bodies, fed, all, state, -, ok⟩ := (sizedRule strict _).feed buffers some_ awaits
  exact ⟨q', bodies, fed, all, state, ok⟩

/-- Three bytes in two buffers. -/
theorem feed_sized_three :
    ∃ q' bodies, feed true
        { httpParserInit .httpRequest with state := .sBodyIdentity, contentLength := 3 }
        [(literal "a", 0), (literal "bc", 0)] =
        some (q', List.map .onBody bodies ++ [.onMessageComplete]) ∧
      bodies.flatten = literal "abc" := by
  have some_ : ∀ buffer ∈ ([(literal "a", 0), (literal "bc", 0)] : List (Bytes × Nat)),
      buffer.1 ≠ [] := by decide
  have length : Parser.contentLength { httpParserInit .httpRequest with
      state := .sBodyIdentity, contentLength := 3 } = (literal "abc").length := by decide
  obtain ⟨q', bodies, fed, all, -⟩ :=
    feed_sized true rfl rfl length (by decide) (by decide) some_ (by decide)
  exact ⟨q', bodies, fed, all⟩

section
variable {answer : Nat} {q₀ q : Parser} {cs : List Callback} (at_ : q.state = .sBodyIdentityEof)
include at_

/-- One turn takes all that is left of a buffer. -/
theorem unsized_loop {rest : Bytes} (some_ : rest ≠ []) :
    loop strict answer 0 (.clear q cs) rest = .finished (.marking q .body rest cs) := by
  obtain ⟨ch, tail, rfl⟩ := List.exists_cons_of_ne_nil some_
  have head : ¬ parsingHeader (Run.clear q cs).parser.state := by
    show ¬ parsingHeader q.state
    rw [at_]
    decide
  have turn : ∀ more, step strict answer (Run.clear q cs).counted ch (tail ++ more) =
      .next (.marking q .body [] cs) (tail ++ more).length := by
    intro more
    have counted : (Run.clear q cs).counted = .clear q cs := if_neg head
    have here : (Run.clear q cs).parser.state = .sBodyIdentityEof := at_
    unfold step
    rw [counted, here]
    rfl
  have whole := turn []
  rw [List.append_nil] at whole
  have skipped : ∀ r, loop strict answer tail.length r tail = .finished r := by
    intro r
    rw [loop_drop strict answer r (Nat.le_refl _), List.drop_length]
    rfl
  rw [loop_cons, if_neg (fun both => head both.1), whole]
  show loop strict answer tail.length _ tail = _
  rw [skipped, List.take_of_length_le (by exact Nat.le_refl _), Run.marking_advance,
    List.nil_append]

/-- A buffer whose loop comes to the bytes of such a body. -/
theorem execute_unsized {data rest : Bytes} (ok : q₀.httpErrno = .hpeOk) (some_data : data ≠ [])
    (reaches : loop strict answer 0 (.start q₀) data = loop strict answer 0 (.clear q cs) rest) :
    httpParserExecute strict answer q₀ data =
      some (q, ⟨cs ++ ([rest].filter (· ≠ [])).map .onBody, data.length⟩) := by
  unfold httpParserExecute
  rw [if_neg (not_not.mpr ok), if_neg some_data, reaches]
  by_cases none_left : rest = []
  · subst none_left
    have finish : (Run.clear q cs).finish = some (.clear q cs) := finish_none fun _ => rfl
    show (do let r ← (Run.clear q cs).finish; _) = _
    rw [finish]
    simp [Run.clear]
  · have single : Single (Run.marking q .body rest cs).marks .body := by
      intro k other
      simp [Run.marking, other]
    have reported : (Run.marking q .body rest cs).callbackData .body =
        .clear q (cs ++ [.onBody (rest ++ [])]) := Run.marking_CALLBACK
    rw [unsized_loop at_ none_left]
    simp [finish_some single, reported, Run.clear, none_left]

/-- Every buffer is of the body. -/
theorem feed_unsized (ok : q.httpErrno = .hpeOk) {buffers : List (Bytes × Nat)}
    (some_ : ∀ buffer ∈ buffers, buffer.1 ≠ []) :
    feed strict q buffers = some (q, (buffers.map (·.1)).map .onBody) := by
  induction buffers with
  | nil => rfl
  | cons buffer rest ih =>
    have some_here : buffer.1 ≠ [] := some_ buffer List.mem_cons_self
    have start : Run.start q = .clear q [] := by
      rw [Run.eq_clear (start_none (by rw [at_]; rfl))]
      rfl
    have executed : httpParserExecute strict buffer.2 q buffer.1 =
        some (q, ⟨[] ++ ([buffer.1].filter (· ≠ [])).map .onBody, buffer.1.length⟩) :=
      execute_unsized at_ ok some_here (by rw [start])
    have later := ih fun buffer inside => some_ buffer (List.mem_cons_of_mem _ inside)
    simp only [feed, executed, later, Option.bind_eq_bind, Option.bind_some]
    simp [some_here]

/-- The end of the stream is the end of such a body. -/
theorem feed_end (ok : q.httpErrno = .hpeOk) :
    feed strict q [([], answer)] = some (q, [.onMessageComplete]) := by
  simp only [feed, httpParserExecute, ok, at_, ne_eq, not_true_eq_false, if_false, if_true,
    Option.bind_eq_bind, Option.bind_some, List.append_nil]

end

end HttpLib
