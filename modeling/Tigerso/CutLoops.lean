import Tigerso.RelatedBodies

/-!
# The loops over a header whose text is cut in two

A value is searched for the end of its line in a window, and the bytes up to there are not looked
at. So the second part of a value may fail where the whole one does not, by its first byte or by
the bytes that it counts; else both go the same way.
-/

open SystemCalls

namespace HttpLib

theorem fieldLoop_stops (strict : Bool) {p : Bytes} (b : Bytes) {q q' : Parser} {n : Nat}
    (looped : fieldLoop strict q p = some (q', n)) (inside : n < p.length) :
    fieldLoop strict q (p ++ b) = some (q', n) := by
  induction p generalizing q n with
  | nil => exact absurd inside (Nat.not_lt_zero n)
  | cons ch rest ih =>
    rw [fieldLoop] at looped
    rw [List.cons_append, fieldLoop]
    split_ifs at looped ⊢ with none_
    · exact looped
    · obtain ⟨q₁, turned, looped⟩ := Option.bind_eq_some_iff.mp looped
      obtain ⟨⟨q₂, n₂⟩, more, looped⟩ := Option.bind_eq_some_iff.mp looped
      obtain ⟨rfl, rfl⟩ := Prod.mk.inj (Option.some.inj looped)
      have inside : n₂ < rest.length := Nat.lt_of_succ_lt_succ inside
      simp only [turned, Option.bind_eq_bind, Option.bind_some, ih more inside]

/-- A loop that runs through the first part goes on in the second. -/
theorem fieldLoop_append (strict : Bool) {p : Bytes} (b : Bytes) {q q' : Parser}
    (looped : fieldLoop strict q p = some (q', p.length)) :
    fieldLoop strict q (p ++ b) =
      (fieldLoop strict q' b).map fun (q, n) => (q, p.length + n) := by
  induction p generalizing q with
  | nil =>
    obtain ⟨rfl, -⟩ := Prod.mk.inj (Option.some.inj looped)
    simp
  | cons ch rest ih =>
    rw [fieldLoop] at looped
    rw [List.cons_append, fieldLoop]
    split_ifs at looped ⊢ with none_
    · obtain ⟨-, zero⟩ := Prod.mk.inj (Option.some.inj looped)
      cases zero
    · obtain ⟨q₁, turned, looped⟩ := Option.bind_eq_some_iff.mp looped
      obtain ⟨⟨q₂, n₂⟩, more, looped⟩ := Option.bind_eq_some_iff.mp looped
      obtain ⟨rfl, all⟩ := Prod.mk.inj (Option.some.inj looped)
      obtain rfl : n₂ = rest.length := Nat.succ.inj all
      simp only [turned, Option.bind_eq_bind, Option.bind_some, ih more]
      cases fieldLoop strict q₂ b with
      | none => rfl
      | some last =>
        simp only [Option.map_some, Option.bind_some, List.length_cons, Nat.add_right_comm]

def ends (b : Byte) : Bool := b == cr || b == lf

/-- Two searches, and the smaller of their results. -/
theorem findIdx_ends (l : Bytes) :
    l.findIdx? ends =
      match l.findIdx? (· == cr), l.findIdx? (· == lf) with
      | some isCr, some isLf => some (if isCr ≥ isLf then isLf else isCr)
      | some isCr, none => some isCr
      | none, some isLf => some isLf
      | none, none => none := by
  induction l with
  | nil => rfl
  | cons b rest ih =>
    simp only [List.findIdx?_cons, ih, ends]
    by_cases isCr : b = cr
    · have isLf : ¬ (b == lf) = true := by rw [isCr]; decide
      simp only [isCr, beq_self_eq_true, Bool.true_or, if_true]
      rw [isCr] at isLf
      rw [if_neg isLf]
      cases rest.findIdx? (· == lf) with
      | none => rfl
      | some isLf => simp
    · have isCr' : (b == cr) = false := beq_false_of_ne isCr
      by_cases isLf : b = lf
      · have here : (b == lf) = true := by rw [isLf]; rfl
        simp only [here, Bool.or_true, if_true, isCr', Bool.false_eq_true, if_false]
        cases rest.findIdx? (· == cr) with
        | none => rfl
        | some isCr => simp
      · have isLf' : (b == lf) = false := beq_false_of_ne isLf
        simp only [isCr', isLf', Bool.or_false, Bool.false_eq_true, if_false]
        cases rest.findIdx? (· == cr) with
        | none => cases rest.findIdx? (· == lf) <;> rfl
        | some isCr =>
          cases rest.findIdx? (· == lf) with
          | none => rfl
          | some isLf => simp only [Option.map_some, ge_iff_le,
            Nat.add_le_add_iff_right]; split_ifs <;> rfl

theorem lineEnd_eq (p : Bytes) :
    lineEnd p = ((p.take httpMaxHeaderSize).findIdx? ends).getD p.length := by
  rw [findIdx_ends]
  unfold lineEnd
  dsimp only
  cases (p.take httpMaxHeaderSize).findIdx? (· == cr) with
  | none => cases (p.take httpMaxHeaderSize).findIdx? (· == lf) <;> rfl
  | some isCr => cases (p.take httpMaxHeaderSize).findIdx? (· == lf) <;> rfl

theorem lineEnd_found {p : Bytes} {n : Nat}
    (found : (p.take httpMaxHeaderSize).findIdx? ends = some n) :
    lineEnd p = n := by
  rw [lineEnd_eq, found]
  rfl

/-- The search stops at a byte that ends the line, or at the end of the buffer. -/
theorem lineEnd_spec (p : Bytes) :
    p.drop (lineEnd p) = [] ∧ lineEnd p = p.length ∨
      ∃ ch rest, p.drop (lineEnd p) = ch :: rest ∧ (ch = cr ∨ ch = lf) := by
  cases found : (p.take httpMaxHeaderSize).findIdx? ends with
  | none =>
    have all : lineEnd p = p.length := by rw [lineEnd_eq, found]; rfl
    left
    rw [all]
    exact ⟨List.drop_length, rfl⟩
  | some n =>
    right
    obtain ⟨inside, here, -⟩ := List.findIdx?_eq_some_iff_getElem.mp found
    rw [lineEnd_found found]
    have within : n < p.length := by
      rw [List.length_take] at inside
      omega
    rw [List.getElem_take] at here
    refine ⟨p[n], p.drop (n + 1), List.drop_eq_getElem_cons within, ?_⟩
    simpa [ends] using here

/-- Where the first part has no end of a line, the search goes on in the second part. -/
theorem lineEnd_append {p : Bytes} (b : Bytes) (short : p.length ≤ httpMaxHeaderSize)
    (none_ : p.findIdx? ends = none) :
    lineEnd (p ++ b) = p.length + lineEnd b ∨
      httpMaxHeaderSize ≤ p.length + lineEnd b := by
  have window : (p ++ b).take httpMaxHeaderSize =
      p ++ b.take (httpMaxHeaderSize - p.length) := by
    rw [List.take_append, List.take_of_length_le short]
  have found : ((p ++ b).take httpMaxHeaderSize).findIdx? ends =
      ((b.take (httpMaxHeaderSize - p.length)).findIdx? ends).map (· + p.length) := by
    rw [window, List.findIdx?_append, none_, Option.none_or]
  by_cases long : httpMaxHeaderSize ≤ p.length + lineEnd b
  · exact .inr long
  left
  rw [lineEnd_eq (p ++ b), found]
  cases near : (b.take (httpMaxHeaderSize - p.length)).findIdx? ends with
  | some n =>
    -- the window of `b` itself is longer
    have same : (b.take httpMaxHeaderSize).findIdx? ends = some n := by
      have parts : b.take httpMaxHeaderSize = b.take (httpMaxHeaderSize - p.length) ++
          (b.drop (httpMaxHeaderSize - p.length)).take p.length := by
        rw [← List.take_add]
        congr 1
        omega
      rw [parts, List.findIdx?_append, near, Option.some_or]
    rw [lineEnd_found same]
    exact Nat.add_comm n p.length
  | none =>
    have all : lineEnd b = b.length := by
      rcases lineEnd_spec b with ⟨-, all⟩ | ⟨ch, rest, here, ch_ends⟩
      · exact all
      · exfalso
        have clear := List.findIdx?_eq_none_iff.mp near
        have inside : ch ∈ b.take (httpMaxHeaderSize - p.length) := by
          have at_ : b[lineEnd b]? = some ch := by
            have first := congrArg List.head? here
            rwa [List.head?_drop] at first
          refine List.mem_of_getElem? (i := lineEnd b) ?_
          rw [List.getElem?_take_of_lt (by omega)]
          exact at_
        have not_ends := clear ch inside
        rcases ch_ends with rfl | rfl <;> exact absurd not_ends (by decide)
    rw [all, Option.map_none, Option.getD_none, List.length_append]

/-- The same end, `k` bytes further on. -/
def ValueEnd.further (k : Nat) : ValueEnd → ValueEnd
  | .cr q h n => .cr q h (k + n)
  | .lf q h n => .lf q h (k + n)
  | .finished q h n => .finished q h (k + n)
  | .bad e q n => .bad e q (k + n)
  | .abort => .abort

theorem ValueEnd.further_zero (e : ValueEnd) : e.further 0 = e := by
  cases e <;> simp only [further, Nat.zero_add]

theorem ValueEnd.further_behind (k : Nat) (e : ValueEnd) :
    (e.further k).behind = e.further (k + 1) := by
  cases e <;> simp only [further, behind, Nat.add_right_comm]

/-- The loop behind the bytes that it does not look at. -/
theorem valueLoop_skip (q : Parser) (h : HeaderState) {n : Nat} {p : Bytes} (le : n ≤ p.length) :
    valueLoop q h n p = (valueLoop q h 0 (p.drop n)).further n := by
  induction p generalizing n with
  | nil =>
    obtain rfl := Nat.le_zero.mp le
    exact (ValueEnd.further_zero _).symm
  | cons ch rest ih =>
    cases n with
    | zero => exact (ValueEnd.further_zero _).symm
    | succ n =>
      rw [valueLoop, ih (Nat.le_of_succ_le_succ le), ValueEnd.further_behind]
      rfl

/-- Where a loop in `h_general` stops, `n` bytes on. -/
def valueStop (q : Parser) (n : Nat) (p : Bytes) : ValueEnd :=
  match p.drop n with
  | [] => .finished q .hGeneral n
  | ch :: _ => if ch = cr then .cr q .hGeneral n else .lf q .hGeneral n

theorem valueStop_zero {p : Bytes} (stops : p = [] ∨ ∃ ch rest,
    p = ch :: rest ∧ (ch = cr ∨ ch = lf))
    (q : Parser) : valueLoop q .hGeneral 0 p = valueStop q 0 p := by
  rcases stops with rfl | ⟨ch, rest, rfl, rfl | rfl⟩
  · rfl
  · rw [valueLoop, if_pos rfl]
    rfl
  · rw [valueLoop, if_neg (by decide), if_pos rfl]
    rfl

theorem valueStop_drop (q : Parser) (n : Nat) (p : Bytes) :
    valueStop q n p = (valueStop q 0 (p.drop n)).further n := by
  unfold valueStop
  rw [List.drop_zero]
  cases p.drop n with
  | nil => rfl
  | cons ch rest =>
    dsimp only
    split_ifs <;> rfl

theorem lineEnd_le (p : Bytes) : lineEnd p ≤ p.length := by
  rcases lineEnd_spec p with ⟨-, all⟩ | ⟨ch, rest, here, -⟩
  · exact Nat.le_of_eq all
  · by_contra long
    rw [List.drop_of_length_le (Nat.le_of_not_le long)] at here
    cases here

theorem lineEnd_stops (p : Bytes) : p.drop (lineEnd p) = [] ∨
    ∃ ch rest, p.drop (lineEnd p) = ch :: rest ∧ (ch = cr ∨ ch = lf) :=
  (lineEnd_spec p).imp (·.1) id

/-- A line whose first byte is allowed goes to its end. -/
theorem valueLoop_line (q : Parser) {ch : Byte} (rest : Bytes) (isCr : ch ≠ cr) (isLf : ch ≠ lf)
    (good : ¬ (!q.lenientHttpHeaders ∧ !isHeaderChar ch)) :
    valueLoop q .hGeneral 0 (ch :: rest) = valueStop q (lineEnd (ch :: rest)) (ch :: rest) := by
  have stops := lineEnd_stops (ch :: rest)
  have le := lineEnd_le (ch :: rest)
  rw [valueLoop, if_neg isCr, if_neg isLf, if_neg good, if_pos rfl]
  -- the first byte is no end of a line
  obtain ⟨n, line⟩ : ∃ n, lineEnd (ch :: rest) = n + 1 := by
    cases here : lineEnd (ch :: rest) with
    | succ n => exact ⟨n, rfl⟩
    | zero =>
      rw [here] at stops
      rcases stops with none_ | ⟨ch', rest', same, ch_ends⟩
      · cases none_
      · obtain ⟨rfl, -⟩ := List.cons.inj same
        exact absurd ch_ends (not_or.mpr ⟨isCr, isLf⟩)
  rw [line] at stops le ⊢
  calc (valueLoop q .hGeneral (n + 1 - 1) rest).behind
      = ((valueLoop q .hGeneral 0 (rest.drop n)).further n).behind := by
        rw [Nat.add_sub_cancel, valueLoop_skip q _ (Nat.le_of_succ_le_succ le)]
    _ = (valueLoop q .hGeneral 0 (rest.drop n)).further (n + 1) := ValueEnd.further_behind n _
    _ = (valueStop q 0 (rest.drop n)).further (n + 1) :=
        congrArg (ValueEnd.further (n + 1)) (valueStop_zero stops q)
    _ = valueStop q (n + 1) (ch :: rest) := (valueStop_drop q (n + 1) (ch :: rest)).symm

/-- The second part of a value fails, when `nread` bytes are counted before it. -/
def ValueEnd.Lost (nread : Nat) : ValueEnd → Prop
  | .cr _ _ n => httpMaxHeaderSize < nread + n
  | .lf _ _ n => httpMaxHeaderSize < nread + n
  | .finished _ _ n => httpMaxHeaderSize < nread + n
  | .bad e _ _ => e = .hpeInvalidHeaderToken
  | .abort => False

theorem valueStop_lost {q : Parser} {nread n : Nat} {p : Bytes}
    (long : httpMaxHeaderSize < nread + n) : (valueStop q n p).Lost nread := by
  unfold valueStop
  cases p.drop n with
  | nil => exact long
  | cons ch rest =>
    dsimp only
    split_ifs <;> exact long

/-- The second part of a line. -/
theorem valueLoop_general (q : Parser) (b : Bytes) :
    (∀ nread, (valueLoop q .hGeneral 0 b).Lost nread) ∨
      valueLoop q .hGeneral 0 b = valueStop q (lineEnd b) b := by
  cases b with
  | nil => exact .inr rfl
  | cons ch rest =>
    by_cases stops : ch = cr ∨ ch = lf
    · have here : lineEnd (ch :: rest) = 0 := by
        refine lineEnd_found ?_
        have ch_ends : ends ch = true := by
          rcases stops with rfl | rfl <;> decide
        rw [show httpMaxHeaderSize = 81919 + 1 from rfl, List.take_succ_cons,
          List.findIdx?_cons, if_pos ch_ends]
      right
      rw [here]
      exact valueStop_zero (.inr ⟨ch, rest, rfl, stops⟩) q
    · obtain ⟨isCr, isLf⟩ := not_or.mp stops
      by_cases good : ¬ (!q.lenientHttpHeaders ∧ !isHeaderChar ch)
      · exact .inr (valueLoop_line q rest isCr isLf good)
      · left
        intro nread
        rw [valueLoop, if_neg isCr, if_neg isLf, if_pos (not_not.mp good)]
        rfl

/-- A loop that ends in the first part ends there in the whole, too. -/
theorem valueLoop_stops (q : Parser) (h : HeaderState) (skipped : Nat) (p b : Bytes)
    (stops : ∀ q' h' n, valueLoop q h skipped p ≠ .finished q' h' n) :
    valueLoop q h skipped (p ++ b) = valueLoop q h skipped p := by
  have unwrap : ∀ e : ValueEnd, (∀ q' h' n, e.behind ≠ .finished q' h' n) →
      ∀ q' h' n, e ≠ .finished q' h' n := by
    intro e stops q' h' n same
    exact stops q' h' (n + 1) (by rw [same]; rfl)
  induction p generalizing q h skipped with
  | nil =>
    have finished : valueLoop q h skipped [] = .finished q h 0 := by cases skipped <;> rfl
    exact absurd finished (stops q h 0)
  | cons ch rest ih =>
    cases skipped with
    | succ skipped =>
      exact congrArg ValueEnd.behind (ih q h skipped (unwrap _ stops))
    | zero =>
      rw [List.cons_append]
      rw [valueLoop] at stops
      rw [valueLoop, valueLoop]
      split_ifs at stops ⊢ with isCr isLf bad general
      · rfl
      · rfl
      · rfl
      · have stops := unwrap _ stops
        have same : lineEnd (ch :: (rest ++ b)) = lineEnd (ch :: rest) := by
          cases found : ((ch :: rest).take httpMaxHeaderSize).findIdx? ends with
          | some n =>
            refine (lineEnd_found ?_).trans (lineEnd_found found).symm
            rw [← List.cons_append, List.take_append, List.findIdx?_append, found, Option.some_or]
          | none =>
            -- it would go over the whole part
            exfalso
            have all : lineEnd (ch :: rest) = rest.length + 1 := by
              rw [lineEnd_eq, found]
              rfl
            rw [all, Nat.add_sub_cancel, valueLoop_skip q h (Nat.le_refl _)] at stops
            exact stops q h rest.length (by rw [List.drop_length]; rfl)
        rw [same, ih q h _ stops]
      · cases turned : valueChar q h ch with
        | ok next =>
          rw [turned] at stops
          exact congrArg ValueEnd.behind (ih next.1 next.2 0 (unwrap _ stops))
        | error e => cases e <;> rfl

theorem valueStop_append (q : Parser) (p b : Bytes) (n : Nat) :
    valueStop q (p.length + n) (p ++ b) = (valueStop q n b).further p.length := by
  unfold valueStop
  rw [List.drop_append, List.drop_of_length_le (Nat.le_add_right _ _), List.nil_append,
    Nat.add_sub_cancel_left]
  cases b.drop n with
  | nil => rfl
  | cons ch rest =>
    dsimp only
    split_ifs <;> rfl

/-- The loop over a value in two parts: the second one goes the same way or fails. -/
theorem valueLoop_append {q q' : Parser} {h h' : HeaderState} {n : Nat} {p : Bytes} (b : Bytes)
    (finished : valueLoop q h 0 p = .finished q' h' n) (short : p.length ≤ httpMaxHeaderSize)
    {nread : Nat} (counted : p.length < nread) :
    valueLoop q h 0 (p ++ b) = (valueLoop q' h' 0 b).further p.length ∨
      (valueLoop q' h' 0 b).Lost nread := by
  have unwrap : ∀ (e : ValueEnd) (n : Nat), e.behind = .finished q' h' n →
      ∃ k, e = .finished q' h' k := by
    intro e n same
    cases e <;> simp only [ValueEnd.behind, reduceCtorEq, ValueEnd.finished.injEq] at same
    obtain ⟨rfl, rfl, rfl⟩ := same
    exact ⟨_, rfl⟩
  induction p generalizing q h n with
  | nil =>
    injection finished with same_q same_h
    subst same_q same_h
    exact .inl (ValueEnd.further_zero _).symm
  | cons ch rest ih =>
    have shorter : rest.length ≤ httpMaxHeaderSize := Nat.le_of_succ_le short
    have fewer : rest.length < nread := Nat.lt_of_succ_lt counted
    have whole := finished
    rw [valueLoop] at finished
    split_ifs at finished with isCr isLf bad general
    · -- the rest of the first part belongs to one line, and has no end of it
      subst general
      rw [valueLoop_line q rest isCr isLf bad] at whole
      have stopped : lineEnd (ch :: rest) = (ch :: rest).length ∧ q' = q ∧ h' = .hGeneral := by
        unfold valueStop at whole
        rcases lineEnd_spec (ch :: rest) with ⟨empty, all⟩ | ⟨ch', rest', here, -⟩
        · rw [empty] at whole
          injection whole with same_q same_h
          exact ⟨all, same_q.symm, same_h.symm⟩
        · rw [here] at whole
          dsimp only at whole
          split_ifs at whole
      obtain ⟨all, rfl, rfl⟩ := stopped
      have none_ : (ch :: rest).findIdx? ends = none := by
        rw [lineEnd_eq, List.take_of_length_le short] at all
        cases found : (ch :: rest).findIdx? ends with
        | none => rfl
        | some m =>
          rw [found] at all
          obtain ⟨inside, -⟩ := List.findIdx?_eq_some_iff_getElem.mp found
          exact absurd all (Nat.ne_of_lt inside)
      rcases valueLoop_general q' b with lost | second
      · exact .inr (lost nread)
      · rcases lineEnd_append b short none_ with same | long
        · left
          rw [List.cons_append, valueLoop_line q' (rest ++ b) isCr isLf bad,
            ← List.cons_append, same,
            valueStop_append, second]
        · right
          rw [second]
          exact valueStop_lost (by omega)
    · cases turned : valueChar q h ch with
      | ok next =>
        rw [turned] at finished
        obtain ⟨k, more⟩ := unwrap _ _ finished
        refine (ih more shorter fewer).imp (fun same => ?_) id
        rw [List.cons_append, valueLoop, if_neg isCr, if_neg isLf, if_neg bad,
          if_neg general, turned]
        exact (congrArg ValueEnd.behind same).trans (ValueEnd.further_behind rest.length _)
      | error e =>
        rw [turned] at finished
        cases e <;> cases finished

end HttpLib
