import Tigerso.CutTurns
import Tigerso.CallbackOrder

/-!
# http_parser_execute over a stream that is cut into buffers

Whatever the cuts are, the parser comes to the same state and makes the same callbacks, up to the
cuts in their data. Only the bytes that count for the limit of a header, and the allowed bytes of a
value, depend on them: what is accepted in pieces is accepted as a whole.
-/

open SystemCalls LabelledPaths JoinedPieces

namespace HttpLib

variable {eof eof' : Prop} {start start' : Phase} {r r' : Run} {past : List Callback}

def Run.counted (r : Run) : Run := if parsingHeader r.parser.state then r.count 1 else r

def Step.ending (strict : Bool) (answer : Nat) (ch : Byte) (rest : Bytes) : Step → Ending
  | .next r passed => loop strict answer passed (r.advance ((ch :: rest).take (passed + 1))) rest
  | .error e r passed => .returned (r.setErrno e) (rest.length + 1 - passed)
  | .leave r passed => .returned r (rest.length - passed)
  | .abort => .aborted

theorem loop_cons (strict : Bool) (answer : Nat) (r : Run) (ch : Byte) (rest : Bytes) :
    loop strict answer 0 r (ch :: rest) =
      if parsingHeader r.parser.state ∧ r.counted.parser.nread > httpMaxHeaderSize then
        .returned (r.counted.setErrno .hpeHeaderOverflow) (rest.length + 1)
      else (step strict answer r.counted ch rest).ending strict answer ch rest := by
  rw [loop]
  unfold Run.counted
  split_ifs <;> rfl

theorem Run.counted_state (r : Run) : r.counted.parser.state = r.parser.state := by
  unfold counted
  split_ifs <;> rfl

/-- `p` is already behind some bytes. -/
theorem loop_passed (strict : Bool) (answer : Nat) (r : Run) (n : Nat) (l p : Bytes) :
    loop strict answer (l.length + n) r (l ++ p) = loop strict answer n r p := by
  induction l with
  | nil => rw [List.length_nil, Nat.zero_add, List.nil_append]
  | cons b rest ih =>
    rw [List.length_cons, Nat.add_right_comm, List.cons_append, loop]
    exact ih

theorem Run.Fits.counted (fits : r.Fits eof start 0) :
    r.counted.Fits eof start (if r.parser.state = .sChunkSizeStart then 1 else 0) := by
  have counts := fits.counts (parsingHeader r.parser.state)
  have same : (parsingHeader r.parser.state = true ∧ r.parser.state = .sChunkSizeStart) ↔
      r.parser.state = .sChunkSizeStart :=
    ⟨And.right, fun at_ => ⟨by rw [at_]; rfl, at_⟩⟩
  simp only [same] at counts
  exact counts

theorem Run.Fits.one (fits : r.Fits eof start 1) (at_ : r.parser.state = .sChunkSizeStart) :
    r.parser.nread = 1 := by
  have data := fits.data
  simp only [Parser.Data, at_] at data
  exact data.2

theorem Run.Fits.turn (fits : r.Fits eof start 0) (strict : Bool) (answer : Nat) (ch : Byte)
    (rest : Bytes) : (step strict answer r.counted ch rest).Fits eof start :=
  step_fits fits.counted strict answer ch rest fun at_ =>
    if_pos (r.counted_state.symm.trans at_)

def Errno.ofCut : Errno → Bool
  | .hpeHeaderOverflow => true
  | .hpeInvalidHeaderToken => true
  | _ => false

/-- The ends of two runs over the same bytes; `past` was reported before the second one. -/
inductive EndsAlike (past : List Callback) : Ending → Ending → Prop
  | finished {r r' : Run} (alike : Alike past r r') : EndsAlike past (.finished r) (.finished r')
  | left {r r' : Run} (unread : Nat) (alike : Alike past r r') :
      EndsAlike past (.returned r unread) (.returned r' unread)
  | error {r r' : Run} (unread : Nat) (bad : r.parser.httpErrno ≠ .hpeOk)
      (same : r'.parser.httpErrno = r.parser.httpErrno) :
      EndsAlike past (.returned r unread) (.returned r' unread)
  | lost (ending : Ending) {r' : Run} (unread : Nat) (ofCut : r'.parser.httpErrno.ofCut) :
      EndsAlike past ending (.returned r' unread)
  | aborted : EndsAlike past .aborted .aborted

theorem Marked.one {s : State} {marks : Mark → Option Bytes} (marked : Marked s marks) :
    ∃ m, Single marks m := by
  cases here : openMark s with
  | none => exact ⟨.body, marked.single (.inl here)⟩
  | some m => exact ⟨m, marked.single (.inr here)⟩

theorem TurnsAlike.ending {s s' : Step} (turns : TurnsAlike past s s') (fits : s.Fits eof start)
    (fits' : s'.Fits eof' start') (strict : Bool) (answer : Nat) (ch : Byte) (rest : Bytes)
    (goesOn : ∀ (r r' : Run) passed, Alike past r r' → r.Fits eof start 0 → r'.Fits eof' start' 0 →
      EndsAlike past (loop strict answer passed r rest) (loop strict answer passed r' rest)) :
    EndsAlike past (s.ending strict answer ch rest) (s'.ending strict answer ch rest) := by
  cases turns with
  | next passed alike =>
    obtain ⟨m, single⟩ := fits.marked.one
    exact goesOn _ _ passed (alike.advance single _) (fits.advance _) (fits'.advance _)
  | leave passed alike => exact .left _ alike
  | error e passed => exact .error _ fits.1 rfl
  | tooLong step r' passed => exact .lost _ _ rfl
  | badToken step r' passed => exact .lost _ _ rfl
  | abort => exact .aborted

/-- Both runs count the byte that comes next. -/
theorem Alike.next (alike : Alike past r r') :
    r'.counted.parser.nread > httpMaxHeaderSize ∧ parsingHeader r'.parser.state ∨
      Alike past r.counted r'.counted := by
  have same : r'.parser.state = r.parser.state := by rw [alike.parser]
  unfold Run.counted
  rw [same]
  by_cases head : parsingHeader r.parser.state
  · rw [if_pos head, if_pos head]
    by_cases long : (r'.count 1).parser.nread > httpMaxHeaderSize
    · exact .inl ⟨long, head⟩
    · have counts := (Run.count_long (v := 1) alike.small (by decide)).mpr
      exact .inr (alike.count (Nat.not_lt.mp fun finished => long (counts finished)))
  · rw [if_neg head, if_neg head]
    exact .inr alike

/-- Two runs that are alike go on alike. -/
theorem loop_alike (strict : Bool) (answer : Nat) (p : Bytes) (short : p.length < 2 ^ 31)
    (passed : Nat) (alike : Alike past r r') (fits : r.Fits eof start 0)
    (fits' : r'.Fits eof' start' 0) :
    EndsAlike past (loop strict answer passed r p) (loop strict answer passed r' p) := by
  induction p generalizing passed r r' with
  | nil => cases passed <;> exact .finished alike
  | cons ch rest ih =>
    have shorter : rest.length < 2 ^ 31 := Nat.lt_of_succ_lt short
    cases passed with
    | succ passed => exact ih shorter passed alike fits fits'
    | zero =>
      have same : r'.parser.state = r.parser.state := by rw [alike.parser]
      rw [loop_cons, loop_cons]
      rcases alike.next with ⟨long, head⟩ | next
      · rw [if_pos (c := parsingHeader r'.parser.state = true ∧ _) ⟨head, long⟩]
        exact .lost _ _ rfl
      · rw [if_neg fun long => Nat.not_le.mpr long.2 (next.nread.trans next.small),
          if_neg fun long => Nat.not_le.mpr long.2 next.small]
        refine (step_alike next ?_ strict answer ch rest short ?_).ending (fits.turn _ _ _ _)
          (fits'.turn _ _ _ _) strict answer ch rest fun r r' passed => ih shorter passed
        · exact fits.counted.marked
        · intro at_
          have at_r : r.parser.state = .sChunkSizeStart := r.counted_state.symm.trans at_
          have counted := fits.counted
          have counted' := fits'.counted
          rw [if_pos at_r] at counted
          rw [if_pos (same.trans at_r)] at counted'
          exact ⟨counted.one at_, counted'.one (r'.counted_state.trans (same.trans at_r))⟩

/-- The same ends, up to the run that an error leaves. -/
inductive SameEnd : Ending → Ending → Prop
  | refl (ending : Ending) : SameEnd ending ending
  | error {r r' : Run} (unread : Nat) (bad : r'.parser.httpErrno ≠ .hpeOk)
      (same : r'.parser.httpErrno = r.parser.httpErrno) :
      SameEnd (.returned r unread) (.returned r' unread)

/-- A turn of the joined buffer ends as the turn of the second buffer that it covers. -/
theorem Shifted.ending {ch b₀ : Byte} {rest more : Bytes} {s s' : Step}
    (shifted : Shifted (ch :: rest) s s') (fits' : s'.Fits eof start) (strict : Bool)
      (answer : Nat) :
    SameEnd (s.ending strict answer ch (rest ++ b₀ :: more)) (s'.ending strict answer b₀ more) := by
  have length : (rest ++ b₀ :: more).length = (ch :: rest).length + more.length := by
    simp only [List.length_append, List.length_cons]
    omega
  cases shifted with
  | @next r r' n same =>
    have taken : (ch :: (rest ++ b₀ :: more)).take ((ch :: rest).length + n + 1) =
        ch :: rest ++ (b₀ :: more).take (n + 1) := by
      rw [← List.cons_append, Nat.add_assoc, List.take_append,
        List.take_of_length_le (Nat.le_add_right _ _), Nat.add_sub_cancel_left]
    have parts : rest ++ b₀ :: more = (rest ++ [b₀]) ++ more := by simp
    have behind : (ch :: rest).length = (rest ++ [b₀]).length := by simp
    unfold Step.ending
    dsimp only
    rw [taken, same, parts, behind, loop_passed]
    exact .refl _
  | leave r n =>
    unfold Step.ending
    dsimp only
    rw [length, Nat.add_sub_add_left]
    exact .refl _
  | error e r r' n =>
    unfold Step.ending
    dsimp only
    rw [length, Nat.add_assoc, Nat.add_sub_add_left]
    exact .error _ fits'.1 rfl
  | abort => exact .refl _

theorem EndsAlike.of_same {e₁ e₂ e₃ : Ending} (same : SameEnd e₁ e₂)
    (alike : EndsAlike past e₂ e₃) :
    EndsAlike past e₁ e₃ := by
  cases same with
  | refl => exact alike
  | error unread bad same =>
    cases alike with
    | left _ alike =>
      refine .error unread (same ▸ bad) ?_
      rw [alike.parser]
      exact same
    | error _ _ same' => exact .error unread (same ▸ bad) (same'.trans same)
    | lost _ _ ofCut => exact .lost _ _ ofCut

/-- What a loop over `x` says about the one over `x ++ b`. -/
def Ending.Cut (first : Ending) (strict : Bool) (answer : Nat) (b : Bytes)
    (whole : Ending) : Prop :=
  match first with
  | .finished r => whole = loop strict answer 0 r b ∨
      r.parser.state.far ∧ (∀ b₀ more, b = b₀ :: more →
        SameEnd whole ((step strict answer r b₀ more).ending strict answer b₀ more)) ∨
      r.Lost b
  | .returned r unread => r.parser.httpErrno.ofCut ∨ whole = .returned r (unread + b.length)
  | .aborted => True

/-- The loop over both buffers is that over the first one, and then that over the second. -/
theorem loop_cut (strict : Bool) (answer : Nat) (x b : Bytes) (short : x.length < 2 ^ 31)
    (passed : Nat) (le : passed ≤ x.length) (fits : r.Fits eof start 0) :
    (loop strict answer passed r x).Cut strict answer b (loop strict answer passed r (x ++ b)) := by
  induction x generalizing passed r with
  | nil =>
    obtain rfl := Nat.le_zero.mp le
    exact Or.inl rfl
  | cons ch rest ih =>
    have shorter : rest.length < 2 ^ 31 := Nat.lt_of_succ_lt short
    cases passed with
    | succ passed => exact ih shorter passed (Nat.le_of_succ_le_succ le) fits
    | zero =>
      have turn := fits.turn strict answer ch rest
      rw [List.cons_append, loop_cons, loop_cons]
      split_ifs with long
      · exact Or.inl rfl
      have small : r.counted.parser.state = .sHeaderValue →
          r.counted.parser.nread ≤ httpMaxHeaderSize := by
        intro at_
        rw [r.counted_state] at at_
        exact Nat.not_lt.mp fun finished => long ⟨by rw [at_]; rfl, finished⟩
      rcases step_cut fits.counted strict answer ch rest b small short with
        ⟨same, le⟩ | ⟨r', n, failed⟩ | ⟨r', turned, far, goesOn⟩
      · -- the turn ends in the first part
        rw [same]
        cases turned : step strict answer r.counted ch rest with
        | next r' k =>
          rw [turned] at le turn
          have inside : k + 1 ≤ (ch :: rest).length := Nat.succ_le_succ le
          unfold Step.ending
          dsimp only
          rw [← List.cons_append, List.take_append_of_le_length inside]
          exact ih shorter k le (turn.advance _)
        | error e r' k =>
          rw [turned] at le
          refine Or.inr ?_
          have le : k ≤ rest.length := le
          have unread : (rest ++ b).length + 1 - k = rest.length + 1 - k + b.length := by
            rw [List.length_append]
            omega
          exact congrArg (Ending.returned (r'.setErrno e)) unread
        | leave r' k =>
          rw [turned] at le
          refine Or.inr ?_
          have le : k ≤ rest.length := le
          have unread : (rest ++ b).length - k = rest.length - k + b.length := by
            rw [List.length_append]
            omega
          exact congrArg (Ending.returned r') unread
        | abort => trivial
      · rw [failed]
        exact Or.inl rfl
      · rw [turned] at turn ⊢
        have all : (ch :: rest).take (rest.length + 1) = ch :: rest :=
          List.take_of_length_le (Nat.le_refl _)
        have finished : (Step.next r' rest.length).ending strict answer ch rest =
            .finished (r'.advance (ch :: rest)) := by
          have skipped := loop_passed strict answer (r'.advance (ch :: rest)) 0 rest []
          rw [Nat.add_zero, List.append_nil] at skipped
          unfold Step.ending
          dsimp only
          rw [all, skipped]
          rfl
        rw [finished]
        refine Or.inr (goesOn.imp (fun shifted => ⟨far, fun b₀ more cut => ?_⟩) id)
        have fits' : (r'.advance (ch :: rest)).Fits eof start 0 := turn.advance _
        have next := step_fits fits' strict answer b₀ more fun at_ => by
          have at_ : r'.parser.state = .sChunkSizeStart := at_
          rw [at_] at far
          cases far
        rw [cut] at shifted ⊢
        exact (shifted b₀ more rfl).ending next strict answer

theorem start_none {q : Parser} (fresh : resumed q.state = none) (m : Mark) :
    (Run.start q).marks m = none :=
  if_neg fun same => Option.some_ne_none m (same.symm.trans fresh)

theorem Run.mark_mark (r : Run) (m : Mark) : (r.mark m).mark m = r.mark m := by
  obtain ⟨marks, at_, same, set⟩ := r.mark_some m
  rw [same]
  simp only [mark, set]

/-- A mark that is set anew for the second buffer. -/
theorem alike_marked {r' : Run} {m : Mark} {at_ : Bytes} (parser : r'.parser = r.parser)
    (small : r.parser.nread ≤ httpMaxHeaderSize) (nothing : r'.callbacks = [])
    (set : r.marks m = some at_) (others : Single r.marks m) (set' : r'.marks m = some [])
    (others' : Single r'.marks m) : Alike r.report r r' := by
  refine ⟨by rw [parser], ?_, ?_, by rw [parser], by rw [parser]; exact small⟩
  · intro k
    by_cases same : k = m
    · subst same
      rw [set, set']
      rfl
    · rw [others k same, others' k same]
  · have one : r.report = r.callbacks ++ [m.callback at_] := by
      rw [Run.report, pending_some set others]
    have one' : r'.report = [m.callback []] := by
      rw [Run.report, pending_some set' others', nothing]
      rfl
    have cut := SameReports.cut r.callbacks m at_ []
    rw [List.append_nil] at cut
    rw [one, one', List.append_assoc]
    exact cut.symm

theorem openMark_fresh {s : State} {m : Mark} (fresh : resumed s = none)
    (opens : openMark s = some m) : m = .body := by
  cases s <;> cases fresh <;> cases opens <;> rfl

/-- The second buffer begins with the marks of the state; the body is marked only by the turn. -/
theorem Run.Fits.resumes (fits : r.Fits eof start 0)
    (small : r.parser.nread ≤ httpMaxHeaderSize) :
    Alike r.report r (Run.start r.parser) ∨
      openMark r.parser.state = some .body ∧ (∃ at_, r.marks .body = some at_) ∧
        Alike r.report r ((Run.start r.parser).mark .body) := by
  cases resumes : resumed r.parser.state with
  | some m =>
    have opens := openMark_of_resumed resumes
    obtain ⟨at_, set⟩ := Option.ne_none_iff_exists'.mp (fits.marked.set m resumes)
    refine .inl (alike_marked rfl small rfl set (fits.marked.single (.inr opens))
      (if_pos resumes) ?_)
    intro k other
    refine if_neg fun same => other ?_
    exact (Option.some.inj (resumes.symm.trans same)).symm
  | none =>
    have unset := start_none resumes
    by_cases closed : ∀ m, r.marks m = none
    · refine .inl ⟨rfl, ?_, ?_, Nat.le_refl _, small⟩
      · intro m
        rw [closed m, unset m]
      · have nothing : (Run.start r.parser).report = [] := by
          rw [Run.report, pending_none unset]
          rfl
        rw [nothing, List.append_nil]
        rfl
    · obtain ⟨m, set⟩ := not_forall.mp closed
      have opens := fits.marked.only m set
      obtain rfl := openMark_fresh resumes opens
      obtain ⟨at_, set⟩ := Option.ne_none_iff_exists'.mp set
      refine .inr ⟨opens, ⟨at_, set⟩, alike_marked (Run.mark_keeps _ _) small
        (Run.mark_callbacks _ _) set (fits.marked.single (.inr opens)) ?_ ?_⟩
      · simp only [Run.mark, unset]
        simp
      · exact Run.single_mark fun k _ => unset k

/-- Only the second run counts the byte that comes next. -/
theorem Alike.ahead (alike : Alike past r r')
    (few : ¬ (parsingHeader r'.parser.state ∧ r'.counted.parser.nread > httpMaxHeaderSize)) :
    Alike past r r'.counted := by
  unfold Run.counted at few ⊢
  by_cases head : parsingHeader r'.parser.state
  · rw [if_pos head] at few ⊢
    have top : httpMaxHeaderSize = 81920 := rfl
    have less := alike.nread
    have small := alike.small
    have counted : (r'.count 1).parser.nread = r'.parser.nread + 1 := Nat.mod_eq_of_lt (by omega)
    refine ⟨?_, alike.marks, alike.report, ?_, Nat.not_lt.mp fun long => few ⟨head, long⟩⟩
    · have parser := congrArg (Parser.setNread · ((r'.parser.nread + 1) % 2 ^ 32)) alike.parser
      exact parser
    · rw [counted]
      exact Nat.le_succ_of_le less
  · rw [if_neg head]
    exact alike

/-- A turn of the second run beside the one of `c`, which goes on behind the first part or in the
middle of a turn. -/
theorem turn_of_alike (alike : Alike past r r') (fits : r.Fits eof start 0)
    (fits' : r'.Fits eof' start' 0) (strict : Bool) (answer : Nat) (ch : Byte) (rest : Bytes)
    (short : (ch :: rest).length < 2 ^ 31)
    (few : ¬ (parsingHeader r'.parser.state ∧ r'.counted.parser.nread > httpMaxHeaderSize))
    {c : Run} (which : c = r ∧ r.parser.state.far ∨ c = r.counted) :
    TurnsAlike past (step strict answer c ch rest) (step strict answer r'.counted ch rest) := by
  have same : r'.parser.state = r.parser.state := by rw [alike.parser]
  rcases which with ⟨rfl, far⟩ | rfl
  · refine step_alike (alike.ahead few) fits.marked strict answer ch rest short ?_
    intro at_
    rw [at_] at far
    cases far
  · rcases alike.next with ⟨long, head⟩ | next
    · exact absurd ⟨head, long⟩ few
    · refine step_alike next fits.counted.marked strict answer ch rest short ?_
      intro at_
      have at_r : r.parser.state = .sChunkSizeStart := r.counted_state.symm.trans at_
      have counted := fits.counted
      have counted' := fits'.counted
      rw [if_pos at_r] at counted
      rw [if_pos (same.trans at_r)] at counted'
      exact ⟨counted.one at_, counted'.one (r'.counted_state.trans (same.trans at_r))⟩

theorem mark_counted (r : Run) (m : Mark) : (r.mark m).counted = r.counted.mark m := by
  unfold Run.counted
  rw [Run.mark_keeps]
  by_cases head : parsingHeader r.parser.state
  · rw [if_pos head, if_pos head]
    have same : (r.count 1).marks = r.marks := rfl
    unfold Run.mark
    rw [same]
    cases r.marks m <;> rfl
  · rw [if_neg head, if_neg head]

/-- The states of a body mark it themselves. -/
theorem step_mark (strict : Bool) (answer : Nat) (r : Run) (ch : Byte) (rest : Bytes)
    (opens : openMark r.parser.state = some .body)
    (goesOn : r.parser.state ≠ .sChunkDataAlmostDone) :
    step strict answer (r.mark .body) ch rest = step strict answer r ch rest := by
  have parser := Run.mark_keeps r .body
  have again := Run.mark_mark r .body
  unfold step
  rw [parser]
  cases at_ : r.parser.state with
  | sBodyIdentity =>
    dsimp only
    unfold sBodyIdentity
    rw [parser, again]
  | sBodyIdentityEof =>
    dsimp only
    unfold sBodyIdentityEof
    rw [again]
  | sChunkData =>
    dsimp only
    unfold sChunkData
    rw [parser, again]
  | sChunkDataAlmostDone => exact absurd at_ goesOn
  | _ =>
    rw [at_] at opens
    cases opens

theorem start_counted (r : Run) : (Run.start r.parser).counted.parser = r.counted.parser := by
  unfold Run.counted
  change (if parsingHeader r.parser.state then _ else _ : Run).parser = _
  split_ifs <;> rfl

/-- A chunk whose data ended with the first buffer was reported there. -/
theorem chunk_end_resumed (at_ : r.parser.state = .sChunkDataAlmostDone) {data : Bytes}
    (set : r.marks .body = some data) (others : Single r.marks .body) (strict : Bool) (answer : Nat)
    (ch : Byte) (rest : Bytes) (small : r.parser.nread ≤ httpMaxHeaderSize) :
    TurnsAlike r.report (step strict answer r.counted ch rest)
      (step strict answer (Run.start r.parser).counted ch rest) := by
  have uncounted : ∀ r : Run, r.parser.state = .sChunkDataAlmostDone → r.counted = r := by
    intro r at_
    unfold Run.counted
    rw [at_]
    rfl
  have turn : ∀ r : Run, r.parser.state = .sChunkDataAlmostDone →
      step strict answer r ch rest = sChunkDataAlmostDone strict r ch := by
    intro r at_
    simp only [step, at_]
  have unset : ∀ m, (Run.start r.parser).marks m = none := start_none (by rw [at_]; rfl)
  rw [uncounted r at_, uncounted (Run.start r.parser) at_, turn r at_,
    turn (Run.start r.parser) at_]
  unfold sChunkDataAlmostDone
  change TurnsAlike _ (if !r.parser.flags.fChunked ∨ r.parser.contentLength ≠ 0 then _ else _)
    (if !r.parser.flags.fChunked ∨ r.parser.contentLength ≠ 0 then _ else _)
  split_ifs
  · exact .abort
  · exact .error _ 0
  · have single : Single (r.updateState .sChunkDataDone).marks .body := others
    have closed := Run.closed_flush single []
    have here : (r.updateState .sChunkDataDone).marks .body = some data := set
    have there : ((Run.start r.parser).updateState .sChunkDataDone).marks .body = none :=
      unset .body
    have nothing : ((Run.start r.parser).updateState .sChunkDataDone).callbackData .body =
        (Run.start r.parser).updateState .sChunkDataDone := by
      rw [Run.callbackData, Run.callbackData_, there]
    rw [nothing]
    refine .next 0 ⟨?_, ?_, ?_, ?_, small⟩
    · rw [Run.callbackData, Run.CALLBACK_keeps]
      rfl
    · intro m
      exact congrArg Option.isSome ((closed m).trans (unset m).symm)
    · have past : r.report = r.callbacks ++ [.onBody data] := by
        rw [Run.report, pending_some set others]
        rfl
      have report : ((r.updateState .sChunkDataDone).callbackData .body).report =
          r.callbacks ++ [.onBody (data ++ [])] := by
        unfold Run.report Run.callbackData
        rw [pending_none closed, List.append_nil, Run.callbackData_, here]
        rfl
      have report' : ((Run.start r.parser).updateState .sChunkDataDone).report = [] := by
        unfold Run.report
        exact pending_none unset
      rw [past, report, report', List.append_nil, List.append_nil]
      rfl
    · rw [Run.callbackData, Run.CALLBACK_keeps]
      exact Nat.le_refl _

/-- The first turn over the second buffer. -/
theorem resumed_turn (fits : r.Fits eof start 0) (fits' : (Run.start r.parser).Fits eof' start' 0)
    (small : r.parser.nread ≤ httpMaxHeaderSize) (strict : Bool) (answer : Nat) (ch : Byte)
    (rest : Bytes) (short : (ch :: rest).length < 2 ^ 31)
    (few : ¬ (parsingHeader r.parser.state ∧ r.counted.parser.nread > httpMaxHeaderSize))
    {c : Run} (which : c = r ∧ r.parser.state.far ∨ c = r.counted) :
    TurnsAlike r.report (step strict answer c ch rest)
      (step strict answer (Run.start r.parser).counted ch rest) := by
  have few' : ¬ (parsingHeader (Run.start r.parser).parser.state ∧
      (Run.start r.parser).counted.parser.nread > httpMaxHeaderSize) := by
    rw [start_counted]
    exact few
  rcases fits.resumes small with alike | ⟨opens, ⟨data, set⟩, alike⟩
  · exact turn_of_alike alike fits fits' strict answer ch rest short few' which
  · by_cases at_ : r.parser.state = .sChunkDataAlmostDone
    · rcases which with ⟨-, far⟩ | rfl
      · rw [at_] at far
        cases far
      · exact chunk_end_resumed at_ set (fits.marked.single (.inr opens)) strict answer
          ch rest small
    · have same : step strict answer ((Run.start r.parser).mark .body).counted ch rest =
          step strict answer (Run.start r.parser).counted ch rest := by
        have here : (Run.start r.parser).counted.parser.state = r.parser.state :=
          Run.counted_state _
        rw [mark_counted, step_mark]
        · rw [here]
          exact opens
        · rw [here]
          exact at_
      have marked : ((Run.start r.parser).mark .body).Fits eof' start' 0 := by
        obtain ⟨ph, there, path⟩ := fits'.path
        have parser := Run.mark_keeps (Run.start r.parser) .body
        refine ⟨⟨ph, ?_, ?_⟩, ?_, ?_, ?_⟩
        · rw [parser]
          exact there
        · rw [Run.mark_callbacks]
          exact path
        · rw [parser]
          refine Run.marked_mark fits'.marked (.inr opens) opens ?_
          cases here : resumed r.parser.state with
          | none => exact .inl here
          | some m =>
            have same := (openMark_of_resumed here).symm.trans opens
            exact .inr (here.trans same)
        · rw [parser]
          exact fits'.data
        · rw [parser]
          exact fits'.bounded
      rw [← same]
      refine turn_of_alike alike fits marked strict answer ch rest short ?_ which
      have parser : ((Run.start r.parser).mark .body).counted.parser =
          (Run.start r.parser).counted.parser := by
        rw [mark_counted, Run.mark_keeps]
      rw [Run.mark_keeps, parser]
      exact few'

theorem COUNT_long {v passed : Nat} {k : Run → Step} (small : r.parser.nread ≤ httpMaxHeaderSize)
    (short : v < 2 ^ 31) (long : httpMaxHeaderSize < r.parser.nread + v) :
    r.countHeaderSize v passed k = .error .hpeHeaderOverflow (r.count v) passed :=
  if_pos ((Run.count_long small short).mpr long)

/-- A value whose count would pass the limit in one buffer only is an error that depends on the
cuts. -/
theorem value_lost {p : Bytes} (small : r.parser.nread ≤ httpMaxHeaderSize)
    (short : p.length < 2 ^ 31)
    (lost : (valueLoop r.parser r.parser.headerState 0 p).Lost r.parser.nread) :
    ∃ e r' n, sHeaderValue r p = .error e r' n ∧ e.ofCut := by
  have within := valueLoop_within r.parser r.parser.headerState 0 p
  have kept := valueLoop_counted r.parser r.parser.headerState 0 p
  unfold sHeaderValue
  cases looped : valueLoop r.parser r.parser.headerState 0 p with
  | cr q h n =>
    rw [looped] at lost within kept
    have same : (({ r with parser := q.setHeaderState h } : Run).updateState
        .sHeaderAlmostDone).parser.nread = r.parser.nread := kept
    have flushed := (congrArg Parser.nread (Run.CALLBACK_keeps (({ r with
      parser := q.setHeaderState h } : Run).updateState .sHeaderAlmostDone) .headerValue
      (p.take n))).trans same
    refine ⟨_, _, _, COUNT_long (flushed ▸ small) (Nat.lt_trans within short) ?_, rfl⟩
    rw [flushed]
    exact lost
  | lf q h n =>
    rw [looped] at lost within kept
    have same : (({ r with parser := q } : Run).updateState .sHeaderAlmostDone).parser.nread =
        r.parser.nread := kept
    refine ⟨_, _, _, COUNT_long (same ▸ small) (Nat.lt_trans within short) ?_, rfl⟩
    rw [same]
    exact lost
  | finished q h n =>
    rw [looped] at lost within kept
    obtain rfl : n = p.length := within
    have same : ({ r with parser := q.setHeaderState h } : Run).parser.nread = r.parser.nread :=
      kept
    refine ⟨_, _, _, COUNT_long (same ▸ small) short ?_, rfl⟩
    rw [same]
    exact lost
  | bad e q n =>
    rw [looped] at lost
    obtain rfl : e = .hpeInvalidHeaderToken := lost
    exact ⟨_, _, _, rfl, rfl⟩
  | abort =>
    rw [looped] at lost
    exact lost.elim

/-- A value whose second part is searched from its own first byte on may fail. -/
theorem lost_turn {b₀ : Byte} {more : Bytes} (lost : r.Lost (b₀ :: more))
    (less : r.parser.nread ≤ httpMaxHeaderSize) (short : (b₀ :: more).length < 2 ^ 31)
    (strict : Bool) (answer : Nat)
    (few : ¬ (parsingHeader r.parser.state ∧ r.counted.parser.nread > httpMaxHeaderSize)) :
    ∃ e r' n, step strict answer (Run.start r.parser).counted b₀ more = .error e r' n ∧
      e.ofCut := by
  obtain ⟨at_, lost⟩ := lost
  have counted : (Run.start r.parser).counted = (Run.start r.parser).count 1 := by
    unfold Run.counted
    change (if parsingHeader r.parser.state then _ else _) = _
    rw [at_]
    rfl
  have small : ((Run.start r.parser).count 1).parser.nread ≤ httpMaxHeaderSize := by
    refine Nat.not_lt.mp fun long => few ⟨by rw [at_]; rfl, ?_⟩
    rw [← start_counted, counted]
    exact long
  have nread : ((Run.start r.parser).count 1).parser.nread = r.parser.nread + 1 :=
    Nat.mod_eq_of_lt (Nat.lt_of_le_of_lt (Nat.succ_le_succ less) (by decide))
  have turn : step strict answer ((Run.start r.parser).count 1) b₀ more =
      sHeaderValue ((Run.start r.parser).count 1) (b₀ :: more) := by
    have at_ : ((Run.start r.parser).count 1).parser.state = .sHeaderValue := at_
    simp only [step, at_]
  have under := valueLoop_apart (.nread ((Run.start r.parser).count 1).parser.nread) r.parser
    r.parser.headerState 0 (b₀ :: more)
  have lost := under.lost lost
  rw [← nread] at lost
  rw [counted, turn]
  exact value_lost small short lost

theorem finish_report {s : State} (marked : Marked s r.marks) :
    ∃ r', r.finish = some r' ∧ r'.parser = r.parser ∧ r'.callbacks = r.report := by
  obtain ⟨m, others⟩ := marked.one
  refine ⟨r.callbackData m, finish_some others, r.CALLBACK_keeps m [], ?_⟩
  unfold Run.callbackData Run.callbackData_
  cases set : r.marks m with
  | none =>
    have unset : ∀ k, r.marks k = none := fun k => by
      by_cases same : k = m
      · exact same ▸ set
      · exact others k same
    rw [Run.report, pending_none unset, List.append_nil]
  | some at_ => simp only [Run.report, pending_some set others, List.append_nil]

/-- A run beside itself. -/
theorem Alike.self (small : r.parser.nread ≤ httpMaxHeaderSize) : Alike [] r r :=
  ⟨rfl, fun _ => rfl, rfl, Nat.le_refl _, small⟩

/-- How the loop over a buffer ends, when the call does not fail. -/
theorem execute_ends {strict : Bool} {answer : Nat} {q q' : Parser} {e : Execution} {ph : Phase}
    {data : Bytes} (fits : q.Fits ph) (some_ : data ≠ [])
    (executed : httpParserExecute strict answer q data = some (q', e)) :
    (∃ r, loop strict answer 0 (.start q) data = .finished r ∧ r.Fits True ph 0 ∧ q' = r.parser ∧
      e = ⟨r.report, data.length⟩) ∨
    (∃ r unread, loop strict answer 0 (.start q) data = .returned r unread ∧ q' = r.parser ∧
      e = ⟨r.callbacks, data.length - unread⟩) := by
  have run : (loop strict answer 0 (.start q) data).Fits True ph :=
    loop_fits strict answer data 0 fits.started
  unfold httpParserExecute at executed
  rw [if_neg (not_not.mpr fits.bounded.ok), if_neg some_] at executed
  cases ended : loop strict answer 0 (.start q) data with
  | finished r =>
    rw [ended] at run executed
    obtain ⟨r', finished, parser, report⟩ := finish_report run.marked
    simp only [finished, Option.bind_eq_bind, Option.bind_some, Option.some.injEq,
      Prod.mk.injEq] at executed
    obtain ⟨rfl, rfl⟩ := executed
    exact .inl ⟨r, rfl, run, parser, by rw [report]⟩
  | returned r unread =>
    rw [ended] at executed
    obtain ⟨rfl, rfl⟩ := Prod.mk.inj (Option.some.inj executed)
    exact .inr ⟨r, unread, rfl, rfl, rfl⟩
  | aborted =>
    rw [ended] at run
    exact run.elim

/-- What is left unread is a part of the buffer. -/
theorem loop_unread (strict : Bool) (answer : Nat) (p : Bytes) (passed : Nat) {unread : Nat}
    (ended : loop strict answer passed r p = .returned r' unread) : unread ≤ p.length := by
  induction p generalizing passed r with
  | nil => cases passed <;> cases ended
  | cons ch rest ih =>
    cases passed with
    | succ passed => exact Nat.le_succ_of_le (ih passed ended)
    | zero =>
      rw [loop_cons] at ended
      split_ifs at ended
      · injection ended with _ same
        exact same.symm.le
      · cases turned : step strict answer r.counted ch rest with
        | next r passed =>
          rw [turned] at ended
          exact Nat.le_succ_of_le (ih passed ended)
        | error e r passed =>
          rw [turned] at ended
          injection ended with _ same
          exact same ▸ Nat.sub_le _ _
        | leave r passed =>
          rw [turned] at ended
          injection ended with _ same
          exact same ▸ (Nat.sub_le _ _).trans (Nat.le_succ _)
        | abort =>
          rw [turned] at ended
          cases ended

theorem execute_small {strict : Bool} {answer : Nat} {q q' : Parser} {e : Execution} {ph : Phase}
    {data : Bytes} (fits : q.Fits ph) (small : q.nread ≤ httpMaxHeaderSize) (some_ : data ≠ [])
    (short : data.length < 2 ^ 31)
    (executed : httpParserExecute strict answer q data = some (q', e))
    (ok : q'.httpErrno = .hpeOk) : q'.nread ≤ httpMaxHeaderSize := by
  have started : (Run.start q).Fits True ph 0 := fits.started
  have beside := loop_alike strict answer data short 0 (Alike.self (r := Run.start q) small) started
    started
  rcases execute_ends fits some_ executed with ⟨r, ended, -, rfl, -⟩ | ⟨r, unread, ended, rfl, -⟩
  · rw [ended] at beside
    cases beside with
    | finished alike => exact alike.small
  · rw [ended] at beside
    cases beside with
    | left _ alike => exact alike.small
    | error _ bad => exact absurd ok bad
    | lost _ _ ofCut =>
      rw [ok] at ofCut
      cases ofCut

/-- The loop over the second buffer beside the one over both, when neither error of the cuts
happens. -/
theorem loop_joined {strict : Bool} {answer : Nat} {q : Parser} {ph ph' : Phase} {a b : Bytes}
    (fits : q.Fits ph) (short : (a ++ b).length < 2 ^ 31) (some_ : b ≠ [])
    (finished : loop strict answer 0 (.start q) a = .finished r) (run : r.Fits True ph 0)
    (fits' : r.parser.Fits ph') (small : r.parser.nread ≤ httpMaxHeaderSize) :
    EndsAlike r.report (loop strict answer 0 (.start q) (a ++ b))
      (loop strict answer 0 (.start r.parser) b) := by
  have started : (Run.start r.parser).Fits True ph' 0 := fits'.started
  have short_a : a.length < 2 ^ 31 := by
    rw [List.length_append] at short
    omega
  have short_b : b.length < 2 ^ 31 := by
    rw [List.length_append] at short
    omega
  have begun : (Run.start q).Fits True ph 0 := fits.started
  have cut := loop_cut strict answer a b short_a 0 (Nat.zero_le _) begun
  rw [finished] at cut
  obtain ⟨b₀, more, rfl⟩ := List.exists_cons_of_ne_nil some_
  have second : loop strict answer 0 (Run.start r.parser) (b₀ :: more) =
      if parsingHeader r.parser.state ∧ r.counted.parser.nread > httpMaxHeaderSize then
        .returned ((Run.start r.parser).counted.setErrno .hpeHeaderOverflow) (more.length + 1)
      else (step strict answer (Run.start r.parser).counted b₀ more).ending strict answer b₀
        more := by
    rw [loop_cons, start_counted]
    rfl
  by_cases long : parsingHeader r.parser.state ∧ r.counted.parser.nread > httpMaxHeaderSize
  · rw [second, if_pos long]
    exact .lost _ _ rfl
  rw [if_neg long] at second
  rw [second]
  have turn_ := started.turn strict answer b₀ more
  have shorter : more.length < 2 ^ 31 := Nat.lt_of_succ_lt short_b
  rcases cut with whole | ⟨far, whole⟩ | lost
  · -- the first part ended between two turns
    rw [whole, loop_cons, if_neg long]
    exact (resumed_turn run started small strict answer b₀ more short_b long (.inr rfl)).ending
      (run.turn strict answer b₀ more) turn_ strict answer b₀ more
      fun r r' passed => loop_alike strict answer more shorter passed
  · refine EndsAlike.of_same (whole b₀ more rfl) ?_
    have next := step_fits run strict answer b₀ more fun at_ => by
      rw [at_] at far
      cases far
    exact (resumed_turn run started small strict answer b₀ more short_b long
      (.inl ⟨rfl, far⟩)).ending
      next turn_ strict answer b₀ more
      fun r r' passed => loop_alike strict answer more shorter passed
  · obtain ⟨e, r', n, failed, ofCut⟩ := lost_turn lost small short_b strict answer long
    rw [failed]
    have errno : (r'.setErrno e).parser.httpErrno.ofCut := ofCut
    exact .lost _ _ errno

theorem Parser.Switched.report {q : Parser} (switched : q.Switched) (fits : r.Fits eof start 0)
    (same : r.parser = q) : r.report = r.callbacks := by
  have closed : openMark r.parser.state = none := by
    rw [same]
    rcases switched.2 with at_ | at_ | at_ <;>
    · rw [at_]
      rfl
  rw [Run.report, pending_none (fits.marked.none_set closed), List.append_nil]

/-- Two calls and one over the same bytes. -/
theorem execute_cut {strict : Bool} {answer : Nat} {q q₁ q₂ : Parser} {e₁ e₂ : Execution}
    {ph : Phase} {a b : Bytes} (fits : q.Fits ph) (small : q.nread ≤ httpMaxHeaderSize)
    (some_a : a ≠ []) (some_b : b ≠ []) (short : (a ++ b).length < 2 ^ 31)
    (first : httpParserExecute strict answer q a = some (q₁, e₁))
    (ok : q₁.httpErrno = .hpeOk) (goesOn : ¬ q₁.Switched)
    (second : httpParserExecute strict answer q₁ b = some (q₂, e₂))
    (kept : ¬ q₂.httpErrno.ofCut) :
    ∃ q' e, httpParserExecute strict answer q (a ++ b) = some (q', e) ∧
      q'.httpErrno = q₂.httpErrno ∧ e.parsedn = a.length + e₂.parsedn ∧
      (q₂.httpErrno = .hpeOk → q₂ = q'.setNread q₂.nread ∧ q'.nread ≤ q₂.nread ∧
        SameReports e.callbacks (e₁.callbacks ++ e₂.callbacks)) := by
  rcases execute_ends fits some_a first with ⟨r, finished, run, rfl, rfl⟩ |
    ⟨r, unread, ended, rfl, rfl⟩
  swap
  · -- without an error the loop returns only to another protocol
    have run : (loop strict answer 0 (.start q) a).Fits True ph :=
      loop_fits strict answer a 0 fits.started
    rw [ended] at run
    rcases run with ⟨-, switched⟩ | ⟨bad, -⟩
    · exact absurd switched goesOn
    · exact absurd ok bad
  have small_r := execute_small fits small some_a
    (by rw [List.length_append] at short; omega) first ok
  obtain ⟨ph', here, path⟩ := run.path
  have fits' : r.parser.Fits ph' := ⟨here, run.data, run.bounded⟩
  have joined := loop_joined fits short some_b finished run fits' small_r
  have whole_fits : (loop strict answer 0 (.start q) (a ++ b)).Fits True ph :=
    loop_fits strict answer (a ++ b) 0 fits.started
  have some_ab : a ++ b ≠ [] := List.append_ne_nil_of_left_ne_nil some_a b
  have executed : ∃ q' e, httpParserExecute strict answer q (a ++ b) = some (q', e) := by
    obtain ⟨q', e, -, executed, -⟩ := execute_fits strict answer fits (a ++ b)
      fun _ => True.intro
    exact ⟨q', e, executed⟩
  obtain ⟨q', e, executed⟩ := executed
  refine ⟨q', e, executed, ?_⟩
  rcases execute_ends fits' some_b second with ⟨r₂, finished₂, run₂, rfl, rfl⟩ |
    ⟨r₂, unread, ended, rfl, rfl⟩
  · rw [finished₂] at joined
    cases whole : loop strict answer 0 (.start q) (a ++ b) with
    | returned r' unread =>
      rw [whole] at joined
      cases joined
    | aborted =>
      rw [whole] at joined
      cases joined
    | finished r' =>
      rw [whole] at joined
      cases joined with
      | finished alike =>
        rcases execute_ends fits some_ab executed with ⟨r'', finished'', run', rfl, rfl⟩ |
          ⟨r'', _, ended, -, -⟩
        · injection whole.symm.trans finished'' with same
          subst same
          refine ⟨?_, List.length_append, fun _ => ⟨alike.parser, alike.nread, ?_⟩⟩
          · rw [alike.parser]
          · exact alike.report
        · cases whole.symm.trans ended
  · have run₂ : (loop strict answer 0 (.start r.parser) b).Fits True ph' :=
      loop_fits strict answer b 0 fits'.started
    have le := loop_unread strict answer b 0 ended
    rw [ended] at joined run₂
    -- the run over both parts returned with as much unread
    have returned : ∀ r', loop strict answer 0 (.start q) (a ++ b) = .returned r' unread →
        q' = r'.parser ∧ e = ⟨r'.callbacks, (a ++ b).length - unread⟩ := by
      intro r' whole
      rcases execute_ends fits some_ab executed with ⟨_, finished'', -⟩ |
        ⟨r'', _, ended'', rfl, rfl⟩
      · cases whole.symm.trans finished''
      · injection whole.symm.trans ended'' with same same'
        subst same same'
        exact ⟨rfl, rfl⟩
    have parsed : (a ++ b).length - unread = a.length + (b.length - unread) := by
      rw [List.length_append]
      exact Nat.add_sub_assoc le _
    cases whole : loop strict answer 0 (.start q) (a ++ b) with
    | finished r' =>
      rw [whole] at joined
      cases joined with
      | lost _ _ ofCut => exact absurd ofCut kept
    | aborted =>
      rw [whole] at joined
      cases joined with
      | lost _ _ ofCut => exact absurd ofCut kept
    | returned r' unread' =>
      rw [whole] at joined whole_fits
      cases joined with
      | lost _ _ ofCut => exact absurd ofCut kept
      | left _ alike =>
        obtain ⟨rfl, rfl⟩ := returned r' whole
        refine ⟨by rw [alike.parser], parsed, fun ok₂ => ⟨alike.parser, alike.nread, ?_⟩⟩
        have ok' : r'.parser.httpErrno = .hpeOk := by
          rw [← ok₂, alike.parser]
        obtain ⟨fits_r', switched'⟩ := whole_fits.resolve_right fun bad => bad.1 ok'
        obtain ⟨fits_r₂, switched₂⟩ := run₂.resolve_right fun bad => bad.1 ok₂
        have report := alike.report
        rw [switched'.report fits_r' rfl, switched₂.report fits_r₂ rfl] at report
        exact report
      | error _ bad same =>
        obtain ⟨rfl, rfl⟩ := returned r' whole
        exact ⟨same.symm, parsed, fun ok₂ => absurd (same.symm.trans ok₂) bad⟩

/-- A stream that is fed in pieces: each but the last one is taken as a whole, without an error and
without a change of the protocol. -/
inductive InPieces (strict : Bool) (answer : Nat) :
    Parser → List Bytes → List Callback → Nat → Parser → Prop
  | last {q q' : Parser} {e : Execution} {a : Bytes} (some_ : a ≠ [])
      (executed : httpParserExecute strict answer q a = some (q', e)) :
      InPieces strict answer q [a] e.callbacks e.parsedn q'
  | more {q q₁ q' : Parser} {e : Execution} {a : Bytes} {pieces : List Bytes}
      {callbacks : List Callback} {parsedn : Nat} (some_ : a ≠ [])
      (executed : httpParserExecute strict answer q a = some (q₁, e))
      (ok : q₁.httpErrno = .hpeOk) (goesOn : ¬ q₁.Switched)
      (rest : InPieces strict answer q₁ pieces callbacks parsedn q') :
      InPieces strict answer q (a :: pieces) (e.callbacks ++ callbacks) (a.length + parsedn) q'

theorem InPieces.nonempty {strict : Bool} {answer parsedn : Nat} {q q' : Parser}
    {pieces : List Bytes}
    {callbacks : List Callback} (fed : InPieces strict answer q pieces callbacks parsedn q') :
    pieces.flatten ≠ [] := by
  cases fed with
  | last some_ => simpa using some_
  | more some_ => exact List.append_ne_nil_of_left_ne_nil some_ _

/-- Any number of pieces, by induction on them. -/
theorem InPieces.joined {strict : Bool} {answer parsedn : Nat} {q q₂ : Parser} {pieces : List Bytes}
    {callbacks : List Callback} (fed : InPieces strict answer q pieces callbacks parsedn q₂)
    {ph : Phase} (fits : q.Fits ph) (small : q.nread ≤ httpMaxHeaderSize)
    (kept : ¬ q₂.httpErrno.ofCut) (short : pieces.flatten.length < 2 ^ 31) :
    ∃ q' e, httpParserExecute strict answer q pieces.flatten = some (q', e) ∧
      q'.httpErrno = q₂.httpErrno ∧ e.parsedn = parsedn ∧
      (q₂.httpErrno = .hpeOk → q₂ = q'.setNread q₂.nread ∧ q'.nread ≤ q₂.nread ∧
        SameReports e.callbacks callbacks) := by
  induction fed generalizing ph with
  | @last q q' e a some_ executed =>
    refine ⟨q', e, by simpa using executed, rfl, rfl, fun _ => ⟨rfl, Nat.le_refl _, rfl⟩⟩
  | @more q q₁ q₂ e a pieces callbacks parsedn some_ executed ok goesOn rest ih =>
    rw [List.flatten_cons] at short ⊢
    have parts : (a ++ pieces.flatten).length = a.length + pieces.flatten.length :=
      List.length_append
    obtain ⟨_, _, ph', executed', -, after⟩ :=
      execute_fits strict answer fits a fun _ => True.intro
    obtain ⟨rfl, rfl⟩ := Prod.mk.inj (Option.some.inj (executed'.symm.trans executed))
    have fits₁ := after.resolve_left (not_not.mpr ok)
    have small₁ := execute_small fits small some_ (by omega) executed ok
    obtain ⟨q'', e'', whole, errno, parsed, same⟩ := ih fits₁ small₁ kept (by omega)
    obtain ⟨q', e', both, errno', parsed', same'⟩ :=
      execute_cut fits small some_ rest.nonempty short executed ok goesOn whole
        (by rw [errno]; exact kept)
    refine ⟨q', e', both, errno'.trans errno, by rw [parsed', parsed], fun ok₂ => ?_⟩
    obtain ⟨parser, less, reports⟩ := same ok₂
    obtain ⟨parser', less', reports'⟩ := same' (errno.trans ok₂)
    refine ⟨?_, less'.trans less, reports'.trans ?_⟩
    · rw [parser'] at parser
      exact parser
    · exact SameReports.append rfl reports

/-- Between two buffers the count is within its limit. -/
theorem feed_small (strict : Bool) {q q' : Parser} {ph : Phase} (fits : q.Fits ph)
    (small : q.nread ≤ httpMaxHeaderSize) {buffers : List (Bytes × Nat)}
    (short : ∀ buffer ∈ buffers, buffer.1.length < 2 ^ 31) {callbacks : List Callback}
    (fed : feed strict q buffers = some (q', callbacks)) (ok : q'.httpErrno = .hpeOk) :
    q'.nread ≤ httpMaxHeaderSize ∧ ∃ ph', q'.Fits ph' := by
  induction buffers generalizing q ph callbacks with
  | nil =>
    obtain ⟨rfl, -⟩ := Prod.mk.inj (Option.some.inj fed)
    exact ⟨small, ph, fits⟩
  | cons buffer rest ih =>
    obtain ⟨q₁, e, ph', executed, -, after⟩ :=
      execute_fits strict buffer.2 fits buffer.1 fun _ => True.intro
    simp only [feed, executed, Option.bind_eq_bind, Option.bind_some] at fed
    obtain ⟨⟨q₂, more⟩, fed_rest, same⟩ := Option.bind_eq_some_iff.mp fed
    obtain ⟨rfl, -⟩ := Prod.mk.inj (Option.some.inj same)
    by_cases ok₁ : q₁.httpErrno = .hpeOk
    · refine ih (after.resolve_left (not_not.mpr ok₁)) ?_
        (fun b inside => short b (List.mem_cons_of_mem _ inside)) fed_rest
      by_cases empty : buffer.1 = []
      · rw [empty] at executed
        unfold httpParserExecute at executed
        rw [if_neg (not_not.mpr fits.bounded.ok), if_pos rfl] at executed
        split at executed <;>
        · obtain ⟨rfl, -⟩ := Prod.mk.inj (Option.some.inj executed)
          exact small
      · exact execute_small fits small empty (short buffer List.mem_cons_self) executed ok₁
    · rw [feed_failed strict ok₁] at fed_rest
      obtain ⟨rfl, -⟩ := Prod.mk.inj (Option.some.inj fed_rest)
      exact absurd ok ok₁

/-- What is accepted in pieces is accepted as a whole, whatever was fed before: the error is the
same, as much is taken, and without an error the parser and the callbacks are the same up to
`nread` and to the cuts. The errors left out are those that depend on the cuts. -/
theorem execute_joined (strict : Bool) (answer : Nat) {t : ParserType} {before : List (Bytes × Nat)}
    {q q₂ : Parser} {earlier callbacks : List Callback} {pieces : List Bytes} {parsedn : Nat}
    (fed : feed strict (httpParserInit t) before = some (q, earlier))
    (ok : q.httpErrno = .hpeOk) (short_before : ∀ buffer ∈ before, buffer.1.length < 2 ^ 31)
    (inPieces : InPieces strict answer q pieces callbacks parsedn q₂)
    (kept : ¬ q₂.httpErrno.ofCut) (short : pieces.flatten.length < 2 ^ 31) :
    ∃ q' e, httpParserExecute strict answer q pieces.flatten = some (q', e) ∧
      q'.httpErrno = q₂.httpErrno ∧ e.parsedn = parsedn ∧
      (q₂.httpErrno = .hpeOk → q₂ = q'.setNread q₂.nread ∧ q'.nread ≤ q₂.nread ∧
        SameReports e.callbacks callbacks) := by
  obtain ⟨small, ph, fits⟩ := feed_small strict (.init t) (Nat.zero_le _) short_before fed ok
  exact inPieces.joined fits small kept short

theorem value_first : (httpParserExecute true 0 (httpParserInit .httpRequest)
    (literal "GET / HTTP/1.1\r\nA: bb")).isSome := by
  decide +kernel

theorem value_second : (httpParserExecute true 0 (Option.get _ value_first).1
    (literal "c\r\n\r\n")).isSome := by
  decide +kernel

/-- A request that is cut in the value of a header. -/
theorem execute_joined_value :
    ∃ q' e, httpParserExecute true 0 (httpParserInit .httpRequest)
        (literal "GET / HTTP/1.1\r\nA: bbc\r\n\r\n") = some (q', e) ∧
      q'.httpErrno = .hpeOk ∧ e.parsedn = 26 := by
  have taken : InPieces true 0 (httpParserInit .httpRequest)
      [literal "GET / HTTP/1.1\r\nA: bb", literal "c\r\n\r\n"] _ _ _ :=
    .more (by decide) (Option.some_get value_first).symm (by decide +kernel)
      (by unfold Parser.Switched; decide +kernel)
      (.last (by decide) (Option.some_get value_second).symm)
  have fresh : feed true (httpParserInit .httpRequest) [] =
      some (httpParserInit .httpRequest, []) := rfl
  obtain ⟨q', e, executed, errno, parsed, -⟩ :=
    execute_joined true 0 fresh rfl (fun _ inside => absurd inside List.not_mem_nil) taken
      (by decide +kernel) (by decide +kernel)
  refine ⟨q', e, executed, errno.trans (by decide +kernel), parsed.trans (by decide +kernel)⟩

/-- A byte that is not looked at in the whole value, and refused at the start of a buffer. -/
example :
    (httpParserExecute true 0 (httpParserInit .httpRequest)
      (literal "GET / HTTP/1.1\r\nA: bb" ++ 1 :: literal "c\r\n\r\n")).map (·.1.httpErrno) =
      some .hpeOk ∧
    (httpParserExecute true 0 (Option.get _ value_first).1 (1 :: literal "c\r\n\r\n")).map
      (·.1.httpErrno) = some .hpeInvalidHeaderToken := by
  decide +kernel

end HttpLib
