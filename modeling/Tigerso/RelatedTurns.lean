import Tigerso.BodySteps
import Tigerso.JoinedPieces

/-!
# Two runs of http_parser_execute over the same bytes

One of them has seen what comes before in one buffer, the other one in a buffer of its own: they
differ in the marks, which the end of a buffer reports, and in `nread`. As long as the second run
finds no header too long and no forbidden byte in one, they make the same turns.
-/

open SystemCalls LabelledPaths JoinedPieces

namespace HttpLib

def Callback.data : Callback → Option (Mark × Bytes)
  | .onUrl at_ => some (.url, at_)
  | .onStatus at_ => some (.status, at_)
  | .onHeaderField at_ => some (.headerField, at_)
  | .onHeaderValue at_ => some (.headerValue, at_)
  | .onBody at_ => some (.body, at_)
  | _ => none

def pieces : Pieces Callback Mark Byte where
  data := Callback.data
  make := Mark.callback
  data_make := by
    intro m at_
    cases m <;> rfl
  make_data := by
    intro c m at_ data
    cases c <;> cases data <;> rfl

/-- The callbacks are the same, up to the cuts. -/
def SameReports (l l' : List Callback) : Prop := joined pieces l = joined pieces l'

theorem SameReports.append {l l' m m' : List Callback} (left : SameReports l l')
    (right : SameReports m m') : SameReports (l ++ m) (l' ++ m') :=
  joined_append_congr left right

theorem SameReports.cut (l : List Callback) (m : Mark) (x y : Bytes) :
    SameReports (l ++ [m.callback x, m.callback y]) (l ++ [m.callback (x ++ y)]) :=
  joined_cut l m x y

def pending (marks : Mark → Option Bytes) : List Callback :=
  Mark.all.flatMap fun m => ((marks m).map m.callback).toList

def Run.report (r : Run) : List Callback := r.callbacks ++ pending r.marks

theorem pending_none {marks : Mark → Option Bytes} (unset : ∀ m, marks m = none) :
    pending marks = [] := by
  simp [pending, unset]

theorem pending_some {marks : Mark → Option Bytes} {m : Mark} {at_ : Bytes}
    (set : marks m = some at_) (others : ∀ k, k ≠ m → marks k = none) :
    pending marks = [m.callback at_] := by
  cases m <;> simp [pending, Mark.all, set, others]

/-- Every mark but one is not set. -/
def Single (marks : Mark → Option Bytes) (m : Mark) : Prop := ∀ k, k ≠ m → marks k = none

/-- The bytes behind a mark are reported with it. -/
theorem Run.report_advance {r : Run} {m : Mark} (single : Single r.marks m) (bytes : Bytes) :
    (r.advance bytes).report = (r.callbackData_ m bytes).report := by
  cases set : r.marks m with
  | none =>
    have closed : ∀ k, r.marks k = none := fun k => by
      by_cases same : k = m
      · exact same ▸ set
      · exact single k same
    have still : ∀ k, (r.advance bytes).marks k = none := fun k => by simp [advance, closed]
    simp only [report, callbackData_, set, pending_none closed, pending_none still]
    rfl
  | some at_ =>
    have longer : (r.advance bytes).marks m = some (at_ ++ bytes) := by simp [advance, set]
    have others : Single (r.advance bytes).marks m := fun k other => by
      simp [advance, single k other]
    have cleared : ∀ k, Function.update r.marks m none k = none := fun k => by
      by_cases same : k = m
      · simp [same]
      · simp [same, single k same]
    simp only [report, callbackData_, set, pending_some longer others, pending_none cleared,
      List.append_nil]
    rfl

/-- `past` was reported before the second run began, which has counted at least as many bytes. -/
structure Alike (past : List Callback) (r r' : Run) : Prop where
  parser : r'.parser = { r.parser with nread := r'.parser.nread }
  marks : ∀ m, (r.marks m).isSome = (r'.marks m).isSome
  report : SameReports r.report (past ++ r'.report)
  nread : r.parser.nread ≤ r'.parser.nread
  small : r'.parser.nread ≤ httpMaxHeaderSize

/-- Two turns that are alike. -/
inductive TurnsAlike (past : List Callback) : Step → Step → Prop
  | next {r r' : Run} (passed : Nat) (alike : Alike past r r') :
      TurnsAlike past (.next r passed) (.next r' passed)
  | leave {r r' : Run} (passed : Nat) (alike : Alike past r r') :
      TurnsAlike past (.leave r passed) (.leave r' passed)
  | error (e : Errno) {r r' : Run} (passed : Nat) :
      TurnsAlike past (.error e r passed) (.error e r' passed)
  /-- The second run fails. -/
  | tooLong (step : Step) (r' : Run) (passed : Nat) :
      TurnsAlike past step (.error .hpeHeaderOverflow r' passed)
  | badToken (step : Step) (r' : Run) (passed : Nat) :
      TurnsAlike past step (.error .hpeInvalidHeaderToken r' passed)
  | abort : TurnsAlike past .abort .abort

variable {past : List Callback} {r r' : Run}

namespace Alike

theorem shape (alike : Alike past r r') :
    ∃ n marks callbacks, r' = ⟨{ r.parser with nread := n }, marks, callbacks⟩ := by
  refine ⟨r'.parser.nread, r'.marks, r'.callbacks, ?_⟩
  rw [← alike.parser]

/-- Other parsers. -/
theorem changed (alike : Alike past r r') {q q' : Parser} (same : q' = { q with nread := q'.nread })
    (nread : q.nread ≤ q'.nread) (small : q'.nread ≤ httpMaxHeaderSize) :
    Alike past { r with parser := q } { r' with parser := q' } :=
  ⟨same, alike.marks, alike.report, nread, small⟩

theorem unset (alike : Alike past r r') {m : Mark} (unset : r.marks m = none) :
    r'.marks m = none := by
  have same := alike.marks m
  rw [unset] at same
  exact Option.isSome_eq_false_iff.mp same.symm |> Option.isNone_iff_eq_none.mp

theorem single (alike : Alike past r r') {m : Mark} (single : Single r.marks m) :
    Single r'.marks m :=
  fun k other => alike.unset (single k other)

theorem notify (alike : Alike past r r') (closed : ∀ m, r.marks m = none) (c : Callback) :
    Alike past (r.callbackNotify c) (r'.callbackNotify c) := by
  refine ⟨alike.parser, alike.marks, ?_, alike.nread, alike.small⟩
  have report := alike.report
  have closed' : ∀ m, r'.marks m = none := fun m => alike.unset (closed m)
  have none_ := pending_none closed
  have none_' := pending_none closed'
  simp only [Run.report, Run.callbackNotify, none_, none_', List.append_nil] at report ⊢
  rw [← List.append_assoc]
  exact report.append rfl

/-- A mark at the next byte. -/
theorem mark (alike : Alike past r r') {m : Mark} (single : Single r.marks m) :
    Alike past (r.mark m) (r'.mark m) := by
  cases set : r.marks m with
  | some at_ =>
    have same := alike.marks m
    rw [set] at same
    obtain ⟨at_', set'⟩ := Option.isSome_iff_exists.mp same.symm
    simp only [Run.mark, set, set']
    exact alike
  | none =>
    have set' := alike.unset set
    have closed : ∀ k, r.marks k = none := fun k => by
      by_cases same : k = m
      · exact same ▸ set
      · exact single k same
    have closed' : ∀ k, r'.marks k = none := fun k => alike.unset (closed k)
    have report := alike.report
    simp only [Run.mark, set, set']
    refine ⟨alike.parser, ?_, ?_, alike.nread, alike.small⟩
    · intro k
      by_cases same : k = m
      · simp [same]
      · simp [same, closed, closed']
    · have one : pending (Function.update r.marks m (some [])) = [m.callback []] :=
        pending_some (by simp) fun k other => by simp [other, closed]
      have one' : pending (Function.update r'.marks m (some [])) = [m.callback []] :=
        pending_some (by simp) fun k other => by simp [other, closed']
      simp only [Run.report, pending_none closed, pending_none closed', one, one',
        List.append_nil] at report ⊢
      rw [← List.append_assoc]
      exact report.append rfl

/-- The report of a mark. -/
theorem flush (alike : Alike past r r') {m : Mark} (single : Single r.marks m) (more : Bytes) :
    Alike past (r.callbackData_ m more) (r'.callbackData_ m more) := by
  cases set : r.marks m with
  | none =>
    have set' := alike.unset set
    simp only [Run.callbackData_, set, set']
    exact alike
  | some at_ =>
    have same := alike.marks m
    rw [set] at same
    obtain ⟨at_', set'⟩ := Option.isSome_iff_exists.mp same.symm
    have single' := alike.single single
    have report := alike.report
    have cleared : ∀ k, Function.update r.marks m none k = none := fun k => by
      by_cases same : k = m
      · simp [same]
      · simp [same, single k same]
    have cleared' : ∀ k, Function.update r'.marks m none k = none := fun k => by
      by_cases same : k = m
      · simp [same]
      · simp [same, single' k same]
    simp only [Run.callbackData_, set, set']
    refine ⟨alike.parser, ?_, ?_, alike.nread, alike.small⟩
    · intro k
      simp only [cleared, cleared']
    · simp only [Run.report, pending_some set single, pending_some set' single',
        pending_none cleared, pending_none cleared', List.append_nil] at report ⊢
      -- the data without `more`, and then `more`
      calc joined pieces (r.callbacks ++ [m.callback (at_ ++ more)])
          = joined pieces ((r.callbacks ++ [m.callback at_]) ++ [m.callback more]) := by
            rw [List.append_assoc]
            exact (SameReports.cut r.callbacks m at_ more).symm
        _ = joined pieces ((past ++ (r'.callbacks ++ [m.callback at_'])) ++ [m.callback more]) :=
            SameReports.append report rfl
        _ = joined pieces ((past ++ r'.callbacks) ++ [m.callback at_', m.callback more]) := by
            simp only [List.append_assoc, List.cons_append, List.nil_append]
        _ = joined pieces ((past ++ r'.callbacks) ++ [m.callback (at_' ++ more)]) :=
            SameReports.cut (past ++ r'.callbacks) m at_' more
        _ = joined pieces (past ++ (r'.callbacks ++ [m.callback (at_' ++ more)])) := by
            rw [List.append_assoc]

theorem advance (alike : Alike past r r') {m : Mark} (single : Single r.marks m) (bytes : Bytes) :
    Alike past (r.advance bytes) (r'.advance bytes) := by
  refine ⟨alike.parser, ?_, ?_, alike.nread, alike.small⟩
  · intro k
    simpa [Run.advance] using alike.marks k
  · rw [Run.report_advance single, Run.report_advance (alike.single single)]
    exact (alike.flush single bytes).report

end Alike

section
variable (alike : Alike past r r') (closed : ∀ m, r.marks m = none)

include alike in
theorem expect_alike (strict : Bool) (ch expected : Byte) (s : State) :
    TurnsAlike past (expect strict r ch expected s) (expect strict r' ch expected s) := by
  unfold expect
  split_ifs
  · exact .error _ 0
  · obtain ⟨n, marks, callbacks, rfl⟩ := alike.shape
    exact .next 0 (alike.changed rfl alike.nread alike.small)

include alike in
theorem sDead_alike (ch : Byte) : TurnsAlike past (sDead r ch) (sDead r' ch) := by
  unfold sDead
  split_ifs
  · exact .next 0 alike
  · exact .error _ 0

include alike in

include alike closed in
theorem sStartReq_alike (ch : Byte) :
    TurnsAlike past (sStartReq r ch) (sStartReq r' ch) := by
  unfold sStartReq
  dsimp only
  split_ifs
  · exact .next 0 alike
  · exact .error _ 0
  · cases firstMethod ch with
    | none => exact .error _ 0
    | some m =>
      obtain ⟨n, marks, callbacks, rfl⟩ := alike.shape
      refine .next 0 (Alike.notify ?_ ?_ _)
      · exact alike.changed rfl alike.nread alike.small
      · exact closed

include alike closed in
theorem sStartReqOrRes_alike (ch : Byte) :
    TurnsAlike past (sStartReqOrRes r ch) (sStartReqOrRes r' ch) := by
  obtain ⟨n, marks, callbacks, rfl⟩ := alike.shape
  unfold sStartReqOrRes
  split_ifs
  · exact .next 0 alike
  · refine .next 0 (Alike.notify ?_ ?_ _)
    · exact alike.changed rfl alike.nread alike.small
    · exact closed
  · refine sStartReq_alike ?_ ?_ ch
    · exact alike.changed rfl alike.nread alike.small
    · exact closed

include alike in
theorem sResOrRespH_alike (ch : Byte) :
    TurnsAlike past (sResOrRespH r ch) (sResOrRespH r' ch) := by
  obtain ⟨n, marks, callbacks, rfl⟩ := alike.shape
  unfold sResOrRespH
  split_ifs
  · exact .next 0 (alike.changed rfl alike.nread alike.small)
  · exact .error _ 0
  · exact .next 0 (alike.changed rfl alike.nread alike.small)

include alike closed in
theorem sStartRes_alike (ch : Byte) :
    TurnsAlike past (sStartRes r ch) (sStartRes r' ch) := by
  obtain ⟨n, marks, callbacks, rfl⟩ := alike.shape
  unfold sStartRes
  dsimp only
  split_ifs
  · refine .next 0 (Alike.notify ?_ ?_ _)
    · exact alike.changed rfl alike.nread alike.small
    · exact closed
  · refine .next 0 (Alike.notify ?_ ?_ _)
    · exact alike.changed rfl alike.nread alike.small
    · exact closed
  · exact .error _ 0

include alike in
/-- A letter of a method. -/
theorem sReqMethod_alike (ch : Byte) :
    TurnsAlike past (sReqMethod r ch) (sReqMethod r' ch) := by
  obtain ⟨n, marks, callbacks, rfl⟩ := alike.shape
  unfold sReqMethod
  dsimp only
  by_cases zero : ch = 0
  · rw [if_pos zero, if_pos zero]
    exact .error _ 0
  rw [if_neg zero, if_neg zero]
  cases (methodStrings r.parser.method ++ [0])[r.parser.index]? with
  | none => exact .abort
  | some expected =>
    cases otherMethod r.parser.method r.parser.index ch with
    | none =>
      dsimp only
      split_ifs <;> first
        | exact .error _ 0
        | exact .next 0 (alike.changed rfl alike.nread alike.small)
    | some m =>
      dsimp only
      split_ifs <;> first
        | exact .error _ 0
        | exact .next 0 (alike.changed rfl alike.nread alike.small)

include alike in
theorem urlChar_alike (strict : Bool) (ch : Byte) :
    TurnsAlike past (urlChar strict r ch) (urlChar strict r' ch) := by
  obtain ⟨n, marks, callbacks, rfl⟩ := alike.shape
  unfold urlChar
  dsimp only [Run.updateState]
  split_ifs
  · exact .error _ 0
  · exact .next 0 (alike.changed rfl alike.nread alike.small)

include alike closed in
theorem sReqSpacesBeforeUrl_alike (strict : Bool) (ch : Byte) :
    TurnsAlike past (sReqSpacesBeforeUrl strict r ch)
      (sReqSpacesBeforeUrl strict r' ch) := by
  have marked := alike.mark (m := .url) fun k _ => closed k
  unfold sReqSpacesBeforeUrl
  dsimp only
  have same : (r'.mark .url).parser.method = (r.mark .url).parser.method := by
    rw [marked.parser]
  rw [same]
  split_ifs
  · exact .next 0 alike
  · refine urlChar_alike ?_ strict ch
    obtain ⟨n, marks, callbacks, shape⟩ := marked.shape
    rw [shape] at marked ⊢
    exact marked.changed rfl marked.nread marked.small
  · exact urlChar_alike marked strict ch

include alike in
theorem sReqSchema_alike (strict : Bool) (ch : Byte) :
    TurnsAlike past (sReqSchema strict r ch) (sReqSchema strict r' ch) := by
  unfold sReqSchema
  split_ifs
  · exact .error _ 0
  · exact urlChar_alike alike strict ch

include alike in
theorem sReqPath_alike (url : Single r.marks .url) (strict : Bool) (ch : Byte) :
    TurnsAlike past (sReqPath strict r ch) (sReqPath strict r' ch) := by
  have path := urlChar_alike alike strict ch
  obtain ⟨n, marks, callbacks, rfl⟩ := alike.shape
  unfold sReqPath
  split_ifs
  · refine .next 0 (Alike.flush ?_ ?_ [])
    · exact alike.changed rfl alike.nread alike.small
    · exact url
  · refine .next 0 (Alike.flush ?_ ?_ [])
    · exact alike.changed rfl alike.nread alike.small
    · exact url
  · refine .next 0 (Alike.flush ?_ ?_ [])
    · exact alike.changed rfl alike.nread alike.small
    · exact url
  · exact path

include alike in
theorem sReqHttpStart_alike (ch : Byte) :
    TurnsAlike past (sReqHttpStart r ch) (sReqHttpStart r' ch) := by
  obtain ⟨n, marks, callbacks, rfl⟩ := alike.shape
  unfold sReqHttpStart
  split_ifs
  · exact .next 0 (alike.changed rfl alike.nread alike.small)
  · exact .next 0 alike
  · exact .error _ 0

include alike in
theorem firstMajor_alike (ch least : Byte) (s : State) :
    TurnsAlike past (firstMajor r ch least s) (firstMajor r' ch least s) := by
  obtain ⟨n, marks, callbacks, rfl⟩ := alike.shape
  unfold firstMajor
  split_ifs
  · exact .error _ 0
  · exact .next 0 (alike.changed rfl alike.nread alike.small)

include alike in
theorem httpMajor_alike (ch : Byte) (s : State) :
    TurnsAlike past (httpMajor r ch s) (httpMajor r' ch s) := by
  obtain ⟨n, marks, callbacks, rfl⟩ := alike.shape
  unfold httpMajor
  dsimp only [Run.setVersion]
  split_ifs
  · exact .next 0 (alike.changed rfl alike.nread alike.small)
  · exact .error _ 0
  · exact .error _ 0
  · exact .next 0 (alike.changed rfl alike.nread alike.small)

include alike in
theorem firstMinor_alike (ch : Byte) (s : State) :
    TurnsAlike past (firstMinor r ch s) (firstMinor r' ch s) := by
  obtain ⟨n, marks, callbacks, rfl⟩ := alike.shape
  unfold firstMinor
  split_ifs
  · exact .error _ 0
  · exact .next 0 (alike.changed rfl alike.nread alike.small)

include alike in
theorem httpMinor_alike (ch : Byte) : TurnsAlike past (httpMinor r ch) (httpMinor r' ch) := by
  obtain ⟨n, marks, callbacks, rfl⟩ := alike.shape
  unfold httpMinor
  dsimp only [Run.setVersion]
  split_ifs
  · exact .error _ 0
  · exact .error _ 0
  · exact .next 0 (alike.changed rfl alike.nread alike.small)

include alike in
theorem sResHttpMinor_alike (ch : Byte) :
    TurnsAlike past (sResHttpMinor r ch) (sResHttpMinor r' ch) := by
  have more := httpMinor_alike alike ch
  obtain ⟨n, marks, callbacks, rfl⟩ := alike.shape
  unfold sResHttpMinor
  split_ifs
  · exact .next 0 (alike.changed rfl alike.nread alike.small)
  · exact more

include alike in
theorem sReqHttpMinor_alike (ch : Byte) :
    TurnsAlike past (sReqHttpMinor r ch) (sReqHttpMinor r' ch) := by
  have more := httpMinor_alike alike ch
  obtain ⟨n, marks, callbacks, rfl⟩ := alike.shape
  unfold sReqHttpMinor
  split_ifs
  · exact .next 0 (alike.changed rfl alike.nread alike.small)
  · exact .next 0 (alike.changed rfl alike.nread alike.small)
  · exact more

include alike in
theorem sResFirstStatusCode_alike (ch : Byte) :
    TurnsAlike past (sResFirstStatusCode r ch) (sResFirstStatusCode r' ch) := by
  obtain ⟨n, marks, callbacks, rfl⟩ := alike.shape
  unfold sResFirstStatusCode
  split_ifs
  · exact .next 0 alike
  · exact .error _ 0
  · exact .next 0 (alike.changed rfl alike.nread alike.small)

include alike in
theorem sResStatusCode_alike (ch : Byte) :
    TurnsAlike past (sResStatusCode r ch) (sResStatusCode r' ch) := by
  obtain ⟨n, marks, callbacks, rfl⟩ := alike.shape
  unfold sResStatusCode
  dsimp only [Run.setStatus]
  split_ifs <;> first
    | exact .error _ 0
    | exact .next 0 (alike.changed rfl alike.nread alike.small)

include alike closed in
theorem sResStatusStart_alike (ch : Byte) :
    TurnsAlike past (sResStatusStart r ch) (sResStatusStart r' ch) := by
  have marked := alike.mark (m := .status) fun k _ => closed k
  unfold sResStatusStart
  split_ifs
  · obtain ⟨n, marks, callbacks, rfl⟩ := alike.shape
    exact .next 0 (alike.changed rfl alike.nread alike.small)
  · obtain ⟨n, marks, callbacks, rfl⟩ := alike.shape
    exact .next 0 (alike.changed rfl alike.nread alike.small)
  · obtain ⟨n, marks, callbacks, shape⟩ := marked.shape
    rw [shape] at marked ⊢
    exact .next 0 (marked.changed rfl marked.nread marked.small)

include alike in
theorem sResStatus_alike (status : Single r.marks .status) (ch : Byte) :
    TurnsAlike past (sResStatus r ch) (sResStatus r' ch) := by
  obtain ⟨n, marks, callbacks, rfl⟩ := alike.shape
  unfold sResStatus
  split_ifs
  · refine .next 0 (Alike.flush ?_ ?_ [])
    · exact alike.changed rfl alike.nread alike.small
    · exact status
  · refine .next 0 (Alike.flush ?_ ?_ [])
    · exact alike.changed rfl alike.nread alike.small
    · exact status
  · exact .next 0 alike

include alike in
theorem sReqLineAlmostDone_alike (ch : Byte) :
    TurnsAlike past (sReqLineAlmostDone r ch) (sReqLineAlmostDone r' ch) := by
  obtain ⟨n, marks, callbacks, rfl⟩ := alike.shape
  unfold sReqLineAlmostDone
  split_ifs
  · exact .error _ 0
  · exact .next 0 (alike.changed rfl alike.nread alike.small)

end

end HttpLib
