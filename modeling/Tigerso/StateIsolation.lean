import Tigerso.MessageMemory

/-!
# What a cleared message object keeps of its past

A run on a cleared object shows what it shows on a new one, but for `chunked`, which no reset
takes back.
-/

open SystemCalls RelatedResults

theorem NameFirst.append {reported more : List Callback} (first : NameFirst reported)
    (second : NameFirst more) : NameFirst (reported ++ more) := by
  induction reported with
  | nil => exact second
  | cons callback rest ih =>
    cases callback with
    | onHeaderField at_ => trivial
    | onHeaderValue at_ => exact first.elim
    | onMessageBegin => exact ih first
    | onUrl at_ => exact ih first
    | onStatus at_ => exact ih first
    | onHeadersComplete start => exact ih first
    | onBody at_ => exact ih first
    | onMessageComplete => exact ih first

/-- A parser that starts every call with a name does what is asked of it. -/
theorem ParserLib.namesFirst_of_calls {lib : ParserLib}
    (calls : ∀ role fed, NameFirst (lib role fed).callbacks) :
    lib.NamesFirst := by
  intro role fed
  rw [ParserLib.callbacks]
  induction List.range fed.length with
  | nil => trivial
  | cons k rest ih => exact NameFirst.append (calls role _) ih

namespace MessageObject
open HttpMessage

variable {lib : ParserLib} {c : Bool} {o o' : MessageObject}

/-- What a run shows. -/
theorem trace_alike (names : lib.NamesFirst) (alike : Alike lib c o o') (ops : List Op) :
    List.Forall₂ Matches (o.trace lib ops) (o'.trace lib ops) := by
  induction ops generalizing c o o' with
  | nil => exact .nil
  | cons op rest ih =>
    have shows := apply_alike names alike op
    rw [trace, trace]
    generalize o.apply lib op = x at shows ⊢
    generalize o'.apply lib op = y at shows ⊢
    cases shows with
    | error same =>
      subst same
      exact .cons (Or.inr rfl) .nil
    | ok same => exact .cons same.1 (ih same.2)

/-- A run of one object is a run of objects that are alike. -/
theorem after_alike (names : lib.NamesFirst) (alike : Alike lib c o o) (ops : List Op)
    {behind : MessageObject} (run : o.after lib ops = some behind) :
    Alike lib (c || ops.any Op.chunks) behind behind := by
  induction ops generalizing c o with
  | nil =>
    obtain rfl := Option.some.inj run
    rwa [List.any_nil, Bool.or_false]
  | cons op rest ih =>
    have shows := apply_alike names alike op
    rw [after] at run
    rw [List.any_cons, ← Bool.or_assoc]
    cases step : o.apply lib op with
    | error bytes =>
      rw [step] at run
      cases run
    | ok next =>
      rw [step] at run shows
      cases shows with
      | ok same => exact ih same.2 run

theorem Op.chunks_iff {op : Op} : op.chunks = true ↔ op = .setChunkedTransfer true := by
  cases op with
  | setChunkedTransfer bin => cases bin <;> simp [Op.chunks]
  | _ => simp [Op.chunks]

def fresh (c : Bool) (role : HttpRole) (garbage : Nat → Byte) (status : Nat) : MessageObject :=
  let o := construct role garbage status
  o.withMessage { o.message with body := { o.message.body with chunked := c } }

/-- But for `chunked`, a cleared object is like a new one. -/
theorem cleared_alike (alike : Alike lib c o o) (garbage : Nat → Byte) (status : Nat) :
    Alike lib c (fresh c o.message.role garbage status) o.clear := by
  have body : HttpBodyFile.Alike c
      { HttpBodyFile.construct httpFileCacheSize.toNat garbage with chunked := c }
      o.message.body.reset := alike.bodies.reset_fresh garbage
  have code : (fresh c o.message.role garbage status).statusSet = true →
      o.message.clear.statuscode = status := fun set => absurd set Bool.false_ne_true
  have field : false = true → o.message.clear.headerField = [] :=
    fun named => absurd named Bool.false_ne_true
  refine ⟨⟨false, ?_, Or.inr (Or.inl rfl)⟩, fun set => absurd set Bool.false_ne_true,
    ⟨rfl, rfl, rfl, rfl⟩, rfl, Or.inl rfl, rfl, rfl⟩
  exact .mk (m := (fresh c o.message.role garbage status).message) code field body

theorem construct_alike (role : HttpRole) (garbage : Nat → Byte) (status : Nat) :
    Alike lib false (construct role garbage status) (construct role garbage status) := by
  have body : HttpBodyFile.Alike false (.construct httpFileCacheSize.toNat garbage)
      (.construct httpFileCacheSize.toNat garbage) :=
    .mk rfl (.same _) (RingBuffer.clear_alike rfl _)
  exact ⟨⟨true, .mk (fun _ => rfl) (fun _ => rfl) body, Or.inl rfl⟩, id, ⟨rfl, rfl, rfl, rfl⟩, rfl,
    Or.inl rfl, rfl, rfl⟩

/-- Whatever is called later shows what it shows of a new object. -/
def Isolated (lib : ParserLib) (o : MessageObject) : Prop :=
  ∀ garbage status later, List.Forall₂ Matches
    ((construct o.message.role garbage status).trace lib later) (o.clear.trace lib later)

def sendsFile : List Op :=
  [.setBodyFileName (literal "f") (some (literal "x")) true none,
    .send2Socket true ⟨⟨true, true, true⟩, false⟩ (List.replicate 5 (.took 99))]

theorem sendsFile_plain (lib : ParserLib) (role : HttpRole) :
    (construct role (fun _ => 0) 0).trace lib sendsFile =
      [.wrote 0, .sent 1 (literal "x\r\n")] := by
  cases role
  · rfl
  · rfl

theorem sendsFile_chunked (lib : ParserLib) (role : HttpRole) :
    (fresh true role (fun _ => 0) 0).trace lib sendsFile =
      [.wrote 0, .sent 1 (literal "1\r\nx\r\n0\r\n\r\n")] := by
  cases role
  · rfl
  · rfl

/-- The next file is sent in chunks. -/
theorem not_isolated (names : lib.NamesFirst) (alike : Alike lib true o o) :
    ¬ Isolated lib o := by
  intro isolated
  have new := isolated (fun _ => 0) 0 sendsFile
  have old := trace_alike names (cleared_alike alike (fun _ => 0) 0) sendsFile
  rw [sendsFile_plain] at new
  rw [sendsFile_chunked] at old
  generalize o.clear.trace lib sendsFile = shown at new old
  cases new with
  | cons _ new =>
  cases new with
  | cons plain _ =>
  cases old with
  | cons _ old =>
  cases old with
  | cons chunked _ =>
  have plain := plain.resolve_left (by decide)
  have chunked := chunked.resolve_left (by decide)
  exact absurd (plain.symm.trans chunked) (by decide)

/-- Whatever was called before, an object that was reset is as good as new exactly when its body was
never made chunked. -/
theorem isolated_iff (names : lib.NamesFirst) {role : HttpRole} {garbage : Nat → Byte}
    {status : Nat} {history : List Op}
    (run : (construct role garbage status).after lib history = some o) :
    Isolated lib o ↔ .setChunkedTransfer true ∉ history := by
  have alike := after_alike names (construct_alike role garbage status) history run
  rw [Bool.false_or] at alike
  cases chunks : history.any Op.chunks with
  | true =>
    rw [chunks] at alike
    obtain ⟨op, called, sets⟩ := List.any_eq_true.mp chunks
    refine iff_of_false (not_isolated names alike) (not_not.mpr ?_)
    rwa [Op.chunks_iff.mp sets] at called
  | false =>
    rw [chunks] at alike
    refine iff_of_true (fun garbage status later => ?_) fun called => ?_
    · exact trace_alike names (cleared_alike alike garbage status) later
    · exact absurd (List.any_eq_true.mpr ⟨_, called, rfl⟩) (Bool.eq_false_iff.mp chunks)

def getRequest : Bytes := literal "GET / HTTP/1.1\r\nHost: a\r\n\r\n"

/-- What `http_parser` reports of `getRequest`. -/
def getLib : ParserLib := fun role fed =>
  if role = .httpRoleRequest ∧ fed = [(getRequest, false)] then
    ⟨[.onMessageBegin, .onUrl (literal "/"), .onHeaderField (literal "Host"),
      .onHeaderValue (literal "a"), .onHeadersComplete ⟨literal "GET", 0, 1, 1, false⟩,
      .onMessageComplete], getRequest.length⟩
  else ⟨[], 0⟩

theorem getLib_namesFirst : getLib.NamesFirst := by
  refine ParserLib.namesFirst_of_calls fun role fed => ?_
  rw [getLib]
  split_ifs
  · trivial
  · trivial

def parsed : List Op := [.parse getRequest [], .getHeader]

/-- An object that has parsed a request. -/
theorem isolated_iff_parsed :
    ∃ o, (construct .httpRoleRequest (fun _ => 0) 0).after getLib parsed = some o ∧
      (Isolated getLib o ↔ Op.setChunkedTransfer true ∉ parsed) := by
  have returns : ((construct .httpRoleRequest (fun _ => 0) 0).after getLib parsed).isSome :=
    rfl
  obtain ⟨o, run⟩ := Option.isSome_iff_exists.mp returns
  exact ⟨o, run, isolated_iff getLib_namesFirst run⟩

/-- A response that was chunked once, and cleared, sends its next body chunked. -/
theorem not_isolated_chunked :
    ∃ o, (construct .httpRoleResponse (fun _ => 0) 0).after getLib
        [.setChunkedTransfer true] = some o ∧ ¬ Isolated getLib o :=
  ⟨_, rfl, not_isolated getLib_namesFirst (after_alike getLib_namesFirst
    (construct_alike .httpRoleResponse (fun _ => 0) 0) [.setChunkedTransfer true] rfl)⟩

end MessageObject
