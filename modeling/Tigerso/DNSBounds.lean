import Tigerso.DNSGrammar
import Tigerso.DNSWire

/-!
# Which datagrams are read inside the arrays

The reading up to the first A record stays inside the arrays for the messages whose names
and records do, and for those that it gives up on before the question.
-/

open SystemCalls CText CheckedMemory DNSResolver DNSGrammar DNSWire

namespace DNSBounds

/-- The record sections from `o`, and whether an A record is found in them. -/
inductive SectionsIn (buf : Bytes) (o : Nat) : Bool → Prop
  | noAnswers (none_ : word buf 6 = 0) : SectionsIn buf o false
  | found (answers : SectionIn buf true (word buf 6) o none) : SectionsIn buf o true
  | nothing {a b c : Nat} (some_ : word buf 6 ≠ 0)
      (answers : SectionIn buf true (word buf 6) o (some a))
      (authorities : SectionIn buf false (word buf 8) a (some b))
      (additions : SectionIn buf false (word buf 10) b (some c)) :
      SectionsIn buf o false

/-- The question and the records behind it lie inside. -/
def Walks (buf : Bytes) (found : Bool) : Prop :=
  ∃ q, Resolves buf headerSize q ∧ SectionsIn buf (q + 4) found

def codeOf (found : Bool) : Int := if found then dnsOk else dnsErr

section
variable {r : DNSResolver} {cur : Nat} {ret : Int}

theorem word_ok {buf : Bytes} {o : Nat} (inside : o + 2 ≤ buf.length) :
    load16 buf o = .ok (word buf o) := load16_ok_iff.mpr ⟨inside, rfl⟩

/-- The sections are read to an end exactly when they lie inside. -/
theorem readSections_ok_iff (size : r.responseBuf.length = dnsMessageLimit) :
    (∃ r', readSections r cur = .ok (ret, r')) ↔
      ∃ found, SectionsIn r.responseBuf cur found ∧ ret = codeOf found := by
  have answers := word_ok (show 6 + 2 ≤ r.responseBuf.length by rw [size]; decide)
  have authorities := word_ok (show 8 + 2 ≤ r.responseBuf.length by rw [size]; decide)
  have additions := word_ok (show 10 + 2 ≤ r.responseBuf.length by rw [size]; decide)
  rw [readSections]
  simp only [answers, authorities, additions, ok_bind]
  constructor
  · rintro ⟨r', result⟩
    split_ifs at result with empty
    · cases result
      exact ⟨false, .noAnswers empty, rfl⟩
    obtain ⟨first, read, result⟩ := bind_ok_iff.mp result
    have answers_in := readSection_ok_iff.mp ⟨first, read, rfl⟩
    cases first with
    | inl rr =>
      cases result
      exact ⟨true, .found answers_in, rfl⟩
    | inr a =>
      obtain ⟨second, read, result⟩ := bind_ok_iff.mp result
      have authorities_in := readSection_ok_iff.mp ⟨second, read, rfl⟩
      cases second with
      | inl rr => exact nomatch authorities_in.ends
      | inr b =>
        obtain ⟨third, read, result⟩ := bind_ok_iff.mp result
        have additions_in := readSection_ok_iff.mp ⟨third, read, rfl⟩
        cases third with
        | inl rr => exact nomatch additions_in.ends
        | inr c =>
          cases result
          exact ⟨false, .nothing empty answers_in authorities_in additions_in, rfl⟩
  · rintro ⟨found, sections, rfl⟩
    cases sections with
    | noAnswers none_ =>
      rw [if_pos none_]
      exact ⟨r, rfl⟩
    | found answers_in =>
      have some_ : word r.responseBuf 6 ≠ 0 := by
        intro none_
        rw [none_] at answers_in
        exact nomatch answers_in
      obtain ⟨first, read, stop⟩ := readSection_ok_iff.mpr answers_in
      rw [if_neg some_, read]
      cases first with
      | inl rr => exact ⟨_, rfl⟩
      | inr a => exact nomatch stop
    | nothing some_ answers_in authorities_in additions_in =>
      obtain ⟨first, read, stop⟩ := readSection_ok_iff.mpr answers_in
      obtain ⟨second, read', stop'⟩ := readSection_ok_iff.mpr authorities_in
      obtain ⟨third, read'', _⟩ := readSection_ok_iff.mpr additions_in
      rw [if_neg some_, read, ok_bind]
      cases first with
      | inl rr => exact nomatch stop
      | inr a' =>
        cases stop
        simp only [read', ok_bind]
        cases second with
        | inl rr => exact nomatch stop'
        | inr b' =>
          cases stop'
          simp only [read'', ok_bind]
          exact ⟨_, rfl⟩

theorem strlen_ok_iff {array : Bytes} {n : Nat} :
    strlen array = .ok n ↔ 0 ∈ array ∧ n = (cString array).length := by
  rw [strlen]
  split_ifs with zero
  · simp [zero, eq_comm]
  · simp [zero]

/-- The reading stops in front of the question, with this code: one of the first two bytes
is zero, or the identifier is another one. -/
inductive Skips (id : Nat) (buf : Bytes) : Int → Prop
  | short (zero : (cString buf).length < 2) : Skips id buf dnsErr
  | mismatch (long : ¬ (cString buf).length < 2) (other : id ≠ word buf 0) :
      Skips id buf dnsIdMismatch

/-- The header is passed. -/
structure Passes (id : Nat) (buf : Bytes) : Prop where
  long : ¬ (cString buf).length < 2
  same : id = word buf 0

/-- The whole reading, with its code. -/
theorem resvDNSAnswer_ok_iff (size : r.responseBuf.length = dnsMessageLimit) :
    (∃ r', resvDNSAnswer r = .ok (ret, r')) ↔
      0 ∈ r.responseBuf ∧ (Skips r.id_ r.responseBuf ret ∨
        Passes r.id_ r.responseBuf ∧
          ∃ found, Walks r.responseBuf found ∧ ret = codeOf found) := by
  have id_ok := word_ok (show 0 + 2 ≤ r.responseBuf.length by rw [size]; decide)
  by_cases zero : 0 ∈ r.responseBuf
  · have measured := strlen_ok_iff.mpr ⟨zero, rfl⟩
    rw [resvDNSAnswer]
    simp only [measured, ok_bind, id_ok]
    by_cases short : (cString r.responseBuf).length < 2
    · rw [if_pos short]
      constructor
      · rintro ⟨r', result⟩
        cases result
        exact ⟨zero, Or.inl (.short short)⟩
      · rintro ⟨_, (⟨_⟩ | ⟨long, _⟩) | ⟨passes, _⟩⟩
        · exact ⟨r, rfl⟩
        · exact absurd short long
        · exact absurd short passes.long
    rw [if_neg short]
    by_cases other : r.id_ ≠ word r.responseBuf 0
    · rw [if_pos other]
      constructor
      · rintro ⟨r', result⟩
        cases result
        exact ⟨zero, Or.inl (.mismatch short other)⟩
      · rintro ⟨_, (⟨early⟩ | ⟨_, _⟩) | ⟨passes, _⟩⟩
        · exact absurd early short
        · exact ⟨r, rfl⟩
        · exact absurd passes.same other
    rw [if_neg other]
    have passes : Passes r.id_ r.responseBuf := ⟨short, not_not.mp other⟩
    constructor
    · rintro ⟨r', result⟩
      obtain ⟨⟨k, name⟩, resolved, result⟩ := bind_ok_iff.mp result
      obtain ⟨found, sections, same⟩ := (readSections_ok_iff size).mp ⟨r', result⟩
      exact ⟨zero, Or.inr ⟨passes, found, ⟨_, (resolveName_ok_iff domainArray).mp
        ⟨k, name, resolved, rfl⟩, sections⟩, same⟩⟩
    · rintro ⟨_, (⟨early⟩ | ⟨_, away⟩) | ⟨_, found, ⟨q, name, sections⟩, same⟩⟩
      · exact absurd early short
      · exact absurd away other
      · obtain ⟨k, array, resolved, rfl⟩ := (resolveName_ok_iff domainArray).mpr name
        obtain ⟨r', result⟩ := (readSections_ok_iff size).mpr ⟨found, sections, same⟩
        refine ⟨r', ?_⟩
        rw [resolved]
        exact result
  · have measured : strlen r.responseBuf = .error .readOutside := by
      rw [strlen, if_neg zero]
    rw [resvDNSAnswer]
    simp only [measured]
    constructor
    · rintro ⟨r', result⟩
      exact nomatch result
    · rintro ⟨there, _⟩
      exact absurd there zero

def received (r : DNSResolver) (payload : Bytes) : Bytes :=
  payload ++ r.responseBuf.drop payload.length

/-- A datagram is read and written inside the arrays, and a malformed one is answered with
an error code. -/
def Handled (r : DNSResolver) (payload : Bytes) : Prop :=
  ∃ ret r', recvAnswer r payload = .ok (ret, r') ∧ (¬ WellFormed payload → ret < 0)

/-- The datagrams that are handled: they fit, the buffer holds a zero byte, and they are
given up on before the question, or all that is read lies inside the buffer and no A record
is found or the datagram is well formed. -/
structure Handleable (r : DNSResolver) (payload : Bytes) : Prop where
  fits : payload.length ≤ dnsMessageLimit
  zero : 0 ∈ received r payload
  read : (∃ ret, Skips r.id_ (received r payload) ret) ∨ Walks (received r payload) false ∨
    Walks (received r payload) true ∧ WellFormed payload

theorem codeOf_neg {found : Bool} : codeOf found < 0 ↔ found = false := by
  cases found <;> decide

theorem Skips.neg {id : Nat} {buf : Bytes} (skips : Skips id buf ret) : ret < 0 := by
  cases skips with
  | short _ => decide
  | mismatch _ _ => decide

theorem received_length (size : r.responseBuf.length = dnsMessageLimit) {payload : Bytes}
    (fits : payload.length ≤ dnsMessageLimit) :
    (received r payload).length = dnsMessageLimit := by
  rw [received, List.length_append, List.length_drop, size]
  omega

/-- The copy of the datagram, and the reading of what the buffer holds then. -/
theorem recvAnswer_ok_iff (size : r.responseBuf.length = dnsMessageLimit) {payload : Bytes} :
    (∃ r', recvAnswer r payload = .ok (ret, r')) ↔
      payload.length ≤ dnsMessageLimit ∧
        ∃ r', resvDNSAnswer { r with responseBuf := received r payload } = .ok (ret, r') := by
  constructor
  · rintro ⟨r', result⟩
    rw [recvAnswer] at result
    obtain ⟨buf, stored, copied⟩ := bind_ok_iff.mp result
    obtain ⟨⟨ret', r₁⟩, parsed, coded⟩ := bind_ok_iff.mp copied
    have fits := (store_ok_iff.mp stored).1
    rw [Nat.zero_add] at fits
    cases (store_start fits).symm.trans stored
    refine ⟨by omega, r₁, ?_⟩
    simp only at coded
    split_ifs at coded
    · cases coded
      exact parsed
    · cases coded
      exact parsed
  · rintro ⟨fits, r₁, parsed⟩
    rw [recvAnswer, store_start (show payload.length ≤ r.responseBuf.length by omega), ok_bind]
    rw [received] at parsed
    rw [parsed, ok_bind]
    simp only
    split_ifs
    · exact ⟨_, rfl⟩
    · exact ⟨_, rfl⟩

/-- For every datagram and everything the buffer may hold behind it. -/
theorem handled_iff (size : r.responseBuf.length = dnsMessageLimit) (payload : Bytes) :
    Handled r payload ↔ Handleable r payload := by
  constructor
  · rintro ⟨ret, r', result, malformed⟩
    obtain ⟨fits, parsed⟩ := (recvAnswer_ok_iff size).mp ⟨r', result⟩
    obtain ⟨zero, read⟩ := (resvDNSAnswer_ok_iff (received_length size fits)).mp parsed
    refine ⟨fits, zero, ?_⟩
    rcases read with skips | ⟨_, found, walks, rfl⟩
    · exact Or.inl ⟨ret, skips⟩
    · cases found with
      | false => exact Or.inr (Or.inl walks)
      | true =>
        refine Or.inr (Or.inr ⟨walks, ?_⟩)
        by_contra bad
        exact absurd (codeOf_neg.mp (malformed bad)) (by decide)
  · rintro ⟨fits, zero, read⟩
    have parse {ret : Int} := @resvDNSAnswer_ok_iff
      { r with responseBuf := received r payload } ret (received_length size fits)
    have comes {ret : Int} := @recvAnswer_ok_iff r ret size payload
    by_cases early : ∃ ret, Skips r.id_ (received r payload) ret
    · obtain ⟨ret, skips⟩ := early
      obtain ⟨r', result⟩ := comes.mpr ⟨fits, parse.mpr ⟨zero, Or.inl skips⟩⟩
      exact ⟨ret, r', result, fun _ => skips.neg⟩
    have passes : Passes r.id_ (received r payload) := by
      have long : ¬ (cString (received r payload)).length < 2 := fun short =>
        early ⟨_, .short short⟩
      exact ⟨long, not_not.mp fun other => early ⟨_, .mismatch long other⟩⟩
    rcases read with skips | nothing | ⟨found, well⟩
    · exact absurd skips early
    · obtain ⟨r', result⟩ :=
        comes.mpr ⟨fits, parse.mpr ⟨zero, Or.inr ⟨passes, false, nothing, rfl⟩⟩⟩
      exact ⟨_, r', result, fun _ => by decide⟩
    · obtain ⟨r', result⟩ :=
        comes.mpr ⟨fits, parse.mpr ⟨zero, Or.inr ⟨passes, true, found, rfl⟩⟩⟩
      exact ⟨_, r', result, fun bad => absurd well bad⟩

end

def waiting : DNSResolver := ⟨List.replicate dnsMessageLimit 0, 1, [], [], 0, false, []⟩

/-- The response with identifier 257 that `a` has the address 10.0.0.1. The owner of the record is a
pointer to the question. -/
def addressOfA : Bytes :=
  [1, 1, 129, 128, 0, 1, 0, 1, 0, 0, 0, 0, 1, 97, 0, 0, 1, 0, 1,
    192, 12, 0, 1, 0, 1, 0, 0, 1, 44, 0, 4, 10, 0, 0, 1]

theorem addressOfA_wellFormed : WellFormed addressOfA := by
  have root : WireName addressOfA 12 14 15 0 := .root rfl
  have name : WireName addressOfA 12 12 15 2 :=
    @WireName.label _ _ _ _ _ 1 rfl (by decide) (by decide) (by decide) root
  have owner : WireName addressOfA 19 19 21 2 :=
    @WireName.pointer _ _ _ _ _ 192 12 rfl (by decide) rfl (by decide) name
  exact ⟨by decide, 19, 35, .cons ⟨2, name, by decide⟩ (by decide) .nil,
    .cons ⟨2, owner, by decide⟩ (by decide) .nil⟩

/-- The reading of it goes through the question to the record. -/
theorem addressOfA_walks : Walks (received waiting addressOfA) true := by
  have length : (received waiting addressOfA).length = dnsMessageLimit :=
    received_length List.length_replicate (by decide)
  have room {n : Nat} (few : n ≤ dnsMessageLimit) : n ≤ (received waiting addressOfA).length :=
    length.symm ▸ few
  have root : NameIn (received waiting addressOfA) 14 15 0 := .root rfl
  have name : NameIn (received waiting addressOfA) 12 15 2 :=
    @NameIn.label _ _ _ _ 1 rfl (by decide) rfl (room (by decide)) root
  have owner : NameIn (received waiting addressOfA) 19 21 2 :=
    @NameIn.pointer _ _ _ _ 192 12 rfl (by decide) rfl rfl name
  have data : RDataIn (received waiting addressOfA) 31 4 :=
    .bytes (by decide) (room (by decide)) (by decide)
  have record : RecordIn (received waiting addressOfA) 19 21 35 dnsTypeA :=
    ⟨⟨2, owner, by decide⟩, room (by decide), rfl, rfl, data⟩
  exact ⟨15, ⟨2, name, by decide⟩, .found (.found rfl record)⟩

def asked : DNSResolver := { waiting with id_ := 257 }

/-- A response that is read to its record. -/
theorem response_handled : Handled asked addressOfA := by
  have size : asked.responseBuf.length = dnsMessageLimit := List.length_replicate
  exact (handled_iff size addressOfA).mpr
    ⟨by decide, by decide, Or.inr (Or.inr ⟨addressOfA_walks, addressOfA_wellFormed⟩)⟩

/-- A datagram of 513 bytes is copied past the end of the buffer. -/
theorem long_datagram_overruns : ¬ Handled waiting (List.replicate 513 1) := by
  have size : waiting.responseBuf.length = dnsMessageLimit := List.length_replicate
  rintro ⟨ret, r', result, _⟩
  have fits := ((recvAnswer_ok_iff size).mp ⟨r', result⟩).1
  rw [List.length_replicate] at fits
  exact absurd fits (by decide)

end DNSBounds
