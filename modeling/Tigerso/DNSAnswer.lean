import Tigerso.DNSBounds
import Tigerso.DNSEncoding

/-!
# What becomes of the encoding of a response

The string length of the buffer is taken before anything else: it is below two when one of
the bytes of the identifier is zero.
-/

open SystemCalls CText CheckedMemory DNSResolver DNSGrammar DNSWire DNSEncoding DNSBounds

namespace DNSAnswer

section
variable {buf front : Bytes} {name : List Label}

theorem decimal_length_le (b : Byte) : (decimal b).length ≤ 3 := by
  unfold decimal
  simp only
  split_ifs
  · exact Nat.le_of_ble_eq_true rfl
  · exact Nat.le_of_ble_eq_true rfl
  · exact Nat.le_refl 3

theorem digit_ne_zero (d : Nat) : (48 + d % 10).toUInt8 ≠ 0 := by
  intro zero
  have value := congrArg UInt8.toNat zero
  simp only [Nat.toUInt8, UInt8.toNat_ofNat', UInt8.toNat_zero] at value
  omega

theorem zero_notMem_decimal (b : Byte) : 0 ∉ decimal b := by
  have digits (d : Nat) : (0 : Byte) ≠ (48 + d % 10).toUInt8 := (digit_ne_zero d).symm
  unfold decimal
  simp only
  split_ifs
  · simp only [List.mem_singleton]
    exact digits _
  · simp only [List.mem_cons, List.not_mem_nil, or_false, not_or]
    exact ⟨digits _, digits _⟩
  · simp only [List.mem_cons, List.not_mem_nil, or_false, not_or]
    exact ⟨digits _, digits _, digits _⟩

theorem inetNtoa_eq (address : Address) :
    inetNtoa address.rdata = decimal address.a ++ 46 :: (decimal address.b ++ 46 ::
      (decimal address.c ++ 46 :: decimal address.d)) := by
  simp [inetNtoa, Address.rdata, List.intercalate]

theorem inetNtoa_length_lt (address : Address) :
    (inetNtoa address.rdata).length < ipv4Addrsize := by
  have first := decimal_length_le address.a
  have second := decimal_length_le address.b
  have third := decimal_length_le address.c
  have last := decimal_length_le address.d
  rw [inetNtoa_eq, ipv4Addrsize]
  simp only [List.length_append, List.length_cons]
  omega

theorem zero_notMem_inetNtoa (address : Address) : 0 ∉ inetNtoa address.rdata := by
  rw [inetNtoa_eq]
  simp [zero_notMem_decimal]

/-- The text that was copied over the address is read back. -/
theorem cString_padded (address : Address) (behind : Bytes) :
    cString ((inetNtoa address.rdata ++ List.replicate ipv4Addrsize 0).take ipv4Addrsize ++
      behind) = inetNtoa address.rdata := by
  have short := inetNtoa_length_lt address
  obtain ⟨k, size⟩ : ∃ k, ipv4Addrsize = (inetNtoa address.rdata).length + (k + 1) :=
    ⟨ipv4Addrsize - (inetNtoa address.rdata).length - 1, by omega⟩
  have shape : (inetNtoa address.rdata ++ List.replicate ipv4Addrsize 0).take ipv4Addrsize =
      inetNtoa address.rdata ++ 0 :: (List.replicate 15 0).take k := by
    nth_rewrite 1 [size]
    rw [List.take_length_add_append]
    rfl
  rw [shape, List.append_assoc, List.cons_append, cString,
    untilByte_append (zero_notMem_inetNtoa address)]

/-- The record of an address is read. -/
theorem address_read {address : Address} (asks : Asks buf name)
    (there : front ++ address.encode <+: buf) (fits : Fits (address.owner.name name)) :
    ∃ rr, resolveRR buf front.length = .ok rr ∧ rr.type = dnsTypeA ∧
      rr.ttl = address.ttl.toNat ∧ cString rr.rdata = inetNtoa address.rdata := by
  rw [Address.encode, ← List.append_assoc] at there
  have upToRData := (List.prefix_append _ _).trans there
  have fields := fields_read (by decide) upToRData
  have inside : (front ++ encodeFields address.owner 1 address.rclass address.ttl 4).length + 4 ≤
      buf.length := (behind_front there).1
  have bytes : (buf.drop (front ++ encodeFields address.owner 1 address.rclass
      address.ttl 4).length).take 4 = address.rdata := (behind_front there).2
  have plain : 4 = dnsRrnamePointersize → ∃ first : Byte,
      buf[(front ++ encodeFields address.owner 1 address.rclass address.ttl 4).length]? =
        some first ∧ startWithLabel first = true := fun two => absurd two (by decide)
  have few : address.rdata.length < 2 ^ 16 := Nat.lt_of_sub_eq_succ rfl
  have data := (rdataIn_plain inside plain).mpr (by decide)
  have record := (recordIn_iff few asks there).mpr ⟨⟨rfl, rfl, rfl⟩, fits, data⟩
  obtain ⟨rr, result, typed, _⟩ := resolveRR_ok_iff.mpr ⟨_, record⟩
  obtain ⟨ttl_, rdata, readData, formatted⟩ := resolveRR_fields result record.name
  have start : front.length + address.owner.encode.length + 10 =
      (front ++ encodeFields address.owner 1 address.rclass address.ttl 4).length := by
    rw [List.length_append, encodeFields_length, Nat.add_assoc]
  rw [fields.ttl] at ttl_
  rw [fields.size, start, readRData_bytes plain inside (by rw [domainArray]; decide), bytes]
    at readData
  cases readData
  have typed : rr.type = dnsTypeA := typed
  have whole : (address.rdata ++ (List.replicate dnsDomainNameLimit 0).drop 4).length =
      dnsDomainNameLimit := by
    rw [List.length_append, List.length_drop, domainArray]
    rfl
  rw [formatRData, if_pos typed, storeAddress_eq whole] at formatted
  have text := Except.ok.inj formatted
  refine ⟨rr, result, typed, ttl_, ?_⟩
  rw [← text]
  exact cString_padded address _

theorem address_fits {address : Address} (asks : Asks buf name)
    (there : front ++ address.encode <+: buf) {p e t : Nat}
    (record : RecordIn buf front.length p e t) :
    t = dnsTypeA ∧ Fits (address.owner.name name) := by
  rw [Address.encode, ← List.append_assoc] at there
  have few : address.rdata.length < 2 ^ 16 := Nat.lt_of_sub_eq_succ rfl
  obtain ⟨⟨_, _, typed⟩, fits, _⟩ := (recordIn_iff few asks there).mp record
  exact ⟨typed, fits⟩

/-- All names in the aliases behind `front` fit. -/
def AliasesFit (name : List Label) : Bytes → List Alias → Prop
  | _, [] => True
  | front, a :: rest =>
    (Fits (a.owner.name name) ∧ a.target.Fits (front ++ a.fields)) ∧
      AliasesFit name (front ++ a.encode) rest

theorem alias_in_iff {a : Alias} (small : buf.length ≤ dnsMessageLimit) (asks : Asks buf name)
    (there : front ++ a.encode <+: buf)
    (pointing : ∀ offset, a.target.suffix = some offset →
      ∃ e n, WireName (front ++ a.fields) offset offset e n) {p e t : Nat} :
    RecordIn buf front.length p e t ↔
      (p = front.length + a.owner.encode.length ∧ e = (front ++ a.encode).length ∧ t = 5) ∧
        Fits (a.owner.name name) ∧ a.target.Fits (front ++ a.fields) := by
  have inside := there.length_le
  rw [Alias.encode, ← List.append_assoc] at there ⊢
  have few : a.target.encode.length < 2 ^ 16 := by
    rw [Alias.encode] at inside
    simp only [List.length_append, dnsMessageLimit] at inside small
    omega
  rw [← rdataIn_target there pointing]
  exact recordIn_iff few asks there

section
variable {address : Address} {aliases : List Alias} {more : Nat}

/-- When the reading ends at a record that is taken, all names up to it fit. -/
theorem fits_of_section (small : buf.length ≤ dnsMessageLimit) (asks : Asks buf name)
    (there : front ++ (encodeAliases aliases ++ address.encode) <+: buf)
    (pointing : Pointing front aliases)
    (read : SectionIn buf true (aliases.length + 1 + more) front.length none) :
    AliasesFit name front aliases ∧ Fits (address.owner.name name) := by
  induction aliases generalizing front with
  | nil =>
    rw [List.length_nil, Nat.zero_add, Nat.add_comm] at read
    cases read with
    | found _ record => exact ⟨trivial, (address_fits asks there record).2⟩
    | next record other _ => exact absurd ⟨rfl, (address_fits asks there record).1⟩ other
  | cons a aliases ih =>
    rw [encodeAliases, List.flatMap_cons, ← encodeAliases, List.append_assoc,
      ← List.append_assoc] at there
    have first := (List.prefix_append _ _).trans there
    have shape : (a :: aliases).length + 1 + more = aliases.length + 1 + more + 1 := by
      rw [List.length_cons]
      omega
    rw [shape] at read
    cases read with
    | found _ record =>
      obtain ⟨⟨_, _, typed⟩, _⟩ := (alias_in_iff small asks first pointing.1).mp record
      exact absurd typed (by decide)
    | next record _ rest =>
      obtain ⟨⟨_, rfl, _⟩, fits⟩ := (alias_in_iff small asks first pointing.1).mp record
      obtain ⟨later, last⟩ := ih there pointing.2 rest
      exact ⟨⟨fits, later⟩, last⟩

/-- The aliases are skipped, and the address is taken. -/
theorem read_of_fits (small : buf.length ≤ dnsMessageLimit) (asks : Asks buf name)
    (there : front ++ (encodeAliases aliases ++ address.encode) <+: buf)
    (pointing : Pointing front aliases) (fit : AliasesFit name front aliases)
    (fits : Fits (address.owner.name name)) :
    ∃ rr, readSection buf true (aliases.length + 1 + more) front.length = .ok (.inl rr) ∧
      rr.ttl = address.ttl.toNat ∧ cString rr.rdata = inetNtoa address.rdata := by
  induction aliases generalizing front with
  | nil =>
    obtain ⟨rr, result, typed, ttl_, text⟩ := address_read asks there fits
    refine ⟨rr, ?_, ttl_, text⟩
    rw [List.length_nil, Nat.zero_add, Nat.add_comm, readSection, result, ok_bind,
      if_pos ⟨rfl, typed⟩]
  | cons a aliases ih =>
    rw [encodeAliases, List.flatMap_cons, ← encodeAliases, List.append_assoc,
      ← List.append_assoc] at there
    have first := (List.prefix_append _ _).trans there
    have record := (alias_in_iff small asks first pointing.1).mpr ⟨⟨rfl, rfl, rfl⟩, fit.1⟩
    obtain ⟨alias_, result, typed, ends⟩ := resolveRR_ok_iff.mpr ⟨_, record⟩
    obtain ⟨rr, taken, found⟩ := ih there pointing.2 fit.2
    refine ⟨rr, ?_, found⟩
    have shape : (a :: aliases).length + 1 + more = aliases.length + 1 + more + 1 := by
      rw [List.length_cons]
      omega
    have other : ¬ (true = true ∧ alias_.type = dnsTypeA) := by
      rw [typed]
      decide
    rw [shape, readSection, result, ok_bind, if_neg other, ends, taken]

end

section
variable {m : Response}

def header (m : Response) : Bytes :=
  word16 m.id ++ (word16 m.flags ++ (word16 1 ++ (word16 m.answers ++ (word16 m.authorities ++
    word16 m.additions))))

theorem question_eq (m : Response) :
    m.question = header m ++ encodeName m.name ++ (word16 m.qtype ++ word16 m.qclass) := by
  simp only [Response.question, encodeQuestion, header, List.append_assoc]

theorem question_length (m : Response) :
    m.question.length = headerSize + (encodeName m.name).length + 2 + 2 := by
  rw [question_eq, List.length_append, List.length_append]
  rfl

/-- Neither byte of the identifier is zero. -/
def ZeroFree (id : UInt16) : Prop := id.toNat / 256 ≠ 0 ∧ id.toNat % 256 ≠ 0

variable (holds : m.encode <+: buf)
include holds

theorem question_front : m.question <+: buf := by
  rw [Response.encode] at holds
  exact (List.prefix_append _ _).trans holds

theorem response_asks : Asks buf m.name := by
  have there := question_front holds
  rw [question_eq] at there
  exact ⟨header m, rfl, (List.prefix_append _ _).trans there⟩

theorem header_front : header m <+: buf := by
  have there := question_front holds
  rw [question_eq, List.append_assoc] at there
  exact (List.prefix_append _ _).trans there

theorem response_id : word buf 0 = m.id.toNat := by
  have there := header_front holds
  rw [header] at there
  have id_ : [] ++ word16 m.id <+: buf := (List.prefix_append _ _).trans there
  exact word_behind id_

theorem response_answers : word buf 6 = m.answers.toNat := by
  have there := header_front holds
  rw [header, ← List.append_assoc, ← List.append_assoc, ← List.append_assoc] at there
  have upTo := (List.prefix_append _ _).trans there
  exact word_behind upTo

theorem answers_front :
    m.question ++ (encodeAliases m.aliases ++ m.address.encode) <+: buf := by
  rw [Response.encode, ← List.append_assoc _ m.address.encode, ← List.append_assoc m.question]
    at holds
  exact (List.prefix_append _ _).trans holds

/-- The string in the buffer has two bytes when neither of the first two is zero. -/
theorem response_short : (cString buf).length < 2 ↔ ¬ ZeroFree m.id := by
  have there := header_front holds
  obtain ⟨rest, rfl⟩ := there
  have bound := m.id.toNat_lt
  have high : (m.id >>> 8).toUInt8 = 0 ↔ m.id.toNat / 256 = 0 := by
    rw [← UInt8.toNat_inj]
    simp [Nat.shiftRight_eq_div_pow]
    omega
  have low : m.id.toUInt8 = 0 ↔ m.id.toNat % 256 = 0 := by
    rw [← UInt8.toNat_inj]
    simp
  have shape : header m ++ rest = (m.id >>> 8).toUInt8 :: m.id.toUInt8 :: (word16 m.flags ++
      (word16 1 ++ (word16 m.answers ++ (word16 m.authorities ++ word16 m.additions))) ++ rest) :=
    rfl
  rw [shape, cString, untilByte, ZeroFree, ← not_or, not_not, ← high, ← low]
  by_cases first : (m.id >>> 8).toUInt8 = 0
  · simp [List.takeWhile_cons, first]
  · by_cases second : m.id.toUInt8 = 0
    · simp [List.takeWhile_cons, first, second]
    · simp [List.takeWhile_cons, first, second]

theorem response_zero : 0 ∈ buf := by
  have there := question_front holds
  rw [question_eq, encodeName] at there
  refine there.subset ?_
  simp

end

/-- All names up to the first address fit the arrays. -/
structure NamesFit (m : Response) : Prop where
  name : Fits m.name
  aliases : AliasesFit m.name m.question m.aliases
  address : Fits (m.address.owner.name m.name)

/-- A resolver with the identifier of the response takes its first address and the time
this one lives, and any other reports that the identifier is not its own. -/
def Answered (r : DNSResolver) (m : Response) : Prop :=
  (r.id_ = m.id.toNat → ∃ r', resvDNSAnswer r = .ok (dnsOk, r') ∧
    r'.answerName = inetNtoa m.address.rdata ∧ r'.answerTtl = m.address.ttl.toNat) ∧
  (r.id_ ≠ m.id.toNat → ∃ r', resvDNSAnswer r = .ok (dnsIdMismatch, r'))

section
variable {r : DNSResolver} {m : Response}

theorem code_unique {ret ret' : Int} (first : ∃ r', resvDNSAnswer r = .ok (ret, r'))
    (second : ∃ r', resvDNSAnswer r = .ok (ret', r')) : ret = ret' := by
  obtain ⟨_, first⟩ := first
  obtain ⟨_, second⟩ := second
  cases first.symm.trans second
  rfl

variable (size : r.responseBuf.length = dnsMessageLimit) (holds : m.encode <+: r.responseBuf)
include size holds

theorem short_refused (zero : ¬ ZeroFree m.id) : ∃ r', resvDNSAnswer r = .ok (dnsErr, r') :=
  (resvDNSAnswer_ok_iff size).mpr
    ⟨response_zero holds, Or.inl (.short ((response_short holds).mpr zero))⟩

theorem other_refused (free : ZeroFree m.id) (other : r.id_ ≠ m.id.toNat) :
    ∃ r', resvDNSAnswer r = .ok (dnsIdMismatch, r') := by
  refine (resvDNSAnswer_ok_iff size).mpr ⟨response_zero holds, Or.inl (.mismatch ?_ ?_)⟩
  · exact fun short => (response_short holds).mp short free
  · rw [response_id holds]
    exact other

/-- A reading that ends well has read only names that fit. -/
theorem names_fit (answered : ∃ r', resvDNSAnswer r = .ok (dnsOk, r')) : NamesFit m := by
  have small := Nat.le_of_eq size
  have asks := response_asks holds
  obtain ⟨_, ⟨⟨⟩⟩ | ⟨_, found, ⟨q, question, sections⟩, code⟩⟩ :=
    (resvDNSAnswer_ok_iff size).mp answered
  obtain ⟨rfl, fits⟩ := (resolves_iff asks.nameIn).mp question
  have there := answers_front holds
  have counted := m.counted
  cases sections with
  | noAnswers => exact absurd code (by decide)
  | nothing => exact absurd code (by decide)
  | found answers =>
    rw [response_answers holds] at answers
    obtain ⟨more, count⟩ := Nat.exists_eq_add_of_le counted
    rw [count] at answers
    have start : headerSize + (encodeName m.name).length + 4 = m.question.length :=
      (question_length m).symm
    rw [start] at answers
    obtain ⟨aliases, address⟩ := fits_of_section small asks there m.pointing answers
    exact ⟨fits, aliases, address⟩

/-- When all names fit, the first address is the answer. -/
theorem address_taken (free : ZeroFree m.id) (same : r.id_ = m.id.toNat) (fit : NamesFit m) :
    ∃ r', resvDNSAnswer r = .ok (dnsOk, r') ∧
      r'.answerName = inetNtoa m.address.rdata ∧ r'.answerTtl = m.address.ttl.toNat := by
  have small := Nat.le_of_eq size
  have asks := response_asks holds
  have counted := m.counted
  obtain ⟨more, count⟩ := Nat.exists_eq_add_of_le counted
  obtain ⟨rr, read, ttl_, text⟩ := @read_of_fits _ _ _ _ _ more small asks
    (answers_front holds) m.pointing fit.aliases fit.address
  obtain ⟨k, array, resolved, ends⟩ :=
    (resolveName_ok_iff domainArray).mpr ((resolves_iff asks.nameIn).mpr ⟨rfl, fit.name⟩)
  have measured := strlen_ok_iff.mpr ⟨response_zero holds, rfl⟩
  have id_ := word_ok (show 0 + 2 ≤ r.responseBuf.length by rw [size]; decide)
  have answers := word_ok (show 6 + 2 ≤ r.responseBuf.length by rw [size]; decide)
  have authorities := word_ok (show 8 + 2 ≤ r.responseBuf.length by rw [size]; decide)
  have additions := word_ok (show 10 + 2 ≤ r.responseBuf.length by rw [size]; decide)
  have long : ¬ (cString r.responseBuf).length < 2 := fun short =>
    (response_short holds).mp short free
  rw [response_id holds] at id_
  rw [response_answers holds, count] at answers
  have some_ : ¬ m.aliases.length + 1 + more = 0 := by omega
  have start : headerSize + k + 2 + 2 = m.question.length := by
    rw [ends, question_length]
  refine ⟨r.takeAnswer rr, ?_, text, ttl_⟩
  rw [resvDNSAnswer]
  simp only [measured, ok_bind, id_]
  rw [if_neg long, if_neg (not_not.mpr same), resolved]
  simp only [ok_bind]
  rw [start, readSections]
  simp only [answers, authorities, additions, ok_bind]
  rw [if_neg some_, read]
  rfl

/-- For every response, every identifier and everything behind the message in the buffer. -/
theorem answered_iff :
    Answered r m ↔ ZeroFree m.id ∧ (r.id_ = m.id.toNat → NamesFit m) := by
  constructor
  · rintro ⟨own, others⟩
    by_cases same : r.id_ = m.id.toNat
    · obtain ⟨r', result, _⟩ := own same
      refine ⟨?_, fun _ => names_fit size holds ⟨r', result⟩⟩
      by_contra zero
      exact absurd (code_unique ⟨r', result⟩ (short_refused size holds zero)) (by decide)
    · refine ⟨?_, fun same' => absurd same' same⟩
      by_contra zero
      exact absurd (code_unique (others same) (short_refused size holds zero)) (by decide)
  · rintro ⟨free, fit⟩
    exact ⟨fun same => address_taken size holds free same (fit same),
      other_refused size holds free⟩

end

end

def labelA : Label := ⟨[97], Nat.le_refl 1, Nat.le_of_ble_eq_true rfl⟩

/-- `a` is another name for `a.a`, whose address is 10.0.0.1. -/
def response (id : UInt16) : Response where
  id := id
  flags := 0x8180
  answers := 2
  authorities := 0
  additions := 0
  name := [labelA]
  qtype := 1
  qclass := 1
  aliases := [⟨.question, 1, 60, ⟨[labelA, labelA], none⟩⟩]
  address := ⟨.labels [labelA, labelA], 1, 300, 10, 0, 0, 1⟩
  rest := []
  counted := Nat.le_refl 2
  pointing := ⟨nofun, trivial⟩
  small := Nat.le_of_ble_eq_true rfl

/-- A resolver that asked for `a` with this identifier, and the response in its buffer. -/
def asking (id : UInt16) : DNSResolver where
  responseBuf := (response id).encode ++
    List.replicate (dnsMessageLimit - (response id).encode.length) 0
  id_ := id.toNat
  queryName := [97]
  answerName := []
  answerTtl := 0
  hasCallback := true
  updates := []

theorem asking_size (id : UInt16) : (asking id).responseBuf.length = dnsMessageLimit := by
  have small := (response id).small
  show ((response id).encode ++ List.replicate _ 0).length = _
  rw [List.length_append, List.length_replicate]
  exact Nat.add_sub_of_le small

/-- The identifier 257 has no zero byte. -/
theorem response_answered : Answered (asking 257) (response 257) := by
  refine (answered_iff (asking_size 257) (List.prefix_append _ _)).mpr ⟨?_, fun _ => ?_⟩
  · exact ⟨by decide, by decide⟩
  · refine ⟨Nat.le_of_ble_eq_true rfl, ⟨⟨Nat.le_of_ble_eq_true rfl, ?_⟩, trivial⟩,
      Nat.le_of_ble_eq_true rfl⟩
    exact ⟨Nat.le_of_ble_eq_true rfl, nofun⟩

/-- The same response is an error when the identifier is 256. -/
theorem zero_byte_refused : ¬ Answered (asking 256) (response 256) := by
  rintro ⟨own, _⟩
  obtain ⟨r', result, _⟩ := own rfl
  have refused := short_refused (asking_size 256) (List.prefix_append _ _)
    (show ¬ ZeroFree 256 from fun free => free.2 rfl)
  exact absurd (code_unique ⟨r', result⟩ refused) (by decide)

end DNSAnswer
