import Tigerso.DNSGrammar
import Tigerso.DNSWire

/-!
# The encoding of a response

Behind the question stand alias records and then an address record. An owner name is
written out or points at the question. The name in an alias is written out up to a place
from which it may go on at any name in front of it.
-/

open SystemCalls CText CheckedMemory DNSResolver DNSGrammar DNSWire

namespace DNSEncoding

def word16 (n : UInt16) : Bytes := [(n >>> 8).toUInt8, n.toUInt8]

def word32 (n : UInt32) : Bytes :=
  [(n >>> 24).toUInt8, (n >>> 16).toUInt8, (n >>> 8).toUInt8, n.toUInt8]

/-- A label of 1 to 63 bytes. -/
structure Label where
  bytes : Bytes
  some_ : 1 ≤ bytes.length
  few : bytes.length ≤ 63

def encodeLabels : List Label → Bytes
  | [] => []
  | label :: rest => label.bytes.length.toUInt8 :: label.bytes ++ encodeLabels rest

def encodeName (name : List Label) : Bytes := encodeLabels name ++ [0]

inductive Owner where
  | labels (name : List Label)
  | question

def Owner.encode : Owner → Bytes
  | .labels name => encodeName name
  | .question => [192, 12]

def Owner.name (question : List Label) : Owner → List Label
  | .labels name => name
  | .question => question

/-- A name that is written out, or goes on at an offset. -/
structure Target where
  labels : List Label
  suffix : Option (Fin (2 ^ 14))

def Target.encode (target : Target) : Bytes :=
  encodeLabels target.labels ++ match target.suffix with
    | none => [0]
    | some offset => [(192 + offset.val / 256).toUInt8, (offset.val % 256).toUInt8]

/-- A record up to its RDATA of `size` bytes. -/
def encodeFields (owner : Owner) (type rclass : UInt16) (ttl : UInt32) (size : Nat) : Bytes :=
  owner.encode ++ (word16 type ++ (word16 rclass ++ (word32 ttl ++ word16 size.toUInt16)))

structure Alias where
  owner : Owner
  rclass : UInt16
  ttl : UInt32
  target : Target

def Alias.fields (a : Alias) : Bytes :=
  encodeFields a.owner 5 a.rclass a.ttl a.target.encode.length

def Alias.encode (a : Alias) : Bytes := a.fields ++ a.target.encode

structure Address where
  owner : Owner
  rclass : UInt16
  ttl : UInt32
  a : Byte
  b : Byte
  c : Byte
  d : Byte

def Address.rdata (address : Address) : Bytes := [address.a, address.b, address.c, address.d]

def Address.encode (address : Address) : Bytes :=
  encodeFields address.owner 1 address.rclass address.ttl 4 ++ address.rdata

def encodeAliases (aliases : List Alias) : Bytes := aliases.flatMap Alias.encode

/-- The offsets behind `front` are those of names in front of them. -/
def Pointing : Bytes → List Alias → Prop
  | _, [] => True
  | front, a :: rest =>
    (∀ offset, a.target.suffix = some offset →
      ∃ e n, WireName (front ++ a.fields) offset offset e n) ∧
    Pointing (front ++ a.encode) rest

def encodeQuestion (id flags answers authorities additions : UInt16) (name : List Label)
    (qtype qclass : UInt16) : Bytes :=
  word16 id ++ (word16 flags ++ (word16 1 ++ (word16 answers ++ (word16 authorities ++
    (word16 additions ++ (encodeName name ++ (word16 qtype ++ word16 qclass)))))))

/-- A response of at most 512 bytes; `rest` is all that follows the first address record. -/
structure Response where
  id : UInt16
  flags : UInt16
  answers : UInt16
  authorities : UInt16
  additions : UInt16
  name : List Label
  qtype : UInt16
  qclass : UInt16
  aliases : List Alias
  address : Address
  rest : Bytes
  counted : aliases.length + 1 ≤ answers.toNat
  pointing : Pointing
    (encodeQuestion id flags answers authorities additions name qtype qclass) aliases
  small : (encodeQuestion id flags answers authorities additions name qtype qclass ++
    (encodeAliases aliases ++ (address.encode ++ rest))).length ≤ dnsMessageLimit

def Response.question (m : Response) : Bytes :=
  encodeQuestion m.id m.flags m.answers m.authorities m.additions m.name m.qtype m.qclass

def Response.encode (m : Response) : Bytes :=
  m.question ++ (encodeAliases m.aliases ++ (m.address.encode ++ m.rest))

section
variable {buf front piece rest : Bytes}

theorem beValue_word16 (n : UInt16) : beValue (word16 n) = n.toNat := by
  have bound := n.toNat_lt
  simp [beValue, word16, Nat.shiftRight_eq_div_pow]
  omega

theorem beValue_word32 (n : UInt32) : beValue (word32 n) = n.toNat := by
  have bound := n.toNat_lt
  simp [beValue, word32, Nat.shiftRight_eq_div_pow]
  omega

theorem behind_front (there : front ++ piece <+: buf) :
    front.length + piece.length ≤ buf.length ∧
      (buf.drop front.length).take piece.length = piece := by
  obtain ⟨rest, rfl⟩ := there
  constructor
  · rw [List.length_append, List.length_append]
    omega
  · rw [List.append_assoc, List.drop_left, List.take_left]

theorem byte_behind {b : Byte} (there : front ++ b :: rest <+: buf) :
    buf[front.length]? = some b := by
  obtain ⟨rest', rfl⟩ := there
  simp

theorem word_behind {n : UInt16} (there : front ++ word16 n <+: buf) :
    beValue ((buf.drop front.length).take 2) = n.toNat := by
  have read := (behind_front there).2
  rw [show (word16 n).length = 2 from rfl] at read
  rw [read, beValue_word16]

theorem long_behind {n : UInt32} (there : front ++ word32 n <+: buf) :
    beValue ((buf.drop front.length).take 4) = n.toNat := by
  have read := (behind_front there).2
  rw [show (word32 n).length = 4 from rfl] at read
  rw [read, beValue_word32]

theorem getElem?_in_front {o : Nat} {b : Byte} (there : front <+: buf)
    (here : front[o]? = some b) : buf[o]? = some b := by
  obtain ⟨rest, rfl⟩ := there
  rw [List.getElem?_append_left (getElem?_lt here), here]

/-- A name stays where it is when bytes are appended. -/
theorem wireName_in_front {s o e n : Nat} (there : front <+: buf)
    (name : WireName front s o e n) : WireName buf s o e n := by
  induction name with
  | root zero => exact .root (getElem?_in_front there zero)
  | label here some_ few inside _ ih =>
    exact .label (getElem?_in_front there here) some_ few
      (Nat.le_trans inside there.length_le) ih
  | pointer here flag behind earlier _ ih =>
    exact .pointer (getElem?_in_front there here) flag (getElem?_in_front there behind)
      earlier ih

theorem label_byte {num : Byte} (some_ : 1 ≤ num.toNat) (few : num.toNat ≤ 63) :
    num ≠ 0 ∧ startWithLabel num = true := by
  refine ⟨?_, ?_⟩
  · rintro rfl
    exact absurd some_ (by decide)
  · rw [startWithLabel, Nat.mod_eq_of_lt (by omega)]
    simp only [bne_iff_ne]
    omega

/-- The reader finds the names that begin in the first 256 bytes: all their pointers go to
places there. -/
theorem nameIn_of_wireName {s o e n : Nat} (name : WireName buf s o e n) (low : s ≤ 256) :
    NameIn buf o e n := by
  induction name with
  | root zero => exact .root zero
  | label here some_ few inside _ ih =>
    obtain ⟨nonzero, isLabel⟩ := label_byte some_ few
    exact .label here nonzero isLabel inside (ih low)
  | pointer here flag behind earlier _ ih =>
    rename_i high low' _
    have first : high.toNat = 192 := by omega
    have target := ih (by omega)
    rw [first, Nat.sub_self, Nat.zero_mul, Nat.zero_add] at target
    refine .pointer here ?_ ?_ behind target
    · rintro rfl
      exact absurd first (by decide)
    · rw [startWithLabel, first]
      rfl

theorem encodeLabels_length_cons (label : Label) (labels : List Label) :
    (encodeLabels (label :: labels)).length =
      label.bytes.length + 1 + (encodeLabels labels).length := by
  rw [encodeLabels, List.cons_append, List.length_cons, List.length_append]
  omega

/-- Labels in front of what the reader takes for a name. -/
theorem nameIn_labels {e n : Nat} {labels : List Label}
    (there : front ++ encodeLabels labels <+: buf)
    (name : NameIn buf (front.length + (encodeLabels labels).length) e n) :
    NameIn buf front.length e ((encodeLabels labels).length + n) := by
  induction labels generalizing front with
  | nil =>
    rw [encodeLabels, List.length_nil, Nat.zero_add]
    exact name
  | cons label labels ih =>
    have size : label.bytes.length.toUInt8.toNat = label.bytes.length := by
      have few := label.few
      simp only [Nat.toUInt8, UInt8.toNat_ofNat']
      omega
    obtain ⟨nonzero, isLabel⟩ := @label_byte label.bytes.length.toUInt8
      (by rw [size]; exact label.some_) (by rw [size]; exact label.few)
    have inside := (behind_front there).1
    rw [encodeLabels_length_cons] at inside name ⊢
    rw [encodeLabels] at there
    have first := byte_behind there
    have shape : front.length + 1 + label.bytes.length.toUInt8.toNat =
        (front ++ (label.bytes.length.toUInt8 :: label.bytes)).length := by
      rw [List.length_append, List.length_cons, size]
      omega
    rw [← List.append_assoc] at there
    have rest := ih there (by
      rw [← shape, size]
      rw [← Nat.add_assoc, ← Nat.add_assoc, Nat.add_right_comm front.length] at name
      exact name)
    rw [← shape] at rest
    have whole := NameIn.label first nonzero isLabel (by rw [size]; omega) rest
    rw [size, ← Nat.add_assoc] at whole
    exact whole

theorem nameIn_encodeName {name : List Label} (there : front ++ encodeName name <+: buf) :
    NameIn buf front.length (front.length + (encodeName name).length)
      (encodeLabels name).length := by
  have labels : front ++ encodeLabels name <+: buf := by
    rw [encodeName, ← List.append_assoc] at there
    exact (List.prefix_append _ _).trans there
  rw [encodeName, ← List.append_assoc] at there
  have last := byte_behind there
  have root := NameIn.root last
  rw [List.length_append] at root
  have whole := nameIn_labels labels root
  rw [encodeName, List.length_append, List.length_singleton, ← Nat.add_assoc]
  exact whole

/-- The labels of a name and their length bytes fit a domain name array. -/
def Fits (name : List Label) : Prop := (encodeLabels name).length ≤ dnsDomainNameLimit

/-- The name in an alias fits such an array, and so does the one that it merely points at
in the first 256 bytes. -/
def Target.Fits (front : Bytes) (target : Target) : Prop :=
  target.encode.length ≤ dnsDomainNameLimit ∧
    (target.labels = [] → ∀ offset, target.suffix = some offset → offset.val < 256 →
      ∀ e n, WireName front offset offset e n → n ≤ dnsDomainNameLimit)

/-- The buffer begins with a header and a question for this name. -/
def Asks (buf : Bytes) (name : List Label) : Prop :=
  ∃ header, header.length = headerSize ∧ header ++ encodeName name <+: buf

theorem Asks.nameIn {name : List Label} (asks : Asks buf name) :
    NameIn buf headerSize (headerSize + (encodeName name).length) (encodeLabels name).length := by
  obtain ⟨header, size, there⟩ := asks
  rw [← size]
  exact nameIn_encodeName there

theorem owner_in {name : List Label} {owner : Owner} (asks : Asks buf name)
    (there : front ++ owner.encode <+: buf) :
    NameIn buf front.length (front.length + owner.encode.length)
      (encodeLabels (owner.name name)).length := by
  cases owner with
  | labels own => exact nameIn_encodeName there
  | question =>
    have here := byte_behind there
    have behind : buf[front.length + 1]? = some (12 : Byte) := by
      have split : front ++ [192] ++ [12] <+: buf := by
        rw [List.append_assoc]
        exact there
      have read := byte_behind split
      rwa [List.length_append] at read
    exact .pointer here (by decide) (by decide) behind asks.nameIn

theorem resolves_iff {o e e' n : Nat} (name : NameIn buf o e n) :
    Resolves buf o e' ↔ e' = e ∧ n ≤ dnsDomainNameLimit := by
  constructor
  · rintro ⟨n', other, fits⟩
    obtain ⟨rfl, rfl⟩ := name.unique other
    exact ⟨rfl, fits⟩
  · rintro ⟨rfl, fits⟩
    exact ⟨n, name, fits⟩

theorem rdataIn_plain {p num : Nat} (inside : p + num ≤ buf.length)
    (plain : num = dnsRrnamePointersize →
      ∃ first, buf[p]? = some first ∧ startWithLabel first = true) :
    RDataIn buf p num ↔ num ≤ dnsDomainNameLimit := by
  constructor
  · rintro (⟨size, here, isPointer, _⟩ | ⟨_, _, fits⟩)
    · obtain ⟨first, here', isLabel⟩ := plain size
      cases Option.some.inj (here.symm.trans here')
      exact nomatch isLabel.symm.trans isPointer
    · exact fits
  · exact fun fits => .bytes plain inside fits

/-- Labels take at least three bytes, or the root alone takes one. -/
theorem Target.encode_length_ne_two {target : Target}
    (labelled : target.labels ≠ [] ∨ target.suffix = none) :
    target.encode.length ≠ dnsRrnamePointersize := by
  obtain ⟨labels, suffix⟩ := target
  cases labels with
  | nil =>
    rcases labelled with labelled | none_
    · exact absurd rfl labelled
    · cases none_
      decide
  | cons label labels =>
    have some_ := label.some_
    rw [Target.encode, List.length_append, encodeLabels_length_cons, dnsRrnamePointersize]
    cases suffix with
    | none =>
      rw [List.length_singleton]
      omega
    | some offset =>
      rw [List.length_cons, List.length_singleton]
      omega

theorem offset_high (offset : Fin (2 ^ 14)) :
    ((192 + offset.val / 256).toUInt8 : Byte).toNat = 192 + offset.val / 256 := by
  have bound := offset.isLt
  simp only [Nat.toUInt8, UInt8.toNat_ofNat']
  omega

theorem offset_low {offset : Fin (2 ^ 14)} (low : offset.val < 256) :
    ((offset.val % 256).toUInt8 : Byte).toNat = offset.val := by
  simp only [Nat.toUInt8, UInt8.toNat_ofNat']
  omega

/-- RDATA of two bytes is no labels, so that a name is read as a pointer only when it is one. -/
theorem rdataIn_target {target : Target} (there : front ++ target.encode <+: buf)
    (pointing : ∀ offset, target.suffix = some offset →
      ∃ e n, WireName front offset offset e n) :
    RDataIn buf front.length target.encode.length ↔ target.Fits front := by
  have inside := (behind_front there).1
  by_cases labelled : target.labels ≠ [] ∨ target.suffix = none
  · rw [rdataIn_plain inside fun two => absurd two (Target.encode_length_ne_two labelled)]
    refine ⟨fun fits => ⟨fits, fun empty offset some_ => ?_⟩, And.left⟩
    rcases labelled with labelled | none_
    · exact absurd empty labelled
    · exact nomatch none_.symm.trans some_
  obtain ⟨labels, suffix⟩ := target
  simp only [not_or, not_not] at labelled
  obtain ⟨rfl, some_⟩ := labelled
  obtain ⟨offset, rfl⟩ := Option.ne_none_iff_exists'.mp some_
  obtain ⟨e, n, name⟩ := pointing offset rfl
  have here := byte_behind there
  by_cases low : offset.val < 256
  · have first : ((192 + offset.val / 256).toUInt8 : Byte) = 192 := by
      rw [Nat.div_eq_of_lt low]
      rfl
    rw [first] at here
    have behind : buf[front.length + 1]? = some (offset.val % 256).toUInt8 := by
      have split : front ++ [(192 + offset.val / 256).toUInt8] ++ [(offset.val % 256).toUInt8] <+:
          buf := by
        rw [List.append_assoc]
        exact there
      have read := byte_behind split
      rwa [List.length_append] at read
    have target := nameIn_of_wireName
      (wireName_in_front ((List.prefix_append _ _).trans there) name) (Nat.le_of_lt low)
    rw [← offset_low low] at target
    have whole := NameIn.pointer here (by decide) (by decide) behind target
    constructor
    · rintro (⟨_, _, _, resolves⟩ | ⟨plain, _, _⟩)
      · refine ⟨Nat.le_of_ble_eq_true rfl, fun _ offset' same _ e' n' name' => ?_⟩
        cases same
        rw [← (nameIn_of_wireName name (Nat.le_of_lt low)).unique
          (nameIn_of_wireName name' (Nat.le_of_lt low)) |>.2]
        exact ((resolves_iff whole).mp resolves).2
      · obtain ⟨first', here', isLabel⟩ := plain rfl
        cases Option.some.inj (here.symm.trans here')
        exact absurd isLabel (by decide)
    · rintro ⟨_, fits⟩
      exact .pointer rfl here (by decide)
        ((resolves_iff whole).mpr ⟨rfl, fits rfl offset rfl low e n name⟩)
  · have isLabel : startWithLabel (192 + offset.val / 256).toUInt8 = true := by
      have bound := offset.isLt
      rw [startWithLabel, offset_high]
      simp only [bne_iff_ne]
      omega
    rw [rdataIn_plain inside fun _ => ⟨_, here, isLabel⟩]
    refine ⟨fun fits => ⟨fits, fun _ offset' same low' => ?_⟩, And.left⟩
    cases same
    exact absurd low' low

theorem encodeFields_length (owner : Owner) (type rclass : UInt16) (ttl : UInt32) (size : Nat) :
    (encodeFields owner type rclass ttl size).length = owner.encode.length + 10 := by
  rw [encodeFields, List.length_append]
  rfl

/-- What the fixed fields behind an owner name read as. -/
structure FieldsRead (buf : Bytes) (p : Nat) (type : UInt16) (ttl : UInt32) (size : Nat) :
    Prop where
  inside : p + 10 ≤ buf.length
  type : beValue ((buf.drop p).take 2) = type.toNat
  ttl : beValue ((buf.drop (p + 4)).take 4) = ttl.toNat
  size : beValue ((buf.drop (p + 8)).take 2) = size

theorem fields_read {owner : Owner} {type rclass : UInt16} {ttl : UInt32} {size : Nat}
    (few : size < 2 ^ 16) (there : front ++ encodeFields owner type rclass ttl size <+: buf) :
    FieldsRead buf (front.length + owner.encode.length) type ttl size := by
  have inside := (behind_front there).1
  rw [encodeFields_length] at inside
  rw [encodeFields, ← List.append_assoc, ← List.append_assoc, ← List.append_assoc,
    ← List.append_assoc] at there
  have upToTtl := (List.prefix_append _ _).trans there
  have upToType := (List.prefix_append _ _).trans ((List.prefix_append _ _).trans upToTtl)
  have type_ := word_behind upToType
  have ttl_ := long_behind upToTtl
  have size_ := word_behind there
  have same : size.toUInt16.toNat = size := by
    simp only [Nat.toUInt16, UInt16.toNat_ofNat']
    omega
  rw [same] at size_
  simp only [List.length_append] at type_ ttl_ size_
  exact ⟨by omega, type_, ttl_, size_⟩

/-- A record lies inside when its owner name fits and its RDATA lies inside. -/
theorem recordIn_iff {name : List Label} {owner : Owner} {type rclass : UInt16} {ttl : UInt32}
    {rdata : Bytes} (few : rdata.length < 2 ^ 16) (asks : Asks buf name)
    (there : front ++ encodeFields owner type rclass ttl rdata.length ++ rdata <+: buf)
    {p e t : Nat} :
    RecordIn buf front.length p e t ↔
      (p = front.length + owner.encode.length ∧
        e = (front ++ encodeFields owner type rclass ttl rdata.length ++ rdata).length ∧
        t = type.toNat) ∧
      Fits (owner.name name) ∧
      RDataIn buf (front ++ encodeFields owner type rclass ttl rdata.length).length
        rdata.length := by
  have upToRData := (List.prefix_append _ _).trans there
  have named : front ++ owner.encode <+: buf := by
    rw [encodeFields, ← List.append_assoc] at upToRData
    exact (List.prefix_append _ _).trans upToRData
  have place := owner_in asks named
  have fields := fields_read few upToRData
  have start : front.length + owner.encode.length + 10 =
      (front ++ encodeFields owner type rclass ttl rdata.length).length := by
    rw [List.length_append, encodeFields_length, Nat.add_assoc]
  rw [@List.length_append _ _ rdata, ← start]
  constructor
  · rintro ⟨resolves, inside, typed, ends, data⟩
    obtain ⟨rfl, fits⟩ := (resolves_iff place).mp resolves
    rw [fields.type] at typed
    rw [fields.size] at ends data
    exact ⟨⟨rfl, ends, typed⟩, fits, data⟩
  · rintro ⟨⟨rfl, rfl, rfl⟩, fits, data⟩
    refine ⟨(resolves_iff place).mpr ⟨rfl, fits⟩, fields.inside, fields.type.symm, ?_, ?_⟩
    · rw [fields.size]
    · rw [fields.size]
      exact data

end

end DNSEncoding
