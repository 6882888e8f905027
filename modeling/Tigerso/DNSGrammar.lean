import Mathlib.Data.List.Nodup
import Mathlib.Data.List.Perm.Subperm
import Tigerso.DNSResolver

/-!
# Names and records that lie inside a buffer

The reader takes every byte whose low six bits are not all zero for the length of a label
and every other one but zero for a pointer. A name lies inside when each of its labels
does, its pointers end, and its text fits the array that it is written to.
-/

open SystemCalls CText CheckedMemory DNSResolver

namespace DNSGrammar

/-- The name at `o` ends in place at `e`, and its text has `n` bytes. -/
inductive NameIn (buf : Bytes) : Nat → Nat → Nat → Prop
  | root {o : Nat} (zero : buf[o]? = some 0) : NameIn buf o (o + 1) 0
  | label {o e n : Nat} {num : Byte} (here : buf[o]? = some num) (nonzero : num ≠ 0)
      (isLabel : startWithLabel num = true) (inside : o + 1 + num.toNat ≤ buf.length)
      (rest : NameIn buf (o + 1 + num.toNat) e n) : NameIn buf o e (num.toNat + 1 + n)
  | pointer {o e n : Nat} {num low : Byte} (here : buf[o]? = some num) (nonzero : num ≠ 0)
      (isPointer : startWithLabel num = false) (behind : buf[o + 1]? = some low)
      (target : NameIn buf low.toNat e n) : NameIn buf o (o + 2) n

section
variable {buf : Bytes} {o e n : Nat}

/-- A pointer's own low bits do not count. -/
theorem pointer_high {num : Byte} (isPointer : startWithLabel num = false) :
    num.toNat % 64 = 0 := by
  simpa [startWithLabel] using isPointer

/-- A position is the beginning of one name at most. -/
theorem NameIn.unique {e' n' : Nat} (name : NameIn buf o e n) (other : NameIn buf o e' n') :
    e = e' ∧ n = n' := by
  induction name generalizing e' n' with
  | root zero =>
    cases other with
    | root _ => exact ⟨rfl, rfl⟩
    | label here nonzero _ _ _ => exact absurd (Option.some.inj (here.symm.trans zero)) nonzero
    | pointer here nonzero _ _ _ => exact absurd (Option.some.inj (here.symm.trans zero)) nonzero
  | label here nonzero isLabel _ _ ih =>
    cases other with
    | root zero => exact absurd (Option.some.inj (here.symm.trans zero)) nonzero
    | label here' _ _ _ rest' =>
      cases Option.some.inj (here.symm.trans here')
      obtain ⟨rfl, rfl⟩ := ih rest'
      exact ⟨rfl, rfl⟩
    | pointer here' _ isPointer _ _ =>
      cases Option.some.inj (here.symm.trans here')
      exact nomatch isLabel.symm.trans isPointer
  | pointer here nonzero isPointer behind _ ih =>
    cases other with
    | root zero => exact absurd (Option.some.inj (here.symm.trans zero)) nonzero
    | label here' _ isLabel _ _ =>
      cases Option.some.inj (here.symm.trans here')
      exact nomatch isLabel.symm.trans isPointer
    | pointer here' _ _ behind' target' =>
      cases Option.some.inj (behind.symm.trans behind')
      exact ⟨rfl, (ih target').2⟩

/-- The positions of the labels, pointers and the root that the name goes through. -/
inductive Trail (buf : Bytes) : Nat → List Nat → Prop
  | root {o : Nat} (zero : buf[o]? = some 0) : Trail buf o [o]
  | label {o : Nat} {num : Byte} {trail : List Nat} (here : buf[o]? = some num)
      (nonzero : num ≠ 0) (isLabel : startWithLabel num = true)
      (rest : Trail buf (o + 1 + num.toNat) trail) : Trail buf o (o :: trail)
  | pointer {o : Nat} {num low : Byte} {trail : List Nat} (here : buf[o]? = some num)
      (nonzero : num ≠ 0) (isPointer : startWithLabel num = false)
      (behind : buf[o + 1]? = some low) (target : Trail buf low.toNat trail) :
      Trail buf o (o :: trail)

theorem NameIn.trail (name : NameIn buf o e n) : ∃ trail, Trail buf o trail := by
  induction name with
  | root zero => exact ⟨_, .root zero⟩
  | label here nonzero isLabel _ _ ih =>
    obtain ⟨trail, rest⟩ := ih
    exact ⟨_, .label here nonzero isLabel rest⟩
  | pointer here nonzero isPointer behind _ ih =>
    obtain ⟨trail, target⟩ := ih
    exact ⟨_, .pointer here nonzero isPointer behind target⟩

/-- So is it of one trail. -/
theorem Trail.unique {trail trail' : List Nat} (first : Trail buf o trail)
    (second : Trail buf o trail') : trail = trail' := by
  induction first generalizing trail' with
  | root zero =>
    cases second with
    | root _ => rfl
    | label here nonzero _ _ => exact absurd (Option.some.inj (here.symm.trans zero)) nonzero
    | pointer here nonzero _ _ _ => exact absurd (Option.some.inj (here.symm.trans zero)) nonzero
  | label here nonzero isLabel _ ih =>
    cases second with
    | root zero => exact absurd (Option.some.inj (here.symm.trans zero)) nonzero
    | label here' _ _ rest' =>
      cases Option.some.inj (here.symm.trans here')
      rw [ih rest']
    | pointer here' _ isPointer _ _ =>
      cases Option.some.inj (here.symm.trans here')
      exact nomatch isLabel.symm.trans isPointer
  | pointer here nonzero isPointer behind _ ih =>
    cases second with
    | root zero => exact absurd (Option.some.inj (here.symm.trans zero)) nonzero
    | label here' _ isLabel _ =>
      cases Option.some.inj (here.symm.trans here')
      exact nomatch isLabel.symm.trans isPointer
    | pointer here' _ _ behind' target' =>
      cases Option.some.inj (behind.symm.trans behind')
      rw [ih target']

theorem getElem?_lt {b : Byte} (here : buf[o]? = some b) : o < buf.length := by
  by_contra outside
  rw [List.getElem?_eq_none (Nat.le_of_not_lt outside)] at here
  exact nomatch here

theorem Trail.inside {trail : List Nat} (walk : Trail buf o trail) :
    ∀ p ∈ trail, p < buf.length := by
  induction walk with
  | root zero =>
    intro p there
    rw [List.mem_singleton.mp there]
    exact getElem?_lt zero
  | label here _ _ _ ih =>
    intro p there
    rcases List.mem_cons.mp there with rfl | later
    · exact getElem?_lt here
    · exact ih p later
  | pointer here _ _ _ _ ih =>
    intro p there
    rcases List.mem_cons.mp there with rfl | later
    · exact getElem?_lt here
    · exact ih p later

/-- The trail from a position that it goes through is no longer. -/
theorem Trail.from_mem {trail : List Nat} (walk : Trail buf o trail) :
    ∀ p ∈ trail, ∃ rest, Trail buf p rest ∧ rest.length ≤ trail.length := by
  induction walk with
  | root zero =>
    intro p there
    rw [List.mem_singleton.mp there]
    exact ⟨_, .root zero, Nat.le_refl _⟩
  | label here nonzero isLabel walk ih =>
    intro p there
    rcases List.mem_cons.mp there with rfl | later
    · exact ⟨_, .label here nonzero isLabel walk, Nat.le_refl _⟩
    · obtain ⟨rest, walk', shorter⟩ := ih p later
      exact ⟨rest, walk', Nat.le_succ_of_le shorter⟩
  | pointer here nonzero isPointer behind walk ih =>
    intro p there
    rcases List.mem_cons.mp there with rfl | later
    · exact ⟨_, .pointer here nonzero isPointer behind walk, Nat.le_refl _⟩
    · obtain ⟨rest, walk', shorter⟩ := ih p later
      exact ⟨rest, walk', Nat.le_succ_of_le shorter⟩

theorem Trail.notMem_tail {trail : List Nat} (walk : Trail buf o (o :: trail)) {p : Nat}
    (next : Trail buf p trail) : o ∉ trail := by
  intro again
  obtain ⟨rest, walk', shorter⟩ := next.from_mem _ again
  rw [Trail.unique walk' walk, List.length_cons] at shorter
  exact absurd shorter (Nat.not_succ_le_self _)

/-- A name that ends goes through no position twice. -/
theorem Trail.nodup {trail : List Nat} (walk : Trail buf o trail) : trail.Nodup := by
  induction walk with
  | root _ => exact List.nodup_singleton _
  | label here nonzero isLabel walk ih =>
    exact List.nodup_cons.mpr ⟨(Trail.label here nonzero isLabel walk).notMem_tail walk, ih⟩
  | pointer here nonzero isPointer behind walk ih =>
    exact List.nodup_cons.mpr
      ⟨(Trail.pointer here nonzero isPointer behind walk).notMem_tail walk, ih⟩

theorem Trail.length_le {trail : List Nat} (walk : Trail buf o trail) :
    trail.length ≤ buf.length := by
  have sub : trail ⊆ List.range buf.length := fun p there =>
    List.mem_range.mpr (walk.inside p there)
  have fewer := (List.subperm_of_subset walk.nodup sub).length_le
  rwa [List.length_range] at fewer

/-- A name that was resolved lies inside, and so does its text. -/
theorem nameIn_of_resolve (fuel : Nat) {name name' : Bytes} {pos size : Nat}
    (resolved : resolveRRName buf fuel o name pos = .ok (size, name')) :
    ∃ n, NameIn buf o (o + size) n ∧ (pos ≤ name.length → pos + n ≤ name.length) ∧
      name'.length = name.length := by
  induction fuel generalizing o name pos size name' with
  | zero => exact nomatch resolved
  | succ fuel ih =>
    rw [resolveRRName] at resolved
    obtain ⟨num, here, resolved⟩ := bind_ok_iff.mp resolved
    have here := load_ok_iff.mp here
    by_cases zero : num = 0
    · rw [if_pos zero] at resolved
      cases resolved
      exact ⟨0, .root (zero ▸ here), fun inside => inside, rfl⟩
    rw [if_neg zero] at resolved
    by_cases isLabel : startWithLabel num = true
    · rw [if_pos isLabel] at resolved
      obtain ⟨label, read, resolved⟩ := bind_ok_iff.mp resolved
      obtain ⟨name₁, first, resolved⟩ := bind_ok_iff.mp resolved
      obtain ⟨name₂, second, resolved⟩ := bind_ok_iff.mp resolved
      obtain ⟨⟨size', name₃⟩, rest, resolved⟩ := bind_ok_iff.mp resolved
      cases resolved
      obtain ⟨n, later, fits, same⟩ := ih rest
      have length := loads_length read
      have inside := (store_ok_iff.mp second).1
      have kept := (store_length second).trans (store_length first)
      rw [store_length first, List.length_singleton] at inside
      refine ⟨num.toNat + 1 + n, ?_, fun _ => ?_, same.trans kept⟩
      · have shape : o + (1 + num.toNat + size') = o + 1 + num.toNat + size' := by omega
        rw [shape]
        exact .label here zero isLabel (loads_ok_iff.mp read).1 later
      · rw [kept] at fits
        have more := fits (by omega)
        omega
    · rw [if_neg isLabel] at resolved
      obtain ⟨low, behind, resolved⟩ := bind_ok_iff.mp resolved
      obtain ⟨⟨size', name₁⟩, target, resolved⟩ := bind_ok_iff.mp resolved
      cases resolved
      have isPointer : startWithLabel num = false := by simpa using isLabel
      rw [pointer_high isPointer, Nat.zero_add] at target
      obtain ⟨n, there, fits, same⟩ := ih target
      exact ⟨n, .pointer here zero isPointer (load_ok_iff.mp behind) there, fits, same⟩

/-- A name that lies inside is resolved, with a step for each position of its trail. -/
theorem resolve_of_nameIn (name : NameIn buf o e n) {trail : List Nat} (walk : Trail buf o trail)
    {fuel : Nat} (fuelled : trail.length ≤ fuel) {array : Bytes} {pos : Nat}
    (fits : pos + n ≤ array.length) :
    ∃ size array', resolveRRName buf fuel o array pos = .ok (size, array') ∧ o + size = e ∧
      array'.length = array.length := by
  induction name generalizing trail fuel array pos with
  | root zero =>
    cases fuel with
    | zero =>
      rw [Trail.unique walk (.root zero)] at fuelled
      exact absurd fuelled (Nat.not_succ_le_zero _)
    | succ fuel =>
      refine ⟨1, array, ?_, rfl, rfl⟩
      rw [resolveRRName, load_ok_iff.mpr zero]
      rfl
  | label here nonzero isLabel inside rest ih =>
    rename_i o e n num
    obtain ⟨trail', walk'⟩ := rest.trail
    have shape := Trail.unique walk (.label here nonzero isLabel walk')
    rw [shape, List.length_cons] at fuelled
    cases fuel with
    | zero => exact absurd fuelled (Nat.not_succ_le_zero _)
    | succ fuel =>
      have read := loads_ok_iff.mpr ⟨inside, rfl⟩
      have length := loads_length read
      have first := store_ok_iff.mpr ⟨(show pos + ((buf.drop (o + 1)).take num.toNat).length ≤
        array.length by omega), rfl⟩
      have same := store_length first
      have second := store_ok_iff.mpr ⟨(show pos + num.toNat + [(46 : Byte)].length ≤ _ by
        rw [same, List.length_singleton]; omega), rfl⟩
      have same' := (store_length second).trans same
      obtain ⟨size, array', resolved, ends, kept⟩ := ih walk' (Nat.le_of_succ_le_succ fuelled)
        (show pos + num.toNat + 1 + n ≤ _ by rw [same']; omega)
      refine ⟨1 + num.toNat + size, array', ?_, by omega, kept.trans same'⟩
      rw [resolveRRName, load_ok_iff.mpr here, ok_bind, if_neg nonzero, if_pos isLabel, read,
        ok_bind, first, ok_bind, second, ok_bind, resolved]
      rfl
  | pointer here nonzero isPointer behind target ih =>
    rename_i o e n num low
    obtain ⟨trail', walk'⟩ := target.trail
    have shape := Trail.unique walk (.pointer here nonzero isPointer behind walk')
    rw [shape, List.length_cons] at fuelled
    cases fuel with
    | zero => exact absurd fuelled (Nat.not_succ_le_zero _)
    | succ fuel =>
      obtain ⟨size, array', resolved, _, kept⟩ := ih walk' (Nat.le_of_succ_le_succ fuelled) fits
      refine ⟨2, array', ?_, rfl, kept⟩
      rw [resolveRRName, load_ok_iff.mpr here, ok_bind, if_neg nonzero,
        if_neg (by rw [isPointer]; decide), load_ok_iff.mpr behind, ok_bind,
        pointer_high isPointer, Nat.zero_add, resolved]
      rfl

/-- A name whose text fits a domain name array. -/
def Resolves (buf : Bytes) (o e : Nat) : Prop := ∃ n, NameIn buf o e n ∧ n ≤ dnsDomainNameLimit

theorem Resolves.unique {e' : Nat} (name : Resolves buf o e) (other : Resolves buf o e') :
    e = e' := by
  obtain ⟨_, name, _⟩ := name
  obtain ⟨_, other, _⟩ := other
  exact (name.unique other).1

/-- `resolveRRName` into an array of 255 bytes. -/
theorem resolveName_ok_iff {array : Bytes} (size : array.length = dnsDomainNameLimit) :
    (∃ k array', resolveName buf o array = .ok (k, array') ∧ o + k = e) ↔ Resolves buf o e := by
  constructor
  · rintro ⟨k, array', resolved, rfl⟩
    obtain ⟨n, name, fits, _⟩ := nameIn_of_resolve _ resolved
    have inside := fits (Nat.zero_le _)
    rw [Nat.zero_add, size] at inside
    exact ⟨n, name, inside⟩
  · rintro ⟨n, name, fits⟩
    obtain ⟨trail, walk⟩ := name.trail
    obtain ⟨k, array', resolved, ends, _⟩ := resolve_of_nameIn name walk
      (Nat.le_succ_of_le walk.length_le) (show 0 + n ≤ array.length by rw [size]; omega)
    exact ⟨k, array', resolved, ends⟩

theorem resolveName_length {array array' : Bytes} {k : Nat}
    (resolved : resolveName buf o array = .ok (k, array')) : array'.length = array.length := by
  obtain ⟨_, _, _, same⟩ := nameIn_of_resolve _ resolved
  exact same

/-- RDATA of `num` bytes at `p`: two bytes that begin with a pointer are a name, and all
others are copied. -/
inductive RDataIn (buf : Bytes) (p num : Nat) : Prop
  | pointer {first : Byte} {e : Nat} (size : num = dnsRrnamePointersize)
      (here : buf[p]? = some first) (isPointer : startWithLabel first = false)
      (name : Resolves buf p e)
  | bytes (plain : num = dnsRrnamePointersize →
        ∃ first, buf[p]? = some first ∧ startWithLabel first = true)
      (inside : p + num ≤ buf.length) (fits : num ≤ dnsDomainNameLimit)

/-- The record at `o`: its fields stand at `p` behind its name, and its RDATA ends at `e`. -/
structure RecordIn (buf : Bytes) (o p e type : Nat) : Prop where
  name : Resolves buf o p
  inside : p + 10 ≤ buf.length
  type : type = beValue ((buf.drop p).take 2)
  ends : e = p + 10 + beValue ((buf.drop (p + 8)).take 2)
  rdata : RDataIn buf (p + 10) (beValue ((buf.drop (p + 8)).take 2))

theorem domainArray : (List.replicate dnsDomainNameLimit (0 : Byte)).length =
    dnsDomainNameLimit := List.length_replicate

/-- Two bytes that begin with a pointer are one. -/
theorem dataIsPointer_ok_iff {num : Nat} {pointer : Bool} :
    dataIsPointer buf o num = .ok pointer ↔
      (num = dnsRrnamePointersize ∧ ∃ first, buf[o]? = some first ∧
        pointer = !startWithLabel first) ∨ num ≠ dnsRrnamePointersize ∧ pointer = false := by
  rw [dataIsPointer]
  by_cases two : num = dnsRrnamePointersize
  · rw [if_pos two]
    constructor
    · intro looked
      cases read : load buf o with
      | error e =>
        rw [read] at looked
        exact nomatch looked
      | ok first =>
        rw [read] at looked
        cases looked
        exact Or.inl ⟨two, first, load_ok_iff.mp read, rfl⟩
    · rintro (⟨_, first, here, rfl⟩ | ⟨other, _⟩)
      · rw [load_ok_iff.mpr here]
        rfl
      · exact absurd two other
  · rw [if_neg two]
    constructor
    · intro looked
      cases looked
      exact Or.inr ⟨two, rfl⟩
    · rintro (⟨same, _⟩ | ⟨_, rfl⟩)
      · exact absurd same two
      · rfl

theorem readRData_bytes {num : Nat} {array : Bytes}
    (plain : num = dnsRrnamePointersize →
      ∃ first, buf[o]? = some first ∧ startWithLabel first = true)
    (inside : o + num ≤ buf.length) (fits : num ≤ array.length) :
    readRData buf o num array = .ok ((buf.drop o).take num ++ array.drop num) := by
  have bytes := loads_ok_iff.mpr ⟨inside, rfl⟩
  have length := loads_length bytes
  have stored := @store_start array _ (show ((buf.drop o).take num).length ≤ array.length by omega)
  rw [length] at stored
  have looked : dataIsPointer buf o num = .ok false := by
    refine dataIsPointer_ok_iff.mpr ?_
    by_cases two : num = dnsRrnamePointersize
    · obtain ⟨first, here, isLabel⟩ := plain two
      exact Or.inl ⟨two, first, here, by rw [isLabel]; rfl⟩
    · exact Or.inr ⟨two, rfl⟩
  rw [readRData, looked, ok_bind, if_neg Bool.false_ne_true, bytes, ok_bind, stored]

/-- RDATA is read when it lies inside as the reader takes it. -/
theorem readRData_ok_iff {num : Nat} {array : Bytes}
    (size : array.length = dnsDomainNameLimit) :
    (∃ array', readRData buf o num array = .ok array') ↔ RDataIn buf o num := by
  constructor
  · rintro ⟨array', result⟩
    rw [readRData] at result
    obtain ⟨pointer, looked, result⟩ := bind_ok_iff.mp result
    by_cases isPointer : pointer = true
    · rw [if_pos isPointer] at result
      obtain ⟨⟨k, array₁⟩, resolved, _⟩ := bind_ok_iff.mp result
      have name := (resolveName_ok_iff size).mp ⟨k, array₁, resolved, rfl⟩
      rcases dataIsPointer_ok_iff.mp looked with ⟨two, first, here, same⟩ | ⟨_, same⟩
      · refine .pointer two here ?_ name
        rw [isPointer] at same
        simpa using same.symm
      · exact nomatch isPointer.symm.trans same
    · rw [if_neg isPointer] at result
      obtain ⟨bytes, read, stored⟩ := bind_ok_iff.mp result
      have length := loads_length read
      have fits := (store_ok_iff.mp stored).1
      refine .bytes (fun two => ?_) (loads_ok_iff.mp read).1 (by omega)
      rcases dataIsPointer_ok_iff.mp looked with ⟨_, first, here, same⟩ | ⟨other, _⟩
      · refine ⟨first, here, ?_⟩
        rw [same] at isPointer
        simpa using isPointer
      · exact absurd two other
  · rintro (⟨two, here, isPointer, name⟩ | ⟨plain, inside, fits⟩)
    · obtain ⟨k, array', resolved, _⟩ := (resolveName_ok_iff size).mpr name
      have looked : dataIsPointer buf o num = .ok true :=
        dataIsPointer_ok_iff.mpr (Or.inl ⟨two, _, here, by rw [isPointer]; rfl⟩)
      refine ⟨array', ?_⟩
      rw [readRData, looked, ok_bind, if_pos rfl, resolved]
      rfl
    · exact ⟨_, readRData_bytes plain inside (by omega)⟩

theorem readRData_length {num : Nat} {array array' : Bytes}
    (result : readRData buf o num array = .ok array') : array'.length = array.length := by
  rw [readRData] at result
  obtain ⟨pointer, _, result⟩ := bind_ok_iff.mp result
  by_cases isPointer : pointer = true
  · rw [if_pos isPointer] at result
    obtain ⟨⟨k, array₁⟩, resolved, result⟩ := bind_ok_iff.mp result
    cases result
    exact resolveName_length resolved
  · rw [if_neg isPointer] at result
    obtain ⟨bytes, _, stored⟩ := bind_ok_iff.mp result
    exact store_length stored

/-- The text of an address stands in front of what the array held. -/
theorem storeAddress_eq {rdata : Bytes} (size : rdata.length = dnsDomainNameLimit) :
    storeAddress rdata = .ok ((inetNtoa (rdata.take 4) ++ List.replicate ipv4Addrsize 0).take
      ipv4Addrsize ++ rdata.drop ipv4Addrsize) := by
  have address := loads_ok_iff.mpr ⟨(show 0 + 4 ≤ rdata.length by rw [size]; decide), rfl⟩
  rw [List.drop_zero] at address
  have length (text : Bytes) :
      ((text ++ List.replicate ipv4Addrsize 0).take ipv4Addrsize).length = ipv4Addrsize := by
    rw [List.length_take, List.length_append, List.length_replicate]
    exact Nat.min_eq_left (Nat.le_add_left _ _)
  have fits : ((inetNtoa (rdata.take 4) ++ List.replicate ipv4Addrsize 0).take
      ipv4Addrsize).length ≤ rdata.length := by
    rw [length, size]
    decide
  rw [storeAddress, address, ok_bind, store_start fits, length]

theorem formatRData_ok (type : Nat) {rdata : Bytes} (size : rdata.length = dnsDomainNameLimit) :
    ∃ rdata', formatRData type rdata = .ok rdata' := by
  rw [formatRData]
  split_ifs
  · exact ⟨_, storeAddress_eq size⟩
  · exact ⟨_, rfl⟩

/-- `resolveRR` comes back for the records that lie inside, with their type and size. -/
theorem resolveRR_ok_iff {type : Nat} :
    (∃ rr, resolveRR buf o = .ok rr ∧ rr.type = type ∧ o + rr.resolved = e) ↔
      ∃ p, RecordIn buf o p e type := by
  constructor
  · rintro ⟨rr, result, rfl, rfl⟩
    rw [resolveRR] at result
    obtain ⟨⟨k, name⟩, resolved, result⟩ := bind_ok_iff.mp result
    obtain ⟨type, readType, result⟩ := bind_ok_iff.mp result
    obtain ⟨rclass, readClass, result⟩ := bind_ok_iff.mp result
    obtain ⟨ttl, readTtl, result⟩ := bind_ok_iff.mp result
    obtain ⟨num, readNum, result⟩ := bind_ok_iff.mp result
    obtain ⟨rdata, readData, result⟩ := bind_ok_iff.mp result
    obtain ⟨rdata', addressed, result⟩ := bind_ok_iff.mp result
    cases result
    obtain ⟨inside, rfl⟩ := load16_ok_iff.mp readNum
    refine ⟨o + k, (resolveName_ok_iff domainArray).mp ⟨k, name, resolved, rfl⟩, inside,
      (load16_ok_iff.mp readType).2, ?_, (readRData_ok_iff domainArray).mp ⟨rdata, readData⟩⟩
    show o + (k + 10 + _) = o + k + 10 + _
    omega
  · rintro ⟨p, name, inside, rfl, rfl, data⟩
    obtain ⟨k, array, resolved, rfl⟩ := (resolveName_ok_iff domainArray).mpr name
    obtain ⟨rdata, readData⟩ := (readRData_ok_iff domainArray).mpr data
    have readType := load16_ok_iff.mpr ⟨(show o + k + 2 ≤ buf.length by omega), rfl⟩
    have readClass := load16_ok_iff.mpr ⟨(show o + k + 2 + 2 ≤ buf.length by omega), rfl⟩
    have readTtl := load32_ok_iff.mpr ⟨(show o + k + 4 + 4 ≤ buf.length by omega), rfl⟩
    have readNum := load16_ok_iff.mpr ⟨(show o + k + 8 + 2 ≤ buf.length by omega), rfl⟩
    have size := (readRData_length readData).trans domainArray
    obtain ⟨rdata', formatted⟩ :=
      formatRData_ok (beValue ((buf.drop (o + k)).take 2)) size
    refine ⟨⟨k + 10 + beValue ((buf.drop (o + k + 8)).take 2),
      beValue ((buf.drop (o + k)).take 2), beValue ((buf.drop (o + k + 2)).take 2),
      beValue ((buf.drop (o + k + 4)).take 4), rdata'⟩, ?_, rfl, ?_⟩
    · rw [resolveRR, resolved, ok_bind]
      simp only [readType, readClass, readTtl, readNum, readData, formatted, ok_bind]
    · show o + (k + 10 + _) = _
      omega

/-- What a record that comes back holds. -/
theorem resolveRR_fields {rr : Record} {p : Nat} (result : resolveRR buf o = .ok rr)
    (name : Resolves buf o p) :
    rr.ttl = beValue ((buf.drop (p + 4)).take 4) ∧
      ∃ rdata, readRData buf (p + 10) (beValue ((buf.drop (p + 8)).take 2))
          (List.replicate dnsDomainNameLimit 0) = .ok rdata ∧
        formatRData rr.type rdata = .ok rr.rdata := by
  rw [resolveRR] at result
  obtain ⟨⟨k, array⟩, resolved, result⟩ := bind_ok_iff.mp result
  obtain ⟨type, _, result⟩ := bind_ok_iff.mp result
  obtain ⟨rclass, _, result⟩ := bind_ok_iff.mp result
  obtain ⟨ttl, readTtl, result⟩ := bind_ok_iff.mp result
  obtain ⟨num, readNum, result⟩ := bind_ok_iff.mp result
  obtain ⟨rdata, readData, result⟩ := bind_ok_iff.mp result
  obtain ⟨rdata', formatted, result⟩ := bind_ok_iff.mp result
  cases result
  obtain rfl := name.unique ((resolveName_ok_iff domainArray).mp ⟨k, array, resolved, rfl⟩)
  obtain ⟨_, rfl⟩ := load16_ok_iff.mp readNum
  exact ⟨(load32_ok_iff.mp readTtl).2, rdata, readData, formatted⟩

/-- `left` records from `o` lie inside: the section ends at `e`, or its first A record ends
the reading. -/
inductive SectionIn (buf : Bytes) (isAnswer : Bool) : Nat → Nat → Option Nat → Prop
  | done {o : Nat} : SectionIn buf isAnswer 0 o (some o)
  | found {left o p e : Nat} (answer : isAnswer = true) (record : RecordIn buf o p e dnsTypeA) :
      SectionIn buf isAnswer (left + 1) o none
  | next {left o p e type : Nat} {ending : Option Nat} (record : RecordIn buf o p e type)
      (other : ¬ (isAnswer = true ∧ type = dnsTypeA))
      (rest : SectionIn buf isAnswer left e ending) :
      SectionIn buf isAnswer (left + 1) o ending

/-- Where `readSection` ends, without the record it takes. -/
def ending : Record ⊕ Nat → Option Nat
  | .inl _ => none
  | .inr e => some e

/-- A section is read to the end, or up to its first A record. -/
theorem readSection_ok_iff {isAnswer : Bool} {left : Nat} {stop : Option Nat} :
    (∃ result, readSection buf isAnswer left o = .ok result ∧ ending result = stop) ↔
      SectionIn buf isAnswer left o stop := by
  induction left generalizing o with
  | zero =>
    constructor
    · rintro ⟨result, read, rfl⟩
      cases read
      exact .done
    · rintro (_ | _ | _)
      exact ⟨_, rfl, rfl⟩
  | succ left ih =>
    constructor
    · rintro ⟨result, read, rfl⟩
      rw [readSection] at read
      obtain ⟨rr, first, read⟩ := bind_ok_iff.mp read
      obtain ⟨p, record⟩ := resolveRR_ok_iff.mp ⟨rr, first, rfl, rfl⟩
      split_ifs at read with taken
      · cases read
        rw [taken.2] at record
        exact .found taken.1 record
      · exact .next record taken (ih.mp ⟨result, read, rfl⟩)
    · rintro (_ | ⟨answer, record⟩ | ⟨record, other, rest⟩)
      · obtain ⟨rr, first, type, _⟩ := resolveRR_ok_iff.mpr ⟨_, record⟩
        refine ⟨.inl rr, ?_, rfl⟩
        rw [readSection, first, ok_bind, if_pos ⟨answer, type⟩]
      · obtain ⟨rr, first, rfl, rfl⟩ := resolveRR_ok_iff.mpr ⟨_, record⟩
        obtain ⟨result, read, stop⟩ := ih.mpr rest
        refine ⟨result, ?_, stop⟩
        rw [readSection, first, ok_bind, if_neg other]
        exact read

/-- Only an answer is taken. -/
theorem SectionIn.ends {left : Nat} {stop : Option Nat} (read : SectionIn buf false left o stop) :
    ∃ e, stop = some e := by
  induction read with
  | done => exact ⟨_, rfl⟩
  | found answer _ => exact nomatch answer
  | next _ _ _ ih => exact ih

end

end DNSGrammar
