import Tigerso.DNSEncoding

/-!
# dns/DNSResolver: the text of a name

Of the offset in a pointer the reader uses the second byte only, and a first byte with bits
of the offset is the length of a label to it.
-/

open SystemCalls CheckedMemory DNSResolver DNSGrammar DNSWire DNSEncoding

namespace DNSNames

/-- A name that begins at `s` goes on at `o` and ends in place at `e`; what it stands for from
`o` on, each label with a dot behind it. -/
inductive Expands (msg : Bytes) : Nat → Nat → Nat → Bytes → Prop
  | root {s o : Nat} (zero : msg[o]? = some 0) : Expands msg s o (o + 1) []
  | label {s o e : Nat} {num : Byte} {text : Bytes} (here : msg[o]? = some num)
      (some_ : 1 ≤ num.toNat) (few : num.toNat ≤ 63) (inside : o + 1 + num.toNat ≤ msg.length)
      (rest : Expands msg s (o + 1 + num.toNat) e text) :
      Expands msg s o e ((msg.drop (o + 1)).take num.toNat ++ 46 :: text)
  | pointer {s o e : Nat} {high low : Byte} {text : Bytes} (here : msg[o]? = some high)
      (flag : 192 ≤ high.toNat) (behind : msg[o + 1]? = some low)
      (earlier : (high.toNat - 192) * 256 + low.toNat < s)
      (target : Expands msg ((high.toNat - 192) * 256 + low.toNat)
        ((high.toNat - 192) * 256 + low.toNat) e text) :
      Expands msg s o (o + 2) text

/-- A position behind some of the labels that stand at `o`. -/
inductive Labels (msg : Bytes) : Nat → Nat → Prop
  | none {o : Nat} : Labels msg o o
  | label {o p : Nat} {num : Byte} (here : msg[o]? = some num) (some_ : 1 ≤ num.toNat)
      (few : num.toNat ≤ 63) (rest : Labels msg (o + 1 + num.toNat) p) : Labels msg o p

/-- What the reader makes of the bytes at `o`. -/
inductive Reads (buf : Bytes) : Nat → Nat → Bytes → Prop
  | root {o : Nat} (zero : buf[o]? = some 0) : Reads buf o (o + 1) []
  | label {o e : Nat} {num : Byte} {text : Bytes} (here : buf[o]? = some num) (nonzero : num ≠ 0)
      (isLabel : startWithLabel num = true) (inside : o + 1 + num.toNat ≤ buf.length)
      (rest : Reads buf (o + 1 + num.toNat) e text) :
      Reads buf o e ((buf.drop (o + 1)).take num.toNat ++ 46 :: text)
  | pointer {o e : Nat} {num low : Byte} {text : Bytes} (here : buf[o]? = some num)
      (nonzero : num ≠ 0) (isPointer : startWithLabel num = false)
      (behind : buf[o + 1]? = some low) (target : Reads buf low.toNat e text) :
      Reads buf o (o + 2) text

section
variable {msg buf array text more : Bytes} {s o e p pos fuel : Nat}

theorem label_text_length {num : Byte} (inside : o + 1 + num.toNat ≤ buf.length) :
    ((buf.drop (o + 1)).take num.toNat ++ 46 :: text).length = num.toNat + 1 + text.length := by
  rw [List.length_append, List.length_take, List.length_drop, List.length_cons]
  omega

theorem Reads.nameIn (reads : Reads buf o e text) : NameIn buf o e text.length := by
  induction reads with
  | root zero => exact .root zero
  | label here nonzero isLabel inside _ ih =>
    rw [label_text_length inside]
    exact .label here nonzero isLabel inside ih
  | pointer here nonzero isPointer behind _ ih => exact .pointer here nonzero isPointer behind ih

theorem lt_end {n : Nat} (name : NameIn buf o e n) : o < e := by
  induction name with
  | root => exact Nat.lt_succ_self _
  | label _ _ _ _ _ ih => omega
  | pointer => omega

/-- The text is written, and the bytes in place are counted. -/
theorem resolve_reads (reads : Reads buf o e text) {trail : List Nat} (walk : Trail buf o trail)
    (fuelled : trail.length ≤ fuel) (fits : pos + text.length ≤ array.length) :
    resolveRRName buf fuel o array pos = .ok (e - o, written array pos text) := by
  induction reads generalizing trail fuel array pos with
  | root zero =>
    cases fuel with
    | zero =>
      rw [Trail.unique walk (.root zero)] at fuelled
      exact absurd fuelled (Nat.not_succ_le_zero _)
    | succ fuel =>
      rw [resolveRRName, load_ok_iff.mpr zero, written_nil, Nat.add_sub_cancel_left]
      rfl
  | @label o e num text here nonzero isLabel inside rest ih =>
    obtain ⟨trail', walk'⟩ := rest.nameIn.trail
    have shape := Trail.unique walk (.label here nonzero isLabel walk')
    rw [shape, List.length_cons] at fuelled
    rw [label_text_length inside] at fits
    cases fuel with
    | zero => exact absurd fuelled (Nat.not_succ_le_zero _)
    | succ fuel =>
      have read := loads_ok_iff.mpr ⟨inside, rfl⟩
      have size := loads_length read
      generalize (buf.drop (o + 1)).take num.toNat = label at read size
      have first : pos + label.length ≤ array.length := by omega
      have dot : pos + label.length + [(46 : Byte)].length ≤ (written array pos label).length := by
        rw [written_length first, List.length_singleton]
        omega
      have both := written_append [46] first
      have same : (written array pos (label ++ [46])).length = array.length := by
        rw [← both, written_length dot, written_length first]
      have long : (label ++ [(46 : Byte)]).length = num.toNat + 1 := by
        rw [List.length_append, size, List.length_singleton]
      have later := ih walk' (Nat.le_of_succ_le_succ fuelled)
        (show pos + num.toNat + 1 + text.length ≤ (written array pos (label ++ [46])).length by
          rw [same]; omega)
      have all : written (written array pos (label ++ [46])) (pos + num.toNat + 1) text =
          written array pos (label ++ 46 :: text) := by
        rw [Nat.add_assoc, ← long, written_append _ (by omega), List.append_assoc,
          List.singleton_append]
      have ends := lt_end rest.nameIn
      have count : 1 + num.toNat + (e - (o + 1 + num.toNat)) = e - o := by omega
      rw [resolveRRName, load_ok_iff.mpr here, ok_bind, if_neg nonzero, if_pos isLabel, read,
        ok_bind, store_written first, ok_bind, ← size, store_written dot, ok_bind, both, size,
        later, ok_bind, all]
      dsimp only
      rw [count]
  | @pointer o e num low text here nonzero isPointer behind target ih =>
    obtain ⟨trail', walk'⟩ := target.nameIn.trail
    have shape := Trail.unique walk (.pointer here nonzero isPointer behind walk')
    rw [shape, List.length_cons] at fuelled
    cases fuel with
    | zero => exact absurd fuelled (Nat.not_succ_le_zero _)
    | succ fuel =>
      have there := ih walk' (Nat.le_of_succ_le_succ fuelled) fits
      rw [resolveRRName, load_ok_iff.mpr here, ok_bind, if_neg nonzero,
        if_neg (by rw [isPointer]; decide), load_ok_iff.mpr behind, ok_bind,
        pointer_high isPointer, Nat.zero_add, there, Nat.add_sub_cancel_left]
      rfl

theorem resolveName_reads (reads : Reads buf o e text) (fits : text.length ≤ array.length) :
    resolveName buf o array = .ok (e - o, written array 0 text) := by
  obtain ⟨trail, walk⟩ := reads.nameIn.trail
  exact resolve_reads reads walk (Nat.le_succ_of_le walk.length_le) (by omega)

/-- The bytes of the message are the same ones in the buffer. -/
theorem label_in_front {n : Nat} (stored : msg <+: buf) (inside : o + n ≤ msg.length) :
    (msg.drop o).take n = (buf.drop o).take n := by
  obtain ⟨rest, rfl⟩ := stored
  rw [List.drop_append_of_le_length (by omega), List.take_append_of_le_length]
  rw [List.length_drop]
  omega

/-- A first byte of a pointer without bits of the offset. -/
theorem near_byte {high : Byte} (near : high.toNat = 192) :
    high ≠ 0 ∧ startWithLabel high = false := by
  refine ⟨?_, ?_⟩
  · rintro rfl
    exact absurd near (by decide)
  · rw [startWithLabel, near]
    rfl

/-- Names in the first 256 bytes are read as they are: their pointers go to places there. -/
theorem reads_of_low (stored : msg <+: buf) (name : Expands msg s o e text) (low : s ≤ 256) :
    Reads buf o e text := by
  induction name with
  | root zero => exact .root (getElem?_in_front stored zero)
  | label here some_ few inside _ ih =>
    obtain ⟨nonzero, isLabel⟩ := label_byte some_ few
    rw [label_in_front stored inside]
    exact .label (getElem?_in_front stored here) nonzero isLabel
      (inside.trans stored.length_le) (ih low)
  | @pointer s o e high low' text here flag behind earlier _ ih =>
    have near : high.toNat = 192 := by omega
    obtain ⟨nonzero, isPointer⟩ := near_byte near
    have target := ih (by omega)
    rw [near, Nat.sub_self, Nat.zero_mul, Nat.zero_add] at target
    exact .pointer (getElem?_in_front stored here) nonzero isPointer
      (getElem?_in_front stored behind) target

/-- A pointer in place has no bits of its offset in the first byte. -/
def NearPointer (msg : Bytes) (o : Nat) : Prop :=
  ∀ p high, Labels msg o p → msg[p]? = some high → 192 ≤ high.toNat → high.toNat = 192

theorem reads_of_near (stored : msg <+: buf) (name : Expands msg s o e text)
    (near : NearPointer msg o) : Reads buf o e text := by
  induction name with
  | root zero => exact .root (getElem?_in_front stored zero)
  | label here some_ few inside _ ih =>
    obtain ⟨nonzero, isLabel⟩ := label_byte some_ few
    rw [label_in_front stored inside]
    refine .label (getElem?_in_front stored here) nonzero isLabel
      (inside.trans stored.length_le) (ih fun p high labels => ?_)
    exact near p high (.label here some_ few labels)
  | @pointer s o e high low text here flag behind earlier target _ =>
    have first := near o high .none here flag
    obtain ⟨nonzero, isPointer⟩ := near_byte first
    have few : low.toNat < 256 := low.toNat_lt
    have reads := reads_of_low stored target (by omega)
    rw [first, Nat.sub_self, Nat.zero_mul, Nat.zero_add] at reads
    exact .pointer (getElem?_in_front stored here) nonzero isPointer
      (getElem?_in_front stored behind) reads

theorem Labels.le (labels : Labels msg o p) : o ≤ p := by
  induction labels with
  | none => exact Nat.le_refl _
  | label _ _ _ _ ih => omega

/-- The reader is beyond a pointer that it takes for a label. -/
theorem beyond_pointer {high : Byte} {n : Nat} (labels : Labels msg o p) (stored : msg <+: buf)
    (here : msg[p]? = some high) (flag : 192 ≤ high.toNat) (far : high.toNat ≠ 192)
    (name : NameIn buf o e n) : p + 2 < e := by
  induction labels generalizing n with
  | none =>
    have here := getElem?_in_front stored here
    have few : high.toNat < 256 := high.toNat_lt
    have isLabel : startWithLabel high = true := by
      rw [startWithLabel, bne_iff_ne]
      omega
    cases name with
    | root zero =>
      cases here.symm.trans zero
      exact absurd flag (by decide)
    | label here' _ _ _ rest =>
      cases here.symm.trans here'
      have ends := lt_end rest
      omega
    | pointer here' _ isPointer =>
      cases here.symm.trans here'
      rw [isPointer] at isLabel
      cases isLabel
  | label first some_ few _ ih =>
    have first := getElem?_in_front stored first
    obtain ⟨nonzero, isLabel⟩ := label_byte some_ few
    cases name with
    | root zero => exact absurd (Option.some.inj (first.symm.trans zero)) nonzero
    | label here' _ _ _ rest =>
      cases first.symm.trans here'
      exact ih here rest
    | pointer here' _ isPointer =>
      cases first.symm.trans here'
      rw [isPointer] at isLabel
      cases isLabel

/-- The pointer ends the name in place. -/
theorem end_of_pointer {high : Byte} (labels : Labels msg o p) (here : msg[p]? = some high)
    (flag : 192 ≤ high.toNat) (name : Expands msg s o e text) : e = p + 2 := by
  induction labels generalizing text with
  | none =>
    cases name with
    | root zero =>
      cases here.symm.trans zero
      exact absurd flag (by decide)
    | label here' _ few =>
      cases here.symm.trans here'
      omega
    | pointer => rfl
  | label first some_ few _ ih =>
    cases name with
    | root zero =>
      cases first.symm.trans zero
      exact absurd some_ (by decide)
    | label here' _ _ _ rest =>
      cases first.symm.trans here'
      exact ih here rest
    | pointer here' flag' =>
      cases first.symm.trans here'
      omega

theorem near_of_resolved {array' : Bytes} (stored : msg <+: buf)
    (name : Expands msg s o e text)
    (resolved : resolveName buf o array = .ok (e - o, array')) : NearPointer msg o := by
  intro p high labels here flag
  by_contra far
  obtain ⟨n, inside, _, _⟩ := nameIn_of_resolve _ resolved
  have ends := end_of_pointer labels here flag name
  have beyond := beyond_pointer labels stored here flag far inside
  have before := labels.le
  omega

/-- The expansion is written and the bytes in place are counted exactly where the first byte of
a pointer in place has no bits of the offset. -/
theorem expansion_written (stored : msg <+: buf) (name : Expands msg o o e text)
    (short : text.length ≤ 254) :
    (∀ array : Bytes, array.length = dnsDomainNameLimit →
      resolveName buf o array = .ok (e - o, written array 0 text)) ↔ NearPointer msg o := by
  constructor
  · intro all
    exact near_of_resolved stored name (all _ domainArray)
  · intro near array size
    refine resolveName_reads (reads_of_near stored name near) ?_
    rw [size]
    exact Nat.le_succ_of_le short

end

/-- The name `a` at `o`, and a pointer to it. -/
def pointing (o : Nat) (high low : Byte) : Bytes := List.replicate o 0 ++ [1, 97, 0, high, low]

/-- The pointer is read as the name that it points to. -/
theorem pointing_expands {o : Nat} {high low : Byte} (flag : 192 ≤ high.toNat)
    (offset : (high.toNat - 192) * 256 + low.toNat = o) :
    Expands (pointing o high low) (o + 3) (o + 3) (o + 5) [97, 46] := by
  have byte (i : Nat) : (pointing o high low)[o + i]? = [1, 97, 0, high, low][i]? := by
    rw [pointing, List.getElem?_append_right]
    · rw [List.length_replicate, Nat.add_sub_cancel_left]
    · rw [List.length_replicate]
      exact Nat.le_add_right _ _
  have size : (pointing o high low).length = o + 5 := by
    rw [pointing, List.length_append, List.length_replicate]
    rfl
  have label : ((pointing o high low).drop (o + 1)).take 1 = [97] := by
    rw [pointing, List.drop_append, List.length_replicate, Nat.add_sub_cancel_left,
      List.drop_replicate, Nat.sub_eq_zero_of_le (Nat.le_succ o)]
    rfl
  have name : Expands (pointing o high low) o o (o + 3) [97, 46] := by
    have root : Expands (pointing o high low) o (o + 1 + 1) (o + 3) [] := .root (byte 2)
    have inside : o + 1 + (1 : Byte).toNat ≤ (pointing o high low).length := by
      rw [size]
      exact Nat.add_le_add_left (by decide : 2 ≤ 5) o
    have whole := Expands.label (byte 0) (by decide) (by decide) inside root
    rw [show (1 : Byte).toNat = 1 from rfl, label] at whole
    exact whole
  subst offset
  exact .pointer (byte 3) flag (byte 4) (Nat.lt_add_of_pos_right (by decide)) name

/-- A pointer to the name at 12 is read. -/
theorem expansion_written_twelve : resolveName (pointing 12 192 12) 15
    (List.replicate dnsDomainNameLimit 0) =
      .ok (2, written (List.replicate dnsDomainNameLimit 0) 0 [97, 46]) := by
  have name : Expands (pointing 12 192 12) 15 15 17 [97, 46] := pointing_expands (by decide) rfl
  have short : [(97 : Byte), 46].length ≤ 254 := by decide
  refine (expansion_written List.prefix_rfl name short).mpr ?_ _ domainArray
  intro p high labels here flag
  cases labels with
  | none =>
    cases here
    rfl
  | label here' _ few =>
    cases here'
    exact absurd few (by decide)

/-- A pointer to the name at 256 is taken for a label, whatever is behind the message. -/
theorem far_pointer_misread : Expands (pointing 256 193 0) 259 259 261 [97, 46] ∧
    ∀ rest array array', resolveName (pointing 256 193 0 ++ rest) 259 array ≠ .ok (2, array') := by
  have name : Expands (pointing 256 193 0) 259 259 261 [97, 46] :=
    pointing_expands (by decide) rfl
  refine ⟨name, fun rest array array' resolved => ?_⟩
  have near : NearPointer (pointing 256 193 0) 259 :=
    near_of_resolved (List.prefix_append _ rest) name resolved
  have here : (pointing 256 193 0)[259]? = some 193 := rfl
  exact absurd (near 259 193 .none here (by decide)) (by decide)

end DNSNames
