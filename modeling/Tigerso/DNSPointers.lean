import Mathlib.Logic.Relation
import Tigerso.DNSGrammar

/-!
# dns/DNSResolver: names that end

Nothing keeps a pointer from leading back to a place that the reader has come through. It is
for ever on its way exactly when one does.
-/

open SystemCalls CheckedMemory DNSResolver DNSGrammar Relation

namespace DNSPointers

/-- The reader goes on from a label or a pointer. -/
inductive Goes (buf : Bytes) : Nat → Nat → Prop
  | label {o : Nat} {num : Byte} (here : buf[o]? = some num) (nonzero : num ≠ 0)
      (isLabel : startWithLabel num = true) (inside : o + 1 + num.toNat ≤ buf.length) :
      Goes buf o (o + 1 + num.toNat)
  | pointer {o : Nat} {num low : Byte} (here : buf[o]? = some num) (nonzero : num ≠ 0)
      (isPointer : startWithLabel num = false) (behind : buf[o + 1]? = some low) :
      Goes buf o low.toNat

/-- The reader stops, with a result or outside of an array, whatever the array for the name. -/
def Terminates (buf : Bytes) (cur : Nat) : Prop :=
  ∃ fuel, ∀ name pos, resolveRRName buf fuel cur name pos ≠ .error .endless

/-- The way goes through a position that leads back to itself. -/
def Circles (buf : Bytes) (o : Nat) : Prop :=
  ∃ p, ReflTransGen (Goes buf) o p ∧ TransGen (Goes buf) p p

section
variable {buf : Bytes} {o q fuel pos : Nat} {name : Bytes}

theorem Goes.lt_length (goes : Goes buf o q) : o < buf.length := by
  cases goes with
  | label here => exact getElem?_lt here
  | pointer here => exact getElem?_lt here

theorem Circles.goes (circles : Circles buf o) : ∃ q, Goes buf o q ∧ Circles buf q := by
  obtain ⟨p, way, circle⟩ := circles
  rcases way.cases_head with rfl | ⟨q, first, rest⟩
  · obtain ⟨q, first, rest⟩ := TransGen.head'_iff.mp circle
    exact ⟨q, first, o, rest, circle⟩
  · exact ⟨q, first, p, rest, circle⟩

theorem endless_bind {α β : Type} {x : Checked α} {f : α → Checked β} :
    x >>= f = .error .endless ↔
      x = .error .endless ∨ ∃ a, x = .ok a ∧ f a = .error .endless := by
  cases x with
  | error e =>
    refine ⟨fun endless => Or.inl ?_, ?_⟩
    · cases endless
      rfl
    · rintro (endless | ⟨a, ok, _⟩)
      · cases endless
        rfl
      · cases ok
  | ok a =>
    refine ⟨fun endless => Or.inr ⟨a, rfl, endless⟩, ?_⟩
    rintro (endless | ⟨a', ok, endless⟩)
    · cases endless
    · cases ok
      exact endless

/-- An access comes to an end. -/
theorem load_ends (array : Bytes) (i : Nat) : load array i ≠ .error .endless := by
  rw [load]
  split <;> exact nofun

theorem loads_ends (array : Bytes) (off len : Nat) : loads array off len ≠ .error .endless := by
  rw [loads]
  split_ifs <;> exact nofun

theorem store_ends (array : Bytes) (off : Nat) (bytes : Bytes) :
    store array off bytes ≠ .error .endless := by
  rw [store]
  split_ifs <;> exact nofun

theorem endless_label {num : Byte} (here : buf[o]? = some num) (nonzero : num ≠ 0)
    (isLabel : startWithLabel num = true) (inside : o + 1 + num.toNat ≤ buf.length)
    (room : pos + 256 ≤ name.length)
    (rest : ∀ name' : Bytes, name'.length = name.length →
      resolveRRName buf fuel (o + 1 + num.toNat) name' (pos + num.toNat + 1) = .error .endless) :
    resolveRRName buf (fuel + 1) o name pos = .error .endless := by
  have few : num.toNat < 256 := num.toNat_lt
  have read := loads_ok_iff.mpr ⟨inside, rfl⟩
  have length := loads_length read
  have first := store_ok_iff.mpr ⟨(show pos + ((buf.drop (o + 1)).take num.toNat).length ≤
    name.length by omega), rfl⟩
  have same := store_length first
  have second := store_ok_iff.mpr ⟨(show pos + num.toNat + [(46 : Byte)].length ≤ _ by
    rw [same, List.length_singleton]; omega), rfl⟩
  rw [resolveRRName, load_ok_iff.mpr here, ok_bind, if_neg nonzero, if_pos isLabel, read,
    ok_bind, first, ok_bind, second, ok_bind, rest _ ((store_length second).trans same)]
  rfl

theorem endless_pointer {num low : Byte} (here : buf[o]? = some num) (nonzero : num ≠ 0)
    (isPointer : startWithLabel num = false) (behind : buf[o + 1]? = some low)
    (target : resolveRRName buf fuel low.toNat name pos = .error .endless) :
    resolveRRName buf (fuel + 1) o name pos = .error .endless := by
  rw [resolveRRName, load_ok_iff.mpr here, ok_bind, if_neg nonzero,
    if_neg (by rw [isPointer]; decide), load_ok_iff.mpr behind, ok_bind,
    pointer_high isPointer, Nat.zero_add, target]
  rfl

/-- Whatever the steps that are allowed, a circle takes more. -/
theorem Circles.endless (circles : Circles buf o) (room : pos + 256 * fuel ≤ name.length) :
    resolveRRName buf fuel o name pos = .error .endless := by
  induction fuel generalizing o name pos with
  | zero => rfl
  | succ fuel ih =>
    obtain ⟨q, goes, circles⟩ := circles.goes
    rw [Nat.mul_succ] at room
    have enough : pos + 256 ≤ name.length :=
      (Nat.add_le_add_left (Nat.le_add_left _ _) _).trans room
    cases goes with
    | label here nonzero isLabel inside =>
      rename_i num
      have few : num.toNat < 256 := num.toNat_lt
      refine endless_label here nonzero isLabel inside enough fun name' same => ?_
      have left : pos + num.toNat + 1 + 256 * fuel ≤ name'.length := by omega
      exact ih circles left
    | pointer here nonzero isPointer behind =>
      have left : pos + 256 * fuel ≤ name.length := by omega
      exact endless_pointer here nonzero isPointer behind (ih circles left)

/-- Only a further step can use up what is allowed. -/
theorem goes_of_endless (endless : resolveRRName buf (fuel + 1) o name pos = .error .endless) :
    ∃ q name' pos', Goes buf o q ∧ resolveRRName buf fuel q name' pos' = .error .endless := by
  rw [resolveRRName] at endless
  rcases endless_bind.mp endless with stops | ⟨num, here, endless⟩
  · exact absurd stops (load_ends _ _)
  have here := load_ok_iff.mp here
  split_ifs at endless with zero isLabel
  · rcases endless_bind.mp endless with stops | ⟨label, read, endless⟩
    · exact absurd stops (loads_ends _ _ _)
    rcases endless_bind.mp endless with stops | ⟨name₁, _, endless⟩
    · exact absurd stops (store_ends _ _ _)
    rcases endless_bind.mp endless with stops | ⟨name₂, _, endless⟩
    · exact absurd stops (store_ends _ _ _)
    rcases endless_bind.mp endless with rest | ⟨_, _, done⟩
    · exact ⟨_, _, _, .label here zero isLabel (loads_ok_iff.mp read).1, rest⟩
    · cases done
  · rcases endless_bind.mp endless with stops | ⟨low, behind, endless⟩
    · exact absurd stops (load_ends _ _)
    have isPointer : startWithLabel num = false := by simpa using isLabel
    rw [pointer_high isPointer, Nat.zero_add] at endless
    rcases endless_bind.mp endless with target | ⟨_, _, done⟩
    · exact ⟨_, _, _, .pointer here zero isPointer (load_ok_iff.mp behind), target⟩
    · cases done

/-- Without a circle the positions that were passed are different ones inside the buffer. -/
theorem ends_of_no_circle (no_circle : ¬ Circles buf o) (passed : List Nat)
    (distinct : passed.Nodup) (inside : ∀ p ∈ passed, p < buf.length ∧ TransGen (Goes buf) p o)
    (allowed : buf.length < passed.length + fuel) :
    resolveRRName buf fuel o name pos ≠ .error .endless := by
  induction fuel generalizing o name pos passed with
  | zero =>
    have sub : passed ⊆ List.range buf.length := fun p there =>
      List.mem_range.mpr (inside p there).1
    have fewer := (List.subperm_of_subset distinct sub).length_le
    rw [List.length_range] at fewer
    omega
  | succ fuel ih =>
    intro endless
    obtain ⟨q, name', pos', goes, later⟩ := goes_of_endless endless
    have fresh : o ∉ passed := fun there => no_circle ⟨o, .refl, (inside o there).2⟩
    refine ih ?_ (o :: passed) (List.nodup_cons.mpr ⟨fresh, distinct⟩) ?_ ?_ later
    · rintro ⟨p, way, circle⟩
      exact no_circle ⟨p, .head goes way, circle⟩
    · intro p there
      rcases List.mem_cons.mp there with rfl | before
      · exact ⟨goes.lt_length, .single goes⟩
      · exact ⟨(inside p before).1, (inside p before).2.tail goes⟩
    · rw [List.length_cons]
      omega

/-- The reader stops exactly where its way leads through no position twice. -/
theorem terminates_iff (buf : Bytes) (cur : Nat) :
    Terminates buf cur ↔
      ∀ p, ReflTransGen (Goes buf) cur p → ¬ TransGen (Goes buf) p p := by
  constructor
  · rintro ⟨fuel, ends⟩ p way circle
    have circles : Circles buf cur := ⟨p, way, circle⟩
    exact ends (List.replicate (256 * fuel) 0) 0
      (circles.endless (by rw [List.length_replicate, Nat.zero_add]))
  · intro once
    refine ⟨buf.length + 1, fun name pos => ends_of_no_circle ?_ [] List.nodup_nil nofun ?_⟩
    · rintro ⟨p, way, circle⟩
      exact once p way circle
    · rw [List.length_nil]
      omega

end

def selfPointer : Bytes :=
  List.replicate headerSize 0 ++ [192, 12] ++ List.replicate (dnsMessageLimit - 14) 0

/-- No number of positions is enough for a pointer to itself. -/
theorem self_pointer_endless :
    selfPointer.length = dnsMessageLimit ∧ ¬ Terminates selfPointer headerSize := by
  refine ⟨?_, ?_⟩
  · rw [selfPointer, List.length_append, List.length_append, List.length_replicate,
      List.length_replicate]
    rfl
  rintro ⟨fuel, ends⟩
  have goes : Goes selfPointer headerSize headerSize :=
    .pointer (o := 12) (show selfPointer[12]? = some 192 from rfl) (by decide) (by decide)
      (show selfPointer[13]? = some 12 from rfl)
  have circles : Circles selfPointer headerSize := ⟨_, .refl, .single goes⟩
  exact ends (List.replicate (256 * fuel) 0) 0
    (circles.endless (by rw [List.length_replicate, Nat.zero_add]))

end DNSPointers
