import Mathlib.Data.List.Induction
import Tigerso.CText
import Tigerso.CheckedMemory
import Tigerso.Dechex

/-!
# core/Dechex: the static buffer and the way back

`dec2hex` on the nine bytes of `hexstrbuf`, and `hex2dec` on a string in memory. A numeral without
a leading zero is the only one of its number.
-/

open CheckedMemory CText ChunkedCoding

namespace HexBuffer
open Dechex

def strlen (array : Bytes) : Checked Nat :=
  if 0 ∈ array then .ok (cString array).length else .error .readOutside

def push2HexBuf (hexstrbuf : Bytes) (ch : Byte) : Checked Bytes := do
  let stop ← strlen hexstrbuf
  store hexstrbuf stop [ch]

/-- `while(dec)`. -/
def pushLoop : Nat → UInt32 → Bytes → Checked Bytes
  | 0, _, _ => .error .endless
  | fuel + 1, dec, hexstrbuf =>
    if dec = 0 then .ok hexstrbuf
    else do
      let hexstrbuf ← push2HexBuf hexstrbuf (hex2Char (dec &&& 0xF).toNat)
      pushLoop fuel (dec >>> 4) hexstrbuf

/-- `REVERSE_STRING(beg, end)`; `end` is in front of `beg` for the empty string. -/
def reverseString : Nat → Bytes → Int → Int → Checked Bytes
  | 0, _, _, _ => .error .endless
  | fuel + 1, str, beg, end_ =>
    if beg < end_ then do
      let tmp ← load str beg.toNat
      let last ← load str end_.toNat
      let str ← store str beg.toNat [last]
      let str ← store str end_.toNat [tmp]
      reverseString fuel str (beg + 1) (end_ - 1)
    else .ok str

/-- `dec2hex`: what is in `hexstrbuf` then. -/
def dec2hex (num : UInt32) : Checked Bytes := do
  let hexstrbuf ← pushLoop 9 num (List.replicate 9 0)
  let length ← strlen hexstrbuf
  reverseString 9 hexstrbuf 0 (length - 1)

/-- `HEXCHAR2DEC(hexchar)` of a `char`, which has a sign. -/
def hexChar2Dec (hexchar : Byte) : Int :=
  let hexchar := hexchar.toInt8.toInt
  if hexchar > 57 then hexchar - 97 + 10 else hexchar - 48

/-- The loop of `hex2dec`, whose last round is the one at `rend`. -/
def readDigits (hex : Bytes) : Nat → Nat → UInt32 → Checked UInt32
  | 0, i, dec => do
    let hexchar ← load hex 0
    .ok (dec + UInt32.ofInt (hexChar2Dec hexchar) <<< (4 * i).toUInt32)
  | rbeg + 1, i, dec => do
    let hexchar ← load hex (rbeg + 1)
    readDigits hex rbeg (i + 1) (dec + UInt32.ofInt (hexChar2Dec hexchar) <<< (4 * i).toUInt32)

/-- `hex2dec`; of an empty string the byte in front of it is read. -/
def hex2dec (hex : Bytes) : Checked UInt32 := do
  match ← strlen hex with
  | 0 => .error .readOutside
  | rbeg + 1 => readDigits hex rbeg 0 0

/-- A lower case digit. -/
def IsDigit (c : Byte) : Prop := (48 ≤ c ∧ c ≤ 57) ∨ (97 ≤ c ∧ c ≤ 102)

instance (c : Byte) : Decidable (IsDigit c) := inferInstanceAs (Decidable (_ ∨ _))

/-- A numeral that does not begin with a zero. -/
structure Canonical (s : Bytes) : Prop where
  digits : ∀ c ∈ s, IsDigit c
  some_ : s ≠ []
  leading : s.head? ≠ some 48

/-- `hexstrbuf` with a text in it. -/
def held (s : Bytes) : Bytes := s ++ List.replicate (9 - s.length) 0

section
variable {s pre mid post array : Bytes} {b c : Byte}

theorem strlen_terminated (clean : 0 ∉ s) (rest : Bytes) :
    strlen (s ++ 0 :: rest) = .ok s.length := by
  have there : (0 : Byte) ∈ s ++ 0 :: rest := List.mem_append_right _ List.mem_cons_self
  rw [strlen, if_pos there, cString, untilByte_append clean]

theorem held_eq (short : s.length ≤ 8) : held s = s ++ 0 :: List.replicate (8 - s.length) 0 := by
  have room : 9 - s.length = (8 - s.length) + 1 := by omega
  rw [held, room, List.replicate_succ]

theorem load_at (pre post : Bytes) (b : Byte) : load (pre ++ b :: post) pre.length = .ok b :=
  load_ok_iff.mpr (by simp)

theorem store_at (pre post : Bytes) (b c : Byte) :
    store (pre ++ b :: post) pre.length [c] = .ok (pre ++ c :: post) := by
  refine store_ok_iff.mpr ⟨by simp, ?_⟩
  rw [List.take_left, List.length_singleton, List.append_assoc, ← List.drop_drop, List.drop_left]
  rfl

/-- A digit takes the place of the first zero. -/
theorem push2HexBuf_held (clean : 0 ∉ s) (short : s.length < 8) (ch : Byte) :
    push2HexBuf (held s) ch = .ok (held (s ++ [ch])) := by
  have longer : held (s ++ [ch]) = s ++ ch :: List.replicate (8 - s.length) 0 := by
    rw [held, List.length_append, List.length_singleton, List.append_assoc]
    have room : 9 - (s.length + 1) = 8 - s.length := by omega
    rw [room]
    rfl
  rw [push2HexBuf, held_eq (Nat.le_of_lt short), strlen_terminated clean, ok_bind, store_at,
    longer]

theorem hex2Char_digit : ∀ hex < 16, IsDigit (hex2Char hex) := by decide

theorem digit_ne_zero (digit : IsDigit c) : c ≠ 0 := by
  rintro rfl
  exact absurd digit (by decide)

theorem low_nibble (dec : UInt32) : (dec &&& 0xF).toNat = dec.toNat % 16 := by
  rw [UInt32.toNat_and]
  exact Nat.and_two_pow_sub_one_eq_mod dec.toNat 4

theorem high_nibbles (dec : UInt32) : (dec >>> 4).toNat = dec.toNat / 16 := by
  rw [UInt32.toNat_shiftRight]
  exact Nat.shiftRight_eq_div_pow dec.toNat 4

/-- The loop pushes the digits behind what is there. -/
theorem pushLoop_held {nibbles fuel : Nat} {dec : UInt32} (enough : nibbles < fuel)
    (fits : dec.toNat < 16 ^ nibbles) (clean : 0 ∉ s) (room : s.length + nibbles ≤ 8) :
    pushLoop fuel dec (held s) = .ok (held (s ++ pushDigits nibbles dec.toNat)) := by
  induction nibbles generalizing fuel dec s with
  | zero =>
    obtain ⟨fuel, rfl⟩ := Nat.exists_eq_add_of_lt enough
    have zero : dec = 0 := UInt32.toNat_inj.mp (Nat.lt_one_iff.mp fits)
    rw [pushLoop, if_pos zero, pushDigits, List.append_nil]
  | succ nibbles ih =>
    obtain ⟨fuel, rfl⟩ : ∃ k, fuel = k + 1 := ⟨fuel - 1, by omega⟩
    rw [pushLoop, pushDigits]
    by_cases zero : dec = 0
    · have none_ : dec.toNat = 0 := congrArg UInt32.toNat zero
      rw [if_pos zero, if_pos none_, List.append_nil]
    · have some_ : ¬ dec.toNat = 0 := fun none_ => zero (UInt32.toNat_inj.mp none_)
      have digit : IsDigit (hex2Char (dec.toNat % 16)) :=
        hex2Char_digit _ (Nat.mod_lt _ (by decide))
      have cleaner : 0 ∉ s ++ [hex2Char (dec.toNat % 16)] := by
        rw [List.mem_append, List.mem_singleton]
        exact fun there => there.elim clean fun same => digit_ne_zero digit same.symm
      have smaller : (dec >>> 4).toNat < 16 ^ nibbles := by
        rw [high_nibbles]
        rw [Nat.pow_succ] at fits
        omega
      rw [if_neg zero, if_neg some_, low_nibble, push2HexBuf_held clean (by omega), ok_bind,
        ih (by omega) smaller cleaner (by rw [List.length_append, List.length_singleton]; omega),
        high_nibbles, List.append_assoc]
      rfl

/-- One round exchanges what the two pointers point to. -/
theorem reverseString_swap (fuel : Nat) (pre inner post : Bytes) (first last : Byte) :
    reverseString (fuel + 1) (pre ++ first :: (inner ++ last :: post)) pre.length
        (pre.length + inner.length + 1) =
      reverseString fuel (pre ++ last :: (inner ++ first :: post)) (pre.length + 1)
        (pre.length + inner.length) := by
  have order : (pre.length : Int) < pre.length + inner.length + 1 := by omega
  have stop : ((pre.length : Int) + inner.length + 1).toNat = (pre ++ first :: inner).length := by
    simp only [List.length_cons, List.length_append]
    omega
  have stop' : (pre ++ first :: inner).length = (pre ++ last :: inner).length := by simp
  have behind (c d : Byte) :
      pre ++ c :: (inner ++ d :: post) = (pre ++ c :: inner) ++ d :: post := by simp
  rw [reverseString, if_pos order, Int.toNat_natCast, load_at, ok_bind, stop, behind, load_at,
    ok_bind, ← behind, store_at, ok_bind, behind, stop', store_at, ok_bind, ← behind,
    Int.add_sub_cancel]

/-- What lies between the two pointers is turned round. -/
theorem reverseString_eq {fuel : Nat} (enough : mid.length < 2 * fuel) :
    reverseString fuel (pre ++ mid ++ post) pre.length (pre.length + mid.length - 1) =
      .ok (pre ++ mid.reverse ++ post) := by
  induction fuel generalizing pre mid post with
  | zero => exact absurd enough (Nat.not_lt_zero _)
  | succ fuel ih =>
    cases mid with
    | nil =>
      rw [reverseString, if_neg (by simp)]
      rfl
    | cons first rest =>
      rcases List.eq_nil_or_concat rest with rfl | ⟨inner, last, rfl⟩
      · rw [reverseString, if_neg (by simp)]
        rfl
      · rw [List.concat_eq_append] at enough ⊢
        have shorter : inner.length < 2 * fuel := by
          simp only [List.length_cons, List.length_append, List.length_nil] at enough
          omega
        have turned := @ih (pre ++ [last]) inner (first :: post) shorter
        have bounds : ((pre ++ [last]).length : Int) = (pre.length : Int) + 1 := by simp
        have bounds' : (pre.length : Int) + 1 + inner.length - 1 = pre.length + inner.length := by
          omega
        rw [bounds, bounds'] at turned
        have ends : (pre.length : Int) + (first :: (inner ++ [last])).length - 1 =
            pre.length + inner.length + 1 := by
          simp only [List.length_cons, List.length_append, List.length_nil]
          omega
        have start : pre ++ first :: (inner ++ [last]) ++ post =
            pre ++ first :: (inner ++ last :: post) := by simp
        have next : pre ++ last :: (inner ++ first :: post) =
            pre ++ [last] ++ inner ++ first :: post := by simp
        rw [start, ends, reverseString_swap, next, turned]
        simp

end

theorem pushDigits_digits (nibbles dec : Nat) : ∀ c ∈ pushDigits nibbles dec, IsDigit c := by
  induction nibbles generalizing dec with
  | zero => exact nofun
  | succ nibbles ih =>
    rw [pushDigits]
    split_ifs
    · exact List.forall_mem_nil _
    · intro c there
      rcases List.mem_cons.mp there with rfl | later
      · exact hex2Char_digit _ (Nat.mod_lt _ (by decide))
      · exact ih _ c later

/-- What `dec2hex` leaves in the buffer. -/
theorem dec2hex_held (num : UInt32) : dec2hex num = .ok (held (Dechex.dec2hex num.toNat)) := by
  have bound : num.toNat < 16 ^ 8 := num.toNat_lt
  have spelled : Dechex.dec2hex num.toNat = (pushDigits 8 num.toNat).reverse := by
    rw [Dechex.dec2hex, Nat.mod_eq_of_lt num.toNat_lt]
  have pushed := @pushLoop_held [] 8 9 num (by decide) bound (by decide) (by decide)
  have short := pushDigits_length 8 num.toNat
  have clean : 0 ∉ pushDigits 8 num.toNat :=
    fun there => digit_ne_zero (pushDigits_digits _ _ 0 there) rfl
  rw [List.nil_append] at pushed
  rw [spelled]
  generalize pushDigits 8 num.toNat = digits at *
  have empty : List.replicate 9 0 = held [] := rfl
  have turned := @reverseString_eq [] digits (List.replicate (9 - digits.length) 0) 9 (by omega)
  rw [List.length_nil, Nat.cast_zero, Int.zero_add, List.nil_append] at turned
  rw [dec2hex, empty, pushed, ok_bind, held_eq short, strlen_terminated clean, ok_bind,
    ← held_eq short, held, turned, held, List.length_reverse, List.nil_append]

section
variable {s : Bytes} {c : Byte} {n : Nat}

theorem hex2Char_read : ∀ d < 16, digitValue (hex2Char d) = some d ∧
    UInt32.ofInt (hexChar2Dec (hex2Char d)) = d.toUInt32 := by decide

/-- The digits are those that `dec2hex` writes. -/
theorem digit_spelled (digit : IsDigit c) : ∃ d < 16, hex2Char d = c := by
  rcases digit with ⟨low, high⟩ | ⟨low, high⟩
  · have low : 48 ≤ c.toNat := UInt8.le_iff_toNat_le.mp low
    have high : c.toNat ≤ 57 := UInt8.le_iff_toNat_le.mp high
    refine ⟨c.toNat - 48, by omega, ?_⟩
    rw [hex2Char, if_pos (by omega), Nat.add_sub_cancel' low]
    exact UInt8.ofNat_toNat
  · have low : 97 ≤ c.toNat := UInt8.le_iff_toNat_le.mp low
    have high : c.toNat ≤ 102 := UInt8.le_iff_toNat_le.mp high
    refine ⟨c.toNat - 87, by omega, ?_⟩
    have letter : 97 + (c.toNat - 87 - 10) = c.toNat := by omega
    rw [hex2Char, if_neg (by omega), letter]
    exact UInt8.ofNat_toNat

theorem value_snoc {d : Nat} (small : d < 16) (s : Bytes) :
    value (s ++ [hex2Char d]) = (value s).map (16 * · + d) := by
  rw [value_append_digit, (hex2Char_read d small).1]
  cases value s with
  | none => rfl
  | some n => rfl

theorem Canonical.front (canonical : Canonical (s ++ [c])) (longer : s ≠ []) : Canonical s := by
  refine ⟨fun d there => canonical.digits d (List.mem_append_left _ there), longer, ?_⟩
  have leading := canonical.leading
  rwa [List.head?_append_of_ne_nil _ longer] at leading

/-- A numeral is what `dec2hex` pushes for its number, read backwards. -/
theorem Canonical.pushDigits {nibbles : Nat} (canonical : Canonical s) (short : s.length ≤ nibbles)
    (number : value s = some n) : 0 < n ∧ (pushDigits nibbles n).reverse = s := by
  induction s using List.reverseRecOn generalizing nibbles n with
  | nil => exact absurd rfl canonical.some_
  | append_singleton front last ih =>
    obtain ⟨d, small, rfl⟩ := digit_spelled (canonical.digits last (by simp))
    rw [List.length_append, List.length_singleton] at short
    obtain ⟨nibbles, rfl⟩ : ∃ k, nibbles = k + 1 := ⟨nibbles - 1, by omega⟩
    rw [value_snoc small] at number
    obtain ⟨v, front_value, rfl⟩ := Option.map_eq_some_iff.mp number
    have quotient : (16 * v + d) / 16 = v := by omega
    have rest : (16 * v + d) % 16 = d := by omega
    have positive : 0 < 16 * v + d ∧ (Dechex.pushDigits nibbles v).reverse = front := by
      by_cases empty : front = []
      · subst empty
        obtain rfl : 0 = v := Option.some.inj front_value
        have nonzero : d ≠ 0 := by
          rintro rfl
          exact canonical.leading rfl
        refine ⟨by omega, ?_⟩
        cases nibbles <;> rfl
      · have shorter : front.length ≤ nibbles := by omega
        obtain ⟨some_, spelled⟩ := ih (canonical.front empty) shorter front_value
        exact ⟨by omega, spelled⟩
    refine ⟨positive.1, ?_⟩
    rw [Dechex.pushDigits, if_neg (Nat.ne_of_gt positive.1), quotient, rest, List.reverse_cons,
      positive.2]

/-- `dec2hex` writes a numeral. -/
theorem canonical_pushDigits {nibbles dec : Nat} (positive : 0 < dec) (fits : dec < 16 ^ nibbles) :
    Canonical (pushDigits nibbles dec).reverse := by
  refine ⟨fun c there => pushDigits_digits nibbles dec c (List.mem_reverse.mp there), ?_, ?_⟩
  · cases nibbles with
    | zero => exact absurd fits (by omega)
    | succ nibbles =>
      rw [Dechex.pushDigits, if_neg (Nat.ne_of_gt positive), List.reverse_cons]
      simp
  · induction nibbles generalizing dec with
    | zero => exact absurd fits (by omega)
    | succ nibbles ih =>
      rw [Dechex.pushDigits, if_neg (Nat.ne_of_gt positive), List.reverse_cons]
      by_cases last : dec / 16 = 0
      · have none_ : Dechex.pushDigits nibbles (dec / 16) = [] := by
          rw [last]
          cases nibbles <;> rfl
        have nonzero : ∀ d < 16, d ≠ 0 → hex2Char d ≠ 48 := by decide
        rw [none_]
        exact fun same => nonzero (dec % 16) (by omega) (by omega) (Option.some.inj same)
      · have smaller : dec / 16 < 16 ^ nibbles := by
          rw [Nat.pow_succ] at fits
          omega
        have later := ih (Nat.pos_of_ne_zero last) smaller
        have some_ : (Dechex.pushDigits nibbles (dec / 16)).reverse ≠ [] := by
          cases nibbles with
          | zero => exact absurd smaller (by omega)
          | succ nibbles =>
            rw [Dechex.pushDigits, if_neg last, List.reverse_cons]
            simp
        rw [List.head?_append_of_ne_nil _ some_]
        exact later

/-- Digits have a number, with room for one of sixteen in every place. -/
theorem value_of_digits (digits : ∀ c ∈ s, IsDigit c) :
    ∃ n < 16 ^ s.length, value s = some n := by
  induction s using List.reverseRecOn with
  | nil => exact ⟨0, by decide, rfl⟩
  | append_singleton front last ih =>
    obtain ⟨v, bound, number⟩ := ih fun c there => digits c (List.mem_append_left _ there)
    obtain ⟨d, small, rfl⟩ := digit_spelled (digits last (by simp))
    refine ⟨16 * v + d, ?_, ?_⟩
    · rw [List.length_append, List.length_singleton, Nat.pow_succ]
      omega
    · rw [value_snoc small, number]
      rfl

/-- A digit `i` places in front of the last one. -/
theorem digit_shifted {d i : Nat} (place : i < 8) :
    d.toUInt32 <<< (4 * i).toUInt32 = (d * 16 ^ i).toUInt32 := by
  have shift : (4 * i).toUInt32.toNat % 32 = 4 * i := by
    show 4 * i % 2 ^ 32 % 32 = 4 * i
    omega
  have power : 2 ^ (4 * i) = 16 ^ i := Nat.pow_mul 2 4 i
  refine UInt32.toNat_inj.mp ?_
  rw [UInt32.toNat_shiftLeft, shift, Nat.shiftLeft_eq, power]
  show d % 2 ^ 32 * 16 ^ i % 2 ^ 32 = d * 16 ^ i % 2 ^ 32
  exact Nat.mod_mul_mod d (16 ^ i) (2 ^ 32)

/-- The loop adds the value of the digits that are left. -/
theorem readDigits_eq {front back : Bytes} {rbeg i : Nat} (length : front.length = rbeg + 1)
    (digits : ∀ c ∈ front, IsDigit c) (number : value front = some n) (place : i + rbeg < 8)
    (dec : UInt32) :
    readDigits (front ++ back) rbeg i dec = .ok (dec + (n * 16 ^ i).toUInt32) := by
  induction rbeg generalizing front back n i dec with
  | zero =>
    obtain ⟨c, rfl⟩ := List.length_eq_one_iff.mp length
    obtain ⟨d, small, rfl⟩ := digit_spelled (digits c List.mem_cons_self)
    have one : value [hex2Char d] = some (16 * 0 + d) := value_snoc small []
    rw [Nat.mul_zero, Nat.zero_add] at one
    obtain rfl : d = n := Option.some.inj (one.symm.trans number)
    rw [readDigits]
    have first : load ([hex2Char d] ++ back) 0 = .ok (hex2Char d) := rfl
    rw [first, ok_bind, (hex2Char_read d small).2, digit_shifted (by omega)]
  | succ rbeg ih =>
    rcases List.eq_nil_or_concat front with rfl | ⟨front, c, rfl⟩
    · exact absurd length (by simp)
    · rw [List.concat_eq_append] at digits length number ⊢
      rw [List.length_append, List.length_singleton] at length
      have length : front.length = rbeg + 1 := by omega
      obtain ⟨d, small, rfl⟩ := digit_spelled (digits c (by simp))
      rw [value_snoc small] at number
      obtain ⟨v, front_value, rfl⟩ := Option.map_eq_some_iff.mp number
      have here : load (front ++ [hex2Char d] ++ back) (rbeg + 1) = .ok (hex2Char d) := by
        rw [List.append_assoc, ← length]
        exact load_at front back (hex2Char d)
      have later : ∀ c ∈ front, IsDigit c := fun c there =>
        digits c (List.mem_append_left _ there)
      have sum : (16 * v + d) * 16 ^ i = d * 16 ^ i + v * 16 ^ (i + 1) := by
        rw [Nat.pow_succ, Nat.add_mul, Nat.add_comm, Nat.mul_comm 16 v, Nat.mul_assoc,
          Nat.mul_comm 16]
      rw [readDigits, here, ok_bind, (hex2Char_read d small).2, digit_shifted (by omega),
        List.append_assoc, ih length later front_value (by omega), sum, UInt32.add_assoc]
      exact congrArg (fun n => Except.ok (dec + n)) (UInt32.ofNat_add _ _).symm

/-- `hex2dec` reads the number of a numeral of at most eight digits. -/
theorem hex2dec_eq (canonical : Canonical s) (short : s.length ≤ 8) (number : value s = some n)
    (behind : Bytes) : hex2dec (s ++ 0 :: behind) = .ok n.toUInt32 := by
  have clean : 0 ∉ s := fun there => digit_ne_zero (canonical.digits 0 there) rfl
  obtain ⟨rbeg, length⟩ := Nat.exists_eq_succ_of_ne_zero
    (fun none_ => canonical.some_ (List.length_eq_zero_iff.mp none_))
  have read := @readDigits_eq n s (0 :: behind) rbeg 0 length canonical.digits number (by omega) 0
  rw [hex2dec, strlen_terminated clean, ok_bind, length]
  dsimp only
  rw [read, Nat.pow_zero, Nat.mul_one, UInt32.zero_add]

end

/-- A number is written as the numeral it has, inside the buffer, and read back; a numeral of at
most eight digits is read, and written back. -/
theorem dec2hex_hex2dec :
    (∀ num : UInt32, num ≠ 0 → ∃ s, dec2hex num = .ok (held s) ∧ s.length ≤ 8 ∧ Canonical s ∧
      value s = some num.toNat ∧ hex2dec (held s) = .ok num) ∧
    ∀ s behind, Canonical s → s.length ≤ 8 →
      ∃ num, hex2dec (s ++ 0 :: behind) = .ok num ∧ num ≠ 0 ∧ dec2hex num = .ok (held s) := by
  constructor
  · intro num some_
    have positive : 0 < num.toNat :=
      Nat.pos_of_ne_zero fun none_ => some_ (UInt32.toNat_inj.mp none_)
    have short := dec2hex_length num.toNat
    have number := dec2hex_value num.toNat_lt
    have canonical : Canonical (Dechex.dec2hex num.toNat) := by
      rw [Dechex.dec2hex, Nat.mod_eq_of_lt num.toNat_lt]
      exact canonical_pushDigits positive num.toNat_lt
    refine ⟨_, dec2hex_held num, short, canonical, number, ?_⟩
    rw [held_eq short, hex2dec_eq canonical short number]
    exact congrArg Except.ok (UInt32.ofNat_toNat)
  · intro s behind canonical short
    obtain ⟨n, small, number⟩ := value_of_digits canonical.digits
    obtain ⟨positive, spelled⟩ := canonical.pushDigits short number
    have bound : n < 2 ^ 32 :=
      Nat.lt_of_lt_of_le small (Nat.pow_le_pow_right (by decide) short)
    have whole : n.toUInt32.toNat = n := Nat.mod_eq_of_lt bound
    refine ⟨n.toUInt32, hex2dec_eq canonical short number behind, ?_, ?_⟩
    · intro none_
      rw [none_] at whole
      exact absurd whole (Nat.ne_of_lt positive)
    · rw [dec2hex_held, whole, Dechex.dec2hex, Nat.mod_eq_of_lt bound, spelled]

example : dec2hex 0x2a0f = .ok [50, 97, 48, 102, 0, 0, 0, 0, 0] := by decide

end HexBuffer
