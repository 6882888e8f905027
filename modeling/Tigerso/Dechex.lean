import Tigerso.ChunkedCoding
import Tigerso.SystemCalls

/-!
# core/Dechex: hexadecimal numerals

`dec2hex` pushes the digits of an `unsigned int` on a static buffer, least
significant first, and reverses them. Eight nibbles exhaust the argument.
-/

open ChunkedCoding

namespace Dechex

/-- `HexCharSet[hex]`. -/
def hex2Char (hex : Nat) : Byte :=
  if hex < 10 then (48 + hex).toUInt8 else (97 + (hex - 10)).toUInt8

/-- `while(dec) { PUSH2HEXBUF(HEX2CHAR(HEX_MOD(dec))); dec = HEX_DIV(dec); }`. -/
def pushDigits : Nat → Nat → Bytes
  | 0, _ => []
  | nibbles + 1, dec =>
    if dec = 0 then [] else hex2Char (dec % 16) :: pushDigits nibbles (dec / 16)

def dec2hex (num : Nat) : Bytes := (pushDigits 8 (num % 2 ^ 32)).reverse

theorem digitValue_hex2Char : ∀ hex < 16, digitValue (hex2Char hex) = some hex := by
  decide

theorem pushDigits_length (nibbles dec : Nat) : (pushDigits nibbles dec).length ≤ nibbles := by
  induction nibbles generalizing dec with
  | zero => exact Nat.le_refl 0
  | succ nibbles ih =>
    rw [pushDigits]
    split_ifs
    · exact Nat.zero_le _
    · exact Nat.succ_le_succ (ih _)

theorem pushDigits_value {nibbles dec : Nat} (h : dec < 16 ^ nibbles) :
    value (pushDigits nibbles dec).reverse = some dec := by
  induction nibbles generalizing dec with
  | zero =>
    obtain rfl : dec = 0 := by omega
    rfl
  | succ nibbles ih =>
    rw [pushDigits]
    split_ifs with zero
    · subst zero
      rfl
    · have smaller : dec / 16 < 16 ^ nibbles := by
        rw [Nat.pow_succ] at h
        omega
      rw [List.reverse_cons, value_append_digit, ih smaller,
        digitValue_hex2Char _ (Nat.mod_lt _ (by decide))]
      simp only [Option.bind_some, Option.map_some, Option.some.injEq]
      omega

theorem dec2hex_length (num : Nat) : (dec2hex num).length ≤ 8 := by
  rw [dec2hex, List.length_reverse]
  exact pushDigits_length ..

/-- The numeral spells the number. -/
theorem dec2hex_value {num : Nat} (h : num < 2 ^ 32) : value (dec2hex num) = some num := by
  rw [dec2hex, Nat.mod_eq_of_lt h]
  exact pushDigits_value (by norm_num at h ⊢; exact h)

example : dec2hex 8192 = [50, 48, 48, 48] := by decide

end Dechex
