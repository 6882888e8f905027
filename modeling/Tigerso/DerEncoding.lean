import Tigerso.SystemCalls

/-!
# Encodings that say how long they are

An element has one byte of tag, then a length in the short or in the long form, then its
content. Nothing behind an element changes what it says of its size, and so two elements
in a row can be told apart.
-/

namespace DerEncoding

def lengthValue (octets : Bytes) : Nat := octets.foldl (fun n b => n * 256 + b.toNat) 0

/-- The size that the element at the start claims. -/
def derSize : Bytes → Option Nat
  | _ :: length :: rest =>
    if length < 128 then some (2 + length.toNat)
    else
      let octets := length.toNat - 128
      if rest.length < octets then none
      else some (2 + octets + lengthValue (rest.take octets))
  | _ => none

/-- One whole element. -/
structure Der where
  bytes : Bytes
  whole : derSize bytes = some bytes.length
  deriving DecidableEq

theorem derSize_append {bytes : Bytes} {size : Nat} (told : derSize bytes = some size)
    (rest : Bytes) : derSize (bytes ++ rest) = some size := by
  match bytes, told with
  | [], told => exact nomatch told
  | [_], told => exact nomatch told
  | tag :: length :: content, told =>
    simp only [derSize, List.cons_append] at told ⊢
    by_cases short : length < 128
    · rw [if_pos short] at told ⊢
      exact told
    · rw [if_neg short] at told ⊢
      by_cases few : content.length < length.toNat - 128
      · rw [if_pos few] at told
        exact nomatch told
      · have enough := Nat.not_lt.mp few
        rw [if_neg few] at told
        rw [if_neg (by rw [List.length_append]; omega), List.take_append_of_le_length enough]
        exact told

/-- The first of two elements is found again. -/
theorem Der.append_inj {a b : Der} {x y : Bytes} (same : a.bytes ++ x = b.bytes ++ y) :
    a = b ∧ x = y := by
  have first := derSize_append a.whole x
  have second := derSize_append b.whole y
  rw [same, second] at first
  have lengths : a.bytes.length = b.bytes.length := (Option.some.inj first).symm
  obtain ⟨bytes, rest⟩ := List.append_inj same lengths
  refine ⟨?_, rest⟩
  cases a
  cases b
  cases bytes
  rfl

end DerEncoding
