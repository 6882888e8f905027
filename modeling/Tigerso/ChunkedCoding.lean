import Mathlib.Data.List.Basic
import Mathlib.Tactic.Linarith

/-!
# Chunked coding of a byte string

A chunk is a hexadecimal size, CRLF, that many bytes and CRLF; the coding ends
with the chunk `0 CRLF CRLF`. The relation reads a coded stream from its front,
so a stream codes at most the bodies that its size lines allow.
-/

namespace ChunkedCoding

def crlf : List UInt8 := [13, 10]

def lastChunk : List UInt8 := [48, 13, 10, 13, 10]

def digitValue (c : UInt8) : Option Nat :=
  if 48 ≤ c ∧ c ≤ 57 then some (c.toNat - 48)
  else if 97 ≤ c ∧ c ≤ 102 then some (c.toNat - 87)
  else if 65 ≤ c ∧ c ≤ 70 then some (c.toNat - 55)
  else none

def value (digits : List UInt8) : Option Nat :=
  digits.foldlM (fun n c => (digitValue c).map (16 * n + ·)) 0

/-- `Chunked stream body`: the stream is a chunked coding of the body. -/
inductive Chunked : List UInt8 → List UInt8 → Prop
  | last : Chunked lastChunk []
  | chunk {digits data rest body : List UInt8} (size : value digits = some data.length)
      (some_data : data ≠ []) (later : Chunked rest body) :
      Chunked (digits ++ crlf ++ (data ++ crlf ++ rest)) (data ++ body)

theorem value_append_digit (digits : List UInt8) (c : UInt8) :
    value (digits ++ [c]) =
      (value digits).bind fun n => (digitValue c).map (16 * n + ·) := by
  rw [value, List.foldlM_append]
  cases h : (digitValue c) <;> simp [value, h]

/-- A carriage return ends a numeral. -/
theorem cr_not_mem {digits : List UInt8} {n : Nat} (h : value digits = some n) :
    13 ∉ digits := by
  intro hmem
  obtain ⟨before, after, rfl⟩ := List.append_of_mem hmem
  have stops : digitValue 13 = none := by decide
  rw [value, List.foldlM_append] at h
  simp [List.foldlM_cons, stops] at h

theorem split_at_cr {xs ys us vs : List UInt8} (hxs : 13 ∉ xs) (hys : 13 ∉ ys)
    (h : xs ++ 13 :: us = ys ++ 13 :: vs) : xs = ys ∧ us = vs := by
  induction xs generalizing ys with
  | nil =>
    cases ys with
    | nil => exact ⟨rfl, List.tail_eq_of_cons_eq h⟩
    | cons y ys =>
      obtain rfl : 13 = y := List.head_eq_of_cons_eq h
      exact absurd List.mem_cons_self hys
  | cons x xs ih =>
    cases ys with
    | nil =>
      obtain rfl : x = 13 := List.head_eq_of_cons_eq h
      exact absurd List.mem_cons_self hxs
    | cons y ys =>
      obtain rfl : x = y := List.head_eq_of_cons_eq h
      obtain ⟨rfl, rest⟩ := ih (fun e => hxs (List.mem_cons_of_mem _ e))
        (fun e => hys (List.mem_cons_of_mem _ e)) (List.tail_eq_of_cons_eq h)
      exact ⟨rfl, rest⟩

/-- A stream that starts with the size line `n` carries `n` bytes of the body next. -/
theorem Chunked.first_chunk {digits tail body : List UInt8} {n : Nat}
    (size : value digits = some n) (positive : 0 < n)
    (h : Chunked (digits ++ crlf ++ tail) body) :
    ∃ data rest body', data.length = n ∧ tail = data ++ crlf ++ rest ∧ body = data ++ body' ∧
      Chunked rest body' := by
  generalize hstream : digits ++ crlf ++ tail = stream at h
  cases h with
  | last =>
    have same : digits ++ 13 :: (10 :: tail) = [48] ++ 13 :: [10, 13, 10] := by
      simpa [crlf, lastChunk] using hstream
    obtain ⟨rfl, _⟩ := split_at_cr (cr_not_mem size) (by decide) same
    obtain rfl : 0 = n := Option.some.inj size
    exact absurd positive (Nat.lt_irrefl 0)
  | @chunk digits' data rest body' size' _ later =>
    have same : digits ++ 13 :: (10 :: tail) = digits' ++ 13 :: (10 :: (data ++ crlf ++ rest)) := by
      simpa [crlf] using hstream
    obtain ⟨rfl, tails⟩ := split_at_cr (cr_not_mem size) (cr_not_mem size') same
    rw [size] at size'
    exact ⟨data, rest, body', (Option.some.inj size').symm, List.tail_eq_of_cons_eq tails, rfl,
      later⟩

/-- The data of the first chunk ends with a CRLF. -/
theorem Chunked.first_ends {digits tail body : List UInt8} {n : Nat}
    (size : value digits = some n) (positive : 0 < n)
    (h : Chunked (digits ++ crlf ++ tail) body) : (tail.drop n).take 2 = crlf := by
  obtain ⟨data, rest, _, length, tails, _, _⟩ := h.first_chunk size positive
  rw [tails, List.append_assoc, ← length, List.drop_left]
  rfl

/-- The empty body has one coding. -/
theorem Chunked.of_nil {stream : List UInt8} (h : Chunked stream []) : stream = lastChunk := by
  generalize hbody : [] = body at h
  cases h with
  | last => rfl
  | chunk _ some_data _ =>
    exact absurd (List.append_eq_nil_iff.mp hbody.symm).1 some_data

/-- The number that the digits spell behind `n`. -/
def valueFrom (n : Nat) (digits : List UInt8) : Option Nat :=
  digits.foldlM (fun n c => (digitValue c).map (16 * n + ·)) n

theorem valueFrom_cons {n v : Nat} {c : UInt8} {digits : List UInt8}
    (spelled : valueFrom n (c :: digits) = some v) :
    ∃ d, digitValue c = some d ∧ valueFrom (16 * n + d) digits = some v := by
  rw [valueFrom, List.foldlM_cons] at spelled
  obtain ⟨n', first, rest⟩ := Option.bind_eq_some_iff.mp spelled
  obtain ⟨d, digit, rfl⟩ := Option.map_eq_some_iff.mp first
  exact ⟨d, digit, rest⟩

theorem le_valueFrom {n v : Nat} {digits : List UInt8} (spelled : valueFrom n digits = some v) :
    n ≤ v := by
  induction digits generalizing n with
  | nil => exact (Option.some.inj spelled).le
  | cons c digits ih =>
    obtain ⟨d, -, spelled⟩ := valueFrom_cons spelled
    exact le_trans (by omega) (ih spelled)

/-- A chunked coding whose sizes have at most `most` digits. -/
inductive Limited (most : Nat) : List UInt8 → List UInt8 → Prop
  | last : Limited most lastChunk []
  | chunk {digits data rest body : List UInt8} (size : value digits = some data.length)
      (short : digits.length ≤ most) (some_data : data ≠ []) (later : Limited most rest body) :
      Limited most (digits ++ crlf ++ (data ++ crlf ++ rest)) (data ++ body)

/-- What stands behind the size line `n`. -/
inductive Behind (most : Nat) : Nat → List UInt8 → List UInt8 → Prop
  | last : Behind most 0 crlf []
  | data {data rest body : List UInt8} (some_data : data ≠ []) (later : Limited most rest body) :
      Behind most data.length (data ++ crlf ++ rest) (data ++ body)

/-- A coding starts with a size line. -/
theorem Limited.first {most : Nat} {stream body : List UInt8} (positive : 0 < most)
    (coded : Limited most stream body) :
    ∃ c digits n tail, stream = c :: digits ++ crlf ++ tail ∧ valueFrom 0 (c :: digits) = some n ∧
      digits.length < most ∧ Behind most n tail body := by
  cases coded with
  | last => exact ⟨48, [], 0, crlf, rfl, rfl, positive, .last⟩
  | @chunk digits data rest body size short some_data later =>
    cases digits with
    | nil =>
      have none_left : data.length = 0 := (Option.some.inj size).symm
      exact absurd (List.length_eq_zero_iff.mp none_left) some_data
    | cons c digits => exact ⟨c, digits, _, _, rfl, size, short, .data some_data later⟩

end ChunkedCoding
