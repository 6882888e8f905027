import Tigerso.CheckedMemory

/-!
# Messages as RFC 1035 has them

Labels of 1 to 63 bytes, pointers to a place in front of the name, names of at most 255
bytes, and records that lie inside the message.
-/

open CheckedMemory

namespace DNSWire

/-- A name that begins at `s` goes on at `o` and ends in place at `e`; from `o` on, its
labels and their length bytes are `n` bytes. -/
inductive WireName (msg : Bytes) : Nat → Nat → Nat → Nat → Prop
  | root {s o : Nat} (zero : msg[o]? = some 0) : WireName msg s o (o + 1) 0
  | label {s o e n : Nat} {num : Byte} (here : msg[o]? = some num) (some_ : 1 ≤ num.toNat)
      (few : num.toNat ≤ 63) (inside : o + 1 + num.toNat ≤ msg.length)
      (rest : WireName msg s (o + 1 + num.toNat) e n) : WireName msg s o e (num.toNat + 1 + n)
  | pointer {s o e n : Nat} {high low : Byte} (here : msg[o]? = some high)
      (flag : 192 ≤ high.toNat) (behind : msg[o + 1]? = some low)
      (earlier : (high.toNat - 192) * 256 + low.toNat < s)
      (target : WireName msg ((high.toNat - 192) * 256 + low.toNat)
        ((high.toNat - 192) * 256 + low.toNat) e n) :
      WireName msg s o (o + 2) n

/-- A name of at most 255 bytes with its root. -/
def NameAt (msg : Bytes) (o e : Nat) : Prop := ∃ n, WireName msg o o e n ∧ n < 255

/-- The number in two bytes at `o`. -/
def word (msg : Bytes) (o : Nat) : Nat := beValue ((msg.drop o).take 2)

inductive QuestionsAt (msg : Bytes) : Nat → Nat → Nat → Prop
  | nil {o : Nat} : QuestionsAt msg 0 o o
  | cons {left o p e : Nat} (name : NameAt msg o p) (inside : p + 4 ≤ msg.length)
      (rest : QuestionsAt msg left (p + 4) e) : QuestionsAt msg (left + 1) o e

inductive RecordsAt (msg : Bytes) : Nat → Nat → Nat → Prop
  | nil {o : Nat} : RecordsAt msg 0 o o
  | cons {left o p e : Nat} (name : NameAt msg o p)
      (inside : p + 10 + word msg (p + 8) ≤ msg.length)
      (rest : RecordsAt msg left (p + 10 + word msg (p + 8)) e) : RecordsAt msg (left + 1) o e

/-- A header, and as many questions and records as it counts. -/
structure WellFormed (msg : Bytes) : Prop where
  header : 12 ≤ msg.length
  sections : ∃ q e, QuestionsAt msg (word msg 4) 12 q ∧
    RecordsAt msg (word msg 6 + word msg 8 + word msg 10) q e

end DNSWire
