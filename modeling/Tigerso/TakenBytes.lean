import Tigerso.BodyRules

/-!
# Bytes that are taken whatever comes behind them

Where the loop goes over some bytes in the same way in front of any others, the parts of a message
can be put together: what takes one part and then the other takes both.
-/

open SystemCalls

namespace HttpLib

/-- Over `p` the loop goes from one run to another one, whatever comes behind `p`. -/
def Takes (strict : Bool) (answer : Nat) (r : Run) (p : Bytes) (r' : Run) : Prop :=
  ∀ rest, loop strict answer 0 r (p ++ rest) = loop strict answer 0 r' rest

variable {strict : Bool} {answer : Nat} {r r' r'' : Run} {q : Parser} {m : Mark}
  {cs : List Callback}
  {at_ more : Bytes}

namespace Takes

theorem nil : Takes strict answer r [] r := fun _ => rfl

theorem trans {p p' : Bytes} (first : Takes strict answer r p r')
    (second : Takes strict answer r' p' r'') : Takes strict answer r (p ++ p') r'' := by
  intro rest
  rw [List.append_assoc, first, second]

/-- A turn that takes all of the bytes. -/
theorem turn {ch : Byte} {tail : Bytes}
    (short : parsingHeader r.parser.state → r.parser.nread < httpMaxHeaderSize)
    (turned : ∀ rest, step strict answer r.counted ch (tail ++ rest) = .next r' tail.length) :
    Takes strict answer r (ch :: tail) (r'.advance (ch :: tail)) := by
  intro rest
  have taken : ((ch :: tail) ++ rest).take (tail.length + 1) = ch :: tail :=
    @List.take_left Byte (ch :: tail) rest
  have counts : ¬ (parsingHeader r.parser.state ∧ r.counted.parser.nread > httpMaxHeaderSize) := by
    rintro ⟨head, long⟩
    have less := short head
    have counted : r.counted.parser.nread ≤ r.parser.nread + 1 := by
      rw [Run.counted, if_pos head]
      exact Nat.mod_le _ _
    omega
  rw [List.cons_append, loop_cons, if_neg counts, turned]
  show loop strict answer tail.length _ (tail ++ rest) = _
  rw [← List.cons_append, taken]
  exact loop_passed strict answer _ 0 tail rest

end Takes

namespace Run

def clear (q : Parser) (cs : List Callback) : Run := ⟨q, fun _ => none, cs⟩

def marking (q : Parser) (m : Mark) (at_ : Bytes) (cs : List Callback) : Run :=
  ⟨q, Function.update (fun _ => none) m (some at_), cs⟩

@[simp] theorem parser_marking : (marking q m at_ cs).parser = q := rfl

theorem eq_clear (unset : ∀ m, r.marks m = none) : r = clear r.parser r.callbacks := by
  obtain ⟨q, marks, cs⟩ := r
  obtain rfl : marks = fun _ => none := funext unset
  rfl

@[simp] theorem clear_advance (bytes : Bytes) : (clear q cs).advance bytes = clear q cs := rfl

@[simp] theorem marking_advance (bytes : Bytes) :
    (marking q m at_ cs).advance bytes = marking q m (at_ ++ bytes) cs := by
  simp only [advance, marking, mk.injEq, true_and, and_true]
  funext k
  by_cases same : k = m
  · subst same
    simp
  · simp [same]

@[simp] theorem marking_CALLBACK :
    (marking q m at_ cs).callbackData_ m more = clear q (cs ++ [m.callback (at_ ++ more)]) := by
  unfold callbackData_ marking clear
  simp

/-- The byte that a turn begins with is counted in the head of a message. -/
theorem counted_head (head : parsingHeader r.parser.state)
    (short : r.parser.nread < httpMaxHeaderSize) :
    r.counted = r.setNread (r.parser.nread + 1) := by
  have limit : httpMaxHeaderSize = 81920 := rfl
  have wraps : (r.parser.nread + 1) % 2 ^ 32 = r.parser.nread + 1 := Nat.mod_eq_of_lt (by omega)
  rw [counted, if_pos head, count, wraps]

end Run

/-- The bytes of a turn are counted once more without the first one. -/
theorem countHeaderSize_short {n passed : Nat} {k : Run → Step}
    (short : r.parser.nread + n ≤ httpMaxHeaderSize) :
    r.countHeaderSize n passed k = k (r.setNread (r.parser.nread + n)) := by
  have limit : httpMaxHeaderSize = 81920 := rfl
  have wraps : (r.parser.nread + n) % 2 ^ 32 = r.parser.nread + n := Nat.mod_eq_of_lt (by omega)
  have counts : (r.count n).parser.nread = r.parser.nread + n := wraps
  rw [Run.countHeaderSize, if_neg (by omega), Run.count, wraps]

end HttpLib
