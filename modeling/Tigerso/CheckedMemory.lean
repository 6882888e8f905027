import Tigerso.SystemCalls

/-!
# Arrays whose accesses are checked

A computation on byte arrays stops at the first access outside of them, or when the steps
it may take are used up.
-/

namespace CheckedMemory

inductive Fault where
  | readOutside
  | writeOutside
  | endless
  deriving DecidableEq, Repr

abbrev Checked := Except Fault

section
variable {α β : Type}

theorem bind_ok_iff {x : Checked α} {f : α → Checked β} {b : β} :
    x >>= f = .ok b ↔ ∃ a, x = .ok a ∧ f a = .ok b := by
  cases x with
  | error e =>
    constructor
    · exact nofun
    · rintro ⟨a, absurd_, _⟩
      exact nomatch absurd_
  | ok a =>
    constructor
    · exact fun rest => ⟨a, rfl, rest⟩
    · rintro ⟨_, same, rest⟩
      cases same
      exact rest

theorem ok_bind (a : α) (f : α → Checked β) : (Except.ok a : Checked α) >>= f = f a := rfl

end

def load (array : Bytes) (i : Nat) : Checked Byte :=
  match array[i]? with
  | some b => .ok b
  | none => .error .readOutside

/-- `len` bytes from `off`. -/
def loads (array : Bytes) (off len : Nat) : Checked Bytes :=
  if off + len ≤ array.length then .ok ((array.drop off).take len) else .error .readOutside

/-- The number in network byte order at `off`. -/
def beValue (bytes : Bytes) : Nat := bytes.foldl (fun n b => n * 256 + b.toNat) 0

def load16 (array : Bytes) (off : Nat) : Checked Nat := beValue <$> loads array off 2

def load32 (array : Bytes) (off : Nat) : Checked Nat := beValue <$> loads array off 4

/-- Copy `bytes` to `off`. -/
def store (array : Bytes) (off : Nat) (bytes : Bytes) : Checked Bytes :=
  if off + bytes.length ≤ array.length then
    .ok (array.take off ++ bytes ++ array.drop (off + bytes.length))
  else .error .writeOutside

section
variable {array bytes : Bytes} {i off len : Nat} {b : Byte}

theorem load_ok_iff : load array i = .ok b ↔ array[i]? = some b := by
  unfold load
  cases array[i]? with
  | none => exact ⟨nofun, nofun⟩
  | some c => simp

theorem loads_ok_iff :
    loads array off len = .ok bytes ↔
      off + len ≤ array.length ∧ bytes = (array.drop off).take len := by
  unfold loads
  split_ifs with inside
  · simp [inside, eq_comm]
  · simp [inside]

theorem loads_length (read : loads array off len = .ok bytes) : bytes.length = len := by
  obtain ⟨inside, rfl⟩ := loads_ok_iff.mp read
  rw [List.length_take, List.length_drop]
  omega

theorem load16_ok_iff {n : Nat} :
    load16 array off = .ok n ↔
      off + 2 ≤ array.length ∧ n = beValue ((array.drop off).take 2) := by
  unfold load16 loads
  split_ifs with inside
  · simp [inside, eq_comm]
  · simp [inside]

theorem load32_ok_iff {n : Nat} :
    load32 array off = .ok n ↔
      off + 4 ≤ array.length ∧ n = beValue ((array.drop off).take 4) := by
  unfold load32 loads
  split_ifs with inside
  · simp [inside, eq_comm]
  · simp [inside]

theorem store_ok_iff {array' : Bytes} :
    store array off bytes = .ok array' ↔
      off + bytes.length ≤ array.length ∧
        array' = array.take off ++ bytes ++ array.drop (off + bytes.length) := by
  unfold store
  split_ifs with inside
  · simp [inside, eq_comm]
  · simp [inside]

theorem store_length {array' : Bytes} (stored : store array off bytes = .ok array') :
    array'.length = array.length := by
  obtain ⟨inside, rfl⟩ := store_ok_iff.mp stored
  rw [List.length_append, List.length_append, List.length_take, List.length_drop]
  omega

/-- What a copy to the start leaves. -/
theorem store_start (fits : bytes.length ≤ array.length) :
    store array 0 bytes = .ok (bytes ++ array.drop bytes.length) := by
  rw [store_ok_iff, Nat.zero_add]
  exact ⟨fits, by rw [List.take_zero, List.nil_append]⟩

/-- The array after a copy to `pos`. -/
def written (array : Bytes) (pos : Nat) (bytes : Bytes) : Bytes :=
  array.take pos ++ bytes ++ array.drop (pos + bytes.length)

variable {pos : Nat}

theorem written_nil (array : Bytes) (pos : Nat) : written array pos [] = array := by
  rw [written, List.append_nil]
  exact List.take_append_drop pos array

theorem written_length (fits : pos + bytes.length ≤ array.length) :
    (written array pos bytes).length = array.length := by
  rw [written, List.length_append, List.length_append, List.length_take, List.length_drop]
  omega

/-- Two copies, the second one right behind the first. -/
theorem written_append (more : Bytes) (fits : pos + bytes.length ≤ array.length) :
    written (written array pos bytes) (pos + bytes.length) more =
      written array pos (bytes ++ more) := by
  have front : (array.take pos ++ bytes).length = pos + bytes.length := by
    rw [List.length_append, List.length_take]
    omega
  have before : (written array pos bytes).take (pos + bytes.length) = array.take pos ++ bytes := by
    rw [written, ← front, List.take_left]
  have behind : (written array pos bytes).drop (pos + bytes.length + more.length) =
      array.drop (pos + (bytes ++ more).length) := by
    rw [written, ← List.drop_drop, ← front, List.drop_left, front, List.drop_drop,
      List.length_append, Nat.add_assoc]
  rw [written, before, behind, written, List.append_assoc (array.take pos)]

theorem store_written (fits : pos + bytes.length ≤ array.length) :
    store array pos bytes = .ok (written array pos bytes) :=
  store_ok_iff.mpr ⟨fits, rfl⟩

end

end CheckedMemory
