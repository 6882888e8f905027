import Tigerso.BufferCalls
import Tigerso.GuardedRuns

/-!
# net/Buffer: the indices over all calls

One byte behind the readable ones belongs to the allocation, so that a terminator has its place.
-/

open SystemCalls SocketUtil GuardedRuns

/-- A call and what the socket, `realloc` and `send2Socket` answer. -/
inductive BufferCall where
  | addData (data : Bytes) (realloc : Realloc)
  | recvFromSocket (isSSL : Bool) (realloc : Realloc) (errno : Nat) (chunks : List Bytes)
      (ending : RecvEnd)
  | sendToSocket (isSSL : Bool) (counts : List Nat) (errno : Nat) (body : Int)
  | removeData (len : Nat)
  /-- With the header of the message, if there is one. -/
  | attachHttpMessage (header : Option Bytes) (realloc : Realloc)
  | clear
  | toString

namespace Buffer

def forMessage (b : Buffer) : Buffer := { b.clear with msgptr := true, senddone := false }

/-- What a call leaves; no result where it reads or writes outside the allocation. -/
def call (b : Buffer) : BufferCall → Option Buffer
  | .addData data realloc => b.addData data (b.asked realloc data.length)
  | .recvFromSocket isSSL realloc errno chunks ending =>
    (b.recvFromSocket isSSL realloc errno chunks ending).map fun result => result.2.2
  | .sendToSocket isSSL counts errno body =>
    (b.sendToSocket isSSL counts errno body).map fun result => result.2.2
  | .removeData len => (b.removeData len).map fun result => result.2.2
  | .attachHttpMessage none _ => some b
  | .attachHttpMessage (some header) realloc =>
    b.attachHttpMessage header (b.asked realloc header.length)
  | .clear => some b.clear
  | .toString => b.toString.map Prod.snd

/-- Data that is added finds its space or is granted it. -/
def suppliedFor (realloc : Realloc) (b : Buffer) (data : Bytes) : Bool :=
  decide (data = []) || b.supplied realloc data.length

/-- Every `makeSpace` of a call finds the space or is granted it. -/
def Met (b : Buffer) : BufferCall → Prop
  | .addData data realloc => b.suppliedFor realloc data = true
  | .recvFromSocket isSSL realloc errno chunks _ =>
    recvSupplied isSSL realloc errno chunks gainGap b = true
  | .attachHttpMessage (some header) realloc => b.forMessage.suppliedFor realloc header = true
  | _ => True

instance (b : Buffer) : ∀ c, Decidable (b.Met c)
  | .addData data realloc => inferInstanceAs (Decidable (b.suppliedFor realloc data = true))
  | .recvFromSocket isSSL realloc errno chunks _ =>
    inferInstanceAs (Decidable (recvSupplied isSSL realloc errno chunks gainGap b = true))
  | .attachHttpMessage (some header) realloc =>
    inferInstanceAs (Decidable (b.forMessage.suppliedFor realloc header = true))
  | .attachHttpMessage none _ | .sendToSocket _ _ _ _ | .removeData _ | .clear | .toString =>
    inferInstanceAs (Decidable True)

section
variable {b b' : Buffer} {data : Bytes} {realloc : Realloc}

/-- A size leaves a byte behind the gap unless it is the gap. -/
theorem construct_ordered_iff {size : Nat} (small : size < 2 ^ 63) (garbage : Nat → Byte) :
    (construct size garbage).Ordered ↔ size ≠ prefix_ := by
  constructor
  · rintro ordered rfl
    exact absurd ordered.room (Nat.lt_irrefl _)
  · intro other
    rw [construct]
    split_ifs with low
    · have room : prefix_ < leastLen := by decide
      exact ⟨⟨Nat.le_refl _, Nat.le_refl _, room.le, (by decide : leastLen < 2 ^ 63)⟩, room⟩
    · have room : prefix_ < size := Nat.lt_of_le_of_ne (Nat.not_lt.mp low) other.symm
      exact ⟨⟨Nat.le_refl _, Nat.le_refl _, room.le, small⟩, room⟩

theorem Ordered.addSupplied (ordered : Ordered b) (got : b.suppliedFor realloc data = true) :
    ∃ b', b.addData data (b.asked realloc data.length) = some b' ∧ Ordered b' ∧
      b'.content = b.content ++ data ∧ b'.msgptr = b.msgptr := by
  refine ordered.toWithin.addData (fun more => ?_) (Or.inl ordered.room)
  rw [suppliedFor, decide_eq_false more, Bool.false_or] at got
  exact got

/-- Where the space is refused `addData` goes on without it. -/
theorem Within.makeSpace_refused (within : Within b) {len : Nat}
    (refused : b.supplied realloc len = false)
    (made : b.makeSpace len (b.asked realloc len) = some b') :
    Within b' ∧ b'.bufsize ≤ b'.writeIdx + len := by
  rw [supplied] at refused
  rw [Buffer.makeSpace] at made
  obtain ⟨b₁, aligned, made⟩ := Option.bind_eq_some_iff.mp made
  rw [aligned, Option.any_some, Bool.or_eq_false_iff] at refused
  obtain ⟨kept, _, _⟩ := within.align aligned
  have free := kept.within.writeable
  have low : ¬ len < b₁.writeableBytes := of_decide_eq_false refused.1
  rw [if_neg low, refused.2] at made
  obtain ⟨_, _, made⟩ := Option.bind_eq_some_iff.mp made
  cases made
  exact ⟨kept.within, by omega⟩

/-- Data leaves the indices in order exactly when it finds its space or is granted it. -/
theorem Ordered.addData_iff (ordered : Ordered b) :
    (∃ b', b.addData data (b.asked realloc data.length) = some b' ∧ Ordered b') ↔
      b.suppliedFor realloc data = true := by
  constructor
  · rintro ⟨b', added, ordered'⟩
    by_contra refused
    rw [suppliedFor, Bool.or_eq_true, not_or, decide_eq_true_iff, Bool.not_eq_true] at refused
    rw [addData, if_neg fun none => refused.1 (List.length_eq_zero_iff.mp none)] at added
    obtain ⟨b₁, made, added⟩ := Option.bind_eq_some_iff.mp added
    obtain ⟨_, full⟩ := ordered.toWithin.makeSpace_refused refused.2 made
    obtain ⟨copied, copy, added⟩ := Option.bind_eq_some_iff.mp added
    have room := ordered'.room
    rw [copyIn] at copy
    split_ifs at copy
    cases copy
    cases added
    simp only at room
    omega
  · intro got
    obtain ⟨b', added, ordered', _⟩ := ordered.addSupplied got
    exact ⟨b', added, ordered'⟩

theorem Ordered.forMessage (ordered : Ordered b) : Ordered b.forMessage :=
  ⟨⟨ordered.clear.behind, ordered.clear.order, ordered.clear.inside, ordered.clear.small⟩,
    ordered.clear.room⟩

/-- A call that gets its space has a result, and leaves the indices in order. -/
theorem Ordered.call {c : BufferCall} (ordered : Ordered b) (met : b.Met c) :
    ∃ b', b.call c = some b' ∧ Ordered b' := by
  cases c with
  | addData data realloc =>
    obtain ⟨b', added, ordered', _⟩ := ordered.addSupplied met
    exact ⟨b', added, ordered'⟩
  | recvFromSocket isSSL realloc errno chunks ending =>
    obtain ⟨ret, data, b', received, ordered', _⟩ := ordered.recvFromSocket ending met
    exact ⟨b', by rw [Buffer.call, received]; rfl, ordered'⟩
  | sendToSocket isSSL counts errno body =>
    obtain ⟨ret, sent, b', done, ordered', _⟩ := ordered.sendToSocket isSSL counts errno body
    exact ⟨b', by rw [Buffer.call, done]; rfl, ordered'⟩
  | removeData len =>
    obtain ⟨b', removed, ordered', _⟩ := ordered.removeData len
    exact ⟨b', by rw [Buffer.call, removed]; rfl, ordered'⟩
  | attachHttpMessage header realloc =>
    cases header with
    | none => exact ⟨b, rfl, ordered⟩
    | some header =>
      obtain ⟨b', added, ordered', _⟩ := ordered.forMessage.addSupplied met
      exact ⟨b', added, ordered'⟩
  | clear => exact ⟨b.clear, rfl, ordered.clear⟩
  | toString => exact ⟨b.terminated, by rw [Buffer.call, ordered.toString]; rfl, ordered.terminated⟩

/-- In a run of calls that all get their space the indices are in order, and every call has a
result. -/
theorem ordered_of_run {size : Nat} {garbage : Nat → Byte} (other : size ≠ prefix_)
    (small : size < 2 ^ 63) (run : Reaches call Met (construct size garbage) b) :
    b.Ordered ∧ ∀ c, b.Met c → (b.call c).isSome = true := by
  have ordered : b.Ordered :=
    run.invariant Ordered ((construct_ordered_iff small garbage).mpr other)
    fun s c s' ordered met steps => by
      obtain ⟨b', called, ordered'⟩ := ordered.call met
      obtain rfl := Option.some.inj (called.symm.trans steps)
      exact ordered'
  refine ⟨ordered, fun c met => ?_⟩
  obtain ⟨b', called, _⟩ := ordered.call met
  rw [called]
  rfl

end

def refusing : Realloc := ⟨fun _ => false, nofun⟩

/-- Three bytes in an allocation of 16. -/
theorem ordered_in_place : ∃ b, follow call Met (construct 16 fun _ => 0)
    [.addData [1, 2, 3] refusing, .removeData 2, .toString] = some b ∧ b.Ordered := by
  obtain ⟨b, followed⟩ := Option.isSome_iff_exists.mp
    (by decide +kernel : (follow call Met (construct 16 fun _ => 0)
      [.addData [1, 2, 3] refusing, .removeData 2, .toString]).isSome = true)
  exact ⟨b, followed, (ordered_of_run (by decide) (by decide) (reaches_of_follow followed)).1⟩

/-- A buffer of the size of the gap has no byte, and eight bytes fill an allocation of 16 that
cannot grow. -/
theorem no_byte_left : ¬ (construct 8 fun _ => 0).Ordered ∧
    ∀ b, (construct 16 fun _ => 0).call (.addData [1, 2, 3, 4, 5, 6, 7, 8] refusing) = some b →
      ¬ b.Ordered := by
  have ordered : (construct 16 fun _ => 0).Ordered :=
    (construct_ordered_iff (by decide) _).mpr (by decide)
  constructor
  · intro ordered
    exact (construct_ordered_iff (by decide) _).mp ordered rfl
  · intro b called ordered'
    have got := (@Ordered.addData_iff _ _ refusing ordered).mp ⟨b, called, ordered'⟩
    exact absurd got (by decide +kernel)

end Buffer
