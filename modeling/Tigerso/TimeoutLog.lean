import Mathlib.Data.List.Basic

/-!
# Timeouts in terms of a log

A log, newest event first, of what happens to the entries of a timer: they are
touched and dropped, the clock ticks, and they expire. The age of an entry is the
number of ticks since it was last touched. Nothing is said here about how a timer
finds the entries that are due.
-/

universe u

namespace TimeoutLog

inductive Event (α : Type u) where
  | touched (c : α)
  | dropped (c : α)
  | ticked
  | expired (c : α)
  deriving DecidableEq

variable {α : Type u} [DecidableEq α]

/-- Ticks since `c` was touched, unless it was dropped or expired after that. -/
def age (c : α) : List (Event α) → Option Nat
  | [] => none
  | .touched d :: log => if d = c then some 0 else age c log
  | .dropped d :: log => if d = c then none else age c log
  | .ticked :: log => (age c log).map (· + 1)
  | .expired d :: log => if d = c then none else age c log

omit [DecidableEq α] in
def ticks : List (Event α) → Nat
  | [] => 0
  | .ticked :: log => ticks log + 1
  | _ :: log => ticks log

/-- Neither touched nor dropped. -/
def Untouched (c : α) (log : List (Event α)) : Prop := .touched c ∉ log ∧ .dropped c ∉ log

/-- Entries expire in the `n`-th tick after they were touched, once, and not when they
were dropped. -/
structure Exact (n : Nat) (log : List (Event α)) : Prop where
  due : ∀ c later earlier, log = later ++ .touched c :: earlier → Untouched c later →
    (.expired c ∈ later ↔ n ≤ ticks later) ∧
      ∀ after before, later = after ++ .expired c :: before → ticks before = n
  dropped : ∀ c later earlier, log = later ++ .dropped c :: earlier → .touched c ∉ later →
    .expired c ∉ later
  once : ∀ c later earlier, log = later ++ .expired c :: earlier → .touched c ∉ later →
    .expired c ∉ later
  touched : ∀ c later earlier, log = later ++ .expired c :: earlier → .touched c ∈ earlier

variable {c : α} {n : Nat}

omit [DecidableEq α] in
theorem ticks_le (later earlier : List (Event α)) : ticks earlier ≤ ticks (later ++ earlier) := by
  induction later with
  | nil => exact Nat.le_refl _
  | cons e later ih => cases e <;> simp only [List.cons_append, ticks] <;> omega

theorem age_none_later {later earlier : List (Event α)} (none_before : age c earlier = none)
    (untouched : .touched c ∉ later) : age c (later ++ earlier) = none := by
  induction later with
  | nil => exact none_before
  | cons e later ih =>
    obtain ⟨other, rest⟩ := not_or.mp (mt List.mem_cons.mpr untouched)
    have before := ih rest
    cases e with
    | touched d =>
      have apart : d ≠ c := fun same => other (by rw [same])
      simpa only [List.cons_append, age, if_neg apart] using before
    | dropped d => simp only [List.cons_append, age, before, ite_self]
    | ticked => simp only [List.cons_append, age, before, Option.map_none]
    | expired d => simp only [List.cons_append, age, before, ite_self]

/-- A channel that is not touched grows older with every tick. -/
theorem age_later {later earlier : List (Event α)} {k : Nat} (before : age c earlier = some k)
    (untouched : Untouched c later) (kept : .expired c ∉ later) :
    age c (later ++ earlier) = some (k + ticks later) := by
  induction later with
  | nil => exact before
  | cons e later ih =>
    obtain ⟨fresh, held⟩ := untouched
    obtain ⟨other, rest⟩ := not_or.mp (mt List.mem_cons.mpr fresh)
    obtain ⟨other', rest'⟩ := not_or.mp (mt List.mem_cons.mpr held)
    obtain ⟨other'', rest''⟩ := not_or.mp (mt List.mem_cons.mpr kept)
    have later_age := ih ⟨rest, rest'⟩ rest''
    cases e with
    | touched d =>
      have apart : d ≠ c := fun same => other (by rw [same])
      simpa only [List.cons_append, age, if_neg apart, ticks] using later_age
    | dropped d =>
      have apart : d ≠ c := fun same => other' (by rw [same])
      simpa only [List.cons_append, age, if_neg apart, ticks] using later_age
    | ticked => simp only [List.cons_append, age, later_age, Option.map_some, ticks, Nat.add_assoc]
    | expired d =>
      have apart : d ≠ c := fun same => other'' (by rw [same])
      simpa only [List.cons_append, age, if_neg apart, ticks] using later_age

theorem touched_of_age {log : List (Event α)} {k : Nat} (aged : age c log = some k) :
    .touched c ∈ log := by
  by_contra untouched
  have never := @age_none_later _ _ c log [] rfl untouched
  rw [List.append_nil, aged] at never
  exact nomatch never

/-- Entries that expire are `n` ticks old. -/
def OnTime (n : Nat) (log : List (Event α)) : Prop :=
  ∀ c later earlier, log = later ++ .expired c :: earlier → age c earlier = some n

theorem onTime_nil : OnTime n ([] : List (Event α)) := by
  rintro c (_ | ⟨_, _⟩) earlier split <;> cases split

theorem OnTime.cons {log : List (Event α)} {e : Event α} (h : OnTime n log)
    (last : ∀ c, e = .expired c → age c log = some n) : OnTime n (e :: log) := by
  rintro c (_ | ⟨e', later⟩) earlier split
  · cases split
    exact last c rfl
  · cases split
    exact h c later earlier rfl

/-- A log whose entries expire on time, and which ends with all of them younger than
`n` ticks, is exact. -/
theorem exact_of_onTime {log : List (Event α)} (onTime : OnTime n log)
    (young : ∀ c k, age c log = some k → k < n) : Exact n log := by
  -- behind an event that leaves no age nothing expires until the next touch
  have quiet : ∀ c e later earlier, log = later ++ e :: earlier → age c (e :: earlier) = none →
      .touched c ∉ later → .expired c ∉ later := by
    intro c e later earlier split gone untouched expired
    obtain ⟨after, before, rfl⟩ := List.append_of_mem expired
    have aged := onTime c after (before ++ e :: earlier) (by rw [split, List.append_assoc]; rfl)
    have never : age c (before ++ e :: earlier) = none :=
      age_none_later gone fun touched => untouched (by simp [touched])
    rw [never] at aged
    exact nomatch aged
  refine ⟨fun c later earlier split untouched => ?_, fun c later earlier split => ?_,
    fun c later earlier split => ?_, fun c later earlier split => ?_⟩
  · have start : age c (.touched c :: earlier) = some 0 := by rw [age, if_pos rfl]
    have exactly : ∀ after before, later = after ++ .expired c :: before → ticks before = n := by
      rintro after before rfl
      have aged := onTime c after (before ++ .touched c :: earlier)
        (by rw [split, List.append_assoc]; rfl)
      have untouched' : Untouched c before :=
        ⟨fun h => untouched.1 (by simp [h]), fun h => untouched.2 (by simp [h])⟩
      have kept : .expired c ∉ before := by
        intro expired
        obtain ⟨after', before', rfl⟩ := List.append_of_mem expired
        have never : age c ((after' ++ .expired c :: before') ++ .touched c :: earlier) = none := by
          rw [List.append_assoc]
          refine age_none_later ?_ fun h => untouched'.1 (by simp [h])
          rw [List.cons_append, age, if_pos rfl]
        rw [never] at aged
        exact nomatch aged
      rw [age_later start untouched' kept, Nat.zero_add] at aged
      exact Option.some.inj aged
    refine ⟨⟨fun expired => ?_, fun long => ?_⟩, exactly⟩
    · obtain ⟨after, before, rfl⟩ := List.append_of_mem expired
      exact Nat.le_trans (Nat.le_of_eq (exactly after before rfl).symm)
        (ticks_le after (.expired c :: before))
    · by_contra kept
      have aged := young c (0 + ticks later) (by rw [split]; exact age_later start untouched kept)
      omega
  · exact quiet c _ later earlier split (by rw [age, if_pos rfl])
  · exact quiet c _ later earlier split (by rw [age, if_pos rfl])
  · exact touched_of_age (onTime c later earlier split)

end TimeoutLog
