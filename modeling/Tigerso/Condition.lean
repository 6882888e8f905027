import Mathlib.Tactic.SplitIfs
import Mathlib.Tactic.Linarith

/-!
# thread/Condition: the deadline of a wait

The delay is the integer that `static_cast<int64_t>(seconds * kNanoSecondsPerSecond)` gives.
-/

namespace Condition

def kNanoSecondsPerSecond : Int := 1000000000

/-- `struct timespec`. -/
structure Timespec where
  tvSec : Int
  tvNsec : Int
  deriving DecidableEq, Repr

/-- A sum of the type `int64_t`; one that overflows is undefined. -/
def sum64 (a b : Int) : Option Int :=
  if -2 ^ 63 ≤ a + b ∧ a + b < 2 ^ 63 then some (a + b) else none

/-- The `abstime` that `waitForSeconds` hands to `pthread_cond_timedwait` when the clock shows
`now`. -/
def waitForSeconds (now : Timespec) (nanoseconds : Int) : Option Timespec := do
  let seconds ← sum64 now.tvSec nanoseconds
  let tvSec ← sum64 now.tvSec (seconds.tdiv kNanoSecondsPerSecond)
  let rest ← sum64 now.tvNsec nanoseconds
  some ⟨tvSec, rest.tmod kNanoSecondsPerSecond⟩

namespace Timespec

def total (t : Timespec) : Int := t.tvSec * kNanoSecondsPerSecond + t.tvNsec

/-- The nanoseconds are a part of a second. -/
def Normal (t : Timespec) : Prop := 0 ≤ t.tvNsec ∧ t.tvNsec < kNanoSecondsPerSecond

/-- A deadline that is `nanoseconds` behind `now`. -/
def Behind (abstime now : Timespec) (nanoseconds : Int) : Prop :=
  abstime.Normal ∧ abstime.total = now.total + nanoseconds

end Timespec

section
variable {now abstime : Timespec} {nanoseconds : Int}

theorem sum64_eq {a b c : Int} (fits : sum64 a b = some c) : c = a + b := by
  rw [sum64] at fits
  split_ifs at fits
  exact (Option.some.inj fits).symm

/-- The whole seconds come from the seconds of the clock, the rest from its nanoseconds. -/
theorem waitForSeconds_eq (positive : 0 ≤ now.tvSec) (normal : now.Normal)
    (delay : 0 ≤ nanoseconds) (computed : waitForSeconds now nanoseconds = some abstime) :
    abstime.tvSec = now.tvSec + (now.tvSec + nanoseconds) / kNanoSecondsPerSecond ∧
      abstime.tvNsec = (now.tvNsec + nanoseconds) % kNanoSecondsPerSecond := by
  obtain ⟨seconds, first, computed⟩ := Option.bind_eq_some_iff.mp computed
  obtain ⟨tvSec, second, computed⟩ := Option.bind_eq_some_iff.mp computed
  obtain ⟨rest, third, computed⟩ := Option.bind_eq_some_iff.mp computed
  obtain rfl := Option.some.inj computed
  obtain rfl := sum64_eq first
  obtain rfl := sum64_eq second
  obtain rfl := sum64_eq third
  constructor
  · rw [Int.tdiv_eq_ediv_of_nonneg (Int.add_nonneg positive delay)]
  · rw [Int.tmod_eq_emod_of_nonneg (Int.add_nonneg normal.1 delay)]

/-- How far the deadline is behind the one that was asked for. -/
theorem waitForSeconds_total (positive : 0 ≤ now.tvSec) (normal : now.Normal)
    (delay : 0 ≤ nanoseconds) (computed : waitForSeconds now nanoseconds = some abstime) :
    abstime.Normal ∧ abstime.total = now.total + nanoseconds +
      ((now.tvSec + nanoseconds) / kNanoSecondsPerSecond -
        (now.tvNsec + nanoseconds) / kNanoSecondsPerSecond) * kNanoSecondsPerSecond := by
  obtain ⟨tvSec, tvNsec⟩ := waitForSeconds_eq positive normal delay computed
  have carried := Int.mul_ediv_add_emod (now.tvNsec + nanoseconds) kNanoSecondsPerSecond
  have second : (0 : Int) < kNanoSecondsPerSecond := by decide
  refine ⟨⟨?_, ?_⟩, ?_⟩
  · rw [tvNsec]
    exact Int.emod_nonneg _ (Int.ne_of_gt second)
  · rw [tvNsec]
    exact Int.emod_lt_of_pos _ second
  · rw [Timespec.total, Timespec.total, tvSec, tvNsec]
    linarith

/-- The deadline is the one that was asked for when the two sums have as many whole seconds. -/
theorem waitForSeconds_behind_iff (positive : 0 ≤ now.tvSec) (normal : now.Normal)
    (delay : 0 ≤ nanoseconds) (computed : waitForSeconds now nanoseconds = some abstime) :
    abstime.Behind now nanoseconds ↔
      (now.tvSec + nanoseconds) / kNanoSecondsPerSecond =
        (now.tvNsec + nanoseconds) / kNanoSecondsPerSecond := by
  obtain ⟨within, total⟩ := waitForSeconds_total positive normal delay computed
  have second : kNanoSecondsPerSecond ≠ 0 := by decide
  rw [Timespec.Behind, total]
  constructor
  · rintro ⟨_, same⟩
    have none_ := (Int.mul_eq_zero.mp (by linarith : ((now.tvSec + nanoseconds) /
      kNanoSecondsPerSecond - (now.tvNsec + nanoseconds) / kNanoSecondsPerSecond) *
        kNanoSecondsPerSecond = 0)).resolve_right second
    linarith
  · intro same
    refine ⟨within, ?_⟩
    rw [same, Int.sub_self, Int.zero_mul, Int.add_zero]

end

/-- A wait of half a second in the first second of the epoch. -/
theorem waitForSeconds_behind_first :
    Timespec.Behind ⟨0, 700000000⟩ ⟨0, 200000000⟩ 500000000 :=
  (waitForSeconds_behind_iff (by decide) ⟨by decide, by decide⟩ (by decide) rfl).mpr rfl

/-- A wait for no time at all ends a second late, in November 2023. -/
theorem not_waitForSeconds_behind :
    ¬ ∀ now abstime nanoseconds, 0 ≤ now.tvSec → now.Normal → 0 ≤ nanoseconds →
      waitForSeconds now nanoseconds = some abstime → abstime.Behind now nanoseconds := by
  intro behind
  have late := behind ⟨1700000000, 0⟩ ⟨1700000001, 0⟩ 0 (by decide) ⟨by decide, by decide⟩
    (by decide) rfl
  exact absurd late.2 (by decide)

end Condition
