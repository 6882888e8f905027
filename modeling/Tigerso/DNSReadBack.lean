import Tigerso.DNSProbing

/-!
# dns/DNSCache: a query after an update

What `queryIP` answers in the second of an `updateDNS`. The guard of `updateNode` compares as
many bytes of the names as a pointer has, so that it can keep the record of another host.
-/

open SystemCalls CText DNSCache TimedSearch DNSProbing DNSSoundness

namespace DNSReadBack

section
variable {ι : Type} {w : World ι} {s : Cache ι} {host : Bytes} {now : Int}

def usedAt (now : Int) (node : DNSNode) : Bool := now ≤ node.expriedAt

theorem isNodeUsed_eq {look : Nat} (still : w.time look = now) (node : DNSNode) :
    isNodeUsed w look node = usedAt now node := by
  rw [isNodeUsed, usedAt, still]
  split_ifs with expired
  · rw [decide_eq_false (Int.not_le.mpr expired)]
  · rw [decide_eq_true (Int.not_lt.mp expired)]

/-- The clock does not change from one look on and before another. -/
def Still (w : World ι) (now : Int) (first last : Nat) : Prop :=
  ∀ t, first ≤ t → t < last → w.time t = now

theorem Still.mono {first last first' last' : Nat} (still : Still w now first last)
    (from_ : first ≤ first') (until_ : last' ≤ last) : Still w now first' last' :=
  fun t after before => still t (from_.trans after) (before.trans_le until_)

/-- A slot can be taken while the clock stands still. -/
def takesAt (now : Int) (array : HashKey → DNSNode) (host : Bytes) (slot : HashKey) : Bool :=
  !usedAt now (array slot) || sameHost host (array slot)

theorem takes_eq {array : HashKey → DNSNode} {look : Nat} (still : w.time look = now)
    (slot : HashKey) : takes w array host look slot = takesAt now array host slot := by
  rw [takes, takesAt, isNodeUsed_eq still]

/-- The chosen slot is the first of the probe slots with its number, and no slot ahead of it
can be taken. -/
theorem ahead_of_chosen {visited : List HashKey} {slot : HashKey}
    (chosen : Chosen w s host visited slot)
    (still : Still w now s.looks (s.looks + visited.length)) :
    ∃ before rest, probeSlots (w.md5 host) = before ++ slot :: rest ∧
      ∀ v ∈ before, v ≠ slot ∧ takesAt now s.array host v = false := by
  cases chosen with
  | @first passed rest slot split passes here =>
    refine ⟨passed, rest, split, fun v there => ?_⟩
    obtain ⟨k, at_⟩ := List.getElem?_of_mem there
    have short : k < passed.length := (List.getElem?_eq_some_iff.mp at_).1
    have length : (passed ++ [slot]).length = passed.length + 1 := List.length_append
    rw [length] at still
    have time (j : Nat) (le : j ≤ passed.length) : w.time (s.looks + j) = now :=
      still _ (Nat.le_add_right _ _) (by omega)
    have pass := passes k v at_
    rw [takes_eq (time k short.le)] at pass
    rw [takes_eq (time _ (Nat.le_refl _))] at here
    refine ⟨?_, pass⟩
    rintro rfl
    rw [pass] at here
    cases here
  | oldest passes least =>
    have there : slot ∈ probeSlots (w.md5 host) := List.argmin_mem least
    obtain ⟨before, rest, split, first⟩ := List.eq_append_cons_of_mem there
    refine ⟨before, rest, split, fun v among => ⟨?_, ?_⟩⟩
    · rintro rfl
      exact first among
    · have member : v ∈ probeSlots (w.md5 host) := by
        rw [split]
        exact List.mem_append_left _ among
      obtain ⟨k, at_⟩ := List.getElem?_of_mem member
      have short : k < (probeSlots (w.md5 host)).length := (List.getElem?_eq_some_iff.mp at_).1
      rw [← takes_eq (still _ (Nat.le_add_right _ k) (by omega))]
      exact passes k v at_

theorem sameHost_begins (host rest key addr : Bytes) (expires : Int) :
    sameHost host ⟨host ++ rest, key, addr, expires⟩ = true := by
  rw [sameHost, List.take_left, beq_self_eq_true]

end

section
variable {ι : Type} [DecidableEq ι] {w : World ι} {s s' s'' : Cache ι} {p q : ι} {host : Host}
  {ip : Address} {ttl now : Int}

def hostCom : Host :=
  ⟨[101, 120, 97, 109, 112, 108, 101, 46, 99, 111, 109], by decide, by decide⟩

end

end DNSReadBack
