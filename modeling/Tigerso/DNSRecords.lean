import Tigerso.DNSCache
import Tigerso.DeferredWrites

/-!
# dns/DNSCache: the record of one host

`updateNode` on a slot that one host alone writes to, and the order in which its updates can
reach the slot.
-/

open SystemCalls CText DNSCache DeferredWrites

namespace DNSRecords

/-- What the table has for a host. -/
structure Record where
  name : Bytes
  addr : Bytes
  expires : Int

def recordOf (node : DNSNode) : Record := ⟨node.host, cString node.addr, node.expriedAt⟩

/-- An update, from the moment at which it is made. -/
structure Offer where
  ip : Address
  expires : Int

def Offer.addr (u : Offer) : Bytes := u.ip.bytes.take ipv4Addrsize

/-- The guard of `updateNode` takes the record for one of the host. It compares eight bytes, and
`behind` is what lies behind the terminator of the host. -/
def Guarded (host : Bytes) (behind : Nat → Byte) (r : Record) : Prop :=
  r.name.take 8 = memoryAt host behind 8

instance (host : Bytes) (behind : Nat → Byte) (r : Record) : Decidable (Guarded host behind r) :=
  inferInstanceAs (Decidable (_ = _))

/-- It can take the record for one of the host, and it does so whatever lies behind the host. -/
def May (host : Bytes) (r : Record) : Prop := ∃ behind, Guarded host behind r

def Must (host : Bytes) (r : Record) : Prop := ∀ behind, Guarded host behind r

def Record.put (host : Bytes) (r : Record) (u : Offer) : Record :=
  ⟨host ++ r.name.drop host.length, u.addr, u.expires⟩

def Record.write (host : Bytes) (behind : Nat → Byte) (r : Record) (u : Offer) : Record :=
  if Guarded host behind r ∧ u.expires < r.expires then r else r.put host u

/-- What the records can be after a write, with some of `behinds` behind the host. -/
def writes (host : Bytes) (behinds : Set (Nat → Byte)) (records : Set Record) (u : Offer) :
    Set Record :=
  {r' | ∃ r ∈ records, ∃ behind ∈ behinds, r' = r.write host behind u}

section
variable {host : Bytes} {behind : Nat → Byte} {r c : Record} {u : Offer}

theorem guarded_long (long : 8 ≤ host.length) :
    Guarded host behind r ↔ r.name.take 8 = host.take 8 := by
  rw [Guarded, memoryAt_eq_take long]

theorem write_kept (guarded : Guarded host behind r) (later : u.expires < r.expires) :
    r.write host behind u = r := if_pos ⟨guarded, later⟩

theorem write_put (written : Guarded host behind r → r.expires ≤ u.expires) :
    r.write host behind u = r.put host u :=
  if_neg fun kept => absurd kept.2 (Int.not_lt.mpr (written kept.1))

/-- Behind a terminator that the guard compares with, the name is the host's already. -/
theorem host_of_guarded (guarded : Guarded host behind r) (short : host.length < 8) :
    host ++ r.name.drop host.length = r.name := by
  have begins := congrArg (List.take host.length) guarded
  rw [List.take_take, Nat.min_eq_left short.le, memoryAt, List.take_take,
    Nat.min_eq_left short.le, List.take_left] at begins
  nth_rewrite 1 [← begins]
  exact List.take_append_drop _ _

theorem guarded_put (guarded : Guarded host behind r) (u : Offer) :
    Guarded host behind (r.put host u) := by
  by_cases short : host.length < 8
  · rw [Guarded, Record.put, host_of_guarded guarded short]
    exact guarded
  · exact (guarded_long (Nat.le_of_not_lt short)).mpr
      (List.take_append_of_le_length (Nat.le_of_not_lt short))

/-- Two records with the same rest behind the host are overwritten alike. -/
theorem put_congr (base : c.name.drop host.length = r.name.drop host.length) (u : Offer) :
    c.put host u = r.put host u := by
  rw [Record.put, Record.put, base]

theorem base_put (r : Record) (u : Offer) :
    (r.put host u).name.drop host.length = r.name.drop host.length := List.drop_left

theorem base_write (r : Record) (u : Offer) :
    (r.write host behind u).name.drop host.length = r.name.drop host.length := by
  rw [Record.write]
  split_ifs
  · rfl
  · exact base_put r u

/-- A write leaves a record that expires no earlier than the update. -/
theorem expires_written (r : Record) (u : Offer) :
    u.expires ≤ (r.write host behind u).expires := by
  rw [Record.write]
  split_ifs with kept
  · exact kept.2.le
  · exact Int.le_refl _

/-- And no earlier than a record that the guard compares with. -/
theorem guarded_write (guarded : Guarded host behind r) (u : Offer) :
    Guarded host behind (r.write host behind u) ∧
      r.expires ≤ (r.write host behind u).expires := by
  rw [Record.write]
  split_ifs with kept
  · exact ⟨guarded, Int.le_refl _⟩
  · exact ⟨guarded_put guarded u, Int.not_lt.mp fun later => kept ⟨guarded, later⟩⟩

theorem guarded_foldl (us : List Offer) {r : Record} (guarded : Guarded host behind r) :
    Guarded host behind (us.foldl (Record.write host behind) r) ∧
      r.expires ≤ (us.foldl (Record.write host behind) r).expires := by
  induction us generalizing r with
  | nil => exact ⟨guarded, Int.le_refl _⟩
  | cons u us ih =>
    obtain ⟨guarded', later⟩ := guarded_write guarded u
    obtain ⟨still, latest⟩ := ih guarded'
    exact ⟨still, later.trans latest⟩

theorem base_foldl (us : List Offer) (r : Record) :
    (us.foldl (Record.write host behind) r).name.drop host.length = r.name.drop host.length := by
  induction us generalizing r with
  | nil => rfl
  | cons u us ih => exact (ih _).trans (base_write r u)

theorem writes_singleton (r : Record) (u : Offer) :
    writes host {behind} {r} u = {r.write host behind u} := by
  ext r'
  constructor
  · rintro ⟨_, rfl, _, rfl, same⟩
    exact same
  · intro same
    exact ⟨r, rfl, behind, rfl, same⟩

theorem put_same (begins : host <+: r.name) (expires : u.expires = r.expires)
    (addr : u.addr = r.addr) : r.put host u = r := by
  obtain ⟨rest, name⟩ := begins
  rw [Record.put, expires, addr, ← name, List.drop_left, name]

theorem put_put {v : Offer} (expires : u.expires = v.expires) (addr : u.addr = v.addr) :
    (r.put host v).put host u = r.put host v := put_same ⟨_, rfl⟩ expires addr

end

section
variable {host : Bytes} {r final : Record} {u : Offer}

/-- The last update is written over all that were written before it, and the one ahead of it
does not change it if it is written behind it. -/
def Wins (host : Bytes) (r : Record) (us : List Offer) : Prop :=
  ∃ earlier last, us = earlier ++ [last] ∧ (May host r → r.expires ≤ last.expires) ∧
    (May host (r.put host last) → ∀ u ∈ earlier, u.expires ≤ last.expires) ∧
    ∀ u, earlier.getLast? = some u → (Must host (r.put host last) → u.expires = last.expires) →
      u.expires = last.expires ∧ u.addr = last.addr

/-- Every update is left out, or writes what is there. -/
def Loses (host : Bytes) (r : Record) (us : List Offer) : Prop :=
  Must host r ∧ ∀ u ∈ us, u.expires < r.expires ∨
    (u.expires = r.expires ∧ u.addr = r.addr ∧ host <+: r.name)

theorem write_same (must : Must host r) (behind : Nat → Byte) (loses : u.expires < r.expires ∨
    (u.expires = r.expires ∧ u.addr = r.addr ∧ host <+: r.name)) :
    r.write host behind u = r := by
  rcases loses with earlier | ⟨same, addr, begins⟩
  · exact write_kept (must behind) earlier
  · rw [write_put fun _ => same.ge]
    exact put_same begins same addr

/-- Every record becomes the same one. -/
theorem writes_eq {behinds : Set (Nat → Byte)} (some_ : behinds.Nonempty) {records : Set Record}
    (there : records.Nonempty)
    (each : ∀ c ∈ records, ∀ behind ∈ behinds, c.write host behind u = final) :
    writes host behinds records u = {final} := by
  ext r'
  constructor
  · rintro ⟨c, among, behind, possible, rfl⟩
    exact each c among behind possible
  · rintro rfl
    obtain ⟨behind, possible⟩ := some_
    obtain ⟨c, among⟩ := there
    exact ⟨c, among, behind, possible, (each c among behind possible).symm⟩

variable {behinds : Set (Nat → Byte)}

theorem loses_outcome (some_ : behinds.Nonempty) {calls : List (Call Offer)}
    (loses : Loses host r (own calls)) : outcome (writes host behinds) {r} calls = {r} := by
  obtain ⟨must, each⟩ := loses
  have stays (u : Offer) (there : u ∈ own calls) : writes host behinds {r} u = {r} := by
    refine writes_eq some_ ⟨r, rfl⟩ ?_
    rintro _ rfl behind _
    exact write_same must behind (each u there)
  rcases List.eq_nil_or_concat (own calls) with none_ | ⟨earlier, last, owns⟩
  · exact outcome_none none_
  · rw [List.concat_eq_append] at owns
    rw [owns] at stays
    refine outcome_eq (· = {r}) owns rfl ?_ ?_ ?_
    · rintro u there _ rfl
      exact stays u (List.mem_append_left _ there)
    · rintro _ rfl
      exact stays last (List.mem_append_right _ List.mem_cons_self)
    · intro u there
      exact stays u (List.mem_append_left _ (List.mem_of_getLast? there))

/-- The records before the last update: they have the rest of the name, and the last update is
written over them. -/
def Early (host : Bytes) (r : Record) (last : Offer) (records : Set Record) : Prop :=
  records.Nonempty ∧ ∀ c ∈ records, c.name.drop host.length = r.name.drop host.length ∧
    (May host c → c.expires ≤ last.expires)

/-- The last offer is what the record holds, whatever answers the lock gave. -/
theorem wins_outcome (some_ : behinds.Nonempty) {earlier : List Offer} {last : Offer}
    {calls : List (Call Offer)} (owns : own calls = earlier ++ [last])
    (over_ : May host r → r.expires ≤ last.expires)
    (each : May host (r.put host last) → ∀ u ∈ earlier, u.expires ≤ last.expires)
    (before : ∀ u, earlier.getLast? = some u →
      (Must host (r.put host last) → u.expires = last.expires) →
        u.expires = last.expires ∧ u.addr = last.addr) :
    outcome (writes host behinds) {r} calls = {r.put host last} := by
  refine outcome_eq (Early host r last) owns ⟨⟨r, rfl⟩, ?_⟩ ?_ ?_ ?_
  · rintro _ rfl
    exact ⟨rfl, over_⟩
  · rintro u there records ⟨⟨c, among⟩, early⟩
    obtain ⟨behind, possible⟩ := some_
    refine ⟨⟨_, c, among, behind, possible, rfl⟩, ?_⟩
    rintro _ ⟨c, among, behind, _, rfl⟩
    obtain ⟨base, bound⟩ := early c among
    refine ⟨(base_write c u).trans base, ?_⟩
    rw [Record.write]
    split_ifs with kept
    · exact bound
    · rw [put_congr base u]
      exact fun may => each may u there
  · rintro records ⟨there, early⟩
    refine writes_eq some_ there fun c among behind _ => ?_
    obtain ⟨base, bound⟩ := early c among
    rw [write_put fun guarded => bound ⟨behind, guarded⟩]
    exact put_congr base last
  · intro u there
    refine writes_eq some_ ⟨_, rfl⟩ ?_
    rintro _ rfl behind _
    by_cases kept : Guarded host behind (r.put host last) ∧
        u.expires < (r.put host last).expires
    · exact write_kept kept.1 kept.2
    · rw [Record.write, if_neg kept]
      obtain ⟨expires, addr⟩ := before u there fun must => by
        have below := each ⟨behind, must behind⟩ u (List.mem_of_getLast? there)
        exact below.antisymm (Int.not_lt.mp fun less => kept ⟨must behind, less⟩)
      exact put_put expires addr

/-- What the lock can make of the updates of a host: it is free for the first ones, or for the
last one alone. -/
def Agreed (host : Bytes) (behind : Nat → Byte) (r : Record) (us : List Offer) (final : Record) :
    Prop :=
  (∀ before after, us = before ++ after →
    (before ++ after.getLast?.toList).foldl (Record.write host behind) r = final) ∧
  ∀ before last, us = before ++ [last] →
    (last :: before.getLast?.toList).foldl (Record.write host behind) r = final

/-- When all answers agree, an offer that is older than the record is lost in each of them. -/
theorem loses_of_agreed {earlier : List Offer} {last : Offer}
    (agreed : ∀ behind, Agreed host behind r (earlier ++ [last]) final)
    (must : Must host r) (less : last.expires < r.expires) :
    Loses host r (earlier ++ [last]) := by
  refine ⟨must, fun u there => ?_⟩
  obtain ⟨behind⟩ : Nonempty (Nat → Byte) := ⟨fun _ => 0⟩
  replace agreed := agreed behind
  have guarded := must behind
  have none_written := agreed.1 [] (earlier ++ [last]) rfl
  rw [List.getLast?_concat] at none_written
  have same : r = final := (write_kept guarded less).symm.trans none_written
  subst same
  obtain ⟨before, after, split⟩ := List.append_of_mem there
  have written := agreed.1 (before ++ [u]) after (by rw [split, List.append_assoc]; rfl)
  rw [List.append_assoc, List.foldl_append, List.foldl_append, List.foldl_cons,
    List.foldl_nil] at written
  obtain ⟨guarded', above⟩ := guarded_foldl before guarded
  generalize before.foldl (Record.write host behind) r = mid at written guarded' above
  obtain ⟨guarded'', most⟩ := guarded_write guarded' u
  have below := (guarded_foldl after.getLast?.toList guarded'').2
  rw [written] at below
  have at_most : u.expires ≤ (mid.write host behind u).expires := expires_written mid u
  rcases (at_most.trans below).lt_or_eq with lower | equal
  · exact Or.inl lower
  right
  have put : mid.write host behind u = mid.put host u := by
    refine write_put fun _ => ?_
    have mid_below := most.trans below
    omega
  have rest : (mid.put host u) = r := by
    rw [put] at written
    cases at_end : after.getLast? with
    | none =>
      rw [at_end] at written
      exact written
    | some v =>
      rw [at_end, Option.toList_some, List.foldl_cons, List.foldl_nil] at written
      have is_last : v = last := by
        have ends : (earlier ++ [last]).getLast? = some v := by
          rw [split, List.getLast?_append, List.getLast?_cons, at_end]
          rfl
        rw [List.getLast?_concat] at ends
        exact (Option.some.inj ends).symm
      rw [is_last, write_kept (guarded_put guarded' u) (less.trans_eq equal.symm)] at written
      exact written
  rw [← rest]
  exact ⟨rfl, rfl, _, rfl⟩

/-- When all answers agree on the last offer, no earlier one may outlive it. -/
theorem wins_of_agreed {earlier : List Offer} {last : Offer}
    (agreed : ∀ behind, Agreed host behind r (earlier ++ [last]) final)
    (over_ : Must host r → r.expires ≤ last.expires) : Wins host r (earlier ++ [last]) := by
  have none_written (behind : Nat → Byte) : r.write host behind last = final := by
    have written := (agreed behind).1 [] (earlier ++ [last]) rfl
    rw [List.getLast?_concat] at written
    exact written
  have put : r.put host last = final := by
    obtain ⟨behind, written⟩ : ∃ behind, Guarded host behind r → r.expires ≤ last.expires := by
      by_cases must : Must host r
      · exact ⟨fun _ => 0, fun _ => over_ must⟩
      · obtain ⟨behind, apart⟩ := not_forall.mp must
        exact ⟨behind, fun guarded => absurd guarded apart⟩
    exact (write_put written).symm.trans (none_written behind)
  have first : May host r → r.expires ≤ last.expires := by
    rintro ⟨behind, guarded⟩
    by_contra less
    have kept : r.write host behind last = r := write_kept guarded (Int.not_le.mp less)
    rw [none_written behind, ← put] at kept
    exact less (congrArg Record.expires kept).ge
  have written (behind : Nat → Byte) : r.write host behind last = r.put host last :=
    write_put fun guarded => first ⟨behind, guarded⟩
  refine ⟨earlier, last, rfl, first, ?_, fun u there same => ?_⟩
  · rintro ⟨behind, guarded⟩ u there
    have all_written := (agreed behind).1 (earlier ++ [last]) [] (List.append_nil _).symm
    obtain ⟨before, after, split⟩ := List.append_of_mem (List.mem_append_left [last] there)
    rw [split, List.getLast?_nil, Option.toList_none, List.append_nil, List.foldl_append,
      List.foldl_cons] at all_written
    have base : (before.foldl (Record.write host behind) r).name.drop host.length =
        r.name.drop host.length := base_foldl before r
    generalize before.foldl (Record.write host behind) r = mid at all_written base
    have guarded' : Guarded host behind (mid.write host behind u) := by
      rw [Record.write]
      split_ifs with kept
      · exact kept.1
      · rw [put_congr base u]
        exact guarded
    have above := (guarded_foldl after guarded').2
    rw [all_written, ← put] at above
    exact (expires_written mid u).trans above
  · have behindLast (behind : Nat → Byte) :
        (r.put host last).write host behind u = r.put host last := by
      have ended := (agreed behind).2 earlier last rfl
      rw [there, Option.toList_some, List.foldl_cons, List.foldl_cons, List.foldl_nil,
        written behind, ← put] at ended
      exact ended
    obtain ⟨behind, over_⟩ : ∃ behind, Guarded host behind (r.put host last) →
        (r.put host last).expires ≤ u.expires := by
      by_cases must : Must host (r.put host last)
      · exact ⟨fun _ => 0, fun _ => (same must).ge⟩
      · obtain ⟨behind, apart⟩ := not_forall.mp must
        exact ⟨behind, fun guarded => absurd guarded apart⟩
    have again := behindLast behind
    rw [write_put over_] at again
    exact ⟨(Record.mk.inj again).2.2, (Record.mk.inj again).2.1⟩

theorem decided_of_agreed {us : List Offer} (some_ : us ≠ [])
    (agreed : ∀ behind, Agreed host behind r us final) : Wins host r us ∨ Loses host r us := by
  obtain ⟨earlier, last, rfl⟩ : ∃ earlier last, us = earlier ++ [last] :=
    ⟨_, _, (List.dropLast_append_getLast some_).symm⟩
  by_cases less : Must host r ∧ last.expires < r.expires
  · exact Or.inr (loses_of_agreed agreed less.1 less.2)
  · exact Or.inl (wins_of_agreed agreed fun must =>
      Int.not_lt.mp fun lower => less ⟨must, lower⟩)

end

end DNSRecords
