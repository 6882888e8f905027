import Tigerso.DNSReadBack
import Tigerso.DNSRecords

/-!
# dns/DNSCache: updates that wait for the lock

`store2Memory` keeps the last record of a host, and `memory2Shared` writes it behind what was
written meanwhile; `updateNode` keeps the one that expires later.
-/

open SystemCalls CText DNSCache TimedSearch DNSProbing DNSReadBack DeferredWrites DNSRecords

namespace DNSDeferral

def toOffer (e : Pending) : Offer := ⟨e.ip, e.expriedAt⟩

def waiting (host : Bytes) (map : List Pending) : List Offer :=
  (map.filter fun e => e.host.bytes = host).map toOffer

def Sorted (map : List Pending) : Prop := map.Pairwise fun e e' => e.host.bytes < e'.host.bytes

theorem waiting_cons_self (e : Pending) (map : List Pending) :
    waiting e.host.bytes (e :: map) = toOffer e :: waiting e.host.bytes map := by
  rw [waiting, List.filter_cons, if_pos (decide_eq_true rfl)]
  rfl

theorem waiting_cons_other {e : Pending} {host : Bytes} (other : e.host.bytes ≠ host)
    (map : List Pending) : waiting host (e :: map) = waiting host map := by
  rw [waiting, List.filter_cons, if_neg fun same => other (of_decide_eq_true same)]
  rfl

theorem waiting_above {host : Bytes} {map : List Pending}
    (above : ∀ e ∈ map, host < e.host.bytes) : waiting host map = [] := by
  rw [waiting, List.filter_eq_nil_iff.mpr, List.map_nil]
  intro e there same
  have less := above e there
  rw [of_decide_eq_true same] at less
  exact List.lt_irrefl _ less

theorem sorted_assign {e : Pending} {map : List Pending} (sorted : Sorted map) :
    Sorted (assign e map) := by
  induction map with
  | nil => exact List.pairwise_singleton _ _
  | cons e' map ih =>
    obtain ⟨above, rest⟩ := List.pairwise_cons.mp sorted
    rw [assign]
    split_ifs with same before
    · refine List.pairwise_cons.mpr ⟨fun x there => ?_, rest⟩
      rw [same]
      exact above x there
    · refine List.pairwise_cons.mpr ⟨fun x there => ?_, sorted⟩
      rcases List.mem_cons.mp there with rfl | later
      · exact before
      · exact List.lt_trans before (above x later)
    · refine List.pairwise_cons.mpr ⟨fun x there => ?_, ih rest⟩
      rcases DNSSoundness.mem_assign there with rfl | old
      · exact Std.lt_of_le_of_ne before (Ne.symm same)
      · exact above x old

theorem waiting_assign_self {e : Pending} {map : List Pending} (sorted : Sorted map) :
    waiting e.host.bytes (assign e map) = [toOffer e] := by
  induction map with
  | nil => exact waiting_cons_self e []
  | cons e' map ih =>
    obtain ⟨above, rest⟩ := List.pairwise_cons.mp sorted
    rw [assign]
    split_ifs with same before
    · rw [waiting_cons_self, waiting_above fun x there => ?_]
      rw [same]
      exact above x there
    · rw [waiting_cons_self, waiting_above fun x there => ?_]
      rcases List.mem_cons.mp there with rfl | later
      · exact before
      · exact List.lt_trans before (above x later)
    · rw [waiting_cons_other (Ne.symm same), ih rest]

theorem waiting_assign_other {e : Pending} {host : Bytes} (other : e.host.bytes ≠ host)
    (map : List Pending) : waiting host (assign e map) = waiting host map := by
  induction map with
  | nil => exact waiting_cons_other other []
  | cons e' map ih =>
    rw [assign]
    split_ifs with same before
    · rw [waiting_cons_other other, waiting_cons_other (same ▸ other)]
    · rw [waiting_cons_other other]
    · by_cases here : e'.host.bytes = host
      · subst here
        rw [waiting_cons_self, waiting_cons_self, ih]
      · rw [waiting_cons_other here, waiting_cons_other here, ih]

section
variable {ι : Type} {w : World ι} {s s' s'' : Cache ι} {hosts : List Host} {host g : Host}
  {slot : HashKey} {now ttl : Int} {ip : Address} {r : Record}

/-- The table, from a state on: one of the probe slots of the host holds its record, and what
no host is looked for in stays. -/
structure Follows (w : World ι) (hosts : List Host) (s : Cache ι) (now : Int) (host : Host)
    (slot : HashKey) (s' : Cache ι) (r : Record) : Prop where
  looks : s.looks ≤ s'.looks
  content : recordOf (s'.array slot) = r
  place : s'.array slot = s.array slot ∨
    (usedAt now (s'.array slot) = true ∧ sameHost host.bytes (s'.array slot) = true)
  beside : ∀ v ∈ probeSlots (w.md5 host.bytes), v ≠ slot → s'.array v = s.array v
  outside : ∀ v, (∀ h ∈ hosts, v ∉ probeSlots (w.md5 h.bytes)) → s'.array v = s.array v

/-- The slot is chosen at any later look as long as the clock stands still. -/
theorem chosen_moved {visited : List HashKey} (chosen : Chosen w s host.bytes visited slot)
    (still : ∀ t, s.looks ≤ t → w.time t = now) (looks : s.looks ≤ s'.looks)
    (same : ∀ v ∈ visited, s'.array v = s.array v) : Chosen w s' host.bytes visited slot := by
  have takes_ (v : HashKey) (there : v ∈ visited) (k : Nat) :
      takes w s'.array host.bytes (s'.looks + k) v =
        takes w s.array host.bytes (s.looks + k) v := by
    rw [takes_eq (still _ (looks.trans (Nat.le_add_right _ _))),
      takes_eq (still _ (Nat.le_add_right _ _)), takesAt, takesAt, same v there]
  cases chosen with
  | @first passed rest slot split passes here =>
    refine .first split (fun k v there => ?_) ?_
    · rw [takes_ v (List.mem_append_left _ (List.mem_of_getElem? there))]
      exact passes k v there
    · rw [takes_ slot (List.mem_append_right _ List.mem_cons_self)]
      exact here
  | oldest passes least =>
    refine .oldest (fun k v there => ?_) ?_
    · rw [takes_ v (List.mem_of_getElem? there)]
      exact passes k v there
    · rw [argmin_congr fun v there => congrArg DNSNode.expriedAt (same v there)]
      exact least

/-- The same slot is chosen again. -/
theorem Follows.chosen {visited : List HashKey} (follows : Follows w hosts s now host slot s' r)
    (chosen : Chosen w s host.bytes visited slot)
    (still : ∀ t, s.looks ≤ t → w.time t = now) :
    ∃ visited', Chosen w s' host.bytes visited' slot := by
  rcases follows.place with same | ⟨used, named⟩
  · refine ⟨visited, chosen_moved chosen still follows.looks fun v there => ?_⟩
    by_cases eq : v = slot
    · rw [eq, same]
    · exact follows.beside v (chosen.begins.subset there) eq
  · obtain ⟨before, rest, split, ahead⟩ := ahead_of_chosen chosen fun t after _ => still t after
    have time (k : Nat) : w.time (s'.looks + k) = now :=
      still _ (follows.looks.trans (Nat.le_add_right _ _))
    refine ⟨_, .first split (fun k v there => ?_) ?_⟩
    · have among := List.mem_of_getElem? there
      obtain ⟨distinct, not_taken⟩ := ahead v among
      have probed : v ∈ probeSlots (w.md5 host.bytes) := by
        rw [split]
        exact List.mem_append_left _ among
      rw [takes_eq (time k), takesAt, follows.beside v probed distinct]
      exact not_taken
    · rw [takes, named, Bool.or_true]

/-- What `updateNode` makes of the record. -/
theorem recordOf_updateNode {dst : DNSNode} {bytes key : Bytes} {look : Nat}
    (time : w.time look = now) : recordOf (updateNode w dst bytes key ip.bytes ttl look) =
      (recordOf dst).write bytes (w.behindHost look) ⟨ip, now + ttl⟩ := by
  rw [updateNode, time, Record.write]
  dsimp only
  by_cases kept : dst.host.take 8 = memoryAt bytes (w.behindHost look) 8 ∧
      now + ttl < dst.expriedAt
  · have guarded : Guarded bytes (w.behindHost look) (recordOf dst) ∧
        now + ttl < (recordOf dst).expires := kept
    rw [if_pos kept, if_pos guarded]
  · have unguarded : ¬ (Guarded bytes (w.behindHost look) (recordOf dst) ∧
        now + ttl < (recordOf dst).expires) := kept
    rw [if_neg kept, if_neg unguarded, recordOf, cString_memoryAt_eq_take ip.terminated]
    rfl

/-- It leaves the slot or puts a record of the host into it. -/
theorem updateNode_place {dst : DNSNode} {bytes key : Bytes} {look : Nat} (nonneg : 0 ≤ ttl)
    (time : w.time look = now) : updateNode w dst bytes key ip.bytes ttl look = dst ∨
      usedAt now (updateNode w dst bytes key ip.bytes ttl look) = true ∧
        sameHost bytes (updateNode w dst bytes key ip.bytes ttl look) = true := by
  rw [updateNode, time]
  split_ifs
  · exact Or.inl rfl
  · exact Or.inr ⟨decide_eq_true (Int.le_add_of_nonneg_right nonneg), sameHost_begins _ _ _ _ _⟩

/-- A write for the host. -/
theorem Follows.own {visited : List HashKey} (follows : Follows w hosts s now host slot s' r)
    (chosen : Chosen w s host.bytes visited slot)
    (still : ∀ t, s.looks ≤ t → w.time t = now) (named : host ∈ hosts) (nonneg : 0 ≤ ttl)
    (stored : dns2Shared w s' host.bytes ip.bytes ttl = some s'') :
    ∃ look, Follows w hosts s now host slot s''
      (r.write host.bytes (w.behindHost look) ⟨ip, now + ttl⟩) := by
  obtain ⟨visited', chosen'⟩ := follows.chosen chosen still
  rw [dns2Shared_eq chosen'.roomFor] at stored
  cases stored
  have time : w.time (s'.looks + visited'.length) = now :=
    still _ (follows.looks.trans (Nat.le_add_right _ _))
  refine ⟨s'.looks + visited'.length, ?_, ?_, ?_, fun v there distinct => ?_,
    fun v nowhere => ?_⟩
  · exact follows.looks.trans ((Nat.le_add_right _ _).trans (Nat.le_succ _))
  · dsimp only
    rw [Function.update_self, recordOf_updateNode time, follows.content]
  · dsimp only
    rw [Function.update_self]
    rcases updateNode_place nonneg time with same | placed
    · rw [same]
      exact follows.place
    · exact Or.inr placed
  · exact (Function.update_of_ne distinct _ _).trans (follows.beside v there distinct)
  · refine (Function.update_of_ne ?_ _ _).trans (follows.outside v nowhere)
    rintro rfl
    exact nowhere host named (chosen'.begins.subset chosen'.mem)

/-- A write for a host with other probe slots. -/
theorem Follows.other (follows : Follows w hosts s now host slot s' r)
    (there : slot ∈ probeSlots (w.md5 host.bytes)) (named : g ∈ hosts)
    (apart : List.Disjoint (probeSlots (w.md5 g.bytes)) (probeSlots (w.md5 host.bytes)))
    (stored : dns2Shared w s' g.bytes ip.bytes ttl = some s'') :
    Follows w hosts s now host slot s'' r := by
  obtain ⟨visited, taken, chosen⟩ := chosen_exists w s' g.bytes
  rw [dns2Shared_eq chosen.roomFor] at stored
  cases stored
  have unchanged (v : HashKey) (probed : v ∈ probeSlots (w.md5 host.bytes)) :
      Function.update s'.array taken (updateNode w (s'.array taken) g.bytes (w.md5 g.bytes)
        ip.bytes ttl (s'.looks + visited.length)) v = s'.array v := by
    refine Function.update_of_ne ?_ _ _
    rintro rfl
    exact apart (chosen.begins.subset chosen.mem) probed
  refine ⟨?_, ?_, ?_, fun v probed distinct => ?_, fun v nowhere => ?_⟩
  · exact follows.looks.trans ((Nat.le_add_right _ _).trans (Nat.le_succ _))
  · dsimp only
    rw [unchanged slot there]
    exact follows.content
  · dsimp only
    rw [unchanged slot there]
    exact follows.place
  · exact (unchanged v probed).trans (follows.beside v probed distinct)
  · refine (Function.update_of_ne ?_ _ _).trans (follows.outside v nowhere)
    rintro rfl
    exact nowhere g named (chosen.begins.subset chosen.mem)

theorem dns2Shared_shmCache {host ip : Bytes} (stored : dns2Shared w s host ip ttl = some s') :
    s'.shmCache = s.shmCache := by
  obtain ⟨_, _, result⟩ := Option.bind_eq_some_iff.mp stored
  cases result
  rfl

end

structure Update where
  host : Host
  ip : Address
  ttl : Int

section
variable {ι : Type} [DecidableEq ι] (w : World ι) (p : ι)

/-- The calls of `updateDNS`, each with what the lock says. -/
def updateAll : List (Update × Bool) → Cache ι → Option (Cache ι)
  | [], s => some s
  | (u, isLocked) :: calls, s => do
    let (_, s) ← updateDNS w s p u.host u.ip u.ttl isLocked
    updateAll calls s

/-- The calls, and `memory2Shared` with the lock held. -/
def settled (calls : List (Update × Bool)) (s : Cache ι) : Option (Cache ι) := do
  let s ← updateAll w p calls s
  memory2Shared w s p

end

def offers (now : Int) (host : Bytes) (updates : List Update) : List Offer :=
  (updates.filter fun u => u.host.bytes = host).map fun u => ⟨u.ip, now + u.ttl⟩

/-- A call of `updateDNS`, for a host. -/
def callOf (now : Int) (host : Bytes) (call : Update × Bool) : Call Offer :=
  if call.1.host.bytes = host then .own ⟨call.1.ip, now + call.1.ttl⟩ call.2 else .other call.2

theorem own_callOf (now : Int) (host : Bytes) (calls : List (Update × Bool)) :
    own (calls.map (callOf now host)) = offers now host (calls.map Prod.fst) := by
  induction calls with
  | nil => rfl
  | cons call calls ih =>
    rw [List.map_cons, own_cons, ih, List.map_cons, offers, offers, List.filter_cons, callOf]
    by_cases here : call.1.host.bytes = host
    · rw [if_pos here, if_pos (decide_eq_true here)]
      rfl
    · rw [if_neg here, if_neg fun same => here (of_decide_eq_true same)]
      rfl

section
variable {ι : Type} [DecidableEq ι] {w : World ι} {p : ι} {s s' s'' : Cache ι}
  {hosts : List Host} {host : Host} {slot : HashKey} {now : Int} {r : Record}

/-- What a process keeps in its map. -/
structure Mapped (hosts : List Host) (now : Int) (map : List Pending) : Prop where
  sorted : Sorted map
  each : ∀ e ∈ map, e.host ∈ hosts ∧ now < e.expriedAt ∧ e.expriedAt ≤ now + 2147483647

/-- No two hosts are looked for in the same slot. -/
def Apart (w : World ι) (hosts : List Host) : Prop :=
  ∀ g ∈ hosts, ∀ h ∈ hosts, g.bytes ≠ h.bytes →
    List.Disjoint (probeSlots (w.md5 g.bytes)) (probeSlots (w.md5 h.bytes))

/-- The host is followed among the others, from a moment on at which the clock stands still. -/
structure Setting (w : World ι) (hosts : List Host) (s : Cache ι) (now : Int) (host : Host)
    (slot : HashKey) : Prop where
  still : ∀ t, s.looks ≤ t → w.time t = now
  apart : Apart w hosts
  named : host ∈ hosts
  chosen : ∃ visited, Chosen w s host.bytes visited slot

def behinds (w : World ι) : Set (Nat → Byte) := Set.range w.behindHost

omit [DecidableEq ι] in
theorem behinds_nonempty (w : World ι) : (behinds w).Nonempty := ⟨_, 0, rfl⟩

omit [DecidableEq ι] in
theorem Follows.stored (setting : Setting w hosts s now host slot)
    (follows : Follows w hosts s now host slot s' r) {g : Host} {ip : Address} {ttl : Int}
    (named : g ∈ hosts) (nonneg : 0 ≤ ttl)
    (stored : dns2Shared w s' g.bytes ip.bytes ttl = some s'') {records : Set Record}
    (among : r ∈ records) :
    ∃ r' ∈ (if g.bytes = host.bytes then writes host.bytes (behinds w) records ⟨ip, now + ttl⟩
      else records), Follows w hosts s now host slot s'' r' := by
  obtain ⟨visited, chosen⟩ := setting.chosen
  split_ifs with same
  · rw [same] at stored
    obtain ⟨look, written⟩ := follows.own chosen setting.still setting.named nonneg stored
    exact ⟨_, ⟨r, among, _, ⟨look, rfl⟩, rfl⟩, written⟩
  · exact ⟨r, among, follows.other (chosen.begins.subset chosen.mem) named
      (setting.apart g named host setting.named same) stored⟩

/-- Writing what was put off follows the updates of the host in their order. -/
theorem Follows.transfer (setting : Setting w hosts s now host slot) (map : List Pending)
    (each : ∀ e ∈ map, e.host ∈ hosts ∧ now < e.expriedAt ∧ e.expriedAt ≤ now + 2147483647)
    {s' : Cache ι} {r : Record} (follows : Follows w hosts s now host slot s' r)
    {records : Set Record} (among : r ∈ records)
    (moved : transfer w p map s' = some s'') :
    (∃ r' ∈ (waiting host.bytes map).foldl (writes host.bytes (behinds w)) records,
      Follows w hosts s now host slot s'' r') ∧ s''.shmCache p = [] := by
  induction map generalizing s' r records with
  | nil =>
    cases moved
    exact ⟨⟨r, among, follows.looks, follows.content, follows.place, follows.beside,
      follows.outside⟩, Function.update_self _ _ _⟩
  | cons e map ih =>
    obtain ⟨named, alive, near⟩ := each e List.mem_cons_self
    have rest := fun x there => each x (List.mem_cons_of_mem e there)
    have looked : Follows w hosts s now host slot { s' with looks := s'.looks + 1 } r :=
      ⟨follows.looks.trans (Nat.le_succ _), follows.content, follows.place, follows.beside,
        follows.outside⟩
    rw [DNSCache.transfer, setting.still _ follows.looks, if_pos alive,
      DNSSoundness.bmod_near (by omega) (by omega)] at moved
    obtain ⟨s₁, stored, moved⟩ := Option.bind_eq_some_iff.mp moved
    obtain ⟨r₁, among₁, written⟩ := looked.stored setting named (by omega) stored among
    rw [add_sub_cancel] at among₁
    split_ifs at among₁ with same
    · rw [← same, waiting_cons_self, same]
      exact ih rest written among₁ moved
    · rw [waiting_cons_other same]
      exact ih rest written among₁ moved

/-- The table and the map, beside the cell of a host: the record is one of those that it can be. -/
structure Tracks (w : World ι) (p : ι) (hosts : List Host) (s : Cache ι) (now : Int)
    (host : Host) (slot : HashKey) (s' : Cache ι) (cell : Cell (Set Record) Offer) : Prop where
  follows : ∃ r ∈ cell.content, Follows w hosts s now host slot s' r
  waits : waiting host.bytes (s'.shmCache p) = cell.pending.toList
  mapped : Mapped hosts now (s'.shmCache p)

theorem Tracks.flushed (setting : Setting w hosts s now host slot)
    {cell : Cell (Set Record) Offer} (tracks : Tracks w p hosts s now host slot s' cell)
    (moved : memory2Shared w s' p = some s'') :
    Tracks w p hosts s now host slot s'' (flush (writes host.bytes (behinds w)) cell) := by
  obtain ⟨r, among, follows⟩ := tracks.follows
  obtain ⟨follows, emptied⟩ := follows.transfer setting _ tracks.mapped.each among moved
  rw [tracks.waits] at follows
  refine ⟨follows, ?_, ?_⟩
  · rw [emptied]
    rfl
  · rw [emptied]
    exact ⟨.nil, nofun⟩

/-- A call for any of the hosts is a step of the cell that stands for the slot. -/
theorem Tracks.update (setting : Setting w hosts s now host slot)
    {cell : Cell (Set Record) Offer} (tracks : Tracks w p hosts s now host slot s' cell)
    {u : Update} {isLocked : Bool} {ret : Int}
    (named : u.host ∈ hosts) (positive : 0 < u.ttl) (int : u.ttl ≤ 2147483647)
    (called : updateDNS w s' p u.host u.ip u.ttl isLocked = some (ret, s'')) :
    Tracks w p hosts s now host slot s''
      (step (writes host.bytes (behinds w)) cell (callOf now host.bytes (u, isLocked))) := by
  obtain ⟨r, among, follows⟩ := tracks.follows
  rw [updateDNS, if_neg (by omega)] at called
  cases isLocked with
  | false =>
    rw [if_pos (by decide)] at called
    cases called
    have map : (store2Memory w s' p u.host u.ip u.ttl).shmCache p =
        assign ⟨u.host, u.ip, now + u.ttl⟩ (s'.shmCache p) := by
      rw [store2Memory, setting.still _ follows.looks]
      exact Function.update_self _ _ _
    have looked : Follows w hosts s now host slot (store2Memory w s' p u.host u.ip u.ttl) r :=
      ⟨follows.looks.trans (Nat.le_succ _), follows.content, follows.place, follows.beside,
        follows.outside⟩
    have mapped : Mapped hosts now ((store2Memory w s' p u.host u.ip u.ttl).shmCache p) := by
      rw [map]
      refine ⟨sorted_assign tracks.mapped.sorted, fun e there => ?_⟩
      rcases DNSSoundness.mem_assign there with rfl | old
      · exact ⟨named, by dsimp only; omega, by dsimp only; omega⟩
      · exact tracks.mapped.each e old
    rw [callOf]
    split_ifs with same
    · refine ⟨⟨r, among, looked⟩, ?_, mapped⟩
      dsimp only at same
      rw [map, ← same]
      exact waiting_assign_self (e := ⟨u.host, u.ip, now + u.ttl⟩) tracks.mapped.sorted
    · refine ⟨⟨r, among, looked⟩, ?_, mapped⟩
      rw [map]
      exact (waiting_assign_other same _).trans tracks.waits
  | true =>
    rw [if_neg (by decide)] at called
    obtain ⟨s₁, stored, called⟩ := Option.bind_eq_some_iff.mp called
    obtain ⟨s₂, moved, called⟩ := Option.bind_eq_some_iff.mp called
    cases called
    have maps := dns2Shared_shmCache stored
    have written := follows.stored setting named positive.le stored among
    rw [callOf]
    have tracks₁ : Tracks w p hosts s now host slot s₁ ⟨if u.host.bytes = host.bytes then
        writes host.bytes (behinds w) cell.content ⟨u.ip, now + u.ttl⟩ else cell.content,
        cell.pending⟩ := by
      refine ⟨written, ?_, ?_⟩
      · rw [maps]
        exact tracks.waits
      · rw [maps]
        exact tracks.mapped
    have flushed := tracks₁.flushed setting moved
    split_ifs with same
    · rw [if_pos same] at flushed
      exact flushed
    · rw [if_neg same] at flushed
      exact flushed

theorem Tracks.run (setting : Setting w hosts s now host slot) (calls : List (Update × Bool))
    (each : ∀ call ∈ calls, call.1.host ∈ hosts ∧ 0 < call.1.ttl ∧ call.1.ttl ≤ 2147483647)
    {s' : Cache ι} {cell : Cell (Set Record) Offer}
    (tracks : Tracks w p hosts s now host slot s' cell)
    (called : updateAll w p calls s' = some s'') :
    Tracks w p hosts s now host slot s''
      ((calls.map (callOf now host.bytes)).foldl (step (writes host.bytes (behinds w))) cell) := by
  induction calls generalizing s' cell with
  | nil =>
    cases called
    exact tracks
  | cons call calls ih =>
    obtain ⟨named, positive, int⟩ := each call List.mem_cons_self
    rw [updateAll] at called
    obtain ⟨⟨ret, s₁⟩, updated, called⟩ := Option.bind_eq_some_iff.mp called
    rw [List.map_cons, List.foldl_cons]
    exact ih (fun x there => each x (List.mem_cons_of_mem _ there))
      (tracks.update setting named positive int updated) called

/-- The record of a host at the end. -/
theorem settled_record (setting : Setting w hosts s now host slot)
    (none_pending : s.shmCache p = []) {calls : List (Update × Bool)}
    (each : ∀ call ∈ calls, call.1.host ∈ hosts ∧ 0 < call.1.ttl ∧ call.1.ttl ≤ 2147483647)
    (done : settled w p calls s = some s') :
    ∃ r ∈ outcome (writes host.bytes (behinds w)) {recordOf (s.array slot)}
      (calls.map (callOf now host.bytes)), Follows w hosts s now host slot s' r := by
  have begins : Tracks w p hosts s now host slot s ⟨{recordOf (s.array slot)}, none⟩ := by
    refine ⟨⟨_, rfl, Nat.le_refl _, rfl, Or.inl rfl, fun _ _ _ => rfl, fun _ _ => rfl⟩, ?_, ?_⟩
    · rw [none_pending]
      rfl
    · rw [none_pending]
      exact ⟨.nil, nofun⟩
  obtain ⟨s₁, called, moved⟩ := Option.bind_eq_some_iff.mp done
  exact ((begins.run setting calls each called).flushed setting moved).follows

theorem settled_returns (w : World ι) (p : ι) (calls : List (Update × Bool)) (s : Cache ι) :
    ∃ s', settled w p calls s = some s' := by
  suffices all : ∃ s', updateAll w p calls s = some s' by
    obtain ⟨s₁, called⟩ := all
    obtain ⟨s₂, moved⟩ := DNSSoundness.transfer_returns w p (s₁.shmCache p) s₁
    exact ⟨s₂, Option.bind_eq_some_iff.mpr ⟨s₁, called, moved⟩⟩
  induction calls generalizing s with
  | nil => exact ⟨s, rfl⟩
  | cons call calls ih =>
    obtain ⟨ret, s₁, updated⟩ := DNSSoundness.updateDNS_returns w s p call.1.host call.1.ip
      call.1.ttl call.2
    obtain ⟨s₂, called⟩ := ih s₁
    exact ⟨s₂, Option.bind_eq_some_iff.mpr ⟨(ret, s₁), updated, called⟩⟩

theorem settled_nothing (none_pending : s.shmCache p = []) (done : settled w p [] s = some s') :
    s'.array = s.array := by
  have moved : memory2Shared w s p = some s' := done
  rw [memory2Shared, none_pending] at moved
  cases moved
  rfl

/-- The tables hold the same records. -/
def Same (f f' : Cache ι) : Prop :=
  ∀ slot, recordOf (f.array slot) = recordOf (f'.array slot)

/-- What is found outside, with these bytes behind the hosts. -/
def withBehind (w : World ι) (behind : Nat → Nat → Byte) : World ι :=
  { w with behindHost := behind }

/-- Calls with the same updates that find the lock free or not in different places. The host that
waits in the map is a copy: other bytes lie behind it than behind that of the caller. -/
def LockFree (w : World ι) (p : ι) (s : Cache ι) (updates : List Update) : Prop :=
  ∀ behind behind' calls calls', calls.map Prod.fst = updates → calls'.map Prod.fst = updates →
    ∀ f f', settled (withBehind w behind) p calls s = some f →
      settled (withBehind w behind') p calls' s = some f' → Same f f'

omit [DecidableEq ι] in
/-- The slots do not depend on what lies behind a host. -/
theorem chosen_behind {bytes : Bytes} {visited : List HashKey}
    (chosen : Chosen w s bytes visited slot) (behind : Nat → Nat → Byte) :
    Chosen (withBehind w behind) s bytes visited slot := by
  cases chosen with
  | first split passes here => exact .first split passes here
  | oldest passes least => exact .oldest passes least

omit [DecidableEq ι] in
theorem behinds_const (w : World ι) (behind : Nat → Byte) :
    behinds (withBehind w fun _ => behind) = {behind} := Set.range_const

omit [DecidableEq ι] in
/-- Two runs differ in the records of the hosts alone. -/
theorem same_of_records {w' : World ι} (digests : w'.md5 = w.md5) {updates : List Update}
    {f f' : Cache ι}
    (each : ∀ u ∈ updates, ∃ slot r, Follows w (updates.map Update.host) s now u.host slot f r ∧
      Follows w' (updates.map Update.host) s now u.host slot f' r)
    (some_ : updates ≠ []) : Same f f' := by
  intro v
  by_cases probed : ∃ u ∈ updates, v ∈ probeSlots (w.md5 u.host.bytes)
  · obtain ⟨u, there, among⟩ := probed
    obtain ⟨slot, r, follows, follows'⟩ := each u there
    have among' : v ∈ probeSlots (w'.md5 u.host.bytes) := by
      rw [digests]
      exact among
    by_cases eq : v = slot
    · rw [eq, follows.content, follows'.content]
    · rw [follows.beside v among eq, follows'.beside v among' eq]
  · obtain ⟨u, there⟩ := List.exists_mem_of_ne_nil _ some_
    obtain ⟨slot, r, follows, follows'⟩ := each u there
    have nowhere : ∀ h ∈ updates.map Update.host, v ∉ probeSlots (w.md5 h.bytes) := by
      intro h named among
      obtain ⟨u', there', rfl⟩ := List.mem_map.mp named
      exact probed ⟨u', there', among⟩
    have nowhere' : ∀ h ∈ updates.map Update.host, v ∉ probeSlots (w'.md5 h.bytes) := by
      rw [digests]
      exact nowhere
    rw [follows.outside v nowhere, follows'.outside v nowhere']

def choose (isLocked : Bool) (updates : List Update) : List (Update × Bool) :=
  updates.map fun u => (u, isLocked)

theorem choose_fst (isLocked : Bool) (updates : List Update) :
    (choose isLocked updates).map Prod.fst = updates := by
  rw [choose, List.map_map]
  exact List.map_id updates

theorem own_choose (isLocked : Bool) (now : Int) (host : Bytes) (updates : List Update) :
    own ((choose isLocked updates).map (callOf now host)) = offers now host updates := by
  rw [own_callOf, choose_fst]

theorem callOf_locked (now : Int) (host : Bytes) (call : Update × Bool) :
    (callOf now host call).locked = call.2 := by
  rw [callOf]
  split_ifs <;> rfl

theorem choose_locked (isLocked : Bool) (now : Int) (host : Bytes) (updates : List Update) :
    ∀ call ∈ (choose isLocked updates).map (callOf now host), call.locked = isLocked := by
  intro call there
  obtain ⟨chosen, among, rfl⟩ := List.mem_map.mp there
  obtain ⟨u, _, rfl⟩ := List.mem_map.mp among
  exact callOf_locked now host _

theorem offers_append (now : Int) (host : Bytes) (us more : List Update) :
    offers now host (us ++ more) = offers now host us ++ offers now host more := by
  rw [offers, List.filter_append, List.map_append]
  rfl

theorem offers_split {now : Int} {host : Bytes} {us : List Update} {before after : List Offer}
    (split : offers now host us = before ++ after) :
    ∃ first rest, us = first ++ rest ∧ offers now host first = before ∧
      offers now host rest = after := by
  obtain ⟨_, _, filtered, rfl, rfl⟩ := List.map_eq_append_iff.mp split
  obtain ⟨first, rest, rfl, rfl, rfl⟩ := List.filter_eq_append_iff.mp filtered
  exact ⟨first, rest, rfl, rfl, rfl⟩

theorem offers_concat {now : Int} {host : Bytes} {us : List Update} {before : List Offer}
    {last : Offer} (split : offers now host us = before ++ [last]) :
    ∃ first u rest, us = first ++ u :: rest ∧ offers now host first = before ∧
      u.host.bytes = host ∧ last = ⟨u.ip, now + u.ttl⟩ ∧ offers now host rest = [] := by
  obtain ⟨first, rest, rfl, rfl, single⟩ := offers_split split
  obtain ⟨u, filtered, rfl⟩ := List.map_eq_singleton_iff.mp single
  obtain ⟨quiet, after, rfl, none_own, here, after_filtered⟩ :=
    List.filter_eq_cons_iff.mp filtered
  have quiet_offers : offers now host quiet = [] := by
    rw [offers, List.filter_eq_nil_iff.mpr none_own, List.map_nil]
  refine ⟨first ++ quiet, u, after, (List.append_assoc _ _ _).symm, ?_, of_decide_eq_true here,
    rfl, ?_⟩
  · rw [offers_append, quiet_offers, List.append_nil]
  · rw [offers, after_filtered, List.map_nil]

/-- What the lock can make of a host's record, where all runs end alike. -/
theorem agreed_of_same {updates : List Update} {host : Bytes} {r final : Record}
    {behind : Nat → Byte} (same : ∀ calls : List (Update × Bool), calls.map Prod.fst = updates →
      outcome (Record.write host behind) r (calls.map (callOf now host)) = final) :
    Agreed host behind r (offers now host updates) final := by
  constructor
  · intro before after split
    obtain ⟨first, rest, rfl, rfl, rfl⟩ := offers_split split
    have chosen := same (choose true first ++ choose false rest)
      (by rw [List.map_append, choose_fst, choose_fst])
    rw [List.map_append, outcome_locked_first (choose_locked true now host first)
      (choose_locked false now host rest), own_choose, own_choose] at chosen
    exact chosen
  · intro before last split
    obtain ⟨first, u, rest, rfl, rfl, here, rfl, nothing⟩ := offers_concat split
    have chosen := same (choose false first ++ (u, true) :: choose false rest)
      (by rw [List.map_append, List.map_cons, choose_fst, choose_fst])
    have call : callOf now host (u, true) = .own ⟨u.ip, now + u.ttl⟩ true := if_pos here
    rw [List.map_append, List.map_cons, call,
      outcome_locked_once (choose_locked false now host first)
        (choose_locked false now host rest), own_choose, own_choose, nothing, List.getLast?_nil,
      Option.toList_none, List.append_nil] at chosen
    exact chosen

/-- The record of a host at the end, when the same bytes lie behind the host in every call. -/
theorem settled_outcome {behind : Nat → Byte}
    (setting : Setting (withBehind w fun _ => behind) hosts s now host slot)
    (none_pending : s.shmCache p = []) {calls : List (Update × Bool)}
    (each : ∀ call ∈ calls, call.1.host ∈ hosts ∧ 0 < call.1.ttl ∧ call.1.ttl ≤ 2147483647)
    (done : settled (withBehind w fun _ => behind) p calls s = some s') :
    recordOf (s'.array slot) = outcome (Record.write host.bytes behind)
      (recordOf (s.array slot)) (calls.map (callOf now host.bytes)) := by
  obtain ⟨r, among, follows⟩ := settled_record setting none_pending each done
  have respects (r : Record) (u : Offer) : writes host.bytes {behind} {r} u =
      {r.write host.bytes behind u} := writes_singleton r u
  rw [behinds_const, outcome_map ({·}) respects] at among
  exact follows.content.trans among

/-- It makes no difference when the lock is free exactly where this is so for every host. -/
theorem lock_choices {updates : List Update} (none_pending : s.shmCache p = [])
    (still : ∀ t, s.looks ≤ t → w.time t = now)
    (each : ∀ u ∈ updates, 0 < u.ttl ∧ u.ttl ≤ 2147483647)
    (apart : Apart w (updates.map Update.host)) :
    LockFree w p s updates ↔
      ∀ u ∈ updates, ∀ visited slot, Chosen w s u.host.bytes visited slot →
        Wins u.host.bytes (recordOf (s.array slot)) (offers now u.host.bytes updates) ∨
          Loses u.host.bytes (recordOf (s.array slot)) (offers now u.host.bytes updates) := by
  have setting (u : Update) (there : u ∈ updates) {visited : List HashKey} {slot : HashKey}
      (chosen : Chosen w s u.host.bytes visited slot) (behind : Nat → Nat → Byte) :
      Setting (withBehind w behind) (updates.map Update.host) s now u.host slot :=
    ⟨still, apart, List.mem_map_of_mem there, visited, chosen_behind chosen behind⟩
  have valid {calls : List (Update × Bool)} (same : calls.map Prod.fst = updates) :
      ∀ call ∈ calls, call.1.host ∈ updates.map Update.host ∧ 0 < call.1.ttl ∧
        call.1.ttl ≤ 2147483647 := by
    intro call there
    have among : call.1 ∈ updates := same ▸ List.mem_map_of_mem there
    exact ⟨List.mem_map_of_mem among, each _ among⟩
  constructor
  · intro free u there visited slot chosen
    obtain ⟨f, done⟩ := settled_returns (withBehind w fun _ _ => 0) p (choose false updates) s
    have offered : (⟨u.ip, now + u.ttl⟩ : Offer) ∈ offers now u.host.bytes updates :=
      List.mem_map.mpr ⟨u, List.mem_filter.mpr ⟨there, decide_eq_true rfl⟩, rfl⟩
    have some_ := List.ne_nil_of_mem offered
    refine @decided_of_agreed _ _ (recordOf (f.array slot)) _ some_ fun behind =>
      agreed_of_same fun calls same => ?_
    obtain ⟨f', done'⟩ := settled_returns (withBehind w fun _ => behind) p calls s
    have ends := settled_outcome (setting u there chosen _) none_pending (valid same) done'
    rw [← ends]
    exact free _ _ calls _ same (choose_fst false updates) f' f done' done slot
  · intro decided behind behind' calls calls' same same' f f' done done'
    rcases updates.eq_nil_or_concat with rfl | ⟨_, _, shape⟩
    · obtain rfl := List.map_eq_nil_iff.mp same
      obtain rfl := List.map_eq_nil_iff.mp same'
      intro slot
      rw [settled_nothing none_pending done, settled_nothing none_pending done']
    · have records : ∀ u ∈ updates, ∃ slot r,
          Follows (withBehind w behind) (updates.map Update.host) s now u.host slot f r ∧
            Follows (withBehind w behind') (updates.map Update.host) s now u.host slot f' r := by
        intro u there
        obtain ⟨visited, slot, chosen⟩ := chosen_exists w s u.host.bytes
        obtain ⟨r, among, ends⟩ :=
          settled_record (setting u there chosen behind) none_pending (valid same) done
        obtain ⟨r', among', ends'⟩ :=
          settled_record (setting u there chosen behind') none_pending (valid same') done'
        have some_ := behinds_nonempty (withBehind w behind)
        have some_' := behinds_nonempty (withBehind w behind')
        have owns := own_callOf now u.host.bytes calls
        have owns' := own_callOf now u.host.bytes calls'
        rw [same] at owns
        rw [same'] at owns'
        rcases decided u there visited slot chosen with
          ⟨earlier, last, split, over_, most, before⟩ | loses
        · rw [split] at owns owns'
          rw [wins_outcome some_ owns over_ most before] at among
          rw [wins_outcome some_' owns' over_ most before] at among'
          cases among
          cases among'
          exact ⟨slot, _, ends, ends'⟩
        · rw [loses_outcome some_ (owns ▸ loses)] at among
          rw [loses_outcome some_' (owns' ▸ loses)] at among'
          cases among
          cases among'
          exact ⟨slot, _, ends, ends'⟩
      have digests : (withBehind w behind').md5 = (withBehind w behind).md5 := rfl
      refine same_of_records digests records ?_
      rw [shape, List.concat_eq_append]
      exact List.concat_ne_nil _ _

end

def longer : Update := ⟨hostCom, DNSSoundness.addressOne, 100⟩

def shorter : Update := ⟨hostCom, DNSSoundness.addressOne, 50⟩

/-- The record that comes last expires last. -/
theorem lock_choices_rising : LockFree DNSSoundness.collidingWorld () (.init Unit)
    [shorter, longer] := by
  have one_host : ∀ u ∈ [shorter, longer], u.host = hostCom := by simp [shorter, longer]
  have still : ∀ t, (Cache.init Unit).looks ≤ t → DNSSoundness.collidingWorld.time t = 1 :=
    fun _ _ => rfl
  refine (lock_choices rfl still (by decide) ?_).mpr ?_
  · rintro g there h there' distinct
    obtain ⟨u, among, rfl⟩ := List.mem_map.mp there
    obtain ⟨u', among', rfl⟩ := List.mem_map.mp there'
    rw [one_host u among, one_host u' among'] at distinct
    exact absurd rfl distinct
  · intro u there visited slot chosen
    rw [one_host u there]
    refine Or.inl ⟨[⟨shorter.ip, 51⟩], ⟨longer.ip, 101⟩, rfl, ?_, fun _ u earlier => ?_, ?_⟩
    · rintro ⟨behind, guarded⟩
      have begins := (guarded_long (by decide)).mp guarded
      exact absurd begins (by decide : ¬ (recordOf .blank).name.take 8 = hostCom.bytes.take 8)
    · rw [List.mem_singleton.mp earlier]
      decide
    · intro u earlier same
      rw [← Option.some.inj earlier] at same
      have begins : ((recordOf .blank).put hostCom.bytes ⟨longer.ip, 101⟩).name.take 8 =
          hostCom.bytes.take 8 := by decide
      exact absurd (same fun behind => (guarded_long (by decide)).mpr begins) (by decide)

/-- With the lock the record that expires later stays; without it the last one is left. -/
theorem lock_matters : (∃ f f' : Cache Unit,
    settled DNSSoundness.collidingWorld () [(longer, true), (shorter, true)] (.init Unit) =
      some f ∧
    settled DNSSoundness.collidingWorld () [(longer, false), (shorter, false)] (.init Unit) =
      some f' ∧
    (f.array 0).expriedAt = 101 ∧ (f'.array 0).expriedAt = 51) ∧
    ¬ LockFree DNSSoundness.collidingWorld () (.init Unit) [longer, shorter] := by
  obtain ⟨f, f', done, done', late, early⟩ : ∃ f f' : Cache Unit,
      settled DNSSoundness.collidingWorld () [(longer, true), (shorter, true)] (.init Unit) =
        some f ∧
      settled DNSSoundness.collidingWorld () [(longer, false), (shorter, false)] (.init Unit) =
        some f' ∧
      (f.array 0).expriedAt = 101 ∧ (f'.array 0).expriedAt = 51 := by
    refine ⟨_, _, rfl, rfl, ?_, ?_⟩
    · decide
    · decide
  refine ⟨⟨f, f', done, done', late, early⟩, fun free => ?_⟩
  have same := free DNSSoundness.collidingWorld.behindHost DNSSoundness.collidingWorld.behindHost
    [(longer, true), (shorter, true)] [(longer, false), (shorter, false)] rfl rfl f f' done done' 0
  have expires := congrArg Record.expires same
  rw [recordOf, recordOf, late, early] at expires
  exact absurd expires (show ¬ (101 : Int) = 51 by decide)

end DNSDeferral
