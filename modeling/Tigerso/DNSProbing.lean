import Mathlib.Data.Int.ConditionallyCompleteOrder
import Tigerso.DNSSoundness
import Tigerso.TimedSearch

/-!
# dns/DNSCache: probing and eviction

The slots that a host can be in, and the one that `DNS2Shared` overwrites.
-/

open SystemCalls CText DNSCache TimedSearch

namespace DNSProbing

/-- The 16-bit words of the digest in their order, up to the first repetition of the first. -/
def probeSlots (md5 : Bytes) : List HashKey :=
  let key := getNextHashkey md5 md5Keysize 0
  key :: ((List.range' 1 7).map (getNextHashkey md5 md5Keysize)).takeWhile (· ≠ key)

section
variable {ι : Type} {w : World ι} {array : HashKey → DNSNode} {host md5 : Bytes}

/-- The slot can be taken: its record has expired, or its name starts with the host. -/
def takes (w : World ι) (array : HashKey → DNSNode) (host : Bytes) (look : Nat)
    (slot : HashKey) : Bool :=
  !isNodeUsed w look (array slot) || sameHost host (array slot)

theorem probeSlots_length_le (md5 : Bytes) : (probeSlots md5).length ≤ 8 := by
  rw [probeSlots, List.length_cons]
  have short := (List.takeWhile_sublist (· ≠ getNextHashkey md5 md5Keysize 0)
    (l := (List.range' 1 7).map (getNextHashkey md5 md5Keysize))).length_le
  rw [List.length_map, List.length_range'] at short
  exact Nat.succ_le_succ short

/-- The slots from the `cnt`-th word on. -/
def slotsFrom (md5 : Bytes) (cnt left : Nat) : List HashKey :=
  getNextHashkey md5 md5Keysize cnt ::
    ((List.range' (cnt + 1) left).map (getNextHashkey md5 md5Keysize)).takeWhile
      (· ≠ getNextHashkey md5 md5Keysize 0)

theorem slotsFrom_next {cnt left : Nat}
    (other : getNextHashkey md5 md5Keysize (cnt + 1) ≠ getNextHashkey md5 md5Keysize 0) :
    slotsFrom md5 cnt (left + 1) =
      getNextHashkey md5 md5Keysize cnt :: slotsFrom md5 (cnt + 1) left := by
  rw [slotsFrom, slotsFrom, List.range'_succ, List.map_cons, List.takeWhile_cons,
    if_pos (decide_eq_true other)]

theorem slotsFrom_back {cnt left : Nat}
    (back : getNextHashkey md5 md5Keysize (cnt + 1) = getNextHashkey md5 md5Keysize 0) :
    slotsFrom md5 cnt left = [getNextHashkey md5 md5Keysize cnt] := by
  cases left with
  | zero => rfl
  | succ left =>
    rw [slotsFrom, List.range'_succ, List.map_cons, List.takeWhile_cons, if_neg]
    simpa using back

/-- The loop of `DNS2Shared` searches the slots, and keeps the oldest one. -/
theorem findRoom_eq (array : HashKey → DNSNode) (host md5 : Bytes) (fuel cnt : Nat)
    (todie : HashKey) (look : Nat) (left : cnt + fuel = 7) :
    findRoom w array host md5 (getNextHashkey md5 md5Keysize 0) (fuel + 1) cnt
        (getNextHashkey md5 md5Keysize cnt) todie look =
      match search (takes w array host) look (slotsFrom md5 cnt fuel) with
      | (some slot, look') => some (slot, look')
      | (none, look') =>
        some ((slotsFrom md5 cnt fuel).foldl (fun todie slot => older array slot todie) todie,
          look') := by
  induction fuel generalizing cnt todie look with
  | zero =>
    have back : getNextHashkey md5 md5Keysize (cnt + 1) = getNextHashkey md5 md5Keysize 0 := by
      obtain rfl : cnt = 7 := left
      exact DNSSoundness.getNextHashkey_back md5
    rw [slotsFrom_back back, findRoom, search, search]
    by_cases here : takes w array host look (getNextHashkey md5 md5Keysize cnt)
    · rw [if_pos here]
      exact if_pos here
    · rw [if_neg here]
      exact (if_neg here).trans (if_pos back)
  | succ fuel ih =>
    rw [findRoom]
    by_cases here : takes w array host look (getNextHashkey md5 md5Keysize cnt)
    · rw [slotsFrom, search, if_pos here]
      exact if_pos here
    · by_cases back : getNextHashkey md5 md5Keysize (cnt + 1) = getNextHashkey md5 md5Keysize 0
      · rw [slotsFrom_back back, search, search, if_neg here]
        exact (if_neg here).trans (if_pos back)
      · rw [slotsFrom_next back, search, if_neg here, List.foldl_cons]
        exact ((if_neg here).trans (if_neg back)).trans (ih _ _ _ (by omega))

/-- The slots that `DNS2Shared` looks at, and the one it chooses: the first one that can be taken
at the look at it, or the first of the oldest ones. -/
inductive Chosen (w : World ι) (s : Cache ι) (host : Bytes) : List HashKey → HashKey → Prop
  | first {passed rest : List HashKey} {slot : HashKey}
      (split : probeSlots (w.md5 host) = passed ++ slot :: rest)
      (passes : Passes (takes w s.array host) s.looks passed)
      (here : takes w s.array host (s.looks + passed.length) slot = true) :
      Chosen w s host (passed ++ [slot]) slot
  | oldest {slot : HashKey}
      (passes : Passes (takes w s.array host) s.looks (probeSlots (w.md5 host)))
      (least : slot ∈ (probeSlots (w.md5 host)).argmin fun slot => (s.array slot).expriedAt) :
      Chosen w s host (probeSlots (w.md5 host)) slot

theorem Chosen.begins {s : Cache ι} {visited : List HashKey} {slot : HashKey}
    (chosen : Chosen w s host visited slot) : visited <+: probeSlots (w.md5 host) := by
  cases chosen with
  | first split =>
    rw [split]
    exact ⟨_, by rw [List.append_assoc, List.singleton_append]⟩
  | oldest => exact List.prefix_rfl

theorem older_self (array : HashKey → DNSNode) (slot : HashKey) : older array slot slot = slot := by
  rw [older, ite_self]

theorem roomFor_eq (w : World ι) (s : Cache ι) (host : Bytes) :
    roomFor w s host =
      match search (takes w s.array host) s.looks (probeSlots (w.md5 host)) with
      | (some slot, look) => some (slot, look)
      | (none, look) =>
        some ((probeSlots (w.md5 host)).foldl (fun todie slot => older s.array slot todie)
          (getNextHashkey (w.md5 host) md5Keysize 0), look) :=
  findRoom_eq s.array host (w.md5 host) 7 0 _ s.looks rfl

theorem chosen_exists (w : World ι) (s : Cache ι) (host : Bytes) :
    ∃ visited slot, Chosen w s host visited slot := by
  cases searched : search (takes w s.array host) s.looks (probeSlots (w.md5 host)) with
  | mk found look =>
    cases found with
    | some slot =>
      obtain ⟨passed, rest, split, passes, here, rfl⟩ := search_some searched
      exact ⟨_, _, .first split passes here⟩
    | none =>
      obtain ⟨passes, rfl⟩ := search_none searched
      exact ⟨_, _, .oldest passes (argmin_cons_eq_foldl _ _ _)⟩

theorem Chosen.mem {s : Cache ι} {visited : List HashKey} {slot : HashKey}
    (chosen : Chosen w s host visited slot) : slot ∈ visited := by
  cases chosen with
  | first => exact List.mem_append_right _ List.mem_cons_self
  | oldest _ least => exact List.argmin_mem least

theorem dns2Shared_eq {s : Cache ι} {ip : Bytes} {ttl : Int} {slot : HashKey} {look : Nat}
    (room : roomFor w s host = some (slot, look)) :
    dns2Shared w s host ip ttl = some { s with
      array := Function.update s.array slot
        (updateNode w (s.array slot) host (w.md5 host) ip ttl look)
      looks := look + 1 } := by
  rw [dns2Shared, room]
  rfl

/-- What is not visited plays no part. -/
theorem Chosen.congr {s : Cache ι} {visited : List HashKey} {slot : HashKey}
    (chosen : Chosen w s host visited slot) {array' : HashKey → DNSNode}
    (same : ∀ v ∈ visited, array' v = s.array v) :
    Chosen w { s with array := array' } host visited slot := by
  have takes_ (v : HashKey) (there : v ∈ visited) (look : Nat) :
      takes w array' host look v = takes w s.array host look v := by
    rw [takes, takes, same v there]
  cases chosen with
  | @first passed rest slot split passes here =>
    refine .first split (fun k v there => ?_) ?_
    · rw [← passes k v there]
      exact takes_ v (List.mem_append_left _ (List.mem_of_getElem? there)) _
    · rw [← here]
      exact takes_ slot (List.mem_append_right _ List.mem_cons_self) _
  | oldest passes least =>
    refine .oldest (fun k v there => ?_) ?_
    · rw [← passes k v there]
      exact takes_ v (List.mem_of_getElem? there) _
    · rw [argmin_congr fun v there => congrArg DNSNode.expriedAt (same v there)]
      exact least

/-- The slot is the one that the loop comes back with. -/
theorem Chosen.roomFor {s : Cache ι} {visited : List HashKey} {slot : HashKey}
    (chosen : Chosen w s host visited slot) :
    roomFor w s host = some (slot, s.looks + visited.length) := by
  have eq := roomFor_eq w s host
  cases chosen with
  | first split passes here =>
    rw [split, search_of_stops passes here] at eq
    rw [eq, List.length_append, List.length_singleton, Nat.add_assoc]
  | oldest passes least =>
    rw [search_of_passes passes] at eq
    have oldest : (probeSlots (w.md5 host)).foldl (fun todie slot => older s.array slot todie)
        (getNextHashkey (w.md5 host) md5Keysize 0) = slot := by
      rw [probeSlots, argmin_cons_eq_foldl] at least
      rw [probeSlots, List.foldl_cons, older_self]
      exact Option.some.inj least
    rw [eq, oldest]

theorem Chosen.unique {s : Cache ι} {visited visited' : List HashKey} {slot slot' : HashKey}
    (chosen : Chosen w s host visited slot) (chosen' : Chosen w s host visited' slot') :
    slot = slot' ∧ visited.length = visited'.length := by
  have room := chosen.roomFor
  rw [chosen'.roomFor] at room
  obtain ⟨same, looks⟩ := Prod.mk.inj (Option.some.inj room)
  exact ⟨same.symm, (Nat.add_left_cancel looks).symm⟩

/-- What is not visited plays no part. -/
theorem roomFor_congr {s other : Cache ι} {visited : List HashKey} {slot : HashKey}
    (chosen : Chosen w s host visited slot) (looks : other.looks = s.looks)
    (same : ∀ v ∈ visited, other.array v = s.array v) :
    DNSCache.roomFor w other host = DNSCache.roomFor w s host := by
  have again : Chosen w { s with array := other.array } host visited slot := chosen.congr same
  rw [chosen.roomFor, ← looks]
  have room := again.roomFor
  rw [← looks] at room
  exact room

/-- A call visits probe slots only, and writes the chosen one alone. -/
theorem probed (w : World ι) (s : Cache ι) (host : Host) (ip : Bytes) (ttl : Int)
    (_ : 0 ≤ ttl) :
    ∃ visited slot s', dns2Shared w s host.bytes ip ttl = some s' ∧
      Chosen w s host.bytes visited slot ∧
      visited <+: probeSlots (w.md5 host.bytes) ∧ visited.length ≤ 8 ∧
      s'.looks = s.looks + visited.length + 1 ∧
      (∀ other : Cache ι, other.looks = s.looks → (∀ v ∈ visited, other.array v = s.array v) →
        ∃ other', dns2Shared w other host.bytes ip ttl = some other' ∧
          other'.array slot = s'.array slot) ∧
      ∀ slot', slot' ≠ slot → s'.array slot' = s.array slot' := by
  obtain ⟨visited, slot, chosen⟩ := chosen_exists w s host.bytes
  have among := chosen.begins
  refine ⟨visited, slot, _, dns2Shared_eq chosen.roomFor, chosen, among,
    among.length_le.trans (probeSlots_length_le _), rfl, ?_, ?_⟩
  · intro other looks same
    have room := (roomFor_congr chosen looks same).trans chosen.roomFor
    refine ⟨_, dns2Shared_eq room, ?_⟩
    dsimp only
    rw [Function.update_self, Function.update_self, same slot chosen.mem]
  · intro slot' distinct
    exact Function.update_of_ne distinct _ _

end

/-- The digest has eight different words, and the clock stands still. -/
def spreadWorld : World Unit where
  md5 := fun _ => [0, 0, 1, 0, 2, 0, 3, 0, 4, 0, 5, 0, 6, 0, 7, 0]
  time := fun _ => 1
  time_pos := fun _ => by decide
  time_mono := fun _ => le_rfl
  behindHost := fun _ _ => 0
  behindAddress := fun _ _ => 0
  sticky := fun _ _ => none

/-- Every slot holds a live record of `b`. Those of the slots 3 and 5 expire first. -/
def liveTable : Cache Unit where
  array := fun slot => { DNSNode.blank with
    host := 98 :: List.replicate (hostMaxlength - 1) 0
    expriedAt := if slot = 3 ∨ slot = 5 then 5 else 9 }
  shmCache := fun _ => []
  looks := 0

/-- All eight slots are looked at, and the record of slot 3 is written over. -/
theorem probed_live : ∃ visited s', dns2Shared spreadWorld liveTable
      DNSSoundness.hostA.bytes DNSSoundness.addressOne.bytes 10 = some s' ∧
    Chosen spreadWorld liveTable DNSSoundness.hostA.bytes visited 3 ∧ visited.length = 8 ∧
    ∀ slot, slot ≠ 3 → s'.array slot = liveTable.array slot := by
  obtain ⟨visited, slot, s', called, chosen, -, -, -, -, others⟩ :=
    probed spreadWorld liveTable DNSSoundness.hostA DNSSoundness.addressOne.bytes 10 (by decide)
  have room : roomFor spreadWorld liveTable DNSSoundness.hostA.bytes = some (3, 8) := by decide
  obtain ⟨rfl, eight⟩ := Prod.mk.inj (Option.some.inj (chosen.roomFor.symm.trans room))
  exact ⟨visited, s', called, chosen, by simpa [liveTable] using eight, others⟩

end DNSProbing
