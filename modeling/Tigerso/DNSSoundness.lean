import Tigerso.DNSCache

/-!
# What the DNS cache answers

Every used slot holds a record that `updateDNS` was given for the stored name, provided
that no name is written over a longer one, and that the clock stands still while a record
goes from a process's own map to the table. A hit is right when the stored name ends where
the asked one does.
-/

open SystemCalls CText DNSCache

namespace DNSSoundness

/-- An `updateDNS`, and the looks at the clock that it took. -/
structure Given where
  host : Host
  ip : Address
  ttl : Int
  first : Nat
  last : Nat

section
variable {ι : Type} {w : World ι}

/-- Some call gave this record, and it is not kept for longer than was asked for. -/
def Backed (w : World ι) (log : List Given) (host : Host) (ip : Address) (expires : Int) : Prop :=
  ∃ g ∈ log, g.host = host ∧ g.ip = ip ∧
    ∃ t, g.first ≤ t ∧ t < g.last ∧ expires ≤ w.time t + g.ttl

/-- A node whose name is stored with a terminator behind it. -/
structure Holds (w : World ι) (log : List Given) (node : DNSNode) (host : Host) (ip : Address) :
    Prop where
  backed : Backed w log host ip node.expriedAt
  name : ∃ rest, node.host = host.bytes ++ 0 :: rest
  address : cString node.addr = ip.bytes

/-- A node that was never written, or that holds a given record. -/
structure Honest (w : World ι) (log : List Given) (node : DNSNode) : Prop where
  size : node.host.length = hostMaxlength
  holds : node = .blank ∨ ∃ host ip, Holds w log node host ip

theorem Backed.mono {log more : List Given} (sub : log ⊆ more) {host : Host} {ip : Address}
    {expires : Int} (backed : Backed w log host ip expires) : Backed w more host ip expires := by
  obtain ⟨g, there, rest⟩ := backed
  exact ⟨g, sub there, rest⟩

theorem honest_blank (log : List Given) : Honest w log .blank :=
  ⟨List.length_replicate, Or.inl rfl⟩

theorem Honest.mono {log more : List Given} (sub : log ⊆ more) {node : DNSNode}
    (honest : Honest w log node) : Honest w more node := by
  obtain ⟨size, rfl | ⟨host, ip, backed, name, address⟩⟩ := honest
  · exact ⟨size, Or.inl rfl⟩
  · exact ⟨size, Or.inr ⟨host, ip, backed.mono sub, name, address⟩⟩

/-- A stored name that begins with the asked one and ends where it does. -/
theorem name_eq {q g : Host} {rest : Bytes}
    (same : (g.bytes ++ 0 :: rest).take q.bytes.length = q.bytes)
    (ends : (g.bytes ++ 0 :: rest)[q.bytes.length]? = some 0) : g = q := by
  have bytes : g.bytes = q.bytes := by
    rcases Nat.lt_trichotomy q.bytes.length g.bytes.length with shorter | equal | longer
    · rw [List.getElem?_append_left shorter] at ends
      exact absurd (List.mem_of_getElem? ends) g.terminated
    · rw [equal, List.take_left] at same
      exact same
    · obtain ⟨k, size⟩ : ∃ k, q.bytes.length = g.bytes.length + (k + 1) :=
        ⟨q.bytes.length - g.bytes.length - 1, by omega⟩
      rw [size, List.take_length_add_append, List.take_succ_cons] at same
      refine absurd ?_ q.terminated
      rw [← same]
      exact List.mem_append_right _ List.mem_cons_self
  cases g
  cases q
  cases bytes
  rfl

/-- The slot of a hit is in use, and its name begins with the asked one. -/
theorem findHit_spec {array : HashKey → DNSNode} {host md5 : Bytes} {key slot : HashKey}
    {look look' : Nat} (fuel cnt : Nat) (start : HashKey)
    (hit : findHit w array host md5 key fuel cnt start look = some (some slot, look')) :
    ∃ t, look ≤ t ∧ t < look' ∧ isNodeUsed w t (array slot) = true ∧
      sameHost host (array slot) = true := by
  induction fuel generalizing cnt start look with
  | zero => exact nomatch hit
  | succ fuel ih =>
    simp only [findHit] at hit
    split_ifs at hit with found back
    · cases hit
      obtain ⟨used, same⟩ := (Bool.and_eq_true _ _).mp found
      exact ⟨look, Nat.le_refl _, Nat.lt_succ_self _, used, same⟩
    · exact nomatch hit
    · obtain ⟨t, after, before, rest⟩ := ih _ _ hit
      exact ⟨t, Nat.le_of_succ_le after, before, rest⟩

theorem findRoom_looks {array : HashKey → DNSNode} {host md5 : Bytes} {key slot : HashKey}
    {look look' : Nat} (fuel cnt : Nat) (start todie : HashKey)
    (room : findRoom w array host md5 key fuel cnt start todie look = some (slot, look')) :
    look < look' := by
  induction fuel generalizing cnt start todie look with
  | zero => exact nomatch room
  | succ fuel ih =>
    simp only [findRoom] at room
    split_ifs at room with free back
    · cases room
      exact Nat.lt_succ_self _
    · cases room
      exact Nat.lt_succ_self _
    · exact Nat.lt_of_succ_lt (ih _ _ _ room)

theorem findHit_looks {array : HashKey → DNSNode} {host md5 : Bytes} {key : HashKey}
    {hit : Option HashKey} {look look' : Nat} (fuel cnt : Nat) (start : HashKey)
    (found : findHit w array host md5 key fuel cnt start look = some (hit, look')) :
    look < look' := by
  induction fuel generalizing cnt start look with
  | zero => exact nomatch found
  | succ fuel ih =>
    simp only [findHit] at found
    split_ifs at found with used back
    · cases found
      exact Nat.lt_succ_self _
    · cases found
      exact Nat.lt_succ_self _
    · exact Nat.lt_of_succ_lt (ih _ _ found)

/-- The ninth fragment lies behind the digest, and the first one is taken. -/
theorem getNextHashkey_back (md5 : Bytes) :
    getNextHashkey md5 md5Keysize 8 = getNextHashkey md5 md5Keysize 0 := rfl

theorem findRoom_returns (array : HashKey → DNSNode) (host md5 : Bytes) (fuel cnt : Nat)
    (start todie : HashKey) (look : Nat) (left : cnt + fuel = probes) (some_left : 0 < fuel) :
    (findRoom w array host md5 (getNextHashkey md5 md5Keysize 0) fuel cnt start todie
      look).isSome = true := by
  induction fuel generalizing cnt start todie look with
  | zero => exact absurd some_left (Nat.lt_irrefl _)
  | succ fuel ih =>
    simp only [findRoom]
    split_ifs with free back
    · rfl
    · rfl
    · refine ih _ _ _ _ (by omega) (Nat.pos_of_ne_zero fun last => back ?_)
      have eighth : cnt + 1 = 8 := by
        subst last
        exact left
      rw [eighth, getNextHashkey_back]

theorem time_le {a b : Nat} (le : a ≤ b) : w.time a ≤ w.time b := by
  induction le with
  | refl => exact Int.le_refl _
  | step _ ih => exact ih.trans (w.time_mono _)

/-- The name covers the one that it is written over. -/
def Covers (host : Bytes) (node : DNSNode) : Prop := ∀ b ∈ node.host.drop host.length, b = 0

/-- A record that is written says what was given, with a name that ends. -/
theorem updateNode_honest {log : List Given} {dst : DNSNode} {host : Host} {ip : Address}
    {ttl : Int} {look : Nat} (honest : Honest w log dst) (covers : Covers host.bytes dst)
    (short : ip.bytes.length < ipv4Addrsize)
    (backed : Backed w log host ip (w.time look + ttl)) (key : Bytes) :
    Honest w log (updateNode w dst host.bytes key ip.bytes ttl look) := by
  rw [updateNode]
  split_ifs
  · exact honest
  have less := host.short
  have size := honest.size
  have length : (dst.host.drop host.bytes.length).length = hostMaxlength - host.bytes.length := by
    rw [List.length_drop, size]
  refine ⟨?_, Or.inr ⟨host, ip, backed, ?_, cString_memoryAt ip.terminated short _⟩⟩
  · rw [List.length_append, length]
    omega
  · unfold Covers at covers
    cases shape : dst.host.drop host.bytes.length with
    | nil =>
      rw [shape, List.length_nil] at length
      omega
    | cons b rest =>
      rw [shape] at covers
      have zero := covers b List.mem_cons_self
      exact ⟨rest, by rw [zero]⟩

/-- An element of a process's own map. -/
structure Kept (w : World ι) (log : List Given) (looks : Nat) (e : Pending) : Prop where
  backed : Backed w log e.host e.ip e.expriedAt
  short : e.ip.bytes.length < ipv4Addrsize
  near : e.expriedAt ≤ w.time looks + 2147483647

theorem Kept.mono {log more : List Given} (sub : log ⊆ more) {a b : Nat} (le : a ≤ b)
    {e : Pending} (kept : Kept w log a e) : Kept w more b e :=
  ⟨kept.backed.mono sub, kept.short, kept.near.trans (Int.add_le_add_right (time_le le) _)⟩

structure Inv (w : World ι) (log : List Given) (s : Cache ι) : Prop where
  nodes : ∀ slot, Honest w log (s.array slot)
  pending : ∀ p, ∀ e ∈ s.shmCache p, Kept w log s.looks e

theorem Inv.mono {log more : List Given} (sub : log ⊆ more) {s : Cache ι} (inv : Inv w log s) :
    Inv w more s :=
  ⟨fun slot => (inv.nodes slot).mono sub, fun p e there => (inv.pending p e there).mono sub
    (Nat.le_refl _)⟩

theorem inv_init : Inv w [] (Cache.init ι) :=
  ⟨fun _ => honest_blank _, fun _ _ there => nomatch there⟩

/-- A look at the clock alone. -/
theorem Inv.looked {log : List Given} {s : Cache ι} (inv : Inv w log s) {looks : Nat}
    (le : s.looks ≤ looks) : Inv w log { s with looks := looks } :=
  ⟨inv.nodes, fun p e there => (inv.pending p e there).mono (List.Subset.refl _) le⟩

theorem dns2Shared_inv {log : List Given} {s s' : Cache ι} {host : Host} {ip : Address}
    {ttl : Int} (inv : Inv w log s) (short : ip.bytes.length < ipv4Addrsize)
    (covers : ∀ slot look, roomFor w s host.bytes = some (slot, look) →
      Covers host.bytes (s.array slot))
    (backed : ∀ slot look, roomFor w s host.bytes = some (slot, look) →
      Backed w log host ip (w.time look + ttl))
    (result : dns2Shared w s host.bytes ip.bytes ttl = some s') : Inv w log s' := by
  obtain ⟨⟨slot, look⟩, room, result⟩ := Option.bind_eq_some_iff.mp result
  cases result
  have later : s.looks ≤ look + 1 :=
    (Nat.le_of_lt (findRoom_looks _ _ _ _ room)).trans (Nat.le_succ _)
  refine ⟨fun slot' => ?_, (inv.looked later).pending⟩
  by_cases same : slot' = slot
  · subst same
    simp only [Function.update_self]
    exact updateNode_honest (inv.nodes _) (covers _ _ room) short (backed _ _ room) _
  · simp only [Function.update_of_ne same]
    exact inv.nodes slot'

/-- The record is stored with the last look of the call. -/
theorem dns2Shared_looks {s s' : Cache ι} {host ip : Bytes} {ttl : Int}
    (result : dns2Shared w s host ip ttl = some s') :
    ∃ slot look, roomFor w s host = some (slot, look) ∧ s.looks ≤ look ∧ s'.looks = look + 1 := by
  obtain ⟨⟨slot, look⟩, room, result⟩ := Option.bind_eq_some_iff.mp result
  cases result
  exact ⟨slot, look, room, Nat.le_of_lt (findRoom_looks _ _ _ _ room), rfl⟩

end

section
variable {ι : Type} [DecidableEq ι] {w : World ι}

/-- The name is written over one that it covers. -/
def Fits (w : World ι) (s : Cache ι) (host : Bytes) : Prop :=
  ∀ slot look, roomFor w s host = some (slot, look) → Covers host (s.array slot)

/-- Each element goes to the table without a change of the clock between the look that
says how long it has left and the one that it is stored with. -/
def Transfers (w : World ι) : List Pending → Cache ι → Prop
  | [], _ => True
  | e :: left, s =>
    let now := w.time s.looks
    let s := { s with looks := s.looks + 1 }
    if now < e.expriedAt then
      Fits w s e.host.bytes ∧
      (∀ slot look, roomFor w s e.host.bytes = some (slot, look) → w.time look = now) ∧
      ∀ s', dns2Shared w s e.host.bytes e.ip.bytes (Int.bmod (e.expriedAt - now) (2 ^ 32)) =
        some s' → Transfers w left s'
    else Transfers w left s

structure UpdateMeets (w : World ι) (s : Cache ι) (p : ι) (host : Host) (ip : Address)
    (ttl : Int) (isLocked : Bool) : Prop where
  short : ip.bytes.length < ipv4Addrsize
  fits : isLocked = true → Fits w s host.bytes
  transfers : isLocked = true → ∀ s', dns2Shared w s host.bytes ip.bytes ttl = some s' →
    Transfers w (s'.shmCache p) s'

structure QueryMeets (w : World ι) (s : Cache ι) (p : ι) (host : Host) (isLocked : Bool) :
    Prop where
  transfers : isLocked = true → Transfers w (s.shmCache p) s
  ends : ∀ s', memory2Shared w s p = some s' → ∀ slot look,
    hitOf w s' host.bytes = some (some slot, look) →
      (s'.array slot).host[host.bytes.length]? = some 0

theorem bmod_near {x : Int} (pos : 0 < x) (near : x ≤ 2147483647) : Int.bmod x (2 ^ 32) = x := by
  rw [Int.bmod_eq_of_le] <;> omega

/-- The records that were put off were given as well. -/
theorem transfer_inv {log : List Given} {p : ι} (left : List Pending) {s s' : Cache ι}
    (inv : Inv w log s) (kept : ∀ e ∈ left, Kept w log s.looks e) (meets : Transfers w left s)
    (result : transfer w p left s = some s') : Inv w log s' := by
  induction left generalizing s with
  | nil =>
    cases result
    refine ⟨inv.nodes, fun q e there => ?_⟩
    by_cases same : q = p
    · subst same
      simp only [Function.update_self] at there
      exact nomatch there
    · simp only [Function.update_of_ne same] at there
      exact inv.pending q e there
  | cons e left ih =>
    have looked := inv.looked (Nat.le_succ s.looks)
    have here := kept e List.mem_cons_self
    simp only [transfer] at result
    simp only [Transfers] at meets
    split_ifs at result meets with alive
    · obtain ⟨fits, still, later⟩ := meets
      obtain ⟨s₁, stored, result⟩ := Option.bind_eq_some_iff.mp result
      have ttl : Int.bmod (e.expriedAt - w.time s.looks) (2 ^ 32) =
          e.expriedAt - w.time s.looks := by
        have near := here.near
        exact bmod_near (by omega) (by omega)
      have inv₁ := dns2Shared_inv looked here.short fits (fun slot look room => ?_) stored
      · obtain ⟨_, look, _, after, last⟩ := dns2Shared_looks stored
        have passed : s.looks ≤ s₁.looks := by
          rw [last]
          exact (Nat.le_succ _).trans (Nat.le_succ_of_le after)
        exact ih inv₁ (fun e' there => (kept e' (List.mem_cons_of_mem _ there)).mono
          (List.Subset.refl _) passed) (later s₁ stored) result
      · rw [ttl, still slot look room, Int.add_comm, Int.sub_add_cancel]
        exact here.backed
    · exact ih looked (fun e' there => (kept e' (List.mem_cons_of_mem _ there)).mono
        (List.Subset.refl _) (Nat.le_succ _)) meets result

theorem transfer_looks {p : ι} (left : List Pending) {s s' : Cache ι}
    (result : transfer w p left s = some s') : s.looks ≤ s'.looks := by
  induction left generalizing s with
  | nil =>
    cases result
    exact Nat.le_refl _
  | cons e left ih =>
    simp only [transfer] at result
    split_ifs at result with alive
    · obtain ⟨s₁, stored, result⟩ := Option.bind_eq_some_iff.mp result
      obtain ⟨_, look, _, after, last⟩ := dns2Shared_looks stored
      have more := ih result
      exact (Nat.le_succ _).trans (after.trans (by omega))
    · exact (Nat.le_succ _).trans (ih result)

theorem memory2Shared_inv {log : List Given} {p : ι} {s s' : Cache ι} (inv : Inv w log s)
    (meets : Transfers w (s.shmCache p) s) (result : memory2Shared w s p = some s') :
    Inv w log s' ∧ s.looks ≤ s'.looks :=
  ⟨transfer_inv _ inv (inv.pending p) meets result, transfer_looks _ result⟩

theorem mem_assign {e e' : Pending} {map : List Pending} (there : e' ∈ assign e map) :
    e' = e ∨ e' ∈ map := by
  induction map with
  | nil => exact Or.inl (List.mem_singleton.mp there)
  | cons first map ih =>
    rw [assign] at there
    split_ifs at there with same before
    · rcases List.mem_cons.mp there with rfl | later
      · exact Or.inl rfl
      · exact Or.inr (List.mem_cons_of_mem _ later)
    · rcases List.mem_cons.mp there with rfl | later
      · exact Or.inl rfl
      · exact Or.inr later
    · rcases List.mem_cons.mp there with rfl | later
      · exact Or.inr List.mem_cons_self
      · rcases ih later with rfl | old
        · exact Or.inl rfl
        · exact Or.inr (List.mem_cons_of_mem _ old)

/-- One call: the table, the maps and the log that now knows of it. -/
theorem updateDNS_inv {log : List Given} {s s' : Cache ι} {p : ι} {host : Host} {ip : Address}
    {ttl : Int} {isLocked : Bool} (int : ttl ≤ 2147483647) (inv : Inv w log s)
    (meets : UpdateMeets w s p host ip ttl isLocked) {ret : Int}
    (call : updateDNS w s p host ip ttl isLocked = some (ret, s')) :
    Inv w (⟨host, ip, ttl, s.looks, s'.looks⟩ :: log) s' := by
  have sub : log ⊆ ⟨host, ip, ttl, s.looks, s'.looks⟩ :: log := List.subset_cons_self _ _
  rw [updateDNS] at call
  split_ifs at call with negative refused
  · cases call
    exact inv.mono sub
  · cases call
    have inv' := (inv.mono sub).looked (Nat.le_succ s.looks)
    refine ⟨inv'.nodes, fun q e there => ?_⟩
    by_cases same : q = p
    · subst same
      simp only [store2Memory, Function.update_self] at there
      rcases mem_assign there with rfl | old
      · have now : w.time s.looks ≤ w.time (s.looks + 1) := w.time_mono _
        refine ⟨⟨_, List.mem_cons_self, rfl, rfl, s.looks, Nat.le_refl _, Nat.lt_succ_self _,
          Int.le_refl _⟩, meets.short, ?_⟩
        show w.time s.looks + ttl ≤ w.time (s.looks + 1) + 2147483647
        omega
      · exact inv'.pending q e old
    · simp only [store2Memory, Function.update_of_ne same] at there
      exact inv'.pending q e there
  · have locked : isLocked = true := by simpa using refused
    obtain ⟨s₁, stored, call⟩ := Option.bind_eq_some_iff.mp call
    obtain ⟨s₂, moved, call⟩ := Option.bind_eq_some_iff.mp call
    cases call
    obtain ⟨slot, look, room, after, last⟩ := dns2Shared_looks stored
    -- the log already holds the call, whose last look is not known before the transfer
    have before (more : s₁.looks ≤ s'.looks) :
        Inv w (⟨host, ip, ttl, s.looks, s'.looks⟩ :: log) s₁ := by
      refine dns2Shared_inv (inv.mono (List.subset_cons_self _ _)) meets.short
        (meets.fits locked) (fun slot' look' room' => ?_) stored
      rw [room] at room'
      cases room'
      exact ⟨_, List.mem_cons_self, rfl, rfl, look, after,
        show look < s'.looks by omega, Int.le_refl _⟩
    have more := transfer_looks _ moved
    exact (memory2Shared_inv (before more) (meets.transfers locked s₁ stored) moved).1

/-- What a run of calls on an empty table reaches, with the updates that were made, when
each call meets its condition. -/
inductive Reached (w : World ι) : Cache ι → List Given → Prop
  | init : Reached w (Cache.init ι) []
  | update {s s' : Cache ι} {log : List Given} {p : ι} {host : Host} {ip : Address} {ttl : Int}
      {isLocked : Bool} {ret : Int} (before : Reached w s log) (int : ttl ≤ 2147483647)
      (meets : UpdateMeets w s p host ip ttl isLocked)
      (call : updateDNS w s p host ip ttl isLocked = some (ret, s')) :
      Reached w s' (⟨host, ip, ttl, s.looks, s'.looks⟩ :: log)
  | query {s s' : Cache ι} {log : List Given} {p : ι} {host : Host} {isLocked : Bool} {ret : Int}
      {copied : Bytes} (before : Reached w s log) (meets : QueryMeets w s p host isLocked)
      (call : queryIP w s p host isLocked = some (ret, copied, s')) : Reached w s' log

/-- A query: the table, and the record behind an answer. -/
theorem queryIP_inv {log : List Given} {s s' : Cache ι} {p : ι} {host : Host} {isLocked : Bool}
    (inv : Inv w log s) (meets : QueryMeets w s p host isLocked) {ret : Int} {copied : Bytes}
    (call : queryIP w s p host isLocked = some (ret, copied, s')) :
    Inv w log s' ∧ (w.sticky p host.bytes = none → ret = 0 →
      ∃ ip expires t, Backed w log host ip expires ∧ cString copied = ip.bytes ∧
        s.looks ≤ t ∧ t < s'.looks ∧ w.time t ≤ expires) := by
  rw [queryIP] at call
  cases sticky : w.sticky p host.bytes with
  | some ip =>
    rw [sticky] at call
    cases call
    exact ⟨inv, nofun⟩
  | none =>
    rw [sticky] at call
    simp only at call
    split_ifs at call with refused
    · cases call
      exact ⟨inv, fun _ zero => absurd zero (by decide)⟩
    have locked : isLocked = true := by simpa using refused
    obtain ⟨s₁, moved, call⟩ := Option.bind_eq_some_iff.mp call
    obtain ⟨⟨hit, look⟩, found, call⟩ := Option.bind_eq_some_iff.mp call
    obtain ⟨inv₁, more⟩ := memory2Shared_inv inv (meets.transfers locked) moved
    have after : s₁.looks ≤ look := Nat.le_of_lt (findHit_looks _ _ _ found)
    cases hit with
    | none =>
      cases call
      exact ⟨inv₁.looked after, fun _ zero => absurd zero (by decide)⟩
    | some slot =>
      cases call
      refine ⟨inv₁.looked after, fun _ _ => ?_⟩
      obtain ⟨t, from_, until_, used, same⟩ := findHit_spec _ _ _ found
      have alive : w.time t ≤ (s₁.array slot).expriedAt := by
        by_contra expired
        rw [isNodeUsed, if_pos (Int.not_le.mp expired)] at used
        exact nomatch used
      rcases (inv₁.nodes slot).holds with blank | ⟨g, ip, backed, ⟨rest, name⟩, address⟩
      · rw [blank] at alive
        exact absurd (w.time_pos t) (Int.not_lt.mpr alive)
      · have ends := meets.ends s₁ moved slot look found
        have begins : (s₁.array slot).host.take host.bytes.length = host.bytes :=
          eq_of_beq same
        rw [name] at ends begins
        rw [name_eq begins ends] at backed
        exact ⟨ip, _, t, backed, address, more.trans from_, until_, alive⟩

theorem Reached.inv {s : Cache ι} {log : List Given} (reached : Reached w s log) :
    Inv w log s := by
  induction reached with
  | init => exact inv_init
  | update _ int meets call ih => exact updateDNS_inv int ih meets call
  | query _ meets call ih => exact (queryIP_inv ih meets call).1

/-- In every run whose calls meet their conditions an answer from the table was given for
exactly the host that is asked for, and was alive at some look of the query. -/
theorem answers_given {s s' : Cache ι} {log : List Given} (reached : Reached w s log) {p : ι}
    {host : Host} {isLocked : Bool} (meets : QueryMeets w s p host isLocked)
    (nonsticky : w.sticky p host.bytes = none) {copied : Bytes}
    (call : queryIP w s p host isLocked = some (0, copied, s')) :
    ∃ g ∈ log, g.host = host ∧ cString copied = g.ip.bytes ∧
      ∃ t, g.first ≤ t ∧ t < g.last ∧
        ∃ now, s.looks ≤ now ∧ now < s'.looks ∧ w.time now ≤ w.time t + g.ttl := by
  obtain ⟨ip, expires, now, backed, copies, after, before, alive⟩ :=
    (queryIP_inv reached.inv meets call).2 nonsticky rfl
  obtain ⟨g, there, host', ip', t, first, last, kept⟩ := backed
  exact ⟨g, there, host', by rw [copies, ip'], t, first, last, now, after, before,
    alive.trans kept⟩

omit [DecidableEq ι] in
theorem dns2Shared_returns (w : World ι) (s : Cache ι) (host ip : Bytes) (ttl : Int) :
    ∃ s', dns2Shared w s host ip ttl = some s' := by
  obtain ⟨⟨slot, look⟩, room⟩ := Option.isSome_iff_exists.mp
    (findRoom_returns (w := w) s.array host (w.md5 host) probes 0 _ _ s.looks rfl (by decide))
  exact ⟨_, by rw [dns2Shared, roomFor, room]; rfl⟩

theorem transfer_returns (w : World ι) (p : ι) (left : List Pending) (s : Cache ι) :
    ∃ s', transfer w p left s = some s' := by
  induction left generalizing s with
  | nil => exact ⟨_, rfl⟩
  | cons e left ih =>
    simp only [transfer]
    split_ifs
    · obtain ⟨s₁, stored⟩ := dns2Shared_returns w { s with looks := s.looks + 1 } e.host.bytes
        e.ip.bytes (Int.bmod (e.expriedAt - w.time s.looks) (2 ^ 32))
      obtain ⟨s₂, moved⟩ := ih s₁
      exact ⟨s₂, by rw [stored]; exact moved⟩
    · exact ih _

theorem updateDNS_returns (w : World ι) (s : Cache ι) (p : ι) (host : Host) (ip : Address)
    (ttl : Int) (isLocked : Bool) :
    ∃ ret s', updateDNS w s p host ip ttl isLocked = some (ret, s') := by
  rw [updateDNS]
  split_ifs
  · exact ⟨_, _, rfl⟩
  · exact ⟨_, _, rfl⟩
  · obtain ⟨s₁, stored⟩ := dns2Shared_returns w s host.bytes ip.bytes ttl
    obtain ⟨s₂, moved⟩ := transfer_returns w p (s₁.shmCache p) s₁
    exact ⟨0, s₂, by rw [stored, Option.bind_eq_bind, Option.bind_some, memory2Shared, moved]; rfl⟩

end

/-- Every digest is the same one, and the clock stands at 1. -/
def collidingWorld : World Unit where
  md5 := fun _ => []
  time := fun _ => 1
  time_pos := fun _ => Int.one_pos
  time_mono := fun _ => Int.le_refl 1
  behindHost := fun _ _ => 0
  behindAddress := fun _ _ => 0
  sticky := fun _ _ => none

def hostA : Host := ⟨[97], by decide, by decide⟩

def hostAB : Host := ⟨[97, 98], by decide, by decide⟩

def addressOne : Address := ⟨[49], by decide⟩

/-- After an update for one host a query for it is answered. -/
theorem answers_given_once : ∃ s s' : Cache Unit, ∃ copied,
    Reached collidingWorld s [⟨hostA, addressOne, 10, 0, 2⟩] ∧
      queryIP collidingWorld s () hostA true = some (0, copied, s') ∧
      cString copied = addressOne.bytes := by
  obtain ⟨s, stored, room⟩ : ∃ s, dns2Shared collidingWorld (Cache.init Unit) hostA.bytes
      addressOne.bytes 10 = some s ∧
        roomFor collidingWorld (Cache.init Unit) hostA.bytes = some (0, 1) := ⟨_, rfl, rfl⟩
  have update : UpdateMeets collidingWorld (Cache.init Unit) () hostA addressOne 10 true := by
    refine ⟨by decide, fun _ slot look found b there => ?_, fun _ s' found => ?_⟩
    · rw [room] at found
      cases found
      exact List.eq_of_mem_replicate (List.mem_of_mem_drop there)
    · cases found
      exact trivial
  have call : updateDNS collidingWorld (Cache.init Unit) () hostA addressOne 10 true =
      some (0, { s with shmCache := Function.update s.shmCache () [] }) := by
    cases stored
    rfl
  have reached := Reached.update .init (by decide) update call
  have query : QueryMeets collidingWorld
      { s with shmCache := Function.update s.shmCache () [] } () hostA true := by
    cases stored
    refine ⟨fun _ => trivial, fun s' moved slot look hit => ?_⟩
    cases moved
    cases hit
    rfl
  obtain ⟨s', copied, answer⟩ : ∃ s' copied, queryIP collidingWorld
      { s with shmCache := Function.update s.shmCache () [] } () hostA true =
        some (0, copied, s') := by
    cases stored
    exact ⟨_, _, rfl⟩
  obtain ⟨g, there, _, copies, _⟩ := answers_given reached query rfl answer
  have looks : s.looks = 2 := by
    cases stored
    rfl
  refine ⟨_, s', copied, ?_, answer, ?_⟩
  · rw [← looks]
    exact reached
  · rw [copies, List.mem_singleton.mp there]

/-- After an update for `ab` alone, its address is the answer for `a`. -/
theorem shorter_name_answered : ∃ s s' : Cache Unit, ∃ ret copied,
    updateDNS collidingWorld (Cache.init Unit) () hostAB addressOne 10 true = some (ret, s) ∧
      queryIP collidingWorld s () hostA true = some (0, copied, s') ∧
      cString copied = addressOne.bytes ∧ hostAB ≠ hostA := by
  refine ⟨_, _, _, _, rfl, rfl, ?_, ?_⟩
  · decide
  · intro same
    exact absurd (congrArg (·.bytes.length) same) (by decide)

end DNSSoundness
