import Tigerso.CText

/-!
# dns/DNSCache: the shared table of addresses

The table is probed at the 16-bit fragments of the host's MD5. Names are stored without
a terminator and compared as far as the asked name goes. A process that does not get the
lock keeps its records in a map of its own until it does.
-/

open SystemCalls CText

namespace DNSCache

def md5Keysize : Nat := 16
def ipv4Addrsize : Nat := 16
def hostMaxlength : Nat := 256

abbrev HashKey := UInt16

structure DNSNode where
  host : Bytes
  key : Bytes
  addr : Bytes
  expriedAt : Int
  deriving DecidableEq

def DNSNode.blank : DNSNode :=
  ⟨List.replicate hostMaxlength 0, List.replicate md5Keysize 0,
    List.replicate ipv4Addrsize 0, 0⟩

/-- A host name as the callers pass it. -/
structure Host where
  bytes : Bytes
  terminated : 0 ∉ bytes
  short : bytes.length < hostMaxlength

/-- An address as the callers pass it. -/
structure Address where
  bytes : Bytes
  terminated : 0 ∉ bytes

/-- An element of `shmCache_`. -/
structure Pending where
  host : Host
  ip : Address
  expriedAt : Int

/-- What the program finds outside: the digests, the clock at each look, the bytes that
happen to lie behind a string when it is copied or compared past its end, and the sticky
entries of each process. -/
structure World (ι : Type) where
  md5 : Bytes → Bytes
  time : Nat → Int
  time_pos : ∀ t, 0 < time t
  time_mono : ∀ t, time t ≤ time (t + 1)
  behindHost : Nat → Nat → Byte
  behindAddress : Nat → Nat → Byte
  sticky : ι → Bytes → Option Bytes

structure Cache (ι : Type) where
  array : HashKey → DNSNode
  shmCache : ι → List Pending
  /-- How often the clock was read. -/
  looks : Nat

def Cache.init (ι : Type) : Cache ι := ⟨fun _ => .blank, fun _ => [], 0⟩

def getNextHashkey (pkey : Bytes) (len cnt : Nat) : HashKey :=
  let start := if cnt * 2 > len ∨ cnt * 2 + 1 > len then 0 else cnt * 2
  UInt16.ofNat ((pkey.getD start 0).toNat + 256 * (pkey.getD (start + 1) 0).toNat)

/-- `std::map::operator[]` and the assignment. -/
def assign (e : Pending) : List Pending → List Pending
  | [] => [e]
  | e' :: map =>
    if e.host.bytes = e'.host.bytes then e :: map
    else if e.host.bytes < e'.host.bytes then e :: e' :: map
    else e' :: assign e map

section
variable {ι : Type} [DecidableEq ι] (w : World ι)

/-- `DNSCache::isNodeUsed` at a look at the clock. -/
def isNodeUsed (look : Nat) (node : DNSNode) : Bool :=
  if node.expriedAt < w.time look then false else true

/-- `memcmp(host, node.host_, strlen(host)) == 0`. -/
def sameHost (host : Bytes) (node : DNSNode) : Bool := node.host.take host.length == host

/-- The `while(true)` of `queryIP`: the slot of the hit, and the looks at the clock. -/
def findHit (array : HashKey → DNSNode) (host md5 : Bytes) (key : HashKey) :
    Nat → Nat → HashKey → Nat → Option (Option HashKey × Nat)
  | 0, _, _, _ => none
  | fuel + 1, cnt, slot, look =>
    if isNodeUsed w look (array slot) && sameHost host (array slot) then
      some (some slot, look + 1)
    else
      let next := getNextHashkey md5 md5Keysize (cnt + 1)
      if next = key then some (none, look + 1)
      else findHit array host md5 key fuel (cnt + 1) next (look + 1)

/-- The slot `todie_of` after a look at `slot`. -/
def older (array : HashKey → DNSNode) (slot todie : HashKey) : HashKey :=
  if (array slot).expriedAt < (array todie).expriedAt then slot else todie

/-- The `while(true)` of `DNS2Shared`: the slot to overwrite. -/
def findRoom (array : HashKey → DNSNode) (host md5 : Bytes) (key : HashKey) :
    Nat → Nat → HashKey → HashKey → Nat → Option (HashKey × Nat)
  | 0, _, _, _, _ => none
  | fuel + 1, cnt, slot, todie, look =>
    if !isNodeUsed w look (array slot) || sameHost host (array slot) then some (slot, look + 1)
    else
      let todie := older array slot todie
      let next := getNextHashkey md5 md5Keysize (cnt + 1)
      if next = key then some (todie, look + 1)
      else findRoom array host md5 key fuel (cnt + 1) next todie (look + 1)

def probes : Nat := 8

/-- `DNSCache::updateNode`; `sizeof(host)` is the size of a pointer. -/
def updateNode (dst : DNSNode) (host key ip : Bytes) (ttl : Int) (look : Nat) : DNSNode :=
  let expriedAt := w.time look + ttl
  if dst.host.take 8 = memoryAt host (w.behindHost look) 8 ∧ expriedAt < dst.expriedAt then dst
  else
    ⟨host ++ dst.host.drop host.length, key,
      memoryAt ip (w.behindAddress look) ipv4Addrsize, expriedAt⟩

/-- The slot that `DNS2Shared` overwrites. -/
def roomFor (s : Cache ι) (host : Bytes) : Option (HashKey × Nat) :=
  let md5 := w.md5 host
  let key := getNextHashkey md5 md5Keysize 0
  findRoom w s.array host md5 key probes 0 key key s.looks

/-- `DNSCache::DNS2Shared` with the lock held and `ttl` not negative. -/
def dns2Shared (s : Cache ι) (host ip : Bytes) (ttl : Int) : Option (Cache ι) := do
  let (slot, look) ← roomFor w s host
  let node := updateNode w (s.array slot) host (w.md5 host) ip ttl look
  some { s with array := Function.update s.array slot node, looks := look + 1 }

/-- `DNSCache::store2Memory` with `ttl` not negative. -/
def store2Memory (s : Cache ι) (p : ι) (host : Host) (ip : Address) (ttl : Int) : Cache ι :=
  let e : Pending := ⟨host, ip, w.time s.looks + ttl⟩
  { s with
    shmCache := Function.update s.shmCache p (assign e (s.shmCache p)), looks := s.looks + 1 }

/-- The loop of `memory2Shared` over the elements that are left. -/
def transfer (p : ι) : List Pending → Cache ι → Option (Cache ι)
  | [], s => some { s with shmCache := Function.update s.shmCache p [] }
  | e :: left, s => do
    let now := w.time s.looks
    let s := { s with looks := s.looks + 1 }
    let s ← if now < e.expriedAt then
        dns2Shared w s e.host.bytes e.ip.bytes (Int.bmod (e.expriedAt - now) (2 ^ 32))
      else some s
    transfer p left s

/-- `DNSCache::memory2Shared` with the lock held. -/
def memory2Shared (s : Cache ι) (p : ι) : Option (Cache ι) := transfer w p (s.shmCache p) s

/-- `DNSCache::updateDNS` in process `p`. -/
def updateDNS (s : Cache ι) (p : ι) (host : Host) (ip : Address) (ttl : Int) (isLocked : Bool) :
    Option (Int × Cache ι) :=
  if ttl < 0 then some (-1, s)
  else if !isLocked then some (0, store2Memory w s p host ip ttl)
  else do
    let s ← dns2Shared w s host.bytes ip.bytes ttl
    let s ← memory2Shared w s p
    some (0, s)

/-- The slot that `queryIP` hits. -/
def hitOf (s : Cache ι) (host : Bytes) : Option (Option HashKey × Nat) :=
  let md5 := w.md5 host
  let key := getNextHashkey md5 md5Keysize 0
  findHit w s.array host md5 key probes 0 key s.looks

/-- `DNSCache::queryIP` in process `p`: what it returns and copies to `ipaddr`. -/
def queryIP (s : Cache ι) (p : ι) (host : Host) (isLocked : Bool) :
    Option (Int × Bytes × Cache ι) :=
  match w.sticky p host.bytes with
  | some ip => some (0, ip, s)
  | none =>
    if !isLocked then some (-1, [], s)
    else do
      let s ← memory2Shared w s p
      let (hit, look) ← hitOf w s host.bytes
      let s := { s with looks := look }
      match hit with
      | some slot => some (0, (s.array slot).addr, s)
      | none => some (-1, [], s)

end

end DNSCache
