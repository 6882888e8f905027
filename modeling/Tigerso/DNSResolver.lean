import Tigerso.CheckedMemory
import Tigerso.CText

/-!
# dns/DNSResolver: reading a response

The cursor is an offset into `response_buf_`. No caller passes a null pointer, so that the
sizes are never negative and the checks of them never fire.
-/

open SystemCalls CText CheckedMemory

namespace DNSResolver

def dnsOk : Int := 0
def dnsErr : Int := -1
def dnsIdMismatch : Int := -4

def dnsMessageLimit : Nat := 512
def dnsDomainNameLimit : Nat := 255
def ipv4Addrsize : Nat := 16
def dnsRrnamePointersize : Nat := 2
def dnsTypeA : Nat := 1

/-- `sizeof(DNSHeader)`. -/
def headerSize : Nat := 12

/-- `(*cur & ~0xc0) != 0`. -/
def startWithLabel (cur : Byte) : Bool := cur.toNat % 64 != 0

def startWithPointer (cur : Byte) : Bool := !startWithLabel cur

/-- `DNSResolver::resolveRRName` writing from `pos` of `name`: the size in place, and the
array. The rounds of the loop and the calls for pointers share the fuel. -/
def resolveRRName (buf : Bytes) : Nat → Nat → Bytes → Nat → Checked (Nat × Bytes)
  | 0, _, _, _ => .error .endless
  | fuel + 1, cur, name, pos => do
    let num ← load buf cur
    if num = 0 then .ok (1, name)
    else if startWithLabel num then do
      let label ← loads buf (cur + 1) num.toNat
      let name ← store name pos label
      let name ← store name (pos + num.toNat) [46]
      let (size, name) ← resolveRRName buf fuel (cur + 1 + num.toNat) name (pos + num.toNat + 1)
      .ok (1 + num.toNat + size, name)
    else do
      let high := num.toNat % 64
      let low ← load buf (cur + 1)
      -- `offset << 8` is overwritten
      let (_, name) ← resolveRRName buf fuel (high + low.toNat) name pos
      .ok (2, name)

def resolveName (buf : Bytes) (cur : Nat) (name : Bytes) : Checked (Nat × Bytes) :=
  resolveRRName buf (buf.length + 1) cur name 0

def decimal (b : Byte) : Bytes :=
  let n := b.toNat
  let digit := fun d : Nat => (48 + d % 10).toUInt8
  if n < 10 then [digit n]
  else if n < 100 then [digit (n / 10), digit n]
  else [digit (n / 100), digit (n / 10), digit n]

/-- `inet_ntoa` of the address whose bytes lie in memory in this order. -/
def inetNtoa (address : Bytes) : Bytes := [46].intercalate (address.map decimal)

/-- `strncpy` of the text into the zeroed `ip`, and `memcpy` of `ip` to `rdata`. -/
def storeAddress (rdata : Bytes) : Checked Bytes := do
  let address ← loads rdata 0 4
  let ip := (inetNtoa address ++ List.replicate ipv4Addrsize 0).take ipv4Addrsize
  store rdata 0 ip

/-- `DNS_RRNAME_POINTERSIZE == num && startWithPointer(cur)`. -/
def dataIsPointer (buf : Bytes) (cur num : Nat) : Checked Bool :=
  if num = dnsRrnamePointersize then startWithPointer <$> load buf cur else .ok false

/-- The RDATA of `num` bytes at `cur`. -/
def readRData (buf : Bytes) (cur num : Nat) (rdata : Bytes) : Checked Bytes := do
  let pointer ← dataIsPointer buf cur num
  if pointer then do
    let (_, rdata) ← resolveName buf cur rdata
    .ok rdata
  else do
    let bytes ← loads buf cur num
    store rdata 0 bytes

def formatRData (type : Nat) (rdata : Bytes) : Checked Bytes :=
  if type = dnsTypeA then storeAddress rdata else .ok rdata

structure Record where
  resolved : Nat
  type : Nat
  rclass : Nat
  ttl : Nat
  rdata : Bytes

/-- `DNSResolver::resolveRR` into zeroed arrays. -/
def resolveRR (buf : Bytes) (curp : Nat) : Checked Record := do
  let (resolved, _) ← resolveName buf curp (List.replicate dnsDomainNameLimit 0)
  let cur := curp + resolved
  let type ← load16 buf cur
  let rclass ← load16 buf (cur + 2)
  let ttl ← load32 buf (cur + 4)
  let num ← load16 buf (cur + 8)
  let rdata ← readRData buf (cur + 10) num (List.replicate dnsDomainNameLimit 0)
  let rdata ← formatRData type rdata
  .ok ⟨resolved + 10 + num, type, rclass, ttl, rdata⟩

/-- The loop over the records of one section: the record that is taken, or where the
section ends. -/
def readSection (buf : Bytes) (isAnswer : Bool) : Nat → Nat → Checked (Record ⊕ Nat)
  | 0, cur => .ok (.inr cur)
  | left + 1, cur => do
    let rr ← resolveRR buf cur
    if isAnswer ∧ rr.type = dnsTypeA then .ok (.inl rr)
    else readSection buf isAnswer left (cur + rr.resolved)

def strlen (array : Bytes) : Checked Nat :=
  if 0 ∈ array then .ok (cString array).length else .error .readOutside

end DNSResolver

/-- A resolver that waits for a response; `updates` are the calls of `updateDNS`. -/
structure DNSResolver where
  responseBuf : Bytes
  id_ : Nat
  queryName : Bytes
  answerName : Bytes
  answerTtl : Nat
  hasCallback : Bool
  updates : List (Bytes × Bytes × Int)

namespace DNSResolver

def takeAnswer (r : DNSResolver) (rr : Record) : DNSResolver :=
  let answer := cString rr.rdata
  { r with
    answerName := answer
    answerTtl := rr.ttl
    updates := r.updates ++ [(r.queryName, answer, Int.bmod rr.ttl (2 ^ 32))] }

/-- The record sections of `resvDNSAnswer` from `cur`. -/
def readSections (r : DNSResolver) (cur : Nat) : Checked (Int × DNSResolver) := do
  let buf := r.responseBuf
  let answers ← load16 buf 6
  let authorities ← load16 buf 8
  let additions ← load16 buf 10
  if answers = 0 then .ok (dnsErr, r)
  else do
    match ← readSection buf true answers cur with
    | .inl rr => .ok (dnsOk, r.takeAnswer rr)
    | .inr cur => do
      match ← readSection buf false authorities cur with
      | .inl _ => .ok (dnsErr, r)
      | .inr cur => do
        let _ ← readSection buf false additions cur
        .ok (dnsErr, r)

/-- `DNSResolver::resvDNSAnswer`. What it finds in the flags makes no difference. -/
def resvDNSAnswer (r : DNSResolver) : Checked (Int × DNSResolver) := do
  let buf := r.responseBuf
  let length ← strlen buf
  if length < 2 then .ok (dnsErr, r)
  else do
    let id ← load16 buf 0
    if r.id_ ≠ id then .ok (dnsIdMismatch, r)
    else do
      let (resolved, _) ← resolveName buf headerSize (List.replicate dnsDomainNameLimit 0)
      readSections r (headerSize + resolved + 2 + 2)

def errorHandle (r : DNSResolver) : DNSResolver :=
  if r.hasCallback then { r with answerName := [] } else r

/-- `DNSResolver::recvAnswer` after a `recvNIO` that left these bytes in the buffer: the
code of `resvDNSAnswer`, and the resolver afterwards. -/
def recvAnswer (r : DNSResolver) (payload : Bytes) : Checked (Int × DNSResolver) := do
  let buf ← store r.responseBuf 0 payload
  let (ret, r) ← resvDNSAnswer { r with responseBuf := buf }
  if ret ≠ dnsOk then .ok (ret, r.errorHandle) else .ok (ret, r)

end DNSResolver
