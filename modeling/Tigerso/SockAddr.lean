import Tigerso.DNSResolver
import Tigerso.HttpMessage
import Tigerso.SocketUtil

/-!
# net/SocketUtil: socket addresses

`inet_addr`, `inet_ntop` and, on the numbers that are an `int`, `atoi` are those of POSIX. Addresses
and ports lie in network order.
-/

open SystemCalls

namespace SocketUtil

def afInet : Int := 2

structure InAddr where
  a : Byte
  b : Byte
  c : Byte
  d : Byte
  deriving DecidableEq

structure SockaddrIn where
  sinFamily : Int
  sinPort : Byte × Byte
  sinAddr : InAddr
  deriving DecidableEq

def inaddrAny : InAddr := ⟨0, 0, 0, 0⟩
def inaddrNone : InAddr := ⟨255, 255, 255, 255⟩

def htons (port : Int) : Byte × Byte :=
  let hostshort := (port % 65536).toNat
  ((hostshort / 256).toUInt8, (hostshort % 256).toUInt8)

def ntohs (sinPort : Byte × Byte) : Nat := 256 * sinPort.1.toNat + sinPort.2.toNat

/-- The value of a digit; 16 for other characters. -/
def digitOf (c : Byte) : Nat :=
  if 48 ≤ c ∧ c ≤ 57 then c.toNat - 48
  else if 97 ≤ c ∧ c ≤ 102 then c.toNat - 87
  else if 65 ≤ c ∧ c ≤ 70 then c.toNat - 55
  else 16

def inBase (base : Nat) (s : Bytes) : Option Nat :=
  if s ≠ [] ∧ s.all fun c => digitOf c < base then
    some (s.foldl (fun n c => base * n + digitOf c) 0)
  else none

/-- A part of an address: decimal, octal behind a zero, hexadecimal behind `0x` or `0X`. -/
def part : Bytes → Option Nat
  | 48 :: 120 :: rest => inBase 16 rest
  | 48 :: 88 :: rest => inBase 16 rest
  | 48 :: rest => inBase 8 (48 :: rest)
  | s => inBase 10 s

/-- The address of four parts; the last of fewer parts is the rest of the address. -/
def fromParts : List Nat → Option Nat
  | [a, b, c, d] =>
    if a < 256 ∧ b < 256 ∧ c < 256 ∧ d < 256 then some (((a * 256 + b) * 256 + c) * 256 + d)
    else none
  | [a, b, c] =>
    if a < 256 ∧ b < 256 ∧ c < 2 ^ 16 then some ((a * 256 + b) * 2 ^ 16 + c) else none
  | [a, b] => if a < 256 ∧ b < 2 ^ 24 then some (a * 2 ^ 24 + b) else none
  | [a] => if a < 2 ^ 32 then some a else none
  | _ => none

def fromNumber (n : Nat) : InAddr :=
  ⟨(n / 2 ^ 24).toUInt8, (n / 2 ^ 16).toUInt8, (n / 2 ^ 8).toUInt8, n.toUInt8⟩

def inetAddr (cp : Bytes) : InAddr :=
  ((((cString cp).splitOn 46).mapM part).bind fromParts).elim inaddrNone fromNumber

def inetNtop (sinAddr : InAddr) : Bytes :=
  DNSResolver.inetNtoa [sinAddr.a, sinAddr.b, sinAddr.c, sinAddr.d]

def isdigit (c : Byte) : Bool := 48 ≤ c && c ≤ 57

/-- `[0-9]{1,3}` -/
def isGroup (s : Bytes) : Bool := 1 ≤ s.length && s.length ≤ 3 && s.all isdigit

/-- `regex_match` of `([0-9]{1,3}\.){3}[0-9]{1,3}`; a group has no dot. -/
def validateAddr (addr : Bytes) : Bool :=
  (addr.splitOn 46).length == 4 && (addr.splitOn 46).all isGroup

def validatePort (sport : Bytes) : Bool :=
  let port := atoi sport
  if port < 0 ∨ port > 65535 then false else true

def packSockAddr (s_addr port : Bytes) (family : Int) (sock_addr : SockaddrIn) :
    Int × SockaddrIn :=
  let saddr := if s_addr = [] then literal "127.0.0.1" else s_addr
  let tport := if port = [] then literal "0" else port
  if !validateAddr saddr || !validatePort tport then (-1, sock_addr)
  else
    let fam := if family < 0 then afInet else family
    (0, {
      sinFamily := fam
      sinPort := htons (atoi tport)
      sinAddr := if saddr = literal "127.0.0.1" then inaddrAny else inetAddr saddr })

def resolveSockAddr (sock_addr : SockaddrIn) : Bytes × Bytes :=
  (inetNtop sock_addr.sinAddr, decimal (ntohs sock_addr.sinPort))

/-- Four numbers below 256 without leading zeros. -/
def IsQuad (addr : Bytes) : Prop := ∃ sinAddr, addr = inetNtop sinAddr

/-- A number below 65536 without leading zeros. -/
def IsPort (port : Bytes) : Prop := ∃ n, n < 65536 ∧ port = decimal n

/-- Four groups of one to three digits. -/
def IsGrouped (addr : Bytes) : Prop :=
  ∃ a b c d, addr = [46].intercalate [a, b, c, d] ∧
    isGroup a = true ∧ isGroup b = true ∧ isGroup c = true ∧ isGroup d = true

/-- An `int` that is no port. -/
def Outside (port : Bytes) : Prop :=
  -2 ^ 31 ≤ leadingNumber port ∧ leadingNumber port < 2 ^ 31 ∧
    (leadingNumber port < 0 ∨ 65535 < leadingNumber port)

def orDefault (s default : Bytes) : Bytes := if s = [] then default else s

section
variable {s_addr port : Bytes} {family : Int} {sock_addr : SockaddrIn}

theorem decimal_octet (b : Byte) : part (DNSResolver.decimal b) = some b.toNat ∧
    isGroup (DNSResolver.decimal b) = true ∧ 46 ∉ DNSResolver.decimal b ∧
    0 ∉ DNSResolver.decimal b := by
  have all : ∀ n : Fin 256,
      part (DNSResolver.decimal (UInt8.ofFin n)) = some (UInt8.ofFin n).toNat ∧
      isGroup (DNSResolver.decimal (UInt8.ofFin n)) = true ∧
      46 ∉ DNSResolver.decimal (UInt8.ofFin n) ∧ 0 ∉ DNSResolver.decimal (UInt8.ofFin n) := by
    decide +kernel
  exact all b.toFin

/-- A text without a zero is its own string. -/
theorem cString_clean {s : Bytes} (clean : 0 ∉ s) : cString s = s :=
  List.takeWhile_eq_self_iff.mpr fun _ there => bne_iff_ne.mpr fun same => clean (same ▸ there)

theorem isGroup_clean {s : Bytes} (group : isGroup s = true) : 46 ∉ s := by
  intro dot
  rw [isGroup, Bool.and_eq_true, List.all_eq_true] at group
  exact absurd (group.2 46 dot) (by decide)

theorem splitOn_four {a b c d : Bytes} (clean : 46 ∉ a ∧ 46 ∉ b ∧ 46 ∉ c ∧ 46 ∉ d) :
    ([46].intercalate [a, b, c, d]).splitOn 46 = [a, b, c, d] := by
  apply List.splitOn_intercalate
  · simpa using clean
  · exact List.cons_ne_nil _ _

theorem inetNtop_splitOn (sinAddr : InAddr) : (inetNtop sinAddr).splitOn 46 =
    [DNSResolver.decimal sinAddr.a, DNSResolver.decimal sinAddr.b,
      DNSResolver.decimal sinAddr.c, DNSResolver.decimal sinAddr.d] :=
  splitOn_four ⟨(decimal_octet _).2.2.1, (decimal_octet _).2.2.1, (decimal_octet _).2.2.1,
    (decimal_octet _).2.2.1⟩

/-- The expression matches four groups. -/
theorem validateAddr_iff (addr : Bytes) : validateAddr addr = true ↔ IsGrouped addr := by
  rw [validateAddr, Bool.and_eq_true, beq_iff_eq]
  constructor
  · rintro ⟨four, groups⟩
    obtain ⟨a, b, c, d, same⟩ : ∃ a b c d, addr.splitOn 46 = [a, b, c, d] := by
      match addr.splitOn 46, four with
      | [a, b, c, d], _ => exact ⟨a, b, c, d, rfl⟩
    rw [same] at groups
    refine ⟨a, b, c, d, ?_, by simpa using groups⟩
    rw [← same, List.intercalate_splitOn]
  · rintro ⟨a, b, c, d, rfl, groups⟩
    rw [splitOn_four ⟨isGroup_clean groups.1, isGroup_clean groups.2.1, isGroup_clean groups.2.2.1,
      isGroup_clean groups.2.2.2⟩]
    exact ⟨rfl, by simpa using groups⟩

theorem inetNtop_grouped (sinAddr : InAddr) : validateAddr (inetNtop sinAddr) = true := by
  rw [validateAddr, inetNtop_splitOn]
  simp [(decimal_octet _).2.1]

theorem zero_notMem_inetNtop (sinAddr : InAddr) : 0 ∉ inetNtop sinAddr := by
  simp [inetNtop, DNSResolver.inetNtoa, List.intercalate, (decimal_octet _).2.2.2]

/-- The number of an address has its four bytes. -/
theorem fromNumber_parts (sinAddr : InAddr) :
    (fromParts [sinAddr.a.toNat, sinAddr.b.toNat, sinAddr.c.toNat, sinAddr.d.toNat]).elim
      inaddrNone fromNumber = sinAddr := by
  have a := sinAddr.a.toNat_lt
  have b := sinAddr.b.toNat_lt
  have c := sinAddr.c.toNat_lt
  have d := sinAddr.d.toNat_lt
  rw [fromParts, if_pos ⟨a, b, c, d⟩, Option.elim_some, fromNumber]
  obtain ⟨a', b', c', d'⟩ := sinAddr
  simp only [InAddr.mk.injEq] at a b c d ⊢
  refine ⟨?_, ?_, ?_, ?_⟩ <;> apply UInt8.toNat_inj.mp <;>
    simp only [Nat.toUInt8, UInt8.toNat_ofNat'] <;> omega

/-- An address is read back. -/
theorem inetAddr_inetNtop (sinAddr : InAddr) : inetAddr (inetNtop sinAddr) = sinAddr := by
  rw [inetAddr, cString_clean (zero_notMem_inetNtop sinAddr), inetNtop_splitOn]
  simp only [List.mapM_cons, (decimal_octet _).1, List.mapM_nil, Option.pure_def,
    Option.bind_eq_bind, Option.bind_some]
  exact fromNumber_parts sinAddr

/-- The byte of a digit. -/
theorem digit_byte {c : Char} (digit : c.isDigit = true) :
    c.toNat.toUInt8.toNat = c.toNat ∧ isdigit c.toNat.toUInt8 = true := by
  rw [Char.isDigit, Bool.and_eq_true, decide_eq_true_iff, decide_eq_true_iff] at digit
  have low : 48 ≤ c.toNat := digit.1
  have high : c.toNat ≤ 57 := digit.2
  have same : c.toNat.toUInt8.toNat = c.toNat := by
    simp only [Nat.toUInt8, UInt8.toNat_ofNat']
    omega
  refine ⟨same, ?_⟩
  rw [isdigit, Bool.and_eq_true, decide_eq_true_iff, decide_eq_true_iff, UInt8.le_iff_toNat_le,
    UInt8.le_iff_toNat_le, same]
  exact ⟨low, high⟩

theorem isDigit_of_mem {n : Nat} {c : Char} (there : c ∈ Nat.toDigits 10 n) :
    c.isDigit = true := Nat.isDigit_of_mem_toDigits (by decide) (Nat.le_refl 10) there

theorem isdigit_decimal {n : Nat} {b : Byte} (there : b ∈ decimal n) : isdigit b = true := by
  obtain ⟨c, among, rfl⟩ := List.mem_map.mp there
  exact (digit_byte (isDigit_of_mem among)).2

theorem decimal_ne_nil (n : Nat) : decimal n ≠ [] := by
  rw [decimal, Ne, List.map_eq_nil_iff]
  exact Nat.toDigits_ne_nil

/-- The digits are read as C characters and as those of Lean. -/
theorem foldl_digits {cs : List Char} (all : ∀ c ∈ cs, c.isDigit = true) (n : Nat) :
    (cs.map fun c => c.toNat.toUInt8).foldl (fun n c => 10 * n + (c.toNat - 48)) n =
      Nat.ofDigitChars 10 cs n := by
  induction cs generalizing n with
  | nil => rfl
  | cons c cs ih =>
    rw [List.map_cons, List.foldl_cons, Nat.ofDigitChars_cons, (digit_byte (all c (by simp))).1]
    exact ih (fun c there => all c (List.mem_cons_of_mem _ there)) _

/-- The digits of a number are read back. -/
theorem digits_decimal (n : Nat) : digits (decimal n) = n := by
  have whole : (decimal n).takeWhile (fun c => 48 ≤ c && c ≤ 57) = decimal n :=
    List.takeWhile_eq_self_iff.mpr fun _ there => isdigit_decimal there
  rw [digits, whole, decimal, foldl_digits fun _ => isDigit_of_mem]
  exact Nat.ofDigitChars_ten_toDigits

theorem not_isspace {c : Byte} (digit : isdigit c = true) : ¬ isspace c = true :=
  (by decide +kernel : ∀ n : Fin 256, isdigit (UInt8.ofFin n) = true →
    ¬ isspace (UInt8.ofFin n) = true) c.toFin digit

theorem leadingNumber_decimal (n : Nat) : leadingNumber (decimal n) = n := by
  have clean : 0 ∉ decimal n := fun zero => absurd (isdigit_decimal zero) (by decide)
  have first : (decimal n).dropWhile isspace = decimal n := by
    obtain ⟨c, rest, shape⟩ := List.exists_cons_of_ne_nil (decimal_ne_nil n)
    have digit : isdigit c = true := isdigit_decimal (n := n) (by simp [shape])
    rw [shape, List.dropWhile_cons_of_neg (not_isspace digit)]
  rw [leadingNumber, cString_clean clean, first]
  split
  · rename_i rest shape
    exact absurd (isdigit_decimal (n := n) (by rw [shape]; exact List.mem_cons_self)) (by decide)
  · rename_i rest shape
    exact absurd (isdigit_decimal (n := n) (by rw [shape]; exact List.mem_cons_self)) (by decide)
  · rw [digits_decimal]

theorem ntohs_htons {n : Nat} (short : n < 65536) : ntohs (htons n) = n := by
  rw [ntohs, htons]
  simp only [Nat.toUInt8, UInt8.toNat_ofNat']
  omega

theorem validatePort_iff (port : Bytes) :
    validatePort port = true ↔ 0 ≤ atoi port ∧ atoi port ≤ 65535 := by
  rw [validatePort]
  split_ifs with outside
  · exact iff_of_false nofun fun inside => by omega
  · exact iff_of_true rfl (by omega)

theorem IsQuad.valid (quad : IsQuad s_addr) : validateAddr s_addr = true := by
  obtain ⟨sinAddr, rfl⟩ := quad
  exact inetNtop_grouped sinAddr

/-- `atoi` reads every number that is an `int`. -/
theorem atoi_int (low : -2 ^ 31 ≤ leadingNumber port) (high : leadingNumber port < 2 ^ 31) :
    atoi port = leadingNumber port := by
  have fits : strtol port = leadingNumber port := by
    rw [strtol]
    omega
  rw [atoi, fits, HttpBodyFile.toInt, Int.bmod_eq_of_le] <;> omega

/-- A port is read as its number. -/
theorem IsPort.read (number : IsPort port) :
    ∃ n, n < 65536 ∧ port = decimal n ∧ atoi port = n := by
  obtain ⟨n, short, rfl⟩ := number
  refine ⟨n, short, rfl, ?_⟩
  rw [atoi_int, leadingNumber_decimal] <;> rw [leadingNumber_decimal] <;> omega

/-- A text that is no address, or no port, is refused. -/
theorem packSockAddr_refused
    (wrong : s_addr ≠ [] ∧ ¬ IsGrouped s_addr ∨ port ≠ [] ∧ Outside port) :
    packSockAddr s_addr port family sock_addr = (-1, sock_addr) := by
  rw [packSockAddr]
  refine if_pos ?_
  rw [Bool.or_eq_true, Bool.not_eq_true', Bool.not_eq_true']
  rcases wrong with ⟨some_, other⟩ | ⟨some_, low, high, outside⟩
  · left
    rw [if_neg some_, ← Bool.not_eq_true, validateAddr_iff]
    exact other
  · right
    rw [if_neg some_, ← Bool.not_eq_true, validatePort_iff, atoi_int low high]
    omega

/-- What is packed, and what it is resolved to; the loopback address stands for any. -/
theorem packSockAddr_resolved
    (quad : IsQuad (orDefault s_addr (literal "127.0.0.1")))
    (number : IsPort (orDefault port (literal "0"))) :
    (packSockAddr s_addr port family sock_addr).1 = 0 ∧
      resolveSockAddr (packSockAddr s_addr port family sock_addr).2 =
        (if orDefault s_addr (literal "127.0.0.1") = literal "127.0.0.1" then literal "0.0.0.0"
          else s_addr, orDefault port (literal "0")) := by
  obtain ⟨n, short, text, value⟩ := number.read
  have valid := quad.valid
  have inside : validatePort (orDefault port (literal "0")) = true := by
    rw [validatePort_iff, value]
    omega
  have packed : packSockAddr s_addr port family sock_addr = (0, {
      sinFamily := if family < 0 then afInet else family
      sinPort := htons (atoi (orDefault port (literal "0")))
      sinAddr := if orDefault s_addr (literal "127.0.0.1") = literal "127.0.0.1" then inaddrAny
        else inetAddr (orDefault s_addr (literal "127.0.0.1")) }) := by
    refine if_neg ?_
    rw [Bool.or_eq_true, Bool.not_eq_true', Bool.not_eq_true', not_or, Bool.not_eq_false,
      Bool.not_eq_false]
    exact ⟨valid, inside⟩
  refine ⟨by rw [packed], ?_⟩
  rw [packed, resolveSockAddr, value, ntohs_htons short, ← text]
  dsimp only
  split_ifs with loopback
  · rw [show inetNtop inaddrAny = literal "0.0.0.0" by decide]
  · obtain ⟨sinAddr, same⟩ := quad
    have given : orDefault s_addr (literal "127.0.0.1") = s_addr := by
      rw [orDefault] at loopback ⊢
      split_ifs at loopback ⊢
      · exact absurd rfl loopback
      · rfl
    rw [same, inetAddr_inetNtop, ← same, given]

end

/-- What is asked of packing: addresses and ports come back as they were written, and other texts
are refused. -/
def Exact : Prop := ∀ s_addr port family sock_addr,
  (IsQuad s_addr → IsPort port →
    (packSockAddr s_addr port family sock_addr).1 = 0 ∧
      resolveSockAddr (packSockAddr s_addr port family sock_addr).2 = (s_addr, port)) ∧
  (¬ (IsQuad s_addr ∧ IsPort port) → (packSockAddr s_addr port family sock_addr).1 = -1)

/-- The loopback address stands for any address, an empty address for the loopback address, and an
empty port for 0; other addresses and ports come back as they were written. A text that is not
four groups of digits is refused, and a number that is no port. -/
theorem packed_and_resolved (s_addr port : Bytes) (family : Int) (sock_addr : SockaddrIn) :
    (IsQuad (orDefault s_addr (literal "127.0.0.1")) → IsPort (orDefault port (literal "0")) →
      (packSockAddr s_addr port family sock_addr).1 = 0 ∧
        resolveSockAddr (packSockAddr s_addr port family sock_addr).2 =
          (if orDefault s_addr (literal "127.0.0.1") = literal "127.0.0.1" then literal "0.0.0.0"
            else s_addr, orDefault port (literal "0"))) ∧
    (s_addr ≠ [] ∧ ¬ IsGrouped s_addr ∨ port ≠ [] ∧ Outside port →
      packSockAddr s_addr port family sock_addr = (-1, sock_addr)) :=
  ⟨packSockAddr_resolved, packSockAddr_refused⟩

/-- Port 8080 of an address, and an address of three groups. -/
theorem packed_and_resolved_plain :
    resolveSockAddr (packSockAddr (literal "10.0.0.1") (literal "8080") afInet
      ⟨0, (0, 0), inaddrAny⟩).2 = (literal "10.0.0.1", literal "8080") ∧
    packSockAddr (literal "10.0.1") (literal "8080") afInet ⟨0, (0, 0), inaddrAny⟩ =
      (-1, ⟨0, (0, 0), inaddrAny⟩) := by
  have plain := (packed_and_resolved (literal "10.0.0.1") (literal "8080") afInet
    ⟨0, (0, 0), inaddrAny⟩).1 ⟨⟨10, 0, 0, 1⟩, by decide⟩ ⟨8080, by decide, by decide⟩
  have short := (packed_and_resolved (literal "10.0.1") (literal "8080") afInet
    ⟨0, (0, 0), inaddrAny⟩).2 (Or.inl ⟨by decide, fun grouped =>
      absurd ((validateAddr_iff _).mpr grouped) (by decide)⟩)
  exact ⟨plain.2.trans (by decide), short⟩

/-- The loopback address is resolved to another text. -/
theorem not_exact : ¬ Exact := by
  intro exact_
  have back := ((exact_ (literal "127.0.0.1") (literal "80") afInet
    ⟨0, (0, 0), inaddrAny⟩).1 ⟨⟨127, 0, 0, 1⟩, by decide⟩ ⟨80, by decide, by decide⟩).2
  exact absurd back (by decide)

end SocketUtil
