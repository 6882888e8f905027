import Tigerso.CertCache
import Mathlib.Data.Set.Function

/-!
# Whose certificate the cache returns

The name of a certificate has a fixed shape, so that the comparison of prefixes compares
whole names. A name tells its certificate when the two encodings reach the digest whole:
they fit, and no zero byte stands before their last one.
-/

open SystemCalls CText Dechex DerEncoding CertCache

namespace CertIdentity

theorem hex2Char_dash : ∀ hex < 16, hex2Char hex ≠ 45 := by decide

theorem pushDigits_dash (nibbles dec : Nat) : 45 ∉ pushDigits nibbles dec := by
  induction nibbles generalizing dec with
  | zero => exact List.not_mem_nil
  | succ nibbles ih =>
    rw [pushDigits]
    split_ifs
    · exact List.not_mem_nil
    · intro there
      rcases List.mem_cons.mp there with same | later
      · exact hex2Char_dash _ (Nat.mod_lt _ (by decide)) same.symm
      · exact ih _ later

theorem dec2hex_dash (num : Nat) : 45 ∉ dec2hex num := by
  rw [dec2hex, List.mem_reverse]
  exact pushDigits_dash _ _

theorem dec2hex_inj {a b : Nat} (ha : a < 2 ^ 32) (hb : b < 2 ^ 32)
    (same : dec2hex a = dec2hex b) : a = b := by
  have value := dec2hex_value ha
  rw [same, dec2hex_value hb] at value
  exact (Option.some.inj value).symm

theorem hex2Char_inj {a b : Nat} (ha : a < 16) (hb : b < 16) (same : hex2Char a = hex2Char b) :
    a = b := by
  have value := digitValue_hex2Char a ha
  rw [same, digitValue_hex2Char b hb] at value
  exact (Option.some.inj value).symm

theorem hexText_length (digest : Bytes) : (hexText digest).length = 2 * digest.length := by
  induction digest with
  | nil => rfl
  | cons b digest ih =>
    rw [hexText, List.flatMap_cons, List.length_append]
    rw [hexText] at ih
    rw [ih, List.length_cons, List.length_cons]
    simp
    omega

theorem hexText_inj {a b : Bytes} (same : hexText a = hexText b) : a = b := by
  induction a generalizing b with
  | nil =>
    cases b with
    | nil => rfl
    | cons y b => exact nomatch same
  | cons x a ih =>
    cases b with
    | nil => exact nomatch same
    | cons y b =>
      obtain ⟨high, rest⟩ := List.cons.inj same
      obtain ⟨low, rest⟩ := List.cons.inj rest
      have hx : x.toNat < 256 := x.toNat_lt
      have hy : y.toNat < 256 := y.toNat_lt
      have high := hex2Char_inj (by omega) (by omega) high
      have low := hex2Char_inj (Nat.mod_lt _ (by decide)) (Nat.mod_lt _ (by decide)) low
      have equal : x = y := UInt8.toNat_inj.mp (by omega)
      rw [equal, ih rest]

/-- The name of a certificate, from its length and what is digested. -/
def nameOf (md5 : Bytes → Vector Byte 16) (length : Nat) (digested : Bytes) : Bytes :=
  dec2hex length ++ 45 :: hexText (md5 digested).toList

/-- A name that begins with another one is that one. -/
theorem nameOf_inj {md5 : Bytes → Vector Byte 16} {a b : Nat} {m n : Bytes} (ha : a < 2 ^ 32)
    (hb : b < 2 ^ 32)
    (begins : (nameOf md5 b n).take (nameOf md5 a m).length = nameOf md5 a m) :
    a = b ∧ md5 m = md5 n := by
  obtain ⟨rest, shape⟩ : ∃ rest, nameOf md5 b n = nameOf md5 a m ++ rest :=
    ⟨_, by rw [← begins, List.take_append_drop]⟩
  rw [nameOf, nameOf, List.append_assoc, List.cons_append] at shape
  obtain ⟨lengths, digests⟩ := split_inj (dec2hex_dash b) (dec2hex_dash a) shape
  have size := congrArg List.length digests
  rw [List.length_append, hexText_length, hexText_length, Vector.length_toList,
    Vector.length_toList] at size
  have none_left : rest = [] := List.length_eq_zero_iff.mp (by omega)
  rw [none_left, List.append_nil] at digests
  exact ⟨(dec2hex_inj hb ha lengths).symm, Vector.toList_inj.mp (hexText_inj digests).symm⟩

theorem clean_begins {s : Bytes} (clean : 0 ∉ s) (rest : Bytes) : s <+: cString (s ++ rest) := by
  have all : ∀ b ∈ s, (b ≠ 0 : Bool) = true := by
    intro b there
    exact decide_eq_true fun same => clean (same ▸ there)
  rw [cString, untilByte, List.takeWhile_append_of_pos all]
  exact List.prefix_append _ _

/-- The encodings of a certificate reach the digest. -/
structure Told (data : Bytes) : Prop where
  fits : data.length ≤ 1022
  clean : 0 ∉ data.dropLast

theorem message_begins (input : Bytes) : message input <+: input :=
  (List.take_prefix _ _).trans (cString_begins input)

/-- An encoding says how long it is, so that what stands behind it plays no part. -/
theorem message_inj {a b : Bytes} (told : Told a) (nonempty : a ≠ [])
    (lengths : a.length = b.length) {more more' : Bytes}
    (same : message (a ++ more) = message (b ++ more')) : a = b := by
  obtain ⟨fits, clean⟩ := told
  by_cases zero : 0 ∈ a
  · -- the last byte is the terminator
    obtain ⟨x, shape⟩ : ∃ x, a = x ++ [0] := by
      refine ⟨a.dropLast, ?_⟩
      have whole := List.dropLast_append_getLast nonempty
      have last : a.getLast nonempty = 0 := by
        rw [← whole] at zero
        rcases List.mem_append.mp zero with before | here
        · exact absurd before clean
        · exact (List.mem_singleton.mp here).symm
      rw [← last, whole]
    subst shape
    rw [List.dropLast_concat] at clean
    rw [List.length_append, List.length_singleton] at lengths fits
    have left : message (x ++ [0] ++ more) = x := by
      rw [message, List.append_assoc, cString, List.singleton_append, untilByte_append clean,
        List.take_of_length_le (by omega)]
    have short : (cString (b ++ more')).length < 1022 := by
      have size := congrArg List.length (same.symm.trans left)
      rw [message, List.length_take] at size
      omega
    have right : cString (b ++ more') = x := by
      rw [← left, same, message, List.take_of_length_le (Nat.le_of_lt short)]
    obtain ⟨c, shape⟩ : ∃ c, b = x ++ [c] := by
      have begins : x <+: b := by
        have into := cString_begins (b ++ more')
        rw [right] at into
        exact List.prefix_of_prefix_length_le into (List.prefix_append _ _) (by omega)
      obtain ⟨rest, rfl⟩ := begins
      rw [List.length_append] at lengths
      obtain ⟨c, rfl⟩ := List.length_eq_one_iff.mp (show rest.length = 1 by omega)
      exact ⟨c, rfl⟩
    subst shape
    have stops : c = 0 := by
      by_contra nonzero
      have through :=
        (clean_begins (s := x ++ [c]) (by simp [clean, Ne.symm nonzero]) more').length_le
      rw [right, List.length_append, List.length_singleton] at through
      omega
    rw [stops]
  · have first : a <+: message (a ++ more) :=
      List.prefix_take_iff.mpr ⟨clean_begins zero more, fits⟩
    rw [same] at first
    have into := first.trans (message_begins (b ++ more'))
    exact (List.prefix_of_prefix_length_le into (List.prefix_append _ _)
      (Nat.le_of_eq lengths)).eq_of_length lengths

section
variable {Cert Key : Type} {w : World Cert Key}

/-- The name that a certificate gets, and the byte behind the block. -/
theorem getKeyName_spec {orig : Orig} {behind : Byte} {keyname : KeyName}
    (named : getKeyName w orig behind = some keyname) :
    ∃ issuer serialNumber, orig.issuer = some issuer ∧ orig.serialNumber = some serialNumber ∧
      0 < issuer.bytes.length + serialNumber.bytes.length ∧
      issuer.bytes.length + serialNumber.bytes.length ≤ 65535 ∧
      keyname.text = nameOf w.md5 (issuer.bytes.length + serialNumber.bytes.length)
        (message (keyBuffer issuer serialNumber behind)) ∧ keyname.stray = 1 := by
  rw [getKeyName] at named
  split at named
  · rename_i issuer serialNumber issuer_eq serial_eq
    simp only at named
    split_ifs at named with refused
    cases named
    refine ⟨issuer, serialNumber, issuer_eq, serial_eq, by omega, by omega, ?_, ?_⟩
    · have hex := dec2hex_length (issuer.bytes.length + serialNumber.bytes.length)
      rw [nameOf, md5, List.take_of_length_le]
      rw [hexText_length, Vector.length_toList, keynameSize]
      omega
    · dsimp only
      rw [keyBuffer, keyBlock, List.length_append, List.length_append, List.length_cons,
        List.length_singleton]
      omega
  · exact nomatch named

/-- A certificate that has a name has one behind any byte. -/
theorem named_again {orig : Orig} {behind : Byte} {keyname : KeyName}
    (named : getKeyName w orig behind = some keyname) (behind' : Byte) :
    ∃ again, getKeyName w orig behind' = some again ∧ again.stray = 1 := by
  obtain ⟨issuer, serialNumber, issuer_eq, serial_eq, some_bytes, few, _⟩ :=
    getKeyName_spec named
  obtain ⟨again, named'⟩ : ∃ again, getKeyName w orig behind' = some again := by
    rw [getKeyName, issuer_eq, serial_eq]
    dsimp only
    rw [if_neg (by omega)]
    exact ⟨_, rfl⟩
  obtain ⟨_, _, _, _, _, _, _, stray⟩ := getKeyName_spec named'
  exact ⟨again, named', stray⟩

/-- A miss has a name. -/
theorem named_of_missed {nodes : Store} {orig : Orig} {behind : Byte} {key stray : Nat}
    (missed : hashSearch w nodes orig behind = some (key, false, stray)) :
    ∃ keyname, getKeyName w orig behind = some keyname ∧ stray = 1 := by
  obtain ⟨keyname, named, found⟩ := Option.bind_eq_some_iff.mp missed
  obtain ⟨_, _, _, _, _, _, _, strays⟩ := getKeyName_spec named
  refine ⟨keyname, named, ?_⟩
  rw [← strays]
  exact (Prod.mk.inj (Prod.mk.inj (Option.some.inj found)).2).2.symm

/-- One call of `store`. -/
structure Stored (Cert Key : Type) where
  orig : Orig
  cert : Cert
  pkey : Key

/-- What the certificate gives to the digest is among the messages looked at. -/
def Hashes (hashed : Set Bytes) (orig : Orig) (behind : Byte) : Prop :=
  ∀ issuer serialNumber, orig.issuer = some issuer → orig.serialNumber = some serialNumber →
    message (keyBuffer issuer serialNumber behind) ∈ hashed

/-- The slot holds what a call stored under its name. -/
structure Holds (w : World Cert Key) (hashed : Set Bytes) (e : Stored Cert Key)
    (node : CertNode) : Prop where
  named : ∃ behind stray, getKeyName w e.orig behind = some ⟨node.keyname, stray⟩ ∧
    Hashes hashed e.orig behind
  cert : ∃ bytes rest, w.certs.i2d e.cert = some bytes ∧ node.cert = bytes ++ rest
  pkey : ∃ bytes rest, w.keys.i2d e.pkey = some bytes ∧ node.pkey = bytes ++ rest

def Inv (w : World Cert Key) (hashed : Set Bytes) (log : List (Stored Cert Key))
    (nodes : Store) : Prop :=
  ∀ key, (nodes key).keyname = [] ∨ ∃ e ∈ log, Holds w hashed e (nodes key)

theorem inv_init (hashed : Set Bytes) : Inv w hashed [] Store.init := fun _ => Or.inl rfl

/-- One slot is written. -/
theorem Inv.write {hashed : Set Bytes} {log : List (Stored Cert Key)} {nodes : Store}
    (inv : Inv w hashed log nodes) {e : Stored Cert Key} {key : Nat} {node : CertNode}
    (written : node.keyname = [] ∨ ∃ e' ∈ e :: log, Holds w hashed e' node) :
    Inv w hashed (e :: log) (Function.update nodes key node) := by
  intro key'
  by_cases same : key' = key
  · subst same
    simp only [Function.update_self]
    exact written
  · simp only [Function.update_of_ne same]
    rcases inv key' with blank | ⟨e', there, holds⟩
    · exact Or.inl blank
    · exact Or.inr ⟨e', List.mem_cons_of_mem _ there, holds⟩

theorem Inv.mono {hashed : Set Bytes} {log : List (Stored Cert Key)} {nodes : Store}
    (inv : Inv w hashed log nodes) (e : Stored Cert Key) : Inv w hashed (e :: log) nodes := by
  intro key
  rcases inv key with blank | ⟨e', there, holds⟩
  · exact Or.inl blank
  · exact Or.inr ⟨e', List.mem_cons_of_mem _ there, holds⟩

/-- What stands in the slots behind a call: anything, when an encoding went past its node. -/
inductive Leaves : StoreEnd → Store → Prop
  | returned (ret : Int) (nodes : Store) (stray : Nat) : Leaves (.returned ret nodes stray) nodes
  | overran (nodes : Store) : Leaves .overran nodes

/-- When the lengths pass the check as the slot keeps them, the encodings fit. -/
def Within (w : World Cert Key) (cert : Cert) (pkey : Key) : Prop :=
  ∀ certBytes pkeyBytes, w.certs.i2d cert = some certBytes → w.keys.i2d pkey = some pkeyBytes →
    certBytes.length % 65536 ≤ maxCertLength → pkeyBytes.length % 65536 ≤ maxKeyLength →
      certBytes.length ≤ maxCertLength ∧ pkeyBytes.length ≤ maxKeyLength

/-- A length that passes the check is one of an encoding. -/
theorem encoded_of_short {encoded : Option Bytes} (short : ¬ 8192 < shortLength encoded) :
    ∃ bytes, encoded = some bytes ∧ bytes.length % 65536 ≤ 8192 := by
  cases encoded with
  | none => exact absurd (show 8192 < 65535 by decide) short
  | some bytes => exact ⟨bytes, rfl, Nat.not_lt.mp short⟩

/-- A call of `store` that stays within its slot keeps every slot as the log has it. -/
theorem store_inv {hashed : Set Bytes} {log : List (Stored Cert Key)} {nodes nodes' : Store}
    (inv : Inv w hashed log nodes) {orig : Orig} {cert : Cert} {pkey : Key}
    {behind behind' : Byte} (known : Hashes hashed orig behind')
    (within : ∀ key stray, hashSearch w nodes orig behind = some (key, false, stray) →
      Within w cert pkey)
    (call : Leaves (store w nodes orig cert pkey behind behind') nodes') :
    Inv w hashed (⟨orig, cert, pkey⟩ :: log) nodes' := by
  rw [store] at call
  split at call
  · cases call
  · cases call
    exact inv.mono _
  · rename_i key stray missed
    -- a refused certificate changes the two lengths only
    have lengths (c p : Nat) : (nodes key).keyname = [] ∨
        ∃ e ∈ ⟨orig, cert, pkey⟩ :: log,
          Holds w hashed e { nodes key with certLen := c, pkeyLen := p } := by
      rcases inv.mono ⟨orig, cert, pkey⟩ key with blank | ⟨e, there, holds⟩
      · exact Or.inl blank
      · exact Or.inr ⟨e, there, holds.named, holds.cert, holds.pkey⟩
    obtain ⟨keyname, named, _⟩ := named_of_missed missed
    obtain ⟨name, again, _⟩ := named_again named behind'
    rw [again] at call
    simp only at call
    split_ifs at call with longCert longKey over_
    · cases call
      exact inv.write (lengths _ _)
    · cases call
      exact inv.write (lengths _ _)
    · obtain ⟨certBytes, cert_eq, shortCert⟩ := encoded_of_short longCert
      obtain ⟨pkeyBytes, pkey_eq, shortKey⟩ := encoded_of_short longKey
      rw [cert_eq, pkey_eq] at over_
      obtain ⟨fitsCert, fitsKey⟩ :=
        within key stray missed certBytes pkeyBytes cert_eq pkey_eq shortCert shortKey
      exact absurd over_ (not_or.mpr ⟨Nat.not_lt.mpr fitsCert, Nat.not_lt.mpr fitsKey⟩)
    · obtain ⟨certBytes, cert_eq, _⟩ := encoded_of_short longCert
      obtain ⟨pkeyBytes, pkey_eq, _⟩ := encoded_of_short longKey
      rw [cert_eq, pkey_eq] at call
      cases call
      exact inv.write (Or.inr ⟨_, List.mem_cons_self, ⟨behind', _, again, known⟩,
        ⟨_, _, cert_eq, rfl⟩, ⟨_, _, pkey_eq, rfl⟩⟩)

/-- A reader that is given enough of a buffer finds what was stored at its start. -/
theorem Codec.d2i_take {α : Type} (codec : Codec α) {a b : α} {bytes rest : Bytes} {n : Nat}
    (encoded : codec.i2d a = some bytes) (found : codec.d2i ((bytes ++ rest).take n) = some b) :
    b = a := by
  rcases Nat.lt_or_ge n bytes.length with cut | enough
  · rw [List.take_append_of_le_length (Nat.le_of_lt cut), codec.cut a bytes encoded n cut] at found
    exact nomatch found
  · rw [List.take_append, List.take_of_length_le enough, codec.whole a bytes encoded] at found
    exact (Option.some.inj found).symm

/-- The two encodings of this certificate reach the digest whole. -/
def Identified (orig : Orig) : Prop :=
  ∀ issuer serialNumber, orig.issuer = some issuer → orig.serialNumber = some serialNumber →
    Told (issuer.bytes ++ serialNumber.bytes)

/-- What a run of `store` and `query` on an empty cache reaches when no call goes past a node;
queries change nothing. -/
inductive Reached (w : World Cert Key) (hashed : Set Bytes) :
    Store → List (Stored Cert Key) → Prop
  | init : Reached w hashed Store.init []
  | store {nodes nodes' : Store} {log : List (Stored Cert Key)} {orig : Orig} {cert : Cert}
      {pkey : Key} {behind behind' : Byte} (before : Reached w hashed nodes log)
      (known : Hashes hashed orig behind')
      (within : ∀ key stray, hashSearch w nodes orig behind = some (key, false, stray) →
        Within w cert pkey)
      (call : Leaves (CertCache.store w nodes orig cert pkey behind behind') nodes') :
      Reached w hashed nodes' (⟨orig, cert, pkey⟩ :: log)

theorem Reached.inv {hashed : Set Bytes} {nodes : Store} {log : List (Stored Cert Key)}
    (reached : Reached w hashed nodes log) : Inv w hashed log nodes := by
  induction reached with
  | init => exact inv_init hashed
  | store _ known within call ih => exact store_inv ih known within call

/-- Equal names of identified certificates. -/
theorem same_certificate {hashed : Set Bytes} (free : Set.InjOn w.md5 hashed)
    {orig orig' : Orig} (identified : Identified orig) {behind behind' : Byte}
    (known : Hashes hashed orig behind) (known' : Hashes hashed orig' behind')
    {keyname keyname' : KeyName} (named : getKeyName w orig behind = some keyname)
    (named' : getKeyName w orig' behind' = some keyname')
    (begins : keyname'.text.take keyname.text.length = keyname.text) : orig' = orig := by
  obtain ⟨issuer, serialNumber, issuer_eq, serial_eq, some_bytes, few, text, _⟩ :=
    getKeyName_spec named
  obtain ⟨issuer', serialNumber', issuer_eq', serial_eq', _, few', text', _⟩ :=
    getKeyName_spec named'
  rw [text, text'] at begins
  obtain ⟨lengths, digests⟩ := nameOf_inj (by omega) (by omega) begins
  have messages := free (known _ _ issuer_eq serial_eq) (known' _ _ issuer_eq' serial_eq') digests
  have data : issuer.bytes ++ serialNumber.bytes = issuer'.bytes ++ serialNumber'.bytes := by
    refine message_inj (identified _ _ issuer_eq serial_eq) ?_ ?_ messages
    · rw [← List.length_pos_iff, List.length_append]
      exact some_bytes
    · rw [List.length_append, List.length_append]
      exact lengths
  obtain ⟨issuers, serials⟩ := Der.append_inj data
  have serials' : serialNumber = serialNumber' := by
    cases serialNumber
    cases serialNumber'
    cases serials
    rfl
  cases orig
  cases orig'
  simp only at issuer_eq serial_eq issuer_eq' serial_eq'
  rw [issuer_eq, serial_eq, issuer_eq', serial_eq', issuers, serials']

/-- In every run of stores of which none goes past its node, with no collision of the digest among
the messages looked at, an answer for an identified certificate was stored for that certificate. -/
theorem query_stored {hashed : Set Bytes} (free : Set.InjOn w.md5 hashed) {nodes : Store}
    {log : List (Stored Cert Key)} (reached : Reached w hashed nodes log) {orig : Orig}
    {behind : Byte} (known : Hashes hashed orig behind) (identified : Identified orig)
    {after : Bytes} {cert : Cert} {pkey : Key}
    (answer : query w nodes orig behind after = some (cert, pkey)) :
    ∃ e ∈ log, e.orig.issuer = orig.issuer ∧ e.orig.serialNumber = orig.serialNumber ∧
      e.cert = cert ∧ e.pkey = pkey := by
  rw [query] at answer
  split at answer
  · rename_i key stray found
    obtain ⟨⟨keyname, stray'⟩, named, found⟩ := Option.bind_eq_some_iff.mp found
    simp only [Option.some.injEq, Prod.mk.injEq] at found
    obtain ⟨rfl, agree, _⟩ := found
    have begins := eq_of_beq agree
    rcases reached.inv (w.hash keyname) with blank | ⟨e, there, holds⟩
    · obtain ⟨_, _, _, _, _, _, text, _⟩ := getKeyName_spec named
      dsimp only at text
      rw [blank, List.take_nil, text] at begins
      exact absurd (congrArg List.length begins) (by simp [nameOf])
    · obtain ⟨behind', _, named', known'⟩ := holds.named
      have same := same_certificate free identified known known' named named' begins
      obtain ⟨certBytes, certRest, cert_eq, cert_at⟩ := holds.cert
      obtain ⟨pkeyBytes, pkeyRest, pkey_eq, pkey_at⟩ := holds.pkey
      simp only [cert_at, pkey_at, List.append_assoc] at answer
      by_cases noCert : (nodes (w.hash keyname)).certLen = 0
      · rw [if_pos noCert] at answer
        exact nomatch answer
      rw [if_neg noCert] at answer
      obtain ⟨c, readCert, answer⟩ := Option.bind_eq_some_iff.mp answer
      split_ifs at answer
      obtain ⟨p, readKey, answer⟩ := Option.bind_eq_some_iff.mp answer
      cases answer
      exact ⟨e, there, congrArg Orig.issuer same, congrArg Orig.serialNumber same,
        (Codec.d2i_take w.certs cert_eq readCert).symm,
        (Codec.d2i_take w.keys pkey_eq readKey).symm⟩
  · exact nomatch answer

end

def oneByte : Codec Bool where
  i2d := fun b => some [if b then 1 else 2]
  d2i := fun bytes => bytes.head?.map (· == 1)
  whole := by
    intro b bytes encoded rest
    cases b <;> cases encoded <;> rfl
  cut := by
    intro b bytes encoded n short
    cases encoded
    obtain rfl : n = 0 := Nat.lt_one_iff.mp short
    rfl

def oneSlot : World Bool Bool := ⟨fun _ => Vector.replicate 16 0, fun _ => 0, oneByte, oneByte⟩

def issuedBy (serialNumber : Der) : Orig := ⟨some ⟨[48, 1, 5], rfl⟩, some serialNumber⟩

def serial7 : Der := ⟨[2, 1, 7], rfl⟩

def serial128 : Der := ⟨[2, 2, 0, 128], rfl⟩

def serial129 : Der := ⟨[2, 2, 0, 129], rfl⟩

/-- A stored certificate is returned. -/
theorem query_stored_once : ∃ nodes, ∃ log : List (Stored Bool Bool),
    query oneSlot nodes (issuedBy serial7) 1 [] = some (true, false) ∧
      ∃ e ∈ log, e.orig.serialNumber = some serial7 ∧ e.cert = true ∧ e.pkey = false := by
  obtain ⟨nodes, stored⟩ : ∃ nodes, CertCache.store oneSlot Store.init (issuedBy serial7) true
      false 1 1 = .returned 0 nodes 2 := ⟨_, rfl⟩
  let hashed : Set Bytes := {[48, 1, 5, 2, 1, 7, 1]}
  have known : Hashes hashed (issuedBy serial7) 1 := by
    intro issuer serialNumber issuer_eq serial_eq
    cases issuer_eq
    cases serial_eq
    exact Set.mem_singleton _
  have identified : Identified (issuedBy serial7) := by
    intro issuer serialNumber issuer_eq serial_eq
    cases issuer_eq
    cases serial_eq
    exact ⟨by decide, by decide⟩
  have within : Within oneSlot true false := by
    intro certBytes pkeyBytes cert_eq pkey_eq _ _
    cases cert_eq
    cases pkey_eq
    exact ⟨by decide, by decide⟩
  have left : Leaves (CertCache.store oneSlot Store.init (issuedBy serial7) true false 1 1)
      nodes := by
    rw [stored]
    exact .returned 0 nodes 2
  have answer : query oneSlot nodes (issuedBy serial7) 1 [] = some (true, false) := by
    cases stored
    rfl
  obtain ⟨e, there, _, serial, cert, pkey⟩ := query_stored (Set.injOn_singleton _ _)
    (.store .init known (fun _ _ _ => within) left) known identified answer
  exact ⟨nodes, _, answer, e, there, serial, cert, pkey⟩

/-- The certificate with serial number 128 is the answer for serial number 129 of the same
issuer: both give the digest the same bytes. -/
theorem zero_byte_confuses : ∃ nodes, ∃ m : Bytes,
    CertCache.store oneSlot Store.init (issuedBy serial128) true true 1 1 = .returned 0 nodes 2 ∧
      Hashes {m} (issuedBy serial128) 1 ∧ Hashes {m} (issuedBy serial129) 1 ∧
      query oneSlot nodes (issuedBy serial129) 1 [] = some (true, true) ∧
      (issuedBy serial128).serialNumber ≠ (issuedBy serial129).serialNumber := by
  refine ⟨_, [48, 1, 5, 2, 2], rfl, ?_, ?_, rfl, by decide⟩
  · intro issuer serialNumber issuer_eq serial_eq
    cases issuer_eq
    cases serial_eq
    exact Set.mem_singleton _
  · intro issuer serialNumber issuer_eq serial_eq
    cases issuer_eq
    cases serial_eq
    exact Set.mem_singleton _

end CertIdentity
