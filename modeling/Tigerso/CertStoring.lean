import Tigerso.CertIdentity

/-!
# What a `store` leaves in the slot

The two lengths go through an `unsigned short` into the slot before they are checked, and the name
of the certificate is made in a block that is one byte too short.
-/

open SystemCalls CertCache

namespace CertStoring

/-- The arrays of a node. -/
structure Sized (node : CertNode) : Prop where
  cert : node.cert.length = maxCertLength
  pkey : node.pkey.length = maxKeyLength

/-- The slot holds these encodings, in its arrays, and no other slot has changed. -/
structure Stored (nodes nodes' : Store) (key : Nat) (certBytes pkeyBytes : Bytes) : Prop where
  fits : certBytes.length ≤ maxCertLength ∧ pkeyBytes.length ≤ maxKeyLength
  lengths : (nodes' key).certLen = certBytes.length ∧ (nodes' key).pkeyLen = pkeyBytes.length
  cert : (nodes' key).cert.take certBytes.length = certBytes
  pkey : (nodes' key).pkey.take pkeyBytes.length = pkeyBytes
  inside : Sized (nodes' key)
  others : ∀ other, other ≠ key → nodes' other = nodes other

section
variable {Cert Key : Type} {w : World Cert Key} {nodes : Store} {orig : Orig} {cert : Cert}
  {pkey : Key} {behind behind' : Byte} {key stray : Nat} {certBytes pkeyBytes : Bytes}

/-- A call of `store` on a miss either puts both encodings into the slot and nothing elsewhere, or
leaves the slots alone. -/
def Atomic (w : World Cert Key) (nodes : Store) (orig : Orig) (cert : Cert) (pkey : Key)
    (behind behind' : Byte) (key : Nat) (certBytes pkeyBytes : Bytes) : Prop :=
  ∃ ret nodes' stray, store w nodes orig cert pkey behind behind' = .returned ret nodes' stray ∧
    (ret = 0 → Stored nodes nodes' key certBytes pkeyBytes ∧ stray = 0) ∧
    (ret = -1 → nodes' = nodes)

def short (bytes : Bytes) : Nat := bytes.length % 65536

/-- The slot with new lengths and its old encodings. -/
theorem store_refused (behind' : Byte)
    (missed : hashSearch w nodes orig behind = some (key, false, stray))
    (certIs : w.certs.i2d cert = some certBytes) (pkeyIs : w.keys.i2d pkey = some pkeyBytes)
    (long : maxCertLength < short certBytes ∨ maxKeyLength < short pkeyBytes) :
    store w nodes orig cert pkey behind behind' = .returned (-1) (Function.update nodes key
      { nodes key with certLen := short certBytes, pkeyLen := short pkeyBytes }) stray := by
  rw [store, missed, certIs, pkeyIs]
  dsimp only [shortLength]
  split_ifs with longCert longKey
  · rfl
  · rfl
  · exact (long.elim longCert longKey).elim
  · exact (long.elim longCert longKey).elim

/-- Encodings that do not fit are written all the same when their lengths wrap. -/
theorem store_overruns (missed : hashSearch w nodes orig behind = some (key, false, stray))
    (certIs : w.certs.i2d cert = some certBytes) (pkeyIs : w.keys.i2d pkey = some pkeyBytes)
    (accepted : short certBytes ≤ maxCertLength ∧ short pkeyBytes ≤ maxKeyLength)
    (long : maxCertLength < certBytes.length ∨ maxKeyLength < pkeyBytes.length) :
    store w nodes orig cert pkey behind behind' = .overran := by
  rw [store, missed, certIs, pkeyIs]
  dsimp only [shortLength, Option.getD_some]
  have certShort : ¬maxCertLength < certBytes.length % 65536 := Nat.not_lt.mpr accepted.1
  have pkeyShort : ¬maxKeyLength < pkeyBytes.length % 65536 := Nat.not_lt.mpr accepted.2
  rw [if_neg certShort, if_neg pkeyShort, if_pos long]

theorem short_of_fits (fits : certBytes.length ≤ maxCertLength) :
    short certBytes = certBytes.length := by
  refine Nat.mod_eq_of_lt (Nat.lt_of_le_of_lt fits ?_)
  decide

/-- Encodings that fit are written, and a byte behind each of the two blocks for the name. -/
theorem store_fits (behind' : Byte)
    (missed : hashSearch w nodes orig behind = some (key, false, stray))
    (certIs : w.certs.i2d cert = some certBytes) (pkeyIs : w.keys.i2d pkey = some pkeyBytes)
    (fits : certBytes.length ≤ maxCertLength ∧ pkeyBytes.length ≤ maxKeyLength) :
    ∃ keyname, store w nodes orig cert pkey behind behind' =
      .returned 0 (Function.update nodes key
        { keyname := keyname, certLen := certBytes.length, pkeyLen := pkeyBytes.length,
          cert := overwrite (nodes key).cert (some certBytes),
          pkey := overwrite (nodes key).pkey (some pkeyBytes) }) 2 := by
  obtain ⟨keyname, named, rfl⟩ := CertIdentity.named_of_missed missed
  obtain ⟨again, named', once⟩ := CertIdentity.named_again named behind'
  have certShort : certBytes.length % 65536 = certBytes.length := short_of_fits fits.1
  have pkeyShort : pkeyBytes.length % 65536 = pkeyBytes.length := short_of_fits fits.2
  refine ⟨again.text, ?_⟩
  rw [store, missed, certIs, pkeyIs, named']
  dsimp only [shortLength, Option.getD_some]
  rw [if_neg (Nat.not_lt.mpr (certShort.trans_le fits.1)),
    if_neg (Nat.not_lt.mpr (pkeyShort.trans_le fits.2)), if_neg (by omega), certShort, pkeyShort,
    once]

theorem overwrite_length {array bytes : Bytes} (fits : bytes.length ≤ array.length) :
    (overwrite array (some bytes)).length = array.length := by
  rw [overwrite, Option.getD_some, List.length_append, List.length_drop]
  omega

/-- Data that fit their arrays are read back whole. -/
theorem stored_of_written (sized : Sized (nodes key)) {keyname : Bytes}
    (fits : certBytes.length ≤ maxCertLength ∧ pkeyBytes.length ≤ maxKeyLength) :
    Stored nodes (Function.update nodes key
      { keyname := keyname, certLen := certBytes.length, pkeyLen := pkeyBytes.length,
        cert := overwrite (nodes key).cert (some certBytes),
        pkey := overwrite (nodes key).pkey (some pkeyBytes) }) key certBytes pkeyBytes := by
  constructor
  · exact fits
  · rw [Function.update_self]
    exact ⟨rfl, rfl⟩
  · rw [Function.update_self]
    exact List.take_left
  · rw [Function.update_self]
    exact List.take_left
  · rw [Function.update_self]
    constructor
    · exact (overwrite_length (fits.1.trans_eq sized.cert.symm)).trans sized.cert
    · exact (overwrite_length (fits.2.trans_eq sized.pkey.symm)).trans sized.pkey
  · intro other away
    exact Function.update_of_ne away _ _

theorem refused_atomic_iff (missed : hashSearch w nodes orig behind = some (key, false, stray))
    (certIs : w.certs.i2d cert = some certBytes) (pkeyIs : w.keys.i2d pkey = some pkeyBytes)
    (long : maxCertLength < short certBytes ∨ maxKeyLength < short pkeyBytes) :
    Atomic w nodes orig cert pkey behind behind' key certBytes pkeyBytes ↔
      (nodes key).certLen = short certBytes ∧ (nodes key).pkeyLen = short pkeyBytes := by
  have refused := store_refused behind' missed certIs pkeyIs long
  constructor
  · rintro ⟨ret, nodes', stray', call, _, kept⟩
    rw [refused] at call
    obtain ⟨rfl, rfl, rfl⟩ := StoreEnd.returned.inj call
    have same := congrFun (kept rfl) key
    rw [Function.update_self] at same
    exact ⟨(congrArg CertNode.certLen same).symm, (congrArg CertNode.pkeyLen same).symm⟩
  · rintro ⟨certLen, pkeyLen⟩
    refine ⟨-1, _, stray, refused, fun wrong => absurd wrong (by decide), fun _ => ?_⟩
    rw [← certLen, ← pkeyLen]
    exact Function.update_eq_self key nodes

/-- What is not refused is written, and not only to the slot. -/
theorem accepted_not_atomic (missed : hashSearch w nodes orig behind = some (key, false, stray))
    (certIs : w.certs.i2d cert = some certBytes) (pkeyIs : w.keys.i2d pkey = some pkeyBytes)
    (accepted : short certBytes ≤ maxCertLength ∧ short pkeyBytes ≤ maxKeyLength) :
    ¬ Atomic w nodes orig cert pkey behind behind' key certBytes pkeyBytes := by
  rintro ⟨ret, nodes', stray', call, stored, _⟩
  by_cases fits : certBytes.length ≤ maxCertLength ∧ pkeyBytes.length ≤ maxKeyLength
  · obtain ⟨keyname, written⟩ := store_fits behind' missed certIs pkeyIs fits
    obtain ⟨rfl, _, strays⟩ := StoreEnd.returned.inj (written.symm.trans call)
    exact absurd (strays.trans (stored rfl).2) (by decide)
  · rw [store_overruns missed certIs pkeyIs accepted (by omega)] at call
    cases call

/-- On a miss a call stores both encodings and nothing else, or changes nothing, exactly when one of
the lengths is too long as the slot keeps it and the slot has these two lengths already. When both
encodings fit they are in the slot, and the two bytes behind the blocks are all that is too much. -/
theorem atomic_iff (sized : Sized (nodes key))
    (missed : hashSearch w nodes orig behind = some (key, false, stray))
    (certIs : w.certs.i2d cert = some certBytes) (pkeyIs : w.keys.i2d pkey = some pkeyBytes) :
    (Atomic w nodes orig cert pkey behind behind' key certBytes pkeyBytes ↔
      (maxCertLength < short certBytes ∨ maxKeyLength < short pkeyBytes) ∧
        (nodes key).certLen = short certBytes ∧ (nodes key).pkeyLen = short pkeyBytes) ∧
    (certBytes.length ≤ maxCertLength ∧ pkeyBytes.length ≤ maxKeyLength →
      ∃ nodes', store w nodes orig cert pkey behind behind' = .returned 0 nodes' 2 ∧
        Stored nodes nodes' key certBytes pkeyBytes) := by
  refine ⟨?_, fun fits => ?_⟩
  · by_cases long : maxCertLength < short certBytes ∨ maxKeyLength < short pkeyBytes
    · rw [refused_atomic_iff missed certIs pkeyIs long]
      exact ⟨fun same => ⟨long, same⟩, And.right⟩
    · exact iff_of_false (accepted_not_atomic missed certIs pkeyIs (by omega))
        fun refused => long refused.1
  · obtain ⟨keyname, written⟩ := store_fits behind' missed certIs pkeyIs fits
    exact ⟨_, written, stored_of_written sized fits⟩

end

/-- An encoding of `size` more bytes behind one that tells. -/
def padded (size : Nat) : Codec Bool where
  i2d := fun b => some ((if b then 1 else 2) :: List.replicate size 0)
  d2i := fun bytes => if size < bytes.length then bytes.head?.map (· == 1) else none
  whole := by
    intro b bytes encoded rest
    obtain rfl := Option.some.inj encoded
    have enough : size < (((if b then 1 else 2) :: List.replicate size 0) ++ rest).length := by
      rw [List.length_append, List.length_cons, List.length_replicate]
      omega
    rw [if_pos enough]
    cases b
    · rfl
    · rfl
  cut := by
    intro b bytes encoded n cut
    obtain rfl := Option.some.inj encoded
    rw [List.length_cons, List.length_replicate] at cut
    refine if_neg ?_
    rw [List.length_take]
    omega

/-- One slot, certificates of `size + 1` bytes and keys of one byte. -/
def longCerts (size : Nat) : World Bool Bool :=
  ⟨fun _ => Vector.replicate 16 0, fun _ => 0, padded size, CertIdentity.oneByte⟩

theorem init_missed (size : Nat) :
    hashSearch (longCerts size) Store.init (CertIdentity.issuedBy CertIdentity.serial7) 1 =
      some (0, false, 1) := rfl

def refusedOnce : Store :=
  Function.update Store.init 0 { CertNode.blank with certLen := 9001, pkeyLen := 1 }

theorem short_nineThousand : short (1 :: List.replicate 9000 0) = 9001 := by
  rw [short, List.length_cons, List.length_replicate]

/-- A certificate of 9001 bytes is refused again. -/
theorem atomic_again : Atomic (longCerts 9000) refusedOnce
    (CertIdentity.issuedBy CertIdentity.serial7) true false 1 1 0 (1 :: List.replicate 9000 0)
    [2] := by
  have sized : Sized (refusedOnce 0) := ⟨List.length_replicate, List.length_replicate⟩
  have missed : hashSearch (longCerts 9000) refusedOnce
      (CertIdentity.issuedBy CertIdentity.serial7) 1 = some (0, false, 1) := rfl
  have certIs : (longCerts 9000).certs.i2d true = some (1 :: List.replicate 9000 0) := rfl
  refine (atomic_iff sized missed certIs rfl).1.mpr ⟨Or.inl ?_, ?_, rfl⟩
  · rw [short_nineThousand]
    decide
  · rw [short_nineThousand]
    rfl

/-- A certificate of 9001 bytes is refused, and the slot has its length. One of two bytes is stored,
and not everything that is written goes to the slot. -/
theorem not_atomic :
    (∃ certBytes, certBytes.length = 9001 ∧ (longCerts 9000).certs.i2d true = some certBytes ∧
      hashSearch (longCerts 9000) Store.init (CertIdentity.issuedBy CertIdentity.serial7) 1 =
        some (0, false, 1) ∧
      ¬ Atomic (longCerts 9000) Store.init (CertIdentity.issuedBy CertIdentity.serial7) true false
        1 1 0 certBytes [2]) ∧
    ¬ Atomic (longCerts 1) Store.init (CertIdentity.issuedBy CertIdentity.serial7) true false
      1 1 0 [1, 0] [2] := by
  constructor
  · have certIs : (longCerts 9000).certs.i2d true = some (1 :: List.replicate 9000 0) := rfl
    have pkeyIs : (longCerts 9000).keys.i2d false = some [2] := rfl
    refine ⟨1 :: List.replicate 9000 0, ?_, certIs, init_missed 9000, fun atomic => ?_⟩
    · rw [List.length_cons, List.length_replicate]
    · have long : maxCertLength < short (1 :: List.replicate 9000 0) := by
        rw [short_nineThousand]
        decide
      have same := (refused_atomic_iff (init_missed 9000) certIs pkeyIs (Or.inl long)).mp atomic
      rw [short_nineThousand] at same
      exact absurd same.1 (by decide)
  · exact accepted_not_atomic (init_missed 1) rfl rfl ⟨by decide, by decide⟩

end CertStoring
