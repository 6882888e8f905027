import Tigerso.CText
import Tigerso.Dechex
import Tigerso.DerEncoding

/-!
# ssl/CertCache: resigned certificates by issuer and serial number

One slot for each value of the hash. The name of a certificate is the length of its two
encodings and the digest of their concatenation, which goes through a C string on the way.
-/

open SystemCalls CText Dechex DerEncoding

namespace CertCache

def maxCertLength : Nat := 8192
def maxKeyLength : Nat := 8192

/-- `sizeof(keyname)`. -/
def keynameSize : Nat := 64

/-- An `i2d` and its `d2i`: the reader needs one whole encoding and ignores the rest. -/
structure Codec (α : Type) where
  /-- `none` for a negative result. -/
  i2d : α → Option Bytes
  d2i : Bytes → Option α
  whole : ∀ a bytes, i2d a = some bytes → ∀ rest, d2i (bytes ++ rest) = some a
  cut : ∀ a bytes, i2d a = some bytes → ∀ n < bytes.length, d2i (bytes.take n) = none

/-- What `i2d_X509_NAME` and `i2d_ASN1_INTEGER` return for a certificate. -/
structure Orig where
  issuer : Option Der
  serialNumber : Option Der

structure CertNode where
  keyname : Bytes
  certLen : Nat
  pkeyLen : Nat
  cert : Bytes
  pkey : Bytes

def CertNode.blank : CertNode :=
  ⟨[], 0, 0, List.replicate maxCertLength 0, List.replicate maxKeyLength 0⟩

/-- What stands outside: the digest, the hash of a name, and the two encodings. -/
structure World (Cert Key : Type) where
  md5 : Bytes → Vector Byte 16
  hash : Bytes → Nat
  certs : Codec Cert
  keys : Codec Key

abbrev Store := Nat → CertNode

def Store.init : Store := fun _ => .blank

/-- `"%2.2hx"` of each byte of the digest. -/
def hexText (digest : Bytes) : Bytes :=
  digest.flatMap fun b => [hex2Char (b.toNat / 16), hex2Char (b.toNat % 16)]

/-- The message that `SSLHelper::MD5` digests: `snprintf` with `"%s"` into 1023 bytes. -/
def message (input : Bytes) : Bytes := (cString input).take 1022

/-- `SSLHelper::MD5`; the text at `output`. -/
def md5 (md5 : Bytes → Vector Byte 16) (input : Bytes) (len : Nat) : Bytes :=
  (hexText (md5 (message input)).toList).take (len - 1)

/-- What `getKeyName` writes from the start of its buffer on. The last byte of the block was never
written, and the terminator is stored behind it. -/
def keyBuffer (issuer serialNumber : Der) (behind : Byte) : Bytes :=
  issuer.bytes ++ serialNumber.bytes ++ [behind, 0]

/-- What `getKeyName` asks `malloc` for. -/
def keyBlock (issuer serialNumber : Der) : Nat :=
  issuer.bytes.length + serialNumber.bytes.length + 1

/-- What `getKeyName` puts at `keyname`, and how many bytes it writes behind its block. -/
structure KeyName where
  text : Bytes
  stray : Nat

/-- What a call of `store` comes to. -/
inductive StoreEnd where
  /-- It returns, and wrote so many bytes outside the slot and the blocks it had. -/
  | returned (ret : Int) (nodes : Store) (stray : Nat)
  /-- An encoding goes past its array and the node; what stands in the slots is not followed. -/
  | overran
  /-- It goes through a null node. -/
  | crashed

/-- `i2d` into an array. -/
def overwrite (array : Bytes) (encoded : Option Bytes) : Bytes :=
  let bytes := encoded.getD []
  bytes ++ array.drop bytes.length

section
variable {Cert Key : Type} (w : World Cert Key)

/-- `CertCache::getKeyName`; `none` for -1. -/
def getKeyName (orig : Orig) (behind : Byte) : Option KeyName :=
  match orig.issuer, orig.serialNumber with
  | some issuer, some serialNumber =>
    let length := issuer.bytes.length + serialNumber.bytes.length
    if 65535 < length ∨ length = 0 then none
    else
      let hexstr := dec2hex length
      let buffer := keyBuffer issuer serialNumber behind
      some
        { text := hexstr ++ 45 :: md5 w.md5 buffer (keynameSize - hexstr.length - 1)
          stray := buffer.length - keyBlock issuer serialNumber }
  | _, _ => none

/-- `CertCache::hashSearch`: the node it points to, whether the names agree, and what `getKeyName`
wrote behind its block; `none` when it returns before it has a node. -/
def hashSearch (nodes : Store) (orig : Orig) (behind : Byte) : Option (Nat × Bool × Nat) := do
  let ⟨keyname, stray⟩ ← getKeyName w orig behind
  let key := w.hash keyname
  some (key, (nodes key).keyname.take keyname.length == keyname, stray)

/-- `CertCache::query`; `none` for -1, and `after` is what follows the node in memory. -/
def query (nodes : Store) (orig : Orig) (behind : Byte) (after : Bytes) : Option (Cert × Key) :=
  match hashSearch w nodes orig behind with
  | some (key, true, _) =>
    let node := nodes key
    if node.certLen = 0 then none
    else do
      let cert ← w.certs.d2i ((node.cert ++ node.pkey ++ after).take node.certLen)
      if node.pkeyLen = 0 then none
      else do
        let pkey ← w.keys.d2i ((node.pkey ++ after).take node.pkeyLen)
        some (cert, pkey)
  | _ => none

/-- An `int` length, or -1, in an `unsigned short`. -/
def shortLength (encoded : Option Bytes) : Nat :=
  match encoded with
  | none => 65535
  | some bytes => bytes.length % 65536

/-- `CertCache::store`; `behind` and `behind'` are the bytes that the two calls of
`getKeyName` find. -/
def store (nodes : Store) (orig : Orig) (cert : Cert) (pkey : Key) (behind behind' : Byte) :
    StoreEnd :=
  match hashSearch w nodes orig behind with
  | none => .crashed
  | some (_, true, stray) => .returned 0 nodes stray
  | some (key, false, stray) =>
    let certBytes := w.certs.i2d cert
    let pkeyBytes := w.keys.i2d pkey
    let node := { nodes key with
      certLen := shortLength certBytes, pkeyLen := shortLength pkeyBytes }
    if maxCertLength < node.certLen then .returned (-1) (Function.update nodes key node) stray
    else if maxKeyLength < node.pkeyLen then
      .returned (-1) (Function.update nodes key node) stray
    else if maxCertLength < (certBytes.getD []).length ∨
        maxKeyLength < (pkeyBytes.getD []).length then .overran
    else
      let node := { node with
        cert := overwrite node.cert certBytes, pkey := overwrite node.pkey pkeyBytes }
      match getKeyName w orig behind' with
      | some name =>
        .returned 0 (Function.update nodes key { node with keyname := name.text })
          (stray + name.stray)
      | none => .returned 0 (Function.update nodes key node) stray

end

end CertCache
