import Tigerso.DNSCache
import Tigerso.DNSNames

/-!
# dns/DNSResolver: asking for a host

The host is copied to an array of 255 bytes, and the pieces between its dots are copied with
their lengths to the query. Nobody looks at how long it is.
-/

open SystemCalls CText CheckedMemory DNSResolver DNSGrammar DNSEncoding DNSNames

namespace DNSQuery

def dnsStandardQueryFlags : UInt16 := 0x0100
def dnsHeaderFlagsRd : UInt16 := 0x0100
def dnsHeadEmpty : UInt16 := 0
def dnsClassInternet : UInt16 := 1
def dnsAdditionOpt : UInt16 := 0x0029
def maxUdpPayload : UInt16 := 1280

/-- What a query leaves in the resolver. -/
structure Query where
  queryBuf : Bytes
  id_ : UInt16
  queryName : Bytes

/-- The `DNSHeader` of a query. -/
def queryHeader (tid : UInt16) : Bytes :=
  word16 tid ++ (word16 (dnsStandardQueryFlags ||| dnsHeaderFlagsRd) ++ (word16 1 ++
    (word16 dnsHeadEmpty ++ (word16 dnsHeadEmpty ++ word16 1))))

/-- The loop over the labels. `strtok` finds the pieces between the dots that are not empty, and
overwrites the dot behind each in the array of `size` bytes; the first piece begins at `off`. -/
def copyLabels (size : Nat) : List Bytes → Nat → Bytes → Nat → Checked (Nat × Bytes)
  | [], _, buf, cur => .ok (cur, buf)
  | piece :: pieces, off, buf, cur =>
    if piece = [] then copyLabels size pieces (off + 1) buf cur
    else if pieces ≠ [] ∧ size ≤ off + piece.length then .error .writeOutside
    else do
      let buf ← store buf cur [piece.length.toUInt8]
      let buf ← store buf (cur + 1) piece
      copyLabels size pieces (off + piece.length + 1) buf (cur + 1 + piece.length)

/-- `DNSResolver::packDNSQuery` with the transaction ID that the generator gave; `behind` lies
in memory behind `domain`. -/
def packDNSQuery (tid : UInt16) (query_name behind : Bytes) : Checked (Nat × Query) := do
  let buf ← store (List.replicate dnsMessageLimit 0) 0 (queryHeader tid)
  let domain ← store (List.replicate dnsDomainNameLimit 0) 0 query_name
  let pieces := (cString (domain ++ behind)).splitOn 46
  let (cur, buf) ← copyLabels domain.length pieces 0 buf headerSize
  let cur := cur + 1
  let buf ← store buf cur (word16 dnsTypeA.toUInt16)
  let buf ← store buf (cur + 2) (word16 dnsClassInternet)
  let cur := cur + 4 + 1
  let buf ← store buf cur (word16 dnsAdditionOpt)
  let buf ← store buf (cur + 2) (word16 maxUdpPayload)
  .ok (cur + 2 + 2 + 4 + 2, ⟨buf, tid, query_name⟩)

/-- `DNSResolver::asyncQueryInit` with what `CreateUDPConnect` returns: the code, and what goes
to the socket. -/
def asyncQueryInit (tid : UInt16) (host behind : Bytes) (created : Int) :
    Checked (Int × Query × Bytes) := do
  let (len, query) ← packDNSQuery tid host behind
  if created ≠ 0 then .ok (dnsErr, query, [])
  else do
    let sent ← loads query.queryBuf 0 len
    .ok (dnsOk, query, sent)

/-- The copy of the name in `DNSCache::updateNode`. -/
def copyHost (host_ host : Bytes) : Checked Bytes := store host_ 0 (cString host)

/-- The pieces between the dots that are not empty. -/
def tokens (text : Bytes) : List Bytes := (text.splitOn 46).filter (· ≠ [])

def wire : List Bytes → Bytes
  | [] => []
  | piece :: pieces => piece.length.toUInt8 :: piece ++ wire pieces

def joined (pieces : List Bytes) : Bytes := [46].intercalate pieces

section
variable {piece : Bytes} {pieces : List Bytes} {size off cur : Nat} {buf text : Bytes}

theorem joined_cons (some_ : pieces ≠ []) :
    (joined (piece :: pieces)).length = piece.length + 1 + (joined pieces).length := by
  obtain ⟨next, rest, rfl⟩ := List.exists_cons_of_ne_nil some_
  rw [joined, List.intercalate, List.intersperse_cons_cons, List.flatten_cons, List.flatten_cons,
    List.length_append, List.length_append, List.length_singleton, joined, List.intercalate,
    Nat.add_assoc]

theorem joined_splitOn (text : Bytes) : joined (text.splitOn 46) = text :=
  List.intercalate_splitOn 46

theorem wire_cons (piece : Bytes) (pieces : List Bytes) :
    (wire (piece :: pieces)).length = piece.length + 1 + (wire pieces).length := by
  rw [wire, List.cons_append, List.length_cons, List.length_append]
  omega

theorem joined_single (piece : Bytes) : joined [piece] = piece := List.intercalate_singleton

theorem wire_length_le (pieces : List Bytes) :
    (wire (pieces.filter (· ≠ []))).length ≤ (joined pieces).length + 1 := by
  induction pieces with
  | nil => exact Nat.zero_le _
  | cons piece pieces ih =>
    have kept : (wire ((piece :: pieces).filter (· ≠ []))).length ≤
        piece.length + 1 + (wire (pieces.filter (· ≠ []))).length := by
      by_cases empty : piece = []
      · rw [List.filter_cons_of_neg (by simpa using empty)]
        exact Nat.le_add_left _ _
      · rw [List.filter_cons_of_pos (by simpa using empty), wire_cons]
    by_cases last : pieces = []
    · subst last
      rw [joined_single]
      exact kept
    · rw [joined_cons last]
      omega

/-- The labels are copied one behind the other. -/
theorem copyLabels_ok (inside : pieces ≠ [] → off + (joined pieces).length ≤ size)
    (room : cur + (wire (pieces.filter (· ≠ []))).length ≤ buf.length) :
    copyLabels size pieces off buf cur =
      .ok (cur + (wire (pieces.filter (· ≠ []))).length,
        written buf cur (wire (pieces.filter (· ≠ [])))) := by
  induction pieces generalizing off cur buf with
  | nil =>
    rw [List.filter_nil, wire, written_nil]
    rfl
  | cons piece pieces ih =>
    have within := inside (List.cons_ne_nil _ _)
    have rest : pieces ≠ [] → off + piece.length + 1 + (joined pieces).length ≤ size := by
      intro more
      rw [joined_cons more] at within
      omega
    rw [copyLabels]
    by_cases empty : piece = []
    · have dropped : (piece :: pieces).filter (· ≠ []) = pieces.filter (· ≠ []) :=
        List.filter_cons_of_neg (by simpa using empty)
      rw [dropped] at room ⊢
      rw [if_pos empty]
      refine ih (fun more => ?_) room
      have shifted := rest more
      rw [empty, List.length_nil] at shifted
      exact shifted
    · have kept : (piece :: pieces).filter (· ≠ []) = piece :: pieces.filter (· ≠ []) :=
        List.filter_cons_of_pos (by simpa using empty)
      rw [kept, wire_cons] at room
      have in_array : ¬ (pieces ≠ [] ∧ size ≤ off + piece.length) := by
        rintro ⟨more, beyond⟩
        have within := rest more
        omega
      have first : cur + [piece.length.toUInt8].length ≤ buf.length := by
        rw [List.length_singleton]
        omega
      have second : cur + 1 + piece.length ≤ (written buf cur [piece.length.toUInt8]).length := by
        rw [written_length first]
        omega
      have both : written (written buf cur [piece.length.toUInt8]) (cur + 1) piece =
          written buf cur (piece.length.toUInt8 :: piece) := written_append _ first
      have long : cur + (piece.length.toUInt8 :: piece).length ≤ buf.length := by
        rw [List.length_cons]
        omega
      have later := ih rest (show cur + 1 + piece.length + (wire (pieces.filter (· ≠ []))).length ≤
        (written buf cur (piece.length.toUInt8 :: piece)).length by
          rw [written_length long]; omega)
      have all : written (written buf cur (piece.length.toUInt8 :: piece))
          (cur + 1 + piece.length) (wire (pieces.filter (· ≠ []))) =
            written buf cur (wire (piece :: pieces.filter (· ≠ []))) := by
        have shape : cur + 1 + piece.length = cur + (piece.length.toUInt8 :: piece).length := by
          rw [List.length_cons]
          omega
        rw [shape, written_append _ long, wire]
      rw [if_neg empty, if_neg in_array, store_written first, ok_bind, store_written second,
        ok_bind, both, later, all, kept, wire_cons, Nat.add_assoc cur 1 piece.length,
        Nat.add_comm 1 piece.length, Nat.add_assoc cur]

/-- A dot behind a piece is overwritten outside of the array. -/
theorem copyLabels_outside {last : Bytes} {more : List Bytes} (some_ : last ≠ [])
    (behind : more ≠ []) (beyond : size ≤ off + (joined (pieces ++ [last])).length)
    (result : Nat × Bytes) :
    copyLabels size (pieces ++ last :: more) off buf cur ≠ .ok result := by
  induction pieces generalizing off cur buf with
  | nil =>
    rw [List.nil_append, joined_single] at beyond
    rw [List.nil_append, copyLabels, if_neg some_, if_pos ⟨behind, beyond⟩]
    exact nofun
  | cons piece pieces ih =>
    have not_last : pieces ++ [last] ≠ [] := List.concat_ne_nil _ _
    rw [List.cons_append, joined_cons not_last] at beyond
    rw [List.cons_append, copyLabels]
    split_ifs with empty outside
    · rw [empty, List.length_nil] at beyond
      exact ih (by omega)
    · exact nofun
    · intro copied
      obtain ⟨_, _, copied⟩ := bind_ok_iff.mp copied
      obtain ⟨_, _, copied⟩ := bind_ok_iff.mp copied
      exact ih (by omega) copied

/-- The record behind the question: the root, the type, the size, and six bytes of zero. -/
def optRecord : Bytes :=
  [0] ++ (word16 dnsAdditionOpt ++ (word16 maxUdpPayload ++ List.replicate 6 0))

def queryBytes (tid : UInt16) (labels : Bytes) : Bytes :=
  queryHeader tid ++ (labels ++ ([0] ++ (word16 dnsTypeA.toUInt16 ++
    (word16 dnsClassInternet ++ optRecord))))

theorem queryHeader_length (tid : UInt16) : (queryHeader tid).length = headerSize := rfl

theorem word16_length (n : UInt16) : (word16 n).length = 2 := rfl

/-- A zero that is not written stands behind what is. -/
theorem written_zeros {n k : Nat} (fits : text.length + k ≤ n) :
    written (List.replicate n 0) 0 (text ++ List.replicate k 0) =
      written (List.replicate n 0) 0 text := by
  have rest : List.replicate (n - text.length) (0 : Byte) =
      List.replicate k 0 ++ List.replicate (n - (text.length + k)) 0 := by
    rw [List.replicate_append_replicate]
    congr 1
    omega
  rw [written, written, List.take_zero, List.nil_append, List.nil_append, Nat.zero_add,
    Nat.zero_add, List.drop_replicate, List.drop_replicate, List.length_append,
    List.length_replicate, rest, List.append_assoc]

/-- A copy `k` bytes behind what is written. -/
theorem store_behind {n pos : Nat} {more : Bytes} (k : Nat) (there : pos = text.length + k)
    (fits : text.length + k + more.length ≤ n) :
    store (written (List.replicate n 0) 0 text) pos more =
      .ok (written (List.replicate n 0) 0 (text ++ (List.replicate k 0 ++ more))) := by
  subst there
  have size : (text ++ List.replicate k (0 : Byte)).length = text.length + k := by
    rw [List.length_append, List.length_replicate]
  have within : 0 + (text ++ List.replicate k (0 : Byte)).length ≤
      (List.replicate n (0 : Byte)).length := by
    rw [size, List.length_replicate]
    omega
  rw [← written_zeros (show text.length + k ≤ n by omega)]
  have both := written_append more within
  rw [Nat.zero_add, size] at both
  rw [store_written, both, List.append_assoc]
  rw [written_length within, List.length_replicate]
  exact fits

/-- A host whose string ends inside of `domain`. -/
structure Stored (host : Bytes) : Prop where
  fits : host.length ≤ dnsDomainNameLimit
  ends : (cString host).length < dnsDomainNameLimit

theorem cString_domain {host : Bytes} (stored : Stored host) (behind : Bytes) :
    cString (written (List.replicate dnsDomainNameLimit 0) 0 host ++ behind) =
      cString host := by
  have fits := stored.fits
  have ends := stored.ends
  rw [written, List.take_zero, List.nil_append, Nat.zero_add, List.drop_replicate,
    List.append_assoc]
  by_cases zero : 0 ∈ host
  · obtain ⟨before, after, rfl, clean⟩ := List.eq_append_cons_of_mem zero
    rw [List.append_assoc, List.cons_append]
    exact (untilByte_append clean _).trans (untilByte_append clean _).symm
  · rw [cString_clean zero] at ends ⊢
    obtain ⟨k, size⟩ : ∃ k, dnsDomainNameLimit - host.length = k + 1 :=
      ⟨dnsDomainNameLimit - host.length - 1, by omega⟩
    rw [size, List.replicate_succ, List.cons_append]
    exact untilByte_append zero _

theorem wire_tokens_le (text : Bytes) : (wire (tokens text)).length ≤ text.length + 1 := by
  have le := wire_length_le (text.splitOn 46)
  rwa [joined_splitOn] at le

/-- The query is packed inside of the arrays. -/
theorem packDNSQuery_ok {host : Bytes} (stored : Stored host) (tid : UInt16) (behind : Bytes) :
    packDNSQuery tid host behind =
      .ok (headerSize + ((wire (tokens (cString host))).length + 1) + 4 + 11,
        ⟨written (List.replicate dnsMessageLimit 0) 0
          (queryBytes tid (wire (tokens (cString host)))), tid, host⟩) := by
  have ends := stored.ends
  have few := wire_tokens_le (cString host)
  have short : (wire (tokens (cString host))).length ≤ 255 := by
    rw [dnsDomainNameLimit] at ends
    omega
  have header : 0 + (queryHeader tid).length ≤
      (List.replicate dnsMessageLimit (0 : Byte)).length := by
    rw [List.length_replicate]
    exact Nat.le_of_ble_eq_true rfl
  have domain : 0 + host.length ≤ (List.replicate dnsDomainNameLimit (0 : Byte)).length := by
    rw [List.length_replicate, Nat.zero_add]
    exact stored.fits
  have size : (written (List.replicate dnsDomainNameLimit 0) 0 host).length =
      dnsDomainNameLimit := by
    rw [written_length domain, List.length_replicate]
  have copied : copyLabels dnsDomainNameLimit ((cString host).splitOn 46) 0
      (written (List.replicate dnsMessageLimit 0) 0 (queryHeader tid)) headerSize =
        .ok (headerSize + (wire (tokens (cString host))).length,
          written (List.replicate dnsMessageLimit 0) 0
            (queryHeader tid ++ wire (tokens (cString host)))) := by
    have both := written_append (wire (tokens (cString host))) header
    rw [Nat.zero_add, queryHeader_length] at both
    rw [← both]
    refine copyLabels_ok (fun _ => ?_) ?_
    · rw [joined_splitOn, Nat.zero_add]
      exact ends.le
    · rw [written_length header, List.length_replicate]
      exact (Nat.add_le_add_left short headerSize).trans (Nat.le_of_ble_eq_true rfl)
  generalize wire (tokens (cString host)) = labels at copied short
  have front : (queryHeader tid ++ labels).length = headerSize + labels.length := by
    rw [List.length_append, queryHeader_length]
  -- each number stands right behind the text so far, or behind one byte that stays zero
  have behind_ (text : Bytes) {pos : Nat} (k : Nat) (n : UInt16) (there : pos = text.length + k)
      (few : pos ≤ headerSize + labels.length + 8) :
      ∃ text', text' = text ++ (List.replicate k 0 ++ word16 n) ∧ text'.length = pos + 2 ∧
        store (written (List.replicate dnsMessageLimit 0) 0 text) pos (word16 n) =
          .ok (written (List.replicate dnsMessageLimit 0) 0 text') := by
    refine ⟨_, rfl, ?_, store_behind k there ?_⟩
    · rw [List.length_append, List.length_append, List.length_replicate, word16_length, there,
        Nat.add_assoc]
    · rw [headerSize] at few
      rw [← there, word16_length, dnsMessageLimit]
      omega
  obtain ⟨t₁, eq₁, size₁, type_⟩ := behind_ (queryHeader tid ++ labels) 1 dnsTypeA.toUInt16
    (show headerSize + labels.length + 1 = _ by rw [front]) (by omega)
  obtain ⟨t₂, eq₂, size₂, class_⟩ := behind_ t₁ 0 dnsClassInternet
    (show headerSize + labels.length + 1 + 2 = _ by rw [size₁]) (by omega)
  obtain ⟨t₃, eq₃, size₃, opt⟩ := behind_ t₂ 1 dnsAdditionOpt
    (show headerSize + labels.length + 1 + 4 + 1 = _ by rw [size₂]) (by omega)
  obtain ⟨t₄, eq₄, size₄, payload⟩ := behind_ t₃ 0 maxUdpPayload
    (show headerSize + labels.length + 1 + 4 + 1 + 2 = _ by rw [size₃]) (by omega)
  have all : queryBytes tid labels = t₄ ++ List.replicate 6 0 := by
    rw [eq₄, eq₃, eq₂, eq₁]
    simp only [queryBytes, optRecord, List.append_assoc]
    rfl
  have fits : t₄.length + 6 ≤ dnsMessageLimit := by
    rw [size₄, headerSize, dnsMessageLimit]
    omega
  rw [packDNSQuery, store_written header, ok_bind, store_written domain, ok_bind, size,
    cString_domain stored]
  dsimp only
  rw [copied, ok_bind]
  dsimp only
  rw [type_, ok_bind, class_, ok_bind, opt, ok_bind, payload, ok_bind, all, written_zeros fits]
  rfl

def dotted (pieces : List Bytes) : Bytes := pieces.flatMap fun piece => piece ++ [46]

theorem joined_dot (some_ : pieces ≠ []) : joined pieces ++ [46] = dotted pieces := by
  induction pieces with
  | nil => exact absurd rfl some_
  | cons piece pieces ih =>
    rw [dotted, List.flatMap_cons]
    by_cases last : pieces = []
    · subst last
      rw [joined_single, List.flatMap_nil, List.append_nil]
    · obtain ⟨next, rest, shape⟩ := List.exists_cons_of_ne_nil last
      rw [← dotted, ← ih last, joined, shape, List.intercalate, List.intersperse_cons_cons,
        List.flatten_cons, List.flatten_cons, joined, List.intercalate]
      simp only [List.append_assoc]

theorem wire_length (some_ : pieces ≠ []) : (wire pieces).length = (joined pieces).length + 1 := by
  induction pieces with
  | nil => exact absurd rfl some_
  | cons piece pieces ih =>
    rw [wire_cons]
    by_cases last : pieces = []
    · subst last
      rw [joined_single]
      rfl
    · rw [joined_cons last, ih last]
      omega

theorem wire_labels (labels : List Label) : wire (labels.map Label.bytes) =
    encodeLabels labels := by
  induction labels with
  | nil => rfl
  | cons label labels ih => rw [List.map_cons, wire, ih, encodeLabels]

/-- A host without empty labels is split at its dots. -/
theorem tokens_joined {labels : List Label} (some_ : labels ≠ [])
    (clean : ∀ label ∈ labels, 46 ∉ label.bytes) :
    tokens (joined (labels.map Label.bytes)) = labels.map Label.bytes := by
  rw [tokens, joined, List.splitOn_intercalate]
  · rw [List.filter_eq_self]
    intro piece there
    obtain ⟨label, _, rfl⟩ := List.mem_map.mp there
    have long := label.some_
    refine decide_eq_true fun empty => ?_
    rw [empty] at long
    exact absurd long (by decide)
  · intro piece there
    obtain ⟨label, among, rfl⟩ := List.mem_map.mp there
    exact clean label among
  · simpa using some_

/-- What the reader finds of labels that were written. -/
theorem reads_labels {front : Bytes} {labels : List Label}
    (there : front ++ encodeName labels <+: buf) :
    Reads buf front.length (front.length + (encodeName labels).length)
      (dotted (labels.map Label.bytes)) := by
  induction labels generalizing front with
  | nil => exact .root (byte_behind there)
  | cons label labels ih =>
    have few := label.few
    have size : label.bytes.length.toUInt8.toNat = label.bytes.length := by
      simp only [Nat.toUInt8, UInt8.toNat_ofNat']
      omega
    obtain ⟨nonzero, isLabel⟩ := @label_byte label.bytes.length.toUInt8
      (by rw [size]; exact label.some_) (by rw [size]; exact label.few)
    have shape : encodeName (label :: labels) =
        label.bytes.length.toUInt8 :: (label.bytes ++ encodeName labels) := by
      rw [encodeName, encodeLabels, encodeName, List.cons_append, List.cons_append,
        List.append_assoc]
    rw [shape] at there ⊢
    have first := byte_behind there
    have next : front.length + 1 + label.bytes.length =
        (front ++ label.bytes.length.toUInt8 :: label.bytes).length := by
      rw [List.length_append, List.length_cons]
      omega
    have moved : (front ++ label.bytes.length.toUInt8 :: label.bytes) ++ encodeName labels <+:
        buf := by
      rwa [List.append_assoc, List.cons_append]
    have later := ih moved
    rw [← next] at later
    have text : (buf.drop (front.length + 1)).take label.bytes.length = label.bytes := by
      obtain ⟨rest, rfl⟩ := there
      rw [List.append_assoc, List.cons_append, ← List.drop_drop, List.drop_left, List.drop_one,
        List.tail_cons, List.append_assoc, List.take_left]
    have inside : front.length + 1 + label.bytes.length ≤ buf.length := by
      have le := there.length_le
      rw [List.length_append, List.length_cons, List.length_append] at le
      omega
    have whole := Reads.label first nonzero isLabel (by rwa [size]) (by rw [size]; exact later)
    rw [size, text] at whole
    rw [List.map_cons, dotted, List.flatMap_cons, ← dotted, List.append_assoc,
      List.singleton_append, List.length_cons, List.length_append]
    rw [show front.length + (label.bytes.length + (encodeName labels).length + 1) =
      front.length + 1 + label.bytes.length + (encodeName labels).length by omega]
    exact whole

/-- The query for a host of labels: what it consists of, and that its name is read as the host
with a dot behind it. -/
theorem query_round_trip {labels : List Label} (some_ : labels ≠ [])
    (clean : ∀ label ∈ labels, 46 ∉ label.bytes ∧ 0 ∉ label.bytes) {host : Bytes}
    (joins : host = joined (labels.map Label.bytes)) (short : host.length ≤ 254)
    (tid : UInt16) (behind : Bytes) :
    ∃ query, packDNSQuery tid host behind = .ok (12 + (host.length + 2) + 4 + 11, query) ∧
      query.id_ = tid ∧
      query.queryBuf.take (12 + (host.length + 2) + 4 + 11) =
        encodeQuestion tid 0x0100 0 0 1 labels 1 1 ++ optRecord ∧
      ∀ array : Bytes, array.length = dnsDomainNameLimit →
        resolveName query.queryBuf 12 array =
          .ok (host.length + 2, written array 0 (host ++ [46])) := by
  have pieces : labels.map Label.bytes ≠ [] := by simpa using some_
  have dot : host ++ [46] = dotted (labels.map Label.bytes) := by rw [joins, joined_dot pieces]
  have no_zero : 0 ∉ host := by
    intro zero
    have there : 0 ∈ dotted (labels.map Label.bytes) := dot ▸ List.mem_append_left _ zero
    obtain ⟨piece, among, zero⟩ := List.mem_flatMap.mp there
    obtain ⟨label, here, rfl⟩ := List.mem_map.mp among
    rcases List.mem_append.mp zero with within | last
    · exact (clean label here).2 within
    · exact absurd (List.mem_singleton.mp last) (by decide)
  have text : cString host = host := cString_clean no_zero
  have stored : Stored host := by
    refine ⟨Nat.le_succ_of_le short, ?_⟩
    rw [text]
    exact Nat.lt_succ_of_le short
  have labels_ : wire (tokens (cString host)) = encodeLabels labels := by
    rw [text, joins, tokens_joined some_ fun label there => (clean label there).1, wire_labels]
  have size : (encodeLabels labels).length = host.length + 1 := by
    rw [← wire_labels, wire_length pieces, joins]
  have packed := packDNSQuery_ok stored tid behind
  rw [labels_, size] at packed
  have whole : queryBytes tid (encodeLabels labels) =
      encodeQuestion tid 0x0100 0 0 1 labels 1 1 ++ optRecord := by
    simp only [queryBytes, queryHeader, encodeQuestion, encodeName, List.append_assoc]
    rfl
  have long : (queryBytes tid (encodeLabels labels)).length = 12 + (host.length + 2) + 4 + 11 := by
    simp only [queryBytes, optRecord, List.length_append, queryHeader_length, word16_length,
      List.length_replicate, List.length_singleton, size, headerSize]
    omega
  refine ⟨_, packed, rfl, ?_, fun array room => ?_⟩
  · dsimp only
    rw [written, List.take_zero, List.nil_append, ← long, List.take_left, whole]
  · have there : queryHeader tid ++ encodeName labels <+:
        written (List.replicate dnsMessageLimit 0) 0 (queryBytes tid (encodeLabels labels)) := by
      rw [written, List.take_zero, List.nil_append, queryBytes, encodeName]
      simp only [List.append_assoc]
      rw [List.prefix_append_right_inj, List.prefix_append_right_inj]
      exact List.prefix_append _ _
    have reads := reads_labels there
    rw [queryHeader_length, ← dot] at reads
    have fits : (host ++ [46]).length ≤ array.length := by
      rw [List.length_append, List.length_singleton, room]
      exact Nat.succ_le_succ short
    have resolved := resolveName_reads reads fits
    rw [Nat.add_sub_cancel_left, encodeName, List.length_append, size] at resolved
    exact resolved

theorem letter_some (c : Byte) : 1 ≤ [c].length := Nat.le_refl 1

theorem letter_short (c : Byte) : [c].length ≤ 63 := Nat.le_of_ble_eq_true rfl

def letter (c : Byte) : Label := ⟨[c], letter_some c, letter_short c⟩

def labelA : Label := letter 97

def labelBC : Label := ⟨[98, 99], Nat.le_of_ble_eq_true rfl, Nat.le_of_ble_eq_true rfl⟩

/-- The query for `a.bc`. -/
theorem query_round_trip_two : ∃ query,
    packDNSQuery 7 [97, 46, 98, 99] [] = .ok (12 + (4 + 2) + 4 + 11, query) ∧
      query.queryBuf.take (12 + (4 + 2) + 4 + 11) =
        encodeQuestion 7 0x0100 0 0 1 [labelA, labelBC] 1 1 ++ optRecord := by
  have joins : [97, 46, 98, 99] = joined ([labelA, labelBC].map Label.bytes) := rfl
  obtain ⟨query, packed, _, bytes, _⟩ :=
    query_round_trip (List.cons_ne_nil _ _) (by decide) joins (by decide) 7 []
  exact ⟨query, packed, bytes⟩

/-- Whatever lies behind `domain`: the host is rejected, or all that is written stays inside of
the arrays, and its labels go out as labels of 1 to 63 bytes. -/
def Handled (host : Bytes) : Prop :=
  ∀ (tid : UInt16) (behind : Bytes),
    (∃ query sent, asyncQueryInit tid host behind 0 = .ok (dnsErr, query, sent)) ∨
    ((∃ query sent, asyncQueryInit tid host behind 0 = .ok (dnsOk, query, sent) ∧
      ∃ labels : List Label, labels.map Label.bytes = tokens (cString host) ∧
        encodeName labels <+: query.queryBuf.drop headerSize) ∧
      ∃ host_, copyHost (List.replicate DNSCache.hostMaxlength 0) host = .ok host_)

/-- Labels of at most 63 bytes, for which `domain` has room with the end of the string. -/
structure Encodable (host : Bytes) : Prop where
  stored : Stored host
  few : ∀ piece ∈ tokens (cString host), piece.length ≤ 63

/-- What is sent is the query, and the resolver waits for its identifier. -/
theorem asyncQueryInit_ok {host : Bytes} (stored : Stored host) (tid : UInt16) (behind : Bytes) :
    ∃ sent, asyncQueryInit tid host behind 0 = .ok (dnsOk,
      ⟨written (List.replicate dnsMessageLimit 0) 0
        (queryBytes tid (wire (tokens (cString host)))), tid, host⟩, sent) := by
  have few := wire_tokens_le (cString host)
  have ends := stored.ends
  rw [dnsDomainNameLimit] at ends
  generalize shape : wire (tokens (cString host)) = labels at few
  have size : (queryBytes tid labels).length = headerSize + (labels.length + 1) + 4 + 11 := by
    simp only [queryBytes, optRecord, List.length_append, queryHeader_length, word16_length,
      List.length_replicate, List.length_singleton]
    omega
  have fits : 0 + (queryBytes tid labels).length ≤
      (List.replicate dnsMessageLimit (0 : Byte)).length := by
    rw [size, List.length_replicate, headerSize, dnsMessageLimit]
    omega
  have sent : 0 + (headerSize + (labels.length + 1) + 4 + 11) ≤
      (written (List.replicate dnsMessageLimit 0) 0 (queryBytes tid labels)).length := by
    rw [written_length fits, ← size]
    exact fits
  have packed := packDNSQuery_ok stored tid behind
  rw [shape] at packed
  refine ⟨((written (List.replicate dnsMessageLimit 0) 0 (queryBytes tid labels)).drop 0).take
    (headerSize + (labels.length + 1) + 4 + 11), ?_⟩
  rw [asyncQueryInit, packed, ok_bind]
  dsimp only
  rw [if_neg (by decide), loads_ok_iff.mpr ⟨sent, rfl⟩, ok_bind]

/-- Nothing is ever rejected. -/
theorem not_rejected {tid : UInt16} {host behind : Bytes} {query : Query} {sent : Bytes} :
    asyncQueryInit tid host behind 0 ≠ .ok (dnsErr, query, sent) := by
  intro rejected
  obtain ⟨⟨len, packed⟩, _, rejected⟩ := bind_ok_iff.mp rejected
  dsimp only at rejected
  rw [if_neg (by decide)] at rejected
  obtain ⟨_, _, rejected⟩ := bind_ok_iff.mp rejected
  cases rejected

/-- A dot behind the bytes of `domain` is overwritten when it ends a piece. -/
theorem splitOn_behind (host : Bytes) :
    (host ++ [46, 97, 46]).splitOn 46 = host.splitOn 46 ++ [97] :: [[]] := by
  rw [List.splitOn_append_cons_self]
  rfl

/-- A host without room for the end of its string writes outside of `domain`, for some bytes
behind it. -/
theorem not_packed {host : Bytes} (unstored : ¬ Stored host) (tid : UInt16) :
    ∃ behind, ∀ result, packDNSQuery tid host behind ≠ .ok result := by
  refine ⟨[46, 97, 46], fun result packed => ?_⟩
  obtain ⟨buf, _, packed⟩ := bind_ok_iff.mp packed
  obtain ⟨domain, copied, packed⟩ := bind_ok_iff.mp packed
  obtain ⟨fits, shape⟩ := store_ok_iff.mp copied
  have size := store_length copied
  rw [List.length_replicate] at size fits
  obtain ⟨⟨cur, buf'⟩, labels, _⟩ := bind_ok_iff.mp packed
  have full : dnsDomainNameLimit ≤ (cString host).length := by
    by_contra short
    exact unstored ⟨by omega, Nat.lt_of_not_le short⟩
  have begins := cString_begins host
  have same : cString host = host :=
    begins.eq_of_length (Nat.le_antisymm begins.length_le (by omega))
  rw [same] at full
  have domain_ : domain = host := by
    rw [shape, List.take_zero, List.nil_append, List.drop_replicate,
      Nat.sub_eq_zero_of_le (by omega), List.replicate_zero, List.append_nil]
  have no_zero : 0 ∉ host ++ [46, 97, 46] := by
    intro zero
    rcases List.mem_append.mp zero with within | last
    · exact zero_notMem_cString host (by rwa [same])
    · exact absurd last (by decide)
  rw [size, domain_, cString_clean no_zero, splitOn_behind] at labels
  refine copyLabels_outside (by decide) (by decide) ?_ _ labels
  have begun : host.splitOn 46 ++ [[97]] = (host ++ [46, 97]).splitOn 46 := by
    rw [List.splitOn_append_cons_self]
    rfl
  rw [begun, joined_splitOn, List.length_append]
  omega

theorem stored_of_handled {host : Bytes} (handled : Handled host) : Stored host := by
  by_contra unstored
  obtain ⟨behind, never⟩ := not_packed unstored 0
  rcases handled 0 behind with ⟨query, sent, rejected⟩ | ⟨⟨query, sent, done, _⟩, _⟩
  · exact not_rejected rejected
  · obtain ⟨result, packed, _⟩ := bind_ok_iff.mp done
    exact never result packed

theorem labels_of_pieces {pieces : List Bytes}
    (each : ∀ piece ∈ pieces, piece ≠ [] ∧ piece.length ≤ 63) :
    ∃ labels : List Label, labels.map Label.bytes = pieces := by
  induction pieces with
  | nil => exact ⟨[], rfl⟩
  | cons piece pieces ih =>
    obtain ⟨labels, same⟩ := ih fun p there => each p (List.mem_cons_of_mem _ there)
    obtain ⟨some_, few⟩ := each piece List.mem_cons_self
    exact ⟨⟨piece, List.length_pos_iff.mpr some_, few⟩ :: labels, by rw [List.map_cons, same]⟩

/-- A host is handled safely exactly where it can be encoded. -/
theorem handled_safely (host : Bytes) : Handled host ↔ Encodable host := by
  constructor
  · intro handled
    refine ⟨stored_of_handled handled, fun piece there => ?_⟩
    rcases handled 0 [] with ⟨query, sent, rejected⟩ | ⟨⟨query, sent, _, labels, same, _⟩, _⟩
    · exact absurd rejected not_rejected
    · rw [← same] at there
      obtain ⟨label, _, rfl⟩ := List.mem_map.mp there
      exact label.few
  · rintro ⟨stored, few⟩ tid behind
    right
    obtain ⟨sent, done⟩ := asyncQueryInit_ok stored tid behind
    obtain ⟨labels, same⟩ : ∃ labels : List Label,
        labels.map Label.bytes = tokens (cString host) := by
      refine labels_of_pieces fun piece there => ⟨?_, few piece there⟩
      exact of_decide_eq_true (List.mem_filter.mp there).2
    refine ⟨⟨_, sent, done, labels, same, ?_⟩, ?_⟩
    · dsimp only
      rw [← same, wire_labels, written, List.take_zero, List.nil_append, queryBytes,
        ← queryHeader_length tid, List.append_assoc, List.drop_left, encodeName]
      simp only [List.append_assoc]
      rw [List.prefix_append_right_inj]
      exact List.prefix_append _ _
    · refine ⟨_, store_written ?_⟩
      have ends := stored.ends
      rw [List.length_replicate, Nat.zero_add]
      exact ends.le.trans (by decide)

/-- 256 bytes do not fit `domain`. -/
theorem long_host_unsafe : ¬ Handled (List.replicate 256 97) := by
  intro handled
  have fits := (stored_of_handled handled).fits
  rw [List.length_replicate] at fits
  exact absurd fits (by decide)

end

end DNSQuery
