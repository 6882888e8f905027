import Tigerso.ParserSafety

/-!
# Which header names http_parser knows

The name of a header is compared byte by byte, in the header state and the index. What is known of a
whole name is what its text says, in any case of the letters.
-/

open SystemCalls

namespace HttpLib

/-- The bytes of a name, which are allowed in strict mode too. -/
def IsName (name : Bytes) : Prop := ∀ c ∈ name, tokens c ≠ 0

/-- The header state in which `s_header_field_start` leaves the first letter `c`. -/
def firstHeaderState (c : Byte) : HeaderState :=
  if c = ascii 'c' then .hC
  else if c = ascii 'p' then .hMatchingProxyConnection
  else if c = ascii 't' then .hMatchingTransferEncoding
  else if c = ascii 'u' then .hMatchingUpgrade
  else .hGeneral

/-- What `s_header_value_start` makes of a header state: all but four are the same for it. -/
def HeaderState.known : HeaderState → HeaderState
  | .hConnection => .hConnection
  | .hContentLength => .hContentLength
  | .hTransferEncoding => .hTransferEncoding
  | .hUpgrade => .hUpgrade
  | _ => .hGeneral

def headerNamed (name : Bytes) : HeaderState :=
  if name = literal "connection" ∨ name = literal "proxy-connection" then .hConnection
  else if name = literal "content-length" then .hContentLength
  else if name = literal "transfer-encoding" then .hTransferEncoding
  else if name = literal "upgrade" then .hUpgrade
  else .hGeneral

def fieldChars (q : Parser) (letters : Bytes) : Option Parser :=
  letters.foldlM (fun q c => fieldChar q c c) q

/-- What holds of the 256 numbers holds of the bytes. -/
theorem forall_byte {P : Byte → Prop} (all : ∀ n < 256, P (UInt8.ofNat n)) (c : Byte) : P c := by
  have here := all c.toNat c.toNat_lt
  rwa [UInt8.ofNat_toNat] at here

theorem tokens_ne_space (c : Byte) : tokens c ≠ sp :=
  forall_byte (P := fun c => tokens c ≠ sp) (by decide +kernel) c

theorem token_of_tokens (strict : Bool) {c : Byte} (isToken : tokens c ≠ 0) :
    token strict c = tokens c := by
  have other : c ≠ sp := by
    rintro rfl
    exact isToken (by decide)
  unfold token
  rw [if_neg fun both => other both.2]

/-- No case of the switch looks at the byte itself but for a space. -/
theorem fieldChar_token (q : Parser) {ch : Byte} (isToken : tokens ch ≠ 0) :
    fieldChar q ch (tokens ch) = fieldChar q (tokens ch) (tokens ch) := by
  have other : ch ≠ sp := by
    rintro rfl
    exact isToken (by decide)
  unfold fieldChar
  simp only [ne_eq, other, tokens_ne_space, not_false_eq_true]

/-- The loop goes over a name up to the colon. -/
theorem fieldLoop_name (strict : Bool) {q q' : Parser} {name : Bytes} (isName : IsName name)
    (read : fieldChars q (name.map tokens) = some q') (rest : Bytes) :
    fieldLoop strict q (name ++ ascii ':' :: rest) = some (q', name.length) := by
  induction name generalizing q with
  | nil =>
    obtain rfl := Option.some.inj read
    have colon : token strict (ascii ':') = 0 := by cases strict <;> decide
    rw [List.nil_append, fieldLoop, if_pos colon]
    rfl
  | cons ch name ih =>
    have isToken := isName ch List.mem_cons_self
    rw [List.map_cons, fieldChars, List.foldlM_cons] at read
    obtain ⟨q₁, first, read⟩ := Option.bind_eq_some_iff.mp read
    have later := ih (fun c inside => isName c (List.mem_cons_of_mem _ inside)) read
    rw [List.cons_append, fieldLoop, token_of_tokens strict isToken, if_neg isToken,
      fieldChar_token q isToken, first]
    simp only [Option.bind_eq_bind, Option.bind_some, later, List.length_cons]

/-- The first `index + 1` bytes of `text` were read, and more of them are to come. -/
def Within (text : Bytes) (index : Nat) (read : Bytes) : Prop :=
  read = text.take (index + 1) ∧ index + 1 < text.length

/-- What a header state says of the letters read so far. -/
def Spelled (q : Parser) (read : Bytes) : Prop :=
  match q.headerState with
  | .hGeneral => True
  | .hC => q.index = 0 ∧ read = literal "c"
  | .hCO => q.index = 1 ∧ read = literal "co"
  | .hCON => q.index = 2 ∧ read = literal "con"
  | .hMatchingConnection => Within (literal "connection") q.index read
  | .hMatchingProxyConnection => Within (literal "proxy-connection") q.index read
  | .hMatchingContentLength => Within (literal "content-length") q.index read
  | .hMatchingTransferEncoding => Within (literal "transfer-encoding") q.index read
  | .hMatchingUpgrade => Within (literal "upgrade") q.index read
  | .hConnection => read = literal "connection" ∨ read = literal "proxy-connection"
  | .hContentLength => read = literal "content-length"
  | .hTransferEncoding => read = literal "transfer-encoding"
  | .hUpgrade => read = literal "upgrade"
  | _ => False

theorem Spelled.general {q : Parser} (at_ : q.headerState = .hGeneral) (read : Bytes) :
    Spelled q read := by
  unfold Spelled
  rw [at_]
  trivial

/-- One more byte of a text: it was the last one, or more are to come, or it is another name. -/
theorem matchName_spelled {text read : Bytes} {found : HeaderState} {q : Parser} {c : Byte}
    (short : text.length < 128) (within : Within text q.index read) :
    (matchName text found q c).headerState = .hGeneral ∨
      (matchName text found q c).headerState = found ∧ read ++ [c] = text ∨
      (matchName text found q c).headerState = q.headerState ∧
        Within text (matchName text found q c).index (read ++ [c]) := by
  obtain ⟨same, less⟩ := within
  have wraps : (q.index + 1) % 2 ^ 7 = q.index + 1 := Nat.mod_eq_of_lt (by omega)
  have here : (text ++ [0]).getD (q.index + 1) 0 = text[q.index + 1] := by
    rw [List.getD_eq_getElem?_getD, List.getElem?_append_left less, List.getElem?_eq_getElem less]
    rfl
  unfold matchName Parser.nextIndex
  dsimp only
  rw [wraps, here]
  split_ifs with other last
  · exact .inl rfl
  · obtain rfl : c = text[q.index + 1] := not_not.mp (not_or.mp other).2
    refine .inr (.inl ⟨rfl, ?_⟩)
    rw [same, List.take_append_getElem less]
    exact List.take_of_length_le (by omega)
  · obtain rfl : c = text[q.index + 1] := not_not.mp (not_or.mp other).2
    refine .inr (.inr ⟨rfl, ?_, ?_⟩)
    · rw [same, List.take_append_getElem less]
    · show q.index + 1 + 1 < text.length
      omega

/-- The same for what the header states say. -/
theorem matchName_next {text read : Bytes} {h found : HeaderState} {q : Parser} {c : Byte}
    (short : text.length < 128) (at_ : q.headerState = h) (within : Within text q.index read)
    (stays : ∀ q', q'.headerState = h → Within text q'.index (read ++ [c]) →
      Spelled q' (read ++ [c]))
    (finds : ∀ q', q'.headerState = found → read ++ [c] = text → Spelled q' (read ++ [c])) :
    ∃ q', some (matchName text found q c) = some q' ∧ Spelled q' (read ++ [c]) ∧
      q' = { q with headerState := q'.headerState, index := q'.index } := by
  refine ⟨_, rfl, ?_, ?_⟩
  · rcases (matchName_spelled short within : (matchName text found q c).headerState = _ ∨ _) with
      other | ⟨found_, whole⟩ | ⟨same, more⟩
    · exact .general other _
    · exact finds _ found_ whole
    · exact stays _ (same.trans at_) more
  · unfold matchName
    dsimp only
    split_ifs <;> rfl

/-- One more letter. -/
theorem fieldChar_spelled {q : Parser} {read : Bytes} (spelled : Spelled q read) {c : Byte}
    (letter : c ≠ sp) :
    ∃ q', fieldChar q c c = some q' ∧ Spelled q' (read ++ [c]) ∧
      q' = { q with headerState := q'.headerState, index := q'.index } := by
  have other : ∀ q : Parser, Spelled (q.setHeaderState .hGeneral) (read ++ [c]) :=
    fun q => .general rfl _
  unfold Spelled at spelled
  unfold fieldChar
  cases at_ : q.headerState <;> rw [at_] at spelled <;> dsimp only at spelled ⊢
  case hGeneral => exact ⟨q, rfl, .general at_ _, rfl⟩
  case hC =>
    obtain ⟨index, rfl⟩ := spelled
    refine ⟨_, rfl, ?_, rfl⟩
    split_ifs with next
    · subst next
      exact ⟨by simp [Parser.setHeaderState, Parser.nextIndex, index], rfl⟩
    · exact other _
  case hCO =>
    obtain ⟨index, rfl⟩ := spelled
    refine ⟨_, rfl, ?_, rfl⟩
    split_ifs with next
    · subst next
      exact ⟨by simp [Parser.setHeaderState, Parser.nextIndex, index], rfl⟩
    · exact other _
  case hCON =>
    obtain ⟨index, rfl⟩ := spelled
    refine ⟨_, rfl, ?_, rfl⟩
    have three : ∀ h, (q.nextIndex.setHeaderState h).index = 3 := fun h => by
      simp [Parser.setHeaderState, Parser.nextIndex, index]
    split_ifs with next next'
    · subst next
      refine ⟨?_, ?_⟩ <;> rw [three] <;> decide
    · subst next'
      refine ⟨?_, ?_⟩ <;> rw [three] <;> decide
    · exact other _
  case hMatchingConnection =>
    exact matchName_next (by decide) at_ spelled (fun q' here more => by rwa [Spelled, here])
      fun q' here whole => by
        rw [Spelled, here]
        exact .inl whole
  case hMatchingProxyConnection =>
    exact matchName_next (by decide) at_ spelled (fun q' here more => by rwa [Spelled, here])
      fun q' here whole => by
        rw [Spelled, here]
        exact .inr whole
  case hMatchingContentLength =>
    exact matchName_next (by decide) at_ spelled (fun q' here more => by rwa [Spelled, here])
      fun q' here whole => by rwa [Spelled, here]
  case hMatchingTransferEncoding =>
    exact matchName_next (by decide) at_ spelled (fun q' here more => by rwa [Spelled, here])
      fun q' here whole => by rwa [Spelled, here]
  case hMatchingUpgrade =>
    exact matchName_next (by decide) at_ spelled (fun q' here more => by rwa [Spelled, here])
      fun q' here whole => by rwa [Spelled, here]
  all_goals first
    | exact spelled.elim
    | exact ⟨_, rfl, by rw [if_pos letter]; exact other q, by rw [if_pos letter]; rfl⟩

/-- What is known of a whole name is not more than its text says. -/
theorem fieldChars_spelled {q : Parser} {read : Bytes} (spelled : Spelled q read) {letters : Bytes}
    (others : ∀ c ∈ letters, c ≠ sp) :
    ∃ q', fieldChars q letters = some q' ∧ Spelled q' (read ++ letters) ∧
      q' = { q with headerState := q'.headerState, index := q'.index } := by
  induction letters generalizing q read with
  | nil => exact ⟨q, rfl, by rwa [List.append_nil], rfl⟩
  | cons c letters ih =>
    obtain ⟨q₁, first, spelled, same⟩ := fieldChar_spelled spelled (others c List.mem_cons_self)
    obtain ⟨q', later, spelled, same'⟩ :=
      ih spelled fun c inside => others c (List.mem_cons_of_mem _ inside)
    refine ⟨q', ?_, ?_, ?_⟩
    · rw [fieldChars, List.foldlM_cons, first]
      exact later
    · rwa [List.append_assoc] at spelled
    · rw [same', same]

theorem firstHeaderState_spelled (q : Parser) (c : Byte) :
    Spelled { q with headerState := firstHeaderState c, index := 0 } [c] := by
  unfold firstHeaderState
  split_ifs with first second third fourth
  · subst first
    exact ⟨rfl, rfl⟩
  · subst second
    have more : 0 + 1 < (literal "proxy-connection").length := by decide
    exact ⟨rfl, more⟩
  · subst third
    have more : 0 + 1 < (literal "transfer-encoding").length := by decide
    exact ⟨rfl, more⟩
  · subst fourth
    have more : 0 + 1 < (literal "upgrade").length := by decide
    exact ⟨rfl, more⟩
  · exact .general rfl _

def Parser.nameStart (q : Parser) (c : Byte) : Parser :=
  { q with headerState := firstHeaderState c, index := 0 }

/-- The rest of a text is matched. -/
theorem matching_finds {text : Bytes} {h found : HeaderState} (short : text.length < 128)
    (matches_ : ∀ q c, q.headerState = h → fieldChar q c c = some (matchName text found q c))
    {q : Parser} (at_ : q.headerState = h) {read rest : Bytes} (split : text = read ++ rest)
    (more : rest ≠ []) (index : q.index + 1 = read.length) :
    fieldChars q rest = some { q with headerState := found, index := text.length - 1 } := by
  induction rest generalizing q read with
  | nil => exact absurd rfl more
  | cons c rest ih =>
    have length : text.length = read.length + rest.length + 1 := by
      rw [split, List.length_append, List.length_cons, Nat.add_assoc]
    have wraps : (q.index + 1) % 2 ^ 7 = q.index + 1 := Nat.mod_eq_of_lt (by omega)
    have here : (text ++ [0]).getD (q.index + 1) 0 = c := by
      rw [index, split, List.getD_eq_getElem?_getD, List.append_assoc,
        List.getElem?_append_right (Nat.le_refl _), Nat.sub_self]
      rfl
    have other : ¬ (q.index + 1 > text.length ∨ c ≠ c) := by
      rintro (long | differs)
      · omega
      · exact differs rfl
    rw [fieldChars, List.foldlM_cons, matches_ q c at_]
    unfold matchName Parser.nextIndex
    dsimp only
    rw [wraps, here, if_neg other]
    cases rest with
    | nil =>
      have last : q.index + 1 = text.length - 1 := by
        rw [length, index]
        rfl
      rw [if_pos last, last]
      rfl
    | cons c' rest =>
      have inner : ¬ q.index + 1 = text.length - 1 := by
        rw [length, List.length_cons]
        omega
      rw [if_neg inner]
      have split' : text = (read ++ [c]) ++ c' :: rest := by
        rw [split, List.append_assoc]
        rfl
      refine ih at_ split' (List.cons_ne_nil _ _) ?_
      rw [List.length_append, ← index]
      rfl

/-- `c`, `o` and `n` have states of their own. -/
theorem con_read (q : Parser) {next : Byte} {h : HeaderState}
    (leads : (if next = ascii 'n' then HeaderState.hMatchingConnection
      else if next = ascii 't' then .hMatchingContentLength else .hGeneral) = h) (rest : Bytes) :
    fieldChars (q.nameStart (ascii 'c')) (ascii 'o' :: ascii 'n' :: next :: rest) =
      fieldChars { q with headerState := h, index := 3 } rest := by
  have first : q.nameStart (ascii 'c') = { q with headerState := .hC, index := 0 } := rfl
  rw [first, ← leads]
  simp [fieldChars, fieldChar, Parser.nextIndex, Parser.setHeaderState]

/-- The names that are known are found to the last letter. -/
theorem known_found (q : Parser) {c : Byte} {letters : Bytes}
    (known : headerNamed (c :: letters) ≠ .hGeneral) :
    ∃ index, fieldChars (q.nameStart c) letters =
      some { q with headerState := headerNamed (c :: letters), index := index } := by
  unfold headerNamed at known ⊢
  split_ifs at known ⊢ with connection length encoding upgrade
  · rcases connection with same | same
    · have split : literal "connection" =
          ascii 'c' :: ascii 'o' :: ascii 'n' :: ascii 'n' :: literal "ection" := by decide
      obtain ⟨rfl, rfl⟩ := List.cons_eq_cons.mp (same.trans split)
      have whole : literal "connection" = literal "conn" ++ literal "ection" := by decide
      have matches_ : ∀ q c, q.headerState = .hMatchingConnection →
          fieldChar q c c = some (matchName (literal "connection") .hConnection q c) :=
        fun q c at_ => by rw [fieldChar, at_]
      exact ⟨_, (con_read q (if_pos rfl) _).trans
        (matching_finds (by decide) matches_ rfl whole (by decide) rfl)⟩
    · have split : literal "proxy-connection" = ascii 'p' :: literal "roxy-connection" := by decide
      obtain ⟨rfl, rfl⟩ := List.cons_eq_cons.mp (same.trans split)
      have whole : literal "proxy-connection" = [ascii 'p'] ++ literal "roxy-connection" := by
        decide
      have matches_ : ∀ q c, q.headerState = .hMatchingProxyConnection →
          fieldChar q c c = some (matchName (literal "proxy-connection") .hConnection q c) :=
        fun q c at_ => by rw [fieldChar, at_]
      exact ⟨_, matching_finds (by decide) matches_ rfl whole (by decide) rfl⟩
  · have split : literal "content-length" =
        ascii 'c' :: ascii 'o' :: ascii 'n' :: ascii 't' :: literal "ent-length" := by decide
    obtain ⟨rfl, rfl⟩ := List.cons_eq_cons.mp (length.trans split)
    have whole : literal "content-length" = literal "cont" ++ literal "ent-length" := by decide
    have matches_ : ∀ q c, q.headerState = .hMatchingContentLength →
        fieldChar q c c = some (matchName (literal "content-length") .hContentLength q c) :=
      fun q c at_ => by rw [fieldChar, at_]
    have other : ascii 't' ≠ ascii 'n' := by decide
    exact ⟨_, (con_read q ((if_neg other).trans (if_pos rfl)) _).trans
      (matching_finds (by decide) matches_ rfl whole (by decide) rfl)⟩
  · have split : literal "transfer-encoding" = ascii 't' :: literal "ransfer-encoding" := by decide
    obtain ⟨rfl, rfl⟩ := List.cons_eq_cons.mp (encoding.trans split)
    have whole : literal "transfer-encoding" = [ascii 't'] ++ literal "ransfer-encoding" := by
      decide
    have matches_ : ∀ q c, q.headerState = .hMatchingTransferEncoding →
        fieldChar q c c = some (matchName (literal "transfer-encoding") .hTransferEncoding q c) :=
      fun q c at_ => by rw [fieldChar, at_]
    exact ⟨_, matching_finds (by decide) matches_ rfl whole (by decide) rfl⟩
  · have split : literal "upgrade" = ascii 'u' :: literal "pgrade" := by decide
    obtain ⟨rfl, rfl⟩ := List.cons_eq_cons.mp (upgrade.trans split)
    have whole : literal "upgrade" = [ascii 'u'] ++ literal "pgrade" := by decide
    have matches_ : ∀ q c, q.headerState = .hMatchingUpgrade →
        fieldChar q c c = some (matchName (literal "upgrade") .hUpgrade q c) :=
      fun q c at_ => by rw [fieldChar, at_]
    exact ⟨_, matching_finds (by decide) matches_ rfl whole (by decide) rfl⟩
  · exact absurd rfl known

theorem headerNamed_known (name : Bytes) : (headerNamed name).known = headerNamed name := by
  unfold headerNamed
  split_ifs <;> rfl

/-- The names that are found are known. -/
theorem found_known {q : Parser} {read : Bytes} (spelled : Spelled q read) :
    q.headerState.known = .hGeneral ∨ q.headerState.known = headerNamed read := by
  unfold Spelled at spelled
  cases at_ : q.headerState <;> rw [at_] at spelled <;> first
    | exact .inl rfl
    | exact spelled.elim
    | (subst spelled; exact .inr (by decide))
    | (rcases spelled with rfl | rfl <;> exact .inr (by decide))

theorem Spelled.ofField {q : Parser} {read : Bytes} (spelled : Spelled q read) :
    q.headerState.ofField := by
  unfold Spelled at spelled
  cases at_ : q.headerState <;> rw [at_] at spelled <;> first
    | rfl
    | exact spelled.elim

/-- The whole of a name is known as what its small letters stand for, and nothing but the header
state and the index is changed. -/
theorem fieldLoop_recognises (strict : Bool) (q : Parser) {ch : Byte} {name : Bytes}
    (isName : IsName (ch :: name)) :
    ∃ q', (∀ rest, fieldLoop strict (q.nameStart (tokens ch)) (name ++ ascii ':' :: rest) =
        some (q', name.length)) ∧
      q' = { q with headerState := q'.headerState, index := q'.index } ∧
      q'.headerState.ofField ∧ q'.headerState.known = headerNamed ((ch :: name).map tokens) := by
  have letters : ∀ c ∈ name.map tokens, c ≠ sp := by
    intro c inside
    obtain ⟨byte, -, rfl⟩ := List.mem_map.mp inside
    exact tokens_ne_space byte
  obtain ⟨q', read, spelled, same⟩ :=
    fieldChars_spelled (firstHeaderState_spelled q (tokens ch)) letters
  have inside : IsName name := fun c inside => isName c (List.mem_cons_of_mem _ inside)
  refine ⟨q', fun rest => fieldLoop_name strict inside read rest, same, spelled.ofField, ?_⟩
  by_cases known : headerNamed ((ch :: name).map tokens) = .hGeneral
  · rw [known]
    rcases found_known spelled with other | found
    · exact other
    · exact found.trans known
  · obtain ⟨index, found⟩ := known_found q known
    obtain rfl := Option.some.inj (read.symm.trans found)
    exact headerNamed_known _

end HttpLib
