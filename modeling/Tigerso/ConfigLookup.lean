import Tigerso.ConfigParser

/-!
# core/ConfigParser: which line a value comes from

A text is read as lines in front of the first header and as places, each under a header.
-/

open SystemCalls

namespace ConfigParser

def isHeader (line : Bytes) : Bool := line.head? == some sectb

def header (sect : Bytes) : Bytes := sectb :: sect ++ [93]

/-- The name that is made of the line of a header: what is between its first and its last byte. -/
def sectionName (line : Bytes) : Bytes := (line.drop 1).dropLast

def entry (line : Bytes) : Option (Bytes × Bytes) :=
  if line.head? = some sectb ∨ line.head? = some comtb ∨ keyb ∉ line then none
  else some (line.takeWhile (· != keyb), (line.dropWhile (· != keyb)).drop 1)

def entries (lines : List Bytes) : List (Bytes × Bytes) := lines.filterMap entry

/-- A line gives the key a value. -/
def HasKey (key : Bytes) (lines : List Bytes) : Prop := ((entries lines).lookup key).isSome = true

instance (key : Bytes) (lines : List Bytes) : Decidable (HasKey key lines) :=
  inferInstanceAs (Decidable (_ = true))

def valueOf (key : Bytes) (lines : List Bytes) : Bytes := ((entries lines).lookup key).getD []

def under (sect : Bytes) : Bool → List Bytes → List Bytes
  | _, [] => []
  | here, line :: rest =>
    if isHeader line then under sect (line == header sect) rest
    else if here then line :: under sect here rest
    else under sect here rest

/-- The first value for the key under a header of the section. -/
def configured (text sect key : Bytes) : Bytes := valueOf key (under sect false (getlines text))

def block (lines : List Bytes) : List Bytes := lines.takeWhile fun line => !isHeader line

/-- The first header whose name is this, and the lines under it. -/
def place (sect : Bytes) : List Bytes → Option (Bytes × List Bytes)
  | [] => none
  | line :: rest =>
    if isHeader line = true ∧ sectionName line = sect then some (line, block rest)
    else place sect rest

def leading (sect : Bytes) (lines : List Bytes) : List Bytes :=
  if ((lines.find? isHeader).map sectionName).getD [] = sect then block lines else []

def placed (sect : Bytes) (lines : List Bytes) : List Bytes :=
  ((place sect lines).map Prod.snd).getD []

section
variable {line sect key : Bytes} {lines : List Bytes}

theorem scan_of_short (stop : Byte → Bool) :
    scan line line.length stop = line.findIdx stop := by
  rw [scan, Int.toNat_natCast, List.take_length]

/-- A byte that no loop finds is not in the line. -/
theorem scan_past {b : Byte} (other : b ≠ 0) :
    ((line.length : Int) ≤ scan line line.length (fun c => c == b) ∧
      line.getD (scan line line.length fun c => c == b) 0 ≠ b) ↔ b ∉ line := by
  rw [scan_of_short]
  constructor
  · rintro ⟨past, _⟩ there
    have found : line.findIdx (fun c => c == b) < line.length :=
      List.findIdx_lt_length_of_exists ⟨b, there, beq_self_eq_true b⟩
    omega
  · intro nowhere
    have past : line.findIdx (fun c => c == b) = line.length :=
      List.findIdx_eq_length_of_false fun c there =>
        beq_eq_false_iff_ne.mpr fun same => nowhere (same ▸ there)
    rw [past]
    refine ⟨Int.le_refl _, ?_⟩
    rw [List.getD_eq_getElem?_getD, List.getElem?_eq_none (Nat.le_refl _)]
    exact other.symm

/-- What `substr` takes of a header. -/
theorem substr_sectionName (short : line.length < 2 ^ 31) (filled : 0 < line.length) :
    (line.drop 1).take (sizeT (HttpBodyFile.toInt ((line.length : Int) - 2))) =
      sectionName line := by
  rw [sectionName, List.dropLast_eq_take, List.length_drop]
  by_cases one : line.length = 1
  · have none_ : line.drop 1 = [] := List.drop_eq_nil_of_le (Nat.le_of_eq one)
    rw [none_, List.take_nil, List.take_nil]
  · have small : ((line.length : Int) - 2) = (line.length - 1 - 1 : Nat) := by omega
    rw [small, HttpBodyFile.toInt_of_short (by omega), sizeT_natCast (by omega)]

theorem decideLineType_header (short : line.length < 2 ^ 31) (opens : isHeader line = true) :
    decideLineType line = .section_ (sectionName line) := by
  obtain ⟨rest, rfl⟩ : ∃ rest, line = sectb :: rest := by
    cases line with
    | nil => cases opens
    | cons b rest =>
      have first : b = sectb := Option.some.inj (beq_iff_eq.mp opens)
      exact ⟨rest, by rw [first]⟩
  have there : ¬ (((sectb :: rest).length : Int) ≤
      scan (sectb :: rest) (sectb :: rest).length (fun b => b == sectb) ∧
        (sectb :: rest).getD (scan (sectb :: rest) (sectb :: rest).length fun b => b == sectb) 0 ≠
          sectb) := by
    rw [scan_past (by decide)]
    exact fun nowhere => nowhere List.mem_cons_self
  have first : (sectb :: rest).getD 0 0 = sectb := rfl
  rw [decideLineType, HttpBodyFile.toInt_of_short short]
  dsimp only
  rw [if_pos first, if_neg there, substr_sectionName short (Nat.succ_pos _)]

theorem split_eq (line : Bytes) :
    split line = (line.takeWhile (· != keyb), (line.dropWhile (· != keyb)).drop 1) := by
  have same : (fun b : Byte => b == keyb) = fun b => !(b != keyb) := by
    funext b
    rw [bne, Bool.not_not]
  rw [split, same, ← List.takeWhile_eq_take_findIdx_not, ← List.drop_drop,
    ← List.dropWhile_eq_drop_findIdx_not]

/-- A line that is no header and no comment is looked through for `KEYB`. -/
theorem decideLineType_other {b : Byte} {rest : Bytes} (short : (b :: rest).length < 2 ^ 31)
    (first : b ≠ sectb) (second : b ≠ comtb) :
    decideLineType (b :: rest) =
      if keyb ∈ b :: rest then .keyVal (b :: rest) else .errLine := by
  have lst : (b :: rest).getD 0 0 = b := rfl
  rw [decideLineType, HttpBodyFile.toInt_of_short short]
  dsimp only
  rw [lst, if_neg first, if_neg second]
  have past := @scan_past (b :: rest) keyb (by decide)
  by_cases there : keyb ∈ b :: rest
  · have filled : ¬ (((b :: rest).length : Int) ≤
        scan (b :: rest) (b :: rest).length fun c => c != 32) := by
      have found : (b :: rest).findIdx (fun c => c != 32) < (b :: rest).length :=
        List.findIdx_lt_length_of_exists ⟨keyb, there, by decide⟩
      rw [scan_of_short]
      omega
    rw [if_pos there, decide_eq_false filled, if_neg Bool.false_ne_true,
      if_neg fun nowhere => past.mp nowhere there]
  · rw [if_neg there, if_pos (past.mpr there)]
    split_ifs
    · rfl
    · rfl

/-- A line that gives no key a value. -/
theorem decideLineType_none (short : line.length < 2 ^ 31) (other : isHeader line = false)
    (nothing : entry line = none) :
    decideLineType line = .comment ∨ decideLineType line = .errLine := by
  cases line with
  | nil => exact Or.inr (by decide)
  | cons b rest =>
    have first : b ≠ sectb := fun same => by
      rw [same] at other
      cases other
    by_cases comment : b = comtb
    · refine Or.inl ?_
      have lst : (b :: rest).getD 0 0 = b := rfl
      rw [decideLineType]
      dsimp only
      rw [lst, if_neg first, if_pos comment]
    · have nowhere : keyb ∉ b :: rest := by
        intro there
        rw [entry, if_neg] at nothing
        · cases nothing
        · rintro (opens | comments | nowhere)
          · exact first (Option.some.inj opens)
          · exact comment (Option.some.inj comments)
          · exact nowhere there
      exact Or.inr ((decideLineType_other short first comment).trans (if_neg nowhere))

/-- A line that gives a key a value. -/
theorem decideLineType_some (short : line.length < 2 ^ 31) {e : Bytes × Bytes}
    (gives : entry line = some e) : decideLineType line = .keyVal line ∧ split line = e := by
  rw [entry] at gives
  split_ifs at gives with nothing
  obtain rfl := Option.some.inj gives
  rw [not_or, not_or, not_not] at nothing
  obtain ⟨first, second, there⟩ := nothing
  refine ⟨?_, split_eq line⟩
  cases line with
  | nil => cases there
  | cons b rest =>
    refine (decideLineType_other short (fun same => first ?_) fun same => second ?_).trans
      (if_pos there)
    · rw [same]
      rfl
    · rw [same]
      rfl

def withEntry (kvMap : List (Bytes × Bytes)) : Option (Bytes × Bytes) → List (Bytes × Bytes)
  | none => kvMap
  | some e => insertNew kvMap e

theorem lookup_withEntry (kvMap behind : List (Bytes × Bytes)) (e : Option (Bytes × Bytes)) :
    (withEntry kvMap e ++ behind).lookup key = (kvMap ++ (e.toList ++ behind)).lookup key := by
  cases e with
  | none => rfl
  | some e => exact lookup_insertNew kvMap e behind key

/-- A line that is no header gives a key a value, or it changes nothing. -/
theorem load_line (short : line.length < 2 ^ 31) (other : isHeader line = false) (l : Loading) :
    load l line = { l with kvMap := withEntry l.kvMap (entry line) } := by
  cases gives : entry line with
  | none =>
    rw [load]
    obtain comment | wrong := decideLineType_none short other gives
    · rw [comment]
      rfl
    · rw [wrong]
      rfl
  | some e =>
    obtain ⟨keyval, eq⟩ := decideLineType_some short gives
    rw [load, keyval]
    dsimp only
    rw [eq]
    rfl

def finish (l : Loading) : ConfigMap := insertNew l.configMap (l.section_, l.kvMap)

def inMap (configMap : ConfigMap) (sect key : Bytes) : Option Bytes :=
  (configMap.lookup sect).bind fun kvMap => kvMap.lookup key

theorem getValueByKey_eq (configMap : ConfigMap) (sect key : Bytes) :
    getValueByKey configMap sect key = (inMap configMap sect key).getD [] := by
  rw [getValueByKey, inMap]
  cases configMap.lookup sect with
  | none => rfl
  | some kvMap => rfl

theorem lookup_inserted {β : Type} (m : List (Bytes × β)) (e : Bytes × β) (k : Bytes) :
    (insertNew m e).lookup k = (m.lookup k).or (if k = e.1 then some e.2 else none) := by
  have appended := lookup_insertNew m e [] k
  rw [List.append_nil, List.lookup_append, List.lookup_cons, List.lookup_nil] at appended
  rw [appended]
  by_cases same : k = e.1
  · rw [if_pos same, beq_iff_eq.mpr same]
  · rw [if_neg same, beq_eq_false_iff_ne.mpr same]

theorem block_header (opens : isHeader line = true) : block (line :: lines) = [] := by
  rw [block, List.takeWhile_cons, opens]
  rfl

theorem block_line (other : isHeader line = false) :
    block (line :: lines) = line :: block lines := by
  rw [block, List.takeWhile_cons, other]
  rfl

theorem entries_cons (line : Bytes) (lines : List Bytes) :
    entries (line :: lines) = (entry line).toList ++ entries lines := by
  rw [entries, List.filterMap_cons]
  cases entry line with
  | none => rfl
  | some e => rfl

theorem place_header (opens : isHeader line = true) : place sect (line :: lines) =
    if sectionName line = sect then some (line, block lines) else place sect lines := by
  rw [place]
  by_cases named : sectionName line = sect
  · rw [if_pos ⟨opens, named⟩, if_pos named]
  · rw [if_neg fun both => named both.2, if_neg named]

theorem place_line (other : isHeader line = false) :
    place sect (line :: lines) = place sect lines := by
  rw [place, if_neg fun both => Bool.false_ne_true (other.symm.trans both.1)]

/-- Behind the first header: a section that is in the map keeps its lines. -/
theorem inMap_load (short : ∀ line ∈ lines, line.length < 2 ^ 31) {l : Loading}
    (begun : l.is1stSec = false) :
    inMap (finish (lines.foldl load l)) sect key =
      (l.configMap.lookup sect).elim
        (if l.section_ = sect then (l.kvMap ++ entries (block lines)).lookup key
          else (place sect lines).bind fun found => (entries found.2).lookup key)
        fun kvMap => kvMap.lookup key := by
  induction lines generalizing l with
  | nil =>
    rw [List.foldl_nil, inMap, finish, lookup_inserted]
    cases l.configMap.lookup sect with
    | some kvMap => rfl
    | none =>
      by_cases here : l.section_ = sect
      · rw [if_pos here.symm]
        simp [here, block, entries]
      · rw [if_neg fun same => here same.symm]
        simp [here, place]
  | cons line rest ih =>
    have shorter := fun line there => short line (List.mem_cons_of_mem _ there)
    have short := short line List.mem_cons_self
    rw [List.foldl_cons]
    cases opens : isHeader line with
    | true =>
      have loads : load l line =
          ⟨insertNew l.configMap (l.section_, l.kvMap), sectionName line, [], false⟩ := by
        rw [load, decideLineType_header short opens]
        simp [begun]
      rw [loads, ih shorter rfl, lookup_inserted, block_header opens, place_header opens]
      cases l.configMap.lookup sect with
      | some kvMap => rfl
      | none =>
        by_cases here : l.section_ = sect
        · rw [if_pos here.symm, if_pos here]
          simp [entries]
        · rw [if_neg fun same => here same.symm, if_neg here]
          by_cases named : sectionName line = sect
          · simp [named]
          · simp [named]
    | false =>
      have later := @ih shorter { l with kvMap := withEntry l.kvMap (entry line) } begun
      rw [load_line short opens, later, block_line opens, place_line opens, entries_cons,
        lookup_withEntry]

theorem placed_header (opens : isHeader line = true) : placed sect (line :: lines) =
    if sectionName line = sect then block lines else placed sect lines := by
  rw [placed, place_header opens]
  split_ifs
  · rfl
  · rfl

theorem placed_line (other : isHeader line = false) :
    placed sect (line :: lines) = placed sect lines := by
  rw [placed, place_line other, placed]

theorem entries_placed : (place sect lines).bind (fun found => (entries found.2).lookup key) =
    (entries (placed sect lines)).lookup key := by
  rw [placed]
  cases place sect lines with
  | none => rfl
  | some found => rfl

/-- In front of the first header, whose section gets what was read so far. -/
theorem inMap_first (short : ∀ line ∈ lines, line.length < 2 ^ 31)
    (kvMap : List (Bytes × Bytes)) :
    inMap (finish (lines.foldl load ⟨[], [], kvMap, true⟩)) sect key =
      (if ((lines.find? isHeader).map sectionName).getD [] = sect then
          kvMap ++ entries (block lines) ++ entries (placed sect lines)
        else entries (placed sect lines)).lookup key := by
  induction lines generalizing kvMap with
  | nil =>
    rw [List.foldl_nil, inMap, finish, lookup_inserted]
    by_cases here : sect = []
    · simp [here, block, entries, placed, place]
    · simp [here, entries, placed, place, Ne.symm here]
  | cons line rest ih =>
    have shorter := fun line there => short line (List.mem_cons_of_mem _ there)
    have short := short line List.mem_cons_self
    rw [List.foldl_cons, List.find?_cons]
    cases opens : isHeader line with
    | true =>
      have loads : load ⟨[], [], kvMap, true⟩ line = ⟨[], sectionName line, kvMap, false⟩ := by
        rw [load, decideLineType_header short opens]
        rfl
      have later := @inMap_load sect key rest shorter ⟨[], sectionName line, kvMap, false⟩ rfl
      rw [loads, later, entries_placed, placed_header opens, block_header opens]
      by_cases named : sectionName line = sect
      · simp [named, entries]
      · simp [named]
    | false =>
      rw [load_line short opens, ih shorter, block_line opens, placed_line opens, entries_cons]
      split_ifs
      · rw [List.append_assoc, lookup_withEntry, List.append_assoc, List.append_assoc]
      · rfl

/-- The lines that the map is made of. -/
theorem getValueByKey_loaded {text : Bytes}
    (short : ∀ line ∈ getlines text, line.length < 2 ^ 31) (sect key : Bytes) :
    getValueByKey (loadConfig2Map text) sect key =
      valueOf key (leading sect (getlines text) ++ placed sect (getlines text)) := by
  have read := @inMap_first sect key (getlines text) short []
  have same : loadConfig2Map text = finish ((getlines text).foldl load ⟨[], [], [], true⟩) := rfl
  rw [getValueByKey_eq, same, read, valueOf, leading]
  congr 1
  split_ifs
  · rw [entries, entries, entries, List.filterMap_append, List.nil_append]
  · rw [List.nil_append]

theorem sectionName_header (sect : Bytes) : sectionName (header sect) = sect := by
  rw [sectionName, header, List.cons_append, List.drop_one, List.tail_cons, List.dropLast_concat]

theorem under_place_none (nowhere : place sect lines = none) : under sect false lines = [] := by
  induction lines with
  | nil => rfl
  | cons line rest ih =>
    rw [under]
    cases opens : isHeader line with
    | true =>
      rw [place_header opens] at nowhere
      split_ifs at nowhere with named
      have other : (line == header sect) = false := by
        refine beq_eq_false_iff_ne.mpr fun same => named ?_
        rw [same, sectionName_header]
      rw [if_pos rfl, other]
      exact ih nowhere
    | false =>
      rw [place_line opens] at nowhere
      rw [if_neg Bool.false_ne_true, if_neg Bool.false_ne_true]
      exact ih nowhere

theorem under_true (sect : Bytes) (lines : List Bytes) :
    ∃ later, under sect true lines = block lines ++ later := by
  induction lines with
  | nil => exact ⟨[], rfl⟩
  | cons line rest ih =>
    rw [under]
    cases opens : isHeader line with
    | true => exact ⟨_, by rw [if_pos rfl, block_header opens, List.nil_append]⟩
    | false =>
      obtain ⟨later, same⟩ := ih
      refine ⟨later, ?_⟩
      rw [if_neg Bool.false_ne_true, if_pos rfl, same, block_line opens, List.cons_append]

/-- The first place is read first. -/
theorem under_place {lines' : List Bytes} (first : place sect lines = some (header sect, lines')) :
    ∃ later, under sect false lines = lines' ++ later := by
  induction lines with
  | nil => cases first
  | cons line rest ih =>
    rw [under]
    cases opens : isHeader line with
    | true =>
      rw [place_header opens] at first
      rw [if_pos rfl]
      split_ifs at first with named
      · obtain ⟨rfl, rfl⟩ := Prod.mk.inj (Option.some.inj first)
        rw [beq_self_eq_true]
        exact under_true sect rest
      · have other : (line == header sect) = false := by
          refine beq_eq_false_iff_ne.mpr fun same => named ?_
          rw [same, sectionName_header]
        rw [other]
        exact ih first
    | false =>
      rw [place_line opens] at first
      rw [if_neg Bool.false_ne_true, if_neg Bool.false_ne_true]
      exact ih first

theorem valueOf_append_of_hasKey (has : HasKey key lines) (behind : List Bytes) :
    valueOf key (lines ++ behind) = valueOf key lines := by
  obtain ⟨value, found⟩ := Option.isSome_iff_exists.mp has
  rw [valueOf, valueOf, entries, List.filterMap_append, List.lookup_append, ← entries, found,
    Option.some_or]

theorem valueOf_append_of_not_hasKey (lacks : ¬ HasKey key lines) (behind : List Bytes) :
    valueOf key (lines ++ behind) = valueOf key behind := by
  have missing := Option.not_isSome_iff_eq_none.mp lacks
  rw [valueOf, valueOf, entries, List.filterMap_append, List.lookup_append, ← entries, missing,
    Option.none_or, ← entries]

theorem valueOf_of_not_hasKey (lacks : ¬ HasKey key lines) : valueOf key lines = [] := by
  rw [valueOf, Option.not_isSome_iff_eq_none.mp lacks]
  rfl

/-- When the lines that are read for the section give the key the value that is written. -/
structure ReadAsWritten (text sect key : Bytes) : Prop where
  /-- What is in front of the first header gives no value, or by accident the same. -/
  leading : HasKey key (leading sect (getlines text)) →
    valueOf key (leading sect (getlines text)) = configured text sect key
  /-- The first header with this name is `[sect]`, or the lines under it give the same. -/
  header : ¬ HasKey key (ConfigParser.leading sect (getlines text)) →
    ∀ line under, place sect (getlines text) = some (line, under) →
      line ≠ ConfigParser.header sect → valueOf key under = configured text sect key
  /-- A key that is not under the first `[sect]` has no value, or an empty one, under a later. -/
  again : ¬ HasKey key (ConfigParser.leading sect (getlines text)) →
    ∀ under, place sect (getlines text) = some (ConfigParser.header sect, under) →
      ¬ HasKey key under → configured text sect key = []

section
variable {text : Bytes} {under : List Bytes}

theorem readAsWritten_early (early : HasKey key (leading sect (getlines text))) :
    ReadAsWritten text sect key ↔
      valueOf key (leading sect (getlines text)) = configured text sect key := by
  constructor
  · intro written
    exact written.leading early
  · intro same
    exact ⟨fun _ => same, fun late => absurd early late, fun late => absurd early late⟩

theorem readAsWritten_nowhere (late : ¬ HasKey key (leading sect (getlines text)))
    (nowhere : place sect (getlines text) = none) : ReadAsWritten text sect key where
  leading early := absurd early late
  header _ _ _ found := by
    cases nowhere.symm.trans found
  again _ _ found := by
    cases nowhere.symm.trans found

theorem readAsWritten_header (late : ¬ HasKey key (leading sect (getlines text)))
    (found : place sect (getlines text) = some (header sect, under)) :
    ReadAsWritten text sect key ↔ (¬ HasKey key under → configured text sect key = []) := by
  constructor
  · intro written
    exact written.again late under found
  · intro empty
    constructor
    · exact fun early => absurd early late
    · intro _ line _ found' other
      cases found.symm.trans found'
      exact absurd rfl other
    · intro _ under' found'
      cases found.symm.trans found'
      exact empty

theorem readAsWritten_other (late : ¬ HasKey key (leading sect (getlines text)))
    (found : place sect (getlines text) = some (line, under)) (other : line ≠ header sect) :
    ReadAsWritten text sect key ↔ valueOf key under = configured text sect key := by
  constructor
  · intro written
    exact written.header late line under found other
  · intro same
    constructor
    · exact fun early => absurd early late
    · intro _ line' under' found' _
      cases found.symm.trans found'
      exact same
    · intro _ under' found'
      cases found.symm.trans found'
      exact absurd rfl other

end

/-- The value that is found is that of the first line for the key under `[sect]` exactly when
neither the lines in front of the first header, nor another line that makes the same name, nor a
section that is opened again come between. -/
theorem getValueByKey_configured (text sect key : Bytes)
    (short : ∀ line ∈ getlines text, line.length < 2 ^ 31) :
    getValueByKey (loadConfig2Map text) sect key = configured text sect key ↔
      ReadAsWritten text sect key := by
  rw [getValueByKey_loaded short]
  by_cases early : HasKey key (leading sect (getlines text))
  · rw [valueOf_append_of_hasKey early, readAsWritten_early early]
  · rw [valueOf_append_of_not_hasKey early, placed]
    cases found : place sect (getlines text) with
    | none =>
      have nothing : configured text sect key = [] := by
        rw [configured, under_place_none found]
        rfl
      exact iff_of_true nothing.symm (readAsWritten_nowhere early found)
    | some there =>
      obtain ⟨line, lines⟩ := there
      show valueOf key lines = configured text sect key ↔ ReadAsWritten text sect key
      by_cases same : line = header sect
      · subst same
        rw [readAsWritten_header early found]
        obtain ⟨later, first⟩ := under_place found
        by_cases has : HasKey key lines
        · have taken : valueOf key lines = configured text sect key := by
            rw [configured, first, valueOf_append_of_hasKey has]
          exact iff_of_true taken fun lacks => absurd has lacks
        · rw [valueOf_of_not_hasKey has]
          constructor
          · intro empty _
            exact empty.symm
          · intro empty
            exact (empty has).symm
      · rw [readAsWritten_other early found same]

/-- `[a]` with `x=1`. -/
theorem getValueByKey_configured_one :
    getValueByKey (loadConfig2Map [91, 97, 93, 10, 120, 61, 49, 10]) [97] [120] =
      configured [91, 97, 93, 10, 120, 61, 49, 10] [97] [120] := by
  refine (getValueByKey_configured _ _ _ (by decide)).mpr ⟨?_, ?_, ?_⟩
  · intro early
    exact absurd early (by decide)
  · intro _ line under found other
    cases found
    exact absurd rfl other
  · intro _ under found lacks
    cases found
    exact absurd rfl lacks

/-- `[a]` is opened again behind `[b]`, and what it holds there is lost. -/
theorem reopened_lost :
    ¬ ∀ text sect key : Bytes,
      getValueByKey (loadConfig2Map text) sect key = configured text sect key := by
  intro same
  exact absurd (same [91, 97, 93, 10, 91, 98, 93, 10, 91, 97, 93, 10, 122, 61, 51, 10] [97] [122])
    (by decide)

end

end ConfigParser
