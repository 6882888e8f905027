import Tigerso.HttpMessageObject
import Tigerso.HttpStream

/-!
# http/HttpMessage: the header list as a map

Nine functions go through the list by themselves. Each name that they meet is there once, which
is what makes the loop of `removeHeader` right: it steps over the pair behind a removed one.
-/

open SystemCalls HttpMessage HttpParser

namespace HeaderMap

/-- A call that changes the list of headers. -/
inductive HeaderOp where
  | edit (edit : HeaderEdit)
  | setChunkedTransfer (bin : Bool)

/-- The name that is given to a call, or that stands in it. -/
def name : HeaderEdit → Bytes
  | .setValueByHeader header _ => header
  | .appendHeader header _ => header
  | .removeHeader header => header
  | .setContentLength _ => literal "Content-Length"
  | .setContentType _ => literal "Content-Type"
  | .setCookie _ => literal "Set-Cookie"
  | .setKeepAlive _ => literal "Connection"
  | .markTrade => literal "Via"

namespace HeaderOp

def apply (m : HttpMessage) : HeaderOp → HttpMessage
  | edit e => m.edit e
  | setChunkedTransfer bin => m.setChunkedTransfer bin

def names : HeaderOp → List Bytes
  | edit e => [name e]
  | setChunkedTransfer true => [literal "Content-Length", literal "Transfer-Encoding"]
  | setChunkedTransfer false => [literal "Transfer-Encoding"]

/-- The names that a call has nothing to do with. -/
def leaves (op : HeaderOp) (other : Bytes) : Bool :=
  op.names.all fun name => !sameIgnoringCase name other

end HeaderOp

/-- Each name once. -/
def Distinct (headers : List (Bytes × Bytes)) : Prop :=
  ((headers.map Prod.fst).map fieldKey).Nodup

/-- A list of headers that is a map. -/
structure IsMap (m : HttpMessage) : Prop where
  distinct : m.headers.Pairwise fun p q => sameIgnoringCase p.1 q.1 = false
  found : ∀ h h' v, sameIgnoringCase h h' = true →
    (m.setValueByHeader h' v).getValueByHeader h = v
  removed : ∀ h h', sameIgnoringCase h h' = true → (m.removeHeader h').getValueByHeader h = []
  others : ∀ op : HeaderOp, (op.apply m).headers.filter (fun p => op.leaves p.1) =
    m.headers.filter fun p => op.leaves p.1

theorem same_iff (s t : Bytes) : sameIgnoringCase s t = true ↔ fieldKey s = fieldKey t :=
  beq_iff_eq

section
variable {m : HttpMessage} {held : List (Bytes × Bytes)}

theorem appendValue_eq (header value : Bytes) (held : List (Bytes × Bytes)) :
    appendValue header value held = KeyedList.alter fieldKey header
      (fun old => old.elim value fun old =>
        (if old ≠ [] then old ++ literal ", " else old) ++ value)
      held := by
  induction held with
  | nil => rfl
  | cons q rest ih =>
    simp only [appendValue, KeyedList.alter, ih, same_iff]
    rfl

theorem addCookie_eq (cookie : Bytes) (held : List (Bytes × Bytes)) :
    addCookie cookie held = KeyedList.alter fieldKey (literal "Set-Cookie")
      (fun old => old.elim cookie fun old => old ++ literal ";" ++ cookie) held := by
  induction held with
  | nil => rfl
  | cons q rest ih =>
    simp only [addCookie, KeyedList.alter, ih, same_iff]
    rfl

theorem removeFrom_absent (header : Bytes)
    (absent : ∀ q ∈ held, sameIgnoringCase header q.1 = false) : removeFrom header held = held := by
  induction held with
  | nil => rfl
  | cons q rest ih =>
    have other := absent q List.mem_cons_self
    rw [removeFrom.eq_def]
    simp only [other, Bool.false_eq_true, if_false]
    rw [ih fun q there => absent q (List.mem_cons_of_mem _ there)]

/-- With each name once, no pair that should go is stepped over. -/
theorem removeFrom_eq (header : Bytes) (distinct : Distinct held) :
    removeFrom header held = held.filter fun q => !sameIgnoringCase header q.1 := by
  induction held with
  | nil => rfl
  | cons q rest ih =>
    rw [Distinct, List.map_cons, List.map_cons, List.nodup_cons] at distinct
    cases same : sameIgnoringCase header q.1 with
    | false =>
      rw [List.filter_cons_of_pos (by simp [same]), ← ih distinct.2, removeFrom.eq_def]
      simp [same]
    | true =>
      have absent : ∀ r ∈ rest, sameIgnoringCase header r.1 = false := by
        intro r there
        refine Bool.eq_false_iff.mpr fun again => distinct.1 ?_
        rw [← (same_iff _ _).mp same, (same_iff _ _).mp again]
        exact List.mem_map_of_mem (List.mem_map_of_mem there)
      have kept : rest.filter (fun r => !sameIgnoringCase header r.1) = rest :=
        List.filter_eq_self.mpr fun r there => by simp [absent r there]
      rw [List.filter_cons_of_neg (by simp [same]), kept, removeFrom.eq_def]
      simp only [same, if_true]
      cases rest with
      | nil => rfl
      | cons next rest =>
        exact congrArg (next :: ·)
          (removeFrom_absent header fun r there => absent r (List.mem_cons_of_mem _ there))

theorem edit_cases (m : HttpMessage) (e : HeaderEdit) :
    (∃ new, (m.edit e).headers = KeyedList.alter fieldKey (name e) new m.headers) ∨
      (m.edit e).headers = removeFrom (name e) m.headers := by
  have set (header value : Bytes) : ∃ new, setValue header value m.headers =
      KeyedList.alter fieldKey header new m.headers :=
    ⟨_, (setValue_eq header value _).trans (KeyedList.put_eq_alter ..)⟩
  cases e with
  | setValueByHeader header value => exact Or.inl (set header value)
  | appendHeader header value => exact Or.inl ⟨_, appendValue_eq header value _⟩
  | removeHeader header => exact Or.inr rfl
  | setContentLength length => exact Or.inl (set _ _)
  | setContentType type => exact Or.inl (set _ _)
  | setCookie cookie => exact Or.inl ⟨_, addCookie_eq cookie _⟩
  | setKeepAlive bin => exact Or.inl (set _ _)
  | markTrade => exact Or.inl (set _ _)

theorem edit_distinct (distinct : Distinct m.headers) (e : HeaderEdit) :
    Distinct (m.edit e).headers := by
  obtain ⟨new, changed⟩ | removed := edit_cases m e
  · rw [changed]
    exact KeyedList.alter_keys_nodup (name e) new distinct
  · rw [removed, removeFrom_eq (name e) distinct]
    exact distinct.sublist ((List.filter_sublist.map _).map _)

theorem edit_others (distinct : Distinct m.headers) (e : HeaderEdit) (keep : Bytes → Bool)
    (other : ∀ n, sameIgnoringCase (name e) n = true → keep n = false) :
    (m.edit e).headers.filter (fun p => keep p.1) = m.headers.filter fun p => keep p.1 := by
  obtain ⟨new, changed⟩ | removed := edit_cases m e
  · rw [changed]
    exact KeyedList.filter_alter keep (fun n same => other n ((same_iff _ _).mpr same)) new _
  · rw [removed, removeFrom_eq (name e) distinct, List.filter_filter]
    refine List.filter_congr fun q _ => ?_
    cases same : sameIgnoringCase (name e) q.1 with
    | false => simp
    | true => simp [other q.1 same]

/-- Every call is one edit or two. -/
theorem apply_headers (m : HttpMessage) (op : HeaderOp) : ∃ edits : List HeaderEdit,
    (op.apply m).headers = (edits.foldl HttpMessage.edit m).headers ∧
      edits.map name = op.names := by
  cases op with
  | edit e => exact ⟨[e], rfl, rfl⟩
  | setChunkedTransfer bin =>
    cases bin with
    | true =>
      exact ⟨[.removeHeader (literal "Content-Length"),
        .setValueByHeader (literal "Transfer-Encoding") (literal "chunked")], rfl, rfl⟩
    | false => exact ⟨[.removeHeader (literal "Transfer-Encoding")], rfl, rfl⟩

theorem edits_distinct (edits : List HeaderEdit) {m : HttpMessage}
    (distinct : Distinct m.headers) : Distinct (edits.foldl HttpMessage.edit m).headers := by
  induction edits generalizing m with
  | nil => exact distinct
  | cons e rest ih => exact ih (edit_distinct distinct e)

theorem edits_others (keep : Bytes → Bool) (edits : List HeaderEdit) {m : HttpMessage}
    (distinct : Distinct m.headers)
    (other : ∀ e ∈ edits, ∀ n, sameIgnoringCase (name e) n = true → keep n = false) :
    (edits.foldl HttpMessage.edit m).headers.filter (fun p => keep p.1) =
      m.headers.filter fun p => keep p.1 := by
  induction edits generalizing m with
  | nil => rfl
  | cons e rest ih =>
    have later := ih (edit_distinct distinct e) fun e there =>
      other e (List.mem_cons_of_mem _ there)
    exact later.trans (edit_others distinct e keep (other e List.mem_cons_self))

theorem apply_distinct (distinct : Distinct m.headers) (op : HeaderOp) :
    Distinct (op.apply m).headers := by
  obtain ⟨edits, same, _⟩ := apply_headers m op
  rw [same]
  exact edits_distinct edits distinct

theorem apply_others (distinct : Distinct m.headers) (op : HeaderOp) :
    (op.apply m).headers.filter (fun p => op.leaves p.1) =
      m.headers.filter fun p => op.leaves p.1 := by
  obtain ⟨edits, same, names⟩ := apply_headers m op
  rw [same]
  refine edits_others op.leaves edits distinct fun e there n same => ?_
  have named : name e ∈ op.names := names ▸ List.mem_map_of_mem there
  refine Bool.eq_false_iff.mpr fun left => ?_
  have other := List.all_eq_true.mp left (name e) named
  rw [same] at other
  cases other

theorem set_get (m : HttpMessage) {h h' : Bytes} (same : sameIgnoringCase h h' = true)
    (v : Bytes) : (m.setValueByHeader h' v).getValueByHeader h = v := by
  have looked : ((setValue h' v m.headers).find? fun q => fieldKey h = fieldKey q.1).map
      Prod.snd = some v := by
    rw [setValue_eq, KeyedList.find_put, if_pos ((same_iff _ _).mp same).symm]
  have test : (fun q : Bytes × Bytes => decide (fieldKey h = fieldKey q.1)) =
      fun q => sameIgnoringCase h q.1 :=
    funext fun q => Bool.eq_iff_iff.mpr (by rw [decide_eq_true_iff, same_iff])
  rw [getValueByHeader, HttpMessage.setValueByHeader, ← test, looked]
  rfl

theorem remove_get (distinct : Distinct m.headers) {h h' : Bytes}
    (same : sameIgnoringCase h h' = true) : (m.removeHeader h').getValueByHeader h = [] := by
  have none_ : (m.removeHeader h').headers.find? (fun p => sameIgnoringCase h p.1) = none := by
    rw [HttpMessage.removeHeader, removeFrom_eq h' distinct, List.find?_eq_none]
    intro q there again
    have other := (List.mem_filter.mp there).2
    have met : sameIgnoringCase h' q.1 = true :=
      (same_iff _ _).mpr (((same_iff _ _).mp same).symm.trans ((same_iff _ _).mp again))
    rw [met] at other
    cases other
  rw [getValueByHeader, none_]
  rfl

theorem isMap_of_distinct (distinct : Distinct m.headers) : IsMap m where
  distinct := by
    refine (List.pairwise_map.mp (List.pairwise_map.mp distinct)).imp fun other => ?_
    exact Bool.eq_false_iff.mpr fun same => other ((same_iff _ _).mp same)
  found _ _ v same := set_get m same v
  removed _ _ same := remove_get distinct same
  others := apply_others distinct

/-- A list that begins empty is a map behind any calls. -/
theorem isMap (m : HttpMessage) (ops : List HeaderOp) :
    IsMap (ops.foldl HeaderOp.apply { m with headers := [] }) := by
  have distinct : Distinct (ops.foldl HeaderOp.apply { m with headers := [] }).headers := by
    induction ops using List.reverseRecOn with
    | nil => exact List.nodup_nil
    | append_singleton ops op ih =>
      rw [List.foldl_append]
      exact apply_distinct ih op
  exact isMap_of_distinct distinct

end

end HeaderMap
