import Mathlib.Data.List.Induction
import Mathlib.Data.List.Nodup

/-!
# Lists of pairs in which the last value of a key stays

A name is known by its key. A pair whose key is there takes the place of the value, and
leaves the name as it was spelled first; another pair goes to the end.
-/

namespace KeyedList
variable {α β κ : Type} [DecidableEq κ] (key : α → κ)

def put (p : α × β) : List (α × β) → List (α × β)
  | [] => [p]
  | q :: rest => if key p.1 = key q.1 then (q.1, p.2) :: rest else q :: put p rest

def collect (pairs : List (α × β)) : List (α × β) := pairs.foldl (fun held p => put key p held) []

def names : List (α × β) → List α
  | [] => []
  | p :: rest => p.1 :: (names rest).filter fun n => key n ≠ key p.1

def last (k : κ) (pairs : List (α × β)) : Option β :=
  ((pairs.filter fun p => key p.1 = k).getLast?).map Prod.snd

variable {key}
variable {p : α × β} {pairs : List (α × β)}

theorem collect_concat (pairs : List (α × β)) (p : α × β) :
    collect key (pairs ++ [p]) = put key p (collect key pairs) := by
  rw [collect, List.foldl_append]
  rfl

theorem collect_append (pairs more : List (α × β)) :
    collect key (pairs ++ more) =
      more.foldl (fun held p => put key p held) (collect key pairs) := by
  rw [collect, List.foldl_append]
  rfl

theorem last_concat (k : κ) (pairs : List (α × β)) (p : α × β) :
    last key k (pairs ++ [p]) = if key p.1 = k then some p.2 else last key k pairs := by
  rw [last, List.filter_append]
  by_cases same : key p.1 = k
  · simp [same]
  · simp [same, last]

theorem names_keys_nodup : ∀ pairs : List (α × β), ((names key pairs).map key).Nodup
  | [] => List.nodup_nil
  | p :: rest => by
    have ih := names_keys_nodup rest
    rw [names, List.map_cons, List.nodup_cons]
    constructor
    · intro again
      obtain ⟨n, left, same⟩ := List.mem_map.mp again
      exact (by simpa using (List.mem_filter.mp left).2 : key n ≠ key p.1) same
    · exact ih.sublist (List.filter_sublist.map key)

/-- The names of a longer list. -/
theorem names_concat (pairs : List (α × β)) (p : α × β) :
    names key (pairs ++ [p]) =
      if key p.1 ∈ (names key pairs).map key then names key pairs
      else names key pairs ++ [p.1] := by
  induction pairs with
  | nil => simp [names]
  | cons q rest ih =>
    rw [List.cons_append, names, ih, names, List.map_cons]
    by_cases same : key p.1 = key q.1
    · have here : key p.1 ∈ key q.1 :: ((names key rest).filter fun n => key n ≠ key q.1).map key :=
        same ▸ List.mem_cons_self
      rw [if_pos here]
      split_ifs with known
      · rfl
      · rw [List.filter_append]
        simp [same]
    · have sameKeys : key p.1 ∈ (names key rest).map key ↔
          key p.1 ∈ key q.1 :: ((names key rest).filter fun n => key n ≠ key q.1).map key := by
        constructor
        · intro known
          obtain ⟨n, left, eq⟩ := List.mem_map.mp known
          refine List.mem_cons_of_mem _ (List.mem_map.mpr ⟨n, List.mem_filter.mpr ⟨left, ?_⟩, eq⟩)
          exact decide_eq_true (eq ▸ same)
        · intro known
          rcases List.mem_cons.mp known with eq | later
          · exact absurd eq same
          · obtain ⟨n, left, eq⟩ := List.mem_map.mp later
            exact List.mem_map.mpr ⟨n, (List.mem_filter.mp left).1, eq⟩
      by_cases known : key p.1 ∈ (names key rest).map key
      · rw [if_pos known, if_pos (sameKeys.mp known)]
      · rw [if_neg known, if_neg (mt sameKeys.mpr known), List.filter_append, List.cons_append]
        simp [same]

/-- A later value of a name replaces the one that was put before it. -/
theorem put_put (name : α) (value value' : β) (held : List (α × β)) :
    put key (name, value') (put key (name, value) held) = put key (name, value') held := by
  induction held with
  | nil => simp [put]
  | cons q rest ih =>
    by_cases same : key name = key q.1
    · simp [put, same]
    · simp [put, same, ih]

variable (key) in
/-- The value of one name is changed; `new` is told the old one. -/
def alter (name : α) (new : Option β → β) : List (α × β) → List (α × β)
  | [] => [(name, new none)]
  | q :: rest =>
    if key name = key q.1 then (q.1, new (some q.2)) :: rest else q :: alter name new rest

theorem put_eq_alter (p : α × β) (held : List (α × β)) :
    put key p held = alter key p.1 (fun _ => p.2) held := by
  induction held with
  | nil => rfl
  | cons q rest ih => rw [put, alter, ih]

/-- An alteration adds a name only when its key is new. -/
theorem alter_names (name : α) (new : Option β → β) (held : List (α × β)) :
    (alter key name new held).map Prod.fst =
      if key name ∈ (held.map Prod.fst).map key then held.map Prod.fst
      else held.map Prod.fst ++ [name] := by
  induction held with
  | nil => rfl
  | cons q rest ih =>
    rw [alter]
    by_cases same : key name = key q.1
    · rw [if_pos same, if_pos (same ▸ List.mem_cons_self)]
      rfl
    · rw [if_neg same, List.map_cons, ih]
      by_cases known : key name ∈ (rest.map Prod.fst).map key
      · have there : key name ∈ ((q :: rest).map Prod.fst).map key := List.mem_cons_of_mem _ known
        rw [if_pos known, if_pos there]
        rfl
      · have nowhere : key name ∉ ((q :: rest).map Prod.fst).map key := by
          intro there
          rcases List.mem_cons.mp there with eq | later
          · exact same eq
          · exact known later
        rw [if_neg known, if_neg nowhere]
        rfl

theorem alter_keys_nodup (name : α) (new : Option β → β) {held : List (α × β)}
    (nodup : ((held.map Prod.fst).map key).Nodup) :
    (((alter key name new held).map Prod.fst).map key).Nodup := by
  rw [alter_names]
  split_ifs with known
  · exact nodup
  · rw [List.map_append, List.map_singleton, ← List.concat_eq_append]
    exact nodup.concat known

/-- The pairs of other names stay as they are. -/
theorem filter_alter {name : α} (keep : α → Bool)
    (other : ∀ n, key name = key n → keep n = false) (new : Option β → β) (held : List (α × β)) :
    (alter key name new held).filter (fun q => keep q.1) = held.filter fun q => keep q.1 := by
  induction held with
  | nil =>
    have dropped : ¬ keep name = true := by simp [other name rfl]
    exact List.filter_cons_of_neg dropped
  | cons q rest ih =>
    rw [alter]
    by_cases same : key name = key q.1
    · rw [if_pos same, List.filter_cons, List.filter_cons, other q.1 same]
      rfl
    · rw [if_neg same, List.filter_cons, List.filter_cons, ih]

theorem put_names (p : α × β) (held : List (α × β)) :
    (put key p held).map Prod.fst =
      if key p.1 ∈ (held.map Prod.fst).map key then held.map Prod.fst
      else held.map Prod.fst ++ [p.1] := by
  rw [put_eq_alter, alter_names]

theorem collect_names (pairs : List (α × β)) :
    (collect key pairs).map Prod.fst = names key pairs := by
  induction pairs using List.reverseRecOn with
  | nil => rfl
  | append_singleton pairs p ih => rw [collect_concat, put_names, ih, names_concat]

/-- What a list holds after `put`: the new value under its key, the old ones elsewhere. -/
theorem mem_put {held : List (α × β)} (nodup : ((held.map Prod.fst).map key).Nodup) {q : α × β}
    (there : q ∈ put key p held) :
    (key q.1 = key p.1 ∧ q.2 = p.2) ∨ (key q.1 ≠ key p.1 ∧ q ∈ held) := by
  induction held with
  | nil =>
    obtain rfl := List.mem_singleton.mp there
    exact Or.inl ⟨rfl, rfl⟩
  | cons r rest ih =>
    rw [List.map_cons, List.map_cons, List.nodup_cons] at nodup
    rw [put] at there
    by_cases same : key p.1 = key r.1
    · rw [if_pos same] at there
      rcases List.mem_cons.mp there with rfl | later
      · exact Or.inl ⟨same.symm, rfl⟩
      · refine Or.inr ⟨fun eq => nodup.1 ?_, List.mem_cons_of_mem _ later⟩
        rw [← same, ← eq]
        exact List.mem_map_of_mem (List.mem_map_of_mem later)
    · rw [if_neg same] at there
      rcases List.mem_cons.mp there with rfl | later
      · exact Or.inr ⟨fun eq => same eq.symm, List.mem_cons_self⟩
      · rcases ih nodup.2 later with new | ⟨other, old⟩
        · exact Or.inl new
        · exact Or.inr ⟨other, List.mem_cons_of_mem _ old⟩

theorem collect_keys_nodup (pairs : List (α × β)) :
    (((collect key pairs).map Prod.fst).map key).Nodup := by
  rw [collect_names]
  exact names_keys_nodup pairs

theorem last_of_mem_collect {q : α × β} (there : q ∈ collect key pairs) :
    last key (key q.1) pairs = some q.2 := by
  induction pairs using List.reverseRecOn with
  | nil => cases there
  | append_singleton pairs p ih =>
    rw [collect_concat] at there
    rw [last_concat]
    rcases mem_put (collect_keys_nodup pairs) there with ⟨same, value⟩ | ⟨other, old⟩
    · rw [if_pos same.symm, value]
    · rw [if_neg fun eq => other eq.symm]
      exact ih old

/-- Two lists are collected to the same one when they have the same names, in the same order,
and each has the same last value. -/
theorem collect_eq_iff {l l' : List (α × β)} : collect key l = collect key l' ↔
    names key l = names key l' ∧ ∀ n ∈ names key l, last key (key n) l = last key (key n) l' := by
  constructor
  · intro eq
    constructor
    · rw [← collect_names, ← collect_names, eq]
    · intro n there
      rw [← collect_names] at there
      obtain ⟨q, held, rfl⟩ := List.mem_map.mp there
      rw [last_of_mem_collect held, last_of_mem_collect (eq ▸ held)]
  · rintro ⟨sameNames, sameValues⟩
    have lengths : (collect key l).length = (collect key l').length := by
      rw [← List.length_map Prod.fst, ← List.length_map Prod.fst, collect_names, collect_names,
        sameNames]
    refine List.ext_getElem lengths fun i first second => ?_
    have fsts : (collect key l)[i].1 = (collect key l')[i].1 := by
      have names : (collect key l).map Prod.fst = (collect key l').map Prod.fst := by
        rw [collect_names, collect_names, sameNames]
      have at_i := congrArg (fun names => names[i]?) names
      simpa [first, second] using at_i
    have held := List.getElem_mem first
    have name := sameValues (collect key l)[i].1
      (@collect_names _ _ _ _ key l ▸ List.mem_map_of_mem held)
    rw [last_of_mem_collect held, fsts, last_of_mem_collect (List.getElem_mem second)] at name
    exact Prod.ext fsts (Option.some.inj name)

/-- The value that was put is found under its key, and the others are as before. -/
theorem find_put (k : κ) (p : α × β) (held : List (α × β)) :
    ((put key p held).find? fun q => k = key q.1).map Prod.snd =
      if key p.1 = k then some p.2 else (held.find? fun q => k = key q.1).map Prod.snd := by
  induction held with
  | nil =>
    by_cases same : key p.1 = k
    · simp [put, same]
    · have other : ¬ k = key p.1 := fun eq => same eq.symm
      simp [put, same, other]
  | cons q rest ih =>
    rw [put]
    by_cases same : key p.1 = key q.1
    · rw [if_pos same]
      by_cases found : key p.1 = k
      · simp [found, ← same]
      · have other : ¬ k = key q.1 := fun eq => found (same.trans eq.symm)
        simp [found, other]
    · rw [if_neg same]
      by_cases here : k = key q.1
      · have other : ¬ key p.1 = k := fun eq => same (eq.trans here)
        simp [here, same]
      · rw [List.find?_cons_of_neg (by simpa using here), ih,
          List.find?_cons_of_neg (by simpa using here)]

/-- Looking a key up in the collected list. -/
theorem find_collect (k : κ) (pairs : List (α × β)) :
    ((collect key pairs).find? fun p => k = key p.1).map Prod.snd = last key k pairs := by
  induction pairs using List.reverseRecOn with
  | nil => rfl
  | append_singleton pairs p ih => rw [collect_concat, find_put, ih, last_concat]

end KeyedList
