import Mathlib.Data.List.GetD
import Mathlib.Data.List.Nodup
import Mathlib.Tactic.Linarith

/-!
# net/TimeWheelEvent: the timing wheel

The ring of nodes is read from `_current` on. A node is an `unordered_set` of
channels, kept as a list without repetitions whose order means nothing.
-/

universe u

/-- The ring: the set of the current node, and the sets of the nodes behind it. -/
structure TimeWheelEvent (α : Type u) where
  current : List α
  following : List (List α)

namespace TimeWheelEvent

variable {α : Type u}

/-- `init` with `_nodeNum` nodes. -/
def init (nodenum : Nat) : TimeWheelEvent α := ⟨[], List.replicate (nodenum - 1) []⟩

def ring (w : TimeWheelEvent α) : List (List α) := w.current :: w.following

/-- The set of the node `i` places behind the current one. -/
def node (w : TimeWheelEvent α) (i : Nat) : List α := w.ring.getD i []

def Contains (w : TimeWheelEvent α) (c : α) : Prop := ∃ i, c ∈ w.node i

/-- `_current = _current->next`. -/
def jump (w : TimeWheelEvent α) : TimeWheelEvent α :=
  match w.following with
  | [] => w
  | next :: behind => ⟨next, behind ++ [w.current]⟩

section
variable [DecidableEq α]

/-- `deleteChannelFromTimeNode`: 0 and the node without `c`, or -1. -/
def deleteChannelFromTimeNode (node : List α) (c : α) : Int × List α :=
  if c ∈ node then (0, node.erase c) else (-1, node)

/-- The walk of `eraseChannel`, which ends at the first node that holds `c`. -/
def eraseFrom (c : α) : List (List α) → List (List α)
  | [] => []
  | node :: nodes =>
    let (ret, node) := deleteChannelFromTimeNode node c
    if ret = 0 then node :: nodes else node :: eraseFrom c nodes

def eraseChannel (w : TimeWheelEvent α) (c : α) : TimeWheelEvent α :=
  match eraseFrom c w.ring with
  | [] => w
  | current :: following => ⟨current, following⟩

/-- Some node holds `c`. -/
def contains (w : TimeWheelEvent α) (c : α) : Bool := w.ring.any fun node => decide (c ∈ node)

/-- `_current->ChannelSet.insert(c)`. -/
def insertCurrent (w : TimeWheelEvent α) (c : α) : TimeWheelEvent α :=
  { w with current := if c ∈ w.current then w.current else c :: w.current }

/-- `_current->ChannelSet.erase(c)`. -/
def eraseCurrent (w : TimeWheelEvent α) (c : α) : TimeWheelEvent α :=
  { w with current := w.current.erase c }

/-- `updateChannel`; `skip` is what `isSkipChannel` says of `c`. -/
def updateChannel (w : TimeWheelEvent α) (c : α) (skip : Bool) : TimeWheelEvent α :=
  if skip then w else (w.eraseChannel c).insertCurrent c

end

/-- Every channel is in at most one node, and there once. -/
structure Single (w : TimeWheelEvent α) : Prop where
  nodup : ∀ i, (w.node i).Nodup
  once : ∀ c i j, c ∈ w.node i → c ∈ w.node j → i = j

variable {w : TimeWheelEvent α} {c d : α} {i : Nat}

@[simp] theorem node_zero : w.node 0 = w.current := rfl

@[simp] theorem node_init (nodenum : Nat) : (init nodenum : TimeWheelEvent α).node i = [] := by
  cases i with
  | zero => rfl
  | succ i =>
    simp only [node, ring, init, List.getD_cons_succ]
    rw [List.getD_eq_getElem?_getD, List.getElem?_replicate]
    split_ifs <;> rfl

theorem node_of_length_le (beyond : w.ring.length ≤ i) : w.node i = [] := by
  rw [node, List.getD_eq_default _ _ beyond]

theorem lt_of_mem_node (mem : c ∈ w.node i) : i < w.ring.length := by
  by_contra beyond
  rw [node_of_length_le (Nat.le_of_not_lt beyond)] at mem
  exact nomatch mem

theorem single_init (nodenum : Nat) : (init nodenum : TimeWheelEvent α).Single := by
  constructor
  · intro i
    rw [node_init]
    exact List.nodup_nil
  · intro c i j mem
    rw [node_init] at mem
    exact nomatch mem

theorem ring_jump_length : w.jump.ring.length = w.ring.length := by
  obtain ⟨current, _ | ⟨next, behind⟩⟩ := w <;> simp [jump, ring]

/-- After a jump every node is one place closer, and the old current node is the last. -/
theorem node_jump (inside : i < w.ring.length) :
    w.jump.node i = w.node ((i + 1) % w.ring.length) := by
  obtain ⟨current, _ | ⟨next, behind⟩⟩ := w
  · have start : i = 0 := by simpa [ring] using inside
    have last : (i + 1) % (ring ⟨current, []⟩).length = 0 := Nat.mod_one _
    rw [last, start]
    rfl
  · simp only [ring, List.length_cons] at inside ⊢
    rcases Nat.lt_or_eq_of_le (Nat.le_of_lt_succ inside) with before | last
    · rw [Nat.mod_eq_of_lt (by omega)]
      cases i with
      | zero => rfl
      | succ i =>
        simp only [node, ring, jump, List.getD_cons_succ]
        rw [List.getD_append _ _ _ _ (by omega)]
    · rw [last, Nat.mod_self]
      simp only [node, ring, jump, List.getD_cons_succ, List.getD_cons_zero]
      rw [List.getD_append_right _ _ _ _ (Nat.le_refl _), Nat.sub_self, List.getD_cons_zero]

section
variable [DecidableEq α]

theorem contains_iff : w.contains c = true ↔ w.Contains c := by
  simp only [contains, List.any_eq_true, decide_eq_true_eq]
  constructor
  · rintro ⟨node, mem, held⟩
    obtain ⟨i, inside, rfl⟩ := List.mem_iff_getElem.mp mem
    exact ⟨i, by rw [TimeWheelEvent.node, List.getD_eq_getElem _ _ inside]; exact held⟩
  · rintro ⟨i, held⟩
    have inside := lt_of_mem_node held
    rw [TimeWheelEvent.node, List.getD_eq_getElem _ _ inside] at held
    exact ⟨_, List.getElem_mem inside, held⟩

theorem eraseFrom_length (nodes : List (List α)) : (eraseFrom c nodes).length = nodes.length := by
  induction nodes with
  | nil => rfl
  | cons node nodes ih =>
    rw [eraseFrom, deleteChannelFromTimeNode]
    split_ifs with held
    · rfl
    · simp [ih]

theorem ring_eraseChannel : (w.eraseChannel c).ring = eraseFrom c w.ring := by
  rw [eraseChannel]
  cases erased : eraseFrom c w.ring with
  | nil =>
    have length := eraseFrom_length (c := c) w.ring
    rw [erased, ring] at length
    exact absurd length.symm (Nat.succ_ne_zero _)
  | cons current following => rfl

theorem eraseChannel_current : (w.eraseChannel c).current.Sublist w.current := by
  have same : (w.eraseChannel c).node 0 = (eraseFrom c w.ring).getD 0 [] := by
    rw [node, ring_eraseChannel]
  rw [← node_zero, same, ring, eraseFrom, deleteChannelFromTimeNode]
  split_ifs
  · exact List.erase_sublist
  · exact List.Sublist.refl _

theorem ring_eraseChannel_length : (w.eraseChannel c).ring.length = w.ring.length := by
  rw [ring_eraseChannel, eraseFrom_length]

/-- The first node that holds `c` loses it. -/
theorem getD_eraseFrom (nodes : List (List α)) (i : Nat) :
    (eraseFrom c nodes).getD i [] =
      if c ∈ nodes.getD i [] ∧ ∀ j < i, c ∉ nodes.getD j [] then (nodes.getD i []).erase c
      else nodes.getD i [] := by
  induction nodes generalizing i with
  | nil => simp [eraseFrom]
  | cons node nodes ih =>
    rw [eraseFrom, deleteChannelFromTimeNode]
    by_cases held : c ∈ node
    · simp only [if_pos held, if_true]
      cases i with
      | zero => simp [held]
      | succ i =>
        rw [if_neg fun first => first.2 0 (Nat.succ_pos _) held]
        rfl
    · simp only [if_neg held]
      rw [if_neg (by decide)]
      cases i with
      | zero => simp [held]
      | succ i =>
        rw [List.getD_cons_succ, List.getD_cons_succ, ih]
        refine if_congr
          (and_congr_right fun _ => ⟨fun first j below => ?_, fun first j below => ?_⟩)
          rfl rfl
        · cases j with
          | zero => exact held
          | succ j => exact first j (Nat.lt_of_succ_lt_succ below)
        · exact first (j + 1) (Nat.succ_lt_succ below)

/-- With every channel in one node, the walk takes `c` out of the wheel and leaves the
other channels where they are. -/
theorem node_eraseChannel (single : w.Single) : (w.eraseChannel c).node i = (w.node i).erase c := by
  rw [node, ring_eraseChannel, getD_eraseFrom]
  split_ifs with first
  · rfl
  · refine (List.erase_of_not_mem fun held => first ⟨held, fun j below held' => ?_⟩).symm
    exact absurd (single.once c j i held' held) (Nat.ne_of_lt below)

theorem node_insertCurrent : (w.insertCurrent c).node i =
    if i = 0 ∧ c ∉ w.current then c :: w.current else w.node i := by
  cases i with
  | zero =>
    simp only [node_zero, insertCurrent, true_and]
    split_ifs <;> simp_all
  | succ i => rfl

theorem node_eraseCurrent : (w.eraseCurrent c).node i =
    if i = 0 then w.current.erase c else w.node i := by
  cases i <;> rfl

theorem mem_eraseChannel (single : w.Single) :
    d ∈ (w.eraseChannel c).node i ↔ d ≠ c ∧ d ∈ w.node i := by
  rw [node_eraseChannel single, (single.nodup i).mem_erase_iff]

theorem mem_insertCurrent : d ∈ (w.insertCurrent c).node i ↔ d ∈ w.node i ∨ i = 0 ∧ d = c := by
  rw [node_insertCurrent]
  split_ifs with fresh
  · obtain ⟨rfl, _⟩ := fresh
    simp [or_comm]
  · refine ⟨Or.inl, fun h => h.elim id ?_⟩
    rintro ⟨rfl, rfl⟩
    exact not_not.mp fun out => fresh ⟨rfl, out⟩

theorem Single.eraseChannel (single : w.Single) (c : α) : (w.eraseChannel c).Single := by
  constructor
  · intro i
    rw [node_eraseChannel single]
    exact (single.nodup i).erase c
  · intro d i j mem mem'
    exact single.once d i j ((mem_eraseChannel single).mp mem).2
      ((mem_eraseChannel single).mp mem').2

theorem Single.insertCurrent (single : w.Single) (fresh : ¬ w.Contains c) :
    (w.insertCurrent c).Single := by
  constructor
  · intro i
    rw [node_insertCurrent]
    split_ifs with start
    · exact List.nodup_cons.mpr ⟨start.2, single.nodup 0⟩
    · exact single.nodup i
  · intro d i j mem mem'
    rw [mem_insertCurrent] at mem mem'
    rcases mem with held | ⟨rfl, rfl⟩ <;> rcases mem' with held' | ⟨rfl, same⟩
    · exact single.once d i j held held'
    · exact absurd ⟨i, same ▸ held⟩ fresh
    · exact absurd ⟨j, held'⟩ fresh
    · rfl

theorem Single.eraseCurrent (single : w.Single) (c : α) : (w.eraseCurrent c).Single := by
  have sub : ∀ d i, d ∈ (w.eraseCurrent c).node i → d ∈ w.node i := by
    intro d i mem
    rw [node_eraseCurrent] at mem
    split_ifs at mem with start
    · subst start
      exact List.mem_of_mem_erase mem
    · exact mem
  constructor
  · intro i
    rw [node_eraseCurrent]
    split_ifs
    · exact (single.nodup 0).erase c
    · exact single.nodup i
  · intro d i j mem mem'
    exact single.once d i j (sub d i mem) (sub d j mem')

theorem Single.updateChannel (single : w.Single) (c : α) (skip : Bool) :
    (w.updateChannel c skip).Single := by
  rw [TimeWheelEvent.updateChannel]
  split_ifs
  · exact single
  · refine (single.eraseChannel c).insertCurrent ?_
    rintro ⟨i, mem⟩
    exact ((mem_eraseChannel single).mp mem).1 rfl

theorem contains_eraseCurrent (held : (w.eraseCurrent c).Contains d) : w.Contains d := by
  obtain ⟨i, mem⟩ := held
  rw [node_eraseCurrent] at mem
  split_ifs at mem
  · exact ⟨0, List.mem_of_mem_erase mem⟩
  · exact ⟨i, mem⟩

theorem contains_updateChannel (single : w.Single) {skip : Bool}
    (held : (w.updateChannel c skip).Contains d) : w.Contains d ∨ skip = false ∧ d = c := by
  obtain ⟨i, mem⟩ := held
  rw [TimeWheelEvent.updateChannel] at mem
  split_ifs at mem with skipped
  · exact Or.inl ⟨i, mem⟩
  · rcases mem_insertCurrent.mp mem with before | ⟨_, rfl⟩
    · exact Or.inl ⟨i, ((mem_eraseChannel single).mp before).2⟩
    · exact Or.inr ⟨by simpa using skipped, rfl⟩

end

theorem contains_jump (held : w.jump.Contains c) : w.Contains c := by
  obtain ⟨i, mem⟩ := held
  have inside := lt_of_mem_node mem
  rw [ring_jump_length] at inside
  rw [node_jump inside] at mem
  exact ⟨_, mem⟩

/-- A turn of the wheel moves no channel. -/
theorem Single.jump (single : w.Single) : w.jump.Single := by
  have place : ∀ i d, d ∈ w.jump.node i →
      i < w.ring.length ∧ d ∈ w.node ((i + 1) % w.ring.length) := by
    intro i d mem
    have inside := lt_of_mem_node mem
    rw [ring_jump_length] at inside
    rw [node_jump inside] at mem
    exact ⟨inside, mem⟩
  constructor
  · intro i
    by_cases inside : i < w.ring.length
    · rw [node_jump inside]
      exact single.nodup _
    · rw [node_of_length_le (by rw [ring_jump_length]; exact Nat.le_of_not_lt inside)]
      exact List.nodup_nil
  · intro d i j mem mem'
    obtain ⟨inside, held⟩ := place i d mem
    obtain ⟨inside', held'⟩ := place j d mem'
    have same := single.once d _ _ held held'
    have next : ∀ k < w.ring.length,
        (k + 1) % w.ring.length = if k + 1 = w.ring.length then 0 else k + 1 := by
      intro k below
      split_ifs with last
      · rw [last, Nat.mod_self]
      · exact Nat.mod_eq_of_lt (by omega)
    rw [next i inside, next j inside'] at same
    split_ifs at same <;> omega

end TimeWheelEvent
