import Mathlib.Data.List.Basic

/-!
# Bounded first-in first-out queues

The queue carries the proof that it never holds more than its limit. Pushing
accepts the longest prefix that fits; popping hands out the longest prefix that
was asked for. No storage layout is fixed here: an implementation is compared
with this queue through its list of stored items.
-/

universe u

/-- Stored items in arrival order, never more than `limit` of them. -/
structure FifoQueue (α : Type u) where
  items : List α
  limit : Nat
  bound : items.length ≤ limit

namespace FifoQueue

variable {α : Type u}

def empty (limit : Nat) : FifoQueue α := ⟨[], limit, Nat.zero_le _⟩

def room (q : FifoQueue α) : Nat := q.limit - q.items.length

/-- Accept the first `room` items of `xs` behind the stored ones. -/
def push (q : FifoQueue α) (xs : List α) : FifoQueue α where
  items := q.items ++ xs.take q.room
  limit := q.limit
  bound := by
    have h := q.bound
    simp only [List.length_append, List.length_take, room]
    omega

/-- The queue without its first `n` items. -/
def pop (q : FifoQueue α) (n : Nat) : FifoQueue α where
  items := q.items.drop n
  limit := q.limit
  bound := by
    have h := q.bound
    simp only [List.length_drop]
    omega

/-- The first `n` items, in arrival order. -/
def front (q : FifoQueue α) (n : Nat) : List α := q.items.take n

@[ext] theorem ext {p q : FifoQueue α} (items : p.items = q.items)
    (limit : p.limit = q.limit) : p = q := by
  cases p
  cases q
  cases items
  cases limit
  rfl

theorem length_add_room (q : FifoQueue α) : q.items.length + q.room = q.limit := by
  have h := q.bound
  simp only [room]
  omega

@[simp] theorem empty_items (limit : Nat) : (empty limit : FifoQueue α).items = [] := rfl

@[simp] theorem push_limit (q : FifoQueue α) (xs : List α) : (q.push xs).limit = q.limit := rfl

@[simp] theorem pop_limit (q : FifoQueue α) (n : Nat) : (q.pop n).limit = q.limit := rfl

end FifoQueue
