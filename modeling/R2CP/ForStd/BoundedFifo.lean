import Mathlib

/-!
# Bounded queues

A first-in first-out queue whose items have sizes, and that takes a new item only
while the total stays within its capacity. Sizes and capacity are natural numbers,
so nothing wraps. A capacity that is lowered later on does not drop items.

## Key results

- `push?_of_le`, `push?_of_lt`: a push is refused exactly when it would go above the capacity
- `pop?_of_nil`, `pop?_of_cons`: a pop is refused exactly when nothing is queued
-/

/-- Items in the order in which they came, with the total size that they should not
    exceed. -/
structure BoundedFifo (β : Type) where
  items : List β
  capacity : Nat
  deriving DecidableEq, Repr

namespace BoundedFifo

variable {β : Type} (size : β → Nat)

/-- The total size. -/
def load (q : BoundedFifo β) : Nat := (q.items.map size).sum

/-- Put an item last, if there is room for it. -/
def push? (q : BoundedFifo β) (x : β) : Option (BoundedFifo β) :=
  if q.load size + size x ≤ q.capacity then some { q with items := q.items ++ [x] } else none

/-- Take the first item, if there is one. -/
def pop? (q : BoundedFifo β) : Option (β × BoundedFifo β) :=
  match q.items with
  | [] => none
  | x :: items => some (x, { q with items })

/-- Change the capacity, whatever is queued. -/
def setCapacity (q : BoundedFifo β) (capacity : Nat) : BoundedFifo β := { q with capacity }

variable {size} {q : BoundedFifo β} {x : β}

/-- An item that there is room for goes last. -/
theorem push?_of_le (h : q.load size + size x ≤ q.capacity) :
    q.push? size x = some { q with items := q.items ++ [x] } := if_pos h

/-- One that there is no room for is refused. -/
theorem push?_of_lt (h : q.capacity < q.load size + size x) : q.push? size x = none :=
  if_neg (Nat.not_le.mpr h)

/-- Nothing comes out of an empty queue, -/
theorem pop?_of_nil (h : q.items = []) : q.pop? = none := by
  rw [pop?, h]

/-- and the first item out of any other. -/
theorem pop?_of_cons {items : List β} (h : q.items = x :: items) :
    q.pop? = some (x, { q with items }) := by
  rw [pop?, h]

end BoundedFifo
