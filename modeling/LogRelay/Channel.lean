/-!
Bounded queues between tasks. A queue whose reader is gone takes nothing more, and what it held is
lost.
-/

namespace LogRelay

/-- A queue with room for `capacity` items. -/
structure Channel (α : Type) where
  capacity : Nat
  /-- What waits to be read, the oldest first. -/
  items : List α := []
  /-- Whether the reader is gone. -/
  closed : Bool := false
  deriving DecidableEq, Repr

/-- What becomes of an item that is to be put on a queue. -/
inductive Channel.Sending (α : Type) where
  | sent (channel : Channel α)
  | full
  | closed
  deriving DecidableEq, Repr

namespace Channel

variable {α : Type}

def maxCapacity : Nat := Nat.pow 2 61 - 1

/-- An empty queue; `none` if there cannot be one of that room. -/
def open? (capacity : Nat) : Option (Channel α) :=
  if 0 < capacity ∧ capacity ≤ maxCapacity then some { capacity } else none

/-- Puts an item at the end, if that is possible now. -/
def send (c : Channel α) (a : α) : Sending α :=
  if c.closed then .closed
  else if c.items.length < c.capacity then .sent { c with items := c.items ++ [a] }
  else .full

/-- Takes the oldest item. -/
def take? (c : Channel α) : Option (α × Channel α) :=
  match c.items with
  | [] => none
  | a :: rest => some (a, { c with items := rest })

def drain (c : Channel α) : List α × Channel α := (c.items, { c with items := [] })

/-- The reader goes away. -/
def close (c : Channel α) : Channel α := { c with items := [], closed := true }

theorem send_eq_sent_iff {c d : Channel α} {a : α} :
    c.send a = .sent d ↔
      c.closed = false ∧ c.items.length < c.capacity ∧ { c with items := c.items ++ [a] } = d := by
  cases h : c.closed <;> by_cases hl : c.items.length < c.capacity <;> simp [send, h, hl]

theorem send_eq_closed_iff {c : Channel α} {a : α} : c.send a = .closed ↔ c.closed = true := by
  cases h : c.closed <;> by_cases hl : c.items.length < c.capacity <;> simp [send, h, hl]

theorem take?_eq_some_iff {c d : Channel α} {a : α} :
    c.take? = some (a, d) ↔ ∃ rest, c.items = a :: rest ∧ d = { c with items := rest } := by
  unfold take?
  split
  · simp [*]
  · rename_i b rest h
    simp only [h, Option.some.injEq, Prod.mk.injEq, List.cons.injEq]
    constructor
    · rintro ⟨rfl, rfl⟩; exact ⟨rest, ⟨rfl, rfl⟩, rfl⟩
    · rintro ⟨_, ⟨rfl, rfl⟩, rfl⟩; exact ⟨rfl, rfl⟩

end Channel

end LogRelay
