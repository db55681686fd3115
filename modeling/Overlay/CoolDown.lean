import Overlay.Recency

/-!
# Cooling down of unreachable nodes

A node that failed a query is left alone for a while. Marks are kept in marking order, so
expired ones gather at the least recent end and are swept whenever a node is marked; a mark
found expired is dropped on sight. Times are whole milliseconds, and a mark has expired when
its age reaches the cool-down.
-/
namespace Overlay

/-- The nodes that failed recently, with the time of their latest failure. -/
structure CoolDown where
  /-- How long a mark lasts, in milliseconds. -/
  period : Nat
  /-- The time of each mark, latest mark first. -/
  marks : Recency Nat
  deriving Repr

namespace CoolDown

/-- No node is marked. -/
def empty (period capacity : Nat) : CoolDown := ⟨period, .empty capacity⟩

/-- Number of marks, expired ones included while they are kept. -/
def size (c : CoolDown) : Nat := c.marks.size

/-- A mark set at `since` has reached the cool-down at `now`. -/
def expired (c : CoolDown) (now since : Nat) : Bool := decide (c.period ≤ now - since)

/-- Sweep expired marks from the old end, then mark a node as failing now. -/
def mark (c : CoolDown) (now : Nat) (id : Id) : CoolDown :=
  { c with marks := (c.marks.sweep (c.expired now)).put id now }

/-- Forget a node. -/
def clear (c : CoolDown) (id : Id) : CoolDown := { c with marks := c.marks.erase id }

/-- Whether a node is still cooling down; an expired mark is dropped. -/
def isCooling (c : CoolDown) (now : Nat) (id : Id) : Bool × CoolDown :=
  match c.marks.peek? id with
  | none => (false, c)
  | some since => if c.expired now since then (false, c.clear id) else (true, c)

end CoolDown

end Overlay
