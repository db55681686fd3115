import Overlay.Id

/-!
# Bounded maps that forget the least recently used key

The entries stand most recently used first. Writing a key makes it the most recent one and,
when a new key finds the map at its capacity, drops the last entry. Looking at a key does not
change the order; using it does.
-/
namespace Overlay

/-- A map from identifiers with a bounded number of keys. -/
structure Recency (β : Type) where
  /-- The largest number of keys; at least one. -/
  capacity : Nat
  /-- Keys and values, most recently used first. -/
  entries : List (Id × β)
  deriving Repr

namespace Recency

variable {β : Type}

/-- A map without keys; a capacity of zero counts as one. -/
def empty (capacity : Nat) : Recency β := ⟨max 1 capacity, []⟩

/-- Number of keys. -/
def size (r : Recency β) : Nat := r.entries.length

/-- The value of a key, leaving the order as it is. -/
def peek? (r : Recency β) (id : Id) : Option β :=
  (r.entries.find? fun e => e.1 = id).map (·.2)

/-- The map without a key. -/
def erase (r : Recency β) (id : Id) : Recency β :=
  { r with entries := r.entries.eraseP fun e => e.1 = id }

/-- Make a key the most recent one, with this value. -/
def put (r : Recency β) (id : Id) (value : β) : Recency β :=
  let others := (r.erase id).entries
  { r with entries := (id, value) :: others.take (r.capacity - 1) }

/-- Drop entries from the least recent end while their values pass a test. -/
def sweep (r : Recency β) (expired : β → Bool) : Recency β :=
  { r with entries := (r.entries.reverse.dropWhile fun e => expired e.2).reverse }

end Recency

end Overlay
