import Overlay.Contact

/-!
# Buckets

A bucket keeps up to `capacity` contacts, the most recently seen first. A contact seen again
moves to the front and takes its new information along; a new contact is put in front while
there is room and is refused otherwise. A full bucket never drops a contact by itself: the
stalest one, at the back, is what the owner may probe and remove.
-/
namespace Overlay

/-- What became of a contact offered to a bucket. -/
inductive Outcome where
  /-- It was new and has been stored. -/
  | added
  /-- It was known and has moved to the front. -/
  | refreshed
  /-- There was no room for it. -/
  | full
  deriving DecidableEq, Repr

/-- The name of an outcome. -/
def Outcome.name : Outcome → String
  | .added => "added"
  | .refreshed => "refreshed"
  | .full => "full"

/-- A bounded list of contacts in order of recency. -/
structure Bucket (α : Type) where
  /-- The largest number of contacts. -/
  capacity : Nat
  /-- The contacts, most recently seen first. -/
  entries : List (Contact α)
  deriving DecidableEq, Repr

namespace Bucket

variable {α : Type}

/-- A bucket without contacts. Its capacity is one that room can be reserved for: larger ones, for
which no bucket can be made at all, are left out. -/
def empty (capacity : Nat) : Bucket α := ⟨capacity, []⟩

/-- Number of contacts. -/
def size (b : Bucket α) : Nat := b.entries.length

/-- There is no contact. -/
def isEmpty (b : Bucket α) : Bool := b.entries.isEmpty

/-- There is no room for a new contact. -/
def isFull (b : Bucket α) : Bool := decide (b.capacity ≤ b.entries.length)

/-- A contact with this identifier is stored. -/
def contains (b : Bucket α) (id : Id) : Bool := b.entries.any fun c => c.id = id

/-- The contact with this identifier. -/
def get? (b : Bucket α) (id : Id) : Option (Contact α) := b.entries.find? fun c => c.id = id

/-- The least recently seen contact. -/
def stalest? (b : Bucket α) : Option (Contact α) := b.entries.getLast?

/-- The bucket without the contact of this identifier. -/
def erase (b : Bucket α) (id : Id) : Bucket α :=
  { b with entries := b.entries.eraseP fun c => c.id = id }

/-- Offer a contact that has just been seen. -/
def add (b : Bucket α) (c : Contact α) : Outcome × Bucket α :=
  if b.contains c.id then (.refreshed, { b with entries := c :: (b.erase c.id).entries })
  else if b.isFull then (.full, b)
  else (.added, { b with entries := c :: b.entries })

/-- The contacts whose identifier has this value of a bit, in the same order. -/
def half (b : Bucket α) (index : Nat) (value : Bool) : Bucket α :=
  { b with entries := b.entries.filter fun c => c.id.bit index = value }

end Bucket

end Overlay
