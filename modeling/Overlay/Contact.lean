import Overlay.Distance

/-!
# Contacts

A contact is what one node knows of another: its identifier, and whatever the host keeps with
it, such as an address or a name. Only the identifier tells contacts apart.
-/
namespace Overlay

/-- A node as others know it. -/
structure Contact (α : Type) where
  /-- The identifier of the node. -/
  id : Id
  /-- What the host keeps with it. -/
  info : α
  deriving DecidableEq, Repr

namespace Contact

variable {α : Type}

/-- The contact lies at most as far from `target` as the other. -/
def nearer (target : Id) (a b : Contact α) : Bool :=
  decide (target.distance a.id ≤ target.distance b.id)

/-- Contacts in ascending distance to `target`. -/
def sortByDistance (target : Id) (contacts : List (Contact α)) : List (Contact α) :=
  contacts.mergeSort (nearer target)

/-- Insert into a list in ascending distance to `target`, behind all closer contacts. -/
def insertByDistance (target : Id) (c : Contact α) : List (Contact α) → List (Contact α)
  | [] => [c]
  | next :: rest =>
    if target.closer next.id c.id then next :: insertByDistance target c rest
    else c :: next :: rest

end Contact

end Overlay
