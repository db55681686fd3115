import Overlay.Bucket

/-!
# Binary tries of buckets

A trie divides the identifier space by successive bits. A leaf holds the bucket of the
identifiers that agree with the path to it; a branch at depth `d` sends an identifier to the
side that its bit `d` names. The functions here take the depth at which a trie hangs, so that
they can be used below any branch.
-/
namespace Overlay

/-- A division of part of the identifier space into buckets. -/
inductive Trie (α : Type) where
  /-- A part that is not divided. -/
  | leaf (bucket : Bucket α)
  /-- The identifiers with a clear and with a set next bit. -/
  | branch (zero one : Trie α)
  deriving DecidableEq, Repr

/-- A leaf together with its place. -/
structure Region (α : Type) where
  /-- The identifier whose first `depth` bits lead to the leaf and whose others are clear. -/
  stem : Id
  /-- Number of branches above the leaf. -/
  depth : Nat
  /-- The bucket of the leaf. -/
  bucket : Bucket α
  deriving DecidableEq, Repr

namespace Trie

variable {α : Type}

/-- The bucket that an identifier belongs to, and its depth. -/
def locate (id : Id) (depth : Nat) : Trie α → Bucket α × Nat
  | leaf bucket => (bucket, depth)
  | branch zero one =>
    if id.bit depth then one.locate id (depth + 1) else zero.locate id (depth + 1)

/-- Put another trie in the place of the leaf that an identifier belongs to. -/
def graft (id : Id) (depth : Nat) (trie replacement : Trie α) : Trie α :=
  match trie with
  | leaf _ => replacement
  | branch zero one =>
    if id.bit depth then branch zero (one.graft id (depth + 1) replacement)
    else branch (zero.graft id (depth + 1) replacement) one

/-- The leaves from the lowest identifiers to the highest. -/
def regions (stem : Id) (depth : Nat) : Trie α → List (Region α)
  | leaf bucket => [⟨stem, depth, bucket⟩]
  | branch zero one =>
    zero.regions stem (depth + 1) ++ one.regions (stem.withBit depth true) (depth + 1)

/-- Walk the leaves in order of their distance to `target`, adding the contacts that pass a
test to those already found, and enter no part once `count` are found. -/
def gather (target : Id) (count : Nat) (eligible : Contact α → Bool) (depth : Nat)
    (found : List (Contact α)) : Trie α → List (Contact α)
  | leaf bucket =>
    if count ≤ found.length then found else found ++ bucket.entries.filter eligible
  | branch zero one =>
    if count ≤ found.length then found
    else if target.bit depth then
      zero.gather target count eligible (depth + 1)
        (one.gather target count eligible (depth + 1) found)
    else
      one.gather target count eligible (depth + 1)
        (zero.gather target count eligible (depth + 1) found)

end Trie

end Overlay
