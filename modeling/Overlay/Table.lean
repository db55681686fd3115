import Overlay.Feed
import Overlay.Room
import Overlay.Trie

/-!
# Routing tables

A routing table is a trie of buckets seen from one identifier, its home. A full bucket is
divided only if it lies on the path of the home identifier and both halves would hold a
contact, so the space is known finely around the home and coarsely elsewhere. Every contact
newly stored is announced on the feed of the table.
-/
namespace Overlay

/-- The contacts that one node knows, by region of the identifier space. -/
structure Table (α : Type) where
  /-- The identifier around which the table is fine. -/
  home : Id
  /-- The capacity of every bucket. -/
  capacity : Nat
  /-- Buckets at this depth are not divided. -/
  maxDepth : Nat
  /-- The buckets. -/
  trie : Trie α
  /-- Number of contacts. -/
  size : Nat
  /-- Announcements of contacts newly stored. -/
  feed : Feed (Contact α)
  deriving DecidableEq, Repr

/-- What became of a contact offered to a table. -/
structure Offer (α : Type) where
  /-- Whether it was stored. -/
  outcome : Outcome
  /-- The stalest contact of the bucket that had no room. -/
  stalest : Option (Contact α)
  deriving DecidableEq, Repr

namespace Table

variable {α : Type}

/-- A table of one empty bucket; depths beyond the last bit count as the last bit. As for every
bucket, the capacity is one that room can be reserved for. -/
def withDepth (home : Id) (capacity maxDepth : Nat) : Table α where
  home := home
  capacity := capacity
  maxDepth := min maxDepth Id.bitLength
  trie := .leaf (.empty capacity)
  size := 0
  feed := .empty

/-- A table of one empty bucket that may be divided down to the last bit. -/
def new (home : Id) (capacity : Nat) : Table α := withDepth home capacity Id.bitLength

/-- The bucket of an identifier. -/
def bucketOf (t : Table α) (id : Id) : Bucket α := (t.trie.locate id 0).1

/-- The depth of the bucket of an identifier. -/
def depthOf (t : Table α) (id : Id) : Nat := (t.trie.locate id 0).2

/-- Put a bucket in the place of the bucket of an identifier. -/
def setBucket (t : Table α) (id : Id) (bucket : Bucket α) : Table α :=
  { t with trie := t.trie.graft id 0 (.leaf bucket) }

/-- The bucket of an identifier may be divided: it is not at the last depth, lies on the path
of the home identifier, and has a contact on either side of the next bit. -/
def divisible (t : Table α) (id : Id) : Bool :=
  let bucket := t.bucketOf id
  let depth := t.depthOf id
  decide (depth < t.maxDepth) && id.hasStem t.home depth &&
    !(bucket.half depth true).isEmpty && !(bucket.half depth false).isEmpty

/-- Divide the bucket of an identifier by its next bit; the order within each half stays. -/
def divide (t : Table α) (id : Id) : Table α :=
  let bucket := t.bucketOf id
  let depth := t.depthOf id
  { t with
    trie := t.trie.graft id 0
      (.branch (.leaf (bucket.half depth false)) (.leaf (bucket.half depth true))) }

/-- Offer a contact to its bucket as the table stands. -/
def place (t : Table α) (c : Contact α) : Offer α × Table α :=
  match (t.bucketOf c.id).add c with
  | (.added, bucket) =>
    (⟨.added, none⟩,
      { t.setBucket c.id bucket with size := t.size + 1, feed := t.feed.push c })
  | (.refreshed, bucket) => (⟨.refreshed, none⟩, t.setBucket c.id bucket)
  | (.full, _) => (⟨.full, (t.bucketOf c.id).stalest?⟩, t)

/-- Offer a contact that has just been seen. A full bucket that may be divided is divided
once before the contact is offered again. -/
def add (t : Table α) (c : Contact α) : Offer α × Table α :=
  match t.place c with
  | (⟨.full, stalest⟩, _) =>
    if t.divisible c.id then (t.divide c.id).place c else (⟨.full, stalest⟩, t)
  | placed => placed

/-- A contact with this identifier is stored. -/
def contains (t : Table α) (id : Id) : Bool := (t.bucketOf id).contains id

/-- The contact with this identifier. -/
def get? (t : Table α) (id : Id) : Option (Contact α) := (t.bucketOf id).get? id

/-- Remove a contact; tells whether it was stored. -/
def remove (t : Table α) (id : Id) : Bool × Table α :=
  let bucket := t.bucketOf id
  if bucket.contains id then
    (true, { t.setBucket id (bucket.erase id) with size := t.size - 1 })
  else (false, t)

/-- The buckets with their places, from the lowest identifiers to the highest. -/
def regions (t : Table α) : List (Region α) := t.trie.regions .zero 0

/-- Number of buckets. -/
def bucketCount (t : Table α) : Nat := t.regions.length

/-- The depth of the deepest bucket. -/
def depth (t : Table α) : Nat := (t.regions.map (·.depth)).foldl max 0

/-- All contacts, those of shallow buckets first; within a depth by ascending region, within
a bucket by recency. -/
def contacts (t : Table α) : List (Contact α) :=
  (t.regions.mergeSort fun a b => decide (a.depth ≤ b.depth)).flatMap (·.bucket.entries)

/-- The contacts at exactly this log-distance from the home identifier. -/
def atLogDistance (t : Table α) (distance : Nat) : List (Contact α) :=
  t.contacts.filter fun c => t.home.logDistance c.id = distance

/-- A contact may be part of an answer. -/
def eligible (t : Table α) (exclude : Option Id) (excludeHome : Bool) (c : Contact α) : Bool :=
  !(excludeHome && decide (c.id = t.home)) && decide (exclude ≠ some c.id)

/-- Up to `count` eligible contacts closest to `target`, closest first. When the bucket of
`target` holds exactly as many as are wanted they are the answer, since everything outside it
is farther away; otherwise buckets are visited nearest first. -/
def closest (t : Table α) (target : Id) (count : Nat) (exclude : Option Id)
    (excludeHome : Bool) : List (Contact α) :=
  let eligible := t.eligible exclude excludeHome
  let own := (t.bucketOf target).entries.filter eligible
  let found := if own.length = count then own else t.trie.gather target count eligible 0 []
  (Contact.sortByDistance target found).take count

/-- The answer to who is closest to `target`. Room for all that are asked for, of so many bytes
each, is reserved first, however few there may be. -/
def nearest (t : Table α) (bytes : Nat) (target : Id) (count : Nat) (exclude : Option Id)
    (excludeHome : Bool) : Except RoomOverflow (List (Contact α)) := do
  reserve bytes count
  return t.closest target count exclude excludeHome

/-- What is kept with the contacts that `nearest` gives. -/
def nearestInfo (t : Table α) (bytes : Nat) (target : Id) (count : Nat) (exclude : Option Id)
    (excludeHome : Bool) : Except RoomOverflow (List α) := do
  return (← t.nearest bytes target count exclude excludeHome).map (·.info)

/-- The position of a reader that gets every later announcement. -/
def subscribe (t : Table α) : Nat := t.feed.total

end Table

end Overlay
