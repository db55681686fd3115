import Overlay.Proofs.Spine

/-!
# Tables laid out in slots

The buckets of a table can be kept in a row of slots in the order in which they came to be: the
first slot is the root, a division deals the contacts of a bucket to two new ones behind all others
and leaves the numbers of their slots in its place. Going from slot to slot finds the bucket of an
identifier and lists the regions, and going through the row lists all contacts. Since every division
is one bit further along the path of the home, the row is in ascending depth, and every slot is
reached exactly once from the root. An arena and a table that go through the same changes therefore
list the same contacts in the same order and give the same answers, and the table is well formed.
-/
namespace Overlay

section Sorting

variable {β : Type} {le : β → β → Bool}

/-- Sorting puts the first item behind all smaller ones and in front of all others. -/
theorem mergeSort_cons_eq (trans : ∀ a b c, le a b → le b c → le a c)
    (total : ∀ a b, le a b || le b a) (x : β) (items : List β) :
    (x :: items).mergeSort le = (items.mergeSort le).filter (fun y => !le x y) ++
      x :: (items.mergeSort le).filter (le x) := by
  obtain ⟨front, back, whole, rest, smaller⟩ := List.mergeSort_cons trans total x items
  have sorted := List.pairwise_mergeSort trans total (x :: items)
  rw [whole, List.pairwise_append, List.pairwise_cons] at sorted
  have larger : ∀ y ∈ back, le x y = true := sorted.2.1.1
  have frontFilter : front.filter (fun y => !le x y) = front := List.filter_eq_self.mpr smaller
  have frontNone : front.filter (le x) = [] :=
    List.filter_eq_nil_iff.mpr fun y member => by simpa using smaller y member
  have backFilter : back.filter (le x) = back := List.filter_eq_self.mpr larger
  have backNone : back.filter (fun y => !le x y) = [] :=
    List.filter_eq_nil_iff.mpr fun y member => by simpa using larger y member
  rw [whole, rest, List.filter_append, List.filter_append, frontFilter, backNone, frontNone,
    backFilter, List.append_nil, List.nil_append]

/-- A first item that none is smaller than stays in front. -/
theorem mergeSort_cons_of_le (trans : ∀ a b c, le a b → le b c → le a c)
    (total : ∀ a b, le a b || le b a) (x : β) (items : List β)
    (least : ∀ y ∈ items, le x y = true) :
    (x :: items).mergeSort le = x :: items.mergeSort le := by
  have all : ∀ y ∈ items.mergeSort le, le x y = true := fun y member =>
    least y (List.mem_mergeSort.mp member)
  have none : (items.mergeSort le).filter (fun y => !le x y) = [] :=
    List.filter_eq_nil_iff.mpr fun y member => by simpa using all y member
  rw [mergeSort_cons_eq trans total, none, List.filter_eq_self.mpr all, List.nil_append]

/-- A last item that is smaller than all others comes to the front. -/
theorem mergeSort_concat_of_lt (trans : ∀ a b c, le a b → le b c → le a c)
    (total : ∀ a b, le a b || le b a) (x : β) (items : List β)
    (less : ∀ y ∈ items, le y x = false) :
    (items ++ [x]).mergeSort le = x :: items.mergeSort le := by
  induction items with
  | nil => simp
  | cons y items further =>
    obtain ⟨first, others⟩ := List.forall_mem_cons.mp less
    rw [List.cons_append, mergeSort_cons_eq trans total, further others,
      mergeSort_cons_eq trans total y items]
    simp [first]

end Sorting

/-- What a slot holds. -/
inductive Slot (α : Type) where
  /-- A part of the identifier space that is not divided. -/
  | leaf (bucket : Bucket α)
  /-- The numbers of the slots for a clear and for a set next bit. -/
  | branch (low high : Nat)

/-- The contacts of a slot. -/
def Slot.entries {α : Type} : Slot α → List (Contact α)
  | leaf bucket => bucket.entries
  | branch _ _ => []

/-- The bucket of a slot. -/
def Slot.bucket? {α : Type} : Slot α → Option (Bucket α)
  | leaf bucket => some bucket
  | branch _ _ => none

/-- Buckets in the order in which they came to be. -/
structure Arena (α : Type) where
  /-- The identifier along whose path buckets are divided. -/
  home : Id
  /-- Buckets at this depth are not divided. -/
  maxDepth : Nat
  /-- The slots, that of the root first. -/
  slots : List (Slot α)

namespace Arena

variable {α : Type}

/-- An arena of one empty bucket. -/
def withDepth (home : Id) (capacity maxDepth : Nat) : Arena α :=
  ⟨home, min maxDepth Id.bitLength, [.leaf (.empty capacity)]⟩

/-- Follow the bits of an identifier from a slot at a depth, for a number of steps at most; gives
the slot at the end, its depth and its bucket. -/
def seek (slots : List (Slot α)) (id : Id) : Nat → Nat → Nat → Option (Nat × Nat × Bucket α)
  | 0, _, _ => none
  | steps + 1, index, depth =>
    match slots[index]? with
    | some (.leaf bucket) => some (index, depth, bucket)
    | some (.branch low high) =>
      seek slots id steps (if id.bit depth then high else low) (depth + 1)
    | none => none

/-- The slot of an identifier, with its depth and its bucket. -/
def find (a : Arena α) (id : Id) : Option (Nat × Nat × Bucket α) :=
  seek a.slots id a.slots.length 0 0

/-- Put a bucket into a slot. -/
def put (a : Arena α) (index : Nat) (bucket : Bucket α) : Arena α :=
  { a with slots := a.slots.set index (.leaf bucket) }

/-- Deal the contacts of a bucket to two new ones behind all slots. -/
def split (a : Arena α) (index depth : Nat) (bucket : Bucket α) : Arena α :=
  let halves := bucket.deal depth
  { a with
    slots := a.slots.set index (.branch a.slots.length (a.slots.length + 1)) ++
      [.leaf halves.1, .leaf halves.2] }

/-- Offer a contact to its bucket; tells what became of it. -/
def place (a : Arena α) (c : Contact α) : Outcome × Arena α :=
  match a.find c.id with
  | none => (.full, a)
  | some (index, _, bucket) =>
    match bucket.add c with
    | (.full, _) => (.full, a)
    | (outcome, bucket) => (outcome, a.put index bucket)

/-- Divide the bucket of an identifier, if it is above the last depth and on the path of the home
and neither none nor all of its contacts have the next bit set. -/
def divide? (a : Arena α) (id : Id) : Option (Arena α) :=
  match a.find id with
  | none => none
  | some (index, depth, bucket) =>
    let ones := bucket.entries.countP fun c => c.id.bit depth
    if decide (depth < a.maxDepth) && id.hasStem a.home depth &&
        (decide (ones ≠ 0) && decide (ones ≠ bucket.size)) then
      some (a.split index depth bucket)
    else none

/-- Offer a contact; a full bucket is divided once if it may be. -/
def add (a : Arena α) (c : Contact α) : Arena α :=
  match a.place c with
  | (.full, _) =>
    match a.divide? c.id with
    | some divided => (divided.place c).2
    | none => a
  | (_, changed) => changed

/-- Remove the contact of an identifier. -/
def remove (a : Arena α) (id : Id) : Arena α :=
  match a.find id with
  | none => a
  | some (index, _, bucket) => if bucket.contains id then a.put index (bucket.erase id) else a

/-- The arena after one change. -/
def change (a : Arena α) : Table.Change α → Arena α
  | .offer c => a.add c
  | .withdraw id => a.remove id

/-- The arena after some changes, the first of the list first. -/
def after (a : Arena α) (changes : List (Table.Change α)) : Arena α := changes.foldl change a

/-- All contacts, by slots. -/
def contacts (a : Arena α) : List (Contact α) := a.slots.flatMap Slot.entries

/-- The regions below the slots of a stack, for a number of steps at most. A branch is replaced on
the stack by its two sides, the one for a clear bit on top. -/
def walk (slots : List (Slot α)) : Nat → List (Nat × Id × Nat) → List (Region α)
  | _, [] => []
  | 0, _ => []
  | steps + 1, (index, stem, depth) :: stack =>
    match slots[index]? with
    | some (.leaf bucket) => ⟨stem, depth, bucket⟩ :: walk slots steps stack
    | some (.branch low high) =>
      walk slots steps
        ((low, stem, depth + 1) :: (high, stem.withBit depth true, depth + 1) :: stack)
    | none => walk slots steps stack

/-- All regions, from the lowest identifiers to the highest. -/
def regions (a : Arena α) : List (Region α) := walk a.slots a.slots.length [(0, .zero, 0)]

/-- Add the contacts below a slot that pass a test to those already found, for a number of steps
down at most; the side of the target comes first, and no slot is entered once `count` are found. -/
def gather (slots : List (Slot α)) (target : Id) (count : Nat) (eligible : Contact α → Bool) :
    Nat → Nat → Nat → List (Contact α) → List (Contact α)
  | 0, _, _, found => found
  | steps + 1, index, depth, found =>
    if count ≤ found.length then found
    else
      match slots[index]? with
      | some (.leaf bucket) => found ++ bucket.entries.filter eligible
      | some (.branch low high) =>
        let near := if target.bit depth then high else low
        let far := if target.bit depth then low else high
        gather slots target count eligible steps far (depth + 1)
          (gather slots target count eligible steps near (depth + 1) found)
      | none => found

/-- Up to `count` contacts that pass a test, closest to a target first. -/
def closest (a : Arena α) (target : Id) (count : Nat) (eligible : Contact α → Bool) :
    List (Contact α) :=
  let own := ((a.find target).map fun (_, _, bucket) => bucket.entries.filter eligible).getD []
  let found :=
    if own.length = count then own
    else gather a.slots target count eligible a.slots.length 0 0 []
  (Contact.sortByDistance target found).take count

end Arena

namespace Trie

variable {α : Type}

/-! ## Layouts -/

/-- The side of a branch for a value of its bit. -/
def side (zero one : Trie α) (value : Bool) : Trie α := if value then one else zero

/-- A trie is laid out in slots: its root is in the slot `index`, and from the slot `next` on there
are its other parts, those of every branch behind those of the branches above it. Off the path of
the home there are leaves only. -/
def Laid (home : Id) (slots : List (Slot α)) (depth index next : Nat) : Trie α → Prop
  | leaf bucket => slots[index]? = some (.leaf bucket) ∧ slots.length = next
  | branch zero one =>
    slots[index]? = some (.branch next (next + 1)) ∧
      if home.bit depth then
        (∃ bucket, zero = leaf bucket ∧ slots[next]? = some (.leaf bucket)) ∧
          one.Laid home slots (depth + 1) (next + 1) (next + 2)
      else
        (∃ bucket, one = leaf bucket ∧ slots[next + 1]? = some (.leaf bucket)) ∧
          zero.Laid home slots (depth + 1) next (next + 2)

variable {home : Id} {slots : List (Slot α)} {depth index next : Nat} {trie zero one : Trie α}

/-- A branch is laid out when the side off the path is a leaf, the side on the path is laid out
behind both, and the slot of the branch names the slots of both. -/
theorem laid_branch_iff : (branch zero one).Laid home slots depth index next ↔
    slots[index]? = some (.branch next (next + 1)) ∧
      (∃ bucket, side zero one (!home.bit depth) = leaf bucket ∧
        slots[next + (!home.bit depth).toNat]? = some (.leaf bucket)) ∧
      (side zero one (home.bit depth)).Laid home slots (depth + 1) (next + (home.bit depth).toNat)
        (next + 2) := by
  rw [Laid]
  cases home.bit depth <;> simp [side]

/-- An identifier goes to the side of its bit. -/
theorem locate_branch (id : Id) : (branch zero one).locate id depth =
    (side zero one (id.bit depth)).locate id (depth + 1) := by
  rw [locate, side]
  split <;> rfl

/-- A graft changes the side of the bit of an identifier and leaves the other side as it is. -/
theorem exists_graft_branch (zero one : Trie α) (id : Id) (depth : Nat) (replacement : Trie α) :
    ∃ zero' one', (branch zero one).graft id depth replacement = branch zero' one' ∧
      side zero' one' (id.bit depth) =
        (side zero one (id.bit depth)).graft id (depth + 1) replacement ∧
      side zero' one' (!id.bit depth) = side zero one (!id.bit depth) := by
  cases bit : id.bit depth with
  | false =>
    exact ⟨zero.graft id (depth + 1) replacement, one,
      by rw [graft, bit, if_neg Bool.false_ne_true], rfl, rfl⟩
  | true =>
    exact ⟨zero, one.graft id (depth + 1) replacement, by rw [graft, bit, if_pos rfl], rfl, rfl⟩

/-- Only the slot of the root and those from `next` on matter. -/
theorem Laid.congr (laid : trie.Laid home slots depth index next) {others : List (Slot α)}
    (length : others.length = slots.length)
    (same : ∀ i, i = index ∨ next ≤ i → others[i]? = slots[i]?) :
    trie.Laid home others depth index next := by
  induction trie generalizing depth index next with
  | leaf bucket => exact ⟨(same index (.inl rfl)).trans laid.1, length.trans laid.2⟩
  | branch zero one zeroHolds oneHolds =>
    obtain ⟨root, ⟨bucket, off, slot⟩, below⟩ := laid_branch_iff.mp laid
    refine laid_branch_iff.mpr ⟨(same index (.inl rfl)).trans root,
      ⟨bucket, off, (same _ (.inr (Nat.le_add_right _ _))).trans slot⟩, ?_⟩
    have later : ∀ i, i = next + (home.bit depth).toNat ∨ next + 2 ≤ i →
        others[i]? = slots[i]? := fun i place => same i (.inr (by omega))
    revert below later
    cases home.bit depth with
    | false => exact zeroHolds
    | true => exact oneHolds

/-- The leaf of an identifier is in a slot: the slots are followed to it in so many steps, and what
is laid out in its place is in the place of the leaf in the trie. A leaf may be there anywhere, a
branch on the path of the home only. -/
structure LeafSlot (home : Id) (slots : List (Slot α)) (id : Id) (steps depth index next : Nat)
    (trie : Trie α) (place : Nat) : Prop where
  /-- The slots lead there. -/
  found : Arena.seek slots id steps index depth =
    some (place, (trie.locate id depth).2, (trie.locate id depth).1)
  /-- It is one of the slots of the trie. -/
  own : place = index ∨ next ≤ place
  /-- There is such a slot. -/
  inside : place < slots.length
  /-- Something else may be laid out there. -/
  takes : ∀ (others : List (Slot α)) (replacement : Trie α),
    (∀ i < slots.length, i ≠ place → others[i]? = slots[i]?) →
    replacement.Laid home others (trie.locate id depth).2 place slots.length →
    (∃ bucket, replacement = leaf bucket) ∨ id.AgreeTo home (trie.locate id depth).2 →
    (trie.graft id depth replacement).Laid home others depth index next

/-- From the slot of a branch an identifier goes on to the slot of one of its sides. -/
theorem seek_branch (root : slots[index]? = some (.branch next (next + 1))) (id : Id)
    (steps : Nat) :
    Arena.seek slots id (steps + 1) index depth =
      Arena.seek slots id steps (next + (id.bit depth).toNat) (depth + 1) := by
  rw [Arena.seek, root]
  cases id.bit depth <;> rfl

/-- An identifier that stays on the path of the home ends where it ends on the side of the path. -/
theorem LeafSlot.on_path {id : Id} {steps place : Nat}
    (laid : (branch zero one).Laid home slots depth index next) (order : index < next)
    (on : id.bit depth = home.bit depth)
    (below : (side zero one (home.bit depth)).LeafSlot home slots id steps (depth + 1)
      (next + (home.bit depth).toNat) (next + 2) place) :
    (branch zero one).LeafSlot home slots id (steps + 1) depth index next place := by
  obtain ⟨root, ⟨bucket, off, slot⟩, -⟩ := laid_branch_iff.mp laid
  have inside : index < slots.length := (List.getElem?_eq_some_iff.mp root).1
  have offInside := (List.getElem?_eq_some_iff.mp slot).1
  have own := below.own
  refine ⟨?_, by omega, below.inside, fun others replacement same fits allowed => ?_⟩
  · rw [seek_branch root, locate_branch, on]
    exact below.found
  · rw [locate_branch, on] at fits allowed
    obtain ⟨zero', one', graft, side', other'⟩ :=
      exists_graft_branch zero one id depth replacement
    rw [on] at side' other'
    rw [graft, laid_branch_iff]
    refine ⟨(same index inside (by omega)).trans root, ⟨bucket, other'.trans off, ?_⟩, ?_⟩
    · have apart : next + (!home.bit depth).toNat ≠ place := by
        cases bit : home.bit depth <;> simp [bit] at own ⊢ <;> omega
      exact (same _ offInside apart).trans slot
    · rw [side']
      exact below.takes others replacement same fits allowed

/-- An identifier that leaves the path of the home ends at the leaf there. -/
theorem LeafSlot.off_path {id : Id} (laid : (branch zero one).Laid home slots depth index next)
    (order : index < next) (away : id.bit depth ≠ home.bit depth) (steps : Nat) :
    (branch zero one).LeafSlot home slots id (steps + 2) depth index next
      (next + (id.bit depth).toNat) := by
  obtain ⟨root, ⟨bucket, off, slot⟩, below⟩ := laid_branch_iff.mp laid
  have bit : id.bit depth = !home.bit depth := Bool.eq_not.mpr away
  have back : home.bit depth = !id.bit depth := Bool.eq_not.mpr away.symm
  rw [← bit] at off slot
  rw [back] at below
  have inside : index < slots.length := (List.getElem?_eq_some_iff.mp root).1
  have slotInside := (List.getElem?_eq_some_iff.mp slot).1
  have leafEnd : (branch zero one).locate id depth = (bucket, depth + 1) := by
    rw [locate_branch, off, locate]
  refine ⟨?_, .inr (Nat.le_add_right _ _), slotInside,
    fun others replacement same fits allowed => ?_⟩
  · rw [seek_branch root, leafEnd, Arena.seek, slot]
  · rw [leafEnd] at fits allowed
    have onlyLeaf : ∃ bucket, replacement = leaf bucket :=
      allowed.resolve_right fun agree => away (agree depth (Nat.lt_succ_self depth))
    obtain ⟨bucket', rfl⟩ := onlyLeaf
    obtain ⟨zero', one', graft, side', other'⟩ :=
      exists_graft_branch zero one id depth (leaf bucket')
    rw [graft, laid_branch_iff, back, Bool.not_not]
    refine ⟨(same index inside (by omega)).trans root, ⟨bucket', ?_, fits.1⟩, ?_⟩
    · rw [side', off, Trie.graft]
    · rw [other']
      refine below.congr fits.2 fun i place => ?_
      have apart : i ≠ next + (id.bit depth).toNat := by
        cases value : id.bit depth <;> simp [value] at place ⊢ <;> omega
      by_cases known : i < slots.length
      · exact same i known apart
      · have short : others.length ≤ i := by
          rw [fits.2]
          omega
        rw [List.getElem?_eq_none short, List.getElem?_eq_none (Nat.le_of_not_lt known)]

/-- Every identifier has a leaf, which is found in as many steps as there are slots. -/
theorem Laid.exists_slot (laid : trie.Laid home slots depth index next) (order : index < next)
    (id : Id) {steps : Nat} (enough : slots.length ≤ index + steps) :
    ∃ place, trie.LeafSlot home slots id steps depth index next place := by
  induction trie generalizing depth index next steps with
  | leaf bucket =>
    obtain ⟨slot, last⟩ := laid
    have inside : index < slots.length := (List.getElem?_eq_some_iff.mp slot).1
    obtain ⟨steps, rfl⟩ : ∃ more, steps = more + 1 := ⟨steps - 1, by omega⟩
    refine ⟨index, by rw [Arena.seek, slot]; rfl, .inl rfl, inside,
      fun others replacement _ fits _ => ?_⟩
    rw [← last]
    exact fits
  | branch zero one zeroHolds oneHolds =>
    obtain ⟨root, ⟨bucket, off, slot⟩, below⟩ := laid_branch_iff.mp laid
    have inside : index < slots.length := (List.getElem?_eq_some_iff.mp root).1
    have offInside := (List.getElem?_eq_some_iff.mp slot).1
    by_cases on : id.bit depth = home.bit depth
    · obtain ⟨steps, rfl⟩ : ∃ more, steps = more + 1 := ⟨steps - 1, by omega⟩
      have further : ∃ place, (side zero one (home.bit depth)).LeafSlot home slots id steps
          (depth + 1) (next + (home.bit depth).toNat) (next + 2) place := by
        revert below
        cases home.bit depth with
        | false => exact fun below => zeroHolds below (by simp) (by simp; omega)
        | true => exact fun below => oneHolds below (by simp) (by simp; omega)
      obtain ⟨place, there⟩ := further
      exact ⟨place, there.on_path laid order on⟩
    · obtain ⟨steps, rfl⟩ : ∃ more, steps = more + 2 := ⟨steps - 2, by omega⟩
      exact ⟨_, LeafSlot.off_path laid order on steps⟩

/-- Two leaves put behind all slots are laid out in the place of a slot that names them. -/
theorem laid_pair (home : Id) {slots : List (Slot α)} (depth : Nat) {place : Nat}
    (inside : place < slots.length) (low high : Bucket α) :
    (branch (leaf low) (leaf high)).Laid home
      (slots.set place (.branch slots.length (slots.length + 1)) ++ [.leaf low, .leaf high]) depth
      place slots.length := by
  have root : (slots.set place (.branch slots.length (slots.length + 1)) ++
      [.leaf low, .leaf high])[place]? = some (.branch slots.length (slots.length + 1)) := by
    rw [List.getElem?_append_left (by rwa [List.length_set]), List.getElem?_set_self inside]
  have behind (i : Nat) : (slots.set place (.branch slots.length (slots.length + 1)) ++
      [.leaf low, .leaf high])[slots.length + i]? = [Slot.leaf low, .leaf high][i]? := by
    rw [List.getElem?_append_right (by simp), List.length_set, Nat.add_sub_cancel_left]
  refine laid_branch_iff.mpr ⟨root, ?_⟩
  cases home.bit depth with
  | false => exact ⟨⟨high, rfl, behind 1⟩, behind 0, by simp⟩
  | true => exact ⟨⟨low, rfl, behind 0⟩, behind 1, by simp⟩

/-! ## Listing a layout -/

section Gathering

variable (target : Id) (count : Nat) (eligible : Contact α → Bool)

/-- Gathering below a branch is gathering from the side of the target and then from the other
one. -/
theorem gather_branch (found : List (Contact α)) :
    (branch zero one).gather target count eligible depth found =
      if count ≤ found.length then found
      else (side zero one (!target.bit depth)).gather target count eligible (depth + 1)
        ((side zero one (target.bit depth)).gather target count eligible (depth + 1) found) := by
  rw [gather]
  cases target.bit depth <;> rfl

/-- Gathering from slot to slot finds what gathering from the trie finds. -/
theorem Laid.gather_eq (laid : trie.Laid home slots depth index next) (order : index < next)
    {steps : Nat} (enough : slots.length ≤ index + steps) (found : List (Contact α)) :
    Arena.gather slots target count eligible steps index depth found =
      trie.gather target count eligible depth found := by
  induction trie generalizing depth index next steps found with
  | leaf bucket =>
    have inside : index < slots.length := (List.getElem?_eq_some_iff.mp laid.1).1
    obtain ⟨steps, rfl⟩ : ∃ more, steps = more + 1 := ⟨steps - 1, by omega⟩
    rw [Arena.gather, laid.1, gather]
  | branch zero one zeroHolds oneHolds =>
    obtain ⟨root, ⟨bucket, off, slot⟩, below⟩ := laid_branch_iff.mp laid
    have inside : index < slots.length := (List.getElem?_eq_some_iff.mp root).1
    have offInside := (List.getElem?_eq_some_iff.mp slot).1
    obtain ⟨steps, rfl⟩ : ∃ more, steps = more + 2 := ⟨steps - 2, by omega⟩
    have sides (value : Bool) (found : List (Contact α)) :
        Arena.gather slots target count eligible (steps + 1) (next + value.toNat) (depth + 1)
          found = (side zero one value).gather target count eligible (depth + 1) found := by
      by_cases on : value = home.bit depth
      · rw [on]
        revert below
        cases home.bit depth with
        | false => exact fun below => zeroHolds below (by simp) (by simp; omega) found
        | true => exact fun below => oneHolds below (by simp) (by simp; omega) found
      · rw [← Bool.eq_not.mpr on] at off slot
        rw [Arena.gather, slot, off, gather]
    rw [Arena.gather, root, gather_branch, ← sides, ← sides]
    cases target.bit depth <;> rfl

end Gathering

/-- A region lies at least as deep as the trie hangs. -/
theorem le_region_depth (trie : Trie α) (stem : Id) (depth : Nat) :
    ∀ r ∈ trie.regions stem depth, depth ≤ r.depth := by
  induction trie generalizing stem depth with
  | leaf bucket =>
    intro r member
    obtain rfl := List.mem_singleton.mp member
    exact Nat.le_refl depth
  | branch zero one zeroHolds oneHolds =>
    intro r member
    rcases List.mem_append.mp member with left | right
    · exact Nat.le_of_succ_le (zeroHolds _ _ r left)
    · exact Nat.le_of_succ_le (oneHolds _ _ r right)

/-- The contacts of some regions, those of shallow regions first. -/
def shallowFirst (regions : List (Region α)) : List (Contact α) :=
  (regions.mergeSort fun a b => decide (a.depth ≤ b.depth)).flatMap (·.bucket.entries)

/-- A region that none is shallower than comes first if it stands first. -/
theorem shallowFirst_cons (r : Region α) (regions : List (Region α))
    (least : ∀ q ∈ regions, r.depth ≤ q.depth) :
    shallowFirst (r :: regions) = r.bucket.entries ++ shallowFirst regions := by
  rw [shallowFirst, mergeSort_cons_of_le (by simp; omega) (by simp; omega) r regions fun q member =>
    decide_eq_true (least q member), List.flatMap_cons, shallowFirst]

/-- A region that is shallower than all others comes first even if it stands last. -/
theorem shallowFirst_concat (r : Region α) (regions : List (Region α))
    (less : ∀ q ∈ regions, r.depth < q.depth) :
    shallowFirst (regions ++ [r]) = r.bucket.entries ++ shallowFirst regions := by
  rw [shallowFirst, mergeSort_concat_of_lt (by simp; omega) (by simp; omega) r regions
    fun q member => decide_eq_false (Nat.not_le.mpr (less q member)), List.flatMap_cons,
    shallowFirst]

/-- The contacts of the slot at an index. -/
def held (slots : List (Slot α)) (index : Nat) : List (Contact α) :=
  (slots[index]?.map Slot.entries).getD []

/-- The slot of a leaf holds the contacts of its bucket. -/
theorem held_leaf {bucket : Bucket α} (slot : slots[index]? = some (.leaf bucket)) :
    held slots index = bucket.entries := by
  rw [held, slot, Option.map_some, Option.getD_some, Slot.entries]

/-- The slot of a branch holds no contacts. -/
theorem held_branch {low high : Nat} (slot : slots[index]? = some (.branch low high)) :
    held slots index = [] := by
  rw [held, slot, Option.map_some, Option.getD_some, Slot.entries]

/-- The slots from an index on hold what the first of them and the others hold. -/
theorem flatMap_drop (slots : List (Slot α)) (index : Nat) :
    (slots.drop index).flatMap Slot.entries =
      held slots index ++ (slots.drop (index + 1)).flatMap Slot.entries := by
  by_cases inside : index < slots.length
  · rw [List.drop_eq_getElem_cons inside, List.flatMap_cons, held, List.getElem?_eq_getElem inside]
    rfl
  · rw [List.drop_of_length_le (by omega), List.drop_of_length_le (by omega), held,
      List.getElem?_eq_none (by omega)]
    rfl

/-- Going through the slots lists the contacts of shallow regions first. -/
theorem Laid.shallowFirst_eq (laid : trie.Laid home slots depth index next) (stem : Id) :
    shallowFirst (trie.regions stem depth) =
      held slots index ++ (slots.drop next).flatMap Slot.entries := by
  induction trie generalizing depth index next stem with
  | leaf bucket =>
    obtain ⟨slot, last⟩ := laid
    rw [List.drop_of_length_le (Nat.le_of_eq last), held_leaf slot]
    simp [regions, shallowFirst]
  | branch zero one zeroHolds oneHolds =>
    obtain ⟨root, sides⟩ := laid
    rw [held_branch root, List.nil_append, flatMap_drop slots next, flatMap_drop slots (next + 1),
      regions_branch]
    split at sides
    · obtain ⟨⟨bucket, rfl, slot⟩, below⟩ := sides
      rw [held_leaf slot, regions, List.singleton_append,
        shallowFirst_cons _ _ (le_region_depth one _ _), oneHolds below]
    · obtain ⟨⟨bucket, rfl, slot⟩, below⟩ := sides
      have others := zeroHolds below (stem.prolong depth false)
      rw [held_leaf slot, regions]
      cases zero with
      | leaf low =>
        -- The two leaves are equally deep, and the first one stays in front.
        rw [held_leaf below.1, List.drop_of_length_le (Nat.le_of_eq below.2), regions,
          List.singleton_append, shallowFirst_cons _ _ (by simp)]
        simp [shallowFirst]
      | branch low high =>
        have deeper : ∀ r ∈ (branch low high).regions (stem.prolong depth false) (depth + 1),
            depth + 1 < r.depth := by
          intro r member
          rcases List.mem_append.mp member with left | right
          · exact le_region_depth low _ _ r left
          · exact le_region_depth high _ _ r right
        rw [held_branch below.1, List.nil_append] at others ⊢
        rw [shallowFirst_concat _ _ deeper, others]

/-- Number of slots that a trie takes up. -/
def slotCount : Trie α → Nat
  | leaf _ => 1
  | branch zero one => zero.slotCount + one.slotCount + 1

/-- A trie takes up the slot of its root and all from `next` on. -/
theorem Laid.slotCount_eq (laid : trie.Laid home slots depth index next) :
    slots.length + 1 = next + trie.slotCount := by
  induction trie generalizing depth index next with
  | leaf bucket => rw [laid.2, slotCount]
  | branch zero one zeroHolds oneHolds =>
    obtain ⟨-, sides⟩ := laid
    rw [slotCount]
    split at sides
    · obtain ⟨⟨bucket, rfl, -⟩, below⟩ := sides
      have count := oneHolds below
      rw [slotCount]
      omega
    · obtain ⟨⟨bucket, rfl, -⟩, below⟩ := sides
      have count := zeroHolds below
      simp only [slotCount]
      omega

/-- The slot of the root and those from `next` on hold the buckets of the trie, each once. -/
theorem Laid.buckets_perm (laid : trie.Laid home slots depth index next) (stem : Id) :
    ((slots[index]?.toList ++ slots.drop next).filterMap Slot.bucket?).Perm
      ((trie.regions stem depth).map (·.bucket)) := by
  induction trie generalizing depth index next stem with
  | leaf bucket =>
    obtain ⟨slot, last⟩ := laid
    rw [slot, List.drop_of_length_le (Nat.le_of_eq last)]
    exact .refl [bucket]
  | branch zero one zeroHolds oneHolds =>
    obtain ⟨root, sides⟩ := laid
    have parts : (slots[index]?.toList ++ slots.drop next).filterMap Slot.bucket? =
        slots[next]?.toList.filterMap Slot.bucket? ++
          (slots[next + 1]?.toList.filterMap Slot.bucket? ++
            (slots.drop (next + 2)).filterMap Slot.bucket?) := by
      rw [root, List.drop_eq_getElem?_toList_append,
        List.drop_eq_getElem?_toList_append (i := next + 1), List.filterMap_append,
        List.filterMap_append, List.filterMap_append]
      rfl
    rw [parts, regions, List.map_append]
    split at sides
    · obtain ⟨⟨bucket, rfl, slot⟩, below⟩ := sides
      have others := oneHolds below (stem.withBit depth true)
      rw [List.filterMap_append] at others
      rw [slot]
      exact others.cons bucket
    · obtain ⟨⟨bucket, rfl, slot⟩, below⟩ := sides
      have others := zeroHolds below stem
      rw [List.filterMap_append] at others
      rw [slot]
      exact List.perm_middle.trans
        ((others.cons bucket).trans (List.perm_append_singleton bucket _).symm)

/-- A leaf on top of the stack is listed. -/
theorem walk_leaf {bucket : Bucket α} (slot : slots[index]? = some (.leaf bucket)) (stem : Id)
    (depth steps : Nat) (stack : List (Nat × Id × Nat)) :
    Arena.walk slots (steps + 1) ((index, stem, depth) :: stack) =
      ⟨stem, depth, bucket⟩ :: Arena.walk slots steps stack := by
  rw [Arena.walk, slot]

/-- Going from slot to slot lists the regions of a trie. -/
theorem Laid.walk_eq (laid : trie.Laid home slots depth index next) (stem : Id) (steps : Nat)
    (stack : List (Nat × Id × Nat)) :
    Arena.walk slots (steps + trie.slotCount) ((index, stem, depth) :: stack) =
      trie.regions stem depth ++ Arena.walk slots steps stack := by
  induction trie generalizing depth index next stem steps stack with
  | leaf bucket =>
    exact walk_leaf laid.1 stem depth steps stack
  | branch zero one zeroHolds oneHolds =>
    obtain ⟨root, sides⟩ := laid
    rw [slotCount, ← Nat.add_assoc, Arena.walk, root, regions_branch, List.append_assoc]
    split at sides
    · obtain ⟨⟨bucket, rfl, slot⟩, below⟩ := sides
      have count : steps + ((leaf bucket).slotCount + one.slotCount) =
          steps + one.slotCount + 1 := by
        rw [slotCount]
        omega
      simp only [count, walk_leaf slot, oneHolds below]
      rfl
    · obtain ⟨⟨bucket, rfl, slot⟩, below⟩ := sides
      have count : steps + (zero.slotCount + (leaf bucket).slotCount) =
          steps + 1 + zero.slotCount := by
        rw [slotCount]
        omega
      simp only [count, zeroHolds below, walk_leaf slot]
      rfl

end Trie

namespace Arena

variable {α : Type} {a : Arena α} {t : Table α}

/-! ## Arenas and tables -/

/-- The arena lays out the trie of the table. -/
structure Lays (a : Arena α) (t : Table α) : Prop where
  /-- Both have one home. -/
  home : a.home = t.home
  /-- Both have one last depth. -/
  deep : a.maxDepth = t.maxDepth
  /-- The slots are those of the trie, from the first one on. -/
  laid : t.trie.Laid t.home a.slots 0 0 1

/-- A new arena lays out a new table. -/
theorem withDepth_lays (home : Id) (capacity maxDepth : Nat) :
    (withDepth home capacity maxDepth : Arena α).Lays (.withDepth home capacity maxDepth) :=
  ⟨rfl, rfl, rfl, rfl⟩

/-- The slot of an identifier has its bucket; other contacts may be put there, and the bucket may be
split there if it is on the path of the home. -/
theorem Lays.exists_slot (lays : a.Lays t) (id : Id) :
    ∃ place, a.find id = some (place, t.depthOf id, t.bucketOf id) ∧
      (∀ bucket, (a.put place bucket).Lays (t.setBucket id bucket)) ∧
      ((t.bucketOf id).Proper → id.AgreeTo t.home (t.depthOf id) →
        (a.split place (t.depthOf id) (t.bucketOf id)).Lays (t.divide id)) := by
  obtain ⟨place, there⟩ := lays.laid.exists_slot Nat.one_pos id (Nat.le_add_left _ 0)
  refine ⟨place, there.found, fun bucket => ?_, fun proper agree => ?_⟩
  · refine ⟨lays.home, lays.deep, ?_⟩
    refine there.takes _ _ (fun i _ other => List.getElem?_set_ne other.symm) ?_ (.inl ⟨_, rfl⟩)
    exact ⟨List.getElem?_set_self there.inside, List.length_set⟩
  · refine ⟨lays.home, lays.deep, ?_⟩
    refine there.takes _ _ (fun i below other => ?_) ?_ (.inr agree)
    · rw [split, List.getElem?_append_left (by rwa [List.length_set]),
        List.getElem?_set_ne other.symm]
    · rw [split, proper.deal_eq]
      exact Trie.laid_pair _ _ there.inside _ _

/-- Placing a contact comes to the same in an arena and in its table. -/
theorem Lays.place (lays : a.Lays t) (c : Contact α) :
    (a.place c).1 = (t.place c).1.outcome ∧ (a.place c).2.Lays (t.place c).2 := by
  obtain ⟨place, found, puts, -⟩ := lays.exists_slot c.id
  have renewed (bucket : Bucket α) : (a.put place bucket).Lays (t.setBucket c.id bucket) :=
    puts bucket
  rw [Arena.place, found, Table.place]
  rcases (t.bucketOf c.id).add_cases c with ⟨-, added⟩ | ⟨-, -, added⟩ | ⟨-, -, added⟩
  · simp only [added]
    exact ⟨trivial, renewed _⟩
  · simp only [added]
    exact ⟨trivial, lays⟩
  · simp only [added]
    exact ⟨trivial, (renewed _).home, (renewed _).deep, (renewed _).laid⟩

/-- A bucket is divided in an arena when it may be divided in its table. -/
theorem Lays.divide? (lays : a.Lays t) (sound : t.Sound) (id : Id) :
    (t.divisible id = true ∧ ∃ b, a.divide? id = some b ∧ b.Lays (t.divide id)) ∨
      (t.divisible id = false ∧ a.divide? id = none) := by
  obtain ⟨place, found, -, splits⟩ := lays.exists_slot id
  have decision : a.divide? id =
      if t.divisible id then some (a.split place (t.depthOf id) (t.bucketOf id)) else none := by
    rw [Arena.divide?, found]
    simp only [lays.home, lays.deep, ← Bucket.halves_hold_eq, ← Bool.and_assoc]
    rfl
  rw [decision]
  cases divisible : t.divisible id with
  | true =>
    obtain ⟨shallow, stem⟩ := Table.divisible_place divisible
    have inside : t.depthOf id ≤ 256 := Nat.le_trans (Nat.le_of_lt shallow) sound.shallow
    have agree := (Id.hasStem_iff _ _ _ inside).mp stem
    exact .inl ⟨rfl, _, rfl, splits (sound.bucketOf_belongs id).proper agree⟩
  | false => exact .inr ⟨rfl, rfl⟩

/-- Offering a contact comes to the same in an arena and in its table. -/
theorem Lays.add (lays : a.Lays t) (sound : t.Sound) (c : Contact α) :
    (a.add c).Lays (t.add c).2 := by
  have together := lays.place c
  rw [Arena.add, Table.add]
  revert together
  rcases a.place c with ⟨outcome, b⟩
  rcases t.place c with ⟨⟨_, stalest⟩, u⟩
  rintro ⟨rfl, placed⟩
  cases outcome with
  | added => exact placed
  | refreshed => exact placed
  | full =>
    rcases lays.divide? sound c.id with ⟨divisible, b, divided, lays'⟩ | ⟨whole, undivided⟩
    · simp only [divisible, divided]
      exact (lays'.place c).2
    · simp only [whole, undivided]
      exact lays

/-- Removing an identifier comes to the same in an arena and in its table. -/
theorem Lays.remove (lays : a.Lays t) (id : Id) : (a.remove id).Lays (t.remove id).2 := by
  obtain ⟨place, found, puts, -⟩ := lays.exists_slot id
  rw [Arena.remove, found]
  rcases t.remove_cases id with ⟨stored, removed⟩ | ⟨absent, removed⟩
  · have erased := puts ((t.bucketOf id).erase id)
    simp only [stored, removed, if_true]
    exact ⟨erased.home, erased.deep, erased.laid⟩
  · simp only [absent, removed]
    exact lays

/-- An arena and its table go through a change together. -/
theorem Lays.change (lays : a.Lays t) (sound : t.Sound) (change : Table.Change α) :
    (a.change change).Lays (t.change change) := by
  cases change with
  | offer c => exact lays.add sound c
  | withdraw id => exact lays.remove id

/-- An arena and its table go through any changes together. -/
theorem Lays.after (lays : a.Lays t) (sound : t.Sound) (changes : List (Table.Change α)) :
    (a.after changes).Lays (t.after changes) := by
  induction changes generalizing a t with
  | nil => exact lays
  | cons change changes further => exact further (lays.change sound change) (sound.change change)

/-- An arena that lays out a table lists its contacts in the same order. -/
theorem Lays.contacts_eq (lays : a.Lays t) : a.contacts = t.contacts := by
  have order := lays.laid.shallowFirst_eq Id.zero
  rw [Arena.contacts, Table.contacts]
  rw [← List.drop_zero (l := a.slots), Trie.flatMap_drop]
  exact order.symm

/-- An arena that lays out a table lists its regions in the same order. -/
theorem Lays.regions_eq (lays : a.Lays t) : a.regions = t.regions := by
  have count := lays.laid.slotCount_eq
  have all : a.slots.length = 0 + t.trie.slotCount := by omega
  have walked := lays.laid.walk_eq Id.zero 0 []
  rw [Arena.regions, all, walked, Arena.walk, List.append_nil, Table.regions]

/-- An arena that lays out a table has its buckets in its slots, each once. -/
theorem Lays.buckets_perm (lays : a.Lays t) :
    (a.slots.filterMap Slot.bucket?).Perm (t.regions.map (·.bucket)) := by
  have buckets := lays.laid.buckets_perm Id.zero
  rwa [← List.drop_eq_getElem?_toList_append, List.drop_zero] at buckets

/-- Where following an identifier ends there is a leaf with the bucket that is given. -/
theorem seek_slot {slots : List (Slot α)} {id : Id} {steps index depth place last : Nat}
    {bucket : Bucket α} (found : seek slots id steps index depth = some (place, last, bucket)) :
    slots[place]? = some (.leaf bucket) := by
  induction steps generalizing index depth with
  | zero => cases found
  | succ steps further =>
    rw [seek] at found
    split at found
    · next slot =>
      cases found
      exact slot
    · exact further found
    · cases found

/-- An arena that lays out a table gives the same answers. -/
theorem Lays.closest_eq (lays : a.Lays t) (target : Id) (count : Nat) (exclude : Option Id)
    (excludeHome : Bool) :
    a.closest target count (t.eligible exclude excludeHome) =
      t.closest target count exclude excludeHome := by
  obtain ⟨place, found, -⟩ := lays.exists_slot target
  have gathered := lays.laid.gather_eq target count (t.eligible exclude excludeHome) Nat.one_pos
    (Nat.le_add_left _ 0) []
  rw [closest, found, gathered]
  rfl

end Arena

namespace Table

variable {α : Type}

/-- Whatever is offered to a new table and withdrawn from it, in any order and for any limits:
the leaves divide the identifiers among themselves, every walk ends inside the word at the leaf
of its identifier, every contact is filed once and under its own stem, no bucket overflows, and
the counter is right. Slots that go through the same changes are laid out as the table: they hold
its buckets, each once, going through them lists its regions in their order, and following an
identifier from slot to slot ends at the slot of its bucket. -/
theorem wellFormed_after (home : Id) (capacity maxDepth : Nat) (changes : List (Change α)) :
    let t := (withDepth home capacity maxDepth).after changes
    let arena := (Arena.withDepth home capacity maxDepth).after changes
    t.WellFormed ∧ t.frame = (home, capacity, min maxDepth 256) ∧
      arena.Lays t ∧ arena.regions = t.regions ∧
      (arena.slots.filterMap Slot.bucket?).Perm (t.regions.map (·.bucket)) ∧
      ∀ id, ∃ place, arena.find id = some (place, t.depthOf id, t.bucketOf id) ∧
        arena.slots[place]? = some (.leaf (t.bucketOf id)) := by
  intro t arena
  have new := withDepth_sound (α := α) home capacity maxDepth
  have lays : arena.Lays t := (Arena.withDepth_lays home capacity maxDepth).after new changes
  refine ⟨(new.after changes).wellFormed, frame_after (withDepth home capacity maxDepth) changes,
    lays, lays.regions_eq, lays.buckets_perm, fun id => ?_⟩
  obtain ⟨place, found, -⟩ := lays.exists_slot id
  exact ⟨place, found, Arena.seek_slot found⟩

end Table

end Overlay
