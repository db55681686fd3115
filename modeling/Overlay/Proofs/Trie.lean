import Overlay.Proofs.Bucket
import Overlay.Proofs.Metric
import Overlay.Trie

/-!
# Properties of tries

A trie that hangs below a stem is placed when every leaf lies at most as deep as there are
bits and holds only contacts that agree with the path to it. In a placed trie the walk of an
identifier asks for no bit beyond the last one and ends at the only leaf whose stem the
identifier has; the list of regions shows every leaf once. Grafting exchanges the contacts of
one leaf and keeps all others.
-/
namespace Overlay

namespace Bucket

variable {α : Type}

/-- The bucket is one of the given capacity for the identifiers with a stem of a depth. -/
structure Belongs (b : Bucket α) (capacity : Nat) (stem : Id) (depth : Nat) : Prop where
  /-- The stem has no more bits than an identifier. -/
  inside : depth ≤ 256
  /-- The capacity is the one that all buckets have. -/
  sized : b.capacity = capacity
  /-- The bucket is proper. -/
  proper : b.Proper
  /-- All contacts have the stem. -/
  agree : ∀ c ∈ b.entries, c.id.AgreeTo stem depth

/-- A stem may be replaced by any identifier that has it. -/
theorem Belongs.transfer {b : Bucket α} {capacity depth : Nat} {stem other : Id}
    (belongs : b.Belongs capacity stem depth) (same : stem.AgreeTo other depth) :
    b.Belongs capacity other depth :=
  { belongs with agree := fun c member => (belongs.agree c member).trans same }

/-- Either half of a bucket belongs to the stem with the bit that the half stands for. -/
theorem Belongs.half {b : Bucket α} {capacity depth : Nat} {stem : Id}
    (belongs : b.Belongs capacity stem depth) (clear : stem.ClearFrom depth)
    (inside : depth < 256) (value : Bool) :
    (b.half depth value).Belongs capacity (stem.prolong depth value) (depth + 1) where
  inside := inside
  sized := belongs.sized
  proper := belongs.proper.half depth value
  agree c member := by
    obtain ⟨stored, bit⟩ := (b.mem_half depth value c).mp member
    exact (Id.agreeTo_prolong_iff c.id clear inside value).mpr ⟨belongs.agree c stored, bit⟩

end Bucket

namespace Trie

variable {α : Type}

/-- The contacts of all leaves, from the lowest identifiers to the highest. -/
def entries : Trie α → List (Contact α)
  | leaf bucket => bucket.entries
  | branch zero one => zero.entries ++ one.entries

/-- The bucket of the leaf at the end of a path, where a clear bit leads to the lower side. -/
def at? : Trie α → List Bool → Option (Bucket α)
  | leaf bucket, [] => some bucket
  | branch zero one, value :: path => if value then one.at? path else zero.at? path
  | _, _ => none

/-- The walk of an identifier that fails when it asks for a bit beyond the last one. -/
def walk (id : Id) (depth : Nat) : Trie α → Except BitOutOfRange (Bucket α × Nat)
  | leaf bucket => .ok (bucket, depth)
  | branch zero one => do
    let value ← id.bitAt depth
    if value then one.walk id (depth + 1) else zero.walk id (depth + 1)

/-- Every leaf of a trie that hangs below `stem` belongs to the stem that leads to it. -/
def Placed (capacity : Nat) (stem : Id) (depth : Nat) : Trie α → Prop
  | leaf bucket => bucket.Belongs capacity stem depth
  | branch zero one =>
    depth < 256 ∧ zero.Placed capacity (stem.prolong depth false) (depth + 1) ∧
      one.Placed capacity (stem.prolong depth true) (depth + 1)

variable {capacity depth : Nat} {stem : Id} {trie : Trie α}

/-! ## Contacts -/

/-- Every contact of a placed trie has the stem below which the trie hangs. -/
theorem Placed.entries_agree (placed : trie.Placed capacity stem depth)
    (clear : stem.ClearFrom depth) : ∀ c ∈ trie.entries, c.id.AgreeTo stem depth := by
  induction trie generalizing stem depth with
  | leaf bucket => exact placed.agree
  | branch zero one zeroHolds oneHolds =>
    obtain ⟨inside, low, high⟩ := placed
    intro c member
    rcases List.mem_append.mp member with left | right
    · have agree := zeroHolds low (clear.prolong inside false) c left
      exact ((Id.agreeTo_prolong_iff c.id clear inside false).mp agree).1
    · have agree := oneHolds high (clear.prolong inside true) c right
      exact ((Id.agreeTo_prolong_iff c.id clear inside true).mp agree).1

/-- The contacts on either side of a branch have the bit that the side stands for. -/
theorem Placed.bit_eq {zero one : Trie α} (placed : (branch zero one).Placed capacity stem depth)
    (clear : stem.ClearFrom depth) :
    (∀ c ∈ zero.entries, c.id.bit depth = false) ∧ ∀ c ∈ one.entries, c.id.bit depth = true := by
  obtain ⟨inside, low, high⟩ := placed
  constructor
  · intro c member
    have agree := low.entries_agree (clear.prolong inside false) c member
    exact ((Id.agreeTo_prolong_iff c.id clear inside false).mp agree).2
  · intro c member
    have agree := high.entries_agree (clear.prolong inside true) c member
    exact ((Id.agreeTo_prolong_iff c.id clear inside true).mp agree).2

/-- No identifier stands twice in a placed trie. -/
theorem Placed.distinct (placed : trie.Placed capacity stem depth) (clear : stem.ClearFrom depth) :
    (trie.entries.map (·.id)).Nodup := by
  induction trie generalizing stem depth with
  | leaf bucket => exact placed.proper.distinct
  | branch zero one zeroHolds oneHolds =>
    obtain ⟨clearBit, setBit⟩ := placed.bit_eq clear
    obtain ⟨inside, low, high⟩ := placed
    rw [entries, List.map_append, List.nodup_append]
    refine ⟨zeroHolds low (clear.prolong inside false),
      oneHolds high (clear.prolong inside true), ?_⟩
    intro a first b second same
    obtain ⟨c, stored, rfl⟩ := List.mem_map.mp first
    obtain ⟨d, other, rfl⟩ := List.mem_map.mp second
    have bits := clearBit c stored
    rw [same, setBit d other] at bits
    exact Bool.noConfusion bits

/-! ## The walk of an identifier -/

/-- The leaf at which an identifier arrives belongs to this identifier. -/
theorem Placed.locate_belongs (placed : trie.Placed capacity stem depth)
    (clear : stem.ClearFrom depth) {id : Id} (agree : id.AgreeTo stem depth) :
    (trie.locate id depth).1.Belongs capacity id (trie.locate id depth).2 := by
  induction trie generalizing stem depth with
  | leaf bucket => exact placed.transfer agree.symm
  | branch zero one zeroHolds oneHolds =>
    obtain ⟨inside, low, high⟩ := placed
    have further := Id.agreeTo_prolong_iff id clear inside
    cases bit : id.bit depth with
    | false =>
      rw [locate, bit, if_neg Bool.false_ne_true]
      exact zeroHolds low (clear.prolong inside false) ((further false).mpr ⟨agree, bit⟩)
    | true =>
      rw [locate, bit, if_pos rfl]
      exact oneHolds high (clear.prolong inside true) ((further true).mpr ⟨agree, bit⟩)

/-- A leaf lies at least as deep as the trie hangs. -/
theorem le_locate (trie : Trie α) (id : Id) (depth : Nat) : depth ≤ (trie.locate id depth).2 := by
  induction trie generalizing depth with
  | leaf bucket => exact Nat.le_refl depth
  | branch zero one zeroHolds oneHolds =>
    rw [locate]
    split
    · exact Nat.le_of_succ_le (oneHolds (depth + 1))
    · exact Nat.le_of_succ_le (zeroHolds (depth + 1))

/-- The walk of an identifier in a placed trie asks for bits inside the word only. -/
theorem Placed.walk_eq (placed : trie.Placed capacity stem depth) (id : Id) :
    trie.walk id depth = .ok (trie.locate id depth) := by
  induction trie generalizing stem depth with
  | leaf bucket => rfl
  | branch zero one zeroHolds oneHolds =>
    obtain ⟨inside, low, high⟩ := placed
    have answer : id.bitAt depth = .ok (id.bit depth) := by rw [Id.bitAt, if_pos inside]
    simp only [walk, answer, bind, Except.bind, locate]
    split
    · exact oneHolds high
    · exact zeroHolds low

/-- A contact that agrees with an identifier as far as the walk goes is at its end. -/
theorem Placed.mem_locate (placed : trie.Placed capacity stem depth) (clear : stem.ClearFrom depth)
    {id : Id} {c : Contact α} (member : c ∈ trie.entries)
    (agree : c.id.AgreeTo id (trie.locate id depth).2) :
    c ∈ (trie.locate id depth).1.entries := by
  induction trie generalizing stem depth with
  | leaf bucket => exact member
  | branch zero one zeroHolds oneHolds =>
    obtain ⟨clearBit, setBit⟩ := placed.bit_eq clear
    obtain ⟨inside, low, high⟩ := placed
    have deeper (side : Trie α) : depth < (side.locate id (depth + 1)).2 :=
      side.le_locate id (depth + 1)
    cases bit : id.bit depth with
    | false =>
      rw [locate, bit, if_neg Bool.false_ne_true] at agree ⊢
      have same := agree depth (deeper zero)
      rcases List.mem_append.mp member with left | right
      · exact zeroHolds low (clear.prolong inside false) left agree
      · rw [setBit c right, bit] at same
        exact Bool.noConfusion same
    | true =>
      rw [locate, bit, if_pos rfl] at agree ⊢
      have same := agree depth (deeper one)
      rcases List.mem_append.mp member with left | right
      · rw [clearBit c left, bit] at same
        exact Bool.noConfusion same
      · exact oneHolds high (clear.prolong inside true) right agree

/-! ## Grafting -/

/-- Grafting a trie that is placed wherever the identifier arrives keeps a trie placed. -/
theorem Placed.graft (placed : trie.Placed capacity stem depth) (clear : stem.ClearFrom depth)
    {id : Id} (agree : id.AgreeTo stem depth) {replacement : Trie α}
    (fits : ∀ place : Id, place.ClearFrom (trie.locate id depth).2 →
      id.AgreeTo place (trie.locate id depth).2 →
        replacement.Placed capacity place (trie.locate id depth).2) :
    (trie.graft id depth replacement).Placed capacity stem depth := by
  induction trie generalizing stem depth with
  | leaf bucket => exact fits stem clear agree
  | branch zero one zeroHolds oneHolds =>
    obtain ⟨inside, low, high⟩ := placed
    have further := Id.agreeTo_prolong_iff id clear inside
    cases bit : id.bit depth with
    | false =>
      rw [locate, bit, if_neg Bool.false_ne_true] at fits
      rw [Trie.graft, bit, if_neg Bool.false_ne_true]
      exact ⟨inside, zeroHolds low (clear.prolong inside false)
        ((further false).mpr ⟨agree, bit⟩) fits, high⟩
    | true =>
      rw [locate, bit, if_pos rfl] at fits
      rw [Trie.graft, bit, if_pos rfl]
      exact ⟨inside, low, oneHolds high (clear.prolong inside true)
        ((further true).mpr ⟨agree, bit⟩) fits⟩

/-- Grafting exchanges the contacts of one leaf; all others stay. -/
theorem exists_others (trie : Trie α) (id : Id) (depth : Nat) :
    ∃ others, trie.entries.Perm ((trie.locate id depth).1.entries ++ others) ∧
      ∀ replacement, (trie.graft id depth replacement).entries.Perm
        (replacement.entries ++ others) := by
  induction trie generalizing depth with
  | leaf bucket => exact ⟨[], by simp [entries, locate], fun replacement => by simp [Trie.graft]⟩
  | branch zero one zeroHolds oneHolds =>
    cases bit : id.bit depth with
    | false =>
      obtain ⟨others, before, after⟩ := zeroHolds (depth + 1)
      refine ⟨others ++ one.entries, ?_, fun replacement => ?_⟩
      · rw [locate, bit, if_neg Bool.false_ne_true, ← List.append_assoc]
        exact before.append_right one.entries
      · rw [Trie.graft, bit, if_neg Bool.false_ne_true, ← List.append_assoc]
        exact (after replacement).append_right one.entries
    | true =>
      obtain ⟨others, before, after⟩ := oneHolds (depth + 1)
      -- The lower side moves behind the leaf.
      have swap (front : List (Contact α)) :
          (zero.entries ++ (front ++ others)).Perm (front ++ (zero.entries ++ others)) := by
        rw [← List.append_assoc, ← List.append_assoc]
        exact List.perm_append_comm.append_right others
      refine ⟨zero.entries ++ others, ?_, fun replacement => ?_⟩
      · rw [locate, bit, if_pos rfl]
        exact (before.append_left zero.entries).trans (swap _)
      · rw [Trie.graft, bit, if_pos rfl]
        exact ((after replacement).append_left zero.entries).trans (swap _)

/-! ## Regions -/

/-- The regions of a branch are those of its sides, each below the stem with one bit more. -/
theorem regions_branch (zero one : Trie α) (stem : Id) (depth : Nat) :
    (branch zero one).regions stem depth =
      zero.regions (stem.prolong depth false) (depth + 1) ++
        one.regions (stem.prolong depth true) (depth + 1) := rfl

/-- The contacts of the regions are those of the trie. -/
theorem regions_entries (trie : Trie α) (stem : Id) (depth : Nat) :
    (trie.regions stem depth).flatMap (·.bucket.entries) = trie.entries := by
  induction trie generalizing stem depth with
  | leaf bucket => simp [regions, entries]
  | branch zero one zeroHolds oneHolds =>
    rw [regions, List.flatMap_append, zeroHolds, oneHolds, entries]

/-- Every region of a placed trie has its place below the stem, and its bucket belongs there. -/
theorem Placed.region_belongs (placed : trie.Placed capacity stem depth)
    (clear : stem.ClearFrom depth) : ∀ r ∈ trie.regions stem depth,
      r.stem.AgreeTo stem depth ∧ depth ≤ r.depth ∧ r.bucket.Belongs capacity r.stem r.depth := by
  induction trie generalizing stem depth with
  | leaf bucket =>
    intro r member
    obtain rfl := List.mem_singleton.mp member
    exact ⟨Id.AgreeTo.refl stem depth, Nat.le_refl depth, placed⟩
  | branch zero one zeroHolds oneHolds =>
    obtain ⟨inside, low, high⟩ := placed
    intro r member
    rcases List.mem_append.mp member with left | right
    · obtain ⟨agree, deep, belongs⟩ := zeroHolds low (clear.prolong inside false) r left
      exact ⟨agree.mono (Nat.le_succ depth), Nat.le_of_succ_le deep, belongs⟩
    · obtain ⟨agree, deep, belongs⟩ := oneHolds high (clear.prolong inside true) r right
      have upper := (Id.agreeTo_prolong_iff r.stem clear inside true).mp agree
      exact ⟨upper.1, Nat.le_of_succ_le deep, belongs⟩

/-- An identifier without the stem lies in none of the regions below it. -/
theorem Placed.filter_regions_foreign (placed : trie.Placed capacity stem depth)
    (clear : stem.ClearFrom depth) {id : Id} (foreign : ¬ id.AgreeTo stem depth) :
    (trie.regions stem depth).filter (fun r => id.hasStem r.stem r.depth) = [] := by
  rw [List.filter_eq_nil_iff]
  intro r member covered
  obtain ⟨agree, deep, belongs⟩ := placed.region_belongs clear r member
  have holds := (Id.hasStem_iff id r.stem r.depth belongs.inside).mp covered
  exact foreign ((holds.mono deep).trans agree)

/-- An identifier with the stem lies in exactly one region below it, the one of the leaf at
which it arrives. -/
theorem Placed.filter_regions (placed : trie.Placed capacity stem depth)
    (clear : stem.ClearFrom depth) {id : Id} (agree : id.AgreeTo stem depth) :
    ∃ place, (trie.regions stem depth).filter (fun r => id.hasStem r.stem r.depth) =
      [⟨place, (trie.locate id depth).2, (trie.locate id depth).1⟩] := by
  induction trie generalizing stem depth with
  | leaf bucket =>
    refine ⟨stem, ?_⟩
    have covered := (Id.hasStem_iff id stem depth placed.inside).mpr agree
    simp [regions, locate, covered]
  | branch zero one zeroHolds oneHolds =>
    obtain ⟨inside, low, high⟩ := placed
    have further := Id.agreeTo_prolong_iff id clear inside
    rw [regions_branch, List.filter_append]
    cases bit : id.bit depth with
    | false =>
      obtain ⟨place, found⟩ := zeroHolds low (clear.prolong inside false)
        ((further false).mpr ⟨agree, bit⟩)
      have foreign : ¬ id.AgreeTo (stem.prolong depth true) (depth + 1) := fun other => by
        simp [((further true).mp other).2] at bit
      refine ⟨place, ?_⟩
      rw [high.filter_regions_foreign (clear.prolong inside true) foreign, List.append_nil, found,
        locate, bit, if_neg Bool.false_ne_true]
    | true =>
      obtain ⟨place, found⟩ := oneHolds high (clear.prolong inside true)
        ((further true).mpr ⟨agree, bit⟩)
      have foreign : ¬ id.AgreeTo (stem.prolong depth false) (depth + 1) := fun other => by
        simp [((further false).mp other).2] at bit
      refine ⟨place, ?_⟩
      rw [low.filter_regions_foreign (clear.prolong inside false) foreign, List.nil_append, found,
        locate, bit, if_pos rfl]

/-! ## Paths -/

/-- The places of the regions of a placed trie are different. -/
theorem Placed.regions_distinct (placed : trie.Placed capacity stem depth)
    (clear : stem.ClearFrom depth) :
    ((trie.regions stem depth).map fun r => (r.stem, r.depth)).Nodup := by
  induction trie generalizing stem depth with
  | leaf bucket => exact List.nodup_singleton _
  | branch zero one zeroHolds oneHolds =>
    obtain ⟨inside, low, high⟩ := placed
    have lower := low.region_belongs (clear.prolong inside false)
    have upper := high.region_belongs (clear.prolong inside true)
    rw [regions_branch, List.map_append, List.nodup_append]
    refine ⟨zeroHolds low (clear.prolong inside false),
      oneHolds high (clear.prolong inside true), ?_⟩
    intro a first b second same
    obtain ⟨r, left, rfl⟩ := List.mem_map.mp first
    obtain ⟨q, right, rfl⟩ := List.mem_map.mp second
    have clearBit := ((Id.agreeTo_prolong_iff r.stem clear inside false).mp (lower r left).1).2
    have setBit := ((Id.agreeTo_prolong_iff q.stem clear inside true).mp (upper q right).1).2
    rw [(Prod.mk.inj same).1, setBit] at clearBit
    exact Bool.noConfusion clearBit

/-- The regions are the leaves at the ends of the paths through the trie. -/
theorem mem_regions_iff (trie : Trie α) (stem : Id) (depth : Nat) (r : Region α) :
    r ∈ trie.regions stem depth ↔
      ∃ path, trie.at? path = some r.bucket ∧ r.depth = depth + path.length ∧
        r.stem = stem.follow depth path := by
  induction trie generalizing stem depth with
  | leaf bucket =>
    rw [regions, List.mem_singleton]
    constructor
    · rintro rfl
      exact ⟨[], rfl, rfl, rfl⟩
    · rintro ⟨path, found, deep, place⟩
      cases path with
      | nil =>
        obtain rfl := Option.some.inj found
        obtain ⟨place', depth', bucket'⟩ := r
        simp only [Id.follow, List.length_nil, Nat.add_zero] at place deep
        rw [place, deep]
      | cons value path => simp [at?] at found
  | branch zero one zeroHolds oneHolds =>
    rw [regions_branch, List.mem_append, zeroHolds, oneHolds]
    have length (value : Bool) (path : List Bool) :
        depth + (value :: path).length = depth + 1 + path.length := by
      rw [List.length_cons]
      omega
    constructor
    · rintro (⟨path, found, deep, place⟩ | ⟨path, found, deep, place⟩)
      · exact ⟨false :: path, by simpa [at?] using found, by rw [length, deep], place⟩
      · exact ⟨true :: path, by simpa [at?] using found, by rw [length, deep], place⟩
    · rintro ⟨path, found, deep, place⟩
      cases path with
      | nil => simp [at?] at found
      | cons value path =>
        rw [length] at deep
        cases value with
        | false => exact .inl ⟨path, by simpa [at?] using found, deep, place⟩
        | true => exact .inr ⟨path, by simpa [at?] using found, deep, place⟩

/-- A leaf is at the end of a path exactly when it is the region at the place of the path. -/
theorem Placed.at?_eq_some_iff (placed : trie.Placed capacity stem depth)
    (clear : stem.ClearFrom depth) (path : List Bool) (bucket : Bucket α) :
    trie.at? path = some bucket ↔
      ⟨stem.follow depth path, depth + path.length, bucket⟩ ∈ trie.regions stem depth := by
  constructor
  · intro found
    exact (mem_regions_iff trie stem depth _).mpr ⟨path, found, rfl, rfl⟩
  · intro member
    have inside := (placed.region_belongs clear _ member).2.2.inside
    obtain ⟨other, found, deep, place⟩ := (mem_regions_iff trie stem depth _).mp member
    have same : path = other :=
      clear.follow_injective path other (by simpa using deep) place inside
    rw [same, found]

end Trie

end Overlay
