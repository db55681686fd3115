import Overlay.Proofs.Spine

/-!
# What an offer comes to

A contact that is stored already is refreshed. Any other one is taken, unless its leaf is full and
closed: off the path of the home, at the last depth, or with all its contacts on one side of the
next bit. An offer that is turned down leaves the table as it is. A full leaf that is not closed is
divided; either side then has room, since neither is empty, so the contact that brought the
division about is always stored.
-/
namespace Overlay

namespace Trie

variable {α : Type} {capacity depth : Nat} {stem : Id} {trie : Trie α}

/-- The walk of an identifier goes on in what has been grafted at its end. -/
theorem locate_graft (trie replacement : Trie α) (id : Id) (depth : Nat) :
    (trie.graft id depth replacement).locate id depth =
      replacement.locate id (trie.locate id depth).2 := by
  induction trie generalizing depth with
  | leaf bucket => rfl
  | branch zero one zeroHolds oneHolds =>
    cases bit : id.bit depth with
    | false => simpa [graft, locate, bit] using zeroHolds (depth + 1)
    | true => simpa [graft, locate, bit] using oneHolds (depth + 1)

/-- Of two grafts for one identifier the second one is made in the first. -/
theorem graft_graft (trie first second : Trie α) (id : Id) (depth : Nat) :
    (trie.graft id depth first).graft id depth second =
      trie.graft id depth (first.graft id (trie.locate id depth).2 second) := by
  induction trie generalizing depth with
  | leaf bucket => rfl
  | branch zero one zeroHolds oneHolds =>
    cases bit : id.bit depth with
    | false => simpa [graft, locate, bit] using zeroHolds (depth + 1)
    | true => simpa [graft, locate, bit] using oneHolds (depth + 1)

/-- The region of an identifier stands at a place in the list of regions, and the regions of a
graft for this identifier come to stand in its place. -/
theorem Placed.exists_around (placed : trie.Placed capacity stem depth)
    (clear : stem.ClearFrom depth) {id : Id} (agree : id.AgreeTo stem depth) :
    ∃ before place after, id.AgreeTo place (trie.locate id depth).2 ∧
      trie.regions stem depth =
        before ++ ⟨place, (trie.locate id depth).2, (trie.locate id depth).1⟩ :: after ∧
      ∀ replacement, (trie.graft id depth replacement).regions stem depth =
        before ++ replacement.regions place (trie.locate id depth).2 ++ after := by
  induction trie generalizing stem depth with
  | leaf bucket =>
    exact ⟨[], stem, [], agree, rfl, fun replacement => (List.append_nil _).symm⟩
  | branch zero one zeroHolds oneHolds =>
    obtain ⟨inside, low, high⟩ := placed
    have further := Id.agreeTo_prolong_iff id clear inside
    cases bit : id.bit depth with
    | false =>
      obtain ⟨before, place, after, same, listed, grafted⟩ := zeroHolds low
        (clear.prolong inside false) ((further false).mpr ⟨agree, bit⟩)
      have arrives : (branch zero one).locate id depth = zero.locate id (depth + 1) := by
        rw [locate, bit, if_neg Bool.false_ne_true]
      rw [arrives]
      refine ⟨before, place, after ++ one.regions (stem.prolong depth true) (depth + 1), same, ?_,
        fun replacement => ?_⟩
      · rw [regions_branch, listed, List.append_assoc, List.cons_append]
      · rw [Trie.graft, bit, if_neg Bool.false_ne_true, regions_branch, grafted, List.append_assoc]
    | true =>
      obtain ⟨before, place, after, same, listed, grafted⟩ := oneHolds high
        (clear.prolong inside true) ((further true).mpr ⟨agree, bit⟩)
      have arrives : (branch zero one).locate id depth = one.locate id (depth + 1) := by
        rw [locate, bit, if_pos rfl]
      rw [arrives]
      refine ⟨zero.regions (stem.prolong depth false) (depth + 1) ++ before, place, after, same, ?_,
        fun replacement => ?_⟩
      · rw [regions_branch, listed, List.append_assoc]
      · rw [Trie.graft, bit, if_pos rfl, regions_branch, grafted]
        simp only [List.append_assoc]

end Trie

/-- A leaf that stays whole when it is full: it is off the path of the home, at the last depth, or
has all its contacts on one side of the next bit. -/
def Region.Closed {α : Type} (r : Region α) (home : Id) (limit : Nat) : Prop :=
  home.hasStem r.stem r.depth = false ∨ r.depth = limit ∨
    ∃ value, ∀ c ∈ r.bucket.entries, c.id.bit r.depth = value

/-- One side of a leaf that has been divided for a contact: the contacts with the bit of this side
as they stood, and in front of them the new one if that is its side. -/
def Region.side {α : Type} (r : Region α) (c : Contact α) (value : Bool) : Region α where
  stem := r.stem.prolong r.depth value
  depth := r.depth + 1
  bucket := { r.bucket with
    entries := (if c.id.bit r.depth = value then [c] else []) ++
      r.bucket.entries.filter fun d => d.id.bit r.depth = value }

namespace Table

variable {α : Type} {t : Table α}

/-! ## Leaves -/

/-- The leaf of an identifier, and the regions before and after it. -/
structure Around (t : Table α) (id : Id) (before : List (Region α)) (leaf : Region α)
    (after : List (Region α)) : Prop where
  /-- These are the regions of the table. -/
  listed : t.regions = before ++ leaf :: after
  /-- The leaf is as deep as the walk of the identifier is long. -/
  depth : leaf.depth = t.depthOf id
  /-- Its bucket is the one at the end of this walk. -/
  bucket : leaf.bucket = t.bucketOf id
  /-- The identifier has its stem. -/
  agree : id.AgreeTo leaf.stem leaf.depth
  /-- What is grafted for the identifier comes to stand in its place. -/
  graft : ∀ replacement : Trie α, (t.trie.graft id 0 replacement).regions .zero 0 =
    before ++ replacement.regions leaf.stem leaf.depth ++ after

/-- Every identifier has a leaf. -/
theorem Sound.exists_around (sound : t.Sound) (id : Id) :
    ∃ before leaf after, t.Around id before leaf after := by
  obtain ⟨before, place, after, agree, listed, graft⟩ :=
    sound.placed.exists_around clearFrom_zero (Id.AgreeTo.zero id .zero)
  exact ⟨before, ⟨place, t.depthOf id, t.bucketOf id⟩, after, listed, rfl, rfl, agree, graft⟩

section Around

variable {id : Id} {before after : List (Region α)} {leaf : Region α}

/-- The leaf of an identifier is the only region whose stem it has. -/
theorem Sound.filter_around (sound : t.Sound) (around : t.Around id before leaf after) :
    t.regions.filter (fun r => id.hasStem r.stem r.depth) = [leaf] := by
  have inside := (sound.bucketOf_belongs id).inside
  rw [← around.depth] at inside
  obtain ⟨stem, only⟩ := sound.wellFormed.covered id
  have covered : leaf ∈ t.regions.filter fun r => id.hasStem r.stem r.depth := by
    refine List.mem_filter.mpr ⟨?_, (Id.hasStem_iff _ _ _ inside).mpr around.agree⟩
    rw [around.listed]
    exact List.mem_append_right _ List.mem_cons_self
  rw [only] at covered ⊢
  rw [List.mem_singleton.mp covered]

/-- No leaf is below the last depth. -/
theorem Lopsided.leaf_depth_le (lopsided : t.Lopsided) (around : t.Around id before leaf after) :
    leaf.depth ≤ t.maxDepth := by
  have member : leaf ∈ t.regions := by
    rw [around.listed]
    exact List.mem_append_right _ List.mem_cons_self
  simpa using lopsided.region_depth_le leaf member

/-- A leaf may be divided unless it is closed. -/
theorem Sound.divisible_iff (sound : t.Sound) (lopsided : t.Lopsided)
    (around : t.Around id before leaf after) :
    t.divisible id = true ↔ ¬leaf.Closed t.home t.maxDepth := by
  have bound := lopsided.leaf_depth_le around
  have inside := Nat.le_trans bound sound.shallow
  -- The identifier is on the path of the home as far as its leaf is.
  have path : id.hasStem t.home leaf.depth = t.home.hasStem leaf.stem leaf.depth := by
    rw [Bool.eq_iff_iff, Id.hasStem_iff _ _ _ inside, Id.hasStem_iff _ _ _ inside]
    exact ⟨fun same => same.symm.trans around.agree, fun same => around.agree.trans same.symm⟩
  have occupied (value : Bool) : (!(leaf.bucket.half leaf.depth value).isEmpty) = true ↔
      ∃ c ∈ leaf.bucket.entries, c.id.bit leaf.depth = value := by
    simp [Bucket.isEmpty, Bucket.half]
  have sides : ((∃ c ∈ leaf.bucket.entries, c.id.bit leaf.depth = true) ∧
      ∃ c ∈ leaf.bucket.entries, c.id.bit leaf.depth = false) ↔
        ¬∃ value, ∀ c ∈ leaf.bucket.entries, c.id.bit leaf.depth = value := by
    simp only [Bool.exists_bool, not_or, not_forall, Bool.not_eq_false, Bool.not_eq_true]
    simp only [exists_prop]
  have deep : leaf.depth < t.maxDepth ↔ leaf.depth ≠ t.maxDepth := by omega
  simp only [divisible, ← around.depth, ← around.bucket, Bool.and_eq_true, occupied,
    decide_eq_true_eq, Region.Closed, not_or, ← sides, deep, path, Bool.not_eq_false]
  tauto

end Around

/-! ## Offers -/

/-- The bucket of an identifier in the table that has been divided for it is its half. -/
theorem bucketOf_divide (t : Table α) (id : Id) :
    (t.divide id).bucketOf id = (t.bucketOf id).half (t.depthOf id) (id.bit (t.depthOf id)) := by
  have arrives : (t.divide id).bucketOf id = ((Trie.branch
      (.leaf ((t.bucketOf id).half (t.depthOf id) false))
      (.leaf ((t.bucketOf id).half (t.depthOf id) true))).locate id (t.depthOf id)).1 := by
    rw [bucketOf, divide, Trie.locate_graft, depthOf]
  rw [arrives, Trie.locate]
  cases id.bit (t.depthOf id) <;> rfl

/-- Neither half of a bucket that may be divided is as large as the bucket. -/
theorem half_lt_of_divisible {id : Id} (divisible : t.divisible id = true) (value : Bool) :
    ((t.bucketOf id).half (t.depthOf id) value).entries.length <
      (t.bucketOf id).entries.length := by
  have parts := ((t.bucketOf id).half_perm (t.depthOf id)).length_eq
  rw [List.length_append] at parts
  simp only [Table.divisible, Bool.and_eq_true, Bool.not_eq_true', Bucket.isEmpty,
    List.isEmpty_eq_false_iff, ← List.length_pos_iff] at divisible
  obtain ⟨⟨-, one⟩, zero⟩ := divisible
  cases value <;> omega

/-- A contact that brings a division about is stored in its half. -/
theorem Sound.place_divide (sound : t.Sound) (c : Contact α)
    (absent : (t.bucketOf c.id).contains c.id = false) (divisible : t.divisible c.id = true) :
    (t.divide c.id).place c = (⟨.added, none⟩,
      { (t.divide c.id).setBucket c.id ((t.bucketOf c.id |>.half (t.depthOf c.id)
          (c.id.bit (t.depthOf c.id))).push c) with
        size := t.size + 1, feed := t.feed.push c }) := by
  have half := t.bucketOf_divide c.id
  have proper := (sound.bucketOf_belongs c.id).proper
  have smaller := half_lt_of_divisible divisible (c.id.bit (t.depthOf c.id))
  rcases (t.divide c.id).place_cases c with ⟨stored, -⟩ | ⟨-, full, -⟩ | ⟨-, -, placed⟩
  · rw [half, Bucket.contains_iff] at stored
    rw [Bucket.contains_eq_false_iff] at absent
    exact absurd ((List.filter_sublist.map _).subset stored) absent
  · rw [half, Bucket.isFull, decide_eq_true_eq] at full
    have bounded := proper.bounded
    change (t.bucketOf c.id).capacity ≤ _ at full
    omega
  · rw [placed, half]
    rfl

/-- What an offer comes to: a stored contact is refreshed and a new one taken while there is room;
a full bucket that may be divided is divided and then has room, and any other full bucket leaves
the table as it is. -/
theorem Sound.offer_cases (sound : t.Sound) (c : Contact α) :
    ((t.bucketOf c.id).contains c.id = true ∧ t.add c =
        (⟨.refreshed, none⟩, t.setBucket c.id ((t.bucketOf c.id).renew c))) ∨
      ((t.bucketOf c.id).contains c.id = false ∧ (t.bucketOf c.id).isFull = false ∧ t.add c =
        (⟨.added, none⟩, { t.setBucket c.id ((t.bucketOf c.id).push c) with
          size := t.size + 1, feed := t.feed.push c })) ∨
      ((t.bucketOf c.id).contains c.id = false ∧ (t.bucketOf c.id).isFull = true ∧
        t.divisible c.id = false ∧ t.add c = (⟨.full, (t.bucketOf c.id).stalest?⟩, t)) ∨
      ((t.bucketOf c.id).contains c.id = false ∧ (t.bucketOf c.id).isFull = true ∧
        t.divisible c.id = true ∧ t.add c = (⟨.added, none⟩,
          { (t.divide c.id).setBucket c.id ((t.bucketOf c.id |>.half (t.depthOf c.id)
              (c.id.bit (t.depthOf c.id))).push c) with
            size := t.size + 1, feed := t.feed.push c })) := by
  rcases t.place_cases c with ⟨stored, -⟩ | ⟨absent, full, placed⟩ | ⟨absent, room, placed⟩
  · exact .inl ⟨stored, t.add_stored stored⟩
  · cases divisible : t.divisible c.id with
    | false => exact .inr (.inr (.inl ⟨absent, full, rfl, by simp [Table.add, placed, divisible]⟩))
    | true =>
      refine .inr (.inr (.inr ⟨absent, full, rfl, ?_⟩))
      rw [← sound.place_divide c absent divisible]
      simp [Table.add, placed, divisible]
  · exact .inr (.inl ⟨absent, room, by simp only [Table.add, placed]⟩)

/-- What becomes of a contact that is offered to a table, and of the table. -/
structure Resolves (t : Table α) (c : Contact α) (before : List (Region α)) (leaf : Region α)
    (after : List (Region α)) : Prop where
  /-- The leaf stands among the regions of the table. -/
  listed : t.regions = before ++ leaf :: after
  /-- It is the only one whose stem the contact has. -/
  own : t.regions.filter (fun r => c.id.hasStem r.stem r.depth) = [leaf]
  /-- A contact is refreshed exactly when it is stored. -/
  refreshed : (t.add c).1.outcome = .refreshed ↔ t.contains c.id = true
  /-- It is turned down exactly when it is not stored and its leaf is full and closed. -/
  full : (t.add c).1.outcome = .full ↔ t.contains c.id = false ∧
    leaf.bucket.size = t.capacity ∧ leaf.Closed t.home t.maxDepth
  /-- Otherwise it is taken. -/
  added : (t.add c).1.outcome = .added ↔ t.contains c.id = false ∧
    ¬(leaf.bucket.size = t.capacity ∧ leaf.Closed t.home t.maxDepth)
  /-- Turning it down changes nothing and names the last contact of the leaf. -/
  kept : (t.add c).1.outcome = .full →
    t.add c = (⟨.full, leaf.bucket.entries.getLast?⟩, t)
  /-- There is no such contact only if no bucket can hold any. -/
  named : (t.add c).1.outcome = .full → ((t.add c).1.stalest = none ↔ t.capacity = 0)
  /-- The leaf is divided exactly when it is full, not closed, and needed for a new contact. -/
  divides : (t.add c).2.bucketCount ≠ t.bucketCount ↔ t.contains c.id = false ∧
    leaf.bucket.size = t.capacity ∧ ¬leaf.Closed t.home t.maxDepth
  /-- An offer without a division leaves all regions in their places. -/
  whole : (t.add c).2.bucketCount = t.bucketCount →
    (t.add c).2.regions = before ++ { leaf with bucket := (t.add c).2.bucketOf c.id } :: after
  /-- One with a division stores the contact, puts the two sides of the leaf in its place, and
  makes one bucket more. -/
  divided : (t.add c).2.bucketCount ≠ t.bucketCount → (t.add c).1 = ⟨.added, none⟩ ∧
    (t.add c).2.regions = before ++ leaf.side c false :: leaf.side c true :: after ∧
    (t.add c).2.bucketCount = t.bucketCount + 1

section Resolves

variable {c : Contact α} {before after : List (Region α)} {leaf : Region α}

/-- A bucket that takes the place of the one of an identifier is the bucket of its leaf. -/
theorem Around.setBucket_regions (around : t.Around c.id before leaf after) (bucket : Bucket α) :
    (t.setBucket c.id bucket).regions = before ++ { leaf with bucket := bucket } :: after ∧
      (t.setBucket c.id bucket).bucketOf c.id = bucket := by
  constructor
  · rw [regions, setBucket, around.graft, Trie.regions, List.append_assoc, List.singleton_append]
  · rw [bucketOf, setBucket, Trie.locate_graft, Trie.locate]

/-- The sides of a divided leaf stand in its place. -/
theorem Around.divide_regions (around : t.Around c.id before leaf after) :
    ((t.divide c.id).setBucket c.id ((t.bucketOf c.id |>.half (t.depthOf c.id)
        (c.id.bit (t.depthOf c.id))).push c)).regions =
      before ++ leaf.side c false :: leaf.side c true :: after := by
  rw [regions, setBucket, divide, Trie.graft_graft, around.graft, ← depthOf]
  simp only [Trie.graft, Region.side, around.depth, around.bucket, Bucket.half, Bucket.push]
  cases c.id.bit (t.depthOf c.id) with
  | false => simp [Trie.regions, Id.prolong]
  | true => simp [Trie.regions, Id.prolong]

/-- An offer to a sound table that is divided along the path of its home is resolved at the leaf of
the contact. -/
theorem Sound.resolves (sound : t.Sound) (lopsided : t.Lopsided)
    (around : t.Around c.id before leaf after) : t.Resolves c before leaf after := by
  have belongs := sound.bucketOf_belongs c.id
  have own := sound.filter_around around
  have stalest : leaf.bucket.entries.getLast? = (t.bucketOf c.id).stalest? := by
    rw [around.bucket, Bucket.stalest?]
  have full : leaf.bucket.size = t.capacity ↔ (t.bucketOf c.id).isFull = true := by
    have bounded := belongs.proper.bounded
    rw [Bucket.isFull, decide_eq_true_eq, Bucket.size, around.bucket, ← belongs.sized]
    omega
  have closed : leaf.Closed t.home t.maxDepth ↔ t.divisible c.id = false := by
    rw [← Bool.not_eq_true, sound.divisible_iff lopsided around, not_not]
  have nothing : (t.bucketOf c.id).isFull = true →
      ((t.bucketOf c.id).stalest? = none ↔ t.capacity = 0) := by
    rw [← full, Bucket.size, around.bucket, Bucket.stalest?, List.getLast?_eq_none_iff]
    intro size
    rw [← size, List.length_eq_zero_iff]
  -- An offer without a division exchanges the bucket of the leaf, if anything.
  have undivided (t' : Table α) (bucket : Bucket α)
      (same : t'.trie = (t.setBucket c.id bucket).trie) :
      t'.bucketCount = t.bucketCount ∧
        t'.regions = before ++ { leaf with bucket := t'.bucketOf c.id } :: after := by
    obtain ⟨regions, found⟩ := around.setBucket_regions bucket
    have listed : t'.regions = before ++ { leaf with bucket := bucket } :: after := by
      rw [← regions, Table.regions, same, Table.regions]
    rw [bucketCount, bucketCount, listed, around.listed, bucketOf, same, ← bucketOf, found]
    simp
  rcases sound.offer_cases c with ⟨stored, offered⟩ | ⟨absent, room, offered⟩ |
    ⟨absent, crowded, whole, offered⟩ | ⟨absent, crowded, divisible, offered⟩
  · obtain ⟨count, regions⟩ := undivided (t.add c).2 _ (by rw [offered])
    refine ⟨around.listed, own, ?_, ?_, ?_, ?_, ?_, ⟨fun differs => absurd count differs, ?_⟩,
      fun _ => regions, fun differs => absurd count differs⟩
    all_goals simp [offered, contains, stored]
  · obtain ⟨count, regions⟩ := undivided (t.add c).2 _ (by rw [offered])
    refine ⟨around.listed, own, ?_, ?_, ?_, ?_, ?_, ⟨fun differs => absurd count differs, ?_⟩,
      fun _ => regions, fun differs => absurd count differs⟩
    all_goals simp [offered, contains, absent, full, room]
  · have count : (t.add c).2.bucketCount = t.bucketCount := by rw [offered]
    have regions : (t.add c).2.regions =
        before ++ { leaf with bucket := (t.add c).2.bucketOf c.id } :: after := by
      rw [offered, ← around.bucket]
      exact around.listed
    refine ⟨around.listed, own, ?_, ?_, ?_, ?_, ?_, ⟨fun differs => absurd count differs, ?_⟩,
      fun _ => regions, fun differs => absurd count differs⟩
    all_goals simp [offered, contains, absent, full, crowded, closed, whole, stalest, nothing]
  · have regions : (t.add c).2.regions =
        before ++ leaf.side c false :: leaf.side c true :: after := by
      rw [offered]
      exact around.divide_regions
    have count : (t.add c).2.bucketCount = t.bucketCount + 1 := by
      rw [bucketCount, bucketCount, regions, around.listed]
      simp only [List.length_append, List.length_cons]
      omega
    have differs : (t.add c).2.bucketCount ≠ t.bucketCount := by omega
    refine ⟨around.listed, own, ?_, ?_, ?_, ?_, ?_, ⟨fun _ => ?_, fun _ => differs⟩,
      fun same => absurd same differs, fun _ => ⟨by rw [offered], regions, count⟩⟩
    all_goals simp [offered, contains, absent, full, crowded, closed, divisible]

end Resolves

/-- Whatever has been offered to a new table and withdrawn from it, and whatever is offered next: it
is refreshed if it is stored, turned down if its leaf is full and closed, which changes nothing,
and taken otherwise; and if that divides the leaf, either side keeps its contacts in their order
with the new one in front of its own. -/
theorem resolves_after (home : Id) (capacity maxDepth : Nat) (changes : List (Change α))
    (c : Contact α) :
    let t := (withDepth home capacity maxDepth : Table α).after changes
    (∃ before leaf after, t.Resolves c before leaf after) ∧
      t.frame = (home, capacity, min maxDepth 256) := by
  intro t
  have new := withDepth_sound (α := α) home capacity maxDepth
  have sound : t.Sound := new.after changes
  obtain ⟨before, leaf, after, around⟩ := sound.exists_around c.id
  have resolves := sound.resolves (new.lopsided_after trivial changes) around
  exact ⟨⟨before, leaf, after, resolves⟩, frame_after _ changes⟩

end Table

end Overlay
