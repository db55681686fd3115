import Mathlib.Algebra.Order.BigOperators.Group.List
import Mathlib.Algebra.Order.Ring.Nat
import Overlay.Proofs.Latest

/-!
# The spine of a table

Only the bucket on the path of the home identifier is ever divided, so the trie is a spine: a
chain of branches along this path, with a leaf hanging off at every depth and one at the end. The
leaf that hangs off at depth `d` has left the path at bit `d - 1` and holds what shares exactly
`d - 1` bits with the home; the one at the end holds the rest. Buckets are therefore log-distances
as far as the spine reaches.
-/
namespace Overlay

/-- A test that one member of a list passes selects this member. -/
theorem filter_eq_singleton {β : Type} {items : List β} (distinct : items.Nodup) {x : β}
    (member : x ∈ items) {test : β → Bool} (only : ∀ y ∈ items, test y = true ↔ y = x) :
    items.filter test = [x] := by
  refine List.perm_singleton.mp ?_
  refine (List.perm_ext_iff_of_nodup (distinct.filter test) (List.nodup_singleton x)).mpr
    fun y => ?_
  rw [List.mem_filter, List.mem_singleton]
  constructor
  · rintro ⟨listed, passed⟩
    exact (only y listed).mp passed
  · rintro rfl
    exact ⟨member, (only y member).mpr rfl⟩

/-- The items that a test leaves out may be left out when they yield nothing. -/
theorem flatMap_filter_of_nil {β γ : Type} (f : β → List γ) (test : β → Bool) (items : List β)
    (nothing : ∀ x ∈ items, test x = false → f x = []) :
    (items.filter test).flatMap f = items.flatMap f := by
  induction items with
  | nil => rfl
  | cons x items further =>
    obtain ⟨here, there⟩ := List.forall_mem_cons.mp nothing
    cases passed : test x with
    | true =>
      rw [List.filter_cons_of_pos passed, List.flatMap_cons, List.flatMap_cons, further there]
    | false =>
      rw [List.filter_cons_of_neg (by simp [passed]), List.flatMap_cons, here passed,
        further there, List.nil_append]

namespace Trie

variable {α : Type}

/-- There is a branch at the end of a path. -/
def branchAt : Trie α → List Bool → Bool
  | leaf _, _ => false
  | branch _ _, [] => true
  | branch zero one, value :: path => if value then one.branchAt path else zero.branchAt path

/-- The trie hangs on the path of an identifier and is divided along this path only, at depths
below a limit. -/
def Lopsided (home : Id) (limit depth : Nat) : Trie α → Prop
  | leaf _ => True
  | branch zero one =>
    depth < limit ∧ (home.bit depth = true → ∃ bucket, zero = leaf bucket) ∧
      (home.bit depth = false → ∃ bucket, one = leaf bucket) ∧
      zero.Lopsided home limit (depth + 1) ∧ one.Lopsided home limit (depth + 1)

variable {home id stem : Id} {limit depth capacity : Nat} {trie : Trie α}

/-- A graft keeps a trie lopsided if it is a leaf, or lopsided and made on the path. -/
theorem Lopsided.graft (lopsided : trie.Lopsided home limit depth) {replacement : Trie α}
    (fits : (∃ bucket, replacement = leaf bucket) ∨
      id.AgreeTo home (trie.locate id depth).2 ∧
        replacement.Lopsided home limit (trie.locate id depth).2) :
    (trie.graft id depth replacement).Lopsided home limit depth := by
  induction trie generalizing depth with
  | leaf bucket =>
    rcases fits with ⟨bucket', rfl⟩ | ⟨-, below⟩
    · trivial
    · exact below
  | branch zero one zeroHolds oneHolds =>
    obtain ⟨inside, zeroLeaf, oneLeaf, low, high⟩ := lopsided
    -- Off the path there is a leaf, whose graft has to be a leaf again.
    have offPath (side : Trie α) (bit : id.bit depth ≠ home.bit depth)
        (same : (branch zero one).locate id depth = side.locate id (depth + 1)) :
        ∃ bucket, replacement = leaf bucket := by
      rcases fits with only | ⟨agree, -⟩
      · exact only
      · have deep := side.le_locate id (depth + 1)
        rw [same] at agree
        exact absurd (agree depth deep) bit
    cases bit : id.bit depth with
    | false =>
      have same : (branch zero one).locate id depth = zero.locate id (depth + 1) := by
        rw [locate, bit, if_neg Bool.false_ne_true]
      rw [same] at fits
      rw [Trie.graft, bit, if_neg Bool.false_ne_true]
      refine ⟨inside, fun away => ?_, oneLeaf, zeroHolds low fits, high⟩
      obtain ⟨bucket, rfl⟩ := zeroLeaf away
      exact offPath _ (by simp [bit, away]) same
    | true =>
      have same : (branch zero one).locate id depth = one.locate id (depth + 1) := by
        rw [locate, bit, if_pos rfl]
      rw [same] at fits
      rw [Trie.graft, bit, if_pos rfl]
      refine ⟨inside, zeroLeaf, fun away => ?_, low, oneHolds high fits⟩
      obtain ⟨bucket, rfl⟩ := oneLeaf away
      exact offPath _ (by simp [bit, away]) same

/-- The branches of a lopsided trie are on the path and above the limit. -/
theorem Lopsided.of_branchAt (lopsided : trie.Lopsided home limit depth)
    (clear : stem.ClearFrom depth) (shallow : limit ≤ 256) (agree : home.AgreeTo stem depth)
    {path : List Bool} (divided : trie.branchAt path = true) :
    depth + path.length < limit ∧
      home.AgreeTo (stem.follow depth path) (depth + path.length) := by
  induction path generalizing trie stem depth with
  | nil =>
    cases trie with
    | leaf bucket => simp [branchAt] at divided
    | branch zero one => exact ⟨lopsided.1, agree⟩
  | cons value path further =>
    cases trie with
    | leaf bucket => simp [branchAt] at divided
    | branch zero one =>
      obtain ⟨inside, zeroLeaf, oneLeaf, low, high⟩ := lopsided
      have within : depth < 256 := Nat.lt_of_lt_of_le inside shallow
      have next := Id.agreeTo_prolong_iff home clear within value
      have length : depth + (value :: path).length = depth + 1 + path.length := by
        rw [List.length_cons]
        omega
      rw [length, Id.follow]
      cases value with
      | false =>
        rw [branchAt, if_neg Bool.false_ne_true] at divided
        -- The side that the path takes is divided, so it is not the leaf off the path.
        have bit : home.bit depth = false := by
          by_contra set
          obtain ⟨bucket, rfl⟩ := zeroLeaf (by simpa using set)
          simp [branchAt] at divided
        exact further low (clear.prolong within false) (next.mpr ⟨agree, bit⟩) divided
      | true =>
        rw [branchAt, if_pos rfl] at divided
        have bit : home.bit depth = true := by
          by_contra unset
          obtain ⟨bucket, rfl⟩ := oneLeaf (by simpa using unset)
          simp [branchAt] at divided
        exact further high (clear.prolong within true) (next.mpr ⟨agree, bit⟩) divided

/-! ## The regions of a spine -/

/-- A region has left the path of an identifier at its last bit. -/
def LeavesPath (home : Id) (r : Region α) : Prop :=
  ∃ d, d < 256 ∧ r.depth = d + 1 ∧ r.stem.AgreeTo home d ∧ r.stem.bit d ≠ home.bit d

/-- Regions below a depth are one at the end of the path of an identifier and one off the path at
every depth down to there. -/
structure Spine (home : Id) (depth : Nat) (regions : List (Region α)) (own : Region α)
    (aside : List (Region α)) : Prop where
  /-- There are no other regions. -/
  perm : regions.Perm (own :: aside)
  /-- The one at the end is as deep as the path is long. -/
  last : own.depth = depth + aside.length
  /-- It is on the path. -/
  onPath : home.AgreeTo own.stem own.depth
  /-- Every depth occurs once among the others. -/
  depths : aside.map (·.depth) = List.range' (depth + 1) aside.length
  /-- They are off the path since their last bit. -/
  leave : ∀ r ∈ aside, LeavesPath home r

/-- No region of a lopsided trie is below the limit. -/
theorem Lopsided.region_depth_le (lopsided : trie.Lopsided home limit depth) :
    ∀ r ∈ trie.regions stem depth, r.depth ≤ max depth limit := by
  induction trie generalizing stem depth with
  | leaf bucket =>
    intro r member
    obtain rfl := List.mem_singleton.mp member
    exact Nat.le_max_left depth limit
  | branch zero one zeroHolds oneHolds =>
    obtain ⟨within, -, -, low, high⟩ := lopsided
    intro r member
    have bound : r.depth ≤ max (depth + 1) limit := by
      rcases List.mem_append.mp member with left | right
      · exact zeroHolds low r left
      · exact oneHolds high r right
    omega

/-- What is a region of a spine. -/
theorem Spine.mem_iff {regions aside : List (Region α)} {own r : Region α}
    (spine : Spine home depth regions own aside) : r ∈ regions ↔ r = own ∨ r ∈ aside :=
  spine.perm.mem_iff.trans List.mem_cons

/-- A leaf off the path and a spine one bit further down make a spine. -/
theorem Spine.cons {regions aside : List (Region α)} {own : Region α}
    (spine : Spine home (depth + 1) regions own aside) (clear : stem.ClearFrom depth)
    (inside : depth < 256) (agree : home.AgreeTo stem depth) (value : Bool)
    (off : value ≠ home.bit depth) (bucket : Bucket α) :
    Spine home depth (⟨stem.prolong depth value, depth + 1, bucket⟩ :: regions) own
      (⟨stem.prolong depth value, depth + 1, bucket⟩ :: aside) where
  perm := (spine.perm.cons _).trans (List.Perm.swap _ _ _)
  last := by
    have last := spine.last
    rw [List.length_cons]
    omega
  onPath := spine.onPath
  depths := by rw [List.map_cons, spine.depths, List.length_cons, List.range'_succ]
  leave := by
    have place := (Id.agreeTo_prolong_iff (stem.prolong depth value) clear inside value).mp
      (Id.AgreeTo.refl _ _)
    refine List.forall_mem_cons.mpr ⟨⟨depth, inside, rfl, place.1.trans agree.symm, ?_⟩,
      spine.leave⟩
    rw [place.2]
    exact off

/-- The regions of a lopsided trie are a spine. -/
theorem Lopsided.exists_spine (lopsided : trie.Lopsided home limit depth)
    (clear : stem.ClearFrom depth) (shallow : limit ≤ 256) (agree : home.AgreeTo stem depth) :
    ∃ own aside, Spine home depth (trie.regions stem depth) own aside := by
  induction trie generalizing stem depth with
  | leaf bucket => exact ⟨⟨stem, depth, bucket⟩, [], .refl _, rfl, agree, rfl, nofun⟩
  | branch zero one zeroHolds oneHolds =>
    obtain ⟨within, zeroLeaf, oneLeaf, low, high⟩ := lopsided
    have inside : depth < 256 := Nat.lt_of_lt_of_le within shallow
    have next := Id.agreeTo_prolong_iff home clear inside
    cases bit : home.bit depth with
    | false =>
      obtain ⟨bucket, rfl⟩ := oneLeaf bit
      obtain ⟨own, aside, spine⟩ :=
        zeroHolds low (clear.prolong inside false) ((next false).mpr ⟨agree, bit⟩)
      have whole := spine.cons clear inside agree true (by simp [bit]) bucket
      exact ⟨own, _, { whole with perm := List.perm_append_comm.trans whole.perm }⟩
    | true =>
      obtain ⟨bucket, rfl⟩ := zeroLeaf bit
      obtain ⟨own, aside, spine⟩ :=
        oneHolds high (clear.prolong inside true) ((next true).mpr ⟨agree, bit⟩)
      exact ⟨own, _, spine.cons clear inside agree false (by simp [bit]) bucket⟩

end Trie

namespace Table

variable {α : Type}

/-! ## Divisions happen on the path of the home -/

/-- The trie is divided along the path of the home only. -/
def Lopsided (t : Table α) : Prop := t.trie.Lopsided t.home t.maxDepth 0

/-- Only a bucket on the path of the home is divided, and only above the last depth. -/
theorem Sound.lopsided_divide {t : Table α} (sound : t.Sound) (lopsided : t.Lopsided) {id : Id}
    (divisible : t.divisible id = true) : (t.divide id).Lopsided := by
  obtain ⟨shallow, stem⟩ := divisible_place divisible
  have inside : t.depthOf id ≤ 256 := Nat.le_trans (Nat.le_of_lt shallow) sound.shallow
  have agree : id.AgreeTo t.home (t.depthOf id) := (Id.hasStem_iff _ _ _ inside).mp stem
  refine Trie.Lopsided.graft lopsided (.inr ⟨agree, shallow, ?_, ?_, trivial, trivial⟩)
  · exact fun _ => ⟨_, rfl⟩
  · exact fun _ => ⟨_, rfl⟩

/-- Exchanging a bucket divides nothing. -/
theorem Lopsided.setBucket {t : Table α} (lopsided : t.Lopsided) (id : Id) (bucket : Bucket α) :
    (t.setBucket id bucket).Lopsided :=
  Trie.Lopsided.graft lopsided (.inl ⟨bucket, rfl⟩)

/-- Placing a contact divides nothing. -/
theorem Lopsided.place {t : Table α} (lopsided : t.Lopsided) (c : Contact α) :
    (t.place c).2.Lopsided := by
  rcases t.place_cases c with ⟨-, placed⟩ | ⟨-, -, placed⟩ | ⟨-, -, placed⟩
  · rw [placed]
    exact lopsided.setBucket c.id _
  · rw [placed]
    exact lopsided
  · rw [placed]
    exact lopsided.setBucket c.id _

/-- A change divides on the path of the home only. -/
theorem Sound.lopsided_change {t : Table α} (sound : t.Sound) (lopsided : t.Lopsided)
    (change : Change α) : (t.change change).Lopsided := by
  cases change with
  | offer c =>
    rw [Table.change]
    rcases t.add_cases c with added | ⟨divisible, added⟩
    · rw [added]
      exact lopsided.place c
    · rw [added]
      exact (sound.lopsided_divide lopsided divisible).place c
  | withdraw id =>
    rw [Table.change]
    rcases t.remove_cases id with ⟨-, removed⟩ | ⟨-, removed⟩
    · rw [removed]
      exact lopsided.setBucket id _
    · rw [removed]
      exact lopsided

/-- Changes divide on the path of the home only, however many there are. -/
theorem Sound.lopsided_after {t : Table α} (sound : t.Sound) (lopsided : t.Lopsided)
    (changes : List (Change α)) : (t.after changes).Lopsided := by
  induction changes generalizing t with
  | nil => exact lopsided
  | cons change changes further =>
    exact further (sound.change change) (sound.lopsided_change lopsided change)

/-! ## Buckets and log-distances -/

/-- A region holds the contacts that have its stem. -/
theorem Sound.mem_region_iff {t : Table α} (sound : t.Sound) {r : Region α} (member : r ∈ t.regions)
    (c : Contact α) :
    c ∈ r.bucket.entries ↔ c ∈ t.trie.entries ∧ c.id.AgreeTo r.stem r.depth := by
  obtain ⟨-, -, belongs⟩ := sound.placed.region_belongs clearFrom_zero r member
  constructor
  · intro stored
    refine ⟨?_, belongs.agree c stored⟩
    rw [← t.trie.regions_entries .zero 0]
    exact List.mem_flatMap.mpr ⟨r, member, stored⟩
  · rintro ⟨held, agree⟩
    obtain ⟨place, only⟩ := sound.placed.filter_regions clearFrom_zero (Id.AgreeTo.zero c.id .zero)
    have covered := (Id.hasStem_iff _ _ _ belongs.inside).mpr agree
    have same : r ∈ t.regions.filter fun r => c.id.hasStem r.stem r.depth :=
      List.mem_filter.mpr ⟨member, covered⟩
    rw [regions, only, List.mem_singleton] at same
    rw [same]
    exact sound.mem_bucketOf held

/-- A region that has left the path of the home holds the contacts at one log-distance. -/
theorem Sound.mem_aside_iff {t : Table α} (sound : t.Sound) {r : Region α} (member : r ∈ t.regions)
    (leaves : Trie.LeavesPath t.home r) (c : Contact α) :
    c ∈ r.bucket.entries ↔ c ∈ t.trie.entries ∧ t.home.logDistance c.id = 257 - r.depth := by
  obtain ⟨d, inside, deep, agree, differ⟩ := leaves
  rw [sound.mem_region_iff member, deep, show 257 - (d + 1) = 256 - d by omega,
    Id.logDistance_eq_iff _ _ _ inside, Id.AgreeTo.succ_iff]
  refine and_congr_right' ⟨?_, ?_⟩
  · rintro ⟨same, bit⟩
    exact ⟨same.trans agree, by rwa [bit]⟩
  · rintro ⟨same, bit⟩
    refine ⟨same.trans agree.symm, ?_⟩
    -- Two bits that are not the home's are the same.
    exact (Bool.eq_not.mpr bit).trans (Bool.eq_not.mpr differ).symm

/-- A region on the path of the home holds the contacts up to a log-distance. -/
theorem Sound.mem_own_iff {t : Table α} (sound : t.Sound) {r : Region α} (member : r ∈ t.regions)
    (onPath : t.home.AgreeTo r.stem r.depth) (c : Contact α) :
    c ∈ r.bucket.entries ↔ c ∈ t.trie.entries ∧ t.home.logDistance c.id ≤ 256 - r.depth := by
  have inside := (sound.placed.region_belongs clearFrom_zero r member).2.2.inside
  rw [sound.mem_region_iff member, Id.logDistance_le_iff _ _ _ inside]
  refine and_congr_right' ⟨?_, ?_⟩
  · exact fun same => same.trans onPath.symm
  · exact fun same => same.trans onPath

/-! ## The buckets of a table in numbers -/

/-- The depth of a table is that of a bucket that no other one is deeper than. -/
theorem depth_eq {t : Table α} {r : Region α} (member : r ∈ t.regions)
    (deepest : ∀ other ∈ t.regions, other.depth ≤ r.depth) : t.depth = r.depth := by
  have largest : (t.regions.map (·.depth)).max? = some r.depth := by
    rw [List.max?_eq_some_iff]
    refine ⟨List.mem_map_of_mem member, fun d listed => ?_⟩
    obtain ⟨other, region, rfl⟩ := List.mem_map.mp listed
    exact deepest other region
  rw [depth, List.foldl_max, largest, Option.getD_some, Nat.zero_max]

/-- No contact is in two regions. -/
theorem Sound.region_unique {t : Table α} (sound : t.Sound) {r q : Region α} {c : Contact α}
    (first : r ∈ t.regions) (second : q ∈ t.regions) (here : c ∈ r.bucket.entries)
    (there : c ∈ q.bucket.entries) : r = q := by
  obtain ⟨stem, only⟩ := sound.wellFormed.covered c.id
  have covers {x : Region α} (member : x ∈ t.regions) (stored : c ∈ x.bucket.entries) :
      x = ⟨stem, t.depthOf c.id, t.bucketOf c.id⟩ := by
    have filed := sound.wellFormed.filed x member c stored
    rw [← List.mem_singleton, ← only]
    exact List.mem_filter.mpr ⟨member, filed⟩
  rw [covers first here, covers second there]

/-- What the buckets of a table are in relation to its home. -/
structure Graded (t : Table α) : Prop where
  /-- Whatever is divided is on the path of the home and above the last depth. -/
  divided : ∀ path, t.trie.branchAt path = true →
    path.length < t.maxDepth ∧ t.home.hasStem (Id.zero.follow 0 path) path.length = true
  /-- There is one bucket more than the deepest one has branches above it. -/
  counted : t.bucketCount = t.depth + 1
  /-- No bucket is deeper than the last depth. -/
  bounded : t.depth ≤ t.maxDepth
  /-- At every depth one bucket is off the path, and holds what lies at one log-distance. -/
  aside : ∀ d, 1 ≤ d → d ≤ t.depth → ∃ r,
    t.regions.filter (fun r => decide (r.depth = d) && !t.home.hasStem r.stem r.depth) = [r] ∧
      ∀ c, c ∈ r.bucket.entries ↔ c ∈ t.contacts ∧ t.home.logDistance c.id = 257 - d
  /-- One bucket is on the path, and holds what lies at any smaller log-distance. -/
  own : ∃ r, t.regions.filter (fun r => t.home.hasStem r.stem r.depth) = [r] ∧
    r.depth = t.depth ∧
      ∀ c, c ∈ r.bucket.entries ↔ c ∈ t.contacts ∧ t.home.logDistance c.id ≤ 256 - t.depth
  /-- A log-distance that has its own bucket is listed by listing this bucket. -/
  listed : ∀ distance, 256 - t.depth < distance → distance ≤ 256 →
    ∃ r ∈ t.regions, t.atLogDistance distance = r.bucket.entries
  /-- There is no more than the buckets have room for. -/
  room : t.size ≤ t.capacity * t.bucketCount

section Spine

variable {t : Table α} {own : Region α} {aside : List (Region α)}

/-- The region at the end of the path has a stem of the home. -/
theorem Sound.own_hasStem (sound : t.Sound) (spine : Trie.Spine t.home 0 t.regions own aside) :
    t.home.hasStem own.stem own.depth = true := by
  have member : own ∈ t.regions := spine.mem_iff.mpr (.inl rfl)
  have belongs := (sound.placed.region_belongs clearFrom_zero own member).2.2
  exact (Id.hasStem_iff _ _ _ belongs.inside).mpr spine.onPath

/-- The regions off the path do not have a stem of the home. -/
theorem aside_hasStem (spine : Trie.Spine t.home 0 t.regions own aside) {r : Region α}
    (off : r ∈ aside) : t.home.hasStem r.stem r.depth = false := by
  obtain ⟨d, below, deep, -, differ⟩ := spine.leave r off
  rw [← Bool.not_eq_true, Id.hasStem_iff _ _ _ (by omega), deep]
  exact fun agree => differ (agree d (Nat.lt_succ_self d)).symm

/-- The table is as deep as there are regions off the path. -/
theorem depth_eq_length (spine : Trie.Spine t.home 0 t.regions own aside) :
    t.depth = aside.length := by
  have last : own.depth = aside.length := by rw [spine.last, Nat.zero_add]
  rw [← last]
  refine depth_eq (spine.mem_iff.mpr (.inl rfl)) fun r member => ?_
  rcases spine.mem_iff.mp member with rfl | off
  · exact Nat.le_refl _
  · have listed : r.depth ∈ aside.map (·.depth) := List.mem_map_of_mem off
    rw [spine.depths, List.mem_range'_1] at listed
    omega

/-- One region is on the path. -/
theorem Sound.filter_own (sound : t.Sound) (spine : Trie.Spine t.home 0 t.regions own aside) :
    t.regions.filter (fun r => t.home.hasStem r.stem r.depth) = [own] := by
  have distinct : t.regions.Nodup := sound.wellFormed.once.of_map _
  refine filter_eq_singleton distinct (spine.mem_iff.mpr (.inl rfl)) fun r member => ?_
  constructor
  · intro onPath
    rcases spine.mem_iff.mp member with same | off
    · exact same
    · rw [aside_hasStem spine off] at onPath
      cases onPath
  · rintro rfl
    exact sound.own_hasStem spine

/-- One region is off the path at every depth. -/
theorem Sound.filter_aside (sound : t.Sound) (spine : Trie.Spine t.home 0 t.regions own aside)
    {r : Region α} (off : r ∈ aside) :
    t.regions.filter (fun q => decide (q.depth = r.depth) && !t.home.hasStem q.stem q.depth) =
      [r] := by
  have distinct : t.regions.Nodup := sound.wellFormed.once.of_map _
  have once : (aside.map (·.depth)).Nodup := by
    rw [spine.depths]
    exact List.nodup_range'
  refine filter_eq_singleton distinct (spine.mem_iff.mpr (.inr off)) fun q member => ?_
  rw [Bool.and_eq_true, decide_eq_true_eq, Bool.not_eq_true']
  constructor
  · rintro ⟨same, foreign⟩
    rcases spine.mem_iff.mp member with rfl | other
    · rw [sound.own_hasStem spine] at foreign
      cases foreign
    · exact List.inj_on_of_nodup_map once other off same
  · rintro rfl
    exact ⟨rfl, aside_hasStem spine off⟩

/-- At every depth down to that of the table there is a region off the path. -/
theorem exists_aside (spine : Trie.Spine t.home 0 t.regions own aside) {d : Nat} (low : 1 ≤ d)
    (high : d ≤ t.depth) : ∃ r ∈ aside, r.depth = d := by
  rw [depth_eq_length spine] at high
  rw [← List.mem_map, spine.depths, List.mem_range'_1]
  omega

/-- What lies at the log-distance of a region off the path is what this region holds, in the same
order. -/
theorem Sound.atLogDistance_aside (sound : t.Sound)
    (spine : Trie.Spine t.home 0 t.regions own aside) {r : Region α} (off : r ∈ aside) :
    t.atLogDistance (257 - r.depth) = r.bucket.entries := by
  let at? (c : Contact α) : Bool := decide (t.home.logDistance c.id = 257 - r.depth)
  let test (q : Region α) : Bool :=
    decide (q.depth = r.depth) && !t.home.hasStem q.stem q.depth
  let sorted := t.regions.mergeSort fun a b => decide (a.depth ≤ b.depth)
  have region : r ∈ t.regions := spine.mem_iff.mpr (.inr off)
  have perm : sorted.Perm t.regions := List.mergeSort_perm ..
  have one : sorted.filter test = [r] := by
    refine List.perm_singleton.mp ((perm.filter test).trans ?_)
    rw [sound.filter_aside spine off]
  have whole : r.bucket.entries.filter at? = r.bucket.entries := by
    rw [List.filter_eq_self]
    intro c stored
    exact decide_eq_true ((sound.mem_aside_iff region (spine.leave r off) c).mp stored).2
  -- A contact at the log-distance is in the region of this log-distance.
  have others : ∀ q ∈ sorted, test q = false → q.bucket.entries.filter at? = [] := by
    intro q listed fails
    rw [List.filter_eq_nil_iff]
    intro c stored near
    have member : q ∈ t.regions := perm.subset listed
    have held : c ∈ t.trie.entries := ((sound.mem_region_iff member c).mp stored).1
    have here := (sound.mem_aside_iff region (spine.leave r off) c).mpr
      ⟨held, of_decide_eq_true near⟩
    rw [sound.region_unique member region stored here] at fails
    have passes : r ∈ sorted.filter test := by rw [one]; exact List.mem_singleton.mpr rfl
    rw [(List.mem_filter.mp passes).2] at fails
    cases fails
  calc t.atLogDistance (257 - r.depth)
      = sorted.flatMap fun q => q.bucket.entries.filter at? := List.filter_flatMap
    _ = (sorted.filter test).flatMap fun q => q.bucket.entries.filter at? :=
        (flatMap_filter_of_nil _ test sorted others).symm
    _ = r.bucket.entries := by rw [one, List.flatMap_singleton, whole]

end Spine

/-- A sound table that is divided along the path of its home is graded. -/
theorem Sound.graded {t : Table α} (sound : t.Sound) (lopsided : t.Lopsided) : t.Graded := by
  have anywhere := Id.AgreeTo.zero t.home .zero
  obtain ⟨own, aside, spine⟩ : ∃ own aside, Trie.Spine t.home 0 t.regions own aside :=
    Trie.Lopsided.exists_spine lopsided clearFrom_zero sound.shallow anywhere
  have depth : t.depth = aside.length := depth_eq_length spine
  have last : own.depth = t.depth := by rw [spine.last, depth, Nat.zero_add]
  have held (c : Contact α) : c ∈ t.contacts ↔ c ∈ t.trie.entries := t.contacts_perm.mem_iff
  have member {r : Region α} (off : r ∈ aside) : r ∈ t.regions := spine.mem_iff.mpr (.inr off)
  have region : own ∈ t.regions := spine.mem_iff.mpr (.inl rfl)
  have counted : t.bucketCount = t.depth + 1 := by
    rw [bucketCount, spine.perm.length_eq, List.length_cons, depth]
  refine ⟨?divided, counted, ?bounded, ?aside, ?own, ?listed, ?room⟩
  case divided =>
    intro path divided
    have place := lopsided.of_branchAt clearFrom_zero sound.shallow anywhere divided
    rw [Nat.zero_add] at place
    have inside := Nat.le_trans (Nat.le_of_lt place.1) sound.shallow
    exact ⟨place.1, (Id.hasStem_iff _ _ _ inside).mpr place.2⟩
  case bounded =>
    have bound := lopsided.region_depth_le own region
    rwa [last, Nat.zero_max] at bound
  case aside =>
    intro d low high
    obtain ⟨r, off, rfl⟩ := exists_aside spine low high
    refine ⟨r, sound.filter_aside spine off, fun c => ?_⟩
    rw [held, sound.mem_aside_iff (member off) (spine.leave r off)]
  case own =>
    refine ⟨own, sound.filter_own spine, last, fun c => ?_⟩
    rw [held, sound.mem_own_iff region spine.onPath, last]
  case listed =>
    intro distance far near
    have low : 1 ≤ 257 - distance := by omega
    have high : 257 - distance ≤ t.depth := by omega
    obtain ⟨r, off, deep⟩ := exists_aside spine low high
    have listed := sound.atLogDistance_aside spine off
    rw [deep, show 257 - (257 - distance) = distance by omega] at listed
    exact ⟨r, member off, listed⟩
  case room =>
    have sizes : ∀ size ∈ t.regions.map (·.bucket.size), size ≤ t.capacity := by
      intro size listed
      obtain ⟨r, region, rfl⟩ := List.mem_map.mp listed
      exact sound.wellFormed.bounded r region
    have total := List.sum_le_card_nsmul _ _ sizes
    rw [← sound.wellFormed.counted, List.length_map, nsmul_eq_mul, Nat.mul_comm] at total
    exact total

/-- Whatever is offered to a new table and withdrawn from it: the table is divided only on the path
of its home, so that its buckets are one off this path at every depth and one at its end; these
stand for log-distances, and list what lies at theirs in the order in which it was last seen. -/
theorem graded_after (home : Id) (capacity maxDepth : Nat) (changes : List (Change α)) :
    let start : Table α := withDepth home capacity maxDepth
    let t := start.after changes
    t.Graded ∧ t.frame = (home, capacity, min maxDepth 256) ∧
      ∀ distance, 256 - t.depth < distance → distance ≤ 256 →
        (t.atLogDistance distance).Pairwise (Fresher start changes) := by
  intro start t
  have new := withDepth_sound (α := α) home capacity maxDepth
  have sound : t.Sound := new.after changes
  have graded : t.Graded := sound.graded (new.lopsided_after trivial changes)
  refine ⟨graded, frame_after start changes, fun distance far near => ?_⟩
  obtain ⟨r, member, listed⟩ := graded.listed distance far near
  have remembers : Remembers start changes := Remembers.after home capacity maxDepth changes
  rw [listed]
  exact (Trie.holds_iff t.trie .zero 0).mp remembers.ordered r member

end Table

end Overlay
