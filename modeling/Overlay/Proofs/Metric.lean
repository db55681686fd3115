import Mathlib.Data.List.Perm.Subperm
import Mathlib.Data.Nat.Bitwise
import Mathlib.Tactic.Push
import Overlay.Contact

/-!
# Bits, stems and distances

Identifiers are compared by their bits here. Two identifiers agree to a depth when their bits
before it are the same; this is what a stem of that depth says, and what the shared bits
count. The first bit at which two identifiers differ decides which of them is closer to a
target: the one that has the bit of the target. Distances from one target are therefore a
linear order in which different identifiers are never equal.
-/
namespace Overlay

namespace Id

/-- No bit beyond the last one is set. -/
theorem bit_beyond (id : Id) (index : Nat) (beyond : 256 ≤ index) : id.bit index = false :=
  BitVec.getMsbD_of_ge id.word index beyond

/-- No bit of the zero identifier is set. -/
@[simp]
theorem bit_zero (index : Nat) : zero.bit index = false := by
  simp [bit, zero]

/-- Replacing a bit inside the word leaves the other bits as they are. -/
theorem bit_withBit (id : Id) {index : Nat} (inside : index < 256) (value : Bool) (i : Nat) :
    (id.withBit index value).bit i = if i = index then value else id.bit i := by
  have place : 256 - (255 - index) - 1 = index := by omega
  have within : 255 - index < 256 := by omega
  by_cases whole : i < 256
  · cases value with
    | false =>
      simp only [withBit, Bool.false_eq_true, ↓reduceIte, bit, unit, BitVec.getMsbD_and,
        BitVec.getMsbD_not, BitVec.getMsbD_twoPow, place, within, decide_true, Bool.true_and]
      by_cases same : i = index <;> simp [same, whole, inside]
    | true =>
      simp only [withBit, ↓reduceIte, bit, unit, BitVec.getMsbD_or, BitVec.getMsbD_twoPow, place,
        within, decide_true, Bool.true_and]
      by_cases same : i = index <;> simp [same]
  · rw [bit_beyond _ i (by omega), bit_beyond _ i (by omega), if_neg (by omega)]

/-- The first `depth` bits of two identifiers are the same. -/
def AgreeTo (a b : Id) (depth : Nat) : Prop := ∀ i < depth, a.bit i = b.bit i

namespace AgreeTo

variable {a b c : Id} {depth : Nat}

/-- An identifier agrees with itself. -/
theorem refl (a : Id) (depth : Nat) : a.AgreeTo a depth := fun _ _ => rfl

/-- Agreement goes both ways. -/
theorem symm (agree : a.AgreeTo b depth) : b.AgreeTo a depth := fun i below => (agree i below).symm

/-- Agreement is passed on. -/
theorem trans (first : a.AgreeTo b depth) (second : b.AgreeTo c depth) : a.AgreeTo c depth :=
  fun i below => (first i below).trans (second i below)

/-- Agreement to a depth is agreement to every smaller one. -/
theorem mono {shallow : Nat} (agree : a.AgreeTo b depth) (le : shallow ≤ depth) :
    a.AgreeTo b shallow :=
  fun i below => agree i (Nat.lt_of_lt_of_le below le)

/-- Any two identifiers agree to depth zero. -/
theorem zero (a b : Id) : a.AgreeTo b 0 := fun i below => absurd below (Nat.not_lt_zero i)

/-- Agreement to one bit more is agreement with the same next bit. -/
theorem succ_iff : a.AgreeTo b (depth + 1) ↔ a.AgreeTo b depth ∧ a.bit depth = b.bit depth := by
  constructor
  · intro agree
    exact ⟨agree.mono (Nat.le_succ depth), agree depth (Nat.lt_succ_self depth)⟩
  · rintro ⟨agree, next⟩ i below
    rcases Nat.lt_succ_iff_lt_or_eq.mp below with before | rfl
    · exact agree i before
    · exact next

end AgreeTo

/-- The bits of an identifier from `depth` on are clear. -/
def ClearFrom (id : Id) (depth : Nat) : Prop := ∀ i, depth ≤ i → id.bit i = false

/-- A stem of `depth` bits with one bit more. -/
def prolong (stem : Id) (depth : Nat) (value : Bool) : Id :=
  if value then stem.withBit depth true else stem

/-- The stem with one bit more is clear beyond this bit. -/
theorem ClearFrom.prolong {stem : Id} {depth : Nat} (clear : stem.ClearFrom depth)
    (inside : depth < 256) (value : Bool) : (stem.prolong depth value).ClearFrom (depth + 1) := by
  intro i beyond
  cases value with
  | false => exact clear i (Nat.le_of_succ_le beyond)
  | true =>
    change (stem.withBit depth true).bit i = false
    rw [stem.bit_withBit inside true i, if_neg (by omega)]
    exact clear i (Nat.le_of_succ_le beyond)

/-- To agree with a stem and one bit more is to agree with the stem and to have this bit. -/
theorem agreeTo_prolong_iff (id : Id) {stem : Id} {depth : Nat} (clear : stem.ClearFrom depth)
    (inside : depth < 256) (value : Bool) :
    id.AgreeTo (stem.prolong depth value) (depth + 1) ↔
      id.AgreeTo stem depth ∧ id.bit depth = value := by
  cases value with
  | false =>
    change id.AgreeTo stem (depth + 1) ↔ _
    rw [AgreeTo.succ_iff, clear depth (Nat.le_refl depth)]
  | true =>
    change id.AgreeTo (stem.withBit depth true) (depth + 1) ↔ _
    rw [AgreeTo.succ_iff, stem.bit_withBit inside true depth, if_pos rfl]
    refine and_congr_left' (forall₂_congr fun i below => ?_)
    rw [stem.bit_withBit inside true i, if_neg (Nat.ne_of_lt below)]

/-- The stem of `depth` bits with the bits of a path behind them. -/
def follow (stem : Id) (depth : Nat) : List Bool → Id
  | [] => stem
  | value :: path => (stem.prolong depth value).follow (depth + 1) path

/-- Following a path keeps the bits of the stem. -/
theorem ClearFrom.follow_agreeTo {stem : Id} {depth : Nat} (clear : stem.ClearFrom depth)
    (path : List Bool) (inside : depth + path.length ≤ 256) :
    (stem.follow depth path).AgreeTo stem depth := by
  induction path generalizing stem depth with
  | nil => exact AgreeTo.refl stem depth
  | cons value path further =>
    rw [List.length_cons] at inside
    have agree := further (clear.prolong (by omega) value) (by omega)
    exact ((agreeTo_prolong_iff _ clear (by omega) value).mp agree).1

/-- The bit behind the stem is the first one of the path. -/
theorem ClearFrom.bit_follow_cons {stem : Id} {depth : Nat} (clear : stem.ClearFrom depth)
    (value : Bool) (path : List Bool) (inside : depth + (value :: path).length ≤ 256) :
    (stem.follow depth (value :: path)).bit depth = value := by
  rw [List.length_cons] at inside
  have agree := (clear.prolong (by omega) value).follow_agreeTo path (by omega)
  exact ((agreeTo_prolong_iff _ clear (by omega) value).mp agree).2

/-- Different paths of the same length lead to different stems. -/
theorem ClearFrom.follow_injective {stem : Id} {depth : Nat} (clear : stem.ClearFrom depth)
    (path other : List Bool) (length : path.length = other.length)
    (same : stem.follow depth path = stem.follow depth other)
    (inside : depth + path.length ≤ 256) : path = other := by
  induction path generalizing stem depth other with
  | nil => exact (List.length_eq_zero_iff.mp length.symm).symm
  | cons value path further =>
    cases other with
    | nil => simp at length
    | cons value' other =>
      have first : value = value' := by
        rw [← clear.bit_follow_cons value path inside, same,
          clear.bit_follow_cons value' other (by rw [← length]; exact inside)]
      subst first
      rw [List.length_cons] at inside
      have rest := further (clear.prolong (by omega) value) other (by simpa using length) same
        (by omega)
      rw [rest]

end Id

namespace Distance

/-- A word is below a power of two exactly when its leading bits are clear. -/
theorem toNat_lt_two_pow_iff (word : BitVec 256) (depth : Nat) (inside : depth ≤ 256) :
    word.toNat < 2 ^ (256 - depth) ↔ ∀ i < depth, word.getMsbD i = false := by
  constructor
  · intro small i below
    have high : word.toNat < 2 ^ (256 - 1 - i) :=
      Nat.lt_of_lt_of_le small (Nat.pow_le_pow_right (by decide) (by omega))
    rw [BitVec.getMsbD_eq_getLsbD, BitVec.getLsbD, Nat.testBit_lt_two_pow high, Bool.and_false]
  · intro clear
    apply Nat.lt_pow_two_of_testBit
    intro j high
    by_cases within : j < 256
    · have bit := clear (255 - j) (by omega)
      rw [BitVec.getMsbD_eq_getLsbD, BitVec.getLsbD,
        show 256 - 1 - (255 - j) = j by omega] at bit
      simpa [show 255 - j < 256 by omega] using bit
    · have wide : word.toNat < 2 ^ j :=
        Nat.lt_of_lt_of_le word.isLt (Nat.pow_le_pow_right (by decide) (by omega))
      exact Nat.testBit_lt_two_pow wide

/-- The leading clear bits of a distance are counted exactly. -/
theorem le_leadingZeros_iff (d : Distance) (depth : Nat) (inside : depth ≤ 256) :
    depth ≤ d.leadingZeros ↔ ∀ i < depth, d.word.getMsbD i = false := by
  by_cases zero : d.word = 0
  · simp [leadingZeros, zero, inside]
  · have nonzero : d.word.toNat ≠ 0 := by
      intro none
      exact zero (BitVec.eq_of_toNat_eq (by simpa using none))
    have log : d.word.toNat.log2 < 256 := (Nat.log2_lt nonzero).mpr d.word.isLt
    rw [leadingZeros, if_neg zero, ← toNat_lt_two_pow_iff d.word depth inside,
      ← Nat.log2_lt nonzero]
    omega

end Distance

namespace Id

/-- Two identifiers share their first `depth` bits exactly when they agree to that depth. -/
theorem le_sharedBits_iff (a b : Id) (depth : Nat) (inside : depth ≤ 256) :
    depth ≤ a.sharedBits b ↔ a.AgreeTo b depth := by
  rw [sharedBits, Distance.le_leadingZeros_iff _ _ inside]
  refine forall₂_congr fun i _ => ?_
  simp [distance, bit]

/-- To have a stem is to agree with it. -/
theorem hasStem_iff (id stem : Id) (depth : Nat) (inside : depth ≤ 256) :
    id.hasStem stem depth = true ↔ id.AgreeTo stem depth := by
  rw [hasStem, decide_eq_true_iff, le_sharedBits_iff _ _ _ inside]

/-- Identifiers that agree up to a bit at which they differ share exactly the bits before it. -/
theorem sharedBits_eq_iff (home id : Id) (depth : Nat) (inside : depth < 256) :
    home.sharedBits id = depth ↔ id.AgreeTo home depth ∧ id.bit depth ≠ home.bit depth := by
  have least := home.le_sharedBits_iff id depth (Nat.le_of_lt inside)
  have more := home.le_sharedBits_iff id (depth + 1) inside
  rw [AgreeTo.succ_iff] at more
  constructor
  · rintro rfl
    have agree := least.mp (Nat.le_refl _)
    refine ⟨agree.symm, fun same => ?_⟩
    have longer := more.mpr ⟨agree, same.symm⟩
    omega
  · rintro ⟨agree, differ⟩
    have lower := least.mpr agree.symm
    have upper : ¬depth + 1 ≤ home.sharedBits id := fun longer =>
      differ (more.mp longer).2.symm
    omega

/-- Two identifiers share no more bits than they have. -/
theorem sharedBits_le (home id : Id) : home.sharedBits id ≤ 256 := by
  unfold sharedBits Distance.leadingZeros
  split <;> omega

/-- The log-distance of identifiers that first differ at a bit. -/
theorem logDistance_eq_iff (home id : Id) (depth : Nat) (inside : depth < 256) :
    home.logDistance id = 256 - depth ↔
      id.AgreeTo home depth ∧ id.bit depth ≠ home.bit depth := by
  have bound := home.sharedBits_le id
  rw [← sharedBits_eq_iff home id depth inside, logDistance]
  omega

/-- The log-distance of identifiers that agree up to a bit. -/
theorem logDistance_le_iff (home id : Id) (depth : Nat) (inside : depth ≤ 256) :
    home.logDistance id ≤ 256 - depth ↔ id.AgreeTo home depth := by
  have bound := home.sharedBits_le id
  have agree : depth ≤ home.sharedBits id ↔ id.AgreeTo home depth :=
    (home.le_sharedBits_iff id depth inside).trans ⟨AgreeTo.symm, AgreeTo.symm⟩
  rw [← agree, logDistance]
  omega

/-- The distance from a target as a number. -/
def gap (target id : Id) : Nat := (target.distance id).word.toNat

/-- A shorter distance is a smaller number. -/
theorem distance_lt_iff (target a b : Id) :
    target.distance a < target.distance b ↔ target.gap a < target.gap b := Iff.rfl

/-- A distance that is not longer is a number that is not larger. -/
theorem distance_le_iff (target a b : Id) :
    target.distance a ≤ target.distance b ↔ target.gap a ≤ target.gap b := Iff.rfl

/-- To be closer is to have the smaller number. -/
theorem closer_iff (target a b : Id) :
    target.closer a b = true ↔ target.gap a < target.gap b := by
  rw [closer, decide_eq_true_iff, distance_lt_iff]

/-- Different identifiers lie at different distances. -/
theorem gap_injective (target : Id) {a b : Id} (same : target.gap a = target.gap b) : a = b := by
  have words : target.word ^^^ a.word = target.word ^^^ b.word := BitVec.eq_of_toNat_eq same
  exact Id.ext ((BitVec.xor_right_inj target.word).mp words)

/-- Different identifiers lie at different distances. -/
theorem gap_ne (target : Id) {a b : Id} (different : a ≠ b) : target.gap a ≠ target.gap b :=
  fun same => different (gap_injective target same)

/-- An identifier is in a set, and no member of the set is closer to the target. -/
def IsClosest (target : Id) (set : Id → Prop) (id : Id) : Prop :=
  set id ∧ ∀ other, set other → target.distance id ≤ target.distance other

/-- The list of the `count` members of a set that are closest to a target, closest first; of all
members when there are no more. -/
structure Closest (target : Id) (count : Nat) (set : Id → Prop) (ids : List Id) : Prop where
  /-- Each identifier is farther away than the ones before it. -/
  ascending : ids.Pairwise fun a b => target.distance a < target.distance b
  /-- Only members are listed. -/
  members : ∀ id ∈ ids, set id
  /-- No more than `count` are listed. -/
  bounded : ids.length ≤ count
  /-- A member that is not listed is farther away than `count` others. -/
  others : ∀ id, set id → id ∉ ids →
    ids.length = count ∧ ∀ a ∈ ids, target.distance a < target.distance id

/-- Which members are closest depends on the members of the set only. -/
theorem Closest.congr {target : Id} {count : Nat} {set set' : Id → Prop} {ids : List Id}
    (closest : Closest target count set ids) (same : ∀ id, set id ↔ set' id) :
    Closest target count set' ids :=
  { closest with
    members := fun id listed => (same id).mp (closest.members id listed)
    others := fun id member => closest.others id ((same id).mpr member) }

/-- A list of closest members has no repetition. -/
theorem Closest.nodup {target : Id} {count : Nat} {set : Id → Prop} {ids : List Id}
    (closest : Closest target count set ids) : ids.Nodup :=
  closest.ascending.imp fun {a b} less same => by
    rw [same, distance_lt_iff] at less
    exact Nat.lt_irrefl _ less

/-- One list of closest members has what another one has. -/
theorem Closest.subset {target : Id} {count : Nat} {set : Id → Prop} {ids others : List Id}
    (closest : Closest target count set ids) (again : Closest target count set others) :
    ids ⊆ others := by
  intro id member
  by_contra absent
  obtain ⟨full, before⟩ := again.others id (closest.members id member) absent
  -- Another identifier has taken the place of this one.
  have taken : ∃ other ∈ others, other ∉ ids := by
    by_contra none
    push Not at none
    have more : (id :: others).Nodup := List.nodup_cons.mpr ⟨absent, again.nodup⟩
    have within : id :: others ⊆ ids := List.cons_subset.mpr ⟨member, none⟩
    have length := (more.subperm within).length_le
    have bounded := closest.bounded
    rw [List.length_cons] at length
    omega
  obtain ⟨other, listed, missing⟩ := taken
  have first := before other listed
  have second := (closest.others other (again.members other listed) missing).2 id member
  rw [distance_lt_iff] at first second
  omega

/-- There is only one list of closest members. -/
theorem Closest.unique {target : Id} {count : Nat} {set : Id → Prop} {ids others : List Id}
    (closest : Closest target count set ids) (again : Closest target count set others) :
    ids = others := by
  have perm : ids.Perm others := (List.perm_ext_iff_of_nodup closest.nodup again.nodup).mpr
    fun id => ⟨fun member => closest.subset again member, fun member => again.subset closest member⟩
  refine List.Perm.eq_of_pairwise (fun a b _ _ less more => ?_) closest.ascending again.ascending
    perm
  rw [distance_lt_iff] at less more
  omega

/-- An identifier has no distance from itself. -/
theorem gap_self (target : Id) : target.gap target = 0 := by
  rw [gap, distance, BitVec.xor_self]
  rfl

/-- The target itself comes first, if it is in the set and any are wanted. -/
theorem Closest.head?_eq {target : Id} {count : Nat} {set : Id → Prop} {ids : List Id}
    (closest : Closest target count set ids) (member : set target) (wanted : 0 < count) :
    ids.head? = some target := by
  have nearest (id : Id) : ¬target.distance id < target.distance target := by
    rw [distance_lt_iff, gap_self]
    exact Nat.not_lt_zero _
  have listed : target ∈ ids := by
    by_contra missing
    obtain ⟨full, before⟩ := closest.others target member missing
    obtain ⟨id, listed⟩ := List.exists_mem_of_length_pos (full ▸ wanted)
    exact nearest id (before id listed)
  cases ids with
  | nil => cases listed
  | cons first later =>
    rcases List.mem_cons.mp listed with rfl | behind
    · rfl
    · exact absurd (List.rel_of_pairwise_cons closest.ascending behind) (nearest first)

/-- A binary digit of a distance says whether the bit at its place differs. -/
theorem testBit_gap (target id : Id) (j : Nat) (within : j < 256) :
    (target.gap id).testBit j = (target.bit (255 - j) ^^ id.bit (255 - j)) := by
  have place : 256 - 1 - (255 - j) = j := by omega
  have inside : 255 - j < 256 := by omega
  simp only [bit, ← BitVec.getMsbD_xor]
  rw [gap, distance, BitVec.getMsbD_eq_getLsbD, BitVec.getLsbD, place]
  simp [inside]

/-- Distances have no binary digit beyond the last bit. -/
theorem testBit_gap_beyond (target id : Id) (j : Nat) (beyond : 256 ≤ j) :
    (target.gap id).testBit j = false :=
  Nat.testBit_lt_two_pow (Nat.lt_of_lt_of_le (target.distance id).word.isLt
    (Nat.pow_le_pow_right (by decide) beyond))

/-- The first bit at which two identifiers differ decides which one is closer. -/
theorem gap_lt_of_first_difference (target a b : Id) (depth : Nat) (agree : a.AgreeTo b depth)
    (near : a.bit depth = target.bit depth) (far : b.bit depth ≠ target.bit depth) :
    target.gap a < target.gap b := by
  have inside : depth < 256 := by
    by_contra beyond
    exact far (by rw [bit_beyond b depth (by omega), bit_beyond target depth (by omega)])
  have place : 255 - (255 - depth) = depth := by omega
  apply Nat.lt_of_testBit (255 - depth)
  · rw [testBit_gap target a _ (by omega), place, near, Bool.xor_self]
  · rw [testBit_gap target b _ (by omega), place]
    cases first : target.bit depth <;> cases second : b.bit depth <;> simp_all
  · intro j after
    by_cases within : j < 256
    · rw [testBit_gap target a j within, testBit_gap target b j within,
        agree (255 - j) (by omega)]
    · rw [testBit_gap_beyond target a j (by omega), testBit_gap_beyond target b j (by omega)]

/-- An identifier that agrees with the target further than another one is closer to it. -/
theorem gap_lt_of_agreeTo (target a b : Id) (depth : Nat) (near : a.AgreeTo target depth)
    (far : ¬ b.AgreeTo target depth) : target.gap a < target.gap b := by
  induction depth with
  | zero => exact absurd (AgreeTo.zero b target) far
  | succ depth closer =>
    obtain ⟨agree, bit⟩ := AgreeTo.succ_iff.mp near
    by_cases before : b.AgreeTo target depth
    · have differs : b.bit depth ≠ target.bit depth := fun same =>
        far (AgreeTo.succ_iff.mpr ⟨before, same⟩)
      exact gap_lt_of_first_difference target a b depth (agree.trans before.symm) bit differs
    · exact closer agree before

end Id

namespace Contact

variable {α : Type}

/-- To be nearer is to have the number that is not larger. -/
theorem nearer_iff (target : Id) (a b : Contact α) :
    nearer target a b = true ↔ target.gap a.id ≤ target.gap b.id := by
  rw [nearer, decide_eq_true_iff, Id.distance_le_iff]

/-- The contacts stand in strictly ascending distance. -/
def Ascending (target : Id) (contacts : List (Contact α)) : Prop :=
  contacts.Pairwise fun a b => target.gap a.id < target.gap b.id

/-- Contacts in strictly ascending distance are different. -/
theorem Ascending.distinct {target : Id} {contacts : List (Contact α)}
    (ascending : Ascending target contacts) : (contacts.map (·.id)).Nodup := by
  refine List.pairwise_map.mpr (ascending.imp fun {a b} less same => ?_)
  rw [same] at less
  exact Nat.lt_irrefl _ less

/-- The front of an ascending list is the list of the closest ones. -/
theorem Ascending.closest_take {target : Id} {contacts : List (Contact α)}
    (ascending : Ascending target contacts) (count : Nat) :
    Id.Closest target count (· ∈ contacts.map (·.id)) ((contacts.take count).map (·.id)) where
  ascending := by
    rw [List.pairwise_map]
    exact ascending.sublist (List.take_sublist count contacts)
  members id listed := ((List.take_sublist count contacts).map _).subset listed
  bounded := by
    rw [List.length_map, List.length_take]
    exact Nat.min_le_left count contacts.length
  others id member missing := by
    obtain ⟨c, stored, rfl⟩ := List.mem_map.mp member
    rw [← List.take_append_drop count contacts] at stored
    have split := ascending
    rw [Ascending, ← List.take_append_drop count contacts, List.pairwise_append] at split
    rcases List.mem_append.mp stored with front | back
    · exact absurd (List.mem_map_of_mem front) missing
    · constructor
      · have left : 0 < (contacts.drop count).length := List.length_pos_of_mem back
        rw [List.length_drop] at left
        rw [List.length_map, List.length_take]
        omega
      · intro a listed
        obtain ⟨d, front, rfl⟩ := List.mem_map.mp listed
        exact split.2.2 d front c back

/-- Inserting a contact adds it to the others. -/
theorem insertByDistance_perm (target : Id) (c : Contact α) (contacts : List (Contact α)) :
    (insertByDistance target c contacts).Perm (c :: contacts) := by
  induction contacts with
  | nil => exact List.Perm.refl _
  | cons next rest further =>
    rw [insertByDistance]
    split
    · exact (further.cons next).trans (List.Perm.swap c next rest)
    · exact List.Perm.refl _

/-- Inserting a contact with a new identifier keeps a list ascending. -/
theorem Ascending.insertByDistance {target : Id} {c : Contact α} {contacts : List (Contact α)}
    (ascending : Ascending target contacts) (new : c.id ∉ contacts.map (·.id)) :
    Ascending target (insertByDistance target c contacts) := by
  induction contacts with
  | nil => exact List.pairwise_singleton _ c
  | cons next rest further =>
    obtain ⟨first, rest_ascending⟩ := List.pairwise_cons.mp ascending
    rw [List.map_cons, List.mem_cons, not_or] at new
    rw [Contact.insertByDistance]
    split
    · next closer =>
      refine List.pairwise_cons.mpr ⟨fun d member => ?_, further rest_ascending new.2⟩
      rcases List.mem_cons.mp ((insertByDistance_perm target c rest).subset member) with rfl | old
      · exact (Id.closer_iff target _ _).mp closer
      · exact first d old
    · next farther =>
      have less : target.gap c.id < target.gap next.id := by
        have different := Id.gap_ne target new.1
        rw [Id.closer_iff] at farther
        omega
      refine List.pairwise_cons.mpr ⟨fun d member => ?_, ascending⟩
      rcases List.mem_cons.mp member with rfl | old
      · exact less
      · exact Nat.lt_trans less (first d old)

/-- Sorting leaves the contacts in ascending distance. -/
theorem sortByDistance_ascending (target : Id) (contacts : List (Contact α)) :
    (sortByDistance target contacts).Pairwise
      fun a b => target.gap a.id ≤ target.gap b.id := by
  have sorted := @List.pairwise_mergeSort _ (nearer target)
    (fun a b c first second => by
      rw [nearer_iff] at first second ⊢
      exact Nat.le_trans first second)
    (fun a b => by
      rw [Bool.or_eq_true, nearer_iff, nearer_iff]
      exact Nat.le_total _ _) contacts
  exact sorted.imp fun {a b} near => (nearer_iff target a b).mp near

/-- Sorting keeps the contacts. -/
theorem sortByDistance_perm (target : Id) (contacts : List (Contact α)) :
    (sortByDistance target contacts).Perm contacts :=
  List.mergeSort_perm contacts (nearer target)

/-- Sorting leaves different contacts in strictly ascending distance. -/
theorem sortByDistance_strict (target : Id) {contacts : List (Contact α)}
    (distinct : (contacts.map (·.id)).Nodup) :
    Ascending target (sortByDistance target contacts) := by
  have perm := (sortByDistance_perm target contacts).map (·.id)
  have apart := List.pairwise_map.mp (perm.nodup_iff.mpr distinct)
  refine ((sortByDistance_ascending target contacts).and apart).imp fun {a b} both => ?_
  exact Nat.lt_of_le_of_ne both.1 (Id.gap_ne target both.2)

end Contact

end Overlay
