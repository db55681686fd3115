import Overlay.Proofs.Table

/-!
# The closest contacts of a table

A table answers with the contacts closest to a target without sorting all it knows. Both of its
ways are cuts: what they choose is closer than everything they leave out, and they leave
something out only if they have enough. Sorting a cut and keeping the first of it therefore
gives what sorting everything would give. Room for the answer is reserved by the number of contacts
asked for, not by that of the contacts there are, so whoever asks for too many gets no answer.
-/
namespace Overlay

namespace Contact

variable {α : Type} {target : Id}

/-- All of the first contacts are closer to the target than all of the second. -/
def Before (target : Id) (near far : List (Contact α)) : Prop :=
  ∀ a ∈ near, ∀ b ∈ far, target.gap a.id < target.gap b.id

/-- The chosen contacts are the closest ones of all, and enough of them: none is left out, or
there are at least `count`. -/
def Cut (target : Id) (count : Nat) (chosen all : List (Contact α)) : Prop :=
  ∃ rest, all.Perm (chosen ++ rest) ∧ Before target chosen rest ∧
    (rest = [] ∨ count ≤ chosen.length)

/-- Nothing needs to be left out. -/
theorem Cut.whole (target : Id) (count : Nat) (all : List (Contact α)) :
    Cut target count all all :=
  ⟨[], by rw [List.append_nil], fun _ _ _ absent => absurd absent List.not_mem_nil, .inl rfl⟩

/-- Enough contacts are a cut when all others are farther away. -/
theorem Cut.of_enough {count : Nat} {near far : List (Contact α)}
    (before : Before target near far) (enough : count ≤ near.length) :
    Cut target count near (near ++ far) :=
  ⟨far, List.Perm.refl _, before, .inr enough⟩

/-- A cut does not depend on the order in which all contacts are given. -/
theorem Cut.of_perm {count : Nat} {chosen all all' : List (Contact α)}
    (cut : Cut target count chosen all) (same : all'.Perm all) : Cut target count chosen all' := by
  obtain ⟨rest, perm, before, enough⟩ := cut
  exact ⟨rest, same.trans perm, before, enough⟩

/-- Contacts that come before others come before those of them that pass a test. -/
theorem Before.filter {near far : List (Contact α)} (before : Before target near far)
    (test : Contact α → Bool) : Before target near (far.filter test) :=
  fun a left b right => before a left b (List.mem_of_mem_filter right)

/-- Contacts with different identifiers can be in ascending distance in one way only. -/
theorem sortByDistance_unique {sorted contacts : List (Contact α)}
    (distinct : (contacts.map (·.id)).Nodup)
    (ascending : sorted.Pairwise fun a b => target.gap a.id ≤ target.gap b.id)
    (perm : sorted.Perm contacts) : sortByDistance target contacts = sorted := by
  have order := sortByDistance_ascending target contacts
  have kept := sortByDistance_perm target contacts
  refine List.Perm.eq_of_pairwise ?_ order ascending (kept.trans perm.symm)
  intro a b first second le ge
  have same := Id.gap_injective target (Nat.le_antisymm le ge)
  exact List.inj_on_of_nodup_map distinct (kept.subset first) (perm.subset second) same

/-- Sorting does not depend on the order in which contacts are given. -/
theorem sortByDistance_congr {contacts others : List (Contact α)}
    (distinct : (contacts.map (·.id)).Nodup) (perm : others.Perm contacts) :
    sortByDistance target contacts = sortByDistance target others :=
  sortByDistance_unique distinct (sortByDistance_ascending target others)
    ((sortByDistance_perm target others).trans perm)

/-- Closer contacts come out in front of farther ones. -/
theorem sortByDistance_append {near far : List (Contact α)}
    (distinct : ((near ++ far).map (·.id)).Nodup) (before : Before target near far) :
    sortByDistance target (near ++ far) =
      sortByDistance target near ++ sortByDistance target far := by
  have first := sortByDistance_perm target near
  have second := sortByDistance_perm target far
  refine sortByDistance_unique distinct ?_ (first.append second)
  refine List.pairwise_append.mpr ⟨sortByDistance_ascending target near,
    sortByDistance_ascending target far, fun a left b right => ?_⟩
  exact Nat.le_of_lt (before a (first.subset left) b (second.subset right))

/-- The first contacts of a cut are the first of all contacts. -/
theorem Cut.take_eq {count : Nat} {chosen all : List (Contact α)}
    (cut : Cut target count chosen all) (distinct : (all.map (·.id)).Nodup) :
    (sortByDistance target chosen).take count = (sortByDistance target all).take count := by
  obtain ⟨rest, perm, before, enough⟩ := cut
  have parts : ((chosen ++ rest).map (·.id)).Nodup := (perm.map (·.id)).nodup_iff.mp distinct
  have sorted : sortByDistance target all =
      sortByDistance target chosen ++ sortByDistance target rest := by
    rw [sortByDistance_congr distinct perm.symm, sortByDistance_append parts before]
  rw [sorted]
  rcases enough with rfl | enough
  · rw [(sortByDistance_perm target []).eq_nil, List.append_nil]
  · rw [List.take_append_of_le_length]
    rw [(sortByDistance_perm target chosen).length_eq]
    exact enough

/-- Every contact of a cut is one of all. -/
theorem Cut.subset {count : Nat} {chosen all : List (Contact α)}
    (cut : Cut target count chosen all) : chosen ⊆ all := by
  obtain ⟨rest, perm, -⟩ := cut
  exact fun c member => perm.symm.subset (List.mem_append_left rest member)

end Contact

namespace Trie

open Contact (Before Cut)

variable {α : Type} {target : Id} {count capacity depth : Nat} {stem : Id}
  {eligible : Contact α → Bool} {trie : Trie α}

/-- A walk that has found enough goes no further. -/
theorem gather_of_enough (trie : Trie α) {found : List (Contact α)}
    (enough : count ≤ found.length) :
    trie.gather target count eligible depth found = found := by
  cases trie with
  | leaf bucket => rw [gather, if_pos enough]
  | branch zero one => rw [gather, if_pos enough]

/-- Two walks, one behind the other, make a cut of both parts when the first part is closer. -/
theorem gather_gather_cut {near far : Trie α} {found : List (Contact α)}
    (first : Cut target count (near.gather target count eligible depth found)
      (found ++ near.entries.filter eligible))
    (second : ∀ chosen, Before target chosen far.entries →
      Cut target count (far.gather target count eligible depth chosen)
        (chosen ++ far.entries.filter eligible))
    (closer : Before target near.entries far.entries) (ahead : Before target found far.entries) :
    Cut target count
      (far.gather target count eligible depth (near.gather target count eligible depth found))
      (found ++ (near.entries.filter eligible ++ far.entries.filter eligible)) := by
  have chosen : Before target (near.gather target count eligible depth found) far.entries := by
    intro a member b stored
    rcases List.mem_append.mp (first.subset member) with old | new
    · exact ahead a old b stored
    · exact closer a (List.mem_of_mem_filter new) b stored
  obtain ⟨rest, perm, before, enough⟩ := first
  have all := perm.append_right (far.entries.filter eligible)
  rw [List.append_assoc] at all
  rcases enough with rfl | enough
  · obtain ⟨left, perm', before', enough'⟩ := second _ chosen
    rw [List.append_nil] at all
    exact ⟨left, all.trans perm', before', enough'⟩
  · rw [far.gather_of_enough enough]
    rw [List.append_assoc] at all
    refine ⟨rest ++ far.entries.filter eligible, all, ?_, .inr enough⟩
    intro a member b stored
    rcases List.mem_append.mp stored with left | right
    · exact before a member b left
    · exact chosen a member b (List.mem_of_mem_filter right)

/-- At every branch, the side that has the target's next bit is closer than the other one. -/
theorem Placed.sides_before {zero one : Trie α}
    (placed : (branch zero one).Placed capacity stem depth) (clear : stem.ClearFrom depth)
    (target : Id) :
    (target.bit depth = false → Before target zero.entries one.entries) ∧
      (target.bit depth = true → Before target one.entries zero.entries) := by
  obtain ⟨clearBit, setBit⟩ := placed.bit_eq clear
  have agree := placed.entries_agree clear
  have same : ∀ a ∈ zero.entries, ∀ b ∈ one.entries, a.id.AgreeTo b.id depth :=
    fun a left b right => (agree a (List.mem_append_left _ left)).trans
      (agree b (List.mem_append_right _ right)).symm
  constructor
  · intro bit a left b right
    apply Id.gap_lt_of_first_difference target a.id b.id depth (same a left b right)
    · rw [clearBit a left, bit]
    · rw [setBit b right, bit]
      exact fun same => Bool.false_ne_true same.symm
  · intro bit b right a left
    apply Id.gap_lt_of_first_difference target b.id a.id depth (same a left b right).symm
    · rw [setBit b right, bit]
    · rw [clearBit a left, bit]
      exact Bool.false_ne_true

/-- The walk that visits nearer sides first makes a cut of what was found before and all
eligible contacts of the trie. -/
theorem Placed.gather_cut (placed : trie.Placed capacity stem depth) (clear : stem.ClearFrom depth)
    {found : List (Contact α)} (ahead : Before target found trie.entries) :
    Cut target count (trie.gather target count eligible depth found)
      (found ++ trie.entries.filter eligible) := by
  induction trie generalizing stem depth found with
  | leaf bucket =>
    by_cases enough : count ≤ found.length
    · rw [gather, if_pos enough]
      exact Cut.of_enough (ahead.filter eligible) enough
    · rw [gather, if_neg enough]
      exact Cut.whole target count _
  | branch zero one zeroHolds oneHolds =>
    by_cases enough : count ≤ found.length
    · rw [gather_of_enough _ enough]
      exact Cut.of_enough (ahead.filter eligible) enough
    · obtain ⟨zeroFirst, oneFirst⟩ := placed.sides_before clear target
      obtain ⟨inside, low, high⟩ := placed
      have aheadZero : Before target found zero.entries := fun a old b new =>
        ahead a old b (List.mem_append_left _ new)
      have aheadOne : Before target found one.entries := fun a old b new =>
        ahead a old b (List.mem_append_right _ new)
      have cutZero {found : List (Contact α)} (ahead : Before target found zero.entries) :=
        zeroHolds low (clear.prolong inside false) ahead
      have cutOne {found : List (Contact α)} (ahead : Before target found one.entries) :=
        oneHolds high (clear.prolong inside true) ahead
      rw [gather, if_neg enough, entries, List.filter_append]
      cases bit : target.bit depth with
      | false =>
        rw [if_neg Bool.false_ne_true]
        exact gather_gather_cut (cutZero aheadZero) (fun _ => cutOne) (zeroFirst bit) aheadOne
      | true =>
        rw [if_pos rfl]
        have cut :=
          gather_gather_cut (cutOne aheadOne) (fun _ => cutZero) (oneFirst bit) aheadZero
        exact cut.of_perm (List.perm_append_comm.append_left found)

end Trie

/-- There is room for fewer than `2 ^ 63` bytes. -/
theorem reserve_eq (bytes count : Nat) :
    reserve bytes count = if bytes * count < 2 ^ 63 then .ok () else .error ⟨count⟩ := rfl

namespace Table

open Contact (Before Cut)

variable {α : Type}

/-- The bucket of a target is closer to it than all other buckets. -/
theorem Sound.bucketOf_before {t : Table α} (sound : t.Sound) (target : Id)
    {others : List (Contact α)}
    (perm : t.trie.entries.Perm ((t.bucketOf target).entries ++ others)) :
    Before target (t.bucketOf target).entries others := by
  intro a own b other
  have distinct := (perm.map (·.id)).nodup_iff.mp (sound.placed.distinct clearFrom_zero)
  rw [List.map_append, List.nodup_append] at distinct
  refine Id.gap_lt_of_agreeTo target a.id b.id (t.depthOf target) ?_ ?_
  · exact (sound.bucketOf_belongs target).agree a own
  · -- A contact that agreed as far would be in the bucket, and stand twice.
    intro agree
    have stored := perm.symm.subset (List.mem_append_right _ other)
    have own := sound.placed.mem_locate clearFrom_zero stored agree
    exact distinct.2.2 b.id (List.mem_map_of_mem own) b.id (List.mem_map_of_mem other) rfl

/-- What a table answers is what sorting all its eligible contacts would give. -/
theorem Sound.closest_eq {t : Table α} (sound : t.Sound) (target : Id) (count : Nat)
    (exclude : Option Id) (excludeHome : Bool) :
    t.closest target count exclude excludeHome =
      (Contact.sortByDistance target
        (t.contacts.filter (t.eligible exclude excludeHome))).take count := by
  let eligible := t.eligible exclude excludeHome
  have listed := t.contacts_perm.filter eligible
  have distinct : ((t.trie.entries.filter eligible).map (·.id)).Nodup :=
    (sound.placed.distinct clearFrom_zero).sublist (List.Sublist.map Contact.id List.filter_sublist)
  have sorted : Contact.sortByDistance target (t.contacts.filter eligible) =
      Contact.sortByDistance target (t.trie.entries.filter eligible) :=
    (Contact.sortByDistance_congr distinct listed).symm
  rw [sorted]
  by_cases exact : ((t.bucketOf target).entries.filter eligible).length = count
  · obtain ⟨others, perm, -⟩ := t.trie.exists_others target 0
    have before := sound.bucketOf_before target perm
    have parts := perm.filter eligible
    rw [List.filter_append] at parts
    have cut : Cut target count ((t.bucketOf target).entries.filter eligible)
        (t.trie.entries.filter eligible) := by
      refine ⟨others.filter eligible, parts, ?_, .inr (Nat.le_of_eq exact.symm)⟩
      intro a own b other
      exact before a (List.mem_of_mem_filter own) b (List.mem_of_mem_filter other)
    rw [← cut.take_eq distinct]
    exact congrArg (fun found => (Contact.sortByDistance target found).take count) (if_pos exact)
  · have nothing : Before target ([] : List (Contact α)) t.trie.entries :=
      fun _ absent => absurd absent List.not_mem_nil
    have cut : Cut target count (t.trie.gather target count eligible 0 [])
        (t.trie.entries.filter eligible) := sound.placed.gather_cut clearFrom_zero nothing
    rw [← cut.take_eq distinct]
    exact congrArg (fun found => (Contact.sortByDistance target found).take count) (if_neg exact)

/-- A sound table answers in strictly ascending distance. -/
theorem Sound.closest_ascending {t : Table α} (sound : t.Sound) (target : Id) (count : Nat)
    (exclude : Option Id) (excludeHome : Bool) :
    Contact.Ascending target (t.closest target count exclude excludeHome) := by
  have distinct := sound.wellFormed.distinct.sublist
    (List.filter_sublist (p := t.eligible exclude excludeHome) |>.map Contact.id)
  rw [sound.closest_eq]
  exact (Contact.sortByDistance_strict target distinct).sublist (List.take_sublist _ _)

/-- An answer is a selection for which there is room. -/
theorem nearest_eq (t : Table α) (bytes : Nat) (target : Id) (count : Nat) (exclude : Option Id)
    (excludeHome : Bool) :
    t.nearest bytes target count exclude excludeHome =
      (reserve bytes count).map fun _ => t.closest target count exclude excludeHome := by
  rw [nearest]
  cases reserve bytes count <;> rfl

/-- Whatever has happened to a table, it answers just when there is room for as many contacts as it
is asked for, however few it has. Then the contacts closest to a target are the first ones of all
contacts sorted by their distance, without the excluded identifier and, if wanted, the home; and
what is kept with them is given in the same order. -/
theorem nearest_after (home : Id) (capacity maxDepth : Nat) (changes : List (Change α))
    (bytes : Nat) (target : Id) (count : Nat) (exclude : Option Id) (excludeHome : Bool) :
    let t := (withDepth home capacity maxDepth).after changes
    let eligible := t.contacts.filter fun c =>
      decide (exclude ≠ some c.id ∧ ¬ (excludeHome = true ∧ c.id = home))
    let closest := (Contact.sortByDistance target eligible).take count
    t.nearest bytes target count exclude excludeHome =
        (if bytes * count < 2 ^ 63 then .ok closest else .error ⟨count⟩) ∧
      t.nearestInfo bytes target count exclude excludeHome =
        (if bytes * count < 2 ^ 63 then .ok (closest.map (·.info)) else .error ⟨count⟩) := by
  intro t eligible closest
  have sound : t.Sound := (withDepth_sound home capacity maxDepth).after changes
  have frame : t.frame = (home, capacity, min maxDepth 256) :=
    frame_after (withDepth home capacity maxDepth) changes
  have same : t.home = home := congrArg Prod.fst frame
  have kept : t.contacts.filter (t.eligible exclude excludeHome) = eligible := by
    refine List.filter_congr fun c _ => ?_
    rw [Table.eligible, same]
    cases excludeHome <;> by_cases own : c.id = home <;> simp [own]
  have selected := sound.closest_eq target count exclude excludeHome
  rw [kept] at selected
  have answer := t.nearest_eq bytes target count exclude excludeHome
  rw [selected, reserve_eq] at answer
  rw [nearestInfo, answer]
  split <;> exact ⟨rfl, rfl⟩

/-- A table with one contact gives none to who asks for as many as no list can take. -/
theorem nearest_overflows :
    let near : Contact String := ⟨⟨1⟩, "near"⟩
    let t := (Table.new .zero 20).after [.offer near]
    let closest := (Contact.sortByDistance .zero t.contacts).take (2 ^ 63 - 1)
    closest = [near] ∧ t.nearest 56 .zero (2 ^ 63 - 1) none false = .error ⟨2 ^ 63 - 1⟩ ∧
      t.nearest 56 .zero (2 ^ 63 - 1) none false ≠ .ok closest := by
  intro near t closest
  have refused : t.nearest 56 .zero (2 ^ 63 - 1) none false = .error ⟨2 ^ 63 - 1⟩ := rfl
  refine ⟨by decide +kernel, refused, ?_⟩
  rw [refused]
  exact nofun

end Table

end Overlay
