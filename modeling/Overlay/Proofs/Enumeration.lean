import Overlay.Proofs.Arena
import Overlay.Proofs.Bytes
import Overlay.Proofs.Contents
import Overlay.Proofs.Nearest

/-!
# Listing a table

A table is listed slot by slot, region by region, log-distance by log-distance, or by distance to a
target. Each of these lists names every stored contact once and nothing else: the first three
rearrange the contacts of the trie, and the last one sorts them and cuts nothing off. The regions
come in ascending order because every contact below a branch agrees on the bits above it.
-/
namespace Overlay

/-- Items that are listed by a bounded key are all listed, each as often as before. -/
theorem flatMap_filter_perm {β : Type} (key : β → Nat) (bound : Nat) (items : List β)
    (within : ∀ x ∈ items, key x < bound) :
    ((List.range bound).flatMap fun k => items.filter fun x => decide (key x = k)).Perm items := by
  induction bound generalizing items with
  | zero =>
    have none : items = [] :=
      List.eq_nil_iff_forall_not_mem.mpr fun x member => Nat.not_lt_zero _ (within x member)
    rw [none]
    exact List.Perm.refl _
  | succ bound smaller =>
    let low := items.filter fun x => !decide (key x = bound)
    have below : ∀ x ∈ low, key x < bound := by
      intro x member
      obtain ⟨listed, other⟩ := List.mem_filter.mp member
      have inside := within x listed
      simp only [Bool.not_eq_true', decide_eq_false_iff_not] at other
      omega
    have same : ∀ k ∈ List.range bound, (low.filter fun x => decide (key x = k)) =
        items.filter fun x => decide (key x = k) := by
      intro k inside
      have less := List.mem_range.mp inside
      rw [List.filter_filter]
      refine List.filter_congr fun x _ => ?_
      by_cases here : key x = k
      · simp [here, Nat.ne_of_lt less]
      · simp [here]
    have lower := smaller low below
    rw [List.flatMap_congr same] at lower
    rw [List.range_succ, List.flatMap_append, List.flatMap_singleton]
    refine (lower.append_right _).trans ?_
    exact List.perm_append_comm.trans (List.filter_append_perm _ items)

namespace Id

/-- Of two identifiers the one with the clear bit at their first difference is smaller. -/
theorem lt_of_first_difference {a b : Id} {depth : Nat} (agree : a.AgreeTo b depth)
    (clear : a.bit depth = false) (set : b.bit depth = true) : a < b := by
  have closer := gap_lt_of_first_difference zero a b depth agree (by rw [clear, bit_zero])
    (by rw [set, bit_zero]; decide)
  have value (id : Id) : zero.gap id = id.word.toNat := by
    simp [gap, distance, zero]
  rw [value, value] at closer
  exact BitVec.lt_def.mpr closer

/-- At log-distance 0 of an identifier there is this identifier only. -/
theorem eq_of_logDistance_zero {home id : Id} (none : home.logDistance id = 0) : id = home := by
  have agree : id.AgreeTo home 256 :=
    (logDistance_le_iff home id 256 (Nat.le_refl _)).mp (Nat.le_of_eq none)
  exact ext_bit agree

end Id

/-- The regions of a placed trie come in strictly ascending order of their stems. -/
theorem Trie.Placed.regions_ascending {α : Type} {capacity depth : Nat} {stem : Id} {trie : Trie α}
    (placed : trie.Placed capacity stem depth) (clear : stem.ClearFrom depth) :
    ((trie.regions stem depth).map (·.stem)).Pairwise (· < ·) := by
  induction trie generalizing stem depth with
  | leaf bucket => exact List.pairwise_singleton _ _
  | branch zero one zeroHolds oneHolds =>
    obtain ⟨inside, low, high⟩ := placed
    have lower := low.region_belongs (clear.prolong inside false)
    have upper := high.region_belongs (clear.prolong inside true)
    rw [regions_branch, List.map_append, List.pairwise_append]
    refine ⟨zeroHolds low (clear.prolong inside false),
      oneHolds high (clear.prolong inside true), ?_⟩
    intro a first b second
    obtain ⟨r, left, rfl⟩ := List.mem_map.mp first
    obtain ⟨q, right, rfl⟩ := List.mem_map.mp second
    obtain ⟨near, clearBit⟩ :=
      (Id.agreeTo_prolong_iff r.stem clear inside false).mp (lower r left).1
    obtain ⟨far, setBit⟩ :=
      (Id.agreeTo_prolong_iff q.stem clear inside true).mp (upper q right).1
    exact Id.lt_of_first_difference (near.trans far.symm) clearBit setBit

namespace Table

variable {α : Type} {t : Table α}

/-- A list has every contact that can be looked up, once, and nothing else. -/
def Lists (t : Table α) (listed : List (Contact α)) : Prop :=
  (listed.map (·.id)).Nodup ∧ ∀ c, c ∈ listed ↔ t.get? c.id = some c

/-- How a table is listed. -/
structure Listed (t : Table α) : Prop where
  /-- By slots. -/
  contacts : t.Lists t.contacts
  /-- By regions. -/
  regions : t.Lists (t.regions.flatMap (·.bucket.entries))
  /-- The regions come in strictly ascending order. -/
  ascending : (t.regions.map (·.stem)).Pairwise (· < ·)
  /-- By log-distances from the home. -/
  distances : t.Lists ((List.range 257).flatMap t.atLogDistance)
  /-- By distance to any target, once room for all is reserved. -/
  nearest : ∀ target, ∃ found, t.Lists found ∧ ∀ bytes,
    t.nearest bytes target t.size none false = (reserve bytes t.size).map fun _ => found
  /-- At log-distance 0 there is at most the home. -/
  home : (t.atLogDistance 0).length ≤ 1 ∧ ∀ c ∈ t.atLogDistance 0, c.id = t.home

/-- Whatever rearranges the contacts of the trie lists the table. -/
theorem Sound.lists_of_perm (sound : t.Sound) {listed : List (Contact α)}
    (perm : listed.Perm t.trie.entries) : t.Lists listed := by
  refine ⟨(perm.map (·.id)).nodup_iff.mpr (sound.placed.distinct clearFrom_zero), fun c => ?_⟩
  rw [perm.mem_iff, sound.get?_eq_some_iff]
  exact (and_iff_left rfl).symm

/-- The log-distances of all contacts are among those from 0 to 256. -/
theorem atLogDistance_perm (t : Table α) :
    ((List.range 257).flatMap t.atLogDistance).Perm t.contacts :=
  flatMap_filter_perm (fun c : Contact α => t.home.logDistance c.id) 257 t.contacts fun _ _ =>
    Nat.lt_succ_of_le (Nat.sub_le 256 _)

/-- As many as there are, none excluded, are all contacts. -/
theorem Sound.closest_perm (sound : t.Sound) (target : Id) :
    (t.closest target t.size none false).Perm t.contacts := by
  have all : t.contacts.filter (t.eligible none false) = t.contacts :=
    List.filter_eq_self.mpr fun _ _ => rfl
  have sorted := Contact.sortByDistance_perm target t.contacts
  have enough : (Contact.sortByDistance target t.contacts).length ≤ t.size := by
    rw [sorted.length_eq, t.contacts_perm.length_eq, sound.counted]
  rw [sound.closest_eq, all, List.take_of_length_le enough]
  exact sorted

/-- Nobody but the home is at log-distance 0 from it. -/
theorem id_of_atLogDistance_zero {c : Contact α} (listed : c ∈ t.atLogDistance 0) :
    c.id = t.home :=
  Id.eq_of_logDistance_zero (of_decide_eq_true (List.mem_filter.mp listed).2)

/-- A sound table is listed alike in all ways. -/
theorem Sound.listed (sound : t.Sound) : t.Listed where
  contacts := sound.lists_of_perm t.contacts_perm
  regions := sound.lists_of_perm (.of_eq (t.trie.regions_entries .zero 0))
  ascending := sound.placed.regions_ascending clearFrom_zero
  distances := sound.lists_of_perm (t.atLogDistance_perm.trans t.contacts_perm)
  nearest target := ⟨_, sound.lists_of_perm ((sound.closest_perm target).trans t.contacts_perm),
    fun bytes => t.nearest_eq bytes target t.size none false⟩
  home := by
    refine ⟨?_, fun c listed => id_of_atLogDistance_zero listed⟩
    have kept : (t.atLogDistance 0).Sublist t.contacts := List.filter_sublist
    have distinct : ((t.atLogDistance 0).map (·.id)).Nodup :=
      sound.wellFormed.distinct.sublist (kept.map _)
    have only : (t.atLogDistance 0).map (·.id) ⊆ [t.home] := by
      intro id member
      obtain ⟨c, listed, rfl⟩ := List.mem_map.mp member
      exact List.mem_singleton.mpr (id_of_atLogDistance_zero listed)
    simpa using (distinct.subperm only).length_le

/-- Whatever is offered to a new table and withdrawn from it: going through the slots, through the
regions, which are in ascending order, through the log-distances, or through all by their distance
to any target lists what is stored, each contact once. Slots that go through the same changes, in
the order in which they came to be, list the same contacts and the same regions in the same order,
and find the same contacts closest to a target. -/
theorem listed_after (home : Id) (capacity maxDepth : Nat) (changes : List (Change α)) :
    let t := (withDepth home capacity maxDepth).after changes
    let arena := (Arena.withDepth home capacity maxDepth).after changes
    t.Listed ∧ t.home = home ∧ arena.contacts = t.contacts ∧ arena.regions = t.regions ∧
      ∀ target count exclude excludeHome,
        arena.closest target count (t.eligible exclude excludeHome) =
          t.closest target count exclude excludeHome := by
  intro t arena
  have new := withDepth_sound (α := α) home capacity maxDepth
  have frame : t.frame = (home, capacity, min maxDepth 256) :=
    frame_after (withDepth home capacity maxDepth) changes
  have lays : arena.Lays t := (Arena.withDepth_lays home capacity maxDepth).after new changes
  exact ⟨(new.after changes).listed, congrArg Prod.fst frame, lays.contacts_eq, lays.regions_eq,
    lays.closest_eq⟩

end Table

end Overlay
