import Overlay.Proofs.Trie
import Overlay.Table

/-!
# Properties of routing tables

A table changes when a contact is offered to it or an identifier is withdrawn. Whatever the
changes, its trie stays placed and its counter right; the divisions that a full bucket may
bring about are no exception, since a division moves every contact to the side of its next
bit. `Table.WellFormed` says what this means for those who walk or list the table.
-/
namespace Overlay

namespace Bucket

variable {α : Type} {b : Bucket α} {capacity depth : Nat} {id : Id}

/-- Erasing keeps a bucket where it belongs. -/
theorem Belongs.erase (belongs : b.Belongs capacity id depth) (other : Id) :
    (b.erase other).Belongs capacity id depth :=
  { belongs with
    proper := belongs.proper.erase other
    agree := fun c member => belongs.agree c ((b.erase_sublist other).subset member) }

/-- A bucket with room takes a new contact that has its stem. -/
theorem Belongs.push {c : Contact α} (belongs : b.Belongs capacity c.id depth)
    (absent : c.id ∉ b.entries.map (·.id)) (room : b.entries.length < b.capacity) :
    (b.push c).Belongs capacity c.id depth :=
  { belongs with
    proper := belongs.proper.push c absent room
    agree := List.forall_mem_cons.mpr ⟨Id.AgreeTo.refl c.id depth, belongs.agree⟩ }

end Bucket

/-- What happens to a table. -/
inductive Table.Change (α : Type) where
  /-- A contact that has just been seen is offered. -/
  | offer (c : Contact α)
  /-- The contact of an identifier is removed. -/
  | withdraw (id : Id)

namespace Table

variable {α : Type}

/-- The table after one change. -/
def change (t : Table α) : Change α → Table α
  | .offer c => (t.add c).2
  | .withdraw id => (t.remove id).2

/-- The table after some changes, the first of the list first. -/
def after (t : Table α) (changes : List (Change α)) : Table α := changes.foldl change t

/-- The trie of the table is placed and its contacts are counted. -/
structure Sound (t : Table α) : Prop where
  /-- No bucket beyond the last bit is divided. -/
  shallow : t.maxDepth ≤ 256
  /-- Every bucket belongs to the path that leads to it. -/
  placed : t.trie.Placed t.capacity .zero 0
  /-- The counter is the number of contacts. -/
  counted : t.size = t.trie.entries.length

/-- What a table shows to those who walk or list it. -/
structure WellFormed (t : Table α) : Prop where
  /-- The leaf at the end of a path is shown as the region of the place that the path names. -/
  shown : ∀ path bucket, t.trie.at? path = some bucket ↔
    ⟨Id.zero.follow 0 path, path.length, bucket⟩ ∈ t.regions
  /-- No place is shown twice. -/
  once : (t.regions.map fun r => (r.stem, r.depth)).Nodup
  /-- Every identifier has the stem of exactly one region, the one where its walk ends. -/
  covered : ∀ id, ∃ stem, t.regions.filter (fun r => id.hasStem r.stem r.depth) =
    [⟨stem, t.depthOf id, t.bucketOf id⟩]
  /-- Every walk ends without asking for a bit beyond the last one. -/
  walked : ∀ id, t.trie.walk id 0 = .ok (t.bucketOf id, t.depthOf id)
  /-- Every contact is in the region whose stem it has. -/
  filed : ∀ r ∈ t.regions, ∀ c ∈ r.bucket.entries, c.id.hasStem r.stem r.depth = true
  /-- No bucket holds more contacts than its capacity. -/
  bounded : ∀ r ∈ t.regions, r.bucket.size ≤ t.capacity
  /-- No identifier is stored twice. -/
  distinct : (t.contacts.map (·.id)).Nodup
  /-- The counter is the number of contacts of all buckets. -/
  counted : t.size = (t.regions.map (·.bucket.size)).sum

/-! ## Single operations -/

/-- The zero identifier is the stem without bits. -/
theorem clearFrom_zero : Id.zero.ClearFrom 0 := fun i _ => Id.bit_zero i

/-- The bucket of an identifier belongs to it. -/
theorem Sound.bucketOf_belongs {t : Table α} (sound : t.Sound) (id : Id) :
    (t.bucketOf id).Belongs t.capacity id (t.depthOf id) :=
  sound.placed.locate_belongs clearFrom_zero (Id.AgreeTo.zero id .zero)

/-- A bucket that belongs to an identifier may take the place of its bucket. -/
theorem Sound.setBucket_placed {t : Table α} (sound : t.Sound) {id : Id} {bucket : Bucket α}
    (belongs : bucket.Belongs t.capacity id (t.depthOf id)) :
    (t.setBucket id bucket).trie.Placed t.capacity .zero 0 :=
  sound.placed.graft clearFrom_zero (Id.AgreeTo.zero id .zero)
    (fun _ _ agree => belongs.transfer agree)

/-- Exchanging a bucket changes the number of contacts by what the buckets differ in. -/
theorem setBucket_length (t : Table α) (id : Id) (bucket : Bucket α) :
    (t.setBucket id bucket).trie.entries.length + (t.bucketOf id).entries.length =
      t.trie.entries.length + bucket.entries.length := by
  obtain ⟨others, before, after⟩ := t.trie.exists_others id 0
  have old := before.length_eq
  have new := (after (.leaf bucket)).length_eq
  rw [List.length_append] at old new
  rw [setBucket, new, old, bucketOf, Trie.entries]
  omega

/-- What placing a contact comes to, by the state of its bucket. -/
theorem place_cases (t : Table α) (c : Contact α) :
    ((t.bucketOf c.id).contains c.id = true ∧ t.place c =
        (⟨.refreshed, none⟩, t.setBucket c.id (((t.bucketOf c.id).erase c.id).push c))) ∨
      ((t.bucketOf c.id).contains c.id = false ∧ (t.bucketOf c.id).isFull = true ∧
        t.place c = (⟨.full, (t.bucketOf c.id).stalest?⟩, t)) ∨
      ((t.bucketOf c.id).contains c.id = false ∧ (t.bucketOf c.id).isFull = false ∧
        t.place c = (⟨.added, none⟩, { t.setBucket c.id ((t.bucketOf c.id).push c) with
          size := t.size + 1, feed := t.feed.push c })) := by
  rcases (t.bucketOf c.id).add_cases c with ⟨stored, added⟩ | ⟨absent, full, added⟩ |
    ⟨absent, room, added⟩
  · exact .inl ⟨stored, by simp only [place, added]⟩
  · exact .inr (.inl ⟨absent, full, by simp only [place, added]⟩)
  · exact .inr (.inr ⟨absent, room, by simp only [place, added]⟩)

/-- What offering a contact comes to: it is placed as the table stands, unless its bucket is
full and may be divided, when it is placed in the divided table. -/
theorem add_cases (t : Table α) (c : Contact α) :
    t.add c = t.place c ∨ (t.divisible c.id = true ∧ t.add c = (t.divide c.id).place c) := by
  rcases t.place_cases c with ⟨-, placed⟩ | ⟨-, -, placed⟩ | ⟨-, -, placed⟩
  · exact .inl (by simp only [add, placed])
  · cases divisible : t.divisible c.id with
    | true => exact .inr ⟨rfl, by simp [add, placed, divisible]⟩
    | false => exact .inl (by simp [add, placed, divisible])
  · exact .inl (by simp only [add, placed])

/-- What removing an identifier comes to. -/
theorem remove_cases (t : Table α) (id : Id) :
    ((t.bucketOf id).contains id = true ∧ t.remove id =
        (true, { t.setBucket id ((t.bucketOf id).erase id) with size := t.size - 1 })) ∨
      ((t.bucketOf id).contains id = false ∧ t.remove id = (false, t)) := by
  cases stored : (t.bucketOf id).contains id with
  | true => exact .inl ⟨rfl, by simp [remove, stored]⟩
  | false => exact .inr ⟨rfl, by simp [remove, stored]⟩

/-- A bucket that may be divided is above the last depth and on the path of the home. -/
theorem divisible_place {t : Table α} {id : Id} (divisible : t.divisible id = true) :
    t.depthOf id < t.maxDepth ∧ id.hasStem t.home (t.depthOf id) = true := by
  simp only [Table.divisible, Bool.and_eq_true, decide_eq_true_eq] at divisible
  exact divisible.1.1

/-- A division moves contacts and neither adds nor drops any. -/
theorem divide_perm (t : Table α) (id : Id) :
    (t.divide id).trie.entries.Perm t.trie.entries := by
  obtain ⟨others, before, after⟩ := t.trie.exists_others id 0
  have halves := (t.bucketOf id).half_perm (t.depthOf id)
  exact (after _).trans ((halves.append_right others).trans before.symm)

/-- A division moves every contact to the side of its next bit. -/
theorem Sound.divide {t : Table α} (sound : t.Sound) {id : Id}
    (divisible : t.divisible id = true) : (t.divide id).Sound := by
  have inside : t.depthOf id < 256 :=
    Nat.lt_of_lt_of_le (divisible_place divisible).1 sound.shallow
  have belongs := sound.bucketOf_belongs id
  refine ⟨sound.shallow, ?_, ?_⟩
  · refine sound.placed.graft clearFrom_zero (Id.AgreeTo.zero id .zero) fun place clear agree => ?_
    exact ⟨inside, (belongs.transfer agree).half clear inside false,
      (belongs.transfer agree).half clear inside true⟩
  · calc t.size = t.trie.entries.length := sound.counted
      _ = (t.divide id).trie.entries.length := (t.divide_perm id).length_eq.symm

/-- Placing a contact keeps a table sound. -/
theorem Sound.place {t : Table α} (sound : t.Sound) (c : Contact α) : (t.place c).2.Sound := by
  have belongs := sound.bucketOf_belongs c.id
  have counted := sound.counted
  rcases t.place_cases c with ⟨stored, placed⟩ | ⟨-, -, placed⟩ | ⟨absent, room, placed⟩
  · have renewed := (belongs.erase c.id).push (belongs.proper.not_mem_erase c.id)
      (belongs.proper.room_erase stored)
    have freed := (t.bucketOf c.id).length_erase c.id stored
    have length := t.setBucket_length c.id (((t.bucketOf c.id).erase c.id).push c)
    rw [Bucket.length_push] at length
    rw [placed]
    refine ⟨sound.shallow, sound.setBucket_placed renewed, ?_⟩
    change t.size = (t.setBucket c.id _).trie.entries.length
    omega
  · rw [placed]
    exact sound
  · have grown := belongs.push (((t.bucketOf c.id).contains_eq_false_iff c.id).mp absent)
      (Bucket.room_of_not_full room)
    have length := t.setBucket_length c.id ((t.bucketOf c.id).push c)
    rw [Bucket.length_push] at length
    rw [placed]
    refine ⟨sound.shallow, sound.setBucket_placed grown, ?_⟩
    change t.size + 1 = (t.setBucket c.id _).trie.entries.length
    omega

/-- Offering a contact keeps a table sound, with a division or without. -/
theorem Sound.add {t : Table α} (sound : t.Sound) (c : Contact α) : (t.add c).2.Sound := by
  rcases t.add_cases c with added | ⟨divisible, added⟩
  · rw [added]
    exact sound.place c
  · rw [added]
    exact (sound.divide divisible).place c

/-- Removing an identifier keeps a table sound. -/
theorem Sound.remove {t : Table α} (sound : t.Sound) (id : Id) : (t.remove id).2.Sound := by
  rcases t.remove_cases id with ⟨stored, removed⟩ | ⟨-, removed⟩
  · rw [removed]
    refine ⟨sound.shallow, sound.setBucket_placed ((sound.bucketOf_belongs id).erase id), ?_⟩
    have length := t.setBucket_length id ((t.bucketOf id).erase id)
    have freed := (t.bucketOf id).length_erase id stored
    have counted := sound.counted
    change t.size - 1 = (t.setBucket id _).trie.entries.length
    omega
  · rw [removed]
    exact sound

/-! ## Runs -/

/-- A new table is sound; a depth beyond the last bit counts as the last bit. -/
theorem withDepth_sound (home : Id) (capacity maxDepth : Nat) :
    (withDepth home capacity maxDepth : Table α).Sound where
  shallow := Nat.min_le_right maxDepth Id.bitLength
  placed := ⟨Nat.zero_le 256, rfl, Bucket.empty_proper capacity, fun _ member => nomatch member⟩
  counted := rfl

/-- Every change keeps a table sound. -/
theorem Sound.change {t : Table α} (sound : t.Sound) (c : Change α) : (t.change c).Sound := by
  cases c with
  | offer c => exact sound.add c
  | withdraw id => exact sound.remove id

/-- Changes keep a table sound, however many there are. -/
theorem Sound.after {t : Table α} (sound : t.Sound) (changes : List (Change α)) :
    (t.after changes).Sound := by
  induction changes generalizing t with
  | nil => exact sound
  | cons c changes further => exact further (sound.change c)

/-- The parts of a table that no change touches. -/
def frame (t : Table α) : Id × Nat × Nat := (t.home, t.capacity, t.maxDepth)

/-- Placing a contact changes neither home nor limits. -/
theorem frame_place (t : Table α) (c : Contact α) : (t.place c).2.frame = t.frame := by
  rcases t.place_cases c with ⟨-, placed⟩ | ⟨-, -, placed⟩ | ⟨-, -, placed⟩ <;>
    exact congrArg (·.2.frame) placed

/-- No change touches home or limits. -/
theorem frame_change (t : Table α) (c : Change α) : (t.change c).frame = t.frame := by
  cases c with
  | offer c =>
    rw [change]
    rcases t.add_cases c with added | ⟨-, added⟩
    · rw [added, frame_place]
    · rw [added, frame_place]
      rfl
  | withdraw id =>
    rcases t.remove_cases id with ⟨-, removed⟩ | ⟨-, removed⟩ <;>
      exact congrArg (·.2.frame) removed

/-- Home and limits are the same after any changes. -/
theorem frame_after (t : Table α) (changes : List (Change α)) :
    (t.after changes).frame = t.frame := by
  induction changes generalizing t with
  | nil => rfl
  | cons c changes further => exact (further (t.change c)).trans (t.frame_change c)

/-! ## What a table shows -/

/-- The listed contacts are those of the trie. -/
theorem contacts_perm (t : Table α) : t.contacts.Perm t.trie.entries := by
  have order := List.mergeSort_perm t.regions fun a b => decide (a.depth ≤ b.depth)
  have entries := t.trie.regions_entries .zero 0
  rw [← entries]
  exact order.flatMap_right _

/-- A sound table is well formed. -/
theorem Sound.wellFormed {t : Table α} (sound : t.Sound) : t.WellFormed where
  shown path bucket := by
    have iff := sound.placed.at?_eq_some_iff clearFrom_zero path bucket
    rwa [Nat.zero_add] at iff
  once := sound.placed.regions_distinct clearFrom_zero
  covered id := sound.placed.filter_regions clearFrom_zero (Id.AgreeTo.zero id .zero)
  walked id := sound.placed.walk_eq id
  filed r member c stored := by
    have belongs := (sound.placed.region_belongs clearFrom_zero r member).2.2
    exact (Id.hasStem_iff c.id r.stem r.depth belongs.inside).mpr (belongs.agree c stored)
  bounded r member := by
    have belongs := (sound.placed.region_belongs clearFrom_zero r member).2.2
    rw [← belongs.sized]
    exact belongs.proper.bounded
  distinct := by
    rw [(t.contacts_perm.map (·.id)).nodup_iff]
    exact sound.placed.distinct clearFrom_zero
  counted := by
    rw [sound.counted, ← t.trie.regions_entries .zero 0, List.length_flatMap]
    rfl

end Table

end Overlay
