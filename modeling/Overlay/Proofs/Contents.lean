import Overlay.Proofs.Table

/-!
# What a table holds

A change concerns one identifier. If it takes effect, it decides what the table holds for this
identifier; in any case the table holds for all others what it held before, however the
buckets are divided. A contact is found by its identifier exactly when it is held.
-/
namespace Overlay

namespace Bucket

variable {α : Type}

/-- An identifier that is not stored cannot be erased. -/
theorem erase_of_absent (b : Bucket α) {id : Id} (absent : b.contains id = false) :
    b.erase id = b := by
  have none : ∀ c ∈ b.entries, ¬decide (c.id = id) = true := by
    intro c stored same
    rw [contains_eq_false_iff] at absent
    exact absent (List.mem_map.mpr ⟨c, stored, of_decide_eq_true same⟩)
  rw [erase, List.eraseP_of_forall_not none]

/-- What is left after erasing an identifier are the contacts that do not have it. -/
theorem Proper.mem_erase {b : Bucket α} (proper : b.Proper) (id : Id) (c : Contact α) :
    c ∈ (b.erase id).entries ↔ c ∈ b.entries ∧ c.id ≠ id := by
  constructor
  · intro left
    refine ⟨(b.erase_sublist id).subset left, ?_⟩
    rintro rfl
    exact proper.not_mem_erase c.id (List.mem_map_of_mem left)
  · rintro ⟨stored, other⟩
    rw [Bucket.erase, List.mem_eraseP_of_neg]
    · exact stored
    · simpa using other

/-- The bucket after a contact has come to its front, whether it was stored before or not. -/
def renew (b : Bucket α) (c : Contact α) : Bucket α := (b.erase c.id).push c

/-- After its renewal a bucket holds the contact and those with another identifier. -/
theorem Proper.mem_renew {b : Bucket α} (proper : b.Proper) (c d : Contact α) :
    d ∈ (b.renew c).entries ↔ d = c ∨ d ∈ b.entries ∧ d.id ≠ c.id := by
  rw [renew, Bucket.push, List.mem_cons, proper.mem_erase]

/-- A proper bucket holds at most one contact of an identifier, which is the one found. -/
theorem Proper.get?_eq_some_iff {b : Bucket α} (proper : b.Proper) (id : Id) (c : Contact α) :
    b.get? id = some c ↔ c ∈ b.entries ∧ c.id = id := by
  unfold get?
  constructor
  · intro found
    exact ⟨List.mem_of_find?_eq_some found, by simpa using List.find?_some found⟩
  · rintro ⟨stored, rfl⟩
    have some : (b.entries.find? fun d => decide (d.id = c.id)).isSome = true := by
      rw [List.find?_isSome]
      exact ⟨c, stored, decide_eq_true rfl⟩
    obtain ⟨d, found⟩ := Option.isSome_iff_exists.mp some
    have same : d.id = c.id := by simpa using List.find?_some found
    have equal : d = c :=
      List.inj_on_of_nodup_map proper.distinct (List.mem_of_find?_eq_some found) stored same
    rw [found, equal]

end Bucket

/-- The identifier that a change concerns. -/
def Table.Change.id {α : Type} : Table.Change α → Id
  | .offer c => c.id
  | .withdraw id => id

namespace Table

variable {α : Type}

/-- The change is a withdrawal, or an offer that is not turned down. -/
def takesEffect (t : Table α) : Change α → Bool
  | .offer c => decide ((t.add c).1.outcome ≠ .full)
  | .withdraw _ => true

/-! ## Finding -/

/-- A contact in a bucket is held. -/
theorem held_of_mem_bucketOf (t : Table α) {id : Id} {c : Contact α}
    (stored : c ∈ (t.bucketOf id).entries) : c ∈ t.trie.entries := by
  obtain ⟨others, before, -⟩ := t.trie.exists_others id 0
  exact before.symm.subset (List.mem_append_left others stored)

/-- A contact that is held is in the bucket of its identifier. -/
theorem Sound.mem_bucketOf {t : Table α} (sound : t.Sound) {c : Contact α}
    (held : c ∈ t.trie.entries) : c ∈ (t.bucketOf c.id).entries :=
  sound.placed.mem_locate clearFrom_zero held (Id.AgreeTo.refl c.id _)

/-- A contact of an identifier is found exactly when it is held. -/
theorem Sound.get?_eq_some_iff {t : Table α} (sound : t.Sound) (id : Id) (c : Contact α) :
    t.get? id = some c ↔ c ∈ t.trie.entries ∧ c.id = id := by
  rw [get?, (sound.bucketOf_belongs id).proper.get?_eq_some_iff]
  constructor
  · rintro ⟨stored, same⟩
    exact ⟨t.held_of_mem_bucketOf stored, same⟩
  · rintro ⟨held, rfl⟩
    exact ⟨sound.mem_bucketOf held, rfl⟩

/-- An identifier is stored exactly when a contact with it is held. -/
theorem Sound.contains_iff {t : Table α} (sound : t.Sound) (id : Id) :
    t.contains id = true ↔ ∃ c ∈ t.trie.entries, c.id = id := by
  rw [contains, Bucket.contains_iff, List.mem_map]
  constructor
  · rintro ⟨c, stored, same⟩
    exact ⟨c, t.held_of_mem_bucketOf stored, same⟩
  · rintro ⟨c, held, rfl⟩
    exact ⟨c, sound.mem_bucketOf held, rfl⟩

/-! ## Changing -/

/-- Exchanging the bucket of an identifier leaves the contacts outside it as they are. -/
theorem Sound.mem_setBucket {t : Table α} (sound : t.Sound) (id : Id) (bucket : Bucket α)
    (c : Contact α) : c ∈ (t.setBucket id bucket).trie.entries ↔
      c ∈ bucket.entries ∨ c ∈ t.trie.entries ∧ c ∉ (t.bucketOf id).entries := by
  obtain ⟨others, before, after⟩ := t.trie.exists_others id 0
  have nodup : t.trie.entries.Nodup := (sound.placed.distinct clearFrom_zero).of_map _
  have apart := List.nodup_append.mp (before.nodup nodup)
  have outside : c ∈ others ↔ c ∈ t.trie.entries ∧ c ∉ (t.bucketOf id).entries := by
    rw [before.mem_iff, List.mem_append]
    constructor
    · intro other
      exact ⟨.inr other, fun stored => apart.2.2 c stored c other rfl⟩
    · rintro ⟨stored | other, absent⟩
      · exact absurd stored absent
      · exact other
  rw [setBucket, (after (.leaf bucket)).mem_iff, List.mem_append, outside, Trie.entries]

/-- A contact that is not turned down comes to the front of its bucket. -/
theorem place_taken (t : Table α) (c : Contact α) (taken : (t.place c).1.outcome ≠ .full) :
    ∃ size feed, (t.place c).2 =
      { t.setBucket c.id ((t.bucketOf c.id).renew c) with size := size, feed := feed } := by
  rcases t.place_cases c with ⟨-, placed⟩ | ⟨-, -, placed⟩ | ⟨absent, -, placed⟩
  · exact ⟨t.size, t.feed, by rw [placed]; rfl⟩
  · rw [placed] at taken
    exact absurd rfl taken
  · refine ⟨t.size + 1, t.feed.push c, ?_⟩
    rw [placed, Bucket.renew, Bucket.erase_of_absent _ absent]

/-- A contact that is turned down leaves the table as it is and names the stalest contact of its
bucket. -/
theorem place_full (t : Table α) (c : Contact α) (full : (t.place c).1.outcome = .full) :
    t.place c = (⟨.full, (t.bucketOf c.id).stalest?⟩, t) := by
  rcases t.place_cases c with ⟨-, placed⟩ | ⟨-, -, placed⟩ | ⟨-, -, placed⟩
  · rw [placed] at full
    cases full
  · exact placed
  · rw [placed] at full
    cases full

/-- An offer of an identifier that is stored brings the contact offered to the front of the bucket,
in the place of the stored one, and changes nothing else. -/
theorem add_stored (t : Table α) {c : Contact α} (stored : t.contains c.id = true) :
    t.add c = (⟨.refreshed, none⟩, t.setBucket c.id ((t.bucketOf c.id).renew c)) := by
  rcases t.place_cases c with ⟨-, placed⟩ | ⟨absent, -⟩ | ⟨absent, -⟩
  · simp only [add, placed, Bucket.renew]
  · rw [contains, absent] at stored
    cases stored
  · rw [contains, absent] at stored
    cases stored

/-- An offer is placed in the table or in the divided table, which holds the same. -/
theorem Sound.add_place {t : Table α} (sound : t.Sound) (c : Contact α) :
    ∃ base : Table α, t.add c = base.place c ∧ base.Sound ∧
      base.trie.entries.Perm t.trie.entries ∧ (base = t ∨ base = t.divide c.id) := by
  rcases t.add_cases c with added | ⟨divisible, added⟩
  · exact ⟨t, added, sound, List.Perm.refl _, .inl rfl⟩
  · exact ⟨t.divide c.id, added, sound.divide divisible, t.divide_perm c.id, .inr rfl⟩

/-- A table holds what it is offered, if it takes it, and what it held for other identifiers. -/
theorem Sound.mem_add {t : Table α} (sound : t.Sound) (c d : Contact α) :
    d ∈ (t.add c).2.trie.entries ↔
      ((t.add c).1.outcome ≠ .full ∧ d = c) ∨
        (d ∈ t.trie.entries ∧ ¬(d.id = c.id ∧ (t.add c).1.outcome ≠ .full)) := by
  obtain ⟨base, added, based, perm, -⟩ := sound.add_place c
  rw [added, ← perm.mem_iff]
  by_cases full : (base.place c).1.outcome = .full
  · rw [base.place_full c full]
    simp
  · obtain ⟨size, feed, placed⟩ := base.place_taken c full
    have proper := (based.bucketOf_belongs c.id).proper
    have member := based.mem_setBucket c.id ((base.bucketOf c.id).renew c) d
    rw [placed]
    change d ∈ (base.setBucket c.id ((base.bucketOf c.id).renew c)).trie.entries ↔ _
    rw [member, proper.mem_renew]
    constructor
    · rintro ((rfl | ⟨stored, other⟩) | ⟨held, outside⟩)
      · exact .inl ⟨full, rfl⟩
      · exact .inr ⟨base.held_of_mem_bucketOf stored, fun same => other same.1⟩
      · refine .inr ⟨held, fun same => outside ?_⟩
        rw [← same.1]
        exact based.mem_bucketOf held
    · rintro (⟨-, rfl⟩ | ⟨held, other⟩)
      · exact .inl (.inl rfl)
      · have different : d.id ≠ c.id := fun same => other ⟨same, full⟩
        by_cases stored : d ∈ (base.bucketOf c.id).entries
        · exact .inl (.inr ⟨stored, different⟩)
        · exact .inr ⟨held, stored⟩

/-- A table from which an identifier is removed holds what it held for other identifiers. -/
theorem Sound.mem_remove {t : Table α} (sound : t.Sound) (id : Id) (c : Contact α) :
    c ∈ (t.remove id).2.trie.entries ↔ c ∈ t.trie.entries ∧ c.id ≠ id := by
  have proper := (sound.bucketOf_belongs id).proper
  rcases t.remove_cases id with ⟨stored, removed⟩ | ⟨absent, removed⟩
  · rw [removed]
    change c ∈ (t.setBucket id ((t.bucketOf id).erase id)).trie.entries ↔ _
    rw [sound.mem_setBucket, proper.mem_erase]
    constructor
    · rintro (⟨stored, other⟩ | ⟨held, outside⟩)
      · exact ⟨t.held_of_mem_bucketOf stored, other⟩
      · refine ⟨held, ?_⟩
        rintro rfl
        exact outside (sound.mem_bucketOf held)
    · rintro ⟨held, other⟩
      by_cases stored : c ∈ (t.bucketOf id).entries
      · exact .inl ⟨stored, other⟩
      · exact .inr ⟨held, stored⟩
  · rw [removed]
    refine ⟨fun held => ⟨held, ?_⟩, And.left⟩
    rintro rfl
    rw [Bucket.contains_eq_false_iff] at absent
    exact absent (List.mem_map_of_mem (sound.mem_bucketOf held))

/-- An offer stores its own identifier at most, and drops none. -/
theorem Sound.contains_add_iff {t : Table α} (sound : t.Sound) (c : Contact α) (id : Id) :
    (t.add c).2.contains id = true ↔
      t.contains id = true ∨ (t.add c).1.outcome ≠ .full ∧ c.id = id := by
  rw [(sound.add c).contains_iff, sound.contains_iff]
  simp only [sound.mem_add]
  constructor
  · rintro ⟨d, ⟨taken, rfl⟩ | ⟨held, -⟩, same⟩
    · exact .inr ⟨taken, same⟩
    · exact .inl ⟨d, held, same⟩
  · rintro (⟨d, held, same⟩ | ⟨taken, same⟩)
    · by_cases decided : d.id = c.id ∧ (t.add c).1.outcome ≠ .full
      · exact ⟨c, .inl ⟨decided.2, rfl⟩, decided.1.symm.trans same⟩
      · exact ⟨d, .inr ⟨held, decided⟩, same⟩
    · exact ⟨c, .inl ⟨taken, rfl⟩, same⟩

/-- A removal drops its own identifier and no other. -/
theorem Sound.contains_remove_iff {t : Table α} (sound : t.Sound) (gone id : Id) :
    (t.remove gone).2.contains id = true ↔ t.contains id = true ∧ id ≠ gone := by
  rw [(sound.remove gone).contains_iff, sound.contains_iff]
  simp only [sound.mem_remove]
  constructor
  · rintro ⟨c, ⟨held, other⟩, rfl⟩
    exact ⟨⟨c, held, rfl⟩, other⟩
  · rintro ⟨⟨c, held, rfl⟩, other⟩
    exact ⟨c, ⟨held, other⟩, rfl⟩

/-- After a change a table holds the contact that the change brought, if it took effect, and what
it held before for the identifiers that the change did not decide. -/
theorem Sound.mem_change {t : Table α} (sound : t.Sound) (change : Change α) (c : Contact α) :
    c ∈ (t.change change).trie.entries ↔
      (t.takesEffect change = true ∧ change = .offer c) ∨
        (c ∈ t.trie.entries ∧ ¬(c.id = change.id ∧ t.takesEffect change = true)) := by
  cases change with
  | offer d =>
    rw [Table.change, sound.mem_add, takesEffect, decide_eq_true_iff, Change.id, Change.offer.injEq]
    exact or_congr_left (and_congr_right' eq_comm)
  | withdraw id =>
    rw [Table.change, sound.mem_remove, takesEffect, Change.id]
    simp

end Table

end Overlay
