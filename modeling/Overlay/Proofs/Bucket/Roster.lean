import Overlay.Proofs.Latest

/-!
# Buckets as plain lists

A bucket does what is done to a plain list of contacts, a roster: a contact that is listed moves to
the front with its new information, another one is put there while there is room, and a withdrawn
identifier is taken out of the list, whose order stays. A bucket is also a routing table that is
never divided. So what is known of the moments at which the contacts of a table were last seen holds
of those of a bucket: the stalest contact is the one that was not seen for longest.
-/
namespace Overlay

variable {α : Type}

namespace Roster

/-- The contacts with other identifiers, in the same order. -/
def others (roster : List (Contact α)) (id : Id) : List (Contact α) :=
  roster.filter fun c => c.id ≠ id

/-- Offer a contact that has just been seen to a roster with room for so many. -/
def offer (capacity : Nat) (roster : List (Contact α)) (c : Contact α) :
    Outcome × List (Contact α) :=
  if c.id ∈ roster.map (·.id) then (.refreshed, c :: others roster c.id)
  else if roster.length < capacity then (.added, c :: roster)
  else (.full, roster)

/-- The roster after one change. -/
def change (capacity : Nat) (roster : List (Contact α)) : Table.Change α → List (Contact α)
  | .offer c => (offer capacity roster c).2
  | .withdraw id => others roster id

/-- The roster after some changes of an empty one, the first of the list first. -/
def after (capacity : Nat) (changes : List (Table.Change α)) : List (Contact α) :=
  changes.foldl (change capacity) []

end Roster

namespace Bucket

/-- The bucket after one change. -/
def change (b : Bucket α) : Table.Change α → Bucket α
  | .offer c => (b.add c).2
  | .withdraw id => b.erase id

/-- The bucket after some changes, the first of the list first. -/
def after (b : Bucket α) (changes : List (Table.Change α)) : Bucket α := changes.foldl change b

/-- The change is a withdrawal, or an offer that is not turned down. -/
def takesEffect (b : Bucket α) : Table.Change α → Bool
  | .offer c => decide ((b.add c).1 ≠ .full)
  | .withdraw _ => true

/-- The contact was last seen at a moment: it was offered and taken then, and no later change of its
identifier has taken effect. Moments are counted by the changes before them. -/
structure LastSeen (start : Bucket α) (changes : List (Table.Change α)) (moment : Nat)
    (c : Contact α) : Prop where
  /-- It was offered at this moment. -/
  offered : changes[moment]? = some (.offer c)
  /-- It was taken. -/
  taken : (start.after (changes.take moment)).takesEffect (.offer c) = true
  /-- Later changes of the identifier had no effect. -/
  last : ∀ later change, moment < later → changes[later]? = some change → change.id = c.id →
    (start.after (changes.take later)).takesEffect change = false

/-! ## The list of a bucket -/

section Lists

variable {b : Bucket α}

/-- Erasing an identifier leaves the contacts with others, in the same order. -/
theorem Proper.entries_erase (proper : b.Proper) (id : Id) :
    (b.erase id).entries = Roster.others b.entries id := by
  obtain ⟨-, distinct⟩ := proper
  unfold Bucket.erase Roster.others
  obtain ⟨capacity, entries⟩ := b
  dsimp only at distinct ⊢
  induction entries with
  | nil => rfl
  | cons c rest further =>
    obtain ⟨new, distinct⟩ := List.nodup_cons.mp distinct
    by_cases same : c.id = id
    · -- The identifier stands nowhere else, so that the filter takes out nothing more.
      have apart : ∀ d ∈ rest, decide (d.id ≠ id) = true := by
        intro d member
        refine decide_eq_true fun other => new ?_
        exact List.mem_map.mpr ⟨d, member, other.trans same.symm⟩
      rw [List.eraseP_cons, decide_eq_true same, List.filter_cons_of_neg (by simpa using same),
        List.filter_eq_self.mpr apart]
      rfl
    · rw [List.eraseP_cons, decide_eq_false same, List.filter_cons_of_pos (by simpa using same),
        further distinct]
      rfl

/-- A proper bucket takes an offer as its roster does. -/
theorem Proper.add_roster (proper : b.Proper) (c : Contact α) :
    ((b.add c).1, (b.add c).2.entries) = Roster.offer b.capacity b.entries c := by
  unfold Roster.offer
  rcases b.add_cases c with ⟨stored, added⟩ | ⟨absent, full, added⟩ | ⟨absent, room, added⟩
  · rw [if_pos ((b.contains_iff c.id).mp stored), added, ← proper.entries_erase]
    rfl
  · have filled : ¬b.entries.length < b.capacity := by simpa [isFull] using full
    rw [if_neg ((b.contains_eq_false_iff c.id).mp absent), if_neg filled, added]
  · rw [if_neg ((b.contains_eq_false_iff c.id).mp absent), if_pos (room_of_not_full room), added]
    rfl

/-- A change keeps a bucket proper. -/
theorem Proper.change (proper : b.Proper) (change : Table.Change α) : (b.change change).Proper := by
  cases change with
  | withdraw id => exact proper.erase id
  | offer c =>
    rw [Bucket.change]
    rcases b.add_cases c with ⟨stored, added⟩ | ⟨-, -, added⟩ | ⟨absent, room, added⟩
    · rw [added]
      exact (proper.erase c.id).push c (proper.not_mem_erase c.id) (proper.room_erase stored)
    · rw [added]
      exact proper
    · rw [added]
      exact proper.push c ((b.contains_eq_false_iff c.id).mp absent) (room_of_not_full room)

/-- A change leaves the capacity as it is. -/
theorem capacity_change (b : Bucket α) (change : Table.Change α) :
    (b.change change).capacity = b.capacity := by
  cases change with
  | withdraw id => rfl
  | offer c =>
    rw [Bucket.change]
    rcases b.add_cases c with ⟨-, added⟩ | ⟨-, -, added⟩ | ⟨-, -, added⟩ <;> rw [added] <;> rfl

/-- A change does to a proper bucket what it does to its roster. -/
theorem Proper.entries_change (proper : b.Proper) (change : Table.Change α) :
    (b.change change).entries = Roster.change b.capacity b.entries change := by
  cases change with
  | withdraw id => exact proper.entries_erase id
  | offer c => exact congrArg Prod.snd (proper.add_roster c)

end Lists

/-- After any changes a bucket is proper, has its capacity, and holds what its roster lists. -/
theorem after_empty (capacity : Nat) (changes : List (Table.Change α)) :
    let b : Bucket α := (empty capacity).after changes
    b.Proper ∧ b.capacity = capacity ∧ b.entries = Roster.after capacity changes := by
  induction changes using List.reverseRecOn with
  | nil => exact ⟨empty_proper capacity, rfl, rfl⟩
  | append_singleton earlier next further =>
    obtain ⟨proper, sized, listed⟩ := further
    have last : (empty capacity : Bucket α).after (earlier ++ [next]) =
        ((empty capacity : Bucket α).after earlier).change next := List.foldl_concat ..
    have roster : Roster.after capacity (earlier ++ [next]) =
        Roster.change capacity (Roster.after capacity earlier) next := List.foldl_concat ..
    dsimp only
    rw [last, roster]
    refine ⟨proper.change next, (capacity_change _ next).trans sized, ?_⟩
    rw [proper.entries_change, sized, listed]

/-! ## Buckets as tables -/

/-- A table that is one bucket takes an offer as the bucket does, if it is not to be divided. -/
theorem add_undivided {t : Table α} {b : Bucket α} (whole : t.trie = .leaf b)
    (shallow : t.maxDepth = 0) (c : Contact α) :
    (t.add c).1.outcome = (b.add c).1 ∧ (t.add c).2.trie = .leaf (b.add c).2 := by
  have own : t.bucketOf c.id = b := by rw [Table.bucketOf, whole, Trie.locate]
  have grafted (bucket : Bucket α) : (t.setBucket c.id bucket).trie = .leaf bucket := by
    rw [Table.setBucket, whole, Trie.graft]
  have placed : t.add c = t.place c := by
    rcases t.add_cases c with same | ⟨divisible, -⟩
    · exact same
    · have deeper := (Table.divisible_place divisible).1
      rw [shallow] at deeper
      exact absurd deeper (Nat.not_lt_zero _)
  rw [placed]
  rcases b.add_cases c with ⟨-, added⟩ | ⟨-, -, added⟩ | ⟨-, -, added⟩
  · simp only [Table.place, own, added, grafted, and_self]
  · simp only [Table.place, own, added, whole, and_self]
  · simp only [Table.place, own, added, grafted, and_self]

/-- A table that is never divided is one bucket, which has gone through the same changes. -/
theorem trie_after (capacity : Nat) (changes : List (Table.Change α)) :
    ((Table.withDepth .zero capacity 0).after changes).trie =
      .leaf ((empty capacity : Bucket α).after changes) := by
  induction changes using List.reverseRecOn with
  | nil => rfl
  | append_singleton earlier next whole =>
    have last : (empty capacity : Bucket α).after (earlier ++ [next]) =
        ((empty capacity : Bucket α).after earlier).change next := List.foldl_concat ..
    have frame := Table.frame_after (Table.withDepth .zero capacity 0 : Table α) earlier
    have shallow : ((Table.withDepth .zero capacity 0 : Table α).after earlier).maxDepth = 0 :=
      congrArg (·.2.2) frame
    rw [Table.after_snoc, last]
    generalize (Table.withDepth .zero capacity 0 : Table α).after earlier = t at whole shallow
    generalize (empty capacity : Bucket α).after earlier = b at whole
    cases next with
    | offer c => exact (add_undivided whole shallow c).2
    | withdraw id =>
      rcases t.remove_cases id with ⟨-, removed⟩ | ⟨absent, removed⟩
      · rw [Table.change, removed, Table.setBucket, Table.bucketOf, whole]
        rfl
      · rw [Table.bucketOf, whole] at absent
        rw [Table.change, removed, whole, Bucket.change, erase_of_absent b absent]

/-- What takes effect on a bucket takes effect on a table that is never divided. -/
theorem takesEffect_after (capacity : Nat) (changes : List (Table.Change α))
    (next : Table.Change α) :
    ((Table.withDepth .zero capacity 0).after changes).takesEffect next =
      ((empty capacity : Bucket α).after changes).takesEffect next := by
  have frame := Table.frame_after (Table.withDepth .zero capacity 0 : Table α) changes
  have whole := trie_after capacity changes
  cases next with
  | offer c =>
    rw [Table.takesEffect, takesEffect, (add_undivided whole (congrArg (·.2.2) frame) c).1]
  | withdraw id => rfl

/-- When a contact was last seen is the moment of the latest change of its identifier. -/
theorem lastSeen_iff {capacity moment : Nat} {changes : List (Table.Change α)} {c : Contact α} :
    (empty capacity).LastSeen changes moment c ↔
      Table.Latest (Table.withDepth .zero capacity 0) changes moment (.offer c) := by
  constructor
  · rintro ⟨offered, taken, last⟩
    refine ⟨offered, ?_, fun later other after made same => ?_⟩
    · rwa [takesEffect_after]
    · rw [takesEffect_after]
      exact last later other after made same
  · rintro ⟨made, effective, last⟩
    refine ⟨made, ?_, fun later other after made same => ?_⟩
    · rwa [← takesEffect_after]
    · rw [← takesEffect_after]
      exact last later other after made same

/-- The stalest contact is the one that was last seen before all others. -/
theorem stalest?_after (capacity : Nat) (changes : List (Table.Change α)) (c : Contact α) :
    ((empty capacity : Bucket α).after changes).stalest? = some c ↔
      ∃ moment, (empty capacity).LastSeen changes moment c ∧
        ∀ d other, (empty capacity).LastSeen changes other d → moment ≤ other := by
  have remembers := Table.Remembers.after (α := α) .zero capacity 0 changes
  have whole := trie_after (α := α) capacity changes
  have held (d : Contact α) : d ∈ ((empty capacity : Bucket α).after changes).entries ↔
      ∃ moment, (empty capacity).LastSeen changes moment d := by
    have held := remembers.held d
    rw [whole, Trie.entries] at held
    simpa only [lastSeen_iff] using held
  have ordered := remembers.ordered
  rw [whole] at ordered
  rw [Table.InOrder.stalest?_eq_some_iff ordered]
  simp only [Table.Fresher, ← lastSeen_iff]
  constructor
  · rintro ⟨stored, fresher⟩
    obtain ⟨moment, seen⟩ := (held c).mp stored
    refine ⟨moment, seen, fun d other seen' => ?_⟩
    by_cases same : d = c
    · rw [same, lastSeen_iff] at seen'
      exact Nat.le_of_eq ((lastSeen_iff.mp seen).unique seen' rfl)
    · obtain ⟨i, j, first, second, before⟩ := fresher d ((held d).mpr ⟨other, seen'⟩) same
      rw [lastSeen_iff] at seen seen' first second
      have left := first.unique seen' rfl
      have right := second.unique seen rfl
      omega
  · rintro ⟨moment, seen, earliest⟩
    refine ⟨(held c).mpr ⟨moment, seen⟩, fun d stored other => ?_⟩
    obtain ⟨later, seen'⟩ := (held d).mp stored
    refine ⟨later, moment, seen', seen, Nat.lt_of_le_of_ne (earliest d later seen') ?_⟩
    rintro rfl
    -- At one moment only one contact is offered.
    have both := seen'.offered.symm.trans seen.offered
    exact other (Table.Change.offer.inj (Option.some.inj both))

/-- Whatever is offered to a new bucket of any capacity and withdrawn from it: it never holds more
contacts than its capacity, nor an identifier twice; its contacts are those of the roster that has
gone through the same changes, in the same order, and it takes the next offer as the roster does;
the contacts held are those that were last seen at some moment, and the stalest one is the one whose
moment is the earliest. -/
theorem roster_after (capacity : Nat) (changes : List (Table.Change α)) :
    let start : Bucket α := empty capacity
    let b := start.after changes
    b.entries.length ≤ capacity ∧ (b.entries.map (·.id)).Nodup ∧
      b.entries = Roster.after capacity changes ∧
      (∀ c, (b.add c).1 = (Roster.offer capacity (Roster.after capacity changes) c).1) ∧
      (∀ id, b.contains id = true ↔ ∃ moment c, start.LastSeen changes moment c ∧ c.id = id) ∧
      ∀ c, b.stalest? = some c ↔ ∃ moment, start.LastSeen changes moment c ∧
        ∀ d other, start.LastSeen changes other d → moment ≤ other := by
  intro start b
  obtain ⟨proper, sized, listed⟩ : b.Proper ∧ b.capacity = capacity ∧
    b.entries = Roster.after capacity changes := after_empty capacity changes
  refine ⟨sized ▸ proper.bounded, proper.distinct, listed, fun c => ?_, fun id => ?_,
    stalest?_after capacity changes⟩
  · rw [← listed, ← sized]
    exact congrArg Prod.fst (proper.add_roster c)
  · have remembers := Table.Remembers.after (α := α) .zero capacity 0 changes
    have held (c : Contact α) := remembers.held c
    simp only [trie_after, Trie.entries, ← lastSeen_iff] at held
    rw [contains_iff, List.mem_map]
    constructor
    · rintro ⟨c, stored, same⟩
      obtain ⟨moment, seen⟩ := (held c).mp stored
      exact ⟨moment, c, seen, same⟩
    · rintro ⟨moment, c, seen, same⟩
      exact ⟨c, (held c).mpr ⟨moment, seen⟩, same⟩

end Bucket

end Overlay
