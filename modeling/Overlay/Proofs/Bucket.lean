import Mathlib.Data.List.Nodup
import Overlay.Bucket

/-!
# Properties of buckets

A proper bucket holds no more contacts than its capacity and no identifier twice. Every
operation on a bucket keeps it proper. Offering a contact has three outcomes, told apart by
whether the identifier is stored and whether there is room. The halves of a bucket are what its
contacts come to when they are dealt to two new buckets one by one, the stalest first.
-/
namespace Overlay

namespace Bucket

variable {α : Type}

/-- The bucket is within its capacity and stores no identifier twice. -/
structure Proper (b : Bucket α) : Prop where
  /-- There are no more contacts than the capacity. -/
  bounded : b.entries.length ≤ b.capacity
  /-- No identifier stands twice. -/
  distinct : (b.entries.map (·.id)).Nodup

/-- An identifier is stored exactly when it is the identifier of a contact. -/
theorem contains_iff (b : Bucket α) (id : Id) :
    b.contains id = true ↔ id ∈ b.entries.map (·.id) := by
  simp [contains, List.any_eq_true, List.mem_map]

/-- An identifier is not stored exactly when no contact has it. -/
theorem contains_eq_false_iff (b : Bucket α) (id : Id) :
    b.contains id = false ↔ id ∉ b.entries.map (·.id) := by
  rw [← contains_iff, Bool.not_eq_true]

/-- The empty bucket is proper. -/
theorem empty_proper (capacity : Nat) : (empty capacity : Bucket α).Proper :=
  ⟨Nat.zero_le capacity, List.nodup_nil⟩

/-- Erasing takes the stored contact out and leaves the others. -/
theorem erase_perm (b : Bucket α) (id : Id) (stored : b.contains id = true) :
    ∃ c, c.id = id ∧ b.entries.Perm (c :: (b.erase id).entries) := by
  obtain ⟨c, member, same⟩ := List.mem_map.mp ((contains_iff b id).mp stored)
  obtain ⟨found, before, after, -, holds, split, erased⟩ :=
    List.exists_of_eraseP (p := fun c => decide (c.id = id)) member (by simpa using same)
  refine ⟨found, by simpa using holds, ?_⟩
  rw [erase, erased, split]
  exact List.perm_middle

/-- Erasing an identifier that is stored frees one place. -/
theorem length_erase (b : Bucket α) (id : Id) (stored : b.contains id = true) :
    (b.erase id).entries.length + 1 = b.entries.length := by
  obtain ⟨c, -, perm⟩ := b.erase_perm id stored
  simpa using perm.length_eq.symm

/-- What is left after erasing was there before. -/
theorem erase_sublist (b : Bucket α) (id : Id) : (b.erase id).entries.Sublist b.entries :=
  List.eraseP_sublist

/-- Any part of a proper bucket is proper. -/
theorem Proper.of_sublist {b : Bucket α} (proper : b.Proper) {entries : List (Contact α)}
    (part : entries.Sublist b.entries) : ({ b with entries := entries } : Bucket α).Proper :=
  ⟨Nat.le_trans part.length_le proper.bounded, proper.distinct.sublist (part.map (·.id))⟩

/-- Erasing keeps a bucket proper. -/
theorem Proper.erase {b : Bucket α} (proper : b.Proper) (id : Id) : (b.erase id).Proper :=
  proper.of_sublist (b.erase_sublist id)

/-- Either half of a proper bucket is proper. -/
theorem Proper.half {b : Bucket α} (proper : b.Proper) (index : Nat) (value : Bool) :
    (b.half index value).Proper :=
  proper.of_sublist List.filter_sublist

/-- An erased identifier is not stored. -/
theorem Proper.not_mem_erase {b : Bucket α} (proper : b.Proper) (id : Id) :
    id ∉ (b.erase id).entries.map (·.id) := by
  by_cases stored : b.contains id = true
  · obtain ⟨c, rfl, perm⟩ := b.erase_perm id stored
    have distinct := (perm.map (·.id)).nodup_iff.mp proper.distinct
    exact (List.nodup_cons.mp distinct).1
  · intro member
    exact stored ((b.contains_iff id).mpr (((b.erase_sublist id).map (·.id)).subset member))

/-- The bucket with a contact in front. -/
def push (b : Bucket α) (c : Contact α) : Bucket α := { b with entries := c :: b.entries }

/-- A bucket that takes a contact has one more. -/
@[simp]
theorem length_push (b : Bucket α) (c : Contact α) :
    (b.push c).entries.length = b.entries.length + 1 := rfl

/-- What offering a contact comes to: a stored contact moves to the front, a full bucket stays
as it is, and any other bucket takes the contact in front. -/
theorem add_cases (b : Bucket α) (c : Contact α) :
    (b.contains c.id = true ∧ b.add c = (.refreshed, (b.erase c.id).push c)) ∨
      (b.contains c.id = false ∧ b.isFull = true ∧ b.add c = (.full, b)) ∨
      (b.contains c.id = false ∧ b.isFull = false ∧ b.add c = (.added, b.push c)) := by
  cases stored : b.contains c.id with
  | true => exact .inl ⟨rfl, by simp [add, stored, push, erase]⟩
  | false =>
    cases full : b.isFull with
    | true => exact .inr (.inl ⟨rfl, rfl, by simp [add, stored, full]⟩)
    | false => exact .inr (.inr ⟨rfl, rfl, by simp [add, stored, full, push]⟩)

/-- A proper bucket with room takes a new contact and stays proper. -/
theorem Proper.push {b : Bucket α} (proper : b.Proper) (c : Contact α)
    (absent : c.id ∉ b.entries.map (·.id)) (room : b.entries.length < b.capacity) :
    (b.push c).Proper :=
  ⟨room, List.nodup_cons.mpr ⟨absent, proper.distinct⟩⟩

/-- Erasing a stored contact makes room for it. -/
theorem Proper.room_erase {b : Bucket α} (proper : b.Proper) {id : Id}
    (stored : b.contains id = true) : (b.erase id).entries.length < (b.erase id).capacity := by
  have freed := b.length_erase id stored
  have bounded := proper.bounded
  change _ < b.capacity
  omega

/-- A bucket that is not full has room. -/
theorem room_of_not_full {b : Bucket α} (room : b.isFull = false) :
    b.entries.length < b.capacity := by
  simpa [isFull] using room

/-- The two halves of a bucket hold its contacts. -/
theorem half_perm (b : Bucket α) (index : Nat) :
    ((b.half index false).entries ++ (b.half index true).entries).Perm b.entries := by
  have parts := List.filter_append_perm (fun c : Contact α => decide (c.id.bit index = false))
    b.entries
  simpa [half] using parts

/-- A contact of a half has the value of the bit that the half stands for. -/
theorem mem_half (b : Bucket α) (index : Nat) (value : Bool) (c : Contact α) :
    c ∈ (b.half index value).entries ↔ c ∈ b.entries ∧ c.id.bit index = value := by
  simp [half]

/-! ## Dealing -/

/-- Offer a contact to the first of two buckets if its bit is clear, to the second one if it is
set. -/
def dealTo (index : Nat) (halves : Bucket α × Bucket α) (c : Contact α) : Bucket α × Bucket α :=
  if c.id.bit index then (halves.1, (halves.2.add c).2) else ((halves.1.add c).2, halves.2)

/-- Take all contacts out of a bucket and deal them to two new ones by a bit, the stalest first. -/
def deal (b : Bucket α) (index : Nat) : Bucket α × Bucket α :=
  b.entries.reverse.foldl (dealTo index) (empty b.capacity, empty b.capacity)

/-- A contact that is not stored goes in front of those that leave room for it. -/
theorem add_filter {c : Contact α} {rest : List (Contact α)} {capacity : Nat}
    (absent : c.id ∉ rest.map (·.id)) (room : rest.length < capacity)
    (test : Contact α → Bool) :
    (Bucket.add ⟨capacity, rest.filter test⟩ c).2 = ⟨capacity, c :: rest.filter test⟩ := by
  have fewer : (rest.filter test).length ≤ rest.length := List.length_filter_le ..
  have new : (⟨capacity, rest.filter test⟩ : Bucket α).contains c.id = false :=
    (contains_eq_false_iff _ _).mpr fun stored =>
      absent (((List.filter_sublist (p := test)).map Contact.id).subset stored)
  rcases add_cases ⟨capacity, rest.filter test⟩ c with ⟨stored, -⟩ | ⟨-, full, -⟩ | ⟨-, -, added⟩
  · rw [new] at stored
    cases stored
  · rw [isFull, decide_eq_true_iff] at full
    exact absurd (Nat.le_trans full fewer) (Nat.not_le_of_lt room)
  · rw [added]
    rfl

/-- Dealt one by one, the contacts of a proper bucket end up in its halves, in their order. -/
theorem Proper.deal_eq {b : Bucket α} (proper : b.Proper) (index : Nat) :
    b.deal index = (b.half index false, b.half index true) := by
  obtain ⟨capacity, entries⟩ := b
  obtain ⟨bounded, distinct⟩ := proper
  change entries.length ≤ capacity at bounded
  change entries.reverse.foldl (dealTo index) (empty capacity, empty capacity) =
    (⟨capacity, entries.filter fun c => c.id.bit index = false⟩,
      ⟨capacity, entries.filter fun c => c.id.bit index = true⟩)
  induction entries with
  | nil => rfl
  | cons c rest further =>
    obtain ⟨absent, others⟩ := List.nodup_cons.mp distinct
    rw [List.reverse_cons, List.foldl_append, further others (Nat.le_of_succ_le bounded),
      List.foldl_cons, List.foldl_nil, dealTo]
    cases bit : c.id.bit index with
    | false =>
      rw [if_neg Bool.false_ne_true, add_filter absent bounded]
      simp [bit]
    | true =>
      rw [if_pos rfl, add_filter absent bounded]
      simp [bit]

/-- Both halves hold a contact just when neither none nor all of the contacts have the bit set. -/
theorem halves_hold_eq (b : Bucket α) (index : Nat) :
    (!(b.half index true).isEmpty && !(b.half index false).isEmpty) =
      (decide ((b.entries.countP fun c => c.id.bit index) ≠ 0) &&
        decide ((b.entries.countP fun c => c.id.bit index) ≠ b.size)) := by
  rw [Bool.eq_iff_iff]
  simp only [half, isEmpty, size, Bool.and_eq_true, Bool.not_eq_true', List.isEmpty_eq_false_iff,
    decide_eq_true_iff, ne_eq, List.filter_eq_nil_iff, List.countP_eq_zero, List.countP_eq_length,
    Bool.decide_eq_true, Bool.not_eq_false]

end Bucket

end Overlay
