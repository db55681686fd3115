import Mathlib.Data.List.Induction
import Overlay.Proofs.Contents

/-!
# The latest change of an identifier

A table is a map with a clock. What it holds for an identifier is settled by the latest change of
this identifier that took effect; the moment of this change is when the identifier was last seen.
Every bucket stands in the order of these moments, the latest first, however often the buckets
have been divided. The stalest contact of a full bucket is therefore the one not seen for
longest.
-/
namespace Overlay

namespace Trie

variable {α : Type}

/-- Every bucket has a property. -/
def Holds (P : Bucket α → Prop) : Trie α → Prop
  | leaf bucket => P bucket
  | branch zero one => zero.Holds P ∧ one.Holds P

variable {P Q : Bucket α → Prop} {trie : Trie α} {capacity depth : Nat} {stem id : Id}

/-- What holds of every bucket holds of the buckets of all regions. -/
theorem holds_iff (trie : Trie α) (stem : Id) (depth : Nat) :
    trie.Holds P ↔ ∀ r ∈ trie.regions stem depth, P r.bucket := by
  induction trie generalizing stem depth with
  | leaf bucket => simp [Holds, regions]
  | branch zero one zeroHolds oneHolds =>
    rw [Holds, regions_branch, List.forall_mem_append, ← zeroHolds, ← oneHolds]

/-- What holds of every bucket holds of the one at which an identifier arrives. -/
theorem Holds.locate (holds : trie.Holds P) (id : Id) (depth : Nat) :
    P (trie.locate id depth).1 := by
  induction trie generalizing depth with
  | leaf bucket => exact holds
  | branch zero one zeroHolds oneHolds =>
    rw [Trie.locate]
    split
    · exact oneHolds holds.2 (depth + 1)
    · exact zeroHolds holds.1 (depth + 1)

/-- A property passes to another one that follows from it for contacts of the trie. -/
theorem Holds.imp (holds : trie.Holds P)
    (follows : ∀ b : Bucket α, b.entries ⊆ trie.entries → P b → Q b) : trie.Holds Q := by
  induction trie with
  | leaf bucket => exact follows bucket (List.Subset.refl _) holds
  | branch zero one zeroHolds oneHolds =>
    constructor
    · refine zeroHolds holds.1 fun b within => follows b ?_
      exact List.subset_append_of_subset_left _ within
    · refine oneHolds holds.2 fun b within => follows b ?_
      exact List.subset_append_of_subset_right _ within

/-- Grafting keeps what holds of every bucket if it holds of the new ones. -/
theorem Holds.graft (holds : trie.Holds P) (id : Id) (depth : Nat) {replacement : Trie α}
    (fits : replacement.Holds P) : (trie.graft id depth replacement).Holds P := by
  induction trie generalizing depth with
  | leaf bucket => exact fits
  | branch zero one zeroHolds oneHolds =>
    rw [Trie.graft]
    split
    · exact ⟨holds.1, oneHolds holds.2 (depth + 1)⟩
    · exact ⟨zeroHolds holds.1 (depth + 1), holds.2⟩

/-- In a placed trie, a property that follows from another one for every bucket without an
identifier holds after the bucket of this identifier has been exchanged. -/
theorem Placed.holds_graft (placed : trie.Placed capacity stem depth)
    (clear : stem.ClearFrom depth) (holds : trie.Holds P)
    (follows : ∀ b : Bucket α, (∀ c ∈ b.entries, c.id ≠ id) → P b → Q b)
    {replacement : Trie α} (fits : replacement.Holds Q) :
    (trie.graft id depth replacement).Holds Q := by
  induction trie generalizing stem depth with
  | leaf bucket => exact fits
  | branch zero one zeroHolds oneHolds =>
    obtain ⟨clearBit, setBit⟩ := placed.bit_eq clear
    obtain ⟨inside, low, high⟩ := placed
    rw [Trie.graft]
    cases bit : id.bit depth with
    | false =>
      rw [if_neg Bool.false_ne_true]
      refine ⟨zeroHolds low (clear.prolong inside false) holds.1, ?_⟩
      refine holds.2.imp fun b within => follows b fun c stored same => ?_
      -- The identifier has another bit than the contacts of this side.
      rw [← same, setBit c (within stored)] at bit
      exact Bool.noConfusion bit
    | true =>
      rw [if_pos rfl]
      refine ⟨?_, oneHolds high (clear.prolong inside true) holds.2⟩
      refine holds.1.imp fun b within => follows b fun c stored same => ?_
      rw [← same, clearBit c (within stored)] at bit
      exact Bool.noConfusion bit

end Trie

namespace Table

variable {α : Type}

/-! ## Moments -/

/-- The change was made at a moment, took effect, and no later change of the same identifier has
taken effect. Moments are counted by the changes before them. -/
structure Latest (start : Table α) (changes : List (Change α)) (moment : Nat)
    (change : Change α) : Prop where
  /-- The change was made at this moment. -/
  made : changes[moment]? = some change
  /-- It took effect. -/
  effective : (start.after (changes.take moment)).takesEffect change = true
  /-- Later changes of the identifier did not. -/
  last : ∀ later other, moment < later → changes[later]? = some other → other.id = change.id →
    (start.after (changes.take later)).takesEffect other = false

/-- The first contact was last seen after the second one. -/
def Fresher (start : Table α) (changes : List (Change α)) (a b : Contact α) : Prop :=
  ∃ i j, Latest start changes i (.offer a) ∧ Latest start changes j (.offer b) ∧ j < i

section Moments

variable {start : Table α} {changes : List (Change α)} {change next : Change α} {i j : Nat}

/-- There is at most one latest change of an identifier. -/
theorem Latest.unique {other : Change α} (first : Latest start changes i change)
    (second : Latest start changes j other) (same : other.id = change.id) : i = j := by
  rcases Nat.lt_trichotomy i j with before | equal | after
  · have none := first.last j other before second.made same
    rw [second.effective] at none
    cases none
  · exact equal
  · have none := second.last i change after first.made same.symm
    rw [first.effective] at none
    cases none

/-- A latest change was made before now. -/
theorem Latest.lt_length (latest : Latest start changes i change) : i < changes.length :=
  (List.getElem?_eq_some_iff.mp latest.made).1

/-- One more change is the latest one of its identifier if it takes effect; the latest changes of
the other identifiers, or of all, stay what they are. -/
theorem latest_snoc (start : Table α) (changes : List (Change α)) (next : Change α) (i : Nat)
    (change : Change α) :
    Latest start (changes ++ [next]) i change ↔
      (i = changes.length ∧ change = next ∧ (start.after changes).takesEffect next = true) ∨
        (Latest start changes i change ∧
          ¬(change.id = next.id ∧ (start.after changes).takesEffect next = true)) := by
  have now : (changes ++ [next])[changes.length]? = some next := List.getElem?_concat_length
  have whole : (changes ++ [next]).take changes.length = changes := List.take_left
  have earlier {m : Nat} (before : m < changes.length) :
      (changes ++ [next])[m]? = changes[m]? ∧ (changes ++ [next]).take m = changes.take m :=
    ⟨List.getElem?_append_left before, List.take_append_of_le_length (Nat.le_of_lt before)⟩
  constructor
  · intro latest
    have bound : i < changes.length + 1 := by simpa using latest.lt_length
    rcases Nat.lt_succ_iff_lt_or_eq.mp bound with before | rfl
    · obtain ⟨place, past⟩ := earlier before
      refine .inr ⟨⟨place ▸ latest.made, past ▸ latest.effective, ?_⟩, ?_⟩
      · intro later other after made same
        have inside := (List.getElem?_eq_some_iff.mp made).1
        obtain ⟨place', past'⟩ := earlier inside
        have none := latest.last later other after (place'.trans made) same
        rwa [past'] at none
      · rintro ⟨same, effective⟩
        have none := latest.last changes.length next before now same.symm
        rw [whole, effective] at none
        cases none
    · have same : change = next := Option.some.inj (latest.made.symm.trans now)
      have effective := latest.effective
      rw [whole, same] at effective
      exact .inl ⟨rfl, same, effective⟩
  · rintro (⟨rfl, rfl, effective⟩ | ⟨latest, others⟩)
    · refine ⟨now, by rwa [whole], ?_⟩
      intro later other after made
      have inside : later < changes.length + 1 := by
        simpa using (List.getElem?_eq_some_iff.mp made).1
      omega
    · obtain ⟨place, past⟩ := earlier latest.lt_length
      refine ⟨place.trans latest.made, past ▸ latest.effective, ?_⟩
      intro later other after made same
      have inside : later < changes.length + 1 := by
        simpa using (List.getElem?_eq_some_iff.mp made).1
      rcases Nat.lt_succ_iff_lt_or_eq.mp inside with before | rfl
      · obtain ⟨place', past'⟩ := earlier before
        rw [past']
        exact latest.last later other after (place'.symm.trans made) same
      · obtain rfl : next = other := Option.some.inj (now.symm.trans made)
        rw [whole]
        cases effective : (start.after changes).takesEffect next with
        | false => rfl
        | true => exact absurd ⟨same.symm, effective⟩ others

/-- The order of two contacts stays as it is when one more change decides neither of them. -/
theorem Fresher.snoc {a b : Contact α} (fresher : Fresher start changes a b)
    (first : ¬(a.id = next.id ∧ (start.after changes).takesEffect next = true))
    (second : ¬(b.id = next.id ∧ (start.after changes).takesEffect next = true)) :
    Fresher start (changes ++ [next]) a b := by
  obtain ⟨i, j, left, right, before⟩ := fresher
  exact ⟨i, j, (latest_snoc ..).mpr (.inr ⟨left, first⟩),
    (latest_snoc ..).mpr (.inr ⟨right, second⟩), before⟩

/-- The order of two contacts does not depend on a change without effect. -/
theorem fresher_snoc_iff (ineffective : (start.after changes).takesEffect next = false)
    (a b : Contact α) :
    Fresher start (changes ++ [next]) a b ↔ Fresher start changes a b := by
  have same (i : Nat) (change : Change α) :
      Latest start (changes ++ [next]) i change ↔ Latest start changes i change := by
    rw [latest_snoc, ineffective]
    simp
  simp only [Fresher, same]

/-- One contact is not last seen both before and after another one. -/
theorem Fresher.asymm {a b : Contact α} (fresher : Fresher start changes a b) :
    ¬Fresher start changes b a := by
  rintro ⟨j', i', right', left', after⟩
  obtain ⟨i, j, left, right, before⟩ := fresher
  have first := left.unique left' rfl
  have second := right.unique right' rfl
  omega

end Moments

/-! ## The table as a map with a clock -/

/-- The bucket stands in the order in which its contacts were last seen, the latest first. -/
def InOrder (start : Table α) (changes : List (Change α)) (b : Bucket α) : Prop :=
  b.entries.Pairwise (Fresher start changes)

/-- One more change of a table. -/
theorem after_snoc (start : Table α) (changes : List (Change α)) (next : Change α) :
    start.after (changes ++ [next]) = (start.after changes).change next :=
  List.foldl_concat ..

section Order

variable {start : Table α} {changes : List (Change α)} {next : Change α} {b : Bucket α}

/-- Any part of a bucket in order is in order. -/
theorem InOrder.of_sublist (ordered : InOrder start changes b) {entries : List (Contact α)}
    (part : entries.Sublist b.entries) : InOrder start changes { b with entries := entries } :=
  List.Pairwise.sublist part ordered

/-- A bucket stays in order when one more change decides none of its contacts. -/
theorem InOrder.snoc (ordered : InOrder start changes b)
    (others : ∀ c ∈ b.entries, ¬(c.id = next.id ∧ (start.after changes).takesEffect next = true)) :
    InOrder start (changes ++ [next]) b := by
  refine List.Pairwise.imp_of_mem ?_ ordered
  intro c d first second fresher
  exact fresher.snoc (others c first) (others d second)

/-- A contact that is offered and taken was last seen after all others. -/
theorem fresher_of_taken {c d : Contact α}
    (taken : (start.after changes).takesEffect (.offer c) = true)
    (seen : ∃ j, Latest start changes j (.offer d)) (other : d.id ≠ c.id) :
    Fresher start (changes ++ [.offer c]) c d := by
  obtain ⟨j, latest⟩ := seen
  refine ⟨changes.length, j, ?_, ?_, latest.lt_length⟩
  · exact (latest_snoc ..).mpr (.inl ⟨rfl, rfl, taken⟩)
  · exact (latest_snoc ..).mpr (.inr ⟨latest, fun same => other same.1⟩)

end Order

/-- The table is what its changes say. -/
structure Remembers (start : Table α) (changes : List (Change α)) : Prop where
  /-- The contacts are those whose offer is the latest change of their identifier. -/
  held : ∀ c, c ∈ (start.after changes).trie.entries ↔ ∃ i, Latest start changes i (.offer c)
  /-- Every bucket is in order. -/
  ordered : (start.after changes).trie.Holds (InOrder start changes)

namespace Remembers

variable {start : Table α} {changes : List (Change α)}

/-- A table without contacts remembers that nothing has happened. -/
theorem empty (home : Id) (capacity maxDepth : Nat) :
    Remembers (withDepth home capacity maxDepth : Table α) [] where
  held c := by
    constructor
    · intro absurd
      cases absurd
    · rintro ⟨i, latest⟩
      have made := latest.made
      simp at made
  ordered := List.Pairwise.nil

/-- What is held after one more change is what its offer or an earlier one brought. -/
theorem held_snoc (remembers : Remembers start changes) (sound : (start.after changes).Sound)
    (next : Change α) (c : Contact α) : c ∈ (start.after (changes ++ [next])).trie.entries ↔
      ∃ i, Latest start (changes ++ [next]) i (.offer c) := by
  rw [after_snoc, sound.mem_change, remembers.held c]
  simp only [latest_snoc]
  constructor
  · rintro (⟨effective, rfl⟩ | ⟨⟨i, latest⟩, others⟩)
    · exact ⟨changes.length, .inl ⟨rfl, rfl, effective⟩⟩
    · exact ⟨i, .inr ⟨latest, others⟩⟩
  · rintro ⟨i, ⟨-, same, effective⟩ | ⟨latest, others⟩⟩
    · exact .inl ⟨effective, same.symm⟩
    · exact .inr ⟨⟨i, latest⟩, others⟩

/-- An offer brings its contact to the front, if it is taken, and leaves all others in order. -/
theorem ordered_offer (remembers : Remembers start changes) (sound : (start.after changes).Sound)
    (c : Contact α) : ((start.after changes).add c).2.trie.Holds
      (InOrder start (changes ++ [.offer c])) := by
  obtain ⟨base, added, based, perm, origin⟩ := sound.add_place c
  have ordered : base.trie.Holds (InOrder start changes) := by
    rcases origin with rfl | rfl
    · exact remembers.ordered
    · -- Either half of a divided bucket keeps its order.
      have whole := remembers.ordered.locate c.id 0
      exact remembers.ordered.graft c.id 0
        ⟨whole.of_sublist List.filter_sublist, whole.of_sublist List.filter_sublist⟩
  rw [added]
  by_cases full : (base.place c).1.outcome = .full
  · have ineffective : ¬(start.after changes).takesEffect (.offer c) = true := by
      simp [takesEffect, added, full]
    rw [base.place_full c full]
    exact ordered.imp fun b _ inOrder => inOrder.snoc fun _ _ same => ineffective same.2
  · have taken : (start.after changes).takesEffect (.offer c) = true := by
      simp [takesEffect, added, full]
    have proper := (based.bucketOf_belongs c.id).proper
    obtain ⟨size, feed, placed⟩ := base.place_taken c full
    rw [placed]
    refine based.placed.holds_graft clearFrom_zero ordered ?_ ?_
    · intro b absent inOrder
      exact inOrder.snoc fun d stored same => absent d stored same.1
    · have whole : InOrder start changes (base.bucketOf c.id) := ordered.locate c.id 0
      have behind := whole.of_sublist ((base.bucketOf c.id).erase_sublist c.id)
      refine List.pairwise_cons.mpr ⟨fun d left => ?_, ?_⟩
      · obtain ⟨stored, other⟩ := (proper.mem_erase c.id d).mp left
        have held := perm.subset (base.held_of_mem_bucketOf stored)
        exact fresher_of_taken taken ((remembers.held d).mp held) other
      · exact behind.snoc fun d left same => ((proper.mem_erase c.id d).mp left).2 same.1

/-- A withdrawal leaves all other contacts in order. -/
theorem ordered_withdraw (remembers : Remembers start changes)
    (sound : (start.after changes).Sound) (id : Id) :
    ((start.after changes).remove id).2.trie.Holds
      (InOrder start (changes ++ [.withdraw id])) := by
  rcases (start.after changes).remove_cases id with ⟨stored, removed⟩ | ⟨absent, removed⟩
  · have proper := (sound.bucketOf_belongs id).proper
    rw [removed]
    refine sound.placed.holds_graft clearFrom_zero remembers.ordered ?_ ?_
    · intro b absent inOrder
      exact inOrder.snoc fun d stored same => absent d stored same.1
    · have whole : InOrder start changes ((start.after changes).bucketOf id) :=
        remembers.ordered.locate id 0
      have left := whole.of_sublist (((start.after changes).bucketOf id).erase_sublist id)
      exact left.snoc fun d member same => ((proper.mem_erase id d).mp member).2 same.1
  · rw [removed]
    refine remembers.ordered.imp fun b within inOrder => inOrder.snoc fun d stored same => ?_
    have held := sound.mem_bucketOf (within stored)
    rw [Bucket.contains_eq_false_iff] at absent
    rw [show d.id = id from same.1] at held
    exact absent (List.mem_map.mpr ⟨d, held, same.1⟩)

/-- A table remembers one more change. -/
theorem snoc (remembers : Remembers start changes) (sound : (start.after changes).Sound)
    (next : Change α) : Remembers start (changes ++ [next]) := by
  refine ⟨remembers.held_snoc sound next, ?_⟩
  rw [after_snoc]
  cases next with
  | offer c => exact remembers.ordered_offer sound c
  | withdraw id => exact remembers.ordered_withdraw sound id

/-- A table remembers all its changes. -/
theorem after (home : Id) (capacity maxDepth : Nat) (changes : List (Change α)) :
    Remembers (withDepth home capacity maxDepth) changes := by
  -- From the end, since the moment of a change is the number of changes before it.
  induction changes using List.reverseRecOn with
  | nil => exact empty home capacity maxDepth
  | append_singleton earlier next further =>
    exact further.snoc ((withDepth_sound home capacity maxDepth).after earlier) next

end Remembers

/-- A contact that is turned down finds in its bucket the stalest one that is named. -/
theorem add_full (t : Table α) (c : Contact α) (full : (t.add c).1.outcome = .full) :
    (t.add c).1.stalest = ((t.add c).2.bucketOf c.id).stalest? := by
  rcases t.add_cases c with added | ⟨-, added⟩
  · rw [added] at full ⊢
    rw [t.place_full c full]
  · rw [added] at full ⊢
    rw [(t.divide c.id).place_full c full]

/-- The stalest contact of a bucket in order is the one that all others are fresher than. -/
theorem InOrder.stalest?_eq_some_iff {start : Table α} {changes : List (Change α)} {b : Bucket α}
    (ordered : InOrder start changes b) (c : Contact α) :
    b.stalest? = some c ↔
      c ∈ b.entries ∧ ∀ d ∈ b.entries, d ≠ c → Fresher start changes d c := by
  unfold Bucket.stalest?
  unfold InOrder at ordered
  rcases List.eq_nil_or_concat b.entries with empty | ⟨front, last, split⟩
  · simp [empty]
  · rw [List.concat_eq_append] at split
    rw [split] at ordered ⊢
    have before := (List.pairwise_append.mp ordered).2.2
    rw [List.getLast?_concat, Option.some.injEq]
    constructor
    · rintro rfl
      refine ⟨by simp, fun d stored other => ?_⟩
      rcases List.mem_append.mp stored with first | behind
      · exact before d first last (List.mem_singleton.mpr rfl)
      · exact absurd (List.mem_singleton.mp behind) other
    · rintro ⟨stored, fresher⟩
      rcases List.mem_append.mp stored with first | behind
      · by_contra other
        have after := before c first last (List.mem_singleton.mpr rfl)
        exact (fresher last (by simp) other).asymm after
      · exact (List.mem_singleton.mp behind).symm

/-- Whatever is offered to a new table and withdrawn from it: what is found for an identifier is
what its latest effective change brought, and no change of another identifier touches it; every
bucket lists its contacts in strictly decreasing order of the moments at which they were last
seen; and the contact named when an offer is turned down is the one of the bucket that was not
seen for longest. -/
theorem latest_after (home : Id) (capacity maxDepth : Nat) (changes : List (Change α)) :
    let start : Table α := withDepth home capacity maxDepth
    let t := start.after changes
    (∀ id info, (t.get? id).map (·.info) = some info ↔
      ∃ i, Latest start changes i (.offer ⟨id, info⟩)) ∧
    (∀ change : Change α, ∀ id, change.id ≠ id → (t.change change).get? id = t.get? id) ∧
    (∀ r ∈ t.regions, r.bucket.entries.Pairwise (Fresher start changes)) ∧
    ∀ c, (t.add c).1.outcome = .full → ∀ s, (t.add c).1.stalest = some s ↔
      s ∈ ((t.add c).2.bucketOf c.id).entries ∧
        ∀ d ∈ ((t.add c).2.bucketOf c.id).entries, d ≠ s → Fresher start changes d s := by
  intro start t
  have sound : t.Sound := (withDepth_sound home capacity maxDepth).after changes
  have remembers : Remembers start changes := Remembers.after home capacity maxDepth changes
  refine ⟨fun id info => ?_, fun change id other => ?_, ?_, fun c full s => ?_⟩
  · rw [Option.map_eq_some_iff]
    constructor
    · rintro ⟨c, found, rfl⟩
      obtain ⟨held, rfl⟩ := (sound.get?_eq_some_iff id c).mp found
      exact (remembers.held c).mp held
    · intro latest
      have held := (remembers.held ⟨id, info⟩).mpr latest
      exact ⟨⟨id, info⟩, (sound.get?_eq_some_iff id _).mpr ⟨held, rfl⟩, rfl⟩
  · ext c
    rw [(sound.change change).get?_eq_some_iff, sound.get?_eq_some_iff, sound.mem_change]
    constructor
    · rintro ⟨⟨-, rfl⟩ | ⟨held, -⟩, same⟩
      · exact absurd same other
      · exact ⟨held, same⟩
    · rintro ⟨held, rfl⟩
      exact ⟨.inr ⟨held, fun same => other same.1.symm⟩, rfl⟩
  · exact (Trie.holds_iff t.trie .zero 0).mp remembers.ordered
  · have ineffective : t.takesEffect (.offer c) = false := by simp [takesEffect, full]
    have ordered := (remembers.ordered_offer sound c).locate c.id 0
    rw [t.add_full c full]
    simp only [← fresher_snoc_iff ineffective]
    exact ordered.stalest?_eq_some_iff s

end Table

end Overlay
