import Overlay.Proofs.Nearest
import Overlay.Proofs.Walk.Knowledge

/-!
# What brings a walk closer

A walk keeps the smallest distance that it has seen, beginning with that of its seeds, and notes
whether an answer has brought a smaller one. So it has come closer exactly when some identifier
that it was told lies strictly closer to the target than every one before it.
-/
namespace Overlay

variable {α : Type}

namespace Id

/-- Some of these identifiers is strictly closer to the target than all that were seen before. -/
def Nears (target : Id) (seen fresh : List Id) : Prop :=
  ∃ id ∈ fresh, ∀ old ∈ seen, target.distance id < target.distance old

section Nears

variable {target id : Id} {seen fresh more : List Id}

/-- Nothing comes closer without identifiers. -/
theorem not_nears_nil (target : Id) (seen : List Id) : ¬target.Nears seen [] := by
  rintro ⟨id, member, -⟩
  cases member

/-- A single identifier comes closer when it is closer than all that were seen. -/
theorem nears_singleton :
    target.Nears seen [id] ↔ ∀ old ∈ seen, target.distance id < target.distance old := by
  simp [Nears]

/-- Identifiers do not come closer when each of them is as far away as something seen. -/
theorem exists_le_of_not_nears (far : ¬target.Nears seen fresh) (member : id ∈ fresh) :
    ∃ old ∈ seen, target.gap old ≤ target.gap id := by
  by_contra none
  refine far ⟨id, member, fun old before => ?_⟩
  rw [distance_lt_iff]
  exact Nat.lt_of_not_le fun farther => none ⟨old, before, farther⟩

/-- Of two stretches of identifiers, the first comes closer, or the second does after it. -/
theorem nears_append :
    target.Nears seen (fresh ++ more) ↔
      target.Nears seen fresh ∨ target.Nears (seen ++ fresh) more := by
  constructor
  · rintro ⟨id, member, closer⟩
    by_cases first : target.Nears seen fresh
    · exact .inl first
    have later : id ∈ more := by
      rcases List.mem_append.mp member with early | later
      · exact absurd ⟨id, early, closer⟩ first
      · exact later
    refine .inr ⟨id, later, fun other before => ?_⟩
    rcases List.mem_append.mp before with old | early
    · exact closer other old
    · obtain ⟨old, seen, nearer⟩ := exists_le_of_not_nears first early
      exact Nat.lt_of_lt_of_le (closer old seen) nearer
  · rintro (⟨id, member, closer⟩ | ⟨id, member, closer⟩)
    · exact ⟨id, List.mem_append_left _ member, closer⟩
    · exact ⟨id, List.mem_append_right _ member,
        fun old before => closer old (List.mem_append_left _ before)⟩

end Nears

end Id

namespace Walk

/-- The smallest distance that the walk keeps is the one of these identifiers. -/
def Measures (w : Walk α) (known : List Id) : Prop :=
  ∀ id, w.isCloser (w.target.distance id) = true ↔
    ∀ old ∈ known, w.target.distance id < w.target.distance old

section Measures

variable {w : Walk α} {known asked passed : List Id}

/-- What is as far away as something seen does not come closer. -/
theorem not_nears_of_le {target id old : Id} (seen : old ∈ known)
    (farther : target.gap old ≤ target.gap id) : ¬target.Nears known [id] := by
  intro nears
  have closer := Id.nears_singleton.mp nears old seen
  rw [Id.distance_lt_iff] at closer
  omega

/-- A node that was seen changes nothing. -/
theorem Measures.offer_seen (measures : w.Measures known) (knows : w.Knows known asked passed)
    (home : Id) {c : Contact α} (old : c.id ∈ w.seen) :
    (w.offer home c).Measures (known ++ [c.id]) ∧
      ((w.offer home c).improved = true ↔ w.improved = true ∨ w.target.Nears known [c.id]) := by
  have already := (knows.seen c.id).mp old
  rw [w.offer_of_seen home c old]
  refine ⟨fun id => (measures id).trans ?_, ?_⟩
  · refine forall_congr' fun other => ?_
    rw [List.mem_append, List.mem_singleton, or_iff_left_of_imp fun same => same ▸ already]
  · exact (or_iff_left (not_nears_of_le already (Nat.le_refl _))).symm

/-- A node that was not seen has its distance taken into account. -/
theorem Measures.offer_new (measures : w.Measures known) (home : Id) {c : Contact α}
    (new : c.id ∉ w.seen) :
    (w.offer home c).Measures (known ++ [c.id]) ∧
      ((w.offer home c).improved = true ↔ w.improved = true ∨ w.target.Nears known [c.id]) := by
  have lacks : ¬w.seen.contains c.id = true := fun contains =>
    new (List.contains_iff_mem.mp contains)
  rw [offer, if_neg lacks]
  dsimp only
  cases better : w.isCloser (w.target.distance c.id) with
  | true =>
    have closer := (measures c.id).mp better
    refine ⟨fun id => ?_, ?_⟩
    · show decide (w.target.distance id < w.target.distance c.id) = true ↔ _
      rw [decide_eq_true_iff]
      constructor
      · intro near old member
        rcases List.mem_append.mp member with before | now
        · exact Nat.lt_trans near (closer old before)
        · rw [List.mem_singleton.mp now]
          exact near
      · exact fun all => all c.id (List.mem_append_right _ (List.mem_singleton.mpr rfl))
    · show (w.improved || true) = true ↔ _
      simp [Id.nears_singleton.mpr closer]
  | false =>
    -- Something that was seen is at least as close as the node.
    have far : ¬w.target.Nears known [c.id] := by
      rw [Id.nears_singleton, ← measures c.id, better]
      exact Bool.false_ne_true
    obtain ⟨nearest, seen, farther⟩ := Id.exists_le_of_not_nears far (List.mem_singleton_self _)
    refine ⟨fun id => (measures id).trans ?_, ?_⟩
    · constructor
      · intro all old member
        rcases List.mem_append.mp member with before | now
        · exact all old before
        · rw [List.mem_singleton.mp now]
          exact Nat.lt_of_lt_of_le (all nearest seen) farther
      · exact fun all old member => all old (List.mem_append_left _ member)
    · show (w.improved || false) = true ↔ _
      rw [Bool.or_false]
      exact (or_iff_left far).symm

/-- Recording a node takes its distance into account, and notes whether it is the smallest. -/
theorem Measures.offer (measures : w.Measures known) (knows : w.Knows known asked passed)
    (home : Id) (c : Contact α) :
    (w.offer home c).Measures (known ++ [c.id]) ∧
      ((w.offer home c).improved = true ↔ w.improved = true ∨ w.target.Nears known [c.id]) := by
  by_cases old : c.id ∈ w.seen
  · exact measures.offer_seen knows home old
  · exact measures.offer_new home old

/-- Recording the nodes of an answer takes their distances into account, and notes whether any of
them came closer. -/
theorem Measures.offerAll (measures : w.Measures known) (knows : w.Knows known asked passed)
    (home : Id) (contacts : List (Contact α)) :
    (w.offerAll home contacts).Measures (known ++ contacts.map (·.id)) ∧
      ((w.offerAll home contacts).improved = true ↔
        w.improved = true ∨ w.target.Nears known (contacts.map (·.id))) := by
  induction contacts generalizing w known with
  | nil =>
    rw [List.map_nil, List.append_nil]
    exact ⟨measures, (or_iff_left (Id.not_nears_nil _ _)).symm⟩
  | cons c rest further =>
    obtain ⟨first, improved⟩ := measures.offer knows home c
    have aimed : (w.offer home c).target = w.target := by
      obtain ⟨_, _, _, _, _, frame⟩ := w.offerAll_frame home [c]
      have same := congrArg Walk.target frame
      exact same
    obtain ⟨last, later⟩ := further first (knows.offer home c)
    have split : (c :: rest).map (·.id) = [c.id] ++ rest.map (·.id) := rfl
    rw [Walk.offerAll, List.foldl_cons, ← Walk.offerAll, split, ← List.append_assoc,
      Id.nears_append, ← or_assoc]
    rw [aimed, improved] at later
    exact ⟨last, later⟩

/-- A new walk keeps the smallest distance of its seeds. -/
theorem start_measures (n : Node α) (target : Id) (sound : n.table.Sound) :
    (Walk.start n target).Measures ((n.seeds target n.config.k).map (·.id)) := by
  have ascending : Contact.Ascending target (n.seeds target n.config.k) :=
    sound.closest_ascending target n.config.k none false
  intro id
  unfold Walk.start isCloser
  cases seeds : n.seeds target n.config.k with
  | nil => simp
  | cons first rest =>
    rw [seeds] at ascending
    obtain ⟨front, -⟩ := List.pairwise_cons.mp ascending
    show decide (target.distance id < target.distance first.id) = true ↔ _
    rw [decide_eq_true_iff, List.map_cons, List.forall_mem_cons]
    refine (and_iff_left_of_imp fun near old member => ?_).symm
    obtain ⟨c, behind, rfl⟩ := List.mem_map.mp member
    exact Nat.lt_trans near (front c behind)

end Measures

end Walk

end Overlay
