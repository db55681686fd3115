import Mathlib.Algebra.GroupWithZero.Nat
import Mathlib.Data.List.Dedup
import Mathlib.Data.List.Induction
import Mathlib.Data.List.Perm.Subperm
import Overlay.CoolDown
import Overlay.Proofs.Recency

/-!
# Which nodes are cooling down

The marks of unreachable nodes are followed through everything that can happen to them: nodes are
marked, cleared and looked up while the clock goes forward. The order of the marks is the order of
marking throughout, although expired marks are dropped both by sweeping and on sight. Sweeping can
therefore stop at the first mark that has not expired, and a full map loses its oldest mark. A node
is cooling down only by its latest mark, and it is for as long as there is room for the marks that
follow.
-/
namespace Overlay

namespace CoolDown

/-! ## Single operations -/

section Operations

variable (c : CoolDown) (now : Nat) (id : Id)

/-- Looking a node up at most clears it, and only when its mark has expired. -/
theorem isCooling_cases :
    (c.isCooling now id).2 = c ∨
      ((c.isCooling now id).2 = c.clear id ∧
        ∃ since, c.marks.peek? id = some since ∧ c.expired now since = true) := by
  unfold isCooling
  cases found : c.marks.peek? id with
  | none => exact .inl rfl
  | some since =>
    cases expired : c.expired now since with
    | true => exact .inr ⟨by simp [expired], since, rfl, expired⟩
    | false => exact .inl (by simp [expired])

/-- A node is cooling down when its mark is kept and has not expired. -/
theorem isCooling_iff :
    (c.isCooling now id).1 = true ↔
      ∃ since, c.marks.peek? id = some since ∧ c.expired now since = false := by
  unfold isCooling
  cases found : c.marks.peek? id with
  | none => simp
  | some since => cases expired : c.expired now since <;> simp [expired]

/-- A mark has not expired while it is younger than the cool-down. -/
theorem expired_eq_false_iff {since : Nat} :
    c.expired now since = false ↔ now - since < c.period := by
  rw [expired, decide_eq_false_iff_not, Nat.not_le]

end Operations

/-! ## What happens to the marks -/

/-- What can happen to the marks of unreachable nodes. -/
inductive Act where
  /-- A node fails and is marked. -/
  | mark (id : Id)
  /-- A node is forgotten. -/
  | clear (id : Id)
  /-- A node is looked up. -/
  | look (id : Id)
  /-- The clock goes forward. -/
  | wait (millis : Nat)

/-- The nodes marked by some acts, in order. -/
def marked (acts : List Act) : List Id :=
  acts.filterMap fun
    | .mark id => some id
    | _ => none

/-- The time that passes over some acts. -/
def elapsed (acts : List Act) : Nat :=
  (acts.map fun
    | .wait millis => millis
    | _ => 0).sum

/-- The marks, together with the time on the clock. -/
structure Timed where
  /-- Milliseconds since the clock was started. -/
  now : Nat
  /-- The marks at that time. -/
  cool : CoolDown

/-- The marks after an act. -/
def Timed.act (t : Timed) : Act → Timed
  | .mark id => { t with cool := t.cool.mark t.now id }
  | .clear id => { t with cool := t.cool.clear id }
  | .look id => { t with cool := (t.cool.isCooling t.now id).2 }
  | .wait millis => { t with now := t.now + millis }

/-- Perform some acts, starting without marks. -/
def play (period capacity : Nat) (acts : List Act) : Timed :=
  acts.foldl Timed.act ⟨0, empty period capacity⟩

/-- The latest mark of a node stands right before these last acts, and none of them clears it. -/
def Stands (acts : List Act) (id : Id) (since : List Act) : Prop :=
  (∃ before, acts = before ++ .mark id :: since) ∧ .mark id ∉ since ∧ .clear id ∉ since

section Acts

variable (acts : List Act) (act : Act) {id : Id} {since : List Act}

/-- One more act is performed last. -/
theorem play_append (period capacity : Nat) :
    play period capacity (acts ++ [act]) = (play period capacity acts).act act :=
  List.foldl_append

/-- Marks of two stretches of acts. -/
theorem marked_append (more : List Act) : marked (acts ++ more) = marked acts ++ marked more :=
  List.filterMap_append

/-- Time over two stretches of acts. -/
theorem elapsed_append (more : List Act) :
    elapsed (acts ++ more) = elapsed acts + elapsed more := by
  rw [elapsed, List.map_append, List.sum_append]
  rfl

variable {acts act}

/-- The latest mark stays the latest unless the node is marked again or cleared. -/
theorem Stands.later (stands : Stands acts id since) (unmarked : act ≠ .mark id)
    (uncleared : act ≠ .clear id) : Stands (acts ++ [act]) id (since ++ [act]) := by
  obtain ⟨⟨before, split⟩, latest, uncancelled⟩ := stands
  refine ⟨⟨before, ?_⟩, ?_, ?_⟩
  · rw [split, List.append_assoc, List.cons_append]
  · rw [List.mem_append, List.mem_singleton]
    exact fun again => again.elim latest fun same => unmarked same.symm
  · rw [List.mem_append, List.mem_singleton]
    exact fun again => again.elim uncancelled fun same => uncleared same.symm

/-- A node that has just been marked has its latest mark now. -/
theorem stands_mark (acts : List Act) (id : Id) : Stands (acts ++ [.mark id]) id [] :=
  ⟨⟨acts, rfl⟩, List.not_mem_nil, List.not_mem_nil⟩

/-- A node is not marked again after its latest mark. -/
theorem Stands.notMem_marked (stands : Stands acts id since) : id ∉ marked since := by
  intro again
  obtain ⟨act, member, named⟩ := List.mem_filterMap.mp again
  cases act with
  | mark other =>
    obtain rfl : other = id := Option.some.inj named
    exact stands.2.1 member
  | clear other => exact nomatch named
  | look other => exact nomatch named
  | wait millis => exact nomatch named

/-- The latest mark was made by the last act, or it stood before, and the last act neither marked
the node again nor cleared it. -/
theorem Stands.cases (stands : Stands (acts ++ [act]) id since) :
    (act = .mark id ∧ since = []) ∨
      ∃ earlier, since = earlier ++ [act] ∧ Stands acts id earlier ∧
        act ≠ .mark id ∧ act ≠ .clear id := by
  obtain ⟨⟨before, split⟩, latest, uncancelled⟩ := stands
  rcases List.eq_nil_or_concat since with rfl | ⟨earlier, last, rfl⟩
  · obtain ⟨-, same⟩ := List.append_inj' split rfl
    exact .inl ⟨List.singleton_injective same, rfl⟩
  · rw [List.concat_eq_append] at split latest uncancelled ⊢
    rw [← List.cons_append, ← List.append_assoc] at split
    obtain ⟨start, same⟩ := List.append_inj' split rfl
    obtain rfl : act = last := List.singleton_injective same
    simp only [List.mem_append, List.mem_singleton, not_or] at latest uncancelled
    exact .inr ⟨earlier, rfl, ⟨⟨before, start⟩, latest.1, uncancelled.1⟩,
      fun same => latest.2 same.symm, fun same => uncancelled.2 same.symm⟩

end Acts

/-! ## The marks stay in order -/

/-- What holds of the marks after some acts. -/
structure Orderly (t : Timed) (acts : List Act) : Prop where
  /-- There is room for a mark. -/
  room : 0 < t.cool.marks.capacity
  /-- There are no more marks than there is room for. -/
  sized : t.cool.size ≤ t.cool.marks.capacity
  /-- No node has two marks. -/
  distinct : t.cool.marks.Distinct
  /-- Later marks stand in front of earlier ones. -/
  sorted : t.cool.marks.entries.Pairwise fun later earlier => earlier.2 ≤ later.2
  /-- From the least recent one on, the marks stand in the order of the latest marking. -/
  ordered : t.cool.marks.keys.reverse.Sublist (marked acts).dedup
  /-- Each mark is the latest one of its node and bears the time at which it was made. -/
  latest : ∀ e ∈ t.cool.marks.entries, ∃ since, Stands acts e.1 since ∧ e.2 + elapsed since = t.now
  /-- A latest mark that has not expired is kept while there is room for those made since. -/
  kept : ∀ id since, Stands acts id since → elapsed since < t.cool.period →
    (marked since).dedup.length < t.cool.marks.capacity →
    ∃ made, made + elapsed since = t.now ∧ t.cool.marks.Kept id made (marked since)

/-- Listing one more key last moves it behind all others. -/
theorem dedup_concat (keys : List Id) (id : Id) :
    (keys ++ [id]).dedup = keys.dedup.erase id ++ [id] := by
  induction keys with
  | nil => rfl
  | cons key keys hyp =>
    by_cases again : key ∈ keys
    · rw [List.cons_append, List.dedup_cons_of_mem (List.mem_append_left _ again),
        List.dedup_cons_of_mem again, hyp]
    · rw [List.dedup_cons_of_notMem again]
      by_cases same : key = id
      · subst same
        have absent : key ∉ keys.dedup := mt List.mem_dedup.mp again
        have listed : key ∈ keys ++ [key] := List.mem_append_right _ (List.mem_singleton.mpr rfl)
        rw [List.cons_append, List.dedup_cons_of_mem listed, hyp, List.erase_of_not_mem absent,
          List.erase_cons_head]
      · have new : key ∉ keys ++ [id] := by
          rw [List.mem_append, List.mem_singleton]
          exact fun listed => listed.elim again same
        rw [List.cons_append, List.dedup_cons_of_notMem new, hyp,
          List.erase_cons_tail (by simpa using same)]
        rfl

/-- Erasing a key from a list without duplicates does not depend on the direction. -/
theorem reverse_erase {keys : List Id} (distinct : keys.Nodup) (id : Id) :
    (keys.erase id).reverse = keys.reverse.erase id := by
  rw [distinct.erase_eq_filter, (List.nodup_reverse.mpr distinct).erase_eq_filter,
    List.filter_reverse]

namespace Orderly

variable {t : Timed} {acts : List Act}

/-- Without acts there are no marks. -/
theorem start (period capacity : Nat) : Orderly ⟨0, empty period capacity⟩ [] where
  room := Nat.lt_of_lt_of_le Nat.one_pos (Nat.le_max_left 1 capacity)
  sized := Nat.zero_le _
  distinct := List.nodup_nil
  sorted := List.Pairwise.nil
  ordered := List.Sublist.slnil
  latest := nofun
  kept := by
    rintro id since ⟨⟨before, split⟩, -⟩
    exact absurd split.symm (List.append_ne_nil_of_right_ne_nil _ (List.cons_ne_nil _ _))

/-- No mark lies ahead of the clock. -/
theorem past (orderly : Orderly t acts) {e : Id × Nat} (stored : e ∈ t.cool.marks.entries) :
    e.2 ≤ t.now := by
  obtain ⟨since, -, age⟩ := orderly.latest e stored
  omega

/-- Sweeping leaves only marks that have not expired. -/
theorem swept (orderly : Orderly t acts) {e : Id × Nat}
    (left : e ∈ (t.cool.marks.sweep (t.cool.expired t.now)).entries) :
    t.cool.expired t.now e.2 = false := by
  refine Recency.sweep_fresh (orderly.sorted.imp fun {later earlier} ordered old => ?_) left
  rw [expired, decide_eq_true_iff] at old ⊢
  omega

/-- The order is kept by an act that marks no node, as long as it at most drops marks, leaves none
of a node it clears, and keeps those that have not expired. -/
theorem unmarked (orderly : Orderly t acts) {act : Act} (other : ∀ id, act ≠ .mark id)
    {after : Timed}
    (clock : after.now = t.now + elapsed [act]) (period : after.cool.period = t.cool.period)
    (capacity : after.cool.marks.capacity = t.cool.marks.capacity)
    (drops : after.cool.marks.entries.Sublist t.cool.marks.entries)
    (uncleared : ∀ e ∈ after.cool.marks.entries, act ≠ .clear e.1)
    (keeps : ∀ id made since, act ≠ .clear id → t.now - made < t.cool.period → id ∉ since →
      t.cool.marks.Kept id made since → after.cool.marks.Kept id made since) :
    Orderly after (acts ++ [act]) := by
  have same (acts : List Act) : marked (acts ++ [act]) = marked acts := by
    rw [marked_append]
    cases act with
    | mark id => exact absurd rfl (other id)
    | clear id => exact List.append_nil _
    | look id => exact List.append_nil _
    | wait millis => exact List.append_nil _
  have keys : after.cool.marks.keys.Sublist t.cool.marks.keys :=
    drops.map fun e : Id × Nat => e.1
  refine ⟨?_, ?_, orderly.distinct.sublist keys, orderly.sorted.sublist drops, ?_, ?_, ?_⟩
  · rw [capacity]
    exact orderly.room
  · rw [capacity]
    exact Nat.le_trans drops.length_le orderly.sized
  · rw [same]
    exact keys.reverse.trans orderly.ordered
  · intro e stored
    obtain ⟨since, stands, age⟩ := orderly.latest e (drops.subset stored)
    refine ⟨since ++ [act], stands.later (other e.1) (uncleared e stored), ?_⟩
    rw [elapsed_append, ← Nat.add_assoc, age, clock]
  · intro id since stands young few
    rw [period] at young
    rw [capacity] at few
    obtain ⟨again, -⟩ | ⟨earlier, rfl, before, -, survives⟩ := stands.cases
    · exact absurd again (other id)
    · rw [elapsed_append] at young ⊢
      rw [same] at few ⊢
      obtain ⟨made, age, kept⟩ := orderly.kept id earlier before (by omega) few
      refine ⟨made, by rw [← Nat.add_assoc, age, clock], ?_⟩
      exact keeps id made (marked earlier) survives (by omega) (before.notMem_marked) kept

/-- The order is kept when the clock goes forward. -/
theorem wait (orderly : Orderly t acts) (millis : Nat) :
    Orderly (t.act (.wait millis)) (acts ++ [.wait millis]) := by
  have unmarking : ∀ other, Act.wait millis ≠ .mark other := nofun
  have unclearing : ∀ other, Act.wait millis ≠ .clear other := nofun
  exact orderly.unmarked unmarking rfl rfl rfl (List.Sublist.refl _)
    (fun e _ => unclearing e.1) fun _ _ _ _ _ _ kept => kept

/-- The order is kept when a node is cleared. -/
theorem clear (orderly : Orderly t acts) (id : Id) :
    Orderly (t.act (.clear id)) (acts ++ [.clear id]) := by
  have unmarking : ∀ other, Act.clear id ≠ .mark other := nofun
  refine orderly.unmarked unmarking rfl rfl rfl List.eraseP_sublist ?_ ?_
  · rintro e stored ⟨⟩
    have key : e.1 ∈ (t.cool.marks.erase e.1).keys := List.mem_map_of_mem stored
    rw [Recency.keys_erase] at key
    exact orderly.distinct.not_mem_erase e.1 key
  · intro kept made since survives _ _ held
    exact held.erase fun same => survives (congrArg Act.clear same)

/-- The order is kept when a node is looked up: at most its mark is dropped, when it has expired. -/
theorem look (orderly : Orderly t acts) (id : Id) :
    Orderly (t.act (.look id)) (acts ++ [.look id]) := by
  have unmarking : ∀ other, Act.look id ≠ .mark other := nofun
  have unclearing : ∀ other, Act.look id ≠ .clear other := nofun
  rcases t.cool.isCooling_cases t.now id with same | ⟨dropped, since, found, old⟩
  · have after : t.act (.look id) = t := by rw [Timed.act, same]
    rw [after]
    exact orderly.unmarked unmarking rfl rfl rfl (List.Sublist.refl _)
      (fun e _ => unclearing e.1) fun _ _ _ _ _ _ kept => kept
  · have after : t.act (.look id) = { t with cool := t.cool.clear id } := by rw [Timed.act, dropped]
    rw [after]
    refine orderly.unmarked unmarking rfl rfl rfl List.eraseP_sublist
      (fun e _ => unclearing e.1) ?_
    intro kept made between _ young unused held
    -- A mark that has not expired is not the one that was found expired.
    refine held.erase ?_
    rintro rfl
    rw [held.peek?_eq unused] at found
    obtain rfl := Option.some.inj found
    rw [(t.cool.expired_eq_false_iff t.now).mpr young] at old
    exact Bool.noConfusion old

/-- The order is kept when a node is marked: expired marks are swept, an earlier mark of the node is
replaced, and the oldest mark makes room. -/
theorem mark (orderly : Orderly t acts) (id : Id) :
    Orderly (t.act (.mark id)) (acts ++ [.mark id]) := by
  let rest := t.cool.marks.sweep (t.cool.expired t.now)
  have distinct : rest.Distinct := orderly.distinct.sweep _
  have swept : rest.entries.Sublist t.cool.marks.entries := (Recency.sweep_front _ _).sublist
  have drops : ((rest.erase id).entries.take (rest.capacity - 1)).Sublist rest.entries :=
    (List.take_sublist _ _).trans List.eraseP_sublist
  have marks : (t.act (.mark id)).cool.marks = rest.put id t.now := rfl
  have marked_mark : marked [.mark id] = [id] := rfl
  refine ⟨orderly.room, ?_, distinct.put id t.now, ?_, ?_, ?_, ?_⟩
  · have room := orderly.room
    have length : (t.act (.mark id)).cool.size =
        ((rest.erase id).entries.take (t.cool.marks.capacity - 1)).length + 1 := rfl
    rw [length, List.length_take]
    change _ ≤ t.cool.marks.capacity
    omega
  · refine List.pairwise_cons.mpr ⟨fun e stored => ?_, orderly.sorted.sublist (drops.trans swept)⟩
    exact orderly.past (swept.subset (drops.subset stored))
  · have before : rest.keys.Sublist t.cool.marks.keys := swept.map fun e : Id × Nat => e.1
    have others : ((rest.keys.erase id).take (rest.capacity - 1)).reverse.Sublist
        ((marked acts).dedup.erase id) := by
      calc
        ((rest.keys.erase id).take (rest.capacity - 1)).reverse.Sublist
            (rest.keys.erase id).reverse := (List.take_sublist _ _).reverse
        _ = rest.keys.reverse.erase id := reverse_erase distinct id
        (rest.keys.reverse.erase id).Sublist ((marked acts).dedup.erase id) :=
          (before.reverse.trans orderly.ordered).erase id
    rw [marks, Recency.keys_put, List.reverse_cons, marked_append, marked_mark, dedup_concat]
    exact others.append (List.Sublist.refl _)
  · intro e stored
    rcases List.mem_cons.mp stored with rfl | other
    · exact ⟨[], stands_mark acts id, rfl⟩
    · have apart : e.1 ≠ id := by
        intro same
        have key : e.1 ∈ (rest.erase id).keys :=
          List.mem_map_of_mem (List.take_subset _ _ other)
        rw [Recency.keys_erase, same] at key
        exact distinct.not_mem_erase id key
      obtain ⟨since, stands, age⟩ := orderly.latest e (swept.subset (drops.subset other))
      have unmarked : Act.mark id ≠ .mark e.1 := fun same => apart (Act.mark.inj same).symm
      have uncleared : Act.mark id ≠ .clear e.1 := nofun
      refine ⟨since ++ [.mark id], stands.later unmarked uncleared, ?_⟩
      rw [elapsed_append]
      exact age
  · intro id' since stands young few
    rcases stands.cases with ⟨same, rfl⟩ | ⟨earlier, rfl, before, unmarked, -⟩
    · obtain rfl := Act.mark.inj same
      exact ⟨t.now, rfl, rest.kept_put id t.now⟩
    · have apart : id ≠ id' := fun same => unmarked (congrArg Act.mark same)
      rw [marked_append, marked_mark] at few ⊢
      have passes : elapsed (earlier ++ [.mark id]) = elapsed earlier := elapsed_append _ _
      rw [passes] at young ⊢
      have fewer : (marked earlier).dedup.length < t.cool.marks.capacity := by
        have within : (marked earlier).dedup ⊆ (marked earlier ++ [id]).dedup :=
          fun key listed => List.mem_dedup.mpr (List.mem_append_left _ (List.mem_dedup.mp listed))
        have shorter := (List.subperm_of_subset (List.nodup_dedup _) within).length_le
        exact Nat.lt_of_le_of_lt shorter few
      obtain ⟨made, age, kept⟩ := orderly.kept id' earlier before young fewer
      have fresh : t.cool.expired t.now made = false := by
        rw [expired_eq_false_iff]
        change _ < t.cool.period at young
        omega
      exact ⟨made, age, (kept.sweep fresh).put distinct apart t.now few⟩

/-- The order is kept by every act. -/
theorem act (orderly : Orderly t acts) (act : Act) : Orderly (t.act act) (acts ++ [act]) := by
  cases act with
  | mark id => exact orderly.mark id
  | clear id => exact orderly.clear id
  | look id => exact orderly.look id
  | wait millis => exact orderly.wait millis

/-- The marks are in order after any acts. -/
theorem play (period capacity : Nat) (acts : List Act) :
    Orderly (CoolDown.play period capacity acts) acts := by
  induction acts using List.reverseRecOn with
  | nil => exact start period capacity
  | append_singleton acts act hyp =>
    rw [play_append]
    exact hyp.act act

end Orderly

/-- The cool-down and the room for marks stay as they were set. -/
theorem play_settings (period capacity : Nat) (acts : List Act) :
    (play period capacity acts).cool.period = period ∧
      (play period capacity acts).cool.marks.capacity = max 1 capacity := by
  induction acts using List.reverseRecOn with
  | nil => exact ⟨rfl, rfl⟩
  | append_singleton acts act hyp =>
    rw [play_append]
    cases act with
    | mark id => exact hyp
    | clear id => exact hyp
    | wait millis => exact hyp
    | look id =>
      rcases (play period capacity acts).cool.isCooling_cases
        (play period capacity acts).now id with same | ⟨dropped, -⟩
      · rw [Timed.act, same]
        exact hyp
      · rw [Timed.act, dropped]
        exact hyp

/-- Whatever happens to the marks of unreachable nodes, they stand in marking order and within their
room, and marking a node leaves no expired mark of another one. A node is cooling down only while
its latest mark is younger than the cool-down and it has not been cleared since, and it is then
unless the nodes marked since have used up the room. -/
theorem play_cooling (period capacity : Nat) (acts : List Act) :
    let t := play period capacity acts
    t.cool.size ≤ max 1 capacity ∧
      t.cool.marks.entries.Pairwise (fun later earlier => earlier.2 ≤ later.2) ∧
      t.cool.marks.keys.reverse.Sublist (marked acts).dedup ∧
      (∀ e ∈ t.cool.marks.entries,
        ∃ since, Stands acts e.1 since ∧ e.2 + elapsed since = t.now) ∧
      (∀ id, ∀ e ∈ (t.cool.mark t.now id).marks.entries, e.1 = id ∨ t.now - e.2 < period) ∧
      ∀ id,
        ((t.cool.isCooling t.now id).1 = true →
          ∃ since, Stands acts id since ∧ elapsed since < period) ∧
        ∀ since, Stands acts id since → elapsed since < period →
          (marked since).dedup.length < max 1 capacity → (t.cool.isCooling t.now id).1 = true := by
  intro t
  have orderly : Orderly t acts := Orderly.play period capacity acts
  obtain ⟨cooldown, room⟩ : t.cool.period = period ∧ t.cool.marks.capacity = max 1 capacity :=
    play_settings period capacity acts
  have sized := orderly.sized
  rw [room] at sized
  refine ⟨sized, orderly.sorted, orderly.ordered, orderly.latest, ?_, ?_⟩
  · intro id e stored
    rcases List.mem_cons.mp stored with rfl | other
    · exact .inl rfl
    · have fresh := orderly.swept (List.eraseP_subset (List.take_subset _ _ other))
      rw [expired_eq_false_iff, cooldown] at fresh
      exact .inr fresh
  · intro id
    refine ⟨fun cooling => ?_, fun since stands young few => ?_⟩
    · obtain ⟨made, found, fresh⟩ := (t.cool.isCooling_iff t.now id).mp cooling
      rw [expired_eq_false_iff, cooldown] at fresh
      obtain ⟨e, hit, rfl⟩ := Option.map_eq_some_iff.mp found
      obtain ⟨since, stands, age⟩ := orderly.latest e (List.mem_of_find?_eq_some hit)
      have named : e.1 = id := by simpa using List.find?_some hit
      rw [named] at stands
      exact ⟨since, stands, by omega⟩
    · rw [← cooldown] at young
      rw [← room] at few
      obtain ⟨made, age, kept⟩ := orderly.kept id since stands young few
      rw [isCooling_iff]
      refine ⟨made, kept.peek?_eq stands.notMem_marked, ?_⟩
      rw [expired_eq_false_iff]
      omega

end CoolDown

end Overlay
