import Overlay.Walk
import Overlay.Proofs.Lookup.Knowledge

/-!
# What a walk holds

A walk keeps the identifiers that it has seen and asked, and a queue of the others, closest first.
What comes to the front of the queue while it is cooling down is passed over for good. So the
queue is what is seen and neither asked nor passed over; what is known, asked and passed over is
given here by lists of identifiers that the walk itself does not hold. New nodes of an answer
are put by, in order, to be handed out.
-/
namespace Overlay

variable {α : Type}

namespace Contact

/-- Behind some contacts stands the ranking of the others. -/
theorem Ranking.behind {target : Id} {set : Id → Prop} {front rest : List (Contact α)}
    (ranking : Ranking target set (front ++ rest)) :
    Ranking target (fun id => set id ∧ id ∉ front.map (·.id)) rest := by
  induction front generalizing set with
  | nil => exact ranking.congr fun id => by simp
  | cons c front further =>
    refine (further ranking.behind_first).congr fun id => ?_
    rw [List.map_cons, List.mem_cons, not_or, and_assoc]

/-- The contacts in their first occurrence, without those of some identifiers. -/
def firsts (old : List Id) : List (Contact α) → List (Contact α)
  | [] => []
  | c :: rest => if c.id ∈ old then firsts old rest else c :: firsts (c.id :: old) rest

section Firsts

/-- What occurs first depends on which identifiers are old only. -/
theorem firsts_congr {old old' : List Id} (same : ∀ id, id ∈ old ↔ id ∈ old')
    (contacts : List (Contact α)) : firsts old contacts = firsts old' contacts := by
  induction contacts generalizing old old' with
  | nil => rfl
  | cons first rest further =>
    have later : ∀ id, id ∈ first.id :: old ↔ id ∈ first.id :: old' := by
      intro id
      rw [List.mem_cons, List.mem_cons, same]
    simp only [firsts, same, further same, further later]

/-- What has occurred is old for what comes behind it. -/
theorem firsts_append (old : List Id) (contacts more : List (Contact α)) :
    firsts old (contacts ++ more) =
      firsts old contacts ++ firsts (old ++ contacts.map (·.id)) more := by
  induction contacts generalizing old with
  | nil => simp [firsts]
  | cons first rest further =>
    rw [List.cons_append, firsts, firsts]
    by_cases known : first.id ∈ old
    · rw [if_pos known, if_pos known, further]
      refine congrArg (firsts old rest ++ ·) (firsts_congr (fun id => ?_) more)
      simp only [List.map_cons, List.mem_append, List.mem_cons]
      constructor
      · exact Or.imp_right .inr
      · rintro (before | rfl | later)
        · exact .inl before
        · exact .inl known
        · exact .inr later
    · rw [if_neg known, if_neg known, further, List.cons_append]
      refine congrArg (first :: firsts (first.id :: old) rest ++ ·)
        (firsts_congr (fun id => ?_) more)
      simp only [List.map_cons, List.mem_append, List.mem_cons]
      exact or_left_comm

/-- The first occurrences are those of identifiers that are not old. -/
theorem mem_map_firsts_iff (old : List Id) (contacts : List (Contact α)) (id : Id) :
    id ∈ (firsts old contacts).map (·.id) ↔ id ∈ contacts.map (·.id) ∧ id ∉ old := by
  induction contacts generalizing old with
  | nil => simp [firsts]
  | cons first rest further =>
    rw [firsts]
    by_cases known : first.id ∈ old
    · rw [if_pos known, further, List.map_cons, List.mem_cons]
      constructor
      · exact And.imp_left .inr
      · rintro ⟨rfl | later, new⟩
        · exact absurd known new
        · exact ⟨later, new⟩
    · rw [if_neg known, List.map_cons, List.mem_cons, further, List.map_cons, List.mem_cons,
        List.mem_cons, not_or]
      constructor
      · rintro (rfl | ⟨later, -, new⟩)
        · exact ⟨.inl rfl, known⟩
        · exact ⟨.inr later, new⟩
      · rintro ⟨rfl | later, new⟩
        · exact .inl rfl
        · exact (em (id = first.id)).imp_right fun other => ⟨later, other, new⟩

/-- No identifier occurs first twice. -/
theorem nodup_firsts (old : List Id) (contacts : List (Contact α)) :
    ((firsts old contacts).map (·.id)).Nodup := by
  induction contacts generalizing old with
  | nil => exact List.nodup_nil
  | cons first rest further =>
    rw [firsts]
    split
    · exact further old
    · refine List.nodup_cons.mpr ⟨fun again => ?_, further _⟩
      exact ((mem_map_firsts_iff _ rest first.id).mp again).2 List.mem_cons_self

end Firsts

end Contact

namespace Walk

/-- A node of the queue is passed over when it has been asked or is cooling down. -/
def skips (w : Walk α) (now : Nat) (cool : CoolDown) (c : Contact α) : Bool :=
  w.asked.contains c.id || (cool.isCooling now c.id).1

/-- The nodes at the front of the queue that are passed over. -/
def passes (w : Walk α) (now : Nat) (cool : CoolDown) : List (Contact α) :=
  w.frontier.takeWhile (w.skips now cool)

/-- The queue without them. -/
def remains (w : Walk α) (now : Nat) (cool : CoolDown) : List (Contact α) :=
  w.frontier.dropWhile (w.skips now cool)

/-- The walk after a node of the queue has been taken for a query. -/
def taken (w : Walk α) (c : Contact α) (rest : List (Contact α)) : Walk α :=
  { w with
    frontier := rest
    asked := c.id :: w.asked
    awaiting := some c
    roundLeft := w.roundLeft - 1 }

/-- The walk after the nodes of an answer have been recorded. -/
def offerAll (w : Walk α) (home : Id) (contacts : List (Contact α)) : Walk α :=
  contacts.foldl (fun w c => w.offer home c) w

/-- The walk, which waits for nobody any more. -/
def landed (w : Walk α) : Walk α := { w with awaiting := none }

section Frames

/-- Dropping nodes from the queue passes over those at its front. -/
theorem prune_fst (w : Walk α) (now : Nat) (cool : CoolDown) :
    (prune now w.asked cool w.frontier).1 = w.remains now cool := by
  unfold remains
  induction w.frontier with
  | nil => rfl
  | cons c rest further =>
    rw [prune, List.dropWhile_cons, skips]
    cases w.asked.contains c.id with
    | true => simpa using further
    | false =>
      unfold CoolDown.isCooling
      cases cool.marks.peek? c.id with
      | none => simp
      | some since =>
        cases expired : cool.expired now since with
        | true => simp [expired]
        | false => simpa [expired] using further

/-- Closing a round touches only the count of those that brought nothing closer. -/
theorem closeRound_frame (w : Walk α) :
    ∃ stalled improved, w.closeRound = { w with stalled := stalled, improved := improved } := by
  unfold closeRound
  split
  · exact ⟨w.stalled, w.improved, rfl⟩
  · exact ⟨_, _, rfl⟩

/-- A node that was seen is not recorded again. -/
theorem offer_of_seen (w : Walk α) (home : Id) (c : Contact α) (old : c.id ∈ w.seen) :
    w.offer home c = w := by
  have contains : w.seen.contains c.id = true := List.contains_iff_mem.mpr old
  rw [offer, if_pos contains]

/-- A node that was not seen is recorded, put into the queue, and put by unless it is home. -/
theorem offer_of_new (w : Walk α) (home : Id) (c : Contact α) (new : c.id ∉ w.seen) :
    ∃ closest improved, w.offer home c =
      { w with
        seen := c.id :: w.seen
        frontier := Contact.insertByDistance w.target c w.frontier
        closest := closest
        improved := improved
        ready := if c.id = home then w.ready else w.ready ++ [c] } := by
  have lacks : ¬w.seen.contains c.id = true := fun contains =>
    new (List.contains_iff_mem.mp contains)
  rw [offer, if_neg lacks]
  exact ⟨_, _, rfl⟩

/-- What recording nodes can change. -/
theorem offerAll_frame (w : Walk α) (home : Id) (contacts : List (Contact α)) :
    ∃ seen frontier closest improved ready, w.offerAll home contacts =
      { w with
        seen := seen
        frontier := frontier
        closest := closest
        improved := improved
        ready := ready } := by
  induction contacts generalizing w with
  | nil => exact ⟨w.seen, w.frontier, w.closest, w.improved, w.ready, rfl⟩
  | cons c rest further =>
    have first : ∃ seen frontier closest improved ready, w.offer home c =
        { w with
          seen := seen
          frontier := frontier
          closest := closest
          improved := improved
          ready := ready } := by
      by_cases old : c.id ∈ w.seen
      · exact ⟨w.seen, w.frontier, w.closest, w.improved, w.ready, w.offer_of_seen home c old⟩
      · obtain ⟨closest, improved, recorded⟩ := w.offer_of_new home c old
        exact ⟨_, _, closest, improved, _, recorded⟩
    obtain ⟨_, _, _, _, _, recorded⟩ := first
    obtain ⟨seen, frontier, closest, improved, ready, last⟩ := further (w.offer home c)
    refine ⟨seen, frontier, closest, improved, ready, ?_⟩
    rw [offerAll, List.foldl_cons, ← offerAll, last, recorded]

/-- An answer has its nodes recorded. -/
theorem complete_ok (w : Walk α) (now : Nat) (home : Id) (cool : CoolDown) (fired : Bool)
    (c : Contact α) (contacts : List (Contact α)) :
    (w.complete now home cool fired c (.ok contacts)).1 = w.landed.offerAll home contacts := rfl

/-- A query that brings no answer leaves the walk as it is, or ends it. -/
theorem complete_error (w : Walk α) (now : Nat) (home : Id) (cool : CoolDown) (fired : Bool)
    (c : Contact α) (fault : Fault) :
    ∃ done, (w.complete now home cool fired c (.error fault)).1 =
      { w.landed with done := done } := by
  unfold complete
  dsimp only
  split
  · exact ⟨true, rfl⟩
  · exact ⟨w.done, rfl⟩

/-- What the end of a query can change. -/
theorem complete_frame (w : Walk α) (now : Nat) (home : Id) (cool : CoolDown) (fired : Bool)
    (c : Contact α) (reply : Reply α) :
    ∃ seen frontier closest improved ready done,
      (w.complete now home cool fired c reply).1 =
        { w.landed with
          seen := seen
          frontier := frontier
          closest := closest
          improved := improved
          ready := ready
          done := done } := by
  cases reply with
  | ok contacts =>
    obtain ⟨seen, frontier, closest, improved, ready, recorded⟩ :=
      w.landed.offerAll_frame home contacts
    rw [complete_ok, recorded]
    exact ⟨seen, frontier, closest, improved, ready, w.done, rfl⟩
  | error fault =>
    obtain ⟨done, ended⟩ := w.complete_error now home cool fired c fault
    rw [ended]
    exact ⟨w.seen, w.frontier, w.closest, w.improved, w.ready, done, rfl⟩

/-- The nodes of an answer that were not seen are put by, each in its first occurrence. -/
theorem offerAll_ready (w : Walk α) (home : Id) (contacts : List (Contact α)) :
    (w.offerAll home contacts).ready =
      w.ready ++ Contact.firsts (home :: w.seen) contacts := by
  induction contacts generalizing w with
  | nil => rw [Contact.firsts, List.append_nil]; rfl
  | cons c rest further =>
    rw [offerAll, List.foldl_cons, ← offerAll, further, Contact.firsts]
    by_cases old : c.id ∈ w.seen
    · rw [w.offer_of_seen home c old, if_pos (List.mem_cons_of_mem home old)]
    · obtain ⟨_, _, recorded⟩ := w.offer_of_new home c old
      rw [recorded]
      by_cases own : c.id = home
      · have same : ∀ id, id ∈ home :: c.id :: w.seen ↔ id ∈ home :: w.seen := by
          intro id
          rw [own, List.mem_cons, List.mem_cons, or_self_left]
        rw [if_pos own, if_pos (own ▸ List.mem_cons_self), Contact.firsts_congr same]
      · have new : c.id ∉ home :: w.seen := List.not_mem_cons_of_ne_of_not_mem own old
        have same : ∀ id, id ∈ home :: c.id :: w.seen ↔ id ∈ c.id :: home :: w.seen := by
          intro id
          simp only [List.mem_cons]
          exact or_left_comm
        rw [if_neg own, if_neg new, Contact.firsts_congr same, List.append_assoc,
          List.singleton_append]

end Frames

/-- The walk holds exactly what follows from the identifiers known, asked and passed over. -/
structure Knows (w : Walk α) (known asked passed : List Id) : Prop where
  /-- The identifiers seen are the ones known. -/
  seen : ∀ id, id ∈ w.seen ↔ id ∈ known
  /-- Only known identifiers are asked. -/
  asked_known : ∀ id ∈ asked, id ∈ known
  /-- Only known identifiers are passed over. -/
  passed_known : ∀ id ∈ passed, id ∈ known
  /-- No identifier is asked twice. -/
  once : asked.Nodup
  /-- The identifiers asked are recorded, latest first. -/
  recorded : w.asked = asked.reverse
  /-- The queue is what is known and neither asked nor passed over. -/
  frontier : Contact.Ranking w.target (fun id => id ∈ known ∧ id ∉ asked ∧ id ∉ passed) w.frontier

namespace Knows

variable {w : Walk α} {known asked passed : List Id}

/-- A node of the queue is passed over for nothing but that it is cooling down. -/
theorem skips_eq (knows : w.Knows known asked passed) (now : Nat) (cool : CoolDown)
    {c : Contact α} (queued : c ∈ w.frontier) :
    w.skips now cool c = (cool.isCooling now c.id).1 := by
  have unasked := ((knows.frontier.members c.id).mp (List.mem_map_of_mem queued)).2.1
  have lacks : w.asked.contains c.id = false := by
    rw [knows.recorded]
    simpa using unasked
  rw [skips, lacks, Bool.false_or]

/-- Recording a node makes its identifier known. -/
theorem offer (knows : w.Knows known asked passed) (home : Id) (c : Contact α) :
    (w.offer home c).Knows (known ++ [c.id]) asked passed := by
  have wider : ∀ id, id ∈ known → id ∈ known ++ [c.id] := fun _ => List.mem_append_left _
  by_cases old : c.id ∈ w.seen
  · rw [w.offer_of_seen home c old]
    have already := (knows.seen c.id).mp old
    have same : ∀ id, id ∈ known ↔ id ∈ known ++ [c.id] := by
      intro id
      rw [List.mem_append, List.mem_singleton]
      exact (or_iff_left_of_imp fun equal => equal ▸ already).symm
    exact { knows with
      seen := fun id => (knows.seen id).trans (same id)
      asked_known := fun id member => wider id (knows.asked_known id member)
      passed_known := fun id member => wider id (knows.passed_known id member)
      frontier := knows.frontier.congr fun id => and_congr_left' (same id) }
  · obtain ⟨_, _, recorded⟩ := w.offer_of_new home c old
    rw [recorded]
    have unknown : c.id ∉ known := fun member => old ((knows.seen c.id).mpr member)
    have unasked : c.id ∉ asked := fun member => unknown (knows.asked_known c.id member)
    have unpassed : c.id ∉ passed := fun member => unknown (knows.passed_known c.id member)
    exact { knows with
      seen := by
        intro id
        rw [List.mem_cons, knows.seen id, List.mem_append, List.mem_singleton, or_comm]
      asked_known := fun id member => wider id (knows.asked_known id member)
      passed_known := fun id member => wider id (knows.passed_known id member)
      frontier := by
        refine (knows.frontier.insert c fun held => unknown held.1).congr fun id => ?_
        rw [List.mem_append, List.mem_singleton]
        constructor
        · rintro (rfl | ⟨member, others⟩)
          · exact ⟨.inr rfl, unasked, unpassed⟩
          · exact ⟨.inl member, others⟩
        · rintro ⟨member | rfl, others⟩
          · exact .inr ⟨member, others⟩
          · exact .inl rfl }

/-- Recording nodes makes their identifiers known. -/
theorem offerAll (knows : w.Knows known asked passed) (home : Id) (contacts : List (Contact α)) :
    (w.offerAll home contacts).Knows (known ++ contacts.map (·.id)) asked passed := by
  induction contacts generalizing w known with
  | nil =>
    rw [List.map_nil, List.append_nil]
    exact knows
  | cons c rest further =>
    have first := further (knows.offer home c)
    rw [List.append_assoc, List.singleton_append] at first
    exact first

/-- The nodes at the front of the queue that are passed over leave it. -/
theorem pass (knows : w.Knows known asked passed) (now : Nat) (cool : CoolDown) :
    ({ w with frontier := w.remains now cool } : Walk α).Knows known asked
      (passed ++ (w.passes now cool).map (·.id)) := by
  have whole : w.passes now cool ++ w.remains now cool = w.frontier :=
    List.takeWhile_append_dropWhile
  have ranking := knows.frontier
  rw [← whole] at ranking
  exact { knows with
    passed_known := by
      intro id listed
      rcases List.mem_append.mp listed with before | now
      · exact knows.passed_known id before
      · refine ((ranking.members id).mp ?_).1
        rw [List.map_append]
        exact List.mem_append_left _ now
    frontier := ranking.behind.congr fun id => by
      rw [List.mem_append, not_or, and_assoc, and_assoc] }

/-- The first of the queue is known, neither asked nor passed over, and no such node is closer. -/
theorem first_closest (knows : w.Knows known asked passed) {c : Contact α}
    {rest : List (Contact α)} (first : w.frontier = c :: rest) :
    w.target.IsClosest (fun id => id ∈ known ∧ id ∉ asked ∧ id ∉ passed) c.id := by
  have ranking := knows.frontier
  rw [first] at ranking
  exact ranking.first_closest

/-- Taking a node for a query records it as asked. -/
theorem taken (knows : w.Knows known asked passed) {c : Contact α} {rest : List (Contact α)}
    (first : w.frontier = c :: rest) : (w.taken c rest).Knows known (asked ++ [c.id]) passed := by
  obtain ⟨⟨member, new, -⟩, -⟩ := knows.first_closest first
  have ranking := knows.frontier
  rw [first] at ranking
  exact { knows with
    asked_known := by
      intro id listed
      rcases List.mem_append.mp listed with before | now
      · exact knows.asked_known id before
      · rw [List.mem_singleton.mp now]
        exact member
    once := by
      have apart : ∀ id ∈ asked, id ≠ c.id := fun id before same => new (same ▸ before)
      simpa [List.nodup_append, knows.once] using apart
    recorded := by
      rw [List.reverse_append, List.reverse_singleton, ← knows.recorded]
      rfl
    frontier := ranking.behind_first.congr fun id => by
      rw [List.mem_append, List.mem_singleton, not_or, and_assoc, and_assoc, and_assoc]
      refine and_congr_right fun _ => and_congr_right fun _ => and_comm }

end Knows

end Walk

end Overlay
