import Overlay.Lookup
import Overlay.Proofs.Metric

/-!
# What a lookup holds

A lookup keeps the same knowledge in four places: the identifiers seen, those asked, the
frontier and the pool. They stay in step whatever happens to the lookup: the frontier is what is
seen and not asked, the pool what is seen and has not failed, and both ascend. What is seen,
asked and failed is given here by lists of identifiers that the lookup itself does not hold.
-/
namespace Overlay

namespace Contact

variable {α : Type} {target : Id} {set : Id → Prop} {contacts : List (Contact α)}

/-- The contacts are those of a set of identifiers, one each, in ascending distance. -/
structure Ranking (target : Id) (set : Id → Prop) (contacts : List (Contact α)) : Prop where
  /-- The contacts ascend. -/
  ascending : Ascending target contacts
  /-- Their identifiers are the members of the set. -/
  members : ∀ id, id ∈ contacts.map (·.id) ↔ set id

namespace Ranking

/-- A ranking depends on the members of the set only. -/
theorem congr (ranking : Ranking target set contacts) {set' : Id → Prop}
    (same : ∀ id, set id ↔ set' id) : Ranking target set' contacts where
  ascending := ranking.ascending
  members id := (ranking.members id).trans (same id)

/-- A contact outside the set is inserted at its rank. -/
theorem insert (ranking : Ranking target set contacts) (c : Contact α) (new : ¬set c.id) :
    Ranking target (fun id => id = c.id ∨ set id) (insertByDistance target c contacts) where
  ascending :=
    ranking.ascending.insertByDistance fun member => new ((ranking.members c.id).mp member)
  members := by
    intro id
    have perm := (insertByDistance_perm target c contacts).map (·.id)
    rw [perm.mem_iff, List.map_cons, List.mem_cons, ranking.members id]

/-- Dropping a contact leaves the ranking of the others. -/
theorem drop (ranking : Ranking target set contacts) (gone : Id) :
    Ranking target (fun id => set id ∧ id ≠ gone) (contacts.filter fun c => c.id ≠ gone) where
  ascending := ranking.ascending.filter _
  members := by
    intro id
    rw [← ranking.members id]
    simp only [List.mem_map, List.mem_filter, decide_eq_true_eq]
    constructor
    · rintro ⟨c, ⟨stored, other⟩, rfl⟩
      exact ⟨⟨c, stored, rfl⟩, other⟩
    · rintro ⟨⟨c, stored, rfl⟩, other⟩
      exact ⟨c, ⟨stored, other⟩, rfl⟩

variable {c : Contact α} {rest : List (Contact α)}

/-- The first contact is farther away than no member of the set. -/
theorem first_closest (ranking : Ranking target set (c :: rest)) :
    target.IsClosest set c.id := by
  constructor
  · exact (ranking.members c.id).mp (List.mem_map_of_mem List.mem_cons_self)
  · intro id member
    obtain ⟨d, stored, rfl⟩ := List.mem_map.mp ((ranking.members id).mpr member)
    rw [Id.distance_le_iff]
    rcases List.mem_cons.mp stored with rfl | behind
    · exact Nat.le_refl _
    · exact Nat.le_of_lt (List.rel_of_pairwise_cons ranking.ascending behind)

/-- Behind the first contact stands the ranking of the others. -/
theorem behind_first (ranking : Ranking target set (c :: rest)) :
    Ranking target (fun id => set id ∧ id ≠ c.id) rest := by
  have others : (c :: rest).filter (fun d => d.id ≠ c.id) = rest := by
    rw [List.filter_cons_of_neg (by simp), List.filter_eq_self]
    intro d behind
    have less := List.rel_of_pairwise_cons ranking.ascending behind
    rw [decide_eq_true_iff]
    intro same
    rw [same] at less
    exact Nat.lt_irrefl _ less
  have dropped := ranking.drop c.id
  rw [others] at dropped
  exact dropped

end Ranking

end Contact

namespace Lookup

variable {α : Type}

/-- The lookup holds exactly what follows from the identifiers known, asked and failed. -/
structure Tracks (l : Lookup α) (known asked failed : List Id) : Prop where
  /-- The identifiers seen are the ones known. -/
  seen : ∀ id, id ∈ l.seen ↔ id ∈ known
  /-- Only known identifiers are asked. -/
  asked_known : ∀ id ∈ asked, id ∈ known
  /-- Only identifiers that were asked fail. -/
  failed_asked : ∀ id ∈ failed, id ∈ asked
  /-- No identifier is asked twice. -/
  once : asked.Nodup
  /-- The identifiers asked are recorded, latest first. -/
  recorded : l.asked = asked.reverse
  /-- Each query is counted. -/
  queries : l.queries = asked.length
  /-- Each failure is counted. -/
  failures : l.failures = failed.length
  /-- The frontier is what is known and not asked. -/
  frontier : Contact.Ranking l.target (fun id => id ∈ known ∧ id ∉ asked) l.frontier
  /-- The pool is what is known and has not failed. -/
  pool : Contact.Ranking l.target (fun id => id ∈ known ∧ id ∉ failed) l.pool

/-- A contact that was seen is not recorded again. -/
theorem discover_of_seen (l : Lookup α) (c : Contact α) (old : c.id ∈ l.seen) :
    (l.discover c).2 = l := by
  have contains : l.seen.contains c.id = true := List.contains_iff_mem.mpr old
  rw [discover, if_pos contains]

/-- A contact that was not seen is recorded in all three places. -/
theorem discover_of_new (l : Lookup α) (c : Contact α) (new : c.id ∉ l.seen) :
    (l.discover c).2 =
      { l with
        frontier := Contact.insertByDistance l.target c l.frontier
        seen := c.id :: l.seen
        pool := Contact.insertByDistance l.target c l.pool } := by
  have lacks : ¬l.seen.contains c.id = true := fun contains =>
    new (List.contains_iff_mem.mp contains)
  rw [discover, if_neg lacks]

/-- Recording a contact touches nothing but the frontier, the pool and what is seen. -/
theorem discover_frame (l : Lookup α) (c : Contact α) :
    ∃ frontier seen pool,
      (l.discover c).2 = { l with frontier := frontier, seen := seen, pool := pool } := by
  by_cases old : c.id ∈ l.seen
  · exact ⟨l.frontier, l.seen, l.pool, l.discover_of_seen c old⟩
  · exact ⟨_, _, _, l.discover_of_new c old⟩

/-- Recording contacts records one after the other. -/
theorem discoverAll_eq (l : Lookup α) (contacts : List (Contact α)) :
    (l.discoverAll contacts).2 = contacts.foldl (fun l c => (l.discover c).2) l := by
  rw [discoverAll]
  generalize false = improved
  induction contacts generalizing improved l with
  | nil => rfl
  | cons c rest further => exact further _ _

/-- Recording contacts touches nothing but the frontier, the pool and what is seen. -/
theorem discoverAll_frame (l : Lookup α) (contacts : List (Contact α)) :
    ∃ frontier seen pool,
      (l.discoverAll contacts).2 = { l with frontier := frontier, seen := seen, pool := pool } := by
  rw [discoverAll_eq]
  induction contacts generalizing l with
  | nil => exact ⟨l.frontier, l.seen, l.pool, rfl⟩
  | cons c rest further =>
    obtain ⟨_, _, _, first⟩ := l.discover_frame c
    obtain ⟨frontier, seen, pool, last⟩ := further (l.discover c).2
    refine ⟨frontier, seen, pool, ?_⟩
    rw [List.foldl_cons, last, first]

/-- A new lookup has its seeds in the frontier and the pool, and nothing has happened in it. -/
theorem start_frame (target : Id) (width patience : Nat) (seeds : List (Contact α)) :
    ∃ frontier seen pool, start target width patience seeds =
      { target := target, width := width, patience := patience, frontier := frontier,
        seen := seen, asked := [], pool := pool, inFlight := 0, stale := 0, queries := 0,
        failures := 0, converged := false } :=
  discoverAll_frame _ seeds

/-- The lookup with one query less in flight. -/
def landed (l : Lookup α) : Lookup α := { l with inFlight := l.inFlight - 1 }

/-- An answer lands a query and has its contacts recorded. -/
theorem complete_ok (l : Lookup α) (fired : Bool) (c : Contact α) (contacts : List (Contact α)) :
    ∃ stale, l.complete fired c (.ok contacts) =
      { (l.landed.discoverAll contacts).2 with stale := stale } :=
  ⟨_, rfl⟩

/-- A failure lands a query and takes its node out of the pool. -/
theorem complete_failed (l : Lookup α) (fired : Bool) (c : Contact α) (fault : Fault)
    (kept : (fired && fault.isCancelled) = false) :
    l.complete fired c (.error fault) =
      { l.landed with
        failures := l.failures + 1
        stale := l.stale + 1
        pool := l.pool.filter fun d => d.id ≠ c.id } := by
  simp only [complete, kept, Bool.false_eq_true, if_false]
  rfl

/-- A withdrawal only lands a query. -/
theorem complete_withdrawn (l : Lookup α) (fired : Bool) (c : Contact α) (fault : Fault)
    (dropped : (fired && fault.isCancelled) = true) :
    l.complete fired c (.error fault) = l.landed := by
  simp only [complete, dropped, if_true]
  rfl

/-- The end of a query touches neither what is looked for nor what was asked, and it is one query
less in flight. -/
theorem complete_frame (l : Lookup α) (fired : Bool) (c : Contact α) (reply : Reply α) :
    ∃ frontier seen pool stale failures, l.complete fired c reply =
      { l.landed with
        frontier := frontier
        seen := seen
        pool := pool
        stale := stale
        failures := failures } := by
  cases reply with
  | ok contacts =>
    obtain ⟨stale, whole⟩ := l.complete_ok fired c contacts
    obtain ⟨frontier, seen, pool, recorded⟩ := l.landed.discoverAll_frame contacts
    rw [whole, recorded]
    exact ⟨frontier, seen, pool, stale, l.failures, rfl⟩
  | error fault =>
    cases dropped : fired && fault.isCancelled with
    | true => exact ⟨_, _, _, _, _, l.complete_withdrawn fired c fault dropped⟩
    | false => exact ⟨_, _, _, _, _, l.complete_failed fired c fault dropped⟩

/-- The lookup after its closest unasked node has been taken for a query. -/
def taken (l : Lookup α) (c : Contact α) (rest : List (Contact α)) : Lookup α :=
  { l with
    frontier := rest
    asked := c.id :: l.asked
    inFlight := l.inFlight + 1
    queries := l.queries + 1 }

/-- What a worker is told, in each of the four states a lookup can be in. -/
theorem next_cases (l : Lookup α) :
    (l.hasConverged = true ∧ l.next = (.stop, { l with converged := true })) ∨
    (l.hasConverged = false ∧ ∃ c rest, l.frontier = c :: rest ∧
      l.next = (.ask c, l.taken c rest)) ∨
    (l.hasConverged = false ∧ l.frontier = [] ∧ l.inFlight = 0 ∧ l.next = (.stop, l)) ∨
    (l.hasConverged = false ∧ l.frontier = [] ∧ 0 < l.inFlight ∧ l.next = (.wait, l)) := by
  unfold next
  cases settled : l.hasConverged with
  | true => exact Or.inl ⟨rfl, rfl⟩
  | false =>
    cases frontier : l.frontier with
    | cons c rest => exact Or.inr (Or.inl ⟨rfl, c, rest, rfl, rfl⟩)
    | nil =>
      by_cases none : l.inFlight = 0
      · exact Or.inr (Or.inr (Or.inl ⟨rfl, rfl, none, if_pos none⟩))
      · exact Or.inr (Or.inr (Or.inr ⟨rfl, rfl, Nat.pos_of_ne_zero none, if_neg none⟩))

namespace Tracks

variable {l : Lookup α} {known asked failed : List Id}

/-- Recording a contact makes its identifier known. -/
theorem discover (tracks : l.Tracks known asked failed) (c : Contact α) :
    (l.discover c).2.Tracks (known ++ [c.id]) asked failed := by
  by_cases old : c.id ∈ l.seen
  · rw [l.discover_of_seen c old]
    have already := (tracks.seen c.id).mp old
    have same : ∀ id, id ∈ known ↔ id ∈ known ++ [c.id] := by
      intro id
      rw [List.mem_append, List.mem_singleton]
      exact (or_iff_left_of_imp fun equal => equal ▸ already).symm
    exact { tracks with
      seen := fun id => (tracks.seen id).trans (same id)
      asked_known := fun id member => (same id).mp (tracks.asked_known id member)
      frontier := tracks.frontier.congr fun id => and_congr_left' (same id)
      pool := tracks.pool.congr fun id => and_congr_left' (same id) }
  · rw [l.discover_of_new c old]
    have unknown : c.id ∉ known := fun member => old ((tracks.seen c.id).mpr member)
    have unasked : c.id ∉ asked := fun member => unknown (tracks.asked_known c.id member)
    have alive : c.id ∉ failed := fun member => unasked (tracks.failed_asked c.id member)
    have joined : ∀ {gone : List Id}, c.id ∉ gone → ∀ id,
        (id = c.id ∨ id ∈ known ∧ id ∉ gone) ↔ id ∈ known ++ [c.id] ∧ id ∉ gone := by
      intro gone free id
      rw [List.mem_append, List.mem_singleton]
      constructor
      · rintro (rfl | ⟨member, other⟩)
        · exact ⟨Or.inr rfl, free⟩
        · exact ⟨Or.inl member, other⟩
      · rintro ⟨member | rfl, other⟩
        · exact Or.inr ⟨member, other⟩
        · exact Or.inl rfl
    exact { tracks with
      seen := by
        intro id
        rw [List.mem_cons, tracks.seen id, List.mem_append, List.mem_singleton, or_comm]
      asked_known := fun id member => List.mem_append_left _ (tracks.asked_known id member)
      frontier := (tracks.frontier.insert c fun held => unknown held.1).congr (joined unasked)
      pool := (tracks.pool.insert c fun held => unknown held.1).congr (joined alive) }

/-- Recording contacts makes their identifiers known. -/
theorem discoverAll (tracks : l.Tracks known asked failed) (contacts : List (Contact α)) :
    (l.discoverAll contacts).2.Tracks (known ++ contacts.map (·.id)) asked failed := by
  rw [discoverAll_eq]
  induction contacts generalizing l known with
  | nil => simpa using tracks
  | cons c rest further =>
    have first := further (tracks.discover c)
    rw [List.append_assoc, List.singleton_append] at first
    exact first

/-- A new lookup knows its seeds. -/
theorem start (target : Id) (width patience : Nat) (seeds : List (Contact α)) :
    (Lookup.start target width patience seeds).Tracks (seeds.map (·.id)) [] [] := by
  rw [← List.nil_append (seeds.map _)]
  apply discoverAll
  exact {
    seen := fun id => Iff.rfl
    asked_known := fun id listed => listed
    failed_asked := fun id listed => listed
    once := List.nodup_nil
    recorded := rfl
    queries := rfl
    failures := rfl
    frontier := ⟨List.Pairwise.nil, by simp⟩
    pool := ⟨List.Pairwise.nil, by simp⟩ }

/-- The node taken for a query is known, has not been asked, and no such node is closer. -/
theorem first_closest (tracks : l.Tracks known asked failed) {c : Contact α}
    {rest : List (Contact α)} (first : l.frontier = c :: rest) :
    l.target.IsClosest (fun id => id ∈ known ∧ id ∉ asked) c.id := by
  have ranking := tracks.frontier
  rw [first] at ranking
  exact ranking.first_closest

/-- Taking a node for a query records it as asked. -/
theorem taken (tracks : l.Tracks known asked failed) {c : Contact α} {rest : List (Contact α)}
    (first : l.frontier = c :: rest) : (l.taken c rest).Tracks known (asked ++ [c.id]) failed := by
  obtain ⟨⟨member, new⟩, _⟩ := tracks.first_closest first
  have ranking := tracks.frontier
  rw [first] at ranking
  exact { tracks with
    asked_known := by
      intro id listed
      rcases List.mem_append.mp listed with before | now
      · exact tracks.asked_known id before
      · rw [List.mem_singleton.mp now]
        exact member
    failed_asked := fun id listed => List.mem_append_left _ (tracks.failed_asked id listed)
    once := by
      have apart : ∀ id ∈ asked, id ≠ c.id := fun id before same => new (same ▸ before)
      simpa [List.nodup_append, tracks.once] using apart
    recorded := by
      rw [List.reverse_append, List.reverse_singleton, ← tracks.recorded]
      rfl
    queries := by
      rw [List.length_append, ← tracks.queries]
      rfl
    frontier := ranking.behind_first.congr fun id => by
      rw [List.mem_append, List.mem_singleton, not_or, and_assoc] }

/-- An answer makes its contacts known. -/
theorem answer (tracks : l.Tracks known asked failed) (fired : Bool) (c : Contact α)
    (contacts : List (Contact α)) :
    (l.complete fired c (.ok contacts)).Tracks (known ++ contacts.map (·.id)) asked failed := by
  have landed : l.landed.Tracks known asked failed := { tracks with }
  obtain ⟨stale, whole⟩ := l.complete_ok fired c contacts
  rw [whole]
  exact { landed.discoverAll contacts with }

/-- A failure takes the node asked out of the pool. -/
theorem failure (tracks : l.Tracks known asked failed) (fired : Bool) (c : Contact α)
    (fault : Fault) (kept : (fired && fault.isCancelled) = false) (member : c.id ∈ asked) :
    (l.complete fired c (.error fault)).Tracks known asked (failed ++ [c.id]) := by
  rw [l.complete_failed fired c fault kept]
  exact { tracks with
    failed_asked := by
      intro id listed
      rcases List.mem_append.mp listed with before | now
      · exact tracks.failed_asked id before
      · rw [List.mem_singleton.mp now]
        exact member
    failures := by
      rw [List.length_append, ← tracks.failures]
      rfl
    pool := (tracks.pool.drop c.id).congr fun id => by
      rw [List.mem_append, List.mem_singleton, not_or, and_assoc] }

/-- A query that was withdrawn leaves no trace. -/
theorem withdrawal (tracks : l.Tracks known asked failed) (fired : Bool) (c : Contact α)
    (fault : Fault) (dropped : (fired && fault.isCancelled) = true) :
    (l.complete fired c (.error fault)).Tracks known asked failed := by
  rw [l.complete_withdrawn fired c fault dropped]
  exact { tracks with }

/-- The result of the lookup is the list of the closest known nodes that have not failed. -/
theorem closest (tracks : l.Tracks known asked failed) :
    Id.Closest l.target l.width (fun id => id ∈ known ∧ id ∉ failed)
      (l.closest.map (·.id)) := by
  have front := tracks.pool.ascending.closest_take l.width
  simp only [tracks.pool.members] at front
  exact front

end Tracks

end Lookup

end Overlay
