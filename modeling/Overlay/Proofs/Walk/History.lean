import Overlay.Proofs.Lookup.History
import Overlay.Proofs.Walk.Knowledge

/-!
# What happens in a walk

A walk leaves events behind: a node is asked, its query ends, a node is passed over because it is
cooling down, and a node is handed out. The events of a walk, in their order, say which nodes it
knew at any moment, which of them it had asked or passed over, and which nodes of the answers were
new: those in their first occurrence that are neither seeds nor the home.
-/
namespace Overlay

variable {α : Type}

/-- What happens in a walk. -/
inductive Walk.Event (α : Type) where
  /-- Something happens to a query. -/
  | query (event : Lookup.Event α)
  /-- A node is passed over, for good, because it is cooling down. -/
  | passed (c : Contact α)
  /-- A node is handed out. -/
  | handed (c : Contact α)

namespace Lookup.Event

/-- The contacts that an event brings. -/
def contacts : Event α → List (Contact α)
  | .answered _ contacts => contacts
  | .asked _ | .failed _ _ | .withdrawn _ => []

/-- The node that the event is about. -/
def subject : Event α → Contact α
  | .asked c | .answered c _ | .failed c _ | .withdrawn c => c

/-- The end of a query is about the node asked. -/
theorem subject_ended (fired : Bool) (c : Contact α) (reply : Reply α) :
    (ended fired c reply).subject = c := by
  unfold ended
  split
  · rfl
  · split <;> rfl

/-- A query that is not answered brings no contacts. -/
theorem contacts_ended_error (fired : Bool) (c : Contact α) (fault : Fault) :
    (ended fired c (.error fault)).contacts = [] := by
  unfold ended
  dsimp only
  split <;> rfl

/-- The identifiers that an event brings are those of its contacts. -/
theorem brought_eq (event : Event α) : event.brought = event.contacts.map (·.id) := by
  cases event <;> rfl

end Lookup.Event

/-- The events that are about another node than the home. -/
def Lookup.abroad (home : Id) (events : List (Lookup.Event α)) : List (Lookup.Event α) :=
  events.filter fun event => event.subject.id ≠ home

namespace Walk

/-- What an event means to the queries. -/
def Event.queries : Event α → List (Lookup.Event α)
  | .query event => [event]
  | .passed _ | .handed _ => []

/-- The node that is passed over. -/
def Event.skips : Event α → List (Contact α)
  | .passed c => [c]
  | .query _ | .handed _ => []

/-- The node that is handed out. -/
def Event.gives : Event α → List (Contact α)
  | .handed c => [c]
  | .query _ | .passed _ => []

/-- What has happened to queries, in order. -/
def queries (events : List (Event α)) : List (Lookup.Event α) := events.flatMap Event.queries

/-- The identifiers of the seeds and of all nodes received. -/
def known (seeds : List (Contact α)) (events : List (Event α)) : List Id :=
  Lookup.known seeds (queries events)

/-- The identifiers asked, in order. -/
def askedIds (events : List (Event α)) : List Id := Lookup.askedIds (queries events)

/-- The identifiers passed over, in order. -/
def passedIds (events : List (Event α)) : List Id :=
  (events.flatMap Event.skips).map (·.id)

/-- The nodes of the answers, in the order of the queries and in that of the answers. -/
def received (events : List (Event α)) : List (Contact α) :=
  (queries events).flatMap Lookup.Event.contacts

/-- The nodes handed out, in order. -/
def handedOut (events : List (Event α)) : List (Contact α) := events.flatMap Event.gives

/-- The nodes received that are new, each in its first occurrence: neither seeds nor the home. -/
def novel (home : Id) (seeds : List (Contact α)) (events : List (Event α)) : List (Contact α) :=
  Contact.firsts (home :: seeds.map (·.id)) (received events)

/-- Whenever a node was asked, this was so of it and of what had happened before. -/
def AtQueries (P : List (Event α) → Contact α → Prop) (events : List (Event α)) : Prop :=
  ∀ before c after, events = before ++ .query (.asked c) :: after → P before c

/-- The node was closest to the target among those known and neither asked nor passed over. -/
def IsNext (target : Id) (seeds : List (Contact α)) (before : List (Event α))
    (c : Contact α) : Prop :=
  target.IsClosest (fun id => id ∈ known seeds before ∧ id ∉ askedIds before ∧
    id ∉ passedIds before) c.id

/-- When the node was asked, all that was new had been handed out, and the caller wanted more. -/
def IsLazy (home : Id) (seeds : List (Contact α)) (wanted : Option Nat)
    (before : List (Event α)) (_ : Contact α) : Prop :=
  handedOut before = novel home seeds before ∧
    ∀ count, wanted = some count → (handedOut before).length < count

section Events

variable {seeds : List (Contact α)} {events : List (Event α)} {event : Event α}

/-- What has happened to queries earlier comes first. -/
theorem queries_append (events later : List (Event α)) :
    queries (events ++ later) = queries events ++ queries later := List.flatMap_append ..

/-- One more event. -/
theorem queries_snoc (events : List (Event α)) (event : Event α) :
    queries (events ++ [event]) = queries events ++ event.queries := by
  simp [queries]

/-- An event that is about no query changes nothing that queries are about. -/
theorem queries_snoc_of_nil (none : event.queries = []) :
    queries (events ++ [event]) = queries events := by
  rw [queries_snoc, none, List.append_nil]

/-- One more event at a query. -/
@[simp]
theorem queries_snoc_query (events : List (Event α)) (query : Lookup.Event α) :
    queries (events ++ [.query query]) = queries events ++ [query] := queries_snoc ..

/-- One more event at a query passes nobody over. -/
@[simp]
theorem passedIds_snoc_query (events : List (Event α)) (query : Lookup.Event α) :
    passedIds (events ++ [.query query]) = passedIds events := by
  simp [passedIds, Event.skips]

/-- One more event at a query hands out nothing. -/
@[simp]
theorem handedOut_snoc_query (events : List (Event α)) (query : Lookup.Event α) :
    handedOut (events ++ [.query query]) = handedOut events := by
  simp [handedOut, Event.gives]

/-- One more event at a query brings its contacts. -/
@[simp]
theorem received_snoc_query (events : List (Event α)) (query : Lookup.Event α) :
    received (events ++ [.query query]) = received events ++ query.contacts := by
  simp [received]

/-- One more event at a query makes known what it brings. -/
@[simp]
theorem known_snoc_query (seeds : List (Contact α)) (events : List (Event α))
    (query : Lookup.Event α) :
    known seeds (events ++ [.query query]) = known seeds events ++ query.brought := by
  simp [known]

/-- One more event at a query asks what it takes. -/
@[simp]
theorem askedIds_snoc_query (events : List (Event α)) (query : Lookup.Event α) :
    askedIds (events ++ [.query query]) = askedIds events ++ query.taken := by
  simp [askedIds]

/-- Nodes that are passed over are no matter to the queries. -/
@[simp]
theorem queries_passed (events : List (Event α)) (contacts : List (Contact α)) :
    queries (events ++ contacts.map .passed) = queries events := by
  have none : (contacts.map (Event.passed (α := α))).flatMap Event.queries = [] := by
    simp [List.flatMap_map, Event.queries]
  rw [queries, List.flatMap_append, none, List.append_nil, ← queries]

/-- Nodes that are passed over are recorded. -/
@[simp]
theorem passedIds_passed (events : List (Event α)) (contacts : List (Contact α)) :
    passedIds (events ++ contacts.map .passed) = passedIds events ++ contacts.map (·.id) := by
  have own : (contacts.map (Event.passed (α := α))).flatMap Event.skips = contacts := by
    simp [List.flatMap_map, Event.skips]
  rw [passedIds, List.flatMap_append, List.map_append, own, ← passedIds]

/-- Nodes that are passed over are not handed out by it. -/
@[simp]
theorem handedOut_passed (events : List (Event α)) (contacts : List (Contact α)) :
    handedOut (events ++ contacts.map .passed) = handedOut events := by
  have none : (contacts.map (Event.passed (α := α))).flatMap Event.gives = [] := by
    simp [List.flatMap_map, Event.gives]
  rw [handedOut, List.flatMap_append, none, List.append_nil, ← handedOut]

/-- Nodes that are passed over make nothing known. -/
@[simp]
theorem known_passed (seeds : List (Contact α)) (events : List (Event α))
    (contacts : List (Contact α)) :
    known seeds (events ++ contacts.map .passed) = known seeds events := by
  simp [known]

/-- Nodes that are passed over are not asked by it. -/
@[simp]
theorem askedIds_passed (events : List (Event α)) (contacts : List (Contact α)) :
    askedIds (events ++ contacts.map .passed) = askedIds events := by
  simp [askedIds]

/-- Nodes that are passed over bring none. -/
@[simp]
theorem novel_passed (home : Id) (seeds : List (Contact α)) (events : List (Event α))
    (contacts : List (Contact α)) :
    novel home seeds (events ++ contacts.map .passed) = novel home seeds events := by
  simp [novel, received]

/-- A node that is handed out is no matter to the queries. -/
@[simp]
theorem queries_handed (events : List (Event α)) (c : Contact α) :
    queries (events ++ [.handed c]) = queries events := queries_snoc_of_nil rfl

/-- A node that is handed out makes nothing known. -/
@[simp]
theorem known_handed (seeds : List (Contact α)) (events : List (Event α)) (c : Contact α) :
    known seeds (events ++ [.handed c]) = known seeds events := by
  simp [known]

/-- A node that is handed out is not asked by it. -/
@[simp]
theorem askedIds_handed (events : List (Event α)) (c : Contact α) :
    askedIds (events ++ [.handed c]) = askedIds events := by
  simp [askedIds]

/-- A node that is handed out brings none. -/
@[simp]
theorem novel_handed (home : Id) (seeds : List (Contact α)) (events : List (Event α))
    (c : Contact α) : novel home seeds (events ++ [.handed c]) = novel home seeds events := by
  simp [novel, received]

/-- A node that is handed out is not passed over. -/
@[simp]
theorem passedIds_handed (events : List (Event α)) (c : Contact α) :
    passedIds (events ++ [.handed c]) = passedIds events := by
  simp [passedIds, Event.skips]

/-- A node that is handed out is recorded. -/
@[simp]
theorem handedOut_handed (events : List (Event α)) (c : Contact α) :
    handedOut (events ++ [.handed c]) = handedOut events ++ [c] := by
  simp [handedOut, Event.gives]

/-- The identifiers known are those of the seeds and of the nodes received. -/
theorem known_eq (seeds : List (Contact α)) (events : List (Event α)) :
    known seeds events = seeds.map (·.id) ++ (received events).map (·.id) := by
  have brought : (Lookup.Event.brought : Lookup.Event α → List Id) =
      fun event => event.contacts.map (·.id) := funext Lookup.Event.brought_eq
  rw [known, Lookup.known, received, brought, List.map_flatMap]

/-- One more event at a query brings what is new among its contacts. -/
theorem novel_snoc_query (home : Id) (seeds : List (Contact α)) (events : List (Event α))
    (query : Lookup.Event α) :
    novel home seeds (events ++ [.query query]) = novel home seeds events ++
      Contact.firsts (home :: known seeds events) query.contacts := by
  rw [novel, received_snoc_query, Contact.firsts_append, List.cons_append, ← known_eq, ← novel]

/-- Nothing has been said of any query when none has been made. -/
theorem AtQueries.nil (P : List (Event α) → Contact α → Prop) : AtQueries P [] := by
  intro before c after split
  simp at split

/-- One more event, if it is that a node is asked, has to be as the others. -/
theorem AtQueries.snoc {P : List (Event α) → Contact α → Prop} (all : AtQueries P events)
    (next : ∀ c, event = .query (.asked c) → P events c) : AtQueries P (events ++ [event]) := by
  intro before c after split
  rcases List.eq_nil_or_concat after with rfl | ⟨later, last, rfl⟩
  · obtain ⟨rfl, equal⟩ := List.append_inj' split rfl
    exact next c (List.singleton_inj.mp equal)
  · rw [List.concat_eq_append, ← List.cons_append, ← List.append_assoc] at split
    obtain ⟨same, -⟩ := List.append_inj' split rfl
    exact all before c later same

/-- Nodes that are passed over change nothing about the queries made. -/
theorem AtQueries.passed {P : List (Event α) → Contact α → Prop} (all : AtQueries P events)
    (contacts : List (Contact α)) : AtQueries P (events ++ contacts.map .passed) := by
  induction contacts generalizing events with
  | nil => rwa [List.map_nil, List.append_nil]
  | cons c rest further =>
    have one : AtQueries P (events ++ [.passed c]) := all.snoc nofun
    have first := further one
    rw [List.append_assoc] at first
    exact first

end Events

end Walk

end Overlay
