import Mathlib.Data.List.Perm.Basic
import Overlay.Lookup.Run
import Overlay.Proofs.Lookup.Knowledge

/-!
# What happens in a lookup

A turn of a worker leaves events behind: a node is taken for a query, and a query is answered,
fails or is withdrawn. The events of a run, in their order, say which identifiers were known at
any moment, which had been asked and which had failed. `LookupRun.Accounts` is what every turn
keeps: the lookup holds what its history says, and the queries that have not ended are the ones
that workers wait for.
-/
namespace Overlay

/-- What happens in a lookup. -/
inductive Lookup.Event (α : Type) where
  /-- A node is taken for a query. -/
  | asked (c : Contact α)
  /-- The query of a node is answered with contacts. -/
  | answered (c : Contact α) (contacts : List (Contact α))
  /-- The query of a node fails. -/
  | failed (c : Contact α) (fault : Fault)
  /-- The query of a node is withdrawn by the caller. -/
  | withdrawn (c : Contact α)

namespace Lookup

variable {α : Type}

namespace Event

/-- How a query ends with a reply. -/
def ended (fired : Bool) (c : Contact α) : Reply α → Event α
  | .ok contacts => .answered c contacts
  | .error fault => if fired && fault.isCancelled then .withdrawn c else .failed c fault

/-- The identifiers that an event brings. -/
def brought : Event α → List Id
  | .answered _ contacts => contacts.map (·.id)
  | .asked _ | .failed _ _ | .withdrawn _ => []

/-- The identifier that is taken for a query. -/
def taken : Event α → List Id
  | .asked c => [c.id]
  | .answered _ _ | .failed _ _ | .withdrawn _ => []

/-- The identifier whose query has failed. -/
def lost : Event α → List Id
  | .failed c _ => [c.id]
  | .asked _ | .answered _ _ | .withdrawn _ => []

/-- The identifier whose query has ended. -/
def closed : Event α → List Id
  | .asked _ => []
  | .answered c _ | .failed c _ | .withdrawn c => [c.id]

/-- The end of a query takes no node for another one. -/
theorem taken_ended (fired : Bool) (c : Contact α) (reply : Reply α) :
    (ended fired c reply).taken = [] := by
  unfold ended
  split
  · rfl
  · split <;> rfl

/-- The end of a query closes it. -/
theorem closed_ended (fired : Bool) (c : Contact α) (reply : Reply α) :
    (ended fired c reply).closed = [c.id] := by
  unfold ended
  split
  · rfl
  · split <;> rfl

/-- The end of a query is not the beginning of one. -/
theorem ended_ne_asked (fired : Bool) (c d : Contact α) (reply : Reply α) :
    ended fired c reply ≠ .asked d := by
  intro same
  have taken := taken_ended fired c reply
  rw [same] at taken
  cases taken

end Event

/-- The identifiers of the seeds and of all contacts returned. -/
def known (seeds : List (Contact α)) (events : List (Event α)) : List Id :=
  seeds.map (·.id) ++ events.flatMap Event.brought

/-- The identifiers asked, in order. -/
def askedIds (events : List (Event α)) : List Id := events.flatMap Event.taken

/-- The identifiers whose query has failed, in order. -/
def failedIds (events : List (Event α)) : List Id := events.flatMap Event.lost

/-- The identifiers whose query has ended, in order. -/
def endedIds (events : List (Event α)) : List Id := events.flatMap Event.closed

/-- One more event adds the identifiers that it brings. -/
@[simp]
theorem known_snoc (seeds : List (Contact α)) (events : List (Event α)) (event : Event α) :
    known seeds (events ++ [event]) = known seeds events ++ event.brought := by
  simp [known]

/-- One more event adds the identifier that it takes. -/
@[simp]
theorem askedIds_snoc (events : List (Event α)) (event : Event α) :
    askedIds (events ++ [event]) = askedIds events ++ event.taken := by
  simp [askedIds]

/-- One more event adds the identifier that it loses. -/
@[simp]
theorem failedIds_snoc (events : List (Event α)) (event : Event α) :
    failedIds (events ++ [event]) = failedIds events ++ event.lost := by
  simp [failedIds]

/-- One more event adds the identifier whose query it ends. -/
@[simp]
theorem endedIds_snoc (events : List (Event α)) (event : Event α) :
    endedIds (events ++ [event]) = endedIds events ++ event.closed := by
  simp [endedIds]

/-- Failures are some of the ends, in the same order. -/
theorem failedIds_sublist (events : List (Event α)) :
    (failedIds events).Sublist (endedIds events) := by
  induction events with
  | nil => exact List.Sublist.slnil
  | cons event rest further =>
    have first : event.lost.Sublist event.closed := by
      cases event <;> simp [Event.lost, Event.closed]
    exact first.append further

/-- Whenever a node was taken for a query, it was closest to the target among the nodes that
were known and had not been asked. -/
def ClosestFirst (target : Id) (seeds : List (Contact α)) (events : List (Event α)) : Prop :=
  ∀ before c after, events = before ++ .asked c :: after →
    target.IsClosest (fun id => id ∈ known seeds before ∧ id ∉ askedIds before) c.id

/-- One more event keeps the order of the queries when it takes no other node than the closest. -/
theorem ClosestFirst.snoc {target : Id} {seeds : List (Contact α)} {events : List (Event α)}
    (ordered : ClosestFirst target seeds events) {event : Event α}
    (next : ∀ c, event = .asked c →
      target.IsClosest (fun id => id ∈ known seeds events ∧ id ∉ askedIds events) c.id) :
    ClosestFirst target seeds (events ++ [event]) := by
  intro before c after split
  rcases List.eq_nil_or_concat after with rfl | ⟨later, last, rfl⟩
  · obtain ⟨rfl, equal⟩ := List.append_inj' split rfl
    exact next c (List.singleton_inj.mp equal)
  · rw [List.concat_eq_append, ← List.cons_append, ← List.append_assoc] at split
    obtain ⟨same, _⟩ := List.append_inj' split rfl
    exact ordered before c later same

/-- A query that ends changes the lookup by what its end says. -/
theorem Tracks.ended {l : Lookup α} {known asked failed : List Id}
    (tracks : l.Tracks known asked failed) (fired : Bool) (c : Contact α) (reply : Reply α)
    (member : c.id ∈ asked) :
    (l.complete fired c reply).Tracks (known ++ (Event.ended fired c reply).brought)
      (asked ++ (Event.ended fired c reply).taken)
      (failed ++ (Event.ended fired c reply).lost) := by
  cases reply with
  | ok contacts =>
    simpa [Event.ended, Event.brought, Event.taken, Event.lost] using
      tracks.answer fired c contacts
  | error fault =>
    cases dropped : fired && fault.isCancelled with
    | true =>
      simpa [Event.ended, dropped, Event.brought, Event.taken, Event.lost] using
        tracks.withdrawal fired c fault dropped
    | false =>
      simpa [Event.ended, dropped, Event.brought, Event.taken, Event.lost] using
        tracks.failure fired c fault dropped member

end Lookup

end Overlay
