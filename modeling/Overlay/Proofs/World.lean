import Overlay.Simulation

/-!
# Worlds and their moves

What one move does to a world is said once: which stations it leaves as they are, what becomes of
the network, where a request goes when it is sent, and how it ends.
-/
namespace Overlay.World

/-- The station that would take a call to an identifier: the one registered for it, if it runs and
the identifier has not been taken offline. -/
def reach? (w : World) (id : Id) : Option Nat := w.simulated.target? w.runs id

/-- The network is a simulated one. -/
def Simulates (w : World) : Prop := w.network = .simulated w.simulated

/-! ## Stations -/

section Stations

variable {w : World} {number : Nat}

/-- What is read off the stations, when one of them has changed. -/
theorem map_modify {β : Type} {p : Station → β} {f : Station → Station} {g : β → β}
    (same : ∀ s, p (f s) = g (p s)) (w : World) (number : Nat) :
    (w.modify number f).stations.toList.map p = (w.stations.toList.map p).modify number g := by
  rw [modify, Array.toList_modify]
  refine List.ext_getElem? fun i => ?_
  rw [List.getElem?_map, List.getElem?_modify, List.getElem?_modify, List.getElem?_map]
  cases w.stations.toList[i]? with
  | none => rfl
  | some s =>
    by_cases here : number = i
    · simp [here, same]
    · simp [here]

/-- What is read off the stations and does not change. -/
theorem map_modify_of_same {β : Type} {p : Station → β} {f : Station → Station}
    (same : ∀ s, p (f s) = p s) (w : World) (number : Nat) :
    (w.modify number f).stations.toList.map p = w.stations.toList.map p := by
  rw [map_modify (g := id) same, List.modify_id]

/-- The station of a number, when one has changed. -/
theorem station?_modify (w : World) (number other : Nat) (f : Station → Station) :
    (w.modify number f).station? other =
      if number = other then (w.station? other).map f else w.station? other := by
  rw [station?, station?, modify, Array.getElem?_modify]

/-- A station runs after a change of it as the changed station does. -/
theorem runs_modify (w : World) (number : Nat) (f : Station → Station) :
    (w.modify number f).runs number = ((w.station? number).map f).any (·.runs) := by
  rw [runs, station?_modify, if_pos rfl]
  cases w.station? number <;> rfl

/-- Changes that agree on a station change the world alike. -/
theorem modify_congr {w : World} {number : Nat} {f g : Station → Station}
    (same : ∀ s, w.station? number = some s → f s = g s) :
    w.modify number f = w.modify number g := by
  have stations : w.stations.modify number f = w.stations.modify number g := by
    refine Array.ext_getElem? fun i => ?_
    rw [Array.getElem?_modify, Array.getElem?_modify]
    split
    · next here =>
      subst here
      exact Option.map_congr same
    · rfl
  rw [modify, stations, modify]

/-- A change that leaves a station as it is leaves the world as it is. -/
theorem modify_of_same {w : World} {number : Nat} {f : Station → Station}
    (same : ∀ s, w.station? number = some s → f s = s) : w.modify number f = w := by
  rw [modify_congr (g := id) same]
  have stations : w.stations.modify number id = w.stations := by
    refine Array.ext_getElem? fun i => ?_
    rw [Array.getElem?_modify, Option.map_id_fun, id, ite_self]
  rw [modify, stations]

/-- The probes of a station end if it does not run. -/
theorem closeIfIdle_eq (w : World) (number : Nat) :
    w.closeIfIdle number =
      if w.runs number then w else w.modify number fun s => { s with node := s.node.close } := by
  rw [closeIfIdle]
  cases awake : w.runs number with
  | true =>
    refine modify_of_same fun s here => ?_
    rw [runs, here] at awake
    exact if_pos awake
  | false =>
    refine modify_congr fun s here => ?_
    rw [runs, here] at awake
    exact if_neg (Bool.eq_false_iff.mp awake)

/-- Ending the probes of an idle station leaves which stations run. -/
theorem runs_closeIfIdle (w : World) (number : Nat) :
    (w.closeIfIdle number).runs number = w.runs number := by
  rw [closeIfIdle_eq]
  cases awake : w.runs number with
  | true => exact awake
  | false =>
    rw [if_neg Bool.false_ne_true, runs_modify, ← awake, runs]
    cases w.station? number <;> rfl

end Stations

/-! ## The network -/

section Requests

variable {w : World}

/-- What is in flight under other numbers when the request of one has ended. -/
theorem lookup_filter_ne (flights : List (Nat × Flight)) (number other : Nat) :
    (flights.filter fun e => e.1 ≠ number).lookup other =
      if other = number then none else flights.lookup other := by
  induction flights with
  | nil => simp
  | cons e rest further =>
    rw [List.filter_cons]
    by_cases same : e.1 = number
    · rw [if_neg (by simp [same]), further, List.lookup_cons]
      by_cases here : other = number
      · rw [if_pos here, if_pos here]
      · have skipped : (other == e.1) = false := by simp [same, here]
        rw [if_neg here, if_neg here, skipped]
    · rw [if_pos (by simp [same]), List.lookup_cons, List.lookup_cons, further]
      by_cases here : other = number
      · have skipped : (other == e.1) = false := by simp [here, Ne.symm same]
        rw [if_pos here, if_pos here, skipped]
      · rw [if_neg here, if_neg here]

/-- A change of the network leaves the stations. -/
theorem stations_onSimulated (w : World) (f : Simulated → Simulated) :
    (w.onSimulated f).stations = w.stations := by
  rw [onSimulated]
  split <;> rfl

/-- A change of a simulated network leaves a simulated network. -/
theorem Simulates.onSimulated (simulates : w.Simulates) (f : Simulated → Simulated) :
    (w.onSimulated f).Simulates ∧ (w.onSimulated f).simulated = f w.simulated := by
  rw [Simulates] at simulates
  constructor
  · rw [Simulates, simulated, World.onSimulated, simulates]
  · rw [simulated, World.onSimulated, simulates]

/-- A delivery is counted by the network. -/
theorem countDelivery_eq (w : World) :
    w.countDelivery = w.onSimulated fun s => { s with delivered := s.delivered + 1 } := by
  rw [countDelivery, onSimulated]
  cases w.network <;> rfl

/-- A request that is sent is on its way to the station that takes it, or is turned away at once and
counted. -/
theorem send_cases (simulates : w.Simulates) (caller : Peer) (call : Call String) :
    (∃ number, w.reach? call.callee.id = some number ∧
      w.send caller call =
        (⟨caller, call.request, some (w.now + w.simulated.latency), call.limit.map (w.now + ·),
          .station number⟩, w.addVisitor number)) ∨
    (w.reach? call.callee.id = none ∧
      w.send caller call =
        (⟨caller, call.request, some w.now, call.limit.map (w.now + ·),
          .reply (.error (.unreachable (Simulated.label call.callee)))⟩,
          w.onSimulated fun s => { s with dropped := s.dropped + 1 })) := by
  rw [Simulates] at simulates
  rw [reach?]
  unfold send
  cases reached : w.simulated.target? w.runs call.callee.id with
  | some number =>
    refine .inl ⟨number, rfl, ?_⟩
    rw [simulates]
    simp only [Simulated.send, reached]
    rw [← simulates]
  | none =>
    refine .inr ⟨rfl, ?_⟩
    rw [onSimulated, simulates]
    simp only [Simulated.send, reached]

/-- A station takes calls to an identifier if it is registered for it and runs, and the identifier
has not been taken offline. -/
theorem reach?_eq_some_iff {id : Id} {number : Nat} :
    w.reach? id = some number ↔
      w.simulated.station? id = some number ∧ w.runs number = true ∧ id ∉ w.simulated.offline := by
  simp [reach?, Simulated.target?, Option.filter_eq_some_iff]

/-- A station that runs is one of the stations. -/
theorem exists_of_runs {number : Nat} (runs : w.runs number = true) :
    ∃ s, w.station? number = some s ∧ s.runs = true := by
  rw [World.runs] at runs
  cases here : w.station? number with
  | none =>
    rw [here] at runs
    cases runs
  | some s =>
    rw [here] at runs
    exact ⟨s, rfl, runs⟩

/-- How a request that is under way ends: it arrives, or its sender stops waiting for it. -/
inductive Ends (w : World) (f : Flight) : Reply String → World → Prop
  /-- It arrives. -/
  | lands : w.Ends f (w.land f).1 (w.land f).2
  /-- Its sender has withdrawn it, or its time is up. -/
  | lost (fault : Fault) (own : fault = .cancelled ∨ fault = .timeout) :
      w.Ends f (.error fault) (w.giveUp f)

/-- A request that ends does so in one of these ways. -/
theorem ends_of_resolve {f : Flight} {fired : Bool} {reply : Reply String} {w' : World}
    (resolved : w.resolve f fired = some (reply, w')) : w.Ends f reply w' := by
  unfold resolve Flight.status at resolved
  split at resolved
  · next airborne => cases resolved
  · have ends : w.Ends f (w.land f).1 (w.land f).2 := .lands
    rwa [Option.some.inj resolved] at ends
  · next fault lost =>
    cases resolved
    refine .lost fault ?_
    split at lost
    · cases lost
    · split at lost
      · exact .inl (Flight.Status.lost.inj lost).symm
      · split at lost
        · exact .inr (Flight.Status.lost.inj lost).symm
        · cases lost

end Requests

end Overlay.World
