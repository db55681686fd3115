import Mathlib.Data.Finset.Dedup
import Mathlib.Data.Set.Card
import Overlay.Proofs.Lookup.Run

/-!
# Lookups that ask everyone

A worker may stop when nothing is left to ask and no query is in flight; it then leaves nothing
behind for the others either. A lookup that nobody withdraws and that ends without having
converged has therefore asked every node that can be reached from its seeds. When every node
has one outcome, whenever and by whomever it is asked, neither the number of workers nor the
order of their turns nor the order of the replies shows in what such a lookup returns.
-/
namespace Overlay

namespace Lookup

variable {α : Type} {outcome : Id → Reply α} {seeds : List (Contact α)}

/-- The identifiers that can be reached from the seeds through the contacts that nodes answer
with. -/
inductive Reached (outcome : Id → Reply α) (seeds : List (Contact α)) : Id → Prop where
  /-- The seeds are reached. -/
  | seed {c : Contact α} (listed : c ∈ seeds) : Reached outcome seeds c.id
  /-- What a reached node answers with is reached. -/
  | neighbour {id : Id} {contacts : List (Contact α)} {c : Contact α}
      (reached : Reached outcome seeds id) (answer : outcome id = .ok contacts)
      (listed : c ∈ contacts) : Reached outcome seeds c.id

/-- The lookup has asked everyone who can be reached and returns the closest who answered. -/
structure Exhausts (outcome : Id → Reply α) (target : Id) (width : Nat)
    (seeds : List (Contact α)) (l : Lookup α) : Prop where
  /-- The nodes asked are the nodes reached. -/
  asked : ∀ id, id ∈ l.asked ↔ Reached outcome seeds id
  /-- Each of them is one query. -/
  queries : l.queries = Set.ncard {id | Reached outcome seeds id}
  /-- Each of them that fails is one failure. -/
  failures : l.failures =
    Set.ncard {id | Reached outcome seeds id ∧ ∃ fault, outcome id = .error fault}
  /-- The result is the list of the closest ones that do not fail. -/
  closest : Id.Closest target width
    (fun id => Reached outcome seeds id ∧ ¬∃ fault, outcome id = .error fault)
    (l.closest.map (·.id))

/-- An event is what the outcome of its node makes it. -/
def Event.Fits (outcome : Id → Reply α) : Event α → Prop
  | .answered c contacts => outcome c.id = .ok contacts
  | .failed c fault => outcome c.id = .error fault
  | .asked _ | .withdrawn _ => True

/-- The fit of an event can be checked. -/
instance Event.decidableFits [DecidableEq α] (outcome : Id → Reply α) (event : Event α) :
    Decidable (event.Fits outcome) :=
  match event with
  | .answered c contacts => inferInstanceAs (Decidable (outcome c.id = .ok contacts))
  | .failed c fault => inferInstanceAs (Decidable (outcome c.id = .error fault))
  | .asked _ | .withdrawn _ => isTrue trivial

/-! ## Histories that fit -/

section Events

variable {events : List (Event α)}

/-- A query that ended without being withdrawn ended as the outcome of its node says. -/
theorem exists_of_mem_endedIds (kept : ∀ c, .withdrawn c ∉ events) {id : Id}
    (ended : id ∈ endedIds events) :
    (∃ c contacts, .answered c contacts ∈ events ∧ c.id = id) ∨
      ∃ c fault, .failed c fault ∈ events ∧ c.id = id := by
  obtain ⟨event, happened, closed⟩ := List.mem_flatMap.mp ended
  cases event with
  | asked c => cases closed
  | answered c contacts =>
    exact Or.inl ⟨c, contacts, happened, (List.mem_singleton.mp closed).symm⟩
  | failed c fault => exact Or.inr ⟨c, fault, happened, (List.mem_singleton.mp closed).symm⟩
  | withdrawn c => exact absurd happened (kept c)

/-- The nodes that failed are those that were asked and have no answer. -/
theorem mem_failedIds_iff (kept : ∀ c, .withdrawn c ∉ events)
    (fits : ∀ event ∈ events, event.Fits outcome) (id : Id) :
    id ∈ failedIds events ↔ id ∈ endedIds events ∧ ∃ fault, outcome id = .error fault := by
  constructor
  · intro failed
    refine ⟨(failedIds_sublist events).subset failed, ?_⟩
    obtain ⟨event, happened, lost⟩ := List.mem_flatMap.mp failed
    cases event with
    | failed c fault =>
      rw [List.mem_singleton.mp lost]
      exact ⟨fault, fits _ happened⟩
    | asked c => cases lost
    | answered c contacts => cases lost
    | withdrawn c => cases lost
  · rintro ⟨ended, fault, outcome_eq⟩
    rcases exists_of_mem_endedIds kept ended with ⟨c, contacts, happened, rfl⟩ |
      ⟨c, fault', happened, rfl⟩
    · have answer : outcome c.id = .ok contacts := fits _ happened
      rw [outcome_eq] at answer
      cases answer
    · exact List.mem_flatMap.mpr ⟨_, happened, List.mem_singleton.mpr rfl⟩

/-- What a node answers with is known once its query has ended. -/
theorem mem_known_of_ended (kept : ∀ c, .withdrawn c ∉ events)
    (fits : ∀ event ∈ events, event.Fits outcome) {id : Id} {contacts : List (Contact α)}
    (ended : id ∈ endedIds events) (answer : outcome id = .ok contacts) {c : Contact α}
    (listed : c ∈ contacts) : c.id ∈ known seeds events := by
  rcases exists_of_mem_endedIds kept ended with ⟨d, contacts', happened, rfl⟩ |
    ⟨d, fault, happened, rfl⟩
  · have same : outcome d.id = .ok contacts' := fits _ happened
    obtain rfl : contacts = contacts' := Except.ok.inj (answer.symm.trans same)
    refine List.mem_append_right _ (List.mem_flatMap.mpr ⟨_, happened, ?_⟩)
    exact List.mem_map_of_mem listed
  · have failed : outcome d.id = .error fault := fits _ happened
    rw [answer] at failed
    cases failed

/-- When all that is known has been asked and has ended, all that can be reached is known. -/
theorem known_of_reached (kept : ∀ c, .withdrawn c ∉ events)
    (fits : ∀ event ∈ events, event.Fits outcome)
    (ended : ∀ id ∈ known seeds events, id ∈ endedIds events) {id : Id}
    (reached : Reached outcome seeds id) : id ∈ known seeds events := by
  induction reached with
  | seed listed => exact List.mem_append_left _ (List.mem_map_of_mem listed)
  | neighbour _ answer listed before =>
    exact mem_known_of_ended kept fits (ended _ before) answer listed

end Events

/-- A set that a list without repetition enumerates is as large as the list is long. -/
theorem ncard_eq_length {ids : List Id} (nodup : ids.Nodup) {set : Id → Prop}
    (same : ∀ id, id ∈ ids ↔ set id) : Set.ncard {id | set id} = ids.length := by
  have enumerated : {id | set id} = (ids.toFinset : Set Id) := by
    ext id
    simp [same]
  rw [enumerated, Set.ncard_coe_finset, List.toFinset_card_of_nodup nodup]

end Lookup

namespace LookupRun

open Lookup (Event Reached)

variable {α : Type} {outcome : Id → Reply α} {target : Id} {width alpha : Nat}
  {seeds : List (Contact α)} {events : List (Event α)} {run : LookupRun α} {i : Nat}

/-- What holds of a run that nobody withdraws. -/
structure Undisturbed (outcome : Id → Reply α) (alpha : Nat) (seeds : List (Contact α))
    (events : List (Event α)) (run : LookupRun α) : Prop where
  /-- No worker is lost. -/
  staffed : run.workers.length = alpha
  /-- No query is withdrawn. -/
  kept : ∀ c, .withdrawn c ∉ events
  /-- Only what can be reached is known. -/
  reached : ∀ id ∈ Lookup.known seeds events, Reached outcome seeds id
  /-- A worker that stopped without convergence left nothing behind. -/
  drained : run.lookup.converged = false → .stopped ∈ run.workers →
    run.lookup.frontier = [] ∧ run.lookup.inFlight = 0

namespace Undisturbed

/-- A new run has not been disturbed. -/
theorem ofSeeds (outcome : Id → Reply α) (target : Id) (width patience alpha : Nat)
    (seeds : List (Contact α)) :
    Undisturbed outcome alpha seeds []
      (LookupRun.ofSeeds target width patience alpha seeds) where
  staffed := List.length_replicate
  kept c := List.not_mem_nil
  reached := by
    intro id listed
    rw [Lookup.known, List.flatMap_nil, List.append_nil] at listed
    obtain ⟨c, seed, rfl⟩ := List.mem_map.mp listed
    exact .seed seed
  drained _ stopped := by
    have idle := List.eq_of_mem_replicate stopped
    cases idle

/-- A worker that goes on has not stopped. -/
theorem stopped_of_set {worker : Worker α} (busy : worker ≠ .stopped)
    (stopped : .stopped ∈ run.workers.set i worker) : .stopped ∈ run.workers := by
  rcases List.mem_or_eq_of_mem_set stopped with before | now
  · exact before
  · exact absurd now.symm busy

/-- A run whose worker begins a query is not disturbed. -/
theorem ask (undisturbed : Undisturbed outcome alpha seeds events run) {c : Contact α}
    {rest : List (Contact α)} (first : run.lookup.frontier = c :: rest) :
    Undisturbed outcome alpha seeds (events ++ [.asked c])
      ({ run with lookup := run.lookup.taken c rest }.setWorker i (.awaiting c)) where
  staffed := (List.length_set).trans undisturbed.staffed
  kept d := by simp [undisturbed.kept d]
  reached := by
    rw [Lookup.known_snoc, Event.brought, List.append_nil]
    exact undisturbed.reached
  drained unsettled stopped := by
    have before := stopped_of_set (by simp) stopped
    have empty := (undisturbed.drained unsettled before).1
    rw [first] at empty
    cases empty

/-- A run whose worker receives a reply that fits is not disturbed. -/
theorem receive (undisturbed : Undisturbed outcome alpha seeds events run)
    (accounts : Accounts target width seeds events run) {c : Contact α}
    (waiting : run.workers[i]? = some (.awaiting c)) (reply : Reply α)
    (fits : (Event.ended false c reply).Fits outcome) :
    Undisturbed outcome alpha seeds (events ++ [.ended false c reply])
      ({ run with lookup := run.lookup.complete false c reply }.setWorker i .idle) where
  staffed := (List.length_set).trans undisturbed.staffed
  kept d := by cases reply <;> simp [undisturbed.kept d, Event.ended]
  reached := by
    intro id listed
    rw [Lookup.known_snoc] at listed
    rcases List.mem_append.mp listed with before | brought
    · exact undisturbed.reached id before
    · cases reply with
      | error fault => simp [Event.ended, Event.brought] at brought
      | ok contacts =>
        obtain ⟨d, returned, rfl⟩ := List.mem_map.mp brought
        have asked := accounts.mem_asked_of_awaiting waiting
        have reached := undisturbed.reached c.id (accounts.tracks.asked_known c.id asked)
        exact .neighbour reached fits returned
  drained unsettled stopped := by
    obtain ⟨_, _, _, _, _, frame⟩ := run.lookup.complete_frame false c reply
    rw [setWorker, frame] at unsettled
    -- A worker that had stopped would have left no query in flight for this one to wait for.
    have landed := (undisturbed.drained unsettled (stopped_of_set (by simp) stopped)).2
    have flying := accounts.flying_of_awaiting waiting
    omega

/-- A run whose events fit is not disturbed by any step. -/
theorem step {more : List (Event α)} {next : LookupRun α}
    (undisturbed : Undisturbed outcome alpha seeds events run)
    (accounts : Accounts target width seeds events run) (step : Step false run more next)
    (fits : ∀ event ∈ more, event.Fits outcome) :
    Undisturbed outcome alpha seeds (events ++ more) next := by
  cases step with
  | quit _ fired => cases fired
  | converge _ _ =>
    rw [List.append_nil]
    exact { undisturbed with
      staffed := (List.length_set).trans undisturbed.staffed
      drained := nofun }
  | exhaust _ _ empty landed =>
    rw [List.append_nil]
    exact { undisturbed with
      staffed := (List.length_set).trans undisturbed.staffed
      drained := fun _ _ => ⟨empty, landed⟩ }
  | ask _ _ first => exact undisturbed.ask first
  | @receive _ c fired reply waiting calm =>
    obtain rfl : fired = false := by simpa using calm
    exact undisturbed.receive accounts waiting reply (fits _ (List.mem_singleton.mpr rfl))

/-- A course whose events fit does not disturb the run. -/
theorem course {start : LookupRun α} (begin : Undisturbed outcome alpha seeds [] start)
    (clean : Accounts target width seeds [] start) (course : Course false start events run)
    (fits : ∀ event ∈ events, event.Fits outcome) :
    Undisturbed outcome alpha seeds events run := by
  induction course with
  | refl => exact begin
  | step before step further =>
    have past := further fun event happened => fits event (List.mem_append_left _ happened)
    exact past.step (clean.course before) step
      fun event happened => fits event (List.mem_append_right _ happened)

end Undisturbed

/-- A drained run that accounts for its history has asked everyone who can be reached. -/
theorem Undisturbed.exhausts (undisturbed : Undisturbed outcome alpha seeds events run)
    (accounts : Accounts target width seeds events run)
    (fits : ∀ event ∈ events, event.Fits outcome) (empty : run.lookup.frontier = [])
    (landed : run.lookup.inFlight = 0) :
    run.lookup.Exhausts outcome target width seeds := by
  have tracks := accounts.tracks
  have pending := accounts.asked_perm_ended landed
  have ended : ∀ id ∈ Lookup.known seeds events, id ∈ Lookup.endedIds events :=
    fun id listed => pending.mem_iff.mp (accounts.asked_of_known empty listed)
  have known : ∀ id, id ∈ Lookup.known seeds events ↔ Reached outcome seeds id := fun id =>
    ⟨undisturbed.reached id, Lookup.known_of_reached undisturbed.kept fits ended⟩
  have asked : ∀ id, id ∈ Lookup.askedIds events ↔ Reached outcome seeds id := fun id =>
    Iff.trans ⟨tracks.asked_known id, accounts.asked_of_known empty⟩ (known id)
  have failed : ∀ id, id ∈ Lookup.failedIds events ↔
      Reached outcome seeds id ∧ ∃ fault, outcome id = .error fault := by
    intro id
    rw [Lookup.mem_failedIds_iff undisturbed.kept fits, ← pending.mem_iff, asked id]
  have failed_once : (Lookup.failedIds events).Nodup :=
    (pending.nodup tracks.once).sublist (Lookup.failedIds_sublist events)
  exact {
    asked := fun id => by rw [tracks.recorded, List.mem_reverse, asked id]
    queries := by rw [tracks.queries, Lookup.ncard_eq_length tracks.once asked]
    failures := by rw [tracks.failures, Lookup.ncard_eq_length failed_once failed]
    closest := by
      have closest := tracks.closest
      rw [accounts.aimed, accounts.sized] at closest
      refine closest.congr fun id => ?_
      rw [failed id, known id]
      tauto }

/-- The moves bring a run to its end over a network of fixed outcomes, without a withdrawal and
without convergence. -/
structure Concludes (outcome : Id → Reply α) (run : LookupRun α) (moves : List (Move α)) :
    Prop where
  /-- Nobody withdraws the lookup. -/
  calm : ∀ m ∈ moves, m.fired = false
  /-- Every query ends as the outcome of its node says. -/
  fits : ∀ event ∈ (run.play moves).1, event.Fits outcome
  /-- All workers have stopped. -/
  ended : (run.play moves).2.isOver = true
  /-- The lookup has not converged. -/
  unconverged : (run.play moves).2.lookup.converged = false

/-- A run that is brought to its end has asked everyone who can be reached. -/
theorem Concludes.exhausts {patience : Nat} {moves : List (Move α)}
    (concludes : Concludes outcome (ofSeeds target width patience alpha seeds) moves)
    (staffed : 0 < alpha) :
    ((ofSeeds target width patience alpha seeds).play moves).2.lookup.Exhausts outcome target
      width seeds := by
  have accounts := Accounts.play target width patience alpha seeds moves
  have begin := @Course.refl α false (ofSeeds target width patience alpha seeds)
  have calm : ∀ m ∈ moves, m.fired = true → false = true := fun m member fired => by
    rw [concludes.calm m member] at fired
    exact fired
  have undisturbed := (Undisturbed.ofSeeds outcome target width patience alpha seeds).course
    (Accounts.ofSeeds target width patience alpha seeds) (begin.play moves calm) concludes.fits
  obtain ⟨worker, present⟩ := List.exists_mem_of_length_pos (undisturbed.staffed ▸ staffed)
  have stopped : worker = .stopped := by
    have done := List.all_eq_true.mp concludes.ended worker present
    cases worker with
    | idle => cases done
    | awaiting c => cases done
    | stopped => rfl
  obtain ⟨empty, landed⟩ := undisturbed.drained concludes.unconverged (stopped ▸ present)
  exact undisturbed.exhausts accounts concludes.fits empty landed

/-- A lookup that ends over a network of fixed outcomes without having converged has asked
everyone who can be reached from its seeds and returns the closest who did not fail; any other
such lookup with the same seeds returns the same identifiers and the same counts, with any
number of workers and any order of their turns and replies. -/
theorem play_exhausts {outcome : Id → Reply α} {target : Id} {width : Nat}
    {seeds : List (Contact α)} {patience alpha : Nat} {moves : List (Move α)}
    (staffed : 0 < alpha)
    (concludes : Concludes outcome (ofSeeds target width patience alpha seeds) moves) :
    let l := ((ofSeeds target width patience alpha seeds).play moves).2.lookup
    l.Exhausts outcome target width seeds ∧
    ∀ (patience' alpha' : Nat) (moves' : List (Move α)), 0 < alpha' →
      Concludes outcome (ofSeeds target width patience' alpha' seeds) moves' →
      let l' := ((ofSeeds target width patience' alpha' seeds).play moves').2.lookup
      l'.closest.map (·.id) = l.closest.map (·.id) ∧
      l'.queries = l.queries ∧ l'.failures = l.failures := by
  have exhausts := concludes.exhausts staffed
  refine ⟨exhausts, fun patience' alpha' moves' staffed' concludes' => ?_⟩
  have again := concludes'.exhausts staffed'
  exact ⟨again.closest.unique exhausts.closest, again.queries.trans exhausts.queries.symm,
    again.failures.trans exhausts.failures.symm⟩

/-- Three nodes, of which the first answers with all of them, the second fails, and the third is
not among the seeds. -/
def trio : Vector (Contact Unit) 3 := #v[⟨⟨1⟩, ()⟩, ⟨⟨2⟩, ()⟩, ⟨⟨3⟩, ()⟩]

/-- The outcomes of the three nodes. -/
def trioOutcome (id : Id) : Reply Unit :=
  if id = trio[0].id then .ok trio.toList
  else if id = trio[1].id then .error .timeout
  else .ok [trio[0]]

/-- A turn of a worker in a lookup by a node that is none of the three. -/
def trioMove (worker : Nat) (reply : Option (Reply Unit)) : Move Unit :=
  ⟨.bare ⟨.zero, ()⟩ {}, 0, false, worker, reply⟩

/-- Two workers ask the first and the second node at once, and the third after the first has
answered. -/
def trioMoves : List (Move Unit) :=
  [trioMove 0 none, trioMove 1 none, trioMove 0 (some (.ok trio.toList)), trioMove 0 none,
    trioMove 1 (some (.error .timeout)), trioMove 1 none, trioMove 0 (some (.ok [trio[0]])),
    trioMove 0 none, trioMove 1 none]

/-- One worker asks the three nodes one after the other. -/
def trioMovesAlone : List (Move Unit) :=
  [trioMove 0 none, trioMove 0 (some (.ok trio.toList)), trioMove 0 none,
    trioMove 0 (some (.error .timeout)), trioMove 0 none, trioMove 0 (some (.ok [trio[0]])),
    trioMove 0 none]

/-- Two workers and one worker conclude a lookup among the three nodes, which asks all of them
and returns the two that answer. -/
theorem play_exhausts_trio :
    Concludes trioOutcome (ofSeeds .zero 2 6 2 [trio[0], trio[1]]) trioMoves ∧
    Concludes trioOutcome (ofSeeds .zero 2 6 1 [trio[0], trio[1]]) trioMovesAlone ∧
    (let l := ((ofSeeds .zero 2 6 2 [trio[0], trio[1]]).play trioMoves).2.lookup
    let l' := ((ofSeeds .zero 2 6 1 [trio[0], trio[1]]).play trioMovesAlone).2.lookup
    l.closest = [trio[0], trio[2]] ∧ l.Exhausts trioOutcome .zero 2 [trio[0], trio[1]] ∧
    l'.closest.map (·.id) = l.closest.map (·.id) ∧ l'.queries = l.queries ∧
    l'.failures = l.failures) := by
  have together : Concludes trioOutcome (ofSeeds .zero 2 6 2 [trio[0], trio[1]]) trioMoves :=
    ⟨by decide, by decide, by decide, by decide⟩
  have alone : Concludes trioOutcome (ofSeeds .zero 2 6 1 [trio[0], trio[1]]) trioMovesAlone :=
    ⟨by decide, by decide, by decide, by decide⟩
  obtain ⟨exhausts, same⟩ := play_exhausts (by decide) together
  exact ⟨together, alone, by decide, exhausts, same 6 1 trioMovesAlone (by decide) alone⟩

end LookupRun

end Overlay
