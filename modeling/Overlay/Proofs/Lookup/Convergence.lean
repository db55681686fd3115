import Mathlib
import Overlay.Proofs.Lookup.Progress

/-!
# When a lookup says that it has converged

A worker that finds the rule of convergence fulfilled raises the flag of the lookup and stops.
Nobody takes the flag back. Queries that the other workers have under way at that moment may
still end, and only such an end can unsettle the lookup again: a failure takes a node out of the
pool, or an answer brings one into its front. The flag therefore says that the rule was fulfilled
once, and that it still is unless one of these queries has ended in such a way.
-/
namespace Overlay

/-- The closest members of a set are no fewer than those of a part of it. -/
theorem Id.Closest.length_le {target : Id} {count : Nat} {set set' : Id → Prop}
    {ids others : List Id} (closest : Closest target count set ids)
    (wider : Closest target count set' others) (part : ∀ id, set id → set' id) :
    ids.length ≤ others.length := by
  by_contra fewer
  -- As there is room left, all members are listed.
  have listed : ids ⊆ others := by
    intro id member
    by_contra missing
    have full := (wider.others id (part id (closest.members id member)) missing).1
    have bounded := closest.bounded
    omega
  exact fewer (closest.nodup.subperm listed).length_le

namespace Lookup

variable {α : Type} {target : Id} {width patience : Nat} {seeds : List (Contact α)}
  {events : List (Event α)} {event : Event α}

/-- The rule of convergence is fulfilled after these events: the pool holds `width` nodes, and as
many queries as the patience says have completed in a row without an improvement. -/
structure Settled (target : Id) (width patience : Nat) (seeds : List (Contact α))
    (events : List (Event α)) : Prop where
  /-- The lookup has as many nodes as it looks for. -/
  wide : ∃ ids, Id.Closest target width
    (fun id => id ∈ known seeds events ∧ id ∉ failedIds events) ids ∧ ids.length = width
  /-- The last completed queries, enough of them, were no improvement. -/
  still : ∃ past recent, events = past ++ recent ∧ Unimproved target width seeds past recent ∧
    patience ≤ completed recent

/-- The event takes a node out of the pool, or brings one into its front. -/
def Event.Unsettles (target : Id) (width : Nat) (seeds : List (Contact α))
    (before : List (Event α)) (event : Event α) : Prop :=
  event.lost ≠ [] ∨ event.Improves target width seeds before

/-- The event ends a query that was under way after these events. -/
def Event.EndsPending (before : List (Event α)) (event : Event α) : Prop :=
  ∃ id ∈ event.closed, id ∈ askedIds before ∧ id ∉ endedIds before

/-- The rule of convergence was fulfilled at some moment, and it still is unless a query that was
under way at that moment has unsettled the lookup since. -/
def OnceSettled (target : Id) (width patience : Nat) (seeds : List (Contact α))
    (events : List (Event α)) : Prop :=
  ∃ before after, events = before ++ after ∧ Settled target width patience seeds before ∧
    (Settled target width patience seeds events ∨
      ∃ early event late, after = early ++ event :: late ∧
        event.Unsettles target width seeds (before ++ early) ∧ event.EndsPending before)

/-- A lookup that is settled stays so with an event that does not unsettle it. -/
theorem Settled.snoc (settled : Settled target width patience seeds events)
    (calm : ¬event.Unsettles target width seeds events) {ids : List Id}
    (next : Id.Closest target width (fun id => id ∈ known seeds (events ++ [event]) ∧
      id ∉ failedIds (events ++ [event])) ids) :
    Settled target width patience seeds (events ++ [event]) := by
  obtain ⟨kept, none⟩ := not_or.mp calm
  have lost : event.lost = [] := not_not.mp kept
  constructor
  · obtain ⟨earlier, closest, full⟩ := settled.wide
    have grown : earlier.length ≤ ids.length := by
      refine closest.length_le next fun id held => ?_
      rw [known_snoc, failedIds_snoc, lost, List.append_nil]
      exact ⟨List.mem_append_left _ held.1, held.2⟩
    exact ⟨ids, next, Nat.le_antisymm next.bounded (full ▸ grown)⟩
  · obtain ⟨past, recent, rfl, unimproved, enough⟩ := settled.still
    refine ⟨past, recent ++ [event], List.append_assoc .., unimproved.snoc none, ?_⟩
    rw [completed, List.countP_append]
    exact Nat.le_trans enough (Nat.le_add_right _ _)

end Lookup

namespace LookupRun

open Lookup (Event Settled OnceSettled completed)

variable {α : Type} {target : Id} {width alpha : Nat} {seeds : List (Contact α)}
  {events : List (Event α)} {run : LookupRun α} {i : Nat}

/-- What a worker finds is the rule of convergence. -/
theorem Paced.hasConverged_iff (paced : Paced target width alpha seeds events run)
    (accounts : Accounts target width seeds events run) :
    run.lookup.hasConverged = true ↔ Settled target width (2 * alpha) seeds events := by
  have closest := accounts.tracks.closest
  rw [accounts.aimed, accounts.sized] at closest
  have length : (run.lookup.closest.map (·.id)).length = min width run.lookup.pool.length := by
    rw [List.length_map, Lookup.closest, List.length_take, accounts.sized]
  obtain ⟨past, recent, split, since, counted⟩ := paced.stale
  rw [Lookup.hasConverged, Bool.and_eq_true, decide_eq_true_eq, decide_eq_true_eq, paced.patient,
    accounts.sized, counted]
  constructor
  · rintro ⟨wide, enough⟩
    refine ⟨⟨_, closest, ?_⟩, past, recent, split, since.unimproved, enough⟩
    rw [length]
    exact Nat.min_eq_left wide
  · intro settled
    obtain ⟨ids, again, full⟩ := settled.wide
    obtain ⟨earlier, later, split', unimproved, enough⟩ := settled.still
    rw [again.unique closest, length] at full
    refine ⟨by omega, Nat.le_trans enough ?_⟩
    exact since.completed_le (split.symm.trans split') unimproved

/-- What the flag of the lookup says: the rule was fulfilled at some moment; and either it still is,
and no query has begun since, or a query that was under way then has unsettled the lookup. -/
def Flagged (target : Id) (width alpha : Nat) (seeds : List (Contact α)) (events : List (Event α))
    (run : LookupRun α) : Prop :=
  run.lookup.converged = true → ∃ before after, events = before ++ after ∧
    Settled target width (2 * alpha) seeds before ∧
    (Settled target width (2 * alpha) seeds events ∧ Lookup.askedIds after = [] ∨
      ∃ early event late, after = early ++ event :: late ∧
        event.Unsettles target width seeds (before ++ early) ∧ event.EndsPending before)

section Flagged

variable (flagged : Flagged target width alpha seeds events run)
  (paced : Paced target width alpha seeds events run)
  (accounts : Accounts target width seeds events run)

include flagged in
/-- What the flag says stays true as long as nothing happens. -/
theorem Flagged.rest {next : LookupRun α} (same : next.lookup.converged = run.lookup.converged) :
    Flagged target width alpha seeds events next := by
  intro raised
  exact flagged (same ▸ raised)

include paced accounts in
/-- A worker raises the flag when the rule is fulfilled. -/
theorem Flagged.raise (settled : run.lookup.hasConverged = true) (next : LookupRun α) :
    Flagged target width alpha seeds events next := by
  intro _
  have rule := (paced.hasConverged_iff accounts).mp settled
  exact ⟨events, [], (List.append_nil _).symm, rule, .inl ⟨rule, rfl⟩⟩

include flagged paced accounts in
/-- When a query begins although the flag is up, the lookup had been unsettled before. -/
theorem Flagged.ask (unsettled : run.lookup.hasConverged = false) {event : Event α}
    {next : LookupRun α} (same : next.lookup.converged = run.lookup.converged) :
    Flagged target width alpha seeds (events ++ [event]) next := by
  intro raised
  obtain ⟨before, after, rfl, rule, state⟩ := flagged (same ▸ raised)
  refine ⟨before, after ++ [event], List.append_assoc .., rule, ?_⟩
  rcases state with ⟨settled, -⟩ | ⟨early, broke, late, rfl, unsettles, pending⟩
  · rw [(paced.hasConverged_iff accounts).mpr settled] at unsettled
    cases unsettled
  · exact .inr ⟨early, broke, late ++ [event], by simp, unsettles, pending⟩

include flagged paced accounts in
/-- A query that ends while the flag is up leaves the lookup settled or unsettles it. -/
theorem Flagged.receive {c : Contact α} (waiting : run.workers[i]? = some (.awaiting c))
    (fired : Bool) (reply : Reply α) :
    Flagged target width alpha seeds (events ++ [.ended fired c reply])
      ({ run with lookup := run.lookup.complete fired c reply }.setWorker i .idle) := by
  intro raised
  have after' := accounts.receive waiting fired reply
  have closest := after'.tracks.closest
  rw [after'.aimed, after'.sized] at closest
  obtain ⟨_, _, _, _, _, frame⟩ := run.lookup.complete_frame fired c reply
  have same : (run.lookup.complete fired c reply).converged = run.lookup.converged := by
    rw [frame]
    rfl
  have asked := accounts.mem_asked_of_awaiting waiting
  have unended : c.id ∉ Lookup.endedIds events := by
    have distinct := accounts.pending.nodup_iff.mp accounts.tracks.once
    exact fun ended => (List.nodup_append.mp distinct).2.2 c.id ended c.id (mem_awaited waiting) rfl
  obtain ⟨before, after, rfl, rule, state⟩ := flagged (same ▸ raised)
  refine ⟨before, after ++ [.ended fired c reply], List.append_assoc .., rule, ?_⟩
  rcases state with ⟨settled, quiet⟩ | ⟨early, broke, late, rfl, unsettles, pending⟩
  · by_cases calm : (Event.ended fired c reply).Unsettles target width seeds (before ++ after)
    · -- No query has begun since the flag went up, so this one was under way then.
      rw [Lookup.askedIds, List.flatMap_append, ← Lookup.askedIds, ← Lookup.askedIds, quiet,
        List.append_nil] at asked
      rw [Lookup.endedIds, List.flatMap_append] at unended
      refine .inr ⟨after, _, [], rfl, calm, c.id, ?_, asked,
        fun ended => unended (List.mem_append_left _ ended)⟩
      rw [Event.closed_ended]
      exact List.mem_singleton_self _
    · refine .inl ⟨settled.snoc calm closest, ?_⟩
      rw [Lookup.askedIds_snoc, quiet, Event.taken_ended]
      rfl
  · exact .inr ⟨early, broke, late ++ [.ended fired c reply], by simp, unsettles, pending⟩

include flagged paced accounts in
/-- Every step keeps what the flag says true. -/
theorem Flagged.step {cancellable : Bool} {more : List (Event α)} {next : LookupRun α}
    (step : Step cancellable run more next) :
    Flagged target width alpha seeds (events ++ more) next := by
  cases step with
  | quit _ _ =>
    rw [List.append_nil]
    exact flagged.rest rfl
  | converge _ settled =>
    rw [List.append_nil]
    exact Flagged.raise paced accounts settled _
  | exhaust _ _ _ _ =>
    rw [List.append_nil]
    exact flagged.rest rfl
  | ask _ unsettled _ => exact flagged.ask paced accounts unsettled rfl
  | receive waiting _ => exact flagged.receive paced accounts waiting _ _

end Flagged

/-- Every course keeps what the flag says true. -/
theorem Flagged.course {cancellable : Bool} {start : LookupRun α}
    (lowered : start.lookup.converged = false) (begin : Paced target width alpha seeds [] start)
    (clean : Accounts target width seeds [] start) (course : Course cancellable start events run) :
    Flagged target width alpha seeds events run := by
  induction course with
  | refl =>
    intro raised
    rw [lowered] at raised
    cases raised
  | step before step further =>
    exact further.step (begin.course clean before) (clean.course before) step

/-- A lookup that says that it has converged, at any moment and under any moves of its workers: the
rule of convergence was fulfilled at some moment, and it still is unless a query that was under way
then has failed or has brought a node into the front of the pool since. -/
theorem play_converged (config : Config) (target : Id) (width : Nat) (seeds : List (Contact α))
    (moves : List (Move α)) :
    let (events, run) := (ofSeeds target width config.patience config.alpha seeds).play moves
    run.lookup.converged = true → OnceSettled target width config.patience seeds events := by
  intro raised
  have clean := Accounts.ofSeeds target width config.patience config.alpha seeds
  have begin := @Course.refl α true (ofSeeds target width config.patience config.alpha seeds)
  have lowered : (ofSeeds target width config.patience config.alpha seeds).lookup.converged =
      false := by
    obtain ⟨_, _, _, fresh⟩ := Lookup.start_frame target width config.patience seeds
    rw [ofSeeds, fresh]
  have flagged := Flagged.course lowered (Paced.ofSeeds target width config.alpha seeds) clean
    (begin.play moves fun _ _ _ => rfl)
  obtain ⟨before, after, split, rule, state⟩ := flagged raised
  exact ⟨before, after, split, rule, state.imp_left And.left⟩

/-- A node that knows itself and two others. -/
def hasty : Node Unit :=
  let n := Node.bare ⟨⟨8⟩, ()⟩ { k := 3, alpha := 2 }
  (((n.put n.self).2.put ⟨⟨0⟩, ()⟩).2.put ⟨⟨1⟩, ()⟩).2

/-- Two workers look for the two nodes closest to one of those known. The first one waits for it,
while the second one is answered by the other and then has three failures. It raises the flag; and
then the query of the first one fails. -/
def overtaken : List (Move Unit) :=
  let move (worker : Nat) (reply : Option (Reply Unit)) : Move Unit :=
    ⟨hasty, 0, false, worker, reply⟩
  let failing := [move 1 none, move 1 (some (.error .timeout))]
  [move 0 none, move 1 none, move 1 (some (.ok [⟨⟨4⟩, ()⟩, ⟨⟨5⟩, ()⟩, ⟨⟨6⟩, ()⟩]))] ++
    failing ++ failing ++ failing ++
    [move 1 none, move 0 (some (.error .timeout)), move 0 none]

/-- The flag of this lookup is up, and it has converged before its last query failed. -/
theorem play_converged_overtaken :
    let (events, run) := (ofSeeds ⟨0⟩ 2 hasty.config.patience hasty.config.alpha
      (hasty.seeds ⟨0⟩ 2)).play overtaken
    run.lookup.converged = true ∧
      OnceSettled ⟨0⟩ 2 hasty.config.patience (hasty.seeds ⟨0⟩ 2) events := by
  have raised : ((ofSeeds ⟨0⟩ 2 hasty.config.patience hasty.config.alpha
      (hasty.seeds ⟨0⟩ 2)).play overtaken).2.lookup.converged = true := by cbv
  exact ⟨raised, play_converged hasty.config ⟨0⟩ 2 (hasty.seeds ⟨0⟩ 2) overtaken raised⟩

/-- The lookup, which nobody has withdrawn, says in the end that it has converged; but it has one
node instead of two. Its last worker stopped because there was nobody left to ask. -/
theorem overtaken_flag_stays :
    (∀ m ∈ overtaken, m.fired = false) ∧
    let events := ((start hasty ⟨0⟩ 2).play overtaken).1
    let run := ((start hasty ⟨0⟩ 2).play overtaken).2
    run.isOver = true ∧ run.lookup.converged = true ∧ run.lookup.frontier = [] ∧
      run.lookup.closest.map (·.id) = [⟨1⟩] ∧
      ¬Settled ⟨0⟩ 2 hasty.config.patience (hasty.seeds ⟨0⟩ 2) events := by
  have short : ((start hasty ⟨0⟩ 2).play overtaken).2.lookup.closest.map (·.id) = [⟨1⟩] := by cbv
  refine ⟨by decide, by cbv, by cbv, by cbv, short, fun settled => ?_⟩
  have accounts := Accounts.play ⟨0⟩ 2 hasty.config.patience hasty.config.alpha
    (hasty.seeds ⟨0⟩ 2) overtaken
  have closest := accounts.tracks.closest
  rw [accounts.aimed, accounts.sized] at closest
  obtain ⟨ids, again, full⟩ := settled.wide
  have found : ids = [⟨1⟩] := (again.unique closest).trans short
  rw [found] at full
  cases full

end LookupRun

end Overlay
