import Overlay.Proofs.Lookup.Run

/-!
# How long a lookup goes on without progress

A completed query is an improvement when it brings an identifier that was not known before and
is then among the `width` closest of the pool. The stale counter of a lookup is the number of
queries completed since the last improvement, and only queries that are already in flight can
raise it beyond the patience of the lookup: while the pool is wide enough, the counter and the
queries in flight stay below three times the number of workers.
-/
namespace Overlay

namespace Contact

variable {α : Type}

/-- Number of contacts that lie closer to the target than an identifier. -/
def ahead (target id : Id) (contacts : List (Contact α)) : Nat :=
  (contacts.filter fun c => target.closer c.id id).length

/-- One contact more is one more ahead of whatever it is closer than. -/
theorem ahead_cons (target id : Id) (c : Contact α) (contacts : List (Contact α)) :
    ahead target id (c :: contacts) =
      ahead target id contacts + if target.closer c.id id then 1 else 0 := by
  unfold ahead
  by_cases closer : target.closer c.id id = true
  · simp [closer]
  · simp [closer]

/-- Inserting a contact puts it ahead of whatever it is closer than. -/
theorem ahead_insertByDistance (target id : Id) (c : Contact α) (contacts : List (Contact α)) :
    ahead target id (insertByDistance target c contacts) =
      ahead target id contacts + if target.closer c.id id then 1 else 0 := by
  rw [← ahead_cons]
  exact ((insertByDistance_perm target c contacts).filter _).length_eq

/-- What is ahead of an identifier is ahead of everything behind it. -/
theorem ahead_mono {target a b : Id} (closer : target.closer a b = true)
    (contacts : List (Contact α)) : ahead target a contacts ≤ ahead target b contacts := by
  apply List.Sublist.length_le
  apply List.monotone_filter_right
  intro c before
  rw [Id.closer_iff] at closer before ⊢
  exact Nat.lt_trans before closer

/-- A contact is in front of an ascending list when few others are closer. -/
theorem Ascending.mem_take_iff {target : Id} {contacts : List (Contact α)}
    (ascending : Ascending target contacts) {c : Contact α} (stored : c ∈ contacts)
    (count : Nat) : c ∈ contacts.take count ↔ ahead target c.id contacts < count := by
  induction contacts generalizing count with
  | nil => exact absurd stored List.not_mem_nil
  | cons first rest further =>
    obtain ⟨farther, sorted⟩ := List.pairwise_cons.mp ascending
    cases count with
    | zero => simp
    | succ count =>
      rw [List.take_succ_cons, List.mem_cons, ahead_cons]
      rcases List.mem_cons.mp stored with rfl | behind
      · -- Nobody is closer than the first contact.
        have own : target.closer c.id c.id = false := by simp [Id.closer, Id.distance_lt_iff]
        have none : ahead target c.id rest = 0 := by
          unfold ahead
          rw [List.length_eq_zero_iff, List.filter_eq_nil_iff]
          intro d member
          have less := farther d member
          rw [Id.closer_iff]
          omega
        simp [own, none]
      · have less := farther c behind
        have different : c ≠ first := by
          rintro rfl
          exact Nat.lt_irrefl _ less
        have before : target.closer first.id c.id = true := (Id.closer_iff _ _ _).mpr less
        simp [different, before, further sorted behind]

end Contact

namespace Lookup

variable {α : Type}

/-! ## What an answer improves -/

/-- Among the `width` closest of the pool is a contact whose identifier was not seen before. -/
def HasFresh (before : List Id) (l : Lookup α) : Prop :=
  ∃ c ∈ l.pool, c.id ∉ before ∧ Contact.ahead l.target c.id l.pool < l.width

/-- A contact is reported as an improvement when it is new and few of the pool are closer. -/
theorem discover_improves (l : Lookup α) (c : Contact α) (new : c.id ∉ l.seen) :
    (l.discover c).1 = decide (Contact.ahead l.target c.id l.pool < l.width) := by
  have lacks : ¬l.seen.contains c.id = true := fun contains =>
    new (List.contains_iff_mem.mp contains)
  rw [discover, if_neg lacks]
  rfl

/-- A report that is right stays right with one contact more. -/
theorem HasFresh.discover {before : List Id} {l : Lookup α} {improved : Bool}
    (right : improved = true ↔ l.HasFresh before) (older : before ⊆ l.seen) (c : Contact α) :
    (improved || (l.discover c).1) = true ↔ (l.discover c).2.HasFresh before := by
  by_cases old : c.id ∈ l.seen
  · have contains : l.seen.contains c.id = true := List.contains_iff_mem.mpr old
    have nothing : (l.discover c).1 = false := by rw [Lookup.discover, if_pos contains]
    rw [nothing, l.discover_of_seen c old, Bool.or_false]
    exact right
  · have fresh : c.id ∉ before := fun listed => old (older listed)
    have own : l.target.closer c.id c.id = false := by simp [Id.closer, Id.distance_lt_iff]
    have perm := Contact.insertByDistance_perm l.target c l.pool
    rw [l.discover_improves c old, l.discover_of_new c old, Bool.or_eq_true, right,
      decide_eq_true_iff]
    unfold HasFresh
    dsimp only
    constructor
    · rintro (⟨d, stored, unseen, rank⟩ | rank)
      · by_cases closer : l.target.closer c.id d.id = true
        · -- The new contact may push an earlier one out, but then takes its place.
          have less := Contact.ahead_mono closer l.pool
          refine ⟨c, perm.symm.subset List.mem_cons_self, fresh, ?_⟩
          rw [Contact.ahead_insertByDistance, own]
          simp only [Bool.false_eq_true, if_false]
          omega
        · refine ⟨d, perm.symm.subset (List.mem_cons_of_mem c stored), unseen, ?_⟩
          rw [Contact.ahead_insertByDistance, if_neg closer]
          exact rank
      · refine ⟨c, perm.symm.subset List.mem_cons_self, fresh, ?_⟩
        rw [Contact.ahead_insertByDistance, own]
        simpa using rank
    · rintro ⟨d, stored, unseen, rank⟩
      rw [Contact.ahead_insertByDistance] at rank
      rcases List.mem_cons.mp (perm.subset stored) with rfl | earlier
      · exact .inr (by omega)
      · exact .inl ⟨d, earlier, unseen, by omega⟩

/-- Recording contacts reports an improvement exactly when one of them is new and among the
`width` closest in the end, whichever contacts came in between. -/
theorem discoverAll_improves (l : Lookup α) (contacts : List (Contact α))
    (recorded : ∀ c ∈ l.pool, c.id ∈ l.seen) :
    (l.discoverAll contacts).1 = true ↔ (l.discoverAll contacts).2.HasFresh l.seen := by
  have nothing : false = true ↔ l.HasFresh l.seen := by
    constructor
    · intro never
      cases never
    · rintro ⟨c, stored, unseen, -⟩
      exact absurd (recorded c stored) unseen
  -- The report is right after any number of contacts if it was right before them.
  suffices all : ∀ (before : List Id) (improved : Bool) (l : Lookup α),
      (improved = true ↔ l.HasFresh before) → before ⊆ l.seen →
      let result := contacts.foldl
        (fun found c => (found.1 || (found.2.discover c).1, (found.2.discover c).2)) (improved, l)
      result.1 = true ↔ result.2.HasFresh before from
    all l.seen false l nothing (List.Subset.refl _)
  intro before
  induction contacts with
  | nil => exact fun improved l right _ => right
  | cons c rest further =>
    intro improved l right older
    refine further _ _ (HasFresh.discover right older c) ?_
    by_cases old : c.id ∈ l.seen
    · rw [l.discover_of_seen c old]
      exact older
    · rw [l.discover_of_new c old]
      exact List.subset_cons_of_subset c.id older

/-- An answer that puts nothing fresh into the pool is counted, and any other one resets the
counter. -/
theorem complete_ok_stale (l : Lookup α) (recorded : ∀ c ∈ l.pool, c.id ∈ l.seen) (fired : Bool)
    (c : Contact α) (contacts : List (Contact α)) :
    let next := l.complete fired c (.ok contacts)
    (next.HasFresh l.seen ∧ next.stale = 0) ∨
      (¬next.HasFresh l.seen ∧ next.stale = l.stale + 1) := by
  intro next
  have report := l.landed.discoverAll_improves contacts recorded
  have fresh : next.HasFresh l.seen ↔ (l.landed.discoverAll contacts).1 = true := report.symm
  have stale : next.stale = if (l.landed.discoverAll contacts).1 then 0
      else (l.landed.discoverAll contacts).2.stale + 1 := rfl
  rw [fresh, stale]
  cases improved : (l.landed.discoverAll contacts).1 with
  | true => exact .inl ⟨rfl, if_pos rfl⟩
  | false =>
    obtain ⟨frontier, seen, pool, frame⟩ := l.landed.discoverAll_frame contacts
    refine .inr ⟨Bool.false_ne_true, ?_⟩
    rw [if_neg Bool.false_ne_true, frame]
    rfl

/-! ## Improvements in a history -/

/-- The event brings an identifier that was not known before it and that is, after it, among the
`width` closest of those known whose query has not failed. -/
def Event.Improves (target : Id) (width : Nat) (seeds : List (Contact α))
    (before : List (Event α)) (event : Event α) : Prop :=
  ∃ ids, Id.Closest target width (fun id => id ∈ known seeds (before ++ [event]) ∧
      id ∉ failedIds (before ++ [event])) ids ∧
    ∃ id ∈ ids, id ∈ event.brought ∧ id ∉ known seeds before

/-- The event is the end of a query that was not withdrawn. -/
def Event.completes : Event α → Bool
  | .answered _ _ | .failed _ _ => true
  | .asked _ | .withdrawn _ => false

/-- Number of queries that were completed and not withdrawn. -/
def completed (events : List (Event α)) : Nat := events.countP Event.completes

/-- Since the past no event has been an improvement. -/
def Unimproved (target : Id) (width : Nat) (seeds : List (Contact α))
    (past recent : List (Event α)) : Prop :=
  ∀ before event after, recent = before ++ event :: after →
    ¬event.Improves target width seeds (past ++ before)

/-- The past is nothing or ends with the last improvement. -/
structure SinceImprovement (target : Id) (width : Nat) (seeds : List (Contact α))
    (past recent : List (Event α)) : Prop where
  /-- The last event of the past, if any, was an improvement. -/
  latest : past = [] ∨
    ∃ before event, past = before ++ [event] ∧ event.Improves target width seeds before
  /-- It was the last one. -/
  unimproved : Unimproved target width seeds past recent

section Improvements

variable {target : Id} {width : Nat} {seeds : List (Contact α)} {past recent : List (Event α)}
  {event : Event α}

/-- Only an event that brings something can be an improvement. -/
theorem Event.not_improves_of_brought (brought : event.brought = [])
    (before : List (Event α)) : ¬event.Improves target width seeds before := by
  rintro ⟨ids, -, id, -, listed, -⟩
  rw [brought] at listed
  cases listed

/-- With an event that is no improvement there still has been none. -/
theorem Unimproved.snoc (unimproved : Unimproved target width seeds past recent)
    (none : ¬event.Improves target width seeds (past ++ recent)) :
    Unimproved target width seeds past (recent ++ [event]) := by
  intro before next after split
  rcases List.eq_nil_or_concat after with rfl | ⟨later, last, rfl⟩
  · obtain ⟨rfl, equal⟩ := List.append_inj' split rfl
    obtain rfl := List.singleton_inj.mp equal
    exact none
  · rw [List.concat_eq_append, ← List.cons_append, ← List.append_assoc] at split
    obtain ⟨same, -⟩ := List.append_inj' split rfl
    exact unimproved before next later same

/-- An event that is no improvement is one more since the last one. -/
theorem SinceImprovement.snoc (since : SinceImprovement target width seeds past recent)
    (none : ¬event.Improves target width seeds (past ++ recent)) :
    SinceImprovement target width seeds past (recent ++ [event]) :=
  ⟨since.latest, since.unimproved.snoc none⟩

/-- Nothing has happened since an improvement. -/
theorem SinceImprovement.reset {before : List (Event α)}
    (improves : event.Improves target width seeds before) :
    SinceImprovement target width seeds (before ++ [event]) [] := by
  refine ⟨.inr ⟨before, event, rfl, improves⟩, ?_⟩
  intro front next after split
  simp at split

/-- Events without an improvement are among those since the last one. -/
theorem SinceImprovement.completed_le (since : SinceImprovement target width seeds past recent)
    {earlier later : List (Event α)} (same : past ++ recent = earlier ++ later)
    (none : Unimproved target width seeds earlier later) : completed later ≤ completed recent := by
  rcases List.append_eq_append_iff.mp same with ⟨middle, rfl, rfl⟩ | ⟨middle, rfl, rfl⟩
  · unfold completed
    rw [List.countP_append]
    omega
  · -- The improvement that ends the past would be one of the later events.
    rcases List.eq_nil_or_concat middle with rfl | ⟨front, last, rfl⟩
    · exact Nat.le_refl _
    · rw [List.concat_eq_append, ← List.append_assoc] at since
      rcases since.latest with empty | ⟨before, next, split, improves⟩
      · simp at empty
      · obtain ⟨rfl, equal⟩ := List.append_inj' split rfl
        obtain rfl := List.singleton_inj.mp equal
        refine absurd improves (none front last recent ?_)
        simp

end Improvements

/-- What a lookup reports as an improvement is one. -/
theorem Tracks.improves_iff {l next : Lookup α} {seeds : List (Contact α)}
    {events : List (Event α)} {event : Event α}
    (tracks : l.Tracks (known seeds events) (askedIds events) (failedIds events))
    (after : next.Tracks (known seeds (events ++ [event])) (askedIds (events ++ [event]))
      (failedIds (events ++ [event]))) :
    event.Improves next.target next.width seeds events ↔ next.HasFresh l.seen := by
  have closest := after.closest
  constructor
  · rintro ⟨ids, again, id, listed, -, unknown⟩
    rw [again.unique closest] at listed
    obtain ⟨c, front, rfl⟩ := List.mem_map.mp listed
    have stored : c ∈ next.pool := (List.take_sublist next.width next.pool).subset front
    refine ⟨c, stored, fun seen => unknown ((tracks.seen c.id).mp seen), ?_⟩
    exact (after.pool.ascending.mem_take_iff stored next.width).mp front
  · rintro ⟨c, stored, unseen, rank⟩
    have front := (after.pool.ascending.mem_take_iff stored next.width).mpr rank
    have unknown : c.id ∉ known seeds events := fun listed => unseen ((tracks.seen c.id).mpr listed)
    have member := ((after.pool.members c.id).mp (List.mem_map_of_mem stored)).1
    rw [known_snoc, List.mem_append] at member
    exact ⟨_, closest, c.id, List.mem_map_of_mem front, member.resolve_left unknown, unknown⟩

/-- A pool that an answer makes wide enough has been improved. -/
theorem Tracks.wide_of_not_fresh {l next : Lookup α} {known known' asked asked' failed : List Id}
    (tracks : l.Tracks known asked failed) (after : next.Tracks known' asked' failed)
    (stale : ¬next.HasFresh l.seen) (wide : next.width ≤ next.pool.length) :
    next.width ≤ l.pool.length := by
  -- All of the front was in the pool before.
  have within : (next.pool.take next.width).map (·.id) ⊆ l.pool.map (·.id) := by
    intro id listed
    obtain ⟨c, front, rfl⟩ := List.mem_map.mp listed
    have stored : c ∈ next.pool := (List.take_sublist next.width next.pool).subset front
    have rank := (after.pool.ascending.mem_take_iff stored next.width).mp front
    have seen : c.id ∈ l.seen := by
      by_contra unseen
      exact stale ⟨c, stored, unseen, rank⟩
    have alive := ((after.pool.members c.id).mp (List.mem_map_of_mem stored)).2
    exact (tracks.pool.members c.id).mpr ⟨(tracks.seen c.id).mp seen, alive⟩
  have length := (after.closest.nodup.subperm within).length_le
  rw [List.length_map, List.length_map, Lookup.closest, List.length_take] at length
  omega

end Lookup

namespace LookupRun

open Lookup (Event SinceImprovement Unimproved completed)

variable {α : Type} {target : Id} {width alpha : Nat} {seeds : List (Contact α)}
  {events : List (Event α)} {run : LookupRun α} {i : Nat}

/-- The stale counter of the run is what its history says, and is bounded with the queries in
flight. -/
structure Paced (target : Id) (width alpha : Nat) (seeds : List (Contact α))
    (events : List (Event α)) (run : LookupRun α) : Prop where
  /-- No worker is lost. -/
  staffed : run.workers.length = alpha
  /-- The patience is that of so many workers. -/
  patient : run.lookup.patience = 2 * alpha
  /-- The queries completed since the last improvement are counted. -/
  stale : ∃ past recent, events = past ++ recent ∧
    SinceImprovement target width seeds past recent ∧ run.lookup.stale = completed recent
  /-- While the pool is wide enough, few queries can still complete without improvement. -/
  bounded : width ≤ run.lookup.pool.length →
    run.lookup.stale + run.lookup.inFlight ≤ 3 * alpha - 1

namespace Paced

/-- Nothing has completed in a new run. -/
theorem ofSeeds (target : Id) (width alpha : Nat) (seeds : List (Contact α)) :
    Paced target width alpha seeds [] (LookupRun.ofSeeds target width (2 * alpha) alpha seeds) := by
  obtain ⟨frontier, seen, pool, fresh⟩ := Lookup.start_frame target width (2 * alpha) seeds
  rw [LookupRun.ofSeeds, fresh]
  refine ⟨List.length_replicate, rfl, ⟨[], [], rfl, ⟨.inl rfl, ?_⟩, rfl⟩, fun _ => Nat.zero_le _⟩
  intro before event after split
  simp at split

/-- A worker that stops leaves the pace as it is. -/
theorem stop (paced : Paced target width alpha seeds events run) (converged : Bool) :
    Paced target width alpha seeds events
      ({ run with lookup := { run.lookup with converged := converged } }.setWorker i .stopped) :=
  { paced with staffed := List.length_set.trans paced.staffed }

/-- No more queries are in flight than there are workers. -/
theorem inFlight_le (paced : Paced target width alpha seeds events run)
    (accounts : Accounts target width seeds events run) : run.lookup.inFlight ≤ alpha := by
  rw [accounts.flying, ← paced.staffed]
  exact List.length_filterMap_le _ _

/-- A query that begins finds the counter below the patience. -/
theorem ask (paced : Paced target width alpha seeds events run)
    (accounts : Accounts target width seeds events run)
    (idle : run.workers[i]? = some .idle) (unsettled : run.lookup.hasConverged = false)
    {c : Contact α} {rest : List (Contact α)} (first : run.lookup.frontier = c :: rest) :
    Paced target width alpha seeds (events ++ [.asked c])
      ({ run with lookup := run.lookup.taken c rest }.setWorker i (.awaiting c)) := by
  have staffed : (run.workers.set i (.awaiting c)).length = alpha :=
    List.length_set.trans paced.staffed
  obtain ⟨past, recent, rfl, since, counted⟩ := paced.stale
  refine ⟨staffed, paced.patient, ⟨past, recent ++ [.asked c], ?_, ?_, ?_⟩, ?_⟩
  · rw [List.append_assoc]
  · exact since.snoc (Event.not_improves_of_brought rfl _)
  · change run.lookup.stale = _
    rw [counted]
    simp [completed, Event.completes]
  · intro wide
    have flying : run.lookup.inFlight + 1 ≤ alpha := by
      have next := accounts.ask idle first
      have awaited : (Worker.awaited (run.workers.set i (.awaiting c))).length ≤ alpha := by
        rw [← staffed]
        exact List.length_filterMap_le _ _
      have same : run.lookup.inFlight + 1 = _ := next.flying
      rw [same]
      exact awaited
    have patience : run.lookup.stale < 2 * alpha := by
      have width' : run.lookup.width = width := accounts.sized
      have wide' : width ≤ run.lookup.pool.length := wide
      rw [Lookup.hasConverged, width', decide_eq_true wide', Bool.true_and,
        decide_eq_false_iff_not, paced.patient] at unsettled
      omega
    change run.lookup.stale + (run.lookup.inFlight + 1) ≤ _
    omega

/-- A query that ends is either an improvement, or moves from those in flight to those completed
without one, or was withdrawn. -/
theorem receive (paced : Paced target width alpha seeds events run)
    (accounts : Accounts target width seeds events run) {c : Contact α}
    (waiting : run.workers[i]? = some (.awaiting c)) (fired : Bool) (reply : Reply α) :
    Paced target width alpha seeds (events ++ [.ended fired c reply])
      ({ run with lookup := run.lookup.complete fired c reply }.setWorker i .idle) := by
  have flying := accounts.flying_of_awaiting waiting
  have within := paced.inFlight_le accounts
  have after := accounts.receive waiting fired reply
  obtain ⟨_, _, _, _, _, frame⟩ := run.lookup.complete_frame fired c reply
  have landed : (run.lookup.complete fired c reply).inFlight = run.lookup.inFlight - 1 := by
    rw [frame]
    rfl
  have patient : (run.lookup.complete fired c reply).patience = 2 * alpha := by
    rw [frame]
    exact paced.patient
  obtain ⟨past, recent, rfl, since, counted⟩ := paced.stale
  -- Unless it is an improvement, the end is one more of the recent events.
  have later (none : ¬(Event.ended fired c reply).Improves target width seeds (past ++ recent))
      (stale : (run.lookup.complete fired c reply).stale =
        run.lookup.stale + completed [Event.ended fired c reply])
      (sum : completed [Event.ended fired c reply] ≤ 1)
      (wide : width ≤ (run.lookup.complete fired c reply).pool.length →
        width ≤ run.lookup.pool.length) :
      Paced target width alpha seeds (past ++ recent ++ [.ended fired c reply])
        ({ run with lookup := run.lookup.complete fired c reply }.setWorker i .idle) := by
    refine ⟨List.length_set.trans paced.staffed, patient,
      ⟨past, recent ++ [.ended fired c reply], List.append_assoc _ _ _, since.snoc none, ?_⟩, ?_⟩
    · change (run.lookup.complete fired c reply).stale = _
      rw [stale, counted, completed, completed, completed, List.countP_append]
    · intro enough
      have before := paced.bounded (wide enough)
      change (run.lookup.complete fired c reply).stale +
        (run.lookup.complete fired c reply).inFlight ≤ _
      omega
  cases reply with
  | ok contacts =>
    have recorded : ∀ d ∈ run.lookup.pool, d.id ∈ run.lookup.seen := by
      intro d stored
      have member := (accounts.tracks.pool.members d.id).mp (List.mem_map_of_mem stored)
      exact (accounts.tracks.seen d.id).mpr member.1
    have improves := accounts.tracks.improves_iff after.tracks
    rw [show _ = target from after.aimed, show _ = width from after.sized] at improves
    rcases run.lookup.complete_ok_stale recorded fired c contacts with
      ⟨fresh, stale⟩ | ⟨none, stale⟩
    · have reset := SinceImprovement.reset (improves.mpr fresh)
      refine ⟨List.length_set.trans paced.staffed, patient, ⟨_, [], ?_, reset, stale⟩, fun _ => ?_⟩
      · rw [List.append_nil]
      · change (run.lookup.complete fired c (.ok contacts)).stale +
          (run.lookup.complete fired c (.ok contacts)).inFlight ≤ _
        omega
    · refine later (fun is => none (improves.mp is)) stale (Nat.le_refl 1) fun enough => ?_
      have tracks := after.tracks
      rw [Lookup.failedIds_snoc, Event.ended, Event.lost, List.append_nil] at tracks
      have wide := accounts.tracks.wide_of_not_fresh tracks none
      rw [show _ = width from after.sized] at wide
      exact wide enough
  | error fault =>
    cases dropped : fired && fault.isCancelled with
    | true =>
      have end_eq : Event.ended fired c (.error fault) = .withdrawn c := by
        simp [Event.ended, dropped]
      have same := run.lookup.complete_withdrawn fired c fault dropped
      rw [end_eq, same] at later
      rw [end_eq, same]
      exact later (Event.not_improves_of_brought rfl _) rfl (Nat.zero_le 1) id
    | false =>
      have end_eq : Event.ended fired c (.error fault) = .failed c fault := by
        simp [Event.ended, dropped]
      have same := run.lookup.complete_failed fired c fault dropped
      rw [end_eq, same] at later
      rw [end_eq, same]
      refine later (Event.not_improves_of_brought rfl _) rfl (Nat.le_refl 1) fun enough => ?_
      exact Nat.le_trans enough (List.length_filter_le _ _)

/-- Every step keeps the pace. -/
theorem step {cancellable : Bool} {more : List (Event α)} {next : LookupRun α}
    (paced : Paced target width alpha seeds events run)
    (accounts : Accounts target width seeds events run) (step : Step cancellable run more next) :
    Paced target width alpha seeds (events ++ more) next := by
  cases step with
  | quit _ _ =>
    rw [List.append_nil]
    exact paced.stop run.lookup.converged
  | converge _ _ =>
    rw [List.append_nil]
    exact paced.stop true
  | exhaust _ _ _ _ =>
    rw [List.append_nil]
    exact paced.stop run.lookup.converged
  | ask idle unsettled first => exact paced.ask accounts idle unsettled first
  | receive waiting _ => exact paced.receive accounts waiting _ _

/-- Every course keeps the pace. -/
theorem course {cancellable : Bool} {start : LookupRun α}
    (begin : Paced target width alpha seeds [] start)
    (clean : Accounts target width seeds [] start)
    (course : Course cancellable start events run) :
    Paced target width alpha seeds events run := by
  induction course with
  | refl => exact begin
  | step before step further => exact further.step (clean.course before) step

end Paced

/-- A lookup with the parameters of a node, at any moment and under any moves of its workers: the
queries in flight are those that workers wait for, never more than there are workers; the stale
counter is the number of queries completed since the last improvement; and while the pool holds
`width` nodes, counter and flights, and with them the queries that complete in a row without an
improvement, stay below three times the number of workers. -/
theorem play_stale (config : Config) (target : Id) (width : Nat) (seeds : List (Contact α))
    (moves : List (Move α)) :
    let (events, run) := (ofSeeds target width config.patience config.alpha seeds).play moves
    run.lookup.inFlight = (Worker.awaited run.workers).length ∧
    run.lookup.inFlight ≤ config.alpha ∧
    (∀ (i : Nat) (c : Contact α), run.workers[i]? = some (.awaiting c) →
      0 < run.lookup.inFlight) ∧
    (∃ past recent, events = past ++ recent ∧
      SinceImprovement target width seeds past recent ∧ run.lookup.stale = completed recent) ∧
    (width ≤ run.lookup.pool.length →
      run.lookup.stale + run.lookup.inFlight ≤ 3 * config.alpha - 1) ∧
    ∀ past recent, events = past ++ recent → Unimproved target width seeds past recent →
      width ≤ run.lookup.pool.length → completed recent ≤ 3 * config.alpha - 1 := by
  have accounts := Accounts.play target width config.patience config.alpha seeds moves
  have clean := Accounts.ofSeeds target width config.patience config.alpha seeds
  have begin := @Course.refl α true (ofSeeds target width config.patience config.alpha seeds)
  have paced := (Paced.ofSeeds target width config.alpha seeds).course clean
    (begin.play moves fun _ _ _ => rfl)
  refine ⟨accounts.flying, paced.inFlight_le accounts, fun i c => accounts.flying_of_awaiting,
    paced.stale, paced.bounded, fun earlier later same none wide => ?_⟩
  obtain ⟨past, recent, split, since, counted⟩ := paced.stale
  have least : completed later ≤ completed recent :=
    since.completed_le (split.symm.trans same) none
  have bounded := paced.bounded wide
  omega

/-- The bound is reached: a query that two workers have in flight when the patience is almost used
up is the fifth in a row that completes without an improvement. -/
example :
    let seeds : List (Contact Unit) := (List.range 6).map fun n => ⟨⟨n⟩, ()⟩
    let move (worker : Nat) (reply : Option (Reply Unit)) : Move Unit :=
      ⟨.bare ⟨⟨9⟩, ()⟩ {}, 0, false, worker, reply⟩
    let turns (worker : Nat) := [move worker none, move worker (some (.ok []))]
    let moves := [move 1 none] ++ turns 0 ++ turns 0 ++ turns 0 ++ turns 0 ++
      [move 1 (some (.ok []))]
    let l := ((ofSeeds .zero 1 4 2 seeds).play moves).2.lookup
    l.stale = 3 * 2 - 1 ∧ l.width ≤ l.pool.length := by
  decide

end LookupRun

end Overlay
