import Overlay.Proofs.Schedule.Termination

/-!
# Operations of a station

An operation ends with an activity that is over, in a world that has stayed in its frame. What turns
and new phases keep of the activity holds at its end. A search therefore ends with a lookup of its
target and width that accounts for its past. At patient stations, searches and walks that nobody
withdraws do end.
-/
namespace Overlay

variable {w w' : World} {budget number : Nat} {token : Token}

/-- What is done by one task ends when it is over. -/
theorem World.runTask_spec {t t' : Task} (ran : w.runTask budget t = some (w', t')) :
    t'.activity.isOver = true ∧ w.Later w' ∧
      ∀ P, Activity.Invariant P → P t.activity → P t'.activity := by
  unfold runTask at ran
  obtain ⟨⟨after, c⟩, ran, last⟩ := Option.bind_eq_some_iff.mp ran
  obtain ⟨only, here, last⟩ := Option.bind_eq_some_iff.mp last
  cases last
  have alone : ∀ t ∈ c.tasks, t = t' := by
    have size := runCrew_size ran
    intro t member
    obtain ⟨i, inside, rfl⟩ := Array.getElem_of_mem member
    obtain rfl : i = 0 := Nat.lt_one_iff.mp (Nat.lt_of_lt_of_eq inside size)
    exact (Array.getElem?_eq_some_iff.mp here).2
  have member := Array.mem_of_getElem? here
  refine ⟨?_, runCrew_later ran, fun P invariant begins => ?_⟩
  · have ended := (runCrew_keeps (P := fun _ _ => True) (fun _ _ _ => trivial) trivial ran).2
    rw [Crew.isOver, Bool.or_eq_true] at ended
    rcases ended with all | any
    · exact Array.all_eq_true_iff_forall_mem.mp all t' member
    · obtain ⟨t, member, failed⟩ := Array.any_eq_true'.mp any
      exact alone t member ▸ Activity.isOver_of_isFailed failed
  · refine invariant.runCrew (fun t member => ?_) ran t' member
    rw [List.mem_singleton.mp (List.mem_toArray.mp member)]
    exact begins

/-- An operation ends when its activity is over. -/
theorem World.perform_spec {activity : Node String → Activity String} {a : Activity String}
    (made : w.perform budget number token activity = some (a, w')) :
    ∃ s, w.station? number = some s ∧ a.isOver = true ∧ w.Later w' ∧
      ∀ P, Activity.Invariant P → P (activity s.node) → P a := by
  unfold perform at made
  obtain ⟨t, started, made⟩ := Option.bind_eq_some_iff.mp made
  obtain ⟨⟨after, t'⟩, ran, made⟩ := Option.bind_eq_some_iff.mp made
  cases made
  obtain ⟨s, here, rfl⟩ := Option.map_eq_some_iff.mp started
  obtain ⟨ended, later, kept⟩ := runTask_spec ran
  exact ⟨s, here, ended, later, kept⟩

/-! ## Searches -/

/-- A turn of a worker is accounted for. -/
theorem LookupRun.Accounts.turn {α : Type} {target : Id} {width : Nat} {seeds : List (Contact α)}
    {past : List (Lookup.Event α)} {run : LookupRun α}
    (accounts : Accounts target width seeds past run) {n : Node α} {now line : Nat} {fired : Bool}
    {reply : Option (Reply α)} {t : Turn α (LookupRun α)}
    (made : run.turn n now fired line reply = some t) :
    ∃ later, Accounts target width seeds (past ++ later) t.next := by
  let m : Move α := ⟨n, now, fired, line, reply⟩
  have course : Course true run ([] ++ run.events m) (run.move m) :=
    Course.refl.move m fun _ => rfl
  have onward := accounts.course course
  rw [LookupRun.move, made] at onward
  exact ⟨_, onward⟩

/-- The activity is a lookup of so many nodes close to a target, and accounts for its past. -/
def Activity.Searches (target : Id) (width : Nat) (a : Activity String) : Prop :=
  ∃ run seeds past, a = .lookup run ∧ LookupRun.Accounts target width seeds past run

/-- A lookup stays what it is. -/
theorem Activity.searches_invariant (target : Id) (width : Nat) :
    Invariant (Searches target width) where
  turn := by
    rintro _ n now line fired reply t ⟨run, seeds, past, rfl, accounts⟩ made
    obtain ⟨inner, moved, rfl⟩ := Option.map_eq_some_iff.mp made
    obtain ⟨later, onward⟩ := accounts.turn moved
    exact ⟨inner.next, seeds, past ++ later, rfl, onward⟩
  proceed := by
    rintro _ next n now fired draw ⟨run, seeds, past, rfl, accounts⟩ made
    cases made

/-- A lookup that a station carries out accounts for its past. -/
theorem World.lookup_spec {target : Id} {width : Nat} {found : Lookup String}
    (made : w.lookup budget number token target width = some (found, w')) :
    w.Later w' ∧ ∃ run seeds past, found = run.lookup ∧
      LookupRun.Accounts target width seeds past run := by
  unfold lookup at made
  obtain ⟨⟨a, after⟩, performed, made⟩ := Option.bind_eq_some_iff.mp made
  obtain ⟨s, here, -, later, kept⟩ := perform_spec performed
  obtain ⟨run, seeds, past, rfl, accounts⟩ := kept _ (Activity.searches_invariant target width)
    ⟨_, _, _, rfl, LookupRun.Accounts.ofSeeds target width _ _ _⟩
  cases made
  exact ⟨later, run, seeds, past, rfl, accounts⟩

/-- A search finds the closest nodes of those that it knows and that have not failed it, so many as
the station was asked for. -/
theorem World.search_spec {target : Id} {wanted : Option Nat} {found : Lookup String}
    (made : w.search budget number token target wanted = some (found, w')) :
    w.Later w' ∧ ∃ s set, w.station? number = some s ∧
      Id.Closest target (s.node.lookupWidth wanted) set (found.closest.map (·.id)) := by
  unfold search at made
  obtain ⟨s, here, made⟩ := Option.bind_eq_some_iff.mp made
  obtain ⟨later, run, seeds, past, rfl, accounts⟩ := lookup_spec made
  have closest := accounts.tracks.closest
  rw [accounts.aimed, accounts.sized] at closest
  exact ⟨later, s, _, here, closest⟩

/-! ## Operations end -/

section Ends

variable {s : Station}

/-- An activity of a station that does not go on for ever comes to its end, if nobody withdraws
it. -/
theorem World.Patient.perform_converges (patient : w.Patient) (here : w.station? number = some s)
    (activity : Node String → Activity String) (finite : (activity s.node).isFinite = true)
    (traced : (activity s.node).Traced) (begins : (activity s.node).awaits = idle) :
    ∃ result, Converges (fun budget => w.perform budget number none activity) result := by
  let t : Task := ⟨s.node.self, some number, none, activity s.node, []⟩
  have inside : number < w.stations.size := (Array.getElem?_eq_some_iff.mp here).1
  have steady : t.Steady w.stations.size w.horizon :=
    ⟨rfl, ⟨number, inside, rfl⟩, finite, traced, fun line => by rw [begins]; rfl,
      fun e sent => nomatch sent⟩
  have works : w.Works (.ofTasks [t]) :=
    works_ofTasks patient fun other member => List.mem_singleton.mp member ▸ steady
  obtain ⟨⟨w', c⟩, enough, ran⟩ := works.converges
  have size : 0 < c.tasks.size := by
    rw [runCrew_size (ran enough (Nat.le_refl _))]
    exact Nat.zero_lt_one
  refine ⟨(c.tasks[0].activity, w'), enough, fun budget more => ?_⟩
  have started : Task.ofStation w number none activity = some t := by
    rw [Task.ofStation, here]
    rfl
  have only : c.tasks[0]? = some c.tasks[0] := Array.getElem?_eq_getElem size
  have ran := ran budget more
  simp only [perform, started, runTask, ran, Option.bind_eq_bind, Option.bind_some, only]

/-- A search that nobody withdraws ends. -/
theorem World.Patient.search_converges (patient : w.Patient) (here : w.station? number = some s)
    (target : Id) (wanted : Option Nat) :
    ∃ result, Converges (fun budget => w.search budget number none target wanted) result := by
  let activity (n : Node String) : Activity String :=
    .lookup (.start n target (s.node.lookupWidth wanted))
  have traced : (activity s.node).Traced := by
    rintro run ⟨⟩
    exact ⟨s.node, target, s.node.lookupWidth wanted, [], rfl⟩
  obtain ⟨⟨a, w'⟩, enough, ran⟩ := patient.perform_converges here activity rfl traced
    (LookupRun.awaits_start ..)
  obtain ⟨other, there, -, -, kept⟩ := perform_spec (ran enough (Nat.le_refl _))
  obtain ⟨run, seeds, past, rfl, -⟩ := kept _
    (Activity.searches_invariant target (s.node.lookupWidth wanted))
    ⟨_, _, _, rfl, LookupRun.Accounts.ofSeeds target _ _ _ _⟩
  refine ⟨(run.lookup, w'), enough, fun budget more => ?_⟩
  have ran : w.perform budget number none _ = _ := ran budget more
  simp only [search, here, lookup, Option.bind_eq_bind, Option.bind_some]
  rw [ran]
  rfl

/-- The activity is a walk that is pulled from. -/
def Activity.Pulls (a : Activity String) : Prop := ∃ p, a = .pull p

/-- A walk stays one. -/
theorem Activity.pulls_invariant : Invariant Pulls where
  turn := by
    rintro _ n now line fired reply t ⟨p, rfl⟩ made
    obtain ⟨inner, moved, rfl⟩ := Option.map_eq_some_iff.mp made
    exact ⟨inner.next, rfl⟩
  proceed := by
    rintro _ next n now fired draw ⟨p, rfl⟩ made
    cases made

/-- A walk of a station leaves the world in its frame. -/
theorem World.discover_spec {target : Id} {wanted : Option Nat} {p : Pull String}
    (made : w.discover budget number token target wanted = some (p, w')) : w.Later w' := by
  unfold discover at made
  obtain ⟨s, here, made⟩ := Option.bind_eq_some_iff.mp made
  unfold pull at made
  obtain ⟨⟨a, after⟩, performed, made⟩ := Option.bind_eq_some_iff.mp made
  obtain ⟨other, there, -, later, kept⟩ := perform_spec performed
  obtain ⟨p, rfl⟩ := kept _ Activity.pulls_invariant ⟨_, rfl⟩
  cases made
  exact later

/-- A walk that nobody withdraws ends. -/
theorem World.Patient.discover_converges (patient : w.Patient) (here : w.station? number = some s)
    (target : Id) (wanted : Option Nat) :
    ∃ result, Converges (fun budget => w.discover budget number none target wanted) result := by
  let activity (n : Node String) : Activity String := .pull (.start (.start s.node target) wanted)
  have begins : (activity s.node).awaits = idle := alone_none
  obtain ⟨⟨a, w'⟩, enough, ran⟩ := patient.perform_converges here activity rfl
    (fun run at' => nomatch at') begins
  obtain ⟨other, there, -, -, kept⟩ := perform_spec (ran enough (Nat.le_refl _))
  obtain ⟨p, rfl⟩ := kept _ Activity.pulls_invariant ⟨_, rfl⟩
  refine ⟨(p, w'), enough, fun budget more => ?_⟩
  have ran : w.perform budget number none _ = _ := ran budget more
  simp only [discover, here, pull, Option.bind_eq_bind, Option.bind_some]
  rw [ran]
  rfl

end Ends

end Overlay
