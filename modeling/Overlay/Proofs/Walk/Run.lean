import Mathlib.Data.List.TakeWhile
import Overlay.Proofs.Walk.Moves

/-!
# Runs of a walk

What a move of a walk comes to is a course of small steps: nodes are passed over, one is asked, a
reply comes, a node is handed out, a round is closed or opened, the walk ends. `Explored` is what
the walk knows of the network and `Harvested` what the caller gets from it; every step keeps both.
-/
namespace Overlay

variable {α : Type}

namespace Pull

/-! ## Small steps -/

/-- One small step of a walk around a home, and the events that it leaves behind. -/
inductive Step (home : Id) (p : Pull α) : List (Walk.Event α) → Pull α → Prop where
  /-- The rounds that brought nothing closer are counted, or the search is over. -/
  | count (stalled : Nat) (improved done : Bool) :
    Step home p []
      { p with walk := { p.walk with stalled := stalled, improved := improved, done := done } }
  /-- A round begins. -/
  | open (closed : p.walk.roundLeft = 0) (more : p.walk.rounds < p.walk.limits.maxRounds) :
    Step home p []
      { p with walk :=
        { p.walk with rounds := p.walk.rounds + 1, roundLeft := p.walk.limits.roundWidth } }
  /-- The rest of the round is given up. -/
  | abandon : Step home p [] { p with walk := { p.walk with roundLeft := 0 } }
  /-- The nodes at the front of the queue are passed over if they are not to be asked now. -/
  | pass (now : Nat) (cool : CoolDown) :
    Step home p ((p.walk.passes now cool).map .passed)
      { p with walk := { p.walk with frontier := p.walk.remains now cool } }
  /-- The first node of the queue is asked. -/
  | ask {c : Contact α} {rest : List (Contact α)} (going : p.isOver = false)
    (free : p.walk.awaiting = none) (ready : p.walk.ready = []) (left : 0 < p.walk.roundLeft)
    (first : p.walk.frontier = c :: rest) :
    Step home p [.query (.asked c)] { p with walk := p.walk.taken c rest }
  /-- The reply that the walk waits for has come. -/
  | receive {c : Contact α} (going : p.isOver = false) (waits : p.walk.awaiting = some c)
    (now : Nat) (cool : CoolDown) (fired : Bool) (reply : Reply α) :
    Step home p [.query (.ended fired c reply)]
      { p with walk := (p.walk.complete now home cool fired c reply).1 }
  /-- A node is handed out. -/
  | yield {c : Contact α} {later : List (Contact α)} (ready : p.walk.ready = c :: later) :
    Step home p [.handed c] (p.yield c later)
  /-- The walk has nothing left to hand out. -/
  | finish (ready : p.walk.ready = []) : Step home p [] { p with ended := true }

/-- Some steps lead from one moment of a walk to another, and their events are these. -/
inductive Course (home : Id) (start : Pull α) : List (Walk.Event α) → Pull α → Prop where
  /-- Nothing has happened. -/
  | refl : Course home start [] start
  /-- One more step. -/
  | step {past more : List (Walk.Event α)} {p next : Pull α} (course : Course home start past p)
    (step : p.Step home more next) : Course home start (past ++ more) next

section Courses

variable {start p next : Pull α} {m : Move α} {past more : List (Walk.Event α)}

/-- One more step without events. -/
theorem Course.quiet {home : Id} (course : Course home start past p)
    (step : p.Step home [] next) : Course home start past next := by
  have further := course.step step
  rw [List.append_nil] at further
  exact further

/-- Routine goes on with the course. -/
theorem Course.routine (course : Course m.node.id start past p) (routine : p.Routine m more next) :
    Course m.node.id start (past ++ more) next := by
  cases routine with
  | rest stuck =>
    rw [List.append_nil]
    exact course
  | receive going waits came cool =>
    exact course.step (.receive going waits m.now cool m.fired _)
  | yield ready => exact course.step (.yield ready)
  | finish ready stops =>
    rw [List.append_nil]
    exact course.quiet (.finish ready)

/-- A decision goes on with the course. -/
theorem Course.choice (course : Course m.node.id start past p) (deciding : p.Deciding)
    (choice : p.Choice m more next) : Course m.node.id start (past ++ more) next := by
  obtain ⟨stalled, improved, closing⟩ := p.walk.closeRound_frame
  have passing : Course m.node.id start (past ++ p.passed m)
      { p with walk := { p.walk with frontier := p.walk.remains m.now m.node.cool } } :=
    course.step (.pass m.now m.node.cool)
  cases choice with
  | stop closed last =>
    rw [closing, List.append_nil]
    exact course.quiet (.count stalled improved true)
  | exhaust closed more none =>
    rw [none] at passing
    rw [closing]
    exact passing.quiet (.count stalled improved true)
  | «open» closed more some =>
    have counting := passing.quiet (.count stalled improved p.walk.done)
    rw [closing]
    exact counting.quiet (.open closed (p.rounds_lt_of_goes more))
  | abandon left none =>
    rw [none] at passing
    exact passing.quiet .abandon
  | ask left first =>
    have asking := passing.step
      (.ask deciding.going deciding.free deciding.ready (Nat.pos_of_ne_zero left) first)
    rw [List.append_assoc] at asking
    exact asking
  | @own c rest left first cool =>
    have asking := passing.step
      (.ask deciding.going deciding.free deciding.ready (Nat.pos_of_ne_zero left) first)
    have waiting : ({ p with walk := p.walk.taken c rest } : Pull α).isOver = false :=
      deciding.going
    have answering := asking.step (.receive waiting rfl m.now cool false
      (.ok (m.node.neighbours p.walk.target)))
    rw [List.append_assoc, List.append_assoc, ← List.append_assoc (p.passed m)] at answering
    exact answering

/-- Every move goes on with the course. -/
theorem Course.move (m : Move α) (course : Course m.node.id start past p) :
    Course m.node.id start (past ++ p.events m) (p.move m) := by
  cases p.act m with
  | routine _ routine => exact course.routine routine
  | choice _ deciding choice => exact course.choice deciding choice

end Courses

end Pull

/-! ## What a walk knows -/

namespace Walk

/-- The walk accounts for its history, and has kept to its rules. -/
structure Explored (target : Id) (limits : WalkConfig) (seeds : List (Contact α))
    (events : List (Event α)) (w : Walk α) : Prop where
  /-- The network is still explored around the same target. -/
  aimed : w.target = target
  /-- It is explored under the same parameters. -/
  limited : w.limits = limits
  /-- The walk holds what its history says. -/
  knows : w.Knows (known seeds events) (askedIds events) (passedIds events)
  /-- There are not too many rounds. -/
  begun : w.rounds ≤ limits.maxRounds
  /-- The queries made and those left in this round fit into the rounds begun. -/
  budget : (askedIds events).length + w.roundLeft ≤ w.rounds * limits.roundWidth
  /-- The queries end in the order in which they are made, and the walk waits for the last one. -/
  inTurn : askedIds events =
    Lookup.endedIds (queries events) ++ w.awaiting.toList.map (·.id)
  /-- Every query went to the node that was next. -/
  ordered : AtQueries (IsNext target seeds) events

namespace Explored

variable {target home : Id} {limits : WalkConfig} {seeds : List (Contact α)}
  {events : List (Event α)} {w : Walk α} {c : Contact α} {rest : List (Contact α)}

/-- A new walk from different seeds has explored nothing. -/
theorem start (n : Node α) (target : Id)
    (distinct : ((n.seeds target n.config.k).map (·.id)).Nodup) :
    (Walk.start n target).Explored target n.config.walk (n.seeds target n.config.k) [] where
  aimed := rfl
  limited := rfl
  knows := {
    seen := fun id => by
      rw [known_eq]
      simp [Walk.start, received, queries]
    asked_known := nofun
    passed_known := nofun
    once := List.nodup_nil
    recorded := rfl
    frontier := by
      refine ⟨Contact.sortByDistance_strict target distinct, fun id => ?_⟩
      have perm := (Contact.sortByDistance_perm target (n.seeds target n.config.k)).map (·.id)
      rw [known_eq]
      exact perm.mem_iff.trans (by simp [received, queries, askedIds, passedIds, Lookup.askedIds]) }
  begun := Nat.zero_le _
  budget := Nat.zero_le _
  inTurn := rfl
  ordered := .nil _

/-- Nodes at the front of the queue are passed over. -/
theorem pass (explored : w.Explored target limits seeds events) (now : Nat) (cool : CoolDown) :
    ({ w with frontier := w.remains now cool } : Walk α).Explored target limits seeds
      (events ++ (w.passes now cool).map .passed) where
  aimed := explored.aimed
  limited := explored.limited
  knows := by
    rw [known_passed, askedIds_passed, passedIds_passed]
    exact explored.knows.pass now cool
  begun := explored.begun
  budget := by
    rw [askedIds_passed]
    exact explored.budget
  inTurn := by
    rw [askedIds_passed, queries_passed]
    exact explored.inTurn
  ordered := explored.ordered.passed _

/-- The first node of the queue is asked. -/
theorem ask (explored : w.Explored target limits seeds events) (free : w.awaiting = none)
    (left : 0 < w.roundLeft) (first : w.frontier = c :: rest) :
    (w.taken c rest).Explored target limits seeds (events ++ [.query (.asked c)]) where
  aimed := explored.aimed
  limited := explored.limited
  knows := by
    rw [known_snoc_query, askedIds_snoc_query, passedIds_snoc_query, Lookup.Event.brought,
      Lookup.Event.taken, List.append_nil]
    exact explored.knows.taken first
  begun := explored.begun
  budget := by
    have budget := explored.budget
    rw [askedIds_snoc_query, Lookup.Event.taken, List.length_append, List.length_singleton]
    show _ + (w.roundLeft - 1) ≤ w.rounds * limits.roundWidth
    omega
  inTurn := by
    have inTurn := explored.inTurn
    rw [free, Option.toList_none, List.map_nil, List.append_nil] at inTurn
    rw [askedIds_snoc_query, queries_snoc_query, Lookup.endedIds_snoc, inTurn, Lookup.Event.taken,
      Lookup.Event.closed, List.append_nil]
    rfl
  ordered := explored.ordered.snoc fun d same => by
    obtain rfl := Lookup.Event.asked.inj (Event.query.inj same)
    have closest := explored.knows.first_closest first
    rw [explored.aimed] at closest
    exact closest

/-- The query that the walk waits for ends. -/
theorem receive (explored : w.Explored target limits seeds events) (waits : w.awaiting = some c)
    (home : Id) (now : Nat) (cool : CoolDown) (fired : Bool) (reply : Reply α) :
    (w.complete now home cool fired c reply).1.Explored target limits seeds
      (events ++ [.query (.ended fired c reply)]) := by
  obtain ⟨_, _, _, _, _, _, frame⟩ := w.complete_frame now home cool fired c reply
  have none := Lookup.Event.taken_ended fired c reply
  have knows : (w.complete now home cool fired c reply).1.Knows
      (known seeds events ++ (Lookup.Event.ended fired c reply).contacts.map (·.id))
      (askedIds events) (passedIds events) := by
    have landed : w.landed.Knows (known seeds events) (askedIds events) (passedIds events) :=
      { explored.knows with }
    cases reply with
    | ok contacts => exact landed.offerAll home contacts
    | error fault =>
      obtain ⟨done, ended⟩ := w.complete_error now home cool fired c fault
      rw [ended, Lookup.Event.contacts_ended_error, List.map_nil, List.append_nil]
      exact { landed with }
  constructor
  · rw [frame]
    exact explored.aimed
  · rw [frame]
    exact explored.limited
  · rw [known_snoc_query, askedIds_snoc_query, passedIds_snoc_query, Lookup.Event.brought_eq, none,
      List.append_nil]
    exact knows
  · rw [frame]
    exact explored.begun
  · rw [frame, askedIds_snoc_query, none, List.append_nil]
    exact explored.budget
  · have inTurn := explored.inTurn
    rw [waits] at inTurn
    rw [frame, askedIds_snoc_query, queries_snoc_query, Lookup.endedIds_snoc, none, inTurn,
      Lookup.Event.closed_ended, List.append_nil]
    exact (List.append_nil _).symm
  · refine explored.ordered.snoc fun d same => ?_
    exact absurd (Event.query.inj same) (Lookup.Event.ended_ne_asked fired c d reply)

/-- Every step is accounted for. -/
theorem step {p next : Pull α} {more : List (Event α)}
    (explored : p.walk.Explored target limits seeds events) (step : p.Step home more next) :
    next.walk.Explored target limits seeds (events ++ more) := by
  have budget := explored.budget
  cases step with
  | count stalled improved done =>
    rw [List.append_nil]
    exact { explored with knows := { explored.knows with } }
  | «open» closed more =>
    rw [List.append_nil]
    refine { explored with knows := { explored.knows with }, begun := ?_, budget := ?_ }
    · rw [explored.limited] at more
      exact more
    · rw [closed] at budget
      show _ + p.walk.limits.roundWidth ≤ (p.walk.rounds + 1) * limits.roundWidth
      rw [explored.limited, Nat.succ_mul]
      omega
  | abandon =>
    rw [List.append_nil]
    exact { explored with
      knows := { explored.knows with }
      budget := Nat.le_trans (Nat.le_add_right _ _) budget }
  | pass now cool => exact explored.pass now cool
  | ask going free ready left first => exact explored.ask free left first
  | receive going waits now cool fired reply =>
    exact explored.receive waits home now cool fired reply
  | @yield c later ready =>
    exact { explored with
      knows := by
        rw [known_handed, askedIds_handed, passedIds_handed]
        exact { explored.knows with }
      budget := by
        rw [askedIds_handed]
        exact budget
      inTurn := by
        rw [askedIds_handed, queries_handed]
        exact explored.inTurn
      ordered := explored.ordered.snoc nofun }
  | finish ready =>
    rw [List.append_nil]
    exact explored

/-- At its next move the walk asks nobody who is cooling down, and passes over nobody else. -/
theorem cool {p : Pull α} (explored : p.walk.Explored target limits seeds events)
    (m : Pull.Move α) (c : Contact α) :
    (.query (.asked c) ∈ p.events m → (m.node.cool.isCooling m.now c.id).1 = false) ∧
      (.passed c ∈ p.events m → (m.node.cool.isCooling m.now c.id).1 = true) := by
  constructor
  · intro member
    rcases Pull.mem_events member with ⟨d, reply, same⟩ | ⟨d, same⟩ | searched
    · exact absurd (Event.query.inj same).symm (Lookup.Event.ended_ne_asked m.fired d c reply)
    · cases same
    rcases mem_searchEvents searched with passed | ⟨d, rest, first, same | same⟩
    · obtain ⟨_, _, same⟩ := List.mem_map.mp passed
      cases same
    · obtain rfl := Lookup.Event.asked.inj (Event.query.inj same)
      have queued : c ∈ p.walk.frontier :=
        (List.dropWhile_sublist _).subset (first ▸ List.mem_cons_self)
      have front := List.head?_dropWhile_not (p.walk.skips m.now m.node.cool) p.walk.frontier
      rw [← Walk.remains, first] at front
      rw [← explored.knows.skips_eq m.now m.node.cool queued]
      simpa using front
    · cases Event.query.inj same
  · intro member
    rcases Pull.mem_events member with ⟨d, reply, same⟩ | ⟨d, same⟩ | searched
    · cases same
    · cases same
    rcases mem_searchEvents searched with passed | ⟨d, rest, first, same | same⟩
    · obtain ⟨d, front, same⟩ := List.mem_map.mp passed
      obtain rfl := Event.passed.inj same
      have queued : d ∈ p.walk.frontier := (List.takeWhile_sublist _).subset front
      rw [← explored.knows.skips_eq m.now m.node.cool queued]
      exact List.mem_takeWhile_imp front
    · cases same
    · cases same

end Explored

end Walk

/-! ## What the caller gets -/

namespace Pull

/-- The caller has got the new nodes in order, and no query was made before it was needed. -/
structure Harvested (home : Id) (seeds : List (Contact α)) (count : Option Nat)
    (events : List (Walk.Event α)) (p : Pull α) : Prop where
  /-- The nodes handed out are recorded. -/
  given : Walk.handedOut events = p.nodes
  /-- What is new has been handed out or is put by. -/
  whole : p.nodes ++ p.walk.ready = Walk.novel home seeds events
  /-- What is handed out is no longer wanted. -/
  wanted : p.wanted = count.map (· - p.nodes.length)
  /-- A walk that is over has nothing put by. -/
  tidy : p.ended = true → p.walk.ready = []
  /-- No query was made while a node was put by, or when no more were wanted. -/
  lazy : Walk.AtQueries (Walk.IsLazy home seeds count) events

namespace Harvested

variable {target home : Id} {limits : WalkConfig} {seeds : List (Contact α)}
  {count : Option Nat} {events : List (Walk.Event α)} {p : Pull α}

/-- Nothing has been got from a new walk. -/
theorem start (home : Id) (n : Node α) (target : Id) (seeds : List (Contact α))
    (count : Option Nat) : (Pull.start (.start n target) count).Harvested home seeds count [] where
  given := rfl
  whole := rfl
  wanted := by
    cases count <;> rfl
  tidy := nofun
  lazy := .nil _

/-- The query that the walk waits for ends. -/
theorem receive (harvested : p.Harvested home seeds count events)
    (explored : p.walk.Explored target limits seeds events) (going : p.isOver = false)
    (c : Contact α) (now : Nat) (cool : CoolDown) (fired : Bool) (reply : Reply α) :
    ({ p with walk := (p.walk.complete now home cool fired c reply).1 } : Pull α).Harvested home
      seeds count (events ++ [.query (.ended fired c reply)]) := by
  have running : p.ended = false := (Bool.or_eq_false_iff.mp going).1
  constructor
  · rw [Walk.handedOut_snoc_query]
    exact harvested.given
  · rw [Walk.novel_snoc_query, ← harvested.whole, List.append_assoc]
    refine congrArg (p.nodes ++ ·) ?_
    cases reply with
    | ok contacts =>
      have same : ∀ id, id ∈ home :: p.walk.seen ↔ id ∈ home :: Walk.known seeds events := by
        intro id
        rw [List.mem_cons, List.mem_cons, explored.knows.seen]
      rw [Walk.complete_ok, Walk.offerAll_ready]
      exact congrArg (p.walk.ready ++ ·) (Contact.firsts_congr same contacts)
    | error fault =>
      obtain ⟨done, ended⟩ := p.walk.complete_error now home cool fired c fault
      rw [Lookup.Event.contacts_ended_error, ended]
      exact (List.append_nil _).symm
  · exact harvested.wanted
  · intro ended
    rw [running] at ended
    cases ended
  · refine harvested.lazy.snoc fun d same => ?_
    exact absurd (Walk.Event.query.inj same) (Lookup.Event.ended_ne_asked fired c d reply)

/-- A node is asked when nothing is put by. -/
theorem ask (harvested : p.Harvested home seeds count events) (going : p.isOver = false)
    (ready : p.walk.ready = []) (c : Contact α) (rest : List (Contact α)) :
    ({ p with walk := p.walk.taken c rest } : Pull α).Harvested home seeds count
      (events ++ [.query (.asked c)]) where
  given := by
    rw [Walk.handedOut_snoc_query]
    exact harvested.given
  whole := by
    rw [Walk.novel_snoc_query, ← harvested.whole]
    exact (List.append_nil _).symm
  wanted := harvested.wanted
  tidy := harvested.tidy
  lazy := harvested.lazy.snoc fun d same => by
    have whole := harvested.whole
    rw [ready, List.append_nil] at whole
    refine ⟨harvested.given.trans whole, fun number wanted => ?_⟩
    have more : p.wanted ≠ some 0 := by
      have other := (Bool.or_eq_false_iff.mp going).2
      simpa using other
    rw [harvested.given]
    rw [harvested.wanted, wanted, Option.map_some] at more
    by_contra enough
    exact more (congrArg some (Nat.sub_eq_zero_of_le (Nat.le_of_not_lt enough)))

/-- A node is handed out. -/
theorem yield (harvested : p.Harvested home seeds count events) {c : Contact α}
    {later : List (Contact α)} (ready : p.walk.ready = c :: later) :
    (p.yield c later).Harvested home seeds count (events ++ [.handed c]) where
  given := by
    rw [Walk.handedOut_handed, harvested.given]
    rfl
  whole := by
    rw [Walk.novel_handed, ← harvested.whole, ready]
    exact List.append_assoc p.nodes [c] later
  wanted := by
    have wanted := harvested.wanted
    show p.wanted.map (· - 1) = count.map (· - (p.nodes ++ [c]).length)
    rw [wanted, Option.map_map, List.length_append]
    rfl
  tidy ended := by
    have none := harvested.tidy ended
    rw [ready] at none
    cases none
  lazy := harvested.lazy.snoc nofun

/-- Every step is accounted for. -/
theorem step {next : Pull α} {more : List (Walk.Event α)}
    (harvested : p.Harvested home seeds count events)
    (explored : p.walk.Explored target limits seeds events) (step : p.Step home more next) :
    next.Harvested home seeds count (events ++ more) := by
  cases step with
  | count stalled improved done =>
    rw [List.append_nil]
    exact { harvested with }
  | «open» closed more =>
    rw [List.append_nil]
    exact { harvested with }
  | abandon =>
    rw [List.append_nil]
    exact { harvested with }
  | pass now cool =>
    exact {
      given := by
        rw [Walk.handedOut_passed]
        exact harvested.given
      whole := by
        rw [Walk.novel_passed]
        exact harvested.whole
      wanted := harvested.wanted
      tidy := harvested.tidy
      lazy := harvested.lazy.passed _ }
  | ask going free ready left first => exact harvested.ask going ready _ _
  | receive going waits now cool fired reply =>
    exact harvested.receive explored going _ now cool fired reply
  | yield ready => exact harvested.yield ready
  | finish ready =>
    rw [List.append_nil]
    exact { harvested with tidy := fun _ => ready }

end Harvested

/-- Whatever course a walk takes, it accounts for it. -/
theorem Course.accounts {target home : Id} {limits : WalkConfig} {seeds : List (Contact α)}
    {count : Option Nat} {start p : Pull α} {events : List (Walk.Event α)}
    (explored : start.walk.Explored target limits seeds [])
    (harvested : start.Harvested home seeds count []) (course : Course home start events p) :
    p.walk.Explored target limits seeds events ∧ p.Harvested home seeds count events := by
  induction course with
  | refl => exact ⟨explored, harvested⟩
  | step _ step further =>
    exact ⟨further.1.step step, further.2.step further.1 step⟩

end Pull

end Overlay
