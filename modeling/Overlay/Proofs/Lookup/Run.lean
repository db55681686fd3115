import Mathlib.Data.List.Perm.Basic
import Overlay.Lookup.Run
import Overlay.Proofs.Lookup.History

/-!
# Runs of a lookup

A run is played by moves: each gives one worker a turn, with the node as it is at that moment
and the reply that has come for the worker, if any. Moves that the worker cannot make leave the
run as it is, so that every list of moves is a run with some interleaving of the workers and
some order of replies. A course is what a run comes to: a chain of steps, each of which leaves
at most one event behind. `Accounts` holds at the start of every course and is kept by every
step.
-/
namespace Overlay

variable {α : Type}

/-- The identifier whose reply a worker waits for. -/
def Worker.awaits : Worker α → Option Id
  | .awaiting c => some c.id
  | _ => none

/-- The identifiers whose replies some workers wait for. -/
def Worker.awaited (workers : List (Worker α)) : List Id := workers.filterMap (·.awaits)

namespace LookupRun

open Lookup (Event)

/-- A turn given to a worker. -/
structure Move (α : Type) where
  /-- The node that the worker works for, as it is now. -/
  node : Node α
  /-- The present. -/
  now : Nat
  /-- The caller has withdrawn the lookup. -/
  fired : Bool
  /-- The worker whose turn it is. -/
  worker : Nat
  /-- The reply that has come for the worker. -/
  reply : Option (Reply α)

/-- The run after a move. -/
def move (run : LookupRun α) (m : Move α) : LookupRun α :=
  match run.turn m.node m.now m.fired m.worker m.reply with
  | some turn => turn.next
  | none => run

/-- What a move brings about. -/
def events (run : LookupRun α) (m : Move α) : List (Event α) :=
  match run.workers[m.worker]?, m.reply with
  | some .idle, _ =>
    if m.fired then []
    else
      match run.lookup.next with
      | (.ask c, lookup) =>
        if c.id = m.node.id then [.asked c, .answered c (m.node.neighbours lookup.target)]
        else [.asked c]
      | _ => []
  | some (.awaiting c), some reply => [.ended m.fired c reply]
  | _, _ => []

/-- The events of a list of moves and the run after them. -/
def play (run : LookupRun α) : List (Move α) → List (Event α) × LookupRun α
  | [] => ([], run)
  | m :: moves =>
    let (later, last) := (run.move m).play moves
    (run.events m ++ later, last)

/-- What a worker can do with a lookup, and the event that it leaves behind. The node itself is
asked and answers at once, which is two steps. -/
inductive Step (cancellable : Bool) : LookupRun α → List (Event α) → LookupRun α → Prop where
  /-- The worker stops because the caller has withdrawn the lookup. -/
  | quit {run : LookupRun α} {i : Nat} (idle : run.workers[i]? = some .idle)
      (fired : cancellable = true) : Step cancellable run [] (run.setWorker i .stopped)
  /-- The worker finds that the lookup has converged. -/
  | converge {run : LookupRun α} {i : Nat} (idle : run.workers[i]? = some .idle)
      (settled : run.lookup.hasConverged = true) :
      Step cancellable run []
        ({ run with lookup := { run.lookup with converged := true } }.setWorker i .stopped)
  /-- The worker finds nothing to ask and nothing in flight. -/
  | exhaust {run : LookupRun α} {i : Nat} (idle : run.workers[i]? = some .idle)
      (unsettled : run.lookup.hasConverged = false) (empty : run.lookup.frontier = [])
      (landed : run.lookup.inFlight = 0) : Step cancellable run [] (run.setWorker i .stopped)
  /-- The worker asks the first node of the frontier. -/
  | ask {run : LookupRun α} {i : Nat} {c : Contact α} {rest : List (Contact α)}
      (idle : run.workers[i]? = some .idle) (unsettled : run.lookup.hasConverged = false)
      (first : run.lookup.frontier = c :: rest) :
      Step cancellable run [.asked c]
        ({ run with lookup := run.lookup.taken c rest }.setWorker i (.awaiting c))
  /-- The worker receives the reply that it waits for. -/
  | receive {run : LookupRun α} {i : Nat} {c : Contact α} {fired : Bool} {reply : Reply α}
      (waiting : run.workers[i]? = some (.awaiting c)) (calm : fired = true → cancellable = true) :
      Step cancellable run [.ended fired c reply]
        ({ run with lookup := run.lookup.complete fired c reply }.setWorker i .idle)

/-- A run comes about from another by steps, which leave these events behind. -/
inductive Course (cancellable : Bool) (start : LookupRun α) :
    List (Event α) → LookupRun α → Prop where
  /-- Nothing has happened. -/
  | refl : Course cancellable start [] start
  /-- One more step has been made. -/
  | step {past events : List (Event α)} {run next : LookupRun α}
      (course : Course cancellable start past run) (step : Step cancellable run events next) :
      Course cancellable start (past ++ events) next

section Moves

variable {cancellable : Bool} {start : LookupRun α} {past : List (Event α)} {run : LookupRun α}

/-- A worker that did something in between is idle again. -/
theorem setWorker_back {i : Nat} (idle : run.workers[i]? = some .idle) (w : Worker α) :
    (run.setWorker i w).setWorker i .idle = run := by
  obtain ⟨inside, here⟩ := List.getElem?_eq_some_iff.mp idle
  have back : (run.workers.set i w).set i .idle = run.workers := by
    rw [List.set_set, ← here, List.set_getElem_self]
  rw [setWorker, setWorker, back]

/-- A worker that asks the node itself has its answer at once. -/
theorem Course.own (course : Course cancellable start past run) {i : Nat} {c : Contact α}
    {rest : List (Contact α)} (idle : run.workers[i]? = some .idle)
    (unsettled : run.lookup.hasConverged = false) (first : run.lookup.frontier = c :: rest)
    (contacts : List (Contact α)) :
    Course cancellable start (past ++ [.asked c, .answered c contacts])
      { run with lookup := (run.lookup.taken c rest).complete false c (.ok contacts) } := by
  let asking := { run with lookup := run.lookup.taken c rest }.setWorker i (.awaiting c)
  let answered := { run with
    lookup := (run.lookup.taken c rest).complete false c (.ok contacts) }
  -- For the account of the run the worker waits for the answer, if only within one turn.
  have inside : i < run.workers.length := (List.getElem?_eq_some_iff.mp idle).1
  have waiting : asking.workers[i]? = some (.awaiting c) := List.getElem?_set_self inside
  have reply : Step cancellable asking [.answered c contacts]
      ((answered.setWorker i (.awaiting c)).setWorker i .idle) :=
    @Step.receive _ _ asking i c false (.ok contacts) waiting nofun
  have still : answered.workers[i]? = some .idle := idle
  rw [setWorker_back still] at reply
  have both := (course.step (.ask idle unsettled first)).step reply
  rw [List.append_assoc] at both
  exact both

/-- A move of an idle worker goes on with the course. -/
theorem Course.move_idle (course : Course cancellable start past run) (m : Move α)
    (calm : m.fired = true → cancellable = true) (idle : run.workers[m.worker]? = some .idle) :
    Course cancellable start (past ++ run.events m) (run.move m) := by
  unfold LookupRun.move events turn
  simp only [idle, take]
  cases fired : m.fired with
  | true => exact course.step (.quit idle (calm fired))
  | false =>
    simp only [Bool.false_eq_true, if_false]
    rcases run.lookup.next_cases with ⟨settled, next⟩ | ⟨unsettled, c, rest, first, next⟩ |
      ⟨unsettled, empty, landed, next⟩ | ⟨_, _, _, next⟩
    · rw [next]
      exact course.step (.converge idle settled)
    · rw [next]
      by_cases own : c.id = m.node.id
      · simp only [own, if_true]
        exact course.own idle unsettled first (m.node.neighbours run.lookup.target)
      · simp only [own, if_false]
        exact course.step (.ask idle unsettled first)
    · rw [next]
      exact course.step (.exhaust idle unsettled empty landed)
    · rw [next]
      simp only [List.append_nil]
      exact course

/-- Every move goes on with the course. -/
theorem Course.move (course : Course cancellable start past run) (m : Move α)
    (calm : m.fired = true → cancellable = true) :
    Course cancellable start (past ++ run.events m) (run.move m) := by
  have rest (nothing : run.events m = []) (same : run.move m = run) :
      Course cancellable start (past ++ run.events m) (run.move m) := by
    rw [nothing, same, List.append_nil]
    exact course
  cases here : run.workers[m.worker]? with
  | none => exact rest (by simp only [events, here]) (by simp only [LookupRun.move, turn, here])
  | some worker =>
    cases worker with
    | idle => exact course.move_idle m calm here
    | stopped =>
      exact rest (by simp only [events, here]) (by simp only [LookupRun.move, turn, here])
    | awaiting c =>
      cases come : m.reply with
      | none =>
        exact rest (by simp only [events, here, come])
          (by simp only [LookupRun.move, turn, here, come])
      | some reply =>
        have step := course.step (@Step.receive _ _ run m.worker c m.fired reply here calm)
        simp only [LookupRun.move, events, turn, here, come]
        exact step

/-- A list of moves goes on with the course. -/
theorem Course.play (course : Course cancellable start past run) (moves : List (Move α))
    (calm : ∀ m ∈ moves, m.fired = true → cancellable = true) :
    Course cancellable start (past ++ (run.play moves).1) (run.play moves).2 := by
  induction moves generalizing past run with
  | nil =>
    rw [LookupRun.play, List.append_nil]
    exact course
  | cons m moves further =>
    have first := course.move m (calm m List.mem_cons_self)
    have last := further first fun later member => calm later (List.mem_cons_of_mem m member)
    rw [List.append_assoc] at last
    exact last

end Moves

/-! ## The account of a run -/

/-- A worker waits for the node that it has asked. -/
theorem mem_awaited {workers : List (Worker α)} {i : Nat} {c : Contact α}
    (waiting : workers[i]? = some (.awaiting c)) : c.id ∈ Worker.awaited workers :=
  List.mem_filterMap.mpr ⟨.awaiting c, List.mem_of_getElem? waiting, rfl⟩

/-- What is picked from the other items stays the same when one item is replaced. -/
theorem filterMap_set {β γ : Type} (pick : β → Option γ) {items : List β} {i : Nat} {item : β}
    (here : items[i]? = some item) (next : β) :
    ∃ others, (items.filterMap pick).Perm ((pick item).toList ++ others) ∧
      ((items.set i next).filterMap pick).Perm ((pick next).toList ++ others) := by
  obtain ⟨inside, same⟩ := List.getElem?_eq_some_iff.mp here
  have first (item : β) : (item :: items.eraseIdx i).filterMap pick =
      (pick item).toList ++ (items.eraseIdx i).filterMap pick := by
    rw [List.filterMap_cons]
    cases pick item <;> rfl
  have before : items.Perm (item :: items.eraseIdx i) := by
    rw [← same]
    exact (List.getElem_cons_eraseIdx_perm inside).symm
  have after : (items.set i next).Perm (next :: items.eraseIdx i) :=
    List.set_perm_cons_eraseIdx inside next
  refine ⟨(items.eraseIdx i).filterMap pick, ?_, ?_⟩
  · rw [← first]
    exact before.filterMap pick
  · rw [← first]
    exact after.filterMap pick

/-- What the others wait for stays the same when one worker does something else. -/
theorem awaited_set {workers : List (Worker α)} {i : Nat} {worker : Worker α}
    (here : workers[i]? = some worker) (next : Worker α) :
    ∃ others, (Worker.awaited workers).Perm (worker.awaits.toList ++ others) ∧
      (Worker.awaited (workers.set i next)).Perm (next.awaits.toList ++ others) :=
  filterMap_set Worker.awaits here next

/-- The run accounts for its history. -/
structure Accounts (target : Id) (width : Nat) (seeds : List (Contact α))
    (events : List (Event α)) (run : LookupRun α) : Prop where
  /-- The lookup still looks for the same target. -/
  aimed : run.lookup.target = target
  /-- The lookup still looks for as many nodes. -/
  sized : run.lookup.width = width
  /-- The lookup holds what its history says. -/
  tracks : run.lookup.Tracks (Lookup.known seeds events) (Lookup.askedIds events)
    (Lookup.failedIds events)
  /-- The queries that have not ended are the ones that workers wait for. -/
  pending : (Lookup.askedIds events).Perm
    (Lookup.endedIds events ++ Worker.awaited run.workers)
  /-- They are counted. -/
  flying : run.lookup.inFlight = (Worker.awaited run.workers).length
  /-- Every query went to the closest node. -/
  ordered : Lookup.ClosestFirst target seeds events

namespace Accounts

variable {target : Id} {width : Nat} {seeds : List (Contact α)} {events : List (Event α)}
  {run : LookupRun α} {i : Nat}

/-- A new run accounts for nothing having happened. -/
theorem ofSeeds (target : Id) (width patience alpha : Nat) (seeds : List (Contact α)) :
    Accounts target width seeds [] (LookupRun.ofSeeds target width patience alpha seeds) := by
  have tracks := Lookup.Tracks.start target width patience seeds
  have idle : Worker.awaited (List.replicate alpha (.idle : Worker α)) = [] := by
    simp [Worker.awaited, Worker.awaits]
  obtain ⟨frontier, seen, pool, fresh⟩ := Lookup.start_frame target width patience seeds
  rw [LookupRun.ofSeeds]
  exact {
    aimed := by rw [fresh]
    sized := by rw [fresh]
    tracks := by simpa [Lookup.known, Lookup.askedIds, Lookup.failedIds] using tracks
    pending := by
      rw [idle]
      exact List.Perm.nil
    flying := by
      rw [idle, fresh]
      rfl
    ordered := by
      intro before c after split
      simp at split }

/-- A worker that stops takes nothing with it. -/
theorem stop (accounts : Accounts target width seeds events run)
    (idle : run.workers[i]? = some .idle) (converged : Bool) :
    Accounts target width seeds events
      ({ run with lookup := { run.lookup with converged := converged } }.setWorker i .stopped) := by
  obtain ⟨others, before, after⟩ := awaited_set idle .stopped
  have same := before.trans after.symm
  exact { accounts with
    tracks := { accounts.tracks with }
    pending := accounts.pending.trans (same.append_left _)
    flying := accounts.flying.trans same.length_eq }

/-- A query that begins is accounted for. -/
theorem ask (accounts : Accounts target width seeds events run)
    (idle : run.workers[i]? = some .idle) {c : Contact α} {rest : List (Contact α)}
    (first : run.lookup.frontier = c :: rest) :
    Accounts target width seeds (events ++ [.asked c])
      ({ run with lookup := run.lookup.taken c rest }.setWorker i (.awaiting c)) := by
  obtain ⟨others, before, after⟩ := awaited_set idle (.awaiting c)
  have more := after.trans (before.symm.cons c.id)
  have closest := accounts.tracks.first_closest first
  rw [accounts.aimed] at closest
  exact { accounts with
    tracks := by
      rw [Lookup.known_snoc, Lookup.askedIds_snoc, Lookup.failedIds_snoc, Event.brought,
        Event.lost, List.append_nil, List.append_nil]
      exact accounts.tracks.taken first
    pending := by
      rw [Lookup.askedIds_snoc, Lookup.endedIds_snoc]
      calc Lookup.askedIds events ++ [c.id]
        _ |>.Perm (c.id :: Lookup.askedIds events) := List.perm_append_singleton _ _
        _ |>.Perm (c.id :: (Lookup.endedIds events ++ Worker.awaited run.workers)) :=
          accounts.pending.cons c.id
        _ |>.Perm (Lookup.endedIds events ++ c.id :: Worker.awaited run.workers) :=
          List.perm_middle.symm
        _ |>.Perm (Lookup.endedIds events ++ [] ++
            Worker.awaited (run.workers.set i (.awaiting c))) := by
          rw [List.append_nil]
          exact more.symm.append_left _
    flying := by
      have length := more.length_eq
      rw [List.length_cons, ← accounts.flying] at length
      exact length.symm
    ordered := by
      refine accounts.ordered.snoc fun d same => ?_
      obtain rfl := Event.asked.inj same
      exact closest }

/-- A node that a worker waits for has been asked. -/
theorem mem_asked_of_awaiting (accounts : Accounts target width seeds events run) {c : Contact α}
    (waiting : run.workers[i]? = some (.awaiting c)) : c.id ∈ Lookup.askedIds events :=
  accounts.pending.mem_iff.mpr (List.mem_append_right _ (mem_awaited waiting))

/-- A query that a worker waits for is in flight. -/
theorem flying_of_awaiting (accounts : Accounts target width seeds events run) {c : Contact α}
    (waiting : run.workers[i]? = some (.awaiting c)) : 0 < run.lookup.inFlight := by
  rw [accounts.flying]
  exact List.length_pos_of_mem (mem_awaited waiting)

/-- With an empty frontier, all that is known has been asked. -/
theorem asked_of_known (accounts : Accounts target width seeds events run)
    (empty : run.lookup.frontier = []) {id : Id} (listed : id ∈ Lookup.known seeds events) :
    id ∈ Lookup.askedIds events := by
  by_contra missing
  have waiting := (accounts.tracks.frontier.members id).mpr ⟨listed, missing⟩
  rw [empty] at waiting
  cases waiting

/-- With nothing in flight, every query has ended. -/
theorem asked_perm_ended (accounts : Accounts target width seeds events run)
    (landed : run.lookup.inFlight = 0) :
    (Lookup.askedIds events).Perm (Lookup.endedIds events) := by
  have idle : Worker.awaited run.workers = [] :=
    List.eq_nil_of_length_eq_zero (accounts.flying.symm.trans landed)
  have pending := accounts.pending
  rw [idle, List.append_nil] at pending
  exact pending

/-- A query that ends is accounted for. -/
theorem receive (accounts : Accounts target width seeds events run) {c : Contact α}
    (waiting : run.workers[i]? = some (.awaiting c)) (fired : Bool) (reply : Reply α) :
    Accounts target width seeds (events ++ [.ended fired c reply])
      ({ run with lookup := run.lookup.complete fired c reply }.setWorker i .idle) := by
  obtain ⟨others, before, after⟩ := awaited_set waiting .idle
  have less := before.trans (after.symm.cons c.id)
  have member := accounts.mem_asked_of_awaiting waiting
  obtain ⟨_, _, _, _, _, frame⟩ := run.lookup.complete_frame fired c reply
  exact {
    aimed := by
      rw [← accounts.aimed, setWorker, frame]
      rfl
    sized := by
      rw [← accounts.sized, setWorker, frame]
      rfl
    tracks := by
      rw [Lookup.known_snoc, Lookup.askedIds_snoc, Lookup.failedIds_snoc]
      exact accounts.tracks.ended fired c reply member
    pending := by
      rw [Lookup.askedIds_snoc, Lookup.endedIds_snoc, Event.taken_ended, Event.closed_ended,
        List.append_nil, List.append_assoc]
      exact accounts.pending.trans (less.append_left _)
    flying := by
      have length := less.length_eq
      rw [List.length_cons, ← accounts.flying] at length
      rw [setWorker, frame]
      exact Nat.sub_eq_of_eq_add length
    ordered := accounts.ordered.snoc fun d same =>
      absurd same (Event.ended_ne_asked fired c d reply) }

/-- Every step is accounted for. -/
theorem step {cancellable : Bool} {more : List (Event α)} {next : LookupRun α}
    (accounts : Accounts target width seeds events run)
    (step : Step cancellable run more next) :
    Accounts target width seeds (events ++ more) next := by
  cases step with
  | quit idle _ =>
    rw [List.append_nil]
    exact accounts.stop idle run.lookup.converged
  | converge idle _ =>
    rw [List.append_nil]
    exact accounts.stop idle true
  | exhaust idle _ _ _ =>
    rw [List.append_nil]
    exact accounts.stop idle run.lookup.converged
  | ask idle _ first => exact accounts.ask idle first
  | receive waiting _ => exact accounts.receive waiting _ _

/-- Every course is accounted for. -/
theorem course {cancellable : Bool} {start : LookupRun α} {past : List (Event α)}
    (begin : Accounts target width seeds past start)
    (course : Course cancellable start events run) :
    Accounts target width seeds (past ++ events) run := by
  induction course with
  | refl =>
    rw [List.append_nil]
    exact begin
  | step _ step further =>
    rw [← List.append_assoc]
    exact further.step step

/-- Whatever moves are made, the run accounts for what has happened. -/
theorem play (target : Id) (width patience alpha : Nat) (seeds : List (Contact α))
    (moves : List (Move α)) :
    Accounts target width seeds
      ((LookupRun.ofSeeds target width patience alpha seeds).play moves).1
      ((LookupRun.ofSeeds target width patience alpha seeds).play moves).2 := by
  have begin := @Course.refl α true (LookupRun.ofSeeds target width patience alpha seeds)
  exact (ofSeeds target width patience alpha seeds).course (begin.play moves fun _ _ _ => rfl)

end Accounts

/-- A lookup at any moment, under any moves of its workers: no node is taken for a query twice;
every node taken was the closest one known and not asked; and the lookup returns exactly the
closest known nodes whose query has not failed. -/
theorem play_closest (target : Id) (width patience alpha : Nat) (seeds : List (Contact α))
    (moves : List (Move α)) :
    let (events, run) := (ofSeeds target width patience alpha seeds).play moves
    (Lookup.askedIds events).Nodup ∧
    run.lookup.asked = (Lookup.askedIds events).reverse ∧
    Lookup.ClosestFirst target seeds events ∧
    Id.Closest target width
      (fun id => id ∈ Lookup.known seeds events ∧ id ∉ Lookup.failedIds events)
      (run.lookup.closest.map (·.id)) := by
  have accounts := Accounts.play target width patience alpha seeds moves
  have closest := accounts.tracks.closest
  rw [accounts.aimed, accounts.sized] at closest
  exact ⟨accounts.tracks.once, accounts.tracks.recorded, accounts.ordered, closest⟩

end LookupRun

end Overlay
