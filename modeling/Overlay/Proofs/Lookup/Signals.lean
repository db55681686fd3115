import Mathlib
import Overlay.Activity
import Overlay.Proofs.Lookup.Run

/-!
# What a lookup says of the nodes it calls

Every node that a lookup asks is called, except the node itself, which is answered from its own
table. The end of a call is taken twice: by the lookup, which counts it, and by the node, for which
an answer is a message and any fault a failure. As long as the caller does not withdraw, the two
books agree: there is one signal for each call that has ended, and as many failures are counted as
are signalled and as nodes are missing from the pool. A fault ends a query and nothing else.
-/
namespace Overlay

variable {α : Type}

/-- What the end of a call says of the node called. -/
inductive Signal (α : Type) where
  /-- The node has sent a message. -/
  | message (c : Contact α)
  /-- The call has failed. -/
  | failure (c : Contact α)

namespace Signal

/-- The node that a signal is about. -/
def contact : Signal α → Contact α
  | message c | failure c => c

/-- The signal is a failure. -/
def isFailure : Signal α → Bool
  | message _ => false
  | failure _ => true

/-- An answer is a message, whatever it brings; any fault is a failure. -/
def ofReply (c : Contact α) : Reply α → Signal α
  | .ok _ => message c
  | .error _ => failure c

/-- The reply to a call is about the node called. -/
theorem contact_ofReply (c : Contact α) (reply : Reply α) : (ofReply c reply).contact = c := by
  cases reply <;> rfl

end Signal

/-- The node when it has taken a signal in. -/
def Node.told (n : Node α) (now : Nat) : Signal α → Node α
  | .message c => (n.heard now c).2
  | .failure c => (n.requestFailed c.id).2

/-- The end of a query that is not withdrawn is a signal to the node. -/
theorem Node.judge_unfired (n : Node α) (now : Nat) (asked : Contact α) (reply : Reply α) :
    n.judge now false asked reply = n.told now (.ofReply asked reply) := by
  cases reply <;> rfl

namespace Lookup

/-- What an event says of another node than this one. -/
def Event.signals (home : Id) : Event α → List (Signal α)
  | .answered c _ => if c.id = home then [] else [.message c]
  | .failed c _ => [.failure c]
  | .asked _ | .withdrawn _ => []

/-- What some events say of other nodes. -/
def signals (home : Id) (events : List (Event α)) : List (Signal α) :=
  events.flatMap (Event.signals home)

/-- The node called when a node is taken for a query. -/
def Event.callee (home : Id) : Event α → List (Contact α)
  | .asked c => if c.id = home then [] else [c]
  | .answered _ _ | .failed _ _ | .withdrawn _ => []

/-- The nodes called, in order. -/
def callees (home : Id) (events : List (Event α)) : List (Contact α) :=
  events.flatMap (Event.callee home)

section Events

variable (home : Id) (events later : List (Event α))

/-- Signals of two stretches of events. -/
theorem signals_append :
    signals home (events ++ later) = signals home events ++ signals home later :=
  List.flatMap_append

/-- Nodes called over two stretches of events. -/
theorem callees_append :
    callees home (events ++ later) = callees home events ++ callees home later :=
  List.flatMap_append

/-- The nodes called are the nodes asked, except this one. -/
theorem map_callees : (callees home events).map (·.id) = (askedIds events).filter (· ≠ home) := by
  induction events with
  | nil => rfl
  | cons event events hyp =>
    have first : (event.callee home).map (·.id) = event.taken.filter (· ≠ home) := by
      cases event with
      | asked c => by_cases own : c.id = home <;> simp [Event.callee, Event.taken, own]
      | answered c contacts => rfl
      | failed c fault => rfl
      | withdrawn c => rfl
    rw [callees, askedIds, List.flatMap_cons, List.flatMap_cons, List.map_append,
      List.filter_append, first]
    exact congrArg _ hyp

/-- Each query that fails is a failure. -/
theorem failedIds_eq_signals :
    failedIds events = ((signals home events).filter (·.isFailure)).map (·.contact.id) := by
  induction events with
  | nil => rfl
  | cons event events hyp =>
    have first : event.lost = ((event.signals home).filter (·.isFailure)).map (·.contact.id) := by
      cases event with
      | asked c => rfl
      | answered c contacts =>
        by_cases own : c.id = home <;> simp [Event.signals, Event.lost, own, Signal.isFailure]
      | failed c fault => rfl
      | withdrawn c => rfl
    rw [failedIds, signals, List.flatMap_cons, List.flatMap_cons, List.filter_append,
      List.map_append, ← first]
    exact congrArg _ hyp

variable {home events}

/-- With each node asked once, the nodes asked are those called and possibly this one. -/
theorem length_askedIds (once : (askedIds events).Nodup) :
    (askedIds events).length =
      (callees home events).length + if home ∈ askedIds events then 1 else 0 := by
  have others : (callees home events).length = (askedIds events).countP (· ≠ home) := by
    rw [← List.length_map (·.id), map_callees, List.countP_eq_length_filter]
  have own : (askedIds events).countP (fun id => ¬decide (id ≠ home) = true) =
      if home ∈ askedIds events then 1 else 0 := by
    rw [← once.count]
    exact List.countP_congr fun id _ => by simp
  rw [others, ← own]
  exact List.length_eq_countP_add_countP fun id => decide (id ≠ home)

end Events

end Lookup

namespace LookupRun

open Lookup (Event)

/-! ## What a move comes to -/

/-- The turn that a move asks for. -/
def attempt (run : LookupRun α) (m : Move α) : Option (Turn α (LookupRun α)) :=
  run.turn m.node m.now m.fired m.worker m.reply

/-- A move goes on with what the turn leaves. -/
theorem move_of_some {run : LookupRun α} {m : Move α} {t : Turn α (LookupRun α)}
    (made : run.attempt m = some t) : run.move m = t.next := by
  rw [attempt] at made
  rw [move, made]

/-- A move without a turn leaves the run as it is. -/
theorem move_of_none {run : LookupRun α} {m : Move α} (stuck : run.attempt m = none) :
    run.move m = run := by
  rw [attempt] at stuck
  rw [move, stuck]

/-- The calls that some moves make, in order. -/
def calls (run : LookupRun α) : List (Move α) → List (Call α)
  | [] => []
  | m :: moves => ((run.attempt m).bind (·.call)).toList ++ (run.move m).calls moves

/-- A move of a lookup that is not withdrawn comes to nothing, stops its worker, answers a query
from the node's own table, calls a node, or ends a query. -/
theorem attempt_cases (run : LookupRun α) (m : Move α) (calm : m.fired = false) :
    (run.attempt m = none ∧ run.events m = []) ∨
      (∃ converged, run.workers[m.worker]? = some .idle ∧ run.events m = [] ∧
        run.attempt m = some ⟨m.node,
          { run with lookup := { run.lookup with converged := converged } }.setWorker m.worker
            .stopped, none⟩) ∨
      (∃ c rest, run.lookup.frontier = c :: rest ∧ c.id = m.node.id ∧
        run.workers[m.worker]? = some .idle ∧
        run.events m = [.asked c, .answered c (m.node.neighbours run.lookup.target)] ∧
        run.attempt m = some ⟨m.node,
          { run with
            lookup := (run.lookup.taken c rest).complete false c
              (.ok (m.node.neighbours run.lookup.target)) }, none⟩) ∨
      (∃ c rest, run.lookup.frontier = c :: rest ∧ c.id ≠ m.node.id ∧
        run.workers[m.worker]? = some .idle ∧ run.events m = [.asked c] ∧
        run.attempt m = some ⟨m.node,
          { run with lookup := run.lookup.taken c rest }.setWorker m.worker (.awaiting c),
          some (m.node.findCall c run.lookup.target)⟩) ∨
      ∃ c reply, run.workers[m.worker]? = some (.awaiting c) ∧ m.reply = some reply ∧
        run.events m = [.ended false c reply] ∧
        run.attempt m = some ⟨m.node.told m.now (.ofReply c reply),
          { run with lookup := run.lookup.complete false c reply }.setWorker m.worker .idle,
          none⟩ := by
  unfold attempt turn events
  rw [calm]
  cases here : run.workers[m.worker]? with
  | none => exact .inl ⟨rfl, rfl⟩
  | some worker =>
    cases worker with
    | stopped => exact .inl ⟨rfl, rfl⟩
    | awaiting c =>
      cases come : m.reply with
      | none => exact .inl ⟨rfl, rfl⟩
      | some reply =>
        refine .inr (.inr (.inr (.inr ⟨c, reply, rfl, rfl, rfl, ?_⟩)))
        simp only [receive, Node.judge_unfired]
    | idle =>
      simp only [take, Bool.false_eq_true, if_false]
      rcases run.lookup.next_cases with ⟨-, next⟩ | ⟨-, c, rest, first, next⟩ |
        ⟨-, -, -, next⟩ | ⟨-, -, -, next⟩
      · rw [next]
        exact .inr (.inl ⟨true, trivial, rfl, rfl⟩)
      · rw [next]
        by_cases own : c.id = m.node.id
        · simp only [own, if_true]
          exact .inr (.inr (.inl ⟨c, rest, first, own, trivial, rfl, rfl⟩))
        · simp only [own, if_false]
          exact .inr (.inr (.inr (.inl ⟨c, rest, first, own, trivial, rfl, rfl⟩)))
      · rw [next]
        exact .inr (.inl ⟨run.lookup.converged, trivial, rfl, rfl⟩)
      · rw [next]
        exact .inl ⟨rfl, rfl⟩

/-! ## The books of a run -/

/-- The node that a worker has called. -/
def callee? : Worker α → Option (Contact α)
  | .awaiting c => some c
  | .idle | .stopped => none

/-- The nodes called that have not replied. -/
def outstanding (run : LookupRun α) : List (Contact α) := run.workers.filterMap callee?

/-- What is called and signalled on behalf of a node agrees with what has happened. -/
structure Reports (home target : Id) (events : List (Event α)) (calls : List (Call α))
    (run : LookupRun α) : Prop where
  /-- The lookup still looks for the same target. -/
  aimed : run.lookup.target = target
  /-- No worker waits for the node itself. -/
  remote : ∀ c ∈ run.outstanding, c.id ≠ home
  /-- Every call asks for the target. -/
  requests : ∀ call ∈ calls, call.request = .find target
  /-- The nodes called are the nodes asked, except the node itself. -/
  called : calls.map (·.callee) = Lookup.callees home events
  /-- Of every call there has been one signal, or it is outstanding. -/
  settled : (Lookup.callees home events).Perm
    ((Lookup.signals home events).map (·.contact) ++ run.outstanding)

namespace Reports

variable {home target : Id} {events : List (Event α)} {made : List (Call α)} {run : LookupRun α}

/-- Nothing has been called or signalled in a new run. -/
theorem ofSeeds (home target : Id) (width patience alpha : Nat) (seeds : List (Contact α)) :
    Reports home target [] [] (LookupRun.ofSeeds target width patience alpha seeds) := by
  have none : (LookupRun.ofSeeds target width patience alpha seeds).outstanding = [] := by
    simp [outstanding, LookupRun.ofSeeds, callee?]
  obtain ⟨_, _, _, fresh⟩ := Lookup.start_frame target width patience seeds
  exact {
    aimed := by rw [LookupRun.ofSeeds, fresh]
    remote := by
      rw [none]
      intro c waits
      cases waits
    requests := by
      intro call member
      cases member
    called := rfl
    settled := by
      rw [none]
      exact List.Perm.nil }

/-- What happens without a call and without a signal leaves the books as they are, as long as
nothing comes to be outstanding. -/
theorem quiet (reports : Reports home target events made run) {more : List (Event α)}
    {next : LookupRun α} (aimed : next.lookup.target = run.lookup.target)
    (same : next.outstanding.Perm run.outstanding) (uncalled : Lookup.callees home more = [])
    (silent : Lookup.signals home more = []) :
    Reports home target (events ++ more) made next where
  aimed := aimed.trans reports.aimed
  remote := fun c waits => reports.remote c (same.subset waits)
  requests := reports.requests
  called := by
    rw [Lookup.callees_append, uncalled, List.append_nil]
    exact reports.called
  settled := by
    rw [Lookup.callees_append, uncalled, Lookup.signals_append, silent, List.append_nil,
      List.append_nil]
    exact reports.settled.trans (same.symm.append_left _)

/-- A call is booked. -/
theorem call (reports : Reports home target events made run) {i : Nat} {c : Contact α}
    {rest : List (Contact α)} (idle : run.workers[i]? = some .idle) (other : c.id ≠ home)
    {call : Call α} (callee : call.callee = c) (request : call.request = .find target) :
    Reports home target (events ++ [.asked c]) (made ++ [call])
      ({ run with lookup := run.lookup.taken c rest }.setWorker i (.awaiting c)) := by
  obtain ⟨others, before, after⟩ := filterMap_set callee? idle (.awaiting c)
  have grows : ({ run with lookup := run.lookup.taken c rest }.setWorker i
      (.awaiting c)).outstanding.Perm (c :: run.outstanding) := after.trans (before.symm.cons c)
  have called : Lookup.callees home [.asked c] = [c] := by
    simp [Lookup.callees, Event.callee, other]
  have silent : Lookup.signals home [(.asked c : Event α)] = [] := rfl
  exact {
    aimed := reports.aimed
    remote := by
      intro d waits
      rcases List.mem_cons.mp (grows.subset waits) with rfl | earlier
      · exact other
      · exact reports.remote d earlier
    requests := by
      intro other member
      rcases List.mem_append.mp member with earlier | last
      · exact reports.requests other earlier
      · rw [List.mem_singleton.mp last]
        exact request
    called := by
      rw [List.map_append, reports.called, Lookup.callees_append, called, List.map_singleton,
        callee]
    settled := by
      rw [Lookup.callees_append, called, Lookup.signals_append, silent, List.append_nil]
      calc Lookup.callees home events ++ [c]
        _ |>.Perm (c :: Lookup.callees home events) := List.perm_append_singleton ..
        _ |>.Perm (c :: ((Lookup.signals home events).map (·.contact) ++ run.outstanding)) :=
          reports.settled.cons c
        _ |>.Perm ((Lookup.signals home events).map (·.contact) ++ c :: run.outstanding) :=
          List.perm_middle.symm
        _ |>.Perm _ := grows.symm.append_left _ }

/-- A node that a worker waits for has been called. -/
theorem outstanding_of_awaiting {i : Nat} {c : Contact α}
    (waiting : run.workers[i]? = some (.awaiting c)) : c ∈ run.outstanding :=
  List.mem_filterMap.mpr ⟨.awaiting c, List.mem_of_getElem? waiting, rfl⟩

/-- A reply to a call is one signal. -/
theorem signals_ended {home : Id} {c : Contact α} (other : c.id ≠ home) (reply : Reply α) :
    Lookup.signals home [.ended false c reply] = [.ofReply c reply] := by
  cases reply <;> simp [Lookup.signals, Event.ended, Event.signals, other, Signal.ofReply]

/-- The end of a call is booked. -/
theorem reply (reports : Reports home target events made run) {i : Nat} {c : Contact α}
    (waiting : run.workers[i]? = some (.awaiting c)) (reply : Reply α) :
    Reports home target (events ++ [.ended false c reply]) made
      ({ run with lookup := run.lookup.complete false c reply }.setWorker i .idle) := by
  obtain ⟨others, before, after⟩ := filterMap_set callee? waiting .idle
  have shrinks : run.outstanding.Perm (c :: ({ run with
      lookup := run.lookup.complete false c reply }.setWorker i .idle).outstanding) :=
    before.trans (after.symm.cons c)
  have signal := signals_ended (reports.remote c (outstanding_of_awaiting waiting)) reply
  have uncalled : Lookup.callees home [.ended false c reply] = [] := by cases reply <;> rfl
  obtain ⟨_, _, _, _, _, completed⟩ := run.lookup.complete_frame false c reply
  exact {
    aimed := by
      rw [setWorker, completed]
      exact reports.aimed
    remote := fun d waits => reports.remote d (shrinks.symm.subset (List.mem_cons_of_mem c waits))
    requests := reports.requests
    called := by
      rw [Lookup.callees_append, uncalled, List.append_nil]
      exact reports.called
    settled := by
      rw [Lookup.callees_append, uncalled, List.append_nil, Lookup.signals_append, signal,
        List.map_append, List.map_singleton, Signal.contact_ofReply, List.append_assoc]
      exact reports.settled.trans (shrinks.append_left _) }

/-- Every move that is not withdrawn is booked. -/
theorem move (reports : Reports home target events made run) (m : Move α) (calm : m.fired = false)
    (same : m.node.id = home) :
    Reports home target (events ++ run.events m)
      (made ++ ((run.attempt m).bind (·.call)).toList) (run.move m) := by
  rcases run.attempt_cases m calm with ⟨stuck, none⟩ | ⟨converged, idle, none, stops⟩ |
    ⟨c, rest, -, own, idle, asked, answers⟩ | ⟨c, rest, -, other, idle, asked, calls⟩ |
    ⟨c, reply, waiting, -, ended, receives⟩
  · rw [move_of_none stuck, stuck, none, List.append_nil]
    simpa using reports
  · rw [move_of_some stops, stops, none]
    obtain ⟨others, before, after⟩ := filterMap_set callee? idle .stopped
    have still : ({ run with lookup := { run.lookup with converged := converged } }.setWorker
        m.worker .stopped).outstanding.Perm run.outstanding := after.trans before.symm
    rw [Option.bind_some, Option.toList_none, List.append_nil made]
    refine reports.quiet ?_ still rfl rfl
    rfl
  · rw [move_of_some answers, answers, asked]
    obtain ⟨_, _, _, _, _, completed⟩ := (run.lookup.taken c rest).complete_frame false c
      (.ok (m.node.neighbours run.lookup.target))
    rw [same] at own
    have uncalled : Lookup.callees home
        [.asked c, .answered c (m.node.neighbours run.lookup.target)] = [] := by
      simp [Lookup.callees, Event.callee, own]
    have silent : Lookup.signals home
        [.asked c, .answered c (m.node.neighbours run.lookup.target)] = [] := by
      simp [Lookup.signals, Event.signals, own]
    rw [Option.bind_some, Option.toList_none, List.append_nil, completed]
    exact reports.quiet rfl (List.Perm.refl _) uncalled silent
  · rw [move_of_some calls, calls, asked]
    rw [same] at other
    exact reports.call idle other rfl (congrArg Request.find reports.aimed)
  · rw [move_of_some receives, receives, ended]
    simpa using reports.reply waiting reply

/-- Every run that is not withdrawn is booked. -/
theorem play (reports : Reports home target events made run) (moves : List (Move α))
    (calm : ∀ m ∈ moves, m.fired = false ∧ m.node.id = home) :
    Reports home target (events ++ (run.play moves).1) (made ++ run.calls moves)
      (run.play moves).2 := by
  induction moves generalizing events made run with
  | nil => simpa [LookupRun.play, calls] using reports
  | cons m moves hyp =>
    obtain ⟨unfired, same⟩ := calm m List.mem_cons_self
    have later := hyp (reports.move m unfired same) fun m' member =>
      calm m' (List.mem_cons_of_mem m member)
    rw [List.append_assoc, List.append_assoc] at later
    exact later

end Reports

/-- What the next turn of a run does for its node, whichever worker makes it. -/
structure Relays (home target : Id) (run : LookupRun α) (m : Move α) : Prop where
  /-- The node takes in the signals of the turn and nothing else. -/
  node : ∀ t, run.attempt m = some t →
    t.node = (Lookup.signals home (run.events m)).foldl (fun n signal => n.told m.now signal) m.node
  /-- Another node that is taken for a query is called, with the deadline of the node. -/
  call : ∀ c, .asked c ∈ run.events m → c.id ≠ home →
    ∃ next, run.attempt m = some ⟨m.node, next, some (m.node.findCall c target)⟩
  /-- The node itself is not called: it is answered from its table. -/
  own : ∀ c, .asked c ∈ run.events m → c.id = home →
    .answered c (m.node.neighbours target) ∈ run.events m ∧
      ∃ next, run.attempt m = some ⟨m.node, next, none⟩
  /-- Every reply, whatever fault it may be, is one signal, after which the worker goes on. -/
  reply : ∀ c reply, run.workers[m.worker]? = some (.awaiting c) → m.reply = some reply →
    Lookup.signals home (run.events m) = [.ofReply c reply] ∧
      ∃ t, run.attempt m = some t ∧ t.next.workers[m.worker]? = some .idle

namespace Reports

variable {home target : Id} {events : List (Event α)} {made : List (Call α)} {run : LookupRun α}

/-- A reply to a call is one signal, and the worker goes on. -/
theorem takes_reply (reports : Reports home target events made run) (m : Move α)
    (calm : m.fired = false) {c : Contact α} {reply : Reply α}
    (waiting : run.workers[m.worker]? = some (.awaiting c)) (come : m.reply = some reply) :
    Lookup.signals home (run.events m) = [.ofReply c reply] ∧
      ∃ t, run.attempt m = some t ∧ t.next.workers[m.worker]? = some .idle := by
  have inside := (List.getElem?_eq_some_iff.mp waiting).1
  have ended : run.events m = [.ended false c reply] := by
    simp only [LookupRun.events, waiting, come, calm]
  refine ⟨?_, run.receive m.node m.now m.fired m.worker c reply, ?_,
    List.getElem?_set_self inside⟩
  · rw [ended]
    exact signals_ended (reports.remote c (outstanding_of_awaiting waiting)) reply
  · simp only [attempt, turn, waiting, come]

/-- A turn that asks nobody does for its node what the books say if it takes in its signals. -/
theorem relays_of_unasked (reports : Reports home target events made run) (m : Move α)
    (calm : m.fired = false) (unasked : ∀ c, .asked c ∉ run.events m)
    (node : ∀ t, run.attempt m = some t → t.node =
      (Lookup.signals home (run.events m)).foldl (fun n signal => n.told m.now signal) m.node) :
    run.Relays home target m where
  node := node
  call := fun c among => absurd among (unasked c)
  own := fun c among => absurd among (unasked c)
  reply := fun _ _ => reports.takes_reply m calm

/-- The next turn of a run that is booked does for its node what the books say. -/
theorem relays (reports : Reports home target events made run) (m : Move α) (calm : m.fired = false)
    (same : m.node.id = home) : run.Relays home target m := by
  rcases run.attempt_cases m calm with ⟨stuck, none⟩ | ⟨converged, idle, none, stops⟩ |
    ⟨c, rest, -, own, idle, asked, answers⟩ | ⟨c, rest, -, other, idle, asked, calls⟩ |
    ⟨c, reply, waiting, come, ended, receives⟩
  · refine reports.relays_of_unasked m calm (fun c => none ▸ List.not_mem_nil) ?_
    rw [stuck]
    intro t made
    cases made
  · refine reports.relays_of_unasked m calm (fun c => none ▸ List.not_mem_nil) ?_
    rw [stops, none]
    rintro t ⟨⟩
    rfl
  · rw [same] at own
    refine ⟨?_, ?_, ?_, fun _ _ => reports.takes_reply m calm⟩
    · rw [answers, asked]
      rintro t ⟨⟩
      simp [Lookup.signals, Event.signals, own]
    · rw [asked]
      intro d among other
      obtain rfl : d = c := by simpa using among
      exact absurd own other
    · rw [asked, answers, ← reports.aimed]
      intro d among _
      obtain rfl : d = c := by simpa using among
      exact ⟨List.mem_cons_of_mem _ (List.mem_singleton.mpr rfl), _, rfl⟩
  · rw [same] at other
    refine ⟨?_, ?_, ?_, fun _ _ => reports.takes_reply m calm⟩
    · rw [calls, asked]
      rintro t ⟨⟩
      rfl
    · rw [asked, calls, ← reports.aimed]
      intro d among _
      obtain rfl : d = c := by simpa using among
      exact ⟨_, rfl⟩
    · rw [asked]
      intro d among own
      obtain rfl : d = c := by simpa using among
      exact absurd own other
  · refine reports.relays_of_unasked m calm (fun d among => ?_) ?_
    · rw [ended] at among
      exact Event.ended_ne_asked false c d reply (List.mem_singleton.mp among).symm
    · rw [(reports.takes_reply m calm waiting come).1, receives]
      rintro t ⟨⟩
      rfl

end Reports

/-- A lookup that its caller does not withdraw, at any moment, whatever the nodes asked reply and in
whatever order: each node asked is asked once, and called unless it is the node itself, which is
answered from its table; of every call there has been one signal unless it is outstanding, a message
if it was answered and a failure otherwise; as many failures are counted as are signalled and as
nodes are missing from the pool; and no fault becomes one of the lookup. -/
theorem play_signals (home target : Id) (width patience alpha : Nat) (seeds : List (Contact α))
    (moves : List (Move α)) (calm : ∀ m ∈ moves, m.fired = false ∧ m.node.id = home) :
    let events := ((ofSeeds target width patience alpha seeds).play moves).1
    let run := ((ofSeeds target width patience alpha seeds).play moves).2
    let made := (ofSeeds target width patience alpha seeds).calls moves
    let signals := Lookup.signals home events
    (Lookup.askedIds events).Nodup ∧
    run.lookup.queries = (Lookup.askedIds events).length ∧
    run.lookup.queries = made.length + (if home ∈ Lookup.askedIds events then 1 else 0) ∧
    (∀ call ∈ made, call.request = .find target ∧ call.callee.id ≠ home) ∧
    (made.map (·.callee.id)).Nodup ∧
    (made.map (·.callee)).Perm (signals.map (·.contact) ++ run.outstanding) ∧
    (run.isOver = true → run.outstanding = []) ∧
    run.lookup.failures = signals.countP (·.isFailure) ∧
    run.lookup.failures = (Lookup.known seeds events).dedup.countP
      (fun id => id ∉ run.lookup.pool.map (·.id)) ∧
    (Activity.lookup run).isFailed = false ∧
    ∀ m : Move α, m.fired = false → m.node.id = home → run.Relays home target m := by
  intro events run made signals
  have accounts : Accounts target width seeds events run :=
    Accounts.play target width patience alpha seeds moves
  have reports : Reports home target events made run :=
    (Reports.ofSeeds home target width patience alpha seeds).play moves calm
  have once := accounts.tracks.once
  have ids : made.map (·.callee.id) = (Lookup.askedIds events).filter (· ≠ home) := by
    rw [← Lookup.map_callees, ← reports.called, List.map_map]
    rfl
  have failures : Lookup.failedIds events = _ := Lookup.failedIds_eq_signals home events
  refine ⟨once, accounts.tracks.queries, ?_, fun call member => ⟨reports.requests call member, ?_⟩,
    ?_, ?_, fun finished => ?_, ?_, ?_, rfl, reports.relays⟩
  · rw [accounts.tracks.queries, Lookup.length_askedIds once, ← reports.called, List.length_map]
  · have listed : call.callee.id ∈ made.map (·.callee.id) := List.mem_map_of_mem member
    rw [ids] at listed
    simpa using List.of_mem_filter listed
  · rw [ids]
    exact once.filter _
  · rw [reports.called]
    exact reports.settled
  · refine List.filterMap_eq_nil_iff.mpr fun worker member => ?_
    have stopped := List.all_eq_true.mp finished worker member
    cases worker with
    | idle => rfl
    | awaiting c => cases stopped
    | stopped => rfl
  · rw [accounts.tracks.failures, failures, List.length_map, List.countP_eq_length_filter]
  · -- The identifiers that failed are the known ones that are missing from the pool.
    have ended : (Lookup.endedIds events).Nodup :=
      (accounts.pending.nodup once).of_append_left
    have distinct : (Lookup.failedIds events).Nodup :=
      ended.sublist (Lookup.failedIds_sublist events)
    have missing : (Lookup.failedIds events).Perm ((Lookup.known seeds events).dedup.filter
        fun id => id ∉ run.lookup.pool.map (·.id)) := by
      refine (List.perm_ext_iff_of_nodup distinct ((List.nodup_dedup _).filter _)).mpr fun id => ?_
      rw [List.mem_filter, List.mem_dedup, decide_eq_true_iff, accounts.tracks.pool.members id]
      constructor
      · intro failed
        have asked := accounts.tracks.failed_asked id failed
        exact ⟨accounts.tracks.asked_known id asked, fun pooled => pooled.2 failed⟩
      · rintro ⟨known, absent⟩
        by_contra kept
        exact absent ⟨known, kept⟩
    rw [accounts.tracks.failures, missing.length_eq, List.countP_eq_length_filter]

/-- A node that stands in its own table. -/
def herald : Node Unit :=
  let n := Node.bare ⟨⟨1⟩, ()⟩ {}
  (n.put n.self).2

/-- Two workers ask the node itself and two others, one of which reports that the request was
withdrawn although nobody has done so. -/
def heraldMoves : List (Move Unit) :=
  let move (worker : Nat) (reply : Option (Reply Unit)) : Move Unit :=
    ⟨herald, 0, false, worker, reply⟩
  [move 0 none, move 0 none, move 1 none, move 1 (some (.ok [])), move 0 (some (.error .cancelled)),
    move 0 none, move 1 none]

/-- The contacts that this lookup starts from. -/
def heraldSeeds : List (Contact Unit) := [⟨⟨1⟩, ()⟩, ⟨⟨2⟩, ()⟩, ⟨⟨3⟩, ()⟩]

/-- Both calls have ended, and the books agree. -/
theorem play_signals_herald :
    (∀ m ∈ heraldMoves, m.fired = false ∧ m.node.id = ⟨1⟩) ∧
    let start := ofSeeds .zero 3 6 2 heraldSeeds
    let run := (start.play heraldMoves).2
    run.isOver = true ∧
    Lookup.signals ⟨1⟩ (start.play heraldMoves).1 =
      [.message ⟨⟨3⟩, ()⟩, .failure ⟨⟨2⟩, ()⟩] ∧
    run.lookup.failures = 1 ∧ run.lookup.queries = (start.calls heraldMoves).length + 1 ∧
    ((start.calls heraldMoves).map (·.callee)).Perm [⟨⟨3⟩, ()⟩, ⟨⟨2⟩, ()⟩] := by
  have calm : ∀ m ∈ heraldMoves, m.fired = false ∧ m.node.id = ⟨1⟩ := by decide
  obtain ⟨-, -, queries, -, -, calls, ended, failures, -⟩ :=
    play_signals ⟨1⟩ .zero 3 6 2 heraldSeeds heraldMoves calm
  have finished : ((ofSeeds .zero 3 6 2 heraldSeeds).play heraldMoves).2.isOver = true := by cbv
  have own : (⟨1⟩ : Id) ∈
      Lookup.askedIds ((ofSeeds .zero 3 6 2 heraldSeeds).play heraldMoves).1 := by decide
  have signals : Lookup.signals ⟨1⟩ ((ofSeeds .zero 3 6 2 heraldSeeds).play heraldMoves).1 =
      [.message ⟨⟨3⟩, ()⟩, .failure ⟨⟨2⟩, ()⟩] := by cbv
  rw [if_pos own] at queries
  rw [signals] at failures calls
  rw [ended finished] at calls
  exact ⟨calm, finished, signals, failures, queries, calls⟩

end LookupRun

end Overlay
