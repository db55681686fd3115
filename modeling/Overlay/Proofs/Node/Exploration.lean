import Overlay.Proofs.Nearest
import Overlay.Proofs.Node.Home
import Overlay.Proofs.Walk.Run
import Overlay.Proofs.Withdrawal

/-!
# A node that explores the network

A node may carry out any number of walks at a time, along with whatever else it does, and all of
them share the nodes that it leaves alone. Each walk is a run of its own: its turns are the moves
of that run, made with the node as the others have left it. Its queries of other nodes are the
calls that its errand makes and the replies that come to them; the node itself is asked without
a call.
-/
namespace Overlay

variable {α : Type}

/-! ## Queries and calls -/

namespace Pull

/-- The end of the query that a walk waits for, if the reply has come. -/
def came (p : Pull α) (m : Move α) : List (Lookup.Event α) :=
  match p.walk.awaiting, m.reply with
  | some c, some reply => [.ended m.fired c reply]
  | _, _ => []

/-- A walk without a turn stays as it is. -/
theorem move_of_none {p : Pull α} {m : Move α}
    (idle : p.turn m.node m.now m.fired m.reply = none) : p.move m = p := by
  rw [move, idle]

/-- A walk with a turn takes it. -/
theorem move_of_some {p : Pull α} {m : Move α} {t : Turn α (Pull α)}
    (made : p.turn m.node m.now m.fired m.reply = some t) : p.move m = t.next := by
  rw [move, made]

/-- A search makes a call if it asks another node. -/
theorem abroad_searchEvents (w : Walk α) (n : Node α) (now : Nat) :
    Lookup.abroad n.id (Walk.queries (w.searchEvents n now)) =
      if w.roundLeft = 0 then []
      else (w.ask n now false).call.toList.map fun call => .asked call.callee := by
  have passed := Walk.queries_passed (α := α) []
  simp only [List.nil_append] at passed
  have pruned := w.prune_fst now n.cool
  unfold Walk.searchEvents Walk.ask
  by_cases closed : w.roundLeft = 0
  · simp only [if_pos closed]
    split
    · rfl
    · rw [passed]
      rfl
  · simp only [if_neg closed, ← pruned]
    rcases Walk.prune now w.asked n.cool w.frontier with ⟨queue, cool⟩
    cases queue with
    | nil =>
      simp only [passed]
      rfl
    | cons c rest =>
      by_cases own : c.id = n.id
      · simp [own, Walk.queries, Walk.Event.queries, Lookup.abroad, Lookup.Event.subject]
      · simp [own, Walk.queries, Walk.Event.queries, Lookup.abroad, Lookup.Event.subject,
          Node.findCall]

/-- The queries of other nodes in a move: the one that ends and the one that is made. -/
theorem abroad_events (p : Pull α) (m : Move α)
    (away : ∀ c, p.walk.awaiting = some c → c.id ≠ m.node.id) :
    Lookup.abroad m.node.id (Walk.queries (p.events m)) =
      ((p.turn m.node m.now m.fired m.reply).map fun t =>
        p.came m ++ t.call.toList.map fun call => .asked call.callee).getD [] := by
  unfold events turn came
  split
  · rfl
  · cases waits : p.walk.awaiting with
    | some c =>
      cases m.reply with
      | none => rfl
      | some reply =>
        simp [Walk.queries, Walk.Event.queries, Lookup.abroad, Lookup.Event.subject_ended,
          away c waits, Walk.receive]
    | none =>
      dsimp only
      cases p.walk.ready with
      | cons c later => rfl
      | nil =>
        dsimp only
        cases stops : p.walk.done || m.fired with
        | true => rfl
        | false =>
          have kept : m.fired = false := (Bool.or_eq_false_iff.mp stops).2
          rw [kept, if_neg Bool.false_ne_true, abroad_searchEvents]
          by_cases closed : p.walk.roundLeft = 0
          · simp [closed]
          · simp [closed]

end Pull

namespace NodeRun

/-- The turn that a move gives to the walk of an errand. -/
def walkTurn (r : NodeRun α) (index : Nat) (e : Errand α) : Move α → Option (Pull.Move α)
  | .turn other line reply =>
    if other = index ∧ line = 0 then
      some ⟨r.node, r.now, e.withdrawn, (e.calls 0).bind fun _ => reply⟩
    else none
  | _ => none

/-- What a move brings about in the walk of an errand. -/
def walkEvents (r : NodeRun α) (index : Nat) (m : Move α) : List (Walk.Event α) :=
  match r.errands[index]? with
  | some e =>
    match e.activity, r.walkTurn index e m with
    | .pull p, some turn => p.events turn
    | _, _ => []
  | none => []

/-- What some moves bring about in the walk of an errand. -/
def walkHistory (r : NodeRun α) (index : Nat) : List (Move α) → List (Walk.Event α)
  | [] => []
  | m :: moves => r.walkEvents index m ++ (r.move m).2.walkHistory index moves

/-- What an event says of the queries that an errand makes of other nodes. -/
def Event.dialogue (index : Nat) : Event α → List (Lookup.Event α)
  | .called (.errand other _) call => if other = index then [.asked call.callee] else []
  | .returned (.errand other _) call reply fired =>
    if other = index then [.ended fired call.callee reply] else []
  | _ => []

/-- What some events say of the queries that an errand makes of other nodes. -/
def dialogue (index : Nat) (events : List (Event α)) : List (Lookup.Event α) :=
  events.flatMap (Event.dialogue index)

/-- Whoever the node waits for is another node. -/
def Away (r : NodeRun α) : Prop :=
  ∀ e ∈ r.errands, ∀ line call, e.calls line = some call → call.callee.id ≠ r.node.id

section Moves

variable {r : NodeRun α} {index : Nat} {e : Errand α} {p : Pull α}

/-- What is said of earlier events comes first. -/
theorem dialogue_append (index : Nat) (events later : List (Event α)) :
    dialogue index (events ++ later) = dialogue index events ++ dialogue index later :=
  List.flatMap_append ..

/-- The calls of a line are queries of its errand that begin. -/
theorem dialogue_called (index line : Nat) (call : Option (Call α)) :
    dialogue index (call.toList.map (.called (.errand index line))) =
      call.toList.map fun call => .asked call.callee := by
  cases call with
  | none => rfl
  | some call => simp [dialogue, Event.dialogue]

/-- What an errand has nothing to do with says nothing of its queries. -/
theorem dialogue_eq_nil {events : List (Event α)} (silent : journal index events = []) :
    dialogue index events = [] := by
  refine List.flatMap_eq_nil_iff.mpr fun event member => ?_
  have foreign : event.errand? ≠ some index := by
    simpa using List.filter_eq_nil_iff.mp silent event member
  unfold Event.dialogue
  split
  · exact if_neg fun same => foreign (congrArg some same)
  · exact if_neg fun same => foreign (congrArg some same)
  · rfl

/-- Every move leaves the node waiting for others only. -/
theorem AtHome.away_move (atHome : r.AtHome) (away : r.Away) (m : Move α) :
    (r.move m).2.Away := by
  have id : (r.move m).2.node.id = r.node.id := congrArg Contact.id (atHome.inStep.move m).self
  intro after member line call waits
  rw [id]
  obtain ⟨index, there⟩ := List.getElem?_of_mem member
  cases here : r.errands[index]? with
  | none =>
    obtain ⟨wish, rfl⟩ := errand_new here there
    cases waits
  | some e =>
    have listed := List.mem_of_getElem? here
    obtain ⟨last, same, becomes⟩ := errand_move here m
    obtain rfl := Option.some.inj (same.symm.trans there)
    cases becomes with
    | rest => exact away e listed line call waits
    | withdrawn => exact away e listed line call waits
    | proceeded => exact away e listed line call waits
    | turned _ takes =>
      dsimp only at waits
      rw [Function.update_apply] at waits
      split at waits
      · exact atHome.takes_others takes waits
      · exact away e listed line call waits

/-- A walk that has made a call waits for the node called. -/
theorem InStep.awaiting_of_call (inStep : r.InStep) (here : r.errands[index]? = some e)
    (walks : e.activity = .pull p) :
    p.walk.awaiting = (e.calls 0).map Call.callee := by
  have kept := inStep.errands e (List.mem_of_getElem? here)
  have waits : p.walk.question = (e.calls 0).map Call.question := by
    have lines := congrFun kept.lines 0
    rw [walks, Activity.awaits, alone_zero] at lines
    exact lines
  have callee := congrArg (Option.map Prod.fst) waits
  rw [Walk.question, Option.map_map, Option.map_map] at callee
  have same : (Prod.fst ∘ fun c : Contact α => (c, Request.find p.walk.target)) = id := rfl
  rw [same, Option.map_id] at callee
  exact callee

/-- A turn of the line of a walk is a turn of the walk, with the reply that is due. -/
theorem InStep.turn_walk (inStep : r.InStep) (here : r.errands[index]? = some e)
    (walks : e.activity = .pull p) (reply : Option (Reply α)) :
    let turn : Pull.Move α := ⟨r.node, r.now, e.withdrawn, (e.calls 0).bind fun _ => reply⟩
    (p.turn turn.node turn.now turn.fired turn.reply = none ∧ r.turn index 0 reply = ([], r)) ∨
      ∃ t before, p.turn turn.node turn.now turn.fired turn.reply = some t ∧
        r.turn index 0 reply = (before ++ t.call.toList.map (.called (.errand index 0)),
          r.turned index 0 e ⟨t.node, .pull t.next, t.call⟩) ∧
        dialogue index before = p.came turn := by
  intro turn
  have waits := inStep.awaiting_of_call here walks
  have inside : 0 < e.activity.lines := by
    rw [walks]
    exact Nat.one_pos
  rcases turn_of here 0 reply with ⟨idle, stuck⟩ | ⟨t, -, -, made, does⟩
  · refine .inl ⟨?_, idle⟩
    by_cases answered : (e.due 0 reply).isSome = (e.calls 0).isSome
    · have none := stuck inside answered
      rw [walks] at none
      exact Option.map_eq_none_iff.mp none
    · -- Only a walk that waits and gets no reply has none to take.
      have missing : turn.reply = none := by
        cases reply with
        | none => exact Option.bind_fun_none (e.calls 0)
        | some came => exact absurd (e.isSome_due 0 fun _ => rfl) answered
      cases called : e.calls 0 with
      | none => simp [Errand.due, called] at answered
      | some call =>
        rw [called, Option.map_some] at waits
        simp only [missing, Pull.turn, waits, ite_self]
  · rw [walks] at made
    obtain ⟨inner, moved, rfl⟩ := Option.map_eq_some_iff.mp made
    refine .inr ⟨inner, replied index 0 e reply, moved, does, ?_⟩
    rw [Pull.came, waits]
    unfold replied
    cases called : e.calls 0 with
    | none => rfl
    | some call =>
      cases reply with
      | none => simp [dialogue, turn, called]
      | some came => simp [dialogue, Event.dialogue, turn, called]

/-- A walk gets its turn with the node and the time as they are. -/
theorem of_walkTurn {m : Move α} {turn : Pull.Move α} (given : r.walkTurn index e m = some turn) :
    turn.node = r.node ∧ turn.now = r.now := by
  cases m with
  | turn other line reply =>
    rw [walkTurn] at given
    split at given
    · obtain rfl := Option.some.inj given
      exact ⟨rfl, rfl⟩
    · cases given
  | _ => cases given

/-- What a move brings about in a walk, if it gives the walk a turn. -/
theorem walkEvents_eq (here : r.errands[index]? = some e) (walks : e.activity = .pull p)
    (m : Move α) : r.walkEvents index m = (r.walkTurn index e m).elim [] p.events := by
  simp only [walkEvents, here, walks]
  cases r.walkTurn index e m <;> rfl

/-- In a move, a walk takes the turn that it is given, and its queries of other nodes are the calls
and replies of its errand. -/
theorem AtHome.move_walk (atHome : r.AtHome) (away : r.Away) (here : r.errands[index]? = some e)
    (walks : e.activity = .pull p) (m : Move α) :
    ∃ after, (r.move m).2.errands[index]? = some after ∧
      after.activity = .pull ((r.walkTurn index e m).elim p p.move) ∧
      dialogue index (r.move m).1 =
        Lookup.abroad r.node.id (Walk.queries (r.walkEvents index m)) := by
  have inside : index < r.errands.length := (List.getElem?_eq_some_iff.mp here).1
  rw [walkEvents_eq here walks m]
  by_cases own : ∃ reply, m = .turn index 0 reply
  · obtain ⟨reply, rfl⟩ := own
    let turn : Pull.Move α := ⟨r.node, r.now, e.withdrawn, (e.calls 0).bind fun _ => reply⟩
    have given : r.walkTurn index e (.turn index 0 reply) = some turn := if_pos ⟨rfl, rfl⟩
    have others : ∀ c, p.walk.awaiting = some c → c.id ≠ turn.node.id := by
      intro c waits
      rw [atHome.inStep.awaiting_of_call here walks] at waits
      obtain ⟨call, made, rfl⟩ := Option.map_eq_some_iff.mp waits
      exact away e (List.mem_of_getElem? here) 0 call made
    have queries := p.abroad_events turn others
    rw [given, NodeRun.move, Option.elim_some, Option.elim_some]
    rcases atHome.inStep.turn_walk here walks reply with ⟨idle, stays⟩ |
      ⟨t, before, made, does, told⟩
    · rw [idle] at queries
      rw [stays, Pull.move_of_none idle, queries]
      exact ⟨e, here, walks, rfl⟩
    · rw [made] at queries
      rw [does, Pull.move_of_some made, dialogue_append, told, dialogue_called, queries]
      exact ⟨_, List.getElem?_set_self inside, rfl, rfl⟩
  · have none : r.walkTurn index e m = none := by
      cases m with
      | turn other line reply =>
        refine if_neg fun same => own ⟨reply, ?_⟩
        rw [same.1, same.2]
      | _ => rfl
    have silent : dialogue index (r.move m).1 = [] := by
      by_cases mine : ∃ line reply, m = .turn index line reply
      · obtain ⟨line, reply, rfl⟩ := mine
        rcases r.turn_cases index line reply with same | ⟨x, t, _, takes, -, -⟩
        · rw [NodeRun.move, same]
          rfl
        · obtain rfl := Option.some.inj (takes.here.symm.trans here)
          have first := takes.inside
          rw [walks, Activity.lines, Nat.lt_one_iff] at first
          exact absurd ⟨reply, first ▸ rfl⟩ own
      · exact dialogue_eq_nil (journal_move m fun line reply same => mine ⟨line, reply, same⟩)
    rw [none, silent]
    obtain ⟨after, there, becomes⟩ := errand_move here m
    refine ⟨after, there, ?_, rfl⟩
    cases becomes with
    | rest => exact walks
    | withdrawn => exact walks
    | turned same takes =>
      have first := takes.inside
      rw [walks, Activity.lines, Nat.lt_one_iff] at first
      exact absurd ⟨_, first ▸ same⟩ own
    | proceeded _ made =>
      rw [walks] at made
      cases made

/-- Whatever is played, the node waits for others only. -/
theorem AtHome.away_play (atHome : r.AtHome) (away : r.Away) (moves : List (Move α)) :
    (r.play moves).2.Away := by
  induction moves generalizing r with
  | nil => exact away
  | cons m moves further => exact further (atHome.move m) (atHome.away_move away m)

/-- Whatever is played, a walk takes its course through what happens to it, and its queries of
other nodes are the calls and replies of its errand. -/
theorem AtHome.play_walk (atHome : r.AtHome) (away : r.Away) (here : r.errands[index]? = some e)
    (walks : e.activity = .pull p) {start : Pull α} {past : List (Walk.Event α)}
    (course : Pull.Course r.node.id start past p) (moves : List (Move α)) :
    ∃ after last, (r.play moves).2.errands[index]? = some after ∧ after.activity = .pull last ∧
      Pull.Course r.node.id start (past ++ r.walkHistory index moves) last ∧
      dialogue index (r.play moves).1 =
        Lookup.abroad r.node.id (Walk.queries (r.walkHistory index moves)) := by
  induction moves generalizing r e p past with
  | nil =>
    rw [walkHistory, List.append_nil]
    exact ⟨e, p, here, walks, course, rfl⟩
  | cons m moves further =>
    have id : (r.move m).2.node.id = r.node.id :=
      congrArg Contact.id (atHome.inStep.move m).self
    obtain ⟨next, there, moved, told⟩ := atHome.move_walk away here walks m
    have onward : Pull.Course r.node.id start (past ++ r.walkEvents index m)
        ((r.walkTurn index e m).elim p p.move) := by
      rw [walkEvents_eq here walks m]
      cases given : r.walkTurn index e m with
      | none =>
        rw [Option.elim_none, Option.elim_none, List.append_nil]
        exact course
      | some turn =>
        have own : turn.node = r.node := (of_walkTurn given).1
        rw [← own] at course ⊢
        exact course.move turn
    rw [← id] at onward
    obtain ⟨after, last, found, lasts, arrives, said⟩ :=
      further (atHome.move m) (atHome.away_move away m) there moved onward
    rw [id] at arrives said
    refine ⟨after, last, found, lasts, ?_, ?_⟩
    · rw [walkHistory, ← List.append_assoc]
      exact arrives
    · rw [NodeRun.play, dialogue_append, told, said, walkHistory, Walk.queries_append]
      exact (List.filter_append ..).symm

/-- A move that gives a walk no turn brings nothing about in it. -/
theorem walkEvents_eq_nil {m : Move α} (other : ∀ line reply, m ≠ .turn index line reply) :
    r.walkEvents index m = [] := by
  have none (e : Errand α) : r.walkTurn index e m = none := by
    cases m with
    | turn there line reply =>
      refine if_neg fun same => other line reply ?_
      rw [same.1]
    | _ => rfl
  unfold walkEvents
  split
  · next e _ =>
    rw [none e]
    split
    · next given => cases given
    · rfl
  · rfl

/-- Nothing happens in a walk that gets no turn. -/
theorem walkHistory_eq_nil (moves : List (Move α))
    (others : ∀ m ∈ moves, ∀ line reply, m ≠ .turn index line reply) :
    r.walkHistory index moves = [] := by
  induction moves generalizing r with
  | nil => rfl
  | cons m moves further =>
    rw [walkHistory, walkEvents_eq_nil (others m List.mem_cons_self),
      further fun later member => others later (List.mem_cons_of_mem m member)]
    rfl

/-- The seeds of a walk are different. -/
theorem AtHome.distinct_seeds (atHome : r.AtHome) (target : Id) (count : Nat) :
    ((r.node.seeds target count).map (·.id)).Nodup := by
  have table : r.node.table.Sound := atHome.sound.table
  exact (table.closest_ascending target count none false).distinct

/-- A walk that the node is told to take accounts for what happens to it, at any moment; and its
queries of other nodes are the calls and replies of its errand. -/
theorem AtHome.play_discover (atHome : r.AtHome) (away : r.Away) (target : Id)
    (count : Option Nat) (moves : List (Move α)) :
    let begun := (r.move (.wish (.discover target count))).2
    let seeds := r.node.seeds target r.node.config.k
    let history := begun.walkHistory r.errands.length moves
    begun.AtHome ∧ begun.node = r.node ∧
    (∃ e p, (begun.play moves).2.errands[r.errands.length]? = some e ∧ e.activity = .pull p ∧
      p.walk.Explored target r.node.config.walk seeds history ∧
      p.Harvested r.node.id seeds count history) ∧
    dialogue r.errands.length (begun.play moves).1 =
      Lookup.abroad r.node.id (Walk.queries history) := by
  intro begun seeds history
  have there : begun.errands[r.errands.length]? =
      some ⟨.pull (.start (.start r.node target) count), false, fun _ => none⟩ := by
    exact List.getElem?_concat_length
  have home : begun.AtHome := atHome.move _
  obtain ⟨after, last, found, lasts, course, told⟩ :=
    home.play_walk (atHome.away_move away _) there rfl .refl moves
  rw [List.nil_append] at course
  have explored := Walk.Explored.start r.node target
    (atHome.distinct_seeds target r.node.config.k)
  have harvested := Pull.Harvested.start r.node.id r.node target seeds count
  exact ⟨home, rfl, ⟨after, last, found, lasts, course.accounts explored harvested⟩, told⟩

end Moves

/-! ## Any walk of any node -/

/-- Whatever is played, the node is at home, it waits for others only, and is what it was created
as. -/
theorem play_away {self : Contact α} {boot : List (Contact α)} {config : Config} {n : Node α}
    (created : Node.create self boot config = .ok n) (moves : List (Move α)) :
    let r := ((start n).play moves).2
    r.AtHome ∧ r.Away ∧ r.node.id = self.id ∧ r.node.config = config := by
  intro r
  obtain ⟨fresh, id⟩ := start_atHome created
  have inStep := start_inStep created
  have same : n.config = config := by
    rw [(Node.create_eq created).2]
    rfl
  refine ⟨(fresh.play moves).1, fresh.away_play nofun moves, ?_, ?_⟩
  · exact (congrArg Contact.id (inStep.play moves).2.1).trans id
  · exact (inStep.config_play moves).trans same

/-- A walk around any target, begun at any moment and carried out along with any other walks and
whatever else the node does: no node is asked twice, and no more than the rounds allow; every node
asked is closest to the target among the seeds and the nodes received that have been neither asked
nor passed over; nobody is asked who is cooling down at that moment, and nobody is passed over who
is not. The queries of other nodes are the calls that the errand makes and the replies to them. -/
theorem play_explored {self : Contact α} {boot : List (Contact α)} {config : Config} {n : Node α}
    (created : Node.create self boot config = .ok n) (before : List (Move α)) (target : Id)
    (count : Option Nat) (moves : List (Move α)) :
    let r := ((start n).play before).2
    let index := r.errands.length
    let seeds := r.node.seeds target config.k
    let begun := (r.move (.wish (.discover target count))).2
    let history := begun.walkHistory index moves
    (Walk.askedIds history).Nodup ∧
    (Walk.askedIds history).length ≤ config.walk.maxRounds * config.walk.roundWidth ∧
    Walk.AtQueries (Walk.IsNext target seeds) history ∧
    (∀ early m late, moves = early ++ m :: late →
      let now := (begun.play early).2
      ∀ c, (.query (.asked c) ∈ now.walkEvents index m →
          (now.node.cool.isCooling now.now c.id).1 = false) ∧
        (.passed c ∈ now.walkEvents index m →
          (now.node.cool.isCooling now.now c.id).1 = true)) ∧
    dialogue index (begun.play moves).1 = Lookup.abroad self.id (Walk.queries history) := by
  intro r index seeds begun history
  obtain ⟨atHome, away, id, same⟩ := play_away created before
  obtain ⟨-, -, ⟨e, p, -, -, explored, -⟩, told⟩ := atHome.play_discover away target count moves
  rw [same] at explored
  rw [id] at told
  refine ⟨explored.knows.once, ?_, explored.ordered, ?_, told⟩
  · have begun := Nat.mul_le_mul_right config.walk.roundWidth explored.begun
    exact Nat.le_trans (Nat.le_add_right ..) (Nat.le_trans explored.budget begun)
  · intro early m late _ now c
    obtain ⟨-, -, ⟨e, p, here, walks, explored, -⟩, -⟩ :=
      atHome.play_discover away target count early
    rw [walkEvents_eq here walks m]
    cases given : now.walkTurn index e m with
    | none => exact ⟨nofun, nofun⟩
    | some turn =>
      obtain ⟨node, time⟩ := of_walkTurn given
      have cool := explored.cool turn c
      rw [node, time] at cool
      exact cool

/-- A node that has just been created. -/
def ranger : Node Unit :=
  let n := Node.bare ⟨⟨1⟩, ()⟩ { k := 2 }
  { n with monitor := { n.monitor with table := (n.table.add n.self).2 } }

/-- The node hears of another one and asks it in a first walk, without an answer. -/
def strays : List (Move Unit) :=
  [.hear ⟨⟨2⟩, ()⟩, .wish (.discover ⟨2⟩ none), .turn 0 0 none, .turn 0 0 none,
    .turn 0 0 (some (.error .timeout))]

/-- The first walk and a second one take turns. -/
def roams : List (Move Unit) := [.turn 1 0 none, .turn 0 0 none, .turn 1 0 none, .turn 0 0 none]

/-- The second walk passes over the node that the first one has found failing, though it is closest
to the target, and asks the node itself. -/
theorem play_explored_ranger :
    Node.create ⟨⟨1⟩, ()⟩ [] { k := 2 } = .ok ranger ∧
    (let r := ((start ranger).play strays).2
    let begun := (r.move (.wish (.discover ⟨2⟩ none))).2
    let history := begun.walkHistory 1 roams
    r.errands.length = 1 ∧ Walk.passedIds history = [⟨2⟩] ∧ Walk.askedIds history = [⟨1⟩] ∧
    Walk.AtQueries (Walk.IsNext ⟨2⟩ (r.node.seeds ⟨2⟩ 2)) history ∧
    dialogue 1 (begun.play roams).1 = []) := by
  have created : Node.create ⟨⟨1⟩, ()⟩ [] { k := 2 } = .ok ranger := rfl
  have second : ((start ranger).play strays).2.errands.length = 1 := by cbv
  obtain ⟨-, -, ordered, -, told⟩ := play_explored created strays ⟨2⟩ none roams
  dsimp only at ordered told
  rw [second] at ordered told
  refine ⟨created, second, by cbv, by cbv, ordered, told.trans ?_⟩
  cbv

/-- A walk around any target, begun at any moment and carried out along with whatever else the node
does: the nodes handed out are the first of the new nodes received, in order, and all of them when
the walk has ended, so that none is lost and none comes twice. The queries end in the order in which
they are made; none is made before the walk gets a turn, while a node is put by, or when no more are
wanted. -/
theorem play_harvested {self : Contact α} {boot : List (Contact α)} {config : Config} {n : Node α}
    (created : Node.create self boot config = .ok n) (before : List (Move α)) (target : Id)
    (count : Option Nat) (moves : List (Move α)) :
    let r := ((start n).play before).2
    let index := r.errands.length
    let seeds := r.node.seeds target config.k
    let begun := (r.move (.wish (.discover target count))).2
    let history := begun.walkHistory index moves
    let novel := Walk.novel self.id seeds history
    (∃ e p, (begun.play moves).2.errands[index]? = some e ∧ e.activity = .pull p ∧
      p.nodes = Walk.handedOut history ∧ p.nodes <+: novel ∧
      (p.ended = true → p.nodes = novel) ∧
      (p.nodes.map (·.id)).Nodup ∧
      ∀ c ∈ Walk.received history, c.id ≠ self.id → c.id ∉ seeds.map (·.id) →
        p.ended = true → c.id ∈ p.nodes.map (·.id)) ∧
    Lookup.endedIds (Walk.queries history) <+: Walk.askedIds history ∧
    Walk.AtQueries (Walk.IsLazy self.id seeds count) history ∧
    ((∀ m ∈ moves, ∀ line reply, m ≠ .turn index line reply) → history = []) ∧
    dialogue index (begun.play moves).1 = Lookup.abroad self.id (Walk.queries history) := by
  intro r index seeds begun history novel
  obtain ⟨atHome, away, id, same⟩ := play_away created before
  obtain ⟨-, -, ⟨e, p, here, walks, explored, harvested⟩, told⟩ :=
    atHome.play_discover away target count moves
  rw [same, id] at harvested
  rw [same] at explored
  rw [id] at told
  have front : p.nodes <+: novel := ⟨p.walk.ready, harvested.whole⟩
  have whole (ended : p.ended = true) : p.nodes = novel := by
    have all := harvested.whole
    rw [harvested.tidy ended, List.append_nil] at all
    exact all
  have once : (novel.map (·.id)).Nodup := Contact.nodup_firsts _ _
  refine ⟨⟨e, p, here, walks, harvested.given.symm, front, whole,
    once.sublist (front.sublist.map _), ?_⟩, ?_, harvested.lazy, walkHistory_eq_nil moves, told⟩
  · intro c received other unseeded ended
    rw [whole ended]
    refine (Contact.mem_map_firsts_iff _ _ c.id).mpr ⟨List.mem_map_of_mem received, ?_⟩
    rw [List.mem_cons, not_or]
    exact ⟨other, unseeded⟩
  · rw [explored.inTurn]
    exact List.prefix_append ..

/-- A node that has just been created, whose walks make one query. -/
def scout : Node Unit :=
  let n := Node.bare ⟨⟨1⟩, ()⟩ { k := 2, walk := { maxRounds := 1, roundWidth := 1 } }
  { n with monitor := { n.monitor with table := (n.table.add n.self).2 } }

/-- The walk asks the other node, which names two new nodes, one of them twice, and the node
itself. It hands them out and ends. -/
def reports : List (Move Unit) :=
  [.turn 0 0 none, .turn 0 0 none,
    .turn 0 0 (some (.ok [⟨⟨3⟩, ()⟩, ⟨⟨1⟩, ()⟩, ⟨⟨3⟩, ()⟩, ⟨⟨4⟩, ()⟩])), .turn 0 0 none,
    .turn 0 0 none, .turn 0 0 none, .turn 0 0 none]

/-- The walk has handed out both new nodes once, in order. -/
theorem play_harvested_scout :
    Node.create ⟨⟨1⟩, ()⟩ [] { k := 2, walk := { maxRounds := 1, roundWidth := 1 } } = .ok scout ∧
    (let r := ((start scout).play [.hear ⟨⟨2⟩, ()⟩]).2
    let begun := (r.move (.wish (.discover ⟨2⟩ none))).2
    ∃ e p, (begun.play reports).2.errands[0]? = some e ∧ e.activity = .pull p ∧ p.ended = true ∧
      p.nodes = Walk.novel ⟨1⟩ (r.node.seeds ⟨2⟩ 2) (begun.walkHistory 0 reports) ∧
      p.nodes = [⟨⟨3⟩, ()⟩, ⟨⟨4⟩, ()⟩]) := by
  have created : Node.create ⟨⟨1⟩, ()⟩ []
      { k := 2, walk := { maxRounds := 1, roundWidth := 1 } } = .ok scout := rfl
  obtain ⟨⟨e, p, here, walks, -, -, whole, -⟩, -⟩ :=
    play_harvested created [.hear ⟨⟨2⟩, ()⟩] ⟨2⟩ none reports
  have finished : ((((start scout).play [.hear ⟨⟨2⟩, ()⟩]).2.move
      (.wish (.discover ⟨2⟩ none))).2.play reports).2.errands[0]?.bind (fun e =>
        e.activity.pull?.map fun p => (p.ended, p.nodes)) =
          some (true, [⟨⟨3⟩, ()⟩, ⟨⟨4⟩, ()⟩]) := by cbv
  have first : ((start scout).play [.hear ⟨⟨2⟩, ()⟩]).2.errands.length = 0 := by cbv
  rw [first] at here whole
  rw [here, Option.bind_some, walks, Activity.pull?, Option.map_some, Option.some.injEq,
    Prod.mk.injEq] at finished
  exact ⟨created, e, p, here, walks, finished.1, whole finished.1, finished.2⟩

end NodeRun

end Overlay
