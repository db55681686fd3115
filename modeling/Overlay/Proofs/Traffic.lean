import Mathlib.Data.List.Induction
import Overlay.Proofs.World

/-!
# The traffic of a simulated network

Nodes are started, stop running, are taken offline and brought back; calls are made, go on, and are
given up by their callers; time passes, and nodes do work of their own: all of it in any order. A
call that is delivered is one message to the node that was registered for the callee when the call
was made, and a search is answered from the table that this message has left. A call that could not
be delivered when it was made is refused. Refused and abandoned calls are no messages, and the two
counters of the network count the delivered and the refused calls. So the nodes are what their
messages and their own work have made of them, and nothing else.
-/
namespace Overlay

namespace World

/-- The nodes, in order of their stations. -/
def nodes (w : World) : List (Node String) := w.stations.toList.map (·.node)

/-- The routing tables, in order of their stations. -/
def tables (w : World) : List (Table String) := w.nodes.map (·.table)

end World

namespace Traffic

/-- Something that happens to a node. -/
inductive Event where
  /-- A node is started, at the next station. -/
  | started (n : Node String)
  /-- The node of a station is told, at this time, of the message that a call to it is. -/
  | message (number call time : Nat) (sender : Peer)
  /-- The node of a station does something of its own. -/
  | work (number : Nat) (change : Node String → Node String)
  /-- The probes of a station end for good. -/
  | closed (number : Nat)

/-- The nodes after an event. -/
def Event.apply (nodes : List (Node String)) : Event → List (Node String)
  | started n => nodes ++ [n]
  | message number _ time sender => nodes.modify number fun n => (n.heard time sender).2
  | work number change => nodes.modify number change
  | closed number => nodes.modify number .close

/-- The nodes after some events, the first of the list first. -/
def replay (nodes : List (Node String)) (events : List Event) : List (Node String) :=
  events.foldl Event.apply nodes

/-- The event is the message that a call is. -/
def Event.isMessage (call : Nat) : Event → Bool
  | message _ other _ _ => other == call
  | _ => false

/-- A station that does not run has its probes ended. -/
def closing (w : World) (number : Nat) : List Event :=
  if w.runs number then [] else [.closed number]

/-- What a node answers to a request. -/
def answer (n : Node String) : Request → List Peer
  | .ping => []
  | .find target => n.neighbours target

/-- A call that was made on the network. -/
structure Dispatch where
  /-- Number of moves before it was made. -/
  made : Nat
  /-- Who made it. -/
  caller : Peer
  /-- The call. -/
  call : Call String
  /-- Its request in flight. -/
  flight : Flight
  /-- What has come of it, if it has ended. -/
  reply : Option (Reply String)

/-- A reply that means that the call was delivered. -/
def delivers : Reply String → Bool
  | .ok _ => true
  | .error _ => false

/-- A reply that means that the callee could not be reached. -/
def refuses : Reply String → Bool
  | .error (.unreachable _) => true
  | _ => false

namespace Dispatch

/-- The call has been delivered. -/
def delivered (d : Dispatch) : Bool := d.reply.any delivers

/-- The call has been refused. -/
def refused (d : Dispatch) : Bool := d.reply.any refuses

/-- The call is on its way to a station. -/
def boundFor (number : Nat) (d : Dispatch) : Bool :=
  match d.reply, d.flight.landing with
  | none, .station other => other == number
  | _, _ => false

/-- What happens to nodes when the call of an index ends now with a reply, in a world `w`. -/
def events (d : Dispatch) (index now : Nat) (reply : Reply String) (w : World) : List Event :=
  match d.flight.landing with
  | .reply _ => []
  | .station number =>
    (if delivers reply then [.message number index now d.caller] else []) ++ closing w number

end Dispatch

/-- What can happen on a network. -/
inductive Move where
  /-- A node is started and registered, if it can work with its parameters. -/
  | spawn (self : Peer) (boot : List Peer) (config : Config)
  /-- A call is made, by a caller that has withdrawn it already or has not. -/
  | call (caller : Peer) (call : Call String) (fired : Bool)
  /-- A call goes on, its caller having withdrawn or not. -/
  | resume (index : Nat) (fired : Bool)
  /-- A caller stops waiting for a call. -/
  | abandon (index : Nat)
  /-- Milliseconds pass. -/
  | pass (ms : Nat)
  /-- Nobody holds a station any longer. -/
  | release (number : Nat)
  /-- An identifier is taken offline. -/
  | setOffline (id : Id)
  /-- An identifier is brought back. -/
  | setOnline (id : Id)
  /-- The node of a station does something of its own. -/
  | work (number : Nat) (change : Node String → Node String)

end Traffic

/-- A network with the calls that have been made on it, and what has happened to its nodes. -/
structure Traffic where
  /-- The world of the network. -/
  world : World
  /-- Number of moves so far. -/
  moves : Nat
  /-- The calls, in the order in which they were made. -/
  calls : List Traffic.Dispatch
  /-- What has happened to the nodes, in order. -/
  events : List Traffic.Event

namespace Traffic

/-- A network without nodes. -/
def start (latency : Nat) (randomness : Randomness) : Traffic :=
  ⟨.ofLatency latency randomness, 0, [], []⟩

/-- A call ends with a reply and leaves a world. -/
def finish (t : Traffic) (index : Nat) (d : Dispatch) (reply : Reply String) (w : World) :
    Traffic :=
  { t with
    world := w
    calls := t.calls.set index { d with reply := some reply }
    events := t.events ++ d.events index t.world.now reply w }

/-- A call goes on: it ends, or it goes on waiting. -/
def resume (t : Traffic) (index : Nat) (fired : Bool) : Traffic :=
  match t.calls[index]? with
  | none => t
  | some d =>
    if d.reply.isSome then t
    else
      match t.world.resolve d.flight fired with
      | none => t
      | some (reply, w) => t.finish index d reply w

/-- The caller stops waiting for a call. -/
def abandon (t : Traffic) (index : Nat) : Traffic :=
  match t.calls[index]? with
  | none => t
  | some d =>
    if d.reply.isSome then t else t.finish index d (.error .cancelled) (t.world.giveUp d.flight)

/-- A call is sent. -/
def send (t : Traffic) (caller : Peer) (call : Call String) : Traffic :=
  let (flight, w) := t.world.send caller call
  { t with world := w, calls := t.calls ++ [⟨t.moves, caller, call, flight, none⟩] }

/-- What a move does. A call that ends at once ends in the move in which it is made. -/
def act (t : Traffic) : Move → Traffic
  | .spawn self boot config =>
    match Node.create self boot config, t.world.spawn self boot config with
    | .ok n, .ok (_, w) => { t with world := w, events := t.events ++ [.started n] }
    | _, _ => t
  | .call caller call fired => (t.send caller call).resume t.calls.length fired
  | .resume index fired => t.resume index fired
  | .abandon index => t.abandon index
  | .pass ms => { t with world := { t.world with now := t.world.now + ms } }
  | .release number =>
    let w := t.world.release number
    { t with world := w, events := t.events ++ closing w number }
  | .setOffline id => { t with world := t.world.onSimulated (·.setOffline id) }
  | .setOnline id => { t with world := t.world.onSimulated (·.setOnline id) }
  | .work number change =>
    { t with
      world := t.world.modify number fun s => { s with node := change s.node }
      events := t.events ++ [.work number change] }

/-- One move. -/
def move (t : Traffic) (m : Move) : Traffic := { t.act m with moves := t.moves + 1 }

/-- Some moves, the first of the list first. -/
def after (t : Traffic) (moves : List Move) : Traffic := moves.foldl move t

end Traffic

/-! ## What the moves of a world do -/

namespace World

/-- The numbers of requests on their way to the stations, in order. -/
def guests (w : World) : List Nat := w.stations.toList.map (·.visitors)

section Stations

variable {w : World} {number : Nat}

/-- The node of a station. -/
theorem nodes_getElem? (w : World) (number : Nat) :
    w.nodes[number]? = (w.station? number).map (·.node) := by
  rw [nodes, List.getElem?_map, Array.getElem?_toList, station?]

/-- A station that runs has a node. -/
theorem lt_of_runs (runs : w.runs number = true) : number < w.nodes.length := by
  obtain ⟨s, here, -⟩ := exists_of_runs runs
  have there := w.nodes_getElem? number
  rw [here] at there
  exact (List.getElem?_eq_some_iff.mp there).1

/-- The probes of an idle station end. -/
theorem nodes_closeIfIdle (w : World) (number : Nat) :
    (w.closeIfIdle number).nodes =
      Traffic.replay w.nodes (Traffic.closing (w.closeIfIdle number) number) := by
  rw [Traffic.closing, runs_closeIfIdle, closeIfIdle_eq]
  cases w.runs number with
  | true => rfl
  | false => exact map_modify (g := Node.close) (fun _ => rfl) w number

/-- Ending the probes of an idle station leaves who is on the way. -/
theorem guests_closeIfIdle (w : World) (number : Nat) :
    (w.closeIfIdle number).guests = w.guests := by
  refine map_modify_of_same (fun s => ?_) w number
  split <;> rfl

/-- A request less is on its way, and a station that nobody needs any longer ends its probes. -/
theorem removeVisitor_spec (w : World) (number : Nat) :
    (w.removeVisitor number).nodes =
        Traffic.replay w.nodes (Traffic.closing (w.removeVisitor number) number) ∧
      (w.removeVisitor number).guests = w.guests.modify number (· - 1) ∧
      (w.removeVisitor number).network = w.network := by
  have nodes :
      (w.modify number fun s => { s with visitors := s.visitors - 1 }).nodes = w.nodes := by
    refine map_modify_of_same (fun s => ?_) w number
    rfl
  refine ⟨?_, ?_, rfl⟩
  · rw [removeVisitor, nodes_closeIfIdle, nodes]
  · rw [removeVisitor, guests_closeIfIdle]
    exact map_modify (g := (· - 1)) (fun _ => rfl) w number

/-- A station that is held no longer ends its probes, if it does not run any more. -/
theorem release_spec (w : World) (number : Nat) :
    (w.release number).nodes =
        Traffic.replay w.nodes (Traffic.closing (w.release number) number) ∧
      (w.release number).guests = w.guests ∧ (w.release number).network = w.network := by
  have nodes : (w.modify number fun s => { s with held := false }).nodes = w.nodes := by
    refine map_modify_of_same (fun s => ?_) w number
    rfl
  refine ⟨?_, ?_, rfl⟩
  · rw [release, nodes_closeIfIdle, nodes]
  · rw [release, guests_closeIfIdle]
    refine map_modify_of_same (fun s => ?_) w number
    rfl

end Stations

/-! ### The network -/

section Requests

variable {w : World}

/-- A request that arrives at a station is a message from its sender, then it is answered. It is
counted, and it is no longer on its way. -/
theorem land_station {f : Flight} {number : Nat} {s : Station} (simulates : w.Simulates)
    (bound : f.landing = .station number) (here : w.station? number = some s) :
    let n := (s.node.heard w.now f.caller).2
    (w.land f).1 = .ok (Traffic.answer n f.request) ∧
      (w.land f).2.nodes = Traffic.replay (w.nodes.modify number fun _ => n)
        (Traffic.closing (w.land f).2 number) ∧
      (w.land f).2.guests = w.guests.modify number (· - 1) ∧ (w.land f).2.Simulates ∧
      (w.land f).2.simulated = { w.simulated with delivered := w.simulated.delivered + 1 } := by
  intro n
  let counted := w.onSimulated fun s => { s with delivered := s.delivered + 1 }
  have stations : counted.stations = w.stations := stations_onSimulated w _
  have now : counted.now = w.now := by
    rw [show counted = w.onSimulated _ from rfl, onSimulated]
    split <;> rfl
  have landed : w.land f =
      (.ok (Traffic.answer n f.request), (counted.setNode number n).removeVisitor number) := by
    have there : counted.station? number = some s := by
      rw [station?, stations]
      exact here
    simp only [land, bound, countDelivery_eq, handle]
    rw [show w.onSimulated _ = counted from rfl, there]
    dsimp only
    rw [now]
    rfl
  obtain ⟨nodes, guests, network⟩ := removeVisitor_spec (counted.setNode number n) number
  obtain ⟨simulates, simulated⟩ := simulates.onSimulated fun s =>
    { s with delivered := s.delivered + 1 }
  have told : (counted.setNode number n).nodes = w.nodes.modify number fun _ => n := by
    have told := map_modify (p := Station.node) (f := fun s => { s with node := n })
      (g := fun _ => n) (fun _ => rfl) counted number
    rwa [stations] at told
  have visited : (counted.setNode number n).guests = w.guests := by
    have visited := map_modify_of_same (p := Station.visitors)
      (f := fun s => { s with node := n }) (fun _ => rfl) counted number
    rwa [stations] at visited
  rw [landed]
  refine ⟨rfl, ?_, ?_, ?_, ?_⟩
  · rw [nodes, told]
  · rw [guests, visited]
  · exact simulates
  · exact simulated

/-- A request that is given up leaves the network and all nodes as they are; only a station that
nobody needs any longer ends its probes. -/
theorem giveUp_station {f : Flight} {number : Nat} (bound : f.landing = .station number) :
    (w.giveUp f).nodes = Traffic.replay w.nodes (Traffic.closing (w.giveUp f) number) ∧
      (w.giveUp f).guests = w.guests.modify number (· - 1) ∧
      (w.giveUp f).network = w.network := by
  rw [giveUp, bound]
  exact removeVisitor_spec w number

end Requests

end World

namespace Traffic

/-! ## What is known of a network with traffic -/

/-- No event is the message that the call of this index is. -/
def Silent (events : List Event) (index : Nat) : Prop := ∀ e ∈ events, e.isMessage index = false

/-- The call has been delivered to a station: exactly one event is its message, and it was answered
by the node that this message left. -/
structure Delivered (events : List Event) (index : Nat) (d : Dispatch) (number : Nat) : Prop where
  /-- The message is told to the station, comes from the caller, and is followed by the answer. -/
  message : ∃ earlier later time n,
    events = earlier ++ .message number index time d.caller :: later ∧
    Silent earlier index ∧ Silent later index ∧
    (replay [] (earlier ++ [.message number index time d.caller]))[number]? = some n ∧
    d.reply = some (.ok (answer n d.call.request))

/-- How a call has gone so far. -/
inductive Course (events : List Event) (index : Nat) (d : Dispatch) : Prop
  /-- It could not be delivered when it was made, and has failed. -/
  | refused (silent : Silent events index)
      (turned : d.flight.landing = .reply (.error (.unreachable (Simulated.label d.call.callee))))
      (reply : d.reply = some (.error (.unreachable (Simulated.label d.call.callee))))
  /-- It is on its way to a station. -/
  | waiting (number : Nat) (silent : Silent events index)
      (bound : d.flight.landing = .station number) (reply : d.reply = none)
      (caller : d.flight.caller = d.caller) (request : d.flight.request = d.call.request)
  /-- It has been delivered to a station. -/
  | delivered (number : Nat) (bound : d.flight.landing = .station number)
      (delivered : Delivered events index d number)
  /-- Its caller has stopped waiting. -/
  | abandoned (number : Nat) (fault : Fault) (silent : Silent events index)
      (bound : d.flight.landing = .station number)
      (own : fault = .cancelled ∨ fault = .timeout) (reply : d.reply = some (.error fault))

/-- The network and its nodes stand as the calls and the events say. -/
structure Sound (t : Traffic) : Prop where
  /-- The network is a simulated one. -/
  simulates : t.world.Simulates
  /-- The nodes are what the events have made of them. -/
  nodes : t.world.nodes = replay [] t.events
  /-- Every call has gone in one of these ways. -/
  courses : ∀ index d, t.calls[index]? = some d → Course t.events index d
  /-- Messages belong to calls that have been made. -/
  known : ∀ index, t.calls.length ≤ index → Silent t.events index
  /-- Calls are on their way to stations that there are. -/
  bound : ∀ d ∈ t.calls, ∀ number, d.flight.landing = .station number →
    number < t.world.nodes.length
  /-- The requests on their way to a station are those of the calls under way to it. -/
  guests : ∀ number count, t.world.guests[number]? = some count →
    count = t.calls.countP (·.boundFor number)
  /-- Deliveries are counted. -/
  delivered : t.world.simulated.delivered = t.calls.countP (·.delivered)
  /-- Refusals are counted. -/
  dropped : t.world.simulated.dropped = t.calls.countP (·.refused)

/-! ### Events -/

/-- Events happen one after the other. -/
theorem replay_append (nodes : List (Node String)) (earlier later : List Event) :
    replay nodes (earlier ++ later) = replay (replay nodes earlier) later :=
  List.foldl_append

/-- An event leaves no node out. -/
theorem Event.length_apply (nodes : List (Node String)) (e : Event) :
    nodes.length ≤ (e.apply nodes).length := by
  cases e <;> simp [Event.apply]

/-- Events leave no node out. -/
theorem length_replay (nodes : List (Node String)) (events : List Event) :
    nodes.length ≤ (replay nodes events).length := by
  induction events generalizing nodes with
  | nil => exact Nat.le_refl _
  | cons e rest further => exact Nat.le_trans (e.length_apply nodes) (further _)

/-- Ending its probes leaves the table of a station. -/
theorem tables_closing (nodes : List (Node String)) (w : World) (number : Nat) :
    (replay nodes (closing w number)).map (·.table) = nodes.map (·.table) := by
  unfold closing
  split
  · rfl
  · refine List.ext_getElem? fun i => ?_
    rw [replay, List.foldl_cons, List.foldl_nil, Event.apply, List.getElem?_map, List.getElem?_map,
      List.getElem?_modify]
    cases nodes[i]? with
    | none => rfl
    | some n =>
      by_cases here : number = i
      · simp [here]
        rfl
      · simp [here]

/-- An event that ends probes is no message. -/
theorem silent_closing (w : World) (number index : Nat) : Silent (closing w number) index := by
  intro e member
  unfold closing at member
  split at member
  · cases member
  · rw [List.mem_singleton.mp member]
    rfl

/-- Events that are not the message of a call do not change how it has gone. -/
theorem Course.append {events later : List Event} {index : Nat} {d : Dispatch}
    (course : Course events index d) (silent : Silent later index) :
    Course (events ++ later) index d := by
  have both {earlier : List Event} (before : Silent earlier index) :
      Silent (earlier ++ later) index := fun e member =>
    (List.mem_append.mp member).elim (before e) (silent e)
  cases course with
  | refused before turned reply => exact .refused (both before) turned reply
  | waiting number before bound reply caller request =>
    exact .waiting number (both before) bound reply caller request
  | abandoned number fault before bound own reply =>
    exact .abandoned number fault (both before) bound own reply
  | delivered number bound delivered =>
    obtain ⟨earlier, rest, time, n, there, before, after, told, reply⟩ := delivered
    refine .delivered number bound
      ⟨earlier, rest ++ later, time, n, ?_, before, both after, told, reply⟩
    rw [there, List.append_assoc, List.cons_append]

/-! ### Calls that end -/

section Endings

variable {t : Traffic} {index number : Nat} {d : Dispatch} {reply : Reply String} {w : World}

/-- A call that has not ended is on its way to a station. -/
theorem Sound.waiting (sound : t.Sound) (here : t.calls[index]? = some d)
    (pending : d.reply = none) :
    Silent t.events index ∧ d.flight.caller = d.caller ∧ d.flight.request = d.call.request ∧
      ∃ number, d.flight.landing = .station number ∧ number < t.world.nodes.length := by
  cases sound.courses index d here with
  | refused _ _ reply => exact nomatch pending.symm.trans reply
  | abandoned _ _ _ _ _ reply => exact nomatch pending.symm.trans reply
  | delivered _ _ delivered =>
    obtain ⟨_, _, _, _, _, _, _, _, reply⟩ := delivered
    exact nomatch pending.symm.trans reply
  | waiting number silent bound _ caller request =>
    exact ⟨silent, caller, request, number, bound,
      sound.bound d (List.mem_of_getElem? here) number bound⟩

/-- What the end of a call does to the world: the events that go with it happen, a request less is
on its way, and a delivery is counted. -/
theorem Sound.ends_spec (sound : t.Sound) (here : t.calls[index]? = some d)
    (pending : d.reply = none) (bound : d.flight.landing = .station number)
    (ends : t.world.Ends d.flight reply w) :
    w.nodes = replay t.world.nodes (d.events index t.world.now reply w) ∧
      w.guests = t.world.guests.modify number (· - 1) ∧ w.Simulates ∧
      w.simulated.delivered = t.world.simulated.delivered + (if delivers reply then 1 else 0) ∧
      w.simulated.dropped = t.world.simulated.dropped ∧
      ((∃ fault, (fault = .cancelled ∨ fault = .timeout) ∧ reply = .error fault) ∨
        ∃ n, (replay t.world.nodes [.message number index t.world.now d.caller])[number]? = some n ∧
          reply = .ok (answer n d.call.request)) := by
  obtain ⟨-, caller, request, other, bound', there⟩ := sound.waiting here pending
  obtain rfl : number = other := Landing.station.inj (bound.symm.trans bound')
  rw [Dispatch.events, bound]
  cases ends with
  | lost fault own =>
    obtain ⟨nodes, guests, network⟩ := World.giveUp_station (w := t.world) bound
    have simulated : (t.world.giveUp d.flight).simulated = t.world.simulated := by
      rw [World.simulated, network]
      rfl
    refine ⟨nodes, guests, ?_, ?_, ?_, .inl ⟨fault, own, rfl⟩⟩
    · rw [World.Simulates, simulated, network]
      exact sound.simulates
    · rw [simulated]
      rfl
    · rw [simulated]
  | lands =>
    obtain ⟨n, there⟩ := Option.isSome_iff_exists.mp (by
      rw [List.getElem?_eq_getElem there]
      rfl : (t.world.nodes[number]?).isSome)
    rw [World.nodes_getElem?] at there
    obtain ⟨s, there, -⟩ := Option.map_eq_some_iff.mp there
    obtain ⟨answered, nodes, guests, simulates, simulated⟩ :=
      World.land_station sound.simulates bound there
    have told : (t.world.nodes.modify number fun n => (n.heard t.world.now d.caller).2) =
        t.world.nodes.modify number fun _ => (s.node.heard t.world.now d.flight.caller).2 := by
      refine List.ext_getElem? fun i => ?_
      rw [List.getElem?_modify, List.getElem?_modify, World.nodes_getElem?]
      by_cases same : number = i
      · subst same
        rw [there, caller]
        rfl
      · simp [same]
    rw [answered, request]
    refine ⟨?_, guests, simulates, ?_, ?_, .inr ⟨_, ?_, rfl⟩⟩
    · rw [nodes, ← told]
      rfl
    · rw [simulated]
      rfl
    · rw [simulated]
    · rw [replay, List.foldl_cons, List.foldl_nil, Event.apply, told, List.getElem?_modify,
        World.nodes_getElem?, there]
      simp

/-- The number of calls of some kind, when one call has changed. -/
theorem countP_set_add {calls : List Dispatch} (here : calls[index]? = some d)
    (p : Dispatch → Bool) (next : Dispatch) :
    (calls.set index next).countP p + (if p d then 1 else 0) =
      calls.countP p + (if p next then 1 else 0) := by
  obtain ⟨small, same⟩ := List.getElem?_eq_some_iff.mp here
  rw [List.countP_set small, same]
  by_cases counted : p d = true
  · have some : 0 < calls.countP p :=
      List.countP_pos_iff.mpr ⟨d, List.mem_of_getElem? here, counted⟩
    rw [if_pos counted]
    omega
  · rw [if_neg counted]
    omega

/-- The events of a call that ends are no message of another call. -/
theorem silent_events (bound : d.flight.landing = .station number) {other : Nat}
    (apart : index ≠ other) (now : Nat) : Silent (d.events index now reply w) other := by
  intro e member
  rw [Dispatch.events, bound] at member
  rcases List.mem_append.mp member with told | closes
  · split at told
    · rw [List.mem_singleton.mp told]
      exact beq_false_of_ne apart
    · cases told
  · exact silent_closing w number other e closes

/-- A call that ends has been delivered, or its caller has stopped waiting. -/
theorem Sound.course_finish (sound : t.Sound) (here : t.calls[index]? = some d)
    (pending : d.reply = none) (ends : t.world.Ends d.flight reply w) :
    Course (t.events ++ d.events index t.world.now reply w) index
      { d with reply := some reply } := by
  obtain ⟨silent, -, -, number, bound, -⟩ := sound.waiting here pending
  obtain ⟨-, -, -, -, -, outcome⟩ := sound.ends_spec here pending bound ends
  rw [Dispatch.events, bound]
  rcases outcome with ⟨fault, own, rfl⟩ | ⟨n, told, rfl⟩
  · refine .abandoned number fault (fun e member => ?_) bound own rfl
    exact (List.mem_append.mp member).elim (silent e) (silent_closing w number index e)
  · refine .delivered number bound ⟨t.events, closing w number, t.world.now, n, rfl, silent,
      silent_closing w number index, ?_, rfl⟩
    rw [replay_append, ← sound.nodes]
    exact told

/-- When a call has ended, one request less is on its way to its station. -/
theorem Sound.guests_finish (sound : t.Sound) (here : t.calls[index]? = some d)
    (pending : d.reply = none) (bound : d.flight.landing = .station number) {other count : Nat}
    (visited : (t.world.guests.modify number (· - 1))[other]? = some count) :
    count = (t.calls.set index { d with reply := some reply }).countP (·.boundFor other) := by
  have counted := countP_set_add here (·.boundFor other) { d with reply := some reply }
  have ended : ({ d with reply := some reply } : Dispatch).boundFor other = false := rfl
  have way : d.boundFor other = (number == other) := by rw [Dispatch.boundFor, pending, bound]
  rw [ended, way] at counted
  rw [List.getElem?_modify] at visited
  obtain ⟨before, was, rfl⟩ := Option.map_eq_some_iff.mp visited
  have before := sound.guests other before was
  by_cases same : number = other
  · simp [same] at counted ⊢
    omega
  · simp [same] at counted ⊢
    omega

/-- The end of a call keeps what is known. -/
theorem Sound.finish (sound : t.Sound) (here : t.calls[index]? = some d)
    (pending : d.reply = none) (ends : t.world.Ends d.flight reply w) :
    (t.finish index d reply w).Sound := by
  obtain ⟨-, -, -, number, bound, there⟩ := sound.waiting here pending
  obtain ⟨nodes, guests, simulates, delivered, dropped, outcome⟩ :=
    sound.ends_spec here pending bound ends
  obtain ⟨small, -⟩ := List.getElem?_eq_some_iff.mp here
  have counted (p : Dispatch → Bool) := countP_set_add here p { d with reply := some reply }
  refine ⟨simulates, ?_, fun other next there' => ?_, fun other large e member => ?_,
    fun next member other bound' => ?_, fun other count visited => ?_, ?_, ?_⟩
  · refine nodes.trans ?_
    rw [sound.nodes, ← replay_append]
    rfl
  · change (t.calls.set index _)[other]? = some next at there'
    by_cases same : index = other
    · subst same
      rw [List.getElem?_set_self small] at there'
      exact Option.some.inj there' ▸ sound.course_finish here pending ends
    · rw [List.getElem?_set_ne same] at there'
      exact (sound.courses other next there').append (silent_events bound same _)
  · have large : t.calls.length ≤ other := by simpa [Traffic.finish] using large
    exact (List.mem_append.mp member).elim (sound.known other large e)
      (silent_events bound (by omega) _ e)
  · have grows : t.world.nodes.length ≤ w.nodes.length := nodes ▸ length_replay _ _
    rcases List.mem_or_eq_of_mem_set member with old | rfl
    · exact Nat.lt_of_lt_of_le (sound.bound next old other bound') grows
    · exact Nat.lt_of_lt_of_le (sound.bound d (List.mem_of_getElem? here) other bound') grows
  · exact sound.guests_finish here pending bound (guests ▸ visited)
  · have fresh : d.delivered = false := by rw [Dispatch.delivered, pending]; rfl
    have counted := counted (·.delivered)
    rw [fresh] at counted
    rw [show (t.finish index d reply w).world = w from rfl, delivered, sound.delivered]
    exact counted.symm
  · have before : d.refused = false := by rw [Dispatch.refused, pending]; rfl
    have after : ({ d with reply := some reply } : Dispatch).refused = false := by
      rcases outcome with ⟨fault, rfl | rfl, rfl⟩ | ⟨n, -, rfl⟩ <;> rfl
    have counted := counted (·.refused)
    rw [before, after] at counted
    rw [show (t.finish index d reply w).world = w from rfl, dropped, sound.dropped]
    exact counted.symm

/-- A call that goes on stays as it is, or ends. -/
theorem resume_cases (t : Traffic) (index : Nat) (fired : Bool) :
    t.resume index fired = t ∨
      ∃ d reply w, t.calls[index]? = some d ∧ d.reply = none ∧ t.world.Ends d.flight reply w ∧
        t.resume index fired = t.finish index d reply w := by
  unfold resume
  cases here : t.calls[index]? with
  | none => exact .inl rfl
  | some d =>
    dsimp only
    cases pending : d.reply with
    | some _ => exact .inl (if_pos rfl)
    | none =>
      rw [if_neg (by exact Bool.false_ne_true)]
      cases resolved : t.world.resolve d.flight fired with
      | none => exact .inl rfl
      | some ended =>
        exact .inr ⟨d, ended.1, ended.2, rfl, pending, World.ends_of_resolve resolved, rfl⟩

/-- A call that its caller abandons ends, unless it has ended before. -/
theorem abandon_cases (t : Traffic) (index : Nat) :
    t.abandon index = t ∨
      ∃ d reply w, t.calls[index]? = some d ∧ d.reply = none ∧ t.world.Ends d.flight reply w ∧
        t.abandon index = t.finish index d reply w := by
  unfold abandon
  cases here : t.calls[index]? with
  | none => exact .inl rfl
  | some d =>
    dsimp only
    cases pending : d.reply with
    | some _ => exact .inl (if_pos rfl)
    | none =>
      exact .inr ⟨d, _, _, rfl, pending, .lost .cancelled (.inl rfl),
        if_neg (by exact Bool.false_ne_true)⟩

end Endings

/-! ### Calls that are made -/

section Calls

variable {t : Traffic}

/-- A call that cannot be delivered is refused at once, and counted. -/
theorem call_refused (simulates : t.world.Simulates) (caller : Peer) (call : Call String)
    (fired : Bool) (beyond : t.world.reach? call.callee.id = none) :
    ∃ d : Dispatch, d.made = t.moves ∧ d.caller = caller ∧ d.call = call ∧
      d.flight.landing = .reply (.error (.unreachable (Simulated.label call.callee))) ∧
      d.reply = some (.error (.unreachable (Simulated.label call.callee))) ∧
      t.act (.call caller call fired) =
        { t with
          world := t.world.onSimulated fun s => { s with dropped := s.dropped + 1 }
          calls := t.calls ++ [d] } := by
  rcases World.send_cases simulates caller call with ⟨number, reached, -⟩ | ⟨-, sent⟩
  · exact nomatch beyond.symm.trans reached
  · let flight : Flight := ⟨caller, call.request, some t.world.now,
      call.limit.map (t.world.now + ·),
      .reply (.error (.unreachable (Simulated.label call.callee)))⟩
    let d : Dispatch := ⟨t.moves, caller, call, flight, none⟩
    let w := t.world.onSimulated fun s => { s with dropped := s.dropped + 1 }
    have sent' : t.send caller call = { t with world := w, calls := t.calls ++ [d] } := by
      rw [send, sent]
    have now : w.now = t.world.now := by
      rw [show w = t.world.onSimulated _ from rfl, World.onSimulated]
      split <;> rfl
    have resolved : w.resolve flight fired =
        some (.error (.unreachable (Simulated.label call.callee)), w) := by
      have arrived : flight.status w.now fired = .arrived := by
        rw [Flight.status, now]
        exact if_pos (decide_eq_true (Nat.le_refl _))
      rw [World.resolve, arrived]
      rfl
    refine ⟨{ d with reply := _ }, rfl, rfl, rfl, rfl, rfl, ?_⟩
    rw [act, sent', resume]
    simp only [List.getElem?_concat_length, Option.isSome]
    rw [resolved]
    simp only [finish, Dispatch.events, d, flight, List.append_nil]
    rw [List.set_append_right _ _ (Nat.le_refl _), Nat.sub_self]
    rfl

/-- A call that can be delivered is on its way to its station, and may then end at once. -/
theorem call_sent (simulates : t.world.Simulates) (caller : Peer) (call : Call String)
    {number : Nat} (reached : t.world.reach? call.callee.id = some number) :
    ∃ d : Dispatch, d.made = t.moves ∧ d.caller = caller ∧ d.call = call ∧
      d.flight.landing = .station number ∧ d.flight.caller = caller ∧
      d.flight.request = call.request ∧ d.reply = none ∧
      t.send caller call =
        { t with world := t.world.addVisitor number, calls := t.calls ++ [d] } := by
  rcases World.send_cases simulates caller call with ⟨other, reached', sent⟩ | ⟨beyond, -⟩
  · cases reached.symm.trans reached'
    let flight : Flight := ⟨caller, call.request, some (t.world.now + t.world.simulated.latency),
      call.limit.map (t.world.now + ·), .station number⟩
    refine ⟨⟨t.moves, caller, call, flight, none⟩, rfl, rfl, rfl, rfl, rfl, rfl, rfl, ?_⟩
    rw [send, sent]
  · exact nomatch beyond.symm.trans reached

/-- Calls that are made do not count among those that are known. -/
theorem Sound.courses_append (sound : t.Sound) {d : Dispatch}
    (course : Course t.events t.calls.length d) {index : Nat} {next : Dispatch}
    (here : (t.calls ++ [d])[index]? = some next) : Course t.events index next := by
  rcases Nat.lt_trichotomy index t.calls.length with old | rfl | beyond
  · rw [List.getElem?_append_left old] at here
    exact sound.courses index next here
  · rw [List.getElem?_concat_length] at here
    exact Option.some.inj here ▸ course
  · rw [List.getElem?_eq_none (by rw [List.length_append]; exact beyond)] at here
    cases here

/-- A call that is refused keeps what is known. -/
theorem Sound.refuse (sound : t.Sound) {d : Dispatch}
    (turned : d.flight.landing = .reply (.error (.unreachable (Simulated.label d.call.callee))))
    (reply : d.reply = some (.error (.unreachable (Simulated.label d.call.callee)))) :
    Sound { t with
      world := t.world.onSimulated fun s => { s with dropped := s.dropped + 1 }
      calls := t.calls ++ [d] } := by
  obtain ⟨simulates, simulated⟩ := sound.simulates.onSimulated fun s =>
    { s with dropped := s.dropped + 1 }
  have stations := World.stations_onSimulated t.world fun s => { s with dropped := s.dropped + 1 }
  have nodes : (t.world.onSimulated fun s => { s with dropped := s.dropped + 1 }).nodes =
      t.world.nodes := by rw [World.nodes, stations, World.nodes]
  refine ⟨simulates, nodes.trans sound.nodes, fun index next here => ?_, fun index large => ?_,
    ?_, ?_, ?_, ?_⟩
  · exact sound.courses_append (.refused (sound.known _ (Nat.le_refl _)) turned reply) here
  · rw [List.length_append] at large
    exact sound.known index (by omega)
  · intro next member number bound
    rw [nodes]
    rcases List.mem_append.mp member with old | new
    · exact sound.bound next old number bound
    · rw [List.mem_singleton.mp new, turned] at bound
      cases bound
  · intro number count visited
    rw [World.guests, stations] at visited
    rw [List.countP_append, List.countP_singleton, Dispatch.boundFor, reply]
    exact sound.guests number count visited
  · rw [simulated, List.countP_append, List.countP_singleton, Dispatch.delivered, reply]
    exact sound.delivered
  · rw [simulated, List.countP_append, List.countP_singleton, Dispatch.refused, reply]
    exact congrArg (· + 1) sound.dropped

/-- A call that is sent keeps what is known. -/
theorem Sound.sent (sound : t.Sound) {d : Dispatch} {number : Nat}
    (there : number < t.world.nodes.length) (bound : d.flight.landing = .station number)
    (caller : d.flight.caller = d.caller) (request : d.flight.request = d.call.request)
    (reply : d.reply = none) :
    Sound { t with world := t.world.addVisitor number, calls := t.calls ++ [d] } := by
  have nodes : (t.world.addVisitor number).nodes = t.world.nodes := by
    refine World.map_modify_of_same (fun s => ?_) t.world number
    rfl
  have guests : (t.world.addVisitor number).guests = t.world.guests.modify number (· + 1) :=
    World.map_modify (g := (· + 1)) (fun _ => rfl) t.world number
  refine ⟨sound.simulates, nodes.trans sound.nodes, fun index next here => ?_,
    fun index large => ?_, ?_, ?_, ?_, ?_⟩
  · exact sound.courses_append
      (.waiting number (sound.known _ (Nat.le_refl _)) bound reply caller request) here
  · rw [List.length_append] at large
    exact sound.known index (by omega)
  · intro next member other bound'
    rw [nodes]
    rcases List.mem_append.mp member with old | new
    · exact sound.bound next old other bound'
    · rw [List.mem_singleton.mp new, bound] at bound'
      exact Landing.station.inj bound' ▸ there
  · intro other count visited
    rw [guests, List.getElem?_modify] at visited
    obtain ⟨before, was, rfl⟩ := Option.map_eq_some_iff.mp visited
    rw [List.countP_append, List.countP_singleton, Dispatch.boundFor, reply, bound,
      ← sound.guests other before was]
    by_cases same : number = other
    · simp [same]
    · simp [same]
  · rw [List.countP_append, List.countP_singleton, Dispatch.delivered, reply]
    exact sound.delivered
  · rw [List.countP_append, List.countP_singleton, Dispatch.refused, reply]
    exact sound.dropped

end Calls

/-! ### Moves -/

section Moves

variable {t : Traffic}

/-- What happens to nodes and is no message keeps what is known, if the world follows. -/
theorem Sound.change (sound : t.Sound) {w : World} {later : List Event}
    (silent : ∀ index, Silent later index) (simulates : w.Simulates)
    (nodes : w.nodes = replay t.world.nodes later)
    (guests : ∀ number count, w.guests[number]? = some count →
      t.world.guests[number]? = some count ∨ t.world.nodes.length ≤ number ∧ count = 0)
    (delivered : w.simulated.delivered = t.world.simulated.delivered)
    (dropped : w.simulated.dropped = t.world.simulated.dropped) :
    Sound { t with world := w, events := t.events ++ later } := by
  refine ⟨simulates, ?_, fun index d here => (sound.courses index d here).append (silent index),
    fun index large e member => ?_, fun d member number bound => ?_,
    fun number count visited => ?_, delivered.trans sound.delivered, dropped.trans sound.dropped⟩
  · rw [nodes, replay_append, ← sound.nodes]
  · exact (List.mem_append.mp member).elim (sound.known index large e) (silent index e)
  · rw [nodes]
    exact Nat.lt_of_lt_of_le (sound.bound d member number bound) (length_replay _ _)
  · rcases guests number count visited with old | ⟨beyond, rfl⟩
    · exact sound.guests number count old
    · -- Nobody calls a station that there was not.
      refine (List.countP_eq_zero.mpr fun d member bound => ?_).symm
      unfold Dispatch.boundFor at bound
      split at bound
      · next other _ landing =>
        have there := sound.bound d member other landing
        have same : other = number := eq_of_beq bound
        omega
      · cases bound

/-- A change of the network, or of the time, keeps what is known if it does not count. -/
theorem Sound.still (sound : t.Sound) {w : World} (simulates : w.Simulates)
    (stations : w.stations = t.world.stations)
    (delivered : w.simulated.delivered = t.world.simulated.delivered)
    (dropped : w.simulated.dropped = t.world.simulated.dropped) :
    Sound { t with world := w } := by
  have nodes : w.nodes = t.world.nodes := by rw [World.nodes, stations, World.nodes]
  have guests : w.guests = t.world.guests := by rw [World.guests, stations, World.guests]
  have changed : Sound { t with world := w, events := t.events ++ [] } :=
    sound.change (fun _ => List.forall_mem_nil _) simulates nodes
      (fun number count visited => .inl (guests ▸ visited)) delivered dropped
  rwa [List.append_nil] at changed

/-- A call that goes on keeps what is known. -/
theorem Sound.resume (sound : t.Sound) (index : Nat) (fired : Bool) :
    (t.resume index fired).Sound := by
  rcases resume_cases t index fired with same | ⟨d, reply, w, here, pending, ends, same⟩
  · rw [same]
    exact sound
  · rw [same]
    exact sound.finish here pending ends

/-- A call that is given up keeps what is known. -/
theorem Sound.abandon (sound : t.Sound) (index : Nat) : (t.abandon index).Sound := by
  rcases abandon_cases t index with same | ⟨d, reply, w, here, pending, ends, same⟩
  · rw [same]
    exact sound
  · rw [same]
    exact sound.finish here pending ends

/-- A station that is started is a new one. -/
theorem spawn_spec {self : Peer} {boot : List Peer} {config : Config} {n : Node String}
    {number : Nat} {w w' : World} (created : Node.create self boot config = .ok n)
    (simulates : w.Simulates) (spawned : w.spawn self boot config = .ok (number, w')) :
    w'.Simulates ∧ w'.nodes = w.nodes ++ [n] ∧ w'.guests = w.guests ++ [0] ∧
      w'.simulated = w.simulated.register self.id w.stations.size := by
  rw [World.spawn, created] at spawned
  cases spawned
  obtain ⟨kept, simulated⟩ := World.Simulates.onSimulated (w := (w.addStation n).2) simulates
    fun s => s.register self.id w.stations.size
  have stations := World.stations_onSimulated (w.addStation n).2
    fun s => s.register self.id w.stations.size
  refine ⟨kept, ?_, ?_, simulated⟩
  · rw [World.nodes]
    refine (congrArg (fun all : Array Station => all.toList.map (·.node)) stations).trans ?_
    simp [World.addStation, World.nodes]
  · rw [World.guests]
    refine (congrArg (fun all : Array Station => all.toList.map (·.visitors)) stations).trans ?_
    simp [World.addStation, World.guests]

/-- The start of a node keeps what is known: nothing is on its way to it. -/
theorem Sound.spawn (sound : t.Sound) {self : Peer} {boot : List Peer} {config : Config}
    {n : Node String} {number : Nat} {w : World} (created : Node.create self boot config = .ok n)
    (spawned : t.world.spawn self boot config = .ok (number, w)) :
    Sound { t with world := w, events := t.events ++ [.started n] } := by
  obtain ⟨simulates, nodes, guests, simulated⟩ := spawn_spec created sound.simulates spawned
  refine sound.change (fun index e member => ?_) simulates nodes
    (fun number count visited => ?_) ?_ ?_
  · rw [List.mem_singleton.mp member]
    rfl
  · rw [guests] at visited
    rcases Nat.lt_or_ge number t.world.guests.length with old | new
    · rw [List.getElem?_append_left old] at visited
      exact .inl visited
    · rw [List.getElem?_append_right new] at visited
      refine .inr ⟨?_, ?_⟩
      · simpa [World.guests, World.nodes] using new
      · exact (List.mem_singleton.mp (List.mem_of_getElem? visited))
  · rw [simulated]
    rfl
  · rw [simulated]
    rfl

/-- A move keeps what is known. -/
theorem Sound.act (sound : t.Sound) (m : Move) : (t.act m).Sound := by
  cases m with
  | spawn self boot config =>
    rw [Traffic.act]
    split
    · next n number w created spawned => exact sound.spawn created spawned
    · exact sound
  | call caller call fired =>
    cases reached : t.world.reach? call.callee.id with
    | none =>
      obtain ⟨d, -, -, rfl, turned, reply, acted⟩ :=
        call_refused sound.simulates caller call fired reached
      rw [acted]
      exact sound.refuse turned reply
    | some number =>
      obtain ⟨d, -, rfl, rfl, bound, caller, request, reply, sent⟩ :=
        call_sent sound.simulates caller call reached
      have there := World.lt_of_runs (World.reach?_eq_some_iff.mp reached).2.1
      rw [Traffic.act, sent]
      exact (sound.sent there bound caller request reply).resume _ fired
  | resume index fired => exact sound.resume index fired
  | abandon index => exact sound.abandon index
  | pass ms => exact sound.still sound.simulates rfl rfl rfl
  | release number =>
    obtain ⟨nodes, guests, network⟩ := t.world.release_spec number
    have simulated : (t.world.release number).simulated = t.world.simulated := by
      rw [World.simulated, network, World.simulated]
    refine sound.change (silent_closing _ number) ?_ nodes (fun other count visited => ?_) ?_ ?_
    · rw [World.Simulates, network, simulated]
      exact sound.simulates
    · exact .inl (guests ▸ visited)
    · rw [simulated]
    · rw [simulated]
  | setOffline id =>
    obtain ⟨simulates, simulated⟩ := sound.simulates.onSimulated (·.setOffline id)
    refine sound.still simulates (World.stations_onSimulated _ _) ?_ ?_
    · rw [simulated, Simulated.setOffline]
      split <;> rfl
    · rw [simulated, Simulated.setOffline]
      split <;> rfl
  | setOnline id =>
    obtain ⟨simulates, simulated⟩ := sound.simulates.onSimulated (·.setOnline id)
    refine sound.still simulates (World.stations_onSimulated _ _) ?_ ?_
    · rw [simulated]
      rfl
    · rw [simulated]
      rfl
  | work number change =>
    refine sound.change (fun index e member => ?_) sound.simulates ?_
      (fun other count visited => ?_) rfl rfl
    · rw [List.mem_singleton.mp member]
      rfl
    · exact World.map_modify (g := change) (fun _ => rfl) t.world number
    · refine .inl ?_
      have same : World.guests (t.world.modify number fun s => { s with node := change s.node }) =
          t.world.guests := by
        refine World.map_modify_of_same (fun s => ?_) t.world number
        rfl
      rwa [same] at visited

/-- A move keeps what is known. -/
theorem Sound.move (sound : t.Sound) (m : Move) : (t.move m).Sound := by
  obtain ⟨simulates, nodes, courses, known, bound, guests, delivered, dropped⟩ := sound.act m
  exact ⟨simulates, nodes, courses, known, bound, guests, delivered, dropped⟩

/-- A network without nodes. -/
theorem Sound.start (latency : Nat) (randomness : Randomness) :
    (start latency randomness).Sound where
  simulates := rfl
  nodes := rfl
  courses _ _ here := nomatch here
  known _ _ := List.forall_mem_nil _
  bound := List.forall_mem_nil _
  guests _ _ visited := nomatch visited
  delivered := rfl
  dropped := rfl

/-- Any moves keep what is known. -/
theorem Sound.after (sound : t.Sound) (moves : List Move) : (t.after moves).Sound := by
  induction moves generalizing t with
  | nil => exact sound
  | cons m rest further => exact further (sound.move m)

end Moves

/-! ### Where calls go -/

section Origins

variable {t : Traffic}

/-- When a call was made, by whom, and what was asked. -/
def Dispatch.origin (d : Dispatch) : Nat × Peer × Call String := (d.made, d.caller, d.call)

/-- The calls that are made by some moves, the first of which is the move of a number. -/
def origins (first : Nat) (moves : List Move) : List (Nat × Peer × Call String) :=
  (moves.zipIdx first).filterMap fun (m, number) =>
    match m with
    | .call caller call _ => some (number, caller, call)
    | _ => none

/-- What a node does of its own, if the event is that. -/
def Event.deed? : Event → Option (Nat × (Node String → Node String))
  | .work number change => some (number, change)
  | _ => none

/-- What a node does of its own, if the move is that. -/
def Move.deed? : Move → Option (Nat × (Node String → Node String))
  | .work number change => some (number, change)
  | _ => none

/-- A call goes where the world stands when it is made: to the station that takes it, or nowhere. -/
def Dispatch.GoesBy (d : Dispatch) (w : World) : Prop :=
  match w.reach? d.call.callee.id with
  | some number => d.flight.landing = .station number
  | none => d.flight.landing = .reply (.error (.unreachable (Simulated.label d.call.callee)))

/-- A call as it was made, with its request in flight. -/
def Dispatch.trip (d : Dispatch) : (Nat × Peer × Call String) × Flight := (d.origin, d.flight)

/-- A call that ends stays as it was made, and is nothing that a node does of its own. -/
theorem trips_finish {index : Nat} {d : Dispatch} (here : t.calls[index]? = some d)
    (reply : Reply String) (w : World) :
    (t.finish index d reply w).calls.map Dispatch.trip = t.calls.map Dispatch.trip ∧
      (t.finish index d reply w).events.filterMap Event.deed? =
        t.events.filterMap Event.deed? := by
  constructor
  · rw [finish]
    refine List.ext_getElem? fun i => ?_
    rw [List.getElem?_map, List.getElem?_map, List.getElem?_set]
    split
    · next same =>
      subst same
      rw [here, if_pos (List.getElem?_eq_some_iff.mp here).1]
      rfl
    · rfl
  · rw [finish, List.filterMap_append]
    refine (congrArg _ (List.filterMap_eq_nil_iff.mpr fun e member => ?_)).trans (List.append_nil _)
    unfold Dispatch.events closing at member
    split at member
    · cases member
    · rcases List.mem_append.mp member with told | closes
      · split at told
        · rw [List.mem_singleton.mp told]
          rfl
        · cases told
      · split at closes
        · cases closes
        · rw [List.mem_singleton.mp closes]
          rfl

/-- A call that goes on stays as it was made. -/
theorem trips_resume (t : Traffic) (index : Nat) (fired : Bool) :
    (t.resume index fired).calls.map Dispatch.trip = t.calls.map Dispatch.trip ∧
      (t.resume index fired).events.filterMap Event.deed? = t.events.filterMap Event.deed? := by
  rcases resume_cases t index fired with same | ⟨d, reply, w, here, -, -, same⟩
  · rw [same]
    exact ⟨rfl, rfl⟩
  · rw [same]
    exact trips_finish here reply w

/-- A call that is given up stays as it was made. -/
theorem trips_abandon (t : Traffic) (index : Nat) :
    (t.abandon index).calls.map Dispatch.trip = t.calls.map Dispatch.trip ∧
      (t.abandon index).events.filterMap Event.deed? = t.events.filterMap Event.deed? := by
  rcases abandon_cases t index with same | ⟨d, reply, w, here, -, -, same⟩
  · rw [same]
    exact ⟨rfl, rfl⟩
  · rw [same]
    exact trips_finish here reply w

/-- A move makes the call that it is, if it is one, and has a node do what it says. -/
theorem trips_act (sound : t.Sound) (m : Move) :
    ∃ made : List Dispatch,
      (t.act m).calls.map Dispatch.trip = (t.calls ++ made).map Dispatch.trip ∧
      made.map Dispatch.origin = origins t.moves [m] ∧
      (∀ d ∈ made, d.made = t.moves ∧ d.GoesBy t.world) ∧
      (t.act m).events.filterMap Event.deed? =
        t.events.filterMap Event.deed? ++ [m].filterMap Move.deed? := by
  cases m with
  | call caller call fired =>
    cases reached : t.world.reach? call.callee.id with
    | none =>
      obtain ⟨d, made, rfl, rfl, turned, reply, acted⟩ :=
        call_refused sound.simulates caller call fired reached
      refine ⟨[d], ?_, ?_, ?_, ?_⟩
      · rw [acted]
      · rw [List.map_singleton, Dispatch.origin, made]
        rfl
      · intro other member
        rw [List.mem_singleton.mp member, Dispatch.GoesBy, reached]
        exact ⟨made, turned⟩
      · rw [acted]
        exact (List.append_nil _).symm
    | some number =>
      obtain ⟨d, made, rfl, rfl, bound, -, -, reply, sent⟩ :=
        call_sent sound.simulates caller call reached
      obtain ⟨trips, deeds⟩ := trips_resume (t.send d.caller d.call) t.calls.length fired
      refine ⟨[d], ?_, ?_, ?_, ?_⟩
      · rw [act, trips, sent]
      · rw [List.map_singleton, Dispatch.origin, made]
        rfl
      · intro other member
        rw [List.mem_singleton.mp member, Dispatch.GoesBy, reached]
        exact ⟨made, bound⟩
      · rw [act, deeds, sent]
        exact (List.append_nil _).symm
  | resume index fired =>
    obtain ⟨trips, deeds⟩ := trips_resume t index fired
    exact ⟨[], trips.trans (by rw [List.append_nil]), rfl, List.forall_mem_nil _,
      deeds.trans (List.append_nil _).symm⟩
  | abandon index =>
    obtain ⟨trips, deeds⟩ := trips_abandon t index
    exact ⟨[], trips.trans (by rw [List.append_nil]), rfl, List.forall_mem_nil _,
      deeds.trans (List.append_nil _).symm⟩
  | spawn self boot config =>
    refine ⟨[], ?_, rfl, List.forall_mem_nil _, ?_⟩
    · rw [act]
      split <;> rw [List.append_nil]
    · rw [act]
      split
      · exact List.filterMap_append
      · exact (List.append_nil _).symm
  | work number change =>
    exact ⟨[], by rw [List.append_nil]; rfl, rfl, List.forall_mem_nil _, List.filterMap_append⟩
  | release number =>
    refine ⟨[], by rw [List.append_nil]; rfl, rfl, List.forall_mem_nil _, ?_⟩
    refine List.filterMap_append.trans (congrArg _ ?_)
    unfold closing
    split <;> rfl
  | pass ms | setOffline id | setOnline id =>
    exact ⟨[], by rw [List.append_nil]; rfl, rfl, List.forall_mem_nil _, (List.append_nil _).symm⟩

/-- The calls are those that the moves have made, each of which has gone by the world in which it
was made; and nodes have done of their own what the moves say. -/
theorem made_after (latency : Nat) (randomness : Randomness) (moves : List Move) :
    let t := (start latency randomness).after moves
    t.moves = moves.length ∧ t.calls.map Dispatch.origin = origins 0 moves ∧
      t.events.filterMap Event.deed? = moves.filterMap Move.deed? ∧
      ∀ d ∈ t.calls, d.made < moves.length ∧
        d.GoesBy ((start latency randomness).after (moves.take d.made)).world := by
  induction moves using List.reverseRecOn with
  | nil => exact ⟨rfl, rfl, rfl, List.forall_mem_nil _⟩
  | append_singleton earlier m further =>
    obtain ⟨count, origin, deeds, made⟩ := further
    have sound := (Sound.start latency randomness).after earlier
    have last : (start latency randomness).after (earlier ++ [m]) =
        ((start latency randomness).after earlier).move m := List.foldl_append ..
    obtain ⟨new, trips, origin', goes, deeds'⟩ := trips_act sound m
    dsimp only
    rw [last]
    refine ⟨?_, ?_, ?_, ?_⟩
    · rw [move, count, List.length_append]
      rfl
    · have kept := congrArg (List.map Prod.fst) trips
      rw [List.map_map, List.map_map, List.map_append] at kept
      refine kept.trans ?_
      rw [origins, List.zipIdx_append, List.filterMap_append, Nat.zero_add, ← count]
      exact congrArg₂ _ origin origin'
    · rw [List.filterMap_append, ← deeds]
      exact deeds'
    · intro d member
      have there : d.trip ∈
          ((((start latency randomness).after earlier).calls ++ new).map Dispatch.trip) :=
        trips ▸ List.mem_map_of_mem member
      obtain ⟨before, old, same⟩ := List.mem_map.mp there
      have origin := congrArg Prod.fst same
      have flight : before.flight = d.flight := congrArg Prod.snd same
      have call : before.call = d.call := congrArg (·.2.2) origin
      have at' : before.made = d.made := congrArg (·.1) origin
      rw [Dispatch.GoesBy, ← call, ← flight, ← at', List.length_append]
      rcases List.mem_append.mp old with old | old
      · obtain ⟨early, goes⟩ := made before old
        refine ⟨Nat.lt_succ_of_lt early, ?_⟩
        rw [List.take_append_of_le_length (Nat.le_of_lt early)]
        exact goes
      · obtain ⟨now, goes⟩ := goes before old
        rw [now, count, List.take_left]
        exact ⟨Nat.lt_succ_self _, goes⟩

end Origins

/-! ### What the end of a call touches -/

section Settlements

variable {t : Traffic}

/-- A call that has ended touches no table but the one of the station to which it has been
delivered, and is counted as what it is. -/
structure Settles (t next : Traffic) (d : Dispatch) : Prop where
  /-- All other tables stay. -/
  tables : ∀ number, (d.delivered = true → d.flight.landing ≠ .station number) →
    next.world.tables[number]? = t.world.tables[number]?
  /-- It is counted if it has been delivered. -/
  delivered : next.world.simulated.delivered =
    t.world.simulated.delivered + if d.delivered then 1 else 0
  /-- It is counted if it has been refused. -/
  dropped : next.world.simulated.dropped =
    t.world.simulated.dropped + if d.refused then 1 else 0

/-- Every call that ends on the way from one moment to another settles. -/
def Settled (t next : Traffic) : Prop :=
  ∀ (index : Nat) (d : Dispatch) (reply : Reply String),
    t.calls[index]?.bind Dispatch.reply = none → next.calls[index]? = some d →
      d.reply = some reply → Settles t next d

/-- No call has ended. -/
theorem Settled.of_calls {next : Traffic} (same : next.calls = t.calls) : Settled t next := by
  intro index d reply before here ended
  rw [← same, here] at before
  exact nomatch before.symm.trans ended

/-- A call that ends settles. -/
theorem Sound.settled_finish (sound : t.Sound) {index : Nat} {d : Dispatch}
    {reply : Reply String} {w : World} (here : t.calls[index]? = some d) (pending : d.reply = none)
    (ends : t.world.Ends d.flight reply w) : Settled t (t.finish index d reply w) := by
  intro other next ended before there after
  change (t.calls.set index _)[other]? = some next at there
  by_cases same : index = other
  · subst same
    rw [List.getElem?_set_self (List.getElem?_eq_some_iff.mp here).1] at there
    cases there
    obtain ⟨-, -, -, number, bound, -⟩ := sound.waiting here pending
    obtain ⟨nodes, -, -, delivered, dropped, outcome⟩ := sound.ends_spec here pending bound ends
    have unrefused : ({ d with reply := some reply } : Dispatch).refused = false := by
      rcases outcome with ⟨fault, rfl | rfl, rfl⟩ | ⟨n, -, rfl⟩ <;> rfl
    refine ⟨fun other apart => ?_, delivered, ?_⟩
    · change w.tables[other]? = _
      rw [World.tables, World.tables, nodes, Dispatch.events, bound, replay_append, tables_closing]
      split
      · next told =>
        have apart : number ≠ other := fun same => apart told (by rw [← same]; exact bound)
        rw [replay, List.foldl_cons, List.foldl_nil, Event.apply, List.getElem?_map,
          List.getElem?_modify, List.getElem?_map]
        simp [apart]
      · rfl
    · rw [unrefused]
      exact dropped
  · rw [List.getElem?_set_ne same] at there
    rw [there] at before
    exact nomatch before.symm.trans after

/-- A call that goes on settles when it ends. -/
theorem Sound.settled_resume (sound : t.Sound) (index : Nat) (fired : Bool) :
    Settled t (t.resume index fired) := by
  rcases resume_cases t index fired with same | ⟨d, reply, w, here, pending, ends, same⟩
  · rw [same]
    exact .of_calls rfl
  · rw [same]
    exact sound.settled_finish here pending ends

/-- A call that is given up settles. -/
theorem Sound.settled_abandon (sound : t.Sound) (index : Nat) : Settled t (t.abandon index) := by
  rcases abandon_cases t index with same | ⟨d, reply, w, here, pending, ends, same⟩
  · rw [same]
    exact .of_calls rfl
  · rw [same]
    exact sound.settled_finish here pending ends

/-- A call that is made settles when it ends at once. -/
theorem Sound.settled_call (sound : t.Sound) (caller : Peer) (call : Call String) (fired : Bool) :
    Settled t (t.act (.call caller call fired)) := by
  cases reached : t.world.reach? call.callee.id with
  | none =>
    obtain ⟨d, -, rfl, rfl, turned, reply, acted⟩ :=
      call_refused sound.simulates caller call fired reached
    rw [acted]
    intro index next ended before there after
    obtain ⟨-, simulated⟩ := sound.simulates.onSimulated fun s =>
      { s with dropped := s.dropped + 1 }
    have stations := World.stations_onSimulated t.world fun s =>
      { s with dropped := s.dropped + 1 }
    rcases Nat.lt_or_ge index t.calls.length with old | new
    · rw [List.getElem?_append_left old] at there
      rw [there] at before
      exact nomatch before.symm.trans after
    · rw [List.getElem?_append_right new] at there
      obtain rfl := List.mem_singleton.mp (List.mem_of_getElem? there)
      refine ⟨fun number _ => ?_, ?_, ?_⟩
      · rw [World.tables, World.tables, World.nodes, World.nodes, stations]
      · rw [simulated, Dispatch.delivered, reply]
        rfl
      · rw [simulated, Dispatch.refused, reply]
        rfl
  | some number =>
    obtain ⟨d, -, rfl, rfl, bound, caller, request, reply, sent⟩ :=
      call_sent sound.simulates caller call reached
    have there := World.lt_of_runs (World.reach?_eq_some_iff.mp reached).2.1
    have nodes : (t.world.addVisitor number).nodes = t.world.nodes := by
      refine World.map_modify_of_same (fun s => ?_) t.world number
      rfl
    have onWay := sound.sent there bound caller request reply
    have settled := onWay.settled_resume t.calls.length fired
    rw [Traffic.act, sent]
    intro index next ended before there after
    obtain ⟨tables, delivered, dropped⟩ := settled index next ended (by
      rcases Nat.lt_or_ge index t.calls.length with old | new
      · rwa [List.getElem?_append_left old]
      · rw [List.getElem?_append_right new]
        cases index - t.calls.length with
        | zero => exact reply
        | succ _ => rfl) there after
    refine ⟨fun other apart => ?_, delivered, dropped⟩
    rw [tables other apart, World.tables, nodes, World.tables]

/-- A call that ends in a move settles. -/
theorem Sound.settled (sound : t.Sound) (m : Move) : Settled t (t.move m) := by
  have acted : Settled t (t.act m) := by
    cases m with
    | call caller call fired => exact sound.settled_call caller call fired
    | resume index fired => exact sound.settled_resume index fired
    | abandon index => exact sound.settled_abandon index
    | spawn self boot config =>
      refine .of_calls ?_
      rw [Traffic.act]
      split <;> rfl
    | pass ms | release number | setOffline id | setOnline id | work number change =>
      exact .of_calls rfl
  intro index d reply before here ended
  obtain ⟨tables, delivered, dropped⟩ := acted index d reply before here ended
  exact ⟨tables, delivered, dropped⟩

end Settlements

/-- A station runs while somebody holds it or a call is on its way to it. -/
theorem Sound.runs_iff {t : Traffic} (sound : t.Sound) (number : Nat) :
    t.world.runs number = true ↔ ∃ s, t.world.station? number = some s ∧
      (s.held = true ∨ ∃ d ∈ t.calls, d.boundFor number = true) := by
  have counted (s : Station) (here : t.world.station? number = some s) :
      s.visitors = t.calls.countP (·.boundFor number) := by
    refine sound.guests number s.visitors ?_
    rw [World.guests, List.getElem?_map, Array.getElem?_toList]
    exact congrArg (Option.map _) here
  constructor
  · intro runs
    obtain ⟨s, here, runs⟩ := World.exists_of_runs runs
    rw [Station.runs, Bool.or_eq_true, decide_eq_true_iff] at runs
    refine ⟨s, here, runs.imp_right fun some => ?_⟩
    rw [counted s here] at some
    exact List.countP_pos_iff.mp some
  · rintro ⟨s, here, needed⟩
    rw [World.runs, here]
    show s.runs = true
    rw [Station.runs, Bool.or_eq_true, decide_eq_true_iff, counted s here]
    exact needed.imp_right List.countP_pos_iff.mpr

/-- Whatever happens on a network, of any latency, and in whatever order: the nodes are what the
events have made of them, and what they have done of their own is what the moves say. The calls are
those that have been made. A call that could not be delivered when it was made, because no station
was registered for the callee, because that station no longer ran or because the callee was offline,
has failed as unreachable and is no message; a call that could be delivered is exactly one message
from its caller to that station if it has been delivered, which came before the answer, and no
message otherwise; and no message comes of a call that has not been made. Deliveries and refusals
are counted. A call that ends in the next move touches no table but the one it is delivered to, and
no counter but that of what it is. -/
theorem traffic_accounted (latency : Nat) (randomness : Randomness) (moves : List Move) :
    let t := (start latency randomness).after moves
    t.world.nodes = replay [] t.events ∧
      t.events.filterMap Event.deed? = moves.filterMap Move.deed? ∧
      t.calls.map Dispatch.origin = origins 0 moves ∧
      (∀ index d, t.calls[index]? = some d →
        let before := ((start latency randomness).after (moves.take d.made)).world
        match before.reach? d.call.callee.id with
        | none =>
          d.reply = some (.error (.unreachable (Simulated.label d.call.callee))) ∧
            Silent t.events index
        | some number =>
          d.refused = false ∧
            if d.delivered then Delivered t.events index d number else Silent t.events index) ∧
      (∀ index, t.calls.length ≤ index → Silent t.events index) ∧
      t.world.simulated.delivered = t.calls.countP (·.delivered) ∧
      t.world.simulated.dropped = t.calls.countP (·.refused) ∧
      (∀ id number, t.world.reach? id = some number ↔
        t.world.simulated.station? id = some number ∧ id ∉ t.world.simulated.offline ∧
          ∃ s, t.world.station? number = some s ∧
            (s.held = true ∨ ∃ d ∈ t.calls, d.boundFor number = true)) ∧
      ∀ m, Settled t (t.move m) := by
  intro t
  have sound : t.Sound := (Sound.start latency randomness).after moves
  obtain ⟨-, origin, deeds, made⟩ := made_after latency randomness moves
  refine ⟨sound.nodes, deeds, origin, fun index d here => ?_, sound.known, sound.delivered,
    sound.dropped, fun id number => ?_, sound.settled⟩
  · intro before
    obtain ⟨-, goes⟩ := made d (List.mem_of_getElem? here)
    rw [Dispatch.GoesBy] at goes
    cases reached : before.reach? d.call.callee.id with
    | none =>
      rw [reached] at goes
      cases sound.courses index d here with
      | refused silent _ reply => exact ⟨reply, silent⟩
      | waiting _ _ bound | delivered _ bound | abandoned _ _ _ bound =>
        exact nomatch goes.symm.trans bound
    | some number =>
      rw [reached] at goes
      cases sound.courses index d here with
      | refused _ turned _ => exact nomatch goes.symm.trans turned
      | waiting _ silent _ reply =>
        rw [Dispatch.refused, Dispatch.delivered, reply]
        exact ⟨rfl, silent⟩
      | abandoned _ fault silent _ own reply =>
        rw [Dispatch.refused, Dispatch.delivered, reply]
        rcases own with rfl | rfl <;> exact ⟨rfl, silent⟩
      | delivered other bound delivered =>
        obtain rfl : number = other := Landing.station.inj (goes.symm.trans bound)
        obtain ⟨_, _, _, n, _, _, _, _, reply⟩ := id delivered
        rw [Dispatch.refused, Dispatch.delivered, reply]
        exact ⟨rfl, delivered⟩
  · rw [World.reach?_eq_some_iff, sound.runs_iff]
    exact and_congr_right fun _ => and_comm

end Traffic

end Overlay
