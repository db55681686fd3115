import Overlay.Proofs.Callees
import Overlay.Proofs.World

/-!
# What stays in a world

Requests are sent, arrive and are given up, tasks and probes make their turns; yet nobody is
registered, taken offline or let go, and every node keeps its name, its parameters and the contacts
it starts from. A node whose station is held keeps its probes going. All of this is the frame of a
world, and every move at an instant leaves it as it is.
-/
namespace Overlay

/-! ## Nodes -/

namespace Monitor

variable {α : Type}

/-- What of a monitor stays: its parameters, and whether its probes may go on. -/
def settings (m : Monitor α) : Config × Bool := (m.config, m.closed)

variable (m : Monitor α) (now : Nat)

/-- Starting a probe leaves the settings. -/
@[simp]
theorem settings_startProbe (c : Contact α) : (m.startProbe now c).settings = m.settings := by
  rcases m.startProbe_cases now c with same | ⟨-, -, started⟩
  · rw [same]
  · rw [started]
    rfl

/-- A message leaves the settings. -/
@[simp]
theorem settings_heard (c : Contact α) : (m.heard now c).2.settings = m.settings := by
  rcases m.heard_cases now c with ⟨-, heard⟩ | ⟨stalest, -, heard⟩
  · rw [heard]
    rfl
  · rw [heard, settings_startProbe]
    rfl

/-- A failure leaves the settings. -/
@[simp]
theorem settings_requestFailed (id : Id) : (m.requestFailed id).2.settings = m.settings := by
  unfold requestFailed
  split
  · rfl
  · dsimp only
    split <;> rfl

/-- Ending a probe leaves the settings. -/
@[simp]
theorem settings_abandon (serial : Nat) : (m.abandon serial).settings = m.settings := by
  unfold abandon
  split <;> rfl

/-- The end of a delay leaves the settings. -/
@[simp]
theorem settings_wake (serial : Nat) : (m.wake now serial).2.settings = m.settings := by
  cases known : m.probe? serial with
  | none => rw [(m.unknown_probe now serial known (.ok [])).2.1]
  | some p =>
    rcases wake_cases now known with ⟨-, woken⟩ | ⟨-, -, woken⟩ | ⟨-, -, woken⟩
    · rw [woken]
      rfl
    · rw [woken]
      exact settings_abandon ..
    · rw [woken]
      rfl

/-- The end of the ping of a probe leaves the settings. -/
@[simp]
theorem settings_pinged (serial : Nat) (reply : Reply α) :
    (m.pinged now serial reply).settings = m.settings := by
  cases known : m.probe? serial with
  | none => rw [(m.unknown_probe now serial known reply).2.2]
  | some p =>
    rcases pinged_cases now known reply with ⟨_, -, ended⟩ | ⟨-, ended⟩ | ⟨_, -, -, ended⟩
    · rw [ended, settings_heard]
      rfl
    · rw [ended]
      exact settings_abandon ..
    · rw [ended]
      rfl

end Monitor

/-- What of a node stays. -/
structure Node.Frame (α : Type) where
  /-- Its name. -/
  self : Contact α
  /-- The contacts it starts from. -/
  boot : List (Contact α)
  /-- Its parameters. -/
  config : Config
  /-- Whether its probes have ended for good. -/
  closed : Bool

namespace Node

variable {α : Type}

/-- What of the node stays. -/
def frame (n : Node α) : Frame α := ⟨n.self, n.boot, n.config, n.monitor.closed⟩

/-- A node of the same name with the same contacts to start from and the same settings has the same
frame. -/
theorem frame_eq {n next : Node α} (self : next.self = n.self) (boot : next.boot = n.boot)
    (settings : next.monitor.settings = n.monitor.settings) : next.frame = n.frame := by
  obtain ⟨config, closed⟩ := Prod.mk.inj settings
  rw [frame, frame, Node.config, Node.config, self, boot, config, closed]

/-- A message leaves the frame. -/
theorem frame_heard (n : Node α) (now : Nat) (c : Contact α) : (n.heard now c).2.frame = n.frame :=
  frame_eq rfl rfl (n.monitor.settings_heard now c)

/-- What a node goes through in a turn leaves its frame, if it keeps its name. -/
theorem Follows.frame {n next : Node α} {now : Nat} (follows : n.Follows now next)
    (self : next.self = n.self) : next.frame = n.frame := by
  refine frame_eq self follows.boot ?_
  rcases follows.monitor with same | ⟨c, same⟩ | ⟨id, same⟩
  · rw [same]
  · rw [same]
    exact n.monitor.settings_heard now c
  · rw [same]
    exact n.monitor.settings_requestFailed id

/-- The end of a query leaves the name of the node. -/
theorem self_judge (n : Node α) (now : Nat) (fired : Bool) (asked : Contact α) (reply : Reply α) :
    (n.judge now fired asked reply).self = n.self :=
  (n.judge_learns now fired asked reply).self

end Node

section Turns

variable {α : Type} {n : Node α} {now line : Nat} {fired : Bool} {reply : Option (Reply α)}

/-- A turn of a worker leaves the frame of the node. -/
theorem LookupRun.frame_turn {run : LookupRun α} {t : Turn α (LookupRun α)}
    (made : run.turn n now fired line reply = some t) : t.node.frame = n.frame := by
  refine (turn_reaches made).1.frame ?_
  unfold turn at made
  split at made
  · rw [(take_cases made).1]
  · obtain rfl := Option.some.inj made
    exact n.self_judge ..
  · cases made

/-- A turn of a walk leaves the frame of the node. -/
theorem Pull.frame_turn {p : Pull α} {t : Turn α (Pull α)}
    (made : p.turn n now fired reply = some t) : t.node.frame = n.frame := by
  refine (turn_reaches made).1.frame ?_
  unfold turn at made
  split at made
  · cases made
  · split at made
    · cases made
    · obtain rfl := Option.some.inj made
      exact n.self_judge ..
    · split at made
      · obtain rfl := Option.some.inj made
        rfl
      · split at made
        · obtain rfl := Option.some.inj made
          rfl
        · split at made
          · obtain rfl := Option.some.inj made
            rfl
          · obtain rfl := Option.some.inj made
            dsimp only
            unfold Walk.ask
            split
            · rfl
            · dsimp only
              split <;> rfl

/-- A turn of a bootstrap leaves the frame of the node. -/
theorem Bootstrap.frame_turn {b : Bootstrap α} {t : Turn α (Bootstrap α)}
    (made : b.turn n now fired line reply = some t) : t.node.frame = n.frame := by
  rcases turn_cases made with ⟨pings, -, moved⟩ | ⟨run, inner, next, -, moved, rfl, -⟩
  · rcases turnPing_cases moved with ⟨c, -, rfl⟩ | ⟨c, contacts, -, -, rfl⟩ | ⟨c, fault, -, -, rfl⟩
    · rfl
    · exact n.frame_heard now c
    · rfl
  · exact LookupRun.frame_turn moved

/-- A turn of an activity leaves the frame of the node. -/
theorem Activity.frame_turn {a : Activity α} {t : Turn α (Activity α)}
    (made : a.turn n now fired line reply = some t) : t.node.frame = n.frame := by
  unfold turn at made
  cases a with
  | exchange call state =>
    dsimp only at made
    split at made
    · obtain rfl := Option.some.inj made
      rfl
    · obtain rfl := Option.some.inj made
      rfl
    · cases made
  | query asked target state =>
    refine (turnQuery_reaches made).follows.frame ?_
    dsimp only [turnQuery] at made
    split at made
    · split at made <;> obtain rfl := Option.some.inj made <;> rfl
    · obtain rfl := Option.some.inj made
      exact n.self_judge ..
    · cases made
  | lookup run =>
    obtain ⟨inner, moved, rfl⟩ := Option.map_eq_some_iff.mp made
    exact LookupRun.frame_turn moved
  | pull p =>
    obtain ⟨inner, moved, rfl⟩ := Option.map_eq_some_iff.mp made
    exact Pull.frame_turn moved
  | bootstrap b =>
    obtain ⟨inner, moved, rfl⟩ := Option.map_eq_some_iff.mp made
    exact Bootstrap.frame_turn moved
  | upkeep b =>
    obtain ⟨inner, moved, rfl⟩ := Option.map_eq_some_iff.mp made
    exact Bootstrap.frame_turn moved
  | pause wakeAt => cases made
  | withdrawn fault => cases made

end Turns

/-! ## Worlds -/

/-- What of a station stays: what stays of its node, and whether it is held. The probes of a station
that is not held may end for good at any time. -/
def Station.frame (s : Station) : Node.Frame String × Bool :=
  ({ s.node.frame with closed := s.held && s.node.frame.closed }, s.held)

/-- A station with another node of the same frame has the same frame. -/
theorem Station.frame_eq {s next : Station} (node : next.node.frame = s.node.frame)
    (held : next.held = s.held) : next.frame = s.frame := by
  rw [frame, frame, node, held]

/-- A station whose monitor has the same settings has the same frame. -/
theorem Station.frame_monitor {s : Station} {m : Monitor String}
    (same : m.settings = s.node.monitor.settings) (pings : List (Nat × Flight)) :
    ({ s with node := { s.node with monitor := m }, pings := pings } : Station).frame = s.frame :=
  frame_eq (Node.frame_eq rfl rfl same) rfl

/-- What of a world stays at an instant. -/
structure World.Frame where
  /-- The time. -/
  now : Nat
  /-- Whether the network is a simulated one. -/
  simulated : Bool
  /-- Milliseconds between sending and delivery. -/
  latency : Nat
  /-- The station of each registered identifier. -/
  registry : List (Id × Nat)
  /-- The identifiers taken offline. -/
  offline : List Id
  /-- The stations, in order of their numbers. -/
  stations : List (Node.Frame String × Bool)

namespace World

/-- Whether the network is a simulated one. -/
def isSimulated (w : World) : Bool :=
  match w.network with
  | .simulated _ => true
  | .scripted _ => false

/-- What of the world stays at an instant. -/
def frame (w : World) : Frame :=
  ⟨w.now, w.isSimulated, w.simulated.latency, w.simulated.registry, w.simulated.offline,
    w.stations.toList.map Station.frame⟩

section Moves

variable {w w' : World} {number : Nat}

/-- In the same frame, a simulated network is still one. -/
theorem simulates_of_frame (same : w'.frame = w.frame) (simulates : w.Simulates) :
    w'.Simulates := by
  have kind : w'.isSimulated = w.isSimulated := congrArg (·.simulated) same
  rw [Simulates] at simulates
  rw [isSimulated, isSimulated, simulates] at kind
  rw [Simulates, simulated]
  cases network : w'.network with
  | simulated s => rfl
  | scripted s =>
    rw [network] at kind
    cases kind

/-- In the same frame, there are as many stations. -/
theorem size_of_frame (same : w'.frame = w.frame) : w'.stations.size = w.stations.size := by
  have stations : w'.frame.stations.length = w.frame.stations.length :=
    congrArg (·.stations.length) same
  simpa [frame] using stations

/-- A change of a station that leaves its frame leaves that of the world. -/
theorem frame_modify {f : Station → Station}
    (same : ∀ s, w.station? number = some s → (f s).frame = s.frame) :
    (w.modify number f).frame = w.frame := by
  have stations : (w.modify number f).stations.toList.map Station.frame =
      w.stations.toList.map Station.frame := by
    refine List.ext_getElem? fun i => ?_
    rw [List.getElem?_map, List.getElem?_map, Array.getElem?_toList, Array.getElem?_toList]
    refine (congrArg _ (w.station?_modify number i f)).trans ?_
    split
    · next here =>
      subst here
      rw [Option.map_map]
      exact Option.map_congr same
    · rfl
  rw [frame, stations]
  rfl

/-- Putting a node of the same frame in the place of another leaves the frame. -/
theorem frame_setNode {n : Node String}
    (same : ∀ s, w.station? number = some s → n.frame = s.node.frame) :
    (w.setNode number n).frame = w.frame :=
  frame_modify fun s here => Station.frame_eq (same s here) rfl

/-- A request more on its way leaves the frame. -/
theorem frame_addVisitor (w : World) (number : Nat) : (w.addVisitor number).frame = w.frame :=
  frame_modify fun _ _ => rfl

/-- A request less on its way leaves the frame: only stations that are not held end their probes. -/
theorem frame_removeVisitor (w : World) (number : Nat) :
    (w.removeVisitor number).frame = w.frame := by
  refine (frame_modify fun s _ => ?_).trans (frame_modify fun _ _ => rfl)
  split
  · rfl
  · next idle =>
    have released : s.held = false := by
      rw [Station.runs, Bool.or_eq_true, not_or] at idle
      exact Bool.eq_false_of_not_eq_true idle.1
    rw [Station.frame, Station.frame, released]
    rfl

/-- A change of the counters of the network leaves the frame. -/
theorem frame_onSimulated {f : Simulated → Simulated}
    (same : ∀ s : Simulated, (f s).latency = s.latency ∧ (f s).registry = s.registry ∧
      (f s).offline = s.offline) : (w.onSimulated f).frame = w.frame := by
  obtain ⟨now, network, stations, randomness⟩ := w
  cases network with
  | scripted s => rfl
  | simulated s =>
    obtain ⟨latency, registry, offline⟩ := same s
    simp only [frame, isSimulated, simulated, onSimulated, latency, registry, offline]

/-- Sending a request leaves the frame. -/
theorem frame_send (w : World) (caller : Peer) (call : Call String) :
    (w.send caller call).2.frame = w.frame := by
  obtain ⟨now, network, stations, randomness⟩ := w
  cases network with
  | scripted s => rfl
  | simulated s =>
    rcases send_cases (w := ⟨now, .simulated s, stations, randomness⟩) rfl caller call with
      ⟨number, -, sent⟩ | ⟨-, sent⟩
    · rw [sent]
      exact frame_addVisitor _ number
    · rw [sent]
      exact frame_onSimulated fun _ => ⟨rfl, rfl, rfl⟩

/-- Handling a request leaves the frame. -/
theorem frame_handle (w : World) (number : Nat) (caller : Peer) (request : Request) :
    (w.handle number caller request).2.frame = w.frame := by
  unfold handle
  split
  · rfl
  · next s here =>
    refine frame_setNode fun other there => ?_
    rw [← Option.some.inj (here.symm.trans there)]
    exact s.node.frame_heard w.now caller

/-- The arrival of a request leaves the frame. -/
theorem frame_land (w : World) (f : Flight) : (w.land f).2.frame = w.frame := by
  unfold land
  split
  · rfl
  · next number bound =>
    refine (frame_removeVisitor _ number).trans ((frame_handle _ _ _ _).trans ?_)
    rw [countDelivery_eq]
    exact frame_onSimulated fun _ => ⟨rfl, rfl, rfl⟩

/-- Giving up a request leaves the frame. -/
theorem frame_giveUp (w : World) (f : Flight) : (w.giveUp f).frame = w.frame := by
  unfold giveUp
  split
  · rfl
  · exact frame_removeVisitor w _

/-- The end of a request leaves the frame. -/
theorem frame_resolve {f : Flight} {fired : Bool} {reply : Reply String}
    (resolved : w.resolve f fired = some (reply, w')) : w'.frame = w.frame := by
  cases ends_of_resolve resolved with
  | lands => exact w.frame_land f
  | lost fault own => exact w.frame_giveUp f

end Moves

end World

/-! ## Tasks -/

namespace Task

variable {t t' : Task} {w w' : World} {line : Nat}

/-- Putting the node of a task back, with the same frame, leaves the frame of the world. -/
theorem frame_putBack {n next : Node String} (here : t.node? w = some n)
    (same : next.frame = n.frame) : (t.putBack w next).frame = w.frame := by
  unfold node? at here
  unfold putBack
  split
  · next number owner =>
    refine World.frame_setNode fun s there => ?_
    simp only [owner, there, Option.map_some, Option.some.injEq] at here
    rw [same, here]
  · rfl

/-- A turn of a line, with what has come of its request, leaves the frame of the world. -/
theorem frame_turnWith {reply : Option (Reply String)}
    (made : t.turnWith w line reply = some (w', t')) : w'.frame = w.frame := by
  unfold turnWith at made
  obtain ⟨n, here, made⟩ := Option.bind_eq_some_iff.mp made
  obtain ⟨turn, moved, made⟩ := Option.bind_eq_some_iff.mp made
  have back := frame_putBack here (Activity.frame_turn moved)
  split at made
  · cases made
    exact back
  · next call called =>
    cases made
    exact (World.frame_send _ t.caller call).trans back

/-- A turn of a line leaves the frame of the world. -/
theorem frame_turn (made : t.turn w line = some (w', t')) : w'.frame = w.frame := by
  unfold turn at made
  split at made
  · exact frame_turnWith made
  · next flight sent =>
    obtain ⟨⟨reply, after⟩, resolved, made⟩ := Option.bind_eq_some_iff.mp made
    exact (frame_turnWith made).trans (World.frame_resolve resolved)

/-- A new phase leaves the frame of the world. -/
theorem frame_proceed (made : t.proceed w = some (w', t')) : w'.frame = w.frame := by
  unfold proceed at made
  obtain ⟨n, here, made⟩ := Option.bind_eq_some_iff.mp made
  obtain ⟨activity, moved, made⟩ := Option.bind_eq_some_iff.mp made
  cases made
  rfl

end Task

/-! ## Probes -/

namespace World

section Probes

variable {w w' : World} {number serial : Nat}

/-- A probe that ends without a verdict leaves the frame. -/
theorem frame_abandonProbe (w : World) (number serial : Nat) (s : Station) :
    (w.abandonProbe number serial s).frame = w.frame := by
  unfold abandonProbe
  refine (frame_modify fun s _ => ?_).trans ?_
  · exact Station.frame_monitor (s.node.monitor.settings_abandon serial) _
  · split
    · exact w.frame_giveUp _
    · rfl

/-- The end of the ping of a probe leaves the frame. -/
theorem frame_endProbe (w : World) (number serial : Nat) (reply : Reply String) :
    (w.endProbe number serial reply).frame = w.frame :=
  frame_modify fun s _ =>
    Station.frame_monitor (s.node.monitor.settings_pinged w.now serial reply) _

/-- The end of a delay leaves the frame. -/
theorem frame_wakeProbe {s : Station} (here : w.station? number = some s) (serial : Nat) :
    (w.wakeProbe number serial s).frame = w.frame := by
  have woken : (w.setNode number
      { s.node with monitor := (s.node.monitor.wake w.now serial).2 }).frame = w.frame := by
    refine frame_setNode fun other there => ?_
    rw [← Option.some.inj (here.symm.trans there)]
    exact Node.frame_eq rfl rfl (s.node.monitor.settings_wake w.now serial)
  unfold wakeProbe
  dsimp only
  split
  · exact woken
  · next call called =>
    have sent := (frame_send (w.setNode number
      { s.node with monitor := (s.node.monitor.wake w.now serial).2 }) s.node.self call).trans woken
    split
    · next reply after resolved =>
      exact (frame_endProbe ..).trans ((frame_resolve resolved).trans sent)
    · refine (frame_modify fun _ _ => ?_).trans sent
      rfl

/-- A turn of a probe leaves the frame. -/
theorem frame_turnProbe {p : Probe String} (made : w.turnProbe number p = some w') :
    w'.frame = w.frame := by
  unfold turnProbe at made
  obtain ⟨s, here, made⟩ := Option.bind_eq_some_iff.mp made
  split at made
  · obtain rfl := Option.some.inj made
    exact frame_abandonProbe w number p.serial s
  · split at made
    · split at made
      · obtain rfl := Option.some.inj made
        exact frame_wakeProbe here p.serial
      · cases made
    · obtain ⟨flight, -, made⟩ := Option.bind_eq_some_iff.mp made
      obtain ⟨⟨reply, after⟩, resolved, made⟩ := Option.bind_eq_some_iff.mp made
      obtain rfl := Option.some.inj made
      exact (frame_endProbe ..).trans (frame_resolve resolved)

/-- The turn of the first probe that can make one leaves the frame. -/
theorem frame_turnProbes (made : w.turnProbes = some w') : w'.frame = w.frame := by
  unfold turnProbes at made
  obtain ⟨⟨number, p⟩, -, made⟩ := List.exists_of_findSome?_eq_some made
  exact frame_turnProbe made

end Probes

end World

end Overlay
