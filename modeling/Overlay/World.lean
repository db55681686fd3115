import Overlay.Activity
import Overlay.Network.Scripted
import Overlay.Network.Simulated

/-!
# Worlds

A world is a clock, a network, and the stations that run nodes on it. Everything that happens
in a world is one of a few moves: a request is sent, arrives or is given up; a task makes a
turn or begins a phase; a probe makes a turn; time passes. A station runs while somebody
holds it or a request is on its way to it, and no longer; its probes end with it.
-/
namespace Overlay

/-- Where random identifiers come from. -/
inductive Randomness where
  /-- Every draw is the same. -/
  | constant (draw : Id)
  /-- The draws are digests of a seed and a counter. -/
  | counter (seed count : Nat)
  /-- The draws are given, and so many of them have been taken. -/
  | stream (draws : Nat → Id) (count : Nat)

/-- The next draw. -/
def Randomness.next : Randomness → Id × Randomness
  | constant draw => (draw, constant draw)
  | counter seed count =>
    (Id.hashText (toString seed ++ "." ++ toString count), counter seed (count + 1))
  | stream draws count => (draws count, stream draws (count + 1))

/-- The network of a world. -/
inductive Network where
  /-- Replies are written down. -/
  | scripted (s : Scripted)
  /-- Replies come from the stations. -/
  | simulated (s : Simulated)

/-- A place where a node runs. -/
structure Station where
  /-- The node. -/
  node : Node String
  /-- The pings of its probes in flight, by number of the probe. -/
  pings : List (Nat × Flight)
  /-- Somebody holds the station. -/
  held : Bool
  /-- Number of requests on their way to it. -/
  visitors : Nat

/-- The station runs. -/
def Station.runs (s : Station) : Bool := s.held || decide (0 < s.visitors)

/-- A clock, a network, and its stations. -/
structure World where
  /-- Milliseconds since the beginning. -/
  now : Nat
  /-- The network. -/
  network : Network
  /-- The stations, in order of their numbers. -/
  stations : Array Station
  /-- Where random identifiers come from. -/
  randomness : Randomness

namespace World

/-- The station of a number. -/
def station? (w : World) (number : Nat) : Option Station := w.stations[number]?

/-- The world with one station changed. -/
def modify (w : World) (number : Nat) (f : Station → Station) : World :=
  { w with stations := w.stations.modify number f }

/-- The world with one node changed. -/
def setNode (w : World) (number : Nat) (n : Node String) : World :=
  w.modify number fun s => { s with node := n }

/-- A station of this number runs. -/
def runs (w : World) (number : Nat) : Bool :=
  match w.station? number with
  | some s => s.runs
  | none => false

/-- End the probes of a station that no longer runs. -/
def closeIfIdle (w : World) (number : Nat) : World :=
  w.modify number fun s => if s.runs then s else { s with node := s.node.close }

/-- One request more is on its way to a station. -/
def addVisitor (w : World) (number : Nat) : World :=
  w.modify number fun s => { s with visitors := s.visitors + 1 }

/-- One request less is on its way to a station. -/
def removeVisitor (w : World) (number : Nat) : World :=
  (w.modify number fun s => { s with visitors := s.visitors - 1 }).closeIfIdle number

/-- Nobody holds a station any longer. -/
def release (w : World) (number : Nat) : World :=
  (w.modify number fun s => { s with held := false }).closeIfIdle number

/-- A new station, held by its maker, with its number. -/
def addStation (w : World) (n : Node String) : Nat × World :=
  (w.stations.size, { w with stations := w.stations.push ⟨n, [], true, 0⟩ })

/-- Send a request. -/
def send (w : World) (caller : Peer) (call : Call String) : Flight × World :=
  match w.network with
  | .scripted s =>
    let (flight, s) := s.send w.now caller call
    (flight, { w with network := .scripted s })
  | .simulated s =>
    let (flight, s) := s.send w.runs w.now caller call
    let w := { w with network := .simulated s }
    match flight.landing with
    | .reply _ => (flight, w)
    | .station number => (flight, w.addVisitor number)

/-- Count a delivery. -/
def countDelivery (w : World) : World :=
  match w.network with
  | .scripted _ => w
  | .simulated s => { w with network := .simulated { s with delivered := s.delivered + 1 } }

/-- A station handles a request: it hears from the caller, then answers from its table. -/
def handle (w : World) (number : Nat) (caller : Peer) (request : Request) :
    Reply String × World :=
  match w.station? number with
  | none => (.error .cancelled, w)
  | some s =>
    let n := (s.node.heard w.now caller).2
    let contacts := match request with
      | .ping => []
      | .find target => n.neighbours target
    (.ok contacts, w.setNode number n)

/-- A request arrives. -/
def land (w : World) (f : Flight) : Reply String × World :=
  match f.landing with
  | .reply r => (r, w)
  | .station number =>
    let (reply, w) := w.countDelivery.handle number f.caller f.request
    (reply, w.removeVisitor number)

/-- The sender of a request has stopped waiting. -/
def giveUp (w : World) (f : Flight) : World :=
  match f.landing with
  | .reply _ => w
  | .station number => w.removeVisitor number

/-- How a request ends now, if it does, its sender having withdrawn or not. -/
def resolve (w : World) (f : Flight) (fired : Bool) : Option (Reply String × World) :=
  match f.status w.now fired with
  | .airborne => none
  | .arrived => some (w.land f)
  | .lost fault => some (.error fault, w.giveUp f)

end World

/-- A caller's means of withdrawing: the time at which it does, if ever. -/
abbrev Token := Option Nat

/-- The caller has withdrawn by now. -/
def Token.fired (token : Token) (now : Nat) : Bool := Flight.due token now

/-- An activity on behalf of a peer, with its requests in flight. -/
structure Task where
  /-- On whose behalf. -/
  caller : Peer
  /-- The station whose node the activity works on, if any. -/
  owner : Option Nat
  /-- The caller's means of withdrawing. -/
  token : Token
  /-- The activity. -/
  activity : Activity String
  /-- The requests in flight, by line. -/
  flights : List (Nat × Flight)

namespace Task

/-- The task of a station to carry out an activity. -/
def ofStation (w : World) (number : Nat) (token : Token)
    (activity : Node String → Activity String) : Option Task :=
  (w.station? number).map fun s =>
    ⟨s.node.self, some number, token, activity s.node, []⟩

/-- The node that the task works on; a task without a station has one of no consequence. -/
def node? (t : Task) (w : World) : Option (Node String) :=
  match t.owner with
  | some number => (w.station? number).map (·.node)
  | none => some (.bare t.caller {})

/-- Put the node that the task works on back into the world. -/
def putBack (t : Task) (w : World) (n : Node String) : World :=
  match t.owner with
  | some number => w.setNode number n
  | none => w

/-- A line that waits for no request, or whose request has ended, makes a turn. -/
def turnWith (t : Task) (w : World) (line : Nat) (reply : Option (Reply String)) :
    Option (World × Task) := do
  let n ← t.node? w
  let turn ← t.activity.turn n w.now (t.token.fired w.now) line reply
  let w := t.putBack w turn.node
  let t := { t with activity := turn.next }
  match turn.call with
  | none => some (w, t)
  | some call =>
    let (flight, w) := w.send t.caller call
    some (w, { t with flights := (line, flight) :: t.flights })

/-- A line makes a turn, unless it can only wait. -/
def turn (t : Task) (w : World) (line : Nat) : Option (World × Task) :=
  match t.flights.lookup line with
  | none => t.turnWith w line none
  | some flight => do
    let (reply, w) ← w.resolve flight (t.token.fired w.now)
    { t with flights := t.flights.filter fun e => e.1 ≠ line }.turnWith w line (some reply)

/-- The activity begins its next phase, if it can. -/
def proceed (t : Task) (w : World) : Option (World × Task) := do
  let n ← t.node? w
  let (draw, randomness) := w.randomness.next
  let activity ← t.activity.proceed n w.now (t.token.fired w.now) draw
  some ({ w with randomness := randomness }, { t with activity := activity })

/-- The times at which the task may be able to go on. -/
def times (t : Task) : List Nat :=
  t.token.toList ++ t.activity.wakeAt?.toList ++ t.flights.flatMap (·.2.times)

end Task

namespace World

/-- A probe of a station ends without a verdict, its ping given up. -/
def abandonProbe (w : World) (number serial : Nat) (s : Station) : World :=
  let w := match s.pings.lookup serial with
    | some flight => w.giveUp flight
    | none => w
  w.modify number fun s =>
    { s with
      node := { s.node with monitor := s.node.monitor.abandon serial }
      pings := s.pings.filter fun e => e.1 ≠ serial }

/-- The ping of a probe has ended. -/
def endProbe (w : World) (number serial : Nat) (reply : Reply String) : World :=
  w.modify number fun s =>
    { s with
      node := { s.node with monitor := s.node.monitor.pinged w.now serial reply }
      pings := s.pings.filter fun e => e.1 ≠ serial }

/-- The delay of a probe is over. A ping that ends at once ends the probe in the same turn. -/
def wakeProbe (w : World) (number serial : Nat) (s : Station) : World :=
  let (call, monitor) := s.node.monitor.wake w.now serial
  let w := w.setNode number { s.node with monitor := monitor }
  match call with
  | none => w
  | some call =>
    let (flight, w) := w.send s.node.self call
    match w.resolve flight false with
    | some (reply, w) => w.endProbe number serial reply
    | none => w.modify number fun s => { s with pings := (serial, flight) :: s.pings }

/-- A probe of a station makes a turn, unless it can only wait. -/
def turnProbe (w : World) (number : Nat) (p : Probe String) : Option World := do
  let s ← w.station? number
  if s.node.monitor.closed then some (w.abandonProbe number p.serial s)
  else
    match p.phase with
    | .delayed time => if time ≤ w.now then some (w.wakeProbe number p.serial s) else none
    | .pinging =>
      let flight ← s.pings.lookup p.serial
      let (reply, w) ← w.resolve flight false
      some (w.endProbe number p.serial reply)

/-- The probes of all stations, with the number of the station; the one that has waited longest
first. -/
def probes (w : World) : List (Nat × Probe String) :=
  let all := (List.range w.stations.size).flatMap fun number =>
    match w.station? number with
    | some s => s.node.monitor.probes.map fun p => (number, p)
    | none => []
  all.mergeSort fun a b => decide (a.2.since ≤ b.2.since)

/-- The first probe that can make a turn makes it. -/
def turnProbes (w : World) : Option World :=
  w.probes.findSome? fun (number, p) => w.turnProbe number p

/-- The times at which a probe may be able to go on. -/
def probeTimes (w : World) : List Nat :=
  w.stations.toList.flatMap fun s =>
    s.node.monitor.probes.filterMap (fun p =>
      match p.phase with
      | .delayed time => some time
      | .pinging => none) ++ s.pings.flatMap (·.2.times)

end World

end Overlay
