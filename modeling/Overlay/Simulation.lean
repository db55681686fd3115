import Overlay.Decimal.Binary
import Overlay.Operation
import Overlay.Scenario

/-!
# Simulations

A simulation plays a scenario: it starts every node, bootstraps all of them together, takes
some offline, and then measures lookups and discovery walks, one after the other, each by a
random node that is online. The quality of a lookup is how many of the nodes it should have
found it did find, and whether its first answer was the closest node online.
-/
namespace Overlay

namespace World

/-- The registry and counters of a simulated network; another network has none. -/
def simulated (w : World) : Simulated :=
  match w.network with
  | .simulated s => s
  | .scripted _ => .empty 0

/-- The world with its simulated network changed. -/
def onSimulated (w : World) (f : Simulated → Simulated) : World :=
  match w.network with
  | .simulated s => { w with network := .simulated (f s) }
  | .scripted _ => w

/-- A simulated world without nodes. -/
def ofLatency (latency : Nat) (randomness : Randomness) : World :=
  ⟨0, .simulated (.empty latency), #[], randomness⟩

/-- Start a node on a simulated network and register it. -/
def spawn (w : World) (self : Peer) (boot : List Peer) (config : Config) :
    Except Complaint (Nat × World) :=
  match Node.create self boot config with
  | .error fault =>
    .error ⟨"Failed to create routing core for " ++ Simulated.label self, [fault.message]⟩
  | .ok n =>
    let (number, w) := w.addStation n
    .ok (number, w.onSimulated fun s => s.register self.id number)

end World

/-- What is said when the bootstrap of a node fails. -/
def bootComplaint (self : Peer) (fault : Fault) : Complaint :=
  ⟨"Bootstrap of " ++ Simulated.label self ++ " failed", [fault.message]⟩

/-- A scenario being played. -/
structure Simulation where
  /-- The scenario. -/
  scenario : Scenario
  /-- The nodes; each runs at the station of its position. -/
  peers : List Peer
  /-- The world. -/
  world : World

/-- What the bootstrap of all nodes has achieved. -/
structure BootSummary where
  /-- Number of nodes. -/
  nodes : Nat
  /-- Number of answers to the pings of contacts to start from. -/
  online : Nat
  /-- Number of contacts in each table. -/
  tableSizes : List Nat
  deriving DecidableEq, Repr

/-- The sum of some numbers. -/
def total (numbers : List Nat) : Nat := numbers.foldr (· + ·) 0

/-- The mean number of contacts in a table. -/
def BootSummary.meanTableSize (s : BootSummary) : Decimal.Binary :=
  .ofRatio (total s.tableSizes) (max 1 s.tableSizes.length)

/-- How one lookup went. -/
structure LookupMeasure where
  /-- Number of nodes that should have been found. -/
  expected : Nat
  /-- Those of them that were found. -/
  hits : Nat
  /-- The first node found is the closest one online, or neither exists. -/
  exact : Bool
  /-- Number of queries. -/
  queries : Nat
  /-- Number of failed queries. -/
  failures : Nat
  deriving DecidableEq, Repr

namespace LookupMeasure

/-- Compare the result of a lookup with the closest nodes online. -/
def of (expected : List Id) (l : Lookup String) : LookupMeasure :=
  let found := l.closest.map (·.id)
  { expected := expected.length
    hits := (expected.filter found.contains).length
    exact := found.head? == expected.head?
    queries := l.queries
    failures := l.failures }

/-- The share of the nodes that should have been found. -/
def overlap (m : LookupMeasure) : Decimal.Binary := .ofRatio m.hits (max 1 m.expected)

/-- The mean share of the nodes that should have been found; zero without a lookup. -/
def meanOverlap (ms : List LookupMeasure) : Decimal.Binary :=
  if ms.isEmpty then .zero
  else (ms.foldl (fun (sum : Decimal.Binary) m => sum.add m.overlap) .zero).divide ms.length

/-- The mean number of queries; zero without a lookup. -/
def meanQueries (ms : List LookupMeasure) : Decimal.Binary :=
  if ms.isEmpty then .zero else .ofRatio (total (ms.map (·.queries))) ms.length

/-- Number of lookups whose first node was the closest one online. -/
def exactCount (ms : List LookupMeasure) : Nat := (ms.filter (·.exact)).length

/-- Number of failed queries. -/
def failureCount (ms : List LookupMeasure) : Nat := total (ms.map (·.failures))

end LookupMeasure

/-- The results of a simulation. -/
structure SimulationReport where
  /-- The bootstrap. -/
  boot : BootSummary
  /-- Number of nodes taken offline. -/
  offline : Nat
  /-- The lookups, in order. -/
  lookups : List LookupMeasure
  /-- Number of nodes handed out by each discovery walk. -/
  walks : List Nat
  /-- Number of requests delivered. -/
  delivered : Nat
  /-- Number of requests that could not be delivered. -/
  dropped : Nat
  deriving DecidableEq, Repr

namespace Simulation

/-- The peer that a name stands for. -/
def peerOf (name : String) : Peer := ⟨Id.hashText name, name⟩

/-- The names of the nodes of a scenario, in order. -/
def names (s : Scenario) : List String :=
  (List.range s.network.nodes).map fun i =>
    "node-" ++ toString s.network.seed ++ "-" ++ toString i

/-- Start a node for each of these peers. -/
def spawnAll (w : World) (boot : List Peer) (config : Config) :
    List Peer → Except Complaint World
  | [] => .ok w
  | self :: rest => do
    let (_, w) ← w.spawn self boot config
    spawnAll w boot config rest

/-- Start all nodes of a scenario that can be played. -/
def build (s : Scenario) : Except Complaint Simulation := do
  s.validate
  let peers := (names s).map peerOf
  let world ← spawnAll (.ofLatency s.network.latency (.counter s.network.seed 0))
    (peers.take s.network.boot) s.node peers
  return ⟨s, peers, world⟩

/-- The nodes that are online, with their positions. -/
def online (sim : Simulation) : List (Peer × Nat) :=
  sim.peers.zipIdx.filter fun e => sim.world.simulated.isOnline e.1.id

/-- The identifiers of the `count` nodes online that are closest to a target. -/
def closestOnline (sim : Simulation) (target : Id) (count : Nat) : List Id :=
  ((Contact.sortByDistance target (sim.online.map (·.1))).take count).map (·.id)

/-- Take the next random identifier. -/
def draw (sim : Simulation) : Id × Simulation :=
  let (draw, randomness) := sim.world.randomness.next
  (draw, { sim with world := { sim.world with randomness := randomness } })

/-- The member of a list that a draw picks. -/
def pick {β : Type} (draw : Id) (items : List β) : Option β :=
  items[draw.word.toNat % items.length]?

/-- Draw so many distinct members of a list. -/
def choose (sim : Simulation) : Nat → List Peer → List Peer × Simulation
  | 0, _ => ([], sim)
  | count + 1, candidates =>
    let (draw, sim) := sim.draw
    match pick draw candidates with
    | none => ([], sim)
    | some peer =>
      let (others, sim) := sim.choose count (candidates.filter fun c => c.id ≠ peer.id)
      (peer :: others, sim)

/-- Take a share of the nodes that nobody starts from offline. -/
def applyChurn (sim : Simulation) : List Peer × Simulation :=
  let candidates := sim.peers.drop sim.scenario.network.boot
  let count := candidates.length * sim.scenario.network.churn / 100
  let (chosen, sim) := sim.choose count candidates
  (chosen, { sim with
    world := chosen.foldl (fun w c => w.onSimulated fun s => s.setOffline c.id) sim.world })

/-- Take all nodes offline. -/
def silence (sim : Simulation) : Simulation :=
  { sim with
    world := sim.peers.foldl (fun w c => w.onSimulated fun s => s.setOffline c.id) sim.world }

/-- Number of contacts in each table. -/
def tableSizes (sim : Simulation) : List Nat :=
  sim.world.stations.toList.map fun s => s.node.table.size

/-- How the bootstraps of a crew ended together: the first failure, or their reports. -/
def bootReports (peers : List Peer) (tasks : List Task) : Except Complaint (List BootReport) :=
  (peers.zip tasks).foldlM
    (fun reports (self, t) =>
      match t.activity with
      | .bootstrap b =>
        match b.result? with
        | some (.ok report) => .ok (reports ++ [report])
        | some (.error fault) => .error (bootComplaint self fault)
        | none => .ok reports
      | _ => .ok reports)
    []

/-- Bootstrap all nodes together. Without an answer when the budget runs out. -/
def bootstrapAll (budget : Nat) (token : Token) (sim : Simulation) :
    Option (Except Complaint (BootSummary × Simulation)) := do
  let tasks ← (List.range sim.peers.length).mapM fun number =>
    Task.ofStation sim.world number token fun n => .bootstrap (.start n)
  let (w, crew) ← sim.world.runCrew budget (.ofTasks tasks)
  let sim := { sim with world := w }
  match bootReports sim.peers crew.tasks.toList with
  | .error complaint => some (.error (complaint.within "Network bootstrap failed"))
  | .ok reports =>
    some (.ok (⟨reports.length, total (reports.map (·.online)), sim.tableSizes⟩, sim))

/-- Draw a random node that is online and a random target; nothing once the caller has
withdrawn or no node is online. -/
def drawErrand (token : Token) (sim : Simulation) : Option (Nat × Id) × Simulation :=
  if token.fired sim.world.now then (none, sim)
  else
    let (choice, sim) := sim.draw
    match pick choice sim.online with
    | none => (none, sim)
    | some (_, position) =>
      let (target, sim) := sim.draw
      (some (position, target), sim)

/-- Measure so many lookups of random identifiers by random nodes online. -/
def runLookups (budget : Nat) (token : Token) (sim : Simulation) :
    Nat → Option (List LookupMeasure × Simulation)
  | 0 => some ([], sim)
  | count + 1 =>
    match sim.drawErrand token with
    | (none, sim) => some ([], sim)
    | (some (position, target), sim) => do
      let expected := sim.closestOnline target sim.scenario.node.k
      let (found, w) ← sim.world.search budget position token target none
      let (later, sim) ← { sim with world := w }.runLookups budget token count
      some (.of expected found :: later, sim)

/-- Count what so many discovery walks around random identifiers hand out. -/
def runWalks (budget : Nat) (token : Token) (sim : Simulation) :
    Nat → Option (List Nat × Simulation)
  | 0 => some ([], sim)
  | count + 1 =>
    match sim.drawErrand token with
    | (none, sim) => some ([], sim)
    | (some (position, target), sim) => do
      let (p, w) ← sim.world.discover budget position token target none
      let (later, sim) ← { sim with world := w }.runWalks budget token count
      some (p.nodes.length :: later, sim)

/-- Do the work of the scenario. -/
def runWorkload (budget : Nat) (token : Token) (sim : Simulation) :
    Option ((List LookupMeasure × List Nat) × Simulation) := do
  let (lookups, sim) ← sim.runLookups budget token sim.scenario.workload.lookups
  let (walks, sim) ← sim.runWalks budget token sim.scenario.workload.walks
  some ((lookups, walks), sim)

/-- Play the whole scenario. -/
def run (budget : Nat) (token : Token) (sim : Simulation) :
    Option (Except Complaint SimulationReport) := do
  match ← sim.bootstrapAll budget token with
  | .error complaint => some (.error complaint)
  | .ok (boot, sim) =>
    let (offline, sim) := sim.applyChurn
    let ((lookups, walks), sim) ← sim.runWorkload budget token
    let s := sim.world.simulated
    some (.ok ⟨boot, offline.length, lookups, walks, s.delivered, s.dropped⟩)

end Simulation

end Overlay
