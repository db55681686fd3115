import Overlay.Complaint
import Overlay.Config

/-!
# Scenarios

A scenario describes a simulated network, the work to be done on it, and the parameters of its
nodes.
-/
namespace Overlay

/-- The shape of a simulated network. -/
structure NetworkShape where
  /-- Number of nodes. -/
  nodes : Nat := 64
  /-- So many nodes, the first ones, are what every node starts from. -/
  boot : Nat := 3
  /-- Milliseconds between sending and delivery. -/
  latency : Nat := 5
  /-- Percentage of the other nodes that are taken offline after the bootstrap. -/
  churn : Nat := 0
  /-- Seed of names and random choices. -/
  seed : Nat := 1
  deriving DecidableEq, Repr

/-- The work to be done once the network is up. -/
structure Workload where
  /-- Number of lookups of random identifiers. -/
  lookups : Nat := 20
  /-- Number of discovery walks around random identifiers. -/
  walks : Nat := 5
  deriving DecidableEq, Repr

/-- A simulated network and the work to be done on it. -/
structure Scenario where
  /-- The network. -/
  network : NetworkShape := {}
  /-- The work. -/
  workload : Workload := {}
  /-- The parameters of the nodes. -/
  node : Config := {}
  deriving DecidableEq, Repr

/-- Why a scenario cannot be played. -/
inductive Scenario.Problem where
  /-- There is no node. -/
  | noNodes
  /-- There are more nodes to start from than nodes. -/
  | tooManyBoot (boot nodes : Nat)
  /-- More than all nodes are to be taken offline. -/
  | churnAboveAll
  /-- No node can work with the parameters. -/
  | node (problem : Config.Problem)
  deriving DecidableEq, Repr

/-- What is said about each problem. -/
def Scenario.Problem.complaint : Scenario.Problem → Complaint
  | .noNodes => ⟨"network.nodes must be at least 1", []⟩
  | .tooManyBoot boot nodes =>
    ⟨"network.boot_nodes (" ++ toString boot ++ ") exceeds network.nodes (" ++
      toString nodes ++ ")", []⟩
  | .churnAboveAll => ⟨"network.churn_percent must be at most 100", []⟩
  | .node problem =>
    ⟨"Invalid dht configuration", [(Fault.invalidConfig problem.message).message]⟩

namespace Scenario

open Settings (Layout Document)

/-- The shape of the network as it is written. -/
def networkLayout : List (Layout NetworkShape) := [
  .number "nodes" Config.max64 (·.nodes) fun n s => { s with nodes := n },
  .number "boot_nodes" Config.max64 (·.boot) fun n s => { s with boot := n },
  .number "latency_ms" Config.max64 (·.latency) fun n s => { s with latency := n },
  .number "churn_percent" 255 (·.churn) fun n s => { s with churn := n },
  .number "seed" Config.max64 (·.seed) fun n s => { s with seed := n }]

/-- The work as it is written. -/
def workloadLayout : List (Layout Workload) := [
  .number "lookups" Config.max64 (·.lookups) fun n w => { w with lookups := n },
  .number "discoveries" Config.max64 (·.walks) fun n w => { w with walks := n }]

/-- A scenario as it is written. -/
def layout : List (Layout Scenario) := [
  .group "network"
    (Layout.withinAll (·.network) (fun f s => { s with network := f s.network }) networkLayout),
  .group "workload"
    (Layout.withinAll (·.workload) (fun f s => { s with workload := f s.workload })
      workloadLayout),
  .group "dht" (Layout.withinAll (·.node) (fun f s => { s with node := f s.node }) Config.layout)]

/-- Read a scenario; what is not given keeps its default. -/
def read (positional : Bool) (doc : Document) : Option Scenario :=
  Layout.read positional doc {} (.group "" layout)

/-- The whole scenario in its written order. -/
def write (s : Scenario) : Document := Layout.write s (.group "" layout)

/-- The first reason why the scenario cannot be played. -/
def problem? (s : Scenario) : Option Problem :=
  if s.network.nodes = 0 then some .noNodes
  else if s.network.nodes < s.network.boot then
    some (.tooManyBoot s.network.boot s.network.nodes)
  else if 100 < s.network.churn then some .churnAboveAll
  else s.node.problem?.map .node

/-- Refuses a scenario that cannot be played. -/
def validate (s : Scenario) : Except Complaint Unit :=
  match s.problem? with
  | some problem => .error problem.complaint
  | none => .ok ()

end Scenario

end Overlay
