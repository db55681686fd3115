import Overlay.CoolDown
import Overlay.Monitor

/-!
# Nodes

A node is what it is called, its parameters, the contacts it starts from, its watched routing
table, and the nodes it leaves alone for a while. A node of a running network stands in its
own table, so buckets are divided around it and lookups can start from it; its host can
neither remove it there nor have its failures counted.
-/
namespace Overlay

/-- The state of one node. -/
structure Node (α : Type) where
  /-- The node itself. -/
  self : Contact α
  /-- The contacts it starts from, itself not among them. -/
  boot : List (Contact α)
  /-- Its routing table and what it knows about the liveness of its contacts. -/
  monitor : Monitor α
  /-- The nodes that failed it recently. -/
  cool : CoolDown
  deriving Repr

namespace Node

variable {α : Type}

/-- The identifier of the node. -/
def id (n : Node α) : Id := n.self.id

/-- The parameters of the node. -/
def config (n : Node α) : Config := n.monitor.config

/-- The routing table of the node. -/
def table (n : Node α) : Table α := n.monitor.table

/-- A node with an empty table, whatever its parameters. -/
def bare (self : Contact α) (config : Config) : Node α where
  self := self
  boot := []
  monitor := .new self.id config
  cool := .empty config.coolDown config.walk.coolDownSize

/-- A node that stands in its own table, if it can work with its parameters. Room is reserved for as
many contacts as `k` says and for the nodes that are remembered as failing or left alone; sizes for
which there can be no room are left out. -/
def create (self : Contact α) (boot : List (Contact α)) (config : Config) :
    Except Fault (Node α) :=
  match config.validate with
  | .error fault => .error fault
  | .ok () =>
    let n := bare self config
    .ok { n with
      boot := boot.filter fun c => c.id ≠ self.id
      monitor := { n.monitor with table := (n.table.add self).2 } }

/-- A message from a node has come in. -/
def heard (n : Node α) (now : Nat) (c : Contact α) : Outcome × Node α :=
  let (outcome, monitor) := n.monitor.heard now c
  (outcome, { n with monitor := monitor })

/-- A request to a node has failed; tells whether that removed it from the table. -/
def requestFailed (n : Node α) (id : Id) : Bool × Node α :=
  let (removed, monitor) := n.monitor.requestFailed id
  (removed, { n with monitor := monitor })

/-- Take a contact out of the table, whichever it is; tells whether it was there. -/
def forget (n : Node α) (id : Id) : Bool × Node α :=
  let (removed, table) := n.table.remove id
  (removed, { n with monitor := { n.monitor with table := table } })

/-- Take a contact other than the node itself out of the table. -/
def remove (n : Node α) (id : Id) : Bool × Node α :=
  if id = n.id then (false, n) else n.forget id

/-- Offer a contact to the table without taking it as a sign of life. -/
def put (n : Node α) (c : Contact α) : Outcome × Node α :=
  let (offer, table) := n.table.add c
  (offer.outcome, { n with monitor := { n.monitor with table := table } })

/-- The `k` contacts that the node knows closest to a target. There is room for so many, since the
buckets of the node have reserved as much. -/
def neighbours (n : Node α) (target : Id) : List (Contact α) :=
  n.table.closest target n.config.k none false

/-- The contacts that a search of the node starts from. Searches are for no more nodes than room can
be reserved for. -/
def seeds (n : Node α) (target : Id) (count : Nat) : List (Contact α) :=
  n.table.closest target count none false

/-- The width of a lookup asked for so many nodes, the parameter `k` by default; at least one. -/
def lookupWidth (n : Node α) (count : Option Nat) : Nat := max 1 (count.getD n.config.k)

/-- The call that asks a node for the contacts it knows closest to a target. -/
def findCall (n : Node α) (callee : Contact α) (target : Id) : Call α :=
  ⟨callee, .find target, some n.config.requestTimeout⟩

/-- What the end of a query says about the node asked: an answer is a sign of life and a fault
a failure, unless the caller has withdrawn the query. -/
def judge (n : Node α) (now : Nat) (fired : Bool) (asked : Contact α) (reply : Reply α) :
    Node α :=
  match reply with
  | .ok _ => (n.heard now asked).2
  | .error fault => if fired && fault.isCancelled then n else (n.requestFailed asked.id).2

/-- No probe of the node may go on from now. -/
def close (n : Node α) : Node α := { n with monitor := n.monitor.close }

end Node

end Overlay
