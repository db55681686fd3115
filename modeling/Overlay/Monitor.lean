import Overlay.Config
import Overlay.Exchange
import Overlay.Recency
import Overlay.Table

/-!
# Keeping a routing table alive

The monitor turns signs of life into changes of the routing table. A node heard from is stored
or moves to the front; a node that fails often enough in a row is removed; and when a bucket
has no room, its stalest contact is probed after a delay, so that a dead one makes room. A
probe is pending while its contact is in `refreshing`; a message from the contact ends the
need for it. Probes are numbered, and each is moved on by the two events `wake` and `pinged`.
-/
namespace Overlay

/-- What a probe is waiting for. -/
inductive Probe.Phase where
  /-- The end of the delay, at this time. -/
  | delayed (wakeAt : Nat)
  /-- The reply to its ping. -/
  | pinging
  deriving DecidableEq, Repr

/-- A check of the stalest contact of a full bucket. -/
structure Probe (α : Type) where
  /-- The number of the probe. -/
  serial : Nat
  /-- The contact as it stood when the bucket was found full. -/
  contact : Contact α
  /-- What the probe is waiting for. -/
  phase : Probe.Phase
  /-- Since when. -/
  since : Nat
  deriving DecidableEq, Repr

/-- A routing table with what is known about the liveness of its contacts. -/
structure Monitor (α : Type) where
  /-- The parameters of the node. -/
  config : Config
  /-- The routing table. -/
  table : Table α
  /-- Failures in a row, by node. -/
  failures : Recency Nat
  /-- The contacts that wait for a probe to settle whether they are alive. -/
  refreshing : List Id
  /-- The probes under way, the one that has waited longest first. -/
  probes : List (Probe α)
  /-- Number of probes ever started. -/
  started : Nat
  /-- No probe may go on. -/
  closed : Bool
  deriving Repr

namespace Monitor

variable {α : Type}

/-- A monitor of an empty table. -/
def new (home : Id) (config : Config) : Monitor α where
  config := config
  table := .withDepth home config.k config.maxSplitDepth
  failures := .empty config.failureCacheSize
  refreshing := []
  probes := []
  started := 0
  closed := false

/-- A probe of this contact is pending. -/
def isRefreshing (m : Monitor α) (id : Id) : Bool := m.refreshing.contains id

/-- Failures in a row of a node. -/
def failureCount (m : Monitor α) (id : Id) : Nat := (m.failures.peek? id).getD 0

/-- Start a probe of a contact that is not the home and has none pending. -/
def startProbe (m : Monitor α) (now : Nat) (c : Contact α) : Monitor α :=
  if c.id = m.table.home || m.isRefreshing c.id then m
  else
    { m with
      refreshing := c.id :: m.refreshing
      probes := m.probes ++ [⟨m.started, c, .delayed (now + m.config.probeDelay), now⟩]
      started := m.started + 1 }

/-- A message from a node has come in: its failures are forgotten, no probe of it is needed,
and it is offered to the table. A full bucket has its stalest contact probed. -/
def heard (m : Monitor α) (now : Nat) (c : Contact α) : Outcome × Monitor α :=
  let (offer, table) := m.table.add c
  let m := { m with
    failures := m.failures.erase c.id
    refreshing := m.refreshing.erase c.id
    table := table }
  match offer.stalest with
  | some stalest => (offer.outcome, m.startProbe now stalest)
  | none => (offer.outcome, m)

/-- A request to a node has failed. Enough failures in a row remove it from the table and
start its count anew. Tells whether it was removed. -/
def requestFailed (m : Monitor α) (id : Id) : Bool × Monitor α :=
  if id = m.table.home then (false, m)
  else
    let count := m.failureCount id + 1
    if count < m.config.failureThreshold then
      (false, { m with failures := m.failures.put id count })
    else
      let (removed, table) := m.table.remove id
      (removed, { m with failures := m.failures.erase id, table := table })

/-- The probe of this number. -/
def probe? (m : Monitor α) (serial : Nat) : Option (Probe α) :=
  m.probes.find? fun p => p.serial = serial

/-- The probe of this number has ended. -/
def dropProbe (m : Monitor α) (serial : Nat) : Monitor α :=
  { m with probes := m.probes.filter fun p => p.serial ≠ serial }

/-- A contact waits for a probe no longer. -/
def settled (m : Monitor α) (id : Id) : Monitor α :=
  { m with refreshing := m.refreshing.erase id }

/-- End a probe without a verdict. -/
def abandon (m : Monitor α) (serial : Nat) : Monitor α :=
  match m.probe? serial with
  | none => m
  | some p => (m.dropProbe serial).settled p.contact.id

/-- The delay of a probe is over. The probe ends if its contact spoke in the meantime or has
left the table; otherwise the contact is to be pinged, and the probe waits anew. -/
def wake (m : Monitor α) (now : Nat) (serial : Nat) : Option (Call α) × Monitor α :=
  match m.probe? serial with
  | none => (none, m)
  | some p =>
    if !m.isRefreshing p.contact.id then (none, m.dropProbe serial)
    else if !m.table.contains p.contact.id then (none, m.abandon serial)
    else
      (some ⟨p.contact, .ping, some m.config.pingTimeout⟩,
        { m with
          probes := (m.dropProbe serial).probes ++ [{ p with phase := .pinging, since := now }] })

/-- The ping of a probe has come to its end. A reply counts as a message from the contact; a
fault other than cancellation removes it from the table. -/
def pinged (m : Monitor α) (now : Nat) (serial : Nat) (reply : Reply α) : Monitor α :=
  match m.probe? serial with
  | none => m
  | some p =>
    match reply with
    | .ok _ => ((m.dropProbe serial).heard now p.contact).2
    | .error .cancelled => m.abandon serial
    | .error _ =>
      let id := p.contact.id
      { (m.dropProbe serial).settled id with
        table := (m.table.remove id).2
        failures := m.failures.erase id }

/-- No probe may go on from now. -/
def close (m : Monitor α) : Monitor α := { m with closed := true }

end Monitor

end Overlay
