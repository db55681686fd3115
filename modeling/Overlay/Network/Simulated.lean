import Overlay.Network.Flight

/-!
# Simulated networks

A simulated network carries requests between stations, each of which runs a node. Nodes are
registered by identifier and can be taken offline. Whether a request can be delivered is
decided when it is sent; a request that can is delivered after the latency of the network,
unless its sender stops waiting before. Delivered and undeliverable requests are counted.
-/
namespace Overlay

/-- The registry and the counters of a simulated network. -/
structure Simulated where
  /-- Milliseconds between sending and delivery. -/
  latency : Nat
  /-- The station of each registered identifier, latest registration first. -/
  registry : List (Id × Nat)
  /-- The identifiers taken offline. -/
  offline : List Id
  /-- Number of requests delivered. -/
  delivered : Nat
  /-- Number of requests that could not be delivered. -/
  dropped : Nat
  deriving Repr

namespace Simulated

/-- A network without nodes. -/
def empty (latency : Nat) : Simulated := ⟨latency, [], [], 0, 0⟩

/-- The station that an identifier is registered for. -/
def station? (s : Simulated) (id : Id) : Option Nat :=
  (s.registry.find? fun e => e.1 = id).map (·.2)

/-- Register a station; it takes the place of an earlier one of the same identifier. -/
def register (s : Simulated) (id : Id) (station : Nat) : Simulated :=
  { s with registry := (id, station) :: s.registry.filter fun e => e.1 ≠ id }

/-- Take a node offline. -/
def setOffline (s : Simulated) (id : Id) : Simulated :=
  if s.offline.contains id then s else { s with offline := id :: s.offline }

/-- Bring a node back. -/
def setOnline (s : Simulated) (id : Id) : Simulated :=
  { s with offline := s.offline.erase id }

/-- A node is registered and has not been taken offline. -/
def isOnline (s : Simulated) (id : Id) : Bool :=
  (s.station? id).isSome && !s.offline.contains id

/-- How a peer is shown: its name and its short identifier. -/
def label (peer : Peer) : String := peer.info ++ "(" ++ peer.id.short ++ ")"

/-- The station that takes requests for an identifier now, given which stations still run. -/
def target? (s : Simulated) (runs : Nat → Bool) (id : Id) : Option Nat :=
  (s.station? id).filter fun number => runs number && !s.offline.contains id

/-- Send a request. -/
def send (s : Simulated) (runs : Nat → Bool) (now : Nat) (caller : Peer)
    (call : Call String) : Flight × Simulated :=
  let deadline := call.limit.map (now + ·)
  match s.target? runs call.callee.id with
  | some number =>
    (⟨caller, call.request, some (now + s.latency), deadline, .station number⟩, s)
  | none =>
    let reply := .error (.unreachable (label call.callee))
    (⟨caller, call.request, some now, deadline, .reply reply⟩,
      { s with dropped := s.dropped + 1 })

end Simulated

end Overlay
