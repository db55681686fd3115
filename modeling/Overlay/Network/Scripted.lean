import Overlay.Network.Flight

/-!
# Scripted networks

A scripted network says for every node how it behaves: which contacts it answers with, after
how long, and in what way it fails, if it does. A node may also answer with the contacts of a
common population that are closest to the target. Every request is logged when it is sent.
-/
namespace Overlay

/-- How the requests to a node end. -/
inductive Mode where
  /-- With an answer. -/
  | answers
  /-- The node cannot be reached. -/
  | offline
  /-- The node refuses. -/
  | refuses
  /-- The node reports a timeout. -/
  | timesOut
  /-- The node reports a cancellation. -/
  | cancels
  /-- Never. -/
  | hangs
  deriving DecidableEq, Repr

/-- How a node of a scripted network behaves. -/
structure Behaviour where
  /-- The contacts it answers with. -/
  neighbours : List Peer := []
  /-- If given, it answers instead with so many contacts closest to the target. -/
  nearest : Option Nat := none
  /-- Milliseconds before a request ends. -/
  latency : Nat := 0
  /-- The latency of pings, if it is another. -/
  pingLatency : Option Nat := none
  /-- How requests end. -/
  mode : Mode := .answers
  /-- How pings end, if in another way. -/
  pingMode : Option Mode := none
  deriving Repr

/-- Changes to a behaviour; what is not given stays. -/
structure Behaviour.Change where
  /-- The contacts it answers with. -/
  neighbours : Option (List Peer) := none
  /-- The number of closest contacts it answers with. -/
  nearest : Option Nat := none
  /-- The latency of requests. -/
  latency : Option Nat := none
  /-- The latency of pings. -/
  pingLatency : Option Nat := none
  /-- How requests end. -/
  mode : Option Mode := none
  /-- How pings end. -/
  pingMode : Option Mode := none
  deriving Repr

/-- The behaviour after the changes. -/
def Behaviour.change (b : Behaviour) (c : Behaviour.Change) : Behaviour where
  neighbours := c.neighbours.getD b.neighbours
  nearest := c.nearest.or b.nearest
  latency := c.latency.getD b.latency
  pingLatency := c.pingLatency.or b.pingLatency
  mode := c.mode.getD b.mode
  pingMode := c.pingMode.or b.pingMode

/-- A request that was sent. -/
structure LogEntry where
  /-- When it was sent. -/
  time : Nat
  /-- What was asked. -/
  request : Request
  /-- Who was asked. -/
  callee : Id
  deriving DecidableEq, Repr

/-- A network whose nodes behave as written down. -/
structure Scripted where
  /-- The behaviour of the nodes that have one of their own. -/
  behaviours : List (Id × Behaviour)
  /-- The behaviour of all others. -/
  fallback : Behaviour
  /-- The population from which closest contacts are taken. -/
  population : List Peer
  /-- The requests sent, in order. -/
  log : List LogEntry
  deriving Repr

namespace Scripted

/-- The behaviour of a node. -/
def behaviour (s : Scripted) (id : Id) : Behaviour :=
  match s.behaviours.find? fun e => e.1 = id with
  | some e => e.2
  | none => s.fallback

/-- Change the behaviour of a node. -/
def change (s : Scripted) (id : Id) (c : Behaviour.Change) : Scripted :=
  { s with
    behaviours := (id, (s.behaviour id).change c) :: s.behaviours.filter fun e => e.1 ≠ id }

/-- The contacts that a node answers with. -/
def contacts (s : Scripted) (b : Behaviour) (id target : Id) : List Peer :=
  match b.nearest with
  | none => b.neighbours
  | some count =>
    (Contact.sortByDistance target (s.population.filter fun c => c.id ≠ id)).take count

/-- The reply of a node that does not hang. -/
def reply (s : Scripted) (b : Behaviour) (mode : Mode) (callee : Peer) (request : Request) :
    Reply String :=
  match mode with
  | .answers | .hangs =>
    match request with
    | .ping => .ok []
    | .find target => .ok (s.contacts b callee.id target)
  | .offline => .error (.unreachable callee.id.short)
  | .refuses => .error (.rpc ("refused by " ++ callee.id.short))
  | .timesOut => .error .timeout
  | .cancels => .error .cancelled

/-- Send a request. -/
def send (s : Scripted) (now : Nat) (caller : Peer) (call : Call String) :
    Flight × Scripted :=
  let b := s.behaviour call.callee.id
  let (latency, mode) := match call.request with
    | .ping => (b.pingLatency.getD b.latency, b.pingMode.getD b.mode)
    | .find _ => (b.latency, b.mode)
  ({ caller := caller
     request := call.request
     arrives := if mode = .hangs then none else some (now + latency)
     deadline := call.limit.map (now + ·)
     landing := .reply (s.reply b mode call.callee call.request) },
   { s with log := s.log ++ [⟨now, call.request, call.callee.id⟩] })

/-- Log entries of one time: searches as they were sent, then pings by identifier. -/
def arrange (entries : List LogEntry) : List LogEntry :=
  entries.filter (·.request ≠ .ping) ++
    (entries.filter (·.request = .ping)).mergeSort fun a b => decide (a.callee ≤ b.callee)

/-- Log entries of one time by identifier, whatever was asked. -/
def arrangeById (entries : List LogEntry) : List LogEntry :=
  entries.mergeSort fun a b => decide (a.callee ≤ b.callee)

/-- The log in order of time, the entries of each time arranged. -/
def arrangeLog (arrange : List LogEntry → List LogEntry) (log : List LogEntry) :
    List LogEntry :=
  let times := (log.map (·.time)).eraseDups.mergeSort fun a b => decide (a ≤ b)
  times.flatMap fun t => arrange (log.filter (·.time = t))

end Scripted

end Overlay
