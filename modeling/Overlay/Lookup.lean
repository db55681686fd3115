import Overlay.Exchange

/-!
# What a lookup knows

A lookup looks for the `width` nodes closest to a target. Every node it sees enters the
frontier, the queue of nodes to be asked, and the pool, from which it leaves only when its
query fails; both stand in ascending distance to the target. The lookup has converged when the
pool holds `width` nodes and the last `patience` completed queries brought none into the first
`width` of it.
-/
namespace Overlay

/-- The state that the workers of a lookup share. -/
structure Lookup (α : Type) where
  /-- The identifier looked for. -/
  target : Id
  /-- Number of nodes looked for. -/
  width : Nat
  /-- Completed queries in a row without improvement that end the lookup. -/
  patience : Nat
  /-- Nodes seen and not yet asked, closest first. -/
  frontier : List (Contact α)
  /-- The identifiers ever seen. -/
  seen : List Id
  /-- The identifiers ever asked, latest first. -/
  asked : List Id
  /-- Nodes seen whose query has not failed, closest first. -/
  pool : List (Contact α)
  /-- Number of queries that have not completed. -/
  inFlight : Nat
  /-- Completed queries since the last improvement. -/
  stale : Nat
  /-- Number of queries. -/
  queries : Nat
  /-- Number of failed queries. -/
  failures : Nat
  /-- The lookup has stopped by convergence. -/
  converged : Bool
  deriving Repr

/-- What a worker has to do next. -/
inductive Lookup.Next (α : Type) where
  /-- Ask this node. -/
  | ask (c : Contact α)
  /-- Wait for a query in flight. -/
  | wait
  /-- Stop. -/
  | stop
  deriving Repr

namespace Lookup

variable {α : Type}

/-- Record a node; tells whether it is new and among the `width` closest of the pool. -/
def discover (l : Lookup α) (c : Contact α) : Bool × Lookup α :=
  if l.seen.contains c.id then (false, l)
  else
    let closer := (l.pool.filter fun p => l.target.closer p.id c.id).length
    (decide (closer < l.width),
      { l with
        frontier := Contact.insertByDistance l.target c l.frontier
        seen := c.id :: l.seen
        pool := Contact.insertByDistance l.target c l.pool })

/-- Record nodes in order; tells whether any of them improved the pool. -/
def discoverAll (l : Lookup α) (contacts : List (Contact α)) : Bool × Lookup α :=
  contacts.foldl
    (fun (improved, l) c =>
      let (better, l) := l.discover c
      (improved || better, l))
    (false, l)

/-- A lookup that knows its seeds. -/
def start (target : Id) (width patience : Nat) (seeds : List (Contact α)) : Lookup α :=
  (discoverAll
    { target := target, width := width, patience := patience, frontier := [], seen := [],
      asked := [], pool := [], inFlight := 0, stale := 0, queries := 0, failures := 0,
      converged := false }
    seeds).2

/-- The `width` closest nodes that have not failed. -/
def closest (l : Lookup α) : List (Contact α) := l.pool.take l.width

/-- The pool is wide enough and has not improved for long enough. -/
def hasConverged (l : Lookup α) : Bool :=
  decide (l.width ≤ l.pool.length) && decide (l.patience ≤ l.stale)

/-- Take the next task of a worker: the closest node not yet asked, unless the lookup has
converged. With no node left a worker waits for the queries in flight. -/
def next (l : Lookup α) : Next α × Lookup α :=
  if l.hasConverged then (.stop, { l with converged := true })
  else
    match l.frontier with
    | c :: rest =>
      (.ask c,
        { l with
          frontier := rest
          asked := c.id :: l.asked
          inFlight := l.inFlight + 1
          queries := l.queries + 1 })
    | [] => if l.inFlight = 0 then (.stop, l) else (.wait, l)

/-- A query has completed. A withdrawn one leaves no trace; a failed one takes its node out of
the pool. -/
def complete (l : Lookup α) (fired : Bool) (asked : Contact α) (reply : Reply α) : Lookup α :=
  let l := { l with inFlight := l.inFlight - 1 }
  match reply with
  | .ok contacts =>
    let (improved, l) := l.discoverAll contacts
    { l with stale := if improved then 0 else l.stale + 1 }
  | .error fault =>
    if fired && fault.isCancelled then l
    else
      { l with
        failures := l.failures + 1
        stale := l.stale + 1
        pool := l.pool.filter fun c => c.id ≠ asked.id }

end Lookup

end Overlay
