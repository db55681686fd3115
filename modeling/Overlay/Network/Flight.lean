import Overlay.Exchange

/-!
# Requests in flight

A request in flight has a time at which its reply arrives, if it ever does, and a time at
which its sender gives up waiting. A reply that arrives no later than that counts; otherwise
the sender's own withdrawal, and then the deadline, ends the wait.
-/
namespace Overlay

/-- A node of a network as its peers know it: an identifier and a name or tag. -/
abbrev Peer := Contact String

/-- What happens when a request arrives. -/
inductive Landing where
  /-- This reply comes back. -/
  | reply (reply : Reply String)
  /-- The station of this number handles the request. -/
  | station (number : Nat)

/-- A request that has been sent. -/
structure Flight where
  /-- Who sent it. -/
  caller : Peer
  /-- What was asked. -/
  request : Request
  /-- When its reply arrives, if ever. -/
  arrives : Option Nat
  /-- When the sender gives up, if ever. -/
  deadline : Option Nat
  /-- What happens when it arrives. -/
  landing : Landing

/-- How a flight stands at some time. -/
inductive Flight.Status where
  /-- It is under way. -/
  | airborne
  /-- It has arrived. -/
  | arrived
  /-- Its sender has stopped waiting, for this reason. -/
  | lost (fault : Fault)
  deriving DecidableEq, Repr

namespace Flight

/-- The time given, if any, has come. -/
def due (time : Option Nat) (now : Nat) : Bool :=
  match time with
  | none => false
  | some t => decide (t ≤ now)

/-- How the flight stands now, its sender having withdrawn or not. -/
def status (f : Flight) (now : Nat) (fired : Bool) : Status :=
  if due f.arrives now then .arrived
  else if fired then .lost .cancelled
  else if due f.deadline now then .lost .timeout
  else .airborne

/-- The times at which the flight may change its status. -/
def times (f : Flight) : List Nat := f.arrives.toList ++ f.deadline.toList

end Flight

end Overlay
