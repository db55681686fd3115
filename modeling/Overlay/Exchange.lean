import Overlay.Contact
import Overlay.Fault

/-!
# Exchanges between nodes

A node asks another either whether it is alive or for the nodes it knows closest to a target.
An activity of a node never waits by itself: it names the call it wants made, and is given the
reply in a later turn. The same activity therefore runs over any network and any order of
replies.
-/
namespace Overlay

/-- What one node asks another. -/
inductive Request where
  /-- Whether it is alive. -/
  | ping
  /-- The contacts it knows closest to a target. -/
  | find (target : Id)
  deriving DecidableEq, Repr

/-- What comes of a request: contacts, none for a ping, or a fault. -/
abbrev Reply (α : Type) := Except Fault (List (Contact α))

/-- A request to be sent. -/
structure Call (α : Type) where
  /-- The node to be asked. -/
  callee : Contact α
  /-- What to ask. -/
  request : Request
  /-- Milliseconds to wait for the reply, if there is a limit. -/
  limit : Option Nat
  deriving DecidableEq, Repr

end Overlay
