import Overlay.Schedule

/-!
# Operations

An operation is an activity of one station carried out to its end while everything else in the
world goes its way. Each gives back its result and the world after it, or nothing when its
budget runs out or nothing can ever happen again.
-/
namespace Overlay.World

/-- Carry out an activity of a station. -/
def perform (budget : Nat) (w : World) (number : Nat) (token : Token)
    (activity : Node String → Activity String) : Option (Activity String × World) := do
  let (w, t) ← w.runTask budget (← Task.ofStation w number token activity)
  some (t.activity, w)

/-- Send one request on behalf of a peer, whatever node it may run. -/
def exchange (budget : Nat) (w : World) (caller callee : Peer) (token : Token)
    (request : Request) : Option (Reply String × World) := do
  let call : Call String := ⟨callee, request, none⟩
  let (w, t) ← w.runTask budget ⟨caller, none, token, .exchange call .unsent, []⟩
  match t.activity with
  | .exchange _ (.over reply) => some (reply, w)
  | _ => none

/-- Ask one node for the contacts it knows closest to a target. -/
def query (budget : Nat) (w : World) (number : Nat) (token : Token) (asked : Peer)
    (target : Id) : Option (Reply String × World) := do
  match ← w.perform budget number token fun _ => .query asked target .unsent with
  | (.query _ _ (.over reply), w) => some (reply, w)
  | _ => none

/-- Search the network for the `width` nodes closest to a target. -/
def lookup (budget : Nat) (w : World) (number : Nat) (token : Token) (target : Id)
    (width : Nat) : Option (Lookup String × World) := do
  match ← w.perform budget number token fun n => .lookup (.start n target width) with
  | (.lookup run, w) => some (run.lookup, w)
  | _ => none

/-- Search the network for as many nodes as are wanted, the parameter `k` by default. -/
def search (budget : Nat) (w : World) (number : Nat) (token : Token) (target : Id)
    (wanted : Option Nat) : Option (Lookup String × World) := do
  let s ← w.station? number
  w.lookup budget number token target (s.node.lookupWidth wanted)

/-- Search the network around a random identifier at this logarithmic distance. -/
def refresh (budget : Nat) (w : World) (number : Nat) (token : Token) (distance : Nat) :
    Option (Lookup String × World) := do
  let s ← w.station? number
  let (draw, randomness) := w.randomness.next
  { w with randomness := randomness }.search budget number token
    (s.node.id.atLogDistance distance draw) none

/-- Pull up to so many nodes from a walk of the station. -/
def pull (budget : Nat) (w : World) (number : Nat) (token : Token) (walk : Walk String)
    (wanted : Option Nat) : Option (Pull String × World) := do
  match ← w.perform budget number token fun _ => .pull (.start walk wanted) with
  | (.pull p, w) => some (p, w)
  | _ => none

/-- Pull up to so many nodes from a new walk around a target. -/
def discover (budget : Nat) (w : World) (number : Nat) (token : Token) (target : Id)
    (wanted : Option Nat) : Option (Pull String × World) := do
  let s ← w.station? number
  w.pull budget number token (.start s.node target) wanted

/-- Join the network. -/
def bootstrap (budget : Nat) (w : World) (number : Nat) (token : Token) :
    Option (Except Fault BootReport × World) := do
  match ← w.perform budget number token fun n => .bootstrap (.start n) with
  | (.bootstrap b, w) => (b.result?).map fun result => (result, w)
  | _ => none

/-- Join the network again and again, until the caller withdraws. -/
def upkeep (budget : Nat) (w : World) (number : Nat) (token : Token) :
    Option (Fault × World) := do
  match ← w.perform budget number token fun n => .upkeep (.start n) with
  | (.withdrawn fault, w) => some (fault, w)
  | _ => none

end Overlay.World
