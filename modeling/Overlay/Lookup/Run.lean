import Overlay.Lookup
import Overlay.Node

/-!
# Running a lookup

A fixed number of workers share one lookup. A worker asks the closest node not yet asked, one
node at a time, and stops when the lookup has nothing left for it or its caller has withdrawn.
The node itself is answered from its own table; everyone else is asked over the network.
-/
namespace Overlay

/-- What a worker of a lookup is doing. -/
inductive Worker (α : Type) where
  /-- It looks for something to do. -/
  | idle
  /-- It waits for the reply of this node. -/
  | awaiting (asked : Contact α)
  /-- It has stopped. -/
  | stopped
  deriving DecidableEq, Repr

/-- It has stopped. -/
def Worker.isStopped {α : Type} : Worker α → Bool
  | .stopped => true
  | _ => false

/-- A lookup with its workers. -/
structure LookupRun (α : Type) where
  /-- What the workers share. -/
  lookup : Lookup α
  /-- What each worker is doing. -/
  workers : List (Worker α)
  deriving Repr

/-- What one turn of an activity comes to. -/
structure Turn (α β : Type) where
  /-- The node after the turn. -/
  node : Node α
  /-- The activity after the turn. -/
  next : β
  /-- The call to be made, whose reply belongs to the same line of the activity. -/
  call : Option (Call α)

namespace LookupRun

variable {α : Type}

/-- A lookup that knows its seeds, with all its `alpha` workers idle. -/
def ofSeeds (target : Id) (width patience alpha : Nat) (seeds : List (Contact α)) :
    LookupRun α where
  lookup := .start target width patience seeds
  workers := List.replicate alpha .idle

/-- A lookup of `width` nodes by a node, with all its workers idle. -/
def start (n : Node α) (target : Id) (width : Nat) : LookupRun α :=
  ofSeeds target width n.config.patience n.config.alpha (n.seeds target width)

/-- All workers have stopped. -/
def isOver (run : LookupRun α) : Bool := run.workers.all (·.isStopped)

/-- The run with one worker doing something else. -/
def setWorker (run : LookupRun α) (i : Nat) (w : Worker α) : LookupRun α :=
  { run with workers := run.workers.set i w }

/-- An idle worker takes up the next task. -/
def take (run : LookupRun α) (n : Node α) (fired : Bool) (i : Nat) :
    Option (Turn α (LookupRun α)) :=
  if fired then some ⟨n, run.setWorker i .stopped, none⟩
  else
    match run.lookup.next with
    | (.ask c, lookup) =>
      let run := { run with lookup := lookup }
      if c.id = n.id then
        let answer := .ok (n.neighbours lookup.target)
        some ⟨n, { run with lookup := lookup.complete fired c answer }, none⟩
      else some ⟨n, run.setWorker i (.awaiting c), some (n.findCall c lookup.target)⟩
    | (.wait, _) => none
    | (.stop, lookup) => some ⟨n, { run with lookup := lookup }.setWorker i .stopped, none⟩

/-- The reply that a worker waits for has come. -/
def receive (run : LookupRun α) (n : Node α) (now : Nat) (fired : Bool) (i : Nat)
    (asked : Contact α) (reply : Reply α) : Turn α (LookupRun α) :=
  ⟨n.judge now fired asked reply,
    { run with lookup := run.lookup.complete fired asked reply }.setWorker i .idle, none⟩

/-- One turn of worker `i`, or nothing when it can only wait. -/
def turn (run : LookupRun α) (n : Node α) (now : Nat) (fired : Bool) (i : Nat)
    (reply : Option (Reply α)) : Option (Turn α (LookupRun α)) :=
  match run.workers[i]?, reply with
  | some .idle, _ => run.take n fired i
  | some (.awaiting c), some r => some (run.receive n now fired i c r)
  | _, _ => none

end LookupRun

end Overlay
