import Overlay.Bootstrap
import Overlay.Walk

/-!
# Activities

Whatever a node does over the network is an activity: a number of lines, each of which is
either able to make a turn or waiting, in phases that follow each other. A turn takes the time,
whether the caller has withdrawn, and the reply to the call that the line waits for; it gives
back the node and possibly another call. Nothing here depends on who replies, or when.
-/
namespace Overlay

/-- A single exchange. -/
inductive Single (α : Type) where
  /-- It has not been sent. -/
  | unsent
  /-- Its reply has not come. -/
  | sent
  /-- It is over. -/
  | over (reply : Reply α)

/-- What a node is doing over the network. -/
inductive Activity (α : Type) where
  /-- One call on behalf of nobody's table. -/
  | exchange (call : Call α) (state : Single α)
  /-- One query, whose end says something about the node asked. -/
  | query (asked : Contact α) (target : Id) (state : Single α)
  /-- A lookup. -/
  | lookup (run : LookupRun α)
  /-- Nodes pulled from a discovery walk. -/
  | pull (pull : Pull α)
  /-- A bootstrap. -/
  | bootstrap (b : Bootstrap α)
  /-- Bootstraps for ever: one under way. -/
  | upkeep (b : Bootstrap α)
  /-- Bootstraps for ever: a pause until this time. -/
  | pause (wakeAt : Nat)
  /-- The end of bootstrapping for ever. -/
  | withdrawn (fault : Fault)

namespace Activity

variable {α : Type}

/-- Number of lines of the present phase. -/
def lines : Activity α → Nat
  | exchange _ _ | query _ _ _ | pull _ => 1
  | lookup run => run.workers.length
  | bootstrap b | upkeep b => b.lines
  | pause _ | withdrawn _ => 0

/-- The activity is over. -/
def isOver : Activity α → Bool
  | exchange _ (.over _) | query _ _ (.over _) => true
  | exchange _ _ | query _ _ _ => false
  | lookup run => run.isOver
  | pull p => p.isOver
  | bootstrap b => b.result?.isSome
  | upkeep _ | pause _ => false
  | withdrawn _ => true

/-- The activity is over and has failed as a whole. -/
def isFailed : Activity α → Bool
  | bootstrap b =>
    match b.result? with
    | some (.error _) => true
    | _ => false
  | _ => false

/-- The time that the activity itself waits for. -/
def wakeAt? : Activity α → Option Nat
  | pause time => some time
  | _ => none

/-- One turn of a single query. -/
def turnQuery (asked : Contact α) (target : Id) (state : Single α) (n : Node α) (now : Nat)
    (fired : Bool) (reply : Option (Reply α)) : Option (Turn α (Activity α)) :=
  match state, reply with
  | .unsent, _ =>
    if asked.id = n.id then
      some ⟨n, query asked target (.over (.ok (n.neighbours target))), none⟩
    else some ⟨n, query asked target .sent, some (n.findCall asked target)⟩
  | .sent, some r => some ⟨n.judge now fired asked r, query asked target (.over r), none⟩
  | _, _ => none

/-- One turn of a line, or nothing when it can only wait. -/
def turn (a : Activity α) (n : Node α) (now : Nat) (fired : Bool) (line : Nat)
    (reply : Option (Reply α)) : Option (Turn α (Activity α)) :=
  match a with
  | exchange call state =>
    match state, reply with
    | .unsent, _ => some ⟨n, exchange call .sent, some call⟩
    | .sent, some r => some ⟨n, exchange call (.over r), none⟩
    | _, _ => none
  | query asked target state => turnQuery asked target state n now fired reply
  | lookup run =>
    (run.turn n now fired line reply).map fun t => ⟨t.node, lookup t.next, t.call⟩
  | pull p => (p.turn n now fired reply).map fun t => ⟨t.node, pull t.next, t.call⟩
  | bootstrap b =>
    (b.turn n now fired line reply).map fun t => ⟨t.node, bootstrap t.next, t.call⟩
  | upkeep b =>
    (b.turn n now fired line reply).map fun t => ⟨t.node, upkeep t.next, t.call⟩
  | pause _ | withdrawn _ => none

/-- Begin the next phase, if there is one and the present one is over. -/
def proceed (a : Activity α) (n : Node α) (now : Nat) (fired : Bool) (draw : Id) :
    Option (Activity α) :=
  match a with
  | bootstrap b => (b.proceed n fired draw).map bootstrap
  | upkeep b =>
    match b.result? with
    | some (.error fault) => some (withdrawn fault)
    | some (.ok _) => some (pause (now + n.config.refreshInterval))
    | none => (b.proceed n fired draw).map upkeep
  | pause time =>
    if fired then some (withdrawn .cancelled)
    else if time ≤ now then some (upkeep (.start n))
    else none
  | _ => none

end Activity

end Overlay
