import Overlay.Draw
import Overlay.Lookup.Run

/-!
# Bootstraps

A node fills its table in three phases: it pings the contacts it starts from, looks up its own
identifier, and then looks up a random identifier in every bucket that holds a contact by
then. Contacts that do not answer are counted and are no error; only its caller can make a
bootstrap fail, by withdrawing it. Between two phases the caller is asked once.
-/
namespace Overlay

/-- What a bootstrap has achieved. -/
structure BootReport where
  /-- Number of contacts to start from. -/
  boot : Nat
  /-- Those of them that answered their ping. -/
  online : Nat
  /-- Number of nodes that the lookup of the own identifier found. -/
  found : Nat
  /-- Number of buckets refreshed. -/
  refreshed : Nat
  deriving DecidableEq, Repr

/-- The ping of a contact to start from. -/
inductive BootPing (α : Type) where
  /-- It has not been sent. -/
  | unsent (c : Contact α)
  /-- Its reply has not come. -/
  | sent (c : Contact α)
  /-- It is over; the contact did or did not answer. -/
  | over (online : Bool)
  deriving DecidableEq, Repr

/-- The phase of a bootstrap. -/
inductive BootPhase (α : Type) where
  /-- The contacts to start from are being pinged. -/
  | pinging (pings : List (BootPing α))
  /-- The own identifier is being looked up. -/
  | searching (run : LookupRun α)
  /-- A bucket is being refreshed; these buckets follow. -/
  | refreshing (run : LookupRun α) (left : List (Region α))
  /-- The bootstrap is over. -/
  | finished (result : Except Fault BootReport)
  deriving Repr

/-- A bootstrap under way. -/
structure Bootstrap (α : Type) where
  /-- What it has achieved so far. -/
  report : BootReport
  /-- What it is doing. -/
  phase : BootPhase α
  deriving Repr

namespace Bootstrap

variable {α : Type}

/-- The bootstrap of a node, before its first ping. -/
def start (n : Node α) : Bootstrap α :=
  ⟨⟨n.boot.length, 0, 0, 0⟩, .pinging (n.boot.map .unsent)⟩

/-- How the bootstrap ended. -/
def result? (b : Bootstrap α) : Option (Except Fault BootReport) :=
  match b.phase with
  | .finished r => some r
  | _ => none

/-- Number of lines of this phase. -/
def lines (b : Bootstrap α) : Nat :=
  match b.phase with
  | .pinging pings => pings.length
  | .searching run | .refreshing run _ => run.workers.length
  | .finished _ => 0

/-- The lookup that refreshes a bucket: of an identifier that keeps the bucket's path. -/
def refreshRun (n : Node α) (region : Region α) (draw : Id) : LookupRun α :=
  .start n (region.stem.withStem region.depth draw) (n.lookupWidth none)

/-- One turn of the ping on a line. -/
def turnPing (b : Bootstrap α) (pings : List (BootPing α)) (n : Node α) (now : Nat)
    (line : Nat) (reply : Option (Reply α)) : Option (Turn α (Bootstrap α)) :=
  let become (p : BootPing α) : Bootstrap α := { b with phase := .pinging (pings.set line p) }
  match pings[line]?, reply with
  | some (.unsent c), _ =>
    some ⟨n, become (.sent c), some ⟨c, .ping, some n.config.pingTimeout⟩⟩
  | some (.sent c), some (.ok _) => some ⟨(n.heard now c).2, become (.over true), none⟩
  | some (.sent _), some (.error _) => some ⟨n, become (.over false), none⟩
  | _, _ => none

/-- One turn of a line, or nothing when it can only wait. -/
def turn (b : Bootstrap α) (n : Node α) (now : Nat) (fired : Bool) (line : Nat)
    (reply : Option (Reply α)) : Option (Turn α (Bootstrap α)) :=
  match b.phase with
  | .pinging pings => b.turnPing pings n now line reply
  | .searching run =>
    (run.turn n now fired line reply).map fun t =>
      ⟨t.node, { b with phase := .searching t.next }, t.call⟩
  | .refreshing run left =>
    (run.turn n now fired line reply).map fun t =>
      ⟨t.node, { b with phase := .refreshing t.next left }, t.call⟩
  | .finished _ => none

/-- Refresh the first of these buckets, or finish with the report. -/
def refreshNext (n : Node α) (report : BootReport) (left : List (Region α)) (draw : Id) :
    Bootstrap α :=
  match left with
  | [] => ⟨report, .finished (.ok report)⟩
  | region :: later => ⟨report, .refreshing (refreshRun n region draw) later⟩

/-- Whether the ping is over. -/
def pingOver : BootPing α → Bool
  | .over _ => true
  | _ => false

/-- Begin the next phase, if every line of this one is over. -/
def proceed (b : Bootstrap α) (n : Node α) (fired : Bool) (draw : Id) :
    Option (Bootstrap α) :=
  let withdrawn : Bootstrap α := { b with phase := .finished (.error .cancelled) }
  match b.phase with
  | .pinging pings =>
    if pings.all pingOver then
      if fired then some withdrawn
      else
        let online := (pings.filter fun | .over answered => answered | _ => false).length
        some ⟨{ b.report with online := online },
          .searching (.start n n.id (n.lookupWidth none))⟩
    else none
  | .searching run =>
    if run.isOver then
      if fired then some withdrawn
      else
        let report := { b.report with found := run.lookup.closest.length }
        let left := n.table.regions.filter fun r => !r.bucket.isEmpty
        some (refreshNext n report left draw)
    else none
  | .refreshing run left =>
    if run.isOver then
      if fired then some withdrawn
      else
        let report := { b.report with refreshed := b.report.refreshed + 1 }
        some (refreshNext n report left draw)
    else none
  | .finished _ => none

end Bootstrap

end Overlay
