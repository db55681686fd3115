import Overlay.Lookup.Run

/-!
# Discovery walks

A walk explores the network around a target one query at a time and hands out every new node
as soon as it is known. Each query goes to the closest node known that has been neither asked
nor found cooling down. Queries come in rounds of a fixed width, and a walk ends after its
last round, when nobody is left to ask, or when it has handed out enough and the last rounds
brought nothing closer. Nothing is asked while a node is left to hand out.
-/
namespace Overlay

/-- The state of a walk. -/
structure Walk (α : Type) where
  /-- The identifier around which the network is explored. -/
  target : Id
  /-- The parameters of the walk. -/
  limits : WalkConfig
  /-- Nodes to be asked, closest first. -/
  frontier : List (Contact α)
  /-- The identifiers ever seen. -/
  seen : List Id
  /-- The identifiers ever asked, latest first. -/
  asked : List Id
  /-- The node whose reply the walk waits for. -/
  awaiting : Option (Contact α)
  /-- Queries left in this round. -/
  roundLeft : Nat
  /-- Nodes to be handed out, in order. -/
  ready : List (Contact α)
  /-- Number of rounds begun. -/
  rounds : Nat
  /-- Rounds in a row, up to the last one closed, that brought nothing closer. -/
  stalled : Nat
  /-- The smallest distance seen. -/
  closest : Option Distance
  /-- This round has brought something closer. -/
  improved : Bool
  /-- Number of nodes handed out. -/
  yielded : Nat
  /-- No further query will be made. -/
  done : Bool
  deriving Repr

namespace Walk

variable {α : Type}

/-- The distance is smaller than every one seen. -/
def isCloser (w : Walk α) (d : Distance) : Bool :=
  match w.closest with
  | none => true
  | some best => decide (d < best)

/-- A walk of a node from the contacts it knows closest to the target. -/
def start (n : Node α) (target : Id) : Walk α :=
  let seeds := n.seeds target n.config.k
  { target := target
    limits := n.config.walk
    frontier := Contact.sortByDistance target seeds
    seen := (seeds.map (·.id)).reverse
    asked := []
    awaiting := none
    roundLeft := 0
    ready := []
    rounds := 0
    stalled := 0
    closest := seeds.head?.map fun c => target.distance c.id
    improved := false
    yielded := 0
    done := false }

/-- Record a node from an answer; a new one is to be asked and, unless it is the home node
itself, to be handed out. -/
def offer (w : Walk α) (home : Id) (c : Contact α) : Walk α :=
  if w.seen.contains c.id then w
  else
    let d := w.target.distance c.id
    let better := w.isCloser d
    { w with
      seen := c.id :: w.seen
      frontier := Contact.insertByDistance w.target c w.frontier
      closest := if better then some d else w.closest
      improved := w.improved || better
      ready := if c.id = home then w.ready else w.ready ++ [c] }

/-- Drop nodes from the front of the queue that have been asked or are cooling down. -/
def prune (now : Nat) (asked : List Id) (cool : CoolDown) :
    List (Contact α) → List (Contact α) × CoolDown
  | [] => ([], cool)
  | c :: rest =>
    if asked.contains c.id then prune now asked cool rest
    else
      match cool.isCooling now c.id with
      | (true, cool) => prune now asked cool rest
      | (false, cool) => (c :: rest, cool)

/-- Close the round, if any: count it as stalled unless it brought something closer. -/
def closeRound (w : Walk α) : Walk α :=
  if w.rounds = 0 then w
  else { w with stalled := if w.improved then 0 else w.stalled + 1, improved := false }

/-- Enough nodes are known for handing out, and the last rounds brought nothing closer. -/
def isSated (w : Walk α) : Bool :=
  decide (0 < w.rounds) && decide (w.limits.minResults ≤ w.yielded + w.ready.length) &&
    decide (w.limits.stallRounds ≤ w.stalled)

/-- Close this round and begin the next, or end the walk. -/
def nextRound (w : Walk α) (now : Nat) (cool : CoolDown) : Walk α × CoolDown :=
  let w := w.closeRound
  if w.isSated || decide (w.limits.maxRounds ≤ w.rounds) then ({ w with done := true }, cool)
  else
    match prune now w.asked cool w.frontier with
    | ([], cool) => ({ w with frontier := [], done := true }, cool)
    | (frontier, cool) =>
      ({ w with
          frontier := frontier
          rounds := w.rounds + 1
          roundLeft := w.limits.roundWidth }, cool)

/-- The reply of a node has come, or the node itself has answered from its table. -/
def complete (w : Walk α) (now : Nat) (home : Id) (cool : CoolDown) (fired : Bool)
    (asked : Contact α) (reply : Reply α) : Walk α × CoolDown :=
  let w := { w with awaiting := none }
  match reply with
  | .ok contacts => (contacts.foldl (fun w c => w.offer home c) w, cool.clear asked.id)
  | .error fault =>
    if fired && fault.isCancelled then ({ w with done := true }, cool)
    else (w, cool.mark now asked.id)

/-- Ask the closest node that may be asked, or give up the rest of the round. -/
def ask (w : Walk α) (n : Node α) (now : Nat) (fired : Bool) : Turn α (Walk α) :=
  match prune now w.asked n.cool w.frontier with
  | ([], cool) => ⟨{ n with cool := cool }, { w with frontier := [], roundLeft := 0 }, none⟩
  | (c :: rest, cool) =>
    let w := { w with
      frontier := rest
      asked := c.id :: w.asked
      roundLeft := w.roundLeft - 1 }
    if c.id = n.id then
      let (w, cool) := w.complete now n.id cool fired c (.ok (n.neighbours w.target))
      ⟨{ n with cool := cool }, w, none⟩
    else
      ⟨{ n with cool := cool }, { w with awaiting := some c }, some (n.findCall c w.target)⟩

/-- The reply that the walk waits for has come. -/
def receive (w : Walk α) (n : Node α) (now : Nat) (fired : Bool) (asked : Contact α)
    (reply : Reply α) : Turn α (Walk α) :=
  let n := n.judge now fired asked reply
  let (w, cool) := w.complete now n.id n.cool fired asked reply
  ⟨{ n with cool := cool }, w, none⟩

end Walk

/-- A walk from which nodes are being pulled. -/
structure Pull (α : Type) where
  /-- The walk. -/
  walk : Walk α
  /-- The largest number of nodes still wanted; none means all. -/
  wanted : Option Nat
  /-- The nodes handed out so far. -/
  nodes : List (Contact α)
  /-- The walk has nothing left to hand out. -/
  ended : Bool
  deriving Repr

namespace Pull

variable {α : Type}

/-- Pull up to so many nodes from a walk. -/
def start (walk : Walk α) (wanted : Option Nat) : Pull α := ⟨walk, wanted, [], false⟩

/-- The walk has ended, or all nodes wanted have been handed out. -/
def isOver (p : Pull α) : Bool := p.ended || p.wanted == some 0

/-- Hand out a node. -/
def yield (p : Pull α) (c : Contact α) (rest : List (Contact α)) : Pull α :=
  { p with
    walk := { p.walk with ready := rest, yielded := p.walk.yielded + 1 }
    wanted := p.wanted.map (· - 1)
    nodes := p.nodes ++ [c] }

/-- One turn of the walk, or nothing when it can only wait. -/
def turn (p : Pull α) (n : Node α) (now : Nat) (fired : Bool) (reply : Option (Reply α)) :
    Option (Turn α (Pull α)) :=
  if p.isOver then none
  else
    match p.walk.awaiting, reply with
    | some _, none => none
    | some c, some r =>
      let t := p.walk.receive n now fired c r
      some ⟨t.node, { p with walk := t.next }, t.call⟩
    | none, _ =>
      match p.walk.ready with
      | c :: rest => some ⟨n, p.yield c rest, none⟩
      | [] =>
        if p.walk.done || fired then some ⟨n, { p with ended := true }, none⟩
        else if p.walk.roundLeft = 0 then
          let (walk, cool) := p.walk.nextRound now n.cool
          some ⟨{ n with cool := cool }, { p with walk := walk }, none⟩
        else
          let t := p.walk.ask n now fired
          some ⟨t.node, { p with walk := t.next }, t.call⟩

end Pull

end Overlay
