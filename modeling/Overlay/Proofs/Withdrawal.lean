import Overlay.Proofs.Callees
import Overlay.Proofs.Lookup.Run

/-!
# Withdrawn searches

The caller of a search withdraws it, and its calls come to nothing. A worker of a lookup that
waits goes idle and an idle one stops, so that every line needs two turns at most; nothing that the
lookup has found or counted changes. A walk hands out what it holds, one node a turn, and ends.
Neither asks anybody again, and the node stays as it is.
-/
namespace Overlay

variable {α : Type}

/-- The reply, if one comes, is that the call has been cancelled. -/
def Calms (reply : Option (Reply α)) : Prop := ∀ came, reply = some came → came = .error .cancelled

section Turns

variable {n : Node α} {now line : Nat} {reply : Option (Reply α)}

/-- A withdrawn query leaves the node as it is. -/
theorem Node.judge_cancelled (n : Node α) (now : Nat) (asked : Contact α) :
    n.judge now true asked (.error .cancelled) = n := rfl

/-! ## Lookups -/

/-- Number of turns that a worker needs to stop. -/
def Worker.rank : Worker α → Nat
  | .awaiting _ => 2
  | .idle => 1
  | .stopped => 0

namespace LookupRun

/-- Number of turns that the worker of a line needs to stop, none if there is no such line. -/
def rank (run : LookupRun α) (line : Nat) : Nat := (run.workers[line]?.map Worker.rank).getD 0

/-- A lookup comes to nothing else than its end, these turns having been given to its lines. -/
structure Unwinds (run : LookupRun α) (turns : Nat → Nat) (last : LookupRun α) : Prop where
  /-- The result is the same. -/
  closest : last.lookup.closest = run.lookup.closest
  /-- No failure is counted. -/
  failures : last.lookup.failures = run.lookup.failures
  /-- There are as many workers. -/
  workers : last.workers.length = run.workers.length
  /-- Every turn brings its worker closer to its end. -/
  rank : ∀ line, last.rank line ≤ run.rank line - turns line

section Unwinds

variable {run next last : LookupRun α} {turns later : Nat → Nat}

/-- Nothing has happened. -/
theorem Unwinds.rest (run : LookupRun α) : run.Unwinds (fun _ => 0) run :=
  ⟨rfl, rfl, rfl, fun _ => Nat.le_refl _⟩

/-- Turns follow on turns. -/
theorem Unwinds.trans (first : run.Unwinds turns next) (second : next.Unwinds later last) :
    run.Unwinds (fun line => turns line + later line) last where
  closest := second.closest.trans first.closest
  failures := second.failures.trans first.failures
  workers := second.workers.trans first.workers
  rank line := by
    have early := first.rank line
    have late := second.rank line
    omega

/-- Fewer turns are counted than have been given. -/
theorem Unwinds.mono (unwinds : run.Unwinds turns last) (fewer : ∀ line, later line ≤ turns line) :
    run.Unwinds later last where
  closest := unwinds.closest
  failures := unwinds.failures
  workers := unwinds.workers
  rank line := by
    have rank := unwinds.rank line
    have less := fewer line
    omega

/-- No worker needs more than two turns. -/
theorem rank_le_two (run : LookupRun α) (line : Nat) : run.rank line ≤ 2 := by
  unfold rank
  cases run.workers[line]? with
  | none => exact Nat.zero_le 2
  | some worker =>
    show worker.rank ≤ 2
    unfold Worker.rank
    split <;> omega

/-- A lookup is over when every line has had two turns. -/
theorem Unwinds.isOver (unwinds : run.Unwinds turns last)
    (twice : ∀ line < run.workers.length, 2 ≤ turns line) : last.isOver = true := by
  apply List.all_eq_true.mpr
  intro worker member
  obtain ⟨line, here⟩ := List.getElem?_of_mem member
  have inside := (List.getElem?_eq_some_iff.mp here).1
  rw [unwinds.workers] at inside
  have zero : last.rank line = 0 := by
    have bound := unwinds.rank line
    have start := run.rank_le_two line
    have given := twice line inside
    omega
  rw [LookupRun.rank, here] at zero
  cases worker with
  | stopped => rfl
  | idle => cases zero
  | awaiting c => cases zero

/-- A worker that goes on to something with a lower rank. -/
theorem unwinds_set {lookup : Lookup α} {worker after : Worker α}
    (here : run.workers[line]? = some worker) (closest : lookup.closest = run.lookup.closest)
    (failures : lookup.failures = run.lookup.failures) (lower : after.rank < worker.rank) :
    run.Unwinds (fun other => if other = line then 1 else 0)
      ({ run with lookup := lookup }.setWorker line after) where
  closest := closest
  failures := failures
  workers := List.length_set
  rank other := by
    have inside := (List.getElem?_eq_some_iff.mp here).1
    by_cases own : other = line
    · subst own
      have last :
          ({ run with lookup := lookup }.setWorker other after).rank other = after.rank := by
        simp [LookupRun.rank, setWorker, inside]
      have before : run.rank other = worker.rank := by rw [LookupRun.rank, here]; rfl
      rw [last, before, if_pos rfl]
      omega
    · have same : ({ run with lookup := lookup }.setWorker line after).rank other =
          run.rank other := by
        simp [LookupRun.rank, setWorker, List.getElem?_set_ne (Ne.symm own)]
      rw [same, if_neg own]
      exact Nat.le_refl _

end Unwinds

/-- A turn of a withdrawn lookup calls nobody. -/
theorem turn_fired_call {run : LookupRun α} {t : Turn α (LookupRun α)}
    (made : run.turn n now true line reply = some t) : t.call = none := by
  unfold turn at made
  split at made
  · obtain rfl := Option.some.inj made
    rfl
  · obtain rfl := Option.some.inj made
    rfl
  · cases made

/-- A turn of a withdrawn lookup whose calls are cancelled brings its worker closer to its end, and
leaves the node as it is. -/
theorem turn_unwinds {run : LookupRun α} {t : Turn α (LookupRun α)}
    (made : run.turn n now true line reply = some t) (calm : Calms reply) :
    run.Unwinds (fun other => if other = line then 1 else 0) t.next ∧ t.node = n := by
  unfold turn at made
  split at made
  · next here =>
    obtain rfl := Option.some.inj made
    exact ⟨unwinds_set here rfl rfl Nat.zero_lt_one, rfl⟩
  · next c came here =>
    obtain rfl := Option.some.inj made
    obtain rfl := calm came rfl
    have landed := run.lookup.complete_withdrawn true c .cancelled rfl
    refine ⟨unwinds_set here ?_ ?_ Nat.one_lt_two, n.judge_cancelled now c⟩
    · rw [landed]
      rfl
    · rw [landed]
      rfl
  · cases made

/-- A worker that has not stopped can take its turn, with a reply if it waits for one. -/
theorem rank_eq_zero {run : LookupRun α} (stuck : run.turn n now true line reply = none)
    (due : (run.awaits line).isSome = true → reply.isSome = true) : run.rank line = 0 := by
  unfold turn at stuck
  cases here : run.workers[line]? with
  | none => rw [rank, here]; rfl
  | some worker =>
    cases worker with
    | stopped => rw [rank, here]; rfl
    | idle => simp [here, take] at stuck
    | awaiting c =>
      have waits : (run.awaits line).isSome = true := by
        rw [LookupRun.awaits, awaited_eq here]
        rfl
      obtain ⟨came, same⟩ := Option.isSome_iff_exists.mp (due waits)
      simp [here, same] at stuck

end LookupRun

/-! ## Walks -/

namespace Pull

/-- What the walk still holds, as far as it is wanted. -/
def rest (p : Pull α) : List (Contact α) :=
  match p.wanted with
  | none => p.walk.ready
  | some wanted => p.walk.ready.take wanted

/-- Number of turns that the walk needs to end. -/
def rank (p : Pull α) : Nat :=
  if p.isOver then 0 else (if p.walk.awaiting.isSome then 1 else 0) + p.rest.length + 1

/-- A walk comes to nothing else than handing out what it holds, so many turns having been given to
it. -/
structure Drains (p : Pull α) (turns : Nat) (last : Pull α) : Prop where
  /-- What was held is handed out in order. -/
  nodes : last.nodes ++ last.rest = p.nodes ++ p.rest
  /-- Every turn brings the walk closer to its end. -/
  rank : last.rank ≤ p.rank - turns

/-- A walk that has ended holds nothing. -/
def Tidy (p : Pull α) : Prop := p.ended = true → p.walk.ready = []

section Drains

variable {p next last : Pull α} {turns later : Nat}

/-- Nothing has happened. -/
theorem Drains.rest (p : Pull α) : p.Drains 0 p := ⟨rfl, Nat.le_refl _⟩

/-- Turns follow on turns. -/
theorem Drains.trans (first : p.Drains turns next) (second : next.Drains later last) :
    p.Drains (turns + later) last where
  nodes := second.nodes.trans first.nodes
  rank := by
    have early := first.rank
    have late := second.rank
    omega

/-- A walk needs no more turns than for a reply, the nodes that it holds and its end. -/
theorem rank_le (p : Pull α) : p.rank ≤ p.rest.length + 2 := by
  unfold rank
  split
  · exact Nat.zero_le _
  · split <;> omega

/-- A walk is over when it has had enough turns. -/
theorem Drains.isOver (drains : p.Drains turns last) (enough : p.rest.length + 2 ≤ turns) :
    last.isOver = true := by
  have bound := drains.rank
  have start := p.rank_le
  by_contra going
  rw [Pull.rank, if_neg going] at bound
  omega

/-- A walk that is over has handed out what it held, as far as it is wanted. -/
theorem Tidy.rest_eq_nil (tidy : p.Tidy) (finished : p.isOver = true) : p.rest = [] := by
  rw [Pull.isOver, Bool.or_eq_true] at finished
  unfold Pull.rest
  rcases finished with ended | enough
  · rw [tidy ended]
    split
    · rfl
    · exact List.take_nil
  · rw [eq_of_beq enough]
    rfl

end Drains

/-- What a turn of a walk comes to: the reply that it waits for comes, it hands out a node, it ends
with none left to hand out, or it goes on, unless it has been withdrawn. -/
theorem turn_cases {p : Pull α} {fired : Bool} {t : Turn α (Pull α)}
    (made : p.turn n now fired reply = some t) :
    p.isOver = false ∧
      ((∃ c came, p.walk.awaiting = some c ∧ reply = some came ∧
          t.node = (p.walk.receive n now fired c came).node ∧ t.call = none ∧
          t.next = { p with walk := (p.walk.receive n now fired c came).next }) ∨
        (p.walk.awaiting = none ∧ ∃ c later, p.walk.ready = c :: later ∧
          t = ⟨n, p.yield c later, none⟩) ∨
        (p.walk.awaiting = none ∧ p.walk.ready = [] ∧ t = ⟨n, { p with ended := true }, none⟩) ∨
        (fired = false ∧ ∃ walk, t.next = { p with walk := walk })) := by
  unfold turn at made
  split at made
  · cases made
  · next going =>
    refine ⟨by simpa using going, ?_⟩
    split at made
    · cases made
    · next c came waits =>
      obtain rfl := Option.some.inj made
      exact .inl ⟨c, came, waits, rfl, rfl, rfl, rfl⟩
    · next free =>
      split at made
      · next c later ready =>
        exact .inr (.inl ⟨free, c, later, ready, (Option.some.inj made).symm⟩)
      · next ready =>
        split at made
        · exact .inr (.inr (.inl ⟨free, ready, (Option.some.inj made).symm⟩))
        · next goes =>
          have kept : fired = false := by
            rw [Bool.or_eq_true, not_or] at goes
            simpa using goes.2
          split at made
          · obtain rfl := Option.some.inj made
            exact .inr (.inr (.inr ⟨kept, _, rfl⟩))
          · obtain rfl := Option.some.inj made
            exact .inr (.inr (.inr ⟨kept, _, rfl⟩))

/-- Only a walk that holds nothing ends. -/
theorem turn_tidy {p : Pull α} {fired : Bool} {t : Turn α (Pull α)}
    (made : p.turn n now fired reply = some t) : t.next.Tidy := by
  obtain ⟨going, does⟩ := turn_cases made
  have unended : p.ended = false := (Bool.or_eq_false_iff.mp going).1
  intro ended
  rcases does with ⟨c, came, -, -, -, -, next⟩ | ⟨-, c, later, -, rfl⟩ | ⟨-, ready, rfl⟩ |
    ⟨-, walk, next⟩
  · rw [next, unended] at ended
    cases ended
  · rw [yield, unended] at ended
    cases ended
  · exact ready
  · rw [next, unended] at ended
    cases ended

/-- A turn of a withdrawn walk calls nobody. -/
theorem turn_fired_call {p : Pull α} {t : Turn α (Pull α)}
    (made : p.turn n now true reply = some t) : t.call = none := by
  rcases (turn_cases made).2 with ⟨c, came, -, -, -, call, -⟩ | ⟨-, c, later, -, rfl⟩ |
    ⟨-, -, rfl⟩ | ⟨kept, -⟩
  · exact call
  · rfl
  · rfl
  · cases kept

/-- A walk that hands out a node held it as the first one. -/
theorem rest_eq_cons {p : Pull α} {c : Contact α} {later : List (Contact α)}
    (going : p.isOver = false) (ready : p.walk.ready = c :: later) :
    p.rest = c :: (p.yield c later).rest := by
  unfold rest yield
  cases wanted : p.wanted with
  | none => exact ready
  | some left =>
    cases left with
    | zero => simp [isOver, wanted] at going
    | succ left =>
      dsimp only [Option.map_some]
      rw [ready, List.take_succ_cons, Nat.add_sub_cancel]

/-- A turn of a withdrawn walk whose call is cancelled brings it closer to its end, and leaves the
node as it is. -/
theorem turn_drains {p : Pull α} {t : Turn α (Pull α)}
    (made : p.turn n now true reply = some t) (calm : Calms reply) :
    p.Drains 1 t.next ∧ t.node = n := by
  obtain ⟨going, does⟩ := turn_cases made
  have rank : p.rank = (if p.walk.awaiting.isSome then 1 else 0) + p.rest.length + 1 :=
    if_neg (by rw [going]; exact Bool.false_ne_true)
  rcases does with ⟨c, came, waits, same, node, -, next⟩ | ⟨free, c, later, ready, rfl⟩ |
    ⟨free, ready, rfl⟩ | ⟨kept, -⟩
  · obtain rfl := calm came same
    let after : Pull α := { p with walk := { p.walk with awaiting := none, done := true } }
    have ends : t.next = after := next
    have open' : after.rank = 0 + p.rest.length + 1 :=
      if_neg (by show ¬p.isOver = true; rw [going]; exact Bool.false_ne_true)
    rw [ends]
    refine ⟨⟨rfl, ?_⟩, node⟩
    rw [rank, waits, open']
    exact Nat.le_of_eq (by simp; omega)
  · have held := rest_eq_cons going ready
    refine ⟨⟨?_, ?_⟩, rfl⟩
    · rw [held]
      exact List.append_assoc ..
    · have few : (p.yield c later).rank ≤ (p.yield c later).rest.length + 1 := by
        unfold Pull.rank
        split
        · exact Nat.zero_le _
        · have waits : (p.yield c later).walk.awaiting = none := free
          rw [waits]
          simp
      rw [rank, free, held]
      simpa using few
  · refine ⟨⟨rfl, ?_⟩, rfl⟩
    have finished : ({ p with ended := true } : Pull α).rank = 0 := if_pos rfl
    rw [finished]
    exact Nat.zero_le _
  · cases kept

/-- A walk that is not over can take its turn, with a reply if it waits for one. -/
theorem rank_eq_zero {p : Pull α} (stuck : p.turn n now true reply = none)
    (due : p.walk.question.isSome = true → reply.isSome = true) : p.rank = 0 := by
  unfold Pull.rank
  by_cases finished : p.isOver = true
  · exact if_pos finished
  · unfold turn at stuck
    rw [if_neg finished] at stuck
    cases waits : p.walk.awaiting with
    | some c =>
      have asked : p.walk.question.isSome = true := by rw [Walk.question, waits]; rfl
      obtain ⟨came, same⟩ := Option.isSome_iff_exists.mp (due asked)
      simp [waits, same] at stuck
    | none =>
      cases ready : p.walk.ready with
      | nil => simp [waits, ready] at stuck
      | cons c later => simp [waits, ready] at stuck

end Pull

/-! ## Activities -/

namespace Activity

/-- The activity is made of lookups and walks, and of the pings of contacts to start from. -/
def isSearch : Activity α → Bool
  | exchange _ _ | query _ _ _ => false
  | _ => true

/-- The lookup that the activity is at. -/
def run? : Activity α → Option (LookupRun α)
  | lookup run => some run
  | bootstrap b | upkeep b => b.run?
  | _ => none

/-- The walk, if the activity is one. -/
def pull? : Activity α → Option (Pull α)
  | pull p => some p
  | _ => none

/-- An activity with a walk is that walk. -/
theorem eq_pull_of_pull? {a : Activity α} {p : Pull α} (at' : a.pull? = some p) : a = .pull p := by
  cases a with
  | pull q => rw [Option.some.inj at']
  | _ => cases at'

/-- The activity is a bootstrap, and has ended because its caller has withdrawn it. -/
def isAborted : Activity α → Bool
  | bootstrap b | upkeep b =>
    match b.result? with
    | some (.error fault) => fault.isCancelled
    | _ => false
  | withdrawn fault => fault.isCancelled
  | _ => false

end Activity

/-- A turn of a withdrawn bootstrap makes no query, and leaves the node as it is if its calls are
cancelled. -/
theorem Bootstrap.turn_fired {b : Bootstrap α} {t : Turn α (Bootstrap α)}
    (made : b.turn n now true line reply = some t) :
    (∀ call, t.call = some call → call.request = .ping) ∧ (Calms reply → t.node = n) := by
  rcases turn_cases made with ⟨pings, -, moved⟩ | ⟨run, inner, next, -, moved, rfl, -⟩
  · rcases turnPing_cases moved with ⟨c, -, rfl⟩ | ⟨c, contacts, -, came, rfl⟩ |
      ⟨c, fault, -, -, rfl⟩
    · refine ⟨fun call called => ?_, fun _ => rfl⟩
      obtain rfl := Option.some.inj called
      rfl
    · exact ⟨nofun, fun calm => nomatch calm _ came⟩
    · exact ⟨nofun, fun _ => rfl⟩
  · refine ⟨fun call called => ?_, fun calm => (LookupRun.turn_unwinds moved calm).2⟩
    have called' : inner.call = some call := called
    rw [LookupRun.turn_fired_call moved] at called'
    cases called'

/-- A bootstrap that is at a lookup has not ended. -/
theorem Bootstrap.result?_of_run? {b : Bootstrap α} {run : LookupRun α}
    (at' : b.run? = some run) : b.result? = none := by
  unfold run? at at'
  unfold result?
  cases phase : b.phase with
  | pinging pings => rfl
  | searching other => rfl
  | refreshing other left => rfl
  | finished result => simp [phase] at at'

/-- A bootstrap that has ended does nothing any more. -/
theorem Bootstrap.at_rest {b : Bootstrap α} {result : Except Fault BootReport}
    (ended : b.result? = some result) (n : Node α) (now line : Nat) (fired : Bool)
    (reply : Option (Reply α)) (draw : Id) :
    b.turn n now fired line reply = none ∧ b.proceed n fired draw = none := by
  unfold result? at ended
  unfold turn proceed
  cases phase : b.phase with
  | finished other => exact ⟨rfl, rfl⟩
  | _ => simp [phase] at ended

namespace Activity

variable {a : Activity α} {t : Turn α (Activity α)}

/-- What the turn of a line comes to: a single exchange or query goes on, a lookup, a walk or a
bootstrap takes a turn. -/
theorem turn_cases {fired : Bool} (made : a.turn n now fired line reply = some t) :
    (a.isSearch = false ∧ t.next.isSearch = false) ∨
      (∃ run inner, a = .lookup run ∧ run.turn n now fired line reply = some inner ∧
        t = ⟨inner.node, .lookup inner.next, inner.call⟩) ∨
      (∃ p inner, a = .pull p ∧ p.turn n now fired reply = some inner ∧
        t = ⟨inner.node, .pull inner.next, inner.call⟩) ∨
      ∃ b inner, b.turn n now fired line reply = some inner ∧
        (a = .bootstrap b ∧ t = ⟨inner.node, .bootstrap inner.next, inner.call⟩ ∨
          a = .upkeep b ∧ t = ⟨inner.node, .upkeep inner.next, inner.call⟩) := by
  unfold turn at made
  cases a with
  | exchange call state =>
    dsimp only at made
    split at made
    · obtain rfl := Option.some.inj made
      exact .inl ⟨rfl, rfl⟩
    · obtain rfl := Option.some.inj made
      exact .inl ⟨rfl, rfl⟩
    · cases made
  | query asked target state =>
    dsimp only [turnQuery] at made
    split at made
    · split at made <;> obtain rfl := Option.some.inj made <;> exact .inl ⟨rfl, rfl⟩
    · obtain rfl := Option.some.inj made
      exact .inl ⟨rfl, rfl⟩
    · cases made
  | lookup run =>
    obtain ⟨inner, moved, rfl⟩ := Option.map_eq_some_iff.mp made
    exact .inr (.inl ⟨run, inner, rfl, moved, rfl⟩)
  | pull p =>
    obtain ⟨inner, moved, rfl⟩ := Option.map_eq_some_iff.mp made
    exact .inr (.inr (.inl ⟨p, inner, rfl, moved, rfl⟩))
  | bootstrap b =>
    obtain ⟨inner, moved, rfl⟩ := Option.map_eq_some_iff.mp made
    exact .inr (.inr (.inr ⟨b, inner, moved, .inl ⟨rfl, rfl⟩⟩))
  | upkeep b =>
    obtain ⟨inner, moved, rfl⟩ := Option.map_eq_some_iff.mp made
    exact .inr (.inr (.inr ⟨b, inner, moved, .inr ⟨rfl, rfl⟩⟩))
  | pause wakeAt => cases made
  | withdrawn fault => cases made

/-- A turn of a withdrawn search makes no query, and leaves the node as it is if its calls are
cancelled. -/
theorem turn_fired (search : a.isSearch = true) (made : a.turn n now true line reply = some t) :
    t.next.isSearch = true ∧ (∀ call, t.call = some call → call.request = .ping) ∧
      (Calms reply → t.node = n) := by
  have quiet {call? : Option (Call α)} (none : call? = none) (call : Call α)
      (called : call? = some call) : call.request = .ping := by
    rw [none] at called
    cases called
  rcases turn_cases made with ⟨other, -⟩ | ⟨run, inner, -, moved, rfl⟩ |
    ⟨p, inner, -, moved, rfl⟩ | ⟨b, inner, moved, ⟨-, rfl⟩ | ⟨-, rfl⟩⟩
  · rw [search] at other
    cases other
  · exact ⟨rfl, quiet (LookupRun.turn_fired_call moved),
      fun calm => (LookupRun.turn_unwinds moved calm).2⟩
  · exact ⟨rfl, quiet (Pull.turn_fired_call moved), fun calm => (Pull.turn_drains moved calm).2⟩
  · exact ⟨rfl, Bootstrap.turn_fired moved⟩
  · exact ⟨rfl, Bootstrap.turn_fired moved⟩

/-- A search stays one in its next phase, and no walk. -/
theorem proceed_isSearch {next : Activity α} {fired : Bool} {draw : Id}
    (made : a.proceed n now fired draw = some next) :
    next.isSearch = true ∧ ∀ p, next ≠ .pull p := by
  rcases proceed_cases made with ⟨b, later, -, ⟨-, rfl⟩ | ⟨-, -, rfl⟩⟩ | ⟨_, _, -, -, rfl⟩ |
    ⟨_, _, -, -, rfl⟩ | ⟨_, -, ⟨-, rfl⟩ | ⟨-, -, rfl⟩⟩ <;> exact ⟨rfl, nofun⟩

/-- The activity is at a lookup: its lines are the workers of the lookup, and a turn puts the lookup
after it in the place of the one before. -/
structure Carries (a : Activity α) (run : LookupRun α) (put : LookupRun α → Activity α) :
    Prop where
  /-- The lines are the workers. -/
  lines : a.lines = run.workers.length
  /-- They wait for what the workers wait for. -/
  awaits : a.awaits = run.awaits
  /-- The activity is at the lookup that has been put there. -/
  run? : ∀ next, (put next).run? = some next
  /-- A turn is one of the lookup. -/
  turn : ∀ (n : Node α) (now : Nat) (fired : Bool) (line : Nat) (reply : Option (Reply α)),
    a.turn n now fired line reply =
      (run.turn n now fired line reply).map fun t => ⟨t.node, put t.next, t.call⟩
  /-- A lookup on its own stays one. -/
  plain : a = .lookup run → ∀ next, put next = .lookup next

/-- An activity that is at a lookup goes on with it. -/
theorem exists_carries {run : LookupRun α} (at' : a.run? = some run) :
    ∃ put, a.Carries run put := by
  have composed {β γ δ : Type} (x : Option β) (f : β → γ) (g : γ → δ) :
      (x.map f).map g = x.map fun y => g (f y) := by
    cases x <;> rfl
  cases a with
  | lookup other =>
    obtain rfl := Option.some.inj at'
    exact ⟨.lookup, rfl, rfl, fun _ => rfl, fun _ _ _ _ _ => rfl, fun _ _ => rfl⟩
  | bootstrap b =>
    obtain ⟨report, phase⟩ := b
    cases phase with
    | searching other =>
      obtain rfl := Option.some.inj at'
      exact ⟨fun next => .bootstrap ⟨report, .searching next⟩, rfl, rfl, fun _ => rfl,
        fun _ _ _ _ _ => composed .., nofun⟩
    | refreshing other left =>
      obtain rfl := Option.some.inj at'
      exact ⟨fun next => .bootstrap ⟨report, .refreshing next left⟩, rfl, rfl, fun _ => rfl,
        fun _ _ _ _ _ => composed .., nofun⟩
    | _ => cases at'
  | upkeep b =>
    obtain ⟨report, phase⟩ := b
    cases phase with
    | searching other =>
      obtain rfl := Option.some.inj at'
      exact ⟨fun next => .upkeep ⟨report, .searching next⟩, rfl, rfl, fun _ => rfl,
        fun _ _ _ _ _ => composed .., nofun⟩
    | refreshing other left =>
      obtain rfl := Option.some.inj at'
      exact ⟨fun next => .upkeep ⟨report, .refreshing next left⟩, rfl, rfl, fun _ => rfl,
        fun _ _ _ _ _ => composed .., nofun⟩
    | _ => cases at'
  | _ => cases at'

/-- A withdrawn activity that is at a lookup passes to its end only. -/
theorem proceed_fired {next : Activity α} {draw : Id} {run : LookupRun α}
    (at' : a.run? = some run) (made : a.proceed n now true draw = some next) :
    next.isAborted = true ∧ a ≠ .lookup run := by
  have aborted {b later : Bootstrap α} (moved : b.proceed n true draw = some later) :
      later.result? = some (.error .cancelled) := by
    rcases Bootstrap.proceed_cases moved with ⟨-, rfl⟩ | ⟨kept, -⟩
    · rfl
    · cases kept
  rcases proceed_cases made with ⟨b, later, moved, ⟨rfl, rfl⟩ | ⟨rfl, -, rfl⟩⟩ |
    ⟨b, fault, rfl, finished, -⟩ | ⟨b, report, rfl, finished, -⟩ | ⟨_, rfl, -⟩
  · refine ⟨?_, nofun⟩
    rw [isAborted, aborted moved]
    rfl
  · refine ⟨?_, nofun⟩
    rw [isAborted, aborted moved]
    rfl
  · rw [Bootstrap.result?_of_run? at'] at finished
    cases finished
  · rw [Bootstrap.result?_of_run? at'] at finished
    cases finished
  · cases at'

/-- A bootstrap that has been withdrawn has ended with a fault. -/
theorem isAborted_cases (ended : a.isAborted = true) :
    (∃ b result, b.result? = some result ∧ a = .bootstrap b) ∨
      (∃ b fault, b.result? = some (.error fault) ∧ fault.isCancelled = true ∧ a = .upkeep b) ∨
      ∃ fault, a = .withdrawn fault := by
  unfold isAborted at ended
  split at ended
  · next b =>
    split at ended
    · next fault result => exact .inl ⟨b, _, result, rfl⟩
    · cases ended
  · next b =>
    split at ended
    · next fault result => exact .inr (.inl ⟨b, fault, result, ended, rfl⟩)
    · cases ended
  · next fault => exact .inr (.inr ⟨fault, rfl⟩)
  · cases ended

/-- A bootstrap that has been withdrawn takes no turn and stays at its end. -/
theorem isAborted_rest (ended : a.isAborted = true) (n : Node α) (now line : Nat) (fired : Bool)
    (reply : Option (Reply α)) (draw : Id) :
    a.turn n now fired line reply = none ∧
      ∀ next, a.proceed n now fired draw = some next → next.isAborted = true := by
  rcases isAborted_cases ended with
    ⟨b, result, finished, rfl⟩ | ⟨b, fault, finished, cancelled, rfl⟩ | ⟨fault, rfl⟩
  · obtain ⟨idle, last⟩ := Bootstrap.at_rest finished n now line fired reply draw
    simp [turn, proceed, idle, last]
  · obtain ⟨idle, last⟩ := Bootstrap.at_rest finished n now line fired reply draw
    refine ⟨by simp [turn, idle], fun next made => ?_⟩
    simp only [proceed, finished, Option.some.injEq] at made
    rw [← made]
    exact cancelled
  · exact ⟨rfl, nofun⟩

end Activity

/-! ## Where lookups come from -/

/-- The lookup is what some moves have made of one that a node started. -/
def LookupRun.Traced (run : LookupRun α) : Prop :=
  ∃ (n : Node α) (target : Id) (width : Nat) (past : List (Move α)),
    ((start n target width).play past).2 = run

/-- One more move at the end. -/
theorem LookupRun.play_snoc (run : LookupRun α) (moves : List (Move α)) (m : Move α) :
    (run.play (moves ++ [m])).2 = (run.play moves).2.move m := by
  induction moves generalizing run with
  | nil => rfl
  | cons first rest further => exact further (run.move first)

/-- A turn is a move. -/
theorem LookupRun.Traced.turn {run : LookupRun α} {fired : Bool} {t : Turn α (LookupRun α)}
    (traced : run.Traced) (made : run.turn n now fired line reply = some t) : t.next.Traced := by
  obtain ⟨start, target, width, past, rfl⟩ := traced
  refine ⟨start, target, width, past ++ [⟨n, now, fired, line, reply⟩], ?_⟩
  rw [play_snoc, move, made]

/-- A bootstrap comes to a lookup in no turn. -/
theorem Bootstrap.run?_turn {b : Bootstrap α} {fired : Bool} {t : Turn α (Bootstrap α)}
    (none : b.run? = none) (made : b.turn n now fired line reply = some t) :
    t.next.run? = Option.none := by
  rcases turn_cases made with ⟨pings, -, moved⟩ | ⟨run, inner, next, at', -⟩
  · rcases turnPing_cases moved with ⟨_, -, rfl⟩ | ⟨_, _, -, -, rfl⟩ | ⟨_, _, -, -, rfl⟩ <;> rfl
  · rw [none] at at'
    cases at'

namespace Activity

variable {a : Activity α} {t : Turn α (Activity α)}

/-- The lookup that an activity is at, if any, comes from one that a node started. -/
def Traced (a : Activity α) : Prop := ∀ run, a.run? = some run → run.Traced

/-- An activity comes to a lookup in no turn. -/
theorem run?_turn {fired : Bool} (none : a.run? = none)
    (made : a.turn n now fired line reply = some t) :
    t.next.run? = Option.none := by
  rcases turn_cases made with ⟨-, other⟩ | ⟨run, inner, rfl, -, -⟩ | ⟨p, inner, -, -, rfl⟩ |
    ⟨b, inner, moved, ⟨rfl, rfl⟩ | ⟨rfl, rfl⟩⟩
  · cases next : t.next with
    | exchange call state => rfl
    | query asked target state => rfl
    | _ =>
      rw [next] at other
      cases other
  · cases none
  · rfl
  · exact Bootstrap.run?_turn none moved
  · exact Bootstrap.run?_turn none moved

/-- A turn leaves a lookup traced. -/
theorem Traced.turn {fired : Bool} (traced : a.Traced)
    (made : a.turn n now fired line reply = some t) : t.next.Traced := by
  intro next atNext
  cases at' : a.run? with
  | none =>
    rw [run?_turn at' made] at atNext
    cases atNext
  | some run =>
    obtain ⟨put, carries⟩ := exists_carries at'
    rw [carries.turn, Option.map_eq_some_iff] at made
    obtain ⟨inner, moved, rfl⟩ := made
    have same : (put inner.next).run? = some next := atNext
    rw [carries.run?] at same
    rw [← Option.some.inj same]
    exact (traced run at').turn moved

/-- The next phase of an activity is a new lookup or none. -/
theorem traced_proceed {next : Activity α} {fired : Bool} {draw : Id}
    (made : a.proceed n now fired draw = some next) : next.Traced := by
  have started {b later : Bootstrap α} (moved : b.proceed n fired draw = some later)
      {run : LookupRun α} (at' : later.run? = some run) : run.Traced := by
    rcases Bootstrap.proceed_cases moved with ⟨-, rfl⟩ | ⟨-, ⟨target, width, phase⟩ |
      ⟨target, width, left, phase⟩ | ⟨report, phase⟩⟩
    · cases at'
    · simp only [Bootstrap.run?, phase, Option.some.injEq] at at'
      exact ⟨n, target, width, [], at'⟩
    · simp only [Bootstrap.run?, phase, Option.some.injEq] at at'
      exact ⟨n, target, width, [], at'⟩
    · simp [Bootstrap.run?, phase] at at'
  intro run at'
  rcases proceed_cases made with ⟨b, later, moved, ⟨-, rfl⟩ | ⟨-, -, rfl⟩⟩ | ⟨_, _, -, -, rfl⟩ |
    ⟨_, _, -, -, rfl⟩ | ⟨_, -, ⟨-, rfl⟩ | ⟨-, -, rfl⟩⟩
  · exact started moved at'
  · exact started moved at'
  · cases at'
  · cases at'
  · cases at'
  · cases at'

/-- A walk that takes a turn holds nothing if it has ended. -/
theorem turn_tidy {fired : Bool} {p : Pull α}
    (made : a.turn n now fired line reply = some t) (at' : t.next = .pull p) : p.Tidy := by
  rcases turn_cases made with ⟨-, other⟩ | ⟨_, _, -, -, rfl⟩ | ⟨_, inner, -, moved, rfl⟩ |
    ⟨_, _, -, ⟨-, rfl⟩ | ⟨-, rfl⟩⟩
  · rw [at'] at other
    cases other
  · cases at'
  · obtain rfl := Activity.pull.inj at'
    exact Pull.turn_tidy moved
  · cases at'
  · cases at'

end Activity

end Turns

end Overlay
