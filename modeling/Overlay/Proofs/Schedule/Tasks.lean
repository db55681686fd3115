import Overlay.Proofs.Bootstrap
import Overlay.Proofs.Schedule.Moves
import Overlay.Proofs.Walk.Moves

/-!
# Tasks that come to their end

Lookups, walks and bootstraps do not go on for ever: every turn and every new phase lowers a rank,
as long as nobody withdraws them. And they do not get stuck: as long as one of them is not over, a
line of it can go on, or it can begin its next phase, or a request of it is still under way.
-/
namespace Overlay

/-! ## Activities -/

namespace Activity

variable {α : Type} {a : Activity α} {n : Node α} {now line : Nat} {fired : Bool}
  {reply : Option (Reply α)}

/-- It is a lookup, a walk or a bootstrap. -/
def isFinite : Activity α → Bool
  | lookup _ | pull _ | bootstrap _ => true
  | _ => false

/-- What is left to be done. -/
def rank : Activity α → Nat ×ₗ Nat ×ₗ Nat ×ₗ Nat
  | lookup run => toLex (0, toLex (0, toLex (0, run.work)))
  | pull p => toLex ((!p.isOver).toNat, p.left)
  | bootstrap b | upkeep b => toLex (0, b.rank)
  | _ => toLex (0, toLex (0, toLex (0, 0)))

/-- A line can take its turn, whatever has become of the node, with a reply if it waits for one. -/
def Ready (a : Activity α) (line : Nat) : Prop :=
  ∀ (n : Node α) (now : Nat) (fired : Bool) (due : Option (Reply α)),
    due.isSome = (a.awaits line).isSome → a.turn n now fired line due ≠ none

/-- An activity that does not go on for ever is about the table of the node. -/
theorem isOwn_of_isFinite (finite : a.isFinite = true) : a.isOwn = true := by
  cases a with
  | exchange call state => cases finite
  | _ => rfl

/-- Less is left of what is in the same stage. -/
theorem rank_lt {stage : Nat} {rest more : Nat ×ₗ Nat ×ₗ Nat} (less : rest < more) :
    toLex (stage, rest) < toLex (stage, more) :=
  Prod.Lex.toLex_lt_toLex.mpr (.inr ⟨rfl, less⟩)

/-- A turn of a walk that nobody withdraws leaves less to be done. -/
theorem rank_pull {p : Pull α} {t : Turn α (Pull α)} (made : p.turn n now false reply = some t) :
    (pull t.next).rank < (pull p).rank := by
  have going : p.isOver = false := by
    cases ended : p.isOver with
    | false => rfl
    | true => simp [Pull.turn, ended] at made
  have next : p.move ⟨n, now, false, reply⟩ = t.next := by rw [Pull.move, made]
  rcases p.left_lt ⟨n, now, false, reply⟩ rfl with ⟨rests, -⟩ | ended | less
  · exfalso
    rcases rests with ended | ⟨waits, missing⟩
    · rw [going] at ended
      cases ended
    · obtain ⟨c, awaiting⟩ := Option.isSome_iff_exists.mp waits
      obtain rfl : reply = none := missing
      simp [Pull.turn, going, awaiting] at made
  · rw [next] at ended
    rw [rank, rank, going, ended]
    exact Prod.Lex.toLex_lt_toLex.mpr (.inl Nat.zero_lt_one)
  · rw [next] at less
    rw [rank, rank, going]
    refine Prod.Lex.toLex_lt_toLex.mpr ?_
    rcases Nat.lt_or_eq_of_le (Bool.toNat_le (!t.next.isOver)) with ended | same
    · exact .inl ended
    · exact .inr ⟨same, less⟩

/-- A turn leaves less to be done of an activity that nobody withdraws. -/
theorem turn_rank (finite : a.isFinite = true) (traced : a.Traced) {t : Turn α (Activity α)}
    (made : a.turn n now false line reply = some t) :
    t.next.isFinite = true ∧ t.next.rank < a.rank := by
  cases a with
  | lookup run =>
    have past : run.Traced := traced run rfl
    obtain ⟨inner, moved, rfl⟩ := Option.map_eq_some_iff.mp made
    refine ⟨rfl, rank_lt (Prod.Lex.toLex_lt_toLex.mpr (.inr ⟨rfl, ?_⟩))⟩
    refine Prod.Lex.toLex_lt_toLex.mpr (.inr ⟨rfl, ?_⟩)
    exact LookupRun.turn_work moved (past.turn moved).room
  | pull p =>
    obtain ⟨inner, moved, rfl⟩ := Option.map_eq_some_iff.mp made
    exact ⟨rfl, rank_pull moved⟩
  | bootstrap b =>
    obtain ⟨inner, moved, rfl⟩ := Option.map_eq_some_iff.mp made
    exact ⟨rfl, rank_lt (Bootstrap.turn_rank traced moved)⟩
  | _ => cases finite

/-- A new phase leaves less to be done. -/
theorem proceed_rank (finite : a.isFinite = true) {next : Activity α} {draw : Id}
    (made : a.proceed n now fired draw = some next) :
    next.isFinite = true ∧ next.rank < a.rank := by
  cases a with
  | bootstrap b =>
    obtain ⟨later, moved, rfl⟩ := Option.map_eq_some_iff.mp made
    exact ⟨rfl, rank_lt (Bootstrap.proceed_rank moved)⟩
  | lookup run => cases made
  | pull p => cases made
  | _ => cases finite

/-- As long as an activity is not over, a line of it can take its turn, or it can begin its next
phase. -/
theorem exists_ready (finite : a.isFinite = true) (traced : a.Traced) (going : a.isOver = false) :
    (∃ line < a.lines, a.Ready line) ∨
      ∀ (n : Node α) (now : Nat) (fired : Bool) (draw : Id), a.proceed n now fired draw ≠ none := by
  cases a with
  | lookup run =>
    have past : run.Traced := traced run rfl
    obtain ⟨line, inside, ready⟩ := past.exists_ready going
    refine .inl ⟨line, inside, fun n now fired due answered stuck => ?_⟩
    exact ready n now fired due answered (Option.map_eq_none_iff.mp stuck)
  | pull p =>
    refine .inl ⟨0, Nat.zero_lt_one, fun n now fired due answered stuck => ?_⟩
    have over' : p.isOver = false := going
    rw [awaits, alone_zero, Walk.question, Option.isSome_map] at answered
    have stuck := Option.map_eq_none_iff.mp stuck
    unfold Pull.turn at stuck
    rw [over', if_neg Bool.false_ne_true] at stuck
    cases waits : p.walk.awaiting with
    | some c =>
      rw [waits] at answered
      obtain ⟨came, rfl⟩ := Option.isSome_iff_exists.mp answered
      simp [waits] at stuck
    | none =>
      simp only [waits] at stuck
      split at stuck
      · cases stuck
      · split at stuck
        · cases stuck
        · split at stuck <;> cases stuck
  | bootstrap b =>
    rcases Bootstrap.exists_ready traced (Option.not_isSome_iff_eq_none.mp
      (Bool.eq_false_iff.mp going)) with ⟨line, inside, ready⟩ | can
    · refine .inl ⟨line, inside, fun n now fired due answered stuck => ?_⟩
      exact ready n now fired due answered (Option.map_eq_none_iff.mp stuck)
    · exact .inr fun n now fired draw stuck => can n fired draw (Option.map_eq_none_iff.mp stuck)
  | _ => cases finite

end Activity

/-! ## Requests in flight -/

/-- A request that does not end yet arrives later, if it arrives. -/
theorem World.arrives_later {w : World} {f : Flight} {fired : Bool} {time : Nat}
    (under : w.resolve f fired = none) (arrives : f.arrives = some time) : w.now < time := by
  by_contra landed
  have due : Flight.due f.arrives w.now = true := by
    rw [arrives]
    exact decide_eq_true (Nat.le_of_not_lt landed)
  have status : f.status w.now fired = .arrived := if_pos due
  rw [World.resolve, status] at under
  cases under

/-- The latest time at which a request that has been sent arrives. -/
def World.horizon (w : World) : Nat := w.now + w.simulated.latency

/-- In the same frame, requests arrive by the same time. -/
theorem World.horizon_of_frame {w w' : World} (same : w'.frame = w.frame) :
    w'.horizon = w.horizon :=
  congrArg (fun frame : World.Frame => frame.now + frame.latency) same

/-- A request that is sent over a simulated network arrives in time. -/
theorem World.arrives_send {w : World} (simulates : w.Simulates) (caller : Peer)
    (call : Call String) :
    ∃ time, (w.send caller call).1.arrives = some time ∧ time ≤ w.horizon := by
  rcases send_cases simulates caller call with ⟨number, -, sent⟩ | ⟨-, sent⟩
  · exact ⟨_, congrArg (·.1.arrives) sent, Nat.le_refl _⟩
  · exact ⟨_, congrArg (·.1.arrives) sent, Nat.le_add_right ..⟩

/-! ## Tasks -/

namespace Task

/-- A request of the task arrives later than now. -/
def Flying (t : Task) (now : Nat) : Prop :=
  ∃ e ∈ t.flights, ∃ time, e.2.arrives = some time ∧ now < time

/-- The task is carried out by one of so many stations and withdrawn by nobody; it does not go on
for ever; and the requests that its lines wait for are in flight and arrive by some time. -/
structure Steady (stations horizon : Nat) (t : Task) : Prop where
  /-- Nobody withdraws it. -/
  calm : t.token = none
  /-- It belongs to a station. -/
  owned : ∃ number < stations, t.owner = some number
  /-- It does not go on for ever. -/
  finite : t.activity.isFinite = true
  /-- Its lookup comes from one that a node started. -/
  traced : t.activity.Traced
  /-- Lines that wait have a request in flight, the others have none. -/
  waits : ∀ line, (t.flights.lookup line).isSome = (t.activity.awaits line).isSome
  /-- Requests arrive in time. -/
  arrive : ∀ e ∈ t.flights, ∃ time, e.2.arrives = some time ∧ time ≤ horizon

variable {t t' : Task} {w w' : World} {line stations horizon : Nat}

/-- What arrives in time arrives before any later time. -/
theorem Steady.later {further : Nat} (steady : t.Steady stations horizon)
    (after : horizon ≤ further) : t.Steady stations further :=
  ⟨steady.calm, steady.owned, steady.finite, steady.traced, steady.waits, fun e listed =>
    let ⟨time, arrives, early⟩ := steady.arrive e listed
    ⟨time, arrives, Nat.le_trans early after⟩⟩

/-- Nobody has withdrawn a steady task. -/
theorem Steady.fired (steady : t.Steady stations horizon) (now : Nat) :
    t.token.fired now = false := by
  rw [steady.calm]
  rfl

/-- The station of a steady task has a node. -/
theorem Steady.node? (steady : t.Steady w.stations.size horizon) : ∃ n, t.node? w = some n := by
  obtain ⟨number, inside, owner⟩ := steady.owned
  rw [Task.node?, owner]
  exact ⟨_, congrArg (Option.map _) (Array.getElem?_eq_getElem inside)⟩

/-- A turn with what has come of the request of a line leaves a task steady, with less to be
done. -/
theorem Steady.turnWith (simulates : w.Simulates) (near : w.horizon ≤ horizon)
    {reply : Option (Reply String)} (steady : t.Steady stations horizon)
    (inside : line < t.activity.lines)
    {flights : List (Nat × Flight)} (fewer : flights ⊆ t.flights)
    (free : flights.lookup line = none)
    (others : ∀ other, other ≠ line → flights.lookup other = t.flights.lookup other)
    (due : reply.isSome = (t.activity.awaits line).isSome)
    (made : { t with flights := flights }.turnWith w line reply = some (w', t')) :
    t'.Steady stations horizon ∧ t'.activity.rank < t.activity.rank := by
  obtain ⟨n, turn, here, moved, does⟩ := turnWith_cases made
  have calm : Token.fired t.token w.now = false := steady.fired w.now
  have moved : t.activity.turn n w.now false line reply = some turn := calm ▸ moved
  obtain ⟨finite, less⟩ := Activity.turn_rank steady.finite steady.traced moved
  have traced := steady.traced.turn moved
  have settles := (Activity.turn_settles (Activity.isOwn_of_isFinite steady.finite) inside moved
    due).1.after
  have rest {other : Nat} (different : other ≠ line) :
      (flights.lookup other).isSome = (t.activity.awaits other).isSome := by
    rw [others other different]
    exact steady.waits other
  rcases does with ⟨call, -, rfl⟩ | ⟨call, called, -, rfl⟩
  · refine ⟨⟨steady.calm, steady.owned, finite, traced, fun other => ?_, fun e listed =>
      steady.arrive e (fewer listed)⟩, less⟩
    rw [settles, call, Function.update_apply]
    split
    · next same => rw [same, free]; rfl
    · next different => exact rest different
  · refine ⟨⟨steady.calm, steady.owned, finite, traced, fun other => ?_, fun e listed => ?_⟩, less⟩
    · rw [settles, called, Function.update_apply, List.lookup_cons]
      by_cases same : other = line
      · rw [if_pos same, same, beq_self_eq_true]
        rfl
      · rw [if_neg same, beq_false_of_ne same]
        exact rest same
    · rcases List.mem_cons.mp listed with rfl | old
      · obtain ⟨number, -, owner⟩ := steady.owned
        simp only [putBack, owner]
        obtain ⟨time, arrives, early⟩ := World.arrives_send
          (w := w.setNode number turn.node) simulates t.caller call
        exact ⟨time, arrives, Nat.le_trans early near⟩
      · exact steady.arrive e (fewer old)

/-- A turn leaves a task steady, with less to be done. -/
theorem Steady.turn (simulates : w.Simulates) (near : w.horizon ≤ horizon)
    (steady : t.Steady stations horizon) (inside : line < t.activity.lines)
    (made : t.turn w line = some (w', t')) :
    t'.Steady stations horizon ∧ t'.activity.rank < t.activity.rank := by
  rcases turn_cases made with ⟨free, made⟩ | ⟨flight, reply, between, sent, resolved, made⟩
  · refine steady.turnWith simulates near inside (List.Subset.refl _) free (fun _ _ => rfl) ?_ made
    rw [← steady.waits line, free]
    rfl
  · have frame := World.frame_resolve resolved
    have simulates : between.Simulates := World.simulates_of_frame frame simulates
    refine steady.turnWith simulates (World.horizon_of_frame frame ▸ near) inside
      (List.filter_subset_self _) ?_
      (fun other different => ?_) ?_ made
    · rw [World.lookup_filter_ne, if_pos rfl]
    · rw [World.lookup_filter_ne, if_neg different]
    · rw [← steady.waits line, sent]
      rfl

/-- A new phase leaves a task steady, with less to be done. -/
theorem Steady.proceed (steady : t.Steady stations horizon) (made : t.proceed w = some (w', t')) :
    t'.Steady stations horizon ∧ t'.activity.rank < t.activity.rank := by
  obtain ⟨n, next, draw, randomness, here, moved, -, rfl⟩ := proceed_cases made
  obtain ⟨finite, less⟩ := Activity.proceed_rank steady.finite moved
  obtain ⟨before, after, -⟩ := Activity.proceed_idle moved
  refine ⟨⟨steady.calm, steady.owned, finite, Activity.traced_proceed moved, fun line => ?_,
    steady.arrive⟩, less⟩
  rw [steady.waits line, before, after]

/-- A task that is not over and cannot go on has a request that arrives later. -/
theorem Steady.flying (steady : t.Steady w.stations.size horizon)
    (going : t.activity.isOver = false) (stuck : ∀ line < t.activity.lines, t.turn w line = none)
    (stays : t.proceed w = none) : t.Flying w.now := by
  -- A line that is ready makes its turn once it is known what has come of its request.
  have goes {between : World} (flights : List (Nat × Flight))
      (same : between.stations.size = w.stations.size) {line : Nat} {reply : Option (Reply String)}
      (ready : t.activity.Ready line) (due : reply.isSome = (t.activity.awaits line).isSome) :
      { t with flights := flights }.turnWith between line reply ≠ none := by
    intro rests
    obtain ⟨number, inside, owned⟩ := steady.owned
    have here : { t with flights := flights }.node? between =
        some between.stations[number].node := by
      rw [Task.node?, owned]
      exact congrArg (Option.map _) (Array.getElem?_eq_getElem (same ▸ inside))
    rw [Task.turnWith, here] at rests
    obtain ⟨turn, moved⟩ := Option.ne_none_iff_exists'.mp
      (ready between.stations[number].node between.now (t.token.fired between.now) reply due)
    simp only [Option.bind_eq_bind, Option.bind_some, moved] at rests
    split at rests <;> cases rests
  rcases Activity.exists_ready steady.finite steady.traced going with ⟨line, inside, ready⟩ | can
  · have rests := stuck line inside
    unfold Task.turn at rests
    cases sent : t.flights.lookup line with
    | none =>
      simp only [sent] at rests
      refine absurd rests (goes t.flights rfl ready ?_)
      rw [← steady.waits line, sent]
      rfl
    | some flight =>
      simp only [sent] at rests
      have member : (line, flight) ∈ t.flights := by
        obtain ⟨first, last, flights, -⟩ := List.lookup_eq_some_iff.mp sent
        rw [flights]
        exact List.mem_append_right first List.mem_cons_self
      cases resolved : w.resolve flight (t.token.fired w.now) with
      | none =>
        obtain ⟨time, arrives, -⟩ := steady.arrive _ member
        exact ⟨_, member, time, arrives, World.arrives_later resolved arrives⟩
      | some came =>
        obtain ⟨reply, between⟩ := came
        simp only [resolved, Option.bind_eq_bind, Option.bind_some] at rests
        refine absurd rests (goes _ ?_ ready ?_)
        · exact World.size_of_frame (World.frame_resolve resolved)
        · rw [← steady.waits line, sent]
          rfl
  · obtain ⟨n, here⟩ := steady.node?
    obtain ⟨next, moved⟩ := Option.ne_none_iff_exists'.mp
      (can n w.now (t.token.fired w.now) w.randomness.next.1)
    simp [Task.proceed, here, moved] at stays

end Task

end Overlay
