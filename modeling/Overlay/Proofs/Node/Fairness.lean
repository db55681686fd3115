import Mathlib.Data.Nat.Pairing
import Overlay.Proofs.Node.Bootstrap
import Overlay.Proofs.Node.Withdrawal

/-!
# Bootstraps that get their turns

A schedule gives out all the moves of a run, one after the other, for ever. It is fair to an errand
if a line that could take its turn from some moment on is given one, with the reply that it waits
for, and likewise the errand if it could pass to its next phase from some moment on. A bootstrap has
a result sooner or later under every schedule that is fair to it, whatever the replies are and
whatever else happens to the node: a line that can take its turn still can later, unless the
bootstrap has moved on by then.
-/
namespace Overlay

variable {α : Type}

namespace NodeRun

/-- The run after so many moves of a schedule. -/
def follow (r : NodeRun α) (schedule : Nat → Move α) (time : Nat) : NodeRun α :=
  (r.play ((List.range time).map schedule)).2

/-- A line can take its turn, with some reply if it has made a call. -/
def CanTurn (r : NodeRun α) (index line : Nat) : Prop :=
  ∃ e reply, r.errands[index]? = some e ∧ line < e.activity.lines ∧
    reply.isSome = (e.calls line).isSome ∧
    e.activity.turn r.node r.now e.withdrawn line reply ≠ none

/-- An errand can pass to its next phase. -/
def CanProceed (r : NodeRun α) (index : Nat) : Prop :=
  ∃ e draw, r.errands[index]? = some e ∧
    e.activity.proceed r.node r.now e.withdrawn draw ≠ none

/-- A schedule that is fair to an errand of a run. -/
structure Fair (r : NodeRun α) (index : Nat) (schedule : Nat → Move α) : Prop where
  /-- A line that can take its turn from some time on is given one, with a reply if it waits for
  one. -/
  turns : ∀ line time, (∀ later ≥ time, (r.follow schedule later).CanTurn index line) →
    ∃ later ≥ time, ∃ e reply, (r.follow schedule later).errands[index]? = some e ∧
      schedule later = .turn index line reply ∧
      ((e.calls line).isSome = true → reply.isSome = true)
  /-- If it can pass to its next phase from some time on, it does. -/
  phases : ∀ time, (∀ later ≥ time, (r.follow schedule later).CanProceed index) →
    ∃ later ≥ time, ∃ draw, schedule later = .proceed index draw

/-- All lines are given turns, each more and more often. -/
def rotation (index : Nat) (came : Reply α) (draw : Id) (time : Nat) : Move α :=
  match time.unpair.1 with
  | 0 => .proceed index draw
  | line + 1 => .turn index line (some came)

/-- A rotation is fair. -/
theorem rotation_fair (r : NodeRun α) (index : Nat) (came : Reply α) (draw : Id) :
    r.Fair index (rotation index came draw) where
  turns line time can := by
    have after : time ≤ Nat.pair (line + 1) time := Nat.right_le_pair _ _
    obtain ⟨e, -, here, -⟩ := can _ after
    refine ⟨Nat.pair (line + 1) time, after, e, some came, here, ?_, fun _ => rfl⟩
    rw [rotation, Nat.unpair_pair]
  phases time _ := by
    refine ⟨Nat.pair 0 time, Nat.right_le_pair _ _, draw, ?_⟩
    rw [rotation, Nat.unpair_pair]

/-- A rotation withdraws nothing. -/
theorem rotation_ne_withdraw (index : Nat) (came : Reply α) (draw : Id) (time other : Nat) :
    rotation index came draw time ≠ .withdraw other := by
  intro same
  unfold rotation at same
  split at same
  · cases same
  · cases same

section Moves

variable {r : NodeRun α} {m : Move α} {index : Nat} {e : Errand α} {b next : Bootstrap α}
  {events : List (Event α)} {passed : List (Stage α)} {calls : Nat → Option (Call α)}

/-- In a move, a bootstrap stays as it is or comes closer to its end. -/
theorem Advances.rank_le (advances : r.Advances m index e b events passed calls next)
    (traced : ∀ run, b.run? = some run → run.Traced) : next = b ∨ next.rank < b.rank := by
  cases advances with
  | rest => exact .inl rfl
  | turned _ moved => exact .inr (Bootstrap.turn_rank traced moved)
  | proceeded moved => exact .inr (Bootstrap.proceed_rank moved)

/-- A bootstrap that is given a turn that it can take, or a chance that it can use, comes closer to
its end. -/
theorem Advances.rank_lt (advances : r.Advances m index e b events passed calls next)
    (traced : ∀ run, b.run? = some run → run.Traced)
    (waits : b.awaits = Option.map Call.question ∘ e.calls)
    (given : (∃ line reply, m = .turn index line reply ∧
        ((e.calls line).isSome = true → reply.isSome = true) ∧ line < b.lines ∧ b.Ready line) ∨
      ∃ draw, m = .proceed index draw ∧ ∀ n fired draw, b.proceed n fired draw ≠ none) :
    next.rank < b.rank := by
  cases advances with
  | rest idle stays =>
    rcases given with ⟨line, reply, same, answered, inside, ready⟩ | ⟨draw, same, can⟩
    · have due := e.isSome_due line answered
      refine absurd (idle line reply same inside due) (ready _ _ _ _ ?_)
      rw [due, waits, Function.comp_apply, Option.isSome_map]
    · exact absurd (stays draw same) (can _ _ _)
  | turned _ moved => exact Bootstrap.turn_rank traced moved
  | proceeded moved => exact Bootstrap.proceed_rank moved

/-- One more move at the end. -/
theorem play_snoc (r : NodeRun α) (moves : List (Move α)) (m : Move α) :
    r.play (moves ++ [m]) =
      ((r.play moves).1 ++ ((r.play moves).2.move m).1, ((r.play moves).2.move m).2) := by
  induction moves generalizing r with
  | nil => simp [play]
  | cons first rest further => simp [play, further, List.append_assoc]

/-- A schedule goes on with its next move. -/
theorem follow_succ (r : NodeRun α) (schedule : Nat → Move α) (time : Nat) :
    r.follow schedule (time + 1) = ((r.follow schedule time).move (schedule time)).2 := by
  rw [follow, follow, List.range_succ, List.map_append, List.map_singleton, play_snoc]

end Moves

section Schedules

variable {r : NodeRun α} {schedule : Nat → Move α} {index time : Nat} {b : Bootstrap α}

/-- The lookup that a bootstrap is at comes from one that a node started. -/
theorem Boots.traced (grown : ∀ e ∈ r.errands, Grown e)
    (boots : (r.follow schedule time).Boots index b) (run : LookupRun α)
    (at' : b.run? = some run) : run.Traced := by
  obtain ⟨e, here, same⟩ := boots
  refine (grown_play grown _ e (List.mem_of_getElem? here)).traced run ?_
  rw [same]
  exact at'

/-- As time goes by, a bootstrap stays as it is or comes closer to its end. -/
theorem Boots.later (grown : ∀ e ∈ r.errands, Grown e)
    (boots : (r.follow schedule time).Boots index b) {later : Nat} (after : time ≤ later) :
    ∃ next, (r.follow schedule later).Boots index next ∧ (next = b ∨ next.rank < b.rank) := by
  induction later, after using Nat.le_induction with
  | base => exact ⟨b, boots, .inl rfl⟩
  | succ later _ earlier =>
    obtain ⟨next, boots', closer⟩ := earlier
    obtain ⟨e, here, at'⟩ := id boots'
    obtain ⟨_, last, there, same, advances⟩ := errand_advances here at' (schedule later)
    rw [follow_succ]
    refine ⟨last, ⟨_, there, same⟩, ?_⟩
    rcases advances.rank_le (boots'.traced grown) with rfl | less
    · exact closer
    · rcases closer with rfl | lower
      · exact .inr less
      · exact .inr (less.trans lower)

/-- A line of a bootstrap that can take its turn whatever has become of the node can take it in the
run. -/
theorem Boots.canTurn (inStep : r.InStep) (boots : (r.follow schedule time).Boots index b)
    {line : Nat} (inside : line < b.lines) (ready : b.Ready line) :
    (r.follow schedule time).CanTurn index line := by
  obtain ⟨e, here, at'⟩ := boots
  have waits := ((inStep.play _).1.errands e (List.mem_of_getElem? here)).lines
  rw [at'] at waits
  have awaits : b.awaits line = (e.calls line).map Call.question := congrFun waits line
  let reply : Option (Reply α) := (e.calls line).map fun _ => .error .timeout
  have answered : reply.isSome = (e.calls line).isSome := Option.isSome_map
  refine ⟨e, reply, here, by rw [at']; exact inside, answered, ?_⟩
  rw [at', Activity.turn, Ne, Option.map_eq_none_iff]
  refine ready _ _ _ _ ?_
  rw [answered, awaits, Option.isSome_map]

/-- A bootstrap that has no result comes closer to its end sooner or later. -/
theorem Boots.lowers (inStep : r.InStep) (grown : ∀ e ∈ r.errands, Grown e)
    (fair : r.Fair index schedule) (boots : (r.follow schedule time).Boots index b)
    (going : b.result? = none) :
    ∃ later next, (r.follow schedule later).Boots index next ∧ next.rank < b.rank := by
  by_cases stays : ∀ later ≥ time, (r.follow schedule later).Boots index b
  · -- It can go on from now on, so it is given the chance; but then it does not stay as it is.
    have given {later : Nat} (after : later ≥ time)
        (gives : ∀ e, (r.follow schedule later).errands[index]? = some e →
          (∃ line reply, schedule later = .turn index line reply ∧
            ((e.calls line).isSome = true → reply.isSome = true) ∧ line < b.lines ∧
              b.Ready line) ∨
          ∃ draw, schedule later = .proceed index draw ∧
            ∀ n fired draw, b.proceed n fired draw ≠ none) :
        ∃ later next, (r.follow schedule later).Boots index next ∧ next.rank < b.rank := by
      obtain ⟨e, here, at'⟩ := stays later after
      have waits := ((inStep.play _).1.errands e (List.mem_of_getElem? here)).lines
      rw [at'] at waits
      obtain ⟨_, last, there, same, advances⟩ := errand_advances here at' (schedule later)
      refine ⟨later + 1, last, ?_, advances.rank_lt (boots.traced grown) waits (gives e here)⟩
      rw [follow_succ]
      exact ⟨_, there, same⟩
    rcases Bootstrap.exists_ready (boots.traced grown) going with ⟨line, inside, ready⟩ | can
    · obtain ⟨later, after, e, reply, here, same, answered⟩ := fair.turns line time
        fun later after => (stays later after).canTurn inStep inside ready
      refine given after fun other there => .inl ⟨line, reply, same, ?_, inside, ready⟩
      rw [← Option.some.inj (here.symm.trans there)]
      exact answered
    · have passes (later : Nat) (after : later ≥ time) :
          (r.follow schedule later).CanProceed index := by
        obtain ⟨e, here, at'⟩ := stays later after
        refine ⟨e, ⟨0⟩, here, ?_⟩
        rw [at', Activity.proceed, Ne, Option.map_eq_none_iff]
        exact can _ _ _
      obtain ⟨later, after, draw, same⟩ := fair.phases time passes
      exact given after fun _ _ => .inr ⟨draw, same, can⟩
  · -- It has moved on by some later time.
    obtain ⟨later, moved⟩ := not_forall.mp stays
    obtain ⟨after, gone⟩ := Classical.not_imp.mp moved
    obtain ⟨next, boots', closer⟩ := boots.later grown after
    rcases closer with rfl | lower
    · exact absurd boots' gone
    · exact ⟨later, next, boots', lower⟩

/-- A bootstrap that gets its turns has a result sooner or later. -/
theorem Boots.exists_result (inStep : r.InStep) (grown : ∀ e ∈ r.errands, Grown e)
    (fair : r.Fair index schedule) (boots : (r.follow schedule time).Boots index b) :
    ∃ later last result, (r.follow schedule later).Boots index last ∧
      last.result? = some result := by
  induction rank : b.rank using WellFoundedLT.induction generalizing time b with
  | ind _ lower =>
    cases ended : b.result? with
    | some result => exact ⟨time, b, result, boots, ended⟩
    | none =>
      obtain ⟨later, next, boots', less⟩ := boots.lowers inStep grown fair ended
      rw [rank] at less
      exact lower _ less boots' rfl

end Schedules

end NodeRun

end Overlay
