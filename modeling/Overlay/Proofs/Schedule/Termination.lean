import Mathlib.Data.DFinsupp.WellFounded
import Overlay.Proofs.Schedule.Probes
import Overlay.Proofs.Schedule.Tasks

/-!
# Schedules end

Steady tasks at patient stations are carried out to their end by a schedule, if only its budget is
large enough. Every move lowers a measure, in this order: what is left of the tasks; the time until
their requests arrive; what can still happen to the probes at this instant; and the rest of the
pass. And there is always another move: a pass that changes nothing finds every task over or with a
request that arrives later, so that there is a time to wait for.
-/
namespace Overlay

/-! ## Large enough budgets -/

/-- This is what comes out if only the budget is large enough. -/
def Converges {β : Type} (f : Nat → Option β) (result : β) : Prop :=
  ∃ enough, ∀ budget, enough ≤ budget → f budget = some result

namespace Converges

variable {β γ : Type} {f : Nat → Option β} {result : β}

/-- What does not depend on the budget. -/
theorem pure (result : β) : Converges (fun _ => some result) result := ⟨0, fun _ _ => rfl⟩

/-- One thing after another. -/
theorem bind {g : β → Nat → Option γ} {last : γ} (first : Converges f result)
    (second : Converges (g result) last) :
    Converges (fun budget => (f budget).bind fun between => g between budget) last := by
  obtain ⟨one, first⟩ := first
  obtain ⟨two, second⟩ := second
  refine ⟨max one two, fun budget enough => ?_⟩
  dsimp only
  rw [first budget (Nat.le_trans (Nat.le_max_left ..) enough), Option.bind_some,
    second budget (Nat.le_trans (Nat.le_max_right ..) enough)]

/-- What is made of what comes out. -/
theorem map (g : β → γ) (converges : Converges f result) :
    Converges (fun budget => (f budget).map g) (g result) := by
  obtain ⟨enough, converges⟩ := converges
  exact ⟨enough, fun budget more => congrArg (Option.map g) (converges budget more)⟩

/-- What comes out can be had. -/
theorem exists_eq (converges : Converges f result) : ∃ budget, f budget = some result := by
  obtain ⟨enough, converges⟩ := converges
  exact ⟨enough, converges enough (Nat.le_refl enough)⟩

end Converges

/-! ## The measure -/

/-- The time until the requests of a task have arrived. -/
def Task.distance (now : Nat) (t : Task) : Nat :=
  (t.flights.map fun e => e.2.arrives.getD 0 - now).sum

namespace Crew

/-- What is left of the task of a number. -/
def rank (c : Crew) (index : Nat) : Nat ×ₗ Nat ×ₗ Nat ×ₗ Nat :=
  match c.tasks[index]? with
  | some t => t.activity.rank
  | none => toLex (0, toLex (0, toLex (0, 0)))

/-- The time until the requests of all tasks have arrived. -/
def distance (now : Nat) (c : Crew) : Nat := (c.tasks.toList.map (Task.distance now)).sum

/-- Number of lines that have not been tried of the task whose turn it is. -/
def linesLeft (c : Crew) : Nat :=
  match c.tasks[c.task]? with
  | some t => t.activity.lines - c.line
  | none => 0

/-- What is left of a pass: another one, if something has changed; then tasks; then lines. -/
def passLeft (c : Crew) : Nat ×ₗ Nat ×ₗ Nat :=
  toLex (c.moved.toNat, toLex (c.tasks.size - c.task, c.linesLeft))

/-- What is left to be done by a crew of so many tasks. -/
def measure (size : Nat) (w : World) (c : Crew) :
    (Fin size → Nat ×ₗ Nat ×ₗ Nat ×ₗ Nat) ×ₗ Nat ×ₗ Nat ×ₗ Nat ×ₗ Nat ×ₗ Nat :=
  toLex (fun index => c.rank index, toLex (c.distance w.now, toLex (w.urgency, c.passLeft)))

section Measure

variable {size : Nat} {w w' : World} {c c' : Crew} {t t' : Task}

/-- A task that has come closer to its end. -/
theorem measure_of_rank (inside : c.task < size) (here : c.tasks[c.task]? = some t)
    (less : t'.activity.rank < t.activity.rank)
    (tasks : c'.tasks = c.tasks.setIfInBounds c.task t') :
    c'.measure size w' < c.measure size w := by
  have own : c'.rank c.task < c.rank c.task := by
    have known := (Array.getElem?_eq_some_iff.mp here).1
    rw [rank, rank, here, tasks, Array.getElem?_setIfInBounds_self_of_lt known]
    exact less
  refine Prod.Lex.toLex_lt_toLex.mpr (.inl (Pi.lt_def.mpr ⟨fun index => ?_, ⟨c.task, inside⟩, own⟩))
  by_cases same : c.task = index
  · have le := le_of_lt own
    rwa [same] at le
  · refine le_of_eq ?_
    dsimp only
    rw [rank, rank, tasks, Array.getElem?_setIfInBounds_ne same]

/-- A pass that has come closer to its end. -/
theorem measure_of_pass (tasks : c'.tasks = c.tasks) (less : c'.passLeft < c.passLeft) :
    c'.measure size w < c.measure size w := by
  have ranks : c'.rank = c.rank := by
    funext index
    rw [rank, rank, tasks]
  have distances : c'.distance w.now = c.distance w.now := by rw [distance, distance, tasks]
  rw [measure, measure, ranks, distances]
  refine Prod.Lex.toLex_lt_toLex.mpr (.inr ⟨rfl, Prod.Lex.toLex_lt_toLex.mpr (.inr ⟨rfl, ?_⟩)⟩)
  exact Prod.Lex.toLex_lt_toLex.mpr (.inr ⟨rfl, less⟩)

/-- Probes that have come closer to rest. -/
theorem measure_of_urgency (now : w'.now = w.now) (less : w'.urgency < w.urgency) :
    c.measure size w' < c.measure size w := by
  rw [measure, measure, now]
  refine Prod.Lex.toLex_lt_toLex.mpr (.inr ⟨rfl, Prod.Lex.toLex_lt_toLex.mpr (.inr ⟨rfl, ?_⟩)⟩)
  exact Prod.Lex.toLex_lt_toLex.mpr (.inl less)

/-- Requests that have come closer to their arrival. -/
theorem measure_of_distance (tasks : c'.tasks = c.tasks)
    (less : c'.distance w'.now < c.distance w.now) : c'.measure size w' < c.measure size w := by
  have ranks : c'.rank = c.rank := by
    funext index
    rw [rank, rank, tasks]
  rw [measure, measure, ranks]
  exact Prod.Lex.toLex_lt_toLex.mpr (.inr ⟨rfl, Prod.Lex.toLex_lt_toLex.mpr (.inl less)⟩)

/-- While a request is under way, time brings it closer to its arrival. -/
theorem distance_lt {now time : Nat} (after : now < time) (listed : t ∈ c.tasks)
    (flying : t.Flying now) : c.distance time < c.distance now := by
  have closer (t : Task) : t.distance time ≤ t.distance now :=
    List.sum_le_sum fun e _ => Nat.sub_le_sub_left (Nat.le_of_lt after) _
  refine List.sum_lt_sum _ _ (fun t _ => closer t) ⟨t, Array.mem_toList_iff.mpr listed, ?_⟩
  obtain ⟨e, sent, arrival, arrives, later⟩ := flying
  refine List.sum_lt_sum _ _ (fun e _ => Nat.sub_le_sub_left (Nat.le_of_lt after) _) ⟨e, sent, ?_⟩
  rw [arrives, Option.getD_some]
  omega

end Measure

end Crew

/-! ## Crews at work -/

namespace World

/-- Stations stay patient. -/
theorem Patient.later {w w' : World} (patient : w.Patient) (later : w.Later w') : w'.Patient where
  simulates := later.simulates patient.simulates
  stations number s' here := by
    obtain ⟨s, there, frame⟩ := later.exists_station here
    obtain ⟨held, going, waits⟩ := patient.stations number s there
    have held' : s'.held = true := (congrArg (·.2) frame).trans held
    have config : s'.node.config = s.node.config := congrArg (·.1.config) frame
    have closed : (s'.held && s'.node.monitor.closed) = (s.held && s.node.monitor.closed) :=
      congrArg (·.1.closed) frame
    rw [held, held', Bool.true_and, Bool.true_and, going] at closed
    exact ⟨held', closed, config ▸ waits⟩

/-- A crew at work at patient stations: its tasks are steady, and a pass that has changed nothing
has found that they can only wait. -/
structure Works (w : World) (c : Crew) : Prop where
  /-- The stations are patient. -/
  patient : w.Patient
  /-- The tasks are steady. -/
  steady : ∀ t ∈ c.tasks, t.Steady w.stations.size w.horizon
  /-- The lines that have passed on their turn can only wait. -/
  lines : c.moved = false → ∀ t, c.tasks[c.task]? = some t → ∀ line < c.line, t.turn w line = none
  /-- The tasks that have passed on their turn are over or have a request under way. -/
  tasks : c.moved = false → ∀ index < c.task, ∀ t, c.tasks[index]? = some t →
    t.activity.isOver = true ∨ t.Flying w.now

variable {w w' : World} {c c' : Crew} {t t' : Task}

/-- Tasks begin their work together. -/
theorem works_ofTasks (patient : w.Patient) {tasks : List Task}
    (steady : ∀ t ∈ tasks, t.Steady w.stations.size w.horizon) : w.Works (.ofTasks tasks) where
  patient := patient
  steady t member := steady t (List.mem_toArray.mp member)
  lines _ _ _ line before := absurd before (Nat.not_lt_zero line)
  tasks _ index before := absurd before (Nat.not_lt_zero index)

/-- A task that passes on its turn is over or has a request under way. -/
theorem Works.flying (works : w.Works c) (here : c.tasks[c.task]? = some t)
    (still : c.moved = false)
    (rests : t.activity.isOver = true ∨ t.activity.lines ≤ c.line ∧ t.proceed w = none) :
    t.activity.isOver = true ∨ t.Flying w.now := by
  cases going : t.activity.isOver with
  | true => exact .inl rfl
  | false =>
    rw [going] at rests
    obtain ⟨beyond, stays⟩ := rests.resolve_left Bool.false_ne_true
    refine .inr ((works.steady t (Array.mem_of_getElem? here)).flying going (fun line inside => ?_)
      stays)
    exact works.lines still t here line (Nat.lt_of_lt_of_le inside beyond)

/-- A crew stays at work when one of its tasks changes. -/
theorem Works.replace (works : w.Works c) (same : w'.frame = w.frame)
    (steady : t'.Steady w.stations.size w.horizon) (line : Nat) :
    w'.Works { c with
      tasks := c.tasks.setIfInBounds c.task t', line := line, moved := true } where
  patient := works.patient.later (.of_frame same)
  steady t member := by
    rw [size_of_frame same, horizon_of_frame same]
    rcases Array.mem_or_eq_of_mem_setIfInBounds member with old | rfl
    · exact works.steady t old
    · exact steady
  lines still := nomatch still
  tasks still := nomatch still

/-- A crew stays at work when a pass begins. -/
theorem Works.newPass (works : w.Works c) (later : w.Later w')
    (size : w'.stations.size = w.stations.size) (horizon : w.horizon ≤ w'.horizon) :
    w'.Works c.newPass where
  patient := works.patient.later later
  steady t member := by
    rw [size]
    exact (works.steady t member).later horizon
  lines _ _ _ line before := absurd before (Nat.not_lt_zero line)
  tasks _ index before := absurd before (Nat.not_lt_zero index)

/-- A crew stays at work in every move. -/
theorem Works.advances (works : w.Works c) (advances : w.Advances c w' c') : w'.Works c' := by
  cases advances with
  | turn here going inside made =>
    have steady := works.steady _ (Array.mem_of_getElem? here)
    exact works.replace (Task.frame_turn made)
      (steady.turn works.patient.simulates (Nat.le_refl _) inside made).1 c.line
  | proceed here going beyond made =>
    have steady := works.steady _ (Array.mem_of_getElem? here)
    exact works.replace (Task.frame_proceed made) (steady.proceed made).1 0
  | @passLine t here going inside stuck =>
    refine ⟨works.patient, works.steady, fun still other there line before => ?_, works.tasks⟩
    rcases Nat.lt_succ_iff_lt_or_eq.mp before with earlier | rfl
    · exact works.lines still other there line earlier
    · rw [Option.some.inj (there.symm.trans here)]
      exact stuck
  | @passTask t here rests =>
    refine ⟨works.patient, works.steady,
      fun _ _ _ line before => absurd before (Nat.not_lt_zero line),
      fun still index before other there => ?_⟩
    rcases Nat.lt_succ_iff_lt_or_eq.mp before with earlier | rfl
    · exact works.tasks still index earlier other there
    · rw [Option.some.inj (there.symm.trans here)]
      exact works.flying here still rests
  | again => exact works.newPass (.refl w) rfl (Nat.le_refl _)
  | probe ended still made =>
    have same := frame_turnProbes made
    refine ⟨works.patient.later (.of_frame same), ?_, fun _ t here => ?_, ?_⟩
    · rw [size_of_frame same, horizon_of_frame same]
      exact works.steady
    · rw [ended] at here
      cases here
    · rw [show w'.now = w.now from congrArg World.Frame.now same]
      exact works.tasks
  | wait ended still quiet next =>
    have later := Nat.le_of_lt (of_earliest next).1
    exact works.newPass ⟨rfl, later⟩ rfl (Nat.add_le_add_right later _)

/-- At the end of a pass that has changed nothing, a crew that is not over has a request that
arrives later, by the time that requests take. -/
theorem Works.exists_flying (works : w.Works c) (going : c.isOver = false)
    (ended : c.tasks[c.task]? = none) (still : c.moved = false) :
    ∃ t ∈ c.tasks, t.Flying w.now ∧ 0 < w.simulated.latency := by
  obtain ⟨all, -⟩ := Bool.or_eq_false_iff.mp going
  obtain ⟨index, inside, unfinished⟩ := Array.all_eq_false.mp all
  have here : c.tasks[index]? = some c.tasks[index] := Array.getElem?_eq_getElem inside
  have passed : index < c.task := Nat.lt_of_lt_of_le inside (Array.getElem?_eq_none_iff.mp ended)
  have flying := (works.tasks still index passed _ here).resolve_left unfinished
  have member := Array.getElem_mem inside
  refine ⟨_, member, flying, ?_⟩
  obtain ⟨e, sent, time, arrives, later⟩ := flying
  obtain ⟨early, arrives', near⟩ := (works.steady _ member).arrive e sent
  obtain rfl := Option.some.inj (arrives.symm.trans arrives')
  rw [horizon] at near
  omega

/-- Every move of a crew that is not over leaves less to be done. -/
theorem Works.lowers (works : w.Works c) (going : c.isOver = false)
    (advances : w.Advances c w' c') {size : Nat} (all : c.tasks.size = size) :
    c'.measure size w' < c.measure size w := by
  have inside {t : Task} (here : c.tasks[c.task]? = some t) : c.task < c.tasks.size :=
    (Array.getElem?_eq_some_iff.mp here).1
  cases advances with
  | turn here _ inside' made =>
    have steady := works.steady _ (Array.mem_of_getElem? here)
    exact Crew.measure_of_rank (all ▸ inside here) here
      (steady.turn works.patient.simulates (Nat.le_refl _) inside' made).2 rfl
  | proceed here _ beyond made =>
    have steady := works.steady _ (Array.mem_of_getElem? here)
    exact Crew.measure_of_rank (all ▸ inside here) here (steady.proceed made).2 rfl
  | @passLine t here _ inside' stuck =>
    refine Crew.measure_of_pass rfl ?_
    refine Prod.Lex.toLex_lt_toLex.mpr (.inr ⟨rfl, Prod.Lex.toLex_lt_toLex.mpr (.inr ⟨rfl, ?_⟩)⟩)
    simp only [Crew.linesLeft, here]
    omega
  | passTask here rests =>
    refine Crew.measure_of_pass rfl ?_
    refine Prod.Lex.toLex_lt_toLex.mpr (.inr ⟨rfl, Prod.Lex.toLex_lt_toLex.mpr (.inl ?_)⟩)
    have known := inside here
    dsimp only
    omega
  | again ended moved =>
    refine Crew.measure_of_pass rfl (Prod.Lex.toLex_lt_toLex.mpr (.inl ?_))
    rw [moved]
    exact Nat.zero_lt_one
  | probe ended still made =>
    obtain ⟨t, -, -, latency⟩ := works.exists_flying going ended still
    exact Crew.measure_of_urgency (congrArg World.Frame.now (frame_turnProbes made))
      (urgency_turnProbes works.patient latency made)
  | wait ended still quiet next =>
    obtain ⟨t, member, flying, -⟩ := works.exists_flying going ended still
    exact Crew.measure_of_distance rfl (Crew.distance_lt (of_earliest next).1 member flying)

/-- A crew that is not over has a move. -/
theorem Works.exists_advance (works : w.Works c) (going : c.isOver = false) :
    ∃ next, w.advance c = some next := by
  refine Option.ne_none_iff_exists'.mp fun stuck => ?_
  obtain ⟨ended, still, -, idle⟩ := advance_eq_none stuck
  obtain ⟨t, member, ⟨e, sent, time, arrives, later⟩, -⟩ := works.exists_flying going ended still
  have listed : time ∈ c.times ++ w.probeTimes := by
    refine List.mem_append_left _ (List.mem_flatMap.mpr ⟨t, Array.mem_toList_iff.mpr member, ?_⟩)
    refine List.mem_append_right _ (List.mem_flatMap.mpr ⟨e, sent, ?_⟩)
    exact List.mem_append_left _ (arrives ▸ List.mem_singleton_self time)
  have kept : time ∈ (c.times ++ w.probeTimes).filter (w.now < ·) :=
    List.mem_filter.mpr ⟨listed, decide_eq_true later⟩
  rw [List.min?_eq_none_iff.mp idle] at kept
  cases kept

/-- The work of a crew comes to its end. -/
theorem Works.converges (works : w.Works c) :
    ∃ result, Converges (fun budget => w.runCrew budget c) result := by
  generalize all : c.tasks.size = size
  generalize left : c.measure size w = measure
  induction measure using WellFoundedLT.induction generalizing w c with
  | ind measure further =>
    subst left
    cases going : c.isOver with
    | true =>
      refine ⟨(w, c), 1, fun budget enough => ?_⟩
      obtain ⟨budget, rfl⟩ := Nat.exists_eq_add_of_le' enough
      exact if_pos going
    | false =>
      obtain ⟨⟨w', c'⟩, made⟩ := works.exists_advance going
      have move := World.advances made
      obtain ⟨result, enough, ran⟩ := further _ (works.lowers going move all) (works.advances move)
        (move.size.trans all) rfl
      refine ⟨result, enough + 1, fun budget more => ?_⟩
      obtain ⟨budget, rfl⟩ :=
        Nat.exists_eq_add_of_le' (Nat.le_trans (Nat.le_add_left 1 enough) more)
      have next : w.runCrew (budget + 1) c = w'.runCrew budget c' := by
        simp only [runCrew, going, if_neg Bool.false_ne_true, made]
      exact next.trans (ran budget (Nat.le_of_succ_le_succ more))

end World

end Overlay
