import Overlay.Proofs.World.Frame

/-!
# Moves of a schedule

What one move of a schedule can do is said once: a line makes a turn or passes it on, a task begins
a phase or passes the turn on, a pass begins again, a probe makes a turn, or time passes. What every
move keeps is kept by whole schedules: the frame of the world, up to the time, and whatever turns
and phases keep of the activities.
-/
namespace Overlay

/-- The world has stayed in its frame, but time may have passed. -/
structure World.Later (w w' : World) : Prop where
  /-- The frame is the same up to the time. -/
  frame : w'.frame = { w.frame with now := w'.now }
  /-- Time does not go back. -/
  forward : w.now ≤ w'.now

namespace World.Later

variable {w w' w'' : World}

/-- Nothing has happened. -/
theorem refl (w : World) : w.Later w := ⟨rfl, Nat.le_refl _⟩

/-- What happens in the same frame happens at the same time. -/
theorem of_frame (same : w'.frame = w.frame) : w.Later w' := by
  have now : w'.now = w.now := congrArg World.Frame.now same
  exact ⟨by rw [same, now]; rfl, Nat.le_of_eq now.symm⟩

/-- More has happened. -/
theorem trans (first : w.Later w') (second : w'.Later w'') : w.Later w'' :=
  ⟨by rw [second.frame, first.frame], Nat.le_trans first.forward second.forward⟩

/-- What is not about the time stays. -/
theorem same {β : Type} (later : w.Later w') (part : World.Frame → β)
    (timeless : ∀ f now, part { f with now := now } = part f) : part w'.frame = part w.frame := by
  rw [later.frame, timeless]

/-- The stations have stayed in their frames. -/
theorem station? (later : w.Later w') (number : Nat) :
    (w'.station? number).map Station.frame = (w.station? number).map Station.frame := by
  have stations : w'.frame.stations = w.frame.stations := later.same (·.stations) fun _ _ => rfl
  have read (w : World) : w.frame.stations[number]? = (w.station? number).map Station.frame := by
    rw [World.station?, ← Array.getElem?_toList, ← List.getElem?_map]
    rfl
  rw [← read, ← read, stations]

/-- There are as many stations. -/
theorem size (later : w.Later w') : w'.stations.size = w.stations.size :=
  size_of_frame (w := { w with now := w'.now }) later.frame

/-- A simulated network stays one. -/
theorem simulates (later : w.Later w') (simulates : w.Simulates) : w'.Simulates :=
  simulates_of_frame (w := { w with now := w'.now }) later.frame simulates

/-- A station has been there before, in the same frame. -/
theorem exists_station (later : w.Later w') {number : Nat} {s' : Station}
    (here : w'.station? number = some s') :
    ∃ s, w.station? number = some s ∧ s'.frame = s.frame := by
  have same := later.station? number
  rw [here] at same
  obtain ⟨s, there, frame⟩ := Option.map_eq_some_iff.mp same.symm
  exact ⟨s, there, frame.symm⟩

end World.Later

/-- What one move of a schedule does. -/
inductive World.Advances (w : World) (c : Crew) : World → Crew → Prop
  /-- A line makes a turn, and keeps it. -/
  | turn {t t' : Task} {w' : World} (here : c.tasks[c.task]? = some t)
      (going : t.activity.isOver = false) (inside : c.line < t.activity.lines)
      (made : t.turn w c.line = some (w', t')) :
      w.Advances c w' { c with tasks := c.tasks.setIfInBounds c.task t', moved := true }
  /-- A task begins a phase, with its first line. -/
  | proceed {t t' : Task} {w' : World} (here : c.tasks[c.task]? = some t)
      (going : t.activity.isOver = false) (beyond : t.activity.lines ≤ c.line)
      (made : t.proceed w = some (w', t')) :
      w.Advances c w'
        { c with tasks := c.tasks.setIfInBounds c.task t', line := 0, moved := true }
  /-- A line that can only wait passes the turn to the next. -/
  | passLine {t : Task} (here : c.tasks[c.task]? = some t) (going : t.activity.isOver = false)
      (inside : c.line < t.activity.lines) (stuck : t.turn w c.line = none) :
      w.Advances c w { c with line := c.line + 1 }
  /-- A task that is over, or can only wait, passes the turn to the next. -/
  | passTask {t : Task} (here : c.tasks[c.task]? = some t)
      (rests : t.activity.isOver = true ∨ t.activity.lines ≤ c.line ∧ t.proceed w = none) :
      w.Advances c w { c with task := c.task + 1, line := 0 }
  /-- A pass that has changed something is followed by another. -/
  | again (ended : c.tasks[c.task]? = none) (moved : c.moved = true) : w.Advances c w c.newPass
  /-- After a pass that has changed nothing, a probe makes a turn. -/
  | probe {w' : World} (ended : c.tasks[c.task]? = none) (still : c.moved = false)
      (made : w.turnProbes = some w') : w.Advances c w' c
  /-- When no probe can make a turn, time passes. -/
  | wait {time : Nat} (ended : c.tasks[c.task]? = none) (still : c.moved = false)
      (quiet : w.turnProbes = none)
      (next : World.earliest w.now (c.times ++ w.probeTimes) = some time) :
      w.Advances c { w with now := time } c.newPass

namespace World

variable {w w' : World} {c c' : Crew}

/-- A crew has no move at the end of a pass only. -/
theorem step_eq_none (rests : c.step w = none) : c.tasks[c.task]? = none := by
  cases here : c.tasks[c.task]? with
  | none => rfl
  | some t =>
    unfold Crew.step at rests
    simp only [here, Option.bind_eq_bind, Option.bind_some] at rests
    split at rests
    · cases rests
    · split at rests
      · split at rests <;> cases rests
      · split at rests <;> cases rests

/-- A move does one of these things. -/
theorem advances (made : w.advance c = some (w', c')) : w.Advances c w' c' := by
  unfold advance at made
  cases stepped : c.step w with
  | some next =>
    simp only [stepped] at made
    cases made
    unfold Crew.step at stepped
    obtain ⟨t, here, stepped⟩ := Option.bind_eq_some_iff.mp stepped
    split at stepped
    · next ended =>
      cases stepped
      exact .passTask here (.inl ended)
    · next going =>
      have going := Bool.eq_false_of_not_eq_true going
      split at stepped
      · next inside =>
        split at stepped
        · next after t' made =>
          cases stepped
          exact .turn here going inside made
        · next stuck =>
          cases stepped
          exact .passLine here going inside stuck
      · next beyond =>
        split at stepped
        · next after t' made =>
          cases stepped
          exact .proceed here going (Nat.le_of_not_lt beyond) made
        · next stuck =>
          cases stepped
          exact .passTask here (.inr ⟨Nat.le_of_not_lt beyond, stuck⟩)
  | none =>
    have ended := step_eq_none stepped
    simp only [stepped] at made
    split at made
    · next moved =>
      cases made
      exact .again ended moved
    · next still =>
      have still := Bool.eq_false_of_not_eq_true still
      split at made
      · next after turned =>
        cases made
        exact .probe ended still turned
      · next quiet =>
        obtain ⟨time, next, made⟩ := Option.map_eq_some_iff.mp made
        cases made
        exact .wait ended still quiet next

/-- There is no move if a pass has changed nothing, no probe can make a turn, and there is nothing
to wait for. -/
theorem advance_eq_none (stuck : w.advance c = none) :
    c.tasks[c.task]? = none ∧ c.moved = false ∧ w.turnProbes = none ∧
      earliest w.now (c.times ++ w.probeTimes) = none := by
  unfold advance at stuck
  cases stepped : c.step w with
  | some next =>
    simp only [stepped] at stuck
    cases stuck
  | none =>
    simp only [stepped] at stuck
    split at stuck
    · cases stuck
    · next still =>
      split at stuck
      · cases stuck
      · next quiet =>
        exact ⟨step_eq_none stepped, Bool.eq_false_of_not_eq_true still, quiet,
          Option.map_eq_none_iff.mp stuck⟩

/-- The earliest time after now is one of the times and lies after now. -/
theorem of_earliest {now time : Nat} {times : List Nat} (next : earliest now times = some time) :
    now < time ∧ time ∈ times := by
  have member := List.min?_mem next
  obtain ⟨listed, after⟩ := List.mem_filter.mp member
  exact ⟨of_decide_eq_true after, listed⟩

/-- A move keeps the world in its frame. -/
theorem Advances.later (advances : w.Advances c w' c') : w.Later w' := by
  cases advances with
  | turn _ _ _ made => exact .of_frame (Task.frame_turn made)
  | proceed _ _ _ made => exact .of_frame (Task.frame_proceed made)
  | passLine | passTask | again => exact .refl w
  | probe _ _ made => exact .of_frame (frame_turnProbes made)
  | wait _ _ _ next => exact ⟨rfl, Nat.le_of_lt (of_earliest next).1⟩

/-- Tasks neither come nor go. -/
theorem Advances.size (advances : w.Advances c w' c') : c'.tasks.size = c.tasks.size := by
  cases advances with
  | turn | proceed => exact Array.size_setIfInBounds
  | passLine | passTask | again | probe | wait => rfl

/-- What every move keeps is kept by a schedule, and a schedule that ends is over. -/
theorem runCrew_keeps {P : World → Crew → Prop}
    (kept : ∀ {w c w' c'}, P w c → c.isOver = false → Advances w c w' c' → P w' c')
    {budget : Nat} (holds : P w c) (ran : w.runCrew budget c = some (w', c')) :
    P w' c' ∧ c'.isOver = true := by
  induction budget generalizing w c with
  | zero => cases ran
  | succ budget further =>
    unfold runCrew at ran
    split at ran
    · next ended =>
      cases ran
      exact ⟨holds, ended⟩
    · next going =>
      split at ran
      · next after onward made =>
        exact further (kept holds (Bool.eq_false_of_not_eq_true going) (World.advances made)) ran
      · cases ran

/-- A schedule keeps the world in its frame. -/
theorem runCrew_later {budget : Nat} (ran : w.runCrew budget c = some (w', c')) : w.Later w' :=
  (runCrew_keeps (P := fun after _ => w.Later after)
    (fun later _ advances => later.trans advances.later) (.refl w) ran).1

end World

/-- Tasks neither come nor go in a schedule. -/
theorem World.runCrew_size {w w' : World} {c c' : Crew} {budget : Nat}
    (ran : w.runCrew budget c = some (w', c')) : c'.tasks.size = c.tasks.size :=
  (runCrew_keeps (P := fun _ after => after.tasks.size = c.tasks.size)
    (fun same _ advances => advances.size.trans same) rfl ran).1

/-! ## Activities -/

/-- An activity that has failed is over. -/
theorem Activity.isOver_of_isFailed {α : Type} {a : Activity α} (failed : a.isFailed = true) :
    a.isOver = true := by
  unfold isFailed at failed
  split at failed
  · next b =>
    split at failed
    · next fault result => exact Option.isSome_of_mem result
    · cases failed
  · cases failed

/-- A property of activities that turns and new phases keep. -/
structure Activity.Invariant (P : Activity String → Prop) : Prop where
  /-- A turn keeps it. -/
  turn : ∀ {a : Activity String} {n : Node String} {now line : Nat} {fired : Bool}
    {reply : Option (Reply String)} {t : Turn String (Activity String)},
    P a → a.turn n now fired line reply = some t → P t.next
  /-- A new phase keeps it. -/
  proceed : ∀ {a next : Activity String} {n : Node String} {now : Nat} {fired : Bool} {draw : Id},
    P a → a.proceed n now fired draw = some next → P next

section Activities

variable {P : Activity String → Prop} {w w' : World} {c c' : Crew} {t t' : Task} {line : Nat}

/-- What a turn of a line of a task comes to: a turn of its activity. -/
theorem Task.turnWith_cases {reply : Option (Reply String)}
    (made : t.turnWith w line reply = some (w', t')) :
    ∃ n turn, t.node? w = some n ∧
      t.activity.turn n w.now (t.token.fired w.now) line reply = some turn ∧
      ((turn.call = none ∧ w' = t.putBack w turn.node ∧ t' = { t with activity := turn.next }) ∨
        ∃ call, turn.call = some call ∧
          w' = ((t.putBack w turn.node).send t.caller call).2 ∧
          t' = { t with
            activity := turn.next
            flights := (line, ((t.putBack w turn.node).send t.caller call).1) :: t.flights }) := by
  unfold turnWith at made
  obtain ⟨n, here, made⟩ := Option.bind_eq_some_iff.mp made
  obtain ⟨turn, moved, made⟩ := Option.bind_eq_some_iff.mp made
  refine ⟨n, turn, here, moved, ?_⟩
  split at made
  · next none =>
    cases made
    exact .inl ⟨none, rfl, rfl⟩
  · next call called =>
    cases made
    exact .inr ⟨call, called, rfl, rfl⟩

/-- What a turn of a line comes to: one without a reply if no request of the line is in flight, and
one with the reply to its request, when that has ended. -/
theorem Task.turn_cases (made : t.turn w line = some (w', t')) :
    (t.flights.lookup line = none ∧ t.turnWith w line none = some (w', t')) ∨
      ∃ flight reply between, t.flights.lookup line = some flight ∧
        w.resolve flight (t.token.fired w.now) = some (reply, between) ∧
        { t with flights := t.flights.filter fun e => e.1 ≠ line }.turnWith between line
          (some reply) = some (w', t') := by
  unfold turn at made
  split at made
  · next none => exact .inl ⟨none, made⟩
  · next flight sent =>
    obtain ⟨⟨reply, between⟩, resolved, made⟩ := Option.bind_eq_some_iff.mp made
    exact .inr ⟨flight, reply, between, sent, resolved, made⟩

/-- What a new phase of a task comes to: one of its activity. -/
theorem Task.proceed_cases (made : t.proceed w = some (w', t')) :
    ∃ n next draw randomness, t.node? w = some n ∧
      t.activity.proceed n w.now (t.token.fired w.now) draw = some next ∧
      w' = { w with randomness := randomness } ∧ t' = { t with activity := next } := by
  unfold proceed at made
  obtain ⟨n, here, made⟩ := Option.bind_eq_some_iff.mp made
  obtain ⟨next, moved, made⟩ := Option.bind_eq_some_iff.mp made
  cases made
  exact ⟨n, next, _, _, here, moved, rfl, rfl⟩

/-- What an invariant says of an activity is kept by a turn of its task. -/
theorem Activity.Invariant.task_turn (invariant : Invariant P) (holds : P t.activity)
    (made : t.turn w line = some (w', t')) : P t'.activity := by
  have turned {before : Task} {between : World} {reply : Option (Reply String)}
      (made : before.turnWith between line reply = some (w', t')) (holds : P before.activity) :
      P t'.activity := by
    obtain ⟨n, turn, -, moved, ⟨-, -, rfl⟩ | ⟨call, -, -, rfl⟩⟩ := Task.turnWith_cases made <;>
      exact invariant.turn holds moved
  rcases Task.turn_cases made with ⟨-, made⟩ | ⟨flight, reply, between, -, -, made⟩
  · exact turned made holds
  · exact turned made holds

/-- What an invariant says of the activities of a crew is kept by a move. -/
theorem Activity.Invariant.advances (invariant : Invariant P)
    (holds : ∀ t ∈ c.tasks, P t.activity) (advances : w.Advances c w' c') :
    ∀ t ∈ c'.tasks, P t.activity := by
  have placed {t' : Task} (next : P t'.activity) :
      ∀ t ∈ c.tasks.setIfInBounds c.task t', P t.activity := by
    intro t member
    rcases Array.mem_or_eq_of_mem_setIfInBounds member with old | rfl
    · exact holds t old
    · exact next
  cases advances with
  | turn here _ _ made =>
    exact placed (invariant.task_turn (holds _ (Array.mem_of_getElem? here)) made)
  | proceed here _ _ made =>
    obtain ⟨n, next, draw, randomness, -, moved, -, rfl⟩ := Task.proceed_cases made
    exact placed (invariant.proceed (holds _ (Array.mem_of_getElem? here)) moved)
  | passLine | passTask | again | probe | wait => exact holds

/-- What an invariant says of the activities of a crew is kept by a schedule. -/
theorem Activity.Invariant.runCrew (invariant : Invariant P) {budget : Nat}
    (holds : ∀ t ∈ c.tasks, P t.activity) (ran : w.runCrew budget c = some (w', c')) :
    ∀ t ∈ c'.tasks, P t.activity :=
  (World.runCrew_keeps (P := fun _ c => ∀ t ∈ c.tasks, P t.activity)
    (fun holds _ advances => invariant.advances holds advances) holds ran).1

end Activities

end Overlay
