import Overlay.World

/-!
# Schedules

A schedule decides which move of a world comes next. Tasks that run together take turns in
order, line after line: a line keeps the turn as long as it can go on, and a task that begins a
phase starts over with its first line. Passes over all tasks follow each other until one changes
nothing; then the probes go on as far as they can, one after the other, and then time passes to
the next moment at which anything can happen. The schedule ends when all tasks are over or one
has failed.

The number of moves is limited by a budget, so that every schedule ends; without an answer
when the budget runs out or nothing can ever happen again.
-/
namespace Overlay

/-- Tasks that run together, and whose turn it is. -/
structure Crew where
  /-- The tasks. -/
  tasks : Array Task
  /-- The task whose turn it is. -/
  task : Nat
  /-- The line whose turn it is. -/
  line : Nat
  /-- Something has changed in this pass. -/
  moved : Bool

namespace Crew

/-- Tasks at the beginning of a pass. -/
def ofTasks (tasks : List Task) : Crew := ⟨tasks.toArray, 0, 0, false⟩

/-- All tasks are over, or one has failed. -/
def isOver (c : Crew) : Bool :=
  c.tasks.all (·.activity.isOver) || c.tasks.any (·.activity.isFailed)

/-- The times at which a task may be able to go on. -/
def times (c : Crew) : List Nat := c.tasks.toList.flatMap (·.times)

/-- The crew at the beginning of the next pass. -/
def newPass (c : Crew) : Crew := { c with task := 0, line := 0, moved := false }

/-- One move: the line whose turn it is goes on, or the turn passes. None at the end of a
pass. -/
def step (c : Crew) (w : World) : Option (World × Crew) := do
  let t ← c.tasks[c.task]?
  let become (w : World) (t : Task) (line : Nat) : World × Crew :=
    (w, { c with tasks := c.tasks.setIfInBounds c.task t, line := line, moved := true })
  let nextTask : Crew := { c with task := c.task + 1, line := 0 }
  if t.activity.isOver then some (w, nextTask)
  else if c.line < t.activity.lines then
    match t.turn w c.line with
    | some (w, t) => some (become w t c.line)
    | none => some (w, { c with line := c.line + 1 })
  else
    match t.proceed w with
    | some (w, t) => some (become w t 0)
    | none => some (w, nextTask)

end Crew

namespace World

/-- The earliest of some times that lies after now. -/
def earliest (now : Nat) (times : List Nat) : Option Nat := (times.filter (now < ·)).min?

/-- Let the probes go on until they have nothing left to do at this moment. -/
def settle (budget : Nat) (w : World) : Option World :=
  match budget with
  | 0 => none
  | budget + 1 =>
    match w.turnProbes with
    | some w => w.settle budget
    | none => some w

/-- One move of a schedule: a line makes a turn, or the turn passes; after a pass that has changed
something another pass begins, and after one that has not, a probe makes a turn, or time passes.
None when nothing can ever happen again. -/
def advance (w : World) (c : Crew) : Option (World × Crew) :=
  match c.step w with
  | some next => some next
  | none =>
    if c.moved then some (w, c.newPass)
    else
      match w.turnProbes with
      | some w => some (w, c)
      | none =>
        (earliest w.now (c.times ++ w.probeTimes)).map fun time =>
          ({ w with now := time }, c.newPass)

/-- Run tasks together until they are over. -/
def runCrew (budget : Nat) (w : World) (c : Crew) : Option (World × Crew) :=
  match budget with
  | 0 => none
  | budget + 1 =>
    if c.isOver then some (w, c)
    else
      match w.advance c with
      | some (w, c) => w.runCrew budget c
      | none => none

/-- Run one task until it is over. -/
def runTask (budget : Nat) (w : World) (t : Task) : Option (World × Task) := do
  let (w, c) ← w.runCrew budget (.ofTasks [t])
  let t ← c.tasks[0]?
  some (w, t)

/-- Let the clock go on to a time, with everything that the probes do until then. -/
def passTo (budget : Nat) (w : World) (time : Nat) : Option World :=
  match budget with
  | 0 => none
  | budget + 1 =>
    match w.turnProbes with
    | some w => w.passTo budget time
    | none =>
      if time ≤ w.now then some w
      else
        let next := (earliest w.now w.probeTimes).getD time
        { w with now := min next time }.passTo budget time

/-- The number of moves that a schedule may take. -/
def budget : Nat := 1000000000

end World

end Overlay
