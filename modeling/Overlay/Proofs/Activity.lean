import Overlay.Activity
import Overlay.Proofs.Lookup.Knowledge
import Overlay.Proofs.Monitor

/-!
# What activities wait for and what they let a node learn

A line of an activity waits for the reply to one call or for nothing. A turn concerns its own
line: whatever the line waited for is settled, the line waits for the call that the turn makes,
and the other lines wait for what they waited for before. The node learns of the node asked what
the reply says, and nothing of the nodes that the reply lists. A phase ends when no line waits,
and the next one begins in the same way.
-/
namespace Overlay

variable {α : Type}

/-- What a node asks, and of whom. -/
abbrev Question (α : Type) := Contact α × Request

/-- What the reply to a question says of the node asked. -/
def News.ofReply (fired : Bool) (question : Question α) (reply : Reply α) : List (News α) :=
  match question.2 with
  | .ping => ofGreeting question.1 reply
  | .find _ => ofQuery fired question.1 reply

/-- What a turn says of the node that was asked before it, if any was. -/
def News.ofTurn (fired : Bool) :
    Option (Question α) → Option (Reply α) → List (News α)
  | some question, some reply => ofReply fired question reply
  | _, _ => []

/-! ## What a node learns -/

/-- A node has learnt some news and goes on with its probes. -/
structure Node.Learns (n : Node α) (news : List (News α)) (next : Node α) : Prop where
  /-- It is the same node. -/
  self : next.self = n.self
  /-- Its ledger is the one after the news. -/
  ledger : next.monitor.ledger = n.monitor.ledger.learnAll news
  /-- Its probes wait for what they waited for. -/
  awaits : next.monitor.awaits = n.monitor.awaits

/-- A node that only changes its mind about whom to leave alone learns nothing. -/
theorem Node.Learns.nothing (n : Node α) (cool : CoolDown) :
    n.Learns [] { n with cool := cool } := ⟨rfl, rfl, rfl⟩

/-- Whom a node leaves alone is no matter of what it learns. -/
theorem Node.Learns.cooled {n next : Node α} {news : List (News α)} (learns : n.Learns news next)
    (cool : CoolDown) : n.Learns news { next with cool := cool } :=
  ⟨learns.self, learns.ledger, learns.awaits⟩

/-- A message lets the node learn that its sender is alive. -/
theorem Node.heard_learns (n : Node α) (now : Nat) (c : Contact α) :
    n.Learns [.alive c] (n.heard now c).2 :=
  ⟨rfl, n.monitor.ledger_heard now c, n.monitor.awaits_heard now c⟩

/-- The end of a query lets the node learn what it says of the node asked. -/
theorem Node.judge_learns (n : Node α) (now : Nat) (fired : Bool) (asked : Contact α)
    (reply : Reply α) :
    n.Learns (News.ofQuery fired asked reply) (n.judge now fired asked reply) := by
  cases reply with
  | ok contacts => exact n.heard_learns now asked
  | error fault =>
    rw [judge, News.ofQuery]
    split
    · exact .nothing n n.cool
    · exact ⟨rfl, n.monitor.ledger_requestFailed asked.id, n.monitor.awaits_requestFailed asked.id⟩

/-! ## What lines wait for -/

/-- What the lines of a list wait for. -/
def awaited {β : Type} (f : β → Option (Question α)) (items : List β) (line : Nat) :
    Option (Question α) :=
  (items[line]?).bind f

/-- No line waits. -/
def idle (_ : Nat) : Option (Question α) := none

/-- What the lines wait for when there is only one. -/
def alone (question : Option (Question α)) : Nat → Option (Question α) :=
  Function.update idle 0 question

section Lines

variable {β : Type} {f : β → Option (Question α)} {items : List β} {line : Nat}

/-- A line that does something else waits for something else. -/
theorem awaited_update (inside : line < items.length) (x : β) :
    awaited f (items.set line x) = Function.update (awaited f items) line (f x) := by
  funext other
  rw [awaited, Function.update_apply]
  split
  · next same => rw [same, List.getElem?_set_self inside, Option.bind_some]
  · next different =>
    rw [List.getElem?_set_ne (fun same => different same.symm)]
    rfl

/-- What a line waits for depends on what it does. -/
theorem awaited_eq {x : β} (here : items[line]? = some x) : awaited f items line = f x := by
  rw [awaited, here, Option.bind_some]

/-- No line waits when nothing that the lines do is waiting. -/
theorem awaited_idle (none : ∀ x ∈ items, f x = none) : awaited f items = idle := by
  funext line
  cases here : items[line]? with
  | none => rw [awaited, here, Option.bind_none, idle]
  | some x => rw [awaited_eq here, none x (List.mem_of_getElem? here), idle]

/-- The only line waits for something else. -/
@[simp]
theorem update_alone (before after : Option (Question α)) :
    Function.update (alone before) 0 after = alone after :=
  Function.update_idem ..

/-- What the only line waits for. -/
@[simp]
theorem alone_zero (question : Option (Question α)) : alone question 0 = question :=
  Function.update_self ..

/-- When the only line does not wait, none does. -/
@[simp]
theorem alone_none : alone (none : Option (Question α)) = idle := Function.update_eq_self ..

end Lines

/-- The only query of a worker. -/
def Worker.question (target : Id) : Worker α → Option (Question α)
  | .awaiting c => some (c, .find target)
  | .idle | .stopped => none

/-- What the workers of a lookup wait for. -/
def LookupRun.awaits (run : LookupRun α) : Nat → Option (Question α) :=
  awaited (Worker.question run.lookup.target) run.workers

/-- What a walk waits for. -/
def Walk.question (w : Walk α) : Option (Question α) :=
  w.awaiting.map fun c => (c, .find w.target)

/-- The ping of a contact to start from. -/
def BootPing.question : BootPing α → Option (Question α)
  | .sent c => some (c, .ping)
  | .unsent _ | .over _ => none

/-- What the lines of a bootstrap wait for. -/
def Bootstrap.awaits (b : Bootstrap α) : Nat → Option (Question α) :=
  match b.phase with
  | .pinging pings => awaited BootPing.question pings
  | .searching run | .refreshing run _ => run.awaits
  | .finished _ => idle

/-- What a single exchange waits for. -/
def Single.question (asked : Question α) : Single α → Option (Question α)
  | .sent => some asked
  | .unsent | .over _ => none

namespace Activity

/-- What the lines of an activity wait for. -/
def awaits : Activity α → Nat → Option (Question α)
  | exchange call state => alone (state.question call.question)
  | query asked target state => alone (state.question (asked, .find target))
  | lookup run => run.awaits
  | pull p => alone p.walk.question
  | bootstrap b | upkeep b => b.awaits
  | pause _ | withdrawn _ => idle

/-- The activity is about the table of the node. -/
def isOwn : Activity α → Bool
  | exchange _ _ => false
  | _ => true

end Activity

/-! ## Turns -/

/-- The turn of a line lets the node learn some news and settles what the line waits for. -/
structure Turn.Settles {β : Type} (t : Turn α β) (n : Node α) (news : List (News α)) (line : Nat)
    (before after : Nat → Option (Question α)) : Prop where
  /-- The node learns the news. -/
  learns : n.Learns news t.node
  /-- The line waits for the call of the turn, the others for what they waited for. -/
  after : after = Function.update before line (t.call.map Call.question)

section Turns

variable {n : Node α} {now line : Nat} {fired : Bool} {reply : Option (Reply α)}

/-- A worker that does something else waits for something else. -/
theorem LookupRun.awaits_setWorker {run : LookupRun α} {lookup : Lookup α}
    (inside : line < run.workers.length) (same : lookup.target = run.lookup.target)
    (worker : Worker α) :
    ({ run with lookup := lookup }.setWorker line worker).awaits =
      Function.update run.awaits line (worker.question run.lookup.target) := by
  unfold awaits setWorker
  rw [same, awaited_update inside]

/-- What an idle worker does: it stops, it is answered by the node itself, or it waits for the
reply to a query. -/
theorem LookupRun.take_cases {run : LookupRun α} {t : Turn α (LookupRun α)}
    (made : run.take n fired line = some t) :
    t.node = n ∧ ∃ lookup, lookup.target = run.lookup.target ∧
      ((t.next = { run with lookup := lookup }.setWorker line .stopped ∧ t.call = none) ∨
        (t.next = { run with lookup := lookup } ∧ t.call = none) ∨
        ∃ c, c.id ≠ n.id ∧ t.next = { run with lookup := lookup }.setWorker line (.awaiting c) ∧
          t.call = some (n.findCall c run.lookup.target)) := by
  unfold take at made
  cases fired with
  | true =>
    obtain rfl := Option.some.inj made
    exact ⟨rfl, run.lookup, rfl, .inl ⟨rfl, rfl⟩⟩
  | false =>
    rw [if_neg Bool.false_ne_true] at made
    rcases run.lookup.next_cases with ⟨-, next⟩ | ⟨-, c, rest, -, next⟩ | ⟨-, -, -, next⟩ |
      ⟨-, -, -, next⟩
    · simp only [next, Option.some.injEq] at made
      subst made
      exact ⟨rfl, { run.lookup with converged := true }, rfl, .inl ⟨rfl, rfl⟩⟩
    · simp only [next] at made
      by_cases own : c.id = n.id
      · -- The node asks itself and has its answer within the turn, so that the worker stays idle.
        rw [if_pos own] at made
        obtain rfl := Option.some.inj made
        obtain ⟨_, _, _, _, _, completed⟩ := (run.lookup.taken c rest).complete_frame false c
          (.ok (n.neighbours (run.lookup.taken c rest).target))
        refine ⟨rfl, _, ?_, .inr (.inl ⟨rfl, rfl⟩)⟩
        rw [completed]
        rfl
      · rw [if_neg own] at made
        obtain rfl := Option.some.inj made
        exact ⟨rfl, run.lookup.taken c rest, rfl, .inr (.inr ⟨c, own, rfl, rfl⟩)⟩
    · simp only [next, Option.some.injEq] at made
      subst made
      exact ⟨rfl, run.lookup, rfl, .inl ⟨rfl, rfl⟩⟩
    · simp only [next] at made
      cases made

/-- A turn of a worker settles what it waits for. -/
theorem LookupRun.turn_settles {run : LookupRun α} {t : Turn α (LookupRun α)}
    (made : run.turn n now fired line reply = some t)
    (due : reply.isSome = (run.awaits line).isSome) :
    t.Settles n (News.ofTurn fired (run.awaits line) reply) line run.awaits t.next.awaits := by
  unfold turn at made
  cases here : run.workers[line]? with
  | none => simp [here] at made
  | some worker =>
    have inside : line < run.workers.length := (List.getElem?_eq_some_iff.mp here).1
    have waits : run.awaits line = worker.question run.lookup.target := awaited_eq here
    rw [waits] at due ⊢
    cases worker with
    | idle =>
      simp only [here] at made
      obtain ⟨same, lookup, target, does⟩ := take_cases made
      refine ⟨same ▸ .nothing n n.cool, ?_⟩
      rcases does with ⟨next, call⟩ | ⟨next, call⟩ | ⟨c, -, next, call⟩
      · rw [next, call, awaits_setWorker inside target]
        rfl
      · rw [next, call, Option.map_none]
        have still : run.awaits line = none := waits
        rw [← still, Function.update_eq_self, awaits, target]
        rfl
      · rw [next, call, awaits_setWorker inside target]
        rfl
    | stopped => simp [here] at made
    | awaiting c =>
      cases reply with
      | none => simp [here] at made
      | some r =>
        simp only [here, Option.some.injEq] at made
        subst made
        refine ⟨n.judge_learns now fired c r, ?_⟩
        obtain ⟨_, _, _, _, _, completed⟩ := run.lookup.complete_frame fired c r
        exact awaits_setWorker inside (by rw [completed]; rfl) _

/-- A walk that waits for nobody has no question. -/
theorem Walk.question_eq_none {w : Walk α} (free : w.awaiting = none) : w.question = none := by
  rw [question, free, Option.map_none]

/-- Recording a node does not make a walk wait. -/
theorem Walk.awaiting_offer (w : Walk α) (home : Id) (c : Contact α) :
    (w.offer home c).awaiting = w.awaiting := by
  unfold offer
  split <;> rfl

/-- A walk whose query has ended waits for nobody. -/
theorem Walk.awaiting_complete (w : Walk α) (now : Nat) (home : Id) (cool : CoolDown)
    (fired : Bool) (asked : Contact α) (reply : Reply α) :
    (w.complete now home cool fired asked reply).1.awaiting = none := by
  have recorded (contacts : List (Contact α)) : ∀ w : Walk α, w.awaiting = none →
      (contacts.foldl (fun w c => w.offer home c) w).awaiting = none := by
    induction contacts with
    | nil => exact fun _ free => free
    | cons c rest further =>
      intro w free
      exact further (w.offer home c) ((w.awaiting_offer home c).trans free)
  cases reply with
  | ok contacts => exact recorded contacts _ rfl
  | error fault =>
    unfold complete
    dsimp only
    split <;> rfl

/-- A new round does not make a walk wait. -/
theorem Walk.awaiting_nextRound (w : Walk α) (now : Nat) (cool : CoolDown) :
    (w.nextRound now cool).1.awaiting = w.awaiting := by
  have closed : w.closeRound.awaiting = w.awaiting := by
    unfold closeRound
    split <;> rfl
  rw [← closed]
  unfold nextRound
  dsimp only
  split
  · rfl
  · split <;> rfl

/-- A walk that asks a node waits for its reply, unless it is the node itself. -/
theorem Walk.ask_settles {w : Walk α} (free : w.awaiting = none) :
    n.Learns [] (w.ask n now fired).node ∧
      (w.ask n now fired).next.question = (w.ask n now fired).call.map Call.question := by
  unfold ask
  split
  · exact ⟨.nothing n _, question_eq_none free⟩
  · next c rest cool pruned =>
    dsimp only
    split
    · exact ⟨.nothing n _, question_eq_none (awaiting_complete ..)⟩
    · exact ⟨.nothing n cool, rfl⟩

/-- A turn of a walk settles what it waits for. -/
theorem Pull.turn_settles {p : Pull α} {t : Turn α (Pull α)}
    (made : p.turn n now fired reply = some t)
    (due : reply.isSome = p.walk.question.isSome) :
    t.Settles n (News.ofTurn fired p.walk.question reply) 0 (alone p.walk.question)
      (alone t.next.walk.question) := by
  -- There is one line only, which waits for the call of its last turn.
  suffices settled : n.Learns (News.ofTurn fired p.walk.question reply) t.node ∧
      t.next.walk.question = t.call.map Call.question from
    ⟨settled.1, by rw [update_alone, settled.2]⟩
  unfold turn at made
  split at made
  · cases made
  · cases free : p.walk.awaiting with
    | some c =>
      have waits : p.walk.question = some (c, .find p.walk.target) := by
        rw [Walk.question, free, Option.map_some]
      cases reply with
      | none => simp [waits] at due
      | some r =>
        simp only [free, Option.some.injEq] at made
        subst made
        rw [waits]
        exact ⟨(n.judge_learns now fired c r).cooled _,
          Walk.question_eq_none (Walk.awaiting_complete ..)⟩
    | none =>
      have waits : p.walk.question = none := Walk.question_eq_none free
      rw [waits]
      simp only [free] at made
      cases ready : p.walk.ready with
      | cons c rest =>
        simp only [ready, Option.some.injEq] at made
        subst made
        exact ⟨.nothing n n.cool, Walk.question_eq_none free⟩
      | nil =>
        simp only [ready] at made
        split at made
        · obtain rfl := Option.some.inj made
          exact ⟨.nothing n n.cool, waits⟩
        · split at made
          · obtain rfl := Option.some.inj made
            exact ⟨.nothing n _,
              Walk.question_eq_none ((Walk.awaiting_nextRound ..).trans free)⟩
          · obtain rfl := Option.some.inj made
            exact Walk.ask_settles free

/-- A turn of a ping settles what it waits for. -/
theorem Bootstrap.turnPing_settles {b : Bootstrap α} {pings : List (BootPing α)}
    {t : Turn α (Bootstrap α)} (made : b.turnPing pings n now line reply = some t)
    (due : reply.isSome = (awaited BootPing.question pings line).isSome) :
    t.Settles n (News.ofTurn fired (awaited BootPing.question pings line) reply) line
      (awaited BootPing.question pings) t.next.awaits := by
  unfold turnPing at made
  cases here : pings[line]? with
  | none => simp [here] at made
  | some ping =>
    have inside : line < pings.length := (List.getElem?_eq_some_iff.mp here).1
    rw [awaited_eq here] at due ⊢
    cases ping with
    | unsent c =>
      simp only [here, Option.some.injEq] at made
      subst made
      exact ⟨.nothing n n.cool, awaited_update inside _⟩
    | sent c =>
      cases reply with
      | none => simp [here] at made
      | some r =>
        cases r with
        | ok contacts =>
          simp only [here, Option.some.injEq] at made
          subst made
          exact ⟨n.heard_learns now c, awaited_update inside _⟩
        | error fault =>
          simp only [here, Option.some.injEq] at made
          subst made
          exact ⟨.nothing n n.cool, awaited_update inside _⟩
    | _ => simp [here] at made

/-- A turn of a line of a bootstrap settles what it waits for. -/
theorem Bootstrap.turn_settles {b : Bootstrap α} {t : Turn α (Bootstrap α)}
    (made : b.turn n now fired line reply = some t)
    (due : reply.isSome = (b.awaits line).isSome) :
    t.Settles n (News.ofTurn fired (b.awaits line) reply) line b.awaits t.next.awaits := by
  unfold turn at made
  unfold awaits at due ⊢
  cases phase : b.phase with
  | pinging pings =>
    simp only [phase] at made due ⊢
    exact turnPing_settles made due
  | searching run =>
    simp only [phase, Option.map_eq_some_iff] at made due ⊢
    obtain ⟨inner, moved, rfl⟩ := made
    have settles := LookupRun.turn_settles moved due
    exact ⟨settles.learns, settles.after⟩
  | refreshing run left =>
    simp only [phase, Option.map_eq_some_iff] at made due ⊢
    obtain ⟨inner, moved, rfl⟩ := made
    have settles := LookupRun.turn_settles moved due
    exact ⟨settles.learns, settles.after⟩
  | finished result => simp [phase] at made

/-- A turn of a single query settles what it waits for. -/
theorem Activity.turnQuery_settles {asked : Contact α} {target : Id} {state : Single α}
    {t : Turn α (Activity α)}
    (made : turnQuery asked target state n now fired reply = some t)
    (due : reply.isSome = (state.question (asked, .find target)).isSome) :
    t.Settles n (News.ofTurn fired (state.question (asked, .find target)) reply) 0
      (alone (state.question (asked, .find target))) t.next.awaits ∧ t.next.isOwn = true := by
  unfold turnQuery at made
  cases state with
  | unsent =>
    dsimp only at made
    split at made
    · obtain rfl := Option.some.inj made
      exact ⟨⟨.nothing n n.cool, (update_alone ..).symm⟩, rfl⟩
    · obtain rfl := Option.some.inj made
      exact ⟨⟨.nothing n n.cool, (update_alone ..).symm⟩, rfl⟩
  | sent =>
    cases reply with
    | none => cases made
    | some r =>
      obtain rfl := Option.some.inj made
      exact ⟨⟨n.judge_learns now fired asked r, (update_alone ..).symm⟩, rfl⟩
  | _ =>
    cases reply with
    | none => cases made
    | some r => cases made

/-- A turn of a line of an activity of a node settles what the line waits for. -/
theorem Activity.turn_settles {a : Activity α} {t : Turn α (Activity α)} (own : a.isOwn = true)
    (inside : line < a.lines) (made : a.turn n now fired line reply = some t)
    (due : reply.isSome = (a.awaits line).isSome) :
    t.Settles n (News.ofTurn fired (a.awaits line) reply) line a.awaits t.next.awaits ∧
      t.next.isOwn = true := by
  unfold turn at made
  cases a with
  | exchange call state => cases own
  | query asked target state =>
    obtain rfl : line = 0 := Nat.lt_one_iff.mp inside
    rw [awaits, alone_zero] at due ⊢
    exact turnQuery_settles made due
  | lookup run =>
    obtain ⟨inner, moved, rfl⟩ := Option.map_eq_some_iff.mp made
    have settles := LookupRun.turn_settles moved due
    exact ⟨⟨settles.learns, settles.after⟩, rfl⟩
  | pull p =>
    obtain rfl : line = 0 := Nat.lt_one_iff.mp inside
    obtain ⟨inner, moved, rfl⟩ := Option.map_eq_some_iff.mp made
    rw [awaits, alone_zero] at due ⊢
    have settles := Pull.turn_settles moved due
    exact ⟨⟨settles.learns, settles.after⟩, rfl⟩
  | bootstrap b =>
    obtain ⟨inner, moved, rfl⟩ := Option.map_eq_some_iff.mp made
    have settles := Bootstrap.turn_settles moved due
    exact ⟨⟨settles.learns, settles.after⟩, rfl⟩
  | upkeep b =>
    obtain ⟨inner, moved, rfl⟩ := Option.map_eq_some_iff.mp made
    have settles := Bootstrap.turn_settles moved due
    exact ⟨⟨settles.learns, settles.after⟩, rfl⟩
  | pause wakeAt => cases made
  | withdrawn fault => cases made

end Turns

/-! ## Phases -/

/-- No worker of a new lookup waits. -/
theorem LookupRun.awaits_start (n : Node α) (target : Id) (width : Nat) :
    (start n target width).awaits = idle := by
  refine awaited_idle fun worker member => ?_
  rw [List.eq_of_mem_replicate member]
  rfl

/-- No worker of a lookup that is over waits. -/
theorem LookupRun.awaits_of_isOver {run : LookupRun α} (ended : run.isOver = true) :
    run.awaits = idle := by
  refine awaited_idle fun worker member => ?_
  have stopped := List.all_eq_true.mp ended worker member
  cases worker with
  | idle => rfl
  | awaiting c => cases stopped
  | stopped => rfl

/-- No ping of a new bootstrap is under way. -/
theorem Bootstrap.awaits_start (n : Node α) : (start n).awaits = idle := by
  refine awaited_idle fun ping member => ?_
  obtain ⟨c, -, rfl⟩ := List.mem_map.mp member
  rfl

/-- No ping is under way when all are over. -/
theorem BootPing.awaited_of_over {pings : List (BootPing α)}
    (ended : pings.all Bootstrap.pingOver = true) : awaited question pings = idle := by
  refine awaited_idle fun ping member => ?_
  have answered := List.all_eq_true.mp ended ping member
  cases ping with
  | sent c => cases answered
  | _ => rfl

/-- The refreshment of a bucket begins with no line waiting. -/
theorem Bootstrap.awaits_refreshNext (n : Node α) (report : BootReport) (left : List (Region α))
    (draw : Id) : (refreshNext n report left draw).awaits = idle := by
  cases left with
  | nil => rfl
  | cons region later => exact LookupRun.awaits_start ..

/-- A bootstrap passes to its next phase when no line waits, and begins it in the same way. -/
theorem Bootstrap.proceed_idle {b next : Bootstrap α} {n : Node α} {fired : Bool} {draw : Id}
    (made : b.proceed n fired draw = some next) : b.awaits = idle ∧ next.awaits = idle := by
  unfold proceed at made
  unfold awaits
  cases phase : b.phase with
  | pinging pings =>
    simp only [phase] at made ⊢
    split at made
    · next ended =>
      refine ⟨BootPing.awaited_of_over ended, ?_⟩
      split at made
      · obtain rfl := Option.some.inj made
        rfl
      · obtain rfl := Option.some.inj made
        exact LookupRun.awaits_start ..
    · cases made
  | searching run =>
    simp only [phase] at made ⊢
    split at made
    · next ended =>
      refine ⟨LookupRun.awaits_of_isOver ended, ?_⟩
      split at made
      · obtain rfl := Option.some.inj made
        rfl
      · obtain rfl := Option.some.inj made
        exact awaits_refreshNext ..
    · cases made
  | refreshing run left =>
    simp only [phase] at made ⊢
    split at made
    · next ended =>
      refine ⟨LookupRun.awaits_of_isOver ended, ?_⟩
      split at made
      · obtain rfl := Option.some.inj made
        rfl
      · obtain rfl := Option.some.inj made
        exact awaits_refreshNext ..
    · cases made
  | finished result => simp [phase] at made

/-- A bootstrap that has ended waits for nothing. -/
theorem Bootstrap.awaits_of_result? {b : Bootstrap α} {result : Except Fault BootReport}
    (ended : b.result? = some result) : b.awaits = idle := by
  unfold result? at ended
  unfold awaits
  cases phase : b.phase with
  | pinging pings => simp [phase] at ended
  | searching run => simp [phase] at ended
  | refreshing run left => simp [phase] at ended
  | finished other => rfl

/-- An activity of a node passes to its next phase when no line waits, and begins it in the same
way. -/
theorem Activity.proceed_idle {a next : Activity α} {n : Node α} {now : Nat} {fired : Bool}
    {draw : Id} (made : a.proceed n now fired draw = some next) :
    a.awaits = idle ∧ next.awaits = idle ∧ next.isOwn = true := by
  unfold proceed at made
  cases a with
  | bootstrap b =>
    obtain ⟨later, moved, rfl⟩ := Option.map_eq_some_iff.mp made
    obtain ⟨before, after⟩ := Bootstrap.proceed_idle moved
    exact ⟨before, after, rfl⟩
  | upkeep b =>
    dsimp only at made
    split at made
    · next fault ended =>
      obtain rfl := Option.some.inj made
      exact ⟨Bootstrap.awaits_of_result? ended, rfl, rfl⟩
    · next report ended =>
      obtain rfl := Option.some.inj made
      exact ⟨Bootstrap.awaits_of_result? ended, rfl, rfl⟩
    · obtain ⟨later, moved, rfl⟩ := Option.map_eq_some_iff.mp made
      obtain ⟨before, after⟩ := Bootstrap.proceed_idle moved
      exact ⟨before, after, rfl⟩
  | pause time =>
    dsimp only at made
    split at made
    · obtain rfl := Option.some.inj made
      exact ⟨rfl, rfl, rfl⟩
    · split at made
      · obtain rfl := Option.some.inj made
        exact ⟨rfl, Bootstrap.awaits_start n, rfl⟩
      · cases made
  | exchange call state => cases made
  | query asked target state => cases made
  | lookup run => cases made
  | pull p => cases made
  | withdrawn fault => cases made

end Overlay
