import Overlay.Proofs.Callees
import Overlay.Proofs.Node.Run

/-!
# What a move of a node comes to

A turn of a line that can be taken is a turn of its activity, and it concerns the node and this
errand only. A turn of a probe is one of three steps of the monitor. So every call that is made is
one of an activity or the ping of a probe that wakes; and whatever is kept by all that can happen
to a monitor is kept by every move.
-/
namespace Overlay

variable {α : Type}

/-- The reply that a line takes, if it has made a call. -/
def Errand.due (e : Errand α) (line : Nat) (reply : Option (Reply α)) : Option (Reply α) :=
  (e.calls line).bind fun _ => reply

/-- The reply that a line takes is the one that it is given, or none. -/
theorem Errand.due_cases (e : Errand α) (line : Nat) (reply : Option (Reply α)) :
    e.due line reply = none ∨ e.due line reply = reply := by
  unfold due
  cases e.calls line with
  | none => exact .inl rfl
  | some call => exact .inr rfl

/-- A line that is given a reply if it has made a call takes one if it has made a call. -/
theorem Errand.isSome_due (e : Errand α) (line : Nat) {reply : Option (Reply α)}
    (given : (e.calls line).isSome = true → reply.isSome = true) :
    (e.due line reply).isSome = (e.calls line).isSome := by
  unfold due
  cases made : e.calls line with
  | none => rfl
  | some call => exact given (by rw [made]; rfl)

namespace NodeRun

/-- The run after the turn of a line. -/
def turned (r : NodeRun α) (index line : Nat) (e : Errand α) (t : Turn α (Activity α)) :
    NodeRun α :=
  { r with
    node := t.node
    errands := r.errands.set index
      { e with activity := t.next, calls := Function.update e.calls line t.call } }

/-- A line can take this turn, with the reply that is due. -/
structure Takes (r : NodeRun α) (index line : Nat) (reply : Option (Reply α)) (e : Errand α)
    (t : Turn α (Activity α)) : Prop where
  /-- The line is one of this errand. -/
  here : r.errands[index]? = some e
  /-- The line is one of the present phase. -/
  inside : line < e.activity.lines
  /-- The activity takes this turn, with a reply if the line has made a call. -/
  made : ∃ due, e.activity.turn r.node r.now e.withdrawn line due = some t ∧
    due.isSome = (e.calls line).isSome ∧ (due = none ∨ due = reply)

/-- What becomes of an errand in a move. -/
inductive Becomes (r : NodeRun α) (m : Move α) (index : Nat) (e : Errand α) : Errand α → Prop where
  /-- Nothing happens to it. -/
  | rest : Becomes r m index e e
  /-- It is withdrawn. -/
  | withdrawn : m = .withdraw index → Becomes r m index e { e with withdrawn := true }
  /-- One of its lines takes a turn. -/
  | turned {line : Nat} {reply : Option (Reply α)} {t : Turn α (Activity α)} :
    m = .turn index line reply → r.Takes index line reply e t →
    Becomes r m index e { e with
      activity := t.next
      calls := Function.update e.calls line t.call }
  /-- It passes to its next phase. -/
  | proceeded {draw : Id} {next : Activity α} :
    m = .proceed index draw → e.activity.proceed r.node r.now e.withdrawn draw = some next →
    Becomes r m index e { e with activity := next }

/-- The errand that an event is about. -/
def Event.errand? : Event α → Option Nat
  | .called (.errand index _) _ | .returned (.errand index _) _ _ _ => some index
  | _ => none

/-- The calls that an errand makes and the replies that come to it. -/
def journal (index : Nat) (events : List (Event α)) : List (Event α) :=
  events.filter fun event => event.errand? = some index

/-- The reply to the call of a line comes. -/
def replied (index line : Nat) (e : Errand α) (reply : Option (Reply α)) : List (Event α) :=
  match e.calls line, reply with
  | some call, some came => [.returned (.errand index line) call came e.withdrawn]
  | _, _ => []

/-- What a move comes to for an errand: what it has to do with others, and what becomes of it. -/
inductive Goes (r : NodeRun α) (m : Move α) (index : Nat) (e : Errand α) :
    List (Event α) → Errand α → Prop where
  /-- Nothing happens to it, unless it is withdrawn: its line cannot take the turn that it is
  given, and it cannot pass to its next phase. -/
  | rest {after : Errand α} : r.Becomes m index e after → after.activity = e.activity →
    after.calls = e.calls →
    (∀ line reply, m = .turn index line reply → line < e.activity.lines →
      (e.due line reply).isSome = (e.calls line).isSome →
      e.activity.turn r.node r.now e.withdrawn line (e.due line reply) = none) →
    (∀ draw, m = .proceed index draw →
      e.activity.proceed r.node r.now e.withdrawn draw = none) →
    Goes r m index e [] after
  /-- One of its lines takes a turn, with a reply if the line has made a call. -/
  | turned {line : Nat} {reply : Option (Reply α)} {t : Turn α (Activity α)} :
    m = .turn index line reply → line < e.activity.lines →
    (e.due line reply).isSome = (e.calls line).isSome →
    e.activity.turn r.node r.now e.withdrawn line (e.due line reply) = some t →
    Goes r m index e
      (replied index line e reply ++ t.call.toList.map (.called (.errand index line)))
      { e with activity := t.next, calls := Function.update e.calls line t.call }
  /-- It passes to its next phase. -/
  | proceeded {draw : Id} {next : Activity α} :
    m = .proceed index draw → e.activity.proceed r.node r.now e.withdrawn draw = some next →
    Goes r m index e [] { e with activity := next }

section Moves

variable {r : NodeRun α} {index line serial : Nat} {reply : Option (Reply α)}

/-- What a turn that some events have led to comes to: nothing, if the activity cannot take it. -/
theorem turnWith_cases (r : NodeRun α) (index line : Nat) (e : Errand α)
    (events : List (Event α)) (reply : Option (Reply α)) :
    (e.activity.turn r.node r.now e.withdrawn line reply = none ∧
        r.turnWith index line e events reply = ([], r)) ∨
      ∃ t, e.activity.turn r.node r.now e.withdrawn line reply = some t ∧
        r.turnWith index line e events reply =
          (events ++ t.call.toList.map (.called (.errand index line)),
            r.turned index line e t) := by
  unfold turnWith
  cases made : e.activity.turn r.node r.now e.withdrawn line reply with
  | none => exact .inl ⟨rfl, rfl⟩
  | some t => exact .inr ⟨t, rfl, rfl⟩

/-- What the turn of a line of an errand comes to: nothing, if the line cannot take it, or a turn of
the activity, with the reply that the line takes before the call that it makes. -/
theorem turn_of {e : Errand α} (here : r.errands[index]? = some e) (line : Nat)
    (reply : Option (Reply α)) :
    (r.turn index line reply = ([], r) ∧ (line < e.activity.lines →
        (e.due line reply).isSome = (e.calls line).isSome →
        e.activity.turn r.node r.now e.withdrawn line (e.due line reply) = none)) ∨
      ∃ t, line < e.activity.lines ∧ (e.due line reply).isSome = (e.calls line).isSome ∧
        e.activity.turn r.node r.now e.withdrawn line (e.due line reply) = some t ∧
        r.turn index line reply =
          (replied index line e reply ++ t.call.toList.map (.called (.errand index line)),
            r.turned index line e t) := by
  by_cases inside : line < e.activity.lines
  · by_cases answered : (e.due line reply).isSome = (e.calls line).isSome
    · have same : r.turn index line reply =
          r.turnWith index line e (replied index line e reply) (e.due line reply) := by
        unfold Errand.due at answered ⊢
        cases made : e.calls line with
        | none => simp only [turn, here, if_pos inside, made, replied, Option.bind_none]
        | some call =>
          cases reply with
          | none =>
            rw [made] at answered
            cases answered
          | some came => simp only [turn, here, if_pos inside, made, replied, Option.bind_some]
      rw [same]
      rcases r.turnWith_cases index line e (replied index line e reply) (e.due line reply) with
        ⟨stuck, idle⟩ | ⟨t, made, does⟩
      · exact .inl ⟨idle, fun _ _ => stuck⟩
      · exact .inr ⟨t, inside, answered, made, does⟩
    · refine .inl ⟨?_, fun _ same => absurd same answered⟩
      unfold Errand.due at answered
      cases made : e.calls line with
      | none => simp [made] at answered
      | some call =>
        cases reply with
        | none => simp only [turn, here, if_pos inside, made]
        | some came => simp [made] at answered
  · exact .inl ⟨by simp only [turn, here, if_neg inside], fun within => absurd within inside⟩

/-- What the turn of a line comes to: nothing, or a turn of the activity, with the reply that led to
it before the call that it makes. -/
theorem turn_cases (r : NodeRun α) (index line : Nat) (reply : Option (Reply α)) :
    r.turn index line reply = ([], r) ∨
      ∃ e t before, r.Takes index line reply e t ∧ r.turn index line reply =
          (before ++ t.call.toList.map (.called (.errand index line)), r.turned index line e t) ∧
        ∀ event ∈ before,
          ∃ call came, event = .returned (.errand index line) call came e.withdrawn := by
  cases here : r.errands[index]? with
  | none => exact .inl (by simp only [turn, here])
  | some e =>
    rcases turn_of here line reply with ⟨idle, -⟩ | ⟨t, inside, answered, made, does⟩
    · exact .inl idle
    · have takes : r.Takes index line reply e t :=
        ⟨here, inside, _, made, answered, e.due_cases line reply⟩
      refine .inr ⟨e, t, replied index line e reply, takes, does, fun event member => ?_⟩
      unfold replied at member
      split at member
      · next call came _ => exact ⟨call, came, List.mem_singleton.mp member⟩
      · cases member

/-- What the turn of a line that gets a reply, if it waits for one, comes to: the activity takes it
if it can. -/
theorem turn_given {e : Errand α} (here : r.errands[index]? = some e)
    (inside : line < e.activity.lines) (came : Reply α) :
    ∃ due, due.isSome = (e.calls line).isSome ∧ (due = none ∨ due = some came) ∧
      ((e.activity.turn r.node r.now e.withdrawn line due = none ∧
          r.turn index line (some came) = ([], r)) ∨
        ∃ t, e.activity.turn r.node r.now e.withdrawn line due = some t ∧
          (r.turn index line (some came)).2 = r.turned index line e t) := by
  have answered : (e.due line (some came)).isSome = (e.calls line).isSome :=
    e.isSome_due line fun _ => rfl
  refine ⟨e.due line (some came), answered, e.due_cases line (some came), ?_⟩
  rcases turn_of here line (some came) with ⟨idle, stuck⟩ | ⟨t, -, -, made, does⟩
  · exact .inl ⟨stuck inside answered, idle⟩
  · exact .inr ⟨t, made, congrArg Prod.snd does⟩

/-- What the turn of a probe comes to: nothing, or one of three steps of the monitor. -/
theorem turnProbe_cases (r : NodeRun α) (serial : Nat) (reply : Option (Reply α)) :
    let m := r.node.monitor
    r.turnProbe serial reply = ([], r) ∨
      (∃ pings, r.turnProbe serial reply =
        ([], { r.setMonitor (m.abandon serial) with pings := pings })) ∨
      (∃ pings, r.turnProbe serial reply =
        ((m.wake r.now serial).1.toList.map (.called (.probe serial)),
          { r.setMonitor (m.wake r.now serial).2 with pings := pings })) ∨
      ∃ call came pings, r.pings serial = some call ∧ r.turnProbe serial reply =
        ([.returned (.probe serial) call came false],
          { r.setMonitor (m.pinged r.now serial came) with pings := pings }) := by
  intro m
  unfold turnProbe
  dsimp only
  cases known : r.node.monitor.probe? serial with
  | none => exact .inl rfl
  | some p =>
    dsimp only
    split
    · exact .inr (.inl ⟨_, rfl⟩)
    · cases phase : p.phase with
      | delayed time =>
        dsimp only
        split
        · exact .inr (.inr (.inl ⟨_, rfl⟩))
        · exact .inl rfl
      | pinging =>
        dsimp only
        cases made : r.pings serial with
        | none => exact .inl rfl
        | some call =>
          cases reply with
          | none => exact .inl rfl
          | some came => exact .inr (.inr (.inr ⟨call, came, _, rfl, rfl⟩))

/-- What an errand has had to do with others comes first. -/
theorem journal_append (index : Nat) (events later : List (Event α)) :
    journal index (events ++ later) = journal index events ++ journal index later :=
  List.filter_append ..

/-- A move that is no turn of an errand has nothing to do with its calls. -/
theorem journal_move (m : Move α) (other : ∀ line reply, m ≠ .turn index line reply) :
    journal index (r.move m).1 = [] := by
  refine List.filter_eq_nil_iff.mpr fun event member => ?_
  rw [decide_eq_true_eq]
  cases m with
  | turn there line reply =>
    have elsewhere : (some there : Option Nat) ≠ some index := fun same =>
      other line reply (Option.some.inj same ▸ rfl)
    rw [move] at member
    rcases r.turn_cases there line reply with same | ⟨e, t, before, -, same, led⟩
    · rw [same] at member
      cases member
    · rw [same] at member
      rcases List.mem_append.mp member with returned | made
      · obtain ⟨call, came, rfl⟩ := led _ returned
        exact elsewhere
      · obtain ⟨call, -, rfl⟩ := List.mem_map.mp made
        exact elsewhere
  | probe serial reply =>
    rw [move] at member
    rcases r.turnProbe_cases serial reply with same | ⟨_, same⟩ | ⟨_, same⟩ | ⟨_, _, _, _, same⟩
    · rw [same] at member
      cases member
    · rw [same] at member
      cases member
    · rw [same] at member
      obtain ⟨call, -, rfl⟩ := List.mem_map.mp member
      nofun
    · rw [same] at member
      rw [List.mem_singleton.mp member]
      nofun
  | hear c =>
    rw [List.mem_singleton.mp member]
    nofun
  | complain id =>
    rw [List.mem_singleton.mp member]
    nofun
  | remove id =>
    rw [List.mem_singleton.mp member]
    nofun
  | _ => cases member

/-- A turn of a line of an errand has to do with its own calls only. -/
theorem journal_turned (index line : Nat) (e : Errand α) (reply : Option (Reply α))
    (call : Option (Call α)) :
    journal index (replied index line e reply ++ call.toList.map (.called (.errand index line))) =
      replied index line e reply ++ call.toList.map (.called (.errand index line)) := by
  refine List.filter_eq_self.mpr fun event member => ?_
  rw [decide_eq_true_eq]
  rcases List.mem_append.mp member with returned | called
  · unfold replied at returned
    split at returned
    · rw [List.mem_singleton.mp returned, Event.errand?]
    · cases returned
  · obtain ⟨call, -, rfl⟩ := List.mem_map.mp called
    rfl

/-- A call that is made is one of an activity in its turn or the ping of a probe that wakes. -/
theorem move_called {m : Move α} {origin : Origin} {call : Call α}
    (member : .called origin call ∈ (r.move m).1) :
    (∃ index line reply e t, origin = .errand index line ∧ r.Takes index line reply e t ∧
        t.call = some call) ∨
      ∃ serial, origin = .probe serial ∧ (r.node.monitor.wake r.now serial).1 = some call := by
  cases m with
  | turn index line reply =>
    rw [move] at member
    rcases r.turn_cases index line reply with same | ⟨e, t, before, takes, same, led⟩
    · rw [same] at member
      cases member
    · rw [same] at member
      rcases List.mem_append.mp member with returned | made
      · obtain ⟨_, _, other⟩ := led _ returned
        cases other
      · obtain ⟨asked, listed, called⟩ := List.mem_map.mp made
        obtain ⟨rfl, rfl⟩ := Event.called.inj called
        exact .inl ⟨index, line, reply, e, t, rfl, takes, Option.mem_toList.mp listed⟩
  | probe serial reply =>
    rw [move] at member
    rcases r.turnProbe_cases serial reply with same | ⟨_, same⟩ | ⟨_, same⟩ | ⟨_, _, _, _, same⟩
    · rw [same] at member
      cases member
    · rw [same] at member
      cases member
    · rw [same] at member
      obtain ⟨other, asked, same⟩ := List.mem_map.mp member
      obtain ⟨rfl, rfl⟩ := Event.called.inj same
      exact .inr ⟨serial, rfl, Option.mem_toList.mp asked⟩
    · rw [same] at member
      cases List.mem_singleton.mp member
  | hear c => cases List.mem_singleton.mp member
  | complain id => cases List.mem_singleton.mp member
  | remove id => cases List.mem_singleton.mp member
  | _ => cases member

/-- The reply that comes to a probe is one to the ping that it waits for. -/
theorem move_returned_probe {m : Move α} {call : Call α} {came : Reply α} {fired : Bool}
    (member : .returned (.probe serial) call came fired ∈ (r.move m).1) :
    r.pings serial = some call := by
  cases m with
  | turn index line reply =>
    rw [move] at member
    rcases r.turn_cases index line reply with same | ⟨e, t, before, -, same, led⟩
    · rw [same] at member
      cases member
    · rw [same] at member
      rcases List.mem_append.mp member with returned | made
      · obtain ⟨_, _, other⟩ := led _ returned
        cases other
      · obtain ⟨_, _, called⟩ := List.mem_map.mp made
        cases called
  | probe other reply =>
    rw [move] at member
    rcases r.turnProbe_cases other reply with same | ⟨_, same⟩ | ⟨_, same⟩ | ⟨_, _, _, made, same⟩
    · rw [same] at member
      cases member
    · rw [same] at member
      cases member
    · rw [same] at member
      obtain ⟨_, _, same⟩ := List.mem_map.mp member
      cases same
    · rw [same] at member
      obtain ⟨origin, rfl, -, -⟩ := Event.returned.inj (List.mem_singleton.mp member)
      obtain rfl := Origin.probe.inj origin
      exact made
  | hear c => cases List.mem_singleton.mp member
  | complain id => cases List.mem_singleton.mp member
  | remove id => cases List.mem_singleton.mp member
  | _ => cases member

/-- What is kept by all that can happen to a monitor is kept by every move. -/
theorem InStep.move_lasting {P : Nat → Monitor α → Prop} (lasting : Monitor.Lasting P)
    (inStep : r.InStep) (holds : P r.now r.node.monitor) (m : Move α) :
    P (r.move m).2.now (r.move m).2.node.monitor := by
  have stable := lasting.stable r.now
  cases m with
  | wait millis => exact lasting.later millis holds
  | hear c => exact stable.heard (lasting.settled r.now c.id holds)
  | complain id => exact stable.requestFailed holds id
  | remove id =>
    rw [NodeRun.move, Node.remove]
    split
    · exact holds
    · exact stable.remove holds id
  | wish wish => exact holds
  | withdraw index =>
    rw [NodeRun.move, NodeRun.withdraw]
    split <;> exact holds
  | proceed index draw =>
    rw [NodeRun.move, NodeRun.proceed]
    split
    · exact holds
    · split <;> exact holds
  | turn index line reply =>
    rw [NodeRun.move]
    rcases r.turn_cases index line reply with same | ⟨e, t, _, takes, same, -⟩
    · rw [same]
      exact holds
    · obtain ⟨due, made, -⟩ := takes.made
      have own := (inStep.errands e (List.mem_of_getElem? takes.here)).own
      rw [same]
      exact (Activity.turn_reaches own made).follows.keeps stable
        (fun id => lasting.settled r.now id holds) holds
  | probe serial reply =>
    rw [NodeRun.move]
    rcases r.turnProbe_cases serial reply with same | ⟨_, same⟩ | ⟨_, same⟩ | ⟨_, came, _, _, same⟩
    · rw [same]
      exact holds
    · rw [same]
      exact stable.abandon holds serial
    · rw [same]
      exact stable.wake holds serial
    · rw [same]
      exact stable.pinged holds serial came
  | close => exact stable.close holds

/-- Whatever is played, what is kept by all that can happen to a monitor is kept. -/
theorem InStep.play_kept {P : Nat → Monitor α → Prop} (lasting : Monitor.Lasting P)
    (inStep : r.InStep) (holds : P r.now r.node.monitor) (moves : List (Move α)) :
    P (r.play moves).2.now (r.play moves).2.node.monitor := by
  induction moves generalizing r with
  | nil => exact holds
  | cons m moves further =>
    exact further (inStep.move m).inStep (inStep.move_lasting lasting holds m)

/-- Whatever is played, the parameters of the node are the same. -/
theorem InStep.config_play (inStep : r.InStep) (moves : List (Move α)) :
    (r.play moves).2.node.config = r.node.config := by
  have framed : Monitor.Lasting fun _ (m : Monitor α) => m.config = r.node.config :=
    Monitor.frame_lasting fun _ _ same _ _ given => same.trans given
  exact inStep.play_kept framed rfl moves

/-- What a move comes to for the errand of an index. -/
theorem errand_goes {e : Errand α} (here : r.errands[index]? = some e) (m : Move α) :
    ∃ after, (r.move m).2.errands[index]? = some after ∧
      r.Goes m index e (journal index (r.move m).1) after := by
  have inside : index < r.errands.length := (List.getElem?_eq_some_iff.mp here).1
  -- An errand is affected by what concerns its own index only.
  have apart {other : Nat} (different : other ≠ index) (x : Errand α) :
      (r.errands.set other x)[index]? = some e := (List.getElem?_set_ne different).trans here
  have rests (still : (r.move m).2.errands[index]? = some e)
      (silent : journal index (r.move m).1 = [])
      (idle : ∀ line reply, m = .turn index line reply → line < e.activity.lines →
        (e.due line reply).isSome = (e.calls line).isSome →
        e.activity.turn r.node r.now e.withdrawn line (e.due line reply) = none)
      (stays : ∀ draw, m = .proceed index draw →
        e.activity.proceed r.node r.now e.withdrawn draw = none) :
      ∃ after, (r.move m).2.errands[index]? = some after ∧
        r.Goes m index e (journal index (r.move m).1) after := by
    rw [silent]
    exact ⟨e, still, .rest .rest rfl rfl idle stays⟩
  cases m with
  | wish wish =>
    exact rests ((List.getElem?_append_left inside).trans here) (journal_move _ nofun) nofun nofun
  | withdraw other =>
    have silent : journal index (r.move (.withdraw other)).1 = [] := journal_move _ nofun
    by_cases own : other = index
    · subst own
      have same : (r.move (.withdraw other)).2.errands =
          r.errands.set other { e with withdrawn := true } := by
        rw [move, withdraw, here]
      rw [same, silent]
      exact ⟨_, List.getElem?_set_self inside, .rest (.withdrawn rfl) rfl rfl nofun nofun⟩
    · refine rests ?_ silent nofun nofun
      rw [move, withdraw]
      split
      · exact here
      · exact apart own _
  | proceed other draw =>
    have silent : journal index (r.move (.proceed other draw)).1 = [] := journal_move _ nofun
    by_cases own : other = index
    · subst own
      cases made : e.activity.proceed r.node r.now e.withdrawn draw with
      | none =>
        refine rests ?_ silent nofun ?_
        · simp only [move, proceed, here, made]
        · intro other same
          rw [← (Move.proceed.inj same).2]
          exact made
      | some next =>
        have same : (r.move (.proceed other draw)).2.errands =
            r.errands.set other { e with activity := next } := by
          simp only [move, proceed, here, made]
        rw [same, silent]
        exact ⟨_, List.getElem?_set_self inside, .proceeded rfl made⟩
    · refine rests ?_ silent nofun fun draw same => absurd (Move.proceed.inj same).1 own
      rw [move, proceed]
      split
      · exact here
      · split
        · exact here
        · exact apart own _
  | turn other line reply =>
    by_cases own : other = index
    · subst own
      rcases turn_of here line reply with ⟨idle, stuck⟩ | ⟨t, within, answered, made, does⟩
      · refine rests ?_ ?_ ?_ nofun
        · rw [move, idle]
          exact here
        · rw [move, idle]
          rfl
        · intro at' given same below answered
          obtain ⟨-, rfl, rfl⟩ := Move.turn.inj same
          exact stuck below answered
      · rw [move, does, journal_turned]
        exact ⟨_, List.getElem?_set_self inside, .turned rfl within answered made⟩
    · refine rests ?_ (journal_move _ ?_) ?_ nofun
      · rw [move]
        rcases r.turn_cases other line reply with same | ⟨x, t, _, -, same, -⟩
        · rw [same]
          exact here
        · rw [same]
          exact apart own _
      · exact fun _ _ same => own (Move.turn.inj same).1
      · exact fun _ _ same => absurd (Move.turn.inj same).1 own
  | probe serial reply =>
    refine rests ?_ (journal_move _ nofun) nofun nofun
    rw [move]
    rcases r.turnProbe_cases serial reply with same | ⟨_, same⟩ | ⟨_, same⟩ | ⟨_, _, _, _, same⟩ <;>
      rw [same] <;> exact here
  | _ => exact rests here (journal_move _ nofun) nofun nofun

/-- What becomes of the errand of an index. -/
theorem errand_move {e : Errand α} (here : r.errands[index]? = some e) (m : Move α) :
    ∃ after, (r.move m).2.errands[index]? = some after ∧ r.Becomes m index e after := by
  obtain ⟨after, there, goes⟩ := errand_goes here m
  refine ⟨after, there, ?_⟩
  generalize journal index (r.move m).1 = events at goes
  cases goes with
  | rest becomes => exact becomes
  | turned same inside answered made =>
    exact .turned same ⟨here, inside, _, made, answered, e.due_cases _ _⟩
  | proceeded same made => exact .proceeded same made

/-- An errand that appears in a move has just been given. -/
theorem errand_new {after : Errand α} {m : Move α} (absent : r.errands[index]? = none)
    (here : (r.move m).2.errands[index]? = some after) :
    ∃ wish : Wish α, after = ⟨wish.activity r.node, false, fun _ => none⟩ := by
  have outside : r.errands.length ≤ index := List.getElem?_eq_none_iff.mp absent
  have replaced {other : Nat} {x : Errand α} (here : (r.errands.set other x)[index]? = some after) :
      ∃ wish : Wish α, after = ⟨wish.activity r.node, false, fun _ => none⟩ := by
    have inside := (List.getElem?_eq_some_iff.mp here).1
    rw [List.length_set] at inside
    omega
  have same (here : r.errands[index]? = some after) :
      ∃ wish : Wish α, after = ⟨wish.activity r.node, false, fun _ => none⟩ := by
    rw [absent] at here
    cases here
  cases m with
  | wish wish =>
    refine ⟨wish, ?_⟩
    have last : [(⟨wish.activity r.node, false, fun _ => none⟩ : Errand α)][
        index - r.errands.length]? = some after :=
      (List.getElem?_append_right outside).symm.trans here
    exact List.mem_singleton.mp (List.mem_of_getElem? last)
  | withdraw other =>
    rw [move, withdraw] at here
    split at here
    · exact same here
    · exact replaced here
  | proceed other draw =>
    rw [move, proceed] at here
    split at here
    · exact same here
    · split at here
      · exact same here
      · exact replaced here
  | turn other line reply =>
    rw [move] at here
    rcases r.turn_cases other line reply with idle | ⟨x, t, _, -, turned, -⟩
    · rw [idle] at here
      exact same here
    · rw [turned] at here
      exact replaced here
  | probe serial reply =>
    rw [move] at here
    rcases r.turnProbe_cases serial reply with idle | ⟨_, step⟩ | ⟨_, step⟩ | ⟨_, _, _, _, step⟩
    · rw [idle] at here
      exact same here
    · rw [step] at here
      exact same here
    · rw [step] at here
      exact same here
    · rw [step] at here
      exact same here
  | _ => exact same here

end Moves

end NodeRun

end Overlay
