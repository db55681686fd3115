import Overlay.Proofs.Activity

/-!
# Runs of a node

A node runs among others that may do anything. Its host reports messages and failures, removes
contacts, and has errands carried out, which it may withdraw; the lines of the errands and the
probes take turns in any order, each with any reply to the call that it has made; and time
passes. A run is played by moves. A move that cannot be made leaves the run as it is, so every
list of moves is a run with some interleaving over some network. Whatever is played, the ledger
of the node is what the news of the events makes of it.
-/
namespace Overlay

variable {α : Type}

/-- What a host wants a node to do over the network. -/
inductive Wish (α : Type) where
  /-- Ask one node for the contacts it knows closest to a target. -/
  | query (asked : Contact α) (target : Id)
  /-- Search for the nodes closest to a target. -/
  | search (target : Id) (count : Option Nat)
  /-- Explore the network around a target. -/
  | discover (target : Id) (count : Option Nat)
  /-- Join the network. -/
  | bootstrap
  /-- Join the network again and again. -/
  | upkeep

/-- The activity that carries out a wish. -/
def Wish.activity (n : Node α) : Wish α → Activity α
  | query asked target => .query asked target .unsent
  | search target count => .lookup (.start n target (n.lookupWidth count))
  | discover target count => .pull (.start (.start n target) count)
  | bootstrap => .bootstrap (.start n)
  | upkeep => .upkeep (.start n)

/-- The activity that carries out a wish is about the table of the node, and none of its lines
waits at first. -/
theorem Wish.activity_idle (n : Node α) (wish : Wish α) :
    (wish.activity n).awaits = idle ∧ (wish.activity n).isOwn = true := by
  cases wish with
  | query asked target => exact ⟨alone_none, rfl⟩
  | search target count => exact ⟨LookupRun.awaits_start .., rfl⟩
  | discover target count => exact ⟨alone_none, rfl⟩
  | bootstrap => exact ⟨Bootstrap.awaits_start n, rfl⟩
  | upkeep => exact ⟨Bootstrap.awaits_start n, rfl⟩

/-- A node is created with parameters that it can work with, and starts from contacts other than
itself. -/
theorem Node.create_eq {self : Contact α} {boot : List (Contact α)} {config : Config} {n : Node α}
    (created : create self boot config = .ok n) : config.validate = .ok () ∧
      n = { bare self config with
        boot := boot.filter fun c => c.id ≠ self.id
        monitor := { (bare self config).monitor with
          table := ((bare self config).table.add self).2 } } := by
  unfold create at created
  cases valid : config.validate with
  | error fault => simp [valid] at created
  | ok _ =>
    simp only [valid, Except.ok.injEq] at created
    exact ⟨rfl, created.symm⟩

/-- An activity under way. -/
structure Errand (α : Type) where
  /-- The activity. -/
  activity : Activity α
  /-- The host has withdrawn it. -/
  withdrawn : Bool
  /-- The calls whose reply has not come, by line. -/
  calls : Nat → Option (Call α)

/-- A node with all that it has under way. -/
structure NodeRun (α : Type) where
  /-- The present. -/
  now : Nat
  /-- The node. -/
  node : Node α
  /-- The errands that it was given, the first one first. -/
  errands : List (Errand α)
  /-- The pings of its probes whose reply has not come, by number of the probe. -/
  pings : Nat → Option (Call α)

namespace NodeRun

/-- Who has made a call. -/
inductive Origin where
  /-- A line of an errand. -/
  | errand (index line : Nat)
  /-- The probe of a number. -/
  | probe (serial : Nat)
  deriving DecidableEq, Repr

/-- What happens to a node. -/
inductive Event (α : Type) where
  /-- The host reports a message. -/
  | heard (c : Contact α)
  /-- The host reports a failed request. -/
  | complained (id : Id)
  /-- The host removes a contact. -/
  | removed (id : Id)
  /-- A call is made. -/
  | called (origin : Origin) (call : Call α)
  /-- The reply to a call comes, its errand withdrawn or not. -/
  | returned (origin : Origin) (call : Call α) (reply : Reply α) (fired : Bool)

/-- What the node learns from an event. -/
def Event.news : Event α → List (News α)
  | heard c => [.alive c]
  | complained id => [.failed id]
  | removed id => [.removed id]
  | called _ _ => []
  | returned (.errand _ _) call reply fired => News.ofReply fired call.question reply
  | returned (.probe _) call reply _ => News.ofProbe call.callee reply

/-- What the node learns from some events. -/
def news (events : List (Event α)) : List (News α) := events.flatMap Event.news

/-- What may happen next. -/
inductive Move (α : Type) where
  /-- Time passes. -/
  | wait (millis : Nat)
  /-- The host reports a message. -/
  | hear (c : Contact α)
  /-- The host reports a failed request. -/
  | complain (id : Id)
  /-- The host removes a contact. -/
  | remove (id : Id)
  /-- The host gives an errand. -/
  | wish (wish : Wish α)
  /-- The host withdraws an errand. -/
  | withdraw (index : Nat)
  /-- A line of an errand takes a turn, with the reply to its call if it has made one. -/
  | turn (index line : Nat) (reply : Option (Reply α))
  /-- An errand passes to its next phase. -/
  | proceed (index : Nat) (draw : Id)
  /-- A probe takes a turn, with the reply to its ping if it has made one. -/
  | probe (serial : Nat) (reply : Option (Reply α))
  /-- The node is given up. -/
  | close

/-- A node that has nothing under way. -/
def start (n : Node α) : NodeRun α := ⟨0, n, [], fun _ => none⟩

/-- The run with another monitor. -/
def setMonitor (r : NodeRun α) (m : Monitor α) : NodeRun α :=
  { r with node := { r.node with monitor := m } }

/-- A line takes a turn that it can take, some events having led to it. -/
def turnWith (r : NodeRun α) (index line : Nat) (e : Errand α) (events : List (Event α))
    (reply : Option (Reply α)) : List (Event α) × NodeRun α :=
  match e.activity.turn r.node r.now e.withdrawn line reply with
  | none => ([], r)
  | some t =>
    (events ++ t.call.toList.map (.called (.errand index line)),
      { r with
        node := t.node
        errands := r.errands.set index
          { e with activity := t.next, calls := Function.update e.calls line t.call } })

/-- A line takes a turn. One that has made a call waits for its reply. -/
def turn (r : NodeRun α) (index line : Nat) (reply : Option (Reply α)) :
    List (Event α) × NodeRun α :=
  match r.errands[index]? with
  | none => ([], r)
  | some e =>
    if line < e.activity.lines then
      match e.calls line, reply with
      | none, _ => r.turnWith index line e [] none
      | some _, none => ([], r)
      | some call, some reply =>
        r.turnWith index line e [.returned (.errand index line) call reply e.withdrawn] reply
    else ([], r)

/-- An errand passes to its next phase, if it can. -/
def proceed (r : NodeRun α) (index : Nat) (draw : Id) : NodeRun α :=
  match r.errands[index]? with
  | none => r
  | some e =>
    match e.activity.proceed r.node r.now e.withdrawn draw with
    | none => r
    | some next => { r with errands := r.errands.set index { e with activity := next } }

/-- A probe takes a turn. It wakes when its delay is over, and then waits for the reply to its
ping; it ends at once when the node has been given up. -/
def turnProbe (r : NodeRun α) (serial : Nat) (reply : Option (Reply α)) :
    List (Event α) × NodeRun α :=
  let m := r.node.monitor
  match m.probe? serial with
  | none => ([], r)
  | some p =>
    if m.closed then
      ([], { r.setMonitor (m.abandon serial) with pings := Function.update r.pings serial none })
    else
      match p.phase with
      | .delayed time =>
        if time ≤ r.now then
          let (call, m) := m.wake r.now serial
          (call.toList.map (.called (.probe serial)),
            { r.setMonitor m with pings := Function.update r.pings serial call })
        else ([], r)
      | .pinging =>
        match r.pings serial, reply with
        | some call, some reply =>
          ([.returned (.probe serial) call reply false],
            { r.setMonitor (m.pinged r.now serial reply) with
              pings := Function.update r.pings serial none })
        | _, _ => ([], r)

/-- The host withdraws an errand. -/
def withdraw (r : NodeRun α) (index : Nat) : NodeRun α :=
  match r.errands[index]? with
  | none => r
  | some e => { r with errands := r.errands.set index { e with withdrawn := true } }

/-- What a move brings about, and the run after it. -/
def move (r : NodeRun α) : Move α → List (Event α) × NodeRun α
  | .wait millis => ([], { r with now := r.now + millis })
  | .hear c => ([.heard c], { r with node := (r.node.heard r.now c).2 })
  | .complain id => ([.complained id], { r with node := (r.node.requestFailed id).2 })
  | .remove id => ([.removed id], { r with node := (r.node.remove id).2 })
  | .wish wish =>
    ([], { r with errands := r.errands ++ [⟨wish.activity r.node, false, fun _ => none⟩] })
  | .withdraw index => ([], r.withdraw index)
  | .turn index line reply => r.turn index line reply
  | .proceed index draw => ([], r.proceed index draw)
  | .probe serial reply => r.turnProbe serial reply
  | .close => ([], { r with node := r.node.close })

/-- The events of a list of moves and the run after them. -/
def play (r : NodeRun α) : List (Move α) → List (Event α) × NodeRun α
  | [] => ([], r)
  | m :: moves =>
    let (events, next) := r.move m
    let (later, last) := next.play moves
    (events ++ later, last)

/-- What the node remembers of others. -/
def ledger (r : NodeRun α) : Ledger α := r.node.monitor.ledger

/-! ## Calls and those who wait for them -/

/-- An errand is about the table of the node, and its calls are those that its lines wait for. -/
structure Kept (e : Errand α) : Prop where
  /-- The activity is about the table of the node. -/
  own : e.activity.isOwn = true
  /-- The lines wait for the calls. -/
  lines : e.activity.awaits = Option.map Call.question ∘ e.calls

/-- The calls under way are those that lines and probes wait for. -/
structure InStep (r : NodeRun α) : Prop where
  /-- The table is the one around the node. -/
  home : r.node.table.home = r.node.id
  /-- The errands are in step with their calls. -/
  errands : ∀ e ∈ r.errands, Kept e
  /-- The probes wait for the pings. -/
  probes : r.node.monitor.awaits = Option.map Call.question ∘ r.pings

/-- One run leads to another and leaves events behind: what the node has learnt is the news of the
events, of which there is at most one. -/
structure Leads (r : NodeRun α) (after : List (Event α) × NodeRun α) : Prop where
  /-- The calls under way are still those that are waited for. -/
  inStep : after.2.InStep
  /-- It is the same node. -/
  self : after.2.node.self = r.node.self
  /-- The ledger is the one after the news. -/
  ledger : after.2.ledger = r.ledger.learnAll (news after.1)
  /-- There is at most one piece of news. -/
  brief : (news after.1).length ≤ 1

section Laws

variable {r : NodeRun α}

/-- Making a call brings no news. -/
theorem news_called (events : List (Event α)) (origin : Origin) (call : Option (Call α)) :
    news (events ++ call.toList.map (.called origin)) = news events := by
  cases call with
  | none => simp
  | some call => simp [news, Event.news]

/-- The reply to a call brings at most one piece of news. -/
theorem length_news_returned (origin : Origin) (call : Call α) (reply : Reply α) (fired : Bool) :
    (news [.returned origin call reply fired]).length ≤ 1 := by
  rw [news, List.flatMap_singleton]
  cases origin with
  | errand index line =>
    rw [Event.news, News.ofReply]
    split
    · cases reply <;> simp [News.ofGreeting]
    · cases reply with
      | ok contacts => simp [News.ofQuery]
      | error fault =>
        rw [News.ofQuery]
        split <;> simp
  | probe serial =>
    cases reply with
    | ok contacts => simp [Event.news, News.ofProbe]
    | error fault =>
      rw [Event.news, News.ofProbe]
      split <;> simp

/-- A table stays the one around its node. -/
theorem home_of_ledger {n next : Node α} {news : List (News α)} (home : n.table.home = n.id)
    (self : next.self = n.self) (ledger : next.monitor.ledger = n.monitor.ledger.learnAll news) :
    next.table.home = next.id := by
  have frame : next.monitor.ledger.frame = n.monitor.ledger.frame :=
    (congrArg Ledger.frame ledger).trans (n.monitor.ledger.frame_learnAll news)
  calc next.table.home = n.table.home := congrArg (fun parts => parts.2.1) frame
    _ = n.self.id := home
    _ = next.id := by rw [← self]; rfl

/-- Nothing has happened. -/
theorem InStep.rest (inStep : r.InStep) : r.Leads ([], r) := ⟨inStep, rfl, rfl, Nat.zero_le 1⟩

/-- The errands stay in step with their calls when one is exchanged for another in step. -/
theorem InStep.setErrand (inStep : r.InStep) {e : Errand α} (kept : Kept e) (index : Nat) :
    ∀ other ∈ r.errands.set index e, Kept other := by
  intro other member
  rcases List.mem_or_eq_of_mem_set member with old | rfl
  · exact inStep.errands other old
  · exact kept

/-- What the host tells a node, or asks it to forget, leads on. -/
theorem InStep.told (inStep : r.InStep) {event : Event α} {next : Node α}
    (brief : (news [event]).length ≤ 1) (learns : r.node.Learns (news [event]) next) :
    r.Leads ([event], { r with node := next }) where
  inStep :=
    { home := home_of_ledger inStep.home learns.self learns.ledger
      errands := inStep.errands
      probes := learns.awaits.trans inStep.probes }
  self := learns.self
  ledger := learns.ledger
  brief := brief

/-- Removing a contact lets the node learn of its removal. -/
theorem InStep.remove_learns (inStep : r.InStep) (id : Id) :
    r.node.Learns [.removed id] (r.node.remove id).2 := by
  have home : r.node.monitor.table.home = r.node.id := inStep.home
  by_cases own : id = r.node.id
  · have same : (r.node.remove id).2 = r.node := by rw [Node.remove, if_pos own]
    rw [same]
    refine ⟨rfl, ?_, rfl⟩
    exact (if_pos (own.trans home.symm)).symm
  · have removed : (r.node.remove id).2 = (r.node.forget id).2 := by rw [Node.remove, if_neg own]
    rw [removed]
    refine ⟨rfl, ?_, rfl⟩
    exact (if_neg fun same => own (same.trans home)).symm

/-- A line that takes a turn leads on. -/
theorem InStep.turnWith (inStep : r.InStep) {index line : Nat} {e : Errand α}
    (member : e ∈ r.errands) (inside : line < e.activity.lines) {events : List (Event α)}
    {reply : Option (Reply α)} (due : reply.isSome = (e.calls line).isSome)
    (told : news events = News.ofTurn e.withdrawn (e.activity.awaits line) reply)
    (brief : (news events).length ≤ 1) : r.Leads (r.turnWith index line e events reply) := by
  have kept := inStep.errands e member
  have due' : reply.isSome = (e.activity.awaits line).isSome := by
    rw [due, kept.lines, Function.comp_apply, Option.isSome_map]
  unfold NodeRun.turnWith
  cases made : e.activity.turn r.node r.now e.withdrawn line reply with
  | none => exact inStep.rest
  | some t =>
    obtain ⟨settles, own⟩ := Activity.turn_settles kept.own inside made due'
    rw [← told] at settles
    have lines : t.next.awaits =
        Option.map Call.question ∘ Function.update e.calls line t.call := by
      rw [Function.comp_update, ← kept.lines]
      exact settles.after
    have next : Kept (⟨t.next, e.withdrawn, Function.update e.calls line t.call⟩ : Errand α) :=
      ⟨own, lines⟩
    refine ⟨⟨home_of_ledger inStep.home settles.learns.self settles.learns.ledger,
      inStep.setErrand next index, settles.learns.awaits.trans inStep.probes⟩,
      settles.learns.self, ?_, ?_⟩
    · rw [news_called]
      exact settles.learns.ledger
    · rw [news_called]
      exact brief

/-- A turn of a line leads on. -/
theorem InStep.turn (inStep : r.InStep) (index line : Nat) (reply : Option (Reply α)) :
    r.Leads (r.turn index line reply) := by
  unfold NodeRun.turn
  cases here : r.errands[index]? with
  | none => exact inStep.rest
  | some e =>
    have member := List.mem_of_getElem? here
    have kept := inStep.errands e member
    have waits : e.activity.awaits line = (e.calls line).map Call.question := by
      rw [kept.lines, Function.comp_apply]
    dsimp only
    split
    · next inside =>
      cases made : e.calls line with
      | none =>
        refine inStep.turnWith member inside (by rw [made]; rfl) ?_ (Nat.zero_le 1)
        rw [waits, made]
        rfl
      | some call =>
        cases reply with
        | none => exact inStep.rest
        | some reply =>
          refine inStep.turnWith member inside (by rw [made]; rfl) ?_
            (length_news_returned ..)
          rw [waits, made]
          exact List.flatMap_singleton ..
    · exact inStep.rest

/-- The next phase of an errand leads on. -/
theorem InStep.proceed (inStep : r.InStep) (index : Nat) (draw : Id) :
    r.Leads ([], r.proceed index draw) := by
  unfold NodeRun.proceed
  cases here : r.errands[index]? with
  | none => exact inStep.rest
  | some e =>
    have kept := inStep.errands e (List.mem_of_getElem? here)
    cases made : e.activity.proceed r.node r.now e.withdrawn draw with
    | none => simpa [made] using inStep.rest
    | some next =>
      -- No line waits before or after, so the same calls are waited for: none.
      obtain ⟨before, after, own⟩ := Activity.proceed_idle made
      have later : Kept ({ e with activity := next } : Errand α) :=
        ⟨own, after.trans (before.symm.trans kept.lines)⟩
      simp only [made]
      exact ⟨⟨inStep.home, inStep.setErrand later index, inStep.probes⟩, rfl, rfl, Nat.zero_le 1⟩

/-- The withdrawal of an errand leads on. -/
theorem InStep.withdraw (inStep : r.InStep) (index : Nat) : r.Leads ([], r.withdraw index) := by
  unfold NodeRun.withdraw
  cases here : r.errands[index]? with
  | none => exact inStep.rest
  | some e =>
    have kept := inStep.errands e (List.mem_of_getElem? here)
    have later : Kept ({ e with withdrawn := true } : Errand α) := ⟨kept.own, kept.lines⟩
    exact ⟨⟨inStep.home, inStep.setErrand later index, inStep.probes⟩, rfl, rfl, Nat.zero_le 1⟩

/-- A probe that waits for another ping, or for none, leads on. -/
theorem InStep.probed (inStep : r.InStep) {m : Monitor α} {serial : Nat} {call : Option (Call α)}
    {events : List (Event α)} (ledger : m.ledger = r.ledger.learnAll (news events))
    (awaits : m.awaits =
      Function.update r.node.monitor.awaits serial (call.map Call.question))
    (brief : (news events).length ≤ 1) :
    r.Leads (events, { r.setMonitor m with pings := Function.update r.pings serial call }) where
  inStep :=
    { home := home_of_ledger inStep.home rfl ledger
      errands := inStep.errands
      probes := by
        rw [Function.comp_update, ← inStep.probes]
        exact awaits }
  self := rfl
  ledger := ledger
  brief := brief

/-- A turn of a probe leads on. -/
theorem InStep.turnProbe (inStep : r.InStep) (serial : Nat) (reply : Option (Reply α)) :
    r.Leads (r.turnProbe serial reply) := by
  have silent : (news ([] : List (Event α))).length ≤ 1 := Nat.zero_le 1
  unfold NodeRun.turnProbe
  dsimp only
  cases known : r.node.monitor.probe? serial with
  | none => exact inStep.rest
  | some p =>
    dsimp only
    split
    · refine inStep.probed ?_ ?_ silent
      · exact r.node.monitor.ledger_abandon serial
      · exact r.node.monitor.awaits_abandon serial
    · cases phase : p.phase with
      | delayed time =>
        dsimp only
        split
        · have quiet := news_called [] (.probe serial) (r.node.monitor.wake r.now serial).1
          rw [List.nil_append] at quiet
          rw [← quiet] at silent
          refine inStep.probed ?_ ?_ silent
          · rw [quiet]
            exact r.node.monitor.ledger_wake r.now serial
          · exact r.node.monitor.awaits_wake r.now serial
        · exact inStep.rest
      | pinging =>
        dsimp only
        cases made : r.pings serial with
        | none => exact inStep.rest
        | some call =>
          cases reply with
          | none => exact inStep.rest
          | some reply =>
            -- The ping that has ended is the one that the probe waits for.
            have waits : r.node.monitor.awaits serial = some (p.contact, .ping) := by
              rw [Monitor.awaits, known, Option.bind_some, Probe.awaits, phase]
            have same : call.callee = p.contact := by
              rw [inStep.probes, Function.comp_apply, made, Option.map_some] at waits
              exact congrArg Prod.fst (Option.some.inj waits)
            refine inStep.probed ?_ ?_ (length_news_returned ..)
            · rw [r.node.monitor.ledger_pinged r.now serial known, ← same, news,
                List.flatMap_singleton]
              rfl
            · exact r.node.monitor.awaits_pinged r.now serial reply

/-- Every move leads on. -/
theorem InStep.move (inStep : r.InStep) (m : Move α) : r.Leads (r.move m) := by
  cases m with
  | wait millis =>
    exact ⟨⟨inStep.home, inStep.errands, inStep.probes⟩, rfl, rfl, Nat.zero_le 1⟩
  | hear c => exact inStep.told (Nat.le_refl 1) (r.node.heard_learns r.now c)
  | complain id =>
    exact inStep.told (Nat.le_refl 1)
      ⟨rfl, r.node.monitor.ledger_requestFailed id, r.node.monitor.awaits_requestFailed id⟩
  | remove id => exact inStep.told (Nat.le_refl 1) (inStep.remove_learns id)
  | wish wish =>
    obtain ⟨idle, own⟩ := wish.activity_idle r.node
    refine ⟨⟨inStep.home, ?_, inStep.probes⟩, rfl, rfl, Nat.zero_le 1⟩
    intro e member
    rcases List.mem_append.mp member with old | new
    · exact inStep.errands e old
    · obtain rfl := List.mem_singleton.mp new
      exact ⟨own, idle⟩
  | withdraw index => exact inStep.withdraw index
  | turn index line reply => exact inStep.turn index line reply
  | proceed index draw => exact inStep.proceed index draw
  | probe serial reply => exact inStep.turnProbe serial reply
  | close => exact ⟨⟨inStep.home, inStep.errands, inStep.probes⟩, rfl, rfl, Nat.zero_le 1⟩

/-- News of more events comes after the news of earlier ones. -/
theorem news_append (events later : List (Event α)) :
    news (events ++ later) = news events ++ news later := List.flatMap_append ..

/-- Whatever is played, the ledger is what the news of the events makes of it, and the calls under
way are those that are waited for. -/
theorem InStep.play (inStep : r.InStep) (moves : List (Move α)) :
    (r.play moves).2.InStep ∧ (r.play moves).2.node.self = r.node.self ∧
      (r.play moves).2.ledger = r.ledger.learnAll (news (r.play moves).1) := by
  induction moves generalizing r with
  | nil => exact ⟨inStep, rfl, rfl⟩
  | cons m moves further =>
    have first := inStep.move m
    obtain ⟨last, self, ledger⟩ := further first.inStep
    refine ⟨last, self.trans first.self, ?_⟩
    rw [NodeRun.play, news_append, Ledger.learnAll, List.foldl_append]
    exact ledger.trans (congrArg (Ledger.learnAll · _) first.ledger)

end Laws

/-- A node that has just been created has nothing under way. -/
theorem start_inStep {self : Contact α} {boot : List (Contact α)} {config : Config} {n : Node α}
    (created : Node.create self boot config = .ok n) : (start n).InStep := by
  obtain ⟨-, rfl⟩ := Node.create_eq created
  refine ⟨?_, nofun, rfl⟩
  have frame := (Table.withDepth self.id config.k config.maxSplitDepth).frame_change (.offer self)
  exact congrArg Prod.fst frame

end NodeRun

end Overlay
