import Mathlib
import Overlay.Proofs.Node.Membership
import Overlay.Proofs.Node.Moves

/-!
# A node and itself

A node stands in its own table and stays there, no failure of it is ever counted, and it never
calls itself. Each way in which it could lose sight of itself or turn to itself is barred at its
own place: the host cannot remove or accuse it, no probe of it is started, and it answers its own
questions. What remains is that a probe of the node itself never fails, since there is none.
-/
namespace Overlay

variable {α : Type}

/-! ## The ledger -/

namespace Ledger

/-- The home is in its own table, and no failure of it is counted. -/
structure Housed (l : Ledger α) : Prop where
  /-- The home is in its own table. -/
  present : l.table.contains l.table.home = true
  /-- No failure of the home is counted. -/
  faultless : ∀ e ∈ l.failures.entries, e.1 ≠ l.table.home

section Housed

variable {l : Ledger α}

/-- The home has not failed. -/
theorem Housed.count_eq_zero (housed : l.Housed) : l.count l.table.home = 0 := by
  have absent : l.failures.entries.find? (fun e => decide (e.1 = l.table.home)) = none := by
    apply List.find?_eq_none.mpr
    intro e listed
    simpa using housed.faultless e listed
  rw [count, Recency.peek?, absent]
  rfl

/-- The home stays in its own table, and none of its failures is counted, unless it is found
dead. -/
theorem Sound.housed_learn (sound : l.Sound) (housed : l.Housed) {news : News α}
    (lives : news ≠ .dead l.table.home) : (l.learn news).Housed := by
  have home : (l.learn news).table.home = l.table.home :=
    congrArg (fun parts => parts.2.1) (l.frame_learn news)
  constructor
  · rw [home]
    by_contra lost
    have absent : (l.learn news).table.contains l.table.home = false := by simpa using lost
    have kept (same : l.learn news = l) : False := by
      rw [same, housed.present] at absent
      cases absent
    rcases sound.leaves housed.present absent with rfl | ⟨rfl, -⟩ | rfl
    · exact kept (if_pos rfl)
    · exact kept (if_pos rfl)
    · exact lives rfl
  · rw [home]
    intro e listed
    have older (id : Id) (left : e ∈ (l.failures.erase id).entries) : e.1 ≠ l.table.home :=
      housed.faultless e (mem_erase left)
    cases news with
    | alive c => exact older c.id listed
    | dead id => exact older id listed
    | failed id =>
      rw [Ledger.learn] at listed
      split at listed
      · exact housed.faultless e listed
      · next other =>
        split at listed
        · rcases List.mem_cons.mp listed with rfl | kept
          · exact other
          · exact older id ((List.take_sublist _ _).subset kept)
        · exact older id listed
    | removed id =>
      rw [Ledger.learn] at listed
      split at listed <;> exact housed.faultless e listed

/-- The home stays in its own table, and none of its failures is counted, as long as it is not
found dead. -/
theorem Sound.housed_learnAll (sound : l.Sound) (housed : l.Housed) (news : List (News α))
    (lives : .dead l.table.home ∉ news) : (l.learnAll news).Housed := by
  induction news generalizing l with
  | nil => exact housed
  | cons first later further =>
    obtain ⟨other, others⟩ := List.ne_and_not_mem_of_not_mem_cons lives
    have home : (l.learn first).table.home = l.table.home :=
      congrArg (fun parts => parts.2.1) (l.frame_learn first)
    rw [← home] at others
    exact further (sound.learn first) (sound.housed_learn housed other.symm) others

end Housed

end Ledger

/-! ## Probes -/

namespace Monitor

/-- The home is this one, and no probe is one of it. -/
def Outward (home : Id) (m : Monitor α) : Prop :=
  m.table.home = home ∧ ∀ p ∈ m.probes, p.contact.id ≠ home

/-- Whatever happens, no probe is one of the home. -/
theorem outward_lasting (home : Id) : Lasting fun _ (m : Monitor α) => m.Outward home := by
  have framed : Lasting fun _ (m : Monitor α) => m.table.home = home :=
    frame_lasting fun _ _ _ same _ given => same.trans given
  apply framed.each
  · intro now m c given other
    rw [← given]
    exact other
  · intro now p outward
    exact outward
  · intro now p _ outward
    exact outward

/-- Only the contact of a probe is pinged when it wakes. -/
theorem exists_probe_of_wake {m : Monitor α} {now serial : Nat} {call : Call α}
    (called : (m.wake now serial).1 = some call) : ∃ p ∈ m.probes, p.contact = call.callee := by
  cases known : m.probe? serial with
  | none =>
    rw [(m.unknown_probe now serial known (.ok [])).2.1] at called
    cases called
  | some p =>
    rcases wake_cases now known with ⟨-, woken⟩ | ⟨-, -, woken⟩ | ⟨-, -, woken⟩
    · rw [woken] at called
      cases called
    · rw [woken] at called
      cases called
    · rw [woken] at called
      obtain rfl := Option.some.inj called
      exact ⟨p, (mem_of_probe? known).1, rfl⟩

end Monitor

/-! ## New nodes -/

/-- Parameters that a node can work with have no problem. -/
theorem Config.problem?_eq_none {config : Config} {done : Unit}
    (valid : config.validate = .ok done) : config.problem? = none := by
  unfold validate at valid
  split at valid
  · cases valid
  · next sound => exact sound

/-- Parameters that a node can work with leave room for a contact. -/
theorem Config.k_pos {config : Config} {done : Unit} (valid : config.validate = .ok done) :
    0 < config.k := by
  by_contra none
  have zero : config.k = 0 := by omega
  have sound := problem?_eq_none valid
  rw [problem?, if_pos zero] at sound
  cases sound

/-- An empty table with room for a contact takes the first one offered. -/
theorem Table.contains_add_withDepth (home : Id) {capacity : Nat} (maxDepth : Nat)
    (room : 0 < capacity) (c : Contact α) :
    ((withDepth home capacity maxDepth).add c).2.contains c.id = true := by
  let t : Table α := withDepth home capacity maxDepth
  apply ((withDepth_sound home capacity maxDepth).contains_add_iff c c.id).mpr
  refine .inr ⟨?_, rfl⟩
  have free : (t.bucketOf c.id).isFull = false := by
    show decide (capacity ≤ 0) = false
    exact decide_eq_false (by omega)
  rcases t.place_cases c with ⟨stored, -⟩ | ⟨-, full, -⟩ | ⟨-, -, placed⟩
  · cases stored
  · rw [free] at full
    cases full
  · have added : (t.add c).1 = ⟨.added, none⟩ := by simp only [add, placed]
    intro refused
    rw [added] at refused
    cases refused

/-- An errand is to ping those only that the node starts from. -/
theorem Wish.unpinged_activity {n : Node α} {wish : Wish α} {c : Contact α}
    (unpinged : (wish.activity n).Unpinged c) : c ∈ n.boot := by
  cases wish with
  | bootstrap => exact Bootstrap.unpinged_start unpinged
  | upkeep => exact Bootstrap.unpinged_start unpinged
  | _ => cases unpinged

namespace NodeRun

/-! ## Runs -/

/-- The node stands in its own table and has nothing to do with itself. -/
structure AtHome (r : NodeRun α) : Prop where
  /-- The calls under way are those that are waited for. -/
  inStep : r.InStep
  /-- The ledger is sound. -/
  sound : r.ledger.Sound
  /-- The node stands in its own table without a failure. -/
  housed : r.ledger.Housed
  /-- No probe is one of the node. -/
  outward : r.node.monitor.Outward r.node.id
  /-- The node does not start from itself. -/
  boot : ∀ c ∈ r.node.boot, c.id ≠ r.node.id
  /-- No errand is to ping the node. -/
  unpinged : ∀ e ∈ r.errands, ∀ c, e.activity.Unpinged c → c.id ≠ r.node.id

section Moves

variable {r : NodeRun α}

/-- A probe waits for the reply to its ping from its own contact. -/
theorem InStep.exists_probe (inStep : r.InStep) {serial : Nat} {call : Call α}
    (made : r.pings serial = some call) : ∃ p ∈ r.node.monitor.probes, p.contact = call.callee := by
  have waits : r.node.monitor.awaits serial = some call.question := by
    rw [inStep.probes, Function.comp_apply, made, Option.map_some]
  obtain ⟨p, known, asked⟩ := Option.bind_eq_some_iff.mp waits
  refine ⟨p, (Monitor.mem_of_probe? known).1, ?_⟩
  unfold Probe.awaits at asked
  split at asked
  · cases asked
  · exact congrArg Prod.fst (Option.some.inj asked)

/-- The node never finds itself dead. -/
theorem AtHome.lives (atHome : r.AtHome) (m : Move α) :
    .dead r.ledger.table.home ∉ news (r.move m).1 := by
  intro member
  obtain ⟨e, happened, brought⟩ := List.mem_flatMap.mp member
  rcases Event.of_mem_news brought with ⟨_, same, -⟩ | ⟨_, same, -⟩ | ⟨_, same, -⟩ | ⟨_, same, ends⟩
  · cases same
  · cases same
  · cases same
  · obtain ⟨serial, call, fault, fired, rfl, callee, -⟩ := ends
    obtain ⟨p, listed, contact⟩ := atHome.inStep.exists_probe (move_returned_probe happened)
    apply atHome.outward.2 p listed
    rw [contact, callee, ← News.dead.inj same]
    exact atHome.inStep.home

/-- A line calls others only. -/
theorem AtHome.takes_others (atHome : r.AtHome) {index line : Nat} {reply : Option (Reply α)}
    {e : Errand α} {t : Turn α (Activity α)} (takes : r.Takes index line reply e t)
    {call : Call α} (asked : t.call = some call) : call.callee.id ≠ r.node.id := by
  intro own
  have listed := List.mem_of_getElem? takes.here
  obtain ⟨due, made, -⟩ := takes.made
  have reaches := Activity.turn_reaches (atHome.inStep.errands e listed).own made
  exact atHome.unpinged e listed call.callee (reaches.others call asked own) own

/-- The node calls others only. -/
theorem AtHome.calls (atHome : r.AtHome) {m : Move α} {origin : Origin} {call : Call α}
    (member : .called origin call ∈ (r.move m).1) : call.callee.id ≠ r.node.id := by
  rcases move_called member with ⟨index, line, reply, e, t, -, takes, asked⟩ | ⟨serial, -, asked⟩
  · exact atHome.takes_others takes asked
  · obtain ⟨p, listed, contact⟩ := Monitor.exists_probe_of_wake asked
    rw [← contact]
    exact atHome.outward.2 p listed

/-- A move leaves the contacts that the node starts from as they are. -/
theorem boot_move (inStep : r.InStep) (m : Move α) : (r.move m).2.node.boot = r.node.boot := by
  cases m with
  | turn index line reply =>
    rw [move]
    rcases r.turn_cases index line reply with same | ⟨e, t, _, takes, same, -⟩
    · rw [same]
    · obtain ⟨due, made, -⟩ := takes.made
      have own := (inStep.errands e (List.mem_of_getElem? takes.here)).own
      rw [same]
      exact (Activity.turn_reaches own made).follows.boot
  | probe serial reply =>
    rw [move]
    rcases r.turnProbe_cases serial reply with same | ⟨_, same⟩ | ⟨_, same⟩ | ⟨_, _, _, _, same⟩ <;>
      rw [same] <;> rfl
  | remove id =>
    rw [move, Node.remove]
    split <;> rfl
  | withdraw index =>
    rw [move, withdraw]
    split <;> rfl
  | proceed index draw =>
    rw [move, proceed]
    split
    · rfl
    · split <;> rfl
  | _ => rfl

/-- The errands after a move are to ping those only that the errands before were to ping, or that
the node starts from. -/
theorem unpinged_move (inStep : r.InStep) (m : Move α) {after : Errand α} {c : Contact α}
    (member : after ∈ (r.move m).2.errands) (unpinged : after.activity.Unpinged c) :
    c ∈ r.node.boot ∨ ∃ e ∈ r.errands, e.activity.Unpinged c := by
  obtain ⟨index, here⟩ := List.getElem?_of_mem member
  cases before : r.errands[index]? with
  | none =>
    obtain ⟨wish, rfl⟩ := errand_new before here
    exact .inl (wish.unpinged_activity unpinged)
  | some e =>
    have listed := List.mem_of_getElem? before
    obtain ⟨last, there, becomes⟩ := errand_move before m
    obtain rfl := Option.some.inj (there.symm.trans here)
    cases becomes with
    | rest => exact .inr ⟨e, listed, unpinged⟩
    | withdrawn => exact .inr ⟨e, listed, unpinged⟩
    | turned _ takes =>
      obtain ⟨due, made, -⟩ := takes.made
      have reaches := Activity.turn_reaches (inStep.errands e listed).own made
      exact .inr ⟨e, listed, reaches.fewer c unpinged⟩
    | proceeded _ made => exact .inl (Activity.unpinged_proceed made unpinged)

/-- Every move leaves the node at home. -/
theorem AtHome.move (atHome : r.AtHome) (m : Move α) : (r.move m).2.AtHome := by
  have leads := atHome.inStep.move m
  have id : (r.move m).2.node.id = r.node.id := congrArg Contact.id leads.self
  constructor
  · exact leads.inStep
  · rw [leads.ledger]
    exact atHome.sound.learnAll _
  · rw [leads.ledger]
    exact atHome.sound.housed_learnAll atHome.housed _ (atHome.lives m)
  · rw [id]
    exact atHome.inStep.move_lasting (Monitor.outward_lasting r.node.id) atHome.outward m
  · rw [boot_move atHome.inStep, id]
    exact atHome.boot
  · intro after member c unpinged
    rw [id]
    rcases unpinged_move atHome.inStep m member unpinged with start | ⟨e, listed, before⟩
    · exact atHome.boot c start
    · exact atHome.unpinged e listed c before

/-- Whatever is played, the node is at home, and it has called others only. -/
theorem AtHome.play (atHome : r.AtHome) (moves : List (Move α)) :
    (r.play moves).2.AtHome ∧ ∀ origin call, .called origin call ∈ (r.play moves).1 →
      call.callee.id ≠ r.node.id := by
  induction moves generalizing r with
  | nil => exact ⟨atHome, fun _ _ called => nomatch called⟩
  | cons m moves further =>
    have self := (atHome.inStep.move m).self
    obtain ⟨last, others⟩ := further (atHome.move m)
    refine ⟨last, fun origin call member => ?_⟩
    rcases List.mem_append.mp member with now | later
    · exact atHome.calls now
    · have other := others origin call later
      rw [Node.id, self] at other
      exact other

end Moves

/-- A node that has just been created is at home. -/
theorem start_atHome {self : Contact α} {boot : List (Contact α)} {config : Config} {n : Node α}
    (created : Node.create self boot config = .ok n) : (start n).AtHome ∧ n.id = self.id := by
  obtain ⟨sound, -, -⟩ := Node.create_ledger created
  have inStep := start_inStep created
  obtain ⟨valid, rfl⟩ := Node.create_eq created
  let empty : Table α := .withDepth self.id config.k config.maxSplitDepth
  have home : (empty.add self).2.home = self.id :=
    congrArg Prod.fst (empty.frame_change (.offer self))
  have stored : (empty.add self).2.contains self.id = true :=
    Table.contains_add_withDepth self.id config.maxSplitDepth (Config.k_pos valid) self
  refine ⟨⟨inStep, sound, ⟨?_, nofun⟩, ⟨home, nofun⟩, ?_, nofun⟩, rfl⟩
  · rw [← home] at stored
    exact stored
  · intro c listed
    have other : c.id ≠ self.id := by simpa using (List.mem_filter.mp listed).2
    exact other

/-- Whatever the host does, to the node itself as well, and whatever the network answers, in any
order: the node is in its own table, no failure of it is counted, and it never pings or queries
itself, neither for an errand nor for a probe. -/
theorem play_home {self : Contact α} {boot : List (Contact α)} {config : Config} {n : Node α}
    (created : Node.create self boot config = .ok n) (moves : List (Move α)) :
    let events := ((start n).play moves).1
    let r := ((start n).play moves).2
    r.node.table.contains self.id = true ∧ r.node.monitor.failureCount self.id = 0 ∧
      ∀ origin call, .called origin call ∈ events → call.callee.id ≠ self.id := by
  intro events r
  obtain ⟨atHome, id⟩ := start_atHome created
  obtain ⟨last, others⟩ := atHome.play moves
  have home : r.ledger.table.home = self.id := by
    rw [← id]
    exact last.inStep.home.trans (congrArg Contact.id ((start_inStep created).play moves).2.1)
  refine ⟨?_, ?_, ?_⟩
  · have present := last.housed.present
    rw [home] at present
    exact present
  · have faultless := last.housed.count_eq_zero
    rw [home] at faultless
    exact faultless
  · intro origin call called
    rw [← id]
    exact others origin call called

/-- A node that has just been created, with one bucket for two contacts and no patience. -/
def recluse : Node Unit :=
  let n := Node.bare ⟨⟨1⟩, ()⟩ { k := 2, maxSplitDepth := 0, alpha := 1, failureThreshold := 1 }
  { n with
    boot := [⟨⟨2⟩, ()⟩]
    monitor := { n.monitor with table := (n.table.add n.self).2 } }

/-- The node becomes the stalest entry of a full bucket, and its host reports a failure of it and
removes it. Then it searches, and is named in the only answer; and it joins the network by the
contacts it starts from, itself not among them. -/
def besieged : List (Move Unit) :=
  [.hear ⟨⟨2⟩, ()⟩, .hear ⟨⟨3⟩, ()⟩, .complain ⟨1⟩, .remove ⟨1⟩,
    .wish (.search ⟨2⟩ none), .turn 0 0 none, .turn 0 0 (some (.ok [⟨⟨1⟩, ()⟩])), .turn 0 0 none,
    .wish .bootstrap, .turn 1 0 none]

/-- The node stays where it is and has called others only, twice. -/
theorem play_home_recluse :
    Node.create ⟨⟨1⟩, ()⟩ [⟨⟨1⟩, ()⟩, ⟨⟨2⟩, ()⟩]
      { k := 2, maxSplitDepth := 0, alpha := 1, failureThreshold := 1 } = .ok recluse ∧
    (let events := ((start recluse).play besieged).1
    let r := ((start recluse).play besieged).2
    events.length = 7 ∧ r.node.monitor.probes = [] ∧
    r.node.table.contains ⟨1⟩ = true ∧ r.node.monitor.failureCount ⟨1⟩ = 0 ∧
    ∀ origin call, .called origin call ∈ events → call.callee.id ≠ ⟨1⟩) := by
  have created : Node.create ⟨⟨1⟩, ()⟩ [⟨⟨1⟩, ()⟩, ⟨⟨2⟩, ()⟩]
      { k := 2, maxSplitDepth := 0, alpha := 1, failureThreshold := 1 } = .ok recluse := rfl
  obtain ⟨present, faultless, others⟩ := play_home created besieged
  exact ⟨created, by cbv, by cbv, present, faultless, others⟩

end NodeRun

end Overlay
