import Overlay.Proofs.Node.Run

/-!
# Who is in the table of a node

A node takes into its table whoever has shown to be alive, and nobody else: a contact that
another one merely names is not stored. It drops a contact for three reasons only, which all
concern this contact: the host removes it, it fails as often in a row as is tolerated, or a probe
of it fails. A newcomer never drives anybody out.
-/
namespace Overlay

variable {α : Type}

namespace Ledger

/-- The table is sound, and no node has failed too often in a row. -/
structure Sound (l : Ledger α) : Prop where
  /-- The table is sound. -/
  table : l.table.Sound
  /-- At least one failure is tolerated or counted. -/
  positive : 0 < l.threshold
  /-- Whoever is counted has failed less often than is tolerated. -/
  few : ∀ e ∈ l.failures.entries, e.2 < l.threshold

section News

variable {l : Ledger α}

/-- Nobody has failed as often as is not tolerated. -/
theorem Sound.count_lt (sound : l.Sound) (id : Id) : l.count id < l.threshold := by
  unfold count Recency.peek?
  cases found : l.failures.entries.find? fun e => decide (e.1 = id) with
  | none => exact sound.positive
  | some e => exact sound.few e (List.mem_of_find?_eq_some found)

/-- What is left of the counts after one has been forgotten. -/
theorem mem_erase {failures : Recency Nat} {id : Id} {e : Id × Nat}
    (left : e ∈ (failures.erase id).entries) : e ∈ failures.entries :=
  List.eraseP_sublist.subset left

/-- News keeps a ledger sound. -/
theorem Sound.learn (sound : l.Sound) (news : News α) : (l.learn news).Sound := by
  have forgotten (id : Id) : ∀ e ∈ (l.failures.erase id).entries, e.2 < l.threshold :=
    fun e left => sound.few e (mem_erase left)
  cases news with
  | alive c => exact ⟨sound.table.add c, sound.positive, forgotten c.id⟩
  | failed id =>
    rw [Ledger.learn]
    split
    · exact sound
    · split
      · next few =>
        refine ⟨sound.table, sound.positive, List.forall_mem_cons.mpr ⟨few, fun e kept => ?_⟩⟩
        exact forgotten id e ((List.take_sublist _ _).subset kept)
      · exact ⟨sound.table.remove id, sound.positive, forgotten id⟩
  | dead id => exact ⟨sound.table.remove id, sound.positive, forgotten id⟩
  | removed id =>
    rw [Ledger.learn]
    split
    · exact sound
    · exact ⟨sound.table.remove id, sound.positive, sound.few⟩

/-- News keeps a ledger sound, however much there is. -/
theorem Sound.learnAll (sound : l.Sound) (news : List (News α)) : (l.learnAll news).Sound := by
  induction news generalizing l with
  | nil => exact sound
  | cons first later further => exact further (sound.learn first)

/-- Only news of life brings an identifier into the table, and it is news of this identifier. -/
theorem Sound.enters (sound : l.Sound) {news : News α} {id : Id}
    (present : (l.learn news).table.contains id = true) :
    l.table.contains id = true ∨ ∃ c, news = .alive c ∧ c.id = id := by
  rcases l.table_learn news with ⟨c, rfl, same⟩ | same | ⟨gone, -, same⟩
  · rw [same, sound.table.contains_add_iff] at present
    exact present.imp_right fun taken => ⟨c, rfl, taken.2⟩
  · rw [same] at present
    exact .inl present
  · rw [same, sound.table.contains_remove_iff] at present
    exact .inl present.1

/-- Whoever is in the table was there before or has shown to be alive since. -/
theorem Sound.entered (sound : l.Sound) {news : List (News α)} {id : Id}
    (present : (l.learnAll news).table.contains id = true) :
    l.table.contains id = true ∨ ∃ c, .alive c ∈ news ∧ c.id = id := by
  induction news generalizing l with
  | nil => exact .inl present
  | cons first later further =>
    rcases further (sound.learn first) present with before | ⟨c, member, same⟩
    · refine (sound.enters before).imp_right ?_
      rintro ⟨c, rfl, same⟩
      exact ⟨c, List.mem_cons_self, same⟩
    · exact .inr ⟨c, List.mem_cons_of_mem first member, same⟩

/-- An identifier leaves the table when the host removes it, when it has failed as often in a row
as is not tolerated, or when a probe of it has failed. -/
theorem Sound.leaves (sound : l.Sound) {news : News α} {id : Id}
    (present : l.table.contains id = true) (absent : (l.learn news).table.contains id = false) :
    news = .removed id ∨ (news = .failed id ∧ l.count id + 1 = l.threshold) ∨
      news = .dead id := by
  rcases l.table_learn news with ⟨c, rfl, same⟩ | same | ⟨gone, why, same⟩
  · have stored := (sound.table.contains_add_iff c id).mpr (.inl present)
    rw [same, stored] at absent
    cases absent
  · rw [same, present] at absent
    cases absent
  · have taken : gone = id := by
      by_contra other
      have stored := (sound.table.contains_remove_iff gone id).mpr ⟨present, Ne.symm other⟩
      rw [same, stored] at absent
      cases absent
    subst taken
    have few := sound.count_lt gone
    exact why.imp_right fun rest => rest.imp_left fun failed => ⟨failed.1, by omega⟩

end News

end Ledger

/-- Parameters that a node can work with count at least one failure. -/
theorem Config.failureThreshold_pos {config : Config} {done : Unit}
    (valid : config.validate = .ok done) : 0 < config.failureThreshold := by
  by_contra none
  have zero : config.failureThreshold = 0 := by omega
  have problem : config.problem? ≠ Option.none := by
    rw [problem?, if_pos zero]
    split_ifs <;> exact Option.some_ne_none _
  obtain ⟨problem, found⟩ := Option.ne_none_iff_exists'.mp problem
  simp [validate, found] at valid

/-- The ledger of a node that has just been created is sound, and the node is all that it holds. -/
theorem Node.create_ledger {self : Contact α} {boot : List (Contact α)} {config : Config}
    {n : Node α} (created : create self boot config = .ok n) :
    n.monitor.ledger.Sound ∧ n.monitor.ledger.threshold = config.failureThreshold ∧
      ∀ id, n.table.contains id = true → id = self.id := by
  obtain ⟨valid, rfl⟩ := create_eq created
  have empty := Table.withDepth_sound (α := α) self.id config.k config.maxSplitDepth
  refine ⟨⟨empty.add self, Config.failureThreshold_pos valid, nofun⟩, rfl, fun id present => ?_⟩
  rcases (empty.contains_add_iff self id).mp present with before | ⟨-, same⟩
  · cases before
  · exact same.symm

namespace NodeRun

/-! ## What events say -/

/-- A node is alive: the host reports a message from it, or it has answered a call. -/
def Event.ShowsAlive (e : Event α) (id : Id) : Prop :=
  (∃ c, e = .heard c ∧ c.id = id) ∨
    ∃ origin call contacts fired,
      e = .returned origin call (.ok contacts) fired ∧ call.callee.id = id

/-- A failure of a node is recorded: the host reports one, or a query of the node has failed for
another reason than that its caller has withdrawn it. -/
def Event.CountsAgainst (e : Event α) (id : Id) : Prop :=
  e = .complained id ∨
    ∃ index line call target fault fired,
      e = .returned (.errand index line) call (.error fault) fired ∧
        call.request = .find target ∧ call.callee.id = id ∧
        ¬(fired = true ∧ fault.isCancelled = true)

/-- The ping of a probe of a node has failed, and has not been cancelled. -/
def Event.EndsProbe (e : Event α) (id : Id) : Prop :=
  ∃ serial call fault fired, e = .returned (.probe serial) call (.error fault) fired ∧
    call.callee.id = id ∧ fault.isCancelled = false

section Events

variable {e : Event α} {c : Contact α} {id : Id}

/-- What the reply to a call brings is news of the node called. -/
theorem Event.of_mem_news_returned {origin : Origin} {call : Call α} {reply : Reply α}
    {fired : Bool} {item : News α} (returned : e = .returned origin call reply fired)
    (member : item ∈ e.news) :
    (item = .alive call.callee ∧ e.ShowsAlive call.callee.id) ∨
      (item = .failed call.callee.id ∧ e.CountsAgainst call.callee.id) ∨
      item = .dead call.callee.id ∧ e.EndsProbe call.callee.id := by
  have alive {contacts : List (Contact α)} (answered : reply = .ok contacts) :
      e.ShowsAlive call.callee.id :=
    .inr ⟨origin, call, contacts, fired, answered ▸ returned, rfl⟩
  cases origin with
  | errand index line =>
    rw [returned, news, News.ofReply] at member
    cases request : call.request with
    | ping =>
      simp only [Call.question, request] at member
      cases reply with
      | ok contacts => exact .inl ⟨List.mem_singleton.mp member, alive rfl⟩
      | error fault => cases member
    | find target =>
      simp only [Call.question, request] at member
      cases reply with
      | ok contacts => exact .inl ⟨List.mem_singleton.mp member, alive rfl⟩
      | error fault =>
        rw [News.ofQuery] at member
        split at member
        · cases member
        · next kept =>
          rw [Bool.and_eq_true] at kept
          have against : e.CountsAgainst call.callee.id :=
            .inr ⟨index, line, call, target, fault, fired, returned, request, rfl, kept⟩
          exact .inr (.inl ⟨List.mem_singleton.mp member, against⟩)
  | probe serial =>
    rw [returned, news] at member
    cases reply with
    | ok contacts => exact .inl ⟨List.mem_singleton.mp member, alive rfl⟩
    | error fault =>
      rw [News.ofProbe] at member
      split at member
      · cases member
      · next kept =>
        have ends : e.EndsProbe call.callee.id :=
          ⟨serial, call, fault, fired, returned, rfl, by simpa using kept⟩
        exact .inr (.inr ⟨List.mem_singleton.mp member, ends⟩)

/-- What kind of news an event brings, and of whom. -/
theorem Event.of_mem_news {item : News α} (member : item ∈ e.news) :
    (∃ c, item = .alive c ∧ e.ShowsAlive c.id) ∨
      (∃ id, item = .removed id ∧ e = .removed id) ∨
      (∃ id, item = .failed id ∧ e.CountsAgainst id) ∨
      ∃ id, item = .dead id ∧ e.EndsProbe id := by
  cases e with
  | heard c => exact .inl ⟨c, List.mem_singleton.mp member, .inl ⟨c, rfl, rfl⟩⟩
  | complained id => exact .inr (.inr (.inl ⟨id, List.mem_singleton.mp member, .inl rfl⟩))
  | removed id => exact .inr (.inl ⟨id, List.mem_singleton.mp member, rfl⟩)
  | called origin call => cases member
  | returned origin call reply fired =>
    rcases of_mem_news_returned rfl member with ⟨same, alive⟩ | ⟨same, against⟩ | ⟨same, ends⟩
    · exact .inl ⟨_, same, alive⟩
    · exact .inr (.inr (.inl ⟨_, same, against⟩))
    · exact .inr (.inr (.inr ⟨_, same, ends⟩))

/-- A sign of life is news of it. -/
theorem Event.alive_mem_news (alive : e.ShowsAlive id) : ∃ c, .alive c ∈ e.news ∧ c.id = id := by
  rcases alive with ⟨c, rfl, same⟩ | ⟨origin, call, contacts, fired, rfl, same⟩
  · exact ⟨c, List.mem_singleton.mpr rfl, same⟩
  · refine ⟨call.callee, ?_, same⟩
    cases origin with
    | probe serial => exact List.mem_singleton.mpr rfl
    | errand index line =>
      rw [Event.news, News.ofReply]
      split <;> exact List.mem_singleton.mpr rfl

/-- News of life comes from an event that shows it. -/
theorem exists_showsAlive {events : List (Event α)} (member : .alive c ∈ news events) :
    ∃ e ∈ events, e.ShowsAlive c.id := by
  obtain ⟨e, happened, brought⟩ := List.mem_flatMap.mp member
  refine ⟨e, happened, ?_⟩
  rcases Event.of_mem_news brought with ⟨d, same, alive⟩ | ⟨_, same, _⟩ | ⟨_, same, _⟩ |
    ⟨_, same, _⟩
  · obtain rfl := News.alive.inj same
    exact alive
  · cases same
  · cases same
  · cases same

end Events

/-! ## Entering and leaving -/

section Moves

variable {r : NodeRun α} {id : Id}

/-- Who enters the table in a move shows to be alive in it. -/
theorem InStep.enters (inStep : r.InStep) (sound : r.ledger.Sound) (m : Move α)
    (absent : r.node.table.contains id = false)
    (present : (r.move m).2.node.table.contains id = true) :
    ∃ e ∈ (r.move m).1, e.ShowsAlive id := by
  have ledger := (inStep.move m).ledger
  have stored : (r.ledger.learnAll (news (r.move m).1)).table.contains id = true := by
    rw [← ledger]
    exact present
  rcases sound.entered stored with before | ⟨c, member, rfl⟩
  · rw [show r.ledger.table.contains id = false from absent] at before
    cases before
  · exact exists_showsAlive member

/-- Who leaves the table in a move is removed by the host, has failed once too often, or has a
probe of it fail; and nobody shows to be alive in this move. -/
theorem InStep.leaves (inStep : r.InStep) (sound : r.ledger.Sound) (m : Move α)
    (present : r.node.table.contains id = true)
    (absent : (r.move m).2.node.table.contains id = false) :
    (∃ e ∈ (r.move m).1, e = .removed id ∨
      (e.CountsAgainst id ∧ r.ledger.count id + 1 = r.ledger.threshold) ∨ e.EndsProbe id) ∧
      ∀ e ∈ (r.move m).1, ∀ other, ¬e.ShowsAlive other := by
  have leads := inStep.move m
  have dropped : (r.ledger.learnAll (news (r.move m).1)).table.contains id = false := by
    rw [← leads.ledger]
    exact absent
  have stored : r.ledger.table.contains id = true := present
  cases learnt : news (r.move m).1 with
  | nil =>
    rw [learnt, Ledger.learnAll, List.foldl_nil, stored] at dropped
    cases dropped
  | cons item rest =>
    -- A move brings one piece of news at most, which is then the reason for the loss.
    have brief := leads.brief
    rw [learnt, List.length_cons] at brief
    obtain rfl : rest = [] := List.eq_nil_of_length_eq_zero (by omega)
    rw [learnt] at dropped
    have why := sound.leaves stored dropped
    have member : item ∈ news (r.move m).1 := by
      rw [learnt]
      exact List.mem_singleton.mpr rfl
    obtain ⟨e, happened, brought⟩ := List.mem_flatMap.mp member
    constructor
    · refine ⟨e, happened, ?_⟩
      rcases Event.of_mem_news brought with ⟨c, rfl, -⟩ | ⟨other, rfl, same⟩ |
        ⟨other, rfl, against⟩ | ⟨other, rfl, ends⟩
      · simp at why
      · obtain rfl : other = id := by simpa using why
        exact .inl same
      · obtain ⟨rfl, often⟩ : other = id ∧ r.ledger.count id + 1 = r.ledger.threshold := by
          simpa using why
        exact .inr (.inl ⟨against, often⟩)
      · obtain rfl : other = id := by simpa using why
        exact .inr (.inr ends)
    · intro other happens someone alive
      obtain ⟨c, brought, -⟩ := Event.alive_mem_news alive
      have same : .alive c ∈ news (r.move m).1 := List.mem_flatMap.mpr ⟨other, happens, brought⟩
      rw [learnt, List.mem_singleton] at same
      rw [← same] at why
      simp at why

end Moves

/-- Whatever the host does and the network answers, in any order: an identifier is in the table
only if it is the node's own or its node has shown to be alive, to the host or by answering a ping
or a query; no listing of it in an answer is enough. And it leaves the table only in a move in
which the host removes it, a failure of it is recorded that makes as many in a row as are not
tolerated, or a probe of it fails without being cancelled; never in one that brings a sign of life
of anybody. -/
theorem play_members {self : Contact α} {boot : List (Contact α)} {config : Config} {n : Node α}
    (created : Node.create self boot config = .ok n) (moves : List (Move α)) :
    let events := ((start n).play moves).1
    let r := ((start n).play moves).2
    (∀ id, r.node.table.contains id = true →
      id = self.id ∨ ∃ e ∈ events, e.ShowsAlive id) ∧
    ∀ (m : Move α) (id : Id),
      (r.node.table.contains id = false → (r.move m).2.node.table.contains id = true →
        ∃ e ∈ (r.move m).1, e.ShowsAlive id) ∧
      (r.node.table.contains id = true → (r.move m).2.node.table.contains id = false →
        (∃ e ∈ (r.move m).1, e = .removed id ∨
          (e.CountsAgainst id ∧
            r.node.monitor.failureCount id + 1 = config.failureThreshold) ∨
          e.EndsProbe id) ∧
        ∀ e ∈ (r.move m).1, ∀ other, ¬e.ShowsAlive other) := by
  intro events r
  obtain ⟨sound, threshold, own⟩ := Node.create_ledger created
  obtain ⟨inStep, -, ledger⟩ := (start_inStep created).play moves
  have sound' : r.ledger.Sound := by
    rw [ledger]
    exact sound.learnAll (news events)
  have threshold' : r.ledger.threshold = config.failureThreshold := by
    have frame := (start n).ledger.frame_learnAll (news events)
    rw [← ledger] at frame
    exact (congrArg Prod.fst frame).trans threshold
  refine ⟨fun id present => ?_, fun m id => ⟨inStep.enters sound' m, fun present absent => ?_⟩⟩
  · have stored : ((start n).ledger.learnAll (news events)).table.contains id = true := by
      rw [← ledger]
      exact present
    rcases sound.entered stored with before | ⟨c, member, rfl⟩
    · exact .inl (own id before)
    · exact .inr (exists_showsAlive member)
  · rw [← threshold']
    exact inStep.leaves sound' m present absent

/-- A node that has just been created and gives up on others after two failures. -/
def hermit : Node Unit :=
  let n := Node.bare ⟨⟨1⟩, ()⟩ { failureThreshold := 2 }
  { n with monitor := { n.monitor with table := (n.table.add n.self).2 } }

/-- A node is asked and names another one; then its host reports a failure of it. -/
def hermitMoves : List (Move Unit) :=
  [.wish (.query ⟨⟨2⟩, ()⟩ .zero), .turn 0 0 none, .turn 0 0 (some (.ok [⟨⟨3⟩, ()⟩])),
    .complain ⟨2⟩]

/-- The node that has answered is in the table and the one that it has named is not; a second
failure drives it out. -/
theorem play_members_hermit :
    Node.create ⟨⟨1⟩, ()⟩ [] { failureThreshold := 2 } = .ok hermit ∧
    (let events := ((start hermit).play hermitMoves).1
    let r := ((start hermit).play hermitMoves).2
    r.node.table.contains ⟨2⟩ = true ∧ r.node.table.contains ⟨3⟩ = false ∧
    (r.move (.complain ⟨2⟩)).2.node.table.contains ⟨2⟩ = false ∧
    (∃ e ∈ events, e.ShowsAlive ⟨2⟩) ∧
    ∃ e ∈ (r.move (.complain ⟨2⟩)).1, e = .removed ⟨2⟩ ∨
      (e.CountsAgainst ⟨2⟩ ∧ r.node.monitor.failureCount ⟨2⟩ + 1 = 2) ∨ e.EndsProbe ⟨2⟩) := by
  have created : Node.create ⟨⟨1⟩, ()⟩ [] { failureThreshold := 2 } = .ok hermit := rfl
  obtain ⟨members, changes⟩ := play_members created hermitMoves
  have stored : ((start hermit).play hermitMoves).2.node.table.contains ⟨2⟩ = true := by
    decide +kernel
  have gone : (((start hermit).play hermitMoves).2.move
      (.complain ⟨2⟩)).2.node.table.contains ⟨2⟩ = false := by decide +kernel
  have alive := (members ⟨2⟩ stored).resolve_left (by decide)
  have why := ((changes (.complain ⟨2⟩) ⟨2⟩).2 stored gone).1
  exact ⟨created, stored, by decide +kernel, gone, alive, why⟩

end NodeRun

end Overlay
