import Mathlib
import Overlay.Proofs.Monitor.Moves
import Overlay.Proofs.Walk.Progress
import Overlay.Proofs.Walk.Run

/-!
# The rounds of a walk

The queries of a walk are made in rounds. A round is over when it has made all its queries or nobody
may be asked any more. The next one begins unless there have been enough, nobody is left, or enough
nodes were found while the last rounds brought nothing closer. The walk itself keeps a few counters
only; here its events are divided into rounds, and the counters are shown to say of them what the
rules are about.
-/
namespace Overlay

variable {α : Type}

namespace Walk

/-- A node is known, has not been asked, and is not cooling down. -/
structure Candidate (seeds : List (Contact α)) (events : List (Event α)) (m : Pull.Move α)
    (id : Id) : Prop where
  /-- It is known. -/
  known : id ∈ known seeds events
  /-- It has not been asked. -/
  unasked : id ∉ askedIds events
  /-- It is not cooling down now. -/
  cool : (m.node.cool.isCooling m.now id).1 = false

/-- A candidate may be asked if it has not been passed over before. -/
def Eligible (seeds : List (Contact α)) (events : List (Event α)) (m : Pull.Move α)
    (id : Id) : Prop :=
  Candidate seeds events m id ∧ id ∉ passedIds events

/-- A search finds somebody when there is somebody who may be asked. -/
theorem Explored.remains_ne_nil_iff {target : Id} {limits : WalkConfig}
    {seeds : List (Contact α)} {events : List (Event α)} {w : Walk α}
    (explored : w.Explored target limits seeds events) (m : Pull.Move α) :
    w.remains m.now m.node.cool ≠ [] ↔ ∃ id, Eligible seeds events m id := by
  have found : w.remains m.now m.node.cool ≠ [] ↔
      ∃ c ∈ w.frontier, w.skips m.now m.node.cool c = false := by
    rw [remains, ne_eq, List.dropWhile_eq_nil_iff]
    simp
  rw [found]
  constructor
  · rintro ⟨c, queued, taken⟩
    obtain ⟨known, unasked, kept⟩ :=
      (explored.knows.frontier.members c.id).mp (List.mem_map_of_mem queued)
    rw [explored.knows.skips_eq m.now m.node.cool queued] at taken
    exact ⟨c.id, ⟨known, unasked, taken⟩, kept⟩
  · rintro ⟨id, ⟨known, unasked, cool⟩, kept⟩
    obtain ⟨c, queued, rfl⟩ :=
      List.mem_map.mp ((explored.knows.frontier.members id).mpr ⟨known, unasked, kept⟩)
    refine ⟨c, queued, ?_⟩
    rwa [explored.knows.skips_eq m.now m.node.cool queued]

end Walk

namespace Pull

/-! ## Rounds -/

/-- A round begins between two moments of a walk. -/
def Opens (p next : Pull α) : Prop := p.walk.roundLeft = 0 ∧ next.walk.roundLeft ≠ 0

/-- Whether a round begins can be checked. -/
instance decidableOpens (p next : Pull α) : Decidable (Opens p next) :=
  inferInstanceAs (Decidable (_ ∧ _))

/-- Put what happens to queries into the latest round. -/
def enter (more : List (Lookup.Event α)) :
    List (List (Lookup.Event α)) → List (List (Lookup.Event α))
  | [] => []
  | latest :: earlier => (latest ++ more) :: earlier

/-- The rounds after one more move, latest first: a new one begins, or what happens to queries
belongs to the latest one. -/
def advance (p next : Pull α) (more : List (Walk.Event α))
    (rounds : List (List (Lookup.Event α))) : List (List (Lookup.Event α)) :=
  if Opens p next then [] :: rounds else enter (Walk.queries more) rounds

/-- The latest round has brought something closer to the target than all that was known before. -/
def Improves (target : Id) (seeds : List (Contact α)) : List (List (Lookup.Event α)) → Prop
  | [] => False
  | latest :: earlier =>
    target.Nears (Lookup.known seeds earlier.reverse.flatten)
      (latest.flatMap Lookup.Event.brought)

/-- There are so many rounds, and none of the last ones of this number has brought anything closer
to the target than all that was known before. -/
def Stalled (target : Id) (seeds : List (Contact α)) :
    Nat → List (List (Lookup.Event α)) → Prop
  | 0, _ => True
  | _ + 1, [] => False
  | count + 1, latest :: earlier =>
    ¬Improves target seeds (latest :: earlier) ∧ Stalled target seeds count earlier

section Rounds

variable {p next : Pull α} {m : Move α} {more : List (Walk.Event α)}

/-- Nothing is put into a round. -/
theorem enter_nil (rounds : List (List (Lookup.Event α))) : enter [] rounds = rounds := by
  cases rounds with
  | nil => rfl
  | cons latest earlier => rw [enter, List.append_nil]

/-- What is put into a round comes behind what was there. -/
theorem enter_enter (first then' : List (Lookup.Event α))
    (rounds : List (List (Lookup.Event α))) :
    enter then' (enter first rounds) = enter (first ++ then') rounds := by
  cases rounds with
  | nil => rfl
  | cons latest earlier => rw [enter, enter, enter, List.append_assoc]

/-- Putting something into a round begins none. -/
theorem length_enter (rounds : List (List (Lookup.Event α))) (more : List (Lookup.Event α)) :
    (enter more rounds).length = rounds.length := by
  cases rounds <;> rfl

/-- The earlier rounds stay as they are. -/
theorem tail_enter (rounds : List (List (Lookup.Event α))) (more : List (Lookup.Event α)) :
    (enter more rounds).tail = rounds.tail := by
  cases rounds <;> rfl

/-- What is put into a round comes behind all that has happened. -/
theorem flatten_enter {rounds : List (List (Lookup.Event α))} (begun : rounds ≠ [])
    (more : List (Lookup.Event α)) :
    (enter more rounds).reverse.flatten = rounds.reverse.flatten ++ more := by
  obtain ⟨latest, earlier, rfl⟩ := List.exists_cons_of_ne_nil begun
  simp [enter]

/-- What is put into a round improves on it when it is closer than all that was known. -/
theorem improves_enter (target : Id) (seeds : List (Contact α))
    {rounds : List (List (Lookup.Event α))} (begun : rounds ≠ []) (event : Lookup.Event α) :
    Improves target seeds (enter [event] rounds) ↔ Improves target seeds rounds ∨
      target.Nears (Lookup.known seeds rounds.reverse.flatten) event.brought := by
  obtain ⟨latest, earlier, rfl⟩ := List.exists_cons_of_ne_nil begun
  have known : Lookup.known seeds (latest :: earlier).reverse.flatten =
      Lookup.known seeds earlier.reverse.flatten ++ latest.flatMap Lookup.Event.brought := by
    simp [Lookup.known]
  rw [enter, Improves, Improves, List.flatMap_append, List.flatMap_singleton, Id.nears_append,
    known]

/-- Nothing is put anywhere when no round begins and there are no queries. -/
theorem advance_quiet (same : ¬Opens p next) (none : Walk.queries more = [])
    (rounds : List (List (Lookup.Event α))) : advance p next more rounds = rounds := by
  rw [advance, if_neg same, none, enter_nil]

/-- Passing over nodes is about no query. -/
theorem queries_passes (p : Pull α) (m : Move α) : Walk.queries (p.passed m) = [] :=
  Walk.queries_passed [] _

/-- What happens behind the nodes that are passed over. -/
theorem queries_passes_append (p : Pull α) (m : Move α) (later : List (Walk.Event α)) :
    Walk.queries (p.passed m ++ later) = Walk.queries later := by
  rw [Walk.queries_append, p.queries_passes, List.nil_append]

/-- Where there is nothing to decide, no query is made and the round stays as it is. -/
theorem Routine.spends (routine : p.Routine m more next) :
    next.walk.roundLeft = p.walk.roundLeft ∧ Walk.askedIds more = [] := by
  cases routine with
  | rest stuck => exact ⟨rfl, rfl⟩
  | @receive c reply going waits came cool =>
    obtain ⟨_, _, _, _, _, _, frame⟩ := p.walk.complete_frame m.now m.node.id cool m.fired c reply
    have none := Walk.askedIds_snoc_query [] (Lookup.Event.ended m.fired c reply)
    rw [Lookup.Event.taken_ended, List.append_nil, List.nil_append] at none
    rw [frame]
    exact ⟨rfl, none⟩
  | yield ready => exact ⟨rfl, rfl⟩
  | finish ready stops => exact ⟨rfl, rfl⟩

/-- A decision begins a round when the walk is between two rounds and goes on. -/
theorem Choice.opens_iff (choice : p.Choice m more next) (wide : 0 < p.walk.limits.roundWidth) :
    Opens p next ↔ p.walk.roundLeft = 0 ∧ p.stops = false ∧
      p.walk.remains m.now m.node.cool ≠ [] := by
  obtain ⟨_, _, closing⟩ := p.walk.closeRound_frame
  cases choice with
  | stop closed last =>
    refine iff_of_false (fun opens => opens.2 ?_) fun due => ?_
    · rw [closing]
      exact closed
    · rw [last] at due
      exact Bool.noConfusion due.2.1
  | exhaust closed more none =>
    refine iff_of_false (fun opens => opens.2 ?_) fun due => due.2.2 none
    rw [closing]
    exact closed
  | «open» closed more some => exact iff_of_true ⟨closed, Nat.ne_of_gt wide⟩ ⟨closed, more, some⟩
  | abandon left none => exact iff_of_false (fun opens => left opens.1) fun due => left due.1
  | ask left first => exact iff_of_false (fun opens => left opens.1) fun due => left due.1
  | own left first cool => exact iff_of_false (fun opens => left opens.1) fun due => left due.1

/-- A round begins exactly when the walk has to decide, between two rounds, and goes on. -/
theorem Act.opens_iff (act : p.Act m more next) (calm : m.fired = false)
    (wide : 0 < p.walk.limits.roundWidth) :
    Opens p next ↔ p.Deciding ∧ p.walk.roundLeft = 0 ∧ p.stops = false ∧
      p.walk.remains m.now m.node.cool ≠ [] := by
  cases act with
  | routine busy routine =>
    refine iff_of_false (fun opens => ?_) fun due => busy calm due.1
    exact opens.2 (routine.spends.1.trans opens.1)
  | choice _ deciding choice => rw [choice.opens_iff wide, and_iff_right deciding]

/-- Within a round, a decision gives up the rest when a search finds nobody, and makes a query
otherwise. -/
theorem Choice.spends (choice : p.Choice m more next) (left : p.walk.roundLeft ≠ 0) :
    p.walk.remains m.now m.node.cool = [] ∧ next.walk.roundLeft = 0 ∧ Walk.askedIds more = [] ∨
      p.walk.remains m.now m.node.cool ≠ [] ∧
        ∃ c, .query (.asked c) ∈ more ∧ Walk.askedIds more = [c.id] ∧
          next.walk.roundLeft + 1 = p.walk.roundLeft := by
  have fewer : p.walk.roundLeft - 1 + 1 = p.walk.roundLeft :=
    Nat.sub_add_cancel (Nat.pos_of_ne_zero left)
  cases choice with
  | stop closed last => exact absurd closed left
  | exhaust closed more none => exact absurd closed left
  | «open» closed more some => exact absurd closed left
  | abandon _ none =>
    refine .inl ⟨none, rfl, ?_⟩
    rw [Walk.askedIds, p.queries_passes]
    rfl
  | @ask c rest _ first =>
    refine .inr ⟨first ▸ List.cons_ne_nil c rest, c, by simp, ?_, fewer⟩
    rw [Walk.askedIds, p.queries_passes_append]
    rfl
  | @own c rest _ first cool =>
    obtain ⟨_, _, _, _, _, frame⟩ := (p.walk.taken c rest).landed.offerAll_frame m.node.id
      (m.node.neighbours p.walk.target)
    refine .inr ⟨first ▸ List.cons_ne_nil c rest, c, by simp, ?_, ?_⟩
    · rw [List.append_assoc, Walk.askedIds, p.queries_passes_append]
      rfl
    · rw [Walk.complete_ok, frame]
      exact fewer

/-- A decision between two rounds that begins none is the last one. -/
theorem Choice.done_of_shut (choice : p.Choice m more next) (wide : 0 < p.walk.limits.roundWidth)
    (closed : p.walk.roundLeft = 0) (shut : ¬Opens p next) : next.walk.done = true := by
  cases choice with
  | stop _ last => rfl
  | exhaust _ more none => rfl
  | «open» _ more some => exact absurd ⟨closed, Nat.ne_of_gt wide⟩ shut
  | abandon left none => exact absurd closed left
  | ask left first => exact absurd closed left
  | own left first cool => exact absurd closed left

end Rounds

/-! ## What the counters say -/

/-- The counters of a walk say of its rounds what they are for. -/
structure Paced (seeds : List (Contact α)) (events : List (Walk.Event α))
    (rounds : List (List (Lookup.Event α))) (p : Pull α) : Prop where
  /-- The nodes handed out are counted. -/
  yielded : p.walk.yielded = p.nodes.length
  /-- The rounds contain all that has happened to queries. -/
  split : Walk.queries events = rounds.reverse.flatten
  /-- The rounds are counted. -/
  counted : p.walk.rounds = rounds.length
  /-- No round makes too many queries. -/
  narrow : ∀ round ∈ rounds, (Lookup.askedIds round).length ≤ p.walk.limits.roundWidth
  /-- The queries that are left are those that the latest round has not made. -/
  filling : p.walk.roundLeft ≠ 0 → ∃ latest earlier, rounds = latest :: earlier ∧
    (Lookup.askedIds latest).length + p.walk.roundLeft = p.walk.limits.roundWidth
  /-- The smallest distance kept is that of all that is known. -/
  measures : p.walk.Measures (Walk.known seeds events)
  /-- The walk notes when the latest round has brought something closer. -/
  improved : p.walk.done = false → (p.walk.improved = true ↔ Improves p.walk.target seeds rounds)
  /-- The rounds before it that brought nothing closer are counted. -/
  stalled : p.walk.done = false →
    ∀ count, Stalled p.walk.target seeds count rounds.tail ↔ count ≤ p.walk.stalled

namespace Paced

variable {seeds : List (Contact α)} {events : List (Walk.Event α)}
  {rounds : List (List (Lookup.Event α))} {p : Pull α}

/-- A new walk has had no rounds. -/
theorem start (n : Node α) (target : Id) (sound : n.table.Sound) (wanted : Option Nat) :
    (Pull.start (.start n target) wanted).Paced (n.seeds target n.config.k) [] [] where
  yielded := rfl
  split := rfl
  counted := rfl
  narrow := nofun
  filling left := absurd rfl left
  measures := by
    have known : Walk.known (n.seeds target n.config.k) [] =
        (n.seeds target n.config.k).map (·.id) := List.append_nil _
    rw [known]
    exact Walk.start_measures n target sound
  improved _ := iff_of_false Bool.false_ne_true id
  stalled _ count := by
    cases count with
    | zero => exact iff_of_true trivial (Nat.le_refl 0)
    | succ count => exact iff_of_false id (Nat.not_succ_le_zero count)

/-- Passing over nodes is no matter to the rounds. -/
theorem pass (paced : p.Paced seeds events rounds) (contacts : List (Contact α)) :
    p.Paced seeds (events ++ contacts.map .passed) rounds :=
  { paced with
    split := by
      rw [Walk.queries_passed]
      exact paced.split
    measures := by
      rw [Walk.known_passed]
      exact paced.measures }

/-- A query is made within a round. -/
theorem ask (paced : p.Paced seeds events rounds) (left : p.walk.roundLeft ≠ 0) (c : Contact α)
    (rest : List (Contact α)) :
    ({ p with walk := p.walk.taken c rest } : Pull α).Paced seeds
      (events ++ [.query (.asked c)]) (enter [.asked c] rounds) := by
  obtain ⟨latest, earlier, same, filled⟩ := paced.filling left
  have begun : rounds ≠ [] := same ▸ List.cons_ne_nil latest earlier
  have entered : enter [.asked c] rounds = (latest ++ [.asked c]) :: earlier := by
    rw [same, enter]
  have asked : (Lookup.askedIds (latest ++ [.asked c])).length =
      (Lookup.askedIds latest).length + 1 := by
    rw [Lookup.askedIds_snoc, List.length_append]
    rfl
  exact {
    yielded := paced.yielded
    split := by rw [Walk.queries_snoc_query, paced.split, flatten_enter begun]
    counted := by
      rw [length_enter]
      exact paced.counted
    narrow := by
      intro round member
      rw [entered] at member
      show _ ≤ p.walk.limits.roundWidth
      rcases List.mem_cons.mp member with rfl | before
      · rw [asked, ← filled]
        exact Nat.add_le_add_left (Nat.pos_of_ne_zero left) _
      · exact paced.narrow round (same ▸ List.mem_cons_of_mem latest before)
    filling := by
      intro _
      refine ⟨_, earlier, entered, ?_⟩
      show _ + (p.walk.roundLeft - 1) = p.walk.limits.roundWidth
      rw [asked, ← filled]
      omega
    measures := by
      have measures := paced.measures
      rw [Walk.known_snoc_query, Lookup.Event.brought, List.append_nil]
      exact measures
    improved := by
      intro going
      rw [improves_enter _ seeds begun, Lookup.Event.brought,
        or_iff_left (Id.not_nears_nil _ _)]
      exact paced.improved going
    stalled := by
      rw [tail_enter]
      exact paced.stalled }

/-- A query ends. -/
theorem receive (paced : p.Paced seeds events rounds) {asked passed : List Id}
    (knows : p.walk.Knows (Walk.known seeds events) asked passed) (begun : rounds ≠ []) (now : Nat)
    (home : Id) (cool : CoolDown) (c : Contact α) (reply : Reply α) :
    ({ p with walk := (p.walk.complete now home cool false c reply).1 } : Pull α).Paced seeds
      (events ++ [.query (.ended false c reply)]) (enter [.ended false c reply] rounds) := by
  rw [p.walk.complete_calm]
  have taken : (Lookup.Event.ended false c reply).taken = [] :=
    Lookup.Event.taken_ended false c reply
  generalize Lookup.Event.ended false c reply = event at taken ⊢
  obtain ⟨_, _, _, _, _, frame⟩ := p.walk.landed.offerAll_frame home event.contacts
  -- Only asking counts, so no round makes more queries.
  have same (round : List (Lookup.Event α)) :
      Lookup.askedIds (round ++ [event]) = Lookup.askedIds round := by
    rw [Lookup.askedIds_snoc, taken, List.append_nil]
  have aimed : (p.walk.landed.offerAll home event.contacts).target = p.walk.target := by
    rw [frame]
    rfl
  have landed : p.walk.landed.Measures (Walk.known seeds events) := paced.measures
  have holds : p.walk.landed.Knows (Walk.known seeds events) asked passed := { knows with }
  obtain ⟨measures, improves⟩ := landed.offerAll holds home event.contacts
  constructor
  · rw [frame]
    exact paced.yielded
  · rw [Walk.queries_snoc_query, paced.split, flatten_enter begun]
  · rw [frame, length_enter]
    exact paced.counted
  · intro round member
    obtain ⟨latest, earlier, rfl⟩ := List.exists_cons_of_ne_nil begun
    rw [frame]
    rcases List.mem_cons.mp member with rfl | before
    · rw [same]
      exact paced.narrow latest List.mem_cons_self
    · exact paced.narrow round (List.mem_cons_of_mem latest before)
  · rw [frame]
    intro left
    obtain ⟨latest, earlier, rfl, filled⟩ := paced.filling left
    refine ⟨_, earlier, rfl, ?_⟩
    rw [same]
    exact filled
  · rw [Walk.known_snoc_query, Lookup.Event.brought_eq]
    exact measures
  · intro going
    have running : p.walk.done = false := by
      rw [frame] at going
      exact going
    have before : p.walk.landed.improved = true ↔ Improves p.walk.target seeds rounds :=
      paced.improved running
    rw [before, Walk.known, paced.split] at improves
    show (p.walk.landed.offerAll home event.contacts).improved = true ↔
      Improves (p.walk.landed.offerAll home event.contacts).target seeds _
    rw [aimed, improves_enter _ seeds begun, Lookup.Event.brought_eq]
    exact improves
  · rw [frame, tail_enter]
    exact paced.stalled

/-- When the round is closed, the last rounds that brought nothing closer are counted. -/
theorem closed (paced : p.Paced seeds events rounds) (going : p.walk.done = false) (count : Nat) :
    Stalled p.walk.target seeds count rounds ↔ count ≤ p.walk.closeRound.stalled := by
  have stalled := paced.stalled going
  have improved := paced.improved going
  have counted := paced.counted
  unfold Walk.closeRound
  cases rounds with
  | nil =>
    rw [List.length_nil] at counted
    rw [if_pos counted]
    exact stalled count
  | cons latest earlier =>
    have begun : p.walk.rounds ≠ 0 := by
      rw [counted]
      exact Nat.succ_ne_zero _
    rw [if_neg begun]
    cases count with
    | zero => exact iff_of_true trivial (Nat.zero_le _)
    | succ count =>
      have before : Stalled p.walk.target seeds count earlier ↔ count ≤ p.walk.stalled :=
        stalled count
      rw [Stalled, ← improved, before]
      cases p.walk.improved with
      | true => simp
      | false => simp

/-- Closing a round leaves nothing that it has brought. -/
theorem closed_improved (paced : p.Paced seeds events rounds) (going : p.walk.done = false) :
    p.walk.closeRound.improved = false := by
  have improved := paced.improved going
  have counted := paced.counted
  unfold Walk.closeRound
  split
  · next none =>
    obtain rfl := List.length_eq_zero_iff.mp (counted.symm.trans none)
    exact Bool.eq_false_iff.mpr fun nearer => improved.mp nearer
  · rfl

/-- A round is closed and another begins. -/
theorem begin (paced : p.Paced seeds events rounds) (going : p.walk.done = false)
    (frontier : List (Contact α)) :
    ({ p with walk := { p.walk.closeRound with
        frontier := frontier
        rounds := p.walk.rounds + 1
        roundLeft := p.walk.limits.roundWidth } } : Pull α).Paced seeds events ([] :: rounds) := by
  have stalled := paced.closed going
  have improved := paced.closed_improved going
  obtain ⟨count, better, frame⟩ := p.walk.closeRound_frame
  rw [frame] at stalled improved ⊢
  exact {
    yielded := paced.yielded
    split := by simpa using paced.split
    counted := congrArg (· + 1) paced.counted
    narrow := by
      intro round member
      rcases List.mem_cons.mp member with rfl | before
      · exact Nat.zero_le _
      · exact paced.narrow round before
    filling := fun _ => ⟨[], rounds, rfl, Nat.zero_add _⟩
    measures := paced.measures
    improved := fun _ =>
      iff_of_false (fun nearer => Bool.false_ne_true (improved.symm.trans nearer))
        (Id.not_nears_nil _ _)
    stalled := fun _ => stalled }

/-- The last round is closed and the walk makes no further query. -/
theorem stop (paced : p.Paced seeds events rounds) (closed : p.walk.roundLeft = 0)
    (frontier : List (Contact α)) :
    ({ p with walk := { p.walk.closeRound with
        frontier := frontier
        done := true } } : Pull α).Paced seeds events rounds := by
  obtain ⟨_, _, frame⟩ := p.walk.closeRound_frame
  rw [frame]
  exact {
    yielded := paced.yielded
    split := paced.split
    counted := paced.counted
    narrow := paced.narrow
    filling := fun left => absurd closed left
    measures := paced.measures
    improved := nofun
    stalled := nofun }

/-- A walk that waits or has queries left has begun a round. -/
theorem begun {target : Id} {limits : WalkConfig} (paced : p.Paced seeds events rounds)
    (explored : p.walk.Explored target limits seeds events)
    (waits : p.walk.awaiting.isSome = true) : rounds ≠ [] := by
  rintro rfl
  obtain ⟨c, waits⟩ := Option.isSome_iff_exists.mp waits
  have asked : Walk.askedIds events = [] := congrArg Lookup.askedIds paced.split
  have inTurn := explored.inTurn
  rw [asked, waits] at inTurn
  simp at inTurn

/-- Routine leaves the rounds as the counters say. -/
theorem routine {target : Id} {limits : WalkConfig} {m : Move α} {more : List (Walk.Event α)}
    {next : Pull α} (paced : p.Paced seeds events rounds)
    (explored : p.walk.Explored target limits seeds events) (calm : m.fired = false)
    (routine : p.Routine m more next) :
    next.Paced seeds (events ++ more) (enter (Walk.queries more) rounds) := by
  cases routine with
  | rest stuck =>
    rw [List.append_nil, Walk.queries, List.flatMap_nil, enter_nil]
    exact paced
  | @receive c reply going waits came cool =>
    have begun := paced.begun explored (by rw [waits]; rfl)
    rw [calm]
    exact paced.receive explored.knows begun m.now m.node.id cool c reply
  | @yield c later ready =>
    have none : Walk.queries [Walk.Event.handed c] = [] := rfl
    rw [none, enter_nil]
    exact { paced with
      yielded := by
        show p.walk.yielded + 1 = (p.nodes ++ [c]).length
        rw [paced.yielded, List.length_append]
        rfl
      split := by
        rw [Walk.queries_handed]
        exact paced.split
      measures := by
        rw [Walk.known_handed]
        exact paced.measures }
  | finish ready stops =>
    rw [List.append_nil, Walk.queries, List.flatMap_nil, enter_nil]
    exact { paced with }

/-- A decision leaves the rounds as the counters say. -/
theorem choice {target : Id} {limits : WalkConfig} {m : Move α} {more : List (Walk.Event α)}
    {next : Pull α} (paced : p.Paced seeds events rounds)
    (explored : p.walk.Explored target limits seeds events) (deciding : p.Deciding)
    (choice : p.Choice m more next) (wide : 0 < p.walk.limits.roundWidth) :
    next.Paced seeds (events ++ more) (advance p next more rounds) := by
  have opens := choice.opens_iff wide
  have passed : p.Paced seeds (events ++ p.passed m) rounds := paced.pass _
  cases choice with
  | stop closed last =>
    rw [advance_quiet (fun begins => ?_) rfl, List.append_nil]
    · exact paced.stop closed p.walk.closeRound.frontier
    · have goes := (opens.mp begins).2.1
      rw [last] at goes
      cases goes
  | exhaust closed more none =>
    rw [advance_quiet (fun begins => (opens.mp begins).2.2 none) (p.queries_passes m)]
    exact passed.stop closed []
  | «open» closed more some =>
    rw [advance, if_pos (opens.mpr ⟨closed, more, some⟩)]
    exact passed.begin deciding.open' _
  | abandon left none =>
    rw [advance_quiet (fun begins => left begins.1) (p.queries_passes m)]
    exact { passed with filling := fun left => absurd rfl left }
  | @ask c rest left first =>
    rw [advance, if_neg fun begins => left begins.1, p.queries_passes_append, ← List.append_assoc]
    exact passed.ask left c rest
  | @own c rest left first cool =>
    have queried : Walk.queries (p.passed m ++ [.query (.asked c)] ++
        [.query (.ended false c (.ok (m.node.neighbours p.walk.target)))]) =
          [.asked c] ++ [.ended false c (.ok (m.node.neighbours p.walk.target))] := by
      rw [List.append_assoc, p.queries_passes_append]
      rfl
    rw [advance, if_neg fun begins => left begins.1, queried, ← enter_enter, ← List.append_assoc,
      ← List.append_assoc]
    have asking := (explored.pass m.now m.node.cool).ask deciding.free
      (Nat.pos_of_ne_zero left) first
    have asked := passed.ask left c rest
    have begun : enter [.asked c] rounds ≠ [] := asked.begun asking rfl
    exact asked.receive asking.knows begun m.now m.node.id cool c _

/-- Between two rounds, the walk ends with the last one exactly when it has found enough and is
stalled, or when there may be no more rounds. -/
theorem stops_iff {home : Id} {wanted : Option Nat} (paced : p.Paced seeds events rounds)
    (harvested : p.Harvested home seeds wanted events) (going : p.walk.done = false) :
    p.stops = true ↔
      (rounds ≠ [] ∧ p.walk.limits.minResults ≤ (Walk.novel home seeds events).length ∧
        Stalled p.walk.target seeds p.walk.limits.stallRounds rounds) ∨
        p.walk.limits.maxRounds ≤ rounds.length := by
  have closed := paced.closed going p.walk.limits.stallRounds
  have begun : 0 < p.walk.rounds ↔ rounds ≠ [] := by
    rw [paced.counted]
    exact List.length_pos_iff
  have found : p.walk.yielded + p.walk.ready.length = (Walk.novel home seeds events).length := by
    rw [← harvested.whole, List.length_append, paced.yielded]
  obtain ⟨_, _, frame⟩ := p.walk.closeRound_frame
  rw [closed, ← begun, ← found, ← paced.counted, stops, Walk.isSated, frame]
  simp only [Bool.or_eq_true, Bool.and_eq_true, decide_eq_true_eq, and_assoc]

end Paced

/-! ## The rules of rounds -/

/-- A walk with its history. -/
structure Log (α : Type) where
  /-- The walk. -/
  pull : Pull α
  /-- What has happened in it. -/
  events : List (Walk.Event α)
  /-- What has happened to the queries of each round, latest round first. -/
  rounds : List (List (Lookup.Event α))

namespace Log

/-- A walk of a node that is about to begin. -/
def start (n : Node α) (target : Id) (wanted : Option Nat) : Log α :=
  ⟨.start (.start n target) wanted, [], []⟩

/-- The walk makes a move. -/
def move (log : Log α) (m : Move α) : Log α where
  pull := log.pull.move m
  events := log.events ++ log.pull.events m
  rounds := advance log.pull (log.pull.move m) (log.pull.events m) log.rounds

/-- The walk makes some moves. -/
def play (log : Log α) (moves : List (Move α)) : Log α := moves.foldl move log

/-- The rounds of a walk may go on: there have not been too many, and it is not so that enough nodes
were found and the last rounds brought nothing closer. -/
structure Unfinished (n : Node α) (target : Id) (log : Log α) : Prop where
  /-- There may be another round. -/
  room : log.rounds.length < n.config.walk.maxRounds
  /-- After a round, more nodes have to be found, or one of the last rounds brought one closer. -/
  unsated : ¬(log.rounds ≠ [] ∧
    n.config.walk.minResults ≤
      (Walk.novel n.id (n.seeds target n.config.k) log.events).length ∧
    Stalled target (n.seeds target n.config.k) n.config.walk.stallRounds log.rounds)

/-- What the next move of a walk has to do with its rounds. -/
structure Rules (n : Node α) (target : Id) (log : Log α) (m : Move α) : Prop where
  /-- Within a round, a node is asked as long as there is one that may be asked. -/
  asks : log.pull.Deciding → log.pull.walk.roundLeft ≠ 0 →
    (∃ id, Walk.Eligible (n.seeds target n.config.k) log.events m id) →
    ∃ c, .query (.asked c) ∈ log.pull.events m
  /-- A round is over when it has made all its queries, or the walk has to ask and nobody may be
  asked. -/
  closes : log.pull.walk.roundLeft ≠ 0 → ((log.pull.move m).walk.roundLeft = 0 ↔
    (∃ latest ∈ (log.move m).rounds.head?,
      (Lookup.askedIds latest).length = n.config.walk.roundWidth) ∨
    log.pull.Deciding ∧ ¬∃ id, Walk.Eligible (n.seeds target n.config.k) log.events m id)
  /-- After a round, and at first, the next one begins exactly when the rounds may go on and there
  is a node that may be asked. -/
  opens : Opens log.pull (log.pull.move m) ↔
    log.pull.Deciding ∧ log.pull.walk.roundLeft = 0 ∧ log.Unfinished n target ∧
      ∃ id, Walk.Eligible (n.seeds target n.config.k) log.events m id
  /-- When it does not, no further query is made. -/
  ends : log.pull.Deciding → log.pull.walk.roundLeft = 0 →
    ¬Opens log.pull (log.pull.move m) → (log.pull.move m).walk.done = true
  /-- A node is passed over only while it is cooling down. -/
  passes : ∀ c, .passed c ∈ log.pull.events m → (m.node.cool.isCooling m.now c.id).1 = true

/-- What is known of a walk that has never been withdrawn, whatever came of it. -/
structure Kept (n : Node α) (target : Id) (wanted : Option Nat) (log : Log α) : Prop where
  /-- Its events lead to where it is. -/
  course : Course n.id (Pull.start (.start n target) wanted) log.events log.pull
  /-- Its counters say of its rounds what they are for. -/
  paced : log.pull.Paced (n.seeds target n.config.k) log.events log.rounds

namespace Kept

variable {n : Node α} {target : Id} {wanted : Option Nat} {log : Log α} {m : Move α}

/-- It knows what its history says, and its caller has got the new nodes. -/
theorem accounts (kept : log.Kept n target wanted) (sound : n.table.Sound) :
    log.pull.walk.Explored target n.config.walk (n.seeds target n.config.k) log.events ∧
      log.pull.Harvested n.id (n.seeds target n.config.k) wanted log.events :=
  have distinct : ((n.seeds target n.config.k).map (·.id)).Nodup :=
    (sound.closest_ascending target n.config.k none false).distinct
  kept.course.accounts (.start n target distinct) (.start n.id n target _ wanted)

/-- It stays so with every move. -/
theorem move (kept : log.Kept n target wanted) (sound : n.table.Sound)
    (wide : 0 < n.config.walk.roundWidth) (calm : m.fired = false) (home : m.node.id = n.id) :
    (log.move m).Kept n target wanted where
  course := by
    have course := kept.course
    rw [← home] at course ⊢
    exact course.move m
  paced := by
    have explored := (kept.accounts sound).1
    rw [← explored.limited] at wide
    cases log.pull.act m with
    | routine busy routine =>
      have same : ¬Opens log.pull (log.pull.move m) := fun opens =>
        opens.2 (routine.spends.1.trans opens.1)
      show (log.pull.move m).Paced _ _ (advance _ _ _ _)
      rw [advance, if_neg same]
      exact kept.paced.routine explored calm routine
    | choice _ deciding choice => exact kept.paced.choice explored deciding choice wide

/-- It stays so for good. -/
theorem play (kept : log.Kept n target wanted) (sound : n.table.Sound)
    (wide : 0 < n.config.walk.roundWidth) (moves : List (Move α))
    (calm : ∀ m ∈ moves, m.fired = false ∧ m.node.id = n.id) :
    (log.play moves).Kept n target wanted := by
  induction moves generalizing log with
  | nil => exact kept
  | cons m moves further =>
    obtain ⟨now, later⟩ := List.forall_mem_cons.mp calm
    exact further (kept.move sound wide now.1 now.2) later

/-- The next round begins when it is due. -/
theorem opens_iff (kept : log.Kept n target wanted) (sound : n.table.Sound)
    (wide : 0 < n.config.walk.roundWidth) (calm : m.fired = false) :
    Opens log.pull (log.pull.move m) ↔
      log.pull.Deciding ∧ log.pull.walk.roundLeft = 0 ∧ log.Unfinished n target ∧
        ∃ id, Walk.Eligible (n.seeds target n.config.k) log.events m id := by
  obtain ⟨explored, harvested⟩ := kept.accounts sound
  have wide' := wide
  rw [← explored.limited] at wide'
  rw [(log.pull.act m).opens_iff calm wide', explored.remains_ne_nil_iff m]
  refine and_congr_right fun deciding => and_congr_right fun _ => and_congr_left fun _ => ?_
  have stops := kept.paced.stops_iff harvested deciding.open'
  rw [explored.aimed, explored.limited] at stops
  rw [← Bool.not_eq_true, stops, not_or, Nat.not_le]
  exact ⟨fun goes => ⟨goes.2, goes.1⟩, fun due => ⟨due.unsated, due.room⟩⟩

/-- A round is over when it has made all its queries, or nobody may be asked. -/
theorem closes_iff (kept : log.Kept n target wanted) (sound : n.table.Sound)
    (calm : m.fired = false) (left : log.pull.walk.roundLeft ≠ 0) :
    (log.pull.move m).walk.roundLeft = 0 ↔
      (∃ latest ∈ (log.move m).rounds.head?,
        (Lookup.askedIds latest).length = n.config.walk.roundWidth) ∨
      log.pull.Deciding ∧ ¬∃ id, Walk.Eligible (n.seeds target n.config.k) log.events m id := by
  have explored := (kept.accounts sound).1
  obtain ⟨latest, earlier, rounds, filled⟩ := kept.paced.filling left
  rw [explored.limited] at filled
  have entered : (log.move m).rounds =
      (latest ++ Walk.queries (log.pull.events m)) :: earlier := by
    show advance _ _ _ _ = _
    rw [advance, if_neg fun opens => left opens.1, rounds, enter]
  have full : (∃ latest ∈ (log.move m).rounds.head?,
      (Lookup.askedIds latest).length = n.config.walk.roundWidth) ↔
        (Walk.askedIds (log.pull.events m)).length = log.pull.walk.roundLeft := by
    rw [entered, List.head?_cons, ← filled]
    simp only [Option.mem_def, Option.some.injEq, exists_eq_left', Lookup.askedIds,
      List.flatMap_append, List.length_append, Nat.add_left_cancel_iff]
    rfl
  rw [full, ← explored.remains_ne_nil_iff m, ne_eq, not_not]
  cases log.pull.act m with
  | routine busy routine =>
    obtain ⟨same, none⟩ := routine.spends
    rw [same, none]
    exact iff_of_false left fun ends =>
      ends.elim (fun full => left full.symm) fun idle => busy calm idle.1
  | choice _ deciding choice =>
    rcases choice.spends left with ⟨none, closed, -⟩ | ⟨some, c, -, asked, fewer⟩
    · exact iff_of_true closed (.inr ⟨deciding, none⟩)
    · rw [asked, ← fewer, List.length_singleton, or_iff_left fun idle => some idle.2]
      omega

/-- The walk keeps to the rules at its next move. -/
theorem rules (kept : log.Kept n target wanted) (sound : n.table.Sound)
    (wide : 0 < n.config.walk.roundWidth) (calm : m.fired = false) : log.Rules n target m := by
  have explored := (kept.accounts sound).1
  constructor
  · intro deciding left somebody
    cases log.pull.act m with
    | routine busy routine => exact absurd deciding (busy calm)
    | choice _ _ choice =>
      rcases choice.spends left with ⟨none, -⟩ | ⟨-, c, asked, -⟩
      · exact absurd none ((explored.remains_ne_nil_iff m).mpr somebody)
      · exact ⟨c, asked⟩
  · exact kept.closes_iff sound calm
  · exact kept.opens_iff sound wide calm
  · intro deciding closed shut
    rw [← explored.limited] at wide
    cases log.pull.act m with
    | routine busy routine => exact absurd deciding (busy calm)
    | choice _ _ choice => exact choice.done_of_shut wide closed shut
  · exact fun c => (explored.cool m c).2

end Kept

/-- A walk of a node, which its caller does not withdraw: there are not too many rounds, all queries
are made in them, and none makes more than its share; the next move keeps to the rules of rounds;
and under every schedule that brings the replies that it waits for, the walk comes to its end. -/
theorem play_rounds {n : Node α} (reachable : n.table.Reachable) (target : Id)
    (wanted : Option Nat) (wide : 0 < n.config.walk.roundWidth) (moves : List (Move α))
    (calm : ∀ m ∈ moves, m.fired = false ∧ m.node.id = n.id) :
    let log := (Log.start n target wanted).play moves
    log.rounds.length ≤ n.config.walk.maxRounds ∧
    Walk.queries log.events = log.rounds.reverse.flatten ∧
    (∀ round ∈ log.rounds, (Lookup.askedIds round).length ≤ n.config.walk.roundWidth) ∧
    (∀ m : Move α, m.fired = false → log.Rules n target m) ∧
    ∀ schedule : Nat → Move α, (∀ time, (schedule time).fired = false) →
      log.pull.Fair schedule → ∃ time, (log.pull.follow schedule time).isOver = true := by
  intro log
  have sound := reachable.sound
  have begun : (Log.start n target wanted).Kept n target wanted :=
    ⟨.refl, .start n target sound wanted⟩
  have kept : log.Kept n target wanted := begun.play sound wide moves calm
  have explored := (kept.accounts sound).1
  have few := explored.begun
  have narrow := kept.paced.narrow
  rw [kept.paced.counted] at few
  rw [explored.limited] at narrow
  refine ⟨few, kept.paced.split, narrow, ?_, ?_⟩
  · exact fun m calm => kept.rules sound wide calm
  · exact fun schedule calm fair => log.pull.exists_over calm fair

/-- A node that knows two others, one of which has just failed it. It leaves that one alone for a
second. -/
def patient : Node Unit :=
  let n := Node.bare ⟨⟨1⟩, ()⟩ { k := 3, walk := { roundWidth := 1, coolDownSecs := 1 } }
  { n with
    monitor := { n.monitor with
      table := n.table.after [.offer n.self, .offer ⟨⟨2⟩, ()⟩, .offer ⟨⟨3⟩, ()⟩] }
    cool := n.cool.mark 0 ⟨2⟩ }

/-- In its first round the walk passes over the node that has failed and asks the other one, which
takes its time to answer. In its second round it asks the node itself. -/
def passing : List (Move Unit) :=
  [⟨patient, 0, false, none⟩, ⟨patient, 0, false, none⟩, ⟨patient, 1500, false, some (.ok [])⟩,
    ⟨patient, 1500, false, none⟩, ⟨patient, 1500, false, none⟩]

/-- The node stands in a table that can come about. -/
theorem patient_reachable : patient.table.Reachable :=
  ⟨⟨1⟩, 3, 256, [.offer ⟨⟨1⟩, ()⟩, .offer ⟨⟨2⟩, ()⟩, .offer ⟨⟨3⟩, ()⟩], rfl⟩

/-- The walk is not withdrawn. -/
theorem passing_calm : ∀ m ∈ passing, m.fired = false ∧ m.node.id = patient.id := by
  simp [passing]

/-- After its second round, the walk has to decide whether there is a third one. -/
theorem passing_decides :
    let log := (Log.start patient ⟨2⟩ none).play passing
    log.pull.Deciding ∧ log.pull.walk.roundLeft = 0 ∧ log.Unfinished patient ⟨2⟩ := by
  have room : ((Log.start patient ⟨2⟩ none).play passing).rounds.length = 2 := by cbv
  have found : (Walk.novel patient.id (patient.seeds ⟨2⟩ patient.config.k)
      ((Log.start patient ⟨2⟩ none).play passing).events).length = 0 := by cbv
  refine ⟨⟨by cbv, by cbv, by cbv, by cbv⟩, by cbv, ?_, fun sated => ?_⟩
  · rw [room]
    decide
  · have enough := sated.2.1
    rw [found] at enough
    exact absurd enough (by decide)

/-- It does not begin one. -/
theorem passing_shut :
    ¬Opens ((Log.start patient ⟨2⟩ none).play passing).pull
      (((Log.start patient ⟨2⟩ none).play passing).pull.move ⟨patient, 1500, false, none⟩) :=
  of_decide_eq_false (by cbv)

/-- After the second round nobody is left whom the walk may ask, so it makes no further query; and
it comes to its end if it gets its turns. -/
theorem play_rounds_patient :
    let log := (Log.start patient ⟨2⟩ none).play passing
    let m : Move Unit := ⟨patient, 1500, false, none⟩
    log.rounds.length ≤ 3 ∧ (log.pull.move m).walk.done = true ∧
      (¬∃ id, Walk.Eligible (patient.seeds ⟨2⟩ patient.config.k) log.events m id) ∧
      ∃ time, (log.pull.follow (fun _ => ⟨patient, 1500, false, some (.ok [])⟩) time).isOver =
        true := by
  obtain ⟨few, -, -, rules, ends⟩ :=
    play_rounds patient_reachable ⟨2⟩ none (by decide) passing passing_calm
  obtain ⟨deciding, closed, unfinished⟩ := passing_decides
  have next := rules ⟨patient, 1500, false, none⟩ rfl
  refine ⟨few, next.ends deciding closed passing_shut, fun somebody => ?_, ?_⟩
  · exact passing_shut (next.opens.mpr ⟨deciding, closed, unfinished, somebody⟩)
  · exact ends _ (fun _ => rfl) fun time => ⟨time, Nat.le_refl time, fun _ => rfl⟩

/-- The node that was passed over is no longer cooling down, and has not been asked; yet the walk
makes no further query. -/
theorem recovered_opens_nothing :
    patient.table.Reachable ∧ (∀ m ∈ passing, m.fired = false ∧ m.node.id = patient.id) ∧
    let log := (Log.start patient ⟨2⟩ none).play passing
    let m : Move Unit := ⟨patient, 1500, false, none⟩
    log.pull.Deciding ∧ log.pull.walk.roundLeft = 0 ∧ log.Unfinished patient ⟨2⟩ ∧
      Walk.Candidate (patient.seeds ⟨2⟩ patient.config.k) log.events m ⟨2⟩ ∧
      ¬Opens log.pull (log.pull.move m) := by
  obtain ⟨deciding, closed, unfinished⟩ := passing_decides
  have known : Walk.known (patient.seeds ⟨2⟩ patient.config.k)
      ((Log.start patient ⟨2⟩ none).play passing).events =
        [⟨2⟩, ⟨3⟩, ⟨1⟩, ⟨2⟩, ⟨3⟩, ⟨1⟩] := by cbv
  have asked : Walk.askedIds ((Log.start patient ⟨2⟩ none).play passing).events =
      [⟨3⟩, ⟨1⟩] := by cbv
  refine ⟨patient_reachable, passing_calm, deciding, closed, unfinished, ⟨?_, ?_, by cbv⟩,
    passing_shut⟩
  · rw [known]
    exact List.mem_cons_self
  · rw [asked]
    decide

end Log

end Pull

end Overlay
