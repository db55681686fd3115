import Mathlib.Data.Prod.Lex
import Mathlib.Order.OrderIsoNat
import Overlay.Proofs.Activity
import Overlay.Proofs.Walk.History

/-!
# What a move of a walk comes to

A walk is moved on by its caller: each move gives it a turn, with the node as it is at that moment
and the reply that has come, if any. Moves that the walk cannot make leave it as it is. A walk that
waits for nobody and has nothing to hand out has to decide: it closes its round and begins the next,
or asks a node within the present one, or gives up the rest of it, or ends. All else is routine.
Unless the walk is withdrawn, every move but a rest brings it closer to its end, so it ends under
every schedule that brings the replies it waits for.
-/
namespace Overlay

variable {α : Type}

namespace Walk

/-- What a search for the next node to ask brings about. The node itself answers at once. -/
def searchEvents (w : Walk α) (n : Node α) (now : Nat) : List (Event α) :=
  let passed := (w.passes now n.cool).map .passed
  if w.roundLeft = 0 then
    let closed := w.closeRound
    if closed.isSated || decide (closed.limits.maxRounds ≤ closed.rounds) then [] else passed
  else
    match w.remains now n.cool with
    | [] => passed
    | c :: _ =>
      if c.id = n.id then
        passed ++ [.query (.asked c), .query (.answered c (n.neighbours w.target))]
      else passed ++ [.query (.asked c)]

section Searches

variable {w : Walk α} {n : Node α} {now : Nat}

/-- What a search leaves behind: the nodes passed over, and then, perhaps, the query of the first
node that is left. -/
theorem mem_searchEvents {event : Event α} (member : event ∈ w.searchEvents n now) :
    event ∈ (w.passes now n.cool).map .passed ∨
      ∃ c rest, w.remains now n.cool = c :: rest ∧
        (event = .query (.asked c) ∨ event = .query (.answered c (n.neighbours w.target))) := by
  unfold searchEvents at member
  dsimp only at member
  split at member
  · split at member
    · cases member
    · exact .inl member
  · split at member
    · exact .inl member
    · next c rest first =>
      split at member
      · rcases List.mem_append.mp member with passed | query
        · exact .inl passed
        · simp only [List.mem_cons, List.not_mem_nil, or_false] at query
          exact .inr ⟨c, rest, first, query⟩
      · rcases List.mem_append.mp member with passed | query
        · exact .inl passed
        · exact .inr ⟨c, rest, first, .inl (List.mem_singleton.mp query)⟩

end Searches

/-- The end of a query that is not withdrawn records the nodes that it brings, if any. -/
theorem complete_calm (w : Walk α) (now : Nat) (home : Id) (cool : CoolDown) (c : Contact α)
    (reply : Reply α) :
    (w.complete now home cool false c reply).1 =
      w.landed.offerAll home (Lookup.Event.ended false c reply).contacts := by
  cases reply <;> rfl

end Walk

namespace Pull

/-- A turn given to a walk. -/
structure Move (α : Type) where
  /-- The node that the walk belongs to, as it is now. -/
  node : Node α
  /-- The present. -/
  now : Nat
  /-- The caller has withdrawn the walk. -/
  fired : Bool
  /-- The reply that has come. -/
  reply : Option (Reply α)

/-- The walk after a move. -/
def move (p : Pull α) (m : Move α) : Pull α :=
  match p.turn m.node m.now m.fired m.reply with
  | some turn => turn.next
  | none => p

/-- What a move brings about. -/
def events (p : Pull α) (m : Move α) : List (Walk.Event α) :=
  if p.isOver then []
  else
    match p.walk.awaiting, m.reply with
    | some _, none => []
    | some c, some reply => [.query (.ended m.fired c reply)]
    | none, _ =>
      match p.walk.ready with
      | c :: _ => [.handed c]
      | [] => if p.walk.done || m.fired then [] else p.walk.searchEvents m.node m.now

/-- A move brings about the end of a query, a node for the caller, or a search. -/
theorem mem_events {p : Pull α} {m : Move α} {event : Walk.Event α}
    (member : event ∈ p.events m) :
    (∃ c reply, event = .query (.ended m.fired c reply)) ∨ (∃ c, event = .handed c) ∨
      event ∈ p.walk.searchEvents m.node m.now := by
  unfold events at member
  split at member
  · cases member
  · split at member
    · cases member
    · next c reply _ _ => exact .inl ⟨c, reply, List.mem_singleton.mp member⟩
    · split at member
      · next c _ _ => exact .inr (.inl ⟨c, List.mem_singleton.mp member⟩)
      · split at member
        · cases member
        · exact .inr (.inr member)

/-! ## What a move comes to -/

/-- The walk has to decide what to do next: it goes on, waits for nobody, and has nothing left to
hand out. -/
structure Deciding (p : Pull α) : Prop where
  /-- It is not over. -/
  going : p.isOver = false
  /-- It waits for nobody. -/
  free : p.walk.awaiting = none
  /-- Nothing is left to hand out. -/
  ready : p.walk.ready = []
  /-- Further queries may be made. -/
  open' : p.walk.done = false

/-- The walk ends with this round: it has enough, or there are no more rounds. -/
def stops (p : Pull α) : Bool :=
  p.walk.closeRound.isSated ||
    decide (p.walk.closeRound.limits.maxRounds ≤ p.walk.closeRound.rounds)

/-- The nodes that a search for the next node passes over now. -/
def passed (p : Pull α) (m : Move α) : List (Walk.Event α) :=
  (p.walk.passes m.now m.node.cool).map .passed

/-- What a walk does when there is nothing to decide. -/
inductive Routine (p : Pull α) (m : Move α) : List (Walk.Event α) → Pull α → Prop where
  /-- The walk is over, or the reply that it waits for has not come. -/
  | rest (stuck : p.isOver = true ∨ p.walk.awaiting.isSome = true ∧ m.reply = none) :
    Routine p m [] p
  /-- The reply that the walk waits for has come. -/
  | receive {c : Contact α} {reply : Reply α} (going : p.isOver = false)
    (waits : p.walk.awaiting = some c) (came : m.reply = some reply) (cool : CoolDown) :
    Routine p m [.query (.ended m.fired c reply)]
      { p with walk := (p.walk.complete m.now m.node.id cool m.fired c reply).1 }
  /-- A node is handed out. -/
  | yield {c : Contact α} {later : List (Contact α)} (ready : p.walk.ready = c :: later) :
    Routine p m [.handed c] (p.yield c later)
  /-- The walk has nothing left to hand out and makes no further query, or is withdrawn. -/
  | finish (ready : p.walk.ready = []) (stops : p.walk.done = true ∨ m.fired = true) :
    Routine p m [] { p with ended := true }

/-- What a walk decides. -/
inductive Choice (p : Pull α) (m : Move α) : List (Walk.Event α) → Pull α → Prop where
  /-- The round is closed, and it was the last one. -/
  | stop (closed : p.walk.roundLeft = 0) (last : p.stops = true) :
    Choice p m [] { p with walk := { p.walk.closeRound with done := true } }
  /-- The round is closed, and nobody is left to ask. -/
  | exhaust (closed : p.walk.roundLeft = 0) (more : p.stops = false)
    (none : p.walk.remains m.now m.node.cool = []) :
    Choice p m (p.passed m)
      { p with walk := { p.walk.closeRound with frontier := [], done := true } }
  /-- The round is closed, and the next one begins. -/
  | «open» (closed : p.walk.roundLeft = 0) (more : p.stops = false)
    (some : p.walk.remains m.now m.node.cool ≠ []) :
    Choice p m (p.passed m)
      { p with walk := { p.walk.closeRound with
        frontier := p.walk.remains m.now m.node.cool
        rounds := p.walk.rounds + 1
        roundLeft := p.walk.limits.roundWidth } }
  /-- Nobody is left to ask, and the rest of the round is given up. -/
  | abandon (left : p.walk.roundLeft ≠ 0) (none : p.walk.remains m.now m.node.cool = []) :
    Choice p m (p.passed m) { p with walk := { p.walk with frontier := [], roundLeft := 0 } }
  /-- Another node is asked. -/
  | ask {c : Contact α} {rest : List (Contact α)} (left : p.walk.roundLeft ≠ 0)
    (first : p.walk.remains m.now m.node.cool = c :: rest) :
    Choice p m (p.passed m ++ [.query (.asked c)]) { p with walk := p.walk.taken c rest }
  /-- The node itself is asked and answers at once. -/
  | own {c : Contact α} {rest : List (Contact α)} (left : p.walk.roundLeft ≠ 0)
    (first : p.walk.remains m.now m.node.cool = c :: rest) (cool : CoolDown) :
    Choice p m (p.passed m ++ [.query (.asked c)] ++
        [.query (.ended false c (.ok (m.node.neighbours p.walk.target)))])
      { p with walk := ((p.walk.taken c rest).complete m.now m.node.id cool false c
        (.ok (m.node.neighbours p.walk.target))).1 }

/-- What a move of a walk comes to. -/
inductive Act (p : Pull α) (m : Move α) (more : List (Walk.Event α)) (next : Pull α) : Prop where
  /-- There is nothing to decide, or the walk is withdrawn. -/
  | routine (busy : m.fired = false → ¬p.Deciding) (routine : p.Routine m more next) :
    Act p m more next
  /-- The walk decides. -/
  | choice (calm : m.fired = false) (deciding : p.Deciding) (choice : p.Choice m more next) :
    Act p m more next

section Moves

variable {p : Pull α} {m : Move α}

/-- At a decision between two rounds, the walk ends or begins the next round. -/
theorem choice_closed (closed : p.walk.roundLeft = 0) :
    p.Choice m (p.walk.searchEvents m.node m.now)
      { p with walk := (p.walk.nextRound m.now m.node.cool).1 } := by
  obtain ⟨stalled, improved, frame⟩ := p.walk.closeRound_frame
  have pruned : (Walk.prune m.now p.walk.closeRound.asked m.node.cool
      p.walk.closeRound.frontier).1 = p.walk.remains m.now m.node.cool := by
    rw [p.walk.closeRound.prune_fst, frame]
    rfl
  rcases found : Walk.prune m.now p.walk.closeRound.asked m.node.cool
    p.walk.closeRound.frontier with ⟨queue, cool⟩
  rw [found] at pruned
  dsimp only at pruned
  have begun : p.walk.closeRound.rounds = p.walk.rounds := by rw [frame]
  have limited : p.walk.closeRound.limits = p.walk.limits := by rw [frame]
  unfold Walk.searchEvents Walk.nextRound
  rw [if_pos closed]
  dsimp only
  cases last : p.stops with
  | true =>
    have finished := last
    unfold stops at finished
    rw [if_pos finished, if_pos finished]
    exact .stop closed last
  | false =>
    have goes := Bool.eq_false_iff.mp last
    unfold stops at goes
    rw [if_neg goes, if_neg goes, found]
    cases queue with
    | nil => exact .exhaust closed last pruned.symm
    | cons c rest =>
      have found : p.walk.remains m.now m.node.cool ≠ [] := by
        rw [← pruned]
        exact List.cons_ne_nil c rest
      have begins := Choice.open (m := m) closed last found
      rw [← pruned, ← begun, ← limited] at begins
      exact begins

/-- At a decision within a round, the walk asks a node or gives up the rest of the round. -/
theorem choice_left (left : p.walk.roundLeft ≠ 0) :
    p.Choice m (p.walk.searchEvents m.node m.now)
      { p with walk := (p.walk.ask m.node m.now false).next } := by
  have pruned := p.walk.prune_fst m.now m.node.cool
  rcases found : Walk.prune m.now p.walk.asked m.node.cool p.walk.frontier with ⟨queue, cool⟩
  rw [found] at pruned
  dsimp only at pruned
  unfold Walk.searchEvents Walk.ask
  rw [if_neg left, found, ← pruned]
  cases queue with
  | nil => exact .abandon left pruned.symm
  | cons c rest =>
    dsimp only
    by_cases own : c.id = m.node.id
    · rw [if_pos own, if_pos own]
      have answers := Choice.own (m := m) left pruned.symm cool
      rw [List.append_assoc] at answers
      exact answers
    · rw [if_neg own, if_neg own]
      exact .ask left pruned.symm

/-- Every move of a walk is routine or a decision. -/
theorem act (p : Pull α) (m : Move α) : p.Act m (p.events m) (p.move m) := by
  unfold events move turn
  split
  · next finished =>
    exact .routine (fun _ deciding => by simp [deciding.going] at finished) (.rest (.inl finished))
  · next open' =>
    have going : p.isOver = false := Bool.eq_false_iff.mpr open'
    cases waits : p.walk.awaiting with
    | some c =>
      refine .routine (fun _ deciding => by simp [deciding.free] at waits) ?_
      cases came : m.reply with
      | none => exact .rest (.inr ⟨by rw [waits]; rfl, came⟩)
      | some reply =>
        have same : (m.node.judge m.now m.fired c reply).id = m.node.id :=
          congrArg Contact.id (m.node.judge_learns m.now m.fired c reply).self
        have receives := Routine.receive (m := m) going waits came
          (m.node.judge m.now m.fired c reply).cool
        rw [← same] at receives
        exact receives
    | none =>
      dsimp only
      cases ready : p.walk.ready with
      | cons c later =>
        exact .routine (fun _ deciding => by simp [deciding.ready] at ready) (.yield ready)
      | nil =>
        dsimp only
        cases stops : p.walk.done || m.fired with
        | true =>
          have stops := Bool.or_eq_true_iff.mp stops
          refine .routine (fun calm deciding => ?_) (.finish ready stops)
          simp [calm, deciding.open'] at stops
        | false =>
          obtain ⟨open', calm⟩ := Bool.or_eq_false_iff.mp stops
          refine .choice calm ⟨going, waits, ready, open'⟩ ?_
          rw [if_neg Bool.false_ne_true, if_neg Bool.false_ne_true, calm]
          by_cases closed : p.walk.roundLeft = 0
          · rw [if_pos closed]
            exact choice_closed closed
          · rw [if_neg closed]
            exact choice_left closed

end Moves

/-! ## Walks end -/

/-- What is left of a walk: rounds that may still begin, then what this round may still take, then
nodes to be handed out. -/
def left (p : Pull α) : Nat ×ₗ Nat ×ₗ Nat :=
  toLex (p.walk.limits.maxRounds - p.walk.rounds,
    toLex (2 * p.walk.roundLeft + p.walk.awaiting.toList.length + (!p.walk.done).toNat,
      p.walk.ready.length))

/-- The walk after so many moves of a schedule. -/
def follow (p : Pull α) (schedule : Nat → Move α) : Nat → Pull α
  | 0 => p
  | time + 1 => (p.follow schedule time).move (schedule time)

/-- A schedule is fair to a walk when, as long as the walk waits, its reply comes at some time. -/
def Fair (p : Pull α) (schedule : Nat → Move α) : Prop :=
  ∀ time, ∃ later ≥ time, (p.follow schedule later).walk.awaiting.isSome = true →
    (schedule later).reply.isSome = true

section Ends

variable {p next : Pull α} {m : Move α} {events : List (Walk.Event α)}
  {schedule : Nat → Move α}

/-- Less is left when no more rounds may begin and this round may take less. -/
theorem left_lt_of_round
    (rounds : next.walk.limits.maxRounds - next.walk.rounds ≤
      p.walk.limits.maxRounds - p.walk.rounds)
    (less : 2 * next.walk.roundLeft + next.walk.awaiting.toList.length + (!next.walk.done).toNat <
      2 * p.walk.roundLeft + p.walk.awaiting.toList.length + (!p.walk.done).toNat) :
    next.left < p.left := by
  refine Prod.Lex.toLex_lt_toLex.mpr ?_
  rcases Nat.lt_or_eq_of_le rounds with fewer | same
  · exact .inl fewer
  · exact .inr ⟨same, Prod.Lex.toLex_lt_toLex.mpr (.inl less)⟩

/-- A walk that does not end with this round may begin another. -/
theorem rounds_lt_of_goes (p : Pull α) (more : p.stops = false) :
    p.walk.rounds < p.walk.limits.maxRounds := by
  obtain ⟨_, _, frame⟩ := p.walk.closeRound_frame
  have goes := of_decide_eq_false (Bool.or_eq_false_iff.mp more).2
  rw [frame] at goes
  exact Nat.lt_of_not_le goes

/-- Where there is nothing to decide, less is left, unless the walk rests or is over. -/
theorem Routine.left_lt (calm : m.fired = false) (routine : p.Routine m events next) :
    (p.isOver = true ∨ p.walk.awaiting.isSome = true ∧ m.reply = none) ∧ next = p ∨
      next.isOver = true ∨ next.left < p.left := by
  cases routine with
  | rest stuck => exact .inl ⟨stuck, rfl⟩
  | @receive c reply going waits came cool =>
    obtain ⟨_, _, _, _, _, frame⟩ := p.walk.landed.offerAll_frame m.node.id
      (Lookup.Event.ended false c reply).contacts
    refine .inr (.inr (left_lt_of_round ?_ ?_))
    · rw [calm, p.walk.complete_calm, frame]
      exact Nat.le_refl _
    · rw [calm, p.walk.complete_calm, frame, waits]
      show 2 * p.walk.roundLeft + 0 + _ < 2 * p.walk.roundLeft + 1 + _
      exact Nat.add_lt_add_right (Nat.lt_succ_self _) _
  | @yield c later ready =>
    refine .inr (.inr (Prod.Lex.toLex_lt_toLex.mpr (.inr ⟨rfl, ?_⟩)))
    refine Prod.Lex.toLex_lt_toLex.mpr (.inr ⟨rfl, ?_⟩)
    rw [ready]
    exact Nat.lt_succ_self _
  | finish ready stops => exact .inr (.inl rfl)

/-- Every decision leaves less. -/
theorem Choice.left_lt (deciding : p.Deciding) (choice : p.Choice m events next) :
    next.left < p.left := by
  obtain ⟨_, _, closing⟩ := p.walk.closeRound_frame
  cases choice with
  | stop closed last =>
    refine left_lt_of_round ?_ ?_
    · rw [closing]
    · rw [closing, deciding.open']
      exact Nat.lt_succ_self _
  | exhaust closed more none =>
    refine left_lt_of_round ?_ ?_
    · rw [closing]
    · rw [closing, deciding.open']
      exact Nat.lt_succ_self _
  | «open» closed more some =>
    refine Prod.Lex.toLex_lt_toLex.mpr (.inl ?_)
    rw [closing]
    exact Nat.sub_lt_sub_left (p.rounds_lt_of_goes more) (Nat.lt_succ_self _)
  | abandon left none =>
    refine left_lt_of_round (Nat.le_refl _) ?_
    rw [Nat.add_assoc, Nat.add_assoc]
    exact Nat.add_lt_add_right (Nat.mul_lt_mul_of_pos_left (Nat.pos_of_ne_zero left) Nat.two_pos) _
  | ask left first =>
    refine left_lt_of_round (Nat.le_refl _) ?_
    rw [deciding.free]
    show 2 * (p.walk.roundLeft - 1) + 1 + (!p.walk.done).toNat <
      2 * p.walk.roundLeft + 0 + (!p.walk.done).toNat
    omega
  | @own c rest left first cool =>
    obtain ⟨_, _, _, _, _, frame⟩ := (p.walk.taken c rest).landed.offerAll_frame m.node.id
      (m.node.neighbours p.walk.target)
    refine left_lt_of_round ?_ ?_
    · rw [Walk.complete_ok, frame]
      exact Nat.le_refl _
    · rw [Walk.complete_ok, frame, deciding.free]
      show 2 * (p.walk.roundLeft - 1) + 0 + (!p.walk.done).toNat <
        2 * p.walk.roundLeft + 0 + (!p.walk.done).toNat
      omega

/-- Every move leaves less, unless the walk rests or is over. -/
theorem left_lt (p : Pull α) (m : Move α) (calm : m.fired = false) :
    (p.isOver = true ∨ p.walk.awaiting.isSome = true ∧ m.reply = none) ∧ p.move m = p ∨
      (p.move m).isOver = true ∨ (p.move m).left < p.left := by
  cases p.act m with
  | routine _ routine => exact routine.left_lt calm
  | choice _ deciding choice => exact .inr (.inr (choice.left_lt deciding))

/-- Every move leaves less, unless the walk waits for a reply that has not come or is over. -/
theorem left_move_lt (p : Pull α) (m : Move α) (calm : m.fired = false)
    (going : (p.move m).isOver = false)
    (answered : p.walk.awaiting.isSome = true → m.reply.isSome = true) :
    (p.move m).left < p.left := by
  rcases p.left_lt m calm with ⟨finished | ⟨waits, missing⟩, same⟩ | finished | less
  · rw [same, finished] at going
    cases going
  · have came := answered waits
    rw [missing] at came
    cases came
  · rw [finished] at going
    cases going
  · exact less

/-- No move leaves more, as long as the walk is not over. -/
theorem left_move_le (p : Pull α) (m : Move α) (calm : m.fired = false)
    (going : (p.move m).isOver = false) : (p.move m).left ≤ p.left := by
  rcases p.left_lt m calm with ⟨-, same⟩ | finished | less
  · exact le_of_eq (congrArg left same)
  · rw [finished] at going
    cases going
  · exact le_of_lt less

/-- A walk ends under every fair schedule. -/
theorem exists_over (p : Pull α) (calm : ∀ time, (schedule time).fired = false)
    (fair : p.Fair schedule) : ∃ time, (p.follow schedule time).isOver = true := by
  by_contra endless
  have going (time : Nat) : (p.follow schedule time).isOver = false :=
    Bool.eq_false_iff.mpr fun finished => endless ⟨time, finished⟩
  have falls : Antitone fun time => (p.follow schedule time).left :=
    antitone_nat_of_succ_le fun time =>
      left_move_le _ (schedule time) (calm time) (going (time + 1))
  -- What is left is well-founded, and a fair schedule brings it down again and again.
  obtain ⟨time, least⟩ := WellFoundedLT.antitone_chain_condition falls
  obtain ⟨later, after, answered⟩ := fair time
  have less := left_move_lt _ (schedule later) (calm later) (going (later + 1)) answered
  have same := least (later + 1) (Nat.le_succ_of_le after)
  have there := least later after
  exact absurd (there.symm.trans same) (ne_of_gt less)

end Ends

end Pull

end Overlay
