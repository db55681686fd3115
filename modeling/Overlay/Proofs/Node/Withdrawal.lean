import Mathlib
import Overlay.Proofs.Node.Moves
import Overlay.Proofs.Withdrawal

/-!
# Withdrawn searches of a node

A host withdraws a search at any moment. From then on no query is made for it, a call that is
cancelled is no matter to the node, a lookup ends with what it has found, and a walk ends after
what it holds. Each line of a lookup needs two turns at most, and a walk as many as it holds nodes
and two more.
-/
namespace Overlay

variable {α : Type}

namespace NodeRun

/-- Whatever reply the move brings to a line of the errand, it is that the call has been
cancelled. -/
def Move.Cancels (index : Nat) (m : Move α) : Prop :=
  ∀ line reply, m = .turn index line reply → Calms reply

/-- The move gives this line of the errand its turn, with a reply if it waits for one. -/
def Move.gives (index line : Nat) : Move α → Bool
  | .turn other at' (some _) => decide (other = index) && decide (at' = line)
  | _ => false

section Moves

variable {r : NodeRun α} {index line : Nat} {e : Errand α}

/-- What becomes of a withdrawn errand whose calls are cancelled: nothing, if no line that is given
its turn can take it; or one line takes its turn; or it passes to its next phase. -/
theorem InStep.withdrawn_move (inStep : r.InStep) (here : r.errands[index]? = some e)
    (withdrawn : e.withdrawn = true) {m : Move α} (cancels : m.Cancels index) :
    ∃ after, (r.move m).2.errands[index]? = some after ∧ after.withdrawn = true ∧
      ((after.activity = e.activity ∧ ∀ line < e.activity.lines, m.gives index line = true →
          ∃ due : Option (Reply α), due.isSome = (e.activity.awaits line).isSome ∧
            e.activity.turn r.node r.now true line due = none) ∨
        (∃ line due t, Calms due ∧ (∀ other, m.gives index other = true → other = line) ∧
          e.activity.turn r.node r.now true line due = some t ∧ after.activity = t.next) ∨
        ∃ draw, (∀ line, m.gives index line = false) ∧
          e.activity.proceed r.node r.now true draw = some after.activity) := by
  by_cases given : ∃ line came, m = .turn index line (some came) ∧ line < e.activity.lines
  · obtain ⟨line, came, rfl, inside⟩ := given
    have waits : e.activity.awaits line = (e.calls line).map Call.question := by
      rw [(inStep.errands e (List.mem_of_getElem? here)).lines, Function.comp_apply]
    obtain ⟨due, answered, reply, does⟩ := turn_given here inside came
    have own (other : Nat) (gives : (Move.turn index line (some came)).gives index other = true) :
        other = line := by
      simpa [Move.gives, eq_comm] using gives
    rw [withdrawn] at does
    rcases does with ⟨stuck, idle⟩ | ⟨t, made, turned⟩
    · refine ⟨e, ?_, withdrawn, .inl ⟨rfl, fun other _ gives => ?_⟩⟩
      · rw [NodeRun.move, idle]
        exact here
      · rw [own other gives, waits]
        exact ⟨due, by rw [answered, Option.isSome_map], stuck⟩
    · have calm : Calms due := by
        rcases reply with rfl | rfl
        · intro other same
          cases same
        · exact cancels line (some came) rfl
      refine ⟨⟨t.next, e.withdrawn, Function.update e.calls line t.call⟩, ?_, withdrawn,
        .inr (.inl ⟨line, due, t, calm, own, made, rfl⟩)⟩
      rw [NodeRun.move, turned]
      exact List.getElem?_set_self (List.getElem?_eq_some_iff.mp here).1
  · have ungiven (line : Nat) (inside : line < e.activity.lines) :
        m.gives index line = true → False := by
      intro gives
      unfold Move.gives at gives
      split at gives
      · next other at' came =>
        simp only [Bool.and_eq_true, decide_eq_true_eq] at gives
        obtain ⟨rfl, rfl⟩ := gives
        exact given ⟨at', came, rfl, inside⟩
      · cases gives
    obtain ⟨after, there, becomes⟩ := errand_move here m
    refine ⟨after, there, ?_⟩
    cases becomes with
    | rest =>
      exact ⟨withdrawn, .inl ⟨rfl, fun line inside gives => (ungiven line inside gives).elim⟩⟩
    | withdrawn =>
      exact ⟨rfl, .inl ⟨rfl, fun line inside gives => (ungiven line inside gives).elim⟩⟩
    | @turned line reply t same takes =>
      subst same
      obtain ⟨due, made, -, origin⟩ := takes.made
      rw [withdrawn] at made
      cases reply with
      | some came => exact absurd ⟨line, came, rfl, takes.inside⟩ given
      | none =>
        obtain rfl : due = none := by simpa using origin
        have calm : Calms (none : Option (Reply α)) := by
          intro came same
          cases same
        have quiet (other : Nat)
            (gives : (Move.turn index line (none : Option (Reply α))).gives index other = true) :
            other = line := by
          cases gives
        exact ⟨withdrawn, .inr (.inl ⟨line, none, t, calm, quiet, made, rfl⟩)⟩
    | @proceeded draw next same made =>
      subst same
      rw [withdrawn] at made
      exact ⟨withdrawn, .inr (.inr ⟨draw, fun _ => rfl, made⟩)⟩

/-- Number of moves that give this line of the errand its turn. -/
def turnsOf (index : Nat) (moves : List (Move α)) (line : Nat) : Nat :=
  moves.countP (Move.gives index line)

/-- One more move in front. -/
theorem turnsOf_cons (index : Nat) (m : Move α) (moves : List (Move α)) (line : Nat) :
    turnsOf index (m :: moves) line = turnsOf index [m] line + turnsOf index moves line := by
  simp [turnsOf, List.countP_cons, Nat.add_comm]

/-- A single move gives a line one turn or none. -/
theorem turnsOf_single (index : Nat) (m : Move α) (line : Nat) :
    turnsOf index [m] line = (m.gives index line).toNat := by
  cases gives : m.gives index line <;> simp [turnsOf, gives]

/-- A withdrawn errand at a lookup, whose calls are cancelled in a move, goes on with it to its
end, or has come to its own end. -/
theorem InStep.move_run (inStep : r.InStep) (here : r.errands[index]? = some e)
    (withdrawn : e.withdrawn = true) {run : LookupRun α} (at' : e.activity.run? = some run)
    {m : Move α} (cancels : m.Cancels index) :
    ∃ after, (r.move m).2.errands[index]? = some after ∧ after.withdrawn = true ∧
      ((∃ next, after.activity.run? = some next ∧ run.Unwinds (turnsOf index [m]) next ∧
          (e.activity = .lookup run → after.activity = .lookup next)) ∨
        after.activity.isAborted = true ∧ e.activity ≠ .lookup run) := by
  obtain ⟨after, there, still, does⟩ := inStep.withdrawn_move here withdrawn cancels
  obtain ⟨put, carries⟩ := Activity.exists_carries at'
  refine ⟨after, there, still, ?_⟩
  rcases does with ⟨same, stuck⟩ | ⟨line, due, t, calm, own, made, next⟩ | ⟨draw, -, made⟩
  · left
    refine ⟨run, by rw [same]; exact at', ⟨rfl, rfl, rfl, fun line => ?_⟩, fun plain => ?_⟩
    · rw [turnsOf_single]
      cases gives : m.gives index line with
      | false => exact Nat.le_refl _
      | true =>
        -- A worker that cannot take the turn that it is given has stopped.
        have zero : run.rank line = 0 := by
          by_cases inside : line < run.workers.length
          · rw [← carries.lines] at inside
            obtain ⟨due, waits, idle⟩ := stuck line inside gives
            rw [carries.awaits] at waits
            rw [carries.turn, Option.map_eq_none_iff] at idle
            exact LookupRun.rank_eq_zero idle fun asked => waits.trans asked
          · rw [LookupRun.rank, List.getElem?_eq_none (Nat.le_of_not_lt inside)]
            rfl
        rw [zero]
        exact Nat.zero_le _
    · rw [same]
      exact plain
  · left
    rw [carries.turn, Option.map_eq_some_iff] at made
    obtain ⟨inner, moved, rfl⟩ := made
    have unwinds := (LookupRun.turn_unwinds moved calm).1
    refine ⟨inner.next, ?_, unwinds.mono fun other => ?_, fun plain => ?_⟩
    · rw [next]
      exact carries.run? inner.next
    · rw [turnsOf_single]
      cases gives : m.gives index other with
      | false => exact Nat.zero_le _
      | true =>
        rw [if_pos (own other gives)]
        exact Nat.le_refl _
    · rw [next]
      exact carries.plain plain inner.next
  · exact .inr (Activity.proceed_fired at' made)

/-- A bootstrap that has been withdrawn stays at its end. -/
theorem aborted_play (here : r.errands[index]? = some e) (ended : e.activity.isAborted = true)
    (moves : List (Move α)) : ∃ after, (r.play moves).2.errands[index]? = some after ∧
      after.activity.isAborted = true := by
  induction moves generalizing r e with
  | nil => exact ⟨e, here, ended⟩
  | cons m moves further =>
    obtain ⟨after, there, becomes⟩ := errand_move here m
    apply further there
    cases becomes with
    | rest => exact ended
    | withdrawn => exact ended
    | @turned line _ _ _ takes =>
      obtain ⟨due, made, -⟩ := takes.made
      have idle := (Activity.isAborted_rest ended r.node r.now line e.withdrawn due .zero).1
      rw [idle] at made
      cases made
    | @proceeded draw next _ made =>
      exact (Activity.isAborted_rest ended r.node r.now 0 e.withdrawn none draw).2 next made

/-- A withdrawn errand at a lookup, whose calls are cancelled, goes on with it to its end, or has
come to its own end. -/
theorem InStep.play_run (inStep : r.InStep) (here : r.errands[index]? = some e)
    (withdrawn : e.withdrawn = true) {run : LookupRun α} (at' : e.activity.run? = some run)
    (moves : List (Move α)) (cancels : ∀ m ∈ moves, m.Cancels index) :
    ∃ after, (r.play moves).2.errands[index]? = some after ∧
      ((∃ last, after.activity.run? = some last ∧ run.Unwinds (turnsOf index moves) last ∧
          (e.activity = .lookup run → after.activity = .lookup last)) ∨
        after.activity.isAborted = true ∧ e.activity ≠ .lookup run) := by
  induction moves generalizing r e run with
  | nil => exact ⟨e, here, .inl ⟨run, at', .rest run, fun plain => plain⟩⟩
  | cons m moves further =>
    obtain ⟨after, there, still, does⟩ :=
      inStep.move_run here withdrawn at' (cancels m List.mem_cons_self)
    rcases does with ⟨next, atNext, first, plain⟩ | ⟨ended, other⟩
    · have later (m' : Move α) (member : m' ∈ moves) : m'.Cancels index :=
        cancels m' (List.mem_cons_of_mem m member)
      obtain ⟨last, here', does⟩ := further (inStep.move m).inStep there still atNext later
      refine ⟨last, here', ?_⟩
      rcases does with ⟨final, atFinal, second, plain'⟩ | ⟨ended, other⟩
      · refine .inl ⟨final, atFinal, ?_, fun lone => plain' (plain lone)⟩
        have both := first.trans second
        simp only [← turnsOf_cons] at both
        exact both
      · exact .inr ⟨ended, fun lone => other (plain lone)⟩
    · obtain ⟨last, here', ended'⟩ := aborted_play there ended moves
      exact ⟨last, here', .inr ⟨ended', other⟩⟩

/-- A withdrawn walk, whose calls are cancelled in a move, goes on to its end. -/
theorem InStep.move_pull (inStep : r.InStep) (here : r.errands[index]? = some e)
    (withdrawn : e.withdrawn = true) {p : Pull α} (at' : e.activity = .pull p)
    {m : Move α} (cancels : m.Cancels index) :
    ∃ after, (r.move m).2.errands[index]? = some after ∧ after.withdrawn = true ∧
      ∃ next, after.activity = .pull next ∧ p.Drains (turnsOf index [m] 0) next := by
  obtain ⟨after, there, still, does⟩ := inStep.withdrawn_move here withdrawn cancels
  refine ⟨after, there, still, ?_⟩
  rw [at'] at does
  rcases does with ⟨same, stuck⟩ | ⟨line, due, t, calm, own, made, next⟩ | ⟨draw, -, made⟩
  · refine ⟨p, same, rfl, ?_⟩
    rw [turnsOf_single]
    cases gives : m.gives index 0 with
    | false => exact Nat.le_refl _
    | true =>
      obtain ⟨due, waits, idle⟩ := stuck 0 Nat.zero_lt_one gives
      rw [Activity.awaits, alone_zero] at waits
      rw [Activity.turn, Option.map_eq_none_iff] at idle
      rw [Pull.rank_eq_zero idle fun asked => waits.trans asked]
      exact Nat.zero_le _
  · rw [Activity.turn, Option.map_eq_some_iff] at made
    obtain ⟨inner, moved, rfl⟩ := made
    obtain ⟨nodes, rank⟩ := (Pull.turn_drains moved calm).1
    refine ⟨inner.next, next, nodes, Nat.le_trans rank ?_⟩
    rw [turnsOf_single]
    cases m.gives index 0 <;> simp
  · cases made

/-- A withdrawn walk, whose calls are cancelled, goes on to its end. -/
theorem InStep.play_pull (inStep : r.InStep) (here : r.errands[index]? = some e)
    (withdrawn : e.withdrawn = true) {p : Pull α} (at' : e.activity = .pull p)
    (moves : List (Move α)) (cancels : ∀ m ∈ moves, m.Cancels index) :
    ∃ after, (r.play moves).2.errands[index]? = some after ∧
      ∃ last, after.activity = .pull last ∧ p.Drains (turnsOf index moves 0) last := by
  induction moves generalizing r e p with
  | nil => exact ⟨e, here, p, at', .rest p⟩
  | cons m moves further =>
    obtain ⟨after, there, still, next, atNext, first⟩ :=
      inStep.move_pull here withdrawn at' (cancels m List.mem_cons_self)
    have later (m' : Move α) (member : m' ∈ moves) : m'.Cancels index :=
      cancels m' (List.mem_cons_of_mem m member)
    obtain ⟨last, here', final, atFinal, second⟩ :=
      further (inStep.move m).inStep there still atNext later
    rw [turnsOf_cons]
    exact ⟨last, here', final, atFinal, first.trans second⟩

/-- A withdrawn search stays one. -/
theorem search_move (here : r.errands[index]? = some e) (withdrawn : e.withdrawn = true)
    (search : e.activity.isSearch = true) (m : Move α) :
    ∃ after, (r.move m).2.errands[index]? = some after ∧ after.withdrawn = true ∧
      after.activity.isSearch = true := by
  obtain ⟨after, there, becomes⟩ := errand_move here m
  refine ⟨after, there, ?_⟩
  cases becomes with
  | rest => exact ⟨withdrawn, search⟩
  | withdrawn => exact ⟨rfl, search⟩
  | turned _ takes =>
    obtain ⟨due, made, -⟩ := takes.made
    rw [withdrawn] at made
    exact ⟨withdrawn, (Activity.turn_fired search made).1⟩
  | proceeded _ made => exact ⟨withdrawn, (Activity.proceed_isSearch made).1⟩

/-- A withdrawn search makes no query. -/
theorem search_calls (here : r.errands[index]? = some e) (withdrawn : e.withdrawn = true)
    (search : e.activity.isSearch = true) {m : Move α} {call : Call α}
    (called : .called (.errand index line) call ∈ (r.move m).1) : call.request = .ping := by
  rcases move_called called with ⟨other, at', reply, x, t, origin, takes, asked⟩ | ⟨_, origin, -⟩
  · obtain ⟨rfl, rfl⟩ := Origin.errand.inj origin
    obtain rfl := Option.some.inj (takes.here.symm.trans here)
    obtain ⟨due, made, -⟩ := takes.made
    rw [withdrawn] at made
    exact (Activity.turn_fired search made).2.1 call asked
  · cases origin

/-- A withdrawn search makes no query, whatever is played. -/
theorem search_play (here : r.errands[index]? = some e) (withdrawn : e.withdrawn = true)
    (search : e.activity.isSearch = true) (moves : List (Move α)) {call : Call α}
    (called : .called (.errand index line) call ∈ (r.play moves).1) : call.request = .ping := by
  induction moves generalizing r e with
  | nil => cases called
  | cons m moves further =>
    rcases List.mem_append.mp called with now | later
    · exact search_calls here withdrawn search now
    · obtain ⟨after, there, still, search'⟩ := search_move here withdrawn search m
      exact further there still search' later

/-- A call of a withdrawn search that is cancelled leaves the node as it is. -/
theorem search_spares (here : r.errands[index]? = some e) (withdrawn : e.withdrawn = true)
    (search : e.activity.isSearch = true) (line : Nat) :
    (r.move (.turn index line (some (.error .cancelled)))).2.node = r.node := by
  rw [move]
  rcases r.turn_cases index line (some (.error .cancelled)) with same | ⟨x, t, _, takes, same, -⟩
  · rw [same]
  · rw [same]
    obtain rfl := Option.some.inj (takes.here.symm.trans here)
    obtain ⟨due, made, -, origin⟩ := takes.made
    rw [withdrawn] at made
    apply (Activity.turn_fired search made).2.2
    intro came same
    rcases origin with rfl | rfl
    · cases same
    · exact (Option.some.inj same).symm

end Moves

/-! ## Pasts -/

section Pasts

variable {r : NodeRun α}

/-- The errand is at a lookup that a node started, if at any, and at a walk that holds nothing when
it has ended, if at any. -/
structure Grown (e : Errand α) : Prop where
  /-- The lookup comes from one that a node started. -/
  traced : e.activity.Traced
  /-- The walk holds nothing when it has ended. -/
  tidy : ∀ p, e.activity = .pull p → p.Tidy

/-- A new errand has done nothing. -/
theorem grown_wish (n : Node α) (wish : Wish α) :
    Grown ⟨wish.activity n, false, fun _ => none⟩ := by
  cases wish with
  | search target count =>
    refine ⟨fun run at' => ⟨n, target, n.lookupWidth count, [], Option.some.inj at'⟩, nofun⟩
  | discover target count =>
    refine ⟨nofun, fun p at' => ?_⟩
    obtain rfl := Activity.pull.inj at'
    exact nofun
  | _ => exact ⟨nofun, nofun⟩

/-- A turn leaves an errand grown. -/
theorem Grown.turned {e : Errand α} (grown : Grown e) {n : Node α} {now line : Nat}
    {reply : Option (Reply α)} {t : Turn α (Activity α)}
    (made : e.activity.turn n now e.withdrawn line reply = some t)
    (calls : Nat → Option (Call α)) : Grown ⟨t.next, e.withdrawn, calls⟩ :=
  ⟨grown.traced.turn made, fun _ at' => Activity.turn_tidy made at'⟩

/-- Whatever is played, errands are grown. -/
theorem grown_play (grown : ∀ e ∈ r.errands, Grown e) (moves : List (Move α)) :
    ∀ e ∈ (r.play moves).2.errands, Grown e := by
  induction moves generalizing r with
  | nil => exact grown
  | cons m moves further =>
    apply further
    intro after member
    obtain ⟨index, there⟩ := List.getElem?_of_mem member
    cases here : r.errands[index]? with
    | none =>
      obtain ⟨wish, rfl⟩ := errand_new here there
      exact grown_wish r.node wish
    | some e =>
      have old := grown e (List.mem_of_getElem? here)
      obtain ⟨last, same, becomes⟩ := errand_move here m
      obtain rfl := Option.some.inj (same.symm.trans there)
      cases becomes with
      | rest => exact old
      | withdrawn => exact ⟨old.traced, old.tidy⟩
      | turned _ takes =>
        obtain ⟨due, made, -⟩ := takes.made
        exact old.turned made _
      | @proceeded draw next _ made =>
        refine ⟨Activity.traced_proceed made, fun p at' => ?_⟩
        exact absurd at' ((Activity.proceed_isSearch made).2 p)

end Pasts

/-- What comes of a withdrawn search. -/
structure Stops (r : NodeRun α) (index : Nat) (e : Errand α) : Prop where
  /-- No query is made for it any more. -/
  silent : ∀ later line call target,
    .called (.errand index line) call ∈ (r.play later).1 → call.request ≠ .find target
  /-- A call that is cancelled leaves the node as it is: its table, the failures that it counts and
  the nodes that it leaves alone. -/
  spared : ∀ line, (r.move (.turn index line (some (.error .cancelled)))).2.node = r.node
  /-- The lookup that it is at comes from one that a node started. -/
  past : ∀ run, e.activity.run? = some run → run.Traced
  /-- Whatever the past of the lookup, it has found the closest of the nodes seen in it that have
  not failed. -/
  found : ∀ run, e.activity.run? = some run →
    ∀ (target : Id) (width patience alpha : Nat) (seeds : List (Contact α))
      (past : List (LookupRun.Move α)),
    let (events, now) := (LookupRun.ofSeeds target width patience alpha seeds).play past
    now = run → Id.Closest target width
      (fun id => id ∈ Lookup.known seeds events ∧ id ∉ Lookup.failedIds events)
      (run.lookup.closest.map (·.id))
  /-- The lookup keeps what it has found, counts no failure, and is over when each of its lines has
  had two turns, unless it was part of a bootstrap that has been given up since. -/
  lookup : ∀ run, e.activity.run? = some run → ∀ later : List (Move α),
    (∀ m ∈ later, m.Cancels index) →
    ∃ after, (r.play later).2.errands[index]? = some after ∧
      ((∃ last, after.activity.run? = some last ∧
          (e.activity = .lookup run → after.activity = .lookup last) ∧
          last.lookup.closest = run.lookup.closest ∧
          last.lookup.failures = run.lookup.failures ∧
          ((∀ line < run.workers.length, 2 ≤ turnsOf index later line) → last.isOver = true)) ∨
        after.activity.isAborted = true ∧ e.activity ≠ .lookup run)
  /-- The walk hands out what it holds, in order, and nothing else, and is over when it has had a
  turn for each of these nodes and two more. -/
  walk : ∀ p, e.activity = .pull p → ∀ later : List (Move α), (∀ m ∈ later, m.Cancels index) →
    ∃ after last, (r.play later).2.errands[index]? = some after ∧ after.activity = .pull last ∧
      last.nodes ++ last.rest = p.nodes ++ p.rest ∧
      (p.rest.length + 2 ≤ turnsOf index later 0 → last.isOver = true) ∧
      (last.isOver = true → last.nodes = p.nodes ++ p.rest)

/-- At any moment of any run, for any search that its host has withdrawn: no query is made for it
any more; its calls that are cancelled are no matter to the node; its lookup returns the closest
nodes seen so far that have not failed; and its walk hands out what it holds and ends. -/
theorem play_withdrawn {self : Contact α} {boot : List (Contact α)} {config : Config}
    {n : Node α} (created : Node.create self boot config = .ok n) (moves : List (Move α))
    {index : Nat} {e : Errand α} (here : ((start n).play moves).2.errands[index]? = some e)
    (withdrawn : e.withdrawn = true) (search : e.activity.isSearch = true) :
    ((start n).play moves).2.Stops index e := by
  obtain ⟨inStep, -, -⟩ := (start_inStep created).play moves
  have grown : ∀ e ∈ ((start n).play moves).2.errands, Grown e :=
    grown_play (fun e listed => absurd listed List.not_mem_nil) moves
  constructor
  · intro later line call target called
    rw [search_play here withdrawn search later called]
    nofun
  · exact search_spares here withdrawn search
  · exact (grown e (List.mem_of_getElem? here)).traced
  · intro run _ target width patience alpha seeds past same
    rw [← same]
    exact (LookupRun.play_closest target width patience alpha seeds past).2.2.2
  · intro run at' later cancels
    obtain ⟨after, there, does⟩ := inStep.play_run here withdrawn at' later cancels
    refine ⟨after, there, ?_⟩
    rcases does with ⟨last, atLast, unwinds, plain⟩ | ended
    · exact .inl ⟨last, atLast, plain, unwinds.closest, unwinds.failures, unwinds.isOver⟩
    · exact .inr ended
  · intro p at' later cancels
    obtain ⟨after, there, last, atLast, drains⟩ :=
      inStep.play_pull here withdrawn at' later cancels
    refine ⟨after, last, there, atLast, drains.nodes, drains.isOver, fun finished => ?_⟩
    have tidy : last.Tidy :=
      (grown_play grown later after (List.mem_of_getElem? there)).tidy last atLast
    have nodes := drains.nodes
    rw [tidy.rest_eq_nil finished, List.append_nil] at nodes
    exact nodes

/-- A node that has just been created, with two workers for a lookup. -/
def wanderer : Node Unit :=
  let n := Node.bare ⟨⟨1⟩, ()⟩ { k := 2, alpha := 2 }
  { n with monitor := { n.monitor with table := (n.table.add n.self).2 } }

/-- A node searches and explores. One worker of the search waits for an answer, and the walk holds
the two nodes that it has just heard of, when the host withdraws both. -/
def wanders : List (Move Unit) :=
  [.hear ⟨⟨2⟩, ()⟩, .wish (.search ⟨2⟩ none), .turn 0 0 none, .turn 0 1 none,
    .wish (.discover ⟨2⟩ none), .turn 1 0 none, .turn 1 0 none,
    .turn 1 0 (some (.ok [⟨⟨3⟩, ()⟩, ⟨⟨4⟩, ()⟩])), .withdraw 0, .withdraw 1]

/-- The search with a call under way and the walk with something to hand out both stop. -/
theorem play_withdrawn_wanderer :
    Node.create ⟨⟨1⟩, ()⟩ [] { k := 2, alpha := 2 } = .ok wanderer ∧
    (let r := ((start wanderer).play wanders).2
    (∃ e run, r.errands[0]? = some e ∧ e.activity.run? = some run ∧ run.rank 0 = 2 ∧ r.Stops 0 e) ∧
    ∃ e p, r.errands[1]? = some e ∧ e.activity = .pull p ∧
      p.rest = [⟨⟨3⟩, ()⟩, ⟨⟨4⟩, ()⟩] ∧ r.Stops 1 e) := by
  have created : Node.create ⟨⟨1⟩, ()⟩ [] { k := 2, alpha := 2 } = .ok wanderer := rfl
  have searching : (((start wanderer).play wanders).2.errands[0]?.bind fun e =>
      e.activity.run?.map fun run => (e.withdrawn, e.activity.isSearch, run.rank 0)) =
        some (true, true, 2) := by cbv
  have exploring : (((start wanderer).play wanders).2.errands[1]?.bind fun e =>
      e.activity.pull?.map fun p => (e.withdrawn, e.activity.isSearch, p.rest)) =
        some (true, true, [⟨⟨3⟩, ()⟩, ⟨⟨4⟩, ()⟩]) := by cbv
  refine ⟨created, ?_, ?_⟩
  · obtain ⟨e, here, found⟩ := Option.bind_eq_some_iff.mp searching
    obtain ⟨run, at', same⟩ := Option.map_eq_some_iff.mp found
    obtain ⟨withdrawn, search, rank⟩ :
        e.withdrawn = true ∧ e.activity.isSearch = true ∧ run.rank 0 = 2 := by simpa using same
    exact ⟨e, run, here, at', rank, play_withdrawn created wanders here withdrawn search⟩
  · obtain ⟨e, here, found⟩ := Option.bind_eq_some_iff.mp exploring
    obtain ⟨p, at', same⟩ := Option.map_eq_some_iff.mp found
    obtain ⟨withdrawn, search, held⟩ :
        e.withdrawn = true ∧ e.activity.isSearch = true ∧ p.rest = [⟨⟨3⟩, ()⟩, ⟨⟨4⟩, ()⟩] := by
      simpa using same
    exact ⟨e, p, here, Activity.eq_pull_of_pull? at', held,
      play_withdrawn created wanders here withdrawn search⟩

end NodeRun

end Overlay
