import Mathlib.Data.Prod.Lex
import Overlay.Proofs.Draw
import Overlay.Proofs.Lookup.Termination
import Overlay.Proofs.Nearest

/-!
# Bootstraps on their own

A lookup of the identifier of the node that carries it out starts from that node among others, and
the node is asked without a call and never fails: it is the first that the lookup finds. The lookup
that refreshes a bucket looks for an identifier of that bucket. And a bootstrap comes to its end,
between two phases only and by a failure only if it is withdrawn: every turn and every new phase
lowers its rank, and as long as it has no result, a line of it can take its turn or it can pass to
its next phase.
-/
namespace Overlay

variable {α : Type}

/-! ## Buckets to refresh -/

/-- The region of a bucket is no deeper than identifiers are long. -/
theorem Table.Sound.depth_le {t : Table α} (sound : t.Sound) {r : Region α}
    (member : r ∈ t.regions) : r.depth ≤ 256 :=
  (sound.placed.region_belongs clearFrom_zero r member).2.2.inside

/-- A table that holds a contact has a bucket that is not empty. -/
theorem Table.Sound.exists_region {t : Table α} (sound : t.Sound) {id : Id}
    (present : t.contains id = true) : ∃ r ∈ t.regions, r.bucket.isEmpty = false := by
  obtain ⟨c, stored, -⟩ := (sound.contains_iff id).mp present
  rw [← t.trie.regions_entries .zero 0] at stored
  obtain ⟨r, member, held⟩ := List.mem_flatMap.mp stored
  exact ⟨r, member, List.isEmpty_eq_false_iff.mpr (List.ne_nil_of_mem held)⟩

/-! ## Lookups of one's own identifier -/

namespace LookupRun

/-- The lookup looks for the identifier of the node, which is one of its seeds and has not failed
it, and which no worker waits for. -/
def Homely (home : Id) (width : Nat) (run : LookupRun α) : Prop :=
  ∃ seeds past, Accounts home width seeds past run ∧ home ∈ seeds.map (·.id) ∧
    home ∉ Lookup.failedIds past ∧ home ∉ Worker.awaited run.workers

section Homely

variable {run : LookupRun α} {n : Node α} {now line width : Nat} {fired : Bool}
  {reply : Option (Reply α)}

/-- Only queries that workers wait for fail in a move. -/
theorem failedIds_events (m : Move α) {id : Id} (lost : id ∈ Lookup.failedIds (run.events m)) :
    id ∈ Worker.awaited run.workers := by
  unfold events at lost
  split at lost
  · split at lost
    · cases lost
    · split at lost
      · split at lost <;> cases lost
      · cases lost
  · next c reply here _ =>
    have closed := (Lookup.failedIds_sublist _).subset lost
    rw [Lookup.endedIds, List.flatMap_singleton, Lookup.Event.closed_ended] at closed
    rw [List.mem_singleton.mp closed]
    exact mem_awaited here
  · cases lost

/-- A worker that does something else waits for nobody else than what it does says. -/
theorem mem_awaited_set {workers : List (Worker α)} {worker : Worker α} {id : Id}
    (member : id ∈ Worker.awaited (workers.set line worker)) :
    id ∈ Worker.awaited workers ∨ worker.awaits = some id := by
  obtain ⟨other, listed, waits⟩ := List.mem_filterMap.mp member
  rcases List.mem_or_eq_of_mem_set listed with old | rfl
  · exact .inl (List.mem_filterMap.mpr ⟨other, old, waits⟩)
  · exact .inr waits

/-- After a turn, workers wait for whom they waited for before or for others than the node. -/
theorem awaited_turn {t : Turn α (LookupRun α)}
    (made : run.turn n now fired line reply = some t) {id : Id}
    (member : id ∈ Worker.awaited t.next.workers) :
    id ∈ Worker.awaited run.workers ∨ id ≠ n.id := by
  unfold turn at made
  split at made
  · obtain ⟨-, lookup, -, ⟨next, -⟩ | ⟨next, -⟩ | ⟨c, other, next, -⟩⟩ := take_cases made
    · rw [next] at member
      rcases mem_awaited_set member with old | new
      · exact .inl old
      · cases new
    · rw [next] at member
      exact .inl member
    · rw [next] at member
      rcases mem_awaited_set member with old | new
      · exact .inl old
      · rw [← Option.some.inj new]
        exact .inr other
  · obtain rfl := Option.some.inj made
    rcases mem_awaited_set member with old | new
    · exact .inl old
    · cases new
  · cases made

/-- A node in its own table starts a lookup of its own identifier from itself. -/
theorem Homely.start (sound : n.table.Sound) (present : n.table.contains n.id = true)
    (wanted : 0 < width) : (LookupRun.start n n.id width).Homely n.id width := by
  have accounts := Accounts.ofSeeds n.id width n.config.patience n.config.alpha
    (n.seeds n.id width)
  refine ⟨n.seeds n.id width, [], accounts, ?_, List.not_mem_nil, ?_⟩
  · -- The node is the closest to itself of all contacts.
    have all : n.table.contacts.filter (n.table.eligible none false) = n.table.contacts :=
      List.filter_eq_self.mpr fun c _ => by simp [Table.eligible]
    obtain ⟨c, stored, same⟩ := (sound.contains_iff n.id).mp present
    have listed : n.id ∈ (Contact.sortByDistance n.id n.table.contacts).map (·.id) := by
      have held := n.table.contacts_perm.mem_iff.mpr stored
      exact List.mem_map.mpr ⟨c, (Contact.sortByDistance_perm n.id _).mem_iff.mpr held, same⟩
    have sorted := Contact.sortByDistance_strict n.id sound.wellFormed.distinct
    rw [Node.seeds, sound.closest_eq, all]
    exact List.mem_of_mem_head? ((sorted.closest_take width).head?_eq listed wanted)
  · intro member
    obtain ⟨worker, listed, waits⟩ := List.mem_filterMap.mp member
    rw [List.eq_of_mem_replicate listed] at waits
    cases waits

/-- A turn of the node leaves a lookup of its own identifier as it should be. -/
theorem Homely.turn (homely : run.Homely n.id width) {t : Turn α (LookupRun α)}
    (made : run.turn n now fired line reply = some t) : t.next.Homely n.id width := by
  obtain ⟨seeds, past, accounts, seeded, lives, away⟩ := homely
  let m : Move α := ⟨n, now, fired, line, reply⟩
  have course : Course true run ([] ++ run.events m) (run.move m) :=
    Course.refl.move m fun _ => rfl
  have next : run.move m = t.next := by rw [LookupRun.move, made]
  have onward := accounts.course course
  rw [next, List.nil_append] at onward
  refine ⟨seeds, past ++ run.events m, onward, seeded, ?_, ?_⟩
  · intro lost
    rw [Lookup.failedIds, List.flatMap_append] at lost
    rcases List.mem_append.mp lost with early | late
    · exact lives early
    · exact away (failedIds_events m late)
  · intro member
    rcases awaited_turn made member with old | other
    · exact away old
    · exact other rfl

/-- A lookup of one's own identifier has found oneself first, and no more than were wanted. -/
theorem Homely.closest {home : Id} (homely : run.Homely home width) (wanted : 0 < width) :
    run.lookup.target = home ∧ (run.lookup.closest.map (·.id)).head? = some home ∧
      run.lookup.closest.length ≤ width := by
  obtain ⟨seeds, past, accounts, seeded, lives, -⟩ := homely
  have closest := accounts.tracks.closest
  rw [accounts.aimed, accounts.sized] at closest
  have known : home ∈ Lookup.known seeds past := List.mem_append_left _ seeded
  refine ⟨accounts.aimed, closest.head?_eq ⟨known, lives⟩ wanted, ?_⟩
  have bounded := closest.bounded
  rw [List.length_map] at bounded
  exact bounded

end Homely

/-- A turn leaves what is looked for as it is. -/
theorem turn_target {run : LookupRun α} {n : Node α} {now line : Nat} {fired : Bool}
    {reply : Option (Reply α)} {t : Turn α (LookupRun α)}
    (made : run.turn n now fired line reply = some t) :
    t.next.lookup.target = run.lookup.target := by
  unfold turn at made
  split at made
  · obtain ⟨-, lookup, same, ⟨next, -⟩ | ⟨next, -⟩ | ⟨c, -, next, -⟩⟩ := take_cases made <;>
      rw [next] <;> exact same
  · next c came here =>
    obtain rfl := Option.some.inj made
    obtain ⟨_, _, _, _, _, frame⟩ := run.lookup.complete_frame fired c came
    show (run.lookup.complete fired c came).target = run.lookup.target
    rw [frame]
    rfl
  · cases made

end LookupRun

/-! ## The end of a bootstrap -/

/-- Number of turns that a ping needs to be over. -/
def BootPing.rank : BootPing α → Nat
  | .unsent _ => 2
  | .sent _ => 1
  | .over _ => 0

namespace Bootstrap

/-- What is left to be done: phases, then buckets to be refreshed, then the work of this phase. -/
def rank (b : Bootstrap α) : Nat ×ₗ Nat ×ₗ Nat :=
  match b.phase with
  | .pinging pings => toLex (3, toLex (0, (pings.map BootPing.rank).sum))
  | .searching run => toLex (2, toLex (0, run.work))
  | .refreshing run left => toLex (1, toLex (left.length, run.work))
  | .finished _ => toLex (0, toLex (0, 0))

/-- A line can take its turn, whatever has become of the node, with a reply if it waits for one. -/
def Ready (b : Bootstrap α) (line : Nat) : Prop :=
  ∀ (n : Node α) (now : Nat) (fired : Bool) (due : Option (Reply α)),
    due.isSome = (b.awaits line).isSome → b.turn n now fired line due ≠ none

section Rank

variable {b : Bootstrap α} {n : Node α} {now line : Nat} {fired : Bool}
  {reply : Option (Reply α)}

/-- A turn of a line is no end of a bootstrap. -/
theorem result?_turn {t : Turn α (Bootstrap α)}
    (made : b.turn n now fired line reply = some t) :
    b.result? = none ∧ t.next.result? = none := by
  rcases turn_cases made with ⟨pings, phase, moved⟩ | ⟨run, inner, next, before, -, rfl, after⟩
  · refine ⟨by rw [result?, phase], ?_⟩
    rcases turnPing_cases moved with ⟨_, -, rfl⟩ | ⟨_, _, -, -, rfl⟩ | ⟨_, _, -, -, rfl⟩ <;> rfl
  · exact ⟨result?_of_run? before, result?_of_run? after⟩

/-- A bootstrap that passes to its next phase has not ended before. If that is its end, it has
failed if it is withdrawn, and it has a report otherwise. -/
theorem result?_proceed {next : Bootstrap α} {draw : Id}
    (made : b.proceed n fired draw = some next) :
    b.result? = none ∧ ∀ result, next.result? = some result →
      fired = true ∧ result = .error .cancelled ∨
        fired = false ∧ ∃ report, result = .ok report := by
  constructor
  · by_contra some
    obtain ⟨result, ended⟩ := Option.ne_none_iff_exists'.mp some
    rw [(at_rest ended n 0 0 fired none draw).2] at made
    cases made
  · intro result ended
    rcases proceed_cases made with ⟨fired, rfl⟩ | ⟨kept, ⟨_, _, phase⟩ | ⟨_, _, _, phase⟩ |
      ⟨report, phase⟩⟩
    · exact .inl ⟨fired, (Option.some.inj ended).symm⟩
    · rw [result?, phase] at ended
      cases ended
    · rw [result?, phase] at ended
      cases ended
    · rw [result?, phase] at ended
      exact .inr ⟨kept, report, (Option.some.inj ended).symm⟩

/-- More work in a phase is a higher rank. -/
theorem rank_lt_of_work {phase left work more : Nat} (less : work < more) :
    toLex (phase, toLex (left, work)) < toLex (phase, toLex (left, more)) :=
  Prod.Lex.toLex_lt_toLex.mpr (.inr ⟨rfl, Prod.Lex.toLex_lt_toLex.mpr (.inr ⟨rfl, less⟩)⟩)

/-- An earlier phase has a higher rank. -/
theorem rank_lt_of_phase {phase earlier : Nat} (less : phase < earlier) (rest more : Nat ×ₗ Nat) :
    toLex (phase, rest) < toLex (earlier, more) :=
  Prod.Lex.toLex_lt_toLex.mpr (.inl less)

/-- The turn of a ping lowers the rank. -/
theorem turnPing_rank {pings : List (BootPing α)} (phase : b.phase = .pinging pings)
    {t : Turn α (Bootstrap α)} (made : b.turnPing pings n now line reply = some t) :
    t.next.rank < b.rank := by
  have lowers {ping next : BootPing α} (here : pings[line]? = some ping)
      (less : next.rank < ping.rank) :
      ({ b with phase := .pinging (pings.set line next) } : Bootstrap α).rank < b.rank := by
    have sum := sum_map_set BootPing.rank here next
    rw [rank, rank, phase]
    exact rank_lt_of_work (by omega)
  rcases turnPing_cases made with ⟨c, here, rfl⟩ | ⟨c, contacts, here, -, rfl⟩ |
    ⟨c, fault, here, -, rfl⟩
  · exact lowers here Nat.one_lt_two
  · exact lowers here Nat.zero_lt_one
  · exact lowers here Nat.zero_lt_one

/-- Every turn lowers the rank. -/
theorem turn_rank (traced : ∀ run, b.run? = some run → run.Traced) {t : Turn α (Bootstrap α)}
    (made : b.turn n now fired line reply = some t) : t.next.rank < b.rank := by
  unfold turn at made
  cases phase : b.phase with
  | pinging pings =>
    simp only [phase] at made
    exact turnPing_rank phase made
  | searching run =>
    simp only [phase] at made
    obtain ⟨inner, moved, rfl⟩ := Option.map_eq_some_iff.mp made
    have past : run.Traced := traced run (by rw [run?, phase])
    rw [rank, rank, phase]
    exact rank_lt_of_work (LookupRun.turn_work moved (past.turn moved).room)
  | refreshing run left =>
    simp only [phase] at made
    obtain ⟨inner, moved, rfl⟩ := Option.map_eq_some_iff.mp made
    have past : run.Traced := traced run (by rw [run?, phase])
    rw [rank, rank, phase]
    exact rank_lt_of_work (LookupRun.turn_work moved (past.turn moved).room)
  | finished result => simp [phase] at made

/-- Every new phase lowers the rank. -/
theorem proceed_rank {next : Bootstrap α} {draw : Id}
    (made : b.proceed n fired draw = some next) : next.rank < b.rank := by
  have ended (result : Except Fault BootReport) (report : BootReport)
      (open' : b.result? = none) : (⟨report, .finished result⟩ : Bootstrap α).rank < b.rank := by
    unfold result? at open'
    cases phase : b.phase with
    | finished other => simp [phase] at open'
    | _ =>
      rw [rank, rank, phase]
      exact rank_lt_of_phase (by decide) _ _
  have going : b.result? = none := (result?_proceed made).1
  rcases proceed_phases made with ⟨-, rfl⟩ | ⟨-, ⟨pings, phase, -, rfl⟩ | ⟨run, phase, -, rfl⟩ |
    ⟨run, left, phase, -, rfl⟩⟩
  · exact ended _ _ going
  · rw [rank, rank, phase]
    exact rank_lt_of_phase (by decide) _ _
  · cases n.table.regions.filter fun r => !r.bucket.isEmpty with
    | nil => exact ended _ _ going
    | cons region later =>
      rw [rank, rank, phase]
      exact rank_lt_of_phase (by decide) _ _
  · cases left with
    | nil => exact ended _ _ going
    | cons region later =>
      rw [rank, rank, phase]
      refine Prod.Lex.toLex_lt_toLex.mpr (.inr ⟨rfl, Prod.Lex.toLex_lt_toLex.mpr (.inl ?_)⟩)
      exact Nat.lt_succ_self later.length

/-- As long as a bootstrap has no result, one of its lines can take its turn, or it can pass to its
next phase. -/
theorem exists_ready (traced : ∀ run, b.run? = some run → run.Traced) (going : b.result? = none) :
    (∃ line < b.lines, b.Ready line) ∨
      ∀ (n : Node α) (fired : Bool) (draw : Id), b.proceed n fired draw ≠ none := by
  -- A lookup is over, or one of its workers can take its turn.
  have searched {run : LookupRun α} (at' : b.run? = some run)
      (lines : b.lines = run.workers.length) (awaits : b.awaits = run.awaits)
      (turns : ∀ n now fired line due, run.turn n now fired line due ≠ none →
        b.turn n now fired line due ≠ none) :
      (∃ line < b.lines, b.Ready line) ∨ run.isOver = true := by
    cases over' : run.isOver with
    | true => exact .inr rfl
    | false =>
      obtain ⟨line, inside, ready⟩ := (traced run at').exists_ready over'
      rw [← lines] at inside
      refine .inl ⟨line, inside, fun n now fired due answered => turns _ _ _ _ _ ?_⟩
      rw [awaits] at answered
      exact ready n now fired due answered
  cases phase : b.phase with
  | pinging pings =>
    by_cases all : pings.all pingOver = true
    · refine .inr fun n fired draw => ?_
      simp only [proceed, phase, if_pos all]
      cases fired <;> exact Option.some_ne_none _
    · obtain ⟨ping, member, unfinished⟩ := List.all_eq_false.mp (Bool.eq_false_of_not_eq_true all)
      obtain ⟨line, here⟩ := List.getElem?_of_mem member
      have inside : line < b.lines := by
        rw [Bootstrap.lines, phase]
        exact (List.getElem?_eq_some_iff.mp here).1
      refine .inl ⟨line, inside, fun n now fired due answered => ?_⟩
      simp only [awaits, phase, awaited_eq here] at answered
      simp only [turn, phase, turnPing, here]
      cases ping with
      | unsent c => exact Option.some_ne_none _
      | sent c =>
        obtain ⟨came, rfl⟩ := Option.isSome_iff_exists.mp answered
        cases came <;> exact Option.some_ne_none _
      | «over» online => exact absurd rfl unfinished
  | searching run =>
    rcases searched (by rw [run?, phase]) (by rw [lines, phase]) (by rw [awaits, phase])
      (fun n now fired line due can none => can (by simpa [turn, phase] using none)) with
      ready | ended
    · exact .inl ready
    · refine .inr fun n fired draw => ?_
      simp only [proceed, phase, if_pos ended]
      cases fired <;> exact Option.some_ne_none _
  | refreshing run left =>
    rcases searched (by rw [run?, phase]) (by rw [lines, phase]) (by rw [awaits, phase])
      (fun n now fired line due can none => can (by simpa [turn, phase] using none)) with
      ready | ended
    · exact .inl ready
    · refine .inr fun n fired draw => ?_
      simp only [proceed, phase, if_pos ended]
      cases fired <;> exact Option.some_ne_none _
  | finished result => simp [result?, phase] at going

end Rank

end Bootstrap

end Overlay
