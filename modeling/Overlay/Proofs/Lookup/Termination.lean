import Mathlib.Algebra.BigOperators.Group.List.Basic
import Overlay.Proofs.Withdrawal

/-!
# Lookups end

Every turn of a worker brings a lookup closer to its end: the worker asks one of the finitely many
identifiers that have not been asked, receives a reply, or stops. And as long as a worker has not
stopped, one of them can take its turn whenever its reply has come: if all that are left wait for
work, no query is in flight, and they stop.
-/
namespace Overlay

variable {α : Type}

/-- There are no more different identifiers than words of 256 bits. -/
theorem Id.length_le_of_nodup {ids : List Id} (distinct : ids.Nodup) : ids.length ≤ 2 ^ 256 := by
  have apart : (ids.map fun id => id.word.toNat).Nodup :=
    distinct.map fun _ _ same => Id.ext (BitVec.eq_of_toNat_eq same)
  have inside : (ids.map fun id => id.word.toNat) ⊆ List.range (2 ^ 256) := by
    intro number listed
    obtain ⟨id, -, rfl⟩ := List.mem_map.mp listed
    exact List.mem_range.mpr id.word.isLt
  have few := (List.subperm_of_subset apart inside).length_le
  rw [List.length_map, List.length_range] at few
  exact few

/-- What is needed in all when one of those who need something comes to need something else. -/
theorem sum_map_set {β : Type} (need : β → Nat) {items : List β} {i : Nat} {x : β}
    (here : items[i]? = some x) (next : β) :
    ((items.set i next).map need).sum + need x = (items.map need).sum + need next := by
  obtain ⟨inside, same⟩ := List.getElem?_eq_some_iff.mp here
  have before := ((List.getElem_cons_eraseIdx_perm inside).map need).sum_eq
  have after := ((List.set_perm_cons_eraseIdx inside next).map need).sum_eq
  rw [same, List.map_cons, List.sum_cons] at before
  rw [List.map_cons, List.sum_cons] at after
  omega

namespace LookupRun

/-- What is left to be done in a lookup: identifiers to be asked, and turns that its workers need
to stop. -/
def work (run : LookupRun α) : Nat :=
  2 * (2 ^ 256 - run.lookup.asked.length) + (run.workers.map Worker.rank).sum

/-- A line can take its turn, whatever has become of the node, with a reply if it waits for one. -/
def Ready (run : LookupRun α) (line : Nat) : Prop :=
  ∀ (n : Node α) (now : Nat) (fired : Bool) (due : Option (Reply α)),
    due.isSome = (run.awaits line).isSome → run.turn n now fired line due ≠ none

section Work

variable {run : LookupRun α} {n : Node α} {now line : Nat} {fired : Bool}
  {reply : Option (Reply α)} {worker : Worker α}

/-- A worker that goes on to something with a lower rank does some of the work, if nobody is
asked. -/
theorem work_set (here : run.workers[line]? = some worker) {lookup : Lookup α}
    (same : lookup.asked = run.lookup.asked) {next : Worker α} (lower : next.rank < worker.rank) :
    ({ run with lookup := lookup }.setWorker line next).work < run.work := by
  have ranks := sum_map_set Worker.rank here next
  show 2 * (2 ^ 256 - lookup.asked.length) + ((run.workers.set line next).map Worker.rank).sum <
    run.work
  rw [same, work]
  omega

/-- Asking a node is worth the two turns that it may take to hear from it. -/
theorem work_ask {next : LookupRun α} (id : Id) (same : next.workers = run.workers)
    (asked : next.lookup.asked = id :: run.lookup.asked)
    (room : next.lookup.asked.length ≤ 2 ^ 256) : next.work + 2 = run.work := by
  unfold work
  rw [asked, List.length_cons] at room ⊢
  rw [same]
  omega

/-- An idle worker that takes up a task does some of the work. -/
theorem take_work {t : Turn α (LookupRun α)} (idle : run.workers[line]? = some .idle)
    (made : run.take n fired line = some t) (room : t.next.lookup.asked.length ≤ 2 ^ 256) :
    t.next.work < run.work := by
  unfold take at made
  cases fired with
  | true =>
    obtain rfl := Option.some.inj made
    exact work_set idle rfl Nat.zero_lt_one
  | false =>
    rw [if_neg Bool.false_ne_true] at made
    rcases run.lookup.next_cases with ⟨-, next⟩ | ⟨-, c, rest, -, next⟩ | ⟨-, -, -, next⟩ |
      ⟨-, -, -, next⟩
    · simp only [next, Option.some.injEq] at made
      subst made
      exact work_set idle rfl Nat.zero_lt_one
    · simp only [next] at made
      by_cases own : c.id = n.id
      · rw [if_pos own] at made
        obtain rfl := Option.some.inj made
        obtain ⟨_, _, _, _, _, completed⟩ := (run.lookup.taken c rest).complete_frame false c
          (.ok (n.neighbours (run.lookup.taken c rest).target))
        rw [completed] at room ⊢
        exact Nat.lt_of_lt_of_eq (Nat.lt_add_of_pos_right Nat.two_pos) (work_ask c.id rfl rfl room)
      · rw [if_neg own] at made
        obtain rfl := Option.some.inj made
        let asking : LookupRun α := { run with lookup := run.lookup.taken c rest }
        have less : asking.work + 2 = run.work := work_ask c.id rfl rfl room
        have ranks : ((asking.workers.set line (.awaiting c)).map Worker.rank).sum + 1 =
            (asking.workers.map Worker.rank).sum + 2 := sum_map_set Worker.rank idle (.awaiting c)
        show 2 * (2 ^ 256 - asking.lookup.asked.length) +
          ((asking.workers.set line (.awaiting c)).map Worker.rank).sum < run.work
        rw [← less, work]
        omega
    · simp only [next, Option.some.injEq] at made
      subst made
      exact work_set idle rfl Nat.zero_lt_one
    · simp only [next] at made
      cases made

/-- Every turn does some of the work. -/
theorem turn_work {t : Turn α (LookupRun α)} (made : run.turn n now fired line reply = some t)
    (room : t.next.lookup.asked.length ≤ 2 ^ 256) : t.next.work < run.work := by
  unfold turn at made
  split at made
  · next here => exact take_work here made room
  · next c came here =>
    obtain rfl := Option.some.inj made
    obtain ⟨_, _, _, _, _, completed⟩ := run.lookup.complete_frame fired c came
    refine work_set here ?_ Nat.one_lt_two
    rw [completed]
    rfl
  · cases made

/-- As long as a lookup is not over, one of its workers can take its turn. -/
theorem exists_ready (flying : run.lookup.inFlight = (Worker.awaited run.workers).length)
    (going : run.isOver = false) : ∃ line < run.workers.length, run.Ready line := by
  by_cases waiting : ∃ (line : Nat) (c : Contact α), run.workers[line]? = some (.awaiting c)
  · obtain ⟨line, c, here⟩ := waiting
    refine ⟨line, (List.getElem?_eq_some_iff.mp here).1, fun n now fired due answered => ?_⟩
    rw [awaits, awaited_eq here] at answered
    obtain ⟨came, rfl⟩ := Option.isSome_iff_exists.mp answered
    simp [turn, here]
  · obtain ⟨worker, member, going⟩ := List.all_eq_false.mp going
    obtain ⟨line, here⟩ := List.getElem?_of_mem member
    have idle : worker = .idle := by
      cases worker with
      | idle => rfl
      | awaiting c => exact absurd ⟨line, c, here⟩ waiting
      | stopped => exact absurd rfl going
    subst idle
    -- With nobody to wait for, an idle worker has somebody to ask, or stops.
    have landed : run.lookup.inFlight = 0 := by
      rw [flying, List.length_eq_zero_iff]
      refine List.filterMap_eq_nil_iff.mpr fun other listed => ?_
      cases other with
      | awaiting c =>
        obtain ⟨at', there⟩ := List.getElem?_of_mem listed
        exact absurd ⟨at', c, there⟩ waiting
      | _ => rfl
    refine ⟨line, (List.getElem?_eq_some_iff.mp here).1, fun n now fired due _ stuck => ?_⟩
    simp only [turn, here, take] at stuck
    split at stuck
    · cases stuck
    · rcases run.lookup.next_cases with ⟨-, next⟩ | ⟨-, c, rest, -, next⟩ | ⟨-, -, -, next⟩ |
        ⟨-, -, flies, -⟩
      · simp [next] at stuck
      · simp only [next] at stuck
        split at stuck <;> cases stuck
      · simp [next] at stuck
      · omega

end Work

/-- A lookup that a node started accounts for its past. -/
theorem Traced.accounts {run : LookupRun α} (traced : run.Traced) :
    ∃ target width seeds events, Accounts target width seeds events run := by
  obtain ⟨n, target, width, past, rfl⟩ := traced
  exact ⟨target, width, n.seeds target width, _, Accounts.play target width _ _ _ past⟩

/-- A lookup that a node started has asked no more identifiers than there are. -/
theorem Traced.room {run : LookupRun α} (traced : run.Traced) :
    run.lookup.asked.length ≤ 2 ^ 256 := by
  obtain ⟨target, width, seeds, events, accounts⟩ := traced.accounts
  rw [accounts.tracks.recorded, List.length_reverse]
  exact Id.length_le_of_nodup accounts.tracks.once

/-- As long as a lookup that a node started is not over, one of its workers can take its turn. -/
theorem Traced.exists_ready {run : LookupRun α} (traced : run.Traced)
    (going : run.isOver = false) : ∃ line < run.workers.length, run.Ready line := by
  obtain ⟨target, width, seeds, events, accounts⟩ := traced.accounts
  exact LookupRun.exists_ready accounts.flying going

end LookupRun

end Overlay
