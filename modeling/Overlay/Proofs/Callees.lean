import Overlay.Proofs.Activity
import Overlay.Proofs.Monitor.Probes

/-!
# Whom activities call

A node that is to ask itself is answered from its own table. Lookups, walks and queries therefore
call others only, whomever the answers name; the one thing that an activity calls unseen is the
contacts that a bootstrap starts from. The node goes through little in a turn: its monitor stays
as it is, hears of a message, or counts a failure.
-/
namespace Overlay

variable {α : Type}

/-! ## The node in a turn -/

/-- What a node goes through in a turn. -/
structure Node.Follows (n : Node α) (now : Nat) (next : Node α) : Prop where
  /-- It starts from the same contacts. -/
  boot : next.boot = n.boot
  /-- Its monitor has done one thing at most. -/
  monitor : next.monitor = n.monitor ∨ (∃ c, next.monitor = (n.monitor.heard now c).2) ∨
    ∃ id, next.monitor = (n.monitor.requestFailed id).2

/-- A node that only changes its mind about whom to leave alone goes through nothing. -/
theorem Node.Follows.rest (n : Node α) (now : Nat) (cool : CoolDown) :
    n.Follows now { n with cool := cool } := ⟨rfl, .inl rfl⟩

/-- Whom a node leaves alone is no matter of what it goes through. -/
theorem Node.Follows.cooled {n next : Node α} {now : Nat} (follows : n.Follows now next)
    (cool : CoolDown) : n.Follows now { next with cool := cool } :=
  ⟨follows.boot, follows.monitor⟩

/-- The end of a query is a message, a failure, or nothing. -/
theorem Node.judge_follows (n : Node α) (now : Nat) (fired : Bool) (asked : Contact α)
    (reply : Reply α) : n.Follows now (n.judge now fired asked reply) := by
  cases reply with
  | ok contacts => exact ⟨rfl, .inr (.inl ⟨asked, rfl⟩)⟩
  | error fault =>
    rw [judge]
    split
    · exact .rest n now n.cool
    · exact ⟨rfl, .inr (.inr ⟨asked.id, rfl⟩)⟩

/-- What is kept by whatever probes do is kept in a turn. -/
theorem Node.Follows.keeps {n next : Node α} {now : Nat} {P : Monitor α → Prop}
    (follows : n.Follows now next) (stable : Monitor.Stable now P)
    (settled : ∀ id, P (n.monitor.settled id)) (kept : P n.monitor) : P next.monitor := by
  rcases follows.monitor with same | ⟨c, same⟩ | ⟨id, same⟩
  · rw [same]
    exact kept
  · rw [same]
    exact stable.heard (settled c.id)
  · rw [same]
    exact stable.requestFailed kept id

/-! ## Contacts still to be pinged -/

/-- The lookup that a bootstrap is at. -/
def Bootstrap.run? (b : Bootstrap α) : Option (LookupRun α) :=
  match b.phase with
  | .searching run | .refreshing run _ => some run
  | .pinging _ | .finished _ => none

/-- A bootstrap is still to ping this contact. -/
def Bootstrap.Unpinged (b : Bootstrap α) (c : Contact α) : Prop :=
  ∃ pings, b.phase = .pinging pings ∧ .unsent c ∈ pings

/-- An activity is still to ping this contact unseen. -/
def Activity.Unpinged : Activity α → Contact α → Prop
  | .bootstrap b | .upkeep b => b.Unpinged
  | _ => fun _ => False

/-- Whom the turn of a line calls, and what the node goes through in it. -/
structure Turn.Reaches {β : Type} (t : Turn α β) (n : Node α) (now : Nat)
    (before after : Contact α → Prop) : Prop where
  /-- The node goes through little. -/
  follows : n.Follows now t.node
  /-- Nobody comes to be pinged. -/
  fewer : ∀ c, after c → before c
  /-- The node calls itself only if it was to ping itself. -/
  others : ∀ call, t.call = some call → call.callee.id = n.id → before call.callee

section Turns

variable {n : Node α} {now line : Nat} {fired : Bool} {reply : Option (Reply α)}

/-- A turn of a worker calls another node or none. -/
theorem LookupRun.turn_reaches {run : LookupRun α} {t : Turn α (LookupRun α)}
    (made : run.turn n now fired line reply = some t) :
    n.Follows now t.node ∧ ∀ call, t.call = some call → call.callee.id ≠ n.id := by
  unfold turn at made
  cases here : run.workers[line]? with
  | none => simp [here] at made
  | some worker =>
    cases worker with
    | idle =>
      simp only [here] at made
      obtain ⟨same, lookup, -, does⟩ := take_cases made
      refine ⟨same ▸ .rest n now n.cool, fun call called => ?_⟩
      rcases does with ⟨-, none⟩ | ⟨-, none⟩ | ⟨c, other, -, asks⟩
      · rw [none] at called
        cases called
      · rw [none] at called
        cases called
      · rw [asks] at called
        obtain rfl := Option.some.inj called
        exact other
    | stopped => simp [here] at made
    | awaiting c =>
      cases reply with
      | none => simp [here] at made
      | some r =>
        simp only [here, Option.some.injEq] at made
        subst made
        exact ⟨n.judge_follows now fired c r, nofun⟩

/-- A walk asks another node or none. -/
theorem Walk.ask_reaches (w : Walk α) (n : Node α) (now : Nat) (fired : Bool) :
    n.Follows now (w.ask n now fired).node ∧
      ∀ call, (w.ask n now fired).call = some call → call.callee.id ≠ n.id := by
  unfold ask
  split
  · exact ⟨.rest n now _, nofun⟩
  · next c rest cool pruned =>
    dsimp only
    by_cases own : c.id = n.id
    · rw [if_pos own]
      exact ⟨.rest n now _, nofun⟩
    · rw [if_neg own]
      refine ⟨.rest n now cool, fun call called => ?_⟩
      obtain rfl := Option.some.inj called
      exact own

/-- A turn of a walk calls another node or none. -/
theorem Pull.turn_reaches {p : Pull α} {t : Turn α (Pull α)}
    (made : p.turn n now fired reply = some t) :
    n.Follows now t.node ∧ ∀ call, t.call = some call → call.callee.id ≠ n.id := by
  unfold turn at made
  split at made
  · cases made
  · split at made
    · cases made
    · obtain rfl := Option.some.inj made
      exact ⟨(n.judge_follows now fired _ _).cooled _, nofun⟩
    · split at made
      · obtain rfl := Option.some.inj made
        exact ⟨.rest n now n.cool, nofun⟩
      · split at made
        · obtain rfl := Option.some.inj made
          exact ⟨.rest n now n.cool, nofun⟩
        · split at made
          · obtain rfl := Option.some.inj made
            exact ⟨.rest n now _, nofun⟩
          · obtain rfl := Option.some.inj made
            exact p.walk.ask_reaches n now fired

/-- What the turn of a ping comes to: it is sent, its contact is heard of, or it was in vain. -/
theorem Bootstrap.turnPing_cases {b : Bootstrap α} {pings : List (BootPing α)}
    {t : Turn α (Bootstrap α)} (made : b.turnPing pings n now line reply = some t) :
    (∃ c, pings[line]? = some (.unsent c) ∧
        t = ⟨n, { b with phase := .pinging (pings.set line (.sent c)) },
          some ⟨c, .ping, some n.config.pingTimeout⟩⟩) ∨
      (∃ c contacts, pings[line]? = some (.sent c) ∧ reply = some (.ok contacts) ∧
        t = ⟨(n.heard now c).2, { b with phase := .pinging (pings.set line (.over true)) }, none⟩) ∨
      ∃ c fault, pings[line]? = some (.sent c) ∧ reply = some (.error fault) ∧
        t = ⟨n, { b with phase := .pinging (pings.set line (.over false)) }, none⟩ := by
  unfold turnPing at made
  dsimp only at made
  split at made
  · next c here => exact .inl ⟨c, here, (Option.some.inj made).symm⟩
  · next c contacts here =>
    exact .inr (.inl ⟨c, contacts, here, rfl, (Option.some.inj made).symm⟩)
  · next c fault here => exact .inr (.inr ⟨c, fault, here, rfl, (Option.some.inj made).symm⟩)
  · cases made

/-- What the turn of a line of a bootstrap comes to: one of a ping, or one of the lookup that the
bootstrap is at. -/
theorem Bootstrap.turn_cases {b : Bootstrap α} {t : Turn α (Bootstrap α)}
    (made : b.turn n now fired line reply = some t) :
    (∃ pings, b.phase = .pinging pings ∧ b.turnPing pings n now line reply = some t) ∨
      ∃ run inner next, b.run? = some run ∧ run.turn n now fired line reply = some inner ∧
        t = ⟨inner.node, next, inner.call⟩ ∧ next.run? = some inner.next := by
  unfold turn at made
  cases phase : b.phase with
  | pinging pings =>
    simp only [phase] at made
    exact .inl ⟨pings, rfl, made⟩
  | searching run =>
    simp only [phase] at made
    obtain ⟨inner, moved, rfl⟩ := Option.map_eq_some_iff.mp made
    exact .inr ⟨run, inner, _, by rw [run?, phase], moved, rfl, rfl⟩
  | refreshing run left =>
    simp only [phase] at made
    obtain ⟨inner, moved, rfl⟩ := Option.map_eq_some_iff.mp made
    exact .inr ⟨run, inner, _, by rw [run?, phase], moved, rfl, rfl⟩
  | finished result => simp [phase] at made

/-- A bootstrap that is at a lookup is to ping nobody. -/
theorem Bootstrap.not_unpinged_of_run? {b : Bootstrap α} {run : LookupRun α}
    (at' : b.run? = some run) (c : Contact α) : ¬b.Unpinged c := by
  rintro ⟨pings, phase, -⟩
  rw [run?, phase] at at'
  cases at'

/-- A turn of a line of a bootstrap calls another node, a contact that was to be pinged, or
nobody. -/
theorem Bootstrap.turn_reaches {b : Bootstrap α} {t : Turn α (Bootstrap α)}
    (made : b.turn n now fired line reply = some t) :
    t.Reaches n now b.Unpinged t.next.Unpinged := by
  rcases turn_cases made with ⟨pings, phase, moved⟩ | ⟨run, inner, next, -, moved, rfl, at'⟩
  · have fewer {ping : BootPing α} (sent : ∀ c, ping ≠ .unsent c) (c : Contact α)
        (unpinged : ({ b with phase := .pinging (pings.set line ping) } : Bootstrap α).Unpinged c) :
        b.Unpinged c := by
      obtain ⟨left, later, member⟩ := unpinged
      obtain rfl := BootPhase.pinging.inj later
      rcases List.mem_or_eq_of_mem_set member with old | new
      · exact ⟨pings, phase, old⟩
      · exact absurd new.symm (sent c)
    rcases turnPing_cases moved with ⟨c, here, rfl⟩ | ⟨c, contacts, -, -, rfl⟩ |
      ⟨c, fault, -, -, rfl⟩
    · refine ⟨.rest n now n.cool, fewer nofun, fun call called _ => ?_⟩
      obtain rfl := Option.some.inj called
      exact ⟨pings, phase, List.mem_of_getElem? here⟩
    · exact ⟨⟨rfl, .inr (.inl ⟨c, rfl⟩)⟩, fewer nofun, nofun⟩
    · exact ⟨.rest n now n.cool, fewer nofun, nofun⟩
  · obtain ⟨follows, others⟩ := LookupRun.turn_reaches moved
    refine ⟨follows, fun c unpinged => ?_, fun call called own => absurd own (others call called)⟩
    exact absurd unpinged (not_unpinged_of_run? at' c)

/-- A turn of a single query calls another node or none. -/
theorem Activity.turnQuery_reaches {asked : Contact α} {target : Id} {state : Single α}
    {t : Turn α (Activity α)}
    (made : turnQuery asked target state n now fired reply = some t) :
    t.Reaches n now (fun _ => False) t.next.Unpinged := by
  unfold turnQuery at made
  split at made
  · by_cases own : asked.id = n.id
    · rw [if_pos own] at made
      obtain rfl := Option.some.inj made
      exact ⟨.rest n now n.cool, fun _ none => none, nofun⟩
    · rw [if_neg own] at made
      obtain rfl := Option.some.inj made
      refine ⟨.rest n now n.cool, fun _ none => none, fun call called same => own ?_⟩
      obtain rfl := Option.some.inj called
      exact same
  · obtain rfl := Option.some.inj made
    exact ⟨n.judge_follows now fired asked _, fun _ none => none, nofun⟩
  · cases made

/-- A turn of a line of an activity of a node calls another node, a contact that was to be pinged,
or nobody. -/
theorem Activity.turn_reaches {a : Activity α} {t : Turn α (Activity α)} (own : a.isOwn = true)
    (made : a.turn n now fired line reply = some t) :
    t.Reaches n now a.Unpinged t.next.Unpinged := by
  unfold turn at made
  cases a with
  | exchange call state => cases own
  | query asked target state => exact turnQuery_reaches made
  | lookup run =>
    obtain ⟨inner, moved, rfl⟩ := Option.map_eq_some_iff.mp made
    obtain ⟨follows, others⟩ := LookupRun.turn_reaches moved
    exact ⟨follows, fun _ none => none, others⟩
  | pull p =>
    obtain ⟨inner, moved, rfl⟩ := Option.map_eq_some_iff.mp made
    obtain ⟨follows, others⟩ := Pull.turn_reaches moved
    exact ⟨follows, fun _ none => none, others⟩
  | bootstrap b =>
    obtain ⟨inner, moved, rfl⟩ := Option.map_eq_some_iff.mp made
    obtain ⟨follows, fewer, others⟩ := Bootstrap.turn_reaches moved
    exact ⟨follows, fewer, others⟩
  | upkeep b =>
    obtain ⟨inner, moved, rfl⟩ := Option.map_eq_some_iff.mp made
    obtain ⟨follows, fewer, others⟩ := Bootstrap.turn_reaches moved
    exact ⟨follows, fewer, others⟩
  | pause wakeAt => cases made
  | withdrawn fault => cases made

end Turns

/-! ## Phases -/

/-- A bootstrap is to ping the contacts that the node starts from. -/
theorem Bootstrap.unpinged_start {n : Node α} {c : Contact α} (unpinged : (start n).Unpinged c) :
    c ∈ n.boot := by
  obtain ⟨pings, phase, member⟩ := unpinged
  obtain rfl := BootPhase.pinging.inj phase
  obtain ⟨other, listed, same⟩ := List.mem_map.mp member
  obtain rfl := BootPing.unsent.inj same
  exact listed

/-- The contact has answered its ping. -/
def BootPing.answered : BootPing α → Bool
  | .over online => online
  | _ => false

/-- What a bootstrap passes to when its phase is over: its end, if it has been withdrawn, and
otherwise its next phase, having counted what this one has achieved. -/
theorem Bootstrap.proceed_phases {b next : Bootstrap α} {n : Node α} {fired : Bool} {draw : Id}
    (made : b.proceed n fired draw = some next) :
    (fired = true ∧ next = { b with phase := .finished (.error .cancelled) }) ∨
      (fired = false ∧
        ((∃ pings, b.phase = .pinging pings ∧ pings.all pingOver = true ∧
            next = ⟨{ b.report with online := (pings.filter BootPing.answered).length },
              .searching (.start n n.id (n.lookupWidth none))⟩) ∨
          (∃ run, b.phase = .searching run ∧ run.isOver = true ∧
            next = refreshNext n { b.report with found := run.lookup.closest.length }
              (n.table.regions.filter fun r => !r.bucket.isEmpty) draw) ∨
          ∃ run left, b.phase = .refreshing run left ∧ run.isOver = true ∧
            next = refreshNext n { b.report with refreshed := b.report.refreshed + 1 } left
              draw)) := by
  -- Each phase asks whether it is over, and then whether the caller has withdrawn.
  have passed {Ready : Prop} [Decidable Ready] {other : Bootstrap α}
      (here : (if Ready then if fired = true then
        some { b with phase := .finished (.error .cancelled) } else some other else none) =
          some next) :
      (fired = true ∧ next = { b with phase := .finished (.error .cancelled) }) ∨
        (fired = false ∧ Ready ∧ next = other) := by
    split at here
    · next ready =>
      split at here
      · next withdrawn => exact .inl ⟨withdrawn, (Option.some.inj here).symm⟩
      · next kept =>
        exact .inr ⟨Bool.eq_false_of_not_eq_true kept, ready, (Option.some.inj here).symm⟩
    · cases here
  unfold proceed at made
  cases phase : b.phase with
  | pinging pings =>
    simp only [phase] at made
    rcases passed made with withdrawn | ⟨kept, ready, rfl⟩
    · exact .inl withdrawn
    · exact .inr ⟨kept, .inl ⟨pings, rfl, ready, rfl⟩⟩
  | searching run =>
    simp only [phase] at made
    rcases passed made with withdrawn | ⟨kept, ready, rfl⟩
    · exact .inl withdrawn
    · exact .inr ⟨kept, .inr (.inl ⟨run, rfl, ready, rfl⟩)⟩
  | refreshing run left =>
    simp only [phase] at made
    rcases passed made with withdrawn | ⟨kept, ready, rfl⟩
    · exact .inl withdrawn
    · exact .inr ⟨kept, .inr (.inr ⟨run, left, rfl, ready, rfl⟩)⟩
  | finished result => simp [phase] at made

/-- What a bootstrap passes to: its end, if it has been withdrawn, and otherwise a new lookup or its
end. -/
theorem Bootstrap.proceed_cases {b next : Bootstrap α} {n : Node α} {fired : Bool} {draw : Id}
    (made : b.proceed n fired draw = some next) :
    (fired = true ∧ next = { b with phase := .finished (.error .cancelled) }) ∨
      (fired = false ∧ ((∃ target width, next.phase = .searching (.start n target width)) ∨
        (∃ target width left, next.phase = .refreshing (.start n target width) left) ∨
        ∃ report, next.phase = .finished (.ok report))) := by
  have refreshed (report : BootReport) (left : List (Region α)) :
      (∃ target width,
          (refreshNext n report left draw).phase = .searching (.start n target width)) ∨
        (∃ target width later,
          (refreshNext n report left draw).phase = .refreshing (.start n target width) later) ∨
        ∃ report', (refreshNext n report left draw).phase = .finished (.ok report') := by
    cases left with
    | nil => exact .inr (.inr ⟨report, rfl⟩)
    | cons region later => exact .inr (.inl ⟨_, _, later, rfl⟩)
  rcases proceed_phases made with withdrawn | ⟨kept, ⟨_, -, -, rfl⟩ | ⟨_, -, -, rfl⟩ |
    ⟨_, _, -, -, rfl⟩⟩
  · exact .inl withdrawn
  · exact .inr ⟨kept, .inl ⟨_, _, rfl⟩⟩
  · exact .inr ⟨kept, refreshed ..⟩
  · exact .inr ⟨kept, refreshed ..⟩

/-- No bootstrap passes to pings. -/
theorem Bootstrap.not_unpinged_proceed {b next : Bootstrap α} {n : Node α} {fired : Bool}
    {draw : Id} (made : b.proceed n fired draw = some next) (c : Contact α) :
    ¬next.Unpinged c := by
  rintro ⟨pings, phase, -⟩
  rcases proceed_cases made with ⟨-, rfl⟩ | ⟨-, ⟨_, _, other⟩ | ⟨_, _, _, other⟩ | ⟨_, other⟩⟩
  · cases phase
  · rw [other] at phase
    cases phase
  · rw [other] at phase
    cases phase
  · rw [other] at phase
    cases phase

/-- What an activity passes to. A bootstrap passes to its own next phase; bootstraps for ever pause
after one, start another after a pause, and end when they have been withdrawn. -/
theorem Activity.proceed_cases {a next : Activity α} {n : Node α} {now : Nat} {fired : Bool}
    {draw : Id} (made : a.proceed n now fired draw = some next) :
    (∃ b later, b.proceed n fired draw = some later ∧
        (a = .bootstrap b ∧ next = .bootstrap later ∨
          a = .upkeep b ∧ b.result? = none ∧ next = .upkeep later)) ∨
      (∃ b fault, a = .upkeep b ∧ b.result? = some (.error fault) ∧ next = .withdrawn fault) ∨
      (∃ b report, a = .upkeep b ∧ b.result? = some (.ok report) ∧
        next = .pause (now + n.config.refreshInterval)) ∨
      ∃ time, a = .pause time ∧ (fired = true ∧ next = .withdrawn .cancelled ∨
        fired = false ∧ time ≤ now ∧ next = .upkeep (.start n)) := by
  unfold proceed at made
  cases a with
  | bootstrap b =>
    obtain ⟨later, moved, rfl⟩ := Option.map_eq_some_iff.mp made
    exact .inl ⟨b, later, moved, .inl ⟨rfl, rfl⟩⟩
  | upkeep b =>
    dsimp only at made
    split at made
    · next fault result =>
      exact .inr (.inl ⟨b, fault, rfl, result, (Option.some.inj made).symm⟩)
    · next report result =>
      exact .inr (.inr (.inl ⟨b, report, rfl, result, (Option.some.inj made).symm⟩))
    · next result =>
      obtain ⟨later, moved, rfl⟩ := Option.map_eq_some_iff.mp made
      exact .inl ⟨b, later, moved, .inr ⟨rfl, result, rfl⟩⟩
  | pause time =>
    dsimp only at made
    split at made
    · next withdrawn =>
      exact .inr (.inr (.inr ⟨time, rfl, .inl ⟨withdrawn, (Option.some.inj made).symm⟩⟩))
    · next kept =>
      split at made
      · next due =>
        refine .inr (.inr (.inr ⟨time, rfl, .inr ⟨?_, due, (Option.some.inj made).symm⟩⟩))
        exact Bool.eq_false_of_not_eq_true kept
      · cases made
  | _ => cases made

/-- An activity that passes to its next phase comes to ping those only that the node starts from. -/
theorem Activity.unpinged_proceed {a next : Activity α} {n : Node α} {now : Nat} {fired : Bool}
    {draw : Id} {c : Contact α} (made : a.proceed n now fired draw = some next)
    (unpinged : next.Unpinged c) : c ∈ n.boot := by
  rcases proceed_cases made with ⟨b, later, moved, ⟨-, rfl⟩ | ⟨-, -, rfl⟩⟩ | ⟨_, _, -, -, rfl⟩ |
    ⟨_, _, -, -, rfl⟩ | ⟨_, -, ⟨-, rfl⟩ | ⟨-, -, rfl⟩⟩
  · exact absurd unpinged (Bootstrap.not_unpinged_proceed moved c)
  · exact absurd unpinged (Bootstrap.not_unpinged_proceed moved c)
  · cases unpinged
  · cases unpinged
  · cases unpinged
  · exact Bootstrap.unpinged_start unpinged

end Overlay
