import Overlay.Proofs.Monitor.Run

/-!
# What a move of a monitor does

A move brings at most one piece of news: a message, a failed request, or what the end of a ping
says of the contact of its probe. The ledger learns this and nothing else, unless the move removes
an identifier. A probe that is under way after a move was so before, or it has just been started,
of a contact that the table holds; or it has passed to its ping, because its contact still waited
and was still stored.
-/
namespace Overlay

variable {α : Type}

/-- A table that can come about. -/
def Table.Reachable (t : Table α) : Prop :=
  ∃ home capacity maxDepth changes, t = (withDepth home capacity maxDepth : Table α).after changes

/-- A table that can come about is sound. -/
theorem Table.Reachable.sound {t : Table α} (reachable : t.Reachable) : t.Sound := by
  obtain ⟨home, capacity, maxDepth, changes, rfl⟩ := reachable
  exact (withDepth_sound home capacity maxDepth).after changes

/-- The contact that an offer names as the stalest one is held. -/
theorem Table.stalest_held (t : Table α) {c stalest : Contact α}
    (named : (t.add c).1.stalest = some stalest) : stalest ∈ (t.add c).2.trie.entries := by
  have placed (base : Table α) (named : (base.place c).1.stalest = some stalest) :
      stalest ∈ (base.place c).2.trie.entries := by
    rcases base.place_cases c with ⟨-, placed⟩ | ⟨-, -, placed⟩ | ⟨-, -, placed⟩
    · simp [placed] at named
    · rw [placed] at named ⊢
      exact base.held_of_mem_bucketOf (List.mem_of_getLast? named)
    · simp [placed] at named
  rcases t.add_cases c with added | ⟨-, added⟩
  · rw [added] at named ⊢
    exact placed t named
  · rw [added] at named ⊢
    exact placed (t.divide c.id) named

namespace Monitor

/-- The probe has just been started, of a contact that the table holds. -/
def Begun (m : Monitor α) (first : Nat) (q : Probe α) : Prop :=
  q.serial = first ∧ q.phase ≠ .pinging ∧ q.contact ∈ m.table.trie.entries

/-- After a message, a probe was under way before or has just been started. -/
theorem of_mem_heard {m : Monitor α} {now : Nat} {c : Contact α} {q : Probe α}
    (listed : q ∈ (m.heard now c).2.probes) :
    q ∈ m.probes ∨ (m.heard now c).2.Begun m.started q := by
  rcases m.heard_cases now c with ⟨-, heard⟩ | ⟨stalest, named, heard⟩
  · rw [heard] at listed
    exact .inl listed
  · rcases (m.noted c).startProbe_cases now stalest with same | ⟨-, -, started⟩
    · rw [heard, same] at listed
      exact .inl listed
    · rw [heard, started] at listed ⊢
      rcases List.mem_append.mp listed with before | new
      · exact .inl before
      · rw [List.mem_singleton.mp new]
        exact .inr ⟨rfl, nofun, m.table.stalest_held named⟩

/-- When a ping has ended, a probe was under way before or has just been started. -/
theorem of_mem_pinged {m : Monitor α} {now serial : Nat} {reply : Reply α} {p q : Probe α}
    (known : m.probe? serial = some p) (listed : q ∈ (m.pinged now serial reply).probes) :
    q ∈ m.probes ∨ (m.pinged now serial reply).Begun m.started q := by
  rcases pinged_cases now known reply with ⟨-, -, ended⟩ | ⟨-, ended⟩ | ⟨-, -, -, ended⟩
  · rw [ended] at listed ⊢
    exact (of_mem_heard listed).imp_left fun left => (mem_dropProbe.mp left).1
  · rw [ended, abandon_known known] at listed
    exact .inl (mem_dropProbe.mp listed).1
  · rw [ended] at listed
    exact .inl (mem_dropProbe.mp listed).1

end Monitor

namespace Watch

/-- Moves can be made in two parts. -/
theorem play_append (w : Watch α) (first later : List (Move α)) :
    w.play (first ++ later) = (w.play first).play later := List.foldl_append

/-- The probe whose ping ends in a move, and the reply. -/
def verdict (w : Watch α) : Move α → Option (Probe α × Reply α)
  | .turn serial aware (some reply) =>
    (w.monitor.probe? serial).bind fun p =>
      if p.phase = .pinging ∧ (w.monitor.closed && aware) = false then some (p, reply) else none
  | _ => none

/-- What the monitor learns of others in a move. -/
def news (w : Watch α) : Move α → List (News α)
  | .hear c => [.alive c]
  | .complain id => [.failed id]
  | m =>
    match w.verdict m with
    | some (p, reply) => News.ofProbe p.contact reply
    | none => []

section Verdicts

variable {w : Watch α} {m : Move α} {p : Probe α} {reply : Reply α}

/-- A ping ends in the turn of its probe that brings the reply, unless the probe has become aware
that the monitor is closed. -/
theorem verdict_eq_some_iff : w.verdict m = some (p, reply) ↔
    ∃ aware, m = .turn p.serial aware (some reply) ∧ w.monitor.probe? p.serial = some p ∧
      p.phase = .pinging ∧ (w.monitor.closed && aware) = false := by
  constructor
  · intro ended
    unfold verdict at ended
    split at ended
    · next serial aware reply' =>
      obtain ⟨q, known, taken⟩ := Option.bind_eq_some_iff.mp ended
      split at taken
      · next due =>
        obtain ⟨rfl, rfl⟩ : q = p ∧ reply' = reply := by simpa using taken
        obtain rfl := (Monitor.mem_of_probe? known).2
        exact ⟨aware, rfl, known, due⟩
      · cases taken
    · cases ended
  · rintro ⟨aware, rfl, known, phase, open'⟩
    simp [verdict, known, phase, open']

/-- What the monitor makes of the end of a ping. -/
theorem move_of_verdict (ended : w.verdict m = some (p, reply)) :
    (w.move m).monitor = w.monitor.pinged w.now p.serial reply := by
  obtain ⟨aware, rfl, known, phase, open'⟩ := verdict_eq_some_iff.mp ended
  simp [move, turn, known, phase, open']

/-- A turn in which no ping ends has a probe wait on, gives it up, or wakes it. -/
theorem turn_of_no_verdict {serial : Nat} {aware : Bool} {reply : Option (Reply α)}
    (none : w.verdict (.turn serial aware reply) = none) :
    w.turn serial aware reply = w.monitor ∨
      w.turn serial aware reply = w.monitor.abandon serial ∨
      ∃ p, w.monitor.probe? serial = some p ∧ p.phase ≠ .pinging ∧
        w.turn serial aware reply = (w.monitor.wake w.now serial).2 := by
  cases known : w.monitor.probe? serial with
  | none => exact .inl (turn_unknown known aware reply).1
  | some p =>
    unfold turn
    simp only [known]
    by_cases closed : (w.monitor.closed && aware) = true
    · exact .inr (.inl (if_pos closed))
    · rw [if_neg closed]
      cases phase : p.phase with
      | delayed time =>
        dsimp only
        split
        · exact .inr (.inr ⟨p, rfl, by simp [phase], rfl⟩)
        · exact .inl rfl
      | pinging =>
        cases reply with
        | none => exact .inl rfl
        | some came => simp [verdict, known, phase, closed] at none

/-- The ledger learns the news of a move, and nothing else unless the move removes an
identifier. -/
theorem ledger_move (w : Watch α) (m : Move α) :
    (w.move m).monitor.ledger = w.monitor.ledger.learnAll (w.news m) ∨
      ∃ id, m = .remove id ∧ (w.move m).monitor.ledger =
        { w.monitor.ledger with table := (w.monitor.table.remove id).2 } := by
  cases m with
  | wait millis => exact .inl rfl
  | close => exact .inl rfl
  | remove id => exact .inr ⟨id, rfl, rfl⟩
  | hear c => exact .inl (w.monitor.ledger_heard w.now c)
  | complain id => exact .inl (w.monitor.ledger_requestFailed id)
  | turn serial aware reply =>
    refine .inl ?_
    cases ended : w.verdict (.turn serial aware reply) with
    | none =>
      have quiet : w.news (.turn serial aware reply) = [] := by simp only [news, ended]
      rw [quiet]
      rcases turn_of_no_verdict ended with same | same | ⟨p, -, -, same⟩
      · exact congrArg Monitor.ledger same
      · exact (congrArg Monitor.ledger same).trans (w.monitor.ledger_abandon serial)
      · exact (congrArg Monitor.ledger same).trans (w.monitor.ledger_wake w.now serial)
    | some ending =>
      obtain ⟨p, came⟩ := ending
      obtain ⟨-, -, known, -⟩ := verdict_eq_some_iff.mp ended
      rw [move_of_verdict ended, w.monitor.ledger_pinged w.now p.serial known]
      simp only [news, ended]

/-- A contact shows to be alive in a move: there is a message from it, or it answers the ping of a
probe. -/
def showsAlive (w : Watch α) (m : Move α) (c : Contact α) : Prop :=
  m = .hear c ∨ ∃ p contacts, w.verdict m = some (p, .ok contacts) ∧ p.contact = c

/-- The ping of a probe of an identifier fails in a move, and has not been cancelled. -/
def failsProbe (w : Watch α) (m : Move α) (id : Id) : Prop :=
  ∃ p fault, w.verdict m = some (p, .error fault) ∧ fault.isCancelled = false ∧ p.contact.id = id

/-- What the news of a move can be, and where it comes from. -/
theorem news_cases (w : Watch α) (m : Move α) :
    w.news m = [] ∨ (∃ c, w.news m = [.alive c] ∧ w.showsAlive m c) ∨
      (∃ id, w.news m = [.failed id] ∧ m = .complain id) ∨
      ∃ id, w.news m = [.dead id] ∧ w.failsProbe m id := by
  unfold news
  split
  · next c => exact .inr (.inl ⟨c, rfl, .inl rfl⟩)
  · next id => exact .inr (.inr (.inl ⟨id, rfl, rfl⟩))
  · split
    · next p reply ended =>
      cases reply with
      | ok contacts => exact .inr (.inl ⟨p.contact, rfl, .inr ⟨p, contacts, ended, rfl⟩⟩)
      | error fault =>
        cases kept : fault.isCancelled with
        | true => exact .inl (if_pos kept)
        | false =>
          have dead : News.ofProbe p.contact (.error fault) = [.dead p.contact.id] := by
            simp [News.ofProbe, kept]
          exact .inr (.inr (.inr ⟨p.contact.id, dead, p, fault, ended, kept, rfl⟩))
    · exact .inl rfl

end Verdicts

/-! ## The table -/

section Tables

variable {w : Watch α} {m : Move α}

/-- What a move comes to for the table: a contact that shows to be alive is offered, an identifier
is removed, or nothing happens. -/
theorem table_move (w : Watch α) (m : Move α) :
    (∃ c, w.showsAlive m c ∧ (w.move m).monitor.table = (w.monitor.table.add c).2) ∨
    (w.move m).monitor.table = w.monitor.table ∨
    ∃ id, (m = .remove id ∨ m = .complain id ∨ w.failsProbe m id) ∧
      (w.move m).monitor.table = (w.monitor.table.remove id).2 := by
  rcases w.ledger_move m with learnt | ⟨id, rfl, -⟩
  · have table : (w.move m).monitor.table = (w.monitor.ledger.learnAll (w.news m)).table :=
      congrArg Ledger.table learnt
    rcases w.news_cases m with brought | ⟨c, brought, alive⟩ | ⟨id, brought, failed⟩ |
      ⟨id, brought, dead⟩
    · rw [brought] at table
      exact .inr (.inl table)
    · rw [brought] at table
      exact .inl ⟨c, alive, table⟩
    · rw [brought] at table
      rcases w.monitor.ledger.table_learn (.failed id) with ⟨c, other, -⟩ | same | ⟨gone, why, same⟩
      · cases other
      · exact .inr (.inl (table.trans same))
      · have own : gone = id := by
          rcases why with other | ⟨named, -⟩ | other
          · cases other
          · exact (News.failed.inj named).symm
          · cases other
        rw [own] at same
        exact .inr (.inr ⟨id, .inr (.inl failed), table.trans same⟩)
    · rw [brought] at table
      exact .inr (.inr ⟨id, .inr (.inr dead), table⟩)
  · exact .inr (.inr ⟨id, .inl rfl, rfl⟩)

/-- A move keeps the table sound. -/
theorem sound_move (sound : w.monitor.table.Sound) (m : Move α) :
    (w.move m).monitor.table.Sound := by
  rcases w.table_move m with ⟨c, -, same⟩ | same | ⟨id, -, same⟩
  · rw [same]
    exact sound.add c
  · rw [same]
    exact sound
  · rw [same]
    exact sound.remove id

/-- Moves keep the table sound, however many there are. -/
theorem sound_play (sound : w.monitor.table.Sound) (moves : List (Move α)) :
    (w.play moves).monitor.table.Sound := by
  induction moves generalizing w with
  | nil => exact sound
  | cons m moves further => exact further (sound_move sound m)

/-- What the table holds after a move it held before, or it has just shown to be alive. -/
theorem held_move (sound : w.monitor.table.Sound) {c : Contact α}
    (held : c ∈ (w.move m).monitor.table.trie.entries) :
    c ∈ w.monitor.table.trie.entries ∨ w.showsAlive m c := by
  rcases w.table_move m with ⟨d, alive, same⟩ | same | ⟨id, -, same⟩
  · rw [same, sound.mem_add] at held
    rcases held with ⟨-, rfl⟩ | ⟨before, -⟩
    · exact .inr alive
    · exact .inl before
  · rw [same] at held
    exact .inl held
  · rw [same, sound.mem_remove] at held
    exact .inl held.1

/-- An identifier leaves the table in a move that removes it, reports a failure of it, or has the
ping of a probe of it fail. -/
theorem leaves_move (sound : w.monitor.table.Sound) {id : Id}
    (present : w.monitor.table.contains id = true)
    (absent : (w.move m).monitor.table.contains id = false) :
    m = .remove id ∨ m = .complain id ∨ w.failsProbe m id := by
  rcases w.table_move m with ⟨d, -, same⟩ | same | ⟨gone, why, same⟩
  · have stays := (sound.contains_add_iff d id).mpr (.inl present)
    rw [same, stays] at absent
    cases absent
  · rw [same, present] at absent
    cases absent
  · have taken : gone = id := by
      by_contra other
      have stays := (sound.contains_remove_iff gone id).mpr ⟨present, Ne.symm other⟩
      rw [same, stays] at absent
      cases absent
    rw [← taken]
    exact why

end Tables

/-! ## The probes -/

section Probes

variable {w : Watch α} {m : Move α} {p q : Probe α}

/-- A probe passes to its ping in a move: it is its turn, its contact waits and is stored. -/
def Pings (w : Watch α) (m : Move α) (p : Probe α) : Prop :=
  (∃ aware reply, m = .turn p.serial aware reply) ∧ p ∈ w.monitor.probes ∧ p.phase ≠ .pinging ∧
    w.monitor.isRefreshing p.contact.id = true ∧
    w.monitor.table.contains p.contact.id = true

/-- A probe that is under way after a move was so before, has just been started, or passes to its
ping in this move. -/
theorem of_mem_move (listed : q ∈ (w.move m).monitor.probes) :
    q ∈ w.monitor.probes ∨ (w.move m).monitor.Begun w.monitor.started q ∨
      ∃ p, w.Pings m p ∧ q = { p with phase := .pinging, since := w.now } := by
  cases m with
  | wait millis => exact .inl listed
  | close => exact .inl listed
  | remove id => exact .inl listed
  | hear c => exact (Monitor.of_mem_heard listed).imp_right .inl
  | complain id =>
    left
    simp only [move, Monitor.requestFailed] at listed
    split at listed
    · exact listed
    · split at listed <;> exact listed
  | turn serial aware reply =>
    cases ended : w.verdict (.turn serial aware reply) with
    | some ending =>
      obtain ⟨p, came⟩ := ending
      obtain ⟨-, -, known, -⟩ := verdict_eq_some_iff.mp ended
      rw [move_of_verdict ended] at listed ⊢
      exact (Monitor.of_mem_pinged known listed).imp_right .inl
    | none =>
      rw [move] at listed
      rcases turn_of_no_verdict ended with same | same | ⟨p, known, phase, same⟩
      · rw [same] at listed
        exact .inl listed
      · rw [same] at listed
        unfold Monitor.abandon at listed
        split at listed
        · exact .inl listed
        · exact .inl (Monitor.mem_dropProbe.mp listed).1
      · rw [same] at listed
        rcases Monitor.wake_cases w.now known with ⟨-, woken⟩ | ⟨-, -, woken⟩ | ⟨waits, held, woken⟩
        · rw [woken] at listed
          exact .inl (Monitor.mem_dropProbe.mp listed).1
        · rw [woken, Monitor.abandon_known known] at listed
          exact .inl (Monitor.mem_dropProbe.mp listed).1
        · rw [woken] at listed
          rcases List.mem_append.mp listed with left | moved
          · exact .inl (Monitor.mem_dropProbe.mp left).1
          · obtain ⟨member, rfl⟩ := Monitor.mem_of_probe? known
            refine .inr (.inr ⟨p, ⟨⟨aware, reply, rfl⟩, member, phase, waits, held⟩, ?_⟩)
            exact List.mem_singleton.mp moved

end Probes

end Watch

end Overlay
