import Mathlib.Data.List.Induction
import Overlay.Proofs.Monitor.Eviction

/-!
# What a table knows of its contacts

A probe keeps its contact as it stood when the bucket was found full, and the reply to its ping is
taken for a message from the contact in this form. So what is stored for an identifier is what its
latest message said, unless a probe has overtaken this message: one that was under way when the
message came, with an older form of the contact, and whose ping was answered afterwards.
-/
namespace Overlay

variable {α : Type}

namespace Table

/-- After an offer, what is held for its identifier is the contact offered. -/
theorem Sound.eq_of_mem_add {t : Table α} (sound : t.Sound) {c d : Contact α}
    (held : d ∈ (t.add c).2.trie.entries) (same : d.id = c.id) : d = c := by
  rcases (sound.mem_add c d).mp held with ⟨-, equal⟩ | ⟨before, untaken⟩
  · exact equal
  · have stored : t.contains c.id = true := (sound.contains_iff c.id).mpr ⟨d, before, same⟩
    refine absurd ⟨same, ?_⟩ untaken
    rw [t.add_stored stored]
    exact nofun

end Table

namespace Watch

/-- There is no message of this identifier among the moves. -/
def Silent (id : Id) (moves : List (Move α)) : Prop := ∀ c, .hear c ∈ moves → c.id ≠ id

/-- Moves are silent, or there is a last message among them. -/
theorem silent_or_last (id : Id) (moves : List (Move α)) :
    Silent id moves ∨
      ∃ before c after, moves = before ++ .hear c :: after ∧ c.id = id ∧ Silent id after := by
  induction moves with
  | nil => exact .inl nofun
  | cons m moves further =>
    rcases further with silent | ⟨before, c, after, rfl, same, silent⟩
    · by_cases message : ∃ c, m = .hear c ∧ c.id = id
      · obtain ⟨c, rfl, same⟩ := message
        exact .inr ⟨[], c, moves, rfl, same, silent⟩
      · refine .inl fun c among => ?_
        rcases List.mem_cons.mp among with first | later
        · exact fun same => message ⟨c, first.symm, same⟩
        · exact silent c later
    · exact .inr ⟨m :: before, c, after, rfl, same, silent⟩

/-- A probe that is under way has this contact, and the moves bring an answer to its ping. -/
def Overtakes (w : Watch α) (moves : List (Move α)) (c : Contact α) : Prop :=
  ∃ p ∈ w.monitor.probes, p.contact = c ∧ ∃ flight reply rest q contacts,
    moves = flight ++ reply :: rest ∧
      (w.play flight).verdict reply = some (q, .ok contacts) ∧ q.serial = p.serial

/-- The table holds this contact already, or the moves bring it back from a probe. -/
def Accounts (w : Watch α) (moves : List (Move α)) (c : Contact α) : Prop :=
  c ∈ w.monitor.table.trie.entries ∨ w.Overtakes moves c

section Origins

variable {w : Watch α} {c : Contact α} {id : Id}

/-- One more move is not needed to account for a contact. -/
theorem Accounts.snoc {moves : List (Move α)} (accounts : w.Accounts moves c) (m : Move α) :
    w.Accounts (moves ++ [m]) c := by
  refine accounts.imp_right ?_
  rintro ⟨p, listed, own, flight, reply, rest, q, contacts, rfl, ended, number⟩
  exact ⟨p, listed, own, flight, reply, rest ++ [m], q, contacts, by simp, ended, number⟩

/-- A probe whose ping is answered after some moves was under way before them and has overtaken
them, or it has been started since. -/
theorem overtakes_of_verdict {moves : List (Move α)} {m : Move α} {p : Probe α}
    {contacts : List (Contact α)} (ended : (w.play moves).verdict m = some (p, .ok contacts)) :
    w.Overtakes (moves ++ [m]) p.contact ∨
      p ∈ (w.play moves).monitor.probes ∧ w.monitor.started ≤ p.serial := by
  obtain ⟨-, -, known, -⟩ := verdict_eq_some_iff.mp ended
  have listed := (Monitor.mem_of_probe? known).1
  by_cases old : p.serial < w.monitor.started
  · obtain ⟨q, before, number, own⟩ := exists_of_mem_play moves listed old
    exact .inl ⟨q, before, own, moves, m, [], p, contacts, rfl, ended, number.symm⟩
  · exact .inr ⟨listed, Nat.le_of_not_lt old⟩

/-- While there is no message of an identifier, whatever the table comes to hold for it was held
before or comes back from a probe that was under way; and the probes that are started meanwhile
have nothing else for their contact either. -/
theorem accounts_of_silent (tended : w.monitor.Tended) (sound : w.monitor.table.Sound)
    {moves : List (Move α)} (silent : Silent id moves) :
    (∀ c ∈ (w.play moves).monitor.table.trie.entries, c.id = id → w.Accounts moves c) ∧
      ∀ p ∈ (w.play moves).monitor.probes, p.contact.id = id → w.monitor.started ≤ p.serial →
        w.Accounts moves p.contact := by
  induction moves using List.reverseRecOn with
  | nil =>
    refine ⟨fun c held _ => .inl held, fun p listed _ new => ?_⟩
    exact absurd (tended.issued p listed) (Nat.not_lt_of_le new)
  | append_singleton moves m before =>
    obtain ⟨tables, probes⟩ := before fun c among => silent c (List.mem_append_left _ among)
    have last : w.play (moves ++ [m]) = (w.play moves).move m := w.play_append moves [m]
    have held : ∀ c ∈ (w.play (moves ++ [m])).monitor.table.trie.entries, c.id = id →
        w.Accounts (moves ++ [m]) c := by
      intro c held own
      rw [last] at held
      rcases held_move (sound_play sound moves) held with old | rfl | ⟨p, contacts, ended, rfl⟩
      · exact (tables c old own).snoc m
      · exact absurd own (silent c (List.mem_append_right _ (List.mem_singleton.mpr rfl)))
      · rcases overtakes_of_verdict ended with overtakes | ⟨listed, new⟩
        · exact .inr overtakes
        · exact (probes p listed own new).snoc m
    refine ⟨held, fun q listed own new => ?_⟩
    rw [last] at listed
    rcases of_mem_move listed with old | ⟨-, -, stored⟩ | ⟨p, ⟨-, member, -⟩, rfl⟩
    · exact (probes q old own new).snoc m
    · -- A probe is started with the contact as it is stored.
      rw [← last] at stored
      exact held q.contact stored own
    · exact (probes p member own new).snoc m

/-- What is held for an identifier after its last message is what this said, or a probe that was
under way when the message came has overtaken it. -/
theorem overtakes_of_last {w : Watch α} (tended : w.monitor.Tended)
    (sound : w.monitor.table.Sound) {c d : Contact α} {after : List (Move α)}
    (silent : Silent c.id after)
    (held : d ∈ (w.play (.hear c :: after)).monitor.table.trie.entries) (same : d.id = c.id) :
    d = c ∨ w.Overtakes (.hear c :: after) d := by
  have tended' := tended_play tended [.hear c]
  have sound' := sound_move sound (.hear c)
  have said {d : Contact α} (held : d ∈ (w.move (.hear c)).monitor.table.trie.entries)
      (same : d.id = c.id) : d = c := by
    have table : (w.move (.hear c)).monitor.table = (w.monitor.table.add c).2 :=
      congrArg Ledger.table (w.monitor.ledger_heard w.now c)
    rw [table] at held
    exact sound.eq_of_mem_add held same
  rcases (accounts_of_silent tended' sound' silent).1 d held same with
    held | ⟨p, listed, rfl, flight, reply, rest, q, contacts, rfl, ended, number⟩
  · exact .inl (said held same)
  · rcases of_mem_move (m := .hear c) listed with old | ⟨-, -, stored⟩ | ⟨r, ⟨⟨_, _, other⟩, -⟩, -⟩
    · exact .inr ⟨p, old, rfl, .hear c :: flight, reply, rest, q, contacts, rfl, ended, number⟩
    · exact .inl (said stored same)
    · cases other

end Origins

/-- Whatever happens to a monitor, in any order: what its table holds for an identifier is what the
last message of this identifier said, or what the table held from the start if there was none;
unless a probe that was under way when this message came has had its ping answered since, and the
table holds the contact as that probe has kept it. For the answer to a ping moves a stored contact
to the front of its bucket in the form in which the probe has it, whatever is stored by then, and
changes nothing else. -/
theorem play_informs (config : Config) {table : Table α} (reachable : table.Reachable)
    (moves : List (Move α)) :
    let w := (start config table).play moves
    (∀ d : Contact α, w.monitor.table.get? d.id = some d →
      (Silent d.id moves ∧ table.get? d.id = some d) ∨
      ∃ before c after, moves = before ++ .hear c :: after ∧ c.id = d.id ∧ Silent d.id after ∧
        (d = c ∨ ((start config table).play before).Overtakes (.hear c :: after) d)) ∧
    ∀ m p contacts, w.verdict m = some (p, .ok contacts) →
      w.monitor.table.contains p.contact.id = true →
      (w.move m).monitor.table = w.monitor.table.setBucket p.contact.id
        ((w.monitor.table.bucketOf p.contact.id).renew p.contact) := by
  intro w
  have tended : (start config table).monitor.Tended := (start_attended config table).tended
  have sound : (start config table).monitor.table.Sound := reachable.sound
  refine ⟨fun d found => ?_, fun m p contacts ended stored => ?_⟩
  · obtain ⟨held, -⟩ := ((sound_play sound moves).get?_eq_some_iff d.id d).mp found
    rcases silent_or_last d.id moves with silent | ⟨before, c, after, rfl, same, silent⟩
    · refine .inl ⟨silent, (reachable.sound.get?_eq_some_iff d.id d).mpr ⟨?_, rfl⟩⟩
      rcases (accounts_of_silent tended sound silent).1 d held rfl with old | ⟨p, listed, -⟩
      · exact old
      · -- At the start, no probe is under way.
        cases listed
    · refine .inr ⟨before, c, after, rfl, same, silent, ?_⟩
      rw [play_append] at held
      rw [← same] at silent
      exact overtakes_of_last (tended_play tended before) (sound_play sound before) silent held
        same.symm
  · obtain ⟨-, -, known, -⟩ := verdict_eq_some_iff.mp ended
    have learnt : (w.move m).monitor.table = (w.monitor.table.add p.contact).2 := by
      rw [move_of_verdict ended]
      exact congrArg Ledger.table (w.monitor.ledger_pinged w.now p.serial known (.ok contacts))
    rw [learnt, w.monitor.table.add_stored stored]

/-- The stalest contact of a full bucket sends a message with new information while the probe of it
pings. -/
def renamed : List (Move Bool) :=
  [.hear ⟨⟨1⟩, false⟩, .hear ⟨⟨2⟩, false⟩, .hear ⟨⟨3⟩, false⟩, .wait 200, .turn 0 true none,
    .hear ⟨⟨1⟩, true⟩]

/-- When its ping is answered, the probe has overtaken the message. -/
theorem play_informs_renamed :
    let table : Table Bool := .withDepth ⟨0⟩ narrow.k narrow.maxSplitDepth
    let d : Contact Bool := ⟨⟨1⟩, false⟩
    let moves := renamed ++ [.turn 0 true (some (.ok []))]
    ((start narrow table).play moves).monitor.table.get? ⟨1⟩ = some d ∧
      ((Silent d.id moves ∧ table.get? d.id = some d) ∨
      ∃ before c after, moves = before ++ .hear c :: after ∧ c.id = d.id ∧ Silent d.id after ∧
        (d = c ∨ ((start narrow table).play before).Overtakes (.hear c :: after) d)) := by
  intro table d moves
  have reachable : table.Reachable := ⟨⟨0⟩, narrow.k, narrow.maxSplitDepth, [], rfl⟩
  have found : ((start narrow table).play moves).monitor.table.get? ⟨1⟩ = some d := by
    decide +kernel
  exact ⟨found, (play_informs narrow reachable moves).1 d found⟩

/-- The new information is lost, though the contact has been stored ever since its message. -/
theorem informs_outdated : narrow.validate = .ok () ∧
    ¬∀ (before after : List (Move Bool)) (c d : Contact Bool), Silent c.id after →
      let w := (start narrow (.withDepth ⟨0⟩ narrow.k narrow.maxSplitDepth)).play
        (before ++ [.hear c])
      (∀ k, (w.play (after.take k)).monitor.table.contains c.id = true) →
      (w.play after).monitor.table.get? c.id = some d → d = c := by
  refine ⟨by decide +kernel, fun claim => ?_⟩
  have lost := claim
    [.hear ⟨⟨1⟩, false⟩, .hear ⟨⟨2⟩, false⟩, .hear ⟨⟨3⟩, false⟩, .wait 200, .turn 0 true none]
    [.turn 0 true (some (.ok []))] ⟨⟨1⟩, true⟩ ⟨⟨1⟩, false⟩ (by simp [Silent]) ?_
    (by decide +kernel)
  · exact absurd lost (by decide)
  · intro k
    cases k with
    | zero => decide +kernel
    | succ k =>
      rw [List.take_succ_cons, List.take_nil]
      decide +kernel

end Watch

end Overlay
