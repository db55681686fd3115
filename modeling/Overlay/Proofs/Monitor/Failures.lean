import Overlay.Proofs.Monitor.Moves
import Overlay.Proofs.Tally

/-!
# What a monitor counts

A monitor that is played learns its news, move by move, and counts failures as a ledger does that
learns the same. So the count of a node never exceeds its failures since the last message of it,
the last failed probe of it or the last removal for its failures; and while fewer other nodes fail
in between than the monitor has room to count, exactly the failure that makes as many in a row as
are not tolerated removes it.
-/
namespace Overlay

variable {α : Type}

namespace Monitor

variable {m : Monitor α} {id : Id}

/-- A failure that is tolerated leaves the table as it is. -/
theorem requestFailed_tolerated (foreign : id ≠ m.table.home)
    (few : m.failureCount id + 1 < m.config.failureThreshold) :
    (m.requestFailed id).1 = false ∧ (m.requestFailed id).2.table = m.table := by
  simp only [requestFailed, if_neg foreign, if_pos few, and_self]

/-- A failure that is not tolerated removes the node, says so if it was stored, and starts the count
anew. -/
theorem requestFailed_removes (sound : m.table.Sound) (distinct : m.failures.Distinct)
    (foreign : id ≠ m.table.home)
    (many : m.config.failureThreshold ≤ m.failureCount id + 1) :
    (m.requestFailed id).1 = m.table.contains id ∧
      (m.requestFailed id).2.table = (m.table.remove id).2 ∧
      (m.requestFailed id).2.table.contains id = false ∧
      (m.requestFailed id).2.failureCount id = 0 := by
  have told : (m.table.remove id).1 = m.table.contains id := by
    rcases m.table.remove_cases id with ⟨stored, removed⟩ | ⟨absent, removed⟩
    · rw [removed, Table.contains, stored]
    · rw [removed, Table.contains, absent]
  have gone : (m.table.remove id).2.contains id = false := by
    have absent := (sound.contains_remove_iff id id).not.mpr fun stored => stored.2 rfl
    exact Bool.eq_false_iff.mpr absent
  have erased : ((m.failures.erase id).peek? id).getD 0 = 0 := by
    rw [distinct.peek?_erase id]
    rfl
  have request : m.requestFailed id = (m.table.contains id,
      { m with failures := m.failures.erase id, table := (m.table.remove id).2 }) := by
    simp only [requestFailed, if_neg foreign, if_neg (Nat.not_lt_of_le many), told]
  rw [request]
  exact ⟨rfl, rfl, gone, erased⟩

end Monitor

namespace Watch

open News (failing Uncrowded)

/-- What the monitor learns of others in some moves. -/
def tidings (w : Watch α) : List (Move α) → List (News α)
  | [] => []
  | m :: moves => w.news m ++ (w.move m).tidings moves

/-- A monitor counts failures as a ledger does that learns its news. -/
theorem tally_play (w : Watch α) (moves : List (Move α)) :
    (w.play moves).monitor.ledger.tally =
      (w.monitor.ledger.learnAll (w.tidings moves)).tally := by
  induction moves generalizing w with
  | nil => rfl
  | cons m moves further =>
    have alike : (w.move m).monitor.ledger.tally =
        (w.monitor.ledger.learnAll (w.news m)).tally := by
      rcases w.ledger_move m with learnt | ⟨id, rfl, removed⟩
      · rw [learnt]
      · -- A removal by the host is no matter for the counts.
        have home : (w.monitor.table.remove id).2.home = w.monitor.table.home :=
          congrArg (·.1) (w.monitor.table.frame_change (.withdraw id))
        rw [removed, Ledger.tally, home]
        rfl
    have split : w.monitor.ledger.learnAll (w.tidings (m :: moves)) =
        (w.monitor.ledger.learnAll (w.news m)).learnAll ((w.move m).tidings moves) :=
      List.foldl_append
    rw [split]
    exact (further (w.move m)).trans (Ledger.tally_learnAll alike _)

/-- Whatever happens to a monitor, its failure counts are those of the news since they were set
back. -/
theorem play_tallied (config : Config) {table : Table α} (reachable : table.Reachable)
    (positive : 0 < config.failureThreshold) (moves : List (Move α)) {id : Id}
    (foreign : id ≠ table.home) :
    ∃ past recent, (start config table).tidings moves = past ++ recent ∧
      (start config table).monitor.ledger.SinceReset id past recent ∧
      ((start config table).play moves).monitor.ledger.Tallied config.failureCacheSize id
        recent := by
  have clean : (start config table).monitor.ledger.Tallied config.failureCacheSize id [] := by
    constructor
    · exact ⟨reachable.sound, positive, nofun⟩
    · exact foreign
    · exact List.nodup_nil
    · exact Nat.le_max_right _ _
    · exact Nat.zero_le _
    · exact fun _ => .inl ⟨rfl, List.not_mem_nil⟩
  obtain ⟨past, recent, split, since, tallied⟩ :=
    clean.learnAll ((start config table).tidings moves)
  have sound : ((start config table).play moves).monitor.table.Sound :=
    sound_play reachable.sound moves
  have alike := (start config table).tally_play moves
  exact ⟨past, recent, split, since, tallied.of_tally alike sound⟩

/-- Whatever happens to a monitor, in any order, the count of another node stays below the failures
that are not tolerated, so that counting one more stays within 32 bits if these do. It never
exceeds the failures of this node since it was last set back: by a message of it, by a failed probe
of it, or by the failure that removed it. And if in between fewer different other nodes have failed
after any of its failures than there is room to count, it is their number; then a failure removes
the node exactly if it makes as many as are not tolerated, tells whether the node was stored, and
starts its count anew. -/
theorem play_failures (config : Config) {table : Table α} (reachable : table.Reachable)
    (positive : 0 < config.failureThreshold) (moves : List (Move α)) {id : Id}
    (foreign : id ≠ table.home) :
    let m := ((start config table).play moves).monitor
    m.failureCount id < config.failureThreshold ∧
    (config.failureThreshold ≤ Config.max32 → m.failureCount id + 1 ≤ Config.max32) ∧
    ∃ past recent, (start config table).tidings moves = past ++ recent ∧
      (start config table).monitor.ledger.SinceReset id past recent ∧
      m.failureCount id ≤ (failing recent).count id ∧
      (Uncrowded config.failureCacheSize id recent →
        m.failureCount id = (failing recent).count id ∧
        ((failing recent).count id + 1 < config.failureThreshold →
          (m.requestFailed id).1 = false ∧ (m.requestFailed id).2.table = m.table) ∧
        ((failing recent).count id + 1 = config.failureThreshold →
          (m.requestFailed id).1 = m.table.contains id ∧
          (m.requestFailed id).2.table = (m.table.remove id).2 ∧
          (m.requestFailed id).2.table.contains id = false ∧
          (m.requestFailed id).2.failureCount id = 0)) := by
  intro m
  obtain ⟨past, recent, split, since, tallied⟩ :=
    play_tallied config reachable positive moves foreign
  have given : m.config = config :=
    (play_lasting (Monitor.attended_lasting config) (start_attended config table) moves).1.2
  have below : m.failureCount id < m.config.failureThreshold := tallied.sound.count_lt id
  have exact (uncrowded : Uncrowded config.failureCacheSize id recent) :
      m.failureCount id = (failing recent).count id := (tallied.exact uncrowded).count_eq
  rw [given] at below
  refine ⟨below, fun small => by omega, past, recent, split, since, tallied.bounded, ?_⟩
  intro uncrowded
  refine ⟨exact uncrowded, fun few => ?_, fun many => ?_⟩
  · apply Monitor.requestFailed_tolerated tallied.foreign
    rw [given, exact uncrowded]
    exact few
  · apply Monitor.requestFailed_removes tallied.sound.table tallied.distinct tallied.foreign
    rw [given, exact uncrowded, many]

/-- A node that has been heard from fails twice, and another one in between. -/
def faltering : List (Move Unit) := [.hear ⟨⟨1⟩, ()⟩, .complain ⟨1⟩, .complain ⟨2⟩, .complain ⟨1⟩]

/-- There is room for two counts, and three failures in a row are not tolerated. -/
def sparing : Config := { failureThreshold := 3, failureCacheSize := 2 }

/-- Both failures are counted, and a third one removes the node. -/
theorem play_failures_faltering :
    let w := start sparing (.withDepth ⟨0⟩ sparing.k sparing.maxSplitDepth)
    0 < sparing.failureThreshold ∧ (⟨1⟩ : Id) ≠ w.monitor.table.home ∧
    (w.play faltering).monitor.failureCount ⟨1⟩ < sparing.failureThreshold ∧
    (∃ past recent, w.tidings faltering = past ++ recent ∧
      w.monitor.ledger.SinceReset ⟨1⟩ past recent ∧
      Uncrowded sparing.failureCacheSize ⟨1⟩ recent ∧ (failing recent).count ⟨1⟩ = 2) ∧
    ((w.play faltering).monitor.requestFailed ⟨1⟩).1 = true ∧
    ((w.play faltering).monitor.requestFailed ⟨1⟩).2.table.contains ⟨1⟩ = false := by
  dsimp only
  have reachable : (Table.withDepth ⟨0⟩ sparing.k sparing.maxSplitDepth : Table Unit).Reachable :=
    ⟨⟨0⟩, sparing.k, sparing.maxSplitDepth, [], rfl⟩
  have positive : 0 < sparing.failureThreshold := by decide
  have foreign : (⟨1⟩ : Id) ≠
      (Table.withDepth ⟨0⟩ sparing.k sparing.maxSplitDepth : Table Unit).home := by decide
  obtain ⟨below, -, past, recent, split, since, -, counted⟩ :=
    play_failures sparing reachable positive faltering foreign
  have uncrowded : Uncrowded sparing.failureCacheSize ⟨1⟩ recent := by
    apply News.uncrowded_of_few [⟨2⟩]
    · intro other failed
      have named : failing ((start sparing (.withDepth ⟨0⟩ sparing.k
          sparing.maxSplitDepth)).tidings faltering) = [⟨1⟩, ⟨2⟩, ⟨1⟩] := by
        decide +kernel
      rw [split, News.failing_append] at named
      have among : other ∈ [(⟨1⟩ : Id), ⟨2⟩, ⟨1⟩] := named ▸ List.mem_append_right _ failed
      simp only [List.mem_cons] at among ⊢
      tauto
    · decide
  obtain ⟨number, -, removes⟩ := counted uncrowded
  have twice : ((start sparing (.withDepth ⟨0⟩ sparing.k sparing.maxSplitDepth)).play
      faltering).monitor.failureCount ⟨1⟩ = 2 := by decide +kernel
  have stored : ((start sparing (.withDepth ⟨0⟩ sparing.k sparing.maxSplitDepth)).play
      faltering).monitor.table.contains ⟨1⟩ = true := by decide +kernel
  have two : (failing recent).count ⟨1⟩ = 2 := number.symm.trans twice
  have last : (failing recent).count ⟨1⟩ + 1 = sparing.failureThreshold := by rw [two]; rfl
  obtain ⟨told, -, gone, -⟩ := removes last
  refine ⟨positive, foreign, below, ⟨past, recent, split, since, uncrowded, two⟩, ?_, gone⟩
  exact told.trans stored

end Watch

end Overlay
