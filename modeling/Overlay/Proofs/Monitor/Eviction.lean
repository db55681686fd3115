import Overlay.Proofs.Monitor.Moves

/-!
# Evictions by probes

A probe removes its contact only after its ping has failed, and it sends this ping only while its
contact waits. Whoever has spoken during the delay of a probe waits no longer, unless the bucket
has been found full once more and another probe has been started since; so a message during the
delay saves its sender from the probe. A message that comes while the ping is under way does not:
the failure of the ping removes a contact that has just been heard from.
-/
namespace Overlay

variable {α : Type}

namespace Monitor

/-- If an identifier waits, a probe of it has been started with this number or a later one. -/
structure Renewed (first : Nat) (id : Id) (m : Monitor α) : Prop where
  /-- Probes are numbered apart, and whoever waits has one. -/
  tended : m.Tended
  /-- The next probe gets this number or a later one. -/
  issued : first ≤ m.started
  /-- The probe of the identifier is such a one. -/
  renewed : id ∈ m.refreshing → ∃ q ∈ m.probes, q.contact.id = id ∧ first ≤ q.serial

section Renewed

variable {m : Monitor α} {first : Nat} {id : Id}

/-- Whatever happens, an identifier waits only for a probe that was started late enough. -/
theorem renewed_lasting (first : Nat) (id : Id) :
    Lasting fun _ => (Renewed first id : Monitor α → Prop) where
  stable now := by
    have tending := tended_lasting.stable (α := α) now
    constructor
    · intro m next alike holds
      refine ⟨tending.alike alike holds.tended, ?_, ?_⟩
      · rw [alike.started]
        exact holds.issued
      · rw [alike.refreshing, alike.probes]
        exact holds.renewed
    · intro m serial p known holds
      refine ⟨tending.finish known holds.tended, holds.issued, fun waits => ?_⟩
      obtain ⟨other, before⟩ := (List.Nodup.mem_erase_iff holds.tended.once).mp waits
      obtain ⟨q, listed, same, late⟩ := holds.renewed before
      refine ⟨q, mem_dropProbe.mpr ⟨listed, fun number => ?_⟩, same, late⟩
      -- The probe that ends is of another identifier.
      have found := holds.tended.probe?_serial listed
      rw [number, known] at found
      obtain rfl := Option.some.inj found
      exact other same.symm
    · intro m c holds
      refine ⟨tending.start c holds.tended, ?_, ?_⟩
      · rcases m.startProbe_cases now c with same | ⟨-, -, started⟩
        · rw [same]
          exact holds.issued
        · rw [started]
          exact Nat.le_succ_of_le holds.issued
      · rcases m.startProbe_cases now c with same | ⟨-, -, started⟩
        · rw [same]
          exact holds.renewed
        · rw [started]
          intro waits
          rcases List.mem_cons.mp waits with rfl | before
          · exact ⟨_, List.mem_append_right _ (List.mem_singleton.mpr rfl), rfl, holds.issued⟩
          · obtain ⟨q, listed, same, late⟩ := holds.renewed before
            exact ⟨q, List.mem_append_left _ listed, same, late⟩
    · intro m serial p known holds
      refine ⟨tending.pass known holds.tended, holds.issued, fun waits => ?_⟩
      obtain ⟨q, listed, same, late⟩ := holds.renewed waits
      by_cases own : q.serial = serial
      · have found := holds.tended.probe?_serial listed
        rw [own, known] at found
        obtain rfl := Option.some.inj found
        exact ⟨_, List.mem_append_right _ (List.mem_singleton.mpr rfl), same, late⟩
      · exact ⟨q, List.mem_append_left _ (mem_dropProbe.mpr ⟨listed, own⟩), same, late⟩
  settled _ _ other holds :=
    ⟨holds.tended.settled other, holds.issued,
      fun waits => holds.renewed (List.mem_of_mem_erase waits)⟩
  later _ holds := holds

/-- Whoever has just spoken does not wait. -/
theorem not_mem_heard (once : m.refreshing.Nodup) (now : Nat) (c : Contact α) :
    c.id ∉ (m.heard now c).2.refreshing := by
  have gone : c.id ∉ (m.noted c).refreshing := fun waits =>
    ((List.Nodup.mem_erase_iff once).mp waits).1 rfl
  rcases m.heard_cases now c with ⟨-, heard⟩ | ⟨stalest, named, heard⟩
  · rw [heard]
    exact gone
  · have other : stalest.id ≠ c.id := m.table.stalest_ne named
    rw [heard]
    rcases (m.noted c).startProbe_cases now stalest with same | ⟨-, -, started⟩
    · rw [same]
      exact gone
    · rw [started]
      intro waits
      rcases List.mem_cons.mp waits with same | before
      · exact other same.symm
      · exact gone before

end Renewed

end Monitor

namespace Watch

section Courses

variable {w : Watch α} {p q : Probe α}

/-- Whatever is played, probes are numbered apart, and whoever waits has one. -/
theorem tended_play (tended : w.monitor.Tended) (moves : List (Move α)) :
    (w.play moves).monitor.Tended :=
  play_lasting Monitor.tended_lasting tended moves

/-- Probes are counted upwards. -/
theorem started_le_move (w : Watch α) (m : Move α) :
    w.monitor.started ≤ (w.move m).monitor.started := by
  have lasting : Monitor.Lasting fun _ (next : Monitor α) => w.monitor.started ≤ next.started :=
    Monitor.frame_lasting fun _ _ _ _ more before => Nat.le_trans before more
  exact play_lasting lasting (Nat.le_refl _) [m]

/-- A probe with the number of an earlier one was under way then, as a probe of the same
contact. -/
theorem exists_of_mem_play (moves : List (Move α)) (listed : q ∈ (w.play moves).monitor.probes)
    (old : q.serial < w.monitor.started) :
    ∃ p ∈ w.monitor.probes, p.serial = q.serial ∧ p.contact = q.contact := by
  induction moves generalizing w with
  | nil => exact ⟨q, listed, rfl, rfl⟩
  | cons m moves further =>
    obtain ⟨p, before, number, contact⟩ :=
      further listed (Nat.lt_of_lt_of_le old (w.started_le_move m))
    rcases of_mem_move before with same | ⟨begun, -⟩ | ⟨r, ⟨-, member, -⟩, rfl⟩
    · exact ⟨p, same, number, contact⟩
    · omega
    · exact ⟨r, member, number, contact⟩

/-- A probe that has pinged has done so in some move, and was delayed until then. -/
theorem exists_pings (tended : w.monitor.Tended) (listed : p ∈ w.monitor.probes)
    (delayed : p.phase ≠ .pinging) (moves : List (Move α))
    (stays : q ∈ (w.play moves).monitor.probes) (number : q.serial = p.serial)
    (pinging : q.phase = .pinging) :
    ∃ delay ping flight, moves = delay ++ ping :: flight ∧ (w.play delay).Pings ping p := by
  have only {r : Probe α} (member : r ∈ w.monitor.probes) (same : r.serial = p.serial) : r = p :=
    List.inj_on_of_nodup_map tended.numbered member listed same
  induction moves generalizing w with
  | nil =>
    rw [only stays number] at pinging
    exact absurd pinging delayed
  | cons m moves further =>
    have next := tended_play tended [m]
    have old : q.serial < (w.move m).monitor.started := by
      rw [number]
      exact Nat.lt_of_lt_of_le (tended.issued p listed) (w.started_le_move m)
    obtain ⟨r, member, same, -⟩ := exists_of_mem_play moves stays old
    rw [number] at same
    rcases of_mem_move member with before | ⟨begun, -⟩ | ⟨r', pings, moved⟩
    · -- The probe is still delayed after this move.
      rw [only before same] at member
      have only' {r : Probe α} (among : r ∈ (w.move m).monitor.probes)
          (same : r.serial = p.serial) : r = p :=
        List.inj_on_of_nodup_map next.numbered among member same
      obtain ⟨delay, ping, flight, rfl, pings⟩ := further next member stays only'
      exact ⟨m :: delay, ping, flight, rfl, pings⟩
    · have issued := tended.issued p listed
      omega
    · have own : r'.serial = p.serial := by rw [← same, moved]
      rw [only pings.2.1 own] at pings
      exact ⟨[], m, moves, rfl, pings⟩

/-- Whoever has just shown to be alive does not wait. -/
theorem not_mem_of_alive {m : Move α} {c : Contact α} (tended : w.monitor.Tended)
    (alive : w.showsAlive m c) : c.id ∉ (w.move m).monitor.refreshing := by
  rcases alive with rfl | ⟨p, contacts, ended, rfl⟩
  · exact Monitor.not_mem_heard tended.once w.now c
  · obtain ⟨-, -, known, -⟩ := verdict_eq_some_iff.mp ended
    have answered : (w.move m).monitor =
        ((w.monitor.dropProbe p.serial).heard w.now p.contact).2 := by
      rw [move_of_verdict ended]
      simp only [Monitor.pinged, known]
    have once : (w.monitor.dropProbe p.serial).refreshing.Nodup := tended.once
    rw [answered]
    exact Monitor.not_mem_heard once w.now p.contact

/-- A contact that has shown to be alive and waits again has had another probe started
meanwhile. -/
theorem renewed_after_alive {m : Move α} {c : Contact α} (tended : w.monitor.Tended)
    (alive : w.showsAlive m c) (late : List (Move α))
    (waits : (w.play (m :: late)).monitor.isRefreshing c.id = true) :
    ∃ q ∈ (w.play (m :: late)).monitor.probes, q.contact.id = c.id ∧
      (w.move m).monitor.started ≤ q.serial := by
  have fresh : Monitor.Renewed (w.move m).monitor.started c.id (w.move m).monitor :=
    ⟨tended_play tended [m], Nat.le_refl _,
      fun waits => absurd waits (not_mem_of_alive tended alive)⟩
  have holds := play_lasting (Monitor.renewed_lasting _ c.id) fresh late
  exact holds.renewed (Monitor.isRefreshing_eq_true_iff.mp waits)

end Courses

/-- A probe removes its contact in a move. -/
def Evicts (w : Watch α) (p : Probe α) (m : Move α) : Prop :=
  (∃ aware reply, m = .turn p.serial aware reply) ∧
    w.monitor.table.contains p.contact.id = true ∧
    (w.move m).monitor.table.contains p.contact.id = false

/-- Whatever happens to a monitor, in any order: a probe that was delayed at some moment and removes
its contact later has pinged it in between and removes it because this ping has failed. When it
pinged, its contact waited; so if the contact had shown to be alive since that moment, another
probe of it had been started after that and was under way. Nothing is promised to a contact that
shows to be alive while the ping is under way. -/
theorem play_evicts (config : Config) {table : Table α} (reachable : table.Reachable)
    (moves course : List (Move α)) (m : Move α) (p : Probe α)
    (listed : p ∈ ((start config table).play moves).monitor.probes) (delayed : p.phase ≠ .pinging)
    (evicts : (((start config table).play moves).play course).Evicts p m) :
    let w := (start config table).play moves
    (w.play course).failsProbe m p.contact.id ∧
    ∃ delay ping flight, course = delay ++ ping :: flight ∧ (w.play delay).Pings ping p ∧
      ∀ early sign late c, delay = early ++ sign :: late → (w.play early).showsAlive sign c →
        c.id = p.contact.id → ∃ q ∈ (w.play delay).monitor.probes, q.contact.id = c.id ∧
          ((w.play early).move sign).monitor.started ≤ q.serial := by
  intro w
  obtain ⟨⟨aware, reply, rfl⟩, present, absent⟩ := evicts
  have tended : w.monitor.Tended := tended_play (start_attended config table).tended moves
  have sound : (w.play course).monitor.table.Sound :=
    sound_play (sound_play reachable.sound moves) course
  have fails : (w.play course).failsProbe (.turn p.serial aware reply) p.contact.id := by
    rcases leaves_move sound present absent with other | other | fails
    · cases other
    · cases other
    · exact fails
  -- The probe whose ping has failed is the one that was delayed before.
  obtain ⟨q, member, number, phase⟩ : ∃ q ∈ (w.play course).monitor.probes,
      q.serial = p.serial ∧ q.phase = .pinging := by
    obtain ⟨q, fault, ended, -⟩ := fails
    obtain ⟨_, own, known, phase, -⟩ := verdict_eq_some_iff.mp ended
    injection own with number
    exact ⟨q, (Monitor.mem_of_probe? known).1, number.symm, phase⟩
  obtain ⟨delay, ping, flight, rfl, pings⟩ :=
    exists_pings tended listed delayed course member number phase
  refine ⟨fails, delay, ping, flight, rfl, pings, ?_⟩
  rintro early sign late c rfl alive same
  obtain ⟨-, -, -, waits, -⟩ := pings
  rw [play_append, ← same] at waits
  rw [play_append]
  exact renewed_after_alive (tended_play tended early) alive late waits

/-- The stalest contact of a full bucket speaks during the delay of its probe, and the bucket is
found full once more with it as the stalest one; so the probe pings, in vain. -/
def relisted : List (Move Unit) :=
  .wait 50 :: filling ++ [.wait 150, .turn 0 true none, .wait 2000]

/-- The contact is removed although it has spoken during the delay, and another probe of it has been
started after its message. -/
theorem play_evicts_relisted :
    let w := (start narrow (.withDepth ⟨0⟩ narrow.k narrow.maxSplitDepth)).play filling
    let p : Probe Unit := ⟨0, ⟨⟨1⟩, ()⟩, .delayed narrow.probeDelay, 0⟩
    let m : Move Unit := .turn 0 true (some (.error .timeout))
    p ∈ w.monitor.probes ∧ (w.play relisted).Evicts p m ∧ (w.play relisted).failsProbe m ⟨1⟩ ∧
      ∃ delay ping flight, relisted = delay ++ ping :: flight ∧ (w.play delay).Pings ping p ∧
        ∀ early sign late c, delay = early ++ sign :: late → (w.play early).showsAlive sign c →
          c.id = ⟨1⟩ → ∃ q ∈ (w.play delay).monitor.probes, q.contact.id = c.id ∧
            ((w.play early).move sign).monitor.started ≤ q.serial := by
  intro w p m
  have listed : p ∈ w.monitor.probes := by decide +kernel
  have evicts : (w.play relisted).Evicts p m :=
    ⟨⟨true, some (.error .timeout), rfl⟩, by decide +kernel, by decide +kernel⟩
  have reachable : (Table.withDepth ⟨0⟩ narrow.k narrow.maxSplitDepth : Table Unit).Reachable :=
    ⟨⟨0⟩, narrow.k, narrow.maxSplitDepth, [], rfl⟩
  exact ⟨listed, evicts, play_evicts narrow reachable filling relisted m p listed nofun evicts⟩

/-- A probe pings its contact, which then speaks while the ping is under way. -/
def overheard : List (Move Unit) :=
  [.wait 200, .turn 0 true none, .wait 100, .hear ⟨⟨1⟩, ()⟩, .wait 1900]

/-- The contact has been heard from while its probe pinged, and is removed all the same when the
ping times out. -/
theorem evicts_overheard : narrow.validate = .ok () ∧
    ¬∀ (p : Probe Unit) (m : Move Unit),
      let w := (start narrow (.withDepth ⟨0⟩ narrow.k narrow.maxSplitDepth)).play filling
      p ∈ w.monitor.probes → (w.play overheard).Evicts p m →
        ∀ c, .hear c ∈ overheard → c.id ≠ p.contact.id := by
  refine ⟨by decide +kernel, fun claim => ?_⟩
  let p : Probe Unit := ⟨0, ⟨⟨1⟩, ()⟩, .delayed narrow.probeDelay, 0⟩
  have evicts : (((start narrow (.withDepth ⟨0⟩ narrow.k narrow.maxSplitDepth)).play
      filling).play overheard).Evicts p (.turn 0 true (some (.error .timeout))) :=
    ⟨⟨true, some (.error .timeout), rfl⟩, by decide +kernel, by decide +kernel⟩
  have spoken : .hear ⟨⟨1⟩, ()⟩ ∈ overheard := by simp [overheard]
  exact claim p _ (by decide +kernel) evicts ⟨⟨1⟩, ()⟩ spoken rfl

end Watch

end Overlay
