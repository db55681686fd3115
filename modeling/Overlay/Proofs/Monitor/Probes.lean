import Mathlib.Data.List.Nodup
import Overlay.Proofs.Monitor

/-!
# Probes and the contacts that wait for them

Whatever happens to a monitor, its probes and the contacts that wait for one change in four ways
only: a contact waits no longer, a probe ends and its contact waits no longer, a probe is started,
or a probe passes from its delay to its ping. `Stable` says that a property is kept by the last
three and does not depend on anything else; it is then kept by all that probes do. `Lasting` adds
that a contact may stop waiting and that time may pass, so that what lasts is kept by everything.
What is said of each probe lasts if it is true of a new one, whatever its number and delay. The
main invariant, `Tended`, is that nobody waits without a probe that is under way.
-/
namespace Overlay

variable {α : Type}

/-- The stalest contact that an offer names is another one than the contact offered. -/
theorem Table.stalest_ne (t : Table α) {c stalest : Contact α}
    (named : (t.add c).1.stalest = some stalest) : stalest.id ≠ c.id := by
  have apart (base : Table α) (named : (base.place c).1.stalest = some stalest) :
      stalest.id ≠ c.id := by
    rcases base.place_cases c with ⟨-, placed⟩ | ⟨absent, -, placed⟩ | ⟨-, -, placed⟩
    · simp [placed] at named
    · rw [placed] at named
      have stored : stalest ∈ (base.bucketOf c.id).entries := List.mem_of_getLast? named
      rw [Bucket.contains_eq_false_iff] at absent
      intro same
      apply absent
      exact List.mem_map.mpr ⟨stalest, stored, same⟩
    · simp [placed] at named
  rcases t.add_cases c with added | ⟨-, added⟩
  · rw [added] at named
    exact apart t named
  · rw [added] at named
    exact apart (t.divide c.id) named

namespace Monitor

/-- The monitor after a probe has passed to its ping. -/
def passed (m : Monitor α) (now serial : Nat) (p : Probe α) : Monitor α :=
  { m with
    probes := (m.dropProbe serial).probes ++ [{ p with phase := .pinging, since := now }] }

/-- The parts of a monitor on which the course of its probes depends. -/
structure Alike (m next : Monitor α) : Prop where
  config : next.config = m.config
  home : next.table.home = m.table.home
  refreshing : next.refreshing = m.refreshing
  probes : next.probes = m.probes
  started : next.started = m.started

/-- A property that is kept by whatever probes do at a time. -/
structure Stable (now : Nat) (P : Monitor α → Prop) : Prop where
  /-- It depends on the probes and on those who wait for them only. -/
  alike : ∀ {m next : Monitor α}, Alike m next → P m → P next
  /-- It is kept when a probe ends. -/
  finish : ∀ {m : Monitor α} {serial : Nat} {p : Probe α}, m.probe? serial = some p → P m →
    P ((m.dropProbe serial).settled p.contact.id)
  /-- It is kept when a probe is started. -/
  start : ∀ {m : Monitor α} (c : Contact α), P m → P (m.startProbe now c)
  /-- It is kept when a probe passes to its ping. -/
  pass : ∀ {m : Monitor α} {serial : Nat} {p : Probe α}, m.probe? serial = some p → P m →
    P (m.passed now serial p)

/-- Removing an identifier from the table is no matter for the probes. -/
theorem alike_remove (m : Monitor α) (id : Id) (failures : Recency Nat) :
    Alike m { m with table := (m.table.remove id).2, failures := failures } where
  config := rfl
  home := congrArg Prod.fst (m.table.frame_change (.withdraw id))
  refreshing := rfl
  probes := rfl
  started := rfl

/-- A message is no other matter for the probes than that its sender waits for none. -/
theorem alike_noted (m : Monitor α) (c : Contact α) : Alike (m.settled c.id) (m.noted c) where
  config := rfl
  home := congrArg Prod.fst (m.table.frame_change (.offer c))
  refreshing := rfl
  probes := rfl
  started := rfl

/-- Who waits is listed. -/
theorem isRefreshing_eq_true_iff {m : Monitor α} {id : Id} :
    m.isRefreshing id = true ↔ id ∈ m.refreshing := List.contains_iff_mem

/-- Who does not wait is not listed. -/
theorem isRefreshing_eq_false_iff {m : Monitor α} {id : Id} :
    m.isRefreshing id = false ↔ id ∉ m.refreshing := by
  rw [← isRefreshing_eq_true_iff, Bool.not_eq_true]

/-- Only a contact that waits can stop waiting. -/
theorem settled_of_free {m : Monitor α} {id : Id} (free : m.isRefreshing id = false) :
    m.settled id = m := by
  rw [settled, List.erase_of_not_mem (isRefreshing_eq_false_iff.mp free)]

namespace Stable

variable {now : Nat} {P : Monitor α → Prop} {m : Monitor α}

/-- A message keeps the property if its sender may stop waiting. -/
theorem heard (stable : Stable now P) {c : Contact α} (kept : P (m.settled c.id)) :
    P (m.heard now c).2 := by
  have noted : P (m.noted c) := stable.alike (m.alike_noted c) kept
  rcases m.heard_cases now c with ⟨-, heard⟩ | ⟨stalest, -, heard⟩
  · rw [heard]
    exact noted
  · rw [heard]
    exact stable.start stalest noted

theorem requestFailed (stable : Stable now P) (kept : P m) (id : Id) :
    P (m.requestFailed id).2 := by
  unfold Monitor.requestFailed
  by_cases own : id = m.table.home
  · rw [if_pos own]
    exact kept
  · rw [if_neg own]
    by_cases few : m.failureCount id + 1 < m.config.failureThreshold
    · have counted : Alike m { m with failures := m.failures.put id (m.failureCount id + 1) } :=
        ⟨rfl, rfl, rfl, rfl, rfl⟩
      rw [if_pos few]
      exact stable.alike counted kept
    · rw [if_neg few]
      exact stable.alike (m.alike_remove id _) kept

theorem remove (stable : Stable now P) (kept : P m) (id : Id) :
    P { m with table := (m.table.remove id).2 } :=
  stable.alike (m.alike_remove id m.failures) kept

theorem close (stable : Stable now P) (kept : P m) : P m.close := by
  have closed : Alike m m.close := ⟨rfl, rfl, rfl, rfl, rfl⟩
  exact stable.alike closed kept

theorem abandon (stable : Stable now P) (kept : P m) (serial : Nat) : P (m.abandon serial) := by
  cases known : m.probe? serial with
  | none =>
    rw [(m.unknown_probe now serial known (.ok [])).1]
    exact kept
  | some p =>
    rw [abandon_known known]
    exact stable.finish known kept

theorem wake (stable : Stable now P) (kept : P m) (serial : Nat) : P (m.wake now serial).2 := by
  cases known : m.probe? serial with
  | none =>
    rw [(m.unknown_probe now serial known (.ok [])).2.1]
    exact kept
  | some p =>
    rcases wake_cases now known with ⟨free, woken⟩ | ⟨-, -, woken⟩ | ⟨-, -, woken⟩
    · -- The contact has spoken, so there is nothing to settle any more.
      have same : (m.dropProbe serial).settled p.contact.id = m.dropProbe serial :=
        settled_of_free free
      rw [woken, ← same]
      exact stable.finish known kept
    · rw [woken]
      exact stable.abandon kept serial
    · rw [woken]
      exact stable.pass known kept

theorem pinged (stable : Stable now P) (kept : P m) (serial : Nat) (reply : Reply α) :
    P (m.pinged now serial reply) := by
  cases known : m.probe? serial with
  | none =>
    rw [(m.unknown_probe now serial known reply).2.2]
    exact kept
  | some p =>
    have finished := stable.finish known kept
    rcases pinged_cases now known reply with ⟨-, -, ended⟩ | ⟨-, ended⟩ | ⟨-, -, -, ended⟩
    · rw [ended]
      exact stable.heard finished
    · rw [ended]
      exact stable.abandon kept serial
    · rw [ended]
      exact stable.alike (((m.dropProbe serial).settled p.contact.id).alike_remove _ _) finished

end Stable

/-- A property that is kept by all that can happen to a monitor in the course of time. -/
structure Lasting (P : Nat → Monitor α → Prop) : Prop where
  /-- It is kept by whatever probes do. -/
  stable : ∀ now, Stable now (P now)
  /-- It is kept when a contact waits no longer. -/
  settled : ∀ (now : Nat) {m : Monitor α} (id : Id), P now m → P now (m.settled id)
  /-- It is kept by the passage of time. -/
  later : ∀ {now : Nat} {m : Monitor α} (millis : Nat), P now m → P (now + millis) m

/-- A probe that is found is under way under its number. -/
theorem mem_of_probe? {m : Monitor α} {serial : Nat} {p : Probe α}
    (known : m.probe? serial = some p) : p ∈ m.probes ∧ p.serial = serial :=
  ⟨List.mem_of_find?_eq_some known, by simpa using List.find?_some known⟩

/-- What starting a probe comes to. -/
theorem startProbe_cases (m : Monitor α) (now : Nat) (c : Contact α) :
    m.startProbe now c = m ∨
      (c.id ≠ m.table.home ∧ c.id ∉ m.refreshing ∧ m.startProbe now c = { m with
        refreshing := c.id :: m.refreshing
        probes := m.probes ++ [⟨m.started, c, .delayed (now + m.config.probeDelay), now⟩]
        started := m.started + 1 }) := by
  unfold startProbe
  by_cases needless : (decide (c.id = m.table.home) || m.isRefreshing c.id) = true
  · exact .inl (if_pos needless)
  · have due : c.id ≠ m.table.home ∧ c.id ∉ m.refreshing := by
      simpa [isRefreshing] using needless
    exact .inr ⟨due.1, due.2, if_neg needless⟩

section Lasting

variable {P Q : Nat → Monitor α → Prop} {I : Monitor α → Prop}

/-- Two properties that last do so together. -/
theorem Lasting.and (first : Lasting P) (second : Lasting Q) :
    Lasting fun now m => P now m ∧ Q now m where
  stable now := by
    constructor
    · intro m next alike both
      exact ⟨(first.stable now).alike alike both.1, (second.stable now).alike alike both.2⟩
    · intro m serial p known both
      exact ⟨(first.stable now).finish known both.1, (second.stable now).finish known both.2⟩
    · intro m c both
      exact ⟨(first.stable now).start c both.1, (second.stable now).start c both.2⟩
    · intro m serial p known both
      exact ⟨(first.stable now).pass known both.1, (second.stable now).pass known both.2⟩
  settled now _ id both := ⟨first.settled now id both.1, second.settled now id both.2⟩
  later millis both := ⟨first.later millis both.1, second.later millis both.2⟩

/-- The parameters and the home stay what they are, and probes are counted upwards. -/
theorem frame_lasting
    (kept : ∀ m next : Monitor α, next.config = m.config → next.table.home = m.table.home →
      m.started ≤ next.started → I m → I next) :
    Lasting fun _ => I where
  stable now := by
    constructor
    · intro m next alike holds
      exact kept m next alike.config alike.home (Nat.le_of_eq alike.started.symm) holds
    · intro m serial p _ holds
      exact kept m _ rfl rfl (Nat.le_refl _) holds
    · intro m c holds
      rcases m.startProbe_cases now c with same | ⟨-, -, started⟩
      · rw [same]
        exact holds
      · rw [started]
        exact kept m _ rfl rfl (Nat.le_succ _) holds
    · intro m serial p _ holds
      exact kept m _ rfl rfl (Nat.le_refl _) holds
  settled _ m _ holds := kept m _ rfl rfl (Nat.le_refl _) holds
  later _ holds := holds

/-- What is true of every probe stays so if it is true of a new one, and neither its ping nor the
passage of time makes it false. -/
theorem Lasting.each {F : Nat → Probe α → Prop} (lasting : Lasting fun _ => I)
    (fresh : ∀ (now : Nat) (m : Monitor α) (c : Contact α), I m → c.id ≠ m.table.home →
      F now ⟨m.started, c, .delayed (now + m.config.probeDelay), now⟩)
    (passes : ∀ {now p}, F now p → F now { p with phase := .pinging, since := now })
    (lasts : ∀ {now p} (millis : Nat), F now p → F (now + millis) p) :
    Lasting fun now m => I m ∧ ∀ p ∈ m.probes, F now p where
  stable now := by
    have stable := lasting.stable now
    constructor
    · rintro m next alike ⟨holds, all⟩
      refine ⟨stable.alike alike holds, ?_⟩
      rw [alike.probes]
      exact all
    · rintro m serial p known ⟨holds, all⟩
      exact ⟨stable.finish known holds, fun q left => all q (List.mem_of_mem_filter left)⟩
    · rintro m c ⟨holds, all⟩
      refine ⟨stable.start c holds, fun q listed => ?_⟩
      rcases m.startProbe_cases now c with same | ⟨other, -, started⟩
      · rw [same] at listed
        exact all q listed
      · rw [started] at listed
        rcases List.mem_append.mp listed with before | new
        · exact all q before
        · rw [List.mem_singleton.mp new]
          exact fresh now m c holds other
    · rintro m serial p known ⟨holds, all⟩
      refine ⟨stable.pass known holds, fun q stays => ?_⟩
      rcases List.mem_append.mp stays with left | moved
      · exact all q (List.mem_of_mem_filter left)
      · rw [List.mem_singleton.mp moved]
        exact passes (all p (mem_of_probe? known).1)
  settled now _ id holds := ⟨lasting.settled now id holds.1, holds.2⟩
  later millis holds := ⟨holds.1, fun p listed => lasts millis (holds.2 p listed)⟩

end Lasting

/-! ## Those who wait -/

/-- Probes are numbered apart, and whoever waits for one has one under way. -/
structure Tended (m : Monitor α) : Prop where
  /-- No two probes have the same number. -/
  numbered : (m.probes.map (·.serial)).Nodup
  /-- Numbers are given in order. -/
  issued : ∀ p ∈ m.probes, p.serial < m.started
  /-- Nobody waits twice. -/
  once : m.refreshing.Nodup
  /-- There is a probe of everybody who waits. -/
  tended : ∀ id ∈ m.refreshing, ∃ p ∈ m.probes, p.contact.id = id

section Tended

variable {m : Monitor α} {serial : Nat} {p : Probe α}

/-- A probe under way is found under its number. -/
theorem Tended.probe?_serial (tended : m.Tended) (listed : p ∈ m.probes) :
    m.probe? p.serial = some p := by
  cases known : m.probe? p.serial with
  | none =>
    have other := List.find?_eq_none.mp known p listed
    simp at other
  | some q =>
    obtain ⟨member, same⟩ := mem_of_probe? known
    rw [List.inj_on_of_nodup_map tended.numbered member listed same]

/-- A contact waits no longer after a message from it. -/
theorem Tended.settled (tended : m.Tended) (id : Id) : (m.settled id).Tended where
  numbered := tended.numbered
  issued := tended.issued
  once := tended.once.erase id
  tended other waits := tended.tended other (List.mem_of_mem_erase waits)

/-- The end of a probe leaves everybody else's probe under way. -/
theorem Tended.finish (tended : m.Tended) (known : m.probe? serial = some p) :
    ((m.dropProbe serial).settled p.contact.id).Tended where
  numbered := tended.numbered.sublist (List.filter_sublist.map _)
  issued q left := tended.issued q (List.mem_of_mem_filter left)
  once := tended.once.erase _
  tended := by
    intro id waits
    obtain ⟨different, before⟩ := (List.Nodup.mem_erase_iff tended.once).mp waits
    obtain ⟨q, listed, same⟩ := tended.tended id before
    have apart : q.serial ≠ serial := by
      intro equal
      have found := tended.probe?_serial listed
      rw [equal, known] at found
      obtain rfl := Option.some.inj found
      exact different same.symm
    exact ⟨q, List.mem_filter.mpr ⟨listed, by simpa using apart⟩, same⟩

/-- A probe that is started gets a number of its own. -/
theorem Tended.start (tended : m.Tended) (now : Nat) (c : Contact α) :
    (m.startProbe now c).Tended := by
  rcases m.startProbe_cases now c with same | ⟨-, free, started⟩
  · rw [same]
    exact tended
  · rw [started]
    constructor
    · have fresh : ∀ q ∈ m.probes, q.serial ≠ m.started := fun q listed =>
        Nat.ne_of_lt (tended.issued q listed)
      simpa [List.nodup_append, tended.numbered] using fresh
    · intro q listed
      rcases List.mem_append.mp listed with before | now
      · have issued := tended.issued q before
        dsimp only
        omega
      · rw [List.mem_singleton.mp now]
        exact Nat.lt_succ_self _
    · exact List.nodup_cons.mpr ⟨free, tended.once⟩
    · intro id waits
      rcases List.mem_cons.mp waits with rfl | before
      · exact ⟨_, List.mem_append_right _ (List.mem_singleton.mpr rfl), rfl⟩
      · obtain ⟨q, listed, same⟩ := tended.tended id before
        exact ⟨q, List.mem_append_left _ listed, same⟩

/-- A probe that passes to its ping keeps its number and its contact. -/
theorem Tended.pass (tended : m.Tended) (now : Nat) (known : m.probe? serial = some p) :
    (m.passed now serial p).Tended := by
  obtain ⟨listed, number⟩ := mem_of_probe? known
  constructor
  · have others : ∀ q ∈ (m.dropProbe serial).probes, q.serial ≠ p.serial := by
      intro q left
      rw [number]
      simpa using (List.mem_filter.mp left).2
    have left : ((m.dropProbe serial).probes.map (·.serial)).Nodup :=
      tended.numbered.sublist (List.filter_sublist.map _)
    simpa [passed, List.nodup_append, left] using others
  · intro q stays
    rcases List.mem_append.mp stays with left | moved
    · exact tended.issued q (List.mem_of_mem_filter left)
    · rw [List.mem_singleton.mp moved]
      exact tended.issued p listed
  · exact tended.once
  · intro id waits
    obtain ⟨q, member, same⟩ := tended.tended id waits
    by_cases own : q.serial = serial
    · -- The probe of this contact is the one that moves on.
      have found := tended.probe?_serial member
      rw [own, known] at found
      obtain rfl := Option.some.inj found
      exact ⟨_, List.mem_append_right _ (List.mem_singleton.mpr rfl), same⟩
    · refine ⟨q, List.mem_append_left _ ?_, same⟩
      exact List.mem_filter.mpr ⟨member, by simpa using own⟩

/-- Whatever happens, whoever waits for a probe has one under way. -/
theorem tended_lasting : Lasting fun _ => (Tended : Monitor α → Prop) where
  stable now := by
    constructor
    · rintro m next ⟨-, -, refreshing, probes, started⟩ tended
      constructor
      · rw [probes]
        exact tended.numbered
      · rw [probes, started]
        exact tended.issued
      · rw [refreshing]
        exact tended.once
      · rw [refreshing, probes]
        exact tended.tended
    · intro m serial p known tended
      exact tended.finish known
    · intro m c tended
      exact tended.start now c
    · intro m serial p known tended
      exact tended.pass now known
  settled _ _ id tended := tended.settled id
  later _ tended := tended

end Tended

/-! ## Delays -/

/-- Nobody waits without a probe, the parameters are the ones given, and no probe is delayed for
longer than they say. -/
def Attended (config : Config) (now : Nat) (m : Monitor α) : Prop :=
  (m.Tended ∧ m.config = config) ∧
    ∀ p ∈ m.probes, ∀ time, p.phase = .delayed time → time ≤ now + config.probeDelay

theorem Attended.tended {config : Config} {now : Nat} {m : Monitor α}
    (attended : m.Attended config now) : m.Tended := attended.1.1

/-- Whatever happens, nobody waits without a probe, and no probe is delayed for too long. -/
theorem attended_lasting (config : Config) :
    Lasting (Attended config : Nat → Monitor α → Prop) := by
  have framed : Lasting fun _ (m : Monitor α) => m.config = config :=
    frame_lasting fun _ _ same _ _ given => same.trans given
  apply (tended_lasting.and framed).each
  · rintro now m c ⟨-, given⟩ - time delayed
    rw [← given, ← Probe.Phase.delayed.inj delayed]
  · intro now p _ time delayed
    cases delayed
  · intro now p millis prompt time delayed
    have bound := prompt time delayed
    omega

end Monitor

end Overlay
