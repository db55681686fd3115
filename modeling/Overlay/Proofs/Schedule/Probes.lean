import Mathlib.Algebra.Order.BigOperators.Group.List
import Mathlib.Algebra.Order.Ring.Nat
import Overlay.Proofs.Lookup.Termination
import Overlay.Proofs.Monitor.Run
import Overlay.Proofs.World.Frame

/-!
# Probes at an instant

Between two moments the probes of all stations come to rest: every turn of a probe lowers what can
still happen at this instant. A delay that is over is worth one turn, and ends in a ping that takes
its time. The end of a ping is worth three: it drops the probe, but both the message that the ping
was and its reply may start a new one.
-/
namespace Overlay

/-- How much can still happen to a probe at an instant, given the pings in flight. -/
def Probe.urgency (now : Nat) (pings : List (Nat × Flight)) (p : Probe String) : Nat :=
  match p.phase with
  | .delayed time => if time ≤ now then 1 else 0
  | .pinging =>
    match pings.lookup p.serial with
    | some flight => if flight.status now false = .airborne then 0 else 3
    | none => 0

/-- The probes of a station, and their pings in flight. -/
def Station.probing (s : Station) : List (Probe String) × List (Nat × Flight) :=
  (s.node.monitor.probes, s.pings)

/-- How much can still happen to the probes of a station at an instant. -/
def Station.urgency (now : Nat) (s : Station) : Nat :=
  (s.probing.1.map (Probe.urgency now s.probing.2)).sum

/-- The probes of all stations, and their pings in flight. -/
def World.probing (w : World) : List (List (Probe String) × List (Nat × Flight)) :=
  w.stations.toList.map Station.probing

/-- How much can still happen to the probes of a world at this instant. -/
def World.urgency (w : World) : Nat := (w.stations.toList.map (Station.urgency w.now)).sum

/-! ## Stations -/

/-- A message starts one probe at most, which has to wait. -/
theorem Monitor.probes_heard {α : Type} (m : Monitor α) (now : Nat) (c : Contact α) :
    (m.heard now c).2.probes = m.probes ∨
      ∃ p time, p.phase = .delayed time ∧ (m.heard now c).2.probes = m.probes ++ [p] := by
  rcases m.heard_cases now c with ⟨-, heard⟩ | ⟨stalest, -, heard⟩
  · rw [heard]
    exact .inl rfl
  · rw [heard]
    rcases (m.noted c).startProbe_cases now stalest with same | ⟨-, -, started⟩
    · rw [same]
      exact .inl rfl
    · rw [started]
      exact .inr ⟨_, _, rfl, rfl⟩

section Probes

variable (now : Nat) {pings : List (Nat × Flight)} {p : Probe String}

/-- A message raises what can still happen by one at most. -/
theorem urgency_heard (pings : List (Nat × Flight)) (m : Monitor String) (c : Peer) :
    ((m.heard now c).2.probes.map (Probe.urgency now pings)).sum ≤
      (m.probes.map (Probe.urgency now pings)).sum + 1 := by
  rcases m.probes_heard now c with same | ⟨p, time, delayed, started⟩
  · rw [same]
    exact Nat.le_succ _
  · have one : p.urgency now pings ≤ 1 := by
      rw [Probe.urgency, delayed]
      dsimp only
      split <;> omega
    rw [started, List.map_append, List.sum_append, List.map_singleton, List.sum_singleton]
    exact Nat.add_le_add_left one _

/-- Without the probes of a number, so much less can happen. -/
theorem urgency_dropProbe (pings : List (Nat × Flight)) {m : Monitor String}
    (listed : p ∈ m.probes) :
    ((m.dropProbe p.serial).probes.map (Probe.urgency now pings)).sum + p.urgency now pings ≤
      (m.probes.map (Probe.urgency now pings)).sum := by
  have perm := (List.filter_append_perm (fun q : Probe String => q.serial ≠ p.serial)
    m.probes).map (Probe.urgency now pings)
  rw [← perm.sum_eq, List.map_append, List.sum_append]
  refine Nat.add_le_add_left (List.le_sum_of_mem (List.mem_map_of_mem ?_)) _
  exact List.mem_filter.mpr ⟨listed, by simp⟩

/-- What can still happen to the other probes does not depend on the ping of a number. -/
theorem urgency_congr (m : Monitor String) {serial : Nat} {other : List (Nat × Flight)}
    (same : ∀ number, number ≠ serial → other.lookup number = pings.lookup number) :
    (m.dropProbe serial).probes.map (Probe.urgency now other) =
      (m.dropProbe serial).probes.map (Probe.urgency now pings) := by
  refine List.map_congr_left fun q listed => ?_
  rw [Probe.urgency, Probe.urgency, same q.serial (Monitor.mem_dropProbe.mp listed).2]

end Probes

/-! ## Worlds -/

namespace World

variable {w w' : World} {number serial : Nat} {s : Station}

/-- With the same probes and pings, as much can still happen. -/
theorem urgency_of_probing (same : w'.probing = w.probing) (now : w'.now = w.now) :
    w'.urgency = w.urgency := by
  have read (w : World) : w.urgency =
      (w.probing.map fun e => (e.1.map (Probe.urgency w.now e.2)).sum).sum := by
    rw [probing, List.map_map]
    rfl
  rw [read, read, same, now]

/-- With the same probes and pings, a station has the same probes and pings. -/
theorem station?_of_probing (same : w'.probing = w.probing) (here : w.station? number = some s) :
    ∃ s', w'.station? number = some s' ∧ s'.probing = s.probing := by
  have there := congrArg (fun all => all[number]?) same
  simp only [probing, List.getElem?_map, Array.getElem?_toList] at there
  rw [World.station?] at here
  rw [here] at there
  exact Option.map_eq_some_iff.mp there

/-- What can still happen changes with a station as much as it does there. -/
theorem urgency_modify (here : w.station? number = some s) (f : Station → Station) :
    (w.modify number f).urgency + s.urgency w.now = w.urgency + (f s).urgency w.now := by
  have fixed : w.modify number f = w.modify number fun _ => f s :=
    modify_congr fun other there => by rw [Option.some.inj (here.symm.trans there)]
  have listed : w.stations.toList[number]? = some s := by rwa [Array.getElem?_toList]
  have stations : (w.modify number f).stations.toList = w.stations.toList.set number (f s) := by
    rw [fixed, modify, Array.toList_modify, List.set_eq_modify]
  rw [urgency, stations]
  exact sum_map_set (Station.urgency w.now) listed (f s)

/-- Counting requests on their way leaves the probes. -/
theorem probing_addVisitor (w : World) (number : Nat) :
    (w.addVisitor number).probing = w.probing :=
  map_modify_of_same (p := Station.probing) (f := fun s => { s with visitors := s.visitors + 1 })
    (fun _ => rfl) w number

/-- Counting requests on their way leaves the probes, also of a station that closes. -/
theorem probing_removeVisitor (w : World) (number : Nat) :
    (w.removeVisitor number).probing = w.probing := by
  refine (map_modify_of_same (p := Station.probing) (fun s => ?_) _ number).trans
    (map_modify_of_same (p := Station.probing) (f := fun s => { s with visitors := s.visitors - 1 })
      (fun _ => rfl) w number)
  split <;> rfl

/-- Sending a request leaves the probes. -/
theorem probing_send (simulates : w.Simulates) (caller : Peer) (call : Call String) :
    (w.send caller call).2.probing = w.probing := by
  rcases send_cases simulates caller call with ⟨number, -, sent⟩ | ⟨-, sent⟩
  · rw [sent]
    exact probing_addVisitor w number
  · rw [sent, probing, stations_onSimulated]
    rfl

/-- Giving up a request leaves the probes. -/
theorem probing_giveUp (w : World) (f : Flight) : (w.giveUp f).probing = w.probing := by
  unfold giveUp
  split
  · rfl
  · exact probing_removeVisitor w _

/-- What a move does to the probes when it moves none of them: so many may be started, but none ends
and no ping comes or goes. -/
structure Stirs (w w' : World) (count : Nat) : Prop where
  /-- No time passes. -/
  now : w'.now = w.now
  /-- So many probes may be started. -/
  bounded : w'.urgency ≤ w.urgency + count
  /-- Probes and their pings are left. -/
  keeps : ∀ {number s}, w.station? number = some s → ∃ s', w'.station? number = some s' ∧
    s'.pings = s.pings ∧ s.node.monitor.probes ⊆ s'.node.monitor.probes

/-- A move that leaves all probes and pings starts none. -/
theorem Stirs.of_probing (same : w'.probing = w.probing) (now : w'.now = w.now) :
    w.Stirs w' 0 where
  now := now
  bounded := Nat.le_of_eq (urgency_of_probing same now)
  keeps here := by
    obtain ⟨s', there, probing⟩ := station?_of_probing same here
    obtain ⟨probes, pings⟩ := Prod.mk.inj probing
    exact ⟨s', there, pings, fun p listed => probes ▸ listed⟩

/-- Two such moves. -/
theorem Stirs.trans {last : World} {first second : Nat} (stirs : w.Stirs w' first)
    (later : w'.Stirs last second) : w.Stirs last (first + second) where
  now := later.now.trans stirs.now
  bounded := by
    have one := stirs.bounded
    have two := later.bounded
    omega
  keeps here := by
    obtain ⟨s', there, pings, probes⟩ := stirs.keeps here
    obtain ⟨last, at', pings', probes'⟩ := later.keeps there
    exact ⟨last, at', pings'.trans pings, List.Subset.trans probes probes'⟩

/-- A request that is handled can start one probe. -/
theorem stirs_handle (w : World) (number : Nat) (caller : Peer) (request : Request) :
    w.Stirs (w.handle number caller request).2 1 := by
  unfold handle
  split
  · exact ⟨rfl, Nat.le_succ _, fun {_ s} here => ⟨s, here, rfl, List.Subset.refl _⟩⟩
  · next host there =>
    refine ⟨rfl, ?_, fun {other s} here => ?_⟩
    · have changes := urgency_modify there fun s =>
        { s with node := (host.node.heard w.now caller).2 }
      have grows : Station.urgency w.now { host with node := (host.node.heard w.now caller).2 } ≤
          host.urgency w.now + 1 := urgency_heard ..
      show World.urgency (w.modify number _) ≤ _
      omega
    · have after := w.station?_modify number other fun s =>
        { s with node := (host.node.heard w.now caller).2 }
      by_cases same : number = other
      · rw [if_pos same, here] at after
        subst same
        obtain rfl := Option.some.inj (there.symm.trans here)
        exact ⟨_, after, rfl, fun p listed => Monitor.mem_heard w.now caller listed⟩
      · rw [if_neg same, here] at after
        exact ⟨s, after, rfl, List.Subset.refl _⟩

/-- A request that ends can start one probe. -/
theorem stirs_resolve {f : Flight} {fired : Bool} {reply : Reply String}
    (resolved : w.resolve f fired = some (reply, w')) : w.Stirs w' 1 := by
  have now : w'.now = w.now := congrArg World.Frame.now (frame_resolve resolved)
  cases ends_of_resolve resolved with
  | lands =>
    unfold land
    split
    · exact ⟨rfl, Nat.le_succ _, fun {_ s} here => ⟨s, here, rfl, List.Subset.refl _⟩⟩
    · next number bound =>
      have counted : w.Stirs w.countDelivery 0 := by
        refine .of_probing ?_ ?_
        · rw [countDelivery_eq, probing, stations_onSimulated]
          rfl
        · unfold countDelivery
          split <;> rfl
      have left := Stirs.of_probing
        (probing_removeVisitor (w.countDelivery.handle number f.caller f.request).2 number) rfl
      exact (counted.trans (stirs_handle ..)).trans left
  | lost fault own =>
    have given := Stirs.of_probing (w.probing_giveUp f) now
    exact ⟨given.now, Nat.le_succ_of_le given.bounded, given.keeps⟩

/-- The end of a ping drops its probe, but may start another. -/
theorem urgency_pinged {p : Probe String} (now : Nat) {m : Monitor String} (listed : p ∈ m.probes)
    (pings : List (Nat × Flight)) (reply : Reply String) :
    ((m.pinged now p.serial reply).probes.map
        (Probe.urgency now (pings.filter fun e => e.1 ≠ p.serial))).sum ≤
      ((m.dropProbe p.serial).probes.map (Probe.urgency now pings)).sum + 1 := by
  obtain ⟨q, known⟩ : ∃ q, m.probe? p.serial = some q :=
    Option.isSome_iff_exists.mp (List.find?_isSome.mpr ⟨p, listed, by simp⟩)
  have rest := urgency_congr now m fun other different =>
    (lookup_filter_ne pings p.serial other).trans (if_neg different)
  have dropped : ((m.dropProbe p.serial).probes.map
      (Probe.urgency now (pings.filter fun e => e.1 ≠ p.serial))).sum ≤
        ((m.dropProbe p.serial).probes.map (Probe.urgency now pings)).sum + 1 := by
    rw [rest]
    exact Nat.le_succ _
  rcases Monitor.pinged_cases now known reply with ⟨_, -, ended⟩ | ⟨-, ended⟩ | ⟨_, -, -, ended⟩
  · rw [ended, ← rest]
    exact urgency_heard ..
  · rw [ended, Monitor.abandon_known known]
    exact dropped
  · rw [ended]
    exact dropped

/-- The end of a ping lowers what can still happen by what it was worth, but may start a probe. -/
theorem urgency_endProbe {p : Probe String} (here : w.station? number = some s)
    (listed : p ∈ s.node.monitor.probes) (reply : Reply String) :
    (w.endProbe number p.serial reply).urgency + p.urgency w.now s.pings ≤ w.urgency + 1 := by
  have changes := urgency_modify here fun s =>
    { s with
      node := { s.node with monitor := s.node.monitor.pinged w.now p.serial reply }
      pings := s.pings.filter fun e => e.1 ≠ p.serial }
  have left : Station.urgency w.now
      { s with
        node := { s.node with monitor := s.node.monitor.pinged w.now p.serial reply }
        pings := s.pings.filter fun e => e.1 ≠ p.serial } ≤
      ((s.node.monitor.dropProbe p.serial).probes.map (Probe.urgency w.now s.pings)).sum + 1 :=
    urgency_pinged w.now listed s.pings reply
  have less := urgency_dropProbe w.now s.pings listed
  have before : s.urgency w.now =
      (s.node.monitor.probes.map (Probe.urgency w.now s.pings)).sum := rfl
  show World.urgency (w.modify number _) + _ ≤ _
  omega

/-! ## Turns of probes -/

/-- The stations of a simulated network are held, so that their probes go on, and their pings wait
for a reply. -/
structure Patient (w : World) : Prop where
  /-- The network is a simulated one. -/
  simulates : w.Simulates
  /-- Every station is held, its probes may go on, and its pings wait. -/
  stations : ∀ number s, w.station? number = some s →
    s.held = true ∧ s.node.monitor.closed = false ∧ 0 < s.node.config.pingTimeout

/-- A ping that has been sent takes its time, or it is turned away. -/
theorem resolve_send (simulates : w.Simulates) (latency : 0 < w.simulated.latency) (caller : Peer)
    (call : Call String) {limit : Nat} (limited : call.limit = some limit) (patient : 0 < limit) :
    ((w.send caller call).1.status w.now false = .airborne ∧
        (w.send caller call).2.resolve (w.send caller call).1 false = none) ∨
      ∃ fault, (w.send caller call).2.resolve (w.send caller call).1 false =
        some (.error fault, (w.send caller call).2) := by
  rcases send_cases simulates caller call with ⟨number, -, sent⟩ | ⟨-, sent⟩
  · have airborne : (w.send caller call).1.status w.now false = .airborne := by
      rw [sent]
      simp [Flight.status, Flight.due, limited, latency.ne', patient.ne']
    refine .inl ⟨airborne, ?_⟩
    have now : (w.send caller call).2.now = w.now := by rw [sent]; rfl
    rw [resolve, now, airborne]
  · refine .inr ⟨.unreachable (Simulated.label call.callee), ?_⟩
    rw [sent]
    have now : (w.onSimulated fun s => { s with dropped := s.dropped + 1 }).now = w.now := by
      unfold onSimulated
      split <;> rfl
    simp [resolve, now, Flight.status, Flight.due, land]

/-- A probe whose ping is under way can only wait. -/
theorem urgency_asked (now : Nat) (m : Monitor String) (pings : List (Nat × Flight))
    {q : Probe String} {flight : Flight} (phase : q.phase = .pinging)
    (airborne : flight.status now false = .airborne) :
    (((m.dropProbe q.serial).probes ++ [q]).map
        (Probe.urgency now ((q.serial, flight) :: pings))).sum =
      ((m.dropProbe q.serial).probes.map (Probe.urgency now pings)).sum := by
  have others (other : Nat) (different : other ≠ q.serial) :
      ((q.serial, flight) :: pings).lookup other = pings.lookup other := by
    rw [List.lookup_cons, beq_false_of_ne different]
  have waits : q.urgency now ((q.serial, flight) :: pings) = 0 := by
    rw [Probe.urgency, phase]
    simp [airborne]
  rw [List.map_append, List.sum_append, urgency_congr now m others, List.map_singleton,
    List.sum_singleton, waits, Nat.add_zero]

/-- A fault ends the probe of its ping and starts none. -/
theorem probes_pinged_error (now : Nat) {m : Monitor String} {p : Probe String}
    (listed : p ∈ m.probes) (fault : Fault) :
    (m.pinged now p.serial (.error fault)).probes = (m.dropProbe p.serial).probes := by
  obtain ⟨q, known⟩ : ∃ q, m.probe? p.serial = some q :=
    Option.isSome_iff_exists.mp (List.find?_isSome.mpr ⟨p, listed, by simp⟩)
  rcases Monitor.pinged_cases now known (.error fault) with ⟨_, real, -⟩ | ⟨-, ended⟩ |
    ⟨_, -, -, ended⟩
  · cases real
  · rw [ended, Monitor.abandon_known known]
    rfl
  · rw [ended]
    rfl

/-- A fault that ends a ping just sent leaves the other probes. -/
theorem probes_asked_error (now : Nat) {m asked : Monitor String} {q : Probe String}
    (probes : asked.probes = (m.dropProbe q.serial).probes ++ [q]) (fault : Fault) :
    (asked.pinged now q.serial (.error fault)).probes = (m.dropProbe q.serial).probes := by
  have listed : q ∈ asked.probes := by
    rw [probes]
    exact List.mem_append_right _ (List.mem_singleton_self _)
  rw [probes_pinged_error now listed fault, Monitor.dropProbe, probes, List.filter_append,
    Monitor.dropProbe, List.filter_filter]
  simp

/-- A station that only drops a probe has as much less that can happen. -/
theorem urgency_dropped {p : Probe String} (here : w.station? number = some s)
    (listed : p ∈ s.node.monitor.probes) {m : Monitor String}
    (probes : m.probes = (s.node.monitor.dropProbe p.serial).probes) :
    (w.setNode number { s.node with monitor := m }).urgency + p.urgency w.now s.pings ≤
      w.urgency := by
  have changes := urgency_modify here fun other =>
    { other with node := { s.node with monitor := m } }
  have left : Station.urgency w.now { s with node := { s.node with monitor := m } } =
      ((s.node.monitor.dropProbe p.serial).probes.map (Probe.urgency w.now s.pings)).sum := by
    rw [Station.urgency, Station.probing, probes]
  have less := urgency_dropProbe w.now s.pings listed
  have before : s.urgency w.now =
      (s.node.monitor.probes.map (Probe.urgency w.now s.pings)).sum := rfl
  show World.urgency (w.modify number _) + _ ≤ _
  omega

/-- A station that changes its probes and sends a request is left with these probes and its pings,
and what can still happen changes as at this station. -/
theorem exists_urgency_sent (simulates : w.Simulates) (here : w.station? number = some s)
    (node : Node String) (call : Call String) :
    ∃ s', ((w.setNode number node).send s.node.self call).2.station? number = some s' ∧
      s'.probing = (node.monitor.probes, s.pings) ∧
      ∀ f : Station → Station,
        (((w.setNode number node).send s.node.self call).2.modify number f).urgency +
          s.urgency w.now = w.urgency + (f s').urgency w.now := by
  have set := urgency_modify here fun other => { other with node := node }
  have there : (w.setNode number node).station? number = some { s with node := node } := by
    refine (w.station?_modify number number _).trans ?_
    rw [if_pos rfl, here]
    rfl
  have still := probing_send (w := w.setNode number node) simulates s.node.self call
  have now : ((w.setNode number node).send s.node.self call).2.now = w.now :=
    congrArg World.Frame.now ((w.setNode number node).frame_send s.node.self call)
  have sent := urgency_of_probing still now
  obtain ⟨s', at', probing⟩ := station?_of_probing still there
  have level : s'.urgency w.now = Station.urgency w.now { s with node := node } := by
    rw [Station.urgency, Station.urgency, probing]
  refine ⟨s', at', probing, fun f => ?_⟩
  have changes := urgency_modify at' f
  rw [now] at changes
  change (w.setNode number node).urgency + _ = _ at set
  omega

/-- The end of a delay lowers what can still happen. -/
theorem urgency_wakeProbe {p : Probe String} (patient : w.Patient)
    (latency : 0 < w.simulated.latency) (here : w.station? number = some s)
    (listed : p ∈ s.node.monitor.probes)
    (urgent : p.urgency w.now s.pings = 1) :
    (w.wakeProbe number p.serial s).urgency < w.urgency := by
  obtain ⟨q, known⟩ : ∃ q, s.node.monitor.probe? p.serial = some q :=
    Option.isSome_iff_exists.mp (List.find?_isSome.mpr ⟨p, listed, by simp⟩)
  have own : q.serial = p.serial := (Monitor.mem_of_probe? known).2
  have dropped {m : Monitor String}
      (probes : m.probes = (s.node.monitor.dropProbe p.serial).probes) :
      (w.setNode number { s.node with monitor := m }).urgency < w.urgency := by
    have less := urgency_dropped here listed probes
    omega
  unfold wakeProbe
  rcases Monitor.wake_cases w.now known with ⟨-, woken⟩ | ⟨-, -, woken⟩ | ⟨-, -, woken⟩
  · rw [woken]
    exact dropped rfl
  · rw [woken]
    exact dropped (by rw [Monitor.abandon_known known]; rfl)
  · rw [woken]
    dsimp only
    -- The ping is sent: from now the probe waits for its reply.
    let pinging : Probe String := { q with phase := .pinging, since := w.now }
    have same : pinging.serial = p.serial := own
    let m : Monitor String :=
      { s.node.monitor with probes := (s.node.monitor.dropProbe p.serial).probes ++ [pinging] }
    let call : Call String := ⟨q.contact, .ping, some s.node.monitor.config.pingTimeout⟩
    let asked := w.setNode number { s.node with monitor := m }
    obtain ⟨s', -, probing, changes⟩ :=
      exists_urgency_sent patient.simulates here { s.node with monitor := m } call
    obtain ⟨probes, pings⟩ := Prod.mk.inj probing
    have less := urgency_dropProbe w.now s.pings listed
    have settles (f : Station → Station) (left : (f s').urgency w.now =
        ((s.node.monitor.dropProbe p.serial).probes.map (Probe.urgency w.now s.pings)).sum) :
        ((asked.send s.node.self call).2.modify number f).urgency < w.urgency := by
      have before : s.urgency w.now =
          (s.node.monitor.probes.map (Probe.urgency w.now s.pings)).sum := rfl
      have after : ((asked.send s.node.self call).2.modify number f).urgency + _ = _ := changes f
      omega
    have simulates : asked.Simulates := patient.simulates
    rcases resolve_send simulates latency s.node.self call rfl
      (patient.stations number s here).2.2 with ⟨airborne, under⟩ | ⟨fault, ended⟩
    · rw [under]
      refine settles _ ?_
      rw [Station.urgency, Station.probing, probes, pings]
      have waits := urgency_asked w.now s.node.monitor s.pings (q := pinging) rfl airborne
      rwa [same] at waits
    · rw [ended]
      refine settles _ ?_
      have listing : s'.node.monitor.probes =
          (s.node.monitor.dropProbe pinging.serial).probes ++ [pinging] := by
        rw [same]
        exact probes
      have faulty := probes_asked_error (asked.send s.node.self call).2.now listing fault
      rw [same] at faulty
      rw [Station.urgency, Station.probing]
      dsimp only
      rw [faulty, pings]
      exact congrArg List.sum (urgency_congr w.now s.node.monitor fun other different =>
        (lookup_filter_ne s.pings p.serial other).trans (if_neg different))

/-- Over a network that takes its time, every turn of a probe lowers what can still happen. -/
theorem urgency_turnProbe {p : Probe String} (patient : w.Patient)
    (latency : 0 < w.simulated.latency) (here : w.station? number = some s)
    (listed : p ∈ s.node.monitor.probes)
    (made : w.turnProbe number p = some w') : w'.urgency < w.urgency := by
  unfold turnProbe at made
  simp only [here, Option.bind_eq_bind, Option.bind_some, (patient.stations number s here).2.1]
    at made
  rw [if_neg Bool.false_ne_true] at made
  split at made
  · next time phase =>
    split at made
    · next due =>
      obtain rfl := Option.some.inj made
      refine urgency_wakeProbe patient latency here listed ?_
      rw [Probe.urgency, phase]
      exact if_pos due
    · cases made
  · next phase =>
    obtain ⟨flight, sent, made⟩ := Option.bind_eq_some_iff.mp made
    obtain ⟨⟨reply, between⟩, resolved, made⟩ := Option.bind_eq_some_iff.mp made
    obtain rfl := Option.some.inj made
    have stirs := stirs_resolve resolved
    obtain ⟨s', there, pings, kept⟩ := stirs.keeps here
    have ends := urgency_endProbe there (kept listed) reply
    have urgent : p.urgency between.now s'.pings = 3 := by
      have landed : flight.status w.now false ≠ .airborne := by
        intro airborne
        rw [resolve, airborne] at resolved
        cases resolved
      rw [Probe.urgency, phase, pings, stirs.now]
      simp only [sent]
      exact if_neg landed
    have bounded := stirs.bounded
    show (between.endProbe number p.serial reply).urgency < w.urgency
    omega

/-- The probes come to rest: every turn of theirs lowers what can still happen. -/
theorem urgency_turnProbes (patient : w.Patient) (latency : 0 < w.simulated.latency)
    (made : w.turnProbes = some w') :
    w'.urgency < w.urgency := by
  unfold turnProbes at made
  obtain ⟨⟨number, p⟩, listed, made⟩ := List.exists_of_findSome?_eq_some made
  have listed := List.mem_mergeSort.mp listed
  obtain ⟨other, -, listed⟩ := List.mem_flatMap.mp listed
  split at listed
  · next s here =>
    obtain ⟨q, member, same⟩ := List.mem_map.mp listed
    obtain ⟨rfl, rfl⟩ := Prod.mk.inj same
    exact urgency_turnProbe patient latency here member made
  · cases listed

end World

end Overlay
