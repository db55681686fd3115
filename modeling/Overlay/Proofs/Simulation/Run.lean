import Overlay.Proofs.Simulation.Bootstrap
import Overlay.Proofs.Simulation.Churn

/-!
# Simulations played to their end

A scenario that can be played is played to its end, whatever is drawn at random, if its nodes have
different identifiers, pings wait longer than requests take, and churn leaves somebody online. Every
node bootstraps with all its contacts online; exactly the share of nodes that churn asks for goes
offline, and nobody whom others start from; and every lookup and every walk of the workload is
carried out, because there is always a node online to do it.
-/
namespace Overlay

/-! ## Who starts from whom -/

/-- Those of a list that are kept are counted one by one. -/
theorem length_filter_eq_sum {β : Type} (keep : β → Bool) (items : List β) :
    (items.filter keep).length = (items.map fun x => (keep x).toNat).sum := by
  induction items with
  | nil => rfl
  | cons x rest further =>
    rw [List.filter_cons, List.map_cons, List.sum_cons, ← further]
    cases keep x with
    | true => exact Nat.add_comm ..
    | false => exact (Nat.zero_add _).symm

/-- When everyone in a list of different identifiers starts from some of them other than itself,
each of these is started from by all others. -/
theorem sum_others {ids boot : List Id} (distinct : ids.Nodup) (listed : boot ⊆ ids) :
    (ids.map fun self => (boot.filter (· ≠ self)).length).sum = boot.length * (ids.length - 1) := by
  induction boot with
  | nil => simp
  | cons c rest further =>
    have others : (ids.filter fun self => c ≠ self).length = ids.length - 1 := by
      have erased : (ids.filter fun self => c ≠ self) = ids.erase c := by
        rw [distinct.erase_eq_filter]
        refine List.filter_congr fun self _ => ?_
        by_cases same : self = c
        · simp [same]
        · simp [same, Ne.symm same]
      rw [erased, List.length_erase_of_mem (listed List.mem_cons_self)]
    have split (self : Id) : ((c :: rest).filter (· ≠ self)).length =
        (decide (c ≠ self)).toNat + (rest.filter (· ≠ self)).length := by
      rw [length_filter_eq_sum, List.map_cons, List.sum_cons, ← length_filter_eq_sum]
    simp only [split]
    rw [List.sum_map_add, ← length_filter_eq_sum, others, further (List.cons_subset.mp listed).2,
      List.length_cons, Nat.succ_mul, Nat.add_comm]

namespace World

variable {w : World} {boot peers : List Peer} {config : Config}

/-- The random identifiers to come do not matter for how stations are started. -/
theorem Populated.draws (populated : w.Populated boot config peers) (randomness : Randomness) :
    { w with randomness := randomness }.Populated boot config peers :=
  ⟨populated.simulates, populated.now, populated.offline, populated.stations, populated.registry⟩

/-- There are as many stations as peers. -/
theorem Populated.size (populated : w.Populated boot config peers) :
    w.stations.size = peers.length := by
  rw [← Array.length_toList, populated.stations, List.length_map]

/-- Stations whose pings wait longer than requests take are prompt when they have been started. -/
theorem Populated.prompt (populated : w.Populated boot config peers)
    (distinct : (peers.map (·.id)).Nodup) (waits : w.simulated.latency < config.pingTimeout) :
    w.Prompt peers where
  patient := by
    refine ⟨populated.simulates, fun number s here => ?_⟩
    rw [populated.station?] at here
    obtain ⟨self, -, rfl⟩ := Option.map_eq_some_iff.mp here
    exact ⟨rfl, rfl, Nat.lt_of_le_of_lt (Nat.zero_le _) waits⟩
  waits number s here := by
    rw [populated.station?] at here
    obtain ⟨self, -, rfl⟩ := Option.map_eq_some_iff.mp here
    exact waits
  reaches c listed := by
    obtain ⟨number, here⟩ := List.getElem?_of_mem listed
    refine ⟨number, ?_, ?_, ?_⟩
    · rw [populated.size]
      exact (List.getElem?_eq_some_iff.mp here).1
    · rw [populated.registry distinct, here]
      rfl
    · rw [populated.offline]
      exact List.not_mem_nil

/-- What can be reached is online. -/
theorem Reaches.online {id : Id} (reaches : w.Reaches id) : w.simulated.isOnline id = true := by
  obtain ⟨number, -, here, online⟩ := reaches
  rw [Simulated.isOnline, here]
  simpa using online

/-- A node starts from all others that it is given. -/
theorem Populated.boots (populated : w.Populated boot config peers) (number : Nat) :
    w.boots number =
      ((peers[number]?).map fun self => boot.filter fun c => c.id ≠ self.id).getD [] := by
  rw [World.boots, populated.station?]
  cases peers[number]? <;> rfl

/-- Together the nodes start as often from somebody as there are others for each contact to start
from. -/
theorem Populated.total_boots (populated : w.Populated boot config peers)
    (distinct : (peers.map (·.id)).Nodup) (listed : boot ⊆ peers) :
    total ((List.range peers.length).map fun number => (w.boots number).length) =
      boot.length * (peers.length - 1) := by
  have each : ((List.range peers.length).map fun number => (w.boots number).length) =
      (peers.map (·.id)).map fun self => ((boot.map (·.id)).filter (· ≠ self)).length := by
    refine List.ext_getElem (by simp) fun number inside _ => ?_
    rw [List.length_map, List.length_range] at inside
    simp only [List.getElem_map, List.getElem_range, populated.boots,
      List.getElem?_eq_getElem inside, Option.map_some, Option.getD_some, List.filter_map,
      List.length_map]
    rfl
  have sum := sum_others distinct (List.map_subset (·.id) listed)
  rw [List.length_map, List.length_map] at sum
  rw [each, ← sum]
  rfl

end World

/-! ## The workload -/

namespace Simulation

/-- Somebody is online to carry out errands, at one of the stations, which are patient. -/
structure Ready (sim : Simulation) : Prop where
  /-- The stations are patient. -/
  patient : sim.world.Patient
  /-- There is one for every node. -/
  size : sim.world.stations.size = sim.peers.length
  /-- Somebody is online. -/
  someone : sim.online ≠ []

variable {sim later : Simulation}

/-- What happens leaves somebody to carry out errands. -/
theorem Ready.onward (ready : sim.Ready) (onward : sim.Onward later) : later.Ready := by
  refine ⟨ready.patient.later onward.world, ?_, onward.online ▸ ready.someone⟩
  rw [onward.peers, ← ready.size]
  exact onward.world.size

/-- Churn leaves somebody to carry out errands, if it leaves somebody online. -/
theorem Churned.ready {result : List Peer × Simulation} (churned : sim.Churned result)
    (patient : sim.world.Patient) (size : sim.world.stations.size = sim.peers.length)
    (someone : ∃ c ∈ sim.peers, result.2.world.simulated.isOnline c.id = true) :
    result.2.Ready where
  patient := by
    refine ⟨churned.silenced.simulates, fun number s here => patient.stations number s ?_⟩
    rwa [World.station?, churned.silenced.stations] at here
  size := by rw [churned.silenced.stations, churned.peers, size]
  someone := by
    obtain ⟨c, listed, online⟩ := someone
    obtain ⟨position, here⟩ := List.getElem?_of_mem listed
    refine List.ne_nil_of_mem (a := (c, position)) (List.mem_filter.mpr ⟨?_, online⟩)
    rw [churned.peers]
    exact List.mem_zipIdx_iff_getElem?.mpr here

/-- Somebody can be sent on an errand. -/
theorem Ready.exists_errand (ready : sim.Ready) :
    ∃ position target after, sim.drawErrand none = (some (position, target), after) ∧
      sim.Onward after ∧ ∃ s, after.world.station? position = some s := by
  obtain ⟨⟨peer, position⟩, listed, picked⟩ := exists_pick sim.draw.1 ready.someone
  refine ⟨position, sim.draw.2.draw.1, sim.draw.2.draw.2, ?_, ⟨rfl, rfl, .of_frame rfl⟩, ?_⟩
  · have picked' : pick sim.draw.1 sim.draw.2.online = some (peer, position) := picked
    have calm : Token.fired none sim.world.now = false := rfl
    rw [drawErrand, calm, if_neg Bool.false_ne_true]
    dsimp only
    rw [picked']
  · have inside : position < sim.world.stations.size := by
      obtain ⟨listed, -⟩ := List.mem_filter.mp listed
      rw [ready.size]
      exact (List.getElem?_eq_some_iff.mp (List.mem_zipIdx_iff_getElem?.mp listed)).1
    exact ⟨_, Array.getElem?_eq_getElem inside⟩

/-- So many errands are carried out one after the other, if each one can be. -/
theorem Ready.errands_converge {β : Type}
    (run : Nat → Simulation → Nat → Option (List β × Simulation))
    (errand : Nat → Simulation → Nat → Id → Option (β × Simulation))
    (zero : ∀ budget sim, run budget sim 0 = some ([], sim))
    (succ : ∀ budget sim count position target after,
      sim.drawErrand none = (some (position, target), after) → run budget sim (count + 1) =
        (errand budget after position target).bind fun e =>
          (run budget e.2 count).bind fun rest => some (e.1 :: rest.1, rest.2))
    (ends : ∀ {sim : Simulation} {position s} (target : Id), sim.Ready →
      sim.world.station? position = some s →
      ∃ e, Converges (fun budget => errand budget sim position target) e ∧ sim.Onward e.2)
    (ready : sim.Ready) (count : Nat) :
    ∃ results later, Converges (fun budget => run budget sim count) (results, later) ∧
      sim.Onward later ∧ results.length = count := by
  induction count generalizing sim with
  | zero =>
    refine ⟨[], sim, ?_, .refl sim, rfl⟩
    simp only [zero]
    exact .pure _
  | succ count further =>
    obtain ⟨position, target, after, drawn, onward, s, here⟩ := ready.exists_errand
    obtain ⟨⟨first, between⟩, converges, went⟩ := ends target (ready.onward onward) here
    have went := onward.trans went
    obtain ⟨results, later, rest, last, length⟩ := further (ready.onward went)
    refine ⟨first :: results, later, ?_, went.trans last, congrArg (· + 1) length⟩
    simp only [succ _ sim count position target after drawn]
    exact converges.bind (rest.bind (.pure _))

/-- All lookups of a workload are carried out. -/
theorem Ready.runLookups_converges (ready : sim.Ready) (count : Nat) :
    ∃ results later, Converges (fun budget => sim.runLookups budget none count) (results, later) ∧
      sim.Onward later ∧ results.length = count := by
  refine ready.errands_converge (fun budget sim count => sim.runLookups budget none count)
    (fun budget sim position target =>
      (sim.world.search budget position none target none).map fun e =>
        (.of (sim.closestOnline target sim.scenario.node.k) e.1, { sim with world := e.2 }))
    (fun _ _ => rfl) (fun budget sim count position target after drawn => ?_)
    (fun {sim position s} target ready here => ?_) count
  · rw [runLookups, drawn, Option.bind_map]
    rfl
  · obtain ⟨⟨found, w⟩, searched⟩ := ready.patient.search_converges here target none
    obtain ⟨budget, ran⟩ := searched.exists_eq
    exact ⟨_, searched.map _, rfl, rfl, (World.search_spec ran).1⟩

/-- All walks of a workload are carried out. -/
theorem Ready.runWalks_converges (ready : sim.Ready) (count : Nat) :
    ∃ results later, Converges (fun budget => sim.runWalks budget none count) (results, later) ∧
      sim.Onward later ∧ results.length = count := by
  refine ready.errands_converge (fun budget sim count => sim.runWalks budget none count)
    (fun budget sim position target =>
      (sim.world.discover budget position none target none).map fun e =>
        (e.1.nodes.length, { sim with world := e.2 }))
    (fun _ _ => rfl) (fun budget sim count position target after drawn => ?_)
    (fun {sim position s} target ready here => ?_) count
  · rw [runWalks, drawn, Option.bind_map]
    rfl
  · obtain ⟨⟨p, w⟩, walked⟩ := ready.patient.discover_converges here target none
    obtain ⟨budget, ran⟩ := walked.exists_eq
    exact ⟨_, walked.map _, rfl, rfl, World.discover_spec ran⟩

/-- The whole workload is carried out. -/
theorem Ready.runWorkload_converges (ready : sim.Ready) :
    ∃ lookups walks later,
      Converges (fun budget => sim.runWorkload budget none) ((lookups, walks), later) ∧
      lookups.length = sim.scenario.workload.lookups ∧
      walks.length = sim.scenario.workload.walks := by
  obtain ⟨lookups, between, searched, went, all⟩ :=
    ready.runLookups_converges sim.scenario.workload.lookups
  obtain ⟨walks, later, walked, -, all'⟩ :=
    (ready.onward went).runWalks_converges between.scenario.workload.walks
  exact ⟨lookups, walks, later, searched.bind (walked.bind (.pure _)), all,
    all'.trans (congrArg (·.workload.walks) went.scenario)⟩

/-! ## The whole run -/

/-- Played with whatever is drawn at random, a scenario that can be played comes to its end, if its
nodes have different identifiers, pings wait longer than requests take, and others start from
somebody or not all are to be taken offline. Then all nodes have bootstrapped, each contact to start
from has answered all other nodes, so many nodes have been taken offline as their share says, nobody
of whom others start from, and all lookups and walks of the workload have been carried out. -/
theorem run_completes {s : Scenario} (valid : s.validate = .ok ())
    (distinct : (((names s).map peerOf).map (·.id)).Nodup)
    (waits : s.network.latency < s.node.pingTimeout)
    (fewer : 0 < s.network.boot ∨ s.network.churn < 100) :
    ∃ start, build s = .ok start ∧ ∀ randomness : Randomness, ∃ booted report,
      let sim := { start with world := { start.world with randomness := randomness } }
      Converges (fun budget => sim.bootstrapAll budget none) (.ok (report.boot, booted)) ∧
        Converges (fun budget => sim.run budget none) (.ok report) ∧
        report.boot.nodes = s.network.nodes ∧
        report.boot.online = s.network.boot * (s.network.nodes - 1) ∧
        report.offline = (s.network.nodes - s.network.boot) * s.network.churn / 100 ∧
        (∀ c ∈ start.peers.take s.network.boot,
          booted.applyChurn.2.world.simulated.isOnline c.id = true) ∧
        report.lookups.length = s.workload.lookups ∧ report.walks.length = s.workload.walks := by
  obtain ⟨some, enough, most, -⟩ := Scenario.of_validate valid
  obtain ⟨start, built, rfl, peers, populated, latency⟩ := exists_build valid
  have count : start.peers.length = start.scenario.network.nodes := by
    rw [peers, List.length_map, names, List.length_map, List.length_range]
  rw [← peers] at distinct
  refine ⟨start, built, fun randomness => ?_⟩
  let sim := { start with world := { start.world with randomness := randomness } }
  have populated : sim.world.Populated (sim.peers.take sim.scenario.network.boot)
    sim.scenario.node sim.peers := populated.draws randomness
  have boot : (sim.peers.take sim.scenario.network.boot).length = sim.scenario.network.boot := by
    rw [List.length_take]
    exact Nat.min_eq_left (count ▸ enough)
  have prompt : sim.world.Prompt sim.peers :=
    populated.prompt distinct (lt_of_eq_of_lt latency waits)
  -- The bootstrap.
  obtain ⟨summary, booted, bootstraps, onward, nodes, online⟩ :=
    bootstrapAll_converges prompt populated.size fun number => by
      rw [populated.boots]
      cases sim.peers[number]? with
      | none => exact List.nil_subset _
      | some self => exact List.Subset.trans (List.filter_subset_self _) (List.take_subset _ _)
  rw [populated.total_boots distinct (List.take_subset _ _), boot] at online
  -- The churn.
  have reached : ∀ c ∈ booted.peers, booted.world.simulated.isOnline c.id = true :=
    fun c listed => ((prompt.reaches c (onward.peers ▸ listed)).later onward.world).online
  have churned : booted.Churned booted.applyChurn :=
    applyChurn_spec (prompt.later onward.world).patient.simulates (onward.peers ▸ distinct)
      (onward.scenario ▸ most)
  have ready : booted.applyChurn.2.Ready := by
    refine churned.ready (prompt.later onward.world).patient ?_ ?_
    · rw [onward.peers, ← populated.size]
      exact onward.world.size
    · refine churned.exists_online (onward.peers ▸ distinct) ?_ reached (onward.scenario ▸ fewer)
      rw [onward.peers]
      exact count ▸ some
  -- The workload.
  obtain ⟨lookups, walks, last, works, all, all'⟩ := ready.runWorkload_converges
  refine ⟨booted, ⟨summary, booted.applyChurn.1.length, lookups, walks,
    last.world.simulated.delivered, last.world.simulated.dropped⟩, bootstraps, ?_, ?_, ?_, ?_, ?_,
    ?_, ?_⟩
  · exact bootstraps.bind (works.bind (.pure _))
  · exact nodes.trans count
  · rw [← count]
    exact online
  · rw [churned.length, onward.scenario, onward.peers, ← count]
  · intro c listed
    refine churned.boot_online (onward.peers ▸ distinct) ?_ (reached c ?_)
    · rw [onward.peers, onward.scenario]
      exact listed
    · rw [onward.peers]
      exact List.mem_of_mem_take listed
  · rw [all, churned.scenario, onward.scenario]
  · rw [all', churned.scenario, onward.scenario]

/-- Two nodes, which start from the first; the other one is taken offline, and the first does all
the work. -/
def pair : Scenario where
  network := { nodes := 2, boot := 1, churn := 100 }
  workload := { lookups := 2, walks := 1 }

/-- The pair comes to the end of its run. -/
theorem run_completes_pair :
    ∃ start, build pair = .ok start ∧ ∀ randomness : Randomness, ∃ booted report,
      let sim := { start with world := { start.world with randomness := randomness } }
      Converges (fun budget => sim.bootstrapAll budget none) (.ok (report.boot, booted)) ∧
        Converges (fun budget => sim.run budget none) (.ok report) ∧
        report.boot.nodes = 2 ∧ report.boot.online = 1 ∧ report.offline = 1 ∧
        (∀ c ∈ start.peers.take 1, booted.applyChurn.2.world.simulated.isOnline c.id = true) ∧
        report.lookups.length = 2 ∧ report.walks.length = 1 :=
  run_completes (s := pair) (by decide) (by decide +kernel) (by decide) (.inl (by decide))

end Simulation

end Overlay
