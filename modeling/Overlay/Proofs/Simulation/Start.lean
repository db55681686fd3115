import Overlay.Proofs.Schedule.Moves

/-!
# The start of a simulation

A scenario that can be played starts one station for each of its nodes, in their order: held, with
nothing on its way to it, and with a newborn node, which knows only itself. The network finds each
of them by its identifier, if no two have the same, and nobody is offline. From then on, whatever is
done, the scenario and the nodes stay the same, and the world stays in its frame.
-/
namespace Overlay

/-! ## Nodes -/

namespace Config

/-- Parameters that a node can work with ask for some node at least. -/
theorem width_pos {c : Config} (valid : c.validate = .ok ()) : 0 < c.k := by
  rcases Nat.eq_zero_or_pos c.k with none | some
  · have problem : c.problem? = some (.zero "k") := if_pos none
    rw [validate, problem] at valid
    cases valid
  · exact some

end Config

namespace Node

variable {α : Type}

/-- A node as it is when it is created: it knows only itself. -/
def newborn (self : Contact α) (boot : List (Contact α)) (config : Config) : Node α :=
  { bare self config with
    boot := boot.filter fun c => c.id ≠ self.id
    monitor := { (bare self config).monitor with
      table := ((bare self config).table.add self).2 } }

/-- A node that can work with its parameters is created. -/
theorem create_newborn (self : Contact α) (boot : List (Contact α)) {config : Config}
    (valid : config.validate = .ok ()) :
    create self boot config = .ok (newborn self boot config) := by
  rw [create, valid]
  rfl

end Node

/-! ## Scenarios -/

/-- What it takes for a scenario to be played. -/
theorem Scenario.of_validate {s : Scenario} (valid : s.validate = .ok ()) :
    0 < s.network.nodes ∧ s.network.boot ≤ s.network.nodes ∧ s.network.churn ≤ 100 ∧
      s.node.validate = .ok () := by
  unfold validate at valid
  split at valid
  · cases valid
  · next sound =>
    unfold problem? at sound
    split at sound
    · cases sound
    · next some =>
      split at sound
      · cases sound
      · next enough =>
        split at sound
        · cases sound
        · next share =>
          refine ⟨Nat.pos_of_ne_zero some, Nat.le_of_not_lt enough, Nat.le_of_not_lt share, ?_⟩
          rw [Config.validate, Option.map_eq_none_iff.mp sound]

/-! ## Stations -/

/-- A newly registered node is found by its identifier, all others as before. -/
theorem Simulated.station?_register (s : Simulated) (id other : Id) (number : Nat) :
    (s.register id number).station? other =
      if other = id then some number else s.station? other := by
  by_cases own : other = id
  · simp [Simulated.station?, Simulated.register, own]
  · have skipped : ¬id = other := fun same => own same.symm
    simp only [Simulated.station?, Simulated.register, List.find?_cons, skipped, decide_false,
      List.find?_filter, if_neg own]
    congr 2
    funext e
    by_cases here : e.1 = other
    · simp [here, own]
    · simp [here]

namespace World

/-- The world holds a station for each of these peers, in their order, as it is started. -/
structure Populated (w : World) (boot : List Peer) (config : Config) (peers : List Peer) :
    Prop where
  /-- The network is a simulated one. -/
  simulates : w.Simulates
  /-- No time has passed. -/
  now : w.now = 0
  /-- Nobody is offline. -/
  offline : w.simulated.offline = []
  /-- The stations are held by their makers, and their nodes are newborn. -/
  stations : w.stations.toList =
    peers.map fun self => ⟨.newborn self boot config, [], true, 0⟩
  /-- The network knows them by their identifiers. -/
  registry : (peers.map (·.id)).Nodup → ∀ id number,
    w.simulated.station? id = some number ↔ (peers[number]?).map (·.id) = some id

variable {w : World} {boot peers : List Peer} {config : Config}

/-- The world without nodes. -/
theorem populated_ofLatency (latency : Nat) (randomness : Randomness) (boot : List Peer)
    (config : Config) : (ofLatency latency randomness).Populated boot config [] where
  simulates := rfl
  now := rfl
  offline := rfl
  stations := rfl
  registry _ id number := by
    simp [simulated, ofLatency, Simulated.station?, Simulated.empty]

/-- The station of a number is that of the peer of this number. -/
theorem Populated.station? (populated : w.Populated boot config peers) (number : Nat) :
    w.station? number =
      (peers[number]?).map fun self => ⟨.newborn self boot config, [], true, 0⟩ := by
  rw [World.station?, ← Array.getElem?_toList, populated.stations, List.getElem?_map]

/-- In a list with one peer more, this one has the last number. -/
theorem known_concat {self : Peer} (distinct : ((peers ++ [self]).map (·.id)).Nodup) (id : Id)
    (number : Nat) :
    ((peers ++ [self])[number]?).map (·.id) = some id ↔
      if id = self.id then number = peers.length
      else (peers[number]?).map (·.id) = some id := by
  rw [List.map_append, List.nodup_append] at distinct
  obtain ⟨-, -, new⟩ := distinct
  have listed {i : Nat} {c : Peer} (here : peers[i]? = some c) : c.id ≠ self.id :=
    new c.id (List.mem_map_of_mem (List.mem_of_getElem? here)) self.id (List.mem_singleton_self _)
  rcases Nat.lt_trichotomy number peers.length with before | rfl | after
  · rw [List.getElem?_append_left before, List.getElem?_eq_getElem before]
    have other := listed (List.getElem?_eq_getElem before)
    by_cases own : id = self.id
    · simp [own, other, before.ne]
    · simp [own]
  · rw [List.getElem?_concat_length, List.getElem?_eq_none (Nat.le_refl _)]
    by_cases own : id = self.id
    · simp [own]
    · simp [own, Ne.symm own]
  · rw [List.getElem?_eq_none (by simp; omega), List.getElem?_eq_none (Nat.le_of_lt after)]
    simp [after.ne']

/-- One station more. -/
theorem Populated.spawn (populated : w.Populated boot config peers)
    (valid : config.validate = .ok ()) (self : Peer) :
    ∃ number w', w.spawn self boot config = .ok (number, w') ∧
      w'.Populated boot config (peers ++ [self]) ∧ w'.simulated.latency = w.simulated.latency := by
  have size : w.stations.size = peers.length := by
    rw [← Array.length_toList, populated.stations, List.length_map]
  let placed := (w.addStation (.newborn self boot config)).2
  have spawned : w.spawn self boot config =
      .ok (w.stations.size, placed.onSimulated fun s => s.register self.id w.stations.size) := by
    rw [World.spawn, Node.create_newborn self boot valid]
    rfl
  obtain ⟨simulates, simulated⟩ := Simulates.onSimulated (w := placed) populated.simulates
    fun s => s.register self.id w.stations.size
  have stations := stations_onSimulated placed fun s => s.register self.id w.stations.size
  refine ⟨_, _, spawned, ⟨simulates, ?_, ?_, ?_, fun distinct id number => ?_⟩, ?_⟩
  · refine Eq.trans ?_ populated.now
    rw [World.onSimulated]
    split <;> rfl
  · rw [simulated]
    exact populated.offline
  · rw [stations, List.map_append, ← populated.stations]
    simp only [placed, addStation, Array.toList_push]
    rfl
  · rw [simulated, Simulated.station?_register, size, known_concat distinct]
    rw [List.map_append, List.nodup_append] at distinct
    split
    · rw [Option.some.injEq, eq_comm]
    · exact populated.registry distinct.1 id number
  · rw [simulated]
    rfl

end World

namespace Simulation

/-- A station is started for each peer. -/
theorem exists_spawnAll {w : World} {boot done : List Peer} {config : Config}
    (populated : w.Populated boot config done) (valid : config.validate = .ok ())
    (peers : List Peer) :
    ∃ w', spawnAll w boot config peers = .ok w' ∧ w'.Populated boot config (done ++ peers) ∧
      w'.simulated.latency = w.simulated.latency := by
  induction peers generalizing w done with
  | nil => exact ⟨w, rfl, (List.append_nil done).symm ▸ populated, rfl⟩
  | cons self rest further =>
    obtain ⟨number, after, spawned, populated, latency⟩ := populated.spawn valid self
    obtain ⟨w', all, populated, latency'⟩ := further populated
    refine ⟨w', ?_, List.append_cons done self rest ▸ populated, latency'.trans latency⟩
    rw [spawnAll, spawned]
    exact all

/-- A scenario that can be played is started. -/
theorem exists_build {s : Scenario} (valid : s.validate = .ok ()) :
    ∃ sim, build s = .ok sim ∧ sim.scenario = s ∧ sim.peers = (names s).map peerOf ∧
      sim.world.Populated (sim.peers.take s.network.boot) s.node sim.peers ∧
      sim.world.simulated.latency = s.network.latency := by
  obtain ⟨-, -, -, working⟩ := Scenario.of_validate valid
  obtain ⟨w, all, populated, latency⟩ := exists_spawnAll
    (World.populated_ofLatency s.network.latency (.counter s.network.seed 0)
      (((names s).map peerOf).take s.network.boot) s.node) working ((names s).map peerOf)
  refine ⟨⟨s, (names s).map peerOf, w⟩, ?_, rfl, rfl, populated, latency⟩
  rw [build, valid]
  show (spawnAll _ _ _ _ >>= fun world => .ok _) = _
  rw [all]
  rfl

/-- What has been started is a scenario that can be played. -/
theorem build_spec {s : Scenario} {sim : Simulation} (built : build s = .ok sim) :
    s.validate = .ok () ∧ sim.scenario = s ∧ sim.peers = (names s).map peerOf ∧
      sim.world.Populated (sim.peers.take s.network.boot) s.node sim.peers ∧
      sim.world.simulated.latency = s.network.latency := by
  have valid : s.validate = .ok () := by
    cases checked : s.validate with
    | ok _ => rfl
    | error complaint =>
      rw [build, checked] at built
      cases built
  obtain ⟨same, built', rest⟩ := exists_build valid
  rw [built'] at built
  cases built
  exact ⟨valid, rest⟩

/-! ## What happens later -/

/-- What has happened in a simulation that is played on. -/
structure Onward (sim later : Simulation) : Prop where
  /-- It is the same scenario. -/
  scenario : later.scenario = sim.scenario
  /-- The nodes are the same. -/
  peers : later.peers = sim.peers
  /-- The world has stayed in its frame. -/
  world : sim.world.Later later.world

variable {sim later : Simulation}

/-- Nothing has happened. -/
theorem Onward.refl (sim : Simulation) : sim.Onward sim := ⟨rfl, rfl, .refl _⟩

/-- More has happened. -/
theorem Onward.trans {last : Simulation} (first : sim.Onward later) (second : later.Onward last) :
    sim.Onward last :=
  ⟨second.scenario.trans first.scenario, second.peers.trans first.peers,
    first.world.trans second.world⟩

/-- The same nodes are online. -/
theorem Onward.online (onward : sim.Onward later) : later.online = sim.online := by
  have registry := onward.world.same (·.registry) fun _ _ => rfl
  have offline := onward.world.same (·.offline) fun _ _ => rfl
  have same (id : Id) : later.world.simulated.isOnline id = sim.world.simulated.isOnline id := by
    change later.world.simulated.registry = sim.world.simulated.registry at registry
    change later.world.simulated.offline = sim.world.simulated.offline at offline
    rw [Simulated.isOnline, Simulated.isOnline, Simulated.station?, Simulated.station?, registry,
      offline]
  rw [Simulation.online, Simulation.online, onward.peers]
  simp only [same]

end Simulation

end Overlay
