import Mathlib.Data.List.Perm.Subperm
import Overlay.Proofs.Simulation.Start

/-!
# Churn

After the bootstrap a share of the nodes that nobody starts from is taken offline: as many different
ones as the share asks for, rounded down. Everybody else stays online, and nothing else changes.
-/
namespace Overlay.Simulation

/-! ## Choosing -/

variable {sim : Simulation} {candidates : List Peer}

/-- Among some items, one is picked. -/
theorem exists_pick {β : Type} (draw : Id) {items : List β} (some : items ≠ []) :
    ∃ x ∈ items, pick draw items = .some x := by
  have inside : draw.word.toNat % items.length < items.length :=
    Nat.mod_lt _ (List.length_pos_iff.mpr some)
  exact ⟨_, List.getElem_mem inside, List.getElem?_eq_getElem inside⟩

/-- Without one of them, there is one candidate less, if they have different identifiers. -/
theorem length_others {peer : Peer} (distinct : (candidates.map (·.id)).Nodup)
    (listed : peer ∈ candidates) :
    (candidates.filter fun c => c.id ≠ peer.id).length + 1 = candidates.length := by
  have others : (candidates.filter fun c => c.id ≠ peer.id).map (·.id) =
      (candidates.map (·.id)).erase peer.id := by
    rw [distinct.erase_eq_filter, List.filter_map]
    refine congrArg _ (List.filter_congr fun c _ => ?_)
    by_cases same : c.id = peer.id <;> simp [same]
  have length := congrArg List.length others
  have member : peer.id ∈ candidates.map (·.id) := List.mem_map_of_mem listed
  rw [List.length_map, List.length_erase_of_mem member, List.length_map] at length
  have some := List.length_pos_of_mem listed
  omega

/-- What has been chosen: so many different candidates, at the cost of nothing but random
identifiers. -/
structure Chosen (sim : Simulation) (count : Nat) (candidates : List Peer)
    (result : List Peer × Simulation) : Prop where
  /-- So many have been chosen. -/
  length : result.1.length = count
  /-- All of them are candidates. -/
  listed : result.1 ⊆ candidates
  /-- They are different. -/
  distinct : (result.1.map (·.id)).Nodup
  /-- Only random identifiers have been taken. -/
  later : ∃ randomness,
    result.2 = { sim with world := { sim.world with randomness := randomness } }

/-- As many can be chosen as there are candidates with different identifiers. -/
theorem choose_spec (sim : Simulation) (candidates : List Peer) {count : Nat}
    (distinct : (candidates.map (·.id)).Nodup)
    (enough : count ≤ candidates.length) :
    Chosen sim count candidates (sim.choose count candidates) := by
  induction count generalizing sim candidates with
  | zero => exact ⟨rfl, List.nil_subset _, List.nodup_nil, sim.world.randomness, rfl⟩
  | succ count further =>
    obtain ⟨peer, member, picked⟩ := exists_pick sim.draw.1
      (List.length_pos_iff.mp (Nat.lt_of_lt_of_le count.succ_pos enough))
    let others := candidates.filter fun c => c.id ≠ peer.id
    have fewer : others.length + 1 = candidates.length := length_others distinct member
    obtain ⟨length, listed, apart, randomness, later⟩ := further sim.draw.2 others
      (distinct.sublist (List.filter_sublist.map _)) (by omega)
    have made : sim.choose (count + 1) candidates =
        (peer :: (sim.draw.2.choose count others).1, (sim.draw.2.choose count others).2) := by
      rw [choose]
      simp only [picked]
      rfl
    rw [made]
    refine ⟨congrArg (· + 1) length, ?_, ?_, randomness, later⟩
    · refine List.cons_subset.mpr ⟨member, fun c chosen => ?_⟩
      exact (List.mem_filter.mp (listed chosen)).1
    · refine List.nodup_cons.mpr ⟨fun again => ?_, apart⟩
      obtain ⟨c, chosen, same⟩ := List.mem_map.mp again
      exact of_decide_eq_true (List.mem_filter.mp (listed chosen)).2 same

/-! ## Taking offline -/

/-- What it is to have some nodes of a world taken offline. -/
structure Silenced (w : World) (gone : List Peer) (w' : World) : Prop where
  /-- No time has passed. -/
  now : w'.now = w.now
  /-- The stations are the same. -/
  stations : w'.stations = w.stations
  /-- The network is still a simulated one. -/
  simulates : w'.Simulates
  /-- Requests take as long. -/
  latency : w'.simulated.latency = w.simulated.latency
  /-- A node is online if it was and has not been taken offline. -/
  online : ∀ id, w'.simulated.isOnline id =
    (w.simulated.isOnline id && !(gone.map (·.id)).contains id)

/-- An identifier that is taken offline is not online, and others are as they were. -/
theorem isOnline_setOffline (s : Simulated) (gone id : Id) :
    (s.setOffline gone).isOnline id = (s.isOnline id && !(gone == id)) := by
  have offline : (s.setOffline gone).offline.contains id =
      (s.offline.contains id || gone == id) := by
    unfold Simulated.setOffline
    split
    · next already =>
      by_cases same : gone = id
      · subst same
        rw [already, Bool.true_or]
      · rw [beq_false_of_ne same, Bool.or_false]
    · rw [List.contains_cons, Bool.or_comm]
      congr 1
      exact Bool.beq_comm
  have registry : (s.setOffline gone).station? id = s.station? id := by
    unfold Simulated.setOffline
    split <;> rfl
  rw [Simulated.isOnline, Simulated.isOnline, registry, offline, Bool.not_or, Bool.and_assoc]

/-- Some nodes can be taken offline one after the other. -/
theorem silenced_foldl {w : World} (simulates : w.Simulates) (gone : List Peer) :
    Silenced w gone (gone.foldl (fun w c => w.onSimulated fun s => s.setOffline c.id) w) := by
  induction gone generalizing w with
  | nil => exact ⟨rfl, rfl, simulates, rfl, fun id => by simp⟩
  | cons c rest further =>
    obtain ⟨next, simulated⟩ := simulates.onSimulated fun s => s.setOffline c.id
    obtain ⟨now, stations, simulates', latency, online⟩ := further next
    refine ⟨now.trans ?_, stations.trans (World.stations_onSimulated ..), simulates',
      latency.trans ?_, fun id => (online id).trans ?_⟩
    · rw [World.onSimulated]
      split <;> rfl
    · rw [simulated, Simulated.setOffline]
      split <;> rfl
    · rw [simulated, isOnline_setOffline, List.map_cons, List.contains_cons, Bool.not_or,
        Bool.and_assoc, Bool.beq_comm]

/-! ## The churn of a simulation -/

/-- What churn does to a simulation whose nodes have different identifiers: so many nodes that
nobody starts from, and nobody else, are taken offline. -/
structure Churned (sim : Simulation) (result : List Peer × Simulation) : Prop where
  /-- It is the same scenario. -/
  scenario : result.2.scenario = sim.scenario
  /-- The nodes are the same. -/
  peers : result.2.peers = sim.peers
  /-- A share of the nodes that nobody starts from has been chosen, rounded down. -/
  length : result.1.length = (sim.peers.length - sim.scenario.network.boot) *
    sim.scenario.network.churn / 100
  /-- Nobody starts from them. -/
  listed : result.1 ⊆ sim.peers.drop sim.scenario.network.boot
  /-- They have been taken offline. -/
  silenced : Silenced sim.world result.1 result.2.world

/-- A share of some nodes is no more than these nodes. -/
theorem share_le {count share : Nat} (most : share ≤ 100) : count * share / 100 ≤ count := by
  refine Nat.div_le_of_le_mul ?_
  rw [Nat.mul_comm 100]
  exact Nat.mul_le_mul_left count most

/-- Churn does this. -/
theorem applyChurn_spec (simulates : sim.world.Simulates) (distinct : (sim.peers.map (·.id)).Nodup)
    (most : sim.scenario.network.churn ≤ 100) : sim.Churned sim.applyChurn := by
  let rest := sim.peers.drop sim.scenario.network.boot
  obtain ⟨length, listed, -, randomness, later⟩ := choose_spec sim rest
    (distinct.sublist ((List.drop_sublist _ _).map _)) (share_le most)
  let chosen := (sim.choose (rest.length * sim.scenario.network.churn / 100) rest).1
  have silenced := silenced_foldl
    (w := { sim.world with randomness := randomness }) simulates chosen
  have made : sim.applyChurn = (chosen, { sim with
      world := chosen.foldl (fun w c => w.onSimulated fun s => s.setOffline c.id)
        { sim.world with randomness := randomness } }) := by
    rw [applyChurn]
    dsimp only
    rw [later]
  rw [made]
  refine ⟨rfl, rfl, length.trans ?_, listed, ?_⟩
  · rw [List.length_drop]
  · exact ⟨silenced.now, silenced.stations, silenced.simulates, silenced.latency, silenced.online⟩

variable {result : List Peer × Simulation}

/-- Nodes that others start from stay online. -/
theorem Churned.boot_online (churned : sim.Churned result)
    (distinct : (sim.peers.map (·.id)).Nodup) {c : Peer}
    (boot : c ∈ sim.peers.take sim.scenario.network.boot)
    (online : sim.world.simulated.isOnline c.id = true) :
    result.2.world.simulated.isOnline c.id = true := by
  rw [churned.silenced.online, online, Bool.true_and, Bool.not_eq_true', ← Bool.not_eq_true,
    List.contains_iff_mem]
  intro gone
  obtain ⟨other, chosen, same⟩ := List.mem_map.mp gone
  rw [← List.take_append_drop sim.scenario.network.boot sim.peers, List.map_append,
    List.nodup_append] at distinct
  exact distinct.2.2 c.id (List.mem_map_of_mem boot) other.id
    (List.mem_map_of_mem (churned.listed chosen)) same.symm

/-- Somebody stays online, if others start from somebody or not all are to be taken offline. -/
theorem Churned.exists_online (churned : sim.Churned result)
    (distinct : (sim.peers.map (·.id)).Nodup) (some : 0 < sim.peers.length)
    (online : ∀ c ∈ sim.peers, sim.world.simulated.isOnline c.id = true)
    (fewer : 0 < sim.scenario.network.boot ∨ sim.scenario.network.churn < 100) :
    ∃ c ∈ sim.peers, result.2.world.simulated.isOnline c.id = true := by
  by_cases boot : 0 < sim.scenario.network.boot
  · obtain ⟨first, rest, peers⟩ := List.exists_cons_of_length_pos some
    have listed : first ∈ sim.peers := peers ▸ List.mem_cons_self
    refine ⟨first, listed, churned.boot_online distinct ?_ (online first listed)⟩
    rw [peers, List.take_cons boot]
    exact List.mem_cons_self
  · -- All are candidates, but not all have been chosen.
    have none : sim.scenario.network.boot = 0 := by omega
    have less := fewer.resolve_left boot
    have length := churned.length
    rw [none, Nat.sub_zero] at length
    have spared : ∃ c ∈ sim.peers, c.id ∉ result.1.map (·.id) := by
      by_contra all
      have covered : sim.peers.map (·.id) ⊆ result.1.map (·.id) := by
        intro id listed
        obtain ⟨c, member, rfl⟩ := List.mem_map.mp listed
        by_contra free
        exact all ⟨c, member, free⟩
      have few := (distinct.subperm covered).length_le
      rw [List.length_map, List.length_map, length] at few
      have bound : sim.peers.length * sim.scenario.network.churn / 100 < sim.peers.length := by
        refine (Nat.div_lt_iff_lt_mul (by decide)).mpr ?_
        exact Nat.mul_lt_mul_of_pos_left less some
      omega
    obtain ⟨c, listed, free⟩ := spared
    refine ⟨c, listed, ?_⟩
    rw [churned.silenced.online, online c listed, Bool.true_and, Bool.not_eq_true',
      ← Bool.not_eq_true, List.contains_iff_mem]
    exact free

end Overlay.Simulation
