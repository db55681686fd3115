import Mathlib
import Overlay.Proofs.Schedule.Operations
import Overlay.Proofs.Simulation.Start

/-!
# The quality of lookups

Every lookup of a simulation is compared with the closest nodes that are online. It finds no node
twice, and no more than were wanted, in ascending distance to the target. So what it is credited
with is never more than the whole; and if that is the whole while as many nodes as are wanted are
online, the lookup has found exactly the closest nodes, in their order.
-/
namespace Overlay

/-! ## Shares -/

namespace Decimal

/-- A ratio that is at most a whole number is not rounded above it. -/
theorem roundRatio_le {num den bound : Nat} (positive : 0 < den) (small : num ≤ den * bound) :
    roundRatio num den ≤ bound := by
  have whole : den * (num / den) + num % den = num := Nat.div_add_mod num den
  have cases : num / den < bound ∨ num / den = bound ∧ num % den = 0 := by
    rcases Nat.lt_trichotomy (num / den) bound with less | same | more
    · exact .inl less
    · rw [same] at whole
      exact .inr ⟨same, by omega⟩
    · have above : den * bound < den * (num / den) := Nat.mul_lt_mul_of_pos_left more positive
      omega
  have parity : num / den % 2 < 2 := Nat.mod_lt _ Nat.two_pos
  unfold roundRatio
  dsimp only
  split
  · omega
  · split <;> omega

/-- The binary number nearest to a ratio that is at most one is at most one. -/
theorem Binary.ofRatio_le_one {num den : Nat} (positive : 0 < den) (small : num ≤ den) :
    (ofRatio num den).num ≤ (ofRatio num den).den := by
  have rounded (exponent : Int) (fraction : exponent ≤ 0) :
      (⟨atExponent num den exponent, exponent⟩ : Binary).num ≤
        (⟨atExponent num den exponent, exponent⟩ : Binary).den := by
    have whole : exponent.toNat = 0 := Int.toNat_eq_zero.mpr fraction
    simp only [Binary.num, Binary.den, atExponent, whole, Nat.pow_eq, Nat.pow_zero, Nat.mul_one]
    exact roundRatio_le positive (Nat.mul_le_mul_right _ small)
  unfold ofRatio
  split
  · decide
  · next some =>
    have logs : num.log2 ≤ den.log2 :=
      (Nat.le_log2 (Nat.pos_iff_ne_zero.mp positive)).mpr
        (Nat.le_trans (Nat.log2_self_le some) small)
    refine rounded _ ?_
    split <;> omega

end Decimal

namespace LookupMeasure

/-- The share of the nodes that should have been found, as an exact number. -/
def share (m : LookupMeasure) : ℚ := m.hits / (max 1 m.expected : Nat)

/-- No more nodes count as found than should have been found. -/
theorem hits_le (expected : List Id) (l : Lookup String) :
    (of expected l).hits ≤ (of expected l).expected := List.length_filter_le ..

/-- A share lies between nothing and the whole. -/
theorem share_bounds {m : LookupMeasure} (few : m.hits ≤ m.expected) :
    0 ≤ m.share ∧ m.share ≤ 1 ∧ m.overlap.num ≤ m.overlap.den := by
  have positive : 0 < max 1 m.expected := Nat.lt_of_lt_of_le Nat.zero_lt_one (Nat.le_max_left ..)
  have small : m.hits ≤ max 1 m.expected := Nat.le_trans few (Nat.le_max_right ..)
  refine ⟨div_nonneg (Nat.cast_nonneg _) (Nat.cast_nonneg _), ?_,
    Decimal.Binary.ofRatio_le_one positive small⟩
  rw [share, div_le_one (Nat.cast_pos.mpr positive)]
  exact Nat.cast_le.mpr small

/-- The share is the whole if everything that should have been found was found. -/
theorem hits_of_share {m : LookupMeasure} (whole : m.share = 1) : m.hits = max 1 m.expected := by
  have positive : (0 : ℚ) < (max 1 m.expected : Nat) :=
    Nat.cast_pos.mpr (Nat.lt_of_lt_of_le Nat.zero_lt_one (Nat.le_max_left ..))
  rw [share, div_eq_one_iff_eq positive.ne'] at whole
  exact Nat.cast_injective whole

/-- A lookup that has found all of the closest nodes, and no more nodes than they are, has found
them in their order. -/
theorem found_eq {target : Id} {count : Nat} {online set : Id → Prop} {expected : List Id}
    {l : Lookup String} (closest : Id.Closest target count online expected)
    (full : expected.length = count) (some : 0 < count)
    (found : Id.Closest target count set (l.closest.map (·.id)))
    (whole : (of expected l).share = 1) :
    l.closest.map (·.id) = expected ∧ (of expected l).exact = true := by
  have hits : (expected.filter (l.closest.map (·.id)).contains).length = expected.length := by
    have hits : (of expected l).hits = max 1 expected.length := hits_of_share whole
    rw [Nat.max_eq_right (full ▸ some)] at hits
    exact hits
  have all : expected ⊆ l.closest.map (·.id) := fun id listed =>
    List.contains_iff_mem.mp (List.length_filter_eq_length_iff.mp hits id listed)
  have perm : expected.Perm (l.closest.map (·.id)) :=
    (closest.nodup.subperm all).perm_of_length_le (full ▸ found.bounded)
  have same : l.closest.map (·.id) = expected := by
    refine (List.Perm.eq_of_pairwise (fun a b _ _ less more => ?_) closest.ascending found.ascending
      perm).symm
    rw [Id.distance_lt_iff] at less more
    omega
  refine ⟨same, ?_⟩
  show ((l.closest.map (·.id)).head? == expected.head?) = true
  rw [same]
  exact beq_self_eq_true _

end LookupMeasure

/-! ## Simulations -/

namespace Simulation

/-- Nodes have different identifiers, and look for so many nodes as the scenario says, at least
one. -/
structure Regular (sim : Simulation) : Prop where
  /-- No two nodes have the same identifier. -/
  distinct : (sim.peers.map (·.id)).Nodup
  /-- Lookups look for some node. -/
  wanted : 0 < sim.scenario.node.k
  /-- All nodes look for the same number of nodes. -/
  width : ∀ number s, sim.world.station? number = some s →
    s.node.config.k = sim.scenario.node.k

variable {sim later : Simulation}

/-- A simulation is regular when its stations have been started, if its nodes have different
identifiers. -/
theorem Regular.of_populated {boot : List Peer}
    (populated : sim.world.Populated boot sim.scenario.node sim.peers)
    (valid : sim.scenario.node.validate = .ok ()) (distinct : (sim.peers.map (·.id)).Nodup) :
    sim.Regular := by
  refine ⟨distinct, Config.width_pos valid, fun number s here => ?_⟩
  rw [populated.station?] at here
  obtain ⟨self, -, rfl⟩ := Option.map_eq_some_iff.mp here
  rfl

/-- What happens keeps a simulation regular. -/
theorem Regular.onward (regular : sim.Regular) (onward : sim.Onward later) : later.Regular := by
  refine ⟨onward.peers ▸ regular.distinct, onward.scenario ▸ regular.wanted,
    fun number s' there => ?_⟩
  obtain ⟨s, here, frame⟩ := onward.world.exists_station there
  have config : s'.node.config = s.node.config := congrArg (·.1.config) frame
  rw [config, onward.scenario]
  exact regular.width number s here

/-- A scenario whose nodes have different identifiers starts as a regular simulation. -/
theorem Regular.of_build {s : Scenario} (built : build s = .ok sim)
    (distinct : (((names s).map peerOf).map (·.id)).Nodup) : sim.Regular := by
  obtain ⟨valid, rfl, peers, populated, -⟩ := build_spec built
  exact .of_populated populated (Scenario.of_validate valid).2.2.2 (peers ▸ distinct)

/-- The nodes online that should be found are the closest ones. -/
theorem Regular.closestOnline (regular : sim.Regular) (target : Id) (count : Nat) :
    Id.Closest target count (· ∈ (sim.online.map (·.1)).map (·.id))
        (sim.closestOnline target count) ∧
      (sim.closestOnline target count).length = min count sim.online.length := by
  have listed : (sim.online.map (·.1)).Sublist sim.peers := by
    have listed := (List.filter_sublist (p := fun e : Peer × Nat =>
      sim.world.simulated.isOnline e.1.id) (l := sim.peers.zipIdx)).map Prod.fst
    rwa [List.zipIdx_map_fst] at listed
  have distinct := regular.distinct.sublist (listed.map (·.id))
  have perm := Contact.sortByDistance_perm target (sim.online.map (·.1))
  constructor
  · refine ((Contact.sortByDistance_strict target distinct).closest_take count).congr fun id => ?_
    exact (perm.map (·.id)).mem_iff
  · rw [Simulation.closestOnline, List.length_map, List.length_take, perm.length_eq,
      List.length_map]

/-- Drawing a node and a target only takes random identifiers. -/
theorem drawErrand_onward (token : Token) (sim : Simulation) :
    sim.Onward (sim.drawErrand token).2 := by
  unfold drawErrand
  split
  · exact .refl sim
  · dsimp only
    split
    · exact ⟨rfl, rfl, .of_frame rfl⟩
    · exact ⟨rfl, rfl, .of_frame rfl⟩

/-- A lookup has been measured: at some moment a node online searched for a target, and what it
found was compared with the closest nodes online at that moment. -/
structure Measured (sim : Simulation) (m : LookupMeasure) (moment : Simulation) (target : Id)
    (found : Lookup String) : Prop where
  /-- The moment lies in the simulation. -/
  onward : sim.Onward moment
  /-- The lookup was carried out then. -/
  searched : ∃ budget position token after,
    moment.world.search budget position token target none = some (found, after)
  /-- It was compared with the closest nodes online. -/
  compared : m = .of (moment.closestOnline target sim.scenario.node.k) found

/-- Every lookup is measured at some moment. -/
theorem exists_measured {budget count : Nat} {token : Token} {ms : List LookupMeasure}
    (ran : sim.runLookups budget token count = some (ms, later)) :
    sim.Onward later ∧ ∀ m ∈ ms, ∃ moment target found, sim.Measured m moment target found := by
  induction count generalizing sim ms with
  | zero =>
    cases ran
    exact ⟨.refl _, List.forall_mem_nil _⟩
  | succ count further =>
    have drawn := drawErrand_onward token sim
    unfold runLookups at ran
    cases errand : sim.drawErrand token with
    | mk choice moment =>
      rw [errand] at drawn
      cases choice with
      | none =>
        simp only [errand] at ran
        cases ran
        exact ⟨drawn, List.forall_mem_nil _⟩
      | some choice =>
        obtain ⟨position, target⟩ := choice
        simp only [errand] at ran
        obtain ⟨⟨found, after⟩, searched, going⟩ := Option.bind_eq_some_iff.mp ran
        obtain ⟨⟨rest, last⟩, others, made⟩ := Option.bind_eq_some_iff.mp going
        cases made
        have went : sim.Onward { moment with world := after } :=
          ⟨drawn.scenario, drawn.peers, drawn.world.trans (World.search_spec searched).1⟩
        obtain ⟨onward, measured⟩ := further others
        refine ⟨went.trans onward, fun m member => ?_⟩
        rcases List.mem_cons.mp member with rfl | member
        · refine ⟨moment, target, found, drawn, ⟨budget, position, token, after, searched⟩, ?_⟩
          rw [← drawn.scenario]
        · obtain ⟨moment', target', found', onward', searched', compared⟩ := measured m member
          exact ⟨moment', target', found', went.trans onward', searched',
            compared.trans (by rw [went.scenario])⟩

/-- Whatever the state of a simulation with different nodes, as many lookups are exact as there are
at most; each is credited with a share between nothing and the whole; and one that is credited with
the whole, while as many nodes as are wanted are online, has found exactly the closest nodes online,
in their order, and is exact. -/
theorem runLookups_measured {budget count : Nat} {token : Token} {ms : List LookupMeasure}
    (regular : sim.Regular) (ran : sim.runLookups budget token count = some (ms, later)) :
    LookupMeasure.exactCount ms ≤ ms.length ∧
      ∀ m ∈ ms, 0 ≤ m.share ∧ m.share ≤ 1 ∧ m.overlap.num ≤ m.overlap.den ∧
        ∃ moment target found, sim.Measured m moment target found ∧
          (sim.scenario.node.k ≤ moment.online.length → m.share = 1 →
            found.closest.map (·.id) = moment.closestOnline target sim.scenario.node.k ∧
              m.exact = true) := by
  refine ⟨List.length_filter_le .., fun m member => ?_⟩
  obtain ⟨moment, target, found, measured⟩ := (exists_measured ran).2 m member
  obtain ⟨onward, ⟨_, position, _, _, searched⟩, compared⟩ := id measured
  have few : m.hits ≤ m.expected := by
    rw [compared]
    exact LookupMeasure.hits_le ..
  obtain ⟨some, bounded, rounded⟩ := LookupMeasure.share_bounds few
  refine ⟨some, bounded, rounded, moment, target, found, measured, fun enough whole => ?_⟩
  have regular' := regular.onward onward
  obtain ⟨closest, length⟩ := regular'.closestOnline target sim.scenario.node.k
  obtain ⟨-, s, set, here, found⟩ := World.search_spec searched
  have width : s.node.lookupWidth none = sim.scenario.node.k := by
    have same := regular'.width position s here
    rw [onward.scenario] at same
    rw [Node.lookupWidth, Option.getD_none, same]
    exact Nat.max_eq_right regular.wanted
  rw [width] at found
  rw [compared] at whole ⊢
  exact LookupMeasure.found_eq closest (length.trans (Nat.min_eq_left enough)) regular.wanted found
    whole

/-- The second node tells the first one that it is there, and the third one the second. -/
def introduce (w : World) : World :=
  ((w.handle 0 ⟨⟨2⟩, "middle"⟩ .ping).2.handle 1 ⟨⟨1⟩, "near"⟩ .ping).2

/-- Three nodes, of which the first knows the second only, and that one the third. Every lookup
starts at the first one and looks for the other two, which are the closest. -/
def meeting : Simulation where
  scenario := { node := { k := 2 } }
  peers := [⟨⟨4⟩, "far"⟩, ⟨⟨2⟩, "middle"⟩, ⟨⟨1⟩, "near"⟩]
  world := introduce ((spawnAll (.ofLatency 1 (.constant .zero)) [] { k := 2 }
    [⟨⟨4⟩, "far"⟩, ⟨⟨2⟩, "middle"⟩, ⟨⟨1⟩, "near"⟩]).toOption.getD
      (.ofLatency 1 (.constant .zero)))

/-- The nodes of the meeting are different, and all look for two nodes. -/
theorem meeting_regular : meeting.Regular := by
  have valid : ({ k := 2 } : Config).validate = .ok () := by decide
  have distinct : (meeting.peers.map (·.id)).Nodup := by decide
  obtain ⟨apart, started, populated, -⟩ := exists_spawnAll
    (World.populated_ofLatency 1 (.constant .zero) [] { k := 2 }) valid meeting.peers
  have regular : { meeting with world := apart }.Regular := .of_populated populated valid distinct
  have world : meeting.world =
      introduce ((spawnAll (.ofLatency 1 (.constant .zero)) [] { k := 2 }
        meeting.peers).toOption.getD (.ofLatency 1 (.constant .zero))) := rfl
  rw [started] at world
  have same : meeting.world.frame = apart.frame := by
    rw [world, introduce, World.frame_handle, World.frame_handle]
    rfl
  exact regular.onward ⟨rfl, rfl, .of_frame same⟩

set_option maxRecDepth 16384 in
/-- The first node asks itself, the second and, once that one has answered, the third. -/
theorem meeting_lookups :
    (meeting.runLookups 200 none 1).map (·.1) = some [⟨2, 2, true, 3, 0⟩] := by cbv

/-- The lookup of the meeting is credited with the whole: it has found the two closest nodes in
their order, and so it is exact. -/
theorem meeting_measured :
    meeting.Regular ∧ ∃ ms later, meeting.runLookups 200 none 1 = some (ms, later) ∧
      ms = [⟨2, 2, true, 3, 0⟩] ∧ LookupMeasure.exactCount ms ≤ ms.length ∧
      ∀ m ∈ ms, 0 ≤ m.share ∧ m.share ≤ 1 ∧ m.overlap.num ≤ m.overlap.den ∧
        ∃ moment target found, meeting.Measured m moment target found ∧
          found.closest.map (·.id) = moment.closestOnline target 2 ∧ m.exact = true := by
  obtain ⟨⟨ms, later⟩, ran, all⟩ := Option.map_eq_some_iff.mp meeting_lookups
  dsimp only at all
  obtain ⟨exact, each⟩ := runLookups_measured meeting_regular ran
  refine ⟨meeting_regular, ms, later, ran, all, exact, fun m member => ?_⟩
  obtain ⟨some, bounded, rounded, moment, target, found, measured, whole⟩ := each m member
  have enough : 2 ≤ moment.online.length := by
    rw [measured.onward.online]
    have three : meeting.online.length = 3 := by cbv
    omega
  have share : m.share = 1 := by
    rw [all, List.mem_singleton] at member
    rw [member, LookupMeasure.share]
    norm_num
  exact ⟨some, bounded, rounded, moment, target, found, measured, whole enough share⟩

end Simulation

end Overlay
