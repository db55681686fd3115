import Overlay.Proofs.Bytes

/-!
# The laws of distances

The exclusive or makes a metric of the identifier space, taken bit by bit, byte by byte or as
numbers. What it orders by is the first bit at which two identifiers differ: the one that has the
bit of the target there is closer, so no two identifiers are equally far from a target. Shared bits,
stems and log-distances are read off the same bits and follow the distances.
-/
namespace Overlay

/-- The 32 bytes of a distance, most significant first. -/
def Distance.bytes (d : Distance) : List UInt8 := Id.bytes ⟨d.word⟩

/-- An exclusive or is no larger than the sum. -/
theorem xor_le_add (m n : Nat) : m ^^^ n ≤ m + n := by
  induction m using Nat.strongRecOn generalizing n with
  | ind m further =>
    by_cases zero : m = 0
    · rw [zero, Nat.zero_xor, Nat.zero_add]
    · have half := further (m / 2) (by omega) (n / 2)
      have last : (m ^^^ n) % 2 = (m + n) % 2 := Nat.xor_mod_two_eq
      rw [← Nat.xor_div_two] at half
      omega

/-- A test that the first numbers pass and the next one fails stops there. -/
theorem length_takeWhile_range {test : Nat → Bool} {count bound : Nat} (within : count ≤ bound)
    (passes : ∀ i < count, test i = true) (fails : count < bound → test count = false) :
    ((List.range bound).takeWhile test).length = count := by
  obtain ⟨rest, rfl⟩ := Nat.exists_eq_add_of_le within
  have front : ∀ i ∈ List.range count, test i = true := fun i member =>
    passes i (List.mem_range.mp member)
  rw [List.range_add, List.takeWhile_append_of_pos front]
  cases rest with
  | zero => simp
  | succ rest =>
    have stops := fails (by omega)
    simp [List.range_succ_eq_map, stops]

namespace Id

/-- Different identifiers differ at a first bit. -/
theorem exists_first_difference {a b : Id} (different : a ≠ b) :
    ∃ i < 256, a.AgreeTo b i ∧ a.bit i ≠ b.bit i := by
  have inside : b.sharedBits a < 256 := by
    refine Nat.lt_of_le_of_ne (b.sharedBits_le a) fun all => different ?_
    have agree := (b.le_sharedBits_iff a 256 (Nat.le_refl _)).mp (Nat.le_of_eq all.symm)
    exact (ext_bit agree).symm
  exact ⟨_, inside, (sharedBits_eq_iff b a _ inside).mp rfl⟩

/-- Of two identifiers, the closer one has the bit of the target where they first differ. -/
theorem distance_lt_iff_first_difference (target a b : Id) :
    target.distance a < target.distance b ↔
      ∃ i < 256, a.AgreeTo b i ∧ a.bit i ≠ b.bit i ∧ a.bit i = target.bit i := by
  rw [distance_lt_iff]
  constructor
  · intro closer
    have different : a ≠ b := by
      rintro rfl
      exact Nat.lt_irrefl _ closer
    obtain ⟨i, inside, agree, differ⟩ := exists_first_difference different
    refine ⟨i, inside, agree, differ, ?_⟩
    by_contra away
    -- One of two different bits is that of the target.
    have near : b.bit i = target.bit i :=
      (Bool.eq_not.mpr differ.symm).trans (Bool.eq_not.mpr (Ne.symm away)).symm
    have farther := gap_lt_of_first_difference target b a i agree.symm near away
    omega
  · rintro ⟨i, -, agree, differ, near⟩
    exact gap_lt_of_first_difference target a b i agree near fun far => differ (near.trans far.symm)

/-- The shared bits are counted by going through the bits up to the first one that differs. -/
theorem sharedBits_eq_length (a b : Id) :
    a.sharedBits b = ((List.range 256).takeWhile fun i => a.bit i == b.bit i).length := by
  refine (length_takeWhile_range (a.sharedBits_le b) (fun i below => ?_) fun inside => ?_).symm
  · have agree := (a.le_sharedBits_iff b _ (a.sharedBits_le b)).mp (Nat.le_refl _)
    exact beq_iff_eq.mpr (agree i below)
  · have differ := ((sharedBits_eq_iff a b _ inside).mp rfl).2
    exact beq_eq_false_iff_ne.mpr differ.symm

/-- What is not farther has no larger log-distance. -/
theorem logDistance_mono (target : Id) {a b : Id}
    (near : target.distance a ≤ target.distance b) :
    target.logDistance a ≤ target.logDistance b := by
  have bound := target.sharedBits_le b
  rw [distance_le_iff] at near
  by_contra farther
  rw [logDistance, logDistance] at farther
  have inside : target.sharedBits a < 256 := by omega
  have left := ((sharedBits_eq_iff target a _ inside).mp rfl)
  have stays := (target.le_sharedBits_iff b (target.sharedBits a + 1) (by omega)).mp (by omega)
  have closer := gap_lt_of_agreeTo target b a (target.sharedBits a + 1) stays.symm fun agree =>
    left.2 (agree _ (Nat.lt_succ_self _))
  omega

/-- Bytes of a distance are those in which the identifiers differ. -/
theorem bytes_distance (a b : Id) :
    (a.distance b).bytes = List.zipWith (· ^^^ ·) a.bytes b.bytes := by
  have bytewise (i : Nat) : Id.byte ⟨a.word ^^^ b.word⟩ i = a.byte i ^^^ b.byte i := by
    rw [byte, byte, byte, BitVec.toNat_xor, Nat.shiftRight_xor_distrib, UInt8.ofNat_xor]
  rw [Distance.bytes, distance, bytes, bytes, bytes, List.zipWith_map, List.zipWith_self]
  exact List.map_congr_left fun i _ => bytewise i

/-- The shared bits are the clear ones in front of the bytes of the distance. -/
theorem sharedBits_eq_leadingZeros (a b : Id) :
    a.sharedBits b = Bytes.leadingZeros (a.distance b).bytes := by
  have zero : (a.distance b).word = 0 ↔ (a.distance b).word.toNat = 0 := BitVec.toNat_inj.symm
  rw [Bytes.leadingZeros_eq, Distance.bytes, value_bytes, length_bytes, sharedBits,
    Distance.leadingZeros]
  simp only [zero]

/-- Only an identifier itself is at no distance from it. -/
theorem distance_eq_zero_iff (a b : Id) : a.distance b = .zero ↔ a = b := by
  rw [distance, Distance.zero, Distance.mk.injEq, Id.ext_iff]
  exact BitVec.xor_eq_zero_iff

/-- A way over a third identifier is no shorter. -/
theorem distance_triangle (a b c : Id) :
    (a.distance c).word.toNat ≤ (a.distance b).word.toNat + (b.distance c).word.toNat := by
  have way : a.word ^^^ c.word = (a.word ^^^ b.word) ^^^ (b.word ^^^ c.word) := by
    rw [BitVec.xor_assoc, ← BitVec.xor_assoc b.word, BitVec.xor_self, BitVec.zero_xor]
  rw [distance, way, BitVec.toNat_xor]
  exact xor_le_add _ _

/-- The laws of the distances between a target and three identifiers. -/
structure DistanceLaws (target a b c : Id) : Prop where
  /-- A bit is found in the byte that its index falls into. -/
  bits : ∀ i < 256, a.bit i = Bytes.bit a.bytes i
  /-- The distance is taken byte by byte. -/
  bytewise : (a.distance b).bytes = List.zipWith (· ^^^ ·) a.bytes b.bytes
  /-- It stands for the number that its bytes stand for. -/
  number : (a.distance b).word.toNat = Bytes.value (a.distance b).bytes
  /-- It goes both ways. -/
  symmetric : a.distance b = b.distance a
  /-- Only an identifier itself is at no distance from it. -/
  zero_iff : a.distance b = .zero ↔ a = b
  /-- A way over a third identifier is no shorter. -/
  triangle :
    (a.distance c).word.toNat ≤ (a.distance b).word.toNat + (b.distance c).word.toNat
  /-- Distances are in the order of their bytes. -/
  lexicographic :
    target.distance a < target.distance b ↔ (target.distance a).bytes < (target.distance b).bytes
  /-- The closer one has the bit of the target where the two first differ. -/
  closer : target.distance a < target.distance b ↔
    ∃ i < 256, a.AgreeTo b i ∧ a.bit i ≠ b.bit i ∧ a.bit i = target.bit i
  /-- Different identifiers are not equally far from a target. -/
  apart : target.distance a = target.distance b ↔ a = b
  /-- The shared bits are the leading ones that are the same. -/
  shared : a.sharedBits b = ((List.range 256).takeWhile fun i => a.bit i == b.bit i).length
  /-- They are counted byte by byte. -/
  counted : a.sharedBits b = Bytes.leadingZeros (a.distance b).bytes
  /-- An identifier has a stem when its first bits are those of the stem. -/
  stem : ∀ n ≤ 256, a.hasStem b n = true ↔ ∀ i < n, a.bit i = b.bit i
  /-- What is not farther has no larger log-distance. -/
  coarser : target.distance a ≤ target.distance b → target.logDistance a ≤ target.logDistance b

/-- The laws hold for every target and all identifiers. -/
theorem distance_laws (target a b c : Id) : DistanceLaws target a b c where
  bits i inside := (bit_bytes a i inside).symm
  bytewise := bytes_distance a b
  number := (value_bytes ⟨(a.distance b).word⟩).symm
  symmetric := by rw [distance, distance, BitVec.xor_comm]
  zero_iff := distance_eq_zero_iff a b
  triangle := distance_triangle a b c
  lexicographic := lt_iff_bytes ⟨(target.distance a).word⟩ ⟨(target.distance b).word⟩
  closer := distance_lt_iff_first_difference target a b
  apart := ⟨fun same => gap_injective target (congrArg (fun d => d.word.toNat) same),
    congrArg target.distance⟩
  shared := sharedBits_eq_length a b
  counted := sharedBits_eq_leadingZeros a b
  stem n within := hasStem_iff a b n within
  coarser := logDistance_mono target

end Id

end Overlay
