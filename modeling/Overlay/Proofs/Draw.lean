import Overlay.Draw
import Overlay.Proofs.Bytes

/-!
# What a draw decides

A draw is 32 bytes. An identifier drawn for a stem has the bits of the stem in front and those of
the draw behind, so a draw that has the stem already is left as it is, and every identifier with the
stem is drawn by some bytes. An identifier drawn for a log-distance has the stem up to the bit that
this distance stands for and the other value of this bit, so it lies at this distance, and every
identifier there is drawn by some bytes. Both are put together byte by byte, with one byte that has
bits of the stem and of the draw.
-/
namespace Overlay

namespace Id

/-- The mask of a stem has its first bits set. -/
theorem getMsbD_stemMask (depth i : Nat) :
    (stemMask depth).getMsbD i = decide (i + (256 - depth) < 256) := by
  rw [stemMask, BitVec.getMsbD_shiftLeft, BitVec.getMsbD_allOnes]

/-- The bits of an identifier drawn for a stem are those of the stem, and behind it those of the
draw. -/
theorem bit_withStem (stem : Id) (depth : Nat) (draw : Id) (i : Nat) :
    (stem.withStem depth draw).bit i = if i < min depth 256 then stem.bit i else draw.bit i := by
  have place : i + (256 - min depth 256) < 256 ↔ i < min depth 256 := by omega
  simp only [bit, withStem, BitVec.getMsbD_or, BitVec.getMsbD_and, BitVec.getMsbD_not,
    getMsbD_stemMask, place]
  by_cases front : i < min depth 256
  · simp [front]
  · by_cases inside : i < 256
    · simp [front, inside]
    · simp [front, inside, BitVec.getMsbD_of_ge draw.word i (by omega)]

/-- An identifier drawn for a stem has the stem. -/
theorem withStem_agreeTo (stem : Id) (depth : Nat) (draw : Id) :
    (stem.withStem depth draw).AgreeTo stem depth := by
  intro i below
  rw [bit_withStem]
  by_cases inside : i < 256
  · rw [if_pos (by omega)]
  · rw [if_neg (by omega), bit_beyond draw i (by omega), bit_beyond stem i (by omega)]

/-- An identifier drawn for the stem of a bucket is one of the bucket. -/
theorem hasStem_withStem (stem : Id) {depth : Nat} (inside : depth ≤ 256) (draw : Id) :
    (stem.withStem depth draw).hasStem stem depth = true :=
  (hasStem_iff _ _ _ inside).mpr (stem.withStem_agreeTo depth draw)

/-- A draw that has the stem is left as it is. -/
theorem withStem_of_agreeTo {stem draw : Id} {depth : Nat}
    (agree : draw.AgreeTo stem (min depth 256)) : stem.withStem depth draw = draw := by
  refine ext_bit fun i _ => ?_
  rw [bit_withStem]
  split
  · next front => exact (agree i front).symm
  · rfl

/-- The bits of an identifier drawn for a log-distance: the stem up to the bit that the distance
stands for, the other value of this bit, and the draw behind it. -/
theorem bit_atLogDistance (id : Id) {distance : Nat} (some : 0 < distance) (draw : Id) (i : Nat) :
    (id.atLogDistance distance draw).bit i =
      if i = 256 - min distance 256 then !id.bit i
      else if i < 256 - min distance 256 then id.bit i else draw.bit i := by
  have inside : 256 - min distance 256 < 256 := by omega
  have whole : min (256 - min distance 256) 256 = 256 - min distance 256 := by omega
  rw [atLogDistance, if_neg (Nat.ne_of_gt some), bit_withBit _ inside, bit_withStem, whole]
  split
  · next same => rw [same]
  · rfl

/-- `atLogDistance` by way of bits that have to be inside the word. -/
def atLogDistanceChecked (id : Id) (distance : Nat) (draw : Id) : Except BitOutOfRange Id :=
  if distance = 0 then .ok id
  else do
    let shared := 256 - min distance 256
    let own ← id.bitAt shared
    (id.withStem shared draw).withBitAt shared (!own)

/-- Drawing for a log-distance asks for bits inside the word only. -/
theorem atLogDistanceChecked_eq (id : Id) (distance : Nat) (draw : Id) :
    id.atLogDistanceChecked distance draw = .ok (id.atLogDistance distance draw) := by
  rw [atLogDistanceChecked, atLogDistance]
  split
  · rfl
  · next some =>
    have inside : 256 - min distance 256 < 256 := by omega
    simp [bitAt, withBitAt, inside, bind, Except.bind]

/-- An identifier drawn for a log-distance lies at it; distances beyond the last bit count as the
last one. -/
theorem logDistance_atLogDistance (id : Id) (distance : Nat) (draw : Id) :
    id.logDistance (id.atLogDistance distance draw) = min distance 256 := by
  by_cases none : distance = 0
  · have own := (id.logDistance_le_iff id 256 (Nat.le_refl _)).mpr (AgreeTo.refl id 256)
    rw [atLogDistance, if_pos none, none]
    omega
  · have some : 0 < distance := Nat.pos_of_ne_zero none
    have inside : 256 - min distance 256 < 256 := by omega
    have range : min distance 256 = 256 - (256 - min distance 256) := by omega
    rw [range, logDistance_eq_iff _ _ _ inside]
    constructor
    · intro i below
      rw [bit_atLogDistance id some, if_neg (Nat.ne_of_lt below), if_pos below]
    · rw [bit_atLogDistance id some, if_pos rfl]
      simp

/-- A draw that lies at the log-distance is left as it is. -/
theorem atLogDistance_of_logDistance {id draw : Id} {distance : Nat}
    (far : id.logDistance draw = min distance 256) : id.atLogDistance distance draw = draw := by
  by_cases none : distance = 0
  · have agree := (id.logDistance_le_iff draw 256 (Nat.le_refl _)).mp (by omega)
    rw [atLogDistance, if_pos none]
    exact (ext_bit agree).symm
  · have some : 0 < distance := Nat.pos_of_ne_zero none
    have inside : 256 - min distance 256 < 256 := by omega
    have range : min distance 256 = 256 - (256 - min distance 256) := by omega
    rw [range, logDistance_eq_iff _ _ _ inside] at far
    refine ext_bit fun i _ => ?_
    rw [bit_atLogDistance id some]
    split
    · next same => rw [same, Bool.eq_not.mpr far.2]
    · split
      · next before => exact (far.1 i before).symm
      · rfl

/-- An identifier drawn for a stem is put together byte by byte. -/
theorem bytes_withStem (stem : Id) (depth : Nat) (draw : Id) :
    (stem.withStem depth draw).bytes = Bytes.splice stem.bytes (min depth 256) draw.bytes := by
  have lengths : stem.bytes.length = draw.bytes.length := by simp
  refine Bytes.ext_bit (by rw [Bytes.length_splice lengths]; simp) fun i inside => ?_
  rw [length_bytes] at inside
  rw [bit_bytes _ i inside, bit_withStem, Bytes.bit_splice lengths (by simp),
    bit_bytes _ i inside, bit_bytes _ i inside]

/-- A bit of an identifier is replaced in the byte that its index falls into. -/
theorem bytes_withBit (id : Id) {index : Nat} (inside : index < 256) (value : Bool) :
    (id.withBit index value).bytes = Bytes.withBit id.bytes index value := by
  have length : (Bytes.withBit id.bytes index value).length = 32 := by simp [Bytes.withBit]
  refine Bytes.ext_bit (by rw [length, length_bytes]) fun i within => ?_
  rw [length_bytes] at within
  rw [bit_bytes _ i within, bit_withBit _ inside, Bytes.bit_withBit (by simpa using inside),
    bit_bytes _ i within]

/-- An identifier drawn for a log-distance is put together byte by byte. -/
theorem bytes_atLogDistance (id : Id) {distance : Nat} (some : 0 < distance) (draw : Id) :
    (id.atLogDistance distance draw).bytes =
      Bytes.withBit (Bytes.splice id.bytes (256 - min distance 256) draw.bytes)
        (256 - min distance 256) (!id.bit (256 - min distance 256)) := by
  have inside : 256 - min distance 256 < 256 := by omega
  have whole : min (256 - min distance 256) 256 = 256 - min distance 256 := by omega
  rw [atLogDistance, if_neg (Nat.ne_of_gt some), bytes_withBit _ inside, bytes_withStem, whole]

/-- What the bytes of a draw decide, when an identifier is drawn for the first `depth` bits of
another one or for a log-distance from it. -/
structure Drawing (id : Id) (depth distance : Nat) : Prop where
  /-- The bytes of the draw are spliced onto those of the stem. -/
  spliced : ∀ bytes : Vector UInt8 32, (id.withStem depth (ofBytes bytes.toList)).bytes =
    Bytes.splice id.bytes (min depth 256) bytes.toList
  /-- The bits of the stem are followed by those of the draw. -/
  bits : ∀ bytes : Vector UInt8 32, ∀ i < 256,
    (id.withStem depth (ofBytes bytes.toList)).bit i =
      if i < min depth 256 then id.bit i else Bytes.bit bytes.toList i
  /-- The identifiers with the stem are those that are drawn. -/
  stems : ∀ other, other.hasStem id (min depth 256) = true ↔
    ∃ bytes : Vector UInt8 32, id.withStem depth (ofBytes bytes.toList) = other
  /-- For a log-distance one bit is replaced behind the splice. -/
  flipped : 0 < distance → ∀ bytes : Vector UInt8 32,
    (id.atLogDistance distance (ofBytes bytes.toList)).bytes =
      Bytes.withBit (Bytes.splice id.bytes (256 - min distance 256) bytes.toList)
        (256 - min distance 256) (!id.bit (256 - min distance 256))
  /-- Only bits inside the word are asked for. -/
  inside : ∀ bytes : Vector UInt8 32,
    id.atLogDistanceChecked distance (ofBytes bytes.toList) =
      .ok (id.atLogDistance distance (ofBytes bytes.toList))
  /-- The identifiers at the log-distance are those that are drawn. -/
  ring : ∀ other, id.logDistance other = min distance 256 ↔
    ∃ bytes : Vector UInt8 32, id.atLogDistance distance (ofBytes bytes.toList) = other

/-- Whatever the bytes of a draw: an identifier drawn for a stem has the bits of the stem in front
and those of the bytes behind, and all identifiers with the stem are drawn; one drawn for a
log-distance is drawn without asking for a bit beyond the last one and lies at this distance, and
all identifiers there are drawn. -/
theorem drawing (id : Id) (depth distance : Nat) : Drawing id depth distance := by
  -- The bytes of an identifier draw this identifier.
  have own (other : Id) : ∃ bytes : Vector UInt8 32, ofBytes bytes.toList = other :=
    ⟨⟨other.bytes.toArray, by simp⟩, other.ofBytes_bytes⟩
  have kept (bytes : Vector UInt8 32) : (ofBytes bytes.toList).bytes = bytes.toList :=
    bytes_ofBytes _ bytes.length_toList
  refine ⟨fun bytes => ?_, fun bytes i inside => ?_, fun other => ?_, fun some bytes => ?_,
    fun bytes => atLogDistanceChecked_eq id distance _, fun other => ?_⟩
  · rw [bytes_withStem, kept]
  · rw [bit_withStem, bit_ofBytes _ bytes.length_toList i inside]
  · rw [hasStem_iff _ _ _ (Nat.min_le_right depth 256)]
    constructor
    · intro agree
      obtain ⟨bytes, drawn⟩ := own other
      exact ⟨bytes, by rw [drawn, withStem_of_agreeTo agree]⟩
    · rintro ⟨bytes, rfl⟩
      exact (id.withStem_agreeTo depth _).mono (Nat.min_le_left depth 256)
  · rw [bytes_atLogDistance id some, kept]
  · constructor
    · intro far
      obtain ⟨bytes, drawn⟩ := own other
      exact ⟨bytes, by rw [drawn, atLogDistance_of_logDistance far]⟩
    · rintro ⟨bytes, rfl⟩
      exact logDistance_atLogDistance id distance _

end Id

end Overlay
