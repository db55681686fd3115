import Mathlib.Tactic.Ring
import Overlay.Proofs.Metric

/-!
# Identifiers as bytes

An identifier is written as 32 bytes, most significant first. Its bit at an index is a bit of the
byte that the index falls into, the number it stands for is the one that the bytes stand for, and
the order of identifiers is the order of their bytes, where the first different byte decides. No
identifier is written in two ways, and every 32 bytes are those of an identifier. Counting clear
bits, replacing a bit and joining the front of one sequence to the rest of another are done byte by
byte and come to the same as bit by bit, also where a byte is divided.
-/
namespace Overlay

namespace Bytes

/-- The number that bytes stand for, most significant first. -/
def value (bytes : List UInt8) : Nat :=
  bytes.foldl (fun value byte => 256 * value + byte.toNat) 0

/-- The bit at an index of a byte sequence: bytes are counted from the front, and the bits of each
byte from the highest one. -/
def bit (bytes : List UInt8) (index : Nat) : Bool :=
  (bytes.getD (index / 8) 0).toNat.testBit (7 - index % 8)

/-- The first byte counts as often as the others have values. -/
theorem value_cons (byte : UInt8) (rest : List UInt8) :
    value (byte :: rest) = 2 ^ (8 * rest.length) * byte.toNat + value rest := by
  have general (bytes : List UInt8) (start : Nat) :
      bytes.foldl (fun value byte => 256 * value + byte.toNat) start =
        2 ^ (8 * bytes.length) * start + value bytes := by
    induction bytes generalizing start with
    | nil => simp [value]
    | cons byte bytes further =>
      rw [value, List.foldl_cons, List.foldl_cons, further, further (256 * 0 + byte.toNat),
        List.length_cons]
      ring
  rw [value, List.foldl_cons, general]
  simp

/-- Bytes stand for a number that their length has room for. -/
theorem value_lt (bytes : List UInt8) : value bytes < 2 ^ (8 * bytes.length) := by
  induction bytes with
  | nil => exact Nat.one_pos
  | cons byte rest below =>
    have small : byte.toNat + 1 ≤ 2 ^ 8 := byte.toNat_lt
    rw [value_cons, List.length_cons]
    calc 2 ^ (8 * rest.length) * byte.toNat + value rest
        < 2 ^ (8 * rest.length) * byte.toNat + 2 ^ (8 * rest.length) :=
          Nat.add_lt_add_left below _
      _ = 2 ^ (8 * rest.length) * (byte.toNat + 1) := by ring
      _ ≤ 2 ^ (8 * rest.length) * 2 ^ 8 := Nat.mul_le_mul_left _ small
      _ = 2 ^ (8 * (rest.length + 1)) := (Nat.pow_add 2 _ 8).symm

/-- The binary digits of the number are the bits of the bytes, the last one first. -/
theorem testBit_value (bytes : List UInt8) (index : Nat) (inside : index < 8 * bytes.length) :
    (value bytes).testBit (8 * bytes.length - 1 - index) = bit bytes index := by
  induction bytes generalizing index with
  | nil => simp at inside
  | cons byte rest further =>
    rw [List.length_cons] at inside
    rw [value_cons, Nat.testBit_two_pow_mul_add _ (value_lt rest), List.length_cons]
    by_cases first : index < 8
    · have high : ¬8 * (rest.length + 1) - 1 - index < 8 * rest.length := by omega
      have place : 8 * (rest.length + 1) - 1 - index - 8 * rest.length = 7 - index % 8 := by omega
      rw [if_neg high, place, bit, Nat.div_eq_of_lt first, List.getD_cons_zero]
    · have low : 8 * (rest.length + 1) - 1 - index < 8 * rest.length := by omega
      have place : 8 * (rest.length + 1) - 1 - index = 8 * rest.length - 1 - (index - 8) := by
        omega
      have next : index / 8 = (index - 8) / 8 + 1 := by omega
      have same : index % 8 = (index - 8) % 8 := by omega
      rw [if_pos low, place, further (index - 8) (by omega), bit, bit, next, same,
        List.getD_cons_succ]

/-- Of two byte sequences of one length, the one that stands for the smaller number is the one whose
first different byte is smaller. -/
theorem value_lt_iff (a b : List UInt8) (length : a.length = b.length) :
    value a < value b ↔ a < b := by
  induction a generalizing b with
  | nil =>
    obtain rfl := List.length_eq_zero_iff.mp length.symm
    exact iff_of_false (Nat.lt_irrefl _) (List.lt_irrefl [])
  | cons x a further =>
    cases b with
    | nil => simp at length
    | cons y b =>
      have lengths : a.length = b.length := by simpa using length
      have first := value_lt a
      have second := value_lt b
      rw [List.cons_lt_cons_iff, ← further b lengths, value_cons, value_cons, lengths,
        UInt8.lt_iff_toNat_lt]
      rw [lengths] at first
      rcases Nat.lt_trichotomy x.toNat y.toNat with less | same | more
      · have step : 2 ^ (8 * b.length) * (x.toNat + 1) ≤ 2 ^ (8 * b.length) * y.toNat :=
          Nat.mul_le_mul_left _ less
        rw [Nat.mul_add, Nat.mul_one] at step
        exact iff_of_true (by omega) (.inl less)
      · have equal : x = y := UInt8.toNat_inj.mp same
        simp [equal]
      · have step : 2 ^ (8 * b.length) * (y.toNat + 1) ≤ 2 ^ (8 * b.length) * x.toNat :=
          Nat.mul_le_mul_left _ more
        rw [Nat.mul_add, Nat.mul_one] at step
        refine iff_of_false (by omega) ?_
        rintro (less | ⟨rfl, -⟩)
        · omega
        · exact Nat.lt_irrefl _ more

/-- Byte sequences of one length that stand for the same number are the same. -/
theorem value_injective (a b : List UInt8) (length : a.length = b.length)
    (same : value a = value b) : a = b := by
  have first := value_lt_iff a b length
  have second := value_lt_iff b a length.symm
  rw [same] at first second
  exact List.le_antisymm (fun less => Nat.lt_irrefl _ (second.mpr less))
    fun less => Nat.lt_irrefl _ (first.mpr less)

/-- Byte sequences of one length with the same bits are the same. -/
theorem ext_bit {a b : List UInt8} (length : a.length = b.length)
    (same : ∀ i < 8 * a.length, bit a i = bit b i) : a = b := by
  refine value_injective a b length (Nat.eq_of_testBit_eq fun j => ?_)
  by_cases inside : j < 8 * a.length
  · have place : j = 8 * a.length - 1 - (8 * a.length - 1 - j) := by omega
    have bits := same (8 * a.length - 1 - j) (by omega)
    rw [← testBit_value a _ (by omega), ← testBit_value b _ (by omega), ← length] at bits
    rw [place]
    exact bits
  · have beyond (bytes : List UInt8) (whole : bytes.length = a.length) :
        (value bytes).testBit j = false := by
      refine Nat.testBit_lt_two_pow (Nat.lt_of_lt_of_le (value_lt bytes) ?_)
      rw [whole]
      exact Nat.pow_le_pow_right (by decide) (Nat.le_of_not_lt inside)
    rw [beyond a rfl, beyond b length.symm]

/-! ## Byte by byte -/

/-- Number of clear bits in front of the first set one. -/
def leadingZeros : List UInt8 → Nat
  | [] => 0
  | byte :: rest => if byte = 0 then 8 + leadingZeros rest else 7 - byte.toNat.log2

/-- The byte with one bit set, where the bits of a byte are counted from the highest one. -/
def unit (index : Nat) : UInt8 := 1 <<< UInt8.ofNat (7 - index % 8)

/-- Replace one bit, in the byte that its index falls into. -/
def withBit (bytes : List UInt8) (index : Nat) (value : Bool) : List UInt8 :=
  bytes.modify (index / 8) fun byte =>
    if value then byte ||| unit index else byte &&& ~~~unit index

/-- The first bits of one byte sequence and the other bits of another one: whole bytes are copied,
and the byte in which the two meet is put together under a mask. -/
def splice (stem : List UInt8) (depth : Nat) (draw : List UInt8) : List UInt8 :=
  let whole := depth / 8
  let copied := stem.take whole ++ draw.drop whole
  if depth % 8 = 0 then copied
  else
    let mask : UInt8 := 255 <<< UInt8.ofNat (8 - depth % 8)
    copied.modify whole fun byte => (stem.getD whole 0 &&& mask) ||| (byte &&& ~~~mask)

/-- The clear bits in front are those above the highest binary digit of the number. -/
theorem leadingZeros_eq (bytes : List UInt8) :
    leadingZeros bytes =
      if value bytes = 0 then 8 * bytes.length else 8 * bytes.length - 1 - (value bytes).log2 := by
  induction bytes with
  | nil => rfl
  | cons byte rest further =>
    have below := value_lt rest
    rw [leadingZeros, value_cons, List.length_cons]
    by_cases zero : byte = 0
    · rw [if_pos zero, zero, further]
      simp only [UInt8.toNat_zero, Nat.mul_zero, Nat.zero_add]
      split
      · omega
      · next some =>
        have log := (Nat.log2_lt some).mpr below
        omega
    · have some : byte.toNat ≠ 0 := fun none => zero (UInt8.toNat_inj.mp none)
      -- The highest digit of the number is that of its first byte.
      have least : 2 ^ (8 * rest.length) * 2 ^ byte.toNat.log2 ≤
          2 ^ (8 * rest.length) * byte.toNat := Nat.mul_le_mul_left _ (Nat.log2_self_le some)
      have most : 2 ^ (8 * rest.length) * (byte.toNat + 1) ≤
          2 ^ (8 * rest.length) * 2 ^ (byte.toNat.log2 + 1) :=
        Nat.mul_le_mul_left _ Nat.lt_log2_self
      rw [← Nat.pow_add] at least most
      rw [Nat.mul_add, Nat.mul_one] at most
      have positive : 0 < 2 ^ (8 * rest.length + byte.toNat.log2) := Nat.two_pow_pos _
      have whole : 2 ^ (8 * rest.length) * byte.toNat + value rest ≠ 0 := by omega
      have log : (2 ^ (8 * rest.length) * byte.toNat + value rest).log2 =
          8 * rest.length + byte.toNat.log2 := by
        refine (Nat.log2_eq_iff whole).mpr ⟨by omega, ?_⟩
        rw [Nat.add_assoc]
        omega
      rw [if_neg zero, if_neg whole, log]
      omega

/-- The complement of a byte has the other values of its bits. -/
theorem testBit_not (byte : UInt8) {i : Nat} (inside : i < 8) :
    (~~~byte).toNat.testBit i = !byte.toNat.testBit i := by
  rw [← UInt8.toNat_toBitVec, UInt8.toBitVec_not, BitVec.testBit_toNat, BitVec.getLsbD_not,
    ← UInt8.toNat_toBitVec, BitVec.testBit_toNat]
  simp [inside]

/-- Only its own bit is set in a unit. -/
theorem testBit_unit (index i : Nat) :
    (unit index).toNat.testBit (7 - i % 8) = decide (i % 8 = index % 8) := by
  have all : ∀ m < 8, ∀ n < 8, (unit m).toNat.testBit (7 - n) = decide (n = m) := by decide
  have here := all (index % 8) (Nat.mod_lt _ (by decide)) (i % 8) (Nat.mod_lt _ (by decide))
  rwa [unit, Nat.mod_mod] at here

/-- The mask of the byte in which a splice meets has the bits in front of the depth set. -/
theorem testBit_mask {depth : Nat} (partly : depth % 8 ≠ 0) (i : Nat) :
    ((255 : UInt8) <<< UInt8.ofNat (8 - depth % 8)).toNat.testBit (7 - i % 8) =
      decide (i % 8 < depth % 8) := by
  have all : ∀ m < 8, m ≠ 0 → ∀ n < 8,
      ((255 : UInt8) <<< UInt8.ofNat (8 - m)).toNat.testBit (7 - n) = decide (n < m) := by decide
  exact all (depth % 8) (Nat.mod_lt _ (by decide)) partly (i % 8) (Nat.mod_lt _ (by decide))

/-- Changing one byte changes its own bits only. -/
theorem bit_modify (bytes : List UInt8) (position : Nat) (change : UInt8 → UInt8)
    (inside : position < bytes.length) (i : Nat) :
    bit (bytes.modify position change) i =
      if i / 8 = position then (change (bytes.getD position 0)).toNat.testBit (7 - i % 8)
      else bit bytes i := by
  simp only [bit, List.getD_eq_getElem?_getD]
  split
  · next here =>
    rw [here, List.getElem?_modify_eq, List.getElem?_eq_getElem inside]
    rfl
  · next elsewhere => rw [List.getElem?_modify_ne _ _ (Ne.symm elsewhere)]

/-- Replacing a bit leaves the others as they are. -/
theorem bit_withBit {bytes : List UInt8} {index : Nat} (inside : index < 8 * bytes.length)
    (value : Bool) (i : Nat) :
    bit (withBit bytes index value) i = if i = index then value else bit bytes i := by
  rw [withBit, bit_modify _ _ _ (by omega)]
  by_cases here : i / 8 = index / 8
  · have own : bit bytes i = (bytes.getD (index / 8) 0).toNat.testBit (7 - i % 8) := by
      rw [bit, here]
    have same : i % 8 = index % 8 ↔ i = index := by omega
    have low : 7 - i % 8 < 8 := by omega
    rw [if_pos here, own]
    cases value with
    | false =>
      rw [if_neg Bool.false_ne_true, UInt8.toNat_and, Nat.testBit_and, testBit_not _ low,
        testBit_unit]
      by_cases hit : i = index <;> simp [same, hit]
    | true =>
      rw [if_pos rfl, UInt8.toNat_or, Nat.testBit_or, testBit_unit]
      by_cases hit : i = index <;> simp [same, hit]
  · rw [if_neg here, if_neg (by rintro rfl; exact here rfl)]

/-- Copying whole bytes copies the bits of these bytes. -/
theorem bit_copied {stem : List UInt8} (draw : List UInt8) {whole : Nat}
    (inside : whole ≤ stem.length) (i : Nat) :
    bit (stem.take whole ++ draw.drop whole) i =
      if i / 8 < whole then bit stem i else bit draw i := by
  have front : (stem.take whole).length = whole := by simp [inside]
  simp only [bit, List.getD_eq_getElem?_getD]
  split
  · next before =>
    rw [List.getElem?_append_left (by omega), List.getElem?_take_of_lt before]
  · next behind =>
    have place : whole + (i / 8 - whole) = i / 8 := by omega
    rw [List.getElem?_append_right (by omega), front, List.getElem?_drop, place]

/-- A splice is as long as both of its parts. -/
theorem length_splice {stem draw : List UInt8} (length : stem.length = draw.length) (depth : Nat) :
    (splice stem depth draw).length = stem.length := by
  rw [splice]
  split <;> simp <;> omega

/-- A splice has the bits of the first sequence up to its depth and those of the second from there
on, wherever in a byte the two meet. -/
theorem bit_splice {stem draw : List UInt8} (length : stem.length = draw.length) {depth : Nat}
    (inside : depth ≤ 8 * stem.length) (i : Nat) :
    bit (splice stem depth draw) i = if i < depth then bit stem i else bit draw i := by
  have whole : depth / 8 ≤ stem.length := by omega
  have copied := bit_copied draw whole i
  rw [splice]
  by_cases even : depth % 8 = 0
  · have same : i / 8 < depth / 8 ↔ i < depth := by omega
    rw [if_pos even, copied]
    simp only [same]
  · rw [if_neg even, bit_modify _ _ _ (by simp; omega), copied]
    by_cases meet : i / 8 = depth / 8
    · have same : i % 8 < depth % 8 ↔ i < depth := by omega
      have low : 7 - i % 8 < 8 := by omega
      have first : (stem.getD (depth / 8) 0).toNat.testBit (7 - i % 8) = bit stem i := by
        rw [bit, meet]
      have second : (List.getD (stem.take (depth / 8) ++ draw.drop (depth / 8)) (depth / 8)
          0).toNat.testBit (7 - i % 8) = bit draw i := by
        rw [if_neg (by omega), bit, meet] at copied
        exact copied
      rw [if_pos meet, UInt8.toNat_or, Nat.testBit_or, UInt8.toNat_and, Nat.testBit_and,
        UInt8.toNat_and, Nat.testBit_and, testBit_not _ low, testBit_mask even, first, second]
      by_cases before : i < depth <;> simp [same, before]
    · have same : i / 8 < depth / 8 ↔ i < depth := by omega
      rw [if_neg meet]
      simp only [same]

end Bytes

namespace Id

/-- Identifiers with the same bits are the same. -/
theorem ext_bit {a b : Id} (same : ∀ i < 256, a.bit i = b.bit i) : a = b :=
  Id.ext (BitVec.eq_of_getMsbD_eq fun i inside => same i inside)

/-- The identifier of 32 bytes has their bits. -/
theorem bit_ofBytes (bytes : List UInt8) (length : bytes.length = 32) (i : Nat)
    (inside : i < 256) : (ofBytes bytes).bit i = Bytes.bit bytes i := by
  have digit := Bytes.testBit_value bytes i (by omega)
  rw [← digit, bit, ofBytes, BitVec.getMsbD_eq_getLsbD, BitVec.getLsbD_ofNat, length]
  simp [inside, show 255 - i < 256 by omega, Bytes.value]

/-- There are 32 bytes. -/
@[simp]
theorem length_bytes (id : Id) : id.bytes.length = 32 := by
  rw [bytes, List.length_map, List.length_range]

/-- A bit of an identifier is a bit of the byte that its index falls into. -/
theorem bit_bytes (id : Id) (i : Nat) (inside : i < 256) : Bytes.bit id.bytes i = id.bit i := by
  have position : i / 8 < 32 := by omega
  have place : 8 * (31 - i / 8) + (7 - i % 8) = 255 - i := by omega
  rw [Bytes.bit, bytes, List.getD_eq_getElem?_getD, List.getElem?_map, List.getElem?_range position,
    Option.map_some, Option.getD_some, byte, UInt8.toNat_ofNat', Nat.testBit_mod_two_pow,
    Nat.testBit_shiftRight, place, bit, BitVec.getMsbD_eq_getLsbD, BitVec.getLsbD]
  simp [inside, show 7 - i % 8 < 8 by omega]

/-- An identifier is the one of its bytes. -/
@[simp]
theorem ofBytes_bytes (id : Id) : ofBytes id.bytes = id := by
  refine ext_bit fun i inside => ?_
  rw [bit_ofBytes _ id.length_bytes i inside, bit_bytes id i inside]

/-- The bytes of an identifier stand for its number. -/
theorem value_bytes (id : Id) : Bytes.value id.bytes = id.word.toNat := by
  have below : Bytes.value id.bytes < 2 ^ 256 := by
    have bound := Bytes.value_lt id.bytes
    rwa [length_bytes] at bound
  have number := congrArg (fun id => id.word.toNat) id.ofBytes_bytes
  rwa [ofBytes, ← Bytes.value, BitVec.toNat_ofNat, Nat.mod_eq_of_lt below] at number

/-- Identifiers are in the order of their bytes. -/
theorem lt_iff_bytes (a b : Id) : a < b ↔ a.bytes < b.bytes := by
  rw [← Bytes.value_lt_iff _ _ (by simp), value_bytes, value_bytes]
  exact BitVec.lt_def

/-- Any 32 bytes are those of the identifier that they are read as. -/
theorem bytes_ofBytes (bytes : List UInt8) (length : bytes.length = 32) :
    (ofBytes bytes).bytes = bytes := by
  have below : Bytes.value bytes < 2 ^ 256 := by
    have bound := Bytes.value_lt bytes
    rwa [length] at bound
  refine Bytes.value_injective _ _ (by rw [length_bytes, length]) ?_
  rw [value_bytes, ofBytes, ← Bytes.value, BitVec.toNat_ofNat, Nat.mod_eq_of_lt below]

end Id

end Overlay
