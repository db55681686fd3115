import Mathlib.Data.List.Induction
import Overlay.Proofs.Bytes

/-!
# Reading hexadecimal text

A text is read as the UTF-8 bytes it consists of. It is the hexadecimal form of an identifier
exactly when these are 64 digits of either case; writing the identifier gives the text back in lower
case, and every identifier is read back from what is written of it. Any other text is refused for
the first of these reasons: an odd number of bytes, a byte that is no digit, a wrong number of
bytes.
-/
namespace Overlay

namespace Hex

/-- The hexadecimal digits of either case. -/
def alphabet : List Char :=
  ['0', '1', '2', '3', '4', '5', '6', '7', '8', '9', 'a', 'b', 'c', 'd', 'e', 'f',
    'A', 'B', 'C', 'D', 'E', 'F']

/-- The character with the code that a byte is. -/
def char (byte : UInt8) : Char := Char.ofNat byte.toNat

/-- The byte is the code of a hexadecimal digit. -/
def IsDigit (byte : UInt8) : Prop := char byte ∈ alphabet

instance (byte : UInt8) : Decidable (IsDigit byte) := inferInstanceAs (Decidable (_ ∈ _))

/-- What holds of the first 256 numbers holds of all bytes. -/
theorem forall_byte (holds : UInt8 → Prop) (all : ∀ n < 256, holds (UInt8.ofNat n)) (byte : UInt8) :
    holds byte := by
  have here := all byte.toNat byte.toNat_lt
  rwa [UInt8.ofNat_toNat] at here

/-- A byte that is a digit has a value, which is written as the digit in lower case. -/
theorem value?_of_isDigit {byte : UInt8} (digit : IsDigit byte) :
    ∃ value < 16, value? byte = some value ∧ Hex.digit value = (char byte).toLower := by
  revert digit
  refine forall_byte (fun byte => IsDigit byte →
    ∃ value < 16, value? byte = some value ∧ Hex.digit value = (char byte).toLower) ?_ byte
  decide +kernel

/-- A byte that is no digit has no value. -/
theorem value?_eq_none {byte : UInt8} (none : ¬IsDigit byte) : value? byte = .none := by
  revert none
  refine forall_byte (fun byte => ¬IsDigit byte → value? byte = .none) ?_ byte
  decide +kernel

/-- The digit of a value is one byte long and has this value. -/
theorem value?_digit {value : Nat} (small : value < 16) :
    (Hex.digit value).toNat < 128 ∧
      value? (UInt8.ofNat (Hex.digit value).toNat) = some value := by
  revert value
  decide +kernel

/-- A digit is one byte long. -/
theorem IsDigit.narrow {byte : UInt8} (digit : IsDigit byte) : byte.toNat < 128 := by
  revert digit
  refine forall_byte (fun byte => IsDigit byte → byte.toNat < 128) ?_ byte
  decide +kernel

/-! ## The bytes of a text -/

/-- Listing the bytes of an array made from a list gives the list. -/
theorem toList_toByteArray (bytes : List UInt8) : bytes.toByteArray.toList = bytes := by
  have general (array : ByteArray) (i : Nat) (done : List UInt8) :
      ByteArray.toList.loop array i done = done.reverse ++ array.data.toList.drop i := by
    fun_induction ByteArray.toList.loop array i done with
    | case1 i done inside further =>
      have place : i < array.data.toList.length := by simpa using inside
      have item : array.get! i = array.data.toList[i] := getElem!_pos array.data i inside
      rw [further, List.drop_eq_getElem_cons place, item]
      simp
    | case2 i done beyond =>
      have none : array.data.toList.drop i = [] :=
        List.drop_eq_nil_of_le (by simpa using Nat.le_of_not_lt beyond)
      rw [none, List.append_nil]
  rw [ByteArray.toList, general, List.toList_data_toByteArray]
  rfl

/-- A text consists of the bytes of its characters. -/
theorem toUTF8_toList (text : String) :
    text.toUTF8.toList = text.toList.flatMap String.utf8EncodeChar := by
  rw [String.toUTF8_eq_toByteArray, ← String.utf8Encode_toList]
  exact toList_toByteArray _

/-- A character with a small code is one byte long. -/
theorem utf8EncodeChar_narrow {c : Char} (narrow : c.toNat < 128) :
    String.utf8EncodeChar c = [UInt8.ofNat c.toNat] :=
  if_pos (Nat.le_of_lt_succ narrow)

/-- A character with a large code starts with a byte that is large. -/
theorem exists_wide {c : Char} (wide : ¬c.toNat < 128) :
    ∃ byte ∈ String.utf8EncodeChar c, 128 ≤ byte.toNat := by
  have leading (lead : Nat) (large : 128 ≤ lead) (small : lead < 256) :
      128 ≤ (UInt8.ofNat lead).toNat := by
    rwa [UInt8.toNat_ofNat', Nat.mod_eq_of_lt small]
  have many : ¬c.val.toNat ≤ 127 := fun one => wide (Nat.lt_succ_of_le one)
  simp only [String.utf8EncodeChar, if_neg many]
  split
  · exact ⟨_, List.mem_cons_self, leading _ (by omega) (by omega)⟩
  · split
    · exact ⟨_, List.mem_cons_self, leading _ (by omega) (by omega)⟩
    · exact ⟨_, List.mem_cons_self, leading _ (by omega) (by omega)⟩

/-- A text of small bytes has one character for each. -/
theorem map_char {chars : List Char}
    (narrow : ∀ byte ∈ chars.flatMap String.utf8EncodeChar, byte.toNat < 128) :
    (chars.flatMap String.utf8EncodeChar).map char = chars := by
  induction chars with
  | nil => rfl
  | cons c chars further =>
    rw [List.flatMap_cons, List.forall_mem_append] at narrow
    have small : c.toNat < 128 := by
      by_contra wide
      obtain ⟨byte, member, large⟩ := exists_wide wide
      exact Nat.not_lt.mpr large (narrow.1 byte member)
    have code : char (UInt8.ofNat c.toNat) = c := by
      rw [char, UInt8.toNat_ofNat', Nat.mod_eq_of_lt (by omega), Char.ofNat_toNat]
    rw [List.flatMap_cons, utf8EncodeChar_narrow small, List.map_append, further narrow.2,
      List.map_singleton, code, List.singleton_append]

/-! ## Reading pairs of digits -/

/-- Digits in pairs are read as bytes, which are written as these digits in lower case. -/
theorem decodePairs_ok (position : Nat) {text : List UInt8} (even : text.length % 2 = 0)
    (digits : ∀ byte ∈ text, IsDigit byte) :
    ∃ bytes, decodePairs position text = .ok bytes ∧ 2 * bytes.length = text.length ∧
      Hex.digits bytes = text.map fun byte => (char byte).toLower := by
  induction text using List.twoStepInduction generalizing position with
  | nil => exact ⟨[], rfl, rfl, rfl⟩
  | singleton byte => simp at even
  | cons_cons high low rest further _ =>
    obtain ⟨first, second, others⟩ : IsDigit high ∧ IsDigit low ∧ ∀ byte ∈ rest, IsDigit byte := by
      simpa using digits
    obtain ⟨upper, upperSmall, upperValue, upperDigit⟩ := value?_of_isDigit first
    obtain ⟨lower, lowerSmall, lowerValue, lowerDigit⟩ := value?_of_isDigit second
    have shorter : rest.length % 2 = 0 := by
      rw [List.length_cons, List.length_cons] at even
      omega
    obtain ⟨bytes, read, length, written⟩ := further (position + 2) shorter others
    have number : (UInt8.ofNat (16 * upper + lower)).toNat = 16 * upper + lower := by
      rw [UInt8.toNat_ofNat', Nat.mod_eq_of_lt (by omega)]
    have upperPart : (16 * upper + lower) / 16 = upper := by omega
    have lowerPart : (16 * upper + lower) % 16 = lower := by omega
    refine ⟨UInt8.ofNat (16 * upper + lower) :: bytes, ?_, ?_, ?_⟩
    · simp [decodePairs, upperValue, lowerValue, read, Except.map]
    · simp only [List.length_cons]
      omega
    · rw [Hex.digits, number, upperPart, lowerPart, upperDigit, lowerDigit, written, List.map_cons,
        List.map_cons]

/-- The first byte that is no digit is reported with its position. -/
theorem decodePairs_badDigit (position : Nat) {before after : List UInt8} {bad : UInt8}
    (even : (before ++ bad :: after).length % 2 = 0) (digits : ∀ byte ∈ before, IsDigit byte)
    (flawed : ¬IsDigit bad) :
    decodePairs position (before ++ bad :: after) =
      .error (.badDigit bad (position + before.length)) := by
  have none := value?_eq_none flawed
  induction before using List.twoStepInduction generalizing position with
  | nil =>
    cases after with
    | nil => simp at even
    | cons low rest => simp [decodePairs, none]
  | singleton high =>
    obtain ⟨upper, -, value, -⟩ := value?_of_isDigit (digits high (by simp))
    simp [decodePairs, value, none]
  | cons_cons high low before further _ =>
    obtain ⟨first, second, others⟩ :
        IsDigit high ∧ IsDigit low ∧ ∀ byte ∈ before, IsDigit byte := by
      simpa using digits
    obtain ⟨upper, -, upperValue, -⟩ := value?_of_isDigit first
    obtain ⟨lower, -, lowerValue, -⟩ := value?_of_isDigit second
    have shorter : (before ++ bad :: after).length % 2 = 0 := by
      rw [List.cons_append, List.cons_append, List.length_cons, List.length_cons] at even
      omega
    have rest := further (position + 2) shorter others
    have place : position + 2 + before.length = position + (before.length + 2) := by omega
    simp [decodePairs, upperValue, lowerValue, rest, Except.map, place]

/-- What is written of bytes is read as these bytes. -/
theorem decodePairs_digits (position : Nat) (bytes : List UInt8) :
    decodePairs position ((digits bytes).map fun c => UInt8.ofNat c.toNat) = .ok bytes := by
  induction bytes generalizing position with
  | nil => rfl
  | cons byte rest further =>
    have small := byte.toNat_lt
    have upper := (value?_digit (show byte.toNat / 16 < 16 by omega)).2
    have lower := (value?_digit (show byte.toNat % 16 < 16 by omega)).2
    have whole : 16 * (byte.toNat / 16) + byte.toNat % 16 = byte.toNat := Nat.div_add_mod _ _
    simp [digits, decodePairs, upper, lower, further, Except.map, whole]

/-- What is written of bytes is two digits for each. -/
theorem length_digits (bytes : List UInt8) : (digits bytes).length = 2 * bytes.length := by
  induction bytes with
  | nil => rfl
  | cons byte rest further =>
    simp only [digits, List.length_cons, further]
    omega

/-- What is written of bytes consists of characters that are one byte long. -/
theorem narrow_digits (bytes : List UInt8) : ∀ c ∈ digits bytes, c.toNat < 128 := by
  induction bytes with
  | nil => simp [digits]
  | cons byte rest further =>
    have small := byte.toNat_lt
    have upper := (value?_digit (show byte.toNat / 16 < 16 by omega)).1
    have lower := (value?_digit (show byte.toNat % 16 < 16 by omega)).1
    exact List.forall_mem_cons.mpr ⟨upper, List.forall_mem_cons.mpr ⟨lower, further⟩⟩

/-- What is written of bytes consists of as many bytes as characters. -/
theorem toUTF8_encode (bytes : List UInt8) :
    (encode bytes).toUTF8.toList = (digits bytes).map fun c => UInt8.ofNat c.toNat := by
  rw [toUTF8_toList, encode, String.toList_ofList, ← List.flatMap_pure_eq_map]
  exact List.flatMap_congr fun c member => utf8EncodeChar_narrow (narrow_digits bytes c member)

/-- What is written of bytes is read back. -/
theorem decode_encode (bytes : List UInt8) : decode (encode bytes) = .ok bytes := by
  have even : ((digits bytes).map fun c => UInt8.ofNat c.toNat).length % 2 ≠ 1 := by
    rw [List.length_map, length_digits]
    omega
  rw [decode, toUTF8_encode, decodeBytes, if_neg even, decodePairs_digits]

/-- A text of digits in pairs is read as bytes, and what is written of them is the text in lower
case. -/
theorem decode_of_digits {text : String} (even : text.toUTF8.toList.length % 2 = 0)
    (digits : ∀ byte ∈ text.toUTF8.toList, IsDigit byte) :
    ∃ bytes, decode text = .ok bytes ∧ 2 * bytes.length = text.toUTF8.toList.length ∧
      encode bytes = text.toLower := by
  obtain ⟨bytes, read, length, written⟩ := decodePairs_ok 0 even digits
  have notOdd : text.toUTF8.toList.length % 2 ≠ 1 := by omega
  have chars : text.toUTF8.toList.map char = text.toList := by
    rw [toUTF8_toList]
    refine map_char fun byte member => (digits byte ?_).narrow
    rwa [toUTF8_toList]
  refine ⟨bytes, by rw [decode, decodeBytes, if_neg notOdd, read], length, ?_⟩
  calc encode bytes = String.ofList ((text.toUTF8.toList.map char).map Char.toLower) := by
        rw [encode, written, List.map_map]
        rfl
    _ = text.toLower := by
        rw [chars, ← String.toList_map, String.ofList_toList]
        rfl

end Hex

namespace Id

/-- The text is refused as an identifier, with this error in this wording. -/
def Refused (text : String) (error : IdError) (wording : String) : Prop :=
  ofHex text = .error error ∧ error.message = wording

/-- What reading a text as an identifier comes to, by the bytes that the text consists of. -/
structure HexReading (text : String) (bytes : List UInt8) : Prop where
  /-- Exactly 64 digits are read as an identifier. -/
  accepted_iff :
    (∃ id, ofHex text = .ok id) ↔ bytes.length = 64 ∧ ∀ byte ∈ bytes, Hex.IsDigit byte
  /-- What is written of the identifier is the text in lower case. -/
  written : ∀ id, ofHex text = .ok id → id.hex = text.toLower
  /-- An odd number of bytes is the first reason to refuse a text. -/
  odd : bytes.length % 2 = 1 →
    Refused text (.badHex .oddLength) "Invalid hex encoding: Odd number of digits"
  /-- The next reason is a byte that is no digit; the first such byte is named with its index. -/
  flawed : ∀ before bad after, bytes.length % 2 = 0 → bytes = before ++ bad :: after →
    (∀ byte ∈ before, Hex.IsDigit byte) → ¬Hex.IsDigit bad →
      Refused text (.badHex (.badDigit bad before.length))
        ("Invalid hex encoding: Invalid character " ++ Text.quoteChar (Hex.char bad) ++
          " at position " ++ toString before.length)
  /-- The last reason is the length: two digits are a byte. -/
  misfit : bytes.length % 2 = 0 → (∀ byte ∈ bytes, Hex.IsDigit byte) → bytes.length ≠ 64 →
    Refused text (.wrongLength (bytes.length / 2))
      ("Invalid node ID length: expected 32 bytes, got " ++ toString (bytes.length / 2))

/-- A text of 64 digits is read as an identifier, of which the text in lower case is written. -/
theorem exists_ofHex {text : String} (length : text.toUTF8.toList.length = 64)
    (digits : ∀ byte ∈ text.toUTF8.toList, Hex.IsDigit byte) :
    ∃ id, ofHex text = .ok id ∧ id.hex = text.toLower := by
  obtain ⟨bytes, read, half, written⟩ := Hex.decode_of_digits (by omega) digits
  have whole : bytes.length = 32 := by omega
  refine ⟨ofBytes bytes, ?_, ?_⟩
  · rw [ofHex, read]
    exact if_pos whole
  · rw [hex, bytes_ofBytes bytes whole, written]

/-- An odd number of bytes is the first reason to refuse a text. -/
theorem ofHex_odd {text : String} (odd : text.toUTF8.toList.length % 2 = 1) :
    ofHex text = .error (.badHex .oddLength) := by
  rw [ofHex, Hex.decode, Hex.decodeBytes, if_pos odd]

/-- The next reason is a byte that is no digit. -/
theorem ofHex_flawed {text : String} {before after : List UInt8} {bad : UInt8}
    (even : text.toUTF8.toList.length % 2 = 0) (parts : text.toUTF8.toList = before ++ bad :: after)
    (digits : ∀ byte ∈ before, Hex.IsDigit byte) (flawed : ¬Hex.IsDigit bad) :
    ofHex text = .error (.badHex (.badDigit bad before.length)) := by
  have notOdd : text.toUTF8.toList.length % 2 ≠ 1 := by omega
  rw [parts] at even
  have refused := Hex.decodePairs_badDigit 0 even digits flawed
  rw [Nat.zero_add] at refused
  rw [ofHex, Hex.decode, Hex.decodeBytes, if_neg notOdd, parts, refused]

/-- The last reason is the number of bytes that the digits make. -/
theorem ofHex_misfit {text : String} (even : text.toUTF8.toList.length % 2 = 0)
    (digits : ∀ byte ∈ text.toUTF8.toList, Hex.IsDigit byte)
    (length : text.toUTF8.toList.length ≠ 64) :
    ofHex text = .error (.wrongLength (text.toUTF8.toList.length / 2)) := by
  obtain ⟨bytes, read, half, -⟩ := Hex.decode_of_digits even digits
  have number : text.toUTF8.toList.length / 2 = bytes.length := by omega
  rw [ofHex, read, number]
  exact if_neg (by omega)

/-- A text that is read as an identifier consists of 64 digits. -/
theorem digits_of_ofHex {text : String} {id : Id} (read : ofHex text = .ok id) :
    text.toUTF8.toList.length = 64 ∧ ∀ byte ∈ text.toUTF8.toList, Hex.IsDigit byte := by
  by_cases odd : text.toUTF8.toList.length % 2 = 1
  · rw [ofHex_odd odd] at read
    cases read
  have even : text.toUTF8.toList.length % 2 = 0 := by omega
  cases found : text.toUTF8.toList.find? fun byte => !decide (Hex.IsDigit byte) with
  | some bad =>
    obtain ⟨flawed, before, after, parts, digits⟩ := List.find?_eq_some_iff_append.mp found
    rw [ofHex_flawed even parts (by simpa using digits) (by simpa using flawed)] at read
    cases read
  | none =>
    have digits : ∀ byte ∈ text.toUTF8.toList, Hex.IsDigit byte := by
      simpa using List.find?_eq_none.mp found
    refine ⟨?_, digits⟩
    by_contra length
    rw [ofHex_misfit even digits length] at read
    cases read

/-- Exactly the texts of 64 digits of either case are read as identifiers, and what is written of
the identifier is the text in lower case; every identifier is read back from what is written of it;
any other text is refused for the first of the reasons that apply to it. -/
theorem reads_hex :
    (∀ text, HexReading text text.toUTF8.toList) ∧ ∀ id : Id, ofHex id.hex = .ok id := by
  constructor
  · intro text
    refine ⟨⟨?_, ?_⟩, ?_, ?_, ?_, ?_⟩
    · rintro ⟨id, read⟩
      exact digits_of_ofHex read
    · rintro ⟨length, digits⟩
      obtain ⟨id, read, -⟩ := exists_ofHex length digits
      exact ⟨id, read⟩
    · intro id read
      obtain ⟨length, digits⟩ := digits_of_ofHex read
      obtain ⟨other, again, written⟩ := exists_ofHex length digits
      rw [read] at again
      cases again
      exact written
    · exact fun odd => ⟨ofHex_odd odd, rfl⟩
    · exact fun before bad after even parts digits flawed =>
        ⟨ofHex_flawed even parts digits flawed, rfl⟩
    · exact fun even digits length => ⟨ofHex_misfit even digits length, rfl⟩
  · intro id
    rw [ofHex, hex, Hex.decode_encode]
    change ofSlice id.bytes = _
    rw [ofSlice, if_pos id.length_bytes, ofBytes_bytes]

end Id

end Overlay
