import Overlay.Hash.Blake2b
import Overlay.Hex

/-!
# Identifiers

An identifier is a 256-bit word. Its bytes are listed most significant first, and its bits
are numbered the same way, so bit 0 is the first bit of the first byte. Identifiers are
ordered as numbers, which is the order of their byte lists.
-/
namespace Overlay

/-- A point of the identifier space. -/
@[ext]
structure Id where
  /-- The 256 bits, most significant first. -/
  word : BitVec 256
  deriving DecidableEq, Repr

/-- Why a value is no identifier. -/
inductive IdError where
  /-- A byte sequence of this length is not 32 bytes long. -/
  | wrongLength (actual : Nat)
  /-- The text is not hexadecimal. -/
  | badHex (flaw : Hex.Flaw)
  deriving DecidableEq, Repr

namespace IdError

/-- The wording of each error. -/
def message : IdError → String
  | wrongLength actual =>
    "Invalid node ID length: expected 32 bytes, got " ++ toString actual
  | badHex flaw => "Invalid hex encoding: " ++ flaw.message

/-- The form that names the kind of error and its parts. -/
def debug : IdError → String
  | wrongLength actual =>
    "InvalidNodeIdLength \x7b expected: 32, actual: " ++ toString actual ++ " \x7d"
  | badHex flaw => "InvalidHex(" ++ Text.quote flaw.message ++ ")"

end IdError

/-- A bit was asked for at an index beyond the last one. -/
structure BitOutOfRange where
  /-- The index asked for. -/
  index : Nat
  deriving DecidableEq, Repr

/-- The wording of the complaint. -/
def BitOutOfRange.message (e : BitOutOfRange) : String :=
  "bit index " ++ toString e.index ++ " out of range"

namespace Id

/-- Number of bytes of an identifier. -/
def byteLength : Nat := 32

/-- Number of bits of an identifier. -/
def bitLength : Nat := 256

/-- The identifier whose bits are all clear. -/
def zero : Id := ⟨0⟩

instance : Inhabited Id := ⟨zero⟩

instance : LT Id := ⟨fun a b => a.word < b.word⟩

instance : LE Id := ⟨fun a b => a.word ≤ b.word⟩

instance (a b : Id) : Decidable (a < b) := inferInstanceAs (Decidable (a.word < b.word))

instance (a b : Id) : Decidable (a ≤ b) := inferInstanceAs (Decidable (a.word ≤ b.word))

/-- The identifier whose big-endian bytes are given, read modulo the size of the space. -/
def ofBytes (bytes : List UInt8) : Id :=
  ⟨BitVec.ofNat 256 (bytes.foldl (fun value byte => 256 * value + byte.toNat) 0)⟩

/-- The byte at a position below 32, most significant first. -/
def byte (id : Id) (position : Nat) : UInt8 :=
  UInt8.ofNat (id.word.toNat >>> (8 * (31 - position)))

/-- The 32 bytes, most significant first. -/
def bytes (id : Id) : List UInt8 := (List.range 32).map id.byte

/-- Reads exactly 32 bytes. -/
def ofSlice (bytes : List UInt8) : Except IdError Id :=
  if bytes.length = 32 then .ok (ofBytes bytes) else .error (.wrongLength bytes.length)

/-- Reads a list of exactly 32 numbers, each of them a byte. -/
def ofNumbers? (numbers : List Int) : Option Id :=
  if numbers.length = 32 ∧ numbers.all (fun n => decide (0 ≤ n) && decide (n < 256)) then
    some (ofBytes (numbers.map fun n => UInt8.ofNat n.toNat))
  else none

/-- The 64 lower-case digits of an identifier. -/
def hex (id : Id) : String := Hex.encode id.bytes

/-- Reads hexadecimal digits of either case; a flawed text is refused before a wrong length. -/
def ofHex (text : String) : Except IdError Id :=
  match Hex.decode text with
  | .error flaw => .error (.badHex flaw)
  | .ok bytes => ofSlice bytes

/-- The short form shown to people: the first sixteen digits. -/
def short (id : Id) : String := String.ofList (id.hex.toList.take 16)

/-- The form that names its type. -/
def debug (id : Id) : String := "NodeId(" ++ id.hex ++ ")"

/-- The identifier of arbitrary key material: the first half of its BLAKE2b digest. -/
def hash (data : List UInt8) : Id := ofBytes ((Hash.Blake2b.digest data).take 32)

/-- The identifier of a text, hashed as UTF-8. -/
def hashText (text : String) : Id := hash text.toUTF8.toList

/-- The bit at an index, most significant first; clear beyond the last one. -/
def bit (id : Id) (index : Nat) : Bool := id.word.getMsbD index

/-- The word with the one bit at `index` set. -/
def unit (index : Nat) : BitVec 256 := BitVec.twoPow 256 (255 - index)

/-- The identifier with the bit at an index below 256 replaced. -/
def withBit (id : Id) (index : Nat) (value : Bool) : Id :=
  if value then ⟨id.word ||| unit index⟩ else ⟨id.word &&& ~~~(unit index)⟩

/-- The bit at an index that has to be below 256. -/
def bitAt (id : Id) (index : Nat) : Except BitOutOfRange Bool :=
  if index < 256 then .ok (id.bit index) else .error ⟨index⟩

/-- `withBit` at an index that has to be below 256. -/
def withBitAt (id : Id) (index : Nat) (value : Bool) : Except BitOutOfRange Id :=
  if index < 256 then .ok (id.withBit index value) else .error ⟨index⟩

/-- All bits in order. -/
def bits (id : Id) : List Bool := (List.range 256).map id.bit

end Id

end Overlay
