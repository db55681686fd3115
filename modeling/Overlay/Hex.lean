import Overlay.Text.Quoted

/-!
# Hexadecimal text

Bytes are written as two lower-case digits each, high half first, and read back in either
case. Reading works on the UTF-8 bytes of a text, so a flaw is reported at a byte position:
an odd number of bytes comes before everything else, and the first byte that is no digit
before any later one.
-/
namespace Overlay.Hex

/-- The digit of a value below sixteen. -/
def digit (value : Nat) : Char :=
  if value < 10 then Char.ofNat (48 + value) else Char.ofNat (87 + value)

/-- The value of a digit written as an ASCII byte. -/
def value? (byte : UInt8) : Option Nat :=
  let code := byte.toNat
  if 48 ≤ code ∧ code ≤ 57 then some (code - 48)
  else if 97 ≤ code ∧ code ≤ 102 then some (code - 87)
  else if 65 ≤ code ∧ code ≤ 70 then some (code - 55)
  else none

/-- The two digits of each byte in turn. -/
def digits : List UInt8 → List Char
  | [] => []
  | byte :: rest => digit (byte.toNat / 16) :: digit (byte.toNat % 16) :: digits rest

/-- The text of a byte sequence. -/
def encode (bytes : List UInt8) : String := String.ofList (digits bytes)

/-- Why a text is not the hexadecimal form of any byte sequence. -/
inductive Flaw where
  /-- The text has an odd number of bytes. -/
  | oddLength
  /-- The byte at this position is no digit. -/
  | badDigit (byte : UInt8) (position : Nat)
  deriving DecidableEq, Repr

/-- A byte that is no digit is shown as the character with its code. -/
def Flaw.message : Flaw → String
  | .oddLength => "Odd number of digits"
  | .badDigit byte position =>
    "Invalid character " ++ Text.quoteChar (Char.ofNat byte.toNat) ++
      " at position " ++ toString position

/-- Read digit pairs; `position` is the place of the first one in the whole text. -/
def decodePairs (position : Nat) : List UInt8 → Except Flaw (List UInt8)
  | [] => .ok []
  | [_] => .error .oddLength
  | high :: low :: rest =>
    match value? high with
    | none => .error (.badDigit high position)
    | some upper =>
      match value? low with
      | none => .error (.badDigit low (position + 1))
      | some lower =>
        (decodePairs (position + 2) rest).map (UInt8.ofNat (16 * upper + lower) :: ·)

/-- The bytes that a text spells, given as its UTF-8 bytes. -/
def decodeBytes (text : List UInt8) : Except Flaw (List UInt8) :=
  if text.length % 2 = 1 then .error .oddLength else decodePairs 0 text

/-- The bytes that a text spells. -/
def decode (text : String) : Except Flaw (List UInt8) :=
  decodeBytes text.toUTF8.toList

end Overlay.Hex
