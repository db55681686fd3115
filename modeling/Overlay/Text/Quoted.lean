import Overlay.Text.Hidden

/-!
# Quoted characters and strings

A message that shows a character or a string as data puts it in quotes and writes what the
eye could not tell apart by code: a backslash and a letter for the common controls, the code
point in braces for every other hidden character. Only the quote that encloses the text is
itself escaped.
-/
namespace Overlay.Text

/-- The code point in lower-case hexadecimal. -/
def codeDigits (code : Nat) : String := String.ofList (Nat.toDigits 16 code)

/-- A character inside text enclosed by the quote `mark`. -/
def quotedChar (mark c : Char) : String :=
  if c = '\x00' then "\\0"
  else if c = '\t' then "\\t"
  else if c = '\r' then "\\r"
  else if c = '\n' then "\\n"
  else if c = '\\' || c = mark then String.ofList ['\\', c]
  else if isHidden c then "\\u\x7b" ++ codeDigits c.toNat ++ "\x7d"
  else String.singleton c

/-- A character between single quotes. -/
def quoteChar (c : Char) : String := "'" ++ quotedChar '\'' c ++ "'"

/-- A string between double quotes. -/
def quote (text : String) : String :=
  "\"" ++ String.join (text.toList.map (quotedChar '"')) ++ "\""

end Overlay.Text
