import Overlay.Settings.Place
import Overlay.Text.Numeral

/-!
# Single values of a settings file

A single value is written plainly or between quotes. A plain value ends before a comment, a
colon that ends a word, and, between brackets, before any bracket or comma; it goes on over
further lines as long as they are indented deeply enough. Single quotes enclose a text in which
only they are written twice; double quotes one in which a backslash opens an escape. Line ends
inside a value count as spaces. Only a plain value can be a number.

Reading a value needs no more fuel than there are characters left.
-/
namespace Overlay.Settings

/-- The number behind a mark for its base. -/
def basedNumber? : List Char → Option Nat
  | '0' :: 'x' :: rest => Text.numeral? 16 rest
  | '0' :: 'o' :: rest => Text.numeral? 8 rest
  | '0' :: 'b' :: rest => Text.numeral? 2 rest
  | _ => none

/-- Decimal digits without a needless zero at the front. -/
def decimalNumber? : List Char → Option Nat
  | '0' :: _ :: _ => none
  | digits => Text.numeral? 10 digits

/-- The whole number that a plain value stands for: decimal digits, or digits of base 16, 8 or 2
behind their mark, with or without a plus. -/
def wholeNumber? (text : List Char) : Option Nat :=
  let unsigned := Text.dropPlus text
  (basedNumber? unsigned).or (decimalNumber? unsigned)

/-- A bracket or a comma. -/
def isBracket (c : Char) : Bool := ['[', ']', '\x7b', '\x7d', ','].contains c

/-- A plain value may begin with this text. -/
def beginsPlain (bracketed : Bool) : List Char → Bool
  | [] => false
  | c :: rest =>
    if c = '-' then !endsWord rest
    else if c = '?' || c = ':' then !bracketed && !endsWord rest
    else !(isBracket c || isGap c ||
      ['#', '&', '*', '!', '|', '>', '\'', '"', '%', '@', '\x60'].contains c)

/-- A plain value ends before this text. -/
def endsPlain (bracketed : Bool) : List Char → Bool
  | [] => true
  | ':' :: rest => endsWord rest
  | c :: _ => isGap c || (bracketed && isBracket c)

/-- A colon stands against a bracket where brackets count. -/
def isTornColon (bracketed : Bool) : List Char → Bool
  | ':' :: c :: _ => bracketed && (isBracket c || c = '?')
  | _ => false

/-- The word at the front of a text, as a part of a plain value. -/
def plainWord? (bracketed : Bool) : List Char → Option (List Char)
  | [] => some []
  | c :: rest =>
    if endsPlain bracketed (c :: rest) then some []
    else if isTornColon bracketed (c :: rest) then none
    else (plainWord? bracketed rest).map (c :: ·)

/-- A value and where it was read. -/
structure Reading where
  /-- The value. -/
  text : List Char
  /-- The place behind the value. -/
  place : Place
  /-- A line ended between the value and that place. -/
  broken : Bool

/-- Read on in a plain value, of which `text` was read, last character first, with `gap` behind it.
Further lines are indented by `least` columns or more. Each word takes one unit of fuel. -/
def readPlain? (fuel : Nat) (bracketed : Bool) (least : Nat) (text gap : List Char)
    (broken : Bool) (p : Place) : Option Reading :=
  match fuel with
  | 0 => none
  | fuel + 1 =>
    if p.isFrame || p.at? '#' then some ⟨text.reverse, p, broken⟩
    else do
      let word ← plainWord? bracketed p.rest
      if word.isEmpty then some ⟨text.reverse, p, broken⟩
      else
        let text := word.reverse ++ gap ++ text
        let q := p.behind word.length
        if q.atGap then do
          let gap ← Gap.read? least q
          let broken := gap.lineEnds ≠ 0
          if !bracketed && gap.place.column < least then
            some ⟨text.reverse, gap.place, broken⟩
          else readPlain? fuel bracketed least text gap.text broken gap.place
        else some ⟨text.reverse, q, false⟩

/-- The plain value at a place. -/
def plain? (fuel : Nat) (bracketed : Bool) (least : Nat) (p : Place) : Option Reading :=
  readPlain? fuel bracketed least [] [] false p

/-- The character that a letter stands for behind a backslash. -/
def escaped? (c : Char) : Option Char :=
  [('0', 0x00), ('a', 0x07), ('b', 0x08), ('t', 0x09), ('\t', 0x09), ('n', 0x0a),
    ('v', 0x0b), ('f', 0x0c), ('r', 0x0d), ('e', 0x1b), (' ', 0x20), ('"', 0x22),
    ('/', 0x2f), ('\\', 0x5c), ('N', 0x85), ('_', 0xa0), ('L', 0x2028), ('P', 0x2029)].lookup c
  |>.map Char.ofNat

/-- Number of digits behind a letter that announces a code point. -/
def codeWidth? (c : Char) : Option Nat := [('x', 2), ('u', 4), ('U', 8)].lookup c

/-- The character of a code point, if it has one. -/
def charOfCode? (code : Nat) : Option Char :=
  if code.isValidChar then some (Char.ofNat code) else none

/-- What the escape behind a backslash stands for, last character first, and the place behind it.
A line end behind the backslash joins two lines, and only empty lines between them count. -/
def escape? (p : Place) : Option (List Char × Place) :=
  match p.rest with
  | [] => none
  | '\n' :: _ => do
    let gap ← Gap.read? 0 p
    some (List.replicate (gap.lineEnds - 1) '\n', gap.place)
  | c :: rest =>
    match codeWidth? c with
    | none => do some ([← escaped? c], p.behind 1)
    | some width =>
      let digits := rest.take width
      if digits.length < width then none
      else do
        some ([← charOfCode? (← Text.numeral? 16 digits)], p.behind (1 + width))

/-- Read on in a value between these quotes, of which `text` was read, last character first. Each
part takes one unit of fuel. No line in it may open or close the document. -/
def readQuoted? (fuel : Nat) (quote : Char) (text : List Char) (p : Place) : Option Reading :=
  match fuel, p.rest with
  | 0, _ | _, [] => none
  | fuel + 1, c :: rest =>
    if p.isFrame then none
    else if isGap c then do
      let gap ← Gap.read? 0 p
      readQuoted? fuel quote (gap.text ++ text) gap.place
    else if c = quote then
      if c = '\'' && rest.head? = some c then readQuoted? fuel quote (c :: text) (p.behind 2)
      else some ⟨text.reverse, p.behind 1, false⟩
    else if c = '\\' && quote = '"' then do
      let (added, q) ← escape? (p.behind 1)
      readQuoted? fuel quote (added ++ text) q
    else readQuoted? fuel quote (c :: text) (p.behind 1)

/-- The quoted value at a place, which is an opening quote. -/
def quoted? (fuel : Nat) (p : Place) : Option Reading := do
  readQuoted? fuel (← p.rest.head?) [] (p.behind 1)

end Overlay.Settings
