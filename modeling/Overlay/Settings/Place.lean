/-!
# Places in a settings file

Reading moves a place through a text. A place knows its row and column, because blocks are
formed by indentation and a key stands on one row. Blanks, comments and line ends separate what
is written; a byte order mark at the front of a line is passed over too, but takes up a column.
-/
namespace Overlay.Settings

/-- What is left of a text to read. -/
structure Place where
  /-- The characters from here on; every line end is a line feed. -/
  rest : List Char
  /-- Number of lines above. -/
  row : Nat
  /-- Number of characters before the place on its line. -/
  column : Nat
  /-- Number of bytes that these characters take up. -/
  offset : Nat
  deriving Repr

/-- A space or a tab. -/
def isBlank (c : Char) : Bool := c = ' ' || c = '\t'

/-- The character separates words: a blank or a line end. -/
def isGap (c : Char) : Bool := isBlank c || c = '\n'

/-- What comes next ends a word: a blank, a line end or nothing. -/
def endsWord : List Char → Bool
  | [] => true
  | c :: _ => isGap c

/-- Three times this character, ending a word. -/
def isTriple (mark : Char) : List Char → Bool
  | a :: b :: c :: rest => a = mark && b = mark && c = mark && endsWord rest
  | _ => false

/-- The character may stand in a settings file. -/
def isWritable (c : Char) : Bool :=
  let code := c.toNat
  c = '\t' || c = '\n' || c = '\r' || (0x20 ≤ code && code ≤ 0x7e) || code = 0x85 ||
    (0xa0 ≤ code && code ≤ 0xfffd) || 0x10000 ≤ code

/-- The character ends a line. -/
def isLineEnd (c : Char) : Bool :=
  c = '\n' || c = '\r' || c.toNat = 0x85 || c.toNat = 0x2028 || c.toNat = 0x2029

/-- The text with every line end as a line feed; a carriage return with a line feed is one. -/
def unifyLineEnds : List Char → List Char
  | [] => []
  | '\r' :: '\n' :: rest => '\n' :: unifyLineEnds rest
  | c :: rest => (if isLineEnd c then '\n' else c) :: unifyLineEnds rest

/-- The character is a byte order mark. -/
def isOrderMark (c : Char) : Bool := c.toNat = 0xfeff

namespace Place

/-- The front of a text. -/
def front (text : String) : Place := ⟨unifyLineEnds text.toList, 0, 0, 0⟩

/-- Nothing is left to read. -/
def isEnd (p : Place) : Bool := p.rest.isEmpty

/-- The place behind a character, with this text after it. -/
def past (p : Place) (c : Char) (rest : List Char) : Place :=
  if c = '\n' then ⟨rest, p.row + 1, 0, 0⟩
  else ⟨rest, p.row, p.column + 1, p.offset + c.utf8Size⟩

/-- The place behind so many characters. -/
def behind (p : Place) (count : Nat) : Place :=
  match count, p.rest with
  | count + 1, c :: rest => (p.past c rest).behind count
  | _, _ => p

/-- The character at the place is this one. -/
def at? (p : Place) (c : Char) : Bool := p.rest.head? = some c

/-- The character at the place separates words. -/
def atGap (p : Place) : Bool := p.rest.head?.any isGap

/-- At the place a line begins with this character three times. -/
def isMark (p : Place) (mark : Char) : Bool := p.column = 0 && isTriple mark p.rest

/-- A line that opens or closes the document begins at the place. -/
def isFrame (p : Place) : Bool := p.isMark '-' || p.isMark '.'

/-- Pass over separators. Tabs are among them on this line if `tabs` says so, and on further lines
if `laterTabs` does; `comment` tells whether the place is inside a comment. -/
def skipFrom (laterTabs tabs comment : Bool) (p : Place) : List Char → Place
  | [] => p
  | c :: rest =>
    if c = '\n' then skipFrom laterTabs laterTabs false (p.past c rest) rest
    else if comment || c = ' ' || (c = '\t' && tabs) || (p.column = 0 && isOrderMark c) then
      skipFrom laterTabs tabs comment (p.past c rest) rest
    else if c = '#' then skipFrom laterTabs tabs true (p.past c rest) rest
    else p

/-- The next place at which something is written. -/
def skip (laterTabs tabs : Bool) (p : Place) : Place :=
  skipFrom laterTabs tabs false p p.rest

end Place

/-- What separates two words of a value. -/
structure Gap where
  /-- The blanks before the first line end, last one first. -/
  blanks : List Char
  /-- Number of line ends. -/
  lineEnds : Nat
  /-- The place of the next word. -/
  place : Place

namespace Gap

/-- What the line ends of a gap mean to the value: a lone one is a space, and of several ones the
first is left out. -/
def folded (lineEnds : Nat) : List Char :=
  if lineEnds = 1 then [' '] else List.replicate (lineEnds - 1) '\n'

/-- The gap as a part of the value, last character first. -/
def text (g : Gap) : List Char := if g.lineEnds = 0 then g.blanks else folded g.lineEnds

/-- Read on in a gap, where no tab may stand before column `least` of a further line. -/
def readFrom? (least : Nat) (g : Gap) : List Char → Option Gap
  | [] => some g
  | c :: rest =>
    let behind := { g with place := g.place.past c rest }
    if c = '\n' then readFrom? least { behind with lineEnds := g.lineEnds + 1 } rest
    else if isBlank c then
      if g.lineEnds = 0 then readFrom? least { behind with blanks := c :: g.blanks } rest
      else if c = '\t' && g.place.column < least then none
      else readFrom? least behind rest
    else some g

/-- The gap at a place. -/
def read? (least : Nat) (p : Place) : Option Gap := readFrom? least ⟨[], 0, p⟩ p.rest

end Gap

end Overlay.Settings
