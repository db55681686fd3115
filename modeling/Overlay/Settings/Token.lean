import Overlay.Settings.Scalar

/-!
# Tokens of a settings file

A settings file is first cut into tokens: single values, the marks between them, and the begin
and end of each collection. Between brackets these are written; outside them a block begins
where a dash or a key stands in a deeper column than the blocks around it, and ends before
whatever stands in a lesser one.

Only the colon behind it tells that a value is a key, so the scan remembers where a key may
have begun. A key stands on one row, and its colon follows within 1024 bytes. What stands
in the column of the block around it has to be a key.

References, types, literal blocks and directives are no part of settings files.
-/
namespace Overlay.Settings

/-- Which kind of collection. -/
inductive Shape where
  /-- Values in order. -/
  | list
  /-- Values with names. -/
  | mapping
  deriving DecidableEq, Repr

/-- A piece of a settings file. -/
inductive Token where
  /-- Three dashes at the front of a line. -/
  | opening
  /-- Three dots at the front of a line. -/
  | closing
  /-- A block begins here. -/
  | blockBegin (shape : Shape)
  /-- The innermost block ends here. -/
  | blockEnd
  /-- An opening bracket. -/
  | bracketBegin (shape : Shape)
  /-- A closing bracket. -/
  | bracketEnd (shape : Shape)
  /-- The dash before an item. -/
  | item
  /-- The comma between two parts of a bracket. -/
  | comma
  /-- A key follows. -/
  | key
  /-- The colon before the value of a key. -/
  | value
  /-- A single value, plain or between quotes. -/
  | single (plain : Bool) (text : List Char)
  deriving DecidableEq, Repr

/-- A place where a key may have begun. -/
structure KeyStart where
  /-- Number of tokens before it. -/
  token : Nat
  /-- The place itself. -/
  place : Place
  /-- Nothing but a key may stand there. -/
  required : Bool
  deriving Repr

/-- A colon at this place is still near enough to belong to the key. -/
def KeyStart.reaches (k : KeyStart) (p : Place) : Bool :=
  k.place.row = p.row && p.offset ≤ k.place.offset + 1024

/-- How far a text has been cut into tokens. -/
structure Scan where
  /-- The place of what comes next. -/
  place : Place
  /-- The tokens so far. -/
  tokens : Array Token := #[]
  /-- The columns of the blocks around the place, innermost first. -/
  blocks : List Nat := []
  /-- Where the next colon's key may have begun, within the innermost bracket. -/
  keyStart : Option KeyStart := none
  /-- The same for the surroundings of each bracket around the place, innermost first. -/
  outerKeys : List (Option KeyStart) := []
  /-- A key or block may begin at the place. -/
  fresh : Bool := true

namespace Scan

/-- There is a bracket around the place. -/
def bracketed (s : Scan) : Bool := !s.outerKeys.isEmpty

/-- The least column of what belongs to the innermost block. -/
def least (s : Scan) : Nat := (s.blocks.head?.map (· + 1)).getD 0

/-- The scan at the next place where something is written. Blocks may begin on a further line;
until then tabs are mere blanks. -/
def skip (s : Scan) : Scan :=
  let q := s.place.skip s.bracketed (s.bracketed || !s.fresh)
  { s with place := q, fresh := s.fresh || (!s.bracketed && s.place.row < q.row) }

/-- The scan with a token added that takes up so many characters. -/
def add (s : Scan) (token : Token) (width : Nat) (fresh : Bool) : Scan :=
  { s with place := s.place.behind width, tokens := s.tokens.push token, fresh := fresh }

/-- The scan with these innermost blocks ended. -/
def endBlocks (s : Scan) (ended : Nat → Bool) : Scan :=
  if s.bracketed then s
  else
    { s with tokens := s.tokens ++ (s.blocks.takeWhile ended).map fun _ => Token.blockEnd,
             blocks := s.blocks.dropWhile ended }

/-- The scan with a block begun before the token of this number, if the column is deeper than the
innermost block. -/
def beginBlock (s : Scan) (shape : Shape) (column token : Nat) : Scan :=
  if s.bracketed || column < s.least then s
  else
    { s with tokens := s.tokens.insertIdxIfInBounds token (.blockBegin shape),
             blocks := column :: s.blocks }

/-- The scan after it is clear that no key began where one may have begun. -/
def denyKey? (s : Scan) : Option Scan :=
  if s.keyStart.any (·.required) then none else some { s with keyStart := none }

/-- The scan after noting that a key may begin at its place. -/
def noteKey? (s : Scan) : Option Scan :=
  if s.fresh then do
    let required := !s.bracketed && s.blocks.head? = some s.place.column
    some { ← s.denyKey? with
      keyStart := some ⟨s.tokens.size, s.place, required⟩ }
  else some s

/-- Read a line that opens or closes the document. -/
def frame? (s : Scan) (token : Token) : Option Scan := do
  some ((← (s.endBlocks fun _ => true).denyKey?).add token 3 false)

/-- Read an opening bracket. -/
def beginBracket? (s : Scan) (shape : Shape) : Option Scan := do
  let s ← s.noteKey?
  let inner := { s with keyStart := none, outerKeys := s.keyStart :: s.outerKeys }
  some (inner.add (.bracketBegin shape) 1 true)

/-- Read a closing bracket. -/
def endBracket? (s : Scan) (shape : Shape) : Option Scan := do
  let s ← s.denyKey?
  let outer := { s with keyStart := s.outerKeys.head?.join, outerKeys := s.outerKeys.tail }
  some (outer.add (.bracketEnd shape) 1 false)

/-- Read a comma. -/
def comma? (s : Scan) : Option Scan := do some ((← s.denyKey?).add .comma 1 true)

/-- Read the dash of an item. -/
def item? (s : Scan) : Option Scan :=
  if s.bracketed || !s.fresh then none
  else do
    let s ← (s.beginBlock .list s.place.column s.tokens.size).denyKey?
    some (s.add .item 1 true)

/-- Read the question mark that announces a key. -/
def key? (s : Scan) : Option Scan :=
  if !s.bracketed && !s.fresh then none
  else do
    let s ← (s.beginBlock .mapping s.place.column s.tokens.size).denyKey?
    some (s.add .key 1 !s.bracketed)

/-- Read a colon behind a key that no question mark announced. -/
def valueOf (s : Scan) (k : KeyStart) : Scan :=
  let s := { s with tokens := s.tokens.insertIdxIfInBounds k.token .key, keyStart := none }
  (s.beginBlock .mapping k.place.column k.token).add .value 1 false

/-- Read a colon. -/
def value? (s : Scan) : Option Scan :=
  match s.keyStart.filter (·.reaches s.place) with
  | some k => some (s.valueOf k)
  | none =>
    if s.keyStart.any (·.required) || (!s.bracketed && !s.fresh) then none
    else some ((s.beginBlock .mapping s.place.column s.tokens.size).add .value 1 !s.bracketed)

/-- Take over a single value that was read at the place. -/
def single? (s : Scan) (plain : Bool) (reading : Option Reading) : Option Scan := do
  let s ← s.noteKey?
  let r ← reading
  some { s with place := r.place, tokens := s.tokens.push (.single plain r.text),
                fresh := r.broken }

/-- Read what is written at the place. -/
def step? (fuel : Nat) (s : Scan) : Option Scan :=
  match s.place.rest with
  | [] => none
  | c :: rest =>
    if s.place.isMark '-' then s.frame? .opening
    else if s.place.isMark '.' then s.frame? .closing
    else if c = '[' then s.beginBracket? .list
    else if c = '\x7b' then s.beginBracket? .mapping
    else if c = ']' then s.endBracket? .list
    else if c = '\x7d' then s.endBracket? .mapping
    else if c = ',' then s.comma?
    else if c = '-' && endsWord rest then s.item?
    else if c = '?' && (s.bracketed || endsWord rest) then s.key?
    else if c = ':' && (s.bracketed || endsWord rest) then s.value?
    else if c = '\'' || c = '"' then s.single? false (quoted? fuel s.place)
    else if beginsPlain s.bracketed (c :: rest) then
      s.single? true (plain? fuel s.bracketed s.least s.place)
    else none

/-- Cut the rest of the text. Each step passes a character and takes one unit of fuel, so there is
always a unit left for every character. -/
def run? (fuel : Nat) (s : Scan) : Option (Array Token) :=
  match fuel with
  | 0 => none
  | fuel + 1 =>
    let s := s.skip
    if s.place.isEnd then do some (← (s.endBlocks fun _ => true).denyKey?).tokens
    else do run? fuel (← (s.endBlocks (s.place.column < ·)).step? fuel)

end Scan

/-- The tokens of a text, unless it cannot be cut. -/
def Token.ofText? (text : String) : Option (List Token) :=
  if text.toList.all isWritable then do
    let p := Place.front text
    some (← Scan.run? (p.rest.length + 1) { place := p }).toList
  else none

end Overlay.Settings
