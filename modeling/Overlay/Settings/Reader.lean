import Overlay.Settings.Document
import Overlay.Settings.Token

/-!
# Reading settings files

A settings file holds one document. Three dashes may open it and three dots close it, any
number of times. The keys of a mapping, and the dashes of a list, stand below each other, and
the items of a list below a key may stand in the column of the key. Between brackets the parts
of a collection are separated by commas, and one more comma may stand behind the last. A key in
a bracketed list makes a mapping of one entry. Values may be left empty behind a key or a dash.

Every function below passes at least one token between two calls of itself, and few calls lie
between them, so the fuel that a row of tokens is given is always enough.
-/
namespace Overlay.Settings

/-- A value with the name that it gives to an entry if it is the key. -/
structure Part where
  /-- The value. -/
  doc : Document
  /-- The name, given by single values only. -/
  name : Option String

namespace Part

/-- A value that was left empty. -/
def blank : Part := ⟨.blank, some ""⟩

/-- A single value; only a plain one can be a number. -/
def single (plain : Bool) (text : List Char) : Part :=
  let number := if plain then wholeNumber? text else none
  ⟨(number.map fun n => .integer n).getD .scalar, some (String.ofList text)⟩

/-- A list. -/
def list (items : List Part) : Part := ⟨.list (items.map (·.doc)), none⟩

/-- A mapping. -/
def mapping (entries : List (Part × Part)) : Part :=
  ⟨.mapping (entries.map fun e => (e.1.name, e.2.doc)), none⟩

end Part

mutual

/-- The value at the front of the tokens, empty where none begins. With `flush`, the items of a
list need no block of their own. -/
def part? (fuel : Nat) (flush : Bool) (tokens : List Token) : Option (Part × List Token) :=
  match fuel with
  | 0 => none
  | fuel + 1 =>
    match tokens with
    | .item :: _ =>
      if flush then do
        let (items, rest) ← items? fuel tokens
        some (.list items, rest)
      else some (.blank, tokens)
    | .single .. :: _ | .blockBegin _ :: _ | .bracketBegin _ :: _ => value? fuel tokens
    | _ => some (.blank, tokens)

/-- The value that begins with the first token. -/
def value? (fuel : Nat) (tokens : List Token) : Option (Part × List Token) :=
  match fuel with
  | 0 => none
  | fuel + 1 =>
    match tokens with
    | .single plain text :: rest => some (.single plain text, rest)
    | .bracketBegin .list :: rest => do
      let (items, rest) ← bracketItems? fuel rest
      some (.list items, rest)
    | .bracketBegin .mapping :: rest => do
      let (entries, rest) ← bracketEntries? fuel rest
      some (.mapping entries, rest)
    | .blockBegin .list :: rest => do
      match ← items? fuel rest with
      | (items, .blockEnd :: rest) => some (.list items, rest)
      | _ => none
    | .blockBegin .mapping :: rest => do
      match ← entries? fuel rest with
      | (entries, .blockEnd :: rest) => some (.mapping entries, rest)
      | _ => none
    | _ => none

/-- The items at the front of the tokens, each with its dash. -/
def items? (fuel : Nat) (tokens : List Token) : Option (List Part × List Token) :=
  match fuel with
  | 0 => none
  | fuel + 1 =>
    match tokens with
    | .item :: rest => do
      let (item, rest) ← part? fuel false rest
      let (others, rest) ← items? fuel rest
      some (item :: others, rest)
    | _ => some ([], tokens)

/-- The value of a key at the front of the tokens, empty without a colon. -/
def keyValue? (fuel : Nat) (flush : Bool) (tokens : List Token) : Option (Part × List Token) :=
  match fuel with
  | 0 => none
  | fuel + 1 =>
    match tokens with
    | .value :: rest => part? fuel flush rest
    | _ => some (.blank, tokens)

/-- The entry of a key whose mark was passed. -/
def entry? (fuel : Nat) (flush : Bool) (tokens : List Token) :
    Option ((Part × Part) × List Token) :=
  match fuel with
  | 0 => none
  | fuel + 1 => do
    let (key, rest) ← part? fuel flush tokens
    let (value, rest) ← keyValue? fuel flush rest
    some ((key, value), rest)

/-- The entries at the front of the tokens, outside brackets. -/
def entries? (fuel : Nat) (tokens : List Token) : Option (List (Part × Part) × List Token) :=
  match fuel with
  | 0 => none
  | fuel + 1 =>
    match tokens with
    | .key :: rest => do
      let (entry, rest) ← entry? fuel true rest
      let (others, rest) ← entries? fuel rest
      some (entry :: others, rest)
    | _ => some ([], tokens)

/-- The items up to the end of a bracket. A key left empty takes the token behind it along. -/
def bracketItems? (fuel : Nat) (tokens : List Token) : Option (List Part × List Token) :=
  match fuel with
  | 0 => none
  | fuel + 1 =>
    match tokens with
    | .bracketEnd .list :: rest => some ([], rest)
    | _ => do
      let (item, rest) ←
        match tokens with
        | .key :: .value :: rest | .key :: .comma :: rest | .key :: .bracketEnd .list :: rest => do
          let (value, rest) ← keyValue? fuel false rest
          some (Part.mapping [(.blank, value)], rest)
        | .key :: rest => do
          let (entry, rest) ← entry? fuel false rest
          some (Part.mapping [entry], rest)
        | _ => value? fuel tokens
      match rest with
      | .comma :: rest => do
        let (others, rest) ← bracketItems? fuel rest
        some (item :: others, rest)
      | .bracketEnd .list :: rest => some ([item], rest)
      | _ => none

/-- The entries up to the end of a bracket; one without a colon has an empty value. -/
def bracketEntries? (fuel : Nat) (tokens : List Token) :
    Option (List (Part × Part) × List Token) :=
  match fuel with
  | 0 => none
  | fuel + 1 =>
    match tokens with
    | .bracketEnd .mapping :: rest => some ([], rest)
    | _ => do
      let (entry, rest) ←
        match tokens with
        | .key :: rest => entry? fuel false rest
        | _ => do
          let (key, rest) ← value? fuel tokens
          some ((key, Part.blank), rest)
      match rest with
      | .comma :: rest => do
        let (others, rest) ← bracketEntries? fuel rest
        some (entry :: others, rest)
      | .bracketEnd .mapping :: rest => some ([entry], rest)
      | _ => none

end

/-- The document that the tokens make, if they make one. -/
def Document.ofTokens? (tokens : List Token) : Option Document :=
  let fuel := 8 * tokens.length + 8
  match tokens with
  | [] => some .blank
  | .opening :: rest => do
    let (part, rest) ← part? fuel false rest
    if rest.all (· = .closing) then some part.doc else none
  | _ => do
    let (part, rest) ← value? fuel tokens
    if rest.all (· = .closing) then some part.doc else none

/-- The document of a settings file, if it is well formed. -/
def Document.ofText? (text : String) : Option Document := do
  Document.ofTokens? (← Token.ofText? text)

end Overlay.Settings
