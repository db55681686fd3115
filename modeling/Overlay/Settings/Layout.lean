import Overlay.Settings.Document

/-!
# Layouts of settings

A layout lists the settings of a record in their written order: numbers with the bound of
their type, and groups of further settings. One layout serves reading and writing, as a
document or as the lines of a settings file, so all agree on names, order and bounds. A setting
that is not given keeps its default, and a name that the layout does not know is passed over; a
known name given twice is an error, and so is a key without a name.
-/
namespace Overlay.Settings

/-- One setting of a record of type `σ`, or a named group of them. -/
inductive Layout (σ : Type) where
  /-- A whole number from 0 to `bound`. -/
  | number (key : String) (bound : Nat) (get : σ → Nat) (set : Nat → σ → σ)
  /-- Settings written below a common name. -/
  | group (key : String) (members : List (Layout σ))

namespace Layout

variable {σ τ : Type}

/-- The name that a setting or group is written under. -/
def key : Layout σ → String
  | number key _ _ _ => key
  | group key _ => key

mutual

/-- The layout of a record that contains the given one as a part. -/
def within (get : τ → σ) (modify : (σ → σ) → τ → τ) : Layout σ → Layout τ
  | number key bound value set =>
    number key bound (fun whole => value (get whole)) (fun n => modify (set n))
  | group key members => group key (withinAll get modify members)

/-- `within` for every member of a group. -/
def withinAll (get : τ → σ) (modify : (σ → σ) → τ → τ) :
    List (Layout σ) → List (Layout τ)
  | [] => []
  | member :: rest => within get modify member :: withinAll get modify rest

end

mutual

/-- The document of one setting. -/
def write (record : σ) : Layout σ → Document
  | number _ _ get _ => .integer (get record)
  | group _ members => .mapping (writeAll record members)

/-- The documents of all members of a group, with their names. -/
def writeAll (record : σ) : List (Layout σ) → List (Option String × Document)
  | [] => []
  | member :: rest => (some member.key, write record member) :: writeAll record rest

end

/-- Two spaces for each level. -/
def indentation (level : Nat) : String := String.ofList (List.replicate (2 * level) ' ')

mutual

/-- The lines of one setting in a settings file, a group above its members. -/
def lines (level : Nat) (record : σ) : Layout σ → List String
  | number key _ get _ => [indentation level ++ key ++ ": " ++ toString (get record)]
  | group key members =>
    (indentation level ++ key ++ ":") :: linesAll (level + 1) record members

/-- The lines of all members of a group. -/
def linesAll (level : Nat) (record : σ) : List (Layout σ) → List String
  | [] => []
  | member :: rest => lines level record member ++ linesAll level record rest

end

/-- The settings file of a record. -/
def file (record : σ) (members : List (Layout σ)) : String :=
  String.join ((linesAll 0 record members).map (· ++ "\n"))

/-- The documents given for a name. -/
def given (key : String) (entries : List (Option String × Document)) : List Document :=
  (entries.filter fun e => e.1 = some key).map (·.2)

mutual

/-- Take one setting from a document. With `positional`, a group may also be written as the
list of its leading members. -/
def read (positional : Bool) (doc : Document) (record : σ) : Layout σ → Option σ
  | number _ bound _ set =>
    match doc with
    | .integer (.ofNat n) => if n ≤ bound then some (set n record) else none
    | _ => none
  | group _ members =>
    match doc with
    | .blank => some record
    | .mapping entries =>
      if entries.all (·.1.isSome) then readNamed positional entries record members else none
    | .list items => if positional then readListed positional items record members else none
    | _ => none

/-- Take the members of a group by name. -/
def readNamed (positional : Bool) (entries : List (Option String × Document)) (record : σ) :
    List (Layout σ) → Option σ
  | [] => some record
  | member :: rest =>
    match given member.key entries with
    | [] => readNamed positional entries record rest
    | [doc] => do readNamed positional entries (← read positional doc record member) rest
    | _ => none

/-- Take the leading members of a group by position. -/
def readListed (positional : Bool) (items : List Document) (record : σ) :
    List (Layout σ) → Option σ
  | [] => if items.isEmpty then some record else none
  | member :: rest =>
    match items with
    | [] => some record
    | doc :: later => do readListed positional later (← read positional doc record member) rest

end

end Layout

end Overlay.Settings
