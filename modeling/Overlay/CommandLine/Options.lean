import Overlay.Text.Numeral

/-!
# Options of the command line

Every argument is an option, written in full behind two dashes or as a letter behind one.
Letters may share a dash. A value follows its option as the next argument, behind an equals
sign, or directly behind a letter; as an argument of its own it must not look like an option.
No option may be given twice, and nothing else is accepted. Arguments are read from left to
right, and a wish for help is granted when nothing before it was wrong.
-/
namespace Overlay.CommandLine

/-- The options. -/
inductive Switch where
  /-- The scenario file. -/
  | config
  /-- Write the default scenario to the file. -/
  | init
  /-- The number of nodes. -/
  | nodes
  /-- The number of lookups. -/
  | lookups
  /-- The seed. -/
  | seed
  /-- More log output. -/
  | debug
  /-- Show the options. -/
  | help
  deriving DecidableEq, Repr

namespace Switch

/-- All options in the order in which help shows them. -/
def all : List Switch := [config, init, nodes, lookups, seed, debug, help]

/-- The full name of an option. -/
def name : Switch → String
  | config => "config"
  | init => "init"
  | nodes => "nodes"
  | lookups => "lookups"
  | seed => "seed"
  | debug => "debug"
  | help => "help"

/-- The letter of an option that has one. -/
def letter? : Switch → Option Char
  | config => some 'c'
  | init => none
  | nodes => some 'n'
  | lookups => some 'l'
  | seed => some 's'
  | debug => some 'd'
  | help => some 'h'

/-- The option takes a value. -/
def takesValue : Switch → Bool
  | config | nodes | lookups | seed => true
  | init | debug | help => false

/-- What an option does. -/
def purpose : Switch → String
  | config => "YAML configuration file"
  | init => "Write the default configuration to --config and exit"
  | nodes => "Override network.nodes"
  | lookups => "Override workload.lookups"
  | seed => "Override network.seed"
  | debug => "Enable debug logging"
  | help => "Print help"

/-- How help writes an option. -/
def usage (s : Switch) : String :=
  let short := match s.letter? with
    | some c => String.ofList ['-', c, ',', ' ']
    | none => "    "
  let value := if s.takesValue then " <" ++ s.name.map Char.toUpper ++ ">" else ""
  short ++ "--" ++ s.name ++ value

/-- The option of a full name. -/
def ofName? (name : String) : Option Switch := all.find? fun s => s.name = name

/-- The option of a letter. -/
def ofLetter? (c : Char) : Option Switch := all.find? fun s => s.letter? = some c

end Switch

/-- The options given. -/
structure Options where
  /-- The scenario file. -/
  config : Option String := none
  /-- Write the default scenario to the file. -/
  init : Bool := false
  /-- The number of nodes, in place of the one in the scenario. -/
  nodes : Option Nat := none
  /-- The number of lookups, in place of the one in the scenario. -/
  lookups : Option Nat := none
  /-- The seed, in place of the one in the scenario. -/
  seed : Option Nat := none
  /-- More log output. -/
  debug : Bool := false
  deriving DecidableEq, Repr

/-- Why arguments are refused. -/
inductive Misuse where
  /-- Nothing is known by this argument. -/
  | unknown (argument : String)
  /-- The option lacks its value. -/
  | noValue (option : Switch)
  /-- The option takes no value. -/
  | needlessValue (option : Switch)
  /-- The value is not one of the option. -/
  | badValue (option : Switch) (value : String)
  /-- The option is given twice. -/
  | repeated (option : Switch)
  /-- The file to be written is not given. -/
  | noFile
  deriving DecidableEq, Repr

/-- What is said about refused arguments. -/
def Misuse.message : Misuse → String
  | .unknown argument => "unexpected argument '" ++ argument ++ "'"
  | .noValue option => "a value is required for '--" ++ option.name ++ "'"
  | .needlessValue option => "no value is allowed for '--" ++ option.name ++ "'"
  | .badValue option value => "invalid value '" ++ value ++ "' for '--" ++ option.name ++ "'"
  | .repeated option => "'--" ++ option.name ++ "' cannot be used multiple times"
  | .noFile => "'--init' requires '--config'"

/-- What the user wants. -/
inductive Wish where
  /-- To see the options. -/
  | help
  /-- To run with these options. -/
  | run (options : Options)
  deriving DecidableEq, Repr

namespace Options

/-- The option has been given. -/
def has (o : Options) : Switch → Bool
  | .config => o.config.isSome
  | .init => o.init
  | .nodes => o.nodes.isSome
  | .lookups => o.lookups.isSome
  | .seed => o.seed.isSome
  | .debug => o.debug
  | .help => false

/-- The options with the value of one more; a number must be below `2 ^ 64`, a path not empty. -/
def withValue (o : Options) (s : Switch) (value : String) : Except Misuse Options :=
  if o.has s then .error (.repeated s)
  else
    let number (set : Nat → Options) : Except Misuse Options :=
      match Text.word? value with
      | some n => .ok (set n)
      | none => .error (.badValue s value)
    match s with
    | .config =>
      if value.isEmpty then .error (.badValue s value) else .ok { o with config := some value }
    | .nodes => number fun n => { o with nodes := some n }
    | .lookups => number fun n => { o with lookups := some n }
    | .seed => number fun n => { o with seed := some n }
    | .init | .debug | .help => .error (.needlessValue s)

/-- The options with one more that takes no value; none when it asks for help. -/
def withSwitch (o : Options) (s : Switch) : Except Misuse (Option Options) :=
  if o.has s then .error (.repeated s)
  else
    match s with
    | .help => .ok none
    | .init => .ok (some { o with init := true })
    | .debug => .ok (some { o with debug := true })
    | _ => .error (.noValue s)

end Options

/-- What is known after an argument. -/
inductive Progress where
  /-- Help is wanted. -/
  | help
  /-- These options were given, the last of which may still wait for its value. -/
  | options (given : Options) (waiting : Option Switch)

/-- The argument looks like an option. -/
def isDashed (argument : String) : Bool :=
  match argument.toList with
  | '-' :: _ :: _ => true
  | _ => false

/-- Read an option written in full, without its dashes. -/
def readLong (o : Options) (argument : String) (body : List Char) : Except Misuse Progress :=
  let name := body.takeWhile (· ≠ '=')
  match Switch.ofName? (String.ofList name) with
  | none => .error (.unknown argument)
  | some s =>
    match body.drop name.length with
    | [] =>
      if s.takesValue then .ok (.options o (some s))
      else do
        match ← o.withSwitch s with
        | some o => .ok (.options o none)
        | none => .ok .help
    | _ :: value => do
      if s.takesValue then .ok (.options (← o.withValue s (String.ofList value)) none)
      else .error (.needlessValue s)

/-- Read letters behind a dash. -/
def readLetters (o : Options) (argument : String) : List Char → Except Misuse Progress
  | [] => .ok (.options o none)
  | c :: rest =>
    match Switch.ofLetter? c with
    | none => .error (.unknown argument)
    | some s =>
      if s.takesValue then
        match rest with
        | [] => .ok (.options o (some s))
        | '=' :: value => do .ok (.options (← o.withValue s (String.ofList value)) none)
        | value => do .ok (.options (← o.withValue s (String.ofList value)) none)
      else do
        match ← o.withSwitch s with
        | some o => readLetters o argument rest
        | none => .ok .help

/-- Read one argument that is not a value. -/
def readArgument (o : Options) (argument : String) : Except Misuse Progress :=
  match argument.toList with
  | '-' :: '-' :: body => readLong o argument body
  | '-' :: c :: rest => readLetters o argument (c :: rest)
  | _ => .error (.unknown argument)

/-- The options are complete. -/
def finish (o : Options) : Except Misuse Wish :=
  if o.init && o.config.isNone then .error .noFile else .ok (.run o)

/-- Read the arguments that follow some options, the last of which may wait for its value. Two
dashes alone end the options; nothing may follow them. -/
def readFrom (o : Options) (waiting : Option Switch) : List String → Except Misuse Wish
  | [] =>
    match waiting with
    | some s => .error (.noValue s)
    | none => finish o
  | argument :: rest =>
    match waiting with
    | some s => do
      if isDashed argument then .error (.noValue s)
      else readFrom (← o.withValue s argument) none rest
    | none => do
      if argument = "--" then
        match rest with
        | [] => finish o
        | next :: _ => .error (.unknown next)
      else
        match ← readArgument o argument with
        | .help => .ok .help
        | .options o waiting => readFrom o waiting rest

/-- Read all arguments. -/
def read (arguments : List String) : Except Misuse Wish := readFrom {} none arguments

/-- The help text of a program of this name. -/
def help (program : String) : String :=
  let width := (Switch.all.map fun s => s.usage.length).foldl max 0
  let line (s : Switch) :=
    "  " ++ s.usage ++ String.ofList (List.replicate (width + 2 - s.usage.length) ' ') ++
      s.purpose ++ "\n"
  "Simulate a Kademlia network in memory and measure lookups\n\nUsage: " ++ program ++
    " [OPTIONS]\n\nOptions:\n" ++ String.join (Switch.all.map line)

end Overlay.CommandLine
