import Overlay.CommandLine.Options
import Overlay.Scenario.File
import Overlay.Simulation.Report

/-!
# Responses to a command

The response to a command is what is printed, the exit code, and what is to be written to the
scenario file. Refused arguments give code 2, a scenario that cannot be played code 1.
-/
namespace Overlay.CommandLine

/-- What a command results in. -/
structure Response where
  /-- The exit code. -/
  code : Nat := 0
  /-- What is printed as the result. -/
  out : String := ""
  /-- What is printed about errors. -/
  err : String := ""
  /-- The content to be written, and the path it belongs to. -/
  saved : Option (String × String) := none
  deriving DecidableEq, Repr

/-- The response that tells why nothing could be done. -/
def Response.failure (complaint : Complaint) : Response :=
  { code := 1, err := "Error: " ++ complaint.report ++ "\n" }

/-- The response to refused arguments. -/
def Response.misuse (program : String) (m : Misuse) : Response :=
  { code := 2
    err := "error: " ++ m.message ++ "\n\nUsage: " ++ program ++
      " [OPTIONS]\n\nFor more information, try '--help'.\n" }

namespace Options

/-- The file that is read for these options. -/
def source? (o : Options) : Option String := if o.init then none else o.config

/-- The scenario with what the options replace in it. -/
def adjust (o : Options) (s : Scenario) : Scenario :=
  { s with
    network := { s.network with
      nodes := o.nodes.getD s.network.nodes
      seed := o.seed.getD s.network.seed }
    workload := { s.workload with lookups := o.lookups.getD s.workload.lookups } }

/-- The scenario to be played. -/
def scenario (o : Options) (content : String → Scenario.Content) :
    Except Complaint Scenario :=
  match o.source? with
  | none => .ok (o.adjust {})
  | some path =>
    match Scenario.load path (content path) with
    | .ok s => .ok (o.adjust s)
    | .error refusal => .error refusal.complaint

/-- The results of playing the scenario. -/
def play (budget : Nat) (o : Options) (content : String → Scenario.Content) :
    Except Complaint SimulationReport := do
  let sim ← Simulation.build (← o.scenario content)
  match sim.run budget none with
  | some result => result
  | none => .error ⟨"The simulation cannot go on", []⟩

/-- The response to options, given what is found at each path. -/
def respond (budget : Nat) (o : Options) (content : String → Scenario.Content) : Response :=
  match o.init, o.config with
  | true, some path => { saved := some (path, ({} : Scenario).file) }
  | _, _ =>
    match o.play budget content with
    | .ok report => { out := report.text }
    | .error complaint => .failure complaint

end Options

/-- The file that is read for these arguments. -/
def source? (arguments : List String) : Option String :=
  match read arguments with
  | .ok (.run o) => o.source?
  | _ => none

/-- The directory of a path that names one. -/
def directory? (path : String) : Option String :=
  let parts := path.splitOn "/"
  if 1 < parts.length then some ("/".intercalate parts.dropLast) else none

/-- The response to arguments, given what is found at each path. -/
def respond (budget : Nat) (program : String) (arguments : List String)
    (content : String → Scenario.Content) : Response :=
  match read arguments with
  | .error m => .misuse program m
  | .ok .help => { out := help program }
  | .ok (.run o) => o.respond budget content

end Overlay.CommandLine
