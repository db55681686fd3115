import Overlay.Scenario
import Overlay.Settings.Reader

/-!
# Scenario files

A scenario is kept in a settings file. What was written is read back as the same scenario;
whatever a file leaves out keeps its default, and an empty file is the default scenario. A file
is refused for the first of these reasons: it does not exist, it is no text, its text is no
scenario, its scenario cannot be played.
-/
namespace Overlay.Scenario

/-- What is found at a path. -/
inductive Content where
  /-- Nothing. -/
  | absent
  /-- Something that cannot be read, for this reason. -/
  | unreadable (reason : String)
  /-- These bytes. -/
  | bytes (content : ByteArray)

/-- Why a file is refused. -/
inductive Refusal where
  /-- Nothing is at this path. -/
  | absent (path : String)
  /-- The content is no text. -/
  | unreadable (reason : String)
  /-- The text is no settings file. -/
  | malformed
  /-- The settings are none of a scenario. -/
  | misshapen
  /-- The scenario cannot be played. -/
  | unplayable (problem : Problem)
  deriving DecidableEq, Repr

/-- What is said about a refused file. -/
def Refusal.complaint : Refusal → Complaint
  | .absent path => ⟨"Configuration file not found: " ++ path, []⟩
  | .unreadable reason => ⟨"Failed to read configuration file", [reason]⟩
  | .malformed => ⟨"Failed to parse configuration file", ["not a well-formed document"]⟩
  | .misshapen =>
    ⟨"Failed to parse configuration file", ["a setting has the wrong shape or is given twice"]⟩
  | .unplayable problem => problem.complaint

/-- The text of the file at a path. -/
def Content.text (path : String) : Content → Except Refusal String
  | .absent => .error (.absent path)
  | .unreadable reason => .error (.unreadable reason)
  | .bytes content =>
    match String.fromUTF8? content with
    | some text => .ok text
    | none => .error (.unreadable "stream did not contain valid UTF-8")

/-- The scenario that a text describes, playable or not. -/
def ofText (text : String) : Except Refusal Scenario :=
  match Settings.Document.ofText? text with
  | none => .error .malformed
  | some doc =>
    match read false doc with
    | none => .error .misshapen
    | some s => .ok s

/-- The playable scenario of a file. -/
def load (path : String) (content : Content) : Except Refusal Scenario := do
  let s ← ofText (← content.text path)
  match s.problem? with
  | some problem => .error (.unplayable problem)
  | none => .ok s

/-- The file of a scenario. -/
def file (s : Scenario) : String := Settings.Layout.file s layout

end Overlay.Scenario
