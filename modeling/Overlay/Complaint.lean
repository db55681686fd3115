/-!
# Complaints

A complaint tells a person what went wrong, followed by what caused it. It is shown on one
line, the parts joined by colons, or as a report that lists the causes below the summary.
-/
namespace Overlay

/-- What went wrong, and why. -/
structure Complaint where
  /-- What went wrong. -/
  summary : String
  /-- The causes, each one the cause of the one before. -/
  causes : List String := []
  deriving DecidableEq, Repr

namespace Complaint

/-- The complaint as the cause of another one. -/
def within (c : Complaint) (summary : String) : Complaint := ⟨summary, c.summary :: c.causes⟩

/-- All parts on one line. -/
def line (c : Complaint) : String := ": ".intercalate (c.summary :: c.causes)

/-- The causes below each other; several are numbered. -/
def causeLines (causes : List String) : List String :=
  match causes with
  | [] => []
  | [cause] => ["    " ++ cause]
  | _ => (causes.zipIdx).map fun (cause, i) =>
    String.ofList (List.replicate (5 - (toString i).length) ' ') ++ toString i ++ ": " ++ cause

/-- The summary, and the causes in a paragraph of their own. -/
def report (c : Complaint) : String :=
  match c.causes with
  | [] => c.summary
  | causes => "\n".intercalate ([c.summary, "", "Caused by:"] ++ causeLines causes)

end Complaint

end Overlay
