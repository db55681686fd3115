import Overlay.Decimal.Fixed
import Overlay.Simulation

/-!
# Printed reports

The report of a simulation is printed with one result a line: its name, and its value in a
column of its own. Results that belong to the line above are indented. Means are rounded to
one place, shares to two.
-/
namespace Overlay.SimulationReport

/-- The column in which values are printed. -/
def valueColumn : Nat := 18

/-- One line of a report. -/
def line (name value : String) : String :=
  name ++ ":" ++ String.ofList (List.replicate (valueColumn - 1 - name.length) ' ') ++ value ++ "\n"

/-- The lines of a report, in order. -/
def lines (r : SimulationReport) : List String := [
  line "nodes" (toString r.boot.nodes),
  line "mean table size" (r.boot.meanTableSize.fixed 1),
  line "offline" (toString r.offline),
  line "lookups" (toString r.lookups.length),
  line "  exact closest" (toString (LookupMeasure.exactCount r.lookups)),
  line "  mean overlap" ((LookupMeasure.meanOverlap r.lookups).fixed 2),
  line "  mean queries" ((LookupMeasure.meanQueries r.lookups).fixed 1),
  line "  failures" (toString (LookupMeasure.failureCount r.lookups)),
  line "discovery walks" (toString r.walks.length),
  line "  discovered" (toString (total r.walks)),
  line "messages" (toString r.delivered ++ " delivered, " ++ toString r.dropped ++ " dropped")]

/-- The printed report. -/
def text (r : SimulationReport) : String := String.join r.lines

end Overlay.SimulationReport
