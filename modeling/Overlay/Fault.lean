import Overlay.Id

/-!
# Faults

A fault is the reason why an operation did not give its result. Cancellation is the caller's
own doing and is told apart from everything that the network may answer for.
-/
namespace Overlay

/-- Why an operation gave no result. -/
inductive Fault where
  /-- The caller withdrew the operation. -/
  | cancelled
  /-- The request passed its deadline. -/
  | timeout
  /-- The node could not be reached. -/
  | unreachable (node : String)
  /-- The node was reached and the request failed there. -/
  | rpc (reason : String)
  /-- A parameter has no usable value. -/
  | invalidConfig (reason : String)
  /-- An identifier was malformed. -/
  | malformed (error : IdError)
  deriving DecidableEq, Repr

namespace Fault

/-- The wording of each fault. -/
def message : Fault → String
  | cancelled => "Operation cancelled"
  | timeout => "Operation timeout"
  | unreachable node => "Node unreachable: " ++ node
  | rpc reason => "RPC failed: " ++ reason
  | invalidConfig reason => "Invalid configuration: " ++ reason
  | malformed error => "Protocol error: " ++ error.message

/-- The name of each kind of fault. -/
def kind : Fault → String
  | cancelled => "Cancelled"
  | timeout => "Timeout"
  | unreachable _ => "Unreachable"
  | rpc _ => "Rpc"
  | invalidConfig _ => "InvalidConfig"
  | malformed _ => "Protocol"

/-- The form that names the kind of fault and shows what it carries. -/
def debug (fault : Fault) : String :=
  match fault with
  | cancelled | timeout => fault.kind
  | unreachable text | rpc text | invalidConfig text =>
    fault.kind ++ "(" ++ Text.quote text ++ ")"
  | malformed error => fault.kind ++ "(" ++ error.debug ++ ")"

/-- The fault is the caller's own doing. -/
def isCancelled : Fault → Bool
  | cancelled => true
  | _ => false

end Fault

end Overlay
