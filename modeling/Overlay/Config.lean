import Overlay.Fault
import Overlay.Settings.Layout

/-!
# Parameters of a node

All parameters are whole numbers with usable defaults. Those that no node can work with are
refused before a node is created, in the order in which they are checked here.
-/
namespace Overlay

/-- Parameters of the discovery walk. -/
structure WalkConfig where
  /-- The largest number of rounds. -/
  maxRounds : Nat := 3
  /-- Results wanted before a stalled walk may end. -/
  minResults : Nat := 20
  /-- Rounds in a row without a closer node that make a walk stalled. -/
  stallRounds : Nat := 2
  /-- Queries in one round. -/
  roundWidth : Nat := 20
  /-- Seconds for which a failed node is left alone. -/
  coolDownSecs : Nat := 300
  /-- Number of failed nodes remembered. -/
  coolDownSize : Nat := 1024
  deriving DecidableEq, Repr

/-- Parameters of a node. -/
structure Config where
  /-- Capacity of a bucket, and number of nodes that a lookup returns. -/
  k : Nat := 20
  /-- Number of workers of a lookup. -/
  alpha : Nat := 10
  /-- Depth from which buckets are not divided. -/
  maxSplitDepth : Nat := 256
  /-- Milliseconds that a query may take. -/
  requestTimeout : Nat := 5000
  /-- Milliseconds that a ping may take. -/
  pingTimeout : Nat := 2000
  /-- Milliseconds between finding a bucket full and probing its stalest contact. -/
  probeDelay : Nat := 200
  /-- Failures in a row that remove a contact. -/
  failureThreshold : Nat := 5
  /-- Number of contacts whose failures are counted. -/
  failureCacheSize : Nat := 1024
  /-- Milliseconds after which an idle worker of a lookup looks for work again. -/
  pollInterval : Nat := 20
  /-- Seconds between two bootstraps. -/
  refreshSecs : Nat := 600
  /-- Parameters of the discovery walk. -/
  walk : WalkConfig := {}
  deriving DecidableEq, Repr

/-- Why no node can work with given parameters. -/
inductive Config.Problem where
  /-- The parameter of this name must not be zero. -/
  | zero (key : String)
  /-- Buckets cannot be divided beyond the last bit. -/
  | depthBeyondBits (depth : Nat)
  deriving DecidableEq, Repr

/-- The wording of each problem. -/
def Config.Problem.message : Config.Problem → String
  | .zero key => key ++ " must be at least 1"
  | .depthBeyondBits depth =>
    "max_split_depth " ++ toString depth ++ " exceeds identifier length 256"

namespace Config

open Settings (Layout)

/-- The largest 64-bit number. -/
def max64 : Nat := UInt64.size - 1

/-- The largest 32-bit number. -/
def max32 : Nat := UInt32.size - 1

/-- Parameters of the discovery walk as they are written. -/
def walkLayout : List (Layout WalkConfig) := [
  .number "max_rounds" max64 (·.maxRounds) fun n c => { c with maxRounds := n },
  .number "min_results" max64 (·.minResults) fun n c => { c with minResults := n },
  .number "stall_rounds" max64 (·.stallRounds) fun n c => { c with stallRounds := n },
  .number "round_width" max64 (·.roundWidth) fun n c => { c with roundWidth := n },
  .number "unreachable_cooldown_secs" max64 (·.coolDownSecs)
    fun n c => { c with coolDownSecs := n },
  .number "unreachable_cache_size" max64 (·.coolDownSize)
    fun n c => { c with coolDownSize := n }]

/-- Parameters of a node as they are written. -/
def layout : List (Layout Config) := [
  .number "k" max64 (·.k) fun n c => { c with k := n },
  .number "alpha" max64 (·.alpha) fun n c => { c with alpha := n },
  .number "max_split_depth" max64 (·.maxSplitDepth) fun n c => { c with maxSplitDepth := n },
  .number "request_timeout_ms" max64 (·.requestTimeout)
    fun n c => { c with requestTimeout := n },
  .number "ping_timeout_ms" max64 (·.pingTimeout) fun n c => { c with pingTimeout := n },
  .number "refresh_debounce_ms" max64 (·.probeDelay) fun n c => { c with probeDelay := n },
  .number "failure_threshold" max32 (·.failureThreshold)
    fun n c => { c with failureThreshold := n },
  .number "failure_cache_size" max64 (·.failureCacheSize)
    fun n c => { c with failureCacheSize := n },
  .number "lookup_poll_interval_ms" max64 (·.pollInterval)
    fun n c => { c with pollInterval := n },
  .number "refresh_interval_secs" max64 (·.refreshSecs) fun n c => { c with refreshSecs := n },
  .group "discovery"
    (Layout.withinAll (·.walk) (fun f c => { c with walk := f c.walk }) walkLayout)]

/-- Read parameters; those not given keep their defaults. -/
def read (positional : Bool) (doc : Settings.Document) : Option Config :=
  Layout.read positional doc {} (.group "" layout)

/-- All parameters in their written order. -/
def write (config : Config) : Settings.Document := Layout.write config (.group "" layout)

/-- The first reason why no node can work with the parameters. -/
def problem? (c : Config) : Option Problem :=
  if c.k = 0 then some (.zero "k")
  else if c.alpha = 0 then some (.zero "alpha")
  else if Id.bitLength < c.maxSplitDepth then some (.depthBeyondBits c.maxSplitDepth)
  else if c.failureThreshold = 0 then some (.zero "failure_threshold")
  else if c.failureCacheSize = 0 then some (.zero "failure_cache_size")
  else if c.walk.maxRounds = 0 then some (.zero "discovery.max_rounds")
  else if c.walk.roundWidth = 0 then some (.zero "discovery.round_width")
  else if c.walk.coolDownSize = 0 then some (.zero "discovery.unreachable_cache_size")
  else none

/-- Refuses parameters that no node can work with. -/
def validate (c : Config) : Except Fault Unit :=
  match c.problem? with
  | some problem => .error (.invalidConfig problem.message)
  | none => .ok ()

/-- Milliseconds between two bootstraps. -/
def refreshInterval (c : Config) : Nat := 1000 * c.refreshSecs

/-- Milliseconds for which a failed node is left alone. -/
def coolDown (c : Config) : Nat := 1000 * c.walk.coolDownSecs

/-- Completed queries in a row without improvement after which a lookup has converged. -/
def patience (c : Config) : Nat := 2 * c.alpha

end Config

end Overlay
