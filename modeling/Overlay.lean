import Overlay.Main
import Overlay.Proofs.Bucket
import Overlay.Proofs.Metric
import Overlay.Proofs.Trie
import Overlay.Proofs.Table
import Overlay.Proofs.Contents
import Overlay.Proofs.Latest
import Overlay.Proofs.Spine
import Overlay.Proofs.Nearest
import Overlay.Proofs.Offers
import Overlay.Proofs.Announcements
import Overlay.Proofs.Lookup.Knowledge
import Overlay.Proofs.Lookup.History
import Overlay.Proofs.Lookup.Run
import Overlay.Proofs.Lookup.Exhaustion
import Overlay.Proofs.Lookup.Progress
import Overlay.Proofs.Lookup.Convergence
import Overlay.Proofs.Lookup.Termination
import Overlay.Proofs.Lookup.Signals
import Overlay.Proofs.Monitor.Probes
import Overlay.Proofs.Monitor.Run
import Overlay.Proofs.Monitor.Moves
import Overlay.Proofs.Monitor.Eviction
import Overlay.Proofs.Monitor.Information
import Overlay.Proofs.Recency
import Overlay.Proofs.CoolDown
import Overlay.Proofs.Tally
import Overlay.Proofs.Monitor.Failures
import Overlay.Proofs.Walk.Knowledge
import Overlay.Proofs.Walk.History
import Overlay.Proofs.Walk.Moves
import Overlay.Proofs.Walk.Run
import Overlay.Proofs.Walk.Progress
import Overlay.Proofs.Walk.Rounds
import Overlay.Proofs.Activity
import Overlay.Proofs.Callees
import Overlay.Proofs.Withdrawal
import Overlay.Proofs.Node.Run
import Overlay.Proofs.Node.Membership
import Overlay.Proofs.Node.Moves
import Overlay.Proofs.Node.Home
import Overlay.Proofs.Node.Exploration
import Overlay.Proofs.Node.Withdrawal
import Overlay.Proofs.Bootstrap
import Overlay.Proofs.Node.Bootstrap
import Overlay.Proofs.Node.Fairness
import Overlay.Proofs.Node.Joining
import Overlay.Proofs.Bytes
import Overlay.Proofs.Distance
import Overlay.Proofs.Draw
import Overlay.Proofs.Hex
import Overlay.Proofs.Arena
import Overlay.Proofs.Enumeration
import Overlay.Proofs.Bucket.Roster
import Overlay.Proofs.World
import Overlay.Proofs.Traffic
import Overlay.Proofs.World.Frame
import Overlay.Proofs.Schedule.Moves
import Overlay.Proofs.Schedule.Tasks
import Overlay.Proofs.Schedule.Probes
import Overlay.Proofs.Schedule.Termination
import Overlay.Proofs.Schedule.Operations
import Overlay.Proofs.Simulation.Start
import Overlay.Proofs.Simulation.Lookups
import Overlay.Proofs.Simulation.Bootstrap
import Overlay.Proofs.Simulation.Churn
import Overlay.Proofs.Simulation.Run
