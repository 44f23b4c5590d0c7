import FleetCoordination.Agent
import FleetCoordination.Arbitration
import FleetCoordination.Ballot
import FleetCoordination.CommandLine
import FleetCoordination.CommandLine.Outcome
import FleetCoordination.Compliance
import FleetCoordination.Decimal
import FleetCoordination.Decimal.Fixed
import FleetCoordination.Decimal.Shortest
import FleetCoordination.Decision
import FleetCoordination.Disk
import FleetCoordination.Election
import FleetCoordination.Engine
import FleetCoordination.Errand
import FleetCoordination.Evaluator
import FleetCoordination.Event
import FleetCoordination.EventChannel
import FleetCoordination.ExecutedWindow
import FleetCoordination.Fault
import FleetCoordination.Fleet
import FleetCoordination.Fleet.Simulation
import FleetCoordination.HealthHistory
import FleetCoordination.Json
import FleetCoordination.Json.Access
import FleetCoordination.Json.Printer
import FleetCoordination.Json.Reader
import FleetCoordination.Json.Record
import FleetCoordination.LatencyWindow
import FleetCoordination.Leadership
import FleetCoordination.Ledger
import FleetCoordination.Main
import FleetCoordination.Manifest
import FleetCoordination.Manifest.Discovery
import FleetCoordination.Manifest.Environment
import FleetCoordination.Manifest.Overview
import FleetCoordination.Manifest.Reader
import FleetCoordination.Manifest.Sample
import FleetCoordination.Manifest.Validation
import FleetCoordination.Manifest.Writer
import FleetCoordination.Message
import FleetCoordination.Metrics
import FleetCoordination.Network
import FleetCoordination.Node
import FleetCoordination.Node.Record
import FleetCoordination.Orchestration
import FleetCoordination.Policy
import FleetCoordination.Proofs.Arbitration
import FleetCoordination.Proofs.Arbitration.Preference
import FleetCoordination.Proofs.Ballot
import FleetCoordination.Proofs.Calendar
import FleetCoordination.Proofs.Constellation.Authority
import FleetCoordination.Proofs.Constellation.Commit
import FleetCoordination.Proofs.Constellation.Run
import FleetCoordination.Proofs.Election.Backers
import FleetCoordination.Proofs.Election.Cluster
import FleetCoordination.Proofs.Election.Coherence
import FleetCoordination.Proofs.Election.Move
import FleetCoordination.Proofs.Election.Notices
import FleetCoordination.Proofs.Election.Office
import FleetCoordination.Proofs.Election.Run
import FleetCoordination.Proofs.Election.Safety
import FleetCoordination.Proofs.Election.Split
import FleetCoordination.Proofs.Election.Support
import FleetCoordination.Proofs.Election.Term
import FleetCoordination.Proofs.Election.Timers
import FleetCoordination.Proofs.Engine.Accounting
import FleetCoordination.Proofs.Engine.Acknowledgement
import FleetCoordination.Proofs.Engine.Books
import FleetCoordination.Proofs.Engine.Cases
import FleetCoordination.Proofs.Engine.Collecting
import FleetCoordination.Proofs.Engine.Duplicates
import FleetCoordination.Proofs.Engine.Execution
import FleetCoordination.Proofs.Engine.History
import FleetCoordination.Proofs.Engine.Orders
import FleetCoordination.Proofs.Engine.Propagations
import FleetCoordination.Proofs.Engine.Reassigning
import FleetCoordination.Proofs.Engine.Reports
import FleetCoordination.Proofs.Engine.Resolution
import FleetCoordination.Proofs.Engine.RoleCommits
import FleetCoordination.Proofs.Engine.Rounds
import FleetCoordination.Proofs.Engine.Slots
import FleetCoordination.Proofs.Engine.Standing
import FleetCoordination.Proofs.Engine.Submissions
import FleetCoordination.Proofs.Engine.Votes
import FleetCoordination.Proofs.ExecutedWindow
import FleetCoordination.Proofs.Finality
import FleetCoordination.Proofs.HealthHistory
import FleetCoordination.Proofs.LastItems
import FleetCoordination.Proofs.LatencyWindow
import FleetCoordination.Proofs.Network.Delivery
import FleetCoordination.Proofs.Network.Run
import FleetCoordination.Proofs.Node.Cycle
import FleetCoordination.Proofs.Node.Disputes
import FleetCoordination.Proofs.Node.Roles
import FleetCoordination.Proofs.Node.Run
import FleetCoordination.Proofs.Orchestration.Gating
import FleetCoordination.Proofs.Poll
import FleetCoordination.Proofs.Propagation
import FleetCoordination.Proofs.Proposal
import FleetCoordination.Proofs.Quorum
import FleetCoordination.Proofs.Reassignment.Capacity
import FleetCoordination.Proofs.Reassignment.Crash
import FleetCoordination.Proofs.Reassignment.Cycle
import FleetCoordination.Proofs.Reassignment.Failover
import FleetCoordination.Proofs.Reassignment.Hysteresis
import FleetCoordination.Proofs.Reassignment.Planning
import FleetCoordination.Proofs.Reassignment.Primary
import FleetCoordination.Proofs.Reassignment.Recovery
import FleetCoordination.Proofs.Reassignment.Streak
import FleetCoordination.Proofs.Record
import FleetCoordination.Proofs.Ring
import FleetCoordination.Proofs.Safety
import FleetCoordination.Proofs.Scalar
import FleetCoordination.Proofs.Scalar.Exact
import FleetCoordination.Proofs.Scalar.Nearest
import FleetCoordination.Proofs.Scalar.Rank
import FleetCoordination.Proofs.Scalar.Rounding
import FleetCoordination.Proofs.Scalar.Share
import FleetCoordination.Proofs.Scalar.Whole
import FleetCoordination.Proofs.Swarm.Approval
import FleetCoordination.Proofs.Swarm.Forgery
import FleetCoordination.Proofs.Swarm.Grants
import FleetCoordination.Proofs.Swarm.Run
import FleetCoordination.Proofs.Table
import FleetCoordination.Proofs.Timestamp
import FleetCoordination.Proofs.Uuid
import FleetCoordination.Proofs.Views
import FleetCoordination.Proofs.Wire
import FleetCoordination.Proofs.World
import FleetCoordination.Propagation
import FleetCoordination.Proposal
import FleetCoordination.Quorum
import FleetCoordination.Reassignment
import FleetCoordination.Reassignment.Cycle
import FleetCoordination.Reassignment.Planning
import FleetCoordination.Record
import FleetCoordination.Ring
import FleetCoordination.Round
import FleetCoordination.Safety
import FleetCoordination.Scalar
import FleetCoordination.Settings
import FleetCoordination.Table
import FleetCoordination.Text.Blank
import FleetCoordination.Text.Sorted
import FleetCoordination.Timestamp
import FleetCoordination.Uuid
import FleetCoordination.Views
import FleetCoordination.Word
import FleetCoordination.World
import FleetCoordination.Yaml
import FleetCoordination.Yaml.Cursor
import FleetCoordination.Yaml.Printer
import FleetCoordination.Yaml.Reader
import FleetCoordination.Yaml.Scalar
import FleetCoordination.Yaml.Token
