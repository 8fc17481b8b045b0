import ScheduleSearch.Table
import ScheduleSearch.Thread.Id
import ScheduleSearch.Thread.Order
import ScheduleSearch.Monitor.Basic
import ScheduleSearch.Thread.RunState
import ScheduleSearch.Fault
import ScheduleSearch.Monitor.MonitorTable
import ScheduleSearch.Thread.Registry
import ScheduleSearch.Thread.Joins
import ScheduleSearch.Decision.Trace
import ScheduleSearch.Decision.Source
import ScheduleSearch.Decision.Tree
import ScheduleSearch.Decision.DepthFirst
import ScheduleSearch.Decision.Replay
import ScheduleSearch.Decision.Script
import ScheduleSearch.Scheduler.Event
import ScheduleSearch.Scheduler.State
import ScheduleSearch.Scheduler.Pick
import ScheduleSearch.Scheduler.Step
import ScheduleSearch.Exploration.EventProgram
import ScheduleSearch.Exploration.Search
import ScheduleSearch.Checkpoint.Lexeme
import ScheduleSearch.Checkpoint.Skip
import ScheduleSearch.Checkpoint.Writer
import ScheduleSearch.Checkpoint.Reader
import ScheduleSearch.Text.Blank
import ScheduleSearch.Harness.Config
import ScheduleSearch.Gate.Basic
import ScheduleSearch.Cooperative.Context
import ScheduleSearch.Cooperative.Program
import ScheduleSearch.Cooperative.Machine
import ScheduleSearch.Harness.Check
import ScheduleSearch.Cooperative.Execution
import ScheduleSearch.Proofs.Decision.Program
import ScheduleSearch.Proofs.Decision.Sequence
import ScheduleSearch.Proofs.Decision.Obedience
import ScheduleSearch.Proofs.Decision.TreeLinks
import ScheduleSearch.Proofs.Decision.Completion
import ScheduleSearch.Proofs.Decision.Coverage
import ScheduleSearch.Proofs.Decision.DepthFirstWalk
import ScheduleSearch.Proofs.Decision.Exhaustive
import ScheduleSearch.Proofs.Decision.Places
import ScheduleSearch.Proofs.Decision.Sessions
import ScheduleSearch.Proofs.Decision.Course
import ScheduleSearch.Proofs.Decision.Nondeterminism
import ScheduleSearch.Proofs.Decision.Frontier
import ScheduleSearch.Proofs.Decision.Termination
import ScheduleSearch.Proofs.State.Lookup
import ScheduleSearch.Proofs.State.RunStates
import ScheduleSearch.Proofs.Monitor.Queues
import ScheduleSearch.Proofs.Monitor.Effects
import ScheduleSearch.Proofs.Monitor.Soundness
import ScheduleSearch.Proofs.State.Joins
import ScheduleSearch.Proofs.Scheduler.Prepare
import ScheduleSearch.Proofs.Monitor.Views
import ScheduleSearch.Proofs.Scheduler.Coherence
import ScheduleSearch.Proofs.Scheduler.Events
import ScheduleSearch.Proofs.Scheduler.Prompts
import ScheduleSearch.Proofs.Scheduler.Lifecycle
import ScheduleSearch.Proofs.Scheduler.Choice
import ScheduleSearch.Proofs.Monitor.Shares
import ScheduleSearch.Proofs.Monitor.Calls
import ScheduleSearch.Proofs.Monitor.Ownership
import ScheduleSearch.Proofs.Monitor.Delivery
import ScheduleSearch.Proofs.Monitor.Waiters
import ScheduleSearch.Proofs.Scheduler.Runs
import ScheduleSearch.Proofs.Scheduler.Reentrancy
import ScheduleSearch.Proofs.Scheduler.Frame
import ScheduleSearch.Proofs.Scheduler.Schedules
import ScheduleSearch.Proofs.Scheduler.Reasons
import ScheduleSearch.Proofs.Scheduler.Stalls
import ScheduleSearch.Proofs.Scheduler.StuckThreads
import ScheduleSearch.Proofs.Scheduler.LockOrder
import ScheduleSearch.Proofs.Scheduler.Blocking
import ScheduleSearch.Proofs.Scheduler.Awakenings
import ScheduleSearch.Proofs.Scheduler.Causes
import ScheduleSearch.Proofs.Monitor.Spelling
import ScheduleSearch.Proofs.Scheduler.Likeness
import ScheduleSearch.Proofs.Exploration.ProgramTree
import ScheduleSearch.Proofs.Exploration.Progress
import ScheduleSearch.Proofs.Exploration.Completeness
import ScheduleSearch.Proofs.Exploration.Orders
import ScheduleSearch.Proofs.Decision.Retrace
import ScheduleSearch.Proofs.Exploration.Interleavings
import ScheduleSearch.Proofs.Exploration.LockNumbers
import ScheduleSearch.Proofs.Exploration.Reproduction
import ScheduleSearch.Proofs.Harness.Verdicts
import ScheduleSearch.Proofs.Exploration.FreeChoices
import ScheduleSearch.Proofs.Exploration.IndependentThreads
import ScheduleSearch.Proofs.Exploration.InterleavingCount
import ScheduleSearch.Proofs.Scheduler.AnyActor
import ScheduleSearch.Proofs.Gate.Calls
import ScheduleSearch.Proofs.Gate.System
import ScheduleSearch.Proofs.Gate.Latch
import ScheduleSearch.Proofs.Gate.Ready
import ScheduleSearch.Proofs.Gate.Posts
import ScheduleSearch.Proofs.Gate.Manning
import ScheduleSearch.Proofs.Gate.Turns
import ScheduleSearch.Proofs.Scheduler.Interrupts
import ScheduleSearch.Proofs.Scheduler.QueuePlaces
import ScheduleSearch.Proofs.Cooperative.Plans
import ScheduleSearch.Proofs.Cooperative.Moves
import ScheduleSearch.Proofs.Cooperative.Steps
import ScheduleSearch.Proofs.Cooperative.Tasks
import ScheduleSearch.Proofs.Cooperative.Failures
import ScheduleSearch.Proofs.Cooperative.Reports
import ScheduleSearch.Proofs.Cooperative.Runs
import ScheduleSearch.Proofs.Cooperative.Waits
import ScheduleSearch.Proofs.Cooperative.LocksInStep
import ScheduleSearch.Proofs.Cooperative.DataLocks
import ScheduleSearch.Proofs.Checkpoint.Lexemes
import ScheduleSearch.Proofs.Checkpoint.RoundTrip
import ScheduleSearch.Proofs.Decision.Executions
import ScheduleSearch.Proofs.Decision.Agreement
import ScheduleSearch.Proofs.Scheduler.Rounds
import ScheduleSearch.Proofs.Scheduler.Consultations
import ScheduleSearch.Proofs.Monitor.Consistency
import ScheduleSearch.Proofs.Decision.WellFormed
import ScheduleSearch.Proofs.Decision.AnyCalls
import ScheduleSearch.Proofs.Thread.LineageOrder
import ScheduleSearch.Proofs.Scheduler.Refusals
import ScheduleSearch.Proofs.Scheduler.Misuse
import ScheduleSearch.Proofs.Scheduler.Permits
import ScheduleSearch.Proofs.Scheduler.Parks
import ScheduleSearch.Proofs.Scheduler.Calls
import ScheduleSearch.Proofs.Scheduler.Identities
import ScheduleSearch.Proofs.Thread.Hosts
import ScheduleSearch.Proofs.Scheduler.HostTiming
import ScheduleSearch.Proofs.Scheduler.Departures
import ScheduleSearch.Proofs.Thread.Names
import ScheduleSearch.Proofs.Decision.LeftmostPath
import ScheduleSearch.Proofs.Decision.Estimate
import ScheduleSearch.Proofs.Scheduler.Selections
