import Rendezvous.Cell
import Rendezvous.CommandLine.Command
import Rendezvous.CommandLine.Grammar
import Rendezvous.CommandLine.Panel
import Rendezvous.CommandLine.Report
import Rendezvous.CommandLine.Run
import Rendezvous.Contest
import Rendezvous.Directory
import Rendezvous.Document.Parser
import Rendezvous.Document.Printer
import Rendezvous.EnvironmentFile
import Rendezvous.Execution.Activation
import Rendezvous.Execution.Point
import Rendezvous.Execution.Solo
import Rendezvous.Execution.Step
import Rendezvous.Failure
import Rendezvous.Log.Output
import Rendezvous.Log.Record
import Rendezvous.Log.Severity
import Rendezvous.Log.Template
import Rendezvous.Main
import Rendezvous.Notice
import Rendezvous.Number.Binary64
import Rendezvous.Number.Numeral
import Rendezvous.Number.Places
import Rendezvous.Number.Shortest
import Rendezvous.Path
import Rendezvous.Payload
import Rendezvous.Reference
import Rendezvous.Scenario.Play
import Rendezvous.Scenario.Script
import Rendezvous.Scenario.Session
import Rendezvous.Settings.Basic
import Rendezvous.Settings.Fault
import Rendezvous.Settings.IntegerText
import Rendezvous.Settings.Loading
import Rendezvous.Settings.Overlay
import Rendezvous.Settings.Schema
import Rendezvous.Settings.VariableText
import Rendezvous.Simulation
import Rendezvous.Summary
import Rendezvous.Text.Blank
import Rendezvous.Text.Casing
import Rendezvous.Text.Closeness
import Rendezvous.Text.Printable
import Rendezvous.Text.Quoted
import Rendezvous.Text.Split
import Rendezvous.Value
import Rendezvous.World
import Rendezvous.Yaml.Cursor
import Rendezvous.Yaml.Lexer
import Rendezvous.Yaml.Node
import Rendezvous.Yaml.Plain
import Rendezvous.Yaml.Quoted
import Rendezvous.Yaml.Scalar
import Rendezvous.Yaml.Token
import Rendezvous.Proofs.Threads.System
import Rendezvous.Proofs.Threads.Transition
import Rendezvous.Proofs.Delivery.Blocks
import Rendezvous.Proofs.Delivery.Contests
import Rendezvous.Proofs.Delivery.ExactlyOnce
import Rendezvous.Proofs.Threads.Nesting
import Rendezvous.Proofs.Threads.Bounds
import Rendezvous.Proofs.Requests.Completion
import Rendezvous.Proofs.Requests.Handlers
import Rendezvous.Proofs.Requests.Finality
import Rendezvous.Proofs.Requests.LastHook
import Rendezvous.Proofs.Coordinators.Orderly
import Rendezvous.Proofs.Coordinators.Activation
import Rendezvous.Proofs.Coordinators.Retirement
import Rendezvous.Proofs.Coordinators.Live
import Rendezvous.Proofs.Requests.Pass
import Rendezvous.Proofs.Coordinators.Conclusion
import Rendezvous.Proofs.Threads.Courses
import Rendezvous.Proofs.Requests.Refusal
import Rendezvous.Proofs.Requests.Containment
import Rendezvous.Proofs.Coordinators.Service
import Rendezvous.Proofs.Coordinators.Ending
import Rendezvous.Proofs.Cells.Atomic
import Rendezvous.Proofs.Cells.Looks
import Rendezvous.Proofs.Cells.Refinement
import Rendezvous.Proofs.Locks.Discipline
import Rendezvous.Proofs.Locks.Guarded
import Rendezvous.Proofs.Requests.CompletionOrder
import Rendezvous.Proofs.Threads.Tokens
import Rendezvous.Proofs.Requests.Duties
import Rendezvous.Proofs.Requests.Agreement
import Rendezvous.Proofs.Coordinators.SecondStart
import Rendezvous.Proofs.Threads.Undisturbed
import Rendezvous.Proofs.Coordinators.Accounting
import Rendezvous.Proofs.Cells.Representation
import Rendezvous.Proofs.Failures.Origins
import Rendezvous.Proofs.Failures.Reports
import Rendezvous.Proofs.Simulations.Alone
import Rendezvous.Proofs.Simulations.EndToEnd
import Rendezvous.Proofs.Payloads.Correspondence
import Rendezvous.Proofs.Payloads.Steps
import Rendezvous.Proofs.Payloads.Opacity
import Rendezvous.Proofs.Reentrancy.Unfolding
import Rendezvous.Proofs.Reentrancy.Ends
import Rendezvous.Proofs.Reentrancy.Regions
import Rendezvous.Proofs.Settlement.Attending
import Rendezvous.Proofs.Settlement.Settling
import Rendezvous.Proofs.Settlement.Interceptors
import Rendezvous.Proofs.Settlement.Timeouts
import Rendezvous.Proofs.Settlement.Errors
import Rendezvous.Proofs.Independence.Renaming
import Rendezvous.Proofs.Independence.Alarms
import Rendezvous.Proofs.Independence.Mirrors
import Rendezvous.Proofs.Independence.Confinement
import Rendezvous.Proofs.Independence.Transport
import Rendezvous.Proofs.Independence.Commutation
import Rendezvous.Proofs.Cells.TimeoutHook
import Rendezvous.Proofs.Reentrancy.Releases
import Rendezvous.Proofs.Delivery.Failing
import Rendezvous.Proofs.Reentrancy.Traces
import Rendezvous.Proofs.Coordinators.Counting
import Rendezvous.Proofs.Requests.Timers
import Rendezvous.Proofs.Coordinators.FailedStart
import Rendezvous.Proofs.References.Leftmost
import Rendezvous.Proofs.References.Documents
import Rendezvous.Proofs.Settings.Capitals
import Rendezvous.Proofs.Settings.Layers
import Rendezvous.Proofs.Settings.Fields
import Rendezvous.Proofs.Settings.Precedence
