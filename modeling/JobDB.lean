import JobDB.Lib.Tx
import JobDB.Lib.Runs
import JobDB.Lib.Table
import JobDB.Lib.Digraph
import JobDB.Basic
import JobDB.Goal.Types
import JobDB.Goal.Engine
import JobDB.Goal.View
import JobDB.Goal.Memory
import JobDB.Goal.Evaluate
import JobDB.Goal.Effects
import JobDB.Goal.Operations
import JobDB.Goal.Decided
import JobDB.Goal.Wakeup
import JobDB.Goal.Unresolved
import JobDB.Goal.WriteOnce
import JobDB.Lib.Process
import JobDB.Lib.Commit
import JobDB.Runtime.Types
import JobDB.Sqlite.Database
import JobDB.Sqlite.GoalStore
import JobDB.Goal.Frame
import JobDB.Sqlite.Transactions
import JobDB.Sqlite.Runtime
import JobDB.Sqlite.Effects
import JobDB.Sqlite.ChapterLog
import JobDB.Sqlite.Calls
import JobDB.Sqlite.Leases
import JobDB.Sqlite.WaitingTask
import JobDB.Core.Runtime
import JobDB.ChapterLogs
import JobDB.Lib.Act
import JobDB.Workflow.History
import JobDB.Workflow.Order
import JobDB.Cell.Names
import JobDB.Schedule.Trigger
import JobDB.Schedule.CronFields
import JobDB.Schedule.JobIDs
import JobDB.Runtime.SchedulerPayload
import JobDB.Runtime.PayloadUpdate
import JobDB.Runtime.Submit
import JobDB.Lib.Window
import JobDB.Schedule.Preflight
import JobDB.Runtime.InputHash
import JobDB.Schedule.FailurePolicy
import JobDB.Schedule.Control
import JobDB.Schedule.Stopped
import JobDB.Lib.Lineage
import JobDB.Schedule.Successors
import JobDB.Lib.Json
import JobDB.Runtime.Metadata
import JobDB.Sqlite.Schemas
import JobDB.Lib.Paging
import JobDB.Runtime.ListJobs
import JobDB.Sqlite.ListJobs
import JobDB.Toy.ListJobs
import JobDB.ListPages
import JobDB.Lib.Intervals
import JobDB.Remote.Delegation
import JobDB.Sqlite.ClientPayload
import JobDB.Sqlite.CompletionLog
import JobDB.Lib.Linked
import JobDB.ChapterStore.Artifacts
import JobDB.ChapterStore.Creation
import JobDB.Runtime.PollWork
import JobDB.Sqlite.Available
import JobDB.Toy.PollWork
import JobDB.ListAvailable
import JobDB.Workflow.Restart
import JobDB.Workflow.RestartCut
import JobDB.Lib.Crash
import JobDB.Sqlite.Preparation
import JobDB.Lib.Versioned
import JobDB.Schedule.Generations
import JobDB.Schedule.Agreement
import JobDB.Toy.Engine
import JobDB.Toy.Restart
import JobDB.Core.Submit
import JobDB.Resubmission
import JobDB.Goal.CycleCheck
import JobDB.Lib.Index
import JobDB.Sqlite.TargetIndex
import JobDB.Sqlite.GoalContract
import JobDB.Goal.Answers
import JobDB.Readiness
import JobDB.Goal.InPlace
import JobDB.Toy.GoalTransactions
import JobDB.Goal.Failures
import JobDB.Cell.Visibility
import JobDB.Cell.Requests
import JobDB.Cell.Repos
import JobDB.Sqlite.Instants
