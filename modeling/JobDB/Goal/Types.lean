import JobDB.Basic

/-!
# Goals, dependencies and waits

The durable records of `pkg/jobdb/goals.go` and of
`pkg/jobdb/internal/goalstate/state.go:16–22`, and the request checks that
stand before every operation on them.

* A `GoalInfo` is `OPEN` until one candidate job succeeds or a caller fails it.
* A `DependencyWaitInfo` belongs to one job and lists the targets (jobs or
  goals) it waits for, each with its own resolution.
* `DependencyTarget.node` reads a target the way the engine does: the goal
  when the goal ID is nonempty, else the job.
* `copy` is the round trip through JSON that a store puts each record through.
  It keeps everything except that the failure of an exact job drops the fields
  a goal failure has (`GoalFailure.MarshalJSON`, `goals.go:253–264`), and a
  deadline what its text does not have.
-/

namespace JobDB

/-! ## Goals -/

/-- `GoalState`. -/
inductive GoalState where
  | open
  | succeeded
  | failed
deriving DecidableEq, Repr

/-- `GoalFailure`. -/
structure GoalFailure where
  code : String
  goalID : String := ""
  jobID : String := ""
  message : String
  terminalJobIDs : List String := []
  nonTerminalJobIDs : List String := []
  failedAt : Time := Time.zero
deriving DecidableEq, Repr

/-- What is left of a failure after `MarshalJSON` and `Unmarshal`. -/
def GoalFailure.copy (f : GoalFailure) : GoalFailure :=
  if f.goalID = "" ∧ f.jobID ≠ "" then
    { code := f.code, jobID := f.jobID, message := f.message }
  else f

/-- A failure with the code and the ID of a goal. -/
def GoalFailure.OfGoal (f : GoalFailure) : Prop := f.code = "goal_failed" ∧ f.goalID ≠ ""

theorem GoalFailure.OfGoal.copy {f : GoalFailure} (h : f.OfGoal) : f.copy = f :=
  if_neg fun hc => h.2 hc.1

/-- `GoalInfo`. -/
structure GoalInfo where
  cell : String := ""
  cellID : String := ""
  cellRepo : String := ""
  goalKey : GoalKey
  state : GoalState
  revision : Int
  successfulJobID : String := ""
  failure : Option GoalFailure := none
  createdAt : Time
  updatedAt : Time
  closedAt : Option Time := none
deriving DecidableEq, Repr

def GoalInfo.copy (g : GoalInfo) : GoalInfo :=
  { g with failure := g.failure.map GoalFailure.copy }

/-- `GoalKey.Validate`. -/
def GoalKey.validate (k : GoalKey) : Except Err Unit :=
  if blank k.tenantId || blank k.goalID then
    .error (.invalidDependency "tenant and goal IDs are required")
  else .ok ()

/-- `AddGoalCandidateRequest`. -/
structure AddGoalCandidateRequest where
  goalKey : GoalKey
  jobID : String
deriving DecidableEq, Repr

/-- `GoalCandidateInfo`. -/
structure GoalCandidateInfo where
  goalKey : GoalKey
  jobID : String
  addedAt : Time
  goalState : GoalState
  successfulJobID : String
deriving DecidableEq, Repr

/-- `FailGoalRequest`. -/
structure FailGoalRequest where
  goalKey : GoalKey
  message : String
deriving DecidableEq, Repr

/-- `FailGoalRequest.Validate`; a Lean string is always valid UTF-8. -/
def FailGoalRequest.validate (r : FailGoalRequest) : Except Err Unit := do
  r.goalKey.validate
  if blank r.message || r.message.utf8ByteSize > 16 * 1024 then
    .error (.invalidDependency "nonblank message of at most 16 KiB required")
  else .ok ()

/-! ## Dependencies -/

/-- `JobPrereqCondition`; a text that is neither condition is `other`. -/
inductive JobPrereqCondition where
  | success
  | complete
  | other (text : String)
deriving DecidableEq, Repr

/-- The condition of a prerequisite, where none is `complete`. -/
def normalizeCondition : JobPrereqCondition → Except Err JobPrereqCondition
  | .other text =>
    if text = "" then .ok .complete
    else .error (.invalid ("invalid prerequisite condition " ++ quoted text))
  | condition => .ok condition

/-- `DependencyTarget`. -/
structure DependencyTarget where
  jobID : String := ""
  goalID : String := ""
deriving DecidableEq, Repr

/-- A node of a tenant's dependency graph. -/
inductive Node where
  | job (jobID : String)
  | goal (goalID : String)
deriving DecidableEq, Repr

/-- What a target denotes (`targetParts`, `runtime/sqlite/goals.go`; the same
test stands in `Evaluate` and `CheckCycle`). -/
def DependencyTarget.node (t : DependencyTarget) : Node :=
  if t.goalID ≠ "" then .goal t.goalID else .job t.jobID

/-- Exactly one of the two IDs is nonempty (`docs/SPEC-Job-Goals.md:493`). -/
def DependencyTarget.Exact (t : DependencyTarget) : Prop :=
  (t.jobID = "") ≠ (t.goalID = "")

instance (t : DependencyTarget) : Decidable t.Exact :=
  inferInstanceAs (Decidable (¬ (t.jobID = "") = (t.goalID = "")))

/-- `Dependency`. -/
structure Dependency where
  target : DependencyTarget
  condition : JobPrereqCondition
deriving DecidableEq, Repr

/-- A deadline as a `time.Time`: the instant, the offset of its zone, and what of the zone's name
and of a clock reading its text does not have, `none` for a time that was parsed. -/
structure Deadline where
  instant : Time
  offset : Int := 0
  unwritten : Option String := none
deriving DecidableEq, Repr

def Deadline.copy (d : Deadline) : Deadline := { d with unwritten := none }

/-- `DependencyWait`: what a caller asks a job to wait for. -/
structure DependencyWait where
  waitID : String
  dependencies : List Dependency
  deadline : Option Deadline := none
deriving DecidableEq, Repr

/-- `DependencyWaitKey`. -/
structure DependencyWaitKey where
  jobKey : JobKey
  waitID : String
deriving DecidableEq, Repr

/-- `DependencyState`. -/
inductive DependencyState where
  | pending
  | satisfied
  | failed
  | timedOut
  | cancelled
deriving DecidableEq, Repr

/-- `DependencyResolution`. -/
structure DependencyResolution where
  target : DependencyTarget
  condition : JobPrereqCondition
  state : DependencyState
  satisfiedByJobID : String := ""
  blockedReason : String := ""
  failure : Option GoalFailure := none
deriving DecidableEq, Repr

/-- `DependencyWaitInfo`. -/
structure DependencyWaitInfo where
  jobKey : JobKey
  waitID : String
  state : DependencyState
  deadline : Option Deadline := none
  dependencies : List DependencyResolution
  failedDependencyIndex : Option Nat := none
  failure : Option GoalFailure := none
deriving DecidableEq, Repr

namespace DependencyWaitInfo

/-- The key a wait is stored under. -/
def key (w : DependencyWaitInfo) : DependencyWaitKey := ⟨w.jobKey, w.waitID⟩

/-- The wait's deadline is at or before `now` (`!now.Before(*w.Deadline)`). -/
def expired (w : DependencyWaitInfo) (now : Time) : Bool :=
  w.deadline.any fun d => d.instant ≤ now

end DependencyWaitInfo

def DependencyResolution.copy (d : DependencyResolution) : DependencyResolution :=
  { d with failure := d.failure.map GoalFailure.copy }

def DependencyWaitInfo.copy (w : DependencyWaitInfo) : DependencyWaitInfo :=
  { w with
    deadline := w.deadline.map Deadline.copy
    dependencies := w.dependencies.map DependencyResolution.copy
    failure := w.failure.map GoalFailure.copy }

/-! ## Request checks -/

/-- The loop of `ValidateDependencies`, with the targets already seen. -/
def validateDependenciesFrom (seen : List DependencyTarget) : List Dependency → Except Err Unit
  | [] => .ok ()
  | d :: ds =>
    if blank d.target.jobID = blank d.target.goalID then
      .error (.invalidDependency "exactly one jobId or goalId required")
    else if d.condition ≠ .success ∧ (d.condition ≠ .complete ∨ d.target.goalID ≠ "") then
      .error (.invalidDependency "invalid target condition")
    else if d.target ∈ seen then
      .error (.invalidDependency "duplicate dependency target")
    else validateDependenciesFrom (d.target :: seen) ds

/-- `ValidateDependencies`. -/
def validateDependencies (deps : List Dependency) : Except Err Unit :=
  validateDependenciesFrom [] deps

/-- `ValidateDependencyWait`. -/
def validateDependencyWait (w : DependencyWait) (submission : Bool) : Except Err Unit :=
  if w.waitID = "" || (!submission && w.waitID = "submission") ||
      w.waitID.toList.any (fun c => c ∈ "/\\?#% ".toList) || w.dependencies.isEmpty then
    .error (.invalidDependency "valid waitId and nonempty dependencies required")
  else validateDependencies w.dependencies

/-! ## Copies keep what the engine reads -/

section Copy

variable (w : DependencyWaitInfo) (d : DependencyResolution) (g : GoalInfo)

@[simp] theorem GoalInfo.copy_goalKey : g.copy.goalKey = g.goalKey := rfl
@[simp] theorem DependencyWaitInfo.copy_key : w.copy.key = w.key := rfl
@[simp] theorem DependencyWaitInfo.copy_state : w.copy.state = w.state := rfl
@[simp] theorem DependencyWaitInfo.copy_dependencies :
    w.copy.dependencies = w.dependencies.map DependencyResolution.copy := rfl

end Copy

end JobDB
