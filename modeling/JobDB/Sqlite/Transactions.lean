import JobDB.Sqlite.GoalStore

/-!
# The SQLite runtime's transactions

Each function here is the body of one `withTx` of `pkg/jobdb/runtime/sqlite`, or
one write of its chapter store, and is executed atomically. `time.Now()` inside
a transaction is the clock of the state it runs in; a time that the source takes
before the transaction is an argument.

A lease ID is drawn in the transaction that stores it. `claimWaitingTask` draws
it just before; nobody can see it until the transaction commits.
-/

namespace JobDB.Sqlite

variable (H : Host)

/-- `time.Now().UTC()`. -/
def clock : Tx State Err Time := Tx.read fun s => .ok s.now

/-- Load a job and check the caller's lease on it, at the present time. -/
def requireLease (key : JobKey) (leaseID workerID : String) : Tx State Err JobRow :=
  Tx.read fun s => do
    let row ← s.loadJobRow key
    validateLeaseRow row leaseID workerID s.now
    .ok row

/-- `UPDATE jobdb_jobs SET … WHERE tenant_id = ? AND job_id = ?`. -/
def update (key : JobKey) (f : JobRow → JobRow) : Tx State Err Unit :=
  Tx.write fun s => .ok (s.updateJob key f)

/-- `goalEngine(ctx, tx).Complete`. -/
def completeGoals (key : JobKey) : Tx State Err Unit := do
  let now ← clock
  Engine.complete goalStore now key

/-- The columns of a released lease. -/
def JobRow.release (r : JobRow) : JobRow :=
  { r with leaseID := none, leaseWorkerID := none, leaseExpiresAtNS := none }

/-- The columns without an alternate route. -/
def JobRow.noAlternate (r : JobRow) : JobRow :=
  { r with alternateRoute := none, alternateAtNS := none }

/-! ## Leases in use -/

/-- `KeepAliveLeaseByIDWithExpiry`. -/
def keepAliveTx (key : JobKey) (leaseID workerID : String) (expires : Time) :
    Tx State Err Unit := do
  let _ ← requireLease key leaseID workerID
  let now ← clock
  update key fun r =>
    if r.leaseID = some leaseID then
      { r with leaseExpiresAtNS := some (timeToNS expires), updatedAtNS := timeToNS now }
    else r

/-- `RenewExecutionLeaseByID`. -/
def renewTx (key : JobKey) (leaseID workerID : String) (duration : Int) : Tx State Err Unit := do
  let _ ← requireLease key leaseID workerID
  let now ← clock
  update key fun r =>
    { r with
      leaseExpiresAtNS := some (timeToNS (now + leaseDurationOrDefault duration))
      updatedAtNS := timeToNS now }

/-- `updateClientPayloadTx`. -/
def updateClientPayload (row : JobRow) (u : Option ClientPayloadUpdate) : Tx State Err Unit := do
  let (value, revision) ← Tx.read fun _ =>
    H.applyUpdate row.clientPayload row.clientPayloadRevision u
  if u.isSome then
    update row.key fun r => { r with clientPayload := value, clientPayloadRevision := revision }
  else pure ()

/-- The row of a job that its worker has completed. -/
def JobRow.completed (r : JobRow) (status : String) (detail : String) (now : Time) : JobRow :=
  { r.release.noAlternate with
    archivedAtNS := some (timeToNS now)
    completionStatus := some status
    completionDetail := if detail = "" then none else some detail
    cancelRequested := status = "cancelled" || r.cancelRequested
    updatedAtNS := timeToNS now }

/-- `CompleteJobWithLeaseByID`, its last transaction. -/
def completeTx (key : JobKey) (leaseID workerID : String) (req : CompleteExecutionRequest)
    (now : Time) : Tx State Err Unit := do
  let row ← requireLease key leaseID workerID
  updateClientPayload H row req.clientPayloadUpdate
  update key fun r => r.completed (completionStatusFromRequest req.status) req.detail now
  completeGoals key

/-- The old wait of a job that is rescheduled to another one. -/
def closeOldWait (key : JobKey) (row : JobRow) (req : RescheduleExecutionRequest) :
    Tx State Err Unit :=
  if row.dependencyWaitID ≠ "" ∧ req.dependencyWait.all (·.waitID ≠ row.dependencyWaitID) then do
    let now ← clock
    Engine.closeConsumer goalStore now key
  else pure ()

/-- The new wait of a job that is rescheduled; its ID. -/
def registerWait (key : JobKey) (req : RescheduleExecutionRequest) : Tx State Err String :=
  match req.dependencyWait with
  | some w => do
    let now ← clock
    let _ ← Engine.register goalStore now key w false
    pure w.waitID
  | none => pure ""

/-- `encodeWaitFor` drops empty IDs. -/
def encodeWaitFor (ids : List String) : List String := ids.filter (· ≠ "")

/-- The row of a rescheduled job. -/
def JobRow.rescheduled (r : JobRow) (req : RescheduleExecutionRequest) (task : Option TaskWait)
    (now : Time) : JobRow :=
  { r.release with
    consecutiveExpirations := 0
    nextRoute := req.nextRoute
    payload := { r.payload with taskWait := task }
    waitFor := encodeWaitFor req.waitForJobIDs
    -- with jobs to wait for, the time is a deadline, else a not-before time
    availableAtNS := timeToNS (if req.waitForJobIDs = [] then req.waitUntil.getD now else now)
    waitDeadlineNS := if req.waitForJobIDs = [] then none else req.waitUntil.map timeToNS
    alternateRoute := req.alternateRoute
    alternateAtNS := req.alternateRoute.map fun _ => timeToNS (now + req.alternateAfter.getD 0)
    updatedAtNS := timeToNS now }

/-- `RescheduleJobWithLeaseByID`. -/
def rescheduleTx (key : JobKey) (leaseID workerID : String) (req : RescheduleExecutionRequest)
    (task : Option TaskWait) (now : Time) : Tx State Err Unit := do
  let row ← requireLease key leaseID workerID
  closeOldWait key row req
  let waitID ← registerWait key req
  update key fun r => { r with dependencyWaitID := waitID }
  updateClientPayload H row req.clientPayloadUpdate
  update key fun r => r.rescheduled req task now

/-! ## Leases granted -/

/-- `executionLease`, as far as the runtime itself uses it. -/
structure Lease where
  jobKey : JobKey
  leaseID : String
  workerID : String
  route : Route
  payload : JobPayload
  duration : Int
  expiresAt : Time
deriving DecidableEq, Repr

/-- The row with a lease on it. -/
def JobRow.leased (r : JobRow) (lease : Lease) : JobRow :=
  { r with
    consecutiveExpirations := if r.leaseID.isSome then r.consecutiveExpirations + 1 else 0
    nextRoute := lease.route
    leaseID := some lease.leaseID
    leaseWorkerID := some lease.workerID
    leaseExpiresAtNS := some (timeToNS lease.expiresAt) }

/-- Draw a lease ID, store the lease in the job's row and record the grant. -/
def install (lease : Lease) (claim : Option TaskWait) (f : JobRow → JobRow) :
    Tx State Err Lease := fun s =>
  let lease := { lease with leaseID := H.ksuid s.drawn }
  .ok (lease, { s.updateJob lease.jobKey fun r => (f r).leased lease with
    drawn := s.drawn + 1
    grants := s.grants ++
      [⟨lease.jobKey, lease.leaseID, lease.workerID, lease.route, claim⟩] })

/-- The lease that `acquireOneLease` and `GetJobLease` grant on a ready row; an
alternate route that has fired becomes the job's route. -/
def grant (row : JobRow) (workerID : String) (duration : Int) : Tx State Err Lease := do
  let now ← clock
  install H
    { jobKey := row.key
      leaseID := ""
      workerID := if workerID ≠ "" then workerID else H.workerID
      route := (effectiveNextRoute row now).1
      payload := row.payload
      duration := leaseDurationOrDefault duration
      expiresAt := now + leaseDurationOrDefault duration }
    none fun r =>
      { (if (effectiveNextRoute row now).2 then r.noAlternate else r) with
        updatedAtNS := timeToNS now }

/-- `PollWorkRequest`. Which cells the caller may draw from and which metadata
it asks for are arbitrary tests here, `allowed` and `matches`. -/
structure PollWorkRequest where
  tenantId : String
  routes : List Route
  workerID : String := ""
  limit : Int := 0
  leaseDuration : Int := 0
  allowed : ResolvedCell → Bool
  metadataMatches : String → Except Err Bool

/-- The loop of `acquireOneLease`: the first row that may be leased. -/
def pickRow (s : State) (req : PollWorkRequest) : List JobRow → Except Err (Option JobRow)
  | [] => .ok none
  | row :: rows =>
    if row.tenantID ≠ req.tenantId ∨ req.allowed row.cell = false then pickRow s req rows
    else if row.cancelRequested then pickRow s req rows
    else if (effectiveNextRoute row s.now).1 ∉ req.routes.filter (·.jobType ≠ "") then
      pickRow s req rows
    else do
      let status ← statusFromRow s row s.now
      if status ≠ .ready then pickRow s req rows
      else do
        let found ← req.metadataMatches row.metadata
        if found then .ok (some row) else pickRow s req rows

/-- `SELECT … WHERE archived_at_ns IS NULL ORDER BY created_at_ns, job_id`. -/
def activeRows (s : State) : List JobRow :=
  ((s.jobs.rows.map (·.2)).filter (·.archivedAtNS.isNone)).insertionSort fun a b =>
    a.createdAtNS < b.createdAtNS ∨ (a.createdAtNS = b.createdAtNS ∧ a.jobID ≤ b.jobID)

/-- Grant a lease on the row picked, if any. -/
def grantPicked (row : Option JobRow) (workerID : String) (duration : Int) :
    Tx State Err (Option Lease) :=
  match row with
  | none => pure none
  | some row => do
    let lease ← grant H row workerID duration
    pure (some lease)

/-- `acquireOneLease`. -/
def acquireOneLeaseTx (req : PollWorkRequest) : Tx State Err (Option Lease) := do
  let row ← Tx.read fun s => pickRow s req (activeRows s)
  grantPicked H row req.workerID req.leaseDuration

/-- `GetJobLeaseRequest`; `authorized` is the answer of `AuthorizeCell`. -/
structure GetJobLeaseRequest where
  jobKey : JobKey
  routes : List Route
  workerID : String := ""
  leaseDuration : Int := 0
  authorized : ResolvedCell → Except Err Unit

/-- The row `GetJobLease` may lease. -/
def leaseableRow (s : State) (req : GetJobLeaseRequest) : Except Err (Option JobRow) :=
  match s.jobs.lookup req.jobKey with
  | none => .ok none
  | some row => do
    req.authorized row.cell
    let status ← statusFromRow s row s.now
    if status ≠ .ready then .ok none
    else if (effectiveNextRoute row s.now).1 ∉ req.routes.filter (·.jobType ≠ "") then .ok none
    else .ok (some row)

/-- `GetJobLease`. -/
def getJobLeaseTx (req : GetJobLeaseRequest) : Tx State Err (Option Lease) := do
  let row ← Tx.read fun s => leaseableRow s req
  grantPicked H row req.workerID req.leaseDuration

/-- The test `claimWaitingTask` and `failWaitingPayload` make again: the job is
still the unheld, ready task that the caller looked at. -/
def stillWaiting (s : State) (current expected : JobRow) (changed notReady : Err) :
    Except Err Unit :=
  if current.archivedAtNS.isSome ∨ current.cancelRequested ∨
      current.leaseExpiresAtNS.any (fun ns => timeToNS s.now < ns) ∨
      current.nextRoute ≠ expected.nextRoute ∨ current.payload ≠ expected.payload then
    .error changed
  else do
    let status ← statusFromRow s current s.now
    if status ≠ .ready then .error notReady else .ok ()

/-- `claimWaitingTask`: the resume route goes in before any output does. -/
def claimTx (expected : JobRow) (resumeJobType : String) (policy : RunPolicy) :
    Tx State Err Lease := do
  let current ← Tx.read (·.loadJobRow expected.key)
  Tx.read fun s => stillWaiting s current expected (.conflict "waiting task changed")
    (.conflict "waiting task is not ready")
  let now ← clock
  install H
    { jobKey := expected.key
      leaseID := ""
      workerID := H.workerID
      route := { jobType := resumeJobType }
      payload := { runPolicy := policy }
      duration := leaseDurationOrDefault 0
      expiresAt := now + leaseDurationOrDefault 0 }
    expected.payload.taskWait fun r =>
      { r.noAlternate with payload := { runPolicy := policy }, updatedAtNS := timeToNS now }

/-! ## Jobs begun and ended without a lease -/

/-- What a submission inserts, once it is prepared. -/
structure Submission where
  key : JobKey
  jobType : String
  metadata : String := ""
  parentJobID : Option String := none
  waitFor : List String := []
  runPolicy : RunPolicy := {}
  availableAt : Option Time := none
  clientPayload : Option String := none
  clientPayloadRevision : Int := 0
  initialPayloadDigest : String := ""
  cell : ResolvedCell
  goalID : String
  shareGoal : Bool
  dependencies : List Dependency := []

namespace Submission

def goalKey (p : Submission) : GoalKey := ⟨p.key.tenantId, p.goalID⟩

def newGoal (p : Submission) (now : Time) : GoalInfo where
  cell := p.cell.cell
  cellID := p.cell.cellID
  cellRepo := p.cell.cellRepo
  goalKey := p.goalKey
  state := .open
  revision := 1
  createdAt := now
  updatedAt := now

def row (p : Submission) (now : Time) : JobRow where
  cell := p.cell
  goalID := p.goalID
  dependencyWaitID := if p.dependencies = [] then "" else "submission"
  clientPayload := p.clientPayload
  clientPayloadRevision := p.clientPayloadRevision
  initialPayloadDigest := p.initialPayloadDigest
  tenantID := p.key.tenantId
  jobID := p.key.jobId
  jobType := p.jobType
  nextRoute := { jobType := p.jobType }
  payload := { runPolicy := p.runPolicy }
  metadata := p.metadata
  parentJobID := p.parentJobID
  waitFor := encodeWaitFor p.waitFor
  availableAtNS := timeToNS (p.availableAt.getD now)
  createdAtNS := timeToNS now
  updatedAtNS := timeToNS now

end Submission

/-- `publishGoal`. -/
def publishGoal (p : Submission) (now : Time) : Tx State Err Unit :=
  if p.shareGoal then do
    let g ← Tx.read (goalStore.goal · p.goalKey)
    Tx.require .goalConflict (g.state = .open)
  else Tx.write (goalStore.saveGoal (p.newGoal now))

/-- The submission wait. -/
def registerSubmission (p : Submission) : Tx State Err Unit :=
  if p.dependencies = [] then pure ()
  else do
    let now ← clock
    let _ ← Engine.register goalStore now p.key
      { waitID := "submission", dependencies := p.dependencies } true

/-- `insertJobRecord`. -/
def insertJobTx (p : Submission) (now : Time) : Tx State Err Unit := do
  Tx.read fun s => if (s.jobs.lookup p.key).isSome then .error (.conflict "") else .ok ()
  publishGoal p now
  Tx.write fun s => .ok { s with jobs := s.jobs.insert p.key (p.row now) }
  registerSubmission p
  let now' ← clock
  Engine.checkCycle goalStore now' p.key.tenantId { goalID := p.goalID }

/-- The row of a cancelled job. -/
def JobRow.cancelled (r : JobRow) (reason : String) (now : Time) : JobRow :=
  { r.release with
    cancelRequested := true
    archivedAtNS := some (r.archivedAtNS.getD (timeToNS now))
    completionStatus := some (r.completionStatus.getD "cancelled")
    completionDetail := some reason
    updatedAtNS := timeToNS now }

/-- `CancelJob`: no effect on a job that has ended. -/
def cancelTx (key : JobKey) (reason : String) (now : Time) : Tx State Err Unit := do
  let row ← Tx.read (·.loadJobRow key)
  if row.archivedAtNS.isSome then pure ()
  else do
    update key (·.cancelled reason now)
    completeGoals key

/-- `DeleteJobsRequest`, validated; `metadataMatches` is its metadata filter. -/
structure DeleteJobsRequest where
  tenantID : String
  jobIDs : List String := []
  createdBefore : Option Time := none
  metadataMatches : String → Except Err Bool
  dryRun : Bool := false

/-- The `SELECT` of `DeleteJobs` with the filter on IDs. -/
def deletable (s : State) (req : DeleteJobsRequest) : List JobRow :=
  (s.jobs.rows.map (·.2)).filter fun r =>
    r.tenantID = req.tenantID ∧ r.hiddenAtNS = none ∧
      req.createdBefore.all (fun t => r.createdAtNS < unixNano t) ∧
      (req.jobIDs = [] ∨ r.jobID ∈ req.jobIDs)

/-- The jobs `DeleteJobs` selects. -/
def deleteMatches (s : State) (req : DeleteJobsRequest) : Except Err (List JobKey) := do
  let rows ← (deletable s req).filterM fun r => req.metadataMatches r.metadata
  .ok (rows.map (·.key))

/-- The row of a deleted job. -/
def JobRow.deleted (r : JobRow) (now : Int) : JobRow :=
  { r.release with
    hiddenAtNS := some now
    updatedAtNS := now
    cancelRequested := if r.archivedAtNS = none then true else r.cancelRequested
    completionStatus := if r.archivedAtNS = none then some "cancelled" else r.completionStatus
    completionDetail := if r.archivedAtNS = none then some "job deleted" else r.completionDetail
    archivedAtNS := some (r.archivedAtNS.getD now) }

/-- `DeleteJobs`, once the jobs are selected. -/
def deleteKeys (keys : List JobKey) : Tx State Err Unit := do
  let now ← clock
  forM keys fun k => update k fun r => if r.hiddenAtNS = none then r.deleted (unixNano now) else r
  forM keys completeGoals

/-- `DeleteJobs`. -/
def deleteTx (req : DeleteJobsRequest) : Tx State Err Unit := do
  let keys ← Tx.read fun s => deleteMatches s req
  if req.dryRun then pure () else deleteKeys keys

/-- `ClearCrashConcern`. -/
def clearCrashConcernTx (key : JobKey) : Tx State Err Unit := do
  let row ← Tx.read (·.loadJobRow key)
  let now ← clock
  Tx.require (.conflict "cannot clear crash concern for a live, final, cancelled, or hidden job")
    (¬ (row.archivedAtNS.isSome ∨ row.cancelRequested ∨ row.hiddenAtNS.isSome ∨
      row.leaseExpiresAtNS.any (fun ns => timeToNS now < ns)))
  if row.consecutiveExpirations = 0 then pure ()
  else update key fun r => { r with consecutiveExpirations := 0 }

/-! ## Chapters -/

/-- A story that can be written to. -/
def openStory (key : JobKey) : Tx State Err Story :=
  Tx.read fun s =>
    match s.stories.lookup key with
    | none => .error (.store "story not found")
    | some st =>
      if st.deleted then .error (.store "story not found")
      else if st.finalized then .error (.conflict "story finalized")
      else .ok st

/-- Put a chapter behind the others. -/
def pushChapter (key : JobKey) (ch : StoredChapter) : Tx State Err Unit :=
  Tx.write fun s =>
    match s.stories.lookup key with
    | some st =>
      .ok { s with stories := s.stories.insert key { st with chapters := st.chapters ++ [ch] } }
    | none => .ok s

/-- `AppendChapter` of the row store: it takes the next ordinal and no other. -/
def appendTx (key : JobKey) (ch : StoredChapter) : Tx State Err Unit := do
  let st ← openStory key
  Tx.require (.conflict "chapter exists") (st.chapter? ch.ordinal = none)
  Tx.require (.conflict "chapter ordinal is not the next") (ch.ordinal = st.chapterCount)
  pushChapter key ch

/-- The row of a job that ends with a payload that is too large. -/
def JobRow.payloadFailed (r : JobRow) (message : String) (now : Time) : JobRow :=
  { r.release.noAlternate with
    archivedAtNS := some (timeToNS now)
    completionStatus := some "failed_app"
    completionDetail := some message
    payload := { r.payload with taskWait := none }
    nextRoute := { r.nextRoute with taskType := "" }
    waitDeadlineNS := none
    updatedAtNS := timeToNS now }

/-- The message of a payload failure chapter. -/
def Chapter.failureMessage (ch : Chapter) : String :=
  match ch.body with
  | .jobAttemptOutcome (.appError e) => e.message
  | _ => ""

/-- `completePayloadFailure`: chapter, completion and goals in one transaction. -/
def payloadFailureTx (writer : Nat) (key : JobKey) (ch : Chapter) (body : String)
    (authorize : State → JobRow → Except Err Unit) : Tx State Err Unit := do
  let row ← Tx.read (·.loadJobRow key)
  Tx.read fun s => authorize s row
  let st ← Tx.read fun s =>
    match s.stories.lookup key with
    | none => .error (.store "sql: no rows in result set")
    | some st => .ok st
  Tx.require (.conflict "")
    (st.deleted = false ∧ st.finalized = false ∧ ch.ordinal = st.latestOrdinal + 1)
  pushChapter key ⟨ch.ordinal, body, [], writer⟩
  let now ← clock
  update key (·.payloadFailed (Chapter.failureMessage ch) now)
  completeGoals key

/-- The chapters a restart keeps of the job it goes back to. -/
def keptChapters (s : State) : Option (JobKey × Int) → Except Err (List StoredChapter)
  | none => .ok []
  | some (source, last) =>
    match s.stories.lookup source with
    | none => .error (.store "story not found")
    | some st =>
      if last < 0 ∨ st.latestOrdinal < last then
        .error (.invalid "story: last ordinal exceeds source range")
      else .ok (st.chapters.take (last.toNat + 1))

/-- `CreateStory` and `CreateLinkedStory` of the row store. -/
def createStoryTx (key : JobKey) (base : Option (JobKey × Int)) : Tx State Err Unit := do
  Tx.read fun s =>
    if (s.stories.lookup key).isSome then .error (.conflict "story exists") else .ok ()
  let chapters ← Tx.read fun s => keptChapters s base
  Tx.write fun s => .ok { s with stories := s.stories.insert key { chapters := chapters } }

end JobDB.Sqlite
