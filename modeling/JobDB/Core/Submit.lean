import JobDB.Core.Runtime
import JobDB.Lib.Crash
import JobDB.Runtime.ListJobs
import JobDB.Schedule.Preflight

/-!
# Submission in the core runtime

`SubmitJob` over a scheduler and a chapter log (`runtime_submit.go`, `runtime_schedule.go`). The
scheduler reserves the job and its goal, the chapter log gets the first chapter, and the scheduler
then creates the job with its goal and its submission wait in one step. Should the log exist, its
first chapter decides whether it is the same job; the job is created if the scheduler does not have
it.

An occurrence of a schedule is submitted like any other job (`submitScheduledOccurrence`), so that
its preparation remembers the occurrence before it as a prerequisite.
-/

namespace JobDB.Core

/-! ## The scheduler's part -/

/-- The facts of a `StoredJob` that submissions and the schedule preflight look at. -/
structure JobFacts where
  jobKey : JobKey
  cell : ResolvedCell
  goalID : String
  jobType : String
  schemaHash : String := ""
  parentJobID : String := ""
  appMetadata : String := ""
  runPolicy : RunPolicy := {}
  initialPayloadDigest : String := ""
  schedule : Option ScheduleOccurrenceMetadata := none
  /-- `Completion.Status`. -/
  completionStatus : Option String := none
deriving DecidableEq, Repr

/-- `CreateJobRequest`. -/
structure CreateJobRequest where
  cell : ResolvedCell
  goalID : String
  shareGoal : Bool
  dependencies : List Dependency
  clientPayload : Option String
  clientPayloadRevision : Int
  initialPayloadDigest : String
  jobKey : JobKey
  jobType : String
  parentJobID : String
  runPolicy : RunPolicy
  appMetadata : String
  schedule : Option ScheduleOccurrenceMetadata
  schemaHash : String
  waitForJobIDs : List String
  availableAt : Option Time
  createdAt : Time
  workerID : String
deriving DecidableEq, Repr

/-- The scheduler with preparations and the creation of jobs. -/
structure JobScheduler (σ : Type) extends Scheduler σ where
  /-- `GetJob`. -/
  jobFacts : JobKey → σ → Except Err JobFacts
  prepareJob : Ctx → Preparation → σ → Except Err (Prepared × σ)
  discardJobPreparation : JobKey → σ → Except Err σ
  /-- `CreateJob`. -/
  create : Ctx → CreateJobRequest → σ → Except Err (JobFacts × σ)

/-- What the requests of a submission do to the jobs that the scheduler has published: a preparation
and its withdrawal have no part in them, and a creation publishes its job. `reserves` are its checks
on the cell and on a preparation that is there, `admits` those on the goal and the dependencies. -/
structure LawfulJobs {σ : Type} (Q : JobScheduler σ) where
  job : σ → JobKey → Option JobFacts
  reserves : Ctx → Preparation → σ → Prop
  admits : Ctx → Preparation → σ → Prop
  jobFacts_ok : ∀ {key q facts}, Q.jobFacts key q = .ok facts → job q key = some facts
  jobFacts_notFound : ∀ {key q}, Q.jobFacts key q = .error .jobNotFound ↔ job q key = none
  prepareJob_iff : ∀ {ctx req q}, (∃ a, Q.prepareJob ctx req q = .ok a) ↔ reserves ctx req q
  prepareJob_ok : ∀ {ctx req q r q'}, Q.prepareJob ctx req q = .ok (r, q') →
    job q' = job q ∧ (req.key.jobId ≠ "" → r.key = req.key) ∧
      (r.published = true → ∃ facts, job q r.key = some facts ∧ r.goalID = facts.goalID ∧
        r.target.cellID = facts.cell.cellID ∧ r.target.cellRepo = facts.cell.cellRepo)
  discardJobPreparation_ok : ∀ {key q q'}, Q.discardJobPreparation key q = .ok q' → job q' = job q
  create_ok : ∀ {ctx req q facts q'}, Q.create ctx req q = .ok (facts, q') →
    (job q' req.jobKey).isSome = true
  /-- A job that is prepared and not there is created if its preparation is admitted. -/
  create_iff : ∀ {ctx prep req q r q'}, Q.prepareJob ctx prep q = .ok (r, q') → job q r.key = none →
    req.jobKey = r.key → req.cell = r.target → req.goalID = r.goalID →
    req.shareGoal = prep.shareGoal → req.dependencies = prep.dependencies →
    ((∃ a, Q.create ctx req q' = .ok a) ↔ admits ctx prep q)

/-- What the runtime is given for submissions and polls. -/
structure JobServices (σ τ : Type) where
  host : Host
  queue : JobScheduler σ
  chapters : ChapterLog τ
  taskChapter : CompleteTaskIfWaitingRequest → TaskWork → RunPolicy → Option StoredChapter → Time →
    Except Err Chapter
  submissions : SubmitLib
  /-- `prepareInitialTaskData`: the payload, the artifacts and the input hash. -/
  taskInput : Option TaskData → Except Err (String × List StoredArtifact × String)
  /-- The metadata of a start chapter, and `initialChapterMetadata`. -/
  startMetadata : StartChapter → Except Err String
  readStartMetadata : String → Except Err StartEnvelope
  /-- `sameJSONObject`. -/
  sameJSONObject : String → String → Bool

namespace JobServices

variable {σ τ : Type} (S : JobServices σ τ)

/-- The services of the calls that hold a lease. -/
def services : Services σ τ where
  host := S.host
  scheduler := S.queue.toScheduler
  chapters := S.chapters
  taskChapter := S.taskChapter

/-- A request to the scheduler that changes something and answers. -/
def change {α : Type} (f : σ → Except Err (α × σ)) : Call (State σ τ) Err α :=
  Call.tx (Tx.zoom (fun s => s.scheduler) (fun s q => { s with scheduler := q }) f)

/-! ## What is submitted -/

/-- `normalizeJobPrerequisites` after the jobs `seen`. -/
def normalizeJobPrerequisites (key : JobKey) :
    List String → List JobPrerequisite → Except Err (List JobPrerequisite)
  | _, [] => .ok []
  | seen, p :: ps =>
    if blank p.jobID ∨ p.jobID = key.jobId then
      .error (.invalid "prerequisite job id must be nonempty and distinct from job id")
    else if p.jobID ∈ seen then normalizeJobPrerequisites key seen ps
    else do
      let condition ← normalizeCondition p.condition
      let rest ← normalizeJobPrerequisites key (p.jobID :: seen) ps
      .ok (⟨p.jobID, condition⟩ :: rest)

/-- `normalizeCoreRunPolicy`. -/
def normalizeCoreRunPolicy (p : RunPolicy) : RunPolicy := normalizeRunPolicy p

/-- A submission as the runtime is asked for it. -/
structure Order where
  job : SubmitJob
  parentJobID : String := ""
  occurrence : Option ScheduleOccurrenceMetadata := none
  workerID : String := ""
  requestTime : Time := Time.zero

/-- What a submission writes: the first chapter, and the job. -/
structure Draft where
  initial : Chapter
  record : StoredChapter
  request : CreateJobRequest

/-- The metadata of the job, where none is an empty object. -/
def jobMetadata (raw : String) : String := if raw = "" then "\x7b\x7d" else raw

/-- The worker that is named, or the runtime itself. -/
def orderWorker (o : Order) : String := if o.workerID ≠ "" then o.workerID else S.host.workerID

/-- The first chapter of a job. -/
def initialChapter (start : StartChapter) (payload : String) (artifacts : List StoredArtifact) :
    Except Err Chapter := do
  let metadata ← S.startMetadata start
  .ok {
    ordinal := 0
    taskType := start.taskType
    body := .jobStart payload
    inputHash := start.inputHash
    createdAt := start.createdAt
    metadata := metadata
    artifacts := artifacts }

/-- `submitJobWithSchedule` from its reservation to its first write. -/
def draft (writer : Nat) (o : Order) (prep : Preparation) (r : Prepared) (now : Time) :
    Except Err Draft := do
  let key : JobKey := ⟨o.job.tenantId, r.key.jobId⟩
  key.validate
  demand (.invalid "job type is required") (o.job.jobType ≠ "")
  S.submissions.validateApplicationMetadata o.job.metadata
  let initialPayload ← S.host.initialPayload o.job.clientPayloadUpdate
  let digest ← S.submissions.digest initialPayload.1
  let schema ← S.submissions.resolveSchema key.tenantId o.job.schema
  let prerequisites ← normalizeJobPrerequisites key [] o.job.prerequisites
  let (payload, artifacts, inputHash) ← S.taskInput o.job.data
  let createdAt := requestTimeOr o.requestTime now
  let initial ← S.initialChapter
    { data := o.job.data
      taskType := o.job.jobType
      workerID := S.orderWorker o
      inputHash := inputHash
      createdAt := createdAt
      initialPayloadDigest := digest
      runPolicy := normalizeCoreRunPolicy o.job.runPolicy
      metadata := jobMetadata o.job.metadata
      prerequisites := prerequisites } payload artifacts
  S.submissions.validateFirstChapter key.tenantId schema initial
  let record ← encodeChapter S.services writer initial
  .ok {
    initial := initial
    record := record
    request :=
      { cell := r.target
        goalID := r.goalID
        shareGoal := prep.shareGoal
        dependencies := prep.dependencies
        clientPayload := initialPayload.1
        clientPayloadRevision := initialPayload.2
        initialPayloadDigest := digest
        jobKey := key
        jobType := o.job.jobType
        parentJobID := o.parentJobID
        runPolicy := normalizeCoreRunPolicy o.job.runPolicy
        appMetadata := jobMetadata o.job.metadata
        schedule := o.occurrence
        schemaHash := schema
        waitForJobIDs := prerequisites.map (·.jobID)
        availableAt := o.job.availableAt
        createdAt := createdAt
        workerID := S.orderWorker o } }

/-! ## What is there already -/

/-- The tests of `validateExistingInitialChapter` on the metadata. -/
def compareStartMetadata (key : JobKey) (got want : StartEnvelope) : Except Err Unit := do
  let job := "job " ++ key.text ++ " already exists with "
  demand (.existingJobMismatch "initial client payload differs")
    (got.initialPayloadDigest = want.initialPayloadDigest)
  demand (.existingJobMismatch (job ++ "different metadata"))
    (S.sameJSONObject got.metadata want.metadata = true)
  demand (.existingJobMismatch (job ++ "different run policy")) (got.runPolicy = want.runPolicy)
  demand (.existingJobMismatch (job ++ "different prerequisites"))
    (got.prerequisites = want.prerequisites)

/-- The tests of `validateExistingInitialChapter` on a chapter that was read. -/
def compareInitialChapter (key : JobKey) (want got : Chapter) : Except Err Unit := do
  let job := "job " ++ key.text ++ " already exists with "
  demand (.existingJobMismatch (job ++ "different job type")) (got.taskType = want.taskType)
  demand (.existingJobMismatch (job ++ "different input"))
    (got.inputHash = want.inputHash ∧ got.body = want.body ∧ got.artifacts = want.artifacts)
  let gotMeta ← S.readStartMetadata got.metadata
  let wantMeta ← S.readStartMetadata want.metadata
  S.compareStartMetadata key gotMeta wantMeta

/-- `validateExistingInitialChapter`. -/
def validateExistingInitialChapter (key : JobKey) (want : Chapter) : Call (State σ τ) Err Unit := do
  let record ← askLog S.services (·.get key 0)
  let got ← Call.check (decodeChapter S.services record)
  Call.check (S.compareInitialChapter key want got)

/-- `validateStoredJobFacts`. -/
def validateStoredJobFacts (stored : JobFacts) (req : CreateJobRequest) : Except Err Unit := do
  demand (.existingJobMismatch ("job " ++ req.jobKey.text ++ " has different scheduler facts"))
    (stored.jobKey = req.jobKey ∧ stored.jobType = req.jobType ∧
      stored.schemaHash = req.schemaHash ∧ stored.parentJobID = req.parentJobID ∧
      S.sameJSONObject stored.appMetadata req.appMetadata = true ∧
      stored.runPolicy = req.runPolicy)
  demand (.existingJobMismatch ("job " ++ req.jobKey.text ++ " has different schedule occurrence"))
    (stored.schedule = req.schedule)

/-- A job that the scheduler has, against the request. -/
def confirmJob (stored : JobFacts) (req : CreateJobRequest) : Except Err JobHandle := do
  demand (.existingJobMismatch "initial client payload differs")
    (stored.initialPayloadDigest = req.initialPayloadDigest)
  S.validateStoredJobFacts stored req
  .ok (stored.cell.handle req.jobKey stored.goalID)

/-- The job that the scheduler has, if it has one. -/
def findJob (req : CreateJobRequest) (q : σ) : Except Err (Option JobHandle) :=
  match S.queue.jobFacts req.jobKey q with
  | .ok stored => (S.confirmJob stored req).map some
  | .error .jobNotFound => .ok none
  | .error e => .error e

/-! ## The call -/

/-- The first chapter is in the log: written just now (`false`), or before and the same. -/
def ensureInitialChapter (d : Draft) : Call (State σ τ) Err Bool :=
  Call.recover (do
    changeLog S.services (·.create d.request.jobKey d.record)
    pure false) fun e =>
      match e with
      | .conflict _ => do
        S.validateExistingInitialChapter d.request.jobKey d.initial
        pure true
      | e => Call.check (.error e)

/-- `CreateJob`, and what it has made. -/
def createJob (ctx : Ctx) (req : CreateJobRequest) : Call (State σ τ) Err JobHandle := do
  let stored ← change (S.queue.create ctx req)
  Call.check (S.validateStoredJobFacts stored req)
  pure (stored.cell.handle req.jobKey stored.goalID)

/-- The job is there: found, if the chapter was, or created. -/
def ensureJob (ctx : Ctx) (req : CreateJobRequest) (existing : Bool) :
    Call (State σ τ) Err JobHandle :=
  if existing then do
    match ← Call.query fun s => S.findJob req s.scheduler with
    | some handle => pure handle
    | none => S.createJob ctx req
  else S.createJob ctx req

/-- `submitJobWithSchedule` from its reservation on. -/
def submitReserved (ctx : Ctx) (writer : Nat) (o : Order) (prep : Preparation) (r : Prepared) :
    Call (State σ τ) Err JobHandle :=
  if r.published then pure (r.target.handle r.key r.goalID)
  else do
    let d ← Call.query fun s => S.draft writer o prep r s.now
    let existing ← S.ensureInitialChapter d
    S.ensureJob ctx d.request existing

/-- The deferred function of a submission: one that fails takes its preparation back, if it can. -/
def discardOnError {α : Type} (key : JobKey) (x : Call (State σ τ) Err α) :
    Call (State σ τ) Err α :=
  x.recover fun e => do
    Call.recover (JobDB.Core.change S.services fun _ => S.queue.discardJobPreparation key)
      fun _ => pure ()
    Call.check (.error e)

/-- `submitJobWithSchedule` before its preparation. -/
def submitPreparation (o : Order) : Except Err Preparation := do
  S.submissions.validateIdentifier o.job.jobType
  S.submissions.validateSubmission o.job
  S.submissions.prepare.submitPreparation o.job o.parentJobID

/-- `submitJobWithSchedule`. -/
def submitJobWithSchedule (ctx : Ctx) (writer : Nat) (o : Order) :
    Call (State σ τ) Err JobHandle := do
  let prep ← Call.check (S.submitPreparation o)
  let r ← change (S.queue.prepareJob ctx prep)
  S.discardOnError r.key (S.submitReserved ctx writer o prep r)

/-- `SubmitJob`. -/
def submitJob (ctx : Ctx) (writer : Nat) (job : SubmitJob) (workerID : String)
    (requestTime : Time) : Call (State σ τ) Err JobHandle :=
  S.submitJobWithSchedule ctx writer { job := job, workerID := workerID,
                                       requestTime := requestTime }

/-- `submitScheduledOccurrenceWithID`: what it submits. -/
def occurrenceOrder (o : ScheduledJob) (workerID : String) : Order where
  job :=
    { cell := o.target.cell
      cellRepo := o.target.cellRepo
      clientPayloadUpdate := o.target.clientPayloadUpdate
      tenantId := o.key.tenantId
      jobID := o.key.jobId
      jobType := o.target.jobType
      data := o.target.data
      runPolicy := o.target.runPolicy
      metadata := o.target.metadata
      prerequisites := o.prerequisites
      availableAt := some o.availableAt }
  occurrence := some o.occurrence
  workerID := workerID

end JobServices

end JobDB.Core
