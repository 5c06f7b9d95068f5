import JobDB.Runtime.ListJobs
import JobDB.Sqlite.Preparation

/-!
# What the SQLite runtime submits

`SubmitJob` reserves the job, writes its story with a start chapter and publishes the job
(`runtime.go`, `reconcile.go`, `codec.go`). Should the story exist, its start chapter decides
whether it is the same job.

* `compareSubmitStartChapter`: a start chapter that exists, against the job submitted.
* `submitIntake`, `submitJob`: what `SubmitJob` makes of a request.
* `occurrenceRequest`: what `submitScheduledOccurrenceWithJobID` prepares for an occurrence of a
  schedule (`schedule.go`).
-/

namespace JobDB

/-! ## Start chapters -/

/-- The codec of start chapters. -/
structure StartCodec where
  /-- `taskDataToChapter`. -/
  encode : StartChapter → Except Err (String × List StoredArtifact)
  /-- `decodeChapterEnvelope`. -/
  decode : String → Except Err StartEnvelope
  /-- `chapterFromStoryChapter`. -/
  chapter : String × List StoredArtifact → Except Err Chapter

namespace Sqlite

/-- `metadataForStartChapter`. -/
def metadataForStartChapter (raw : String) : String := if blank raw then "\x7b\x7d" else raw

/-- `normalizePrerequisites` after the jobs `seen`; `waitFor` is the list of their IDs. -/
def normalizePrerequisites (key : JobKey) :
    List String → List JobPrerequisite → Except Err (List JobPrerequisite)
  | _, [] => .ok []
  | seen, p :: ps =>
    if blank p.jobID then .error (.invalid "prerequisite job id is required")
    else if p.jobID = key.jobId then .error (.invalid "prerequisite job id cannot reference self")
    else if p.jobID ∈ seen then normalizePrerequisites key seen ps
    else do
      let condition ← normalizeCondition p.condition
      let rest ← normalizePrerequisites key (p.jobID :: seen) ps
      .ok (⟨p.jobID, condition⟩ :: rest)

/-- `requestWorkerID`. -/
def requestWorkerID (H : Host) (workerID : String) : String :=
  if workerID ≠ "" then workerID else H.workerID

/-- What a start chapter is compared with. -/
structure StartExpectation where
  jobType : String
  inputHash : String
  metadata : String
  prerequisites : List JobPrerequisite
  runPolicy : RunPolicy
  clientPayloadUpdate : Option ClientPayloadUpdate

section Start

variable (H : Host) (D : PayloadLib) (C : StartCodec)

/-- `clientpayload.Digest` of `clientpayload.Initial`. -/
def initialDigest (update : Option ClientPayloadUpdate) : Except Err String := do
  let initial ← H.initialPayload update
  D.digest initial.1

/-- The tests of `compareSubmitStartChapter` on a start chapter that could be decoded; `same` is
`jsonObjectsEqual`. -/
def compareStart (same : String → String → Bool) (key : JobKey) (env : StartEnvelope)
    (want : StartExpectation) (digest : String) : Except Err Unit := do
  let job := "job " ++ key.text ++ " already exists with "
  demand (.existingJobMismatch "initial client payload differs") (digest = env.initialPayloadDigest)
  demand (.existingJobMismatch (job ++ "chapter type \"" ++ env.chapterType ++ "\" at ordinal 0"))
    (env.chapterType = chapterTypeJobStart)
  demand (.existingJobMismatch (job ++ "different job type")) (env.taskType = want.jobType)
  demand (.existingJobMismatch (job ++ "different input")) (env.inputHash = want.inputHash)
  demand (.existingJobMismatch (job ++ "different metadata"))
    (blank env.metadata = true ∨ same env.metadata want.metadata = true)
  demand (.existingJobMismatch (job ++ "different run policy"))
    (normalizeRunPolicy (env.runPolicy.getD {}) = want.runPolicy)
  demand (.existingJobMismatch (job ++ "different prerequisites"))
    (env.prerequisites = want.prerequisites)

/-- `compareSubmitStartChapter`. -/
def compareSubmitStartChapter (key : JobKey) (body : String) (want : StartExpectation) :
    Except Err Unit :=
  match C.decode body with
  | .error e =>
    .error (.existingJobMismatch
      ("job " ++ key.text ++ " start chapter could not be decoded: " ++ e.message))
  | .ok env => do
    let digest ← initialDigest H D want.clientPayloadUpdate
    compareStart D.sameMetadata key env want digest

/-- `loadExistingStartChapter` of a story that exists. -/
def startChapterOf (key : JobKey) (st : Story) : Except Err StoredChapter :=
  match st.chapter? 0 with
  | none =>
    .error (.existingJobMismatch ("job " ++ key.text ++ " already exists without a start chapter"))
  | some ch => .ok ch

/-- A story that exists, against the job submitted. -/
def compareStory (key : JobKey) (want : StartExpectation) (st : Story) : Except Err Unit := do
  let start ← startChapterOf key st
  compareSubmitStartChapter H D C key start.body want

end Start

/-! ## Submitted jobs -/

section Submit

variable (L : CellLib) (H : Host) (D : PayloadLib) (F : SubmitLib) (C : StartCodec)

/-- What the start chapter of a submitted job has to say. -/
def submitExpectation (job : SubmitJob) (key : JobKey) : Except Err StartExpectation := do
  let prerequisites ← normalizePrerequisites key [] job.prerequisites
  let inputHash ← F.inputHash job.data
  .ok {
    jobType := job.jobType
    inputHash := inputHash
    metadata := job.metadata
    prerequisites := prerequisites
    runPolicy := normalizeRunPolicy job.runPolicy
    clientPayloadUpdate := job.clientPayloadUpdate }

/-- The start chapter that says it. -/
def StartExpectation.start (want : StartExpectation) (data : Option TaskData)
    (workerID digest : String) (now : Time) : StartChapter where
  data := data
  taskType := want.jobType
  workerID := workerID
  inputHash := want.inputHash
  createdAt := now
  initialPayloadDigest := digest
  runPolicy := want.runPolicy
  metadata := metadataForStartChapter want.metadata
  prerequisites := want.prerequisites

/-- The job's row, with its stored metadata. -/
def StartExpectation.fields (want : StartExpectation) (metadata parent : String)
    (availableAt : Option Time) : JobFields where
  jobType := want.jobType
  metadata := metadata
  parentJobID := if parent = "" then none else some parent
  waitFor := want.prerequisites.map (·.jobID)
  runPolicy := want.runPolicy
  availableAt := availableAt
  clientPayloadUpdate := want.clientPayloadUpdate

/-- `submitJobWithParent` before its preparation. -/
def submitPreparation (job : SubmitJob) (parent : String) : Except Err Preparation := do
  F.validateIdentifier job.jobType
  F.validateSubmission job
  F.prepare.submitPreparation job parent

/-- `submitJobWithParent` between its preparation and its first write to the chapter store. -/
def submitPlan (job : SubmitJob) (parent workerID : String) (key : JobKey) (d : Db) :
    Except Err Plan := do
  key.validate
  let digest ← initialDigest H D job.clientPayloadUpdate
  F.validateApplicationMetadata job.metadata
  let schema ← F.resolveSchema job.tenantId job.schema
  let metadata ← F.buildMetadata job.metadata schema parent
  let want ← submitExpectation F job key
  let chapter ← C.encode (want.start job.data (requestWorkerID H workerID) digest d.state.now)
  let first ← C.chapter chapter
  F.validateFirstChapter key.tenantId schema first
  .ok { chapter := some chapter, job := want.fields metadata parent job.availableAt }

/-- `reconcileExistingSubmitJob`, where there is a story. -/
def submitCompare (job : SubmitJob) (key : JobKey) (_p : Plan) (_d : Db) (st : Story) :
    Except Err Unit := do
  let want ← submitExpectation F job key
  compareStory H D C key want st

/-- `submitJobWithParent`. -/
def submitIntake (job : SubmitJob) (parent workerID : String) : Intake where
  preparation := submitPreparation F job parent
  plan := submitPlan H D F C job parent workerID
  compare := submitCompare H D F C job

/-- `SubmitJob`. -/
def submitJob (ctx : Ctx) (writer : Nat) (job : SubmitJob) (workerID : String) :
    Call Db Err JobHandle :=
  submission L H D ctx writer (submitIntake H D F C job "" workerID)

end Submit

/-! ## Occurrences -/

/-- The request that an occurrence is prepared under: it names neither the prerequisites, nor the
client payload, nor the time. -/
def occurrenceRequest (o : ScheduledJob) : SubmitJob where
  tenantId := o.key.tenantId
  jobID := o.key.jobId
  cell := o.target.cell
  cellRepo := o.target.cellRepo
  jobType := o.target.jobType
  data := o.target.data
  runPolicy := o.target.runPolicy
  metadata := o.target.metadata

end Sqlite

end JobDB
