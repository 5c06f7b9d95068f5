import JobDB.Lib.Tx
import JobDB.Schedule.Types

/-!
# What a submission asks for

Submissions and restarts, and the preparation that reserves a job's identity before
any history is written (`pkg/jobdb/jobs.go`,
`pkg/jobdb/internal/goalstate/preparation.go`).

A preparation remembers the request in a descriptor, the canonical JSON text of
everything but the job's ID and cell; a later request under the same ID has to
have the same descriptor. Here the descriptor is the record itself, with its raw
JSON in canonical form: equal texts are equal records.
-/

namespace JobDB

/-- `JobPrerequisite`. -/
structure JobPrerequisite where
  jobID : String
  condition : JobPrereqCondition
deriving DecidableEq, Repr

/-- `JobSchemaSelector`. -/
structure JobSchemaSelector where
  hash : String := ""
  schema : String := ""
deriving DecidableEq, Repr

/-- `ExecutionRestart`. -/
structure ExecutionRestart where
  scopeID : String
  payload : String := ""
deriving DecidableEq, Repr

/-- `SubmitJob`. -/
structure SubmitJob where
  cell : String := ""
  cellRepo : String := ""
  dependencies : List Dependency := []
  clientPayloadUpdate : Option ClientPayloadUpdate := none
  tenantId : String
  jobType : String
  jobID : String := ""
  data : Option TaskData := none
  runPolicy : RunPolicy := {}
  metadata : String := ""
  schema : Option JobSchemaSelector := none
  availableAt : Option Time := none
  prerequisites : List JobPrerequisite := []
deriving DecidableEq, Repr

/-- The job that a submission names. -/
def SubmitJob.key (job : SubmitJob) : JobKey := ⟨job.tenantId, job.jobID⟩

/-- `SubmitRestartJob`. -/
structure SubmitRestartJob where
  cell : String := ""
  cellRepo : String := ""
  shareGoal : Bool := false
  dependencies : List Dependency := []
  executionRestart : Option ExecutionRestart := none
  clientPayloadUpdate : Option ClientPayloadUpdate := none
  priorJobKey : JobKey
  lastStepToKeep : Int
  jobID : String := ""
  extraTaskInput : Option TaskData := none
  extraTaskOutput : Option TaskData := none
  schema : Option JobSchemaSelector := none
  prerequisites : List JobPrerequisite := []
deriving DecidableEq, Repr

/-- What a preparation remembers of its request. -/
inductive Descriptor where
  | submit (parent : String) (job : SubmitJob) (data : String)
  | restart (parent : String) (job : SubmitRestartJob) (input output : String)
deriving DecidableEq, Repr

/-- `goalstate.Preparation`. -/
structure Preparation where
  cell : String
  cellRepo : String
  target : ResolvedCell := ⟨"", "", ""⟩
  parentJobID : String := ""
  key : JobKey
  requestID : String := ""
  priorJobID : String := ""
  shareGoal : Bool := false
  descriptor : Descriptor
  dependencies : List Dependency := []
deriving DecidableEq, Repr

/-- `goalstate.Prepared`. -/
structure Prepared where
  target : ResolvedCell
  key : JobKey
  goalID : String
  published : Bool := false
deriving DecidableEq, Repr

/-- `JobHandle`. -/
structure JobHandle where
  jobKey : JobKey
  goalID : String
  cell : ResolvedCell
deriving DecidableEq, Repr

/-- `ResolvedCell.Handle`. -/
def ResolvedCell.handle (c : ResolvedCell) (key : JobKey) (goalID : String) : JobHandle :=
  ⟨key, goalID, c⟩

/-- A stored preparation: the request with its cell resolved, and the goal reserved
for it. -/
structure PreparedJob where
  request : Preparation
  goalID : String
deriving DecidableEq, Repr

/-- `JobKey.Validate`. -/
def JobKey.validate (k : JobKey) : Except Err Unit :=
  if k.tenantId = "" then .error (.invalid "TenantId cannot be empty")
  else if k.jobId = "" then .error (.invalid "JobId cannot be empty")
  else .ok ()

/-- What a preparation takes from elsewhere. -/
structure PrepareLib where
  /-- `taskFingerprint` of given data. -/
  fingerprint : TaskData → Except Err String
  /-- The canonical form of a JSON text. -/
  canonicalJSON : String → Except Err String

namespace PrepareLib

variable (F : PrepareLib)

/-- `taskFingerprint`. -/
def taskFingerprint : Option TaskData → Except Err String
  | none => .ok ""
  | some data => F.fingerprint data

/-- Raw JSON in canonical form; Go's nil stays what it is. -/
def canonicalRaw (text : String) : Except Err String :=
  if text = "" then .ok "" else F.canonicalJSON text

def canonicalUpdate : Option ClientPayloadUpdate → Except Err (Option ClientPayloadUpdate)
  | some ⟨mode, some value, expected⟩ => do
    let value ← F.canonicalRaw value
    .ok (some ⟨mode, some value, expected⟩)
  | u => .ok u

def canonicalSchema : Option JobSchemaSelector → Except Err (Option JobSchemaSelector)
  | some ⟨hash, schema⟩ => do
    let schema ← F.canonicalRaw schema
    .ok (some ⟨hash, schema⟩)
  | none => .ok none

def canonicalRestart : Option ExecutionRestart → Except Err (Option ExecutionRestart)
  | some ⟨scopeID, payload⟩ => do
    let payload ← F.canonicalRaw payload
    .ok (some ⟨scopeID, payload⟩)
  | none => .ok none

/-- The checks both kinds of preparation make on dependencies. -/
def checkDependencies (prerequisites : List JobPrerequisite) (dependencies : List Dependency) :
    Except Err Unit :=
  if prerequisites ≠ [] ∧ dependencies ≠ [] then .error (.invalidDependency "")
  else validateDependencies dependencies

/-- `SubmitPreparation`. -/
def submitPreparation (job : SubmitJob) (parent : String) : Except Err Preparation := do
  checkDependencies job.prerequisites job.dependencies
  let data ← F.taskFingerprint job.data
  let metadata ← F.canonicalRaw job.metadata
  let update ← F.canonicalUpdate job.clientPayloadUpdate
  let schema ← F.canonicalSchema job.schema
  .ok {
    cell := job.cell
    cellRepo := job.cellRepo
    parentJobID := parent
    key := ⟨job.tenantId, job.jobID⟩
    descriptor := .submit parent
      { job with
        data := none, jobID := "", cell := "", cellRepo := "", metadata := metadata,
        clientPayloadUpdate := update, schema := schema }
      data
    dependencies := job.dependencies }

/-- The preparation is for the job that is named. -/
theorem submitPreparation_key {job : SubmitJob} {parent : String} {req : Preparation}
    (h : F.submitPreparation job parent = .ok req) : req.key = job.key := by
  iterate 5 obtain ⟨_, -, h⟩ := bind_eq_ok.1 h
  obtain rfl := Except.ok.inj h
  rfl

/-- `RestartPreparation`. -/
def restartPreparation (requestID : String) (job : SubmitRestartJob) (parent : String) :
    Except Err Preparation := do
  if job.shareGoal ∧ job.jobID = "" ∧ requestID = "" then
    .error (.invalidDependency "shareGoal with generated job ID requires requestId")
  checkDependencies job.prerequisites job.dependencies
  let input ← F.taskFingerprint job.extraTaskInput
  let output ← F.taskFingerprint job.extraTaskOutput
  let update ← F.canonicalUpdate job.clientPayloadUpdate
  let schema ← F.canonicalSchema job.schema
  let restart ← F.canonicalRestart job.executionRestart
  .ok {
    cell := job.cell
    cellRepo := job.cellRepo
    parentJobID := parent
    key := ⟨job.priorJobKey.tenantId, job.jobID⟩
    requestID := requestID
    priorJobID := job.priorJobKey.jobId
    shareGoal := job.shareGoal
    descriptor := .restart parent
      { job with
        extraTaskInput := none, extraTaskOutput := none, jobID := "", cell := "", cellRepo := "",
        clientPayloadUpdate := update, schema := schema, executionRestart := restart }
      input output
    dependencies := job.dependencies }

end PrepareLib

/-- What `taskDataToChapter` is given for a start chapter. -/
structure StartChapter where
  data : Option TaskData
  taskType : String
  workerID : String
  inputHash : String
  createdAt : Time
  initialPayloadDigest : String
  runPolicy : RunPolicy
  metadata : String
  prerequisites : List JobPrerequisite
deriving DecidableEq, Repr

/-- `chapterEnvelope`, as far as a submission reads it. -/
structure StartEnvelope where
  chapterType : String
  taskType : String
  inputHash : String
  initialPayloadDigest : String
  metadata : String
  runPolicy : Option RunPolicy
  prerequisites : List JobPrerequisite
deriving DecidableEq, Repr

/-- `chapterTypeJobStart`. -/
def chapterTypeJobStart : String := "JobStart"

/-- The envelope of a start chapter. -/
def StartChapter.envelope (c : StartChapter) : StartEnvelope where
  chapterType := chapterTypeJobStart
  taskType := c.taskType
  inputHash := c.inputHash
  initialPayloadDigest := c.initialPayloadDigest
  metadata := c.metadata
  runPolicy := some c.runPolicy
  prerequisites := c.prerequisites

/-- What submissions and restarts take from elsewhere. -/
structure SubmitLib where
  prepare : PrepareLib
  /-- `ValidateIdentifier`. -/
  validateIdentifier : String → Except Err Unit
  /-- `ValidateSubmissionApplicationPayload`. -/
  validateSubmission : SubmitJob → Except Err Unit
  /-- `ValidateRestartApplicationPayload`. -/
  validateRestart : SubmitRestartJob → Except Err Unit
  /-- `ValidateApplicationMetadata`. -/
  validateApplicationMetadata : String → Except Err Unit
  /-- `ResolveActiveSchemaForNewJob` in a tenant: the hash. -/
  resolveSchema : String → Option JobSchemaSelector → Except Err String
  /-- `BuildJobMetadataEnvelope` of the application's metadata, a schema hash and a parent. -/
  buildMetadata : String → String → String → Except Err String
  /-- `AppMetadataFromStoredMetadata`. -/
  appMetadata : String → String
  /-- `clientpayload.Digest`. -/
  digest : Option String → Except Err String
  /-- The input hash of given data. -/
  inputHash : Option TaskData → Except Err String
  /-- `ValidateFirstChapter` and `ValidateOrdinaryChapter`, under a schema of a tenant. -/
  validateFirstChapter : String → String → Chapter → Except Err Unit
  validateOrdinaryChapter : String → String → Chapter → Except Err Unit

/-- A library that accepts everything and leaves every text as it is. -/
def SubmitLib.plain : SubmitLib where
  prepare := { fingerprint := fun d => .ok d.data, canonicalJSON := .ok }
  validateIdentifier _ := .ok ()
  validateSubmission _ := .ok ()
  validateRestart _ := .ok ()
  validateApplicationMetadata _ := .ok ()
  resolveSchema _ _ := .ok ""
  buildMetadata app _ _ := .ok app
  appMetadata := id
  digest value := .ok (value.getD "")
  inputHash data := .ok ((data.map (·.data)).getD "")
  validateFirstChapter _ _ _ := .ok ()
  validateOrdinaryChapter _ _ _ := .ok ()

/-- The first difference that `PreparationMismatch` names; it reads the parts of the two
texts that a submission and a restart have under the same name. -/
def Descriptor.difference : Descriptor → Descriptor → String
  | .submit _ a x, .submit _ b y =>
    if x ≠ y then "different input"
    else if a.jobType ≠ b.jobType then "different job type"
    else if a.metadata ≠ b.metadata then "different metadata"
    else if a.runPolicy ≠ b.runPolicy then "different run policy"
    else if a.prerequisites ≠ b.prerequisites then "different prerequisites"
    else if a.dependencies ≠ b.dependencies then "different dependencies"
    else if a.clientPayloadUpdate ≠ b.clientPayloadUpdate then "different initial client payload"
    else if a.schema ≠ b.schema then "different schema"
    else "different job preparation"
  | .restart _ a _ _, .restart _ b _ _ =>
    if a.prerequisites ≠ b.prerequisites then "different prerequisites"
    else if a.dependencies ≠ b.dependencies then "different dependencies"
    else if a.shareGoal ≠ b.shareGoal then "different goal sharing"
    else if a.clientPayloadUpdate ≠ b.clientPayloadUpdate then "different initial client payload"
    else if a.schema ≠ b.schema then "different schema"
    else "different job preparation"
  | .submit _ _ x, .restart .. => if x ≠ "" then "different input" else "different job type"
  | .restart .., .submit _ _ y => if y ≠ "" then "different input" else "different job type"

/-- `PreparationMismatch`. -/
def preparationMismatch (old new : Descriptor) : Err := .existingJobMismatch (old.difference new)

end JobDB
