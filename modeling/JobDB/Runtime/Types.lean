import JobDB.Goal.Types

/-!
# Routes, requests and chapters

The vocabulary of the execution runtimes (`pkg/jobdb/route.go`, `runtime.go`,
`chapter.go`, `client_payload.go`, `clientpayload/clientpayload.go`) and the
request checks that look at nothing but the request.

What a runtime gets from elsewhere is a field of `Host`: the schema and size
checks on chapters, their encoding, JSON parsing and patching, digests. Nothing
is assumed about these functions; what is assumed of the ID source stands with
it as a field.
-/

namespace JobDB

/-! ## Routes -/

/-- `Route`: job work, or task work when the task type is nonempty. -/
structure Route where
  jobType : String
  taskType : String := ""
deriving DecidableEq, Repr

/-- `ValidateIdentifier`; a Lean string is always valid UTF-8. -/
def validateIdentifier (value : String) : Except Err Unit :=
  if value = "" ∨ '\x00' ∈ value.toList then
    .error (.invalid "identifier must be nonempty UTF-8 without U+0000")
  else .ok ()

/-- `Route.Validate`. -/
def Route.validate (r : Route) : Except Err Unit := do
  validateIdentifier r.jobType
  if r.taskType ≠ "" then validateIdentifier r.taskType else .ok ()

/-- `TaskWait`: the coordinates of a task a job waits for. -/
structure TaskWait where
  inputOrdinal : Int
  outputOrdinal : Int
  inputHash : String
  resumeJobType : String
deriving DecidableEq, Repr

/-- `RescheduleTaskWait`. -/
def rescheduleTaskWait (next : Route) (task : Option TaskWait) : Except Err (Option TaskWait) := do
  next.validate
  if next.taskType = "" then
    if task.isSome then .error (.invalid "job route cannot have task coordinates") else .ok none
  else
    match task with
    | none => .error (.invalid "task route requires complete task coordinates")
    | some t =>
      if t.inputOrdinal < 0 ∨ t.outputOrdinal < 0 ∨ t.inputHash = "" ∨
          (validateIdentifier t.resumeJobType).toBool = false then
        .error (.invalid "task route requires complete task coordinates")
      else .ok (some t)

/-- `ValidateAlternateRoute`. -/
def validateAlternateRoute (route : Option Route) (after : Option Int) (task : Option TaskWait) :
    Except Err Unit :=
  match route with
  | none =>
    if after.isSome then .error (.invalid "alternate route required with alternate delay")
    else .ok ()
  | some r => do
    r.validate
    if after.all (· < 0) then .error (.invalid "alternate route requires a nonnegative delay")
    else if r.taskType ≠ "" ∧ task = none then
      .error (.invalid "alternate task route requires task coordinates")
    else .ok ()

/-- `SchedulerPayload`: what the scheduler keeps for a job. -/
structure JobPayload where
  runPolicy : RunPolicy := {}
  taskWait : Option TaskWait := none
deriving DecidableEq, Repr

/-! ## Chapters -/

/-- `AppErrorPayload`, with the attribute `code`. -/
structure AppErrorPayload where
  message : String
  code : Option String := none
deriving DecidableEq, Repr

/-- `ChapterOutcome`. -/
inductive ChapterOutcome where
  | applicationOutput (data : String)
  | appError (error : AppErrorPayload)
  | systemError (message component code : String) (retryable : Bool)
  | timeout (data : String) (retryable : Bool)
deriving DecidableEq, Repr

/-- `ChapterBody`. -/
inductive ChapterBody where
  | jobStart (input : String)
  | jobAttemptOutcome (outcome : ChapterOutcome)
  | taskAttemptOutcome (outcome : ChapterOutcome)
  | restartExtra (data : String)
  | execution (record : String)
deriving DecidableEq, Repr

/-- `StoredArtifact`. -/
structure StoredArtifact where
  name : String
  digest : String
  size : Int
deriving DecidableEq, Repr

/-- One round of the loop of `validateChapterArtifactDescriptors`: what it finds wrong. -/
def descriptorMismatch (i : Nat) (e c : StoredArtifact) : Option String :=
  if e.name ≠ c.name then
    some (s!"chapter artifact {i} name {quoted e.name} " ++
      s!"does not match uploaded artifact {quoted c.name}")
  else if e.size ≠ 0 ∧ e.size ≠ c.size then
    some s!"chapter artifact {quoted e.name} size {e.size} does not match uploaded size {c.size}"
  else if e.digest ≠ "" ∧ e.digest ≠ c.digest then
    some (s!"chapter artifact {quoted e.name} digest {quoted e.digest} " ++
      s!"does not match uploaded digest {quoted c.digest}")
  else none

/-- `validateChapterArtifactDescriptors`. -/
def validateChapterArtifactDescriptors (existing computed : List StoredArtifact) :
    Except String Unit :=
  if existing = [] then .ok ()
  else if existing.length ≠ computed.length then .error
    s!"chapter artifact metadata count {existing.length} does not match uploads {computed.length}"
  else
    match (existing.zip computed).zipIdx.findSome? fun ((e, c), i) => descriptorMismatch i e c with
    | none => .ok ()
    | some text => .error text

/-- `Chapter`. -/
structure Chapter where
  ordinal : Int
  taskType : String := ""
  body : ChapterBody
  inputHash : String := ""
  createdAt : Time := Time.zero
  metadata : String := ""
  artifacts : List StoredArtifact := []
deriving DecidableEq, Repr

/-- `ChapterApplicationPayloadTooLargeCode`. -/
def payloadTooLargeCode : String := "chapter_application_payload_too_large"

/-- `ChapterPayloadFailure`. -/
def Chapter.payloadFailure (ch : Chapter) : Bool :=
  match ch.body with
  | .jobAttemptOutcome (.appError e) => e.code = some payloadTooLargeCode
  | _ => false

/-- `PayloadFailureChapter`. -/
def payloadFailureChapter (ch : Chapter) (message : String) : Chapter where
  ordinal := ch.ordinal
  taskType := ch.taskType
  createdAt := ch.createdAt
  body := .jobAttemptOutcome (.appError { message := message, code := some payloadTooLargeCode })

/-- `ChapterIs(chapter, ChapterTypeJobAttemptOutcome)`. -/
def Chapter.isJobAttemptOutcome (ch : Chapter) : Bool :=
  match ch.body with
  | .jobAttemptOutcome _ => true
  | _ => false

/-- A chapter as a store keeps it: a row of `jobdb_chapter_chapters` with its
artifacts, or an `EncodedChapter`. `writer`, the call that wrote it, is not in the
source. -/
structure StoredChapter where
  ordinal : Int
  body : String
  artifacts : List StoredArtifact
  writer : Nat
deriving DecidableEq, Repr

/-- `ArtifactUpload`: a name and what opening it gives. -/
structure ArtifactUpload where
  name : String
  content : Except Err String

/-! ## Client payloads -/

inductive UpdateMode where
  | patch
  | reset
  | other (text : String)
deriving DecidableEq, Repr

/-- `clientpayload.Update`. -/
structure ClientPayloadUpdate where
  mode : UpdateMode
  value : Option String := none
  expectedRevision : Option Int := none
deriving DecidableEq, Repr

/-! ## What comes from elsewhere -/

/-- `CompleteTaskIfWaitingRequest`; `data` is the task's result. -/
structure CompleteTaskIfWaitingRequest where
  jobKey : JobKey
  route : Route
  resumeJobType : String := ""
  inputOrdinal : Int := 0
  outputOrdinal : Int
  inputHash : String := ""
  data : String

/-- The functions a runtime is given. -/
structure Host where
  /-- The IDs `ksuid.New` draws, in order: never empty, never twice the same. -/
  ksuid : Nat → String
  ksuid_ne_empty : ∀ n, ksuid n ≠ ""
  ksuid_injective : ∀ m n, ksuid m = ksuid n → m = n
  /-- The runtime's own worker ID. -/
  workerID : String
  /-- `clientpayload.parse`: is the text a JSON value within the limits? -/
  parse : String → Except Err Unit
  /-- `clientpayload.applyValue`. -/
  applyValue : Option String → ClientPayloadUpdate → Except Err (Option String)
  /-- `EncodeChapter` and `DecodeChapter`; a stored chapter is its payload and its
  artifacts. -/
  encodeChapter : Chapter → Except Err String
  decodeChapter : Int → String → List StoredArtifact → Except Err Chapter
  /-- `ValidateChapterApplicationPayload`. -/
  validatePayload : Chapter → Except Err Unit
  /-- `ValidateOrdinaryChapter` and `ValidateLastChapter` under the schema that the job's
  tenant has under the hash in the job's metadata. -/
  validateOrdinaryChapter : String → String → Chapter → Except Err Unit
  validateLastChapter : String → String → Chapter → Except Err Unit
  /-- SHA-256, in hexadecimal. -/
  sha256 : String → String
  /-- The encoded output chapter of a waiting task with its artifacts, from the
  request, the wait, the job's policy and the task's input chapter. -/
  taskOutput : CompleteTaskIfWaitingRequest → TaskWait → RunPolicy → Option String → Time →
    Except Err (String × List StoredArtifact)

namespace Host

variable (H : Host)

/-- `clientpayload.ValidateUpdate`. -/
def validateUpdate (u : Option ClientPayloadUpdate) (initial : Bool) : Except Err Unit :=
  match u with
  | none => .ok ()
  | some u => do
    if initial then
      if u.expectedRevision.isSome then
        .error (.invalid "invalid client payload: submit cannot specify expected revision")
    else if u.expectedRevision.all (· < 0) then
      .error (.invalid "invalid client payload: expected revision is required")
    match u.mode with
    | .patch =>
      if u.value = none then .error (.invalid "invalid client payload: patch value required")
    | .reset => .ok ()
    | .other _ => .error (.invalid "invalid client payload: mode must be patch or reset")
    match u.value with
    | some v => H.parse v
    | none => .ok ()

/-- `clientpayload.Apply`: the new value and revision. -/
def applyUpdate (current : Option String) (revision : Int) (u : Option ClientPayloadUpdate) :
    Except Err (Option String × Int) := do
  H.validateUpdate u false
  match u with
  | none => .ok (current, revision)
  | some u =>
    if u.expectedRevision ≠ some revision then
      .error (.conflict "client payload revision differs")
    else if revision = 2 ^ 63 - 1 then .error (.conflict "revision exhausted")
    else do
      let value ← H.applyValue current u
      .ok (value, revision + 1)

/-- `clientpayload.Initial`. -/
def initialPayload (u : Option ClientPayloadUpdate) : Except Err (Option String × Int) := do
  H.validateUpdate u true
  match u with
  | none => .ok (none, 0)
  | some u => do
    let value ← H.applyValue none u
    .ok (value, if value.isSome then 1 else 0)

/-- A host that accepts everything, with IDs that count. -/
def accepting : Host where
  ksuid n := String.ofList (List.replicate (n + 1) 'x')
  ksuid_ne_empty n h := by simpa [List.replicate_succ] using congrArg String.toList h
  ksuid_injective m n h := by
    simpa using congrArg List.length (congrArg String.toList h)
  workerID := "runtime"
  parse _ := .ok ()
  applyValue _ u := .ok u.value
  encodeChapter ch := .ok (match ch.body with
    | .jobStart text => "start " ++ text
    | .jobAttemptOutcome (.applicationOutput text) => "outcome " ++ text
    | .taskAttemptOutcome (.applicationOutput text) => "task " ++ text
    | _ => "other")
  decodeChapter n body artifacts :=
    .ok { ordinal := n, body := .jobAttemptOutcome (.applicationOutput body),
          artifacts := artifacts }
  validatePayload _ := .ok ()
  validateOrdinaryChapter _ _ _ := .ok ()
  validateLastChapter _ _ _ := .ok ()
  sha256 text := text
  taskOutput req _ _ _ _ := .ok ("task " ++ req.data, [])

end Host

/-! ## Requests -/

/-- `CompleteExecutionRequest`. -/
structure CompleteExecutionRequest where
  clientPayloadUpdate : Option ClientPayloadUpdate := none
  status : String := ""
  detail : String := ""
  chapter : Option Chapter := none
  artifactUploads : List ArtifactUpload := []

/-- `RescheduleExecutionRequest`. -/
structure RescheduleExecutionRequest where
  dependencyWait : Option DependencyWait := none
  nextRoute : Route
  waitUntil : Option Time := none
  waitForJobIDs : List String := []
  taskWait : Option TaskWait := none
  clientPayloadUpdate : Option ClientPayloadUpdate := none
  alternateRoute : Option Route := none
  alternateAfter : Option Int := none

/-- `ValidateDependencyReschedule`. -/
def validateDependencyReschedule (r : RescheduleExecutionRequest) : Except Err Unit :=
  match r.dependencyWait with
  | none => .ok ()
  | some w =>
    if r.waitForJobIDs ≠ [] ∨ r.waitUntil.isSome ∨ r.alternateRoute.isSome ∨
        r.alternateAfter.isSome then
      .error (.invalidDependency "structured waits cannot combine legacy timing or dependencies")
    else validateDependencyWait w false

/-- `PutChapterRequest`. -/
structure PutChapterRequest where
  leaseID : String
  jobKey : JobKey
  ordinal : Int
  chapter : Chapter
  artifactUploads : List ArtifactUpload := []

/-- `leaseauth.Claims`, as far as a runtime looks at them. -/
structure Claims where
  jobKey : JobKey
  leaseID : String
  workerID : String
  expiresAt : Time := Time.zero
deriving DecidableEq, Repr

/-- `leaseauth.Authorize`. -/
def authorize (claims : Option Claims) (key : JobKey) (leaseID : String) (now : Time) :
    Except Err Unit :=
  match claims with
  | none => .ok ()
  | some c =>
    if c.jobKey ≠ key ∨ c.leaseID ≠ leaseID then .error .executionLeaseLost
    else if c.expiresAt ≠ Time.zero ∧ c.expiresAt ≤ now then .error .executionLeaseLost
    else .ok ()

/-- `completionStatusFromRequest`. -/
def completionStatusFromRequest (status : String) : String :=
  if status = "" ∨ status = "success" ∨ status = "succeeded" then "success" else status

end JobDB
