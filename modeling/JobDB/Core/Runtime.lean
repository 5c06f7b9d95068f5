import JobDB.Lib.Log
import JobDB.Lib.Process
import JobDB.Runtime.Types

/-!
# The core runtime

`pkg/jobdb/runtime/core` runs jobs over two services it is given: a scheduler with
atomic lease mutations, and a chapter log. The two share nothing, so that each
request to one of them is a step of its own (`runtime_put_chapter.go`,
`runtime_leases.go`, `runtime_task.go`).

Of the scheduler nothing is assumed but that it answers for the job it is asked
about. Of the chapter log, `LawfulChapterLog`
assumes what its interface promises: an append takes the next ordinal and no
other, a record is given back as it was written, and a clone starts with the
records of its source.
-/

namespace JobDB.Core

/-! ## Services -/

/-- `TaskWork`. -/
structure TaskWork where
  taskType : String
  resumeJobType : String
  inputOrdinal : Int
  outputOrdinal : Int
  inputHash : String
deriving DecidableEq, Repr

/-- `WaitingTaskSnapshot`. -/
structure WaitingTaskSnapshot where
  jobType : String
  task : TaskWork
deriving DecidableEq, Repr

/-- `LeaseIdentity`. -/
structure LeaseIdentity where
  jobKey : JobKey
  leaseID : String
  workerID : String
  expiresAt : Time := Time.zero
deriving DecidableEq, Repr

/-- `LeaseSnapshot`, as far as the calls look at it. -/
structure LeaseSnapshot where
  identity : LeaseIdentity
  routeJobType : String := ""
  clientPayload : Option String := none
  clientPayloadRevision : Int := 0
deriving DecidableEq, Repr

/-- `StoredJob`, as far as the calls look at it. -/
structure StoredJob where
  archived : Bool := false
  cancelRequested : Bool := false
  taskWork : Option TaskWork := none
  runPolicy : RunPolicy := {}
  schemaHash : String := ""
  leaseExpiresAt : Option Time := none
  leaseWorkerID : String := ""
deriving DecidableEq, Repr

/-- `CompletionMutation`. -/
structure CompletionMutation where
  clientPayloadUpdate : Option ClientPayloadUpdate
  identity : LeaseIdentity
  status : String
  detail : String
  errorKind : String
  retryable : Option Bool
  now : Time

/-- `RescheduleMutation`, as `CompleteTaskIfWaiting` fills it in: back to a job
route. -/
structure RescheduleMutation where
  identity : LeaseIdentity
  routeJobType : String
  now : Time

/-- `ClaimTaskRequest`. -/
structure ClaimTaskRequest where
  jobKey : JobKey
  workerID : String
  task : WaitingTaskSnapshot
  leaseDuration : Int
  now : Time

/-- The scheduler, over its own state. -/
structure Scheduler (σ : Type) where
  getJob : JobKey → σ → Except Err StoredJob
  createJob : JobKey → σ → Except Err σ
  cancelJob : JobKey → String → Time → σ → Except Err σ
  validateLease : LeaseIdentity → σ → Except Err LeaseSnapshot
  /-- The snapshot is of the job that was asked for. -/
  validateLease_jobKey : ∀ {identity s lease}, validateLease identity s = .ok lease →
    lease.identity.jobKey = identity.jobKey
  completeLease : CompletionMutation → σ → Except Err σ
  rescheduleLease : RescheduleMutation → σ → Except Err σ
  getWaitingTask : JobKey → σ → Except Err WaitingTaskSnapshot
  claimTask : ClaimTaskRequest → σ → Except Err (LeaseIdentity × σ)

/-- `ChapterLog`, over its own state. -/
structure ChapterLog (τ : Type) where
  create : JobKey → StoredChapter → τ → Except Err τ
  clonePrefix : JobKey → JobKey → Int → Option StoredChapter → τ → Except Err τ
  append : JobKey → StoredChapter → τ → Except Err τ
  get : JobKey → Int → τ → Except Err StoredChapter
  count : JobKey → τ → Except Err Int

/-- The contract of a chapter log. Any request may fail, at any time. -/
structure LawfulChapterLog {τ : Type} (C : ChapterLog τ) where
  log : τ → JobKey → Option (List StoredChapter)
  create_ok : ∀ {k ch t t'}, C.create k ch t = .ok t' →
    log t k = none ∧ log t' = Function.update (log t) k (some [ch])
  clonePrefix_ok : ∀ {source k last extra t t'}, C.clonePrefix source k last extra t = .ok t' →
    log t k = none ∧ ∃ l, log t source = some l ∧ 0 ≤ last ∧ last < l.length ∧
      log t' = Function.update (log t) k (some (l.take (last.toNat + 1) ++ extra.toList))
  append_ok : ∀ {k ch t t'}, C.append k ch t = .ok t' → ∃ l, log t k = some l ∧
    ch.ordinal = l.length ∧ log t' = Function.update (log t) k (some (l ++ [ch]))
  get_ok : ∀ {k n t ch}, C.get k n t = .ok ch → ∃ l, log t k = some l ∧
    entryAt StoredChapter.ordinal l n = some ch

/-- A chapter log in memory. -/
def ChapterLog.memory : ChapterLog (Logs JobKey StoredChapter) where
  create k ch v :=
    match v k with
    | none => .ok (Function.update v k (some [ch]))
    | some _ => .error (.conflict "chapter log exists")
  clonePrefix source k last extra v :=
    match v k, v source with
    | none, some l =>
      if 0 ≤ last ∧ last < l.length then
        .ok (Function.update v k (some (l.take (last.toNat + 1) ++ extra.toList)))
      else .error (.invalid "last ordinal exceeds source range")
    | none, none => .error .jobNotFound
    | some _, _ => .error (.conflict "chapter log exists")
  append k ch v :=
    match v k with
    | none => .error .jobNotFound
    | some l =>
      if ch.ordinal = l.length then .ok (Function.update v k (some (l ++ [ch])))
      else .error (.conflict "chapter ordinal is not the next")
  get k n v :=
    match (v k).bind (entryAt StoredChapter.ordinal · n) with
    | some ch => .ok ch
    | none => .error .chapterNotFound
  count k v := .ok ((v k).elim 0 (·.length))

/-- The contract can be met. -/
def ChapterLog.memory_lawful : LawfulChapterLog ChapterLog.memory where
  log := id
  create_ok {k ch t t'} h := by
    unfold ChapterLog.memory at h
    dsimp only at h
    split at h
    · next hk =>
      cases h
      exact ⟨hk, rfl⟩
    · cases h
  clonePrefix_ok {source k last extra t t'} h := by
    unfold ChapterLog.memory at h
    dsimp only at h
    split at h
    · next l hk hl =>
      split at h
      · next hlast =>
        cases h
        exact ⟨hk, l, hl, hlast.1, hlast.2, rfl⟩
      · cases h
    · cases h
    · cases h
  append_ok {k ch t t'} h := by
    unfold ChapterLog.memory at h
    dsimp only at h
    split at h
    · cases h
    · next l hl =>
      split at h
      · next hnext =>
        cases h
        exact ⟨l, hl, hnext, rfl⟩
      · cases h
  get_ok {k n t ch} h := by
    unfold ChapterLog.memory at h
    dsimp only at h
    split at h
    · next hch =>
      cases h
      exact Option.bind_eq_some_iff.mp hch
    · cases h

/-- What the runtime is given. -/
structure Services (σ τ : Type) where
  host : Host
  scheduler : Scheduler σ
  chapters : ChapterLog τ
  /-- The body, metadata and artifacts of a task's output chapter, from the request,
  the wait, the job's policy and the task's input chapter. -/
  taskChapter : CompleteTaskIfWaitingRequest → TaskWork → RunPolicy → Option StoredChapter → Time →
    Except Err Chapter

/-- What the calls share. -/
structure State (σ τ : Type) where
  scheduler : σ
  chapters : τ
  now : Time

section Calls

variable {σ τ : Type} (S : Services σ τ)

/-! ## Steps -/

/-- A request to the scheduler that answers. -/
def ask {α : Type} (f : Scheduler σ → σ → Except Err α) : Call (State σ τ) Err α :=
  Call.query fun s => f S.scheduler s.scheduler

/-- A request to the scheduler that changes something. -/
def change (f : Scheduler σ → σ → Except Err σ) : Call (State σ τ) Err Unit :=
  Call.tx <| Tx.write fun s => do
    let scheduler ← f S.scheduler s.scheduler
    .ok { s with scheduler := scheduler }

/-- A request to the chapter log that answers. -/
def askLog {α : Type} (f : ChapterLog τ → τ → Except Err α) : Call (State σ τ) Err α :=
  Call.query fun s => f S.chapters s.chapters

/-- A request to the chapter log that changes something. -/
def changeLog (f : ChapterLog τ → τ → Except Err τ) : Call (State σ τ) Err Unit :=
  Call.tx <| Tx.write fun s => do
    let chapters ← f S.chapters s.chapters
    .ok { s with chapters := chapters }

/-- `r.now()`. -/
def now : Call (State σ τ) Err Time := Call.query fun s => .ok s.now

/-! ## Chapters -/

/-- The descriptor of an upload that was read. -/
def describe (item : ArtifactUpload) : Except Err StoredArtifact := do
  if item.name = "" then .error (.invalid "artifact name and opener are required")
  let data ← item.content
  .ok { name := item.name, digest := S.host.sha256 data, size := data.utf8ByteSize }

/-- The descriptors a chapter comes with agree with those of its uploads. -/
def agrees (want got : List StoredArtifact) : Except Err Unit :=
  if want = [] then .ok ()
  else if want.length ≠ got.length then
    .error (.invalid "chapter artifact descriptor count differs from uploads")
  else
    match (want.zip got).find? fun (w, g) => w.name ≠ g.name ∨ w.size ≠ 0 ∧ w.size ≠ g.size ∨
      w.digest ≠ "" ∧ w.digest ≠ g.digest with
    | none => .ok ()
    | some (_, g) => .error (.invalid s!"chapter artifact {quoted g.name} differs from upload")

/-- `prepareChapterWrite`. -/
def prepareChapterWrite (chapter : Chapter) (uploads : List ArtifactUpload) :
    Except Err Chapter := do
  S.host.validatePayload chapter
  if uploads = [] then
    if chapter.artifacts ≠ [] then
      .error (.invalid "chapter has artifact descriptors but no uploads")
    else .ok chapter
  else do
    let descriptors ← uploads.mapM (describe S)
    agrees chapter.artifacts descriptors
    .ok { chapter with artifacts := descriptors }

/-- `EncodeChapter`: the record the chapter log gets. -/
def encodeChapter (writer : Nat) (chapter : Chapter) : Except Err StoredChapter := do
  let body ← S.host.encodeChapter chapter
  .ok ⟨chapter.ordinal, body, chapter.artifacts, writer⟩

/-- `DecodeChapter`. -/
def decodeChapter (record : StoredChapter) : Except Err Chapter :=
  S.host.decodeChapter record.ordinal record.body record.artifacts

/-- The worker that `PutChapter` takes the lease to belong to: the one the scheduler
names, which has to be the caller where the caller says who it is. -/
def leaseWorker (claims : Option Claims) (stored : StoredJob) : Except Err String :=
  if stored.leaseWorkerID = "" then .error .executionLeaseLost
  else if claims.any (·.workerID ≠ stored.leaseWorkerID) then .error .executionLeaseLost
  else .ok stored.leaseWorkerID

/-- `PutChapter`. -/
def putChapter (writer : Nat) (claims : Option Claims) (req : PutChapterRequest) :
    Call (State σ τ) Err Unit := do
  Call.check (if req.leaseID = "" then .error (.invalid "lease id is required for PutChapter")
    else if req.ordinal < 0 ∨ req.chapter.ordinal ≠ req.ordinal then
      .error (.invalid "chapter ordinal does not match target ordinal")
    else .ok ())
  Call.query fun s => authorize claims req.jobKey req.leaseID s.now
  Call.check (if claims.any (·.workerID = "") then .error .executionLeaseLost else .ok ())
  let stored ← ask S (·.getJob req.jobKey)
  let worker ← Call.check (leaseWorker claims stored)
  let _ ← ask S (·.validateLease ⟨req.jobKey, req.leaseID, worker, Time.zero⟩)
  let count ← askLog S (·.count req.jobKey)
  Call.check (if req.ordinal ≠ count then .error (.conflict
      s!"chapter ordinal {req.ordinal} is not appendable; expected {count}") else .ok ())
  let chapter ← Call.check (prepareChapterWrite S req.chapter req.artifactUploads)
  Call.check (S.host.validateOrdinaryChapter req.jobKey.tenantId stored.schemaHash chapter)
  let record ← Call.check (encodeChapter S writer chapter)
  changeLog S (·.append req.jobKey record)

/-! ## Completion -/

/-- `sameCompletionChapter`. -/
def sameCompletionChapter (left right : Chapter) : Except Err Bool := do
  let l ← S.host.encodeChapter left
  let r ← S.host.encodeChapter right
  .ok (l = r ∧ left.artifacts = right.artifacts ∧ left.body = right.body)

/-- `ensureCompletionChapter` where a chapter has the ordinal already. -/
def compareCompletionChapter (key : JobKey) (chapter : Chapter) : Call (State σ τ) Err Unit := do
  let existing ← askLog S (·.get key chapter.ordinal)
  let decoded ← Call.check (decodeChapter S existing)
  let same ← Call.check (sameCompletionChapter S decoded chapter)
  Call.check (if same then .ok ()
    else .error (.conflict s!"completion chapter {chapter.ordinal} differs"))

/-- `ensureCompletionChapter` where the ordinal is free. -/
def appendCompletionChapter (writer : Nat) (key : JobKey) (stored : StoredJob) (chapter : Chapter)
    (count : Int) : Call (State σ τ) Err Unit := do
  Call.check (if chapter.ordinal ≠ count then
    .error (.conflict s!"completion chapter ordinal {chapter.ordinal} is not appendable")
    else .ok ())
  Call.check (S.host.validateLastChapter key.tenantId stored.schemaHash chapter)
  let record ← Call.check (encodeChapter S writer chapter)
  changeLog S (·.append key record)

/-- The checks of `ensureCompletionChapter` on the request. -/
def completionChapter (req : CompleteExecutionRequest) : Except Err Chapter :=
  match req.chapter with
  | none => .error (.invalid "complete lease requires final chapter")
  | some ch =>
    if ch.isJobAttemptOutcome = false then
      .error (.invalid "complete lease chapter must be JobAttemptOutcome")
    else if ch.ordinal < 0 then .error (.invalid "chapter ordinal must be nonnegative")
    else .ok ch

/-- `ensureCompletionChapter`. -/
def ensureCompletionChapter (writer : Nat) (key : JobKey) (req : CompleteExecutionRequest) :
    Call (State σ τ) Err Unit := do
  let final ← Call.check (completionChapter req)
  let stored ← ask S (·.getJob key)
  let chapter ← Call.check (prepareChapterWrite S final req.artifactUploads)
  let count ← askLog S (·.count key)
  if chapter.ordinal < count then compareCompletionChapter S key chapter
  else appendCompletionChapter S writer key stored chapter count

/-- `completionStatus`. -/
def completionStatus (status : String) : Except Err String :=
  if status ∈ ["", "success", "succeeded"] then .ok "success"
  else if status ∈ ["failed_app", "failed_system", "failed_timeout", "cancelled"] then .ok status
  else .error (.invalid s!"invalid completion status {status}")

/-- `completionDetails`. -/
def completionDetails (chapter : Option Chapter) : String × Option Bool :=
  match chapter with
  | none => ("", none)
  | some ch =>
    match ch.body with
    | .jobAttemptOutcome (.appError _) =>
      ("AppError", if ch.payloadFailure then some false else none)
    | .jobAttemptOutcome (.systemError _ _ _ retryable) => ("SystemError", some retryable)
    | .jobAttemptOutcome (.timeout _ retryable) => ("Timeout", some retryable)
    | _ => ("", none)

/-- `requireCurrent`. -/
def requireCurrent (lease : LeaseSnapshot) : Call (State σ τ) Err Unit := do
  let t ← now
  Call.check (if lease.identity.expiresAt ≤ t then .error .executionLeaseLost else .ok ())
  let _ ← ask S (·.validateLease lease.identity)

/-- `Complete`. -/
def complete (writer : Nat) (lease : LeaseSnapshot) (req : CompleteExecutionRequest) :
    Call (State σ τ) Err Unit := do
  let _ ← Call.check (S.host.applyUpdate lease.clientPayload lease.clientPayloadRevision
    req.clientPayloadUpdate)
  requireCurrent S lease
  ensureCompletionChapter S writer lease.identity.jobKey req
  let status ← Call.check (completionStatus req.status)
  let t ← now
  change S (·.completeLease
    { clientPayloadUpdate := req.clientPayloadUpdate
      identity := lease.identity
      status := status
      detail := req.detail
      errorKind := (completionDetails req.chapter).1
      retryable := (completionDetails req.chapter).2
      now := t })

/-- `CompleteJobWithLeaseByID`. -/
def completeByID (writer : Nat) (key : JobKey) (leaseID workerID : String)
    (req : CompleteExecutionRequest) : Call (State σ τ) Err Unit := do
  Call.check (if leaseID = "" ∨ workerID = "" then
    .error (.invalid "lease id and worker id are required") else .ok ())
  let lease ← ask S (·.validateLease ⟨key, leaseID, workerID, Time.zero⟩)
  complete S writer lease req

/-! ## Waiting tasks -/

/-- The scheduler waits for the very task the request is about. -/
def waitingFor (waiting : WaitingTaskSnapshot) (req : CompleteTaskIfWaitingRequest) :
    Except Err Unit :=
  if req.route ≠ ⟨waiting.jobType, waiting.task.taskType⟩ then
    .error (.conflict "waiting route differs from request")
  else if req.resumeJobType ≠ "" ∧ req.resumeJobType ≠ waiting.task.resumeJobType then
    .error (.conflict "waiting resume route differs from request")
  else if req.inputOrdinal ≠ 0 ∧ req.inputOrdinal ≠ waiting.task.inputOrdinal then
    .error (.conflict "waiting input ordinal differs from request")
  else if req.outputOrdinal ≠ waiting.task.outputOrdinal ∨
      (req.inputHash ≠ "" ∧ req.inputHash ≠ waiting.task.inputHash) then
    .error (.conflict "waiting task coordinates differ from request")
  else .ok ()

/-- The job is an unheld task. -/
def unheld (stored : StoredJob) (task : TaskWork) (t : Time) : Except Err Unit :=
  if stored.cancelRequested ∨ stored.archived ∨ stored.taskWork ≠ some task ∨
      stored.leaseExpiresAt.any (t < ·) then
    .error (.conflict "job is not waiting for an unheld external task")
  else .ok ()

/-- The input chapter of a task; an ordinal of 0 stands for none. -/
def inputChapter (key : JobKey) (ordinal : Int) : Call (State σ τ) Err (Option StoredChapter) :=
  if 0 < ordinal then do
    let record ← askLog S (·.get key ordinal)
    pure (some record)
  else pure none

/-- `ClaimTask`, for 30 seconds. -/
def claim (key : JobKey) (waiting : WaitingTaskSnapshot) : Call (State σ τ) Err LeaseIdentity := do
  let t ← now
  Call.tx fun s => do
    let (identity, scheduler) ← S.scheduler.claimTask
      { jobKey := key, workerID := S.host.workerID, task := waiting,
        leaseDuration := 30 * 1000000000, now := t } s.scheduler
    .ok (identity, { s with scheduler := scheduler })

/-- `CompleteTaskIfWaiting` with an output that is too large: the job ends, and the
caller gets the size error. -/
def failTask (writer : Nat) (req : CompleteTaskIfWaitingRequest) (waiting : WaitingTaskSnapshot)
    (chapter : Chapter) (text : String) : Call (State σ τ) Err Unit := do
  let identity ← claim S req.jobKey waiting
  complete S writer { identity := identity }
    { status := "failed_app", detail := text,
      chapter := some (payloadFailureChapter chapter text) }
  Call.check (.error (.payloadTooLarge text))

/-- `CompleteTaskIfWaiting` from the encoding on: claim, append, reschedule. -/
def commitTask (writer : Nat) (req : CompleteTaskIfWaitingRequest) (waiting : WaitingTaskSnapshot)
    (chapter : Chapter) : Call (State σ τ) Err Unit := do
  let record ← Call.check (encodeChapter S writer chapter)
  let count ← askLog S (·.count req.jobKey)
  Call.check (if count ≠ waiting.task.outputOrdinal then
    .error (.conflict s!"task output ordinal is not appendable; expected {count}") else .ok ())
  let identity ← claim S req.jobKey waiting
  let _ ← ask S (·.validateLease identity)
  changeLog S (·.append req.jobKey record)
  let t ← now
  change S (·.rescheduleLease ⟨identity, waiting.task.resumeJobType, t⟩)

/-- `CompleteTaskIfWaiting`. -/
def completeTaskIfWaiting (writer : Nat) (req : CompleteTaskIfWaitingRequest) :
    Call (State σ τ) Err Unit := do
  Call.check req.route.validate
  Call.check (if req.route.taskType = "" then .error (.invalid "task route required") else .ok ())
  let waiting ← ask S (·.getWaitingTask req.jobKey)
  Call.check (waitingFor waiting req)
  let stored ← ask S (·.getJob req.jobKey)
  let t ← now
  Call.check (unheld stored waiting.task t)
  let input ← inputChapter S req.jobKey waiting.task.inputOrdinal
  let t' ← now
  let output ← Call.check (S.taskChapter req waiting.task stored.runPolicy input t')
  let chapter := { output with ordinal := waiting.task.outputOrdinal }
  match S.host.validateOrdinaryChapter req.jobKey.tenantId stored.schemaHash chapter with
  | .ok () => commitTask S writer req waiting chapter
  | .error (.payloadTooLarge text) => failTask S writer req waiting chapter text
  | .error e => Call.check (.error e)

/-! ## Jobs begun and cancelled -/

/-- `SubmitJob` for a new job: its first chapter, then the job. -/
def submitJob (writer : Nat) (key : JobKey) (initial : Chapter) : Call (State σ τ) Err Unit := do
  let record ← Call.check (encodeChapter S writer { initial with ordinal := 0 })
  changeLog S (·.create key record)
  change S (·.createJob key)

/-- The chapter that a restart adds behind those it keeps. -/
def restartChapter (writer : Nat) (last : Int) (extra : Option Chapter) :
    Except Err (Option StoredChapter) :=
  match extra with
  | none => .ok none
  | some chapter => do
    let record ← encodeChapter S writer { chapter with ordinal := last + 1 }
    .ok (some record)

/-- `SubmitRestartJob` for a new job: the chapters it keeps, then the job. -/
def submitRestartJob (writer : Nat) (source key : JobKey) (last : Int) (extra : Option Chapter) :
    Call (State σ τ) Err Unit := do
  let record ← Call.check (restartChapter S writer last extra)
  changeLog S (·.clonePrefix source key last record)
  change S (·.createJob key)

/-- `CancelJob`. -/
def cancelJob (key : JobKey) (reason : String) : Call (State σ τ) Err Unit := do
  let t ← now
  change S (·.cancelJob key reason t)

end Calls

/-! ## The system -/

/-- The calls, with their arguments. -/
inductive Request where
  | submitJob (key : JobKey) (initial : Chapter)
  | submitRestartJob (source key : JobKey) (last : Int) (extra : Option Chapter)
  | putChapter (claims : Option Claims) (req : PutChapterRequest)
  | complete (lease : LeaseSnapshot) (req : CompleteExecutionRequest)
  | completeByID (key : JobKey) (leaseID workerID : String) (req : CompleteExecutionRequest)
  | completeTaskIfWaiting (req : CompleteTaskIfWaitingRequest)
  | cancelJob (key : JobKey) (reason : String)

variable {σ τ : Type} (S : Services σ τ)

/-- The process of a call. -/
def body (writer : Nat) : Request → Call (State σ τ) Err Unit
  | .submitJob key initial => submitJob S writer key initial
  | .submitRestartJob source key last extra => submitRestartJob S writer source key last extra
  | .putChapter claims req => putChapter S writer claims req
  | .complete lease req => complete S writer lease req
  | .completeByID key leaseID workerID req => completeByID S writer key leaseID workerID req
  | .completeTaskIfWaiting req => completeTaskIfWaiting S writer req
  | .cancelJob key reason => cancelJob S key reason

/-- What happens elsewhere: leases come and go, that is, the scheduler's state may
become any other, and the clock moves on. -/
def Elsewhere (s s' : State σ τ) : Prop := s'.chapters = s.chapters ∧ s.now ≤ s'.now

/-- The core runtime. -/
def system : System (State σ τ) Request (Except Err Unit) where
  body := body S
  allowed _ _ := True
  env := Elsewhere

end JobDB.Core
