import JobDB.Lib.Process
import JobDB.Sqlite.Transactions

/-!
# The SQLite runtime's calls

The calls of `pkg/jobdb/runtime/sqlite` as processes: each transaction, each
write of the chapter store, each query outside a transaction and each reading of
the clock is one step, and other calls may come between any two
(`lease.go`, `runtime.go`, `task_completion.go`, `payload_failure.go`,
`schedule_preflight.go`).

A worker's call goes through its lease handle, which first compares the expiry it
remembers with the clock, or names the lease by ID; `handle` is that expiry, if
there is one. `writer` is the number of the call, which its chapters carry.
-/

namespace JobDB.Sqlite

variable (H : Host)

/-- `time.Now()` between two steps. -/
def timeNow : Call State Err Time := Call.query fun s => .ok s.now

/-! ## Leases in use -/

/-- `checkExpiry`. -/
def checkExpiry (handle : Option Time) : Call State Err Unit := Call.query fun s =>
  if handle.any (· ≤ s.now) then .error .executionLeaseLost else .ok ()

/-- Neither ID may be empty. -/
def checkIDs (leaseID workerID : String) : Call State Err Unit :=
  Call.check (if leaseID = "" ∨ workerID = "" then .error .executionLeaseLost else .ok ())

/-- `validateLease`. -/
def validateLease (key : JobKey) (leaseID workerID : String) : Call State Err JobRow :=
  Call.query fun s => do
    let row ← s.loadJobRow key
    validateLeaseRow row leaseID workerID s.now
    .ok row

/-- `KeepAlive`, `KeepAliveLeaseByIDWithExpiry`. -/
def keepAlive (handle : Option Time) (key : JobKey) (leaseID workerID : String) (duration : Int) :
    Call State Err Unit := do
  checkExpiry handle
  checkIDs leaseID workerID
  let now ← timeNow
  Call.tx (keepAliveTx key leaseID workerID (now + leaseDurationOrDefault duration))

/-- `Renew`, `RenewExecutionLeaseByID`. -/
def renew (handle : Option Time) (key : JobKey) (leaseID workerID : String) (duration : Int) :
    Call State Err Unit := do
  checkExpiry handle
  checkIDs leaseID workerID
  Call.tx (renewTx key leaseID workerID duration)

/-- `Reschedule`, `RescheduleJobWithLeaseByID`. -/
def reschedule (handle : Option Time) (key : JobKey) (leaseID workerID : String)
    (req : RescheduleExecutionRequest) : Call State Err Unit := do
  checkExpiry handle
  checkIDs leaseID workerID
  Call.check (validateDependencyReschedule req)
  let task ← Call.check (rescheduleTaskWait req.nextRoute req.taskWait)
  Call.check (validateAlternateRoute req.alternateRoute req.alternateAfter task)
  Call.check (H.validateUpdate req.clientPayloadUpdate false)
  let now ← timeNow
  Call.tx (rescheduleTx H key leaseID workerID req task now)

/-! ## Chapters -/

/-- `prepareChapterWrite`: the chapter with the artifacts that were uploaded. -/
def prepareChapterWrite (chapter : Chapter) (uploads : List ArtifactUpload) :
    Except Err Chapter := do
  H.validatePayload chapter
  if uploads = [] then
    if chapter.artifacts ≠ [] then
      .error (.invalid "put chapter with artifact descriptors but no artifact uploads")
    else .ok chapter
  else do
    let stored ← uploads.mapM fun item => do
      let data ← item.content
      .ok { name := item.name, digest := H.sha256 data, size := data.utf8ByteSize }
    (validateChapterArtifactDescriptors chapter.artifacts stored).mapError .invalid
    .ok { chapter with artifacts := stored }

/-- `ensureNextVisibleChapterOrdinal`. -/
def ensureNextVisibleChapterOrdinal (key : JobKey) (ordinal : Int) : Call State Err Unit :=
  Call.query fun s =>
    match s.stories.lookup key with
    | none => .error .jobNotFound
    | some st =>
      match st.chapters.getLast? with
      | none =>
        if ordinal = 0 then .ok () else .error (.conflict "chapter ordinal is not appendable")
      | some last =>
        if ordinal ≤ last.ordinal then .error (.conflict "chapter ordinal already exists")
        else if ordinal ≠ last.ordinal + 1 then
          .error (.conflict "chapter ordinal is not appendable")
        else .ok ()

/-- `SaveChapter`: without an ordinal, the chapter takes the count it reads. -/
def saveChapter (writer : Nat) (key : JobKey) (ordinal : Int) (body : String)
    (artifacts : List StoredArtifact) : Call State Err Unit := do
  let ordinal ← Call.query fun s =>
    if ordinal < 0 then
      match s.stories.lookup key with
      | none => .error (.store "story not found")
      | some st => .ok st.chapterCount
    else .ok ordinal
  Call.check (if body = "" then .error (.invalid "chapterstore: chapter body missing") else .ok ())
  Call.tx (appendTx key ⟨ordinal, body, artifacts, writer⟩)

/-- `PutChapter`. -/
def putChapter (writer : Nat) (claims : Option Claims) (req : PutChapterRequest) :
    Call State Err Unit := do
  Call.check (if req.leaseID = "" then .error (.invalid "lease id is required for PutChapter")
    else if req.ordinal < 0 then .error (.invalid "chapter ordinal must be >= 0")
    else if req.chapter.ordinal ≠ req.ordinal then
      .error (.invalid "chapter ordinal does not match target ordinal")
    else .ok ())
  Call.query fun s => authorize claims req.jobKey req.leaseID s.now
  let row ← validateLease req.jobKey req.leaseID (claims.elim "" (·.workerID))
  ensureNextVisibleChapterOrdinal req.jobKey req.ordinal
  let chapter ← Call.check (prepareChapterWrite H req.chapter req.artifactUploads)
  Call.check (H.validateOrdinaryChapter req.jobKey.tenantId row.metadata chapter)
  let body ← Call.check (H.encodeChapter chapter)
  saveChapter writer req.jobKey req.ordinal body chapter.artifacts

/-! ## Completion -/

/-- `existingCompletionChapter`. -/
def existingCompletionChapter (key : JobKey) (ordinal : Int) : Call State Err (Option Chapter) :=
  Call.query fun s =>
    match (s.stories.lookup key).bind (·.chapter? ordinal) with
    | none => .ok none
    | some ch => (H.decodeChapter ordinal ch.body ch.artifacts).map some

/-- `normalizeStoredArtifacts`. -/
def normalizeStoredArtifacts (xs : List StoredArtifact) : List StoredArtifact :=
  xs.insertionSort fun a b => a.name ≤ b.name

/-- `sameRuntimeChapter`. -/
def sameRuntimeChapter (left right : Chapter) : Except Err Bool := do
  let leftBody ← H.encodeChapter left
  let rightBody ← H.encodeChapter right
  .ok (leftBody = rightBody ∧
    normalizeStoredArtifacts left.artifacts = normalizeStoredArtifacts right.artifacts)

/-- What `ensureCompletionChapter` compares an existing chapter with. -/
def completionCandidate (chapter : Chapter) (uploads : List ArtifactUpload) : Except Err Chapter :=
  if uploads = [] then .ok chapter else prepareChapterWrite H chapter uploads

/-- `ensureCompletionChapter` where the ordinal is still free. -/
def appendCompletionChapter (writer : Nat) (key : JobKey) (row : JobRow) (chapter : Chapter)
    (uploads : List ArtifactUpload) : Call State Err Unit := do
  ensureNextVisibleChapterOrdinal key chapter.ordinal
  let prepared ← Call.check (prepareChapterWrite H chapter uploads)
  Call.check (H.validateLastChapter key.tenantId row.metadata prepared)
  let body ← Call.check (H.encodeChapter prepared)
  saveChapter writer key chapter.ordinal body prepared.artifacts

/-- `ensureCompletionChapter`. -/
def ensureCompletionChapter (writer : Nat) (key : JobKey) (leaseID workerID : String)
    (chapter : Chapter) (uploads : List ArtifactUpload) : Call State Err Unit := do
  Call.check (if chapter.isJobAttemptOutcome = false then
      .error (.invalid "complete lease chapter must be JobAttemptOutcome")
    else if chapter.ordinal < 0 then .error (.invalid "chapter ordinal must be >= 0")
    else .ok ())
  let row ← validateLease key leaseID workerID
  match ← existingCompletionChapter H key chapter.ordinal with
  | some existing => do
    let candidate ← Call.check (completionCandidate H chapter uploads)
    let same ← Call.check (sameRuntimeChapter H existing candidate)
    Call.check (if same then .ok ()
      else .error (.conflict "chapter ordinal already exists with different contents"))
  | none => appendCompletionChapter H writer key row chapter uploads

/-- The client payload check that `Complete` makes before it writes anything. -/
def checkClientPayload (key : JobKey) (leaseID workerID : String) (u : Option ClientPayloadUpdate) :
    Call State Err Unit :=
  if u.isSome then do
    let row ← validateLease key leaseID workerID
    let _ ← Call.check (H.applyUpdate row.clientPayload row.clientPayloadRevision u)
  else pure ()

/-- `completePayloadFailure`. -/
def completePayloadFailure (writer : Nat) (key : JobKey) (ch : Chapter)
    (authorize : State → JobRow → Except Err Unit) : Call State Err Unit := do
  Call.check (if ch.payloadFailure = false ∨ ch.artifacts ≠ [] then
      .error (.invalid "invalid payload failure chapter")
    else .ok ())
  let body ← Call.check (H.encodeChapter ch)
  Call.tx (payloadFailureTx writer key ch body authorize)

/-- `Complete` with a chapter that says that the payload is too large. -/
def completeTooLarge (writer : Nat) (key : JobKey) (leaseID workerID : String) (ch : Chapter)
    (req : CompleteExecutionRequest) : Call State Err Unit := do
  Call.check (if req.artifactUploads ≠ [] ∨ req.clientPayloadUpdate.isSome then
      .error (.invalid "payload failure cannot carry uploads or client updates")
    else .ok ())
  completePayloadFailure H writer key ch fun s row => validateLeaseRow row leaseID workerID s.now

/-- `Complete` with any other chapter. -/
def completeWith (writer : Nat) (key : JobKey) (leaseID workerID : String) (ch : Chapter)
    (req : CompleteExecutionRequest) : Call State Err Unit := do
  ensureCompletionChapter H writer key leaseID workerID ch req.artifactUploads
  let now ← timeNow
  Call.tx (completeTx H key leaseID workerID req now)

/-- `Complete`, `CompleteJobWithLeaseByID`. -/
def complete (writer : Nat) (handle : Option Time) (key : JobKey) (leaseID workerID : String)
    (req : CompleteExecutionRequest) : Call State Err Unit := do
  checkExpiry handle
  checkIDs leaseID workerID
  Call.check (H.validateUpdate req.clientPayloadUpdate false)
  checkClientPayload H key leaseID workerID req.clientPayloadUpdate
  match req.chapter with
  | none => Call.check (.error (.invalid "complete lease requires final chapter"))
  | some ch =>
    if ch.payloadFailure then completeTooLarge H writer key leaseID workerID ch req
    else completeWith H writer key leaseID workerID ch req

/-! ## Waiting tasks -/

/-- The job is an unheld task that waits for what the request brings; its wait. -/
def waitingTask (row : JobRow) (req : CompleteTaskIfWaitingRequest) (now : Time) :
    Except Err TaskWait :=
  if row.archivedAtNS.isSome ∨ row.cancelRequested ∨
      row.leaseExpiresAtNS.any (fun ns => timeToNS now < ns) then
    .error (.conflict "task is not unheld")
  else
    match row.payload.taskWait with
    | none => .error (.conflict "job is not waiting on an external task")
    | some tw =>
      if row.nextRoute ≠ req.route then .error (.conflict "waiting route does not match")
      else if req.resumeJobType ≠ "" ∧ tw.resumeJobType ≠ req.resumeJobType then
        .error (.conflict "resume need does not match")
      else if req.inputOrdinal ≠ 0 ∧ tw.inputOrdinal ≠ req.inputOrdinal then
        .error (.conflict "waiting input ordinal does not match")
      else if tw.outputOrdinal ≠ req.outputOrdinal then
        .error (.conflict "waiting output ordinal does not match")
      else if req.inputHash ≠ "" ∧ tw.inputHash ≠ req.inputHash then
        .error (.conflict "waiting input hash does not match")
      else .ok tw

/-- The input chapter of a waiting task; an ordinal of 0 stands for none. -/
def inputChapter (key : JobKey) (ordinal : Int) : Call State Err (Option String) :=
  Call.query fun s =>
    if 0 < ordinal then
      match (s.stories.lookup key).bind (·.chapter? ordinal) with
      | none => .error .chapterNotFound
      | some ch => .ok (some ch.body)
    else .ok none

/-- `appendTaskOutput`. -/
def appendTaskOutput (writer : Nat) (lease : Lease) (ordinal : Int) (body : String)
    (artifacts : List StoredArtifact) : Call State Err Unit := do
  Call.query fun s => do
    let row ← s.loadJobRow lease.jobKey
    if row.cancelRequested then .error .executionLeaseLost
    else validateLeaseRow row lease.leaseID lease.workerID s.now
  saveChapter writer lease.jobKey ordinal body artifacts

/-- `CompleteTaskIfWaiting` from the claim on: claim, append, reschedule. -/
def commitTaskOutput (writer : Nat) (row : JobRow) (tw : TaskWait) (body : String)
    (artifacts : List StoredArtifact) : Call State Err Unit := do
  ensureNextVisibleChapterOrdinal row.key tw.outputOrdinal
  let lease ← Call.tx (claimTx H row tw.resumeJobType row.payload.runPolicy)
  appendTaskOutput writer lease tw.outputOrdinal body artifacts
  reschedule H (some lease.expiresAt) lease.jobKey lease.leaseID lease.workerID
    { nextRoute := lease.route }

/-- `failWaitingPayload`: the job ends, and the caller gets the size error. -/
def failWaitingPayload (writer : Nat) (row : JobRow) (ch : Chapter) (text : String) :
    Call State Err Unit := do
  completePayloadFailure H writer row.key (payloadFailureChapter ch text) fun s current =>
    stillWaiting s current row (.conflict "") (.conflict "")
  Call.check (.error (.payloadTooLarge text))

/-- `CompleteTaskIfWaiting`. -/
def completeTaskIfWaiting (writer : Nat) (req : CompleteTaskIfWaitingRequest) :
    Call State Err Unit := do
  Call.check req.route.validate
  Call.check (if req.route.taskType = "" then .error (.invalid "task route required") else .ok ())
  let row ← Call.query (·.loadJobRow req.jobKey)
  let now ← timeNow
  let tw ← Call.check (waitingTask row req now)
  let input ← inputChapter req.jobKey tw.inputOrdinal
  let now' ← timeNow
  let (body, artifacts) ← Call.check (H.taskOutput req tw row.payload.runPolicy input now')
  let stored ← Call.check (H.decodeChapter tw.outputOrdinal body artifacts)
  match H.validateOrdinaryChapter req.jobKey.tenantId row.metadata stored with
  | .ok () => commitTaskOutput H writer row tw body artifacts
  | .error (.payloadTooLarge text) => failWaitingPayload H writer row stored text
  | .error e => Call.check (.error e)

/-! ## Leases granted -/

/-- A submission: the story, its first chapter, the job. -/
structure SubmitRequest where
  job : Submission
  /-- The job whose chapters a restart keeps, and the last of them. -/
  base : Option (JobKey × Int) := none
  /-- The encoded first chapter, or the one a restart adds. -/
  initial : Option (String × List StoredArtifact) := none

/-- The first chapter of a new story. -/
def saveInitialChapter (writer : Nat) (req : SubmitRequest) : Call State Err Unit :=
  match req.initial with
  | some (body, artifacts) =>
    saveChapter writer req.job.key (req.base.elim 0 (·.2 + 1)) body artifacts
  | none => pure ()

/-- `SubmitJob`, `SubmitRestartJob`. -/
def submit (writer : Nat) (req : SubmitRequest) : Call State Err Unit := do
  Call.tx (createStoryTx req.job.key req.base)
  saveInitialChapter writer req
  let now ← timeNow
  Call.tx (insertJobTx req.job now)

/-- What `preflightScheduleLease` decides about a lease on a scheduled job. The
schedules are not part of the model, so the decision is arbitrary. -/
inductive Preflight where
  | start
  | submitNext (req : SubmitRequest)
  | cancel (detail message reasonCode : String)
  | fail (e : Err)

/-- The job under the lease is to end before a worker gets it. -/
def Preflight.cancels : Preflight → Bool
  | .cancel _ _ _ => true
  | _ => false

/-- `schedulePreflightCancelChapter`. -/
def schedulePreflightCancelChapter (taskType message reasonCode : String) (now : Time) :
    Chapter where
  ordinal := 1
  taskType := taskType
  createdAt := now
  body := .jobAttemptOutcome (.systemError message "jobdb.schedule_preflight" reasonCode false)

/-- `cancelScheduledLease`. -/
def cancelScheduledLease (writer : Nat) (lease : Lease) (detail message reasonCode : String) :
    Call State Err Unit := do
  let now ← timeNow
  complete H writer (some lease.expiresAt) lease.jobKey lease.leaseID lease.workerID
    { status := "cancelled", detail := detail,
      chapter := some (schedulePreflightCancelChapter lease.route.jobType message reasonCode now) }

/-- `preflightScheduleLease`: may the lease go to the worker? -/
def preflightScheduleLease (writer : Nat) (lease : Lease) : Preflight → Call State Err Bool
  | .start => pure true
  | .submitNext req => do
    submit writer req
    pure true
  | .cancel detail message reasonCode => do
    cancelScheduledLease H writer lease detail message reasonCode
    pure false
  | .fail e => Call.check (.error e)

/-- `pollOnce`; `decide n` is the preflight's decision on the lease acquired
with `n` attempts left. -/
def pollOnce (writer : Nat) (req : PollWorkRequest) (decide : Nat → Preflight) :
    Nat → List Lease → Call State Err (List Lease)
  | 0, out => pure out
  | budget + 1, out =>
    if (if req.limit ≤ 0 then 1 else req.limit) ≤ out.length then pure out
    else do
      match ← Call.tx (acquireOneLeaseTx H req) with
      | none => pure out
      | some lease => do
        let ok ← preflightScheduleLease H writer lease (decide budget)
        pollOnce writer req decide budget (if ok then out ++ [lease] else out)

/-- `attemptBudget`. -/
def attemptBudget (limit : Int) : Nat := max 8 (4 * (if limit ≤ 0 then 1 else limit).toNat)

/-- The polling loop of `PollWork`, which ends with the deadline of the request
or the caller's patience: any number of rounds. -/
def pollWork (writer : Nat) (req : PollWorkRequest) (decide : Nat → Nat → Preflight) :
    Nat → Call State Err (List Lease)
  | 0 => pure []
  | rounds + 1 => do
    let leases ← pollOnce H writer req (decide rounds) (attemptBudget req.limit) []
    if leases ≠ [] then pure leases else pollWork writer req decide rounds

/-- The leases `GetJobLease` hands out: none or one. -/
def getJobLease (writer : Nat) (req : GetJobLeaseRequest) (decision : Preflight) :
    Call State Err (List Lease) := do
  match ← Call.tx (getJobLeaseTx H req) with
  | none => pure []
  | some lease => do
    let ok ← preflightScheduleLease H writer lease decision
    pure (if ok then [lease] else [])

/-! ## What the calls are built from

A property that is closed under sequencing holds of a call if it holds of the call's
transactions. -/

section Closed

variable {H : Host} {i : Nat} {handle : Option Time} {key : JobKey} {leaseID workerID : String}
  {P : ∀ α : Type, Call State Err α → Prop} (hP : Call.Closed P)

include hP

theorem keepAlive_closed {duration : Int}
    (htx : ∀ expiry, P _ (Call.tx (keepAliveTx key leaseID workerID expiry))) :
    P _ (keepAlive handle key leaseID workerID duration) :=
  hP.bind (hP.query _) fun _ => hP.bind (hP.check _) fun _ => hP.bind (hP.query _) fun _ => htx _

theorem renew_closed {duration : Int}
    (htx : P _ (Call.tx (renewTx key leaseID workerID duration))) :
    P _ (renew handle key leaseID workerID duration) :=
  hP.bind (hP.query _) fun _ => hP.bind (hP.check _) fun _ => htx

theorem reschedule_closed {req : RescheduleExecutionRequest}
    (htx : ∀ task now, P _ (Call.tx (rescheduleTx H key leaseID workerID req task now))) :
    P _ (reschedule H handle key leaseID workerID req) := by
  refine hP.bind (hP.query _) fun _ => hP.bind (hP.check _) fun _ =>
    hP.bind (hP.check _) fun _ => ?_
  refine hP.bind (hP.check _) fun task => hP.bind (hP.check _) fun _ =>
    hP.bind (hP.check _) fun _ => ?_
  exact hP.bind (hP.query _) fun now => htx task now

theorem checkClientPayload_closed (u : Option ClientPayloadUpdate) :
    P _ (checkClientPayload H key leaseID workerID u) := by
  unfold checkClientPayload
  split
  · exact hP.bind (hP.query _) fun _ => hP.bind (hP.check _) fun _ => hP.pure _
  · exact hP.pure _

theorem completePayloadFailure_closed {ch : Chapter} {auth : State → JobRow → Except Err Unit}
    (htx : ∀ body, P _ (Call.tx (payloadFailureTx i key ch body auth))) :
    P _ (completePayloadFailure H i key ch auth) :=
  hP.bind (hP.check _) fun _ => hP.bind (hP.check _) fun _ => htx _

theorem complete_closed {req : CompleteExecutionRequest}
    (hfail : ∀ ch, P _ (completePayloadFailure H i key ch fun s row =>
      validateLeaseRow row leaseID workerID s.now))
    (hchapter : ∀ ch uploads, P _ (ensureCompletionChapter H i key leaseID workerID ch uploads))
    (hend : ∀ now, P _ (Call.tx (completeTx H key leaseID workerID req now))) :
    P _ (complete H i handle key leaseID workerID req) := by
  refine hP.bind (hP.query _) fun _ => hP.bind (hP.check _) fun _ =>
    hP.bind (hP.check _) fun _ => ?_
  refine hP.bind (checkClientPayload_closed hP _) fun _ => ?_
  cases req.chapter with
  | none => exact hP.check _
  | some ch =>
    dsimp only
    split
    · exact hP.bind (hP.check _) fun _ => hfail ch
    · exact hP.bind (hchapter ch _) fun _ => hP.bind (hP.query _) fun now => hend now

theorem saveChapter_closed
    (happend : ∀ ch : StoredChapter, ch.writer = i → P _ (Call.tx (appendTx key ch)))
    (ordinal : Int) (body : String) (artifacts : List StoredArtifact) :
    P _ (saveChapter i key ordinal body artifacts) :=
  hP.bind (hP.query _) fun _ => hP.bind (hP.check _) fun _ => happend _ rfl

theorem ensureCompletionChapter_closed
    (happend : ∀ ch : StoredChapter, ch.writer = i → P _ (Call.tx (appendTx key ch)))
    (ch : Chapter) (uploads : List ArtifactUpload) :
    P _ (ensureCompletionChapter H i key leaseID workerID ch uploads) := by
  refine hP.bind (hP.check _) fun _ => hP.bind (hP.query _) fun row =>
    hP.bind (hP.query _) fun found => ?_
  cases found with
  | some existing => exact hP.bind (hP.check _) fun _ => hP.bind (hP.check _) fun _ => hP.check _
  | none =>
    refine hP.bind (hP.query _) fun _ => hP.bind (hP.check _) fun _ =>
      hP.bind (hP.check _) fun _ => ?_
    exact hP.bind (hP.check _) fun _ => saveChapter_closed hP happend _ _ _

theorem submit_closed {req : SubmitRequest}
    (happend : ∀ ch : StoredChapter, ch.writer = i → P _ (Call.tx (appendTx req.job.key ch)))
    (hstory : P _ (Call.tx (createStoryTx req.job.key req.base)))
    (hinsert : ∀ now, P _ (Call.tx (insertJobTx req.job now))) : P _ (submit i req) := by
  refine hP.bind hstory fun _ => hP.bind ?_ fun _ => hP.bind (hP.query _) fun now => hinsert now
  unfold saveInitialChapter
  cases req.initial with
  | none => exact hP.pure _
  | some p => exact saveChapter_closed hP happend _ _ _

theorem preflightScheduleLease_closed (lease : Lease) {decision : Preflight}
    (hcomplete : decision.cancels = true →
      ∀ handle leaseID workerID (req : CompleteExecutionRequest),
      req.clientPayloadUpdate = none → P _ (complete H i handle lease.jobKey leaseID workerID req))
    (hsubmit : ∀ r, decision = .submitNext r → P _ (submit i r)) :
    P _ (preflightScheduleLease H i lease decision) := by
  cases decision with
  | start => exact hP.pure _
  | submitNext req => exact hP.bind (hsubmit req rfl) fun _ => hP.pure _
  | cancel detail message reasonCode =>
    refine hP.bind (hP.bind (hP.query _) fun _ => ?_) fun _ => hP.pure _
    exact hcomplete rfl _ _ _ _ rfl
  | fail e => exact hP.check _

theorem pollOnce_closed {req : PollWorkRequest} {decide : Nat → Preflight}
    (hcomplete : ∀ n, (decide n).cancels = true → ∀ handle key leaseID workerID
      (req : CompleteExecutionRequest), req.clientPayloadUpdate = none →
        P _ (complete H i handle key leaseID workerID req))
    (htake : P _ (Call.tx (acquireOneLeaseTx H req)))
    (hsubmit : ∀ n r, decide n = .submitNext r → P _ (submit i r)) (budget : Nat) :
    ∀ out, P _ (pollOnce H i req decide budget out) := by
  induction budget with
  | zero => exact fun out => hP.pure _
  | succ budget ih =>
    intro out
    unfold pollOnce
    by_cases hfull : (if req.limit ≤ 0 then 1 else req.limit) ≤ out.length
    · rw [if_pos hfull]
      exact hP.pure _
    · rw [if_neg hfull]
      refine hP.bind htake fun found => ?_
      cases found with
      | none => exact hP.pure _
      | some lease =>
        refine hP.bind (preflightScheduleLease_closed hP lease ?_ (hsubmit budget)) fun _ => ih _
        exact fun hcancels _ => hcomplete budget hcancels _ _

theorem pollWork_closed {req : PollWorkRequest} {decide : Nat → Nat → Preflight}
    (hcomplete : ∀ m n, (decide m n).cancels = true → ∀ handle key leaseID workerID
      (req : CompleteExecutionRequest), req.clientPayloadUpdate = none →
        P _ (complete H i handle key leaseID workerID req))
    (htake : P _ (Call.tx (acquireOneLeaseTx H req)))
    (hsubmit : ∀ m n r, decide m n = .submitNext r → P _ (submit i r)) (rounds : Nat) :
    P _ (pollWork H i req decide rounds) := by
  induction rounds with
  | zero => exact hP.pure _
  | succ rounds ih =>
    refine hP.bind (pollOnce_closed hP (hcomplete rounds) htake (hsubmit rounds) _ _) fun leases =>
      ?_
    split
    · exact hP.pure _
    · exact ih

theorem getJobLease_closed {req : GetJobLeaseRequest} {decision : Preflight}
    (hcomplete : decision.cancels = true → ∀ handle key leaseID workerID
      (req : CompleteExecutionRequest), req.clientPayloadUpdate = none →
        P _ (complete H i handle key leaseID workerID req))
    (htake : P _ (Call.tx (getJobLeaseTx H req)))
    (hsubmit : ∀ r, decision = .submitNext r → P _ (submit i r)) :
    P _ (getJobLease H i req decision) := by
  refine hP.bind htake fun found => ?_
  cases found with
  | none => exact hP.pure _
  | some lease =>
    refine hP.bind (preflightScheduleLease_closed hP lease ?_ hsubmit) fun _ => hP.pure _
    exact fun hcancels _ => hcomplete hcancels _ _

end Closed

/-! ## The system -/

/-- The calls of the runtime, with their arguments. -/
inductive Request where
  | submit (req : SubmitRequest)
  | pollWork (req : PollWorkRequest) (decide : Nat → Nat → Preflight) (rounds : Nat)
  | getJobLease (req : GetJobLeaseRequest) (decision : Preflight)
  | keepAlive (handle : Option Time) (key : JobKey) (leaseID workerID : String) (duration : Int)
  | renew (handle : Option Time) (key : JobKey) (leaseID workerID : String) (duration : Int)
  | reschedule (handle : Option Time) (key : JobKey) (leaseID workerID : String)
      (req : RescheduleExecutionRequest)
  | complete (handle : Option Time) (key : JobKey) (leaseID workerID : String)
      (req : CompleteExecutionRequest)
  | putChapter (claims : Option Claims) (req : PutChapterRequest)
  | completeTaskIfWaiting (req : CompleteTaskIfWaitingRequest)
  | cancelJob (key : JobKey) (reason : String)
  | deleteJobs (req : DeleteJobsRequest)
  | clearCrashConcern (key : JobKey)
  | addGoalCandidate (req : AddGoalCandidateRequest)
  | failGoal (req : FailGoalRequest)

/-- `CancelJob`. -/
def cancelJob (key : JobKey) (reason : String) : Call State Err Unit := do
  let now ← timeNow
  Call.tx (cancelTx key reason now)

/-- `AddGoalCandidate`. -/
def addGoalCandidate (req : AddGoalCandidateRequest) : Call State Err Unit :=
  Call.tx do
    let now ← clock
    let _ ← Engine.add goalStore now req

/-- `FailGoal`. -/
def failGoal (req : FailGoalRequest) : Call State Err Unit :=
  Call.tx do
    let now ← clock
    let _ ← Engine.fail goalStore now req

/-- A call that hands out no lease. -/
def noLease (x : Call State Err Unit) : Call State Err (List Lease) := do
  x
  pure []

/-- The process of a call; its answer holds the leases it hands out. -/
def body (writer : Nat) : Request → Call State Err (List Lease)
  | .submit req => noLease (submit writer req)
  | .pollWork req decide rounds => pollWork H writer req decide rounds
  | .getJobLease req decision => getJobLease H writer req decision
  | .keepAlive handle key leaseID workerID duration =>
    noLease (keepAlive handle key leaseID workerID duration)
  | .renew handle key leaseID workerID duration =>
    noLease (renew handle key leaseID workerID duration)
  | .reschedule handle key leaseID workerID req =>
    noLease (reschedule H handle key leaseID workerID req)
  | .complete handle key leaseID workerID req =>
    noLease (complete H writer handle key leaseID workerID req)
  | .putChapter claims req => noLease (putChapter H writer claims req)
  | .completeTaskIfWaiting req => noLease (completeTaskIfWaiting H writer req)
  | .cancelJob key reason => noLease (cancelJob key reason)
  | .deleteJobs req => noLease (Call.tx (deleteTx req))
  | .clearCrashConcern key => noLease (Call.tx (clearCrashConcernTx key))
  | .addGoalCandidate req => noLease (addGoalCandidate req)
  | .failGoal req => noLease (failGoal req)

/-- The clock moves on. -/
def Tick (s s' : State) : Prop := ∃ t, s.now ≤ t ∧ s' = { s with now := t }

/-- The clock moves on by an amount. -/
def advance (d : Nat) (s : State) : State := { s with now := s.now + d }

theorem tick_advance (d : Nat) (s : State) : Tick s (advance d s) :=
  ⟨s.now + d, Int.le_add_of_nonneg_right (Int.natCast_nonneg d), rfl⟩

/-- The runtime: calls are made at any time, and the clock moves on. -/
def system : System State Request (Except Err (List Lease)) where
  body := body H
  allowed _ _ := True
  env := Tick

/-- The calls that were made, and the state. -/
abbrev Calls := Pool State Request (Except Err (List Lease))

end JobDB.Sqlite
