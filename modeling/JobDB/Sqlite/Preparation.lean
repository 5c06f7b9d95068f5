import JobDB.Cell.Names
import JobDB.Lib.Crash
import JobDB.Runtime.Submit
import JobDB.Schedule.Control
import JobDB.Sqlite.Effects

/-!
# Preparation and publication in the SQLite runtime

A submission is spread over stores that are written one after the other. A transaction reserves
the job's identity and its goal (`PrepareJob`, a row of `jobdb_goal_preparations`); then the chapter
store gets the story and its first chapter; and a last transaction publishes the job and its goal
together (`insertJobRecord`). A submission that fails takes its preparation back
(`DiscardJobPreparation`).

* `Db`: the scheduler's tables with the cells, the schedules and the preparations.
* `prepareCell`: the cell of a submission, which is resolved when it is prepared and again when it
  is published (`cells.go`).
* `prepareJobTx`, `insertJobRecordTx`, `discardTx`: the transactions (`goals.go`, `scheduler.go`).
* `submission`: the steps that `SubmitJob` and `SubmitRestartJob` share (`runtime.go`,
  `reconcile.go`). What the two do differently is an `Intake`: the preparation they ask for, the
  plan they make of the job, and how they compare it with a story that exists.

Reads that follow one another are one step here: the statements are about processes that stop, not
about processes that meet.
-/

namespace JobDB

namespace Sqlite

/-- The database with the cells, the schedules and the preparations. -/
structure Db where
  state : State
  control : Control := {}
  preparations : Table JobKey PreparedJob := ∅
  /-- The primary key of `jobdb_cells`. -/
  keyed : ∀ tenant, (control.cells tenant).Keyed

namespace Db

/-- The jobs and the stories. -/
def sched (d : Db) : Sched := d.state.sched

/-- A transaction on the scheduler's tables. -/
def onState {α : Type} (m : Tx State Err α) : Tx Db Err α :=
  Tx.zoom (fun d => d.state) (fun d s => { d with state := s }) m

/-- The preparation that was made under a request ID. -/
def byRequest (d : Db) (tenant requestID : String) : Option PreparedJob :=
  (d.preparations.rows.find? fun r =>
    r.1.tenantId = tenant && r.2.request.requestID = requestID).map (·.2)

/-- The preparation that a request finds: under its request ID, if it has one. -/
def stored (d : Db) (req : Preparation) : Option PreparedJob :=
  if req.requestID = "" then d.preparations.lookup req.key
  else d.byRequest req.key.tenantId req.requestID

end Db

/-! ## The cell of a submission -/

section Cells

variable (L : CellLib)

/-- The lease that the caller says it holds is the row's, and it is in force. -/
def holdsLease (p : LeaseProof) (row : JobRow) (now : Time) : Bool :=
  p.leaseID ≠ "" && p.workerID ≠ "" && row.leaseID.getD "" = p.leaseID &&
    row.leaseWorkerID.getD "" = p.workerID && row.leaseExpiresAtNS.any (timeToNS now < ·) &&
    row.archivedAtNS.isNone && !row.cancelRequested

/-- `cellParent`: the cell of the job whose lease the caller holds. -/
def cellParent (ctx : Ctx) (tenant : String) (d : Db) : Except Err (Option Cell) :=
  match ctx.lease with
  | none => .ok none
  | some p =>
    if p.jobKey.tenantId ≠ tenant then .error errCellForbidden
    else
      match d.sched.job p.jobKey with
      | none => .error .executionLeaseLost
      | some row =>
        match (d.control.cells tenant).cells.lookup row.cell.cellID with
        | none => .error .executionLeaseLost
        | some c =>
          if holdsLease p row d.state.now = true ∧ c.state = .active then .ok (some c)
          else .error .executionLeaseLost

/-- The cell of the schedule that submits, which has to be bound to the repository named. -/
def scheduleParent (ctx : Ctx) (req : Preparation) (d : Db) : Except Err (Option Cell) :=
  match ctx.schedule with
  | none => .ok none
  | some key =>
    if key.tenantId ≠ req.key.tenantId then .error errCellForbidden
    else
      match d.control.schedules.lookup key with
      | none => .error errCellNotFound
      | some info =>
        if info.state = .archived then .error errCellNotFound
        else
          match (d.control.cells req.key.tenantId).cells.lookup info.target.cellID with
          | none => .error errCellNotFound
          | some c =>
            if c.repo ≠ info.target.cellRepo ∨ req.cellRepo ≠ info.target.cellRepo then
              .error errCellRepoMismatch
            else .ok (some c)

/-- The cell the job has already, or that the job it restarts has; and whether it is the job's
own. -/
def existingCell (req : Preparation) (d : Db) : Except Err (Option ResolvedCell × Bool) :=
  match if req.key.jobId = "" then none else d.sched.job req.key with
  | some row => .ok (some row.cell, true)
  | none =>
    if req.priorJobID = "" then .ok (none, false)
    else
      match d.sched.job ⟨req.key.tenantId, req.priorJobID⟩ with
      | none => .error .jobNotFound
      | some row => .ok (some row.cell, false)

/-- `prepareCell`. -/
def prepareCell (ctx : Ctx) (req : Preparation) (d : Db) : Except Err ResolvedCell := do
  let scheduled ← scheduleParent ctx req d
  let parent ← cellParent ctx req.key.tenantId d
  let existing ← existingCell req d
  (d.control.cells req.key.tenantId).resolve L ctx req.key.tenantId req.cell req.cellRepo
    (scheduled.or parent) existing.1 existing.2

/-- The cell a preparation has reserved is still what its name and its repository say. -/
def confirmCell (reserved target : ResolvedCell) : Except Err ResolvedCell :=
  if target.cellID ≠ reserved.cellID then .error (.existingJobMismatch "cell identity differs")
  else if target.cellRepo ≠ reserved.cellRepo then .error errCellRepoMismatch
  else .ok target

/-- `publishCell`, for the preparation it finds. -/
def publishCell (ctx : Ctx) (key : JobKey) (p : PreparedJob) (d : Db) :
    Except Err ResolvedCell := do
  let target ← prepareCell L ctx { p.request with key := key } d
  confirmCell p.request.target target

end Cells

/-! ## Preparing -/

section Prepare

variable (L : CellLib) (H : Host)

/-- A request ID that was used before names the job. -/
def adoptDestination (req : Preparation) (d : Db) : Except Err Preparation :=
  if req.requestID = "" then .ok req
  else
    match d.byRequest req.key.tenantId req.requestID with
    | none => .ok req
    | some p =>
      if req.key.jobId ≠ "" ∧ req.key.jobId ≠ p.request.key.jobId then
        .error (.existingJobMismatch "destination differs")
      else .ok { req with key := ⟨req.key.tenantId, p.request.key.jobId⟩ }

/-- A preparation that exists, against the request. -/
def confirmPreparation (req : Preparation) (target : ResolvedCell) (p : PreparedJob) (d : Db) :
    Except Err Prepared :=
  if p.request.target.cellRepo ≠ target.cellRepo ∨ p.request.target.cellID ≠ target.cellID then
    .error (.existingJobMismatch "cell differs")
  else if p.request.descriptor ≠ req.descriptor ∨
      (req.key.jobId ≠ "" ∧ p.request.key.jobId ≠ req.key.jobId) then
    .error (preparationMismatch p.request.descriptor req.descriptor)
  else
    .ok { target := target
          key := ⟨req.key.tenantId, p.request.key.jobId⟩
          goalID := p.goalID
          published := (d.sched.job ⟨req.key.tenantId, p.request.key.jobId⟩).isSome }

/-- The goal of the job that is restarted, which has to be open. -/
def sharedGoal (req : Preparation) (d : Db) : Except Err String :=
  match d.sched.job ⟨req.key.tenantId, req.priorJobID⟩ with
  | none => .error .jobNotFound
  | some row => do
    let g ← goalStore.goal d.state ⟨req.key.tenantId, row.goalID⟩
    if g.state = .open then .ok row.goalID else .error .goalConflict

/-- The goal that a preparation reserves: a new one, or that of the job it restarts. -/
def reservedGoal (req : Preparation) (fresh : String) (d : Db) : Except Err String :=
  if req.shareGoal then sharedGoal req d else .ok fresh

/-- With a request ID of its own, a request does not take a job that another has reserved. -/
def checkDestination (req : Preparation) (key : JobKey) (d : Db) : Except Err Unit :=
  if req.requestID ≠ "" ∧ (d.preparations.lookup key).isSome then
    .error (.existingJobMismatch "destination belongs to a different operation")
  else .ok ()

/-- Draw an ID. -/
def drawID : Tx Db Err String := fun d =>
  .ok (H.ksuid d.state.drawn, { d with state := { d.state with drawn := d.state.drawn + 1 } })

/-- The job's ID: the one asked for, or a new one. -/
def destinationID (req : Preparation) : Tx Db Err String :=
  if req.key.jobId = "" then drawID H else pure req.key.jobId

/-- `PrepareJob` where nothing is reserved yet. -/
def reserve (req : Preparation) (target : ResolvedCell) : Tx Db Err Prepared := do
  let jobID ← destinationID H req
  Tx.read fun _ => JobKey.validate ⟨req.key.tenantId, jobID⟩
  Tx.read (checkDestination req ⟨req.key.tenantId, jobID⟩)
  let fresh ← drawID H
  let goalID ← Tx.read (reservedGoal req fresh)
  Tx.write fun d => .ok { d with
    preparations := d.preparations.insert ⟨req.key.tenantId, jobID⟩
      ⟨{ req with key := ⟨req.key.tenantId, jobID⟩, target := target }, goalID⟩ }
  pure { target := target, key := ⟨req.key.tenantId, jobID⟩, goalID := goalID }

/-- `PrepareJob` where a preparation may be found. -/
def prepareWith (req : Preparation) (target : ResolvedCell) :
    Option PreparedJob → Tx Db Err Prepared
  | some p => Tx.read (confirmPreparation req target p)
  | none => reserve H req target

/-- `PrepareJob`. -/
def prepareJobTx (ctx : Ctx) (req : Preparation) : Tx Db Err Prepared := do
  let req ← Tx.read (adoptDestination req)
  let target ← Tx.read (prepareCell L ctx req)
  let found ← Tx.read fun d => .ok (d.stored req)
  prepareWith H req target found

end Prepare

/-! ## Publishing -/

/-- What the request makes of the job's row. -/
structure JobFields where
  jobType : String
  metadata : String := ""
  parentJobID : Option String := none
  waitFor : List String := []
  runPolicy : RunPolicy := {}
  availableAt : Option Time := none
  clientPayloadUpdate : Option ClientPayloadUpdate := none

/-- What client payloads need beyond `Host`. -/
structure PayloadLib where
  /-- `clientpayload.Digest`. -/
  digest : Option String → Except Err String
  /-- `jsonObjectsEqual`. -/
  sameMetadata : String → String → Bool

/-- A library that takes every text as it is. -/
def PayloadLib.plain : PayloadLib where
  digest value := .ok (value.getD "")
  sameMetadata a b := a = b

section Publish

variable (L : CellLib) (H : Host) (D : PayloadLib)

/-- The submission of a prepared job. -/
def JobFields.submission (f : JobFields) (key : JobKey) (payload : Option String × Int)
    (digest : String) (target : ResolvedCell) (p : PreparedJob) : Submission where
  key := key
  jobType := f.jobType
  metadata := f.metadata
  parentJobID := f.parentJobID
  waitFor := f.waitFor
  runPolicy := f.runPolicy
  availableAt := f.availableAt
  clientPayload := payload.1
  clientPayloadRevision := payload.2
  initialPayloadDigest := digest
  cell := target
  goalID := p.goalID
  shareGoal := p.request.shareGoal
  dependencies := p.request.dependencies

/-- The preparation that a publication needs. -/
def findPreparation (key : JobKey) (d : Db) : Except Err PreparedJob :=
  match d.preparations.lookup key with
  | none => .error (.store "sql: no rows in result set")
  | some p => .ok p

/-- The transaction of `insertJobRecord`. -/
def insertJobRecordTx (ctx : Ctx) (key : JobKey) (f : JobFields) (payload : Option String × Int)
    (digest : String) (now : Time) : Tx Db Err Unit := do
  Tx.read fun d => if (d.sched.job key).isSome then .error (.conflict "") else .ok ()
  let p ← Tx.read (findPreparation key)
  let target ← Tx.read (publishCell L ctx key p)
  Db.onState (insertJobTx (f.submission key payload digest target p) now)

/-- `insertJobRecord`. -/
def insertJobRecord (ctx : Ctx) (key : JobKey) (f : JobFields) : Call Db Err Unit := do
  let payload ← Call.check (H.initialPayload f.clientPayloadUpdate)
  let digest ← Call.check (D.digest payload.1)
  let now ← Call.query fun d => .ok d.state.now
  Call.tx (insertJobRecordTx L ctx key f payload digest now)

/-- The row of a job, against the job that was to be inserted; `same` is `jsonObjectsEqual`. -/
def compareRow (same : String → String → Bool) (key : JobKey) (f : JobFields) (digest : String)
    (row : JobRow) : Except Err Unit := do
  let job := "job " ++ key.text ++ " already exists with "
  demand (.existingJobMismatch "initial client payload differs")
    (row.initialPayloadDigest = digest)
  demand (.existingJobMismatch (job ++ "different metadata")) (same row.metadata f.metadata = true)
  demand (.existingJobMismatch (job ++ "different availableAt"))
    (f.availableAt.all (timeFromNS row.availableAtNS = ·) = true)

/-- The row that is found after an insertion has failed. -/
def confirmRow (key : JobKey) (f : JobFields) (insertErr : Err) (row : Option JobRow) :
    Except Err Unit :=
  match row with
  | none => .error insertErr
  | some row => do
    let payload ← H.initialPayload f.clientPayloadUpdate
    let digest ← D.digest payload.1
    compareRow D.sameMetadata key f digest row

/-- `ensureSubmittedJobRecord`. -/
def ensureSubmittedJobRecord (ctx : Ctx) (key : JobKey) (f : JobFields) : Call Db Err Unit :=
  (insertJobRecord L H D ctx key f).recover fun insertErr =>
    Call.query fun d => confirmRow H D key f insertErr (d.sched.job key)

/-- `goalHandle`: the cell under its present name. -/
def goalHandle (key : JobKey) (d : Db) : Except Err JobHandle :=
  match d.sched.job key with
  | none => .error .jobNotFound
  | some row =>
    match (d.control.cells key.tenantId).cells.lookup row.cell.cellID with
    | none => .error (.store "sql: no rows in result set")
    | some c => .ok ({ row.cell with cell := c.name }.handle key row.goalID)

/-- `DiscardJobPreparation`. -/
def discardTx (key : JobKey) : Tx Db Err Unit :=
  Tx.write fun d =>
    .ok (if (d.sched.job key).isSome then d
      else { d with preparations := d.preparations.erase key })

/-- The deferred function of a submission: one that fails takes its preparation back. -/
def discardOnError {α : Type} (key : JobKey) (x : Call Db Err α) : Call Db Err α :=
  x.recover fun e => do
    Call.tx (discardTx key)
    Call.check (.error e)

end Publish

/-! ## Submissions -/

/-- What a submission comes to: the story, its first chapter, and the job. -/
structure Plan where
  /-- The job whose chapters are linked, and the last of them. -/
  base : Option (JobKey × Int) := none
  ordinal : Int := 0
  /-- The encoded chapter behind them, if there is one. -/
  chapter : Option (String × List StoredArtifact) := none
  job : JobFields

/-- What `SubmitJob` and `SubmitRestartJob` do differently. -/
structure Intake where
  /-- The checks before the preparation, and the preparation. -/
  preparation : Except Err Preparation
  /-- What is read and checked between the preparation and the first write to the chapter store. -/
  plan : JobKey → Db → Except Err Plan
  /-- A story that exists, against the plan. -/
  compare : JobKey → Plan → Db → Story → Except Err Unit

section Submission

variable (L : CellLib) (H : Host) (D : PayloadLib)

/-- The chapter behind the linked ones. -/
def appendFirst (writer : Nat) (key : JobKey) (p : Plan) : Call Db Err Unit :=
  match p.chapter with
  | none => pure ()
  | some (body, artifacts) => do
    Call.check (if body = "" then .error (.invalid "chapterstore: chapter body missing")
      else .ok ())
    Call.tx (Db.onState (appendTx key ⟨p.ordinal, body, artifacts, writer⟩))

/-- `CreateStory` and `CloneStory`. -/
def createStory (writer : Nat) (key : JobKey) (p : Plan) : Call Db Err Unit := do
  Call.tx (Db.onState (createStoryTx key p.base))
  appendFirst writer key p

/-- `core.ErrConflict`. -/
def Err.isConflict : Err → Bool
  | .conflict _ => true
  | _ => false

/-- `reconcileExistingSubmitJob` and `reconcileExistingRestartJob` up to the job's row; `e` is the
conflict that led there. -/
def reconcileStory (compare : JobKey → Plan → Db → Story → Except Err Unit) (key : JobKey)
    (p : Plan) (e : Err) (d : Db) : Except Err Unit :=
  match d.sched.story key with
  | some st => compare key p d st
  | none =>
    if (d.sched.job key).isSome then
      .error (.existingJobMismatch
        "job already exists in scheduler without a matching chapter story")
    else .error e

/-- The story is there: written just now, or before and the same. -/
def ensureStory (writer : Nat) (q : Intake) (key : JobKey) (p : Plan) : Call Db Err Unit :=
  (createStory writer key p).recover fun e =>
    if Err.isConflict e then Call.query (reconcileStory q.compare key p e)
      else Call.check (.error e)

/-- A submission from its preparation on. -/
def submitPrepared (ctx : Ctx) (writer : Nat) (q : Intake) (r : Prepared) : Call Db Err JobHandle :=
  if r.published then pure (r.target.handle r.key r.goalID)
  else do
    let p ← Call.query (q.plan r.key)
    ensureStory writer q r.key p
    ensureSubmittedJobRecord L H D ctx r.key p.job
    Call.query (goalHandle r.key)

/-- `submitJobWithParent` and `submitRestartJobWithParent`. -/
def submission (ctx : Ctx) (writer : Nat) (q : Intake) : Call Db Err JobHandle := do
  let req ← Call.check q.preparation
  let r ← Call.tx (prepareJobTx L H ctx req)
  discardOnError r.key (submitPrepared L H D ctx writer q r)

end Submission

/-! ## What is published

Preparing a job and taking its preparation back leave everything alone that is published. -/

/-- Nothing differs but the preparations and the count of the IDs drawn. -/
structure Db.SamePublished (d d' : Db) : Prop where
  state : ∃ n, d'.state = { d.state with drawn := n }
  control : d'.control = d.control

namespace Db.SamePublished

variable {d d' : Db}

theorem refl (d : Db) : d.SamePublished d := ⟨⟨d.state.drawn, rfl⟩, rfl⟩

theorem trans (d₁ d₂ d₃ : Db) (h : d₁.SamePublished d₂) (h' : d₂.SamePublished d₃) :
    d₁.SamePublished d₃ := by
  obtain ⟨⟨n, hn⟩, hc⟩ := h
  obtain ⟨⟨n', hn'⟩, hc'⟩ := h'
  refine ⟨⟨n', ?_⟩, hc'.trans hc⟩
  rw [hn', hn]

instance : IsPreorder Db Db.SamePublished where
  refl := refl
  trans := trans

theorem job (h : d.SamePublished d') : d'.sched.job = d.sched.job := by
  obtain ⟨n, hn⟩ := h.state
  unfold Db.sched
  rw [hn]
  rfl

theorem story (h : d.SamePublished d') : d'.sched.story = d.sched.story := by
  obtain ⟨n, hn⟩ := h.state
  unfold Db.sched
  rw [hn]
  rfl

theorem now (h : d.SamePublished d') : d'.sched.now = d.sched.now := by
  obtain ⟨n, hn⟩ := h.state
  unfold Db.sched
  rw [hn]
  rfl

end Db.SamePublished

section Reservations

variable {L : CellLib} {H : Host} {ctx : Ctx} {req : Preparation} {r : Prepared} {d d' : Db}

theorem discardTx_samePublished {key : JobKey} : Tx.Within Db.SamePublished (discardTx key) := by
  refine .write fun d d' h => ?_
  obtain rfl := Except.ok.inj h
  split <;> exact ⟨⟨d.state.drawn, rfl⟩, rfl⟩

end Reservations

end Sqlite

end JobDB
