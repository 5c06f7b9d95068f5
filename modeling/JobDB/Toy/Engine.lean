import JobDB.Goal.Frame
import JobDB.Lib.Crash
import JobDB.Runtime.Submit
import JobDB.Schedule.Control
import JobDB.Toy.ListJobs

/-!
# The in-process engine

The maps of `ToyEngine` (`toyimpl/toy.go`), and what a submission does with them before and after
its chapters are written (`toyimpl/goals.go`, `toyimpl/cells.go`).

* `goalStore`: the goal engine's store. The facts about a job are read off its record
  (`goalJob`), so the engine sees a record that was put in just before.
* `prepareJobTx`, `publishGoalTx`, `discardTx`: `PrepareJob`, `publishGoalLocked` and
  `DiscardJobPreparation`.

A section of the source that holds the engine's mutex is one transaction here.
`publishGoalLocked` works on a copy of the goals and puts it in place at the end, and its caller
takes the record out again if it fails: that is what a failed transaction leaves behind.
-/

namespace JobDB.Toy

/-- `runtimeArtifactKey`. -/
structure ArtifactKey where
  jobKey : JobKey
  ordinal : Int
  name : String
deriving DecidableEq, Repr

/-- `ToyEngine`, with the clock and the source of IDs. -/
structure ToyEngine where
  jobs : Jobs := {}
  schedules : Table ScheduleKey ScheduleInfo := ∅
  preparedGoals : Table JobKey PreparedJob := ∅
  goalRequests : Table GoalKey JobKey := ∅
  runtimeChapters : Table JobKey (Table Int Chapter) := ∅
  runtimeArtifacts : Table ArtifactKey String := ∅
  now : Time
  drawn : Nat := 0

/-! ## The goals -/

/-- `goalJob`. -/
def goalJob (k : JobKey) (r : JobRecord) : Job where
  key := k
  goalID := r.goalID
  terminal := r.archived.isSome || r.cancelled
  success := r.archived.isSome &&
    (r.completionStatus = "success" || r.completionStatus = "succeeded")
  createdAt := r.createdAt

namespace Jobs

/-- The goals with the facts that `initGoalsLocked` lets them read off the records. -/
def facts (e : Jobs) : Memory := { e.goals with jobs := e.jobRecords.mapValues goalJob }

/-- The goals as a write has left them. -/
def setGoals (e : Jobs) (m : Memory) : Jobs := { e with goals := m }

end Jobs

/-- The store of `goalstate.Engine`. -/
def goalStore : Store Jobs where
  job e k := e.facts.lookupJob k
  goal e k := e.goals.goal k
  saveGoal g e := (e.goals.saveGoal g).map e.setGoals
  candidates e k := e.facts.candidates k
  goals e k := e.facts.goals k
  candidate e k id := e.facts.candidate k id
  insertCandidate k id t e := (e.goals.insertCandidate k id t).map e.setGoals
  wait e k := e.goals.wait k
  saveWait w e := (e.goals.saveWait w).map e.setGoals
  consumerWaits e k := e.goals.consumerWaits k
  targetWaits e tenant t := e.goals.targetWaits tenant t
  size e := e.facts.targets.length

/-- The goals may have changed; the records and the cells are the same. -/
def Jobs.SameRecords (e e' : Jobs) : Prop := e'.jobRecords = e.jobRecords ∧ e'.cells = e.cells

theorem Jobs.SameRecords.of_setGoals {e e' : Jobs} {r : Except Err Memory}
    (h : r.map e.setGoals = .ok e') : e.SameRecords e' := by
  cases r with
  | error err => cases h
  | ok m =>
    obtain rfl : e.setGoals m = e' := Except.ok.inj h
    exact ⟨rfl, rfl⟩

instance : IsPreorder Jobs Jobs.SameRecords where
  refl _ := ⟨rfl, rfl⟩
  trans _ _ _ h h' := ⟨h'.1.trans h.1, h'.2.trans h.2⟩

/-- The goal engine writes the goals only. -/
theorem goalStore_writes : goalStore.Writes Jobs.SameRecords where
  saveGoal {g e _} h := .of_setGoals (r := e.goals.saveGoal g) h
  insertCandidate {k id t e _} h := .of_setGoals (r := e.goals.insertCandidate k id t) h
  saveWait {w e _} h := .of_setGoals (r := e.goals.saveWait w) h

namespace ToyEngine

/-- A transaction on the records and the goals. -/
def onJobs {α : Type} (m : Tx Jobs Err α) : Tx ToyEngine Err α :=
  Tx.zoom (fun e => e.jobs) (fun e jobs => { e with jobs := jobs }) m

/-- `getJobRecord`. -/
def record (e : ToyEngine) (k : JobKey) : Option JobRecord := e.jobs.jobRecords.lookup k

end ToyEngine

/-! ## The cell of a submission -/

section Cells

variable (L : CellLib)

/-- The lease that the caller says it holds is the record's, and it is in force. -/
def holdsLease (p : LeaseProof) (r : JobRecord) (now : Time) : Bool :=
  p.leaseID ≠ "" && p.workerID ≠ "" && r.leaseID = p.leaseID && r.leaseWorkerID = p.workerID &&
    r.leased && decide (now < r.leaseExpiresAt) && !r.cancelled && r.archived.isNone

/-- `cellParentLocked`. -/
def cellParent (ctx : Ctx) (tenant : String) (e : ToyEngine) : Except Err (Option Cell) :=
  match ctx.lease with
  | none => .ok none
  | some p =>
    if p.jobKey.tenantId ≠ tenant then .error errCellForbidden
    else
      match e.record p.jobKey with
      | none => .error .executionLeaseLost
      | some r =>
        match (e.jobs.cells tenant).cells.lookup r.cell.cellID with
        | none => .error .executionLeaseLost
        | some c =>
          if holdsLease p r e.now = true ∧ c.state = .active then .ok (some c)
          else .error .executionLeaseLost

/-- The cell of the schedule that submits, which has to be bound to the repository named. -/
def scheduleParent (ctx : Ctx) (req : Preparation) (e : ToyEngine) : Except Err (Option Cell) :=
  match ctx.schedule with
  | none => .ok none
  | some key =>
    if key.tenantId ≠ req.key.tenantId then .error errCellForbidden
    else
      match e.schedules.lookup key with
      | none => .error errCellNotFound
      | some info =>
        if info.state = .archived then .error errCellNotFound
        else
          match (e.jobs.cells key.tenantId).cells.lookup info.target.cellID with
          | none => .error errCellNotFound
          | some c =>
            if c.repo ≠ info.target.cellRepo ∨ req.cellRepo ≠ info.target.cellRepo then
              .error errCellRepoMismatch
            else .ok (some c)

/-- The cell the job has already, or that the job it restarts has; and whether it is the job's
own. -/
def existingCell (req : Preparation) (e : ToyEngine) : Except Err (Option ResolvedCell × Bool) :=
  match (e.record req.key).filter (·.cell.cellID ≠ "") with
  | some r => .ok (some r.cell, true)
  | none =>
    if req.priorJobID = "" then .ok (none, false)
    else
      match e.record ⟨req.key.tenantId, req.priorJobID⟩ with
      | none => .error .jobNotFound
      | some r => .ok (some r.cell, false)

/-- `prepareCellLocked`. -/
def prepareCell (ctx : Ctx) (req : Preparation) (e : ToyEngine) : Except Err ResolvedCell := do
  let scheduled ← scheduleParent ctx req e
  let parent ← cellParent ctx req.key.tenantId e
  let existing ← existingCell req e
  (e.jobs.cells req.key.tenantId).resolve L ctx req.key.tenantId req.cell req.cellRepo
    (scheduled.or parent) existing.1 existing.2

/-- `publishCellLocked`, for the preparation it finds. -/
def publishCell (ctx : Ctx) (p : PreparedJob) (e : ToyEngine) : Except Err ResolvedCell := do
  let target ← prepareCell L ctx p.request e
  if target.cellID ≠ p.request.target.cellID then
    .error (.existingJobMismatch "cell identity differs")
  else if target.cellRepo ≠ p.request.target.cellRepo then .error errCellRepoMismatch
  else .ok target

end Cells

/-! ## Preparing -/

section Prepare

variable (L : CellLib) (H : Host)

/-- A request ID that was used before names the job. -/
def adoptDestination (req : Preparation) (e : ToyEngine) : Except Err Preparation :=
  if req.requestID = "" then .ok req
  else
    match e.goalRequests.lookup ⟨req.key.tenantId, req.requestID⟩ with
    | none => .ok req
    | some key =>
      if req.key.jobId ≠ "" ∧ req.key ≠ key then .error (.existingJobMismatch "destination differs")
      else .ok { req with key := key }

/-- A preparation that exists, against the request. -/
def confirmPreparation (req : Preparation) (target : ResolvedCell) (old : PreparedJob)
    (e : ToyEngine) : Except Err Prepared :=
  if old.request.target.cellRepo ≠ target.cellRepo ∨ old.request.target.cellID ≠ target.cellID then
    .error (.existingJobMismatch "cell differs")
  else if old.request.descriptor ≠ req.descriptor ∨ old.request.requestID ≠ req.requestID then
    .error (preparationMismatch old.request.descriptor req.descriptor)
  else
    .ok { target := target, key := req.key, goalID := old.goalID,
          published := (e.record req.key).isSome }

/-- Draw an ID. -/
def drawID : Tx ToyEngine Err String := fun e =>
  .ok (H.ksuid e.drawn, { e with drawn := e.drawn + 1 })

/-- The job's ID: the one asked for, or a new one. -/
def destinationID (req : Preparation) : Tx ToyEngine Err String :=
  if req.key.jobId = "" then drawID H else pure req.key.jobId

/-- The goal of the job that is restarted, which has to be open. -/
def sharedGoal (req : Preparation) (e : ToyEngine) : Except Err String :=
  match e.record ⟨req.key.tenantId, req.priorJobID⟩ with
  | none => .error .jobNotFound
  | some r => do
    let g ← goalStore.goal e.jobs ⟨req.key.tenantId, r.goalID⟩
    if g.state = .open then .ok r.goalID else .error .goalConflict

/-- The preparation is stored, also under its request ID. -/
def storePrepared (p : PreparedJob) (e : ToyEngine) : ToyEngine :=
  { e with
    preparedGoals := e.preparedGoals.insert p.request.key p
    goalRequests := if p.request.requestID = "" then e.goalRequests
      else e.goalRequests.insert ⟨p.request.key.tenantId, p.request.requestID⟩ p.request.key }

/-- `PrepareJob` where nothing is reserved yet. -/
def reserve (req : Preparation) (target : ResolvedCell) : Tx ToyEngine Err Prepared := do
  let jobID ← destinationID H req
  Tx.read fun _ => JobKey.validate ⟨req.key.tenantId, jobID⟩
  let fresh ← drawID H
  let goalID ← Tx.read fun e => if req.shareGoal then sharedGoal req e else .ok fresh
  Tx.write fun e => .ok (storePrepared
    ⟨{ req with key := ⟨req.key.tenantId, jobID⟩, target := target }, goalID⟩ e)
  pure { target := target, key := ⟨req.key.tenantId, jobID⟩, goalID := goalID }

/-- `PrepareJob` where a preparation may be found. -/
def prepareWith (req : Preparation) (target : ResolvedCell) :
    Option PreparedJob → Tx ToyEngine Err Prepared
  | some old => Tx.read (confirmPreparation req target old)
  | none => reserve H req target

/-- `PrepareJob`. -/
def prepareJobTx (ctx : Ctx) (req : Preparation) : Tx ToyEngine Err Prepared := do
  let req ← Tx.read (adoptDestination req)
  let target ← Tx.read (prepareCell L ctx req)
  let found ← Tx.read fun e => .ok (e.preparedGoals.lookup req.key)
  prepareWith H req target found

/-- `DiscardJobPreparation`. -/
def discardTx (key : JobKey) : Tx ToyEngine Err Unit :=
  Tx.write fun e => .ok
    (if (e.record key).isSome then e
    else
      match e.preparedGoals.lookup key with
      | none => e
      | some p =>
        { e with
          preparedGoals := e.preparedGoals.erase key
          goalRequests := if p.request.requestID = "" then e.goalRequests
            else e.goalRequests.erase ⟨key.tenantId, p.request.requestID⟩ })

/-- The deferred function of a submission: one that fails takes its preparation back. -/
def discardOnError {α : Type} (key : JobKey) (x : Call ToyEngine Err α) : Call ToyEngine Err α :=
  x.recover fun e => do
    Call.tx (discardTx key)
    Call.check (.error e)

end Prepare

/-! ## Publishing -/

section Publish

variable (L : CellLib)

/-- The goal of a job that is published: a new one, or one that is open. -/
def publishedGoal (key : JobKey) (p : PreparedJob) (r : JobRecord) : Tx Jobs Err Unit :=
  if p.request.shareGoal then do
    let g ← Tx.read (goalStore.goal · ⟨key.tenantId, p.goalID⟩)
    Tx.require .goalConflict (g.state = .open)
  else Tx.write (goalStore.saveGoal
    { cell := r.cell.cell, cellID := r.cell.cellID, cellRepo := r.cell.cellRepo,
      goalKey := ⟨key.tenantId, p.goalID⟩, state := .open, revision := 1,
      createdAt := r.createdAt, updatedAt := r.createdAt })

/-- The submission wait, which the record then names. -/
def registerSubmission (now : Time) (key : JobKey) (p : PreparedJob) (r : JobRecord) :
    Tx Jobs Err JobRecord :=
  if p.request.dependencies = [] then pure r
  else do
    let _ ← Engine.register goalStore now key
      { waitID := "submission", dependencies := p.request.dependencies } true
    pure { r with dependencyWaitID := "submission" }

/-- Put a record in place. -/
def putRecord (key : JobKey) (r : JobRecord) : Tx Jobs Err Unit :=
  Tx.write fun e => .ok { e with jobRecords := e.jobRecords.insert key r }

/-- `publishGoalLocked` from the cell on; the record is in place while the goals are worked on. -/
def publishRecord (now : Time) (key : JobKey) (p : PreparedJob) (r : JobRecord) :
    Tx Jobs Err JobRecord := do
  putRecord key r
  publishedGoal key p r
  let r ← registerSubmission now key p r
  Engine.checkCycle goalStore now key.tenantId { goalID := p.goalID }
  putRecord key r
  pure r

/-- `publishGoalLocked`. -/
def publishGoalTx (ctx : Ctx) (key : JobKey) (r : JobRecord) : Tx ToyEngine Err JobRecord := do
  let p ← Tx.read fun e =>
    match e.preparedGoals.lookup key with
    | none => .error errInvalidCell
    | some p => .ok p
  let target ← Tx.read (publishCell L ctx p)
  let now ← Tx.read fun e => .ok e.now
  ToyEngine.onJobs (publishRecord now key p { r with cell := target, goalID := p.goalID })

end Publish

/-! ## What these transactions leave alone -/

section Frame

variable {L : CellLib} {H : Host} {ctx : Ctx}

/-- Preparations come and go; the jobs, the schedules, the chapters and the artifacts stay. -/
structure ToyEngine.SameJobs (e e' : ToyEngine) : Prop where
  jobs : e'.jobs = e.jobs
  schedules : e'.schedules = e.schedules
  chapters : e'.runtimeChapters = e.runtimeChapters
  artifacts : e'.runtimeArtifacts = e.runtimeArtifacts
  now : e'.now = e.now

instance : IsPreorder ToyEngine ToyEngine.SameJobs where
  refl _ := ⟨rfl, rfl, rfl, rfl, rfl⟩
  trans _ _ _ h h' :=
    ⟨h'.jobs.trans h.jobs, h'.schedules.trans h.schedules, h'.chapters.trans h.chapters,
      h'.artifacts.trans h.artifacts, h'.now.trans h.now⟩

theorem drawID_sameJobs : Tx.Within ToyEngine.SameJobs (drawID H) := by
  intro e id e' h
  obtain ⟨-, rfl⟩ := Prod.mk.inj (Except.ok.inj h)
  exact ⟨rfl, rfl, rfl, rfl, rfl⟩

theorem reserve_sameJobs (req : Preparation) (target : ResolvedCell) :
    Tx.Within ToyEngine.SameJobs (reserve H req target) := by
  have hid : Tx.Within ToyEngine.SameJobs (destinationID H req) := by
    unfold destinationID
    split
    · exact drawID_sameJobs
    · exact .pure _
  refine .bind hid fun jobID => .bind (.read _) fun _ => .bind drawID_sameJobs fun fresh => ?_
  refine .bind (.read _) fun goalID => .bind (.write ?_) fun _ => .pure _
  intro e e' h
  obtain rfl := Except.ok.inj h
  exact ⟨rfl, rfl, rfl, rfl, rfl⟩

theorem prepareJobTx_sameJobs (req : Preparation) :
    Tx.Within ToyEngine.SameJobs (prepareJobTx L H ctx req) := by
  refine .bind (.read _) fun req => .bind (.read _) fun target => .bind (.read _) fun found => ?_
  cases found with
  | some old => exact .read _
  | none => exact reserve_sameJobs req target

end Frame

/-- What publishing a job comes to: its record is put in, and the goals may have changed. -/
structure Published (key : JobKey) (e e' : ToyEngine) (r : JobRecord) : Prop where
  records : e'.jobs.jobRecords = e.jobs.jobRecords.insert key r
  cells : e'.jobs.cells = e.jobs.cells
  schedules : e'.schedules = e.schedules
  prepared : e'.preparedGoals = e.preparedGoals
  chapters : e'.runtimeChapters = e.runtimeChapters
  artifacts : e'.runtimeArtifacts = e.runtimeArtifacts
  now : e'.now = e.now

section PublishSpec

variable {L : CellLib} {ctx : Ctx} {key : JobKey} {p : PreparedJob} {r r' : JobRecord}

theorem publishedGoal_within (key : JobKey) (p : PreparedJob) (r : JobRecord) :
    Tx.Within Jobs.SameRecords (publishedGoal key p r) := by
  unfold publishedGoal
  split
  · exact .bind (.read _) fun g => .require _ _
  · exact .write fun _ _ => goalStore_writes.saveGoal

/-- The record that a submission is published with: its wait apart, the one it brought. -/
def JobRecord.SameButWait (r r' : JobRecord) : Prop :=
  ∃ waitID, r' = { r with dependencyWaitID := waitID }

theorem registerSubmission_spec {now : Time} {e e' : Jobs}
    (h : registerSubmission now key p r e = .ok (r', e')) :
    e.SameRecords e' ∧ r.SameButWait r' := by
  unfold registerSubmission at h
  split at h
  · obtain ⟨rfl, rfl⟩ := Tx.pure_eq_ok.1 h
    exact ⟨⟨rfl, rfl⟩, _, rfl⟩
  · obtain ⟨w, hregister, rfl⟩ := Tx.bind_pure_eq_ok.1 h
    exact ⟨Engine.register_within goalStore_writes now key _ true hregister, _, rfl⟩

theorem publishRecord_spec {now : Time} {e e' : Jobs}
    (h : publishRecord now key p r e = .ok (r', e')) :
    e'.jobRecords = e.jobRecords.insert key r' ∧ e'.cells = e.cells ∧ r.SameButWait r' := by
  obtain ⟨_, e₁, hput, h⟩ := Tx.bind_eq_ok.1 h
  obtain ⟨_, e₂, hgoal, h⟩ := Tx.bind_eq_ok.1 h
  obtain ⟨r₁, e₃, hregister, h⟩ := Tx.bind_eq_ok.1 h
  obtain ⟨_, e₄, hcycle, h⟩ := Tx.bind_eq_ok.1 h
  obtain ⟨_, hput', rfl⟩ := Tx.bind_pure_eq_ok.1 h
  have hrecords₁ : e₁ = { e with jobRecords := e.jobRecords.insert key r } :=
    (Except.ok.inj (Tx.write_eq_ok.1 hput)).symm
  have hrecords₅ : e' = { e₄ with jobRecords := e₄.jobRecords.insert key r' } :=
    (Except.ok.inj (Tx.write_eq_ok.1 hput')).symm
  have hsame₂ := publishedGoal_within key p r hgoal
  obtain ⟨hsame₃, hwait⟩ := registerSubmission_spec hregister
  have hsame₄ : e₃.SameRecords e₄ := Engine.checkCycle_within now _ _ hcycle
  refine ⟨?_, ?_, hwait⟩
  · rw [hrecords₅, hsame₄.1, hsame₃.1, hsame₂.1, hrecords₁]
    exact AList.insert_insert _
  · rw [hrecords₅, hsame₄.2, hsame₃.2, hsame₂.2, hrecords₁]

/-- **Publication.** -/
theorem publishGoalTx_spec {e e' : ToyEngine} (h : publishGoalTx L ctx key r e = .ok (r', e')) :
    Published key e e' r' := by
  obtain ⟨p, -, h⟩ := Tx.read_bind_eq_ok.1 h
  obtain ⟨target, -, h⟩ := Tx.read_bind_eq_ok.1 h
  obtain ⟨now, -, h⟩ := Tx.read_bind_eq_ok.1 h
  obtain ⟨jobs, hpublish, rfl⟩ := Tx.zoom_eq_ok.1 h
  obtain ⟨hrecords, hcells, -⟩ := publishRecord_spec hpublish
  exact ⟨hrecords, hcells, rfl, rfl, rfl, rfl, rfl⟩

end PublishSpec

end JobDB.Toy
