import JobDB.Cell.Registry
import JobDB.Schedule.Preflight

/-!
# The control of schedules

The operations on schedules and on the cells they are bound to (`sqlite/schedule.go`,
`sqlite/cells.go`, `toyimpl/schedule.go`, `toyimpl/cells.go`, `core/runtime_schedule.go`).

Every change of a schedule through its own operations raises its generation. A change of
a cell's repository pauses the active schedules that are bound to the cell, which leaves
their generation as it is and records the reason in `pauseReason`.

The core runtime leaves cells and schedules to a scheduler service; the service is taken
to keep them as the other runtimes do.
-/

namespace JobDB

/-- The cells and the schedules of a runtime. -/
structure Control where
  cells : String → Registry := fun _ => {}
  schedules : Table ScheduleKey ScheduleInfo := ∅

/-! ## Cells -/

namespace Control

variable (L : CellLib)

def setCells (s : Control) (tenant : String) (r : Registry) : Control :=
  { s with cells := Function.update s.cells tenant r }

/-- An operation on the registry of a tenant. -/
def onCells (tenant : String) (op : Registry → Except Err (Cell × Registry)) :
    Tx Control Err Cell :=
  fun s => do
    let r ← op (s.cells tenant)
    .ok (r.1, s.setCells tenant r.2)

/-- `CreateCell`. -/
def createCell (ctx : Ctx) (now : Time) (id revision : String) (req : CreateCellRequest) :
    Tx Control Err Cell :=
  onCells req.tenantID (Registry.create L ctx now id revision req)

/-- `CreateCellWithLease`, once the lease is checked. -/
def createCellWithLease (ctx : Ctx) (now : Time) (id revision : String) (proof : LeaseProof)
    (req : CreateCellRequest) : Tx Control Err Cell :=
  onCells proof.jobKey.tenantId (Registry.createWithLease L ctx now id revision proof req)

/-- A schedule that is paused because its cell has another repository now. -/
def repoPaused (info : ScheduleInfo) : ScheduleInfo :=
  { info with state := .paused, pauseReason := "cell_repo_mismatch" }

/-- `UPDATE jobdb_schedules SET state='PAUSED', pause_reason='cell_repo_mismatch' WHERE …`. -/
def pauseBound (tenant cellID : String) (schedules : Table ScheduleKey ScheduleInfo) :
    Table ScheduleKey ScheduleInfo :=
  schedules.mapValues fun k info =>
    if k.tenantId = tenant ∧ info.state = .active ∧ info.target.cellID = cellID then repoPaused info
    else info

/-- The cell had another repository. -/
def repoChanged (s : Control) (tenant cellID : String) (c : Cell) : Bool :=
  ((s.cells tenant).cells.lookup cellID).any (·.repo ≠ c.repo)

/-- `UpdateCell`. -/
def updateCell (ctx : Ctx) (now : Time) (revision : String) (req : UpdateCellRequest) :
    Tx Control Err Cell := fun s => do
  let r ← Registry.update L ctx now revision req (s.cells req.key.tenantID)
  .ok (r.1,
    { s.setCells req.key.tenantID r.2 with
      schedules :=
        if s.repoChanged req.key.tenantID req.key.cellID r.1 then
          pauseBound req.key.tenantID req.key.cellID s.schedules
        else s.schedules })

/-- `RetireCell`; `busy` is what the runtime says about the cell. -/
def retireCell (ctx : Ctx) (now : Time) (revision : String) (busy : String → Except Err Bool)
    (req : RetireCellRequest) : Tx Control Err Cell :=
  onCells req.key.tenantID (Registry.retire L ctx now revision busy req)

end Control

/-! ## Upserts -/

/-- The target with the cell it is bound to. -/
def ScheduleTarget.bindTo (t : ScheduleTarget) (c : ResolvedCell) : ScheduleTarget :=
  { t with cell := c.cell, cellID := c.cellID, cellRepo := c.cellRepo }

/-- An archived schedule stays as it is, and the caller has seen the latest generation. -/
def checkUpsert (existing : Option ScheduleInfo) (expectedGeneration : Option Int) :
    Except Err Unit :=
  if existing.any (·.state = .archived) then
    .error (.conflict "archived schedule cannot be updated")
  else if expectedGeneration.any fun g => existing.all (·.generation ≠ g) then
    .error (.conflict "schedule generation mismatch")
  else .ok ()

/-- The generation after the present one, the first if there is none. -/
def nextGeneration (existing : Option ScheduleInfo) : Int :=
  (existing.map (·.generation + 1)).getD 1

/-- The row that an upsert stores; `shown` is the next fire time it shows. -/
def upsertedRow (req : UpsertScheduleRequest) (target : ScheduleTarget) (specHash : String)
    (next shown : Option Time) (now : Time) (existing : Option ScheduleInfo) : ScheduleInfo where
  key := req.key
  state := if req.paused then .paused else .active
  generation := nextGeneration existing
  specHash := specHash
  trigger := req.trigger
  target := target
  overlapPolicy := normalizeScheduleOverlapPolicy req.overlapPolicy
  failurePolicy := req.failurePolicy
  nextFireAt := shown
  nextJobID :=
    if req.paused then none
      else next.map (scheduleRunJobID req.scheduleId (nextGeneration existing))
  createdAt := (existing.map (·.createdAt)).getD now
  updatedAt := now

section Upsert

variable (L : CellLib) (B : ScheduleLib)

/-- The cell that a target names, which has to be there. -/
def resolveTarget (ctx : Ctx) (cells : Registry) (req : UpsertScheduleRequest) :
    Except Err ResolvedCell :=
  match cells.byName req.target.cell with
  | none => .error errCellNotFound
  | some _ => cells.resolve L ctx req.tenantId req.target.cell req.target.cellRepo none none false

/-- `UpsertSchedule` of the SQLite and the toy runtime, up to the row it stores; `shown` is what
becomes of the next fire time. -/
def upsertWith (shown : Option Time → Option Time) (ctx : Ctx) (cells : Registry)
    (existing : Option ScheduleInfo) (req : UpsertScheduleRequest) (clock : Time) :
    Except Err ScheduleInfo := do
  validateScheduleRequest B req
  B.validatePayload req.target.jobType req.target.data
  let target ← snapshotScheduleTarget B req.target
  let _ ← scheduleSpecHash B req.trigger target req.overlapPolicy req.failurePolicy
  let next ← initialScheduleFire B req.trigger (requestTimeOr req.requestTime clock)
  let cell ← resolveTarget L ctx cells req
  let specHash ←
    scheduleSpecHash B req.trigger (target.bindTo cell) req.overlapPolicy req.failurePolicy
  checkUpsert existing req.expectedGeneration
  .ok (upsertedRow req (target.bindTo cell) specHash next (shown next)
    (requestTimeOr req.requestTime clock) existing)

/-- `UpsertSchedule` of the SQLite runtime: a paused schedule shows no fire time. -/
def Sqlite.upsertRow (ctx : Ctx) (cells : Registry) (existing : Option ScheduleInfo)
    (req : UpsertScheduleRequest) (clock : Time) : Except Err ScheduleInfo :=
  upsertWith L B (fun next => if req.paused then none else next) ctx cells existing req clock

/-- `UpsertSchedule` of the toy runtime: every schedule shows its fire time. -/
def Toy.upsertRow (ctx : Ctx) (cells : Registry) (existing : Option ScheduleInfo)
    (req : UpsertScheduleRequest) (clock : Time) : Except Err ScheduleInfo :=
  upsertWith L B id ctx cells existing req clock

/-- `scheduleRequestTime`. -/
def Core.scheduleRequestTime (requestTime clock : Time) : Time :=
  truncate 1000 (requestTimeOr requestTime clock)

/-- `UpsertSchedule` of the core runtime, which looks for the cell first. -/
def Core.upsertRow (ctx : Ctx) (cells : Registry) (existing : Option ScheduleInfo)
    (req : UpsertScheduleRequest) (clock : Time) : Except Err ScheduleInfo := do
  validateScheduleRequest B req
  B.validatePayload req.target.jobType req.target.data
  let cell ← cells.resolve L ctx req.tenantId req.target.cell req.target.cellRepo none none false
  let target ← snapshotScheduleTarget B (req.target.bindTo cell)
  let specHash ← scheduleSpecHash B req.trigger target req.overlapPolicy req.failurePolicy
  let now := Core.scheduleRequestTime req.requestTime clock
  let next ← initialScheduleFire B req.trigger now
  checkUpsert existing req.expectedGeneration
  .ok (upsertedRow req target specHash next (if req.paused then none else next) now existing)

/-- The row that an upsert stores. -/
def Backend.upsertRow : Backend → Ctx → Registry → Option ScheduleInfo → UpsertScheduleRequest →
    Time → Except Err ScheduleInfo
  | .core => Core.upsertRow L B
  | .sqlite => Sqlite.upsertRow L B
  | .toy => Toy.upsertRow L B

end Upsert

/-! ## Pause, resume and archive -/

/-- The row with a new state; an active schedule shows when it fires next. -/
def mutatedRow (info : ScheduleInfo) (state : ScheduleState) (next : Option Time) (now : Time) :
    ScheduleInfo :=
  { info with
    state := state
    generation := info.generation + 1
    updatedAt := now
    nextFireAt := if state = .active then next else none
    nextJobID :=
      if state = .active then next.map (scheduleRunJobID info.key.scheduleId (info.generation + 1))
      else none }

def checkGeneration (info : ScheduleInfo) (expectedGeneration : Option Int) : Except Err Unit :=
  if expectedGeneration.any (info.generation ≠ ·) then
    .error (.conflict "schedule generation mismatch")
  else .ok ()

def checkNotArchived (info : ScheduleInfo) (state : ScheduleState) : Except Err Unit :=
  if info.state = .archived ∧ state ≠ .archived then
    .error (.conflict "archived schedule cannot change state")
  else .ok ()

/-- A schedule is resumed only in the cell and the repository it is bound to. -/
def checkResume (ctx : Ctx) (cells : Registry) (info : ScheduleInfo) : Except Err Unit :=
  match cells.cells.lookup info.target.cellID with
  | none => .error errCellNotFound
  | some c =>
    if c.state ≠ .active then .error errCellRetired
    else if c.repo ≠ info.target.cellRepo then .error errCellRepoMismatch
    else authorizeCell ctx info.key.tenantId c.id "jobs.submit"

/-- The row whose state is to change; the reason of a pause goes with a resume. -/
def prepareMutation (ctx : Ctx) (cells : Registry) (info : ScheduleInfo) (state : ScheduleState) :
    Except Err ScheduleInfo :=
  if state = .active then do
    checkResume ctx cells info
    .ok { info with pauseReason := "" }
  else .ok info

/-- A schedule that has to be there. -/
def loadSchedule (existing : Option ScheduleInfo) : Except Err ScheduleInfo :=
  match existing with
  | none => .error .jobNotFound
  | some info => .ok info

section Mutate

variable (L : CellLib) (B : ScheduleLib)

/-- `mutateScheduleState` of the SQLite runtime, up to the row it stores. -/
def Sqlite.mutatedRow (ctx : Ctx) (cells : Registry) (existing : Option ScheduleInfo)
    (req : ScheduleMutationRequest) (state : ScheduleState) (clock : Time) :
    Except Err ScheduleInfo := do
  req.key.validate
  let info ← loadSchedule existing
  checkGeneration info req.expectedGeneration
  checkNotArchived info state
  let info ← prepareMutation ctx cells info state
  let next ← initialScheduleFire B info.trigger (requestTimeOr req.requestTime clock)
  .ok (JobDB.mutatedRow info state next (requestTimeOr req.requestTime clock))

/-- `mutateScheduleState` of the toy runtime up to the clearing of the pause reason. -/
def Toy.preparedRow (ctx : Ctx) (cells : Registry) (existing : Option ScheduleInfo)
    (req : ScheduleMutationRequest) (state : ScheduleState) : Except Err ScheduleInfo := do
  let info ← loadSchedule existing
  checkGeneration info req.expectedGeneration
  checkNotArchived info state
  prepareMutation ctx cells info state

/-- `mutateScheduleState` of the toy runtime from there on. -/
def Toy.mutatedRow (info : ScheduleInfo) (req : ScheduleMutationRequest) (state : ScheduleState)
    (clock : Time) : Except Err ScheduleInfo := do
  let next ← initialScheduleFire B info.trigger (requestTimeOr req.requestTime clock)
  .ok (JobDB.mutatedRow info state next (requestTimeOr req.requestTime clock))

/-- The cell and the next fire time of a schedule that the core runtime resumes. -/
def Core.resume (ctx : Ctx) (cells : Registry) (info : ScheduleInfo) (now : Time) :
    Except Err (Option Time) := do
  let cell ←
    cells.resolve L ctx info.key.tenantId info.target.cell info.target.cellRepo none none false
  if cell.cellID ≠ info.target.cellID then .error errCellRepoMismatch
  else initialScheduleFire B info.trigger now

/-- `mutateSchedule` of the core runtime, up to the row the scheduler stores. -/
def Core.mutatedRow (ctx : Ctx) (cells : Registry) (existing : Option ScheduleInfo)
    (req : ScheduleMutationRequest) (state : ScheduleState) (clock : Time) :
    Except Err ScheduleInfo := do
  req.key.validate
  let info ← loadSchedule existing
  checkNotArchived info state
  checkGeneration info req.expectedGeneration
  let now := Core.scheduleRequestTime req.requestTime clock
  if state = .active then do
    let next ← Core.resume L B ctx cells info now
    .ok (JobDB.mutatedRow { info with pauseReason := "" } state next now)
  else .ok (JobDB.mutatedRow info state none now)

end Mutate

/-! ## The operations on the store -/

namespace Control

variable (L : CellLib) (B : ScheduleLib)

def setSchedule (s : Control) (k : ScheduleKey) (info : ScheduleInfo) : Control :=
  { s with schedules := s.schedules.insert k info }

/-- `UpsertSchedule`. -/
def upsertSchedule (b : Backend) (ctx : Ctx) (clock : Time) (req : UpsertScheduleRequest) :
    Tx Control Err ScheduleInfo := fun s => do
  let info ← b.upsertRow L B ctx (s.cells req.tenantId) (s.schedules.lookup req.key) req clock
  .ok (info, s.setSchedule req.key info)

/-- `mutateScheduleState` of the SQLite runtime. -/
def mutateSqlite (ctx : Ctx) (clock : Time) (req : ScheduleMutationRequest)
    (state : ScheduleState) : Tx Control Err ScheduleInfo := fun s => do
  let info ← Sqlite.mutatedRow B ctx (s.cells req.key.tenantId) (s.schedules.lookup req.key) req
    state clock
  .ok (info, s.setSchedule req.key info)

/-- `mutateSchedule` of the core runtime. -/
def mutateCore (ctx : Ctx) (clock : Time) (req : ScheduleMutationRequest)
    (state : ScheduleState) : Tx Control Err ScheduleInfo := fun s => do
  let info ← Core.mutatedRow L B ctx (s.cells req.key.tenantId) (s.schedules.lookup req.key) req
    state clock
  .ok (info, s.setSchedule req.key info)

/-- `mutateScheduleState` of the toy runtime. It has no rollback: the pause reason is gone even
if the trigger then turns out not to fire. -/
def mutateToy (ctx : Ctx) (clock : Time) (req : ScheduleMutationRequest) (state : ScheduleState)
    (s : Control) : Except Err ScheduleInfo × Control :=
  match Toy.preparedRow ctx (s.cells req.key.tenantId) (s.schedules.lookup req.key) req state with
  | .error e => (.error e, s)
  | .ok prepared =>
    match Toy.mutatedRow B prepared req state clock with
    | .error e => (.error e, s.setSchedule req.key prepared)
    | .ok info => (.ok info, s.setSchedule req.key info)

/-- `PauseSchedule`, `ResumeSchedule` and `ArchiveSchedule`. -/
def mutateSchedule (b : Backend) (ctx : Ctx) (clock : Time) (req : ScheduleMutationRequest)
    (state : ScheduleState) (s : Control) : Except Err ScheduleInfo × Control :=
  match b with
  | .core => Tx.commit (mutateCore L B ctx clock req state) s
  | .sqlite => Tx.commit (mutateSqlite B ctx clock req state) s
  | .toy => mutateToy B ctx clock req state s

end Control

/-! ## The occurrences the operations submit -/

/-- The occurrence that an upsert or a resume submits once the row is stored. -/
def Backend.firstOccurrence (b : Backend) (info : ScheduleInfo) : Option ScheduledJob :=
  if info.state = .active then
    match info.nextFireAt, info.nextJobID with
    | some t, some jobID => some (b.variant.occurrenceWithJobID info jobID t "" "" false)
    | _, _ => none
  else none

/-- The occurrence that `TriggerSchedule` submits. -/
def Backend.manualOccurrence (b : Backend) (existing : Option ScheduleInfo)
    (req : TriggerScheduleRequest) (clock : Time) : Except Err ScheduledJob := do
  let info ← loadSchedule existing
  if info.state = .archived then .error (.conflict "archived schedule cannot be triggered")
  else
    .ok (b.variant.occurrenceWithJobID info
      (scheduleManualJobID info.key.scheduleId req.requestID clock)
      (requestTimeOr req.requestTime clock) "" "" true)

end JobDB
