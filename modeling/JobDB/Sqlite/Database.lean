import JobDB.Cell.Types
import JobDB.Goal.Memory
import JobDB.Lib.Log
import JobDB.Runtime.Types

/-!
# The SQLite runtime's database

The tables of `pkg/jobdb/runtime/sqlite/schema.go` that the scheduler, the goal
store and the chapter store work on, and the questions asked of a single row
(`scheduler.go`, `lease.go`).

`State` is what all calls share: the tables, the clock and the ID source. The
payload column holds the record itself rather than its bytes: the encoding is
deterministic and loses nothing, so equal bytes are equal records.

`grants` is not in the source. It records every lease that was ever granted, in
order, so that one can speak of the lease IDs issued for a job.
-/

namespace JobDB.Sqlite

/-! ## Times in columns -/

/-- `UnixNano`, which wraps around where the instant does not fit. -/
def unixNano (t : Time) : Int := Int.bmod t (2 ^ 64)

/-- `timeToNS`. -/
def timeToNS (t : Time) : Int := if t = Time.zero then 0 else unixNano t

/-- `timeFromNS`. -/
def timeFromNS (ns : Int) : Time := if ns = 0 then Time.zero else ns

/-! ## Rows -/

/-- `jobRow`, with the column `hidden_at_ns`. -/
structure JobRow where
  cell : ResolvedCell
  goalID : String
  dependencyWaitID : String := ""
  clientPayload : Option String := none
  clientPayloadRevision : Int := 0
  initialPayloadDigest : String := ""
  tenantID : String
  jobID : String
  jobType : String
  nextRoute : Route
  payload : JobPayload := {}
  metadata : String := ""
  parentJobID : Option String := none
  waitFor : List String := []
  availableAtNS : Int
  waitDeadlineNS : Option Int := none
  createdAtNS : Int
  updatedAtNS : Int
  archivedAtNS : Option Int := none
  cancelRequested : Bool := false
  completionStatus : Option String := none
  completionDetail : Option String := none
  leaseID : Option String := none
  leaseWorkerID : Option String := none
  leaseExpiresAtNS : Option Int := none
  alternateRoute : Option Route := none
  alternateAtNS : Option Int := none
  consecutiveExpirations : Int := 0
  hiddenAtNS : Option Int := none
deriving DecidableEq, Repr

def JobRow.key (r : JobRow) : JobKey := ⟨r.tenantID, r.jobID⟩

/-- A row of `jobdb_goals`: the cell columns are kept from the first insert. -/
structure GoalRow where
  payload : GoalInfo
  cellID : String
  cell : String
  cellRepo : String
deriving DecidableEq, Repr

/-- A row of `jobdb_dependency_waits`. -/
structure WaitRow where
  state : DependencyState
  payload : DependencyWaitInfo
deriving DecidableEq, Repr

/-- The key of `jobdb_dependency_targets`; `target_kind` and `target_id` are a
node of the dependency graph. -/
structure TargetKey where
  wait : DependencyWaitKey
  target : Node
deriving DecidableEq, Repr

/-- A row of `jobdb_chapter_stories` with its visible chapters. -/
structure Story where
  chapters : List StoredChapter := []
  deleted : Bool := false
  finalized : Bool := false
deriving DecidableEq, Repr

namespace Story

/-- `chapter_count`. -/
def chapterCount (st : Story) : Int := st.chapters.length

/-- `latest_ordinal`. -/
def latestOrdinal (st : Story) : Int := st.chapterCount - 1

/-- The chapter at an ordinal. -/
def chapter? (st : Story) (ordinal : Int) : Option StoredChapter :=
  entryAt StoredChapter.ordinal st.chapters ordinal

end Story

/-- A lease granted for a job. When `claimWaitingTask` granted it, `claim` is the
task wait that it ended; no worker is given the ID of such a lease. -/
structure Grant where
  key : JobKey
  leaseID : String
  workerID : String
  route : Route
  claim : Option TaskWait := none
deriving DecidableEq, Repr

/-- What the calls of the runtime share. -/
structure State where
  jobs : Table JobKey JobRow := ∅
  goals : Table GoalKey GoalRow := ∅
  candidates : Table CandidateKey Int := ∅
  waits : Table DependencyWaitKey WaitRow := ∅
  targets : List TargetKey := []
  stories : Table JobKey Story := ∅
  now : Time
  /-- How many IDs the source has given. -/
  drawn : Nat := 0
  grants : List Grant := []

namespace State

/-- `loadJobRow`. -/
def loadJobRow (s : State) (k : JobKey) : Except Err JobRow :=
  match s.jobs.lookup k with
  | some r => .ok r
  | none => .error .jobNotFound

/-- `UPDATE jobdb_jobs SET … WHERE tenant_id = ? AND job_id = ?`. -/
def updateJob (s : State) (k : JobKey) (f : JobRow → JobRow) : State :=
  match s.jobs.lookup k with
  | some r => { s with jobs := s.jobs.insert k (f r) }
  | none => s

end State

/-- The content of the state apart from the goal store's tables. -/
structure Sched where
  job : JobKey → Option JobRow
  story : JobKey → Option Story
  now : Time
  drawn : Nat
  grants : List Grant

namespace Sched

def setJob (v : Sched) (k : JobKey) (r : JobRow) : Sched :=
  { v with job := Function.update v.job k (some r) }

def setStory (v : Sched) (k : JobKey) (st : Story) : Sched :=
  { v with story := Function.update v.story k (some st) }

/-- A lease is recorded as granted under the next ID. -/
def record (v : Sched) (g : Grant) : Sched :=
  { v with drawn := v.drawn + 1, grants := v.grants ++ [g] }

section Fields

variable (v : Sched) (k k' : JobKey) (r : JobRow) (st : Story) (g : Grant)

@[simp] theorem setJob_job : (v.setJob k r).job k' = if k' = k then some r else v.job k' :=
  Function.update_apply ..
@[simp] theorem setJob_now : (v.setJob k r).now = v.now := rfl
@[simp] theorem setJob_grants : (v.setJob k r).grants = v.grants := rfl
@[simp] theorem setStory_story :
    (v.setStory k st).story k' = if k' = k then some st else v.story k' := Function.update_apply ..
@[simp] theorem record_job : (v.record g).job = v.job := rfl
@[simp] theorem record_grants : (v.record g).grants = v.grants ++ [g] := rfl

/-- The chapter logs. -/
def logs : Logs JobKey StoredChapter := fun k => (v.story k).map (·.chapters)

@[simp] theorem setJob_logs : (v.setJob k r).logs = v.logs := rfl
@[simp] theorem record_logs : (v.record g).logs = v.logs := rfl

theorem setStory_logs : (v.setStory k st).logs = Function.update v.logs k (some st.chapters) := by
  unfold logs
  funext k'
  rw [setStory_story, Function.update_apply]
  split <;> rfl

variable {v k st} in
theorem logs_of_story (h : v.story k = some st) : v.logs k = some st.chapters := by
  unfold logs
  rw [h]
  rfl

/-- Of two writes to a row the second stays. -/
theorem setJob_setJob (r' : JobRow) : (v.setJob k r).setJob k r' = v.setJob k r' := by
  unfold setJob
  simp

theorem setJob_self (h : v.job k = some r) : v.setJob k r = v := by
  unfold setJob
  rw [← h, Function.update_eq_self]

end Fields

end Sched

namespace State

def sched (s : State) : Sched where
  job k := s.jobs.lookup k
  story k := s.stories.lookup k
  now := s.now
  drawn := s.drawn
  grants := s.grants

theorem loadJobRow_eq_ok {s : State} {k : JobKey} {r : JobRow} :
    s.loadJobRow k = .ok r ↔ s.sched.job k = some r := by
  unfold loadJobRow sched
  split <;> simp_all

theorem sched_updateJob {s : State} {k : JobKey} {r : JobRow} (h : s.sched.job k = some r)
    (f : JobRow → JobRow) : (s.updateJob k f).sched = s.sched.setJob k (f r) := by
  have hl : s.jobs.lookup k = some r := h
  unfold updateJob
  rw [hl]
  unfold sched Sched.setJob
  congr 1
  funext k'
  rw [Table.lookup_insert_eq, Function.update_apply]

@[simp] theorem updateJob_drawn (s : State) (k : JobKey) (f : JobRow → JobRow) :
    (s.updateJob k f).drawn = s.drawn := by
  unfold updateJob
  split <;> rfl

@[simp] theorem updateJob_grants (s : State) (k : JobKey) (f : JobRow → JobRow) :
    (s.updateJob k f).grants = s.grants := by
  unfold updateJob
  split <;> rfl

theorem sched_updateJob_none {s : State} {k : JobKey} (h : s.sched.job k = none)
    (f : JobRow → JobRow) : (s.updateJob k f).sched = s.sched := by
  have hl : s.jobs.lookup k = none := h
  unfold updateJob
  rw [hl]

end State

/-! ## What a row says -/

/-- `validateLeaseRow`. -/
def validateLeaseRow (row : JobRow) (leaseID workerID : String) (now : Time) : Except Err Unit :=
  if row.archivedAtNS.isSome ∨ row.cancelRequested then .error .executionLeaseLost
  else if row.leaseID = none ∨ row.leaseID = some "" ∨ row.leaseID ≠ some leaseID then
    .error .executionLeaseLost
  else if workerID ≠ "" ∧ row.leaseWorkerID ≠ some workerID then .error .executionLeaseLost
  else if row.leaseExpiresAtNS.all (fun ns => timeFromNS ns ≤ now) then .error .executionLeaseLost
  else .ok ()

/-- `leaseDurationOrDefault`, with `defaultRemoteLeaseDuration`. -/
def leaseDurationOrDefault (d : Int) : Int := if d ≤ 0 then 30 * 1000000000 else d

/-- `effectiveNextRoute`. -/
def effectiveNextRoute (row : JobRow) (now : Time) : Route × Bool :=
  match row.alternateRoute, row.alternateAtNS with
  | some route, some ns => if timeFromNS ns ≤ now then (route, true) else (row.nextRoute, false)
  | _, _ => (row.nextRoute, false)

/-- `JobStatus`, as far as `statusFromRow` gives it. -/
inductive JobStatus where
  | ready
  | pendingJobs
  | awaitingFuture
  | active
  | crashConcern
  | cancelled
  | completed
deriving DecidableEq, Repr

/-- `crashconcern.DefaultThreshold`. -/
def crashConcernThreshold : Int := 5

/-- `structuredWaitReady`. -/
def structuredWaitReady (s : State) (row : JobRow) (now : Time) : Except Err Bool :=
  if row.dependencyWaitID = "" then .ok true
  else
    match s.waits.lookup ⟨row.key, row.dependencyWaitID⟩ with
    | none => .error .dependencyWaitNotFound
    | some w => .ok (w.payload.state ≠ .pending ∨ w.payload.expired now)

/-- `dependenciesReady`. -/
def dependenciesReady (s : State) (tenantID : String) (waitFor : List String) : Bool :=
  waitFor.all fun id => id = "" ||
    match s.jobs.lookup ⟨tenantID, id⟩ with
    | some r => r.archivedAtNS.isSome
    | none => true

/-- `statusFromRow`. -/
def statusFromRow (s : State) (row : JobRow) (now : Time) : Except Err JobStatus :=
  if row.archivedAtNS.isSome then
    if row.cancelRequested ∨ row.completionStatus = some "cancelled" then .ok .cancelled
    else .ok .completed
  else if row.cancelRequested then .ok .cancelled
  else if row.leaseID.any (· ≠ "") ∧ row.leaseExpiresAtNS.any (fun ns => now < timeFromNS ns) then
    .ok .active
  else do
    let ready ← structuredWaitReady s row now
    if !ready then .ok .pendingJobs
    else if !dependenciesReady s row.tenantID row.waitFor ∧
        row.waitDeadlineNS.all (fun ns => now < timeFromNS ns) then .ok .pendingJobs
    else if timeFromNS row.availableAtNS ≠ Time.zero ∧ now < timeFromNS row.availableAtNS then
      .ok .awaitingFuture
    else if crashConcernThreshold ≤ row.consecutiveExpirations then .ok .crashConcern
    else .ok .ready

/-- What granting a lease reads off the lease columns. -/
structure LeaseHeld (row : JobRow) (leaseID workerID : String) (now : Time) : Prop where
  live : row.archivedAtNS = none ∧ row.cancelRequested = false
  id : row.leaseID = some leaseID ∧ leaseID ≠ ""
  worker : workerID = "" ∨ row.leaseWorkerID = some workerID
  expires : ∃ ns, row.leaseExpiresAtNS = some ns ∧ now < timeFromNS ns

theorem validateLeaseRow_eq_ok {row : JobRow} {leaseID workerID : String} {now : Time} :
    validateLeaseRow row leaseID workerID now = .ok () ↔ LeaseHeld row leaseID workerID now := by
  unfold validateLeaseRow
  constructor
  · intro h
    split at h
    · cases h
    split at h
    · cases h
    split at h
    · cases h
    split at h
    · cases h
    next h₁ h₂ h₃ h₄ =>
      simp only [not_or, Bool.not_eq_true, Option.isSome_eq_false_iff, Option.isNone_iff_eq_none,
        ne_eq, not_not] at h₁ h₂
      obtain ⟨-, hne, hid⟩ := h₂
      refine ⟨h₁, ⟨hid, fun he => hne (he ▸ hid)⟩, ?_, ?_⟩
      · by_contra hc
        exact h₃ ⟨fun he => hc (.inl he), fun he => hc (.inr he)⟩
      · cases hns : row.leaseExpiresAtNS with
        | none => simp [hns] at h₄
        | some ns => exact ⟨ns, rfl, by simpa [hns] using h₄⟩
  · rintro ⟨⟨ha, hc⟩, ⟨hid, hne⟩, hw, ns, hns, hlt⟩
    rw [if_neg (by simp [ha, hc]), if_neg (by simp [hid, hne]), if_neg (by grind),
      if_neg (by simpa [hns] using hlt)]

end JobDB.Sqlite
