import JobDB.Goal.Frame
import JobDB.Goal.View
import JobDB.Sqlite.Database

/-!
# The goal store in SQL

`goalStore` (`pkg/jobdb/runtime/sqlite/goals.go:25–201`): the engine's store over
the tables of the database. A wait that is pending is indexed in
`jobdb_dependency_targets` by the nodes it waits for; `TargetWaits` goes through
that index, so the store's invariant says that the index is exact.

Records are stored as JSON and read back once, so a row holds a copy.
-/

namespace JobDB.Sqlite

/-- The goal engine's facts about a job (`goalStore.Job`). -/
def goalJob (row : JobRow) : Job where
  key := row.key
  goalID := row.goalID
  terminal := row.archivedAtNS.isSome
  success := row.archivedAtNS.isSome &&
    (row.completionStatus = some "success" || row.completionStatus = some "succeeded")
  createdAt := timeFromNS row.createdAtNS

namespace GoalStore

/-- `Job`. -/
def job (s : State) (k : JobKey) : Except Err Job :=
  match s.jobs.lookup k with
  | some row => .ok (goalJob row)
  | none => .error .jobNotFound

/-- The goal a row holds: the payload has no cell, the columns have. -/
def goalInfo (row : GoalRow) : GoalInfo :=
  { row.payload with cell := row.cell, cellID := row.cellID, cellRepo := row.cellRepo }

/-- `Goal`. -/
def goal (s : State) (k : GoalKey) : Except Err GoalInfo :=
  match s.goals.lookup k with
  | some row => .ok (goalInfo row)
  | none => .error .goalNotFound

/-- `SaveGoal`: the upsert leaves the cell columns of an existing row. -/
def saveGoal (g : GoalInfo) (s : State) : Except Err State :=
  match s.goals.lookup g.goalKey with
  | some row => .ok { s with goals := s.goals.insert g.goalKey { row with payload := g.copy } }
  | none => .ok { s with goals := s.goals.insert g.goalKey ⟨g.copy, g.cellID, g.cell, g.cellRepo⟩ }

/-- The `UNION … ORDER BY job_id` of `Candidates`. -/
def candidateIDs (s : State) (k : GoalKey) : List String :=
  sortStrings
    (((s.jobs.rows.filter fun r => r.1.tenantId = k.tenantId ∧ r.2.goalID = k.goalID).map
        (·.1.jobId) ++
      (s.candidates.rows.filter fun r => r.1.goal = k).map (·.1.jobID)).dedup)

/-- `Candidates`. -/
def candidates (s : State) (k : GoalKey) : Except Err (List Job) :=
  (candidateIDs s k).mapM fun id => job s ⟨k.tenantId, id⟩

/-- `otherGoals`. -/
def otherGoals (s : State) (k : JobKey) : List String :=
  sortStrings ((s.candidates.rows.filter fun r =>
    r.1.goal.tenantId = k.tenantId ∧ r.1.jobID = k.jobId).map (·.1.goal.goalID))

/-- `Goals`. -/
def goals (s : State) (k : JobKey) : Except Err (List GoalKey) := do
  let j ← job s k
  .ok (⟨k.tenantId, j.goalID⟩ :: (otherGoals s k).map fun id => ⟨k.tenantId, id⟩)

/-- `Candidate`. -/
def candidate (s : State) (k : GoalKey) (id : String) : Except Err (Option Time) := do
  let j ← job s ⟨k.tenantId, id⟩
  if j.goalID = k.goalID then .ok (some j.createdAt)
  else .ok ((s.candidates.lookup ⟨k, id⟩).map timeFromNS)

/-- `InsertCandidate`: the primary key refuses a second row. -/
def insertCandidate (k : GoalKey) (id : String) (addedAt : Time) (s : State) : Except Err State :=
  match s.candidates.lookup ⟨k, id⟩ with
  | some _ => .error (.store "UNIQUE constraint failed: jobdb_goal_candidates")
  | none => .ok { s with candidates := s.candidates.insert ⟨k, id⟩ (timeToNS addedAt) }

/-- `Wait`. -/
def wait (s : State) (k : DependencyWaitKey) : Except Err DependencyWaitInfo :=
  match s.waits.lookup k with
  | some row => .ok row.payload
  | none => .error .dependencyWaitNotFound

/-- The rows `SaveWait` inserts for a wait. -/
def targetKeys (w : DependencyWaitInfo) : List TargetKey :=
  if w.state = .pending then
    (w.dependencies.filter (·.state = .pending)).map fun d => ⟨w.key, d.target.node⟩
  else []

/-- `SaveWait`: the wait, and its index rows anew; the primary key refuses two
dependencies on one node. -/
def saveWait (w : DependencyWaitInfo) (s : State) : Except Err State :=
  if (targetKeys w).Nodup then
    .ok { s with
      waits := s.waits.insert w.key ⟨w.state, w.copy⟩
      targets := s.targets.filter (·.wait ≠ w.key) ++ targetKeys w }
  else .error (.store "UNIQUE constraint failed: jobdb_dependency_targets")

/-- `ConsumerWaits`. -/
def consumerWaits (s : State) (k : JobKey) : Except Err (List DependencyWaitInfo) :=
  .ok ((s.waits.rows.filter fun r => r.1.jobKey = k ∧ r.2.state = .pending).map (·.2.payload))

/-- `ORDER BY w.job_id, w.wait_id`. -/
def waitOrder (a b : DependencyWaitInfo) : Bool :=
  a.jobKey.jobId < b.jobKey.jobId ∨ (a.jobKey.jobId = b.jobKey.jobId ∧ a.waitID ≤ b.waitID)

/-- `TargetWaits`: the join of the index with the waits. -/
def targetWaits (s : State) (tenant : String) (t : DependencyTarget) :
    Except Err (List DependencyWaitInfo) :=
  .ok (((s.targets.filter fun r => r.wait.jobKey.tenantId = tenant ∧ r.target = t.node).filterMap
    fun r => (s.waits.lookup r.wait).map (·.payload)).insertionSort fun a b => waitOrder a b)

/-- The targets the store mentions. -/
def mentioned (s : State) : List DependencyTarget :=
  s.jobs.rows.map (fun r => { jobID := r.1.jobId }) ++
    s.waits.rows.flatMap fun r => r.2.payload.dependencies.map (·.target)

end GoalStore

/-- `goalStore`. -/
def goalStore : Store State where
  job := GoalStore.job
  goal := GoalStore.goal
  saveGoal := GoalStore.saveGoal
  candidates := GoalStore.candidates
  goals := GoalStore.goals
  candidate := GoalStore.candidate
  insertCandidate := GoalStore.insertCandidate
  wait := GoalStore.wait
  saveWait := GoalStore.saveWait
  consumerWaits := GoalStore.consumerWaits
  targetWaits := GoalStore.targetWaits
  size s := (GoalStore.mentioned s).length

/-! ## What the goal store leaves alone -/

theorem saveGoal_sched {g : GoalInfo} {s s' : State} (h : GoalStore.saveGoal g s = .ok s') :
    s'.sched = s.sched := by
  unfold GoalStore.saveGoal at h
  split at h <;> cases h <;> rfl

/-- The scheduler's tables are the same. -/
abbrev SameSched (s s' : State) : Prop := s'.sched = s.sched

instance : IsPreorder State SameSched where
  refl _ := rfl
  trans _ _ _ h h' := h'.trans h

/-- The goal store writes its own tables only. -/
theorem goalStore_writes : goalStore.Writes SameSched where
  saveGoal h := saveGoal_sched h
  insertCandidate {k id t s s'} h := by
    change GoalStore.insertCandidate k id t s = .ok s' at h
    unfold GoalStore.insertCandidate at h
    split at h
    · cases h
    · cases h
      rfl
  saveWait {w s s'} h := by
    change GoalStore.saveWait w s = .ok s' at h
    unfold GoalStore.saveWait at h
    split at h
    · cases h
      rfl
    · cases h

end JobDB.Sqlite
