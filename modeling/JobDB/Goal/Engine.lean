import JobDB.Goal.Types
import JobDB.Lib.Digraph
import JobDB.Lib.Tx

/-!
# The goal engine

`goalstate.Engine` (`pkg/jobdb/internal/goalstate/state.go`): the goal and wait
transitions, run inside a transaction that the scheduler owns. The engine sees
its data only through `Store`, the source's interface of the same name; a
backend supplies one (`Memory` for the in-process runtime, the SQL tables for
SQLite).

Reads go through `Tx.read`, writes through `Tx.write`, so an operation that
fails leaves the store as it was: the engine's own contract ("all mutations in
an operation must roll back together on error", `state.go:1–3`).

The source recurses freely in `CheckCycle`; the model's search is bounded by
`Store.size`, which is no restriction: the bound is never reached
(`Goal/CycleCheck.lean`).
-/

namespace JobDB

/-- `goalstate.Job`: the scheduler's facts about a job. -/
structure Job where
  key : JobKey
  goalID : String
  terminal : Bool
  success : Bool
  createdAt : Time
deriving DecidableEq, Repr

/-- `goalstate.Store`. `size` is not in the source: it bounds the number of
dependency targets the store mentions. -/
structure Store (σ : Type) where
  job : σ → JobKey → Except Err Job
  goal : σ → GoalKey → Except Err GoalInfo
  saveGoal : GoalInfo → σ → Except Err σ
  candidates : σ → GoalKey → Except Err (List Job)
  goals : σ → JobKey → Except Err (List GoalKey)
  candidate : σ → GoalKey → String → Except Err (Option Time)
  insertCandidate : GoalKey → String → Time → σ → Except Err σ
  wait : σ → DependencyWaitKey → Except Err DependencyWaitInfo
  saveWait : DependencyWaitInfo → σ → Except Err σ
  consumerWaits : σ → JobKey → Except Err (List DependencyWaitInfo)
  targetWaits : σ → String → DependencyTarget → Except Err (List DependencyWaitInfo)
  size : σ → Nat

/-- `closePending`. -/
def closePending (w : DependencyWaitInfo) : DependencyWaitInfo :=
  { w with dependencies := w.dependencies.map fun d =>
      if d.state = .pending then { d with state := .cancelled, blockedReason := "" } else d }

/-- `sameDescriptor`, which compares deadlines by their representation (`reflect.DeepEqual`). -/
def sameDescriptor (w : DependencyWaitInfo) (r : DependencyWait) : Bool :=
  w.deadline = r.deadline ∧
    w.dependencies.map (fun d => (d.target, d.condition)) =
      r.dependencies.map fun d => (d.target, d.condition)

namespace Engine

variable {σ : Type} (S : Store σ) (now : Time)

/-! ## Evaluating a wait -/

/-- The body of `Evaluate`'s loop for a pending dependency: what its target
says now. -/
def evaluateDependency (s : σ) (tenant : String) (d : DependencyResolution) :
    Except Err DependencyResolution :=
  if d.target.goalID ≠ "" then do
    let g ← S.goal s ⟨tenant, d.target.goalID⟩
    match g.state with
    | .succeeded => .ok { d with state := .satisfied, satisfiedByJobID := g.successfulJobID }
    | .failed => .ok { d with state := .failed, failure := g.failure }
    | .open => do
      let jobs ← S.candidates s g.goalKey
      .ok { d with blockedReason :=
              if jobs.any (!·.terminal) then "waiting_for_execution" else "awaiting_candidate" }
  else do
    let j ← S.job s ⟨tenant, d.target.jobID⟩
    if j.terminal then
      if j.success ∨ d.condition = .complete then
        .ok { d with state := .satisfied, satisfiedByJobID := j.key.jobId }
      else
        .ok { d with
              state := .failed
              failure := some {
                code := "job_dependency_failed"
                jobID := j.key.jobId
                message := "prerequisite job " ++ j.key.jobId ++ " did not succeed"
                failedAt := now } }
    else .ok d

/-- The result of `Evaluate`'s loop: the dependencies as it leaves them, the
one that failed with its failure, and the flag `all`. -/
structure Scan where
  dependencies : List DependencyResolution
  failed : Option (Nat × Option GoalFailure)
  all : Bool

/-- `Evaluate`'s loop, from index `i` on. It stops at the first failure. -/
def scan (s : σ) (tenant : String) : Nat → List DependencyResolution → Except Err Scan
  | _, [] => .ok ⟨[], none, true⟩
  | i, d :: ds =>
    if d.state ≠ .pending then do
      let r ← scan s tenant (i + 1) ds
      .ok { r with dependencies := d :: r.dependencies }
    else do
      let d' ← evaluateDependency S now s tenant d
      if d'.state = .failed then .ok ⟨d' :: ds, some (i, d'.failure), false⟩
      else do
        let r ← scan s tenant (i + 1) ds
        if d'.state = .pending then
          .ok { r with dependencies := d' :: r.dependencies, all := false }
        else
          .ok { r with dependencies := { d' with blockedReason := "" } :: r.dependencies }

/-- `Evaluate`. -/
def evaluate (s : σ) (w : DependencyWaitInfo) : Except Err DependencyWaitInfo :=
  if w.state ≠ .pending then .ok w
  else if w.expired now then .ok (closePending { w with state := .timedOut })
  else do
    let r ← scan S now s w.jobKey.tenantId 0 w.dependencies
    match r.failed with
    | some (i, f) =>
      .ok (closePending { w with
        state := .failed
        dependencies := r.dependencies
        failedDependencyIndex := some i
        failure := f })
    | none =>
      .ok { w with
        state := if r.all then .satisfied else .pending
        dependencies := r.dependencies }

/-- Evaluate a wait and store the result. -/
def settleWait (w : DependencyWaitInfo) : Tx σ Err DependencyWaitInfo := do
  let w' ← Tx.read (evaluate S now · w)
  Tx.write (S.saveWait w')
  pure w'

/-- `SettleTarget`. -/
def settleTarget (tenant : String) (target : DependencyTarget) : Tx σ Err Unit := do
  let waits ← Tx.read (S.targetWaits · tenant target)
  forM waits fun w => do
    let _ ← settleWait S now w

/-! ## The cycle check -/

/-- The unresolved edges out of a node, in the order `CheckCycle` follows them. -/
def successors (s : σ) (tenant : String) (n : DependencyTarget) :
    Except Err (List DependencyTarget) :=
  if n.goalID ≠ "" then do
    let g ← S.goal s ⟨tenant, n.goalID⟩
    if g.state = .open then do
      let js ← S.candidates s g.goalKey
      .ok ((js.filter (!·.terminal)).map fun j => { jobID := j.key.jobId })
    else .ok []
  else do
    let j ← S.job s ⟨tenant, n.jobID⟩
    if j.terminal then .ok []
    else do
      let ws ← S.consumerWaits s ⟨tenant, n.jobID⟩
      let live := ws.filter fun w => w.state = .pending ∧ w.expired now = false
      .ok (live.flatMap fun w =>
        (w.dependencies.filter (·.state = .pending)).map (·.target))

/-- What a successor was read off. -/
theorem mem_successors {S : Store σ} {now : Time} {s : σ} {tenant : String} {n m : DependencyTarget}
    {next : List DependencyTarget} (h : successors S now s tenant n = .ok next) (hm : m ∈ next) :
    (∃ g js j, n.goalID ≠ "" ∧ S.goal s ⟨tenant, n.goalID⟩ = .ok g ∧ g.state = .open ∧
      S.candidates s g.goalKey = .ok js ∧ j ∈ js ∧ j.terminal = false ∧
        m = { jobID := j.key.jobId }) ∨
    ∃ j ws w d, n.goalID = "" ∧ S.job s ⟨tenant, n.jobID⟩ = .ok j ∧ j.terminal = false ∧
      S.consumerWaits s ⟨tenant, n.jobID⟩ = .ok ws ∧ w ∈ ws ∧ w.expired now = false ∧
      d ∈ w.dependencies ∧ d.state = .pending ∧ m = d.target := by
  unfold successors at h
  split at h
  · next hgoal =>
    obtain ⟨g, hg, h⟩ := bind_eq_ok.mp h
    split at h
    · next hopen =>
      obtain ⟨js, hjs, rfl⟩ := map_eq_ok.mp h
      obtain ⟨j, hj, rfl⟩ := List.mem_map.mp hm
      obtain ⟨hmem, hlive⟩ := List.mem_filter.mp hj
      exact .inl ⟨g, js, j, hgoal, hg, hopen, hjs, hmem, by simpa using hlive, rfl⟩
    · cases h
      cases hm
  · next hjob =>
    obtain ⟨j, hj, h⟩ := bind_eq_ok.mp h
    split at h
    · cases h
      cases hm
    · next hlive =>
      obtain ⟨ws, hws, rfl⟩ := map_eq_ok.mp h
      obtain ⟨w, hw, hm⟩ := List.mem_flatMap.mp hm
      obtain ⟨d, hd, rfl⟩ := List.mem_map.mp hm
      obtain ⟨hmem, hfresh⟩ := List.mem_filter.mp hw
      obtain ⟨hdep, hpending⟩ := List.mem_filter.mp hd
      exact .inr ⟨j, ws, w, d, not_not.mp hjob, hj, by simpa using hlive, hws, hmem,
        (by simpa using hfresh : _ ∧ _).2, hdep, by simpa using hpending, rfl⟩

/-- `CheckCycle`. -/
def checkCycle (tenant : String) (start : DependencyTarget) : Tx σ Err Unit :=
  Tx.read fun s =>
    (Digraph.visit (successors S now s tenant) .dependencyCycle .outOfFuel
      (S.size s + 2) [] [] start).map fun _ => ()

/-! ## Goal transitions -/

/-- The goal once `jobID` has won it. -/
def wonBy (g : GoalInfo) (jobID : String) : GoalInfo :=
  { g with
    state := .succeeded, successfulJobID := jobID, revision := 2,
    updatedAt := now, closedAt := some now }

/-- `resolve`: the goal as the caller sees it afterwards. -/
def resolve (g : GoalInfo) (jobID : String) : Tx σ Err GoalInfo :=
  if g.state ≠ .open then pure g
  else do
    Tx.write (S.saveGoal (wonBy now g jobID))
    settleTarget S now g.goalKey.tenantId { goalID := g.goalKey.goalID }
    pure (wonBy now g jobID)

/-- `Add`. -/
def add (req : AddGoalCandidateRequest) : Tx σ Err GoalCandidateInfo := do
  Tx.read fun _ => req.goalKey.validate
  Tx.require (.invalidDependency "") (req.jobID ≠ "")
  let g ← Tx.read (S.goal · req.goalKey)
  let j ← Tx.read (S.job · ⟨req.goalKey.tenantId, req.jobID⟩)
  let at? ← Tx.read (S.candidate · req.goalKey req.jobID)
  match at? with
  | some addedAt => pure ⟨g.goalKey, req.jobID, addedAt, g.state, g.successfulJobID⟩
  | none => do
    Tx.require .goalConflict (g.state = .open)
    Tx.write (S.insertCandidate req.goalKey req.jobID now)
    if j.success then do
      let g' ← resolve S now g j.key.jobId
      pure ⟨g'.goalKey, req.jobID, now, g'.state, g'.successfulJobID⟩
    else if j.terminal then
      pure ⟨g.goalKey, req.jobID, now, g.state, g.successfulJobID⟩
    else do
      checkCycle S now j.key.tenantId { goalID := g.goalKey.goalID }
      pure ⟨g.goalKey, req.jobID, now, g.state, g.successfulJobID⟩

/-- The failure `Fail` records, with the candidates as they stand. -/
def failureOf (req : FailGoalRequest) (jobs : List Job) : GoalFailure where
  code := "goal_failed"
  goalID := req.goalKey.goalID
  message := req.message
  failedAt := now
  terminalJobIDs := sortStrings ((jobs.filter (·.terminal)).map (·.key.jobId))
  nonTerminalJobIDs := sortStrings ((jobs.filter (!·.terminal)).map (·.key.jobId))

/-- The goal once `Fail` has closed it. -/
def failedBy (g : GoalInfo) (req : FailGoalRequest) (jobs : List Job) : GoalInfo :=
  { g with
    state := .failed, revision := 2, updatedAt := now, closedAt := some now,
    failure := some (failureOf now req jobs) }

/-- `Fail`. -/
def fail (req : FailGoalRequest) : Tx σ Err GoalInfo := do
  Tx.read fun _ => req.validate
  let g ← Tx.read (S.goal · req.goalKey)
  if g.state = .failed ∧ (g.failure.any fun f => f.message = req.message) then pure g
  else do
    Tx.require .goalConflict (g.state = .open)
    let jobs ← Tx.read (S.candidates · req.goalKey)
    Tx.write (S.saveGoal (failedBy now g req jobs))
    settleTarget S now req.goalKey.tenantId { goalID := req.goalKey.goalID }
    pure (failedBy now g req jobs)

/-! ## Waits -/

/-- What `CloseConsumer` stores for an evaluated wait. -/
def closed (w : DependencyWaitInfo) : DependencyWaitInfo :=
  closePending (if w.state = .pending then { w with state := .cancelled } else w)

/-- `CloseConsumer`. -/
def closeConsumer (key : JobKey) : Tx σ Err Unit := do
  let waits ← Tx.read (S.consumerWaits · key)
  forM waits fun w =>
    if w.state = .pending then do
      let w' ← Tx.read (evaluate S now · w)
      Tx.write (S.saveWait (closed w'))
    else pure ()

/-- The goals part of `Complete`: a successful job resolves each goal it is a
candidate of. -/
def resolveGoals (key : JobKey) (j : Job) : Tx σ Err Unit :=
  if j.success then do
    let goals ← Tx.read (S.goals · key)
    forM (goals.insertionSort fun a b => a.goalID ≤ b.goalID) fun gk => do
      let g ← Tx.read (S.goal · gk)
      let _ ← resolve S now g j.key.jobId
  else pure ()

/-- `Complete`: runs after the job's terminal outcome has been stored. -/
def complete (key : JobKey) : Tx σ Err Unit := do
  let j ← Tx.read (S.job · key)
  resolveGoals S now key j
  closeConsumer S now key
  settleTarget S now key.tenantId { jobID := key.jobId }

/-- The target check `Register` makes for each dependency of a new wait. -/
def registerTarget (key : JobKey) (d : Dependency) : Tx σ Err DependencyResolution := do
  Tx.require .dependencyCycle (d.target.jobID ≠ key.jobId)
  if d.target.jobID ≠ "" then do
    let _ ← Tx.read (S.job · ⟨key.tenantId, d.target.jobID⟩)
    pure ⟨d.target, d.condition, .pending, "", "", none⟩
  else do
    let _ ← Tx.read (S.goal · ⟨key.tenantId, d.target.goalID⟩)
    pure ⟨d.target, d.condition, .pending, "", "", none⟩

/-- `Register` when no wait is stored under the key. -/
def registerNew (key : JobKey) (req : DependencyWait) : Tx σ Err DependencyWaitInfo := do
  let deps ← req.dependencies.mapM (registerTarget S key)
  let w ← settleWait S now {
    jobKey := key, waitID := req.waitID, deadline := req.deadline, state := .pending,
    dependencies := deps }
  checkCycle S now key.tenantId { jobID := key.jobId }
  pure w

/-- `Register`. -/
def register (key : JobKey) (req : DependencyWait) (submission : Bool) :
    Tx σ Err DependencyWaitInfo := do
  Tx.read fun _ => validateDependencyWait req submission
  let _ ← Tx.read (S.job · key)
  let old ← Tx.read fun s =>
    match S.wait s ⟨key, req.waitID⟩ with
    | .ok w => .ok (some w)
    | .error .dependencyWaitNotFound => .ok none
    | .error e => .error e
  match old with
  | some w => do
    Tx.require .dependencyWaitConflict (sameDescriptor w req = true)
    settleWait S now w
  | none => registerNew S now key req

end Engine

end JobDB
