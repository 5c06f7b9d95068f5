import JobDB.Goal.Answers
import JobDB.Lib.InPlace

/-!
# The goal engine on a store without transactions

The engine of the source does not know whether its store can roll back: it calls the store's writes
one after the other and returns at the first error. In `Goal/Engine.lean` the store's transaction
takes care of the rest. The in-process store has none, so here are the operations once more with
their writes made in place; an operation that fails half way leaves what it has written.

`Store.Shows view R S T` says that `S` answers as `T` does on a part of its state and writes along
`R`. Under it each operation in place gives the result of the transaction and moves along `R`,
however it ends (`add_refines`, `fail_refines`, `register_refines`, `closeConsumer_refines`).
-/

namespace JobDB

namespace LiveEngine

variable {σ : Type} (S : Store σ) (now : Time)

/-- Evaluate a wait and store the result. -/
def settleWait (w : DependencyWaitInfo) : InPlace σ Err DependencyWaitInfo := do
  let w' ← InPlace.read (Engine.evaluate S now · w)
  InPlace.write (S.saveWait w')
  pure w'

/-- `SettleTarget`. -/
def settleTarget (tenant : String) (target : DependencyTarget) : InPlace σ Err Unit := do
  let waits ← InPlace.read (S.targetWaits · tenant target)
  forM waits fun w => do
    let _ ← settleWait S now w

/-- `CheckCycle`. -/
def checkCycle (tenant : String) (start : DependencyTarget) : InPlace σ Err Unit :=
  InPlace.read fun s =>
    (Digraph.visit (Engine.successors S now s tenant) .dependencyCycle .outOfFuel
      (S.size s + 2) [] [] start).map fun _ => ()

/-- `resolve`. -/
def resolve (g : GoalInfo) (jobID : String) : InPlace σ Err GoalInfo :=
  if g.state ≠ .open then pure g
  else do
    InPlace.write (S.saveGoal (Engine.wonBy now g jobID))
    settleTarget S now g.goalKey.tenantId { goalID := g.goalKey.goalID }
    pure (Engine.wonBy now g jobID)

/-- The end of `Add`, once the candidate is stored. -/
def addStored (req : AddGoalCandidateRequest) (g : GoalInfo) (j : Job) :
    InPlace σ Err GoalCandidateInfo :=
  if j.success then do
    let g' ← resolve S now g j.key.jobId
    pure ⟨g'.goalKey, req.jobID, now, g'.state, g'.successfulJobID⟩
  else if j.terminal then
    pure ⟨g.goalKey, req.jobID, now, g.state, g.successfulJobID⟩
  else do
    checkCycle S now j.key.tenantId { goalID := g.goalKey.goalID }
    pure ⟨g.goalKey, req.jobID, now, g.state, g.successfulJobID⟩

/-- `Add`, by what is stored of the candidate. -/
def addCandidate (req : AddGoalCandidateRequest) (g : GoalInfo) (j : Job) :
    Option Time → InPlace σ Err GoalCandidateInfo
  | some addedAt => pure ⟨g.goalKey, req.jobID, addedAt, g.state, g.successfulJobID⟩
  | none => do
    InPlace.require .goalConflict (g.state = .open)
    InPlace.write (S.insertCandidate req.goalKey req.jobID now)
    addStored S now req g j

/-- `Add`. -/
def add (req : AddGoalCandidateRequest) : InPlace σ Err GoalCandidateInfo := do
  InPlace.read fun _ => req.goalKey.validate
  InPlace.require (.invalidDependency "") (req.jobID ≠ "")
  let g ← InPlace.read (S.goal · req.goalKey)
  let j ← InPlace.read (S.job · ⟨req.goalKey.tenantId, req.jobID⟩)
  let at? ← InPlace.read (S.candidate · req.goalKey req.jobID)
  addCandidate S now req g j at?

/-- `Fail`. -/
def fail (req : FailGoalRequest) : InPlace σ Err GoalInfo := do
  InPlace.read fun _ => req.validate
  let g ← InPlace.read (S.goal · req.goalKey)
  if g.state = .failed ∧ (g.failure.any fun f => f.message = req.message) then pure g
  else do
    InPlace.require .goalConflict (g.state = .open)
    let jobs ← InPlace.read (S.candidates · req.goalKey)
    InPlace.write (S.saveGoal (Engine.failedBy now g req jobs))
    settleTarget S now req.goalKey.tenantId { goalID := req.goalKey.goalID }
    pure (Engine.failedBy now g req jobs)

/-- `CloseConsumer`. -/
def closeConsumer (key : JobKey) : InPlace σ Err Unit := do
  let waits ← InPlace.read (S.consumerWaits · key)
  forM waits fun w =>
    if w.state = .pending then do
      let w' ← InPlace.read (Engine.evaluate S now · w)
      InPlace.write (S.saveWait (Engine.closed w'))
    else pure ()

/-- The target check `Register` makes for each dependency of a new wait. -/
def registerTarget (key : JobKey) (d : Dependency) : InPlace σ Err DependencyResolution := do
  InPlace.require .dependencyCycle (d.target.jobID ≠ key.jobId)
  if d.target.jobID ≠ "" then do
    let _ ← InPlace.read (S.job · ⟨key.tenantId, d.target.jobID⟩)
    pure ⟨d.target, d.condition, .pending, "", "", none⟩
  else do
    let _ ← InPlace.read (S.goal · ⟨key.tenantId, d.target.goalID⟩)
    pure ⟨d.target, d.condition, .pending, "", "", none⟩

/-- `Register`, by the wait that is stored under the key. -/
def registerOver (key : JobKey) (req : DependencyWait) :
    Option DependencyWaitInfo → InPlace σ Err DependencyWaitInfo
  | some w => do
    InPlace.require .dependencyWaitConflict (sameDescriptor w req = true)
    settleWait S now w
  | none => do
    let deps ← req.dependencies.mapM (registerTarget S key)
    let w ← settleWait S now {
      jobKey := key, waitID := req.waitID, deadline := req.deadline, state := .pending,
      dependencies := deps }
    checkCycle S now key.tenantId { jobID := key.jobId }
    pure w

/-- `Register`. -/
def register (key : JobKey) (req : DependencyWait) (submission : Bool) :
    InPlace σ Err DependencyWaitInfo := do
  InPlace.read fun _ => validateDependencyWait req submission
  let _ ← InPlace.read (S.job · key)
  let old ← InPlace.read fun s =>
    match S.wait s ⟨key, req.waitID⟩ with
    | .ok w => .ok (some w)
    | .error .dependencyWaitNotFound => .ok none
    | .error e => .error e
  registerOver S now key req old

end LiveEngine

/-! ## Agreement with the transactions -/

/-- `S` answers as `T` does on what `view` shows, its writes do what those of `T` do, and they move
along the preorder `R`. -/
structure Store.Shows {σ τ : Type} (view : σ → τ) (R : σ → σ → Prop) (S : Store σ) (T : Store τ) :
    Prop where
  refl : ∀ s, R s s
  trans : ∀ s₁ s₂ s₃, R s₁ s₂ → R s₂ s₃ → R s₁ s₃
  job : ∀ s k, S.job s k = T.job (view s) k
  goal : ∀ s k, S.goal s k = T.goal (view s) k
  candidates : ∀ s k, S.candidates s k = T.candidates (view s) k
  candidate : ∀ s k id, S.candidate s k id = T.candidate (view s) k id
  wait : ∀ s k, S.wait s k = T.wait (view s) k
  consumerWaits : ∀ s k, S.consumerWaits s k = T.consumerWaits (view s) k
  targetWaits : ∀ s tenant t, S.targetWaits s tenant t = T.targetWaits (view s) tenant t
  size : ∀ s, S.size s = T.size (view s)
  saveGoal : ∀ g, InPlace.Refines view R (.write (S.saveGoal g)) (.write (T.saveGoal g))
  insertCandidate : ∀ k id t,
    InPlace.Refines view R (.write (S.insertCandidate k id t)) (.write (T.insertCandidate k id t))
  saveWait : ∀ w, InPlace.Refines view R (.write (S.saveWait w)) (.write (T.saveWait w))

namespace LiveEngine

open InPlace (Refines)

variable {σ τ : Type} {view : σ → τ} {R : σ → σ → Prop} {S : Store σ} {T : Store τ}
  (h : S.Shows view R T) (now : Time)

include h

theorem evaluate_shows (w : DependencyWaitInfo) (s : σ) :
    Engine.evaluate S now s w = Engine.evaluate T now (view s) w := by
  have hjob : ∀ k, S.job s k = T.job (view s) k := h.job s
  have hgoal : ∀ k, S.goal s k = T.goal (view s) k := h.goal s
  have hcand : ∀ k, S.candidates s k = T.candidates (view s) k := h.candidates s
  exact Engine.evaluate_congr hjob hgoal hcand w

theorem successors_shows (tenant : String) (s : σ) :
    Engine.successors S now s tenant = Engine.successors T now (view s) tenant := by
  funext n
  unfold Engine.successors
  simp only [h.goal, h.candidates, h.job, h.consumerWaits]

variable [IsPreorder σ R]

theorem settleWait_refines (w : DependencyWaitInfo) :
    Refines view R (settleWait S now w) (Engine.settleWait T now w) := by
  refine .bind (.read (evaluate_shows h now w)) fun w' => ?_
  exact .bind (h.saveWait w') fun _ => .pure _

theorem settleTarget_refines (tenant : String) (t : DependencyTarget) :
    Refines view R (settleTarget S now tenant t) (Engine.settleTarget T now tenant t) := by
  refine .bind (.read fun s => h.targetWaits s tenant t) fun ws => ?_
  refine .forM (fun w => ?_) ws
  exact .bind (settleWait_refines h now w) fun _ => .pure _

theorem checkCycle_refines (tenant : String) (start : DependencyTarget) :
    Refines view R (checkCycle S now tenant start) (Engine.checkCycle T now tenant start) := by
  refine .read fun s => ?_
  rw [successors_shows h now tenant s, h.size s]

theorem resolve_refines (g : GoalInfo) (jobID : String) :
    Refines view R (resolve S now g jobID) (Engine.resolve T now g jobID) := by
  refine .ite _ (.pure g) ?_
  refine .bind (h.saveGoal _) fun _ => ?_
  exact .bind (settleTarget_refines h now _ _) fun _ => .pure _

theorem add_refines (req : AddGoalCandidateRequest) :
    Refines view R (add S now req) (Engine.add T now req) := by
  refine .bind (.read fun _ => rfl) fun _ => ?_
  refine .bind (.require _ _) fun _ => ?_
  refine .bind (.read fun s => h.goal s _) fun g => ?_
  refine .bind (.read fun s => h.job s _) fun j => ?_
  refine .bind (.read fun s => h.candidate s _ _) fun found => ?_
  cases found with
  | some addedAt => exact .pure _
  | none =>
    refine .bind (.require _ _) fun _ => ?_
    refine .bind (h.insertCandidate _ _ _) fun _ => ?_
    refine .ite _ ?_ (.ite _ (.pure _) ?_)
    · exact .bind (resolve_refines h now g _) fun _ => .pure _
    · exact .bind (checkCycle_refines h now _ _) fun _ => .pure _

theorem fail_refines (req : FailGoalRequest) :
    Refines view R (fail S now req) (Engine.fail T now req) := by
  refine .bind (.read fun _ => rfl) fun _ => ?_
  refine .bind (.read fun s => h.goal s _) fun g => ?_
  refine .ite _ (.pure g) ?_
  refine .bind (.require _ _) fun _ => ?_
  refine .bind (.read fun s => h.candidates s _) fun jobs => ?_
  refine .bind (h.saveGoal _) fun _ => ?_
  exact .bind (settleTarget_refines h now _ _) fun _ => .pure _

theorem closeConsumer_refines (key : JobKey) :
    Refines view R (closeConsumer S now key) (Engine.closeConsumer T now key) := by
  refine .bind (.read fun s => h.consumerWaits s key) fun ws => ?_
  refine .forM (fun w => ?_) ws
  refine .ite _ ?_ (.pure _)
  exact .bind (.read (evaluate_shows h now w)) fun w' => h.saveWait _

theorem registerTarget_refines (key : JobKey) (d : Dependency) :
    Refines view R (registerTarget S key d) (Engine.registerTarget T key d) := by
  refine .bind (.require _ _) fun _ => ?_
  refine .ite _ ?_ ?_
  · exact .bind (.read fun s => h.job s _) fun _ => .pure _
  · exact .bind (.read fun s => h.goal s _) fun _ => .pure _

theorem register_refines (key : JobKey) (req : DependencyWait) (submission : Bool) :
    Refines view R (register S now key req submission)
      (Engine.register T now key req submission) := by
  refine .bind (.read fun _ => rfl) fun _ => ?_
  refine .bind (.read fun s => h.job s _) fun _ => ?_
  refine .bind (.read fun s => ?_) fun old => ?_
  · rewrite [h.wait s]
    rfl
  cases old with
  | some w => exact .bind (.require _ _) fun _ => settleWait_refines h now w
  | none =>
    refine .bind (.mapM (registerTarget_refines h key) _) fun deps => ?_
    refine .bind (settleWait_refines h now _) fun w => ?_
    exact .bind (checkCycle_refines h now _ _) fun _ => .pure _

end LiveEngine

end JobDB
