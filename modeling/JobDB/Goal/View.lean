import JobDB.Goal.Engine

/-!
# What a store holds

`View` is the abstract content of a goal store: four partial maps. The engine's
claims are stated over views, so that they read the same for every backend.

* `View.Candidate gk j`: `j` may satisfy the goal, either as a job published
  under it or as a candidate added to it.
* `View.Unsettled tenant n`: the job exists and is not terminal, or the goal
  exists and is open.
* `View.Edge now tenant`: the unresolved edges `CheckCycle` follows.

`LawfulStore` is the contract a backend has to meet: a query that answers
answers from the view, a write that succeeds changes the view at one place, and
`Inv` is whatever the backend needs to keep for that (an index, say). A query
or a write may always fail; nothing is assumed about when.
-/

namespace JobDB

/-- The content of a goal store. -/
structure View where
  job : JobKey → Option Job
  goal : GoalKey → Option GoalInfo
  /-- Candidates added to a goal after its publication, with the time. -/
  extra : GoalKey → String → Option Time
  wait : DependencyWaitKey → Option DependencyWaitInfo

namespace View

/-- No job, goal or wait yet. -/
def empty : View := ⟨fun _ => none, fun _ => none, fun _ _ => none, fun _ => none⟩

def setJob (v : View) (j : Job) : View := { v with job := Function.update v.job j.key (some j) }

def setGoal (v : View) (g : GoalInfo) : View :=
  { v with goal := Function.update v.goal g.goalKey (some g) }

def setExtra (v : View) (gk : GoalKey) (jobID : String) (addedAt : Time) : View :=
  { v with extra := fun gk' id => if gk' = gk ∧ id = jobID then some addedAt else v.extra gk' id }

def setWait (v : View) (w : DependencyWaitInfo) : View :=
  { v with wait := Function.update v.wait w.key (some w) }

variable (v : View)

/-- `j` is a job of the goal's tenant, published under the goal or added to it. -/
structure Candidate (gk : GoalKey) (j : Job) : Prop where
  stored : v.job j.key = some j
  tenant : j.key.tenantId = gk.tenantId
  listed : j.goalID = gk.goalID ∨ (v.extra gk j.key.jobId).isSome

/-- The node is not settled: nothing has decided the dependencies on it. -/
def Unsettled (tenant : String) : Node → Prop
  | .job id => ∃ j, v.job ⟨tenant, id⟩ = some j ∧ j.terminal = false
  | .goal id => ∃ g, v.goal ⟨tenant, id⟩ = some g ∧ g.state = .open

/-- A failure that a wait takes over: that of a failed goal, or one that names a job. -/
inductive Cause : Option GoalFailure → Prop where
  | goal {k : GoalKey} {g : GoalInfo} (stored : v.goal k = some g) (failed : g.state = .failed) :
      Cause g.failure
  | job {k : JobKey} {j : Job} (message : String) (t : Time) (stored : v.job k = some j) :
      Cause (some { code := "job_dependency_failed", jobID := j.key.jobId, message := message,
                    failedAt := t })

/-- The unresolved edges of a tenant at a clock reading: from an open goal to
its non-terminal candidates, from a non-terminal job to the pending targets of
its pending waits whose deadline has not passed. -/
inductive Edge (now : Time) (tenant : String) : Node → Node → Prop where
  | goal {id : String} {g : GoalInfo} {j : Job} (stored : v.goal ⟨tenant, id⟩ = some g)
      (isOpen : g.state = .open) (cand : v.Candidate ⟨tenant, id⟩ j) (live : j.terminal = false) :
      Edge now tenant (.goal id) (.job j.key.jobId)
  | job {id : String} {j : Job} {w : DependencyWaitInfo} {d : DependencyResolution}
      (stored : v.job ⟨tenant, id⟩ = some j) (live : j.terminal = false)
      (wait : v.wait w.key = some w) (owner : w.jobKey = ⟨tenant, id⟩)
      (pending : w.state = .pending)
      (fresh : w.expired now = false) (mem : d ∈ w.dependencies) (unresolved : d.state = .pending) :
      Edge now tenant (.job id) d.target.node

/-- Every record is stored under its own key. -/
structure Keyed : Prop where
  job : ∀ k j, v.job k = some j → j.key = k
  goal : ∀ k g, v.goal k = some g → g.goalKey = k
  wait : ∀ k w, v.wait k = some w → w.key = k

namespace Keyed

variable {v} (hv : v.Keyed) {gk : GoalKey} {j : Job}

include hv

theorem candidate_iff {id : String} (hj : v.job ⟨gk.tenantId, id⟩ = some j) :
    v.Candidate gk j ↔ j.goalID = gk.goalID ∨ (v.extra gk id).isSome := by
  have hkey := hv.job _ _ hj
  constructor
  · intro hc
    simpa only [hkey] using hc.listed
  · intro hlisted
    exact ⟨hkey ▸ hj, by rw [hkey], by rwa [hkey]⟩

theorem exists_candidate_iff {k : JobKey} (hj : v.job k = some j) :
    (∃ j', j'.key = k ∧ v.Candidate gk j') ↔
      k.tenantId = gk.tenantId ∧ (j.goalID = gk.goalID ∨ (v.extra gk k.jobId).isSome) := by
  obtain rfl := hv.job _ _ hj
  constructor
  · rintro ⟨j', hkey, hstored, htenant, hlisted⟩
    rw [hkey] at hstored htenant hlisted
    obtain rfl := Option.some.inj (hj.symm.trans hstored)
    exact ⟨htenant, hlisted⟩
  · rintro ⟨htenant, hlisted⟩
    exact ⟨j, rfl, hj, htenant, hlisted⟩

end Keyed

end View

/-- What reading a saved goal gives back: the record after its JSON round trip,
up to the goal's cell, which a backend may keep from the first save. -/
def GoalInfo.SavedAs (g g' : GoalInfo) : Prop :=
  g' = { g.copy with cell := g'.cell, cellID := g'.cellID, cellRepo := g'.cellRepo }

namespace GoalInfo.SavedAs

variable {g g' : GoalInfo} (h : g.SavedAs g')

include h

theorem goalKey : g'.goalKey = g.goalKey := by rw [h]; rfl

theorem state : g'.state = g.state := by rw [h]; rfl

theorem successfulJobID : g'.successfulJobID = g.successfulJobID := by rw [h]; rfl

theorem failure : g'.failure = g.failure.map GoalFailure.copy := by rw [h]; rfl

end GoalInfo.SavedAs

/-- The goal store together with the two scheduler writes the engine's
operations are called around: a job's publication and its terminal outcome. -/
structure SchedulerStore (σ : Type) extends Store σ where
  insertJob : Job → σ → Except Err σ
  finishJob : JobKey → Bool → σ → Except Err σ

/-- The contract of a backend. -/
structure LawfulStore {σ : Type} (S : SchedulerStore σ) where
  view : σ → View
  Inv : σ → Prop
  keyed : ∀ {s}, Inv s → (view s).Keyed
  -- queries
  job_ok : ∀ {s k j}, Inv s → S.job s k = .ok j → (view s).job k = some j
  goal_ok : ∀ {s k g}, Inv s → S.goal s k = .ok g → (view s).goal k = some g
  goal_none : ∀ {s k}, Inv s → S.goal s k = .error .goalNotFound → (view s).goal k = none
  candidates_ok : ∀ {s k js}, Inv s → S.candidates s k = .ok js →
    ∀ j, j ∈ js ↔ (view s).Candidate k j
  goals_ok : ∀ {s k gs}, Inv s → S.goals s k = .ok gs →
    ∀ gk, gk ∈ gs ↔ ∃ j, j.key = k ∧ (view s).Candidate gk j
  candidate_ok : ∀ {s gk id r}, Inv s → S.candidate s gk id = .ok r →
    ∀ j, (view s).job ⟨gk.tenantId, id⟩ = some j → (r.isSome ↔ (view s).Candidate gk j)
  wait_ok : ∀ {s k w}, Inv s → S.wait s k = .ok w → (view s).wait k = some w
  wait_none : ∀ {s k}, Inv s → S.wait s k = .error .dependencyWaitNotFound →
    (view s).wait k = none
  consumerWaits_ok : ∀ {s k ws}, Inv s → S.consumerWaits s k = .ok ws →
    ∀ w, w ∈ ws ↔ w.jobKey = k ∧ w.state = .pending ∧ (view s).wait w.key = some w
  consumerWaits_nodup : ∀ {s k ws}, Inv s → S.consumerWaits s k = .ok ws →
    (ws.map (·.key)).Nodup
  targetWaits_stored : ∀ {s tenant t ws}, Inv s → S.targetWaits s tenant t = .ok ws →
    ∀ w ∈ ws, w.state = .pending ∧ (view s).wait w.key = some w
  targetWaits_complete : ∀ {s tenant t ws}, Inv s → S.targetWaits s tenant t = .ok ws →
    ∀ w, (view s).wait w.key = some w → w.jobKey.tenantId = tenant → w.state = .pending →
      (∃ d ∈ w.dependencies, d.state = .pending ∧ d.target = t) → w ∈ ws
  targetWaits_nodup : ∀ {s tenant t ws}, Inv s → S.targetWaits s tenant t = .ok ws →
    (ws.map (·.key)).Nodup
  -- writes
  saveGoal_ok : ∀ {g s s'}, Inv s → S.saveGoal g s = .ok s' →
    Inv s' ∧ ∃ g', g.SavedAs g' ∧ view s' = (view s).setGoal g'
  insertCandidate_ok : ∀ {gk id t s s'}, Inv s → S.insertCandidate gk id t s = .ok s' →
    Inv s' ∧ ∃ t', view s' = (view s).setExtra gk id t'
  saveWait_ok : ∀ {w s s'}, Inv s → S.saveWait w s = .ok s' →
    Inv s' ∧ view s' = (view s).setWait w.copy
  insertJob_ok : ∀ {j s s'}, Inv s → S.insertJob j s = .ok s' →
    Inv s' ∧ (view s).job j.key = none ∧ view s' = (view s).setJob j
  finishJob_ok : ∀ {k success s s'}, Inv s → S.finishJob k success s = .ok s' →
    Inv s' ∧ ∃ j, (view s).job k = some j ∧ j.terminal = false ∧
      view s' = (view s).setJob { j with terminal := true, success := success }
  -- the bound on the cycle search
  size_bound : ∀ {s}, Inv s → ∃ nodes : List DependencyTarget, nodes.length ≤ S.size s ∧
    ∀ now tenant n next, Engine.successors S.toStore now s tenant n = .ok next →
      ∀ m ∈ next, m ∈ nodes

end JobDB
