import JobDB.Goal.View
import JobDB.Lib.Table

/-!
# The in-memory store

`goalstate.Memory` (`memory.go`), the goal store of the in-process runtime, with
the job facts its scheduler supplies (`goalJob`, `toyimpl/goals.go:41–43`).
Every record goes through JSON on its way in and out, which `copy` stands for.

`Memory.lawful` proves the store's contract, so the engine's theorems hold for
it. It is also the store their concrete histories run on.
-/

namespace JobDB

structure CandidateKey where
  goal : GoalKey
  jobID : String
deriving DecidableEq, Repr

/-- `goalstate.Memory` and the scheduler's job facts. -/
structure Memory where
  jobs : Table JobKey Job := ∅
  goalRows : Table GoalKey GoalInfo := ∅
  extras : Table CandidateKey Time := ∅
  waitRows : Table DependencyWaitKey DependencyWaitInfo := ∅

namespace Memory

/-- `LookupJob`. -/
def lookupJob (s : Memory) (k : JobKey) : Except Err Job :=
  match s.jobs.lookup k with
  | some j => .ok j
  | none => .error .jobNotFound

/-- `PrimaryJobs`. -/
def primaryJobs (s : Memory) (k : GoalKey) : List Job :=
  (s.jobs.rows.filter fun r => r.1.tenantId = k.tenantId ∧ r.2.goalID = k.goalID).map (·.2)

/-- `Goal`. -/
def goal (s : Memory) (k : GoalKey) : Except Err GoalInfo :=
  match s.goalRows.lookup k with
  | some g => .ok g.copy
  | none => .error .goalNotFound

/-- `SaveGoal`. -/
def saveGoal (g : GoalInfo) (s : Memory) : Except Err Memory :=
  .ok { s with goalRows := s.goalRows.insert g.goalKey g.copy }

/-- `Candidates`. -/
def candidates (s : Memory) (k : GoalKey) : Except Err (List Job) := do
  let added ← (s.extras.rows.filter fun r => r.1.goal = k).mapM fun r =>
    s.lookupJob ⟨k.tenantId, r.1.jobID⟩
  .ok ((s.primaryJobs k ++ added).insertionSort fun a b => a.key.jobId ≤ b.key.jobId)

/-- `Goals`. -/
def goals (s : Memory) (k : JobKey) : Except Err (List GoalKey) := do
  let j ← s.lookupJob k
  .ok (⟨k.tenantId, j.goalID⟩ ::
    (s.extras.rows.filter fun r => r.1.goal.tenantId = k.tenantId ∧ r.1.jobID = k.jobId).map
      (·.1.goal))

/-- `Candidate`. -/
def candidate (s : Memory) (k : GoalKey) (id : String) : Except Err (Option Time) := do
  let j ← s.lookupJob ⟨k.tenantId, id⟩
  if j.goalID = k.goalID then .ok (some j.createdAt) else .ok (s.extras.lookup ⟨k, id⟩)

/-- `InsertCandidate`. -/
def insertCandidate (k : GoalKey) (id : String) (addedAt : Time) (s : Memory) : Except Err Memory :=
  .ok { s with extras := s.extras.insert ⟨k, id⟩ addedAt }

/-- `Wait`. -/
def wait (s : Memory) (k : DependencyWaitKey) : Except Err DependencyWaitInfo :=
  match s.waitRows.lookup k with
  | some w => .ok w.copy
  | none => .error .dependencyWaitNotFound

/-- `SaveWait`. -/
def saveWait (w : DependencyWaitInfo) (s : Memory) : Except Err Memory :=
  .ok { s with waitRows := s.waitRows.insert w.key w.copy }

/-- `ConsumerWaits`. -/
def consumerWaits (s : Memory) (k : JobKey) : Except Err (List DependencyWaitInfo) :=
  .ok ((s.waitRows.rows.filter fun r => r.1.jobKey = k ∧ r.2.state = .pending).map (·.2.copy))

/-- `TargetWaits`. -/
def targetWaits (s : Memory) (tenant : String) (t : DependencyTarget) :
    Except Err (List DependencyWaitInfo) :=
  .ok ((s.waitRows.rows.filter fun r =>
    r.1.jobKey.tenantId = tenant ∧ r.2.state = .pending ∧
      r.2.dependencies.any fun d => d.target = t ∧ d.state = .pending).map (·.2.copy))

/-- A new job record; `SubmitJob` refuses a key in use. -/
def insertJob (j : Job) (s : Memory) : Except Err Memory :=
  match s.jobs.lookup j.key with
  | some _ => .error (.conflict "job exists")
  | none => .ok { s with jobs := s.jobs.insert j.key j }

/-- A job's outcome; one that is archived keeps the one it has. -/
def finishJob (k : JobKey) (success : Bool) (s : Memory) : Except Err Memory :=
  match s.jobs.lookup k with
  | none => .error .jobNotFound
  | some j =>
    if j.terminal then .error .executionLeaseLost
    else .ok { s with jobs := s.jobs.insert k { j with terminal := true, success := success } }

/-- The targets the store mentions: its jobs, and the dependencies of its
waits. -/
def targets (s : Memory) : List DependencyTarget :=
  s.jobs.rows.map (fun r => { jobID := r.1.jobId }) ++
    s.waitRows.rows.flatMap fun r => r.2.dependencies.map (·.target)

def store : SchedulerStore Memory where
  job := lookupJob
  goal := goal
  saveGoal := saveGoal
  candidates := candidates
  goals := goals
  candidate := candidate
  insertCandidate := insertCandidate
  wait := wait
  saveWait := saveWait
  consumerWaits := consumerWaits
  targetWaits := targetWaits
  size s := s.targets.length
  insertJob := insertJob
  finishJob := finishJob

/-! ## The contract -/

def view (s : Memory) : View where
  job k := s.jobs.lookup k
  goal k := (s.goalRows.lookup k).map GoalInfo.copy
  extra k id := s.extras.lookup ⟨k, id⟩
  wait k := (s.waitRows.lookup k).map DependencyWaitInfo.copy

/-- Rows are stored under their own keys. -/
structure Inv (s : Memory) : Prop where
  job : ∀ k j, s.jobs.lookup k = some j → j.key = k
  goal : ∀ k g, s.goalRows.lookup k = some g → g.goalKey = k
  wait : ∀ k w, s.waitRows.lookup k = some w → w.key = k

end Memory

theorem GoalFailure.copy_copy (f : GoalFailure) : f.copy.copy = f.copy := by
  unfold GoalFailure.copy
  split
  · next h => simp [h.2]
  · rfl

theorem GoalInfo.copy_copy (g : GoalInfo) : g.copy.copy = g.copy := by
  unfold GoalInfo.copy
  cases g.failure <;> simp [GoalFailure.copy_copy]

theorem DependencyResolution.copy_copy (d : DependencyResolution) : d.copy.copy = d.copy := by
  unfold DependencyResolution.copy
  cases d.failure <;> simp [GoalFailure.copy_copy]

theorem DependencyWaitInfo.copy_copy (w : DependencyWaitInfo) : w.copy.copy = w.copy := by
  have hd : (w.dependencies.map DependencyResolution.copy).map DependencyResolution.copy =
      w.dependencies.map DependencyResolution.copy := by
    rw [List.map_map]
    exact List.map_congr_left fun d _ => d.copy_copy
  have hf : (w.failure.map GoalFailure.copy).map GoalFailure.copy =
      w.failure.map GoalFailure.copy := by
    cases w.failure <;> simp [GoalFailure.copy_copy]
  have ht : (w.deadline.map Deadline.copy).map Deadline.copy = w.deadline.map Deadline.copy := by
    cases w.deadline <;> rfl
  unfold DependencyWaitInfo.copy
  rw [hd, hf, ht]

namespace Memory

variable {s s' : Memory}

variable {j : Job} {k : DependencyWaitKey} {w : DependencyWaitInfo} {id tenant : String}

theorem lookupJob_eq_ok {k : JobKey} : s.lookupJob k = .ok j ↔ s.jobs.lookup k = some j := by
  unfold lookupJob
  split <;> simp_all

/-! ### Queries -/

theorem view_goal (k : GoalKey) : s.view.goal k = (s.goalRows.lookup k).map GoalInfo.copy := rfl

theorem view_wait (k : DependencyWaitKey) :
    s.view.wait k = (s.waitRows.lookup k).map DependencyWaitInfo.copy := rfl

theorem goal_eq_ok {k : GoalKey} {g : GoalInfo} :
    s.goal k = .ok g ↔ s.view.goal k = some g := by
  rw [view_goal, goal]
  cases s.goalRows.lookup k <;> simp

theorem wait_eq_ok : s.wait k = .ok w ↔ s.view.wait k = some w := by
  rw [view_wait, wait]
  cases s.waitRows.lookup k <;> simp

theorem Inv.empty : ({} : Memory).Inv := by
  refine ⟨fun k j h => ?_, fun k g h => ?_, fun k w h => ?_⟩ <;> cases h

theorem view_empty : ({} : Memory).view = View.empty := rfl

theorem Inv.keyed (h : s.Inv) : s.view.Keyed where
  job := h.job
  goal := by
    intro k g hg
    obtain ⟨g', hl, rfl⟩ := Option.map_eq_some_iff.mp hg
    exact h.goal k g' hl
  wait := by
    intro k w hw
    obtain ⟨w', hl, rfl⟩ := Option.map_eq_some_iff.mp hw
    exact h.wait k w' hl

theorem mem_primaryJobs (h : s.Inv) {k : GoalKey} :
    j ∈ s.primaryJobs k ↔
      s.jobs.lookup j.key = some j ∧ j.key.tenantId = k.tenantId ∧ j.goalID = k.goalID := by
  unfold primaryJobs
  rw [List.mem_map]
  constructor
  · rintro ⟨⟨k', j'⟩, hr, rfl⟩
    obtain ⟨hrow, hp⟩ := List.mem_filter.mp hr
    have hl := Table.mem_rows.mp hrow
    have hk := h.job _ _ hl
    obtain ⟨ht, hg⟩ := of_decide_eq_true hp
    exact ⟨hk ▸ hl, hk ▸ ht, hg⟩
  · rintro ⟨hl, ht, hg⟩
    exact ⟨(j.key, j), List.mem_filter.mpr ⟨Table.mem_rows.mpr hl, decide_eq_true ⟨ht, hg⟩⟩, rfl⟩

/-- The rows of `Extras` for a goal. -/
theorem mem_extras {k : GoalKey} :
    (∃ r ∈ s.extras.rows, r.1.goal = k ∧ r.1.jobID = id) ↔ (s.extras.lookup ⟨k, id⟩).isSome := by
  constructor
  · rintro ⟨⟨⟨_, _⟩, t⟩, hr, rfl, rfl⟩
    exact Option.isSome_iff_exists.mpr ⟨t, Table.mem_rows.mp hr⟩
  · intro h
    obtain ⟨t, ht⟩ := Option.isSome_iff_exists.mp h
    exact ⟨(⟨k, id⟩, t), Table.mem_rows.mpr ht, rfl, rfl⟩

theorem candidates_ok (h : s.Inv) {k : GoalKey} {js : List Job} (hc : s.candidates k = .ok js)
    (j : Job) : j ∈ js ↔ s.view.Candidate k j := by
  obtain ⟨added, ha, rfl⟩ := map_eq_ok.mp hc
  rw [List.mem_insertionSort, List.mem_append, mem_primaryJobs h, mem_mapM_iff ha]
  constructor
  · rintro (⟨hs, ht, hg⟩ | ⟨r, hr, hj⟩)
    · exact ⟨hs, ht, .inl hg⟩
    · obtain ⟨hr, hgoal⟩ := List.mem_filter.mp hr
      refine (h.keyed.candidate_iff (lookupJob_eq_ok.mp hj)).mpr (.inr ?_)
      exact mem_extras.mp ⟨r, hr, of_decide_eq_true hgoal, rfl⟩
  · rintro ⟨hs, ht, hg | he⟩
    · exact .inl ⟨hs, ht, hg⟩
    · obtain ⟨r, hr, hgoal, hid⟩ := mem_extras.mpr he
      refine .inr ⟨r, List.mem_filter.mpr ⟨hr, decide_eq_true hgoal⟩, lookupJob_eq_ok.mpr ?_⟩
      rw [hid, ← ht]
      exact hs

/-! Rows selected from `WaitRows` are copied out under their own keys. -/

theorem mem_waits (h : s.Inv) {p : DependencyWaitKey × DependencyWaitInfo → Bool} :
    w ∈ (s.waitRows.rows.filter p).map (·.2.copy) ↔
      ∃ w₀, s.waitRows.lookup w.key = some w₀ ∧ p (w.key, w₀) ∧ w₀.copy = w := by
  rw [List.mem_map]
  constructor
  · rintro ⟨⟨k, w₀⟩, hr, rfl⟩
    obtain ⟨hr, hp⟩ := List.mem_filter.mp hr
    have hl := Table.mem_rows.mp hr
    obtain rfl := h.wait _ _ hl
    exact ⟨w₀, hl, hp, rfl⟩
  · rintro ⟨w₀, hl, hp, hw⟩
    exact ⟨(w.key, w₀), List.mem_filter.mpr ⟨Table.mem_rows.mpr hl, hp⟩, hw⟩

theorem waits_nodup (h : s.Inv) (p : DependencyWaitKey × DependencyWaitInfo → Bool) :
    (((s.waitRows.rows.filter p).map (·.2.copy)).map (·.key)).Nodup := by
  have hkeys : ((s.waitRows.rows.filter p).map (·.2.copy)).map (·.key) =
      (s.waitRows.rows.filter p).map (·.1) := by
    rw [List.map_map]
    refine List.map_congr_left fun r hr => ?_
    have hl := Table.mem_rows.mp (List.mem_filter.mp hr).1
    exact h.wait r.1 r.2 hl
  rw [hkeys]
  exact (Table.nodup_rows s.waitRows).sublist (List.filter_sublist.map _)

theorem consumerWaits_ok (h : s.Inv) {k : JobKey} (w : DependencyWaitInfo) :
    w ∈ (s.waitRows.rows.filter fun r => r.1.jobKey = k ∧ r.2.state = .pending).map (·.2.copy) ↔
      w.jobKey = k ∧ w.state = .pending ∧ s.view.wait w.key = some w := by
  rw [mem_waits h, view_wait]
  constructor
  · rintro ⟨w₀, hl, hp, rfl⟩
    obtain ⟨hk, hs⟩ := of_decide_eq_true hp
    exact ⟨hk, hs, by rw [hl]; rfl⟩
  · rintro ⟨hk, hs, hw⟩
    obtain ⟨w₀, hl, hc⟩ := Option.map_eq_some_iff.mp hw
    exact ⟨w₀, hl, decide_eq_true ⟨hk, by rw [← hs, ← hc]; rfl⟩, hc⟩

/-- Storing a job under its key. -/
theorem setJob_ok (h : s.Inv) (j : Job) :
    ({ s with jobs := s.jobs.insert j.key j } : Memory).Inv ∧
      ({ s with jobs := s.jobs.insert j.key j } : Memory).view = s.view.setJob j := by
  refine ⟨⟨Table.keyed_insert rfl h.job, h.goal, h.wait⟩, ?_⟩
  unfold view View.setJob
  congr 1
  funext k
  rw [Table.lookup_insert_eq, Function.update_apply]

/-! ### The cycle search stays among the store's targets -/

theorem job_mem_targets {k : JobKey} (hj : s.jobs.lookup k = some j) :
    { jobID := k.jobId } ∈ s.targets := by
  refine List.mem_append_left _ (List.mem_map.mpr ⟨(k, j), Table.mem_rows.mpr hj, rfl⟩)

theorem dependency_mem_targets (hw : s.view.wait k = some w) {d : DependencyResolution}
    (hd : d ∈ w.dependencies) : d.target ∈ s.targets := by
  obtain ⟨w₀, hl, rfl⟩ := Option.map_eq_some_iff.mp hw
  obtain ⟨d₀, hd₀, rfl⟩ := List.mem_map.mp hd
  refine List.mem_append_right _ (List.mem_flatMap.mpr ⟨(k, w₀), Table.mem_rows.mpr hl, ?_⟩)
  exact List.mem_map.mpr ⟨d₀, hd₀, rfl⟩

theorem successors_targets (h : s.Inv) {now : Time} {n : DependencyTarget}
    {next : List DependencyTarget}
    (hn : Engine.successors store.toStore now s tenant n = .ok next) :
    ∀ m ∈ next, m ∈ s.targets := by
  intro m hm
  obtain ⟨g, js, j, -, -, -, hjs, hj, -, rfl⟩ | ⟨j, ws, w, d, -, -, -, hws, hw, -, hd, -, rfl⟩ :=
    Engine.mem_successors hn hm
  · exact job_mem_targets ((candidates_ok h hjs j).mp hj).stored
  · cases hws
    exact dependency_mem_targets ((consumerWaits_ok h w).mp hw).2.2 hd

/-- `Memory` meets the engine's contract. -/
def lawful : LawfulStore store where
  view := view
  Inv := Inv
  keyed := Inv.keyed
  job_ok _ hj := lookupJob_eq_ok.mp hj
  goal_ok _ hg := goal_eq_ok.mp hg
  goal_none {s k} _ hg := by
    change s.goal k = _ at hg
    rw [goal] at hg
    rw [view_goal]
    cases hl : s.goalRows.lookup k with
    | none => rfl
    | some g => simp [hl] at hg
  candidates_ok h hw := candidates_ok h hw
  goals_ok h hg gk := by
    obtain ⟨j, hj, rfl⟩ := map_eq_ok.mp hg
    rw [h.keyed.exists_candidate_iff (lookupJob_eq_ok.mp hj), List.mem_cons, List.mem_map]
    constructor
    · rintro (rfl | ⟨r, hr, rfl⟩)
      · exact ⟨rfl, .inl rfl⟩
      · obtain ⟨hr, hp⟩ := List.mem_filter.mp hr
        obtain ⟨ht, hid⟩ := of_decide_eq_true hp
        exact ⟨ht.symm, .inr (mem_extras.mp ⟨r, hr, rfl, hid⟩)⟩
    · rintro ⟨ht, hg | he⟩
      · exact .inl (by rw [ht, hg])
      · obtain ⟨r, hr, rfl, hid⟩ := mem_extras.mpr he
        exact .inr ⟨r, List.mem_filter.mpr ⟨hr, decide_eq_true ⟨ht.symm, hid⟩⟩, rfl⟩
  candidate_ok h hc j hj := by
    obtain ⟨j', hj', hc⟩ := bind_eq_ok.mp hc
    obtain rfl : j' = j := Option.some.inj ((lookupJob_eq_ok.mp hj').symm.trans hj)
    rw [h.keyed.candidate_iff hj]
    split at hc
    · next hgoal =>
      cases hc
      simp [hgoal]
    · next hgoal =>
      cases hc
      simp only [hgoal, false_or]
      rfl
  wait_ok _ hw := wait_eq_ok.mp hw
  wait_none {s k} _ hw := by
    change s.wait k = _ at hw
    rw [wait] at hw
    rw [view_wait]
    cases hl : s.waitRows.lookup k with
    | none => rfl
    | some w => simp [hl] at hw
  consumerWaits_ok h hw := by cases hw; exact consumerWaits_ok h
  consumerWaits_nodup h hw := by cases hw; exact waits_nodup h _
  targetWaits_stored h ht w hw := by
    cases ht
    obtain ⟨w₀, hl, hp, rfl⟩ := (mem_waits h).mp hw
    exact ⟨(of_decide_eq_true hp).2.1, by rw [view_wait, hl]; rfl⟩
  targetWaits_complete h ht w hw hten hs := by
    cases ht
    rintro ⟨d, hd, hds, hdt⟩
    obtain ⟨w₀, hl, hc⟩ := Option.map_eq_some_iff.mp hw
    refine (mem_waits h).mpr ⟨w₀, hl, decide_eq_true ⟨hten, ?_, ?_⟩, hc⟩
    · rw [← hs, ← hc]
      rfl
    · -- the copy of a dependency has the state and the target of the original
      rw [← hc, DependencyWaitInfo.copy_dependencies] at hd
      obtain ⟨d₀, hd₀, rfl⟩ := List.mem_map.mp hd
      exact List.any_eq_true.mpr ⟨d₀, hd₀, decide_eq_true ⟨hdt, hds⟩⟩
  targetWaits_nodup h hw := by cases hw; exact waits_nodup h _
  saveGoal_ok {g _ _} h hw := by
    cases hw
    refine ⟨⟨h.job, Table.keyed_insert rfl h.goal, h.wait⟩, g.copy, rfl, ?_⟩
    unfold view View.setGoal
    congr 1
    funext k
    rw [Table.lookup_insert_eq, Function.update_apply, GoalInfo.copy_goalKey]
    split
    · exact congrArg some g.copy_copy
    · rfl
  insertCandidate_ok {_ _ t _ _} h hw := by
    cases hw
    refine ⟨⟨h.job, h.goal, h.wait⟩, t, ?_⟩
    unfold view View.setExtra
    congr 1
    funext gk' id'
    rw [Table.lookup_insert_eq]
    simp only [CandidateKey.mk.injEq]
  saveWait_ok {w _ _} h hw := by
    cases hw
    refine ⟨⟨h.job, h.goal, Table.keyed_insert rfl h.wait⟩, ?_⟩
    unfold view View.setWait
    congr 1
    funext k
    rw [Table.lookup_insert_eq, Function.update_apply, DependencyWaitInfo.copy_key]
    split
    · exact congrArg some w.copy_copy
    · rfl
  insertJob_ok {j s _} h hw := by
    change insertJob j s = _ at hw
    unfold insertJob at hw
    split at hw
    · cases hw
    · next hn =>
      cases hw
      obtain ⟨hinv, hv⟩ := setJob_ok h j
      exact ⟨hinv, hn, hv⟩
  finishJob_ok {k success s _} h hw := by
    change finishJob k success s = _ at hw
    unfold finishJob at hw
    split at hw
    · cases hw
    · next j hj =>
      rw [ite_error_eq_ok] at hw
      obtain ⟨ht, hw⟩ := hw
      cases hw
      obtain rfl := h.job _ _ hj
      obtain ⟨hinv, hv⟩ := setJob_ok h { j with terminal := true, success := success }
      exact ⟨hinv, j, hj, by simpa using ht, hv⟩
  size_bound h := ⟨_, le_rfl, fun _ _ _ _ hn => successors_targets h hn⟩

end Memory

end JobDB
