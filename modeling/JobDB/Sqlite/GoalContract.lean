import JobDB.Goal.Memory
import JobDB.Sqlite.TargetIndex
import JobDB.Sqlite.Transactions
import Mathlib.Data.List.Dedup

/-!
# The SQL tables meet the goal engine's contract

`GoalStore.view` is what the tables of goals, candidates and waits hold, with the facts about jobs
that `goalStore.Job` reads off their rows. `schedulerStore` adds the two writes that a scheduler
makes around the engine's operations, and `GoalStore.lawful` proves the contract; so what is proved
about the engine over any lawful store holds for these tables, the target index included.
-/

namespace JobDB.Sqlite

namespace GoalStore

/-- What the tables hold. -/
def view (s : State) : View where
  job k := (s.jobs.lookup k).map goalJob
  goal k := (s.goals.lookup k).map goalInfo
  extra k id := (s.candidates.lookup ⟨k, id⟩).map timeFromNS
  wait k := (s.waits.lookup k).map (·.payload)

section Fields

variable (s : State)

theorem view_job (k : JobKey) : (view s).job k = (s.jobs.lookup k).map goalJob := rfl

theorem view_goal (k : GoalKey) : (view s).goal k = (s.goals.lookup k).map goalInfo := rfl

theorem view_wait (k : DependencyWaitKey) :
    (view s).wait k = (s.waits.lookup k).map (·.payload) := rfl

end Fields

/-- Rows lie under their keys, and the target index is exact. -/
structure Inv (s : State) : Prop where
  job : ∀ {k row}, s.jobs.lookup k = some row → row.key = k
  goal : ∀ {k row}, s.goals.lookup k = some row → row.payload.goalKey = k
  waits : WaitTables s

variable {s s' : State}

theorem Inv.of_empty (t : Time) : Inv { now := t } where
  job h := by cases h
  goal h := by cases h
  waits := .of_empty rfl rfl

theorem Inv.keyed (h : Inv s) : (view s).Keyed where
  job k j hj := by
    obtain ⟨row, hl, rfl⟩ := Option.map_eq_some_iff.mp hj
    exact h.job hl
  goal k g hg := by
    obtain ⟨row, hl, rfl⟩ := Option.map_eq_some_iff.mp hg
    exact h.goal hl
  wait k w hw := by
    obtain ⟨row, hl, rfl⟩ := Option.map_eq_some_iff.mp hw
    exact h.waits.key hl

/-! ## Queries -/

theorem job_eq_ok {k : JobKey} {j : Job} : job s k = .ok j ↔ (view s).job k = some j := by
  rw [view_job, job]
  cases s.jobs.lookup k <;> simp

variable {k : GoalKey} {id : String} {ws : List DependencyWaitInfo}

theorem goal_eq_ok {g : GoalInfo} : goal s k = .ok g ↔ (view s).goal k = some g := by
  rw [view_goal, goal]
  cases s.goals.lookup k <;> simp

theorem wait_eq_ok {k : DependencyWaitKey} {w : DependencyWaitInfo} :
    wait s k = .ok w ↔ (view s).wait k = some w := by
  rw [view_wait, wait]
  cases s.waits.lookup k <;> simp

theorem mem_sortStrings {xs : List String} {x : String} : x ∈ sortStrings xs ↔ x ∈ xs :=
  List.mem_insertionSort _

/-- The rows of `candidates` for a goal and a job. -/
theorem mem_candidates :
    (∃ r ∈ s.candidates.rows, r.1.goal = k ∧ r.1.jobID = id) ↔ ((view s).extra k id).isSome := by
  unfold view
  rw [Option.isSome_map]
  constructor
  · rintro ⟨⟨⟨_, _⟩, ns⟩, hr, rfl, rfl⟩
    exact Option.isSome_iff_exists.mpr ⟨ns, Table.mem_rows.mp hr⟩
  · intro h
    obtain ⟨ns, hl⟩ := Option.isSome_iff_exists.mp h
    exact ⟨(⟨k, id⟩, ns), Table.mem_rows.mpr hl, rfl, rfl⟩

/-- The `UNION` has the jobs published under the goal and those added to it. -/
theorem mem_candidateIDs :
    id ∈ candidateIDs s k ↔
      (∃ row, s.jobs.lookup ⟨k.tenantId, id⟩ = some row ∧ row.goalID = k.goalID) ∨
        ((view s).extra k id).isSome := by
  unfold candidateIDs
  rw [mem_sortStrings, List.mem_dedup, List.mem_append, List.mem_map,
    List.mem_map, ← mem_candidates]
  refine or_congr ⟨?_, ?_⟩ (by simp [List.mem_filter, and_assoc])
  · rintro ⟨⟨⟨tenant, id'⟩, row⟩, hr, rfl⟩
    obtain ⟨hrow, hp⟩ := List.mem_filter.mp hr
    obtain ⟨rfl, hgoal⟩ := of_decide_eq_true hp
    exact ⟨row, Table.mem_rows.mp hrow, hgoal⟩
  · rintro ⟨row, hl, hgoal⟩
    exact ⟨(⟨k.tenantId, id⟩, row),
      List.mem_filter.mpr ⟨Table.mem_rows.mpr hl, decide_eq_true ⟨rfl, hgoal⟩⟩, rfl⟩

theorem candidates_ok (h : Inv s) {js : List Job} (hc : candidates s k = .ok js) (j : Job) :
    j ∈ js ↔ (view s).Candidate k j := by
  unfold candidates at hc
  rw [mem_mapM_iff hc]
  constructor
  · rintro ⟨id, hid, hj⟩
    have hstored := job_eq_ok.mp hj
    rw [h.keyed.candidate_iff hstored]
    refine (mem_candidateIDs.mp hid).imp_left ?_
    rintro ⟨row, hl, hgoal⟩
    obtain ⟨row', hl', rfl⟩ := Option.map_eq_some_iff.mp hstored
    obtain rfl : row' = row := Option.some.inj (hl'.symm.trans hl)
    exact hgoal
  · rintro ⟨hstored, htenant, hlisted⟩
    have hkey : j.key = ⟨k.tenantId, j.key.jobId⟩ := by rw [← htenant]
    refine ⟨j.key.jobId, mem_candidateIDs.mpr ?_, job_eq_ok.mpr (hkey ▸ hstored)⟩
    refine hlisted.imp_left fun hgoal => ?_
    obtain ⟨row, hl, hrow⟩ := Option.map_eq_some_iff.mp hstored
    refine ⟨row, hkey ▸ hl, ?_⟩
    rw [← hgoal, ← hrow]
    rfl

/-! Rows selected from the waits lie under their own keys. -/

theorem consumerWaits_ok (h : Inv s) {k : JobKey} (hws : consumerWaits s k = .ok ws)
    (w : DependencyWaitInfo) :
    w ∈ ws ↔ w.jobKey = k ∧ w.state = .pending ∧ (view s).wait w.key = some w := by
  obtain rfl := Except.ok.inj hws
  rw [List.mem_map]
  constructor
  · rintro ⟨⟨k', row⟩, hr, rfl⟩
    obtain ⟨hrow, hp⟩ := List.mem_filter.mp hr
    obtain ⟨hkey, hstate⟩ := of_decide_eq_true hp
    have hl := Table.mem_rows.mp hrow
    have hstate' : row.payload.state = .pending := h.waits.state hl ▸ hstate
    have hstored : s.waits.lookup row.payload.key = some row := (h.waits.key hl).symm ▸ hl
    refine ⟨?_, hstate', Option.map_eq_some_iff.mpr ⟨row, hstored, rfl⟩⟩
    rw [← hkey, ← h.waits.key hl]
    rfl
  · rintro ⟨hkey, hstate, hstored⟩
    obtain ⟨row, hl, rfl⟩ := Option.map_eq_some_iff.mp hstored
    refine ⟨(row.payload.key, row), List.mem_filter.mpr ⟨Table.mem_rows.mpr hl, ?_⟩, rfl⟩
    exact decide_eq_true ⟨hkey, (h.waits.state hl).trans hstate⟩

theorem targetWaits_ok (h : Inv s) {tenant : String} {t : DependencyTarget}
    (hws : targetWaits s tenant t = .ok ws) (w : DependencyWaitInfo) :
    w ∈ ws ↔ (view s).wait w.key = some w ∧ w.jobKey.tenantId = tenant ∧ w.state = .pending ∧
      ∃ d ∈ w.dependencies, d.state = .pending ∧ d.target.node = t.node := by
  rw [h.waits.mem_targetWaits hws]
  exact and_congr_left fun _ => Option.map_eq_some_iff.symm

/-! ## Writes -/

/-- A row is written under the job's key. -/
theorem setRow_ok (h : Inv s) (row : JobRow) :
    Inv { s with jobs := s.jobs.insert row.key row } ∧
      view { s with jobs := s.jobs.insert row.key row } = (view s).setJob (goalJob row) := by
  refine ⟨⟨Table.keyed_insert rfl (fun _ _ => h.job) _ _, h.goal,
    ⟨h.waits.key, h.waits.state, h.waits.copied, h.waits.index⟩⟩, ?_⟩
  unfold view View.setJob
  congr 1
  funext k
  rw [Table.lookup_insert_eq, Function.update_apply]
  change _ = if k = row.key then _ else _
  split <;> rfl

end GoalStore

/-! ## The scheduler around the goal store -/

/-- A row for a new job with the given facts; the goal store reads none of the other columns. -/
def newRow (j : Job) : JobRow where
  cell := ⟨"", "", ""⟩
  goalID := j.goalID
  tenantID := j.key.tenantId
  jobID := j.key.jobId
  jobType := ""
  nextRoute := { jobType := "" }
  availableAtNS := timeToNS j.createdAt
  createdAtNS := timeToNS j.createdAt
  updatedAtNS := timeToNS j.createdAt

/-- The insert of a new job, live and with a creation time that the column holds. -/
def insertJob (j : Job) (s : State) : Except Err State :=
  if (s.jobs.lookup j.key).isSome then .error (.conflict "")
  else if goalJob (newRow j) ≠ j then .error (.store "job facts do not fit the row")
  else .ok { s with jobs := s.jobs.insert j.key (newRow j) }

/-- The outcome of a job that has none yet. -/
def finishJob (k : JobKey) (success : Bool) (s : State) : Except Err State :=
  match s.jobs.lookup k with
  | none => .error .jobNotFound
  | some row =>
    if row.archivedAtNS.isSome then .error .executionLeaseLost
    else .ok { s with
      jobs :=
        s.jobs.insert k (row.completed (if success then "success" else "failed_app") "" s.now) }

/-- The goal store with the scheduler's two writes. -/
def schedulerStore : SchedulerStore State :=
  { goalStore with insertJob := insertJob, finishJob := finishJob }

namespace GoalStore

variable {s s' : State}

/-! ## The cycle search stays among the targets the tables mention -/

theorem job_mem_mentioned {k : JobKey} {j : Job} (hj : (view s).job k = some j) :
    { jobID := k.jobId } ∈ mentioned s := by
  obtain ⟨row, hl, -⟩ := Option.map_eq_some_iff.mp hj
  exact List.mem_append_left _ (List.mem_map.mpr ⟨(k, row), Table.mem_rows.mpr hl, rfl⟩)

theorem dependency_mem_mentioned {k : DependencyWaitKey} {w : DependencyWaitInfo}
    (hw : (view s).wait k = some w) {d : DependencyResolution} (hd : d ∈ w.dependencies) :
    d.target ∈ mentioned s := by
  obtain ⟨row, hl, rfl⟩ := Option.map_eq_some_iff.mp hw
  refine List.mem_append_right _ (List.mem_flatMap.mpr ⟨(k, row), Table.mem_rows.mpr hl, ?_⟩)
  exact List.mem_map.mpr ⟨d, hd, rfl⟩

theorem successors_mentioned (h : Inv s) {now : Time} {tenant : String} {n : DependencyTarget}
    {next : List DependencyTarget} (hn : Engine.successors goalStore now s tenant n = .ok next) :
    ∀ m ∈ next, m ∈ mentioned s := by
  intro m hm
  obtain ⟨g, js, j, -, -, -, hjs, hj, -, rfl⟩ | ⟨j, ws, w, d, -, -, -, hws, hw, -, hd, -, rfl⟩ :=
    Engine.mem_successors hn hm
  · exact job_mem_mentioned ((candidates_ok h hjs j).mp hj).stored
  · exact dependency_mem_mentioned ((consumerWaits_ok h hws w).mp hw).2.2 hd

/-- **The SQL tables meet the engine's contract.** -/
def lawful : LawfulStore schedulerStore where
  view := view
  Inv := Inv
  keyed := Inv.keyed
  job_ok _ hj := job_eq_ok.mp hj
  goal_ok _ hg := goal_eq_ok.mp hg
  goal_none {s k} _ hg := by
    change goal s k = _ at hg
    rw [goal] at hg
    rw [view_goal]
    cases hl : s.goals.lookup k with
    | none => rfl
    | some row => simp [hl] at hg
  candidates_ok h hc := candidates_ok h hc
  goals_ok h hg gk := by
    obtain ⟨j, hj, rfl⟩ := map_eq_ok.mp hg
    rw [h.keyed.exists_candidate_iff (job_eq_ok.mp hj), List.mem_cons,
      List.mem_map, ← mem_candidates]
    unfold otherGoals
    simp only [mem_sortStrings, List.mem_map, List.mem_filter]
    constructor
    · rintro (rfl | ⟨id, ⟨r, ⟨hr, hp⟩, rfl⟩, rfl⟩)
      · exact ⟨rfl, .inl rfl⟩
      · obtain ⟨ht, hid⟩ := of_decide_eq_true hp
        exact ⟨rfl, .inr ⟨r, hr, by rw [← ht], hid⟩⟩
    · rintro ⟨ht, hg | ⟨r, hr, rfl, hid⟩⟩
      · exact .inl (by rw [ht, hg])
      · exact .inr ⟨_, ⟨r, ⟨hr, decide_eq_true ⟨ht.symm, hid⟩⟩, rfl⟩, by rw [ht]⟩
  candidate_ok h hc j hj := by
    obtain ⟨j', hj', hc⟩ := bind_eq_ok.mp hc
    obtain rfl : j' = j := Option.some.inj ((job_eq_ok.mp hj').symm.trans hj)
    rw [h.keyed.candidate_iff hj]
    split at hc
    · next hgoal =>
      cases hc
      simp [hgoal]
    · next hgoal =>
      cases hc
      simp only [hgoal, false_or]
      rfl
  wait_ok _ hw := wait_eq_ok.mp hw
  wait_none {s k} _ hw := by
    change wait s k = _ at hw
    rw [wait] at hw
    rw [view_wait]
    cases hl : s.waits.lookup k with
    | none => rfl
    | some row => simp [hl] at hw
  consumerWaits_ok h hw := consumerWaits_ok h hw
  consumerWaits_nodup {s k _} h hw := by
    cases hw
    have hkeys : ((s.waits.rows.filter fun r => r.1.jobKey = k ∧ r.2.state = .pending).map
        (·.2.payload)).map (·.key) =
        (s.waits.rows.filter fun r => r.1.jobKey = k ∧ r.2.state = .pending).map (·.1) := by
      rw [List.map_map]
      refine List.map_congr_left fun r hr => ?_
      exact h.waits.key (Table.mem_rows.mp (List.mem_filter.mp hr).1)
    rw [hkeys]
    exact (Table.nodup_rows s.waits).sublist (List.filter_sublist.map _)
  targetWaits_stored h hws w hw := by
    obtain ⟨hstored, -, hstate, -⟩ := (targetWaits_ok h hws w).mp hw
    exact ⟨hstate, hstored⟩
  targetWaits_complete h hws w hstored htenant hstate := by
    rintro ⟨d, hd, hpending, rfl⟩
    exact (targetWaits_ok h hws w).mpr ⟨hstored, htenant, hstate, d, hd, hpending, rfl⟩
  targetWaits_nodup {s tenant t _} h hws := by
    -- a wait has one index row for a node, so it is found once
    cases hws
    refine ((List.perm_insertionSort _ _).map _).nodup_iff.mpr ?_
    have hsub :
      (((s.targets.filter fun r => r.wait.jobKey.tenantId = tenant ∧ r.target = t.node).filterMap
        fun r => (s.waits.lookup r.wait).map (·.payload)).map (·.key)) =
        (s.targets.filter fun r => r.wait.jobKey.tenantId = tenant ∧ r.target = t.node).map
        (·.wait) := by
      rw [List.map_filterMap, ← List.filterMap_eq_map]
      refine List.filterMap_congr fun r hr => ?_
      obtain ⟨row, hl, -⟩ := (h.waits.index.mem r).mp (List.mem_filter.mp hr).1
      rw [hl]
      exact congrArg some (h.waits.key hl)
    rw [hsub]
    refine List.Nodup.map_on ?_ (h.waits.index.nodup.filter _)
    rintro ⟨wait, target⟩ hr ⟨wait', target'⟩ hr' hwait
    obtain ⟨-, htarget⟩ := of_decide_eq_true (List.mem_filter.mp hr).2
    obtain ⟨-, htarget'⟩ := of_decide_eq_true (List.mem_filter.mp hr').2
    exact congrArg₂ TargetKey.mk hwait (htarget.trans htarget'.symm)
  saveGoal_ok {g s s'} h hw := by
    -- the new row differs from `g` in its cell columns only
    obtain ⟨row, hrow, rfl⟩ : ∃ row : GoalRow, row.payload = g.copy ∧
        s' = { s with goals := s.goals.insert g.goalKey row } := by
      change saveGoal g s = _ at hw
      unfold saveGoal at hw
      split at hw <;> exact ⟨_, rfl, (Except.ok.inj hw).symm⟩
    have hkey : (goalInfo row).goalKey = g.goalKey := by
      unfold goalInfo
      rw [hrow]
      rfl
    have hpayload : row.payload.goalKey = g.goalKey := by rw [hrow]; rfl
    refine ⟨⟨h.job, Table.keyed_insert (v := row) hpayload (fun _ _ => h.goal) _ _,
        ⟨h.waits.key, h.waits.state, h.waits.copied, h.waits.index⟩⟩,
      goalInfo row, ?_, ?_⟩
    · unfold GoalInfo.SavedAs goalInfo
      rw [hrow]
    · unfold view View.setGoal
      congr 1
      funext k
      rw [Table.lookup_insert_eq, Function.update_apply, hkey]
      split <;> rfl
  insertCandidate_ok {gk id t s _} h hw := by
    change insertCandidate gk id t s = _ at hw
    unfold insertCandidate at hw
    split at hw <;> cases hw
    refine ⟨⟨h.job, h.goal, ⟨h.waits.key, h.waits.state, h.waits.copied, h.waits.index⟩⟩,
      timeFromNS (timeToNS t), ?_⟩
    unfold view View.setExtra
    congr 1
    funext gk' id'
    rw [Table.lookup_insert_eq]
    simp only [CandidateKey.mk.injEq]
    split <;> rfl
  saveWait_ok {w s _} h hw := by
    have htables := h.waits.saveWait hw
    change saveWait w s = _ at hw
    unfold saveWait at hw
    split at hw
    · obtain rfl := Except.ok.inj hw
      refine ⟨⟨h.job, h.goal, htables⟩, ?_⟩
      unfold view View.setWait
      congr 1
      funext k
      rw [Table.lookup_insert_eq, Function.update_apply, DependencyWaitInfo.copy_key]
      split <;> rfl
    · cases hw
  insertJob_ok {j s _} h hw := by
    change insertJob j s = _ at hw
    unfold insertJob at hw
    rw [ite_error_eq_ok, ite_error_eq_ok] at hw
    obtain ⟨habsent, hfits, hw⟩ := hw
    obtain rfl := Except.ok.inj hw
    have hjob : goalJob (newRow j) = j := not_not.mp hfits
    obtain ⟨hinv, hview⟩ := setRow_ok h (newRow j)
    refine ⟨hinv, ?_, hview.trans (by rw [hjob])⟩
    have hnone : s.jobs.lookup j.key = none := by simpa using habsent
    rw [view_job, hnone]
    rfl
  finishJob_ok {k success s _} h hw := by
    change finishJob k success s = _ at hw
    unfold finishJob at hw
    split at hw
    · cases hw
    · next row hl =>
      rw [ite_error_eq_ok] at hw
      obtain ⟨hlive, hw⟩ := hw
      obtain rfl := Except.ok.inj hw
      obtain rfl := h.job hl
      obtain ⟨hinv, hview⟩ := setRow_ok h
        (row.completed (if success then "success" else "failed_app") "" s.now)
      have hdone : goalJob (row.completed (if success then "success" else "failed_app") "" s.now) =
          { goalJob row with terminal := true, success := success } := by
        cases success <;> rfl
      refine ⟨hinv, goalJob row, ?_, by simpa [goalJob] using hlive, ?_⟩
      · rw [view_job, hl]
        rfl
      · rw [← hdone]
        exact hview
  size_bound h := ⟨_, le_rfl, fun _ _ _ _ hn => successors_mentioned h hn⟩

end GoalStore

end JobDB.Sqlite
