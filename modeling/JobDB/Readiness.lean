import JobDB.Goal.Answers
import JobDB.Sqlite.Available
import JobDB.Sqlite.GoalContract
import JobDB.Toy.Engine

/-!
# When a waiting job may run

A job with a dependency wait is skipped while the wait is pending. Three places test for it, and
none of them asks the goal engine: `dependencyReadyLocked` (`toyimpl/goals.go:217–227`),
`structuredWaitReady` (`sqlite/goals.go:268–285`) and the function `jobdb_list_wait_pending` that
`ListJobs` gives to SQLite (`sqlite/list_jobs.go:31–47`). They look at the stored state and the
deadline.

`readiness_agrees`: after any history of goal, wait and job operations whose targets are exact, each
of them says of a job's current wait what `Evaluate` says. The listing takes its clock as
`UnixNano`, so its clock has to fit.
-/

namespace JobDB

open Engine

/-- A test says of a wait what its evaluation says: ready exactly if the wait is not pending. -/
def AgreesWith (ready : Except Err Bool) (evaluated : Except Err DependencyWaitInfo) : Prop :=
  ∃ w, evaluated = .ok w ∧ ready = .ok (decide (w.state ≠ .pending))

/-! ## Both backends answer -/

theorem Memory.answers : Memory.lawful.Answers where
  job _ hj := Memory.lookupJob_eq_ok.mpr hj
  goal _ hg := Memory.goal_eq_ok.mpr hg
  candidates {s k} _ hlisted := by
    have hadded : ∀ r ∈ s.extras.rows.filter fun r => r.1.goal = k,
        ∃ j, s.lookupJob ⟨k.tenantId, r.1.jobID⟩ = .ok j := by
      intro r hr
      obtain ⟨hrow, hgoal⟩ := List.mem_filter.mp hr
      obtain ⟨⟨gk, id⟩, t⟩ := r
      obtain rfl : gk = k := of_decide_eq_true hgoal
      obtain ⟨j, hj⟩ := hlisted id (Option.isSome_iff_exists.mpr ⟨t, Table.mem_rows.mp hrow⟩)
      exact ⟨j, Memory.lookupJob_eq_ok.mpr hj⟩
    obtain ⟨js, hjs⟩ := exists_mapM hadded
    exact ⟨_, by
      change s.candidates k = _
      unfold Memory.candidates
      rw [hjs]
      rfl⟩

theorem Sqlite.GoalStore.answers : Sqlite.GoalStore.lawful.Answers where
  job _ hj := job_eq_ok.mpr hj
  goal _ hg := goal_eq_ok.mpr hg
  candidates {s k} _ hlisted := by
    refine exists_mapM fun id hid => ?_
    rcases mem_candidateIDs.mp hid with ⟨row, hl, -⟩ | hextra
    · exact ⟨goalJob row, job_eq_ok.mpr (Option.map_eq_some_iff.mpr ⟨row, hl, rfl⟩)⟩
    · obtain ⟨j, hj⟩ := hlisted id hextra
      exact ⟨j, job_eq_ok.mpr hj⟩

/-! ## The three tests -/

namespace Toy

variable {e : Jobs} {k : JobKey} {r : JobRecord} {w : DependencyWaitInfo} {now : Time}

theorem waitPending_eq (w : DependencyWaitInfo) (now : Time) :
    (!waitPending w now) = w.ready now := by
  unfold waitPending DependencyWaitInfo.ready
  by_cases hp : w.state = .pending <;> cases hx : w.expired now <;> simp [hp]

theorem dependencyReady_eq (hid : r.dependencyWaitID ≠ "")
    (hw : e.goals.wait ⟨k, r.dependencyWaitID⟩ = .ok w) :
    e.dependencyReady k r now = .ok (w.ready now) := by
  unfold Jobs.dependencyReady
  rw [if_neg hid, hw]
  exact congrArg Except.ok (waitPending_eq w now)

/-- The engine evaluates a wait against the goals and the facts read off the records. -/
theorem evaluate_facts (e : Jobs) (w : DependencyWaitInfo) (now : Time) :
    evaluate goalStore now e w = evaluate Memory.store.toStore now e.facts w := by
  have hjob : ∀ k, goalStore.job e k = Memory.store.job e.facts k := fun _ => rfl
  have hgoal : ∀ k, goalStore.goal e k = Memory.store.goal e.facts k := fun _ => rfl
  have hcand : ∀ k, goalStore.candidates e k = Memory.store.candidates e.facts k := fun _ => rfl
  exact evaluate_congr hjob hgoal hcand w

end Toy

namespace Sqlite

variable {s : State} {row : JobRow} {w : DependencyWaitInfo} {now : Time}

theorem structuredWaitReady_eq (hid : row.dependencyWaitID ≠ "")
    (hw : GoalStore.wait s ⟨row.key, row.dependencyWaitID⟩ = .ok w) :
    structuredWaitReady s row now = .ok (w.ready now) := by
  unfold structuredWaitReady
  obtain ⟨stored, hl, rfl⟩ := Option.map_eq_some_iff.mp (GoalStore.wait_eq_ok.mp hw)
  rw [if_neg hid, hl]
  rfl

/-- What the listing computes for a wait that is looked up at a clock reading, turned around. -/
def listWaitReady (s : State) (row : JobRow) (now : Time) : Except Err Bool :=
  (listWaitPending (joinedWait s row) (unixNano now)).map (!·)

theorem listWaitReady_eq (hid : row.dependencyWaitID ≠ "") (hlow : -2 ^ 63 ≤ now)
    (hhigh : now < 2 ^ 63) : listWaitReady s row now = structuredWaitReady s row now := by
  unfold listWaitReady
  rw [unixNano_of_range hlow hhigh, listWaitPending_eq hid]
  cases structuredWaitReady s row now with
  | error e => rfl
  | ok ready => exact congrArg Except.ok (Bool.not_not ready)

end Sqlite

/-- **The readiness tests agree with `Evaluate`.** After every history of operations whose targets
name exactly one ID, and at every clock reading: the in-process test for a record with a stored
wait, and both tests of SQLite for a row with one; the listing's where the clock reading fits into
64 bits of nanoseconds. -/
theorem readiness_agrees (is : List (Time × Op)) (hex : ∀ i ∈ is, i.2.Exact) (now : Time) :
    (∀ (e : Toy.Jobs) (k : JobKey) (r : Toy.JobRecord) (w : DependencyWaitInfo),
      e.facts = execAll Memory.store is {} → r.dependencyWaitID ≠ "" →
      e.goals.wait ⟨k, r.dependencyWaitID⟩ = .ok w →
      AgreesWith (e.dependencyReady k r now) (evaluate Toy.goalStore now e w)) ∧
    ∀ (t : Time) (row : Sqlite.JobRow) (w : DependencyWaitInfo), row.dependencyWaitID ≠ "" →
      Sqlite.GoalStore.wait (execAll Sqlite.schedulerStore is { now := t })
        ⟨row.key, row.dependencyWaitID⟩ = .ok w →
      AgreesWith (Sqlite.structuredWaitReady (execAll Sqlite.schedulerStore is { now := t })
        row now)
        (evaluate Sqlite.goalStore now (execAll Sqlite.schedulerStore is { now := t }) w) ∧
      (-2 ^ 63 ≤ now → now < 2 ^ 63 →
        AgreesWith (Sqlite.listWaitReady (execAll Sqlite.schedulerStore is { now := t }) row now)
          (evaluate Sqlite.goalStore now (execAll Sqlite.schedulerStore is { now := t }) w)) := by
  constructor
  · intro e k r w hfacts hid hw
    have hstored : (execAll Memory.store is {}).view.wait ⟨k, r.dependencyWaitID⟩ = some w := by
      rw [← hfacts]
      exact Memory.wait_eq_ok.mp hw
    obtain ⟨w', hw', hready⟩ :=
      evaluate_reached Memory.answers now Memory.Inv.empty Memory.view_empty
      is hex hstored
    refine ⟨w', ?_, ?_⟩
    · rw [Toy.evaluate_facts, hfacts]
      exact hw'
    · rw [Toy.dependencyReady_eq hid hw, hready]
  · intro t row w hid hw
    obtain ⟨w', hw', hready⟩ := evaluate_reached Sqlite.GoalStore.answers now
      (Sqlite.GoalStore.Inv.of_empty t) rfl is hex (Sqlite.GoalStore.wait_eq_ok.mp hw)
    have hstructured : AgreesWith
        (Sqlite.structuredWaitReady (execAll Sqlite.schedulerStore is { now := t }) row now)
        (evaluate Sqlite.goalStore now (execAll Sqlite.schedulerStore is { now := t }) w) :=
      ⟨w', hw', by rw [Sqlite.structuredWaitReady_eq hid hw, hready]⟩
    refine ⟨hstructured, fun hlow hhigh => ?_⟩
    rw [Sqlite.listWaitReady_eq hid hlow hhigh]
    exact hstructured

/-- Job `a` is published, then job `b`, which waits for the goal of `a` until time 9. -/
def waitsForGoal : List (Time × Op) :=
  [(1, .publish { key := ⟨"t", "a"⟩, goalID := "g1", shareGoal := false, createdAt := 1 }),
   (1, .publish { key := ⟨"t", "b"⟩, goalID := "g2", shareGoal := false, createdAt := 1 }),
   (1, .register ⟨"t", "b"⟩
     { waitID := "w", dependencies := [⟨{ goalID := "g1" }, .success⟩],
       deadline := some ⟨9, 0, none⟩ } false)]

/-- The row of job `b`. -/
def waitingRow : Sqlite.JobRow :=
  { Sqlite.newRow ⟨⟨"t", "b"⟩, "g2", false, false, 1⟩ with dependencyWaitID := "w" }

/-- At time 3 the listing finds the wait for the open goal pending, as `Evaluate` does. -/
theorem open_goal_not_ready :
    ∃ w, Sqlite.GoalStore.wait (execAll Sqlite.schedulerStore waitsForGoal { now := 1 })
        ⟨waitingRow.key, "w"⟩ = .ok w ∧
      AgreesWith (.ok false)
        (evaluate Sqlite.goalStore 3 (execAll Sqlite.schedulerStore waitsForGoal { now := 1 })
          w) := by
  refine ⟨_, rfl, ?_⟩
  exact ((readiness_agrees waitsForGoal (by decide) 3).2 1 waitingRow _ (by decide) rfl).2
    (by decide)
    (by decide)

/-- The records of the in-process engine after job `a` has won its goal. -/
def afterSuccess : Toy.Jobs where
  jobRecords := (∅ : Table JobKey Toy.JobRecord)
    |>.insert ⟨"t", " "⟩
      { cell := ⟨"", "", ""⟩, goalID := "g0", status := .ready, jobType := "", createdAt := 0,
        route := { jobType := "" } }
    |>.insert ⟨"t", "b"⟩
      { cell := ⟨"", "", ""⟩, goalID := "g2", dependencyWaitID := "w", status := .pendingJobs,
        jobType := "", createdAt := 0, route := { jobType := "" } }
    |>.insert ⟨"t", "a"⟩
      { cell := ⟨"", "", ""⟩, goalID := "g1", status := .completed, jobType := "", createdAt := 0,
        archived := some 1, completionStatus := "success", route := { jobType := "" } }
  goals := execAll Memory.store
    (waitingFor { jobID := " ", goalID := "g1" } ++ [(1, .finish ⟨"t", "a"⟩ true)]) {}

/-- A wait for the target with the job ID `" "` and the goal ID `g1` is not woken when the goal
succeeds. The in-process test finds it pending at time 2, and `Evaluate` finds it satisfied. -/
theorem blank_jobID_not_ready :
    ¬ ∀ (is : List (Time × Op)) (now : Time) (e : Toy.Jobs) (k : JobKey) (r : Toy.JobRecord)
      (w : DependencyWaitInfo), e.facts = execAll Memory.store is {} → r.dependencyWaitID ≠ "" →
      e.goals.wait ⟨k, r.dependencyWaitID⟩ = .ok w →
      AgreesWith (e.dependencyReady k r now) (evaluate Toy.goalStore now e w) := by
  intro h
  obtain ⟨w, hevaluated, hready⟩ := h
    (waitingFor { jobID := " ", goalID := "g1" } ++ [(1, .finish ⟨"t", "a"⟩ true)]) 2 afterSuccess
    ⟨"t", "b"⟩ { cell := ⟨"", "", ""⟩, goalID := "g2", dependencyWaitID := "w",
                 status := .pendingJobs,
                 jobType := "", createdAt := 0, route := { jobType := "" } } _ rfl (by decide) rfl
  obtain rfl := Except.ok.inj hevaluated
  exact absurd hready (by decide)

end JobDB
