import JobDB.Goal.Wakeup

/-!
# A wait that is read is answered

A store may refuse any query, so the engine's theorems say nothing about a read that fails. The
backends here refuse only what is not there (`LawfulStore.Answers`), and after a history of
operations everything that a stored wait refers to is there: `Evaluate` answers for every stored
wait.

What it answers can be told from the stored state and the deadline alone (`ready`). A wait that is
stored as pending has no decided target, so reading its targets can only confirm that it is pending;
this is what lets a scheduler test whether a job may run without looking at any target.
-/

namespace JobDB

/-- A query about something that is there is answered. -/
structure LawfulStore.Answers {σ : Type} {S : SchedulerStore σ} (L : LawfulStore S) : Prop where
  job : ∀ {s k j}, L.Inv s → (L.view s).job k = some j → S.job s k = .ok j
  goal : ∀ {s k g}, L.Inv s → (L.view s).goal k = some g → S.goal s k = .ok g
  candidates : ∀ {s k}, L.Inv s →
    (∀ id, ((L.view s).extra k id).isSome → ∃ j, (L.view s).job ⟨k.tenantId, id⟩ = some j) →
    ∃ js, S.candidates s k = .ok js

/-- The wait is decided, or its deadline has passed. -/
def DependencyWaitInfo.ready (w : DependencyWaitInfo) (now : Time) : Bool :=
  w.state ≠ .pending ∨ w.expired now

namespace Engine

section Answers

variable {σ : Type} {S : SchedulerStore σ} {L : LawfulStore S} (A : L.Answers) {s : σ} (now : Time)
  {tenant : String}

include A

/-- A pending dependency on an unsettled target is evaluated, and stays pending. -/
theorem evaluateDependency_answers (hi : L.Inv s) (hg : GoalInv NoPair (L.view s))
    {d : DependencyResolution} (hd : d.state = .pending)
    (hu : (L.view s).Unsettled tenant d.target.node) :
    ∃ d', evaluateDependency S.toStore now s tenant d = .ok d' ∧ d'.state = .pending := by
  have hanswer : ∃ d', evaluateDependency S.toStore now s tenant d = .ok d' := by
    unfold evaluateDependency
    by_cases hgoal : d.target.goalID ≠ ""
    · have hnode : d.target.node = .goal d.target.goalID := if_pos hgoal
      rw [hnode] at hu
      obtain ⟨g, hstored, hopen⟩ := hu
      have hkey := (L.keyed hi).goal _ _ hstored
      obtain ⟨js, hjs⟩ := A.candidates (k := g.goalKey) hi fun id hx => hg.listed hx
      rw [if_pos hgoal, A.goal hi hstored]
      simp only [bind, Except.bind, hopen, hjs]
      exact ⟨_, rfl⟩
    · have hnode : d.target.node = .job d.target.jobID := if_neg hgoal
      rw [hnode] at hu
      obtain ⟨j, hstored, hlive⟩ := hu
      rw [if_neg hgoal, A.job hi hstored]
      simp only [bind, Except.bind, hlive]
      exact ⟨_, rfl⟩
  obtain ⟨d', hd'⟩ := hanswer
  exact ⟨d', hd', (evaluateDependency_spec L hi hd hd').2.mpr hu⟩

/-- `Evaluate`'s loop runs through dependencies on unsettled targets. -/
theorem scan_answers (hi : L.Inv s) (hg : GoalInv NoPair (L.view s)) :
    ∀ (i : Nat) (ds : List DependencyResolution),
      (∀ d ∈ ds, d.state = .pending → (L.view s).Unsettled tenant d.target.node) →
      ∃ r, scan S.toStore now s tenant i ds = .ok r := by
  intro i ds
  induction ds generalizing i with
  | nil => exact fun _ => ⟨_, rfl⟩
  | cons d ds ih =>
    intro hu
    obtain ⟨r, hr⟩ := ih (i + 1) fun d' hd' => hu d' (List.mem_cons_of_mem _ hd')
    rw [scan]
    by_cases hp : d.state = .pending
    · obtain ⟨d', hd', hstate⟩ := evaluateDependency_answers A now hi hg hp
        (hu d List.mem_cons_self hp)
      rw [if_neg (not_not.mpr hp), hd']
      simp only [bind, Except.bind, hstate, hr]
      exact ⟨_, rfl⟩
    · rw [if_pos hp, hr]
      exact ⟨_, rfl⟩

/-- **`Evaluate` says of a stored wait what its state and its deadline say.** -/
theorem evaluate_stored (hi : L.Inv s) (hg : GoalInv NoPair (L.view s))
    (hw : WaitInv NoneDue (L.view s)) {k : DependencyWaitKey} {w : DependencyWaitInfo}
    (hstored : (L.view s).wait k = some w) :
    ∃ w', evaluate S.toStore now s w = .ok w' ∧ w.ready now = decide (w'.state ≠ .pending) := by
  by_cases hp : w.state = .pending
  · by_cases hx : w.expired now = true
    · refine ⟨closePending { w with state := .timedOut }, ?_, ?_⟩
      · unfold evaluate
        rw [if_neg (not_not.mpr hp), if_pos hx]
      · unfold DependencyWaitInfo.ready
        simp [hx, closePending]
    · -- nothing that the wait is still open for has been decided
      have hu : ∀ d ∈ w.dependencies, d.state = .pending →
          (L.view s).Unsettled w.jobKey.tenantId d.target.node :=
        fun d hd hdp => (hw.unsettled hstored hp d hd hdp).resolve_right id
      obtain ⟨r, hr⟩ := scan_answers A now hi hg 0 w.dependencies hu
      have hanswer : ∃ w', evaluate S.toStore now s w = .ok w' := by
        unfold evaluate
        rw [if_neg (not_not.mpr hp), if_neg hx, hr]
        simp only [bind, Except.bind]
        split <;> exact ⟨_, rfl⟩
      obtain ⟨w', hw'⟩ := hanswer
      have hstate : w'.state = .pending :=
        (evaluate_spec L hi hw').idle hp (by simpa using hx) hu (hw.hasPending hstored hp)
      refine ⟨w', hw', ?_⟩
      unfold DependencyWaitInfo.ready
      simp [hp, hx, hstate]
  · refine ⟨w, ?_, ?_⟩
    · unfold evaluate
      rw [if_pos hp]
    · unfold DependencyWaitInfo.ready
      simp [hp]

/-- The same after any history of operations whose targets name exactly one ID. -/
theorem evaluate_reached {s₀ : σ} (hi : L.Inv s₀) (hempty : L.view s₀ = View.empty)
    (is : List (Time × Op)) (hex : ∀ i ∈ is, i.2.Exact) {k : DependencyWaitKey}
    {w : DependencyWaitInfo} (hstored : (L.view (execAll S is s₀)).wait k = some w) :
    ∃ w', evaluate S.toStore now (execAll S is s₀) w = .ok w' ∧
      w.ready now = decide (w'.state ≠ .pending) := by
  obtain ⟨hi', hrun⟩ := execAll_along L is s₀ hi
  rw [hempty] at hrun
  exact evaluate_stored A now hi' hrun.goalInv (hrun.waitInv hex) hstored

end Answers

/-! ## Two stores with the same answers -/

section Congr

variable {σ τ : Type} {S : Store σ} {S' : Store τ} {s : σ} {s' : τ} {now : Time}
  (hjob : ∀ k, S.job s k = S'.job s' k) (hgoal : ∀ k, S.goal s k = S'.goal s' k)
  (hcand : ∀ k, S.candidates s k = S'.candidates s' k)

include hjob hgoal hcand

theorem scan_congr (tenant : String) (i : Nat) (ds : List DependencyResolution) :
    scan S now s tenant i ds = scan S' now s' tenant i ds := by
  induction ds generalizing i with
  | nil => rfl
  | cons d ds ih =>
    have hd : evaluateDependency S now s tenant d = evaluateDependency S' now s' tenant d := by
      unfold evaluateDependency
      simp only [hjob, hgoal, hcand]
    rw [scan, scan, hd, ih]

/-- `Evaluate` sees a store through three of its queries. -/
theorem evaluate_congr (w : DependencyWaitInfo) : evaluate S now s w = evaluate S' now s' w := by
  unfold evaluate
  rw [scan_congr hjob hgoal hcand]

end Congr

end Engine

end JobDB
