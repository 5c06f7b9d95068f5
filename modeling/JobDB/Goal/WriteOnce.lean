import JobDB.Goal.Wakeup

/-!
# Wait resolutions are write-once

`Evaluate` projects a passed deadline onto a wait without storing it
(`GetDependencyWait`, `sqlite/goals.go:235–254`), so a reader may be told of a
timeout that no row records yet. Whatever writes the row later has to record
exactly that.

`FinalAt t r w` is what makes it so: the stored wait has the verdict `r`, or it
is still pending with a deadline at or before `t` and times out to `r`. Every
effect at a clock reading of `t` or later keeps it (`keeps_allowed`). That a reader
who saw a resolution puts the wait into `FinalAt` rests on the wait invariant:
without a passed deadline a pending wait has nothing decided to report.
-/

namespace JobDB

open Engine View

/-- What a read reports: the state, the failed dependency, and each
dependency's state and satisfying job. -/
def DependencyWaitInfo.verdict (w : DependencyWaitInfo) :
    DependencyState × Option Nat × List (DependencyState × String) :=
  (w.state, w.failedDependencyIndex, w.dependencies.map fun d => (d.state, d.satisfiedByJobID))

/-- A pending wait after its deadline. -/
def timedOut (w : DependencyWaitInfo) : DependencyWaitInfo :=
  closePending { w with state := .timedOut }

@[simp] theorem verdict_copy (w : DependencyWaitInfo) : w.copy.verdict = w.verdict := by
  unfold DependencyWaitInfo.verdict
  rw [DependencyWaitInfo.copy_dependencies, List.map_map]
  rfl

/-- Closing a wait that has no pending dependency left changes no verdict. -/
theorem verdict_closePending_timedOut (w : DependencyWaitInfo) :
    (closePending (timedOut w)).verdict = (timedOut w).verdict := by
  unfold timedOut closePending DependencyWaitInfo.verdict
  simp only [List.map_map, Prod.mk.injEq, true_and]
  refine List.map_congr_left fun d _ => ?_
  by_cases hp : d.state = .pending
  · simp [hp]
  · simp [hp]

/-- From `t` on, every read of the wait gives the verdict `r`. -/
def FinalAt (t : Time) (r : DependencyState × Option Nat × List (DependencyState × String))
    (w : DependencyWaitInfo) : Prop :=
  (w.state ≠ .pending ∧ w.verdict = r) ∨
    (w.state = .pending ∧ w.expired t = true ∧ (timedOut w).verdict = r)

section FinalAt

variable {t now : Time} {r : DependencyState × Option Nat × List (DependencyState × String)}
  {v : View} {w w' : DependencyWaitInfo}

theorem expired_mono (h : t ≤ now) (he : w.expired t = true) : w.expired now = true := by
  unfold DependencyWaitInfo.expired at he ⊢
  cases hd : w.deadline with
  | none => rw [hd] at he; cases he
  | some d =>
    rw [hd] at he
    simp only [Option.any_some, decide_eq_true_eq] at he ⊢
    exact Int.le_trans he h

/-- A later read gives the verdict. -/
theorem FinalAt.read (h : FinalAt t r w) (hle : t ≤ now) (he : Evaluated v now w w') :
    w'.state ≠ .pending ∧ w'.verdict = r := by
  rcases h with ⟨hne, hr⟩ | ⟨hp, hex, hr⟩
  · rw [he.resolved hne]
    exact ⟨hne, hr⟩
  · rw [he.expired hp (expired_mono hle hex)]
    exact ⟨by simp [closePending], hr⟩

theorem FinalAt.settled (h : FinalAt t r w) (hle : t ≤ now) (he : Evaluated v now w w') :
    FinalAt t r w'.copy := by
  obtain ⟨hne, hr⟩ := h.read hle he
  exact Or.inl ⟨hne, (verdict_copy w').trans hr⟩

/-- A pending wait that is closed after its deadline is closed as timed out. -/
theorem FinalAt.closed (h : FinalAt t r w) (hp : w.state = .pending) (hle : t ≤ now)
    (he : Evaluated v now w w') : FinalAt t r (closed w').copy := by
  obtain ⟨hne, _⟩ | ⟨_, hex, hr⟩ := h
  · exact absurd hp hne
  · refine Or.inl ⟨closed_not_pending w', ?_⟩
    rw [verdict_copy, he.expired hp (expired_mono hle hex)]
    show (closePending (timedOut w)).verdict = r
    rw [verdict_closePending_timedOut, hr]

/-- A read that reports a resolution fixes the verdict, given that the pending
dependencies of a pending wait have unsettled targets. -/
theorem Engine.Evaluated.finalAt (he : Evaluated v t w w')
    (hpend : w.state = .pending → ∃ d ∈ w.dependencies, d.state = .pending)
    (hun : w.state = .pending → ∀ d ∈ w.dependencies, d.state = .pending →
      v.Unsettled w.jobKey.tenantId d.target.node)
    (hres : w'.state ≠ .pending) : FinalAt t w'.verdict w := by
  by_cases hp : w.state = .pending
  · cases hex : w.expired t with
    | true =>
      refine Or.inr ⟨hp, hex, ?_⟩
      rw [he.expired hp hex]
      rfl
    | false => exact absurd (he.idle hp hex (hun hp) (hpend hp)) hres
  · refine Or.inl ⟨hp, ?_⟩
    rw [he.resolved hp]

end FinalAt

/-! ## Every effect keeps it -/

/-- A wait that is final from `t` on stays final, with the same verdict. -/
def Keeps (t : Time) (k : DependencyWaitKey)
    (r : DependencyState × Option Nat × List (DependencyState × String)) (v v' : View) : Prop :=
  ∀ w, v.wait k = some w → FinalAt t r w → ∃ w', v'.wait k = some w' ∧ FinalAt t r w'

section Keeps

variable {t now : Time} {k : DependencyWaitKey}
  {r : DependencyState × Option Nat × List (DependencyState × String)} {v v' : View}

theorem Keeps.of_wait_eq (h : v'.wait = v.wait) : Keeps t k r v v' :=
  fun w hw hf => ⟨w, h ▸ hw, hf⟩

theorem keeps_allowed (hle : t ≤ now) : AllowsAll now (Keeps t k r) where
  refl _ := .of_wait_eq rfl
  trans h h' w hw hf := by
    obtain ⟨w', hw', hf'⟩ := h w hw hf
    exact h' w' hw' hf'
  settles hs w hw hf := by
    rcases hs.waits k with ⟨hsame, _⟩ | ⟨w₀, w', hw₀, _, he, hw'⟩
    · exact ⟨w, hsame ▸ hw, hf⟩
    · rw [hw, Option.some.injEq] at hw₀
      subst hw₀
      exact ⟨w'.copy, hw', hf.settled hle he⟩
  closes hc w hw hf := by
    rcases hc.waits k with ⟨hsame, _⟩ | ⟨w₀, w', hw₀, _, hp, he, hw'⟩
    · exact ⟨w, hsame ▸ hw, hf⟩
    · rw [hw, Option.some.injEq] at hw₀
      subst hw₀
      exact ⟨(closed w').copy, hw', hf.closed hp hle he⟩
  goal _ := .of_wait_eq rfl
  finishes hf := by
    obtain ⟨_, _⟩ := hf
    exact .of_wait_eq rfl
  registers {key req v v'} hr w hw hf := by
    cases hr with
    | @again w₀ w' hst hkey he =>
      rw [setWait_wait]
      split
      · next hk =>
        have hk' : k = ⟨key, req.waitID⟩ := by rw [hk, DependencyWaitInfo.copy_key, he.key, hkey]
        rw [hk', hst, Option.some.injEq] at hw
        subst hw
        exact ⟨w'.copy, rfl, hf.settled hle he⟩
      · exact ⟨w, hw, hf⟩
    | @new w₀ w' habs hkey _ _ he _ =>
      have hne : k ≠ w'.copy.key := by
        rw [DependencyWaitInfo.copy_key, he.key, hkey]
        rintro rfl
        rw [habs] at hw
        cases hw
      exact ⟨w, by rw [setWait_wait, if_neg hne]; exact hw, hf⟩
  lists _ _ _ _ := .of_wait_eq rfl
  inserts hgoal _ _ := by
    cases hgoal <;> exact .of_wait_eq rfl

end Keeps

/-- A history at clock readings of `t` or later keeps it. -/
theorem Along.keeps {t : Time} {k : DependencyWaitKey}
    {r : DependencyState × Option Nat × List (DependencyState × String)} {is : List (Time × Op)}
    {v v' : View} (h : Along Op.Step is v v') (hle : ∀ i ∈ is, t ≤ i.1) : Keeps t k r v v' :=
  h.allowed (fun i hi => keeps_allowed (hle i hi)) (.of_wait_eq rfl)

section Store

variable {σ : Type} {S : SchedulerStore σ} (L : LawfulStore S)

/-- **Wait resolutions are write-once.** If a read of a wait at `t` reports a
resolution, then after any history at clock readings of `t` or later the wait
is still stored, and every read at `t` or later reports the same verdict. -/
theorem wait_write_once {s₀ : σ} (hi : L.Inv s₀) (hempty : L.view s₀ = View.empty)
    (is : List (Time × Op)) (hex : ∀ i ∈ is, i.2.Exact) {k : DependencyWaitKey}
    {w w₁ : DependencyWaitInfo} {t : Time} (hw : (L.view (execAll S is s₀)).wait k = some w)
    (hread : evaluate S.toStore t (execAll S is s₀) w = .ok w₁) (hres : w₁.state ≠ .pending)
    (later : List (Time × Op)) (hle : ∀ i ∈ later, t ≤ i.1) :
    ∃ w', (L.view (execAll S later (execAll S is s₀))).wait k = some w' ∧
      ∀ t' w₂, t ≤ t' →
        evaluate S.toStore t' (execAll S later (execAll S is s₀)) w' = .ok w₂ →
        w₂.verdict = w₁.verdict := by
  obtain ⟨hi₁, hrun⟩ := execAll_along L is s₀ hi
  rw [hempty] at hrun
  have hinv := hrun.waitInv hex
  have hfinal : FinalAt t w₁.verdict w := (evaluate_spec L hi₁ hread).finalAt (hinv.hasPending hw)
    (fun hp d hd hdp => (hinv.unsettled hw hp d hd hdp).resolve_right id) hres
  obtain ⟨hi₂, hrun₂⟩ := execAll_along L later _ hi₁
  obtain ⟨w', hw', hf'⟩ := hrun₂.keeps hle w hw hfinal
  exact ⟨w', hw', fun t' w₂ ht' he => (hf'.read ht' (evaluate_spec L hi₂ he)).2⟩

end Store

/-- A reader at time 9 is told of the timeout; the goal's later success leaves
it at that. -/
theorem wait_write_once_memory :
    ∃ w', (execAll Memory.store [(10, .finish ⟨"t", "a"⟩ true)]
        (execAll Memory.store (waitingFor { goalID := "g1" }) {})).view.wait
          ⟨⟨"t", "b"⟩, "w"⟩ = some w' ∧
      ∀ t' w₂, 9 ≤ t' → evaluate Memory.store.toStore t'
          (execAll Memory.store [(10, .finish ⟨"t", "a"⟩ true)]
            (execAll Memory.store (waitingFor { goalID := "g1" }) {})) w' = .ok w₂ →
        w₂.verdict = (.timedOut, none, [(.cancelled, "")]) := by
  have hw : (execAll Memory.store (waitingFor { goalID := "g1" }) {}).view.wait
      ⟨⟨"t", "b"⟩, "w"⟩ = some
        { jobKey := ⟨"t", "b"⟩, waitID := "w", state := .pending, deadline := some ⟨9, 0, none⟩,
          dependencies :=
            [{ target := { goalID := "g1" }, condition := .success, state := .pending,
               blockedReason := "waiting_for_execution" }] } := rfl
  have hread := wait_write_once (t := 9) Memory.lawful Memory.Inv.empty Memory.view_empty
    (waitingFor { goalID := "g1" }) (by decide) hw rfl (by decide)
    [(10, .finish ⟨"t", "a"⟩ true)] (by decide)
  exact hread

/-- The wait that `wakeup_lost_blank_jobID` leaves behind reads as satisfied at
time 2 and as timed out at time 9, with nothing done in between. -/
theorem read_changes_blank_jobID :
    ¬ ∀ (is later : List (Time × Op)) k w w₁ t,
      (execAll Memory.store is {}).view.wait k = some w →
      evaluate Memory.store.toStore t (execAll Memory.store is {}) w = .ok w₁ →
      w₁.state ≠ .pending → (∀ i ∈ later, t ≤ i.1) →
      ∃ w', (execAll Memory.store later (execAll Memory.store is {})).view.wait k = some w' ∧
        ∀ t' w₂, t ≤ t' →
          evaluate Memory.store.toStore t' (execAll Memory.store later
            (execAll Memory.store is {})) w' = .ok w₂ →
          w₂.verdict = w₁.verdict := by
  intro h
  obtain ⟨w', hw', hread⟩ := h (waitingFor { jobID := " ", goalID := "g1" } ++
    [(1, .finish ⟨"t", "a"⟩ true)]) [] ⟨⟨"t", "b"⟩, "w"⟩ _ _ 2 rfl rfl (by decide) (by simp)
  obtain rfl := Option.some.inj hw'
  exact absurd (hread 9 _ (by decide) rfl) (by decide)

end JobDB
