import JobDB.Goal.Decided

/-!
# No lost wakeup

A wait is woken by the settling pass over the target that decides it. If one
terminal transition forgot its pass, a pending wait would be left with a
decided target, and nothing would ever look at it again.

`WaitInv T` says that this does not happen, up to the targets in `T`: those
decided by the operation in progress whose pass is still to come. Closing a
goal and finishing a job each put one target into `T` (`WaitInv.decideGoal`,
`WaitInv.finishJob`), and the pass takes it out again (`Settles.waitInv`).

The pass finds waits by comparing targets. A target that names both a goal
and a job is not found under the goal alone, so the invariant asks for targets
that name exactly one of the two (`Op.Exact`).
-/

namespace JobDB

open Engine View

/-- Targets whose settling pass is still to come, by tenant. -/
abbrev Due := String → DependencyTarget → Prop

/-- The wait invariant, up to the targets in `T`. -/
structure WaitInv (T : Due) (v : View) : Prop where
  exact : ∀ {k w}, v.wait k = some w → ∀ d ∈ w.dependencies, d.target.Exact
  hasPending : ∀ {k w}, v.wait k = some w → w.state = .pending →
    ∃ d ∈ w.dependencies, d.state = .pending
  unsettled : ∀ {k w}, v.wait k = some w → w.state = .pending → ∀ d ∈ w.dependencies,
    d.state = .pending → v.Unsettled w.jobKey.tenantId d.target.node ∨ T w.jobKey.tenantId d.target

/-- Nothing is due. -/
abbrev NoneDue : Due := fun _ _ => False

/-- The requests of an operation name exactly one ID in each target. -/
def Op.Exact : Op → Prop
  | .publish p => ∀ d ∈ p.dependencies, d.target.Exact
  | .register _ req _ => ∀ d ∈ req.dependencies, d.target.Exact
  | .reschedule _ req => ∀ d ∈ req.dependencies, d.target.Exact
  | _ => True

instance : DecidablePred Op.Exact
  | .publish p => inferInstanceAs (Decidable (∀ d ∈ p.dependencies, d.target.Exact))
  | .register _ req _ => inferInstanceAs (Decidable (∀ d ∈ req.dependencies, d.target.Exact))
  | .reschedule _ req => inferInstanceAs (Decidable (∀ d ∈ req.dependencies, d.target.Exact))
  | .add _ => isTrue trivial
  | .fail _ => isTrue trivial
  | .closeConsumer _ => isTrue trivial
  | .finish _ _ => isTrue trivial
  | .deleteJobs _ => isTrue trivial

/-! ## Targets and nodes -/

variable {t : DependencyTarget} {v v' : View}

theorem DependencyTarget.Exact.eq_goal (h : t.Exact) {id : String} (hn : t.node = .goal id) :
    t = { goalID := id } := by
  unfold DependencyTarget.node at hn
  split at hn
  · next hg =>
    obtain rfl := Node.goal.inj hn
    have hjob : t.jobID = "" := by
      by_contra hne
      exact h (by simp [hne, hg])
    obtain ⟨jobID, goalID⟩ := t
    simp_all
  · cases hn

theorem DependencyTarget.eq_job {id : String} (hn : t.node = .job id) : t = { jobID := id } := by
  unfold DependencyTarget.node at hn
  split at hn
  · cases hn
  · next hg =>
    obtain rfl := Node.job.inj hn
    obtain ⟨jobID, goalID⟩ := t
    simp_all

section Changes

variable {T T' : Due} {v v' : View}

theorem WaitInv.mono (h : WaitInv T v) (sub : ∀ tenant t, T tenant t → T' tenant t) :
    WaitInv T' v :=
  { h with unsettled := fun hw hp d hd hdp => (h.unsettled hw hp d hd hdp).imp_right (sub _ _) }

/-- The waits stay; what was unsettled is so still, or is due now. -/
theorem WaitInv.facts (h : WaitInv T v) (hw : v'.wait = v.wait)
    (hu : ∀ {tenant t}, t.Exact → v.Unsettled tenant t.node →
      v'.Unsettled tenant t.node ∨ T' tenant t)
    (sub : ∀ tenant t, T tenant t → T' tenant t) : WaitInv T' v' where
  exact hk := h.exact (hw ▸ hk)
  hasPending hk := h.hasPending (hw ▸ hk)
  unsettled hk hp d hd hdp := by
    rw [hw] at hk
    rcases h.unsettled hk hp d hd hdp with hn | hn
    · exact hu (h.exact hk d hd) hn
    · exact Or.inr (sub _ _ hn)

/-! ## Waits -/

theorem exact_of_targets {α : Type} {target : α → DependencyTarget} {ds : List α}
    {rs : List DependencyResolution} (h : rs.map (·.target) = ds.map target)
    (hds : ∀ d ∈ ds, (target d).Exact) : ∀ r ∈ rs, r.target.Exact := by
  intro r hr
  obtain ⟨d, hd, heq⟩ := List.mem_map.mp (h ▸ List.mem_map.mpr ⟨r, hr, rfl⟩)
  exact heq ▸ hds d hd

variable {w : DependencyWaitInfo} {now : Time} {key : JobKey} {gk : GoalKey}

theorem mem_copy_dependencies {d : DependencyResolution} :
    d ∈ w.copy.dependencies ↔ ∃ d₀ ∈ w.dependencies, d₀.copy = d := by
  rw [DependencyWaitInfo.copy_dependencies, List.mem_map]

/-- A wait as the store keeps it satisfies the invariant on its own. -/
structure WaitOk (v : View) (w : DependencyWaitInfo) : Prop where
  exact : ∀ d ∈ w.dependencies, d.target.Exact
  hasPending : w.state = .pending → ∃ d ∈ w.dependencies, d.state = .pending
  unsettled : w.state = .pending → ∀ d ∈ w.dependencies, d.state = .pending →
    v.Unsettled w.jobKey.tenantId d.target.node

theorem WaitOk.copy (h : WaitOk v w) : WaitOk v w.copy where
  exact d hd := by
    obtain ⟨d₀, hd₀, rfl⟩ := mem_copy_dependencies.mp hd
    exact h.exact d₀ hd₀
  hasPending hp := by
    obtain ⟨d, hd, hdp⟩ := h.hasPending hp
    exact ⟨d.copy, mem_copy_dependencies.mpr ⟨d, hd, rfl⟩, hdp⟩
  unsettled hp d hd hdp := by
    obtain ⟨d₀, hd₀, rfl⟩ := mem_copy_dependencies.mp hd
    exact h.unsettled hp d₀ hd₀ hdp

/-- What a pass leaves is in order, whatever it started from. -/
theorem Engine.Evaluated.waitOk {w' : DependencyWaitInfo} (he : Evaluated v now w w')
    (hex : ∀ d ∈ w.dependencies, d.target.Exact) : WaitOk v w' where
  exact := exact_of_targets he.targets hex
  hasPending := he.hasPending
  unsettled hp d hd hdp := he.jobKey.symm ▸ he.unsettled hp d hd hdp

theorem WaitOk.facts (h : WaitOk v w) (hf : SameFacts v v') : WaitOk v' w :=
  { h with unsettled := fun hp d hd hdp => (hf.unsettled _ _).mpr (h.unsettled hp d hd hdp) }

theorem closed_dependencies (w : DependencyWaitInfo) :
    (closed w).dependencies = (closePending w).dependencies := by
  unfold closed
  split <;> rfl

theorem Engine.Evaluated.closed_waitOk {w' : DependencyWaitInfo} (he : Evaluated v now w w')
    (hex : ∀ d ∈ w.dependencies, d.target.Exact) : WaitOk v (closed w') where
  exact := by
    have htargets : (closed w').dependencies.map (·.target) = w.dependencies.map (·.target) := by
      rw [closed_dependencies, closePending_targets, he.targets]
    exact exact_of_targets htargets hex
  hasPending hp := absurd hp (closed_not_pending w')
  unsettled hp := absurd hp (closed_not_pending w')

/-- The invariant from wait to wait: each is in order, or an old one whose due targets are
due still. -/
theorem WaitInv.of_waits (h : WaitInv T v)
    (hu : ∀ tenant n, v.Unsettled tenant n → v'.Unsettled tenant n)
    (hw : ∀ {k w}, v'.wait k = some w → WaitOk v' w ∨ v.wait k = some w ∧
      (w.state = .pending → ∀ d ∈ w.dependencies, d.state = .pending →
        T w.jobKey.tenantId d.target → T' w.jobKey.tenantId d.target)) : WaitInv T' v' where
  exact hk := (hw hk).elim (·.exact) fun hold => h.exact hold.1
  hasPending hk := (hw hk).elim (·.hasPending) fun hold => h.hasPending hold.1
  unsettled hk hp d hd hdp := by
    rcases hw hk with hok | ⟨hold, hdue⟩
    · exact Or.inl (hok.unsettled hp d hd hdp)
    · exact (h.unsettled hold hp d hd hdp).imp (hu _ _) (hdue hp d hd hdp)

/-- A wait in order may be stored. -/
theorem WaitInv.setWait (h : WaitInv T v) (hw : WaitOk v w) : WaitInv T (v.setWait w) := by
  refine h.of_waits (fun _ _ => id) fun hk => ?_
  rcases of_setWait hk with ⟨-, rfl⟩ | ⟨-, hk⟩
  · exact Or.inl ⟨hw.exact, hw.hasPending, hw.unsettled⟩
  · exact Or.inr ⟨hk, fun _ _ _ _ => id⟩

/-- **The settling pass takes its target out of what is due.** -/
theorem Engine.Settles.waitInv {tenant : String} (hs : Settles now tenant t v v')
    (h : WaitInv T v) :
    WaitInv (fun tenant' t' => T tenant' t' ∧ ¬ (tenant' = tenant ∧ t' = t)) v' := by
  -- each stored wait is unchanged and not aimed at `t`, or fresh from a pass
  refine h.of_waits (fun _ _ => (hs.facts.unsettled _ _).mpr) fun {k w} hk => ?_
  rcases hs.waits k with ⟨hsame, hnot⟩ | ⟨w₀, w', hw₀, _, he, hw'⟩
  · rw [hsame] at hk
    refine Or.inr ⟨hk, fun hp d hd hdp hT => ⟨hT, fun ⟨htn, ht⟩ => ?_⟩⟩
    exact hnot w hk htn hp d hd hdp ht
  · rw [hw', Option.some.injEq] at hk
    exact Or.inl (hk ▸ ((he.waitOk (h.exact hw₀)).facts hs.facts).copy)

theorem Engine.Closes.waitInv (hc : Closes now key v v') (h : WaitInv T v) : WaitInv T v' := by
  refine h.of_waits (fun _ _ => (hc.facts.unsettled _ _).mpr) fun {k w} hk => ?_
  rcases hc.waits k with ⟨hsame, _⟩ | ⟨w₀, w', hw₀, _, _, he, hw'⟩
  · exact Or.inr ⟨hsame ▸ hk, fun _ _ _ _ => id⟩
  · rw [hw', Option.some.injEq] at hk
    exact Or.inl (hk ▸ ((he.closed_waitOk (h.exact hw₀)).facts hc.facts).copy)

/-! ## Goals and jobs -/

/-- Storing a goal in place of one makes the target that names it due. -/
theorem WaitInv.setGoal (h : WaitInv T v) {g : GoalInfo}
    (sub : ∀ tenant t, T tenant t → T' tenant t)
    (due : v.goal g.goalKey ≠ none → T' g.goalKey.tenantId { goalID := g.goalKey.goalID }) :
    WaitInv T' (v.setGoal g) := by
  refine h.facts rfl (fun {tenant t} hex hu => ?_) sub
  cases hn : t.node with
  | job id => rw [hn] at hu; exact Or.inl hu
  | goal id =>
    rw [hn] at hu
    obtain ⟨g₀, hg₀, hopen⟩ := hu
    by_cases hk : (⟨tenant, id⟩ : GoalKey) = g.goalKey
    · rw [← hk, hg₀] at due
      exact Or.inr (hex.eq_goal hn ▸ due nofun)
    · exact Or.inl ⟨g₀, by rw [setGoal_goal, if_neg hk]; exact hg₀, hopen⟩

theorem WaitInv.decideGoal (h : WaitInv T v) {g : GoalInfo} :
    WaitInv (fun tenant t => T tenant t ∨
      (tenant = g.goalKey.tenantId ∧ t = { goalID := g.goalKey.goalID })) (v.setGoal g) :=
  h.setGoal (fun _ _ => Or.inl) fun _ => Or.inr ⟨rfl, rfl⟩

theorem Engine.ClosesGoal.waitInv {g' : GoalInfo} (hc : ClosesGoal now gk g' v v') (h : WaitInv T v)
    : WaitInv T v' := by
  obtain ⟨_, rfl, _, hset⟩ := hc
  exact (hset.waitInv h.decideGoal).mono fun _ _ ⟨hor, hnot⟩ => hor.resolve_right hnot

theorem Engine.Resolves.waitInv {jobID : String} (hr : Resolves now jobID gk v v') (h : WaitInv T v)
    : WaitInv T v' := by
  cases hr with
  | already => exact h
  | closes _ _ hc => exact hc.waitInv h

/-- Storing a job in place of one makes the target that names it due. -/
theorem WaitInv.setJob (h : WaitInv T v) {j : Job} (sub : ∀ tenant t, T tenant t → T' tenant t)
    (due : v.job j.key ≠ none → T' j.key.tenantId { jobID := j.key.jobId }) :
    WaitInv T' (v.setJob j) := by
  refine h.facts rfl (fun {tenant t} _ hu => ?_) sub
  cases hn : t.node with
  | goal id => rw [hn] at hu; exact Or.inl hu
  | job id =>
    rw [hn] at hu
    obtain ⟨j₀, hj₀, hlive⟩ := hu
    by_cases hk : (⟨tenant, id⟩ : JobKey) = j.key
    · rw [← hk, hj₀] at due
      exact Or.inr (DependencyTarget.eq_job hn ▸ due nofun)
    · exact Or.inl ⟨j₀, by rw [setJob_job, if_neg hk]; exact hj₀, hlive⟩

theorem WaitInv.finishJob (h : WaitInv T v) {j : Job} :
    WaitInv (fun tenant t => T tenant t ∨
      (tenant = j.key.tenantId ∧ t = { jobID := j.key.jobId })) (v.setJob j) :=
  h.setJob (fun _ _ => Or.inl) fun _ => Or.inr ⟨rfl, rfl⟩

/-- `Complete` settles the waits on its job. -/
theorem Engine.Completes.waitInv (hc : Completes now key v v') (h : WaitInv T v) :
    WaitInv (fun tenant t => T tenant t ∧
      ¬ (tenant = key.tenantId ∧ t = { jobID := key.jobId })) v' := by
  obtain ⟨_, _, hres, hclose, hset⟩ := hc
  have h₁ := hres.preserves (P := WaitInv T) (fun _ _ _ _ hr => hr.waitInv) h
  exact hset.waitInv (hclose.waitInv h₁)

/-! ## The operations -/

theorem Engine.Registers.waitInv {req : DependencyWait} (hr : Registers now key req v v')
    (hex : ∀ d ∈ req.dependencies, d.target.Exact) (h : WaitInv T v) : WaitInv T v' := by
  cases hr with
  | again hst _ he => exact h.setWait (he.waitOk (h.exact hst)).copy
  | new _ _ _ htargets he _ => exact h.setWait (he.waitOk (exact_of_targets htargets hex)).copy

theorem Engine.Adds.waitInv {jobID : String} (ha : Adds now gk jobID v v') (h : WaitInv T v) :
    WaitInv T v' := by
  have hextra : ∀ t, WaitInv T (v.setExtra gk jobID t) := fun t =>
    h.facts rfl (fun {_ t} _ hu => Or.inl (by cases hn : t.node <;> rw [hn] at hu <;> exact hu))
      fun _ _ => id
  cases ha with
  | listed => exact h
  | success _ _ hr => exact hr.waitInv (hextra _)
  | terminal => exact hextra _
  | live => exact hextra _

theorem Publishes.waitInv {p : Publication} (hp : Publishes now p v v')
    (hex : ∀ d ∈ p.dependencies, d.target.Exact) (h : WaitInv T v) : WaitInv T v' := by
  obtain ⟨hid, hgoal, habs, hwait, hck, -⟩ := hp
  rename_i v₁
  have h₁ : WaitInv T v₁ := by
    cases hgoal with
    | shared => exact h
    | new hfresh hkey hopen =>
      exact h.setGoal (fun _ _ => id) fun hold => absurd (hkey.symm ▸ hfresh) hold
  have h₂ : WaitInv T (v₁.setJob p.newJob) :=
    h₁.setJob (fun _ _ => id) fun hold => absurd habs hold
  cases hwait with
  | none => exact h₂
  | wait hr => exact hr.waitInv hex h₂

theorem Finishes.waitInv {success : Bool} (hf : Finishes key success v v')
    (hkey : ∀ {k j}, v.job k = some j → j.key = k) (h : WaitInv T v) :
    WaitInv (fun tenant t =>
      T tenant t ∨ (tenant = key.tenantId ∧ t = { jobID := key.jobId })) v' := by
  obtain ⟨hst, hlive⟩ := hf
  rename_i j
  obtain rfl := hkey hst
  exact h.finishJob (j := { j with terminal := true, success := success })

theorem Cancels.waitInv (hc : Cancels key v v') (hkey : ∀ {k j}, v.job k = some j → j.key = k)
    (h : WaitInv T v) :
    WaitInv (fun tenant t =>
      T tenant t ∨ (tenant = key.tenantId ∧ t = { jobID := key.jobId })) v' := by
  cases hc with
  | already => exact h.mono fun _ _ => Or.inl
  | finishes hf => exact hf.waitInv hkey h

end Changes

/-! ## Every operation, every history -/

/-- The target that names a job of the list. -/
def JobsDue (keys : List JobKey) : Due := fun tenant t =>
  ∃ k ∈ keys, tenant = k.tenantId ∧ t = { jobID := k.jobId }

/-- A deletion stores all outcomes first, which makes all its jobs due, and
then completes them one by one. -/
theorem Along.cancels_waitInv {keys : List JobKey} (hc : Along Cancels keys v v') :
    GoalInv NoPair v → WaitInv NoneDue v → GoalInv NoPair v' ∧ WaitInv (JobsDue keys) v' := by
  intro hg hw
  have gen : ∀ {keys : List JobKey} {T : Due} {u u' : View}, Along Cancels keys u u' →
      GoalInv NoPair u → WaitInv T u →
      GoalInv NoPair u' ∧ WaitInv (fun tenant t => T tenant t ∨ JobsDue keys tenant t) u' := by
    intro keys T u u' h
    induction h generalizing T with
    | nil => exact fun hg hw => ⟨hg, hw.mono fun _ _ => Or.inl⟩
    | @cons k ks u u₁ u' head _ ih =>
      intro hg hw
      obtain ⟨hg', hw'⟩ := ih (head.goalInv hg) (head.waitInv hg.jobKey hw)
      refine ⟨hg', hw'.mono ?_⟩
      rintro tenant t ((hT | hk) | ⟨k', hk', heq⟩)
      · exact Or.inl hT
      · exact Or.inr ⟨k, by simp, hk⟩
      · exact Or.inr ⟨k', List.mem_cons_of_mem _ hk', heq⟩
  obtain ⟨hg', hw'⟩ := gen hc hg hw
  exact ⟨hg', hw'.mono fun _ _ hor => hor.resolve_left id⟩

theorem Along.completes_waitInv {now : Time} {keys : List JobKey}
    (hc : Along (Completes now) keys v v') (h : WaitInv (JobsDue keys) v) : WaitInv NoneDue v' := by
  have step : ∀ {k rest u u'}, Completes now k u u' → WaitInv (JobsDue (k :: rest)) u →
      WaitInv (JobsDue rest) u' := by
    intro k rest u u' head hu
    refine (head.waitInv hu).mono ?_
    rintro tenant t ⟨⟨k', hk', heq⟩, hnot⟩
    rcases List.mem_cons.mp hk' with rfl | hk'
    · exact absurd heq hnot
    · exact ⟨k', hk', heq⟩
  have hend : WaitInv (JobsDue []) v' :=
    hc.invariant (P := fun rest u => WaitInv (JobsDue rest) u) step h
  exact hend.mono fun _ _ ⟨_, hk, _⟩ => by cases hk

theorem Op.Effect.waitInv {now : Time} {op : Op} (he : op.Effect now v v') (hex : op.Exact)
    (hg : GoalInv NoPair v) (h : WaitInv NoneDue v) : WaitInv NoneDue v' := by
  cases op with
  | publish p => exact Publishes.waitInv he hex h
  | add req => exact Adds.waitInv he h
  | fail req =>
    cases he with
    | already => exact h
    | closes _ hc => exact hc.waitInv h
  | register key req submission => exact Registers.waitInv he hex h
  | closeConsumer key => exact Closes.waitInv he h
  | reschedule key req =>
    obtain ⟨v₁, hc, hr⟩ := he
    exact hr.waitInv hex (hc.waitInv h)
  | finish key success =>
    obtain ⟨v₁, hf, hc⟩ := he
    refine (hc.waitInv (hf.waitInv hg.jobKey h)).mono ?_
    exact fun _ _ ⟨hor, hnot⟩ => hor.elim id fun heq => hnot heq
  | deleteJobs keys =>
    obtain ⟨v₁, hcancel, hcomplete⟩ := he
    exact hcomplete.completes_waitInv (hcancel.cancels_waitInv hg h).2

theorem waitInv_empty : WaitInv NoneDue View.empty where
  exact hk := by cases hk
  hasPending hk := by cases hk
  unsettled hk := by cases hk

/-- The wait invariant holds after every history whose requests are exact. -/
theorem Along.waitInv {is : List (Time × Op)} (h : Along Op.Step is View.empty v)
    (hex : ∀ i ∈ is, i.2.Exact) : WaitInv NoneDue v := by
  have step : ∀ i ∈ is, ∀ u u', Op.Step i u u' → GoalInv NoPair u ∧ WaitInv NoneDue u →
      GoalInv NoPair u' ∧ WaitInv NoneDue u' := by
    rintro i hi u u' (rfl | he) ⟨hg, hw⟩
    · exact ⟨hg, hw⟩
    · exact ⟨he.goalInv hg, he.waitInv (hex i hi) hg hw⟩
  exact (h.preserves step ⟨goalInv_empty, waitInv_empty⟩).2

section Store

variable {σ : Type} {S : SchedulerStore σ} (L : LawfulStore S)

/-- **No lost wakeup.** After any history of operations whose targets name
exactly one ID, every stored pending wait has a pending dependency, and every
pending dependency of it has an unsettled target. -/
theorem no_lost_wakeup {s₀ : σ} (hi : L.Inv s₀) (hempty : L.view s₀ = View.empty)
    (is : List (Time × Op)) (hex : ∀ i ∈ is, i.2.Exact) :
    ∀ k w, (L.view (execAll S is s₀)).wait k = some w → w.state = .pending →
      (∃ d ∈ w.dependencies, d.state = .pending) ∧
      ∀ d ∈ w.dependencies, d.state = .pending →
        (L.view (execAll S is s₀)).Unsettled w.jobKey.tenantId d.target.node := by
  obtain ⟨_, hrun⟩ := execAll_along L is s₀ hi
  rw [hempty] at hrun
  have hinv := hrun.waitInv hex
  exact fun k w hk hp =>
    ⟨hinv.hasPending hk hp, fun d hd hdp => (hinv.unsettled hk hp d hd hdp).resolve_right id⟩

end Store

/-- A wait for an open goal, registered with an exact target. -/
theorem no_lost_wakeup_memory :
    (execAll Memory.store (waitingFor { goalID := "g1" }) {}).view.Unsettled "t" (.goal "g1") :=
  (no_lost_wakeup Memory.lawful Memory.Inv.empty Memory.view_empty (waitingFor { goalID := "g1" })
    (by decide) ⟨⟨"t", "b"⟩, "w"⟩ _ rfl rfl).2 _ List.mem_cons_self rfl

/-- A target with a goal ID and the job ID `" "` passes the request checks, which
trim, and is then read as the goal. `Memory.targetWaits` compares the whole
target, so the goal's success does not reach the wait: it stays pending on a
goal that is decided. -/
theorem wakeup_lost_blank_jobID :
    ¬ ∀ (is : List (Time × Op)) k w, (execAll Memory.store is {}).view.wait k = some w →
      w.state = .pending →
      (∃ d ∈ w.dependencies, d.state = .pending) ∧
      ∀ d ∈ w.dependencies, d.state = .pending →
        (execAll Memory.store is {}).view.Unsettled w.jobKey.tenantId d.target.node := by
  intro h
  obtain ⟨_, hall⟩ := h (waitingFor { jobID := " ", goalID := "g1" } ++
    [(1, .finish ⟨"t", "a"⟩ true)]) ⟨⟨"t", "b"⟩, "w"⟩ _ rfl rfl
  obtain ⟨g, hg, ho⟩ := hall _ List.mem_cons_self rfl
  obtain rfl := Option.some.inj hg
  exact absurd ho (by decide)

end JobDB
