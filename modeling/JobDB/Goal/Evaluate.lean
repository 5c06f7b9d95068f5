import JobDB.Goal.View

/-!
# What `Evaluate` computes

`Evaluate` (`state.go:258–331`) reads the targets of a wait and projects what
they say onto it. `evaluate_spec` is the one description of it the rest of the
development uses:

* a resolved wait is returned as it is;
* a pending wait whose deadline has passed times out, whatever its targets say;
* a wait it leaves pending has a pending dependency, and every pending
  dependency it leaves has an unsettled target;
* a wait whose pending dependencies all have unsettled targets stays pending
  (before its deadline).
-/

namespace JobDB

namespace Engine

/-- One dependency before and after a pass: the target stays, and a resolved
dependency is not touched. -/
structure DependencyStep (d d' : DependencyResolution) : Prop where
  target : d'.target = d.target
  resolved : d.state ≠ .pending → d' = d

theorem DependencyStep.refl (d : DependencyResolution) : DependencyStep d d :=
  ⟨rfl, fun _ => rfl⟩

section Dependency

variable {σ : Type} {S : SchedulerStore σ} (L : LawfulStore S) {now : Time} {s : σ}
  {tenant : String} {d d' : DependencyResolution}

/-- A pending dependency stays pending exactly while its target is unsettled. -/
theorem evaluateDependency_spec (hi : L.Inv s) (hd : d.state = .pending)
    (h : evaluateDependency S.toStore now s tenant d = .ok d') :
    d'.target = d.target ∧ (d'.state = .pending ↔ (L.view s).Unsettled tenant d.target.node) := by
  unfold evaluateDependency at h
  unfold DependencyTarget.node
  split at h
  · next hg =>
    rw [if_pos hg]
    obtain ⟨g, hgoal, h⟩ := bind_eq_ok.mp h
    have hv := L.goal_ok hi hgoal
    have key : (L.view s).Unsettled tenant (.goal d.target.goalID) ↔ g.state = .open :=
      ⟨fun ⟨g', hg', ho⟩ => by rw [hv, Option.some.injEq] at hg'; exact hg' ▸ ho,
        fun ho => ⟨g, hv, ho⟩⟩
    rw [key]
    split at h
    · next hs => obtain rfl := Except.ok.inj h; simp [hs]
    · next hs => obtain rfl := Except.ok.inj h; simp [hs]
    · next hs =>
      obtain ⟨js, _, rfl⟩ := map_eq_ok.mp h
      exact ⟨rfl, fun _ => hs, fun _ => hd⟩
  · next hg =>
    rw [if_neg hg]
    obtain ⟨j, hjob, h⟩ := bind_eq_ok.mp h
    have hv := L.job_ok hi hjob
    have key : (L.view s).Unsettled tenant (.job d.target.jobID) ↔ j.terminal = false :=
      ⟨fun ⟨j', hj', ht⟩ => by rw [hv, Option.some.injEq] at hj'; exact hj' ▸ ht,
        fun ht => ⟨j, hv, ht⟩⟩
    rw [key]
    split at h
    · next ht =>
      split at h
      · obtain rfl := Except.ok.inj h; simp [ht]
      · obtain rfl := Except.ok.inj h; simp [ht]
    · next ht =>
      obtain rfl := Except.ok.inj h
      exact ⟨rfl, fun _ => by simpa using ht, fun _ => hd⟩

/-- A dependency fails for a cause that the store holds. -/
theorem evaluateDependency_cause (hi : L.Inv s) (hd : d.state = .pending)
    (h : evaluateDependency S.toStore now s tenant d = .ok d') (hf : d'.state = .failed) :
    (L.view s).Cause d'.failure := by
  unfold evaluateDependency at h
  split at h
  · obtain ⟨g, hgoal, h⟩ := bind_eq_ok.mp h
    split at h
    · obtain rfl := Except.ok.inj h
      cases hf
    · next hs =>
      obtain rfl := Except.ok.inj h
      exact .goal (L.goal_ok hi hgoal) hs
    · obtain ⟨js, _, rfl⟩ := map_eq_ok.mp h
      rw [hd] at hf
      cases hf
  · obtain ⟨j, hjob, h⟩ := bind_eq_ok.mp h
    split at h
    · split at h
      · obtain rfl := Except.ok.inj h
        cases hf
      · obtain rfl := Except.ok.inj h
        exact .job _ _ (L.job_ok hi hjob)
    · obtain rfl := Except.ok.inj h
      rw [hd] at hf
      cases hf

end Dependency

/-! ## The loop -/

/-- What the loop leaves behind. -/
structure ScanSpec (v : View) (tenant : String) (ds : List DependencyResolution) (r : Scan) :
    Prop where
  step : List.Forall₂ DependencyStep ds r.dependencies
  unsettled : r.failed = none → ∀ d ∈ r.dependencies, d.state = .pending →
    v.Unsettled tenant d.target.node
  all : r.failed = none → (r.all = true ↔ ∀ d ∈ r.dependencies, d.state ≠ .pending)
  idle : (∀ d ∈ ds, d.state = .pending → v.Unsettled tenant d.target.node) →
    r.failed = none ∧ r.dependencies.map (·.state) = ds.map (·.state)
  cause : ∀ {i f}, r.failed = some (i, f) → v.Cause f

/-- One more dependency in front of a finished loop that did not fail on it. -/
theorem ScanSpec.cons {v : View} {tenant : String} {ds : List DependencyResolution} {r : Scan}
    {d d' : DependencyResolution} {all : Bool} (h : ScanSpec v tenant ds r)
    (hstep : DependencyStep d d')
    (hu : d'.state = .pending → v.Unsettled tenant d'.target.node)
    (hall : all = true ↔ r.all = true ∧ d'.state ≠ .pending)
    (hidle : (d.state = .pending → v.Unsettled tenant d.target.node) → d'.state = d.state) :
    ScanSpec v tenant (d :: ds) { r with dependencies := d' :: r.dependencies, all := all } where
  step := .cons hstep h.step
  unsettled hf x hx hp := by
    rcases List.mem_cons.mp hx with rfl | hx
    · exact hu hp
    · exact h.unsettled hf x hx hp
  all hf := by
    rw [hall, h.all hf, List.forall_mem_cons, and_comm]
  idle hi := by
    obtain ⟨hf, hmap⟩ := h.idle fun x hx => hi x (List.mem_cons_of_mem _ hx)
    exact ⟨hf, by simp only [List.map_cons, hmap, hidle (hi d (by simp))]⟩
  cause := h.cause

theorem forall₂_dependencyStep_refl (ds : List DependencyResolution) :
    List.Forall₂ DependencyStep ds ds :=
  List.forall₂_same.mpr fun d _ => .refl d

section Loop

variable {σ : Type} {S : SchedulerStore σ} (L : LawfulStore S) {now : Time} {s : σ}
  {tenant : String}

theorem scan_spec (hi : L.Inv s) : ∀ {ds : List DependencyResolution} {i : Nat} {r : Scan},
    scan S.toStore now s tenant i ds = .ok r → ScanSpec (L.view s) tenant ds r
  | [], i, r, h => by
    obtain rfl := Except.ok.inj h
    exact ⟨.nil, by simp, by simp, by simp, by simp⟩
  | d :: ds, i, r, h => by
    rw [scan] at h
    split at h
    · next hd =>
      obtain ⟨r', hr', rfl⟩ := map_eq_ok.mp h
      exact (scan_spec hi hr').cons (.refl d) (fun hp => absurd hp hd) (by simp [hd]) fun _ => rfl
    · next hd =>
      have hd : d.state = .pending := not_not.mp hd
      obtain ⟨d', hd', h⟩ := bind_eq_ok.mp h
      obtain ⟨ht, hp⟩ := evaluateDependency_spec L hi hd hd'
      have hstep : DependencyStep d d' := ⟨ht, fun hne => absurd hd hne⟩
      split at h
      · next hfail =>
        -- the loop stops here; an unsettled target cannot have failed
        obtain rfl := Except.ok.inj h
        refine ⟨.cons hstep (forall₂_dependencyStep_refl ds), by simp, by simp, fun hidle => ?_,
          fun hf => ?_⟩
        · have := hp.mpr (hidle d (by simp) hd)
          simp [this] at hfail
        · obtain ⟨_, rfl⟩ := Prod.mk.inj (Option.some.inj hf)
          exact evaluateDependency_cause L hi hd hd' hfail
      · obtain ⟨r', hr', h⟩ := bind_eq_ok.mp h
        have hs := scan_spec hi hr'
        have hidle : (d.state = .pending → (L.view s).Unsettled tenant d.target.node) →
            d'.state = d.state := fun hu => (hp.mpr (hu hd)).trans hd.symm
        split at h
        · next hpend =>
          obtain rfl := Except.ok.inj h
          exact hs.cons hstep (fun hq => ht ▸ hp.mp hq) (by simp [hpend]) hidle
        · next hpend =>
          obtain rfl := Except.ok.inj h
          exact hs.cons ⟨ht, fun hne => absurd hd hne⟩ (fun hq => absurd hq hpend)
            (by simp [hpend]) hidle

end Loop

/-! ## The pass -/

/-- The result of a pass over `w` at `now`. -/
structure Evaluated (v : View) (now : Time) (w w' : DependencyWaitInfo) : Prop where
  key : w'.key = w.key
  deadline : w'.deadline = w.deadline
  targets : w'.dependencies.map (·.target) = w.dependencies.map (·.target)
  resolved : w.state ≠ .pending → w' = w
  expired : w.state = .pending → w.expired now = true →
    w' = closePending { w with state := .timedOut }
  fresh : w'.state = .pending → w.expired now = false
  hasPending : w'.state = .pending → ∃ d ∈ w'.dependencies, d.state = .pending
  unsettled : w'.state = .pending → ∀ d ∈ w'.dependencies, d.state = .pending →
    v.Unsettled w.jobKey.tenantId d.target.node
  unresolved : w'.state = .pending → List.Forall₂ DependencyStep w.dependencies w'.dependencies
  idle : w.state = .pending → w.expired now = false →
    (∀ d ∈ w.dependencies, d.state = .pending → v.Unsettled w.jobKey.tenantId d.target.node) →
    (∃ d ∈ w.dependencies, d.state = .pending) → w'.state = .pending
  cause : w.state = .pending → w'.state = .failed → v.Cause w'.failure

theorem Evaluated.jobKey {v : View} {now : Time} {w w' : DependencyWaitInfo}
    (h : Evaluated v now w w') : w'.jobKey = w.jobKey := congrArg DependencyWaitKey.jobKey h.key

@[simp] theorem closePending_targets (w : DependencyWaitInfo) :
    (closePending w).dependencies.map (·.target) = w.dependencies.map (·.target) := by
  unfold closePending
  rw [List.map_map]
  refine List.map_congr_left fun d _ => ?_
  simp only [Function.comp]
  split <;> rfl

theorem targets_of_step {ds ds' : List DependencyResolution}
    (h : List.Forall₂ DependencyStep ds ds') : ds'.map (·.target) = ds.map (·.target) := by
  induction h with
  | nil => rfl
  | cons hd _ ih => rw [List.map_cons, List.map_cons, hd.target, ih]

section Pass

variable {σ : Type} {S : SchedulerStore σ} (L : LawfulStore S) {now : Time} {s : σ}

/-- **`Evaluate`, described once.** -/
theorem evaluate_spec (hi : L.Inv s) {w w' : DependencyWaitInfo}
    (h : evaluate S.toStore now s w = .ok w') : Evaluated (L.view s) now w w' := by
  unfold evaluate at h
  split at h
  · next hw =>
    obtain rfl := Except.ok.inj h
    exact {
      key := rfl, deadline := rfl
      targets := rfl
      resolved := fun _ => rfl
      expired := fun hp => absurd hp hw
      fresh := fun hp => absurd hp hw
      hasPending := fun hp => absurd hp hw
      unsettled := fun hp => absurd hp hw
      unresolved := fun hp => absurd hp hw
      idle := fun hp => absurd hp hw
      cause := fun hp => absurd hp hw }
  · next hw =>
    have hw : w.state = .pending := not_not.mp hw
    split at h
    · next hex =>
      obtain rfl := Except.ok.inj h
      exact {
        key := rfl, deadline := rfl
        targets := closePending_targets { w with state := .timedOut }
        resolved := fun hne => absurd hw hne
        expired := fun _ _ => rfl
        fresh := fun hp => by cases hp
        hasPending := fun hp => by cases hp
        unsettled := fun hp => by cases hp
        unresolved := fun hp => by cases hp
        idle := fun _ hf => by rw [hex] at hf; cases hf
        cause := fun _ hf => by cases hf }
    · next hex =>
      obtain ⟨r, hr, h⟩ := bind_eq_ok.mp h
      have hs := scan_spec L hi hr
      split at h
      · next i f hf =>
        obtain rfl := Except.ok.inj h
        exact {
          key := rfl, deadline := rfl
          targets := (closePending_targets _).trans (targets_of_step hs.step)
          resolved := fun hne => absurd hw hne
          expired := fun _ he => absurd he hex
          fresh := fun hp => by cases hp
          hasPending := fun hp => by cases hp
          unsettled := fun hp => by cases hp
          unresolved := fun hp => by cases hp
          idle := fun _ _ hu _ => by simp [(hs.idle hu).1] at hf
          cause := fun _ _ => hs.cause hf }
      · next hf =>
        obtain rfl := Except.ok.inj h
        refine {
          key := rfl, deadline := rfl
          targets := targets_of_step hs.step
          resolved := fun hne => absurd hw hne
          expired := fun _ he => absurd he hex
          fresh := fun _ => by simpa using hex
          hasPending := fun hp => ?_
          unsettled := fun _ => hs.unsettled hf
          unresolved := fun _ => hs.step
          idle := fun _ _ hu ⟨d, hd, hp⟩ => ?_
          cause := fun _ hf => ?_ }
        · have hall : ¬ r.all = true := by
            intro ha
            simp [ha] at hp
          rw [hs.all hf] at hall
          simpa using hall
        · -- a pending dependency is still there, so `all` was cleared
          have hall : ¬ r.all = true := by
            rw [hs.all hf]
            intro hnone
            have hmem : DependencyState.pending ∈ r.dependencies.map (·.state) := by
              rw [(hs.idle hu).2]
              exact List.mem_map.mpr ⟨d, hd, hp⟩
            obtain ⟨d', hd', hp'⟩ := List.mem_map.mp hmem
            exact hnone d' hd' hp'
          show (if r.all = true then DependencyState.satisfied else .pending) = .pending
          rw [if_neg hall]
        · have hstate : (if r.all = true then DependencyState.satisfied else .pending) = .failed :=
            hf
          split at hstate <;> cases hstate

end Pass

end Engine

end JobDB
