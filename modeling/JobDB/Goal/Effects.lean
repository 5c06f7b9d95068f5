import JobDB.Goal.Evaluate
import JobDB.Lib.Runs
import JobDB.Lib.Table

/-!
# What the engine's operations do to a store's view

One relation on views for each operation of the engine, and one theorem that a
successful run of the operation is an instance of it. Everything proved about
goals and waits starts from these relations; none of it looks at the engine's
code again.

* `Settles` (`SettleTarget`) and `Closes` (`CloseConsumer`) rewrite stored
  pending waits to what `Evaluate` makes of them and change nothing else.
* `Resolves` (`resolve`) closes an open goal and settles the waits on it.
* `Completes` (`Complete`) chains them in the source's order: the job's goals,
  then its own waits, then the waits on it.
-/

namespace JobDB

namespace View

/-- Jobs, goals and candidates are the same. -/
structure SameFacts (v v' : View) : Prop where
  job : v'.job = v.job
  goal : v'.goal = v.goal
  extra : v'.extra = v.extra

theorem SameFacts.refl (v : View) : SameFacts v v := ⟨rfl, rfl, rfl⟩

theorem SameFacts.trans {v₁ v₂ v₃ : View} (h : SameFacts v₁ v₂) (h' : SameFacts v₂ v₃) :
    SameFacts v₁ v₃ :=
  ⟨h'.job.trans h.job, h'.goal.trans h.goal, h'.extra.trans h.extra⟩

theorem SameFacts.setWait (v : View) (w : DependencyWaitInfo) : SameFacts v (v.setWait w) :=
  ⟨rfl, rfl, rfl⟩

variable {v v' : View}

theorem SameFacts.unsettled (h : SameFacts v v') (tenant : String) (n : Node) :
    v'.Unsettled tenant n ↔ v.Unsettled tenant n := by
  cases n <;> simp only [Unsettled, h.job, h.goal]

theorem SameFacts.cause (h : SameFacts v v') {f : Option GoalFailure} (hc : v'.Cause f) :
    v.Cause f := by
  cases hc with
  | goal stored failed => exact .goal (h.goal ▸ stored) failed
  | job message t stored => exact .job message t (h.job ▸ stored)

theorem SameFacts.candidate (h : SameFacts v v') {gk : GoalKey} {j : Job} :
    v'.Candidate gk j ↔ v.Candidate gk j := by
  constructor
  · rintro ⟨hs, ht, hl⟩
    exact ⟨h.job ▸ hs, ht, h.extra ▸ hl⟩
  · rintro ⟨hs, ht, hl⟩
    exact ⟨h.job.symm ▸ hs, ht, h.extra.symm ▸ hl⟩

theorem setWait_wait (v : View) (w : DependencyWaitInfo) (k : DependencyWaitKey) :
    (v.setWait w).wait k = if k = w.key then some w else v.wait k := by
  unfold setWait
  simp only [Function.update_apply]

theorem setGoal_goal (v : View) (g : GoalInfo) (k : GoalKey) :
    (v.setGoal g).goal k = if k = g.goalKey then some g else v.goal k := by
  unfold setGoal
  simp only [Function.update_apply]

theorem setJob_job (v : View) (j : Job) (k : JobKey) :
    (v.setJob j).job k = if k = j.key then some j else v.job k := by
  unfold setJob
  simp only [Function.update_apply]

/-! After a write, a stored record is the written one or an old one under another key. -/

theorem of_setWait {w w₀ : DependencyWaitInfo} {k : DependencyWaitKey}
    (h : (v.setWait w).wait k = some w₀) : k = w.key ∧ w₀ = w ∨ k ≠ w.key ∧ v.wait k = some w₀ :=
  Table.of_written (setWait_wait .. ▸ h)

theorem of_setGoal {g g₀ : GoalInfo} {k : GoalKey} (h : (v.setGoal g).goal k = some g₀) :
    k = g.goalKey ∧ g₀ = g ∨ k ≠ g.goalKey ∧ v.goal k = some g₀ :=
  Table.of_written (setGoal_goal .. ▸ h)

theorem of_setJob {j j₀ : Job} {k : JobKey} (h : (v.setJob j).job k = some j₀) :
    k = j.key ∧ j₀ = j ∨ k ≠ j.key ∧ v.job k = some j₀ :=
  Table.of_written (setJob_job .. ▸ h)

end View

namespace Engine

open View

variable {w : DependencyWaitInfo}

theorem Evaluated.congr {v v' : View} (hf : SameFacts v v') {now : Time} {w' : DependencyWaitInfo}
    (h : Evaluated v' now w w') : Evaluated v now w w' where
  key := h.key
  deadline := h.deadline
  targets := h.targets
  resolved := h.resolved
  expired := h.expired
  fresh := h.fresh
  hasPending := h.hasPending
  unsettled hp d hd hdp := (hf.unsettled _ _).mp (h.unsettled hp d hd hdp)
  unresolved := h.unresolved
  idle hp he hu hd := h.idle hp he (fun d hd hdp => (hf.unsettled _ _).mpr (hu d hd hdp)) hd
  cause hp hs := hf.cause (h.cause hp hs)

/-- `SettleTarget`: every pending wait with a pending dependency on `t` is
evaluated; any other wait is evaluated or left alone. -/
structure Settles (now : Time) (tenant : String) (t : DependencyTarget) (v v' : View) : Prop where
  facts : SameFacts v v'
  waits : ∀ k,
    (v'.wait k = v.wait k ∧ ∀ w, v.wait k = some w → w.jobKey.tenantId = tenant →
      w.state = .pending → ∀ d ∈ w.dependencies, d.state = .pending → d.target ≠ t) ∨
    ∃ w w', v.wait k = some w ∧ w.state = .pending ∧ Evaluated v now w w' ∧
      v'.wait k = some w'.copy

/-- `CloseConsumer`: every pending wait of the job is evaluated and, if still
pending, cancelled. -/
structure Closes (now : Time) (key : JobKey) (v v' : View) : Prop where
  facts : SameFacts v v'
  waits : ∀ k,
    (v'.wait k = v.wait k ∧ ∀ w, v.wait k = some w → w.jobKey = key → w.state ≠ .pending) ∨
    ∃ w w', v.wait k = some w ∧ w.jobKey = key ∧ w.state = .pending ∧ Evaluated v now w w' ∧
      v'.wait k = some (closed w').copy

/-- An open goal is replaced by a decided one and the waits on it are settled. -/
structure ClosesGoal (now : Time) (gk : GoalKey) (g' : GoalInfo) (v v' : View) : Prop where
  isOpen : ∃ g, v.goal gk = some g ∧ g.state = .open
  key : g'.goalKey = gk
  decided : g'.state ≠ .open
  settles : Settles now gk.tenantId { goalID := gk.goalID } (v.setGoal g') v'
  failure : g'.state = .failed → ∃ f, g'.failure = some f ∧ f.OfGoal

/-- `resolve` on the goal `gk` for the job `jobID`. -/
inductive Resolves (now : Time) (jobID : String) (gk : GoalKey) : View → View → Prop where
  | already {v : View} {g : GoalInfo} (stored : v.goal gk = some g) (decided : g.state ≠ .open) :
      Resolves now jobID gk v v
  | closes {v v' : View} {g' : GoalInfo} (state : g'.state = .succeeded)
      (winner : g'.successfulJobID = jobID) (closes : ClosesGoal now gk g' v v') :
      Resolves now jobID gk v v'

/-- `Complete`. -/
inductive Completes (now : Time) (key : JobKey) : View → View → Prop where
  | mk {v v₁ v₂ v' : View} {j : Job} {gks : List GoalKey} (stored : v.job key = some j)
      (goals : ∀ gk, gk ∈ gks ↔ j.success = true ∧ v.Candidate gk j)
      (resolves : Along (Resolves now key.jobId) gks v v₁) (closes : Closes now key v₁ v₂)
      (settles : Settles now key.tenantId { jobID := key.jobId } v₂ v') :
      Completes now key v v'

/-- Every path of unresolved edges from `n` is finite. -/
def Grounded (now : Time) (tenant : String) (n : Node) (v : View) : Prop :=
  Acc (fun b a => v.Edge now tenant a b) n

/-- `Fail`. -/
inductive Fails (now : Time) (gk : GoalKey) : View → View → Prop where
  | already {v : View} : Fails now gk v v
  | closes {v v' : View} {g' : GoalInfo} (state : g'.state = .failed)
      (closes : ClosesGoal now gk g' v v') : Fails now gk v v'

/-- `Add`: a candidate that is already listed changes nothing; a new one is
listed and, by its state, decides the goal, changes nothing more, or is checked
for a cycle. -/
inductive Adds (now : Time) (gk : GoalKey) (jobID : String) : View → View → Prop where
  | listed {v : View} : Adds now gk jobID v v
  | success {v v' : View} {j : Job} {t : Time} (stored : v.job ⟨gk.tenantId, jobID⟩ = some j)
      (won : j.success = true) (resolves : Resolves now jobID gk (v.setExtra gk jobID t) v') :
      Adds now gk jobID v v'
  | terminal {v : View} {j : Job} {t : Time} (stored : v.job ⟨gk.tenantId, jobID⟩ = some j)
      (isOpen : ∃ g, v.goal gk = some g ∧ g.state = .open) (lost : j.success = false)
      (done : j.terminal = true) : Adds now gk jobID v (v.setExtra gk jobID t)
  | live {v : View} {j : Job} {t : Time} (stored : v.job ⟨gk.tenantId, jobID⟩ = some j)
      (isOpen : ∃ g, v.goal gk = some g ∧ g.state = .open) (lost : j.success = false)
      (checked : Grounded now gk.tenantId (.goal gk.goalID) (v.setExtra gk jobID t)) :
      Adds now gk jobID v (v.setExtra gk jobID t)

/-- `Register`: a stored wait is evaluated again; a new one is evaluated,
stored and checked for a cycle. -/
inductive Registers (now : Time) (key : JobKey) (req : DependencyWait) : View → View → Prop where
  | again {v : View} {w w' : DependencyWaitInfo} (stored : v.wait ⟨key, req.waitID⟩ = some w)
      (wkey : w.key = ⟨key, req.waitID⟩) (pass : Evaluated v now w w') :
      Registers now key req v (v.setWait w'.copy)
  | new {v : View} {w w' : DependencyWaitInfo} (absent : v.wait ⟨key, req.waitID⟩ = none)
      (wkey : w.key = ⟨key, req.waitID⟩) (pending : w.state = .pending)
      (targets : w.dependencies.map (·.target) = req.dependencies.map (·.target))
      (pass : Evaluated v now w w')
      (checked : Grounded now key.tenantId (.job key.jobId) (v.setWait w'.copy)) :
      Registers now key req v (v.setWait w'.copy)

/-! ## Successful runs have these effects -/

section Runs

variable {σ : Type} {S : SchedulerStore σ} (L : LawfulStore S) {now : Time}

variable {s s' : σ} {tenant : String} {key : JobKey} {u : Unit}

theorem settleWait_spec {w' : DependencyWaitInfo} (hi : L.Inv s)
    (h : settleWait S.toStore now w s = .ok (w', s')) :
    L.Inv s' ∧ Evaluated (L.view s) now w w' ∧ L.view s' = (L.view s).setWait w'.copy := by
  unfold settleWait at h
  obtain ⟨w₁, he, h⟩ := Tx.read_bind_eq_ok.mp h
  obtain ⟨_, hw, rfl⟩ := Tx.bind_pure_eq_ok.mp h
  obtain ⟨hi', hv⟩ := L.saveWait_ok hi (Tx.write_eq_ok.mp hw)
  exact ⟨hi', evaluate_spec L hi he, hv⟩

/-- The loops over waits: each iteration stores one wait under its own key, so
the result at a key comes from the one wait of the list with that key. -/
theorem forM_waits {f : DependencyWaitInfo → Tx σ Err Unit}
    {U : View → DependencyWaitInfo → DependencyWaitInfo → Prop}
    (congr : ∀ {v v' w w'}, SameFacts v v' → U v' w w' → U v w w') :
    ∀ {ws : List DependencyWaitInfo} {s s' : σ},
      (∀ w ∈ ws, ∀ {s s'}, L.Inv s → f w s = .ok ((), s') →
        L.Inv s' ∧ ∃ w', w'.key = w.key ∧ U (L.view s) w w' ∧
          L.view s' = (L.view s).setWait w') →
      L.Inv s → (ws.map (·.key)).Nodup → forM ws f s = .ok ((), s') →
      L.Inv s' ∧ SameFacts (L.view s) (L.view s') ∧
        ∀ k, ((∀ w ∈ ws, w.key ≠ k) ∧ (L.view s').wait k = (L.view s).wait k) ∨
          ∃ w ∈ ws, w.key = k ∧ ∃ w', U (L.view s) w w' ∧ (L.view s').wait k = some w'
  | [], s, s', _, hi, _, h => by
    obtain rfl := Tx.forM_nil_eq_ok.mp h
    exact ⟨hi, .refl _, fun k => Or.inl ⟨by simp, rfl⟩⟩
  | w :: ws, s, s', hf, hi, hnd, h => by
    obtain ⟨s₁, h₁, h₂⟩ := Tx.forM_cons_eq_ok.mp h
    obtain ⟨hi₁, w', hk, hu, hv⟩ := hf w (by simp) hi h₁
    rw [List.map_cons, List.nodup_cons] at hnd
    have hfr : SameFacts (L.view s) (L.view s₁) := hv ▸ SameFacts.setWait _ _
    obtain ⟨hi', hfr', hrest⟩ := forM_waits (U := U) congr
      (fun x hx => hf x (List.mem_cons_of_mem _ hx)) hi₁ hnd.2 h₂
    refine ⟨hi', hfr.trans hfr', fun k => ?_⟩
    have hk₁ : (L.view s₁).wait k = if k = w.key then some w' else (L.view s).wait k := by
      rw [hv, setWait_wait, hk]
    rcases hrest k with ⟨hne, hsame⟩ | ⟨x, hx, hxk, x', hux, hx'⟩
    · by_cases hkw : k = w.key
      · -- the later iterations leave this iteration's result in place
        refine Or.inr ⟨w, by simp, hkw.symm, w', hu, ?_⟩
        rw [hsame, hk₁, if_pos hkw]
      · refine Or.inl ⟨?_, by rw [hsame, hk₁, if_neg hkw]⟩
        intro x hx
        rcases List.mem_cons.mp hx with rfl | hx
        · exact fun e => hkw e.symm
        · exact hne x hx
    · exact Or.inr ⟨x, List.mem_cons_of_mem _ hx, hxk, x', congr hfr hux, hx'⟩

theorem settleTarget_spec {t : DependencyTarget} (hi : L.Inv s)
    (h : settleTarget S.toStore now tenant t s = .ok ((), s')) :
    L.Inv s' ∧ Settles now tenant t (L.view s) (L.view s') := by
  unfold settleTarget at h
  obtain ⟨ws, hws, h⟩ := Tx.read_bind_eq_ok.mp h
  obtain ⟨hi', hfr, hk⟩ := forM_waits L
    (U := fun v w x => ∃ w', Evaluated v now w w' ∧ x = w'.copy)
    (fun hf ⟨w', he, hx⟩ => ⟨w', he.congr hf, hx⟩)
    (fun w _ s s' hi hrun => by
      obtain ⟨w', h₁, -⟩ := Tx.bind_pure_eq_ok.mp hrun
      obtain ⟨hi', he, hv⟩ := settleWait_spec L hi h₁
      exact ⟨hi', w'.copy, he.key, ⟨w', he, rfl⟩, hv⟩)
    hi (L.targetWaits_nodup hi hws) h
  refine ⟨hi', hfr, fun k => ?_⟩
  rcases hk k with ⟨hne, hsame⟩ | ⟨w, hw, rfl, x, ⟨w', he, rfl⟩, hx⟩
  · refine Or.inl ⟨hsame, fun w hw ht hp d hd hdp htgt => ?_⟩
    have hkey := (L.keyed hi).wait _ _ hw
    exact hne w (L.targetWaits_complete hi hws w (hkey ▸ hw) ht hp ⟨d, hd, hdp, htgt⟩) hkey
  · obtain ⟨hp, hst⟩ := L.targetWaits_stored hi hws w hw
    exact Or.inr ⟨w, w', hst, hp, he, hx⟩

theorem closed_not_pending (w : DependencyWaitInfo) : (closed w).state ≠ .pending := by
  unfold closed
  split
  · simp [closePending]
  · next h => exact h

theorem closed_key (w : DependencyWaitInfo) : (closed w).key = w.key := by
  unfold closed
  split <;> rfl

theorem closeConsumer_spec (hi : L.Inv s) (h : closeConsumer S.toStore now key s = .ok ((), s')) :
    L.Inv s' ∧ Closes now key (L.view s) (L.view s') := by
  unfold closeConsumer at h
  obtain ⟨ws, hws, h⟩ := Tx.read_bind_eq_ok.mp h
  have hmem := L.consumerWaits_ok hi hws
  obtain ⟨hi', hfr, hk⟩ := forM_waits L
    (U := fun v w x => ∃ w', Evaluated v now w w' ∧ x = (closed w').copy)
    (fun hf ⟨w', he, hx⟩ => ⟨w', he.congr hf, hx⟩)
    (fun w hw s s' hi hrun => by
      rw [if_pos ((hmem w).mp hw).2.1] at hrun
      obtain ⟨w', he, h₂⟩ := Tx.read_bind_eq_ok.mp hrun
      have he := evaluate_spec L hi he
      obtain ⟨hi', hv⟩ := L.saveWait_ok hi (Tx.write_eq_ok.mp h₂)
      exact ⟨hi', (closed w').copy, (closed_key w').trans he.key, ⟨w', he, rfl⟩, hv⟩)
    hi (L.consumerWaits_nodup hi hws) h
  refine ⟨hi', hfr, fun k => ?_⟩
  rcases hk k with ⟨hne, hsame⟩ | ⟨w, hw, rfl, x, ⟨w', he, rfl⟩, hx⟩
  · refine Or.inl ⟨hsame, fun w hw ho hp => ?_⟩
    have hkey := (L.keyed hi).wait _ _ hw
    exact hne w ((hmem w).mpr ⟨ho, hp, hkey ▸ hw⟩) hkey
  · obtain ⟨ho, hp, hst⟩ := (hmem w).mp hw
    exact Or.inr ⟨w, w', hst, ho, hp, he, hx⟩

/-- Saving a decided goal over an open one and settling the waits on it. -/
theorem closeGoal_spec {s₁ s₂ : σ} {g : GoalInfo} (hi : L.Inv s)
    (hopen : ∃ g₀, (L.view s).goal g.goalKey = some g₀ ∧ g₀.state = .open) (hg : g.state ≠ .open)
    (hf : g.state = .failed → ∃ f, g.failure = some f ∧ f.OfGoal)
    (h₁ : Tx.write (S.saveGoal g) s = .ok (u, s₁))
    (h₂ : settleTarget S.toStore now g.goalKey.tenantId { goalID := g.goalKey.goalID } s₁ =
      .ok ((), s₂))
    :
    L.Inv s₂ ∧ ∃ g', g.SavedAs g' ∧ ClosesGoal now g.goalKey g' (L.view s) (L.view s₂) := by
  obtain ⟨hi₁, g', hsav, hv₁⟩ := L.saveGoal_ok hi (Tx.write_eq_ok.mp h₁)
  obtain ⟨hi₂, hset⟩ := settleTarget_spec L hi₁ h₂
  refine ⟨hi₂, g', hsav, ⟨hopen, hsav.goalKey, hsav.state ▸ hg, hv₁ ▸ hset, fun hf' => ?_⟩⟩
  obtain ⟨f, hgf, hof⟩ := hf (hsav.state ▸ hf')
  exact ⟨f, by rw [hsav.failure, hgf, Option.map_some, hof.copy], hof⟩

theorem resolve_spec {g g' : GoalInfo} {jobID : String} (hi : L.Inv s)
    (hg : (L.view s).goal g.goalKey = some g) (h : resolve S.toStore now g jobID s = .ok (g', s')) :
    L.Inv s' ∧ Resolves now jobID g.goalKey (L.view s) (L.view s') := by
  unfold resolve at h
  split at h
  · next hs =>
    obtain ⟨_, rfl⟩ := Tx.pure_eq_ok.mp h
    exact ⟨hi, .already hg hs⟩
  · next hs =>
    obtain ⟨_, s₁, h₁, h⟩ := Tx.bind_eq_ok.mp h
    obtain ⟨_, h₂, -⟩ := Tx.bind_pure_eq_ok.mp h
    obtain ⟨hi₂, g₁, hsav, hclose⟩ := closeGoal_spec L (g := wonBy now g jobID) hi
      ⟨g, hg, not_not.mp hs⟩ (by simp [wonBy]) (by simp [wonBy]) h₁ h₂
    exact ⟨hi₂, .closes hsav.state hsav.successfulJobID hclose⟩

/-- One iteration of the goal loop of `Complete`. -/
theorem resolveGoal_spec {jobID : String} (gk : GoalKey) (hi : L.Inv s)
    (h : (do let g ← Tx.read (S.goal · gk) let _ ← resolve S.toStore now g jobID :
      Tx σ Err Unit) s = .ok ((), s'))
    :
    L.Inv s' ∧ Resolves now jobID gk (L.view s) (L.view s') := by
  obtain ⟨g, hg, h⟩ := Tx.read_bind_eq_ok.mp h
  obtain ⟨g', hres, -⟩ := Tx.bind_pure_eq_ok.mp h
  have hst := L.goal_ok hi hg
  obtain rfl := (L.keyed hi).goal _ _ hst
  exact resolve_spec L hi hst hres

theorem resolveGoals_spec {j : Job} (hi : L.Inv s) (hst : (L.view s).job j.key = some j)
    (h : resolveGoals S.toStore now j.key j s = .ok ((), s')) :
    L.Inv s' ∧ ∃ gks, (∀ gk, gk ∈ gks ↔ j.success = true ∧ (L.view s).Candidate gk j) ∧
      Along (Resolves now j.key.jobId) gks (L.view s) (L.view s') := by
  unfold resolveGoals at h
  split at h
  · next hsucc =>
    obtain ⟨gs, hgs, h⟩ := Tx.read_bind_eq_ok.mp h
    obtain ⟨hi', hr⟩ := forM_along (fun gk _ _ => resolveGoal_spec L gk) hi h
    refine ⟨hi', _, fun gk => ?_, hr⟩
    rw [List.mem_insertionSort, L.goals_ok hi hgs]
    constructor
    · rintro ⟨j', hk, hc⟩
      have hj' := hc.stored
      rw [hk, hst, Option.some.injEq] at hj'
      exact ⟨hsucc, hj' ▸ hc⟩
    · exact fun ⟨_, hc⟩ => ⟨j, rfl, hc⟩
  · next hsucc =>
    obtain ⟨_, rfl⟩ := Tx.pure_eq_ok.mp h
    exact ⟨hi, [], by simp [hsucc], .nil⟩

theorem complete_spec (hi : L.Inv s) (h : complete S.toStore now key s = .ok ((), s')) :
    L.Inv s' ∧ Completes now key (L.view s) (L.view s') := by
  unfold complete at h
  obtain ⟨j, hj, h⟩ := Tx.read_bind_eq_ok.mp h
  have hst := L.job_ok hi hj
  obtain rfl := (L.keyed hi).job _ _ hst
  obtain ⟨_, s₁, h₁, h⟩ := Tx.bind_eq_ok.mp h
  obtain ⟨_, s₂, h₂, h₃⟩ := Tx.bind_eq_ok.mp h
  obtain ⟨hi₁, gks, hgks, hr⟩ := resolveGoals_spec L hi hst h₁
  obtain ⟨hi₂, hc⟩ := closeConsumer_spec L hi₁ h₂
  obtain ⟨hi₃, hset⟩ := settleTarget_spec L hi₂ h₃
  exact ⟨hi₃, .mk hst hgks hr hc hset⟩

/-- The successors `CheckCycle` visits cover the unresolved edges. -/
theorem successors_cover (hi : L.Inv s) (n : DependencyTarget) (next : List DependencyTarget)
    (h : successors S.toStore now s tenant n = .ok next) (b : Node)
    (he : (L.view s).Edge now tenant n.node b) : ∃ m ∈ next, m.node = b := by
  unfold successors at h
  unfold DependencyTarget.node at he
  split at h
  · next hg =>
    rw [if_pos hg] at he
    obtain ⟨g, hgoal, h⟩ := bind_eq_ok.mp h
    have hst := L.goal_ok hi hgoal
    cases he with
    | @goal _ g' j hst' hopen hc hlive =>
      rw [hst, Option.some.injEq] at hst'
      subst hst'
      rw [if_pos hopen] at h
      obtain ⟨js, hjs, rfl⟩ := map_eq_ok.mp h
      rw [(L.keyed hi).goal _ _ hst] at hjs
      have hmem : j ∈ js := (L.candidates_ok hi hjs j).mpr hc
      refine ⟨{ jobID := j.key.jobId },
        List.mem_map.mpr ⟨j, ?_, rfl⟩, by simp [DependencyTarget.node]⟩
      exact List.mem_filter.mpr ⟨hmem, by simp [hlive]⟩
  · next hg =>
    rw [if_neg hg] at he
    obtain ⟨j, hjob, h⟩ := bind_eq_ok.mp h
    have hst := L.job_ok hi hjob
    cases he with
    | @job _ j' w d hst' hlive hw howner hpend hfresh hmem hun =>
      rw [hst, Option.some.injEq] at hst'
      subst hst'
      rw [if_neg (by simp [hlive])] at h
      obtain ⟨ws, hws, rfl⟩ := map_eq_ok.mp h
      have hmw : w ∈ ws := (L.consumerWaits_ok hi hws w).mpr ⟨howner, hpend, hw⟩
      refine ⟨d.target, List.mem_flatMap.mpr ⟨w, ?_, ?_⟩, rfl⟩
      · exact List.mem_filter.mpr ⟨hmw, by simp [hpend, hfresh]⟩
      · exact List.mem_map.mpr ⟨d, List.mem_filter.mpr ⟨hmem, by simp [hun]⟩, rfl⟩

/-- **A passed cycle check** leaves the store alone and proves every unresolved
path from its start finite. -/
theorem checkCycle_spec {start : DependencyTarget} (hi : L.Inv s)
    (h : checkCycle S.toStore now tenant start s = .ok ((), s')) :
    s' = s ∧ Grounded now tenant start.node (L.view s) := by
  obtain ⟨hv, rfl⟩ := Tx.read_eq_ok.mp h
  cases hr : Digraph.visit (successors S.toStore now s' tenant) .dependencyCycle .outOfFuel
      (S.size s' + 2) [] [] start with
  | error e => simp [hr, Except.map] at hv
  | ok r => exact ⟨rfl, Digraph.visit_acc (successors_cover L hi) hr⟩

theorem blank_ne_empty {x : String} (h : blank x = false) : x ≠ "" := by
  rintro rfl
  simp [blank] at h

theorem GoalKey.validate_ok {k : GoalKey} (h : k.validate = .ok u) :
    k.tenantId ≠ "" ∧ k.goalID ≠ "" := by
  unfold GoalKey.validate at h
  split at h
  · cases h
  · next hb =>
    simp only [Bool.or_eq_true, not_or, Bool.not_eq_true] at hb
    exact ⟨blank_ne_empty hb.1, blank_ne_empty hb.2⟩

theorem FailGoalRequest.validate_ok {r : FailGoalRequest} (h : r.validate = .ok u) :
    r.goalKey.goalID ≠ "" := by
  unfold FailGoalRequest.validate at h
  obtain ⟨_, hk, _⟩ := bind_eq_ok.mp h
  exact (GoalKey.validate_ok hk).2

theorem fail_spec {req : FailGoalRequest} {g' : GoalInfo} (hi : L.Inv s)
    (h : fail S.toStore now req s = .ok (g', s')) :
    L.Inv s' ∧ Fails now req.goalKey (L.view s) (L.view s') := by
  unfold fail at h
  obtain ⟨_, hval, h⟩ := Tx.read_bind_eq_ok.mp h
  obtain ⟨g, hg, h⟩ := Tx.read_bind_eq_ok.mp h
  have hst := L.goal_ok hi hg
  have hkey := (L.keyed hi).goal _ _ hst
  split at h
  · obtain ⟨_, rfl⟩ := Tx.pure_eq_ok.mp h
    exact ⟨hi, .already⟩
  · obtain ⟨hopen, h⟩ := Tx.require_bind_eq_ok.mp h
    obtain ⟨js, _, h⟩ := Tx.read_bind_eq_ok.mp h
    obtain ⟨_, s₁, h₁, h⟩ := Tx.bind_eq_ok.mp h
    obtain ⟨_, h₂, -⟩ := Tx.bind_pure_eq_ok.mp h
    rw [← hkey] at h₂ hst
    obtain ⟨hi₂, g₁, hsav, hclose⟩ := closeGoal_spec L (g := failedBy now g req js) hi
      ⟨g, hst, hopen⟩ (by simp [failedBy])
      (fun _ => ⟨failureOf now req js, rfl, rfl, FailGoalRequest.validate_ok hval⟩) h₁ h₂
    exact ⟨hi₂, .closes hsav.state (hkey ▸ hclose)⟩

theorem node_goal {id : String} (h : id ≠ "") :
    ({ goalID := id } : DependencyTarget).node = .goal id := by
  simp [DependencyTarget.node, h]

theorem node_job (id : String) : ({ jobID := id } : DependencyTarget).node = .job id := by
  simp [DependencyTarget.node]

theorem add_spec {req : AddGoalCandidateRequest} {r : GoalCandidateInfo} (hi : L.Inv s)
    (h : add S.toStore now req s = .ok (r, s')) :
    L.Inv s' ∧ Adds now req.goalKey req.jobID (L.view s) (L.view s') := by
  unfold add at h
  obtain ⟨_, hval, h⟩ := Tx.read_bind_eq_ok.mp h
  obtain ⟨_, h⟩ := Tx.require_bind_eq_ok.mp h
  obtain ⟨g, hg, h⟩ := Tx.read_bind_eq_ok.mp h
  obtain ⟨j, hj, h⟩ := Tx.read_bind_eq_ok.mp h
  obtain ⟨r?, _, h⟩ := Tx.read_bind_eq_ok.mp h
  have hgst := L.goal_ok hi hg
  have hgk := (L.keyed hi).goal _ _ hgst
  have hjst := L.job_ok hi hj
  have hjk := (L.keyed hi).job _ _ hjst
  cases r? with
  | some t =>
    obtain ⟨_, rfl⟩ := Tx.pure_eq_ok.mp h
    exact ⟨hi, .listed⟩
  | none =>
    obtain ⟨hopen, h⟩ := Tx.require_bind_eq_ok.mp h
    obtain ⟨_, s₁, h₁, h⟩ := Tx.bind_eq_ok.mp h
    obtain ⟨hi₁, t, hv₁⟩ := L.insertCandidate_ok hi (Tx.write_eq_ok.mp h₁)
    have hopen' : ∃ g, (L.view s).goal req.goalKey = some g ∧ g.state = .open := ⟨g, hgst, hopen⟩
    split at h
    · next hsucc =>
      obtain ⟨g', h₂, -⟩ := Tx.bind_pure_eq_ok.mp h
      have hgst₁ : (L.view s₁).goal g.goalKey = some g := by rw [hv₁, hgk]; exact hgst
      obtain ⟨hi₂, hr⟩ := resolve_spec L hi₁ hgst₁ h₂
      rw [hv₁, hgk, hjk] at hr
      exact ⟨hi₂, .success hjst hsucc hr⟩
    · next hsucc =>
      have hlost : j.success = false := by simpa using hsucc
      split at h
      · next hterm =>
        obtain ⟨_, rfl⟩ := Tx.pure_eq_ok.mp h
        exact ⟨hi₁, hv₁ ▸ .terminal hjst hopen' hlost hterm⟩
      · obtain ⟨_, h₂, -⟩ := Tx.bind_pure_eq_ok.mp h
        obtain ⟨rfl, hacc⟩ := checkCycle_spec L hi₁ h₂
        rw [hgk, hjk, node_goal (GoalKey.validate_ok hval).2, hv₁] at hacc
        exact ⟨hi₁, hv₁ ▸ .live hjst hopen' hlost hacc⟩

/-- The dependencies a new wait starts from. -/
theorem registerTargets_spec : ∀ {ds : List Dependency} {s s' : σ}
    {rs : List DependencyResolution}, ds.mapM (registerTarget S.toStore key) s = .ok (rs, s') →
    s' = s ∧ rs.map (·.target) = ds.map (·.target)
  | [], s, s', rs, h => by
    rw [List.mapM_nil] at h
    obtain ⟨rfl, rfl⟩ := Tx.pure_eq_ok.mp h
    exact ⟨rfl, rfl⟩
  | d :: ds, s, s', rs, h => by
    rw [List.mapM_cons] at h
    obtain ⟨r, s₁, h₁, h⟩ := Tx.bind_eq_ok.mp h
    obtain ⟨rs', h₂, rfl⟩ := Tx.bind_pure_eq_ok.mp h
    obtain ⟨rfl, hrest⟩ := registerTargets_spec h₂
    unfold registerTarget at h₁
    obtain ⟨_, h₁⟩ := Tx.require_bind_eq_ok.mp h₁
    split at h₁
    · obtain ⟨_, _, h₁⟩ := Tx.read_bind_eq_ok.mp h₁
      obtain ⟨rfl, rfl⟩ := Tx.pure_eq_ok.mp h₁
      exact ⟨rfl, by rw [List.map_cons, List.map_cons, hrest]⟩
    · obtain ⟨_, _, h₁⟩ := Tx.read_bind_eq_ok.mp h₁
      obtain ⟨rfl, rfl⟩ := Tx.pure_eq_ok.mp h₁
      exact ⟨rfl, by rw [List.map_cons, List.map_cons, hrest]⟩

theorem register_spec {req : DependencyWait} {submission : Bool} (hi : L.Inv s)
    (h : register S.toStore now key req submission s = .ok (w, s')) :
    L.Inv s' ∧ Registers now key req (L.view s) (L.view s') := by
  unfold register at h
  obtain ⟨_, _, h⟩ := Tx.read_bind_eq_ok.mp h
  obtain ⟨_, _, h⟩ := Tx.read_bind_eq_ok.mp h
  obtain ⟨old, hold, h⟩ := Tx.read_bind_eq_ok.mp h
  cases old with
  | some w₀ =>
    obtain ⟨_, h⟩ := Tx.require_bind_eq_ok.mp h
    have hst : (L.view s).wait ⟨key, req.waitID⟩ = some w₀ := by
      split at hold
      · next hw => exact L.wait_ok hi (Option.some.inj (Except.ok.inj hold) ▸ hw)
      · cases hold
      · cases hold
    obtain ⟨hi', he, hv⟩ := settleWait_spec L hi h
    exact ⟨hi', hv ▸ .again hst ((L.keyed hi).wait _ _ hst) he⟩
  | none =>
    have habs : (L.view s).wait ⟨key, req.waitID⟩ = none := by
      split at hold
      · cases hold
      · next hw => exact L.wait_none hi hw
      · cases hold
    unfold registerNew at h
    obtain ⟨deps, s₁, h₁, h⟩ := Tx.bind_eq_ok.mp h
    obtain ⟨w', s₂, h₂, h⟩ := Tx.bind_eq_ok.mp h
    obtain ⟨_, h₃, -⟩ := Tx.bind_pure_eq_ok.mp h
    obtain ⟨rfl, htargets⟩ := registerTargets_spec h₁
    obtain ⟨hi₂, he, hv⟩ := settleWait_spec L hi h₂
    obtain ⟨rfl, hacc⟩ := checkCycle_spec L hi₂ h₃
    rw [node_job, hv] at hacc
    exact ⟨hi₂, hv ▸ .new habs rfl rfl htargets he hacc⟩

end Runs

end Engine

end JobDB
