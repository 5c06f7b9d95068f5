import JobDB.Goal.Operations

/-!
# A goal is decided once, and by one of its candidates

Success reaches a goal along three paths: a job published under it, a job added
after it already succeeded, and a job added before it succeeds. `GoalInv`
covers all of them. Inside an operation its main clause has exceptions, the
set `E`: once a job's success is stored, the open goals it is a candidate of
are the ones still to be resolved, and each iteration of `Complete` takes one
of them away.

`Decides` is the other half: no effect touches a goal that is not open
(`decides_allowed`).
-/

namespace JobDB

open Engine View

/-- The goal invariant, up to the (goal, job) pairs in `E`. -/
structure GoalInv (E : GoalKey → JobKey → Prop) (v : View) : Prop where
  jobKey : ∀ {k j}, v.job k = some j → j.key = k
  terminal : ∀ {k j}, v.job k = some j → j.success = true → j.terminal = true
  primary : ∀ {k j}, v.job k = some j → ∃ g, v.goal ⟨k.tenantId, j.goalID⟩ = some g
  extra : ∀ {gk id}, (v.extra gk id).isSome → ∃ g, v.goal gk = some g
  listed : ∀ {gk id}, (v.extra gk id).isSome → ∃ j, v.job ⟨gk.tenantId, id⟩ = some j
  /-- An open goal has no successful candidate. -/
  undecided : ∀ {gk g j}, v.goal gk = some g → g.state = .open → v.Candidate gk j →
    j.success = true → E gk j.key
  /-- A succeeded goal was won by one of its candidates. -/
  won : ∀ {gk g}, v.goal gk = some g → g.state = .succeeded →
    ∃ j, v.Candidate gk j ∧ j.key.jobId = g.successfulJobID ∧ j.success = true

/-- No exceptions. -/
abbrev NoPair : GoalKey → JobKey → Prop := fun _ _ => False

/-- Decided goals stay as they are. -/
def Decides (v v' : View) : Prop :=
  ∀ gk g, v.goal gk = some g → g.state ≠ .open → v'.goal gk = some g

/-! ## One change of the view at a time -/

section Changes

variable {E F : GoalKey → JobKey → Prop} {v v' : View}

theorem GoalInv.mono (h : GoalInv E v) (sub : ∀ gk k, E gk k → F gk k) : GoalInv F v :=
  { h with undecided := fun hg ho hc hs => sub _ _ (h.undecided hg ho hc hs) }

theorem GoalInv.sameFacts (h : GoalInv E v) (hf : SameFacts v v') : GoalInv E v' where
  jobKey hj := h.jobKey (hf.job ▸ hj)
  terminal hj := h.terminal (hf.job ▸ hj)
  primary hj := hf.goal.symm ▸ h.primary (hf.job ▸ hj)
  extra he := hf.goal.symm ▸ h.extra (hf.extra ▸ he)
  listed he := hf.job.symm ▸ h.listed (hf.extra ▸ he)
  undecided hg ho hc := h.undecided (hf.goal ▸ hg) ho (hf.candidate.mp hc)
  won hg hs := by
    obtain ⟨j, hc, hw⟩ := h.won (hf.goal ▸ hg) hs
    exact ⟨j, hf.candidate.mpr hc, hw⟩

theorem View.SameFacts.decides (hf : SameFacts v v') : Decides v v' :=
  fun _ _ hg _ => hf.goal.symm ▸ hg

variable {g : GoalInfo} {gk : GoalKey} {j : Job} {now : Time}

theorem candidate_setGoal : (v.setGoal g).Candidate gk j ↔ v.Candidate gk j :=
  ⟨fun ⟨hs, ht, hl⟩ => ⟨hs, ht, hl⟩, fun ⟨hs, ht, hl⟩ => ⟨hs, ht, hl⟩⟩

theorem exists_setGoal (h : ∃ g₀, v.goal gk = some g₀) : ∃ g₀, (v.setGoal g).goal gk = some g₀ := by
  rw [setGoal_goal]
  split
  · exact ⟨g, rfl⟩
  · exact h

theorem exists_setJob {k : JobKey} (h : ∃ j₀, v.job k = some j₀) :
    ∃ j₀, (v.setJob j).job k = some j₀ := by
  rw [setJob_job]
  split
  · exact ⟨j, rfl⟩
  · exact h

/-- Deciding an open goal takes its pairs out of the exceptions. -/
theorem GoalInv.decide (h : GoalInv E v) (hdec : g.state ≠ .open)
    (hwon : g.state = .succeeded → ∃ j, v.Candidate g.goalKey j ∧ j.key.jobId = g.successfulJobID ∧
      j.success = true)
    :
    GoalInv (fun gk k => E gk k ∧ gk ≠ g.goalKey) (v.setGoal g) where
  jobKey := h.jobKey
  terminal := h.terminal
  primary hj := exists_setGoal (h.primary hj)
  extra he := exists_setGoal (h.extra he)
  listed := h.listed
  undecided {gk g₁ j} hg ho hc hs := by
    rcases of_setGoal hg with ⟨-, rfl⟩ | ⟨hne, hg⟩
    · exact absurd ho hdec
    · exact ⟨h.undecided hg ho (candidate_setGoal.mp hc) hs, hne⟩
  won {gk g₁} hg hs := by
    rcases of_setGoal hg with ⟨heq, rfl⟩ | ⟨-, hg⟩
    · obtain ⟨j, hc, hw⟩ := hwon hs
      exact ⟨j, heq ▸ candidate_setGoal.mpr hc, hw⟩
    · obtain ⟨j, hc, hw⟩ := h.won hg hs
      exact ⟨j, candidate_setGoal.mpr hc, hw⟩

/-- Resolving a goal for a successful candidate. -/
theorem Engine.Resolves.goalInv (hr : Resolves now j.key.jobId gk v v') (h : GoalInv E v)
    (hc : v.Candidate gk j) (hs : j.success = true) :
    GoalInv (fun gk' k => E gk' k ∧ gk' ≠ gk) v' := by
  cases hr with
  | already hst hdec =>
    refine { h with undecided := fun {gk' g j'} hg ho hc' hs' => ?_ }
    refine ⟨h.undecided hg ho hc' hs', ?_⟩
    rintro rfl
    rw [hst, Option.some.injEq] at hg
    exact hdec (hg ▸ ho)
  | closes hstate hwin hclose =>
    obtain ⟨_, rfl, hdec, hset⟩ := hclose
    exact (h.decide hdec fun _ => ⟨j, hc, hwin.symm, hs⟩).sameFacts hset.facts

theorem Engine.Resolves.job {jobID : String} (h : Resolves now jobID gk v v') :
    v'.job = v.job ∧ v'.extra = v.extra := by
  cases h with
  | already => exact ⟨rfl, rfl⟩
  | closes _ _ hc => exact ⟨hc.settles.facts.job, hc.settles.facts.extra⟩

end Changes

/-! ## The operations -/

section Operations

variable {now : Time} {v v' : View}

variable {gk : GoalKey} {j : Job} {jobID : String} {key : JobKey} {p : Publication}

theorem Engine.Resolves.candidate {gk' : GoalKey} (h : Resolves now jobID gk v v')
    (hc : v.Candidate gk' j) : v'.Candidate gk' j :=
  ⟨h.job.1.symm ▸ hc.stored, hc.tenant, h.job.2.symm ▸ hc.listed⟩

/-- After a job's outcome is stored, `Complete` restores the invariant: the
exceptions are the goals its loop has not reached yet. -/
theorem Engine.Completes.goalInv (hc : Completes now key v v') (h : GoalInv (fun _ k => k = key) v)
    : GoalInv NoPair v' := by
  obtain ⟨hst, hgoals, hres, hclose, hset⟩ := hc
  rename_i v₁ v₂ j gks
  obtain rfl := h.jobKey hst
  have hstart : GoalInv (fun gk k => k = j.key ∧ gk ∈ gks) v := by
    refine { h with undecided := fun {gk g j'} hg ho hc hs => ?_ }
    have hk : j'.key = j.key := h.undecided hg ho hc hs
    have hj' := hc.stored
    rw [hk, hst, Option.some.injEq] at hj'
    subst hj'
    exact ⟨rfl, (hgoals gk).mpr ⟨hs, hc⟩⟩
  have hcand : ∀ gk ∈ gks, j.success = true ∧ v.Candidate gk j := fun gk hgk => (hgoals gk).mp hgk
  have hend : GoalInv (fun gk k => k = j.key ∧ gk ∈ ([] : List GoalKey)) v₁ :=
    (hres.invariant (P := fun rest u => GoalInv (fun gk k => k = j.key ∧ gk ∈ rest) u ∧
        ∀ gk ∈ rest, j.success = true ∧ u.Candidate gk j)
      (fun {gk rest u u'} hr ⟨hinv, hcs⟩ => by
        obtain ⟨hs, hcgk⟩ := hcs gk (by simp)
        refine ⟨(hr.goalInv hinv hcgk hs).mono ?_, fun gk' hgk' => ?_⟩
        · rintro gk' k ⟨⟨hk, hmem⟩, hne⟩
          exact ⟨hk, (List.mem_cons.mp hmem).resolve_left hne⟩
        · exact ⟨hs, hr.candidate (hcs gk' (List.mem_cons_of_mem _ hgk')).2⟩)
      ⟨hstart, hcand⟩).1
  have hdone : GoalInv NoPair v₁ := hend.mono fun _ _ hE => by simp at hE
  exact (hdone.sameFacts hclose.facts).sameFacts hset.facts

/-- A job that is stored where no successful one is: its own success is the only exception. -/
theorem GoalInv.setJob (h : GoalInv NoPair v) (hterm : j.success = true → j.terminal = true)
    (hgoal : ∃ g, v.goal ⟨j.key.tenantId, j.goalID⟩ = some g)
    (hold : ∀ j₀, v.job j.key = some j₀ → j₀.success = false) :
    GoalInv (fun _ k => k = j.key ∧ j.success = true) (v.setJob j) := by
  refine { jobKey := fun {k j'} hj => ?_, terminal := fun {k j'} hj => ?_,
           primary := fun {k j'} hj => ?_,
           extra := h.extra, listed := fun he => exists_setJob (h.listed he),
           undecided := fun {gk g j'} hg ho hc hs => ?_, won := fun {gk g} hg hs => ?_ }
  · rcases of_setJob hj with ⟨hk, rfl⟩ | ⟨-, hj⟩
    · exact hk.symm
    · exact h.jobKey hj
  · rcases of_setJob hj with ⟨-, rfl⟩ | ⟨-, hj⟩
    · exact hterm
    · exact h.terminal hj
  · rcases of_setJob hj with ⟨hk, rfl⟩ | ⟨-, hj⟩
    · exact hk ▸ hgoal
    · exact h.primary hj
  · obtain ⟨hst, htn, hl⟩ := hc
    rcases of_setJob hst with ⟨hk, rfl⟩ | ⟨-, hst⟩
    · exact ⟨hk, hs⟩
    · exact (h.undecided hg ho ⟨hst, htn, hl⟩ hs).elim
  · -- the winner has succeeded already, so it is not this job
    obtain ⟨jw, hc, hid, hsucc⟩ := h.won hg hs
    refine ⟨jw, ⟨?_, hc.tenant, hc.listed⟩, hid, hsucc⟩
    rw [setJob_job, if_neg ?_]
    · exact hc.stored
    · intro hk
      cases hsucc.symm.trans (hold jw (hk ▸ hc.stored))

theorem Finishes.goalInv {success : Bool} (hf : Finishes key success v v') (h : GoalInv NoPair v) :
    GoalInv (fun _ k => k = key ∧ success = true) v' := by
  obtain ⟨hst, hlive⟩ := hf
  rename_i j
  obtain rfl := h.jobKey hst
  have hgoal := h.primary hst
  refine h.setJob (j := { j with terminal := true, success }) (fun _ => rfl) hgoal fun j₀ hj₀ => ?_
  cases hst.symm.trans hj₀
  exact Bool.eq_false_iff.2 fun hs => by cases hlive.symm.trans (h.terminal hst hs)

theorem Cancels.goalInv (hc : Cancels key v v') (h : GoalInv NoPair v) : GoalInv NoPair v' := by
  cases hc with
  | already => exact h
  | finishes hf => exact (Finishes.goalInv hf h).mono fun _ _ hE => by simp at hE

/-- Listing a further candidate of an open goal; a job that has already
succeeded is the one exception. -/
theorem GoalInv.setExtra (h : GoalInv NoPair v) {t : Time}
    (hj : v.job ⟨gk.tenantId, jobID⟩ = some j) (hg : ∃ g, v.goal gk = some g) :
    GoalInv (fun gk' k => gk' = gk ∧ k = j.key ∧ j.success = true) (v.setExtra gk jobID t) where
  jobKey := h.jobKey
  terminal := h.terminal
  primary := h.primary
  extra {gk' id} he := by
    unfold View.setExtra at he
    dsimp only at he
    split at he
    · next heq => exact heq.1 ▸ hg
    · exact h.extra he
  listed {gk' id} he := by
    unfold View.setExtra at he
    dsimp only at he
    split at he
    · next heq => exact ⟨j, by rw [heq.1, heq.2]; exact hj⟩
    · exact h.listed he
  undecided {gk' g j'} hg' ho hc hs := by
    obtain ⟨hst, htn, hl⟩ := hc
    unfold View.setExtra at hl
    dsimp only at hl
    split at hl
    · next heq =>
      obtain ⟨rfl, hid⟩ := heq
      have hk : j'.key = ⟨gk'.tenantId, jobID⟩ := by rw [← htn, ← hid]
      have hj' : v.job j'.key = some j' := hst
      rw [hk, hj, Option.some.injEq] at hj'
      exact ⟨rfl, by rw [hj'], hj' ▸ hs⟩
    · exact (h.undecided hg' ho ⟨hst, htn, hl⟩ hs).elim
  won {gk' g} hg' hs := by
    obtain ⟨jw, hc, hw⟩ := h.won hg' hs
    refine ⟨jw, ⟨hc.stored, hc.tenant, hc.listed.imp_right fun hl => ?_⟩, hw⟩
    unfold View.setExtra
    dsimp only
    split
    · rfl
    · exact hl

theorem Engine.Adds.goalInv (ha : Adds now gk jobID v v') (h : GoalInv NoPair v) :
    GoalInv NoPair v' := by
  cases ha with
  | listed => exact h
  | @success _ j t hst hwon hr =>
    have hk := h.jobKey hst
    have hgoal : ∃ g, v.goal gk = some g := by
      cases hr with
      | already hg => exact ⟨_, hg⟩
      | closes _ _ hc => exact ⟨_, hc.isOpen.choose_spec.1⟩
    have hcand : (v.setExtra gk jobID t).Candidate gk j :=
      ⟨by rw [hk]; exact hst, by rw [hk], Or.inr (by simp [View.setExtra, hk])⟩
    have hid : jobID = j.key.jobId := by rw [hk]
    rw [hid] at hr hcand hst
    exact (hr.goalInv (h.setExtra hst hgoal) hcand hwon).mono fun _ _ hE => hE.2 hE.1.1
  | terminal hst hopen hlost _ =>
    exact (h.setExtra hst (hopen.imp fun _ hg => hg.1)).mono fun _ _ hE => by simp [hlost] at hE
  | live hst hopen hlost _ =>
    exact (h.setExtra hst (hopen.imp fun _ hg => hg.1)).mono fun _ _ hE => by simp [hlost] at hE

theorem Engine.Fails.goalInv (hf : Fails now gk v v') (h : GoalInv NoPair v) :
    GoalInv NoPair v' := by
  cases hf with
  | already => exact h
  | closes hstate hc =>
    have hdec := h.decide hc.decided fun hs => by rw [hstate] at hs; cases hs
    exact (hdec.mono fun _ _ hE => hE.1).sameFacts hc.settles.facts

theorem Engine.Registers.facts {req : DependencyWait} (h : Registers now key req v v') :
    SameFacts v v' := by
  cases h <;> exact SameFacts.setWait _ _

theorem PublishesWait.facts (h : PublishesWait now p v v') : SameFacts v v' := by
  cases h with
  | none => exact .refl v
  | wait hr => exact hr.facts

/-- A new goal is open and has no candidates yet. -/
theorem PublishesGoal.goalInv (hp : PublishesGoal p v v') (h : GoalInv NoPair v) :
    GoalInv NoPair v' ∧ ∃ g, v'.goal p.goalKey = some g := by
  cases hp with
  | shared hst _ => exact ⟨h, _, hst⟩
  | @new g habs hkey hopen =>
    have hstored : (v.setGoal g).goal p.goalKey = some g := by rw [setGoal_goal, hkey, if_pos rfl]
    refine ⟨{ h with
      primary := fun hj => exists_setGoal (h.primary hj)
      extra := fun he => exists_setGoal (h.extra he)
      undecided := fun {gk g' j} hg ho hc hs => ?_
      won := fun {gk g'} hg hs => ?_ }, g, hstored⟩
    · rcases of_setGoal hg with ⟨heq, -⟩ | ⟨-, hg⟩
      · -- every candidate's goal is stored, and this one was not
        obtain ⟨hst, htn, hl⟩ := hc
        have hsome : ∃ g₀, v.goal gk = some g₀ := by
          rcases hl with hl | hl
          · have := h.primary hst
            rwa [hl, htn] at this
          · exact h.extra hl
        obtain ⟨g₀, hg₀⟩ := hsome
        rw [heq, hkey, habs] at hg₀
        cases hg₀
      · exact h.undecided hg ho (candidate_setGoal.mp hc) hs
    · rcases of_setGoal hg with ⟨-, rfl⟩ | ⟨-, hg⟩
      · rw [hopen] at hs
        cases hs
      · obtain ⟨j, hc, hw⟩ := h.won hg hs
        exact ⟨j, candidate_setGoal.mpr hc, hw⟩

theorem Publishes.goalInv (hp : Publishes now p v v') (h : GoalInv NoPair v) :
    GoalInv NoPair v' := by
  obtain ⟨_, hgoal, habs, hwait, _⟩ := hp
  obtain ⟨h₁, hg⟩ := hgoal.goalInv h
  have hjob := h₁.setJob (j := p.newJob) nofun hg fun _ hj₀ => nomatch habs.symm.trans hj₀
  exact (hjob.mono fun _ _ hE => nomatch hE.2).sameFacts hwait.facts

theorem decides_allowed (now : Time) : AllowsAll now Decides where
  refl _ _ _ hg _ := hg
  trans h h' gk g hg hs := h' gk g (h gk g hg hs) hs
  settles hs := hs.facts.decides
  closes hc := hc.facts.decides
  goal {gk g' v v'} hc gk' g hg hs := by
    obtain ⟨⟨g₀, hg₀, hopen⟩, hkey, -⟩ := hc
    rw [setGoal_goal, if_neg ?_]
    · exact hg
    · rintro rfl
      rw [hkey, hg₀, Option.some.injEq] at hg
      exact hs (hg ▸ hopen)
  finishes hf := by
    obtain ⟨_, _⟩ := hf
    exact fun _ _ hg _ => hg
  registers hr := hr.facts.decides
  lists _ _ _ _ _ _ hg _ := hg
  inserts {p v v₁} hgoal _ _ gk g hg _ := by
    cases hgoal with
    | shared => exact hg
    | new habs hkey _ =>
      show (View.setGoal v _).goal gk = some g
      rw [setGoal_goal, hkey, if_neg ?_]
      · exact hg
      · rintro rfl
        rw [habs] at hg
        cases hg

end Operations

/-! ## Every operation, every history -/

variable {v v' : View}

theorem Op.Effect.goalInv {now : Time} {op : Op} (he : op.Effect now v v') (h : GoalInv NoPair v) :
    GoalInv NoPair v' := by
  cases op with
  | publish p => exact Publishes.goalInv he h
  | add req => exact Adds.goalInv he h
  | fail req => exact Fails.goalInv he h
  | register key req submission => exact h.sameFacts (Registers.facts he)
  | closeConsumer key => exact h.sameFacts he.facts
  | reschedule key req =>
    obtain ⟨v₁, hc, hr⟩ := he
    exact (h.sameFacts hc.facts).sameFacts hr.facts
  | finish key success =>
    obtain ⟨v₁, hf, hc⟩ := he
    exact hc.goalInv ((hf.goalInv h).mono fun _ _ hE => hE.1)
  | deleteJobs keys =>
    obtain ⟨v₁, hcancel, hcomplete⟩ := he
    have h₁ : GoalInv NoPair v₁ := hcancel.preserves (fun _ _ _ _ hc => hc.goalInv) h
    exact hcomplete.preserves (fun _ _ _ _ hc hu => hc.goalInv (hu.mono fun _ _ => False.elim)) h₁

theorem goalInv_empty : GoalInv NoPair View.empty where
  jobKey h := by cases h
  terminal h := by cases h
  primary h := by cases h
  extra h := by cases h
  listed h := by cases h
  undecided h := by cases h
  won h := by cases h

/-- The goal invariant holds after every history. -/
theorem Along.goalInv {is : List (Time × Op)} (h : Along Op.Step is View.empty v) :
    GoalInv NoPair v :=
  h.preserves (fun _ _ _ _ hstep hinv => hstep.elim (fun e => e ▸ hinv) fun he => he.goalInv hinv)
    goalInv_empty

/-- Decided goals stay as they are along every history. -/
theorem Along.decides {is : List (Time × Op)} (h : Along Op.Step is v v') : Decides v v' :=
  h.allowed (fun i _ => decides_allowed i.1) fun _ _ hg _ => hg

section Store

variable {σ : Type} {S : SchedulerStore σ} (L : LawfulStore S)

/-- **Goals are decided once and by a candidate.** After any history of
operations from an empty store: an open goal has no successful terminal
candidate; the winner of a succeeded goal is one of its candidates and terminal
with success; and no further history changes any field of a goal that is not
open. -/
theorem goal_decided_once {s₀ : σ} (hi : L.Inv s₀) (hempty : L.view s₀ = View.empty)
    (is later : List (Time × Op)) :
    (∀ gk g j, (L.view (execAll S is s₀)).goal gk = some g → g.state = .open →
      (L.view (execAll S is s₀)).Candidate gk j → ¬ (j.terminal = true ∧ j.success = true)) ∧
    (∀ gk g, (L.view (execAll S is s₀)).goal gk = some g → g.state = .succeeded →
      ∃ j, (L.view (execAll S is s₀)).Candidate gk j ∧ j.key.jobId = g.successfulJobID ∧
        j.terminal = true ∧ j.success = true) ∧
    (∀ gk g, (L.view (execAll S is s₀)).goal gk = some g → g.state ≠ .open →
      (L.view (execAll S later (execAll S is s₀))).goal gk = some g) := by
  obtain ⟨hi₁, hrun⟩ := execAll_along L is s₀ hi
  rw [hempty] at hrun
  have hinv := hrun.goalInv
  refine ⟨fun gk g j hg ho hc hts => hinv.undecided hg ho hc hts.2, fun gk g hg hs => ?_, ?_⟩
  · obtain ⟨j, hc, hid, hsucc⟩ := hinv.won hg hs
    exact ⟨j, hc, hid, hinv.terminal hc.stored hsucc, hsucc⟩
  · exact (execAll_along L later _ hi₁).2.decides

end Store

/-- Job `a` wins the goal it was published under, and another failure request
leaves that as it is. -/
theorem goal_decided_once_memory :
    (∃ j, (execAll Memory.store (waitingFor { goalID := "g1" } ++ [(1, .finish ⟨"t", "a"⟩ true)])
        {}).view.Candidate ⟨"t", "g1"⟩ j ∧ j.key.jobId = "a" ∧ j.terminal = true ∧
        j.success = true) ∧
      (execAll Memory.store [(2, .fail ⟨⟨"t", "g1"⟩, "late"⟩)] (execAll Memory.store
        (waitingFor { goalID := "g1" } ++ [(1, .finish ⟨"t", "a"⟩ true)]) {})).view.goal
          ⟨"t", "g1"⟩ = some
          { goalKey := ⟨"t", "g1"⟩, state := .succeeded, revision := 2, successfulJobID := "a",
            createdAt := 0, updatedAt := 1, closedAt := some 1 } := by
  obtain ⟨_, hwon, hkept⟩ := goal_decided_once Memory.lawful Memory.Inv.empty Memory.view_empty
    (waitingFor { goalID := "g1" } ++ [(1, .finish ⟨"t", "a"⟩ true)])
    [(2, .fail ⟨⟨"t", "g1"⟩, "late"⟩)]
  exact ⟨hwon ⟨"t", "g1"⟩ _ rfl rfl, hkept ⟨"t", "g1"⟩ _ rfl (by decide)⟩

end JobDB
