import JobDB.Goal.Decided

/-!
# The unresolved edges never form a cycle

Only three operations add edges: a publication, a new candidate of a goal, and
the registration of a new wait. Each runs `CheckCycle` from one node. The
argument has three parts:

* every other change drops edges (`Shrinks`), and so does the passing of time
  (`Edge.later`: a deadline that has passed takes its wait's edges away);
* the edges an operation adds start at nodes reachable from the node it checks;
* a passed check makes every path from that node finite (`Grounded`), so by
  `Acyclic.extend` the whole graph stays acyclic.
-/

namespace JobDB

open Engine View Relation

/-- Every edge of `v'` is an edge of `v`. -/
def Shrinks (now : Time) (v v' : View) : Prop :=
  ∀ tenant a b, v'.Edge now tenant a b → v.Edge now tenant a b

variable {now t t' : Time} {v : View} {w : DependencyWaitInfo} {tenant : String} {a b : Node}

/-- The unresolved edges of every tenant are acyclic. -/
def AcyclicAt (now : Time) (v : View) : Prop :=
  ∀ tenant, Digraph.Acyclic (v.Edge now tenant)

theorem AcyclicAt.shrinks {v' : View} (h : AcyclicAt now v) (hs : Shrinks now v v') :
    AcyclicAt now v' :=
  fun tenant => (h tenant).mono (hs tenant)

theorem expired_later (h : t ≤ t') (he : w.expired t' = false) : w.expired t = false := by
  unfold DependencyWaitInfo.expired at he ⊢
  cases hd : w.deadline with
  | none => rfl
  | some d =>
    rw [hd] at he
    simp only [Option.any_some, decide_eq_false_iff_not] at he ⊢
    exact fun hle => he (Int.le_trans hle h)

/-- Time only takes edges away. -/
theorem View.Edge.later (h : t ≤ t') (he : v.Edge t' tenant a b) : v.Edge t tenant a b := by
  cases he with
  | goal hst ho hc hl => exact .goal hst ho hc hl
  | job hst hl hw howner hp hf hd hu => exact .job hst hl hw howner hp (expired_later h hf) hd hu

theorem AcyclicAt.later (h : t ≤ t') (ha : AcyclicAt t v) : AcyclicAt t' v :=
  fun tenant => (ha tenant).mono fun _ _ he => he.later h

/-! ## Changes that drop edges -/

section Shrink

variable {now : Time} {v v' : View}

/-- A pending dependency after a pass was pending before it, on the same
target. -/
theorem Engine.Evaluated.pending_before {w' : DependencyWaitInfo} (he : Evaluated v now w w')
    (hp : w'.state = .pending) {d : DependencyResolution} (hd : d ∈ w'.copy.dependencies)
    (hdp : d.state = .pending) :
    ∃ d₀ ∈ w.dependencies, d₀.state = .pending ∧ d₀.target = d.target := by
  rw [DependencyWaitInfo.copy_dependencies] at hd
  obtain ⟨d', hd', rfl⟩ := List.mem_map.mp hd
  obtain ⟨i, hi, rfl⟩ := List.mem_iff_getElem.mp hd'
  have hstep := he.unresolved hp
  have hlen := hstep.length_eq
  have hget := (List.forall₂_iff_get.mp hstep).2 i (by omega) hi
  have hpend : (w.dependencies.get ⟨i, by omega⟩).state = .pending := by
    by_contra hne
    have hsame := hget.resolved hne
    rw [← hsame] at hne
    exact hne hdp
  exact ⟨_, List.get_mem _ _, hpend, hget.target.symm⟩

theorem Engine.Evaluated.pending_of {w' : DependencyWaitInfo} (he : Evaluated v now w w')
    (hp : w'.state = .pending) : w.state = .pending := by
  by_contra hne
  rw [he.resolved hne] at hp
  exact hne hp

/-- Waits may be replaced by what a pass makes of them, or closed. -/
theorem shrinks_of_waits (hf : SameFacts v v')
    (hw : ∀ k w', v'.wait k = some w' → v.wait k = some w' ∨ w'.state ≠ .pending ∨
      ∃ w x, v.wait k = some w ∧ Evaluated v now w x ∧ w' = x.copy) : Shrinks now v v' := by
  intro tenant a b he
  cases he with
  | goal hst ho hc hl => exact .goal (hf.goal ▸ hst) ho (hf.candidate.mp hc) hl
  | @job id j w d hst hl hwait howner hp hfr hd hdp =>
    rcases hw _ _ hwait with hsame | hne | ⟨w₀, x, hw₀, he, rfl⟩
    · exact .job (hf.job ▸ hst) hl hsame howner hp hfr hd hdp
    · exact absurd hp hne
    · obtain ⟨d₀, hd₀, hdp₀, htgt⟩ := he.pending_before hp hd hdp
      have hk₀ : w₀.key = x.copy.key := he.key.symm
      have howner₀ : w₀.jobKey = ⟨tenant, id⟩ := (he.jobKey.symm.trans howner)
      have hexp : w₀.expired now = false := he.fresh hp
      rw [← htgt]
      exact .job (hf.job ▸ hst) hl (hk₀ ▸ hw₀) howner₀ (he.pending_of hp) hexp hd₀ hdp₀

/-- Ending jobs, goals and waits drops edges. -/
theorem shrinks_allowed (now : Time) : Allows now (Shrinks now) where
  refl _ _ _ _ he := he
  trans h h' tenant a b he := h tenant a b (h' tenant a b he)
  settles hs := by
    refine shrinks_of_waits hs.facts fun k w' hk => ?_
    rcases hs.waits k with ⟨hsame, _⟩ | ⟨w, x, hw, _, he, hx⟩
    · exact Or.inl (hsame ▸ hk)
    · rw [hx, Option.some.injEq] at hk
      exact Or.inr (Or.inr ⟨w, x, hw, he, hk.symm⟩)
  closes hc := by
    refine shrinks_of_waits hc.facts fun k w' hk => ?_
    rcases hc.waits k with ⟨hsame, _⟩ | ⟨w, x, _, _, _, _, hx⟩
    · exact Or.inl (hsame ▸ hk)
    · rw [hx, Option.some.injEq] at hk
      exact Or.inr (Or.inl (hk ▸ closed_not_pending x))
  goal hc tenant a b he := by
    -- a decided goal has no edges
    cases he with
    | goal hst ho hcand hl =>
      rcases of_setGoal hst with ⟨-, rfl⟩ | ⟨-, hst⟩
      · exact absurd ho hc.decided
      · exact .goal hst ho (candidate_setGoal.mp hcand) hl
    | job hst hl hw howner hp hf hd hdp => exact .job hst hl hw howner hp hf hd hdp
  finishes hf tenant a b he := by
    -- a terminal job has no edges, and no goal has an edge to it
    obtain ⟨_, _⟩ := hf
    cases he with
    | goal hst ho hcand hl =>
      obtain ⟨hs, ht, hlist⟩ := hcand
      rcases of_setJob hs with ⟨-, rfl⟩ | ⟨-, hs⟩
      · cases hl
      · exact .goal hst ho ⟨hs, ht, hlist⟩ hl
    | job hst hl hw howner hp hfr hd hdp =>
      rcases of_setJob hst with ⟨-, rfl⟩ | ⟨-, hst⟩
      · cases hl
      · exact .job hst hl hw howner hp hfr hd hdp

end Shrink

/-! ## Checked additions -/

section Extend

variable {now : Time} {v v' : View}

/-- New edges of one tenant start at nodes reachable from the checked one. -/
theorem AcyclicAt.extend (h : AcyclicAt now v) {start : Node}
    (other : ∀ tenant', tenant' ≠ tenant → ∀ a b, v'.Edge now tenant' a b → v.Edge now tenant' a b)
    (new : ∀ a b, v'.Edge now tenant a b → ¬ v.Edge now tenant a b →
      ReflTransGen (v'.Edge now tenant) start a)
    (checked : Grounded now tenant start v') : AcyclicAt now v' := by
  intro tenant'
  by_cases ht : tenant' = tenant
  · subst ht
    exact (h tenant').extend new checked
  · exact (h tenant').mono (other tenant' ht)

/-- Storing what a pass makes of a stored wait adds no edge. -/
theorem shrinks_setWait {w' : DependencyWaitInfo} (hst : v.wait w.key = some w)
    (hpass : Evaluated v now w w') : Shrinks now v (v.setWait w'.copy) := by
  refine shrinks_of_waits (SameFacts.setWait _ _) fun k x hk => ?_
  rcases of_setWait hk with ⟨hkk, hx⟩ | ⟨-, hk⟩
  · have hk' : k = w.key := hkk.trans hpass.key
    exact Or.inr (Or.inr ⟨w, w', hk' ▸ hst, hpass, hx⟩)
  · exact Or.inl hk

/-- Registering a wait only adds edges out of its job. -/
theorem Engine.Registers.edge {key : JobKey} {req : DependencyWait}
    (hr : Registers now key req v v') (he : v'.Edge now tenant a b) :
    v.Edge now tenant a b ∨ (key.tenantId = tenant ∧ a = .job key.jobId) := by
  cases hr with
  | again hst hkey hpass => exact Or.inl (shrinks_setWait (hkey ▸ hst) hpass tenant a b he)
  | @new w w' _ hkey _ _ hpass _ =>
    have howner : w'.copy.jobKey = key :=
      hpass.jobKey.trans (congrArg DependencyWaitKey.jobKey hkey)
    rw [← howner]
    cases he with
    | goal hst ho hc hl => exact Or.inl (.goal hst ho ⟨hc.stored, hc.tenant, hc.listed⟩ hl)
    | job hst hl hw howner hp hf hd hdp =>
      rcases of_setWait hw with ⟨-, rfl⟩ | ⟨-, hw⟩
      · exact Or.inr ⟨by rw [howner], by rw [howner]⟩
      · exact Or.inl (.job hst hl hw howner hp hf hd hdp)

theorem Engine.Registers.acyclicAt {key : JobKey} {req : DependencyWait}
    (hr : Registers now key req v v') (h : AcyclicAt now v) : AcyclicAt now v' := by
  cases hr with
  | again hst hkey hpass => exact h.shrinks (shrinks_setWait (hkey ▸ hst) hpass)
  | new habs hkey hp htargets hpass hck =>
    have hr := Registers.new habs hkey hp htargets hpass hck
    refine h.extend (fun tenant' ht a b hab => ?_) (fun a b hab hnot => ?_) hck
    · exact (hr.edge hab).resolve_right fun heq => ht heq.1.symm
    · rw [((hr.edge hab).resolve_left hnot).2]

/-- A new candidate adds an edge only if its job is live. -/
theorem edge_setExtra {gk : GoalKey} {jobID : String} {j : Job}
    (hj : v.job ⟨gk.tenantId, jobID⟩ = some j) (he : (v.setExtra gk jobID t).Edge now tenant a b) :
    v.Edge now tenant a b ∨ (gk.tenantId = tenant ∧ a = .goal gk.goalID ∧ j.terminal = false) := by
  cases he with
  | job hst hl hw howner hp hf hd hdp => exact Or.inl (.job hst hl hw howner hp hf hd hdp)
  | @goal id g j' hst ho hc hl =>
    obtain ⟨hs, ht, hlist⟩ := hc
    unfold View.setExtra at hlist
    dsimp only at hlist
    split at hlist
    · next heq =>
      obtain ⟨hgk, hid⟩ := heq
      have hk : j'.key = ⟨gk.tenantId, jobID⟩ := by rw [← hid, ← hgk, ← ht]
      have hj' : v.job j'.key = some j' := hs
      rw [hk, hj, Option.some.injEq] at hj'
      exact Or.inr ⟨by rw [← hgk], by rw [← hgk], hj' ▸ hl⟩
    · exact Or.inl (.goal hst ho ⟨hs, ht, hlist⟩ hl)

theorem Engine.Adds.acyclicAt {gk : GoalKey} {jobID : String} (ha : Adds now gk jobID v v')
    (hg : GoalInv NoPair v) (h : AcyclicAt now v) : AcyclicAt now v' := by
  -- a terminal candidate adds no edge at all
  have hterm : ∀ {j t}, v.job ⟨gk.tenantId, jobID⟩ = some j → j.terminal = true →
      Shrinks now v (v.setExtra gk jobID t) := by
    intro j t hst ht tenant a b hab
    rcases edge_setExtra hst hab with hold | ⟨_, _, hlive⟩
    · exact hold
    · rw [ht] at hlive
      cases hlive
  cases ha with
  | listed => exact h
  | success hst hwon hr =>
    have hallows := shrinks_allowed now
    exact h.shrinks (hallows.trans (hterm hst (hg.terminal hst hwon)) (hallows.resolves hr))
  | terminal hst _ _ hdone => exact h.shrinks (hterm hst hdone)
  | live hst _ _ hck =>
    refine h.extend (fun tenant' ht a b hab => ?_) (fun a b hab hnot => ?_) hck
    · rcases edge_setExtra hst hab with hold | ⟨heq, _⟩
      · exact hold
      · exact absurd heq.symm ht
    · rcases edge_setExtra hst hab with hold | ⟨_, rfl, _⟩
      · exact absurd hold hnot
      · exact .refl

variable {p : Publication}

/-- The edges a publication adds start at its goal or at its job. -/
theorem edge_publish (hg : GoalInv NoPair v) {v₁ : View} (hgoal : PublishesGoal p v v₁)
    (habs : v₁.job p.key = none) (he : (v₁.setJob p.newJob).Edge now tenant a b) :
    v.Edge now tenant a b ∨
      (tenant = p.key.tenantId ∧ (a = .goal p.goalID ∨ a = .job p.key.jobId)) := by
  have hg₁ := (hgoal.goalInv hg).1
  cases he with
  | @goal id g j hst ho hc hl =>
    obtain ⟨hs, ht, hlist⟩ := hc
    -- the new job is a candidate of its own goal only: an added one is stored already
    rcases of_setJob hs with ⟨-, rfl⟩ | ⟨-, hs⟩
    · rcases hlist with hid | hx
      · exact Or.inr ⟨ht.symm, Or.inl (by rw [show id = p.goalID from hid.symm])⟩
      · obtain ⟨j₀, hj₀⟩ := hg₁.listed hx
        rw [← ht] at hj₀
        exact absurd (habs.symm.trans hj₀) (by simp)
    · cases hgoal with
      | shared => exact Or.inl (.goal hst ho ⟨hs, ht, hlist⟩ hl)
      | new hfresh hkey hopen =>
        rcases of_setGoal hst with ⟨heq, -⟩ | ⟨-, hst⟩
        · have hid : (⟨tenant, id⟩ : GoalKey) = p.goalKey := heq.trans hkey
          obtain ⟨htn, hgid⟩ := GoalKey.mk.inj hid
          exact Or.inr ⟨htn, Or.inl (by rw [hgid])⟩
        · exact Or.inl (.goal hst ho ⟨hs, ht, hlist⟩ hl)
  | @job id j w d hst hl hw howner hp hf hd hdp =>
    rcases of_setJob hst with ⟨hk, -⟩ | ⟨-, hst⟩
    · have hk : (⟨tenant, id⟩ : JobKey) = p.key := hk
      exact Or.inr ⟨by rw [← hk], Or.inr (by rw [← hk])⟩
    · cases hgoal with
      | shared => exact Or.inl (.job hst hl hw howner hp hf hd hdp)
      | new => exact Or.inl (.job hst hl hw howner hp hf hd hdp)

theorem PublishesGoal.isOpen (h : PublishesGoal p v v') :
    ∃ g, v'.goal p.goalKey = some g ∧ g.state = .open := by
  cases h with
  | shared hst ho => exact ⟨_, hst, ho⟩
  | @new g _ hkey ho => exact ⟨g, by rw [setGoal_goal, hkey, if_pos rfl], ho⟩

theorem Publishes.acyclicAt (hp : Publishes now p v v') (hg : GoalInv NoPair v)
    (h : AcyclicAt now v) : AcyclicAt now v' := by
  obtain ⟨hid, hgoal, habs, hwait, hck, -⟩ := hp
  rename_i v₁
  have hfacts := hwait.facts
  have hedge : ∀ {tenant a b}, v'.Edge now tenant a b → v.Edge now tenant a b ∨
      (tenant = p.key.tenantId ∧ (a = .goal p.goalID ∨ a = .job p.key.jobId)) := by
    intro tenant a b hab
    cases hwait with
    | none => exact edge_publish hg hgoal habs hab
    | wait hr =>
      rcases hr.edge hab with hold | ⟨ht, ha⟩
      · exact edge_publish hg hgoal habs hold
      · exact Or.inr ⟨ht.symm, Or.inr ha⟩
  -- the checked goal has an edge to the new job
  have hlink : v'.Edge now p.key.tenantId (.goal p.goalID) (.job p.key.jobId) := by
    obtain ⟨g, hst, hopen⟩ := hgoal.isOpen
    have hjob : v'.job p.newJob.key = some p.newJob := by
      rw [hfacts.job, setJob_job, if_pos rfl]
    have hst' : v'.goal ⟨p.key.tenantId, p.goalID⟩ = some g := by
      rw [hfacts.goal]
      exact hst
    exact Edge.goal (j := p.newJob) hst' hopen ⟨hjob, rfl, Or.inl rfl⟩ rfl
  refine h.extend (fun tenant' ht a b hab => ?_) (fun a b hab hnot => ?_) hck
  · exact (hedge hab).resolve_right fun heq => ht heq.1
  · rcases ((hedge hab).resolve_left hnot).2 with rfl | rfl
    · exact .refl
    · exact .single hlink

end Extend

/-! ## Every operation, every history -/

theorem Op.Effect.acyclicAt {op : Op} {v' : View} (he : op.Effect now v v') (hg : GoalInv NoPair v)
    (h : AcyclicAt now v) : AcyclicAt now v' := by
  have hallows := shrinks_allowed now
  cases op with
  | publish p => exact Publishes.acyclicAt he hg h
  | add req => exact Adds.acyclicAt he hg h
  | fail req =>
    cases he with
    | already => exact h
    | closes _ hc => exact h.shrinks (hallows.closesGoal hc)
  | register key req submission => exact Registers.acyclicAt he h
  | closeConsumer key => exact h.shrinks (hallows.closes he)
  | reschedule key req =>
    obtain ⟨v₁, hc, hr⟩ := he
    exact hr.acyclicAt (h.shrinks (hallows.closes hc))
  | finish key success =>
    obtain ⟨v₁, hf, hc⟩ := he
    exact h.shrinks (hallows.trans (hallows.finishes hf) (hallows.completes hc))
  | deleteJobs keys =>
    obtain ⟨v₁, hcancel, hcomplete⟩ := he
    exact h.shrinks (hallows.deletes hcancel hcomplete)

theorem acyclicAt_empty (now : Time) : AcyclicAt now View.empty := by
  intro tenant n hn
  obtain ⟨b, hb, _⟩ := TransGen.head'_iff.mp hn
  cases hb with
  | goal hst => cases hst
  | job hst => cases hst

section Store

variable {σ : Type} {S : SchedulerStore σ} (L : LawfulStore S)

/-- **No cycle of unresolved dependencies.** After any history whose clock
readings do not decrease, and at any clock reading no earlier than the last of
them, the unresolved edges of every tenant are acyclic. -/
theorem unresolved_acyclic {s₀ : σ} (hi : L.Inv s₀) (hempty : L.view s₀ = View.empty)
    (is : List (Time × Op)) (clock : is.Pairwise fun a b => a.1 ≤ b.1) (now : Time)
    (bound : ∀ i ∈ is, i.1 ≤ now) (tenant : String) :
    Digraph.Acyclic ((L.view (execAll S is s₀)).Edge now tenant) := by
  obtain ⟨_, hrun⟩ := execAll_along L is s₀ hi
  rw [hempty] at hrun
  have hboth := hrun.timed (P := fun t v => GoalInv NoPair v ∧ AcyclicAt t v)
    (fun hle ⟨hg, ha⟩ => ⟨hg, ha.later hle⟩)
    (fun hstep ⟨hg, ha⟩ => hstep.elim (fun e => e ▸ ⟨hg, ha⟩)
      fun he => ⟨he.goalInv hg, he.acyclicAt hg ha⟩)
    clock bound fun t => ⟨goalInv_empty, acyclicAt_empty t⟩
  exact hboth.2 tenant

end Store

/-- Job `b` waits for goal `g1`; once `a`, its only candidate, waits for the
goal of `b`, the registration is rolled back. -/
theorem unresolved_acyclic_memory :
    Digraph.Acyclic ((execAll Memory.store (waitingFor { goalID := "g1" } ++
      [(1, .register ⟨"t", "a"⟩ { waitID := "w", dependencies := [⟨{ goalID := "g2" }, .success⟩] }
        false)]) {}).view.Edge 2 "t") :=
  unresolved_acyclic Memory.lawful Memory.Inv.empty Memory.view_empty _ (by decide) 2
    (by decide) "t"

end JobDB
