import JobDB.Sqlite.Calls

/-!
# Leases do not come back

A lease ID that was issued for a job and does not pass `validateLeaseRow` any
more never passes it again, and so the calls a worker makes with it change
nothing but the chapter log.

The argument: to make a lease ID pass, a step has to write it into the job's
lease columns or to move their expiry. It writes only IDs that it has just drawn,
which differ from all issued ones, and it moves the expiry only of a lease that
passes at that moment.
-/

namespace JobDB.Sqlite

/-- The lease ID was granted for the job. -/
def Issued (v : Sched) (k : JobKey) (leaseID : String) : Prop :=
  ∃ g ∈ v.grants, g.key = k ∧ g.leaseID = leaseID

/-- The lease passes `validateLeaseRow` for the worker, now. -/
def Passes (v : Sched) (k : JobKey) (leaseID workerID : String) : Prop :=
  ∃ r, v.job k = some r ∧ validateLeaseRow r leaseID workerID v.now = .ok ()

variable {k : JobKey} {L w : String} {r : JobRow}

theorem passes_iff {v : Sched} :
    Passes v k L w ↔ ∃ r, v.job k = some r ∧ LeaseHeld r L w v.now := by
  unfold Passes
  simp only [validateLeaseRow_eq_ok]

/-- At most one lease ID of a job passes. -/
theorem Passes.unique {v : Sched} {L' w' : String} (h : Passes v k L w) (h' : Passes v k L' w') :
    L = L' := by
  obtain ⟨r, hr, held⟩ := passes_iff.mp h
  obtain ⟨r', hr', held'⟩ := passes_iff.mp h'
  cases hr.symm.trans hr'
  exact Option.some.inj (held.id.1.symm.trans held'.id.1)

/-- Every lease ID granted was drawn from the source before. -/
def Drawn (H : Host) (v : Sched) : Prop := ∀ g ∈ v.grants, ∃ n < v.drawn, g.leaseID = H.ksuid n

/-- No lease ID issued before starts to pass. -/
structure Retires (v v' : Sched) : Prop where
  grants : v.grants <+: v'.grants
  passes : ∀ k L w, Issued v k L → Passes v' k L w → Passes v k L w

namespace Retires

variable {v v' v'' : Sched}

theorem refl (v : Sched) : Retires v v := ⟨List.prefix_refl _, fun _ _ _ _ h => h⟩

theorem trans (h : Retires v v') (h' : Retires v' v'') : Retires v v'' := by
  refine ⟨h.grants.trans h'.grants, fun k L w hi hp => h.passes k L w hi (h'.passes k L w ?_ hp)⟩
  obtain ⟨g, hg, hk⟩ := hi
  exact ⟨g, h.grants.subset hg, hk⟩

/-- Nothing happened to job rows. -/
theorem of_job_eq (hj : v'.job = v.job) (hn : v'.now = v.now) (hg : v'.grants = v.grants) :
    Retires v v' := by
  refine ⟨hg ▸ List.prefix_refl _, fun k L w _ hp => ?_⟩
  unfold Passes at hp ⊢
  rwa [hj, hn] at hp

/-- One row was written, and no old lease passes on it that did not before. -/
theorem setJob {r : JobRow} (h : ∀ L w, LeaseHeld r L w v.now → Passes v k L w) :
    Retires v (v.setJob k r) := by
  refine ⟨List.prefix_refl _, fun k' L w _ hp => ?_⟩
  obtain ⟨r', hr', held⟩ := passes_iff.mp hp
  rw [Sched.setJob_job] at hr'
  split at hr'
  · next he =>
    cases hr'
    exact he ▸ h L w held
  · exact passes_iff.mpr ⟨r', hr', held⟩

end Retires

/-- A row change keeps the lease, of a holder, or takes it away. -/
theorem RowChange.held {now : Time} {P} {r' : JobRow}
    (h : RowChange now P r r') (held : LeaseHeld r' L w now) : LeaseHeld r L w now := by
  cases h with
  | extended held₀ ns u => exact ⟨held.live, held.id, held.worker, held₀.expires⟩
  | completed => exact nomatch held.id.1
  | rescheduled => exact nomatch held.id.1
  | cancelled => exact nomatch held.id.1
  | deleted => exact nomatch held.id.1
  | cleared => exact ⟨held.live, held.id, held.worker, held.expires⟩

section Effect

variable {H : Host} {i : Nat}
  {P : Terms} {v v' : Sched}

theorem Drawn.record {g : Grant} (h : Drawn H v) (hg : g.leaseID = H.ksuid v.drawn) :
    Drawn H ((v.setJob k r).record g) := by
  intro g' hg'
  rcases List.mem_append.mp hg' with hold | hnew
  · obtain ⟨n, hn, he⟩ := h g' hold
    exact ⟨n, Nat.lt_succ_of_lt hn, he⟩
  · obtain rfl := List.mem_singleton.mp hnew
    exact ⟨v.drawn, Nat.lt_succ_self _, hg⟩

theorem Effect.drawn (h : Effect H i P v v') : Drawn H v → Drawn H v' := by
  induction h with
  | same => exact id
  | tick => exact id
  | row => exact id
  | granted _ hid => exact fun hd => hd.record hid
  | claimed _ _ hid => exact fun hd => hd.record hid
  | inserted => exact id
  | appended => exact id
  | payloadFailed => exact id
  | created => exact id
  | linked => exact id
  | chain _ _ ih₁ ih₂ => exact fun hd => ih₂ (ih₁ hd)

/-- A lease that was just granted has an ID that was not issued before. -/
theorem Retires.record {lease : Lease} {g : Grant} (hd : Drawn H v)
    (hid : lease.leaseID = H.ksuid v.drawn) :
    Retires v ((v.setJob k (r.leased lease)).record g) := by
  refine ⟨List.prefix_append _ _, fun k' L w hi hp => ?_⟩
  obtain ⟨r', hr', held⟩ := passes_iff.mp hp
  rw [Sched.record_job, Sched.setJob_job] at hr'
  split at hr'
  · cases hr'
    obtain ⟨g', hg', -, hL⟩ := hi
    obtain ⟨n, hn, he⟩ := hd g' hg'
    have hnew : lease.leaseID = L := Option.some.inj held.id.1
    have hn' := H.ksuid_injective _ _ (he.symm.trans (hL.trans (hnew.symm.trans hid)))
    omega
  · exact passes_iff.mpr ⟨r', hr', held⟩

theorem Effect.retires (h : Effect H i P v v') : Drawn H v → Retires v v' := by
  induction h with
  | same => exact fun _ => .refl _
  | tick later =>
    refine fun _ => ⟨List.prefix_refl _, fun k L w _ hp => ?_⟩
    obtain ⟨r, hr, held⟩ := passes_iff.mp hp
    obtain ⟨ns, hns, hlt⟩ := held.expires
    exact passes_iff.mpr ⟨r, hr, held.live, held.id, held.worker, ns, hns, lt_of_le_of_lt later hlt⟩
  | row stored change =>
    exact fun _ => .setJob fun L w held => passes_iff.mpr ⟨_, stored, change.held held⟩
  | granted _ hid => exact fun hd => .record hd hid
  | claimed _ _ hid => exact fun hd => .record hd hid
  | inserted => exact fun _ => .setJob fun L w held => nomatch held.id.1
  | appended => exact fun _ => .of_job_eq rfl rfl rfl
  | payloadFailed =>
    refine fun _ => .trans ?_ (.setJob fun L w held => nomatch held.id.1)
    exact .of_job_eq rfl rfl rfl
  | created => exact fun _ => .of_job_eq rfl rfl rfl
  | linked => exact fun _ => .of_job_eq rfl rfl rfl
  | chain h₁ _ ih₁ ih₂ => exact fun hd => (ih₁ hd).trans (ih₂ (h₁.drawn hd))

end Effect

/-! ## Calls with a lease that does not pass -/

/-- The tables of jobs, goals and waits are the same. -/
structure SameTables (s s' : State) : Prop where
  jobs : s'.jobs = s.jobs
  goals : s'.goals = s.goals
  candidates : s'.candidates = s.candidates
  waits : s'.waits = s.waits
  targets : s'.targets = s.targets

/-- Unless the lease passes, the step changes no job, goal or wait. -/
def Fenced (k : JobKey) (leaseID workerID : String) (s s' : State) : Prop :=
  Passes s.sched k leaseID workerID ∨ SameTables s s'

theorem Fenced.refl (k : JobKey) (L w : String) (s : State) : Fenced k L w s s :=
  .inr ⟨rfl, rfl, rfl, rfl, rfl⟩

/-- Every step of the call is fenced by the lease. -/
abbrev FencedBy {α : Type} (k : JobKey) (leaseID workerID : String) (x : Call State Err α) : Prop :=
  x.Keeps (fun _ => True) (fun _ _ => True) (Fenced k leaseID workerID)

section Fences

variable {α : Type} {H : Host} {i : Nat} {handle : Option Time} {key : JobKey} {L w : String}

theorem fencedBy_closed : Call.Closed fun _ (x : Call State Err _) => FencedBy key L w x :=
  Call.Keeps.closed (Fenced.refl key L w)

theorem FencedBy.tx {m : Tx State Err α}
    (h : ∀ s a s', m s = .ok (a, s') → Fenced key L w s s') : FencedBy key L w (Call.tx m) :=
  Call.Keeps.tx (Fenced.refl key L w) fun s a s' _ hm => ⟨trivial, h s a s' hm⟩

/-- A transaction that first checks the lease. -/
theorem fenced_requireLease {f : JobRow → Tx State Err α} {s s' : State} {a : α}
    (h : (requireLease key L w >>= f) s = .ok (a, s')) : Fenced key L w s s' := by
  obtain ⟨row, s₁, h₁, _⟩ := Tx.bind_eq_ok.mp h
  obtain ⟨-, hr, held⟩ := requireLease_ok h₁
  exact .inl (passes_iff.mpr ⟨row, hr, held⟩)

theorem appendTx_sameTables {ch : StoredChapter} {s s' : State} {u : Unit}
    (h : appendTx key ch s = .ok (u, s')) : SameTables s s' := by
  obtain ⟨st, _, h₁⟩ := Tx.read_bind_eq_ok.mp h
  obtain ⟨_, h₂⟩ := Tx.require_bind_eq_ok.mp h₁
  obtain ⟨_, h₃⟩ := Tx.require_bind_eq_ok.mp h₂
  have hw := Tx.write_eq_ok.mp h₃
  split at hw
  · cases hw
    exact ⟨rfl, rfl, rfl, rfl, rfl⟩
  · cases hw
    exact ⟨rfl, rfl, rfl, rfl, rfl⟩

theorem complete_fenced (req : CompleteExecutionRequest) :
    FencedBy key L w (complete H i handle key L w req) := by
  refine complete_closed fencedBy_closed (fun ch => ?_) (fun ch uploads => ?_) fun now => ?_
  · refine completePayloadFailure_closed fencedBy_closed fun body => FencedBy.tx fun s _ s' h =>
      .inl ?_
    obtain ⟨r, st, message, t, hr, hauth, _⟩ := payloadFailureTx_ok h
    exact ⟨r, hr, hauth⟩
  · refine ensureCompletionChapter_closed fencedBy_closed (fun _ _ => ?_) ch uploads
    exact FencedBy.tx fun _ _ _ h => .inr (appendTx_sameTables h)
  · exact FencedBy.tx fun _ _ _ h => fenced_requireLease h

end Fences

/-- The job, lease ID and worker ID that a worker's call is made with. -/
def Request.lease : Request → Option (JobKey × String × String)
  | .keepAlive _ key leaseID workerID _ => some (key, leaseID, workerID)
  | .renew _ key leaseID workerID _ => some (key, leaseID, workerID)
  | .reschedule _ key leaseID workerID _ => some (key, leaseID, workerID)
  | .complete _ key leaseID workerID _ => some (key, leaseID, workerID)
  | _ => none

theorem body_fencedBy {H : Host} {i : Nat} {c : Request} (h : c.lease = some (k, L, w)) :
    FencedBy k L w (body H i c) := by
  have htx {α : Type} {f : JobRow → Tx State Err α} :
      FencedBy k L w (Call.tx (requireLease k L w >>= f)) :=
    FencedBy.tx fun _ _ _ h => fenced_requireLease h
  cases c <;> cases h
  · exact .bind (keepAlive_closed fencedBy_closed fun _ => htx) fun _ => .pure _
  · exact .bind (renew_closed fencedBy_closed htx) fun _ => .pure _
  · exact .bind (reschedule_closed fencedBy_closed fun _ _ => htx) fun _ => .pure _
  · exact .bind (complete_fenced _) fun _ => .pure _

theorem body_fenced (H : Host) (i : Nat) (c : Request) (s : State) :
    Proc.Sat (fun _ => True) (fun _ _ => True)
      (fun s s' => ∀ k L w, c.lease = some (k, L, w) → Fenced k L w s s') (fun _ _ => True)
      (body H i c) s := by
  cases hc : c.lease with
  | none => exact .any (fun _ _ _ _ _ h => nomatch h) _ s
  | some t =>
    obtain ⟨k, L, w⟩ := t
    refine Proc.Sat.mono (body_fencedBy (H := H) (i := i) hc s) (fun s s' hf k' L' w' h => ?_)
      fun _ _ _ => trivial
    cases h
    exact hf

/-! ## All runs -/

theorem leases_sound (H : Host) :
    (system H).Sound (fun s => Ready s.sched ∧ Drawn H s.sched)
      (fun s s' => Grows s.sched s'.sched ∧ Retires s.sched s'.sched)
      (fun i c s s' => Effect H i .any s.sched s'.sched ∧
        ∀ k L w, c.lease = some (k, L, w) → Fenced k L w s s')
      (fun _ _ _ _ => True) where
  refl s := ⟨.refl _, .refl _⟩
  trans _ _ _ h h' := ⟨h.1.trans h'.1, h.2.trans h'.2⟩
  env s s' hi h := by
    obtain ⟨t, hle, rfl⟩ := h
    have he : Effect H 0 .any s.sched { s.sched with now := t } := .tick hle
    exact ⟨⟨he.ready hi.1, he.drawn hi.2⟩, he.grows, he.retires hi.2⟩
  guar i c s s' hi h := ⟨h.1.grows, h.1.retires hi.2⟩
  stable _ _ _ _ _ _ _ _ := trivial
  body i c s hi _ := by
    have hmeets := c.meets_of_forall (P := .any) (fun _ _ _ _ => trivial) s.sched
    have hsteps := body_steps (H := H) (i := i) (fun _ _ _ _ => trivial) c hmeets
    have hinv : Proc.Sat _ (fun s s' => Grows s.sched s'.sched ∧ Retires s.sched s'.sched) _ _
        (body H i c) s :=
      hsteps.strengthen (J := fun s => Drawn H s.sched) (fun _ _ _ hd he => he.drawn hd)
        fun _ _ h => h.1
    refine (hinv.and (body_fenced H i c s) (fun _ _ => trivial) fun _ _ _ => trivial).imp ?_
    exact fun _ _ _ => trivial

theorem empty_leases (H : Host) (t : Time) :
    Ready ({ now := t } : State).sched ∧ Drawn H ({ now := t } : State).sched :=
  ⟨ready_empty t, fun _ h => nomatch h⟩

/-- **Leases do not come back.** Start with an empty database and let calls of all
kinds run interleaved while the clock moves on. At any moment at most one lease
ID issued for a job passes. If an issued lease ID does not pass at one moment, it
does not at any later one, and no step that a call makes with it then changes a
job, a goal or a wait. -/
theorem lease_never_returns (H : Host) (t₀ : Time) {ls₁ ls₂ : List (System.Label Request)}
    {p₁ p₂ : Calls}
    (h₁ : Along (system H).Step ls₁ ⟨{ now := t₀ }, []⟩ p₁) (h₂ : Along (system H).Step ls₂ p₁ p₂)
    (k : JobKey) :
    (∀ L L' w w', Issued p₁.shared.sched k L → Issued p₁.shared.sched k L' →
      Passes p₁.shared.sched k L w → Passes p₁.shared.sched k L' w' → L = L') ∧
    ∀ L w, Issued p₁.shared.sched k L → ¬ Passes p₁.shared.sched k L w →
      ¬ Passes p₂.shared.sched k L w ∧
      ∀ i c p₃, c.lease = some (k, L, w) → (system H).Step (.run i c) p₂ p₃ →
        SameTables p₂.shared p₃.shared := by
  have hsound := leases_sound H
  obtain ⟨hok₁, _⟩ := hsound.run h₁ (.start (empty_leases H t₀))
  obtain ⟨hok₂, hR⟩ := hsound.run h₂ hok₁
  refine ⟨fun L L' w w' _ _ hp hp' => hp.unique hp', fun L w hi hfail => ?_⟩
  have hfail₂ : ¬ Passes p₂.shared.sched k L w := fun hp => hfail (hR.2.passes k L w hi hp)
  refine ⟨hfail₂, fun i c p₃ hc hstep => ?_⟩
  obtain ⟨_, _, hG⟩ := hsound.step hstep hok₂
  exact ((hG i c rfl).2 k L w hc).resolve_left hfail₂

/-! ### A lease that runs out -/

/-- A request for a lease on the job `j`. -/
def leaseRequest (worker : String) : GetJobLeaseRequest where
  jobKey := ⟨"t", "j"⟩
  routes := [{ jobType := "work" }]
  workerID := worker
  leaseDuration := 5
  authorized _ := .ok ()

/-- The job `j`. -/
def sampleJob : Submission where
  key := ⟨"t", "j"⟩
  jobType := "work"
  cell := ⟨"c", "c", ""⟩
  goalID := "g"
  shareGoal := false

/-- The job is submitted and leased, and the lease runs out. -/
def leaseExpires : Calls :=
  [.call (.submit { job := sampleJob }), .run 0, .run 0, .run 0,
    .call (.getJobLease (leaseRequest "w") .start), .run 1, .env (advance 5)].foldl
      (system .accepting).drive ⟨{ now := 1 }, []⟩

/-- Another worker gets the job, and the first one is about to send a sign of life. -/
def leaseRetaken : Calls :=
  [.call (.getJobLease (leaseRequest "w'") .start), .run 2,
    .call (.keepAlive none ⟨"t", "j"⟩ "x" "w" 5), .run 3, .run 3].foldl
      (system .accepting).drive leaseExpires

instance (v : Sched) (k : JobKey) (L w : String) : Decidable (Passes v k L w) :=
  decidable_of_iff ((v.job k).any fun r => (validateLeaseRow r L w v.now).toBool) <| by
    unfold Passes
    cases v.job k with
    | none => simp
    | some r => cases h : validateLeaseRow r L w v.now <;> simp [h, Except.toBool]

theorem lease_never_returns_expired :
    Issued leaseExpires.shared.sched ⟨"t", "j"⟩ "x" ∧
      ¬ Passes leaseExpires.shared.sched ⟨"t", "j"⟩ "x" "w" ∧
      ¬ Passes leaseRetaken.shared.sched ⟨"t", "j"⟩ "x" "w" ∧
      ∃ p₃,
        (system .accepting).Step (.run 3 (.keepAlive none ⟨"t", "j"⟩ "x" "w" 5)) leaseRetaken p₃ ∧
        SameTables leaseRetaken.shared p₃.shared := by
  obtain ⟨ls₁, h₁⟩ : ∃ ls, Along (system .accepting).Step ls ⟨{ now := 1 }, []⟩ leaseExpires :=
    System.drive_along
      ⟨trivial, trivial, trivial, trivial, trivial, trivial, tick_advance _ _, trivial⟩
  obtain ⟨ls₂, h₂⟩ : ∃ ls, Along (system .accepting).Step ls leaseExpires leaseRetaken :=
    System.drive_along (by trivial)
  have hissued : Issued leaseExpires.shared.sched ⟨"t", "j"⟩ "x" :=
    ⟨⟨⟨"t", "j"⟩, "x", "w", { jobType := "work" }, none⟩, by decide, rfl, rfl⟩
  have hfail : ¬ Passes leaseExpires.shared.sched ⟨"t", "j"⟩ "x" "w" := by decide
  obtain ⟨hfail₂, hsame⟩ :=
    (lease_never_returns .accepting 1 h₁ h₂ ⟨"t", "j"⟩).2 "x" "w" hissued hfail
  have hstep : (system .accepting).Step (.run 3 (.keepAlive none ⟨"t", "j"⟩ "x" "w" 5))
    leaseRetaken _ := .run rfl
  exact ⟨hissued, hfail, hfail₂, _, hstep, hsame _ _ _ rfl hstep⟩

end JobDB.Sqlite
