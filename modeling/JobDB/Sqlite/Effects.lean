import JobDB.Sqlite.Runtime

/-!
# What a step of the SQLite runtime does

`Effect` lists everything that one step of any call can do to job rows, stories
and grants; the goal store's tables are left out. There is one lemma for each
transaction, which says which effect it has when it commits, and one for each
call, which says that all its steps have effects. What holds of leases, of the
chapter log and of waiting tasks is derived from `Effect` alone.

`Effect H i P` is for call `i`: the chapters it writes carry its number, and a
reschedule it makes satisfies `P`.
-/

namespace JobDB.Sqlite

/-- Rows are stored under their own keys. -/
def Keyed (v : Sched) : Prop := ∀ k r, v.job k = some r → r.key = k

/-- What a transaction does to a job's row, apart from granting a lease. -/
inductive RowChange (now : Time)
    (P : String → RescheduleExecutionRequest → Option TaskWait → Prop) :
    JobRow → JobRow → Prop where
  | extended {r : JobRow} {L w : String} (held : LeaseHeld r L w now) (ns u : Int) :
      RowChange now P r { r with leaseExpiresAtNS := some ns, updatedAtNS := u }
  | completed {r : JobRow} {L w : String} (held : LeaseHeld r L w now) (value : Option String)
      (revision : Int) (status detail : String) (t : Time) :
      RowChange now P r
        (({ r with clientPayload := value, clientPayloadRevision := revision } : JobRow).completed
          status detail t)
  | rescheduled {r : JobRow} {L w : String} (held : LeaseHeld r L w now) (waitID : String)
      (value : Option String) (revision : Int) (req : RescheduleExecutionRequest)
      (task : Option TaskWait) (t : Time) (expected : P L req task) :
      RowChange now P r
        (({ r with dependencyWaitID := waitID, clientPayload := value,
                   clientPayloadRevision := revision } : JobRow).rescheduled req task t)
  | cancelled {r : JobRow} (reason : String) (t : Time) : RowChange now P r (r.cancelled reason t)
  | deleted {r : JobRow} (t : Int) : RowChange now P r (r.deleted t)
  | cleared {r : JobRow} : RowChange now P r { r with consecutiveExpirations := 0 }

/-- A row with its route taken over by an alternate that has fired. -/
def JobRow.routed (r : JobRow) (now : Time) : JobRow :=
  { (if (effectiveNextRoute r now).2 then r.noAlternate else r) with updatedAtNS := timeToNS now }

/-- A row claimed for a task's output. -/
def JobRow.claimed (r : JobRow) (policy : RunPolicy) (now : Time) : JobRow :=
  { r.noAlternate with payload := { runPolicy := policy }, updatedAtNS := timeToNS now }

/-- What is known of a reschedule and its lease, in the state that it finds. -/
abbrev Terms := Sched → String → RescheduleExecutionRequest → Option TaskWait → Prop

/-- Nothing is known. -/
abbrev Terms.any : Terms := fun _ _ _ _ => True

/-- What one step does. -/
inductive Effect (H : Host) (i : Nat) (P : Terms) : Sched → Sched → Prop where
  | same {v : Sched} : Effect H i P v v
  | tick {v : Sched} {t : Time} (later : v.now ≤ t) : Effect H i P v { v with now := t }
  | row {v : Sched} {k : JobKey} {r r' : JobRow} (stored : v.job k = some r)
      (change : RowChange v.now (P v) r r') : Effect H i P v (v.setJob k r')
  | granted {v : Sched} {k : JobKey} {r : JobRow} {lease : Lease} (stored : v.job k = some r)
      (id : lease.leaseID = H.ksuid v.drawn)
      (route : lease.route = (effectiveNextRoute r v.now).1) :
      Effect H i P v ((v.setJob k ((r.routed v.now).leased lease)).record
        ⟨k, lease.leaseID, lease.workerID, lease.route, none⟩)
  | claimed {v : Sched} {k : JobKey} {r : JobRow} {lease : Lease} {policy : RunPolicy}
      {tw : TaskWait} (stored : v.job k = some r) (waiting : r.payload.taskWait = some tw)
      (id : lease.leaseID = H.ksuid v.drawn)
      (route : lease.route = { jobType := tw.resumeJobType }) :
      Effect H i P v ((v.setJob k ((r.claimed policy v.now).leased lease)).record
        ⟨k, lease.leaseID, lease.workerID, lease.route, some tw⟩)
  | inserted {v : Sched} {p : Submission} {t : Time} (absent : v.job p.key = none) :
      Effect H i P v (v.setJob p.key (p.row t))
  | appended {v : Sched} {k : JobKey} {st : Story} {ch : StoredChapter}
      (stored : v.story k = some st) (next : ch.ordinal = st.chapterCount) (own : ch.writer = i) :
      Effect H i P v (v.setStory k { st with chapters := st.chapters ++ [ch] })
  | payloadFailed {v : Sched} {k : JobKey} {r : JobRow} {st : Story} {ch : StoredChapter}
      (job : v.job k = some r) (stored : v.story k = some st) (next : ch.ordinal = st.chapterCount)
      (own : ch.writer = i) (message : String) (t : Time) :
      Effect H i P v ((v.setStory k { st with chapters := st.chapters ++ [ch] }).setJob k
        (r.payloadFailed message t))
  | created {v : Sched} {k : JobKey} (absent : v.story k = none) :
      Effect H i P v (v.setStory k {})
  | linked {v : Sched} {k source : JobKey} {st : Story} (n : Nat) (absent : v.story k = none)
      (stored : v.story source = some st) :
      Effect H i P v (v.setStory k { chapters := st.chapters.take n })
  | chain {v v₁ v' : Sched} (first : Effect H i P v v₁) (second : Effect H i P v₁ v') :
      Effect H i P v v'

/-! ## Keys -/

variable {r : JobRow}

theorem RowChange.key {now : Time} {P} {r' : JobRow}
    (h : RowChange now P r r') : r'.key = r.key := by
  cases h <;> rfl

theorem Keyed.setJob {v : Sched} (h : Keyed v) {k : JobKey} (hr : r.key = k) :
    Keyed (v.setJob k r) := by
  intro k' r' h'
  rw [Sched.setJob_job] at h'
  split at h'
  · next he => rw [← Option.some.inj h', hr, he]
  · exact h k' r' h'

theorem JobRow.routed_key (r : JobRow) (now : Time) : (r.routed now).key = r.key := by
  unfold JobRow.routed
  split <;> rfl

theorem Effect.keyed {H : Host} {i : Nat} {P} {v v' : Sched}
    (h : Effect H i P v v') : Keyed v → Keyed v' := by
  induction h with
  | same => exact id
  | tick => exact id
  | row stored change => exact fun hk => hk.setJob (change.key.trans (hk _ _ stored))
  | granted stored => exact fun hk => hk.setJob ((JobRow.routed_key _ _).trans (hk _ _ stored))
  | claimed stored =>
    intro hk
    have hkey := hk _ _ stored
    exact hk.setJob hkey
  | inserted => exact fun hk => hk.setJob rfl
  | appended => exact id
  | payloadFailed job =>
    intro hk
    have hkey := hk _ _ job
    exact Keyed.setJob hk hkey
  | created => exact id
  | linked => exact id
  | chain _ _ ih₁ ih₂ => exact fun hk => ih₂ (ih₁ hk)

/-! ## The parts of transactions -/

section Parts

variable {s s' : State} {key : JobKey}

theorem clock_eq_ok {p : Time × State} : clock s = .ok p ↔ p = (s.now, s) := by
  unfold clock
  rw [Tx.read_eq_ok]
  obtain ⟨t, s'⟩ := p
  simp [eq_comm]

theorem clock_bind_eq_ok {α : Type} {f : Time → Tx State Err α} {p : α × State} :
    (clock >>= f) s = .ok p ↔ f s.now s = .ok p := by
  rw [Tx.bind_eq_ok]
  constructor
  · rintro ⟨t, s₁, hc, hf⟩
    obtain ⟨rfl, rfl⟩ := Prod.mk.inj (clock_eq_ok.mp hc)
    exact hf
  · exact fun hf => ⟨s.now, s, clock_eq_ok.mpr rfl, hf⟩

variable {row : JobRow}

theorem requireLease_ok {L w : String} (h : requireLease key L w s = .ok (row, s')) :
    s' = s ∧ s.sched.job key = some row ∧ LeaseHeld row L w s.now := by
  obtain ⟨hr, rfl⟩ := Tx.read_eq_ok.mp h
  obtain ⟨r, hload, hr⟩ := bind_eq_ok.mp hr
  obtain ⟨_, hv, rfl⟩ := map_eq_ok.mp hr
  exact ⟨rfl, State.loadJobRow_eq_ok.mp hload, validateLeaseRow_eq_ok.mp hv⟩

theorem update_ok {f : JobRow → JobRow} (h : update key f s = .ok ((), s'))
    (hr : s.sched.job key = some r) : s'.sched = s.sched.setJob key (f r) := by
  have hw := Tx.write_eq_ok.mp h
  cases hw
  exact State.sched_updateJob hr f

theorem completeGoals_within : Tx.Within SameSched (completeGoals key) :=
  .bind (.read _) fun now => Engine.complete_within goalStore_writes now key

theorem updateClientPayload_ok {H : Host} {u : Option ClientPayloadUpdate} {x : Unit}
    (h : updateClientPayload H row u s = .ok (x, s')) (hr : s.sched.job row.key = some r) :
    ∃ value revision, s'.sched = s.sched.setJob row.key
      { r with clientPayload := value, clientPayloadRevision := revision } := by
  obtain ⟨⟨value, revision⟩, _, hu⟩ := Tx.read_bind_eq_ok.mp h
  by_cases hsome : u.isSome = true
  · simp only [hsome, if_true] at hu
    exact ⟨value, revision, update_ok hu hr⟩
  · simp only [hsome] at hu
    obtain ⟨_, rfl⟩ := Tx.pure_eq_ok.mp hu
    exact ⟨r.clientPayload, r.clientPayloadRevision, (Sched.setJob_self _ _ _ hr).symm⟩

theorem closeOldWait_within {req : RescheduleExecutionRequest} :
    Tx.Within SameSched (closeOldWait key row req) := by
  unfold closeOldWait
  split
  · exact .bind (.read _) fun now => Engine.closeConsumer_within goalStore_writes now key
  · exact .pure _

theorem registerWait_within {req : RescheduleExecutionRequest} :
    Tx.Within SameSched (registerWait key req) := by
  unfold registerWait
  split
  · refine .bind (.read _) fun now => ?_
    exact .bind (Engine.register_within goalStore_writes now key _ false) fun _ => .pure _
  · exact .pure _

end Parts

/-! ## Transactions -/

section Transactions

variable {H : Host} {i : Nat}
  {P : Terms} {s s' : State}
  {key : JobKey} {L w : String} {u : Unit}

theorem keepAliveTx_effect {expires : Time} (h : keepAliveTx key L w expires s = .ok (u, s')) :
    Effect H i P s.sched s'.sched := by
  obtain ⟨row, s₁, h₁, hrest⟩ := Tx.bind_eq_ok.mp h
  obtain ⟨rfl, hr, held⟩ := requireLease_ok h₁
  have hset := update_ok (clock_bind_eq_ok.mp hrest) hr
  rw [if_pos held.id.1] at hset
  rw [hset]
  exact .row hr (.extended held _ _)

variable {duration : Int} {req : CompleteExecutionRequest} {t : Time} {row expected : JobRow}
  {l : Option Lease} {p : Submission} {ch : StoredChapter}

theorem renewTx_effect (h : renewTx key L w duration s = .ok (u, s')) :
    Effect H i P s.sched s'.sched := by
  obtain ⟨row, s₁, h₁, hrest⟩ := Tx.bind_eq_ok.mp h
  obtain ⟨rfl, hr, held⟩ := requireLease_ok h₁
  rw [update_ok (clock_bind_eq_ok.mp hrest) hr]
  exact .row hr (.extended held _ _)

/-- What a completion does: the row of the leased job is archived, with its client payload
updated. -/
theorem completeTx_sched (hk : Keyed s.sched) (h : completeTx H key L w req t s = .ok (u, s')) :
    ∃ r value revision, s.sched.job key = some r ∧ LeaseHeld r L w s.now ∧
      s'.sched = s.sched.setJob key
        (({ r with clientPayload := value, clientPayloadRevision := revision } : JobRow).completed
          (completionStatusFromRequest req.status) req.detail t) := by
  obtain ⟨row, s₁, h₁, hrest⟩ := Tx.bind_eq_ok.mp h
  obtain ⟨_, s₂, h₂, hrest⟩ := Tx.bind_eq_ok.mp hrest
  obtain ⟨_, s₃, h₃, h₄⟩ := Tx.bind_eq_ok.mp hrest
  obtain ⟨rfl, hr, held⟩ := requireLease_ok h₁
  obtain rfl := hk _ _ hr
  obtain ⟨value, revision, hs₂⟩ := updateClientPayload_ok h₂ hr
  have hs₃ := update_ok h₃ (by rw [hs₂, Sched.setJob_job, if_pos rfl])
  refine ⟨row, value, revision, hr, held, ?_⟩
  rw [completeGoals_within h₄, hs₃, hs₂, Sched.setJob_setJob]

theorem completeTx_ok (hk : Keyed s.sched) (h : completeTx H key L w req t s = .ok (u, s')) :
    ∃ r r', s.sched.job key = some r ∧ RowChange s.now (P s.sched) r r' ∧
      s'.sched = s.sched.setJob key r' := by
  obtain ⟨r, value, revision, hr, held, hs'⟩ := completeTx_sched hk h
  exact ⟨r, _, hr, .completed held value revision _ _ t, hs'⟩

theorem completeTx_effect (hk : Keyed s.sched) (h : completeTx H key L w req t s = .ok (u, s')) :
    Effect H i P s.sched s'.sched := by
  obtain ⟨r, r', hr, hchange, hs'⟩ := completeTx_ok hk h
  rw [hs']
  exact .row hr hchange

theorem rescheduleTx_ok {req : RescheduleExecutionRequest} {task : Option TaskWait}
    (hk : Keyed s.sched) (hP : P s.sched L req task)
    (h : rescheduleTx H key L w req task t s = .ok (u, s')) :
    ∃ r r', s.sched.job key = some r ∧ RowChange s.now (P s.sched) r r' ∧
      s'.sched = s.sched.setJob key r' := by
  obtain ⟨row, s₁, h₁, hrest⟩ := Tx.bind_eq_ok.mp h
  obtain ⟨_, s₂, h₂, hrest⟩ := Tx.bind_eq_ok.mp hrest
  obtain ⟨waitID, s₃, h₃, hrest⟩ := Tx.bind_eq_ok.mp hrest
  obtain ⟨_, s₄, h₄, hrest⟩ := Tx.bind_eq_ok.mp hrest
  obtain ⟨_, s₅, h₅, h₆⟩ := Tx.bind_eq_ok.mp hrest
  obtain ⟨rfl, hr, held⟩ := requireLease_ok h₁
  obtain rfl := hk _ _ hr
  have hs₃ := (registerWait_within h₃).trans (closeOldWait_within h₂)
  have hs₄ := update_ok h₄ (by rw [hs₃]; exact hr)
  obtain ⟨value, revision, hs₅⟩ :=
    updateClientPayload_ok h₅ (by rw [hs₄, Sched.setJob_job, if_pos rfl])
  have hs₆ := update_ok h₆ (by rw [hs₅, Sched.setJob_job, if_pos rfl])
  rw [hs₆, hs₅, hs₄, hs₃, Sched.setJob_setJob, Sched.setJob_setJob]
  exact ⟨row, _, hr, .rescheduled held waitID value revision req task t hP, rfl⟩

theorem rescheduleTx_effect {req : RescheduleExecutionRequest} {task : Option TaskWait}
    (hk : Keyed s.sched) (hP : P s.sched L req task)
    (h : rescheduleTx H key L w req task t s = .ok (u, s')) : Effect H i P s.sched s'.sched := by
  obtain ⟨r, r', hr, hchange, hs'⟩ := rescheduleTx_ok hk hP h
  rw [hs']
  exact .row hr hchange

/-! ### Leases granted -/

theorem install_ok {lease l : Lease} {claim : Option TaskWait} {f : JobRow → JobRow}
    (h : install H lease claim f s = .ok (l, s')) (hr : s.sched.job lease.jobKey = some r) :
    l = { lease with leaseID := H.ksuid s.drawn } ∧
      s'.sched = (s.sched.setJob lease.jobKey ((f r).leased l)).record
        ⟨lease.jobKey, l.leaseID, lease.workerID, lease.route, claim⟩ := by
  cases h
  refine ⟨rfl, ?_⟩
  have hset := State.sched_updateJob hr
    fun r => (f r).leased { lease with leaseID := H.ksuid s.drawn }
  rw [← hset]
  simp only [State.sched, Sched.record, State.updateJob_drawn, State.updateJob_grants]

theorem grantPicked_effect {row : Option JobRow}
    (hr : ∀ r, row = some r → s.sched.job r.key = some r)
    (h : grantPicked H row w duration s = .ok (l, s')) : Effect H i P s.sched s'.sched := by
  cases row with
  | none =>
    obtain ⟨_, rfl⟩ := Tx.pure_eq_ok.mp h
    exact .same
  | some r =>
    obtain ⟨lease, h₁, -⟩ := Tx.bind_pure_eq_ok.mp h
    obtain ⟨rfl, hs'⟩ := install_ok (clock_bind_eq_ok.mp h₁) (hr r rfl)
    rw [hs']
    exact .granted (hr r rfl) rfl rfl

/-- One round of the loop of `acquireOneLease`: is this the row? -/
def pickTest (s : State) (req : PollWorkRequest) (row : JobRow) : Except Err Bool :=
  allHold
    [ .ok (decide (row.tenantID = req.tenantId) && req.allowed row.cell),
      .ok (!row.cancelRequested),
      .ok (decide ((effectiveNextRoute row s.now).1 ∈ req.routes.filter (·.jobType ≠ ""))),
      (statusFromRow s row s.now).map fun status => decide (status = .ready),
      req.metadataMatches row.metadata ]

section Pick

variable {req : PollWorkRequest} {rows : List JobRow}

theorem pickRow_cons : pickRow s req (row :: rows) =
    (pickTest s req row) >>= fun b => if b then .ok (some row) else pickRow s req rows := by
  conv_lhs => unfold pickRow
  unfold pickTest
  by_cases hfirst : row.tenantID ≠ req.tenantId ∨ req.allowed row.cell = false
  · have hfalse : (decide (row.tenantID = req.tenantId) && req.allowed row.cell) = false := by
      obtain h | h := hfirst <;> simp [h]
    rw [if_pos hfirst, hfalse]
    rfl
  · have htrue : (decide (row.tenantID = req.tenantId) && req.allowed row.cell) = true := by
      simpa [not_or] using hfirst
    rw [if_neg hfirst, htrue]
    cases hcancel : row.cancelRequested with
    | true => rfl
    | false =>
      rw [if_neg (by simp)]
      by_cases hroute : (effectiveNextRoute row s.now).1 ∈ req.routes.filter (·.jobType ≠ "")
      · rw [if_neg (not_not.2 hroute), decide_eq_true hroute]
        cases statusFromRow s row s.now with
        | error e => rfl
        | ok status =>
          by_cases hready : status = .ready
          · subst hready
            cases req.metadataMatches row.metadata with
            | error e => simp [allHold, Except.map, bind, Except.bind]
            | ok found => cases found <;> simp [allHold, Except.map, bind, Except.bind]
          · simp [allHold, Except.map, bind, Except.bind, hready]
      · rw [if_pos hroute, decide_eq_false hroute]
        rfl

/-- The row picked is one of the rows looked at, and it has passed. -/
theorem pickRow_eq_some (h : pickRow s req rows = .ok (some row)) :
    row ∈ rows ∧ pickTest s req row = .ok true := by
  induction rows with
  | nil => cases h
  | cons r rows ih =>
    rw [pickRow_cons] at h
    obtain ⟨b, hb, h⟩ := bind_eq_ok.1 h
    cases b with
    | true =>
      cases h
      exact ⟨List.mem_cons_self, hb⟩
    | false => exact (ih h).imp_left (List.mem_cons_of_mem r)

end Pick

theorem mem_activeRows (hk : Keyed s.sched) :
    row ∈ activeRows s ↔ s.jobs.lookup row.key = some row ∧ row.archivedAtNS = none := by
  unfold activeRows
  rw [List.mem_insertionSort, List.mem_filter, List.mem_map]
  constructor
  · rintro ⟨⟨⟨k, r⟩, hmem, rfl⟩, hlive⟩
    have hlookup : s.jobs.lookup k = some r := Table.mem_rows.1 hmem
    have hkey : r.key = k := hk k r hlookup
    exact ⟨by rw [hkey]; exact hlookup, by simpa using hlive⟩
  · rintro ⟨hlookup, hlive⟩
    exact ⟨⟨(row.key, row), Table.mem_rows.2 hlookup, rfl⟩, by simp [hlive]⟩

theorem acquireOneLeaseTx_effect {req : PollWorkRequest} (hk : Keyed s.sched)
    (h : acquireOneLeaseTx H req s = .ok (l, s')) : Effect H i P s.sched s'.sched := by
  obtain ⟨row, hpick, hrest⟩ := Tx.read_bind_eq_ok.mp h
  refine grantPicked_effect ?_ hrest
  rintro r rfl
  exact ((mem_activeRows hk).1 (pickRow_eq_some hpick).1).1

theorem leaseableRow_stored {req : GetJobLeaseRequest} (h : leaseableRow s req = .ok (some row)) :
    s.sched.job req.jobKey = some row := by
  unfold leaseableRow at h
  cases hl : s.jobs.lookup req.jobKey with
  | none =>
    rw [hl] at h
    cases h
  | some r =>
    rw [hl] at h
    obtain ⟨_, _, h₁⟩ := bind_eq_ok.mp h
    obtain ⟨status, _, h₂⟩ := bind_eq_ok.mp h₁
    split at h₂
    · cases h₂
    split at h₂
    · cases h₂
    cases h₂
    exact hl

theorem getJobLeaseTx_effect {req : GetJobLeaseRequest} (hk : Keyed s.sched)
    (h : getJobLeaseTx H req s = .ok (l, s')) : Effect H i P s.sched s'.sched := by
  obtain ⟨row, hrow, hrest⟩ := Tx.read_bind_eq_ok.mp h
  refine grantPicked_effect ?_ hrest
  rintro r rfl
  have hr := leaseableRow_stored hrow
  rwa [hk _ _ hr]

/-- The lease is on the job asked for. -/
theorem getJobLeaseTx_jobKey {req : GetJobLeaseRequest} {lease : Lease} (hk : Keyed s.sched)
    (h : getJobLeaseTx H req s = .ok (some lease, s')) : lease.jobKey = req.jobKey := by
  obtain ⟨row, hrow, hrest⟩ := Tx.read_bind_eq_ok.mp h
  cases row with
  | none => cases (Tx.pure_eq_ok.mp hrest).1
  | some r =>
    have hr := leaseableRow_stored hrow
    obtain ⟨l', h₁, hl'⟩ := Tx.bind_pure_eq_ok.mp hrest
    cases hl'
    obtain ⟨rfl, -⟩ := install_ok (clock_bind_eq_ok.mp h₁) (by rwa [hk _ _ hr])
    exact hk _ _ hr

/-- What a claim does: the job's row is freed of its task wait, and the lease is
one that no worker is told of. -/
theorem claimTx_ok {tw : TaskWait} {policy : RunPolicy} {l : Lease}
    (hw : expected.payload.taskWait = some tw)
    (h : claimTx H expected tw.resumeJobType policy s = .ok (l, s')) :
    l.jobKey = expected.key ∧ l.route = { jobType := tw.resumeJobType } ∧
      ∃ r, s.sched.job expected.key = some r ∧ r.payload.taskWait = some tw ∧
        l.leaseID = H.ksuid s.drawn ∧
        s'.sched = (s.sched.setJob expected.key ((r.claimed policy s.now).leased l)).record
          ⟨expected.key, l.leaseID, l.workerID, l.route, some tw⟩ := by
  obtain ⟨current, hload, h₁⟩ := Tx.read_bind_eq_ok.mp h
  obtain ⟨_, hwait, h₂⟩ := Tx.read_bind_eq_ok.mp h₁
  have hr := State.loadJobRow_eq_ok.mp hload
  have hpayload := (ite_error_eq_ok.1 hwait).1
  simp only [not_or, not_not] at hpayload
  rw [hw] at h₂
  obtain ⟨rfl, hs'⟩ := install_ok (clock_bind_eq_ok.mp h₂) hr
  exact ⟨rfl, rfl, current, hr, hpayload.2.2.2.2 ▸ hw, rfl, hs'⟩

theorem claimTx_effect {tw : TaskWait} {policy : RunPolicy} {l : Lease}
    (hw : expected.payload.taskWait = some tw)
    (h : claimTx H expected tw.resumeJobType policy s = .ok (l, s')) :
    Effect H i P s.sched s'.sched := by
  obtain ⟨_, hroute, r, hr, hwait, hid, hs'⟩ := claimTx_ok hw h
  rw [hs']
  exact .claimed hr hwait hid hroute

/-! ### Jobs begun and ended without a lease -/

theorem publishGoal_within : Tx.Within SameSched (publishGoal p t) := by
  unfold publishGoal
  split
  · exact .bind (.read _) fun g => .require _ _
  · exact .write fun _ _ => saveGoal_sched

theorem registerSubmission_within : Tx.Within SameSched (registerSubmission p) := by
  unfold registerSubmission
  split
  · exact .pure _
  · refine .bind (.read _) fun now => ?_
    exact .bind (Engine.register_within goalStore_writes now p.key _ true) fun _ => .pure _

/-- What publishing a job does: its row is put in where there was none. -/
theorem insertJobTx_sched (h : insertJobTx p t s = .ok (u, s')) :
    s.sched.job p.key = none ∧ s'.sched = s.sched.setJob p.key (p.row t) := by
  obtain ⟨_, hfree, h₁⟩ := Tx.read_bind_eq_ok.mp h
  obtain ⟨_, s₂, h₂, hrest⟩ := Tx.bind_eq_ok.mp h₁
  obtain ⟨_, s₃, h₃, hrest⟩ := Tx.bind_eq_ok.mp hrest
  obtain ⟨_, s₄, h₄, hrest⟩ := Tx.bind_eq_ok.mp hrest
  have hs₂ := publishGoal_within h₂
  have hs₃ : s₃.sched = s₂.sched.setJob p.key (p.row t) := by
    cases Tx.write_eq_ok.mp h₃
    unfold State.sched Sched.setJob
    congr 1
    funext k'
    rw [Table.lookup_insert_eq, Function.update_apply]
  have hs' : SameSched s₄ s' := Engine.checkCycle_within s₄.now _ _ (clock_bind_eq_ok.mp hrest)
  refine ⟨?_, by rw [hs', registerSubmission_within h₄, hs₃, hs₂]⟩
  split at hfree
  · cases hfree
  · next hl => exact Option.not_isSome_iff_eq_none.mp hl

theorem insertJobTx_effect (h : insertJobTx p t s = .ok (u, s')) :
    Effect H i P s.sched s'.sched := by
  obtain ⟨hnone, hs'⟩ := insertJobTx_sched h
  rw [hs']
  exact .inserted hnone

theorem cancelTx_effect {reason : String} (h : cancelTx key reason t s = .ok (u, s')) :
    Effect H i P s.sched s'.sched := by
  obtain ⟨row, hload, hrest⟩ := Tx.read_bind_eq_ok.mp h
  split at hrest
  · obtain ⟨_, rfl⟩ := Tx.pure_eq_ok.mp hrest
    exact .same
  · obtain ⟨_, s₁, h₁, h₂⟩ := Tx.bind_eq_ok.mp hrest
    have hr := State.loadJobRow_eq_ok.mp hload
    rw [completeGoals_within h₂, update_ok h₁ hr]
    exact .row hr (.cancelled reason t)

/-- `UPDATE` on a row that may be missing. -/
theorem update_effect {f : JobRow → JobRow}
    (hf : ∀ r, f r = r ∨ RowChange s.now (P s.sched) r (f r)) (h : update key f s = .ok (u, s')) :
    Effect H i P s.sched s'.sched := by
  cases hr : s.sched.job key with
  | none =>
    have hs' : s' = s.updateJob key f := (Except.ok.inj (Tx.write_eq_ok.mp h)).symm
    rw [hs', State.sched_updateJob_none hr]
    exact .same
  | some r =>
    rw [update_ok h hr]
    rcases hf r with he | hc
    · rw [he, Sched.setJob_self _ _ _ hr]
      exact .same
    · exact .row hr hc

theorem deleteKeys_effect (keys : List JobKey) (h : deleteKeys keys s = .ok (u, s')) :
    Effect H i P s.sched s'.sched := by
  obtain ⟨_, s₁, h₁, h₂⟩ := Tx.bind_eq_ok.mp (clock_bind_eq_ok.mp h)
  have hdeleted : Effect H i P s.sched s₁.sched := by
    have : IsPreorder State fun s s' => Effect H i P s.sched s'.sched :=
      { refl := fun _ => .same, trans := fun _ _ _ => .chain }
    refine Tx.Within.forM (R := fun s s' => Effect H i P s.sched s'.sched) (fun k _ => ?_) h₁
    intro _ _ _ hk
    refine update_effect (fun r => ?_) hk
    by_cases hh : r.hiddenAtNS = none
    · rw [if_pos hh]
      exact .inr (.deleted _)
    · rw [if_neg hh]
      exact .inl rfl
  have hgoals : Tx.Within SameSched (forM keys completeGoals) := .forM fun _ _ =>
    completeGoals_within
  rw [hgoals h₂]
  exact hdeleted

theorem deleteTx_effect {req : DeleteJobsRequest} (h : deleteTx req s = .ok (u, s')) :
    Effect H i P s.sched s'.sched := by
  obtain ⟨keys, _, hrest⟩ := Tx.read_bind_eq_ok.mp h
  split at hrest
  · obtain ⟨_, rfl⟩ := Tx.pure_eq_ok.mp hrest
    exact .same
  · exact deleteKeys_effect keys hrest

theorem clearCrashConcernTx_effect (h : clearCrashConcernTx key s = .ok (u, s')) :
    Effect H i P s.sched s'.sched := by
  obtain ⟨row, hload, h₁⟩ := Tx.read_bind_eq_ok.mp h
  obtain ⟨_, hrest⟩ := Tx.require_bind_eq_ok.mp (clock_bind_eq_ok.mp h₁)
  split at hrest
  · obtain ⟨_, rfl⟩ := Tx.pure_eq_ok.mp hrest
    exact .same
  · exact update_effect (fun _ => .inr .cleared) hrest

/-! ### Chapters -/

theorem sched_insertStory (k : JobKey) (st : Story) :
    ({ s with stories := s.stories.insert k st } : State).sched = s.sched.setStory k st := by
  unfold State.sched Sched.setStory
  congr 1
  funext k'
  rw [Table.lookup_insert_eq, Function.update_apply]

theorem pushChapter_ok {st : Story} (hst : s.sched.story key = some st)
    (h : pushChapter key ch s = .ok (u, s')) :
    s'.sched = s.sched.setStory key { st with chapters := st.chapters ++ [ch] } := by
  have hl : s.stories.lookup key = some st := hst
  have hw := Tx.write_eq_ok.mp h
  rw [hl] at hw
  cases hw
  exact sched_insertStory _ _

/-- What an append does: the chapter goes behind the others, with the ordinal
that is next. -/
theorem appendTx_ok (h : appendTx key ch s = .ok (u, s')) :
    ∃ st, s.sched.story key = some st ∧ ch.ordinal = st.chapterCount ∧
      s'.sched = s.sched.setStory key { st with chapters := st.chapters ++ [ch] } := by
  obtain ⟨st, hopen, h₁⟩ := Tx.read_bind_eq_ok.mp h
  obtain ⟨_, h₂⟩ := Tx.require_bind_eq_ok.mp h₁
  obtain ⟨hnext, h₃⟩ := Tx.require_bind_eq_ok.mp h₂
  have hst : s.sched.story key = some st := by
    unfold State.sched
    dsimp only
    split at hopen
    · cases hopen
    · next hl =>
      split at hopen
      · cases hopen
      split at hopen
      · cases hopen
      cases hopen
      exact hl
  exact ⟨st, hst, hnext, pushChapter_ok hst h₃⟩

theorem appendTx_effect (hw : ch.writer = i) (h : appendTx key ch s = .ok (u, s')) :
    Effect H i P s.sched s'.sched := by
  obtain ⟨st, hst, hnext, hs'⟩ := appendTx_ok h
  rw [hs']
  exact .appended hst hnext hw

theorem payloadFailureTx_ok {ch : Chapter} {body : String}
    {auth : State → JobRow → Except Err Unit}
    (h : payloadFailureTx i key ch body auth s = .ok (u, s')) :
    ∃ r st message t, s.sched.job key = some r ∧ auth s r = .ok () ∧
      s.sched.story key = some st ∧ ch.ordinal = st.chapterCount ∧
      s'.sched = (s.sched.setStory key
        { st with chapters := st.chapters ++ [⟨ch.ordinal, body, [], i⟩] }).setJob key
          (r.payloadFailed message t) := by
  obtain ⟨r, hload, h₁⟩ := Tx.read_bind_eq_ok.mp h
  obtain ⟨_, hauth, h₂⟩ := Tx.read_bind_eq_ok.mp h₁
  obtain ⟨st, hlook, h₃⟩ := Tx.read_bind_eq_ok.mp h₂
  obtain ⟨hreq, h₄⟩ := Tx.require_bind_eq_ok.mp h₃
  obtain ⟨_, s₁, hpush, h₅⟩ := Tx.bind_eq_ok.mp h₄
  obtain ⟨_, s₂, hupd, h₆⟩ := Tx.bind_eq_ok.mp (clock_bind_eq_ok.mp h₅)
  have hr := State.loadJobRow_eq_ok.mp hload
  have hst : s.sched.story key = some st := by
    unfold State.sched
    dsimp only
    split at hlook
    · cases hlook
    · next hl =>
      cases hlook
      exact hl
  have hs₁ := pushChapter_ok hst hpush
  have hs₂ := update_ok hupd (by rw [hs₁]; exact hr)
  refine ⟨r, st, Chapter.failureMessage ch, s₁.now, hr, hauth, hst, ?_, ?_⟩
  · rw [hreq.2.2, Story.latestOrdinal]
    omega
  · rw [completeGoals_within h₆, hs₂, hs₁]

theorem payloadFailureTx_effect {ch : Chapter} {body : String}
    {auth : State → JobRow → Except Err Unit}
    (h : payloadFailureTx i key ch body auth s = .ok (u, s')) :
    Effect H i P s.sched s'.sched := by
  obtain ⟨r, st, message, t, hr, _, hst, hnext, hs'⟩ := payloadFailureTx_ok h
  rw [hs']
  have hch : (⟨ch.ordinal, body, [], i⟩ : StoredChapter).ordinal = st.chapterCount := hnext
  exact .payloadFailed hr hst hch rfl message t

/-- What creating a story does: it is put in where there was none, with the chapters it keeps. -/
theorem createStoryTx_sched {base : Option (JobKey × Int)}
    (h : createStoryTx key base s = .ok (u, s')) :
    ∃ chapters, s.sched.story key = none ∧ keptChapters s base = .ok chapters ∧
      s'.sched = s.sched.setStory key { chapters := chapters } := by
  obtain ⟨_, hfree, h₁⟩ := Tx.read_bind_eq_ok.mp h
  obtain ⟨chapters, hkept, h₂⟩ := Tx.read_bind_eq_ok.mp h₁
  refine ⟨chapters, ?_, hkept, ?_⟩
  · split at hfree
    · cases hfree
    · next hl => exact Option.not_isSome_iff_eq_none.mp hl
  · cases Tx.write_eq_ok.mp h₂
    exact sched_insertStory _ _

theorem createStoryTx_effect {base : Option (JobKey × Int)}
    (h : createStoryTx key base s = .ok (u, s')) : Effect H i P s.sched s'.sched := by
  obtain ⟨chapters, hnone, hkept, hs'⟩ := createStoryTx_sched h
  rw [hs']
  cases base with
  | none =>
    cases hkept
    exact .created hnone
  | some b =>
    obtain ⟨source, last⟩ := b
    simp only [keptChapters] at hkept
    cases hl : s.stories.lookup source with
    | none =>
      rw [hl] at hkept
      cases hkept
    | some st =>
      simp only [hl] at hkept
      split at hkept
      · cases hkept
      cases hkept
      exact .linked _ hnone hl

end Transactions

end JobDB.Sqlite
