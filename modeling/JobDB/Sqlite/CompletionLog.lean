import JobDB.Sqlite.Leases

/-!
# The end of the chapter log in the SQLite runtime

`Complete` puts its completion chapter into the log, or finds it there, and archives the job in
a transaction of its own. The chapter should then be the last one for good. Nothing in the
runtime sees to that: `PutChapter` checks the lease and the ordinal before it appends, the
append itself asks for the ordinal only, and so a chapter can come between the two halves of
`Complete` or after both (`completion_overtaken`).

What is needed is that callers keep out of each other's way (`Orderly`): while a `Complete` of a
job is under way, no other call that may write to the job's log is, and `Complete` is called for
the last ordinal of the log or the next one. Nothing is asked of the calls made afterwards: each
of them looks at the job's row before it writes, and the row is archived (`body_spares`).
-/

namespace JobDB.Sqlite

/-- The job has ended. -/
def Archived (v : Sched) (k : JobKey) : Prop := ∃ r, v.job k = some r ∧ r.archivedAtNS.isSome = true

/-- The last chapter of the job's log is the one under the ordinal. -/
def EndsAt (v : Sched) (k : JobKey) (n : Int) : Prop :=
  ∃ l, v.logs k = some l ∧ (l.length : Int) = n + 1

variable {v v' : Sched} {k : JobKey} {n : Int} {r : JobRow} {i : Nat} {L w : String}

/-- A chapter that has just been put behind the others is the last one. -/
theorem endsAt_append {st : Story} (ch : StoredChapter) (hv : v.logs k = some (st.chapters ++ [ch]))
    (hn : n = st.chapterCount) : EndsAt v k n := by
  refine ⟨_, hv, ?_⟩
  have hcount : n = (st.chapters.length : Int) := hn
  rw [List.length_append, List.length_singleton, hcount]
  omega

/-! ## A job that has ended stays so -/

theorem archived_setJob (r' : JobRow) (hr : v.job k = some r)
    (h : r.archivedAtNS.isSome = true → r'.archivedAtNS.isSome = true) {k' : JobKey}
    (ha : Archived v k') : Archived (v.setJob k r') k' := by
  obtain ⟨r₀, hr₀, hsome⟩ := ha
  unfold Archived
  rw [Sched.setJob_job]
  by_cases hk : k' = k
  · subst hk
    cases hr.symm.trans hr₀
    exact ⟨r', if_pos rfl, h hsome⟩
  · exact ⟨r₀, by rw [if_neg hk, hr₀], hsome⟩

theorem RowChange.archived {now : Time} {P} {r' : JobRow}
    (h : RowChange now P r r') (ha : r.archivedAtNS.isSome = true) :
    r'.archivedAtNS.isSome = true := by
  cases h with
  | extended => exact ha
  | completed => rfl
  | rescheduled held =>
    rw [held.live.1] at ha
    cases ha
  | cancelled => rfl
  | deleted => rfl
  | cleared => exact ha

theorem JobRow.routed_archived (r : JobRow) (now : Time) :
    (r.routed now).archivedAtNS = r.archivedAtNS := by
  unfold JobRow.routed
  split <;> rfl

theorem Effect.archived {H : Host} {P}
    (h : Effect H i P v v') : Archived v k → Archived v' k := by
  induction h with
  | same => exact id
  | tick => exact id
  | row stored change => exact archived_setJob _ stored change.archived
  | @granted v k' r lease stored =>
    intro ha
    refine archived_setJob ((r.routed v.now).leased lease) stored (fun hs => ?_) ha
    show (r.routed v.now).archivedAtNS.isSome = true
    rwa [JobRow.routed_archived]
  | @claimed v k' r lease policy tw stored =>
    exact archived_setJob ((r.claimed policy v.now).leased lease) stored fun hs => hs
  | @inserted v p t absent =>
    rintro ⟨r, hr, hs⟩
    refine ⟨r, ?_, hs⟩
    rw [Sched.setJob_job, if_neg, hr]
    rintro rfl
    cases absent.symm.trans hr
  | appended => exact id
  | @payloadFailed v k' r st ch job stored next own message t =>
    intro ha
    exact archived_setJob (v := v.setStory k' _) (r.payloadFailed message t) job (fun _ => rfl) ha
  | created => exact id
  | linked => exact id
  | chain _ _ ih₁ ih₂ => exact fun ha => ih₂ (ih₁ ha)

/-! ## The logs a call writes to -/

/-- The job has ended, and its log is there. -/
def Ended (k : JobKey) (v : Sched) : Prop := Archived v k ∧ ∃ l, v.logs k = some l

/-- The log of the job stays as it is. -/
def LogKept (k : JobKey) (v v' : Sched) : Prop := ∀ l, v.logs k = some l → v'.logs k = some l

theorem LogKept.refl (k : JobKey) (v : Sched) : LogKept k v v := fun _ h => h

theorem LogKept.trans {v'' : Sched} (h : LogKept k v v') (h' : LogKept k v' v'') :
    LogKept k v v'' :=
  fun l hl => h' l (h l hl)

theorem LogKept.setStory {key : JobKey} (hne : key ≠ k) (st : Story) :
    LogKept k v (v.setStory key st) := by
  intro l hl
  rwa [Sched.setStory_logs, Function.update_of_ne (Ne.symm hne)]

/-- A row under a lease is not archived. -/
theorem Ended.not_held {now : Time} (h : Ended k v) (hr : v.job k = some r) :
    ¬ LeaseHeld r L w now := by
  obtain ⟨⟨r', hr', hsome⟩, -⟩ := h
  cases hr.symm.trans hr'
  intro held
  rw [held.live.1] at hsome
  cases hsome

/-- The chapters that a step adds to a log carry the number of the call. -/
theorem Effect.added {H : Host} {P} (h : Effect H i P v v') :
    ∀ {l}, v.logs k = some l → ∃ added, v'.logs k = some (l ++ added) ∧
      ∀ ch ∈ added, ch.writer = i := by
  have hset {v : Sched} {k' : JobKey} {st : Story} {ch : StoredChapter}
      (stored : v.story k' = some st) (own : ch.writer = i) {l} (hl : v.logs k = some l) :
      ∃ added, (v.setStory k' { st with chapters := st.chapters ++ [ch] }).logs k =
        some (l ++ added) ∧ ∀ ch ∈ added, ch.writer = i := by
    by_cases hk : k = k'
    · subst hk
      cases hl.symm.trans (Sched.logs_of_story stored)
      refine ⟨[ch], ?_, by simp [own]⟩
      rw [Sched.setStory_logs, Function.update_self]
    · exact ⟨[], by simpa using LogKept.setStory (Ne.symm hk) _ l hl, by simp⟩
  have hnew {v : Sched} {k' : JobKey} (st : Story) (absent : v.story k' = none) {l}
      (hl : v.logs k = some l) :
      ∃ added, (v.setStory k' st).logs k = some (l ++ added) ∧ ∀ ch ∈ added, ch.writer = i := by
    have hk : k' ≠ k := by
      rintro rfl
      obtain ⟨st', hst', -⟩ := Option.map_eq_some_iff.1 hl
      cases absent.symm.trans hst'
    exact ⟨[], by simpa using LogKept.setStory hk st l hl, by simp⟩
  induction h with
  | appended stored _ own => exact hset stored own
  | payloadFailed _ stored _ own => exact hset stored own
  | created absent => exact hnew _ absent
  | linked _ absent => exact hnew _ absent
  | chain _ _ ih₁ ih₂ =>
    intro l hl
    obtain ⟨a, ha, hown⟩ := ih₁ hl
    obtain ⟨b, hb, hown'⟩ := ih₂ ha
    exact ⟨a ++ b, by rw [hb, List.append_assoc], by simpa [or_imp, forall_and] using ⟨hown, hown'⟩⟩
  | _ =>
    intro l hl
    exact ⟨[], by rw [List.append_nil]; exact hl, by simp⟩

theorem Effect.ended {H : Host} {P} (h : Effect H i P v v') (he : Ended k v) : Ended k v' := by
  obtain ⟨ha, l, hl⟩ := he
  obtain ⟨added, hl', -⟩ := h.added hl
  exact ⟨h.archived ha, _, hl'⟩

/-- A step that any call could have made adds no chapter, for a chapter tells who wrote it. -/
theorem Effect.logKept {H : Host} {P} (h : ∀ i, Effect H i P v v') : LogKept k v v' := by
  intro l hl
  obtain ⟨a, ha, hown⟩ := (h 0).added hl
  obtain ⟨b, hb, hown'⟩ := (h 1).added hl
  obtain rfl : a = b := List.append_cancel_left (Option.some.inj (ha.symm.trans hb))
  cases a with
  | nil => rwa [List.append_nil] at ha
  | cons ch _ =>
    have hzero := hown ch List.mem_cons_self
    rw [hown' ch List.mem_cons_self] at hzero
    cases hzero

/-- Does the preflight lead to a chapter of the job? A cancellation writes to the log of the job
under the lease. -/
def Preflight.Writes (decision : Preflight) (leased : Prop) (k : JobKey) : Prop :=
  match decision with
  | .submitNext req => req.job.key = k
  | .cancel _ _ _ => leased
  | _ => False

/-- The call may write to the job's log. A poll whose preflight cancels may lease any job. -/
def Request.Writes (c : Request) (k : JobKey) : Prop :=
  match c with
  | .submit req => req.job.key = k
  | .pollWork _ decide _ => ∃ m n, (decide m n).Writes True k
  | .getJobLease req decision => decision.Writes (req.jobKey = k) k
  | .complete _ key _ _ _ => key = k
  | .putChapter _ req => req.jobKey = k
  | .completeTaskIfWaiting req => req.jobKey = k
  | _ => False

/-- Every step of the call leaves the job's log as it is, provided that the job has ended where
`W` holds. -/
abbrev Spares {α : Type} (W : Prop) (k : JobKey) (x : Call State Err α) : Prop :=
  x.Keeps (fun s => Ready s.sched ∧ (W → Ended k s.sched)) (fun _ _ => True)
    fun s s' => LogKept k s.sched s'.sched

section Spares

variable {α : Type} {H : Host} {W : Prop} {key : JobKey} {handle : Option Time}

theorem spares_closed : Call.Closed fun _ (x : Call State Err _) => Spares W k x :=
  Call.Keeps.closed fun _ => .refl _ _

theorem spares_tx {m : Tx State Err α} (hm : ∀ s a s', Ready s.sched → (W → Ended k s.sched) →
    m s = .ok (a, s') → Effect H i .any s.sched s'.sched ∧
      LogKept k s.sched s'.sched) : Spares W k (Call.tx m) := by
  refine Call.Keeps.tx (fun _ => .refl _ _) fun s a s' hi h => ?_
  obtain ⟨heffect, hkept⟩ := hm s a s' hi.1 hi.2 h
  exact ⟨⟨heffect.ready hi.1, fun hw => heffect.ended (hi.2 hw)⟩, hkept⟩

theorem spares_silent {m : Tx State Err α} (hm : ∀ s a s', Ready s.sched → m s = .ok (a, s') →
    ∀ i, Effect H i .any s.sched s'.sched) : Spares W k (Call.tx m) :=
  spares_tx (i := 0) fun s a s' hi _ h => ⟨hm s a s' hi h 0, Effect.logKept (hm s a s' hi h)⟩

theorem appendTx_spares (hne : key ≠ k) (ch : StoredChapter) (hw : ch.writer = i) :
    Spares W k (Call.tx (appendTx key ch)) := by
  refine spares_tx (H := Host.accepting) fun s _ s' _ _ h => ⟨appendTx_effect hw h, ?_⟩
  obtain ⟨st, -, -, hs'⟩ := appendTx_ok h
  rw [hs']
  exact .setStory hne _

theorem payloadFailureTx_spares {ch : Chapter} {body : String}
    {auth : State → JobRow → Except Err Unit} (hauth : ∀ s r, (W → Ended k s.sched) →
      s.sched.job key = some r → auth s r = .ok () → key ≠ k) :
    Spares W k (Call.tx (payloadFailureTx i key ch body auth)) := by
  refine spares_tx (H := Host.accepting) fun s _ s' _ hended h => ⟨payloadFailureTx_effect h, ?_⟩
  obtain ⟨r, st, message, t, hr, hok, -, -, hs'⟩ := payloadFailureTx_ok h
  rw [hs']
  exact .setStory (hauth s r hended hr hok) _

/-- A chapter is written under a lease, or to another job. -/
theorem ensureCompletionChapter_spares (hkey : key = k → W) (ch : Chapter)
    (uploads : List ArtifactUpload) :
    Spares W k (ensureCompletionChapter H i key L w ch uploads) := by
  by_cases hk : key = k
  · refine fun s => .check_bind fun _ _ =>
      .query_bind (fun _ => .refl _ _) fun s₁ row hi _ hrow => ?_
    obtain ⟨r, hload, hok⟩ := bind_eq_ok.mp hrow
    obtain ⟨_, hvalid, rfl⟩ := map_eq_ok.mp hok
    subst hk
    exact absurd (validateLeaseRow_eq_ok.mp hvalid)
      ((hi.2 (hkey rfl)).not_held (State.loadJobRow_eq_ok.mp hload))
  · exact ensureCompletionChapter_closed spares_closed (appendTx_spares hk) ch uploads

theorem complete_spares (hkey : key = k → W) (req : CompleteExecutionRequest) :
    Spares W k (complete H i handle key L w req) := by
  refine complete_closed spares_closed (fun ch => ?_)
    (ensureCompletionChapter_spares hkey) fun now => ?_
  · refine completePayloadFailure_closed spares_closed fun body => payloadFailureTx_spares ?_
    rintro s r hended hr hok rfl
    exact (hended (hkey rfl)).not_held hr (validateLeaseRow_eq_ok.mp hok)
  · exact spares_silent (H := H) fun _ _ _ hi h _ => completeTx_effect hi.keyed h

theorem putChapter_spares (claims : Option Claims) (req : PutChapterRequest)
    (hkey : req.jobKey = k → W) : Spares W k (putChapter H i claims req) := by
  refine fun s => .check_bind fun _ _ => .bind (spares_closed.query _ s) fun _ s₁ _ => ?_
  refine .query_bind (fun _ => .refl _ _) fun s₂ row hi _ hrow => ?_
  have hne : req.jobKey ≠ k := by
    rintro rfl
    obtain ⟨r, hload, hok⟩ := bind_eq_ok.mp hrow
    obtain ⟨_, hvalid, rfl⟩ := map_eq_ok.mp hok
    exact (hi.2 (hkey rfl)).not_held (State.loadJobRow_eq_ok.mp hload)
      (validateLeaseRow_eq_ok.mp hvalid)
  refine .bind (spares_closed.query _ s₂) fun _ s₃ _ => .check_bind fun ch _ => ?_
  refine .check_bind fun _ _ => .check_bind fun body _ => ?_
  exact saveChapter_closed spares_closed (appendTx_spares hne) req.ordinal body ch.artifacts s₃

theorem commitTaskOutput_spares {row : JobRow} {tw : TaskWait} (hne : row.key ≠ k)
    (hwait : row.payload.taskWait = some tw) (body : String) (artifacts : List StoredArtifact) :
    Spares W k (commitTaskOutput H i row tw body artifacts) := by
  refine fun s => .bind (spares_closed.query _ s) fun _ s₁ _ => ?_
  refine .tx_bind (fun _ => .refl _ _) fun s₂ lease s₃ hi _ h => ?_
  have heffect := fun i => claimTx_effect (i := i) (P := .any) hwait h
  obtain ⟨hkey, -⟩ := claimTx_ok hwait h
  refine ⟨⟨(heffect 0).ready hi.1, fun hw => (heffect 0).ended (hi.2 hw)⟩, Effect.logKept heffect,
    ?_⟩
  refine spares_closed.bind (spares_closed.bind (spares_closed.query _) fun _ => ?_)
    (fun _ => ?_) s₃
  · exact saveChapter_closed spares_closed (appendTx_spares (hkey ▸ hne)) _ body artifacts
  · refine reschedule_closed spares_closed fun task now => ?_
    exact spares_silent (H := H) fun _ _ _ hi h _ => rescheduleTx_effect hi.keyed trivial h

/-- A task that waits is no job that has ended. -/
theorem completeTaskIfWaiting_spares (req : CompleteTaskIfWaitingRequest)
    (hkey : req.jobKey = k → W) : Spares W k (completeTaskIfWaiting H i req) := by
  refine fun s => .check_bind fun _ _ => .check_bind fun _ _ => ?_
  refine .query_bind (fun _ => .refl _ _) fun s₁ row hi _ hload => ?_
  have hrow := State.loadJobRow_eq_ok.mp hload
  refine .bind (spares_closed.query _ s₁) fun now s₂ _ => .check_bind fun tw hwait => ?_
  have hne : row.key ≠ k := by
    rw [hi.1.keyed _ _ hrow]
    rintro rfl
    obtain ⟨⟨r, hr, hsome⟩, -⟩ := hi.2 (hkey rfl)
    cases hrow.symm.trans hr
    unfold waitingTask at hwait
    rw [if_pos (.inl hsome)] at hwait
    cases hwait
  refine .bind (spares_closed.query _ s₂) fun input s₃ _ =>
    .bind (spares_closed.query _ s₃) fun _ s₄ _ => ?_
  refine .check_bind fun out _ => .check_bind fun stored _ => ?_
  split
  · exact commitTaskOutput_spares hne (waitingTask_eq_ok hwait).1 _ _ s₄
  · refine .bind (completePayloadFailure_closed spares_closed (fun body => ?_) s₄) fun _ s₅ _ =>
      spares_closed.check _ s₅
    exact payloadFailureTx_spares fun _ _ _ _ _ => hne
  · exact spares_closed.check _ s₄

/-- A story is created only where there is none. -/
theorem submit_spares (req : SubmitRequest) (hkey : req.job.key = k → W) :
    Spares W k (submit i req) := by
  by_cases hk : req.job.key = k
  · refine fun s => .tx_bind (fun _ => .refl _ _) fun s₁ _ s₂ hi _ h => ?_
    obtain ⟨_, l, hl⟩ := hi.2 (hkey hk)
    obtain ⟨chapters, hnone, -⟩ := createStoryTx_sched h
    obtain ⟨st, hst, -⟩ := Option.map_eq_some_iff.1 hl
    cases hnone.symm.trans (hk ▸ hst)
  · refine submit_closed spares_closed (appendTx_spares hk) ?_ fun now => ?_
    · exact spares_silent (H := Host.accepting) fun _ _ _ _ h _ => createStoryTx_effect h
    · exact spares_silent (H := Host.accepting) fun _ _ _ _ h _ => insertJobTx_effect h

theorem preflightScheduleLease_spares (lease : Lease) {decision : Preflight}
    (hkey : decision.Writes (lease.jobKey = k) k → W) :
    Spares W k (preflightScheduleLease H i lease decision) := by
  refine preflightScheduleLease_closed spares_closed lease (fun hcancels _ _ _ req _ => ?_) ?_
  · cases decision with
    | cancel => exact complete_spares hkey req
    | _ => cases hcancels
  · rintro r rfl
    exact submit_spares r hkey

theorem getJobLease_spares (req : GetJobLeaseRequest) {decision : Preflight}
    (hkey : decision.Writes (req.jobKey = k) k → W) :
    Spares W k (getJobLease H i req decision) := by
  refine fun s => .tx_bind (fun _ => .refl _ _) fun s₁ found s₂ hi _ h => ?_
  have heffect := fun i => getJobLeaseTx_effect (i := i) (P := .any) hi.1.keyed h
  refine ⟨⟨(heffect 0).ready hi.1, fun hw => (heffect 0).ended (hi.2 hw)⟩, Effect.logKept heffect,
    ?_⟩
  cases found with
  | none => exact spares_closed.pure _ s₂
  | some lease =>
    rw [← getJobLeaseTx_jobKey hi.1.keyed h] at hkey
    exact .bind (preflightScheduleLease_spares lease hkey s₂) fun _ s₃ _ => spares_closed.pure _ s₃

theorem pollWork_spares (req : PollWorkRequest) {decide : Nat → Nat → Preflight} (rounds : Nat)
    (hkey : (∃ m n, (decide m n).Writes True k) → W) :
    Spares W k (pollWork H i req decide rounds) := by
  refine pollWork_closed spares_closed (fun m n hcancels _ _ _ _ req _ => ?_) ?_
    (fun m n r hr => ?_) rounds
  · refine complete_spares (fun _ => hkey ⟨m, n, ?_⟩) req
    cases hd : decide m n with
    | cancel => trivial
    | _ =>
      rw [hd] at hcancels
      cases hcancels
  · exact spares_silent (H := H) fun _ _ _ hi h _ => acquireOneLeaseTx_effect hi.keyed h
  · exact submit_spares r fun hr' => hkey ⟨m, n, by rwa [hr]⟩

theorem noLease_spares {x : Call State Err Unit} (h : Spares W k x) : Spares W k (noLease x) :=
  .bind h fun _ => .pure _

end Spares

/-- **A call that may write to a job's log looks at the job first**: it leaves the log of a job
that has ended as it is. -/
theorem body_spares {H : Host} (c : Request) : Spares (c.Writes k) k (body H i c) := by
  have hgoal {α : Type} {m : Time → Tx State Err α} (hm : ∀ now, Tx.Within SameSched (m now)) :
      Spares False k (Call.tx (do
        let now ← clock
        let _ ← m now : Tx State Err Unit)) := by
    refine spares_silent (H := H) fun s₁ _ s₂ _ h _ => ?_
    obtain ⟨_, h₁, -⟩ := Tx.bind_pure_eq_ok.mp (clock_bind_eq_ok.mp h)
    rw [hm _ h₁]
    exact .same
  cases c with
  | submit req => exact noLease_spares (submit_spares req id)
  | pollWork req decide rounds => exact pollWork_spares req rounds id
  | getJobLease req decision => exact getJobLease_spares req id
  | keepAlive handle key leaseID workerID duration =>
    refine noLease_spares (keepAlive_closed spares_closed fun _ => ?_)
    exact spares_silent (H := H) fun _ _ _ _ h _ => keepAliveTx_effect h
  | renew handle key leaseID workerID duration =>
    refine noLease_spares (renew_closed spares_closed ?_)
    exact spares_silent (H := H) fun _ _ _ _ h _ => renewTx_effect h
  | reschedule handle key leaseID workerID req =>
    refine noLease_spares (reschedule_closed spares_closed fun task now => ?_)
    exact spares_silent (H := H) fun _ _ _ hi h _ => rescheduleTx_effect hi.keyed trivial h
  | complete handle key leaseID workerID req => exact noLease_spares (complete_spares id req)
  | putChapter claims req => exact noLease_spares (putChapter_spares claims req id)
  | completeTaskIfWaiting req => exact noLease_spares (completeTaskIfWaiting_spares req id)
  | cancelJob key reason =>
    refine noLease_spares (.bind (spares_closed.query _) fun now => ?_)
    exact spares_silent (H := H) fun _ _ _ _ h _ => cancelTx_effect h
  | deleteJobs req =>
    exact noLease_spares (spares_silent (H := H) fun _ _ _ _ h _ => deleteTx_effect h)
  | clearCrashConcern key =>
    exact noLease_spares (spares_silent (H := H) fun _ _ _ _ h _ => clearCrashConcernTx_effect h)
  | addGoalCandidate req =>
    exact noLease_spares (hgoal fun now => Engine.add_within goalStore_writes now req)
  | failGoal req =>
    exact noLease_spares (hgoal fun now => Engine.fail_within goalStore_writes now req)

/-! ## A completion that has the log to itself -/

/-- The log satisfies `X`. -/
def LogIs (k : JobKey) (X : List StoredChapter → Prop) (v : Sched) : Prop :=
  ∃ l, v.logs k = some l ∧ X l

theorem LogIs.kept {X : List StoredChapter → Prop} (h : LogIs k X v) (hs : LogKept k v v') :
    LogIs k X v' := by
  obtain ⟨l, hl, hX⟩ := h
  exact ⟨l, hs l hl, hX⟩

/-- Among calls that leave the log as it is, success of the call means `Q`. -/
abbrev Among {α : Type} (k : JobKey) (Q : α → State → Prop) (x : Call State Err α) (s : State) :
    Prop :=
  x.Ensures (fun s => Ready s.sched) (fun s s' => LogKept k s.sched s'.sched) (fun _ _ => True) Q s

section Complete

variable {α : Type} {H : Host} {i : Nat} {k : JobKey} {L w : String} {s : State}
  {X : List StoredChapter → Prop}

theorem tx_among {m : Tx State Err α} {Q : α → State → Prop}
    (hm : ∀ s₁ a s₂, Ready s₁.sched → LogKept k s.sched s₁.sched → m s₁ = .ok (a, s₂) →
      Effect H i .any s₁.sched s₂.sched ∧ Q a s₂) : Among k Q (Call.tx m) s := by
  refine Call.Ensures.tx (fun _ => trivial) fun s₁ a s₂ hi hr h => ?_
  obtain ⟨he, hq⟩ := hm s₁ a s₂ hi hr h
  exact ⟨he.ready hi, trivial, hq⟩

/-- A chapter found in the log is the last one, if it may be. -/
theorem ends_of_found {st : Story} {ch : StoredChapter} (hv : Ready v)
    (h : LogIs k (fun l => (l.length : Int) ≤ n + 1) v) (hst : v.story k = some st)
    (hfound : st.chapter? n = some ch) : EndsAt v k n := by
  obtain ⟨l, hl, hle⟩ := h
  have hlog := Sched.logs_of_story hst
  cases hl.symm.trans hlog
  refine ⟨_, hl, le_antisymm hle ?_⟩
  have hdense := hv.numbered k _ hlog
  have hmem : ch ∈ st.chapters := List.mem_of_find?_eq_some hfound
  have hord : ch.ordinal = n := by simpa using List.find?_some hfound
  have hin : ch.ordinal ∈ (List.range st.chapters.length).map Int.ofNat :=
    hdense ▸ List.mem_map_of_mem hmem
  obtain ⟨m, hm, he⟩ := List.mem_map.1 hin
  have hlt := List.mem_range.1 hm
  have hcast : (m : Int) = n := he.trans hord
  omega

theorem saveChapter_among {text : String} {artifacts : List StoredArtifact} (hn : 0 ≤ n) :
    Among k (fun _ s => EndsAt s.sched k n) (saveChapter i k n text artifacts) s := by
  refine Call.Ensures.query_bind (fun _ => trivial) fun s₁ m _ hr hm => ?_
  rw [if_neg (not_lt.2 hn)] at hm
  obtain rfl := Except.ok.inj hm
  refine .check_bind fun _ _ => ?_
  refine tx_among (H := Host.accepting) (i := i) fun s₃ _ s₄ hi hr htx =>
    ⟨appendTx_effect rfl htx, ?_⟩
  obtain ⟨st, -, hnext, hs₄⟩ := appendTx_ok htx
  refine endsAt_append ⟨n, text, artifacts, i⟩ ?_ hnext
  rw [hs₄, Sched.setStory_logs, Function.update_self]

variable {ch : Chapter}

theorem ensureCompletionChapter_among {uploads : List ArtifactUpload}
    (h : LogIs k (fun l => (l.length : Int) ≤ ch.ordinal + 1) s.sched) :
    Among k (fun _ s => EndsAt s.sched k ch.ordinal)
      (ensureCompletionChapter H i k L w ch uploads) s := by
  refine .check_bind fun _ hok => ?_
  have hn : 0 ≤ ch.ordinal := by
    split at hok
    · cases hok
    split at hok
    · cases hok
    · next hneg => exact not_lt.1 hneg
  refine .query_bind (fun _ => trivial) fun s₂ row _ hr _ => ?_
  have hexisting : Among k (fun found s => found.isSome = true → EndsAt s.sched k ch.ordinal)
      (existingCompletionChapter H k ch.ordinal) s₂ := by
    refine Call.Ensures.query (fun _ => trivial) fun s₃ found hi hr' hfound hsome => ?_
    cases hl : (s₃.stories.lookup k).bind (·.chapter? ch.ordinal) with
    | none =>
      rw [hl] at hfound
      obtain rfl := Except.ok.inj hfound
      cases hsome
    | some stored =>
      obtain ⟨st, hst, hch⟩ := Option.bind_eq_some_iff.1 hl
      exact ends_of_found hi (h.kept (hr.trans hr')) hst hch
  refine .bind hexisting fun found s₃ h₃ => ?_
  cases found with
  | some existing =>
    exact .check_bind fun _ _ => .check_bind fun _ _ => .check fun _ _ => h₃ rfl
  | none =>
    refine .query_bind (fun _ => trivial) fun s₄ _ _ hr _ => ?_
    refine .check_bind fun prepared _ => .check_bind fun _ _ => .check_bind fun body _ => ?_
    exact saveChapter_among hn

theorem checkClientPayload_among (u : Option ClientPayloadUpdate) :
    Among k (fun _ s₁ => LogKept k s.sched s₁.sched) (checkClientPayload H k L w u) s := by
  unfold checkClientPayload
  split
  · refine .query_bind (fun _ => trivial) fun s₁ row _ hr _ => ?_
    exact .check_bind fun _ _ => .pure hr
  · exact .pure (.refl _ _)

/-- A completion leaves the job archived, with the chapter last in the log. -/
def Finished (k : JobKey) (n : Int) (v : Sched) : Prop := Archived v k ∧ EndsAt v k n

theorem completePayloadFailure_among {auth : State → JobRow → Except Err Unit} :
    Among k (fun _ s => Finished k ch.ordinal s.sched)
      (completePayloadFailure H i k ch auth) s := by
  refine .check_bind fun _ _ => .check_bind fun body _ => ?_
  refine tx_among (H := H) (i := i) fun s₃ _ s₄ hi hr htx => ⟨payloadFailureTx_effect htx, ?_⟩
  obtain ⟨r, st, message, t, -, -, -, hnext, hs₄⟩ := payloadFailureTx_ok htx
  rw [hs₄]
  refine ⟨⟨_, by rw [Sched.setJob_job, if_pos rfl], rfl⟩,
    endsAt_append ⟨ch.ordinal, body, [], i⟩ ?_ hnext⟩
  rw [Sched.setJob_logs, Sched.setStory_logs, Function.update_self]

theorem completeWith_among {req : CompleteExecutionRequest}
    (h : LogIs k (fun l => (l.length : Int) ≤ ch.ordinal + 1) s.sched) :
    Among k (fun _ s => Finished k ch.ordinal s.sched) (completeWith H i k L w ch req) s := by
  refine .bind (ensureCompletionChapter_among h) fun _ s₁ h₁ => ?_
  refine .query_bind (fun _ => trivial) fun s₂ now _ hr₁ _ => ?_
  refine tx_among (H := H) (i := i) fun s₃ _ s₄ hi hr htx => ⟨completeTx_effect hi.keyed htx, ?_⟩
  obtain ⟨r, value, revision, hrow, held, hs₄⟩ := completeTx_sched hi.keyed htx
  rw [hs₄]
  exact ⟨⟨_, by rw [Sched.setJob_job, if_pos rfl], rfl⟩, LogIs.kept h₁ (hr₁.trans hr)⟩

/-- `Complete`, among calls that leave the log as it is. -/
theorem complete_among {handle : Option Time} {req : CompleteExecutionRequest}
    (h : ∀ ch, req.chapter = some ch →
      LogIs k (fun l => (l.length : Int) ≤ ch.ordinal + 1) s.sched) :
    Among k (fun _ s => ∃ ch, req.chapter = some ch ∧ Finished k ch.ordinal s.sched)
      (complete H i handle k L w req) s := by
  refine .query_bind (fun _ => trivial) fun s₁ _ _ hr _ => ?_
  refine .check_bind fun _ _ => .check_bind fun _ _ => ?_
  refine .bind (checkClientPayload_among _) fun _ s₂ hr' => ?_
  cases hch : req.chapter with
  | none => exact Call.Ensures.check fun _ he => nomatch he
  | some ch =>
    dsimp only
    split
    · refine .check_bind fun _ _ => ?_
      exact completePayloadFailure_among.imp fun _ _ hf => ⟨ch, rfl, hf⟩
    · exact (completeWith_among ((h ch hch).kept (hr.trans hr'))).imp fun _ _ hf => ⟨ch, rfl, hf⟩

end Complete

/-! ## Orderly runs -/

instance (v : Sched) (k : JobKey) : Decidable (Archived v k) :=
  decidable_of_iff ((v.job k).any fun r => r.archivedAtNS.isSome) <| by
    unfold Archived
    cases v.job k <;> simp

/-- `Complete` is called for the last ordinal of the log or the next one. -/
def Request.NamesEnd (c : Request) (v : Sched) : Prop :=
  match c with
  | .complete _ key _ _ req =>
    req.chapter.all fun ch => (v.logs key).any fun l => decide ((l.length : Int) ≤ ch.ordinal + 1)
  | _ => True

instance (c : Request) (v : Sched) : Decidable (c.NamesEnd v) := by
  unfold Request.NamesEnd
  split <;> infer_instance

/-- The call completes the job. -/
def Request.Completes (c : Request) (k : JobKey) : Prop :=
  match c with
  | .complete _ key _ _ _ => key = k
  | _ => False

/-- Neither call completes a job whose log the other may write to. -/
def Request.Apart (c d : Request) : Prop :=
  ∀ k, (c.Completes k → ¬ d.Writes k) ∧ (d.Completes k → ¬ c.Writes k)

/-- See the introduction: what is asked of a call when it is made. -/
def Orderly (l : System.Label Request) (p _ : Calls) : Prop :=
  match l with
  | .call c => c.NamesEnd p.shared.sched ∧ ∀ t ∈ p.threads, t.2.running = true → c.Apart t.1
  | _ => True

/-- A step of an orderly run. -/
def OrderlyStep (H : Host) (l : System.Label Request) (p p' : Calls) : Prop :=
  (system H).Step l p p' ∧ Orderly l p p'

section Runs

variable {H : Host} {p p' : Calls} {q : Call State Err (List Lease)} {c : Request}

/-- What an answer to `Complete` says. -/
def CompleteAnswer (k : JobKey) (req : CompleteExecutionRequest) (r : Except Err (List Lease))
    (s : State) : Prop :=
  ∀ leases, r = .ok leases → ∃ ch, req.chapter = some ch ∧ Finished k ch.ordinal s.sched

/-- The process of a completion, among calls that leave the log as it is. -/
abbrev Completion (k : JobKey) (req : CompleteExecutionRequest)
    (q : Call State Err (List Lease)) (s : State) : Prop :=
  q.Sat (fun s => Ready s.sched) (fun s s' => LogKept k s.sched s'.sched) (fun _ _ => True)
    (CompleteAnswer k req) s

/-- A process that leaves the log as it is, wherever it goes on, provided that the job has ended
where the call may write to it. -/
abbrev Sparing (k : JobKey) (c : Request) (q : Call State Err (List Lease)) : Prop :=
  ∀ s, q.Sat (fun s => Ready s.sched ∧ (c.Writes k → Ended k s.sched)) (fun _ _ => True)
    (fun s s' => LogKept k s.sched s'.sched) (fun _ _ => True) s

/-- A `Complete` of the job has succeeded, by another call than `i`. -/
def CompletedBefore (p : Calls) (i : Nat) (k : JobKey) : Prop :=
  ∃ j ≠ i, ∃ handle L w req leases, p.Answered j (.complete handle k L w req) (.ok leases)

/-- Every call is as far as its steps have brought it. -/
abbrev Underway (H : Host) (p : Calls) : Prop :=
  System.Ok (fun s => Ready s.sched) (fun s s' => Grows s.sched s'.sched)
    (fun i _ s s' => Effect H i .any s.sched s'.sched)
    (fun i c r s => ∀ leases, r = .ok leases → Answer H i c s.sched) p

/-- The calls of an orderly run: each completion is on its way to a log that ends with its
chapter, and the others stay out of its way. -/
structure Ordered (H : Host) (p : Calls) : Prop where
  ready : Underway H p
  apart : ∀ (i j : Nat) c d (q q' : Call State Err (List Lease)), i ≠ j →
    p.threads[i]? = some (c, q) → p.threads[j]? = some (d, q') → q.running = true →
      q'.running = true → c.Apart d
  completions : ∀ (j : Nat) handle k L w req (q : Call State Err (List Lease)),
    p.threads[j]? = some (Request.complete handle k L w req, q) → Completion k req q p.shared
  sparing : ∀ (i : Nat) c (q : Call State Err (List Lease)) k,
    p.threads[i]? = some (c, q) → ¬ c.Writes k ∨ CompletedBefore p i k → Sparing k c q

/-- A job that was completed has ended. -/
theorem Ordered.ended (hp : Ordered H p) (h : CompletedBefore p i k) : Ended k p.shared.sched := by
  obtain ⟨j, -, handle, L, w, req, leases, hanswer⟩ := h
  cases hp.completions j handle k L w req _ hanswer with
  | ret post =>
    obtain ⟨ch, -, ha, l, hl, -⟩ := post leases rfl
    exact ⟨ha, l, hl⟩

theorem sparing_ret (k : JobKey) (c : Request) (r : Except Err (List Lease)) :
    Sparing k c (.ret r) :=
  fun _ => .ret trivial

theorem Sparing.step {upd : State → State} {next : State → Call State Err (List Lease)}
    {s : State} (h : Sparing k c (.step upd next)) (hr : Ready s.sched)
    (he : c.Writes k → Ended k s.sched) :
    LogKept k s.sched (upd s).sched ∧ Sparing k c (next s) := by
  cases h s with
  | step own rest => exact ⟨(own s ⟨hr, he⟩ trivial).2, (rest s ⟨hr, he⟩ trivial).anywhere⟩

theorem Request.Apart.symm {d : Request} (h : c.Apart d) : d.Apart c := fun k => (h k).symm

theorem body_complete_among {handle : Option Time} {req : CompleteExecutionRequest} {s : State}
    (h : (Request.complete handle k L w req).NamesEnd s.sched) :
    Completion k req (body H i (.complete handle k L w req)) s := by
  have hlog : ∀ ch, req.chapter = some ch →
      LogIs k (fun l => (l.length : Int) ≤ ch.ordinal + 1) s.sched := by
    intro ch hch
    simp only [Request.NamesEnd, hch, Option.all_some] at h
    obtain ⟨l, hl, hlen⟩ := (Option.any_eq_true _ _).1 h
    exact ⟨l, hl, of_decide_eq_true hlen⟩
  have hcall : Among k (fun _ s => ∃ ch, req.chapter = some ch ∧ Finished k ch.ordinal s.sched)
      (body H i (.complete handle k L w req)) s :=
    .bind (complete_among hlog) fun _ _ hf => .pure hf
  exact hcall

/-- The others move while a completion is on its way or has succeeded. -/
theorem Completion.rely {s s' : State} {req : CompleteExecutionRequest} (hq : Completion k req q s)
    (harchived : Archived s.sched k → Archived s'.sched k)
    (hkept : q.running = true ∨ (∃ leases, q = .ret (.ok leases)) → LogKept k s.sched s'.sched) :
    Completion k req q s' := by
  cases hq with
  | ret post =>
    refine .ret fun leases hr => ?_
    obtain ⟨ch, hch, ha, hend⟩ := post leases hr
    exact ⟨ch, hch, harchived ha, LogIs.kept hend (hkept (.inr ⟨leases, by rw [hr]⟩))⟩
  | step own rest =>
    have hlog := hkept (.inl rfl)
    exact .step (fun t hi hr => own t hi (hlog.trans hr)) fun t hi hr => rest t hi (hlog.trans hr)

/-- A call is made. -/
theorem Ordered.call (hp : Ordered H p) (horderly : Orderly (.call c) p p')
    (hp' : p' = ⟨p.shared, p.threads ++ [(c, (system H).body p.threads.length c)]⟩)
    (hready : Underway H p') : Ordered H p' := by
  subst hp'
  obtain ⟨hnames, hothers⟩ := horderly
  have hrunning {j : Nat} {d q} (hj : p.threads[j]? = some (d, q)) (hr : q.running = true) :
      c.Apart d :=
    hothers _ (List.mem_of_getElem? hj) hr
  refine ⟨hready, fun i j c₁ c₂ q₁ q₂ hij hi hj hr₁ hr₂ => ?_, fun j handle k L w req q hj => ?_,
    fun i d q k hi hor => ?_⟩
  · rcases of_getElem?_concat hi with hi | ⟨hlast, heq⟩
    · rcases of_getElem?_concat hj with hj | ⟨-, heq⟩
      · exact hp.apart i j c₁ c₂ q₁ q₂ hij hi hj hr₁ hr₂
      · cases heq
        exact (hrunning hi hr₁).symm
    · rcases of_getElem?_concat hj with hj | ⟨hlast', -⟩
      · cases heq
        exact hrunning hj hr₂
      · exact absurd (hlast.trans hlast'.symm) hij
  · rcases of_getElem?_concat hj with hold | ⟨-, heq⟩
    · exact hp.completions j handle k L w req q hold
    · obtain ⟨rfl, rfl⟩ := Prod.mk.inj heq
      exact body_complete_among hnames
  · rcases of_getElem?_concat hi with hold | ⟨-, heq⟩
    · cases q with
      | ret r => exact sparing_ret k d r
      | step upd next =>
        refine hp.sparing i d _ k hold ?_
        rcases hor with hw | ⟨j, hji, handle, L, w, req, leases, hanswer⟩
        · exact .inl hw
        · rcases of_getElem?_concat hanswer with hanswer | ⟨-, heq⟩
          · exact .inr ⟨j, hji, handle, L, w, req, leases, hanswer⟩
          · cases (Prod.mk.inj heq).1
            exact .inl ((hrunning hold rfl k).1 rfl)
    · cases heq
      exact fun s => Proc.Sat.imp (body_spares c s) fun _ _ _ => trivial

/-- A call makes a step. -/
theorem Ordered.move {upd : State → State} {next : State → Call State Err (List Lease)}
    (hp : Ordered H p) (thread : p.threads[i]? = some (c, .step upd next))
    (hp' : p' = ⟨upd p.shared, p.threads.set i (c, next p.shared)⟩)
    (heffect : Effect H i .any p.shared.sched p'.shared.sched)
    (hready : Underway H p') : Ordered H p' := by
  subst hp'
  have hstep {k} (hor : ¬ c.Writes k ∨ CompletedBefore p i k) :
      LogKept k p.shared.sched (upd p.shared).sched ∧ Sparing k c (next p.shared) :=
    (hp.sparing i c _ k thread hor).step hp.ready.inv
      fun hw => hp.ended (hor.resolve_left (not_not.2 hw))
  have hbefore {j : Nat} {d q} (hj : (p.threads.set i (c, next p.shared))[j]? = some (d, q))
      (hr : q.running = true) : ∃ q₀, p.threads[j]? = some (d, q₀) ∧ q₀.running = true := by
    rcases of_getElem?_set hj with ⟨rfl, heq⟩ | ⟨-, hold⟩
    · cases heq
      exact ⟨_, thread, rfl⟩
    · exact ⟨q, hold, hr⟩
  refine ⟨hready, fun j m c₁ c₂ q₁ q₂ hjm hj hm hr₁ hr₂ => ?_, fun j handle k L w req q hj => ?_,
    fun m d q k hm hor => ?_⟩
  · obtain ⟨q₁', hj', hr₁'⟩ := hbefore hj hr₁
    obtain ⟨q₂', hm', hr₂'⟩ := hbefore hm hr₂
    exact hp.apart j m c₁ c₂ q₁' q₂' hjm hj' hm' hr₁' hr₂'
  · rcases of_getElem?_set hj with ⟨rfl, heq⟩ | ⟨hij, hold⟩
    · obtain ⟨rfl, rfl⟩ := Prod.mk.inj heq
      cases hp.completions i handle k L w req _ thread with
      | step own rest => exact rest p.shared hp.ready.inv (.refl _ _)
    · refine (hp.completions j handle k L w req q hold).rely heffect.archived fun hq => (hstep ?_).1
      rcases hq with hr | ⟨leases, rfl⟩
      · exact .inl ((hp.apart j i _ c q _ (Ne.symm hij) hold thread hr rfl k).1 rfl)
      · exact .inr ⟨j, Ne.symm hij, handle, L, w, req, leases, hold⟩
  · rcases of_getElem?_set hm with ⟨rfl, heq⟩ | ⟨him, hold⟩
    · cases heq
      refine (hstep (hor.imp_right ?_)).2
      rintro ⟨j, hji, handle, L, w, req, leases, hanswer⟩
      rcases of_getElem?_set hanswer with ⟨rfl, -⟩ | ⟨-, hanswer⟩
      · exact absurd rfl hji
      · exact ⟨j, hji, handle, L, w, req, leases, hanswer⟩
    · cases q with
      | ret r => exact sparing_ret k d r
      | step upd' next' =>
        refine hp.sparing m d _ k hold ?_
        rcases hor with hw | ⟨j, hjm, handle, L, w, req, leases, hanswer⟩
        · exact .inl hw
        · rcases of_getElem?_set hanswer with ⟨rfl, heq⟩ | ⟨-, hanswer⟩
          · -- the call has just ended, so it was under way until now
            cases (Prod.mk.inj heq).1
            exact .inl ((hp.apart i m _ d _ _ him thread hold rfl rfl k).1 rfl)
          · exact .inr ⟨j, hjm, handle, L, w, req, leases, hanswer⟩

theorem log_sound (H : Host) : (system H).Sound (fun s => Ready s.sched)
    (fun s s' => Grows s.sched s'.sched)
    (fun i _ s s' => Effect H i .any s.sched s'.sched)
    (fun i c r s => ∀ leases, r = .ok leases → Answer H i c s.sched) :=
  calls_sound rfl rfl (fun _ _ _ _ => trivial) fun s c _ =>
    c.meets_of_forall (fun _ _ _ _ => trivial) s.sched

/-- **A step of an orderly run.** -/
theorem Ordered.step {l : System.Label Request} (hp : Ordered H p) (h : OrderlyStep H l p p') :
    Ordered H p' := by
  obtain ⟨hstep, horderly⟩ := h
  obtain ⟨hready, -, heffect⟩ := (log_sound H).step hstep hp.ready
  cases hstep with
  | call allowed => exact hp.call horderly rfl hready
  | run thread => exact hp.move thread rfl (heffect _ _ rfl) hready
  | env moves =>
    obtain ⟨t, hle, rfl⟩ := moves
    refine ⟨hready, hp.apart, fun j handle k L w req q hj => ?_, hp.sparing⟩
    exact (hp.completions j handle k L w req q hj).rely (fun ha => ha) fun _ l hl => hl

theorem Ordered.run {ls : List (System.Label Request)} (h : Along (OrderlyStep H) ls p p')
    (hp : Ordered H p) : Ordered H p' :=
  h.preserves (fun _ _ _ _ hstep hp => hp.step hstep) hp

end Runs

/-! ## The theorem -/

/-- **Completion ends the log of an orderly run.** Calls of all kinds run interleaved, each made
in order, while the clock moves on. When a `Complete` call has succeeded, the job is archived
and the last chapter of its log is the one the call was made with: the call's own, or one that
it found to be the same. In every continuation of the run the log stays as it is. -/
theorem completion_ends_log (H : Host) (s₀ : State) (hs₀ : Ready s₀.sched)
    {ls : List (System.Label Request)} {p : Calls} (h : Along (OrderlyStep H) ls ⟨s₀, []⟩ p)
    {i : Nat} {handle : Option Time} {k : JobKey} {L w : String} {req : CompleteExecutionRequest}
    {leases : List Lease} (hanswer : p.Answered i (.complete handle k L w req) (.ok leases)) :
    (∃ ch, req.chapter = some ch ∧ Archived p.shared.sched k ∧ EndsAt p.shared.sched k ch.ordinal ∧
      (Own H i p.shared.sched k ch.ordinal ch ∨
        Completed H i p.shared.sched k ch req.artifactUploads)) ∧
    ∀ ls' p', Along (OrderlyStep H) ls' p p' → p'.shared.sched.logs k = p.shared.sched.logs k := by
  have hstart : Ordered H ⟨s₀, []⟩ :=
    ⟨.start hs₀, fun _ _ _ _ _ _ _ hi => (nomatch hi), fun _ _ _ _ _ _ _ hj => (nomatch hj),
      fun _ _ _ _ hi => nomatch hi⟩
  have hends : ∀ {p : Calls}, Ordered H p →
      p.Answered i (.complete handle k L w req) (.ok leases) →
        ∃ ch, req.chapter = some ch ∧ Finished k ch.ordinal p.shared.sched := by
    intro p hp hp'
    cases hp.completions i handle k L w req _ hp' with
    | ret post => exact post leases rfl
  have hsteps : ∀ {ls p p'}, Along (OrderlyStep H) ls p p' → Along (system H).Step ls p p' := by
    intro ls p p' hrun
    induction hrun with
    | nil => exact .nil
    | cons head _ ih => exact .cons head.1 ih
  have hp := Ordered.run h hstart
  obtain ⟨ch, hch, harchived, hend⟩ := hends hp hanswer
  constructor
  · obtain ⟨ch', hch', hwritten⟩ := hp.ready.answer hanswer leases rfl
    cases hch.symm.trans hch'
    exact ⟨ch, hch, harchived, hend, hwritten⟩
  · intro ls' p' hrun
    obtain ⟨ch', hch', -, l', hl', hlen'⟩ :=
      hends (Ordered.run hrun hp) (System.answered_along (hsteps hrun) hanswer)
    cases hch.symm.trans hch'
    obtain ⟨l, hl, hlen⟩ := hend
    obtain ⟨-, hgrows⟩ := (log_sound H).run (hsteps hrun) hp.ready
    obtain ⟨l'', hl'', hprefix⟩ := hgrows.logs k l hl
    cases hl'.symm.trans hl''
    rw [hl, hl', hprefix.eq_of_length (by omega)]

/-- The job `j` with its first chapter. -/
def loggedJob : SubmitRequest where
  job := sampleJob
  initial := some ("start", [])

/-- The completion of the job with the lease `x`. -/
def finishing : Request :=
  .complete none ⟨"t", "j"⟩ "x" "w"
    { chapter := some { ordinal := 1, body := .jobAttemptOutcome (.applicationOutput "done") } }

/-- Another chapter, with the same lease. -/
def straggling : Request :=
  .putChapter none
    { leaseID := "x", jobKey := ⟨"t", "j"⟩, ordinal := 2
      chapter := { ordinal := 2, body := .taskAttemptOutcome (.applicationOutput "late") } }

/-- The job is submitted, leased and completed, and no other call comes in between. -/
def finished : Calls :=
  [.call (.submit loggedJob), .run 0, .run 0, .run 0, .run 0, .run 0,
    .call (.getJobLease (leaseRequest "w") .start), .run 1,
    .call finishing, .run 2, .run 2, .run 2, .run 2, .run 2, .run 2, .run 2, .run 2].foldl
      (system .accepting).drive ⟨{ now := 1 }, []⟩

/-- A call is made when no other is under way. -/
def Alone (m : System.Move State Request) (p _ : Calls) : Prop :=
  match m with
  | .call c => c.NamesEnd p.shared.sched ∧ ∀ t ∈ p.threads, t.2.running = false
  | _ => True

theorem completion_ends_log_alone :
    finished.Answered 2 finishing (.ok []) ∧ EndsAt finished.shared.sched ⟨"t", "j"⟩ 1 := by
  obtain ⟨ls, h⟩ : ∃ ls, Along (OrderlyStep .accepting) ls ⟨{ now := 1 }, []⟩ finished := by
    refine System.drive_along_with (R := Alone) (T := Orderly) (fun m l p p' hl hm => ?_) ?_
    · cases m with
      | call c =>
        cases hl
        exact ⟨hm.1, fun t ht hr => absurd (hm.2 t ht) (by simp [hr])⟩
      | run i =>
        obtain ⟨c, rfl⟩ := hl
        trivial
      | env f =>
        cases hl
        trivial
    · trivial
  have hanswer : finished.Answered 2 finishing (.ok []) := rfl
  obtain ⟨⟨ch, hch, -, hend, -⟩, -⟩ :=
    completion_ends_log .accepting { now := 1 } (empty_leases .accepting 1).1 h hanswer
  cases hch
  exact ⟨hanswer, hend⟩

/-- The last chapter comes after the completion chapter and before the job is archived. -/
def overtaken : Calls :=
  [.call (.submit loggedJob), .run 0, .run 0, .run 0, .run 0, .run 0,
    .call (.getJobLease (leaseRequest "w") .start), .run 1,
    .call finishing, .run 2, .run 2, .run 2, .run 2, .run 2, .run 2,
    .call straggling, .run 3, .run 3, .run 3, .run 3, .run 3, .run 2, .run 2].foldl
      (system .accepting).drive ⟨{ now := 1 }, []⟩

/-- `Complete` succeeds for chapter 1, and the log ends with chapter 2. -/
theorem completion_overtaken :
    (∃ ls, Along (system .accepting).Step ls ⟨{ now := 1 }, []⟩ overtaken) ∧
      overtaken.Answered 2 finishing (.ok []) ∧ Archived overtaken.shared.sched ⟨"t", "j"⟩ ∧
      ¬ EndsAt overtaken.shared.sched ⟨"t", "j"⟩ 1 := by
  refine ⟨System.drive_along (by trivial), rfl, by decide, ?_⟩
  rintro ⟨l, hl, hlen⟩
  have hthree : (overtaken.shared.sched.logs ⟨"t", "j"⟩).map List.length = some 3 := rfl
  rw [hl] at hthree
  have hl3 : l.length = 3 := Option.some.inj hthree
  omega

/-! ## Jobs stay -/

/-- The columns that only a submission fills. -/
def JobRow.submitted (r : JobRow) :=
  (r.key, r.jobType, r.cell, r.goalID, r.parentJobID, r.metadata, r.initialPayloadDigest,
    r.createdAtNS)

/-- A later row of a job: a cancellation and a deletion are not taken back. -/
structure JobRow.Endures (r r' : JobRow) : Prop where
  submitted : r'.submitted = r.submitted
  cancelled : r.cancelRequested → r'.cancelRequested
  deleted : r.hiddenAtNS.isSome → r'.hiddenAtNS.isSome

/-- The job is stored, with `r` or a later row. -/
def Sched.Holds (v : Sched) (k : JobKey) (r : JobRow) : Prop :=
  ∃ r', v.job k = some r' ∧ r.Endures r'

theorem RowChange.endures {now : Time} {P} {r' : JobRow} (h : RowChange now P r r') :
    r.Endures r' := by
  cases h with
  | completed => exact ⟨rfl, fun hc => by simp [JobRow.completed, hc], id⟩
  | cancelled => exact ⟨rfl, fun _ => rfl, id⟩
  | deleted => exact ⟨rfl, fun hc => by simp [JobRow.deleted, hc], fun _ => rfl⟩
  | _ => exact ⟨rfl, id, id⟩

theorem Effect.holds {H : Host} {P} (h : Effect H i P v v') : v.Holds k r → v'.Holds k r := by
  have hset {v : Sched} {k₀ : JobKey} {r₀ r₁ : JobRow} (h₀ : v.job k₀ = some r₀)
      (he : r₀.Endures r₁) : v.Holds k r → (v.setJob k₀ r₁).Holds k r := by
    rintro ⟨r', hr', hend⟩
    by_cases hk : k = k₀
    · cases (hk ▸ hr').symm.trans h₀
      exact ⟨r₁, by simp [hk], he.1.trans hend.1, he.2 ∘ hend.2, he.3 ∘ hend.3⟩
    · exact ⟨r', by simp [hk, hr'], hend⟩
  induction h with
  | row stored change => exact hset stored change.endures
  | granted stored =>
    refine hset stored ?_
    unfold JobRow.routed
    split <;> exact ⟨rfl, id, id⟩
  | claimed stored | payloadFailed stored => exact hset stored ⟨rfl, id, id⟩
  | inserted absent =>
    rintro ⟨r', hr', hend⟩
    refine ⟨r', ?_, hend⟩
    rw [Sched.setJob_job, if_neg, hr']
    exact fun hk => by simp [← hk, hr'] at absent
  | chain _ _ ih₁ ih₂ => exact ih₂ ∘ ih₁
  | _ => exact id

/-- **Jobs stay, and ended ones stay ended.** A stored job is stored for good, as it was submitted.
Once it has ended it has for good, and no call with a lease on it, whichever lease, changes a job, a
goal or a wait. -/
theorem ended_job_stays (H : Host) (t₀ : Time) {ls₁ ls₂ : List (System.Label Request)}
    {p₁ p₂ : Calls}
    (h₁ : Along (system H).Step ls₁ ⟨{ now := t₀ }, []⟩ p₁) (h₂ : Along (system H).Step ls₂ p₁ p₂)
    (hr : p₁.shared.sched.job k = some r) : p₂.shared.sched.Holds k r ∧
    (r.archivedAtNS.isSome → Archived p₂.shared.sched k ∧ ∀ i c p₃ L w, c.lease = some (k, L, w) →
      (system H).Step (.run i c) p₂ p₃ → SameTables p₂.shared p₃.shared) := by
  have hsound := leases_sound H
  obtain ⟨hok₁, _⟩ := hsound.run h₁ (.start (empty_leases H t₀))
  obtain ⟨hok₂, hj, hkeeps⟩ := h₂.preserves (P := fun p => System.Ok _ _ _ _ p ∧
      p.shared.sched.Holds k r ∧ (r.archivedAtNS.isSome → Archived p.shared.sched k))
    (fun l _ p p' hstep ⟨hok, hj⟩ => by
      obtain ⟨hok', _, hG⟩ := hsound.step hstep hok
      refine ⟨hok', ?_⟩
      cases hstep with
      | call => exact hj
      | run => exact ⟨(hG _ _ rfl).1.holds hj.1, (hG _ _ rfl).1.archived ∘ hj.2⟩
      | env htick =>
        obtain ⟨t, _, rfl⟩ := htick
        exact hj)
    ⟨hok₁, ⟨r, hr, rfl, id, id⟩, fun hs => ⟨r, hr, hs⟩⟩
  refine ⟨hj, fun hs => ⟨hkeeps hs, fun i c p₃ L w hc hstep => ?_⟩⟩
  obtain ⟨_, _, hG⟩ := hsound.step hstep hok₂
  refine ((hG i c rfl).2 k L w hc).resolve_left fun hp => ?_
  obtain ⟨r', hr', hs'⟩ := hkeeps hs
  obtain ⟨_, hr'', held⟩ := passes_iff.mp hp
  cases hr'.symm.trans hr''
  simp [held.live.1] at hs'

theorem ended_job_stays_finished : ∃ r, finished.shared.sched.job ⟨"t", "j"⟩ = some r ∧
    ∃ p, (system .accepting).Step (.call finishing) finished p ∧ p.shared.sched.Holds ⟨"t", "j"⟩ r ∧
      Archived p.shared.sched ⟨"t", "j"⟩ := by
  obtain ⟨_, h₁⟩ : ∃ ls, Along (system .accepting).Step ls ⟨{ now := 1 }, []⟩ finished :=
    System.drive_along (by trivial)
  obtain ⟨r, hr, hs⟩ : Archived finished.shared.sched ⟨"t", "j"⟩ := by decide
  have hcall : (system .accepting).Step (.call finishing) finished _ := .call trivial
  have h := ended_job_stays .accepting 1 h₁ (.cons hcall .nil) hr
  exact ⟨r, hr, _, hcall, h.1, (h.2 hs).1⟩

end JobDB.Sqlite
