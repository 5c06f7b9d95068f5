import JobDB.Lib.Commit
import JobDB.Sqlite.Calls

/-!
# Client payloads in the SQLite runtime

A job carries a payload of its client with a revision number. `Reschedule` and `Complete` may
bring an update, which names the revision it was made for; `CompleteTaskIfWaiting` has no
place for one in its request and ends in a reschedule without.

An update is applied in the last transaction of its call (`updateClientPayloadTx`), after
which the call succeeds with no further step. So the calls commit in the sense of
`JobDB.Lib.Commit`, every other step of every call leaves the payloads alone
(`body_bringsLast`), and the payload of a job is what the successful updates have made of the
first one, in the order of their commits.
-/

namespace JobDB.Sqlite

open scoped List

/-- The client payload of a row, with its revision. -/
def JobRow.clientState (r : JobRow) : Option String × Int :=
  (r.clientPayload, r.clientPayloadRevision)

/-- The client payloads of all jobs. -/
def State.clientStates (s : State) (k : JobKey) : Option (Option String × Int) :=
  (s.sched.job k).map JobRow.clientState

/-- The client payload that a job is submitted with. -/
def Submission.clientState (p : Submission) : Option String × Int :=
  (p.clientPayload, p.clientPayloadRevision)

variable {s s' : State} {f : JobRow → JobRow}

theorem clientStates_of_sched (h : s'.sched = s.sched) : s'.clientStates = s.clientStates := by
  unfold State.clientStates
  rw [h]

theorem clientStates_updateJob {k : JobKey} (hf : ∀ r, (f r).clientState = r.clientState) :
    (s.updateJob k f).clientStates = s.clientStates := by
  cases hr : s.sched.job k with
  | none => exact clientStates_of_sched (State.sched_updateJob_none hr f)
  | some r =>
    unfold State.clientStates
    rw [State.sched_updateJob hr f]
    funext k'
    rw [Sched.setJob_job]
    split
    · next he => rw [he, hr, Option.map_some, Option.map_some, hf r]
    · rfl

/-! ## Transactions that leave payloads alone -/

/-- No client payload changes. -/
def SamePayloads (s s' : State) : Prop := s'.clientStates = s.clientStates

instance : IsPreorder State SamePayloads where
  refl _ := rfl
  trans _ _ _ h h' := Eq.trans h' h

/-- The transaction changes no client payload. -/
abbrev Leaves {α : Type} (m : Tx State Err α) : Prop := Tx.Within SamePayloads m

section Leaves

variable {α β : Type} {H : Host} {key : JobKey} {L w : String}

theorem Leaves.of_sched {m : Tx State Err α} (h : Tx.Within SameSched m) : Leaves m :=
  fun _ _ _ hm => clientStates_of_sched (h hm)

theorem update_leaves (hf : ∀ r, (f r).clientState = r.clientState) : Leaves (update key f) := by
  refine .write fun s s' h => ?_
  cases h
  exact clientStates_updateJob hf

theorem clock_leaves : Leaves clock := .read _

theorem requireLease_leaves : Leaves (requireLease key L w) := .read _

theorem completeGoals_leaves : Leaves (completeGoals key) :=
  .of_sched completeGoals_within

theorem keepAliveTx_leaves (expires : Time) : Leaves (keepAliveTx key L w expires) := by
  refine .bind requireLease_leaves fun _ => .bind clock_leaves fun now => update_leaves fun r => ?_
  split <;> rfl

theorem renewTx_leaves (duration : Int) : Leaves (renewTx key L w duration) :=
  .bind requireLease_leaves fun _ => .bind clock_leaves fun _ => update_leaves fun _ => rfl

theorem install_leaves {lease : Lease} {claim : Option TaskWait}
    (hf : ∀ r, (f r).clientState = r.clientState) : Leaves (install H lease claim f) := by
  intro s l s' h
  cases h
  have hset := clientStates_updateJob (s := s) (k := lease.jobKey)
    (f := fun r => (f r).leased { lease with leaseID := H.ksuid s.drawn }) hf
  exact hset

theorem grant_leaves (row : JobRow) (duration : Int) : Leaves (grant H row w duration) := by
  refine .bind clock_leaves fun now => install_leaves fun r => ?_
  dsimp only
  split <;> rfl

theorem grantPicked_leaves (row : Option JobRow) (duration : Int) :
    Leaves (grantPicked H row w duration) := by
  cases row with
  | none => exact .pure _
  | some row => exact .bind (grant_leaves row duration) fun _ => .pure _

theorem claimTx_leaves (expected : JobRow) (resumeJobType : String) (policy : RunPolicy) :
    Leaves (claimTx H expected resumeJobType policy) :=
  .bind (.read _) fun _ => .bind (.read _) fun _ => .bind clock_leaves fun _ =>
    install_leaves fun _ => rfl

theorem cancelTx_leaves (reason : String) (now : Time) : Leaves (cancelTx key reason now) := by
  refine .bind (.read _) fun row => ?_
  split
  · exact .pure _
  · exact .bind (update_leaves fun _ => rfl) fun _ => completeGoals_leaves

theorem deleteTx_leaves (req : DeleteJobsRequest) : Leaves (deleteTx req) := by
  refine .bind (.read _) fun keys => ?_
  split
  · exact .pure _
  · refine .bind clock_leaves fun now => .bind (.forM fun k _ => update_leaves fun r => ?_) fun _ =>
      .forM fun k _ => completeGoals_leaves
    split <;> rfl

theorem clearCrashConcernTx_leaves : Leaves (clearCrashConcernTx key) := by
  refine .bind (.read _) fun row => .bind clock_leaves fun now => .bind (.require _ _) fun _ => ?_
  split
  · exact .pure _
  · exact update_leaves fun _ => rfl

theorem pushChapter_leaves (ch : StoredChapter) : Leaves (pushChapter key ch) := by
  refine .write fun s s' h => ?_
  split at h
  · cases h
    rfl
  · cases h
    rfl

theorem appendTx_leaves (ch : StoredChapter) : Leaves (appendTx key ch) :=
  .bind (.read _) fun _ => .bind (.require _ _) fun _ => .bind (.require _ _) fun _ =>
    pushChapter_leaves ch

theorem payloadFailureTx_leaves (writer : Nat) (ch : Chapter) (text : String)
    (auth : State → JobRow → Except Err Unit) : Leaves (payloadFailureTx writer key ch text auth) :=
  .bind (.read _) fun _ => .bind (.read _) fun _ => .bind (.read _) fun _ => .bind (.require _ _)
    fun _ => .bind (pushChapter_leaves _) fun _ => .bind clock_leaves fun _ =>
      .bind (update_leaves fun _ => rfl) fun _ => completeGoals_leaves

theorem createStoryTx_leaves (base : Option (JobKey × Int)) : Leaves (createStoryTx key base) := by
  refine .bind (.read _) fun _ => .bind (.read _) fun chapters => .write fun s s' h => ?_
  cases h
  rfl

theorem closeOldWait_leaves (row : JobRow) (req : RescheduleExecutionRequest) :
    Leaves (closeOldWait key row req) := .of_sched closeOldWait_within

theorem registerWait_leaves (req : RescheduleExecutionRequest) : Leaves (registerWait key req) :=
  .of_sched registerWait_within

end Leaves

/-! ## Updates -/

/-- The update of the job's payload is applied, if there is one. -/
def Applies (H : Host) (k : JobKey) (u : Option ClientPayloadUpdate) (s s' : State) : Prop :=
  ∃ x y, s.clientStates k = some x ∧ H.applyUpdate x.1 x.2 u = .ok y ∧
    s'.clientStates = Function.update s.clientStates k (some y)

namespace Applies

variable {H : Host} {k : JobKey} {u : Option ClientPayloadUpdate} {s s₁ s₂ s' : State}

theorem between (h : Applies H k u s₁ s₂) (hbefore : s₁.clientStates = s.clientStates)
    (hafter : s'.clientStates = s₂.clientStates) : Applies H k u s s' := by
  obtain ⟨x, y, hx, hy, hs⟩ := h
  rw [hbefore] at hx hs
  exact ⟨x, y, hx, hy, hafter.trans hs⟩

theorem same (h : Applies H k none s s') : s'.clientStates = s.clientStates := by
  obtain ⟨x, y, hx, hy, hs⟩ := h
  obtain ⟨_, -, rfl⟩ := map_eq_ok.1 hy
  rw [hs, ← hx, Function.update_eq_self]

end Applies

section Updates

variable {H : Host} {s s' : State} {key : JobKey} {L w : String} {x : Unit}

theorem updateClientPayload_applies {row : JobRow} {u : Option ClientPayloadUpdate}
    (h : updateClientPayload H row u s = .ok (x, s'))
    (hrow : s.clientStates row.key = some row.clientState) : Applies H row.key u s s' := by
  obtain ⟨⟨value, revision⟩, happly, h⟩ := Tx.read_bind_eq_ok.1 h
  refine ⟨row.clientState, (value, revision), hrow, happly, ?_⟩
  cases u with
  | none =>
    obtain ⟨-, rfl⟩ := Tx.pure_eq_ok.1 h
    obtain ⟨_, -, hy⟩ := bind_eq_ok.1 happly
    have hsame : (value, revision) = row.clientState := (Except.ok.inj hy).symm
    rw [hsame, ← hrow, Function.update_eq_self]
  | some u =>
    obtain ⟨r, hr, -⟩ := Option.map_eq_some_iff.1 hrow
    unfold State.clientStates
    rw [update_ok h hr]
    funext k
    rw [Sched.setJob_job, Function.update_apply]
    split
    · rfl
    · rfl

theorem requireLease_clientStates {row : JobRow} (hk : Keyed s.sched)
    (h : requireLease key L w s = .ok (row, s')) :
    s' = s ∧ row.key = key ∧ s.clientStates key = some row.clientState := by
  obtain ⟨rfl, hr, -⟩ := requireLease_ok h
  refine ⟨rfl, hk _ _ hr, ?_⟩
  unfold State.clientStates
  rw [hr]
  rfl

theorem completeTx_applies {req : CompleteExecutionRequest} {t : Time} (hk : Keyed s.sched)
    (h : completeTx H key L w req t s = .ok (x, s')) :
    Applies H key req.clientPayloadUpdate s s' := by
  obtain ⟨row, s₁, h₁, h₁'⟩ := Tx.bind_eq_ok.1 h
  obtain ⟨_, s₂, h₂, h₃⟩ := Tx.bind_eq_ok.1 h₁'
  obtain ⟨rfl, rfl, hrow⟩ := requireLease_clientStates hk h₁
  have hrest : Leaves (do
      update row.key fun r => r.completed (completionStatusFromRequest req.status) req.detail t
      completeGoals row.key) :=
    .bind (update_leaves fun _ => rfl) fun _ => completeGoals_leaves
  exact (updateClientPayload_applies h₂ hrow).between rfl (hrest h₃)

theorem rescheduleTx_applies {req : RescheduleExecutionRequest} {task : Option TaskWait} {t : Time}
    (hk : Keyed s.sched) (h : rescheduleTx H key L w req task t s = .ok (x, s')) :
    Applies H key req.clientPayloadUpdate s s' := by
  obtain ⟨row, s₁, h₁, hrest⟩ := Tx.bind_eq_ok.1 h
  obtain ⟨_, s₂, h₂, hrest⟩ := Tx.bind_eq_ok.1 hrest
  obtain ⟨waitID, s₃, h₃, hrest⟩ := Tx.bind_eq_ok.1 hrest
  obtain ⟨_, s₄, h₄, hrest⟩ := Tx.bind_eq_ok.1 hrest
  obtain ⟨_, s₅, h₅, h₆⟩ := Tx.bind_eq_ok.1 hrest
  obtain ⟨rfl, rfl, hrow⟩ := requireLease_clientStates hk h₁
  have hwait : Leaves (update row.key fun r => { r with dependencyWaitID := waitID }) :=
    update_leaves fun _ => rfl
  have hbefore : s₄.clientStates = s₁.clientStates :=
    (Eq.trans (hwait h₄) (registerWait_leaves req h₃)).trans (closeOldWait_leaves row req h₂)
  have hlast : Leaves (update row.key fun r => r.rescheduled req task t) :=
    update_leaves fun _ => rfl
  rw [← hbefore] at hrow
  exact (updateClientPayload_applies h₅ hrow).between hbefore (hlast h₆)

end Updates

/-! ## Calls -/

/-- The update that a call brings, and the job it is for. -/
def Request.update : Request → Option (JobKey × ClientPayloadUpdate)
  | .reschedule _ key _ _ req => req.clientPayloadUpdate.map fun u => (key, u)
  | .complete _ key _ _ req => req.clientPayloadUpdate.map fun u => (key, u)
  | _ => none

/-- The call submits the job; polling does for the next occurrence of a schedule. -/
def Request.Submits (p : Submission) : Request → Prop
  | .submit req => p = req.job
  | .pollWork _ decide _ => ∃ m n req, decide m n = .submitNext req ∧ p = req.job
  | .getJobLease _ decision => ∃ req, decision = .submitNext req ∧ p = req.job
  | _ => False

/-- What a step of the call does that brings no update: payloads stay, and a job that it
submits gets its first one. -/
def Begins (c : Request) (s s' : State) : Prop :=
  ∀ k, s'.clientStates k = s.clientStates k ∨
    s.clientStates k = none ∧ ∃ p, c.Submits p ∧ p.key = k ∧ s'.clientStates k = some p.clientState

theorem Begins.of_same {c : Request} (h : SamePayloads s s') : Begins c s s' :=
  fun k => .inl (congrFun h k)

theorem insertJobTx_begins {c : Request} {p : Submission} {t : Time} {u : Unit} (hp : c.Submits p)
    (h : insertJobTx p t s = .ok (u, s')) : Begins c s s' := by
  obtain ⟨hnone, hs'⟩ := insertJobTx_sched h
  intro k
  unfold State.clientStates
  rw [hs', Sched.setJob_job]
  by_cases hk : k = p.key
  · subst hk
    exact .inr ⟨by rw [hnone]; rfl, p, hp, rfl, by rw [if_pos rfl]; rfl⟩
  · exact .inl (by rw [if_neg hk])

/-- No step of the call brings an update. -/
abbrev BringsNone {α : Type} (c : Request) (x : Call State Err α) : Prop :=
  x.Quiet (fun s => Ready s.sched) (Begins c)

section Calls

variable {α : Type} {H : Host} {i : Nat} {c : Request} {handle : Option Time} {key : JobKey}
  {L w : String}

theorem bringsNone_closed : Call.Closed fun _ (x : Call State Err _) => BringsNone c x :=
  Call.Quiet.closed fun _ => .of_same rfl

theorem query_bringsNone (f : State → Except Err α) : BringsNone c (Call.query f) :=
  bringsNone_closed.query f

theorem tx_bringsNone {m : Tx State Err α} (h : Leaves m) : BringsNone c (Call.tx m) :=
  Call.Quiet.tx (fun _ => .of_same rfl) fun _ _ _ _ hm => .of_same (h hm)

theorem timeNow_bringsNone : BringsNone c timeNow := query_bringsNone _

theorem reschedule_bringsNone {req : RescheduleExecutionRequest}
    (h : req.clientPayloadUpdate = none) : BringsNone c (reschedule H handle key L w req) := by
  refine reschedule_closed bringsNone_closed fun task now => ?_
  refine Call.Quiet.tx (fun _ => .of_same rfl) fun s _ s' hs hm => .of_same ?_
  exact Applies.same (h ▸ rescheduleTx_applies hs.keyed hm)

theorem saveChapter_bringsNone (ordinal : Int) (text : String) (artifacts : List StoredArtifact) :
    BringsNone c (saveChapter i key ordinal text artifacts) :=
  saveChapter_closed bringsNone_closed (fun _ _ => tx_bringsNone (appendTx_leaves _)) _ _ _

theorem completePayloadFailure_bringsNone (ch : Chapter) (auth : State → JobRow → Except Err Unit) :
    BringsNone c (completePayloadFailure H i key ch auth) :=
  completePayloadFailure_closed bringsNone_closed fun _ =>
    tx_bringsNone (payloadFailureTx_leaves _ _ _ _)

theorem ensureCompletionChapter_bringsNone (ch : Chapter) (uploads : List ArtifactUpload) :
    BringsNone c (ensureCompletionChapter H i key L w ch uploads) :=
  ensureCompletionChapter_closed bringsNone_closed (fun _ _ => tx_bringsNone (appendTx_leaves _)) ch
    uploads

variable {req : CompleteExecutionRequest} {u : ClientPayloadUpdate}

theorem complete_bringsNone (h : req.clientPayloadUpdate = none) :
    BringsNone c (complete H i handle key L w req) := by
  refine complete_closed bringsNone_closed (fun ch => completePayloadFailure_bringsNone ch _)
    ensureCompletionChapter_bringsNone fun now => ?_
  refine Call.Quiet.tx (fun _ => .of_same rfl) fun s _ s' hs hm => .of_same ?_
  exact Applies.same (h ▸ completeTx_applies hs.keyed hm)

theorem submit_bringsNone {req : SubmitRequest} (h : c.Submits req.job) :
    BringsNone c (submit i req) := by
  refine submit_closed bringsNone_closed (fun _ _ => ?_) ?_ fun now => ?_
  · exact tx_bringsNone (appendTx_leaves _)
  · exact tx_bringsNone (createStoryTx_leaves _)
  · exact Call.Quiet.tx (fun _ => .of_same rfl) fun _ _ _ _ hm => insertJobTx_begins h hm

theorem completeTaskIfWaiting_bringsNone (req : CompleteTaskIfWaitingRequest) :
    BringsNone c (completeTaskIfWaiting H i req) := by
  refine .bind (.check _) fun _ => .bind (.check _) fun _ =>
    .bind (query_bringsNone _) fun row => ?_
  refine .bind timeNow_bringsNone fun now => .bind (.check _) fun tw =>
    .bind (query_bringsNone _) fun input => ?_
  refine .bind timeNow_bringsNone fun now' => .bind (.check _) fun out => ?_
  refine .bind (.check _) fun stored => ?_
  split
  · refine .bind (query_bringsNone _) fun _ =>
      .bind (tx_bringsNone (claimTx_leaves _ _ _)) fun lease => ?_
    refine .bind (.bind (query_bringsNone _) fun _ => saveChapter_bringsNone _ _ _) fun _ => ?_
    exact reschedule_bringsNone rfl
  · exact .bind (completePayloadFailure_bringsNone _ _) fun _ => .check _
  · exact .check _

theorem goalTx_leaves {m : Time → Tx State Err α}
    (hm : ∀ now, Tx.Within SameSched (m now)) :
    Leaves (do
      let now ← clock
      let _ ← m now : Tx State Err Unit) :=
  .bind clock_leaves fun now => .bind (Leaves.of_sched (hm now)) fun _ => .pure _

theorem noLease_bringsNone {x : Call State Err Unit} (h : BringsNone c x) :
    BringsNone c (noLease x) :=
  .bind h fun _ => .pure _

/-- A call without an update brings none. -/
theorem body_bringsNone (h : c.update = none) : BringsNone c (body H i c) := by
  cases c with
  | submit req => exact noLease_bringsNone (submit_bringsNone rfl)
  | pollWork req decide rounds =>
    refine pollWork_closed bringsNone_closed (fun _ _ _ _ _ _ _ _ => complete_bringsNone) ?_
      (fun m n r hr => ?_) rounds
    · exact tx_bringsNone (.bind (.read _) fun _ => grantPicked_leaves _ _)
    · exact submit_bringsNone ⟨m, n, r, hr, rfl⟩
  | getJobLease req decision =>
    refine getJobLease_closed bringsNone_closed (fun _ _ _ _ _ _ => complete_bringsNone) ?_
      fun r hr => ?_
    · exact tx_bringsNone (.bind (.read _) fun _ => grantPicked_leaves _ _)
    · exact submit_bringsNone ⟨r, hr, rfl⟩
  | keepAlive handle key leaseID workerID duration =>
    exact noLease_bringsNone (keepAlive_closed bringsNone_closed fun _ =>
      tx_bringsNone (keepAliveTx_leaves _))
  | renew handle key leaseID workerID duration =>
    exact noLease_bringsNone (renew_closed bringsNone_closed (tx_bringsNone (renewTx_leaves _)))
  | reschedule handle key leaseID workerID req =>
    exact noLease_bringsNone (reschedule_bringsNone (Option.map_eq_none_iff.1 h))
  | complete handle key leaseID workerID req =>
    exact noLease_bringsNone (complete_bringsNone (Option.map_eq_none_iff.1 h))
  | putChapter claims req =>
    exact noLease_bringsNone (.bind (.check _) fun _ => .bind (query_bringsNone _) fun _ =>
      .bind (query_bringsNone _) fun _ =>
      .bind (query_bringsNone _) fun _ => .bind (.check _) fun _ => .bind (.check _) fun _ =>
        .bind (.check _) fun _ => saveChapter_bringsNone _ _ _)
  | completeTaskIfWaiting req => exact noLease_bringsNone (completeTaskIfWaiting_bringsNone req)
  | cancelJob key reason =>
    exact noLease_bringsNone (.bind timeNow_bringsNone fun _ => tx_bringsNone (cancelTx_leaves _ _))
  | deleteJobs req => exact noLease_bringsNone (tx_bringsNone (deleteTx_leaves req))
  | clearCrashConcern key => exact noLease_bringsNone (tx_bringsNone clearCrashConcernTx_leaves)
  | addGoalCandidate req =>
    exact noLease_bringsNone (tx_bringsNone (goalTx_leaves fun now =>
      Engine.add_within goalStore_writes now req))
  | failGoal req =>
    exact noLease_bringsNone (tx_bringsNone (goalTx_leaves fun now =>
      Engine.fail_within goalStore_writes now req))

/-! ### Calls with an update -/

/-- The call has brought its update. -/
def Succeeds {α : Type} (c : Request) (r : Except Err α) : Prop :=
  c.update.isSome = true ∧ r.toBool = true

/-- The call applies its update. -/
def Brings (H : Host) (c : Request) (s s' : State) : Prop :=
  ∃ k u, c.update = some (k, u) ∧ Applies H k (some u) s s'

/-- The call brings its update with its last step, or none. -/
abbrev BringsLast (H : Host) (c : Request) (x : Call State Err α) : Prop :=
  x.Commits (fun s => Ready s.sched) (Begins c) (fun _ => Brings H c) (Succeeds c)

theorem not_succeeds_error {c : Request} (e : Err) : ¬ Succeeds c (.error e : Except Err α) :=
  fun h => nomatch h.2

theorem tx_bringsLast {m : Tx State Err α} {k : JobKey} (hc : c.update = some (k, u))
    (hm : ∀ s a s', Keyed s.sched → m s = .ok (a, s') → Applies H k (some u) s s') :
    BringsLast H c (Call.tx m) := by
  refine .tx not_succeeds_error (fun _ => .of_same rfl) fun s a s' hs h => ⟨⟨?_, rfl⟩, k, u, hc, ?_⟩
  · rw [hc]
    rfl
  · exact hm s a s' hs.keyed h

theorem reschedule_bringsLast {req : RescheduleExecutionRequest} (hc : c.update = some (key, u))
    (hu : req.clientPayloadUpdate = some u) : BringsLast H c (reschedule H handle key L w req) := by
  refine .bind not_succeeds_error (query_bringsNone _) fun _ => ?_
  refine .check_bind not_succeeds_error fun _ _ => .check_bind not_succeeds_error fun _ _ => ?_
  refine .check_bind not_succeeds_error fun task _ => .check_bind not_succeeds_error fun _ _ => ?_
  refine .check_bind not_succeeds_error fun _ _ => ?_
  refine .bind not_succeeds_error timeNow_bringsNone fun now => ?_
  exact tx_bringsLast hc fun s _ s' hk h => hu ▸ rescheduleTx_applies hk h

theorem complete_bringsLast (hc : c.update = some (key, u))
    (hu : req.clientPayloadUpdate = some u) : BringsLast H c (complete H i handle key L w req) := by
  refine .bind not_succeeds_error (query_bringsNone _) fun _ => ?_
  refine .check_bind not_succeeds_error fun _ _ => .check_bind not_succeeds_error fun _ _ => ?_
  refine .bind not_succeeds_error (checkClientPayload_closed bringsNone_closed _) fun _ => ?_
  cases req.chapter with
  | none => exact .fail not_succeeds_error
  | some ch =>
    dsimp only
    split
    · -- a completion whose payload is too large has no update
      refine .check_bind not_succeeds_error fun _ h => ?_
      rw [if_pos (.inr (by rw [hu]; rfl))] at h
      cases h
    · refine .bind not_succeeds_error (ensureCompletionChapter_bringsNone ch _) fun _ => ?_
      refine .bind not_succeeds_error timeNow_bringsNone fun now => ?_
      exact tx_bringsLast hc fun s _ s' hk h => hu ▸ completeTx_applies hk h

theorem noLease_bringsLast {x : Call State Err Unit} (h : BringsLast H c x) :
    BringsLast H c (noLease x) := by
  refine .map (g := fun _ => []) h (fun r => ?_) fun _ _ _ hb => hb
  cases r <;> exact Iff.rfl

/-- **Every call** that brings an update does so with its last step, and others bring none. -/
theorem body_bringsLast (c : Request) : BringsLast H c (body H i c) := by
  cases hc : c.update with
  | none =>
    refine ⟨not_succeeds_error, Proc.Quiet.commits (body_bringsNone hc) fun r hr => ?_⟩
    have hsome := hr.1
    rw [hc] at hsome
    cases hsome
  | some ku =>
    obtain ⟨k, u⟩ := ku
    cases c with
    | reschedule handle key leaseID workerID req =>
      obtain ⟨u', hu, he⟩ := Option.map_eq_some_iff.1 hc
      cases he
      exact noLease_bringsLast (reschedule_bringsLast hc hu)
    | complete handle key leaseID workerID req =>
      obtain ⟨u', hu, he⟩ := Option.map_eq_some_iff.1 hc
      cases he
      exact noLease_bringsLast (complete_bringsLast hc hu)
    | _ => cases hc

end Calls

/-! ## Runs -/

/-- The updates of a job's payload in a history, with the calls that brought them. -/
def updatesOf (k : JobKey) (es : List (System.Event Request (Except Err (List Lease)))) :
    List (Nat × ClientPayloadUpdate) :=
  es.filterMap fun
    | .commit i c _ => (c.update.filter fun ku => ku.1 = k).map fun ku => (i, ku.2)
    | _ => none

/-- The fold of `clientpayload.Apply` over updates. -/
def applyAll (H : Host) (x : Option String × Int) (us : List ClientPayloadUpdate) :
    Except Err (Option String × Int) :=
  us.foldlM (fun x u => H.applyUpdate x.1 x.2 (some u)) x

/-- What happens in a run of the runtime. -/
abbrev Event (H : Host) := (system H).Happens (fun _ c => Begins c) (fun _ c _ => Brings H c)

section Runs

variable {H : Host} {k : JobKey} {s s' : State}
  {es : List (System.Event Request (Except Err (List Lease)))}

theorem clientStates_tick (h : Tick s s') : s'.clientStates = s.clientStates := by
  obtain ⟨t, -, rfl⟩ := h
  rfl

/-- The payload of a job after a run: the updates in it, applied to the payload before. -/
theorem applyAll_of_along (h : Along (Event H) es s s') :
    ∀ {x}, s.clientStates k = some x →
      ∃ y, s'.clientStates k = some y ∧ applyAll H x ((updatesOf k es).map (·.2)) = .ok y := by
  induction h with
  | nil => exact fun {x} hx => ⟨x, hx, rfl⟩
  | @cons e es s s₁ s' head _ ih =>
    intro x hx
    cases head with
    | env moves => exact ih (by rw [clientStates_tick moves, hx])
    | quiet moves =>
      rcases moves k with hsame | ⟨hnone, -⟩
      · exact ih (hsame.trans hx)
      · cases hx.symm.trans hnone
    | commit moves =>
      obtain ⟨k', u, hc, x', y, hx', hy, hs₁⟩ := moves
      by_cases hk : k' = k
      · subst hk
        cases hx.symm.trans hx'
        obtain ⟨z, hz, happly⟩ := ih (x := y) (by rw [hs₁, Function.update_self])
        refine ⟨z, hz, ?_⟩
        simp only [updatesOf, List.filterMap_cons, hc, Option.filter_some, decide_true, if_true,
          Option.map_some, List.map_cons, applyAll, List.foldlM_cons]
        exact bind_eq_ok.2 ⟨y, hy, happly⟩
      · obtain ⟨z, hz, happly⟩ := ih (x := x) (by rw [hs₁, Function.update_of_ne (Ne.symm hk), hx])
        refine ⟨z, hz, ?_⟩
        simp only [updatesOf, List.filterMap_cons, hc, Option.filter_some, hk, decide_false,
          Bool.false_eq_true, if_false, Option.map_none]
        exact happly

/-- A job that was not there before a run: the first payload is that of its submission. -/
theorem applyAll_of_submitted (h : Along (Event H) es s s') (hnone : s.clientStates k = none) :
    ∀ {y}, s'.clientStates k = some y →
      ∃ i c p, .quiet i c ∈ es ∧ c.Submits p ∧ p.key = k ∧
        applyAll H p.clientState ((updatesOf k es).map (·.2)) = .ok y := by
  induction h with
  | nil => exact fun {y} hy => nomatch hnone.symm.trans hy
  | @cons e es s s₁ s' head tail ih =>
    intro y hy
    have hrest : s₁.clientStates k = none → updatesOf k (e :: es) = updatesOf k es →
        ∃ i c p, .quiet i c ∈ e :: es ∧ c.Submits p ∧ p.key = k ∧
          applyAll H p.clientState ((updatesOf k (e :: es)).map (·.2)) = .ok y := by
      intro hnone₁ hupdates
      obtain ⟨i, c, p, hmem, hp⟩ := ih hnone₁ hy
      exact ⟨i, c, p, List.mem_cons_of_mem _ hmem, hupdates ▸ hp⟩
    cases head with
    | env moves => exact hrest (by rw [clientStates_tick moves, hnone]) rfl
    | @quiet i c _ _ moves =>
      rcases moves k with hsame | ⟨-, p, hp, hkey, hfirst⟩
      · exact hrest (hsame.trans hnone) rfl
      · obtain ⟨z, hz, happly⟩ := applyAll_of_along tail hfirst
        cases hy.symm.trans hz
        exact ⟨i, c, p, List.mem_cons_self, hp, hkey, happly⟩
    | commit moves =>
      obtain ⟨k', u, hc, x', y', hx', -, hs₁⟩ := moves
      have hk : k ≠ k' := by
        rintro rfl
        cases hnone.symm.trans hx'
      refine hrest (by rw [hs₁, Function.update_of_ne hk, hnone]) ?_
      simp only [updatesOf, List.filterMap_cons, hc, Option.filter_some, Ne.symm hk, decide_false,
        Bool.false_eq_true, if_false, Option.map_none]

/-- Every update in a fold was made for the revision it is applied to. -/
theorem expectedRevision_of_applyAll {us : List ClientPayloadUpdate} :
    ∀ {x y : Option String × Int}, applyAll H x us = .ok y →
      y.2 = x.2 + us.length ∧
        ∀ (n : Nat) u, us[n]? = some u → u.expectedRevision = some (x.2 + n) := by
  induction us with
  | nil =>
    intro x y h
    obtain rfl := Except.ok.inj h
    exact ⟨by simp, fun n u hu => nomatch hu⟩
  | cons u us ih =>
    intro x y h
    obtain ⟨x₁, hx₁, hrest⟩ := bind_eq_ok.1 (show
      (H.applyUpdate x.1 x.2 (some u) >>= fun x₁ => applyAll H x₁ us) = .ok y from h)
    obtain ⟨hy, hall⟩ := ih hrest
    obtain ⟨_, -, hx₁⟩ := bind_eq_ok.1 hx₁
    dsimp only at hx₁
    split at hx₁
    · cases hx₁
    next hrevision =>
    split at hx₁
    · cases hx₁
    obtain ⟨value, -, rfl⟩ := map_eq_ok.1 hx₁
    dsimp only at hy hall
    refine ⟨by rw [hy, List.length_cons]; omega, fun n v hv => ?_⟩
    cases n with
    | zero =>
      cases hv
      simpa using not_not.1 hrevision
    | succ n =>
      rw [hall n v hv]
      exact congrArg some (by omega)

/-- A run of the runtime has a history. -/
theorem exists_history {s₀ : State} (hs₀ : Ready s₀.sched) {ls : List (System.Label Request)}
    {p : Calls} (h : Along (system H).Step ls ⟨s₀, []⟩ p) :
    ∃ es, (system H).History (fun s => Ready s.sched) (fun _ c => Begins c) (fun _ c _ =>
      Brings H c)
      Succeeds s₀ p es := by
  have hsound := calls_sound (H := H) (P := .any) (M := system H) rfl rfl
    (fun _ _ _ _ => trivial) fun s c _ => c.meets_of_forall (fun _ _ _ _ => trivial) s.sched
  exact System.history (fun _ hp => hp.inv) (fun _ _ _ hp hstep => (hsound.step hstep hp).1)
    (fun i c _ _ _ => (body_bringsLast c).proc) h (.start hs₀)

/-- The calls that brought the updates, each once. -/
theorem updatesOf_nodup {s₀ : State} {p : Calls}
    (h : (system H).History (fun s => Ready s.sched) (fun _ c => Begins c) (fun _ c _ => Brings H c)
      Succeeds s₀ p es) : ((updatesOf k es).map (·.1)).Nodup := by
  have hsub : (updatesOf k es).map (·.1) <+ es.filterMap System.Event.committed? := by
    unfold updatesOf
    rw [List.map_filterMap]
    clear h
    induction es with
    | nil => exact .slnil
    | cons e es ih =>
      rw [List.filterMap_cons, List.filterMap_cons]
      cases e with
      | env => exact ih
      | quiet => exact ih
      | commit i c a =>
        cases hu : c.update.filter fun ku => decide (ku.1 = k) with
        | none =>
          simp only [hu, System.Event.committed?, Option.map_none]
          exact .cons _ ih
        | some ku =>
          simp only [hu, System.Event.committed?, Option.map_some]
          exact .cons_cons _ ih
  exact hsub.nodup h.once

theorem mem_updatesOf {i : Nat} {u : ClientPayloadUpdate} :
    (i, u) ∈ updatesOf k es ↔ ∃ c a, .commit i c a ∈ es ∧ c.update = some (k, u) := by
  unfold updatesOf
  rw [List.mem_filterMap]
  constructor
  · rintro ⟨e, he, hu⟩
    cases e with
    | env => cases hu
    | quiet => cases hu
    | commit j c a =>
      obtain ⟨⟨k', u'⟩, hfilter, heq⟩ := Option.map_eq_some_iff.1 hu
      obtain ⟨hc, hk⟩ := Option.filter_eq_some_iff.1 hfilter
      obtain ⟨rfl, rfl⟩ := Prod.mk.inj heq
      obtain rfl := of_decide_eq_true hk
      exact ⟨c, a, he, hc⟩
  · rintro ⟨c, a, he, hc⟩
    refine ⟨_, he, ?_⟩
    simp only [hc, Option.filter_some, decide_true, if_true, Option.map_some]

end Runs

/-- The first client payload of a job: the one it has in `s₀`, or the one that one of the calls
has submitted it with. -/
def FirstPayload (s₀ : State) (p : Calls) (k : JobKey)
    (first : Option String × Int) : Prop :=
  s₀.clientStates k = some first ∨
    s₀.clientStates k = none ∧
      ∃ c ∈ p.threads.map Prod.fst, ∃ sub, c.Submits sub ∧ sub.key = k ∧ first = sub.clientState

/-- **The client payload is the fold of the successful updates.** Calls of all kinds run
interleaved while the clock moves on. At any moment the payload of a job is what
`clientpayload.Apply` makes of the first one with the updates for the job that calls have
succeeded with: each of them once, and in the order of the revisions that they were made for,
which have no gap. -/
theorem client_payload_folds_updates (H : Host) (s₀ : State) (hs₀ : Ready s₀.sched)
    {ls : List (System.Label Request)} {p : Calls}
    (h : Along (system H).Step ls ⟨s₀, []⟩ p) (k : JobKey) (row : JobRow)
    (hrow : p.shared.jobs.lookup k = some row) :
    ∃ (first : Option String × Int) (updates : List (Nat × ClientPayloadUpdate)),
      FirstPayload s₀ p k first ∧
      applyAll H first (updates.map (·.2)) = .ok (row.clientPayload, row.clientPayloadRevision) ∧
      (updates.map (·.1)).Nodup ∧
      (∀ i u, (i, u) ∈ updates ↔
        ∃ c leases, p.Answered i c (.ok leases) ∧ c.update = some (k, u)) ∧
      ∀ (n : Nat) i u, updates[n]? = some (i, u) → u.expectedRevision = some (first.2 + n) := by
  obtain ⟨es, hes⟩ := exists_history hs₀ h
  have hlast : p.shared.clientStates k = some (row.clientPayload, row.clientPayloadRevision) := by
    show (p.shared.jobs.lookup k).map JobRow.clientState = _
    rw [hrow]
    rfl
  have hfold : ∃ first, FirstPayload s₀ p k first ∧ applyAll H first ((updatesOf k es).map (·.2)) =
      .ok (row.clientPayload, row.clientPayloadRevision) := by
    cases hfirst : s₀.clientStates k with
    | some first =>
      obtain ⟨y, hy, happly⟩ := applyAll_of_along hes.along hfirst
      cases hlast.symm.trans hy
      exact ⟨first, .inl hfirst, happly⟩
    | none =>
      obtain ⟨i, c, sub, hmem, hsub, hkey, happly⟩ := applyAll_of_submitted hes.along hfirst hlast
      exact ⟨_, .inr ⟨hfirst, c, hes.quiet i c hmem, sub, hsub, hkey, rfl⟩, happly⟩
  obtain ⟨first, hfirst, happly⟩ := hfold
  refine ⟨first, updatesOf k es, hfirst, happly,
    updatesOf_nodup hes, fun i u => ?_, fun n i u hn => ?_⟩
  · rw [mem_updatesOf]
    constructor
    · rintro ⟨c, a, hcommit, hc⟩
      obtain ⟨hanswer, -, hok⟩ := hes.commit_iff.1 hcommit
      cases a with
      | error e => cases hok
      | ok leases => exact ⟨c, leases, hanswer, hc⟩
    · rintro ⟨c, leases, hanswer, hc⟩
      exact ⟨c, _, hes.commit_iff.2 ⟨hanswer, by rw [hc]; rfl, rfl⟩, hc⟩
  · refine (expectedRevision_of_applyAll happly).2 n u ?_
    rw [List.getElem?_map, hn]
    rfl

/-- The update of a payload to a text. -/
def resetTo (text : String) (revision : Int) : ClientPayloadUpdate :=
  { mode := .reset, value := some text, expectedRevision := some revision }

/-- A job of one worker, with a first client payload. -/
def payloadJob : Submission where
  key := ⟨"t", "j"⟩
  jobType := "work"
  clientPayload := some "first"
  clientPayloadRevision := 1
  cell := ⟨"c", "c", ""⟩
  goalID := "g"
  shareGoal := false

/-- The job is submitted and leased, and two calls with the lease bring an update for the same
revision; the second of them to reach its transaction finds that the lease is gone. -/
def twoUpdates : Calls :=
  [.call (.submit { job := payloadJob }), .run 0, .run 0, .run 0,
    .call (.getJobLease
      { jobKey := ⟨"t", "j"⟩, routes := [{ jobType := "work" }], workerID := "w",
        leaseDuration := 5, authorized := fun _ => .ok () } .start), .run 1,
    .call (.reschedule none ⟨"t", "j"⟩ "x" "w"
      { nextRoute := { jobType := "work" }, clientPayloadUpdate := some (resetTo "second" 1) }),
    .call (.reschedule none ⟨"t", "j"⟩ "x" "w"
      { nextRoute := { jobType := "work" }, clientPayloadUpdate := some (resetTo "third" 1) }),
    .run 2, .run 3, .run 2, .run 3, .run 3, .run 2].foldl
      (system .accepting).drive ⟨{ now := 1 }, []⟩

theorem client_payload_folds_updates_raced :
    (∃ row, twoUpdates.shared.jobs.lookup ⟨"t", "j"⟩ = some row ∧ row.clientPayload = some "third" ∧
      row.clientPayloadRevision = 2) ∧
    ∃ (first : Option String × Int) (updates : List (Nat × ClientPayloadUpdate)),
      FirstPayload { now := 1 } twoUpdates ⟨"t", "j"⟩ first ∧
      applyAll .accepting first (updates.map (·.2)) = .ok (some "third", 2) ∧
      (∀ i u, (i, u) ∈ updates ↔
        ∃ c leases, twoUpdates.Answered i c (.ok leases) ∧ c.update = some (⟨"t", "j"⟩, u)) := by
  obtain ⟨ls, h⟩ : ∃ ls, Along (system .accepting).Step ls ⟨{ now := 1 }, []⟩ twoUpdates :=
    System.drive_along (by trivial)
  obtain ⟨row, hrow, hpayload, hrevision⟩ :
    ∃ row, twoUpdates.shared.jobs.lookup ⟨"t", "j"⟩ = some row ∧
      row.clientPayload = some "third" ∧ row.clientPayloadRevision = 2 := ⟨_, rfl, rfl, rfl⟩
  refine ⟨⟨row, hrow, hpayload, hrevision⟩, ?_⟩
  obtain ⟨first, updates, hfirst, happly, -, hiff, -⟩ :=
    client_payload_folds_updates .accepting { now := 1 } (ready_empty 1) h ⟨"t", "j"⟩ row hrow
  rw [hpayload, hrevision] at happly
  exact ⟨first, updates, hfirst, happly, hiff⟩

end JobDB.Sqlite
