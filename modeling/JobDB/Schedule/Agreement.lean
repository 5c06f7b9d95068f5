import JobDB.Cell.Registry
import JobDB.Core.Submit
import JobDB.Schedule.FailurePolicy
import JobDB.Sqlite.Submit

/-!
# Where the preflights agree

The core, the SQLite and the toy runtime each have a preflight of their own. Here they are put in
the same situation: the same schedule, the same occurrence, the same job before it, the same cells
and the same jobs under the IDs that a successor may get. A preflight then hands the lease out,
cancels the occurrence for a reason, or fails; and it creates a successor or does not
(`Backend.decide`).

They do not always decide alike (`preflights_agree_iff`):

* core does not know the pause for a cell's repository, under which the others let the occurrence
  run;
* the toy runtime does not look at the end of the trigger;
* the toy runtime takes every job that has ended and is not cancelled for a success, the others
  only one that ended with the status `success`, and a failure policy may depend on it;
* a successor whose ID is taken is compared with the job that has it. SQLite and the toy runtime
  prepare it without its prerequisites, its time and its payload, core prepares all of it; then
  SQLite compares the start chapter and the row as well, and the others compare nothing more.
-/

namespace JobDB

/-! ## The situation -/

/-- The job before an occurrence: not there, not ended, or ended. -/
inductive PreviousJob where
  | missing
  | live
  | ended (e : Ending)
deriving DecidableEq, Repr

/-- `previousJobSucceeded`: a job that has not ended is no success. -/
def Backend.readsSuccess (b : Backend) : PreviousJob → Bool
  | .ended e => b.previousJobSucceeded e
  | _ => false

/-- What `ExtractScheduleOccurrenceMetadata` demands of an occurrence. -/
def ScheduleOccurrenceMetadata.complete (occ : ScheduleOccurrenceMetadata) : Prop :=
  occ.scheduleId ≠ "" ∧ 0 < occ.generation ∧ occ.specHash ≠ "" ∧ occ.scheduledAt ≠ Time.zero

instance (occ : ScheduleOccurrenceMetadata) : Decidable occ.complete :=
  inferInstanceAs (Decidable (_ ∧ _ ∧ _ ∧ _))

/-- A job as it is stored under its ID. -/
structure StoredJob where
  /-- What its preparation remembers: in the core runtime, and in the others. -/
  coreDescriptor : Descriptor
  descriptor : Descriptor
  start : StartEnvelope
  row : Sqlite.JobRow

/-- What a preflight finds. -/
structure Situation where
  /-- The row of the schedule that the occurrence names. -/
  schedule : Option ScheduleInfo
  /-- A schedule that was paused for its cell's repository is paused, or archived since. -/
  stopped : ∀ info, schedule = some info → info.pauseReason = "cell_repo_mismatch" →
    info.state = .paused ∨ info.state = .archived
  job : JobKey
  occurrence : ScheduleOccurrenceMetadata
  /-- The occurrence was submitted for a schedule, whose key and row were in order. -/
  submitted : occurrence.complete ∧
    ScheduleKey.validate ⟨job.tenantId, occurrence.scheduleId⟩ = .ok ()
  chapterCount : Int
  previous : PreviousJob
  jobs : JobKey → Option StoredJob
  cells : Registry
  ctx : Ctx
  now : Time

/-! ## The decision -/

/-- The metadata as a runtime reads it: core has it in a column, the others in the envelope. -/
def Backend.readOccurrence (b : Backend) (occ : ScheduleOccurrenceMetadata) :
    Except Err (Option ScheduleOccurrenceMetadata) :=
  match b with
  | .core => .ok (some occ)
  | _ => do
    demand (.invalid "schedule metadata missing required fields") occ.complete
    .ok (some occ)

/-- `GetSchedule`, which checks the key in the core runtime. -/
def Backend.checkKey (b : Backend) (key : ScheduleKey) : Except Err Unit :=
  match b with
  | .core => key.validate
  | _ => .ok ()

/-- The cell of a successor: that of its schedule, under the repository it is bound to, or that of
the job which exists. -/
def successorCell (L : CellLib) (ctx : Ctx) (cells : Registry) (schedule : ScheduleKey)
    (target : ScheduleTarget) (existing : Option ResolvedCell) : Except Err ResolvedCell :=
  match cells.cells.lookup target.cellID with
  | none => .error errCellNotFound
  | some c =>
    if c.repo ≠ target.cellRepo then .error errCellRepoMismatch
    else
      cells.resolve L ctx schedule.tenantId target.cell target.cellRepo (some c) existing
        existing.isSome

/-- What the submission of an occurrence computes of its target. The target was read when its
schedule was written, so nothing of this fails. -/
structure TargetLib where
  /-- `taskFingerprint`. -/
  fingerprint : Option TaskData → String
  /-- Raw JSON, and that of a client payload, in canonical form. -/
  canonicalRaw : String → String
  canonicalUpdate : Option ClientPayloadUpdate → Option ClientPayloadUpdate
  inputHash : Option TaskData → String
  /-- `clientpayload.Digest` of `clientpayload.Initial`. -/
  initialDigest : Option ClientPayloadUpdate → String
  /-- `MergeScheduleOccurrenceMetadata`. -/
  mergeOccurrence : String → ScheduleOccurrenceMetadata → String
  /-- `jsonObjectsEqual`. -/
  sameMetadata : String → String → Bool

/-- What `submitScheduledOccurrenceWithJobID` prepares: the same as in the SQLite runtime. -/
def Toy.occurrenceRequest (o : ScheduledJob) : SubmitJob := Sqlite.occurrenceRequest o

/-- The request that a runtime prepares for an occurrence. -/
def Backend.request (b : Backend) (o : ScheduledJob) : SubmitJob :=
  match b with
  | .core => (Core.JobServices.occurrenceOrder o "").job
  | .sqlite => Sqlite.occurrenceRequest o
  | .toy => Toy.occurrenceRequest o

def StoredJob.remembered (job : StoredJob) : Backend → Descriptor
  | .core => job.coreDescriptor
  | _ => job.descriptor

section Submit

variable (L : CellLib) (T : TargetLib)

/-- What `SubmitPreparation` makes of a request. -/
def TargetLib.descriptor (job : SubmitJob) : Descriptor :=
  .submit ""
    { job with
      data := none, jobID := "", cell := "", cellRepo := "",
      metadata := T.canonicalRaw job.metadata
      clientPayloadUpdate := T.canonicalUpdate job.clientPayloadUpdate }
    (T.fingerprint job.data)

/-- `PrepareJob` for a successor: whether it is published already. -/
def Backend.prepareJob (b : Backend) (s : Situation) (o : ScheduledJob) : Except Err Bool := do
  let existing := s.jobs o.key
  let _ ← successorCell L s.ctx s.cells o.schedule o.target (existing.map (·.row.cell))
  match existing with
  | none => .ok false
  | some job =>
    let new := T.descriptor (b.request o)
    demand (preparationMismatch (job.remembered b) new) (job.remembered b = new)
    .ok true

/-- What the start chapter of an occurrence has to say. -/
def TargetLib.expectation (o : ScheduledJob) : Sqlite.StartExpectation where
  jobType := o.target.jobType
  inputHash := T.inputHash o.target.data
  metadata := o.target.metadata
  prerequisites := o.prerequisites
  runPolicy := normalizeRunPolicy o.target.runPolicy
  clientPayloadUpdate := o.target.clientPayloadUpdate

/-- `compareSubmitStartChapter` and the comparisons of `ensureSubmittedJobRecord`. -/
def Sqlite.compareStored (o : ScheduledJob) (job : StoredJob) : Except Err Unit := do
  let want := T.expectation o
  let digest := T.initialDigest o.target.clientPayloadUpdate
  Sqlite.compareStart T.sameMetadata o.key job.start want digest
  let metadata := T.mergeOccurrence o.target.metadata o.occurrence
  Sqlite.compareRow T.sameMetadata o.key (want.fields metadata "" (some o.availableAt)) digest
    job.row

/-- The comparisons after the preparation, which only the SQLite runtime makes. -/
def Backend.compareStored (b : Backend) (o : ScheduledJob) : Option StoredJob → Except Err Unit
  | none => .ok ()
  | some job =>
    match b with
    | .sqlite => Sqlite.compareStored T o job
    | _ => .ok ()

/-- `submitScheduledOccurrence`: whether it makes a job. -/
def Backend.submitOccurrence (b : Backend) (s : Situation) (o : ScheduledJob) :
    Except Err Bool := do
  let published ← b.prepareJob L T s o
  b.compareStored T o (s.jobs o.key)
  .ok (!published)

end Submit

/-- What comes of a preflight. -/
inductive Decision where
  | handOut (successor : Bool)
  | cancelled (reason : String)
  | failed (e : Err)
deriving DecidableEq

/-- What a decision means for the occurrence: the reason it is cancelled for, or whether it is
handed out with a successor. One that failed decides nothing. -/
def Decision.verdict : Decision → Option (Except String Bool)
  | .handOut successor => some (.ok successor)
  | .cancelled reason => some (.error reason)
  | .failed _ => none

section Decide

variable (L : CellLib) (B : ScheduleLib) (T : TargetLib)

/-- The outcome that the runtime's preflight works towards. -/
def Backend.preflight (b : Backend) (s : Situation) : Except Err PreflightOutcome := do
  let occ ← b.readOccurrence s.occurrence
  let lease : LeasedJob := ⟨s.job.jobId, .ok occ, s.chapterCount⟩
  if s.chapterCount ≤ 1 then do
    b.checkKey ⟨s.job.tenantId, s.occurrence.scheduleId⟩
    b.variant.preflightScheduleLease B (fun _ => s.schedule)
      (fun _ => b.readsSuccess s.previous) lease s.now
  else
    b.variant.preflightScheduleLease B (fun _ => s.schedule)
      (fun _ => b.readsSuccess s.previous) lease s.now

/-- What the caller sees of a submission. -/
def Decision.ofSubmission : Except Err Bool → Decision
  | .ok created => .handOut created
  | .error e => .failed e

/-- What the caller sees of the outcome. -/
def Backend.carryOut (b : Backend) (s : Situation) : Except Err PreflightOutcome → Decision
  | .error e => .failed e
  | .ok .handOut => .handOut false
  | .ok (.cancel detail) => .cancelled detail.reasonCode
  | .ok (.advance next) => .ofSubmission (b.submitOccurrence L T s next)

/-- `preflightScheduleLease`, its actions included. -/
def Backend.decide (b : Backend) (s : Situation) : Decision := b.carryOut L T s (b.preflight B s)

end Decide

/-! ## One equation for every runtime -/

section Equations

variable {L : CellLib} {B : ScheduleLib} {T : TargetLib} {b : Backend} {s : Situation}
  {info : ScheduleInfo}

theorem readOccurrence_ok (b : Backend) (s : Situation) :
    b.readOccurrence s.occurrence = .ok (some s.occurrence) := by
  have hdemand : demand (Err.invalid "schedule metadata missing required fields")
      s.occurrence.complete = .ok () := demand_eq_ok.2 s.submitted.1
  cases b with
  | core => rfl
  | sqlite =>
    show (demand _ _ >>= fun _ => _) = _
    rw [hdemand]
    rfl
  | toy =>
    show (demand _ _ >>= fun _ => _) = _
    rw [hdemand]
    rfl

theorem checkKey_ok (b : Backend) (s : Situation) :
    b.checkKey ⟨s.job.tenantId, s.occurrence.scheduleId⟩ = .ok () := by
  cases b with
  | core => exact s.submitted.2
  | sqlite => rfl
  | toy => rfl

/-- What a runtime reads is in order, so it comes to the preflight they share. -/
theorem preflight_eq (b : Backend) (s : Situation) :
    b.preflight B s = b.variant.preflightScheduleLease B (fun _ => s.schedule)
      (fun _ => b.readsSuccess s.previous)
      ⟨s.job.jobId, .ok (some s.occurrence), s.chapterCount⟩ s.now := by
  unfold Backend.preflight
  rw [readOccurrence_ok]
  show (if s.chapterCount ≤ 1 then _ else _) = _
  by_cases hc : s.chapterCount ≤ 1
  · rw [if_pos hc, checkKey_ok]
    rfl
  · rw [if_neg hc]

/-- An occurrence that has started is handed out. -/
theorem decide_started (b : Backend) (h : 1 < s.chapterCount) :
    b.decide L B T s = .handOut false := by
  unfold Backend.decide
  rw [preflight_eq]
  show b.carryOut L T s (if 1 < s.chapterCount then _ else _) = _
  rw [if_pos h]
  rfl

/-- An occurrence without a schedule is cancelled. -/
theorem decide_missing (b : Backend) (h : s.chapterCount ≤ 1) (hs : s.schedule = none) :
    b.decide L B T s = .cancelled "schedule_missing" := by
  unfold Backend.decide
  rw [preflight_eq]
  show b.carryOut L T s (if 1 < s.chapterCount then _ else _) = _
  rw [if_neg (by omega), hs]
  rfl

/-- The outcomes with that of the job before. -/
def Situation.bits (s : Situation) (info : ScheduleInfo) (succeeded : Bool) : String :=
  Variant.preflightBits (fun _ => succeeded) info s.occurrence

/-- The successor at a fire time, as a runtime makes it. -/
def Situation.successor (s : Situation) (b : Backend) (info : ScheduleInfo) (t : Time) :
    ScheduledJob :=
  b.variant.occurrenceAt info t s.job.jobId (s.bits info (b.readsSuccess s.previous))

variable (L B T) in
/-- What is left once nothing speaks against the occurrence. -/
def Situation.goesOn (s : Situation) (b : Backend) (info : ScheduleInfo) : Decision :=
  match nextScheduleFire B info.trigger s.now with
  | .error e => .failed e
  | .ok none => .handOut false
  | .ok (some t) => .ofSubmission (b.submitOccurrence L T s (s.successor b info t))

theorem carryOut_advance (b : Backend) (info : ScheduleInfo) :
    b.carryOut L T s (b.variant.advance B info s.job.jobId
      (s.bits info (b.readsSuccess s.previous)) s.now) = s.goesOn L B T b info := by
  unfold Variant.advance Situation.goesOn
  cases nextScheduleFire B info.trigger s.now with
  | error e => rfl
  | ok next =>
    cases next with
    | none => rfl
    | some t => rfl

/-- **The decision of any runtime** on an occurrence that has not started, under its schedule. -/
theorem decide_found (b : Backend) (h : s.chapterCount ≤ 1) (hs : s.schedule = some info) :
    b.decide L B T s =
      if b.variant.repoPauseRuns = true ∧ info.pauseReason = "cell_repo_mismatch" then
        .handOut false
      else
        match b.variant.obstacle info s.occurrence with
        | some r => .cancelled r.1
        | none =>
          if scheduleFailurePolicyViolated (s.bits info (b.readsSuccess s.previous))
              info.failurePolicy then .cancelled "failure_policy"
          else s.goesOn L B T b info := by
  unfold Backend.decide
  rw [preflight_eq, @Variant.preflightScheduleLease_eq _ _ _ _ _ s.occurrence _ _ rfl h hs]
  unfold Variant.preflightOccurrence
  by_cases hrepo : b.variant.repoPauseRuns = true ∧ info.pauseReason = "cell_repo_mismatch"
  · rw [if_pos hrepo, if_pos hrepo]
    rfl
  · rw [if_neg hrepo, if_neg hrepo]
    cases hobs : b.variant.obstacle info s.occurrence with
    | some r => rfl
    | none =>
      show b.carryOut L T s (if scheduleFailurePolicyViolated (s.bits info _) _ = true then _
        else _) = _
      by_cases hv : scheduleFailurePolicyViolated (s.bits info (b.readsSuccess s.previous))
          info.failurePolicy = true
      · rw [if_pos hv]
        show _ = if _ then _ else _
        rw [if_pos hv]
        rfl
      · rw [if_neg hv]
        show _ = if _ then _ else _
        rw [if_neg hv]
        exact carryOut_advance ..

theorem verdict_ofSubmission (x : Except Err Bool) :
    (Decision.ofSubmission x).verdict = x.toOption.map .ok := by
  cases x with
  | ok created => rfl
  | error e => rfl

theorem goesOn_ne_cancelled (s : Situation) (b : Backend) (info : ScheduleInfo) (reason : String) :
    (s.goesOn L B T b info).verdict ≠ some (.error reason) := by
  unfold Situation.goesOn
  intro h
  split at h
  · cases h
  · cases h
  · rw [verdict_ofSubmission] at h
    obtain ⟨_, -, h⟩ := Option.map_eq_some_iff.1 h
    cases h

/-- Once nothing speaks against the occurrence and the trigger fires, the submission decides. -/
theorem verdict_goesOn {t : Time} (b : Backend)
    (h : nextScheduleFire B info.trigger s.now = .ok (some t)) :
    (s.goesOn L B T b info).verdict =
      (b.submitOccurrence L T s (s.successor b info t)).toOption.map .ok := by
  unfold Situation.goesOn
  rw [h]
  exact verdict_ofSubmission _

end Equations

/-! ## Submissions compared -/

section Submissions

variable {L : CellLib} {T : TargetLib} {s : Situation} {info : ScheduleInfo} {t : Time}

/-- The toy runtime prepares a successor as the SQLite runtime does. -/
theorem prepareJob_toy :
    Backend.toy.prepareJob L T s (s.successor .toy info t) =
      Backend.sqlite.prepareJob L T s (s.successor .sqlite info t) := rfl

/-- Outside the SQLite runtime the preparation is the only test. -/
theorem submitOccurrence_toOption {b : Backend} (hb : b ≠ .sqlite) (o : ScheduledJob) :
    (b.submitOccurrence L T s o).toOption = (b.prepareJob L T s o).toOption.map (!·) := by
  unfold Backend.submitOccurrence
  have hcompare : b.compareStored T o (s.jobs o.key) = .ok () := by
    cases s.jobs o.key with
    | none => rfl
    | some job =>
      cases b with
      | core => rfl
      | sqlite => exact absurd rfl hb
      | toy => rfl
  rw [hcompare]
  cases b.prepareJob L T s o with
  | error e => rfl
  | ok published => rfl

/-- A preparation is published when there is a job. -/
theorem prepareJob_published {b : Backend} {o : ScheduledJob} {published : Bool}
    (h : b.prepareJob L T s o = .ok published) : published = (s.jobs o.key).isSome := by
  obtain ⟨-, -, h⟩ := bind_eq_ok.1 h
  cases hjob : s.jobs o.key with
  | none =>
    rw [hjob] at h
    exact (Except.ok.inj h).symm
  | some job =>
    rw [hjob] at h
    obtain ⟨-, -, h⟩ := bind_eq_ok.1 h
    exact (Except.ok.inj h).symm

end Submissions

/-! ## Where they differ -/

/-- The schedule is the one that the occurrence was submitted under, and it is not stopped. -/
structure ScheduleInfo.Current (info : ScheduleInfo) (occ : ScheduleOccurrenceMetadata) : Prop where
  notPaused : info.state ≠ .paused
  notArchived : info.state ≠ .archived
  generation : info.generation = occ.generation
  specHash : info.specHash = occ.specHash

/-- The occurrence is due after the end of its trigger. -/
def ScheduleInfo.endsBefore (info : ScheduleInfo) (occ : ScheduleOccurrenceMetadata) : Bool :=
  info.trigger.endAt.any (· < occ.scheduledAt)

/-- The job has ended in another way than by a success or by a cancellation. -/
def PreviousJob.Failed (p : PreviousJob) : Prop :=
  ∃ e, p = .ended e ∧ e.succeeded = false ∧ Toy.cancelledFlag e = false

/-- Nothing speaks against the occurrence, and its schedule fires again at `t`. -/
structure Situation.Submits (B : ScheduleLib) (s : Situation) (info : ScheduleInfo) (t : Time) :
    Prop where
  current : info.Current s.occurrence
  notEnded : info.endsBefore s.occurrence = false
  passes : scheduleFailurePolicyViolated (s.bits info (Backend.sqlite.readsSuccess s.previous))
    info.failurePolicy = false
  fires : nextScheduleFire B info.trigger s.now = .ok (some t)

/-- The situations in which the runtimes decide differently. -/
inductive Situation.Differs (L : CellLib) (B : ScheduleLib) (T : TargetLib) (s : Situation)
    (info : ScheduleInfo) : Prop where
  | repoPause (h : info.pauseReason = "cell_repo_mismatch")
  | ended (current : info.Current s.occurrence) (h : info.endsBefore s.occurrence = true)
  | previous (current : info.Current s.occurrence) (notEnded : info.endsBefore s.occurrence = false)
      (failed : s.previous.Failed)
      (h : scheduleFailurePolicyViolated (s.bits info false) info.failurePolicy ≠
        scheduleFailurePolicyViolated (s.bits info true) info.failurePolicy)
  /-- The ID is free, taken by the same job or refused, and not alike in core and in the others. -/
  | prepared {t : Time} (submits : s.Submits B info t)
      (h : (Backend.core.prepareJob L T s (s.successor .core info t)).toOption ≠
        (Backend.sqlite.prepareJob L T s (s.successor .sqlite info t)).toOption)
  /-- The ID is taken by a job with the same preparation, and with another start chapter or row. -/
  | compared {t : Time} {job : StoredJob} (submits : s.Submits B info t)
      (taken : s.jobs (s.successor .sqlite info t).key = some job)
      (prepared : Backend.sqlite.prepareJob L T s (s.successor .sqlite info t) = .ok true)
      (h : Sqlite.compareStored T (s.successor .sqlite info t) job ≠ .ok ())

section Compare

variable {L : CellLib} {B : ScheduleLib} {T : TargetLib} {b : Backend} {s : Situation}
  {info : ScheduleInfo} {occ : ScheduleOccurrenceMetadata}

/-- The tests before that of the trigger's end are the same in every runtime. -/
theorem obstacle_of_not_current (h : ¬ info.Current occ) :
    ∃ r, ∀ V : Variant, V.obstacle info occ = some r := by
  unfold Variant.obstacle
  by_cases hpaused : info.state = .paused
  · exact ⟨_, fun V => if_pos hpaused⟩
  by_cases harchived : info.state = .archived
  · refine ⟨("schedule_archived", "schedule archived before app start"), fun V => ?_⟩
    rw [if_neg hpaused, if_pos harchived]
  by_cases hgen : info.generation = occ.generation
  · have hspec : info.specHash ≠ occ.specHash := fun hs => h ⟨hpaused, harchived, hgen, hs⟩
    refine ⟨("schedule_spec_mismatch", "schedule spec changed before app start"), fun V => ?_⟩
    rw [if_neg hpaused, if_neg harchived, if_neg (not_not.2 hgen), if_pos hspec]
  · refine ⟨("schedule_generation_mismatch", "schedule generation changed before app start"),
      fun V => ?_⟩
    rw [if_neg hpaused, if_neg harchived, if_pos hgen]

theorem obstacle_of_current (V : Variant) (h : info.Current occ) :
    V.obstacle info occ =
      if V.checksEnd = true ∧ info.endsBefore occ = true then
        some ("schedule_ended", "schedule ended before app start")
      else none := by
  unfold Variant.obstacle
  rw [if_neg h.notPaused, if_neg h.notArchived, if_neg (not_not.2 h.generation),
    if_neg (not_not.2 h.specHash)]
  rfl

theorem not_cancelledFlag_of_succeeded {e : Ending} (h : e.succeeded = true) :
    Toy.cancelledFlag e = false := by
  cases e with
  | completed status =>
    by_contra hc
    have hstatus : status = "cancelled" := of_decide_eq_true (Bool.eq_true_of_not_eq_false hc)
    subst hstatus
    exact absurd h (by decide)
  | cancelled => cases h
  | payloadFailed => rfl

theorem readsSuccess_core (p : PreviousJob) :
    Backend.core.readsSuccess p = Backend.sqlite.readsSuccess p := by
  cases p with
  | missing => rfl
  | live => rfl
  | ended e => exact (Core.previousJobSucceeded_eq e).trans (Sqlite.previousJobSucceeded_eq e).symm

/-- A job that has failed is the only one that the runtimes judge differently. -/
theorem readsSuccess_eq (b : Backend) {p : PreviousJob} (h : ¬ p.Failed) :
    b.readsSuccess p = Backend.sqlite.readsSuccess p := by
  cases p with
  | missing => rfl
  | live => rfl
  | ended e =>
    show b.previousJobSucceeded e = Sqlite.previousJobSucceeded e
    rw [Sqlite.previousJobSucceeded_eq]
    cases b with
    | core => exact Core.previousJobSucceeded_eq e
    | sqlite => exact Sqlite.previousJobSucceeded_eq e
    | toy =>
      show (!Toy.cancelledFlag e) = e.succeeded
      cases hs : e.succeeded with
      | true =>
        rw [not_cancelledFlag_of_succeeded hs]
        rfl
      | false =>
        have hc : Toy.cancelledFlag e = true := by
          by_contra hc
          exact h ⟨e, rfl, hs, Bool.eq_false_of_not_eq_true hc⟩
        rw [hc]
        rfl

/-- The pause for the repository stops a schedule. -/
theorem Situation.not_repoPause_of_current (hs : s.schedule = some info)
    (h : info.Current s.occurrence) : info.pauseReason ≠ "cell_repo_mismatch" := by
  intro hr
  rcases s.stopped info hs hr with hp | ha
  · exact h.notPaused hp
  · exact h.notArchived ha

/-- Without a pause for the repository, a schedule that is stopped or is another one cancels the
occurrence in every runtime. -/
theorem decide_not_current (hc : s.chapterCount ≤ 1) (hs : s.schedule = some info)
    (hr : info.pauseReason ≠ "cell_repo_mismatch") (h : ¬ info.Current s.occurrence) :
    ∃ reason, ∀ b : Backend, b.decide L B T s = .cancelled reason := by
  obtain ⟨r, hobs⟩ := obstacle_of_not_current h
  refine ⟨r.1, fun b => ?_⟩
  rw [decide_found b hc hs, if_neg (fun hrepo => hr hrepo.2), hobs]

/-- The decision under the occurrence's own schedule. -/
theorem decide_current (b : Backend) (hc : s.chapterCount ≤ 1) (hs : s.schedule = some info)
    (h : info.Current s.occurrence) :
    b.decide L B T s =
      if b.variant.checksEnd = true ∧ info.endsBefore s.occurrence = true then
        .cancelled "schedule_ended"
      else if scheduleFailurePolicyViolated (s.bits info (b.readsSuccess s.previous))
          info.failurePolicy = true then .cancelled "failure_policy"
      else s.goesOn L B T b info := by
  rw [decide_found b hc hs, if_neg (fun hrepo => s.not_repoPause_of_current hs h hrepo.2),
    obstacle_of_current _ h]
  by_cases hend : b.variant.checksEnd = true ∧ info.endsBefore s.occurrence = true
  · rw [if_pos hend, if_pos hend]
  · rw [if_neg hend, if_neg hend]

/-- Before its schedule's end, the failure policy decides on it. -/
theorem decide_open (b : Backend) (hc : s.chapterCount ≤ 1) (hs : s.schedule = some info)
    (h : info.Current s.occurrence) (hend : info.endsBefore s.occurrence = false) :
    b.decide L B T s =
      if scheduleFailurePolicyViolated (s.bits info (b.readsSuccess s.previous))
          info.failurePolicy = true then .cancelled "failure_policy"
      else s.goesOn L B T b info := by
  rw [decide_current b hc hs h, if_neg]
  rintro ⟨-, he⟩
  cases hend.symm.trans he

/-- The verdict on an occurrence whose successor is to be submitted. -/
theorem verdict_submits {t : Time} (b : Backend) (hc : s.chapterCount ≤ 1)
    (hs : s.schedule = some info) (h : s.Submits B info t)
    (hpasses : scheduleFailurePolicyViolated (s.bits info (b.readsSuccess s.previous))
      info.failurePolicy = false) :
    (b.decide L B T s).verdict =
      (b.submitOccurrence L T s (s.successor b info t)).toOption.map .ok := by
  rw [decide_open b hc hs h.current h.notEnded, hpasses, if_neg Bool.false_ne_true,
    verdict_goesOn b h.fires]

theorem differs_of_repoPause (hc : s.chapterCount ≤ 1) (hs : s.schedule = some info)
    (h : info.pauseReason = "cell_repo_mismatch") :
    (Backend.core.decide L B T s).verdict ≠ (Backend.sqlite.decide L B T s).verdict := by
  have hnot : ¬ info.Current s.occurrence := fun hcur => s.not_repoPause_of_current hs hcur h
  obtain ⟨r, hobs⟩ := obstacle_of_not_current hnot
  have hcore : Backend.core.decide L B T s = .cancelled r.1 := by
    rw [decide_found .core hc hs, if_neg (fun hrepo => Bool.false_ne_true hrepo.1), hobs]
  have hsqlite : Backend.sqlite.decide L B T s = .handOut false := by
    rw [decide_found .sqlite hc hs, if_pos ⟨rfl, h⟩]
  rw [hcore, hsqlite]
  intro hne
  cases hne

theorem differs_of_ended (hc : s.chapterCount ≤ 1) (hs : s.schedule = some info)
    (hcur : info.Current s.occurrence) (h : info.endsBefore s.occurrence = true) :
    (Backend.toy.decide L B T s).verdict ≠ (Backend.sqlite.decide L B T s).verdict := by
  have hsqlite : Backend.sqlite.decide L B T s = .cancelled "schedule_ended" := by
    rw [decide_current .sqlite hc hs hcur, if_pos ⟨rfl, h⟩]
  rw [hsqlite, decide_current .toy hc hs hcur, if_neg (fun hend => Bool.false_ne_true hend.1)]
  split
  · decide
  · exact goesOn_ne_cancelled s _ info _

theorem differs_of_previous (hc : s.chapterCount ≤ 1) (hs : s.schedule = some info)
    (hcur : info.Current s.occurrence) (hend : info.endsBefore s.occurrence = false)
    (hf : s.previous.Failed)
    (h : scheduleFailurePolicyViolated (s.bits info false) info.failurePolicy ≠
      scheduleFailurePolicyViolated (s.bits info true) info.failurePolicy) :
    (Backend.toy.decide L B T s).verdict ≠ (Backend.sqlite.decide L B T s).verdict := by
  obtain ⟨e, hp, hsuccess, hcancelled⟩ := hf
  have htoy : Backend.toy.readsSuccess s.previous = true := by
    rw [hp]
    show (!Toy.cancelledFlag e) = true
    rw [hcancelled]
    rfl
  have hsqlite : Backend.sqlite.readsSuccess s.previous = false := by
    rw [hp]
    exact (Sqlite.previousJobSucceeded_eq e).trans hsuccess
  rw [decide_open .toy hc hs hcur hend, decide_open .sqlite hc hs hcur hend, htoy, hsqlite]
  -- one of the two is cancelled for the policy, and the other is not
  cases hv : scheduleFailurePolicyViolated (s.bits info true) info.failurePolicy with
  | true =>
    rw [hv] at h
    rw [if_pos rfl, if_neg h]
    exact (goesOn_ne_cancelled s _ info _).symm
  | false =>
    rw [hv] at h
    rw [if_neg Bool.false_ne_true, if_pos (Bool.eq_true_of_not_eq_false h)]
    exact goesOn_ne_cancelled s _ info _

/-- Where a successor is submitted, the toy runtime cancels or does as the preparation says. -/
theorem verdict_ne_toy {t : Time} (hc : s.chapterCount ≤ 1) (hs : s.schedule = some info)
    (hsub : s.Submits B info t) {x : Option Bool}
    (h : x ≠ (Backend.sqlite.prepareJob L T s (s.successor .sqlite info t)).toOption.map (!·)) :
    x.map .ok ≠ (Backend.toy.decide L B T s).verdict := by
  cases hv : scheduleFailurePolicyViolated (s.bits info (Backend.toy.readsSuccess s.previous))
      info.failurePolicy with
  | true =>
    rw [decide_open .toy hc hs hsub.current hsub.notEnded, if_pos hv]
    intro he
    obtain ⟨_, -, he⟩ := Option.map_eq_some_iff.1 he
    cases he
  | false =>
    rw [verdict_submits .toy hc hs hsub hv, submitOccurrence_toOption (by decide), prepareJob_toy]
    exact fun he => h (Option.map_injective (fun _ _ => Except.ok.inj) he)

/-- The core runtime finds the successor's ID otherwise than the others. -/
theorem differs_of_prepared {t : Time} (hc : s.chapterCount ≤ 1) (hs : s.schedule = some info)
    (hsub : s.Submits B info t)
    (h : (Backend.core.prepareJob L T s (s.successor .core info t)).toOption ≠
      (Backend.sqlite.prepareJob L T s (s.successor .sqlite info t)).toOption) :
    (Backend.core.decide L B T s).verdict ≠ (Backend.toy.decide L B T s).verdict := by
  have hpasses := hsub.passes
  rw [← readsSuccess_core] at hpasses
  rw [verdict_submits .core hc hs hsub hpasses, submitOccurrence_toOption (by decide)]
  exact verdict_ne_toy hc hs hsub fun he =>
    h (Option.map_injective (fun _ _ => Bool.not_inj) he)

/-- The comparisons of the SQLite runtime refuse a successor that the toy runtime takes for
there. -/
theorem differs_of_compared {t : Time} {job : StoredJob} (hc : s.chapterCount ≤ 1)
    (hs : s.schedule = some info) (hsub : s.Submits B info t)
    (htaken : s.jobs (s.successor .sqlite info t).key = some job)
    (hprepared : Backend.sqlite.prepareJob L T s (s.successor .sqlite info t) = .ok true)
    (h : Sqlite.compareStored T (s.successor .sqlite info t) job ≠ .ok ()) :
    (Backend.sqlite.decide L B T s).verdict ≠ (Backend.toy.decide L B T s).verdict := by
  have hrefused : (Backend.sqlite.submitOccurrence L T s (s.successor .sqlite info t)).toOption =
      none := by
    unfold Backend.submitOccurrence
    rw [hprepared, htaken]
    show (Sqlite.compareStored T _ job >>= fun _ => _).toOption = none
    cases hcompare : Sqlite.compareStored T (s.successor .sqlite info t) job with
    | ok u => exact absurd hcompare h
    | error e => rfl
  rw [verdict_submits .sqlite hc hs hsub hsub.passes, hrefused]
  refine verdict_ne_toy hc hs hsub ?_
  rw [hprepared]
  exact Option.some_ne_none _ |>.symm

/-- Outside these situations every runtime submits a successor with the same result. -/
theorem submitOccurrence_agree {t : Time} (hsub : s.Submits B info t) (h : ¬ s.Differs L B T info)
    (b : Backend) :
    (b.submitOccurrence L T s (s.successor b info t)).toOption =
      (Backend.sqlite.prepareJob L T s (s.successor .sqlite info t)).toOption.map (!·) := by
  cases b with
  | core =>
    rw [submitOccurrence_toOption (by decide)]
    by_contra hne
    exact h (.prepared hsub fun he => hne (he ▸ rfl))
  | toy => rw [submitOccurrence_toOption (by decide), prepareJob_toy]
  | sqlite =>
    unfold Backend.submitOccurrence
    cases hprepare : Backend.sqlite.prepareJob L T s (s.successor .sqlite info t) with
    | error e => rfl
    | ok published =>
      have hpublished := prepareJob_published hprepare
      cases htaken : s.jobs (s.successor .sqlite info t).key with
      | none => rfl
      | some job =>
        have hcompare : Sqlite.compareStored T (s.successor .sqlite info t) job = .ok () := by
          by_contra hne
          rw [htaken] at hpublished
          subst hpublished
          exact h (.compared hsub htaken hprepare hne)
        show (Sqlite.compareStored T _ job >>= fun _ => _).toOption = _
        rw [hcompare]
        rfl

/-- Outside these situations every runtime decides as the SQLite runtime does. -/
theorem verdict_eq_sqlite (hc : s.chapterCount ≤ 1) (hs : s.schedule = some info)
    (h : ¬ s.Differs L B T info) (b : Backend) :
    (b.decide L B T s).verdict = (Backend.sqlite.decide L B T s).verdict := by
  by_cases hcur : info.Current s.occurrence
  · have hend : info.endsBefore s.occurrence = false := by
      cases he : info.endsBefore s.occurrence with
      | false => rfl
      | true => exact absurd (.ended hcur he) h
    have hviolated : scheduleFailurePolicyViolated (s.bits info (b.readsSuccess s.previous))
        info.failurePolicy = scheduleFailurePolicyViolated
          (s.bits info (Backend.sqlite.readsSuccess s.previous)) info.failurePolicy := by
      by_cases hf : s.previous.Failed
      · -- then the policy says the same of a success and of a failure
        have hsame : ∀ v : Bool, scheduleFailurePolicyViolated (s.bits info v) info.failurePolicy =
            scheduleFailurePolicyViolated (s.bits info true) info.failurePolicy := by
          intro v
          cases v with
          | true => rfl
          | false =>
            by_contra hne
            exact h (.previous hcur hend hf hne)
        rw [hsame, hsame (Backend.sqlite.readsSuccess s.previous)]
      · rw [readsSuccess_eq b hf]
    rw [decide_open b hc hs hcur hend, decide_open .sqlite hc hs hcur hend, hviolated]
    cases hv : scheduleFailurePolicyViolated
        (s.bits info (Backend.sqlite.readsSuccess s.previous)) info.failurePolicy with
    | true => rfl
    | false =>
      rw [if_neg Bool.false_ne_true, if_neg Bool.false_ne_true]
      cases hfire : nextScheduleFire B info.trigger s.now with
      | error e =>
        unfold Situation.goesOn
        rw [hfire]
      | ok next =>
        cases next with
        | none =>
          unfold Situation.goesOn
          rw [hfire]
        | some t =>
          have hagree := submitOccurrence_agree ⟨hcur, hend, hv, hfire⟩ h
          rw [verdict_goesOn b hfire, verdict_goesOn .sqlite hfire, hagree b, hagree .sqlite]
  · obtain ⟨reason, hall⟩ := decide_not_current (L := L) (B := B) (T := T) hc hs
      (fun hr => h (.repoPause hr)) hcur
    rw [hall, hall]

end Compare

/-! ### Four occurrences -/

/-- A schedule that fires every second and stops after two failures in a row. -/
def twoFailures : ScheduleInfo where
  key := ⟨"tenant", "backup"⟩
  state := .active
  generation := 1
  specHash := "spec"
  trigger := { kind := .interval, interval := 1000000000 }
  target := { cell := "main", cellID := "c1", cellRepo := "host/repo", jobType := "job",
              data := some { data := "" } }
  overlapPolicy := .serial
  failurePolicy := { maxSequentialFailures := 2 }
  nextFireAt := none
  nextJobID := none
  createdAt := 0
  updatedAt := 0

/-- A library that takes every text as it is; no metadata are the empty object. -/
def TargetLib.plain : TargetLib where
  fingerprint data := (data.map (·.data)).getD ""
  canonicalRaw := id
  canonicalUpdate := id
  inputHash data := (data.map (·.data)).getD ""
  initialDigest update := ((update.bind (·.value)).getD "")
  mergeOccurrence app occ := app ++ occ.previousJobId
  sameMetadata a b := Sqlite.metadataForStartChapter a = Sqlite.metadataForStartChapter b

/-- The job that each runtime stores for an occurrence. -/
def StoredJob.ofOccurrence (o : ScheduledJob) (cell : ResolvedCell) : StoredJob :=
  let T := TargetLib.plain
  let digest := T.initialDigest o.target.clientPayloadUpdate
  { coreDescriptor := T.descriptor (Backend.core.request o)
    descriptor := T.descriptor (Backend.sqlite.request o)
    start := ((T.expectation o).start o.target.data "" digest 0).envelope
    row :=
      { cell := cell, goalID := "", tenantID := o.key.tenantId, jobID := o.key.jobId,
        jobType := o.target.jobType, nextRoute := { jobType := o.target.jobType },
        metadata := T.mergeOccurrence o.target.metadata o.occurrence,
        initialPayloadDigest := digest, availableAtNS := Sqlite.timeToNS o.availableAt,
        createdAtNS := 0, updatedAtNS := 0 } }

/-- The schedule's run at the sixth second, after another occurrence. -/
def sixthSecond (previousJobID : String) : ScheduledJob :=
  Sqlite.variant.occurrenceAt twoFailures 6000000000 previousJobID ""

/-- Its occurrence at the fifth second, with the schedule's row as it is then; the job before it has
ended. -/
def fifthSecond (info : ScheduleInfo) (h : info.pauseReason = "cell_repo_mismatch" →
    info.state = .paused ∨ info.state = .archived) (previous : Ending) (bits : String)
    (jobs : JobKey → Option StoredJob := fun _ => none) : Situation where
  schedule := some info
  stopped := fun _ hs => Option.some.inj hs ▸ h
  job := ⟨"tenant", "run5"⟩
  occurrence :=
    { scheduleId := "backup", generation := 1, specHash := "spec", scheduledAt := 5000000000,
      runId := "", manual := false, previousJobId := "run4", failureHistory := { bits := bits } }
  submitted :=
    ⟨⟨(by decide : "backup" ≠ ""), (by decide : (0 : Int) < 1), (by decide : "spec" ≠ ""),
    (by decide : (5000000000 : Time) ≠ Time.zero)⟩,
    (by decide +kernel : ScheduleKey.validate ⟨"tenant", "backup"⟩ = .ok ())⟩
  chapterCount := 1
  previous := .ended previous
  jobs := jobs
  cells := mainCell
  ctx := .admin
  now := 5000000000

end JobDB
