import JobDB.Toy.Engine

/-!
# Restarts in memory

`SubmitRestartJob` of the in-process runtime (`toyimpl/runtime.go`), with `ListChapters` and
`OpenArtifact`, through which a job's log and its artifacts are seen.

A restart copies the chapters up to `LastStepToKeep` into the map of the new job. The bytes of
artifacts are in a map of their own, under the key of the job that wrote them, and are not
copied; and the output that a request may bring along is written nowhere. `restart_matches_iff`
says which restarts come out as specified all the same.
-/

namespace JobDB.Toy

/-! ## Reading chapters and artifacts -/

namespace ToyEngine

variable (e : ToyEngine)

/-- `requirePublishedJob`. -/
def requirePublishedJob (key : JobKey) : Except Err Unit :=
  demand .jobNotFound ((e.record key).isSome = true)

/-- The map of a job's chapters. -/
def chaptersOf (key : JobKey) : Except Err (Table Int Chapter) :=
  match e.runtimeChapters.lookup key with
  | none => .error .jobNotFound
  | some chapters => .ok chapters

/-- The chapters of a map in the range of ordinals. -/
def inRange (start : Int) (stop : Option Int) (chapters : Table Int Chapter) : List Chapter :=
  (chapters.sorted.filter fun r => decide (start ≤ r.1) && stop.all (r.1 ≤ ·)).map (·.2)

/-- `ListChapters`. -/
def listChapters (key : JobKey) (start : Int) (stop : Option Int) : Except Err (List Chapter) := do
  e.requirePublishedJob key
  demand (.invalid "start ordinal must be >= 0") (0 ≤ start)
  let chapters ← e.chaptersOf key
  .ok (inRange start stop chapters)

/-- `OpenArtifact`. -/
def openArtifact (key : JobKey) (ordinal : Int) (name : String) : Except Err String := do
  e.requirePublishedJob key
  match e.runtimeArtifacts.lookup ⟨key, ordinal, name⟩ with
  | none => .error (.invalid ("artifact " ++ name ++ " not found for job " ++ key.jobId ++
      " ordinal " ++ ordinal.repr))
  | some bytes => .ok bytes

end ToyEngine

/-! ## The restart -/

/-- What restarts in memory take from elsewhere. -/
structure RestartLib where
  /-- `ResolveExecutionRestart` for a logical boundary, over the source's chapters: the request
  with the place to cut, and the JSON text of the restart record. -/
  resolveExecutionRestart : List Chapter → SubmitRestartJob → Except Err (SubmitRestartJob × String)
  /-- `PrimeSchema`. -/
  primeSchema : String → String → Except Err Unit
  /-- `extractAttemptFromMetadata` and `extractRunPolicyFromMetadata`. -/
  attempt : String → Except Err Int
  runPolicy : String → Except Err RunPolicy

/-- What a restart puts into the record, once the request is checked. -/
structure RestartDraft where
  job : SubmitRestartJob
  /-- The text of the restart record, for a logical boundary. -/
  record : Option String
  schemaHash : String
  metadata : String
  payload : Option String × Int
  digest : String

/-- The key of the new job. -/
def RestartDraft.key (q : RestartDraft) : JobKey := ⟨q.job.priorJobKey.tenantId, q.job.jobID⟩

section Restart

variable (L : CellLib) (H : Host) (F : SubmitLib) (R : RestartLib)

/-- `taskDataFromChapter`, as far as it fails: an outcome that is an error is returned as one. -/
def taskDataFromChapter (ch : Chapter) : Except Err Unit :=
  match ch.body with
  | .jobAttemptOutcome outcome | .taskAttemptOutcome outcome =>
    match outcome with
    | .applicationOutput _ => .ok ()
    | .appError err => .error (.invalid err.message)
    | .systemError message _ _ _ => .error (.invalid message)
    | .timeout data _ => .error (.invalid data)
  | _ => .ok ()

/-- The task type that the error about a retry chain names. -/
def retriedType (source : Table Int Chapter) (next : Chapter) : String :=
  if next.taskType = "" then ((source.lookup 0).map (·.taskType)).getD "" else next.taskType

/-- The chapter after the kept ones is there, and is the first attempt of its step. -/
def checkBoundary (q : RestartDraft) (source : Table Int Chapter) : Except Err Unit :=
  match source.lookup (q.job.lastStepToKeep + 1) with
  | none => .error (.invalid ("LastStepToKeep " ++ q.job.lastStepToKeep.repr ++
      " invalid: no chapter at ordinal " ++ (q.job.lastStepToKeep + 1).repr))
  | some next => do
    let attempt ← R.attempt next.metadata
    demand (.invalid ("LastStepToKeep " ++ q.job.lastStepToKeep.repr ++
        " cuts into retry chain: next ordinal " ++ (q.job.lastStepToKeep + 1).repr ++
        " is attempt " ++ attempt.repr ++ " of " ++ retriedType source next))
      (q.record.isSome = true ∨ attempt ≤ 1)

/-- The chapter of a restart at a logical boundary. -/
def executionChapter (q : RestartDraft) (raw : String) : Chapter where
  ordinal := q.job.lastStepToKeep + 1
  taskType := "__execution__"
  body := .execution raw

/-- `targetChapters`. -/
def targetChapters (q : RestartDraft) (source : Table Int Chapter) : Table Int Chapter :=
  match q.record with
  | none => source.filterKeys (· ≤ q.job.lastStepToKeep)
  | some raw => (source.filterKeys (· ≤ q.job.lastStepToKeep)).insert
      (q.job.lastStepToKeep + 1) (executionChapter q raw)

/-- The restart record is validated; inherited chapters are not new writes. -/
def checkExecutionChapter (q : RestartDraft) : Except Err Unit :=
  match q.record with
  | none => .ok ()
  | some raw =>
    F.validateOrdinaryChapter q.key.tenantId q.schemaHash (executionChapter q raw)

/-- One ordinal of the comparison with a job that exists. -/
def sameRestartChapter (key : JobKey) (expected existing : Table Int Chapter) (ordinal : Int) :
    Except Err Unit :=
  match expected.lookup ordinal with
  | none => .error (.existingJobMismatch ("job " ++ key.text ++
      " is missing expected restart chapter " ++ ordinal.repr))
  | some want => demand (.existingJobMismatch ("job " ++ key.text ++
      " already exists with different restart history at ordinal " ++ ordinal.repr))
    (existing.lookup ordinal = some want)

/-- The chapter of a logical boundary is the same. -/
def sameExecutionChapter (q : RestartDraft) (expected existing : Table Int Chapter) :
    Except Err Unit :=
  if q.job.executionRestart.isNone then .ok ()
  else demand (.existingJobMismatch "execution restart payload differs")
    ((existing.lookup (q.job.lastStepToKeep + 1)).map (·.body) =
      (expected.lookup (q.job.lastStepToKeep + 1)).map (·.body))

/-- The chapter is a restart-extra chapter. -/
def isRestartExtra (ch : Chapter) : Bool :=
  match ch.body with
  | .restartExtra _ => true
  | _ => false

/-- `existingEquivalentRestartJob`: the handle of a job that is there already. -/
def existingEquivalentRestartJob (q : RestartDraft) (expected : Table Int Chapter)
    (e : ToyEngine) : Except Err (Option JobHandle) :=
  match e.record q.key with
  | none => .ok none
  | some r => do
    demand (.existingJobMismatch "initial client payload differs") (r.initialPayloadDigest =
      q.digest)
    demand (.existingJobMismatch ("job " ++ q.key.text ++
      " already exists with different metadata"))
      (r.metadata = q.metadata)
    match e.runtimeChapters.lookup q.key with
    | none => .error (.existingJobMismatch ("job " ++ q.key.text ++
        " already exists without runtime chapters"))
    | some existing => do
      ((List.range (q.job.lastStepToKeep + 1).toNat).map Int.ofNat).forM
        (sameRestartChapter q.key expected existing)
      sameExecutionChapter q expected existing
      demand (.existingJobMismatch ("job " ++ q.key.text ++
          " already exists with restart extra output that was not requested"))
        (q.job.extraTaskOutput.isSome = true ∨
          ((existing.lookup (q.job.lastStepToKeep + 1)).any isRestartExtra) = false)
      .ok (some (r.cell.handle q.key r.goalID))

/-- The record of a restarted job, before it is published. -/
def restartRecord (q : RestartDraft) (first : Chapter) (policy : RunPolicy) (now : Time) :
    JobRecord where
  cell := ⟨"", "", ""⟩
  goalID := ""
  clientPayload := q.payload.1
  clientPayloadRevision := q.payload.2
  initialPayloadDigest := q.digest
  status := .ready
  jobType := first.taskType
  createdAt := now
  metadata := q.metadata
  payload := { runPolicy := policy }
  route := { jobType := first.taskType }
  availableAt := now

/-- A restart that finds no job under its key. -/
def publishRestart (ctx : Ctx) (q : RestartDraft) (target : Table Int Chapter) (first : Chapter) :
    Tx ToyEngine Err JobHandle := do
  let policy ← Tx.read fun _ => R.runPolicy first.metadata
  let now ← Tx.read fun e => .ok e.now
  Tx.read fun _ => (target.rows.map (·.2)).forM taskDataFromChapter
  let r ← publishGoalTx L ctx q.key (restartRecord q first policy now)
  Tx.write fun e => .ok { e with runtimeChapters := e.runtimeChapters.insert q.key target }
  pure (r.cell.handle q.key r.goalID)

/-- A restart that may find the job there already. -/
def finishRestart (ctx : Ctx) (q : RestartDraft) (target : Table Int Chapter) (first : Chapter) :
    Option JobHandle → Tx ToyEngine Err JobHandle
  | some handle => pure handle
  | none => publishRestart L R ctx q target first

/-- The first chapter of a map. -/
def firstChapter (target : Table Int Chapter) : Except Err Chapter :=
  match target.lookup 0 with
  | none => .error .jobNotFound
  | some first => .ok first

/-- The part of `submitRestartJobWithParent` that holds the mutex. -/
def restartTx (ctx : Ctx) (q : RestartDraft) : Tx ToyEngine Err JobHandle := do
  let source ← Tx.read fun e => e.chaptersOf q.job.priorJobKey
  Tx.read fun _ => checkBoundary R q source
  let first ← Tx.read fun _ => firstChapter (targetChapters q source)
  Tx.read fun _ => checkExecutionChapter F q
  let found ← Tx.read (existingEquivalentRestartJob q (targetChapters q source))
  finishRestart L R ctx q (targetChapters q source) first found

/-- The request with its place resolved, and the restart record of a logical boundary. -/
def resolveRestart (job : SubmitRestartJob) :
    Call ToyEngine Err (SubmitRestartJob × Option String) :=
  if job.executionRestart.isNone then pure (job, none)
  else Call.query fun e => do
    let log ← e.listChapters job.priorJobKey 0 none
    let resolved ← R.resolveExecutionRestart log job
    .ok (resolved.1, some resolved.2)

/-- The record of the job that is restarted. -/
def priorRecord (job : SubmitRestartJob) (e : ToyEngine) : Except Err JobRecord :=
  match e.record job.priorJobKey with
  | none => .error .jobNotFound
  | some prior => .ok prior

/-- The checks before the record is looked up: the client payload and its digest. -/
def restartPayload (job : SubmitRestartJob) : Except Err ((Option String × Int) × String) := do
  let payload ← H.initialPayload job.clientPayloadUpdate
  let digest ← F.digest payload.1
  demand (.invalid "LastStepToKeep must be >= 0 for restart") (0 ≤ job.lastStepToKeep)
  .ok (payload, digest)

/-- The checks between the record and the locked part. -/
def draftRestart (parent : String) (job : SubmitRestartJob) (record : Option String)
    (payload : (Option String × Int) × String) (prior : JobRecord) : Except Err RestartDraft := do
  JobKey.validate ⟨job.priorJobKey.tenantId, job.jobID⟩
  let schemaHash ← F.resolveSchema job.priorJobKey.tenantId job.schema
  let metadata ← F.buildMetadata (F.appMetadata prior.metadata) schemaHash parent
  R.primeSchema job.priorJobKey.tenantId schemaHash
  .ok ⟨job, record, schemaHash, metadata, payload.1, payload.2⟩

/-- A restart from its preparation on. -/
def restartPrepared (ctx : Ctx) (parent : String) (job : SubmitRestartJob) (r : Prepared) :
    Call ToyEngine Err JobHandle :=
  if r.published then pure (r.target.handle r.key r.goalID)
  else do
    let resolved ← resolveRestart R { job with jobID := r.key.jobId }
    let payload ← Call.check (restartPayload H F resolved.1)
    let prior ← Call.query (priorRecord resolved.1)
    let q ← Call.check (draftRestart F R parent resolved.1 resolved.2 payload prior)
    Call.tx (restartTx L F R ctx q)

/-- `submitRestartJobWithParent`. -/
def submitRestartJob (ctx : Ctx) (requestID parent : String) (job : SubmitRestartJob) :
    Call ToyEngine Err JobHandle := do
  Call.check (F.validateRestart job)
  let req ← Call.check (F.prepare.restartPreparation requestID job parent)
  let r ← Call.tx (prepareJobTx L H ctx req)
  discardOnError r.key (restartPrepared L H F R ctx parent job r)

end Restart

/-! ## What a restart writes -/

section Effect

variable {L : CellLib} {H : Host} {F : SubmitLib} {R : RestartLib} {ctx : Ctx}

/-- The new job has the chapters of the source up to the last to keep; nothing is written to the
artifacts. -/
structure Restarted (job : SubmitRestartJob) (key : JobKey) (e e' : ToyEngine) : Prop where
  nonneg : 0 ≤ job.lastStepToKeep
  prior : (e.record job.priorJobKey).isSome = true
  record : (e'.record key).isSome = true
  chapters : ∃ source, e.runtimeChapters.lookup job.priorJobKey = some source ∧
    e'.runtimeChapters.lookup key = some (source.filterKeys (· ≤ job.lastStepToKeep))
  artifacts : e'.runtimeArtifacts = e.runtimeArtifacts

variable {e e' : ToyEngine} {job : SubmitRestartJob}

theorem chaptersOf_eq_ok {key : JobKey} {chapters : Table Int Chapter} :
    e.chaptersOf key = .ok chapters ↔ e.runtimeChapters.lookup key = some chapters := by
  unfold ToyEngine.chaptersOf
  cases e.runtimeChapters.lookup key with
  | none => simp
  | some c => simp

theorem publishRestart_spec {q : RestartDraft} {target : Table Int Chapter} {first : Chapter}
    {handle : JobHandle} (h : publishRestart L R ctx q target first e = .ok (handle, e')) :
    handle.jobKey = q.key ∧ (e'.record q.key).isSome = true ∧
      e'.runtimeChapters.lookup q.key = some target ∧
      e'.runtimeArtifacts = e.runtimeArtifacts := by
  obtain ⟨policy, -, h⟩ := Tx.read_bind_eq_ok.1 h
  obtain ⟨now, -, h⟩ := Tx.read_bind_eq_ok.1 h
  obtain ⟨_, -, h⟩ := Tx.read_bind_eq_ok.1 h
  obtain ⟨r, e₁, hpublish, h⟩ := Tx.bind_eq_ok.1 h
  obtain ⟨_, hwrite, rfl⟩ := Tx.bind_pure_eq_ok.1 h
  have hspec := publishGoalTx_spec hpublish
  have he' : e' = { e₁ with runtimeChapters := e₁.runtimeChapters.insert q.key target } :=
    (Except.ok.inj (Tx.write_eq_ok.1 hwrite)).symm
  subst he'
  refine ⟨rfl, ?_, AList.lookup_insert _, hspec.artifacts⟩
  show (e₁.jobs.jobRecords.lookup q.key).isSome = true
  rw [hspec.records, AList.lookup_insert]
  rfl

/-- The locked part, for a job that is not there yet and a boundary given by its ordinal. -/
theorem restartTx_spec {q : RestartDraft} {handle : JobHandle}
    (h : restartTx L F R ctx q e = .ok (handle, e')) (hrecord : q.record = none)
    (hnew : e.record handle.jobKey = none) :
    handle.jobKey = q.key ∧ (e'.record q.key).isSome = true ∧
      (∃ source, e.runtimeChapters.lookup q.job.priorJobKey = some source ∧
        e'.runtimeChapters.lookup q.key = some (source.filterKeys (· ≤ q.job.lastStepToKeep))) ∧
      e'.runtimeArtifacts = e.runtimeArtifacts := by
  obtain ⟨source, hsource, h⟩ := Tx.read_bind_eq_ok.1 h
  obtain ⟨_, -, h⟩ := Tx.read_bind_eq_ok.1 h
  obtain ⟨first, -, h⟩ := Tx.read_bind_eq_ok.1 h
  obtain ⟨_, -, h⟩ := Tx.read_bind_eq_ok.1 h
  obtain ⟨found, hfound, h⟩ := Tx.read_bind_eq_ok.1 h
  have htarget : targetChapters q source = source.filterKeys (· ≤ q.job.lastStepToKeep) := by
    unfold targetChapters
    rw [hrecord]
  cases found with
  | none =>
    obtain ⟨hkey, hin, hchapters, hartifacts⟩ := publishRestart_spec h
    rw [htarget] at hchapters
    exact ⟨hkey, hin, ⟨source, chaptersOf_eq_ok.1 hsource, hchapters⟩, hartifacts⟩
  | some existing =>
    -- a job that was found has a record under the key of the handle
    exfalso
    obtain ⟨rfl, -⟩ := Tx.pure_eq_ok.1 h
    unfold existingEquivalentRestartJob at hfound
    split at hfound
    · cases hfound
    next r hr =>
    obtain ⟨_, -, hfound⟩ := bind_eq_ok.1 hfound
    obtain ⟨_, -, hfound⟩ := bind_eq_ok.1 hfound
    split at hfound
    · cases hfound
    obtain ⟨_, -, hfound⟩ := bind_eq_ok.1 hfound
    obtain ⟨_, -, hfound⟩ := bind_eq_ok.1 hfound
    obtain ⟨_, -, hfound⟩ := bind_eq_ok.1 hfound
    obtain rfl := Option.some.inj (Except.ok.inj hfound)
    have hsome : e.record q.key = none := hnew
    rw [hr] at hsome
    cases hsome

/-- A preparation that says that the job is published has found its record. -/
theorem prepareJobTx_published {req : Preparation} {r : Prepared}
    (h : prepareJobTx L H ctx req e = .ok (r, e')) (hp : r.published = true) :
    (e.record r.key).isSome = true := by
  obtain ⟨req', -, h⟩ := Tx.read_bind_eq_ok.1 h
  obtain ⟨target, -, h⟩ := Tx.read_bind_eq_ok.1 h
  obtain ⟨found, -, h⟩ := Tx.read_bind_eq_ok.1 h
  cases found with
  | some old =>
    obtain ⟨h, -⟩ := Tx.read_eq_ok.1 h
    unfold confirmPreparation at h
    split at h
    · cases h
    split at h
    · cases h
    obtain rfl := Except.ok.inj h
    exact hp
  | none =>
    obtain ⟨jobID, _, -, h⟩ := Tx.bind_eq_ok.1 h
    obtain ⟨_, -, h⟩ := Tx.read_bind_eq_ok.1 h
    obtain ⟨fresh, _, -, h⟩ := Tx.bind_eq_ok.1 h
    obtain ⟨goalID, -, h⟩ := Tx.read_bind_eq_ok.1 h
    obtain ⟨_, -, rfl⟩ := Tx.bind_pure_eq_ok.1 h
    cases hp

/-- The answer of a restart that makes a new job, and the engine it leaves. -/
def MakesJob (job : SubmitRestartJob) (e : ToyEngine) (answer : Except Err JobHandle)
    (e' : ToyEngine) : Prop :=
  ∀ handle, answer = .ok handle → e.record handle.jobKey = none →
    Restarted job handle.jobKey e e'

theorem makesJob_error (err : Err) : MakesJob job e (.error err) e' := by
  intro handle h
  cases h

theorem restartPrepared_makesJob {parent : String} {r : Prepared} {e₁ : ToyEngine}
    (hsame : e.SameJobs e₁) (hkind : job.executionRestart = none)
    (hpublished : r.published = true → (e.record r.key).isSome = true) :
    Proc.Solo (MakesJob job e) (restartPrepared L H F R ctx parent job r) e₁ := by
  have hrecord : ∀ k, e₁.record k = e.record k := fun k => by
    unfold ToyEngine.record
    rw [hsame.jobs]
  unfold restartPrepared
  by_cases hp : r.published = true
  · rw [if_pos hp]
    refine Call.solo_pure fun handle hok hnew => ?_
    obtain rfl := Except.ok.inj hok
    have hsome := hpublished hp
    have hnone : e.record r.key = none := hnew
    rw [hnone] at hsome
    cases hsome
  rw [if_neg hp]
  have hresolve : resolveRestart R { job with jobID := r.key.jobId } =
      pure ({ job with jobID := r.key.jobId }, none) := by
    unfold resolveRestart
    rw [if_pos (by rw [hkind]; rfl)]
  rw [hresolve]
  show Proc.Solo _ (Call.check (restartPayload H F { job with jobID := r.key.jobId }) >>= _ :
    Call ToyEngine Err JobHandle) e₁
  refine Call.solo_check_bind (fun err _ => makesJob_error err) fun payload hpayload => ?_
  refine Call.solo_query_bind (fun err _ => makesJob_error err) fun prior hprior => ?_
  refine Call.solo_check_bind (fun err _ => makesJob_error err) fun q hq => ?_
  refine Call.solo_tx (fun err _ => makesJob_error err) fun handle e' htx => ?_
  intro handle' hok hnew
  obtain rfl := Except.ok.inj hok
  -- the draft is made of the request
  obtain ⟨_, -, hq⟩ := bind_eq_ok.1 hq
  obtain ⟨schemaHash, -, hq⟩ := bind_eq_ok.1 hq
  obtain ⟨metadata, -, hq⟩ := bind_eq_ok.1 hq
  obtain ⟨_, -, rfl⟩ := map_eq_ok.1 hq
  obtain ⟨_, -, hpayload⟩ := bind_eq_ok.1 hpayload
  obtain ⟨_, -, hpayload⟩ := bind_eq_ok.1 hpayload
  obtain ⟨_, hnonneg, -⟩ := bind_eq_ok.1 hpayload
  obtain ⟨hkey, hin, ⟨source, hsource, hchapters⟩, hartifacts⟩ :=
    restartTx_spec htx rfl ((hrecord _).trans hnew)
  rw [hkey]
  refine ⟨demand_eq_ok.1 hnonneg, ?_, hin, ⟨source, ?_, hchapters⟩,
    hartifacts.trans hsame.artifacts⟩
  · rw [← hrecord]
    unfold priorRecord at hprior
    cases hlookup : e₁.record job.priorJobKey with
    | none =>
      have hnone : e₁.record ({ job with jobID := r.key.jobId }).priorJobKey = none := hlookup
      rw [hnone] at hprior
      cases hprior
    | some _ => rfl
  · rw [← hsame.chapters]
    exact hsource

/-- **What a restart writes.** -/
theorem submitRestartJob_makesJob {requestID parent : String} (e : ToyEngine)
    (hkind : job.executionRestart = none) :
    Proc.Solo (MakesJob job e)
      (submitRestartJob L H F R ctx requestID parent job) e := by
  refine Call.solo_check_bind (fun err _ => makesJob_error err) fun _ _ => ?_
  refine Call.solo_check_bind (fun err _ => makesJob_error err) fun req _ => ?_
  refine Call.solo_tx_bind (fun err _ => makesJob_error err) fun r e₁ hprepare => ?_
  have hsame : e.SameJobs e₁ := prepareJobTx_sameJobs req hprepare
  refine Call.solo_recover
    (restartPrepared_makesJob hsame hkind (prepareJobTx_published hprepare))
    (fun _ _ h => h) fun err e₂ _ => ?_
  refine Call.solo_tx_bind (fun err _ => makesJob_error err) fun _ _ _ => ?_
  exact Call.solo_check (makesJob_error err)

end Effect

/-! ## The specification of a restart -/

/-- The chapter that the request adds behind the kept ones, if it brings an output. -/
def RestartExtra (job : SubmitRestartJob) (extra : List Chapter) : Prop :=
  match job.extraTaskOutput with
  | none => extra = []
  | some out => ∃ ch, extra = [ch] ∧ ch.ordinal = job.lastStepToKeep + 1 ∧
      ch.body = .restartExtra out.data

/-- The new job's log is the kept chapters and the extra one; and what can be opened of the
artifacts of a kept chapter through the source can be opened through the new job. -/
structure RestartMatches (job : SubmitRestartJob) (key : JobKey) (e e' : ToyEngine) : Prop where
  log : ∃ kept extra,
    e.listChapters job.priorJobKey 0 (some job.lastStepToKeep) = .ok kept ∧
      e'.listChapters key 0 none = .ok (kept ++ extra) ∧ RestartExtra job extra
  artifacts : ∀ kept, e.listChapters job.priorJobKey 0 (some job.lastStepToKeep) = .ok kept →
    ∀ ch ∈ kept, ∀ a ∈ ch.artifacts, ∀ bytes,
      e.openArtifact job.priorJobKey ch.ordinal a.name = .ok bytes →
        e'.openArtifact key ch.ordinal a.name = .ok bytes

/-- Each artifact that a kept chapter refers to is stored under the new job's key as well. -/
def ArtifactsInPlace (job : SubmitRestartJob) (key : JobKey) (e : ToyEngine) : Prop :=
  ∀ source ordinal ch, e.runtimeChapters.lookup job.priorJobKey = some source →
    source.lookup ordinal = some ch → 0 ≤ ordinal → ordinal ≤ job.lastStepToKeep →
      ∀ a ∈ ch.artifacts, ∀ bytes,
        e.runtimeArtifacts.lookup ⟨job.priorJobKey, ch.ordinal, a.name⟩ = some bytes →
          e.runtimeArtifacts.lookup ⟨key, ch.ordinal, a.name⟩ = some bytes

section Spec

variable {e e' : ToyEngine} {key : JobKey} {job : SubmitRestartJob}

theorem listChapters_eq {source : Table Int Chapter} (hrecord : (e.record key).isSome = true)
    (hsource : e.runtimeChapters.lookup key = some source) (stop : Option Int) :
    e.listChapters key 0 stop = .ok (ToyEngine.inRange 0 stop source) := by
  refine bind_eq_ok.2 ⟨(), demand_eq_ok.2 hrecord, ?_⟩
  refine bind_eq_ok.2 ⟨(), demand_eq_ok.2 (Int.le_refl 0), ?_⟩
  exact bind_eq_ok.2 ⟨source, chaptersOf_eq_ok.2 hsource, rfl⟩

theorem openArtifact_eq_ok (hrecord : (e.record key).isSome = true) {ordinal : Int} {name : String}
    {bytes : String} : e.openArtifact key ordinal name = .ok bytes ↔
      e.runtimeArtifacts.lookup ⟨key, ordinal, name⟩ = some bytes := by
  have hdemand : e.requirePublishedJob key = .ok () := demand_eq_ok.2 hrecord
  unfold ToyEngine.openArtifact
  rw [hdemand]
  show (match e.runtimeArtifacts.lookup ⟨key, ordinal, name⟩ with
    | none => _
    | some bytes => _) = _ ↔ _
  cases e.runtimeArtifacts.lookup ⟨key, ordinal, name⟩ with
  | none => simp
  | some b => simp

/-- The kept chapters are what the new job's map lists. -/
theorem inRange_filterKeys (source : Table Int Chapter) (last : Int) :
    ToyEngine.inRange 0 none (source.filterKeys (· ≤ last)) =
      ToyEngine.inRange 0 (some last) source := by
  unfold ToyEngine.inRange
  rw [Table.sorted_filterKeys, List.filter_filter]
  congr 1
  refine List.filter_congr fun r _ => ?_
  simp

theorem mem_inRange {source : Table Int Chapter} {last : Int} {ch : Chapter} :
    ch ∈ ToyEngine.inRange 0 (some last) source ↔
      ∃ ordinal, source.lookup ordinal = some ch ∧ 0 ≤ ordinal ∧ ordinal ≤ last := by
  unfold ToyEngine.inRange
  constructor
  · intro h
    obtain ⟨⟨ordinal, ch'⟩, hmem, rfl⟩ := List.mem_map.1 h
    obtain ⟨hmem, hrange⟩ := List.mem_filter.1 hmem
    obtain ⟨hlow, hhigh⟩ : 0 ≤ ordinal ∧ ordinal ≤ last := by simpa using hrange
    exact ⟨ordinal, Table.mem_sorted.1 hmem, hlow, hhigh⟩
  · rintro ⟨ordinal, hlookup, hlow, hhigh⟩
    refine List.mem_map.2 ⟨(ordinal, ch), List.mem_filter.2 ⟨Table.mem_sorted.2 hlookup, ?_⟩, rfl⟩
    simpa using ⟨hlow, hhigh⟩

/-- The artifacts of the kept chapters can be opened through the new job if their bytes are in
place already. -/
theorem Restarted.artifacts_iff (h : Restarted job key e e') :
    (∀ kept, e.listChapters job.priorJobKey 0 (some job.lastStepToKeep) = .ok kept →
      ∀ ch ∈ kept, ∀ a ∈ ch.artifacts, ∀ bytes,
        e.openArtifact job.priorJobKey ch.ordinal a.name = .ok bytes →
          e'.openArtifact key ch.ordinal a.name = .ok bytes) ↔ ArtifactsInPlace job key e := by
  obtain ⟨source, hsource, hchapters⟩ := h.chapters
  have hkept := listChapters_eq h.prior hsource (some job.lastStepToKeep)
  constructor
  · intro hopen source' ordinal ch hsource' hch hlow hhigh a ha bytes hbytes
    obtain rfl : source = source' := Option.some.inj (hsource.symm.trans hsource')
    have hmem := mem_inRange.2 ⟨ordinal, hch, hlow, hhigh⟩
    have hnew := hopen _ hkept ch hmem a ha bytes ((openArtifact_eq_ok h.prior).2 hbytes)
    rw [openArtifact_eq_ok h.record, h.artifacts] at hnew
    exact hnew
  · intro hplace kept hkept' ch hch a ha bytes hbytes
    obtain rfl : _ = kept := Except.ok.inj (hkept.symm.trans hkept')
    obtain ⟨ordinal, hlookup, hlow, hhigh⟩ := mem_inRange.1 hch
    rw [openArtifact_eq_ok h.record, h.artifacts]
    exact hplace source ordinal ch hsource hlookup hlow hhigh a ha bytes
      ((openArtifact_eq_ok h.prior).1 hbytes)

/-- The new job's log is as specified if the request brings no output. -/
theorem Restarted.log_iff (h : Restarted job key e e') :
    (∃ kept extra, e.listChapters job.priorJobKey 0 (some job.lastStepToKeep) = .ok kept ∧
      e'.listChapters key 0 none = .ok (kept ++ extra) ∧ RestartExtra job extra) ↔
        job.extraTaskOutput = none := by
  obtain ⟨source, hsource, hchapters⟩ := h.chapters
  have hkept := listChapters_eq h.prior hsource (some job.lastStepToKeep)
  have hnew := listChapters_eq h.record hchapters none
  rw [inRange_filterKeys] at hnew
  constructor
  · rintro ⟨kept, extra, hkept', hnew', hextra⟩
    obtain rfl : _ = kept := Except.ok.inj (hkept.symm.trans hkept')
    -- the new log has no more chapters than the kept ones
    have hnil : extra = [] := List.self_eq_append_right.1 (Except.ok.inj (hnew.symm.trans hnew'))
    cases hout : job.extraTaskOutput with
    | none => rfl
    | some out =>
      unfold RestartExtra at hextra
      rw [hout] at hextra
      obtain ⟨ch, hch, -⟩ := hextra
      rw [hnil] at hch
      cases hch
  · intro hnone
    refine ⟨_, [], hkept, ?_, ?_⟩
    · rw [List.append_nil]
      exact hnew
    · unfold RestartExtra
      rw [hnone]

end Spec

/-- **Which restarts match their specification.** A restart at an ordinal that makes a new job
comes out as specified exactly if it brings no output and the bytes of the artifacts that it keeps
are in place under the new job's key. -/
theorem restart_matches_iff (L : CellLib) (H : Host) (F : SubmitLib) (R : RestartLib) (ctx : Ctx)
    (requestID parent : String) (job : SubmitRestartJob) (e e' : ToyEngine) (handle : JobHandle)
    (hkind : job.executionRestart = none)
    (hrun : Proc.alone (submitRestartJob L H F R ctx requestID parent job) e = (.ok handle, e'))
    (hnew : e.record handle.jobKey = none) :
    RestartMatches job handle.jobKey e e' ↔
      job.extraTaskOutput = none ∧ ArtifactsInPlace job handle.jobKey e := by
  have hsolo : Proc.Solo (MakesJob job e)
      (submitRestartJob L H F R ctx requestID parent job) e := submitRestartJob_makesJob e hkind
  have hmade := hsolo.answer
  rw [hrun] at hmade
  have h : Restarted job handle.jobKey e e' := hmade handle rfl hnew
  constructor
  · intro hmatches
    exact ⟨h.log_iff.1 hmatches.log, h.artifacts_iff.1 hmatches.artifacts⟩
  · rintro ⟨hout, hplace⟩
    exact ⟨h.log_iff.2 hout, h.artifacts_iff.2 hplace⟩

/-! A job with two chapters, the first of which may refer to an artifact. -/

/-- A library for restarts at ordinals: every chapter is a first attempt. -/
def RestartLib.plain : RestartLib where
  resolveExecutionRestart _ _ := .error (.invalid "execution restart boundary not found")
  primeSchema _ _ := .ok ()
  attempt _ := .ok 1
  runPolicy _ := .ok {}

/-- The job's first chapter. -/
def sourceStart (artifacts : List StoredArtifact) : Chapter where
  ordinal := 0
  taskType := "job"
  body := .jobStart "input"
  artifacts := artifacts

/-- Its cell. -/
def sourceCell : Cell where
  tenantID := "tenant"
  id := "c1"
  name := "main"
  repo := "host/repo"
  revision := "r"
  createdAt := 1
  updatedAt := 1

/-- The job `a` with the first chapter and a task's outcome behind it; it has stored the artifact
`in` of five bytes. -/
def sourceJob (artifacts : List StoredArtifact) : ToyEngine where
  jobs :=
    { jobRecords := (∅ : Table JobKey JobRecord).insert ⟨"tenant", "a"⟩
        { cell := ⟨"c1", "main", "host/repo"⟩, goalID := "g", status := .active, jobType := "job",
          createdAt := 1, route := { jobType := "job" } }
      cells := fun _ => { cells := (∅ : Table String Cell).insert "c1" sourceCell } }
  runtimeChapters := (∅ : Table JobKey (Table Int Chapter)).insert ⟨"tenant", "a"⟩
    (((∅ : Table Int Chapter).insert 0 (sourceStart artifacts)).insert 1
      { ordinal := 1, taskType := "task",
        body := .taskAttemptOutcome (.applicationOutput "output") })
  runtimeArtifacts := (∅ : Table ArtifactKey String).insert ⟨⟨"tenant", "a"⟩, 0, "in"⟩ "bytes"
  now := 2

/-- A restart of `a` as `b` that keeps the first chapter. -/
def keepFirst (output : Option TaskData) : SubmitRestartJob where
  cell := "main"
  priorJobKey := ⟨"tenant", "a"⟩
  lastStepToKeep := 0
  jobID := "b"
  extraTaskOutput := output

/-- The restart, by an administrator. -/
def restarted (output : Option TaskData) (artifacts : List StoredArtifact) :
    Except Err JobHandle × ToyEngine :=
  Proc.alone (submitRestartJob .plain .accepting .plain .plain .admin "" "" (keepFirst output))
    (sourceJob artifacts)

theorem restart_matches_without_artifacts :
    (restarted none []).1 = .ok ⟨⟨"tenant", "b"⟩, "x", ⟨"c1", "main", "host/repo"⟩⟩ ∧
      RestartMatches (keepFirst none) ⟨"tenant", "b"⟩ (sourceJob []) (restarted none []).2 := by
  have hanswer :
      (restarted none []).1 = .ok ⟨⟨"tenant", "b"⟩, "x", ⟨"c1", "main", "host/repo"⟩⟩ := by
    decide +kernel
  refine ⟨hanswer,
    (restart_matches_iff .plain .accepting .plain .plain .admin "" "" (keepFirst none)
    (sourceJob []) (restarted none []).2 ⟨⟨"tenant", "b"⟩, "x", ⟨"c1", "main", "host/repo"⟩⟩ rfl
    (Prod.ext hanswer rfl) (by decide)).2 ⟨rfl, ?_⟩⟩
  intro source ordinal ch hsource hch hlow hhigh a ha
  obtain rfl : ordinal = 0 := Int.le_antisymm hhigh hlow
  obtain rfl : _ = source := Option.some.inj hsource
  obtain rfl : sourceStart [] = ch := Option.some.inj hch
  cases ha

/-- A restart that keeps a chapter with an artifact, and one that brings an output: both succeed;
the artifact cannot be opened through the new job, and the output is not in its log. -/
theorem restart_loses_artifact_and_output :
    ((restarted none [⟨"in", "sha", 5⟩]).1 =
        .ok ⟨⟨"tenant", "b"⟩, "x", ⟨"c1", "main", "host/repo"⟩⟩ ∧
      ¬ RestartMatches (keepFirst none) ⟨"tenant", "b"⟩ (sourceJob [⟨"in", "sha", 5⟩])
        (restarted none [⟨"in", "sha", 5⟩]).2) ∧
    ((restarted (some { data := "extra" }) []).1 =
        .ok ⟨⟨"tenant", "b"⟩, "x", ⟨"c1", "main", "host/repo"⟩⟩ ∧
      ¬ RestartMatches (keepFirst (some { data := "extra" })) ⟨"tenant", "b"⟩ (sourceJob [])
        (restarted (some { data := "extra" }) []).2) := by
  refine ⟨⟨by decide +kernel, fun h => ?_⟩, by decide +kernel, fun h => ?_⟩
  · have hopen := h.artifacts [sourceStart [⟨"in", "sha", 5⟩]] (by decide +kernel) _
      List.mem_cons_self _ List.mem_cons_self "bytes" (by decide +kernel)
    have hfails : (restarted none [⟨"in", "sha", 5⟩]).2.openArtifact ⟨"tenant", "b"⟩ 0 "in" =
        .error (.invalid "artifact in not found for job b ordinal 0") := by decide +kernel
    exact absurd (hfails.symm.trans hopen) (by decide)
  · obtain ⟨kept, extra, hkept, hnew, ch, rfl, -⟩ := h.log
    have hsource : (sourceJob []).listChapters ⟨"tenant", "a"⟩ 0 (some 0) =
        .ok [sourceStart []] := by
      decide +kernel
    have hlog : (restarted (some { data := "extra" }) []).2.listChapters ⟨"tenant", "b"⟩ 0 none =
        .ok [sourceStart []] := by decide +kernel
    obtain rfl : _ = kept := Except.ok.inj (hsource.symm.trans hkept)
    have hlength := congrArg List.length (Except.ok.inj (hlog.symm.trans hnew))
    simp at hlength

end JobDB.Toy
