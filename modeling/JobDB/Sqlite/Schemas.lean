import JobDB.Runtime.Metadata
import JobDB.Sqlite.Leases

/-!
# The schema of a job in the SQLite runtime

A call that stores a chapter first reads the job's row, takes the schema's hash from its
metadata and validates the chapter against that schema. Other calls may move in between, but
none changes a row's metadata (`Effect.stays`), so the row at the time of the append still
names the schema that the chapter was validated against (`body_checks`).

The chapter of a job that fails because its payload is too large is not validated.
-/

namespace JobDB

/-- `ChapterRole`. -/
inductive ChapterRole where
  | ordinary
  | first
  | last
deriving DecidableEq, Repr

/-- `JobSchemaKey`. -/
structure JobSchemaKey where
  tenantId : String
  schemaHash : String
deriving DecidableEq, Repr

/-- The tenant's schema that a job's metadata name. -/
def schemaKey (tenantId metadata : String) : JobSchemaKey :=
  ⟨tenantId, schemaHashFromStoredMetadata metadata⟩

/-- A host that validates chapters against the schema named in the metadata; `V` is
`ValidateChapter` by role and key. -/
def Host.withSchemas (H : Host) (V : ChapterRole → JobSchemaKey → Chapter → Except Err Unit) :
    Host :=
  { H with
    validateOrdinaryChapter := fun tenantId metadata => V .ordinary (schemaKey tenantId metadata)
    validateLastChapter := fun tenantId metadata => V .last (schemaKey tenantId metadata) }

namespace Sqlite

/-! ## Metadata stay -/

/-- Every row is still there, with its metadata. -/
def Stays (v v' : Sched) : Prop :=
  ∀ k r, v.job k = some r → ∃ r', v'.job k = some r' ∧ r'.metadata = r.metadata

namespace Stays

variable {v v' v'' : Sched}

theorem of_job_eq (h : v'.job = v.job) : Stays v v' := fun _ r hr => ⟨r, by rw [h, hr], rfl⟩

theorem trans (h : Stays v v') (h' : Stays v' v'') : Stays v v'' := by
  intro k r hr
  obtain ⟨r₁, hr₁, hm₁⟩ := h k r hr
  obtain ⟨r₂, hr₂, hm₂⟩ := h' k r₁ hr₁
  exact ⟨r₂, hr₂, hm₂.trans hm₁⟩

/-- A row is written over one with the same metadata. -/
theorem setJob {k : JobKey} {r r' : JobRow} (hr : v.job k = some r)
    (hm : r'.metadata = r.metadata) : Stays v (v.setJob k r') := by
  intro k' r₁ hr₁
  rw [Sched.setJob_job]
  split
  · next he =>
    subst he
    cases hr.symm.trans hr₁
    exact ⟨r', rfl, hm⟩
  · exact ⟨r₁, hr₁, rfl⟩

end Stays

theorem RowChange.metadata {now : Time} {P} {r r' : JobRow}
    (h : RowChange now P r r') : r'.metadata = r.metadata := by
  cases h <;> rfl

theorem JobRow.routed_metadata (r : JobRow) (now : Time) :
    (r.routed now).metadata = r.metadata := by
  unfold JobRow.routed
  split <;> rfl

theorem Effect.stays {H : Host} {i : Nat} {P} {v v' : Sched}
    (h : Effect H i P v v') : Stays v v' := by
  induction h with
  | same => exact .of_job_eq rfl
  | tick => exact .of_job_eq rfl
  | row stored change => exact .setJob stored change.metadata
  | granted stored => exact Stays.setJob stored (JobRow.routed_metadata _ _)
  | claimed stored => exact Stays.setJob stored rfl
  | inserted absent =>
    intro k r hr
    rw [Sched.setJob_job]
    split
    · next he => exact nomatch (he ▸ absent).symm.trans hr
    · exact ⟨r, hr, rfl⟩
  | appended => exact .of_job_eq rfl
  | payloadFailed job _ _ _ message t =>
    have hm : ∀ r : JobRow, (r.payloadFailed message t).metadata = r.metadata := fun _ => rfl
    exact Stays.setJob job (hm _)
  | created => exact .of_job_eq rfl
  | linked => exact .of_job_eq rfl
  | chain _ _ ih₁ ih₂ => exact ih₁.trans ih₂

/-! ## Chapters that are stored -/

/-- The chapter is in the job's log after the step and was not before. -/
def New (v v' : Sched) (k : JobKey) (ch : StoredChapter) : Prop :=
  (∃ l', v'.logs k = some l' ∧ ch ∈ l') ∧ ∀ l, v.logs k = some l → ch ∉ l

/-- Every chapter that the step stores satisfies `A`, for the metadata of the job's row. -/
def Vets (A : JobKey → String → StoredChapter → Prop) (v v' : Sched) : Prop :=
  ∀ k ch r, New v v' k ch → v.job k = some r → A k r.metadata ch

namespace Vets

variable {A : JobKey → String → StoredChapter → Prop} {v v' : Sched}

theorem of_logs_eq (h : v'.logs = v.logs) : Vets A v v' := by
  rintro k ch r ⟨⟨l, hl, hmem⟩, hnot⟩ -
  exact absurd hmem (hnot l (h ▸ hl))

theorem append {k : JobKey} {st : Story} {c : StoredChapter} (hst : v.story k = some st)
    (hv : v'.logs = (v.setStory k { st with chapters := st.chapters ++ [c] }).logs)
    (hA : ∀ r, v.job k = some r → A k r.metadata c) : Vets A v v' := by
  rintro k' ch r ⟨⟨l, hl, hmem⟩, hnot⟩ hr
  rw [hv, Sched.setStory_logs, Function.update_apply] at hl
  split at hl
  · next he =>
    subst he
    cases hl
    rcases List.mem_append.1 hmem with hold | hnew
    · exact absurd hold (hnot _ (Sched.logs_of_story hst))
    · rw [List.mem_singleton.1 hnew]
      exact hA r hr
  · exact absurd hmem (hnot l hl)

end Vets

/-- The job's row has the metadata. -/
def RowWith (metadata : String) (k : JobKey) (v : Sched) : Prop :=
  ∃ r, v.job k = some r ∧ r.metadata = metadata

theorem RowWith.stays {metadata : String} {k : JobKey} {v v' : Sched} (h : RowWith metadata k v)
    (hs : Stays v v') : RowWith metadata k v' := by
  obtain ⟨r, hr, hm⟩ := h
  obtain ⟨r', hr', hm'⟩ := hs k r hr
  exact ⟨r', hr', hm'.trans hm⟩

/-! ## Steps of calls -/

/-- Among other calls that leave metadata alone, the call stores only chapters with `A`. -/
abbrev Checks {α : Type} (A : JobKey → String → StoredChapter → Prop) (Q : α → State → Prop)
    (x : Call State Err α) (s : State) : Prop :=
  x.Ensures (fun s => Ready s.sched) (fun s s' => Stays s.sched s'.sched)
    (fun s s' => Vets A s.sched s'.sched) Q s

section Rules

variable {α : Type} {A : JobKey → String → StoredChapter → Prop} {Q : α → State → Prop} {s : State}

theorem Checks.query {f : State → Except Err α}
    (hQ : ∀ s₁ a, Ready s₁.sched → Stays s.sched s₁.sched → f s₁ = .ok a → Q a s₁) :
    Checks A Q (Call.query f) s :=
  Call.Ensures.query (fun _ => .of_logs_eq rfl) hQ

theorem checks_closed :
    Call.Closed fun _ (x : Call State Err _) => ∀ s, Checks A (fun _ _ => True) x s :=
  Call.Keeps.closed fun _ => .of_logs_eq rfl

/-- A query during which the row keeps its metadata. -/
theorem Checks.queryRow {metadata : String} {k : JobKey} (h : RowWith metadata k s.sched)
    (f : State → Except Err α) :
    Checks A (fun _ s => RowWith metadata k s.sched) (Call.query f) s :=
  .query fun _ _ _ hs _ => h.stays hs

theorem Checks.tx (H : Host) (i : Nat) {m : Tx State Err α}
    (hm : ∀ s₁ a s₂, Ready s₁.sched → Stays s.sched s₁.sched → m s₁ = .ok (a, s₂) →
      Effect H i .any s₁.sched s₂.sched ∧ Vets A s₁.sched s₂.sched ∧ Q a s₂) :
    Checks A Q (Call.tx m) s := by
  refine Call.Ensures.tx (fun _ => .of_logs_eq rfl) fun s₁ a s₂ hi hr h => ?_
  obtain ⟨he, hv, hq⟩ := hm s₁ a s₂ hi hr h
  exact ⟨he.ready hi, hv, hq⟩

end Rules

section Calls

variable {H : Host} {i : Nat} {A : JobKey → String → StoredChapter → Prop} {s : State}
  {key : JobKey} {leaseID workerID metadata : String} {handle : Option Time}

theorem validateLease_checks :
    Checks A (fun row s =>
      RowWith row.metadata key s.sched) (validateLease key leaseID workerID) s := by
  refine .query fun s₁ row _ _ h => ?_
  obtain ⟨r, hload, h₁⟩ := bind_eq_ok.1 h
  obtain ⟨_, _, rfl⟩ := map_eq_ok.1 h₁
  exact ⟨r, State.loadJobRow_eq_ok.1 hload, rfl⟩

theorem saveChapter_checks (H : Host) {ordinal : Int} {body : String}
    {artifacts : List StoredArtifact}
    (hrow : RowWith metadata key s.sched) (hA : ∀ n, A key metadata ⟨n, body, artifacts, i⟩) :
    Checks A (fun _ _ => True) (saveChapter i key ordinal body artifacts) s := by
  refine .bind (Checks.queryRow hrow _) fun n s₁ h₁ => ?_
  refine .check_bind fun _ _ => Checks.tx H i fun s₃ _ s₄ _ hs h => ?_
  obtain ⟨st, hst, _, hs₄⟩ := appendTx_ok h
  refine ⟨appendTx_effect rfl h, .append hst (by rw [hs₄]) fun r hr => ?_, trivial⟩
  obtain ⟨r', hr', hm⟩ := h₁.stays hs
  cases hr.symm.trans hr'
  rw [hm]
  exact hA n

/-- What `PutChapter` and a completion end with, each with its own check of the chapter. -/
theorem writeChapter_checks (check : Chapter → Except Err Unit) (ordinal : Int) (ch : Chapter)
    (uploads : List ArtifactUpload) (hrow : RowWith metadata key s.sched)
    (hA : ∀ chapter n body, H.encodeChapter chapter = .ok body → check chapter = .ok () →
      A key metadata ⟨n, body, chapter.artifacts, i⟩) :
    Checks A (fun _ _ => True) (do
      ensureNextVisibleChapterOrdinal key ordinal
      let prepared ← Call.check (prepareChapterWrite H ch uploads)
      Call.check (check prepared)
      let body ← Call.check (H.encodeChapter prepared)
      saveChapter i key ordinal body prepared.artifacts) s := by
  refine .bind (Checks.queryRow hrow _) fun _ s₁ h₁ => ?_
  refine .check_bind fun prepared _ => .check_bind fun _ hv => .check_bind fun body hb => ?_
  exact saveChapter_checks H h₁ fun n => hA _ n _ hb hv

theorem putChapter_checks (claims : Option Claims) (req : PutChapterRequest)
    (hA : ∀ metadata chapter n body, H.encodeChapter chapter = .ok body →
      H.validateOrdinaryChapter req.jobKey.tenantId metadata chapter = .ok () →
      A req.jobKey metadata ⟨n, body, chapter.artifacts, i⟩) :
    Checks A (fun _ _ => True) (putChapter H i claims req) s := by
  refine .check_bind fun _ _ => .bind (checks_closed.query _ s) fun _ s₁ _ => ?_
  refine .bind validateLease_checks fun row s₂ h₂ => ?_
  exact writeChapter_checks (H.validateOrdinaryChapter _ row.metadata) req.ordinal req.chapter
    req.artifactUploads h₂ (hA row.metadata)

/-! ### Completion -/

theorem ensureCompletionChapter_checks (ch : Chapter) (uploads : List ArtifactUpload)
    (hA : ∀ metadata chapter n body, H.encodeChapter chapter = .ok body →
      H.validateLastChapter key.tenantId metadata chapter = .ok () →
      A key metadata ⟨n, body, chapter.artifacts, i⟩) :
    Checks A (fun _ _ => True) (ensureCompletionChapter H i key leaseID workerID ch uploads) s := by
  refine .check_bind fun _ _ => .bind validateLease_checks fun row s₁ h₁ => ?_
  refine .bind (Checks.queryRow h₁ _) fun found s₂ h₂ => ?_
  cases found with
  | none =>
    exact writeChapter_checks (H.validateLastChapter _ row.metadata) ch.ordinal ch uploads h₂
      (hA row.metadata)
  | some existing =>
    exact .check_bind fun _ _ => .check_bind fun _ _ => Call.Keeps.check _ s₂

theorem completePayloadFailure_checks (ch : Chapter) (auth : State → JobRow → Except Err Unit)
    (hA : ∀ metadata body, H.encodeChapter ch = .ok body → ch.payloadFailure = true →
      A key metadata ⟨ch.ordinal, body, [], i⟩) :
    Checks A (fun _ _ => True) (completePayloadFailure H i key ch auth) s := by
  refine .check_bind fun _ hvalid => .check_bind fun body hbody => ?_
  have hfail : ch.payloadFailure = true := by
    split at hvalid
    · cases hvalid
    · next hc => exact Bool.eq_true_of_not_eq_false (not_or.1 hc).1
  refine Checks.tx H i fun s₃ _ s₄ _ _ h => ⟨payloadFailureTx_effect h, ?_, trivial⟩
  obtain ⟨r, st, message, t, _, _, hst, _, hs₄⟩ := payloadFailureTx_ok h
  exact .append hst (by rw [hs₄, Sched.setJob_logs]) fun _ _ => hA _ _ hbody hfail

/-- A completion stores a chapter that was validated as the last one, or that says that the
payload is too large. -/
theorem complete_checks (req : CompleteExecutionRequest)
    (hlast : ∀ metadata chapter n body, H.encodeChapter chapter = .ok body →
      H.validateLastChapter key.tenantId metadata chapter = .ok () →
      A key metadata ⟨n, body, chapter.artifacts, i⟩)
    (hfail : ∀ metadata chapter body, H.encodeChapter chapter = .ok body →
      chapter.payloadFailure = true → A key metadata ⟨chapter.ordinal, body, [], i⟩) :
    Checks A (fun _ _ => True) (complete H i handle key leaseID workerID req) s := by
  refine complete_closed checks_closed (fun ch _ => ?_) (fun ch uploads _ => ?_) (fun now _ => ?_) s
  · exact completePayloadFailure_checks ch _ fun md body => hfail md ch body
  · exact ensureCompletionChapter_checks ch uploads hlast
  · refine Checks.tx H i fun s₁ _ s₂ hi _ h => ⟨completeTx_effect hi.keyed h, ?_, trivial⟩
    obtain ⟨r, r', _, _, hs₂⟩ := completeTx_ok (P := .any) hi.keyed h
    exact .of_logs_eq (by rw [hs₂, Sched.setJob_logs])

/-! ### Waiting tasks -/

theorem reschedule_checks (req : RescheduleExecutionRequest) (s : State) :
    Checks A (fun _ _ => True) (reschedule H handle key leaseID workerID req) s := by
  refine reschedule_closed checks_closed (fun task now _ => ?_) s
  refine Checks.tx H 0 fun s₁ _ s₂ hi _ h => ⟨rescheduleTx_effect hi.keyed trivial h, ?_, trivial⟩
  obtain ⟨r, r', _, _, hs₂⟩ := rescheduleTx_ok (P := .any) hi.keyed trivial h
  exact .of_logs_eq (by rw [hs₂, Sched.setJob_logs])

theorem commitTaskOutput_checks {row : JobRow} {tw : TaskWait} {body : String}
    {artifacts : List StoredArtifact} (hwait : row.payload.taskWait = some tw)
    (hrow : RowWith metadata row.key s.sched)
    (hA : ∀ n, A row.key metadata ⟨n, body, artifacts, i⟩) :
    Checks A (fun _ _ => True) (commitTaskOutput H i row tw body artifacts) s := by
  refine .bind (Checks.queryRow hrow _) fun _ s₁ h₁ => ?_
  have hclaim : Checks A (fun l s => l.jobKey = row.key ∧ RowWith metadata row.key s.sched)
      (Call.tx (claimTx H row tw.resumeJobType row.payload.runPolicy)) s₁ := by
    refine Checks.tx H i fun s₂ l s₃ _ hs h => ?_
    have heffect := claimTx_effect (H := H) (i := i) (P := .any) hwait h
    obtain ⟨hkey, _, r, _, _, _, hs₃⟩ := claimTx_ok hwait h
    refine ⟨heffect, .of_logs_eq (by rw [hs₃, Sched.record_logs, Sched.setJob_logs]), hkey, ?_⟩
    exact (h₁.stays hs).stays heffect.stays
  refine .bind hclaim fun lease s₂ ⟨hkey, h₂⟩ => ?_
  rw [← hkey] at h₂ hA
  have happend : Checks A (fun _ _ => True)
      (appendTaskOutput i lease tw.outputOrdinal body artifacts) s₂ :=
    .bind (Checks.queryRow h₂ _) fun _ s₃ h₃ => saveChapter_checks H h₃ hA
  exact .bind happend fun _ s₃ _ => reschedule_checks _ s₃

/-- `CompleteTaskIfWaiting` stores an output that was validated, or that says that the payload is
too large. -/
theorem completeTaskIfWaiting_checks (req : CompleteTaskIfWaitingRequest)
    (hout : ∀ metadata chapter m n body artifacts, H.decodeChapter m body artifacts = .ok chapter →
      H.validateOrdinaryChapter req.jobKey.tenantId metadata chapter = .ok () →
      A req.jobKey metadata ⟨n, body, artifacts, i⟩)
    (hfail : ∀ metadata chapter body, H.encodeChapter chapter = .ok body →
      chapter.payloadFailure = true → A req.jobKey metadata ⟨chapter.ordinal, body, [], i⟩) :
    Checks A (fun _ _ => True) (completeTaskIfWaiting H i req) s := by
  refine .check_bind fun _ _ => .check_bind fun _ _ => ?_
  refine .query_bind (fun _ => .of_logs_eq rfl) fun s₁ row hi _ hload => ?_
  have hr := State.loadJobRow_eq_ok.1 hload
  have hkey : row.key = req.jobKey := hi.keyed _ _ hr
  have h₁ : RowWith row.metadata row.key s₁.sched := ⟨row, hkey ▸ hr, rfl⟩
  refine .bind (Checks.queryRow h₁ _) fun now s₂ h₂ => .check_bind fun tw hwait => ?_
  refine .bind (Checks.queryRow h₂ _) fun input s₃ h₃ => ?_
  refine .bind (Checks.queryRow h₃ _) fun now' s₄ h₄ => .check_bind fun out _ => ?_
  obtain ⟨body, artifacts⟩ := out
  refine .check_bind fun stored hstored => ?_
  split
  · next hv =>
    refine commitTaskOutput_checks (waitingTask_eq_ok hwait).1 h₄ fun n => ?_
    exact hkey ▸ hout _ _ _ n _ _ hstored hv
  · refine .bind (completePayloadFailure_checks _ _ fun md body => ?_) fun _ s₅ _ => ?_
    · exact hkey ▸ hfail md _ body
    exact Call.Keeps.check _ s₅
  · exact Call.Keeps.check _ s₄

end Calls

/-! ## All calls -/

section System

variable {H : Host} {V : ChapterRole → JobSchemaKey → Chapter → Except Err Unit}

/-- What a call has seen to when it stores the chapter for a job with the schema. -/
def Request.Validated (H : Host) (V : ChapterRole → JobSchemaKey → Chapter → Except Err Unit)
    (schema : JobSchemaKey) (ch : StoredChapter) : Request → Prop
  | .putChapter _ _ =>
    ∃ chapter, H.encodeChapter chapter = .ok ch.body ∧ V .ordinary schema chapter = .ok ()
  | .complete _ _ _ _ _ =>
    ∃ chapter, H.encodeChapter chapter = .ok ch.body ∧
      (V .last schema chapter = .ok () ∨ chapter.payloadFailure = true)
  | .completeTaskIfWaiting _ =>
    (∃ n chapter, H.decodeChapter n ch.body ch.artifacts = .ok chapter ∧
      V .ordinary schema chapter = .ok ()) ∨
    ∃ chapter, H.encodeChapter chapter = .ok ch.body ∧ chapter.payloadFailure = true
  | _ => True

/-- What a step of the call does. -/
def StoresValidated (H : Host) (V : ChapterRole → JobSchemaKey → Chapter → Except Err Unit)
    (i : Nat) (c : Request) (s s' : State) : Prop :=
  Effect (H.withSchemas V) i .any s.sched s'.sched ∧
    Vets (fun k metadata => c.Validated H V (schemaKey k.tenantId metadata))
      s.sched s'.sched

/-- **Every call** validates what it stores against the schema in the row. -/
theorem body_checks (i : Nat) (c : Request) (s : State) :
    (body (H.withSchemas V) i c).Sat (fun s => Ready s.sched)
      (fun s s' => Grows s.sched s'.sched ∧ Stays s.sched s'.sched) (StoresValidated H V i c)
      (fun _ _ => True) s := by
  have hsteps := (body_steps (H := H.withSchemas V) (i := i) (P := .any) (s := s)
    (fun _ _ _ _ => trivial) c (c.meets_of_forall (fun _ _ _ _ => trivial) s.sched)).narrow
      fun s s' (hr : Grows s.sched s'.sched ∧ Stays s.sched s'.sched) => hr.1
  -- where the checks of a call are known, they are added to its effects
  have hboth (h : Checks (fun k metadata =>
      c.Validated H V (schemaKey k.tenantId metadata)) (fun _ _ => True)
      (body (H.withSchemas V) i c) s) := hsteps.and h (fun _ hi => hi) fun _ _ hr => hr.2
  cases c with
  | putChapter claims req =>
    refine (hboth (.bind (putChapter_checks claims req ?_) fun _ s₁ _ => Call.Keeps.pure _ s₁)).imp
      fun _ _ _ => trivial
    exact fun metadata chapter n body hb hv => ⟨chapter, hb, hv⟩
  | complete handle key leaseID workerID req =>
    refine (hboth (.bind (complete_checks req ?_ ?_) fun _ s₁ _ => Call.Keeps.pure _ s₁)).imp
      fun _ _ _ => trivial
    · exact fun metadata chapter n body hb hv => ⟨chapter, hb, .inl hv⟩
    · exact fun metadata chapter body hb hf => ⟨chapter, hb, .inr hf⟩
  | completeTaskIfWaiting req =>
    refine (hboth (.bind (completeTaskIfWaiting_checks req ?_ ?_) fun _ s₁ _ =>
      Call.Keeps.pure _ s₁)).imp fun _ _ _ => trivial
    · exact fun metadata chapter m n body artifacts hd hv => .inl ⟨m, chapter, hd, hv⟩
    · exact fun metadata chapter body hb hf => .inr ⟨chapter, hb, hf⟩
  | _ =>
    exact hsteps.mono (fun _ _ he => ⟨he, fun _ _ _ _ _ => trivial⟩) fun _ _ _ => trivial

theorem system_validates :
    (system (H.withSchemas V)).Sound (fun s => Ready s.sched)
      (fun s s' => Grows s.sched s'.sched ∧ Stays s.sched s'.sched) (StoresValidated H V)
      (fun _ _ _ _ => True) where
  refl s := ⟨.refl _, .of_job_eq rfl⟩
  trans _ _ _ h h' := ⟨h.1.trans h'.1, h.2.trans h'.2⟩
  env s s' hi h := by
    obtain ⟨t, hle, rfl⟩ := h
    have htick : Effect H 0 .any s.sched { s.sched with now := t } := .tick hle
    exact ⟨htick.ready hi, htick.grows, htick.stays⟩
  guar _ _ _ _ _ h := ⟨h.1.grows, h.1.stays⟩
  stable _ _ _ _ _ _ _ _ := trivial
  body i c s _ _ := body_checks i c s

end System

end Sqlite

/-! ## The schema a job was submitted with -/

/-- What is read back from the stored metadata is the hash they were built with exactly if the
application's metadata leave the job its schema; and then every chapter that a call of the
SQLite runtime stores for the job, whatever other calls run meanwhile, was validated against
that schema, but for the chapter of a payload that is too large. -/
theorem schema_of_submission (F : JsonNumber → Option JsonNumber) (appMetadata raw : String)
    (internal : RuntimeJobMetadata)
    (hh : validateJobSchemaHash internal.schemaHash = .ok () ∨ internal.schemaHash = "")
    (hb : buildJobMetadataEnvelope F appMetadata internal = .ok raw) :
    (schemaHashFromStoredMetadata raw = internal.schemaHash ↔
      LeavesSchema F appMetadata internal.schemaHash) ∧
    (LeavesSchema F appMetadata internal.schemaHash →
      ∀ (H : Host) (V : ChapterRole → JobSchemaKey → Chapter → Except Err Unit) (t₀ : Time)
        (ls₁ ls₂ : List (System.Label Sqlite.Request))
        (p₁ p₂ p₃ : Sqlite.Calls)
        (i : Nat) (c : Sqlite.Request) (k : JobKey) (r : Sqlite.JobRow) (ch : StoredChapter),
        Along (Sqlite.system (H.withSchemas V)).Step ls₁ ⟨{ now := t₀ }, []⟩ p₁ →
        p₁.shared.sched.job k = some r → r.metadata = raw →
        Along (Sqlite.system (H.withSchemas V)).Step ls₂ p₁ p₂ →
        (Sqlite.system (H.withSchemas V)).Step (.run i c) p₂ p₃ →
        Sqlite.New p₂.shared.sched p₃.shared.sched k ch →
        c.Validated H V ⟨k.tenantId, internal.schemaHash⟩ ch) := by
  refine ⟨schemaHash_eq_iff hh hb, ?_⟩
  intro hleaves H V t₀ ls₁ ls₂ p₁ p₂ p₃ i c k r ch h₁ hr hraw h₂ hstep hnew
  have hsound := Sqlite.system_validates (H := H) (V := V)
  obtain ⟨hok₁, _⟩ := hsound.run h₁ (.start (Sqlite.ready_empty t₀))
  obtain ⟨hok₂, -, hstays⟩ := hsound.run h₂ hok₁
  obtain ⟨-, -, hguar⟩ := hsound.step hstep hok₂
  obtain ⟨-, hvets⟩ := hguar i c rfl
  -- the row still has the metadata that the job was submitted with
  obtain ⟨r', hr', hm⟩ := hstays k r hr
  have hvalid := hvets k ch r' hnew hr'
  simp only [schemaKey, hm, hraw, (schemaHash_eq_iff hh hb).2 hleaves] at hvalid
  exact hvalid

/-- The hash of a schema. -/
def sampleHash : String := "sha256:" ++ String.ofList (List.replicate 64 '0')

/-- Metadata of an application. -/
def blueApp : String := (Json.obj [("queue", .str "blue")]).write

/-- The stored metadata of a job with the schema. -/
def blueMetadata : String :=
  (Json.obj [("app", .obj [("queue", .str "blue")]),
    ("internal", .obj [("schemaHash", .str sampleHash)])]).write

theorem blue_leavesSchema : LeavesSchema some blueApp sampleHash := by
  have hfills : fillsNesting some blueApp = false := by decide +kernel
  have hown : ownSchemaHash blueApp = "" := by decide +kernel
  exact ⟨fun hf => (nomatch hfills.symm.trans hf), fun _ => .inl hown⟩

namespace Sqlite

/-- A worker puts a chapter. -/
def putSample : Request :=
  .putChapter none
    { leaseID := "x", jobKey := ⟨"t", "j"⟩, ordinal := 0,
      chapter := { ordinal := 0, body := .jobAttemptOutcome (.applicationOutput "done") } }

/-- The schema accepts everything; there is no other. -/
def sampleSchemas : ChapterRole → JobSchemaKey → Chapter → Except Err Unit := fun _ schema _ =>
  if schema = ⟨"t", sampleHash⟩ then .ok () else .error (.invalid "no such schema")

/-- The job is submitted. -/
def blueSubmitted : Calls :=
  [.call (.submit { job := { sampleJob with metadata := blueMetadata } }), .run 0, .run 0,
    .run 0].foldl
    (system (Host.accepting.withSchemas sampleSchemas)).drive ⟨{ now := 1 }, []⟩

/-- The job is leased, and its worker is about to store a chapter. -/
def blueChecked : Calls :=
  [.call (.getJobLease (leaseRequest "w") .start), .run 1, .call putSample, .run 2, .run 2, .run 2,
    .run 2].foldl (system (Host.accepting.withSchemas sampleSchemas)).drive blueSubmitted

/-- The chapter is stored. -/
def bluePut : Calls :=
  (system (Host.accepting.withSchemas sampleSchemas)).drive blueChecked (.run 2)

theorem blueSubmitted_along : ∃ ls,
    Along (system (Host.accepting.withSchemas sampleSchemas)).Step ls
      ⟨{ now := 1 }, []⟩ blueSubmitted :=
  System.drive_along (by trivial)

theorem blueChecked_along : ∃ ls,
    Along (system (Host.accepting.withSchemas sampleSchemas)).Step ls blueSubmitted blueChecked :=
  System.drive_along (by trivial)

/-- What the run computes: the log before and after the step that stores the chapter. -/
theorem bluePut_logs :
    (blueChecked.threads[2]?).any (fun t => t.2.running) = true ∧
      blueChecked.shared.sched.logs ⟨"t", "j"⟩ = some [] ∧
      bluePut.shared.sched.logs ⟨"t", "j"⟩ = some [⟨0, "outcome done", [], 2⟩] := by
  decide +kernel

theorem bluePut_step :
    (system (Host.accepting.withSchemas sampleSchemas)).Step
    (.run 2 putSample) blueChecked bluePut := by
  have hcalls : (blueChecked.threads.map Prod.fst)[2]? = some putSample := by
    unfold blueChecked blueSubmitted
    rw [System.map_fst_foldl_drive, System.map_fst_foldl_drive]
    rfl
  exact System.drive_step hcalls bluePut_logs.1

theorem bluePut_new :
    New blueChecked.shared.sched bluePut.shared.sched ⟨"t", "j"⟩ ⟨0, "outcome done", [], 2⟩ := by
  obtain ⟨-, hempty, hlog⟩ := bluePut_logs
  refine ⟨⟨_, hlog, List.mem_singleton_self _⟩, fun l hl => ?_⟩
  cases hempty.symm.trans hl
  exact List.not_mem_nil

theorem blueSubmitted_row :
    ∃ r, blueSubmitted.shared.sched.job ⟨"t", "j"⟩ = some r ∧ r.metadata = blueMetadata := by
  have hmeta : (blueSubmitted.shared.sched.job ⟨"t", "j"⟩).map (·.metadata) =
      some blueMetadata := by
    decide +kernel
  exact Option.map_eq_some_iff.1 hmeta

end Sqlite

/-- A chapter stored for a job whose metadata name its schema only in the runtime's part. -/
theorem schema_of_submission_put :
    schemaHashFromStoredMetadata blueMetadata = sampleHash ∧
      Sqlite.putSample.Validated .accepting Sqlite.sampleSchemas ⟨"t", sampleHash⟩
        ⟨0, "outcome done", [], 2⟩ := by
  have hvalid : validateJobSchemaHash sampleHash = .ok () := by decide +kernel
  have hbuild : buildJobMetadataEnvelope some blueApp { schemaHash := sampleHash } =
      .ok blueMetadata := by decide +kernel
  obtain ⟨hiff, hstored⟩ := schema_of_submission some blueApp blueMetadata
    { schemaHash := sampleHash } (.inl hvalid) hbuild
  obtain ⟨ls₁, h₁⟩ := Sqlite.blueSubmitted_along
  obtain ⟨ls₂, h₂⟩ := Sqlite.blueChecked_along
  obtain ⟨r, hr, hm⟩ := Sqlite.blueSubmitted_row
  have hput :=
    hstored blue_leavesSchema .accepting Sqlite.sampleSchemas 1 ls₁ ls₂ Sqlite.blueSubmitted
    Sqlite.blueChecked Sqlite.bluePut 2 Sqlite.putSample ⟨"t", "j"⟩ r ⟨0, "outcome done", [], 2⟩
    h₁ hr hm h₂ Sqlite.bluePut_step Sqlite.bluePut_new
  exact ⟨hiff.2 blue_leavesSchema, hput⟩

/-- Metadata of an application that has a schema hash of its own. -/
def hashedApp : String := (Json.obj [("schema_hash", .str "none")]).write

/-- The reader takes the application's hash for the job's. -/
theorem schema_named_by_application :
    let raw := (Json.obj [("app", .obj [("schema_hash", .str "none")]),
      ("internal", .obj [("schemaHash", .str sampleHash)])]).write
    validateJobSchemaHash sampleHash = .ok () ∧ validateApplicationMetadata hashedApp = .ok () ∧
      buildJobMetadataEnvelope some hashedApp { schemaHash := sampleHash } = .ok raw ∧
      schemaHashFromStoredMetadata raw = "none" ∧ "none" ≠ sampleHash := by
  decide +kernel

end JobDB
