import JobDB.Sqlite.ChapterLog

/-!
# What each call does

One lemma for each call of the runtime: its steps have effects, and its success
means that its chapter is in the log. `body_steps` puts them together.

A reschedule needs a word about who makes it. `CompleteTaskIfWaiting` makes one
with the lease of its claim, back to the route of the claim; every other one is a
worker's.
-/

namespace JobDB.Sqlite

/-- The lease was granted by a claim, for the route. -/
def ClaimedAs (v : Sched) (leaseID : String) (route : Route) : Prop :=
  ∃ g ∈ v.grants, g.leaseID = leaseID ∧ g.route = route ∧ g.claim ≠ none

theorem ClaimedAs.grows {v v' : Sched} {L : String} {route : Route} (h : ClaimedAs v L route)
    (hg : Grows v v') : ClaimedAs v' L route := by
  obtain ⟨g, hmem, hL⟩ := h
  exact ⟨g, hg.grants.subset hmem, hL⟩

/-- The reschedules that `CompleteTaskIfWaiting` makes satisfy `P`. -/
def Permits (P : Terms) : Prop :=
  ∀ v L route, ClaimedAs v L route → P v L { nextRoute := route } none

section Calls

variable {H : Host} {i : Nat}
  {P : Terms} {s : State}
  {handle : Option Time} {key : JobKey} {leaseID workerID : String}

/-! ## Leases in use -/

theorem acts_closed : Call.Closed fun _ (x : Call State Err _) => Acts H i P x :=
  Call.Keeps.closed fun _ => .same

/-- The reschedule satisfies `P` at whatever time its transaction runs. -/
theorem reschedule_steps {req : RescheduleExecutionRequest}
    (hP : ∀ v task, Grows s.sched v → rescheduleTaskWait req.nextRoute req.taskWait = .ok task →
      P v leaseID req task) :
    Steps H i P (fun _ _ => True) (reschedule H handle key leaseID workerID req) s := by
  refine .bind (Acts.since (.query _) s) fun _ s₁ h₁ => .check_bind fun _ _ => ?_
  refine .check_bind fun _ _ => .check_bind fun task htask => ?_
  refine .check_bind fun _ _ => .check_bind fun _ _ => ?_
  refine .bind (Acts.since (.query _) s₁) fun now s₂ h₂ => ?_
  exact Steps.tx fun s₃ _ _ hi h₃ h =>
    ⟨rescheduleTx_effect hi.keyed (hP _ task ((h₁.trans h₂).trans h₃) htask) h, trivial⟩

/-! ## Chapters -/

/-- The ordinal of a chapter that may be appended is no negative number. -/
theorem ensureNextVisibleChapterOrdinal_steps (ordinal : Int) :
    Steps H i P (fun _ _ => 0 ≤ ordinal) (ensureNextVisibleChapterOrdinal key ordinal) s := by
  refine Steps.query fun s₁ _ hi _ h => ?_
  cases hl : s₁.stories.lookup key with
  | none =>
    rw [hl] at h
    cases h
  | some st =>
    simp only [hl] at h
    cases hlast : st.chapters.getLast? with
    | none =>
      simp only [hlast] at h
      split at h
      · next h0 => exact h0.ge
      · cases h
    | some last =>
      simp only [hlast] at h
      split at h
      · cases h
      split at h
      · cases h
      · next h₁ h₂ =>
        have hord := (hi.numbered key _ (Sched.logs_of_story hl)).getLast?_ord hlast
        omega

theorem saveChapter_steps {ordinal : Int} {body : String} {artifacts : List StoredArtifact} :
    Steps H i P (fun _ s => 0 ≤ ordinal → Written s.sched key ordinal ⟨ordinal, body, artifacts, i⟩)
      (saveChapter i key ordinal body artifacts) s := by
  refine Call.Ensures.query_bind (fun _ => .same) fun s₁ n _ _ hread => ?_
  have hn : 0 ≤ ordinal → n = ordinal := by
    intro h0
    rw [if_neg (by omega)] at hread
    exact (Except.ok.inj hread).symm
  refine .check_bind fun _ _ => ?_
  refine Steps.tx fun s₃ _ s₄ hi _ h => ⟨appendTx_effect rfl h, fun h0 => ?_⟩
  obtain ⟨st, hst, hnext, hs₄⟩ := appendTx_ok h
  obtain rfl := hn h0
  exact written_setStory (by rw [hs₄]) hi.numbered hst hnext

/-- What `PutChapter` and a completion end with, each with its own check of the
chapter: the call's own chapter is in the log. -/
theorem writeChapter_steps (check : Chapter → Except Err Unit) (ordinal : Int) (chapter : Chapter)
    (uploads : List ArtifactUpload) :
    Steps H i P (fun _ s => ∃ ch, prepareChapterWrite H chapter uploads = .ok ch ∧
        Own H i s.sched key ordinal ch)
      (do
        ensureNextVisibleChapterOrdinal key ordinal
        let prepared ← Call.check (prepareChapterWrite H chapter uploads)
        Call.check (check prepared)
        let body ← Call.check (H.encodeChapter prepared)
        saveChapter i key ordinal body prepared.artifacts) s := by
  refine .bind (ensureNextVisibleChapterOrdinal_steps ordinal) fun _ s₁ h0 => ?_
  refine .check_bind fun ch hch => .check_bind fun _ _ => .check_bind fun body hbody => ?_
  exact saveChapter_steps.imp fun _ _ hw => ⟨ch, hch, body, hbody, hw h0⟩

theorem putChapter_steps (claims : Option Claims) (req : PutChapterRequest) :
    Steps H i P (fun _ s => ∃ ch, prepareChapterWrite H req.chapter req.artifactUploads = .ok ch ∧
        Own H i s.sched req.jobKey req.ordinal ch)
      (putChapter H i claims req) s := by
  refine .check_bind fun _ _ => .bind (Acts.query _ s) fun _ s₁ _ => ?_
  refine .bind (Acts.query _ s₁) fun row s₂ _ => ?_
  exact writeChapter_steps (H.validateOrdinaryChapter _ row.metadata) req.ordinal req.chapter
    req.artifactUploads

/-! ## Completion -/

theorem existingCompletionChapter_steps (ordinal : Int) :
    Steps H i P (fun found s => ∀ existing, found = some existing →
        ∃ stored, Written s.sched key ordinal stored ∧
          H.decodeChapter ordinal stored.body stored.artifacts = .ok existing)
      (existingCompletionChapter H key ordinal) s := by
  refine Steps.query fun s₁ found _ _ h existing he => ?_
  subst he
  cases hl : (s₁.stories.lookup key).bind (·.chapter? ordinal) with
  | none =>
    rw [hl] at h
    cases h
  | some stored =>
    simp only [hl] at h
    obtain ⟨st, hst, hch⟩ := Option.bind_eq_some_iff.mp hl
    refine ⟨stored, ⟨st.chapters, Sched.logs_of_story hst, hch⟩, ?_⟩
    cases hd : H.decodeChapter ordinal stored.body stored.artifacts with
    | error =>
      rw [hd] at h
      cases h
    | ok ch =>
      rw [hd] at h
      cases h
      rfl

/-- What the log holds after a completion: the call's own chapter, or one that is
the same. -/
def Completed (H : Host) (i : Nat) (v : Sched) (k : JobKey) (ch : Chapter)
    (uploads : List ArtifactUpload) : Prop :=
  (∃ p, prepareChapterWrite H ch uploads = .ok p ∧ Own H i v k ch.ordinal p) ∨
    ∃ candidate, completionCandidate H ch uploads = .ok candidate ∧
      Equal H v k ch.ordinal candidate

theorem Completed.grows {v v' : Sched} {k : JobKey} {ch : Chapter} {uploads : List ArtifactUpload}
    (h : Completed H i v k ch uploads) (hg : Grows v v') : Completed H i v' k ch uploads := by
  rcases h with ⟨p, hp, hown⟩ | ⟨c, hc, heq⟩
  · exact .inl ⟨p, hp, hown.grows hg⟩
  · exact .inr ⟨c, hc, heq.grows hg⟩

theorem ensureCompletionChapter_steps (ch : Chapter) (uploads : List ArtifactUpload) :
    Steps H i P (fun _ s => Completed H i s.sched key ch uploads)
      (ensureCompletionChapter H i key leaseID workerID ch uploads) s := by
  refine .check_bind fun _ _ => .bind (Acts.query _ s) fun row s₁ _ => ?_
  refine .bind (existingCompletionChapter_steps ch.ordinal) fun found s₂ hfound => ?_
  cases found with
  | none =>
    exact (writeChapter_steps (H.validateLastChapter _ row.metadata) ch.ordinal ch uploads).imp
      fun _ _ hown => .inl hown
  | some existing =>
    obtain ⟨stored, hw, hd⟩ := hfound existing rfl
    refine .check_bind fun c hc => .check_bind fun same hsame => Steps.check fun _ h => ?_
    split at h
    · next heq => exact .inr ⟨c, hc, stored, existing, hw, hd, heq ▸ hsame⟩
    · cases h

theorem completePayloadFailure_steps (ch : Chapter) (auth : State → JobRow → Except Err Unit) :
    Steps H i P (fun _ s => Own H i s.sched key ch.ordinal ch)
      (completePayloadFailure H i key ch auth) s := by
  refine .check_bind fun _ hvalid => .check_bind fun body hbody => ?_
  have hart : ch.artifacts = [] := by
    exact not_not.mp (not_or.mp (ite_error_eq_ok.1 hvalid).1).2
  refine Steps.tx fun s₃ _ s₄ hi _ h => ⟨payloadFailureTx_effect h, body, hbody, ?_⟩
  obtain ⟨r, st, message, t, _, _, hst, hnext, hs₄⟩ := payloadFailureTx_ok h
  have hch : (⟨ch.ordinal, body, [], i⟩ : StoredChapter).ordinal = st.chapterCount := hnext
  rw [hart]
  exact written_setStory (by rw [hs₄, Sched.setJob_logs]) hi.numbered hst hch

theorem completeWith_steps (ch : Chapter) (req : CompleteExecutionRequest) :
    Steps H i P (fun _ s => Completed H i s.sched key ch req.artifactUploads)
      (completeWith H i key leaseID workerID ch req) s := by
  refine .bind (ensureCompletionChapter_steps ch req.artifactUploads) fun _ s₁ h₁ => ?_
  have hend : Acts H i P (do
      let now ← timeNow
      Call.tx (completeTx H key leaseID workerID req now)) :=
    .bind (Acts.query _) fun _ => Acts.tx fun _ _ _ hi h => completeTx_effect hi.keyed h
  exact (hend.since s₁).imp fun _ _ hg => h₁.grows hg

/-- A completion that succeeds leaves its chapter in the log, or finds it there. -/
theorem complete_steps (req : CompleteExecutionRequest) :
    Steps H i P (fun _ s => ∃ ch, req.chapter = some ch ∧
        (Own H i s.sched key ch.ordinal ch ∨ Completed H i s.sched key ch req.artifactUploads))
      (complete H i handle key leaseID workerID req) s := by
  refine .bind (Acts.query _ s) fun _ s₁ _ => .check_bind fun _ _ => .check_bind fun _ _ => ?_
  refine .bind (checkClientPayload_closed acts_closed _ s₁) fun _ s₂ _ => ?_
  cases hch : req.chapter with
  | none => exact Steps.check fun _ h => nomatch h
  | some ch =>
    dsimp only
    split
    · refine .check_bind fun _ _ => ?_
      exact (completePayloadFailure_steps ch _).imp fun _ _ h => ⟨ch, rfl, .inl h⟩
    · exact (completeWith_steps ch req).imp fun _ _ h => ⟨ch, rfl, .inr h⟩

/-! ## Waiting tasks -/

theorem waitingTask_eq_ok {row : JobRow} {req : CompleteTaskIfWaitingRequest} {now : Time}
    {tw : TaskWait} (h : waitingTask row req now = .ok tw) :
    row.payload.taskWait = some tw ∧ tw.outputOrdinal = req.outputOrdinal := by
  unfold waitingTask at h
  split at h
  · cases h
  split at h
  · cases h
  next tw' htw =>
  split at h
  · cases h
  split at h
  · cases h
  split at h
  · cases h
  split at h
  · cases h
  · next hne =>
    split at h
    · cases h
    · cases h
      exact ⟨htw, not_not.mp hne⟩

/-- From the claim on: the claim is on record before the output is written, and
the final reschedule goes to its route. -/
theorem commitTaskOutput_steps (hP : Permits P) {row : JobRow} {tw : TaskWait}
    (hwait : row.payload.taskWait = some tw) (body : String) (artifacts : List StoredArtifact) :
    Steps H i P (fun _ s =>
        Written s.sched row.key tw.outputOrdinal ⟨tw.outputOrdinal, body, artifacts, i⟩)
      (commitTaskOutput H i row tw body artifacts) s := by
  refine .bind (ensureNextVisibleChapterOrdinal_steps tw.outputOrdinal) fun _ s₁ h0 => ?_
  have hclaim : Steps H i P (fun l s => l.jobKey = row.key ∧ l.route.taskType = "" ∧
      ClaimedAs s.sched l.leaseID l.route)
      (Call.tx (claimTx H row tw.resumeJobType row.payload.runPolicy)) s₁ := by
    refine Steps.tx fun s₂ l s₃ _ _ h => ⟨claimTx_effect hwait h, ?_⟩
    obtain ⟨hkey, hroute, r, _, _, _, hs₃⟩ := claimTx_ok hwait h
    refine ⟨hkey, by rw [hroute], ?_⟩
    rw [hs₃]
    exact ⟨_, List.mem_append_right _ (List.mem_singleton_self _), rfl, rfl, nofun⟩
  refine .bind hclaim fun lease s₂ h₂ => ?_
  obtain ⟨hkey, htask, hclaimed⟩ := h₂
  have happend : Steps H i P (fun _ s => (0 ≤ tw.outputOrdinal → Written s.sched lease.jobKey
      tw.outputOrdinal ⟨tw.outputOrdinal, body, artifacts, i⟩) ∧
        ClaimedAs s.sched lease.leaseID lease.route)
      (appendTaskOutput i lease tw.outputOrdinal body artifacts) s₂ :=
    Steps.frame (.bind (Acts.query _ s₂) fun _ _ _ => saveChapter_steps) hclaimed
      fun _ _ hg hc => ClaimedAs.grows hc hg
  refine .bind happend fun _ s₃ h₃ => ?_
  obtain ⟨hwritten, hclaimed₃⟩ := h₃
  have hresched : Steps H i P (fun _ _ => True) (reschedule H (some lease.expiresAt) lease.jobKey
      lease.leaseID lease.workerID { nextRoute := lease.route }) s₃ := by
    refine reschedule_steps fun v task hg ht => ?_
    obtain ⟨_, _, ht⟩ := bind_eq_ok.mp ht
    rw [if_pos htask] at ht
    cases ht
    exact hP v _ _ (hclaimed₃.grows hg)
  have hw : Written s₃.sched row.key tw.outputOrdinal ⟨tw.outputOrdinal, body, artifacts, i⟩ :=
    hkey ▸ hwritten h0
  exact (Steps.frame hresched hw fun _ _ hg h => Written.grows h hg).imp fun _ _ h => h.2

/-- What the log holds after a task's result was brought in: the call's own output
chapter. -/
def TaskWritten (H : Host) (i : Nat) (v : Sched) (req : CompleteTaskIfWaitingRequest) : Prop :=
  ∃ tw policy input now body artifacts,
    H.taskOutput req tw policy input now = .ok (body, artifacts) ∧
      Written v req.jobKey req.outputOrdinal ⟨req.outputOrdinal, body, artifacts, i⟩

theorem completeTaskIfWaiting_steps (hP : Permits P) (req : CompleteTaskIfWaitingRequest) :
    Steps H i P (fun _ s => TaskWritten H i s.sched req) (completeTaskIfWaiting H i req) s := by
  refine .check_bind fun _ _ => .check_bind fun _ _ => ?_
  refine .query_bind (fun _ => .same) fun s₁ row hi _ hload => ?_
  have hkey : row.key = req.jobKey := hi.keyed _ _ (State.loadJobRow_eq_ok.mp hload)
  refine .bind (Acts.query _ s₁) fun now s₂ _ => .check_bind fun tw hwait => ?_
  obtain ⟨htw, hord⟩ := waitingTask_eq_ok hwait
  refine .bind (Acts.query _ s₂) fun input s₃ _ => ?_
  refine .bind (Acts.query _ s₃) fun now' s₄ _ => .check_bind fun out hout => ?_
  obtain ⟨body, artifacts⟩ := out
  refine .check_bind fun stored _ => ?_
  split
  · refine (commitTaskOutput_steps hP htw body artifacts).imp fun _ _ hw => ?_
    rw [hkey, hord] at hw
    exact ⟨tw, _, input, now', body, artifacts, hout, hw⟩
  · exact .bind (completePayloadFailure_steps _ _) fun _ _ _ => Steps.check fun _ h => nomatch h
  · exact Steps.check fun _ h => nomatch h

/-! ## Leases granted -/

theorem submit_acts (req : SubmitRequest) : Acts H i P (submit i req) := by
  refine submit_closed acts_closed (fun _ hw => ?_) ?_ fun _ => ?_
  · exact Acts.tx fun _ _ _ _ h => appendTx_effect hw h
  · exact Acts.tx fun _ _ _ _ h => createStoryTx_effect h
  · exact Acts.tx fun _ _ _ _ h => insertJobTx_effect h

theorem complete_acts (req : CompleteExecutionRequest) :
    Acts H i P (complete H i handle key leaseID workerID req) := fun _ =>
  (complete_steps req).imp fun _ _ _ => trivial

/-- An operation of the goal engine in a transaction of its own. -/
theorem goalTx_acts {α : Type} {m : Time → Tx State Err α}
    (hm : ∀ now, Tx.Within SameSched (m now)) :
    Acts H i P (Call.tx (do
      let now ← clock
      let _ ← m now : Tx State Err Unit)) := by
  refine Acts.tx fun s₁ _ s₂ _ h => ?_
  obtain ⟨_, h₁, -⟩ := Tx.bind_pure_eq_ok.mp (clock_bind_eq_ok.mp h)
  rw [hm _ h₁]
  exact .same

theorem noLease_steps {x : Call State Err Unit} {Q : State → Prop}
    (h : Steps H i P (fun _ s => Q s) x s) :
    Steps H i P (fun _ s => Q s) (noLease x) s :=
  .bind h fun _ _ hq => .pure hq

theorem noLease_acts {x : Call State Err Unit} (h : Acts H i P x) : Acts H i P (noLease x) :=
  .bind h fun _ => .pure _

/-! ## All calls -/

/-- What success of a call says about the log. -/
def Answer (H : Host) (i : Nat) (c : Request) (v : Sched) : Prop :=
  match c with
  | .putChapter _ req =>
    ∃ ch, prepareChapterWrite H req.chapter req.artifactUploads = .ok ch ∧
      Own H i v req.jobKey req.ordinal ch
  | .complete _ key _ _ req =>
    ∃ ch, req.chapter = some ch ∧
      (Own H i v key ch.ordinal ch ∨ Completed H i v key ch req.artifactUploads)
  | .completeTaskIfWaiting req => TaskWritten H i v req
  | _ => True

theorem Answer.grows {c : Request} {v v' : Sched} (h : Answer H i c v) (hg : Grows v v') :
    Answer H i c v' := by
  cases c with
  | putChapter claims req =>
    obtain ⟨ch, hp, hown⟩ := h
    exact ⟨ch, hp, hown.grows hg⟩
  | complete handle key leaseID workerID req =>
    obtain ⟨ch, hch, hown⟩ := h
    exact ⟨ch, hch, hown.imp (·.grows hg) (·.grows hg)⟩
  | completeTaskIfWaiting req =>
    obtain ⟨tw, policy, input, now, body, artifacts, hout, hw⟩ := h
    exact ⟨tw, policy, input, now, body, artifacts, hout, hw.grows hg⟩
  | _ => trivial

/-- A worker's reschedule satisfies `P` when its transaction runs. -/
def Request.Meets (P : Terms)
    (c : Request) (v : Sched) : Prop :=
  match c with
  | .reschedule _ _ leaseID _ req => ∀ v' task, Grows v v' →
    rescheduleTaskWait req.nextRoute req.taskWait = .ok task → P v' leaseID req task
  | _ => True

/-- Where `P` demands nothing. -/
theorem Request.meets_of_forall (hP : ∀ v L req task, P v L req task) (c : Request) (v : Sched) :
    c.Meets P v := by
  unfold Request.Meets
  split
  · exact fun _ _ _ _ => hP _ _ _ _
  · trivial

/-- **Every call** takes steps with effects and keeps its word on success. -/
theorem body_steps (hP : Permits P) (c : Request) (hc : c.Meets P s.sched) :
    Steps H i P (fun _ s => Answer H i c s.sched) (body H i c) s := by
  cases c with
  | submit req => exact noLease_acts (submit_acts req) s
  | pollWork req decide rounds =>
    exact pollWork_closed acts_closed (fun _ _ _ _ _ _ _ req _ => complete_acts req)
      (Acts.tx fun _ _ _ hi h => acquireOneLeaseTx_effect hi.keyed h)
      (fun _ _ r _ => submit_acts r) rounds s
  | getJobLease req decision =>
    exact getJobLease_closed acts_closed (fun _ _ _ _ _ req _ => complete_acts req)
      (Acts.tx fun _ _ _ hi h => getJobLeaseTx_effect hi.keyed h) (fun r _ => submit_acts r) s
  | keepAlive handle key leaseID workerID duration =>
    exact noLease_acts (keepAlive_closed acts_closed fun _ =>
      Acts.tx fun _ _ _ _ h => keepAliveTx_effect h) s
  | renew handle key leaseID workerID duration =>
    exact noLease_acts (renew_closed acts_closed (Acts.tx fun _ _ _ _ h => renewTx_effect h)) s
  | reschedule handle key leaseID workerID req =>
    exact noLease_steps (Q := fun _ => True) (reschedule_steps hc)
  | complete handle key leaseID workerID req => exact noLease_steps (complete_steps req)
  | putChapter claims req => exact noLease_steps (putChapter_steps claims req)
  | completeTaskIfWaiting req => exact noLease_steps (completeTaskIfWaiting_steps hP req)
  | cancelJob key reason =>
    refine noLease_acts (.bind (Acts.query _) fun now => ?_) s
    exact Acts.tx fun _ _ _ _ h => cancelTx_effect h
  | deleteJobs req => exact noLease_acts (Acts.tx fun _ _ _ _ h => deleteTx_effect h) s
  | clearCrashConcern key =>
    exact noLease_acts (Acts.tx fun _ _ _ _ h => clearCrashConcernTx_effect h) s
  | addGoalCandidate req =>
    exact noLease_acts (goalTx_acts fun now => Engine.add_within goalStore_writes now req) s
  | failGoal req =>
    exact noLease_acts (goalTx_acts fun now => Engine.fail_within goalStore_writes now req) s

/-- **Every system of calls** in which reschedules satisfy `P`. -/
theorem calls_sound {M : System State Request (Except Err (List Lease))} (hb : M.body = body H)
    (he : M.env = Tick) (hP : Permits P) (ha : ∀ s c, M.allowed s c → c.Meets P s.sched) :
    M.Sound (fun s => Ready s.sched) (fun s s' => Grows s.sched s'.sched)
      (fun i _ s s' => Effect H i P s.sched s'.sched)
      (fun i c r s => ∀ leases, r = .ok leases → Answer H i c s.sched) where
  refl s := .refl _
  trans _ _ _ h h' := h.trans h'
  env s s' hi h := by
    rw [he] at h
    obtain ⟨t, hle, rfl⟩ := h
    have htick : Effect H 0 P s.sched { s.sched with now := t } := .tick hle
    exact ⟨htick.ready hi, htick.grows⟩
  guar _ _ _ _ _ h := h.grows
  stable _ _ _ _ _ _ hq hg leases hr := (hq leases hr).grows hg
  body i c s _ hc := by
    rw [hb]
    exact body_steps hP c (ha s c hc)

end Calls

theorem ready_empty (t : Time) : Ready ({ now := t } : State).sched :=
  ⟨fun _ _ h => (nomatch h), fun _ _ h => nomatch h⟩

end JobDB.Sqlite
