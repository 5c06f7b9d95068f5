import JobDB.Core.Runtime

/-!
# The chapter log of the core runtime

Whatever the scheduler does, the calls write to the chapter log by `create`,
`clonePrefix` and `append` only. So every log stays numbered from 0 on and only
grows, and a call that succeeds has seen its append succeed, or has found a chapter
that is the same.
-/

namespace JobDB.Core

section Calls

variable {σ τ : Type} {S : Services σ τ} (L : LawfulChapterLog S.chapters)

/-- The chapter logs. -/
def logs (s : State σ τ) : Logs JobKey StoredChapter := L.log s.chapters

/-- All logs are numbered from 0 on. -/
abbrev Numbered (s : State σ τ) : Prop := Logs.AllDense StoredChapter.ordinal (logs L s)

/-- All logs have only grown. -/
abbrev Grows (s s' : State σ τ) : Prop := Logs.Grows (logs L s) (logs L s')

/-- Among other calls, every step of the call keeps the logs numbered and lets them
grow, and success of the call means `Q`. -/
abbrev Steps {α : Type} (Q : α → State σ τ → Prop) (x : Call (State σ τ) Err α) (s : State σ τ) :
    Prop :=
  x.Ensures (Numbered L) (Grows L) (Grows L) Q s

/-- Every step of the call keeps the logs numbered and lets them grow. -/
abbrev Acts {α : Type} (x : Call (State σ τ) Err α) : Prop :=
  x.Keeps (Numbered L) (Grows L) (Grows L)

variable {L} {α : Type} {Q : α → State σ τ → Prop} {i : Nat} {s : State σ τ} {key : JobKey}

/-! ## Requests to the services -/

theorem Acts.query (f : State σ τ → Except Err α) : Acts L (Call.query f) :=
  Call.Keeps.query (fun _ => .refl _) f

theorem Steps.check {r : Except Err α} (hQ : ∀ a, r = .ok a → Q a s) :
    Steps L Q (Call.check r) s := Call.Ensures.check hQ

/-- What only grows is not lost during a call. -/
theorem Steps.frame {x : Call (State σ τ) Err α} {F : State σ τ → Prop} (h : Steps L Q x s)
    (hF : F s) (hg : ∀ s s', Grows L s s' → F s → F s') :
    Steps L (fun a s => Q a s ∧ F s) x s :=
  Call.Ensures.frame h hF (fun _ _ _ hf hr => hg _ _ hr hf) fun _ _ _ hf hr => hg _ _ hr hf

/-- What only grows is not lost during a call of which nothing else is known. -/
theorem Acts.frame {x : Call (State σ τ) Err α} {F : State σ τ → Prop} (h : Acts L x) (hF : F s)
    (hg : ∀ s s', Grows L s s' → F s → F s') : Steps L (fun _ s => F s) x s :=
  (Steps.frame (h s) hF hg).imp fun _ _ h => h.2

/-- The scheduler has no part in the chapter logs. -/
theorem change_acts (f : Scheduler σ → σ → Except Err σ) : Acts L (change S f) := by
  refine Call.Keeps.tx (fun _ => .refl _) fun s a s' hi h => ?_
  obtain ⟨scheduler, _, rfl⟩ := map_eq_ok.mp (Tx.write_eq_ok.mp h)
  exact ⟨hi, .refl _⟩

theorem claim_acts (waiting : WaitingTaskSnapshot) : Acts L (claim S key waiting) := by
  refine .bind (Acts.query _) fun t => ?_
  refine Call.Keeps.tx (fun _ => .refl _) fun s a s' hi h => ?_
  obtain ⟨⟨identity, scheduler⟩, _, he⟩ := bind_eq_ok.mp h
  cases he
  exact ⟨hi, .refl _⟩

/-- A write to the chapter log. -/
theorem changeLog_steps {f : ChapterLog τ → τ → Except Err τ} {Q : Unit → State σ τ → Prop}
    (hf : ∀ s t, Numbered L s → f S.chapters s.chapters = .ok t →
      Numbered L { s with chapters := t } ∧ Grows L s { s with chapters := t } ∧
        Q () { s with chapters := t }) :
    Steps L Q (changeLog S f) s := by
  refine Call.Ensures.tx (fun _ => .refl _) fun s₁ a s₂ hi _ h => ?_
  obtain ⟨t, ht, rfl⟩ := map_eq_ok.mp (Tx.write_eq_ok.mp h)
  exact hf s₁ t hi ht

theorem append_steps (ch : StoredChapter) :
    Steps L (fun _ s => Logs.At StoredChapter.ordinal (logs L s) key ch.ordinal ch)
      (changeLog S (·.append key ch)) s := by
  refine changeLog_steps fun s t hi ht => ?_
  obtain ⟨l, hl, hnext, ht'⟩ := L.append_ok ht
  have hdense := hi key l hl
  unfold Numbered Grows logs
  rw [ht']
  refine ⟨hi.update (hdense.append hnext), .update fun l₀ hl₀ => ?_, .update_append hdense hnext⟩
  cases hl.symm.trans hl₀
  exact List.prefix_append _ _

theorem create_acts {ch : StoredChapter} (hch : ch.ordinal = 0) :
    Acts L (changeLog S (·.create key ch)) := fun _ => by
  refine changeLog_steps fun s t hi ht => ?_
  obtain ⟨hnone, ht'⟩ := L.create_ok ht
  unfold Numbered Grows logs
  rw [ht']
  refine ⟨hi.update (Dense.nil.append hch), .update fun l₀ hl₀ => ?_, trivial⟩
  exact nomatch hnone.symm.trans hl₀

/-- A restart keeps chapters up to `last`; the one it adds is the next. -/
theorem clonePrefix_acts {source : JobKey} {last : Int} {extra : Option StoredChapter}
    (hextra : ∀ ch, extra = some ch → ch.ordinal = last + 1) :
    Acts L (changeLog S (·.clonePrefix source key last extra)) := fun _ => by
  refine changeLog_steps fun s t hi ht => ?_
  obtain ⟨hnone, l, hl, h0, hlt, ht'⟩ := L.clonePrefix_ok ht
  have hkept := (hi source l hl).take (last.toNat + 1)
  unfold Numbered Grows logs
  rw [ht']
  refine ⟨hi.update ?_, .update fun l₀ hl₀ => (nomatch hnone.symm.trans hl₀), trivial⟩
  cases extra with
  | none => rwa [Option.toList_none, List.append_nil]
  | some ch =>
    refine hkept.append ?_
    rw [hextra ch rfl, List.length_take]
    omega

/-! ## Calls -/

/-- The chapter is in the log in the form it is encoded in, and call `i` wrote it. -/
def Own (L : LawfulChapterLog S.chapters) (i : Nat) (s : State σ τ) (k : JobKey) (n : Int)
    (ch : Chapter) : Prop :=
  ∃ body, S.host.encodeChapter ch = .ok body ∧
    Logs.At StoredChapter.ordinal (logs L s) k n ⟨n, body, ch.artifacts, i⟩

/-- There is a chapter in the log that `sameCompletionChapter` takes for the same. -/
def Equal (L : LawfulChapterLog S.chapters) (s : State σ τ) (k : JobKey) (n : Int) (ch : Chapter) :
    Prop :=
  ∃ stored existing, Logs.At StoredChapter.ordinal (logs L s) k n stored ∧
    decodeChapter S stored = .ok existing ∧ sameCompletionChapter S existing ch = .ok true

theorem Own.grows {s s' : State σ τ} {n : Int} {ch : Chapter} (h : Own L i s key n ch)
    (hg : Grows L s s') : Own L i s' key n ch := by
  obtain ⟨body, hb, hw⟩ := h
  exact ⟨body, hb, hw.grows hg⟩

theorem Equal.grows {s s' : State σ τ} {n : Int} {ch : Chapter} (h : Equal L s key n ch)
    (hg : Grows L s s') : Equal L s' key n ch := by
  obtain ⟨stored, existing, hw, hd⟩ := h
  exact ⟨stored, existing, hw.grows hg, hd⟩

theorem prepareChapterWrite_ordinal {ch p : Chapter} {uploads : List ArtifactUpload}
    (h : prepareChapterWrite S ch uploads = .ok p) : p.ordinal = ch.ordinal := by
  obtain ⟨_, _, h₁⟩ := bind_eq_ok.mp h
  split at h₁
  · split at h₁
    · cases h₁
    · cases h₁
      rfl
  · obtain ⟨_, _, h₂⟩ := bind_eq_ok.mp h₁
    obtain ⟨_, _, rfl⟩ := map_eq_ok.mp h₂
    rfl

theorem encodeChapter_eq_ok {ch : Chapter} {record : StoredChapter}
    (h : encodeChapter S i ch = .ok record) :
    ∃ body, S.host.encodeChapter ch = .ok body ∧ record = ⟨ch.ordinal, body, ch.artifacts, i⟩ := by
  obtain ⟨body, hbody, rfl⟩ := map_eq_ok.mp h
  exact ⟨body, hbody, rfl⟩

/-- Encode and append. -/
theorem write_steps (ch : Chapter) {x : StoredChapter → Call (State σ τ) Err Unit}
    (hx : ∀ record s, Steps L (fun _ s =>
      Logs.At StoredChapter.ordinal (logs L s) key record.ordinal record) (x record) s) :
    Steps L (fun _ s => Own L i s key ch.ordinal ch)
      (do let record ← Call.check (encodeChapter S i ch); x record) s := by
  refine .check_bind fun record hrecord => ?_
  obtain ⟨body, hbody, rfl⟩ := encodeChapter_eq_ok hrecord
  exact (hx _ s).imp fun _ _ hw => ⟨body, hbody, hw⟩

theorem putChapter_steps (claims : Option Claims) (req : PutChapterRequest) :
    Steps L (fun _ s => ∃ ch, prepareChapterWrite S req.chapter req.artifactUploads = .ok ch ∧
        Own L i s req.jobKey req.ordinal ch)
      (putChapter S i claims req) s := by
  refine .check_bind fun _ hvalid => ?_
  have hord : req.chapter.ordinal = req.ordinal := by
    simp only [ite_error_eq_ok] at hvalid
    exact not_not.mp (not_or.mp hvalid.2.1).2
  refine .bind (Acts.query _ s) fun _ s₁ _ => .check_bind fun _ _ => ?_
  refine .bind (Acts.query _ s₁) fun stored s₂ _ => .check_bind fun worker _ => ?_
  refine .bind (Acts.query _ s₂) fun _ s₃ _ => .bind (Acts.query _ s₃) fun count s₄ _ => ?_
  refine .check_bind fun _ _ => .check_bind fun ch hch => .check_bind fun _ _ => ?_
  refine (write_steps ch fun record _ => append_steps record).imp fun _ _ hown => ⟨ch, hch, ?_⟩
  rwa [prepareChapterWrite_ordinal hch, hord] at hown

/-- What the log holds after a completion: the call's own chapter, or one that is
the same. -/
def Completed (L : LawfulChapterLog S.chapters) (i : Nat) (s : State σ τ) (k : JobKey)
    (req : CompleteExecutionRequest) : Prop :=
  ∃ ch p, req.chapter = some ch ∧ prepareChapterWrite S ch req.artifactUploads = .ok p ∧
    (Own L i s k ch.ordinal p ∨ Equal L s k ch.ordinal p)

theorem Completed.grows {s s' : State σ τ} {req : CompleteExecutionRequest}
    (h : Completed L i s key req) (hg : Grows L s s') : Completed L i s' key req := by
  obtain ⟨ch, p, hch, hp, hown⟩ := h
  exact ⟨ch, p, hch, hp, hown.imp (·.grows hg) (·.grows hg)⟩

theorem compareCompletionChapter_steps (ch : Chapter) :
    Steps L (fun _ s => Equal L s key ch.ordinal ch) (compareCompletionChapter S key ch) s := by
  refine .query_bind (fun _ => .refl _) fun s₁ existing _ _ hget => ?_
  have hat : Logs.At StoredChapter.ordinal (logs L s₁) key ch.ordinal existing := L.get_ok hget
  refine .check_bind fun decoded hdecoded => .check_bind fun same hsame => Steps.check fun _ h => ?_
  split at h
  · next heq => exact ⟨existing, decoded, hat, hdecoded, heq ▸ hsame⟩
  · cases h

theorem completionChapter_eq_ok {req : CompleteExecutionRequest} {ch : Chapter}
    (h : completionChapter req = .ok ch) : req.chapter = some ch := by
  unfold completionChapter at h
  cases hch : req.chapter with
  | none =>
    rw [hch] at h
    cases h
  | some ch' =>
    simp only [hch, ite_error_eq_ok] at h
    exact congrArg some (Except.ok.inj h.2.2)

theorem ensureCompletionChapter_steps (req : CompleteExecutionRequest) :
    Steps L (fun _ s => Completed L i s key req) (ensureCompletionChapter S i key req) s := by
  refine .check_bind fun ch hchapter => .bind (Acts.query _ s) fun stored s₁ _ => ?_
  refine .check_bind fun p hp => .bind (Acts.query _ s₁) fun count s₂ _ => ?_
  have hch := completionChapter_eq_ok hchapter
  have hord := prepareChapterWrite_ordinal hp
  split
  · refine (compareCompletionChapter_steps p).imp fun _ _ h => ⟨ch, p, hch, hp, .inr ?_⟩
    rwa [hord] at h
  · refine .check_bind fun _ _ => .check_bind fun _ _ => ?_
    refine (write_steps p fun record _ => append_steps record).imp fun _ _ h =>
      ⟨ch, p, hch, hp, .inl ?_⟩
    rwa [hord] at h

theorem requireCurrent_acts (lease : LeaseSnapshot) : Acts L (requireCurrent S lease) := by
  refine .bind (Acts.query _) fun t => .bind (.check _) fun _ => ?_
  exact .bind (Acts.query _) fun _ => .pure _

theorem complete_steps (lease : LeaseSnapshot) (req : CompleteExecutionRequest) :
    Steps L (fun _ s => Completed L i s lease.identity.jobKey req) (complete S i lease req) s := by
  refine .check_bind fun _ _ => .bind (requireCurrent_acts lease s) fun _ s₁ _ => ?_
  refine .bind (ensureCompletionChapter_steps req) fun _ s₂ hdone => ?_
  refine Acts.frame ?_ hdone fun _ _ hg h => h.grows hg
  refine .bind (.check _) fun status => .bind (Acts.query _) fun t => ?_
  exact change_acts _

theorem commitTask_steps (req : CompleteTaskIfWaitingRequest) (waiting : WaitingTaskSnapshot)
    (ch : Chapter) :
    Steps L (fun _ s => Own L i s req.jobKey ch.ordinal ch) (commitTask S i req waiting ch) s := by
  refine write_steps ch fun record s₁ => ?_
  refine .bind (Acts.query _ s₁) fun count s₂ _ => .check_bind fun _ _ => ?_
  refine .bind (claim_acts waiting s₂) fun identity s₃ _ => ?_
  refine .bind (Acts.query _ s₃) fun _ s₄ _ => .bind (append_steps record) fun _ s₅ hat => ?_
  refine Acts.frame ?_ hat fun _ _ hg h => h.grows hg
  exact .bind (Acts.query _) fun t => change_acts _

theorem inputChapter_acts (ordinal : Int) : Acts L (inputChapter S key ordinal) := by
  unfold inputChapter
  split
  · exact .bind (Acts.query _) fun _ => .pure _
  · exact .pure _

theorem waitingFor_eq_ok {waiting : WaitingTaskSnapshot} {req : CompleteTaskIfWaitingRequest}
    {u : Unit} (h : waitingFor waiting req = .ok u) :
    waiting.task.outputOrdinal = req.outputOrdinal := by
  simp only [waitingFor, ite_error_eq_ok] at h
  exact (not_not.mp (not_or.mp h.2.2.2.1).1).symm

/-- What the log holds after a task's result was brought in: the call's own output
chapter. -/
def TaskWritten (L : LawfulChapterLog S.chapters) (i : Nat) (s : State σ τ)
    (req : CompleteTaskIfWaitingRequest) : Prop :=
  ∃ task policy input t output, S.taskChapter req task policy input t = .ok output ∧
    Own L i s req.jobKey req.outputOrdinal { output with ordinal := req.outputOrdinal }

theorem completeTaskIfWaiting_steps (req : CompleteTaskIfWaitingRequest) :
    Steps L (fun _ s => TaskWritten L i s req) (completeTaskIfWaiting S i req) s := by
  refine .check_bind fun _ _ => .check_bind fun _ _ => .bind (Acts.query _ s) fun waiting s₁ _ => ?_
  refine .check_bind fun _ hwait => .bind (Acts.query _ s₁) fun stored s₂ _ => ?_
  refine .bind (Acts.query _ s₂) fun t s₃ _ => .check_bind fun _ _ => ?_
  refine .bind (inputChapter_acts _ s₃) fun input s₄ _ => ?_
  refine .bind (Acts.query _ s₄) fun t' s₅ _ => .check_bind fun output hout => ?_
  dsimp only
  split
  · refine (commitTask_steps req waiting _).imp fun _ _ hown => ?_
    rw [waitingFor_eq_ok hwait] at hown
    exact ⟨waiting.task, stored.runPolicy, input, t', output, hout, hown⟩
  · refine .bind (claim_acts waiting _) fun _ _ _ => .bind (complete_steps _ _) fun _ _ _ => ?_
    exact Steps.check fun _ h => nomatch h
  · exact Steps.check fun _ h => nomatch h

theorem restartChapter_ordinal {last : Int} {extra : Option Chapter}
    {record : Option StoredChapter} (h : restartChapter S i last extra = .ok record) :
    ∀ ch, record = some ch → ch.ordinal = last + 1 := by
  rintro ch rfl
  cases extra with
  | none => cases h
  | some chapter =>
    obtain ⟨r, hr, he⟩ := bind_eq_ok.mp h
    obtain ⟨body, _, rfl⟩ := encodeChapter_eq_ok hr
    cases he
    rfl

/-! ## All calls -/

/-- What success of a call says about the log. -/
def Answer (L : LawfulChapterLog S.chapters) (i : Nat) (c : Request) (s : State σ τ) : Prop :=
  match c with
  | .putChapter _ req =>
    ∃ ch, prepareChapterWrite S req.chapter req.artifactUploads = .ok ch ∧
      Own L i s req.jobKey req.ordinal ch
  | .complete lease req => Completed L i s lease.identity.jobKey req
  | .completeByID key _ _ req => Completed L i s key req
  | .completeTaskIfWaiting req => TaskWritten L i s req
  | _ => True

theorem Answer.grows {c : Request} {s s' : State σ τ} (h : Answer L i c s) (hg : Grows L s s') :
    Answer L i c s' := by
  cases c with
  | putChapter claims req =>
    obtain ⟨ch, hp, hown⟩ := h
    exact ⟨ch, hp, hown.grows hg⟩
  | complete lease req => exact Completed.grows h hg
  | completeByID key leaseID workerID req => exact Completed.grows h hg
  | completeTaskIfWaiting req =>
    obtain ⟨task, policy, input, t, output, hout, hown⟩ := h
    exact ⟨task, policy, input, t, output, hout, hown.grows hg⟩
  | _ => trivial

theorem body_steps (c : Request) : Steps L (fun _ s => Answer L i c s) (body S i c) s := by
  cases c with
  | submitJob key initial =>
    refine .check_bind fun record hrecord => ?_
    obtain ⟨body, _, rfl⟩ := encodeChapter_eq_ok hrecord
    exact .bind (create_acts rfl s) fun _ s₁ _ => change_acts _ s₁
  | submitRestartJob source key last extra =>
    refine .check_bind fun record hrecord => ?_
    exact .bind (clonePrefix_acts (restartChapter_ordinal hrecord) s) fun _ s₁ _ => change_acts _ s₁
  | putChapter claims req => exact putChapter_steps claims req
  | complete lease req => exact complete_steps lease req
  | completeByID key leaseID workerID req =>
    refine .check_bind fun _ _ => .query_bind (fun _ => .refl _) fun s₁ lease _ _ hlease => ?_
    have hkey : lease.identity.jobKey = key := S.scheduler.validateLease_jobKey hlease
    exact (complete_steps lease req).imp fun _ _ h => hkey ▸ h
  | completeTaskIfWaiting req => exact completeTaskIfWaiting_steps req
  | cancelJob key reason => exact .bind (Acts.query _ s) fun t s₁ _ => change_acts _ s₁

end Calls

theorem system_sound {σ τ : Type} (S : Services σ τ) (L : LawfulChapterLog S.chapters) :
    (system S).Sound (Numbered L) (Grows L) (fun _ _ => Grows L)
      (fun i c r s => ∀ out, r = .ok out → Answer L i c s) where
  refl _ := .refl _
  trans _ _ _ h h' := h.trans h'
  env s s' hi h := by
    have hlogs : logs L s' = logs L s := by
      unfold logs
      rw [h.1]
    unfold Numbered Grows
    rw [hlogs]
    exact ⟨hi, .refl _⟩
  guar _ _ _ _ _ h := h
  stable _ _ _ _ _ _ hq hg out hr := (hq out hr).grows hg
  body _ c _ _ _ := body_steps c

end JobDB.Core
