import JobDB.Core.Submit
import JobDB.Sqlite.Submit

/-!
# Submissions that are made again

A submission under an ID of the caller's choice may be made again, and one that stopped half way is
then carried on: a first chapter that is there already is compared with the request, and a job that
is missing is published. That should end when the job has moved on. A job whose chapters go beyond
the first has run, and if its row is missing then something is lost; the submission should fail
rather than start the job over.

`resubmission_reports_iff` says what it does in the SQLite runtime and in the core runtime over any
scheduler. Only the first chapter is compared, and nothing counts the others: a job whose row is
missing is published anew unless something refuses the request (`Accepted`). `lost_job_starts_over`
is a job of two chapters that is.

A story can be longer than its job's submission has made it without a job having been published at
all: a restart into the same ID links the chapters of the job it goes back to, and leaves them there
if its publication fails.
-/

namespace JobDB

/-- The handle names the goal and the cell. -/
def JobHandle.Names (h : JobHandle) (goalID : String) (cell : ResolvedCell) : Prop :=
  h.goalID = goalID ∧ h.cell.cellID = cell.cellID ∧ h.cell.cellRepo = cell.cellRepo

/-- A call that leaves what is published alone (`same`) and answers only what is there already. -/
structure Reports {σ α : Type} (same : σ → σ → Prop) (there : α → Prop) (x : Call σ Err α) (s : σ) :
    Prop where
  unchanged : same s (Proc.alone x s).2
  existing : ∀ a, (Proc.alone x s).1 = .ok a → there a

section Outcome

variable {σ α : Type} {same : σ → σ → Prop} {there : α → Prop} {published : σ → Bool}
  {accepted : Prop} {x : Call σ Err α} {s : σ}

/-- What a submission over existing chapters comes to: the job is made anew where it is not
published and the request is accepted, or nothing is changed that is published. -/
def Outcome (same : σ → σ → Prop) (there : α → Prop) (published : σ → Bool) (accepted : Prop)
    (s : σ) (a : Except Err α) (s' : σ) : Prop :=
  published s = false ∧ accepted ∧ published s' = true ∨
    same s s' ∧ (∀ h, a = .ok h → there h) ∧ (published s = false → ¬ accepted)

/-- One that fails. -/
theorem Outcome.error {s' : σ} (e : Err) (hsame : same s s') (hnot : ¬ accepted) :
    Outcome same there published accepted s (.error e) s' :=
  .inr ⟨hsame, fun _ he => (nomatch he), fun _ => hnot⟩

/-- A call fails and leaves what is published. -/
def FailsLeaving (same : σ → σ → Prop) (s : σ) (a : Except Err α) (s' : σ) : Prop :=
  (∃ e, a = .error e) ∧ same s s'

/-- A submission that fails clears up. -/
theorem Outcome.recover {s₀ : σ} {clear : Err → Call σ Err α}
    (htrans : ∀ s₁ s₂ s₃, same s₁ s₂ → same s₂ s₃ → same s₁ s₃)
    (hpublished : ∀ s s', same s s' → published s' = published s)
    (hclear : ∀ e s, Proc.Solo (FailsLeaving same s) (clear e) s)
    (hx : Proc.Solo (Outcome same there published accepted s₀) x s) :
    Proc.Solo (Outcome same there published accepted s₀) (x.recover clear) s := by
  refine Call.solo_recover hx (fun _ _ h => h) fun e s₁ h₁ => (hclear e s₁).imp ?_
  rintro _ s₂ ⟨⟨e', rfl⟩, hsame⟩
  rcases h₁ with ⟨hlost, haccepted, hmade⟩ | ⟨hkept, -, hnot⟩
  · exact .inl ⟨hlost, haccepted, (hpublished _ _ hsame).trans hmade⟩
  · exact .inr ⟨htrans _ _ _ hkept hsame, fun _ he => (nomatch he), hnot⟩

/-- What a step over existing chapters comes to: it makes the job, or the job cannot be made,
nothing is written and an answer is about what is there. -/
def MakesOrAnswers (makes : σ → Prop) (there : α → Prop) (s : σ) (a : Except Err α) (s' : σ) :
    Prop :=
  makes s' ∨ s' = s ∧ (∀ s₁, ¬ makes s₁) ∧ ∀ h, a = .ok h → there h

theorem MakesOrAnswers.error {makes : σ → Prop} (e : Err) (hnot : ∀ s₁, ¬ makes s₁) :
    MakesOrAnswers makes there s (.error e) s :=
  .inr ⟨rfl, hnot, fun _ he => nomatch he⟩

theorem Reports.iff_of_outcome (hsame : ∀ s', same s s' → published s' = published s)
    (h : Proc.Solo (Outcome same there published accepted s) x s) :
    Reports same there x s ↔ published s = true ∨ ¬ accepted := by
  rcases h.answer with ⟨hlost, haccepted, hmade⟩ | ⟨hkept, hokay, hnot⟩
  · refine iff_of_false (fun hreports => ?_) ?_
    · rw [hsame _ hreports.unchanged, hlost] at hmade
      cases hmade
    · rintro (hthere | hrefused)
      · exact nomatch hlost.symm.trans hthere
      · exact hrefused haccepted
  · refine iff_of_true ⟨hkept, hokay⟩ ?_
    cases hrow : published s with
    | true => exact .inl rfl
    | false => exact .inr (hnot hrow)

end Outcome

namespace Sqlite

/-- The story of a job goes beyond its first chapter. -/
def MovedOn (d : Db) (key : JobKey) : Prop :=
  ∃ st, d.sched.story key = some st ∧ 1 < st.chapterCount

/-! ### What may refuse a request -/

/-- The preparation is for the same request and cell. -/
structure SamePreparation (req : Preparation) (target : ResolvedCell) (p : PreparedJob) : Prop where
  repo : p.request.target.cellRepo = target.cellRepo
  cell : p.request.target.cellID = target.cellID
  descriptor : p.request.descriptor = req.descriptor
  jobID : p.request.key.jobId = req.key.jobId

/-- The preparation by which a job is published: the one that is there, or a new one. -/
def preparationFor (H : Host) (req : Preparation) (target : ResolvedCell) (d : Db) : PreparedJob :=
  (d.preparations.lookup req.key).getD ⟨{ req with target := target }, H.ksuid d.state.drawn⟩

/-- The database with the job prepared. -/
def Db.prepared (d : Db) (H : Host) (req : Preparation) (target : ResolvedCell) : Db :=
  if (d.preparations.lookup req.key).isSome then d
  else
    { d with
      state := { d.state with drawn := d.state.drawn + 1 }
      preparations := d.preparations.insert req.key (preparationFor H req target d) }

/-- The checks on the goal and the dependencies of a new job: its goal can be published, and with
the goal and the job's row in the tables its dependencies are registered and its goal is on no
cycle. -/
def GoalsFit (p : Submission) (now : Time) (s : State) : Prop :=
  ∃ s₁ s₂, publishGoal p now s = .ok ((), s₁) ∧
    registerSubmission p { s₁ with jobs := s₁.jobs.insert p.key (p.row now) } = .ok ((), s₂) ∧
    Engine.checkCycle goalStore s₂.now p.key.tenantId { goalID := p.goalID } s₂ = .ok ((), s₂)

section Accepted

variable (L : CellLib) (H : Host) (D : PayloadLib) (F : SubmitLib) (C : StartCodec) (ctx : Ctx)
  (job : SubmitJob) (workerID : String) (d : Db)

/-- Nothing in the request or in the database refuses the job. -/
structure Fits (req : Preparation) (target cell : ResolvedCell) (st : Story) (plan : Plan)
    (payload : Option String × Int) (digest : String) : Prop where
  request : submitPreparation F job "" = .ok req
  /-- The cell that is named is there for the caller. -/
  resolved : prepareCell L ctx req d = .ok target
  /-- A preparation that is there was made for this request. -/
  same : ∀ p, d.preparations.lookup req.key = some p → SamePreparation req target p
  planned : submitPlan H D F C job "" workerID job.key d = .ok plan
  story : d.sched.story job.key = some st
  /-- The first chapter is the one that the request would have written. -/
  start : submitCompare H D F C job job.key plan d st = .ok ()
  initial : H.initialPayload job.clientPayloadUpdate = .ok payload
  digested : D.digest payload.1 = .ok digest
  /-- The cell that was prepared is still what it was. -/
  kept : publishCell L ctx job.key (preparationFor H req target d) d = .ok cell
  goals : GoalsFit (plan.job.submission job.key payload digest cell (preparationFor H req target d))
    d.state.now (d.prepared H req target).state

/-- The request is one that is accepted for the story that exists. -/
def Accepted : Prop :=
  ∃ req target cell st plan payload digest,
    Fits L H D F C ctx job workerID d req target cell st plan payload digest

end Accepted

variable {L : CellLib} {H : Host} {D : PayloadLib} {F : SubmitLib} {C : StartCodec} {ctx : Ctx}
  {writer : Nat} {job : SubmitJob} {workerID : String} {d d' : Db} {key : JobKey} {st : Story}
  {req : Preparation} {target : ResolvedCell}

/-- What is published is all that a cell is resolved by. -/
theorem prepareCell_samePublished (h : d.SamePublished d') :
    prepareCell L ctx req d' = prepareCell L ctx req d := by
  obtain ⟨⟨n, hn⟩, hc⟩ := h
  unfold prepareCell scheduleParent cellParent existingCell Db.sched
  rw [hn, hc]
  rfl

theorem publishCell_samePublished {p : PreparedJob} (h : d.SamePublished d') :
    publishCell L ctx key p d' = publishCell L ctx key p d := by
  unfold publishCell
  rw [prepareCell_samePublished h]

theorem prepared_samePublished : d.SamePublished (d.prepared H req target) := by
  unfold Db.prepared
  split
  · exact .refl d
  · exact ⟨⟨_, rfl⟩, rfl⟩

theorem prepared_lookup :
    (d.prepared H req target).preparations.lookup req.key =
      some (preparationFor H req target d) := by
  unfold Db.prepared
  cases hp : d.preparations.lookup req.key with
  | some p =>
    unfold preparationFor
    rw [hp]
    exact hp
  | none => exact AList.lookup_insert _

/-! ### Preparing and inserting -/

/-- What a request of `SubmitJob` is answered. -/
def preparedAs (H : Host) (req : Preparation) (target : ResolvedCell) (d : Db) : Prepared where
  target := target
  key := req.key
  goalID := (preparationFor H req target d).goalID
  published := (d.preparations.lookup req.key).isSome && (d.sched.job req.key).isSome

theorem confirmPreparation_iff {p : PreparedJob} {r : Prepared} (hid : req.key.jobId ≠ "") :
    confirmPreparation req target p d = .ok r ↔ SamePreparation req target p ∧
      r = ⟨target, req.key, p.goalID, (d.sched.job req.key).isSome⟩ := by
  unfold confirmPreparation
  constructor
  · intro h
    split at h
    · cases h
    · next hcell =>
      split at h
      · cases h
      · next hsame =>
        push Not at hcell hsame
        have hjob := hsame.2 hid
        rw [hjob] at h
        exact ⟨⟨hcell.1, hcell.2, hsame.1, hjob⟩, (Except.ok.inj h).symm⟩
  · rintro ⟨⟨hrepo, hcell, hdescriptor, hjob⟩, rfl⟩
    rw [if_neg (by simp [hrepo, hcell]), if_neg (by simp [hdescriptor, hjob]), hjob]

theorem reserve_eq (hreq : req.requestID = "") (hshare : req.shareGoal = false)
    (hid : req.key.jobId ≠ "") (hp : d.preparations.lookup req.key = none)
    (hvalid : req.key.validate = .ok ()) :
    reserve H req target d = .ok (preparedAs H req target d, d.prepared H req target) := by
  have hdest : checkDestination req req.key d = .ok () := if_neg fun h => h.1 hreq
  have hgoal : reservedGoal req (H.ksuid d.state.drawn)
      { d with state := { d.state with drawn := d.state.drawn + 1 } } =
        .ok (H.ksuid d.state.drawn) := if_neg (by simp [hshare])
  unfold reserve destinationID preparedAs Db.prepared preparationFor
  rw [if_neg hid, hp]
  refine Tx.bind_eq_ok.2 ⟨_, d, rfl, Tx.read_bind_eq_ok.2 ⟨(), hvalid, ?_⟩⟩
  refine Tx.read_bind_eq_ok.2 ⟨(), hdest, Tx.bind_eq_ok.2 ⟨_, _, rfl, ?_⟩⟩
  exact Tx.read_bind_eq_ok.2 ⟨_, hgoal, rfl⟩

/-- `PrepareJob` for a request of `SubmitJob`: the cell has to be there, and a preparation that is
there has to be for the same request. -/
theorem prepareJobTx_iff (hreq : req.requestID = "") (hshare : req.shareGoal = false)
    (hid : req.key.jobId ≠ "") {r : Prepared} {d₁ : Db} :
    prepareJobTx L H ctx req d = .ok (r, d₁) ↔ ∃ target, prepareCell L ctx req d = .ok target ∧
      (∀ p, d.preparations.lookup req.key = some p → SamePreparation req target p) ∧
      (d.preparations.lookup req.key = none → req.key.validate = .ok ()) ∧
      r = preparedAs H req target d ∧ d₁ = d.prepared H req target := by
  have hadopt : adoptDestination req d = .ok req := if_pos hreq
  have hstored : d.stored req = d.preparations.lookup req.key := if_pos hreq
  unfold prepareJobTx
  simp only [Tx.read_bind_eq_ok, hadopt, hstored, Except.ok.injEq, exists_eq_left']
  refine exists_congr fun target => and_congr_right fun _ => ?_
  cases hp : d.preparations.lookup req.key with
  | none =>
    show reserve H req target d = .ok (r, d₁) ↔ _
    constructor
    · intro h
      have hvalid : req.key.validate = .ok () := by
        unfold reserve destinationID at h
        rw [if_neg hid, pure_bind] at h
        obtain ⟨_, hvalid, -⟩ := Tx.read_bind_eq_ok.1 h
        exact hvalid
      rw [reserve_eq hreq hshare hid hp hvalid] at h
      obtain ⟨rfl, rfl⟩ := Prod.mk.inj (Except.ok.inj h)
      exact ⟨fun _ h => (nomatch h), fun _ => hvalid, rfl, rfl⟩
    · rintro ⟨-, hvalid, rfl, rfl⟩
      exact reserve_eq hreq hshare hid hp (hvalid rfl)
  | some p =>
    show Tx.read (confirmPreparation req target p) d = .ok (r, d₁) ↔ _
    have hafter : d.prepared H req target = d := if_pos (by rw [hp]; rfl)
    have has : preparedAs H req target d =
        ⟨target, req.key, p.goalID, (d.sched.job req.key).isSome⟩ := by
      unfold preparedAs preparationFor
      rw [hp]
      rfl
    rw [Tx.read_eq_ok, confirmPreparation_iff hid, hafter, has]
    constructor
    · rintro ⟨⟨hsame, hr⟩, hd⟩
      exact ⟨fun q hq => Option.some.inj hq ▸ hsame, fun h => (nomatch h), hr, hd⟩
    · rintro ⟨hsame, -, hr, hd⟩
      exact ⟨⟨hsame p rfl, hr⟩, hd⟩

/-- An insertion goes through exactly if the checks on the goal and the dependencies pass. -/
theorem insertJobTx_iff {p : Submission} {now : Time} {s : State} (h : s.jobs.lookup p.key = none) :
    (∃ s', insertJobTx p now s = .ok ((), s')) ↔ GoalsFit p now s := by
  have hfree : (if (s.jobs.lookup p.key).isSome then .error (.conflict "") else .ok () :
      Except Err Unit) = .ok () := by rw [h]; rfl
  constructor
  · rintro ⟨s', hs⟩
    obtain ⟨_, -, hs⟩ := Tx.read_bind_eq_ok.1 hs
    obtain ⟨_, s₁, hgoal, hs⟩ := Tx.bind_eq_ok.1 hs
    obtain ⟨_, s₂, hrow, hs⟩ := Tx.bind_eq_ok.1 hs
    obtain rfl := Except.ok.inj (Tx.write_eq_ok.1 hrow)
    obtain ⟨_, s₃, hregister, hs⟩ := Tx.bind_eq_ok.1 hs
    obtain ⟨now', hnow, hs⟩ := Tx.read_bind_eq_ok.1 hs
    obtain rfl := Except.ok.inj hnow
    obtain ⟨-, rfl⟩ := Tx.read_eq_ok.1 hs
    exact ⟨s₁, _, hgoal, hregister, hs⟩
  · rintro ⟨s₁, s₂, hgoal, hregister, hcycle⟩
    refine ⟨s₂, Tx.read_bind_eq_ok.2 ⟨(), hfree, Tx.bind_eq_ok.2 ⟨(), s₁, hgoal, ?_⟩⟩⟩
    refine Tx.bind_eq_ok.2 ⟨(), _, Tx.write_eq_ok.2 rfl, Tx.bind_eq_ok.2 ⟨(), s₂, hregister, ?_⟩⟩
    exact Tx.read_bind_eq_ok.2 ⟨_, rfl, hcycle⟩

/-- The job is prepared and not there yet, and its row can be inserted. -/
def Insertable (L : CellLib) (H : Host) (D : PayloadLib) (ctx : Ctx) (key : JobKey)
    (f : JobFields) (d : Db) : Prop :=
  d.sched.job key = none ∧ ∃ payload digest p cell,
    H.initialPayload f.clientPayloadUpdate = .ok payload ∧ D.digest payload.1 = .ok digest ∧
    d.preparations.lookup key = some p ∧ publishCell L ctx key p d = .ok cell ∧
    GoalsFit (f.submission key payload digest cell p) d.state.now d.state

theorem insertJobRecord_iff {f : JobFields} :
    (∃ d', Proc.alone (insertJobRecord L H D ctx key f) d = (.ok (), d')) ↔
      Insertable L H D ctx key f d := by
  constructor
  · rintro ⟨d', h⟩
    have hsolo :
      Proc.Solo (fun (r : Except Err Unit) _ => r = .ok () → Insertable L H D ctx key f d)
        (insertJobRecord L H D ctx key f) d := by
      refine Call.solo_check_bind (fun _ _ h => nomatch h) fun payload hpayload => ?_
      refine Call.solo_check_bind (fun _ _ h => nomatch h) fun digest hdigest => ?_
      refine Call.solo_query_bind (fun _ _ h => nomatch h) fun now hnow => ?_
      obtain rfl := Except.ok.inj hnow
      refine Call.solo_tx (fun _ _ h => nomatch h) fun _ d' h _ => ?_
      obtain ⟨_, -, h⟩ := Tx.read_bind_eq_ok.1 h
      obtain ⟨p, hp, h⟩ := Tx.read_bind_eq_ok.1 h
      obtain ⟨cell, hcell, h⟩ := Tx.read_bind_eq_ok.1 h
      obtain ⟨s, hs, rfl⟩ := Tx.zoom_eq_ok.1 h
      have hnone : d.sched.job key = none := (insertJobTx_sched hs).1
      have hlookup : d.preparations.lookup key = some p := by
        unfold findPreparation at hp
        split at hp
        · cases hp
        · next q hq =>
          obtain rfl := Except.ok.inj hp
          exact hq
      exact ⟨hnone, payload, digest, p, cell, hpayload, hdigest, hlookup, hcell,
        (insertJobTx_iff (p := f.submission key payload digest cell p) hnone).1 ⟨s, hs⟩⟩
    exact hsolo.answer (congrArg Prod.fst h)
  · rintro ⟨hnone, payload, digest, p, cell, hpayload, hdigest, hp, hcell, hgoals⟩
    obtain ⟨s, hs⟩ := (insertJobTx_iff (p := f.submission key payload digest cell p) hnone).2 hgoals
    have hfree : (if (d.sched.job key).isSome then .error (.conflict "") else .ok () :
        Except Err Unit) = .ok () := by rw [hnone]; rfl
    have hfind : findPreparation key d = .ok p := by
      unfold findPreparation
      rw [hp]
    have htx : insertJobRecordTx L ctx key f payload digest d.state.now d =
        .ok ((), { d with state := s }) :=
      Tx.read_bind_eq_ok.2 ⟨(), hfree, Tx.read_bind_eq_ok.2 ⟨p, hfind,
        Tx.read_bind_eq_ok.2 ⟨cell, hcell, Tx.zoom_eq_ok.2 ⟨s, hs, rfl⟩⟩⟩⟩
    refine ⟨{ d with state := s }, ?_⟩
    unfold insertJobRecord
    rw [Call.alone_check_bind hpayload, Call.alone_check_bind hdigest]
    show Tx.commit (insertJobRecordTx L ctx key f payload digest d.state.now) d = _
    unfold Tx.commit
    rw [htx]

/-! ### The steps of a submission over a story that exists -/

theorem createStory_existing {p : Plan} (hst : d.sched.story key = some st) :
    Proc.alone (createStory writer key p) d = (.error (.conflict "story exists"), d) := by
  refine Call.alone_tx_bind_error (Tx.zoom_error (Tx.read_bind_error ?_))
  have hlookup : d.state.stories.lookup key = some st := hst
  rw [hlookup]
  rfl

/-- A story that exists is compared, and nothing is written. -/
theorem ensureStory_existing {q : Intake} {p : Plan} (hst : d.sched.story key = some st) :
    Proc.alone (ensureStory writer q key p) d = (q.compare key p d st, d) := by
  unfold ensureStory
  rw [Call.alone_recover, createStory_existing hst]
  show (reconcileStory q.compare key p (.conflict "story exists") d, d) = _
  unfold reconcileStory
  rw [hst]

/-- An insertion fails and leaves everything as it is, or it makes the job, which was not there. -/
theorem insertJobRecord_cases (L : CellLib) (H : Host) (D : PayloadLib) (ctx : Ctx) (key : JobKey)
    (f : JobFields) (d : Db) :
    (∃ e, Proc.alone (insertJobRecord L H D ctx key f) d = (.error e, d)) ∨
      ∃ d', Proc.alone (insertJobRecord L H D ctx key f) d = (.ok (), d') ∧
        d.sched.job key = none ∧ (d'.sched.job key).isSome = true := by
  have hsolo : Proc.Solo (fun (r : Except Err Unit) (d' : Db) =>
      (∃ e, r = .error e ∧ d' = d) ∨
        r = .ok () ∧ d.sched.job key = none ∧ (d'.sched.job key).isSome = true)
      (insertJobRecord L H D ctx key f) d := by
    refine Call.solo_check_bind (fun e _ => .inl ⟨e, rfl, rfl⟩) fun payload _ => ?_
    refine Call.solo_check_bind (fun e _ => .inl ⟨e, rfl, rfl⟩) fun digest _ => ?_
    refine Call.solo_query_bind (fun e _ => .inl ⟨e, rfl, rfl⟩) fun now _ => ?_
    refine Call.solo_tx (fun e _ => .inl ⟨e, rfl, rfl⟩) fun u d' h => .inr ?_
    obtain ⟨_, -, h⟩ := Tx.read_bind_eq_ok.1 h
    obtain ⟨p, -, h⟩ := Tx.read_bind_eq_ok.1 h
    obtain ⟨target, -, h⟩ := Tx.read_bind_eq_ok.1 h
    obtain ⟨s, hs, rfl⟩ := Tx.zoom_eq_ok.1 h
    obtain ⟨hnone, hsched⟩ := insertJobTx_sched hs
    refine ⟨rfl, hnone, ?_⟩
    show (s.sched.job key).isSome = true
    rw [hsched]
    simp [JobFields.submission]
  rcases hsolo.answer with ⟨e, he, hd⟩ | ⟨hok, hnone, hsome⟩
  · exact .inl ⟨e, Prod.ext he hd⟩
  · exact .inr ⟨_, Prod.ext hok rfl, hnone, hsome⟩

/-- The answer is the job's row. -/
def AnswersRow (d : Db) (key : JobKey) (h : JobHandle) : Prop :=
  h.jobKey = key ∧ ∃ row, d.sched.job key = some row ∧ h.Names row.goalID row.cell

theorem goalHandle_answersRow {h : JobHandle} (hh : goalHandle key d = .ok h) :
    AnswersRow d key h := by
  unfold goalHandle at hh
  split at hh
  · cases hh
  · next row hrow =>
    split at hh
    · cases hh
    · obtain rfl := Except.ok.inj hh
      exact ⟨rfl, row, hrow, rfl, rfl, rfl⟩

/-- The deferred function leaves what is published. -/
theorem discard_leaves {α : Type} (key : JobKey) (e : Err) (d : Db) :
    Proc.Solo (FailsLeaving Db.SamePublished d) (do
      Call.tx (discardTx key)
      Call.check (.error e) : Call Db Err α) d :=
  Call.solo_tx_bind (fun e' _ => ⟨⟨e', rfl⟩, .refl d⟩) fun _ _ h =>
    .ret ⟨⟨e, rfl⟩, discardTx_samePublished h⟩

/-! ### The whole submission -/

/-- The answer is about the job that is there already: as its row has it, or as the preparation by
which it was published. -/
def AnswersExisting (d : Db) (key : JobKey) (h : JobHandle) : Prop :=
  AnswersRow d key h ∨ h.jobKey = key ∧ (d.sched.job key).isSome = true ∧
    ∃ p, d.preparations.lookup key = some p ∧ h.Names p.goalID p.request.target

/-- What a submission comes to that makes the job anew. -/
def MakesAnew (L : CellLib) (H : Host) (D : PayloadLib) (ctx : Ctx) (q : Intake) (key : JobKey)
    (st : Story) (d d' : Db) : Prop :=
  d.sched.job key = none ∧ (d'.sched.job key).isSome = true ∧ ∃ p,
    q.plan key d = .ok p ∧ q.compare key p d st = .ok () ∧
      Proc.alone (insertJobRecord L H D ctx key p.job) d = (.ok (), d')

/-- A submission over a story that exists makes the job anew, or it writes nothing and answers only
if the job is there. The second is excluded if the story compares and the job can be inserted. -/
theorem submitPrepared_cases (L : CellLib) (H : Host) (D : PayloadLib) (ctx : Ctx) (writer : Nat)
    (q : Intake) {r : Prepared} (hst : d.sched.story r.key = some st)
    (hpublished : r.published = false) :
    Proc.Solo
      (MakesOrAnswers (MakesAnew L H D ctx q r.key st d) (AnswersRow d r.key) d)
      (submitPrepared L H D ctx writer q r) d := by
  unfold submitPrepared
  rw [hpublished]
  refine Call.solo_query_bind (fun e hplan => .error e ?_) fun p hplan => ?_
  · rintro d₁ ⟨-, -, p, hp, -⟩
    exact nomatch hplan.symm.trans hp
  refine Call.solo_bind (Proc.Solo.of_alone (Q := fun a d' => a = q.compare r.key p d st ∧
    d' = d) ?_) ?_ ?_
  · rw [ensureStory_existing hst]
    exact ⟨rfl, rfl⟩
  · rintro e d₁ ⟨hcompare, rfl⟩
    refine .error e ?_
    rintro d₂ ⟨-, -, p', hp', hsame, -⟩
    obtain rfl := Except.ok.inj (hplan.symm.trans hp')
    exact nomatch hcompare.trans hsame
  rintro ⟨⟩ d₁ ⟨hcompare, rfl⟩
  have hrecord : Proc.Solo (fun (a : Except Err Unit) (d' : Db) =>
      MakesAnew L H D ctx q r.key st d₁ d' ∧ a = .ok () ∨
        d' = d₁ ∧ ∀ d₂, ¬ MakesAnew L H D ctx q r.key st d₁ d₂)
      (ensureSubmittedJobRecord L H D ctx r.key p.job) d₁ := by
    refine .of_alone ?_
    unfold ensureSubmittedJobRecord
    rw [Call.alone_recover]
    rcases insertJobRecord_cases L H D ctx r.key p.job d₁ with ⟨e, he⟩ | ⟨d₂, hd₂, hnone, hsome⟩
    · rw [he]
      refine .inr ⟨rfl, ?_⟩
      rintro d₂ ⟨-, -, p', hp', -, hinsert⟩
      obtain rfl := Except.ok.inj (hplan.symm.trans hp')
      exact nomatch (Prod.mk.inj (he.symm.trans hinsert)).1
    · rw [hd₂]
      exact .inl ⟨⟨hnone, hsome, p, hplan, hcompare.symm, hd₂⟩, rfl⟩
  refine Call.solo_bind hrecord ?_ ?_
  · rintro e d₂ (⟨-, he⟩ | ⟨rfl, hnot⟩)
    · exact nomatch he
    · exact .error e hnot
  · rintro ⟨⟩ d₂ (⟨hmakes, -⟩ | ⟨rfl, hnot⟩)
    · exact .of_alone (.inl hmakes)
    · exact .of_alone (.inr ⟨rfl, hnot, fun h hh => goalHandle_answersRow hh⟩)

/-- The preparation is for the job that is named. -/
theorem submitPreparation_key {req : Preparation} (h : submitPreparation F job "" = .ok req) :
    req.key = job.key := by
  obtain ⟨_, -, h⟩ := bind_eq_ok.1 h
  obtain ⟨_, -, h⟩ := bind_eq_ok.1 h
  exact PrepareLib.submitPreparation_key _ h

theorem submitPreparation_plain {req : Preparation} (h : submitPreparation F job "" = .ok req) :
    req.requestID = "" ∧ req.shareGoal = false := by
  iterate 7 obtain ⟨_, -, h⟩ := bind_eq_ok.1 h
  obtain rfl := Except.ok.inj h
  exact ⟨rfl, rfl⟩

theorem submitPlan_samePublished (h : d.SamePublished d') :
    submitPlan H D F C job "" workerID key d' = submitPlan H D F C job "" workerID key d := by
  obtain ⟨⟨n, hn⟩, -⟩ := h
  unfold submitPlan
  rw [hn]

theorem submitPlan_ok {p : Plan} (h : submitPlan H D F C job "" workerID key d = .ok p) :
    key.validate = .ok () ∧ p.job.clientPayloadUpdate = job.clientPayloadUpdate := by
  obtain ⟨_, hvalid, h⟩ := bind_eq_ok.1 h
  refine ⟨hvalid, ?_⟩
  iterate 4 obtain ⟨_, -, h⟩ := bind_eq_ok.1 h
  obtain ⟨want, hwant, h⟩ := bind_eq_ok.1 h
  iterate 3 obtain ⟨_, -, h⟩ := bind_eq_ok.1 h
  obtain rfl := Except.ok.inj h
  obtain ⟨_, -, hwant⟩ := bind_eq_ok.1 hwant
  obtain ⟨_, -, hwant⟩ := bind_eq_ok.1 hwant
  obtain rfl := Except.ok.inj hwant
  rfl

variable (H D C workerID) in
/-- With the job prepared, it is made anew exactly if nothing refuses it. -/
theorem makesAnew_iff (hreq : submitPreparation F job "" = .ok req)
    (htarget : prepareCell L ctx req d = .ok target)
    (hsame : ∀ p, d.preparations.lookup req.key = some p → SamePreparation req target p)
    (hst : d.sched.story job.key = some st) :
    (∃ d', MakesAnew L H D ctx (submitIntake H D F C job "" workerID) job.key st
        (d.prepared H req target) d') ↔
      d.sched.job job.key = none ∧ Accepted L H D F C ctx job workerID d := by
  have hkey : req.key = job.key := submitPreparation_key hreq
  have hpub : d.SamePublished (d.prepared H req target) := prepared_samePublished
  have hjob : (d.prepared H req target).sched.job job.key = d.sched.job job.key := by rw [hpub.job]
  have hnow : (d.prepared H req target).state.now = d.state.now := hpub.now
  have hlookup : (d.prepared H req target).preparations.lookup job.key =
      some (preparationFor H req target d) := hkey ▸ prepared_lookup
  constructor
  · rintro ⟨d', hnone, -, plan, hplan, hcompare, hinsert⟩
    obtain ⟨-, payload, digest, p, cell, hpayload, hdigest, hp, hcell, hgoals⟩ :=
      insertJobRecord_iff.1 ⟨d', hinsert⟩
    obtain rfl := Option.some.inj (hlookup.symm.trans hp)
    have hplan := (submitPlan_samePublished hpub).symm.trans hplan
    rw [publishCell_samePublished hpub] at hcell
    rw [(submitPlan_ok hplan).2] at hpayload
    rw [hnow] at hgoals
    exact ⟨hjob.symm.trans hnone, req, target, cell, st, plan, payload, digest, hreq, htarget,
      hsame, hplan, hst, hcompare, hpayload, hdigest, hcell, hgoals⟩
  · rintro ⟨hlost, req', target', cell, st', plan, payload, digest, h⟩
    obtain rfl := Except.ok.inj (hreq.symm.trans h.request)
    obtain rfl := Except.ok.inj (htarget.symm.trans h.resolved)
    obtain rfl := Option.some.inj (hst.symm.trans h.story)
    have hnone := hjob.trans hlost
    have hinsert : ∃ d₂, Proc.alone (insertJobRecord L H D ctx job.key plan.job)
        (d.prepared H req target) = (.ok (), d₂) := by
      refine insertJobRecord_iff.2 ⟨hnone, payload, digest, _, cell, ?_, h.digested, hlookup,
        ?_, ?_⟩
      · rw [(submitPlan_ok h.planned).2]
        exact h.initial
      · rw [publishCell_samePublished hpub]
        exact h.kept
      · rw [hnow]
        exact h.goals
    obtain ⟨d₂, hinsert⟩ := hinsert
    rcases insertJobRecord_cases L H D ctx job.key plan.job (d.prepared H req target) with
      ⟨e, he⟩ | ⟨d₃, hd₃, -, hmade⟩
    · exact nomatch (Prod.mk.inj (he.symm.trans hinsert)).1
    · exact ⟨d₃, hnone, hmade, plan, (submitPlan_samePublished hpub).trans h.planned, h.start, hd₃⟩

/-- What a submission over a story that exists comes to: the job is made anew, or nothing is changed
that is published. -/
theorem submitJob_cases (L : CellLib) (H : Host) (D : PayloadLib) (F : SubmitLib) (C : StartCodec)
    (ctx : Ctx) (writer : Nat) (workerID : String) (hid : job.jobID ≠ "")
    (hst : d.sched.story job.key = some st) :
    Proc.Solo
      (Outcome Db.SamePublished (AnswersExisting d job.key) (fun d' =>
        (d'.sched.job job.key).isSome) (Accepted L H D F C ctx job workerID d) d)
      (submitJob L H D F C ctx writer job workerID) d := by
  refine Call.solo_check_bind (fun e hprep => .error e (.refl d) ?_) fun req hprep => ?_
  · rintro ⟨req, target, cell, st', plan, payload, digest, h⟩
    exact nomatch hprep.symm.trans h.request
  have hkey : req.key = job.key := submitPreparation_key hprep
  obtain ⟨hrequest, hshare⟩ := submitPreparation_plain hprep
  have hprepared {r d₁} : prepareJobTx L H ctx req d = .ok (r, d₁) ↔ _ :=
    prepareJobTx_iff hrequest hshare (hkey ▸ hid)
  refine Call.solo_tx_bind (fun e hr => .error e (.refl d) ?_) fun r d₁ hr => ?_
  · rintro ⟨req', target, cell, st', plan, payload, digest, h⟩
    obtain rfl := Except.ok.inj (hprep.symm.trans h.request)
    have hvalid := (submitPlan_ok h.planned).1
    rw [← hkey] at hvalid
    have hok := hprepared.2 ⟨target, h.resolved, h.same, fun _ => hvalid, rfl, rfl⟩
    exact nomatch hr.symm.trans hok
  obtain ⟨target, htarget, hsame, -, rfl, rfl⟩ := hprepared.1 hr
  have hpub : d.SamePublished (d.prepared H req target) := prepared_samePublished
  refine Outcome.recover Db.SamePublished.trans (fun _ _ h => by rw [h.job])
    (discard_leaves (preparedAs H req target d).key) ?_
  cases hpublished : (preparedAs H req target d).published with
  | true =>
    -- The preparation knows that the job is published.
    obtain ⟨hfound, hsome⟩ := Bool.and_eq_true_iff.1 hpublished
    obtain ⟨p, hp⟩ := Option.isSome_iff_exists.1 hfound
    rw [hkey] at hsome
    unfold submitPrepared
    rw [hpublished]
    refine .ret (.inr ⟨hpub, fun h hh => .inr ?_, fun hlost => nomatch hlost.symm.trans hsome⟩)
    obtain rfl := Except.ok.inj hh
    have hgoal : (preparedAs H req target d).goalID = p.goalID := by
      unfold preparedAs preparationFor
      rw [hp]
      rfl
    exact ⟨hkey, hsome, p, hkey ▸ hp, hgoal, (hsame p hp).cell.symm, (hsame p hp).repo.symm⟩
  | false =>
    have hst₁ : (d.prepared H req target).sched.story req.key = some st := by
      rw [hpub.story, hkey, hst]
    have hjob : (d.prepared H req target).sched.job req.key = d.sched.job job.key := by
      rw [hpub.job, hkey]
    have hmakes := makesAnew_iff H D C workerID hprep htarget hsame hst
    rw [← hkey] at hmakes
    refine (submitPrepared_cases L H D ctx writer (submitIntake H D F C job "" workerID) hst₁
      hpublished).imp ?_
    rintro a d₂ (hmade | ⟨rfl, hnot, hokay⟩)
    · obtain ⟨hlost, haccepted⟩ := hmakes.1 ⟨d₂, hmade⟩
      rw [hkey] at hlost
      have hlost : (d.sched.job job.key).isSome = false := by rw [hlost]; rfl
      refine .inl ⟨hlost, haccepted, ?_⟩
      rw [← hkey]
      exact hmade.2.1
    · refine .inr ⟨hpub, fun h hh => .inl ?_, fun hlost haccepted => ?_⟩
      · obtain ⟨hk, row, hrow, hnames⟩ := hokay h hh
        exact ⟨hk.trans hkey, row, hjob.symm.trans hrow, hnames⟩
      · obtain ⟨d', hd'⟩ := hmakes.2 ⟨by rw [hkey]; simpa using hlost, haccepted⟩
        exact hnot d' hd'

end Sqlite

namespace Core

open JobServices (Order Draft)

variable {σ τ : Type} {S : JobServices σ τ} (Q : LawfulJobs S.queue)
  (G : LawfulChapterLog S.chapters)
  {ctx : Ctx} {writer : Nat} {o : Order} {s s' : State σ τ} {key : JobKey}

/-- The log of a job goes beyond its first chapter. -/
def MovedOn (s : State σ τ) (key : JobKey) : Prop :=
  ∃ l, G.log s.chapters key = some l ∧ 1 < l.length

/-- The same jobs are published, and the logs are the same. -/
structure SamePublished (s s' : State σ τ) : Prop where
  job : Q.job s'.scheduler = Q.job s.scheduler
  log : G.log s'.chapters = G.log s.chapters

/-- The answer is about the job that is there already. -/
def AnswersExisting (s : State σ τ) (key : JobKey) (h : JobHandle) : Prop :=
  h.jobKey = key ∧ ∃ facts, Q.job s.scheduler key = some facts ∧ h.Names facts.goalID facts.cell

/-- The log answers that it exists, and its first chapter is the one of the draft. -/
structure Compared (S : JobServices σ τ) (d : Draft) (t : τ) : Prop where
  conflict : ∃ message, S.chapters.create d.request.jobKey d.record t = .error (.conflict message)
  same : ∃ record got, S.chapters.get d.request.jobKey 0 t = .ok record ∧
    decodeChapter S.services record = .ok got ∧
    S.compareInitialChapter d.request.jobKey d.initial got = .ok ()

/-- The scheduler answers that it has no such job, and creates it. -/
def Created (S : JobServices σ τ) (ctx : Ctx) (req : CreateJobRequest) (q q' : σ) : Prop :=
  S.queue.jobFacts req.jobKey q = .error .jobNotFound ∧
    ∃ facts, S.queue.create ctx req q = .ok (facts, q')

/-- The reservation of the job that is named, with nothing else in it. -/
def reservation (o : Order) : Prepared where
  target := ⟨"", "", ""⟩
  key := o.job.key
  goalID := ""

/-- The request is one that is accepted for the log that exists: nothing in it, in the log or in the
scheduler refuses the job. -/
def Accepted (ctx : Ctx) (writer : Nat) (o : Order) (s : State σ τ) : Prop :=
  ∃ prep d, S.submitPreparation o = .ok prep ∧ Q.reserves ctx prep s.scheduler ∧
    S.draft writer o prep (reservation o) s.now = .ok d ∧ Compared S d s.chapters ∧
    Q.admits ctx prep s.scheduler

namespace SamePublished

variable {Q G}

theorem refl (s : State σ τ) : SamePublished Q G s s := ⟨rfl, rfl⟩

theorem trans {s₁ s₂ s₃ : State σ τ} (h : SamePublished Q G s₁ s₂) (h' : SamePublished Q G s₂ s₃) :
    SamePublished Q G s₁ s₃ := ⟨h'.job.trans h.job, h'.log.trans h.log⟩

end SamePublished

/-- What the job is created with, of the reservation and the preparation. -/
theorem draft_request {prep : Preparation} {r : Prepared} {t : Time} {d : Draft}
    (h : S.draft writer o prep r t = .ok d) :
    d.request.jobKey = ⟨o.job.tenantId, r.key.jobId⟩ ∧ d.request.cell = r.target ∧
      d.request.goalID = r.goalID ∧ d.request.shareGoal = prep.shareGoal ∧
      d.request.dependencies = prep.dependencies := by
  unfold JobServices.draft at h
  dsimp only at h
  iterate 11 obtain ⟨_, -, h⟩ := bind_eq_ok.1 h
  obtain rfl := Except.ok.inj h
  exact ⟨rfl, rfl, rfl, rfl, rfl⟩

/-- Of a reservation, the draft takes the key; the cell and the goal go into the request. -/
theorem draft_eq_map {prep : Preparation} {r r' : Prepared} (h : r'.key = r.key) (t : Time) :
    S.draft writer o prep r' t = (S.draft writer o prep r t).map fun d =>
      { d with request := { d.request with cell := r'.target, goalID := r'.goalID } } := by
  have hbind : ∀ {α β γ : Type} (x : Except Err α) (f : α → Except Err β) (g : β → γ),
      (x >>= f).map g = x >>= fun a => (f a).map g := by
    intro α β γ x f g
    cases x <;> rfl
  unfold JobServices.draft
  simp only [hbind, h]
  rfl

theorem submitPreparation_key {prep : Preparation} (h : S.submitPreparation o = .ok prep) :
    prep.key = o.job.key := by
  obtain ⟨_, -, h⟩ := bind_eq_ok.1 h
  obtain ⟨_, -, h⟩ := bind_eq_ok.1 h
  exact PrepareLib.submitPreparation_key _ h

variable {Q G}

/-- The deferred function leaves what is published. -/
theorem discard_leaves {α : Type} (key : JobKey) (e : Err) (s : State σ τ) :
    Proc.Solo (FailsLeaving (SamePublished Q G) s) (do
      Call.recover (change S.services fun _ => S.queue.discardJobPreparation key) fun _ => pure ()
      Call.check (.error e) : Call (State σ τ) Err α) s := by
  have hdiscard : Proc.Solo (fun _ s' => SamePublished Q G s s')
      (change S.services fun _ => S.queue.discardJobPreparation key) s := by
    refine Call.solo_tx (fun _ _ => .refl s) fun u s' h => ?_
    obtain ⟨q, hq, rfl⟩ := map_eq_ok.1 (Tx.write_eq_ok.1 h)
    exact ⟨Q.discardJobPreparation_ok hq, rfl⟩
  refine Call.solo_bind (Q := fun _ s' => SamePublished Q G s s') ?_ (fun e' _ h => ⟨⟨e', rfl⟩, h⟩)
    fun _ _ h => .ret ⟨⟨e, rfl⟩, h⟩
  exact Call.solo_recover hdiscard (fun _ _ h => h) fun _ _ h => .ret h

/-- A log that exists is compared, and nothing is written. -/
theorem ensureInitialChapter_existing {l : List StoredChapter} (G : LawfulChapterLog S.chapters)
    (d : Draft) (hlog : G.log s.chapters d.request.jobKey = some l) :
    Proc.Solo (fun (a : Except Err Bool) (s' : State σ τ) => s' = s ∧
        (a = .ok true ∧ Compared S d s.chapters ∨ (∃ e, a = .error e) ∧ ¬ Compared S d s.chapters))
      (S.ensureInitialChapter d) s := by
  refine Call.solo_recover (P := fun (a : Except Err Bool) (s' : State σ τ) => s' = s ∧
    ∃ e, a = .error e ∧ S.chapters.create d.request.jobKey d.record s.chapters = .error e)
    (.of_alone ?_) ?_ ?_
  · cases hcreate : S.chapters.create d.request.jobKey d.record s.chapters with
    | ok t => exact nomatch (G.create_ok hcreate).1.symm.trans hlog
    | error e =>
      rw [changeLog, Call.alone_tx_bind_error (e := e) (by
        simp [Tx.write, JobServices.services, hcreate, bind, Except.bind, Except.map])]
      exact ⟨rfl, e, rfl, rfl⟩
  · rintro existing s' ⟨-, e, he, -⟩
    exact nomatch he
  · rintro e s' ⟨rfl, e', he, hcreate⟩
    obtain rfl := Except.error.inj he
    have hother : (∀ message, e ≠ .conflict message) → ¬ Compared S d s'.chapters := by
      rintro hne ⟨⟨message, hconflict⟩, -⟩
      exact hne message (Except.error.inj (hcreate.symm.trans hconflict))
    cases e
    case conflict message =>
      refine Call.solo_bind (Q := fun (a : Except Err Unit) (s₁ : State σ τ) => s₁ = s' ∧
        (a = .ok () ↔ Compared S d s'.chapters)) ?_ ?_ ?_
      · refine Call.solo_query_bind (fun e hget => ⟨rfl, ?_⟩) fun record hget => ?_
        · refine iff_of_false (fun h => nomatch h) ?_
          rintro ⟨-, record, got, hget', -⟩
          exact nomatch hget.symm.trans hget'
        refine Call.solo_check_bind (fun e hdecode => ⟨rfl, ?_⟩) fun got hdecode => ?_
        · refine iff_of_false (fun h => nomatch h) ?_
          rintro ⟨-, record', got, hget', hdecode', -⟩
          obtain rfl := Except.ok.inj (hget.symm.trans hget')
          exact nomatch hdecode.symm.trans hdecode'
        refine Call.solo_check ⟨rfl, ?_⟩
        constructor
        · exact fun h => ⟨⟨message, hcreate⟩, record, got, hget, hdecode, h⟩
        · rintro ⟨-, record', got', hget', hdecode', h⟩
          obtain rfl := Except.ok.inj (hget.symm.trans hget')
          obtain rfl := Except.ok.inj (hdecode.symm.trans hdecode')
          exact h
      · rintro e s₁ ⟨rfl, h⟩
        exact ⟨rfl, .inr ⟨⟨e, rfl⟩, fun hc => nomatch h.2 hc⟩⟩
      · rintro ⟨⟩ s₁ ⟨rfl, h⟩
        exact .ret ⟨rfl, .inl ⟨rfl, h.1 rfl⟩⟩
    all_goals exact .ret ⟨rfl, .inr ⟨⟨_, rfl⟩, hother fun _ h => nomatch h⟩⟩

/-- A job that is found is the one asked for; one that is not found is not there. -/
theorem findJob_ok {req : CreateJobRequest} {q : σ} {found : Option JobHandle}
    (hfind : S.findJob req q = .ok found) :
    match found with
    | some h => h.jobKey = req.jobKey ∧ ∃ stored, S.queue.jobFacts req.jobKey q = .ok stored ∧
        h.Names stored.goalID stored.cell
    | none => S.queue.jobFacts req.jobKey q = .error .jobNotFound := by
  unfold JobServices.findJob at hfind
  split at hfind
  · next stored hstored =>
    cases hconfirm : S.confirmJob stored req with
    | error e =>
      rw [hconfirm] at hfind
      exact nomatch hfind
    | ok handle =>
      rw [hconfirm] at hfind
      obtain rfl := Except.ok.inj hfind
      obtain ⟨_, -, hrest⟩ := bind_eq_ok.1 hconfirm
      obtain ⟨_, -, rfl⟩ := map_eq_ok.1 hrest
      exact ⟨rfl, stored, hstored, rfl, rfl, rfl⟩
  · next hnotFound =>
    obtain rfl := Except.ok.inj hfind
    exact hnotFound
  · cases hfind

/-- Over a log that exists, the job is created or nothing is written. -/
theorem ensureJob_existing (Q : LawfulJobs S.queue) (ctx : Ctx) (req : CreateJobRequest)
    (s : State σ τ) :
    Proc.Solo (MakesOrAnswers (fun s' => ∃ q', Created S ctx req s.scheduler q' ∧
        s' = { s with scheduler := q' }) (AnswersExisting Q s req.jobKey) s)
      (S.ensureJob ctx req true) s := by
  refine Call.solo_query_bind (fun e hfind => .error e ?_) fun found hfind => ?_
  · rintro _ ⟨q', ⟨hnotFound, -⟩, -⟩
    unfold JobServices.findJob at hfind
    rw [hnotFound] at hfind
    exact nomatch hfind
  cases found with
  | some handle =>
    obtain ⟨hkey, stored, hstored, hnames⟩ := findJob_ok hfind
    refine .ret (.inr ⟨rfl, ?_, fun h hh => ?_⟩)
    · rintro _ ⟨q', ⟨hnotFound, -⟩, -⟩
      exact nomatch hstored.symm.trans hnotFound
    · obtain rfl := Except.ok.inj hh
      exact ⟨hkey, stored, Q.jobFacts_ok hstored, hnames⟩
  | none =>
    have hnotFound : S.queue.jobFacts req.jobKey s.scheduler = .error .jobNotFound :=
      findJob_ok hfind
    refine Call.solo_tx_bind (fun e hcreate => .error e ?_) fun facts s' hcreate => ?_
    · rintro _ ⟨q', ⟨-, facts, hfacts⟩, -⟩
      exact nomatch hcreate.symm.trans (Tx.zoom_eq_ok.2 ⟨q', hfacts, rfl⟩)
    · obtain ⟨q', hq', rfl⟩ := Tx.zoom_eq_ok.1 hcreate
      have hmade : Created S ctx req s.scheduler q' := ⟨hnotFound, facts, hq'⟩
      exact Call.solo_check_bind (fun e _ => .inl ⟨q', hmade, rfl⟩) fun _ _ =>
        .ret (.inl ⟨q', hmade, rfl⟩)

/-- What a submission comes to that makes the job anew. -/
def MakesAnew (S : JobServices σ τ) (ctx : Ctx) (writer : Nat) (o : Order) (prep : Preparation)
    (r : Prepared) (s : State σ τ) (q' : σ) : Prop :=
  ∃ d, S.draft writer o prep r s.now = .ok d ∧ Compared S d s.chapters ∧
    Created S ctx d.request s.scheduler q'

/-- A submission over a log that exists makes the job anew, or it writes nothing and answers only if
the job is there. -/
theorem submitReserved_cases (Q : LawfulJobs S.queue) (G : LawfulChapterLog S.chapters) (ctx : Ctx)
    (writer : Nat) (prep : Preparation) {r : Prepared} {l : List StoredChapter}
    (hpublished : r.published = false) (hkey : (⟨o.job.tenantId, r.key.jobId⟩ : JobKey) = key)
    (hlog : G.log s.chapters key = some l) :
    Proc.Solo (MakesOrAnswers (fun s' => ∃ q', MakesAnew S ctx writer o prep r s q' ∧
        s' = { s with scheduler := q' }) (AnswersExisting Q s key) s)
      (S.submitReserved ctx writer o prep r) s := by
  unfold JobServices.submitReserved
  rw [hpublished]
  refine Call.solo_query_bind (fun e hdraft => .error e ?_) fun d hdraft => ?_
  · rintro _ ⟨q', ⟨d, hdraft', -⟩, -⟩
    exact nomatch hdraft.symm.trans hdraft'
  have hjobKey : d.request.jobKey = key := (draft_request hdraft).1.trans hkey
  refine Call.solo_bind (ensureInitialChapter_existing G d (by rw [hjobKey]; exact hlog)) ?_ ?_
  · rintro e s' ⟨rfl, ⟨he, -⟩ | ⟨-, hnot⟩⟩
    · exact nomatch he
    · refine .error e ?_
      rintro _ ⟨q', ⟨d', hdraft', hcompared, -⟩, -⟩
      obtain rfl := Except.ok.inj (hdraft.symm.trans hdraft')
      exact hnot hcompared
  · rintro existing s' ⟨rfl, ⟨hexisting, hcompared⟩ | ⟨⟨e, he⟩, -⟩⟩
    · obtain rfl := Except.ok.inj hexisting
      refine (ensureJob_existing Q ctx d.request s').imp ?_
      rintro a s₁ (⟨q', hcreated, rfl⟩ | ⟨rfl, hnot, hokay⟩)
      · exact .inl ⟨q', ⟨d, hdraft, hcompared, hcreated⟩, rfl⟩
      · refine .inr ⟨rfl, ?_, fun h hh => hjobKey ▸ hokay h hh⟩
        rintro _ ⟨q', ⟨d', hdraft', -, hcreated⟩, -⟩
        obtain rfl := Except.ok.inj (hdraft.symm.trans hdraft')
        exact hnot _ ⟨q', hcreated, rfl⟩
    · exact nomatch he

variable (writer) in
/-- With the job prepared, it is made anew exactly if nothing refuses it. -/
theorem makesAnew_iff (Q : LawfulJobs S.queue) {prep : Preparation} {r : Prepared} {q : σ}
    (hprep : S.submitPreparation o = .ok prep)
    (hq : S.queue.prepareJob ctx prep s.scheduler = .ok (r, q)) (hkey : r.key = o.job.key) :
    (∃ q', MakesAnew S ctx writer o prep r { s with scheduler := q } q') ↔
      Q.job s.scheduler o.job.key = none ∧ Accepted Q ctx writer o s := by
  have hjobs : Q.job q = Q.job s.scheduler := (Q.prepareJob_ok hq).1
  have hjobKey {d} (hdraft : S.draft writer o prep r s.now = .ok d) : d.request.jobKey = r.key :=
    (draft_request hdraft).1.trans (by rw [hkey]; rfl)
  have hcreate {d} (hdraft : S.draft writer o prep r s.now = .ok d)
      (hlost : Q.job s.scheduler o.job.key = none) :
      (∃ a, S.queue.create ctx d.request q = .ok a) ↔ Q.admits ctx prep s.scheduler := by
    obtain ⟨-, hcell, hgoal, hshare, hdeps⟩ := draft_request hdraft
    exact Q.create_iff hq (by rw [hkey]; exact hlost) (hjobKey hdraft) hcell hgoal hshare hdeps
  constructor
  · rintro ⟨q', d, hdraft, hcompared, hmissing, facts, hfacts⟩
    have hlost := Q.jobFacts_notFound.1 hmissing
    rw [hjobKey hdraft, hkey, hjobs] at hlost
    have hreserved : S.draft writer o prep (reservation o) s.now = .ok _ :=
      (draft_eq_map hkey.symm s.now).trans (map_eq_ok.2 ⟨d, hdraft, rfl⟩)
    exact ⟨hlost, prep, _, hprep, Q.prepareJob_iff.1 ⟨_, hq⟩, hreserved,
      ⟨hcompared.conflict, hcompared.same⟩, (hcreate hdraft hlost).1 ⟨_, hfacts⟩⟩
  · rintro ⟨hlost, prep', d, hprep', -, hreserved, hcompared, hadmits⟩
    obtain rfl := Except.ok.inj (hprep.symm.trans hprep')
    have hdraft : S.draft writer o prep r s.now = .ok _ :=
      (draft_eq_map (r := reservation o) hkey s.now).trans (map_eq_ok.2 ⟨d, hreserved, rfl⟩)
    obtain ⟨⟨facts, q'⟩, hfacts⟩ := (hcreate hdraft hlost).2 hadmits
    have hmissing : S.queue.jobFacts d.request.jobKey q = .error .jobNotFound := by
      refine Q.jobFacts_notFound.2 ?_
      rw [hjobs, (draft_request hreserved).1]
      exact hlost
    exact ⟨q', _, hdraft, ⟨hcompared.conflict, hcompared.same⟩, hmissing, facts, hfacts⟩

/-- What a submission over a log that exists comes to: the job is made anew, or nothing is changed
that is published. -/
theorem submitJobWithSchedule_cases (Q : LawfulJobs S.queue) (G : LawfulChapterLog S.chapters)
    (ctx : Ctx) (writer : Nat) {l : List StoredChapter} (hid : o.job.jobID ≠ "")
    (hlog : G.log s.chapters o.job.key = some l) :
    Proc.Solo
      (Outcome (SamePublished Q G) (AnswersExisting Q s o.job.key)
        (fun s' => (Q.job s'.scheduler o.job.key).isSome) (Accepted Q ctx writer o s) s)
      (S.submitJobWithSchedule ctx writer o) s := by
  refine Call.solo_check_bind (fun e hprep => .error e (.refl s) ?_) fun prep hprep => ?_
  · rintro ⟨prep, d, hprep', -⟩
    exact nomatch hprep.symm.trans hprep'
  refine Call.solo_tx_bind (fun e hr => .error e (.refl s) ?_) fun r s₁ hr => ?_
  · rintro ⟨prep', d, hprep', hreserves, -⟩
    obtain rfl := Except.ok.inj (hprep.symm.trans hprep')
    obtain ⟨⟨r, q⟩, hq⟩ := Q.prepareJob_iff.2 hreserves
    exact nomatch hr.symm.trans (Tx.zoom_eq_ok.2 ⟨q, hq, rfl⟩)
  obtain ⟨q, hq, rfl⟩ := Tx.zoom_eq_ok.1 hr
  have hnamed : prep.key = o.job.key := submitPreparation_key hprep
  obtain ⟨hjobs, hkey, hthere⟩ := Q.prepareJob_ok hq
  have hkey : r.key = o.job.key := (hkey (by rw [hnamed]; exact hid)).trans hnamed
  have hsame : SamePublished Q G s { s with scheduler := q } := ⟨hjobs, rfl⟩
  refine Outcome.recover (fun _ _ _ => SamePublished.trans) (fun _ _ h => by rw [h.job])
    (discard_leaves r.key) ?_
  cases hpublished : r.published with
  | true =>
    -- The preparation knows that the job is published.
    obtain ⟨facts, hfacts, hnames⟩ := hthere hpublished
    rw [hkey] at hfacts
    have hsome : (Q.job s.scheduler o.job.key).isSome = true := by rw [hfacts]; rfl
    unfold JobServices.submitReserved
    rw [hpublished]
    refine .ret (.inr ⟨hsame, fun h hh => ?_, fun hlost => nomatch hlost.symm.trans hsome⟩)
    obtain rfl := Except.ok.inj hh
    exact ⟨hkey, facts, hfacts, hnames⟩
  | false =>
    have hmakes := makesAnew_iff writer Q hprep hq hkey
    have hjobKey : (⟨o.job.tenantId, r.key.jobId⟩ : JobKey) = o.job.key := by
      rw [hkey]
      rfl
    refine (submitReserved_cases Q G ctx writer prep hpublished hjobKey
      (s := { s with scheduler := q }) hlog).imp ?_
    rintro a s₂ (⟨q', hmade, rfl⟩ | ⟨rfl, hnot, hokay⟩)
    · obtain ⟨hlost, haccepted⟩ := hmakes.1 ⟨q', hmade⟩
      obtain ⟨d, hdraft, -, -, facts, hfacts⟩ := hmade
      have hlost : (Q.job s.scheduler o.job.key).isSome = false := by rw [hlost]; rfl
      have hsome : (Q.job q' o.job.key).isSome = true :=
        (draft_request hdraft).1.trans hjobKey ▸ Q.create_ok hfacts
      exact .inl ⟨hlost, haccepted, hsome⟩
    · refine .inr ⟨hsame, fun h hh => ?_, fun hlost haccepted => ?_⟩
      · obtain ⟨hk, facts, hfacts, hnames⟩ := hokay h hh
        exact ⟨hk, facts, hjobs ▸ hfacts, hnames⟩
      · obtain ⟨q', hq'⟩ := hmakes.2 ⟨by simpa using hlost, haccepted⟩
        exact hnot _ ⟨q', hq', rfl⟩

end Core

/-- The submission of a job. -/
def firstOrder : SubmitJob where
  tenantId := "tenant"
  jobID := "order"
  jobType := "job"
  cell := "main"
  cellRepo := "host/repo"

/-- A codec in which the body of a chapter is its task type. -/
def orderCodec : StartCodec where
  encode c := .ok (c.taskType, [])
  decode body := .ok (StartChapter.envelope
    { data := none, taskType := body, workerID := "", inputHash := "", createdAt := 0,
      initialPayloadDigest := "", runPolicy := normalizeRunPolicy {}, metadata := "",
      prerequisites := [] })
  chapter p := .ok { ordinal := 0, body := .jobStart p.1 }

/-- Its story has the start chapter and one more, and its row is not there. -/
def lostDb : Sqlite.Db where
  state :=
    { stories := AList.singleton ⟨"tenant", "order"⟩
        { chapters := [⟨0, "job", [], 0⟩, ⟨1, "done", [], 0⟩] }
      now := 5 }
  control := { cells := fun _ => mainCell }
  keyed _ := mainCell_keyed

/-- The submission made again. -/
def resubmitted : Except Err JobHandle × Sqlite.Db :=
  Proc.alone (Sqlite.submitJob .plain .accepting .plain .plain orderCodec .admin 0 firstOrder "")
    lostDb

theorem resubmitted_starts_over : resubmitted.1.toBool = true ∧
    (lostDb.sched.job firstOrder.key).isSome = false ∧
    (resubmitted.2.sched.job firstOrder.key).isSome = true := by decide +kernel

theorem lostDb_movedOn : Sqlite.MovedOn lostDb firstOrder.key := ⟨_, rfl, by decide⟩

theorem resubmitted_changes_published :
    ¬ Reports Sqlite.Db.SamePublished (Sqlite.AnswersExisting lostDb firstOrder.key)
      (Sqlite.submitJob .plain .accepting .plain .plain orderCodec .admin 0 firstOrder "")
        lostDb := by
  intro hreports
  obtain ⟨-, hlost, hmade⟩ := resubmitted_starts_over
  have hjob : resubmitted.2.sched.job firstOrder.key = lostDb.sched.job firstOrder.key :=
    congrFun hreports.unchanged.job firstOrder.key
  rw [hjob] at hmade
  exact nomatch hlost.symm.trans hmade

namespace Core

/-- A scheduler that keeps the jobs it is asked to create. -/
def JobScheduler.keeping : JobScheduler (Table JobKey JobFacts) where
  getJob _ _ := .error .jobNotFound
  createJob _ _ := .error .jobNotFound
  cancelJob _ _ _ _ := .error .jobNotFound
  validateLease _ _ := .error .executionLeaseLost
  validateLease_jobKey h := nomatch h
  completeLease _ _ := .error .executionLeaseLost
  rescheduleLease _ _ := .error .executionLeaseLost
  getWaitingTask _ _ := .error (.conflict "job is not waiting")
  claimTask _ _ := .error (.conflict "job is not waiting")
  jobFacts key q :=
    match q.lookup key with
    | some facts => .ok facts
    | none => .error .jobNotFound
  prepareJob _ req q :=
    .ok (match q.lookup req.key with
      | some facts => ⟨facts.cell, req.key, facts.goalID, true⟩
      | none => ⟨⟨"c1", "main", "host/repo"⟩, req.key, "g", false⟩, q)
  discardJobPreparation _ q := .ok q
  create _ req q :=
    let facts : JobFacts :=
      { jobKey := req.jobKey, cell := req.cell, goalID := req.goalID, jobType := req.jobType
        schemaHash := req.schemaHash, parentJobID := req.parentJobID, appMetadata := req.appMetadata
        runPolicy := req.runPolicy, initialPayloadDigest := req.initialPayloadDigest
        schedule := req.schedule }
    .ok (facts, q.insert req.jobKey facts)

def JobScheduler.keeping_lawful : LawfulJobs JobScheduler.keeping where
  job q := q.lookup
  reserves _ _ _ := True
  admits _ _ _ := True
  jobFacts_ok {key q facts} h := by
    cases hfacts : q.lookup key <;> simp_all [JobScheduler.keeping]
  jobFacts_notFound {key q} := by
    cases hfacts : q.lookup key <;> simp_all [JobScheduler.keeping]
  prepareJob_iff := iff_of_true ⟨_, rfl⟩ trivial
  prepareJob_ok {ctx req q r q'} h := by
    obtain ⟨rfl, rfl⟩ := Prod.mk.inj (Except.ok.inj h)
    cases hfacts : q.lookup req.key with
    | some facts => exact ⟨rfl, fun _ => rfl, fun _ => ⟨facts, hfacts, rfl, rfl, rfl⟩⟩
    | none => exact ⟨rfl, fun _ => rfl, fun hpublished => nomatch hpublished⟩
  discardJobPreparation_ok h := by
    obtain rfl := Except.ok.inj h
    rfl
  create_ok h := by
    obtain ⟨rfl, rfl⟩ := Prod.mk.inj (Except.ok.inj h)
    simp [AList.lookup_insert]
  create_iff _ _ _ _ _ _ _ := iff_of_true ⟨_, rfl⟩ trivial

/-- Services that take every text as it is; the body of a chapter is its task type. -/
def JobServices.keeping : JobServices (Table JobKey JobFacts) (Logs JobKey StoredChapter) where
  host :=
    { Host.accepting with
      encodeChapter := fun ch => .ok ch.taskType
      decodeChapter := fun n body artifacts =>
        .ok { ordinal := n, taskType := body, body := .jobStart "", metadata := body,
              artifacts := artifacts } }
  queue := .keeping
  chapters := .memory
  taskChapter _ _ _ _ _ := .error .jobNotFound
  submissions := .plain
  taskInput _ := .ok ("", [], "")
  startMetadata start := .ok start.taskType
  readStartMetadata text := .ok (StartChapter.envelope
    { data := none, taskType := text, workerID := "", inputHash := "", createdAt := 0,
      initialPayloadDigest := "", runPolicy := {}, metadata := "", prerequisites := [] })
  sameJSONObject a b := a = b

/-- The log has the start chapter and one more, and the scheduler does not have the job. -/
def lostState : State (Table JobKey JobFacts) (Logs JobKey StoredChapter) where
  scheduler := ∅
  chapters := Function.update (fun _ => none) ⟨"tenant", "order"⟩
    (some [⟨0, "job", [], 0⟩, ⟨1, "done", [], 0⟩])
  now := 5

/-- The submission made again. -/
def resubmitted :
    Except Err JobHandle × State (Table JobKey JobFacts) (Logs JobKey StoredChapter) :=
  Proc.alone (JobServices.keeping.submitJob .admin 0 firstOrder "" 0) lostState

theorem resubmitted_starts_over : resubmitted.1.toBool = true ∧
    (lostState.scheduler.lookup firstOrder.key).isSome = false ∧
    (resubmitted.2.scheduler.lookup firstOrder.key).isSome = true := by decide +kernel

theorem lostState_movedOn :
    MovedOn (S := .keeping) ChapterLog.memory_lawful lostState firstOrder.key := ⟨_, rfl, by decide⟩

theorem resubmitted_changes_published :
    ¬ Reports (SamePublished (S := .keeping) JobScheduler.keeping_lawful ChapterLog.memory_lawful)
      (AnswersExisting (S := .keeping) JobScheduler.keeping_lawful lostState firstOrder.key)
      (JobServices.keeping.submitJob .admin 0 firstOrder "" 0) lostState := by
  intro hreports
  obtain ⟨-, hlost, hmade⟩ := resubmitted_starts_over
  have hjob :
      resubmitted.2.scheduler.lookup firstOrder.key = lostState.scheduler.lookup firstOrder.key :=
    congrFun hreports.unchanged.job firstOrder.key
  rw [hjob] at hmade
  exact nomatch hlost.symm.trans hmade

end Core

end JobDB
