import JobDB.Goal.Frame
import JobDB.Goal.Operations
import JobDB.Lib.Json

/-!
# Failures that are passed on

A wait that fails takes over the failure of its target. Its job sees it as an error
(`DependencyWaitInfo.Err`, `goals.go`) and fails with it, so the error is stored as an application
error: a JSON text with the failure among its attributes. Whoever reads that job's result makes the
error out of the attributes again (`GoalFailureFromAppError`) and may fail with it in turn, as it is
or as the cause of a `JobFailedError` (`job_failed_error.go`).

* `GoalFailure.marshal` writes the failure of a job without what only a goal's has, so a failure is
  read back as its `copy` (`unmarshal_marshal`). The wait was stored that way, too.
* `relay`: one job fails with an error and the next one reads it.
* `KnownFailures`: in every history the failure of a goal has the code and the ID of a goal, and
  that of a wait the code and the ID of a goal or of a job. This is what the decoder tells the two
  kinds by.
-/

namespace JobDB

/-- The JSON text of an instant. Clock readings have one (`time.Time` writes the years 0 to
9999). -/
structure InstantText where
  format : Time → String
  parse : String → Option Time
  parse_format : ∀ t, parse (format t) = some t

/-- A sign and as many strokes as nanoseconds. -/
def InstantText.strokes : InstantText where
  format t := String.ofList ((if 0 ≤ t then '+' else '-') :: List.replicate t.natAbs '|')
  parse text :=
    match text.toList with
    | '+' :: l => some (l.length : Int)
    | '-' :: l => some (-(l.length : Int))
    | _ => none
  parse_format t := by
    rw [String.toList_ofList]
    by_cases h : 0 ≤ t
    · rw [if_pos h]
      show some ((List.replicate t.natAbs '|').length : Int) = some t
      rw [List.length_replicate, Int.natAbs_of_nonneg h]
    · rw [if_neg h]
      show some (-((List.replicate t.natAbs '|').length : Int)) = some t
      rw [List.length_replicate, Int.ofNat_natAbs_of_nonpos (le_of_not_ge h), neg_neg]

/-! ## A failure as JSON -/

namespace Json

/-- A member with `omitempty`. -/
def omitEmpty (name text : String) : List (String × Json) :=
  if text = "" then [] else [(name, .str text)]

/-- The text under a name; none is the empty text. -/
def textField (name : String) (ms : List (String × Json)) : Option String :=
  match find name ms with
  | none | some .null => some ""
  | some (.str s) => some s
  | some _ => none

def texts : List Json → Option (List String)
  | [] => some []
  | .str s :: xs => (texts xs).map (s :: ·)
  | _ :: _ => none

/-- The texts under a name. -/
def textsField (name : String) (ms : List (String × Json)) : Option (List String) :=
  match find name ms with
  | none | some .null => some []
  | some (.arr xs) => texts xs
  | some _ => none

theorem texts_map_str (l : List String) : texts (l.map .str) = some l := by
  induction l with
  | nil => rfl
  | cons s l ih =>
    show (texts (l.map .str)).map (s :: ·) = some (s :: l)
    rw [ih]
    rfl

end Json

section Codec

variable (T : InstantText)

/-- The instant under a name. -/
def InstantText.field (name : String) (ms : List (String × Json)) : Option Time :=
  match Json.find name ms with
  | none | some .null => some Time.zero
  | some (.str s) => T.parse s
  | some _ => none

/-- `GoalFailure.MarshalJSON`. -/
def GoalFailure.marshal (f : GoalFailure) : Json :=
  if f.goalID = "" ∧ f.jobID ≠ "" then
    .obj [("code", .str f.code), ("jobId", .str f.jobID), ("message", .str f.message)]
  else
    .obj ([("code", .str f.code)] ++ Json.omitEmpty "goalId" f.goalID ++
      Json.omitEmpty "jobId" f.jobID ++
      [("message", .str f.message), ("terminalJobIds", .arr (f.terminalJobIDs.map .str)),
        ("nonTerminalJobIds", .arr (f.nonTerminalJobIDs.map .str)),
        ("failedAt", .str (T.format f.failedAt))])

/-- `json.Unmarshal` into a `GoalFailure`. -/
def GoalFailure.unmarshal : Json → Option GoalFailure
  | .obj ms => do
    let code ← Json.textField "code" ms
    let goalID ← Json.textField "goalId" ms
    let jobID ← Json.textField "jobId" ms
    let message ← Json.textField "message" ms
    let terminalJobIDs ← Json.textsField "terminalJobIds" ms
    let nonTerminalJobIDs ← Json.textsField "nonTerminalJobIds" ms
    let failedAt ← T.field "failedAt" ms
    some { code, goalID, jobID, message, terminalJobIDs, nonTerminalJobIDs, failedAt }
  | _ => none

theorem GoalFailure.unmarshal_marshal (f : GoalFailure) :
    GoalFailure.unmarshal T (f.marshal T) = some f.copy := by
  obtain ⟨code, goalID, jobID, message, terminal, nonTerminal, failedAt⟩ := f
  unfold marshal copy
  dsimp only
  by_cases hjob : goalID = "" ∧ jobID ≠ ""
  · rw [if_pos hjob, if_pos hjob]
    rfl
  · rw [if_neg hjob, if_neg hjob]
    -- which of the two IDs are written makes no difference to what is read
    by_cases hgoal : goalID = "" <;> by_cases hid : jobID = "" <;>
      simp [unmarshal, Json.omitEmpty, hgoal, hid, Json.textField, Json.textsField,
        InstantText.field, Json.find, Json.texts_map_str, T.parse_format] at hjob ⊢

/-! ## Errors and their payloads -/

/-- What `Err` says of a wait: `context.DeadlineExceeded`, `context.Canceled`, a `GoalFailedError`,
a `dependencyFailedError`, or that the outcome makes no sense. -/
inductive WaitError where
  | deadlineExceeded
  | canceled
  | goalFailed (failure : GoalFailure)
  | dependencyFailed (failure : GoalFailure)
  | invalidOutcome
deriving DecidableEq, Repr

/-- `DependencyWaitInfo.Err`. -/
def DependencyWaitInfo.err (w : DependencyWaitInfo) : Option WaitError :=
  match w.state with
  | .satisfied | .pending => none
  | .timedOut => some .deadlineExceeded
  | .cancelled => some .canceled
  | .failed =>
    match w.failure with
    | some f => some (if f.code = "goal_failed" then .goalFailed f else .dependencyFailed f)
    | none => some .invalidOutcome

/-- `AppErrorPayload`, as far as these errors fill it. -/
structure AppError where
  message : String
  level : String
  attrs : List (String × Json)

/-- `Unwrap` of the two errors that carry a failure. -/
def WaitError.unwrap : WaitError → Option AppError
  | .goalFailed f => some
    { message := "goal " ++ f.goalID ++ " failed: " ++ f.message, level := "error",
      attrs := [("_jobdb_goal_failure", f.marshal T)] }
  | .dependencyFailed f => some
    { message := f.message, level := "error",
      attrs := [("_jobdb_dependency_failure", f.marshal T)] }
  | _ => none

/-- `encodeJobFailedError` of an error with this one as its cause. -/
def AppError.asCause (p : AppError) : AppError :=
  { p with attrs := ("_jobdb_job_failed", .bool true) :: ("_jobdb_job_failed_kind", .str "APP") ::
      p.attrs }

/-- The text that is stored. -/
def AppError.store (p : AppError) : String :=
  Json.write (.obj [("message", .str p.message), ("level", .str p.level), ("attrs", .obj p.attrs)])

/-- The payload that is read. -/
def AppError.load (text : String) : Option AppError :=
  match Json.read text with
  | some (.obj ms) => do
    let message ← Json.textField "message" ms
    let level ← Json.textField "level" ms
    match Json.find "attrs" ms with
    | none | some .null => some { message, level, attrs := [] }
    | some (.obj attrs) => some { message, level, attrs }
    | some _ => none
  | _ => none

theorem AppError.load_store (p : AppError) : AppError.load p.store = some p := by
  unfold load store
  rw [Json.read_write]
  rfl

/-- The failure of a goal in an attribute. -/
def goalFailedFrom (value : Json) : Option WaitError := do
  let f ← GoalFailure.unmarshal T value
  if f.code = "goal_failed" ∧ f.goalID ≠ "" then some (.goalFailed f) else none

/-- `GoalFailureFromAppError`. -/
def goalFailureFromAppError (p : AppError) : Option WaitError :=
  match Json.find "_jobdb_goal_failure" p.attrs with
  | some value => goalFailedFrom T value
  | none =>
    match Json.find "_jobdb_dependency_failure" p.attrs with
    | none => none
    | some value =>
      match GoalFailure.unmarshal T value with
      | some f =>
        if f.code = "job_dependency_failed" ∧ f.jobID ≠ "" then some (.dependencyFailed f)
        else goalFailedFrom T value
      | none => none

/-- A job fails with the error, as it is or as the cause of its own, and the next one reads it. -/
def relay (e : WaitError) (asCause : Bool) : Option WaitError := do
  let p ← e.unwrap T
  let p ← AppError.load (if asCause then p.asCause else p).store
  goalFailureFromAppError T p

/-- One job after the other fails with what it reads. -/
def relayAll (e : WaitError) : List Bool → Option WaitError
  | [] => some e
  | asCause :: rest => (relay T e asCause).bind (relayAll · rest)

/-! ## One error after the other -/

/-- The marks of a cause are under names of their own. -/
theorem find_asCause {name : String} (hmark : "_jobdb_job_failed" ≠ name)
    (hkind : "_jobdb_job_failed_kind" ≠ name) (p : AppError) :
    Json.find name p.asCause.attrs = Json.find name p.attrs := by
  show ((Json.find name p.attrs).or _).or _ = _
  rw [if_neg hmark, if_neg hkind, Option.or_none, Option.or_none]

theorem goalFailureFromAppError_asCause (p : AppError) :
    goalFailureFromAppError T p.asCause = goalFailureFromAppError T p := by
  unfold goalFailureFromAppError
  rw [find_asCause (by decide) (by decide), find_asCause (by decide) (by decide)]

theorem relay_eq {e : WaitError} {p : AppError} (h : e.unwrap T = some p) (asCause : Bool) :
    relay T e asCause = goalFailureFromAppError T p := by
  unfold relay
  rw [h, Option.bind_eq_bind, Option.bind_some, AppError.load_store, Option.bind_some]
  cases asCause with
  | false => rfl
  | true => exact goalFailureFromAppError_asCause T p

/-- The failure of a job as it is stored. -/
def GoalFailure.OfJob (f : GoalFailure) : Prop :=
  f.code = "job_dependency_failed" ∧ f.jobID ≠ "" ∧ f.copy = f

/-- The error that carries the failure. -/
def GoalFailure.error (f : GoalFailure) : WaitError :=
  if f.code = "goal_failed" then .goalFailed f else .dependencyFailed f

theorem relay_goal {f : GoalFailure} (h : f.OfGoal) (asCause : Bool) :
    relay T (.goalFailed f) asCause = some (.goalFailed f) := by
  rw [relay_eq T rfl]
  unfold goalFailureFromAppError goalFailedFrom
  simp only [Json.find, Option.none_or, if_pos]
  rw [GoalFailure.unmarshal_marshal, h.copy]
  exact if_pos h

theorem relay_job {f : GoalFailure} (h : f.OfJob) (asCause : Bool) :
    relay T (.dependencyFailed f) asCause = some (.dependencyFailed f) := by
  have hother : ("_jobdb_dependency_failure" : String) ≠ "_jobdb_goal_failure" := by decide
  rw [relay_eq T rfl]
  unfold goalFailureFromAppError
  simp only [Json.find, Option.none_or, if_pos, if_neg hother, GoalFailure.unmarshal_marshal, h.2.2]
  exact if_pos ⟨h.1, h.2.1⟩

/-- **However many jobs fail because of each other**, the last one reads the first one's error. -/
theorem relayAll_error {f : GoalFailure} (h : f.OfGoal ∨ f.OfJob) (readers : List Bool) :
    relayAll T f.error readers = some f.error := by
  have hstep : ∀ asCause, relay T f.error asCause = some f.error := by
    intro asCause
    unfold GoalFailure.error
    rcases h with h | h
    · rw [if_pos h.1]
      exact relay_goal T h asCause
    · rw [if_neg (by rw [h.1]; decide)]
      exact relay_job T h asCause
  induction readers with
  | nil => rfl
  | cons asCause rest ih =>
    show (relay T f.error asCause).bind _ = _
    rw [hstep asCause]
    exact ih

end Codec

/-! ## The failures of a history -/

open Engine View

/-- No job lacks its ID, a failed goal has the failure of a goal, and a failed wait that of a goal
or of a job. -/
structure KnownFailures (v : View) : Prop where
  job : ∀ {k j}, v.job k = some j → j.key.jobId ≠ ""
  goal : ∀ {k g}, v.goal k = some g → g.state = .failed → ∃ f, g.failure = some f ∧ f.OfGoal
  wait : ∀ {k w}, v.wait k = some w → w.state = .failed →
    ∃ f, w.failure = some f ∧ (f.OfGoal ∨ f.OfJob)

theorem knownFailures_empty : KnownFailures View.empty where
  job h := by cases h
  goal h := by cases h
  wait h := by cases h

section Changes

variable {v v' : View} {now : Time}

/-- What a wait takes over is stored as one of the two. -/
theorem KnownFailures.cause (h : KnownFailures v) {f : Option GoalFailure} (hc : v.Cause f) :
    ∃ f', f.map GoalFailure.copy = some f' ∧ (f'.OfGoal ∨ f'.OfJob) := by
  cases hc with
  | goal stored failed =>
    obtain ⟨f', hf', hof⟩ := h.goal stored failed
    exact ⟨f', by rw [hf', Option.map_some, hof.copy], Or.inl hof⟩
  | @job k j message t stored =>
    have hid := h.job stored
    exact ⟨_, rfl, Or.inr (by simp [GoalFailure.OfJob, GoalFailure.copy, hid])⟩

theorem OfGoalOrJob.copy {f : GoalFailure} (h : f.OfGoal ∨ f.OfJob) : f.copy = f :=
  h.elim (fun h => h.copy) fun h => h.2.2

/-- A pass over a stored wait, as it is stored again. -/
theorem KnownFailures.evaluated (h : KnownFailures v) {k : DependencyWaitKey}
    {w w' : DependencyWaitInfo} (hw : w.state = .pending ∨ v.wait k = some w)
    (he : Evaluated v now w w') (hf : w'.state = .failed) :
    ∃ f, w'.copy.failure = some f ∧ (f.OfGoal ∨ f.OfJob) := by
  by_cases hp : w.state = .pending
  · exact h.cause (he.cause hp hf)
  · obtain rfl := he.resolved hp
    obtain ⟨f, hwf, hof⟩ := h.wait (hw.resolve_left hp) hf
    refine ⟨f, ?_, hof⟩
    show w'.failure.map GoalFailure.copy = some f
    rw [hwf, Option.map_some, OfGoalOrJob.copy hof]

theorem KnownFailures.setWait (h : KnownFailures v) {w : DependencyWaitInfo}
    (hw : w.state = .failed → ∃ f, w.failure = some f ∧ (f.OfGoal ∨ f.OfJob)) :
    KnownFailures (v.setWait w) where
  job := h.job
  goal := h.goal
  wait {k w₀} hk := by
    rcases of_setWait hk with ⟨-, rfl⟩ | ⟨-, hk⟩
    · exact hw
    · exact h.wait hk

theorem KnownFailures.setGoal (h : KnownFailures v) {g : GoalInfo}
    (hg : g.state = .failed → ∃ f, g.failure = some f ∧ f.OfGoal) :
    KnownFailures (v.setGoal g) where
  job := h.job
  goal {k g₀} hk := by
    rcases of_setGoal hk with ⟨-, rfl⟩ | ⟨-, hk⟩
    · exact hg
    · exact h.goal hk
  wait := h.wait

theorem KnownFailures.setJob (h : KnownFailures v) {j : Job} (hj : j.key.jobId ≠ "") :
    KnownFailures (v.setJob j) where
  job {k j₀} hk := by
    rcases of_setJob hk with ⟨-, rfl⟩ | ⟨-, hk⟩
    · exact hj
    · exact h.job hk
  goal := h.goal
  wait := h.wait

/-- The loops over waits: each wait is as before or fresh from a pass. -/
theorem KnownFailures.waits (h : KnownFailures v) (hf : SameFacts v v')
    (hw : ∀ {k w}, v'.wait k = some w → v.wait k = some w ∨
      (w.state = .failed → ∃ f, w.failure = some f ∧ (f.OfGoal ∨ f.OfJob))) : KnownFailures v' where
  job hk := h.job (hf.job ▸ hk)
  goal hk := h.goal (hf.goal ▸ hk)
  wait hk hs := (hw hk).elim (fun hk => h.wait hk hs) fun hok => hok hs

/-- **Every operation keeps the failures known.** -/
theorem known_allowed (now : Time) :
    AllowsAll now fun v v' => KnownFailures v → KnownFailures v' where
  refl _ := id
  trans h h' := h' ∘ h
  settles hs h := by
    refine h.waits hs.facts fun {k w} hk => ?_
    rcases hs.waits k with ⟨hsame, _⟩ | ⟨w₀, w', hw₀, hp, he, hw'⟩
    · exact Or.inl (hsame ▸ hk)
    · rw [hw', Option.some.injEq] at hk
      exact Or.inr (hk ▸ h.evaluated (Or.inr hw₀) he)
  closes hc h := by
    refine h.waits hc.facts fun {k w} hk => ?_
    rcases hc.waits k with ⟨hsame, _⟩ | ⟨w₀, w', hw₀, _, hp, he, hw'⟩
    · exact Or.inl (hsame ▸ hk)
    · -- a wait that is still pending is cancelled, so it does not fail here
      rw [hw', Option.some.injEq] at hk
      refine Or.inr (hk ▸ fun hf => ?_)
      have hstate : w'.state = .failed ∧ (closed w').failure = w'.failure := by
        have hf : (closed w').state = .failed := hf
        unfold closed at hf ⊢
        split at hf
        · cases hf
        · next hne => exact ⟨hf, by rw [if_neg hne]; rfl⟩
      obtain ⟨f, hwf, hof⟩ := h.evaluated (Or.inr hw₀) he hstate.1
      refine ⟨f, ?_, hof⟩
      show (closed w').failure.map GoalFailure.copy = some f
      rw [hstate.2]
      exact hwf
  goal hc h := h.setGoal hc.failure
  finishes hf h := by
    obtain ⟨hst, -⟩ := hf
    rename_i j
    have hid : j.key.jobId ≠ "" := h.job hst
    exact h.setJob hid
  registers {key req v v'} hr h := by
    cases hr with
    | again hst _ he => exact h.setWait (h.evaluated (Or.inr hst) he)
    | new _ _ hp _ he _ => exact h.setWait (h.evaluated (k := ⟨key, req.waitID⟩) (Or.inl hp) he)
  lists _ _ _ _ h := ⟨h.job, h.goal, h.wait⟩
  inserts hgoal _ hjob h := by
    refine KnownFailures.setJob ?_ hjob
    cases hgoal with
    | shared => exact h
    | new _ _ hopen => exact h.setGoal fun hf => by rw [hopen] at hf; cases hf

end Changes

/-- **Failures survive.** After any history of operations, the failure of a stored wait is the one
its error carries, and any number of jobs that fail because of each other read that error again. -/
theorem failure_survives {σ : Type} {S : SchedulerStore σ} (L : LawfulStore S) (T : InstantText)
    {s₀ : σ}
    (hi : L.Inv s₀) (hempty : L.view s₀ = View.empty) (is : List (Time × Op))
    {k : DependencyWaitKey}
    {w : DependencyWaitInfo} (hw : (L.view (execAll S is s₀)).wait k = some w)
    (hf : w.state = .failed) :
    ∃ f, w.failure = some f ∧ (w.err = some (.goalFailed f) ∨ w.err = some (.dependencyFailed f)) ∧
      ∀ readers, w.err.bind (relayAll T · readers) = w.err := by
  obtain ⟨_, hrun⟩ := execAll_along L is s₀ hi
  rw [hempty] at hrun
  have hknown := hrun.allowed (fun i _ => known_allowed i.1) id knownFailures_empty
  obtain ⟨f, hwf, hof⟩ := hknown.wait hw hf
  have herr : w.err = some f.error := by
    unfold DependencyWaitInfo.err
    rw [hf, hwf]
    rfl
  refine ⟨f, hwf, ?_, fun readers => ?_⟩
  · rw [herr]
    unfold GoalFailure.error
    split
    · exact Or.inl rfl
    · exact Or.inr rfl
  · rw [herr]
    exact relayAll_error T hof readers

/-- Job `b` waits for `a`, which does not succeed. -/
def awaitedJobFails : List (Time × Op) :=
  waitingFor { jobID := "a" } ++ [(1, .finish ⟨"t", "a"⟩ false)]

theorem failed_job_survives : ∃ w,
    (execAll Memory.store awaitedJobFails {}).view.wait ⟨⟨"t", "b"⟩, "w"⟩ = some w ∧
      w.err = some (.dependencyFailed {
        code := "job_dependency_failed", jobID := "a",
        message := "prerequisite job a did not succeed" }) ∧
      ∀ readers, w.err.bind (relayAll .strokes · readers) = w.err :=
  ⟨_, rfl, rfl, (failure_survives Memory.lawful .strokes Memory.Inv.empty Memory.view_empty
    awaitedJobFails (k := ⟨⟨"t", "b"⟩, "w"⟩) rfl rfl).choose_spec.2.2⟩

end JobDB
