import JobDB.Goal.Types

/-!
# Execution records

The records an orchestration leaves in its job's chapter log
(`pkg/jobdb/execution.go`), the chapters that carry them and what a later run
reads back from those (`pkg/internal/executionmeta/meta.go`, the loop over the
chapters in `runExecution`).

* A record's identity is the path of calls that led to it. The source renders a
  path as text, one segment after each `/`, with the consumer's call sites
  quoted; `Path` keeps the segments apart, so that "`next.ID + "/"` is a prefix
  of `id`" reads `Path.Encloses`.
* Records and their parts stand for their JSON text: encoding one and decoding
  it again gives it back. Artifacts of a snapshot are left out, and with them
  the checks on their names and keys.
* A *deferred* record has no chapter of its own; it travels in the metadata of
  the next chapter (`Chapter.pre`). `reconstruct` is the order a reader sees.
-/

namespace JobDB.Workflow

/-! ## Identities -/

/-- What a call of an execution context is an occurrence of. -/
inductive CallKind where
  | scope
  | task
  | sleep
  | join
deriving DecidableEq, Repr

/-- One segment of an identity. -/
inductive Seg where
  /-- The `n`th call of `kind` at `site` in one context: `kind:"site"#n`. -/
  | call (kind : CallKind) (site : String) (n : Nat)
  | attempt (n : Nat)
  | matching
  /-- The handler of a catch rule: `catch:rule`. -/
  | handler (rule : String)
  | restart
  | restartGoals
  /-- A fixed name of the engine, such as `$job`. -/
  | name (text : String)
deriving DecidableEq, Repr

/-- The identity of a context or a record; the root context's is empty. -/
abbrev Path := List Seg

/-- `strings.HasPrefix(id, outer+"/")`. -/
def Path.Encloses (outer id : Path) : Prop := outer <+: id ∧ outer ≠ id

instance (outer id : Path) : Decidable (outer.Encloses id) :=
  inferInstanceAs (Decidable (_ ∧ _))

/-! ## Policies -/

/-- `executionPolicy`. -/
structure Policy where
  totalTimeout : Int := 0
  attemptTimeout : Int := 0
  retry : RetryPolicy := normalizeRetryPolicy {}
  rules : List String := []
  restart : Bool := false
deriving DecidableEq, Repr

/-- `TaskAlternateAfter`. -/
structure TaskAlternateAfter where
  taskType : String
  after : Int
deriving DecidableEq, Repr

/-- `TaskCall`, without its catch rules: what its JSON text holds. -/
structure TaskCall where
  site : String
  taskType : String
  contractVersion : Nat
  command : String := "null"
  policy : RunPolicy := {}
  alternate : Option TaskAlternateAfter := none
deriving DecidableEq, Repr

/-- `continuationBudget`. -/
structure ContinuationBudget where
  deadline : Time
  totalDeadline : Time
  attempt : Nat
deriving DecidableEq, Repr

/-! ## Outcomes -/

/-- The JSON text of task or job data. -/
abbrev Data := String

/-- The error kinds a record can carry; a text that is none of the three is
`other`. -/
inductive ErrorKind where
  | appError
  | systemError
  | timeout
  | other (text : String)
deriving DecidableEq, Repr

/-- An error in its recorded form: its kind and the text of its payload. -/
structure Failure where
  kind : ErrorKind
  payload : String
deriving DecidableEq, Repr

/-- `TimeoutScopeInvocation` and `TimeoutScopeTotal`. -/
inductive TimeoutScope where
  | invocation
  | total
deriving DecidableEq, Repr

/-- `NewTimeoutError(kind, 0, scope, nil, retryable)`; only a total timeout is
raised as not retryable. -/
def timeoutError (kind : String) (scope : TimeoutScope) : Failure where
  kind := .timeout
  payload := kind ++ match scope with
    | .invocation => " invocation timed out after 0s"
    | .total => " total timed out after 0s"

/-- `CatchDisposition`; a text that is none of the three is `other`. -/
inductive Disposition where
  | handled
  | continued
  | propagate
  | other (text : String)
deriving DecidableEq, Repr

/-! ## Records -/

/-- `ExecutionPatternVersion`. -/
def executionPatternVersion : Nat := 4

/-- `ExecutionVersions`. -/
structure Versions where
  executionPatternVersion : Nat := Workflow.executionPatternVersion
  jobDBVersion : String := "(devel)"
  consumerVersions : List (String × String) := []
deriving DecidableEq, Repr

/-- The kinds of records. -/
inductive Kind where
  | header
  | activation
  | dependencyBinding
  | checkpoint
  | dispatch
  | joinResult
  | admission
  | scope
  | task
  | attempt
  | result
  /-- `"catch"`: which rule was selected. -/
  | caught
  | handled
  | decision
  /-- `"end"`, which the engine never writes. -/
  | ended
  | wait
  | restart
  | continuation
  | sleep
  | join
deriving DecidableEq, Repr

/-- What a descriptor describes. -/
inductive Descriptor where
  | scope (policy : Policy)
  | task (call : TaskCall) (policy : Policy)
  | duration (d : Int)
  | jobs (ids : List String)
  | dependencies (deps : List Dependency)
  | taskType (name : String)
deriving DecidableEq, Repr

/-- What a payload holds. -/
inductive Payload where
  /-- Of a continuation: the renewed budgets of the enclosing scopes. -/
  | budgets (entries : List (Path × ContinuationBudget))
  /-- Of a dependency binding. -/
  | wait (info : DependencyWaitInfo)
  /-- Of a restart: the caller's own text. -/
  | restart (text : String)
deriving DecidableEq, Repr

/-- `JobPrerequisite`. -/
structure JobPrerequisite where
  jobID : String
  condition : JobPrereqCondition
deriving DecidableEq, Repr

/-- `ExecutionRecord`; `recordedAt` is the source's `At`. What a restart record
has for a descriptor is kept with its chapter. -/
structure Record where
  version : Nat := executionPatternVersion
  kind : Kind
  id : Path := []
  activation : String := ""
  versions : Option Versions := none
  recordedAt : Time := Time.zero
  descriptor : Option Descriptor := none
  attempt : Nat := 0
  deadline : Time := Time.zero
  totalDeadline : Time := Time.zero
  input : Option Data := none
  output : Option Data := none
  error : Option Failure := none
  rule : String := ""
  disposition : Option Disposition := none
  retryable : Option Bool := none
  retry : Bool := false
  wakeAt : Time := Time.zero
  source : Option JobKey := none
  payload : Option Payload := none
  dependencies : List Dependency := []
  prerequisites : List JobPrerequisite := []
  alternateAt : Option Time := none
  executionTaskType : String := ""
deriving DecidableEq, Repr

/-- `r.ErrorKind == payloadKindTimeout`. -/
def Record.timedOut (r : Record) : Bool := r.error.any fun e => e.kind = .timeout

/-- `JobKey.Validate`, as far as `DecodeExecutionRecord` needs it. -/
def validSource (k : JobKey) : Bool := k.tenantId ≠ "" && k.jobId ≠ ""

/-- The check `DecodeExecutionRecord` makes on one kind's own fields. -/
def Record.checkFields (r : Record) : Except String Unit :=
  match r.kind with
  | .dependencyBinding =>
    match r.payload with
    | some (.wait w) =>
      if w.waitID = "" ∨ w.state = .pending then .error "invalid dependency binding" else .ok ()
    | _ => .error "invalid dependency binding"
  | .dispatch =>
    if r.executionTaskType = "" then .error "execution dispatch requires task type" else .ok ()
  | .scope =>
    if r.descriptor = none then .error "execution scope requires a descriptor" else .ok ()
  | .task =>
    if r.descriptor = none then .error "execution task requires a descriptor" else .ok ()
  | .attempt => if r.attempt < 1 then .error "execution attempt must be positive" else .ok ()
  | .joinResult | .admission | .result | .handled | .ended =>
    if r.output = none ∧ r.error = none then .error "execution outcome requires output or error"
    else .ok ()
  | .wait =>
    if r.input = none ∨ r.descriptor = none then
      .error "execution wait requires input and task type"
    else .ok ()
  | .restart =>
    if r.source.all validSource = true ∧ r.source ≠ none then .ok ()
    else .error "execution restart requires source job"
  | .continuation =>
    if r.payload = none then .error "execution continuation requires budgets" else .ok ()
  | _ => .ok ()

/-- The error kind is absent or one of the three. -/
def Record.checkError (r : Record) : Except String Unit :=
  match r.error with
  | some { kind := .other _, .. } => .error "invalid execution error kind"
  | _ => .ok ()

/-- The disposition is absent or one of the three. -/
def Record.checkDisposition (r : Record) : Except String Unit :=
  match r.disposition with
  | some (.other _) => .error "invalid execution disposition"
  | _ => .ok ()

/-- A header or an activation pins the versions; any other record has an
identity. -/
def Record.checkIdentity (r : Record) : Except String Unit :=
  match r.kind with
  | .header | .activation =>
    match r.versions with
    | some v =>
      if v.executionPatternVersion ≠ r.version ∨ v.jobDBVersion = "" then
        .error "invalid execution versions"
      else .ok ()
    | none => .error "invalid execution versions"
  | _ => if r.id = [] then .error "execution record requires identity" else .ok ()

/-- The consumer's versions have names and texts. -/
def Record.checkVersions (r : Record) : Except String Unit :=
  if r.versions.any fun v => v.consumerVersions.any fun c => blank c.1 || blank c.2 then
    .error "invalid consumer versions"
  else .ok ()

/-- `DecodeExecutionRecord`, after the JSON decoder. -/
def decodeExecutionRecord (r : Record) : Except String Record := do
  if r.version ≠ executionPatternVersion then
    .error ("unsupported execution version " ++ toString r.version ++ " (current " ++
      toString executionPatternVersion ++ ")")
  r.checkIdentity
  r.checkVersions
  r.checkFields
  r.checkError
  r.checkDisposition
  .ok r

/-- A record that decodes. -/
def Record.Valid (r : Record) : Prop := decodeExecutionRecord r = .ok r

instance (r : Record) : Decidable r.Valid := inferInstanceAs (Decidable (_ = _))

/-! ## Chapters -/

/-- The bodies of the chapters of an execution job. -/
inductive Body where
  | jobStart (input : Data)
  | execution (record : Record)
  | jobAttemptOutcome (output : Option Data) (error : Option Failure)
  | other
deriving DecidableEq, Repr

/-- A chapter. `pre` is the list of records under the metadata key
`__execution_prefix_v3`, `none` when the key is absent; `retained` is the
descriptor of a restart record. -/
structure Chapter where
  body : Body
  pre : Option (List Record) := none
  retained : Option (List Record) := none
deriving DecidableEq, Repr

/-- The prefix of a restart record is its descriptor, if it has one. -/
def Chapter.prefixRaw (ch : Chapter) : Option (List Record) :=
  match ch.body with
  | .execution r => if r.kind = .restart ∧ ch.retained ≠ none then ch.retained else ch.pre
  | _ => ch.pre

/-- `executionmeta.Decode`: an absent prefix is empty. -/
def Chapter.decodePrefix (ch : Chapter) : List Record := ch.prefixRaw.getD []

theorem Chapter.prefixRaw_eq_pre {ch : Chapter} (h : ch.retained = none) :
    ch.prefixRaw = ch.pre := by
  unfold Chapter.prefixRaw
  rw [h]
  cases ch.body <;> simp

/-- What the store gives back of a list of records: an empty one is not kept
(`extractReconstruction`, `restoreReconstruction`, `executionRecordsJSON`). -/
def restoreReconstruction (records : Option (List Record)) : Option (List Record) :=
  if records = some [] then none else records

/-- What a run reads from one chapter: its prefix, then its own record. -/
def Chapter.records (ch : Chapter) : List Record :=
  match ch.body with
  | .execution r => ch.decodePrefix ++ [r]
  | .jobAttemptOutcome _ _ => ch.decodePrefix
  | _ => []

/-- The order of records a reader of the chapters sees. -/
def reconstruct (log : List Chapter) : List Record := log.flatMap Chapter.records

@[simp] theorem reconstruct_nil : reconstruct [] = [] := rfl

@[simp] theorem reconstruct_append (l l' : List Chapter) :
    reconstruct (l ++ l') = reconstruct l ++ reconstruct l' := by
  simp [reconstruct]

@[simp] theorem reconstruct_singleton (ch : Chapter) : reconstruct [ch] = ch.records := by
  simp [reconstruct]

/-- What `sameExecutionPrefix` compares: a record without its clock samples and
without the activation that wrote it. -/
def Record.normalize (r : Record) : Record :=
  { r with
    recordedAt := Time.zero
    deadline := Time.zero
    totalDeadline := Time.zero
    activation := "" }

/-- `sameExecutionPrefix`: equal texts, or two lists of records that differ at
most in clock samples and activations. -/
def sameExecutionPrefix (a b : Option (List Record)) : Bool :=
  a = b || (a.isSome && b.isSome &&
    (a.getD []).map Record.normalize = (b.getD []).map Record.normalize)

theorem map_normalize_of_samePrefix {a b : Option (List Record)}
    (h : sameExecutionPrefix a b = true) :
    (b.getD []).map Record.normalize = (a.getD []).map Record.normalize := by
  unfold sameExecutionPrefix at h
  rw [Bool.or_eq_true] at h
  rcases h with h | h
  · rw [of_decide_eq_true h]
  · rw [Bool.and_eq_true] at h
    exact (of_decide_eq_true h.2).symm

@[simp] theorem sameExecutionPrefix_self (a : Option (List Record)) :
    sameExecutionPrefix a a = true := by
  simp [sameExecutionPrefix]

theorem eq_none_of_samePrefix {b : Option (List Record)}
    (h : sameExecutionPrefix none b = true) : b = none := by
  cases b with
  | none => rfl
  | some rs => cases h

end JobDB.Workflow
