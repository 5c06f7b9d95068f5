import JobDB.Lib.Act
import JobDB.Lib.Tx
import JobDB.Workflow.Record

/-!
# The history of one execution run

`executionRun` of `pkg/workflow/execution_history.go`: the events read from the
durable chapters, the position in them, the declarations that wait for the next
durable record, and the functions that consume or record one event
(`recordEvent`, `activateLocked`, `appendLocked`, `attachPrefix`,
`checkpointPath`; `recordTaskDependency` of `execution_goals.go`).

* What a run cannot decide itself is asked of an `Ambient`: the clock, and what
  became of an append. Each reading has a name (`Point`), so two runs "with the
  same clock readings" are two runs with the same `Ambient`.
* Other executions of the job share the chapter log. They may have committed
  chapters before an append arrives (`PutAnswer.others`), and an append may be
  stored although its caller sees an error.
* Orchestration is serial, so the open execution contexts form a stack
  (`Run.frames`, innermost first). The deadline of a context is looked at where
  the source checks it: in `checkLocked`.
* `recorded`, `consumed` and `builds` are ghosts: what the run recorded, what it
  took from its history, and how often it evaluated a record builder.
-/

namespace JobDB.Workflow

/-! ## What a run asks of its surroundings -/

/-- The places at which a run reads the clock. -/
inductive Point where
  /-- The deadline check before an event. -/
  | event (kind : Kind) (id : Path)
  /-- The time stamped on a record. -/
  | stamp (kind : Kind) (id : Path)
  /-- A record builder. -/
  | build (kind : Kind) (id : Path)
  /-- The deadline checks around an invocation. -/
  | enter (id : Path)
  | leave (id : Path)
  /-- The comparison with a total deadline before a failure is handled. -/
  | total (id : Path)
  /-- The start of a local task invocation. -/
  | start (id : Path)
  /-- The start and the end of a wait. -/
  | wait (id : Path)
  | woken (id : Path)
deriving DecidableEq, Repr

/-- What became of one `PutChapter` and the `GetChapter` after a failed one. -/
structure PutAnswer where
  /-- Chapters other executions had committed when the append arrived. -/
  others : List Chapter := []
  /-- A free slot is taken. -/
  commits : Bool := true
  /-- The caller learns of it. -/
  replies : Bool := true
  /-- The slot can be read afterwards. -/
  reads : Bool := true
  /-- The error is a `ChapterApplicationPayloadError`. -/
  tooLarge : Bool := false
deriving DecidableEq, Repr

/-- The clock and the chapter log's answers. -/
structure Ambient where
  now : Point → Time
  /-- Which of several contexts that ran out of time is the cause seen. -/
  cause : Point → Nat
  put : Kind → Path → PutAnswer
  /-- What became of the lease's `Complete`. -/
  complete : PutAnswer

/-- What `ErrWorkflowNotDeterministic` is wrapped in. -/
inductive Divergence where
  | expected (kind : Kind) (id : Path) (recordedKind : Kind) (recordedID : Path)
  | restartNotReached
  | interruptedBoundary (id : Path)
  | invalidPolicy (id : Path)
  | descriptorChanged (id : Path)
  | catchUnavailable (rule : String)
  | invalidDispatch
  | invalidWaitingType
  | routeDiffers
  | alternateBeforeEligibility
deriving DecidableEq, Repr

/-- Errors that end a run for good (`executionRun.fatal`). -/
inductive Fatal where
  /-- `ErrWorkflowNotDeterministic`. -/
  | notDeterministic (why : Divergence)
  /-- An append that failed or met another history. -/
  | append (tooLarge : Bool)
  | other (text : String)
deriving DecidableEq, Repr

/-- Why a call does not return to the orchestration. -/
inductive Halt where
  /-- The context `id` ran out of time. -/
  | cut (id : Path) (failure : Failure)
  /-- `errRecordedBoundary`. -/
  | recordedBoundary
  /-- `errExecutionSuspended`. -/
  | suspended
  | fatal (reason : Fatal)
  /-- `Complete` failed. -/
  | completion
  /-- `ReplayCacheMissError`. -/
  | replayMiss
  /-- A record `DecodeExecutionRecord` refuses. -/
  | invalid (text : String)
  /-- The bound on a recursion of the model was reached; the source has none. -/
  | outOfFuel
deriving DecidableEq, Repr

/-! ## State -/

/-- `executionContext`. Of its policy only the two timeouts are read again;
`calls` are the calls made so far, for the occurrence counts. -/
structure Frame where
  id : Path
  deadline : Time := Time.zero
  totalDeadline : Time := Time.zero
  totalTimeout : Int := 0
  attemptTimeout : Int := 0
  attempt : Nat := 0
  calls : List (CallKind × String) := []
deriving DecidableEq, Repr

/-- `executionRun`, with the chapter log it appends to. -/
structure Run where
  log : List Chapter
  ordinal : Nat
  /-- What was read from the chapters at the start. -/
  events : List Record
  /-- The events from the cursor on. -/
  unread : List Record
  pending : List Record := []
  anchor : Time := Time.zero
  timeoutError : Option String := none
  activated : Bool := false
  live : Bool := false
  suspended : Bool := false
  fatal : Option Fatal := none
  /-- The outcome chapter, if the job has completed. -/
  final : Option (Option Data × Option Failure) := none
  /-- The restart records, the last one last. -/
  restarts : List Record := []
  restartApplied : Bool := false
  budgets : List (Path × ContinuationBudget) := []
  dependencyBindings : List (Path × DependencyWaitInfo) := []
  frames : List Frame := []
  recorded : List Record := []
  consumed : List Record := []
  builds : Nat := 0
deriving DecidableEq, Repr

/-- What is fixed for one run: whether it is an inspection (`r.replay`), the
identity of its activation, and the versions of its worker. -/
structure Mode where
  replay : Bool := false
  activation : String := ""
  versions : Versions := {}
deriving DecidableEq, Repr

/-- An action of a run. -/
abbrev RunM (α : Type) := Act Run Halt α

/-- `controlLocked`: the first fatal error stays. -/
def control {α : Type} (f : Fatal) : RunM α := do
  let s ← Act.get
  match s.fatal with
  | some g => Act.stop (.fatal g)
  | none =>
    Act.modify fun s => { s with fatal := some f }
    Act.stop (.fatal f)

/-! ## The position in the history -/

/-- The kinds `peekLocked` passes over. -/
def Kind.provenance : Kind → Bool
  | .activation | .restart | .checkpoint | .dependencyBinding => true
  | _ => false

/-- `peekLocked`. -/
def peek : RunM (Option Record) := do
  Act.modify fun s => { s with unread := s.unread.dropWhile fun r => r.kind.provenance }
  let s ← Act.get
  pure s.unread.head?

/-- The restart the run belongs to, `e.restart`. -/
def Run.restart (s : Run) : Option Record := s.restarts.getLast?

/-- The restart target has not been reached yet. -/
def Run.restarting (s : Run) : Bool := s.restart.isSome && !s.restartApplied

/-! ## Deadlines -/

/-- The error a context ends with when its time is up (`armLocked`). -/
def Frame.timeout (f : Frame) : Failure :=
  if f.totalDeadline ≠ Time.zero ∧ f.totalDeadline ≤ f.deadline then timeoutError "scope" .total
  else timeoutError "scope" .invocation

/-- The context has a deadline and it has passed. -/
def Frame.expired (f : Frame) (now : Time) : Bool :=
  f.deadline ≠ Time.zero && f.deadline ≤ now

/-- The context, with its error, that a check at `p` finds out of time. A
context ends with its own deadline or with an enclosing one's; where several
have passed, any of them can be the cause. -/
def Ambient.ended (A : Ambient) (p : Point) (frames : List Frame) : Option (Path × Failure) :=
  let late := frames.filter fun f => f.expired (A.now p)
  late[A.cause p % late.length]?.map fun f => (f.id, f.timeout)

/-- `checkLocked`. -/
def check (A : Ambient) (p : Point) : RunM Unit := do
  let s ← Act.get
  if s.suspended then Act.stop .suspended
  else match s.fatal with
    | some f => Act.stop (.fatal f)
    | none =>
      match if s.live then A.ended p s.frames else none with
      | some (id, e) => Act.stop (.cut id e)
      | none => pure ()

/-- `liveLocked`. -/
def goLive (m : Mode) (A : Ambient) (p : Point) : RunM Unit := do
  let s ← Act.get
  if s.restarting then check A p
  else if m.replay then Act.stop .replayMiss
  else
    Act.modify fun s => { s with live := true }
    check A p

/-! ## Appending -/

/-- `PutChapter` at the run's own ordinal: whether the caller sees success, and
the log afterwards. -/
def Run.putChapter (s : Run) (a : PutAnswer) (ch : Chapter) : Bool × List Chapter :=
  if (s.log ++ a.others).length = s.ordinal ∧ a.commits = true then
    (a.replies, s.log ++ a.others ++ [ch])
  else (false, s.log ++ a.others)

/-- Whether a chapter found at the ordinal of a failed append stands for the one
to be written, and the record it holds: a result may differ in its outcome, any
other record may not. -/
def adopts (ch : Chapter) (rec : Record) (got : Chapter) : Option Record :=
  match got.body with
  | .execution winner =>
    if winner.Valid ∧ (rec.kind = .result ∨ winner = rec) ∧ winner.kind = rec.kind ∧
        winner.id = rec.id ∧ winner.version = rec.version ∧ winner.descriptor = rec.descriptor ∧
        got.retained = ch.retained ∧ sameExecutionPrefix ch.pre got.pre = true then some winner
    else none
  | _ => none

/-- `attachPrefix`. -/
def attachPrefix (pending : List Record) (ch : Chapter) : Chapter :=
  if pending = [] then ch else { ch with pre := some pending }

/-- Records whose chapter carries no declarations. -/
def Kind.detached : Kind → Bool
  | .activation | .header => true
  | _ => false

/-- What a committed or consumed outcome does to the clock anchor and to the
last durable timeout. -/
def Run.settle (r : Record) (s : Run) : Run :=
  if r.kind = .result ∨ r.kind = .joinResult then
    { s with
      anchor := r.recordedAt
      timeoutError := if r.timedOut then r.error.map (·.payload) else none }
  else s

/-- What a retry and a sleep do to the clock anchor. -/
def Run.wake (r : Record) (s : Run) : Run :=
  if r.retry ∨ r.kind = .sleep then { s with anchor := r.wakeAt } else s

/-- The chapter `appendLocked` writes. -/
def Run.chapterOf (s : Run) (rec : Record) : Chapter :=
  if rec.kind.detached then { body := .execution rec }
  else attachPrefix s.pending { body := .execution rec }

/-- The state once `rec` is committed, by this run or by the one it follows. -/
def Run.commit (log : List Chapter) (rec : Record) (s : Run) : Run :=
  let pending := if rec.kind.detached then s.pending else []
  Run.wake rec (Run.settle rec
    { s with log := log, ordinal := s.ordinal + 1, pending := pending,
             recorded := s.recorded ++ [rec] })

/-- `rec.At`, unless it is set. -/
def Record.timed (rec : Record) (now : Time) : Record :=
  if rec.recordedAt = Time.zero then { rec with recordedAt := now } else rec

/-- What `appendLocked` sets before it writes. -/
def Record.stamp (rec : Record) (m : Mode) (now : Time) : Record :=
  { rec.timed now with version := executionPatternVersion, activation := m.activation }

/-- `appendLocked`. -/
def append (m : Mode) (A : Ambient) (rec : Record) : RunM Record := do
  let r := rec.stamp m (A.now (.stamp rec.kind rec.id))
  match decodeExecutionRecord r with
  | .error text => Act.stop (.invalid text)
  | .ok _ =>
    let s ← Act.get
    let answer := A.put r.kind r.id
    let ch := s.chapterOf r
    let put := s.putChapter answer ch
    if put.1 then
      Act.modify (Run.commit put.2 r)
      pure r
    else
      let found := if answer.reads then put.2[s.ordinal]? else none
      match found.bind (adopts ch r) with
      | some winner =>
        Act.modify (Run.commit put.2 winner)
        pure winner
      | none =>
        Act.modify fun s => { s with log := put.2 }
        control (.append answer.tooLarge)

/-- `activateLocked`. -/
def activate (m : Mode) (A : Ambient) : RunM Unit := do
  let s ← Act.get
  if s.activated then pure ()
  else
    let _ ← append m A { kind := .activation, versions := some m.versions }
    Act.modify fun s => { s with activated := true }

/-! ## One event -/

/-- The kinds that are always declarations. -/
def Kind.declares : Kind → Bool
  | .scope | .task | .attempt | .caught | .handled | .continuation => true
  | _ => false

/-- Whether a freshly built record is kept for the next durable one. -/
def Run.defers (s : Run) (rec : Record) (deferred : Bool) : Bool :=
  if rec.kind.declares then true
  else if rec.kind = .decision then !rec.retry
  else if deferred && decide (rec.kind = .result) && rec.timedOut then
    s.timeoutError = rec.error.map (·.payload)
  else deferred

/-- Keep a declaration for the next durable record. -/
def Run.declare (rec : Record) (s : Run) : Run :=
  let anchor := if rec.kind = .continuation then rec.recordedAt else s.anchor
  { s with anchor := anchor, pending := s.pending ++ [rec], recorded := s.recorded ++ [rec] }

/-- The next event of the history is the expected one. -/
def Run.consume (next : Record) (s : Run) : Run :=
  let s := Run.settle next { s with unread := s.unread.tail, consumed := s.consumed ++ [next] }
  let s := if next.kind = .continuation then { s with anchor := next.recordedAt } else s
  Run.wake next s

/-- What `recordEvent` sets on a built record. -/
def Record.named (build : Record) (kind : Kind) (id : Path) : Record :=
  { build with kind := kind, id := id, version := executionPatternVersion }

/-- The part of `recordEvent` at the end of the history: build the record and
declare or append it. -/
def recordLive (m : Mode) (A : Ambient) (kind : Kind) (id : Path) (build : Record)
    (deferred : Bool) : RunM Record := do
  goLive m A (.event kind id)
  Act.modify fun s => { s with builds := s.builds + 1 }
  let r := (build.named kind id).timed (A.now (.stamp kind id))
  let s ← Act.get
  if s.defers r deferred then
    Act.modify (Run.declare r)
    pure r
  else
    activate m A
    append m A r

/-- An unfinished inspection reconstructs these declarations without recording
them. -/
def Kind.reconstructed : Kind → Bool
  | .scope | .task | .attempt => true
  | _ => false

/-- `recordEvent`: consume the expected record or commit it before advancing. -/
def recordEvent (m : Mode) (A : Ambient) (kind : Kind) (id : Path) (build : Record)
    (deferred : Bool) : RunM Record := do
  check A (.event kind id)
  match ← peek with
  | some next =>
    if next.kind = kind ∧ next.id = id then
      Act.modify (Run.consume next)
      pure next
    else if next.kind = .result ∧ next.timedOut = true ∧ next.id.Encloses id then
      Act.stop .recordedBoundary
    else control (.notDeterministic (.expected kind id next.kind next.id))
  | none =>
    let s ← Act.get
    if s.restarting ∧ kind ≠ .continuation then
      control (.notDeterministic .restartNotReached)
    else if m.replay ∧ s.final = none ∧ kind.reconstructed then
      Act.modify fun s => { s with builds := s.builds + 1 }
      pure { build.named kind id with recordedAt := Time.zero }
    else recordLive m A kind id build deferred

/-- `event`. -/
def event (m : Mode) (A : Ambient) (kind : Kind) (id : Path) (build : Record) : RunM Record :=
  recordEvent m A kind id build false

/-- `checkpointPath`. -/
def checkpointPath (m : Mode) (A : Ambient) (id : Path) : RunM Unit := do
  let s ← Act.get
  if s.pending = [] then pure ()
  else
    let _ ← event m A .checkpoint id { kind := .checkpoint }

/-- `recordTaskDependency`, called in the context `context`. -/
def recordTaskDependency (m : Mode) (A : Ambient) (context id : Path) (wait : DependencyWaitInfo) :
    RunM Unit := do
  checkpointPath m A context
  let s ← Act.get
  if s.dependencyBindings.any fun b => b.1 = id then pure ()
  else
    goLive m A (.event .dependencyBinding id)
    activate m A
    let _ ← append m A { kind := .dependencyBinding, id := id, payload := some (.wait wait) }
    Act.modify fun s => { s with dependencyBindings := s.dependencyBindings ++ [(id, wait)] }

/-! ## Opening and completing a run -/

/-- A chapter the loop over the chapters in `runExecution` accepts: its own
record and those of its prefix decode. -/
def Chapter.check (ch : Chapter) : Except String Unit :=
  match ch.body with
  | .execution r => do
    let _ ← decodeExecutionRecord r
    ch.decodePrefix.forM fun item => do
      let _ ← decodeExecutionRecord item
  | .jobAttemptOutcome _ _ =>
    ch.decodePrefix.forM fun item => do
      let _ ← decodeExecutionRecord item
  | _ => .error "expected execution history"

/-- The restart a chapter opens. -/
def Chapter.restarts (ch : Chapter) : List Record :=
  match ch.body with
  | .execution r => if r.kind = .restart then [r] else []
  | _ => []

/-- The dependency a chapter binds. -/
def Chapter.bindings (ch : Chapter) : List (Path × DependencyWaitInfo) :=
  match ch.body with
  | .execution r =>
    match r.kind, r.payload with
    | .dependencyBinding, some (.wait w) => [(r.id, w)]
    | _, _ => []
  | _ => []

/-- The outcome a chapter completes the job with. -/
def Chapter.outcome (ch : Chapter) : Option (Option Data × Option Failure) :=
  match ch.body with
  | .jobAttemptOutcome output error => some (output, error)
  | _ => none

/-- One turn of the loop over the chapters in `runExecution`. -/
def loadChapter (s : Run) (ch : Chapter) : Except String Run := do
  ch.check
  .ok { s with
    events := s.events ++ ch.records
    dependencyBindings := s.dependencyBindings ++ ch.bindings
    restarts := s.restarts ++ ch.restarts
    final := ch.outcome.or s.final }

/-- A run that has read nothing yet; the first chapter starts the job. -/
def Run.fresh (start : Chapter) (chapters : List Chapter) : Run where
  log := start :: chapters
  ordinal := chapters.length + 1
  events := []
  unread := []

/-- The events of a job's chapters. -/
def load (start : Chapter) (chapters : List Chapter) : Except String Run := do
  let s ← chapters.foldlM loadChapter (Run.fresh start chapters)
  .ok { s with unread := s.events }

/-- The run `load` returns when it accepts the chapters. -/
def Run.opened (start : Chapter) (chapters : List Chapter) : Run where
  log := start :: chapters
  ordinal := chapters.length + 1
  events := reconstruct chapters
  unread := reconstruct chapters
  dependencyBindings := chapters.flatMap Chapter.bindings
  restarts := chapters.flatMap Chapter.restarts
  final := chapters.foldl (fun o ch => ch.outcome.or o) none

theorem foldlM_loadChapter {chapters : List Chapter} {s s' : Run} :
    chapters.foldlM loadChapter s = .ok s' ↔
      (∀ ch ∈ chapters, ch.check = .ok ()) ∧
        s' = { s with
          events := s.events ++ reconstruct chapters
          dependencyBindings := s.dependencyBindings ++ chapters.flatMap Chapter.bindings
          restarts := s.restarts ++ chapters.flatMap Chapter.restarts
          final := chapters.foldl (fun o ch => ch.outcome.or o) s.final } := by
  induction chapters generalizing s with
  | nil => simp [eq_comm, pure, Except.pure]
  | cons ch chapters ih =>
    rw [List.foldlM_cons]
    cases hc : ch.check with
    | error e => simp [loadChapter, hc, bind, Except.bind]
    | ok u =>
      simp only [loadChapter, hc, bind, Except.bind] at ih ⊢
      rw [ih]
      simp [reconstruct, hc]

theorem load_eq_ok {start : Chapter} {chapters : List Chapter} {s : Run} :
    load start chapters = .ok s ↔
      (∀ ch ∈ chapters, ch.check = .ok ()) ∧ s = Run.opened start chapters := by
  unfold load
  rw [bind_eq_ok]
  constructor
  · rintro ⟨t, ht, hs⟩
    obtain ⟨hall, rfl⟩ := foldlM_loadChapter.mp ht
    exact ⟨hall, by rw [← Except.ok.inj hs]; rfl⟩
  · rintro ⟨hall, rfl⟩
    exact ⟨_, foldlM_loadChapter.mpr ⟨hall, rfl⟩, rfl⟩

/-- The header: written by the first run, the first event of any later one. -/
def openHistory (m : Mode) (A : Ambient) : RunM Unit := do
  let s ← Act.get
  match s.events with
  | [] =>
    if m.replay then Act.stop .replayMiss
    else
      let header ← append m A { kind := .header, versions := some m.versions }
      Act.modify fun s => { s with anchor := header.recordedAt }
  | e :: _ =>
    if e.kind ≠ .header then Act.stop (.invalid "execution header missing")
    else
      Act.modify fun s =>
        { s with unread := s.unread.tail, consumed := s.consumed ++ [e], anchor := e.recordedAt }

/-- `lease.Complete` with an outcome chapter at the run's ordinal. The run is over
then, whatever the answer. -/
def completeWith (A : Ambient) (ch : Chapter) : RunM Unit := do
  let s ← Act.get
  let put := s.putChapter A.complete ch
  Act.modify fun s => { s with log := put.2 }
  if put.1 then pure () else Act.stop .completion

/-- The end of `runExecution`: the declarations still pending travel with the
outcome chapter. -/
def completeJob (A : Ambient) (output : Option Data) (error : Option Failure) : RunM Unit := do
  let s ← Act.get
  completeWith A (attachPrefix s.pending { body := .jobAttemptOutcome output error })

end JobDB.Workflow
