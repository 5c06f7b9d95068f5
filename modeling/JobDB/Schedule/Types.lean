import JobDB.Cell.Types
import JobDB.Runtime.Types

/-!
# Schedules

Schedules, the requests on them and the metadata their occurrences carry
(`pkg/jobdb/schedule.go`).

A schedule has a generation that every change of it raises. Its occurrences are
jobs whose hidden metadata names the generation and the spec hash they were
submitted under, the occurrence before them and the outcomes seen so far.

What these functions take from elsewhere is a field of `ScheduleLib`: time zones,
JSON and hashing.
-/

namespace JobDB

/-! ## Data -/

inductive ScheduleState where
  | active
  | paused
  | archived
  | failurePaused
deriving DecidableEq, Repr

/-- `ScheduleOverlapPolicy`; the only supported one is `serial`. -/
inductive ScheduleOverlapPolicy where
  | unset
  | serial
  | other (policy : String)
deriving DecidableEq, Repr

/-- `NormalizeScheduleOverlapPolicy`. -/
def normalizeScheduleOverlapPolicy : ScheduleOverlapPolicy → ScheduleOverlapPolicy
  | .unset => .serial
  | policy => policy

inductive ScheduleTriggerKind where
  | cron
  | interval
  | other (kind : String)
deriving DecidableEq, Repr

/-- `ScheduleTrigger`. -/
structure ScheduleTrigger where
  kind : ScheduleTriggerKind
  expression : String := ""
  timezone : String := ""
  startAt : Option Time := none
  endAt : Option Time := none
  interval : Int := 0
deriving DecidableEq, Repr

/-- A task's input or output with its artifacts, each a name and its content. -/
structure TaskData where
  data : String
  artifacts : List (String × String) := []
deriving DecidableEq, Repr

/-- `ScheduleTarget`. -/
structure ScheduleTarget where
  cell : String
  cellID : String := ""
  cellRepo : String := ""
  clientPayloadUpdate : Option ClientPayloadUpdate := none
  jobType : String
  data : Option TaskData
  runPolicy : RunPolicy := {}
  metadata : String := ""
deriving DecidableEq, Repr

/-- `ScheduleFailurePolicy`. -/
structure ScheduleFailurePolicy where
  minSuccessPercent : Int := 0
  windowSize : Int := 0
  maxSequentialFailures : Int := 0
deriving DecidableEq, Repr

/-- `ScheduleInfo`, which is also what the runtimes store. -/
structure ScheduleInfo where
  pauseReason : String := ""
  key : ScheduleKey
  state : ScheduleState
  generation : Int
  specHash : String
  trigger : ScheduleTrigger
  target : ScheduleTarget
  overlapPolicy : ScheduleOverlapPolicy
  failurePolicy : ScheduleFailurePolicy
  nextFireAt : Option Time
  nextJobID : Option String
  createdAt : Time
  updatedAt : Time
deriving DecidableEq, Repr

/-- `ScheduleFailureHistory`: the outcomes of earlier occurrences, oldest first, `1`
for a success and `0` for anything else. -/
structure ScheduleFailureHistory where
  bits : String := ""
  windowSize : Int := 0
deriving DecidableEq, Repr

/-- `ScheduleOccurrenceMetadata`. -/
structure ScheduleOccurrenceMetadata where
  scheduleId : String
  generation : Int
  specHash : String
  scheduledAt : Time
  runId : String
  manual : Bool
  previousJobId : String := ""
  failureHistory : ScheduleFailureHistory := {}
  kind : String := "schedule_tick"
  backfillId : String := ""
deriving DecidableEq, Repr

/-! ## Requests -/

structure UpsertScheduleRequest where
  tenantId : String
  scheduleId : String
  trigger : ScheduleTrigger
  target : ScheduleTarget
  overlapPolicy : ScheduleOverlapPolicy := .unset
  failurePolicy : ScheduleFailurePolicy := {}
  paused : Bool := false
  expectedGeneration : Option Int := none
  requestTime : Time := Time.zero
  workerID : String := ""
deriving DecidableEq, Repr

def UpsertScheduleRequest.key (req : UpsertScheduleRequest) : ScheduleKey :=
  ⟨req.tenantId, req.scheduleId⟩

structure ScheduleMutationRequest where
  key : ScheduleKey
  expectedGeneration : Option Int := none
  requestTime : Time := Time.zero
  workerID : String := ""
deriving DecidableEq, Repr

structure TriggerScheduleRequest where
  key : ScheduleKey
  requestID : String := ""
  requestTime : Time := Time.zero
  workerID : String := ""
deriving DecidableEq, Repr

/-- The request's own time, or the clock's where it has none. -/
def requestTimeOr (requestTime now : Time) : Time :=
  if requestTime = Time.zero then now else requestTime

/-! ## The calendar -/

/-- The fields of a local time that the schedules read. -/
structure Clock where
  year : Int
  month : Int
  day : Int
  hour : Int
  minute : Int
  second : Int
  weekday : Int
deriving DecidableEq, Repr

/-- The fields of an instant in UTC: days since the epoch, turned into a date of the
Gregorian calendar by counting in eras of 400 years that begin in March. -/
def utcClock (t : Time) : Clock :=
  let seconds := t / 1000000000
  let days := seconds / 86400
  let era := (days + 719468) / 146097
  let dayOfEra := (days + 719468) % 146097
  let yearOfEra :=
    (dayOfEra - dayOfEra / 1460 + dayOfEra / 36524 - dayOfEra / 146096) / 365
  let dayOfYear := dayOfEra - (365 * yearOfEra + yearOfEra / 4 - yearOfEra / 100)
  let fromMarch := (5 * dayOfYear + 2) / 153
  let month := if fromMarch < 10 then fromMarch + 3 else fromMarch - 9
  { year := yearOfEra + era * 400 + (if month ≤ 2 then 1 else 0)
    month := month
    day := dayOfYear - (153 * fromMarch + 2) / 5 + 1
    hour := seconds % 86400 / 3600
    minute := seconds % 3600 / 60
    second := seconds % 60
    weekday := (days + 4) % 7 }

example : utcClock 1000000000000000000 = ⟨2001, 9, 9, 1, 46, 40, 0⟩ := by decide

/-- A number in decimal, padded with zeros to `width` digits after its sign. -/
def padded (width : Nat) (n : Int) : String :=
  let digits := n.natAbs.repr
  (if n < 0 then "-" else "") ++ String.ofList (List.replicate (width - digits.length) '0') ++
    digits

/-- `ScheduleRunID`. -/
def scheduleRunID (t : Time) : String :=
  let c := utcClock t
  padded 4 c.year ++ padded 2 c.month ++ padded 2 c.day ++ "T" ++ padded 2 c.hour ++
    padded 2 c.minute ++ padded 2 c.second ++ padded 9 (t % 1000000000) ++ "Z"

/-- `ScheduleRunJobID`. -/
def scheduleRunJobID (scheduleID : String) (generation : Int) (scheduledAt : Time) : String :=
  "jobdbsched_" ++ scheduleID ++ "_g" ++ generation.repr ++ "_run_" ++ scheduleRunID scheduledAt

/-- `ScheduleManualJobID`. -/
def scheduleManualJobID (scheduleID requestID : String) (now : Time) : String :=
  "jobdbsched_" ++ scheduleID ++ "_manual_" ++
    (if requestID = "" then scheduleRunID now else requestID)

theorem scheduleRunJobID_ne_empty (scheduleID : String) (generation : Int) (t : Time) :
    scheduleRunJobID scheduleID generation t ≠ "" := by
  intro h
  have hlen := congrArg String.length h
  unfold scheduleRunJobID at hlen
  simp at hlen

theorem scheduleManualJobID_ne_empty (scheduleID requestID : String) (now : Time) :
    scheduleManualJobID scheduleID requestID now ≠ "" := by
  intro h
  have hlen := congrArg String.length h
  unfold scheduleManualJobID at hlen
  simp at hlen

/-! ## Checks -/

/-- What the schedules take from elsewhere. -/
structure ScheduleLib where
  /-- `time.LoadLocation`, with the fields of an instant there. -/
  location : String → Except Err (Time → Clock)
  /-- `ValidateApplicationMetadata`. -/
  validateApplicationMetadata : String → Except Err Unit
  /-- `ValidateSubmissionApplicationPayload` of a target's job type and input. -/
  validatePayload : String → Option TaskData → Except Err Unit
  /-- `NormalizeJSON`. -/
  normalizeJSON : String → String
  /-- The SHA-256 of the spec's JSON text. -/
  specDigest : ScheduleTrigger → ScheduleTarget → ScheduleOverlapPolicy → ScheduleFailurePolicy →
    String
  /-- `clientpayload.Initial`: the value an update of nothing gives. -/
  initialPayload : Option ClientPayloadUpdate → Except Err (Option String)

/-- A library that knows no time zone but UTC and takes every text as it is. -/
def ScheduleLib.utc : ScheduleLib where
  location _ := .ok utcClock
  validateApplicationMetadata _ := .ok ()
  validatePayload _ _ := .ok ()
  normalizeJSON := id
  specDigest _ _ _ _ := ""
  initialPayload update := .ok (update.bind (·.value))

/-- `scheduleIDPattern` on one character. -/
def scheduleIDChar (c : Char) : Bool :=
  ('A' ≤ c && c ≤ 'Z') || ('a' ≤ c && c ≤ 'z') || ('0' ≤ c && c ≤ '9') || c = '_' || c = '-'

/-- `ScheduleKey.Validate`. -/
def ScheduleKey.validate (k : ScheduleKey) : Except Err Unit :=
  if k.tenantId = "" then .error (.invalid "tenantId is required")
  else if k.scheduleId = "" ∨ !k.scheduleId.toList.all scheduleIDChar then
    .error (.invalid "scheduleId must match [A-Za-z0-9_-]+")
  else .ok ()

/-- The trigger check of `ValidateScheduleRequest`. -/
def ScheduleTrigger.validate (t : ScheduleTrigger) : Except Err Unit :=
  match t.kind with
  | .cron => if blank t.expression then .error (.invalid "cron expression is required") else .ok ()
  | .interval =>
    if t.interval ≤ 0 then .error (.invalid "interval trigger requires a positive interval")
    else .ok ()
  | .other kind => .error (.invalid ("unsupported trigger kind \"" ++ kind ++ "\""))

/-- The overlap check of `ValidateScheduleRequest`. -/
def ScheduleOverlapPolicy.validate (p : ScheduleOverlapPolicy) : Except Err Unit :=
  match normalizeScheduleOverlapPolicy p with
  | .other policy => .error (.invalid ("unsupported overlap policy \"" ++ policy ++ "\""))
  | _ => .ok ()

/-- `ValidateScheduleRequest`. -/
def validateScheduleRequest (B : ScheduleLib) (req : UpsertScheduleRequest) : Except Err Unit := do
  req.key.validate
  if (validateIdentifier req.target.jobType).toOption.isNone then
    .error (.invalid "target jobType is required")
  if req.target.data.isNone then .error (.invalid "target data is required")
  B.validateApplicationMetadata req.target.metadata
  req.overlapPolicy.validate
  req.trigger.validate
  if req.failurePolicy.windowSize < 0 ∨ req.failurePolicy.minSuccessPercent < 0 ∨
      100 < req.failurePolicy.minSuccessPercent ∨ req.failurePolicy.maxSequentialFailures < 0 then
    .error (.invalid "invalid failure policy")

/-- `ScheduleSpecHash`. -/
def scheduleSpecHash (B : ScheduleLib) (trigger : ScheduleTrigger) (target : ScheduleTarget)
    (overlap : ScheduleOverlapPolicy) (failure : ScheduleFailurePolicy) : Except Err String := do
  let _ ← B.initialPayload target.clientPayloadUpdate
  .ok ("sha256:" ++ B.specDigest trigger { target with metadata := B.normalizeJSON target.metadata }
    (normalizeScheduleOverlapPolicy overlap) failure)

/-- `storedTargetFromSchedule`, `snapshotScheduleTarget`: the target with its input
read out and its update reduced to the value it gives. -/
def snapshotScheduleTarget (B : ScheduleLib) (t : ScheduleTarget) : Except Err ScheduleTarget := do
  let initial ← B.initialPayload t.clientPayloadUpdate
  .ok { t with
    clientPayloadUpdate := initial.map fun value => { mode := .reset, value := some value }
    metadata := B.normalizeJSON t.metadata }

end JobDB
