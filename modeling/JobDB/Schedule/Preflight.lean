import JobDB.Lib.Tx
import JobDB.Lib.Window
import JobDB.Runtime.Submit
import JobDB.Schedule.Trigger

/-!
# Schedule preflight

A worker is given the lease of a schedule's occurrence only after the runtime has looked
at the schedule: an occurrence that should not run is completed as cancelled, and one
that runs has its successor submitted first
(`sqlite/schedule_preflight.go`, `toyimpl/schedule_preflight.go`,
`core/runtime_schedule_preflight.go`).

The three runtimes have a copy of the preflight each. `preflightScheduleLease` is the
function they share; the points where the copies differ are the fields of `Variant`.

`preflightScheduleLease` says what is to be done, not how it went: a cancellation is a
call of `Complete` and an advance is a submission, and either may fail.
-/

namespace JobDB

/-! ## The failure policy -/

/-- `1` and `0` are the only outcomes. -/
def isFailureBit (c : Char) : Bool := c = '0' || c = '1'

def failureBit (success : Bool) : Char := if success then '1' else '0'

/-- `AppendScheduleFailureBit`. -/
def appendScheduleFailureBit (bits : String) (success : Bool) (windowSize : Int) : String :=
  let kept := if bits.toList.all isFailureBit then bits.toList else []
  let all := kept ++ [failureBit success]
  String.ofList
    (if 0 < windowSize ∧ windowSize < all.length then all.drop (all.length - windowSize.toNat)
    else all)

/-- Too many failures in a row. -/
def sequenceViolated (bits : List Char) (policy : ScheduleFailurePolicy) : Bool :=
  0 < policy.maxSequentialFailures && policy.maxSequentialFailures ≤ (run (· = '0') bits : Int)

/-- Too few successes among the outcomes. -/
def ratioViolated (bits : List Char) (policy : ScheduleFailurePolicy) : Bool :=
  let successes : Int := bits.count '1'
  let total : Int := bits.countP isFailureBit
  0 < policy.minSuccessPercent && 0 < total &&
    successes * 100 < policy.minSuccessPercent * total

/-- `ScheduleFailurePolicyViolated`. -/
def scheduleFailurePolicyViolated (bits : String) (policy : ScheduleFailurePolicy) : Bool :=
  bits ≠ "" && (sequenceViolated bits.toList policy || ratioViolated bits.toList policy)

/-! ## Occurrences -/

/-- An occurrence as `submitScheduledOccurrenceWithJobID` submits it. -/
structure ScheduledJob where
  key : JobKey
  schedule : ScheduleKey
  target : ScheduleTarget
  occurrence : ScheduleOccurrenceMetadata
  prerequisites : List JobPrerequisite
  availableAt : Time
deriving DecidableEq, Repr

/-- What the copies of the preflight do not agree on. -/
structure Variant where
  /-- The occurrences of a schedule that was paused for its cell's repo run. -/
  repoPauseRuns : Bool
  /-- An occurrence after the end of its trigger is cancelled. -/
  checksEnd : Bool
  /-- The window size written next to the outcomes. -/
  recordedWindow : ScheduleFailurePolicy → String → Int
  /-- The precision in which times are stored. -/
  precision : Time → Time
  /-- The run ID of the occurrence with a job ID. -/
  runID : String → Bool → Time → String

/-- The job before an occurrence, which has to end first. -/
def serialPrerequisites (policy : ScheduleOverlapPolicy) (previousJobID : String) :
    List JobPrerequisite :=
  if previousJobID ≠ "" ∧ policy = .serial then [⟨previousJobID, .complete⟩] else []

namespace Variant

variable (V : Variant)

/-- `submitScheduledOccurrenceWithJobID`: what it submits. -/
def occurrenceWithJobID (info : ScheduleInfo) (jobID : String) (scheduledAt : Time)
    (previousJobID failureBits : String) (manual : Bool) : ScheduledJob where
  key := ⟨info.key.tenantId, jobID⟩
  schedule := info.key
  target := info.target
  occurrence :=
    { scheduleId := info.key.scheduleId
      generation := info.generation
      specHash := info.specHash
      scheduledAt := V.precision scheduledAt
      runId := V.runID jobID manual (V.precision scheduledAt)
      manual := manual
      previousJobId := previousJobID
      failureHistory :=
        { bits := failureBits
          windowSize := V.recordedWindow info.failurePolicy failureBits } }
  prerequisites := serialPrerequisites info.overlapPolicy previousJobID
  availableAt := V.precision scheduledAt

/-- `submitScheduledOccurrence`: what it submits. -/
def occurrenceAt (info : ScheduleInfo) (scheduledAt : Time) (previousJobID failureBits : String) :
    ScheduledJob :=
  V.occurrenceWithJobID info
    (scheduleRunJobID info.key.scheduleId info.generation (V.precision scheduledAt))
    scheduledAt previousJobID failureBits false

end Variant

/-! ## The preflight -/

/-- `scheduleCancelDetail`; its `Kind` and `Status` are the same in every one. -/
structure ScheduleCancelDetail where
  reasonCode : String
  message : String
  scheduleId : String
  expectedGeneration : Int
  actualGeneration : Int
  expectedSpecHash : String
  actualSpecHash : String
  scheduledAt : Time
deriving DecidableEq, Repr

/-- `cancellationForOccurrence`. -/
def cancellationForOccurrence (occ : ScheduleOccurrenceMetadata) (reason message : String)
    (actualGeneration : Int) (actualSpecHash : String) : ScheduleCancelDetail where
  reasonCode := reason
  message := message
  scheduleId := occ.scheduleId
  expectedGeneration := occ.generation
  actualGeneration := actualGeneration
  expectedSpecHash := occ.specHash
  actualSpecHash := actualSpecHash
  scheduledAt := occ.scheduledAt

/-- What a preflight decides. -/
inductive PreflightOutcome where
  /-- The lease is handed out. -/
  | handOut
  /-- The occurrence is completed as cancelled and no lease is handed out. -/
  | cancel (detail : ScheduleCancelDetail)
  /-- The successor is submitted, then the lease is handed out. -/
  | advance (next : ScheduledJob)
deriving DecidableEq, Repr

/-- A leased job as the preflight sees it: `occurrence` is what
`ExtractScheduleOccurrenceMetadata` makes of its metadata. -/
structure LeasedJob where
  jobID : String
  occurrence : Except Err (Option ScheduleOccurrenceMetadata)
  chapterCount : Int

namespace Variant

variable (V : Variant) (B : ScheduleLib)

/-- The reason and the message with which the schedule's row turns an occurrence down. -/
def obstacle (info : ScheduleInfo) (occ : ScheduleOccurrenceMetadata) : Option (String × String) :=
  if info.state = .paused then some ("schedule_paused", "schedule paused before app start")
  else if info.state = .archived then
    some ("schedule_archived", "schedule archived before app start")
  else if info.generation ≠ occ.generation then
    some ("schedule_generation_mismatch", "schedule generation changed before app start")
  else if info.specHash ≠ occ.specHash then
    some ("schedule_spec_mismatch", "schedule spec changed before app start")
  else if V.checksEnd ∧ info.trigger.endAt.any (· < occ.scheduledAt) then
    some ("schedule_ended", "schedule ended before app start")
  else none

/-- The occurrence's own policy, or what its history says where there is none. -/
def preflightWindow (policy : ScheduleFailurePolicy) (history : ScheduleFailureHistory) : Int :=
  if policy.windowSize ≤ 0 then history.windowSize else policy.windowSize

/-- The outcomes with that of the occurrence before. -/
def preflightBits (previousSucceeded : String → Bool) (info : ScheduleInfo)
    (occ : ScheduleOccurrenceMetadata) : String :=
  if occ.previousJobId = "" then occ.failureHistory.bits
  else
    appendScheduleFailureBit occ.failureHistory.bits (previousSucceeded occ.previousJobId)
      (preflightWindow info.failurePolicy occ.failureHistory)

/-- The last step of the preflight: the successor, if the trigger fires again. -/
def advance (info : ScheduleInfo) (jobID bits : String) (now : Time) :
    Except Err PreflightOutcome := do
  let next ← nextScheduleFire B info.trigger now
  match next with
  | none => .ok .handOut
  | some t => .ok (.advance (V.occurrenceAt info t jobID bits))

/-- The preflight of an occurrence that has not started, with its schedule at hand. -/
def preflightOccurrence (previousSucceeded : String → Bool) (info : ScheduleInfo) (jobID : String)
    (occ : ScheduleOccurrenceMetadata) (now : Time) : Except Err PreflightOutcome :=
  if V.repoPauseRuns ∧ info.pauseReason = "cell_repo_mismatch" then .ok .handOut
  else
    match V.obstacle info occ with
    | some (reason, message) =>
      .ok (.cancel (cancellationForOccurrence occ reason message info.generation info.specHash))
    | none =>
      let bits := preflightBits previousSucceeded info occ
      if scheduleFailurePolicyViolated bits info.failurePolicy then
        .ok (.cancel (cancellationForOccurrence occ "failure_policy"
          "schedule failure policy blocked this occurrence" info.generation info.specHash))
      else V.advance B info jobID bits now

/-- `preflightScheduleLease`. -/
def preflightScheduleLease (schedule : String → Option ScheduleInfo)
    (previousSucceeded : String → Bool) (lease : LeasedJob) (now : Time) :
    Except Err PreflightOutcome := do
  match ← lease.occurrence with
  | none => .ok .handOut
  | some occ =>
    if 1 < lease.chapterCount then .ok .handOut
    else
      match schedule occ.scheduleId with
      | none =>
        .ok (.cancel (cancellationForOccurrence occ "schedule_missing"
          "schedule missing before app start" 0 ""))
      | some info => V.preflightOccurrence B previousSucceeded info lease.jobID occ now

end Variant

/-! ## The three runtimes -/

/-- The run ID that `MergeScheduleOccurrenceMetadata` puts in. -/
def mergedRunID (_jobID : String) (_manual : Bool) (scheduledAt : Time) : String :=
  scheduleRunID scheduledAt

/-- Without a configured window, the number of outcomes there are; each is one byte. -/
def windowOrLength (policy : ScheduleFailurePolicy) (bits : String) : Int :=
  if policy.windowSize ≤ 0 then bits.length else policy.windowSize

namespace Sqlite

/-- The SQLite runtime's preflight. -/
def variant : Variant where
  repoPauseRuns := true
  checksEnd := true
  recordedWindow := windowOrLength
  precision := id
  runID := mergedRunID

/-- `preflightScheduleLease` of the SQLite runtime: what it decides. -/
def preflightOutcome := variant.preflightScheduleLease

end Sqlite

namespace Toy

/-- The toy runtime's preflight, which does not look at the trigger's end. -/
def variant : Variant where
  repoPauseRuns := true
  checksEnd := false
  recordedWindow := windowOrLength
  precision := id
  runID := mergedRunID

/-- `preflightScheduleLease` of the toy runtime: what it decides. -/
def preflightOutcome := variant.preflightScheduleLease

end Toy

namespace Core

/-- The core runtime's preflight. -/
def variant : Variant where
  repoPauseRuns := false
  checksEnd := true
  recordedWindow policy _ := policy.windowSize
  precision := truncate 1000
  runID jobID manual scheduledAt := if manual then jobID else scheduleRunID scheduledAt

/-- `preflightScheduleLease` of the core runtime: what it decides. -/
def preflightOutcome := variant.preflightScheduleLease

end Core

/-- The runtimes that run schedules. -/
inductive Backend where
  | core
  | sqlite
  | toy
deriving DecidableEq, Repr

def Backend.variant : Backend → Variant
  | .core => Core.variant
  | .sqlite => Sqlite.variant
  | .toy => Toy.variant

/-! ## What the preflight depends on -/

namespace Variant

variable {V : Variant} {B : ScheduleLib} {schedule : String → Option ScheduleInfo}
  {previousSucceeded : String → Bool} {lease : LeasedJob} {occ : ScheduleOccurrenceMetadata}
  {info : ScheduleInfo} {jobID bits : String} {now : Time}

/-- A started occurrence is not looked at; an unstarted one is compared with its schedule. -/
theorem preflightScheduleLease_eq (ho : lease.occurrence = .ok (some occ))
    (hc : lease.chapterCount ≤ 1) (hs : schedule occ.scheduleId = some info) :
    V.preflightScheduleLease B schedule previousSucceeded lease now =
      V.preflightOccurrence B previousSucceeded info lease.jobID occ now := by
  unfold preflightScheduleLease
  rw [ho]
  show (if 1 < lease.chapterCount then _ else _) = _
  rw [if_neg (by omega)]
  simp only [hs]

/-- The last step cancels nothing. -/
theorem advance_eq_ok {outcome : PreflightOutcome}
    (h : V.advance B info jobID bits now = .ok outcome) :
    outcome = .handOut ∨ ∃ t, nextScheduleFire B info.trigger now = .ok (some t) ∧
      outcome = .advance (V.occurrenceAt info t jobID bits) := by
  obtain ⟨fire, hfire, h⟩ := bind_eq_ok.mp h
  cases fire with
  | none => exact .inl (Except.ok.inj h).symm
  | some t => exact .inr ⟨t, hfire, (Except.ok.inj h).symm⟩

/-- Only the last step submits. -/
theorem preflightOccurrence_eq_advance {next : ScheduledJob}
    (h : V.preflightOccurrence B previousSucceeded info jobID occ now = .ok (.advance next)) :
    V.obstacle info occ = none ∧ ∃ t, nextScheduleFire B info.trigger now = .ok (some t) ∧
      next = V.occurrenceAt info t jobID (preflightBits previousSucceeded info occ) := by
  unfold preflightOccurrence at h
  split at h
  · cases h
  split at h
  · cases h
  next hobs =>
    simp only at h
    split at h
    · cases h
    · obtain ⟨⟨⟩⟩ | ⟨t, hfire, ⟨⟩⟩ := advance_eq_ok h
      exact ⟨hobs, t, hfire, rfl⟩

/-- A successor is submitted under the schedule that the occurrence names, and not for an
occurrence that has started. -/
theorem preflightScheduleLease_eq_advance {next : ScheduledJob}
    (h : V.preflightScheduleLease B schedule previousSucceeded lease now = .ok (.advance next)) :
    ∃ occ info t bits, lease.occurrence = .ok (some occ) ∧ lease.chapterCount ≤ 1 ∧
      schedule occ.scheduleId = some info ∧ V.obstacle info occ = none ∧
      nextScheduleFire B info.trigger now = .ok (some t) ∧
      next = V.occurrenceAt info t lease.jobID bits := by
  unfold preflightScheduleLease at h
  obtain ⟨occurrence, hocc, h⟩ := bind_eq_ok.mp h
  split at h
  · cases h
  next occ =>
    split at h
    · cases h
    next hcount =>
      split at h
      · cases h
      next info hinfo =>
        obtain ⟨hobs, t, hfire, hnext⟩ := preflightOccurrence_eq_advance h
        exact ⟨occ, info, t, _, hocc, not_lt.1 hcount, hinfo, hobs, hfire, hnext⟩

theorem generation_of_obstacle (h : V.obstacle info occ = none) :
    info.generation = occ.generation := by
  unfold obstacle at h
  split at h
  · cases h
  split at h
  · cases h
  split at h
  · cases h
  next hsame => exact not_not.1 hsame

end Variant

end JobDB
