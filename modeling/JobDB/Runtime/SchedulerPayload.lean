import JobDB.Runtime.Types

/-!
# Scheduler payloads

What the scheduler keeps for a job, its run policy and the task it waits for, is stored as a
protobuf message (`pkg/internal/runtimecodec/codec.go`). A field of a message is set or not set.
`durationToProtoValue` leaves a duration of zero out, which is right for the intervals of the retry
policy, where absent and zero mean the same. The timeouts go through it as well: an explicit zero,
which turns a timeout off (`normalizeTimeout`), is read back as no timeout at all, and so as the
default.
-/

namespace JobDB

/-- `SchedulerPayload`. -/
structure SchedulerPayload where
  runPolicy : RunPolicy := {}
  taskWait : Option TaskWait := none
deriving DecidableEq, Repr

/-! ## Messages -/

/-- `durationpb.Duration`. -/
structure DurationMessage where
  seconds : Int
  nanos : Int
deriving DecidableEq, Repr

/-- `storagepb.RetryPolicy`. -/
structure RetryPolicyMessage where
  initialInterval : Option DurationMessage
  backoffCoefficient : Option Rat
  maximumInterval : Option DurationMessage
  maximumAttempts : Option Int
  nonRetryableErrorTypes : List String
deriving DecidableEq, Repr

/-- `storagepb.RunPolicy`. -/
structure RunPolicyMessage where
  retry : Option RetryPolicyMessage
  invocationTimeout : Option DurationMessage
  totalTimeout : Option DurationMessage
deriving DecidableEq, Repr

/-- `storagepb.TaskWait`. -/
structure TaskWaitMessage where
  inputStep : Option Int
  outputStep : Option Int
  next : Option String
  inputHash : Option String
deriving DecidableEq, Repr

/-- `storagepb.SchedulerPayload`. -/
structure SchedulerPayloadMessage where
  runPolicy : Option RunPolicyMessage := none
  taskWait : Option TaskWaitMessage := none
deriving DecidableEq, Repr

/-- `proto.Marshal` and `proto.Unmarshal`; no bytes are the message without fields. -/
structure Wire (Byte : Type) where
  marshal : SchedulerPayloadMessage → List Byte
  unmarshal : List Byte → Option SchedulerPayloadMessage
  unmarshal_marshal : ∀ m, unmarshal (marshal m) = some m
  unmarshal_nil : unmarshal [] = some {}

/-! ## Conversions -/

/-- `durationpb.New`. -/
def DurationMessage.new (d : Int) : DurationMessage := ⟨d.tdiv 1000000000, d.tmod 1000000000⟩

/-- `AsDuration`; what `New` makes of a duration does not overflow. -/
def DurationMessage.asDuration (m : DurationMessage) : Int := m.seconds * 1000000000 + m.nanos

def durationToProtoValue (value : Int) : Option DurationMessage :=
  if value = 0 then none else some (.new value)

def durationToProto (value : Option Int) : Option DurationMessage := value.bind durationToProtoValue

def durationFromProto (value : Option DurationMessage) : Option Int := value.map (·.asDuration)

def durationValueFromProto (value : Option DurationMessage) : Int :=
  (durationFromProto value).getD 0

def retryPolicyToProto (p : RetryPolicy) : RetryPolicyMessage where
  initialInterval := durationToProtoValue p.initialInterval
  backoffCoefficient := some p.backoffCoefficient
  maximumInterval := durationToProtoValue p.maximumInterval
  maximumAttempts := some p.maximumAttempts
  nonRetryableErrorTypes := p.nonRetryableErrorTypes

def retryPolicyFromProto : Option RetryPolicyMessage → RetryPolicy
  | none => {}
  | some m => {
      initialInterval := durationValueFromProto m.initialInterval
      backoffCoefficient := m.backoffCoefficient.getD 0
      maximumInterval := durationValueFromProto m.maximumInterval
      maximumAttempts := m.maximumAttempts.getD 0
      nonRetryableErrorTypes := m.nonRetryableErrorTypes }

def runPolicyToProto (p : RunPolicy) : RunPolicyMessage where
  retry := some (retryPolicyToProto p.retry)
  invocationTimeout := durationToProto p.invocationTimeout
  totalTimeout := durationToProto p.totalTimeout

def runPolicyFromProto : Option RunPolicyMessage → RunPolicy
  | none => {}
  | some m => {
      retry := retryPolicyFromProto m.retry
      invocationTimeout := durationFromProto m.invocationTimeout
      totalTimeout := durationFromProto m.totalTimeout }

def taskWaitToProto (w : TaskWait) : TaskWaitMessage where
  inputStep := some w.inputOrdinal
  outputStep := some w.outputOrdinal
  next := some w.resumeJobType
  inputHash := some w.inputHash

def taskWaitFromProto (m : TaskWaitMessage) : TaskWait where
  inputOrdinal := m.inputStep.getD 0
  outputOrdinal := m.outputStep.getD 0
  resumeJobType := m.next.getD ""
  inputHash := m.inputHash.getD ""

section Payload

variable {Byte : Type} [DecidableEq Byte] (W : Wire Byte)

def encodeSchedulerPayload (p : SchedulerPayload) : List Byte :=
  W.marshal
    { runPolicy := some (runPolicyToProto p.runPolicy), taskWait := p.taskWait.map taskWaitToProto }

def decodeSchedulerPayload (raw : List Byte) : Option SchedulerPayload :=
  if raw = [] then some {}
  else (W.unmarshal raw).map fun m =>
    { runPolicy := runPolicyFromProto m.runPolicy, taskWait := m.taskWait.map taskWaitFromProto }

end Payload

/-! ## The round trip -/

theorem DurationMessage.asDuration_new (d : Int) : (DurationMessage.new d).asDuration = d :=
  Int.tdiv_mul_add_tmod d 1000000000

theorem durationValueFromProto_durationToProtoValue (d : Int) :
    durationValueFromProto (durationToProtoValue d) = d := by
  unfold durationToProtoValue
  split
  · next h => exact h.symm
  · exact DurationMessage.asDuration_new d

theorem durationFromProto_durationToProto_iff (d : Option Int) :
    durationFromProto (durationToProto d) = d ↔ d ≠ some 0 := by
  cases d with
  | none => simp [durationToProto, durationFromProto]
  | some d =>
    by_cases h : d = 0 <;>
      simp [durationToProto, durationToProtoValue, durationFromProto, h,
        DurationMessage.asDuration_new]

theorem retryPolicyFromProto_retryPolicyToProto (p : RetryPolicy) :
    retryPolicyFromProto (some (retryPolicyToProto p)) = p := by
  simp [retryPolicyFromProto, retryPolicyToProto, durationValueFromProto_durationToProtoValue]

/-- **A scheduler payload is read back as it was written** exactly if neither timeout is an explicit
zero. -/
theorem scheduler_payload_survives_iff {Byte : Type} [DecidableEq Byte] (W : Wire Byte)
    (p : SchedulerPayload) :
    decodeSchedulerPayload W (encodeSchedulerPayload W p) = some p ↔
      p.runPolicy.invocationTimeout ≠ some 0 ∧ p.runPolicy.totalTimeout ≠ some 0 := by
  have hne : encodeSchedulerPayload W p ≠ [] := by
    intro h
    have hempty := W.unmarshal_marshal _ ▸ congrArg W.unmarshal h
    rw [W.unmarshal_nil] at hempty
    cases hempty
  have hwait (w : TaskWait) : taskWaitFromProto (taskWaitToProto w) = w := rfl
  unfold decodeSchedulerPayload
  rw [if_neg hne, encodeSchedulerPayload, W.unmarshal_marshal]
  rw [← durationFromProto_durationToProto_iff, ← durationFromProto_durationToProto_iff]
  obtain ⟨⟨total, invocation, retry⟩, wait⟩ := p
  simp [runPolicyFromProto, runPolicyToProto, retryPolicyFromProto_retryPolicyToProto,
    Function.comp_def, hwait, and_comm]

/-- A message is its own text. -/
def Wire.plain : Wire SchedulerPayloadMessage where
  marshal m := [m]
  unmarshal raw := some (raw.headD {})
  unmarshal_marshal _ := rfl
  unmarshal_nil := rfl

/-- The timeout that was turned off is the default again. -/
theorem scheduler_payload_disabled_timeout :
    decodeSchedulerPayload .plain (encodeSchedulerPayload .plain
        { runPolicy := { totalTimeout := some 0 } }) =
      some { runPolicy := { totalTimeout := none } } := by
  decide

end JobDB
