import JobDB.Core.Runtime
import JobDB.Schedule.Preflight

/-!
# What the failure policy sees

The outcomes of a schedule's occurrences travel with them: each occurrence carries those
of the occurrences before its predecessor, and its preflight adds the predecessor's own.
`Chain` is this chain of occurrences, each submitted by the preflight of the one before,
and `Chain.bits` says which outcomes are left of it when the next preflight looks: the
recent ones, as many as `Backend.bound` allows.

The bound is the configured window. Where none is configured, the core runtime keeps
every outcome, while the SQLite and the toy runtimes write the number of outcomes they
have next to them and cut the following history to it; this number is never more than
one. So a limit on failures in a row is reached exactly when it fits the bound, or when
a success ratio is required as well, which any window of failures violates.
-/

namespace JobDB

/-! ## How an occurrence ended -/

/-- How a job ended: its worker completed it with a status, it was cancelled or deleted, or
it was failed because a payload was too large. -/
inductive Ending where
  | completed (status : String)
  | cancelled
  | payloadFailed
deriving DecidableEq, Repr

/-- The job ended with success. -/
def Ending.succeeded : Ending → Bool
  | .completed status => completionStatusFromRequest status = "success"
  | _ => false

namespace Sqlite

/-- The `completion_status` of an ended job. -/
def completionStatus : Ending → String
  | .completed status => completionStatusFromRequest status
  | .cancelled => "cancelled"
  | .payloadFailed => "failed_app"

/-- `previousJobSucceeded`, of a job that has ended. -/
def previousJobSucceeded (e : Ending) : Bool := completionStatus e = "success"

end Sqlite

namespace Toy

/-- The flag `cancelled` of an ended job; its status is `JobStatusCancelled` where it is set and
`JobStatusCompleted` where it is not. -/
def cancelledFlag : Ending → Bool
  | .completed status => status = "cancelled"
  | .cancelled => true
  | .payloadFailed => false

/-- `previousJobSucceeded`, of a job that has ended. -/
def previousJobSucceeded (e : Ending) : Bool := !cancelledFlag e

end Toy

namespace Core

/-- `Completion.Status` of an ended job. -/
def endStatus : Ending → Except Err String
  | .completed status => completionStatus status
  | .cancelled => .ok "cancelled"
  | .payloadFailed => .ok "failed_app"

/-- How the preflight reads the completion of the job before. -/
def previousJobSucceeded (e : Ending) : Bool :=
  match endStatus e with
  | .ok status => status = "success"
  | .error _ => false

end Core

/-- How the runtime reads an ended job. -/
def Backend.previousJobSucceeded : Backend → Ending → Bool
  | .core => Core.previousJobSucceeded
  | .sqlite => Sqlite.previousJobSucceeded
  | .toy => Toy.previousJobSucceeded

/-- The endings that the runtime reads as they are. -/
def Backend.Faithful (b : Backend) (es : List Ending) : Prop :=
  ∀ e ∈ es, b.previousJobSucceeded e = e.succeeded

theorem Sqlite.previousJobSucceeded_eq (e : Ending) :
    Sqlite.previousJobSucceeded e = e.succeeded := by
  cases e <;> rfl

theorem Core.previousJobSucceeded_eq (e : Ending) : Core.previousJobSucceeded e = e.succeeded := by
  cases e with
  | completed status =>
    unfold previousJobSucceeded Ending.succeeded
    by_cases hs : status ∈ ["", "success", "succeeded"]
    · have hcore : endStatus (.completed status) = .ok "success" := if_pos hs
      have hreq : completionStatusFromRequest status = "success" := if_pos (by simpa using hs)
      simp only [hcore, hreq]
    · have hne : status ≠ "success" := fun h => hs (by simp [h])
      have hreq : completionStatusFromRequest status = status := if_neg (by simpa using hs)
      simp only [hreq]
      split
      next final h =>
        have hcore : completionStatus status = .ok final := h
        unfold completionStatus at hcore
        rw [if_neg hs] at hcore
        split at hcore
        · cases hcore
          rfl
        · cases hcore
      · simp [hne]
  | cancelled => rfl
  | payloadFailed => rfl

/-! ## Chains of occurrences -/

section Chains

variable (b : Backend) (B : ScheduleLib) (info : ScheduleInfo)

/-- A reading of the jobs that shows the predecessor of `occ`, whose ending is the last. -/
def Backend.Shows (es : List Ending) (occ : ScheduleOccurrenceMetadata)
    (previousSucceeded : String → Bool) : Prop :=
  ∀ e ∈ es.getLast?, previousSucceeded occ.previousJobId = b.previousJobSucceeded e

/-- The occurrence `jobID` of one generation of a schedule, when those before it in its chain
ended as `es` says, the oldest first. -/
inductive Chain : List Ending → String → ScheduleOccurrenceMetadata → Prop where
  | first (jobID : String) (scheduledAt : Time) (manual : Bool) (hid : jobID ≠ "") :
      Chain [] jobID (b.variant.occurrenceWithJobID info jobID scheduledAt "" "" manual).occurrence
  | next {es : List Ending} {jobID : String} {occ : ScheduleOccurrenceMetadata} (e : Ending)
      (previousSucceeded : String → Bool) (now : Time) (next : ScheduledJob)
      (chain : Chain es jobID occ) (shows : b.Shows es occ previousSucceeded)
      (advance : b.variant.preflightOccurrence B previousSucceeded info jobID occ now =
        .ok (.advance next)) :
      Chain (es ++ [e]) next.key.jobId next.occurrence

/-- The outcomes as the runtime writes them. -/
def Backend.outcomes (es : List Ending) : List Char :=
  es.map fun e => failureBit (b.previousJobSucceeded e)

/-- How many outcomes are kept. -/
def Backend.bound (policy : ScheduleFailurePolicy) : Option Nat :=
  if 0 < policy.windowSize then some policy.windowSize.toNat
  else if b = .core then none
  else some 1

end Chains

/-! ## What is left of the outcomes -/

section Bits

variable {b : Backend} {B : ScheduleLib} {info : ScheduleInfo} {es : List Ending} {jobID : String}
  {occ : ScheduleOccurrenceMetadata} {previousSucceeded : String → Bool}
  {policy : ScheduleFailurePolicy}

theorem isFailureBit_of_mem_recent {bound : Option Nat} {c : Char}
    (h : c ∈ recent bound (b.outcomes es)) : isFailureBit c = true := by
  obtain ⟨e, -, rfl⟩ := List.mem_map.1 (mem_of_mem_recent h)
  cases b.previousJobSucceeded e <;> rfl

theorem outcomes_concat (e : Ending) :
    b.outcomes (es ++ [e]) = b.outcomes es ++ [failureBit (b.previousJobSucceeded e)] := by
  unfold Backend.outcomes
  rw [List.map_append]
  rfl

/-- An outcome is added to well-formed ones, and the whole is cut to the window. -/
theorem appendScheduleFailureBit_toList {bits : String} (hb : bits.toList.all isFailureBit = true)
    (success : Bool) (windowSize : Int) :
    (appendScheduleFailureBit bits success windowSize).toList =
      recent (if 0 < windowSize then some windowSize.toNat else none)
        (bits.toList ++ [failureBit success]) := by
  unfold appendScheduleFailureBit
  simp only [hb, if_true, String.toList_ofList]
  by_cases hw : 0 < windowSize
  · rw [if_pos hw, recent_some]
    split
    · rfl
    next h =>
      rw [rtake_of_length_le]
      omega
  · rw [if_neg hw, if_neg (fun h => hw h.1), recent_none]

theorem bound_of_window (hw : 0 < policy.windowSize) :
    b.bound policy = some policy.windowSize.toNat := if_pos hw

theorem bound_of_unset (hw : ¬ 0 < policy.windowSize) :
    b.bound policy = if b = .core then none else some 1 := if_neg hw

/-- The SQLite and the toy runtimes write down how many outcomes there are. -/
theorem recordedWindow_of_unset (hb : b ≠ .core) (hw : ¬ 0 < policy.windowSize) (bits : String) :
    b.variant.recordedWindow policy bits = bits.length := by
  cases b with
  | core => exact absurd rfl hb
  | sqlite | toy => exact if_pos (by omega)

/-- The window that the preflight cuts to gives the bound. -/
theorem preflightWindow_bound {bits : String} {history : ScheduleFailureHistory}
    (hbits : bits.toList = recent (b.bound policy) (b.outcomes es))
    (hwin : history.windowSize = b.variant.recordedWindow policy bits) (c : Char) :
    recent
        (if 0 < Variant.preflightWindow policy history then
          some (Variant.preflightWindow policy history).toNat else none) (bits.toList ++ [c]) =
      recent (b.bound policy) (bits.toList ++ [c]) := by
  by_cases hw : 0 < policy.windowSize
  · have hpre : Variant.preflightWindow policy history = policy.windowSize := if_neg (by omega)
    rw [hpre, if_pos hw, bound_of_window hw]
  have hpre : Variant.preflightWindow policy history = history.windowSize := if_pos (by omega)
  rw [hpre, hwin]
  rw [bound_of_unset hw] at hbits ⊢
  by_cases hb : b = .core
  · subst hb
    rw [if_pos rfl]
    exact congrArg (recent · _) (if_neg hw)
  · -- the window written down is the number of outcomes, which is at most one
    rw [recordedWindow_of_unset hb hw]
    rw [if_neg hb] at hbits ⊢
    have hlen : bits.toList.length = bits.length := String.length_toList
    have hle : bits.length ≤ 1 := by
      rw [← hlen, hbits, recent_some, length_rtake]
      exact Nat.min_le_left ..
    obtain hz | hone : bits.length = 0 ∨ bits.length = 1 := by omega
    · rw [hz, if_neg (by simp), recent_none, recent_some, rtake_of_length_le]
      rw [List.length_append, hlen, hz]
      rfl
    · rw [hone]
      rfl

/-- The outcomes an occurrence carries: none for the first, and for a later one those of the
occurrences before its predecessor. -/
structure Carries (b : Backend) (policy : ScheduleFailurePolicy) (es : List Ending)
    (occ : ScheduleOccurrenceMetadata) : Prop where
  previous : occ.previousJobId = "" ↔ es = []
  bits : occ.failureHistory.bits.toList = recent (b.bound policy) (b.outcomes es.dropLast)
  window : occ.failureHistory.windowSize =
    b.variant.recordedWindow policy occ.failureHistory.bits

/-- What the preflight makes of the outcomes carried. -/
theorem Carries.preflightBits (h : Carries b info.failurePolicy es occ)
    (hshow : b.Shows es occ previousSucceeded) :
    (Variant.preflightBits previousSucceeded info occ).toList =
      recent (b.bound info.failurePolicy) (b.outcomes es) := by
  unfold Variant.preflightBits
  obtain rfl | ⟨init, e, rfl⟩ := es.eq_nil_or_concat'
  · rw [if_pos (h.previous.2 rfl), h.bits]
    rfl
  · have hne : occ.previousJobId ≠ "" := fun hp =>
      List.concat_ne_nil e init (h.previous.1 hp)
    have hsucc : previousSucceeded occ.previousJobId = b.previousJobSucceeded e :=
      hshow e (by simp)
    have hbits := h.bits
    rw [List.dropLast_concat] at hbits
    rw [if_neg hne, hsucc, appendScheduleFailureBit_toList, preflightWindow_bound hbits h.window,
      hbits, recent_concat, outcomes_concat]
    rw [hbits, List.all_eq_true]
    intro c hc
    exact isFailureBit_of_mem_recent hc

theorem Chain.jobID_ne_empty (h : Chain b B info es jobID occ) : jobID ≠ "" := by
  cases h with
  | first _ _ _ hid => exact hid
  | next e prev now next chain shows advance =>
    obtain ⟨-, t, -, rfl⟩ := Variant.preflightOccurrence_eq_advance advance
    exact scheduleRunJobID_ne_empty _ _ _

/-- Every occurrence of a chain carries the outcomes so far. -/
theorem Chain.carries (h : Chain b B info es jobID occ) : Carries b info.failurePolicy es occ := by
  induction h with
  | first jobID scheduledAt manual hid =>
    refine ⟨⟨fun _ => rfl, fun _ => rfl⟩, ?_, rfl⟩
    exact (recent_nil _).symm
  | next e prev now next chain shows advance ih =>
    obtain ⟨-, t, -, rfl⟩ := Variant.preflightOccurrence_eq_advance advance
    refine ⟨⟨fun hp => absurd hp chain.jobID_ne_empty, fun hp =>
      absurd hp (List.concat_ne_nil e _)⟩, ?_, rfl⟩
    rw [List.dropLast_concat]
    exact ih.preflightBits shows

/-- The outcomes that the preflight of an occurrence looks at. -/
theorem Chain.bits (h : Chain b B info es jobID occ) (hshow : b.Shows es occ previousSucceeded) :
    (Variant.preflightBits previousSucceeded info occ).toList =
      recent (b.bound info.failurePolicy) (b.outcomes es) :=
  h.carries.preflightBits hshow

/-- Every occurrence of a chain is of the schedule's generation and spec. -/
theorem Chain.spec (h : Chain b B info es jobID occ) :
    occ.generation = info.generation ∧ occ.specHash = info.specHash := by
  cases h with
  | first => exact ⟨rfl, rfl⟩
  | next e prev now next chain shows advance =>
    obtain ⟨-, t, -, rfl⟩ := Variant.preflightOccurrence_eq_advance advance
    exact ⟨rfl, rfl⟩

end Bits

/-! ## When the policy blocks an occurrence -/

/-- The preflight gets as far as the failure policy. -/
def Backend.Evaluates (b : Backend) (info : ScheduleInfo) (occ : ScheduleOccurrenceMetadata) :
    Prop :=
  ¬ (b.variant.repoPauseRuns ∧ info.pauseReason = "cell_repo_mismatch") ∧
    b.variant.obstacle info occ = none

/-- The occurrence is cancelled for the failure policy. -/
def BlockedByPolicy (outcome : Except Err PreflightOutcome) : Prop :=
  ∃ detail, outcome = .ok (.cancel detail) ∧ detail.reasonCode = "failure_policy"

/-- The last `k` occurrences all ended without success. -/
def LastUnsuccessful (k : Int) (es : List Ending) : Prop :=
  k ≤ es.length ∧ ∀ e ∈ es.rtake k.toNat, e.succeeded = false

/-- After the endings that `admitted` lets through, an occurrence is blocked exactly when the last
`maxSequentialFailures` occurrences ended without success or the recorded outcomes violate
the success ratio. -/
def Backend.PolicyExact (b : Backend) (B : ScheduleLib) (policy : ScheduleFailurePolicy)
    (admitted : List Ending → Prop) : Prop :=
  ∀ info : ScheduleInfo, info.failurePolicy = policy →
    ∀ es jobID occ, Chain b B info es jobID occ → admitted es →
      ∀ previousSucceeded now, b.Shows es occ previousSucceeded → b.Evaluates info occ →
        (BlockedByPolicy
            (b.variant.preflightOccurrence B previousSucceeded info jobID occ now) ↔
          LastUnsuccessful policy.maxSequentialFailures es ∨
            ratioViolated (Variant.preflightBits previousSucceeded info occ).toList policy = true)

/-- The policies whose limit on failures in a row the runtime can see reached. -/
def Backend.Covers (b : Backend) (policy : ScheduleFailurePolicy) : Prop :=
  policy.maxSequentialFailures ≤ policy.windowSize ∨ 0 < policy.minSuccessPercent ∨
    (policy.windowSize ≤ 0 ∧ (b = .core ∨ policy.maxSequentialFailures = 1))

section Exact

variable {b : Backend} {B : ScheduleLib} {info : ScheduleInfo} {es : List Ending} {jobID : String}
  {occ : ScheduleOccurrenceMetadata} {previousSucceeded : String → Bool} {now : Time}
  {policy : ScheduleFailurePolicy}

theorem scheduleFailurePolicyViolated_iff (bits : String) :
    scheduleFailurePolicyViolated bits policy = true ↔
      sequenceViolated bits.toList policy = true ∨ ratioViolated bits.toList policy = true := by
  unfold scheduleFailurePolicyViolated
  by_cases hb : bits = ""
  · subst hb
    unfold sequenceViolated ratioViolated run
    simp
  · simp [hb]

theorem blocked_iff (he : b.Evaluates info occ) :
    BlockedByPolicy (b.variant.preflightOccurrence B previousSucceeded info jobID occ now) ↔
      scheduleFailurePolicyViolated (Variant.preflightBits previousSucceeded info occ)
        info.failurePolicy = true := by
  unfold BlockedByPolicy Variant.preflightOccurrence
  simp only [if_neg he.1, he.2]
  by_cases hv : scheduleFailurePolicyViolated (Variant.preflightBits previousSucceeded info occ)
      info.failurePolicy = true
  · simp only [hv, if_true, iff_true]
    exact ⟨_, rfl, rfl⟩
  · rw [if_neg hv]
    refine iff_of_false ?_ hv
    rintro ⟨detail, h, -⟩
    obtain ⟨⟨⟩⟩ | ⟨_, -, ⟨⟩⟩ := Variant.advance_eq_ok h

theorem lastUnsuccessful_iff {k : Int} (hk : 0 < k) :
    LastUnsuccessful k es ↔ k.toNat ≤ run (fun e => !e.succeeded) es := by
  unfold LastUnsuccessful
  rw [le_run_iff]
  refine and_congr (by omega) ?_
  simp

/-- The failures in a row among the outcomes that are faithful. -/
theorem run_outcomes (hf : b.Faithful es) :
    run (· = '0') (b.outcomes es) = run (fun e => !e.succeeded) es := by
  unfold Backend.outcomes
  have hmap : es.map (fun e => failureBit (b.previousJobSucceeded e)) =
      es.map fun e => failureBit e.succeeded :=
    List.map_congr_left fun e he => by rw [hf e he]
  rw [hmap, run_map]
  congr 1
  funext e
  cases h : e.succeeded <;> simp [failureBit, h]

/-- A window of failures violates every success ratio. -/
theorem ratioViolated_of_failures {bits : List Char} (hp : 0 < policy.minSuccessPercent)
    (hne : bits ≠ []) (h : ∀ c ∈ bits, c = '0') : ratioViolated bits policy = true := by
  have hcount : bits.count '1' = 0 := List.count_eq_zero.2 fun hm => by
    cases h _ hm
  have htotal : bits.countP isFailureBit = bits.length :=
    List.countP_eq_length.2 fun c hc => by
      rw [h c hc]
      rfl
  have hlen : 0 < (bits.length : Int) := by
    have := List.length_pos_iff.2 hne
    omega
  unfold ratioViolated
  simp only [hcount, htotal, Bool.and_eq_true, decide_eq_true_eq]
  refine ⟨⟨hp, hlen⟩, ?_⟩
  have := Int.mul_pos hp hlen
  omega

/-- A window of successes violates none. -/
theorem ratioViolated_of_successes {bits : List Char} (hp : policy.minSuccessPercent ≤ 100)
    (h : ∀ c ∈ bits, c = '1') : ratioViolated bits policy = false := by
  have hcount : bits.count '1' = bits.length := List.count_eq_length.2 fun c hc => (h c hc).symm
  have htotal : bits.countP isFailureBit = bits.length :=
    List.countP_eq_length.2 fun c hc => by
      rw [h c hc]
      rfl
  have hle : policy.minSuccessPercent * (bits.length : Int) ≤ 100 * bits.length :=
    Int.mul_le_mul_of_nonneg_right hp (by omega)
  unfold ratioViolated
  simp only [hcount, htotal, Bool.and_eq_false_iff, decide_eq_false_iff_not]
  right
  omega

theorem sequenceViolated_iff {bits : List Char} (hk : 0 < policy.maxSequentialFailures) :
    sequenceViolated bits policy = true ↔
      policy.maxSequentialFailures.toNat ≤ run (· = '0') bits := by
  unfold sequenceViolated
  simp only [Bool.and_eq_true, decide_eq_true_eq]
  omega

/-- The limit is covered if it fits the bound or a ratio is required. -/
theorem covers_iff (hk : 0 < policy.maxSequentialFailures) :
    b.Covers policy ↔ 0 < policy.minSuccessPercent ∨
      ∀ n, b.bound policy = some n → policy.maxSequentialFailures.toNat ≤ n := by
  unfold Backend.Covers
  by_cases hw : 0 < policy.windowSize
  · rw [bound_of_window hw]
    constructor
    · rintro (h | h | h)
      · right
        rintro n ⟨⟩
        omega
      · exact .inl h
      · omega
    · rintro (h | h)
      · exact .inr (.inl h)
      · have := h _ rfl
        left
        omega
  · rw [bound_of_unset hw]
    by_cases hb : b = .core
    · rw [if_pos hb]
      refine iff_of_true (.inr (.inr ⟨by omega, .inl hb⟩)) (.inr ?_)
      rintro n ⟨⟩
    · rw [if_neg hb]
      constructor
      · rintro (h | h | ⟨-, h | h⟩)
        · omega
        · exact .inl h
        · exact absurd h hb
        · right
          rintro n ⟨⟩
          omega
      · rintro (h | h)
        · exact .inr (.inl h)
        · have := h _ rfl
          exact .inr (.inr ⟨by omega, .inr (by omega)⟩)

theorem bound_ne_zero : b.bound policy ≠ some 0 := by
  unfold Backend.bound
  split
  next hw =>
    intro h
    have := Option.some.inj h
    omega
  · split <;> simp

/-- With a limit that is covered, the recent outcomes tell what all of them tell. -/
theorem violated_recent_iff (hk : 0 < policy.maxSequentialFailures) (hc : b.Covers policy)
    (hf : b.Faithful es) :
    (sequenceViolated (recent (b.bound policy) (b.outcomes es)) policy = true ∨
        ratioViolated (recent (b.bound policy) (b.outcomes es)) policy = true) ↔
      LastUnsuccessful policy.maxSequentialFailures es ∨
        ratioViolated (recent (b.bound policy) (b.outcomes es)) policy = true := by
  rw [lastUnsuccessful_iff hk, sequenceViolated_iff hk, ← run_outcomes hf]
  obtain hp | hfit := (covers_iff hk).1 hc
  · constructor
    · exact Or.imp_left fun h => Nat.le_trans h (run_recent_le ..)
    · rintro (h | h)
      · by_cases hfit : ∀ n, b.bound policy = some n → policy.maxSequentialFailures.toNat ≤ n
        · exact .inl ((le_run_recent hfit _).2 h)
        · -- the failures in a row are more than the window holds, so it holds nothing else
          simp only [not_forall, not_le] at hfit
          obtain ⟨n, hn, hlt⟩ := hfit
          right
          refine ratioViolated_of_failures hp ?_ ?_
          · obtain ⟨init, e, rfl⟩ : ∃ init e, es = init ++ [e] := by
              obtain rfl | hcons := es.eq_nil_or_concat'
              · have := run_le_length (· = '0') (b.outcomes [])
                simp only [Backend.outcomes, List.map_nil, List.length_nil] at h this
                omega
              · exact hcons
            rw [outcomes_concat]
            exact recent_concat_ne_nil bound_ne_zero _ _
          · rw [hn]
            intro c hc
            simpa using recent_of_le_run hlt.le h c hc
      · exact .inr h
  · rw [le_run_recent hfit]

/-- A policy that is covered is kept. -/
theorem policyExact_of_covers (hk : 0 < policy.maxSequentialFailures) (hc : b.Covers policy) :
    b.PolicyExact B policy b.Faithful := by
  rintro info rfl es jobID occ hchain hf previousSucceeded now hshow he
  rw [blocked_iff he, scheduleFailurePolicyViolated_iff, hchain.bits hshow]
  exact violated_recent_iff hk hc hf

/-! ### The policies that are not covered -/

/-- A schedule that fires every second and never ends. -/
def everySecond (policy : ScheduleFailurePolicy) : ScheduleInfo where
  key := ⟨"tenant", "backup"⟩
  state := .active
  generation := 1
  specHash := "sha256:"
  trigger := { kind := .interval, interval := 1000000000 }
  target := { cell := "cell", jobType := "job", data := some { data := "" } }
  overlapPolicy := .serial
  failurePolicy := policy
  nextFireAt := none
  nextJobID := none
  createdAt := 0
  updatedAt := 0

theorem everySecond_evaluates (h : Chain b B (everySecond policy) es jobID occ) :
    b.Evaluates (everySecond policy) occ := by
  refine ⟨fun hp => absurd hp.2 (by decide : "" ≠ "cell_repo_mismatch"), ?_⟩
  unfold Variant.obstacle
  rw [if_neg (by simp [everySecond]), if_neg (by simp [everySecond]), if_neg (by simp [h.spec.1]),
    if_neg (by simp [h.spec.2]), if_neg (by simp [everySecond])]

/-- As long as the outcomes do not violate the policy, the schedule goes on. -/
theorem everySecond_advance (h : Chain b B (everySecond policy) es jobID occ)
    (hshow : b.Shows es occ previousSucceeded)
    (hseq : sequenceViolated (recent (b.bound policy) (b.outcomes es)) policy = false)
    (hratio : ratioViolated (recent (b.bound policy) (b.outcomes es)) policy = false) (now : Time) :
    ∃ next, b.variant.preflightOccurrence B previousSucceeded (everySecond policy) jobID occ now =
      .ok (.advance next) := by
  obtain ⟨hrepo, hobs⟩ := everySecond_evaluates h
  have hv : ¬ scheduleFailurePolicyViolated
      (Variant.preflightBits previousSucceeded (everySecond policy) occ)
      (everySecond policy).failurePolicy = true := by
    rw [scheduleFailurePolicyViolated_iff, h.bits hshow]
    rintro (hc | hc)
    · exact Bool.false_ne_true (hseq.symm.trans hc)
    · exact Bool.false_ne_true (hratio.symm.trans hc)
  unfold Variant.preflightOccurrence
  simp only [if_neg hrepo, hobs]
  rw [if_neg hv]
  exact ⟨_, rfl⟩

theorem shows_replicate (n : Nat) (e : Ending) (occ : ScheduleOccurrenceMetadata) :
    b.Shows (List.replicate n e) occ fun _ => b.previousJobSucceeded e := by
  intro e' he'
  rw [List.eq_of_mem_replicate (List.mem_of_getLast? he')]

section Unsuccessful

variable (e : Ending)
  (hseq : ∀ n, sequenceViolated (recent (b.bound policy) (b.outcomes (List.replicate n e)))
    policy = false)
  (hratio : ∀ n, ratioViolated (recent (b.bound policy) (b.outcomes (List.replicate n e)))
    policy = false)
include hseq hratio

/-- A schedule whose occurrences all end as `e`, for as long as it goes on. -/
theorem everySecond_chain (n : Nat) :
    ∃ jobID occ, Chain b B (everySecond policy) (List.replicate n e) jobID occ := by
  induction n with
  | zero => exact ⟨_, _, .first "first" 0 false (by decide)⟩
  | succ n ih =>
    obtain ⟨jobID, occ, h⟩ := ih
    have hshow := @shows_replicate b n e occ
    obtain ⟨next, hnext⟩ := everySecond_advance h hshow (hseq n) (hratio n) 0
    rw [List.replicate_succ']
    exact ⟨_, _, .next e _ 0 next h hshow hnext⟩

/-- Endings that never violate the policy, yet are all without success, are not blocked when they
should be. -/
theorem not_policyExact_of_unsuccessful {admitted : List Ending → Prop}
    (hk : 0 < policy.maxSequentialFailures) (he : e.succeeded = false)
    (hadm : ∀ n, admitted (List.replicate n e)) : ¬ b.PolicyExact B policy admitted := by
  intro hexact
  obtain ⟨jobID, occ, h⟩ :=
    everySecond_chain (B := B) e hseq hratio policy.maxSequentialFailures.toNat
  have hshow := @shows_replicate b policy.maxSequentialFailures.toNat e occ
  have hlast : LastUnsuccessful policy.maxSequentialFailures
      (List.replicate policy.maxSequentialFailures.toNat e) := by
    refine ⟨by rw [List.length_replicate]; omega, fun e' he' => ?_⟩
    rw [List.eq_of_mem_replicate (List.mem_of_mem_drop he'), he]
  obtain ⟨detail, hblocked, -⟩ := (hexact (everySecond policy) rfl _ jobID occ h (hadm _) _ 0 hshow
    (everySecond_evaluates h)).2 (.inl hlast)
  obtain ⟨next, hnext⟩ := everySecond_advance h hshow (hseq _) (hratio _) 0
  rw [hnext] at hblocked
  cases hblocked

end Unsuccessful

/-- A window that is too small for the limit never shows it reached. -/
theorem not_policyExact_of_not_covers (hk : 0 < policy.maxSequentialFailures)
    (hc : ¬ b.Covers policy) : ¬ b.PolicyExact B policy b.Faithful := by
  rw [covers_iff hk] at hc
  simp only [not_or, not_forall, not_le] at hc
  obtain ⟨hp, n, hn, hlt⟩ := hc
  refine not_policyExact_of_unsuccessful .cancelled (fun m => ?_) (fun m => ?_) hk rfl ?_
  · rw [Bool.eq_false_iff, ne_eq, sequenceViolated_iff hk, hn]
    have := run_le_length (· = '0') (recent (some n) (b.outcomes (List.replicate m .cancelled)))
    rw [recent_some, length_rtake] at this
    rw [recent_some]
    omega
  · unfold ratioViolated
    simp [hp]
  · intro m e he
    rw [List.eq_of_mem_replicate he]
    cases b <;> rfl

/-- The toy runtime takes a failed occurrence for a success. -/
theorem not_policyExact_toy (hk : 0 < policy.maxSequentialFailures)
    (hp : policy.minSuccessPercent ≤ 100) :
    ¬ Backend.toy.PolicyExact B policy fun _ => True := by
  have hones (n : Nat) : ∀ c ∈ recent (Backend.toy.bound policy)
      (Backend.toy.outcomes (List.replicate n .payloadFailed)), c = '1' := by
    intro c hc
    obtain ⟨e, he, rfl⟩ := List.mem_map.1 (mem_of_mem_recent hc)
    rw [List.eq_of_mem_replicate he]
    rfl
  refine not_policyExact_of_unsuccessful .payloadFailed (fun n => ?_) (fun n => ?_) hk rfl
    fun _ => trivial
  · rw [Bool.eq_false_iff, ne_eq, sequenceViolated_iff hk,
      run_eq_zero fun c hc => by rw [hones n c hc]; rfl]
    omega
  · exact ratioViolated_of_successes hp (hones n)

end Exact

/-! ## Exactness -/

/-- A limit of `k > 0` failures in a row is kept exactly by the policies that are covered: in every
chain of occurrences whose endings the runtime reads as they are, an occurrence is blocked
for the policy exactly when the last `k` before it ended without success or the recorded
outcomes violate the success ratio. Endings that the toy runtime misreads, namely failed
ones, make every policy fail there. -/
theorem failure_policy_exact (B : ScheduleLib) (policy : ScheduleFailurePolicy)
    (hk : 0 < policy.maxSequentialFailures) (hp : policy.minSuccessPercent ≤ 100) :
    (∀ b : Backend, b.PolicyExact B policy b.Faithful ↔ b.Covers policy) ∧
      ¬ Backend.toy.PolicyExact B policy fun _ => True := by
  refine ⟨fun b => ⟨fun h => ?_, policyExact_of_covers hk⟩, not_policyExact_toy hk hp⟩
  by_contra hc
  exact not_policyExact_of_not_covers hk hc h

/-- Two failures in a row are seen by the core runtime without a window. -/
theorem failure_policy_exact_unset_window :
    0 < (⟨0, 0, 2⟩ : ScheduleFailurePolicy).maxSequentialFailures ∧
      Backend.core.PolicyExact .utc ⟨0, 0, 2⟩ Backend.core.Faithful :=
  ⟨by decide, ((failure_policy_exact .utc ⟨0, 0, 2⟩ (by decide) (by decide)).1 .core).2
    (.inr (.inr ⟨by decide, .inl rfl⟩))⟩

/-- In the SQLite runtime, with a limit of two failures in a row and no window, the third
occurrence is not blocked after two that failed. -/
theorem failure_policy_unset_window_misses :
    ∃ jobID occ next,
      Chain .sqlite .utc (everySecond ⟨0, 0, 2⟩) [.completed "failed_app", .completed "failed_app"]
          jobID occ ∧
        LastUnsuccessful 2 [.completed "failed_app", .completed "failed_app"] ∧
        Sqlite.variant.preflightOccurrence .utc (fun _ => false) (everySecond ⟨0, 0, 2⟩) jobID occ
          2000000000 = .ok (.advance next) := by
  have first : Chain .sqlite .utc (everySecond ⟨0, 0, 2⟩) [] "jobdbsched_backup_g1_run_1" _ :=
    .first _ 0 false (by decide)
  have second := first.next (.completed "failed_app") (fun _ => false) 0 _
    (by simp [Backend.Shows]) rfl
  have third := second.next (.completed "failed_app") (fun _ => false) 1000000000 _
    (by intro e he; cases he; rfl) rfl
  exact ⟨_, _, _, third, by unfold LastUnsuccessful; decide, rfl⟩

end JobDB
