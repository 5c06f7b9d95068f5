import JobDB.Lib.Lineage
import JobDB.Schedule.Events
import JobDB.Schedule.FailurePolicy

/-!
# The successors of an occurrence

Schedules as a system: the control of schedules, the jobs of their occurrences and the
clock, with leases that expire. A call decides to submit an occurrence in one step, the
decision is in `issued` from then on, and the job appears in another step, or never, if
the process stops in between. A submission under an ID that is taken makes no job.

An occurrence gets a second successor if its preflight is made twice, which happens when
its lease expires before it writes a chapter, and the trigger fires at another time the
second time; and a second chain of occurrences begins where the preflight of a manual
occurrence submits an automatic one. Where neither happens (`orderly`), what is issued is
a lineage.

An occurrence has started with its first own chapter. Its successor is submitted before a
worker gets its lease, so for a while neither has started and the earlier one is held. If
the lease runs out in that time (`punctual`), two unstarted occurrences are free.
-/

namespace JobDB

/-! ## The system -/

/-- The job of an occurrence. -/
structure OccurrenceRow where
  job : ScheduledJob
  chapterCount : Int := 1
  leaseExpires : Option Time := none
  ended : Option Ending := none
deriving DecidableEq, Repr

/-- The occurrence has neither started, with a chapter of its own, nor ended. -/
def OccurrenceRow.waiting (r : OccurrenceRow) : Bool := r.ended.isNone && r.chapterCount ≤ 1

/-- Someone has a lease on the occurrence that has not run out. -/
def OccurrenceRow.held (r : OccurrenceRow) (now : Time) : Bool := r.leaseExpires.any (now < ·)

/-- The state of the system. -/
structure Scheduling where
  now : Time := 0
  control : Control := {}
  issued : List ScheduledJob := []
  jobs : Table JobKey OccurrenceRow := ∅

namespace Scheduling

def setRow (s : Scheduling) (k : JobKey) (r : OccurrenceRow) : Scheduling :=
  { s with jobs := s.jobs.insert k r }

/-- A change of a job's row, if there is one. -/
def updateRow (s : Scheduling) (k : JobKey) (f : OccurrenceRow → OccurrenceRow) : Scheduling :=
  match s.jobs.lookup k with
  | some r => s.setRow k (f r)
  | none => s

/-- A call has decided to submit. -/
def issue (s : Scheduling) (job : Option ScheduledJob) : Scheduling :=
  { s with issued := s.issued ++ job.toList }

/-- The jobs a job waits for have ended. -/
def prerequisitesMet (s : Scheduling) (job : ScheduledJob) : Bool :=
  job.prerequisites.all fun p =>
    match s.jobs.lookup ⟨job.key.tenantId, p.jobID⟩ with
    | some r => r.ended.isSome
    | none => true

/-- The job can be leased. -/
def leaseable (s : Scheduling) (r : OccurrenceRow) : Bool :=
  r.ended.isNone && r.job.availableAt ≤ s.now && r.leaseExpires.all (· ≤ s.now) &&
    s.prerequisitesMet r.job

/-- What the preflight reads of the job before. -/
def succeeded (b : Backend) (s : Scheduling) (tenant jobID : String) : Bool :=
  match s.jobs.lookup ⟨tenant, jobID⟩ with
  | some r => r.ended.any b.previousJobSucceeded
  | none => false

end Scheduling

/-- What the calls do, step by step. -/
inductive SchedulingOp where
  | control (op : ControlOp)
  /-- `TriggerSchedule`, up to its submission. -/
  | trigger (clock : Time) (req : TriggerScheduleRequest)
  /-- The `i`th submission that was decided on is made. -/
  | submit (i : Nat)
  /-- A lease is acquired. -/
  | acquire (key : JobKey) (duration : Int)
  /-- The preflight of a leased occurrence decides, with `clock` the time it reads. -/
  | preflight (key : JobKey) (clock : Time)
  /-- The occurrence writes a chapter. -/
  | append (key : JobKey)
  | finish (key : JobKey) (e : Ending)
  | tick (d : Nat)

section Steps

variable (L : CellLib) (B : ScheduleLib) (b : Backend)

/-- The occurrence that an upsert or a resume goes on to submit. -/
def ControlOp.submits (s : Control) : ControlOp → Option ScheduledJob
  | .upsert ctx clock req =>
    match (Tx.commit (Control.upsertSchedule L B b ctx clock req) s).1 with
    | .ok info => b.firstOccurrence info
    | .error _ => none
  | .mutate ctx clock req state =>
    match (Control.mutateSchedule L B b ctx clock req state s).1 with
    | .ok info => b.firstOccurrence info
    | .error _ => none
  | _ => none

/-- What the preflight of the occurrence in the row decides. -/
def Scheduling.decision (s : Scheduling) (key : JobKey) (r : OccurrenceRow) (clock : Time) :
    Except Err PreflightOutcome :=
  b.variant.preflightScheduleLease B
    (fun id => s.control.schedules.lookup ⟨key.tenantId, id⟩) (s.succeeded b key.tenantId)
    { jobID := key.jobId, occurrence := .ok (some r.job.occurrence),
      chapterCount := r.chapterCount }
    clock

/-- What follows from the decision. -/
def Scheduling.preflight (s : Scheduling) (key : JobKey) (clock : Time) (r : OccurrenceRow) :
    Scheduling :=
  match s.decision B b key r clock with
  | .ok (.cancel _) => s.setRow key { r with ended := some (r.ended.getD .cancelled) }
  | .ok (.advance next) => s.issue (some next)
  | _ => s

def SchedulingOp.step (s : Scheduling) : SchedulingOp → Scheduling
  | .control op =>
    { s with control := op.step L B b s.control }.issue (op.submits L B b s.control)
  | .trigger clock req =>
    s.issue (b.manualOccurrence (s.control.schedules.lookup req.key) req clock).toOption
  | .submit i =>
    match s.issued[i]? with
    | some job => if s.jobs.lookup job.key = none then s.setRow job.key { job := job } else s
    | none => s
  | .acquire key duration =>
    s.updateRow key fun r =>
      if s.leaseable r then { r with leaseExpires := some (s.now + duration) } else r
  | .preflight key clock =>
    match s.jobs.lookup key with
    | some r => if r.leaseExpires.isSome then s.preflight B b key clock r else s
    | none => s
  | .append key => s.updateRow key fun r => { r with chapterCount := r.chapterCount + 1 }
  | .finish key e => s.updateRow key fun r => { r with ended := some (r.ended.getD e) }
  | .tick d => { s with now := s.now + d }

/-- The steps one after the other. -/
def Scheduling.run (s : Scheduling) (ops : List SchedulingOp) : Scheduling :=
  ops.foldl (fun s op => op.step L B b s) s

/-- The preflight that the step makes, with its clock. -/
def SchedulingOp.preflights (s : Scheduling) : SchedulingOp → List (JobKey × Time)
  | .preflight key clock =>
    if (s.jobs.lookup key).any (·.leaseExpires.isSome) then [(key, clock)] else []
  | _ => []

/-- The preflights of a run, after the ones in `past`. -/
def Scheduling.history (s : Scheduling) (past : List (JobKey × Time)) :
    List SchedulingOp → List (JobKey × Time)
  | [] => past
  | op :: ops => (op.step L B b s).history (past ++ op.preflights s) ops

/-- When the trigger of the occurrence's schedule fires after the clock, if nothing about the
schedule stands against the occurrence. -/
def Scheduling.fire (s : Scheduling) (key : JobKey) (r : OccurrenceRow) (clock : Time) :
    Option Time :=
  (s.control.schedules.lookup ⟨key.tenantId, r.job.occurrence.scheduleId⟩).bind fun info =>
    if b.variant.obstacle info r.job.occurrence = none then
      (nextScheduleFire B info.trigger clock).toOption.join
    else none

/-- No preflight is made for an unstarted manual occurrence whose schedule fires again, and none
once more for an unstarted occurrence whose schedule then fires at another time. -/
def SchedulingOp.orderly (s : Scheduling) (past : List (JobKey × Time)) : SchedulingOp → Bool
  | .preflight key clock =>
    (s.jobs.lookup key).all fun r => 1 < r.chapterCount ||
      ((!r.job.occurrence.manual || s.fire B b key r clock = none) &&
        past.all fun c => c.1 ≠ key || s.fire B b key r c.2 = s.fire B b key r clock)
  | _ => true

/-- A preflight is made under its lease, and the lease does not run out before the occurrence has
started or ended. -/
def SchedulingOp.punctual (s : Scheduling) (past : List (JobKey × Time)) : SchedulingOp → Bool
  | .preflight key _ => (s.jobs.lookup key).all (·.held s.now)
  | .tick d => past.all fun c =>
    (s.jobs.lookup c.1).all fun r => !r.waiting || r.held (s.now + d)
  | _ => true

/-- Every step meets the condition, in the state it finds and with the preflights before it. -/
def Scheduling.every (meets : Scheduling → List (JobKey × Time) → SchedulingOp → Bool)
    (s : Scheduling) (past : List (JobKey × Time)) : List SchedulingOp → Bool
  | [] => true
  | op :: ops => meets s past op && (op.step L B b s).every meets (past ++ op.preflights s) ops

/-- A run from the start in which every step is orderly. -/
def orderlyRun : List SchedulingOp → Bool :=
  Scheduling.every L B b (fun s past op => op.orderly B b s past) {} []

/-- A run from the start in which every step is punctual. -/
def punctualRun : List SchedulingOp → Bool :=
  Scheduling.every L B b (fun s past op => op.punctual s past) {} []

end Steps

/-! ## What the control operations submit -/

section Control

variable {L : CellLib} {B : ScheduleLib} {b : Backend} {s : Control} {op : ControlOp}
  {k : ScheduleKey}

variable {info : ScheduleInfo} {ctx : Ctx} {clock : Time}

/-- A later row of a schedule: the generation does not go back, and the trigger is the same as
long as the generation is. -/
structure ScheduleInfo.Later (old new : ScheduleInfo) : Prop where
  generation : old.generation ≤ new.generation
  trigger : new.generation = old.generation → new.trigger = old.trigger

/-- A schedule never goes away. -/
theorem ControlOp.step_later (h : s.schedules.lookup k = some info) :
    ∃ info', (op.step L B b s).schedules.lookup k = some info' ∧ info.Later info' := by
  rcases op.follows (L := L) (B := B) (b := b) k s with ⟨-, hnew⟩ | ⟨e, info', -, hnew, hd⟩
  · exact ⟨info, hnew.trans h, Int.le_refl _, fun _ => rfl⟩
  · refine ⟨info', hnew, ?_⟩
    have hg := hd.generation
    split at hg
    · rw [h] at hg
      have hnext : info'.generation = info.generation + 1 := hg
      exact ⟨by omega, fun hsame => by omega⟩
    · obtain ⟨old, hold, hsame, htrigger⟩ := hg
      cases h.symm.trans hold
      exact ⟨le_of_eq hsame.symm, fun _ => htrigger⟩

theorem ControlOp.step_keyed (hs : ∀ k info, s.schedules.lookup k = some info → info.key = k)
    (h : (op.step L B b s).schedules.lookup k = some info) : info.key = k := by
  rcases op.follows (L := L) (B := B) (b := b) k s with ⟨-, hnew⟩ | ⟨e, info', -, hnew, hd⟩
  · exact hs k info (hnew.symm.trans h)
  · rw [Option.some.inj (h.symm.trans hnew)]
    exact hd.key (hs k)

/-- An upsert that succeeds has stored the row it answers with. -/
theorem upsertSchedule_stored {req : UpsertScheduleRequest}
    (h : (Tx.commit (Control.upsertSchedule L B b ctx clock req) s).1 = .ok info) :
    (Control.upsertSchedule L B b ctx clock req s).toOption.isSome = true ∧
      (Tx.commit (Control.upsertSchedule L B b ctx clock req) s).2.schedules.lookup req.key =
        some info := by
  unfold Tx.commit Control.upsertSchedule at *
  cases hu : b.upsertRow L B ctx (s.cells req.tenantId) (s.schedules.lookup req.key) req clock with
  | error e =>
    rw [hu] at h
    cases h
  | ok info' =>
    rw [hu] at h
    cases h
    exact ⟨rfl, (lookup_setSchedule ..).trans (if_pos rfl)⟩

/-- What a control operation goes on to submit is the first occurrence of a new generation. -/
theorem ControlOp.submits_eq_some {x : ScheduledJob} (h : op.submits L B b s = some x) :
    ∃ k info jobID t, (op.step L B b s).schedules.lookup k = some info ∧
      info.generation = nextGeneration (s.schedules.lookup k) ∧ jobID ≠ "" ∧
      x = b.variant.occurrenceWithJobID info jobID t "" "" false := by
  -- the row that is answered is the one that is stored, by an event that raises the generation
  suffices hevent : ∃ k info e, e.raises = true ∧ op.event L B b k s = some e ∧
      (op.step L B b s).schedules.lookup k = some info ∧ b.firstOccurrence info = some x by
    obtain ⟨k, info, e, he, hevent, hrow, hfirst⟩ := hevent
    rcases op.follows (L := L) (B := B) (b := b) k s with ⟨hnone, -⟩ | ⟨e', info', hsome, hnew, hd⟩
    · rw [hevent] at hnone
      cases hnone
    · obtain rfl := Option.some.inj (hrow.symm.trans hnew)
      obtain rfl := Option.some.inj (hevent.symm.trans hsome)
      have hg := hd.generation
      rw [if_pos he] at hg
      unfold Backend.firstOccurrence at hfirst
      split at hfirst
      · split at hfirst
        · next t jobID ht hjob =>
          exact ⟨k, info, jobID, t, hrow, hg, hd.nextJobID he jobID hjob,
            (Option.some.inj hfirst).symm⟩
        · cases hfirst
      · cases hfirst
  cases op with
  | upsert ctx clock req =>
    simp only [ControlOp.submits] at h
    split at h
    · next info hok =>
      obtain ⟨hsome, hrow⟩ := upsertSchedule_stored hok
      exact ⟨req.key, info, .upserted req.paused, rfl, if_pos ⟨rfl, hsome⟩, hrow, h⟩
    · cases h
  | mutate ctx clock req state =>
    simp only [ControlOp.submits] at h
    split at h
    · next info hok =>
      exact ⟨req.key, info, .changed state, rfl, (if_pos rfl).trans (changeEvent_of_ok hok),
        mutateSchedule_stored hok, h⟩
    · cases h
  | _ => cases h

end Control

/-! ## The invariant -/

/-- The schedule and the generation of an occurrence. -/
def ScheduledJob.generationKey (x : ScheduledJob) : ScheduleKey × Int :=
  (x.schedule, x.occurrence.generation)

/-- An occurrence with the one it follows. -/
def ScheduledJob.link (x : ScheduledJob) : Link (JobKey × ScheduleKey × Int) where
  key := (x.key, x.generationKey)
  prev :=
    if x.occurrence.previousJobId = "" then none
    else some (⟨x.key.tenantId, x.occurrence.previousJobId⟩, x.generationKey)

/-- The automatic occurrences that were decided on. -/
def links (issued : List ScheduledJob) : List (Link (JobKey × ScheduleKey × Int)) :=
  (issued.filter fun x => !x.occurrence.manual).map (·.link)

/-- The successor was decided on by a preflight of the occurrence `k`, and its ID is that of the
time at which the schedule fires after the preflight's clock. -/
def ScheduledJob.DecidedFor (B : ScheduleLib) (b : Backend) (s : Scheduling)
    (past : List (JobKey × Time)) (k : JobKey) (x : ScheduledJob) : Prop :=
  ∃ clock t, (k, clock) ∈ past ∧
    x.key.jobId =
      scheduleRunJobID x.schedule.scheduleId x.occurrence.generation (b.variant.precision t) ∧
    ∀ info, s.control.schedules.lookup x.schedule = some info →
      info.generation = x.occurrence.generation →
        nextScheduleFire B info.trigger clock = .ok (some t)

/-- What is known of an occurrence that was decided on. -/
structure Sound.Issued (B : ScheduleLib) (b : Backend) (s : Scheduling)
    (past : List (JobKey × Time)) (x : ScheduledJob) : Prop where
  tenant : x.key.tenantId = x.schedule.tenantId
  schedule : x.occurrence.scheduleId = x.schedule.scheduleId
  jobID : x.key.jobId ≠ ""
  generation : ∃ info, s.control.schedules.lookup x.schedule = some info ∧
    x.occurrence.generation ≤ info.generation
  /-- What it follows is a job whose preflight decided on it. -/
  follows : x.occurrence.previousJobId ≠ "" →
    (∃ r, s.jobs.lookup ⟨x.key.tenantId, x.occurrence.previousJobId⟩ = some r ∧
      r.job.generationKey = x.generationKey) ∧
    x.DecidedFor B b s past ⟨x.key.tenantId, x.occurrence.previousJobId⟩

/-- The invariant of orderly runs. -/
structure Sound (B : ScheduleLib) (b : Backend) (s : Scheduling) (past : List (JobKey × Time)) :
    Prop where
  keyed : ∀ k info, s.control.schedules.lookup k = some info → info.key = k
  issued : ∀ x ∈ s.issued, Sound.Issued B b s past x
  stored : ∀ k r, s.jobs.lookup k = some r → r.job ∈ s.issued ∧ r.job.key = k
  lineage : Lineage (fun id : JobKey × ScheduleKey × Int => id.2) (links s.issued)

section Invariant

variable {B : ScheduleLib} {b : Backend} {s : Scheduling} {past : List (JobKey × Time)}
  {x : ScheduledJob} {k : JobKey} {r r' : OccurrenceRow}

theorem link_prev_first (h : x.occurrence.previousJobId = "") : x.link.prev = none := if_pos h

theorem link_prev_next (h : x.occurrence.previousJobId ≠ "") :
    x.link.prev = some (⟨x.key.tenantId, x.occurrence.previousJobId⟩, x.generationKey) := if_neg h

theorem links_concat_manual (h : x.occurrence.manual = true) (issued : List ScheduledJob) :
    links (issued ++ [x]) = links issued := by
  unfold links
  rw [List.filter_append, List.filter_cons_of_neg (by simp [h]), List.filter_nil, List.append_nil]

theorem links_concat_automatic (h : x.occurrence.manual = false) (issued : List ScheduledJob) :
    links (issued ++ [x]) = links issued ++ [x.link] := by
  unfold links
  rw [List.filter_append, List.filter_cons_of_pos (by simp [h]), List.filter_nil, List.map_append]
  rfl

theorem lookup_setRow (s : Scheduling) (k k' : JobKey) (r : OccurrenceRow) :
    (s.setRow k r).jobs.lookup k' = if k' = k then some r else s.jobs.lookup k' :=
  Table.lookup_insert_eq ..

theorem sound_empty : Sound B b {} [] where
  keyed k info h := by simp at h
  issued x h := absurd h List.not_mem_nil
  stored k r h := by simp at h
  lineage := .nil

/-- The rows of the jobs change: those there are stay, and new ones are of occurrences that were
decided on. -/
theorem Sound.rows (h : Sound B b s past) {jobs : Table JobKey OccurrenceRow}
    (hkept : ∀ k r, s.jobs.lookup k = some r → ∃ r', jobs.lookup k = some r' ∧ r'.job = r.job)
    (hstored : ∀ k r, jobs.lookup k = some r → r.job ∈ s.issued ∧ r.job.key = k) :
    Sound B b { s with jobs := jobs } past where
  keyed := h.keyed
  issued x hx := by
    obtain ⟨htenant, hsched, hid, hgen, hfollows⟩ := h.issued x hx
    refine ⟨htenant, hsched, hid, hgen, fun hp => ?_⟩
    obtain ⟨⟨q, hq, hkey⟩, hdecided⟩ := hfollows hp
    obtain ⟨q', hq', hjob⟩ := hkept _ q hq
    exact ⟨⟨q', hq', by rw [hjob, hkey]⟩, hdecided⟩
  stored := hstored
  lineage := h.lineage

/-- A row changes, but not whose it is. -/
theorem Sound.setRow (h : Sound B b s past) (hr : s.jobs.lookup k = some r)
    (hjob : r'.job = r.job) : Sound B b (s.setRow k r') past := by
  refine h.rows (fun k' q hq => ?_) fun k' q hq => ?_
  · by_cases hk : k' = k
    · subst hk
      cases hr.symm.trans hq
      exact ⟨r', (lookup_setRow s k' k' r').trans (if_pos rfl), hjob⟩
    · exact ⟨q, ((lookup_setRow s k k' r').trans (if_neg hk)).trans hq, rfl⟩
  · have hq' := (lookup_setRow s k k' r').symm.trans hq
    split at hq'
    · next hk =>
      obtain rfl := Option.some.inj hq'
      rw [hjob, hk]
      exact h.stored k r hr
    · exact h.stored k' q hq'

theorem Sound.updateRow (h : Sound B b s past) (k : JobKey) {f : OccurrenceRow → OccurrenceRow}
    (hjob : ∀ r, (f r).job = r.job) : Sound B b (s.updateRow k f) past := by
  unfold Scheduling.updateRow
  split
  · next r hr => exact h.setRow hr (hjob r)
  · exact h

/-- A job appears under an ID that was free. -/
theorem Sound.submit (h : Sound B b s past) (hx : x ∈ s.issued)
    (hfree : s.jobs.lookup x.key = none) : Sound B b (s.setRow x.key { job := x }) past := by
  refine h.rows (fun k q hq => ⟨q, ?_, rfl⟩) fun k q hq => ?_
  · refine ((lookup_setRow s x.key k _).trans (if_neg ?_)).trans hq
    rintro rfl
    cases hfree.symm.trans hq
  · have hq' := (lookup_setRow s x.key k _).symm.trans hq
    split at hq'
    · next hk =>
      obtain rfl := Option.some.inj hq'
      exact ⟨hx, hk.symm⟩
    · exact h.stored k q hq'

/-- The schedules change to later rows. -/
theorem Sound.control (h : Sound B b s past) {control : Control}
    (hkeyed : ∀ k info, control.schedules.lookup k = some info → info.key = k)
    (hlater : ∀ k info, s.control.schedules.lookup k = some info →
      ∃ info', control.schedules.lookup k = some info' ∧ info.Later info') :
    Sound B b { s with control := control } past where
  keyed := hkeyed
  issued x hx := by
    obtain ⟨htenant, hsched, hid, ⟨info, hinfo, hle⟩, hfollows⟩ := h.issued x hx
    obtain ⟨info', hinfo', hl⟩ := hlater _ _ hinfo
    refine ⟨htenant, hsched, hid, ⟨info', hinfo', Int.le_trans hle hl.generation⟩, fun hp => ?_⟩
    obtain ⟨hrow, clock, t, hpast, hjobID, hfire⟩ := hfollows hp
    refine ⟨hrow, clock, t, hpast, hjobID, fun info'' hinfo'' hgen => ?_⟩
    -- the generation is that of the occurrence, so it is the one of the row before
    cases hinfo'.symm.trans hinfo''
    have hsame : info'.generation = info.generation :=
      le_antisymm (hgen.le.trans hle) hl.generation
    rw [hl.trigger hsame]
    exact hfire info hinfo (hsame.symm.trans hgen)
  stored := h.stored
  lineage := h.lineage

/-- One more occurrence is decided on. -/
theorem Sound.issue (h : Sound B b s past) (hx : Sound.Issued B b s past x)
    (hline : Lineage (fun id : JobKey × ScheduleKey × Int => id.2) (links (s.issued ++ [x]))) :
    Sound B b (s.issue (some x)) past where
  keyed := h.keyed
  issued y hy := by
    have hold : Sound.Issued B b s past y := by
      obtain hy | hy := List.mem_append.1 hy
      · exact h.issued y hy
      · rwa [List.mem_singleton.1 hy]
    exact ⟨hold.tenant, hold.schedule, hold.jobID, hold.generation, hold.follows⟩
  stored k r hr := by
    obtain ⟨hmem, hkey⟩ := h.stored k r hr
    exact ⟨List.mem_append_left _ hmem, hkey⟩
  lineage := hline

/-- Another preflight is made. -/
theorem Sound.preflighted (h : Sound B b s past) (made : List (JobKey × Time)) :
    Sound B b s (past ++ made) where
  keyed := h.keyed
  issued x hx := by
    obtain ⟨htenant, hsched, hid, hgen, hfollows⟩ := h.issued x hx
    refine ⟨htenant, hsched, hid, hgen, fun hp => ?_⟩
    obtain ⟨hrow, clock, t, hpast, hrest⟩ := hfollows hp
    exact ⟨hrow, clock, t, List.mem_append_left _ hpast, hrest⟩
  stored := h.stored
  lineage := h.lineage

theorem issue_none (s : Scheduling) : s.issue none = s := by
  unfold Scheduling.issue
  simp

end Invariant

/-! ## Orderly runs -/

section Runs

variable {L : CellLib} {B : ScheduleLib} {b : Backend} {s : Scheduling}
  {past : List (JobKey × Time)}

/-- The first occurrence of a new generation. -/
theorem Sound.controlStep (h : Sound B b s past) (op : ControlOp) :
    Sound B b ((SchedulingOp.control op).step L B b s) past := by
  have h₁ : Sound B b { s with control := op.step L B b s.control } past :=
    h.control (fun k info hk => ControlOp.step_keyed h.keyed hk) fun k info hk =>
      ControlOp.step_later hk
  show Sound B b ({ s with control := op.step L B b s.control }.issue (op.submits L B b s.control))
    past
  cases hx : op.submits L B b s.control with
  | none =>
    rw [issue_none]
    exact h₁
  | some x =>
    obtain ⟨k, info, jobID, t, hrow, hgen, hid, rfl⟩ := ControlOp.submits_eq_some hx
    have hkey : info.key = k := ControlOp.step_keyed h.keyed hrow
    refine h₁.issue ⟨rfl, rfl, hid, ⟨info, ?_, Int.le_refl _⟩, fun hp => absurd rfl hp⟩ ?_
    · show (op.step L B b s.control).schedules.lookup info.key = some info
      rw [hkey]
      exact hrow
    · rw [links_concat_automatic rfl]
      refine h₁.lineage.root (link_prev_first rfl) fun y hy hg => ?_
      -- no occurrence was decided on under a generation that is new
      obtain ⟨z, hz, rfl⟩ := List.mem_map.1 hy
      obtain ⟨hsched, hzgen⟩ := Prod.mk.inj hg
      obtain ⟨old, hold, hle⟩ := (h.issued z (List.mem_of_mem_filter hz)).generation
      have hsched' : z.schedule = k := hsched.trans hkey
      rw [hsched'] at hold
      rw [hold] at hgen
      have hzgen' : z.occurrence.generation = info.generation := hzgen
      have hnext : info.generation = old.generation + 1 := hgen
      omega

/-- A manual occurrence. -/
theorem Sound.triggerStep (h : Sound B b s past) (clock : Time) (req : TriggerScheduleRequest) :
    Sound B b ((SchedulingOp.trigger clock req).step L B b s) past := by
  show Sound B b (s.issue _) past
  cases hx : b.manualOccurrence (s.control.schedules.lookup req.key) req clock with
  | error e =>
    show Sound B b (s.issue none) past
    rw [issue_none]
    exact h
  | ok x =>
    unfold Backend.manualOccurrence at hx
    obtain ⟨info, hload, hx⟩ := bind_eq_ok.mp hx
    split at hx
    · cases hx
    · obtain rfl := Except.ok.inj hx
      have hrow := loadSchedule_eq_ok hload
      refine h.issue ⟨rfl, rfl, scheduleManualJobID_ne_empty _ _ _, ⟨info, ?_, Int.le_refl _⟩,
        fun hp => absurd rfl hp⟩ ?_
      · show s.control.schedules.lookup info.key = some info
        rw [h.keyed _ _ hrow]
        exact hrow
      · rw [links_concat_manual rfl]
        exact h.lineage

/-- A preflight that submits has found the schedule firing again. -/
theorem fire_eq_some {key : JobKey} {r : OccurrenceRow} {clock t : Time} {info : ScheduleInfo}
    (hinfo : s.control.schedules.lookup ⟨key.tenantId, r.job.occurrence.scheduleId⟩ = some info)
    (hobs : b.variant.obstacle info r.job.occurrence = none)
    (hfire : nextScheduleFire B info.trigger clock = .ok (some t)) :
    s.fire B b key r clock = some t := by
  unfold Scheduling.fire
  rw [hinfo, Option.bind_some, if_pos hobs, hfire]
  rfl

/-- The successor of an automatic occurrence. Where there is one already, the schedule fired at
the same time for it, and so it has the same ID. -/
theorem Sound.advance (h : Sound B b s past) {key : JobKey} {r : OccurrenceRow} {clock : Time}
    {next : ScheduledJob} (hr : s.jobs.lookup key = some r)
    (hd : s.decision B b key r clock = .ok (.advance next))
    (ho : (SchedulingOp.preflight key clock).orderly B b s past = true) :
    Sound B b (s.issue (some next)) (past ++ [(key, clock)]) := by
  obtain ⟨occ, info, t, bits, hocc, hcount, hinfo, hobs, hfire, rfl⟩ :=
    Variant.preflightScheduleLease_eq_advance hd
  obtain rfl : r.job.occurrence = occ := Option.some.inj (Except.ok.inj hocc)
  have hnow := fire_eq_some hinfo hobs hfire
  have hcond : r.job.occurrence.manual = false ∧
      ∀ c ∈ past, c.1 = key → s.fire B b key r c.2 = some t := by
    simp only [SchedulingOp.orderly, hr, Option.all_some, hnow] at ho
    simpa [not_lt.2 hcount, or_iff_not_imp_left] using ho
  obtain ⟨hauto, hagree⟩ := hcond
  obtain ⟨hmem, hkey⟩ := h.stored key r hr
  obtain ⟨htenant, hsched, hid, -, -⟩ := h.issued r.job hmem
  have hinfokey : info.key = ⟨key.tenantId, r.job.occurrence.scheduleId⟩ := h.keyed _ _ hinfo
  have hlookup : s.control.schedules.lookup info.key = some info := by rw [hinfokey, hinfo]
  have hsame : r.job.generationKey = (info.key, info.generation) := by
    have hs : r.job.schedule = info.key := by
      rw [hinfokey, hsched, ← hkey, htenant]
    unfold ScheduledJob.generationKey
    rw [hs, Variant.generation_of_obstacle hobs]
  have hjobID : key.jobId ≠ "" := hkey ▸ hid
  have hprevkey : (⟨info.key.tenantId, key.jobId⟩ : JobKey) = key := by rw [hinfokey]
  have hprev : (b.variant.occurrenceAt info t key.jobId bits).link.prev =
      some (key, r.job.generationKey) := by
    rw [hsame, link_prev_next hjobID]
    show some ((⟨info.key.tenantId, key.jobId⟩ : JobKey), info.key, info.generation) = _
    rw [hprevkey]
  have h₁ := h.preflighted [(key, clock)]
  refine h₁.issue ⟨rfl, rfl, scheduleRunJobID_ne_empty _ _ _, ⟨info, hlookup, Int.le_refl _⟩,
    fun _ => ⟨⟨r, ?_, hsame⟩, clock, t, ?_, rfl, fun info' hinfo' _ => ?_⟩⟩ ?_
  · show s.jobs.lookup ⟨info.key.tenantId, key.jobId⟩ = some r
    rw [hprevkey, hr]
  · show ((⟨info.key.tenantId, key.jobId⟩ : JobKey), clock) ∈ _
    rw [hprevkey]
    exact List.mem_append_right _ (List.mem_singleton_self _)
  · cases hlookup.symm.trans hinfo'
    exact hfire
  · rw [links_concat_automatic rfl]
    refine h₁.lineage.extend hprev ⟨r.job.link, ?_, ?_⟩ hsame.symm fun y hy hyp => ?_
    · exact List.mem_map.2 ⟨r.job, List.mem_filter.2 ⟨hmem, by simp [hauto]⟩, rfl⟩
    · show (r.job.key, _) = (key, _)
      rw [hkey]
    · obtain ⟨z, hz, rfl⟩ := List.mem_map.1 hy
      unfold ScheduledJob.link at hyp
      dsimp only at hyp
      split at hyp
      · cases hyp
      next hne =>
        obtain ⟨hzkey, hzgen⟩ := Prod.mk.inj (Option.some.inj hyp)
        obtain ⟨hzt, -, hzid, -, hzfollows⟩ := h.issued z (List.mem_of_mem_filter hz)
        obtain ⟨-, clock₀, t₀, hpast, hzjob, hzfire⟩ := hzfollows hne
        obtain ⟨hzs, hzg⟩ := Prod.mk.inj (hzgen.trans hsame)
        rw [hzkey] at hpast
        have hthen := hagree _ hpast rfl
        rw [fire_eq_some hinfo hobs (hzfire info (hzs ▸ hlookup) hzg.symm)] at hthen
        have hids : z.key = ⟨info.key.tenantId,
            scheduleRunJobID info.key.scheduleId info.generation (b.variant.precision t)⟩ := by
          rw [← Option.some.inj hthen, ← hzs, ← hzg, ← hzjob, ← hzt]
        show (z.key, z.generationKey) = _
        rw [hids, hzgen, hsame]
        rfl

theorem Sound.preflightStep (h : Sound B b s past) (key : JobKey) (clock : Time)
    (ho : (SchedulingOp.preflight key clock).orderly B b s past = true) :
    Sound B b ((SchedulingOp.preflight key clock).step L B b s)
      (past ++ (SchedulingOp.preflight key clock).preflights s) := by
  simp only [SchedulingOp.step, SchedulingOp.preflights]
  cases hr : s.jobs.lookup key with
  | none => exact h.preflighted _
  | some r =>
    dsimp only [Option.any_some]
    split
    · unfold Scheduling.preflight
      split
      · exact (h.preflighted _).setRow hr rfl
      · next next hd => exact h.advance hr hd ho
      · exact h.preflighted _
    · exact h.preflighted _

/-- **One orderly step** keeps the invariant. -/
theorem Sound.step (h : Sound B b s past) (op : SchedulingOp) (ho : op.orderly B b s past = true) :
    Sound B b (op.step L B b s) (past ++ op.preflights s) := by
  cases op with
  | preflight key clock => exact h.preflightStep key clock ho
  | control op => exact (h.controlStep op).preflighted []
  | trigger clock req => exact (h.triggerStep clock req).preflighted []
  | submit i =>
    refine Sound.preflighted ?_ []
    simp only [SchedulingOp.step]
    split
    · next job hjob =>
      split
      · next hfree => exact h.submit (List.mem_of_getElem? hjob) hfree
      · exact h
    · exact h
  | acquire key duration =>
    refine (h.updateRow key fun r => ?_).preflighted []
    split <;> rfl
  | append key =>
    refine (h.updateRow key fun r => ?_).preflighted []
    rfl
  | finish key e =>
    refine (h.updateRow key fun r => ?_).preflighted []
    rfl
  | tick d =>
    have hlater : Sound B b { s with now := s.now + d } past := by
      refine ⟨h.keyed, fun x hx => ?_, h.stored, h.lineage⟩
      obtain ⟨htenant, hsched, hid, hgen, hfollows⟩ := h.issued x hx
      exact ⟨htenant, hsched, hid, hgen, hfollows⟩
    exact hlater.preflighted []

theorem Sound.run (ops : List SchedulingOp) (h : Sound B b s past)
    (ho : s.every L B b (fun s past op => op.orderly B b s past) past ops = true) :
    Sound B b (s.run L B b ops) (s.history L B b past ops) := by
  induction ops generalizing s past with
  | nil => exact h
  | cons op ops ih =>
    obtain ⟨hop, hops⟩ := Bool.and_eq_true_iff.1 ho
    exact ih (h.step op hop) hops

end Runs

/-! ## Punctual runs -/

/-- Every occurrence that was preflighted has started or ended, or it is held. -/
def Held (s : Scheduling) (past : List (JobKey × Time)) : Prop :=
  ∀ c ∈ past, ∃ r, s.jobs.lookup c.1 = some r ∧ (r.waiting = true → r.held s.now = true)

section Punctual

variable {L : CellLib} {B : ScheduleLib} {b : Backend} {s : Scheduling}
  {past : List (JobKey × Time)} {k : JobKey} {r r' : OccurrenceRow}

theorem Held.setRow (h : Held s past) (hr : s.jobs.lookup k = some r)
    (himp : (r.waiting = true → r.held s.now = true) → r'.waiting = true → r'.held s.now = true) :
    Held (s.setRow k r') past := by
  intro c hc
  obtain ⟨q, hq, hheld⟩ := h c hc
  by_cases hk : c.1 = k
  · cases (hk ▸ hq).symm.trans hr
    exact ⟨r', (lookup_setRow s k c.1 r').trans (if_pos hk), himp hheld⟩
  · exact ⟨q, ((lookup_setRow s k c.1 r').trans (if_neg hk)).trans hq, hheld⟩

theorem Held.updateRow (h : Held s past) {f : OccurrenceRow → OccurrenceRow}
    (himp : ∀ r, (r.waiting = true → r.held s.now = true) → (f r).waiting = true →
      (f r).held s.now = true) : Held (s.updateRow k f) past := by
  unfold Scheduling.updateRow
  split
  · next r hr => exact h.setRow hr (himp r)
  · exact h

theorem not_leaseable_of_held (h : r.held s.now = true) : s.leaseable r = false := by
  unfold OccurrenceRow.held at h
  unfold Scheduling.leaseable
  cases hl : r.leaseExpires with
  | none =>
    rw [hl] at h
    cases h
  | some e =>
    rw [hl, Option.any_some, decide_eq_true_eq] at h
    simp [not_le.2 h]

/-- **One punctual step.** -/
theorem Held.step (h : Held s past) (op : SchedulingOp) (hp : op.punctual s past = true) :
    Held (op.step L B b s) (past ++ op.preflights s) := by
  cases op with
  | control op =>
    simp only [SchedulingOp.preflights, List.append_nil]
    exact h
  | trigger clock req =>
    simp only [SchedulingOp.preflights, List.append_nil]
    exact h
  | submit i =>
    simp only [SchedulingOp.step, SchedulingOp.preflights, List.append_nil]
    split
    · next job hjob =>
      split
      · next hfree =>
        intro c hc
        obtain ⟨q, hq, hheld⟩ := h c hc
        refine ⟨q, ((lookup_setRow s job.key c.1 _).trans (if_neg ?_)).trans hq, hheld⟩
        intro hk
        cases (hk ▸ hq).symm.trans hfree
      · exact h
    · exact h
  | acquire key duration =>
    simp only [SchedulingOp.step, SchedulingOp.preflights, List.append_nil]
    refine h.updateRow fun r hheld hw => ?_
    split at hw
    · next hleaseable =>
      rw [not_leaseable_of_held (hheld hw)] at hleaseable
      cases hleaseable
    · next hnot =>
      rw [if_neg hnot]
      exact hheld hw
  | preflight key clock =>
    simp only [SchedulingOp.step, SchedulingOp.preflights]
    cases hr : s.jobs.lookup key with
    | none => simpa using h
    | some r =>
      simp only [SchedulingOp.punctual, hr, Option.all_some] at hp
      have hnew : Held s (past ++ [(key, clock)]) := by
        intro c hc
        obtain hc | hc := List.mem_append.1 hc
        · exact h c hc
        · rw [List.mem_singleton.1 hc]
          exact ⟨r, hr, fun _ => hp⟩
      dsimp only [Option.any_some]
      split
      · unfold Scheduling.preflight
        split
        · exact hnew.setRow hr fun _ hw => by simp [OccurrenceRow.waiting] at hw
        · exact hnew
        · exact hnew
      · simpa using h
  | append key =>
    simp only [SchedulingOp.step, SchedulingOp.preflights, List.append_nil]
    refine h.updateRow fun r hheld hw => hheld ?_
    simp only [OccurrenceRow.waiting, Bool.and_eq_true, decide_eq_true_eq] at hw ⊢
    exact ⟨hw.1, by omega⟩
  | finish key e =>
    simp only [SchedulingOp.step, SchedulingOp.preflights, List.append_nil]
    exact h.updateRow fun r _ hw => by simp [OccurrenceRow.waiting] at hw
  | tick d =>
    simp only [SchedulingOp.step, SchedulingOp.preflights, List.append_nil]
    intro c hc
    obtain ⟨r, hr, -⟩ := h c hc
    refine ⟨r, hr, fun hw => ?_⟩
    have hone := List.all_eq_true.1 hp c hc
    rw [hr, Option.all_some, hw] at hone
    simpa using hone

theorem Held.run (ops : List SchedulingOp) (h : Held s past)
    (hp : s.every L B b (fun s past op => op.punctual s past) past ops = true) :
    Held (s.run L B b ops) (s.history L B b past ops) := by
  induction ops generalizing s past with
  | nil => exact h
  | cons op ops ih =>
    obtain ⟨hop, hops⟩ := Bool.and_eq_true_iff.1 hp
    exact ih (h.step op hop) hops

end Punctual

/-! ## At most one successor -/

/-- The first occurrence of the schedule. -/
def firstBackupKey : JobKey := ⟨"tenant", "jobdbsched_backup_g1_run_19700101T000000000000000Z"⟩

/-- The schedule is made, its first occurrence is leased and its preflight submits another. -/
def backupStarts : List SchedulingOp :=
  scheduleInCell.map .control ++
    [.submit 0, .acquire firstBackupKey 30000000000, .preflight firstBackupKey 1, .submit 1]

end JobDB
