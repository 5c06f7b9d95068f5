import JobDB.Sqlite.Leases
import Mathlib.Data.List.Chain

/-!
# Commit if waiting

`CompleteTaskIfWaiting` brings the result of a task to a job that waits for it, in
three steps with no way back: the claim takes the task wait off the job's row and
puts the resume route there, then the output chapter is appended, then the lease
is given back. Other calls, crashes included, may come between any two.

* Success leaves the call's own chapter at the output ordinal, so that two calls
  cannot both succeed there.
* `Resumes` is the invariant that covers a call which stops in the middle: as long
  as the last lease of a job is that of a claim, the row has the job-only resume
  route, no task wait and no alternate route; and so the next lease after a claim
  goes to the resuming job type.

`workers` is the runtime with workers that reschedule only with leases that were
granted to workers: the lease of a claim is never handed out.
-/

namespace JobDB.Sqlite

/-- The lease was granted to a worker. -/
def Handed (v : Sched) (leaseID : String) : Prop :=
  ∃ g ∈ v.grants, g.leaseID = leaseID ∧ g.claim = none

theorem Handed.grows {v v' : Sched} {L : String} (h : Handed v L) (hg : Grows v v') :
    Handed v' L := by
  obtain ⟨g, hmem, hL⟩ := h
  exact ⟨g, hg.grants.subset hmem, hL⟩

/-- The runtime with its workers. -/
def workers (H : Host) : System State Request (Except Err (List Lease)) :=
  { system H with
    allowed := fun s c =>
      match c with
      | .reschedule _ _ leaseID _ _ => Handed s.sched leaseID
      | _ => True }

/-- A reschedule is a worker's, or goes from a claim back to its route. -/
def WorkerOrClaim (v : Sched) (leaseID : String) (req : RescheduleExecutionRequest)
    (task : Option TaskWait) : Prop :=
  Handed v leaseID ∨
    (ClaimedAs v leaseID req.nextRoute ∧ req.alternateRoute = none ∧ task = none)

theorem permits_workerOrClaim : Permits WorkerOrClaim := fun _ _ _ h => .inr ⟨h, rfl, rfl⟩

theorem workers_meets {H : Host} {s : State} {c : Request} (h : (workers H).allowed s c) :
    c.Meets WorkerOrClaim s.sched := by
  cases c with
  | reschedule handle key leaseID workerID req =>
    have hh : Handed s.sched leaseID := h
    exact fun _ _ hg _ => .inl (hh.grows hg)
  | _ => trivial

/-! ## The leases of a job -/

/-- The leases granted for a job, in order. -/
def leasesOf (v : Sched) (k : JobKey) : List Grant := v.grants.filter (·.key = k)

/-- The row is that of a job on its way back from a task. -/
structure Resuming (route : Route) (r : JobRow) : Prop where
  route : r.nextRoute = route
  taskWait : r.payload.taskWait = none
  alternate : r.alternateRoute = none ∧ r.alternateAtNS = none

/-- See the introduction. -/
structure Resumes (H : Host) (v : Sched) : Prop where
  drawn : Drawn H v
  /-- No lease ID is granted twice. -/
  ids : (v.grants.map (·.leaseID)).Nodup
  /-- The lease in a row is the last one granted. -/
  holder : ∀ k r L, v.job k = some r → r.leaseID = some L →
    ∃ g, (leasesOf v k).getLast? = some g ∧ g.leaseID = L
  claims : ∀ g ∈ v.grants, ∀ tw, g.claim = some tw → g.route = { jobType := tw.resumeJobType }
  next : ∀ k, (leasesOf v k).IsChain fun g g' => g.claim ≠ none → g'.route = g.route
  last : ∀ k g, (leasesOf v k).getLast? = some g → g.claim ≠ none →
    ∃ r, v.job k = some r ∧ Resuming g.route r

theorem mem_of_last {v : Sched} {k : JobKey} {g : Grant} (h : (leasesOf v k).getLast? = some g) :
    g ∈ v.grants :=
  (List.mem_filter.mp (List.mem_of_getLast? h)).1

theorem leasesOf_record (v : Sched) (k k' : JobKey) (r : JobRow) (g : Grant) :
    leasesOf ((v.setJob k r).record g) k' =
      leasesOf v k' ++ if g.key = k' then [g] else [] := by
  unfold leasesOf
  rw [Sched.record_grants, Sched.setJob_grants, List.filter_append]
  split
  · next h => rw [List.filter_cons_of_pos (by simpa using h), List.filter_nil]
  · next h => rw [List.filter_cons_of_neg (by simpa using h), List.filter_nil]

namespace Resumes

variable {H : Host} {v v' : Sched} (h : Resumes H v)

include h

/-- A step that does not touch rows and grants. -/
theorem unrelated (story : JobKey → Option Story) (now : Time) :
    Resumes H { v with story := story, now := now } :=
  ⟨h.drawn, h.ids, h.holder, h.claims, h.next, h.last⟩

/-- A row is written that has no other lease than before, and that still resumes
if it has to. -/
theorem setJob {k : JobKey} {r r' : JobRow} (stored : v.job k = some r)
    (hid : ∀ L, r'.leaseID = some L → r.leaseID = some L)
    (hres : ∀ g, (leasesOf v k).getLast? = some g → g.claim ≠ none → Resuming g.route r →
      Resuming g.route r') : Resumes H (v.setJob k r') := by
  refine ⟨h.drawn, h.ids, fun k' r₁ L hr₁ hL => ?_, h.claims, h.next, fun k' g hg hc => ?_⟩
  · rw [Sched.setJob_job] at hr₁
    split at hr₁
    · next he =>
      cases hr₁
      subst he
      exact h.holder k' r L stored (hid L hL)
    · exact h.holder k' r₁ L hr₁ hL
  · obtain ⟨r₁, hr₁, hres₁⟩ := h.last k' g hg hc
    rw [Sched.setJob_job]
    split
    · next he =>
      subst he
      cases hr₁.symm.trans stored
      exact ⟨r', rfl, hres g hg hc hres₁⟩
    · exact ⟨r₁, hr₁, hres₁⟩

/-- A lease is granted under a new ID. -/
theorem record {k : JobKey} {r : JobRow} {g : Grant} (hkey : g.key = k)
    (hid : g.leaseID = H.ksuid v.drawn) (hrow : r.leaseID = some g.leaseID)
    (hclaim : ∀ tw, g.claim = some tw → g.route = { jobType := tw.resumeJobType })
    (hnext : ∀ g₀, (leasesOf v k).getLast? = some g₀ → g₀.claim ≠ none → g.route = g₀.route)
    (hres : g.claim ≠ none → Resuming g.route r) : Resumes H ((v.setJob k r).record g) := by
  subst hkey
  refine ⟨h.drawn.record hid, ?_, fun k' r' L hr' hL => ?_, fun g' hg' => ?_, fun k' => ?_,
    fun k' g' hg' hc => ?_⟩
  · rw [Sched.record_grants, Sched.setJob_grants, List.map_append, List.map_singleton]
    refine List.nodup_append.mpr ⟨h.ids, List.nodup_singleton _, fun L hL L' hL' he => ?_⟩
    obtain ⟨g', hg', rfl⟩ := List.mem_map.mp hL
    obtain ⟨n, hn, hd⟩ := h.drawn g' hg'
    have hsame : H.ksuid n = H.ksuid v.drawn := by
      rw [← hd, he, List.mem_singleton.mp hL', hid]
    have := H.ksuid_injective _ _ hsame
    omega
  · rw [Sched.record_job, Sched.setJob_job] at hr'
    rw [leasesOf_record]
    split at hr'
    · next he =>
      cases hr'
      rw [if_pos he.symm]
      exact ⟨g, by simp, Option.some.inj (hrow.symm.trans hL)⟩
    · next he =>
      rw [if_neg (Ne.symm he), List.append_nil]
      exact h.holder k' r' L hr' hL
  · rcases List.mem_append.mp hg' with hold | hnew
    · exact h.claims g' hold
    · rw [List.mem_singleton.mp hnew]
      exact hclaim
  · rw [leasesOf_record]
    split
    · next he =>
      subst he
      refine List.isChain_append.mpr ⟨h.next _, List.isChain_singleton g, fun g₀ hg₀ g' hg' => ?_⟩
      cases hg'
      exact hnext g₀ hg₀
    · rw [List.append_nil]
      exact h.next k'
  · rw [leasesOf_record] at hg'
    rw [Sched.record_job, Sched.setJob_job]
    split at hg'
    · next he =>
      subst he
      rw [List.getLast?_append_of_ne_nil _ (by simp), List.getLast?_singleton] at hg'
      cases hg'
      exact ⟨r, by rw [if_pos rfl], hres hc⟩
    · next he =>
      rw [List.append_nil] at hg'
      rw [if_neg (Ne.symm he)]
      exact h.last k' g' hg' hc

/-- Two records of one lease ID are the same. -/
theorem grant_unique {g g' : Grant} (hg : g ∈ v.grants) (hg' : g' ∈ v.grants)
    (hid : g.leaseID = g'.leaseID) : g = g' :=
  List.inj_on_of_nodup_map h.ids hg hg' hid

/-- Who holds the lease of a claim reschedules to its route. -/
theorem rescheduled {k : JobKey} {r : JobRow} {g : Grant} {L w : String}
    {req : RescheduleExecutionRequest} {task : Option TaskWait} {now : Time}
    (stored : v.job k = some r) (held : LeaseHeld r L w now) (hP : WorkerOrClaim v L req task)
    (hg : (leasesOf v k).getLast? = some g) (hc : g.claim ≠ none) :
    req.nextRoute = g.route ∧ req.alternateRoute = none ∧ task = none := by
  obtain ⟨g₀, hg₀, hL⟩ := h.holder k r L stored held.id.1
  cases hg₀.symm.trans hg
  have hmem := mem_of_last hg
  rcases hP with ⟨g', hg', hL', hnone⟩ | ⟨⟨g', hg', hL', hroute, _⟩, halt, htask⟩
  · rw [h.grant_unique hg' hmem (hL'.trans hL.symm)] at hnone
    exact absurd hnone hc
  · rw [h.grant_unique hg' hmem (hL'.trans hL.symm)] at hroute
    exact ⟨hroute.symm, halt, htask⟩

theorem rowChange {k : JobKey} {r r' : JobRow} (stored : v.job k = some r)
    (change : RowChange v.now (WorkerOrClaim v) r r') : Resumes H (v.setJob k r') := by
  cases change with
  | extended held ns u =>
    exact h.setJob stored (fun _ hL => hL) fun g _ _ hr => ⟨hr.route, hr.taskWait, hr.alternate⟩
  | completed =>
    exact h.setJob stored (fun _ hL => nomatch hL) fun g _ _ hr =>
      ⟨hr.route, hr.taskWait, rfl, rfl⟩
  | rescheduled held waitID value revision req task t hP =>
    refine h.setJob stored (fun _ hL => nomatch hL) fun g hg hc hr => ?_
    obtain ⟨hroute, halt, htask⟩ := h.rescheduled stored held hP hg hc
    refine ⟨hroute, htask, halt, ?_⟩
    unfold JobRow.rescheduled
    rw [halt]
    rfl
  | cancelled =>
    exact h.setJob stored (fun _ hL => nomatch hL) fun g _ _ hr =>
      ⟨hr.route, hr.taskWait, hr.alternate⟩
  | deleted =>
    exact h.setJob stored (fun _ hL => nomatch hL) fun g _ _ hr =>
      ⟨hr.route, hr.taskWait, hr.alternate⟩
  | cleared =>
    exact h.setJob stored (fun _ hL => hL) fun g _ _ hr => ⟨hr.route, hr.taskWait, hr.alternate⟩

end Resumes

theorem Effect.resumes {H : Host} {i : Nat} {v v' : Sched} (h : Effect H i WorkerOrClaim v v') :
    Resumes H v → Resumes H v' := by
  induction h with
  | same => exact id
  | tick => exact fun hr => hr.unrelated _ _
  | row stored change => exact fun hr => hr.rowChange stored change
  | @granted v k r lease stored hid route =>
    intro hr
    refine hr.record rfl hid rfl (fun tw h => nomatch h) (fun g₀ hg₀ hc => ?_)
      fun h => absurd rfl h
    obtain ⟨r₀, hr₀, hres⟩ := hr.last k g₀ hg₀ hc
    cases hr₀.symm.trans stored
    -- a row without an alternate route is leased for its route
    unfold effectiveNextRoute at route
    rw [hres.alternate.1] at route
    rw [route]
    exact hres.route
  | @claimed v k r lease policy tw stored waiting hid route =>
    intro hr
    refine hr.record rfl hid rfl (fun tw' h => ?_) (fun g₀ hg₀ hc => ?_)
      fun _ => ⟨rfl, rfl, rfl, rfl⟩
    · cases h
      exact route
    · -- after a claim there is no task wait that could be claimed
      obtain ⟨r₀, hr₀, hres⟩ := hr.last k g₀ hg₀ hc
      cases hr₀.symm.trans stored
      exact nomatch waiting.symm.trans hres.taskWait
  | @inserted v p t absent =>
    intro hr
    refine ⟨hr.drawn, hr.ids, fun k r L hr' hL => ?_, hr.claims, hr.next, fun k g hg hc => ?_⟩
    · rw [Sched.setJob_job] at hr'
      split at hr'
      · cases hr'
        cases hL
      · exact hr.holder k r L hr' hL
    · obtain ⟨r, hr', hres⟩ := hr.last k g hg hc
      rw [Sched.setJob_job, if_neg (fun he => nomatch (he ▸ hr').symm.trans absent)]
      exact ⟨r, hr', hres⟩
  | appended => exact fun hr => hr.unrelated _ _
  | @payloadFailed v k r st ch job stored _ _ message t =>
    intro hr
    have hstory := hr.unrelated
      (v.setStory k { st with chapters := st.chapters ++ [ch] }).story v.now
    refine hstory.setJob job (fun _ hL => nomatch hL) fun g hg hc hres => ?_
    obtain ⟨tw, htw⟩ := Option.ne_none_iff_exists'.mp hc
    have hroute := hr.claims g (mem_of_last hg) tw htw
    refine ⟨?_, rfl, rfl, rfl⟩
    show ({ r.nextRoute with taskType := "" } : Route) = g.route
    rw [hres.route, hroute]
  | created => exact fun hr => hr.unrelated _ _
  | linked => exact fun hr => hr.unrelated _ _
  | chain _ _ ih₁ ih₂ => exact fun hr => ih₂ (ih₁ hr)

theorem resumes_empty (H : Host) (t : Time) : Resumes H ({ now := t } : State).sched where
  drawn _ h := nomatch h
  ids := .nil
  holder _ _ _ h := nomatch h
  claims _ h := nomatch h
  next _ := .nil
  last _ _ h := nomatch h

theorem workers_sound (H : Host) :
    (workers H).Sound (fun s => Ready s.sched ∧ Resumes H s.sched)
      (fun s s' => Grows s.sched s'.sched)
      (fun i _ s s' => Effect H i WorkerOrClaim s.sched s'.sched)
      (fun i c r s => ∀ leases, r = .ok leases → Answer H i c s.sched) := by
  refine (calls_sound rfl rfl permits_workerOrClaim fun _ _ => workers_meets).strengthen
    (fun _ _ _ _ _ hr he => he.resumes hr) fun s s' _ hr h => ?_
  obtain ⟨t, _, rfl⟩ := h
  exact hr.unrelated _ _

/-- **Commit if waiting.** Start with an empty database and let calls of all kinds
run interleaved, and stop, in any way.

* Of the calls of `CompleteTaskIfWaiting` for one job and one output ordinal, so in
  particular for one task wait, at most one has reported success.
* If one has, there is one chapter at the output ordinal, and that call wrote it.
* While the last lease of a job is that of a claim, the job's row has the job-only
  route of the wait's resuming job type, no task wait and no alternate route.
* The lease after a claim goes to the resuming job type. -/
theorem commit_if_waiting (H : Host) (t₀ : Time) {ls : List (System.Label Request)}
    {p : Calls}
    (h : Along (workers H).Step ls ⟨{ now := t₀ }, []⟩ p) :
    (∀ i j req req' out out', p.Answered i (.completeTaskIfWaiting req) (.ok out) →
      p.Answered j (.completeTaskIfWaiting req') (.ok out') →
      req.jobKey = req'.jobKey → req.outputOrdinal = req'.outputOrdinal → i = j) ∧
    (∀ i req out, p.Answered i (.completeTaskIfWaiting req) (.ok out) →
      ∃ st ch, p.shared.stories.lookup req.jobKey = some st ∧
        st.chapters.filter (·.ordinal = req.outputOrdinal) = [ch] ∧ ch.writer = i) ∧
    (∀ k g tw, (leasesOf p.shared.sched k).getLast? = some g → g.claim = some tw →
      ∃ r, p.shared.jobs.lookup k = some r ∧ Resuming { jobType := tw.resumeJobType } r) ∧
    ∀ k, (leasesOf p.shared.sched k).IsChain fun g g' =>
      ∀ tw, g.claim = some tw → g'.route = { jobType := tw.resumeJobType } := by
  obtain ⟨hok, _⟩ := (workers_sound H).run h (.start ⟨ready_empty t₀, resumes_empty H t₀⟩)
  obtain ⟨hready, hres⟩ := hok.inv
  refine ⟨fun i j req req' out out' hi hj hkey hord => ?_, fun i req out hi => ?_,
    fun k g tw hg hc => ?_, fun k => ?_⟩
  · obtain ⟨_, _, _, _, body, artifacts, _, hw⟩ := hok.answer hi out rfl
    obtain ⟨_, _, _, _, body', artifacts', _, hw'⟩ := hok.answer hj out' rfl
    rw [← hkey, ← hord] at hw'
    exact congrArg StoredChapter.writer (hw.unique hw')
  · obtain ⟨_, _, _, _, body, artifacts, _, l, hl, hch⟩ := hok.answer hi out rfl
    obtain ⟨st, hst, rfl⟩ := Option.map_eq_some_iff.mp hl
    exact ⟨st, _, hst, (hready.numbered _ _ hl).filter_eq hch, rfl⟩
  · obtain ⟨r, hr, hrow⟩ := hres.last k g hg (by simp [hc])
    rw [hres.claims g (mem_of_last hg) tw hc] at hrow
    exact ⟨r, hr, hrow⟩
  · refine (hres.next k).imp_of_mem_imp fun g g' hg _ hnext tw hc => ?_
    rw [hnext (by simp [hc]), hres.claims g (List.mem_filter.mp hg).1 tw hc]

/-! ### A task's result -/

/-- The wait of the job `j` for the task `review`. -/
def reviewWait : RescheduleExecutionRequest where
  nextRoute := { jobType := "work", taskType := "review" }
  taskWait :=
    some { inputOrdinal := 0, outputOrdinal := 1, inputHash := "h", resumeJobType := "work" }

/-- The result of the task. -/
def reviewResult : CompleteTaskIfWaitingRequest where
  jobKey := ⟨"t", "j"⟩
  route := { jobType := "work", taskType := "review" }
  outputOrdinal := 1
  data := "fine"

/-- The job is submitted, leased and sent to wait; the result comes in. -/
def reviewDone : Calls :=
  [.call (.submit { job := sampleJob, initial := some ("input", []) }),
    .run 0, .run 0, .run 0, .run 0, .run 0,
    .call (.getJobLease (leaseRequest "w") .start), .run 1,
    .call (.reschedule none ⟨"t", "j"⟩ "x" "w" reviewWait), .run 2, .run 2, .run 2,
    .call (.completeTaskIfWaiting reviewResult),
    .run 3, .run 3, .run 3, .run 3, .run 3, .run 3, .run 3, .run 3, .run 3, .run 3, .run 3,
    .run 3].foldl (workers .accepting).drive ⟨{ now := 1 }, []⟩

theorem commit_if_waiting_review :
    reviewDone.Answered 3 (.completeTaskIfWaiting reviewResult) (.ok []) ∧
      ∃ st ch, reviewDone.shared.stories.lookup ⟨"t", "j"⟩ = some st ∧
        st.chapters.filter (·.ordinal = 1) = [ch] ∧ ch.writer = 3 := by
  obtain ⟨ls, h⟩ : ∃ ls, Along (workers .accepting).Step ls ⟨{ now := 1 }, []⟩ reviewDone := by
    refine System.drive_along ⟨trivial, trivial, trivial, trivial, trivial, trivial, trivial,
      trivial, ?_, by trivial⟩
    exact ⟨⟨⟨"t", "j"⟩, "x", "w", { jobType := "work" }, none⟩, by decide, rfl, rfl⟩
  have hanswer : reviewDone.Answered 3 (.completeTaskIfWaiting reviewResult) (.ok []) := rfl
  exact ⟨hanswer, (commit_if_waiting .accepting 1 h).2.1 3 reviewResult [] hanswer⟩

end JobDB.Sqlite
