import JobDB.Runtime.PollWork
import JobDB.Sqlite.Effects
import JobDB.Sqlite.ListJobs
import JobDB.Sqlite.Runtime

/-!
# Jobs that a poll can lease in SQLite

Whether a job can be leased is written twice: in the query of a listing, over columns of
nanoseconds (`sqlite/list_jobs.go`), and in the loop of `acquireOneLease`, over instants
(`sqlite/runtime.go`, `sqlite/scheduler.go`).

* `listStatus_eq` and `effectiveRoute_eq`: the two agree on a row, for a clock after 1970;
* `Leasable` is what the loop asks of a row, and `acquired_of_ok` what taking a lease does: it
  makes no other row leasable and keeps none from being so;
* `pollOnce_leases_open` and `pollOnce_leases_all`: a poll leases only rows that were leasable
  when it began, and with a limit that is large enough it leases all of them.
-/

namespace JobDB.Sqlite

open scoped List

/-! ## A row in the listing and in the poll -/

/-- The status as a listing shows it. -/
def JobStatus.shown : JobStatus → JobDB.JobStatus
  | .ready => .ready
  | .pendingJobs => .pendingJobs
  | .awaitingFuture => .awaitingFuture
  | .active => .active
  | .crashConcern => .crashConcern
  | .cancelled => .cancelled
  | .completed => .completed

theorem JobStatus.shown_eq_ready {status : JobStatus} :
    status.shown = .ready ↔ status = .ready := by
  cases status <;> simp [shown]

theorem not_lt_zeroTime {now : Time} (h : 0 ≤ now) : ¬ now < Time.zero := by
  have hneg : Time.zero < 0 := by decide
  exact fun hlt => absurd (hlt.trans hneg) (not_lt.2 h)

/-- After 1970 it does not matter that the column 0 stands for the zero time. -/
theorem lt_timeFromNS {now ns : Int} (h : 0 ≤ now) : now < timeFromNS ns ↔ now < ns := by
  unfold timeFromNS
  by_cases hzero : ns = 0
  · rw [if_pos hzero, hzero]
    exact iff_of_false (not_lt_zeroTime h) (not_lt.2 h)
  · rw [if_neg hzero]

theorem timeFromNS_le {now ns : Int} (h : 0 ≤ now) : timeFromNS ns ≤ now ↔ ns ≤ now := by
  rw [← not_lt, lt_timeFromNS h, not_lt]

/-- An instant that fits into 64 bits has its nanoseconds. -/
theorem unixNano_of_range {t : Int} (hlow : -2 ^ 63 ≤ t) (hhigh : t < 2 ^ 63) : unixNano t = t := by
  unfold unixNano
  exact Int.bmod_eq_of_le (by omega) (by omega)

theorem unixNano_of_fits {t : Int} (hlow : 0 ≤ t) (hhigh : t < 2 ^ 63) : unixNano t = t :=
  unixNano_of_range (by omega) hhigh

theorem timeToNS_of_fits {t : Int} (hlow : 0 ≤ t) (hhigh : t < 2 ^ 63) : timeToNS t = t := by
  unfold timeToNS
  rw [if_neg, unixNano_of_fits hlow hhigh]
  rintro rfl
  exact absurd hlow (by decide)

section Row

variable {s : State} {now : Int} {r : JobRow}

theorem effectiveRoute_eq (h : 0 ≤ now) : effectiveRoute now r = (effectiveNextRoute r now).1 := by
  unfold effectiveRoute effectiveNextRoute
  cases r.alternateRoute with
  | none => rfl
  | some route =>
    cases r.alternateAtNS with
    | none => rfl
    | some ns =>
      by_cases hns : ns ≤ now
      · simp [hns, (timeFromNS_le h).2 hns]
      · simp [hns, mt (timeFromNS_le h).1 hns]

theorem waitsForJob_eq : waitsForJob s r = !dependenciesReady s r.tenantID r.waitFor := by
  unfold waitsForJob dependenciesReady
  rw [List.not_all_eq_any_not]
  congr 1
  funext id
  by_cases hid : id = ""
  · simp [hid]
  · cases s.jobs.lookup ⟨r.tenantID, id⟩ with
    | none => simp [hid]
    | some dep => cases dep.archivedAtNS <;> simp [hid]

theorem listWaitPending_eq (h : r.dependencyWaitID ≠ "") :
    listWaitPending (joinedWait s r) now = (structuredWaitReady s r now).map (!·) := by
  unfold listWaitPending joinedWait structuredWaitReady
  rw [if_neg h]
  cases s.waits.lookup ⟨r.key, r.dependencyWaitID⟩ with
  | none => rfl
  | some w =>
    have hexpired : w.payload.deadline.all (now < ·.instant) = !w.payload.expired now := by
      unfold DependencyWaitInfo.expired
      cases w.payload.deadline with
      | none => rfl
      | some d =>
        by_cases hd : d.instant ≤ now
        · simp [hd, not_lt.2 hd]
        · simp [hd, not_le.1 hd]
    simp only [Except.map, hexpired]
    congr 1
    by_cases hp : w.payload.state = .pending <;> simp [hp]

theorem listStatusIdle_eq (h : 0 ≤ now) :
    Except.ok (listStatusIdle s now r) = Except.map JobStatus.shown
      (if !dependenciesReady s r.tenantID r.waitFor ∧
          r.waitDeadlineNS.all (fun ns => now < timeFromNS ns) then .ok .pendingJobs
        else if timeFromNS r.availableAtNS ≠ Time.zero ∧ now < timeFromNS r.availableAtNS then
          .ok .awaitingFuture
        else if crashConcernThreshold ≤ r.consecutiveExpirations then .ok .crashConcern
        else .ok .ready : Except Err JobStatus) := by
  have hdeadline : r.waitDeadlineNS.all (fun ns => decide (now < timeFromNS ns)) =
      r.waitDeadlineNS.all fun ns => decide (now < ns) := by
    simp only [lt_timeFromNS h]
  have havailable : (timeFromNS r.availableAtNS ≠ Time.zero ∧ now < timeFromNS r.availableAtNS) ↔
      now < r.availableAtNS := by
    refine ⟨fun hboth => (lt_timeFromNS h).1 hboth.2, fun hlt => ?_⟩
    have hafter : now < timeFromNS r.availableAtNS := (lt_timeFromNS h).2 hlt
    refine ⟨fun hzero => ?_, hafter⟩
    rw [hzero] at hafter
    exact not_lt_zeroTime h hafter
  unfold listStatusIdle
  rw [hdeadline, waitsForJob_eq]
  simp only [havailable, and_comm]
  split
  · rfl
  · split
    · rfl
    · split <;> rfl

/-- The status in the listing's query is the one that the poll computes. -/
theorem listStatus_eq (h : 0 ≤ now) :
    listStatus s now r = (statusFromRow s r now).map JobStatus.shown := by
  unfold listStatus statusFromRow
  by_cases harchived : r.archivedAtNS.isSome
  · rw [if_pos harchived, if_pos harchived]
    split <;> rfl
  rw [if_neg harchived, if_neg harchived]
  by_cases hcancel : r.cancelRequested
  · rw [if_pos hcancel, if_pos hcancel]
    rfl
  rw [if_neg hcancel, if_neg hcancel]
  have hlease : (r.leaseID.getD "" ≠ "" ∧ r.leaseExpiresAtNS.any (now < ·) = true) ↔
      (r.leaseID.any (· ≠ "") = true ∧
        r.leaseExpiresAtNS.any (fun ns => now < timeFromNS ns) = true) := by
    have hid : r.leaseID.getD "" ≠ "" ↔ r.leaseID.any (· ≠ "") = true := by
      cases r.leaseID <;> simp
    have hexpires : r.leaseExpiresAtNS.any (fun ns => decide (now < timeFromNS ns)) =
        r.leaseExpiresAtNS.any fun ns => decide (now < ns) := by
      simp only [lt_timeFromNS h]
    rw [hid, hexpires]
  by_cases hactive : r.leaseID.any (· ≠ "") = true ∧
      r.leaseExpiresAtNS.any (fun ns => now < timeFromNS ns) = true
  · rw [if_pos (hlease.2 hactive), if_pos hactive]
    rfl
  rw [if_neg (mt hlease.1 hactive), if_neg hactive]
  by_cases hwait : r.dependencyWaitID = ""
  · rw [if_pos hwait]
    unfold structuredWaitReady
    rw [if_pos hwait]
    exact listStatusIdle_eq h
  · rw [if_neg hwait, listWaitPending_eq hwait]
    cases structuredWaitReady s r now with
    | error e => rfl
    | ok ready =>
      cases ready with
      | false => rfl
      | true => exact listStatusIdle_eq h

/-- Neither an archived job nor a cancelled one is ready. -/
theorem live_of_ready (h : statusFromRow s r now = .ok .ready) :
    r.archivedAtNS = none ∧ r.cancelRequested = false := by
  unfold statusFromRow at h
  split at h
  · split at h <;> cases h
  split at h
  · cases h
  next harchived hcancel => exact ⟨by simpa using harchived, by simpa using hcancel⟩

/-- The status of a row is read off the waits and off which jobs are archived. -/
theorem statusFromRow_congr {s' : State} (hwaits : s'.waits = s.waits)
    (harchived : ∀ k,
      (s'.jobs.lookup k).map (·.archivedAtNS) = (s.jobs.lookup k).map (·.archivedAtNS)) :
    statusFromRow s' r now = statusFromRow s r now := by
  have hready :
      dependenciesReady s' r.tenantID r.waitFor = dependenciesReady s r.tenantID r.waitFor := by
    unfold dependenciesReady
    congr 1
    funext id
    have hid := harchived ⟨r.tenantID, id⟩
    cases h : s.jobs.lookup ⟨r.tenantID, id⟩ with
    | none =>
      rw [h, Option.map_none, Option.map_eq_none_iff] at hid
      rw [hid]
    | some dep =>
      rw [h, Option.map_some] at hid
      obtain ⟨dep', hdep', heq⟩ := Option.map_eq_some_iff.1 hid
      rw [hdep']
      show (_ || dep'.archivedAtNS.isSome) = _
      rw [heq]
  unfold statusFromRow structuredWaitReady
  rw [hwaits, hready]

end Row

/-! ## The loop of `acquireOneLease` -/

/-- What the loop asks of a row. -/
structure Leasable (s : State) (req : PollWorkRequest) (row : JobRow) : Prop where
  tenant : row.tenantID = req.tenantId
  allowed : req.allowed row.cell = true
  route : (effectiveNextRoute row s.now).1 ∈ req.routes.filter (·.jobType ≠ "")
  ready : statusFromRow s row s.now = .ok .ready
  found : req.metadataMatches row.metadata = .ok true

section Pick

variable {s : State} {req : PollWorkRequest} {row : JobRow} {rows : List JobRow}

theorem map_decide_eq_true {x : Except Err JobStatus} {status : JobStatus} :
    (x.map fun y => decide (y = status)) = .ok true ↔ x = .ok status := by
  cases x <;> simp [Except.map]

theorem pickTest_eq_true : pickTest s req row = .ok true ↔ Leasable s req row := by
  unfold pickTest
  rw [allHold_eq_true]
  simp only [List.forall_mem_cons, List.not_mem_nil, false_implies, implies_true, and_true,
    map_decide_eq_true, Except.ok.injEq, decide_eq_true_eq, Bool.and_eq_true, Bool.not_eq_true']
  constructor
  · rintro ⟨⟨htenant, hallowed⟩, -, hroute, hready, hfound⟩
    exact ⟨htenant, hallowed, hroute, hready, hfound⟩
  · rintro ⟨htenant, hallowed, hroute, hready, hfound⟩
    exact ⟨⟨htenant, hallowed⟩, (live_of_ready hready).2, hroute, hready, hfound⟩

/-- A row that is picked is one of the rows, and it can be leased. -/
theorem leasable_of_pickRow (h : pickRow s req rows = .ok (some row)) :
    row ∈ rows ∧ Leasable s req row := (pickRow_eq_some h).imp_right pickTest_eq_true.1

/-- If no row is picked, none of them can be leased. -/
theorem not_leasable_of_pickRow (h : pickRow s req rows = .ok none) :
    ∀ r ∈ rows, ¬ Leasable s req r := by
  induction rows with
  | nil => intro r hr; cases hr
  | cons r rows ih =>
    rw [pickRow_cons] at h
    obtain ⟨b, hb, h⟩ := bind_eq_ok.1 h
    cases b with
    | true => cases h
    | false =>
      intro r' hr' hleasable
      obtain rfl | hr' := List.mem_cons.1 hr'
      · rw [pickTest_eq_true.2 hleasable] at hb
        cases hb
      · exact ih h r' hr' hleasable

/-- Where every test has a value, the loop does not fail. -/
theorem pickRow_ok (h : ∀ r ∈ rows, ∃ b, pickTest s req r = .ok b) :
    ∃ picked, pickRow s req rows = .ok picked := by
  induction rows with
  | nil => exact ⟨none, rfl⟩
  | cons r rows ih =>
    obtain ⟨b, hb⟩ := h r List.mem_cons_self
    obtain ⟨picked, hpicked⟩ := ih fun r' hr' => h r' (List.mem_cons_of_mem r hr')
    rw [pickRow_cons, hb]
    cases b with
    | true => exact ⟨some r, rfl⟩
    | false => exact ⟨picked, hpicked⟩

end Pick

/-! ## Taking a lease -/

theorem leaseDurationOrDefault_pos (d : Int) : 0 < leaseDurationOrDefault d := by
  unfold leaseDurationOrDefault
  split <;> omega

/-- The job of the key can be leased. -/
def Open (s : State) (req : PollWorkRequest) (k : JobKey) : Prop :=
  ∃ row, s.jobs.lookup k = some row ∧ Leasable s req row

/-- What taking a lease on a row does: the row keeps its place and gets the lease, and nothing
else that a poll reads changes. -/
structure Acquired (req : PollWorkRequest) (s s' : State) (row row' : JobRow) : Prop where
  stored : s.jobs.lookup row.key = some row
  leasable : Leasable s req row
  lookup : ∀ k, s'.jobs.lookup k = if k = row.key then some row' else s.jobs.lookup k
  now : s'.now = s.now
  waits : s'.waits = s.waits
  key : row'.key = row.key
  live : row'.archivedAtNS = none ∧ row'.cancelRequested = false
  leaseID : row'.leaseID.any (· ≠ "") = true
  expires : row'.leaseExpiresAtNS =
    some (timeToNS (s.now + leaseDurationOrDefault req.leaseDuration))

section Acquire

variable {H : Host} {s s' : State} {req : PollWorkRequest}

theorem updateJob_of_lookup {k : JobKey} {r : JobRow} (h : s.jobs.lookup k = some r)
    (f : JobRow → JobRow) : s.updateJob k f = { s with jobs := s.jobs.insert k (f r) } := by
  unfold State.updateJob
  rw [h]

/-- A poll's transaction takes a lease on a row that can be leased. -/
theorem acquired_of_ok {l : Lease} (hk : Keyed s.sched)
    (h : acquireOneLeaseTx H req s = .ok (some l, s')) :
    ∃ row row', l.jobKey = row.key ∧ Acquired req s s' row row' := by
  obtain ⟨picked, hpick, hgrant⟩ := Tx.read_bind_eq_ok.1 h
  cases picked with
  | none =>
    obtain ⟨hnone, -⟩ := Tx.pure_eq_ok.1 hgrant
    cases hnone
  | some row =>
    obtain ⟨hmem, hleasable⟩ := leasable_of_pickRow hpick
    obtain ⟨hstored, -⟩ := (mem_activeRows hk).1 hmem
    obtain ⟨hlive, hwanted⟩ := live_of_ready hleasable.ready
    obtain ⟨lease, hlease, hl⟩ := Tx.bind_pure_eq_ok.1 hgrant
    obtain rfl := Option.some.inj hl
    have hinstall := clock_bind_eq_ok.1 hlease
    unfold install at hinstall
    dsimp only at hinstall
    rw [updateJob_of_lookup hstored] at hinstall
    cases hinstall
    refine ⟨row, _, rfl, hstored, hleasable, fun k => Table.lookup_insert_eq .., rfl, rfl, ?_, ?_,
      ?_, rfl⟩
    · split <;> rfl
    · split <;> exact ⟨hlive, hwanted⟩
    · simp [JobRow.leased, H.ksuid_ne_empty]

/-- If the transaction takes no lease, no job can be leased. -/
theorem not_open_of_none (hk : Keyed s.sched) (h : acquireOneLeaseTx H req s = .ok (none, s'))
    (k : JobKey) : ¬ Open s req k := by
  obtain ⟨picked, hpick, hgrant⟩ := Tx.read_bind_eq_ok.1 h
  cases picked with
  | none =>
    rintro ⟨row, hlookup, hleasable⟩
    obtain rfl : row.key = k := hk k row hlookup
    exact not_leasable_of_pickRow hpick row
      ((mem_activeRows hk).2 ⟨hlookup, (live_of_ready hleasable.ready).1⟩) hleasable
  | some row =>
    obtain ⟨lease, -, hl⟩ := Tx.bind_pure_eq_ok.1 hgrant
    cases hl

end Acquire

namespace Acquired

variable {s s' : State} {req : PollWorkRequest} {row row' : JobRow}

theorem keyed (h : Acquired req s s' row row') (hk : Keyed s.sched) : Keyed s'.sched := by
  intro k r hr
  have hlookup : s'.jobs.lookup k = some r := hr
  rw [h.lookup] at hlookup
  split at hlookup
  · next heq =>
    obtain rfl := Option.some.inj hlookup
    rw [heq]
    exact h.key
  · exact hk k r hlookup

theorem statusFromRow_eq (h : Acquired req s s' row row') (r : JobRow) :
    statusFromRow s' r s'.now = statusFromRow s r s.now := by
  rw [h.now]
  refine statusFromRow_congr h.waits fun k => ?_
  rw [h.lookup]
  split
  · next heq =>
    subst heq
    rw [h.stored, Option.map_some, Option.map_some, h.live.1, (live_of_ready h.leasable.ready).1]
  · rfl

theorem pickTest_eq (h : Acquired req s s' row row') (r : JobRow) :
    pickTest s' req r = pickTest s req r := by
  unfold pickTest
  rw [h.statusFromRow_eq, h.now]

theorem leasable_iff (h : Acquired req s s' row row') (r : JobRow) :
    Leasable s' req r ↔ Leasable s req r := by
  rw [← pickTest_eq_true, ← pickTest_eq_true, h.pickTest_eq]

/-- Taking a lease makes no job leasable. -/
theorem open_before (h : Acquired req s s' row row') {k : JobKey} (ho : Open s' req k) :
    Open s req k := by
  obtain ⟨r, hlookup, hleasable⟩ := ho
  rw [h.lookup] at hlookup
  split at hlookup
  · next heq =>
    rw [heq]
    exact ⟨row, h.stored, h.leasable⟩
  · exact ⟨r, hlookup, (h.leasable_iff r).1 hleasable⟩

/-- The lease runs from now on, if its end can be stored. -/
theorem active (h : Acquired req s s' row row') (hnow : 0 ≤ s.now)
    (hfits : s.now + leaseDurationOrDefault req.leaseDuration < 2 ^ 63) :
    statusFromRow s row' s.now = .ok .active := by
  have hduration : 0 < leaseDurationOrDefault req.leaseDuration := leaseDurationOrDefault_pos _
  have hexpires : timeToNS (s.now + leaseDurationOrDefault req.leaseDuration) =
      s.now + leaseDurationOrDefault req.leaseDuration :=
    timeToNS_of_fits (Int.add_nonneg hnow (le_of_lt hduration)) hfits
  have hrunning : row'.leaseExpiresAtNS.any (fun ns => s.now < timeFromNS ns) = true := by
    rw [h.expires, hexpires, Option.any_some, decide_eq_true_eq, lt_timeFromNS hnow]
    exact Int.lt_add_of_pos_right _ hduration
  unfold statusFromRow
  rw [if_neg (by simp [h.live.1]), if_neg (by simp [h.live.2]), if_pos ⟨h.leaseID, hrunning⟩]

/-- Then just the job that was taken can no longer be leased. -/
theorem open_iff (h : Acquired req s s' row row') (hnow : 0 ≤ s.now)
    (hfits : s.now + leaseDurationOrDefault req.leaseDuration < 2 ^ 63) (k : JobKey) :
    Open s' req k ↔ Open s req k ∧ k ≠ row.key := by
  constructor
  · intro ho
    refine ⟨h.open_before ho, ?_⟩
    rintro rfl
    obtain ⟨r, hlookup, hleasable⟩ := ho
    rw [h.lookup, if_pos rfl] at hlookup
    obtain rfl := Option.some.inj hlookup
    have hready := ((h.leasable_iff row').1 hleasable).ready
    rw [h.active hnow hfits] at hready
    cases hready
  · rintro ⟨⟨r, hlookup, hleasable⟩, hne⟩
    refine ⟨r, ?_, (h.leasable_iff r).2 hleasable⟩
    rw [h.lookup, if_neg hne]
    exact hlookup

end Acquired

/-! ## A whole poll -/

/-- The tests of all active rows have values. -/
def Evaluates (s : State) (req : PollWorkRequest) : Prop :=
  ∀ k row, s.jobs.lookup k = some row → row.archivedAtNS = none → ∃ b, pickTest s req row = .ok b

section Poll

variable {H : Host} {req : PollWorkRequest} {writer : Nat}

theorem acquireOneLeaseTx_ok {s : State} (hk : Keyed s.sched) (he : Evaluates s req) :
    ∃ l s', acquireOneLeaseTx H req s = .ok (l, s') := by
  have htests : ∀ r ∈ activeRows s, ∃ b, pickTest s req r = .ok b := fun r hr =>
    he r.key r ((mem_activeRows hk).1 hr).1 ((mem_activeRows hk).1 hr).2
  obtain ⟨picked, hpick⟩ := pickRow_ok htests
  cases picked with
  | none => exact ⟨none, s, Tx.read_bind_eq_ok.2 ⟨none, hpick, rfl⟩⟩
  | some row => exact ⟨_, _, Tx.read_bind_eq_ok.2 ⟨some row, hpick, rfl⟩⟩

theorem Acquired.evaluates {s s' : State} {row row' : JobRow} (h : Acquired req s s' row row')
    (hnow : 0 ≤ s.now) (hfits : s.now + leaseDurationOrDefault req.leaseDuration < 2 ^ 63)
    (he : Evaluates s req) : Evaluates s' req := by
  intro k r hlookup hlive
  rw [h.pickTest_eq]
  rw [h.lookup] at hlookup
  split at hlookup
  · obtain rfl := Option.some.inj hlookup
    unfold pickTest
    rw [h.active hnow hfits]
    exact allHold_cons_ok _ (allHold_cons_ok _ (allHold_cons_ok _ ⟨false, rfl⟩))
  · exact he k r hlookup hlive

/-- The schedule preflight lets every lease pass. -/
def passAll : Nat → Preflight := fun _ => .start

/-- One attempt of a poll that is left alone. -/
theorem alone_pollOnce {s s' : State} {budget : Nat} {out : List Lease} {l : Option Lease}
    (hroom : ¬ (if req.limit ≤ 0 then 1 else req.limit) ≤ out.length)
    (h : acquireOneLeaseTx H req s = .ok (l, s')) :
    Proc.alone (pollOnce H writer req passAll (budget + 1) out) s =
      match l with
      | none => (.ok out, s')
      | some lease => Proc.alone (pollOnce H writer req passAll budget (out ++ [lease])) s' := by
  conv_lhs => unfold pollOnce
  rw [if_neg hroom, Call.alone_tx_bind h]
  cases l <;> rfl

/-- A poll leases only jobs that could be leased when it began. -/
theorem pollOnce_leases_open {budget : Nat} {out leases : List Lease} {s s' : State}
    (hk : Keyed s.sched)
    (h : Proc.alone (pollOnce H writer req passAll budget out) s = (.ok leases, s')) :
    ∀ l ∈ leases, l ∈ out ∨ Open s req l.jobKey := by
  induction budget generalizing out s with
  | zero =>
    cases h
    exact fun l hl => .inl hl
  | succ budget ih =>
    by_cases hroom : (if req.limit ≤ 0 then 1 else req.limit) ≤ out.length
    · unfold pollOnce at h
      rw [if_pos hroom] at h
      cases h
      exact fun l hl => .inl hl
    cases hacquire : acquireOneLeaseTx H req s with
    | error e =>
      unfold pollOnce at h
      rw [if_neg hroom, Call.alone_tx_bind_error hacquire] at h
      cases h
    | ok p =>
      obtain ⟨found, s₁⟩ := p
      rw [alone_pollOnce hroom hacquire] at h
      cases found with
      | none =>
        cases h
        exact fun l hl => .inl hl
      | some lease =>
        obtain ⟨row, row', hkey, hacquired⟩ := acquired_of_ok hk hacquire
        intro l hl
        obtain hout | hopen := ih (hacquired.keyed hk) h l hl
        · obtain hout | hlast := List.mem_append.1 hout
          · exact .inl hout
          · obtain rfl := List.mem_singleton.1 hlast
            right
            rw [hkey]
            exact ⟨row, hacquired.stored, hacquired.leasable⟩
        · exact .inr (hacquired.open_before hopen)

/-- A poll with room for all jobs that can be leased leases them all. -/
theorem pollOnce_leases_all {budget : Nat} {out : List Lease} {s : State} {ks : List JobKey}
    (hk : Keyed s.sched) (he : Evaluates s req) (hnow : 0 ≤ s.now)
    (hfits : s.now + leaseDurationOrDefault req.leaseDuration < 2 ^ 63) (hnodup : ks.Nodup)
    (hks : ∀ k, Open s req k ↔ k ∈ ks) (hbudget : ks.length < budget)
    (hlimit : out.length + ks.length < req.limit) :
    ∃ leases s', Proc.alone (pollOnce H writer req passAll budget out) s =
      (.ok (out ++ leases), s') ∧ ∀ k ∈ ks, k ∈ leases.map (·.jobKey) := by
  induction budget generalizing out s ks with
  | zero => exact absurd hbudget (Nat.not_lt_zero _)
  | succ budget ih =>
    have hroom : ¬ (if req.limit ≤ 0 then 1 else req.limit) ≤ out.length := by
      split <;> omega
    obtain ⟨found, s₁, hacquire⟩ := @acquireOneLeaseTx_ok H req s hk he
    rw [alone_pollOnce hroom hacquire]
    cases found with
    | none =>
      refine ⟨[], s₁, by rw [List.append_nil], fun k hmem => ?_⟩
      exact absurd ((hks k).2 hmem) (not_open_of_none hk hacquire k)
    | some lease =>
      obtain ⟨row, row', hkey, hacquired⟩ := acquired_of_ok hk hacquire
      have hmem : row.key ∈ ks := (hks row.key).1 ⟨row, hacquired.stored, hacquired.leasable⟩
      have hlength : (ks.erase row.key).length = ks.length - 1 := List.length_erase_of_mem hmem
      have hpos : 0 < ks.length := List.length_pos_of_mem hmem
      have hrest : ∀ k, Open s₁ req k ↔ k ∈ ks.erase row.key := by
        intro k
        rw [hacquired.open_iff hnow hfits, hks, hnodup.mem_erase_iff, and_comm]
      obtain ⟨leases, s₂, hrun, hall⟩ := @ih (out ++ [lease]) s₁ (ks.erase row.key)
        (hacquired.keyed hk) (hacquired.evaluates hnow hfits he) (hacquired.now ▸ hnow)
        (hacquired.now ▸ hfits) (hnodup.erase _) hrest (by omega)
        (by rw [List.length_append, List.length_singleton]; omega)
      refine ⟨lease :: leases, s₂, ?_, fun k hmemk => ?_⟩
      · rw [← List.append_cons] at hrun
        exact hrun
      · by_cases heq : k = row.key
        · rw [List.map_cons, hkey, heq]
          exact List.mem_cons_self
        · exact List.mem_cons_of_mem _ (hall k ((hnodup.mem_erase_iff).2 ⟨heq, hmemk⟩))

end Poll

/-! ## The call -/

/-- What `acquireOneLease` looks for, with the cells of the request's tenant. -/
def acquisition (L : ListLib) (ctx : Ctx) (cells : Registry) (req : WorkRequest) :
    Except Err PollWorkRequest := do
  let predicates ← normalizeMetadataPredicates req.metadataEquals
  let ids ← cells.select ctx req.tenantId req.cellNames "jobs.acquire"
  .ok
    { tenantId := req.tenantId
      routes := req.routes
      workerID := req.workerID
      limit := req.limit
      leaseDuration := req.leaseDuration
      allowed := fun cell => decide (cell.cellID ∈ ids) &&
        (cells.cells.lookup cell.cellID).any (·.state = .active)
      metadataMatches := fun metadata => metadataMatches L metadata predicates }

section Call

variable (L : ListLib) (H : Host) (ctx : Ctx) (db : ListDb)

/-- What a poll looks for: rows of active cells that the caller may take work from. -/
def pollRequest (req : WorkRequest) : Except Err PollWorkRequest :=
  acquisition L ctx (db.cells req.tenantId) req

/-- A poll for some routes; the schedule preflight lets its leases pass. -/
def pollRoutes (writer : Nat) (req : WorkRequest) : Except Err (List Lease) := do
  let poll ← pollRequest L ctx db req
  (Proc.alone (pollOnce H writer poll passAll (attemptBudget poll.limit) []) db.state).1

/-- `PollWork` at one instant. -/
def pollWorkNow (writer : Nat) (req : WorkRequest) : Except Err (List Lease) := do
  req.validate
  if req.routes = [] then .ok [] else pollRoutes L H ctx db writer req

end Call

/-- What holds of stored jobs. A job is hidden when it is deleted, which ends it; no job of a
retired cell goes on; cells have IDs; jobs were not created in the very instant that the column 0
stands for. -/
structure Stored (db : ListDb) : Prop where
  hidden_ended : ∀ k r, db.state.jobs.lookup k = some r → r.hiddenAtNS.isSome →
    r.archivedAtNS.isSome
  retired_ended : ∀ k r c, db.state.jobs.lookup k = some r →
    (db.cells r.tenantID).cells.lookup r.cell.cellID = some c → c.state ≠ .active →
    r.archivedAtNS.isSome ∨ r.cancelRequested
  cell_named : ∀ k r, db.state.jobs.lookup k = some r → r.cell.cellID ≠ ""
  created : ∀ k r, db.state.jobs.lookup k = some r → r.createdAtNS ≠ 0

section Agree

variable {L : ListLib} {H : Host} {ctx : Ctx} {db : ListDb} {tenant : String} {routes : List Route}
  {pageSize : Int}

/-- The row is listed: it is a visible row of the tenant, in a cell that the caller sees, and it is
ready for one of the routes. -/
structure Shown (ctx : Ctx) (db : ListDb) (tenant : String) (routes : List Route) (r : JobRow) :
    Prop where
  tenant : r.tenantID = tenant
  cell : (ctx.authority.bind (·.cells)).all (fun cells => cells r.cell.cellID) = true
  visible : r.hiddenAtNS = none
  ready : statusFromRow db.state r db.state.now = .ok .ready
  route : (effectiveNextRoute r db.state.now).1 ∈ routes

theorem selection_available {sel : Selection}
    (h : selection L ctx db (availableJobs tenant routes pageSize) = .ok sel) :
    sel = { predicates := [], active := true, archived := true, cells := none } := by
  obtain ⟨predicates, hpredicates, h⟩ := bind_eq_ok.1 h
  obtain rfl := Except.ok.inj hpredicates
  obtain ⟨normalized, hnormalized, h⟩ := bind_eq_ok.1 h
  obtain rfl := Except.ok.inj hnormalized
  obtain ⟨stores, hstores, h⟩ := bind_eq_ok.1 h
  obtain rfl := Except.ok.inj hstores
  obtain ⟨_, -, h⟩ := bind_eq_ok.1 h
  obtain ⟨cells, hcells, h⟩ := bind_eq_ok.1 h
  obtain rfl := Except.ok.inj hcells
  exact (Except.ok.inj h).symm

/-- The conditions of the listing on a row, for routes that are not empty. -/
theorem conditions_available (hroutes : routes ≠ []) (hnow : 0 ≤ db.state.now) (r : JobRow) :
    allHold (conditions L ctx db (availableJobs tenant routes pageSize)
        { predicates := [], active := true, archived := true, cells := none } db.state.now none r) =
      allHold
        [ .ok (decide (r.tenantID = tenant)),
          .ok ((ctx.authority.bind (·.cells)).all fun cells => cells r.cell.cellID),
          .ok r.hiddenAtNS.isNone,
          (statusFromRow db.state r db.state.now).map fun status =>
            decide (status = .ready) &&
              decide ((effectiveNextRoute r db.state.now).1 ∈ routes) ] := by
  have hstatus : ((listStatus db.state db.state.now r).map fun status =>
      decide (status = .ready) && decide (effectiveRoute db.state.now r ∈ routes)) =
      (statusFromRow db.state r db.state.now).map fun status =>
        decide (status = .ready) && decide ((effectiveNextRoute r db.state.now).1 ∈ routes) := by
    rw [listStatus_eq hnow, effectiveRoute_eq hnow]
    cases statusFromRow db.state r db.state.now with
    | error e => rfl
    | ok status => simp only [Except.map, JobStatus.shown_eq_ready]
  rw [← hstatus]
  -- The conditions that the request leaves out hold of every row.
  simp only [conditions, plainConditions, availableJobs, allHold, isIn, storeCondition,
    cellCondition, hroutes]
  simp
  rfl

/-- The rows of the listing. -/
theorem mem_matching_available (hroutes : routes ≠ []) (hnow : 0 ≤ db.state.now)
    (hfits : db.state.now < 2 ^ 63) {sel : Selection}
    (hsel : selection L ctx db (availableJobs tenant routes pageSize) = .ok sel) {r : JobRow} :
    r ∈ matching L ctx db db.state.now (availableJobs tenant routes pageSize) db.rows ↔
      r ∈ db.rows ∧ Shown ctx db tenant routes r := by
  obtain rfl := selection_available hsel
  unfold matching
  rw [hsel]
  dsimp only
  rw [List.mem_filter, unixNano_of_fits hnow hfits, conditions_available hroutes hnow]
  refine and_congr_right fun _ => ?_
  have hholds : ∀ c : Except Err Bool, holds c = true ↔ c = .ok true := by
    intro c
    cases c <;> simp [holds, Except.toOption]
  rw [hholds, allHold_eq_true]
  simp only [List.forall_mem_cons, List.not_mem_nil, false_implies, implies_true, and_true,
    Except.ok.injEq, decide_eq_true_eq]
  constructor
  · rintro ⟨htenant, hcell, hvisible, hstatus⟩
    obtain ⟨hready, hroute⟩ : statusFromRow db.state r db.state.now = .ok .ready ∧
        (effectiveNextRoute r db.state.now).1 ∈ routes := by
      cases hrow : statusFromRow db.state r db.state.now with
      | error e => rw [hrow] at hstatus; cases hstatus
      | ok status =>
        rw [hrow] at hstatus
        simpa [Except.map] using hstatus
    exact ⟨htenant, hcell, by simpa using hvisible, hready, hroute⟩
  · rintro ⟨htenant, hcell, hvisible, hready, hroute⟩
    exact ⟨htenant, hcell, by simp [hvisible], by simp [hready, hroute, Except.map]⟩

theorem mem_rows_of_lookup {k : JobKey} {r : JobRow} (h : db.state.jobs.lookup k = some r) :
    r ∈ db.rows :=
  List.mem_map.2 ⟨(k, r), Table.mem_rows.2 h, rfl⟩

/-- What a poll for the routes can lease is listed. -/
theorem shown_of_open (hstored : Stored db) {req : WorkRequest} {poll : PollWorkRequest}
    (hpoll : pollRequest L ctx db req = .ok poll) {k : JobKey} (h : Open db.state poll k) :
    ∃ r ∈ db.rows, r.key = k ∧ Shown ctx db req.tenantId req.routes r := by
  obtain ⟨r, hlookup, hleasable⟩ := h
  obtain ⟨predicates, -, hpoll⟩ := bind_eq_ok.1 hpoll
  obtain ⟨ids, hids, rfl⟩ := map_eq_ok.1 hpoll
  obtain ⟨htenant, hallowed, hroute, hready, -⟩ := hleasable
  refine ⟨r, mem_rows_of_lookup hlookup, db.keyed k r hlookup, htenant, ?_, ?_, hready, ?_⟩
  · have hmem : r.cell.cellID ∈ ids := by
      have hboth := Bool.and_eq_true_iff.1 hallowed
      simpa using hboth.1
    have hcell := Registry.authorized_of_mem_select hids hmem
    obtain ⟨_, hacquire, -⟩ := bind_eq_ok.1 hids
    exact (authorizeCell_iff hacquire (hstored.cell_named k r hlookup)).1 hcell
  · by_contra hhidden
    have hended := hstored.hidden_ended k r hlookup (Option.isSome_iff_ne_none.2 hhidden)
    rw [(live_of_ready hready).1] at hended
    cases hended
  · exact (List.mem_filter.1 hroute).1

/-- What the poll for the routes alone looks for. -/
structure PlainPoll (ctx : Ctx) (db : ListDb) (tenant : String) (routes : List Route)
    (poll : PollWorkRequest) : Prop where
  ofTenant : poll.tenantId = tenant
  forRoutes : poll.routes = routes
  found : ∀ metadata, poll.metadataMatches metadata = .ok true
  allowed : ∀ cell, poll.allowed cell = true ↔
    authorizeCell ctx tenant cell.cellID "jobs.acquire" = .ok () ∧
      ∃ c, (db.cells tenant).cells.lookup cell.cellID = some c ∧ c.state = .active

theorem pollRequest_plain (hacquire : authorizeCell ctx tenant "" "jobs.acquire" = .ok ())
    (limit : Int) :
    ∃ poll, pollRequest L ctx db (WorkRequest.plain tenant routes limit) = .ok poll ∧
      poll.limit = limit ∧ poll.leaseDuration = 1 ∧ PlainPoll ctx db tenant routes poll := by
  refine ⟨_, bind_eq_ok.2 ⟨[], rfl, bind_eq_ok.2 ⟨_, Registry.select_all hacquire, rfl⟩⟩,
    rfl, rfl, rfl, rfl, fun _ => rfl, fun cell => ?_⟩
  have htoBool : ∀ x : Except Err Unit, x.toBool = true ↔ x = .ok () := by
    intro x
    cases x <;> simp [Except.toBool]
  simp only [Bool.and_eq_true, decide_eq_true_eq, List.mem_map, List.mem_filter, htoBool,
    Option.any_eq_true]
  constructor
  · rintro ⟨⟨⟨id, c⟩, ⟨-, hauthorized⟩, rfl⟩, hactive⟩
    exact ⟨hauthorized, hactive⟩
  · rintro ⟨hauthorized, c, hlookup, hactive⟩
    exact ⟨⟨(cell.cellID, c), ⟨Table.mem_rows.2 hlookup, hauthorized⟩, rfl⟩, c, hlookup, hactive⟩

section Plain

variable {poll : PollWorkRequest}

/-- What is listed can be leased. -/
theorem open_of_shown (hpoll : PlainPoll ctx db tenant routes poll) (hstored : Stored db)
    (hacquire : authorizeCell ctx tenant "" "jobs.acquire" = .ok ())
    (hvalid : ∀ route ∈ routes, route.validate = .ok ()) {r : JobRow} (hr : r ∈ db.rows)
    (h : Shown ctx db tenant routes r) : Open db.state poll r.key := by
  have hlookup := ListDb.mem_rows hr
  have hnamed := hstored.cell_named _ _ hlookup
  refine ⟨r, hlookup, h.tenant.trans hpoll.ofTenant.symm, ?_, ?_, h.ready, hpoll.found _⟩
  · rw [hpoll.allowed]
    refine ⟨(authorizeCell_iff hacquire hnamed).2 h.cell, ?_⟩
    obtain ⟨c, hc⟩ := Option.isSome_iff_exists.1 (db.cell_known _ _ hlookup)
    refine ⟨c, h.tenant ▸ hc, ?_⟩
    by_contra hretired
    obtain ⟨hlive, hwanted⟩ := live_of_ready h.ready
    obtain hended | hended := hstored.retired_ended _ _ c hlookup hc hretired
    · rw [hlive] at hended
      cases hended
    · rw [hwanted] at hended
      cases hended
  · rw [hpoll.forRoutes, List.mem_filter]
    exact ⟨h.route, by simpa using Route.jobType_ne_empty (hvalid _ h.route)⟩

/-- Where the listing is answered, the loop of the poll does not fail. -/
theorem evaluates_of_answered (hpoll : PlainPoll ctx db tenant routes poll) (hstored : Stored db)
    (hacquire : authorizeCell ctx tenant "" "jobs.acquire" = .ok ()) (hroutes : routes ≠ [])
    (hnow : 0 ≤ db.state.now) (hfits : db.state.now < 2 ^ 63) {sel : Selection}
    (h : Answered L ctx db db.state.now (availableJobs tenant routes pageSize) sel) :
    Evaluates db.state poll := by
  intro k r hlookup hlive
  obtain ⟨v, hv⟩ := h.evaluates r (mem_rows_of_lookup hlookup)
  obtain rfl := selection_available h.selected
  rw [unixNano_of_fits hnow hfits, conditions_available hroutes hnow] at hv
  by_cases hfirst : r.tenantID = tenant ∧ poll.allowed r.cell = true
  · obtain ⟨htenant, hallowed⟩ := hfirst
    have hcell := (authorizeCell_iff hacquire (hstored.cell_named k r hlookup)).1
      ((hpoll.allowed r.cell).1 hallowed).1
    have hvisible : r.hiddenAtNS = none := by
      by_contra hhidden
      have hended := hstored.hidden_ended k r hlookup (Option.isSome_iff_ne_none.2 hhidden)
      rw [hlive] at hended
      cases hended
    rw [htenant, hcell, hvisible, decide_eq_true rfl] at hv
    -- All conditions before the status hold, so the status has a value.
    obtain ⟨status, hstatus⟩ : ∃ status, statusFromRow db.state r db.state.now = .ok status := by
      cases hrow : statusFromRow db.state r db.state.now with
      | error e => rw [hrow] at hv; cases hv
      | ok status => exact ⟨status, rfl⟩
    unfold pickTest
    rw [hstatus, hpoll.found]
    exact allHold_cons_ok _ (allHold_cons_ok _ (allHold_cons_ok _ (allHold_cons_ok _ ⟨true, rfl⟩)))
  · have hfalse : (decide (r.tenantID = poll.tenantId) && poll.allowed r.cell) = false := by
      rw [hpoll.ofTenant]
      simpa using hfirst
    unfold pickTest
    rw [hfalse]
    exact ⟨false, rfl⟩

end Plain

theorem nodup_keys (db : ListDb) : (db.rows.map (·.key)).Nodup := by
  have hkeys : db.rows.map (·.key) = db.state.jobs.rows.map (·.1) := by
    unfold ListDb.rows
    rw [List.map_map]
    exact List.map_congr_left fun p hp => db.keyed p.1 p.2 (Table.mem_rows.1 hp)
  rw [hkeys]
  exact Table.nodup_rows _

/-- The jobs of the listing, which are all of one tenant, have different places in it. -/
theorem parted_available (hstored : Stored db) {rows : List JobRow} (hsub : rows <+ db.rows)
    (htenant : ∀ r ∈ rows, r.tenantID = tenant) {n : Nat} (hn : 0 < n) :
    Paging.Parted resumed n
      ((Paging.listed position (rows.map (projected db db.state.now))).map position) := by
  have hnodup : rows.Nodup := List.Nodup.of_map _ ((hsub.map _).nodup (nodup_keys db))
  refine Paging.parted_listed_of_nodup ?_ ?_ hn
  · rw [List.map_map]
    refine hnodup.map_on fun r hr r' hr' heq => ?_
    have hplace := Prod.ext_iff.1 (toLex.injective heq)
    have htenants : r.key.tenantId = r'.key.tenantId := (htenant r hr).trans (htenant r' hr').symm
    have hkey : r.key = r'.key := JobKey.eq_of_text htenants hplace.2
    have hlookup := ListDb.mem_rows (hsub.subset hr)
    rw [hkey, ListDb.mem_rows (hsub.subset hr')] at hlookup
    exact (Option.some.inj hlookup).symm
  · intro p hp
    obtain ⟨r, hr, rfl⟩ := List.mem_map.1 hp
    have hlookup := ListDb.mem_rows (hsub.subset hr)
    have hcreated : unixNano (timeFromNS r.createdAtNS) = r.createdAtNS := by
      unfold timeFromNS
      rw [if_neg (hstored.created _ _ hlookup), db.created_fits _ _ hlookup]
    show some (toLex (unixNano (timeFromNS r.createdAtNS), r.key.text)) = _
    rw [hcreated]
    rfl

/-- Following the pages of the listing gives each job once that can be leased, and no other. -/
theorem listed_iff_leased (hstored : Stored db) (hnow : 0 ≤ db.state.now)
    (hfits : db.state.now + 1 < 2 ^ 63) (hroutes : routes ≠ []) {resp : ListJobsResponse}
    (hfirst : listJobs L ctx db db.state.now db.rows (availableJobs tenant routes pageSize) =
      .ok resp)
    (hacquire : authorizeCell ctx tenant "" "jobs.acquire" = .ok ()) {scan : Nat → List JobRow}
    (hscan : ∀ i, scan i ~ db.rows) (writer : Nat) :
    ∃ pages, followPages (fun i token => listJobs L ctx db db.state.now (scan i)
        { availableJobs tenant routes pageSize with pageToken := token })
          (db.rows.length + 1) 0 .empty = some pages ∧
      (pages.flatten.map (·.jobKey)).Nodup ∧
      ∀ k, k ∈ pages.flatten.map (·.jobKey) ↔
        ∃ req leases, req.tenantId = tenant ∧ req.routes = routes ∧
          pollWorkNow L H ctx db writer req = .ok leases ∧ k ∈ leases.map (·.jobKey) := by
  have hfits' : db.state.now < 2 ^ 63 := lt_trans (Int.lt_succ _) hfits
  have hkeyed : Keyed db.state.sched := db.keyed
  have hempty : listJobs L ctx db db.state.now db.rows
      { availableJobs tenant routes pageSize with pageToken := .empty } = .ok resp := hfirst
  obtain ⟨sel, hanswered⟩ := answered_of_ok hempty
  obtain ⟨pages, hpages, hiff⟩ := pages_iff hempty hscan
  have hmem := fun r =>
    @mem_matching_available L ctx db tenant routes pageSize hroutes hnow hfits' sel
    hanswered.selected r
  have hsub : matching L ctx db db.state.now (availableJobs tenant routes pageSize) db.rows <+
      db.rows := by
    unfold matching
    rw [hanswered.selected]
    exact List.filter_sublist
  have hlists := hiff.2 (parted_available hstored hsub (fun r hr => ((hmem r).1 hr).2.tenant)
    (availableJobs tenant routes pageSize).pageSizeInUse_pos)
  have hkeys : pages.flatten.map (·.jobKey) ~
      (matching L ctx db db.state.now (availableJobs tenant routes pageSize) db.rows).map
      (·.key) := by
    have honce := hlists.once.map (·.jobKey)
    rw [List.map_map] at honce
    exact honce
  refine ⟨pages, hpages, hkeys.nodup_iff.2 ((hsub.map _).nodup (nodup_keys db)), fun k => ?_⟩
  rw [hkeys.mem_iff, List.mem_map]
  constructor
  · rintro ⟨r, hr, rfl⟩
    have hvalid := validate_of_validateRoutes hanswered.routes
    have hlimit : ((matching L ctx db db.state.now (availableJobs tenant routes pageSize)
        db.rows).map (·.key)).length < db.rows.length + 1 := by
      rw [List.length_map]
      exact Nat.lt_succ_of_le hsub.length_le
    obtain ⟨poll, hrequest, hpollLimit, hduration, hplain⟩ :=
      @pollRequest_plain L ctx db tenant routes hacquire (db.rows.length + 1)
    have hopen : ∀ k, Open db.state poll k ↔ k ∈ (matching L ctx db db.state.now
        (availableJobs tenant routes pageSize) db.rows).map (·.key) := by
      intro k
      rw [List.mem_map]
      constructor
      · intro ho
        obtain ⟨r', hr', hkey, hshown⟩ := shown_of_open hstored hrequest ho
        exact ⟨r', (hmem r').2 ⟨hr', hshown⟩, hkey⟩
      · rintro ⟨r', hr', rfl⟩
        obtain ⟨hrow, hshown⟩ := (hmem r').1 hr'
        exact open_of_shown hplain hstored hacquire hvalid hrow hshown
    obtain ⟨leases, s', hrun, hall⟩ :=
      @pollOnce_leases_all H poll writer (attemptBudget poll.limit) []
      db.state _ hkeyed (evaluates_of_answered hplain hstored hacquire hroutes hnow hfits'
        hanswered)
      hnow (by rw [hduration]; exact hfits) ((hsub.map _).nodup (nodup_keys db)) hopen
      (by unfold attemptBudget; rw [hpollLimit]; split <;> omega)
      (by rw [hpollLimit]; simp only [List.length_nil]; omega)
    refine ⟨WorkRequest.plain tenant routes (db.rows.length + 1), leases, rfl, rfl, ?_,
      hall _ (List.mem_map.2 ⟨r, hr, rfl⟩)⟩
    refine bind_eq_ok.2 ⟨(), WorkRequest.validate_plain hacquire hvalid _, ?_⟩
    have hsome : (WorkRequest.plain tenant routes ((db.rows.length : Int) + 1)).routes ≠ [] :=
      hroutes
    rw [if_neg hsome]
    exact bind_eq_ok.2 ⟨poll, hrequest, congrArg Prod.fst hrun⟩
  · rintro ⟨req, leases, rfl, rfl, hpoll, hleased⟩
    obtain ⟨l, hl, rfl⟩ := List.mem_map.1 hleased
    obtain ⟨_, -, hpoll⟩ := bind_eq_ok.1 hpoll
    rw [if_neg hroutes] at hpoll
    obtain ⟨poll, hrequest, hrun⟩ := bind_eq_ok.1 hpoll
    obtain hout | hopen := pollOnce_leases_open hkeyed (Prod.ext hrun rfl) l hl
    · cases hout
    · obtain ⟨r, hr, hkey, hshown⟩ := shown_of_open hstored hrequest hopen
      exact ⟨r, (hmem r).2 ⟨hr, hshown⟩, hkey⟩

end Agree

end JobDB.Sqlite
