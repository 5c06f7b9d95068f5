import Mathlib
import JobDB.Sqlite.Available

/-!
# Instants as columns of 64 bits

SQLite stores an instant as its nanoseconds since 1970, with 0 for the zero time (`timeToNS`,
`timeFromNS` in `sqlite/scheduler.go`). No request is checked for the range: `UnixNano` wraps around
outside the years 1678 to 2262, and the first instant of 1970 is read back as no time at all.

* `instants_kept_iff`: on which instants the columns keep the order and are read back as they were,
  so that a job which is to wait is not leased before its time.
* `columns_agree_iff`: at which clock readings the columns that a listing computes in SQL are what
  `statusFromRow` and `effectiveNextRoute` say.
-/

namespace JobDB.Sqlite

/-! ## Instants that are kept -/

/-- The nanoseconds fit into 64 bits and do not stand for the zero time. -/
def Exact (t : Time) : Prop :=
  t ≠ 0 ∧ -9223372036854775808 ≤ t ∧ t < 9223372036854775808

theorem Exact.zero_lt {t : Time} (h : Exact t) : Time.zero < t := by
  have hzero : Time.zero < -9223372036854775808 := by decide
  exact lt_of_lt_of_le hzero h.2.1

theorem Exact.timeToNS {t : Time} (h : Exact t) : timeToNS t = t := by
  unfold Sqlite.timeToNS
  rw [if_neg h.zero_lt.ne']
  exact unixNano_of_range h.2.1 h.2.2

theorem Exact.timeFromNS {t : Time} (h : Exact t) : timeFromNS t = t := if_neg h.1

/-- What is read back as it was is exact. -/
theorem exact_of_read_back {t : Time} (hne : t ≠ Time.zero) (h : timeFromNS (timeToNS t) = t) :
    Exact t := by
  unfold timeToNS timeFromNS at h
  rw [if_neg hne] at h
  split at h
  · exact absurd h.symm hne
  · next hns => exact ⟨h ▸ hns, h ▸ (unixNano_bounds t).1, h ▸ (unixNano_bounds t).2⟩

theorem available_of_ready {s : State} {r : JobRow} {now : Time}
    (h : statusFromRow s r now = .ok .ready) :
    ¬ (timeFromNS r.availableAtNS ≠ Time.zero ∧ now < timeFromNS r.availableAtNS) := by
  intro hfuture
  unfold statusFromRow at h
  rw [if_pos hfuture] at h
  split at h
  · split at h <;> cases h
  split at h
  · cases h
  split at h
  · cases h
  obtain ⟨ready, -, h⟩ := bind_eq_ok.1 h
  split at h
  · cases h
  split at h <;> cases h

/-- A job that is submitted for `w` or rescheduled to `w` is not ready before. -/
def HeldUntil (w : Time) : Prop :=
  (∀ (s : State) (p : Submission) (t₀ now : Time), p.availableAt = some w → now < w →
    statusFromRow s (p.row t₀) now ≠ .ok .ready) ∧
  ∀ (s : State) (r : JobRow) (req : RescheduleExecutionRequest) (task : Option TaskWait)
    (t₀ now : Time), req.waitForJobIDs = [] → req.waitUntil = some w → now < w →
      statusFromRow s (r.rescheduled req task t₀) now ≠ .ok .ready

theorem Exact.heldUntil {w : Time} (h : Exact w) : HeldUntil w := by
  have hheld : ∀ (s : State) (r : JobRow) (now : Time), r.availableAtNS = Sqlite.timeToNS w →
    now < w → statusFromRow s r now ≠ .ok .ready := by
    intro s r now hcolumn hlt hready
    refine available_of_ready hready ?_
    rw [hcolumn, h.timeToNS, h.timeFromNS]
    exact ⟨h.zero_lt.ne', hlt⟩
  refine ⟨fun s p t₀ now hw => hheld s _ now ?_, fun s r req task t₀ now hjobs hw =>
    hheld s _ now ?_⟩
  · show Sqlite.timeToNS (p.availableAt.getD t₀) = _
    rw [hw, Option.getD_some]
  · show Sqlite.timeToNS (if req.waitForJobIDs = [] then req.waitUntil.getD t₀ else t₀) = _
    rw [if_pos hjobs, hw, Option.getD_some]

/-- **Stored instants.** On a set of instants the columns keep the order, are read back as they
were, only the zero time is read back as none, and no job is ready before its time, if and only if
all of them but the zero time fit, are not the first instant of 1970 and, where the zero time is
among them, come after it. -/
theorem instants_kept_iff (I : Set Time) :
    (StrictMonoOn timeToNS I ∧ (∀ t ∈ I, timeFromNS (timeToNS t) = t) ∧
      (∀ t ∈ I, timeFromNS (timeToNS t) = Time.zero → t = Time.zero) ∧
      ∀ w ∈ I, w ≠ Time.zero → HeldUntil w) ↔
    (∀ t ∈ I, t = Time.zero ∨ Exact t) ∧ (Time.zero ∈ I → ∀ t ∈ I, t = Time.zero ∨ 0 < t) := by
  have hzero : timeToNS Time.zero = 0 := rfl
  constructor
  · rintro ⟨hmono, hback, -⟩
    have hexact : ∀ t ∈ I, t = Time.zero ∨ Exact t := fun t ht =>
      (eq_or_ne t Time.zero).imp_right fun hne => exact_of_read_back hne (hback t ht)
    refine ⟨hexact, fun hz t ht => (hexact t ht).imp_right fun h => ?_⟩
    have hlt := hmono hz ht h.zero_lt
    rwa [hzero, h.timeToNS] at hlt
  · rintro ⟨hexact, hpos⟩
    have hback : ∀ t ∈ I, timeFromNS (timeToNS t) = t := by
      intro t ht
      rcases hexact t ht with rfl | h
      · rfl
      · rw [h.timeToNS, h.timeFromNS]
    refine ⟨fun t ht u hu hlt => ?_, hback, fun t ht h => (hback t ht).symm.trans h,
      fun w hw hne => ((hexact w hw).resolve_left hne).heldUntil⟩
    rcases hexact t ht with rfl | h <;> rcases hexact u hu with rfl | h'
    · exact absurd hlt (lt_irrefl _)
    · rw [hzero, h'.timeToNS]
      exact (hpos ht u hu).resolve_left h'.zero_lt.ne'
    · exact absurd hlt (lt_asymm h.zero_lt)
    · rw [h.timeToNS, h'.timeToNS]
      exact hlt

/-- The row of a job without leases, waits and alternatives, available from the given nanoseconds
on. -/
def idleRow (availableAtNS : Int) : JobRow :=
  { cell := ⟨"", "", ""⟩, goalID := "g", tenantID := "t", jobID := "j", jobType := "job",
    nextRoute := { jobType := "job" }, availableAtNS := availableAtNS, createdAtNS :=
      1, updatedAtNS := 1 }

/-- The beginning of the year 2300 is stored as one of 1715: a job that is to wait for it is ready
at once. -/
theorem ready_before_2300 :
    timeToNS 10413792000000000000 < timeToNS 1 ∧
      statusFromRow { now := 1 } (((idleRow 1).rescheduled
        { nextRoute := { jobType := "job" }, waitUntil := some 10413792000000000000 } none 1)) 1 =
          .ok .ready := by
  decide

/-! ## Statuses in SQL and in Go -/

theorem listStatus_idleRow (s : State) (now a : Int) :
    listStatus s now (idleRow a) = .ok (if now < a then .awaitingFuture else .ready) := rfl

theorem statusFromRow_idleRow (s : State) (now : Time) (a : Int) :
    statusFromRow s (idleRow a) now =
      if timeFromNS a ≠ Time.zero ∧ now < timeFromNS a then .ok .awaitingFuture
        else .ok .ready := rfl

/-- **The listing's columns.** At a clock reading, status and effective route are the same in SQL
and in Go for all rows if and only if the clock stands between 1970 and 2262. -/
theorem columns_agree_iff (clock : Time) :
    (∀ (s : State) (r : JobRow),
      listStatus s (unixNano clock) r = (statusFromRow s r clock).map JobStatus.shown ∧
        effectiveRoute (unixNano clock) r = (effectiveNextRoute r clock).1) ↔
    0 ≤ clock ∧ clock < 9223372036854775808 := by
  constructor
  · intro h
    -- the clock is read off from when idle jobs become ready
    have hidle : ∀ a : Int, unixNano clock < a ↔
        timeFromNS a ≠ Time.zero ∧ clock < timeFromNS a := by
      intro a
      have ha := (h { now := 0 } (idleRow a)).1
      rw [listStatus_idleRow, statusFromRow_idleRow] at ha
      split at ha <;> split at ha
      · next h₁ h₂ => exact iff_of_true h₁ h₂
      · cases ha
      · cases ha
      · next h₁ h₂ => exact iff_of_false h₁ h₂
    have hnonneg : 0 ≤ unixNano clock := not_lt.1 fun hlt => ((hidle 0).1 hlt).1 rfl
    have hat : ∀ {a : Int}, a ≠ 0 → timeFromNS a = a := fun ha => if_neg ha
    have hle : clock ≤ unixNano clock := by
      have hnext := ((hidle (unixNano clock + 1)).1 (by omega)).2
      rw [hat (by omega)] at hnext
      exact Int.lt_add_one_iff.1 hnext
    have heq : unixNano clock = clock := by
      by_contra hne
      -- an instant between the clock and its nanoseconds, but not the first of 1970
      have hlt : clock < unixNano clock := lt_of_le_of_ne hle (Ne.symm hne)
      have hbounds := unixNano_bounds clock
      have hrange : ¬ (-9223372036854775808 ≤ clock) := fun hlow =>
        hne (unixNano_of_range hlow (lt_trans hlt hbounds.2))
      have hmid := (hidle (-1)).2 ⟨by decide, lt_trans (not_le.1 hrange) (by decide)⟩
      omega
    exact ⟨heq ▸ hnonneg, heq ▸ (unixNano_bounds clock).2⟩
  · rintro ⟨hlow, hhigh⟩ s r
    rw [unixNano_of_fits hlow hhigh]
    exact ⟨listStatus_eq hlow, effectiveRoute_eq hlow⟩

/-- When the nanoseconds have wrapped around, in April 2262, a job that has been available since
1970 is listed as waiting for the future and can be leased. -/
theorem listed_in_future :
    listStatus { now := 0 } (unixNano 9223372036854775808) (idleRow 1) = .ok .awaitingFuture ∧
      statusFromRow { now := 0 } (idleRow 1) 9223372036854775808 = .ok .ready := by
  decide

end JobDB.Sqlite
