import JobDB.Schedule.Events

/-!
# Stopped schedules

A schedule that was paused for its cell's repository keeps the reason until it is resumed
or upserted, also through an explicit pause and through archiving. The SQLite and the toy
runtime look at the reason first and let every occurrence run while it stands, so whether
an occurrence of a stopped schedule is cancelled depends on the schedule's past:
`stopped_occurrence_cancelled`.
-/

namespace JobDB

/-- The schedule was paused by a pause or by an upsert. -/
def ExplicitlyPaused (events : List ScheduleEvent) : Prop :=
  lastChange events = some (.changed .paused) ∨ lastChange events = some (.upserted true)

/-- The schedule is archived, explicitly paused, or not the one the occurrence was submitted
under. -/
def Stopped (events : List ScheduleEvent) (info : ScheduleInfo) (occ : ScheduleOccurrenceMetadata) :
    Prop :=
  info.state = .archived ∨ ExplicitlyPaused events ∨ info.generation ≠ occ.generation ∨
    info.specHash ≠ occ.specHash

theorem Variant.obstacle_isSome (V : Variant) {info : ScheduleInfo}
    {occ : ScheduleOccurrenceMetadata}
    (h : info.state = .archived ∨ info.state = .paused ∨ info.generation ≠ occ.generation ∨
      info.specHash ≠ occ.specHash) : ∃ r, V.obstacle info occ = some r := by
  unfold Variant.obstacle
  split
  · exact ⟨_, rfl⟩
  split
  · exact ⟨_, rfl⟩
  split
  · exact ⟨_, rfl⟩
  split
  · exact ⟨_, rfl⟩
  next hpaused harchived hgen hspec =>
    rcases h with h | h | h | h
    · exact absurd h harchived
    · exact absurd h hpaused
    · exact absurd h hgen
    · exact absurd h hspec

theorem Agrees.paused {info : ScheduleInfo} {events : List ScheduleEvent}
    (h : Agrees (some info) events) (hp : ExplicitlyPaused events) : info.state = .paused := by
  have hs := h.state
  rcases hp with hl | hl
  · rw [hl] at hs
    exact Option.some.inj hs
  · rw [hl] at hs
    exact Option.some.inj hs

/-! ### A schedule that is stopped -/

/-- The schedule is paused. -/
def pauseBackup : ControlOp := .mutate .admin 2 { key := ⟨"tenant", "backup"⟩ } .paused

/-- The cell's repository changes. -/
def moveRepo : ControlOp :=
  .updateCell .admin 1 "r2"
    { key := ⟨"tenant", "c1"⟩, ifMatch := "\"r1\"", repo := some "host/other" }

/-- The occurrence that the schedule's upsert submitted. -/
def firstBackup : LeasedJob where
  jobID := "jobdbsched_backup_g1_run_19700101T000000000000000Z"
  occurrence := .ok (some
    { scheduleId := "backup", generation := 1, specHash := "sha256:", scheduledAt := 0,
      runId := "19700101T000000000000000Z", manual := false })
  chapterCount := 1

/-! ### Every sequence of operations -/

/-- After any operations on cells and schedules, the preflight of an unstarted occurrence of a
stopped schedule cancels it exactly if the runtime is the core runtime or no pause for the
cell's repository stands. -/
theorem stopped_occurrence_cancelled (L : CellLib) (B : ScheduleLib) (b : Backend)
    (ops : List ControlOp) (k : ScheduleKey) (info : ScheduleInfo)
    (hrow : (trace L B b k ops).1.schedules.lookup k = some info) (lease : LeasedJob)
    (occ : ScheduleOccurrenceMetadata) (hocc : lease.occurrence = .ok (some occ))
    (hid : occ.scheduleId = k.scheduleId) (hcount : lease.chapterCount ≤ 1)
    (hstop : Stopped (trace L B b k ops).2 info occ) (previousSucceeded : String → Bool)
    (now : Time) :
    (∃ detail, b.variant.preflightScheduleLease B
        (fun id => (trace L B b k ops).1.schedules.lookup ⟨k.tenantId, id⟩) previousSucceeded lease
        now = .ok (.cancel detail)) ↔
      b = .core ∨ ¬ RepoPauseStands (trace L B b k ops).2 := by
  have hagrees := trace_agrees (L := L) (B := B) (b := b) k ops
  rw [hrow] at hagrees
  have hfound : (trace L B b k ops).1.schedules.lookup ⟨k.tenantId, occ.scheduleId⟩ =
      some info := by
    rw [hid]
    exact hrow
  rw [Variant.preflightScheduleLease_eq hocc hcount hfound]
  obtain ⟨r, hobs⟩ : ∃ r, b.variant.obstacle info occ = some r := by
    refine Variant.obstacle_isSome _ ?_
    rcases hstop with h | h | h | h
    · exact .inl h
    · exact .inr (.inl (hagrees.paused h))
    · exact .inr (.inr (.inl h))
    · exact .inr (.inr (.inr h))
  have hstands : info.pauseReason = "cell_repo_mismatch" ↔
      RepoPauseStands (trace L B b k ops).2 := by
    rw [← hagrees.reason]
    simp
  have hruns : b.variant.repoPauseRuns = true ↔ b ≠ .core := by
    cases b <;> decide
  unfold Variant.preflightOccurrence
  by_cases hpause : b.variant.repoPauseRuns = true ∧ info.pauseReason = "cell_repo_mismatch"
  · -- while the pause for the repository stands, nothing else is looked at
    rw [if_pos hpause]
    refine iff_of_false ?_ ?_
    · rintro ⟨_, h⟩
      cases h
    · rintro (h | h)
      · exact hruns.1 hpause.1 h
      · exact h (hstands.1 hpause.2)
  · rw [if_neg hpause, hobs]
    refine iff_of_true ⟨_, rfl⟩ ?_
    by_cases hb : b = .core
    · exact .inl hb
    · exact .inr fun h => hpause ⟨hruns.2 hb, hstands.2 h⟩

/-- An explicit pause stops the first occurrence. -/
theorem stopped_occurrence_cancelled_paused :
    ∃ detail, Backend.sqlite.variant.preflightScheduleLease .utc
      (fun id => (trace .plain .utc .sqlite ⟨"tenant", "backup"⟩
        (scheduleInCell ++ [pauseBackup])).1.schedules.lookup ⟨"tenant", id⟩)
      (fun _ => false) firstBackup 3 = .ok (.cancel detail) :=
  (stopped_occurrence_cancelled .plain .utc .sqlite (scheduleInCell ++ [pauseBackup])
    ⟨"tenant", "backup"⟩ _ rfl firstBackup _ rfl rfl (by decide) (.inr (.inl (.inl (by decide))))
    (fun _ => false) 3).2 (.inr (by decide))

/-- After a pause for the repository it does not: the schedule is paused by its owner and the
occurrence is handed out all the same. -/
theorem paused_occurrence_handed_out :
    let t := trace .plain .utc .sqlite ⟨"tenant", "backup"⟩
      (scheduleInCell ++ [moveRepo, pauseBackup])
    ExplicitlyPaused t.2 ∧
      (t.1.schedules.lookup ⟨"tenant", "backup"⟩).map (·.state) = some .paused ∧
      Sqlite.variant.preflightScheduleLease .utc
        (fun id => t.1.schedules.lookup ⟨"tenant", id⟩) (fun _ => false) firstBackup 3 =
          .ok .handOut :=
  ⟨.inl (by decide), by decide, rfl⟩

end JobDB
