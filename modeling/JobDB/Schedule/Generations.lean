import JobDB.Lib.Commit
import JobDB.Lib.Versioned
import JobDB.Schedule.Events

/-!
# Generations of schedules

A schedule has a generation, and every call that changes it through `UpsertSchedule`,
`PauseSchedule`, `ResumeSchedule` or `ArchiveSchedule` raises it. Here such calls run
concurrently. In the SQLite runtime a call reads, checks and writes the schedule's row in one
transaction. The core runtime reads the schedule and its cell in steps of their own, and then
asks the scheduler for a write on condition of the generation it has read.

* `ScheduleStore` is that part of the scheduler, and `ScheduleStore.Atomic` what the core runtime
  relies on: the comparison and the write are one step. A write without a generation to compare
  with is meant to create the schedule; that it leaves an archived one alone is all that is assumed.
* `scheduleCall`: the calls, as processes, up to the row they store. A call then submits the first
  occurrence, which works on jobs only; a call that succeeds has stored its row.
* `Moves`: how the row of a schedule may change while calls run.
* `schedule_generations`: the generation never goes down, a changed spec has a higher one, an
  archived schedule stays archived, and of the calls that expect one generation at most one
  succeeds.

Besides the calls, a change of a cell's repository may pause a schedule at any time.
-/

namespace JobDB

/-! ## The scheduler's part -/

/-- `ScheduleStateMutation`. -/
structure ScheduleChange where
  key : ScheduleKey
  state : ScheduleState
  nextFireAt : Option Time
  nextJobID : Option String
  expectedGeneration : Option Int
  requestTime : Time

/-- `UpsertSchedule` and `MutateSchedule` of a scheduler; `expected` is the `ExpectedGeneration`. -/
structure ScheduleStore where
  upsert : (expected : Option Int) → ScheduleInfo → Tx Control Err ScheduleInfo
  mutate : ScheduleChange → Tx Control Err ScheduleInfo

namespace ScheduleStore

/-- The row is stored under its key, and the other schedules stay. -/
def Stores (s s' : Control) (k : ScheduleKey) (stored : ScheduleInfo) : Prop :=
  ∀ k', s'.schedules.lookup k' = if k' = k then some stored else s.schedules.lookup k'

/-- A write takes effect only at the generation it expects, and raises it. -/
structure Atomic (S : ScheduleStore) : Prop where
  upsert_expected : ∀ {expected row s r g}, S.upsert expected row s = .ok r → expected = some g →
    (s.schedules.lookup row.key).map (·.generation) = some g
  upsert_archived : ∀ {row s r old}, S.upsert none row s = .ok r →
    s.schedules.lookup row.key = some old → old.state ≠ .archived
  upsert_stores : ∀ {expected row s stored s'}, S.upsert expected row s = .ok (stored, s') →
    stored.generation = nextGeneration (s.schedules.lookup row.key) ∧ Stores s s' row.key stored
  mutate_expected : ∀ {change s r g}, S.mutate change s = .ok r →
    change.expectedGeneration = some g → (s.schedules.lookup change.key).map (·.generation) = some g
  mutate_stores : ∀ {change s stored s'}, S.mutate change s = .ok (stored, s') →
    stored.generation = nextGeneration (s.schedules.lookup change.key) ∧
      stored.state = change.state ∧ Stores s s' change.key stored

/-- The generation is the one to compare with, if there is one. -/
def compare (expected : Option Int) (existing : Option ScheduleInfo) : Prop :=
  existing.map (·.generation) = expected

instance (expected : Option Int) (existing : Option ScheduleInfo) :
    Decidable (compare expected existing) :=
  inferInstanceAs (Decidable (_ = _))

/-- The row under the next generation. -/
def raise (row : ScheduleInfo) (existing : Option ScheduleInfo) : ScheduleInfo :=
  { row with generation := nextGeneration existing }

/-- The row that a change leaves. -/
def ofChange (old : ScheduleInfo) (change : ScheduleChange) : ScheduleInfo :=
  { old with
    state := change.state
    nextFireAt := change.nextFireAt
    nextJobID := change.nextJobID
    updatedAt := change.requestTime }

/-- A scheduler that keeps its schedules in a table. -/
def table : ScheduleStore where
  upsert expected row s := do
    demand (.conflict "") (compare expected (s.schedules.lookup row.key))
    let stored := raise row (s.schedules.lookup row.key)
    .ok (stored, s.setSchedule row.key stored)
  mutate change s := do
    let old ← loadSchedule (s.schedules.lookup change.key)
    demand (.conflict "") (compare change.expectedGeneration (some old))
    let stored := raise (ofChange old change) (some old)
    .ok (stored, s.setSchedule change.key stored)

theorem table_upsert_eq_ok {expected : Option Int} {row : ScheduleInfo} {s s' : Control}
    {stored : ScheduleInfo} (h : table.upsert expected row s = .ok (stored, s')) :
    (s.schedules.lookup row.key).map (·.generation) = expected ∧
      stored = raise row (s.schedules.lookup row.key) ∧ s' = s.setSchedule row.key stored := by
  obtain ⟨hcompare, h⟩ := demand_bind_eq_ok.1 h
  obtain ⟨rfl, rfl⟩ := Prod.mk.inj (Except.ok.inj h)
  exact ⟨hcompare, rfl, rfl⟩

theorem table_mutate_eq_ok {change : ScheduleChange} {s s' : Control} {stored : ScheduleInfo}
    (h : table.mutate change s = .ok (stored, s')) :
    ∃ old, s.schedules.lookup change.key = some old ∧
      some old.generation = change.expectedGeneration ∧
      stored = raise (ofChange old change) (some old) ∧ s' = s.setSchedule change.key stored := by
  obtain ⟨old, hold, h⟩ := bind_eq_ok.1 h
  obtain ⟨hcompare, h⟩ := demand_bind_eq_ok.1 h
  obtain ⟨rfl, rfl⟩ := Prod.mk.inj (Except.ok.inj h)
  exact ⟨old, loadSchedule_eq_ok hold, hcompare, rfl, rfl⟩

theorem table_atomic : table.Atomic where
  upsert_expected h he := (table_upsert_eq_ok h).1.trans he
  upsert_archived h hold := by
    have hnone := (table_upsert_eq_ok h).1
    rw [hold] at hnone
    cases hnone
  upsert_stores h := by
    obtain ⟨-, rfl, rfl⟩ := table_upsert_eq_ok h
    exact ⟨rfl, fun k => lookup_setSchedule ..⟩
  mutate_expected h he := by
    obtain ⟨old, hold, hcompare, -⟩ := table_mutate_eq_ok h
    rw [hold]
    exact hcompare.trans he
  mutate_stores h := by
    obtain ⟨old, hold, -, rfl, rfl⟩ := table_mutate_eq_ok h
    rw [hold]
    exact ⟨rfl, rfl, fun k => lookup_setSchedule ..⟩

end ScheduleStore

/-! ## The calls -/

/-- The runtimes whose calls may meet. -/
inductive ScheduleRuntime where
  | sqlite
  | core (S : ScheduleStore)

/-- The core runtime's scheduler does what the runtime relies on. -/
def ScheduleRuntime.Atomic : ScheduleRuntime → Prop
  | .sqlite => True
  | .core S => S.Atomic

/-- A call with its arguments; `mutate` is `PauseSchedule`, `ResumeSchedule` or
`ArchiveSchedule`. -/
inductive ScheduleCall where
  | upsert (ctx : Ctx) (clock : Time) (req : UpsertScheduleRequest)
  | mutate (ctx : Ctx) (clock : Time) (req : ScheduleMutationRequest) (state : ScheduleState)

namespace ScheduleCall

def key : ScheduleCall → ScheduleKey
  | .upsert _ _ req => req.key
  | .mutate _ _ req _ => req.key

def expectedGeneration : ScheduleCall → Option Int
  | .upsert _ _ req => req.expectedGeneration
  | .mutate _ _ req _ => req.expectedGeneration

end ScheduleCall

section Bodies

variable (L : CellLib) (B : ScheduleLib)

/-- `UpsertSchedule` and `mutateScheduleState` of the SQLite runtime: one transaction. -/
def Sqlite.scheduleTx : ScheduleCall → Tx Control Err ScheduleInfo
  | .upsert ctx clock req => Control.upsertSchedule L B .sqlite ctx clock req
  | .mutate ctx clock req state => Control.mutateSqlite B ctx clock req state

/-- The change that `mutateSchedule` of the core runtime asks for, once the row is made. -/
def Core.scheduleChange (req : ScheduleMutationRequest) (current : Option ScheduleInfo)
    (row : ScheduleInfo) : ScheduleChange where
  key := req.key
  state := row.state
  nextFireAt := row.nextFireAt
  nextJobID := row.nextJobID
  expectedGeneration := current.map (·.generation)
  requestTime := row.updatedAt

/-- `UpsertSchedule` and `mutateSchedule` of the core runtime. -/
def Core.scheduleCall (S : ScheduleStore) : ScheduleCall → Call Control Err ScheduleInfo
  | .upsert ctx clock req => do
    let cells ← Call.query fun s => .ok (s.cells req.tenantId)
    let current ← Call.query fun s => .ok (s.schedules.lookup req.key)
    let row ← Call.check (Core.upsertRow L B ctx cells current req clock)
    Call.tx (S.upsert (current.map (·.generation)) row)
  | .mutate ctx clock req state => do
    let current ← Call.query fun s => .ok (s.schedules.lookup req.key)
    let cells ← Call.query fun s => .ok (s.cells req.key.tenantId)
    let row ← Call.check (Core.mutatedRow L B ctx cells current req state clock)
    Call.tx (S.mutate (Core.scheduleChange req current row))

/-- A call, up to the row it stores. -/
def ScheduleRuntime.scheduleCall : ScheduleRuntime → ScheduleCall → Call Control Err ScheduleInfo
  | .sqlite, c => Call.tx (Sqlite.scheduleTx L B c)
  | .core S, c => Core.scheduleCall L B S c

/-- Besides the calls, cells change, and a schedule may be paused for its cell's repository. -/
def repoPauses (s s' : Control) : Prop :=
  ∀ k, s'.schedules.lookup k = s.schedules.lookup k ∨
    ∃ info, s.schedules.lookup k = some info ∧ info.state = .active ∧
      s'.schedules.lookup k = some (Control.repoPaused info)

/-- Any number of calls, on any schedules. -/
def scheduleSystem (r : ScheduleRuntime) :
    System Control ScheduleCall (Except Err ScheduleInfo) where
  body _ c := r.scheduleCall L B c
  allowed _ _ := True
  env := repoPauses

end Bodies

/-! ## How a row may change -/

/-- From the row `old` to the row `new`, while calls run. -/
structure ScheduleInfo.Moves (old new : ScheduleInfo) : Prop where
  generation : old.generation ≤ new.generation
  spec : old.specHash ≠ new.specHash → old.generation < new.generation
  archived : old.state = .archived → new.state = .archived
  /-- A schedule is archived under a generation of its own. -/
  archives : new.state = .archived → old.state = .archived ∨ old.generation < new.generation

/-- Once a schedule is there it stays, and its row moves. -/
def Moves (k : ScheduleKey) (s s' : Control) : Prop :=
  ∀ old, s.schedules.lookup k = some old →
    ∃ new, s'.schedules.lookup k = some new ∧ old.Moves new

namespace ScheduleInfo.Moves

theorem refl (info : ScheduleInfo) : info.Moves info where
  generation := Int.le_refl _
  spec h := absurd rfl h
  archived h := h
  archives h := .inl h

theorem trans {i₁ i₂ i₃ : ScheduleInfo} (h : i₁.Moves i₂) (h' : i₂.Moves i₃) : i₁.Moves i₃ where
  generation := Int.le_trans h.generation h'.generation
  spec hne := by
    have h₁ := h.generation
    have h₂ := h'.generation
    by_cases heq : i₁.specHash = i₂.specHash
    · have := h'.spec (heq ▸ hne)
      omega
    · have := h.spec heq
      omega
  archived ha := h'.archived (h.archived ha)
  archives ha := by
    have h₁ := h.generation
    have h₂ := h'.generation
    rcases h'.archives ha with ha₂ | hlt
    · rcases h.archives ha₂ with ha₁ | hlt
      · exact .inl ha₁
      · exact .inr (by omega)
    · exact .inr (by omega)

/-- A row under a higher generation, of a schedule that was not archived. -/
theorem raised {old new : ScheduleInfo} (h : old.generation < new.generation)
    (ha : old.state = .archived → new.state = .archived) : old.Moves new where
  generation := Int.le_of_lt h
  spec _ := h
  archived := ha
  archives _ := .inr h

theorem repoPaused {info : ScheduleInfo} (h : info.state = .active) :
    info.Moves (Control.repoPaused info) where
  generation := Int.le_refl _
  spec hne := absurd rfl hne
  archived ha := by
    rw [h] at ha
    cases ha
  archives ha := by cases ha

end ScheduleInfo.Moves

theorem Moves.refl (k : ScheduleKey) (s : Control) : Moves k s s := fun old h => ⟨old, h, .refl old⟩

variable {k : ScheduleKey} {s s' : Control} {stored : ScheduleInfo}

theorem Moves.trans {s₁ s₂ s₃ : Control} (h : Moves k s₁ s₂) (h' : Moves k s₂ s₃) :
    Moves k s₁ s₃ := by
  intro old hold
  obtain ⟨i₂, h₂, hm⟩ := h old hold
  obtain ⟨i₃, h₃, hm'⟩ := h' i₂ h₂
  exact ⟨i₃, h₃, hm.trans hm'⟩

theorem Moves.of_repoPauses (h : repoPauses s s') (k : ScheduleKey) : Moves k s s' := by
  intro old hold
  rcases h k with hsame | ⟨info, hinfo, hactive, hpaused⟩
  · exact ⟨old, hsame.trans hold, .refl old⟩
  · obtain rfl : old = info := Option.some.inj (hold.symm.trans hinfo)
    exact ⟨_, hpaused, .repoPaused hactive⟩

theorem lt_nextGeneration {existing : Option ScheduleInfo} {old : ScheduleInfo}
    (h : existing = some old) : old.generation < nextGeneration existing := by
  subst h
  show old.generation < old.generation + 1
  omega

/-- A row that is stored under the next generation. -/
theorem Moves.of_stores (h : ScheduleStore.Stores s s' k stored)
    (hgen : stored.generation = nextGeneration (s.schedules.lookup k))
    (ha : ∀ old, s.schedules.lookup k = some old → old.state = .archived → stored.state = .archived)
    (k' : ScheduleKey) : Moves k' s s' := by
  intro old hold
  have hk' := h k'
  by_cases heq : k' = k
  · subst heq
    rw [if_pos rfl] at hk'
    refine ⟨stored, hk', .raised ?_ (ha old hold)⟩
    rw [hgen]
    exact lt_nextGeneration hold
  · rw [if_neg heq] at hk'
    exact ⟨old, hk'.trans hold, .refl old⟩

/-! ## What a call has checked -/

section Checks

variable {L : CellLib} {B : ScheduleLib} {ctx : Ctx} {cells : Registry}
  {existing : Option ScheduleInfo} {clock : Time} {info : ScheduleInfo} {state : ScheduleState}

/-- An upsert goes through for a schedule that is not archived, at the generation it expects. -/
theorem checkUpsert_eq_ok {expected : Option Int} (h : checkUpsert existing expected = .ok ()) :
    (∀ old, existing = some old → old.state ≠ .archived) ∧
      ∀ g, expected = some g → existing.map (·.generation) = some g := by
  simp only [checkUpsert, ite_error_eq_ok] at h
  obtain ⟨harchived, hgen, -⟩ := h
  constructor
  · rintro old rfl ha
    exact harchived (by simp [ha])
  · rintro g rfl
    cases existing with
    | none => simp at hgen
    | some old => simpa using hgen

theorem checkGeneration_eq_ok {expected : Option Int} (h : checkGeneration info expected = .ok ()) :
    ∀ g, expected = some g → info.generation = g := by
  rintro g rfl
  simpa using (ite_error_eq_ok.1 h).1

theorem Mutated.checked {req : ScheduleMutationRequest} {old : ScheduleInfo}
    (h : Mutated req state existing info old) :
    (∀ g, req.expectedGeneration = some g → existing.map (·.generation) = some g) ∧
      ∀ old, existing = some old → old.state = .archived → info.state = .archived := by
  obtain ⟨next, now, rfl⟩ := h.row
  rw [h.found]
  refine ⟨fun g hg => congrArg some (checkGeneration_eq_ok h.expected g hg), fun old' hold ha => ?_⟩
  obtain rfl : old = old' := Option.some.inj hold
  by_contra hne
  exact (ite_error_eq_ok.1 h.notArchived).1 ⟨ha, hne⟩

end Checks

/-! ## The write of a call -/

namespace ScheduleCall

variable {L : CellLib} {B : ScheduleLib} {c : ScheduleCall} {s s' : Control} {stored : ScheduleInfo}

/-- A write that takes effect: it stores the next generation, at the generation that the call
expects. -/
structure Writes (c : ScheduleCall) (stored : ScheduleInfo) (s s' : Control) : Prop where
  stores : ScheduleStore.Stores s s' c.key stored
  generation : stored.generation = nextGeneration (s.schedules.lookup c.key)
  expected : ∀ g, c.expectedGeneration = some g →
    (s.schedules.lookup c.key).map (·.generation) = some g

/-- The write respects an archived schedule. -/
def KeepsArchived (c : ScheduleCall) (stored : ScheduleInfo) (s : Control) : Prop :=
  ∀ old, s.schedules.lookup c.key = some old → old.state = .archived → stored.state = .archived

theorem Writes.moves (h : c.Writes stored s s') (ha : c.KeepsArchived stored s) (k : ScheduleKey) :
    Moves k s s' := .of_stores h.stores h.generation ha k

/-- The write of the SQLite runtime. -/
theorem sqlite_writes (h : Sqlite.scheduleTx L B c s = .ok (stored, s')) :
    c.Writes stored s s' ∧ c.KeepsArchived stored s := by
  cases c with
  | upsert ctx clock req =>
    obtain ⟨info, hrow, h⟩ := bind_eq_ok.1 h
    obtain ⟨rfl, rfl⟩ := Prod.mk.inj (Except.ok.inj h)
    obtain ⟨hcheck, target, specHash, next, shown, now, rfl⟩ := upsertRow_eq_ok hrow
    obtain ⟨hactive, hexpected⟩ := checkUpsert_eq_ok hcheck
    refine ⟨⟨fun k => lookup_setSchedule .., rfl, hexpected⟩, fun old hold ha => ?_⟩
    exact absurd ha (hactive old hold)
  | mutate ctx clock req state =>
    obtain ⟨info, hrow, h⟩ := bind_eq_ok.1 h
    obtain ⟨rfl, rfl⟩ := Prod.mk.inj (Except.ok.inj h)
    obtain ⟨old, hmutated⟩ := sqlite_mutatedRow_eq_ok hrow
    obtain ⟨hexpected, ha⟩ := hmutated.checked
    exact ⟨⟨fun k => lookup_setSchedule .., (hmutated.describes req.key).generation, hexpected⟩, ha⟩

variable {S : ScheduleStore}

variable {row : ScheduleInfo} {ctx : Ctx} {clock : Time} {cells : Registry} {s₀ : Control}
  {current : Option ScheduleInfo}

/-- A schedule that a write of the core runtime finds archived, at the generation that the call
has read, was archived when the call read it. -/
theorem archived_when_read (hm : Moves k s₀ s) {old : ScheduleInfo}
    (hold : s.schedules.lookup k = some old) (ha : old.state = .archived) {g : Int}
    (hread : (s₀.schedules.lookup k).map (·.generation) = some g)
    (hg : (s.schedules.lookup k).map (·.generation) = some g) :
    ∃ current, s₀.schedules.lookup k = some current ∧ current.state = .archived := by
  obtain ⟨current, hcurrent, hcg⟩ := Option.map_eq_some_iff.1 hread
  obtain ⟨new, hnew, hmoves⟩ := hm current hcurrent
  obtain rfl : new = old := Option.some.inj (hnew.symm.trans hold)
  refine ⟨current, hcurrent, (hmoves.archives ha).resolve_right ?_⟩
  rw [hold] at hg
  have hng : new.generation = g := Option.some.inj hg
  omega

/-- The write of an upsert of the core runtime, which has found the schedule as `current`. -/
theorem core_upsert_writes (hS : S.Atomic) {req : UpsertScheduleRequest}
    (hrow : Core.upsertRow L B ctx cells current req clock = .ok row)
    (h : S.upsert (current.map (·.generation)) row s = .ok (stored, s')) :
    (upsert ctx clock req).Writes stored s s' ∧
      ∀ s₀, current = s₀.schedules.lookup req.key → Moves req.key s₀ s →
        (upsert ctx clock req).KeepsArchived stored s := by
  obtain ⟨hcheck, target, specHash, next, shown, now, rfl⟩ := upsertRow_eq_ok (b := .core) hrow
  obtain ⟨hactive, hexpected⟩ := checkUpsert_eq_ok hcheck
  obtain ⟨hgen, hstores⟩ := hS.upsert_stores h
  refine ⟨⟨hstores, hgen, fun g hg => hS.upsert_expected h (hexpected g hg)⟩, ?_⟩
  rintro s₀ rfl hm old hold ha
  exfalso
  cases hread : (s₀.schedules.lookup req.key).map (·.generation) with
  | none =>
    rw [hread] at h
    exact hS.upsert_archived h hold ha
  | some g =>
    obtain ⟨current, hcurrent, hca⟩ :=
      archived_when_read hm hold ha hread (hS.upsert_expected h hread)
    exact hactive current hcurrent hca

/-- The write of a change of state in the core runtime. -/
theorem core_mutate_writes (hS : S.Atomic) {req : ScheduleMutationRequest} {state : ScheduleState}
    (hrow : Core.mutatedRow L B ctx cells current req state clock = .ok row)
    (h : S.mutate (Core.scheduleChange req current row) s = .ok (stored, s')) :
    (mutate ctx clock req state).Writes stored s s' ∧
      ∀ s₀, current = s₀.schedules.lookup req.key → Moves req.key s₀ s →
        (mutate ctx clock req state).KeepsArchived stored s := by
  obtain ⟨hgen, hstate, hstores⟩ := hS.mutate_stores h
  obtain ⟨read, hmutated⟩ := core_mutatedRow_eq_ok hrow
  obtain ⟨hexpected, harchived⟩ := hmutated.checked
  refine ⟨⟨hstores, hgen, fun g hg => hS.mutate_expected h (hexpected g hg)⟩, ?_⟩
  rintro s₀ rfl hm old hold ha
  rw [hstate]
  have hread : (s₀.schedules.lookup req.key).map (·.generation) = some read.generation := by
    rw [hmutated.found]
    rfl
  obtain ⟨current, hcurrent, hca⟩ :=
    archived_when_read hm hold ha hread (hS.mutate_expected h hread)
  exact harchived current hcurrent hca

end ScheduleCall

/-! ## Runs -/

section Runs

variable {L : CellLib} {B : ScheduleLib} {r : ScheduleRuntime}

/-- How the schedules may change while calls run. -/
def AllMove (s s' : Control) : Prop := ∀ k, Moves k s s'

/-- **One call**: whatever the others do, its steps move the rows as they may. -/
theorem scheduleCall_moves (hr : r.Atomic) (c : ScheduleCall) :
    (r.scheduleCall L B c).Keeps (fun _ => True) AllMove AllMove := by
  have hrefl : ∀ s, AllMove s s := fun s k => .refl k s
  intro s
  cases r with
  | sqlite =>
    refine Call.Ensures.tx hrefl fun s₁ stored s₂ _ _ h => ⟨trivial, fun k => ?_, trivial⟩
    obtain ⟨hw, ha⟩ := ScheduleCall.sqlite_writes h
    exact hw.moves ha k
  | core S =>
    cases c with
    | upsert ctx clock req =>
      refine .query_bind hrefl fun s₁ cells _ _ _ => .query_bind hrefl fun s₂ current _ _ hc => ?_
      cases hc
      refine .check_bind fun row hrow => .tx hrefl fun s₃ stored s₄ _ hm h => ?_
      obtain ⟨hw, ha⟩ := ScheduleCall.core_upsert_writes hr hrow h
      exact ⟨trivial, hw.moves (ha s₂ rfl (hm req.key)), trivial⟩
    | mutate ctx clock req state =>
      -- the cells are read after the schedule, so the rows may move twice before the write
      refine .query_bind hrefl fun s₁ current _ _ hc => ?_
      cases hc
      refine .query_bind hrefl fun s₂ cells _ hm₁ _ => ?_
      refine .check_bind fun row hrow => .tx hrefl fun s₃ stored s₄ _ hm₂ h => ?_
      obtain ⟨hw, ha⟩ := ScheduleCall.core_mutate_writes hr hrow h
      have hm := (hm₁ req.key).trans (hm₂ req.key)
      exact ⟨trivial, hw.moves (ha s₁ rfl hm), trivial⟩

theorem scheduleSystem_sound (hr : r.Atomic) :
    (scheduleSystem L B r).Sound (fun _ => True) AllMove (fun _ _ => AllMove)
      fun _ _ _ _ => True where
  refl s k := .refl k s
  trans _ _ _ h h' k := (h k).trans (h' k)
  env _ _ _ h := ⟨trivial, fun k => .of_repoPauses h k⟩
  guar _ _ _ _ _ h := h
  stable _ _ _ _ _ _ _ _ := trivial
  body _ c s _ _ := Proc.Sat.imp (scheduleCall_moves hr c s) fun _ _ _ => trivial

/-- The call stores its row. -/
def ScheduleCall.TakesEffect (c : ScheduleCall) (a : Except Err ScheduleInfo) (s s' : Control) :
    Prop := ∃ stored, a = .ok stored ∧ c.Writes stored s s'

/-- The call has succeeded. -/
def Succeeded (a : Except Err ScheduleInfo) : Prop := ∃ stored, a = .ok stored

/-- A call that succeeds has taken effect in one step. -/
theorem scheduleCall_commits (hr : r.Atomic) (c : ScheduleCall) :
    (r.scheduleCall L B c).Commits (fun _ => True) Eq c.TakesEffect Succeeded := by
  have herror : ∀ e, ¬ Succeeded (.error e) := by
    rintro e ⟨stored, h⟩
    cases h
  cases r with
  | sqlite =>
    refine .tx herror (fun _ => rfl) fun s stored s' _ h => ⟨⟨stored, rfl⟩, stored, rfl, ?_⟩
    exact (ScheduleCall.sqlite_writes h).1
  | core S =>
    cases c with
    | upsert ctx clock req =>
      refine .bind herror (.query (fun _ => rfl) _) fun cells =>
        .bind herror (.query (fun _ => rfl) _) fun current => ?_
      refine .check_bind herror fun row hrow => .tx herror (fun _ => rfl) fun s stored s' _ h => ?_
      exact ⟨⟨stored, rfl⟩, stored, rfl, (ScheduleCall.core_upsert_writes hr hrow h).1⟩
    | mutate ctx clock req state =>
      refine .bind herror (.query (fun _ => rfl) _) fun current =>
        .bind herror (.query (fun _ => rfl) _) fun cells => ?_
      refine .check_bind herror fun row hrow => .tx herror (fun _ => rfl) fun s stored s' _ h => ?_
      exact ⟨⟨stored, rfl⟩, stored, rfl, (ScheduleCall.core_mutate_writes hr hrow h).1⟩

/-- The generation of a schedule, if it is there. -/
def Control.generation (k : ScheduleKey) (s : Control) : Option Int :=
  (s.schedules.lookup k).map (·.generation)

theorem Moves.notBelow (h : Moves k s s') : NotBelow (s.generation k) (s'.generation k) := by
  intro g hg
  obtain ⟨old, hold, rfl⟩ := Option.map_eq_some_iff.1 hg
  obtain ⟨new, hnew, hm⟩ := h old hold
  refine ⟨new.generation, ?_, hm.generation⟩
  unfold Control.generation
  rw [hnew]
  rfl

variable {g : Int} {c : ScheduleCall}

/-- A write leaves the generation behind at which it takes effect. -/
theorem ScheduleCall.Writes.above (h : c.Writes stored s s') (hg : s.generation c.key = some g) :
    Above g (s'.generation c.key) := by
  obtain ⟨old, hold, rfl⟩ := Option.map_eq_some_iff.1 hg
  refine ⟨stored.generation, ?_, ?_⟩
  · unfold Control.generation
    rw [h.stores, if_pos rfl]
    rfl
  · rw [h.generation]
    exact lt_nextGeneration hold

theorem ScheduleCall.Writes.notBelow (h : c.Writes stored s s') (k : ScheduleKey) :
    NotBelow (s.generation k) (s'.generation k) := by
  by_cases hk : k = c.key
  · subst hk
    intro g hg
    obtain ⟨g', hg', hlt⟩ := h.above hg
    exact ⟨g', hg', Int.le_of_lt hlt⟩
  · unfold Control.generation
    rw [h.stores, if_neg hk]
    exact .refl _

variable (L B r) in
/-- What happens to the schedules in a run. -/
def ScheduleHappens : System.Event ScheduleCall (Except Err ScheduleInfo) → Control → Control →
    Prop :=
  (scheduleSystem L B r).Happens (fun _ _ => Eq) fun _ => ScheduleCall.TakesEffect

theorem ScheduleHappens.notBelow {e : System.Event ScheduleCall (Except Err ScheduleInfo)}
    (h : ScheduleHappens L B r e s s') (k : ScheduleKey) :
    NotBelow (s.generation k) (s'.generation k) := by
  cases h with
  | env moves => exact (Moves.of_repoPauses moves k).notBelow
  | quiet moves =>
    cases moves
    exact .refl _
  | commit moves =>
    obtain ⟨stored, -, hw⟩ := moves
    exact hw.notBelow k

/-- A call takes effect at the generation it expects, and leaves it behind. -/
theorem ScheduleHappens.at_expected {i : Nat} {a : Except Err ScheduleInfo}
    (h : ScheduleHappens L B r (.commit i c a) s s') (hg : c.expectedGeneration = some g) :
    s.generation c.key = some g ∧ Above g (s'.generation c.key) := by
  cases h with
  | commit moves =>
    obtain ⟨stored, -, hw⟩ := moves
    exact ⟨hw.expected g hg, hw.above (hw.expected g hg)⟩

/-- **Of the calls that expect one generation at most one succeeds.** -/
theorem succeeds_once (hr : r.Atomic) {ls : List (System.Label ScheduleCall)} {s₀ : Control}
    {p : Pool Control ScheduleCall (Except Err ScheduleInfo)}
    (h : Along (scheduleSystem L B r).Step ls ⟨s₀, []⟩ p) {i j : Nat} {d : ScheduleCall}
    {a b : ScheduleInfo} (hi : p.Answered i c (.ok a)) (hj : p.Answered j d (.ok b))
    (hkey : c.key = d.key) (hc : c.expectedGeneration = some g) (hd : d.expectedGeneration = some g)
    : i = j := by
  have hhistory : ∃ es, (scheduleSystem L B r).History (fun _ => True) (fun _ _ => Eq)
      (fun _ => ScheduleCall.TakesEffect) (fun _ => Succeeded) s₀ p es :=
    @System.history _ _ _ _ _ _ _ _ (fun _ => True) (fun _ _ => trivial) (fun _ _ _ _ _ => trivial)
      (fun _ c _ _ _ => (scheduleCall_commits hr c).proc) _ _ _ h trivial
  obtain ⟨es, hes⟩ := hhistory
  have hmi := hes.commit_iff.2 ⟨hi, a, rfl⟩
  have hmj := hes.commit_iff.2 ⟨hj, b, rfl⟩
  have hdat : ∀ s s', ScheduleHappens L B r (.commit j d (.ok b)) s s' →
      s.generation c.key = some g ∧ Above g (s'.generation c.key) := by
    intro s s' he
    rw [hkey]
    exact he.at_expected hd
  have halong : Along (ScheduleHappens L B r) es s₀ p.shared := hes.along
  have heq := halong.eq_of_same_version (fun _ _ _ he => he.notBelow c.key)
    (fun _ _ he => he.at_expected hc) hdat hmi hmj
  cases heq
  rfl

/-- **Generations of schedules.** In every run of the calls, from any state: between any two points
the generation of a schedule does not go down, it goes up if the spec changes, and an archived
schedule stays archived; and of the calls that expect one generation at most one succeeds. -/
theorem schedule_generations (hr : r.Atomic) {ls₁ ls₂ : List (System.Label ScheduleCall)}
    {s₀ : Control} {p₁ p₂ : Pool Control ScheduleCall (Except Err ScheduleInfo)}
    (h₁ : Along (scheduleSystem L B r).Step ls₁ ⟨s₀, []⟩ p₁)
    (h₂ : Along (scheduleSystem L B r).Step ls₂ p₁ p₂) (k : ScheduleKey) :
    (∀ old, p₁.shared.schedules.lookup k = some old →
      ∃ new, p₂.shared.schedules.lookup k = some new ∧ old.generation ≤ new.generation ∧
        (old.specHash ≠ new.specHash → old.generation < new.generation) ∧
        (old.state = .archived → new.state = .archived)) ∧
    ∀ i j c d a b g, p₂.Answered i c (.ok a) → p₂.Answered j d (.ok b) → c.key = k → d.key = k →
      c.expectedGeneration = some g → d.expectedGeneration = some g → i = j := by
  constructor
  · intro old hold
    have hsound := scheduleSystem_sound (L := L) (B := B) hr
    have hok := (hsound.run h₁ (System.Ok.start trivial)).1
    obtain ⟨new, hnew, hm⟩ := (hsound.run h₂ hok).2 k old hold
    exact ⟨new, hnew, hm.generation, hm.spec, hm.archived⟩
  · intro i j c d a b g hi hj hc hd hcg hdg
    exact succeeds_once hr (h₁.trans h₂) hi hj (hc.trans hd.symm) hcg hdg

end Runs

/-- The schedules to start with: one in its first generation. -/
def firstGeneration : Control := (trace .plain .utc .core ⟨"tenant", "backup"⟩ scheduleInCell).1

/-- An upsert of a caller that has seen the first generation. -/
def secondGeneration : ScheduleCall :=
  .upsert .admin 0
    { tenantId := "tenant", scheduleId := "backup",
      trigger := { kind := .interval, interval := 2000000000 }, expectedGeneration := some 1
      target := { cell := "main", jobType := "job", data := some { data := "" } } }

/-- Two such upserts meet in the core runtime, over a scheduler that keeps a table: both read the
first generation before one of them writes. -/
def upsertsMeet : List (System.Move Control ScheduleCall) :=
  [.call secondGeneration, .call secondGeneration, .run 0, .run 1, .run 0, .run 1, .run 1, .run 0]

/-- The upsert that writes first succeeds, and the other does not. -/
theorem schedule_generations_meet :
    let p :=
      upsertsMeet.foldl (scheduleSystem .plain .utc (.core .table)).drive ⟨firstGeneration, []⟩
    p.shared.generation ⟨"tenant", "backup"⟩ = some 2 ∧
      p.threads.map (fun t => t.2.running) = [false, false] ∧
      (∀ i j c d a b g, p.Answered i c (.ok a) → p.Answered j d (.ok b) →
        c.key = ⟨"tenant", "backup"⟩ → d.key = ⟨"tenant", "backup"⟩ →
        c.expectedGeneration = some g → d.expectedGeneration = some g → i = j) := by
  obtain ⟨ls, hrun⟩ : ∃ ls, Along (scheduleSystem .plain .utc (.core .table)).Step ls
      ⟨firstGeneration, []⟩
      (upsertsMeet.foldl (scheduleSystem .plain .utc (.core .table)).drive ⟨firstGeneration, []⟩) :=
    System.drive_along (by trivial)
  refine ⟨by decide, by decide, ?_⟩
  exact (schedule_generations (r := .core .table) ScheduleStore.table_atomic .nil hrun
    ⟨"tenant", "backup"⟩).2

end JobDB
