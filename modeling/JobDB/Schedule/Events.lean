import JobDB.Schedule.Control

/-!
# What happens to a schedule

`ControlOp` are the operations on cells and schedules. An operation does nothing to a
given schedule or is one `ScheduleEvent` of its life; `Describes` says what an event
writes, and `ControlOp.follows` that every operation does what its event says, in each of
the runtimes. What later modules need to know about the operations they take from there.

`trace` follows one schedule through a sequence of operations. `Agrees` says what can be
read off its events: its state, and whether its `pauseReason` names the repository.
-/

namespace JobDB

/-! ## Operations and events -/

/-- The operations on cells and schedules, with their arguments. `ScheduleState` is that of
`PauseSchedule`, `ResumeSchedule` or `ArchiveSchedule`. -/
inductive ControlOp where
  | createCell (ctx : Ctx) (now : Time) (id revision : String) (req : CreateCellRequest)
  | createCellWithLease (ctx : Ctx) (now : Time) (id revision : String) (proof : LeaseProof)
      (req : CreateCellRequest)
  | updateCell (ctx : Ctx) (now : Time) (revision : String) (req : UpdateCellRequest)
  | retireCell (ctx : Ctx) (now : Time) (revision : String) (busy : String → Except Err Bool)
      (req : RetireCellRequest)
  | upsert (ctx : Ctx) (clock : Time) (req : UpsertScheduleRequest)
  | mutate (ctx : Ctx) (clock : Time) (req : ScheduleMutationRequest) (state : ScheduleState)

/-- What can happen to a schedule. -/
inductive ScheduleEvent where
  | upserted (paused : Bool)
  | changed (state : ScheduleState)
  /-- Its cell has another repository. -/
  | repoPaused
  /-- A resume failed after the pause reason was cleared. -/
  | reasonCleared
deriving DecidableEq, Repr

namespace ScheduleEvent

/-- The event writes the pause reason. -/
def setsReason : ScheduleEvent → Bool
  | .changed state => state = .active
  | _ => true

/-- The event raises the generation. -/
def raises : ScheduleEvent → Bool
  | .upserted _ | .changed _ => true
  | .repoPaused | .reasonCleared => false

/-- The state that the event leaves the schedule in, if it writes it. -/
def state? : ScheduleEvent → Option ScheduleState
  | .upserted paused => some (if paused then .paused else .active)
  | .changed state => some state
  | .repoPaused => some .paused
  | .reasonCleared => none

end ScheduleEvent

section Trace

variable (L : CellLib) (B : ScheduleLib) (b : Backend)

/-- One operation; a refused one leaves the store. -/
def ControlOp.step (s : Control) : ControlOp → Control
  | .createCell ctx now id revision req =>
    (Tx.commit (Control.createCell L ctx now id revision req) s).2
  | .createCellWithLease ctx now id revision proof req =>
    (Tx.commit (Control.createCellWithLease L ctx now id revision proof req) s).2
  | .updateCell ctx now revision req => (Tx.commit (Control.updateCell L ctx now revision req) s).2
  | .retireCell ctx now revision busy req =>
    (Tx.commit (Control.retireCell L ctx now revision busy req) s).2
  | .upsert ctx clock req => (Tx.commit (Control.upsertSchedule L B b ctx clock req) s).2
  | .mutate ctx clock req state => (Control.mutateSchedule L B b ctx clock req state s).2

/-- The schedule `k` is paused by an update of its cell. -/
def pausedBy (ctx : Ctx) (now : Time) (revision : String) (req : UpdateCellRequest)
    (k : ScheduleKey) (s : Control) : Bool :=
  match Registry.update L ctx now revision req (s.cells req.key.tenantID) with
  | .ok (c, _) =>
    s.repoChanged req.key.tenantID req.key.cellID c &&
      (s.schedules.lookup k).any fun info =>
        k.tenantId = req.key.tenantID ∧ info.state = .active ∧ info.target.cellID = req.key.cellID
  | .error _ => false

/-- The event of a change of state: it may also have failed, having cleared the pause reason. -/
def changeEvent (ctx : Ctx) (clock : Time) (req : ScheduleMutationRequest) (state : ScheduleState)
    (s : Control) : Option ScheduleEvent :=
  match (Control.mutateSchedule L B b ctx clock req state s).1 with
  | .ok _ => some (.changed state)
  | .error _ =>
    if b = .toy ∧ state = .active ∧
        (Toy.preparedRow ctx (s.cells req.key.tenantId) (s.schedules.lookup req.key) req
          state).toOption.isSome then
      some .reasonCleared
    else none

/-- What an operation does to the schedule `k`. -/
def ControlOp.event (k : ScheduleKey) (s : Control) : ControlOp → Option ScheduleEvent
  | .updateCell ctx now revision req =>
    if pausedBy L ctx now revision req k s then some .repoPaused else none
  | .upsert ctx clock req =>
    if req.key = k ∧ (Control.upsertSchedule L B b ctx clock req s).toOption.isSome then
      some (.upserted req.paused)
    else none
  | .mutate ctx clock req state =>
    if req.key = k then changeEvent L B b ctx clock req state s else none
  | _ => none

/-- A sequence of operations on an empty store: the store it leads to, and what happened to the
schedule `k`. -/
def trace (k : ScheduleKey) (ops : List ControlOp) : Control × List ScheduleEvent :=
  ops.foldl (fun p op => (op.step L B b p.1, p.2 ++ (op.event L B b k p.1).toList)) ({}, [])

end Trace

/-! ## What the events tell -/

/-- The last event that wrote the pause reason was a change of the repository. -/
def RepoPauseStands (events : List ScheduleEvent) : Prop :=
  (events.filter (·.setsReason)).getLast? = some .repoPaused

instance (events : List ScheduleEvent) : Decidable (RepoPauseStands events) :=
  inferInstanceAs (Decidable (_ = _))

/-- The last event that wrote the state. -/
def lastChange (events : List ScheduleEvent) : Option ScheduleEvent :=
  (events.filter (·.state?.isSome)).getLast?

/-- The schedule's row as its events tell. -/
structure Agrees (row : Option ScheduleInfo) (events : List ScheduleEvent) : Prop where
  reason : (∃ info, row = some info ∧ info.pauseReason = "cell_repo_mismatch") ↔
    RepoPauseStands events
  state : row.map (·.state) = (lastChange events).bind (·.state?)

/-- The row of the schedule `k` after an event, against the row before. -/
structure Describes (k : ScheduleKey) (e : ScheduleEvent) (old : Option ScheduleInfo)
    (new : ScheduleInfo) : Prop where
  key : (∀ info, old = some info → info.key = k) → new.key = k
  generation : if e.raises then new.generation = nextGeneration old
    else ∃ info, old = some info ∧ new.generation = info.generation ∧ new.trigger = info.trigger
  nextJobID : e.raises = true → ∀ jobID, new.nextJobID = some jobID → jobID ≠ ""
  reason : if e.setsReason then (new.pauseReason = "cell_repo_mismatch" ↔ e = .repoPaused)
    else ∃ info, old = some info ∧ new.pauseReason = info.pauseReason
  state : e.state? = some new.state ∨
    (e.state? = none ∧ ∃ info, old = some info ∧ new.state = info.state)

theorem agrees_nil : Agrees none [] where
  reason := by
    constructor
    · rintro ⟨_, h, _⟩
      cases h
    · intro h
      cases h
  state := rfl

variable {k : ScheduleKey}

/-- One more event. -/
theorem Agrees.concat {old : Option ScheduleInfo} {events : List ScheduleEvent} {e : ScheduleEvent}
    {new : ScheduleInfo} (h : Agrees old events) (he : Describes k e old new) :
    Agrees (some new) (events ++ [e]) where
  reason := by
    have hr := he.reason
    unfold RepoPauseStands
    rw [List.filter_append]
    by_cases hs : e.setsReason
    · rw [if_pos hs] at hr
      rw [List.filter_cons_of_pos hs, List.filter_nil, List.getLast?_append]
      simp [hr]
    · rw [if_neg hs] at hr
      obtain ⟨info, rfl, hsame⟩ := hr
      rw [List.filter_cons_of_neg hs, List.filter_nil, List.append_nil]
      rw [← RepoPauseStands, ← h.reason]
      simp [hsame]
  state := by
    unfold lastChange
    rw [List.filter_append]
    rcases he.state with hs | ⟨hs, info, rfl, hsame⟩
    · rw [List.filter_cons_of_pos (by simp [hs]), List.filter_nil, List.getLast?_append]
      simp [hs]
    · rw [List.filter_cons_of_neg (by simp [hs]), List.filter_nil, List.append_nil]
      rw [← lastChange, ← h.state]
      simp [hsame]

/-! ## What an operation stores -/

section Rows

variable {L : CellLib} {B : ScheduleLib} {b : Backend} {ctx : Ctx} {cells : Registry}
  {existing : Option ScheduleInfo} {clock : Time} {info : ScheduleInfo} {state : ScheduleState}

/-- Whatever the runtime, an upsert that passes its check stores a row made from the request. -/
theorem upsertRow_eq_ok {req : UpsertScheduleRequest}
    (h : b.upsertRow L B ctx cells existing req clock = .ok info) :
    checkUpsert existing req.expectedGeneration = .ok () ∧
      ∃ target specHash next shown now,
        info = upsertedRow req target specHash next shown now existing := by
  cases b with
  | core =>
    unfold Backend.upsertRow Core.upsertRow at h
    obtain ⟨_, _, h⟩ := bind_eq_ok.mp h
    obtain ⟨_, _, h⟩ := bind_eq_ok.mp h
    obtain ⟨_, _, h⟩ := bind_eq_ok.mp h
    obtain ⟨target, _, h⟩ := bind_eq_ok.mp h
    obtain ⟨specHash, _, h⟩ := bind_eq_ok.mp h
    obtain ⟨next, _, h⟩ := bind_eq_ok.mp h
    obtain ⟨_, hcheck, h⟩ := bind_eq_ok.mp h
    exact ⟨hcheck, _, _, _, _, _, (Except.ok.inj h).symm⟩
  | sqlite | toy =>
    all_goals
      simp only [Backend.upsertRow, Sqlite.upsertRow, Toy.upsertRow] at h
      unfold upsertWith at h
      obtain ⟨_, _, h⟩ := bind_eq_ok.mp h
      obtain ⟨_, _, h⟩ := bind_eq_ok.mp h
      obtain ⟨target, _, h⟩ := bind_eq_ok.mp h
      obtain ⟨_, _, h⟩ := bind_eq_ok.mp h
      obtain ⟨next, _, h⟩ := bind_eq_ok.mp h
      obtain ⟨cell, _, h⟩ := bind_eq_ok.mp h
      obtain ⟨specHash, _, h⟩ := bind_eq_ok.mp h
      obtain ⟨_, hcheck, h⟩ := bind_eq_ok.mp h
      exact ⟨hcheck, _, _, _, _, _, (Except.ok.inj h).symm⟩

theorem upsertedRow_describes (req : UpsertScheduleRequest) (target : ScheduleTarget)
    (specHash : String) (next shown : Option Time) (now : Time) :
    Describes req.key (.upserted req.paused) existing
      (upsertedRow req target specHash next shown now existing) where
  key _ := rfl
  generation := rfl
  nextJobID _ jobID h := by
    unfold upsertedRow at h
    dsimp only at h
    split at h
    · cases h
    · obtain ⟨t, -, rfl⟩ := Option.map_eq_some_iff.1 h
      exact scheduleRunJobID_ne_empty _ _ _
  reason := by simp [ScheduleEvent.setsReason, upsertedRow]
  state := .inl rfl

theorem loadSchedule_eq_ok (h : loadSchedule existing = .ok info) : existing = some info := by
  unfold loadSchedule at h
  split at h
  · cases h
  · rw [Except.ok.inj h]

/-- Only a resume touches the row before the state changes. -/
theorem prepareMutation_eq_ok {prepared : ScheduleInfo}
    (h : prepareMutation ctx cells info state = .ok prepared) :
    prepared = if state = .active then { info with pauseReason := "" } else info := by
  unfold prepareMutation at h
  split at h
  · next hs =>
    obtain ⟨_, _, h⟩ := bind_eq_ok.mp h
    rw [if_pos hs, Except.ok.inj h]
  · next hs => rw [if_neg hs, Except.ok.inj h]

/-- The row with its new state, whatever else is written. -/
theorem mutatedRow_describes (k : ScheduleKey) (next : Option Time) (now : Time) :
    Describes k (.changed state) (some info)
      (mutatedRow (if state = .active then { info with pauseReason := "" } else info) state next
        now) where
  key hk := by
    by_cases hs : state = .active
    · rw [if_pos hs]
      exact hk info rfl
    · rw [if_neg hs]
      exact hk info rfl
  generation := by
    by_cases hs : state = .active
    · rw [if_pos hs]
      rfl
    · rw [if_neg hs]
      rfl
  nextJobID _ jobID h := by
    unfold mutatedRow at h
    dsimp only at h
    split at h
    · obtain ⟨t, -, rfl⟩ := Option.map_eq_some_iff.1 h
      exact scheduleRunJobID_ne_empty _ _ _
    · cases h
  reason := by
    by_cases hs : state = .active
    · simp [hs, ScheduleEvent.setsReason, mutatedRow]
    · simp [hs, ScheduleEvent.setsReason, mutatedRow]
  state := .inl (by rfl)

variable {req : ScheduleMutationRequest}

/-- What a change of state has checked when it goes through, and the row it stores. -/
structure Mutated (req : ScheduleMutationRequest) (state : ScheduleState)
    (existing : Option ScheduleInfo) (info old : ScheduleInfo) : Prop where
  found : existing = some old
  expected : checkGeneration old req.expectedGeneration = .ok ()
  notArchived : checkNotArchived old state = .ok ()
  row : ∃ next now, info =
    mutatedRow (if state = .active then { old with pauseReason := "" } else old) state next now

theorem Mutated.describes {old : ScheduleInfo} (h : Mutated req state existing info old)
    (k : ScheduleKey) : Describes k (.changed state) existing info := by
  obtain ⟨next, now, rfl⟩ := h.row
  rw [h.found]
  exact mutatedRow_describes k next now

theorem sqlite_mutatedRow_eq_ok
    (h : Sqlite.mutatedRow B ctx cells existing req state clock = .ok info) :
    ∃ old, Mutated req state existing info old := by
  unfold Sqlite.mutatedRow at h
  obtain ⟨_, _, h⟩ := bind_eq_ok.mp h
  obtain ⟨old, hload, h⟩ := bind_eq_ok.mp h
  obtain ⟨_, hgen, h⟩ := bind_eq_ok.mp h
  obtain ⟨_, hopen, h⟩ := bind_eq_ok.mp h
  obtain ⟨prepared, hprep, h⟩ := bind_eq_ok.mp h
  obtain ⟨next, _, h⟩ := bind_eq_ok.mp h
  obtain rfl := prepareMutation_eq_ok hprep
  exact ⟨old, loadSchedule_eq_ok hload, hgen, hopen, next, _, (Except.ok.inj h).symm⟩

theorem core_mutatedRow_eq_ok
    (h : Core.mutatedRow L B ctx cells existing req state clock = .ok info) :
    ∃ old, Mutated req state existing info old := by
  unfold Core.mutatedRow at h
  obtain ⟨_, _, h⟩ := bind_eq_ok.mp h
  obtain ⟨old, hload, h⟩ := bind_eq_ok.mp h
  obtain ⟨_, hopen, h⟩ := bind_eq_ok.mp h
  obtain ⟨_, hgen, h⟩ := bind_eq_ok.mp h
  refine ⟨old, loadSchedule_eq_ok hload, hgen, hopen, ?_⟩
  split at h
  · next hs =>
    obtain ⟨next, _, h⟩ := bind_eq_ok.mp h
    rw [if_pos hs]
    exact ⟨next, _, (Except.ok.inj h).symm⟩
  · next hs =>
    rw [if_neg hs]
    exact ⟨none, _, (Except.ok.inj h).symm⟩

theorem toy_preparedRow_eq_ok (h : Toy.preparedRow ctx cells existing req state = .ok info) :
    ∃ old, existing = some old ∧ checkGeneration old req.expectedGeneration = .ok () ∧
      checkNotArchived old state = .ok () ∧
      info = if state = .active then { old with pauseReason := "" } else old := by
  unfold Toy.preparedRow at h
  obtain ⟨old, hload, h⟩ := bind_eq_ok.mp h
  obtain ⟨_, hgen, h⟩ := bind_eq_ok.mp h
  obtain ⟨_, hopen, h⟩ := bind_eq_ok.mp h
  exact ⟨old, loadSchedule_eq_ok hload, hgen, hopen, prepareMutation_eq_ok h⟩

theorem toy_mutatedRow_eq_ok {prepared : ScheduleInfo}
    (h : Toy.mutatedRow B prepared req state clock = .ok info) :
    ∃ next now, info = mutatedRow prepared state next now := by
  unfold Toy.mutatedRow at h
  obtain ⟨next, _, h⟩ := bind_eq_ok.mp h
  exact ⟨next, _, (Except.ok.inj h).symm⟩

end Rows

/-! ## One operation -/

section Step

variable {L : CellLib} {B : ScheduleLib} {b : Backend}

/-- What one operation does to a schedule: nothing, or what its event says. -/
def Follows (k : ScheduleKey) (e : Option ScheduleEvent) (old new : Option ScheduleInfo) : Prop :=
  (e = none ∧ new = old) ∨ ∃ e' info, e = some e' ∧ new = some info ∧ Describes k e' old info

theorem Agrees.follows {old new : Option ScheduleInfo} {events : List ScheduleEvent}
    {e : Option ScheduleEvent} (h : Agrees old events) (he : Follows k e old new) :
    Agrees new (events ++ e.toList) := by
  rcases he with ⟨rfl, rfl⟩ | ⟨e', info, rfl, rfl, hd⟩
  · simpa using h
  · exact h.concat hd

theorem commit_onCells_schedules (tenant : String) (op : Registry → Except Err (Cell × Registry))
    (s : Control) : (Tx.commit (Control.onCells tenant op) s).2.schedules = s.schedules := by
  unfold Tx.commit Control.onCells
  cases op (s.cells tenant) <;> rfl

theorem repoPaused_describes (k : ScheduleKey) (info : ScheduleInfo) :
    Describes k .repoPaused (some info) (Control.repoPaused info) where
  key hk := hk info rfl
  generation := ⟨info, rfl, rfl, rfl⟩
  nextJobID h := absurd h (by decide)
  reason := by simp [ScheduleEvent.setsReason, Control.repoPaused]
  state := .inl rfl

theorem updateCell_follows (ctx : Ctx) (now : Time) (revision : String) (req : UpdateCellRequest)
    (k : ScheduleKey) (s : Control) :
    Follows k (if pausedBy L ctx now revision req k s then some .repoPaused else none)
      (s.schedules.lookup k)
      ((Tx.commit (Control.updateCell L ctx now revision req) s).2.schedules.lookup k) := by
  unfold pausedBy Tx.commit Control.updateCell
  cases hu : Registry.update L ctx now revision req (s.cells req.key.tenantID) with
  | error e => exact .inl ⟨rfl, rfl⟩
  | ok r =>
    obtain ⟨c, r⟩ := r
    show Follows k _ _ (AList.lookup k
      (if s.repoChanged req.key.tenantID req.key.cellID c then
        Control.pauseBound req.key.tenantID req.key.cellID s.schedules else s.schedules))
    by_cases hc : s.repoChanged req.key.tenantID req.key.cellID c
    · rw [if_pos hc]
      unfold Control.pauseBound
      rw [Table.lookup_mapValues]
      cases hk : s.schedules.lookup k with
      | none => exact .inl ⟨by simp, rfl⟩
      | some info =>
        by_cases hp : k.tenantId = req.key.tenantID ∧ info.state = .active ∧
            info.target.cellID = req.key.cellID
        · refine .inr ⟨.repoPaused, Control.repoPaused info, ?_, ?_, repoPaused_describes k info⟩
          · simp [hc, hp]
          · simp [hp]
        · refine .inl ⟨?_, ?_⟩
          · simp [hp]
          · simp [hp]
    · rw [if_neg hc]
      exact .inl ⟨by simp [hc], rfl⟩

theorem lookup_setSchedule (s : Control) (k k' : ScheduleKey) (info : ScheduleInfo) :
    (s.setSchedule k info).schedules.lookup k' =
      if k' = k then some info else s.schedules.lookup k' :=
  Table.lookup_insert_eq ..

theorem upsert_follows (ctx : Ctx) (clock : Time) (req : UpsertScheduleRequest) (k : ScheduleKey)
    (s : Control) :
    Follows k
      (if req.key = k ∧ (Control.upsertSchedule L B b ctx clock req s).toOption.isSome then
        some (.upserted req.paused) else none)
      (s.schedules.lookup k)
      ((Tx.commit (Control.upsertSchedule L B b ctx clock req) s).2.schedules.lookup k) := by
  unfold Tx.commit Control.upsertSchedule
  cases hu : b.upsertRow L B ctx (s.cells req.tenantId) (s.schedules.lookup req.key) req clock with
  | error e => exact .inl ⟨if_neg fun h => Bool.false_ne_true h.2, rfl⟩
  | ok info =>
    show Follows k _ _ ((s.setSchedule req.key info).schedules.lookup k)
    rw [lookup_setSchedule]
    by_cases hk : req.key = k
    · subst hk
      rw [if_pos rfl, if_pos ⟨rfl, rfl⟩]
      obtain ⟨-, target, specHash, next, shown, now, rfl⟩ := upsertRow_eq_ok hu
      exact .inr ⟨_, _, rfl, rfl, upsertedRow_describes ..⟩
    · rw [if_neg (Ne.symm hk), if_neg fun h => hk h.1]
      exact .inl ⟨rfl, rfl⟩

section Mutate

variable (ctx : Ctx) (clock : Time) (req : ScheduleMutationRequest) (state : ScheduleState)
  (s : Control)

/-- What a change of state can do: it stores the changed row, it does nothing, or, in the toy
runtime, it fails when the row is stored without its pause reason. -/
theorem mutateSchedule_cases :
    (∃ info old, Control.mutateSchedule L B b ctx clock req state s =
        (.ok info, s.setSchedule req.key info) ∧
      Mutated req state (s.schedules.lookup req.key) info old) ∨
    (∃ e, Control.mutateSchedule L B b ctx clock req state s = (.error e, s) ∧
      changeEvent L B b ctx clock req state s = none) ∨
    ∃ e old prepared, Control.mutateSchedule L B b ctx clock req state s =
        (.error e, s.setSchedule req.key prepared) ∧
      s.schedules.lookup req.key = some old ∧
      prepared = (if state = .active then { old with pauseReason := "" } else old) ∧
      changeEvent L B b ctx clock req state s =
        if state = .active then some .reasonCleared else none := by
  unfold changeEvent Control.mutateSchedule
  cases b with
  | core =>
    unfold Tx.commit Control.mutateCore
    cases hm : Core.mutatedRow L B ctx (s.cells req.key.tenantId) (s.schedules.lookup req.key) req
        state clock with
    | error e => exact .inr (.inl ⟨e, rfl, rfl⟩)
    | ok info =>
      obtain ⟨old, hmutated⟩ := core_mutatedRow_eq_ok hm
      exact .inl ⟨info, old, rfl, hmutated⟩
  | sqlite =>
    unfold Tx.commit Control.mutateSqlite
    cases hm : Sqlite.mutatedRow B ctx (s.cells req.key.tenantId) (s.schedules.lookup req.key) req
        state clock with
    | error e => exact .inr (.inl ⟨e, rfl, rfl⟩)
    | ok info =>
      obtain ⟨old, hmutated⟩ := sqlite_mutatedRow_eq_ok hm
      exact .inl ⟨info, old, rfl, hmutated⟩
  | toy =>
    unfold Control.mutateToy
    cases hp : Toy.preparedRow ctx (s.cells req.key.tenantId) (s.schedules.lookup req.key) req
        state with
    | error e => exact .inr (.inl ⟨e, rfl, by simp [Except.toOption]⟩)
    | ok prepared =>
      obtain ⟨old, hold, hgen, hopen, hprep⟩ := toy_preparedRow_eq_ok hp
      dsimp only
      cases hm : Toy.mutatedRow B prepared req state clock with
      | ok info =>
        obtain ⟨next, now, rfl⟩ := toy_mutatedRow_eq_ok hm
        exact .inl ⟨_, old, rfl, hold, hgen, hopen, next, now, by rw [hprep]⟩
      | error e => exact .inr (.inr ⟨e, old, prepared, rfl, hold, hprep, by simp [Except.toOption]⟩)

variable {ctx clock req state s}

/-- A change of state that succeeds has stored the row it answers with. -/
theorem mutateSchedule_stored {info : ScheduleInfo}
    (h : (Control.mutateSchedule L B b ctx clock req state s).1 = .ok info) :
    (Control.mutateSchedule L B b ctx clock req state s).2.schedules.lookup req.key =
      some info := by
  obtain ⟨_, _, heq, -⟩ | ⟨_, heq, -⟩ | ⟨_, _, _, heq, -⟩ :=
    @mutateSchedule_cases L B b ctx clock req state s
  · rw [heq] at h ⊢
    cases h
    exact (lookup_setSchedule ..).trans (if_pos rfl)
  · rw [heq] at h
    cases h
  · rw [heq] at h
    cases h

/-- The event of a change of state that succeeds. -/
theorem changeEvent_of_ok {info : ScheduleInfo}
    (h : (Control.mutateSchedule L B b ctx clock req state s).1 = .ok info) :
    changeEvent L B b ctx clock req state s = some (.changed state) := by
  unfold changeEvent
  rw [h]

/-- The row that a change of state stores, or the one a failed change leaves behind. -/
theorem mutate_follows :
    Follows req.key (changeEvent L B b ctx clock req state s) (s.schedules.lookup req.key)
      ((Control.mutateSchedule L B b ctx clock req state s).2.schedules.lookup req.key) := by
  obtain ⟨info, old, heq, hm⟩ | ⟨e, heq, he⟩ | ⟨e, old, prepared, heq, hold, hprep, he⟩ :=
    @mutateSchedule_cases L B b ctx clock req state s
  · have hok : (Control.mutateSchedule L B b ctx clock req state s).1 = .ok info := by rw [heq]
    exact .inr ⟨_, info, changeEvent_of_ok hok, mutateSchedule_stored hok, hm.describes _⟩
  · rw [he, heq]
    exact .inl ⟨rfl, rfl⟩
  · rw [he, heq, lookup_setSchedule, if_pos rfl, hold]
    -- the reason is cleared by a resume only
    by_cases hs : state = .active
    · rw [if_pos hs] at hprep ⊢
      refine .inr ⟨.reasonCleared, prepared, rfl, rfl, ?_⟩
      rw [hprep]
      exact ⟨fun hk => hk old rfl, ⟨old, rfl, rfl, rfl⟩, fun h => absurd h (by decide),
        by simp [ScheduleEvent.setsReason], .inr ⟨rfl, old, rfl, rfl⟩⟩
    · rw [if_neg hs] at hprep ⊢
      exact .inl ⟨rfl, by rw [hprep]⟩

/-- A change of one schedule leaves the others. -/
theorem mutate_other (hk : k ≠ req.key) :
    (Control.mutateSchedule L B b ctx clock req state s).2.schedules.lookup k =
      s.schedules.lookup k := by
  obtain ⟨_, _, heq, -⟩ | ⟨_, heq, -⟩ | ⟨_, _, _, heq, -⟩ :=
    @mutateSchedule_cases L B b ctx clock req state s
  · rw [heq, lookup_setSchedule, if_neg hk]
  · rw [heq]
  · rw [heq, lookup_setSchedule, if_neg hk]

end Mutate

/-- **One operation** does to a schedule what its event says. -/
theorem ControlOp.follows (op : ControlOp) (k : ScheduleKey) (s : Control) :
    Follows k (op.event L B b k s) (s.schedules.lookup k)
      ((op.step L B b s).schedules.lookup k) := by
  cases op with
  | createCell ctx now id revision req =>
    exact .inl ⟨rfl, congrArg (AList.lookup k) (commit_onCells_schedules ..)⟩
  | createCellWithLease ctx now id revision proof req =>
    exact .inl ⟨rfl, congrArg (AList.lookup k) (commit_onCells_schedules ..)⟩
  | updateCell ctx now revision req => exact updateCell_follows ctx now revision req k s
  | retireCell ctx now revision busy req =>
    exact .inl ⟨rfl, congrArg (AList.lookup k) (commit_onCells_schedules ..)⟩
  | upsert ctx clock req => exact upsert_follows ctx clock req k s
  | mutate ctx clock req state =>
    show Follows k (if req.key = k then _ else _) _ _
    by_cases hk : req.key = k
    · subst hk
      rw [if_pos rfl]
      exact mutate_follows
    · rw [if_neg hk]
      exact .inl ⟨rfl, mutate_other (Ne.symm hk)⟩

/-- After any operations, a schedule is as its events tell. -/
theorem trace_agrees (k : ScheduleKey) (ops : List ControlOp) :
    Agrees ((trace L B b k ops).1.schedules.lookup k) (trace L B b k ops).2 := by
  unfold trace
  refine List.foldlRecOn ops _ (motive := fun p : Control × List ScheduleEvent =>
    Agrees (p.1.schedules.lookup k) p.2) agrees_nil
    fun p hp op _ => ?_
  exact hp.follows (op.follows k p.1)

end Step

/-! ## A schedule to look at -/

/-- A cell and a schedule that runs in it every second. -/
def scheduleInCell : List ControlOp :=
  [.createCell .admin 0 "c1" "r1" { tenantID := "tenant", name := "main", repo := "host/repo" },
    .upsert .admin 0
      { tenantId := "tenant", scheduleId := "backup",
        trigger := { kind := .interval, interval := 1000000000 },
        target := { cell := "main", jobType := "job", data := some { data := "" } } }]

end JobDB
