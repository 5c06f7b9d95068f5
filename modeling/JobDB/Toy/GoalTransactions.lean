import JobDB.Goal.InPlace
import JobDB.Toy.Engine

/-!
# Rolling back without transactions

The in-process runtime keeps its goals in three Go maps behind a pointer (`e.goals`), and its job
records in a fourth. Nothing rolls a map back. An operation on the goals therefore clones the three
maps, works on the clones, and puts the pointer to them in place at the end (`toyimpl/goals.go`,
`rescheduleLease` in `toyimpl/runtime.go`, `Clone` in `goalstate/memory.go`). A publication has to
put the job's record in first, because the goal engine looks jobs up in the live records; its caller
takes the record out again when the publication fails.

The model has the maps on a heap, so that sharing between a clone and its original would show:

* `Heap`, `MemoryRef`: the maps by address, and a `*Memory`.
* `HeapEngine`: the engine with a pointer to its goals. Its functions write in place (`InPlace`).
* `Spares n ρ`: no map below the address `n` has changed, and the records have changed as `ρ`
  allows. A clone is made at addresses that were not in use, so writing to it spares everything
  older.

`onClone_atomic` and `onClone_commits` say that working on a clone is a transaction: it leaves the
goals as they were or does what the transaction of `Goal/Engine.lean` does.
-/

namespace JobDB.Toy

open InPlace (Refines)

/-! ## What is put in, and what a worker leaves -/

/-- What a submission puts in. -/
structure Services.Draft where
  key : JobKey
  record : JobRecord
  start : Chapter

/-- Put a chapter in place. -/
def ToyEngine.putChapter (e : ToyEngine) (key : JobKey) (chapter : Chapter) : ToyEngine :=
  { e with
    runtimeChapters := e.runtimeChapters.insert key
      (((e.runtimeChapters.lookup key).getD ∅).insert chapter.ordinal chapter) }

/-- The record of a job that has to be there. -/
def ToyEngine.theRecord (e : ToyEngine) (key : JobKey) : Except Err JobRecord :=
  match e.record key with
  | none => .error .jobNotFound
  | some r => .ok r

/-- The lease is on the record and in force. -/
def JobRecord.heldBy (r : JobRecord) (leaseID workerID : String) (now : Time) : Bool :=
  leaseID ≠ "" && r.leaseID = leaseID && r.leaseWorkerID = workerID && r.leased &&
    decide (now < r.leaseExpiresAt) && !r.cancelled && r.archived.isNone

/-- The record, for the holder of its lease. -/
def ToyEngine.heldRecord (e : ToyEngine) (key : JobKey) (leaseID workerID : String) :
    Except Err JobRecord := do
  let r ← e.theRecord key
  demand .executionLeaseLost (r.heldBy leaseID workerID e.now = true)
  .ok r

/-- What a job is left in that its worker has handed on. -/
def rescheduledStatus (req : RescheduleExecutionRequest) (now : Time) : JobStatus :=
  if req.waitForJobIDs ≠ [] then .pendingJobs
  else if req.waitUntil.any (now < ·) then .awaitingFuture
  else .ready

/-- The record of a job that its worker has handed on. -/
def JobRecord.rescheduled (r : JobRecord) (req : RescheduleExecutionRequest)
    (task : Option TaskWait) (payload : Option String × Int) (now : Time) : JobRecord :=
  { r with
    dependencyWaitID := (req.dependencyWait.map (·.waitID)).getD ""
    clientPayload := payload.1
    clientPayloadRevision := payload.2
    leased := false
    leaseID := ""
    consecutiveExpirations := 0
    route := req.nextRoute
    alternateRoute := req.alternateRoute
    alternateAt := match req.alternateAfter with
      | some after => now + after
      | none => r.alternateAt
    payload := { r.payload with taskWait := task }
    waitFor := req.waitForJobIDs
    waitDeadline := if req.waitForJobIDs ≠ [] then req.waitUntil.getD Time.zero else Time.zero
    availableAt :=
      if rescheduledStatus req now = .awaitingFuture then req.waitUntil.getD Time.zero
        else Time.zero
    status := rescheduledStatus req now }

/-! ## Maps on a heap -/

/-- A `*Memory`: the addresses of its three maps. -/
structure MemoryRef where
  goalRows : Nat
  extras : Nat
  waitRows : Nat
deriving DecidableEq, Repr

namespace MemoryRef

/-- The maps are at addresses that are not older than `n`. -/
def From (n : Nat) (p : MemoryRef) : Prop := n ≤ p.goalRows ∧ n ≤ p.extras ∧ n ≤ p.waitRows

/-- The maps are at addresses older than `n`. -/
def Below (n : Nat) (p : MemoryRef) : Prop := p.goalRows < n ∧ p.extras < n ∧ p.waitRows < n

theorem Below.mono {m n : Nat} {p : MemoryRef} (h : p.Below m) (hmn : m ≤ n) : p.Below n :=
  ⟨h.1.trans_le hmn, h.2.1.trans_le hmn, h.2.2.trans_le hmn⟩

end MemoryRef

/-- The maps by address; an address from `next` on is not in use. -/
structure Heap where
  goalRows : Nat → Table GoalKey GoalInfo := fun _ => ∅
  extras : Nat → Table CandidateKey Time := fun _ => ∅
  waitRows : Nat → Table DependencyWaitKey DependencyWaitInfo := fun _ => ∅
  next : Nat := 0

namespace Heap

variable (h : Heap) (p : MemoryRef)

/-- What a `*Memory` points to. -/
def memory : Memory where
  goalRows := h.goalRows p.goalRows
  extras := h.extras p.extras
  waitRows := h.waitRows p.waitRows

/-- `Clone`. -/
def clone : MemoryRef × Heap :=
  (⟨h.next, h.next + 1, h.next + 2⟩,
    { goalRows := Function.update h.goalRows h.next (h.goalRows p.goalRows)
      extras := Function.update h.extras (h.next + 1) (h.extras p.extras)
      waitRows := Function.update h.waitRows (h.next + 2) (h.waitRows p.waitRows)
      next := h.next + 3 })

/-- `s.GoalRows[k] = g`. -/
def setGoal (k : GoalKey) (g : GoalInfo) : Heap :=
  { h with goalRows := Function.update h.goalRows p.goalRows ((h.goalRows p.goalRows).insert k g) }

/-- `s.Extras[k] = t`. -/
def setExtra (k : CandidateKey) (t : Time) : Heap :=
  { h with extras := Function.update h.extras p.extras ((h.extras p.extras).insert k t) }

/-- `s.WaitRows[k] = w`. -/
def setWait (k : DependencyWaitKey) (w : DependencyWaitInfo) : Heap :=
  { h with waitRows := Function.update h.waitRows p.waitRows ((h.waitRows p.waitRows).insert k w) }

theorem memory_clone : (h.clone p).2.memory (h.clone p).1 = h.memory p := by
  simp [memory, clone]

theorem memory_setGoal (k : GoalKey) (g : GoalInfo) : (h.setGoal p k g).memory p =
    { h.memory p with goalRows := (h.memory p).goalRows.insert k g } := by
  simp [memory, setGoal]

theorem memory_setExtra (k : CandidateKey) (t : Time) : (h.setExtra p k t).memory p =
    { h.memory p with extras := (h.memory p).extras.insert k t } := by
  simp [memory, setExtra]

theorem memory_setWait (k : DependencyWaitKey) (w : DependencyWaitInfo) :
    (h.setWait p k w).memory p =
      { h.memory p with waitRows := (h.memory p).waitRows.insert k w } := by
  simp [memory, setWait]

/-- No map below the address `n` has changed, and no address is given back. -/
structure Spares (n : Nat) (h h' : Heap) : Prop where
  goalRows : ∀ a < n, h'.goalRows a = h.goalRows a
  extras : ∀ a < n, h'.extras a = h.extras a
  waitRows : ∀ a < n, h'.waitRows a = h.waitRows a
  next : h.next ≤ h'.next

namespace Spares

variable {h p} {n : Nat}

theorem refl (h : Heap) : Spares n h h := ⟨fun _ _ => rfl, fun _ _ => rfl, fun _ _ => rfl, le_rfl⟩

theorem trans {h₁ h₂ h₃ : Heap} (a : Spares n h₁ h₂) (b : Spares n h₂ h₃) : Spares n h₁ h₃ where
  goalRows x hx := (b.goalRows x hx).trans (a.goalRows x hx)
  extras x hx := (b.extras x hx).trans (a.extras x hx)
  waitRows x hx := (b.waitRows x hx).trans (a.waitRows x hx)
  next := a.next.trans b.next

theorem mono {m : Nat} {h' : Heap} (s : Spares n h h') (hm : m ≤ n) : Spares m h h' where
  goalRows a ha := s.goalRows a (ha.trans_le hm)
  extras a ha := s.extras a (ha.trans_le hm)
  waitRows a ha := s.waitRows a (ha.trans_le hm)
  next := s.next

theorem memory {h' : Heap} (s : Spares n h h') (hp : p.Below n) : h'.memory p = h.memory p := by
  unfold Heap.memory
  rw [s.goalRows _ hp.1, s.extras _ hp.2.1, s.waitRows _ hp.2.2]

theorem setGoal (hp : p.From n) (k : GoalKey) (g : GoalInfo) : Spares n h (h.setGoal p k g) where
  goalRows a ha := Function.update_of_ne (by have := hp.1; omega) _ _
  extras _ _ := rfl
  waitRows _ _ := rfl
  next := le_rfl

theorem setExtra (hp : p.From n) (k : CandidateKey) (t : Time) : Spares n h (h.setExtra p k t) where
  goalRows _ _ := rfl
  extras a ha := Function.update_of_ne (by have := hp.2.1; omega) _ _
  waitRows _ _ := rfl
  next := le_rfl

theorem setWait (hp : p.From n) (k : DependencyWaitKey) (w : DependencyWaitInfo) :
    Spares n h (h.setWait p k w) where
  goalRows _ _ := rfl
  extras _ _ := rfl
  waitRows a ha := Function.update_of_ne (by have := hp.2.2; omega) _ _
  next := le_rfl

/-- The clone is nowhere where a map was before. -/
theorem clone (h : Heap) (p : MemoryRef) : Spares h.next h (h.clone p).2 where
  goalRows a ha := Function.update_of_ne (by omega) _ _
  extras a ha := Function.update_of_ne (by omega) _ _
  waitRows a ha := Function.update_of_ne (by omega) _ _
  next := by
    show h.next ≤ h.next + 3
    omega

end Spares

theorem clone_from : (h.clone p).1.From h.next := by
  show h.next ≤ h.next ∧ h.next ≤ h.next + 1 ∧ h.next ≤ h.next + 2
  omega

theorem clone_below : (h.clone p).1.Below (h.clone p).2.next := by
  show h.next < h.next + 3 ∧ h.next + 1 < h.next + 3 ∧ h.next + 2 < h.next + 3
  omega

end Heap

/-! ## The engine -/

/-- The maps of `ToyEngine` that the operations on goals do not write, and its clock. -/
structure Surroundings where
  cells : String → Registry := fun _ => {}
  schedules : Table ScheduleKey ScheduleInfo := ∅
  preparedGoals : Table JobKey PreparedJob := ∅
  runtimeChapters : Table JobKey (Table Int Chapter) := ∅
  now : Time

/-- `ToyEngine` with its pointer to the goals. -/
structure HeapEngine where
  jobRecords : Table JobKey JobRecord := ∅
  goals : MemoryRef
  heap : Heap
  rest : Surroundings

namespace HeapEngine

/-- The records, with the goals that `p` points to. -/
def jobsAt (p : MemoryRef) (e : HeapEngine) : Jobs where
  jobRecords := e.jobRecords
  goals := e.heap.memory p
  cells := e.rest.cells

/-- The engine as its functions see it. -/
def engine (e : HeapEngine) : ToyEngine where
  jobs := e.jobsAt e.goals
  schedules := e.rest.schedules
  preparedGoals := e.rest.preparedGoals
  runtimeChapters := e.rest.runtimeChapters
  now := e.rest.now

/-- The pointer to the goals is to maps that are in use. -/
def WellFormed (e : HeapEngine) : Prop := e.goals.Below e.heap.next

/-- Nothing older than the address `n` has changed but the records, and those as `ρ` allows. -/
structure Spares (n : Nat) (ρ : Table JobKey JobRecord → Table JobKey JobRecord → Prop)
    (e e' : HeapEngine) : Prop where
  records : ρ e.jobRecords e'.jobRecords
  goals : e'.goals = e.goals
  heap : e.heap.Spares n e'.heap
  rest : e'.rest = e.rest

end HeapEngine

/-- A store whose goals are where `p` points. -/
def storeAt (p : MemoryRef) : Store HeapEngine where
  job e k := (e.jobsAt p).facts.lookupJob k
  goal e k := (e.heap.memory p).goal k
  saveGoal g e := .ok { e with heap := e.heap.setGoal p g.goalKey g.copy }
  candidates e k := (e.jobsAt p).facts.candidates k
  goals e k := (e.jobsAt p).facts.goals k
  candidate e k id := (e.jobsAt p).facts.candidate k id
  insertCandidate k id t e := .ok { e with heap := e.heap.setExtra p ⟨k, id⟩ t }
  wait e k := (e.heap.memory p).wait k
  saveWait w e := .ok { e with heap := e.heap.setWait p w.key w.copy }
  consumerWaits e k := (e.heap.memory p).consumerWaits k
  targetWaits e tenant t := (e.heap.memory p).targetWaits tenant t
  size e := (e.jobsAt p).facts.targets.length

section Frame

variable {n : Nat} {ρ : Table JobKey JobRecord → Table JobKey JobRecord → Prop}

theorem HeapEngine.Spares.mono {m : Nat} {e e' : HeapEngine} (s : Spares n ρ e e') (h : m ≤ n) :
    Spares m ρ e e' :=
  { s with heap := s.heap.mono h }

variable [IsPreorder (Table JobKey JobRecord) ρ]

instance : IsPreorder HeapEngine (HeapEngine.Spares n ρ) where
  refl _ := ⟨refl_of ρ _, rfl, .refl _, rfl⟩
  trans _ _ _ a b := ⟨trans_of ρ a.records b.records, b.goals.trans a.goals, a.heap.trans b.heap,
    b.rest.trans a.rest⟩

theorem HeapEngine.Spares.of_heap {e : HeapEngine} {h : Heap} (s : e.heap.Spares n h) :
    Spares n ρ e { e with heap := h } := ⟨refl_of ρ _, rfl, s, rfl⟩

/-- A write to the maps of a clone. -/
theorem writeHeap_refines {p : MemoryRef} {set : Heap → Heap} (put : Memory → Memory)
    (hset : ∀ h, Heap.Spares n h (set h)) (hput : ∀ h, (set h).memory p = put (h.memory p)) :
    Refines (HeapEngine.jobsAt p) (HeapEngine.Spares n ρ)
      (.write fun e => Except.ok (ε := Err) { e with heap := set e.heap })
      (.write fun j => .ok { j with goals := put j.goals }) := by
  refine .write (fun e e' h => ?_) fun e => ?_
  · obtain rfl := Except.ok.inj h
    exact .of_heap (hset _)
  · show Except.ok _ = Except.ok (HeapEngine.jobsAt p _)
    unfold HeapEngine.jobsAt
    rw [hput]

/-- The store of a clone is the goal engine's, and writing to it spares what is older. -/
theorem storeAt_shows {p : MemoryRef} (hp : p.From n) :
    (storeAt p).Shows (HeapEngine.jobsAt p) (HeapEngine.Spares n ρ) goalStore where
  refl := refl_of _
  trans _ _ _ := trans_of _
  job _ _ := rfl
  goal _ _ := rfl
  candidates _ _ := rfl
  candidate _ _ _ := rfl
  wait _ _ := rfl
  consumerWaits _ _ := rfl
  targetWaits _ _ _ := rfl
  size _ := rfl
  saveGoal g := writeHeap_refines
    (fun m => { m with goalRows := m.goalRows.insert g.goalKey g.copy })
    (fun _ => .setGoal hp _ _) fun h => h.memory_setGoal p _ _
  insertCandidate k id t := writeHeap_refines
    (fun m => { m with extras := m.extras.insert ⟨k, id⟩ t })
    (fun _ => .setExtra hp _ _) fun h => h.memory_setExtra p _ _
  saveWait w := writeHeap_refines
    (fun m => { m with waitRows := m.waitRows.insert w.key w.copy })
    (fun _ => .setWait hp _ _) fun h => h.memory_setWait p _ _

end Frame

/-! ## Working on a clone -/

/-- `e.goals.Clone()`. -/
def cloneGoals : InPlace HeapEngine Err MemoryRef := ExceptT.mk fun e =>
  (.ok (e.heap.clone e.goals).1, { e with heap := (e.heap.clone e.goals).2 })

/-- `e.goals = p`. -/
def install (p : MemoryRef) : InPlace HeapEngine Err Unit :=
  InPlace.write fun e => .ok { e with goals := p }

/-- Clone the goals, work on the clone, and put it in place unless that fails. -/
def onClone {α : Type} (work : MemoryRef → InPlace HeapEngine Err α) :
    InPlace HeapEngine Err α := do
  let p ← cloneGoals
  let a ← work p
  install p
  pure a

namespace HeapEngine

/-- The engine with a clone of its goals beside them. -/
def cloned (e : HeapEngine) : HeapEngine := { e with heap := (e.heap.clone e.goals).2 }

/-- Nothing that was there has changed but the records, and those as `ρ` allows. -/
def Spared (ρ : Table JobKey JobRecord → Table JobKey JobRecord → Prop) (e e' : HeapEngine) :
    Prop :=
  e.Spares e.heap.next ρ e'

/-- A well-formed engine has stayed so. -/
def StaysWellFormed (e e' : HeapEngine) : Prop := e.WellFormed → e'.WellFormed

instance : IsTrans HeapEngine StaysWellFormed where
  trans _ _ _ h h' := h' ∘ h

/-- A run that fails has changed nothing that was there but records, and one that does not leaves
a good pointer to the goals. -/
abbrev Atomic {α : Type} (ρ : Table JobKey JobRecord → Table JobKey JobRecord → Prop)
    (x : InPlace HeapEngine Err α) : Prop := InPlace.Ends (Spared ρ) StaysWellFormed x

end HeapEngine

section OnClone

open HeapEngine (Atomic)

variable {α : Type} {work : MemoryRef → InPlace HeapEngine Err α} {e e' : HeapEngine} {err : Err}
  {a : α} {ρ : Table JobKey JobRecord → Table JobKey JobRecord → Prop}

theorem HeapEngine.Spared.staysWellFormed (h : e.Spared ρ e') : e.StaysWellFormed e' := by
  intro he
  unfold WellFormed
  rw [h.goals]
  exact he.mono h.heap.next

variable [IsPreorder (Table JobKey JobRecord) ρ]

instance : IsPreorder HeapEngine (HeapEngine.Spared ρ) where
  refl e := refl_of (HeapEngine.Spares e.heap.next ρ) e
  trans e₁ _ _ a b := trans_of (HeapEngine.Spares e₁.heap.next ρ) a (b.mono a.heap.next)

theorem HeapEngine.Atomic.bind {β : Type} {x : InPlace HeapEngine Err α}
    {f : α → InPlace HeapEngine Err β} (hx : InPlace.Moves (Spared ρ) x)
    (hf : ∀ a, Atomic ρ (f a)) : Atomic ρ (x >>= f) :=
  InPlace.Ends.bind (fun _ _ => Spared.staysWellFormed) hx hf

theorem cloned_spared (e : HeapEngine) : e.Spared ρ e.cloned := .of_heap (.clone _ _)

/-- A run on a clone goes as the work does. -/
theorem exec_onClone (e : HeapEngine) : (onClone work).exec e =
    match (work (e.heap.clone e.goals).1).exec e.cloned with
    | (.ok a, e₁) => (.ok a, { e₁ with goals := (e.heap.clone e.goals).1 })
    | (.error err, e₁) => (.error err, e₁) := by
  have hclone : cloneGoals.exec e = (.ok (e.heap.clone e.goals).1, e.cloned) := rfl
  unfold onClone
  rw [InPlace.exec_bind_ok hclone]
  rcases h : (work (e.heap.clone e.goals).1).exec e.cloned with ⟨r, e₁⟩
  cases r with
  | ok a =>
    rw [InPlace.exec_bind_ok h]
    rfl
  | error err => rw [InPlace.exec_bind_error h]

/-- Work on a clone that fails has changed nothing that was there, and otherwise the pointer is to
the clone. -/
theorem onClone_atomic (hw : ∀ n p, p.From n → InPlace.Moves (HeapEngine.Spares n ρ) (work p)) :
    Atomic ρ (onClone work) := by
  intro e
  have hmove := hw _ _ (e.heap.clone_from e.goals) e.cloned
  rw [exec_onClone]
  rcases hx : (work (e.heap.clone e.goals).1).exec e.cloned with ⟨r, e₁⟩
  rw [hx] at hmove
  cases r with
  | ok a => exact fun _ => (e.heap.clone_below e.goals).mono hmove.heap.next
  | error err => exact trans_of (HeapEngine.Spares e.heap.next ρ) (cloned_spared e) hmove

/-- Work on a clone does to the goals and the records what the transaction does that it refines:
all of it, or nothing. -/
theorem onClone_commits {t : Tx Jobs Err α}
    (hw : ∀ n p, p.From n → Refines (HeapEngine.jobsAt p) (HeapEngine.Spares n Eq) (work p) t)
    (he : e.WellFormed) : (((onClone work).exec e).1, ((onClone work).exec e).2.engine.jobs) =
      t.commit e.engine.jobs := by
  have hview : e.cloned.jobsAt (e.heap.clone e.goals).1 = e.engine.jobs := by
    show Jobs.mk e.jobRecords ((e.heap.clone e.goals).2.memory _) e.rest.cells = _
    rw [Heap.memory_clone]
    rfl
  have hresult := (hw _ _ (e.heap.clone_from e.goals)).result e.cloned
  have hmove := (hw _ _ (e.heap.clone_from e.goals)).moves e.cloned
  rw [hview] at hresult
  rw [exec_onClone]
  unfold Tx.commit
  rw [hresult]
  rcases hx : (work (e.heap.clone e.goals).1).exec e.cloned with ⟨r, e₁⟩
  cases r with
  | ok a => rfl
  | error err =>
    rw [hx] at hmove
    have hall := trans_of (HeapEngine.Spares e.heap.next Eq) (cloned_spared e) hmove
    show (Except.error err, Jobs.mk e₁.jobRecords (e₁.heap.memory e₁.goals) e₁.rest.cells) = _
    rw [← hall.records, hall.goals, hall.heap.memory he, hall.rest]
    rfl

end OnClone

/-! ## The operations -/

namespace HeapEngine

/-- `time.Now()`. -/
def clock : InPlace HeapEngine Err Time := InPlace.read fun e => .ok e.rest.now

/-- What a pointer to the record of `key` points to; `r` is the record it was made with. -/
def pointee (key : JobKey) (r : JobRecord) (e : HeapEngine) : JobRecord :=
  (e.jobRecords.lookup key).getD r

/-- A write to the record of `key`. -/
def updateRecord (key : JobKey) (f : JobRecord → JobRecord) : InPlace HeapEngine Err Unit :=
  InPlace.write fun e => .ok { e with
    jobRecords := match e.jobRecords.lookup key with
      | some r => e.jobRecords.insert key (f r)
      | none => e.jobRecords }

/-- `AddGoalCandidate`. -/
def addGoalCandidate (req : AddGoalCandidateRequest) :
    InPlace HeapEngine Err GoalCandidateInfo := do
  let now ← clock
  onClone fun p => LiveEngine.add (storeAt p) now req

/-- `FailGoal`. -/
def failGoal (req : FailGoalRequest) : InPlace HeapEngine Err GoalInfo := do
  let now ← clock
  onClone fun p => LiveEngine.fail (storeAt p) now req

section Publish

variable (L : CellLib) (ctx : Ctx) (key : JobKey)

/-- The goal of a job that is published: a new one, or one that is open. -/
def publishedGoal (p : MemoryRef) (prepared : PreparedJob) (r : JobRecord) :
    InPlace HeapEngine Err Unit :=
  if prepared.request.shareGoal then do
    let g ← InPlace.read ((storeAt p).goal · ⟨key.tenantId, prepared.goalID⟩)
    InPlace.require .goalConflict (g.state = .open)
  else InPlace.write fun e =>
    let r := e.pointee key r
    (storeAt p).saveGoal
      { cell := r.cell.cell, cellID := r.cell.cellID, cellRepo := r.cell.cellRepo,
        goalKey := ⟨key.tenantId, prepared.goalID⟩, state := .open, revision := 1,
        createdAt := r.createdAt, updatedAt := r.createdAt } e

/-- The submission wait, which the record then names. -/
def registerSubmission (p : MemoryRef) (now : Time) (prepared : PreparedJob) :
    InPlace HeapEngine Err Unit :=
  if prepared.request.dependencies = [] then pure ()
  else do
    let _ ← LiveEngine.register (storeAt p) now key
      { waitID := "submission", dependencies := prepared.request.dependencies } true
    updateRecord key fun r => { r with dependencyWaitID := "submission" }

/-- `publishGoalLocked` on the clone. -/
def publishOn (p : MemoryRef) (now : Time) (prepared : PreparedJob) (r : JobRecord) :
    InPlace HeapEngine Err Unit := do
  updateRecord key fun r => { r with goalID := prepared.goalID }
  publishedGoal key p prepared r
  registerSubmission key p now prepared
  LiveEngine.checkCycle (storeAt p) now key.tenantId { goalID := prepared.goalID }

/-- `publishGoalLocked`. -/
def publishGoal (r : JobRecord) : InPlace HeapEngine Err Unit := do
  let prepared ← InPlace.read fun e =>
    match e.rest.preparedGoals.lookup key with
    | none => .error errInvalidCell
    | some p => .ok p
  let target ← InPlace.read fun e => publishCell L ctx prepared e.engine
  updateRecord key fun r => { r with cell := target }
  let now ← clock
  onClone fun p => publishOn key p now prepared r

/-- Take the record of a failed publication out. -/
def withoutRecord (e : HeapEngine) : HeapEngine := { e with jobRecords := e.jobRecords.erase key }

/-- `runtimeChapters[key][0] = start`. -/
def putStart (start : Chapter) : InPlace HeapEngine Err Unit :=
  InPlace.write fun e => .ok { e with
    rest := { e.rest with runtimeChapters := (e.engine.putChapter key start).runtimeChapters } }

/-- A job's record is put in, published, and taken out again if that fails. -/
def publishNew (d : Services.Draft) : InPlace HeapEngine Err JobHandle := do
  InPlace.write fun e => .ok { e with jobRecords := e.jobRecords.insert d.key d.record }
  (publishGoal L ctx d.key d.record).onError (withoutRecord d.key)
  putStart d.key d.start
  let r ← InPlace.read fun e => .ok (e.pointee d.key d.record)
  pure (r.cell.handle d.key r.goalID)

/-- The critical section of a submission: a record that is there already stays. -/
def publish (d : Services.Draft) : InPlace HeapEngine Err JobHandle := do
  match ← InPlace.read fun e => .ok (e.jobRecords.lookup d.key) with
  | some r => pure (r.cell.handle d.key r.goalID)
  | none => publishNew L ctx d

end Publish

section Reschedule

variable (H : Host) (key : JobKey)

/-- A wait of the record that the request does not carry on is closed. -/
def closeReplaced (p : MemoryRef) (now : Time) (r : JobRecord) (req : RescheduleExecutionRequest) :
    InPlace HeapEngine Err Unit :=
  if r.dependencyWaitID ≠ "" ∧ req.dependencyWait.all (·.waitID ≠ r.dependencyWaitID) then
    LiveEngine.closeConsumer (storeAt p) now key
  else pure ()

/-- The wait of the request is registered. -/
def registerNext (p : MemoryRef) (now : Time) :
    Option DependencyWait → InPlace HeapEngine Err Unit
  | none => pure ()
  | some w => do
    let _ ← LiveEngine.register (storeAt p) now key w false

/-- `rescheduleLease`. -/
def rescheduleLease (leaseID workerID : String) (req : RescheduleExecutionRequest) :
    InPlace HeapEngine Err Unit := do
  let r ← InPlace.read fun e => e.engine.heldRecord key leaseID workerID
  InPlace.read fun _ => validateDependencyReschedule req
  let task ← InPlace.read fun _ => rescheduleTaskWait req.nextRoute req.taskWait
  InPlace.read fun _ => validateAlternateRoute req.alternateRoute req.alternateAfter task
  let payload ← InPlace.read fun _ =>
    H.applyUpdate r.clientPayload r.clientPayloadRevision req.clientPayloadUpdate
  let now ← clock
  onClone fun p => do
    closeReplaced key p now r req
    registerNext key p now req.dependencyWait
  updateRecord key fun r => r.rescheduled req task payload now

end Reschedule

end HeapEngine

/-- An operation on the goals. -/
inductive GoalOp where
  | addGoalCandidate (req : AddGoalCandidateRequest)
  | failGoal (req : FailGoalRequest)
  | publish (ctx : Ctx) (d : Services.Draft)
  | rescheduleLease (key : JobKey) (leaseID workerID : String) (req : RescheduleExecutionRequest)

/-- Run an operation; what it returns on success does not matter here. -/
def GoalOp.run (L : CellLib) (H : Host) : GoalOp → InPlace HeapEngine Err Unit
  | .addGoalCandidate req => do let _ ← HeapEngine.addGoalCandidate req
  | .failGoal req => do let _ ← HeapEngine.failGoal req
  | .publish ctx d => do let _ ← HeapEngine.publish L ctx d
  | .rescheduleLease key leaseID workerID req =>
      HeapEngine.rescheduleLease H key leaseID workerID req

/-! ## A failed operation leaves everything as it was -/

/-- The two tables have the same rows. -/
def SameRows (t t' : Table JobKey JobRecord) : Prop := ∀ k, t'.lookup k = t.lookup k

instance : IsPreorder _ SameRows where
  refl _ _ := rfl
  trans _ _ _ h h' k := (h' k).trans (h k)

/-- The two tables have the same rows but for that of `key`. -/
def SameOff (key : JobKey) (t t' : Table JobKey JobRecord) : Prop :=
  ∀ k, k ≠ key → t'.lookup k = t.lookup k

section SameOff

variable {key : JobKey}

instance : IsPreorder _ (SameOff key) where
  refl _ _ _ := rfl
  trans _ _ _ h h' k hk := (h' k hk).trans (h k hk)

theorem SameOff.insert (t : Table JobKey JobRecord) (r : JobRecord) :
    SameOff key t (t.insert key r) := fun _ hk => AList.lookup_insert_ne hk

/-- Taking the row out again undoes what happened to it, if it was not there. -/
theorem SameOff.erase {t t' : Table JobKey JobRecord} (h : SameOff key t t')
    (habsent : t.lookup key = none) : SameRows t (t'.erase key) := by
  intro k
  by_cases hk : k = key
  · rw [hk, AList.lookup_erase, habsent]
  · rw [AList.lookup_erase_ne hk]
    exact h k hk

end SameOff

namespace HeapEngine

section Updates

variable {n : Nat} {key : JobKey}

theorem updateRecord_moves (f : JobRecord → JobRecord) :
    InPlace.Moves (Spares n (SameOff key)) (updateRecord key f) := by
  refine .write fun e e' h => ?_
  obtain rfl := Except.ok.inj h
  refine ⟨?_, rfl, .refl _, rfl⟩
  cases e.jobRecords.lookup key with
  | none => exact refl_of (SameOff key) _
  | some r => exact SameOff.insert _ _

end Updates

section Publish

variable {L : CellLib} {ctx : Ctx} {key : JobKey} {n : Nat} {p : MemoryRef}

theorem publishedGoal_moves (hp : p.From n) (prepared : PreparedJob) (r : JobRecord) :
    InPlace.Moves (Spares n (SameOff key)) (publishedGoal key p prepared r) := by
  unfold publishedGoal
  split
  · exact .bind (.read _) fun g => .require _ _
  · refine .write fun e e' h => ?_
    obtain rfl := Except.ok.inj h
    exact .of_heap (.setGoal hp _ _)

theorem registerSubmission_moves (hp : p.From n) (now : Time) (prepared : PreparedJob) :
    InPlace.Moves (Spares n (SameOff key)) (registerSubmission key p now prepared) := by
  unfold registerSubmission
  split
  · exact .pure ()
  · refine .bind (LiveEngine.register_refines (storeAt_shows hp) now _ _ _).moves fun _ => ?_
    exact updateRecord_moves _

theorem publishOn_moves (hp : p.From n) (now : Time) (prepared : PreparedJob) (r : JobRecord) :
    InPlace.Moves (Spares n (SameOff key)) (publishOn key p now prepared r) := by
  refine .bind (updateRecord_moves _) fun _ => ?_
  refine .bind (publishedGoal_moves hp prepared r) fun _ => ?_
  refine .bind (registerSubmission_moves hp now prepared) fun _ => ?_
  exact (LiveEngine.checkCycle_refines (storeAt_shows hp) now _ _).moves

/-- A failed publication may have written to the record of its job, and to nothing else. -/
theorem publishGoal_atomic (r : JobRecord) : Atomic (SameOff key) (publishGoal L ctx key r) := by
  refine .bind (.read _) fun prepared => ?_
  refine .bind (.read _) fun target => ?_
  refine .bind (fun e => updateRecord_moves _ e) fun _ => ?_
  refine .bind (.read _) fun now => ?_
  exact onClone_atomic fun n p hp => publishOn_moves hp now prepared r

theorem publishNew_outcome {d : Services.Draft} {e : HeapEngine}
    (habsent : e.jobRecords.lookup d.key = none) :
    InPlace.Outcome (Spared SameRows) StaysWellFormed ((publishNew L ctx d).exec e).1 e
      ((publishNew L ctx d).exec e).2 := by
  have hput : (InPlace.write fun e : HeapEngine =>
      Except.ok (ε := Err) { e with jobRecords := e.jobRecords.insert d.key d.record }).exec e =
      (.ok (), { e with jobRecords := e.jobRecords.insert d.key d.record }) := rfl
  have hgoal := @publishGoal_atomic L ctx d.key d.record
    { e with jobRecords := e.jobRecords.insert d.key d.record }
  unfold publishNew
  rw [InPlace.exec_bind_ok hput]
  rcases hx : (publishGoal L ctx d.key d.record).exec
    { e with jobRecords := e.jobRecords.insert d.key d.record } with ⟨r, e₁⟩
  rw [hx] at hgoal
  cases r with
  | ok u =>
    -- what follows a publication cannot fail
    rw [InPlace.exec_bind_ok (InPlace.exec_onError_ok hx)]
    exact hgoal
  | error err =>
    rw [InPlace.exec_bind_error (InPlace.exec_onError_error hx)]
    refine ⟨?_, hgoal.goals, hgoal.heap, hgoal.rest⟩
    have hoff : SameOff d.key e.jobRecords e₁.jobRecords :=
      trans_of (SameOff d.key) (SameOff.insert _ _) hgoal.records
    exact hoff.erase habsent

theorem publish_atomic (d : Services.Draft) : Atomic SameRows (publish L ctx d) := by
  intro e
  have hread :
      (InPlace.read fun e : HeapEngine => Except.ok (ε := Err) (e.jobRecords.lookup d.key)).exec
      e = (.ok (e.jobRecords.lookup d.key), e) := rfl
  unfold publish
  rw [InPlace.exec_bind_ok hread]
  cases hl : e.jobRecords.lookup d.key with
  | some r => exact id
  | none => exact publishNew_outcome hl

end Publish

section Others

variable {n : Nat} {p : MemoryRef} {ρ : Table JobKey JobRecord → Table JobKey JobRecord → Prop}
  [IsPreorder (Table JobKey JobRecord) ρ]

theorem addGoalCandidate_atomic (req : AddGoalCandidateRequest) :
    Atomic SameRows (addGoalCandidate req) := by
  refine .bind (.read _) fun now => onClone_atomic fun n p hp => ?_
  exact (LiveEngine.add_refines (storeAt_shows hp) now req).moves

theorem failGoal_atomic (req : FailGoalRequest) : Atomic SameRows (failGoal req) := by
  refine .bind (.read _) fun now => onClone_atomic fun n p hp => ?_
  exact (LiveEngine.fail_refines (storeAt_shows hp) now req).moves

theorem reschedule_moves (hp : p.From n) (key : JobKey) (now : Time) (r : JobRecord)
    (req : RescheduleExecutionRequest) : InPlace.Moves (Spares n ρ) (do
      closeReplaced key p now r req
      registerNext key p now req.dependencyWait) := by
  refine .bind ?_ fun _ => ?_
  · unfold closeReplaced
    split
    · exact (LiveEngine.closeConsumer_refines (storeAt_shows hp) now key).moves
    · exact .pure ()
  · cases req.dependencyWait with
    | none => exact .pure ()
    | some w =>
      refine .bind (LiveEngine.register_refines (storeAt_shows hp) now key w false).moves fun _ =>
        ?_
      exact .pure ()

theorem rescheduleLease_atomic (H : Host) (key : JobKey) (leaseID workerID : String)
    (req : RescheduleExecutionRequest) :
    Atomic SameRows (rescheduleLease H key leaseID workerID req) := by
  refine .bind (.read _) fun r => ?_
  refine .bind (.read _) fun _ => ?_
  refine .bind (.read _) fun task => ?_
  refine .bind (.read _) fun _ => ?_
  refine .bind (.read _) fun payload => ?_
  refine .bind (.read _) fun now => ?_
  -- the record is written last, and that does not fail
  refine .bind_total (onClone_atomic fun n p hp => reschedule_moves hp key now r req) fun _ e => ?_
  exact ⟨(), _, rfl, id⟩

end Others

end HeapEngine

theorem GoalOp.run_atomic (L : CellLib) (H : Host) (op : GoalOp) :
    HeapEngine.Atomic SameRows (op.run L H) := by
  cases op with
  | addGoalCandidate req =>
    exact .bind_total (HeapEngine.addGoalCandidate_atomic req) fun _ e => ⟨(), e, rfl, id⟩
  | failGoal req => exact .bind_total (HeapEngine.failGoal_atomic req) fun _ e => ⟨(), e, rfl, id⟩
  | publish ctx d => exact .bind_total (HeapEngine.publish_atomic d) fun _ e => ⟨(), e, rfl, id⟩
  | rescheduleLease key leaseID workerID req =>
    exact HeapEngine.rescheduleLease_atomic H key leaseID workerID req

/-! ## Atomicity -/

/-- The engine after a history of operations, failed ones among them. -/
def runAll (L : CellLib) (H : Host) (history : List GoalOp) (e : HeapEngine) : HeapEngine :=
  history.foldl (fun e op => ((op.run L H).exec e).2) e

/-- The pointer to the goals stays good. -/
theorem runAll_wellFormed (L : CellLib) (H : Host) (history : List GoalOp) {e : HeapEngine}
    (he : e.WellFormed) : (runAll L H history e).WellFormed := by
  induction history generalizing e with
  | nil => exact he
  | cons op history ih =>
    have hstep := (op.run_atomic L H).moves (fun _ _ => HeapEngine.Spared.staysWellFormed)
    exact ih (hstep e he)

/-- The engine holds what it held: its goals, their candidates, its waits, the record of every job,
and everything around them. -/
structure HeapEngine.Unchanged (e e' : HeapEngine) : Prop where
  goals : (e'.heap.memory e'.goals).goalRows = (e.heap.memory e.goals).goalRows
  candidates : (e'.heap.memory e'.goals).extras = (e.heap.memory e.goals).extras
  waits : (e'.heap.memory e'.goals).waitRows = (e.heap.memory e.goals).waitRows
  records : ∀ k, e'.jobRecords.lookup k = e.jobRecords.lookup k
  rest : e'.rest = e.rest

theorem HeapEngine.Spared.unchanged {e e' : HeapEngine} (h : e.Spared SameRows e')
    (he : e.WellFormed) : e.Unchanged e' := by
  have hmemory : e'.heap.memory e'.goals = e.heap.memory e.goals := by
    rw [h.goals]
    exact h.heap.memory he
  exact ⟨congrArg _ hmemory, congrArg _ hmemory, congrArg _ hmemory, h.records, h.rest⟩

/-- **Operations on goals are atomic.** Whatever has happened before, an operation that returns an
error has left the goals, the candidates, the waits and the job records as they were. -/
theorem goal_operation_undone (L : CellLib) (H : Host) (history : List GoalOp) (op : GoalOp)
    (e₀ e' : HeapEngine) (err : Err) (h₀ : e₀.WellFormed)
    (hfail : (op.run L H).exec (runAll L H history e₀) = (.error err, e')) :
    (runAll L H history e₀).Unchanged e' :=
  ((op.run_atomic L H).fails hfail).unchanged (runAll_wellFormed L H history h₀)

/-- An engine with one running job, "a" of the goal "ga", which waits for the goal "gb". -/
def waitingEngine : HeapEngine where
  jobRecords := (∅ : Table JobKey JobRecord).insert ⟨"t", "a"⟩
    { cell := { cell := "", cellID := "", cellRepo := "" }, goalID := "ga", dependencyWaitID := "w",
      status := .ready, jobType := "job", createdAt := 1, route := { jobType := "job" } }
  goals := ⟨0, 1, 2⟩
  heap :=
    { goalRows := fun _ => (∅ : Table GoalKey GoalInfo).insert ⟨"t", "gb"⟩
        { goalKey := ⟨"t", "gb"⟩, state := .open, revision := 1, createdAt := 1, updatedAt := 1 }
      waitRows := fun _ => (∅ : Table DependencyWaitKey DependencyWaitInfo).insert ⟨⟨"t", "a"⟩, "w"⟩
        { jobKey := ⟨"t", "a"⟩, waitID := "w", state := .pending,
          dependencies :=
            [{ target := { goalID := "gb" }, condition := .success, state := .pending }] }
      next := 3 }
  rest := { now := 2 }

/-- The job is to become a candidate of the goal it waits for. -/
def addToAwaited : InPlace HeapEngine Err Unit :=
  (GoalOp.addGoalCandidate ⟨⟨"t", "gb"⟩, "a"⟩).run .plain .accepting

/-- The candidate is stored, the cycle is found, and the candidate is gone. -/
theorem cyclic_candidate_undone : (addToAwaited.exec waitingEngine).1 = .error .dependencyCycle ∧
    waitingEngine.Unchanged (addToAwaited.exec waitingEngine).2 := by
  have hfail : addToAwaited.exec waitingEngine =
      (.error .dependencyCycle, (addToAwaited.exec waitingEngine).2) := rfl
  exact ⟨rfl, goal_operation_undone .plain .accepting [] (.addGoalCandidate ⟨⟨"t", "gb"⟩, "a"⟩)
    waitingEngine _ .dependencyCycle ⟨by decide, by decide, by decide⟩ hfail⟩

/-- **A clone does as a transaction.** Whatever has happened before, adding a candidate and failing
a goal on a clone of the maps answer and leave what the goal engine's transactions would. -/
theorem clone_commits (L : CellLib) (H : Host) (history : List GoalOp)
    (e₀ : { e : HeapEngine // e.WellFormed }) : let e := runAll L H history e₀
    (∀ req, ((HeapEngine.addGoalCandidate req).exec e).map id (·.engine.jobs) =
      (Engine.add goalStore e.rest.now req).commit e.engine.jobs) ∧
    ∀ req, ((HeapEngine.failGoal req).exec e).map id (·.engine.jobs) =
      (Engine.fail goalStore e.rest.now req).commit e.engine.jobs := by
  have he := runAll_wellFormed L H history e₀.2
  constructor
  · intro req
    exact onClone_commits (fun _ _ hp => LiveEngine.add_refines (storeAt_shows hp) _ req) he
  · intro req
    exact onClone_commits (fun _ _ hp => LiveEngine.fail_refines (storeAt_shows hp) _ req) he

end JobDB.Toy
