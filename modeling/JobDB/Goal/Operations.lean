import JobDB.Goal.Effects
import JobDB.Goal.Memory

/-!
# The operations on goals, waits and jobs

The engine's entry points as a scheduler calls them, each one transaction:

* `publish`: a new job under a new or a shared goal, with its submission wait
  (`publishGoalLocked`, `toyimpl/goals.go:121–160`; `insertJobRecord`,
  `sqlite/scheduler.go`).
* `add`, `fail`: the two goal requests.
* `register`, `closeConsumer` and `reschedule`, which a worker's handoff makes
  out of them.
* `finish`: a job's completion or cancellation with `Complete` after it.
* `deleteJobs`: the same for several jobs at once, all outcomes first
  (`sqlite/delete_jobs.go:34–93`; the in-process runtime deletes one by one).

`Op.Effect` says what a committed operation does to the view, and `exec_step`
that an operation either has its effect or changes nothing. A preorder that
allows the changes the effects are made of (`AllowsAll`) holds along every
history (`Along.allowed`).
-/

namespace JobDB

/-- What a publication brings: the prepared job and goal. -/
structure Publication where
  key : JobKey
  goalID : String
  shareGoal : Bool
  cell : String := ""
  cellID : String := ""
  cellRepo : String := ""
  createdAt : Time
  dependencies : List Dependency := []
deriving DecidableEq, Repr

namespace Publication

def goalKey (p : Publication) : GoalKey := ⟨p.key.tenantId, p.goalID⟩

/-- The goal a publication opens. -/
def newGoal (p : Publication) : GoalInfo where
  cell := p.cell
  cellID := p.cellID
  cellRepo := p.cellRepo
  goalKey := p.goalKey
  state := .open
  revision := 1
  createdAt := p.createdAt
  updatedAt := p.createdAt

/-- The job a publication inserts. -/
def newJob (p : Publication) : Job where
  key := p.key
  goalID := p.goalID
  terminal := false
  success := false
  createdAt := p.createdAt

/-- The wait a submission with dependencies registers. -/
def submissionWait (p : Publication) : DependencyWait where
  waitID := "submission"
  dependencies := p.dependencies

end Publication

inductive Op where
  | publish (p : Publication)
  | add (req : AddGoalCandidateRequest)
  | fail (req : FailGoalRequest)
  | register (key : JobKey) (req : DependencyWait) (submission : Bool)
  | closeConsumer (key : JobKey)
  | reschedule (key : JobKey) (req : DependencyWait)
  | finish (key : JobKey) (success : Bool)
  | deleteJobs (keys : List JobKey)
deriving DecidableEq, Repr

namespace Engine

variable {σ : Type} (S : SchedulerStore σ) (now : Time)

/-- The goal part of a publication. -/
def publishGoal (p : Publication) : Tx σ Err Unit :=
  if p.shareGoal then do
    let g ← Tx.read (S.goal · p.goalKey)
    Tx.require .goalConflict (g.state = .open)
  else Tx.write (S.saveGoal p.newGoal)

/-- The wait part of a publication. -/
def publishWait (p : Publication) : Tx σ Err Unit :=
  if p.dependencies = [] then pure ()
  else do
    let _ ← register S.toStore now p.key p.submissionWait true

def publish (p : Publication) : Tx σ Err Unit := do
  publishGoal S p
  Tx.write (S.insertJob p.newJob)
  publishWait S now p
  checkCycle S.toStore now p.key.tenantId { goalID := p.goalID }

/-- What preparing a job guarantees about a publication: the key is complete
(`JobKey.Validate`), and a goal that is not shared has an ID that
`ksuid.New` never gave before. -/
def prepared (p : Publication) : Tx σ Err Unit := do
  Tx.require (.invalid "job key is incomplete") (p.key.tenantId ≠ "" ∧ p.key.jobId ≠ "")
  Tx.require (.invalid "goal ID is empty") (p.goalID ≠ "")
  Tx.read fun s =>
    if p.shareGoal ∨ S.goal s p.goalKey = .error .goalNotFound then .ok ()
    else .error (.conflict "goal ID in use")

/-- The deletion of a job that may already have its outcome. -/
def deleteOne (key : JobKey) : Tx σ Err Unit := do
  let j ← Tx.read (S.job · key)
  if j.terminal then pure () else Tx.write (S.finishJob key false)

/-- One transaction for each operation. -/
def run : Op → Tx σ Err Unit
  | .publish p => do
    prepared S p
    publish S now p
  | .add req => do
    let _ ← add S.toStore now req
  | .fail req => do
    let _ ← fail S.toStore now req
  | .register key req submission => do
    let _ ← register S.toStore now key req submission
  | .closeConsumer key => closeConsumer S.toStore now key
  | .reschedule key req => do
    closeConsumer S.toStore now key
    let _ ← register S.toStore now key req false
  | .finish key success => do
    Tx.write (S.finishJob key success)
    complete S.toStore now key
  | .deleteJobs keys => do
    forM keys (deleteOne S)
    forM keys (complete S.toStore now)

/-- An operation at a clock reading, committed or rolled back. -/
def exec (i : Time × Op) (s : σ) : σ := (Tx.commit (run S i.1 i.2) s).2

/-- A history of operations at their clock readings. -/
def execAll (is : List (Time × Op)) (s : σ) : σ := is.foldl (fun s i => exec S i s) s

end Engine

/-! ## Their effects on the view -/

open Engine View

/-- The goal a publication is under: shared and open, or new. -/
inductive PublishesGoal (p : Publication) : View → View → Prop where
  | shared {v : View} {g : GoalInfo} (stored : v.goal p.goalKey = some g)
      (isOpen : g.state = .open) : PublishesGoal p v v
  | new {v : View} {g : GoalInfo} (absent : v.goal p.goalKey = none) (key : g.goalKey = p.goalKey)
      (isOpen : g.state = .open) : PublishesGoal p v (v.setGoal g)

inductive PublishesWait (now : Time) (p : Publication) : View → View → Prop where
  | none {v : View} (empty : p.dependencies = []) : PublishesWait now p v v
  | wait {v v' : View} (registers : Registers now p.key p.submissionWait v v') :
      PublishesWait now p v v'

/-- A committed publication. -/
inductive Publishes (now : Time) (p : Publication) : View → View → Prop where
  | mk {v v₁ v' : View} (goalID : p.goalID ≠ "") (goal : PublishesGoal p v v₁)
      (absent : v₁.job p.key = none) (wait : PublishesWait now p (v₁.setJob p.newJob) v')
      (checked : Grounded now p.key.tenantId (.goal p.goalID) v') (jobID : p.key.jobId ≠ "") :
      Publishes now p v v'

/-- A job gets its outcome. -/
inductive Finishes (key : JobKey) (success : Bool) : View → View → Prop where
  | mk {v : View} {j : Job} (stored : v.job key = some j) (live : j.terminal = false) :
      Finishes key success v (v.setJob { j with terminal := true, success := success })

/-- A job to be deleted gets the outcome "cancelled" unless it has one. -/
inductive Cancels (key : JobKey) : View → View → Prop where
  | already {v : View} {j : Job} (stored : v.job key = some j) (done : j.terminal = true) :
      Cancels key v v
  | finishes {v v' : View} (finishes : Finishes key false v v') : Cancels key v v'

/-- What a committed operation does. -/
def Op.Effect (now : Time) : Op → View → View → Prop
  | .publish p, v, v' => Publishes now p v v'
  | .add req, v, v' => Adds now req.goalKey req.jobID v v'
  | .fail req, v, v' => Fails now req.goalKey v v'
  | .register key req _, v, v' => Registers now key req v v'
  | .closeConsumer key, v, v' => Closes now key v v'
  | .reschedule key req, v, v' => ∃ v₁, Closes now key v v₁ ∧ Registers now key req v₁ v'
  | .finish key success, v, v' => ∃ v₁, Finishes key success v v₁ ∧ Completes now key v₁ v'
  | .deleteJobs keys, v, v' => ∃ v₁, Along Cancels keys v v₁ ∧ Along (Completes now) keys v₁ v'

/-- An operation in a history has its effect or is rolled back. -/
def Op.Step (i : Time × Op) (v v' : View) : Prop := v' = v ∨ i.2.Effect i.1 v v'

/-! ## What all of them move along -/

namespace Engine

/-- The preorder `Q` allows what is done at `now` to end jobs, goals and waits. -/
structure Allows (now : Time) (Q : View → View → Prop) : Prop where
  refl : ∀ v, Q v v
  trans : ∀ {v₁ v₂ v₃}, Q v₁ v₂ → Q v₂ v₃ → Q v₁ v₃
  settles : ∀ {tenant t v v'}, Settles now tenant t v v' → Q v v'
  closes : ∀ {key v v'}, Closes now key v v' → Q v v'
  goal : ∀ {gk g' v v'}, ClosesGoal now gk g' v v' → Q v (v.setGoal g')
  finishes : ∀ {key success v v'}, Finishes key success v v' → Q v v'

/-- It also allows what is added. -/
structure AllowsAll (now : Time) (Q : View → View → Prop) : Prop extends Allows now Q where
  registers : ∀ {key req v v'}, Registers now key req v v' → Q v v'
  lists : ∀ v gk id t, Q v (v.setExtra gk id t)
  inserts : ∀ {p v v₁}, PublishesGoal p v v₁ → v₁.job p.key = none → p.key.jobId ≠ "" →
    Q v (v₁.setJob p.newJob)

namespace Allows

variable {now : Time} {Q : View → View → Prop} {v v₁ v' : View} (h : Allows now Q)

include h

theorem closesGoal {gk : GoalKey} {g' : GoalInfo} (hc : ClosesGoal now gk g' v v') : Q v v' :=
  h.trans (h.goal hc) (h.settles hc.settles)

theorem resolves {jobID : String} {gk : GoalKey} (hr : Resolves now jobID gk v v') : Q v v' := by
  cases hr with
  | already => exact h.refl v
  | closes _ _ hc => exact h.closesGoal hc

theorem completes {key : JobKey} (hc : Completes now key v v') : Q v v' := by
  obtain ⟨_, _, hres, hclose, hset⟩ := hc
  have h₁ := hres.within h.refl (fun _ _ _ => h.trans) fun _ _ _ _ => h.resolves
  exact h.trans (h.trans h₁ (h.closes hclose)) (h.settles hset)

theorem cancels {key : JobKey} (hc : Cancels key v v') : Q v v' := by
  cases hc with
  | already => exact h.refl v
  | finishes hf => exact h.finishes hf

theorem deletes {keys : List JobKey} (hcancel : Along Cancels keys v v₁)
    (hcomplete : Along (Completes now) keys v₁ v') : Q v v' := by
  have h₁ := hcancel.within h.refl (fun _ _ _ => h.trans) fun _ _ _ _ => h.cancels
  exact h.trans h₁ (hcomplete.within h.refl (fun _ _ _ => h.trans) fun _ _ _ _ => h.completes)

end Allows

end Engine

section Allowed

variable {Q : View → View → Prop} {v v' : View}

/-- **Every operation** moves along a preorder that allows its parts. -/
theorem Op.Effect.allowed {now : Time} {op : Op} (he : op.Effect now v v') (h : AllowsAll now Q) :
    Q v v' := by
  cases op with
  | publish p =>
    obtain ⟨_, hgoal, habs, hwait, _, hjob⟩ := he
    have h₁ := h.inserts hgoal habs hjob
    cases hwait with
    | none => exact h₁
    | wait hr => exact h.trans h₁ (h.registers hr)
  | add req =>
    cases he with
    | listed => exact h.refl v
    | success _ _ hr => exact h.trans (h.lists ..) (h.resolves hr)
    | terminal => exact h.lists ..
    | live => exact h.lists ..
  | fail req =>
    cases he with
    | already => exact h.refl v
    | closes _ hc => exact h.closesGoal hc
  | register key req submission => exact h.registers he
  | closeConsumer key => exact h.closes he
  | reschedule key req =>
    obtain ⟨v₁, hc, hr⟩ := he
    exact h.trans (h.closes hc) (h.registers hr)
  | finish key success =>
    obtain ⟨v₁, hf, hc⟩ := he
    exact h.trans (h.finishes hf) (h.completes hc)
  | deleteJobs keys =>
    obtain ⟨v₁, hcancel, hcomplete⟩ := he
    exact h.deletes hcancel hcomplete

/-- **Every history** does. -/
theorem Along.allowed {is : List (Time × Op)} (h : Along Op.Step is v v')
    (hQ : ∀ i ∈ is, AllowsAll i.1 Q) (hr : Q v v) : Q v v' := by
  refine h.preserves (P := Q v) (fun i hi u u' hstep hu => ?_) hr
  obtain rfl | he := hstep
  · exact hu
  · exact (hQ i hi).trans hu (he.allowed (hQ i hi))

end Allowed

namespace Engine

variable {σ : Type} {S : SchedulerStore σ} (L : LawfulStore S) {now : Time} {s s' : σ}

theorem publishGoal_spec {p : Publication} (hi : L.Inv s)
    (fresh : p.shareGoal = true ∨ (L.view s).goal p.goalKey = none)
    (h : publishGoal S p s = .ok ((), s')) :
    L.Inv s' ∧ PublishesGoal p (L.view s) (L.view s') := by
  unfold publishGoal at h
  split at h
  · obtain ⟨g, hg, h⟩ := Tx.read_bind_eq_ok.mp h
    obtain ⟨hopen, rfl⟩ := Tx.require_eq_ok.mp h
    exact ⟨hi, .shared (L.goal_ok hi hg) hopen⟩
  · next hshare =>
    obtain ⟨hi', g', hsav, hv⟩ := L.saveGoal_ok hi (Tx.write_eq_ok.mp h)
    exact ⟨hi', hv ▸ .new (fresh.resolve_left hshare) hsav.goalKey hsav.state⟩

theorem publishWait_spec {p : Publication} (hi : L.Inv s)
    (h : publishWait S now p s = .ok ((), s')) :
    L.Inv s' ∧ PublishesWait now p (L.view s) (L.view s') := by
  unfold publishWait at h
  split at h
  · next hd =>
    obtain ⟨_, rfl⟩ := Tx.pure_eq_ok.mp h
    exact ⟨hi, .none hd⟩
  · obtain ⟨w, h₁, -⟩ := Tx.bind_pure_eq_ok.mp h
    obtain ⟨hi', hr⟩ := register_spec L hi h₁
    exact ⟨hi', .wait hr⟩

theorem prepared_spec {p : Publication} (hi : L.Inv s) (h : prepared S p s = .ok ((), s')) :
    s' = s ∧ p.key.jobId ≠ "" ∧ p.goalID ≠ "" ∧
      (p.shareGoal = true ∨ (L.view s).goal p.goalKey = none) := by
  unfold prepared at h
  obtain ⟨hkey, h⟩ := Tx.require_bind_eq_ok.mp h
  obtain ⟨hid, h⟩ := Tx.require_bind_eq_ok.mp h
  obtain ⟨hf, rfl⟩ := Tx.read_eq_ok.mp h
  refine ⟨rfl, hkey.2, hid, ?_⟩
  split at hf
  · next hor => exact hor.imp_right (L.goal_none hi)
  · cases hf

theorem publish_spec {p : Publication} (hi : L.Inv s) (hjob : p.key.jobId ≠ "")
    (hid : p.goalID ≠ "") (fresh : p.shareGoal = true ∨ (L.view s).goal p.goalKey = none)
    (h : publish S now p s = .ok ((), s')) :
    L.Inv s' ∧ Publishes now p (L.view s) (L.view s') := by
  unfold publish at h
  obtain ⟨_, s₁, h₁, h⟩ := Tx.bind_eq_ok.mp h
  obtain ⟨_, s₂, h₂, h⟩ := Tx.bind_eq_ok.mp h
  obtain ⟨_, s₃, h₃, h⟩ := Tx.bind_eq_ok.mp h
  obtain ⟨hi₁, hgoal⟩ := publishGoal_spec L hi fresh h₁
  obtain ⟨hi₂, habs, hv₂⟩ := L.insertJob_ok hi₁ (Tx.write_eq_ok.mp h₂)
  obtain ⟨hi₃, hwait⟩ := publishWait_spec L hi₂ h₃
  obtain ⟨rfl, hacc⟩ := checkCycle_spec L hi₃ h
  rw [node_goal hid] at hacc
  exact ⟨hi₃, .mk hid hgoal habs (hv₂ ▸ hwait) hacc hjob⟩

theorem finishJob_spec {key : JobKey} {success : Bool} {u : Unit} (hi : L.Inv s)
    (h : Tx.write (S.finishJob key success) s = .ok (u, s')) :
    L.Inv s' ∧ Finishes key success (L.view s) (L.view s') := by
  obtain ⟨hi', j, hst, hlive, hv⟩ := L.finishJob_ok hi (Tx.write_eq_ok.mp h)
  exact ⟨hi', hv ▸ .mk hst hlive⟩

theorem deleteOne_spec (key : JobKey) {s s' : σ} (hi : L.Inv s)
    (h : deleteOne S key s = .ok ((), s')) : L.Inv s' ∧ Cancels key (L.view s) (L.view s') := by
  unfold deleteOne at h
  obtain ⟨j, hj, h⟩ := Tx.read_bind_eq_ok.mp h
  split at h
  · next hterm =>
    obtain ⟨_, rfl⟩ := Tx.pure_eq_ok.mp h
    exact ⟨hi, .already (L.job_ok hi hj) hterm⟩
  · obtain ⟨hi', hf⟩ := finishJob_spec L hi h
    exact ⟨hi', .finishes hf⟩

/-- **Every committed operation has its effect.** -/
theorem run_effect (op : Op) (hi : L.Inv s) (h : run S now op s = .ok ((), s')) :
    L.Inv s' ∧ op.Effect now (L.view s) (L.view s') := by
  cases op with
  | publish p =>
    obtain ⟨_, s₁, h₁, h₂⟩ := Tx.bind_eq_ok.mp h
    obtain ⟨rfl, hjob, hid, fresh⟩ := prepared_spec L hi h₁
    exact publish_spec L hi hjob hid fresh h₂
  | add req =>
    obtain ⟨_, h₁, -⟩ := Tx.bind_pure_eq_ok.mp h
    exact add_spec L hi h₁
  | fail req =>
    obtain ⟨_, h₁, -⟩ := Tx.bind_pure_eq_ok.mp h
    exact fail_spec L hi h₁
  | register key req submission =>
    obtain ⟨_, h₁, -⟩ := Tx.bind_pure_eq_ok.mp h
    exact register_spec L hi h₁
  | closeConsumer key => exact closeConsumer_spec L hi h
  | reschedule key req =>
    obtain ⟨_, s₁, h₁, h⟩ := Tx.bind_eq_ok.mp h
    obtain ⟨_, h₂, -⟩ := Tx.bind_pure_eq_ok.mp h
    obtain ⟨hi₁, hc⟩ := closeConsumer_spec L hi h₁
    obtain ⟨hi₂, hr⟩ := register_spec L hi₁ h₂
    exact ⟨hi₂, _, hc, hr⟩
  | finish key success =>
    obtain ⟨_, s₁, h₁, h⟩ := Tx.bind_eq_ok.mp h
    obtain ⟨hi₁, hf⟩ := finishJob_spec L hi h₁
    obtain ⟨hi₂, hc⟩ := complete_spec L hi₁ h
    exact ⟨hi₂, _, hf, hc⟩
  | deleteJobs keys =>
    obtain ⟨_, s₁, h₁, h⟩ := Tx.bind_eq_ok.mp h
    obtain ⟨hi₁, hcancel⟩ := forM_along (fun k _ _ => deleteOne_spec L k) hi h₁
    have body : ∀ k {s s'}, L.Inv s → complete S.toStore now k s = .ok ((), s') →
        L.Inv s' ∧ Completes now k (L.view s) (L.view s') := fun k _ _ => complete_spec L
    obtain ⟨hi₂, hcomplete⟩ := forM_along body hi₁ h
    exact ⟨hi₂, _, hcancel, hcomplete⟩

theorem exec_step (i : Time × Op) (s : σ) (hi : L.Inv s) :
    L.Inv (exec S i s) ∧ Op.Step i (L.view s) (L.view (exec S i s)) := by
  unfold exec Tx.commit
  split
  · next a s' h =>
    obtain ⟨hi', he⟩ := run_effect L i.2 hi h
    exact ⟨hi', Or.inr he⟩
  · exact ⟨hi, Or.inl rfl⟩

/-- **A history of operations is a run of their effects.** -/
theorem execAll_along (is : List (Time × Op)) (s : σ) (hi : L.Inv s) :
    L.Inv (execAll S is s) ∧ Along Op.Step is (L.view s) (L.view (execAll S is s)) :=
  foldl_along (exec_step L) is s hi

end Engine

/-! ## A history to run

Three jobs, the last of which waits for a target until time 9. -/

def waitingFor (t : DependencyTarget) : List (Time × Op) :=
  [(0, .publish { key := ⟨"t", " "⟩, goalID := "g0", shareGoal := false, createdAt := 0 }),
   (0, .publish { key := ⟨"t", "a"⟩, goalID := "g1", shareGoal := false, createdAt := 0 }),
   (0, .publish { key := ⟨"t", "b"⟩, goalID := "g2", shareGoal := false, createdAt := 0 }),
   (0, .register ⟨"t", "b"⟩ { waitID := "w", dependencies := [⟨t, .success⟩],
                              deadline := some ⟨9, 0, none⟩ }
     false)]

end JobDB
