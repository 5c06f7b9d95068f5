import JobDB.Goal.Engine

/-!
# What the engine leaves alone

The engine changes its store by `saveGoal`, `insertCandidate` and `saveWait`
only. So along whatever preorder these writes move, every operation of the
engine moves: `Store.Writes S R` collects the assumption, and there is one
lemma for each operation.
-/

namespace JobDB

variable {σ : Type}

/-- The store's writes move along `R`. -/
structure Store.Writes (S : Store σ) (R : σ → σ → Prop) : Prop where
  saveGoal : ∀ {g s s'}, S.saveGoal g s = .ok s' → R s s'
  insertCandidate : ∀ {k id t s s'}, S.insertCandidate k id t s = .ok s' → R s s'
  saveWait : ∀ {w s s'}, S.saveWait w s = .ok s' → R s s'

namespace Engine

open Tx

variable {S : Store σ} {R : σ → σ → Prop} [IsPreorder σ R] (hS : S.Writes R) (now : Time)

theorem checkCycle_within (tenant : String) (start : DependencyTarget) :
    Within R (checkCycle S now tenant start) := .read _

theorem registerTarget_within (key : JobKey) (d : Dependency) :
    Within R (registerTarget S key d) := by
  refine .bind (.require _ _) fun _ => ?_
  split <;> exact .bind (.read _) fun _ => .pure _

include hS

theorem settleWait_within (w : DependencyWaitInfo) : Within R (settleWait S now w) :=
  .bind (.read _) fun _ => .bind (.write fun _ _ => hS.saveWait) fun _ => .pure _

theorem settleTarget_within (tenant : String) (t : DependencyTarget) :
    Within R (settleTarget S now tenant t) := by
  refine .bind (.read _) fun ws => .forM fun w _ => ?_
  exact .bind (settleWait_within hS now w) fun _ => .pure _

theorem resolve_within (g : GoalInfo) (jobID : String) : Within R (resolve S now g jobID) := by
  unfold resolve
  split
  · exact .pure _
  · refine .bind (.write fun _ _ => hS.saveGoal) fun _ => ?_
    exact .bind (settleTarget_within hS now _ _) fun _ => .pure _

theorem add_within (req : AddGoalCandidateRequest) : Within R (add S now req) := by
  refine .bind (.read _) fun _ => .bind (.require _ _) fun _ => ?_
  refine .bind (.read _) fun g => .bind (.read _) fun j => .bind (.read _) fun found => ?_
  cases found with
  | some _ => exact .pure _
  | none =>
    refine .bind (.require _ _) fun _ => .bind (.write fun _ _ => hS.insertCandidate) fun _ => ?_
    split
    · exact .bind (resolve_within hS now _ _) fun _ => .pure _
    split
    · exact .pure _
    · exact .bind (checkCycle_within now _ _) fun _ => .pure _

theorem fail_within (req : FailGoalRequest) : Within R (fail S now req) := by
  refine .bind (.read _) fun _ => .bind (.read _) fun g => ?_
  split
  · exact .pure _
  · refine .bind (.require _ _) fun _ => .bind (.read _) fun jobs => ?_
    refine .bind (.write fun _ _ => hS.saveGoal) fun _ => ?_
    exact .bind (settleTarget_within hS now _ _) fun _ => .pure _

theorem closeConsumer_within (key : JobKey) : Within R (closeConsumer S now key) := by
  refine .bind (.read _) fun ws => .forM fun w _ => ?_
  split
  · exact .bind (.read _) fun _ => .write fun _ _ => hS.saveWait
  · exact .pure _

theorem resolveGoals_within (key : JobKey) (j : Job) : Within R (resolveGoals S now key j) := by
  unfold resolveGoals
  split
  · refine .bind (.read _) fun _ => .forM fun gk _ => .bind (.read _) fun g => ?_
    exact .bind (resolve_within hS now g _) fun _ => .pure _
  · exact .pure _

theorem complete_within (key : JobKey) : Within R (complete S now key) := by
  refine .bind (.read _) fun j => .bind (resolveGoals_within hS now key j) fun _ => ?_
  exact .bind (closeConsumer_within hS now key) fun _ => settleTarget_within hS now _ _

theorem registerNew_within (key : JobKey) (req : DependencyWait) :
    Within R (registerNew S now key req) := by
  refine .bind (.mapM (registerTarget_within key) _) fun _ => ?_
  refine .bind (settleWait_within hS now _) fun _ => ?_
  exact .bind (checkCycle_within now _ _) fun _ => .pure _

theorem register_within (key : JobKey) (req : DependencyWait) (submission : Bool) :
    Within R (register S now key req submission) := by
  refine .bind (.read _) fun _ => .bind (.read _) fun _ => .bind (.read _) fun old => ?_
  cases old with
  | none => exact registerNew_within hS now key req
  | some w => exact .bind (.require _ _) fun _ => settleWait_within hS now w

end Engine

end JobDB
