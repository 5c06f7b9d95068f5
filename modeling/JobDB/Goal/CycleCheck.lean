import JobDB.Goal.Operations

/-!
# The cycle check is exact

`CheckCycle` (`state.go:356–411`) searches the unresolved edges of a tenant depth first. What it
answers is decided by the graph alone: it passes where no cycle can be reached, reports a cycle
where one can, and hands on an error of the store only where the store could not answer a question
about a node that can be reached (`ReadFails`).

The search runs over targets and the graph is one of nodes: a target that names both a job and a
goal is read as the goal but is another entry of the search's maps. The successor query covers the
edges of the graph and gives no others (`successors_cover`, `successors_edge`), so that a cycle of
the one is a cycle of the other.
-/

namespace JobDB

namespace Engine

open Relation View

variable {σ : Type}

/-- A read that `CheckCycle` may make about a node fails with `e`. -/
inductive ReadFails (S : Store σ) (s : σ) (tenant : String) (e : Err) : Node → Prop where
  | goal {id : String} (failed : S.goal s ⟨tenant, id⟩ = .error e) :
      ReadFails S s tenant e (.goal id)
  | candidates {id : String} (failed : S.candidates s ⟨tenant, id⟩ = .error e) :
      ReadFails S s tenant e (.goal id)
  | job {id : String} (failed : S.job s ⟨tenant, id⟩ = .error e) : ReadFails S s tenant e (.job id)
  | consumerWaits {id : String} (failed : S.consumerWaits s ⟨tenant, id⟩ = .error e) :
      ReadFails S s tenant e (.job id)

variable {S : SchedulerStore σ} (L : LawfulStore S) {now : Time} {s : σ} {tenant : String}

/-- Every answered successor is an edge of the graph. -/
theorem successors_edge (hi : L.Inv s) {n m : DependencyTarget}
    (h : Digraph.Follows (successors S.toStore now s tenant) n m) :
    (L.view s).Edge now tenant n.node m.node := by
  obtain ⟨next, hnext, hm⟩ := h
  rcases mem_successors hnext hm with ⟨g, js, j, hgoal, hg, hopen, hjs, hj, hlive, rfl⟩ |
    ⟨j, ws, w, d, hgoal, hj, hlive, hws, hw, hfresh, hd, hpending, rfl⟩
  · have hstored := L.goal_ok hi hg
    have hcand := (L.candidates_ok hi hjs j).mp hj
    rw [(L.keyed hi).goal _ _ hstored] at hcand
    rw [show n.node = .goal n.goalID from if_pos hgoal]
    exact .goal hstored hopen hcand hlive
  · obtain ⟨howner, hstate, hwait⟩ := (L.consumerWaits_ok hi hws w).mp hw
    rw [show n.node = .job n.jobID from if_neg (not_not.mpr hgoal)]
    exact .job (L.job_ok hi hj) hlive hwait howner hstate hfresh hd hpending

/-- A successor query that fails made a read that failed. -/
theorem readFails_of_successors (hi : L.Inv s) {n : DependencyTarget} {e : Err}
    (h : successors S.toStore now s tenant n = .error e) :
    ReadFails S.toStore s tenant e n.node := by
  unfold successors at h
  by_cases hgoal : n.goalID ≠ ""
  · rw [if_pos hgoal] at h
    have hnode : n.node = .goal n.goalID := if_pos hgoal
    rw [hnode]
    obtain hg | ⟨g, hg, h⟩ := bind_eq_error.mp h
    · exact .goal hg
    · split at h
      · obtain hc | ⟨_, _, ⟨⟩⟩ := bind_eq_error.mp h
        rw [(L.keyed hi).goal _ _ (L.goal_ok hi hg)] at hc
        exact .candidates hc
      · cases h
  · rw [if_neg hgoal] at h
    have hnode : n.node = .job n.jobID := if_neg hgoal
    rw [hnode]
    obtain hj | ⟨j, hj, h⟩ := bind_eq_error.mp h
    · exact .job hj
    · split at h
      · cases h
      · obtain hw | ⟨_, _, ⟨⟩⟩ := bind_eq_error.mp h
        exact .consumerWaits hw

/-- The nodes that a search from `start` can meet are fewer than its bound. -/
theorem follows_bounded (now : Time) (tenant : String) (start : DependencyTarget) (hi : L.Inv s) :
    ∃ nodes : List DependencyTarget, start ∈ nodes ∧ nodes.length < S.size s + 2 ∧
      ∀ a b, Digraph.Follows (successors S.toStore now s tenant) a b → b ∈ nodes := by
  obtain ⟨nodes, hlen, hnodes⟩ := L.size_bound hi
  refine ⟨start :: nodes, List.mem_cons_self, ?_, ?_⟩
  · rw [List.length_cons]
    omega
  · rintro a b ⟨next, hnext, hb⟩
    exact List.mem_cons_of_mem _ (hnodes now tenant a next hnext b hb)

/-- What `CheckCycle` answers. -/
inductive CycleVerdict (S : Store σ) (v : View) (now : Time) (s : σ) (tenant : String)
    (start : DependencyTarget) : Except Err (Unit × σ) → Prop where
  | passes (none : ¬ Digraph.CycleFrom (v.Edge now tenant) start.node) :
      CycleVerdict S v now s tenant start (.ok ((), s))
  | cycle (found : Digraph.CycleFrom (v.Edge now tenant) start.node) :
      CycleVerdict S v now s tenant start (.error .dependencyCycle)
  | failed {n : Node} {e : Err} (reached : ReflTransGen (v.Edge now tenant) start.node n)
      (read : ReadFails S s tenant e n) : CycleVerdict S v now s tenant start (.error e)

theorem checkCycle_verdict (now : Time) (tenant : String) (start : DependencyTarget)
    (hi : L.Inv s) : CycleVerdict S.toStore (L.view s) now s tenant start
      (checkCycle S.toStore now tenant start s) := by
  cases h : checkCycle S.toStore now tenant start s with
  | ok r =>
    obtain ⟨⟨⟩, s'⟩ := r
    obtain ⟨rfl, hacc⟩ := checkCycle_spec L hi h
    exact .passes (Digraph.not_cycleFrom_of_acc hacc)
  | error e =>
    obtain ⟨nodes, hmem, hlt, hnodes⟩ := follows_bounded L now tenant start hi
    have hvisit : Digraph.visit (successors S.toStore now s tenant) .dependencyCycle .outOfFuel
        (S.size s + 2) [] [] start = .error e := by
      unfold checkCycle Tx.read at h
      cases hr : Digraph.visit (successors S.toStore now s tenant) .dependencyCycle .outOfFuel
          (S.size s + 2) [] [] start with
      | ok r => simp [hr, Except.map] at h
      | error e' => simpa [hr, Except.map] using h
    have hedge : ∀ a b, Digraph.Follows (successors S.toStore now s tenant) a b →
        (L.view s).Edge now tenant a.node b.node := fun a b => successors_edge L hi
    rcases Digraph.visit_error hnodes _ [] [] start e List.nodup_nil (List.nil_subset _) hmem
        (by simpa using hlt) (by simp) hvisit with ⟨rfl, hcyc⟩ | ⟨m, hreach, hread⟩
    · exact .cycle (hcyc.map hedge)
    · exact .failed (hreach.lift DependencyTarget.node hedge) (readFails_of_successors L hi hread)

end Engine

open Relation Engine

/-- **The cycle check is exact.** It answers, and by a verdict that the graph bears out; as long as
the store answers for every node that can be reached, it reports a cycle if and only if one can be
reached from the start. -/
theorem cycle_check_exact {σ : Type} {S : SchedulerStore σ} (L : LawfulStore S) {s : σ}
    (hi : L.Inv s) (now : Time) (tenant : String) (start : DependencyTarget) :
    CycleVerdict S.toStore (L.view s) now s tenant start
        (checkCycle S.toStore now tenant start s) ∧
      ((∀ n e, ReflTransGen ((L.view s).Edge now tenant) start.node n →
          ¬ ReadFails S.toStore s tenant e n) →
        (checkCycle S.toStore now tenant start s = .error .dependencyCycle ↔
          Digraph.CycleFrom ((L.view s).Edge now tenant) start.node)) := by
  have hverdict := checkCycle_verdict L now tenant start hi
  refine ⟨hverdict, fun hreads => ?_⟩
  generalize checkCycle S.toStore now tenant start s = r at hverdict
  cases hverdict with
  | passes hnone => exact ⟨fun h => (nomatch h), fun h => absurd h hnone⟩
  | cycle hfound => exact ⟨fun _ => hfound, fun _ => rfl⟩
  | failed hreach hread => exact absurd hread (hreads _ _ hreach)

/-- Two jobs, each of which waits for the other. -/
def mutualWaits : Memory where
  jobs := (∅ : Table JobKey Job).insert ⟨"t", "a"⟩ ⟨⟨"t", "a"⟩, "g1", false, false, 0⟩
    |>.insert ⟨"t", "b"⟩ ⟨⟨"t", "b"⟩, "g2", false, false, 0⟩
  waitRows := (∅ : Table DependencyWaitKey DependencyWaitInfo).insert ⟨⟨"t", "a"⟩, "w"⟩
      { jobKey := ⟨"t", "a"⟩, waitID := "w", state := .pending,
        dependencies := [⟨{ jobID := "b" }, .success, .pending, "", "", none⟩] }
    |>.insert ⟨⟨"t", "b"⟩, "w"⟩
      { jobKey := ⟨"t", "b"⟩, waitID := "w", state := .pending,
        dependencies := [⟨{ jobID := "a" }, .success, .pending, "", "", none⟩] }

theorem mutualWaits_inv : mutualWaits.Inv where
  job k j h := by
    have hall : ∀ p ∈ mutualWaits.jobs.rows, p.2.key = p.1 := by decide
    exact hall (k, j) (Table.mem_rows.2 h)
  goal k g h := by cases h
  wait k w h := by
    have hall : ∀ p ∈ mutualWaits.waitRows.rows, p.2.key = p.1 := by decide
    exact hall (k, w) (Table.mem_rows.2 h)

/-- The check finds the cycle of two jobs that wait for each other. -/
theorem mutual_wait_reported :
    checkCycle Memory.store.toStore 0 "t" { jobID := "a" } mutualWaits = .error .dependencyCycle ∧
      Digraph.CycleFrom (mutualWaits.view.Edge 0 "t") (.job "a") := by
  have hanswer : checkCycle Memory.store.toStore 0 "t" { jobID := "a" } mutualWaits
      = .error .dependencyCycle := rfl
  have hverdict := (cycle_check_exact Memory.lawful mutualWaits_inv 0 "t" { jobID := "a" }).1
  rw [hanswer] at hverdict
  refine ⟨hanswer, ?_⟩
  cases hverdict with
  | cycle hfound => exact hfound
  | failed _ hread => cases hread with
    | goal h => cases h
    | candidates h => cases h
    | job h =>
      change mutualWaits.lookupJob _ = _ at h
      unfold Memory.lookupJob at h
      split at h <;> cases h
    | consumerWaits h => cases h

end JobDB
