import JobDB.Lib.Index
import JobDB.Sqlite.GoalStore

/-!
# The index of dependency targets

`SaveWait` (`sqlite/goals.go:160–188`) writes a wait and makes its rows of
`jobdb_dependency_targets` anew: one for each node that a pending wait has a pending dependency on.
`TargetWaits` goes through these rows, where the in-memory store walks over all of its waits
(`memory.go:118–132`).

The index is exact after every sequence of saves. What is found through it is what the walk finds,
for targets that name a job or a goal and not both: the index has the node that a target stands for,
the walk compares the target itself.
-/

namespace JobDB.Sqlite

open GoalStore

/-! ## The rows of a wait -/

variable {w : DependencyWaitInfo} {s : State} {t : DependencyTarget}

theorem mem_targetKeys {r : TargetKey} :
    r ∈ targetKeys w ↔ r.wait = w.key ∧ w.state = .pending ∧
      ∃ d ∈ w.dependencies, d.state = .pending ∧ d.target.node = r.target := by
  unfold targetKeys
  by_cases hp : w.state = .pending
  · rw [if_pos hp, List.mem_map]
    constructor
    · rintro ⟨d, hd, rfl⟩
      obtain ⟨hmem, hpending⟩ := List.mem_filter.mp hd
      exact ⟨rfl, hp, d, hmem, of_decide_eq_true hpending, rfl⟩
    · rintro ⟨hkey, -, d, hd, hpending, hnode⟩
      refine ⟨d, List.mem_filter.mpr ⟨hd, decide_eq_true hpending⟩, ?_⟩
      obtain ⟨wait, target⟩ := r
      exact congrArg₂ TargetKey.mk hkey.symm hnode
  · rw [if_neg hp]
    exact ⟨fun h => (nomatch h), fun h => absurd h.2.1 hp⟩

theorem targetKeys_copy (w : DependencyWaitInfo) : targetKeys w.copy = targetKeys w := by
  have hdeps : w.copy.dependencies.filter (·.state = .pending) =
      (w.dependencies.filter (·.state = .pending)).map DependencyResolution.copy := by
    rw [DependencyWaitInfo.copy_dependencies, List.filter_map]
    rfl
  unfold targetKeys
  rw [DependencyWaitInfo.copy_state, hdeps, List.map_map]
  rfl

/-- The tables of waits: rows lie under their keys, with the state in its column, and the index is
exact. -/
structure WaitTables (s : State) : Prop where
  key : ∀ {k row}, s.waits.lookup k = some row → row.payload.key = k
  state : ∀ {k row}, s.waits.lookup k = some row → row.state = row.payload.state
  copied : ∀ {k row}, s.waits.lookup k = some row → row.payload.copy = row.payload
  index : Indexed TargetKey.wait (fun row => targetKeys row.payload) s.waits s.targets

theorem WaitTables.of_empty (hw : s.waits = ∅) (ht : s.targets = []) : WaitTables s where
  key h := by rw [hw] at h; cases h
  state h := by rw [hw] at h; cases h
  copied h := by rw [hw] at h; cases h
  index := by
    rw [hw, ht]
    exact .empty

/-- **A save keeps the index exact.** -/
theorem WaitTables.saveWait {s' : State} (h : WaitTables s) (hs : saveWait w s = .ok s') :
    WaitTables s' := by
  unfold GoalStore.saveWait at hs
  split at hs
  · next hnodup =>
    obtain rfl := Except.ok.inj hs
    refine ⟨fun hl => ?_, fun hl => ?_, fun hl => ?_, ?_⟩
    · rcases Table.of_lookup_insert hl with ⟨rfl, rfl⟩ | ⟨-, hold⟩
      · exact w.copy_key
      · exact h.key hold
    · rcases Table.of_lookup_insert hl with ⟨rfl, rfl⟩ | ⟨-, hold⟩
      · rfl
      · exact h.state hold
    · rcases Table.of_lookup_insert hl with ⟨rfl, rfl⟩ | ⟨-, hold⟩
      · exact w.copy_copy
      · exact h.copied hold
    · have hkeys : targetKeys (⟨w.state, w.copy⟩ : WaitRow).payload = targetKeys w :=
        targetKeys_copy w
      have hwrite := h.index.write (k := w.key) (v := ⟨w.state, w.copy⟩)
        (fun e he => (mem_targetKeys.mp (hkeys ▸ he)).1) (hkeys ▸ hnodup)
      rw [hkeys] at hwrite
      exact hwrite
  · cases hs

/-- `TargetWaits` finds the pending waits with a pending dependency on the node. -/
theorem WaitTables.mem_targetWaits (h : WaitTables s) {tenant : String}
    {ws : List DependencyWaitInfo} (ht : targetWaits s tenant t = .ok ws) (w : DependencyWaitInfo) :
    w ∈ ws ↔ (∃ row, s.waits.lookup w.key = some row ∧ row.payload = w) ∧
      w.jobKey.tenantId = tenant ∧ w.state = .pending ∧
      ∃ d ∈ w.dependencies, d.state = .pending ∧ d.target.node = t.node := by
  obtain rfl := Except.ok.inj ht
  have hfound :
    ((s.targets.filter fun r => r.wait.jobKey.tenantId = tenant ∧ r.target = t.node).filterMap
      fun r => (s.waits.lookup r.wait).map (·.payload)) =
      ((s.targets.filter fun r => r.wait.jobKey.tenantId = tenant ∧ r.target = t.node).filterMap
        fun r => s.waits.lookup r.wait).map (·.payload) := by
    rw [List.map_filterMap]
  rw [List.mem_insertionSort, hfound, List.mem_map]
  constructor
  · rintro ⟨row, hrow, rfl⟩
    obtain ⟨r, hp, hr, hl⟩ := h.index.mem_found.mp hrow
    obtain ⟨hten, htarget⟩ := of_decide_eq_true hp
    obtain ⟨hkey, hstate, d, hd, hpending, hnode⟩ := mem_targetKeys.mp hr
    refine ⟨⟨row, hkey ▸ hl, rfl⟩, ?_, hstate, d, hd, hpending, hnode.trans htarget⟩
    rw [← hten, hkey]
    rfl
  · rintro ⟨⟨row, hl, rfl⟩, hten, hstate, d, hd, hpending, hnode⟩
    refine ⟨row, h.index.mem_found.mpr ⟨⟨row.payload.key, t.node⟩, ?_, ?_, hl⟩, rfl⟩
    · exact decide_eq_true ⟨hten, rfl⟩
    · exact mem_targetKeys.mpr ⟨rfl, hstate, d, hd, hpending, hnode⟩

/-! ## The same saves in memory -/

/-- One save, in the tables and in memory. A call that the tables refuse is rolled back with its
transaction: nothing is saved. -/
def saveBoth (p : State × Memory) (w : DependencyWaitInfo) : State × Memory :=
  match GoalStore.saveWait w p.1, Memory.saveWait w p.2 with
  | .ok s, .ok m => (s, m)
  | _, _ => p

/-- The two stores hold the same waits. -/
def SameWaits (s : State) (m : Memory) : Prop :=
  ∀ k, (s.waits.lookup k).map (·.payload) = m.waitRows.lookup k

/-- What the tables and the memory hold after a run of saves. -/
structure SavedAlike (ok : DependencyWaitInfo → Prop) (s : State) (m : Memory) : Prop where
  tables : WaitTables s
  same : SameWaits s m
  all : ∀ {k w}, m.waitRows.lookup k = some w → ok w

theorem SavedAlike.saveBoth {ok : DependencyWaitInfo → Prop} {p : State × Memory}
    (h : SavedAlike ok p.1 p.2) (hw : ok w.copy) :
    SavedAlike ok (saveBoth p w).1 (saveBoth p w).2 := by
  unfold Sqlite.saveBoth
  split
  · next s m hs hm =>
    have htables := h.tables.saveWait hs
    obtain rfl := Except.ok.inj hm
    refine ⟨htables, fun k => ?_, fun {k w'} hl => ?_⟩
    · unfold GoalStore.saveWait at hs
      split at hs
      · obtain rfl := Except.ok.inj hs
        simp only [Table.lookup_insert_eq]
        split
        · rfl
        · exact h.same k
      · cases hs
    · rcases Table.of_lookup_insert hl with ⟨-, rfl⟩ | ⟨-, hl⟩
      · exact hw
      · exact h.all hl
  · exact h

theorem SavedAlike.foldl {ok : DependencyWaitInfo → Prop} (ws : List DependencyWaitInfo) :
    ∀ {p : State × Memory}, SavedAlike ok p.1 p.2 → (∀ w ∈ ws, ok w.copy) →
      SavedAlike ok (ws.foldl Sqlite.saveBoth p).1 (ws.foldl Sqlite.saveBoth p).2 := by
  induction ws with
  | nil => exact fun h _ => h
  | cons w ws ih =>
    intro p h hok
    exact ih (h.saveBoth (hok w List.mem_cons_self)) fun w' hw' =>
      hok w' (List.mem_cons_of_mem _ hw')

/-- Each pending dependency of a pending wait names a job or a goal, and not both. -/
def ExactPending (w : DependencyWaitInfo) : Prop :=
  w.state = .pending → ∀ d ∈ w.dependencies, d.state = .pending → d.target.Exact

instance (w : DependencyWaitInfo) : Decidable (ExactPending w) :=
  inferInstanceAs (Decidable (_ → _))

theorem ExactPending.copy (h : ExactPending w) : ExactPending w.copy := by
  intro hp d hd hdp
  rw [DependencyWaitInfo.copy_dependencies] at hd
  obtain ⟨d₀, hd₀, rfl⟩ := List.mem_map.mp hd
  exact h hp d₀ hd₀ hdp

/-- Two exact targets of one node are the same. -/
theorem exact_unique {t' : DependencyTarget} (h : t.Exact) (h' : t'.Exact) (hn : t.node = t'.node) :
    t = t' := by
  obtain ⟨jobID, goalID⟩ := t
  obtain ⟨jobID', goalID'⟩ := t'
  unfold DependencyTarget.Exact at h h'
  unfold DependencyTarget.node at hn
  by_cases hg : goalID = ""
  · by_cases hg' : goalID' = ""
    · simp_all
    · simp [hg, hg'] at hn
  · by_cases hg' : goalID' = ""
    · simp [hg, hg'] at hn
    · simp_all

/-- The waits that a target is looked up for are the same in the tables and in memory. -/
def SameTargetWaits (s : State) (m : Memory) (tenant : String) (t : DependencyTarget) : Prop :=
  ∃ inTables inMemory, targetWaits s tenant t = .ok inTables ∧
    m.targetWaits tenant t = .ok inMemory ∧ ∀ w, w ∈ inTables ↔ w ∈ inMemory

theorem SavedAlike.sameTargetWaits {m : Memory} (h : SavedAlike ExactPending s m) (tenant : String)
    (ht : t.Exact) : SameTargetWaits s m tenant t := by
  refine ⟨_, _, rfl, rfl, fun w => ?_⟩
  rw [h.tables.mem_targetWaits rfl, List.mem_map]
  constructor
  · rintro ⟨⟨row, hl, rfl⟩, hten, hstate, d, hd, hpending, hnode⟩
    have hm : m.waitRows.lookup row.payload.key = some row.payload := by
      rw [← h.same, hl]
      rfl
    have hexact : d.target = t := exact_unique (h.all hm hstate d hd hpending) ht hnode
    refine ⟨(_, row.payload), List.mem_filter.mpr ⟨Table.mem_rows.mpr hm, ?_⟩, h.tables.copied hl⟩
    refine decide_eq_true ⟨hten, hstate, List.any_eq_true.mpr ⟨d, hd, ?_⟩⟩
    exact decide_eq_true ⟨hexact, hpending⟩
  · rintro ⟨⟨k, w₀⟩, hr, rfl⟩
    obtain ⟨hr, hp⟩ := List.mem_filter.mp hr
    have hm := Table.mem_rows.mp hr
    obtain ⟨row, hl, rfl⟩ := Option.map_eq_some_iff.mp ((h.same k).trans hm)
    obtain ⟨hten, hstate, hany⟩ := of_decide_eq_true hp
    obtain ⟨d, hd, hdp⟩ := List.any_eq_true.mp hany
    obtain ⟨rfl, hpending⟩ := of_decide_eq_true hdp
    obtain rfl := h.tables.key hl
    rw [h.tables.copied hl]
    exact ⟨⟨row, hl, rfl⟩, hten, hstate, d, hd, hpending, rfl⟩

/-- **The target index is exact**, after every sequence of saves: its rows are the pairs of a stored
pending wait and a node that it has a pending dependency on, each once. As long as each target saved
names a job or a goal and not both, what is found for such a target is what the in-memory store
finds after the same saves. -/
theorem target_index_exact (s₀ : State) (m₀ : Memory) (hw : s₀.waits = ∅) (ht : s₀.targets = [])
    (hm : m₀.waitRows = ∅) (ws : List DependencyWaitInfo) :
    (∀ r, r ∈ (ws.foldl saveBoth (s₀, m₀)).1.targets ↔
      ∃ row, (ws.foldl saveBoth (s₀, m₀)).1.waits.lookup r.wait = some row ∧
        row.payload.state = .pending ∧
        ∃ d ∈ row.payload.dependencies, d.state = .pending ∧ d.target.node = r.target) ∧
    (ws.foldl saveBoth (s₀, m₀)).1.targets.Nodup ∧
    ((∀ w ∈ ws, ExactPending w) → ∀ tenant t, t.Exact →
      SameTargetWaits (ws.foldl saveBoth (s₀, m₀)).1 (ws.foldl saveBoth (s₀, m₀)).2 tenant t) := by
  have start : ∀ ok, SavedAlike ok s₀ m₀ := fun ok =>
    ⟨.of_empty hw ht, fun k => by rw [hw, hm]; rfl, fun hl => by rw [hm] at hl; cases hl⟩
  have htables := ((start fun _ => True).foldl (p := (s₀, m₀)) ws fun _ _ => trivial).tables
  refine ⟨fun r => ?_, htables.index.nodup, fun hexact tenant t htarget => ?_⟩
  · rw [htables.index.mem]
    constructor
    · rintro ⟨row, hl, hr⟩
      exact ⟨row, hl, (mem_targetKeys.mp hr).2⟩
    · rintro ⟨row, hl, hpending⟩
      exact ⟨row, hl, mem_targetKeys.mpr ⟨(htables.key hl).symm, hpending⟩⟩
  · have hsaved := (start ExactPending).foldl (p := (s₀, m₀)) ws fun w hw => (hexact w hw).copy
    exact hsaved.sameTargetWaits tenant htarget

/-- A pending wait of a job for a target. -/
def waitFor (t : DependencyTarget) : DependencyWaitInfo where
  jobKey := ⟨"t", "b"⟩
  waitID := "w"
  state := .pending
  dependencies := [⟨t, .success, .pending, "", "", none⟩]

/-- A wait for a goal is found in both stores. -/
theorem target_index_goal :
    SameTargetWaits ([waitFor { goalID := "g" }].foldl saveBoth ({ now := 0 }, {})).1
      ([waitFor { goalID := "g" }].foldl saveBoth ({ now := 0 }, {})).2 "t" { goalID := "g" } :=
  (target_index_exact { now := 0 } {} rfl rfl rfl [waitFor { goalID := "g" }]).2.2 (by decide) "t"
    { goalID := "g" } (by decide)

/-- A target with the job ID `" "` and a goal ID, which the request checks let pass, is indexed as
the goal. The tables find its wait when the goal is decided, the in-memory store does not. -/
theorem blank_jobID_found_in_tables_only :
    ¬ ∀ (ws : List DependencyWaitInfo) (tenant : String) (t : DependencyTarget), t.Exact →
      SameTargetWaits (ws.foldl saveBoth ({ now := 0 }, {})).1
        (ws.foldl saveBoth ({ now := 0 }, {})).2 tenant t := by
  intro h
  obtain ⟨inTables, inMemory, ht, hm, hsame⟩ :=
    h [waitFor { jobID := " ", goalID := "g" }] "t" { goalID := "g" } (by decide)
  obtain rfl := Except.ok.inj ht
  obtain rfl := Except.ok.inj hm
  have hfound := (hsame (waitFor { jobID := " ", goalID := "g" })).mp (by decide)
  exact absurd hfound (by decide)

end JobDB.Sqlite
