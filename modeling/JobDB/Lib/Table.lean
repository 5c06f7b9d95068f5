import Mathlib.Data.List.AList
import Mathlib.Data.List.Sort

/-!
# Tables

A keyed table (a Go map, or an SQL table with its primary key) is Mathlib's
`AList`: a list of rows with distinct keys, so that it can be searched by key
and scanned row by row. `rows` is the scan; `mem_rows` ties it to `lookup`.
-/

namespace JobDB

/-- A table of values `V` keyed by `K`. -/
abbrev Table (K V : Type) := AList fun _ : K => V

namespace Table

variable {K V : Type}

/-- All rows, in storage order. -/
def rows (t : Table K V) : List (K × V) := t.entries.map fun e => (e.1, e.2)

theorem nodup_rows (t : Table K V) : (t.rows.map (·.1)).Nodup := by
  have hkeys : t.rows.map (·.1) = t.keys := by
    unfold rows
    rw [List.map_map]
    rfl
  rw [hkeys]
  exact t.nodupKeys

variable [DecidableEq K]

variable {v : V}

theorem mem_rows {t : Table K V} {k : K} : (k, v) ∈ t.rows ↔ t.lookup k = some v := by
  rw [← Option.mem_def, AList.mem_lookup_iff]
  unfold rows
  constructor
  · intro h
    obtain ⟨⟨k', v'⟩, he, heq⟩ := List.mem_map.mp h
    obtain ⟨rfl, rfl⟩ := Prod.mk.inj heq
    exact he
  · exact fun h => List.mem_map.mpr ⟨⟨k, v⟩, h, rfl⟩

/-- A value after a write is the written one or an old one under another key. -/
theorem of_written {p : Prop} [Decidable p] {old : Option V} {v' : V}
    (h : (if p then some v else old) = some v') : p ∧ v' = v ∨ ¬ p ∧ old = some v' := by
  split at h
  · next hk => exact Or.inl ⟨hk, (Option.some.inj h).symm⟩
  · next hk => exact Or.inr ⟨hk, h⟩

theorem lookup_insert_eq (t : Table K V) (k k' : K) (v : V) :
    (t.insert k v).lookup k' = if k' = k then some v else t.lookup k' := by
  split
  · next h => rw [h, AList.lookup_insert]
  · next h => rw [AList.lookup_insert_ne h]

theorem of_lookup_insert {t : Table K V} {k k' : K} {v' : V}
    (h : (t.insert k v).lookup k' = some v') :
    k' = k ∧ v' = v ∨ k' ≠ k ∧ t.lookup k' = some v' :=
  of_written (lookup_insert_eq t k k' v ▸ h)

theorem keyed_insert {t : Table K V} {key : V → K} {k : K} (hv : key v = k)
    (h : ∀ k v, t.lookup k = some v → key v = k) (k' : K) (v' : V)
    (hl : (t.insert k v).lookup k' = some v') : key v' = k' := by
  rcases of_lookup_insert hl with ⟨rfl, rfl⟩ | ⟨-, hl⟩
  · exact hv
  · exact h k' v' hl

/-- Replace every value. -/
def mapValues {W : Type} (f : K → V → W) (t : Table K V) : Table K W where
  entries := t.entries.map fun e => ⟨e.1, f e.1 e.2⟩
  nodupKeys := by
    have hkeys : (t.entries.map fun e => (⟨e.1, f e.1 e.2⟩ : Σ _ : K, W)).keys =
        t.entries.keys := by
      unfold List.keys
      rw [List.map_map]
      rfl
    unfold List.NodupKeys
    rw [hkeys]
    exact t.nodupKeys

theorem lookup_mapValues {W : Type} (f : K → V → W) (t : Table K V) (k : K) :
    (t.mapValues f).lookup k = (t.lookup k).map (f k) :=
  List.dlookup_map₂ k

/-- The rows with certain keys. -/
def filterKeys (p : K → Bool) (t : Table K V) : Table K V where
  entries := t.entries.filter fun e => p e.1
  nodupKeys := t.nodupKeys.sublist List.filter_sublist

omit [DecidableEq K] in
theorem rows_filterKeys (p : K → Bool) (t : Table K V) :
    (t.filterKeys p).rows = t.rows.filter fun r => p r.1 := by
  unfold rows filterKeys
  rw [List.filter_map]
  rfl

section Sorted

variable {O : Type} [LinearOrder O]

/-- The rows in the order of their keys. -/
def sorted (t : Table O V) : List (O × V) := t.rows.insertionSort fun a b => a.1 ≤ b.1

variable {t : Table O V}

/-- A list of rows that is in the order of its keys and has the rows of the table is the sorted
table: there is one row for each key, so no two rows can change places. -/
theorem eq_sorted {l : List (O × V)} (hperm : l.Perm t.rows) (hl : l.Pairwise fun a b => a.1 ≤ b.1)
    : l = t.sorted := by
  have hsorted : t.sorted.Pairwise fun a b => a.1 ≤ b.1 := List.pairwise_insertionSort _ _
  refine List.Perm.eq_of_pairwise ?_ hl hsorted (hperm.trans (List.perm_insertionSort _ _).symm)
  intro a b ha hb hab hba
  have hkey : a.1 = b.1 := le_antisymm hab hba
  have ha' : t.lookup a.1 = some a.2 := mem_rows.1 (hperm.mem_iff.1 ha)
  have hb' : t.lookup b.1 = some b.2 :=
    mem_rows.1 ((List.perm_insertionSort _ _).mem_iff.1 hb)
  rw [hkey, hb'] at ha'
  exact Prod.ext hkey (Option.some.inj ha').symm

theorem sorted_filterKeys (p : O → Bool) (t : Table O V) :
    (t.filterKeys p).sorted = t.sorted.filter fun r => p r.1 := by
  refine (eq_sorted ?_ ?_).symm
  · rw [rows_filterKeys]
    exact (List.perm_insertionSort _ _).filter _
  · exact (List.pairwise_insertionSort _ _).sublist List.filter_sublist

/-- Tables that agree on some keys have the same rows with these keys. -/
theorem sorted_filter_congr {t' : Table O V} {p : O → Bool}
    (h : ∀ k, p k = true → t.lookup k = t'.lookup k) :
    (t.sorted.filter fun r => p r.1) = t'.sorted.filter fun r => p r.1 := by
  have hnodup : ∀ u : Table O V, u.rows.Nodup := fun u => (nodup_rows u).of_map
  rw [← sorted_filterKeys, ← sorted_filterKeys]
  refine eq_sorted ((List.perm_insertionSort _ _).trans ?_) (List.pairwise_insertionSort _ _)
  refine (List.perm_ext_iff_of_nodup (hnodup _) (hnodup _)).mpr fun ⟨k, v⟩ => ?_
  rw [rows_filterKeys, rows_filterKeys, List.mem_filter, List.mem_filter, mem_rows, mem_rows]
  exact and_congr_left fun hk => by rw [h k hk]

theorem mem_sorted {k : O} : (k, v) ∈ t.sorted ↔ t.lookup k = some v :=
  (List.perm_insertionSort _ _).mem_iff.trans mem_rows

end Sorted

end Table

/-! ## Queries

A condition on a row may fail to evaluate, and then the query does. -/

section Query

variable {ε α β : Type}

/-- A conjunction, evaluated from left to right up to the first condition that does not
hold. -/
def allHold : List (Except ε Bool) → Except ε Bool
  | [] => .ok true
  | c :: cs =>
    match c with
    | .error e => .error e
    | .ok false => .ok false
    | .ok true => allHold cs

theorem allHold_eq_true {cs : List (Except ε Bool)} :
    allHold cs = .ok true ↔ ∀ c ∈ cs, c = .ok true := by
  induction cs with
  | nil => simp [allHold]
  | cons c cs ih =>
    rw [List.forall_mem_cons, ← ih]
    cases c with
    | error e => simp [allHold]
    | ok held => cases held <;> simp [allHold]

/-- A conjunction that has a value holds if none of its conditions is refuted. -/
theorem allHold_of_ok {cs : List (Except ε Bool)} {v : Bool} (h : allHold cs = .ok v)
    (hcs : ∀ c ∈ cs, c ≠ .ok false) : v = true := by
  induction cs with
  | nil => exact (Except.ok.inj h).symm
  | cons c cs ih =>
    rw [List.forall_mem_cons] at hcs
    cases c with
    | error e => cases h
    | ok held =>
      cases held with
      | false => exact absurd rfl hcs.1
      | true => exact ih h hcs.2

/-- A condition that has a value before others that have one. -/
theorem allHold_cons_ok {cs : List (Except ε Bool)} (b : Bool) (h : ∃ v, allHold cs = .ok v) :
    ∃ v, allHold (.ok b :: cs) = .ok v := by
  cases b with
  | false => exact ⟨false, rfl⟩
  | true => exact h

/-- The rows that meet a condition. -/
def selectRows (p : α → Except ε Bool) : List α → Except ε (List α)
  | [] => .ok []
  | x :: xs =>
    match p x, selectRows p xs with
    | .error e, _ => .error e
    | .ok _, .error e => .error e
    | .ok b, .ok ys => .ok (if b then x :: ys else ys)

variable {xs : List α} {f : α → Except ε β} {ys : List β}

theorem selectRows_of_forall {p : α → Except ε Bool} {q : α → Bool} (h : ∀ x ∈ xs, p x = .ok (q x))
    : selectRows p xs = .ok (xs.filter q) := by
  induction xs with
  | nil => rfl
  | cons x xs ih =>
    have hxs : selectRows p xs = .ok (xs.filter q) :=
      ih fun y hy => h y (List.mem_cons_of_mem x hy)
    unfold selectRows
    rw [h x List.mem_cons_self, hxs, List.filter_cons]

theorem selectRows_eq_ok {p : α → Except ε Bool} {ys : List α} (h : selectRows p xs = .ok ys) :
    ∀ x ∈ xs, ∃ b, p x = .ok b := by
  induction xs generalizing ys with
  | nil => intro x hx; cases hx
  | cons x xs ih =>
    unfold selectRows at h
    split at h
    · cases h
    · cases h
    · next b ys' hx hxs =>
      exact List.forall_mem_cons.2 ⟨⟨b, hx⟩, ih hxs⟩

theorem mapM_of_forall {g : α → β} (h : ∀ x ∈ xs, f x = .ok (g x)) :
    xs.mapM f = .ok (xs.map g) := by
  induction xs with
  | nil => rfl
  | cons x xs ih =>
    rw [List.mapM_cons, h x List.mem_cons_self, ih fun y hy => h y (List.mem_cons_of_mem x hy)]
    rfl

/-- Where there is an answer for each element, they are collected. -/
theorem exists_mapM (h : ∀ x ∈ xs, ∃ y, f x = .ok y) : ∃ ys, xs.mapM f = .ok ys := by
  induction xs with
  | nil => exact ⟨[], rfl⟩
  | cons x xs ih =>
    obtain ⟨y, hy⟩ := h x List.mem_cons_self
    obtain ⟨ys, hys⟩ := ih fun x' hx' => h x' (List.mem_cons_of_mem _ hx')
    rw [List.mapM_cons, hy, hys]
    exact ⟨y :: ys, rfl⟩

theorem mapM_cons_eq_ok {x : α} (h : (x :: xs).mapM f = .ok ys) :
    ∃ y ys', f x = .ok y ∧ xs.mapM f = .ok ys' ∧ y :: ys' = ys := by
  rw [List.mapM_cons] at h
  cases hx : f x with
  | error e => rw [hx] at h; cases h
  | ok y =>
    cases hxs : xs.mapM f with
    | error e => rw [hx, hxs] at h; cases h
    | ok ys' =>
      rw [hx, hxs] at h
      exact ⟨y, ys', rfl, rfl, Except.ok.inj h⟩

/-- What is collected are the answers for the elements. -/
theorem mem_mapM_iff (h : xs.mapM f = .ok ys) {y : β} : y ∈ ys ↔ ∃ x ∈ xs, f x = .ok y := by
  induction xs generalizing ys with
  | nil =>
    cases h
    simp
  | cons x xs ih =>
    obtain ⟨y', ys', hx, hxs, rfl⟩ := mapM_cons_eq_ok h
    rw [List.mem_cons, ih hxs, List.exists_mem_cons_iff, hx, Except.ok.injEq, eq_comm]

/-- Every value that is collected comes from an element. -/
theorem mem_mapM (h : xs.mapM f = .ok ys) {y : β} (hy : y ∈ ys) : ∃ x, f x = .ok y := by
  obtain ⟨x, -, hx⟩ := (mem_mapM_iff h).1 hy
  exact ⟨x, hx⟩

theorem mapM_eq_ok (h : xs.mapM f = .ok ys) : ∀ x ∈ xs, ∃ y, f x = .ok y := by
  induction xs generalizing ys with
  | nil => intro x hx; cases hx
  | cons x xs ih =>
    obtain ⟨y, ys', hx, hxs, -⟩ := mapM_cons_eq_ok h
    exact List.forall_mem_cons.2 ⟨⟨y, hx⟩, ih hxs⟩

end Query

end JobDB
