import Mathlib.Data.List.Basic
import Mathlib.Data.List.Nodup
import Mathlib.Data.List.Range
import Mathlib.Logic.Function.Basic

/-!
# Numbered logs

An append-only log whose entries carry their own numbers. `Dense` says that the
numbers are 0, 1, 2, … in order; it is kept by appending an entry under the next
number and by cutting the log short. In a dense log an entry is found under its
number, alone, and stays there as the log grows.

`Logs` is a family of such logs, one for each key that has one.
-/

namespace JobDB

variable {α : Type} (ord : α → Int)

/-- The entries are numbered from 0 on. -/
def Dense (l : List α) : Prop := l.map ord = (List.range l.length).map Int.ofNat

/-- The entry under a number. -/
def entryAt (l : List α) (n : Int) : Option α := l.find? (ord · = n)

namespace Dense

variable {ord} {l l' : List α} {a : α} {n : Int}

theorem nil : Dense ord [] := rfl

theorem append (h : Dense ord l) (ha : ord a = l.length) : Dense ord (l ++ [a]) := by
  unfold Dense at h ⊢
  rw [List.map_append, h, List.length_append, List.length_singleton, List.range_succ,
    List.map_append, List.map_singleton, List.map_singleton, ha]
  rfl

theorem take (h : Dense ord l) (k : Nat) : Dense ord (l.take k) := by
  unfold Dense at h ⊢
  rw [List.map_take, h, ← List.map_take, List.take_range, List.length_take]

theorem nodup (h : Dense ord l) : (l.map ord).Nodup := by
  rw [h]
  exact List.nodup_range.map fun _ _ he => Int.ofNat.inj he

/-- The next number is not in use. -/
theorem ne_length (h : Dense ord l) (ha : a ∈ l) : ord a ≠ l.length := by
  have hmem : ord a ∈ (List.range l.length).map Int.ofNat := h ▸ List.mem_map_of_mem ha
  obtain ⟨k, hk, he⟩ := List.mem_map.mp hmem
  have hlt := List.mem_range.mp hk
  rw [← he]
  exact fun hc => absurd (Int.ofNat.inj hc) (by omega)

theorem entryAt_append_self (h : Dense ord l) (ha : ord a = l.length) :
    entryAt ord (l ++ [a]) (ord a) = some a := by
  unfold entryAt
  rw [List.find?_append, List.find?_eq_none.mpr]
  · simp
  · intro b hb
    simpa [ha] using h.ne_length hb

/-- There is one entry under a number. -/
theorem filter_eq (h : Dense ord l) (ha : entryAt ord l n = some a) :
    l.filter (ord · = n) = [a] := by
  have hmem := List.mem_of_find?_eq_some ha
  have hord : ord a = n := by simpa using List.find?_some ha
  obtain ⟨l₁, l₂, rfl⟩ := List.append_of_mem hmem
  have hnd := h.nodup
  rw [List.map_append, List.map_cons, List.nodup_middle, List.nodup_cons,
    ← List.map_append] at hnd
  have hother : ∀ b ∈ l₁ ++ l₂, ¬ ord b = n := fun b hb he =>
    hnd.1 (List.mem_map.mpr ⟨b, hb, he.trans hord.symm⟩)
  rw [List.filter_append, List.filter_cons_of_pos (by simp [hord]),
    List.filter_eq_nil_iff.mpr fun b hb => by simpa using hother b (by simp [hb]),
    List.filter_eq_nil_iff.mpr fun b hb => by simpa using hother b (by simp [hb])]
  rfl

/-- The last entry has the last number. -/
theorem getLast?_ord (h : Dense ord l) (ha : l.getLast? = some a) : ord a + 1 = l.length := by
  obtain ⟨l₁, rfl⟩ := List.getLast?_eq_some_iff.mp ha
  unfold Dense at h
  rw [List.map_append, List.length_append, List.length_singleton, List.range_succ,
    List.map_append] at h
  have hlast := (List.append_inj' h rfl).2
  simp only [List.map_singleton, List.cons.injEq, and_true] at hlast
  rw [hlast]
  simp

end Dense

variable {ord} {l l' : List α} {a : α} {n : Int}

/-- An entry stays where it is while the log grows. -/
theorem entryAt_of_prefix (h : l <+: l') (ha : entryAt ord l n = some a) :
    entryAt ord l' n = some a := by
  obtain ⟨t, rfl⟩ := h
  unfold entryAt at ha ⊢
  rw [List.find?_append, ha]
  rfl

/-! ## Families of logs -/

/-- The logs that there are. -/
abbrev Logs (K α : Type) := K → Option (List α)

namespace Logs

variable {K : Type} {v v' v'' : Logs K α} {k : K}

/-- Every log has only grown. -/
def Grows (v v' : Logs K α) : Prop := ∀ k l, v k = some l → ∃ l', v' k = some l' ∧ l <+: l'

theorem Grows.refl (v : Logs K α) : Grows v v := fun _ l h => ⟨l, h, List.prefix_refl l⟩

theorem Grows.trans (h : Grows v v') (h' : Grows v' v'') : Grows v v'' := by
  intro k l hl
  obtain ⟨l₁, hl₁, hp₁⟩ := h k l hl
  obtain ⟨l₂, hl₂, hp₂⟩ := h' k l₁ hl₁
  exact ⟨l₂, hl₂, hp₁.trans hp₂⟩

/-- All logs are dense. -/
def AllDense (ord : α → Int) (v : Logs K α) : Prop := ∀ k l, v k = some l → Dense ord l

/-- The entry is in the log of the key, under the number. -/
def At (ord : α → Int) (v : Logs K α) (k : K) (n : Int) (a : α) : Prop :=
  ∃ l, v k = some l ∧ entryAt ord l n = some a

theorem At.grows (h : At ord v k n a) (hg : Grows v v') : At ord v' k n a := by
  obtain ⟨l, hl, ha⟩ := h
  obtain ⟨l', hl', hp⟩ := hg k l hl
  exact ⟨l', hl', entryAt_of_prefix hp ha⟩

/-- There is one entry under a number. -/
theorem At.unique {a' : α} (h : At ord v k n a) (h' : At ord v k n a') : a = a' := by
  obtain ⟨l, hl, ha⟩ := h
  obtain ⟨l', hl', ha'⟩ := h'
  cases hl.symm.trans hl'
  exact Option.some.inj (ha.symm.trans ha')

section Update

variable [DecidableEq K]

theorem Grows.update (h : ∀ l₀, v k = some l₀ → l₀ <+: l) :
    Grows v (Function.update v k (some l)) := by
  intro k' l₀ hl₀
  rw [Function.update_apply]
  split
  · next he => exact ⟨l, rfl, h l₀ (he ▸ hl₀)⟩
  · exact ⟨l₀, hl₀, List.prefix_refl l₀⟩

theorem AllDense.update (h : AllDense ord v) (hl : Dense ord l) :
    AllDense ord (Function.update v k (some l)) := by
  intro k' l' hl'
  rw [Function.update_apply] at hl'
  split at hl'
  · cases hl'
    exact hl
  · exact h k' l' hl'

theorem At.update_append (h : Dense ord l) (ha : ord a = l.length) :
    At ord (Function.update v k (some (l ++ [a]))) k (ord a) a :=
  ⟨l ++ [a], Function.update_self .., h.entryAt_append_self ha⟩

end Update

end Logs

end JobDB
