import Mathlib.Data.List.DropRight

/-!
# Bounded histories

A history that grows at its end and keeps its last entries only. `recent bound l` is
what is left of `l`; without a bound it is all of it. Cutting at every step gives what
cutting once at the end gives (`recent_concat`), so a history that is handed on and cut
from step to step is the recent part of the whole one.

`run p l` counts the entries at the end of `l` that satisfy `p`, up to the first that does
not. A run within the bound can be read off the recent part (`le_run_recent`).
-/

namespace JobDB

variable {α β : Type} {p : α → Bool} {k n : Nat}

/-- The last entries of a history, as many as the bound allows. -/
def recent : Option Nat → List α → List α
  | some n, l => l.rtake n
  | none, l => l

@[simp] theorem recent_some (n : Nat) (l : List α) : recent (some n) l = l.rtake n := rfl
@[simp] theorem recent_none (l : List α) : recent none l = l := rfl

/-- How many entries at the end satisfy `p`. -/
def run (p : α → Bool) (l : List α) : Nat := (l.rtakeWhile p).length

@[simp] theorem recent_nil (bound : Option Nat) : recent bound ([] : List α) = [] := by
  cases bound with
  | none => rfl
  | some n => exact List.rtake_nil ..

theorem rtake_of_length_le {l : List α} (h : l.length ≤ n) : l.rtake n = l := by
  unfold List.rtake
  rw [Nat.sub_eq_zero_of_le h, List.drop_zero]

theorem length_rtake (l : List α) (n : Nat) : (l.rtake n).length = min n l.length := by
  unfold List.rtake
  rw [List.length_drop]
  omega

theorem rtake_rtake (l : List α) (n k : Nat) : (l.rtake n).rtake k = l.rtake (min k n) := by
  rw [List.rtake_eq_reverse_take_reverse, List.rtake_eq_reverse_take_reverse,
    List.rtake_eq_reverse_take_reverse, List.reverse_reverse, List.take_take]

/-- A history is cut at every step as it is cut once. -/
theorem recent_concat (bound : Option Nat) (l : List α) (x : α) :
    recent bound (recent bound l ++ [x]) = recent bound (l ++ [x]) := by
  cases bound with
  | none => rfl
  | some n =>
    rw [recent_some, recent_some, recent_some]
    cases n with
    | zero => rw [List.rtake_zero, List.rtake_zero]
    | succ n =>
      rw [List.rtake_concat_succ, List.rtake_concat_succ, rtake_rtake,
        Nat.min_eq_left (Nat.le_succ n)]

theorem mem_of_mem_recent {bound : Option Nat} {l : List α} {x : α} (h : x ∈ recent bound l) :
    x ∈ l := by
  cases bound with
  | none => exact h
  | some n => exact List.mem_of_mem_drop h

theorem recent_concat_ne_nil {bound : Option Nat} (hb : bound ≠ some 0) (l : List α) (x : α) :
    recent bound (l ++ [x]) ≠ [] := by
  cases bound with
  | none => exact List.concat_ne_nil x l
  | some n =>
    cases n with
    | zero => exact absurd rfl hb
    | succ n =>
      rw [recent_some, List.rtake_concat_succ]
      exact List.concat_ne_nil x _

theorem run_concat (p : α → Bool) (l : List α) (x : α) :
    run p (l ++ [x]) = if p x then run p l + 1 else 0 := by
  unfold run
  by_cases hx : p x
  · rw [List.rtakeWhile_concat_pos p l x hx, if_pos hx, List.length_append]
    rfl
  · rw [List.rtakeWhile_concat_neg p l x hx, if_neg hx]
    rfl

/-- A run of length `k` is `k` entries at the end that all satisfy `p`. -/
theorem le_run_iff {l : List α} : k ≤ run p l ↔ k ≤ l.length ∧ ∀ x ∈ l.rtake k, p x := by
  induction l using List.reverseRecOn generalizing k with
  | nil =>
    unfold run
    simp
  | append_singleton l x ih =>
    cases k with
    | zero => simp
    | succ k =>
      rw [run_concat, List.rtake_concat_succ, List.length_append, List.length_singleton]
      by_cases hx : p x
      · rw [if_pos hx, Nat.succ_le_succ_iff, ih, Nat.succ_le_succ_iff]
        refine and_congr_right fun _ =>
          ⟨fun h y hy => ?_, fun h y hy => h y (List.mem_append_left _ hy)⟩
        obtain hy | hy := List.mem_append.1 hy
        · exact h y hy
        · rw [List.mem_singleton.1 hy]
          exact hx
      · rw [if_neg hx]
        constructor
        · intro h
          omega
        · rintro ⟨-, h⟩
          exact absurd (h x (by simp)) hx

/-- A run within the bound shows in the recent part. -/
theorem le_run_recent {bound : Option Nat} (hk : ∀ n, bound = some n → k ≤ n) (l : List α) :
    k ≤ run p (recent bound l) ↔ k ≤ run p l := by
  cases bound with
  | none => rfl
  | some n =>
    have hkn := hk n rfl
    rw [recent_some, le_run_iff, le_run_iff, length_rtake, rtake_rtake, Nat.min_eq_left hkn]
    constructor
    · rintro ⟨hlen, h⟩
      exact ⟨by omega, h⟩
    · rintro ⟨hlen, h⟩
      exact ⟨by omega, h⟩

/-- A run that is longer than the bound fills the recent part. -/
theorem recent_of_le_run {l : List α} (hn : n ≤ k) (h : k ≤ run p l) :
    ∀ x ∈ recent (some n) l, p x := by
  have hn' : n ≤ run p l := Nat.le_trans hn h
  exact (le_run_iff.1 hn').2

theorem run_map (f : β → α) (p : α → Bool) (l : List β) : run p (l.map f) = run (p ∘ f) l := by
  induction l using List.reverseRecOn with
  | nil => rfl
  | append_singleton l x ih =>
    rw [List.map_append, List.map_singleton, run_concat, run_concat, ih]
    rfl

theorem run_eq_zero {l : List α} (h : ∀ x ∈ l, p x = false) : run p l = 0 := by
  obtain rfl | ⟨init, x, rfl⟩ := l.eq_nil_or_concat'
  · rfl
  · rw [run_concat, h x (by simp)]
    rfl

/-- No run is lengthened by cutting. -/
theorem run_recent_le (p : α → Bool) (bound : Option Nat) (l : List α) :
    run p (recent bound l) ≤ run p l := by
  cases bound with
  | none => exact Nat.le_refl _
  | some n =>
    have hle : run p (l.rtake n) ≤ n := by
      have := List.IsSuffix.length_le (List.rtakeWhile_suffix p (l.rtake n))
      rw [length_rtake] at this
      exact Nat.le_trans this (Nat.min_le_left ..)
    exact (le_run_recent (by rintro m ⟨⟩; exact hle) l).1 (Nat.le_refl _)

theorem run_le_length (p : α → Bool) (l : List α) : run p l ≤ l.length :=
  (List.rtakeWhile_suffix p l).length_le

end JobDB
