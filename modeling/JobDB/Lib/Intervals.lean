import Mathlib.Data.List.Sort
import Mathlib.Order.Interval.Set.Basic

/-!
# Merged intervals

A set of integers given by closed intervals, which may overlap, touch or be empty. Sorted by
their start they are merged from left to right: an interval that starts at most one after the
end of the last merged one is joined to it. The merged intervals cover the same numbers
(`mem_merge`), so that it is enough, for one set to lie in another, that every merged interval
of the first lies in a single merged interval of the second (`covered_of_merged`).
-/

namespace JobDB

/-- The integers from `start` to `stop`. -/
structure Interval where
  start : Int
  stop : Int
deriving DecidableEq, Repr

namespace Interval

/-- The number lies in the interval. -/
def Holds (i : Interval) (n : Int) : Prop := i.start ≤ n ∧ n ≤ i.stop

instance (i : Interval) (n : Int) : Decidable (i.Holds n) := inferInstanceAs (Decidable (_ ∧ _))

/-- The number lies in one of the intervals. -/
def Covers (is : List Interval) (n : Int) : Prop := ∃ i ∈ is, i.Holds n

/-- One interval more, which starts after the others do. -/
def mergeStep (merged : List Interval) (r : Interval) : List Interval :=
  match merged.getLast? with
  | none => merged ++ [r]
  | some last =>
    if last.stop < r.start ∧ 1 < r.start - last.stop then merged ++ [r]
    else if last.stop < r.stop then merged.dropLast ++ [{ last with stop := r.stop }]
    else merged

/-- The intervals by ascending start, those that overlap or touch joined. -/
def merge (is : List Interval) : List Interval :=
  (is.insertionSort fun a b => a.start ≤ b.start).foldl mergeStep []

theorem covers_append {xs ys : List Interval} {n : Int} :
    Covers (xs ++ ys) n ↔ Covers xs n ∨ Covers ys n := by
  unfold Covers
  constructor
  · rintro ⟨i, hi, hn⟩
    rcases List.mem_append.1 hi with h | h
    · exact .inl ⟨i, h, hn⟩
    · exact .inr ⟨i, h, hn⟩
  · rintro (⟨i, hi, hn⟩ | ⟨i, hi, hn⟩)
    · exact ⟨i, List.mem_append_left ys hi, hn⟩
    · exact ⟨i, List.mem_append_right xs hi, hn⟩

theorem covers_singleton {i : Interval} {n : Int} : Covers [i] n ↔ i.Holds n := by
  constructor
  · rintro ⟨j, hj, hn⟩
    obtain rfl := List.mem_singleton.1 hj
    exact hn
  · intro hn
    exact ⟨i, List.mem_singleton_self i, hn⟩

/-- The merged intervals all start at or before a number. -/
def StartBy (merged : List Interval) (n : Int) : Prop := ∀ i ∈ merged, i.start ≤ n

/-- A step covers what was covered and the new interval, and nothing else. -/
theorem covers_mergeStep {merged : List Interval} {r : Interval} (h : StartBy merged r.start)
    (n : Int) : Covers (mergeStep merged r) n ↔ Covers merged n ∨ r.Holds n := by
  unfold mergeStep
  cases hlast : merged.getLast? with
  | none => rw [covers_append, covers_singleton]
  | some last =>
    have hmerged : merged = merged.dropLast ++ [last] :=
      (List.dropLast_append_getLast? last hlast).symm
    have hstart : last.start ≤ r.start := h last (List.mem_of_getLast? hlast)
    dsimp only
    split
    · rw [covers_append, covers_singleton]
    · next hjoin =>
      -- No number lies between the end of the last interval and the start of the new one.
      have hgap : r.start ≤ last.stop + 1 := by omega
      split
      · next hlonger =>
        conv_rhs => rw [hmerged]
        rw [covers_append, covers_singleton, covers_append, covers_singleton, or_assoc]
        refine or_congr_right ?_
        unfold Holds
        dsimp only
        constructor
        · intro hn
          by_cases hin : n ≤ last.stop
          · exact .inl ⟨hn.1, hin⟩
          · exact .inr ⟨by omega, hn.2⟩
        · rintro (hn | hn)
          · exact ⟨hn.1, by omega⟩
          · exact ⟨by omega, hn.2⟩
      · next hshorter =>
        constructor
        · exact .inl
        · rintro (hn | hn)
          · exact hn
          · refine ⟨last, List.mem_of_getLast? hlast, ?_⟩
            exact ⟨le_trans hstart hn.1, le_trans hn.2 (not_lt.1 hshorter)⟩

theorem startBy_mergeStep {merged : List Interval} {r : Interval} (h : StartBy merged r.start) :
    StartBy (mergeStep merged r) r.start := by
  have happend : StartBy (merged ++ [r]) r.start := by
    intro i hi
    rcases List.mem_append.1 hi with hi | hi
    · exact h i hi
    · rw [List.mem_singleton.1 hi]
  unfold mergeStep
  cases hlast : merged.getLast? with
  | none => exact happend
  | some last =>
    dsimp only
    split
    · exact happend
    · split
      · intro i hi
        rcases List.mem_append.1 hi with hi | hi
        · exact h i ((List.dropLast_sublist merged).subset hi)
        · rw [List.mem_singleton.1 hi]
          exact h last (List.mem_of_getLast? hlast)
      · exact h

/-- A run of the merge over sorted intervals. -/
theorem covers_foldl_mergeStep {rs : List Interval}
    (hsorted : rs.Pairwise fun a b => a.start ≤ b.start) :
    ∀ {merged : List Interval}, (∀ r ∈ rs, StartBy merged r.start) → ∀ n,
      (Covers (rs.foldl mergeStep merged) n ↔ Covers merged n ∨ Covers rs n) := by
  induction rs with
  | nil =>
    intro merged _ n
    simp [Covers]
  | cons r rs ih =>
    intro merged hstart n
    obtain ⟨hr, hrs⟩ := List.pairwise_cons.1 hsorted
    have hnow := startBy_mergeStep (hstart r List.mem_cons_self)
    have hlater : ∀ r' ∈ rs, StartBy (mergeStep merged r) r'.start := fun r' hr' i hi =>
      le_trans (hnow i hi) (hr r' hr')
    have hcons : Covers (r :: rs) n ↔ r.Holds n ∨ Covers rs n := by
      rw [← covers_singleton, ← covers_append]
      rfl
    rw [List.foldl_cons, ih hrs hlater n, covers_mergeStep (hstart r List.mem_cons_self), hcons,
      or_assoc]

/-- Merging changes nothing about which numbers are covered. -/
theorem covers_merge (is : List Interval) (n : Int) : Covers (merge is) n ↔ Covers is n := by
  have htotal : Std.Total fun a b : Interval => a.start ≤ b.start :=
    ⟨fun a b => le_total a.start b.start⟩
  have htrans : IsTrans Interval fun a b => a.start ≤ b.start := ⟨fun _ _ _ => le_trans⟩
  have hsorted : (is.insertionSort fun a b => a.start ≤ b.start).Pairwise
      fun a b => a.start ≤ b.start := List.pairwise_insertionSort ..
  have hperm : (is.insertionSort fun a b => a.start ≤ b.start).Perm is := List.perm_insertionSort ..
  unfold merge
  rw [covers_foldl_mergeStep hsorted (fun _ _ _ hi => absurd hi List.not_mem_nil) n]
  constructor
  · rintro (⟨i, hi, -⟩ | ⟨i, hi, hn⟩)
    · cases hi
    · exact ⟨i, hperm.mem_iff.1 hi, hn⟩
  · rintro ⟨i, hi, hn⟩
    exact .inr ⟨i, hperm.mem_iff.2 hi, hn⟩

/-- One set lies in another if each of its merged intervals lies in one of the other's. -/
theorem covered_of_merged {child parent : List Interval}
    (h : ∀ r ∈ merge child, ∃ a ∈ merge parent, a.start ≤ r.start ∧ r.stop ≤ a.stop) {n : Int}
    (hn : Covers child n) : Covers parent n := by
  obtain ⟨r, hr, hrn⟩ := (covers_merge child n).2 hn
  obtain ⟨a, ha, hstart, hstop⟩ := h r hr
  refine (covers_merge parent n).1 ⟨a, ha, ?_⟩
  exact ⟨le_trans hstart hrn.1, le_trans hrn.2 hstop⟩

end Interval

end JobDB
