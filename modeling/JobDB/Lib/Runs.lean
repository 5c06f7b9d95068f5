import JobDB.Lib.Tx

/-!
# Runs

A run works through a list of inputs, one step for each. `Along R is s s'`
says that the inputs `is` lead from `s` to `s'` by steps of `R`; it is the
common shape of a loop inside a transaction (`forM_along`) and of a history of
operations on a store (`foldl_along`).

The induction is stated once: `Along.invariant` for properties that may look
at the inputs still to come, `Along.preserves` for plain invariants, and
`Along.timed` for properties that hold at a clock reading and at every later
one, along inputs whose clock readings do not decrease.
-/

namespace JobDB

variable {ι σ τ ε : Type}

/-- The inputs lead from one state to another. -/
inductive Along (R : ι → σ → σ → Prop) : List ι → σ → σ → Prop where
  | nil {s : σ} : Along R [] s s
  | cons {i : ι} {is : List ι} {s s₁ s' : σ} (head : R i s s₁) (tail : Along R is s₁ s') :
      Along R (i :: is) s s'

namespace Along

variable {R : ι → σ → σ → Prop}

theorem invariant {P : List ι → σ → Prop}
    (step : ∀ {i is s s'}, R i s s' → P (i :: is) s → P is s') {is : List ι} {s s' : σ}
    (h : Along R is s s') (hs : P is s) : P [] s' := by
  induction h with
  | nil => exact hs
  | cons head _ ih => exact ih (step head hs)

theorem trans {is is' : List ι} {s₁ s₂ s₃ : σ} (h : Along R is s₁ s₂) (h' : Along R is' s₂ s₃) :
    Along R (is ++ is') s₁ s₃ := by
  induction h with
  | nil => exact h'
  | cons head _ ih => exact .cons head (ih h')

/-- What every step keeps, the run keeps. -/
theorem preserves {P : σ → Prop} {is : List ι} {s s' : σ} (h : Along R is s s')
    (step : ∀ i ∈ is, ∀ s s', R i s s' → P s → P s') (hs : P s) : P s' := by
  induction h with
  | nil => exact hs
  | cons head _ ih =>
    exact ih (fun i hi => step i (List.mem_cons_of_mem _ hi)) (step _ (by simp) _ _ head hs)

/-- A preorder every step moves along, the run moves along. -/
theorem within {Q : σ → σ → Prop} (hr : ∀ s, Q s s) (ht : ∀ s₁ s₂ s₃, Q s₁ s₂ → Q s₂ s₃ → Q s₁ s₃)
    {is : List ι} {s s' : σ} (h : Along R is s s') (step : ∀ i ∈ is, ∀ s s', R i s s' → Q s s') :
    Q s s' :=
  h.preserves (P := Q s) (fun i hi _ _ hR hs => ht _ _ _ hs (step i hi _ _ hR)) (hr s)

end Along

section Timed

variable {R : Int × ι → σ → σ → Prop} {P : Int → σ → Prop} {now : Int}
  (later : ∀ {t t' s}, t ≤ t' → P t s → P t' s)
  (step : ∀ {t i s s'}, R (t, i) s s' → P t s → P t s')

include later step

/-- The property is known at the latest clock reading so far. -/
theorem Along.timed_from {is : List (Int × ι)} {s s' : σ} (h : Along R is s s') :
    ∀ t, is.Pairwise (fun a b => a.1 ≤ b.1) → (∀ i ∈ is, t ≤ i.1 ∧ i.1 ≤ now) → t ≤ now →
      P t s → P now s' := by
  induction h with
  | nil => exact fun t _ _ ht hs => later ht hs
  | @cons i is s s₁ s' head _ ih =>
    intro t clock bound _ hs
    obtain ⟨t₁, op⟩ := i
    rw [List.pairwise_cons] at clock
    obtain ⟨hle, hnow⟩ := bound (t₁, op) (by simp)
    refine ih t₁ clock.2 (fun i hi => ⟨clock.1 i hi, ?_⟩) hnow (step head (later hle hs))
    exact (bound i (List.mem_cons_of_mem _ hi)).2

/-- **Timed invariant.** Along inputs whose clock readings do not decrease, a
property that survives the passing of time, is kept by each step at the step's
own clock reading and holds at the start at any time, holds at the end at any
time no earlier than the readings. -/
theorem Along.timed {is : List (Int × ι)} {s s' : σ} (h : Along R is s s')
    (clock : is.Pairwise fun a b => a.1 ≤ b.1) (bound : ∀ i ∈ is, i.1 ≤ now)
    (start : ∀ t, P t s) : P now s' := by
  cases is with
  | nil => exact h.timed_from (P := P) later step now clock (by simp) (Int.le_refl now) (start now)
  | cons i is =>
    have hfirst : ∀ j ∈ i :: is, i.1 ≤ j.1 := by
      rw [List.pairwise_cons] at clock
      simpa using clock.1
    exact h.timed_from (P := P) later step i.1 clock (fun j hj => ⟨hfirst j hj, bound j hj⟩)
      (bound i (by simp)) (start i.1)

end Timed

/-! ## Loops and histories -/

/-- A loop whose body has the effect `R` on the abstract state. -/
theorem forM_along {Inv : σ → Prop} {abs : σ → τ} {R : ι → τ → τ → Prop} {f : ι → Tx σ ε Unit}
    (body : ∀ i {s s'}, Inv s → f i s = .ok ((), s') → Inv s' ∧ R i (abs s) (abs s')) :
    ∀ {is : List ι} {s s' : σ}, Inv s → forM is f s = .ok ((), s') →
      Inv s' ∧ Along R is (abs s) (abs s')
  | [], _, _, hi, h => by
    obtain rfl := Tx.forM_nil_eq_ok.mp h
    exact ⟨hi, .nil⟩
  | i :: is, _, _, hi, h => by
    obtain ⟨s₁, h₁, h₂⟩ := Tx.forM_cons_eq_ok.mp h
    obtain ⟨hi₁, hR⟩ := body i hi h₁
    obtain ⟨hi', hrest⟩ := forM_along body hi₁ h₂
    exact ⟨hi', .cons hR hrest⟩

/-- A history of operations, each with the effect `R` on the abstract state. -/
theorem foldl_along {Inv : σ → Prop} {abs : σ → τ} {R : ι → τ → τ → Prop} {step : ι → σ → σ}
    (one : ∀ i s, Inv s → Inv (step i s) ∧ R i (abs s) (abs (step i s))) :
    ∀ (is : List ι) (s : σ), Inv s →
      Inv (is.foldl (fun s i => step i s) s) ∧
        Along R is (abs s) (abs (is.foldl (fun s i => step i s) s))
  | [], _, hi => ⟨hi, .nil⟩
  | i :: is, s, hi => by
    obtain ⟨hi₁, hR⟩ := one i s hi
    obtain ⟨hi', hrest⟩ := foldl_along one is (step i s) hi₁
    exact ⟨hi', .cons hR hrest⟩

end JobDB
