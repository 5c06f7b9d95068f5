import Mathlib.Logic.Basic

/-!
# Actions that stop

An action reads and writes a state and either returns a value or stops early
with a reason. Unlike a transaction, what it had written when it stopped stays
written: `Act σ ε α` is a function from the state to an answer *and* a state.

* `Act.get`, `Act.modify`, `Act.stop` are the primitive actions.
* `Act.Triple P x Q R`: started in `P`, `x` returns in `Q` or stops in `R`. The
  rules for sequencing and branching reduce a long action to its primitive
  writes; `Triple I x (fun _ => I) I` is an invariant.
-/

namespace JobDB

/-- An action over states `σ` that can stop with a reason `ε`. -/
def Act (σ ε α : Type) := σ → Except ε α × σ

namespace Act

variable {σ ε α β : Type}

/-- Run `f` on the value of `x`, unless `x` stopped. -/
def andThen (x : Act σ ε α) (f : α → Act σ ε β) : Act σ ε β := fun s =>
  match x s with
  | (.ok a, s') => f a s'
  | (.error e, s') => (.error e, s')

instance : Monad (Act σ ε) where
  pure a := fun s => (.ok a, s)
  bind := andThen

/-- Query the state. -/
def get : Act σ ε σ := fun s => (.ok s, s)

/-- Update the state. -/
def modify (f : σ → σ) : Act σ ε Unit := fun s => (.ok (), f s)

/-- Stop with the reason `e`. -/
def stop (e : ε) : Act σ ε α := fun s => (.error e, s)

/-! ## Running a composite action -/

theorem bind_apply (x : Act σ ε α) (f : α → Act σ ε β) (s : σ) :
    (x >>= f) s = match x s with
      | (.ok a, s') => f a s'
      | (.error e, s') => (.error e, s') := rfl

@[simp] theorem pure_apply (a : α) (s : σ) : (pure a : Act σ ε α) s = (.ok a, s) := rfl

@[simp] theorem get_apply (s : σ) : (get : Act σ ε σ) s = (.ok s, s) := rfl

@[simp] theorem modify_apply (f : σ → σ) (s : σ) :
    (modify f : Act σ ε Unit) s = (.ok (), f s) := rfl

@[simp] theorem stop_apply (e : ε) (s : σ) : (stop e : Act σ ε α) s = (.error e, s) := rfl

/-! ## Pre- and postconditions -/

/-- Started in `P`, `x` ends in `Q` with its value when it returns and in `R`
when it stops. -/
def Triple (P : σ → Prop) (x : Act σ ε α) (Q : α → σ → Prop) (R : σ → Prop) : Prop :=
  ∀ s, P s → match x s with
    | (.ok a, s') => Q a s'
    | (.error _, s') => R s'

section Triple

variable {P P' : σ → Prop} {Q Q' : α → σ → Prop} {S : β → σ → Prop} {R R' : σ → Prop}

theorem Triple.pure {a : α} (h : ∀ s, P s → Q a s) : Triple P (pure a : Act σ ε α) Q R := h

theorem Triple.modify {f : σ → σ} {Q : Unit → σ → Prop} (h : ∀ s, P s → Q () (f s)) :
    Triple P (modify f : Act σ ε Unit) Q R := h

theorem Triple.stop {e : ε} (h : ∀ s, P s → R s) : Triple P (stop e : Act σ ε α) Q R := h

theorem Triple.bind {x : Act σ ε α} {f : α → Act σ ε β} (hx : Triple P x Q R)
    (hf : ∀ a, Triple (Q a) (f a) S R) : Triple P (x >>= f) S R := by
  intro s hs
  have h := hx s hs
  rw [bind_apply]
  cases hxs : x s with
  | mk r s' =>
    rw [hxs] at h
    cases r with
    | ok a => exact hf a s' h
    | error e => exact h

theorem Triple.imp {x : Act σ ε α} (hx : Triple P x Q R) (hP : ∀ s, P' s → P s)
    (hQ : ∀ a s, Q a s → Q' a s) (hR : ∀ s, R s → R' s) : Triple P' x Q' R' := by
  intro s hs
  have h := hx s (hP s hs)
  cases hxs : x s with
  | mk r s' =>
    rw [hxs] at h
    cases r with
    | ok a => exact hQ a s' h
    | error e => exact hR s' h

theorem Triple.ite {p : Prop} [Decidable p] {x y : Act σ ε α} (hx : p → Triple P x Q R)
    (hy : ¬ p → Triple P y Q R) : Triple P (if p then x else y) Q R := by
  by_cases hp : p
  · rw [if_pos hp]
    exact hx hp
  · rw [if_neg hp]
    exact hy hp

/-- What holds of the state may depend on what was read from it. -/
theorem Triple.get_bind {f : σ → Act σ ε α} (hf : ∀ t, Triple (fun s => s = t ∧ P s) (f t) Q R) :
    Triple P (Act.get >>= f) Q R := fun s hs => hf s s ⟨rfl, hs⟩

theorem Triple.pre {x : Act σ ε α} (hx : Triple P x Q R) (hP : ∀ s, P' s → P s) :
    Triple P' x Q R := fun s hs => hx s (hP s hs)

theorem Triple.get_then {f : σ → Act σ ε α} (hf : ∀ t, Triple P (f t) Q R) :
    Triple P (Act.get >>= f) Q R := fun s hs => hf s s hs

theorem Triple.modify_then {f : σ → σ} {g : Unit → Act σ ε α} (hP : ∀ s, P s → P (f s))
    (hg : Triple P (g ()) Q R) : Triple P (Act.modify f >>= g) Q R := fun s hs => hg (f s) (hP s hs)

/-- The state after a run, whatever the answer. -/
theorem Triple.run {x : Act σ ε α} {I : σ → Prop} (h : Triple P x (fun _ => I) I) {s : σ}
    (hs : P s) : I (x s).2 := by
  have := h s hs
  cases hxs : x s with
  | mk r s' =>
    rw [hxs] at this
    cases r with
    | ok a => exact this
    | error e => exact this

end Triple

end Act

end JobDB
