import JobDB.Lib.Tx
import Mathlib.Order.Defs.Unbundled

/-!
# Computations that write in place

A program without transactions writes as it goes: when it fails half way, what it has written is
there. `InPlace` is the state monad under `Except`, the other way round than `Tx`, so a run always
ends in a state.

* `Moves R m`: every run of `m`, one that fails included, moves the state along `R`. For a preorder
  `R` it is closed under sequencing.
* `Fails R m`: every run of `m` that fails does. `Ends R Q m` says moreover that the others move
  along `Q`. Of a sequence, only what comes before the last step that can fail has to move along `R`
  (`Ends.bind`, `Ends.bind_total`).
* `Refines view R m t`: moreover `m` does, on the part of the state that `view` shows, what the
  transaction `t` does. A run that fails gives the transaction's error; the transaction says
  nothing about what such a run leaves behind, which is what `R` is for.
-/

namespace JobDB

/-- A computation over states `σ` that writes in place and may fail with `ε`. -/
abbrev InPlace (σ ε α : Type) := ExceptT ε (StateM σ) α

namespace InPlace

variable {σ τ ε α β : Type}

/-- Run a computation: its result, and the state it leaves in either case. -/
def exec (m : InPlace σ ε α) (s : σ) : Except ε α × σ := m s

/-- Query the state. -/
def read (f : σ → Except ε α) : InPlace σ ε α := ExceptT.mk fun s => (f s, s)

/-- Update the state; an update that is refused leaves it as it is. -/
def write (f : σ → Except ε σ) : InPlace σ ε Unit := ExceptT.mk fun s =>
  match f s with
  | .ok s' => (.ok (), s')
  | .error e => (.error e, s)

/-- Fail with `e` unless `p` holds. -/
def require (e : ε) (p : Prop) [Decidable p] : InPlace σ ε Unit :=
  if p then pure () else throw e

/-- Clear up after a computation that has failed; its error stands. -/
def onError (m : InPlace σ ε α) (clear : σ → σ) : InPlace σ ε α := ExceptT.mk fun s =>
  match m.exec s with
  | (.ok a, s') => (.ok a, s')
  | (.error e, s') => (.error e, clear s')

/-! ## Running a sequence -/

variable {x m : InPlace σ ε α} {f : α → InPlace σ ε β} {s s' : σ} {e : ε} {clear : σ → σ}

theorem exec_bind_ok {a : α} (h : x.exec s = (.ok a, s')) : (x >>= f).exec s = (f a).exec s' := by
  have hx : x s = (.ok a, s') := h
  show (ExceptT.bindCont f (x s).1 : StateM σ (Except ε β)) (x s).2 = f a s'
  rw [hx]
  rfl

theorem exec_bind_error (h : x.exec s = (.error e, s')) : (x >>= f).exec s = (.error e, s') := by
  have hx : x s = (.error e, s') := h
  show (ExceptT.bindCont f (x s).1 : StateM σ (Except ε β)) (x s).2 = (.error e, s')
  rw [hx]
  rfl

theorem exec_write_ok {f : σ → Except ε σ} (h : f s = .ok s') :
    (write f).exec s = (.ok (), s') := by
  unfold exec write ExceptT.mk
  dsimp only
  rw [h]

theorem exec_write_error {f : σ → Except ε σ} (h : f s = .error e) :
    (write f).exec s = (.error e, s) := by
  unfold exec write ExceptT.mk
  dsimp only
  rw [h]

theorem exec_onError_ok {a : α} (h : m.exec s = (.ok a, s')) :
    (m.onError clear).exec s = (.ok a, s') := by
  unfold exec onError ExceptT.mk
  dsimp only
  rw [h]

theorem exec_onError_error (h : m.exec s = (.error e, s')) :
    (m.onError clear).exec s = (.error e, clear s') := by
  unfold exec onError ExceptT.mk
  dsimp only
  rw [h]

/-! ## What every run keeps -/

/-- Every run of `m`, failed or not, moves the state along `R`. -/
def Moves (R : σ → σ → Prop) (m : InPlace σ ε α) : Prop := ∀ s, R s (m.exec s).2

section Moves

variable {R : σ → σ → Prop} [IsPreorder σ R]

theorem Moves.pure (a : α) : Moves R (pure a : InPlace σ ε α) := fun s => refl_of R s

theorem Moves.read (f : σ → Except ε α) : Moves R (read f) := fun s => refl_of R s

theorem Moves.write {f : σ → Except ε σ} (hf : ∀ s s', f s = .ok s' → R s s') :
    Moves R (write f) := by
  intro s
  cases h : f s with
  | ok s' =>
    rw [exec_write_ok h]
    exact hf s s' h
  | error e =>
    rw [exec_write_error h]
    exact refl_of R s

theorem Moves.require (e : ε) (p : Prop) [Decidable p] :
    Moves R (require e p : InPlace σ ε Unit) := by
  intro s
  unfold InPlace.require
  split
  · exact refl_of R s
  · exact refl_of R s

theorem Moves.bind (hx : Moves R x) (hf : ∀ a, Moves R (f a)) : Moves R (x >>= f) := by
  intro s
  have hs := hx s
  rcases h : x.exec s with ⟨r, s'⟩
  rw [h] at hs
  cases r with
  | ok a =>
    rw [exec_bind_ok h]
    exact trans_of R hs (hf a s')
  | error e =>
    rw [exec_bind_error h]
    exact hs

end Moves

/-- Every run of `m` that fails moves the state along `R`. -/
def Fails (R : σ → σ → Prop) (m : InPlace σ ε α) : Prop :=
  ∀ ⦃s e s'⦄, m.exec s = (.error e, s') → R s s'

/-- How a run that ends with that result moves the state. -/
def Outcome (R Q : σ → σ → Prop) : Except ε α → σ → σ → Prop
  | .ok _ => Q
  | .error _ => R

/-- Every run of `m` that fails moves the state along `R`, and every other one along `Q`. -/
def Ends (R Q : σ → σ → Prop) (m : InPlace σ ε α) : Prop :=
  ∀ s, Outcome R Q (m.exec s).1 s (m.exec s).2

section Ends

variable {R Q : σ → σ → Prop}

theorem Ends.fails (h : Ends R Q m) : Fails R m := by
  intro s e s' hs
  have hm := h s
  rw [hs] at hm
  exact hm

theorem Ends.moves (hq : ∀ s s', R s s' → Q s s') (h : Ends R Q m) : Moves Q m := by
  intro s
  have hs := h s
  cases hr : (m.exec s).1 with
  | ok a =>
    rw [hr] at hs
    exact hs
  | error e =>
    rw [hr] at hs
    exact hq _ _ hs

variable [IsTrans σ Q]

theorem Ends.bind [IsTrans σ R] (hq : ∀ s s', R s s' → Q s s') (hx : Moves R x)
    (hf : ∀ a, Ends R Q (f a)) : Ends R Q (x >>= f) := by
  intro s
  have hm := hx s
  rcases h : x.exec s with ⟨r, s₁⟩
  rw [h] at hm
  cases r with
  | ok a =>
    rw [exec_bind_ok h]
    have ha := hf a s₁
    cases hr : ((f a).exec s₁).1 with
    | ok b =>
      rw [hr] at ha
      exact trans_of Q (hq _ _ hm) ha
    | error e =>
      rw [hr] at ha
      exact trans_of R hm ha
  | error e =>
    rw [exec_bind_error h]
    exact hm

/-- What follows a computation and never fails has to move along `Q` only. -/
theorem Ends.bind_total (hx : Ends R Q x)
    (hf : ∀ a s, ∃ b s', (f a).exec s = (.ok b, s') ∧ Q s s') : Ends R Q (x >>= f) := by
  intro s
  have hs := hx s
  rcases h : x.exec s with ⟨r, s₁⟩
  rw [h] at hs
  cases r with
  | ok a =>
    obtain ⟨b, s', hb, hlast⟩ := hf a s₁
    rw [exec_bind_ok h, hb]
    exact trans_of Q hs hlast
  | error e =>
    rw [exec_bind_error h]
    exact hs

end Ends

/-! ## Agreeing with a transaction -/

/-- Every run of `m` moves along `R`, and ends as the transaction `t` does on what `view` shows. -/
structure Refines (view : σ → τ) (R : σ → σ → Prop) (m : InPlace σ ε α) (t : Tx τ ε α) : Prop where
  moves : Moves R m
  result : ∀ s, t (view s) = (m.exec s).1.map fun a => (a, view (m.exec s).2)

section Refines

variable {view : σ → τ} {R : σ → σ → Prop}

/-- A choice that depends on the arguments only. -/
theorem Refines.ite (p : Prop) [Decidable p] {y : InPlace σ ε α} {t u : Tx τ ε α}
    (hx : Refines view R x t) (hy : Refines view R y u) :
    Refines view R (if p then x else y) (if p then t else u) := by
  split
  · exact hx
  · exact hy

variable [IsPreorder σ R]

theorem Refines.pure (a : α) : Refines view R (pure a : InPlace σ ε α) (pure a) where
  moves := .pure a
  result _ := rfl

theorem Refines.read {f : σ → Except ε α} {g : τ → Except ε α}
    (h : ∀ s, f s = g (view s)) : Refines view R (read f) (Tx.read g) where
  moves := .read f
  result s := by
    show (g (view s)).map _ = (f s).map _
    rw [h s]
    rfl

theorem Refines.require (e : ε) (p : Prop) [Decidable p] :
    Refines view R (require e p) (Tx.require e p) where
  moves := .require e p
  result s := by
    unfold InPlace.require Tx.require
    split
    · rfl
    · rfl

theorem Refines.write {f : σ → Except ε σ} {g : τ → Except ε τ}
    (hf : ∀ s s', f s = .ok s' → R s s') (h : ∀ s, g (view s) = (f s).map view) :
    Refines view R (write f) (Tx.write g) where
  moves := .write hf
  result s := by
    show (g (view s)).map _ = _
    rw [h s]
    cases hs : f s with
    | ok s' =>
      rw [exec_write_ok hs]
      rfl
    | error e =>
      rw [exec_write_error hs]
      rfl

theorem Refines.bind {t : Tx τ ε α} {g : α → Tx τ ε β} (hx : Refines view R x t)
    (hf : ∀ a, Refines view R (f a) (g a)) : Refines view R (x >>= f) (t >>= g) where
  moves := .bind hx.moves fun a => (hf a).moves
  result s := by
    show Except.bind (t (view s)) (fun p => g p.1 p.2) = _
    rw [hx.result s]
    rcases h : x.exec s with ⟨r, s'⟩
    cases r with
    | ok a =>
      rw [exec_bind_ok h]
      exact (hf a).result s'
    | error e =>
      rw [exec_bind_error h]
      rfl

theorem Refines.forM {f : α → InPlace σ ε Unit} {g : α → Tx τ ε Unit}
    (h : ∀ a, Refines view R (f a) (g a)) (xs : List α) :
    Refines view R (forM xs f) (forM xs g) := by
  induction xs with
  | nil => exact .pure ()
  | cons x xs ih =>
    rw [List.forM_cons, List.forM_cons]
    exact .bind (h x) fun _ => ih

theorem Refines.mapM {g : α → Tx τ ε β} (h : ∀ a, Refines view R (f a) (g a)) (xs : List α) :
    Refines view R (xs.mapM f) (xs.mapM g) := by
  induction xs with
  | nil =>
    rw [List.mapM_nil, List.mapM_nil]
    exact .pure _
  | cons x xs ih =>
    rw [List.mapM_cons, List.mapM_cons]
    exact .bind (h x) fun _ => .bind ih fun _ => .pure _

end Refines

end InPlace

end JobDB
