import JobDB.Lib.Process

/-!
# Processes that are left alone

What a process comes to when no other one moves (`Proc.Solo`). The rules for calls follow both
outcomes of each step, since a call that fails may clean up behind itself (`Call.recover`).
-/

namespace JobDB

namespace Proc

variable {σ α β : Type}

/-- Left alone, the process ends with an answer and in a state that satisfy `Q`. -/
def Solo (Q : α → σ → Prop) (p : Proc σ α) (s : σ) : Prop := Q (p.alone s).1 (p.alone s).2

namespace Solo

variable {Q Q' : α → σ → Prop} {p : Proc σ α} {s : σ}

theorem answer (h : Solo Q p s) : Q (p.alone s).1 (p.alone s).2 := h

theorem of_alone (h : Q (p.alone s).1 (p.alone s).2) : Solo Q p s := h

theorem ret {a : α} (h : Q a s) : Solo Q (.ret a) s := h

theorem imp (h : Solo Q' p s) (hQ : ∀ a s, Q' a s → Q a s) : Solo Q p s := hQ _ _ h

end Solo

end Proc

namespace Call

variable {σ ε α β : Type}

/-- Go on with `f` where `x` fails. -/
def recover (x : Call σ ε α) (f : ε → Call σ ε α) : Call σ ε α :=
  Proc.bind x fun
    | .ok a => .ret (.ok a)
    | .error e => f e

theorem alone_recover (x : Call σ ε α) (f : ε → Call σ ε α) (s : σ) :
    Proc.alone (x.recover f) s =
      match Proc.alone x s with
      | (.ok a, s') => (.ok a, s')
      | (.error e, s') => Proc.alone (f e) s' := by
  unfold recover
  induction x generalizing s with
  | ret r => cases r <;> rfl
  | step upd next ih => exact ih s (upd s)

section Solo

variable {Q : Except ε α → σ → Prop} {R : Except ε β → σ → Prop} {s : σ} {m : Tx σ ε α}
  {x : Call σ ε α} {f : α → Call σ ε β}

theorem solo_check {r : Except ε α} (h : Q r s) : Proc.Solo Q (check r : Call σ ε α) s := h

theorem solo_pure {a : α} (h : Q (.ok a) s) : Proc.Solo Q (pure a : Call σ ε α) s := h

theorem solo_check_bind {r : Except ε α} (herr : ∀ e, r = .error e → R (.error e) s)
    (hok : ∀ a, r = .ok a → Proc.Solo R (f a) s) : Proc.Solo R (check r >>= f : Call σ ε β) s := by
  cases r with
  | ok a => exact hok a rfl
  | error e => exact herr e rfl

theorem solo_query_bind {q : σ → Except ε α} (herr : ∀ e, q s = .error e → R (.error e) s)
    (hok : ∀ a, q s = .ok a → Proc.Solo R (f a) s) :
    Proc.Solo R (query q >>= f : Call σ ε β) s := by
  show Proc.Solo R (bind (Proc.ret (q s)) f) s
  cases hq : q s with
  | ok a => exact hok a hq
  | error e => exact herr e hq

theorem solo_tx (herr : ∀ e, m s = .error e → Q (.error e) s)
    (hok : ∀ a s', m s = .ok (a, s') → Q (.ok a) s') : Proc.Solo Q (tx m) s := by
  show Q (Tx.commit m s).1 (Tx.commit m s).2
  unfold Tx.commit
  cases hm : m s with
  | ok r => exact hok r.1 r.2 hm
  | error e => exact herr e hm

theorem solo_bind (hx : Proc.Solo Q x s) (herr : ∀ e s', Q (.error e) s' → R (.error e) s')
    (hok : ∀ a s', Q (.ok a) s' → Proc.Solo R (f a) s') :
    Proc.Solo R (x >>= f : Call σ ε β) s := by
  unfold Proc.Solo at hx ⊢
  rw [alone_bind]
  generalize Proc.alone x s = outcome at hx ⊢
  obtain ⟨r, s'⟩ := outcome
  cases r with
  | ok a => exact hok a s' hx
  | error e => exact herr e s' hx

theorem solo_tx_bind (herr : ∀ e, m s = .error e → R (.error e) s)
    (hok : ∀ a s', m s = .ok (a, s') → Proc.Solo R (f a) s') :
    Proc.Solo R (tx m >>= f : Call σ ε β) s := by
  have htx : Proc.Solo
      (fun r s' => match r with
        | .ok a => Proc.Solo R (f a) s'
        | .error e => R (.error e) s') (tx m) s := solo_tx herr hok
  exact solo_bind htx (fun _ _ h => h) fun _ _ h => h

theorem solo_mapError {ε' : Type} {R : Except ε' α → σ → Prop} {g : ε → ε'} (hx : Proc.Solo Q x s)
    (h : ∀ r s', Q r s' → R (r.mapError g) s') : Proc.Solo R (x.mapError g) s := by
  induction x generalizing s with
  | ret r => exact h r s hx
  | step upd next ih => exact ih s hx

theorem solo_recover {P : Except ε α → σ → Prop} {f : ε → Call σ ε α} (hx : Proc.Solo P x s)
    (hok : ∀ a s', P (.ok a) s' → Q (.ok a) s')
    (herr : ∀ e s', P (.error e) s' → Proc.Solo Q (f e) s') : Proc.Solo Q (x.recover f) s := by
  unfold Proc.Solo at hx ⊢
  rw [alone_recover]
  generalize Proc.alone x s = outcome at hx ⊢
  obtain ⟨r, s'⟩ := outcome
  cases r with
  | ok a => exact hok a s' hx
  | error e => exact herr e s' hx

end Solo

end Call

end JobDB
