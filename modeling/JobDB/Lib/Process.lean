import JobDB.Lib.Runs
import Mathlib.Data.List.Basic

/-!
# Concurrent processes

A process works on a shared state in atomic steps, and between two of its steps
any other process may move. `Proc` is the tree of such a process: it returns,
or it makes one step and goes on according to the state it found. A process
that is never scheduled again models a crash, so no step is needed for that.

* `Proc.Sat I R G Q p s`: started in `s` among processes that move along `R`
  and keep `I`, every step of `p` keeps `I` and moves along `G`, and an answer
  of `p` satisfies `Q`. `Sat.bind` composes it.
* `Call` adds early exit with an error; a transaction is one step of it.
  `Ensures` is `Sat` with a condition on success, `Keeps` is `Sat` without any
  condition on the answer.
* `System` is a set of calls, each with its process, that may start at any
  time and interleave in any way, in an environment that moves by itself (the
  clock). `System.Sound` collects what has to be shown of the single call;
  `Sound.run` is the conclusion for every run.
-/

namespace JobDB

/-- A process over the shared state `σ` that answers with an `α`. -/
inductive Proc (σ α : Type) : Type where
  | ret (a : α)
  | step (upd : σ → σ) (next : σ → Proc σ α)

namespace Proc

variable {σ α β : Type}

def bind : Proc σ α → (α → Proc σ β) → Proc σ β
  | .ret a, f => f a
  | .step upd next, f => .step upd fun s => (next s).bind f

instance : Monad (Proc σ) where
  pure := ret
  bind := bind

/-- The process has not ended. -/
def running : Proc σ α → Bool
  | .ret _ => false
  | .step _ _ => true

/-- One atomic step with its answer. -/
def atomic (f : σ → α × σ) : Proc σ α := .step (fun s => (f s).2) fun s => .ret (f s).1

/-- The answer and the state when no other process moves. -/
def alone : Proc σ α → σ → α × σ
  | .ret a, s => (a, s)
  | .step upd next, s => (next s).alone (upd s)

/-! ## Rely and guarantee -/

/-- What a process does among others, see the module's introduction. -/
inductive Sat (I : σ → Prop) (R G : σ → σ → Prop) (Q : α → σ → Prop) : Proc σ α → σ → Prop where
  | ret {a : α} {s : σ} (post : Q a s) : Sat I R G Q (.ret a) s
  | step {upd : σ → σ} {next : σ → Proc σ α} {s : σ}
      (own : ∀ s', I s' → R s s' → I (upd s') ∧ G s' (upd s'))
      (rest : ∀ s', I s' → R s s' → Sat I R G Q (next s') (upd s')) :
      Sat I R G Q (.step upd next) s

namespace Sat

variable {I : σ → Prop} {R G : σ → σ → Prop} {Q Q' : α → σ → Prop} {p : Proc σ α} {s : σ}

theorem mono {G' : σ → σ → Prop} (h : Sat I R G' Q' p s) (hG : ∀ s s', G' s s' → G s s')
    (hQ : ∀ a s, Q' a s → Q a s) : Sat I R G Q p s := by
  induction h with
  | ret post => exact .ret (hQ _ _ post)
  | step own _ ih =>
    exact .step (fun s₁ hi hr => ⟨(own s₁ hi hr).1, hG _ _ (own s₁ hi hr).2⟩) ih

theorem imp (h : Sat I R G Q' p s) (hQ : ∀ a s, Q' a s → Q a s) : Sat I R G Q p s :=
  h.mono (fun _ _ hg => hg) hQ

/-- Where nothing is demanded of a process. -/
theorem any (hG : ∀ s s', G s s') (p : Proc σ α) :
    ∀ s, Sat (fun _ => True) R G (fun _ _ => True) p s := by
  induction p with
  | ret a => exact fun s => .ret trivial
  | step upd next ih =>
    exact fun s => .step (fun s₁ _ _ => ⟨trivial, hG _ _⟩) fun s₁ _ _ => ih s₁ _

theorem bind {f : α → Proc σ β} {Q : β → σ → Prop} (h : Sat I R G Q' p s)
    (hf : ∀ a s, Q' a s → Sat I R G Q (f a) s) : Sat I R G Q (p >>= f) s := by
  induction h with
  | ret post => exact hf _ _ post
  | step own _ ih => exact .step own ih

/-- One step that the rely condition cannot spoil. -/
theorem atomic {f : σ → α × σ}
    (h : ∀ s', I s' → R s s' → I (f s').2 ∧ G s' (f s').2 ∧ Q (f s').1 (f s').2) :
    Sat I R G Q (Proc.atomic f) s :=
  .step (fun s' hi hr => ⟨(h s' hi hr).1, (h s' hi hr).2.1⟩) fun s' hi hr => .ret (h s' hi hr).2.2

variable {R' : σ → σ → Prop}

/-- A second invariant that the guarantee keeps. -/
theorem strengthen {J : σ → Prop} (h : Sat I R G Q p s) (hJ : ∀ s s', I s → J s → G s s' → J s')
    (hR : ∀ s s', R' s s' → R s s') : Sat (fun s => I s ∧ J s) R' G Q p s := by
  induction h with
  | ret post => exact .ret post
  | step own _ ih =>
    refine .step (fun s₁ hi hr => ?_) fun s₁ hi hr => ih s₁ hi.1 (hR _ _ hr)
    obtain ⟨hi₁, hg⟩ := own s₁ hi.1 (hR _ _ hr)
    exact ⟨⟨hi₁, hJ _ _ hi.1 hi.2 hg⟩, hg⟩

/-- A second guarantee, shown under weaker assumptions on the others. -/
theorem and {I' : σ → Prop} {G' : σ → σ → Prop} (h : Sat I R G Q p s) (h' : Sat I' R' G' Q' p s)
    (hI : ∀ s, I s → I' s) (hR : ∀ s s', R s s' → R' s s') :
    Sat I R (fun s s' => G s s' ∧ G' s s') (fun a s => Q a s ∧ Q' a s) p s := by
  induction h with
  | ret post =>
    cases h' with
    | ret post' => exact .ret ⟨post, post'⟩
  | step own _ ih =>
    cases h' with
    | step own' rest' =>
      refine .step (fun s₁ hi hr => ?_) fun s₁ hi hr => ih s₁ hi hr (rest' s₁ (hI _ hi) (hR _ _ hr))
      exact ⟨(own s₁ hi hr).1, (own s₁ hi hr).2, (own' s₁ (hI _ hi) (hR _ _ hr)).2⟩

/-- A process that is left alone. -/
theorem alone (h : Sat I R G Q p s) (hr : ∀ s, R s s) (hi : I s) :
    I (p.alone s).2 ∧ Q (p.alone s).1 (p.alone s).2 := by
  induction h with
  | ret post => exact ⟨hi, post⟩
  | @step upd next s own _ ih => exact ih s hi (hr s) (own s hi (hr s)).1

/-- Fewer moves of the others. -/
theorem narrow (h : Sat I R G Q p s) (hR : ∀ s s', R' s s' → R s s') : Sat I R' G Q p s := by
  induction h with
  | ret post => exact .ret post
  | step own _ ih =>
    exact .step (fun s₁ hi hr => own s₁ hi (hR _ _ hr)) fun s₁ hi hr => ih s₁ hi (hR _ _ hr)

/-- The others may move before the next step. -/
theorem rely (ht : ∀ s₁ s₂ s₃, R s₁ s₂ → R s₂ s₃ → R s₁ s₃)
    (hQ : ∀ a s s', I s' → Q a s → R s s' → Q a s') (h : Sat I R G Q p s) {s' : σ} (hi : I s')
    (hr : R s s') : Sat I R G Q p s' := by
  cases h with
  | ret post => exact .ret (hQ _ _ _ hi post hr)
  | step own rest =>
    exact .step (fun t hit hrt => own t hit (ht _ _ _ hr hrt))
      fun t hit hrt => rest t hit (ht _ _ _ hr hrt)

/-- Where nothing is known of the others and nothing is asked of the answer, the state the
process is in does not matter. -/
theorem anywhere (h : Sat I (fun _ _ => True) G (fun _ _ => True) p s) (s' : σ) :
    Sat I (fun _ _ => True) G (fun _ _ => True) p s' := by
  cases h with
  | ret => exact .ret trivial
  | step own rest => exact .step (fun t hi _ => own t hi trivial) fun t hi _ => rest t hi trivial

end Sat

end Proc

/-! ## Calls -/

/-- A process that may stop with an error. -/
def Call (σ ε α : Type) := Proc σ (Except ε α)

namespace Call

variable {σ ε α β : Type}

def bind (x : Call σ ε α) (f : α → Call σ ε β) : Call σ ε β :=
  Proc.bind x fun
    | .ok a => f a
    | .error e => .ret (.error e)

instance : Monad (Call σ ε) where
  pure a := Proc.ret (.ok a)
  bind := bind

/-- A transaction: one step, committed or rolled back. -/
def tx (m : Tx σ ε α) : Call σ ε α := Proc.atomic (Tx.commit m)

/-- A query: one step that changes nothing. -/
def query (f : σ → Except ε α) : Call σ ε α := Proc.atomic fun s => (f s, s)

/-- A check that looks at no shared state. -/
def check (r : Except ε α) : Call σ ε α := Proc.ret r

/-- The error in another form. -/
def mapError {ε' : Type} (f : ε → ε') (x : Call σ ε α) : Call σ ε' α :=
  Proc.bind x fun r => .ret (r.mapError f)

/-! ### A call that is left alone -/

theorem alone_bind (x : Call σ ε α) (f : α → Call σ ε β) (s : σ) :
    Proc.alone (x >>= f : Call σ ε β) s =
      match Proc.alone x s with
      | (.ok a, s') => Proc.alone (f a) s'
      | (.error e, s') => (.error e, s') := by
  show Proc.alone (bind x f) s = _
  unfold bind
  induction x generalizing s with
  | ret r => cases r <;> rfl
  | step upd next ih => exact ih s (upd s)

variable {f : α → Call σ ε β} {r : Except ε α} {s : σ} {a : α} {m : Tx σ ε α}

theorem alone_check_bind (h : r = .ok a) :
    Proc.alone (check r >>= f : Call σ ε β) s = Proc.alone (f a) s := by
  subst h
  rfl

theorem alone_query_bind {q : σ → Except ε α} (h : q s = .ok a) :
    Proc.alone (query q >>= f : Call σ ε β) s = Proc.alone (f a) s := by
  show Proc.alone (bind (Proc.ret (q s)) f) s = _
  rw [h]
  rfl

theorem alone_tx_bind {s' : σ} (h : m s = .ok (a, s')) :
    Proc.alone (tx m >>= f : Call σ ε β) s = Proc.alone (f a) s' := by
  show Proc.alone (bind (Proc.ret (Tx.commit m s).1) f) (Tx.commit m s).2 = _
  have hc : Tx.commit m s = (.ok a, s') := by
    unfold Tx.commit
    rw [h]
  rw [hc]
  rfl

theorem alone_tx_bind_error {e : ε} (h : m s = .error e) :
    Proc.alone (tx m >>= f : Call σ ε β) s = (.error e, s) := by
  show Proc.alone (bind (Proc.ret (Tx.commit m s).1) f) (Tx.commit m s).2 = _
  have hc : Tx.commit m s = (.error e, s) := by
    unfold Tx.commit
    rw [h]
  rw [hc]
  rfl

/-! ### Rules for calls -/

/-- `Proc.Sat` of a call, with a condition on its successful answers. -/
def Ensures (I : σ → Prop) (R G : σ → σ → Prop) (Q : α → σ → Prop) (x : Call σ ε α) (s : σ) :
    Prop := Proc.Sat I R G (fun r s => ∀ a, r = .ok a → Q a s) x s

namespace Ensures

variable {I : σ → Prop} {R G : σ → σ → Prop} {Q Q' : α → σ → Prop} {s : σ}

variable {x : Call σ ε α}

theorem imp (h : Ensures I R G Q' x s) (hQ : ∀ a s, Q' a s → Q a s) : Ensures I R G Q x s :=
  Proc.Sat.imp h fun _ s hr a ha => hQ a s (hr a ha)

theorem bind {Q : β → σ → Prop} (hx : Ensures I R G Q' x s)
    (hf : ∀ a s, Q' a s → Ensures I R G Q (f a) s) : Ensures I R G Q (x >>= f) s := by
  refine Proc.Sat.bind hx fun r s hr => ?_
  cases r with
  | ok a => exact hf a s (hr a rfl)
  | error e => exact .ret fun a ha => nomatch ha

/-- A transaction that commits moves along `G`; one that fails does nothing. -/
theorem tx (hG : ∀ s, G s s)
    (hm : ∀ s₁ a s₂, I s₁ → R s s₁ → m s₁ = .ok (a, s₂) → I s₂ ∧ G s₁ s₂ ∧ Q a s₂) :
    Ensures I R G Q (tx m) s := by
  refine Proc.Sat.atomic fun s₁ hi hr => ?_
  unfold Tx.commit
  cases h : m s₁ with
  | ok p =>
    obtain ⟨a, s₂⟩ := p
    obtain ⟨hi₂, hg, hq⟩ := hm s₁ a s₂ hi hr h
    refine ⟨hi₂, hg, fun b hb => ?_⟩
    cases hb
    exact hq
  | error e => exact ⟨hi, hG s₁, fun b hb => nomatch hb⟩

theorem query {f : σ → Except ε α} (hG : ∀ s, G s s)
    (hQ : ∀ s₁ a, I s₁ → R s s₁ → f s₁ = .ok a → Q a s₁) : Ensures I R G Q (query f) s :=
  Proc.Sat.atomic fun s₁ hi hr => ⟨hi, hG s₁, fun a ha => hQ s₁ a hi hr ha⟩

theorem check (h : ∀ a, r = .ok a → Q a s) : Ensures I R G Q (check r) s :=
  Proc.Sat.ret h

theorem pure (h : Q a s) : Ensures I R G Q (pure a : Call σ ε α) s :=
  Proc.Sat.ret fun b hb => by cases hb; exact h

theorem mapError {ε' : Type} {f : ε → ε'} (h : Ensures I R G Q x s) :
    Ensures I R G Q (x.mapError f) s := by
  refine Proc.Sat.bind h fun r s hr => .ret fun a ha => ?_
  cases r with
  | ok b =>
    cases ha
    exact hr _ rfl
  | error e => cases ha

theorem check_bind {Q : β → σ → Prop} (h : ∀ a, r = .ok a → Ensures I R G Q (f a) s) :
    Ensures I R G Q (Call.check r >>= f) s := by
  cases r with
  | ok a => exact h a rfl
  | error e => exact Proc.Sat.ret fun b hb => nomatch hb

theorem query_bind {f : σ → Except ε α} {g : α → Call σ ε β} {Q : β → σ → Prop} (hG : ∀ s, G s s)
    (h : ∀ s₁ a, I s₁ → R s s₁ → f s₁ = .ok a → Ensures I R G Q (g a) s₁) :
    Ensures I R G Q (Call.query f >>= g) s := by
  have hf : Ensures I R G (fun a s₁ => I s₁ ∧ R s s₁ ∧ f s₁ = .ok a) (Call.query f) s :=
    Ensures.query hG fun s₁ a hi hr ha => ⟨hi, hr, ha⟩
  exact hf.bind fun a s₁ ⟨hi, hr, ha⟩ => h s₁ a hi hr ha

theorem tx_bind {g : α → Call σ ε β} {Q : β → σ → Prop} (hG : ∀ s, G s s)
    (h : ∀ s₁ a s₂, I s₁ → R s s₁ → m s₁ = .ok (a, s₂) → I s₂ ∧ G s₁ s₂ ∧ Ensures I R G Q (g a) s₂)
    :
    Ensures I R G Q (Call.tx m >>= g) s := by
  have hm : Ensures I R G (fun a s₂ => Ensures I R G Q (g a) s₂) (Call.tx m) s := Ensures.tx hG h
  exact hm.bind fun a s₂ hg => hg

/-- What neither the call nor the others can spoil still holds at its end. -/
theorem frame {F : σ → Prop} (h : Ensures I R G Q x s) (hF : F s)
    (hR : ∀ s s', I s' → F s → R s s' → F s') (hG : ∀ s s', I s → F s → G s s' → F s') :
    Ensures I R G (fun a s => Q a s ∧ F s) x s := by
  unfold Ensures at h ⊢
  induction h with
  | ret post => exact .ret fun a ha => ⟨post a ha, hF⟩
  | step own _ ih =>
    refine .step own fun s' hi hr => ih s' hi hr ?_
    exact hG _ _ hi (hR _ _ hi hF hr) (own s' hi hr).2

end Ensures

/-- From every state with `I`, every step of the call keeps `I` and moves along
`G`, whatever the others do. -/
def Keeps (I : σ → Prop) (R G : σ → σ → Prop) (x : Call σ ε α) : Prop :=
  ∀ s, x.Ensures I R G (fun _ _ => True) s

namespace Keeps

variable {I : σ → Prop} {R G : σ → σ → Prop}

theorem bind {x : Call σ ε α} (hx : Keeps I R G x) (hf : ∀ a, Keeps I R G (f a)) :
    Keeps I R G (x >>= f) := fun s =>
  Ensures.bind (hx s) fun a s _ => hf a s

theorem tx (hG : ∀ s, G s s) (hm : ∀ s a s', I s → m s = .ok (a, s') → I s' ∧ G s s') :
    Keeps I R G (tx m) := fun _ =>
  Ensures.tx hG fun s₁ a s₂ hi _ h => ⟨(hm s₁ a s₂ hi h).1, (hm s₁ a s₂ hi h).2, trivial⟩

theorem query (hG : ∀ s, G s s) (f : σ → Except ε α) : Keeps I R G (query f) := fun _ =>
  Ensures.query hG fun _ _ _ _ _ => trivial

theorem check (r : Except ε α) : Keeps I R G (check r : Call σ ε α) := fun _ =>
  Ensures.check fun _ _ => trivial

theorem pure (a : α) : Keeps I R G (pure a : Call σ ε α) := fun _ => Ensures.pure trivial

end Keeps

/-- A property that every call has which is built from queries, checks and calls that have it. -/
structure Closed (P : ∀ α : Type, Call σ ε α → Prop) : Prop where
  pure : ∀ {α : Type} (a : α), P α (pure a)
  check : ∀ {α : Type} (r : Except ε α), P α (check r)
  query : ∀ {α : Type} (f : σ → Except ε α), P α (query f)
  bind : ∀ {α β : Type} {x : Call σ ε α} {f : α → Call σ ε β}, P α x → (∀ a, P β (f a)) →
    P β (x >>= f)

theorem Keeps.closed {I : σ → Prop} {R G : σ → σ → Prop} (hG : ∀ s, G s s) :
    Closed fun _ (x : Call σ ε _) => x.Keeps I R G := ⟨pure, check, query hG, bind⟩

end Call

/-! ## Systems -/

/-- Calls `κ` with their processes. The number a call is started with tells it
from all others. -/
structure System (σ κ ρ : Type) where
  body : Nat → κ → Proc σ ρ
  allowed : σ → κ → Prop
  env : σ → σ → Prop

/-- The shared state and all calls made so far, finished ones included. -/
structure Pool (σ κ ρ : Type) where
  shared : σ
  threads : List (κ × Proc σ ρ)

/-- Call `i` was made with `c` and has ended with the answer. -/
def Pool.Answered {σ κ ρ : Type} (p : Pool σ κ ρ) (i : Nat) (c : κ) (answer : ρ) : Prop :=
  p.threads[i]? = some (c, .ret answer)

section Threads

variable {τ : Type} {ts : List τ} {t t' : τ} {i j : Nat}

/-- One of the threads after a call was made. -/
theorem of_getElem?_concat (h : (ts ++ [t])[i]? = some t') :
    ts[i]? = some t' ∨ i = ts.length ∧ t' = t := by
  rcases Nat.lt_or_ge i ts.length with hi | hi
  · rw [List.getElem?_append_left hi] at h
    exact .inl h
  · rw [List.getElem?_append_right hi, List.getElem?_singleton] at h
    split at h
    · exact .inr ⟨by omega, (Option.some.inj h).symm⟩
    · cases h

/-- One of the threads after thread `i` made a step. -/
theorem of_getElem?_set (h : (ts.set i t)[j]? = some t') :
    i = j ∧ t' = t ∨ i ≠ j ∧ ts[j]? = some t' := by
  by_cases hij : i = j
  · subst hij
    rw [List.getElem?_set_self (List.length_set ▸ (List.getElem?_eq_some_iff.1 h).1)] at h
    exact .inl ⟨rfl, (Option.some.inj h).symm⟩
  · rw [List.getElem?_set_ne hij] at h
    exact .inr ⟨hij, h⟩

end Threads

namespace System

variable {σ κ ρ : Type} (M : System σ κ ρ)

/-- Who moves: a new call starts, call `i` makes a step, or the environment. -/
inductive Label (κ : Type) where
  | call (c : κ)
  | run (i : Nat) (c : κ)
  | env

inductive Step : Label κ → Pool σ κ ρ → Pool σ κ ρ → Prop where
  | call {p : Pool σ κ ρ} {c : κ} (allowed : M.allowed p.shared c) :
      Step (.call c) p ⟨p.shared, p.threads ++ [(c, M.body p.threads.length c)]⟩
  | run {p : Pool σ κ ρ} {i : Nat} {c : κ} {upd : σ → σ} {next : σ → Proc σ ρ}
      (thread : p.threads[i]? = some (c, .step upd next)) :
      Step (.run i c) p ⟨upd p.shared, p.threads.set i (c, next p.shared)⟩
  | env {p : Pool σ κ ρ} {s : σ} (moves : M.env p.shared s) : Step .env p ⟨s, p.threads⟩

/-- What has to be shown of each call: its steps keep `I` and move along `G`,
its answer satisfies `Q`, whatever the others do along `R`. -/
structure Sound (I : σ → Prop) (R : σ → σ → Prop) (G : Nat → κ → σ → σ → Prop)
    (Q : Nat → κ → ρ → σ → Prop) : Prop where
  refl : ∀ s, R s s
  trans : ∀ s₁ s₂ s₃, R s₁ s₂ → R s₂ s₃ → R s₁ s₃
  env : ∀ s s', I s → M.env s s' → I s' ∧ R s s'
  guar : ∀ i c s s', I s → G i c s s' → R s s'
  stable : ∀ i c r s s', I s' → Q i c r s → R s s' → Q i c r s'
  body : ∀ i c s, I s → M.allowed s c → (M.body i c).Sat I R (G i c) (Q i c) s

/-- A pool in order: the invariant holds and every call is still on its way to
a good answer. -/
structure Ok (I : σ → Prop) (R : σ → σ → Prop) (G : Nat → κ → σ → σ → Prop)
    (Q : Nat → κ → ρ → σ → Prop) (p : Pool σ κ ρ) : Prop where
  inv : I p.shared
  threads : ∀ i c (q : Proc σ ρ), p.threads[i]? = some (c, q) →
    q.Sat I R (G i c) (Q i c) p.shared

variable {M} {I : σ → Prop} {R : σ → σ → Prop} {G : Nat → κ → σ → σ → Prop}
  {Q : Nat → κ → ρ → σ → Prop}

theorem Ok.start {s : σ} (h : I s) : Ok I R G Q (⟨s, []⟩ : Pool σ κ ρ) :=
  ⟨h, by simp⟩

variable {p p' : Pool σ κ ρ} {i : Nat} {c : κ}

/-- **One step of a system.** -/
theorem Sound.step (hM : M.Sound I R G Q) {l : Label κ} (h : M.Step l p p') (hp : Ok I R G Q p) :
    Ok I R G Q p' ∧ R p.shared p'.shared ∧ ∀ i c, l = .run i c → G i c p.shared p'.shared := by
  cases h with
  | call allowed =>
    refine ⟨⟨hp.inv, fun i c q hq => ?_⟩, hM.refl _, by simp⟩
    rcases of_getElem?_concat hq with hold | ⟨rfl, heq⟩
    · exact hp.threads i c q hold
    · obtain ⟨rfl, rfl⟩ := Prod.mk.inj heq
      exact hM.body _ _ _ hp.inv allowed
  | run thread =>
    rename_i i c upd next
    cases hp.threads i c _ thread with
    | step own rest =>
      obtain ⟨hinv, hguar⟩ := own p.shared hp.inv (hM.refl _)
      have hR := hM.guar _ _ _ _ hp.inv hguar
      refine ⟨⟨hinv, fun j d q hq => ?_⟩, hR, ?_⟩
      · rcases of_getElem?_set hq with ⟨rfl, heq⟩ | ⟨-, hold⟩
        · obtain ⟨rfl, rfl⟩ := Prod.mk.inj heq
          exact rest p.shared hp.inv (hM.refl _)
        · exact (hp.threads j d q hold).rely hM.trans (hM.stable j d) hinv hR
      · rintro j d hl
        cases hl
        exact hguar
  | env moves =>
    obtain ⟨hinv, hR⟩ := hM.env _ _ hp.inv moves
    refine ⟨⟨hinv, fun i c q hq => ?_⟩, hR, by simp⟩
    exact (hp.threads i c q hq).rely hM.trans (hM.stable i c) hinv hR

/-- **Every run of a system.** -/
theorem Sound.run (hM : M.Sound I R G Q) {ls : List (Label κ)} (h : Along M.Step ls p p')
    (hp : Ok I R G Q p) : Ok I R G Q p' ∧ R p.shared p'.shared := by
  induction h with
  | nil => exact ⟨hp, hM.refl _⟩
  | cons head _ ih =>
    obtain ⟨hp₁, hR₁, _⟩ := hM.step head hp
    obtain ⟨hp₂, hR₂⟩ := ih hp₁
    exact ⟨hp₂, hM.trans _ _ _ hR₁ hR₂⟩

/-- A second invariant, kept by the guarantees and the environment. -/
theorem Sound.strengthen (hM : M.Sound I R G Q) {J : σ → Prop}
    (hJ : ∀ i c s s', I s → J s → G i c s s' → J s')
    (hE : ∀ s s', I s → J s → M.env s s' → J s') : M.Sound (fun s => I s ∧ J s) R G Q where
  refl := hM.refl
  trans := hM.trans
  env s s' hi h := ⟨⟨(hM.env s s' hi.1 h).1, hE s s' hi.1 hi.2 h⟩, (hM.env s s' hi.1 h).2⟩
  guar i c s s' hi h := hM.guar i c s s' hi.1 h
  stable i c r s s' hi hq hr := hM.stable i c r s s' hi.1 hq hr
  body i c s hi ha := (hM.body i c s hi.1 ha).strengthen (hJ i c) fun _ _ h => h

/-- An answer satisfies its condition as long as the system runs. -/
theorem Ok.answer (hp : Ok I R G Q p) {r : ρ} (h : p.Answered i c r) : Q i c r p.shared := by
  cases hp.threads i c _ h with
  | ret post => exact post

/-- An answer stands. -/
theorem answered_along {ls : List (Label κ)} (h : Along M.Step ls p p') {a : ρ}
    (ha : p.Answered i c a) : p'.Answered i c a := by
  refine h.preserves (P := fun p => p.Answered i c a) (fun l _ p₁ p₂ hstep h₁ => ?_) ha
  unfold Pool.Answered at h₁ ⊢
  cases hstep with
  | call => rwa [List.getElem?_append_left (List.getElem?_eq_some_iff.1 h₁).1]
  | @run _ j _ _ _ thread =>
    have hne : j ≠ i := by
      rintro rfl
      cases thread.symm.trans h₁
    rwa [List.getElem?_set_ne hne]
  | env => exact h₁

/-! ### Schedules -/

variable (M)

/-- A move of a schedule. -/
inductive Move (σ κ : Type) where
  | call (c : κ)
  | run (i : Nat)
  | env (f : σ → σ)

/-- The pool after a move; a call that has ended does not move. -/
def drive (p : Pool σ κ ρ) : Move σ κ → Pool σ κ ρ
  | .call c => ⟨p.shared, p.threads ++ [(c, M.body p.threads.length c)]⟩
  | .run i =>
    match p.threads[i]? with
    | some (c, .step upd next) => ⟨upd p.shared, p.threads.set i (c, next p.shared)⟩
    | _ => p
  | .env f => ⟨f p.shared, p.threads⟩

/-- What the system demands of a move. -/
def Legal (p : Pool σ κ ρ) : Move σ κ → Prop
  | .call c => M.allowed p.shared c
  | .run _ => True
  | .env f => M.env p.shared (f p.shared)

/-- All moves of a schedule are legal. -/
def LegalAll : Pool σ κ ρ → List (Move σ κ) → Prop
  | _, [] => True
  | p, m :: ms => M.Legal p m ∧ LegalAll (M.drive p m) ms

variable {M}

/-- The calls that a schedule makes, in order. -/
def Move.calls {σ κ : Type} : Move σ κ → List κ
  | .call c => [c]
  | _ => []

theorem map_fst_drive (p : Pool σ κ ρ) (m : Move σ κ) :
    (M.drive p m).threads.map Prod.fst = p.threads.map Prod.fst ++ m.calls := by
  cases m with
  | call c => simp [drive, Move.calls]
  | env f => simp [drive, Move.calls]
  | run i =>
    unfold drive
    dsimp only
    split
    · next c upd next hi =>
      obtain ⟨hlt, hget⟩ := List.getElem?_eq_some_iff.1 hi
      have hlen : i < (p.threads.map Prod.fst).length := by rwa [List.length_map]
      have hc : (p.threads.map Prod.fst)[i] = c := by simp [hget]
      have hsame : (p.threads.map Prod.fst).set i c = p.threads.map Prod.fst := by
        rw [← hc]
        exact List.set_getElem_self hlen
      simp [List.map_set, hsame, Move.calls]
    · simp [Move.calls]

/-- The calls of a schedule, under the numbers they were started with. -/
theorem map_fst_foldl_drive (ms : List (Move σ κ)) (p : Pool σ κ ρ) :
    (ms.foldl M.drive p).threads.map Prod.fst = p.threads.map Prod.fst ++
      ms.flatMap Move.calls := by
  induction ms generalizing p with
  | nil => simp
  | cons m ms ih => rw [List.foldl_cons, ih, map_fst_drive, List.flatMap_cons, List.append_assoc]

/-- The label of a move. -/
def Move.Labelled : Move σ κ → Label κ → Prop
  | .call c, l => l = .call c
  | .run i, l => ∃ c, l = .run i c
  | .env _, l => l = .env

/-- A move is a step, or of a call that has ended. -/
theorem drive_one {m : Move σ κ} (h : M.Legal p m) :
    M.drive p m = p ∨ ∃ l, m.Labelled l ∧ M.Step l p (M.drive p m) := by
  cases m with
  | call c => exact .inr ⟨_, rfl, .call h⟩
  | env f => exact .inr ⟨_, rfl, .env h⟩
  | run i =>
    unfold drive
    dsimp only
    split
    · next c upd next hi => exact .inr ⟨_, ⟨c, rfl⟩, .run hi⟩
    · exact .inl rfl

/-- A call that has not ended moves. -/
theorem drive_step (hc : (p.threads.map Prod.fst)[i]? = some c)
    (hr : (p.threads[i]?).any (fun t => t.2.running) = true) :
    M.Step (.run i c) p (M.drive p (.run i)) := by
  rw [List.getElem?_map] at hc
  obtain ⟨⟨c', q⟩, hi, rfl⟩ := Option.map_eq_some_iff.1 hc
  cases q with
  | ret a =>
    rw [hi] at hr
    cases hr
  | step upd next =>
    simp only [drive, hi]
    exact .run hi

/-- A schedule is a run. -/
theorem drive_along {ms : List (Move σ κ)} :
    ∀ {p : Pool σ κ ρ}, M.LegalAll p ms → ∃ ls, Along M.Step ls p (ms.foldl M.drive p) := by
  induction ms with
  | nil => exact fun _ => ⟨[], .nil⟩
  | cons m ms ih =>
    intro p h
    obtain ⟨ls, hls⟩ := ih h.2
    rcases drive_one h.1 with hsame | ⟨l, -, hstep⟩
    · rw [hsame] at hls
      exact ⟨ls, by rwa [List.foldl_cons, hsame]⟩
    · exact ⟨l :: ls, .cons hstep hls⟩

/-- The moves of a schedule are legal and satisfy `R`. -/
def LegalWith (M : System σ κ ρ) (R : Move σ κ → Pool σ κ ρ → Pool σ κ ρ → Prop) :
    Pool σ κ ρ → List (Move σ κ) → Prop
  | _, [] => True
  | p, m :: ms => M.Legal p m ∧ R m p (M.drive p m) ∧ LegalWith M R (M.drive p m) ms

/-- A schedule of such moves is a run of such steps. -/
theorem drive_along_with {R : Move σ κ → Pool σ κ ρ → Pool σ κ ρ → Prop}
    {T : Label κ → Pool σ κ ρ → Pool σ κ ρ → Prop}
    (hT : ∀ m l p p', m.Labelled l → R m p p' → T l p p') {ms : List (Move σ κ)} :
    ∀ {p : Pool σ κ ρ}, M.LegalWith R p ms →
      ∃ ls, Along (fun l p p' => M.Step l p p' ∧ T l p p') ls p (ms.foldl M.drive p) := by
  induction ms with
  | nil => exact fun _ => ⟨[], .nil⟩
  | cons m ms ih =>
    intro p h
    obtain ⟨hlegal, hR, hrest⟩ := h
    obtain ⟨ls, hls⟩ := ih hrest
    rcases drive_one hlegal with hsame | ⟨l, hl, hstep⟩
    · rw [hsame] at hls
      exact ⟨ls, by rwa [List.foldl_cons, hsame]⟩
    · exact ⟨l :: ls, .cons ⟨hstep, hT m l _ _ hl hR⟩ hls⟩

end System

end JobDB
