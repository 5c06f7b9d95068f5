import Mathlib.Logic.Relation
import Mathlib.Order.Defs.Unbundled

/-!
# Transactions

A transaction reads and writes a store and either commits a value together
with a new store or fails, leaving the store as it was. It is the state monad
over `Except`: the store of a failed run is simply not there, so rollback is
not something a proof has to establish.

* `Tx.read`, `Tx.write`, `Tx.require` are the primitive transactions;
  `Tx.commit` runs one against a store with rollback.
* `bind_eq_ok` and its companions turn a successful run into the runs of its
  parts; every proof about a composite transaction goes through them.
* `Tx.Within R m` says that every successful run of `m` moves the store along
  `R`. For a preorder `R` this is closed under sequencing, so a frame property
  of a long transaction follows from that of its writes.
* `Tx.zoom` runs a transaction on a part of a larger store.
-/

namespace JobDB

/-- A transaction over stores `σ` that fails with `ε`. -/
abbrev Tx (σ ε α : Type) := StateT σ (Except ε) α

/-- A fallible sequence succeeds when both its parts do. -/
theorem bind_eq_ok {ε α β : Type} {x : Except ε α} {f : α → Except ε β} {b : β} :
    (x >>= f) = .ok b ↔ ∃ a, x = .ok a ∧ f a = .ok b := by
  cases x with
  | error e => simp [bind, Except.bind]
  | ok a => simp [bind, Except.bind]

theorem map_eq_ok {ε α β : Type} {x : Except ε α} {g : α → β} {b : β} :
    (x >>= fun a => .ok (g a)) = .ok b ↔ ∃ a, x = .ok a ∧ g a = b := by
  rw [bind_eq_ok]
  simp only [Except.ok.injEq]

theorem bind_eq_error {ε α β : Type} {x : Except ε α} {f : α → Except ε β} {e : ε} :
    (x >>= f) = .error e ↔ x = .error e ∨ ∃ a, x = .ok a ∧ f a = .error e := by
  cases x with
  | error e' => simp [bind, Except.bind]
  | ok a => simp [bind, Except.bind]

/-- Fail with `e` unless `p` holds, without a store. -/
def demand {ε : Type} (e : ε) (p : Prop) [Decidable p] : Except ε Unit :=
  if p then .ok () else .error e

variable {p : Prop}

theorem demand_eq_ok {ε : Type} {e : ε} [Decidable p] {u : Unit} : demand e p = .ok u ↔ p := by
  unfold demand
  by_cases hp : p
  · rw [if_pos hp]
    exact ⟨fun _ => hp, fun _ => rfl⟩
  · rw [if_neg hp]
    exact ⟨fun h => (nomatch h), fun h => absurd h hp⟩

theorem ite_error_eq_ok {ε α : Type} {e : ε} [Decidable p] {x : Except ε α} {a : α} :
    (if p then .error e else x) = .ok a ↔ ¬ p ∧ x = .ok a := by
  by_cases hp : p <;> simp [hp]

theorem demand_bind_eq_ok {ε β : Type} {e : ε} [Decidable p] {f : Unit → Except ε β} {b : β} :
    (demand e p >>= f) = .ok b ↔ p ∧ f () = .ok b := by
  rw [bind_eq_ok]
  constructor
  · rintro ⟨_, hp, hf⟩
    exact ⟨demand_eq_ok.1 hp, hf⟩
  · rintro ⟨hp, hf⟩
    exact ⟨(), demand_eq_ok.2 hp, hf⟩

namespace Tx

variable {σ ε α β : Type}

/-- Query the store. -/
def read (f : σ → Except ε α) : Tx σ ε α := fun s => (f s).map fun a => (a, s)

/-- Update the store. -/
def write (f : σ → Except ε σ) : Tx σ ε Unit := fun s => (f s).map fun s' => ((), s')

/-- Fail with `e` unless `p` holds. -/
def require (e : ε) (p : Prop) [Decidable p] : Tx σ ε Unit :=
  if p then pure () else throw e

/-- Run a transaction against the durable store: its result, and the new store
or the old one. -/
def commit (m : Tx σ ε α) (s : σ) : Except ε α × σ :=
  match m s with
  | .ok (a, s') => (.ok a, s')
  | .error e => (.error e, s)

/-! ## Inverting a successful run -/

variable {s : σ} {e : ε} {r : Unit × σ} {f : α → Tx σ ε Unit} {xs : List α}

theorem bind_eq_ok {x : Tx σ ε α} {f : α → Tx σ ε β} {r : β × σ} :
    (x >>= f) s = .ok r ↔ ∃ a s', x s = .ok (a, s') ∧ f a s' = .ok r := by
  show Except.bind (x s) (fun p => f p.1 p.2) = .ok r ↔ _
  cases h : x s with
  | error e => simp [Except.bind]
  | ok p =>
    obtain ⟨a, s'⟩ := p
    simp only [Except.bind, Except.ok.injEq, Prod.mk.injEq]
    exact ⟨fun h => ⟨a, s', ⟨rfl, rfl⟩, h⟩, fun ⟨_, _, ⟨ha, hs⟩, h⟩ => ha ▸ hs ▸ h⟩

@[simp] theorem pure_eq_ok {a b : α} {s' : σ} :
    (pure a : Tx σ ε α) s = .ok (b, s') ↔ b = a ∧ s' = s := by
  show Except.ok (a, s) = .ok (b, s') ↔ _
  rw [Except.ok.injEq, Prod.mk.injEq, eq_comm, @eq_comm _ s]

/-- A run that ends with a result made of another one's. -/
theorem bind_pure_eq_ok {x : Tx σ ε α} {g : α → β} {b : β} {s' : σ} :
    (x >>= fun a => pure (g a)) s = .ok (b, s') ↔ ∃ a, x s = .ok (a, s') ∧ b = g a := by
  rw [bind_eq_ok]
  constructor
  · rintro ⟨a, s₁, hx, h⟩
    obtain ⟨hb, rfl⟩ := pure_eq_ok.mp h
    exact ⟨a, hx, hb⟩
  · rintro ⟨a, hx, hb⟩
    exact ⟨a, s', hx, pure_eq_ok.mpr ⟨hb, rfl⟩⟩

@[simp] theorem throw_ne_ok {r : α × σ} : (throw e : Tx σ ε α) s ≠ .ok r := by
  show Except.error e ≠ .ok r
  simp

@[simp] theorem read_eq_ok {f : σ → Except ε α} {r : α × σ} :
    read f s = .ok r ↔ f s = .ok r.1 ∧ r.2 = s := by
  obtain ⟨a, s'⟩ := r
  unfold read
  cases f s <;> simp [Except.map, eq_comm]

@[simp] theorem write_eq_ok {f : σ → Except ε σ} : write f s = .ok r ↔ f s = .ok r.2 := by
  obtain ⟨_, s'⟩ := r
  unfold write
  cases f s <;> simp [Except.map]

@[simp] theorem require_eq_ok [Decidable p] : require e p s = .ok r ↔ p ∧ r.2 = s := by
  obtain ⟨_, s'⟩ := r
  unfold require
  split <;> simp_all

/-- A sequence starting with a guard. -/
theorem require_bind_eq_ok [Decidable p] {f : Unit → Tx σ ε β} {r : β × σ} :
    (require e p >>= f) s = .ok r ↔ p ∧ f () s = .ok r := by
  rw [bind_eq_ok]
  constructor
  · rintro ⟨u, s', h, hf⟩
    obtain ⟨hp, rfl⟩ := require_eq_ok.mp h
    exact ⟨hp, hf⟩
  · rintro ⟨hp, hf⟩
    exact ⟨(), s, require_eq_ok.mpr ⟨hp, rfl⟩, hf⟩

/-- A sequence starting with a query. -/
theorem read_bind_eq_ok {f : σ → Except ε α} {g : α → Tx σ ε β} {r : β × σ} :
    (read f >>= g) s = .ok r ↔ ∃ a, f s = .ok a ∧ g a s = .ok r := by
  rw [bind_eq_ok]
  constructor
  · rintro ⟨a, s', h, hg⟩
    obtain ⟨ha, rfl⟩ := read_eq_ok.mp h
    exact ⟨a, ha, hg⟩
  · rintro ⟨a, ha, hg⟩
    exact ⟨a, s, read_eq_ok.mpr ⟨ha, rfl⟩, hg⟩

/-- A sequence whose first query fails. -/
theorem read_bind_error {f : σ → Except ε α} {g : α → Tx σ ε β} (h : f s = .error e) :
    (read f >>= g) s = .error e := by
  show Except.bind (read f s) (fun p => g p.1 p.2) = .error e
  unfold read
  rw [h]
  rfl

theorem forM_cons_eq_ok {x : α} :
    forM (x :: xs) f s = .ok r ↔ ∃ s', f x s = .ok ((), s') ∧ forM xs f s' = .ok r := by
  rw [List.forM_cons, bind_eq_ok]
  exact ⟨fun ⟨_, s', h⟩ => ⟨s', h⟩, fun ⟨s', h⟩ => ⟨(), s', h⟩⟩

@[simp] theorem forM_nil_eq_ok : forM ([] : List α) f s = .ok r ↔ r.2 = s := by
  obtain ⟨_, s'⟩ := r
  rw [List.forM_nil, pure_eq_ok]
  exact and_iff_right rfl

/-! ## Frames -/

/-- Every successful run of `m` moves the store along `R`. -/
def Within (R : σ → σ → Prop) (m : Tx σ ε α) : Prop :=
  ∀ ⦃s a s'⦄, m s = .ok (a, s') → R s s'

namespace Within

variable {R : σ → σ → Prop} [IsPreorder σ R]

/-- A transaction that only looks. -/
theorem of_same {m : Tx σ ε α} (h : ∀ s a s', m s = .ok (a, s') → s' = s) : Within R m := by
  intro s a s' hm
  rw [h s a s' hm]
  exact refl_of R s

theorem pure (a : α) : Within R (pure a : Tx σ ε α) := of_same fun _ _ _ h => (pure_eq_ok.mp h).2

theorem read (f : σ → Except ε α) : Within R (read f) :=
  of_same fun _ _ _ h => (read_eq_ok.mp h).2

theorem require (e : ε) (p : Prop) [Decidable p] : Within R (require e p : Tx σ ε Unit) :=
  of_same fun _ _ _ h => (require_eq_ok.mp h).2

omit [IsPreorder σ R] in
theorem write {f : σ → Except ε σ} (hf : ∀ s s', f s = .ok s' → R s s') : Within R (write f) :=
  fun _ _ _ h => hf _ _ (write_eq_ok.mp h)

theorem bind {x : Tx σ ε α} {f : α → Tx σ ε β} (hx : Within R x) (hf : ∀ a, Within R (f a)) :
    Within R (x >>= f) := by
  intro s b s' h
  obtain ⟨a, s₁, h₁, h₂⟩ := bind_eq_ok.mp h
  exact trans_of R (hx h₁) (hf a h₂)

theorem forM (hf : ∀ x ∈ xs, Within R (f x)) : Within R (forM xs f) := by
  induction xs with
  | nil => exact .pure ()
  | cons x xs ih =>
    rw [List.forM_cons]
    exact .bind (hf x (by simp)) fun _ => ih fun y hy => hf y (by simp [hy])

theorem mapM {f : α → Tx σ ε β} (hf : ∀ a, Within R (f a)) (xs : List α) :
    Within R (xs.mapM f) := by
  induction xs with
  | nil =>
    rw [List.mapM_nil]
    exact .pure _
  | cons x xs ih =>
    rw [List.mapM_cons]
    exact .bind (hf x) fun _ => .bind ih fun _ => .pure _

end Within

/-! ## A part of a store -/

section Zoom

variable {τ : Type}

/-- Run a transaction on the part of a store that `get` reads and `set` writes. -/
def zoom (get : τ → σ) (set : τ → σ → τ) (m : Tx σ ε α) : Tx τ ε α := fun t =>
  (m (get t)).map fun p => (p.1, set t p.2)

theorem zoom_eq_ok {get : τ → σ} {set : τ → σ → τ} {m : Tx σ ε α} {t t' : τ} {a : α} :
    zoom get set m t = .ok (a, t') ↔ ∃ s', m (get t) = .ok (a, s') ∧ t' = set t s' := by
  unfold zoom
  cases h : m (get t) with
  | error e => simp [Except.map]
  | ok p =>
    obtain ⟨b, s'⟩ := p
    simp only [Except.map, Except.ok.injEq, Prod.mk.injEq]
    constructor
    · rintro ⟨rfl, rfl⟩
      exact ⟨s', ⟨rfl, rfl⟩, rfl⟩
    · rintro ⟨_, ⟨rfl, rfl⟩, rfl⟩
      exact ⟨rfl, rfl⟩

theorem zoom_error {get : τ → σ} {set : τ → σ → τ} {m : Tx σ ε α} {t : τ} (h : m (get t) = .error e)
    : zoom get set m t = .error e := by
  unfold zoom
  rw [h]
  rfl

end Zoom

end Tx

end JobDB
