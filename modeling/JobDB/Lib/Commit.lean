import JobDB.Lib.Process

/-!
# Calls that commit

Many calls come down to one step: whatever they do before it can be undone or does not
matter, and with it they take effect and succeed. `Proc.Commits I Q C S p` says so of a
process. From states with `I` its steps move along `Q`, until one moves along `C` and ends
the process with an answer that counts as success (`S`); a process that ends without such a
step does not succeed.

In a system of such calls the order of the committing steps is the order in which the calls
take effect. `System.History` records it beside a run, and `System.history` shows that every
run has one: the shared state has moved along the events of the history, and the calls that
have succeeded are those that have committed, once each.
-/

namespace JobDB

variable {σ α β ε κ ρ : Type}

namespace Proc

/-- See the introduction. -/
def Commits (I : σ → Prop) (Q : σ → σ → Prop) (C : α → σ → σ → Prop) (S : α → Prop) :
    Proc σ α → Prop
  | .ret a => ¬ S a
  | .step upd next => ∀ s, I s →
    (Q s (upd s) ∧ (next s).Commits I Q C S) ∨ ∃ a, next s = .ret a ∧ S a ∧ C a s (upd s)

/-- No step commits. -/
def Quiet (I : σ → Prop) (Q : σ → σ → Prop) (p : Proc σ α) : Prop :=
  p.Commits I Q (fun _ _ _ => False) fun _ => False

variable {I : σ → Prop} {Q : σ → σ → Prop} {C : β → σ → σ → Prop} {S : β → Prop}

theorem Quiet.bind {p : Proc σ α} {f : α → Proc σ β} (hp : p.Quiet I Q)
    (hf : ∀ a, (f a).Commits I Q C S) : (p >>= f).Commits I Q C S := by
  induction p with
  | ret a => exact hf a
  | step upd next ih =>
    intro s hs
    rcases hp s hs with ⟨hq, hrest⟩ | ⟨a, -, hfalse, -⟩
    · exact .inl ⟨hq, ih s hrest⟩
    · exact hfalse.elim

/-- Where no answer counts as success. -/
theorem Quiet.commits {p : Proc σ β} (hp : p.Quiet I Q) (hS : ∀ b, ¬ S b) : p.Commits I Q C S := by
  induction p with
  | ret b => exact hS b
  | step upd next ih =>
    intro s hs
    rcases hp s hs with ⟨hq, hrest⟩ | ⟨b, -, hfalse, -⟩
    · exact .inl ⟨hq, ih s hrest⟩
    · exact hfalse.elim

/-- The answer is handed on in another form. -/
theorem Commits.bind_ret {C' : α → σ → σ → Prop} {S' : α → Prop} {g : α → β} {p : Proc σ α}
    (h : p.Commits I Q C' S') (hS : ∀ a, S (g a) ↔ S' a)
    (hC : ∀ a s s', C' a s s' → C (g a) s s') : (p.bind fun a => .ret (g a)).Commits I Q C S := by
  induction p with
  | ret a => exact fun hs => h ((hS a).1 hs)
  | step upd next ih =>
    intro s hs
    rcases h s hs with ⟨hq, hrest⟩ | ⟨a, ha, hok, hc⟩
    · exact .inl ⟨hq, ih s hrest⟩
    · refine .inr ⟨g a, ?_, (hS a).2 hok, hC a _ _ hc⟩
      show (next s).bind (fun a => ret (g a)) = ret (g a)
      rw [ha]
      rfl

end Proc

/-! ## Rules for calls -/

namespace Call

variable {I : σ → Prop} {Q : σ → σ → Prop} {C : Except ε β → σ → σ → Prop} {S : Except ε β → Prop}

/-- `Proc.Commits` of a call that does not succeed with an error. -/
structure Commits (I : σ → Prop) (Q : σ → σ → Prop) (C : Except ε β → σ → σ → Prop)
    (S : Except ε β → Prop) (x : Call σ ε β) : Prop where
  error : ∀ e, ¬ S (.error e)
  proc : Proc.Commits I Q C S x

/-- No step of the call commits. -/
def Quiet (I : σ → Prop) (Q : σ → σ → Prop) (x : Call σ ε α) : Prop := Proc.Quiet I Q x

variable {f : α → Call σ ε β} {x : Call σ ε α}

theorem Commits.bind (hS : ∀ e, ¬ S (.error e)) (hx : x.Quiet I Q) (hf : ∀ a, (f a).Commits I Q C S)
    : (x >>= f).Commits I Q C S := by
  refine ⟨hS, Proc.Quiet.bind hx fun r => ?_⟩
  cases r with
  | ok a => exact (hf a).proc
  | error e => exact hS e

namespace Quiet

theorem bind (hx : x.Quiet I Q) (hf : ∀ a, (f a).Quiet I Q) : (x >>= f).Quiet I Q :=
  (Commits.bind (fun _ h => h) hx fun a => ⟨fun _ h => h, hf a⟩).proc

theorem pure (a : α) : (pure a : Call σ ε α).Quiet I Q := fun h => h

theorem check (r : Except ε α) : (check r : Call σ ε α).Quiet I Q := fun h => h

theorem query (hQ : ∀ s, Q s s) (f : σ → Except ε α) : (query f).Quiet I Q := fun s _ =>
  .inl ⟨hQ s, fun h => h⟩

theorem tx {m : Tx σ ε α} (hQ : ∀ s, Q s s) (hm : ∀ s a s', I s → m s = .ok (a, s') → Q s s') :
    (tx m).Quiet I Q := by
  intro s hs
  refine .inl ⟨?_, fun h => h⟩
  show Q s (Tx.commit m s).2
  unfold Tx.commit
  cases h : m s with
  | ok r => exact hm s r.1 r.2 hs h
  | error e => exact hQ s

theorem closed (hQ : ∀ s, Q s s) : Closed fun _ (x : Call σ ε _) => x.Quiet I Q :=
  ⟨pure, check, query hQ, bind⟩

end Quiet

namespace Commits

/-- What the check has found out holds in the rest of the call. -/
theorem check_bind {r : Except ε α} (hS : ∀ e, ¬ S (.error e))
    (hf : ∀ a, r = .ok a → (f a).Commits I Q C S) : (check r >>= f).Commits I Q C S := by
  refine ⟨hS, ?_⟩
  cases r with
  | ok a => exact (hf a rfl).proc
  | error e => exact hS e

/-- The last transaction of a call. -/
theorem tx {m : Tx σ ε β} (hS : ∀ e, ¬ S (.error e)) (hQ : ∀ s, Q s s)
    (hm : ∀ s b s', I s → m s = .ok (b, s') → S (.ok b) ∧ C (.ok b) s s') :
    (tx m).Commits I Q C S := by
  refine ⟨hS, fun s hs => ?_⟩
  cases h : m s with
  | ok r =>
    obtain ⟨b, s'⟩ := r
    obtain ⟨hok, hc⟩ := hm s b s' hs h
    exact .inr ⟨.ok b, by simp only [Tx.commit, h], hok, by simpa only [Tx.commit, h] using hc⟩
  | error e =>
    refine .inl ⟨by simpa only [Tx.commit, h] using hQ s, ?_⟩
    simp only [Tx.commit, h]
    exact hS e

/-- The caller is told something else. -/
theorem map {C' : Except ε α → σ → σ → Prop} {S' : Except ε α → Prop} {g : α → β}
    (h : x.Commits I Q C' S') (hS : ∀ r, S (r.map g) ↔ S' r)
    (hC : ∀ r s s', C' r s s' → C (r.map g) s s') :
    (x >>= fun a => pure (g a) : Call σ ε β).Commits I Q C S := by
  refine ⟨fun e he => h.error e ((hS (.error e)).1 he), ?_⟩
  have hbind : (x >>= fun a => pure (g a) : Call σ ε β) =
      Proc.bind x fun r => .ret (r.map g) := by
    show Proc.bind x _ = _
    congr 1
    funext r
    cases r <;> rfl
  rw [hbind]
  exact Proc.Commits.bind_ret h.proc hS hC

/-- A call that ends with an error does not succeed. -/
theorem fail {e : ε} (hS : ∀ e, ¬ S (.error e)) :
    (check (.error e) : Call σ ε β).Commits I Q C S := ⟨hS, hS e⟩

end Commits

end Call

/-! ## Histories -/

namespace System

/-- What happens to the shared state: the environment moves, call `i` makes a step that does not
commit, or it commits. -/
inductive Event (κ ρ : Type) where
  | env
  | quiet (i : Nat) (c : κ)
  | commit (i : Nat) (c : κ) (answer : ρ)

namespace Event

/-- The number of the call that commits. -/
def committed? : Event κ ρ → Option Nat
  | .commit i _ _ => some i
  | _ => none

end Event

variable (M : System σ κ ρ) (I : σ → Prop) (Q : Nat → κ → σ → σ → Prop)
  (C : Nat → κ → ρ → σ → σ → Prop) (S : κ → ρ → Prop)

/-- The shared state moves as the event says. -/
inductive Happens : Event κ ρ → σ → σ → Prop where
  | env {s s' : σ} (moves : M.env s s') : Happens .env s s'
  | quiet {i : Nat} {c : κ} {s s' : σ} (moves : Q i c s s') : Happens (.quiet i c) s s'
  | commit {i : Nat} {c : κ} {a : ρ} {s s' : σ} (moves : C i c a s s') :
      Happens (.commit i c a) s s'

/-- The events that led from `s₀` to the pool. -/
structure History (s₀ : σ) (p : Pool σ κ ρ) (es : List (Event κ ρ)) : Prop where
  along : Along (M.Happens Q C) es s₀ p.shared
  /-- A call has committed, or it is on its way. -/
  threads : ∀ i c q, p.threads[i]? = some (c, q) →
    (∃ a, q = .ret a ∧ .commit i c a ∈ es) ∨ q.Commits I (Q i c) (C i c) (S c)
  commits : ∀ i c a, .commit i c a ∈ es → p.Answered i c a ∧ S c a
  once : (es.filterMap Event.committed?).Nodup
  quiet : ∀ i c, .quiet i c ∈ es → c ∈ p.threads.map Prod.fst

variable {M I Q C S}

namespace History

variable {s₀ : σ} {p : Pool σ κ ρ} {es : List (Event κ ρ)}

variable {i : Nat} {c : κ} {upd : σ → σ} {next : σ → Proc σ ρ}

/-- The calls that have succeeded are those that have committed. -/
theorem commit_iff (h : M.History I Q C S s₀ p es) {a : ρ} :
    .commit i c a ∈ es ↔ p.Answered i c a ∧ S c a := by
  constructor
  · exact h.commits i c a
  · rintro ⟨hanswer, hs⟩
    rcases h.threads i c _ hanswer with ⟨b, hb, hmem⟩ | hnot
    · obtain rfl := Proc.ret.inj hb
      exact hmem
    · exact absurd hs hnot

theorem call (h : M.History I Q C S s₀ p es)
    (hbody :
      (M.body p.threads.length c).Commits I (Q p.threads.length c) (C p.threads.length c) (S c)) :
    M.History I Q C S s₀ ⟨p.shared, p.threads ++ [(c, M.body p.threads.length c)]⟩ es := by
  refine ⟨h.along, fun i d q hq => ?_, fun i d a hmem => ?_, h.once, fun i d hmem => ?_⟩
  · rcases of_getElem?_concat hq with hold | ⟨rfl, heq⟩
    · exact h.threads i d q hold
    · obtain ⟨rfl, rfl⟩ := Prod.mk.inj heq
      exact .inr hbody
  · obtain ⟨hanswer, hs⟩ := h.commits i d a hmem
    refine ⟨?_, hs⟩
    unfold Pool.Answered at hanswer ⊢
    rw [List.getElem?_append_left (List.getElem?_eq_some_iff.1 hanswer).1]
    exact hanswer
  · rw [List.map_append]
    exact List.mem_append_left _ (h.quiet i d hmem)

/-- A call that makes a step has not committed. -/
theorem not_committed (h : M.History I Q C S s₀ p es)
    (hthread : p.threads[i]? = some (c, .step upd next)) (d : κ) (a : ρ) : .commit i d a ∉ es := by
  intro hcommit
  have hanswer := (h.commits i d a hcommit).1
  unfold Pool.Answered at hanswer
  cases hthread.symm.trans hanswer

/-- A call that makes a step is on its way. -/
theorem on_its_way (h : M.History I Q C S s₀ p es)
    (hthread : p.threads[i]? = some (c, .step upd next)) :
    (Proc.step upd next).Commits I (Q i c) (C i c) (S c) := by
  refine (h.threads i c _ hthread).resolve_left ?_
  rintro ⟨a, ha, -⟩
  cases ha

/-- Call `i` has made a step and is now `q`: what has to be shown of it, the other calls being
where they were. -/
theorem set {s : σ} {q : Proc σ ρ} {e : Event κ ρ} (h : M.History I Q C S s₀ p es)
    (hthread : p.threads[i]? = some (c, .step upd next)) (hmoves : M.Happens Q C e p.shared s)
    (hnow : (∃ a, q = .ret a ∧ .commit i c a ∈ es ++ [e]) ∨ q.Commits I (Q i c) (C i c) (S c))
    (hcommit : ∀ j d a, e = .commit j d a → j = i ∧ d = c ∧ q = .ret a ∧ S c a)
    (hquiet : ∀ j d, e = .quiet j d → d = c) :
    M.History I Q C S s₀ ⟨s, p.threads.set i (c, q)⟩ (es ++ [e]) := by
  have hlt : i < p.threads.length := (List.getElem?_eq_some_iff.1 hthread).1
  have hnames : (p.threads.set i (c, q)).map Prod.fst = p.threads.map Prod.fst := by
    have hc : (p.threads.map Prod.fst)[i]? = some c := by rw [List.getElem?_map, hthread]; rfl
    obtain ⟨hlen, hget⟩ := List.getElem?_eq_some_iff.1 hc
    rw [List.map_set, ← hget]
    exact List.set_getElem_self hlen
  refine ⟨h.along.trans (.cons hmoves .nil), fun j d q' hj => ?_, fun j d a hj => ?_, ?_,
    fun j d hj => ?_⟩
  · rcases of_getElem?_set hj with ⟨rfl, heq⟩ | ⟨-, hold⟩
    · obtain ⟨rfl, rfl⟩ := Prod.mk.inj heq
      exact hnow
    · refine (h.threads j d q' hold).imp_left ?_
      rintro ⟨a, ha, hold⟩
      exact ⟨a, ha, List.mem_append_left _ hold⟩
  · unfold Pool.Answered
    rcases List.mem_append.1 hj with hold | hnew
    · have hij : i ≠ j := fun he => h.not_committed hthread d a (he ▸ hold)
      obtain ⟨hanswer, hs⟩ := h.commits j d a hold
      rw [List.getElem?_set_ne hij]
      exact ⟨hanswer, hs⟩
    · obtain ⟨rfl, rfl, rfl, hs⟩ := hcommit j d a (List.mem_singleton.1 hnew).symm
      rw [List.getElem?_set_self hlt]
      exact ⟨rfl, hs⟩
  · rw [List.filterMap_append]
    refine List.nodup_append.2 ⟨h.once, ?_, fun j hj k hk => ?_⟩
    · cases e with
      | env => exact .nil
      | quiet => exact .nil
      | commit => exact List.nodup_cons.2 ⟨List.not_mem_nil, .nil⟩
    · obtain ⟨e', he', hje'⟩ := List.mem_filterMap.1 hj
      obtain ⟨e₁, he₁, hke⟩ := List.mem_filterMap.1 hk
      obtain rfl := List.mem_singleton.1 he₁
      cases e₁ with
      | env => cases hke
      | quiet => cases hke
      | commit k' d a =>
        cases hke
        cases e' with
        | env => cases hje'
        | quiet => cases hje'
        | commit j' d' a' =>
          cases hje'
          rintro rfl
          obtain ⟨rfl, -⟩ := hcommit j d a rfl
          exact h.not_committed hthread d' a' he'
  · rw [hnames]
    rcases List.mem_append.1 hj with hold | hnew
    · exact h.quiet j d hold
    · obtain rfl := hquiet j d (List.mem_singleton.1 hnew).symm
      exact List.mem_map.2 ⟨_, List.mem_of_getElem? hthread, rfl⟩

/-- Call `i` makes a step. -/
theorem run (h : M.History I Q C S s₀ p es) (hi : I p.shared)
    (hthread : p.threads[i]? = some (c, .step upd next)) :
    ∃ e, M.History I Q C S s₀ ⟨upd p.shared, p.threads.set i (c, next p.shared)⟩ (es ++ [e]) := by
  rcases h.on_its_way hthread p.shared hi with ⟨hq, hrest⟩ | ⟨a, ha, hs, hc⟩
  · refine ⟨.quiet i c,
      h.set hthread (.quiet hq) (.inr hrest) (fun j d b he => ?_) fun j d he => ?_⟩
    · cases he
    · cases he
      rfl
  · refine ⟨.commit i c a, h.set hthread (.commit hc) (.inl ⟨a, ha, ?_⟩) (fun j d b he => ?_)
      fun j d he => ?_⟩
    · exact List.mem_append_right _ (List.mem_singleton_self _)
    · cases he
      exact ⟨rfl, rfl, ha, hs⟩
    · cases he

/-- The environment moves. -/
theorem env {s : σ} (h : M.History I Q C S s₀ p es) (hmoves : M.env p.shared s) :
    M.History I Q C S s₀ ⟨s, p.threads⟩ (es ++ [.env]) := by
  refine ⟨h.along.trans (.cons (.env hmoves) .nil), fun i c q hq => ?_,
    fun i c a hmem => h.commits i c a (by simpa using hmem), ?_,
    fun i c hmem => h.quiet i c (by simpa using hmem)⟩
  · refine (h.threads i c q hq).imp_left ?_
    rintro ⟨a, ha, hcommit⟩
    exact ⟨a, ha, List.mem_append_left _ hcommit⟩
  · rw [List.filterMap_append]
    exact List.nodup_append.2 ⟨h.once, .nil, fun _ _ _ hk => absurd hk List.not_mem_nil⟩

end History

/-- **Every run has a history**, where the calls commit and the invariant holds on the way. -/
theorem history {Good : Pool σ κ ρ → Prop} (hI : ∀ p, Good p → I p.shared)
    (hgood : ∀ l p p', Good p → M.Step l p p' → Good p')
    (hbody : ∀ i c s, I s → M.allowed s c → (M.body i c).Commits I (Q i c) (C i c) (S c))
    {ls : List (Label κ)} {s₀ : σ} {p : Pool σ κ ρ} (h : Along M.Step ls ⟨s₀, []⟩ p)
    (hstart : Good ⟨s₀, []⟩) : ∃ es, M.History I Q C S s₀ p es := by
  have hboth : Good p ∧ ∃ es, M.History I Q C S s₀ p es := by
    refine h.preserves (P := fun p => Good p ∧ ∃ es, M.History I Q C S s₀ p es) ?_
      ⟨hstart, [], .nil, by simp, by simp, .nil, by simp⟩
    rintro l - p₁ p₂ hstep ⟨hp₁, es, hes⟩
    refine ⟨hgood l p₁ p₂ hp₁ hstep, ?_⟩
    cases hstep with
    | call allowed => exact ⟨es, hes.call (hbody _ _ _ (hI _ hp₁) allowed)⟩
    | run thread =>
      obtain ⟨e, he⟩ := hes.run (hI _ hp₁) thread
      exact ⟨_, he⟩
    | env moves => exact ⟨_, hes.env moves⟩
  exact hboth.2

end System

end JobDB
