import JobDB.Lib.Tx
import Mathlib.Data.List.Perm.Subperm

/-!
# Acyclic relations and the depth-first cycle check

A relation is `Acyclic` when no point reaches itself. Two facts carry the
incremental use of a cycle check:

* `Acyclic.mono`: dropping edges keeps acyclicity.
* `Acyclic.extend`: edges may be added if each of them starts at a point
  reachable from one `start`, and every path from `start` is finite. A check
  from a single node therefore protects the whole relation.

`visit` is the three-colour depth-first search in the form programs write it:
a stack of active nodes, a set of finished ones, and a successor query that
may fail. Its finished nodes form a list in which every successor of a node
comes after it (`Topo`), so a search that returns proves every path from its
start finite (`visit_acc`). A search that fails has met a node of its stack
again, which is a cycle, or an answer of the successor query that is an error
(`visit_error`). The recursion is bounded by fuel; one unit more than the
number of nodes is enough.
-/

namespace JobDB.Digraph

open Relation

section Acyclic

variable {N : Type} {E E' : N → N → Prop}

/-- No point reaches itself. -/
def Acyclic (E : N → N → Prop) : Prop := ∀ n, ¬ TransGen E n n

theorem Acyclic.mono (h : Acyclic E) (sub : ∀ a b, E' a b → E a b) : Acyclic E' :=
  fun n hn => h n (TransGen.mono sub n n hn)

/-- A path either uses old edges only or runs through a new one. -/
theorem TransGen.old_or_new {a b : N} (h : TransGen E' a b) :
    TransGen E a b ∨ ∃ u v, ReflTransGen E' a u ∧ E' u v ∧ ¬ E u v ∧ ReflTransGen E' v b := by
  induction h with
  | @single b hab =>
    by_cases ho : E a b
    · exact Or.inl (.single ho)
    · exact Or.inr ⟨a, b, .refl, hab, ho, .refl⟩
  | @tail b c hab hbc ih =>
    rcases ih with ih | ⟨u, v, hu, huv, hn, hv⟩
    · by_cases ho : E b c
      · exact Or.inl (ih.tail ho)
      · exact Or.inr ⟨b, c, hab.to_reflTransGen, hbc, ho, .refl⟩
    · exact Or.inr ⟨u, v, hu, huv, hn, hv.tail hbc⟩

/-- A cycle can be reached from `n`. -/
def CycleFrom (E : N → N → Prop) (n : N) : Prop := ∃ m, ReflTransGen E n m ∧ TransGen E m m

/-- A map that takes edges to edges takes cycles to cycles. -/
theorem CycleFrom.map {M : Type} {F : M → M → Prop} {f : N → M} {n : N} (h : CycleFrom E n)
    (hf : ∀ a b, E a b → F (f a) (f b)) : CycleFrom F (f n) := by
  obtain ⟨m, hreach, hcyc⟩ := h
  exact ⟨f m, hreach.lift f hf, hcyc.lift f hf⟩

/-- A point all of whose paths are finite does not reach a cycle. -/
theorem not_cycleFrom_of_acc {n : N} (h : Acc (fun b a => E a b) n) : ¬ CycleFrom E n := by
  induction h with
  | intro n _ ih =>
    rintro ⟨m, hreach, hcyc⟩
    -- the way to the cycle and once around it has a first step
    obtain ⟨b, hb, hbm⟩ := TransGen.head'_iff.mp (TransGen.trans_right hreach hcyc)
    exact ih b hb ⟨m, hbm, hcyc⟩

/-- **Checked extension.** If every new edge starts at a point reachable from
`start` and every path from `start` is finite, the extended relation is
acyclic. -/
theorem Acyclic.extend (h : Acyclic E) {start : N}
    (new : ∀ a b, E' a b → ¬ E a b → ReflTransGen E' start a)
    (hs : Acc (fun b a => E' a b) start) : Acyclic E' := by
  intro n hn
  rcases TransGen.old_or_new (E := E) hn with ho | ⟨u, v, hu, huv, hne, hv⟩
  · exact h n ho
  · -- the cycle through `n` also runs through `u`, which `start` reaches
    have hcyc : TransGen E' u u := (TransGen.head' huv hv).trans_left hu
    exact not_cycleFrom_of_acc hs ⟨u, new u v huv hne, hcyc⟩

end Acyclic

/-! ## Finished nodes -/

section Visit

variable {N ε : Type} (succ : N → Except ε (List N))

/-- A list of finished nodes: each node's successors are finished before it. -/
def Topo : List N → Prop
  | [] => True
  | n :: rest => (∃ next, succ n = .ok next ∧ ∀ m ∈ next, m ∈ rest) ∧ Topo rest

variable {succ}

/-- Let `f` map the searched nodes to the points of a relation `E` such that
the answered successors of a node cover the `E`-successors of its image. Then
the image of a finished node starts only finite paths: the successors of the
head are in the tail, a finished list of its own. -/
theorem Topo.acc {M : Type} {E : M → M → Prop} {f : N → M}
    (cover : ∀ a next, succ a = .ok next → ∀ b, E (f a) b → ∃ m ∈ next, f m = b) :
    ∀ {l : List N}, Topo succ l → ∀ a ∈ l, Acc (fun b a => E a b) (f a)
  | n :: rest, ⟨⟨next, hs, hn⟩, ht⟩, a, ha => by
    rcases List.mem_cons.mp ha with rfl | ha
    · refine Acc.intro _ fun b hb => ?_
      obtain ⟨m, hm, rfl⟩ := cover _ next hs b hb
      exact Topo.acc cover ht m (hn m hm)
    · exact Topo.acc cover ht a ha

/-- A fold of searches finishes every node it starts from and keeps what was
finished. -/
theorem foldlM_topo {f : List N → N → Except ε (List N)}
    (hf : ∀ d m r, Topo succ d → f d m = .ok r → Topo succ r ∧ m ∈ r ∧ d ⊆ r) :
    ∀ (next done r : List N), Topo succ done → next.foldlM f done = .ok r →
      Topo succ r ∧ (∀ m ∈ next, m ∈ r) ∧ done ⊆ r
  | [], done, r, ht, h => by
    obtain rfl : done = r := Except.ok.inj h
    exact ⟨ht, by simp, fun _ hx => hx⟩
  | m :: next, done, r, ht, h => by
    obtain ⟨d, hm, h⟩ := bind_eq_ok.mp h
    obtain ⟨hd, hmd, hsub⟩ := hf done m d ht hm
    obtain ⟨hr, hnext, hsub'⟩ := foldlM_topo hf next d r hd h
    exact ⟨hr, List.forall_mem_cons.mpr ⟨hsub' hmd, hnext⟩, List.Subset.trans hsub hsub'⟩

/-- A fold that fails does so at one of its elements. -/
theorem foldlM_error {f : List N → N → Except ε (List N)} {e : ε} :
    ∀ (next done : List N), next.foldlM f done = .error e → ∃ d, ∃ m ∈ next, f d m = .error e
  | [], done, h => by cases h
  | m :: next, done, h => by
    obtain hm | ⟨d, -, h⟩ := bind_eq_error.mp h
    · exact ⟨done, m, List.mem_cons_self, hm⟩
    · obtain ⟨d', m', hm', he⟩ := foldlM_error next d h
      exact ⟨d', m', List.mem_cons_of_mem m hm', he⟩

/-! ## The search -/

variable [DecidableEq N] (succ) (c outOfFuel : ε)

/-- Visit `n` with the nodes `active` on the stack and `done` finished; returns
the finished nodes, latest first. -/
def visit : Nat → List N → List N → N → Except ε (List N)
  | 0, _, _, _ => .error outOfFuel
  | fuel + 1, active, done, n =>
    if n ∈ active then .error c
    else if n ∈ done then .ok done
    else do
      let next ← succ n
      let done' ← next.foldlM (fun d m => visit fuel (n :: active) d m) done
      .ok (n :: done')

variable {succ c outOfFuel}

theorem visit_succ {fuel : Nat} {active done : List N} {n : N} {r : List N}
    (h : visit succ c outOfFuel (fuel + 1) active done n = .ok r) :
    (n ∈ done ∧ r = done) ∨
      ∃ next done', succ n = .ok next ∧
        next.foldlM (fun d m => visit succ c outOfFuel fuel (n :: active) d m) done = .ok done' ∧
        n :: done' = r := by
  rw [visit] at h
  split at h
  · cases h
  split at h
  · next hd => exact Or.inl ⟨hd, (Except.ok.inj h).symm⟩
  · obtain ⟨next, hs, h⟩ := bind_eq_ok.mp h
    obtain ⟨done', hf, h⟩ := map_eq_ok.mp h
    exact Or.inr ⟨next, done', hs, hf, h⟩

/-- The finished nodes of a returning search are in order, with `n` among
them. -/
theorem visit_topo : ∀ (fuel : Nat) (active done : List N) (n : N) (r : List N),
    Topo succ done → visit succ c outOfFuel fuel active done n = .ok r →
    Topo succ r ∧ n ∈ r ∧ done ⊆ r
  | 0, _, _, _, _, _, h => by cases h
  | fuel + 1, active, done, n, r, ht, h => by
    obtain ⟨hd, rfl⟩ | ⟨next, done', hs, hf, rfl⟩ := visit_succ h
    · exact ⟨ht, hd, fun _ hx => hx⟩
    · obtain ⟨hd', hnext, hsub⟩ := foldlM_topo
        (fun d m r => visit_topo fuel (n :: active) d m r) next done done' ht hf
      exact ⟨⟨⟨next, hs, hnext⟩, hd'⟩, by simp, fun x hx => List.mem_cons_of_mem _ (hsub hx)⟩

/-- **A search that returns proves every path from its start finite**, in any
relation its successor queries cover. -/
theorem visit_acc {M : Type} {E : M → M → Prop} {f : N → M}
    (cover : ∀ a next, succ a = .ok next → ∀ b, E (f a) b → ∃ m ∈ next, f m = b)
    {fuel : Nat} {n : N} {r : List N} (h : visit succ c outOfFuel fuel [] [] n = .ok r) :
    Acc (fun b a => E a b) (f n) := by
  obtain ⟨ht, hn, _⟩ := visit_topo fuel [] [] n r trivial h
  exact ht.acc cover n hn

/-! ## A search that fails -/

/-- `b` is among the answered successors of `a`. -/
def Follows (succ : N → Except ε (List N)) (a b : N) : Prop := ∃ next, succ a = .ok next ∧ b ∈ next

variable {l : List N}

/-- **A search fails at a cycle or at a query.** Let `l` hold every node that can be met, and let
the fuel exceed its length. The stack holds distinct nodes, each with a path to the node visited, so
the fuel is never used up, and meeting a node of the stack again closes a path into a cycle. -/
theorem visit_error (hn : ∀ a b, Follows succ a b → b ∈ l) :
    ∀ (fuel : Nat) (active done : List N) (n : N) (e : ε), active.Nodup → active ⊆ l → n ∈ l →
      l.length < fuel + active.length → (∀ a ∈ active, TransGen (Follows succ) a n) →
      visit succ c outOfFuel fuel active done n = .error e →
      (e = c ∧ CycleFrom (Follows succ) n) ∨
        ∃ m, ReflTransGen (Follows succ) n m ∧ succ m = .error e
  | 0, active, _, _, _, hnd, hsub, _, hlt, _, _ => by
    have hle := (List.subperm_of_subset hnd hsub).length_le
    omega
  | fuel + 1, active, done, n, e, hnd, hsub, hmem, hlt, hpath, h => by
    rw [visit] at h
    split at h
    · next ha => exact .inl ⟨(Except.error.inj h).symm, n, .refl, hpath n ha⟩
    · next ha =>
      split at h
      · cases h
      · obtain hs | ⟨next, hs, h⟩ := bind_eq_error.mp h
        · exact .inr ⟨n, .refl, hs⟩
        · obtain hfold | ⟨_, _, ⟨⟩⟩ := bind_eq_error.mp h
          obtain ⟨d, m, hm, he⟩ := foldlM_error next done hfold
          have hstep : Follows succ n m := ⟨next, hs, hm⟩
          have hpath' : ∀ a ∈ n :: active, TransGen (Follows succ) a m :=
            List.forall_mem_cons.mpr ⟨.single hstep, fun a ha' => (hpath a ha').tail hstep⟩
          rcases visit_error hn fuel (n :: active) d m e (List.nodup_cons.mpr ⟨ha, hnd⟩)
              (List.cons_subset.mpr ⟨hmem, hsub⟩) (hn n m hstep)
              (by simp only [List.length_cons]; omega) hpath' he
              with ⟨hc, x, hx, hcyc⟩ | ⟨x, hx, hq⟩
          · exact .inl ⟨hc, x, .head hstep hx, hcyc⟩
          · exact .inr ⟨x, .head hstep hx, hq⟩

end Visit

end JobDB.Digraph
