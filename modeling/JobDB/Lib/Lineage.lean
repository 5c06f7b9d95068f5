import Mathlib.Data.List.Basic

/-!
# Lineages

Things come into being one after the other, some as the continuation of an earlier one.
Each is a `Link` with its key and the key of the one it continues; keys fall into groups,
and a continuation stays in the group.

`Lineage` says that nothing has two continuations and that at most one member of each
group is not continued. It is kept when a group begins (`Lineage.root`) and when a link
continues something that was not continued before, or is the same continuation once more
(`Lineage.extend`).
-/

namespace JobDB

variable {K G : Type}

structure Link (K : Type) where
  key : K
  prev : Option K

/-- Something continues `k`. -/
def Continued (ls : List (Link K)) (k : K) : Prop := ∃ l ∈ ls, l.prev = some k

structure Lineage (group : K → G) (ls : List (Link K)) : Prop where
  single : ∀ x ∈ ls, ∀ y ∈ ls, ∀ k, x.prev = some k → y.prev = some k → x.key = y.key
  tip : ∀ x ∈ ls, ∀ y ∈ ls, group x.key = group y.key → ¬ Continued ls x.key →
    ¬ Continued ls y.key → x.key = y.key

variable {group : K → G} {ls : List (Link K)} {x : Link K} {k : K}

theorem continued_concat : Continued (ls ++ [x]) k ↔ Continued ls k ∨ x.prev = some k := by
  unfold Continued
  constructor
  · rintro ⟨l, hl, hp⟩
    obtain hl | hl := List.mem_append.1 hl
    · exact .inl ⟨l, hl, hp⟩
    · rw [List.mem_singleton.1 hl] at hp
      exact .inr hp
  · rintro (⟨l, hl, hp⟩ | hp)
    · exact ⟨l, List.mem_append_left _ hl, hp⟩
    · exact ⟨x, List.mem_append_right _ (List.mem_singleton.2 rfl), hp⟩

theorem Continued.concat (h : Continued ls k) : Continued (ls ++ [x]) k :=
  continued_concat.2 (.inl h)

namespace Lineage

theorem nil : Lineage group ([] : List (Link K)) :=
  ⟨fun _ h => absurd h (List.not_mem_nil), fun _ h => absurd h (List.not_mem_nil)⟩

theorem tip_concat (h : Lineage group ls)
    (hother : ∀ l ∈ ls, ¬ Continued (ls ++ [x]) l.key → group l.key ≠ group x.key) :
    ∀ u ∈ ls ++ [x], ∀ v ∈ ls ++ [x], group u.key = group v.key → ¬ Continued (ls ++ [x]) u.key →
      ¬ Continued (ls ++ [x]) v.key → u.key = v.key := by
  intro u hu v hv hg hcu hcv
  obtain hu | hu := List.mem_append.1 hu <;> obtain hv | hv := List.mem_append.1 hv
  · exact h.tip u hu v hv hg (mt .concat hcu) (mt .concat hcv)
  · rw [List.mem_singleton.1 hv] at hg
    exact absurd hg (hother u hu hcu)
  · rw [List.mem_singleton.1 hu] at hg
    exact absurd hg.symm (hother v hv hcv)
  · rw [List.mem_singleton.1 hu, List.mem_singleton.1 hv]

/-- A new group. -/
theorem root (h : Lineage group ls) (hx : x.prev = none)
    (hnew : ∀ y ∈ ls, group y.key ≠ group x.key) : Lineage group (ls ++ [x]) where
  single u hu v hv k hpu hpv := by
    have hold (l : Link K) (hl : l ∈ ls ++ [x]) (hp : l.prev = some k) : l ∈ ls := by
      obtain hl | hl := List.mem_append.1 hl
      · exact hl
      · rw [List.mem_singleton.1 hl, hx] at hp
        cases hp
    exact h.single u (hold u hu hpu) v (hold v hv hpv) k hpu hpv
  tip := h.tip_concat fun y hy _ => hnew y hy

/-- A continuation within the group, the only one of what it continues. -/
theorem extend (h : Lineage group ls) (hx : x.prev = some k) (hk : ∃ y ∈ ls, y.key = k)
    (hg : group x.key = group k) (hone : ∀ y ∈ ls, y.prev = some k → y.key = x.key) :
    Lineage group (ls ++ [x]) where
  single u hu v hv k' hpu hpv := by
    obtain hu' | hu' := List.mem_append.1 hu <;> obtain hv' | hv' := List.mem_append.1 hv
    · exact h.single u hu' v hv' k' hpu hpv
    · obtain rfl := List.mem_singleton.1 hv'
      obtain rfl : k = k' := Option.some.inj (hx.symm.trans hpv)
      exact hone u hu' hpu
    · obtain rfl := List.mem_singleton.1 hu'
      obtain rfl : k = k' := Option.some.inj (hx.symm.trans hpu)
      exact (hone v hv' hpv).symm
    · rw [List.mem_singleton.1 hu', List.mem_singleton.1 hv']
  tip u hu v hv hguv hcu hcv := by
    by_cases hold : Continued ls k
    · -- `k` was continued before, by a link with the same key
      obtain ⟨z, hz, hzp⟩ := hold
      have hrep (l : Link K) (hl : l ∈ ls ++ [x]) : ∃ l' ∈ ls, l'.key = l.key := by
        obtain hl | hl := List.mem_append.1 hl
        · exact ⟨l, hl, rfl⟩
        · rw [List.mem_singleton.1 hl]
          exact ⟨z, hz, hone z hz hzp⟩
      obtain ⟨u', hu', hku⟩ := hrep u hu
      obtain ⟨v', hv', hkv⟩ := hrep v hv
      rw [← hku, ← hkv] at hguv ⊢
      exact h.tip u' hu' v' hv' hguv (hku ▸ mt .concat hcu) (hkv ▸ mt .concat hcv)
    · -- `k` was the end of its group and no other member is one
      obtain ⟨y, hy, hyk⟩ := hk
      refine h.tip_concat (fun l hl hc hgl => ?_) u hu v hv hguv hcu hcv
      have hlk : l.key = y.key :=
        h.tip l hl y hy (hyk ▸ hgl.trans hg) (mt .concat hc) (hyk ▸ hold)
      exact hc (continued_concat.2 (.inr (by rw [hlk, hyk]; exact hx)))

end Lineage

end JobDB
