import JobDB.Lib.Runs

/-!
# Versioned records

A record that several writers change carries a version. The version never goes down, and a
conditional write takes effect only at the version it expects, which it then leaves behind. So
of all the writes that expect one version at most one takes effect.

* `NotBelow v v'`: the version has not gone down; `none` is the version of a record that is not
  there yet.
* `Above g v`: the version is above `g`.
* `Along.eq_of_same_version`: along a run that never lowers the version, two events that happen
  at one version and leave it behind are the same event.
-/

namespace JobDB

variable {ι σ : Type}

/-- The version has not gone down. -/
def NotBelow (v v' : Option Int) : Prop := ∀ g, v = some g → ∃ g', v' = some g' ∧ g ≤ g'

/-- The version is above `g`. -/
def Above (g : Int) (v : Option Int) : Prop := ∃ g', v = some g' ∧ g < g'

theorem NotBelow.refl (v : Option Int) : NotBelow v v := fun g h => ⟨g, h, Int.le_refl g⟩

theorem NotBelow.trans {v₁ v₂ v₃ : Option Int} (h : NotBelow v₁ v₂) (h' : NotBelow v₂ v₃) :
    NotBelow v₁ v₃ := by
  intro g hg
  obtain ⟨g₂, hg₂, hle⟩ := h g hg
  obtain ⟨g₃, hg₃, hle'⟩ := h' g₂ hg₂
  exact ⟨g₃, hg₃, by omega⟩

theorem Above.notBelow {g : Int} {v v' : Option Int} (h : Above g v) (hv : NotBelow v v') :
    Above g v' := by
  obtain ⟨g₁, hg₁, hlt⟩ := h
  obtain ⟨g₂, hg₂, hle⟩ := hv g₁ hg₁
  exact ⟨g₂, hg₂, by omega⟩

theorem not_above_self {g : Int} {v : Option Int} (h : Above g v) : v ≠ some g := by
  rintro rfl
  obtain ⟨g', hg', hlt⟩ := h
  have := Option.some.inj hg'
  omega

namespace Along

variable {R : ι → σ → σ → Prop}

/-- A run can be cut anywhere. -/
theorem of_append {xs ys : List ι} {s s' : σ} (h : Along R (xs ++ ys) s s') :
    ∃ s₁, Along R xs s s₁ ∧ Along R ys s₁ s' := by
  induction xs generalizing s with
  | nil => exact ⟨s, .nil, h⟩
  | cons x xs ih =>
    cases h with
    | cons head tail =>
      obtain ⟨s₁, hxs, hys⟩ := ih tail
      exact ⟨s₁, .cons head hxs, hys⟩

variable {version : σ → Option Int} (mono : ∀ i s s', R i s s' → NotBelow (version s) (version s'))

include mono

theorem notBelow {is : List ι} {s s' : σ} (h : Along R is s s') :
    NotBelow (version s) (version s') :=
  h.within (Q := fun s s' => NotBelow (version s) (version s')) (fun _ => .refl _)
    (fun _ _ _ h₁ h₂ => h₁.trans h₂) fun i _ => mono i

/-- An event that leaves version `g` behind is followed by none that happens at `g`. -/
theorem not_mem_of_above {is : List ι} {s s' : σ} {g : Int} {a : ι}
    (ha : ∀ s s', R a s s' → version s = some g) (h : Along R is s s')
    (hs : Above g (version s)) : a ∉ is := by
  intro hmem
  obtain ⟨xs, ys, rfl⟩ := List.append_of_mem hmem
  obtain ⟨s₁, hxs, hys⟩ := h.of_append
  cases hys with
  | cons head _ => exact not_above_self (hs.notBelow (notBelow mono hxs)) (ha _ _ head)

/-- **At most one event at a version.** -/
theorem eq_of_same_version {is : List ι} {s s' : σ} {g : Int} {a b : ι}
    (ha : ∀ s s', R a s s' → version s = some g ∧ Above g (version s'))
    (hb : ∀ s s', R b s s' → version s = some g ∧ Above g (version s'))
    (h : Along R is s s') (hma : a ∈ is) (hmb : b ∈ is) : a = b := by
  obtain ⟨xs, ys, rfl⟩ := List.append_of_mem hma
  obtain ⟨s₁, hxs, hys⟩ := h.of_append
  rcases List.mem_append.1 hmb with hbx | hby
  · -- `b` comes first: it leaves the version behind at which `a` happens
    obtain ⟨us, vs, rfl⟩ := List.append_of_mem hbx
    obtain ⟨s₂, -, hvs⟩ := hxs.of_append
    cases hvs with
    | cons head tail =>
      have hall := tail.trans hys
      refine absurd ?_ (not_mem_of_above mono (fun _ _ hr => (ha _ _ hr).1) hall (hb _ _ head).2)
      exact List.mem_append_right _ (List.mem_cons_self ..)
  · rcases List.mem_cons.1 hby with rfl | hby
    · rfl
    · cases hys with
      | cons head tail =>
        exact absurd hby (not_mem_of_above mono (fun _ _ hr => (hb _ _ hr).1) tail (ha _ _ head).2)

end Along

end JobDB
