import Mathlib.Logic.Function.Basic

/-!
# Linked logs

A log that begins like another one need not be a copy: it can keep a link to its base, the
number of entries it has from there, and only the entries of its own. `Node` is a log kept
that way and a forest is a partial map from keys to nodes.

* `Shows F k ks xs`: read through its links, the log `k` is the list `xs`; `ks` are the bases
  on the way to a log without link.
* Logs begin empty, fork off others and grow at their end (`Grows.create`, `Whole.fork`,
  `Grows.append`). Whatever a log shows stays the beginning of what it shows; in particular a
  fork does not notice that its base grows.
* `Reaches F n k i j a`: the search for entry `i` of `k` ends at `j` after `n` links, with the
  entry `a`. `Shows.reaches` says that it finds what is shown within the number of bases.
-/

namespace JobDB.Linked

variable {K α : Type}

/-- A log: the base and how much of it belongs to the log, and the log's own entries. -/
structure Node (K α : Type) where
  link : Option (K × Nat)
  own : List α

/-- The position of the first entry of its own. -/
def Node.start (nd : Node K α) : Nat := (nd.link.map Prod.snd).getD 0

inductive Shows (F : K → Option (Node K α)) : K → List K → List α → Prop where
  | root {k : K} {own : List α} (node : F k = some ⟨none, own⟩) : Shows F k [] own
  | fork {k b : K} {n : Nat} {own : List α} {ks : List K} {xs : List α}
      (node : F k = some ⟨some (b, n), own⟩) (base : Shows F b ks xs) (within : n ≤ xs.length) :
      Shows F k (b :: ks) (xs.take n ++ own)

/-- Every log can be read. -/
def Whole (F : K → Option (Node K α)) : Prop :=
  ∀ k nd, F k = some nd → ∃ ks xs, Shows F k ks xs

/-- What a log shows stays the beginning of what it shows. -/
def Grows (F F' : K → Option (Node K α)) : Prop :=
  ∀ k ks xs, Shows F k ks xs → ∃ ys, Shows F' k ks (xs ++ ys)

variable {F F' : K → Option (Node K α)} {k b : K} {ks ks' : List K} {xs xs' : List α}

namespace Shows

theorem unique (h : Shows F k ks xs) : Shows F k ks' xs' → ks = ks' ∧ xs = xs' := by
  induction h generalizing ks' xs' with
  | root node =>
    intro h'
    cases h' with
    | root node' =>
      cases node.symm.trans node'
      exact ⟨rfl, rfl⟩
    | fork node' => cases node.symm.trans node'
  | fork node _ _ ih =>
    intro h'
    cases h' with
    | root node' => cases node.symm.trans node'
    | fork node' base' _ =>
      cases node.symm.trans node'
      obtain ⟨rfl, rfl⟩ := ih base'
      exact ⟨rfl, rfl⟩

theorem length_eq {nd : Node K α} (h : Shows F k ks xs) (hnd : F k = some nd) :
    xs.length = nd.start + nd.own.length := by
  cases h with
  | root node =>
    cases node.symm.trans hnd
    simp [Node.start]
  | fork node _ within =>
    cases node.symm.trans hnd
    simp only [List.length_append, List.length_take, Node.start, Option.map_some, Option.getD_some]
    omega

end Shows

namespace Grows

theorem refl (F : K → Option (Node K α)) : Grows F F := fun _ _ xs h => ⟨[], by simpa using h⟩

end Grows

/-! ## How a forest changes -/

section Change

variable [DecidableEq K]

/-- A key that is not in use is on nobody's way. -/
theorem Shows.update_fresh (nd : Node K α) (hk : F k = none) {j : K} (h : Shows F j ks xs) :
    Shows (Function.update F k (some nd)) j ks xs := by
  have hne {l : K} {m : Node K α} (hl : F l = some m) : l ≠ k := by
    rintro rfl
    cases hk.symm.trans hl
  induction h with
  | root node => exact .root (by rw [Function.update_of_ne (hne node), node])
  | fork node _ within ih =>
    exact .fork (by rw [Function.update_of_ne (hne node), node]) ih within

/-- The log `k` gets one more entry: the others show what they showed. -/
theorem Shows.update_append {link : Option (K × Nat)} {own : List α} (a : α)
    (hk : F k = some ⟨link, own⟩) {j : K} (h : Shows F j ks xs) :
    Shows (Function.update F k (some ⟨link, own ++ [a]⟩)) j ks (xs ++ if j = k then [a]
      else []) := by
  induction h with
  | @root j own' node =>
    by_cases hj : j = k
    · subst hj
      cases hk.symm.trans node
      rw [if_pos rfl]
      exact .root (Function.update_self ..)
    · rw [if_neg hj, List.append_nil]
      exact .root (by rw [Function.update_of_ne hj, node])
  | @fork j b n own' ks xs node base within ih =>
    -- the fork lies within what the base showed, so its own growth is past it
    have htake (ys : List α) : (xs ++ ys).take n = xs.take n := List.take_append_of_le_length within
    have hwithin (ys : List α) : n ≤ (xs ++ ys).length := by
      rw [List.length_append]
      omega
    by_cases hj : j = k
    · subst hj
      cases hk.symm.trans node
      rw [if_pos rfl, List.append_assoc, ← htake]
      exact .fork (Function.update_self ..) ih (hwithin _)
    · rw [if_neg hj, List.append_nil, ← htake]
      exact .fork (by rw [Function.update_of_ne hj, node]) ih (hwithin _)

namespace Grows

/-- A new log. -/
theorem create (nd : Node K α) (hk : F k = none) : Grows F (Function.update F k (some nd)) :=
  fun _ _ _ h => ⟨[], by rw [List.append_nil]; exact h.update_fresh nd hk⟩

theorem append {link : Option (K × Nat)} {own : List α} (a : α) (hk : F k = some ⟨link, own⟩) :
    Grows F (Function.update F k (some ⟨link, own ++ [a]⟩)) :=
  fun _ _ _ h => ⟨_, h.update_append a hk⟩

end Grows

namespace Whole

/-- A new log that can be read. -/
theorem insert (hF : Whole F) (hk : F k = none) {nd : Node K α}
    (hs : Shows (Function.update F k (some nd)) k ks xs) :
    Whole (Function.update F k (some nd)) := by
  intro j nd' hj
  by_cases hjk : j = k
  · subst hjk
    exact ⟨ks, xs, hs⟩
  · rw [Function.update_of_ne hjk] at hj
    obtain ⟨ks, xs, h⟩ := hF j nd' hj
    exact ⟨ks, xs, h.update_fresh _ hk⟩

theorem create (hF : Whole F) (hk : F k = none) : Whole (Function.update F k (some ⟨none, []⟩)) :=
  hF.insert hk (.root (Function.update_self ..))

theorem fork (hF : Whole F) (hk : F k = none) (hb : Shows F b ks xs) {n : Nat}
    (hn : n ≤ xs.length) : Whole (Function.update F k (some ⟨some (b, n), []⟩)) :=
  hF.insert hk (.fork (Function.update_self ..) (hb.update_fresh _ hk) hn)

theorem append (hF : Whole F) {link : Option (K × Nat)} {own : List α} (a : α)
    (hk : F k = some ⟨link, own⟩) : Whole (Function.update F k (some ⟨link, own ++ [a]⟩)) := by
  intro j nd hj
  have hj₀ : ∃ nd₀, F j = some nd₀ := by
    by_cases hjk : j = k
    · subst hjk
      exact ⟨_, hk⟩
    · rw [Function.update_of_ne hjk] at hj
      exact ⟨nd, hj⟩
  obtain ⟨nd₀, hj₀⟩ := hj₀
  obtain ⟨ks, xs, h⟩ := hF j nd₀ hj₀
  exact ⟨ks, _, h.update_append a hk⟩

end Whole

end Change

/-! ## Finding an entry -/

/-- Past the entries of its base a log shows its own. -/
theorem Shows.getElem?_own (h : Shows F k ks xs) {nd : Node K α} (hnd : F k = some nd) {i : Nat}
    {a : α} (hi : nd.start ≤ i) (ha : xs[i]? = some a) : nd.own[i - nd.start]? = some a := by
  cases h with
  | root node =>
    cases node.symm.trans hnd
    exact ha
  | @fork _ b n own ks xs node base within =>
    cases node.symm.trans hnd
    have hlen : (xs.take n).length = n := by
      rw [List.length_take]
      omega
    have hle : n ≤ i := hi
    rw [List.getElem?_append_right (by omega), hlen] at ha
    exact ha

inductive Reaches (F : K → Option (Node K α)) : Nat → K → Nat → K → α → Prop where
  | own {k : K} {nd : Node K α} {i : Nat} {a : α} (node : F k = some nd) (after : nd.start ≤ i)
      (entry : nd.own[i - nd.start]? = some a) : Reaches F 0 k i k a
  | base {n : Nat} {k b j : K} {m i : Nat} {own : List α} {a : α}
      (node : F k = some ⟨some (b, m), own⟩) (before : i < m) (rest : Reaches F n b i j a) :
      Reaches F (n + 1) k i j a

theorem Reaches.node {n i : Nat} {j : K} {a : α} (h : Reaches F n k i j a) :
    ∃ nd, F k = some nd := by
  cases h with
  | own node => exact ⟨_, node⟩
  | base node => exact ⟨_, node⟩

theorem Shows.reaches (h : Shows F k ks xs) {i : Nat} {a : α} (hi : xs[i]? = some a) :
    ∃ n j, n ≤ ks.length ∧ Reaches F n k i j a := by
  induction h with
  | @root k own node =>
    exact ⟨0, k, Nat.le_refl _, .own node (Nat.zero_le i) hi⟩
  | @fork k b n own ks xs node base within ih =>
    have hlen : (xs.take n).length = n := by
      rw [List.length_take]
      omega
    by_cases hin : i < n
    · rw [List.getElem?_append_left (by omega), List.getElem?_take_of_lt hin] at hi
      obtain ⟨m, j, hm, hr⟩ := ih hi
      exact ⟨m + 1, j, Nat.succ_le_succ hm, .base node hin hr⟩
    · rw [List.getElem?_append_right (by omega), hlen] at hi
      exact ⟨0, k, Nat.zero_le _, .own node (by simpa [Node.start] using hin) hi⟩

end JobDB.Linked
