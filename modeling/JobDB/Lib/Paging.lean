import Mathlib.Data.List.Sort
import Mathlib.Data.List.Perm.Basic
import Mathlib.Order.Defs.LinearOrder

/-!
# Paging by position

A listing is handed out page by page. Every row has a position in a linear order, a page
holds the first rows in descending order of position, and a page that is not the last one
comes with a cursor: the position from which the next page goes on, strictly below it. The
cursor is made from the position of the page's last row (`resume`), and need not be that
position: a token may lose part of it, or not be made at all.

The rows are scanned anew for every page, in an order of their own (`scan`), so rows with one
position may change places from page to page.

* `walk` follows the cursors from page to page;
* `Parted` says that at every page boundary the next row lies below the cursor;
* `walk_complete_iff`: the walk ends, and it hands out every row exactly once if and only if
  the listing is parted.
-/

namespace JobDB.Paging

open scoped List

variable {α κ : Type} [LinearOrder κ] (pos : α → κ) (resume : κ → Option κ)

/-- The row is still to come after the cursor. -/
def after (cursor : Option κ) (x : α) : Bool := cursor.all fun c => pos x < c

/-- The rows in listed order. -/
def listed (rows : List α) : List α := rows.insertionSort fun x y => pos y ≤ pos x

/-- What is left of the listing after the cursor. -/
def remaining (rows : List α) (cursor : Option κ) : List α :=
  listed pos (rows.filter (after pos cursor))

/-- A page of `n` rows, and the cursor for the next one if there is more. -/
def page (n : Nat) (rows : List α) (cursor : Option κ) : List α × Option κ :=
  ((remaining pos rows cursor).take n,
    if n < (remaining pos rows cursor).length then
      (((remaining pos rows cursor).take n).getLast?).bind fun x => resume (pos x)
    else none)

/-- The pages from the cursor on, `fuel` of them at most; call number `i` scans `scan i`. -/
def walk (n : Nat) (scan : Nat → List α) : Nat → Nat → Option κ → Option (List (List α))
  | 0, _, _ => none
  | fuel + 1, i, cursor =>
    match (page pos resume n (scan i) cursor).2 with
    | none => some [(page pos resume n (scan i) cursor).1]
    | some c =>
      (walk n scan fuel (i + 1) (some c)).map ((page pos resume n (scan i) cursor).1 :: ·)

/-- At every boundary of pages of `n` rows the cursor is made and the next position lies
below it. -/
def Parted (n : Nat) (positions : List κ) : Prop :=
  ∀ q x y, positions[(q + 1) * n - 1]? = some x → positions[(q + 1) * n]? = some y →
    ∃ c, resume x = some c ∧ y < c

/-! ## Listed rows -/

/-- A sort whose comparison is that of the positions. -/
theorem insertionSort_eq_listed {r : α → α → Prop} [DecidableRel r]
    (h : ∀ x y, r x y ↔ pos y ≤ pos x) (rows : List α) :
    rows.insertionSort r = listed pos rows := by
  have hrel : r = fun x y => pos y ≤ pos x := by
    funext x y
    exact propext (h x y)
  unfold listed
  congr

theorem listed_perm (rows : List α) : listed pos rows ~ rows :=
  List.perm_insertionSort ..

theorem listed_sorted (rows : List α) : (listed pos rows).Pairwise fun x y => pos y ≤ pos x := by
  have htotal : Std.Total fun x y : α => pos y ≤ pos x := ⟨fun x y => le_total (pos y) (pos x)⟩
  have htrans : IsTrans α fun x y => pos y ≤ pos x := ⟨fun _ _ _ h₁ h₂ => le_trans h₂ h₁⟩
  exact List.pairwise_insertionSort ..

/-- Rows that are listed in order show the same positions whichever order they are scanned in. -/
theorem map_pos_eq {l l' : List α} (h : l ~ l') (hl : l.Pairwise fun x y => pos y ≤ pos x)
    (hl' : l'.Pairwise fun x y => pos y ≤ pos x) : l.map pos = l'.map pos :=
  (h.map pos).eq_of_pairwise (fun _ _ _ _ hab hba => le_antisymm hba hab)
    (List.pairwise_map.2 hl) (List.pairwise_map.2 hl')

theorem mem_remaining {rows : List α} {cursor : Option κ} {x : α} :
    x ∈ remaining pos rows cursor ↔ x ∈ rows ∧ after pos cursor x = true := by
  unfold remaining
  rw [(listed_perm pos _).mem_iff, List.mem_filter]

theorem remaining_sorted (rows : List α) (cursor : Option κ) :
    (remaining pos rows cursor).Pairwise fun x y => pos y ≤ pos x :=
  listed_sorted pos _

theorem remaining_none (rows : List α) : remaining pos rows none = listed pos rows := by
  have hall : rows.filter (after pos none) = rows := List.filter_eq_self.2 fun _ _ => rfl
  unfold remaining
  rw [hall]

/-! ## Page boundaries -/

section Boundary

variable {pos resume} {n : Nat}

theorem parted_of_length_le {positions : List κ} (h : positions.length ≤ n) :
    Parted resume n positions := by
  intro q x y _ hy
  have hlt : (q + 1) * n < positions.length := (List.getElem?_eq_some_iff.1 hy).1
  have hle : n ≤ (q + 1) * n := Nat.le_mul_of_pos_left n (Nat.succ_pos q)
  omega

/-- Where no two rows share a position and no token loses one, every boundary parts the listing,
whatever the size of a page. -/
theorem parted_of_distinct {positions : List κ} (hstrict : positions.Pairwise fun x y => y < x)
    (hresume : ∀ p ∈ positions, resume p = some p) (hn : 0 < n) : Parted resume n positions := by
  intro q x y hx hy
  refine ⟨x, hresume x (List.mem_of_getElem? hx), ?_⟩
  obtain ⟨hxlt, rfl⟩ := List.getElem?_eq_some_iff.1 hx
  obtain ⟨hylt, rfl⟩ := List.getElem?_eq_some_iff.1 hy
  have hpos : 0 < (q + 1) * n := Nat.mul_pos (Nat.succ_pos q) hn
  exact List.pairwise_iff_getElem.1 hstrict _ _ hxlt hylt (by omega)

/-- A listing whose rows have different positions, none of which a token loses, is parted. -/
theorem parted_listed_of_nodup {rows : List α} (hnodup : (rows.map pos).Nodup)
    (hresume : ∀ x ∈ rows, resume (pos x) = some (pos x)) (hn : 0 < n) :
    Parted resume n ((listed pos rows).map pos) := by
  have hperm : (listed pos rows).map pos ~ rows.map pos := (listed_perm pos rows).map pos
  have hsorted : ((listed pos rows).map pos).Pairwise fun x y => y ≤ x :=
    List.pairwise_map.2 (listed_sorted pos rows)
  refine parted_of_distinct ?_ ?_ hn
  · refine (hsorted.and (hperm.nodup_iff.2 hnodup)).imp fun {x y} hxy => ?_
    exact lt_of_le_of_ne hxy.1 (Ne.symm hxy.2)
  · intro p hp
    obtain ⟨x, hx, rfl⟩ := List.mem_map.1 (hperm.mem_iff.1 hp)
    exact hresume x hx

/-- The first boundary, and the boundaries after it. -/
theorem parted_iff_drop (hn : 0 < n) {positions : List κ} {x y : κ}
    (hx : positions[n - 1]? = some x) (hy : positions[n]? = some y) :
    Parted resume n positions ↔
      (∃ c, resume x = some c ∧ y < c) ∧ Parted resume n (positions.drop n) := by
  have hlast : ∀ q, n + ((q + 1) * n - 1) = (q + 1 + 1) * n - 1 := by
    intro q
    have hpos : 0 < (q + 1) * n := Nat.mul_pos (Nat.succ_pos q) hn
    rw [Nat.succ_mul (q + 1)]
    omega
  have hfirst : ∀ q, n + (q + 1) * n = (q + 1 + 1) * n := by
    intro q
    rw [Nat.succ_mul (q + 1), Nat.add_comm]
  constructor
  · intro h
    refine ⟨h 0 x y (by simpa using hx) (by simpa using hy), ?_⟩
    intro q x' y' hx' hy'
    rw [List.getElem?_drop] at hx' hy'
    exact h (q + 1) x' y' (hlast q ▸ hx') (hfirst q ▸ hy')
  · rintro ⟨hhead, htail⟩ q x' y' hx' hy'
    cases q with
    | zero =>
      obtain rfl : x = x' := by simpa [hx] using hx'
      obtain rfl : y = y' := by simpa [hy] using hy'
      exact hhead
    | succ q =>
      exact htail q x' y' (by rw [List.getElem?_drop, hlast]; exact hx')
        (by rw [List.getElem?_drop, hfirst]; exact hy')

/-- Nothing of a page comes again: the rows after its cursor are the later ones, and of these
the ones below the cursor. -/
theorem remaining_next {rows rows' : List α} (hrows : rows ~ rows') {cursor : Option κ} {x : α}
    (hx : (remaining pos rows cursor)[n - 1]? = some x) {c : κ} (hc : c ≤ pos x) :
    remaining pos rows' (some c) ~
      ((remaining pos rows cursor).drop n).filter (after pos (some c)) := by
  have hmem : x ∈ remaining pos rows cursor := List.mem_of_getElem? hx
  have hcursor : ∀ y, after pos (some c) y = true → after pos cursor y = true := by
    intro y hy
    have hyc : pos y < c := by simpa [after] using hy
    cases cursor with
    | none => rfl
    | some d =>
      have hxd : pos x < d := by simpa [after] using ((mem_remaining pos).1 hmem).2
      exact decide_eq_true (lt_trans (lt_of_lt_of_le hyc hc) hxd)
  -- The rows of the page lie at or above the cursor.
  have hpage : ((remaining pos rows cursor).take n).filter (after pos (some c)) = [] := by
    refine List.filter_eq_nil_iff.2 fun y hy hafter => ?_
    have hyc : pos y < c := by simpa [after] using hafter
    have hyx : pos x ≤ pos y := by
      obtain ⟨i, hi, rfl⟩ := List.getElem_of_mem hy
      rw [List.length_take] at hi
      obtain ⟨hlt, hxi⟩ := List.getElem?_eq_some_iff.1 hx
      rw [List.getElem_take]
      by_cases heq : i = n - 1
      · subst heq
        exact le_of_eq (congrArg pos hxi.symm)
      · rw [← hxi]
        exact List.pairwise_iff_getElem.1 (remaining_sorted pos rows cursor) i (n - 1)
          (by omega) hlt
          (by omega)
    exact absurd (lt_of_lt_of_le hyc hc) (not_lt.2 hyx)
  calc remaining pos rows' (some c) ~ rows'.filter (after pos (some c)) := listed_perm pos _
    _ ~ rows.filter (after pos (some c)) := (hrows.filter _).symm
    _ ~ (rows.filter (after pos cursor)).filter (after pos (some c)) := by
      rw [List.filter_filter]
      refine List.Perm.of_eq (List.filter_congr fun y _ => ?_)
      cases hy : after pos (some c) y with
      | false => rfl
      | true => rw [hcursor y hy]; rfl
    _ ~ (remaining pos rows cursor).filter (after pos (some c)) :=
      ((listed_perm pos _).filter _).symm
    _ ~ ((remaining pos rows cursor).drop n).filter (after pos (some c)) := by
      conv_lhs => rw [← List.take_append_drop n (remaining pos rows cursor), List.filter_append,
        hpage]
      exact List.Perm.refl _

/-- In a sorted list the rows from `y` on lie below the cursor exactly if `y` does. -/
theorem filter_drop_eq_iff {l : List α} (hl : l.Pairwise fun x y => pos y ≤ pos x) {y : α}
    (hy : l[n]? = some y) (c : κ) :
    (l.drop n).filter (after pos (some c)) = l.drop n ↔ pos y < c := by
  obtain ⟨hlt, rfl⟩ := List.getElem?_eq_some_iff.1 hy
  have hdrop : l.drop n = l[n] :: l.drop (n + 1) := List.drop_eq_getElem_cons hlt
  rw [List.filter_eq_self]
  constructor
  · intro h
    have hafter := h l[n] (by rw [hdrop]; exact List.mem_cons_self)
    simpa [after] using hafter
  · intro hc z hz
    have hle : pos z ≤ pos l[n] := by
      rw [hdrop, List.mem_cons] at hz
      obtain rfl | hz := hz
      · exact le_refl _
      · have hsorted : (l.drop n).Pairwise fun x y => pos y ≤ pos x := hl.drop
        rw [hdrop] at hsorted
        exact List.rel_of_pairwise_cons hsorted hz
    exact decide_eq_true (lt_of_le_of_lt hle hc)

end Boundary

/-! ## The walk -/

section Walk

variable {pos resume} {n : Nat} {rows : List α} {scan : Nat → List α}

/-- The page is the last one, or its cursor is the one made from its last row. -/
theorem page_cases (hn : 0 < n) (l : List α) (cursor : Option κ) :
    (remaining pos l cursor).length ≤ n ∧
        page pos resume n l cursor = (remaining pos l cursor, none) ∨
      ∃ x y, (remaining pos l cursor)[n - 1]? = some x ∧ (remaining pos l cursor)[n]? = some y ∧
        page pos resume n l cursor = ((remaining pos l cursor).take n, resume (pos x)) := by
  by_cases hlen : n < (remaining pos l cursor).length
  · right
    refine ⟨(remaining pos l cursor)[n - 1], (remaining pos l cursor)[n],
      List.getElem?_eq_getElem (by omega), List.getElem?_eq_getElem hlen, ?_⟩
    have hlast : ((remaining pos l cursor).take n).getLast? =
        some (remaining pos l cursor)[n - 1] := by
      rw [List.getLast?_eq_getElem?, List.length_take, Nat.min_eq_left (le_of_lt hlen),
        List.getElem?_take_of_lt (by omega), List.getElem?_eq_getElem (by omega)]
    unfold page
    rw [if_pos hlen, hlast]
    rfl
  · left
    have hle : (remaining pos l cursor).length ≤ n := Nat.le_of_not_lt hlen
    refine ⟨hle, ?_⟩
    unfold page
    rw [if_neg hlen, List.take_of_length_le hle]

/-- What a page and the walk after it hand out of a sorted listing `l`, when the walk after
it hands out rows below the cursor. -/
theorem handed_out {l next handed : List α} (hl : l.Pairwise fun x y => pos y ≤ pos x) {c : κ}
    (hnext : next ~ (l.drop n).filter (after pos (some c))) (hsub : handed <+~ next)
    (hsorted : handed.Pairwise fun x y => pos y ≤ pos x) :
    l.take n ++ handed <+~ l ∧ (l.take n ++ handed).Pairwise fun x y => pos y ≤ pos x := by
  have hrest : handed <+~ l.drop n := (hsub.trans hnext.subperm).trans List.filter_sublist.subperm
  constructor
  · have happend : l.take n ++ handed <+~ l.take n ++ l.drop n :=
      (List.subperm_append_left _).2 hrest
    rwa [List.take_append_drop] at happend
  · have happend : (l.take n ++ l.drop n).Pairwise fun x y => pos y ≤ pos x := by
      rw [List.take_append_drop]
      exact hl
    obtain ⟨htake, -, hcross⟩ := List.pairwise_append.1 happend
    exact List.pairwise_append.2
      ⟨htake, hsorted, fun x hx y hy => hcross x hx y (hrest.subset hy)⟩

/-- All rows are handed out exactly if the next row lies below the cursor and the walk after
the page hands out all that is left for it. -/
theorem handed_out_all {l next handed : List α} (hl : l.Pairwise fun x y => pos y ≤ pos x) {y : α}
    (hy : l[n]? = some y) {c : κ} (hnext : next ~ (l.drop n).filter (after pos (some c)))
    (hsub : handed <+~ next) :
    (l.take n ++ handed).length = l.length ↔ pos y < c ∧ handed.length = next.length := by
  have hlt : n < l.length := (List.getElem?_eq_some_iff.1 hy).1
  have hhanded : handed.length ≤ next.length := hsub.length_le
  have hfilter : ((l.drop n).filter (after pos (some c))).length ≤ (l.drop n).length :=
    List.length_filter_le _ _
  have hdrop : (l.drop n).length = l.length - n := List.length_drop
  have htake : (l.take n ++ handed).length = n + handed.length := by
    rw [List.length_append, List.length_take, Nat.min_eq_left (le_of_lt hlt)]
  rw [← filter_drop_eq_iff hl hy c, htake, hnext.length_eq, ← List.filter_sublist.length_eq]
  rw [hnext.length_eq] at hhanded
  omega

/-- The walk ends; it hands out rows of the listing, none of them twice and in listed order,
and all of them exactly if the listing is parted. -/
theorem walk_spec (hn : 0 < n) (hscan : ∀ i, scan i ~ rows)
    (hresume : ∀ x ∈ rows, ∀ c, resume (pos x) = some c → c ≤ pos x) :
    ∀ fuel i cursor, (remaining pos (scan i) cursor).length < fuel →
      ∃ pages, walk pos resume n scan fuel i cursor = some pages ∧
        pages.flatten <+~ remaining pos (scan i) cursor ∧
        pages.flatten.Pairwise (fun x y => pos y ≤ pos x) ∧
        (pages.flatten.length = (remaining pos (scan i) cursor).length ↔
          Parted resume n ((remaining pos (scan i) cursor).map pos)) := by
  intro fuel
  -- Every page that is not the last one leaves fewer rows to come.
  induction fuel with
  | zero => intro i cursor h; omega
  | succ fuel ih =>
    intro i cursor hfuel
    have hl := remaining_sorted pos (scan i) cursor
    have hcases := @page_cases _ _ _ pos resume n hn (scan i) cursor
    obtain ⟨hlen, hpage⟩ | ⟨x, y, hx, hy, hpage⟩ := hcases
    · refine ⟨[remaining pos (scan i) cursor], by simp only [walk, hpage], ?_, ?_, ?_⟩
      · simp only [List.flatten_cons, List.flatten_nil, List.append_nil]
        exact List.Subperm.refl _
      · simpa using hl
      · simpa using parted_of_length_le (by simpa using hlen)
    · have hylen : n < (remaining pos (scan i) cursor).length :=
        (List.getElem?_eq_some_iff.1 hy).1
      have hparted : Parted resume n ((remaining pos (scan i) cursor).map pos) ↔
          (∃ c, resume (pos x) = some c ∧ pos y < c) ∧
            Parted resume n (((remaining pos (scan i) cursor).map pos).drop n) :=
        parted_iff_drop hn (by simp [hx]) (by simp [hy])
      cases hc : resume (pos x) with
      | none =>
        -- No cursor can be made, and the walk ends too early.
        rw [hc] at hpage hparted
        refine ⟨[(remaining pos (scan i) cursor).take n], by simp only [walk, hpage], ?_, ?_, ?_⟩
        · simp only [List.flatten_cons, List.flatten_nil, List.append_nil]
          exact (List.take_sublist n _).subperm
        · simpa using hl.take
        · rw [hparted]
          simp only [List.flatten_cons, List.flatten_nil, List.append_nil, List.length_take,
            reduceCtorEq, false_and, exists_false, iff_false]
          omega
      | some c =>
        rw [hc] at hpage hparted
        have hxrows : x ∈ rows :=
          (hscan i).mem_iff.1 ((mem_remaining pos).1 (List.mem_of_getElem? hx)).1
        have hnext :=
          remaining_next ((hscan i).trans (hscan (i + 1)).symm) hx (hresume x hxrows c hc)
        have hshort : (remaining pos (scan (i + 1)) (some c)).length ≤
            (remaining pos (scan i) cursor).length - n := by
          rw [hnext.length_eq, ← List.length_drop]
          exact List.length_filter_le _ _
        obtain ⟨pages, hwalk, hsub, hsorted, hiff⟩ := ih (i + 1) (some c) (by omega)
        obtain ⟨hsub', hsorted'⟩ := handed_out hl hnext hsub hsorted
        refine ⟨(remaining pos (scan i) cursor).take n :: pages,
          by simp only [walk, hpage, hwalk, Option.map_some], hsub', hsorted', ?_⟩
        rw [List.flatten_cons, handed_out_all hl hy hnext hsub, hiff, hparted]
        simp only [Option.some.injEq, exists_eq_left']
        -- Below the cursor the next pages see the same positions.
        refine and_congr_right fun hyc => ?_
        rw [(filter_drop_eq_iff hl hy c).2 hyc] at hnext
        rw [map_pos_eq pos hnext (remaining_sorted pos _ _) hl.drop, List.map_drop]

/-- Following the cursors from the first page on ends, and it hands out every row exactly once
if and only if the listing is parted. What it hands out is in listed order. -/
theorem walk_complete_iff (hn : 0 < n) (hscan : ∀ i, scan i ~ rows)
    (hresume : ∀ x ∈ rows, ∀ c, resume (pos x) = some c → c ≤ pos x) {fuel : Nat}
    (hfuel : rows.length < fuel) :
    ∃ pages, walk pos resume n scan fuel 0 none = some pages ∧
      pages.flatten.Pairwise (fun x y => pos y ≤ pos x) ∧
      (pages.flatten ~ rows ↔ Parted resume n ((listed pos rows).map pos)) ∧
      (pages.flatten.length = rows.length ↔ pages.flatten ~ rows) := by
  have hperm : remaining pos (scan 0) none ~ rows := by
    rw [remaining_none]
    exact (listed_perm pos _).trans (hscan 0)
  have hpositions : (remaining pos (scan 0) none).map pos = (listed pos rows).map pos :=
    map_pos_eq pos (hperm.trans (listed_perm pos rows).symm) (remaining_sorted pos _ _)
      (listed_sorted pos rows)
  obtain ⟨pages, hwalk, hsub, hsorted, hiff⟩ := walk_spec hn hscan hresume fuel 0 none
    (by rw [hperm.length_eq]; exact hfuel)
  have hlength : pages.flatten.length = rows.length ↔ pages.flatten ~ rows := by
    constructor
    · intro h
      refine (hsub.perm_of_length_le ?_).trans hperm
      rw [h, hperm.length_eq]
    · exact List.Perm.length_eq
  refine ⟨pages, hwalk, hsorted, ?_, hlength⟩
  rw [← hlength, ← hpositions, ← hiff, hperm.length_eq]

end Walk

end JobDB.Paging
