import JobDB.Cell.Names
import Mathlib.Data.List.TakeWhile

/-!
# Repositories and their normal forms

`unique` compares repositories by the text that `NormalizeCellRepo` returned for them. That two
cells cannot have the same repository then needs the normal form of a normal form to be itself.

It is not: `NormalizeCellRepo` takes one `.git` off the path, so `h/foo.git.git` becomes
`h/foo.git`, which another call would make `h/foo`. `Settled` says when nothing is left to do. The
other cases it excludes come from URLs, whose path is unescaped after the check for blanks.
-/

namespace JobDB.CellLib

variable (L : CellLib) {s r : String} {host path : List Char}

/-- The check of the whole text. -/
def Blank (s : List Char) : Prop :=
  s = [] ∨ s.head?.any isSpace ∨ s.getLast?.any isSpace ∨ containsAny s "?#\\\t\r\n "

/-- The path of a locator does not end in a second `.git`, and neither its path nor its host has a
blank of the kind that `NormalizeCellRepo` refuses in a locator. -/
def Settled (s : String) : Prop :=
  ∀ host path, L.repoParts s = .ok (host, path) →
    ¬ ".git".toList <:+ barePath path ∧
      ¬ Blank ((L.toLower (String.ofList host)).toList ++ '/' :: barePath path)

theorem normalizeCellRepo_eq_ok :
    L.normalizeCellRepo s = .ok r ↔ ¬ Blank s.toList ∧
      ∃ host path, L.repoParts s = .ok (host, path) ∧
      assemble (L.toLower (String.ofList host)).toList (barePath path) = .ok r := by
  unfold normalizeCellRepo
  have hblank : Blank s.toList ↔ s = "" ∨ s.toList.head?.any isSpace ∨
      s.toList.getLast?.any isSpace ∨ containsAny s.toList "?#\\\t\r\n " := by
    unfold Blank
    rw [String.toList_eq_nil_iff]
  by_cases h : Blank s.toList
  · rw [if_pos (hblank.1 h)]
    simp [h]
  · rw [if_neg (fun h' => h (hblank.2 h')), bind_eq_ok]
    simp only [h, not_false_iff, true_and, Prod.exists]

theorem trimSuffix_eq_self {suffix s : List Char} (hne : suffix ≠ []) :
    trimSuffix suffix s = s ↔ ¬ suffix <:+ s := by
  unfold trimSuffix
  split
  · next h =>
    refine iff_of_false (fun heq => ?_) (not_not.2 h)
    have hlen := congrArg List.length heq
    have hpos := List.length_pos_of_ne_nil hne
    have hle := h.length_le
    rw [List.length_take] at hlen
    omega
  · next h => exact iff_of_true rfl h

theorem mem_of_containsText {text s : List Char} {c : Char} (h : containsText text s = true)
    (hc : c ∈ text) : c ∈ s := by
  induction s with
  | nil => simp_all [containsText]
  | cons d s ih =>
    rw [containsText, Bool.or_eq_true] at h
    rcases h with h | h
    · exact (List.isPrefixOf_iff_prefix.1 h).subset hc
    · exact List.mem_cons_of_mem d (ih h)

theorem cutAt_append {c : Char} {s t : List Char} (h : c ∉ s) :
    cutAt c (s ++ c :: t) = some (s, t) := by
  have hall : ∀ x ∈ s, decide (x ≠ c) = true := by
    intro x hx
    exact decide_eq_true fun hxc => h (hxc ▸ hx)
  rw [cutAt, List.dropWhile_append_of_pos hall, List.takeWhile_append_of_pos hall]
  simp

theorem cutAt_eq_none {c : Char} {s : List Char} (h : c ∉ s) : cutAt c s = none := by
  have hnil : s.dropWhile (· ≠ c) = [] :=
    List.dropWhile_eq_nil_iff.2 fun x hx => decide_eq_true fun hxc => h (hxc ▸ hx)
  rw [cutAt, hnil]

/-- A normal form has no colon and no `@`, its first slash ends the host, and it does not end in a
slash. -/
theorem assemble_eq_ok (h : assemble host path = .ok r) :
    r = String.ofList (host ++ '/' :: path) ∧ L.repoParts r = .ok (host, path) ∧
      ¬ ['/'] <:+ path := by
  unfold assemble at h
  split at h
  · cases h
  split at h
  · cases h
  next hchars hparts =>
  split at h
  · cases h
  obtain rfl := Except.ok.inj h
  simp only [containsAny, List.any_eq_true, not_or, not_exists, not_and] at hchars hparts
  obtain ⟨-, hhost, -, -, -, hpath⟩ := hchars
  have hcolon : ':' ∉ host ++ '/' :: path := by
    simp only [List.mem_append, List.mem_cons, not_or]
    exact ⟨fun hm => hhost _ hm rfl, by decide, fun hm => hpath _ hm rfl⟩
  have hat : '@' ∉ host ++ '/' :: path := by
    simp only [List.mem_append, List.mem_cons, not_or]
    exact ⟨fun hm => hhost _ hm rfl, by decide, fun hm => hpath _ hm rfl⟩
  refine ⟨rfl, ?_, ?_⟩
  · have htext : (String.ofList (host ++ '/' :: path)).toList = host ++ '/' :: path :=
      String.toList_ofList
    unfold repoParts
    rw [htext, if_neg fun hc => hcolon (mem_of_containsText hc (by decide)), cutAt_eq_none hat]
    dsimp only
    rw [cutAt_append fun hm => hhost _ hm rfl]
  · rintro ⟨front, rfl⟩
    refine hparts [] ?_ rfl
    rw [List.splitOn_append_cons_self]
    exact List.mem_append_right _ (by simp)

variable (hlower : ∀ t, L.toLower (L.toLower t) = L.toLower t)

include hlower

/-- A normal form is its own normal form exactly if the locator left nothing to do. -/
theorem normal_again_iff (h : L.normalizeCellRepo s = .ok r) :
    L.normalizeCellRepo r = .ok r ↔ L.Settled s := by
  obtain ⟨-, host, path, hparts, hok⟩ := L.normalizeCellRepo_eq_ok.1 h
  obtain ⟨hr, hagain, hslash⟩ := L.assemble_eq_ok hok
  -- the host stays, and of the path another `.git` goes
  have hbare : barePath (barePath path) = trimSuffix ".git".toList (barePath path) := by
    conv_lhs => rw [barePath, (trimSuffix_eq_self (by decide)).2 hslash]
  have htext : r.toList = (L.toLower (String.ofList host)).toList ++ '/' :: barePath path := by
    rw [hr, String.toList_ofList]
  have hsettled : L.Settled s ↔ ¬ ".git".toList <:+ barePath path ∧ ¬ Blank r.toList := by
    rw [htext]
    constructor
    · intro hs
      exact hs host path hparts
    · intro hs host' path' hparts'
      obtain ⟨rfl, rfl⟩ := Prod.mk.inj (Except.ok.inj (hparts.symm.trans hparts'))
      exact hs
  rw [hsettled, normalizeCellRepo_eq_ok, hagain, and_comm]
  refine and_congr_left fun _ => ?_
  rw [← trimSuffix_eq_self (by decide), ← hbare]
  constructor
  · rintro ⟨host', path', hparts', hok'⟩
    obtain ⟨rfl, rfl⟩ := Prod.mk.inj (Except.ok.inj hparts')
    rw [String.ofList_toList, hlower] at hok'
    have heq := hr.symm.trans (L.assemble_eq_ok hok').1
    have hchars := String.ofList_injective heq
    exact (List.cons.inj (List.append_cancel_left hchars)).2.symm
  · intro heq
    refine ⟨_, _, rfl, ?_⟩
    rw [String.ofList_toList, hlower, heq]
    exact hok

end JobDB.CellLib

namespace JobDB.Registry

variable {L : CellLib} {H : Host} {P : String → Prop} {s : Registry} {c c' : Cell}

/-- The locator that an operation brings. -/
def Op.repo : Op → Option String
  | .create _ _ req => some req.repo
  | .update _ _ req => req.repo
  | .retire .. => none

variable (L P) in
/-- The repositories are normal forms of locators with the property. -/
def Located (s : Registry) : Prop :=
  ∀ id c, s.cells.lookup id = some c → ∃ given, P given ∧ L.normalizeCellRepo given = .ok c.repo

theorem Located.put (h : Located L P s)
    (hc : ∃ given, P given ∧ L.normalizeCellRepo given = .ok c.repo) : Located L P (s.put c) := by
  intro id d hd
  rcases Table.of_lookup_insert hd with ⟨-, rfl⟩ | ⟨-, hd⟩
  · exact hc
  · exact h id d hd

theorem repo_rename (c : Cell) (name : String) : (rename c name).repo = c.repo := by
  unfold rename
  split <;> rfl

theorem amend_repo {r : UpdateCellRequest} (h : amend L r c = .ok c') :
    c'.repo = c.repo ∨ ∃ given, r.repo = some given ∧ L.normalizeCellRepo given = .ok c'.repo := by
  unfold amend at h
  obtain ⟨c₁, h₁, h⟩ := bind_eq_ok.mp h
  obtain ⟨c₂, h₂, h⟩ := bind_eq_ok.mp h
  obtain ⟨c₃, h₃, h⟩ := bind_eq_ok.mp h
  obtain ⟨_, _, rfl⟩ := map_eq_ok.mp h
  -- the name and the metadata are put in without a look at the repository
  have hname : c₁.repo = c.repo := by
    unfold amendName at h₁
    split at h₁
    · rw [Except.ok.inj h₁]
    · obtain ⟨_, _, h₁⟩ := bind_eq_ok.mp h₁
      rw [← Except.ok.inj h₁, repo_rename]
  have hmetadata : c₃.repo = c₂.repo := by
    unfold amendMetadata at h₃
    split at h₃
    · rw [← Except.ok.inj h₃]
    · cases h₃
    · obtain ⟨_, _, h₃⟩ := bind_eq_ok.mp h₃
      rw [← Except.ok.inj h₃]
  rw [hmetadata, ← hname]
  unfold amendRepo at h₂
  split at h₂
  · exact .inl (by rw [Except.ok.inj h₂])
  · next given hgiven =>
    obtain ⟨repo, hrepo, h₂⟩ := bind_eq_ok.mp h₂
    rw [← Except.ok.inj h₂]
    exact .inr ⟨given, hgiven, hrepo⟩

/-- **One operation** stores only normal forms of the locator it brings. -/
theorem Op.step_located (op : Op) {d : Drawing} (hd : Kept L H d) (h : Located L P d.registry)
    (hop : ∀ given, op.repo = some given → P given) : Located L P (op.step L H d).registry := by
  unfold Op.step
  split
  · next c s happly =>
    cases op with
    | create ctx now req =>
      obtain ⟨req', hreq, ⟨rfl, -⟩ | ⟨-, -, rfl, rfl⟩⟩ := create_eq_ok happly
      · exact h
      · intro id c hc
        rw [cells_register] at hc
        exact h.put ⟨req.repo, hop _ rfl, (normalizeCreate_eq_ok hreq).1⟩ id c hc
    | update ctx now req =>
      obtain rfl | ⟨old, c', hold, hamend, -, rfl, rfl⟩ := update_eq_ok hd.wellFormed happly
      · exact h
      · refine h.put ?_
        rcases amend_repo hamend with hrepo | ⟨given, hgiven, hrepo⟩
        · exact hrepo ▸ h _ _ hold
        · exact ⟨given, hop _ hgiven, hrepo⟩
    | retire ctx now busy req =>
      obtain rfl | ⟨old, hold, rfl, rfl⟩ := retire_eq_ok hd.wellFormed happly
      · exact h
      · have hrepo := h _ _ hold
        exact h.put hrepo
  · exact h

theorem run_located (ops : List Op) {d : Drawing} (hd : Kept L H d) (h : Located L P d.registry)
    (hops : ∀ op ∈ ops, ∀ given, op.repo = some given → P given) :
    Located L P (run L H ops d).registry := by
  induction ops generalizing d with
  | nil => exact h
  | cons op ops ih =>
    exact ih (op.step_kept hd).1 (op.step_located hd h (hops op List.mem_cons_self))
      fun op' hop' => hops op' (List.mem_cons_of_mem op hop')

variable (L H)

/-- **Normal forms of repositories.** A normal form is its own normal form exactly if the locator it
came from is settled; and as long as all locators are settled, no two cells have repositories with
the same normal form. -/
theorem repos_normal_iff (hlower : ∀ t, L.toLower (L.toLower t) = L.toLower t) :
    (∀ s r, L.normalizeCellRepo s = .ok r → (L.normalizeCellRepo r = .ok r ↔ L.Settled s)) ∧
    ∀ ops : List Op, (∀ op ∈ ops, ∀ given, op.repo = some given → L.Settled given) →
      ∀ id id' c c' r, (run L H ops).registry.cells.lookup id = some c →
        (run L H ops).registry.cells.lookup id' = some c' →
        L.normalizeCellRepo c.repo = .ok r → L.normalizeCellRepo c'.repo = .ok r → id = id' := by
  refine ⟨fun s r h => L.normal_again_iff hlower h, fun ops hops id id' c c' r hc hc' hr hr' => ?_⟩
  have hkept := (run_kept ops (kept_empty (H := H) (L := L))).1
  have hlocated : Located L L.Settled (run L H ops).registry :=
    run_located ops kept_empty (fun id c h => by simp at h) hops
  have hself : ∀ {id c}, (run L H ops).registry.cells.lookup id = some c →
      L.normalizeCellRepo c.repo = .ok c.repo := by
    intro id c hc
    obtain ⟨given, hsettled, hnorm⟩ := hlocated id c hc
    exact (L.normal_again_iff hlower hnorm).2 hsettled
  refine hkept.wellFormed.repos hc hc' ?_
  rw [Except.ok.inj ((hself hc).symm.trans hr), Except.ok.inj ((hself hc').symm.trans hr')]

/-- Two cells with plain locators. -/
def plainRepos : List Op :=
  [.create .admin 1 { tenantID := "t", name := "a", repo := "h/foo.git" },
    .create .admin 2 { tenantID := "t", name := "b", repo := "h/bar" }]

theorem repos_normal_plain :
    (run .plain .accepting plainRepos).registry.cells.sorted.map (·.2.repo) = ["h/foo", "h/bar"] ∧
    ∀ id id' c c' r,
      (run .plain .accepting plainRepos).registry.cells.lookup id = some c →
      (run .plain .accepting plainRepos).registry.cells.lookup id' = some c' →
      CellLib.plain.normalizeCellRepo c.repo = .ok r →
      CellLib.plain.normalizeCellRepo c'.repo = .ok r → id = id' := by
  refine ⟨by decide +kernel, ?_⟩
  refine (repos_normal_iff .plain .accepting fun _ => rfl).2 plainRepos ?_
  have hfoo : CellLib.plain.repoParts "h/foo.git" = .ok (['h'], "foo.git".toList) := by
    decide +kernel
  have hbar : CellLib.plain.repoParts "h/bar" = .ok (['h'], "bar".toList) := by decide +kernel
  intro op hop given hgiven host path hparts
  simp only [plainRepos, List.mem_cons, List.not_mem_nil, or_false] at hop
  rcases hop with rfl | rfl
  · obtain rfl := Option.some.inj hgiven
    obtain ⟨rfl, rfl⟩ := Prod.mk.inj (Except.ok.inj (hfoo.symm.trans hparts))
    unfold CellLib.Blank
    decide +kernel
  · obtain rfl := Option.some.inj hgiven
    obtain ⟨rfl, rfl⟩ := Prod.mk.inj (Except.ok.inj (hbar.symm.trans hparts))
    unfold CellLib.Blank
    decide +kernel

/-- The normal form of `h/foo.git.git` has another normal form, which a second cell can have. -/
theorem repo_git_twice :
    CellLib.plain.normalizeCellRepo "h/foo.git.git" = .ok "h/foo.git" ∧
    CellLib.plain.normalizeCellRepo "h/foo.git" = .ok "h/foo" ∧
    ((run .plain .accepting
        [.create .admin 1 { tenantID := "t", name := "a", repo := "h/foo.git.git" },
          .create .admin 2 { tenantID := "t", name := "b",
                             repo := "h/foo" }]).registry.cells.sorted.map
      fun r => CellLib.plain.normalizeCellRepo r.2.repo) = [.ok "h/foo", .ok "h/foo"] := by
  decide +kernel

end JobDB.Registry
