import JobDB.Cell.Registry
import JobDB.Lib.Runs
import JobDB.Runtime.Types
import Mathlib.Data.String.Basic

/-!
# Names and repositories of cells

What the registry guarantees about names over any sequence of `Create`, `Update`
and `Retire`. Seen from outside, the registry is a partial map from names to cell
IDs that is only ever extended: a rename turns the old name into an alias, and
retired cells keep theirs.

* `Holds s id n`: the cell `id` answers to `n`. `Grows` compares two registries
  by it.
* `WellFormed` is the invariant, `Admits s c` what a cell must satisfy to be put
  into a registry that has it.
* `stores_create`, `stores_update` and `stores_retire` say that each operation stores
  only such cells. `Retire` makes no uniqueness check; there the invariant itself
  provides it.
-/

namespace JobDB.Registry

variable {L : CellLib} {s s' : Registry} {c d : Cell} {id id' n : String}

/-! ## Looking a name up -/

/-- The cell with this ID answers to the name. -/
def Holds (s : Registry) (id n : String) : Prop := ∃ c, s.cells.lookup id = some c ∧ n ∈ c.names

theorem mem_of_byName (h : s.byName n = some c) :
    ∃ id, s.cells.lookup id = some c ∧ n ∈ c.names := by
  obtain ⟨⟨id, c'⟩, hfind, rfl⟩ := Option.map_eq_some_iff.mp h
  exact ⟨id, Table.mem_rows.mp (List.mem_of_find?_eq_some hfind), by
    simpa using List.find?_some hfind⟩

theorem byName_isSome (h : s.Holds id n) : (s.byName n).isSome := by
  obtain ⟨c, hc, hn⟩ := h
  unfold byName
  rw [Option.isSome_map, List.find?_isSome]
  exact ⟨(id, c), Table.mem_rows.mpr hc, by simpa using hn⟩

theorem lookup_put (s : Registry) (c : Cell) (id : String) :
    (s.put c).cells.lookup id = if id = c.id then some c else s.cells.lookup id :=
  Table.lookup_insert_eq ..

theorem cells_register (s : Registry) (principal descriptor : String) (req : CreateCellRequest)
    (c : Cell) : (s.register principal descriptor req c).cells = (s.put c).cells := by
  unfold register
  split <;> rfl

/-! ## The invariant -/

/-- Cells are stored under their IDs. -/
def Keyed (s : Registry) : Prop := ∀ id c, s.cells.lookup id = some c → c.id = id

variable (L) in
/-- The state of a registry between operations. -/
structure WellFormed (s : Registry) : Prop where
  /-- A cell is stored under its ID. -/
  keyed : ∀ {id c}, s.cells.lookup id = some c → c.id = id
  /-- A name, current or alias, belongs to one cell. -/
  names : ∀ {id id' n}, s.Holds id n → s.Holds id' n → id = id'
  /-- A repository belongs to one cell. -/
  repos : ∀ {id id' c c'}, s.cells.lookup id = some c → s.cells.lookup id' = some c' →
    c.repo = c'.repo → id = id'
  /-- Aliases are sorted and do not repeat. -/
  sorted : ∀ {id c}, s.cells.lookup id = some c → c.aliases.Pairwise (· < ·)
  /-- The current name is no alias. -/
  current : ∀ {id c}, s.cells.lookup id = some c → c.name ∉ c.aliases
  /-- A stored repository is in normal form. -/
  normal : ∀ {id c}, s.cells.lookup id = some c → ∃ given, L.normalizeCellRepo given = .ok c.repo

/-- In a well-formed registry the first cell found under a name is the only one. -/
theorem WellFormed.byName_eq_some (hs : WellFormed L s) :
    s.byName n = some c ↔ s.cells.lookup c.id = some c ∧ n ∈ c.names := by
  constructor
  · intro h
    obtain ⟨id, hc, hn⟩ := mem_of_byName h
    rw [hs.keyed hc]
    exact ⟨hc, hn⟩
  · rintro ⟨hc, hn⟩
    obtain ⟨d, hd⟩ := Option.isSome_iff_exists.mp (byName_isSome ⟨c, hc, hn⟩)
    obtain ⟨id, hd', hn'⟩ := mem_of_byName hd
    obtain rfl := hs.names ⟨c, hc, hn⟩ ⟨d, hd', hn'⟩
    rw [hd, ← hd', hc]

variable (L) in
/-- A cell may be stored: no other cell has its repository or one of its names,
and a cell it replaces loses no name. -/
structure Admits (s : Registry) (c : Cell) : Prop where
  repo : ∀ {id d}, s.cells.lookup id = some d → id ≠ c.id → d.repo ≠ c.repo
  names : ∀ {id n}, s.Holds id n → id ≠ c.id → n ∉ c.names
  kept : ∀ {n}, s.Holds c.id n → n ∈ c.names
  sorted : c.aliases.Pairwise (· < ·)
  current : c.name ∉ c.aliases
  normal : ∃ given, L.normalizeCellRepo given = .ok c.repo

theorem holds_put :
    (s.put c).Holds id n ↔ if id = c.id then n ∈ c.names else s.Holds id n := by
  unfold Holds
  rw [lookup_put]
  split <;> simp

theorem WellFormed.put (hs : WellFormed L s) (hc : Admits L s c) : WellFormed L (s.put c) where
  keyed {id d} h := by
    rcases Table.of_lookup_insert h with ⟨hid, rfl⟩ | ⟨-, h⟩
    · exact hid.symm
    · exact hs.keyed h
  names {id id' n} h h' := by
    rw [holds_put] at h h'
    -- the new cell against an old one is excluded by `Admits`
    split at h <;> split at h'
    · simp_all
    · next hid hid' => exact absurd h (hc.names h' hid')
    · next hid hid' => exact absurd h' (hc.names h hid)
    · exact hs.names h h'
  repos {id id' d d'} h h' hrepo := by
    rcases Table.of_lookup_insert h with ⟨hid, rfl⟩ | ⟨hid, hold⟩ <;>
      rcases Table.of_lookup_insert h' with ⟨hid', rfl⟩ | ⟨hid', hold'⟩
    · exact hid.trans hid'.symm
    · exact absurd hrepo.symm (hc.repo hold' hid')
    · exact absurd hrepo (hc.repo hold hid)
    · exact hs.repos hold hold' hrepo
  sorted {id d} h := by
    rcases Table.of_lookup_insert h with ⟨-, rfl⟩ | ⟨-, h⟩
    · exact hc.sorted
    · exact hs.sorted h
  current {id d} h := by
    rcases Table.of_lookup_insert h with ⟨-, rfl⟩ | ⟨-, h⟩
    · exact hc.current
    · exact hs.current h
  normal {id d} h := by
    rcases Table.of_lookup_insert h with ⟨-, rfl⟩ | ⟨-, h⟩
    · exact hc.normal
    · exact hs.normal h

/-! ## Names are only added -/

/-- Every name still belongs to the cell it belonged to. -/
def Grows (s s' : Registry) : Prop := ∀ id n, s.Holds id n → s'.Holds id n

theorem Admits.grows (hc : Admits L s c) : Grows s (s.put c) := by
  intro id n h
  rw [holds_put]
  split
  · next hid => exact hc.kept (hid ▸ h)
  · exact h

theorem Grows.byName (hs : WellFormed L s) (hs' : WellFormed L s') (h : Grows s s')
    (hn : s.byName n = some c) : ∃ c', s'.byName n = some c' ∧ c'.id = c.id := by
  obtain ⟨hc, hmem⟩ := hs.byName_eq_some.mp hn
  obtain ⟨c', hc', hmem'⟩ := h c.id n ⟨c, hc, hmem⟩
  have hid : c'.id = c.id := hs'.keyed hc'
  exact ⟨c', hs'.byName_eq_some.mpr ⟨hid ▸ hc', hmem'⟩, hid⟩

/-! ## What the operations store -/

/-- What `unique` checks, in a well-formed registry. -/
theorem unique_eq_ok (hs : WellFormed L s) (h : s.unique c = .ok ()) :
    (∀ id d, s.cells.lookup id = some d → id ≠ c.id → d.repo ≠ c.repo) ∧
      ∀ id n, s.Holds id n → id ≠ c.id → n ∉ c.names := by
  simp only [unique, ite_error_eq_ok] at h
  obtain ⟨hrepo, hnames, -⟩ := h
  simp only [List.any_eq_true, Bool.and_eq_true, decide_eq_true_eq, not_exists, not_and,
    Prod.forall, ne_eq] at hrepo
  simp only [List.any_eq_true, not_exists, not_and] at hnames
  refine ⟨fun id d hd hid => hrepo id d (Table.mem_rows.mpr hd) (hs.keyed hd ▸ hid), ?_⟩
  rintro id n ⟨d, hd, hn⟩ hid hmem
  have hby : s.byName n = some d :=
    hs.byName_eq_some.mpr ⟨hs.keyed hd ▸ hd, hn⟩
  exact hnames n hmem (by simpa [hby, hs.keyed hd] using hid)

theorem names_rename (c : Cell) (name : String) {n : String} (h : n ∈ c.names) :
    n ∈ (rename c name).names := by
  unfold rename
  split
  · exact h
  · rcases List.mem_cons.mp h with rfl | h
    · simp [Cell.names, sortStrings]
    · by_cases hn : n = name
      · simp [Cell.names, hn]
      · simp [Cell.names, sortStrings, h, hn]

theorem sorted_rename (hs : c.aliases.Pairwise (· < ·)) (hc : c.name ∉ c.aliases) (name : String) :
    (rename c name).aliases.Pairwise (· < ·) := by
  unfold rename
  split
  · exact hs
  · -- sorting gives `≤`, which is strict because nothing repeats
    have hnodup : (c.name :: c.aliases.filter (· ≠ name)).Nodup :=
      List.nodup_cons.mpr
        ⟨fun h => hc (List.mem_filter.mp h).1, (hs.imp fun h => ne_of_lt h).filter _⟩
    have hsorted := List.pairwise_insertionSort (· ≤ ·) (c.name :: c.aliases.filter (· ≠ name))
    have hnodup' := (List.perm_insertionSort (· ≤ ·) _).nodup_iff.mpr hnodup
    exact hsorted.imp₂ (fun _ _ hle hne => lt_of_le_of_ne hle hne) hnodup'

theorem current_rename (hc : c.name ∉ c.aliases) (name : String) :
    (rename c name).name ∉ (rename c name).aliases := by
  unfold rename
  split
  · exact hc
  · next hne => simp [sortStrings, hne]

/-- What an update keeps of a cell. -/
structure Amended (L : CellLib) (c c' : Cell) : Prop where
  id : c'.id = c.id
  state : c'.state = c.state
  names : ∀ {n}, n ∈ c.names → n ∈ c'.names
  sorted : c.aliases.Pairwise (· < ·) → c.name ∉ c.aliases → c'.aliases.Pairwise (· < ·)
  current : c.name ∉ c.aliases → c'.name ∉ c'.aliases
  normal : (∃ given, L.normalizeCellRepo given = .ok c.repo) →
    ∃ given, L.normalizeCellRepo given = .ok c'.repo

theorem Amended.refl (c : Cell) : Amended L c c :=
  ⟨rfl, rfl, fun h => h, fun h _ => h, fun h => h, fun h => h⟩

theorem amended_rename (c : Cell) (name : String) : Amended L c (rename c name) := by
  refine ⟨?_, ?_, names_rename c name, fun hs hc => sorted_rename hs hc name,
    fun hc => current_rename hc name, ?_⟩
  · unfold rename
    split <;> rfl
  · unfold rename
    split <;> rfl
  · unfold rename
    split <;> exact fun h => h

theorem amendName_eq_ok {name : Option String} {c' : Cell} (h : amendName name c = .ok c') :
    Amended L c c' := by
  cases name with
  | none =>
    obtain rfl := Except.ok.inj h
    exact .refl c
  | some name =>
    obtain ⟨_, _, rfl⟩ := map_eq_ok.mp h
    exact amended_rename c name

/-- A new repository replaces the old one by its normal form. -/
theorem amendRepo_eq_ok {repo : Option String} {c₁ c₂ : Cell} (hc : Amended L c c₁)
    (h : amendRepo L repo c₁ = .ok c₂) : Amended L c c₂ := by
  cases repo with
  | none =>
    obtain rfl := Except.ok.inj h
    exact hc
  | some repo =>
    obtain ⟨repo', hnorm, rfl⟩ := map_eq_ok.mp h
    exact ⟨hc.id, hc.state, hc.names, hc.sorted, hc.current, fun _ => ⟨repo, hnorm⟩⟩

theorem amendMetadata_eq_ok {metadata : Option (Option Fields)} {c₁ c₂ : Cell}
    (hc : Amended L c c₁) (h : amendMetadata L metadata c₁ = .ok c₂) : Amended L c c₂ := by
  match metadata with
  | none =>
    obtain rfl := Except.ok.inj h
    exact hc
  | some none => cases h
  | some (some m) =>
    obtain ⟨_, _, rfl⟩ := map_eq_ok.mp h
    exact ⟨hc.id, hc.state, hc.names, hc.sorted, hc.current, hc.normal⟩

theorem amend_eq_ok {r : UpdateCellRequest} {c' : Cell} (h : amend L r c = .ok c') :
    Amended L c c' := by
  unfold amend at h
  obtain ⟨c₁, h₁, h⟩ := bind_eq_ok.mp h
  obtain ⟨c₂, h₂, h⟩ := bind_eq_ok.mp h
  obtain ⟨c₃, h₃, h⟩ := bind_eq_ok.mp h
  obtain ⟨_, _, rfl⟩ := map_eq_ok.mp h
  have hrepo := amendRepo_eq_ok (amendName_eq_ok h₁) h₂
  refine amendMetadata_eq_ok ?_ h₃
  exact ⟨hrepo.id, hrepo.state, hrepo.names, hrepo.sorted, hrepo.current, hrepo.normal⟩

variable {ctx : Ctx} {now : Time} {revision : String}

theorem normalizeCreate_eq_ok {req req' : CreateCellRequest}
    (h : normalizeCreate L ctx req = .ok req') :
    L.normalizeCellRepo req.repo = .ok req'.repo ∧ req'.requestID = req.requestID := by
  unfold normalizeCreate at h
  obtain ⟨_, _, h⟩ := bind_eq_ok.mp h
  obtain ⟨_, _, h⟩ := bind_eq_ok.mp h
  obtain ⟨repo, hrepo, h⟩ := bind_eq_ok.mp h
  obtain ⟨_, _, h⟩ := bind_eq_ok.mp h
  split at h
  · cases h
  · obtain rfl := Except.ok.inj h
    exact ⟨hrepo, rfl⟩

theorem lookup_of_getForChange {key : CellKey} {ifMatch permission : String} (hs : WellFormed L s)
    (h : getForChange L ctx key ifMatch permission s = .ok c) : s.cells.lookup c.id = some c := by
  unfold getForChange Registry.get at h
  obtain ⟨c', hget, h⟩ := bind_eq_ok.mp h
  obtain ⟨_, _, h⟩ := bind_eq_ok.mp h
  obtain ⟨_, _, rfl⟩ := map_eq_ok.mp h
  obtain ⟨_, _, hget⟩ := bind_eq_ok.mp hget
  split at hget
  · cases hget
  · next hlookup =>
    obtain rfl := Except.ok.inj hget
    rw [hs.keyed hlookup]
    exact hlookup

/-- `Create` answers with what it made for the same request before, or stores a new cell. -/
theorem create_eq_ok {req : CreateCellRequest}
    (h : create L ctx now id revision req s = .ok (c, s')) :
    ∃ req', normalizeCreate L ctx req = .ok req' ∧
      ((s' = s ∧ ∃ r, s.creation? ctx.principal req'.requestID = some r ∧
          r.descriptor = L.requestDigest req' ∧ r.result = c) ∨
        (s.creation? ctx.principal req'.requestID = none ∧ s.unique c = .ok () ∧
          c = newCell req' now id revision ∧
          s' = s.register ctx.principal (L.requestDigest req') req' c)) := by
  unfold create at h
  obtain ⟨req', hreq, h⟩ := bind_eq_ok.mp h
  refine ⟨req', hreq, ?_⟩
  split at h
  · next r hr =>
    split at h
    · cases h
    next hdigest =>
    split at h
    · cases h
    obtain ⟨rfl, rfl⟩ := Prod.mk.inj (Except.ok.inj h)
    exact .inl ⟨rfl, r, hr, not_not.mp hdigest, rfl⟩
  · next hnone =>
    obtain ⟨_, hunique, h⟩ := bind_eq_ok.mp h
    obtain ⟨rfl, rfl⟩ := Prod.mk.inj (Except.ok.inj h)
    exact .inr ⟨hnone, hunique, rfl, rfl⟩

/-- `Update` finds nothing to change, or stores the cell as amended. -/
theorem update_eq_ok {r : UpdateCellRequest} (hs : WellFormed L s)
    (h : update L ctx now revision r s = .ok (c, s')) :
    s' = s ∨ ∃ old c', s.cells.lookup old.id = some old ∧ amend L r old = .ok c' ∧
      s.unique c' = .ok () ∧ c = { c' with revision := revision, updatedAt := now } ∧
      s' = s.put c := by
  unfold update at h
  obtain ⟨old, hget, h⟩ := bind_eq_ok.mp h
  split at h
  · cases h
  split at h
  · cases h
  obtain ⟨c', hamend, h⟩ := bind_eq_ok.mp h
  obtain ⟨_, hunique, h⟩ := bind_eq_ok.mp h
  split at h
  · exact .inl (Prod.mk.inj (Except.ok.inj h)).2.symm
  · obtain ⟨rfl, rfl⟩ := Prod.mk.inj (Except.ok.inj h)
    exact .inr ⟨old, c', lookup_of_getForChange hs hget, hamend, hunique, rfl, rfl⟩

/-- `Retire` finds the cell retired, or stores it as retired. -/
theorem retire_eq_ok {busy : String → Except Err Bool} {r : RetireCellRequest}
    (hs : WellFormed L s) (h : retire L ctx now revision busy r s = .ok (c, s')) :
    s' = s ∨ ∃ old, s.cells.lookup old.id = some old ∧
      c = { old with state := .retired, retiredAt := some now, updatedAt := now,
                     revision := revision } ∧ s' = s.put c := by
  unfold retire at h
  obtain ⟨old, hget, h⟩ := bind_eq_ok.mp h
  split at h
  · exact .inl (Prod.mk.inj (Except.ok.inj h)).2.symm
  obtain ⟨b, _, h⟩ := bind_eq_ok.mp h
  split at h
  · cases h
  obtain ⟨rfl, rfl⟩ := Prod.mk.inj (Except.ok.inj h)
  exact .inr ⟨old, lookup_of_getForChange hs hget, rfl, rfl⟩

/-- The cells of a registry are left alone, or one is stored that fits. -/
def Stores (L : CellLib) (s s' : Registry) (P : Cell → Prop) : Prop :=
  s'.cells = s.cells ∨ ∃ c, s'.cells = (s.put c).cells ∧ Admits L s c ∧ P c

theorem stores_create {req : CreateCellRequest} (hs : WellFormed L s)
    (hfresh : s.cells.lookup id = none) (h : create L ctx now id revision req s = .ok (c, s')) :
    Stores L s s' fun c => c.id = id := by
  obtain ⟨req', hreq, ⟨rfl, -⟩ | ⟨-, hunique, rfl, rfl⟩⟩ := create_eq_ok h
  · exact .inl rfl
  · obtain ⟨hrepo, hnames⟩ := unique_eq_ok hs hunique
    refine .inr ⟨_, cells_register .., ⟨hrepo _ _, hnames _ _, ?_, .nil, ?_, ?_⟩, rfl⟩
    · rintro n ⟨d, hd, -⟩
      exact absurd (hfresh.symm.trans hd) (by simp)
    · simp [newCell]
    · exact ⟨req.repo, (normalizeCreate_eq_ok hreq).1⟩

theorem stores_update {r : UpdateCellRequest} (hs : WellFormed L s)
    (h : update L ctx now revision r s = .ok (c, s')) :
    Stores L s s' fun c => ∃ old, s.cells.lookup c.id = some old := by
  obtain rfl | ⟨old, c', hold, hamend, hunique, rfl, rfl⟩ := update_eq_ok hs h
  · exact .inl rfl
  · obtain ⟨hrepo, hnames⟩ := unique_eq_ok hs hunique
    have ha := amend_eq_ok hamend
    refine .inr ⟨_, rfl, ⟨hrepo _ _, hnames _ _, ?_, ?_, ?_, ?_⟩, old, ha.id ▸ hold⟩
    · rintro n ⟨d, hd, hn⟩
      obtain rfl := Option.some.inj (hold.symm.trans (ha.id ▸ hd))
      exact ha.names hn
    · exact ha.sorted (hs.sorted hold) (hs.current hold)
    · exact ha.current (hs.current hold)
    · exact ha.normal (hs.normal hold)

theorem stores_retire {busy : String → Except Err Bool} {r : RetireCellRequest}
    (hs : WellFormed L s) (h : retire L ctx now revision busy r s = .ok (c, s')) :
    Stores L s s' fun c => ∃ old, s.cells.lookup c.id = some old := by
  obtain rfl | ⟨old, hold, rfl, rfl⟩ := retire_eq_ok hs h
  · exact .inl rfl
  · have hsorted : old.aliases.Pairwise (· < ·) := hs.sorted hold
    have hcurrent : old.name ∉ old.aliases := hs.current hold
    have hnormal : ∃ given, L.normalizeCellRepo given = .ok old.repo := hs.normal hold
    refine .inr ⟨_, rfl, ⟨?_, ?_, ?_, hsorted, hcurrent, hnormal⟩, old, hold⟩
    · exact fun hd hid hrepo => hid (hs.repos hd hold hrepo)
    · exact fun hh hid hn => hid (hs.names hh ⟨old, hold, hn⟩)
    · rintro n ⟨d, hd, hn⟩
      obtain rfl := Option.some.inj (hold.symm.trans hd)
      exact hn

/-! ## Histories -/

/-- An operation on a registry, with the time it runs at. -/
inductive Op where
  | create (ctx : Ctx) (now : Time) (req : CreateCellRequest)
  | update (ctx : Ctx) (now : Time) (req : UpdateCellRequest)
  | retire (ctx : Ctx) (now : Time) (busy : String → Except Err Bool) (req : RetireCellRequest)

variable (H : Host) (L)

/-- An operation that draws its IDs from the `drawn`th on. -/
def Op.apply (drawn : Nat) (s : Registry) : Op → Except Err (Cell × Registry)
  | .create ctx now req => Registry.create L ctx now (H.ksuid drawn) (H.ksuid (drawn + 1)) req s
  | .update ctx now req => Registry.update L ctx now (H.ksuid drawn) req s
  | .retire ctx now busy req => Registry.retire L ctx now (H.ksuid drawn) busy req s

/-- A registry together with the number of IDs drawn so far. -/
structure Drawing where
  registry : Registry := {}
  drawn : Nat := 0

/-- One operation; a refused one leaves the registry. -/
def Op.step (op : Op) (d : Drawing) : Drawing where
  registry :=
    match op.apply L H d.drawn d.registry with
    | .ok (_, s) => s
    | .error _ => d.registry
  drawn := d.drawn + 2

/-- The operations one after the other. -/
def run (ops : List Op) (d : Drawing := {}) : Drawing := ops.foldl (fun d op => op.step L H d) d

/-- The invariant of a history: the cells have IDs that were drawn before. -/
structure Kept (d : Drawing) : Prop where
  wellFormed : WellFormed L d.registry
  ids : ∀ {id c}, d.registry.cells.lookup id = some c → ∃ m < d.drawn, id = H.ksuid m

variable {H L}

theorem WellFormed.congr (hs : WellFormed L s) (h : s'.cells = s.cells) : WellFormed L s' := by
  obtain ⟨cells, creations⟩ := s
  obtain ⟨cells', creations'⟩ := s'
  obtain rfl : cells' = cells := h
  exact ⟨hs.keyed, hs.names, hs.repos, hs.sorted, hs.current, hs.normal⟩

theorem Grows.of_cells {t : Registry} (h : Grows s s') (ht : t.cells = s'.cells) : Grows s t := by
  intro id n hh
  unfold Holds
  rw [ht]
  exact h id n hh

/-- **One operation** keeps the invariant and only adds names. -/
theorem Op.step_kept (op : Op) {d : Drawing} (hd : Kept L H d) :
    Kept L H (op.step L H d) ∧ Grows d.registry (op.step L H d).registry := by
  have hs := hd.wellFormed
  have hstores : Stores L d.registry (op.step L H d).registry fun c =>
      c.id = H.ksuid d.drawn ∨ ∃ old, d.registry.cells.lookup c.id = some old := by
    unfold Op.step
    split
    · next c s h =>
      cases op with
      | create ctx now req =>
        have hfresh : d.registry.cells.lookup (H.ksuid d.drawn) = none := by
          by_contra hne
          obtain ⟨c, hc⟩ := Option.ne_none_iff_exists'.mp hne
          obtain ⟨m, hm, hid⟩ := hd.ids hc
          exact absurd (H.ksuid_injective _ _ hid) (by omega)
        exact (stores_create hs hfresh h).imp id fun ⟨c, h₁, h₂, h₃⟩ => ⟨c, h₁, h₂, .inl h₃⟩
      | update ctx now req =>
        exact (stores_update hs h).imp id fun ⟨c, h₁, h₂, h₃⟩ => ⟨c, h₁, h₂, .inr h₃⟩
      | retire ctx now busy req =>
        exact (stores_retire hs h).imp id fun ⟨c, h₁, h₂, h₃⟩ => ⟨c, h₁, h₂, .inr h₃⟩
    · exact .inl rfl
  have hdrawn : (op.step L H d).drawn = d.drawn + 2 := rfl
  have hold {id c} (hc : d.registry.cells.lookup id = some c) :
      ∃ m < d.drawn + 2, id = H.ksuid m := by
    obtain ⟨m, hm, he⟩ := hd.ids hc
    exact ⟨m, by omega, he⟩
  rcases hstores with hsame | ⟨c, hput, hadmits, hid⟩
  · exact ⟨⟨hs.congr hsame, fun h => hold (hsame ▸ h)⟩, Grows.of_cells (fun _ _ h => h) hsame⟩
  · refine ⟨⟨(hs.put hadmits).congr hput, fun {id c'} h => ?_⟩, hadmits.grows.of_cells hput⟩
    rw [hput] at h
    rcases Table.of_lookup_insert h with ⟨heq, -⟩ | ⟨-, h⟩
    · rcases hid with hnew | ⟨old, hlookup⟩
      · exact ⟨d.drawn, by omega, heq.trans hnew⟩
      · exact hold (heq ▸ hlookup)
    · exact hold h

theorem kept_empty : Kept L H {} where
  wellFormed := by
    constructor <;> intros <;> simp_all [Holds]
  ids h := by simp at h

/-- Any sequence of operations keeps the invariant and only adds names. -/
theorem run_kept (ops : List Op) {d : Drawing} (hd : Kept L H d) :
    Kept L H (run L H ops d) ∧ Grows d.registry (run L H ops d).registry := by
  induction ops generalizing d with
  | nil => exact ⟨hd, fun _ _ h => h⟩
  | cons op ops ih =>
    obtain ⟨hd₁, hgrow⟩ := op.step_kept hd
    obtain ⟨hd₂, hgrow'⟩ := ih hd₁
    exact ⟨hd₂, fun id n h => hgrow' id n (hgrow id n h)⟩

variable (H L)

/-- **The cell registry.** After any sequence of operations on an empty registry
each name, current or alias, belongs to at most one cell, repositories are in
normal form and no two cells share one, the aliases of a cell are sorted without
repetition and do not contain its current name; and a name that resolves to a cell
resolves to the same cell after any further operations. -/
theorem names_and_repos_unique (ops later : List Op) :
    let s := (run L H ops).registry
    let s' := (run L H later (run L H ops)).registry
    (∀ id id' c c' n, s.cells.lookup id = some c → s.cells.lookup id' = some c' →
      n ∈ c.names → n ∈ c'.names → id = id') ∧
    (∀ id id' c c', s.cells.lookup id = some c → s.cells.lookup id' = some c' →
      c.repo = c'.repo → id = id') ∧
    (∀ id c, s.cells.lookup id = some c → c.id = id ∧
      (∃ given, L.normalizeCellRepo given = .ok c.repo) ∧
      c.aliases.Pairwise (· ≤ ·) ∧ c.aliases.Nodup ∧ c.name ∉ c.aliases) ∧
    ∀ n c, s.byName n = some c → ∃ c', s'.byName n = some c' ∧ c'.id = c.id := by
  intro s s'
  obtain ⟨⟨hs, -⟩, -⟩ := run_kept ops (kept_empty (H := H) (L := L))
  obtain ⟨⟨hs', -⟩, hgrow⟩ := run_kept later (run_kept ops (kept_empty (H := H) (L := L))).1
  refine ⟨?_, fun id id' c c' => hs.repos, fun id c hc => ?_, fun n c => hgrow.byName hs hs'⟩
  · exact fun id id' c c' n hc hc' hn hn' => hs.names ⟨c, hc, hn⟩ ⟨c', hc', hn'⟩
  · exact ⟨hs.keyed hc, hs.normal hc, (hs.sorted hc).imp le_of_lt, (hs.sorted hc).imp ne_of_lt,
      hs.current hc⟩

end JobDB.Registry

namespace JobDB

/-- A tenant with one cell. -/
def mainCell : Registry :=
  ((Registry.create .plain .admin 0 "c1" "r1"
    { tenantID := "tenant", name := "main", repo := "host/repo" } {}).toOption.map (·.2)).getD {}

theorem mainCell_keyed : mainCell.Keyed := by
  have hrows : ∀ p ∈ mainCell.cells.rows, p.2.id = p.1 := by decide +kernel
  intro id c hc
  exact hrows (id, c) (Table.mem_rows.2 hc)

end JobDB
