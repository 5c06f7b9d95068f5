import JobDB.Cell.Names
import Mathlib.Data.Finset.Dedup

/-!
# What a caller learns about cells

`Get`, `List`, `Select` and `Resolve` (`cellstate/state.go`) answer a caller who may see some cells
of a tenant only. A cell that the caller may not see should be as good as absent: then the answers
on two registries that agree on the visible cells are the same.

* `byName_alike`: under a name both registries have the same cell, or neither has one that the
  caller may see.
* `Get`, `List` and `Select` do not tell these apart, and neither does `Resolve` for a new
  submission: a name that is taken by an invisible cell is not found.
* For a job that exists, `Resolve` says "not found" of such a name and "cell identity or repo
  differs" of one that nobody has. `Query.Even` rules this out, and `answers_alike_iff` says that
  nothing else can be learned.
-/

namespace JobDB

/-! ## Lists of cells -/

/-- `ListCellsRequest`. -/
structure ListCellsRequest where
  tenantID : String
  name : String := ""
  state : String := ""
  pageSize : Int := 0
  pageToken : String := ""
deriving DecidableEq, Repr

/-- `ListCellsResponse`. -/
structure ListCellsResponse where
  cells : List Cell
  nextPageToken : String := ""
deriving DecidableEq, Repr

/-- `cellstate.cursor`. -/
structure CellCursor where
  tenant : String
  principal : String
  name : String
  state : String
  after : String := ""
  expiresAt : Int
deriving DecidableEq, Repr

/-- The page tokens of a registry: the cursor as JSON with its HMAC under the registry's key.
`redeem` checks the signature. -/
structure CursorSeal where
  issue : CellCursor → String
  redeem : String → Option CellCursor

/-- The text of a state in requests. -/
def CellState.text : CellState → String
  | .active => "ACTIVE"
  | .retired => "RETIRED"

/-- The authority's `Cells` grant this one. -/
def CellAuthority.sees (a : CellAuthority) (id : String) : Bool := a.cells.all (· id)

namespace Registry

variable (K : CursorSeal) (L : CellLib) (ctx : Ctx) (now : Time)

/-- The cursor that a list starts from: the one in the page token, if it is of the same list and not
expired, or a new one for 24 hours. -/
def startCursor (state : String) (r : ListCellsRequest) : Except Err CellCursor :=
  let want : CellCursor :=
    { tenant := r.tenantID, principal := ctx.principal, name := r.name, state := state
      expiresAt := (now + 86400 * 1000000000) / 1000000000 }
  if r.pageToken = "" then .ok want
  else
    match K.redeem r.pageToken with
    | none => .error errInvalidCellPageToken
    | some got =>
      if got.expiresAt ≤ now / 1000000000 then .error errInvalidCellPageToken
      else if got ≠ { want with after := got.after, expiresAt := got.expiresAt } then
        .error errInvalidCellPageToken
      else .ok got

/-- Does the loop of `List` take the cell? -/
def listed (cur : CellCursor) (s : Registry) (id : String) (c : Cell) : Bool :=
  decide (cur.after < id) && ctx.authority.all (·.sees id) &&
    (cur.state = "ALL" || c.state.text = cur.state) &&
    (cur.name = "" || (s.byName cur.name).any (·.id = id))

/-- The loop of `List` over the cells by ascending ID. -/
def listLoop (cur : CellCursor) (size : Int) (keep : String → Cell → Bool) :
    List (String × Cell) → List Cell → ListCellsResponse
  | [], out => { cells := out }
  | (id, c) :: rest, out =>
    if keep id c = false then listLoop cur size keep rest out
    else if out.length = size then
      { cells := out
        nextPageToken := K.issue { cur with after := (out.getLast?.map (·.id)).getD "" } }
    else listLoop cur size keep rest (out ++ [c])

/-- `List`. -/
def list (r : ListCellsRequest) (s : Registry) : Except Err ListCellsResponse := do
  authorizeCell ctx r.tenantID "" "cells.list"
  let state := if r.state = "" then "ACTIVE" else r.state
  if state ≠ "ACTIVE" ∧ state ≠ "RETIRED" ∧ state ≠ "ALL" then .error errInvalidCell
  else do
    if r.name ≠ "" then validateCellName r.name
    let size := if r.pageSize = 0 then 100 else r.pageSize
    if size < 1 ∨ 1000 < size then .error errInvalidCell
    else do
      let cur ← startCursor K ctx now state r
      .ok (listLoop K cur size (listed ctx cur s) s.cells.sorted [])

/-! ## Requests and answers -/

/-- A request that reads the registry. -/
inductive Query where
  | get (key : CellKey)
  | list (req : ListCellsRequest)
  | select (tenant : String) (names : Option (List String)) (permission : String)
  | resolve (tenant name repo : String) (parent : Option Cell) (existing : Option ResolvedCell)
      (confirmation : Bool)

inductive Answer where
  | cell (c : Cell)
  | cells (r : ListCellsResponse)
  | ids (ids : Finset String)
  | target (c : ResolvedCell)
deriving DecidableEq

/-- The answer to a request; `Select` gives a set. -/
def ask (s : Registry) : Query → Except Err Answer
  | .get key => (s.get ctx key).map .cell
  | .list req => (s.list K ctx now req).map .cells
  | .select tenant names permission =>
    (s.select ctx tenant names permission).map fun ids => .ids ids.toFinset
  | .resolve tenant name repo parent existing confirmation =>
    (s.resolve L ctx tenant name repo parent existing confirmation).map .target

/-- The registries agree on the cells of the authority. -/
def Agree (a : CellAuthority) (s s' : Registry) : Prop :=
  ∀ id, a.sees id = true → s.cells.lookup id = s'.cells.lookup id

/-- A request to resolve the cell of a job that exists, if it comes to the lookup, has a name that
is taken in both registries or in neither. -/
def Query.Even (s s' : Registry) : Query → Prop
  | .resolve tenant name repo _ (some _) _ =>
    validateCellName name = .ok () → authorizeCell ctx tenant "" "jobs.submit" = .ok () →
      (submittedRepo L repo).toBool → (s.byName name).isSome = (s'.byName name).isSome
  | _ => True

/-! ## The lookups -/

section Lookups

variable {K L ctx now} {a : CellAuthority} {s s' : Registry} {n : String}

/-- What is needed of a reachable registry. -/
structure Sound (s : Registry) : Prop where
  unique : ∀ {n c}, s.byName n = some c ↔ s.cells.lookup c.id = some c ∧ n ∈ c.names
  ids : s.cells.lookup "" = none

theorem Kept.sound {H : Host} {d : Drawing} (h : Kept L H d) : Sound d.registry where
  unique := h.wellFormed.byName_eq_some
  ids := by
    by_contra hne
    obtain ⟨c, hc⟩ := Option.ne_none_iff_exists'.mp hne
    obtain ⟨m, -, hid⟩ := h.ids hc
    exact H.ksuid_ne_empty m hid.symm

/-- The name is not that of a cell the caller may see. -/
def Hidden (a : CellAuthority) (s : Registry) (n : String) : Prop :=
  ∀ c, s.byName n = some c → c.id ≠ "" ∧ a.sees c.id = false

theorem Sound.id_ne (hs : Sound s) {c : Cell} (h : s.byName n = some c) : c.id ≠ "" := by
  intro hid
  have hc := (hs.unique.mp h).1
  rw [hid, hs.ids] at hc
  cases hc

theorem byName_of_sees (hs : Sound s) (hs' : Sound s') (h : Agree a s s') {c : Cell}
    (hc : s.byName n = some c) (hsee : a.sees c.id = true) : s'.byName n = some c := by
  obtain ⟨hlookup, hn⟩ := hs.unique.mp hc
  exact hs'.unique.mpr ⟨h _ hsee ▸ hlookup, hn⟩

theorem Agree.symm (h : Agree a s s') : Agree a s' s := fun id hid => (h id hid).symm

/-- **A name** finds the same visible cell in both registries, or none. -/
theorem byName_alike (hs : Sound s) (hs' : Sound s') (h : Agree a s s') (n : String) :
    s.byName n = s'.byName n ∨ (Hidden a s n ∧ Hidden a s' n) := by
  by_cases hfound : ∃ c, (s.byName n = some c ∨ s'.byName n = some c) ∧ a.sees c.id = true
  · obtain ⟨c, hc | hc, hsee⟩ := hfound
    · exact Or.inl (hc.trans (byName_of_sees hs hs' h hc hsee).symm)
    · exact Or.inl ((byName_of_sees hs' hs h.symm hc hsee).trans hc.symm)
  · have hnot : ∀ c, (s.byName n = some c ∨ s'.byName n = some c) → a.sees c.id = false := by
      intro c hc
      by_contra hsee
      exact hfound ⟨c, hc, Bool.eq_true_of_not_eq_false hsee⟩
    exact Or.inr ⟨fun c hc => ⟨hs.id_ne hc, hnot c (Or.inl hc)⟩,
      fun c hc => ⟨hs'.id_ne hc, hnot c (Or.inr hc)⟩⟩

variable (ha : ctx.authority = some a)

include ha

/-- Once the permission is there, the cell decides. -/
theorem authorizeCell_of_ok {tenant permission : String}
    (h : authorizeCell ctx tenant "" permission = .ok ()) (id : String) :
    authorizeCell ctx tenant id permission =
      if id ≠ "" ∧ a.sees id = false then .error errCellNotFound else .ok () := by
  unfold authorizeCell at h ⊢
  rw [ha] at h ⊢
  dsimp only at h ⊢
  split at h
  · cases h
  · next hperm =>
    rw [if_neg hperm]
    have hiff : (a.cells.any fun cells => !cells id) = true ↔ a.sees id = false := by
      unfold CellAuthority.sees
      cases a.cells <;> simp
    simp only [hiff]

theorem authorizeCell_seen {tenant id permission : String}
    (h : authorizeCell ctx tenant id permission = .ok ()) : id = "" ∨ a.sees id = true := by
  unfold authorizeCell at h
  rw [ha] at h
  dsimp only at h
  split at h
  · cases h
  split at h
  · cases h
  · next hid =>
    by_cases hempty : id = ""
    · exact Or.inl hempty
    · refine Or.inr ?_
      unfold CellAuthority.sees
      cases hc : a.cells with
      | none => rfl
      | some cells => simpa [hempty, hc] using hid

end Lookups

/-! ## The requests -/

/-- The loop of `List` sees only what it takes. -/
theorem listLoop_filter (cur : CellCursor) (size : Int) (keep : String → Cell → Bool)
    (rows : List (String × Cell)) (out : List Cell) :
    listLoop K cur size keep rows out =
      listLoop K cur size (fun _ _ => true) (rows.filter fun r => keep r.1 r.2) out := by
  induction rows generalizing out with
  | nil => rfl
  | cons row rows ih =>
    obtain ⟨id, c⟩ := row
    cases hk : keep id c with
    | false =>
      rw [List.filter_cons_of_neg (by simp [hk]), ← ih, listLoop, if_pos hk]
    | true =>
      have htrue : ¬ true = false := Bool.noConfusion
      rw [List.filter_cons_of_pos (by simp [hk]), listLoop, listLoop, if_neg (by simp [hk]), ih,
        if_neg htrue]

section Requests

variable {K L ctx now} {a : CellAuthority} {s s' : Registry}
variable (ha : ctx.authority = some a) (hs : Sound s) (hs' : Sound s') (h : Agree a s s')

include ha hs hs' h

theorem get_alike (key : CellKey) : s.get ctx key = s'.get ctx key := by
  unfold Registry.get
  cases hauth : authorizeCell ctx key.tenantID key.cellID "cells.get" with
  | error e => rfl
  | ok _ =>
    have hlookup : s.cells.lookup key.cellID = s'.cells.lookup key.cellID := by
      rcases authorizeCell_seen ha hauth with hid | hsee
      · rw [hid, hs.ids, hs'.ids]
      · exact h _ hsee
    rw [hlookup]

theorem selectName_alike {tenant permission : String}
    (hauth : authorizeCell ctx tenant "" permission = .ok ()) (name : String) :
    s.selectName ctx tenant permission name = s'.selectName ctx tenant permission name := by
  rcases byName_alike hs hs' h name with heq | ⟨hh, hh'⟩
  · unfold selectName
    rw [heq]
  · -- absent or invisible, the name is not found
    have hnot : ∀ t : Registry, Hidden a t name → t.selectName ctx tenant permission name =
        (validateCellName name).bind fun _ => .error errCellNotFound := by
      intro t ht
      unfold selectName
      cases hb : t.byName name with
      | none => rfl
      | some c =>
        obtain ⟨hid, hsee⟩ := ht c hb
        dsimp only
        rw [authorizeCell_of_ok ha hauth, if_pos ⟨hid, hsee⟩]
        rfl
    rw [hnot s hh, hnot s' hh']

theorem select_alike (tenant : String) (names : Option (List String)) (permission : String) :
    (s.select ctx tenant names permission).map List.toFinset =
      (s'.select ctx tenant names permission).map List.toFinset := by
  unfold Registry.select
  cases hauth : authorizeCell ctx tenant "" permission with
  | error e => rfl
  | ok u =>
    cases names with
    | none =>
      show Except.ok _ = Except.ok _
      refine congrArg Except.ok (Finset.ext fun id => ?_)
      simp only [List.mem_toFinset, List.mem_map, List.mem_filter, Prod.exists, exists_eq_right,
        exists_and_right]
      refine and_congr_left fun hid => exists_congr fun c => ?_
      have hlookup : s.cells.lookup id = s'.cells.lookup id := by
        have hok : authorizeCell ctx tenant id permission = .ok () := by
          cases hr : authorizeCell ctx tenant id permission with
          | ok u => rfl
          | error e => rw [hr] at hid; cases hid
        rcases authorizeCell_seen ha hok with rfl | hsee
        · rw [hs.ids, hs'.ids]
        · exact h _ hsee
      rw [Table.mem_rows, Table.mem_rows, hlookup]
    | some names =>
      have hmap : s.selectName ctx tenant permission = s'.selectName ctx tenant permission :=
        funext (selectName_alike ha hs hs' h hauth)
      cases names with
      | nil => rfl
      | cons n ns => rw [hmap]

theorem listed_alike (cur : CellCursor) (id : String) (c : Cell) :
    listed ctx cur s id c = listed ctx cur s' id c := by
  unfold listed
  rw [ha]
  cases hsee : a.sees id with
  | false => simp [hsee]
  | true =>
    -- an invisible cell under the name is not this one
    have hname : (s.byName cur.name).any (·.id = id) = (s'.byName cur.name).any (·.id = id) := by
      rcases byName_alike hs hs' h cur.name with heq | ⟨hh, hh'⟩
      · rw [heq]
      · have hnone : ∀ t : Registry, Hidden a t cur.name →
            (t.byName cur.name).any (·.id = id) = false := by
          intro t ht
          cases hb : t.byName cur.name with
          | none => rfl
          | some d =>
            refine decide_eq_false fun hd => ?_
            rw [← hd, (ht d hb).2] at hsee
            cases hsee
        rw [hnone s hh, hnone s' hh']
    rw [hname]

theorem list_alike (r : ListCellsRequest) : s.list K ctx now r = s'.list K ctx now r := by
  have hloop : ∀ cur size, listLoop K cur size (listed ctx cur s) s.cells.sorted [] =
      listLoop K cur size (listed ctx cur s') s'.cells.sorted [] := by
    intro cur size
    have hkeep : ∀ t : Registry, (t.cells.sorted.filter fun r => listed ctx cur s r.1 r.2) =
        (t.cells.sorted.filter fun r => a.sees r.1).filter fun r => listed ctx cur s r.1 r.2 := by
      intro t
      rw [List.filter_filter]
      refine List.filter_congr fun r _ => ?_
      cases hsee : a.sees r.1 with
      | true => rw [Bool.and_true]
      | false => simp [listed, ha, hsee]
    rw [listLoop_filter, hkeep, Table.sorted_filter_congr h, ← hkeep, ← listLoop_filter]
    exact congrArg (fun keep => listLoop K cur size keep _ _)
      (funext fun id => funext fun c => listed_alike ha hs hs' h cur id c)
  unfold Registry.list
  simp only [hloop]

omit hs hs' h in
/-- `Resolve` of a name that finds no visible cell, after the checks that do not look at the
registry. -/
theorem resolve_hidden {tenant name repo repo' : String} {parent : Option Cell}
    {existing : Option ResolvedCell} {confirmation : Bool} (hvalid : validateCellName name = .ok ())
    (hauth : authorizeCell ctx tenant "" "jobs.submit" = .ok ())
    (hrepo : submittedRepo L repo = .ok repo') (hh : Hidden a s name) :
    s.resolve L ctx tenant name repo parent existing confirmation =
      .error (if existing.isSome ∧ (s.byName name).isSome = false then
        .existingJobMismatch "cell identity or repo differs" else errCellNotFound) := by
  have hsubmit :
      ∀ id, authorizeSubmit ctx tenant id parent = authorizeCell ctx tenant id "jobs.submit" :=
    fun id => if_pos (Or.inr (by rw [ha]; rfl))
  unfold Registry.resolve
  rw [hvalid, hsubmit, hauth, hrepo]
  cases hb : s.byName name with
  | none => cases existing <;> rfl
  | some c =>
    obtain ⟨hid, hsee⟩ := hh c hb
    have htaken : ¬ (existing.isSome = true ∧ (some c).isSome = false) := by simp
    show (authorizeSubmit ctx tenant c.id parent).bind _ = _
    rw [hsubmit, authorizeCell_of_ok ha hauth, if_pos ⟨hid, hsee⟩, if_neg htaken]
    rfl

theorem resolve_alike_iff {tenant name repo : String} {parent : Option Cell}
    {existing : Option ResolvedCell} {confirmation : Bool} :
    s.resolve L ctx tenant name repo parent existing confirmation =
        s'.resolve L ctx tenant name repo parent existing confirmation ↔
      Query.Even L ctx s s' (.resolve tenant name repo parent existing confirmation) := by
  have hsubmit :
      ∀ id, authorizeSubmit ctx tenant id parent = authorizeCell ctx tenant id "jobs.submit" :=
    fun id => if_pos (Or.inr (by rw [ha]; rfl))
  rcases byName_alike hs hs' h name with heq | ⟨hh, hh'⟩
  · refine iff_of_true ?_ ?_
    · unfold Registry.resolve
      rw [heq]
    · cases existing with
      | none => trivial
      | some e => exact fun _ _ _ => by rw [heq]
  cases hvalid : validateCellName name with
  | error e =>
    refine iff_of_true ?_ (by cases existing <;> simp [Query.Even, hvalid])
    unfold Registry.resolve
    rw [hvalid]
    rfl
  | ok u =>
  cases hauth : authorizeCell ctx tenant "" "jobs.submit" with
  | error e =>
    refine iff_of_true ?_ (by cases existing <;> simp [Query.Even, hauth])
    unfold Registry.resolve
    rw [hvalid, hsubmit, hauth]
    rfl
  | ok u' =>
  cases hrepo : submittedRepo L repo with
  | error e =>
    refine iff_of_true ?_ (by cases existing <;> simp [Query.Even, hrepo, Except.toBool])
    unfold Registry.resolve
    rw [hvalid, hsubmit, hauth, hrepo]
    rfl
  | ok repo' =>
    rw [resolve_hidden ha hvalid hauth hrepo hh, resolve_hidden ha hvalid hauth hrepo hh']
    cases existing with
    | none => exact iff_of_true rfl trivial
    | some e =>
      have hne : Err.existingJobMismatch "cell identity or repo differs" ≠ errCellNotFound := nofun
      unfold Query.Even
      simp only [hvalid, hauth, hrepo, Except.toBool, forall_const, Option.isSome_some, true_and]
      cases (s.byName name).isSome <;> cases (s'.byName name).isSome <;> simp [hne, hne.symm]

end Requests

theorem map_ids_alike {x y : Except Err (List String)}
    (h : x.map List.toFinset = y.map List.toFinset) :
    (x.map fun ids => Answer.ids ids.toFinset) = y.map fun ids => Answer.ids ids.toFinset := by
  cases x <;> cases y <;> simp_all [Except.map]

theorem map_target_inj {x y : Except Err ResolvedCell} :
    x.map Answer.target = y.map Answer.target ↔ x = y := by
  cases x <;> cases y <;> simp [Except.map]

/-- **What a caller learns** about the cells that the authority does not grant: two registries of
any histories that agree on the others give the same answer to every request, unless it is to
resolve a name for a job that exists and just one of them has a cell of that name. -/
theorem answers_alike_iff (K : CursorSeal) (L : CellLib) (H H' : Host) (ops ops' : List Op)
    (ctx : Ctx) (a : CellAuthority) (ha : ctx.authority = some a)
    (h : Agree a (run L H ops).registry (run L H' ops').registry) (now : Time) (q : Query) :
    (run L H ops).registry.ask K L ctx now q = (run L H' ops').registry.ask K L ctx now q ↔
      q.Even L ctx (run L H ops).registry (run L H' ops').registry := by
  have hs := (run_kept ops (kept_empty (H := H) (L := L))).1.sound
  have hs' := (run_kept ops' (kept_empty (H := H') (L := L))).1.sound
  cases q with
  | get key => exact iff_of_true (congrArg (·.map Answer.cell) (get_alike ha hs hs' h key)) trivial
  | list req =>
      exact iff_of_true (congrArg (·.map Answer.cells) (list_alike ha hs hs' h req)) trivial
  | select tenant names permission =>
    exact iff_of_true (map_ids_alike (select_alike ha hs hs' h tenant names permission)) trivial
  | resolve tenant name repo parent existing confirmation =>
    exact map_target_inj.trans (resolve_alike_iff ha hs hs' h)

/-! ## A name that is taken -/

/-- A caller who may see the cell `x` only. -/
def onlyX : CellAuthority where
  principal := "p"
  tenantID := "t"
  permissions _ := true
  cells := some fun id => id = "x"

/-- The cell `open` gets the ID `x`. -/
def oneCell : List Op := [.create .admin 1 { tenantID := "t", name := "open", repo := "h/a" }]

def twoCells : List Op :=
  oneCell ++ [.create .admin 2 { tenantID := "t", name := "secret", repo := "h/b" }]

/-- No token is ever redeemed. -/
def noTokens : CursorSeal where
  issue _ := ""
  redeem _ := none

theorem agree_onlyX : Agree onlyX (run .plain .accepting oneCell).registry
    (run .plain .accepting twoCells).registry := by
  intro id hid
  have hx : id = "x" := of_decide_eq_true hid
  rw [hx]
  decide +kernel

/-- A new submission cannot tell whether there is a cell `secret`. -/
theorem secret_not_found :
    (run .plain .accepting oneCell).registry.ask noTokens .plain { authority := some onlyX } 3
        (.resolve "t" "secret" "" none none false) =
      (run .plain .accepting twoCells).registry.ask noTokens .plain { authority := some onlyX } 3
        (.resolve "t" "secret" "" none none false) :=
  (answers_alike_iff noTokens .plain .accepting .accepting oneCell twoCells
    { authority := some onlyX }
    onlyX rfl agree_onlyX 3 (.resolve "t" "secret" "" none none false)).mpr trivial

/-- A submission of a job that exists, in the cell `open`, can. -/
theorem secret_name_taken :
    Agree onlyX (run .plain .accepting oneCell).registry (run .plain .accepting twoCells).registry ∧
    (run .plain .accepting oneCell).registry.ask noTokens .plain { authority := some onlyX } 3
        (.resolve "t" "secret" "" none (some ⟨"x", "open", "h/a"⟩) true) =
      .error (.existingJobMismatch "cell identity or repo differs") ∧
    (run .plain .accepting twoCells).registry.ask noTokens .plain { authority := some onlyX } 3
        (.resolve "t" "secret" "" none (some ⟨"x", "open", "h/a"⟩) true) =
      .error errCellNotFound :=
  ⟨agree_onlyX, by decide +kernel, by decide +kernel⟩

end Registry

end JobDB
