import JobDB.Cell.Registry
import JobDB.Runtime.ListJobs
import Mathlib.Data.List.Dedup

/-!
# Polling for work

Requests of `PollWork` (`pkg/jobdb/types.go`), what both runtimes check of them before they
look for a job, and the cells a caller may take work from. A poll that waits for work looks
again from time to time; here it looks once.
-/

namespace JobDB

/-- `PollWorkRequest`, without the time up to which it waits. -/
structure WorkRequest where
  tenantId : String
  routes : List Route
  cellNames : Option (List String) := none
  metadataEquals : List MetadataPredicate := []
  workerID : String := ""
  limit : Int := 0
  leaseDuration : Int := 0

namespace WorkRequest

/-- The checks at the head of `PollWork`. -/
def validate (req : WorkRequest) : Except Err Unit := do
  req.routes.forM Route.validate
  demand (.invalid "lease duration must be >= 0") (0 ≤ req.leaseDuration)
  demand (.invalid "tenant_id is required for PollWork") (req.tenantId ≠ "")

/-- The number of leases asked for. -/
def limitInUse (req : WorkRequest) : Nat := if req.limit ≤ 0 then 1 else req.limit.toNat

/-- `capSet`. -/
def capSet (req : WorkRequest) : List Route := req.routes.filter (·.jobType ≠ "")

/-- A poll for the routes alone, for leases of a nanosecond. -/
def plain (tenant : String) (routes : List Route) (limit : Int) : WorkRequest :=
  { tenantId := tenant, routes := routes, limit := limit, leaseDuration := 1 }

end WorkRequest

/-- The listing of a tenant's jobs that are available for the routes. -/
def availableJobs (tenant : String) (routes : List Route) (pageSize : Int) : ListJobsRequest :=
  { tenantIds := [tenant], availableRoutes := routes, pageSize := pageSize }

/-- Keys of one tenant are told apart by their texts. -/
theorem JobKey.eq_of_text {k k' : JobKey} (htenant : k.tenantId = k'.tenantId)
    (h : k.text = k'.text) : k = k' := by
  obtain ⟨t, j⟩ := k
  obtain ⟨t', j'⟩ := k'
  obtain rfl : t = t' := htenant
  have htext : (t ++ "/" ++ j).toList = (t ++ "/" ++ j').toList := congrArg String.toList h
  simp only [String.toList_append] at htext
  have hjob : j = j' := String.toList_inj.1 (List.append_cancel_left htext)
  rw [hjob]

/-! ## Routes -/

theorem Route.jobType_ne_empty {r : Route} (h : r.validate = .ok ()) : r.jobType ≠ "" := by
  intro hempty
  unfold Route.validate validateIdentifier at h
  rw [hempty] at h
  cases h

theorem forM_eq_ok {α : Type} {f : α → Except Err Unit} {xs : List α} :
    xs.forM f = .ok () ↔ ∀ x ∈ xs, f x = .ok () := by
  induction xs with
  | nil => exact ⟨fun _ x hx => (nomatch hx), fun _ => rfl⟩
  | cons x xs ih =>
    show (f x >>= fun _ => xs.forM f) = .ok () ↔ _
    rw [bind_eq_ok, List.forall_mem_cons, ← ih]
    exact ⟨fun ⟨_, hx, hxs⟩ => ⟨hx, hxs⟩, fun ⟨hx, hxs⟩ => ⟨(), hx, hxs⟩⟩

/-- Routes that a listing accepts are accepted by a poll. -/
theorem validate_of_validateRoutes {req : ListJobsRequest} (h : req.validateRoutes = .ok ()) :
    ∀ route ∈ req.availableRoutes, route.validate = .ok () := by
  obtain ⟨_, hroutes, -⟩ := bind_eq_ok.1 h
  intro route hmem
  have hroute := forM_eq_ok.1 hroutes route hmem
  cases hvalid : route.validate with
  | error e => rw [hvalid] at hroute; cases hroute
  | ok u => rfl

/-! ## Cells -/

/-- A caller who may do something in the tenant may do it in the cells that the authority
lists. -/
theorem authorizeCell_iff {ctx : Ctx} {tenant id permission : String}
    (h : authorizeCell ctx tenant "" permission = .ok ()) (hid : id ≠ "") :
    authorizeCell ctx tenant id permission = .ok () ↔
      (ctx.authority.bind (·.cells)).all (fun cells => cells id) = true := by
  unfold authorizeCell at h ⊢
  cases hauth : ctx.authority with
  | none => rw [hauth] at h; cases h
  | some a =>
    rw [hauth] at h
    dsimp only at h ⊢
    split at h
    · cases h
    · next hpermitted =>
      rw [if_neg hpermitted]
      cases hcells : a.cells with
      | none => simp [hcells]
      | some cells => cases hcell : cells id <;> simp [hcells, hcell, hid]

/-- In which cells a caller may do something does not depend on what it is. -/
theorem authorizeCell_congr {ctx : Ctx} {tenant permission permission' : String}
    (h : authorizeCell ctx tenant "" permission = .ok ())
    (h' : authorizeCell ctx tenant "" permission' = .ok ()) (id : String) :
    authorizeCell ctx tenant id permission = .ok () ↔
      authorizeCell ctx tenant id permission' = .ok () := by
  by_cases hid : id = ""
  · rw [hid]
    exact iff_of_true h h'
  · rw [authorizeCell_iff h hid, authorizeCell_iff h' hid]

theorem WorkRequest.validate_plain {ctx : Ctx} {tenant permission : String} {routes : List Route}
    (h : authorizeCell ctx tenant "" permission = .ok ())
    (hroutes : ∀ route ∈ routes, route.validate = .ok ()) (limit : Int) :
    (plain tenant routes limit).validate = .ok () := by
  have htenant : tenant ≠ "" := by
    rintro rfl
    unfold authorizeCell at h
    cases hauth : ctx.authority with
    | none => rw [hauth] at h; cases h
    | some a => rw [hauth] at h; simp at h
  refine bind_eq_ok.2 ⟨(), forM_eq_ok.2 hroutes, ?_⟩
  exact bind_eq_ok.2 ⟨(), demand_eq_ok.2 (show (0 : Int) ≤ 1 by decide), demand_eq_ok.2 htenant⟩

namespace Registry

variable {ctx : Ctx} {tenant permission : String} {s : Registry} {ids : List String}

/-- A cell that is selected is stored, and the caller may use it. -/
theorem of_mem_select {names : Option (List String)}
    (h : s.select ctx tenant names permission = .ok ids) {id : String} (hid : id ∈ ids) :
    authorizeCell ctx tenant id permission = .ok () ∧
      ∃ k c, s.cells.lookup k = some c ∧ (id = k ∨ id = c.id) := by
  obtain ⟨_, -, h⟩ := bind_eq_ok.1 h
  cases names with
  | none =>
    obtain rfl := Except.ok.inj h
    obtain ⟨⟨k, c⟩, hrow, rfl⟩ := List.mem_map.1 hid
    obtain ⟨hmem, hok⟩ := List.mem_filter.1 hrow
    refine ⟨?_, k, c, Table.mem_rows.1 hmem, .inl rfl⟩
    cases hauth : authorizeCell ctx tenant k permission with
    | error e => rw [hauth] at hok; cases hok
    | ok u => rfl
  | some names =>
    cases names with
    | nil => cases h
    | cons name names =>
      obtain ⟨found, hfound, rfl⟩ := map_eq_ok.1 h
      obtain ⟨n, hn⟩ := mem_mapM hfound (List.mem_dedup.1 hid)
      obtain ⟨_, -, hn⟩ := bind_eq_ok.1 hn
      split at hn
      · cases hn
      · next c hc =>
        obtain ⟨_, hauth, rfl⟩ := map_eq_ok.1 hn
        obtain ⟨⟨k, c⟩, hrow, rfl⟩ := Option.map_eq_some_iff.1 hc
        exact ⟨hauth, k, c, Table.mem_rows.1 (List.mem_of_find?_eq_some hrow), .inr rfl⟩

/-- The caller may use every cell that is selected. -/
theorem authorized_of_mem_select {names : Option (List String)}
    (h : s.select ctx tenant names permission = .ok ids) {id : String} (hid : id ∈ ids) :
    authorizeCell ctx tenant id permission = .ok () :=
  (of_mem_select h hid).1

/-- Without names all cells are selected that the caller may use. -/
theorem select_all (h : authorizeCell ctx tenant "" permission = .ok ()) :
    s.select ctx tenant none permission =
      .ok ((s.cells.rows.filter fun r =>
        (authorizeCell ctx tenant r.1 permission).toBool).map (·.1)) := by
  unfold select
  rw [h]
  rfl

theorem mem_select_all (h : s.select ctx tenant none permission = .ok ids) (id : String) :
    id ∈ ids ↔ (∃ c, s.cells.lookup id = some c) ∧
      authorizeCell ctx tenant id permission = .ok () := by
  constructor
  · intro hid
    refine ⟨?_, authorized_of_mem_select h hid⟩
    obtain ⟨_, -, rfl⟩ := map_eq_ok.1 h
    obtain ⟨⟨id, c⟩, hrow, rfl⟩ := List.mem_map.1 hid
    exact ⟨c, Table.mem_rows.1 (List.mem_filter.1 hrow).1⟩
  · rintro ⟨⟨c, hc⟩, hauthorized⟩
    obtain ⟨_, -, rfl⟩ := map_eq_ok.1 h
    refine List.mem_map.2 ⟨(id, c), List.mem_filter.2 ⟨Table.mem_rows.2 hc, ?_⟩, rfl⟩
    rw [hauthorized]
    rfl

end Registry

end JobDB
