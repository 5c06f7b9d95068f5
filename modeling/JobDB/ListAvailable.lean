import JobDB.ListPages
import JobDB.Sqlite.Available
import JobDB.Toy.PollWork

/-!
# The jobs of a listing and of a poll

A listing with `AvailableRoutes` is to show the jobs that a poll for the same routes could lease.
It does, in SQLite and in memory, for stored jobs and one clock reading.

An empty list of routes is no filter for a listing, while a poll for no routes leases nothing.
-/

namespace JobDB

open scoped List

/-- For routes that are not empty, the pages of a listing that is answered show each job exactly
once that some poll for the tenant and the routes leases at that instant, and no other. -/
theorem available_jobs_are_leasable :
    (∀ (L : ListLib) (H : Host) (ctx : Ctx) (db : Sqlite.ListDb) (tenant : String)
        (routes : List Route) (pageSize : Int) (resp : ListJobsResponse)
        (scan : Nat → List Sqlite.JobRow) (writer : Nat),
      Sqlite.Stored db → 0 ≤ db.state.now → db.state.now + 1 < 2 ^ 63 → routes ≠ [] →
      Sqlite.listJobs L ctx db db.state.now db.rows (availableJobs tenant routes pageSize) =
        .ok resp → authorizeCell ctx tenant "" "jobs.acquire" = .ok () →
      (∀ i, scan i ~ db.rows) →
      ∃ pages, followPages (fun i token => Sqlite.listJobs L ctx db db.state.now (scan i)
          { availableJobs tenant routes pageSize with pageToken := token })
            (db.rows.length + 1) 0 .empty = some pages ∧
        (pages.flatten.map (·.jobKey)).Nodup ∧
        ∀ k, k ∈ pages.flatten.map (·.jobKey) ↔
          ∃ req leases, req.tenantId = tenant ∧ req.routes = routes ∧
            Sqlite.pollWorkNow L H ctx db writer req = .ok leases ∧ k ∈ leases.map (·.jobKey)) ∧
    (∀ (L : ListLib) (ids : Nat → String) (ctx : Ctx) (e : Toy.Jobs) (now : Time) (tenant : String)
        (routes : List Route) (pageSize : Int) (resp : ListJobsResponse)
        (scan : Nat → List (JobKey × Toy.JobRecord)),
      Toy.Stored e → routes ≠ [] →
      Toy.listJobs L ctx e now e.jobRecords.rows (availableJobs tenant routes pageSize) = .ok resp →
      authorizeCell ctx tenant "" "jobs.acquire" = .ok () →
      (∀ i, scan i ~ e.jobRecords.rows) →
      ∃ pages, followPages (fun i token => Toy.listJobs L ctx e now (scan i)
          { availableJobs tenant routes pageSize with pageToken := token })
            (e.jobRecords.rows.length + 1) 0 .empty = some pages ∧
        (pages.flatten.map (·.jobKey)).Nodup ∧
        ∀ k, k ∈ pages.flatten.map (·.jobKey) ↔
          ∃ req order leases, req.tenantId = tenant ∧ req.routes = routes ∧
            order ~ e.jobRecords.keys ∧ Toy.pollWorkNow L ids ctx e now order req = .ok leases ∧
            k ∈ leases.map (·.jobKey)) :=
  ⟨fun _ _ _ _ _ _ _ _ _ writer hstored hnow hfits hroutes hfirst hacquire hscan =>
      Sqlite.listed_iff_leased hstored hnow hfits hroutes hfirst hacquire hscan writer,
    fun _ _ _ _ _ _ _ _ _ _ hstored hroutes hfirst hacquire hscan =>
      Toy.listed_iff_leased hstored hroutes hfirst hacquire hscan⟩

/-! ## One tenant, some jobs -/

theorem plainJobs_stored : Sqlite.Stored plainJobs where
  hidden_ended k r h := by
    have hall : ∀ p ∈ plainJobs.state.jobs.rows, p.2.hiddenAtNS.isSome →
        p.2.archivedAtNS.isSome := by
      decide
    exact hall (k, r) (Table.mem_rows.2 h)
  retired_ended k r c h hc hne := by
    have hall : ∀ p ∈ plainJobs.state.jobs.rows, p.2.cell.cellID = "blue" := by decide
    have hblue : blueRegistry.cells.lookup "blue" = some blueCell := by decide
    have hcell : r.cell.cellID = "blue" := hall (k, r) (Table.mem_rows.2 h)
    have hfound : blueRegistry.cells.lookup r.cell.cellID = some c := hc
    rw [hcell, hblue] at hfound
    exact absurd (Option.some.inj hfound ▸ rfl) hne
  cell_named k r h := by
    have hall : ∀ p ∈ plainJobs.state.jobs.rows, p.2.cell.cellID ≠ "" := by decide
    exact hall (k, r) (Table.mem_rows.2 h)
  created k r h := by
    have hall : ∀ p ∈ plainJobs.state.jobs.rows, p.2.createdAtNS ≠ 0 := by decide
    exact hall (k, r) (Table.mem_rows.2 h)

/-- The route of the jobs. -/
def jobRoutes : List Route := [{ jobType := "job" }]

/-- A record of a job that is ready. -/
def readyRecord : Toy.JobRecord :=
  { cell := blueCell.resolved, goalID := "g", status := .ready, jobType := "job", createdAt := 1,
    route := { jobType := "job" } }

/-- The job `x` of the tenant `a`, in memory. -/
def plainRecords : Toy.Jobs :=
  { jobRecords := AList.singleton ⟨"a", "x"⟩ readyRecord, cells := fun _ => blueRegistry }

theorem plainRecords_stored : Toy.Stored plainRecords where
  sound k r h := by
    have hall : ∀ p ∈ plainRecords.jobRecords.rows, p.2 = readyRecord := by decide
    obtain rfl : r = readyRecord := hall (k, r) (Table.mem_rows.2 h)
    exact ⟨by decide, by decide, by decide⟩
  created k r h := by
    have hall : ∀ p ∈ plainRecords.jobRecords.rows, (timeJSON p.2.createdAt).isSome := by
      decide +kernel
    exact hall (k, r) (Table.mem_rows.2 h)
  cells_keyed tenant id c h := by
    have hall : ∀ p ∈ blueRegistry.cells.rows, p.2.id = p.1 := by decide
    exact hall (id, c) (Table.mem_rows.2 h)

/-- Two jobs in SQLite and one in memory, all of them ready. -/
theorem available_jobs_are_leasable_plain :
    (∃ pages, followPages (fun _ token => Sqlite.listJobs .plain .admin plainJobs 2 plainJobs.rows
        { availableJobs "a" jobRoutes 1 with pageToken := token })
          (plainJobs.rows.length + 1) 0 .empty = some pages ∧
      (pages.flatten.map (·.jobKey)).Nodup ∧
      ∀ k, k ∈ pages.flatten.map (·.jobKey) ↔
        ∃ req leases, req.tenantId = "a" ∧ req.routes = jobRoutes ∧
          Sqlite.pollWorkNow .plain .accepting .admin plainJobs 0 req = .ok leases ∧
          k ∈ leases.map (·.jobKey)) ∧
    ∃ pages, followPages (fun _ token => Toy.listJobs .plain .admin plainRecords 2
        plainRecords.jobRecords.rows { availableJobs "a" jobRoutes 1 with pageToken := token })
          (plainRecords.jobRecords.rows.length + 1) 0 .empty = some pages ∧
      (pages.flatten.map (·.jobKey)).Nodup ∧
      ∀ k, k ∈ pages.flatten.map (·.jobKey) ↔
        ∃ req order leases, req.tenantId = "a" ∧ req.routes = jobRoutes ∧
          order ~ plainRecords.jobRecords.keys ∧
          Toy.pollWorkNow .plain (fun _ => "lease") .admin plainRecords 2 order req = .ok leases ∧
          k ∈ leases.map (·.jobKey) := by
  obtain ⟨resp, hsqlite⟩ : ∃ resp, Sqlite.listJobs .plain .admin plainJobs 2 plainJobs.rows
      (availableJobs "a" jobRoutes 1) = .ok resp := ⟨_, rfl⟩
  obtain ⟨resp', htoy⟩ : ∃ resp, Toy.listJobs .plain .admin plainRecords 2
      plainRecords.jobRecords.rows (availableJobs "a" jobRoutes 1) = .ok resp := ⟨_, rfl⟩
  exact ⟨available_jobs_are_leasable.1 .plain .accepting .admin plainJobs "a" jobRoutes 1 resp
      (fun _ => plainJobs.rows) 0 plainJobs_stored (by decide) (by decide) (by decide) hsqlite rfl
      fun _ => List.Perm.refl _,
    available_jobs_are_leasable.2 .plain (fun _ => "lease") .admin plainRecords 2 "a" jobRoutes
      1 resp'
      (fun _ => plainRecords.jobRecords.rows) plainRecords_stored (by decide) htoy rfl
      fun _ => List.Perm.refl _⟩

/-- Listed without a route are all jobs, and a poll for no route leases none of them. -/
theorem listed_without_routes :
    (∃ pages, followPages (fun _ token => Sqlite.listJobs .plain .admin plainJobs 2 plainJobs.rows
        { availableJobs "a" [] 1 with pageToken := token }) (plainJobs.rows.length + 1) 0 .empty =
          some pages ∧ ⟨"a", "x"⟩ ∈ pages.flatten.map (·.jobKey)) ∧
    ∀ req leases, req.tenantId = "a" → req.routes = [] →
      Sqlite.pollWorkNow .plain .accepting .admin plainJobs 0 req = .ok leases → leases = [] := by
  constructor
  · have hrun :
      ((followPages (fun _ token => Sqlite.listJobs .plain .admin plainJobs 2 plainJobs.rows
        { availableJobs "a" [] 1 with pageToken := token })
        (plainJobs.rows.length + 1) 0 .empty).map fun pages =>
          decide (⟨"a", "x"⟩ ∈ pages.flatten.map (·.jobKey))) = some true := by
      decide +kernel
    obtain ⟨pages, hpages, hmem⟩ := Option.map_eq_some_iff.1 hrun
    exact ⟨pages, hpages, by simpa using hmem⟩
  · intro req leases _ hroutes h
    obtain ⟨_, -, h⟩ := bind_eq_ok.1 h
    rw [if_pos hroutes] at h
    exact (Except.ok.inj h).symm

end JobDB
