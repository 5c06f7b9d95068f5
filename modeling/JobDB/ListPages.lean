import JobDB.Sqlite.ListJobs
import JobDB.Toy.ListJobs

/-!
# The pages of a job listing

Following the page tokens of `ListJobs` from the first page on, in SQLite and in memory, over
a set of jobs and a clock that stand still. The walk always ends, after one page more than
there are jobs at most.

Jobs are ordered by creation time and by the text of their key, and a token holds the place of
the last job on its page. A text does not determine a key: the slash between tenant and job
ID may also occur in either. Two jobs that were created at the same instant and whose keys
have the same text share a place, and where a page ends between them the second is skipped.
-/

namespace JobDB

open scoped List

/-- For every request whose first page is answered, following the tokens ends, and the pages
list every matching job exactly once and in order if and only if at every page boundary the next
job's creation time and key text lie below the place that the token gives back. -/
theorem pages_list_each_job (L : ListLib) (ctx : Ctx) (clock : Time) (req : ListJobsRequest) :
    (∀ (db : Sqlite.ListDb) (resp : ListJobsResponse) (scan : Nat → List Sqlite.JobRow),
      Sqlite.listJobs L ctx db clock db.rows { req with pageToken := .empty } = .ok resp →
      (∀ i, scan i ~ db.rows) →
      ∃ pages, followPages (fun i token => Sqlite.listJobs L ctx db clock (scan i)
          { req with pageToken := token }) (db.rows.length + 1) 0 .empty = some pages ∧
        (ListsEach Sqlite.timeToNS pages ((Sqlite.matching L ctx db clock req db.rows).map fun r =>
            Sqlite.rowSummary L db (Sqlite.projected db clock r)) ↔
          Paging.Parted Sqlite.resumed req.pageSizeInUse
            ((Paging.listed Sqlite.position ((Sqlite.matching L ctx db clock req db.rows).map
              (Sqlite.projected db clock))).map Sqlite.position))) ∧
    (∀ (e : Toy.Jobs) (resp : ListJobsResponse) (scan : Nat → List (JobKey × Toy.JobRecord)),
      Toy.listJobs L ctx e clock e.jobRecords.rows { req with pageToken := .empty } = .ok resp →
      (∀ i, scan i ~ e.jobRecords.rows) →
      ∃ pages, followPages (fun i token => Toy.listJobs L ctx e clock (scan i)
          { req with pageToken := token }) (e.jobRecords.rows.length + 1) 0 .empty = some pages ∧
        (ListsEach id pages ((Toy.matching L ctx e clock req e.jobRecords.rows).map
            (Toy.summary L e clock)) ↔
          Paging.Parted Toy.resumed req.pageSizeInUse
            ((Paging.listed Toy.position ((Toy.matching L ctx e clock req e.jobRecords.rows).map
              (Toy.summary L e clock))).map Toy.position))) :=
  ⟨fun _ _ _ hfirst hscan => Sqlite.pages_iff hfirst hscan,
    fun _ _ _ hfirst hscan => Toy.pages_iff hfirst hscan⟩

/-! ## Two tenants, two jobs -/

/-- A library in which no request is told from another. -/
def ListLib.plain : ListLib where
  queryDigest _ _ _ := "digest"
  float := some
  scheduleDecodes _ := true
  quote s := "\"" ++ s ++ "\""

/-- A tenant's only cell. -/
def blueCell : Cell :=
  { tenantID := "a", id := "blue", name := "main", repo := "host/repo", revision := "r",
    createdAt := 0, updatedAt := 0 }

def blueRegistry : Registry := { cells := AList.singleton "blue" blueCell }

/-- A job that was created at the first nanosecond. -/
def jobAt (tenant id : String) : Sqlite.JobRow :=
  { cell := blueCell.resolved, goalID := "g", tenantID := tenant, jobID := id, jobType := "job",
    nextRoute := { jobType := "job" }, availableAtNS := 1, createdAtNS := 1, updatedAtNS := 1 }

/-- Two jobs. -/
def twoJobs (x y : Sqlite.JobRow) : Sqlite.State :=
  { jobs := (AList.singleton x.key x).insert y.key y, now := 2 }

/-- Tables with the one cell. -/
def blueTables (s : Sqlite.State)
    (h : ∀ p ∈ s.jobs.rows, p.2.key = p.1 ∧
      (blueRegistry.cells.lookup p.2.cell.cellID).isSome ∧
      Sqlite.unixNano p.2.createdAtNS = p.2.createdAtNS) : Sqlite.ListDb where
  state := s
  cells _ := blueRegistry
  keyed k r hr := (h (k, r) (Table.mem_rows.2 hr)).1
  cell_known k r hr := (h (k, r) (Table.mem_rows.2 hr)).2.1
  created_fits k r hr := (h (k, r) (Table.mem_rows.2 hr)).2.2

/-- The jobs `x` and `y` of the tenant `a`. -/
def plainJobs : Sqlite.ListDb := blueTables (twoJobs (jobAt "a" "x") (jobAt "a" "y")) (by decide)

/-- The job `c` of the tenant `a/b` and the job `b/c` of the tenant `a`: their keys have the same
text. -/
def slashJobs : Sqlite.ListDb :=
  blueTables (twoJobs (jobAt "a/b" "c") (jobAt "a" "b/c")) (by decide)

/-- All jobs of both tenants, one on a page. -/
def oneByOne : ListJobsRequest := { tenantIds := ["a/b", "a"], pageSize := 1 }

/-- Two jobs on two pages. -/
theorem pages_list_each_job_plain :
    ∃ pages, followPages (fun _ token => Sqlite.listJobs .plain .admin plainJobs 2 plainJobs.rows
        { oneByOne with pageToken := token }) (plainJobs.rows.length + 1) 0 .empty = some pages ∧
      ListsEach Sqlite.timeToNS pages
        ((Sqlite.matching .plain .admin plainJobs 2 oneByOne plainJobs.rows).map fun r =>
          Sqlite.rowSummary .plain plainJobs (Sqlite.projected plainJobs 2 r)) := by
  obtain ⟨resp, hfirst⟩ : ∃ resp, Sqlite.listJobs .plain .admin plainJobs 2 plainJobs.rows
      { oneByOne with pageToken := .empty } = .ok resp :=
    ⟨_, rfl⟩
  obtain ⟨pages, hpages, hiff⟩ := (pages_list_each_job .plain .admin 2 oneByOne).1 plainJobs resp
    (fun _ => plainJobs.rows) hfirst fun _ => List.Perm.refl _
  refine ⟨pages, hpages, hiff.2 (Paging.parted_of_distinct ?_ ?_ (by decide))⟩
  · decide +kernel
  · decide +kernel

/-- Of the two jobs whose keys have the same text one is listed, and the walk is over. -/
theorem job_skipped_between_pages :
    ∃ pages, followPages (fun _ token => Sqlite.listJobs .plain .admin slashJobs 2 slashJobs.rows
        { oneByOne with pageToken := token }) (slashJobs.rows.length + 1) 0 .empty = some pages ∧
      ¬ ListsEach Sqlite.timeToNS pages
        ((Sqlite.matching .plain .admin slashJobs 2 oneByOne slashJobs.rows).map fun r =>
          Sqlite.rowSummary .plain slashJobs (Sqlite.projected slashJobs 2 r)) := by
  have hrun : (followPages (fun _ token => Sqlite.listJobs .plain .admin slashJobs 2 slashJobs.rows
      { oneByOne with pageToken := token }) (slashJobs.rows.length + 1) 0 .empty).map
        (·.flatten.length) = some 1 ∧
      (Sqlite.matching .plain .admin slashJobs 2 oneByOne slashJobs.rows).length = 2 := by
    decide +kernel
  obtain ⟨pages, hpages, hone⟩ := Option.map_eq_some_iff.1 hrun.1
  refine ⟨pages, hpages, fun h => ?_⟩
  have hlength := h.once.length_eq
  rw [hone, List.length_map, hrun.2] at hlength
  exact absurd hlength (by decide)

end JobDB
