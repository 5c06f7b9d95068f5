import JobDB.Cell.Registry
import JobDB.Lib.Table
import JobDB.Runtime.ListJobs
import JobDB.Sqlite.Database

/-!
# Listing jobs in SQLite

`ListJobs` and its query (`sqlite/runtime.go`, `sqlite/list_jobs.go`).

The query's conditions are evaluated from left to right, its columns for every row that
meets them, and then the rows are put in order. SQL leaves it open in which order rows are
scanned and in which order it returns rows that compare equal: `scan` is the order of the
scan, which may be another one in every call, and the sort keeps the scan's order among equal
rows.
-/

namespace JobDB.Sqlite

open scoped List

/-- The tables that a listing reads. Jobs are stored under their own keys, their cells are
registered (a foreign key), and a column of integers holds 64 bits. -/
structure ListDb where
  state : State
  cells : String → Registry
  keyed : ∀ k r, state.jobs.lookup k = some r → r.key = k
  cell_known : ∀ k r, state.jobs.lookup k = some r →
    ((cells r.tenantID).cells.lookup r.cell.cellID).isSome
  created_fits : ∀ k r, state.jobs.lookup k = some r → unixNano r.createdAtNS = r.createdAtNS

namespace ListDb

/-- The rows of `jobdb_jobs`. -/
def rows (db : ListDb) : List JobRow := db.state.jobs.rows.map (·.2)

theorem mem_rows {db : ListDb} {r : JobRow} (h : r ∈ db.rows) :
    db.state.jobs.lookup r.key = some r := by
  obtain ⟨⟨k, r'⟩, hmem, rfl⟩ := List.mem_map.1 h
  have hlookup : db.state.jobs.lookup k = some r' := Table.mem_rows.1 hmem
  rw [db.keyed k r' hlookup]
  exact hlookup

end ListDb

/-! ## The projection -/

/-- `jobdb_list_wait_pending`. -/
def listWaitPending (w : Option WaitRow) (now : Int) : Except Err Bool :=
  match w with
  | none => .error .dependencyWaitNotFound
  | some w => .ok (w.payload.state = .pending ∧ w.payload.deadline.all (now < ·.instant))

/-- The wait joined to a row. -/
def joinedWait (s : State) (r : JobRow) : Option WaitRow :=
  s.waits.lookup ⟨r.key, r.dependencyWaitID⟩

/-- The column `pending_wait`. -/
def pendingWait (s : State) (now : Int) (r : JobRow) : Except Err Bool :=
  if r.dependencyWaitID ≠ "" ∧ r.archivedAtNS = none ∧ r.cancelRequested = false then
    listWaitPending (joinedWait s r) now
  else .ok false

/-- The depth to which SQLite reads JSON. -/
def jsonDepthLimit : Nat := 1000

/-- `json_extract(metadata, '$.internal.parentJobId')`, with the empty text for `NULL`. -/
def extractParent (metadata : String) : Except Err String :=
  if metadata = "" then .ok ""
  else
    match (Json.read metadata).filter fun v => v.depth ≤ jsonDepthLimit with
    | none => .error (.store "malformed JSON")
    | some v =>
      match metadataValueAtPath v ["internal", "parentJobId"] with
      | none | some .null => .ok ""
      | some (.str parent) => .ok parent
      | some other => .ok other.write

/-- The column `list_parent`. -/
def listParent (r : JobRow) : Except Err String :=
  match r.parentJobID with
  | some parent => .ok parent
  | none => extractParent r.metadata

/-- The columns `effective_job_type` and `effective_task_type`. -/
def effectiveRoute (now : Int) (r : JobRow) : Route :=
  match r.alternateRoute with
  | some route => if r.alternateAtNS.any (· ≤ now) then route else r.nextRoute
  | none => r.nextRoute

/-- Some job of the wait list is there and not archived. -/
def waitsForJob (s : State) (r : JobRow) : Bool :=
  r.waitFor.any fun id =>
    id ≠ "" && (s.jobs.lookup ⟨r.tenantID, id⟩).any fun dep => dep.archivedAtNS.isNone

/-- The last cases of the column `list_status`. -/
def listStatusIdle (s : State) (now : Int) (r : JobRow) : JobDB.JobStatus :=
  if r.waitDeadlineNS.all (now < ·) ∧ waitsForJob s r then .pendingJobs
  else if now < r.availableAtNS then .awaitingFuture
  else if crashConcernThreshold ≤ r.consecutiveExpirations then .crashConcern
  else .ready

/-- The column `list_status`. -/
def listStatus (s : State) (now : Int) (r : JobRow) : Except Err JobDB.JobStatus :=
  if r.archivedAtNS.isSome then
    .ok (if r.cancelRequested ∨ r.completionStatus = some "cancelled" then .cancelled
      else .completed)
  else if r.cancelRequested then .ok .cancelled
  else if r.leaseID.getD "" ≠ "" ∧ r.leaseExpiresAtNS.any (now < ·) then .ok .active
  else if r.dependencyWaitID = "" then .ok (listStatusIdle s now r)
  else
    match listWaitPending (joinedWait s r) now with
    | .error e => .error e
    | .ok true => .ok .pendingJobs
    | .ok false => .ok (listStatusIdle s now r)

/-- A row with the columns that are computed. -/
structure Projected where
  row : JobRow
  pending : Bool
  parent : String
  status : JobDB.JobStatus

/-- The computed columns of a row. -/
def project (s : State) (now : Int) (r : JobRow) : Except Err Projected := do
  let pending ← pendingWait s now r
  let parent ← listParent r
  let status ← listStatus s now r
  .ok { row := r, pending := pending, parent := parent, status := status }

/-! ## The conditions -/

section Query

variable (L : ListLib) (ctx : Ctx) (db : ListDb)

/-- `listStoreSelection` for the requested statuses. -/
def statusSelection : List JobDB.JobStatus → Except Err (Bool × Bool)
  | [] => .ok (false, false)
  | status :: rest =>
    match status with
    | .other text => .error (.invalid ("unknown status " ++ L.quote text))
    | .completed => (statusSelection rest).map fun s => (s.1, true)
    | .cancelled => (statusSelection rest).map fun _ => (true, true)
    | _ => (statusSelection rest).map fun s => (true, s.2)

/-- `listStoreSelection`: are active jobs included, and archived ones? -/
def listStoreSelection (req : ListJobsRequest) : Except Err (Bool × Bool) :=
  if req.statuses ≠ [] then statusSelection L req.statuses
  else if req.stores = [] then .ok (true, true)
  else storeSelection L req.stores

/-- The cells that the request names, in all its tenants. -/
def selectedCellIDs (req : ListJobsRequest) : Except Err (Option (List String)) :=
  match req.cellNames with
  | none => .ok none
  | some names => do
    let ids ← req.tenantIds.mapM fun tenant =>
      (db.cells tenant).select ctx tenant (some names) "jobs.list"
    .ok (some ids.flatten)

/-- What a request comes to before the query is run. -/
structure Selection where
  predicates : List NormalizedMetadataPredicate
  active : Bool
  archived : Bool
  cells : Option (List String)
deriving DecidableEq

/-- The part of `listCompactJobs` that looks at the request and the cells. -/
def selection (req : ListJobsRequest) : Except Err Selection := do
  let predicates ← metadataPredicates L req.metadataFilter
  let normalized ← normalizeMetadataPredicates predicates
  let stores ← listStoreSelection L req
  req.tenantIds.forM fun tenant => authorizeCell ctx tenant "" "jobs.list"
  let cells ← selectedCellIDs ctx db req
  .ok { predicates := normalized, active := stores.1, archived := stores.2, cells := cells }

/-- The condition on the cell: one of the selected, or else one that the authority lists. -/
def cellCondition (sel : Selection) (r : JobRow) : Bool :=
  match sel.cells with
  | some ids => decide (r.cell.cellID ∈ ids)
  | none => (ctx.authority.bind (·.cells)).all fun cells => cells r.cell.cellID

/-- The condition on the store. -/
def storeCondition (sel : Selection) (r : JobRow) : Bool :=
  if r.archivedAtNS.isSome then sel.archived else sel.active

/-- The conditions before the one on the cursor. -/
def plainConditions (req : ListJobsRequest) (sel : Selection) (now : Int) (r : JobRow) :
    List (Except Err Bool) :=
  [ .ok (isIn req.tenantIds r.tenantID),
    .ok (cellCondition ctx sel r),
    .ok (req.includeHidden || r.hiddenAtNS.isNone),
    .ok (storeCondition sel r),
    if req.statuses = [] then .ok true else (listStatus db.state now r).map (isIn req.statuses),
    .ok (isIn req.jobTypes r.jobType),
    .ok (isIn req.jobKeys r.key),
    .ok (req.goalIDs.isEmpty || decide (r.goalID ∈ req.goalIDs) ||
      db.state.candidates.keys.any fun c =>
        c.goal.tenantId = r.tenantID ∧ c.jobID = r.jobID ∧ c.goal.goalID ∈ req.goalIDs),
    .ok (req.jobTasks.isEmpty || req.jobTasks.any fun task =>
      task.jobType ≠ "" && task.taskType ≠ "" && decide (r.nextRoute = task)),
    if req.availableRoutes = [] then .ok true
    else (listStatus db.state now r).map fun status =>
      status = .ready && decide (effectiveRoute now r ∈ req.availableRoutes),
    if req.rootOnly then (listParent r).map (· = "") else .ok true,
    if req.parentJobIDs = [] then .ok true else (listParent r).map (isIn req.parentJobIDs),
    .ok (req.createdAfter.all fun t => unixNano t ≤ r.createdAtNS),
    .ok (req.createdBefore.all fun t => r.createdAtNS ≤ unixNano t) ]

/-- The condition on the cursor. -/
def cursorCondition (cursor : Option (Time × JobKey)) (r : JobRow) : Bool :=
  cursor.all fun c =>
    r.createdAtNS < unixNano c.1 ∨ (r.createdAtNS = unixNano c.1 ∧ r.key.text < c.2.text)

/-- The conditions of the query. -/
def conditions (req : ListJobsRequest) (sel : Selection) (now : Int)
    (cursor : Option (Time × JobKey)) (r : JobRow) : List (Except Err Bool) :=
  plainConditions ctx db req sel now r ++
    [.ok (cursorCondition cursor r), metadataMatches L r.metadata sel.predicates]

/-! ## The call -/

/-- `ORDER BY created_at_ns DESC, list_key DESC`. -/
def listedBefore (x y : Projected) : Prop :=
  y.row.createdAtNS < x.row.createdAtNS ∨
    (y.row.createdAtNS = x.row.createdAtNS ∧ y.row.key.text ≤ x.row.key.text)

instance : DecidableRel listedBefore := fun _ _ => inferInstanceAs (Decidable (_ ∨ _))

/-- `nullTimeFromNS`. -/
def nullTimeFromNS (ns : Option Int) : Option Time :=
  (ns.filter (· ≠ 0)).map timeFromNS

/-- The pending wait of a row. -/
def blockingWaitSummary (p : Projected) : Option DependencyWaitSummary :=
  if p.pending then
    some
      { waitID := p.row.dependencyWaitID
        deadline := (joinedWait db.state p.row).bind fun w => w.payload.deadline.map (·.instant) }
  else none

/-- The summary of a row, with the name of its cell. -/
def Projected.summary (p : Projected) (cell : String) : JobSummary where
  cell := cell
  cellID := p.row.cell.cellID
  cellRepo := p.row.cell.cellRepo
  blockingWaitSummary := blockingWaitSummary db p
  goalID := p.row.goalID
  jobKey := p.row.key
  status := p.status
  completionStatus := p.row.completionStatus.getD ""
  completionDetail := p.row.completionDetail.getD ""
  jobType := p.row.jobType
  nextRoute := p.row.nextRoute
  waitFor := p.row.waitFor
  availableAt := timeFromNS p.row.availableAtNS
  leaseExpiresAt := nullTimeFromNS p.row.leaseExpiresAtNS
  cancelRequested := p.row.cancelRequested
  createdAt := timeFromNS p.row.createdAtNS
  archivedAt := nullTimeFromNS p.row.archivedAtNS
  clientPayload := p.row.clientPayload
  clientPayloadRevision := p.row.clientPayloadRevision
  executionState := p.row.payload
  metadata := appMetadataFromStoredMetadata L.scheduleDecodes p.row.metadata
  schemaHash := schemaHashFromStoredMetadata p.row.metadata
  parentJobID := p.parent

/-- The name of a row's cell; `NULL` if there is no such cell. -/
def cellName (p : Projected) : Option String :=
  ((db.cells p.row.tenantID).cells.lookup p.row.cell.cellID).map (·.name)

/-- A row scanned into a summary. -/
def summarize (p : Projected) : Except Err JobSummary :=
  match cellName db p with
  | none => .error (.store "converting NULL to string is unsupported")
  | some name => .ok (p.summary L db name)

/-- The page out of the rows that were read, one more than it may have. -/
def cutPage (n : Nat) (binding : String) (jobs : List JobSummary) : Except Err ListJobsResponse :=
  if n < jobs.length then
    match (jobs.take n).getLast? with
    | none => .ok { jobs := jobs.take n }
    | some last => do
      let token ← writePageToken last.createdAt last.jobKey binding
      .ok { jobs := jobs.take n, nextPageToken := token }
  else .ok { jobs := jobs }

/-- `listCompactJobs`; `scan` is the order in which the query meets the rows. -/
def listCompactJobs (clock : Time) (scan : List JobRow) (req : ListJobsRequest) (pageSize : Nat) :
    Except Err ListJobsResponse := do
  let sel ← selection L ctx db req
  let cursor ← readPageToken req.pageToken (jobQueryBinding L ctx req (sel.cells.getD []))
  let now := unixNano clock
  let rows ← selectRows (fun r => allHold (conditions L ctx db req sel now cursor r)) scan
  let projected ← rows.mapM (project db.state now)
  let jobs ← ((projected.insertionSort listedBefore).take (pageSize + 1)).mapM (summarize L db)
  cutPage pageSize (jobQueryBinding L ctx req (sel.cells.getD [])) jobs

/-- `ListJobs`. -/
def listJobs (clock : Time) (scan : List JobRow) (req : ListJobsRequest) :
    Except Err ListJobsResponse := do
  req.validateRoutes
  req.validateScope
  listCompactJobs L ctx db clock scan req req.pageSizeInUse

/-! ## The rows that match -/

/-- The value of a condition, and `false` where it has none. -/
def holds (c : Except Err Bool) : Bool := c.toOption.getD false

/-- The jobs that match the request, in any order. -/
def matching (clock : Time) (req : ListJobsRequest) (scan : List JobRow) : List JobRow :=
  match selection L ctx db req with
  | .error _ => []
  | .ok sel => scan.filter fun r =>
      holds (allHold (conditions L ctx db req sel (unixNano clock) none r))

/-- The computed columns of a row where they have values. -/
def projected (clock : Time) (r : JobRow) : Projected where
  row := r
  pending := holds (pendingWait db.state (unixNano clock) r)
  parent := (listParent r).toOption.getD ""
  status := (listStatus db.state (unixNano clock) r).toOption.getD .ready

/-- The summary of a row whose columns have values. -/
def rowSummary (p : Projected) : JobSummary := p.summary L db ((cellName db p).getD "")

/-- A row's place in the listing. -/
def position (p : Projected) : Position := toLex (p.row.createdAtNS, p.row.key.text)

/-- The place that the token for a place gives back. -/
def resumed (p : Position) : Option Position :=
  some (toLex (unixNano (timeFromNS (ofLex p).1), (ofLex p).2))

end Query

/-! ### Conditions -/

/-- Where the other conditions have values, a further one only narrows them down. -/
theorem allHold_append {cs : List (Except Err Bool)} {m : Except Err Bool} {v : Bool}
    (h : allHold (cs ++ [.ok true, m]) = .ok v) (b : Bool) :
    allHold (cs ++ [.ok b, m]) = .ok (v && b) := by
  induction cs with
  | nil =>
    cases b with
    | true => simpa using h
    | false => simp [allHold]
  | cons c cs ih =>
    cases c with
    | error e => cases h
    | ok held =>
      cases held with
      | false =>
        obtain rfl : false = v := Except.ok.inj h
        rfl
      | true => exact ih h

section Paged

variable {L : ListLib} {ctx : Ctx} {db : ListDb} {clock : Time} {req : ListJobsRequest}
  {sel : Selection}

theorem conditions_cursor {now : Int} {r : JobRow} {v : Bool}
    (h : allHold (conditions L ctx db req sel now none r) = .ok v)
    (cursor : Option (Time × JobKey)) :
    allHold (conditions L ctx db req sel now cursor r) = .ok (v && cursorCondition cursor r) :=
  allHold_append h _

theorem project_eq_ok {r : JobRow} {p : Projected}
    (h : project db.state (unixNano clock) r = .ok p) : p = projected db clock r := by
  obtain ⟨pending, hpending, h⟩ := bind_eq_ok.1 h
  obtain ⟨parent, hparent, h⟩ := bind_eq_ok.1 h
  obtain ⟨status, hstatus, rfl⟩ := map_eq_ok.1 h
  simp [projected, hpending, hparent, hstatus, holds, Except.toOption]

/-- What is known of a request whose first page is answered. -/
structure Answered (L : ListLib) (ctx : Ctx) (db : ListDb) (clock : Time) (req : ListJobsRequest)
    (sel : Selection) : Prop where
  routes : req.validateRoutes = .ok ()
  scope : req.validateScope = .ok ()
  selected : selection L ctx db req = .ok sel
  evaluates : ∀ r ∈ db.rows, ∃ v, allHold (conditions L ctx db req sel (unixNano clock) none r) =
    .ok v
  projects : ∀ r ∈ matching L ctx db clock req db.rows,
    project db.state (unixNano clock) r = .ok (projected db clock r)

/-- The rows that the query returns after a cursor. -/
theorem query_ok {scan : List JobRow} (hsel : selection L ctx db req = .ok sel)
    (hscan : ∀ r ∈ scan, ∃ v, allHold (conditions L ctx db req sel (unixNano clock) none r) = .ok v)
    (cursor : Option (Time × JobKey)) :
    selectRows (fun r => allHold (conditions L ctx db req sel (unixNano clock) cursor r)) scan =
      .ok ((matching L ctx db clock req scan).filter (cursorCondition cursor)) := by
  unfold matching
  rw [hsel, List.filter_filter]
  refine selectRows_of_forall fun r hr => ?_
  obtain ⟨v, hv⟩ := hscan r hr
  rw [conditions_cursor hv, hv, Bool.and_comm]
  rfl

theorem answered_of_ok {resp : ListJobsResponse}
    (h : listJobs L ctx db clock db.rows { req with pageToken := .empty } = .ok resp) :
    ∃ sel, Answered L ctx db clock req sel := by
  obtain ⟨⟨⟩, hroutes, h⟩ := bind_eq_ok.1 h
  obtain ⟨⟨⟩, hscope, h⟩ := bind_eq_ok.1 h
  obtain ⟨sel, hsel, h⟩ := bind_eq_ok.1 h
  obtain ⟨cursor, hcursor, h⟩ := bind_eq_ok.1 h
  obtain rfl : none = cursor := Except.ok.inj hcursor
  obtain ⟨rows, hrows, h⟩ := bind_eq_ok.1 h
  obtain ⟨ps, hps, -⟩ := bind_eq_ok.1 h
  have hevaluates := selectRows_eq_ok hrows
  refine ⟨sel, hroutes, hscope, hsel, hevaluates, ?_⟩
  have hmatching : rows = matching L ctx db clock req db.rows := by
    rw [← List.filter_eq_self.2 fun r (_ : r ∈ matching L ctx db clock req db.rows) =>
      (rfl : cursorCondition none r = true)]
    exact Except.ok.inj (hrows.symm.trans (query_ok hsel hevaluates none))
  intro r hr
  obtain ⟨p, hp⟩ := mapM_eq_ok hps r (hmatching ▸ hr)
  rw [project_eq_ok hp] at hp
  exact hp

end Paged

/-! ### Tokens -/

theorem unixNano_bounds (t : Int) :
    -9223372036854775808 ≤ unixNano t ∧ unixNano t < 9223372036854775808 := by
  unfold unixNano
  constructor
  · have h : -((2 ^ 64 : Nat) : Int) / 2 ≤ Int.bmod t (2 ^ 64) := Int.le_bmod (by decide)
    simpa using h
  · have h : Int.bmod t (2 ^ 64) < (((2 ^ 64 : Nat) : Int) + 1) / 2 := Int.bmod_lt (by decide)
    simpa using h

theorem year_of_bounds {t : Int} (hlow : -9223372036854775808 ≤ t)
    (hhigh : t < 9223372036854775808) : 0 ≤ (utcClock t).year ∧ (utcClock t).year ≤ 9999 := by
  unfold utcClock
  dsimp only
  -- 2 ^ 63 nanoseconds are less than 300 years.
  have hera : 4 ≤ (t / 1000000000 / 86400 + 719468) / 146097 ∧
      (t / 1000000000 / 86400 + 719468) / 146097 ≤ 5 := by omega
  split <;> split <;> omega

/-- The time in a column can be written into a token. -/
theorem isSome_timeJSON {ns : Int} (h : unixNano ns = ns) : (timeJSON (timeFromNS ns)).isSome := by
  have hyear : 0 ≤ (utcClock (timeFromNS ns)).year ∧ (utcClock (timeFromNS ns)).year ≤ 9999 := by
    unfold timeFromNS
    split
    · decide
    · obtain ⟨hlow, hhigh⟩ := unixNano_bounds ns
      rw [h] at hlow hhigh
      exact year_of_bounds hlow hhigh
  unfold timeJSON
  dsimp only
  rw [if_neg (by omega)]
  rfl

theorem writePageToken_ok {ns : Int} (h : unixNano ns = ns) (k : JobKey) (binding : String) :
    ∃ token, writePageToken (timeFromNS ns) k binding = .ok token := by
  unfold writePageToken encodeListJobsPageToken
  rw [if_pos (isSome_timeJSON h)]
  exact ⟨_, rfl⟩

/-- The token of an instant gives back no later one. -/
theorem resumed_le {p : Projected} (h : unixNano p.row.createdAtNS = p.row.createdAtNS)
    {c : Position} (hc : resumed (position p) = some c) : c ≤ position p := by
  obtain rfl := Option.some.inj hc
  unfold position timeFromNS
  rw [Prod.Lex.toLex_le_toLex]
  by_cases hzero : p.row.createdAtNS = 0
  · left
    simp only [ofLex_toLex, hzero, if_true]
    decide
  · right
    simp [hzero, h]

/-- A place in the order is read off the summary. -/
theorem position_eq {p : Projected} (h : unixNano p.row.createdAtNS = p.row.createdAtNS) :
    position p = toLex (timeToNS (timeFromNS p.row.createdAtNS), p.row.key.text) := by
  have hcolumn : timeToNS (timeFromNS p.row.createdAtNS) = p.row.createdAtNS := by
    unfold timeFromNS
    by_cases hzero : p.row.createdAtNS = 0
    · rw [if_pos hzero, hzero]
      rfl
    · rw [if_neg hzero]
      unfold timeToNS
      rw [if_neg, h]
      -- The zero time lies outside of 64 bits.
      intro hz
      have hbounds := (unixNano_bounds p.row.createdAtNS).1
      rw [h, hz] at hbounds
      exact absurd hbounds (by decide)
  rw [hcolumn]
  rfl

/-! ### Pages -/

theorem listedBefore_iff {x y : Projected} : listedBefore x y ↔ position y ≤ position x := by
  unfold listedBefore position
  rw [Prod.Lex.toLex_le_toLex]

theorem insertionSort_eq_listed (l : List Projected) :
    l.insertionSort listedBefore = Paging.listed position l :=
  Paging.insertionSort_eq_listed position (fun _ _ => listedBefore_iff) l

theorem cursorCondition_eq (clock : Time) (db : ListDb) (cursor : Option (Time × JobKey))
    (r : JobRow) : cursorCondition cursor r =
      Paging.after position (cursor.map (placeOf unixNano)) (projected db clock r) := by
  unfold cursorCondition Paging.after position projected placeOf
  cases cursor with
  | none => rfl
  | some c => simp only [Option.map_some, Option.all_some, Prod.Lex.toLex_lt_toLex]

/-- A page is cut as the paging has it. -/
theorem cutPage_spec {L : ListLib} {db : ListDb} {l : List Projected}
    (hl : ∀ p ∈ l, unixNano p.row.createdAtNS = p.row.createdAtNS) (n : Nat) (binding : String) :
    ∃ token, cutPage n binding ((l.take (n + 1)).map (rowSummary L db)) =
        .ok ⟨(l.take n).map (rowSummary L db), token⟩ ∧
      Denotes unixNano binding token
        (if n < l.length then (l.take n).getLast?.bind fun p => resumed (position p)
          else none) := by
  have htake :
      ((l.take (n + 1)).map (rowSummary L db)).take n = (l.take n).map (rowSummary L db) := by
    rw [← List.map_take, List.take_take, Nat.min_eq_left (Nat.le_succ n)]
  unfold cutPage
  rw [htake, List.length_map, List.length_take, List.getLast?_map]
  by_cases hlen : n < l.length
  · rw [if_pos (by omega), if_pos hlen]
    cases hlast : (l.take n).getLast? with
    | none => exact ⟨.empty, rfl, rfl⟩
    | some p =>
      have hp : p ∈ l := List.mem_of_mem_take (List.mem_of_getLast? hlast)
      obtain ⟨token, htoken⟩ := writePageToken_ok (hl p hp) p.row.key binding
      have hsummary :
        writePageToken (rowSummary L db p).createdAt (rowSummary L db p).jobKey binding =
          .ok token := htoken
      obtain ⟨hne, hread⟩ := readPageToken_write htoken
      refine ⟨token, ?_, hne, _, _, hread, rfl⟩
      simp only [Option.map_some, hsummary]
      rfl
  · rw [if_neg (by omega), if_neg hlen]
    refine ⟨.empty, ?_, rfl⟩
    rw [List.take_of_length_le (by omega : l.length ≤ n + 1), List.take_of_length_le (by omega)]

section Paged

variable {L : ListLib} {ctx : Ctx} {db : ListDb} {clock : Time} {req : ListJobsRequest}
  {sel : Selection}

theorem mem_of_mem_matching {scan : List JobRow} {r : JobRow}
    (h : r ∈ matching L ctx db clock req scan) : r ∈ scan := by
  unfold matching at h
  split at h
  · cases h
  · exact (List.mem_filter.1 h).1

theorem length_matching_le (scan : List JobRow) :
    (matching L ctx db clock req scan).length ≤ scan.length := by
  unfold matching
  split
  · exact Nat.zero_le _
  · exact List.length_filter_le _ _

theorem matching_perm {scan : List JobRow} (h : scan ~ db.rows) :
    matching L ctx db clock req scan ~ matching L ctx db clock req db.rows := by
  unfold matching
  split
  · exact List.Perm.refl _
  · exact h.filter _

theorem summarize_ok {p : Projected} (h : p.row ∈ db.rows) :
    summarize L db p = .ok (rowSummary L db p) := by
  have hknown := db.cell_known _ _ (ListDb.mem_rows h)
  unfold summarize rowSummary cellName
  cases hcell : (db.cells p.row.tenantID).cells.lookup p.row.cell.cellID with
  | none => rw [hcell] at hknown; cases hknown
  | some c => rfl

/-- A page of the listing is the page of the paging by position, over the rows that match. -/
theorem listJobs_page (h : Answered L ctx db clock req sel) {scan : List JobRow}
    (hscan : scan ~ db.rows) {rows : List Projected}
    (hrows : rows = (matching L ctx db clock req scan).map (projected db clock))
    {token : PageToken} {cursor : Option Position}
    (htoken : Denotes unixNano (jobQueryBinding L ctx req (sel.cells.getD [])) token cursor) :
    ∃ token', listJobs L ctx db clock scan { req with pageToken := token } =
        .ok ⟨(Paging.page position resumed req.pageSizeInUse rows cursor).1.map
          (rowSummary L db), token'⟩ ∧
      Denotes unixNano (jobQueryBinding L ctx req (sel.cells.getD [])) token'
        (Paging.page position resumed req.pageSizeInUse rows cursor).2 := by
  obtain ⟨at_, hread, rfl⟩ := htoken.read
  set cursor := at_.map (placeOf unixNano) with hcursor
  have hproject : ∀ r ∈ (matching L ctx db clock req scan).filter (cursorCondition at_),
      project db.state (unixNano clock) r = .ok (projected db clock r) := fun r hr =>
    h.projects r ((matching_perm hscan).mem_iff.1 (List.mem_filter.1 hr).1)
  -- the cursor in the token and the one of the paging select the same rows
  have hremaining : ((matching L ctx db clock req scan).filter (cursorCondition at_)).map
      (projected db clock) = rows.filter (Paging.after position cursor) := by
    rw [hrows, List.filter_map]
    exact congrArg _ (List.filter_congr fun r _ => cursorCondition_eq clock db at_ r)
  have hstored : ∀ p ∈ Paging.remaining position rows cursor, p.row ∈ db.rows := by
    intro p hp
    obtain ⟨r, hr, rfl⟩ := List.mem_map.1 (hrows ▸ ((Paging.mem_remaining position).1 hp).1)
    exact hscan.mem_iff.1 (mem_of_mem_matching hr)
  have hjobs : ((Paging.remaining position rows cursor).take (req.pageSizeInUse + 1)).mapM
        (summarize L db) =
      .ok (((Paging.remaining position rows cursor).take (req.pageSizeInUse + 1)).map
        (rowSummary L db)) :=
    mapM_of_forall fun p hp => summarize_ok (hstored p (List.mem_of_mem_take hp))
  obtain ⟨token', hcut, hdenotes⟩ := cutPage_spec (L := L)
    (fun p hp => db.created_fits _ _ (ListDb.mem_rows (hstored p hp))) req.pageSizeInUse
    (jobQueryBinding L ctx req (sel.cells.getD []))
  refine ⟨token', bind_eq_ok.2 ⟨(), h.routes, bind_eq_ok.2 ⟨(), h.scope, ?_⟩⟩, hdenotes⟩
  refine bind_eq_ok.2 ⟨sel, h.selected, bind_eq_ok.2 ⟨at_, hread, ?_⟩⟩
  have hevaluates := fun r hr => h.evaluates r (hscan.mem_iff.1 hr)
  refine bind_eq_ok.2 ⟨_, query_ok h.selected hevaluates at_, ?_⟩
  refine bind_eq_ok.2 ⟨_, mapM_of_forall hproject, ?_⟩
  rw [insertionSort_eq_listed, hremaining]
  exact bind_eq_ok.2 ⟨_, hjobs, hcut⟩

/-- Following the pages of a request ends, and it lists each matching job exactly once if and
only if at every page boundary the next job lies below the position in the token. -/
theorem pages_iff {resp : ListJobsResponse}
    (hfirst : listJobs L ctx db clock db.rows { req with pageToken := .empty } = .ok resp)
    {scan : Nat → List JobRow} (hscan : ∀ i, scan i ~ db.rows) :
    ∃ pages, followPages (fun i token => listJobs L ctx db clock (scan i)
        { req with pageToken := token }) (db.rows.length + 1) 0 .empty = some pages ∧
      (ListsEach timeToNS pages ((matching L ctx db clock req db.rows).map fun r =>
          rowSummary L db (projected db clock r)) ↔
        Paging.Parted resumed req.pageSizeInUse
          ((Paging.listed position ((matching L ctx db clock req db.rows).map
            (projected db clock))).map position)) := by
  obtain ⟨sel, h⟩ := answered_of_ok hfirst
  have hfits : ∀ p ∈ (matching L ctx db clock req db.rows).map (projected db clock),
      unixNano p.row.createdAtNS = p.row.createdAtNS := by
    intro p hp
    obtain ⟨r, hr, rfl⟩ := List.mem_map.1 hp
    exact db.created_fits _ _ (ListDb.mem_rows (mem_of_mem_matching hr))
  have hlength : ((matching L ctx db clock req db.rows).map (projected db clock)).length <
      db.rows.length + 1 := by
    rw [List.length_map]
    exact Nat.lt_succ_of_le (length_matching_le _)
  have hlists := followPages_lists_iff req.pageSizeInUse_pos
    (fun i => (matching_perm (hscan i)).map (projected db clock))
    (fun p hp c hc => resumed_le (hfits p hp) hc)
    (fun i token cursor htoken => listJobs_page h (hscan i) rfl htoken)
    (fun p hp => by rw [position_eq (hfits p hp)]; rfl) hlength
  rwa [List.map_map] at hlists

end Paged

end JobDB.Sqlite
