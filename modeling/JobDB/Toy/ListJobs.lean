import JobDB.Cell.Registry
import JobDB.Goal.Memory
import JobDB.Runtime.ListJobs

/-!
# Listing jobs in memory

Job records of the in-process runtime and `ListJobs` over them (`toyimpl/toy.go`,
`toyimpl/runtime.go`, `toyimpl/goals.go`).

The records are met in the order in which Go walks over a map, which is not specified and may
be another one in every call: it is an argument (`scan`). `sort.Slice` is not stable; an
order of the walk stands for the order it leaves equal records in.
-/

namespace JobDB.Toy

open scoped List

/-- `jobRecord`, without its chapters and its result. -/
structure JobRecord where
  cell : ResolvedCell
  goalID : String
  dependencyWaitID : String := ""
  hidden : Bool := false
  clientPayload : Option String := none
  clientPayloadRevision : Int := 0
  initialPayloadDigest : String := ""
  leaseExpiresAt : Time := Time.zero
  status : JobStatus
  cancelled : Bool := false
  jobType : String
  createdAt : Time
  archived : Option Time := none
  payload : JobPayload := {}
  metadata : String := ""
  completionDetail : String := ""
  completionStatus : String := ""
  route : Route
  alternateRoute : Option Route := none
  alternateAt : Time := Time.zero
  waitFor : List String := []
  availableAt : Time := Time.zero
  waitDeadline : Time := Time.zero
  leased : Bool := false
  leaseID : String := ""
  leaseWorkerID : String := ""
  consecutiveExpirations : Int := 0
deriving DecidableEq, Repr

/-- The parts of `ToyEngine` that a listing reads. -/
structure Jobs where
  jobRecords : Table JobKey JobRecord := ∅
  goals : Memory := {}
  cells : String → Registry := fun _ => {}

/-! ## Statuses -/

/-- `crashconcern.DefaultThreshold`. -/
def crashConcernThreshold : Int := 5

/-- `currentStatus`. -/
def JobRecord.currentStatus (r : JobRecord) (now : Time) : JobStatus :=
  if r.leased ∧ r.leaseExpiresAt ≤ now ∧ r.archived = none ∧ r.cancelled = false then
    if crashConcernThreshold ≤ r.consecutiveExpirations then .crashConcern else .ready
  else r.status

/-- `effectiveRoute`. -/
def JobRecord.effectiveRoute (r : JobRecord) (now : Time) : Route :=
  match r.alternateRoute with
  | some route => if r.alternateAt ≤ now then route else r.route
  | none => r.route

/-- The wait is pending and its deadline is not over. -/
def waitPending (w : DependencyWaitInfo) (now : Time) : Bool :=
  w.state = .pending && !w.expired now

namespace Jobs

variable (e : Jobs)

/-- `dependencyReadyLocked`. -/
def dependencyReady (k : JobKey) (r : JobRecord) (now : Time) : Except Err Bool :=
  if r.dependencyWaitID = "" then .ok true
  else (e.goals.wait ⟨k, r.dependencyWaitID⟩).map fun w => !waitPending w now

/-- `blockingWaitSummaryLocked`. -/
def blockingWaitSummary (k : JobKey) (r : JobRecord) (now : Time) :
    Except Err (Option DependencyWaitSummary) :=
  if r.dependencyWaitID = "" ∨ r.archived.isSome ∨ r.cancelled then .ok none
  else
    (e.goals.wait ⟨k, r.dependencyWaitID⟩).map fun w =>
      if waitPending w now then some ⟨w.waitID, w.deadline.map (·.instant)⟩ else none

/-- The jobs of the wait list that are there have all ended. -/
def waitForEnded (tenant : String) (r : JobRecord) : Bool :=
  r.waitFor.all fun id =>
    (e.jobRecords.lookup ⟨tenant, id⟩).all fun dep => dep.status = .completed ∨
      dep.status = .cancelled

/-- The last steps of `availableStatusLocked`. -/
def settleStatus (tenant : String) (r : JobRecord) (now : Time) (status : JobStatus) : JobStatus :=
  let status :=
    if status = .awaitingFuture ∧ r.availableAt ≠ Time.zero ∧ r.availableAt ≤ now then .ready
    else status
  if status = .pendingJobs ∧ r.waitFor ≠ [] ∧
      (e.waitForEnded tenant r ∨ (r.waitDeadline ≠ Time.zero ∧ r.waitDeadline ≤ now)) then
    if r.availableAt ≠ Time.zero ∧ now < r.availableAt then .awaitingFuture else .ready
  else status

/-- `availableStatusLocked`. -/
def availableStatus (k : JobKey) (now : Time) (r : JobRecord) : JobStatus :=
  let status := r.currentStatus now
  if r.archived = none ∧ r.cancelled = false ∧ ¬ (r.leased ∧ now < r.leaseExpiresAt) then
    match e.dependencyReady k r now with
    | .ok true =>
      e.settleStatus k.tenantId r now
        (if r.dependencyWaitID ≠ "" ∧ status = .pendingJobs then .ready else status)
    | _ => .pendingJobs
  else e.settleStatus k.tenantId r now status

/-- `otherGoalsLocked`. -/
def otherGoals (k : JobKey) : List String :=
  sortStrings ((e.goals.extras.keys.filter fun c =>
    c.goal.tenantId = k.tenantId ∧ c.jobID = k.jobId).map (·.goal.goalID))

end Jobs

/-! ## The request -/

/-- The checks on the tenants and the parents. -/
def validateScope (req : ListJobsRequest) : Except Err Unit :=
  if req.tenantIds = [] then .error (.invalid "tenant_ids is required for ListJobs")
  else if req.rootOnly ∧ req.parentJobIDs ≠ [] then
    .error (.invalid "RootOnly cannot be combined with ParentJobIDs")
  else .ok ()

section Query

variable (L : ListLib) (ctx : Ctx) (e : Jobs)

/-- The stores of the requested statuses: active, archived. -/
def statusSelection : List JobStatus → Except Err (Bool × Bool)
  | [] => .ok (false, false)
  | status :: rest =>
    match status with
    | .other text => .error (.invalid ("unknown status " ++ L.quote text))
    | .completed => (statusSelection rest).map fun s => (s.1, true)
    | _ => (statusSelection rest).map fun s => (true, s.2)

/-- Are active jobs included, and archived ones? -/
def includes (req : ListJobsRequest) : Except Err (Bool × Bool) :=
  if req.statuses ≠ [] then statusSelection L req.statuses
  else if req.stores = [] then .ok (true, true)
  else storeSelection L req.stores

/-- What a request comes to before the records are walked over. -/
structure Selection where
  predicates : List NormalizedMetadataPredicate
  active : Bool
  archived : Bool
  /-- `allowedCells`. -/
  cells : List String
  /-- The cells that the token is bound to. -/
  bound : List String

/-- The cells the caller may list in the request's tenants. -/
def allowedCells (req : ListJobsRequest) : Except Err (List String) :=
  (req.tenantIds.mapM fun tenant =>
    (e.cells tenant).select ctx tenant req.cellNames "jobs.list").map List.flatten

/-- The part of `ListJobs` that looks at the request and the cells, for a request that
includes some store. -/
def selection (req : ListJobsRequest) (stores : Bool × Bool) : Except Err Selection := do
  let raw ← metadataPredicates L req.metadataFilter
  let predicates ← normalizeMetadataPredicates raw
  let cells ← allowedCells ctx e req
  .ok
    { predicates := predicates
      active := stores.1
      archived := stores.2
      cells := cells
      bound := if req.cellNames.isSome then cells else [] }

/-! ## The walk over the records -/

/-- `jobTaskAllowed`. -/
def jobTaskAllowed (req : ListJobsRequest) (r : JobRecord) : Bool :=
  req.jobTasks.isEmpty || (r.route.jobType ≠ "" && req.jobTasks.any fun pair =>
    pair.jobType ≠ "" && pair.taskType ≠ "" && decide (r.route = pair))

/-- The store of a status. -/
def storeOf (status : JobStatus) : JobStore := if status = .completed then .archived else .active

/-- The tests that a record passes in order to be listed, one after the other. -/
def tests (req : ListJobsRequest) (sel : Selection) (now : Time) (x : JobKey × JobRecord) :
    List (Except Err Bool) :=
  [ .ok (!x.2.hidden || req.includeHidden),
    .ok (decide (x.1.tenantId ∈ req.tenantIds) && decide (x.2.cell.cellID ∈ sel.cells)),
    .ok (if e.availableStatus x.1 now x.2 = .completed then sel.archived else sel.active),
    .ok (isIn req.stores (storeOf (e.availableStatus x.1 now x.2))),
    .ok (isIn req.statuses (e.availableStatus x.1 now x.2)),
    .ok (isIn req.jobKeys x.1),
    .ok (isIn req.jobTypes x.2.jobType),
    .ok (jobTaskAllowed req x.2),
    .ok (req.availableRoutes.isEmpty || (e.availableStatus x.1 now x.2 = .ready &&
      decide (x.2.effectiveRoute now ∈ req.availableRoutes))),
    (extractParentJobID L.scheduleDecodes x.2.metadata).map fun parent =>
      !(req.rootOnly && parent.2) && isIn req.parentJobIDs parent.1,
    .ok (req.createdAfter.all fun t => t ≤ x.2.createdAt),
    .ok (req.createdBefore.all fun t => x.2.createdAt ≤ t),
    metadataMatches L x.2.metadata sel.predicates,
    .ok (req.goalIDs.isEmpty || decide (x.2.goalID ∈ req.goalIDs) ||
      (e.otherGoals x.1).any fun id => id ∈ req.goalIDs),
    (e.blockingWaitSummary x.1 x.2 now).map fun _ => true ]

/-- The summary of a record. -/
def summary (now : Time) (x : JobKey × JobRecord) : JobSummary where
  cell := (((e.cells x.1.tenantId).cells.lookup x.2.cell.cellID).map (·.name)).getD ""
  cellID := x.2.cell.cellID
  cellRepo := x.2.cell.cellRepo
  blockingWaitSummary := (e.blockingWaitSummary x.1 x.2 now).toOption.getD none
  goalID := x.2.goalID
  jobKey := x.1
  status := e.availableStatus x.1 now x.2
  completionStatus := x.2.completionStatus
  completionDetail := x.2.completionDetail
  jobType := x.2.jobType
  nextRoute := x.2.route
  waitFor := x.2.waitFor
  availableAt := x.2.createdAt
  leaseExpiresAt := none
  cancelRequested := x.2.cancelled
  createdAt := x.2.createdAt
  archivedAt := x.2.archived
  clientPayload := x.2.clientPayload
  clientPayloadRevision := x.2.clientPayloadRevision
  executionState := x.2.payload
  metadata := appMetadataFromStoredMetadata L.scheduleDecodes x.2.metadata
  schemaHash := schemaHashFromStoredMetadata x.2.metadata
  parentJobID := ((extractParentJobID L.scheduleDecodes x.2.metadata).toOption.map (·.1)).getD ""

/-! ## The call -/

/-- The order of `sort.Slice`. -/
def listedBefore (x y : JobSummary) : Prop :=
  if x.createdAt = y.createdAt then y.jobKey.text ≤ x.jobKey.text else y.createdAt < x.createdAt

instance : DecidableRel listedBefore := fun x y =>
  inferInstanceAs (Decidable (if x.createdAt = y.createdAt then _ else _))

/-- The test against the cursor. -/
def afterCursor (cursor : Option (Time × JobKey)) (r : JobSummary) : Bool :=
  match cursor with
  | none => true
  | some c =>
    if c.1 < r.createdAt then false
    else if r.createdAt = c.1 ∧ c.2.text ≤ r.jobKey.text then false
    else true

/-- The page out of the records that are left; without a token if none can be written. -/
def cutPage (n : Nat) (binding : String) (jobs : List JobSummary) : ListJobsResponse :=
  if n < jobs.length then
    { jobs := jobs.take n
      nextPageToken := ((jobs.take n).getLast?.bind fun last =>
        (writePageToken last.createdAt last.jobKey binding).toOption).getD .empty }
  else { jobs := jobs }

/-- `ListJobs` once it is known which stores are included; `scan` is the order of the walk. -/
def listIncluded (clock : Time) (scan : List (JobKey × JobRecord)) (req : ListJobsRequest)
    (stores : Bool × Bool) : Except Err ListJobsResponse := do
  let sel ← selection L ctx e req stores
  let cursor ← readPageToken req.pageToken (jobQueryBinding L ctx req sel.bound)
  let kept ← selectRows (fun x => allHold (tests L e req sel clock x)) scan
  let records := (kept.map (summary L e clock)).insertionSort listedBefore
  .ok (cutPage req.pageSizeInUse (jobQueryBinding L ctx req sel.bound)
    (records.filter (afterCursor cursor)))

/-- `ListJobs`. -/
def listJobs (clock : Time) (scan : List (JobKey × JobRecord)) (req : ListJobsRequest) :
    Except Err ListJobsResponse := do
  req.validateRoutes
  validateScope req
  let stores ← includes L req
  if stores = (false, false) then .ok {} else listIncluded L ctx e clock scan req stores

/-! ## The records that match -/

/-- The value of a test, and `false` where it has none. -/
def holds (c : Except Err Bool) : Bool := c.toOption.getD false

/-- The request comes to this: which stores are included, and what is selected. -/
def resolved (req : ListJobsRequest) : Except Err (Option Selection) := do
  let stores ← includes L req
  if stores = (false, false) then .ok none
  else (selection L ctx e req stores).map some

/-- The jobs that match the request, in the order of the walk. -/
def matching (clock : Time) (req : ListJobsRequest) (scan : List (JobKey × JobRecord)) :
    List (JobKey × JobRecord) :=
  match resolved L ctx e req with
  | .ok (some sel) => scan.filter fun x => holds (allHold (tests L e req sel clock x))
  | _ => []

/-- A job's place in the listing. -/
def position (s : JobSummary) : Position := toLex (s.createdAt, s.jobKey.text)

/-- The place that the token for a place gives back, if a token can be written. -/
def resumed (p : Position) : Option Position :=
  if (timeJSON (ofLex p).1).isSome then some p else none

end Query

theorem listedBefore_iff {x y : JobSummary} : listedBefore x y ↔ position y ≤ position x := by
  unfold listedBefore position
  rw [Prod.Lex.toLex_le_toLex]
  by_cases h : x.createdAt = y.createdAt
  · simp [h]
  · simp [h, Ne.symm h]

theorem insertionSort_eq_listed (l : List JobSummary) :
    l.insertionSort listedBefore = Paging.listed position l :=
  Paging.insertionSort_eq_listed position (fun _ _ => listedBefore_iff) l

theorem afterCursor_eq (cursor : Option (Time × JobKey)) (s : JobSummary) :
    afterCursor cursor s = Paging.after position (cursor.map (placeOf id)) s := by
  unfold afterCursor Paging.after position placeOf
  rcases cursor with - | ⟨t, k⟩
  · rfl
  simp only [Option.map_some, Option.all_some, Prod.Lex.toLex_lt_toLex, id]
  rcases lt_trichotomy s.createdAt t with hlt | heq | hgt
  · rw [if_neg (not_lt.2 (le_of_lt hlt)), if_neg (fun h => absurd h.1 (ne_of_lt hlt))]
    simp [hlt]
  · subst heq
    rw [if_neg (lt_irrefl s.createdAt)]
    by_cases htext : k.text ≤ s.jobKey.text
    · rw [if_pos ⟨rfl, htext⟩]
      simp only [lt_irrefl, not_lt.2 htext, and_false, or_false, decide_false]
    · rw [if_neg fun h => htext h.2]
      simp only [lt_irrefl, not_le.1 htext, and_true, or_true, decide_true]
  · rw [if_pos hgt]
    simp [not_lt.2 (le_of_lt hgt), ne_of_gt hgt]

/-- A page is cut as the paging has it. -/
theorem cutPage_spec (l : List JobSummary) (n : Nat) (binding : String) :
    ∃ token, cutPage n binding l = ⟨l.take n, token⟩ ∧
      Denotes id binding token
        (if n < l.length then (l.take n).getLast?.bind fun s => resumed (position s)
          else none) := by
  unfold cutPage
  by_cases hlen : n < l.length
  · rw [if_pos hlen, if_pos hlen]
    refine ⟨_, rfl, ?_⟩
    cases hlast : (l.take n).getLast? with
    | none => exact rfl
    | some s =>
      have hresumed : resumed (position s) =
          if (timeJSON s.createdAt).isSome then some (position s) else none := rfl
      rw [Option.bind_some, Option.bind_some, hresumed]
      by_cases hjson : (timeJSON s.createdAt).isSome
      · obtain ⟨token, htoken⟩ : ∃ token, writePageToken s.createdAt s.jobKey binding =
          .ok token := by
          unfold writePageToken encodeListJobsPageToken
          rw [if_pos hjson]
          exact ⟨_, rfl⟩
        obtain ⟨hne, hread⟩ := readPageToken_write htoken
        rw [htoken, if_pos hjson]
        exact ⟨hne, _, _, hread, rfl⟩
      · have herror : writePageToken s.createdAt s.jobKey binding =
            .error (.invalid "json: error calling MarshalJSON for type time.Time") := by
          unfold writePageToken encodeListJobsPageToken
          rw [if_neg hjson]
          rfl
        rw [herror, if_neg hjson]
        rfl
  · rw [if_neg hlen, if_neg hlen, List.take_of_length_le (Nat.le_of_not_lt hlen)]
    exact ⟨.empty, rfl, rfl⟩

section Paged

variable {L : ListLib} {ctx : Ctx} {e : Jobs} {clock : Time} {req : ListJobsRequest}

theorem length_matching_le (scan : List (JobKey × JobRecord)) :
    (matching L ctx e clock req scan).length ≤ scan.length := by
  unfold matching
  split
  · exact List.length_filter_le _ _
  · exact Nat.zero_le _

theorem matching_perm {scan scan' : List (JobKey × JobRecord)} (h : scan ~ scan') :
    matching L ctx e clock req scan ~ matching L ctx e clock req scan' := by
  unfold matching
  split
  · exact h.filter _
  · exact List.Perm.refl _

/-- What is known of a request whose first page is answered: the tests of every record have
values, or no store is included. -/
structure Answered (L : ListLib) (ctx : Ctx) (e : Jobs) (clock : Time) (req : ListJobsRequest)
    (stores : Bool × Bool) (sel : Option Selection) : Prop where
  routes : req.validateRoutes = .ok ()
  scope : validateScope req = .ok ()
  included : includes L req = .ok stores
  nothing : stores = (false, false) ↔ sel = none
  selected : ∀ sel', sel = some sel' → selection L ctx e req stores = .ok sel' ∧
    ∀ x ∈ e.jobRecords.rows, ∃ v, allHold (tests L e req sel' clock x) = .ok v

theorem answered_of_ok {resp : ListJobsResponse}
    (h : listJobs L ctx e clock e.jobRecords.rows { req with pageToken := .empty } = .ok resp) :
    ∃ stores sel, Answered L ctx e clock req stores sel := by
  obtain ⟨⟨⟩, hroutes, h⟩ := bind_eq_ok.1 h
  obtain ⟨⟨⟩, hscope, h⟩ := bind_eq_ok.1 h
  obtain ⟨stores, hstores, h⟩ := bind_eq_ok.1 h
  by_cases hnone : stores = (false, false)
  · exact ⟨stores, none, hroutes, hscope, hstores, by simp [hnone], fun _ hsel => nomatch hsel⟩
  · rw [if_neg hnone] at h
    obtain ⟨sel, hsel, h⟩ := bind_eq_ok.1 h
    obtain ⟨cursor, -, h⟩ := bind_eq_ok.1 h
    obtain ⟨kept, hkept, -⟩ := bind_eq_ok.1 h
    refine ⟨stores, some sel, hroutes, hscope, hstores, by simp [hnone], ?_⟩
    rintro sel' ⟨⟩
    exact ⟨hsel, selectRows_eq_ok hkept⟩

theorem resolved_eq {stores : Bool × Bool} {sel : Option Selection}
    (h : Answered L ctx e clock req stores sel) : resolved L ctx e req = .ok sel := by
  unfold resolved
  rw [h.included]
  show (if stores = (false, false) then _ else _) = _
  cases sel with
  | none => rw [if_pos (h.nothing.2 rfl)]
  | some sel =>
    have hne : stores ≠ (false, false) := fun hc => nomatch h.nothing.1 hc
    rw [if_neg hne, (h.selected sel rfl).1]
    rfl

/-- The binding of the request's tokens. -/
def bindingOf (L : ListLib) (ctx : Ctx) (req : ListJobsRequest) (sel : Option Selection) : String :=
  jobQueryBinding L ctx req ((sel.map (·.bound)).getD [])

/-- The records that the walk meets, sorted. -/
def sortedRecords (L : ListLib) (ctx : Ctx) (e : Jobs) (clock : Time) (req : ListJobsRequest)
    (scan : List (JobKey × JobRecord)) : List JobSummary :=
  Paging.listed position ((matching L ctx e clock req scan).map (summary L e clock))

/-- A page of the listing is the page of the paging by position. -/
theorem listJobs_page {stores : Bool × Bool} {sel : Option Selection}
    (h : Answered L ctx e clock req stores sel) {scan : List (JobKey × JobRecord)}
    (hscan : scan ~ e.jobRecords.rows) {token : PageToken} {cursor : Option Position}
    (htoken : Denotes id (bindingOf L ctx req sel) token cursor) :
    ∃ token', listJobs L ctx e clock scan { req with pageToken := token } =
        .ok ⟨(Paging.page position resumed req.pageSizeInUse
          (sortedRecords L ctx e clock req scan) cursor).1.map id, token'⟩ ∧
      Denotes id (bindingOf L ctx req sel) token'
        (Paging.page position resumed req.pageSizeInUse
          (sortedRecords L ctx e clock req scan) cursor).2 := by
  have hresolved := resolved_eq h
  cases sel with
  | none =>
    -- No store is included, so there is one page and it is empty.
    have hempty : sortedRecords L ctx e clock req scan = [] := by
      unfold sortedRecords matching
      rw [hresolved]
      rfl
    have hpage : Paging.page position resumed req.pageSizeInUse [] cursor = ([], none) := by
      simp [Paging.page, Paging.remaining, Paging.listed]
    rw [hempty, hpage]
    refine ⟨.empty, ?_, rfl⟩
    refine bind_eq_ok.2 ⟨(), h.routes, bind_eq_ok.2 ⟨(), h.scope, ?_⟩⟩
    refine bind_eq_ok.2 ⟨stores, h.included, ?_⟩
    rw [if_pos (h.nothing.2 rfl)]
    rfl
  | some sel =>
    obtain ⟨hselected, hevaluates⟩ := h.selected sel rfl
    have hne : stores ≠ (false, false) := fun hc => nomatch h.nothing.1 hc
    obtain ⟨at_, hread, rfl⟩ := htoken.read
    have hkept : selectRows (fun x => allHold (tests L e req sel clock x)) scan =
        .ok (matching L ctx e clock req scan) := by
      unfold matching
      rw [hresolved]
      refine selectRows_of_forall fun x hx => ?_
      obtain ⟨v, hv⟩ := hevaluates x (hscan.mem_iff.1 hx)
      rw [hv]
      rfl
    have hleft : (((matching L ctx e clock req scan).map (summary L e clock)).insertionSort
          listedBefore).filter (afterCursor at_) =
        Paging.remaining position (sortedRecords L ctx e clock req scan)
          (at_.map (placeOf id)) := by
      rw [insertionSort_eq_listed, funext (afterCursor_eq at_)]
      -- what is left was sorted before the cursor was looked at
      have hsorted := (Paging.listed_sorted position ((matching L ctx e clock req scan).map
        (summary L e clock))).filter (Paging.after position (at_.map (placeOf id)))
      exact hsorted.insertionSort_eq.symm
    obtain ⟨token', hcut, hdenotes⟩ := cutPage_spec (Paging.remaining position
      (sortedRecords L ctx e clock req scan) (at_.map (placeOf id))) req.pageSizeInUse
      (jobQueryBinding L ctx req sel.bound)
    refine ⟨token', ?_, hdenotes⟩
    refine bind_eq_ok.2 ⟨(), h.routes, bind_eq_ok.2 ⟨(), h.scope, ?_⟩⟩
    refine bind_eq_ok.2 ⟨stores, h.included, ?_⟩
    rw [if_neg hne]
    refine bind_eq_ok.2 ⟨sel, hselected, bind_eq_ok.2 ⟨at_, hread, ?_⟩⟩
    refine bind_eq_ok.2 ⟨_, hkept, ?_⟩
    rw [List.map_id]
    show Except.ok (cutPage _ _ _) = _
    rw [hleft]
    exact congrArg Except.ok hcut

/-- The token of an instant gives back that instant. -/
theorem resumed_le {p c : Position} (h : resumed p = some c) : c ≤ p := by
  unfold resumed at h
  split at h
  · exact le_of_eq (Option.some.inj h).symm
  · cases h

/-- Following the pages of a request ends, and it lists each matching job exactly once if and
only if at every page boundary a token can be written and the next job lies below it. -/
theorem pages_iff {resp : ListJobsResponse}
    (hfirst : listJobs L ctx e clock e.jobRecords.rows { req with pageToken := .empty } = .ok resp)
    {scan : Nat → List (JobKey × JobRecord)} (hscan : ∀ i, scan i ~ e.jobRecords.rows) :
    ∃ pages, followPages (fun i token => listJobs L ctx e clock (scan i)
        { req with pageToken := token }) (e.jobRecords.rows.length + 1) 0 .empty = some pages ∧
      (ListsEach id pages ((matching L ctx e clock req e.jobRecords.rows).map (summary L e clock)) ↔
        Paging.Parted resumed req.pageSizeInUse
          ((Paging.listed position ((matching L ctx e clock req e.jobRecords.rows).map
            (summary L e clock))).map position)) := by
  obtain ⟨stores, sel, h⟩ := answered_of_ok hfirst
  have hlength : ((matching L ctx e clock req e.jobRecords.rows).map (summary L e clock)).length <
      e.jobRecords.rows.length + 1 := by
    rw [List.length_map]
    exact Nat.lt_succ_of_le (length_matching_le _)
  have hperm : ∀ i, sortedRecords L ctx e clock req (scan i) ~
      (matching L ctx e clock req e.jobRecords.rows).map (summary L e clock) := fun i =>
    (Paging.listed_perm position _).trans ((matching_perm (hscan i)).map _)
  have hpos : ∀ s ∈ (matching L ctx e clock req e.jobRecords.rows).map (summary L e clock),
      position s = toLex ((id : Time → Int) (id s).createdAt, (id s).jobKey.text) := fun _ _ => rfl
  have hlists := followPages_lists_iff req.pageSizeInUse_pos hperm
    (fun s _ c hc => resumed_le hc)
    (fun i token cursor htoken => listJobs_page h (hscan i) htoken) hpos hlength
  rwa [List.map_id] at hlists

end Paged

end JobDB.Toy
