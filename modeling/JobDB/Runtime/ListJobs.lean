import JobDB.Cell.Types
import JobDB.Lib.Paging
import JobDB.Runtime.Metadata
import JobDB.Runtime.Types
import Mathlib.Data.Prod.Lex
import Mathlib.Data.String.Basic

/-!
# Listing jobs

Requests, summaries and page tokens of `ListJobs` (`pkg/jobdb/list_jobs.go`,
`runtime/cellstate/job_cursor.go`), and what it is to follow the pages of a listing.

A page token is a base64 text of a JSON object; an `Encoded` value is such a text together
with the object in it. Go writes an instant into JSON if its year has at most four digits,
to the nanosecond.

Jobs are listed by their creation time and, where that is the same, by the text of their key,
both descending. The key's text joins tenant and job ID with a slash, which either may
contain.
-/

namespace JobDB

open scoped List

/-! ## Requests -/

/-- `JobStatus`. -/
inductive JobStatus where
  | ready
  | expired
  | pendingJobs
  | awaitingFuture
  | active
  | crashConcern
  | completed
  | cancelled
  | other (text : String)
deriving DecidableEq, Repr

/-- `JobStore`. -/
inductive JobStore where
  | active
  | archived
  | other (text : String)
deriving DecidableEq, Repr

/-- A candidate value of a metadata filter: `nil`, a raw JSON text, or a value that
`json.Marshal` turns into JSON. -/
inductive MetadataValue where
  | nil
  | raw (text : String)
  | value (v : Json)

/-- `MetadataFilter`. -/
inductive MetadataFilter where
  | empty
  | equal (field : String) (value : MetadataValue)
  | or (field : String) (values : List MetadataValue)
  | and (left right : MetadataFilter)

/-- A text of an `α`: the empty text, one that encodes a value, or any other. -/
inductive Encoded (α : Type) where
  | empty
  | other (text : String)
  | of (value : α)
deriving DecidableEq, Repr

/-- `pageCursor`. -/
structure PageCursor where
  createdAt : Time
  tenantId : String
  jobID : String
deriving DecidableEq, Repr

/-- `jobCursor`. -/
structure JobCursor where
  version : Int
  binding : String
  position : Encoded PageCursor
deriving DecidableEq, Repr

/-- The token of a page. -/
abbrev PageToken := Encoded JobCursor

/-- `ListJobsRequest`; no `cellNames` is the nil slice. -/
structure ListJobsRequest where
  cellNames : Option (List String) := none
  goalIDs : List String := []
  includeHidden : Bool := false
  tenantIds : List String
  statuses : List JobStatus := []
  stores : List JobStore := []
  jobTypes : List String := []
  jobTasks : List Route := []
  availableRoutes : List Route := []
  jobKeys : List JobKey := []
  parentJobIDs : List String := []
  rootOnly : Bool := false
  metadataFilter : Option MetadataFilter := none
  createdAfter : Option Time := none
  createdBefore : Option Time := none
  pageSize : Int := 0
  pageToken : PageToken := .empty

/-- `DependencyWaitSummary`. -/
structure DependencyWaitSummary where
  waitID : String
  deadline : Option Time := none
deriving DecidableEq, Repr

/-- `JobSummary`, without the fields a compact list leaves empty. -/
structure JobSummary where
  cell : String
  cellID : String
  cellRepo : String
  blockingWaitSummary : Option DependencyWaitSummary
  goalID : String
  jobKey : JobKey
  status : JobStatus
  completionStatus : String
  completionDetail : String
  jobType : String
  nextRoute : Route
  waitFor : List String
  availableAt : Time
  leaseExpiresAt : Option Time
  cancelRequested : Bool
  createdAt : Time
  archivedAt : Option Time
  clientPayload : Option String
  clientPayloadRevision : Int
  executionState : JobPayload
  metadata : String
  schemaHash : String
  parentJobID : String
deriving DecidableEq, Repr

/-- `ListJobsResponse`. -/
structure ListJobsResponse where
  jobs : List JobSummary := []
  nextPageToken : PageToken := .empty
deriving DecidableEq, Repr

/-- The functions a listing is given. -/
structure ListLib where
  /-- SHA-256 of the JSON text of a request, an authority and the selected cells. -/
  queryDigest : ListJobsRequest → Option CellAuthority → List String → String
  /-- What a number is written as after it was read as a float. -/
  float : JsonNumber → Option JsonNumber
  /-- Does the value decode as a `ScheduleOccurrenceMetadata`? -/
  scheduleDecodes : Json → Bool
  /-- `%q`. -/
  quote : String → String

/-- `ListJobsRequest.ValidateRoutes`. -/
def ListJobsRequest.validateRoutes (req : ListJobsRequest) : Except Err Unit := do
  req.availableRoutes.forM fun route =>
    route.validate.mapError fun e => .invalid ("available routes: " ++ e.message)
  req.jobTypes.forM validateIdentifier
  req.jobTasks.forM fun task => do
    task.validate
    if task.taskType = "" then .error (.invalid "task filter requires a task type") else .ok ()

/-- `DefaultListJobsPageSize` and `MaxListJobsPageSize` around the requested size. -/
def ListJobsRequest.pageSizeInUse (req : ListJobsRequest) : Nat :=
  if req.pageSize ≤ 0 then 100 else if 200 < req.pageSize then 200 else req.pageSize.toNat

theorem ListJobsRequest.pageSizeInUse_pos (req : ListJobsRequest) : 0 < req.pageSizeInUse := by
  unfold pageSizeInUse
  split
  · omega
  · split <;> omega

/-- The checks on the tenants and the parents. -/
def ListJobsRequest.validateScope (req : ListJobsRequest) : Except Err Unit :=
  if req.rootOnly ∧ req.parentJobIDs ≠ [] then
    .error (.invalid "RootOnly cannot be combined with ParentJobIDs")
  else if req.tenantIds = [] then .error (.invalid "tenant_ids is required for ListJobs")
  else .ok ()

/-- One of the values, or no values are listed. -/
def isIn {α : Type} [DecidableEq α] (values : List α) (x : α) : Bool :=
  values.isEmpty || decide (x ∈ values)

/-- The requested stores: are active jobs included, and archived ones? -/
def storeSelection (L : ListLib) : List JobStore → Except Err (Bool × Bool)
  | [] => .ok (false, false)
  | .active :: rest => (storeSelection L rest).map fun s => (true, s.2)
  | .archived :: rest => (storeSelection L rest).map fun s => (s.1, true)
  | .other text :: _ => .error (.invalid ("unknown store " ++ L.quote text))

/-! ## Filters on metadata -/

/-- `MetadataPredicate`. -/
structure MetadataPredicate where
  path : List String
  values : List MetadataValue

/-- `normalizedMetadataPredicate`. -/
structure NormalizedMetadataPredicate where
  path : List String
  valuesJSON : List String
deriving DecidableEq, Repr

section Predicates

variable (L : ListLib)

/-- `validateField`, for values that are there. -/
def validateField (field : String) : Except Err Unit :=
  let name := String.ofList (trimSpace field.toList)
  if name = "" then .error (.invalid "metadata field name is required")
  else if '.' ∈ name.toList then
    .error (.invalid ("metadata field " ++ L.quote name ++ " must be a top-level field"))
  else .ok ()

/-- `predicateFromEqual`. -/
def predicateFromEqual (field : String) (values : List MetadataValue) :
    Except Err MetadataPredicate := do
  validateField L field
  values.forM fun
    | .nil => .error (.invalid ("metadata field " ++ L.quote field ++ " value is required"))
    | _ => .ok ()
  .ok { path := [field], values := values }

/-- `collectMetadataPredicates`. -/
def collectMetadataPredicates : MetadataFilter → Except Err (List MetadataPredicate)
  | .empty => .ok []
  | .equal field value => do .ok [← predicateFromEqual L field [value]]
  | .or field values => do .ok [← predicateFromEqual L field values]
  | .and left right => do
    .ok ((← collectMetadataPredicates left) ++ (← collectMetadataPredicates right))

/-- `MetadataPredicates`. -/
def metadataPredicates : Option MetadataFilter → Except Err (List MetadataPredicate)
  | none => .ok []
  | some filter => collectMetadataPredicates L filter

/-- `encodeMetadataPredicateValue` of a candidate value of predicate `i`. -/
def encodeMetadataPredicateValue (i : Nat) : MetadataValue → Except Err String
  | .nil => .error (.invalid ("metadata predicate " ++ toString i ++ " values cannot contain nil"))
  | .raw text =>
    if (unmarshal text).isSome then .ok text
    else .error (.invalid ("metadata predicate " ++ toString i ++
      " values invalid: metadata predicate value must be valid JSON"))
  | .value v => .ok v.write

/-- One round of the loop of `normalizeMetadataPredicates`. -/
def normalizeMetadataPredicate (predicate : MetadataPredicate) (i : Nat) :
    Except Err NormalizedMetadataPredicate := do
  if predicate.path = [] then
    .error (.invalid ("metadata predicate " ++ toString i ++ " path is required"))
  else if "" ∈ predicate.path then
    .error (.invalid ("metadata predicate " ++ toString i ++ " path contains empty segment"))
  else if predicate.values.length = 0 then
    .error (.invalid ("metadata predicate " ++ toString i ++ " values are required"))
  else
    let valuesJSON ← predicate.values.mapM (encodeMetadataPredicateValue i)
    .ok { path := "app" :: predicate.path, valuesJSON := valuesJSON }

/-- `normalizeMetadataPredicates`. -/
def normalizeMetadataPredicates (predicates : List MetadataPredicate) :
    Except Err (List NormalizedMetadataPredicate) :=
  predicates.zipIdx.mapM fun p => normalizeMetadataPredicate p.1 p.2

/-- `metadataValueAtPath`. -/
def metadataValueAtPath (root : Json) (path : List String) : Option Json :=
  path.foldlM (fun current segment =>
    match current with
    | .obj ms => Json.find segment ms
    | _ => none) root

/-- `metadataMatches`. -/
def metadataMatches (raw : String) (predicates : List NormalizedMetadataPredicate) :
    Except Err Bool :=
  if predicates = [] then .ok true
  else
    match (if raw = "" then some (.obj []) else unmarshal raw).bind (Json.normalize L.float) with
    | none => .error (.invalid "metadata must be valid JSON object")
    | some metadata =>
      .ok (predicates.all fun p =>
        (metadataValueAtPath metadata p.path).any fun value => value.write ∈ p.valuesJSON)

end Predicates

/-! ## Page tokens -/

/-- `EncodeListJobsPageToken`. -/
def encodeListJobsPageToken (createdAt : Time) (k : JobKey) : Except Err (Encoded PageCursor) :=
  if (timeJSON createdAt).isSome then .ok (.of ⟨createdAt, k.tenantId, k.jobId⟩)
  else .error (.invalid "json: error calling MarshalJSON for type time.Time")

/-- `DecodeListJobsPageToken`. -/
def decodeListJobsPageToken : Encoded PageCursor → Except Err (Time × JobKey)
  | .of cur => .ok (cur.createdAt, ⟨cur.tenantId, cur.jobID⟩)
  | _ => .error (.invalid "invalid page token")

/-- `JobQueryBinding`. -/
def jobQueryBinding (L : ListLib) (ctx : Ctx) (req : ListJobsRequest) (selected : List String) :
    String :=
  L.queryDigest { req with pageToken := .empty, pageSize := 0, cellNames := none } ctx.authority
    (sortStrings selected)

/-- `WrapJobCursor`. -/
def wrapJobCursor (position : Encoded PageCursor) (binding : String) : PageToken :=
  if position = .empty then .empty else .of ⟨1, binding, position⟩

/-- `UnwrapJobCursor`. -/
def unwrapJobCursor (token : PageToken) (binding : String) : Except Err (Encoded PageCursor) :=
  match token with
  | .empty => .ok .empty
  | .other _ => .error errInvalidCellPageToken
  | .of c =>
    if c.version ≠ 1 ∨ c.binding ≠ binding ∨ c.position = .empty then .error errInvalidCellPageToken
    else .ok c.position

/-- The position that a page goes on from, if the token holds one. -/
def readPageToken (token : PageToken) (binding : String) : Except Err (Option (Time × JobKey)) := do
  let position ← unwrapJobCursor token binding
  if position = .empty then .ok none
  else
    let at_ ← decodeListJobsPageToken position
    .ok (some at_)

/-- The token of a page that ends with the given job. -/
def writePageToken (createdAt : Time) (k : JobKey) (binding : String) : Except Err PageToken := do
  let position ← encodeListJobsPageToken createdAt k
  .ok (wrapJobCursor position binding)

/-- A token is read back as what it was written for, under the same binding. -/
theorem readPageToken_write {createdAt : Time} {k : JobKey} {binding : String} {token : PageToken}
    (h : writePageToken createdAt k binding = .ok token) :
    token ≠ .empty ∧ readPageToken token binding = .ok (some (createdAt, k)) := by
  unfold writePageToken encodeListJobsPageToken at h
  split at h
  · cases h
    exact ⟨by simp [wrapJobCursor], by simp [wrapJobCursor, readPageToken, unwrapJobCursor,
      decodeListJobsPageToken, bind, Except.bind]⟩
  · cases h

/-! ## Following the pages -/

/-- Creation time and key text, the place of a job in a listing. -/
abbrev Position := Int ×ₗ String

/-- The pages from a token on, `fuel` of them at most; `call i` is the listing's call number
`i`. -/
def followPages (call : Nat → PageToken → Except Err ListJobsResponse) :
    Nat → Nat → PageToken → Option (List (List JobSummary))
  | 0, _, _ => none
  | fuel + 1, i, token =>
    match call i token with
    | .error _ => none
    | .ok r =>
      if r.nextPageToken = .empty then some [r.jobs]
      else (followPages call fuel (i + 1) r.nextPageToken).map (r.jobs :: ·)

/-- The pages together list each of the jobs once, in descending order of creation time and key
text; `column` is the number that stands for a time. -/
structure ListsEach (column : Time → Int) (pages : List (List JobSummary))
    (jobs : List JobSummary) : Prop where
  once : pages.flatten ~ jobs
  ordered : pages.flatten.Pairwise fun x y =>
    toLex (column y.createdAt, y.jobKey.text) ≤ toLex (column x.createdAt, x.jobKey.text)

/-- The cursor that a token stands for; `column` is the number that stands for a time. -/
def Denotes (column : Time → Int) (binding : String) (token : PageToken) : Option Position → Prop
  | none => token = .empty
  | some c => token ≠ .empty ∧ ∃ t k, readPageToken token binding = .ok (some (t, k)) ∧
      c = toLex (column t, k.text)

/-- The place that a cursor stands for. -/
def placeOf (column : Time → Int) (c : Time × JobKey) : Position := toLex (column c.1, c.2.text)

theorem Denotes.read {column : Time → Int} {binding : String} {token : PageToken}
    {cursor : Option Position} (h : Denotes column binding token cursor) :
    ∃ c, readPageToken token binding = .ok c ∧ cursor = c.map (placeOf column) := by
  cases cursor with
  | none =>
    obtain rfl : token = .empty := h
    exact ⟨none, rfl, rfl⟩
  | some c =>
    obtain ⟨-, t, k, hread, rfl⟩ := h
    exact ⟨some (t, k), hread, rfl⟩

section Follow

variable {α : Type} {pos : α → Position} {resume : Position → Option Position} {n : Nat}
  {scan : Nat → List α} {call : Nat → PageToken → Except Err ListJobsResponse}
  {summary : α → JobSummary} {column : Time → Int} {binding : String}

/-- A listing whose calls hand out the pages of a paging by position is followed like that
paging. -/
theorem followPages_eq_walk
    (hcall : ∀ i token cursor, Denotes column binding token cursor →
      ∃ token', call i token =
          .ok ⟨(Paging.page pos resume n (scan i) cursor).1.map summary, token'⟩ ∧
        Denotes column binding token' (Paging.page pos resume n (scan i) cursor).2) :
    ∀ fuel i token cursor, Denotes column binding token cursor →
      followPages call fuel i token =
        (Paging.walk pos resume n scan fuel i cursor).map (·.map (·.map summary)) := by
  intro fuel
  induction fuel with
  | zero => intro i token cursor _; rfl
  | succ fuel ih =>
    intro i token cursor hdenotes
    obtain ⟨token', hresponse, htoken'⟩ := hcall i token cursor hdenotes
    unfold followPages Paging.walk
    rw [hresponse]
    cases hnext : (Paging.page pos resume n (scan i) cursor).2 with
    | none =>
      rw [hnext] at htoken'
      have hempty : token' = .empty := htoken'
      simp [hempty]
    | some c =>
      rw [hnext] at htoken'
      simp only [htoken'.1, if_false, ih (i + 1) token' (some c) htoken', Option.map_map]
      rfl

/-- Following the pages of such a listing ends, and it lists every row exactly once if and only
if the listing is parted at its page boundaries. -/
theorem followPages_lists_iff (hn : 0 < n) {rows : List α} (hscan : ∀ i, scan i ~ rows)
    (hresume : ∀ x ∈ rows, ∀ c, resume (pos x) = some c → c ≤ pos x)
    (hcall : ∀ i token cursor, Denotes column binding token cursor →
      ∃ token', call i token =
          .ok ⟨(Paging.page pos resume n (scan i) cursor).1.map summary, token'⟩ ∧
        Denotes column binding token' (Paging.page pos resume n (scan i) cursor).2)
    {shown : Time → Int}
    (hpos : ∀ x ∈ rows, pos x = toLex (shown (summary x).createdAt, (summary x).jobKey.text))
    {fuel : Nat} (hfuel : rows.length < fuel) :
    ∃ pages, followPages call fuel 0 .empty = some pages ∧
      (ListsEach shown pages (rows.map summary) ↔
        Paging.Parted resume n ((Paging.listed pos rows).map pos)) := by
  obtain ⟨pages, hwalk, hsorted, hiff, hlength⟩ :=
    Paging.walk_complete_iff hn hscan hresume hfuel
  refine ⟨pages.map (·.map summary), ?_, ?_⟩
  · rw [followPages_eq_walk hcall fuel 0 .empty none rfl, hwalk]
    rfl
  have hflatten : (pages.map (·.map summary)).flatten = pages.flatten.map summary :=
    (List.map_flatten ..).symm
  rw [← hiff]
  constructor
  · intro h
    have hlen := h.once.length_eq
    rw [hflatten, List.length_map, List.length_map] at hlen
    exact hlength.1 hlen
  · intro h
    constructor
    · rw [hflatten]
      exact h.map summary
    · rw [hflatten, List.pairwise_map]
      refine hsorted.imp_of_mem fun {x y} hx hy hxy => ?_
      rw [← hpos x (h.mem_iff.1 hx), ← hpos y (h.mem_iff.1 hy)]
      exact hxy

end Follow

end JobDB
