import JobDB.Basic

/-!
# Cells

Cells, the requests on them and the checks that look at nothing but a request
(`pkg/jobdb/cells.go`).

What these checks take from Go's standard library beyond comparing characters is
a field of `CellLib`: URL parsing, Unicode case mapping, JSON, quoting and
hashing. Nothing is assumed about these functions.
-/

namespace JobDB

inductive CellState where
  | active
  | retired
deriving DecidableEq, Repr

/-- A `map[string]json.RawMessage`, as the list of its entries by ascending key. -/
structure Fields where
  entries : List (String × String) := []
  ascending : (entries.map (·.1)).Pairwise (· < ·) := by simp
deriving DecidableEq, Repr

/-- No entries. -/
def Fields.none : Fields := {}

/-- Replace every value. -/
def Fields.mapValues (f : String → String) (m : Fields) : Fields where
  entries := m.entries.map fun e => (e.1, f e.2)
  ascending := by
    have hkeys : (m.entries.map fun e => (e.1, f e.2)).map (·.1) = m.entries.map (·.1) := by
      rw [List.map_map]
      rfl
    rw [hkeys]
    exact m.ascending

/-- `Cell`. -/
structure Cell where
  tenantID : String
  id : String
  name : String
  repo : String
  description : String := ""
  metadata : Fields := .none
  state : CellState := .active
  aliases : List String := []
  revision : String
  createdAt : Time
  updatedAt : Time
  retiredAt : Option Time := none
deriving DecidableEq, Repr

/-- Every name a cell answers to, its current name first. -/
def Cell.names (c : Cell) : List String := c.name :: c.aliases

/-- `CellKey`. -/
structure CellKey where
  tenantID : String
  cellID : String
deriving DecidableEq, Repr

/-- `ResolvedCell`. -/
structure ResolvedCell where
  cellID : String
  cell : String
  cellRepo : String
deriving DecidableEq, Repr

/-- `Cell.Resolved`. -/
def Cell.resolved (c : Cell) : ResolvedCell :=
  { cellID := c.id, cell := c.name, cellRepo := c.repo }

/-- `CreateCellRequest`; no metadata is Go's nil map. -/
structure CreateCellRequest where
  tenantID : String
  name : String
  repo : String
  description : String := ""
  metadata : Option Fields := none
  requestID : String := ""
deriving DecidableEq, Repr

/-- `UpdateCellRequest`: each field is left alone unless given; metadata can be
given as Go's nil map. -/
structure UpdateCellRequest where
  key : CellKey
  ifMatch : String
  name : Option String := none
  repo : Option String := none
  description : Option String := none
  metadata : Option (Option Fields) := none
deriving DecidableEq, Repr

/-- `RetireCellRequest`. -/
structure RetireCellRequest where
  key : CellKey
  ifMatch : String
deriving DecidableEq, Repr

/-! ## Errors -/

def errInvalidCell : Err := .cell ⟨"invalid_request", 400⟩
def errCellForbidden : Err := .cell ⟨"forbidden", 403⟩
def errCellNotFound : Err := .cell ⟨"not_found", 404⟩
def errCellConflict : Err := .cell ⟨"cell_conflict", 409⟩
def errCellRepoMismatch : Err := .cell ⟨"cell_repo_mismatch", 409⟩
def errCellRetired : Err := .cell ⟨"cell_retired", 409⟩
def errCellBusy : Err := .cell ⟨"cell_busy", 409⟩
def errCellRequestConflict : Err := .cell ⟨"request_conflict", 409⟩
def errInvalidCellPageToken : Err := .cell ⟨"invalid_page_token", 400⟩
def errCellPrecondition : Err := .cell ⟨"precondition_failed", 412⟩
def errCellPreconditionRequired : Err := .cell ⟨"precondition_required", 428⟩

/-! ## Who asks -/

/-- `CellAuthority`; no `cells` is the nil map, which grants all cells. -/
structure CellAuthority where
  principal : String
  tenantID : String
  permissions : String → Bool
  cells : Option (String → Bool) := none

/-- `cellstate.LeaseProof`. -/
structure LeaseProof where
  jobKey : JobKey
  leaseID : String
  workerID : String
deriving DecidableEq, Repr

/-- `jobdb.ScheduleKey`. -/
structure ScheduleKey where
  tenantId : String
  scheduleId : String
deriving DecidableEq, Repr

/-- What a request's context carries. -/
structure Ctx where
  authority : Option CellAuthority := none
  /-- `cellstate.WithLease`. -/
  lease : Option LeaseProof := none
  /-- `cellstate.WithSchedule`. -/
  schedule : Option ScheduleKey := none

/-- A caller who may do everything. -/
def Ctx.admin : Ctx where
  authority := some { tenantID := "*", principal := "admin", permissions := fun _ => true }

/-- The authority's principal, empty without one. -/
def Ctx.principal (ctx : Ctx) : String := (ctx.authority.map (·.principal)).getD ""

/-- `AuthorizeCell`. -/
def authorizeCell (ctx : Ctx) (tenant id permission : String) : Except Err Unit :=
  match ctx.authority with
  | none => .error errCellForbidden
  | some a =>
    if tenant = "" ∨ a.principal = "" ∨ (a.tenantID ≠ tenant ∧ a.tenantID ≠ "*") ∨
        a.permissions permission = false then
      .error errCellForbidden
    else if id ≠ "" ∧ a.cells.any (fun cells => !cells id) then .error errCellNotFound
    else .ok ()

/-! ## Names -/

/-- A character of `cellNamePattern`. -/
def isCellNameChar (c : Char) : Bool :=
  c.isAlphanum || c == '.' || c == '_' || c == '-'

/-- `ValidateCellName`. -/
def validateCellName (s : String) : Except Err Unit :=
  if s.length < 1 ∨ 128 < s.length ∨ s.toList.all isCellNameChar = false ∨ s = "." ∨ s = ".." then
    .error errInvalidCell
  else .ok ()

/-! ## What comes from the standard library -/

/-- `url.URL`, as far as `NormalizeCellRepo` looks at it; `user` is whether the
user information has a password. -/
structure URL where
  scheme : String
  user : Option Bool := none
  host : String
  hostname : String
  port : String := ""
  path : String
  rawPath : String := ""
  rawQuery : String := ""
  fragment : String := ""

structure CellLib where
  /-- `url.Parse`. -/
  parseURL : String → Option URL
  /-- `strings.ToLower`. -/
  toLower : String → String
  /-- `json.Valid`. -/
  validJSON : String → Bool
  /-- A JSON text decoded with `UseNumber` and marshalled again. -/
  canonicalJSON : String → String
  /-- `json.Marshal` of a map. -/
  marshalFields : Fields → Option String
  /-- `fmt.Sprintf("%q", s)`. -/
  quote : String → String
  /-- SHA-256 of the marshalled request, in hexadecimal. -/
  requestDigest : CreateCellRequest → String

/-- A library that takes every text as it is and knows no URL. -/
def CellLib.plain : CellLib where
  parseURL _ := none
  toLower := id
  validJSON _ := true
  canonicalJSON := id
  marshalFields _ := some ""
  quote s := "\"" ++ s ++ "\""
  requestDigest req := req.name

/-! ## Repositories -/

/-- `strings.ContainsAny`. -/
def containsAny (s : List Char) (chars : String) : Bool := s.any (chars.toList.contains ·)

/-- `strings.Contains`. -/
def containsText (text : List Char) : List Char → Bool
  | [] => text = []
  | c :: s => text.isPrefixOf (c :: s) || containsText text s

/-- `strings.Cut` at a single character. -/
def cutAt (c : Char) (s : List Char) : Option (List Char × List Char) :=
  match s.dropWhile (· ≠ c) with
  | [] => none
  | _ :: rest => some (s.takeWhile (· ≠ c), rest)

/-- `strings.TrimSuffix`. -/
def trimSuffix (suffix s : List Char) : List Char :=
  if suffix <:+ s then s.take (s.length - suffix.length) else s

/-- `len(s)`. -/
def byteLength (s : List Char) : Nat := (String.ofList s).utf8ByteSize

namespace CellLib

variable (L : CellLib)

/-- The host and the path of a locator. -/
def repoParts (s : String) : Except Err (List Char × List Char) :=
  if containsText "://".toList s.toList then
    match L.parseURL s with
    | none => .error errInvalidCell
    | some u =>
      if u.host = "" ∨ u.rawQuery ≠ "" ∨ u.fragment ≠ "" ∨ u.rawPath ≠ "" then
        .error errInvalidCell
      else if u.scheme ≠ "https" ∧ u.scheme ≠ "ssh" then .error errInvalidCell
      else if u.scheme = "https" ∧ u.user.isSome then .error errInvalidCell
      else if u.user = some true then .error errInvalidCell
      else if u.port ≠ "" ∧ ¬ (u.scheme = "https" ∧ u.port = "443") ∧
          ¬ (u.scheme = "ssh" ∧ u.port = "22") then
        .error errInvalidCell
      else
        .ok (u.hostname.toList,
          if u.path.toList.head? = some '/' then u.path.toList.tail else u.path.toList)
  else
    match cutAt '@' s.toList with
    | some (user, rest) =>
      match cutAt ':' rest with
      | none => .error errInvalidCell
      | some parts => if user = [] then .error errInvalidCell else .ok parts
    | none =>
      match cutAt '/' s.toList with
      | none => .error errInvalidCell
      | some parts => .ok parts

/-- The path of a locator without a final slash and one `.git`. -/
def barePath (path : List Char) : List Char := trimSuffix ".git".toList (trimSuffix ['/'] path)

/-- The last checks, on what the host and the path have become. -/
def assemble (host path : List Char) : Except Err String :=
  if host = [] ∨ containsAny host ":/@%" ∨ host = ['.'] ∨ host = ['.', '.'] ∨ path = [] ∨
      containsAny path ":@%" then
    .error errInvalidCell
  else if (path.splitOn '/').any (fun part => part = [] || part = ['.'] || part = ['.', '.']) then
    .error errInvalidCell
  else if 2048 < byteLength host + byteLength path + 1 then .error errInvalidCell
  else .ok (String.ofList (host ++ '/' :: path))

/-- `NormalizeCellRepo`. -/
def normalizeCellRepo (s : String) : Except Err String :=
  if s = "" ∨ s.toList.head?.any isSpace ∨ s.toList.getLast?.any isSpace ∨
      containsAny s.toList "?#\\\t\r\n " then
    .error errInvalidCell
  else do
    let (host, path) ← L.repoParts s
    assemble (L.toLower (String.ofList host)).toList (barePath path)

/-! ## Properties and revisions -/

/-- `ValidateCellProperties`. -/
def validateCellProperties (description : String) (metadata : Fields) : Except Err Unit :=
  if 2048 < description.length ∨ 64 < metadata.entries.length then .error errInvalidCell
  else if metadata.entries.any fun e => e.1.length < 1 || 128 < e.1.length || !L.validJSON e.2 then
    .error errInvalidCell
  else
    match L.marshalFields metadata with
    | none => .error errInvalidCell
    | some raw => if 16384 < raw.utf8ByteSize then .error errInvalidCell else .ok ()

/-- `canonicalMetadata`. -/
def canonicalMetadata (metadata : Fields) : Fields := metadata.mapValues L.canonicalJSON

/-- `CheckCellRevision`. -/
def checkCellRevision (header revision : String) : Except Err Unit :=
  if header = "" then .error errCellPreconditionRequired
  else if header.utf8ByteSize < 3 ∨ header.toList.head? ≠ some '"' ∨
      header.toList.getLast? ≠ some '"' ∨
      containsAny header.toList.tail.dropLast "\"\\,\r\n" then
    .error errInvalidCell
  else if header ≠ L.quote revision then .error errCellPrecondition
  else .ok ()

end CellLib

end JobDB
