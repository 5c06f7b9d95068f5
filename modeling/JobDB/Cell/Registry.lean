import JobDB.Cell.Types
import JobDB.Lib.Table
import JobDB.Lib.Tx

/-!
# The cell registry

One tenant's registry as `pkg/jobdb/runtime/cellstate` keeps it. `time.Now()`
and the IDs `ksuid.New` draws are arguments of an operation. `Clone` copies a
value through its JSON text, which loses nothing of a cell, and is not modelled.

`byName` walks over a Go map, whose order is not specified; here it is the
table's storage order. `mem_of_byName` and `WellFormed.byName_eq_some` (in
`JobDB.Cell.Names`) show that the order does not matter.
-/

namespace JobDB

/-- `cellstate.Creation`. -/
structure Creation where
  principal : String
  requestID : String
  descriptor : String
  result : Cell
deriving DecidableEq, Repr

/-- `cellstate.State`, without the key that signs list cursors. -/
structure Registry where
  cells : Table String Cell := ∅
  creations : List Creation := []

namespace Registry

variable (L : CellLib)

/-- `s.Cells[c.ID] = c`. -/
def put (s : Registry) (c : Cell) : Registry := { s with cells := s.cells.insert c.id c }

/-- `ByName`. -/
def byName (s : Registry) (name : String) : Option Cell :=
  (s.cells.rows.find? fun r => name ∈ r.2.names).map (·.2)

/-- `unique`. -/
def unique (s : Registry) (c : Cell) : Except Err Unit :=
  if s.cells.rows.any fun r => r.2.id ≠ c.id && r.2.repo = c.repo then .error errCellConflict
  else if c.names.any fun n => (s.byName n).any (·.id ≠ c.id) then .error errCellConflict
  else .ok ()

/-- The creation an earlier request with the same ID made. -/
def creation? (s : Registry) (principal requestID : String) : Option Creation :=
  if requestID = "" then none
  else s.creations.find? fun r => r.principal = principal && r.requestID = requestID

/-! ## Create -/

/-- The checks of `Create` on the request alone: the request as it is then used,
with its repository normalised and its metadata in canonical form. -/
def normalizeCreate (ctx : Ctx) (req : CreateCellRequest) : Except Err CreateCellRequest := do
  authorizeCell ctx req.tenantID "" "cells.create"
  validateCellName req.name
  let repo ← L.normalizeCellRepo req.repo
  L.validateCellProperties req.description (req.metadata.getD .none)
  if 128 < req.requestID.utf8ByteSize then .error errInvalidCell
  else
    .ok { req with
      repo := repo
      metadata := some (L.canonicalMetadata (req.metadata.getD .none)) }

/-- The cell that a normalised request asks for. -/
def newCell (req : CreateCellRequest) (now : Time) (id revision : String) : Cell where
  tenantID := req.tenantID
  id := id
  name := req.name
  repo := req.repo
  description := req.description
  metadata := req.metadata.getD .none
  revision := revision
  createdAt := now
  updatedAt := now

/-- Store a new cell and remember the request that made it. -/
def register (s : Registry) (principal descriptor : String) (req : CreateCellRequest) (c : Cell) :
    Registry :=
  if req.requestID = "" then s.put c
  else
    { s.put c with
      creations := s.creations ++ [⟨principal, req.requestID, descriptor, c⟩] }

/-- `Create`. -/
def create (ctx : Ctx) (now : Time) (id revision : String) (req : CreateCellRequest)
    (s : Registry) : Except Err (Cell × Registry) := do
  let req ← normalizeCreate L ctx req
  match s.creation? ctx.principal req.requestID with
  | some r =>
    if r.descriptor ≠ L.requestDigest req then .error errCellRequestConflict
    else if (s.cells.lookup r.result.id).any (·.state = .retired) then .error errCellRetired
    else .ok (r.result, s)
  | none => do
    s.unique (newCell req now id revision)
    .ok (newCell req now id revision,
      s.register ctx.principal (L.requestDigest req) req (newCell req now id revision))

/-- `CreateWithLease`. -/
def createWithLease (ctx : Ctx) (now : Time) (id revision : String) (p : LeaseProof)
    (req : CreateCellRequest) (s : Registry) : Except Err (Cell × Registry) :=
  if req.tenantID ≠ "" ∧ req.tenantID ≠ p.jobKey.tenantId then .error errCellForbidden
  else
    create L
      { ctx with
        authority := some
          { tenantID := p.jobKey.tenantId
            principal := "lease:" ++ L.quote p.jobKey.jobId ++ ":" ++ L.quote p.leaseID ++ ":" ++
              L.quote p.workerID
            permissions := fun permission => permission = "cells.create" } }
      now id revision { req with tenantID := p.jobKey.tenantId } s

/-! ## Get, Update and Retire -/

/-- `Get`. -/
def get (ctx : Ctx) (key : CellKey) (s : Registry) : Except Err Cell := do
  authorizeCell ctx key.tenantID key.cellID "cells.get"
  match s.cells.lookup key.cellID with
  | none => .error errCellNotFound
  | some c => .ok c

/-- The cell a mutation is about: it is visible, the caller may change it, and the
caller has seen its latest revision. -/
def getForChange (ctx : Ctx) (key : CellKey) (ifMatch permission : String) (s : Registry) :
    Except Err Cell := do
  let c ← s.get ctx key
  authorizeCell ctx key.tenantID c.id permission
  L.checkCellRevision ifMatch c.revision
  .ok c

/-- A cell under another name; the name it had stays as an alias. -/
def rename (c : Cell) (name : String) : Cell :=
  if name = c.name then c
  else
    { c with
      aliases := sortStrings (c.name :: c.aliases.filter (· ≠ name))
      name := name }

/-- The name a request gives. -/
def amendName (name : Option String) (c : Cell) : Except Err Cell :=
  match name with
  | none => .ok c
  | some name => do
    validateCellName name
    .ok (rename c name)

/-- The repository a request gives. -/
def amendRepo (repo : Option String) (c : Cell) : Except Err Cell :=
  match repo with
  | none => .ok c
  | some repo => do
    let repo ← L.normalizeCellRepo repo
    .ok { c with repo := repo }

/-- The metadata a request gives. -/
def amendMetadata (metadata : Option (Option Fields)) (c : Cell) : Except Err Cell :=
  match metadata with
  | none => .ok c
  | some none => .error errInvalidCell
  | some (some metadata) => do
    L.validateCellProperties c.description metadata
    .ok { c with metadata := L.canonicalMetadata metadata }

/-- The cell with the request's fields put in. -/
def amend (r : UpdateCellRequest) (c : Cell) : Except Err Cell := do
  let c ← amendName r.name c
  let c ← amendRepo L r.repo c
  let c ← amendMetadata L r.metadata { c with description := r.description.getD c.description }
  L.validateCellProperties c.description c.metadata
  .ok c

/-- `Update`. -/
def update (ctx : Ctx) (now : Time) (revision : String) (r : UpdateCellRequest) (s : Registry) :
    Except Err (Cell × Registry) := do
  let old ← getForChange L ctx r.key r.ifMatch "cells.update" s
  if old.state ≠ .active then .error errCellRetired
  else if r.name = none ∧ r.repo = none ∧ r.description = none ∧ r.metadata = none then
    .error errInvalidCell
  else do
    let c ← amend L r old
    s.unique c
    if old = c then .ok (c, s)
    else
      .ok ({ c with revision := revision, updatedAt := now },
        s.put { c with revision := revision, updatedAt := now })

/-- `Retire`; `busy` is what the runtime says about the cell. -/
def retire (ctx : Ctx) (now : Time) (revision : String) (busy : String → Except Err Bool)
    (r : RetireCellRequest) (s : Registry) : Except Err (Cell × Registry) := do
  let c ← getForChange L ctx r.key r.ifMatch "cells.retire" s
  if c.state = .retired then .ok (c, s)
  else do
    let b ← busy c.id
    if b then .error errCellBusy
    else
      .ok ({ c with state := .retired, retiredAt := some now, updatedAt := now,
                    revision := revision },
        s.put { c with state := .retired, retiredAt := some now, updatedAt := now,
                       revision := revision })

/-! ## Resolving a submission's cell -/

/-- May the caller submit? A validated lease permits it throughout its tenant unless
the caller is restricted. -/
def authorizeSubmit (ctx : Ctx) (tenant id : String) (parent : Option Cell) : Except Err Unit :=
  if parent.isNone ∨ ctx.authority.isSome then authorizeCell ctx tenant id "jobs.submit" else .ok ()

/-- The repository a submission names, if it names one. -/
def submittedRepo (repo : String) : Except Err String :=
  if repo = "" then .ok "" else L.normalizeCellRepo repo

/-- The cell found against the job that exists, or against the request. -/
def accept (repo : String) (existing : Option ResolvedCell) (confirmation : Bool) (c : Cell) :
    Except Err ResolvedCell :=
  match existing with
  | some e =>
    if c.id ≠ e.cellID ∨ (repo ≠ "" ∧ repo ≠ e.cellRepo) then
      .error (.existingJobMismatch "cell identity or repo differs")
    else if confirmation = false ∧ c.state = .retired then .error errCellRetired
    else .ok { e with cell := c.name }
  | none =>
    if c.state = .retired then .error errCellRetired
    else if repo ≠ "" ∧ repo ≠ c.repo then .error errCellRepoMismatch
    else .ok c.resolved

/-- `Resolve`. -/
def resolve (ctx : Ctx) (tenant name repo : String) (parent : Option Cell)
    (existing : Option ResolvedCell) (confirmation : Bool) (s : Registry) :
    Except Err ResolvedCell := do
  validateCellName name
  authorizeSubmit ctx tenant "" parent
  let repo ← submittedRepo L repo
  match s.byName name with
  | none =>
    .error (if existing.isSome then .existingJobMismatch "cell identity or repo differs"
      else errCellNotFound)
  | some c => do
    authorizeSubmit ctx tenant c.id parent
    accept repo existing confirmation c

/-- The cell that a name selects. -/
def selectName (ctx : Ctx) (tenant permission : String) (s : Registry) (name : String) :
    Except Err String := do
  validateCellName name
  match s.byName name with
  | none => .error errCellNotFound
  | some c => do
    authorizeCell ctx tenant c.id permission
    .ok c.id

/-- `Select`: the IDs of the named cells, or of all cells that the caller may use. -/
def select (ctx : Ctx) (tenant : String) (names : Option (List String)) (permission : String)
    (s : Registry) : Except Err (List String) := do
  authorizeCell ctx tenant "" permission
  match names with
  | some [] => .error errInvalidCell
  | some names => do
    let ids ← names.mapM (s.selectName ctx tenant permission)
    .ok ids.dedup
  | none =>
    .ok ((s.cells.rows.filter fun r => (authorizeCell ctx tenant r.1 permission).toBool).map (·.1))

end Registry

end JobDB
