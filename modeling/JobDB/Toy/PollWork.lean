import JobDB.Runtime.PollWork
import JobDB.Toy.ListJobs

/-!
# Polling in memory

`PollWork` of the in-process runtime (`toyimpl/runtime.go`), and that it leases the jobs that a
listing shows as available.

A poll walks over the records once, in the order of a Go map (`scan`), and brings each one that
it meets up to date (`advanceRecordState`) before it looks at it. What it writes on the way
makes no difference to the records it has yet to meet: they look at whether other jobs have
ended, and that neither advancing nor leasing a record changes (`isEnd_availableStatus`,
`Untouched`).

A record that waited for its own job would lock its mutex twice, and neither call would return;
`Stored` leaves such records out.
-/

namespace JobDB.Toy

open scoped List

/-- `toyLeaseDurationOrDefault`, with `defaultToyRemoteLeaseDuration`. -/
def leaseDurationOrDefault (d : Int) : Int := if d ≤ 0 then 30 * 1000000000 else d

/-- `runtimeLease`. -/
structure RuntimeLease where
  jobKey : JobKey
  leaseID : String
  workerID : String
  route : Route
  payload : JobPayload
  clientPayload : Option String
  clientPayloadRevision : Int
  expiresAt : Time
  duration : Int
  schemaHash : String
deriving DecidableEq, Repr

/-- `advanceRecordStateLocked`, for the status that `availableStatusLocked` gives. -/
def JobRecord.advanced (r : JobRecord) (now : Time) (status : JobStatus) : JobRecord :=
  { r with
    leased := r.leased && !(decide (r.leaseExpiresAt ≤ now) && r.archived.isNone && !r.cancelled)
    waitDeadline := if r.status = .pendingJobs ∧ status ≠ .pendingJobs then Time.zero
      else r.waitDeadline
    waitFor := if r.status = .pendingJobs ∧ status ≠ .pendingJobs then [] else r.waitFor
    status := status }

/-- The record with a lease on it. -/
def JobRecord.granted (r : JobRecord) (now : Time) (leaseID workerID : String) (duration : Int) :
    JobRecord :=
  { r with
    route := r.effectiveRoute now
    alternateRoute := if r.alternateRoute.isSome ∧ r.alternateAt ≤ now then none
      else r.alternateRoute
    leased := true
    status := .active
    consecutiveExpirations := if r.leaseID ≠ "" then r.consecutiveExpirations + 1 else 0
    leaseID := leaseID
    leaseWorkerID := workerID
    leaseExpiresAt := now + leaseDurationOrDefault duration }

/-- The lease on a record that was granted. -/
def JobRecord.lease (r : JobRecord) (k : JobKey) (now : Time) (duration : Int) : RuntimeLease where
  jobKey := k
  leaseID := r.leaseID
  workerID := r.leaseWorkerID
  route := r.route
  payload := r.payload
  clientPayload := r.clientPayload
  clientPayloadRevision := r.clientPayloadRevision
  expiresAt := now + leaseDurationOrDefault duration
  duration := leaseDurationOrDefault duration
  schemaHash := schemaHashFromStoredMetadata r.metadata

namespace Jobs

/-- `record.… = …`. -/
def put (e : Jobs) (k : JobKey) (r : JobRecord) : Jobs :=
  { e with jobRecords := e.jobRecords.insert k r }

/-- `advanceRecordStateLocked`. -/
def advanceRecordState (e : Jobs) (k : JobKey) (now : Time) (r : JobRecord) : JobRecord :=
  r.advanced now (e.availableStatus k now r)

end Jobs

/-! ## The walk of a poll -/

/-- What a poll looks for, once the request is resolved. -/
structure Poll where
  tenantId : String
  capSet : List Route
  workerID : String
  limit : Nat
  leaseDuration : Int
  allowed : List String
  predicates : List NormalizedMetadataPredicate

section Walk

variable (L : ListLib) (ids : Nat → String) (now : Time) (p : Poll)

/-- The tests on a record that was brought up to date. -/
def Poll.wants (r : JobRecord) : Except Err Bool :=
  allHold
    [ .ok (!r.leased && decide (r.status = .ready)),
      .ok (decide (r.effectiveRoute now ∈ p.capSet)),
      metadataMatches L r.metadata p.predicates ]

/-- The record is of the tenant and in a cell that the caller may take work from. -/
def Poll.meets (k : JobKey) (r : JobRecord) : Bool :=
  decide (k.tenantId = p.tenantId) && decide (r.cell.cellID ∈ p.allowed)

/-- The loop of `PollWork` over the records that are left, with the leases taken so far; `ids` are
the IDs that `ksuid.New` draws. -/
def pollLoop : List JobKey → List RuntimeLease → Jobs → Except Err (List RuntimeLease) × Jobs
  | [], out, e => (.ok out, e)
  | k :: rest, out, e =>
    match e.jobRecords.lookup k with
    | none => pollLoop rest out e
    | some r =>
      if p.meets k r then
        let r := e.advanceRecordState k now r
        match p.wants L now r with
        | .error err => (.error err, e.put k r)
        | .ok false => pollLoop rest out (e.put k r)
        | .ok true =>
          let r := r.granted now (ids out.length) p.workerID p.leaseDuration
          let out := out ++ [r.lease k now p.leaseDuration]
          if p.limit ≤ out.length then (.ok out, e.put k r) else pollLoop rest out (e.put k r)
      else pollLoop rest out e

end Walk

/-! ## The call -/

section Call

variable (L : ListLib) (ids : Nat → String) (ctx : Ctx) (e : Jobs) (now : Time)

/-- What `PollWork` does before it walks over the records. -/
def pollRequest (req : WorkRequest) : Except Err Poll := do
  req.validate
  let predicates ← normalizeMetadataPredicates req.metadataEquals
  let allowed ← (e.cells req.tenantId).select ctx req.tenantId req.cellNames "jobs.acquire"
  .ok
    { tenantId := req.tenantId
      capSet := req.capSet
      workerID := req.workerID
      limit := req.limitInUse
      leaseDuration := req.leaseDuration
      allowed := allowed
      predicates := predicates }

/-- `PollWork` at one instant, up to the schedule preflight. -/
def pollWorkNow (scan : List JobKey) (req : WorkRequest) : Except Err (List RuntimeLease) := do
  let p ← pollRequest ctx e req
  (pollLoop L ids now p scan [] e).1

end Call

/-! ## Jobs that have ended -/

/-- The status is one of a job that has ended. -/
def isEnd (status : JobStatus) : Bool := status = .completed ∨ status = .cancelled

/-- What holds of a stored record. -/
structure JobRecord.Sound (r : JobRecord) : Prop where
  ended_archived : isEnd r.status = true → r.archived.isSome ∨ r.cancelled = true
  leased_active : r.leased = true → r.status = .active
  hidden_ended : r.hidden = true → isEnd r.status = true

section Ended

variable {e e' : Jobs} {k : JobKey} {now : Time} {r : JobRecord}

theorem JobRecord.Sound.live (h : r.Sound) (harchived : r.archived = none)
    (hcancelled : r.cancelled = false) : isEnd r.status = false := by
  by_contra hend
  obtain hsome | htrue := h.ended_archived (by simpa using hend)
  · rw [harchived] at hsome
    cases hsome
  · rw [hcancelled] at htrue
    cases htrue

theorem isEnd_settleStatus (tenant : String) (r : JobRecord) (status : JobStatus) :
    isEnd (e.settleStatus tenant r now status) = isEnd status := by
  have hfirst : isEnd (if status = .awaitingFuture ∧ r.availableAt ≠ Time.zero ∧ r.availableAt ≤ now
      then .ready else status) = isEnd status := by
    split
    · next hawaiting =>
      rw [hawaiting.1]
      rfl
    · rfl
  unfold Jobs.settleStatus
  dsimp only
  generalize (if status = .awaitingFuture ∧ r.availableAt ≠ Time.zero ∧ r.availableAt ≤ now
    then JobStatus.ready else status) = first at hfirst ⊢
  rw [← hfirst]
  split
  · next hpending =>
    rw [hpending.1]
    split <;> rfl
  · rfl

theorem isEnd_currentStatus (h : r.Sound) : isEnd (r.currentStatus now) = isEnd r.status := by
  unfold JobRecord.currentStatus
  split
  · next hexpired =>
    rw [h.live hexpired.2.2.1 hexpired.2.2.2]
    split <;> rfl
  · rfl

/-- Bringing a record up to date neither ends a job nor revives one. -/
theorem isEnd_availableStatus (h : r.Sound) :
    isEnd (e.availableStatus k now r) = isEnd r.status := by
  unfold Jobs.availableStatus
  dsimp only
  split
  · next hlive =>
    have hend := h.live hlive.1 hlive.2.1
    split
    · rw [isEnd_settleStatus]
      split
      · exact hend.symm
      · exact isEnd_currentStatus h
    · exact hend.symm
  · rw [isEnd_settleStatus, isEnd_currentStatus h]

/-- A record's status is read off the waits and off which jobs have ended. -/
theorem availableStatus_congr (hgoals : e'.goals = e.goals)
    (hends : ∀ k, (e'.jobRecords.lookup k).map (isEnd ·.status) =
      (e.jobRecords.lookup k).map (isEnd ·.status)) :
    e'.availableStatus k now r = e.availableStatus k now r := by
  have hwait : e'.waitForEnded k.tenantId r = e.waitForEnded k.tenantId r := by
    unfold Jobs.waitForEnded
    congr 1
    funext id
    have hid := hends ⟨k.tenantId, id⟩
    cases h : e.jobRecords.lookup ⟨k.tenantId, id⟩ with
    | none =>
      rw [h, Option.map_none, Option.map_eq_none_iff] at hid
      rw [hid]
    | some dep =>
      rw [h, Option.map_some] at hid
      obtain ⟨dep', hdep', heq⟩ := Option.map_eq_some_iff.1 hid
      rw [hdep']
      exact heq
  unfold Jobs.availableStatus Jobs.dependencyReady Jobs.settleStatus
  rw [hgoals, hwait]

/-- An available record that is leased would have to be ready and active at once. -/
theorem not_leased_of_ready (h : r.Sound) (hready : e.availableStatus k now r = .ready) :
    (e.advanceRecordState k now r).leased = false := by
  unfold Jobs.advanceRecordState JobRecord.advanced
  dsimp only
  by_contra hleased
  rw [Bool.not_eq_false, Bool.and_eq_true] at hleased
  obtain ⟨hleased, hrunning⟩ := hleased
  have hactive := h.leased_active hleased
  have hcurrent : r.currentStatus now = .active := by
    unfold JobRecord.currentStatus
    rw [if_neg, hactive]
    rintro ⟨-, hexpired, harchived, hcancelled⟩
    simp [hexpired, harchived, hcancelled] at hrunning
  have hstatus : e.availableStatus k now r = e.settleStatus k.tenantId r now .active := by
    unfold Jobs.availableStatus
    dsimp only
    rw [hcurrent, if_neg]
    rintro ⟨harchived, hcancelled, hexpired⟩
    refine hexpired ⟨hleased, ?_⟩
    by_contra hnow
    simp [not_lt.1 hnow, harchived, hcancelled] at hrunning
  have hsettled : e.settleStatus k.tenantId r now .active = .active := by
    unfold Jobs.settleStatus
    simp
  rw [hstatus, hsettled] at hready
  cases hready

end Ended

/-! ## What a poll can lease -/

section Open

variable {L : ListLib} {ids : Nat → String} {now : Time} {p : Poll}

/-- The record of the key can be leased. -/
def Open (L : ListLib) (now : Time) (p : Poll) (e : Jobs) (k : JobKey) : Prop :=
  ∃ r, e.jobRecords.lookup k = some r ∧ p.meets k r = true ∧
    p.wants L now (e.advanceRecordState k now r) = .ok true

/-- All records are sound. -/
def AllSound (e : Jobs) : Prop := ∀ k r, e.jobRecords.lookup k = some r → r.Sound

/-- What the walk has written so far does not show in the records it has yet to meet. -/
structure Untouched (e e' : Jobs) (rest : List JobKey) : Prop where
  goals : e'.goals = e.goals
  ends : ∀ k, (e'.jobRecords.lookup k).map (isEnd ·.status) =
    (e.jobRecords.lookup k).map (isEnd ·.status)
  same : ∀ k ∈ rest, e'.jobRecords.lookup k = e.jobRecords.lookup k

namespace Untouched

variable {e e' : Jobs} {k : JobKey} {rest : List JobKey} {r r' : JobRecord}

theorem tail (h : Untouched e e' (k :: rest)) : Untouched e e' rest :=
  ⟨h.goals, h.ends, fun k' hk' => h.same k' (List.mem_cons_of_mem k hk')⟩

theorem lookup (h : Untouched e e' (k :: rest)) :
    e'.jobRecords.lookup k = e.jobRecords.lookup k := h.same k List.mem_cons_self

/-- A record that is met is written to. -/
theorem put (h : Untouched e e' (k :: rest)) (hk : k ∉ rest) (hr : e.jobRecords.lookup k = some r)
    (hend : isEnd r'.status = isEnd r.status) : Untouched e (e'.put k r') rest where
  goals := h.goals
  ends := by
    intro k'
    show ((e'.jobRecords.insert k r').lookup k').map _ = _
    rw [Table.lookup_insert_eq]
    split
    · next heq => rw [heq, hr, Option.map_some, Option.map_some, hend]
    · exact h.ends k'
  same := by
    intro k' hk'
    show (e'.jobRecords.insert k r').lookup k' = _
    have hne : k' ≠ k := by
      rintro rfl
      exact hk hk'
    rw [Table.lookup_insert_eq, if_neg hne]
    exact h.same k' (List.mem_cons_of_mem k hk')

theorem advance_eq (h : Untouched e e' rest) :
    e'.advanceRecordState k now r = e.advanceRecordState k now r := by
  unfold Jobs.advanceRecordState
  rw [availableStatus_congr h.goals h.ends]

end Untouched

theorem status_of_wants {r : JobRecord} (h : p.wants L now r = .ok true) :
    r.leased = false ∧ r.status = .ready ∧ r.effectiveRoute now ∈ p.capSet ∧
      metadataMatches L r.metadata p.predicates = .ok true := by
  unfold Poll.wants at h
  rw [allHold_eq_true] at h
  simpa [and_assoc] using h

theorem wants_ok (h : p.predicates = []) (r : JobRecord) :
    ∃ wanted, p.wants L now r = .ok wanted := by
  unfold Poll.wants
  rw [h]
  exact allHold_cons_ok _ (allHold_cons_ok _ ⟨true, rfl⟩)

/-- What a walk does at the key `k`, by what it finds there in `e`: it passes the record over, fails
at it or leases it. -/
inductive Turn (L : ListLib) (ids : Nat → String) (now : Time) (p : Poll) (e : Jobs) (k : JobKey)
    (rest : List JobKey) (out : List RuntimeLease) : Except Err (List RuntimeLease) × Jobs →
      Prop where
  | passed {e' : Jobs} (closed : ¬ Open L now p e k) (same : Untouched e e' rest) :
      Turn L ids now p e k rest out (pollLoop L ids now p rest out e')
  | failed {e' : Jobs} {err : Err} {r : JobRecord} (wants : p.wants L now r = .error err) :
      Turn L ids now p e k rest out (.error err, e')
  | leased {e' : Jobs} {l : RuntimeLease} (here : Open L now p e k) (key : l.jobKey = k)
      (same : Untouched e e' rest) :
      Turn L ids now p e k rest out (if p.limit ≤ (out ++ [l]).length then (.ok (out ++ [l]), e')
        else pollLoop L ids now p rest (out ++ [l]) e')

theorem pollLoop_turn {e e₁ : Jobs} {k : JobKey} {rest : List JobKey} (out : List RuntimeLease)
    (hsound : AllSound e) (hk : k ∉ rest) (hsame : Untouched e e₁ (k :: rest)) :
    Turn L ids now p e k rest out (pollLoop L ids now p (k :: rest) out e₁) := by
  unfold pollLoop
  cases hr : e.jobRecords.lookup k with
  | none =>
    rw [hsame.lookup, hr]
    refine .passed ?_ hsame.tail
    rintro ⟨r, hr', -⟩
    rw [hr] at hr'
    cases hr'
  | some r =>
    rw [hsame.lookup, hr]
    dsimp only
    have hclosed : ¬ (p.meets k r = true ∧
        p.wants L now (e.advanceRecordState k now r) = .ok true) → ¬ Open L now p e k := by
      rintro hnot ⟨r', hr', hboth⟩
      rw [hr] at hr'
      obtain rfl := Option.some.inj hr'
      exact hnot hboth
    have hend : isEnd (e.advanceRecordState k now r).status = isEnd r.status :=
      isEnd_availableStatus (hsound k r hr)
    by_cases hmeets : p.meets k r = true
    · rw [if_pos hmeets, hsame.advance_eq]
      cases hwants : p.wants L now (e.advanceRecordState k now r) with
      | error err => exact .failed hwants
      | ok wanted =>
        cases wanted with
        | false =>
          refine .passed (hclosed fun hboth => ?_) (hsame.put hk hr hend)
          rw [hwants] at hboth
          cases hboth.2
        | true =>
          have hnotEnded : isEnd r.status = false := by
            rw [← hend, (status_of_wants hwants).2.1]
            rfl
          exact .leased ⟨r, hr, hmeets, hwants⟩ rfl (hsame.put hk hr (by rw [hnotEnded]; rfl))
    · rw [if_neg hmeets]
      exact .passed (hclosed fun hboth => hmeets hboth.1) hsame.tail

/-- A poll leases only jobs that could be leased when it began. -/
theorem pollLoop_leases_open {e : Jobs} (hsound : AllSound e) {rest : List JobKey}
    (hnodup : rest.Nodup)
    {out leases : List RuntimeLease} {e₁ e₂ : Jobs} (hsame : Untouched e e₁ rest)
    (h : pollLoop L ids now p rest out e₁ = (.ok leases, e₂)) :
    ∀ l ∈ leases, l ∈ out ∨ Open L now p e l.jobKey := by
  induction rest generalizing out e₁ with
  | nil =>
    cases h
    exact fun l hl => .inl hl
  | cons k rest ih =>
    obtain ⟨hk, hnodup⟩ := List.nodup_cons.1 hnodup
    have hturn := @pollLoop_turn L ids now p e e₁ k rest out hsound hk hsame
    generalize pollLoop L ids now p (k :: rest) out e₁ = result at h hturn
    cases hturn with
    | passed closed same => exact ih hnodup same h
    | failed => cases h
    | @leased _ lease here key same =>
      have hlast : ∀ l ∈ out ++ [lease], l ∈ out ∨ Open L now p e l.jobKey := by
        intro l hl
        obtain hl | hl := List.mem_append.1 hl
        · exact .inl hl
        · rw [List.mem_singleton.1 hl, key]
          exact .inr here
      split at h
      · cases h
        exact hlast
      · intro l hl
        obtain hout | hlater := ih hnodup same h l hl
        · exact hlast l hout
        · exact .inr hlater

/-- A poll with room for all records leases every job that can be leased. -/
theorem pollLoop_leases_all {e : Jobs} (hsound : AllSound e) (hpredicates : p.predicates = [])
    {rest : List JobKey} (hnodup : rest.Nodup) {out : List RuntimeLease} {e₁ : Jobs}
    (hsame : Untouched e e₁ rest) (hlimit : out.length + rest.length < p.limit) :
    ∃ leases e₂, pollLoop L ids now p rest out e₁ = (.ok (out ++ leases), e₂) ∧
      ∀ k ∈ rest, Open L now p e k → k ∈ leases.map (·.jobKey) := by
  induction rest generalizing out e₁ with
  | nil => exact ⟨[], e₁, by rw [List.append_nil]; rfl, fun k hk => nomatch hk⟩
  | cons k rest ih =>
    obtain ⟨hk, hnodup⟩ := List.nodup_cons.1 hnodup
    rw [List.length_cons] at hlimit
    have hturn := @pollLoop_turn L ids now p e e₁ k rest out hsound hk hsame
    generalize pollLoop L ids now p (k :: rest) out e₁ = result at hturn
    cases hturn with
    | passed closed same =>
      obtain ⟨leases, e₂, hrun, hall⟩ := @ih hnodup out _ same (by omega)
      refine ⟨leases, e₂, hrun, fun k' hk' hopen => ?_⟩
      obtain rfl | hk' := List.mem_cons.1 hk'
      · exact absurd hopen closed
      · exact hall k' hk' hopen
    | @failed _ _ r wants =>
      obtain ⟨wanted, hwanted⟩ := @wants_ok L now p hpredicates r
      cases wants.symm.trans hwanted
    | @leased _ lease here key same =>
      rw [if_neg (by rw [List.length_append, List.length_singleton]; omega)]
      obtain ⟨leases, e₂, hrun, hall⟩ := @ih hnodup (out ++ [lease]) _ same
        (by rw [List.length_append, List.length_singleton]; omega)
      refine ⟨lease :: leases, e₂, ?_, fun k' hk' hopen => ?_⟩
      · rw [← List.append_cons] at hrun
        exact hrun
      · rw [List.map_cons, key]
        obtain rfl | hk' := List.mem_cons.1 hk'
        · exact List.mem_cons_self
        · exact List.mem_cons_of_mem _ (hall k' hk' hopen)

end Open

/-! ## The listing -/

/-- What holds of the stored jobs: the records are sound, the times of creation
can be written into a token, and cells are registered under their IDs. -/
structure Stored (e : Jobs) : Prop where
  sound : AllSound e
  created : ∀ k r, e.jobRecords.lookup k = some r → (timeJSON r.createdAt).isSome
  cells_keyed : ∀ tenant id c, (e.cells tenant).cells.lookup id = some c → c.id = id

/-- The record is listed. -/
structure Shown (ctx : Ctx) (e : Jobs) (tenant : String) (routes : List Route) (now : Time)
    (k : JobKey) (r : JobRecord) : Prop where
  ofTenant : k.tenantId = tenant
  cell : ∃ c, (e.cells tenant).cells.lookup r.cell.cellID = some c
  authorized : authorizeCell ctx tenant r.cell.cellID "jobs.list" = .ok ()
  visible : r.hidden = false
  ready : e.availableStatus k now r = .ready
  route : r.effectiveRoute now ∈ routes

section Agree

variable {L : ListLib} {ids : Nat → String} {ctx : Ctx} {e : Jobs} {now : Time} {tenant : String}
  {routes : List Route} {pageSize : Int}

theorem allowedCells_available {cells : List String}
    (h : allowedCells ctx e (availableJobs tenant routes pageSize) = .ok cells) :
    (e.cells tenant).select ctx tenant none "jobs.list" = .ok cells := by
  unfold allowedCells availableJobs at h
  dsimp only at h
  rw [List.mapM_cons] at h
  cases hselect : (e.cells tenant).select ctx tenant none "jobs.list" with
  | error err => rw [hselect] at h; cases h
  | ok ids =>
    rw [hselect] at h
    have hflat : ids ++ [] = cells := Except.ok.inj h
    rw [List.append_nil] at hflat
    rw [hflat]

theorem resolved_available {sel : Option Selection}
    (h : resolved L ctx e (availableJobs tenant routes pageSize) = .ok sel) :
    ∃ cells, (e.cells tenant).select ctx tenant none "jobs.list" = .ok cells ∧
      sel = some { predicates := [], active := true, archived := true, cells := cells,
                   bound := [] } := by
  obtain ⟨stores, hstores, h⟩ := bind_eq_ok.1 h
  obtain rfl := Except.ok.inj hstores
  rw [if_neg (by decide)] at h
  cases hselection : selection L ctx e (availableJobs tenant routes pageSize) (true, true) with
  | error err => rw [hselection] at h; cases h
  | ok found =>
    rw [hselection] at h
    obtain rfl := Except.ok.inj h
    obtain ⟨raw, hraw, hselection⟩ := bind_eq_ok.1 hselection
    obtain rfl := Except.ok.inj hraw
    obtain ⟨predicates, hpredicates, hselection⟩ := bind_eq_ok.1 hselection
    obtain rfl := Except.ok.inj hpredicates
    obtain ⟨cells, hcells, rfl⟩ := map_eq_ok.1 hselection
    exact ⟨cells, allowedCells_available hcells, rfl⟩

/-- The records of the listing, if it is answered. -/
theorem mem_matching_available (hroutes : routes ≠ []) {stores : Bool × Bool}
    {sel : Option Selection}
    (h : Answered L ctx e now (availableJobs tenant routes pageSize) stores sel) {k : JobKey}
    {r : JobRecord} :
    (k, r) ∈ matching L ctx e now (availableJobs tenant routes pageSize) e.jobRecords.rows ↔
      e.jobRecords.lookup k = some r ∧ Shown ctx e tenant routes now k r := by
  obtain ⟨cells, hcells, rfl⟩ := resolved_available (resolved_eq h)
  obtain ⟨-, hevaluates⟩ := h.selected _ rfl
  unfold matching
  rw [resolved_eq h]
  dsimp only
  rw [List.mem_filter, Table.mem_rows]
  refine and_congr_right fun hlookup => ?_
  obtain ⟨v, hv⟩ := hevaluates (k, r) (Table.mem_rows.2 hlookup)
  rw [hv]
  constructor
  · intro hholds
    obtain rfl : v = true := hholds
    rw [allHold_eq_true] at hv
    unfold tests availableJobs at hv
    simp only [List.forall_mem_cons] at hv
    obtain ⟨hvisible, hplace, -, -, -, -, -, -, havailable, -⟩ := hv
    have hplace' : k.tenantId = tenant ∧ r.cell.cellID ∈ cells := by simpa using hplace
    have havailable' : e.availableStatus k now r = .ready ∧ r.effectiveRoute now ∈ routes := by
      simpa [hroutes] using havailable
    obtain ⟨hcell, hauthorized⟩ := (Registry.mem_select_all hcells _).1 hplace'.2
    exact ⟨hplace'.1, hcell, hauthorized, by simpa using hvisible, havailable'.1, havailable'.2⟩
  · intro hshown
    have htrue : v = true := by
      have hcell : r.cell.cellID ∈ cells :=
        (Registry.mem_select_all hcells _).2 ⟨hshown.cell, hshown.authorized⟩
      refine allHold_of_ok hv ?_
      unfold tests availableJobs
      simp only [List.forall_mem_cons]
      refine ⟨by simp [hshown.visible], by simp [hshown.ofTenant, hcell], by simp, by simp [isIn],
        by simp [isIn], by simp [isIn], by simp [isIn], by simp [jobTaskAllowed],
        by simp [hshown.ready, hshown.route],
          ?_, by simp, by simp, by simp [metadataMatches], by simp, ?_, fun c hc => nomatch hc⟩
      · cases extractParentJobID L.scheduleDecodes r.metadata <;> simp [Except.map, isIn]
      · cases e.blockingWaitSummary k r now <;> simp [Except.map]
    rw [htrue]
    rfl

/-- What a poll for the routes can lease is listed. -/
theorem shown_of_open (hstored : Stored e) {req : WorkRequest} {p : Poll}
    (hlist : authorizeCell ctx req.tenantId "" "jobs.list" = .ok ())
    (hpoll : pollRequest ctx e req = .ok p) {k : JobKey} (h : Open L now p e k) :
    ∃ r, e.jobRecords.lookup k = some r ∧ Shown ctx e req.tenantId req.routes now k r := by
  obtain ⟨r, hlookup, hmeets, hwants⟩ := h
  obtain ⟨_, -, hpoll⟩ := bind_eq_ok.1 hpoll
  obtain ⟨predicates, -, hpoll⟩ := bind_eq_ok.1 hpoll
  obtain ⟨allowed, hallowed, rfl⟩ := map_eq_ok.1 hpoll
  obtain ⟨-, hready, hroute, -⟩ := status_of_wants hwants
  have hplace : k.tenantId = req.tenantId ∧ r.cell.cellID ∈ allowed := by
    simpa [Poll.meets] using hmeets
  obtain ⟨_, hacquire, -⟩ := bind_eq_ok.1 hallowed
  refine ⟨r, hlookup, hplace.1, ?_, ?_, ?_, hready, (List.mem_filter.1 hroute).1⟩
  · obtain ⟨-, id, c, hcell, heq | heq⟩ := Registry.of_mem_select hallowed hplace.2
    · exact ⟨c, heq ▸ hcell⟩
    · exact ⟨c, by rw [heq, hstored.cells_keyed _ _ _ hcell]; exact hcell⟩
  · exact (authorizeCell_congr hacquire hlist _).1
      (Registry.authorized_of_mem_select hallowed hplace.2)
  · by_contra hhidden
    have hended := (hstored.sound k r hlookup).hidden_ended (by simpa using hhidden)
    have hsame : isEnd (e.availableStatus k now r) = isEnd r.status :=
      isEnd_availableStatus (hstored.sound k r hlookup)
    have hready' : e.availableStatus k now r = .ready := hready
    rw [← hsame, hready'] at hended
    cases hended

/-- What is listed can be leased. -/
theorem open_of_shown (hstored : Stored e)
    (hlist : authorizeCell ctx tenant "" "jobs.list" = .ok ())
    (hacquire : authorizeCell ctx tenant "" "jobs.acquire" = .ok ())
    (hvalid : ∀ route ∈ routes, route.validate = .ok ()) {limit : Int} {p : Poll}
    (hpoll : pollRequest ctx e (WorkRequest.plain tenant routes limit) = .ok p) {k : JobKey}
    {r : JobRecord} (hlookup : e.jobRecords.lookup k = some r)
    (h : Shown ctx e tenant routes now k r) : Open L now p e k := by
  obtain ⟨_, -, hpoll⟩ := bind_eq_ok.1 hpoll
  obtain ⟨predicates, hpredicates, hpoll⟩ := bind_eq_ok.1 hpoll
  obtain rfl := Except.ok.inj hpredicates
  obtain ⟨allowed, hallowed, rfl⟩ := map_eq_ok.1 hpoll
  have hcell : r.cell.cellID ∈ allowed :=
    (Registry.mem_select_all hallowed _).2 ⟨h.cell,
      (authorizeCell_congr hlist hacquire _).1 h.authorized⟩
  have hroute : r.effectiveRoute now ∈ routes.filter (·.jobType ≠ "") :=
    List.mem_filter.2 ⟨h.route, by simpa using Route.jobType_ne_empty (hvalid _ h.route)⟩
  refine ⟨r, hlookup, ?_, ?_⟩
  · show (decide (k.tenantId = tenant) && decide (r.cell.cellID ∈ allowed)) = true
    simp [h.ofTenant, hcell]
  · unfold Poll.wants
    rw [not_leased_of_ready (hstored.sound k r hlookup) h.ready]
    have hstatus : (e.advanceRecordState k now r).status = .ready := h.ready
    have heffective : (e.advanceRecordState k now r).effectiveRoute now ∈
        (WorkRequest.plain tenant routes limit).capSet := hroute
    rw [hstatus, decide_eq_true heffective]
    rfl

theorem pollRequest_plain (hacquire : authorizeCell ctx tenant "" "jobs.acquire" = .ok ())
    (hvalid : ∀ route ∈ routes, route.validate = .ok ()) (n : Nat) :
    ∃ p, pollRequest ctx e (WorkRequest.plain tenant routes (n + 1)) = .ok p ∧
      p.predicates = [] ∧ p.limit = n + 1 := by
  refine ⟨_, bind_eq_ok.2 ⟨(), WorkRequest.validate_plain hacquire hvalid _,
    bind_eq_ok.2 ⟨[], rfl, bind_eq_ok.2 ⟨_, Registry.select_all hacquire, rfl⟩⟩⟩, rfl, ?_⟩
  show (if (n : Int) + 1 ≤ 0 then 1 else ((n : Int) + 1).toNat) = n + 1
  split <;> omega

theorem keys_eq (e : Jobs) : e.jobRecords.rows.map (·.1) = e.jobRecords.keys := by
  unfold Table.rows
  rw [List.map_map]
  rfl

/-- The jobs of the listing, which are all of one tenant, have different places in it. -/
theorem parted_available (hstored : Stored e) {rows : List (JobKey × JobRecord)}
    (hsub : rows <+ e.jobRecords.rows) (htenant : ∀ x ∈ rows, x.1.tenantId = tenant) {n : Nat}
    (hn : 0 < n) :
    Paging.Parted resumed n ((Paging.listed position (rows.map (summary L e now))).map
      position) := by
  have hkeys : (rows.map (·.1)).Nodup := (hsub.map _).nodup (Table.nodup_rows _)
  have hnodup : rows.Nodup := List.Nodup.of_map _ hkeys
  refine Paging.parted_listed_of_nodup ?_ ?_ hn
  · rw [List.map_map]
    refine hnodup.map_on fun x hx y hy heq => ?_
    have hplace := Prod.ext_iff.1 (toLex.injective heq)
    have hkey : x.1 = y.1 :=
      JobKey.eq_of_text ((htenant x hx).trans (htenant y hy).symm) hplace.2
    exact List.inj_on_of_nodup_map hkeys hx hy hkey
  · intro s hs
    obtain ⟨x, hx, rfl⟩ := List.mem_map.1 hs
    have hjson : (timeJSON x.2.createdAt).isSome :=
      hstored.created x.1 x.2 (Table.mem_rows.1 (hsub.subset hx))
    exact if_pos hjson

/-- Following the pages of the listing gives each job once that can be leased, and no other. -/
theorem listed_iff_leased (hstored : Stored e) (hroutes : routes ≠ []) {resp : ListJobsResponse}
    (hfirst : listJobs L ctx e now e.jobRecords.rows (availableJobs tenant routes pageSize) =
      .ok resp)
    (hacquire : authorizeCell ctx tenant "" "jobs.acquire" = .ok ())
    {scan : Nat → List (JobKey × JobRecord)} (hscan : ∀ i, scan i ~ e.jobRecords.rows) :
    ∃ pages, followPages (fun i token => listJobs L ctx e now (scan i)
        { availableJobs tenant routes pageSize with pageToken := token })
          (e.jobRecords.rows.length + 1) 0 .empty = some pages ∧
      (pages.flatten.map (·.jobKey)).Nodup ∧
      ∀ k, k ∈ pages.flatten.map (·.jobKey) ↔
        ∃ req order leases, req.tenantId = tenant ∧ req.routes = routes ∧
          order ~ e.jobRecords.keys ∧ pollWorkNow L ids ctx e now order req = .ok leases ∧
          k ∈ leases.map (·.jobKey) := by
  have hempty : listJobs L ctx e now e.jobRecords.rows
      { availableJobs tenant routes pageSize with pageToken := .empty } = .ok resp := hfirst
  obtain ⟨stores, sel, hanswered⟩ := answered_of_ok hempty
  obtain ⟨pages, hpages, hiff⟩ := pages_iff hempty hscan
  obtain ⟨cells, hcells, -⟩ := resolved_available (resolved_eq hanswered)
  obtain ⟨_, hlist, -⟩ := bind_eq_ok.1 hcells
  have hmem := fun k r =>
    @mem_matching_available L ctx e now tenant routes pageSize hroutes stores sel
    hanswered k r
  have hsub : matching L ctx e now (availableJobs tenant routes pageSize) e.jobRecords.rows <+
      e.jobRecords.rows := by
    unfold matching
    split
    · exact List.filter_sublist
    · exact List.nil_sublist _
  have hlists := hiff.2 (parted_available hstored hsub
    (fun x hx => ((hmem x.1 x.2).1 hx).2.ofTenant)
    (availableJobs tenant routes pageSize).pageSizeInUse_pos)
  have hkeys : pages.flatten.map (·.jobKey) ~
      (matching L ctx e now (availableJobs tenant routes pageSize) e.jobRecords.rows).map
      (·.1) := by
    have honce := hlists.once.map (·.jobKey)
    rw [List.map_map] at honce
    exact honce
  refine ⟨pages, hpages, hkeys.nodup_iff.2 ((hsub.map _).nodup (Table.nodup_rows _)), fun k => ?_⟩
  rw [hkeys.mem_iff, List.mem_map]
  have hnodup : ∀ order, order ~ e.jobRecords.keys → order.Nodup := fun order hperm =>
    hperm.nodup_iff.2 e.jobRecords.nodupKeys
  have hstart : ∀ order, Untouched e e order := fun order => ⟨rfl, fun _ => rfl, fun _ _ => rfl⟩
  constructor
  · rintro ⟨⟨k, r⟩, hr, rfl⟩
    obtain ⟨hlookup, hshown⟩ := (hmem k r).1 hr
    have hvalid := validate_of_validateRoutes hanswered.routes
    obtain ⟨p, hpoll, hpredicates, hlimit⟩ :=
      @pollRequest_plain ctx e tenant routes hacquire hvalid e.jobRecords.keys.length
    have hopen : Open L now p e k :=
      open_of_shown hstored hlist hacquire hvalid hpoll hlookup hshown
    obtain ⟨leases, e₂, hrun, hall⟩ := @pollLoop_leases_all L ids now p e hstored.sound hpredicates
      e.jobRecords.keys (hnodup _ (List.Perm.refl _)) [] e (hstart _)
      (by rw [hlimit, List.length_nil]; omega)
    have hkey : k ∈ e.jobRecords.keys := by
      rw [← keys_eq]
      exact List.mem_map.2 ⟨(k, r), Table.mem_rows.2 hlookup, rfl⟩
    exact ⟨_, e.jobRecords.keys, leases, rfl, rfl, List.Perm.refl _,
      bind_eq_ok.2 ⟨p, hpoll, congrArg Prod.fst hrun⟩, hall k hkey hopen⟩
  · rintro ⟨req, order, leases, rfl, rfl, hperm, hpoll, hleased⟩
    obtain ⟨l, hl, rfl⟩ := List.mem_map.1 hleased
    obtain ⟨p, hrequest, hrun⟩ := bind_eq_ok.1 hpoll
    obtain hout | hopen := pollLoop_leases_open hstored.sound (hnodup order hperm) (hstart order)
      (Prod.ext hrun rfl) l hl
    · cases hout
    · obtain ⟨r, hlookup, hshown⟩ := shown_of_open hstored hlist hrequest hopen
      exact ⟨(l.jobKey, r), (hmem _ r).2 ⟨hlookup, hshown⟩, rfl⟩

end Agree

end JobDB.Toy
