import JobDB.Cell.Types
import JobDB.Lib.Intervals
import JobDB.Lib.Tx
import JobDB.Runtime.Metadata

/-!
# Delegated leases

A worker hands part of the authority of its lease to others in a token (`runtime/remote`:
`attenuation.go`, `delegation_token.go`, `delegation_server.go`, `secrets.go`). A token is a
macaroon: a root that names the lease, and a list of restrictions that anyone who holds it can
make longer. The HMAC over the list is taken to be unforgeable, so a token is modelled by what
it authenticates, and restrictions can be added at the end only.

The server looks at the last restriction. That is enough because `decodeGrant` refuses a
token in which some restriction is not within the one before it, as `permissionsSubset`
decides; `permissionsSubset_sound` says that what it accepts is within.

A chapter selector may list ordinals and ranges, and selectors are compared by their merged
intervals (`JobDB.Lib.Intervals`).
-/

namespace JobDB.Remote

/-! ## Policies -/

/-- `DelegationNames`. -/
structure DelegationNames where
  any : Bool := false
  names : List String := []
deriving DecidableEq, Repr

/-- `DelegationChapters`. -/
structure DelegationChapters where
  any : Bool := false
  ordinals : List Int := []
  ranges : List Interval := []
deriving DecidableEq, Repr

/-- `DelegationSubmitPermission`. -/
structure DelegationSubmitPermission where
  cellNames : Option DelegationNames := none
  jobTypes : DelegationNames := {}
  jobIDs : DelegationNames := {}
deriving DecidableEq, Repr

/-- `DelegationWritePermission`. -/
structure DelegationWritePermission where
  ordinals : List Int := []
  taskTypes : DelegationNames := {}
  artifactNames : DelegationNames := {}
deriving DecidableEq, Repr

/-- `DelegationPermissions`. -/
structure DelegationPermissions where
  createCells : Option DelegationNames := none
  submit : Option DelegationSubmitPermission := none
  secrets : List String := []
  read : Option DelegationChapters := none
  write : Option DelegationWritePermission := none
deriving DecidableEq, Repr

/-- `namesAllow`. -/
def namesAllow (s : DelegationNames) (name : String) : Bool := s.any || decide (name ∈ s.names)

/-- `chaptersAllow`. -/
def chaptersAllow (s : Option DelegationChapters) (ordinal : Int) : Bool :=
  match s with
  | none => false
  | some s =>
    if ordinal < 0 then false
    else s.any || decide (ordinal ∈ s.ordinals) || s.ranges.any fun r => r.Holds ordinal

/-! ### What a policy allows -/

/-- The operations under a delegated lease whose answer depends on its policy. -/
inductive Action where
  /-- `POST jobs`: the server chooses the ID. -/
  | submit (jobType cell : String)
  /-- `PUT jobs/ID`. -/
  | submitAs (jobID jobType cell : String)
  /-- `POST cells`. -/
  | createCell (name : String)
  /-- `POST cells/resolve`. -/
  | resolveCell (name : String)
  /-- `POST secrets/resolve`, for one of its names. -/
  | resolveSecret (name : String)
  /-- `GET chapters`. -/
  | listChapters
  /-- `GET chapters/N`. -/
  | readChapter (ordinal : Int)
  /-- `POST add_chapter`, for a task outcome with uploads under the given names. -/
  | writeChapter (ordinal : Int) (taskType : String) (artifacts : List String)
deriving DecidableEq, Repr

/-- The cell is one that jobs may be submitted to. -/
def cellAllowed (s : DelegationSubmitPermission) (cell : String) : Bool :=
  s.cellNames.all fun names => namesAllow names cell

/-- The decisions of `prepareDelegationRequest` and `ResolveSecretsWithLease` on a request with a
well-formed body. -/
def DelegationPermissions.allows (policy : DelegationPermissions) : Action → Bool
  | .submit jobType cell =>
    policy.submit.any fun s => s.jobIDs.any && cellAllowed s cell && namesAllow s.jobTypes jobType
  | .submitAs jobID jobType cell =>
    policy.submit.any fun s =>
      namesAllow s.jobIDs jobID && cellAllowed s cell && namesAllow s.jobTypes jobType
  | .createCell name => policy.createCells.any fun names => namesAllow names name
  | .resolveCell name => policy.submit.any fun s => cellAllowed s name
  | .resolveSecret name => decide (0 < policy.secrets.length) && decide (name ∈ policy.secrets)
  | .listChapters => policy.read.isSome
  | .readChapter ordinal => chaptersAllow policy.read ordinal
  | .writeChapter ordinal taskType artifacts =>
    policy.write.any fun w =>
      decide (ordinal ∈ w.ordinals) && namesAllow w.taskTypes taskType &&
        artifacts.all fun name => namesAllow w.artifactNames name

/-! ### When one policy is within another -/

/-- `namesSubset`. -/
def namesSubset (child parent : DelegationNames) : Bool :=
  if parent.any then true
  else if child.any then false
  else child.names.all fun n => decide (n ∈ parent.names)

/-- `ordinalsSubset`. -/
def ordinalsSubset (child parent : List Int) : Bool := child.all fun n => decide (n ∈ parent)

/-- `chapterIntervals`. -/
def chapterIntervals (p : DelegationChapters) : List Interval :=
  Interval.merge (p.ranges ++ p.ordinals.map fun n => ⟨n, n⟩)

/-- `chaptersSubset`. -/
def chaptersSubset (child parent : Option DelegationChapters) : Bool :=
  match child, parent with
  | none, _ => true
  | some _, none => false
  | some c, some p =>
    if p.any then true
    else if c.any then false
    else (chapterIntervals c).all fun r =>
      (chapterIntervals p).any fun a => decide (a.start ≤ r.start ∧ r.stop ≤ a.stop)

/-- `cellNamesSubset`. -/
def cellNamesSubset (child parent : Option DelegationNames) : Bool :=
  match child, parent with
  | _, none => true
  | none, some _ => false
  | some c, some p => namesSubset c p

/-- The part of `permissionsSubset` about submitted jobs. -/
def submitSubset (c p : DelegationSubmitPermission) : Bool :=
  namesSubset c.jobTypes p.jobTypes && namesSubset c.jobIDs p.jobIDs &&
    cellNamesSubset c.cellNames p.cellNames

/-- The part of `permissionsSubset` about written chapters. -/
def writeSubset (c p : DelegationWritePermission) : Bool :=
  ordinalsSubset c.ordinals p.ordinals && namesSubset c.taskTypes p.taskTypes &&
    namesSubset c.artifactNames p.artifactNames

/-- `permissionsSubset`. -/
def permissionsSubset (c p : DelegationPermissions) : Bool :=
  (c.createCells.all fun names => p.createCells.any fun names' => namesSubset names names') &&
    (c.submit.all fun s => p.submit.any fun s' => submitSubset s s') &&
    namesSubset { names := c.secrets } { names := p.secrets } &&
    chaptersSubset c.read p.read &&
    c.write.all fun w => p.write.any fun w' => writeSubset w w'

/-! ### Policies that are accepted -/

/-- The test `names` of `validateDelegationPolicy`. -/
def namesValid (s : DelegationNames) : Bool :=
  !(s.any && decide (0 < s.names.length)) && decide (s.names.length ≤ 256) &&
    s.names.all fun n => decide (n ≠ "") && decide (n.utf8ByteSize ≤ 1024)

/-- The test `ordinals` of `validateDelegationPolicy`. -/
def ordinalsValid (ns : List Int) : Bool :=
  decide (ns.length ≤ 256) && ns.all fun n => decide (0 ≤ n)

/-- Why a token or a request is refused. -/
inductive GrantErr where
  /-- `ErrExecutionLeaseLost`. -/
  | executionLeaseLost
  /-- `ErrLeasePermissionDenied`. -/
  | leasePermissionDenied
  | invalid (text : String)
deriving DecidableEq, Repr

/-- The check of a chapter selector. -/
def validateChapters (c : DelegationChapters) : Except GrantErr Unit :=
  if !ordinalsValid c.ordinals ∨ 256 < c.ranges.length ∨
      (c.any ∧ (0 < c.ordinals.length ∨ 0 < c.ranges.length)) then
    .error (.invalid "invalid chapter selectors")
  else if c.ranges.any fun r => r.start < 0 ∨ r.stop < r.start then
    .error (.invalid "invalid chapter range")
  else .ok ()

/-- `validateDelegationPolicy`. -/
def validateDelegationPolicy (p : DelegationPermissions) : Except GrantErr Unit := do
  if p.submit.any fun s => !(namesValid s.jobTypes && namesValid s.jobIDs &&
      s.cellNames.all namesValid) then
    .error (.invalid "invalid submission selectors")
  else if p.createCells.any fun names => !namesValid names then
    .error (.invalid "invalid cell creation selectors")
  else if !namesValid { names := p.secrets } then .error (.invalid "invalid secret names")
  else
    match p.read with
    | none => .ok ()
    | some c => validateChapters c
  if p.write.any fun w => !(ordinalsValid w.ordinals && namesValid w.taskTypes &&
      namesValid w.artifactNames) then
    .error (.invalid "invalid chapter write selectors")
  else .ok ()

/-! ## Tokens -/

/-- `grantParent`. -/
structure GrantParent where
  cell : ResolvedCell
  principal : Option String := none
  tenantID : String
  jobID : String
  leaseID : String
  workerID : String
  schemaHash : String := ""
deriving DecidableEq, Repr

def grantPurpose : String := "jobdb.delegation.grant.v2"
def grantCeiling : String := "jobdb.resource-actions.v2"
def maxDelegationDepth : Nat := 8
def maxDelegationTokenBytes : Nat := 16384

/-- `grantRoot`. -/
structure GrantRoot where
  version : Int := 1
  purpose : String := grantPurpose
  audience : String
  keyID : String
  id : String
  parent : GrantParent
  ceiling : String := grantCeiling
deriving DecidableEq, Repr

/-- `grantStep`. -/
structure GrantStep where
  kind : String := "restrict"
  version : Int := 1
  id : String
  permissions : DelegationPermissions
  notAfter : Option Time := none
deriving DecidableEq, Repr

/-- The content of a token: its root and its restrictions, the first one first. -/
structure Grant where
  root : GrantRoot
  caveats : List GrantStep := []
deriving DecidableEq, Repr

/-- `DelegationInfo`, as the loop of `decodeGrant` has it before the first restriction and after
each one. -/
structure DelegationInfo where
  id : String := ""
  permissions : DelegationPermissions := {}
  notAfter : Option Time := none
deriving DecidableEq, Repr

/-- `CreateDelegationRequest`. -/
structure CreateDelegationRequest where
  permissions : DelegationPermissions
  notAfter : Option Time := none
deriving DecidableEq, Repr

/-- The checks on the root. -/
def validateRoot (root : GrantRoot) : Bool :=
  decide (root.version = 1) && decide (root.purpose = grantPurpose) &&
    decide (root.ceiling = grantCeiling) && decide (root.id ≠ "") && decide (root.audience ≠ "") &&
    decide (root.keyID ≠ "") && decide (root.parent.tenantID ≠ "") &&
      decide (root.parent.jobID ≠ "") &&
    decide (root.parent.leaseID ≠ "") && decide (root.parent.cell.cellID ≠ "") &&
    decide (root.parent.cell.cellRepo ≠ "") && (validateCellName root.parent.cell.cell).toBool

/-- The checks on a restriction by itself. -/
def validateStep (step : GrantStep) : Bool :=
  decide (step.kind = "restrict") && decide (step.version = 1) && decide (step.id ≠ "") &&
    decide (step.id.utf8ByteSize ≤ 128) && (validateDelegationPolicy step.permissions).toBool &&
    step.notAfter.all fun t =>
      decide (t ≠ Time.zero) && decide (1 ≤ (utcClock t).year) && decide ((utcClock t).year ≤ 9999)

/-- The round of `decodeGrant`'s loop for restriction number `i`. -/
def decodeStep (i : Nat) (c : DelegationInfo) (step : GrantStep) : Except GrantErr DelegationInfo :=
  if !validateStep step then .error .executionLeaseLost
  else if 0 < i ∧ !permissionsSubset step.permissions c.permissions then .error .executionLeaseLost
  else if c.notAfter.any fun t => step.notAfter.any fun t' => t < t' then .error .executionLeaseLost
  else
    .ok
      { id := step.id
        permissions := step.permissions
        notAfter := if step.notAfter.isSome then step.notAfter else c.notAfter }

/-- `decodeGrant`'s loop. -/
def decodeSteps : Nat → DelegationInfo → List GrantStep → Except GrantErr DelegationInfo
  | _, c, [] => .ok c
  | i, c, step :: steps => do
    let c ← decodeStep i c step
    decodeSteps (i + 1) c steps

/-- `decodeGrant`; `tokenBytes` is the length of the token's text. -/
def decodeGrant (tokenBytes : Grant → Nat) (g : Grant) (allowRoot : Bool) :
    Except GrantErr DelegationInfo :=
  if maxDelegationTokenBytes < tokenBytes g then .error .executionLeaseLost
  else if !validateRoot g.root then .error .executionLeaseLost
  else if maxDelegationDepth < g.caveats.length ∨
      (allowRoot = false ∧ (g.caveats.length = 0 ∨ g.root.parent.workerID = "")) then
    .error .executionLeaseLost
  else decodeSteps 0 {} g.caveats

/-- `encodeGrant`. -/
def encodeGrant (tokenBytes : Grant → Nat) (g : Grant) : Except GrantErr Grant :=
  if maxDelegationTokenBytes < tokenBytes g then
    .error (.invalid "delegation exceeds token size limit")
  else .ok g

/-- `newGrant`. -/
def newGrant (tokenBytes : Grant → Nat) (audience keyID id : String) (parent : GrantParent) :
    Except GrantErr Grant :=
  encodeGrant tokenBytes { root := { audience := audience, keyID := keyID, id := id,
                                     parent := parent } }

/-- The cell names that a request leaves out are taken over from the token. -/
def inheritCellNames (g : Grant) (c : DelegationInfo) (p : DelegationPermissions) :
    DelegationPermissions :=
  match p.submit, c.permissions.submit with
  | some s, some s' =>
    if 0 < g.caveats.length ∧ s.cellNames = none then
      { p with submit := some { s with cellNames := s'.cellNames } }
    else p
  | _, _ => p

/-- `validateDelegationRequest`. -/
def validateDelegationRequest (now : Time) (req : CreateDelegationRequest) : Except GrantErr Unit :=
  if req.notAfter.any fun t => t ≤ now then .error (.invalid "notAfter must be in the future")
  else validateDelegationPolicy req.permissions

/-- The deadline of a new restriction: the token's own, or an earlier one. -/
def narrowDeadline (now : Time) (held requested : Option Time) : Except GrantErr (Option Time) :=
  match held with
  | none => .ok requested
  | some t =>
    if t ≤ now ∨ requested.any fun t' => t < t' then .error .leasePermissionDenied
    else .ok (if requested.isSome then requested else some t)

/-- `json.Marshal` of a restriction fails for a deadline that JSON cannot hold. -/
def marshalStep (step : GrantStep) : Except GrantErr GrantStep :=
  if step.notAfter.any fun t => (timeJSON t).isNone then
    .error (.invalid "json: error calling MarshalJSON for type time.Time")
  else .ok step

/-- `attenuateGrant`; `id` is the new restriction's ID. -/
def attenuateGrant (tokenBytes : Grant → Nat) (now : Time) (id : String) (g : Grant)
    (req : CreateDelegationRequest) : Except GrantErr (Grant × DelegationInfo) := do
  let c ← decodeGrant tokenBytes g true
  demand .executionLeaseLost (g.root.parent.workerID ≠ "")
  let permissions := inheritCellNames g c req.permissions
  validateDelegationRequest now { req with permissions := permissions }
  demand (.invalid "delegation exceeds maximum restriction depth")
    (g.caveats.length < maxDelegationDepth)
  demand .leasePermissionDenied (g.caveats = [] ∨
    permissionsSubset permissions c.permissions = true)
  let notAfter ← narrowDeadline now c.notAfter req.notAfter
  let step ← marshalStep { id := id, permissions := permissions, notAfter := notAfter }
  let next ← encodeGrant tokenBytes { g with caveats := g.caveats ++ [step] }
  .ok (next, { id := step.id, permissions := step.permissions, notAfter := step.notAfter })

/-! ## A policy within another allows no more -/

theorem namesSubset_sound {c p : DelegationNames} (h : namesSubset c p = true) {name : String}
    (ha : namesAllow c name = true) : namesAllow p name = true := by
  unfold namesSubset at h
  unfold namesAllow at ha ⊢
  split at h
  · next hany => rw [hany, Bool.true_or]
  · split at h
    · cases h
    · next hany =>
      have hmem : name ∈ c.names := by simpa [hany] using ha
      have hparent := List.all_eq_true.1 h name hmem
      rw [hparent, Bool.or_true]

/-- A wildcard is within nothing but a wildcard. -/
theorem any_of_namesSubset {c p : DelegationNames} (h : namesSubset c p = true)
    (ha : c.any = true) : p.any = true := by
  unfold namesSubset at h
  split at h
  · next hany => exact hany
  · cases h

theorem covers_chapterIntervals {c : DelegationChapters} {n : Int} :
    Interval.Covers (c.ranges ++ c.ordinals.map fun m => ⟨m, m⟩) n ↔
      n ∈ c.ordinals ∨ ∃ r ∈ c.ranges, r.Holds n := by
  rw [Interval.covers_append, or_comm]
  refine or_congr_left ?_
  unfold Interval.Covers
  constructor
  · rintro ⟨i, hi, hn⟩
    obtain ⟨m, hm, rfl⟩ := List.mem_map.1 hi
    have hmn : m = n := le_antisymm hn.1 hn.2
    rwa [← hmn]
  · intro hn
    exact ⟨⟨n, n⟩, List.mem_map.2 ⟨n, hn, rfl⟩, le_refl n, le_refl n⟩

/-- What a selector without a wildcard allows is what its intervals cover. -/
theorem chaptersAllow_iff {c : DelegationChapters} {n : Int} (hany : c.any = false) :
    chaptersAllow (some c) n = true ↔
      0 ≤ n ∧ Interval.Covers (c.ranges ++ c.ordinals.map fun m => ⟨m, m⟩) n := by
  rw [covers_chapterIntervals]
  unfold chaptersAllow
  dsimp only
  split
  · next hneg =>
    constructor
    · intro h; cases h
    · intro h; omega
  · next hneg => simp [hany, not_lt.1 hneg]

theorem chaptersSubset_sound {c p : Option DelegationChapters} (h : chaptersSubset c p = true)
    {n : Int} (ha : chaptersAllow c n = true) : chaptersAllow p n = true := by
  cases c with
  | none => cases ha
  | some c =>
    cases p with
    | none => cases h
    | some p =>
      have hn : 0 ≤ n := by
        by_contra hneg
        simp only [chaptersAllow, if_pos (not_le.1 hneg)] at ha
        cases ha
      simp only [chaptersSubset] at h
      split at h
      · next hany =>
        simp only [chaptersAllow, if_neg (not_lt.2 hn), hany, Bool.true_or]
      · next hpany =>
        split at h
        · cases h
        · next hcany =>
          rw [chaptersAllow_iff (by simpa using hcany)] at ha
          rw [chaptersAllow_iff (by simpa using hpany)]
          refine ⟨hn, Interval.covered_of_merged ?_ ha.2⟩
          intro r hr
          obtain ⟨a, hmem, hcovered⟩ := List.any_eq_true.1 (List.all_eq_true.1 h r hr)
          exact ⟨a, hmem, of_decide_eq_true hcovered⟩

theorem cellNamesSubset_sound {c p : DelegationSubmitPermission}
    (h : cellNamesSubset c.cellNames p.cellNames = true) {cell : String}
    (ha : cellAllowed c cell = true) : cellAllowed p cell = true := by
  unfold cellAllowed at ha ⊢
  cases hp : p.cellNames with
  | none => rfl
  | some names =>
    cases hc : c.cellNames with
    | none =>
      rw [hc, hp] at h
      cases h
    | some names' =>
      rw [hc, hp] at h
      rw [hc] at ha
      exact namesSubset_sound h ha

/-- A part of a policy has a counterpart in the parent's that it is within, and that allows what it
allows. -/
theorem any_of_within {α β : Type} {c : Option α} {p : Option β} {within : α → β → Bool}
    {allowed : α → Bool} {allowed' : β → Bool}
    (h : (c.all fun x => p.any fun y => within x y) = true)
    (sound : ∀ x y, within x y = true → allowed x = true → allowed' y = true)
    (ha : c.any allowed = true) : p.any allowed' = true := by
  obtain ⟨x, rfl, hx⟩ := (Option.any_eq_true _ _).1 ha
  obtain ⟨y, rfl, hy⟩ := (Option.any_eq_true _ _).1 h
  exact sound x y hy hx

/-- What `permissionsSubset` accepts as a restriction allows nothing that the policy does not. -/
theorem permissionsSubset_sound {c p : DelegationPermissions} (h : permissionsSubset c p = true)
    {a : Action} (ha : c.allows a = true) : p.allows a = true := by
  simp only [permissionsSubset, Bool.and_eq_true] at h
  obtain ⟨⟨⟨⟨hcells, hsubmit⟩, hsecrets⟩, hread⟩, hwrite⟩ := h
  cases a with
  | submit jobType cell =>
    refine any_of_within hsubmit (fun s s' hwithin hallowed => ?_) ha
    simp only [submitSubset, Bool.and_eq_true] at hwithin hallowed
    obtain ⟨⟨htypes, hids⟩, hnames⟩ := hwithin
    rw [any_of_namesSubset hids hallowed.1.1, cellNamesSubset_sound hnames hallowed.1.2,
      namesSubset_sound htypes hallowed.2]
    rfl
  | submitAs jobID jobType cell =>
    refine any_of_within hsubmit (fun s s' hwithin hallowed => ?_) ha
    simp only [submitSubset, Bool.and_eq_true] at hwithin hallowed
    obtain ⟨⟨htypes, hids⟩, hnames⟩ := hwithin
    rw [namesSubset_sound hids hallowed.1.1, cellNamesSubset_sound hnames hallowed.1.2,
      namesSubset_sound htypes hallowed.2]
    rfl
  | createCell name =>
    exact any_of_within hcells (fun names names' hwithin => namesSubset_sound hwithin) ha
  | resolveCell name =>
    refine any_of_within hsubmit (fun s s' hwithin => ?_) ha
    simp only [submitSubset, Bool.and_eq_true] at hwithin
    exact cellNamesSubset_sound hwithin.2
  | resolveSecret name =>
    simp only [DelegationPermissions.allows, Bool.and_eq_true, decide_eq_true_eq] at ha ⊢
    have hallowed : namesAllow { names := c.secrets } name = true := by
      simpa [namesAllow] using ha.2
    have hmem : name ∈ p.secrets := by
      simpa [namesAllow] using namesSubset_sound hsecrets hallowed
    exact ⟨List.length_pos_of_mem hmem, hmem⟩
  | listChapters =>
    unfold DelegationPermissions.allows at ha ⊢
    cases hc : c.read <;> cases hp : p.read <;> simp_all [chaptersSubset]
  | readChapter ordinal => exact chaptersSubset_sound hread ha
  | writeChapter ordinal taskType artifacts =>
    refine any_of_within hwrite (fun w w' hwithin hallowed => ?_) ha
    simp only [writeSubset, Bool.and_eq_true, decide_eq_true_eq] at hwithin hallowed
    obtain ⟨⟨hordinals, htasks⟩, hartifacts⟩ := hwithin
    simp only [Bool.and_eq_true]
    refine ⟨⟨?_, namesSubset_sound htasks hallowed.1.2⟩, List.all_eq_true.2 fun name hname => ?_⟩
    · exact List.all_eq_true.1 hordinals ordinal hallowed.1.1
    · exact namesSubset_sound hartifacts (List.all_eq_true.1 hallowed.2 name hname)

/-! ## Chains of restrictions -/

namespace Grant

/-- What the token is good for: the last restriction allows it. A root is bounded by its
ceiling only, which is every action. -/
def permits (g : Grant) (a : Action) : Bool :=
  g.caveats.getLast?.all fun step => step.permissions.allows a

/-- The deadline in force: the last one that a restriction sets. -/
def notAfter (g : Grant) : Option Time := (g.caveats.filterMap (·.notAfter)).getLast?

/-- The second token gives nothing that the first does not, and not for longer. -/
structure Within (later earlier : Grant) : Prop where
  actions : ∀ a, later.permits a = true → earlier.permits a = true
  deadline : ∀ t, earlier.notAfter = some t → ∃ t', later.notAfter = some t' ∧ t' ≤ t

theorem Within.trans {g₁ g₂ g₃ : Grant} (h₂ : g₂.Within g₁) (h₃ : g₃.Within g₂) : g₃.Within g₁ where
  actions a ha := h₂.actions a (h₃.actions a ha)
  deadline t ht := by
    obtain ⟨t₂, ht₂, hle₂⟩ := h₂.deadline t ht
    obtain ⟨t₃, ht₃, hle₃⟩ := h₃.deadline t₂ ht₂
    exact ⟨t₃, ht₃, le_trans hle₃ hle₂⟩

end Grant

/-- What the loop makes of the restrictions: the last policy and the last deadline. -/
theorem decodeSteps_ok {steps : List GrantStep} : ∀ {i : Nat} {c c' : DelegationInfo},
    decodeSteps i c steps = .ok c' →
      c'.permissions = (steps.getLast?.map (·.permissions)).getD c.permissions ∧
      c'.notAfter = (steps.filterMap (·.notAfter)).getLast?.or c.notAfter := by
  induction steps with
  | nil =>
    intro i c c' h
    obtain rfl := Except.ok.inj h
    exact ⟨rfl, rfl⟩
  | cons step steps ih =>
    intro i c c' h
    obtain ⟨c₁, hstep, h⟩ := bind_eq_ok.1 h
    obtain ⟨hpermissions, hnotAfter⟩ := ih h
    simp only [decodeStep, ite_error_eq_ok, Except.ok.injEq] at hstep
    obtain ⟨-, -, -, rfl⟩ := hstep
    constructor
    · rw [hpermissions, List.getLast?_cons]
      cases hlast : steps.getLast? with
      | none => rfl
      | some last => rfl
    · rw [hnotAfter]
      cases hafter : step.notAfter with
      | none => simp [hafter]
      | some t =>
        rw [List.filterMap_cons_some hafter, List.getLast?_cons]
        cases hrest : (steps.filterMap (·.notAfter)).getLast? with
        | none => simp
        | some t' => rfl

/-- The server judges a token by its last restriction and its last deadline. -/
theorem decodeGrant_ok {tokenBytes : Grant → Nat} {g : Grant} {allowRoot : Bool}
    {c : DelegationInfo} (h : decodeGrant tokenBytes g allowRoot = .ok c) :
    (g.caveats = [] → allowRoot = true) ∧
      (g.caveats ≠ [] → ∀ a, c.permissions.allows a = g.permits a) ∧ c.notAfter = g.notAfter := by
  simp only [decodeGrant, ite_error_eq_ok] at h
  obtain ⟨-, -, hdepth, h⟩ := h
  obtain ⟨hpermissions, hnotAfter⟩ := decodeSteps_ok h
  refine ⟨?_, ?_, ?_⟩
  · intro hnil
    by_contra hnot
    exact hdepth (.inr ⟨Bool.eq_false_iff.2 hnot, .inl (by rw [hnil]; rfl)⟩)
  · intro hne a
    rw [hpermissions]
    unfold Grant.permits
    cases hlast : g.caveats.getLast? with
    | none => exact absurd (List.getLast?_eq_none_iff.1 hlast) hne
    | some step => rfl
  · rw [hnotAfter]
    exact Option.or_none

theorem narrowDeadline_ok {now : Time} {held requested next : Option Time}
    (h : narrowDeadline now held requested = .ok next) {t : Time} (ht : held = some t) :
    ∃ t', next = some t' ∧ t' ≤ t := by
  subst ht
  simp only [narrowDeadline, ite_error_eq_ok, Except.ok.injEq] at h
  obtain ⟨hlate, rfl⟩ := h
  cases requested with
  | none => exact ⟨t, rfl, le_refl t⟩
  | some t' =>
    refine ⟨t', rfl, ?_⟩
    by_contra hlt
    exact hlate (.inr (by simpa using not_le.1 hlt))

/-- One token is made from another by `attenuateGrant`. -/
def Attenuates (tokenBytes : Grant → Nat) (g g' : Grant) : Prop :=
  ∃ now id req info, attenuateGrant tokenBytes now id g req = .ok (g', info)

/-- A step of the chain: a restriction is appended that is within the last one. -/
theorem attenuates_within {tokenBytes : Grant → Nat} {g g' : Grant}
    (h : Attenuates tokenBytes g g') : g'.Within g := by
  obtain ⟨now, id, req, info, h⟩ := h
  obtain ⟨c, hdecode, h⟩ := bind_eq_ok.1 h
  obtain ⟨-, h⟩ := demand_bind_eq_ok.1 h
  obtain ⟨⟨⟩, -, h⟩ := bind_eq_ok.1 h
  obtain ⟨-, h⟩ := demand_bind_eq_ok.1 h
  obtain ⟨hsubset, h⟩ := demand_bind_eq_ok.1 h
  obtain ⟨notAfter, hdeadline, h⟩ := bind_eq_ok.1 h
  obtain ⟨step, hstep, h⟩ := bind_eq_ok.1 h
  obtain ⟨next, hnext, h⟩ := bind_eq_ok.1 h
  obtain ⟨rfl, -⟩ := Prod.mk.inj (Except.ok.inj h)
  obtain rfl := Except.ok.inj (ite_error_eq_ok.1 hstep).2
  obtain rfl := Except.ok.inj (ite_error_eq_ok.1 hnext).2
  obtain ⟨-, hpermits, hheld⟩ := decodeGrant_ok hdecode
  constructor
  · intro a ha
    by_cases hroot : g.caveats = []
    · simp [Grant.permits, hroot]
    · have hwithin : permissionsSubset (inheritCellNames g c req.permissions) c.permissions =
          true :=
        hsubset.resolve_left hroot
      have hlast : (inheritCellNames g c req.permissions).allows a = true := by
        simpa [Grant.permits] using ha
      rw [← hpermits hroot a]
      exact permissionsSubset_sound hwithin hlast
  · intro t ht
    rw [← hheld] at ht
    obtain ⟨t', rfl, hle⟩ := narrowDeadline_ok hdeadline ht
    refine ⟨t', ?_, hle⟩
    simp [Grant.notAfter]

/-- Along every chain of restrictions, the ones that begin with a new grant among them, a later
token permits no action that an earlier one does not, and its deadline is no later. What the
server reads off a token that it accepts is what the token permits, and its deadline. -/
theorem delegation_narrows (tokenBytes : Grant → Nat) (tokens : List Grant)
    (hchain : tokens.IsChain (Attenuates tokenBytes)) :
    (tokens.Pairwise fun earlier later => later.Within earlier) ∧
      ∀ g ∈ tokens, ∀ c, decodeGrant tokenBytes g false = .ok c →
        (∀ a, c.permissions.allows a = g.permits a) ∧ c.notAfter = g.notAfter := by
  constructor
  · have hsteps : tokens.IsChain fun earlier later => later.Within earlier :=
      hchain.imp fun _ _ h => attenuates_within h
    have : IsTrans Grant fun earlier later => later.Within earlier :=
      ⟨fun _ _ _ h₂ h₃ => h₂.trans h₃⟩
    exact List.isChain_iff_pairwise.1 hsteps
  · intro g _ c hdecode
    obtain ⟨hroot, hpermits, hnotAfter⟩ := decodeGrant_ok hdecode
    exact ⟨hpermits fun hnil => Bool.noConfusion (hroot hnil), hnotAfter⟩

/-- The lease that the sample tokens are for. -/
def sampleParent : GrantParent :=
  { cell := { cell := "blue", cellID := "cell-1", cellRepo := "repo-1" }
    tenantID := "acme"
    jobID := "job-1"
    leaseID := "lease-1"
    workerID := "worker-1" }

/-- A new grant. -/
def sampleRoot : Grant :=
  { root := { audience := "jobs", keyID := "k1", id := "g1", parent := sampleParent } }

/-- Chapters 0 to 3 may be read, and chapter 7. -/
def sampleReader : DelegationPermissions :=
  { read := some { ordinals := [7, 2], ranges := [⟨0, 1⟩, ⟨3, 3⟩] } }

/-- Chapters 1 to 3 may be read. -/
def sampleNarrower : DelegationPermissions := { read := some { ranges := [⟨1, 3⟩] } }

/-- The new grant restricted twice, the second time with a deadline. -/
def sampleTokens : List Grant :=
  [sampleRoot, { sampleRoot with caveats := [{ id := "r1", permissions := sampleReader }] },
    { sampleRoot with
      caveats :=
        [{ id := "r1", permissions := sampleReader },
          { id := "r2", permissions := sampleNarrower, notAfter := some 9 }] }]

theorem delegation_narrows_twice :
    newGrant (fun _ => 1) "jobs" "k1" "g1" sampleParent = .ok sampleRoot ∧
      sampleTokens.Pairwise fun earlier later => later.Within earlier := by
  refine ⟨rfl, (delegation_narrows (fun _ => 1) sampleTokens ?_).1⟩
  refine .cons_cons ⟨5, "r1", { permissions := sampleReader }, ?info₁, ?_⟩
    (.cons_cons ⟨5, "r2", { permissions := sampleNarrower, notAfter := some 9 }, ?info₂, ?_⟩
      (.singleton _))
  case info₁ => exact { id := "r1", permissions := sampleReader }
  case info₂ => exact { id := "r2", permissions := sampleNarrower, notAfter := some 9 }
  · rfl
  · rfl

end JobDB.Remote
