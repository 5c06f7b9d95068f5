import JobDB.Lib.Json
import JobDB.Lib.Tx
import JobDB.Schedule.Types

/-!
# Job metadata

A job's metadata is stored as an envelope with the application's part under `app` and the
runtime's own under `internal` (`pkg/jobdb/schedule.go`), and the hash of the job's schema is
read back from it (`pkg/jobdb/internal/jobmetadata/schema_hash.go`).

A raw message is its text, and the empty one stands for `nil`. `encoding/json` refuses texts
with more than 10000 brackets around a value, and takes `null` for the empty map and for a
string that is left as it is. Numbers that go through an `any` become floats: `F` is what a
float is written as, if the number has one.

The reader looks into `app` before it looks into `internal`, and takes three spellings in
either (`schemaHash_of_build`). The envelope lies around the application's metadata like one
more bracket, so metadata that are accepted by themselves may be too deep in it.
-/

namespace JobDB

/-! ## `encoding/json` -/

/-- `maxNestingDepth`. -/
def maxNestingDepth : Nat := 10000

/-- What `json.Unmarshal` accepts before it looks at the target. -/
def unmarshal (raw : String) : Option Json :=
  (Json.read raw).filter fun v => v.depth ≤ maxNestingDepth

/-- The value read into a `map[string]json.RawMessage`. -/
def Json.asMap : Json → Option (List (String × Json))
  | .obj ms => some ms
  | .null => some []
  | _ => none

/-- The value read into a `string`. -/
def Json.asString : Json → Option String
  | .str s => some s
  | .null => some ""
  | _ => none

/-- `time.Time.MarshalJSON`, in UTC. -/
def timeJSON (t : Time) : Option Json :=
  let c := utcClock t
  let fraction := ((padded 9 (t % 1000000000)).toList.reverse.dropWhile (· = '0')).reverse
  if c.year < 0 ∨ 9999 < c.year then none
  else some (.str (padded 4 c.year ++ "-" ++ padded 2 c.month ++ "-" ++ padded 2 c.day ++ "T" ++
    padded 2 c.hour ++ ":" ++ padded 2 c.minute ++ ":" ++ padded 2 c.second ++
    (if fraction = [] then "" else String.ofList ('.' :: fraction)) ++ "Z"))

/-- A field with `omitempty`. -/
def omitEmpty (name value : String) : List (String × Json) :=
  if value = "" then [] else [(name, .str value)]

/-! ## The envelope -/

/-- `RuntimeJobMetadata`. -/
structure RuntimeJobMetadata where
  schedule : Option ScheduleOccurrenceMetadata := none
  schemaHash : String := ""
  parentJobID : String := ""
deriving DecidableEq, Repr

/-- `ScheduleFailureHistory` in JSON. -/
def ScheduleFailureHistory.toJson (h : ScheduleFailureHistory) : Json :=
  .obj (omitEmpty "bits" h.bits ++
    if h.windowSize = 0 then [] else [("windowSize", .num (.ofInt h.windowSize))])

/-- `ScheduleOccurrenceMetadata` in JSON. -/
def ScheduleOccurrenceMetadata.toJson (o : ScheduleOccurrenceMetadata) : Option Json :=
  (timeJSON o.scheduledAt).map fun at_ =>
    .obj ([("scheduleId", .str o.scheduleId), ("kind", .str o.kind),
        ("generation", .num (.ofInt o.generation)), ("specHash", .str o.specHash),
        ("scheduledAt", at_), ("runId", .str o.runId), ("manual", .bool o.manual)] ++
      (omitEmpty "backfillId" o.backfillId ++ (omitEmpty "previousJobId" o.previousJobId ++
        [("failureHistory", o.failureHistory.toJson)])))

/-- `RuntimeJobMetadata` in JSON, with its schedule. -/
def RuntimeJobMetadata.members (m : RuntimeJobMetadata) (schedule : Option Json) :
    List (String × Json) :=
  schedule.toList.map ("schedule", ·) ++ (omitEmpty "schemaHash" m.schemaHash ++
    omitEmpty "parentJobId" m.parentJobID)

/-- `json.Marshal` of a `RuntimeJobMetadata`. -/
def RuntimeJobMetadata.toJson (m : RuntimeJobMetadata) : Option Json :=
  match m.schedule with
  | none => some (.obj (m.members none))
  | some o => o.toJson.map fun schedule => .obj (m.members (some schedule))

/-- `runtimeJobMetadataEmpty`. -/
def runtimeJobMetadataEmpty (m : RuntimeJobMetadata) : Bool :=
  m.schedule.isNone && blank m.schemaHash && blank m.parentJobID

/-- `ValidateApplicationMetadata`. -/
def validateApplicationMetadata (raw : String) : Except Err Unit :=
  if blank raw then .ok ()
  else if ((unmarshal raw).bind Json.asMap).isSome then .ok ()
  else .error (.invalid "metadata must be a JSON object")

section Envelope

variable (F : JsonNumber → Option JsonNumber)

/-- `NormalizeJSON`. -/
def normalizeJSON (raw : String) : String :=
  if blank raw then ""
  else
    match (unmarshal raw).bind (Json.normalize F) with
    | some v => v.write
    | none => raw

/-- `json.Marshal` of a `JobMetadataEnvelope`. -/
def marshalEnvelope (app : Option Json) (internal : Option Json) : String :=
  (Json.obj (app.toList.map ("app", ·) ++ internal.toList.map ("internal", ·))).write

/-- The envelope around the application's part, which must be JSON if it is there. -/
def envelopeOf (app : String) (internal : Option Json) : Except Err String :=
  if app = "" then .ok (if internal.isSome then marshalEnvelope none internal else "")
  else
    match unmarshal app with
    | some v => .ok (marshalEnvelope (some v) internal)
    | none => .error (.invalid "json: error calling MarshalJSON for type json.RawMessage")

/-- `BuildJobMetadataEnvelope`. -/
def buildJobMetadataEnvelope (appMetadata : String) (internal : RuntimeJobMetadata) :
    Except Err String := do
  validateApplicationMetadata appMetadata
  if runtimeJobMetadataEmpty internal then envelopeOf (normalizeJSON F appMetadata) none
  else
    match internal.toJson with
    | some v => envelopeOf (normalizeJSON F appMetadata) (some v)
    | none => .error (.invalid "json: error calling MarshalJSON for type time.Time")

end Envelope

/-! ## The schema -/

/-- `ValidateJobSchemaHash`. -/
def validateJobSchemaHash (hash : String) : Except Err Unit :=
  if hash.toList.take 7 = "sha256:".toList ∧ (hash.toList.drop 7).length = 64 ∧
      (hash.toList.drop 7).all (fun c => ('0' ≤ c && c ≤ '9') || ('a' ≤ c && c ≤ 'f')) then .ok ()
  else .error (.invalid "schemaHash must match ^sha256:[0-9a-f]\x7b64\x7d$")

/-- The spellings `schemaHashFromObject` knows. -/
def schemaHashKeys : List String := ["jobdb_schema_hash", "schema_hash", "schemaHash"]

/-- The hash under one spelling, if there is one that is not blank. -/
def schemaHashAt (obj : List (String × Json)) (key : String) : Option String :=
  match (Json.find key obj).bind Json.asString with
  | some hash =>
    if trimSpace hash.toList = [] then none else some (String.ofList (trimSpace hash.toList))
  | none => none

/-- `schemaHashFromObject`. -/
def schemaHashFromObject (obj : List (String × Json)) : String :=
  (schemaHashKeys.findSome? (schemaHashAt obj)).getD ""

/-- The hash in the object under a name of the envelope. -/
def schemaHashIn (root : List (String × Json)) (name : String) : String :=
  match (Json.find name root).bind Json.asMap with
  | some obj => schemaHashFromObject obj
  | none => ""

/-- `SchemaHashFromStoredMetadata`. -/
def schemaHashFromStoredMetadata (raw : String) : String :=
  if blank raw then ""
  else
    match (unmarshal raw).bind Json.asMap with
    | none => ""
    | some root =>
      if schemaHashFromObject root ≠ "" then schemaHashFromObject root
      else if schemaHashIn root "app" ≠ "" then schemaHashIn root "app"
      else schemaHashIn root "internal"

/-! ## The application's part, and the parent -/

/-- The value read into a `RuntimeJobMetadata`: its texts are texts, and its schedule decodes. -/
def decodesRuntimeMetadata (scheduleDecodes : Json → Bool) (v : Json) : Bool :=
  v.asMap.any fun ms =>
    ((Json.find "schemaHash" ms).all fun h => h.asString.isSome) &&
      ((Json.find "parentJobId" ms).all fun p => p.asString.isSome) &&
      (Json.find "schedule" ms).all scheduleDecodes

/-- `storedInternalMetadataKnown`. -/
def storedInternalMetadataKnown (v : Json) : Bool :=
  v.asMap.any fun ms =>
    ["schedule", "schemaHash", "parentJobId"].any fun name => (Json.find name ms).isSome

/-- `AppMetadataFromStoredMetadata`; the empty text stands for `nil`. -/
def appMetadataFromStoredMetadata (scheduleDecodes : Json → Bool) (raw : String) : String :=
  if blank raw then ""
  else
    match (unmarshal raw).bind Json.asMap with
    | none => raw
    | some obj =>
      if (Json.find "internal" obj).any (fun v => !decodesRuntimeMetadata scheduleDecodes v) then
        raw
      else
        match Json.find "app" obj with
        | some .null => ""
        | some v => v.write
        | none => if (Json.find "internal" obj).any storedInternalMetadataKnown then "" else raw

/-- `ExtractParentJobID`: the parent, and whether there is one. -/
def extractParentJobID (scheduleDecodes : Json → Bool) (raw : String) :
    Except Err (String × Bool) :=
  if blank raw then .ok ("", false)
  else
    match (unmarshal raw).bind Json.asMap with
    | none => .error (.invalid "metadata must be a JSON object")
    | some root =>
      match Json.find "internal" root with
      | none => .ok ("", false)
      | some v =>
        if decodesRuntimeMetadata scheduleDecodes v = false then
          .error (.invalid "internal metadata must be a JSON object")
        else
          let text :=
            (v.asMap.bind fun ms => (Json.find "parentJobId" ms).bind Json.asString).getD ""
          let parentJobID := String.ofList (trimSpace text.toList)
          .ok (parentJobID, parentJobID ≠ "")

/-! ### Reading the envelope back -/

theorem toList_eq_nil {s : String} : s.toList = [] ↔ s = "" := by
  rw [← String.toList_inj]
  rfl

/-- A valid hash, or none, has no white space, so it is read as it is written. -/
theorem isSpace_schemaHash {hash : String} (h : validateJobSchemaHash hash = .ok () ∨ hash = "") :
    ∀ c ∈ hash.toList, isSpace c = false := by
  intro c hc
  rcases h with h | rfl
  · unfold validateJobSchemaHash at h
    split at h
    · next hv =>
      obtain ⟨htake, -, hall⟩ := hv
      rw [← List.take_append_drop 7 hash.toList, List.mem_append, htake] at hc
      rcases hc with hc | hc
      · have hlit : ("sha256:".toList.all fun c => !isSpace c) = true := by decide
        simpa using List.all_eq_true.1 hlit c hc
      · have hx := List.all_eq_true.1 hall c hc
        simp only [Bool.or_eq_true, Bool.and_eq_true, decide_eq_true_eq, Char.le_def,
          UInt32.le_iff_toNat_le] at hx
        have hn : (48 ≤ c.toNat ∧ c.toNat ≤ 57) ∨ (97 ≤ c.toNat ∧ c.toNat ≤ 102) := hx
        unfold isSpace
        simp only [Bool.or_eq_false_iff, Bool.and_eq_false_iff, decide_eq_false_iff_not,
          beq_eq_false_iff_ne]
        omega
    · cases h
  · cases hc

theorem unmarshal_write (v : Json) :
    unmarshal v.write = if v.depth ≤ maxNestingDepth then some v else none := by
  unfold unmarshal
  rw [Json.read_write, Option.filter_some]
  simp only [decide_eq_true_eq]

/-- The hash that a part of the envelope names. -/
def hashOf (part : Option Json) : String :=
  match part.bind Json.asMap with
  | some obj => schemaHashFromObject obj
  | none => ""

/-- The members of an envelope. -/
def envelopeMembers (app internal : Option Json) : List (String × Json) :=
  app.toList.map ("app", ·) ++ internal.toList.map ("internal", ·)

theorem find_app (app internal : Option Json) :
    Json.find "app" (envelopeMembers app internal) = app := by
  cases app <;> cases internal <;> rfl

theorem find_internal (app internal : Option Json) :
    Json.find "internal" (envelopeMembers app internal) = internal := by
  cases app <;> cases internal <;> rfl

/-- The envelope itself names no hash. -/
theorem schemaHashFromObject_envelope (app internal : Option Json) :
    schemaHashFromObject (envelopeMembers app internal) = "" := by
  cases app <;> cases internal <;> rfl

theorem blank_marshalEnvelope (app internal : Option Json) :
    blank (marshalEnvelope app internal) = false := by
  have hhead : ∃ cs, (marshalEnvelope app internal).toList = '{' :: cs := by
    unfold marshalEnvelope Json.write
    rw [String.toList_ofList]
    cases app <;> cases internal <;> exact ⟨_, rfl⟩
  obtain ⟨cs, hcs⟩ := hhead
  unfold blank
  rw [hcs]
  rfl

/-- What is read back from an envelope: the application's hash goes before the runtime's, and an
envelope that is too deep names none. -/
theorem schemaHash_marshalEnvelope (app internal : Option Json) :
    schemaHashFromStoredMetadata (marshalEnvelope app internal) =
      if (Json.obj (envelopeMembers app internal)).depth ≤ maxNestingDepth then
        if hashOf app ≠ "" then hashOf app else hashOf internal
      else "" := by
  have hread : unmarshal (marshalEnvelope app internal) =
      if (Json.obj (envelopeMembers app internal)).depth ≤ maxNestingDepth then
        some (Json.obj (envelopeMembers app internal)) else none := unmarshal_write _
  unfold schemaHashFromStoredMetadata
  rw [blank_marshalEnvelope, hread]
  by_cases hdepth : (Json.obj (envelopeMembers app internal)).depth ≤ maxNestingDepth
  · have happ : schemaHashIn (envelopeMembers app internal) "app" = hashOf app := by
      unfold schemaHashIn hashOf
      rw [find_app]
    have hinternal : schemaHashIn (envelopeMembers app internal) "internal" = hashOf internal := by
      unfold schemaHashIn hashOf
      rw [find_internal]
    simp [hdepth, Json.asMap, schemaHashFromObject_envelope, happ, hinternal]
  · simp [hdepth]

variable {m : RuntimeJobMetadata} {v : Json}

/-- The runtime's part names the hash it was made with. -/
theorem schemaHash_members (h : validateJobSchemaHash m.schemaHash = .ok () ∨ m.schemaHash = "")
    (schedule : Option Json) : schemaHashFromObject (m.members schedule) = m.schemaHash := by
  have htrim := trimSpace_of_forall (isSpace_schemaHash h)
  unfold schemaHashFromObject schemaHashKeys RuntimeJobMetadata.members omitEmpty
  by_cases hs : m.schemaHash = ""
  · cases schedule <;> by_cases hp : m.parentJobID = "" <;>
      simp [hs, hp, schemaHashAt, Json.find, List.findSome?_cons]
  · have hne : m.schemaHash.toList ≠ [] := fun he => hs (toList_eq_nil.1 he)
    cases schedule <;> by_cases hp : m.parentJobID = "" <;>
      simp [hs, hp, schemaHashAt, Json.find, Json.asString, htrim]

theorem hashOf_toJson (hv : m.toJson = some v)
    (h : validateJobSchemaHash m.schemaHash = .ok () ∨ m.schemaHash = "") :
    hashOf (some v) = m.schemaHash := by
  unfold RuntimeJobMetadata.toJson at hv
  split at hv
  · cases hv
    exact schemaHash_members h none
  · obtain ⟨schedule, -, rfl⟩ := Option.map_eq_some_iff.1 hv
    exact schemaHash_members h (some schedule)

/-! ### Depth -/

theorem depthMembers_append (xs ys : List (String × Json)) :
    Json.depthMembers (xs ++ ys) = max (Json.depthMembers xs) (Json.depthMembers ys) := by
  induction xs with
  | nil => simp [Json.depthMembers]
  | cons m xs ih =>
    obtain ⟨k, v⟩ := m
    simp only [List.cons_append, Json.depthMembers, ih]
    omega

theorem depthMembers_omitEmpty (name value : String) :
    Json.depthMembers (omitEmpty name value) = 0 := by
  unfold omitEmpty
  split <;> rfl

theorem depthMembers_option (name : String) (v : Option Json) :
    Json.depthMembers (v.toList.map (name, ·)) = v.elim 0 Json.depth := by
  cases v with
  | none => rfl
  | some v => simp [Json.depthMembers]

theorem depth_timeJSON {t : Time} (h : timeJSON t = some v) : v.depth = 0 := by
  simp only [timeJSON] at h
  split at h
  · cases h
  · cases h
    rfl

theorem depth_failureHistory (h : ScheduleFailureHistory) : h.toJson.depth ≤ 1 := by
  unfold ScheduleFailureHistory.toJson
  rw [Json.depth, depthMembers_append, depthMembers_omitEmpty]
  split <;> simp [Json.depthMembers, Json.depth]

theorem depth_occurrence {o : ScheduleOccurrenceMetadata} (h : o.toJson = some v) :
    v.depth ≤ 2 := by
  obtain ⟨at_, hat, rfl⟩ := Option.map_eq_some_iff.1 h
  have hfailure := depth_failureHistory o.failureHistory
  simp only [Json.depth, depthMembers_append, depthMembers_omitEmpty, Json.depthMembers,
    depth_timeJSON hat]
  omega

theorem depth_runtimeJobMetadata (h : m.toJson = some v) : v.depth ≤ 3 := by
  unfold RuntimeJobMetadata.toJson at h
  split at h
  · cases h
    simp [RuntimeJobMetadata.members, Json.depth, depthMembers_append, depthMembers_omitEmpty]
  · obtain ⟨schedule, hs, rfl⟩ := Option.map_eq_some_iff.1 h
    have hdepth := depth_occurrence hs
    simp only [RuntimeJobMetadata.members, Json.depth, depthMembers_append, depthMembers_omitEmpty,
      depthMembers_option, Option.elim_some]
    omega

theorem depth_envelope (app internal : Option Json) :
    (Json.obj (envelopeMembers app internal)).depth =
      max (app.elim 0 Json.depth) (internal.elim 0 Json.depth) + 1 := by
  rw [Json.depth, envelopeMembers, depthMembers_append, depthMembers_option, depthMembers_option]

/-! ### What the application may do to its schema -/

section Application

variable (F : JsonNumber → Option JsonNumber)

/-- The hash that the application's metadata name. -/
def ownSchemaHash (appMetadata : String) : String :=
  if blank appMetadata then "" else hashOf (unmarshal appMetadata)

/-- The application's part of the envelope. -/
def storedApp (appMetadata : String) : Option Json :=
  if normalizeJSON F appMetadata = "" then none else unmarshal (normalizeJSON F appMetadata)

/-- Metadata that are stored with as many brackets as a text may have. -/
def fillsNesting (appMetadata : String) : Bool :=
  (storedApp F appMetadata).any fun v => maxNestingDepth ≤ v.depth

variable {F}

theorem asString_normalize {w : Json} (h : Json.normalize F v = some w) :
    w.asString = v.asString := by
  cases v with
  | null | bool b | str s =>
    cases h
    rfl
  | num n | arr xs | obj ms =>
    obtain ⟨_, -, rfl⟩ := Option.map_eq_some_iff.1 h
    rfl

theorem schemaHashFromObject_normalize {ms ms' : List (String × Json)}
    (h : Json.normalizeMembers F ms = some ms') :
    schemaHashFromObject ms' = schemaHashFromObject ms := by
  have hat (key : String) : schemaHashAt ms' key = schemaHashAt ms key := by
    have hfind := Json.find_normalizeMembers F h key
    unfold schemaHashAt
    cases hf : Json.find key ms with
    | none =>
      rw [hf] at hfind
      rw [Option.map_eq_none_iff.1 hfind.symm]
    | some v =>
      rw [hf] at hfind
      obtain ⟨w, hw, hvw⟩ := Option.map_eq_some_iff.1 hfind.symm
      rw [hw, Option.bind_some, Option.bind_some, asString_normalize hvw.symm]
  unfold schemaHashFromObject
  rw [funext hat]

/-- Normalising keeps the hash. -/
theorem hashOf_normalize {w : Json} (h : Json.normalize F v = some w) :
    hashOf (some w) = hashOf (some v) := by
  cases v with
  | null | bool b | str s =>
    cases h
    rfl
  | num n | arr xs =>
    obtain ⟨_, -, rfl⟩ := Option.map_eq_some_iff.1 h
    rfl
  | obj ms =>
    obtain ⟨ms', hms, rfl⟩ := Option.map_eq_some_iff.1 h
    exact schemaHashFromObject_normalize hms

variable {appMetadata raw : String} {internal : RuntimeJobMetadata}

/-- The part that is stored names the hash that the application's metadata name. -/
theorem hashOf_storedApp (h : storedApp F appMetadata = some v) :
    hashOf (some v) = ownSchemaHash appMetadata := by
  unfold storedApp at h
  split at h
  · cases h
  next hne =>
  unfold normalizeJSON at h hne
  split at h
  · next hb => simp [hb] at hne
  next hb =>
  unfold ownSchemaHash
  rw [if_neg hb]
  split at h
  · next w hw =>
    obtain ⟨u, hu, hnorm⟩ := Option.bind_eq_some_iff.1 hw
    rw [unmarshal_write] at h
    split at h
    · cases h
      rw [hu]
      exact hashOf_normalize hnorm
    · cases h
  · rw [h]

/-- Only blank metadata are stored as nothing. -/
theorem blank_of_normalizeJSON (h : normalizeJSON F appMetadata = "") :
    blank appMetadata = true := by
  unfold normalizeJSON at h
  split at h
  · assumption
  split at h
  · next v _ =>
    obtain ⟨c, cs, hc, -⟩ := Json.writeValue_cons v
    have hnil := toList_eq_nil.2 h
    rw [Json.write, String.toList_ofList, hc] at hnil
    cases hnil
  · rw [h]
    rfl

variable (h : validateJobSchemaHash internal.schemaHash = .ok () ∨ internal.schemaHash = "")
  (hb : buildJobMetadataEnvelope F appMetadata internal = .ok raw)

include h hb

/-- The runtime's part of an envelope that was built. -/
theorem internal_of_build :
    ∃ part : Option Json, hashOf part = internal.schemaHash ∧ part.elim 0 Json.depth ≤ 3 ∧
      envelopeOf (normalizeJSON F appMetadata) part = .ok raw := by
  obtain ⟨_, -, hrest⟩ := bind_eq_ok.1 hb
  split at hrest
  · next hempty =>
    refine ⟨none, ?_, Nat.zero_le 3, hrest⟩
    -- a hash that is blank is none
    obtain ⟨⟨-, hblank⟩, -⟩ := by
      simpa only [runtimeJobMetadataEmpty, Bool.and_eq_true] using hempty
    have hnil : internal.schemaHash.toList = [] := by
      refine List.eq_nil_iff_forall_not_mem.2 fun c hc => ?_
      have hspace := List.all_eq_true.1 hblank c hc
      rw [isSpace_schemaHash h c hc] at hspace
      cases hspace
    exact (toList_eq_nil.1 hnil).symm
  · split at hrest
    · next v hv => exact ⟨some v, hashOf_toJson hv h, depth_runtimeJobMetadata hv, hrest⟩
    · cases hrest

/-- **What is read back from the stored metadata.** -/
theorem schemaHash_of_build :
    schemaHashFromStoredMetadata raw =
      if fillsNesting F appMetadata = true then ""
      else if ownSchemaHash appMetadata ≠ "" then ownSchemaHash appMetadata
      else internal.schemaHash := by
  obtain ⟨part, hhash, hdepth, henv⟩ := internal_of_build h hb
  rw [← hhash]
  unfold envelopeOf at henv
  by_cases happ : normalizeJSON F appMetadata = ""
  · have hown : ownSchemaHash appMetadata = "" := if_pos (blank_of_normalizeJSON happ)
    have hfills : fillsNesting F appMetadata = false := by simp [fillsNesting, storedApp, happ]
    rw [if_pos happ] at henv
    cases henv
    simp only [hown, hfills]
    cases part with
    | none => rfl
    | some v =>
      have hd : max 0 v.depth + 1 ≤ maxNestingDepth := by
        unfold maxNestingDepth
        simp only [Option.elim_some] at hdepth
        omega
      have hread := schemaHash_marshalEnvelope none (some v)
      rw [depth_envelope, Option.elim_none, Option.elim_some, if_pos hd] at hread
      exact hread
  · rw [if_neg happ] at henv
    split at henv
    · next v hv =>
      cases henv
      have hstored : storedApp F appMetadata = some v := by rw [storedApp, if_neg happ, hv]
      have hread := schemaHash_marshalEnvelope (some v) part
      rw [depth_envelope, Option.elim_some, hashOf_storedApp hstored] at hread
      rw [hread]
      by_cases hfull : maxNestingDepth ≤ v.depth
      · have hfills : fillsNesting F appMetadata = true := by simp [fillsNesting, hstored, hfull]
        rw [if_neg (by omega), if_pos hfills]
      · have hfills : ¬ fillsNesting F appMetadata = true := by
          simp [fillsNesting, hstored] at hfull ⊢
          exact hfull
        have hd : max v.depth (part.elim 0 Json.depth) + 1 ≤ maxNestingDepth := by
          unfold maxNestingDepth at hfull ⊢
          omega
        rw [if_pos hd, if_neg hfills]
    · cases henv

/-- The metadata leave the job its schema: they name no other, and they are not so deep that the
envelope cannot be read. -/
structure LeavesSchema (F : JsonNumber → Option JsonNumber) (appMetadata hash : String) : Prop where
  deep : fillsNesting F appMetadata = true → hash = ""
  own : fillsNesting F appMetadata = false →
    ownSchemaHash appMetadata = "" ∨ ownSchemaHash appMetadata = hash

theorem schemaHash_eq_iff :
    schemaHashFromStoredMetadata raw = internal.schemaHash ↔
      LeavesSchema F appMetadata internal.schemaHash := by
  rw [schemaHash_of_build h hb]
  cases hfills : fillsNesting F appMetadata with
  | true =>
    exact ⟨fun he => ⟨fun _ => he.symm, fun hf => (nomatch hfills.symm.trans hf)⟩,
      fun hl => (hl.deep hfills).symm⟩
  | false =>
    by_cases hown : ownSchemaHash appMetadata = ""
    · exact ⟨fun _ => ⟨fun hf => (nomatch hfills.symm.trans hf), fun _ => .inl hown⟩,
        fun _ => if_neg (not_not.2 hown)⟩
    · have hread : (if false = true then "" else if ownSchemaHash appMetadata ≠ ""
          then ownSchemaHash appMetadata else internal.schemaHash) = ownSchemaHash appMetadata :=
        if_pos hown
      rw [hread]
      exact ⟨fun he => ⟨fun hf => (nomatch hfills.symm.trans hf), fun _ => .inr he⟩,
        fun hl => (hl.own hfills).resolve_left hown⟩

end Application

end JobDB
