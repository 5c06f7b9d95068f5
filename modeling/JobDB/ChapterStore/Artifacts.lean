import JobDB.ChapterStore.Linked
import JobDB.Runtime.Types
import Mathlib.Data.List.DropRight

/-!
# Artifacts through restarts and deletions

The SQLite runtime stores the files of a chapter with it and hands them out by name
(`runtime/sqlite`: `prepareChapterWrite`, `SaveChapter`, `OpenArtifact`). A file goes into the
row or into a blob, the blob is never overwritten, and a job that was restarted from another
one finds the files of the chapters it kept through the links of its story.

The store trims the names and `OpenArtifact` does not, so a file can be asked for by the name
it was uploaded under unless trimming changes that name (`KeepsName`); and the reader of a
chapter gives up after 1024 links. `read_uploaded` says that nothing else can come between.
-/

namespace JobDB.ChapterStore

/-! ## Names -/

/-- The name that an upload is stored under. -/
def uploadName (name : String) : String := if trimmed name = "" then name else trimmed name

/-- Trimming leaves the name as it is, or leaves nothing of it. -/
def KeepsName (name : String) : Prop := trimmed name = name ∨ trimmed name = ""

instance (name : String) : Decidable (KeepsName name) := inferInstanceAs (Decidable (_ ∨ _))

variable {name : String} {data : Bytes} {records : List ArtifactRecord} {db : Rows}
  {key k : StoryKey} {n d : Nat} {row : StoryRecord}

theorem uploadName_eq_self : uploadName name = name ↔ KeepsName name := by
  unfold uploadName KeepsName
  by_cases h : trimmed name = ""
  · rw [if_pos h]
    exact ⟨fun _ => .inr h, fun _ => rfl⟩
  · rw [if_neg h]
    exact ⟨.inl, fun h' => h'.resolve_right h⟩

/-! ## Filing -/

/-- The record holds the bytes of the artifact. -/
structure Filed (host : Host) (s : Library) (art : ArtifactInput) (record : ArtifactRecord) :
    Prop where
  read : ∃ desc data, art.toInput = .ok (desc, data) ∧ record.name = storedName art desc ∧
    record.sha256 = sha256Hex host data ∧
    (artifactFromRecord record).contents s.blobs = .ok data

variable {host : Host} {new : StoryKey → Option StoryLink → Prop} {s₀ s s' : Library}

theorem contents_kept {art : Artifact} (h : art.contents s.blobs = .ok data) (hb : BlobsKept s s') :
    art.contents s'.blobs = .ok data := by
  unfold Artifact.contents at h ⊢
  cases hs : art.source with
  | bytes d =>
    rw [hs] at h
    exact h
  | blob path =>
    rw [hs] at h
    dsimp only at h ⊢
    cases hp : s.blobs.lookup path with
    | none =>
      rw [hp] at h
      cases h
    | some d =>
      rw [hp] at h
      rw [hb path d hp]
      exact h

theorem Filed.kept {art : ArtifactInput} {record : ArtifactRecord} (h : Filed host s art record)
    (hb : BlobsKept s s') : Filed host s' art record := by
  obtain ⟨desc, data, hin, hname, hsum, hread⟩ := h.read
  exact ⟨desc, data, hin, hname, hsum, contents_kept hread hb⟩

/-- Empty contents are stored as nothing and read back as nothing. -/
theorem contents_inline (record : ArtifactRecord) (data : Bytes) (blobs : Table String Bytes)
    (hpath : record.blobPath = "") :
    (artifactFromRecord { record with inlineData := inlineCopy data }).contents blobs =
      .ok data := by
  unfold artifactFromRecord Artifact.contents inlineCopy
  by_cases h : data = []
  · subst h
    simp only [if_true, hpath, ne_eq, not_true_eq_false, if_false]
  · simp only [if_neg h]

theorem contents_blob (record : ArtifactRecord) (data : Bytes) (hnone : record.inlineData = none) :
    (artifactFromRecord { record with blobPath := host.newString s.drawn }).contents
      (s.saved host data).blobs = .ok data := by
  unfold artifactFromRecord Artifact.contents Library.saved
  simp only [hnone, ne_eq, host.newString_ne_empty, not_false_eq_true, if_true,
    Table.lookup_insert_eq]

theorem artifactRecord_files (art : ArtifactInput) (s : Library) :
    (artifactRecord host art).Ensures (Follows host new s₀) Eq BlobsKept
      (fun record s => Filed host s art record) s := by
  refine .check_bind fun input hin => .check_bind fun _ _ => ?_
  have hdraw : Moves host new s₀ Eq (drawString host) := drawString_moves
  refine (hdraw s).bind fun drawn s₁ _ => ?_
  unfold storeContents
  split
  · exact .pure ⟨input.1, input.2, hin, rfl, rfl, contents_inline _ _ _ rfl⟩
  · refine .tx_bind .refl fun s₂ path s₃ hs₂ _ h => ?_
    split at h <;> cases h
    refine ⟨hs₂.saved input.2, blobsKept_saved hs₂.named input.2, .pure ?_⟩
    exact ⟨input.1, input.2, hin, rfl, rfl, contents_blob _ _ rfl⟩

theorem artifactRecords_files (arts : List ArtifactInput) (s : Library) :
    (artifactRecords host arts).Ensures (Follows host new s₀) Eq BlobsKept
      (fun records s => List.Forall₂ (Filed host s) arts records) s := by
  induction arts generalizing s with
  | nil => exact .pure .nil
  | cons art arts ih =>
    refine (artifactRecord_files art s).bind fun record s₁ hrecord => ?_
    -- the record stays good while the others are made
    have hrest := (ih s₁).frame (F := fun s => Filed host s art record) hrecord
      (fun s s' _ hf hs => hs ▸ hf) fun s s' _ hf hb => hf.kept hb
    exact hrest.bind fun records s₂ hs₂ => .pure (.cons hs₂.2 hs₂.1)

/-- The chapter stands at the ordinal in the story, with records for its artifacts. -/
structure Appended (host : Host) (key : StoryKey) (ordinal : Int) (chap : Draft) (now : Time)
    (s : Library) (records : List ArtifactRecord) : Prop where
  filed : List.Forall₂ (Filed host s) chap.artifacts records
  valid : validateArtifacts [] records = .ok ()
  place : ∃ ks xs row, Displays s.rows key ks (xs ++ [⟨chap.body, records, now⟩]) ∧
    ordinal = xs.length ∧ s.rows.stories.lookup key = some row ∧
    ∀ l, row.link = some l → l.forkOrdinal < ordinal

theorem appendDraft_files (key : StoryKey) (ordinal : Int) (chap : Draft) (now : Time)
    (s : Library) :
    (appendDraft host key ordinal chap now).Ensures (Follows host new s₀) Eq BlobsKept
      (fun _ s => ∃ records, Appended host key ordinal chap now s records) s := by
  have hrecord : (chapterRecordFromStoryChapter host key ordinal chap).Ensures
      (Follows host new s₀) Eq BlobsKept
      (fun record s => ∃ records, record = ⟨key, ordinal, chap.body, records⟩ ∧
        List.Forall₂ (Filed host s) chap.artifacts records) s := by
    refine .check_bind fun _ _ => (artifactRecords_files chap.artifacts s).bind ?_
    exact fun records s₁ hfiled => .pure ⟨records, rfl, hfiled⟩
  refine hrecord.bind fun record s₁ h₁ => ?_
  obtain ⟨records, rfl, hfiled⟩ := h₁
  refine .tx .refl fun s₂ row s₃ hs₂ hs h => ?_
  subst hs
  obtain ⟨rows, hrows, rfl⟩ := rowTx_eq_ok h
  obtain ⟨hsince, ks, xs, hbefore, hord, hafter⟩ := appendChapter_since hs₂.rows.kept hrows
  obtain ⟨row₀, hrow₀, -, -, hvalid, -⟩ := appendChapter_eq_ok.1 hrows
  replace hrow₀ := (getStory_eq_ok.1 hrow₀).1
  replace hvalid := (validateChapterAppend_eq_ok.1 hvalid).2.2.2
  obtain ⟨row₁, hrow₁, hlink⟩ := hsince.rows.stays key row₀ hrow₀
  refine ⟨⟨hs₂.rows.trans hsince, hs₂.named, hs₂.blobs⟩, fun _ _ h => h, records, ?_, hvalid, ?_⟩
  · exact hfiled.imp fun art record hf => hf.kept fun _ _ h => h
  · refine ⟨ks, xs, row₁, hafter, hord, hrow₁, fun l hl => ?_⟩
    have hlt := hbefore.fork_lt hrow₀ (hlink.symm.trans hl)
    rw [show ordinal = xs.length from hord]
    exact hlt

/-! ## The runtime -/

/-- `ArtifactUpload`; there is no content where `Open` is nil. -/
structure Upload where
  name : String
  content : Option (Except Error Bytes)

/-- `toChapterArtifact(NewArtifactFromBytes(name, data))`. -/
def uploadInput (name : String) (data : Bytes) : ArtifactInput where
  id := ""
  name := name
  toInput := .ok (⟨name, "application/octet-stream", data.length, ""⟩, data)

/-- One round of the loop of `prepareChapterWrite`. -/
def prepareUpload (host : Host) (item : Upload) : Except Error (StoredArtifact × ArtifactInput) :=
  match item.content with
  | none => .error (.plain ("artifact " ++ quoted item.name ++ " is missing opener"))
  | some content => do
    let data ← content
    .ok (⟨item.name, sha256Hex host data, data.length⟩, uploadInput item.name data)

def prepareUploads (host : Host) :
    List Upload → Except Error (List (StoredArtifact × ArtifactInput))
  | [] => .ok []
  | item :: items => do
    let first ← prepareUpload host item
    let rest ← prepareUploads host items
    .ok (first :: rest)

/-- `prepareChapterWrite`, given that the payload is within its limit: the descriptors of the
chapter and what is to be stored. -/
def prepareChapterWrite (host : Host) (artifacts : List StoredArtifact) (uploads : List Upload) :
    Except Error (List StoredArtifact × List ArtifactInput) :=
  match uploads with
  | [] => do
    demand (.plain "put chapter with artifact descriptors but no artifact uploads") (artifacts = [])
    .ok ([], [])
  | _ :: _ => do
    let prepared ← prepareUploads host uploads
    (validateChapterArtifactDescriptors artifacts (prepared.map Prod.fst)).mapError .plain
    .ok (prepared.map Prod.fst, prepared.map Prod.snd)

/-- A chapter that is written under a lease, by `PutChapter` or at completion. `admitted` is the
outcome of the checks that come first (lease, next ordinal, size of the payload), `encode` checks
the chapter with its descriptors against the schema and encodes it; neither writes anything. -/
structure WriteRequest where
  jobKey : JobKey
  ordinal : Int
  artifacts : List StoredArtifact := []
  uploads : List Upload := []
  admitted : Except Error Unit := .ok ()
  encode : List StoredArtifact → Except Error Bytes
  now : Time

/-- `storyKeyForJob`. -/
def storyKeyForJob (key : JobKey) : StoryKey := ⟨key.tenantId, key.jobId⟩

/-- The way to the store that `PutChapter` and `ensureCompletionChapter` share. -/
def writeChapter (host : Host) (req : WriteRequest) : Call Library Error StoryRecord := do
  Call.check (demand (.plain "chapter ordinal must be >= 0") (0 ≤ req.ordinal))
  Call.check req.admitted
  let prepared ← Call.check (prepareChapterWrite host req.artifacts req.uploads)
  let body ← Call.check (req.encode prepared.1)
  saveChapter host (storyKeyForJob req.jobKey)
    { ordinal := req.ordinal, body := body, artifacts := prepared.2 } req.now

/-- The library and the jobs that have a row. `DeleteJobs` hides a job and keeps its row. -/
structure World where
  library : Library := {}
  jobs : List JobKey := []

/-- What happens to the world: a chapter is written, the runtime uses the chapter store in some
other way (submission and restart create and clone stories, task output is appended), or a job
row is inserted. -/
inductive Event where
  | write (req : WriteRequest)
  | store (op : Op)
  | publish (key : JobKey)

def World.next (host : Host) (w : World) : Event → World
  | .write req => { w with library := (Proc.alone (writeChapter host req) w.library).2 }
  | .store op => { w with library := exec host w.library op }
  | .publish key => { w with jobs := key :: w.jobs }

/-- The world after the events. -/
def World.after (host : Host) (events : List Event) (w : World) : World :=
  events.foldl (World.next host) w

theorem World.after_append (host : Host) (events later : List Event) (w : World) :
    w.after host (events ++ later) = (w.after host events).after host later :=
  List.foldl_append

/-- `ArtifactRef`. -/
structure ArtifactRef where
  jobKey : JobKey
  ordinal : Int
  name : String
  digest : String := ""
deriving DecidableEq, Repr

/-- The errors of the chapter store as `OpenArtifact` returns them. -/
def openError : Error → Err
  | .notFound _ => .chapterNotFound
  | .plain text => .store text
  | _ => .store "chapter store"

/-- The artifact that `OpenArtifact` looks for; every stored one has a digest. -/
def ArtifactRef.matches (ref : ArtifactRef) (art : Artifact) : Bool :=
  art.name = ref.name && (ref.digest = "" || art.sha256 = "" || ref.digest = art.sha256)

/-- `OpenArtifact`. -/
def openArtifact (w : World) (ref : ArtifactRef) : Except Err Artifact := do
  demand .jobNotFound (ref.jobKey ∈ w.jobs)
  let ch ← (chapter w.library (storyKeyForJob ref.jobKey) ref.ordinal).mapError openError
  match ch.artifacts.find? ref.matches with
  | none =>
    .error (.invalid ("artifact " ++ ref.name ++ " not found for job " ++ ref.jobKey.jobId ++
      " ordinal " ++ toString ref.ordinal))
  | some art => .ok art

/-- The bytes that the reader of `OpenArtifact` gives. -/
def readArtifact (w : World) (ref : ArtifactRef) : Except Err Bytes := do
  let art ← openArtifact w ref
  (art.contents w.library.blobs).mapError openError

/-! ## From the upload to the reader -/

theorem uploads_prepared {items : List Upload} {prepared : List (StoredArtifact × ArtifactInput)}
    (h : prepareUploads host items = .ok prepared) (hmem : ⟨name, some (.ok data)⟩ ∈ items) :
    uploadInput name data ∈ prepared.map Prod.snd := by
  induction items generalizing prepared with
  | nil => cases hmem
  | cons item items ih =>
    obtain ⟨first, hfirst, h⟩ := bind_eq_ok.1 h
    obtain ⟨rest, hrest, rfl⟩ := map_eq_ok.1 h
    obtain rfl | hmem := List.mem_cons.1 hmem
    · cases hfirst
      exact List.mem_cons_self
    · exact List.mem_cons_of_mem _ (ih hrest hmem)

theorem prepareChapterWrite_inputs {artifacts : List StoredArtifact} {uploads : List Upload}
    {prepared : List StoredArtifact × List ArtifactInput}
    (h : prepareChapterWrite host artifacts uploads = .ok prepared)
    (hmem : ⟨name, some (.ok data)⟩ ∈ uploads) : uploadInput name data ∈ prepared.2 := by
  cases uploads with
  | nil => cases hmem
  | cons item items =>
    obtain ⟨all, hall, h⟩ := bind_eq_ok.1 h
    obtain ⟨_, -, rfl⟩ := map_eq_ok.1 h
    exact uploads_prepared hall hmem

/-- What a successful write leaves. -/
def Wrote (host : Host) (req : WriteRequest) (s : Library) : Prop :=
  ∃ prepared body records, prepareChapterWrite host req.artifacts req.uploads = .ok prepared ∧
    0 ≤ req.ordinal ∧
    Appended host (storyKeyForJob req.jobKey) req.ordinal
      { ordinal := req.ordinal, body := body, artifacts := prepared.2 } req.now s records

theorem writeChapter_wrote (req : WriteRequest) (s : Library) :
    (writeChapter host req).Ensures (Follows host new s₀) Eq BlobsKept
      (fun _ s => Wrote host req s) s := by
  refine .check_bind fun _ hord => .check_bind fun _ _ => .check_bind fun prepared hprep =>
    .check_bind fun body _ => .check_bind fun _ _ => ?_
  have hpos : 0 ≤ req.ordinal := demand_eq_ok.1 hord
  unfold nextOrdinal
  rw [if_pos hpos]
  refine (appendDraft_files _ _ _ _ s).imp fun row s' h => ?_
  obtain ⟨records, hrecords⟩ := h
  exact ⟨prepared, body, records, hprep, hpos, hrecords⟩

theorem named_names {seen : List String} (h : validateArtifacts seen records = .ok ()) :
    (records.map (·.name)).Nodup ∧ ∀ r ∈ records, r.name ∉ seen := by
  induction records generalizing seen with
  | nil => exact ⟨List.nodup_nil, fun r hr => nomatch hr⟩
  | cons record records ih =>
    obtain ⟨_, hfirst, hrest⟩ := bind_eq_ok.1 h
    obtain ⟨hnodup, hfresh⟩ := ih hrest
    have hnew : record.name ∉ seen := by
      unfold validateArtifact at hfirst
      simp only [demand_bind_eq_ok] at hfirst
      exact hfirst.2.1
    refine ⟨List.nodup_cons.2 ⟨?_, hnodup⟩, fun r hr => ?_⟩
    · intro hmem
      obtain ⟨r, hr, hname⟩ := List.mem_map.1 hmem
      exact hfresh r hr (hname ▸ List.mem_cons_self)
    · obtain rfl | hr := List.mem_cons.1 hr
      · exact hnew
      · exact fun hseen => hfresh r hr (List.mem_cons_of_mem _ hseen)

/-- Every artifact has its record. -/
theorem exists_filed {arts : List ArtifactInput} (h : List.Forall₂ (Filed host s) arts records)
    {art : ArtifactInput} (hmem : art ∈ arts) : ∃ record ∈ records, Filed host s art record := by
  induction h with
  | nil => cases hmem
  | @cons a r arts records hfirst _ ih =>
    obtain rfl | hmem := List.mem_cons.1 hmem
    · exact ⟨r, List.mem_cons_self, hfirst⟩
    · obtain ⟨record, hrecord, hf⟩ := ih hmem
      exact ⟨record, List.mem_cons_of_mem _ hrecord, hf⟩

/-- Among records with different names the search finds the one it is for. -/
theorem find_record {p : Artifact → Bool} {record : ArtifactRecord}
    (hn : (records.map (·.name)).Nodup) (hmem : record ∈ records)
    (hp : p (artifactFromRecord record) = true)
    (hname : ∀ r, p (artifactFromRecord r) = true → r.name = record.name) :
    (records.map artifactFromRecord).find? p = some (artifactFromRecord record) := by
  induction records with
  | nil => cases hmem
  | cons r records ih =>
    rw [List.map_cons, List.nodup_cons] at hn
    obtain rfl | hmem := List.mem_cons.1 hmem
    · exact List.find?_cons_of_pos hp
    · rw [List.map_cons, List.find?_cons_of_neg, ih hn.2 hmem]
      intro hr
      exact hn.1 (hname r hr ▸ List.mem_map.2 ⟨record, hmem, rfl⟩)

/-! ## Jobs that have the chapter -/

/-- The story `k` has chapter `n` of the story `key`, through that many restarts which kept it. -/
inductive Inherits (db : Rows) (key : StoryKey) (n : Int) : Nat → StoryKey → Prop where
  | self : Inherits db key n 0 key
  | clone {d : Nat} {k : StoryKey} {row : StoryRecord} {l : StoryLink}
      (story : db.stories.lookup k = some row) (link : row.link = some l)
      (kept : n ≤ l.forkOrdinal) (rest : Inherits db key n d l.key) : Inherits db key n (d + 1) k

theorem Inherits.reaches {F : StoryKey → Option (Linked.Node StoryKey ChapterRow)} {c : ChapterRow}
    (h : Inherits db key n d k) (hF : Represents db F) (hkey : Linked.Reaches F 0 key n key c) :
    Linked.Reaches F d k n key c := by
  induction h with
  | self => exact hkey
  | @clone d k row l story link kept rest ih =>
    obtain ⟨⟨ndlink, own⟩, hnd, hshow⟩ := hF.present k row story
    have hlink : ndlink = some l.kept := by
      have hmap := hshow.link
      rw [link] at hmap
      exact hmap
    subst hlink
    have hlt : n < (l.forkOrdinal + 1).toNat := by omega
    exact .base hnd hlt ih

/-- The written chapter is found by every job that has it, within 1024 links. -/
theorem chapter_of_wrote {chap : Draft} {now : Time} {ordinal : Int}
    (h : Appended host key ordinal chap now s records) (hs : Follows host new s s')
    (hd : Inherits s'.rows key ordinal d k) (hkey : validateKey k = .ok ())
    (hlive : s'.rows.getStory k = .ok row) :
    chapter s' k ordinal =
      if d < maxLinkDepth then .ok (chapterFromRecord ordinal ⟨chap.body, records, now⟩)
      else .error (.plain "chapterstore: story link chain exceeds 1024 levels") := by
  obtain ⟨ks, xs, row₁, hshown, rfl, hrow₁, hfork⟩ := h.place
  obtain ⟨ys, F, hF, hs₂⟩ := hs.rows.grows _ _ _ hshown
  obtain ⟨row₂, hrow₂, hlink⟩ := hs.rows.rows.stays _ _ hrow₁
  obtain ⟨nd, hnd, hshow⟩ := hF.present _ _ hrow₂
  have hentry : (xs ++ [⟨chap.body, records, now⟩] ++ ys)[xs.length]? =
      some ⟨chap.body, records, now⟩ := by simp
  have hstart : nd.start ≤ xs.length := by
    cases hl : row₂.link with
    | none =>
      have hnone := hshow.link
      rw [hl] at hnone
      unfold Linked.Node.start
      rw [hnone]
      exact Nat.zero_le _
    | some l =>
      have hlt := hfork l (hlink.symm.trans hl)
      have hpos := hshow.fork l hl
      rw [hshow.start hl]
      omega
  have hown : Linked.Reaches F 0 key xs.length key ⟨chap.body, records, now⟩ :=
    .own hnd hstart (hs₂.getElem?_own hnd hstart hentry)
  exact chapter_of_reaches hF (hd.reaches hF hown) hkey hlive

/-! ## Worlds -/

/-- Stories have keys that the store accepts. -/
def ValidKey (k : StoryKey) (_ : Option StoryLink) : Prop := validateKey k = .ok ()

variable {w : World}

theorem World.next_follows (hk : Kept w.library.rows) (hn : Named host w.library) (e : Event) :
    Follows host ValidKey w.library (w.next host e).library := by
  cases e with
  | write req =>
    exact (Proc.Sat.alone (writeChapter_wrote req w.library) (fun _ => rfl) (.refl hk hn)).1
  | store op => exact (exec_follows hk hn op).mono fun k l hmakes => hmakes.validateKey
  | publish key => exact .refl hk hn

theorem World.after_follows (hk : Kept w.library.rows) (hn : Named host w.library)
    (events : List Event) : Follows host ValidKey w.library (w.after host events).library := by
  induction events generalizing w with
  | nil => exact .refl hk hn
  | cons e events ih =>
    have hstep := World.next_follows hk hn e
    exact hstep.trans (ih hstep.rows.kept hstep.named)

/-- The world that begins with nothing. -/
theorem World.after_empty (events : List Event) :
    Follows host ValidKey {} (World.after host events {}).library :=
  World.after_follows (w := {}) kept_empty named_empty events

/-- The chapter of a write, in a world some time after it, for a job that has it. -/
theorem chapter_after_write {before after : List Event} {req : WriteRequest}
    (written : (Proc.alone (writeChapter host req) (World.after host before {}).library).1 =
      .ok row)
    (later : w = World.after host (before ++ .write req :: after) {}) {row' : StoryRecord}
    (hd : Inherits w.library.rows (storyKeyForJob req.jobKey) req.ordinal d k)
    (hlive : w.library.rows.getStory k = .ok row') :
    ∃ prepared body records,
      prepareChapterWrite host req.artifacts req.uploads = .ok prepared ∧
      (records.map (·.name)).Nodup ∧
      List.Forall₂ (Filed host w.library) prepared.2 records ∧
      chapter w.library k req.ordinal =
        if d < maxLinkDepth then
          .ok (chapterFromRecord req.ordinal ⟨body, records, req.now⟩)
        else .error (.plain "chapterstore: story link chain exceeds 1024 levels") := by
  have hstart := @World.after_empty host before
  have hcall := Proc.Sat.alone (writeChapter_wrote req (World.after host before {}).library)
    (fun _ => rfl) (.refl hstart.rows.kept hstart.named : Follows host ValidKey _ _)
  obtain ⟨prepared, body, records, hprep, -, happ⟩ := hcall.2 row written
  have hlater : Follows host ValidKey
      ((World.after host before {}).next host (.write req)).library w.library := by
    rw [later, World.after_append]
    exact World.after_follows hcall.1.rows.kept hcall.1.named after
  have hkey : validateKey k = .ok () := by
    have hall := @World.after_empty host (before ++ .write req :: after)
    rw [← later] at hall
    obtain ⟨_, hnone, -⟩ | hvalid := hall.rows.rows.made k row' (getStory_eq_ok.1 hlive).1
    · cases hnone
    · exact hvalid
  refine ⟨prepared, body, records, hprep, (named_names happ.valid).1, ?_, ?_⟩
  · exact happ.filed.imp fun art record hf => hf.kept hlater.blobs
  · exact chapter_of_wrote happ hlater hd hkey hlive

/-- An uploaded file can be read back: in every world after the write, on every job that has the
chapter through fewer than 1024 restarts, by the name it was uploaded under if trimming keeps
that name. -/
theorem read_uploaded (host : Host) (before after : List Event) (req : WriteRequest)
    (row : StoryRecord)
    (written : (Proc.alone (writeChapter host req) (World.after host before {}).library).1 =
      .ok row)
    (name : String) (data : Bytes) (upload : ⟨name, some (.ok data)⟩ ∈ req.uploads)
    (kept : KeepsName name) (w : World)
    (later : w = World.after host (before ++ .write req :: after) {}) (job : JobKey)
    (published : job ∈ w.jobs)
    (live : ∃ row, w.library.rows.getStory (storyKeyForJob job) = .ok row) (restarts : Nat)
    (has : Inherits w.library.rows (storyKeyForJob req.jobKey) req.ordinal restarts
      (storyKeyForJob job))
    (few : restarts < 1024) (digest : String)
    (matching : digest = "" ∨ digest = sha256Hex host data) :
    readArtifact w ⟨job, req.ordinal, name, digest⟩ = .ok data := by
  obtain ⟨row', hlive⟩ := live
  obtain ⟨prepared, body, records, hprep, hnodup, hfiled, hread⟩ :=
    chapter_after_write written later has hlive
  rw [if_pos (show restarts < maxLinkDepth from few)] at hread
  -- the record of this upload
  have hin := prepareChapterWrite_inputs hprep upload
  obtain ⟨record, hrecord, hf⟩ := exists_filed hfiled hin
  obtain ⟨desc, data', hinput, hname, hsum, hcontents⟩ := hf.read
  cases hinput
  have hkept : record.name = name := hname.trans (uploadName_eq_self.2 kept)
  have hfind : (records.map artifactFromRecord).find?
      (ArtifactRef.matches ⟨job, req.ordinal, name, digest⟩) =
        some (artifactFromRecord record) := by
    refine find_record hnodup hrecord ?_ fun r hr => ?_
    · simp only [ArtifactRef.matches, Bool.and_eq_true, Bool.or_eq_true, decide_eq_true_eq]
      refine ⟨hkept, ?_⟩
      obtain rfl | rfl := matching
      · exact .inl (.inl rfl)
      · exact .inr hsum.symm
    · simp only [ArtifactRef.matches, Bool.and_eq_true, decide_eq_true_eq] at hr
      exact hr.1.trans hkept.symm
  have hjob : demand Err.jobNotFound (job ∈ w.jobs) = .ok () := demand_eq_ok.2 published
  unfold readArtifact openArtifact
  rw [hjob, hread]
  simp only [bind, Except.bind, Except.mapError, chapterFromRecord, hfind, hcontents]

/-! ### Where it does not hold -/

/-- A clone of a story with one chapter, without a chapter of its own. -/
theorem exec_clone {source dest : StoryKey} (hdest : validateKey dest = .ok ())
    (hsource : validateKey source = .ok ()) (hne : source ≠ dest)
    (hblank : blank dest.anthologyID = false) (hlive : s.rows.getStory source = .ok row)
    (hlatest : row.latestOrdinal = 0) (hfree : s.rows.stories.lookup dest = none) (now : Time) :
    (exec host s (.cloneStory source { destinationKey := dest } now)).rows.stories =
      s.rows.stories.insert dest (Rows.linkedStory dest ⟨source, 0⟩ now) := by
  have hkey : CloneOptions.dest { destinationKey := dest } source = dest := by
    unfold CloneOptions.dest
    rw [hblank]
    rfl
  have hfork : forkOrdinal { destinationKey := dest } row = .ok 0 := by
    unfold forkOrdinal
    rw [hlatest]
    rfl
  have hmade : Rows.createLinkedStory dest ⟨source, 0⟩ now s.rows = .ok (_, _) :=
    createLinkedStory_eq_ok.2 ⟨validateStoryLink_ok hsource hne (Int.le_refl 0),
      ⟨row, (getStory_eq_ok.1 hlive).1, Int.le_of_eq hlatest.symm⟩, hfree, rfl, rfl⟩
  show (Proc.alone (cloneStory host source { destinationKey := dest } now) s).2.rows.stories = _
  unfold cloneStory rowQuery rowTx
  rw [hkey, Call.alone_check_bind hsource, Call.alone_check_bind (mapError_eq_ok.2 hdest),
    Call.alone_query_bind (q := fun s : Library =>
      (s.rows.getStory source).mapError translateRowError)
      (mapError_eq_ok.2 hlive), Call.alone_check_bind hfork,
    Call.alone_tx_bind (mapError_eq_ok.2 (Tx.zoom_eq_ok.2 ⟨_, hmade, rfl⟩))]
  rfl

/-- The job that was restarted `n` times. -/
def restartedJob (n : Nat) : JobKey := ⟨"t", String.ofList (List.replicate (n + 1) 'j')⟩

/-- The restart of that job. -/
def restart (n : Nat) : Event :=
  .store (.cloneStory (storyKeyForJob (restartedJob n))
    { destinationKey := storyKeyForJob (restartedJob (n + 1)) } 3)

/-- Restarts of a job, each from the one before. -/
def restarts (n : Nat) : List Event :=
  (List.range n).map fun i =>
    .store (.cloneStory (storyKeyForJob (restartedJob i))
      { destinationKey := storyKeyForJob (restartedJob (i + 1)) } 3)

theorem storyKey_injective {m : Nat}
    (h : storyKeyForJob (restartedJob m) = storyKeyForJob (restartedJob n)) : m = n := by
  have hid := congrArg StoryKey.storyID h
  have hlist := String.ofList_injective hid
  have hlen := congrArg List.length hlist
  simp only [List.length_replicate] at hlen
  omega

theorem validateKey_restartedJob (n : Nat) :
    validateKey (storyKeyForJob (restartedJob n)) = .ok () := by
  have htenant : "t" ≠ "" := by decide
  refine demand_bind_eq_ok.2 ⟨htenant, demand_eq_ok.2 fun h => ?_⟩
  have hlist := String.ofList_injective (h.trans String.ofList_nil.symm)
  cases hlist

/-- The last restart has the first job's chapter through all the others. -/
structure Restarted (n : Nat) (w : World) : Prop where
  has : Inherits w.library.rows (storyKeyForJob (restartedJob 0)) 0 n
    (storyKeyForJob (restartedJob n))
  live : ∃ row, w.library.rows.getStory (storyKeyForJob (restartedJob n)) = .ok row ∧
    row.latestOrdinal = 0
  free : ∀ m, n < m → w.library.rows.stories.lookup (storyKeyForJob (restartedJob m)) = none

/-- A story that is added does not matter to the others. -/
theorem Inherits.insert {db' : Rows} {dest : StoryKey} {n : Int} (h : Inherits db key n d k)
    (hfree : db.stories.lookup dest = none) (hdb : db'.stories = db.stories.insert dest row) :
    Inherits db' key n d k := by
  induction h with
  | self => exact .self
  | @clone d k row' l story link kept rest ih =>
    have hne : k ≠ dest := by
      rintro rfl
      cases hfree.symm.trans story
    refine .clone ?_ link kept ih
    rw [hdb, Table.lookup_insert_eq, if_neg hne]
    exact story

theorem Restarted.next (h : Restarted n w) : Restarted (n + 1) (w.next host (restart n)) := by
  obtain ⟨row, hlive, hlatest⟩ := h.live
  have hfree := h.free (n + 1) (Nat.lt_succ_self n)
  have hne {m : Nat} (hm : m ≠ n + 1) :
      storyKeyForJob (restartedJob m) ≠ storyKeyForJob (restartedJob (n + 1)) :=
    fun he => hm (storyKey_injective he)
  have hmade := @exec_clone row host w.library _ _ (validateKey_restartedJob (n + 1))
    (validateKey_restartedJob n) (hne (by omega))
    (show blank "t" = false by decide +kernel) hlive hlatest hfree 3
  have hlookup (k : StoryKey) : (w.next host (restart n)).library.rows.stories.lookup k =
        if k = storyKeyForJob (restartedJob (n + 1)) then
          some (Rows.linkedStory (storyKeyForJob (restartedJob (n + 1)))
            ⟨storyKeyForJob (restartedJob n), 0⟩ 3)
        else w.library.rows.stories.lookup k := by
    rw [← Table.lookup_insert_eq, ← hmade]
    rfl
  refine ⟨?_, ?_, fun m hm => ?_⟩
  · refine .clone ((hlookup _).trans (if_pos rfl)) rfl (Int.le_refl 0) ?_
    exact h.has.insert hfree hmade
  · exact ⟨_, getStory_eq_ok.2 ⟨(hlookup _).trans (if_pos rfl), rfl⟩, rfl⟩
  · rw [hlookup, if_neg (hne (by omega))]
    exact h.free m (by omega)

theorem Restarted.all (h : Restarted 0 w) (n : Nat) : Restarted n (w.after host (restarts n)) := by
  induction n with
  | zero => exact h
  | succ n ih =>
    have hsplit : restarts (n + 1) = restarts n ++ [restart n] := by
      unfold restarts
      rw [List.range_succ, List.map_append]
      rfl
    rw [hsplit, World.after_append]
    exact ih.next

/-- A job with one chapter and a file. -/
def fileRequest (name : String) : WriteRequest where
  jobKey := restartedJob 0
  ordinal := 0
  uploads := [⟨name, some (.ok [7])⟩]
  encode _ := .ok [1]
  now := 2

def fileStory : List Event := [.store (.createStory (storyKeyForJob (restartedJob 0)) none 1)]

/-- The row of its story. -/
def fileRow : StoryRecord :=
  { key := ⟨"t", "j"⟩, createdAt := 1, updatedAt := 2, chapterCount := 1, latestOrdinal := 0 }

theorem file_written :
    (Proc.alone (writeChapter sampleHost (fileRequest "a"))
      (World.after sampleHost fileStory {}).library).1 = .ok fileRow := by
  decide +kernel

theorem restarted_file :
    Restarted 0 (World.after sampleHost (fileStory ++ [.write (fileRequest "a")]) {}) := by
  have hstories : (World.after sampleHost (fileStory ++ [.write (fileRequest "a")])
      {}).library.rows.stories =
        (∅ : Table StoryKey StoryRecord).insert (storyKeyForJob (restartedJob 0)) fileRow :=
    AList.ext (by decide +kernel)
  refine ⟨.self, ⟨fileRow, ?_, rfl⟩, fun m hm => ?_⟩
  · refine getStory_eq_ok.2 ⟨?_, rfl⟩
    rw [hstories]
    exact AList.lookup_insert _
  · have hne : storyKeyForJob (restartedJob m) ≠ storyKeyForJob (restartedJob 0) := by
      intro he
      have hzero := storyKey_injective he
      omega
    rw [hstories, Table.lookup_insert_eq, if_neg hne]
    rfl

/-- The job with the file was restarted `n` times and the last restart was published. -/
def restartedWorld (n : Nat) : World :=
  World.after sampleHost
    (fileStory ++ .write (fileRequest "a") :: (restarts n ++ [.publish (restartedJob n)])) {}

theorem restartedWorld_spec (n : Nat) :
    restartedJob n ∈ (restartedWorld n).jobs ∧
      Inherits (restartedWorld n).library.rows (storyKeyForJob (restartedJob 0)) 0 n
        (storyKeyForJob (restartedJob n)) ∧
      ∃ row, (restartedWorld n).library.rows.getStory (storyKeyForJob (restartedJob n)) =
        .ok row := by
  have hsplit : restartedWorld n =
      ((World.after sampleHost (fileStory ++ [.write (fileRequest "a")]) {}).after sampleHost
        (restarts n)).next sampleHost (.publish (restartedJob n)) := by
    unfold restartedWorld
    rw [List.append_cons, ← List.append_assoc, World.after_append, World.after_append]
    rfl
  have hall : Restarted n ((World.after sampleHost (fileStory ++ [.write (fileRequest "a")])
      {}).after sampleHost (restarts n)) := restarted_file.all n
  obtain ⟨row, hlive, -⟩ := hall.live
  rw [hsplit]
  exact ⟨List.mem_cons_self, hall.has, row, hlive⟩

theorem read_uploaded_restarted :
    readArtifact (restartedWorld 1) ⟨restartedJob 1, 0, "a", ""⟩ = .ok [7] := by
  obtain ⟨hpublished, hhas, hlive⟩ := restartedWorld_spec 1
  exact read_uploaded sampleHost fileStory (restarts 1 ++ [.publish (restartedJob 1)])
    (fileRequest "a") fileRow file_written "a" [7] List.mem_cons_self (by decide +kernel)
    (restartedWorld 1) rfl (restartedJob 1) hpublished hlive 1 hhas (by decide) "" (.inl rfl)

/-- The reader of a chapter gives up after 1024 links. -/
theorem read_restarted (n : Nat) (hn : 1024 ≤ n) :
    readArtifact (restartedWorld n) ⟨restartedJob n, 0, "a", ""⟩ =
      .error (.store "chapterstore: story link chain exceeds 1024 levels") := by
  obtain ⟨hpublished, hhas, row, hlive⟩ := restartedWorld_spec n
  obtain ⟨prepared, body, records, -, -, -, hread⟩ :=
    chapter_after_write file_written rfl hhas hlive
  rw [if_neg (show ¬ n < maxLinkDepth by unfold maxLinkDepth; omega)] at hread
  have hjob : demand Err.jobNotFound (restartedJob n ∈ (restartedWorld n).jobs) = .ok () :=
    demand_eq_ok.2 hpublished
  unfold readArtifact openArtifact
  rw [hjob]
  show ((chapter (restartedWorld n).library _ 0).mapError openError >>= _) >>= _ = _
  rw [show chapter (restartedWorld n).library (storyKeyForJob (restartedJob n)) 0 = _ from hread]
  rfl

/-- A file cannot be read back under a name that trimming changes, nor through 1024 restarts. -/
theorem upload_not_found :
    ((∃ row, (Proc.alone (writeChapter sampleHost (fileRequest " a"))
        (World.after sampleHost fileStory {}).library).1 = .ok row) ∧
      readArtifact (World.after sampleHost
        (fileStory ++ .write (fileRequest " a") :: [.publish (restartedJob 0)]) {})
        ⟨restartedJob 0, 0, " a", ""⟩ =
          .error (.invalid "artifact  a not found for job j ordinal 0")) ∧
    (∃ row, (Proc.alone (writeChapter sampleHost (fileRequest "a"))
        (World.after sampleHost fileStory {}).library).1 = .ok row) ∧
      readArtifact (restartedWorld 1024) ⟨restartedJob 1024, 0, "a", ""⟩ =
          .error (.store "chapterstore: story link chain exceeds 1024 levels") := by
  refine ⟨⟨⟨fileRow, ?_⟩, ?_⟩, ⟨fileRow, file_written⟩, read_restarted 1024 (Nat.le_refl 1024)⟩
  · decide +kernel
  · decide +kernel

end JobDB.ChapterStore
