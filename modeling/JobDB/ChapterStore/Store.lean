import JobDB.ChapterStore.Rows
import JobDB.Lib.Process

/-!
# The chapter store

`internal/chapterstore/store.go` over the row store and a blob store
(`internal/chapterstore/blobstore/fs.go`). A call makes several steps, each of them atomic:
it queries the rows, commits one transaction of the row store, saves a blob or draws an
identifier. A call that fails leaves what its earlier steps have done; `CreateStory` and
`CloneStory` with an initial chapter write the story and the chapter in two transactions.

Reading is a function of the state: nothing that is written later changes what a reader has
found (`JobDB.ChapterStore.Linked`).

`Host` collects what the store takes from outside: its configuration, the digest, the
identifiers of `uuid.NewString`, which is taken to return a new text every time, and which files
cannot be saved.
-/

namespace JobDB.ChapterStore

structure Host where
  /-- `Config.MaxInlineArtifactBytes`. -/
  maxInlineArtifactBytes : Int
  /-- `sha256.Sum256`. -/
  sum256 : Bytes → Vector UInt8 32
  /-- `uuid.NewString`, by the number of identifiers drawn before. -/
  newString : Nat → String
  newString_injective : Function.Injective newString
  newString_ne_empty : ∀ n, newString n ≠ ""
  /-- Why `FS.Save` fails, by the number of identifiers drawn before. -/
  saveError : Nat → Option Error := fun _ => none

/-- The rows, the files of the blob store, and how many identifiers were drawn. -/
structure Library where
  rows : Rows := {}
  blobs : Table String Bytes := ∅
  drawn : Nat := 0

/-! ## Artifacts -/

/-- `artifact.Descriptor`. -/
structure Descriptor where
  name : String
  contentType : String
  sizeBytes : Int
  sha256 : String
deriving DecidableEq, Repr

/-- What the store asks an artifact for that is to be stored: `ID`, `Name`, and the descriptor
and the bytes of `ToInput`. -/
structure ArtifactInput where
  id : String
  name : String
  toInput : Except Error (Descriptor × Bytes)

/-- A chapter that is to be stored; a negative ordinal asks for the next one. -/
structure Draft where
  ordinal : Int := -1
  body : Bytes
  artifacts : List ArtifactInput := []

/-- Where the bytes of a stored artifact are. -/
inductive Source where
  | bytes (data : Bytes)
  | blob (path : String)
deriving DecidableEq, Repr

/-- A stored artifact. -/
structure Artifact where
  id : String
  name : String
  contentType : String
  sizeBytes : Int
  sha256 : String
  source : Source
deriving DecidableEq, Repr

/-- A stored chapter, `story.NewPersistedChapter`. -/
structure Chapter where
  ordinal : Int
  body : Bytes
  artifacts : List Artifact
deriving DecidableEq, Repr

/-- `fmt.Sprintf("%x", ...)`. -/
def hexBytes (bytes : List UInt8) : String :=
  String.ofList (bytes.flatMap fun b =>
    [Nat.digitChar (b.toNat / 16), Nat.digitChar (b.toNat % 16)])

def sha256Hex (host : Host) (data : Bytes) : String := hexBytes (host.sum256 data).toList

/-- The limit that `New` sets. -/
def maxInline (host : Host) : Int :=
  if host.maxInlineArtifactBytes ≤ 0 then 256 else host.maxInlineArtifactBytes

/-- `fallback`. -/
def fallback (value default : String) : String := if blank value then default else value

/-! ## Steps -/

/-- `translateRowError`. -/
def translateRowError : Error → Error
  | .storyNotFound => .notFound .storyNotFound
  | .chapterNotFound => .notFound .chapterNotFound
  | .storyExists => .conflict .storyExists
  | .chapterExists => .conflict .chapterExists
  | .storyFinalized => .conflict .storyFinalized
  | .invalidRecord detail => .conflict (.invalidRecord detail)
  | e => e

/-- A transaction of the row store. -/
def rowTx {α : Type} (m : Tx Rows Error α) : Call Library Error α :=
  Call.tx fun s =>
    (m.zoom Library.rows (fun s rows => { s with rows }) s).mapError translateRowError

/-- A query of the row store. -/
def rowQuery {α : Type} (f : Rows → Except Error α) : Call Library Error α :=
  Call.query fun s => (f s.rows).mapError translateRowError

/-- `uuid.NewString()`. -/
def drawString (host : Host) : Call Library Error String :=
  Call.tx fun s => .ok (host.newString s.drawn, { s with drawn := s.drawn + 1 })

/-- `FS.Save`: the file gets a new identifier for its name. -/
def saveBlob (host : Host) (data : Bytes) : Call Library Error String :=
  Call.tx fun s =>
    match host.saveError s.drawn with
    | some e => .error e
    | none =>
      let path := host.newString s.drawn
      .ok (path, { s with blobs := s.blobs.insert path data, drawn := s.drawn + 1 })

/-! ## Writing -/

/-- `Key.Validate`. -/
def validateKey (key : StoryKey) : Except Error Unit := do
  demand (.plain "story: anthology ID is required") (key.anthologyID ≠ "")
  demand (.plain "story: story ID is required") (key.storyID ≠ "")

/-- `strings.TrimSpace` of a name. -/
def trimmed (name : String) : String := String.ofList (trimSpace name.toList)

/-- The name under which an artifact is stored. -/
def storedName (art : ArtifactInput) (desc : Descriptor) : String :=
  if trimmed desc.name = "" then art.name else trimmed desc.name

/-- The checks of `artifactRecord` on what the artifact says of itself. -/
def checkArtifact (host : Host) (name : String) (desc : Descriptor) (data : Bytes) :
    Except Error Unit := do
  demand (.plain "chapterstore: artifact name is required") (name ≠ "")
  demand (.plain ("chapterstore: artifact " ++ name ++ " size mismatch"))
    (0 < desc.sizeBytes → desc.sizeBytes = data.length)
  demand (.plain ("chapterstore: artifact " ++ name ++ " sha256 mismatch"))
    (desc.sha256 ≠ "" → desc.sha256 = sha256Hex host data)

/-- The record without the bytes. -/
def artifactHeader (host : Host) (art : ArtifactInput) (desc : Descriptor) (data : Bytes)
    (drawn : String) : ArtifactRecord where
  id := fallback art.id drawn
  name := storedName art desc
  contentType := fallback desc.contentType "application/octet-stream"
  sizeBytes := data.length
  sha256 := sha256Hex host data

/-- The copy of an empty slice is nil. -/
def inlineCopy (data : Bytes) : Option Bytes := if data = [] then none else some data

/-- Small contents go into the row, large ones into a blob. -/
def storeContents (host : Host) (record : ArtifactRecord) (data : Bytes) :
    Call Library Error ArtifactRecord :=
  if (data.length : Int) ≤ maxInline host then pure { record with inlineData := inlineCopy data }
  else do
    let path ← saveBlob host data
    pure { record with blobPath := path }

def artifactRecord (host : Host) (art : ArtifactInput) : Call Library Error ArtifactRecord := do
  let input ← Call.check art.toInput
  Call.check (checkArtifact host (storedName art input.1) input.1 input.2)
  let drawn ← drawString host
  storeContents host (artifactHeader host art input.1 input.2 drawn) input.2

def artifactRecords (host : Host) : List ArtifactInput → Call Library Error (List ArtifactRecord)
  | [] => pure []
  | art :: arts => do
    let record ← artifactRecord host art
    let records ← artifactRecords host arts
    pure (record :: records)

def chapterRecordFromStoryChapter (host : Host) (key : StoryKey) (ordinal : Int) (chap : Draft) :
    Call Library Error ChapterRecord := do
  Call.check (demand (.plain "chapterstore: chapter body missing") (chap.body ≠ []))
  let artifacts ← artifactRecords host chap.artifacts
  pure { key, ordinal, body := chap.body, artifacts }

/-- The chapter is prepared, then appended. -/
def appendDraft (host : Host) (key : StoryKey) (ordinal : Int) (chap : Draft) (now : Time) :
    Call Library Error StoryRecord := do
  let record ← chapterRecordFromStoryChapter host key ordinal chap
  rowTx (Rows.appendChapter record now)

/-- `Store.CreateStory`. -/
def createStory (host : Host) (key : StoryKey) (initial : Option Draft) (now : Time) :
    Call Library Error StoryRecord := do
  Call.check (validateKey key)
  let row ← rowTx (Rows.createStory key now)
  match initial with
  | none => pure row
  | some chap => appendDraft host key 0 chap now

/-- The ordinal that `SaveChapter` writes to. -/
def nextOrdinal (key : StoryKey) (chap : Draft) : Call Library Error Int :=
  if 0 ≤ chap.ordinal then pure chap.ordinal
  else do
    let row ← rowQuery (Rows.getStory key)
    pure row.chapterCount

/-- `Store.SaveChapter`. -/
def saveChapter (host : Host) (key : StoryKey) (chap : Draft) (now : Time) :
    Call Library Error StoryRecord := do
  Call.check (validateKey key)
  let ordinal ← nextOrdinal key chap
  appendDraft host key ordinal chap now

/-- `storyHandle.AppendChapter`, of a handle that last saw `count` chapters. -/
def appendChapter (host : Host) (key : StoryKey) (count : Int) (chap : Draft) (now : Time) :
    Call Library Error StoryRecord :=
  appendDraft host key (if chap.ordinal < 0 then count else chap.ordinal) chap now

/-- `story.CloneOptions`. -/
structure CloneOptions where
  destinationKey : StoryKey
  lastOrdinal : Int := -1
  initialChapter : Option Draft := none

/-- The key of the clone: the anthology is the source's unless another is named. -/
def CloneOptions.dest (opts : CloneOptions) (source : StoryKey) : StoryKey :=
  if blank opts.destinationKey.anthologyID then
    { opts.destinationKey with anthologyID := source.anthologyID }
  else opts.destinationKey

/-- The last ordinal that the clone has from its source. -/
def forkOrdinal (opts : CloneOptions) (row : StoryRecord) : Except Error Int := do
  let last := if opts.lastOrdinal < 0 then row.latestOrdinal else opts.lastOrdinal
  demand (.plain "story: last ordinal exceeds source range") (0 ≤ last ∧ last ≤ row.latestOrdinal)
  .ok last

/-- `Store.CloneStory`. -/
def cloneStory (host : Host) (source : StoryKey) (opts : CloneOptions) (now : Time) :
    Call Library Error StoryRecord := do
  Call.check (validateKey source)
  Call.check
    ((validateKey (opts.dest source)).mapError (.wrapped "story: destination key is required"))
  let src ← rowQuery (Rows.getStory source)
  let fork ← Call.check (forkOrdinal opts src)
  let row ← rowTx (Rows.createLinkedStory (opts.dest source) ⟨source, fork⟩ now)
  match opts.initialChapter with
  | none => pure row
  | some chap =>
    Call.mapError (.wrapped "story: append next chapter")
      (appendChapter host (opts.dest source) row.chapterCount chap now)

/-! ## Reading -/

/-- `artifactFromRecord`. -/
def artifactFromRecord (record : ArtifactRecord) : Artifact where
  id := record.id
  name := record.name
  contentType := fallback record.contentType "application/octet-stream"
  sizeBytes :=
    match record.inlineData with
    | some data => data.length
    | none => if record.blobPath ≠ "" then record.sizeBytes else 0
  sha256 := record.sha256
  source :=
    match record.inlineData with
    | some data => .bytes data
    | none => if record.blobPath ≠ "" then .blob record.blobPath else .bytes []

/-- The bytes that a reader of an artifact gets. -/
def Artifact.contents (art : Artifact) (blobs : Table String Bytes) : Except Error Bytes :=
  match art.source with
  | .bytes data => .ok data
  | .blob path =>
    match blobs.lookup path with
    | some data => .ok data
    | none => .error (.plain ("blobstore: open " ++ path))

/-- `chapterFromRecord`. -/
def chapterFromRecord (ordinal : Int) (row : ChapterRow) : Chapter :=
  ⟨ordinal, row.body, row.artifacts.map artifactFromRecord⟩

def maxLinkDepth : Nat := 1024

/-- `resolveLinkedOrdinal`: at most as many rounds as the first argument. -/
def resolveLinkedOrdinal (db : Rows) : Nat → StoryRecord → Int → Except Error (StoryKey × Int)
  | 0, _, _ => .error (.plain "chapterstore: story link chain exceeds 1024 levels")
  | depth + 1, row, ordinal =>
    if ordinal < 0 ∨ row.latestOrdinal < ordinal then .error .chapterNotFound
    else
      match row.link with
      | none => .ok (row.key, ordinal)
      | some link =>
        if link.forkOrdinal < ordinal then .ok (row.key, ordinal)
        else
          match db.getStoryIncludingDeleted link.key with
          | .error e => .error e
          | .ok base => resolveLinkedOrdinal db depth base ordinal

/-- `resolveChapterRef`: a negative selector counts from the end. -/
def resolveChapterRef (db : Rows) (key : StoryKey) (selector : Int) :
    Except Error (StoryKey × Int) := do
  let row ← db.getStory key
  if 0 ≤ selector then resolveLinkedOrdinal db maxLinkDepth row selector
  else if row.latestOrdinal < 0 then .error .chapterNotFound
  else resolveLinkedOrdinal db maxLinkDepth row (row.latestOrdinal + selector + 1)

/-- `Store.Chapter`. -/
def chapter (s : Library) (key : StoryKey) (ordinal : Int) : Except Error Chapter := do
  validateKey key
  let ref ← (resolveChapterRef s.rows key ordinal).mapError translateRowError
  let row ← (s.rows.readChapterIncludingDeleted ref.1 ref.2).mapError translateRowError
  .ok (chapterFromRecord ref.2 row)

/-! ## Sequences of operations -/

/-- The operations that write. -/
inductive Op where
  | createStory (key : StoryKey) (initial : Option Draft) (now : Time)
  | saveChapter (key : StoryKey) (chap : Draft) (now : Time)
  | appendChapter (key : StoryKey) (count : Int) (chap : Draft) (now : Time)
  | cloneStory (source : StoryKey) (opts : CloneOptions) (now : Time)
  | publish (key : StoryKey) (now : Time)
  | tombstoneStory (key : StoryKey) (now : Time)

def Op.call (host : Host) : Op → Call Library Error StoryRecord
  | .createStory key initial now => ChapterStore.createStory host key initial now
  | .saveChapter key chap now => ChapterStore.saveChapter host key chap now
  | .appendChapter key count chap now => ChapterStore.appendChapter host key count chap now
  | .cloneStory source opts now => ChapterStore.cloneStory host source opts now
  | .publish key now => rowTx (Rows.publish key now)
  | .tombstoneStory key now => rowTx (Rows.tombstoneStory key now)

/-- The state after an operation, successful or not. -/
def exec (host : Host) (s : Library) (op : Op) : Library := (Proc.alone (op.call host) s).2

/-- The state after operations one after the other. -/
def run (host : Host) (ops : List Op) (s : Library) : Library := ops.foldl (exec host) s

end JobDB.ChapterStore
