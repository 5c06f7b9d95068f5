import JobDB.Basic
import JobDB.Lib.Table
import JobDB.Lib.Tx

/-!
# The row store of chapters

A story is an append-only log of chapters. The row store
(`internal/chapterstore/storage`, `internal/chapterstore/sqlite/store.go`) has a row for each
story and one for each chapter. A story row may link to a base story: its chapters up to the
fork ordinal are then the base's, and only later ones have rows under its own key.

Each writing operation is one transaction. The artifact rows of a chapter are written in the
same transaction and read back in the order of their `position`; they stand in the chapter's
row here. Failures of the database itself (a closed handle, a lock that times out) are not
modelled.
-/

namespace JobDB.ChapterStore

/-- A file's contents. -/
abbrev Bytes := List UInt8

/-- `storage.StoryKey`, and `story.Key`, which has the same two fields. -/
structure StoryKey where
  anthologyID : String
  storyID : String
deriving DecidableEq, Repr

/-- `storage.StoryLink`. -/
structure StoryLink where
  key : StoryKey
  forkOrdinal : Int
deriving DecidableEq, Repr

/-- `storage.StoryRecord`. -/
structure StoryRecord where
  key : StoryKey
  createdAt : Time
  updatedAt : Time
  finalized : Bool := false
  deleted : Bool := false
  deletedAt : Time := Time.zero
  link : Option StoryLink := none
  chapterCount : Int := 0
  latestOrdinal : Int
deriving DecidableEq, Repr

/-- `storage.ArtifactRecord`. `inlineData` is `none` for a nil slice. -/
structure ArtifactRecord where
  id : String
  name : String
  contentType : String
  sizeBytes : Int
  sha256 : String
  inlineData : Option Bytes := none
  blobPath : String := ""
deriving DecidableEq, Repr

/-- `storage.ChapterRecord`, as it is handed to `AppendChapter`. -/
structure ChapterRecord where
  key : StoryKey
  ordinal : Int
  body : Bytes
  artifacts : List ArtifactRecord
deriving DecidableEq, Repr

/-- The columns of a chapter besides its key and ordinal. -/
structure ChapterRow where
  body : Bytes
  artifacts : List ArtifactRecord
  createdAt : Time
deriving DecidableEq, Repr

/-- The errors of the chapter store: the sentinels of `storage/errors.go`, the two of
`core/errors.go` with what they wrap, and plain texts. -/
inductive Error where
  | storyExists
  | storyNotFound
  | chapterExists
  | chapterNotFound
  | storyFinalized
  | invalidRecord (detail : String)
  | notFound (cause : Error)
  | conflict (cause : Error)
  | plain (text : String)
  | wrapped (text : String) (cause : Error)
deriving DecidableEq, Repr

/-! ## Validation (`storage/validation.go`) -/

def validateStoryLink (key : StoryKey) (link : StoryLink) : Except Error Unit := do
  demand (.invalidRecord "linked story base key is required")
    (link.key.anthologyID ≠ "" ∧ link.key.storyID ≠ "")
  demand (.invalidRecord "story cannot link to itself") (link.key ≠ key)
  demand (.invalidRecord "fork ordinal must be non-negative") (0 ≤ link.forkOrdinal)

/-- The last part of `ValidateStoryRecord`. -/
def validateLinked (row : StoryRecord) : Except Error Unit :=
  match row.link with
  | none => .ok ()
  | some link => do
    validateStoryLink row.key link
    demand (.invalidRecord "linked story latest ordinal must be at least fork ordinal")
      (link.forkOrdinal ≤ row.latestOrdinal)

def validateStoryRecord (row : StoryRecord) : Except Error Unit := do
  demand (.invalidRecord "chapter count must be non-negative") (0 ≤ row.chapterCount)
  demand (.invalidRecord "latest ordinal must be at least -1") (-1 ≤ row.latestOrdinal)
  demand (.invalidRecord "empty story chapter count must be zero")
    (row.latestOrdinal = -1 → row.chapterCount = 0)
  demand (.invalidRecord "chapter count must match latest ordinal")
    (0 ≤ row.latestOrdinal → row.chapterCount = row.latestOrdinal + 1)
  validateLinked row

def validateStoryTombstone (row : StoryRecord) : Except Error Unit := do
  demand (.invalidRecord "story must be finalized before tombstone") (row.finalized = true)
  demand (.invalidRecord "tombstone must mark story deleted") (row.deleted = true)
  demand (.invalidRecord "tombstone deleted timestamp is required") (row.deletedAt ≠ Time.zero)
  validateStoryRecord row

/-- A digit that `hex.DecodeString` takes. -/
def isHexDigit (c : Char) : Bool :=
  ('0' ≤ c && c ≤ '9') || ('a' ≤ c && c ≤ 'f') || ('A' ≤ c && c ≤ 'F')

/-- The errors that name the artifact. -/
def badArtifact (art : ArtifactRecord) (detail : String) : Error :=
  .invalidRecord ("artifact " ++ quoted art.name ++ detail)

def validateArtifactSHA256 (art : ArtifactRecord) : Except Error Unit := do
  demand (badArtifact art " sha256 is required") (art.sha256 ≠ "")
  demand (badArtifact art " sha256 must be 64 lowercase hex characters")
    (art.sha256.utf8ByteSize = 64)
  demand (badArtifact art " sha256 must be lowercase hex")
    (art.sha256.toList.all isHexDigit)
  demand (badArtifact art " sha256 must be lowercase hex")
    (art.sha256.toList.all fun c => !('A' ≤ c && c ≤ 'F'))

/-- One round of the loop of `validateArtifacts`; `seen` holds the names before it. -/
def validateArtifact (seen : List String) (art : ArtifactRecord) : Except Error Unit := do
  demand (.invalidRecord "artifact name is required") (art.name ≠ "")
  demand (.invalidRecord ("duplicate artifact name " ++ quoted art.name)) (art.name ∉ seen)
  demand (badArtifact art " size must be non-negative")
    (0 ≤ art.sizeBytes)
  validateArtifactSHA256 art
  demand (badArtifact art " cannot be both inline and blob-backed")
    (art.inlineData = none ∨ art.blobPath = "")
  demand (badArtifact art " inline size mismatch")
    (∀ data ∈ art.inlineData, (data.length : Int) = art.sizeBytes)
  demand (badArtifact art " missing blob path")
    (0 < art.sizeBytes → art.inlineData ≠ none ∨ art.blobPath ≠ "")

def validateArtifacts (seen : List String) : List ArtifactRecord → Except Error Unit
  | [] => .ok ()
  | art :: arts => do
    validateArtifact seen art
    validateArtifacts (art.name :: seen) arts

def validateChapterAppend (row : StoryRecord) (record : ChapterRecord) : Except Error Unit := do
  validateStoryRecord row
  demand (.invalidRecord "chapter key does not match story") (record.key = row.key)
  demand (.invalidRecord "ordinal must be non-negative") (0 ≤ record.ordinal)
  demand (.invalidRecord ("ordinal must be " ++ toString (row.latestOrdinal + 1)))
    (record.ordinal = row.latestOrdinal + 1)
  validateArtifacts [] record.artifacts

/-! ## The tables -/

/-- The tables `jobdb_chapter_stories` and `jobdb_chapter_chapters`. -/
structure Rows where
  stories : Table StoryKey StoryRecord := ∅
  chapters : Table (StoryKey × Int) ChapterRow := ∅

namespace Rows

def getStoryIncludingDeleted (key : StoryKey) (db : Rows) : Except Error StoryRecord :=
  match db.stories.lookup key with
  | none => .error .storyNotFound
  | some row => .ok row

def getStory (key : StoryKey) (db : Rows) : Except Error StoryRecord :=
  match db.stories.lookup key with
  | none => .error .storyNotFound
  | some row => if row.deleted then .error .storyNotFound else .ok row

def readChapterIncludingDeleted (key : StoryKey) (ordinal : Int) (db : Rows) :
    Except Error ChapterRow := do
  let _ ← db.getStoryIncludingDeleted key
  match db.chapters.lookup (key, ordinal) with
  | none => .error .chapterNotFound
  | some row => .ok row

/-- `INSERT INTO jobdb_chapter_stories`. -/
def insertStory (row : StoryRecord) : Tx Rows Error Unit :=
  Tx.write fun db => do
    demand .storyExists (db.stories.lookup row.key = none)
    .ok { db with stories := db.stories.insert row.key row }

/-- `UPDATE jobdb_chapter_stories`. -/
def updateStory (row : StoryRecord) : Tx Rows Error Unit :=
  Tx.write fun db => .ok { db with stories := db.stories.insert row.key row }

def createStory (key : StoryKey) (now : Time) : Tx Rows Error StoryRecord := do
  let row : StoryRecord := { key, createdAt := now, updatedAt := now, latestOrdinal := -1 }
  Tx.read fun _ => validateStoryRecord row
  insertStory row
  pure row

/-- The row of a linked story. -/
def linkedStory (key : StoryKey) (link : StoryLink) (now : Time) : StoryRecord where
  key
  createdAt := now
  updatedAt := now
  link := some link
  chapterCount := link.forkOrdinal + 1
  latestOrdinal := link.forkOrdinal

def createLinkedStory (key : StoryKey) (link : StoryLink) (now : Time) :
    Tx Rows Error StoryRecord := do
  Tx.read fun _ => validateStoryLink key link
  let base ← Tx.read (getStoryIncludingDeleted link.key)
  Tx.require (.invalidRecord "fork ordinal exceeds base latest ordinal")
    (link.forkOrdinal ≤ base.latestOrdinal)
  Tx.read fun _ => validateStoryRecord (linkedStory key link now)
  insertStory (linkedStory key link now)
  pure (linkedStory key link now)

def publish (key : StoryKey) (now : Time) : Tx Rows Error StoryRecord := do
  let row ← Tx.read (getStory key)
  Tx.require .storyFinalized (row.finalized = false)
  updateStory { row with finalized := true, updatedAt := now }
  pure { row with finalized := true, updatedAt := now }

def tombstoneStory (key : StoryKey) (now : Time) : Tx Rows Error StoryRecord := do
  let row ← Tx.read (getStory key)
  Tx.require (.invalidRecord "story must be finalized before tombstone") (row.finalized = true)
  let gone : StoryRecord := { row with deleted := true, deletedAt := now, updatedAt := now }
  Tx.read fun _ => validateStoryTombstone gone
  updateStory gone
  pure gone

/-- The story row after a chapter was added. -/
def appended (row : StoryRecord) (ordinal : Int) (now : Time) : StoryRecord :=
  { row with
    updatedAt := now
    latestOrdinal := if row.latestOrdinal < ordinal then ordinal else row.latestOrdinal
    chapterCount := if row.chapterCount < ordinal + 1 then ordinal + 1 else row.chapterCount }

/-- `INSERT INTO jobdb_chapter_chapters` and `jobdb_chapter_artifacts`. -/
def insertChapter (record : ChapterRecord) (now : Time) : Tx Rows Error Unit :=
  Tx.write fun db => do
    demand .chapterExists (db.chapters.lookup (record.key, record.ordinal) = none)
    .ok { db with
      chapters := db.chapters.insert (record.key, record.ordinal)
        ⟨record.body, record.artifacts, now⟩ }

def appendChapter (record : ChapterRecord) (now : Time) : Tx Rows Error StoryRecord := do
  let row ← Tx.read (getStory record.key)
  Tx.require .storyFinalized (row.finalized = false)
  Tx.read fun db =>
    demand .chapterExists (db.chapters.lookup (record.key, record.ordinal) = none)
  Tx.read fun _ => validateChapterAppend row record
  insertChapter record now
  updateStory (appended row record.ordinal now)
  pure (appended row record.ordinal now)

end Rows

end JobDB.ChapterStore
