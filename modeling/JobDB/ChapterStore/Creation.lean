import JobDB.ChapterStore.Linked
import JobDB.Lib.Crash

/-!
# Stories that are created with a chapter

`CreateStory` with an initial chapter and `CloneStory` with a next one write the row of the story in
one transaction, then prepare the chapter, and append it in another.  A chapter that cannot be
prepared or appended leaves the row behind, and the call cannot be made again under its key.

`Storable` says which artifacts the store takes and `Writable` which chapters;
`failed_creation_iff` says that a call leaves a trace just where it gets as far as the row with a
chapter that is not writable.
-/

namespace JobDB.ChapterStore

variable {host : Host} {s : Library} {record : ArtifactRecord} {data : Bytes}

/-! ## Artifacts that can be stored -/

/-- The artifacts can be read and pass their checks, their names are new, and the large ones can be
saved.  `n` identifiers were drawn before, and `seen` are the names before. -/
def Storable (host : Host) : Nat → List String → List ArtifactInput → Prop
  | _, _, [] => True
  | n, seen, art :: arts => ∃ desc data, art.toInput = .ok (desc, data) ∧
      checkArtifact host (storedName art desc) desc data = .ok () ∧ storedName art desc ∉ seen ∧
      if (data.length : Int) ≤ maxInline host then
        Storable host (n + 1) (storedName art desc :: seen) arts
      else host.saveError (n + 1) = none ∧ Storable host (n + 2) (storedName art desc :: seen) arts

/-- The digits of a digest are small. -/
theorem hexBytes_spec (bytes : List UInt8) :
    (hexBytes bytes).utf8ByteSize = 2 * bytes.length ∧ ∀ c ∈ (hexBytes bytes).toList,
      isHexDigit c = true ∧ ('A' ≤ c && c ≤ 'F') = false := by
  have hdigit : ∀ n < 16, (String.ofList [Nat.digitChar n]).utf8ByteSize = 1 ∧
      isHexDigit n.digitChar = true ∧ ('A' ≤ n.digitChar && n.digitChar ≤ 'F') = false := by
    decide
  unfold hexBytes
  induction bytes with
  | nil => exact ⟨rfl, fun c hc => nomatch hc⟩
  | cons b bytes ih =>
    have hb := b.toNat_lt
    have h₁ := hdigit (b.toNat / 16) (by omega)
    have h₂ := hdigit (b.toNat % 16) (by omega)
    rw [List.flatMap_cons, String.ofList_append, String.utf8ByteSize_append, ih.1]
    constructor
    · rw [show [Nat.digitChar (b.toNat / 16), Nat.digitChar (b.toNat % 16)] =
        [Nat.digitChar (b.toNat / 16)] ++ [Nat.digitChar (b.toNat % 16)] from rfl,
          String.ofList_append, String.utf8ByteSize_append, h₁.1, h₂.1, List.length_cons]
      omega
    · simp only [String.toList_append, String.toList_ofList, List.cons_append, List.nil_append,
        List.forall_mem_cons]
      exact ⟨h₁.2, h₂.2, by simpa using ih.2⟩

theorem validateArtifactSHA256_ok (h : record.sha256 = sha256Hex host data) :
    validateArtifactSHA256 record = .ok () := by
  obtain ⟨hsize, hdigits⟩ := hexBytes_spec (host.sum256 data).toList
  rw [Vector.length_toList] at hsize
  unfold validateArtifactSHA256
  simp only [demand_bind_eq_ok, demand_eq_ok, h, sha256Hex, List.all_eq_true]
  refine ⟨fun hnone => ?_, hsize, fun c hc => (hdigits c hc).1, fun c hc => ?_⟩
  · rw [hnone] at hsize
    cases hsize
  · rw [(hdigits c hc).2, Bool.not_false]

/-- Of the checks on a record that was made only the one for a second name can fail. -/
theorem validateArtifact_iff {seen : List String} (hname : record.name ≠ "")
    (hsize : record.sizeBytes = data.length) (hsum : record.sha256 = sha256Hex host data)
    (hplace : record.inlineData = inlineCopy data ∧ record.blobPath = "" ∨
      record.inlineData = none ∧ record.blobPath ≠ "") :
    validateArtifact seen record = .ok () ↔ record.name ∉ seen := by
  unfold validateArtifact
  rw [validateArtifactSHA256_ok hsum]
  simp only [demand_bind_eq_ok]
  rw [bind_eq_ok]
  simp only [demand_bind_eq_ok, demand_eq_ok]
  refine ⟨fun h => h.2.1, fun h => ⟨hname, h, by omega, (), trivial, ?_⟩⟩
  unfold inlineCopy at hplace
  rcases hplace with ⟨hcopy, hpath⟩ | ⟨hcopy, hpath⟩
  · by_cases hnil : data = [] <;> simp [hcopy, hpath, hsize, hnil]
  · simp [hcopy, hpath]

theorem artifactRecord_spec (art : ArtifactInput) (s : Library) :
    Proc.Solo (fun a s' => s'.rows = s.rows ∧ ∀ seen arts,
        Storable host s.drawn seen (art :: arts) ↔ ∃ record, a = .ok record ∧
          validateArtifact seen record = .ok () ∧ Storable host s'.drawn (record.name :: seen) arts)
      (artifactRecord host art) s := by
  refine Call.solo_check_bind (fun e he => ⟨rfl, by simp [Storable, he]⟩) fun input hin => ?_
  obtain ⟨desc, data⟩ := input
  refine Call.solo_check_bind (fun e he => ⟨rfl, by simp [Storable, hin, he]⟩) fun _ hsound => ?_
  have hname := (demand_bind_eq_ok.1 hsound).1
  refine Call.solo_tx_bind nofun fun drawn s₁ h₁ => ?_
  cases h₁
  -- of the header only these fields are read
  generalize hhead : artifactHeader host art desc data (host.newString s.drawn) = header
  obtain ⟨hstored, hsize, hsum, hcopy, hpath⟩ : storedName art desc = header.name ∧
      header.sizeBytes = data.length ∧ header.sha256 = sha256Hex host data ∧
      header.inlineData = none ∧ header.blobPath = "" := by
    simp [← hhead, artifactHeader]
  rw [hstored] at hname hsound
  unfold storeContents
  by_cases hsmall : (data.length : Int) ≤ maxInline host
  · rw [if_pos hsmall]
    refine Call.solo_pure ⟨rfl, fun seen arts => ?_⟩
    simp only [Storable, hin, Except.ok.injEq, Prod.mk.injEq, ↓existsAndEq, and_true, hsmall,
      ↓reduceIte, exists_eq_left', hsound, true_and, hstored]
    exact and_congr_left fun _ =>
      Iff.symm (validateArtifact_iff hname hsize hsum (.inl ⟨rfl, hpath⟩))
  · rw [if_neg hsmall]
    refine Call.solo_tx_bind (fun e he => ⟨rfl, fun seen arts => ?_⟩) fun path s₂ h₂ => ?_
    · split at he
      · next hsave => simp [Storable, hin, hsmall, hsave]
      · cases he
    · split at h₂ <;> cases h₂
      next hsave =>
      refine Call.solo_pure ⟨rfl, fun seen arts => ?_⟩
      simp only [Storable, hin, Except.ok.injEq, Prod.mk.injEq, hsave, true_and, ↓existsAndEq,
        and_true, hsmall, ↓reduceIte, exists_eq_left', hsound, hstored]
      exact and_congr_left fun _ => Iff.symm (validateArtifact_iff hname hsize hsum
        (.inr ⟨hcopy, host.newString_ne_empty _⟩))

theorem artifactRecords_spec (arts : List ArtifactInput) (s : Library) :
    Proc.Solo (fun a s' => s'.rows = s.rows ∧ ∀ seen,
        Storable host s.drawn seen arts ↔
          ∃ records, a = .ok records ∧ validateArtifacts seen records = .ok ())
      (artifactRecords host arts) s := by
  induction arts generalizing s with
  | nil => exact .ret ⟨rfl, fun seen => iff_of_true trivial ⟨[], rfl, rfl⟩⟩
  | cons art arts ih =>
    refine Call.solo_bind (artifactRecord_spec art s) ?_ fun record s₁ ⟨hrows, h⟩ => ?_
    · rintro e s₁ ⟨hrows, h⟩
      exact ⟨hrows, fun seen => (h seen arts).trans (iff_of_false nofun nofun)⟩
    simp only [Except.ok.injEq, exists_eq_left'] at h
    refine Call.solo_bind (ih s₁) ?_ fun records s₂ ⟨hrows₂, h₂⟩ => .ret ⟨hrows₂.trans hrows, ?_⟩
    · rintro e s₂ ⟨hrows₂, h₂⟩
      exact ⟨hrows₂.trans hrows, fun seen => (h seen arts).trans
        (iff_of_false (fun h => by simpa using (h₂ _).1 h.2) nofun)⟩
    · intro seen
      rw [h, h₂]
      simp only [Except.ok.injEq, exists_eq_left']
      exact ⟨fun hvalid => bind_eq_ok.2 ⟨(), hvalid⟩, fun hvalid =>
        (bind_eq_ok.1 hvalid).elim fun _ h => h⟩

/-! ## Chapters that can be written -/

/-- The chapter can be prepared, and `ordinal` is `next`, which is free. -/
structure Writable (host : Host) (drawn : Nat) (chapters : Table (StoryKey × Int) ChapterRow)
    (key : StoryKey) (ordinal next : Int) (chap : Draft) : Prop where
  body : chap.body ≠ []
  artifacts : Storable host drawn [] chap.artifacts
  ordinal : ordinal = next
  free : chapters.lookup (key, next) = none

variable {row : StoryRecord} {chap : Draft} {now : Time} {W : Prop}

/-- The call succeeds just if `W`, and leaves the rows as they are if not. -/
abbrev Succeeds (W : Prop) (x : Call Library Error StoryRecord) (s : Library) : Prop :=
  Proc.Solo (fun a s' =>
    match a with
    | .ok _ => W
    | .error _ => ¬ W ∧ s'.rows = s.rows) x s

/-- The library with the row of another story. -/
def Library.withStory (s : Library) (row : StoryRecord) : Library :=
  { s with rows := { s.rows with stories := s.rows.stories.insert row.key row } }

theorem lookup_withStory : (s.withStory row).rows.stories.lookup row.key = some row :=
  AList.lookup_insert _

theorem appendDraft_succeeds (s : Library) (row : StoryRecord) {ordinal : Int}
    (hlive : row.deleted = false)
    (hopen : row.finalized = false) (hvalid : validateStoryRecord row = .ok ()) :
    Succeeds (Writable host s.drawn s.rows.chapters row.key ordinal (row.latestOrdinal + 1) chap)
      (appendDraft host row.key ordinal chap now) (s.withStory row) := by
  have hrecord : Proc.Solo (fun a s' => s'.rows = (s.withStory row).rows ∧
      match a with
      | .ok record => ∃ records, record = ⟨row.key, ordinal, chap.body, records⟩ ∧ chap.body ≠ [] ∧
          (Storable host s.drawn [] chap.artifacts ↔ validateArtifacts [] records = .ok ())
      | .error _ => ¬ (chap.body ≠ [] ∧ Storable host s.drawn [] chap.artifacts))
      (chapterRecordFromStoryChapter host row.key ordinal chap) (s.withStory row) := by
    refine Call.solo_check_bind (fun e he => ⟨rfl, fun h => ?_⟩) fun _ hbody => ?_
    · rw [(demand_eq_ok (u := ())).2 h.1] at he
      cases he
    refine Call.solo_bind (artifactRecords_spec chap.artifacts _) (fun e s₁ h =>
      ⟨h.1, fun hw => ?_⟩)
      fun records s₁ h => .ret ⟨h.1, records, rfl, demand_eq_ok.1 hbody, ?_⟩
    · obtain ⟨_, he, -⟩ := (h.2 []).1 hw.2
      cases he
    · show Storable host (s.withStory row).drawn _ _ ↔ _
      simpa using h.2 []
  refine Call.solo_bind hrecord (fun e s₁ h => ⟨fun hw => h.2 ⟨hw.body, hw.artifacts⟩, h.1⟩) ?_
  rintro _ s₁ ⟨hs₁, records, rfl, hbody, hrecords⟩
  have hrow : s₁.rows.getStory row.key = .ok row := by
    rw [hs₁]
    exact getStory_eq_ok.2 ⟨lookup_withStory, hlive⟩
  have hchapters : s₁.rows.chapters = s.rows.chapters := by rw [hs₁, Library.withStory]
  refine Call.solo_tx (fun e he => ⟨fun hw => ?_, hs₁⟩) fun a s' h => ?_
  · have hfree : s₁.rows.chapters.lookup (row.key, ordinal) = none := by
      rw [hchapters, hw.ordinal]
      exact hw.free
    obtain ⟨⟨a, rows⟩, hm⟩ :
        ∃ r, Rows.appendChapter ⟨row.key, ordinal, chap.body, records⟩ now s₁.rows = .ok r :=
      ⟨(_, _), appendChapter_eq_ok.2 ⟨row, hrow, hopen, hfree, validateChapterAppend_eq_ok.2
        ⟨hvalid, rfl, hw.ordinal, hrecords.1 hw.artifacts⟩, rfl, rfl⟩⟩
    rw [mapError_eq_ok.2 (Tx.zoom_eq_ok.2 ⟨rows, hm, rfl⟩)] at he
    cases he
  · obtain ⟨_, hm, -⟩ := rowTx_eq_ok h
    obtain ⟨row', hrow', -, hfree, hnext, -⟩ := appendChapter_eq_ok.1 hm
    cases hrow.symm.trans hrow'
    obtain ⟨-, -, hord, hgood⟩ := validateChapterAppend_eq_ok.1 hnext
    rw [hchapters, hord] at hfree
    exact ⟨hbody, hrecords.2 hgood, hord, hfree⟩

/-! ## Creation -/

/-- If the call fails, no story and no chapter is other than before. -/
def LeavesNoTrace (x : Call Library Error StoryRecord) (s : Library) : Prop :=
  ∀ e, (Proc.alone x s).1 = .error e → (Proc.alone x s).2.rows = s.rows

theorem leavesNoTrace_check {α : Type} {f : α → Call Library Error StoryRecord}
    {r : Except Error α} :
    LeavesNoTrace (Call.check r >>= f) s ↔ ∀ a, r = .ok a → LeavesNoTrace (f a) s := by
  cases r with
  | ok a => exact ⟨fun h _ ha => by cases ha; exact h, fun h => h a rfl⟩
  | error e => exact iff_of_true (fun _ _ => rfl) nofun

/-- A call that writes the row of a new story, and then succeeds just if `W`. -/
theorem leavesNoTrace_rowTx (row : StoryRecord) {m : Tx Rows Error StoryRecord}
    {f : StoryRecord → Call Library Error StoryRecord}
    (hm : ∀ r rows, m s.rows = .ok (r, rows) ↔ s.rows.stories.lookup row.key = none ∧ r = row ∧
      rows = { s.rows with stories := s.rows.stories.insert row.key r })
    (hf : s.rows.stories.lookup row.key = none → Succeeds W (f row) (s.withStory row)) :
    LeavesNoTrace (rowTx m >>= f) s ↔ (s.rows.stories.lookup row.key = none → W) := by
  unfold LeavesNoTrace rowTx
  cases h : m s.rows with
  | error e =>
    rw [Call.alone_tx_bind_error (e := translateRowError e) (by rw [Tx.zoom_error h]; rfl)]
    refine iff_of_true (fun _ _ => rfl) fun hfree => ?_
    cases h.symm.trans ((hm _ _).2 ⟨hfree, rfl, rfl⟩)
  | ok r =>
    obtain ⟨hfree, hr, hrows⟩ := (hm r.1 r.2).1 h
    rw [Call.alone_tx_bind (mapError_eq_ok.2 (Tx.zoom_eq_ok.2 ⟨r.2, h, rfl⟩)), hrows, hr]
    change (∀ e, (Proc.alone (f row) (s.withStory row)).1 = .error e →
      (Proc.alone (f row) (s.withStory row)).2.rows = s.rows) ↔ _
    have hanswer := (hf hfree).answer
    cases ha : (Proc.alone (f row) (s.withStory row)).1 with
    | ok _ =>
      rw [ha] at hanswer
      exact iff_of_true nofun fun _ => hanswer
    | error e =>
      rw [ha] at hanswer
      refine iff_of_false (fun hs => ?_) fun hw => hanswer.1 (hw hfree)
      -- the row is still there
      rw [← hs e rfl, hanswer.2, lookup_withStory] at hfree
      cases hfree

/-- **A failed creation leaves no trace** just if it fails before the row of the story is written,
or its chapter can be written. -/
theorem failed_creation_iff (host : Host) (s : Library) (now : Time) :
    (∀ key chap, LeavesNoTrace (createStory host key (some chap) now) s ↔
      (validateKey key = .ok () → s.rows.stories.lookup key = none →
        Writable host s.drawn s.rows.chapters key 0 0 chap)) ∧
    ∀ source opts chap,
      LeavesNoTrace (cloneStory host source { opts with initialChapter := some chap } now) s ↔
        (validateKey source = .ok () → validateKey (opts.dest source) = .ok () →
          ∀ src, s.rows.getStory source = .ok src → ∀ fork, forkOrdinal opts src = .ok fork →
            s.rows.stories.lookup (opts.dest source) = none →
            Writable host s.drawn s.rows.chapters (opts.dest source)
              (if chap.ordinal < 0 then fork + 1 else chap.ordinal) (fork + 1) chap) := by
  refine ⟨fun key chap => ?_, fun source opts chap => ?_⟩
  · refine leavesNoTrace_check.trans (Unique.forall_iff.trans (imp_congr_right fun _ => ?_))
    let row : StoryRecord := { key, createdAt := now, updatedAt := now, latestOrdinal := -1 }
    exact leavesNoTrace_rowTx row (fun _ _ => createStory_eq_ok)
      fun _ => appendDraft_succeeds s row rfl rfl rfl
  · have hquery {α : Type} {q : Rows → Except Error α} {f : α → Call Library Error StoryRecord} :
        LeavesNoTrace (rowQuery q >>= f) s ↔ ∀ a, q s.rows = .ok a → LeavesNoTrace (f a) s := by
      show LeavesNoTrace (Call.check ((q s.rows).mapError translateRowError) >>= f) s ↔ _
      simp only [leavesNoTrace_check, mapError_eq_ok]
    unfold cloneStory
    simp only [leavesNoTrace_check, hquery, mapError_eq_ok, Unique.forall_iff]
    refine imp_congr_right fun hsource => imp_congr_right fun _ => forall_congr' fun src =>
      imp_congr_right fun hsrc => forall_congr' fun fork => imp_congr_right fun hfork => ?_
    obtain ⟨hlast, hfork⟩ := demand_bind_eq_ok.1 hfork
    cases hfork
    set fork := if opts.lastOrdinal < 0 then src.latestOrdinal else opts.lastOrdinal
    have hsrc := (getStory_eq_ok.1 hsrc).1
    have hlink (hfree : s.rows.stories.lookup (opts.dest source) = none) :
        validateStoryLink (opts.dest source) ⟨source, fork⟩ = .ok () := by
      refine validateStoryLink_ok hsource (fun heq => ?_) hlast.1
      rw [heq, hfree] at hsrc
      cases hsrc
    let row := Rows.linkedStory (opts.dest source) ⟨source, fork⟩ now
    refine leavesNoTrace_rowTx row (fun _ rows => createLinkedStory_eq_ok.trans ?_) fun hfree => ?_
    · exact ⟨fun h => h.2.2, fun h => ⟨hlink h.1, ⟨src, hsrc, hlast.2⟩, h⟩⟩
    · have hvalid : validateStoryRecord row = .ok () := linkedStory_valid (hlink hfree)
      refine Call.solo_mapError (appendDraft_succeeds s row rfl rfl hvalid) fun r s' hr => ?_
      cases r <;> exact hr

/-- A story is created with two artifacts of one name.  The row stays, and the story cannot be
created again with one of them. -/
theorem failed_creation_blocks_retry :
    let art : ArtifactInput := ⟨"", "a", .ok (⟨"a", "", 0, ""⟩, [1])⟩
    let create (arts : List ArtifactInput) : Op :=
      .createStory ⟨"t", "s"⟩ (some { body := [1], artifacts := arts }) 1
    let s := exec sampleHost {} (create [art, art])
    (Proc.alone ((create [art, art]).call sampleHost) {}).1.toBool = false ∧
      (s.rows.stories.lookup ⟨"t", "s"⟩).isSome = true ∧
      (Proc.alone ((create [art]).call sampleHost) s).1 = .error (.conflict .storyExists) ∧
      (Proc.alone ((create [art]).call sampleHost) {}).1.toBool = true := by
  decide +kernel

end JobDB.ChapterStore
