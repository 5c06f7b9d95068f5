import JobDB.ChapterStore.Store
import JobDB.Lib.Linked
import Mathlib.Data.List.Induction

/-!
# Linked stories are copies

The rows of the chapter store are a forest of linked logs (`JobDB.Lib.Linked`): a story row
has its link and its own chapters have rows. `Represents` says which forest the rows hold,
and `Displays db k ks xs` what the forest shows of the story `k`: its chapters `xs` as a list,
as if every clone had been a copy, and the bases `ks` it is linked to.

Every write of the row store is one of the ways a forest changes, so stories never change but
at their end (`Since`). `chapter_of_displays` connects the reader: following at most 1024
links it finds the chapter of the list.
-/

namespace JobDB.ChapterStore

open Linked

/-! ## The forest of the rows -/

/-- The base and the number of chapters that a clone has from it. -/
def StoryLink.kept (link : StoryLink) : StoryKey × Nat := (link.key, (link.forkOrdinal + 1).toNat)

/-- The row and the chapters of the story `k` are the log `nd`. -/
structure RowShows (db : Rows) (k : StoryKey) (row : StoryRecord)
    (nd : Linked.Node StoryKey ChapterRow) : Prop where
  key : row.key = k
  link : nd.link = row.link.map StoryLink.kept
  fork : ∀ l, row.link = some l → 0 ≤ l.forkOrdinal
  count : row.chapterCount = nd.start + nd.own.length
  latest : row.latestOrdinal = row.chapterCount - 1
  own : ∀ j : Nat, db.chapters.lookup (k, ((nd.start + j : Nat) : Int)) = nd.own[j]?

structure Represents (db : Rows) (F : StoryKey → Option (Linked.Node StoryKey ChapterRow)) :
    Prop where
  absent : ∀ k, db.stories.lookup k = none → F k = none ∧ ∀ i, db.chapters.lookup (k, i) = none
  present : ∀ k row, db.stories.lookup k = some row → ∃ nd, F k = some nd ∧ RowShows db k row nd

/-- The rows hold a forest in which every story can be read. -/
def Kept (db : Rows) : Prop := ∃ F, Represents db F ∧ Whole F

/-- The story shows the chapters `xs` and is linked to the stories `ks`. -/
def Displays (db : Rows) (k : StoryKey) (ks : List StoryKey) (xs : List ChapterRow) : Prop :=
  ∃ F, Represents db F ∧ Shows F k ks xs

variable {nd : Linked.Node StoryKey ChapterRow} {l : StoryLink} {ks : List StoryKey}
  {xs : List ChapterRow} {now : Time} {n i : Nat} {j : StoryKey} {c : ChapterRow}

/-- It is a matter of the story's own chapters. -/
theorem RowShows.frame {db db' : Rows} {k : StoryKey} {row : StoryRecord} (h : RowShows db k row nd)
    (hk : ∀ i, db'.chapters.lookup (k, i) = db.chapters.lookup (k, i)) : RowShows db' k row nd :=
  { h with own := fun j => (hk _).trans (h.own j) }

theorem RowShows.start {db : Rows} {k : StoryKey} {row : StoryRecord} (h : RowShows db k row nd)
    (hl : row.link = some l) : nd.start = (l.forkOrdinal + 1).toNat := by
  unfold Linked.Node.start
  rw [h.link, hl]
  rfl

theorem represents_empty : Represents {} fun _ => none where
  absent _ _ := ⟨rfl, fun _ => rfl⟩
  present _ _ h := nomatch h

theorem kept_empty : Kept {} := ⟨_, represents_empty, fun _ _ h => nomatch h⟩

variable {db db' : Rows} {F F' : StoryKey → Option (Linked.Node StoryKey ChapterRow)} {k : StoryKey}
  {row row' : StoryRecord}

/-- The rows hold one forest. -/
theorem Represents.unique (h : Represents db F) (h' : Represents db F') : F = F' := by
  funext k
  cases hk : db.stories.lookup k with
  | none => rw [(h.absent k hk).1, (h'.absent k hk).1]
  | some row =>
    obtain ⟨⟨link, own⟩, hF, hnd⟩ := h.present k row hk
    obtain ⟨⟨link', own'⟩, hF', hnd'⟩ := h'.present k row hk
    have hlink : link = link' := hnd.link.trans hnd'.link.symm
    subst hlink
    have hown : own = own' := List.ext_getElem? fun j => (hnd.own j).symm.trans (hnd'.own j)
    rw [hF, hF', hown]

theorem Represents.node (h : Represents db F) (hk : F k = some nd) :
    ∃ row, db.stories.lookup k = some row ∧ RowShows db k row nd := by
  cases hrow : db.stories.lookup k with
  | none => cases hk.symm.trans (h.absent k hrow).1
  | some row =>
    obtain ⟨nd', hF, hnd⟩ := h.present k row hrow
    cases hk.symm.trans hF
    exact ⟨row, rfl, hnd⟩

theorem Displays.unique {ks' : List StoryKey} {xs' : List ChapterRow} (h : Displays db k ks xs)
    (h' : Displays db k ks' xs') : ks = ks' ∧ xs = xs' := by
  obtain ⟨F, hF, hs⟩ := h
  obtain ⟨F', hF', hs'⟩ := h'
  cases hF.unique hF'
  exact hs.unique hs'

theorem Kept.displays (h : Kept db) (hk : db.stories.lookup k = some row) :
    ∃ ks xs, Displays db k ks xs := by
  obtain ⟨F, hF, hw⟩ := h
  obtain ⟨nd, hnd, -⟩ := hF.present k row hk
  obtain ⟨ks, xs, hs⟩ := hw k nd hnd
  exact ⟨ks, xs, F, hF, hs⟩

/-- The row counts the chapters that the story shows. -/
theorem Displays.count (h : Displays db k ks xs) (hk : db.stories.lookup k = some row) :
    row.key = k ∧ row.chapterCount = xs.length ∧ row.latestOrdinal = (xs.length : Int) - 1 := by
  obtain ⟨F, hF, hs⟩ := h
  obtain ⟨nd, hnd, hrow⟩ := hF.present k row hk
  have hlen := hs.length_eq hnd
  have hcount := hrow.count
  have hlatest := hrow.latest
  refine ⟨hrow.key, ?_, ?_⟩ <;> omega

/-- The fork lies within the story. -/
theorem Displays.fork_lt (h : Displays db k ks xs) (hk : db.stories.lookup k = some row)
    (hl : row.link = some l) : l.forkOrdinal < xs.length := by
  obtain ⟨F, hF, hs⟩ := h
  obtain ⟨nd, hnd, hrow⟩ := hF.present k row hk
  have hlen := hs.length_eq hnd
  have hpos := hrow.fork l hl
  have hstart := hrow.start hl
  omega

/-! ## What a write does to the forest -/

/-- The row of a story was written; the chapters of the other stories stay. -/
theorem Represents.write {chapters : Table (StoryKey × Int) ChapterRow} (h : Represents db F)
    (hrow : RowShows ⟨db.stories.insert k row, chapters⟩ k row nd)
    (hothers : ∀ j i, j ≠ k → chapters.lookup (j, i) = db.chapters.lookup (j, i)) :
    Represents ⟨db.stories.insert k row, chapters⟩ (Function.update F k (some nd)) where
  absent j hj := by
    rw [Table.lookup_insert_eq] at hj
    split at hj
    · cases hj
    · next hjk =>
      rw [Function.update_of_ne hjk]
      exact ⟨(h.absent j hj).1, fun i => (hothers j i hjk).trans ((h.absent j hj).2 i)⟩
  present j r hj := by
    rcases Table.of_lookup_insert hj with ⟨rfl, rfl⟩ | ⟨hjk, hj⟩
    · exact ⟨nd, Function.update_self .., hrow⟩
    · rw [Function.update_of_ne hjk]
      obtain ⟨nd', hnd', hr⟩ := h.present j r hj
      exact ⟨nd', hnd', hr.frame fun i => hothers j i hjk⟩

/-- A row whose story and links stay. -/
theorem Represents.update (h : Represents db F) (hk : db.stories.lookup k = some row)
    (hkey : row'.key = row.key) (hlink : row'.link = row.link)
    (hcount : row'.chapterCount = row.chapterCount)
    (hlatest : row'.latestOrdinal = row.latestOrdinal) :
    Represents { db with stories := db.stories.insert k row' } F := by
  obtain ⟨nd, hnd, hrow⟩ := h.present k row hk
  rw [← Function.update_eq_self k F, hnd]
  refine h.write ⟨hkey.trans hrow.key, ?_, ?_, ?_, ?_, hrow.own⟩ fun _ _ _ => rfl
  · rw [hlink]; exact hrow.link
  · rw [hlink]; exact hrow.fork
  · rw [hcount]; exact hrow.count
  · rw [hlatest, hcount]; exact hrow.latest

/-- A row for a new story, which has no chapters of its own yet. -/
theorem Represents.insert (h : Represents db F) (hk : db.stories.lookup k = none)
    (hkey : row.key = k) (hfork : ∀ l, row.link = some l → 0 ≤ l.forkOrdinal)
    (hcount : row.chapterCount = ((row.link.map fun l => l.forkOrdinal + 1).getD 0))
    (hlatest : row.latestOrdinal = row.chapterCount - 1) :
    Represents { db with stories := db.stories.insert k row }
      (Function.update F k (some ⟨row.link.map StoryLink.kept, []⟩)) := by
  refine h.write ⟨hkey, rfl, hfork, ?_, hlatest, fun i => (h.absent k hk).2 _⟩ fun _ _ _ => rfl
  rw [hcount]
  cases hl : row.link with
  | none => rfl
  | some l =>
    have hge := hfork l hl
    simp only [Linked.Node.start, StoryLink.kept, Option.map_some, Option.getD_some,
      List.length_nil]
    omega

/-- A chapter after the last one. -/
theorem Represents.append (h : Represents db F) (hk : db.stories.lookup k = some row)
    (hnd : F k = some nd) (c : ChapterRow) (now : Time) :
    Represents
      { db with
        chapters := db.chapters.insert (k, row.latestOrdinal + 1) c
        stories := db.stories.insert k (Rows.appended row (row.latestOrdinal + 1) now) }
      (Function.update F k (some ⟨nd.link, nd.own ++ [c]⟩)) := by
  obtain ⟨nd', hnd', hrow⟩ := h.present k row hk
  cases hnd.symm.trans hnd'
  have hcount := hrow.count
  have hlatest := hrow.latest
  refine h.write ⟨hrow.key, hrow.link, hrow.fork, ?_, ?_, ?_⟩ fun j i hjk => ?_
  · simp only [Rows.appended, List.length_append, List.length_singleton,
      Linked.Node.start] at hcount ⊢
    split <;> omega
  · simp only [Rows.appended]
    split <;> split <;> omega
  · -- the new chapter stands right after the story's own ones
    intro i
    rw [Table.lookup_insert_eq, List.getElem?_append]
    have hstart : (⟨nd.link, nd.own ++ [c]⟩ : Linked.Node StoryKey ChapterRow).start =
        nd.start := rfl
    rw [hstart]
    by_cases hi : i = nd.own.length
    · subst hi
      rw [if_pos (by rw [Prod.mk.injEq]; exact ⟨rfl, by omega⟩), if_neg (by omega), Nat.sub_self]
      rfl
    · rw [if_neg (by rw [Prod.mk.injEq]; omega), hrow.own i]
      by_cases hlt : i < nd.own.length
      · rw [if_pos hlt]
      · rw [if_neg hlt, List.getElem?_eq_none (by omega),
          List.getElem?_eq_none (by rw [List.length_singleton]; omega)]
  · rw [Table.lookup_insert_eq, if_neg fun he => hjk (Prod.mk.inj he).1]

/-! ## Transactions -/

/-- The stories of `db'` are those of `db`, with the same links, and new ones with links that
`new` allows. -/
structure StoriesFrom (new : StoryKey → Option StoryLink → Prop) (db db' : Rows) : Prop where
  stays : ∀ k row, db.stories.lookup k = some row →
    ∃ row', db'.stories.lookup k = some row' ∧ row'.link = row.link
  made : ∀ k row', db'.stories.lookup k = some row' →
    (∃ row, db.stories.lookup k = some row ∧ row.link = row'.link) ∨ new k row'.link

/-- From `db` to `db'` stories were created and have grown at their ends. -/
structure Since (new : StoryKey → Option StoryLink → Prop) (db db' : Rows) : Prop where
  kept : Kept db'
  grows : ∀ k ks xs, Displays db k ks xs → ∃ ys, Displays db' k ks (xs ++ ys)
  rows : StoriesFrom new db db'

namespace Since

variable {new new' : StoryKey → Option StoryLink → Prop} {db₁ db₂ db₃ : Rows}

theorem refl (h : Kept db) : Since new db db where
  kept := h
  grows _ _ xs hs := ⟨[], by rwa [List.append_nil]⟩
  rows := ⟨fun _ row hk => ⟨row, hk, rfl⟩, fun _ row hk => .inl ⟨row, hk, rfl⟩⟩

theorem trans (h₁ : Since new db₁ db₂) (h₂ : Since new db₂ db₃) : Since new db₁ db₃ where
  kept := h₂.kept
  grows k ks xs hs := by
    obtain ⟨ys, hys⟩ := h₁.grows k ks xs hs
    obtain ⟨zs, hzs⟩ := h₂.grows k ks _ hys
    exact ⟨ys ++ zs, by rwa [← List.append_assoc]⟩
  rows.stays k row hk := by
    obtain ⟨row₁, hrow₁, hlink₁⟩ := h₁.rows.stays k row hk
    obtain ⟨row₂, hrow₂, hlink₂⟩ := h₂.rows.stays k row₁ hrow₁
    exact ⟨row₂, hrow₂, hlink₂.trans hlink₁⟩
  rows.made k row' hk := by
    obtain ⟨row, hrow, hlink⟩ | hnew := h₂.rows.made k row' hk
    · obtain ⟨row₀, hrow₀, hlink₀⟩ | hnew := h₁.rows.made k row hrow
      · exact .inl ⟨row₀, hrow₀, hlink₀.trans hlink⟩
      · exact .inr (hlink ▸ hnew)
    · exact .inr hnew

theorem mono (h : Since new db db') (hn : ∀ k l, new k l → new' k l) : Since new' db db' where
  kept := h.kept
  grows := h.grows
  rows := ⟨h.rows.stays, fun k row' hk => (h.rows.made k row' hk).imp_right (hn k _)⟩

/-- A write that makes the forest of `db'` out of the one of `db`. -/
theorem of_represents (hF : Represents db F) (hF' : Represents db' F') (hw : Whole F')
    (hg : Grows F F') (hrows : StoriesFrom new db db') : Since new db db' where
  kept := ⟨F', hF', hw⟩
  grows k ks xs := by
    rintro ⟨F₁, hF₁, hs⟩
    cases hF.unique hF₁
    obtain ⟨ys, hys⟩ := hg k ks xs hs
    exact ⟨ys, F', hF', hys⟩
  rows := hrows

end Since

/-- A row was written. -/
theorem StoriesFrom.insert {new : StoryKey → Option StoryLink → Prop}
    {chapters : Table (StoryKey × Int) ChapterRow}
    (hk : (∃ row₀, db.stories.lookup k = some row₀ ∧ row₀.link = row.link) ∨
      db.stories.lookup k = none ∧ new k row.link) :
    StoriesFrom new db ⟨db.stories.insert k row, chapters⟩ where
  stays j row' hj := by
    simp only [Table.lookup_insert_eq]
    split
    · next hjk =>
      subst hjk
      obtain ⟨row₀, hrow₀, hlink⟩ | ⟨hnone, -⟩ := hk
      · cases hj.symm.trans hrow₀
        exact ⟨row, rfl, hlink.symm⟩
      · cases hj.symm.trans hnone
    · exact ⟨row', hj, rfl⟩
  made j row' hj := by
    rcases Table.of_lookup_insert hj with ⟨rfl, rfl⟩ | ⟨-, hj⟩
    · exact hk.imp_right fun h => h.2
    · exact .inl ⟨row', hj, rfl⟩

theorem getStoryIncludingDeleted_eq_ok :
    db.getStoryIncludingDeleted k = .ok row ↔ db.stories.lookup k = some row := by
  unfold Rows.getStoryIncludingDeleted
  cases db.stories.lookup k <;> simp

theorem getStory_eq_ok :
    db.getStory k = .ok row ↔ db.stories.lookup k = some row ∧ row.deleted = false := by
  unfold Rows.getStory
  cases h : db.stories.lookup k with
  | none => simp
  | some r =>
    dsimp only
    rw [ite_error_eq_ok, Except.ok.injEq, Option.some.injEq]
    constructor
    · rintro ⟨hlive, rfl⟩
      exact ⟨rfl, Bool.eq_false_iff.2 hlive⟩
    · rintro ⟨rfl, hlive⟩
      exact ⟨Bool.eq_false_iff.1 hlive, rfl⟩

theorem insertStory_eq_ok {u : Unit} :
    Rows.insertStory row db = .ok (u, db') ↔
      db.stories.lookup row.key = none ∧
        db' = { db with stories := db.stories.insert row.key row } := by
  unfold Rows.insertStory
  rw [Tx.write_eq_ok, demand_bind_eq_ok, Except.ok.injEq]
  exact and_congr_right fun _ => eq_comm

theorem forkOrdinal_nonneg (h : validateStoryLink k l = .ok ()) : 0 ≤ l.forkOrdinal := by
  unfold validateStoryLink at h
  simp only [demand_bind_eq_ok, demand_eq_ok] at h
  exact h.2.2

theorem validateStoryLink_ok {source : StoryKey} {fork : Int} (h : validateKey source = .ok ())
    (hne : source ≠ k) (hfork : 0 ≤ fork) : validateStoryLink k ⟨source, fork⟩ = .ok () := by
  unfold validateKey at h
  unfold validateStoryLink
  simp only [demand_bind_eq_ok, demand_eq_ok] at h ⊢
  exact ⟨h, hne, hfork⟩

theorem createStory_eq_ok :
    Rows.createStory k now db = .ok (row, db') ↔ db.stories.lookup k = none ∧
      row = { key := k, createdAt := now, updatedAt := now, latestOrdinal := -1 } ∧
      db' = { db with stories := db.stories.insert k row } := by
  unfold Rows.createStory
  simp only [Tx.read_bind_eq_ok, Tx.bind_pure_eq_ok, insertStory_eq_ok]
  constructor
  · rintro ⟨_, -, _, ⟨hfree, rfl⟩, rfl⟩
    exact ⟨hfree, rfl, rfl⟩
  · rintro ⟨hfree, rfl, rfl⟩
    exact ⟨(), rfl, (), ⟨hfree, rfl⟩, rfl⟩

theorem createStory_since (h : Kept db) (hm : Rows.createStory k now db = .ok (row, db')) :
    Since (fun j link => j = k ∧ link = none) db db' := by
  obtain ⟨hfree, rfl, rfl⟩ := createStory_eq_ok.1 hm
  obtain ⟨F, hF, hw⟩ := h
  have hk : F k = none := (hF.absent k hfree).1
  refine .of_represents hF (hF.insert hfree rfl (fun _ hl => nomatch hl) rfl rfl) (hw.create hk)
    (.create _ hk) (.insert (.inr ⟨hfree, rfl, rfl⟩))

theorem linkedStory_valid {link : StoryLink} (h : validateStoryLink k link = .ok ()) :
    validateStoryRecord (Rows.linkedStory k link now) = .ok () := by
  have hpos := forkOrdinal_nonneg h
  unfold validateStoryRecord validateLinked Rows.linkedStory
  simp only [demand_bind_eq_ok, h]
  exact ⟨by omega, by omega, by omega, fun _ => trivial, demand_eq_ok.2 (Int.le_refl _)⟩

theorem createLinkedStory_eq_ok {link : StoryLink} :
    Rows.createLinkedStory k link now db = .ok (row, db') ↔
      validateStoryLink k link = .ok () ∧
      (∃ base, db.stories.lookup link.key = some base ∧ link.forkOrdinal ≤ base.latestOrdinal) ∧
      db.stories.lookup k = none ∧ row = Rows.linkedStory k link now ∧
      db' = { db with stories := db.stories.insert k row } := by
  unfold Rows.createLinkedStory
  simp only [Tx.read_bind_eq_ok, Tx.require_bind_eq_ok, getStoryIncludingDeleted_eq_ok,
    Tx.bind_pure_eq_ok, insertStory_eq_ok]
  constructor
  · rintro ⟨_, hvalid, base, hbase, hle, _, -, _, ⟨hfree, rfl⟩, rfl⟩
    exact ⟨hvalid, ⟨base, hbase, hle⟩, hfree, rfl, rfl⟩
  · rintro ⟨hvalid, ⟨base, hbase, hle⟩, hfree, rfl, rfl⟩
    exact ⟨(), hvalid, base, hbase, hle, (), linkedStory_valid hvalid, (), ⟨hfree, rfl⟩, rfl⟩

/-- The chapters of the clone are the first ones of its base. -/
theorem createLinkedStory_since {link : StoryLink} (h : Kept db)
    (hm : Rows.createLinkedStory k link now db = .ok (row, db')) :
    row.chapterCount = link.forkOrdinal + 1 ∧
      Since (fun j l => j = k ∧ l = some link ∧ 0 ≤ link.forkOrdinal ∧
        ∃ ks xs, Displays db link.key ks xs ∧ link.forkOrdinal < xs.length) db db' := by
  obtain ⟨hvalid, ⟨base, hbase, hle⟩, hfree, rfl, rfl⟩ := createLinkedStory_eq_ok.1 hm
  have hpos := forkOrdinal_nonneg hvalid
  obtain ⟨ks, xs, hs⟩ := h.displays hbase
  have hlast := (hs.count hbase).2.2
  obtain ⟨F, hF, hw⟩ := h
  have hshown : Shows F link.key ks xs := by
    obtain ⟨F', hF', hs'⟩ := hs
    cases hF.unique hF'
    exact hs'
  have hk : F k = none := (hF.absent k hfree).1
  refine ⟨rfl, ?_⟩
  refine .of_represents hF (hF.insert hfree rfl ?_ rfl ?_) (hw.fork hk hshown ?_) (.create _ hk)
    (.insert (.inr ⟨hfree, rfl, rfl, hpos, ks, xs, hs, by omega⟩))
  · rintro l hl
    cases hl
    exact hpos
  · show link.forkOrdinal = link.forkOrdinal + 1 - 1
    omega
  · omega

theorem updateStory_eq_ok {u : Unit} :
    Rows.updateStory row db = .ok (u, db') ↔
      db' = { db with stories := db.stories.insert row.key row } := by
  unfold Rows.updateStory
  rw [Tx.write_eq_ok, Except.ok.injEq]
  exact eq_comm

/-- What `Publish` and `TombstoneStory` do. -/
theorem updateStory_since {new : StoryKey → Option StoryLink → Prop} {u : Unit} (h : Kept db)
    (hrow : db.getStory k = .ok row) (hm : Rows.updateStory row' db = .ok (u, db'))
    (hkey : row'.key = row.key) (hlink : row'.link = row.link)
    (hcount : row'.chapterCount = row.chapterCount)
    (hlatest : row'.latestOrdinal = row.latestOrdinal) : Since new db db' := by
  have hk := (getStory_eq_ok.1 hrow).1
  obtain ⟨F, hF, hw⟩ := h
  obtain ⟨nd, -, hrow⟩ := hF.present k row hk
  have hk' : row'.key = k := hkey.trans hrow.key
  rw [updateStory_eq_ok.1 hm, hk']
  exact .of_represents hF (hF.update hk hkey hlink hcount hlatest) hw (.refl F)
    (.insert (.inl ⟨row, hk, hlink.symm⟩))

theorem publish_since {new : StoryKey → Option StoryLink → Prop} (h : Kept db)
    (hm : Rows.publish k now db = .ok (row, db')) : Since new db db' := by
  unfold Rows.publish at hm
  obtain ⟨row₀, hrow₀, hm⟩ := Tx.read_bind_eq_ok.1 hm
  obtain ⟨-, hm⟩ := Tx.require_bind_eq_ok.1 hm
  obtain ⟨_, hupd, -⟩ := Tx.bind_pure_eq_ok.1 hm
  exact updateStory_since h hrow₀ hupd rfl rfl rfl rfl

theorem tombstoneStory_since {new : StoryKey → Option StoryLink → Prop} (h : Kept db)
    (hm : Rows.tombstoneStory k now db = .ok (row, db')) : Since new db db' := by
  unfold Rows.tombstoneStory at hm
  obtain ⟨row₀, hrow₀, hm⟩ := Tx.read_bind_eq_ok.1 hm
  obtain ⟨-, hm⟩ := Tx.require_bind_eq_ok.1 hm
  obtain ⟨_, -, hm⟩ := Tx.read_bind_eq_ok.1 hm
  obtain ⟨_, hupd, -⟩ := Tx.bind_pure_eq_ok.1 hm
  exact updateStory_since h hrow₀ hupd rfl rfl rfl rfl

theorem validateChapterAppend_eq_ok {record : ChapterRecord} :
    validateChapterAppend row record = .ok () ↔ validateStoryRecord row = .ok () ∧
      record.key = row.key ∧ record.ordinal = row.latestOrdinal + 1 ∧
      validateArtifacts [] record.artifacts = .ok () := by
  unfold validateChapterAppend
  rw [bind_eq_ok]
  simp only [demand_bind_eq_ok]
  constructor
  · rintro ⟨_, hrow, hkey, -, hrest⟩
    exact ⟨hrow, hkey, hrest⟩
  · rintro ⟨hrow, hkey, hord, hvalid⟩
    have hlast : -1 ≤ row.latestOrdinal := (demand_bind_eq_ok.1 (demand_bind_eq_ok.1 hrow).2).1
    exact ⟨(), hrow, hkey, by omega, hord, hvalid⟩

/-- What `AppendChapter` has found when it succeeds, and the rows it leaves. -/
theorem appendChapter_eq_ok {record : ChapterRecord} :
    Rows.appendChapter record now db = .ok (row, db') ↔ ∃ row₀, db.getStory record.key = .ok row₀ ∧
      row₀.finalized = false ∧ db.chapters.lookup (record.key, record.ordinal) = none ∧
      validateChapterAppend row₀ record = .ok () ∧ row = Rows.appended row₀ record.ordinal now ∧
      db' =
        { stories := db.stories.insert row₀.key row
          chapters := db.chapters.insert (record.key, record.ordinal)
            ⟨record.body, record.artifacts, now⟩ } := by
  unfold Rows.appendChapter Rows.insertChapter
  simp only [Tx.read_bind_eq_ok, Tx.require_bind_eq_ok, demand_eq_ok]
  refine exists_congr fun row₀ => and_congr_right fun _ => and_congr_right fun _ => ?_
  constructor
  · rintro ⟨_, hfree, _, hvalid, hm⟩
    obtain ⟨_, db₁, hins, hm⟩ := Tx.bind_eq_ok.1 hm
    obtain ⟨-, hins⟩ := demand_bind_eq_ok.1 (Tx.write_eq_ok.1 hins)
    obtain ⟨_, hupd, rfl⟩ := Tx.bind_pure_eq_ok.1 hm
    cases hins
    exact ⟨hfree, hvalid, rfl, updateStory_eq_ok.1 hupd⟩
  · rintro ⟨hfree, hvalid, rfl, rfl⟩
    exact ⟨(), hfree, (), hvalid, Tx.bind_eq_ok.2
      ⟨(), _, Tx.write_eq_ok.2 (demand_bind_eq_ok.2 ⟨hfree, rfl⟩), rfl⟩⟩

/-- The chapter is the next one of its story. -/
theorem appendChapter_since {new : StoryKey → Option StoryLink → Prop} {record : ChapterRecord}
    (h : Kept db) (hm : Rows.appendChapter record now db = .ok (row, db')) :
    Since new db db' ∧ ∃ ks xs, Displays db record.key ks xs ∧ record.ordinal = xs.length ∧
      Displays db' record.key ks (xs ++ [⟨record.body, record.artifacts, now⟩]) := by
  obtain ⟨row₀, hrow₀, -, -, hvalid, rfl, rfl⟩ := appendChapter_eq_ok.1 hm
  obtain ⟨-, hkey, hord, -⟩ := validateChapterAppend_eq_ok.1 hvalid
  replace hrow₀ := (getStory_eq_ok.1 hrow₀).1
  rw [← hkey, hord]
  obtain ⟨F, hF, hw⟩ := h
  obtain ⟨nd, hnd, hshow⟩ := hF.present _ row₀ hrow₀
  obtain ⟨ks, xs, hs⟩ := hw _ nd hnd
  have hnew := hF.append hrow₀ hnd ⟨record.body, record.artifacts, now⟩ now
  have hgrow := hs.update_append (⟨record.body, record.artifacts, now⟩ : ChapterRow) hnd
  rw [if_pos rfl] at hgrow
  have hd : Displays db record.key ks xs := ⟨F, hF, hs⟩
  have hlast := (hd.count hrow₀).2.2
  refine ⟨.of_represents hF hnew (hw.append _ hnd) (.append _ hnd) (.insert (.inl ?_)),
    ks, xs, hd, by omega, ⟨_, hnew, hgrow⟩⟩
  exact ⟨row₀, hrow₀, rfl⟩

/-! ## Calls -/

/-- Blobs are files under identifiers that were drawn. -/
def Named (host : Host) (s : Library) : Prop :=
  ∀ path data, s.blobs.lookup path = some data → ∃ n < s.drawn, host.newString n = path

/-- No blob was lost or changed. -/
def BlobsKept (s s' : Library) : Prop :=
  ∀ path data, s.blobs.lookup path = some data → s'.blobs.lookup path = some data

theorem BlobsKept.refl (s : Library) : BlobsKept s s := fun _ _ h => h

/-- What lies between two states of the library: stories have grown, blobs are kept. -/
structure Follows (host : Host) (new : StoryKey → Option StoryLink → Prop) (s s' : Library) :
    Prop where
  rows : Since new s.rows s'.rows
  named : Named host s'
  blobs : BlobsKept s s'

variable {host : Host} {new : StoryKey → Option StoryLink → Prop} {s₀ s s' : Library}

theorem Follows.refl (hk : Kept s.rows) (hn : Named host s) : Follows host new s s :=
  ⟨.refl hk, hn, fun _ _ h => h⟩

theorem Follows.trans {s₁ s₂ s₃ : Library} (h₁ : Follows host new s₁ s₂)
    (h₂ : Follows host new s₂ s₃) : Follows host new s₁ s₃ :=
  ⟨h₁.rows.trans h₂.rows, h₂.named, fun path data h => h₂.blobs path data (h₁.blobs path data h)⟩

theorem Follows.mono {new' : StoryKey → Option StoryLink → Prop} (h : Follows host new s s')
    (hn : ∀ k l, new k l → new' k l) : Follows host new' s s' :=
  ⟨h.rows.mono hn, h.named, h.blobs⟩

theorem mapError_eq_ok {ε ε' α : Type} {f : ε → ε'} {x : Except ε α} {a : α} :
    x.mapError f = .ok a ↔ x = .ok a := by
  cases x <;> simp [Except.mapError]

/-- A successful transaction of the row store. -/
theorem rowTx_eq_ok {α : Type} {m : Tx Rows Error α} {a : α}
    (h : (m.zoom Library.rows (fun s rows => { s with rows }) s).mapError translateRowError =
      .ok (a, s')) : ∃ rows, m s.rows = .ok (a, rows) ∧ s' = { s with rows } :=
  Tx.zoom_eq_ok.1 (mapError_eq_ok.1 h)

section Steps

variable {R : Library → Library → Prop}

/-- The call moves from states after `s₀` to such states and keeps all blobs. -/
abbrev Moves (host : Host) (new : StoryKey → Option StoryLink → Prop) (s₀ : Library)
    (R : Library → Library → Prop) {α : Type} (x : Call Library Error α) : Prop :=
  x.Keeps (Follows host new s₀) R BlobsKept

theorem rowTx_moves {α : Type} {m : Tx Rows Error α}
    (hm : ∀ db a db', Kept db → m db = .ok (a, db') → Since new db db') :
    Moves host new s₀ R (rowTx m) := by
  refine .tx .refl fun s a s' hs h => ?_
  obtain ⟨rows, hrows, rfl⟩ := rowTx_eq_ok h
  refine ⟨?_, fun _ _ h => h⟩
  exact ⟨hs.rows.trans (hm _ a rows hs.rows.kept hrows), hs.named, hs.blobs⟩

theorem rowQuery_moves {α : Type} (f : Rows → Except Error α) : Moves host new s₀ R (rowQuery f) :=
  .query .refl _

theorem drawString_moves : Moves host new s₀ R (drawString host) := by
  refine .tx .refl fun s a s' hs h => ?_
  cases h
  refine ⟨⟨hs.rows, fun path data hp => ?_, hs.blobs⟩, fun _ _ h => h⟩
  obtain ⟨n, hn, hpath⟩ := hs.named path data hp
  exact ⟨n, Nat.lt_succ_of_lt hn, hpath⟩

/-- The state after a blob was saved. -/
def Library.saved (host : Host) (s : Library) (data : Bytes) : Library :=
  { s with blobs := s.blobs.insert (host.newString s.drawn) data, drawn := s.drawn + 1 }

/-- A blob does not overwrite another one. -/
theorem blobsKept_saved (hn : Named host s) (data : Bytes) : BlobsKept s (s.saved host data) := by
  intro path d hp
  obtain ⟨n, hlt, hpath⟩ := hn path d hp
  have hne : path ≠ host.newString s.drawn := by
    intro he
    have hsame : n = s.drawn := host.newString_injective (hpath.trans he)
    omega
  simp only [Library.saved, Table.lookup_insert_eq]
  rw [if_neg hne]
  exact hp

theorem named_saved (hn : Named host s) (data : Bytes) : Named host (s.saved host data) := by
  intro path d hp
  simp only [Library.saved, Table.lookup_insert_eq] at hp
  split at hp
  · next hpath => exact ⟨s.drawn, Nat.lt_succ_self _, hpath.symm⟩
  · obtain ⟨n, hlt, hpath⟩ := hn path d hp
    exact ⟨n, Nat.lt_succ_of_lt hlt, hpath⟩

theorem Follows.saved (hs : Follows host new s₀ s) (data : Bytes) :
    Follows host new s₀ (s.saved host data) :=
  ⟨hs.rows, named_saved hs.named data,
    fun path d hp => blobsKept_saved hs.named data path d (hs.blobs path d hp)⟩

theorem saveBlob_moves (data : Bytes) : Moves host new s₀ R (saveBlob host data) := by
  refine .tx .refl fun s a s' hs h => ?_
  split at h <;> cases h
  exact ⟨hs.saved data, blobsKept_saved hs.named data⟩

theorem artifactRecord_moves (art : ArtifactInput) :
    Moves host new s₀ R (artifactRecord host art) := by
  refine .bind (.check _) fun input => .bind (.check _) fun _ => .bind drawString_moves fun _ => ?_
  unfold storeContents
  split
  · exact .pure _
  · exact .bind (saveBlob_moves _) fun _ => .pure _

theorem artifactRecords_moves (arts : List ArtifactInput) :
    Moves host new s₀ R (artifactRecords host arts) := by
  induction arts with
  | nil => exact .pure _
  | cons art arts ih =>
    exact .bind (artifactRecord_moves art) fun _ => .bind ih fun _ => .pure _

theorem appendDraft_moves (key : StoryKey) (ordinal : Int) (chap : Draft) (now : Time) :
    Moves host new s₀ R (appendDraft host key ordinal chap now) := by
  refine .bind (.bind (.check _) fun _ => .bind (artifactRecords_moves _) fun _ => .pure _)
    fun record => rowTx_moves fun db row db' hk hm => ?_
  exact (appendChapter_since hk hm).1

theorem saveChapter_moves (key : StoryKey) (chap : Draft) (now : Time) :
    Moves host new s₀ R (saveChapter host key chap now) := by
  refine .bind (.check _) fun _ => .bind ?_ fun ordinal => appendDraft_moves key ordinal chap now
  unfold nextOrdinal
  split
  · exact .pure _
  · exact .bind (rowQuery_moves _) fun _ => .pure _

end Steps

/-! ## Operations -/

/-- In the state `s` the operation makes the story `k` with the link. -/
def Op.Makes (s : Library) (k : StoryKey) (link : Option StoryLink) : Op → Prop
  | .createStory key _ _ => k = key ∧ link = none ∧ validateKey key = .ok ()
  | .cloneStory source opts _ =>
    k = opts.dest source ∧ validateKey k = .ok () ∧ validateKey source = .ok () ∧
      ∃ l src ks xs, link = some l ∧ l.key = source ∧ s.rows.getStory source = .ok src ∧
        Displays s.rows source ks xs ∧ 0 ≤ l.forkOrdinal ∧ l.forkOrdinal < xs.length
  | _ => False

theorem createStory_moves (key : StoryKey) (initial : Option Draft) (now : Time) :
    Moves host (fun k l => Op.Makes s k l (.createStory key initial now)) s₀ Eq
      (createStory host key initial now) := by
  intro s
  refine .check_bind fun _ hvalid => .tx_bind .refl fun s₁ row s₂ hs₁ _ h => ?_
  obtain ⟨rows, hrows, rfl⟩ := rowTx_eq_ok h
  refine ⟨⟨hs₁.rows.trans ?_, hs₁.named, hs₁.blobs⟩, fun _ _ h => h, ?_⟩
  · refine (createStory_since hs₁.rows.kept hrows).mono ?_
    rintro k l ⟨rfl, rfl⟩
    exact ⟨rfl, rfl, hvalid⟩
  · cases initial with
    | none => exact .pure trivial
    | some chap => exact appendDraft_moves key 0 chap now _

/-- The story is linked in the state that the call has found. -/
theorem cloneStory_moves (source : StoryKey) (opts : CloneOptions) (now : Time) :
    (cloneStory host source opts now).Ensures
      (Follows host (fun k l => Op.Makes s₀ k l (.cloneStory source opts now)) s₀) Eq BlobsKept
      (fun _ _ => True) s₀ := by
  refine .check_bind fun _ hsource => .check_bind fun _ hdest => ?_
  refine .query_bind .refl fun s src _ hs hsrc => ?_
  subst hs
  refine .check_bind fun fork hfork => .tx_bind .refl fun s₁ row s₂ hs₁ hs h => ?_
  -- nothing was written since `s`
  subst hs
  obtain ⟨rows, hrows, rfl⟩ := rowTx_eq_ok h
  refine ⟨?_, fun _ _ h => h, ?_⟩
  · refine ⟨(createLinkedStory_since hs₁.rows.kept hrows).2.mono ?_, hs₁.named, fun _ _ h => h⟩
    rintro k l ⟨rfl, rfl, hpos, ks, xs, hshow, hlt⟩
    exact ⟨rfl, mapError_eq_ok.1 hdest, hsource, _, src, ks, xs, rfl, rfl, mapError_eq_ok.1 hsrc,
      hshow, hpos, hlt⟩
  · cases opts.initialChapter with
    | none => exact .pure trivial
    | some chap => exact (appendDraft_moves _ _ chap now _).mapError

/-- **One operation.** -/
theorem exec_follows (hk : Kept s.rows) (hn : Named host s) (op : Op) :
    Follows host (fun k l => op.Makes s k l) s (exec host s op) := by
  have halone {α : Type} {x : Call Library Error α}
      (hx :
        x.Ensures (Follows host (fun k l => op.Makes s k l) s) Eq BlobsKept (fun _ _ => True) s) :
      Follows host (fun k l => op.Makes s k l) s (Proc.alone x s).2 :=
    (Proc.Sat.alone hx (fun _ => rfl) (.refl hk hn)).1
  cases op with
  | createStory key initial now => exact halone (createStory_moves key initial now s)
  | saveChapter key chap now => exact halone (saveChapter_moves key chap now s)
  | appendChapter key count chap now => exact halone (appendDraft_moves key _ chap now s)
  | cloneStory source opts now => exact halone (cloneStory_moves source opts now)
  | publish key now => exact halone (rowTx_moves (fun _ _ _ h hm => publish_since h hm) s)
  | tombstoneStory key now =>
    exact halone (rowTx_moves (fun _ _ _ h hm => tombstoneStory_since h hm) s)

/-- **Every sequence of operations.** A story that was not there before was made by one of the
operations, in the state that it found. -/
theorem run_follows (hk : Kept s.rows) (hn : Named host s) (ops : List Op) :
    Follows host
      (fun k l => ∃ before op after, ops = before ++ op :: after ∧ op.Makes (run host before s) k l)
      s (run host ops s) := by
  induction ops using List.reverseRecOn with
  | nil => exact .refl hk hn
  | append_singleton ops op ih =>
    have hstep := exec_follows ih.rows.kept ih.named op
    have hrun : run host (ops ++ [op]) s = exec host (run host ops s) op := by
      unfold run
      rw [List.foldl_append]
      rfl
    rw [hrun]
    refine (ih.mono ?_).trans (hstep.mono ?_)
    · rintro k l ⟨before, op', after, rfl, hmakes⟩
      exact ⟨before, op', after ++ [op], by simp, hmakes⟩
    · intro k l hmakes
      exact ⟨ops, op, [], rfl, hmakes⟩

/-! ## Reading -/

/-- The stories that a story is linked to, one after the other. -/
inductive LinkChain (db : Rows) : StoryKey → List StoryKey → Prop where
  | root {k : StoryKey} {row : StoryRecord} (story : db.stories.lookup k = some row)
      (original : row.link = none) : LinkChain db k []
  | link {k : StoryKey} {row : StoryRecord} {l : StoryLink} {ks : List StoryKey}
      (story : db.stories.lookup k = some row) (clone : row.link = some l)
      (rest : LinkChain db l.key ks) : LinkChain db k (l.key :: ks)

theorem Displays.linkChain (h : Displays db k ks xs) : LinkChain db k ks := by
  obtain ⟨F, hF, hs⟩ := h
  induction hs with
  | root node =>
    obtain ⟨row, hrow, hshow⟩ := hF.node node
    exact .root hrow (Option.map_eq_none_iff.1 hshow.link.symm)
  | fork node _ _ ih =>
    obtain ⟨row, hrow, hshow⟩ := hF.node node
    obtain ⟨l, hl, hkept⟩ := Option.map_eq_some_iff.1 hshow.link.symm
    obtain ⟨rfl, -⟩ := Prod.mk.inj hkept
    exact .link hrow hl ih

/-- Where the search for a chapter ends there is a row for it. -/
theorem readChapter_of_reaches (hF : Represents db F) {k : StoryKey} (h : Reaches F n k i j c) :
    db.readChapterIncludingDeleted j i = .ok c := by
  induction h with
  | @own k nd i c node after entry =>
    obtain ⟨row, hrow, hshow⟩ := hF.node node
    have hat := hshow.own (i - nd.start)
    rw [Nat.add_sub_cancel' after, entry] at hat
    unfold Rows.readChapterIncludingDeleted Rows.getStoryIncludingDeleted
    rw [hrow, hat]
    rfl
  | base _ _ _ ih => exact ih

/-- One round of `resolveLinkedOrdinal` for each story on the way, and one for the last. -/
theorem resolve_of_reaches (hF : Represents db F) {k : StoryKey} (h : Reaches F n k i j c)
    {row : StoryRecord} (hrow : db.stories.lookup k = some row) (depth : Nat) :
    resolveLinkedOrdinal db depth row i =
      if n < depth then .ok (j, (i : Int))
      else .error (.plain "chapterstore: story link chain exceeds 1024 levels") := by
  induction h generalizing row depth with
  | @own k nd i c node after entry =>
    cases depth with
    | zero => rfl
    | succ depth =>
      obtain ⟨row', hrow', hshow⟩ := hF.node node
      cases hrow.symm.trans hrow'
      have hlt : i - nd.start < nd.own.length := (List.getElem?_eq_some_iff.1 entry).1
      have hcount := hshow.count
      have hlatest := hshow.latest
      rw [if_pos (Nat.zero_lt_succ depth)]
      unfold resolveLinkedOrdinal
      rw [if_neg (by omega), hshow.key]
      cases hl : row.link with
      | none => rfl
      | some l =>
        have hpos := hshow.fork l hl
        have hstart := hshow.start hl
        dsimp only
        rw [if_pos (by omega)]
  | @base n k b j m i own c node before rest ih =>
    cases depth with
    | zero => rfl
    | succ depth =>
      obtain ⟨row', hrow', hshow⟩ := hF.node node
      cases hrow.symm.trans hrow'
      obtain ⟨l, hl, hkept⟩ := Option.map_eq_some_iff.1 hshow.link.symm
      obtain ⟨rfl, rfl⟩ := Prod.mk.inj hkept
      have hpos := hshow.fork l hl
      have hcount := hshow.count
      have hlatest := hshow.latest
      simp only [Linked.Node.start, Option.map_some, Option.getD_some] at hcount
      obtain ⟨_, hnode⟩ := rest.node
      obtain ⟨base, hbase, -⟩ := hF.node hnode
      have hrest := ih hbase depth
      unfold resolveLinkedOrdinal
      rw [if_neg (by omega), hl]
      dsimp only
      rw [if_neg (by omega), getStoryIncludingDeleted_eq_ok.2 hbase]
      dsimp only
      rw [hrest]
      by_cases hd : n < depth
      · rw [if_pos hd, if_pos (by omega)]
      · rw [if_neg hd, if_neg (by omega)]

/-- The reader of a live story, once it is known how far away the chapter is. -/
theorem chapter_of_reaches (hF : Represents s.rows F) {k : StoryKey} (h : Reaches F n k i j c)
    (hkey : validateKey k = .ok ()) (hlive : s.rows.getStory k = .ok row) :
    chapter s k i =
      if n < maxLinkDepth then .ok (chapterFromRecord i c)
      else .error (.plain "chapterstore: story link chain exceeds 1024 levels") := by
  have hres := resolve_of_reaches hF h (getStory_eq_ok.1 hlive).1 maxLinkDepth
  have hread := readChapter_of_reaches hF h
  unfold chapter resolveChapterRef
  rw [hkey, hlive]
  simp only [bind, Except.bind]
  rw [if_pos (Int.natCast_nonneg i), hres]
  by_cases hn : n < maxLinkDepth
  · rw [if_pos hn, if_pos hn]
    simp only [Except.mapError]
    rw [hread]
  · rw [if_neg hn, if_neg hn]
    rfl

/-- **The reader finds the chapter of the list**, unless it would have to follow 1024 links. -/
theorem chapter_of_displays (h : Displays s.rows k ks xs) (hkey : validateKey k = .ok ())
    (hlive : s.rows.getStory k = .ok row) (hc : xs[i]? = some c) :
    chapter s k i = .ok (chapterFromRecord i c) ∨ maxLinkDepth ≤ ks.length := by
  obtain ⟨F, hF, hs⟩ := h
  obtain ⟨n, j, hn, hr⟩ := hs.reaches hc
  rw [chapter_of_reaches hF hr hkey hlive]
  by_cases hd : n < maxLinkDepth
  · exact .inl (if_pos hd)
  · exact .inr (by omega)

/-- A story's own chapters are no link away. -/
theorem chapter_of_own (h : Displays s.rows k ks xs) (hkey : validateKey k = .ok ())
    (hlive : s.rows.getStory k = .ok row) (hl : row.link = some l) (hi : l.forkOrdinal < i)
    (hc : xs[i]? = some c) :
    chapter s k i = .ok (chapterFromRecord i c) ∧
      s.rows.readChapterIncludingDeleted k i = .ok c := by
  obtain ⟨F, hF, hs⟩ := h
  obtain ⟨nd, hnd, hshow⟩ := hF.present k row (getStory_eq_ok.1 hlive).1
  have hpos := hshow.fork l hl
  have hstart := hshow.start hl
  have hr : Reaches F 0 k i k c := .own hnd (by omega) (hs.getElem?_own hnd (by omega) hc)
  refine ⟨?_, readChapter_of_reaches hF hr⟩
  rw [chapter_of_reaches hF hr hkey hlive]
  exact if_pos (by decide)

/-! ## Clones -/

theorem named_empty : Named host {} := fun _ _ h => nomatch h

/-- What the operations so far have made. -/
theorem run_empty_follows (ops : List Op) :
    Follows host
      (fun k l => ∃ before op after, ops = before ++ op :: after ∧
        op.Makes (run host before {}) k l)
      {} (run host ops {}) := run_follows kept_empty named_empty ops

/-- The operation adds the story with the link: it was not there before. -/
def Op.Adds (host : Host) (s : Library) (k : StoryKey) (link : Option StoryLink) (op : Op) : Prop :=
  s.rows.stories.lookup k = none ∧
    ∃ row, (exec host s op).rows.stories.lookup k = some row ∧ row.link = link

/-- Every story was added by an operation, which made it. -/
theorem exists_makes {ops : List Op} (hk : (run host ops {}).rows.stories.lookup k = some row) :
    ∃ before op after, ops = before ++ op :: after ∧ op.Adds host (run host before {}) k row.link ∧
      op.Makes (run host before {}) k row.link := by
  induction ops using List.reverseRecOn generalizing row with
  | nil => cases hk
  | append_singleton ops op ih =>
    have hrun : run host (ops ++ [op]) {} = exec host (run host ops {}) op := List.foldl_concat ..
    rw [hrun] at hk
    have hbefore := @run_empty_follows host ops
    have hstep := exec_follows hbefore.rows.kept hbefore.named op
    cases hold : (run host ops {}).rows.stories.lookup k with
    | none =>
      obtain ⟨row₀, hrow₀, -⟩ | hmade := hstep.rows.rows.made k row hk
      · cases hold.symm.trans hrow₀
      · exact ⟨ops, op, [], rfl, ⟨hold, row, hk, rfl⟩, hmade⟩
    | some row₀ =>
      obtain ⟨row₁, hrow₁, hlink⟩ := hstep.rows.rows.stays k row₀ hold
      obtain rfl := Option.some.inj (hrow₁.symm.trans hk)
      obtain ⟨before, op', after, rfl, hadds⟩ := ih hold
      exact ⟨before, op', after ++ [op], by simp, hlink ▸ hadds⟩

theorem Op.Makes.validateKey {op : Op} {link : Option StoryLink} (h : op.Makes s k link) :
    validateKey k = .ok () := by
  cases op with
  | createStory key initial now =>
    obtain ⟨rfl, -, hkey⟩ := h
    exact hkey
  | cloneStory source opts now => exact h.2.1
  | saveChapter | appendChapter | publish | tombstoneStory => exact h.elim

theorem run_append (before after : List Op) (s : Library) :
    run host (before ++ after) s = run host after (run host before s) := List.foldl_append ..

/-- The first chapters of a clone are its base's. -/
theorem Displays.clone {zs : List ChapterRow} (h : Displays db k ks zs)
    (hk : db.stories.lookup k = some row) (hl : row.link = some l) :
    ∃ ks' base own, ks = l.key :: ks' ∧ Displays db l.key ks' base ∧
      zs = base.take (l.forkOrdinal + 1).toNat ++ own := by
  obtain ⟨F, hF, hs⟩ := h
  obtain ⟨nd, hnd, hshow⟩ := hF.present k row hk
  have hlink := hshow.link
  rw [hl] at hlink
  cases hs with
  | root node =>
    cases node.symm.trans hnd
    cases hlink
  | @fork _ b n own ks' base node hbase within =>
    cases node.symm.trans hnd
    cases hlink
    exact ⟨ks', base, own, rfl, ⟨F, hF, hbase⟩, rfl⟩

/-- A chapter at or before the fork is the one that the source has shown ever since. -/
theorem getElem?_clone {s₁ : Library} {ks' : List StoryKey} {zs : List ChapterRow}
    (hsince : Since new s₁.rows s.rows) (hsource : Displays s₁.rows l.key ks xs)
    (hfork : l.forkOrdinal < xs.length) (h : Displays s.rows k ks' zs)
    (hk : s.rows.stories.lookup k = some row) (hl : row.link = some l)
    (hi : (i : Int) ≤ l.forkOrdinal) : ks' = l.key :: ks ∧ zs[i]? = xs[i]? := by
  obtain ⟨ks₂, base, own, rfl, hbase, rfl⟩ := h.clone hk hl
  obtain ⟨ys, hgrown⟩ := hsince.grows _ ks xs hsource
  obtain ⟨rfl, rfl⟩ := hgrown.unique hbase
  refine ⟨rfl, ?_⟩
  rw [List.getElem?_append_left (by rw [List.length_take, List.length_append]; omega),
    List.getElem?_take_of_lt (by omega), List.getElem?_append_left (by omega)]

/-- A live clone reads like a copy of what its source was when it was made: for every sequence
of operations, one of them added the clone, and up to the fork ordinal it shows the chapters that
its source showed when the clone was made, and after it its own. -/
theorem clone_reads_source (host : Host) (ops : List Op) (key : StoryKey) (row : StoryRecord)
    (link : StoryLink) (live : (run host ops {}).rows.getStory key = .ok row)
    (linked : row.link = some link) :
    ∃ before opts now after, ops = before ++ .cloneStory link.key opts now :: after ∧
      opts.dest link.key = key ∧
      (Op.cloneStory link.key opts now).Adds host (run host before {}) key (some link) ∧ ∀ i : Int,
        (0 ≤ i → i ≤ link.forkOrdinal →
          (∃ c, chapter (run host ops {}) key i = .ok c ∧
            chapter (run host before {}) link.key i = .ok c) ∨
          ∃ chain, LinkChain (run host ops {}).rows key chain ∧ 1024 ≤ chain.length) ∧
        (link.forkOrdinal < i → i < row.chapterCount →
          ∃ own, (run host ops {}).rows.readChapterIncludingDeleted key i = .ok own ∧
            chapter (run host ops {}) key i = .ok (chapterFromRecord i own)) := by
  have hrow := (getStory_eq_ok.1 live).1
  obtain ⟨before, op, after, rfl, hadds, hmakes⟩ := exists_makes hrow
  have hkey := hmakes.validateKey
  cases op with
  | createStory => cases linked.symm.trans hmakes.2.1
  | saveChapter | appendChapter | publish | tombstoneStory => exact hmakes.elim
  | cloneStory source opts now =>
    obtain ⟨rfl, -, hsourceKey, l, src, ks, xs, hl, rfl, hsrc, hsource, hpos, hfork⟩ := hmakes
    cases linked.symm.trans hl
    have hstart := @run_empty_follows host before
    have hsince :=
      run_follows hstart.rows.kept hstart.named (.cloneStory link.key opts now :: after)
    rw [← run_append] at hsince
    obtain ⟨ks', zs, hzs⟩ := hsince.rows.kept.displays hrow
    have hcount := (hzs.count hrow).2.1
    refine ⟨before, opts, now, after, rfl, rfl, linked ▸ hadds, fun i =>
      ⟨fun h0 hi => ?_, fun hi hlt => ?_⟩⟩
    · obtain ⟨n, rfl⟩ := Int.eq_ofNat_of_zero_le h0
      obtain ⟨rfl, hsame⟩ := getElem?_clone hsince.rows hsource hfork hzs hrow linked hi
      obtain ⟨c, hc⟩ : ∃ c, xs[n]? = some c := ⟨xs[n], List.getElem?_eq_getElem (by omega)⟩
      -- the clone's chain is one longer than its source's
      obtain hread | hlong := chapter_of_displays hzs hkey live (hsame.trans hc)
      · obtain hread' | hlong := chapter_of_displays hsource hsourceKey hsrc hc
        · exact .inl ⟨_, hread, hread'⟩
        · exact .inr ⟨_, hzs.linkChain, Nat.le_succ_of_le hlong⟩
      · exact .inr ⟨_, hzs.linkChain, hlong⟩
    · obtain ⟨n, rfl⟩ := Int.eq_ofNat_of_zero_le (show 0 ≤ i by omega)
      obtain ⟨c, hc⟩ : ∃ c, zs[n]? = some c := ⟨zs[n], List.getElem?_eq_getElem (by omega)⟩
      obtain ⟨hread, hown⟩ := chapter_of_own hzs hkey live linked hi hc
      exact ⟨c, hown, hread⟩

/-- A host whose digests are all alike. -/
def sampleHost : Host where
  maxInlineArtifactBytes := 0
  sum256 _ := Vector.replicate 32 0
  newString n := String.ofList (List.replicate (n + 1) 'a')
  newString_injective m n h := by
    have hlist := String.ofList_injective h
    have hlen := congrArg List.length hlist
    simp only [List.length_replicate] at hlen
    omega
  newString_ne_empty n h := by
    have hlist := String.ofList_injective (h.trans String.ofList_nil.symm)
    cases hlist

/-- A source that grows and is tombstoned after it was cloned. -/
def sampleOps : List Op :=
  [.createStory ⟨"t", "a"⟩ (some { body := [1] }) 1,
    .cloneStory ⟨"t", "a"⟩ { destinationKey := ⟨"", "b"⟩ } 2,
    .saveChapter ⟨"t", "a"⟩ { body := [2] } 3,
    .saveChapter ⟨"t", "b"⟩ { body := [3] } 4,
    .publish ⟨"t", "a"⟩ 5,
    .tombstoneStory ⟨"t", "a"⟩ 6]

/-- The row of the clone. -/
def sampleClone : StoryRecord :=
  { key := ⟨"t", "b"⟩, createdAt := 2, updatedAt := 4, link := some ⟨⟨"t", "a"⟩, 0⟩,
    chapterCount := 2, latestOrdinal := 1 }

theorem clone_reads_source_tombstoned :
    (run sampleHost sampleOps {}).rows.getStory ⟨"t", "b"⟩ = .ok sampleClone ∧
    ∃ before opts now after, sampleOps = before ++ .cloneStory ⟨"t", "a"⟩ opts now :: after ∧
      opts.dest ⟨"t", "a"⟩ = ⟨"t", "b"⟩ ∧
      (Op.cloneStory ⟨"t", "a"⟩ opts now).Adds sampleHost (run sampleHost before {}) ⟨"t", "b"⟩
        (some ⟨⟨"t", "a"⟩, 0⟩) ∧ ∀ i : Int,
        (0 ≤ i → i ≤ 0 →
          (∃ c, chapter (run sampleHost sampleOps {}) ⟨"t", "b"⟩ i = .ok c ∧
            chapter (run sampleHost before {}) ⟨"t", "a"⟩ i = .ok c) ∨
          ∃ chain, LinkChain (run sampleHost sampleOps {}).rows ⟨"t", "b"⟩ chain ∧
            1024 ≤ chain.length) ∧
        (0 < i → i < 2 →
          ∃ own, (run sampleHost sampleOps {}).rows.readChapterIncludingDeleted ⟨"t", "b"⟩ i =
              .ok own ∧
            chapter (run sampleHost sampleOps {}) ⟨"t", "b"⟩ i =
              .ok (chapterFromRecord i own)) := by
  have live : (run sampleHost sampleOps {}).rows.getStory ⟨"t", "b"⟩ = .ok sampleClone := by
    decide +kernel
  exact ⟨live,
    clone_reads_source sampleHost sampleOps ⟨"t", "b"⟩ sampleClone ⟨⟨"t", "a"⟩, 0⟩ live rfl⟩

end JobDB.ChapterStore
