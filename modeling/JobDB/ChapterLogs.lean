import JobDB.Core.ChapterLog
import JobDB.Sqlite.Leases

/-!
# Chapter logs

The guarantee on chapters, for both runtimes: under every interleaving the chapters
of a job are numbered from 0 on, a chapter stays what and where it is, and success
of a call means that its chapter, or one that is the same, is in the log under the
ordinal the call asked for.

In both runtimes the check of the lease, the check of the ordinal and the append
are steps of their own. What the argument rests on is the append alone: it takes
the next ordinal and no other.
-/

namespace JobDB

/-- **Chapter logs**, of the SQLite runtime and of the core runtime. In either
let calls run interleaved, from an empty store, while leases come and go and the
clock moves on. -/
theorem chapter_log :
    (∀ (H : Host) (t₀ : Time) (ls₁ ls₂ : List (System.Label Sqlite.Request))
      (p₁ p₂ : Sqlite.Calls),
      Along (Sqlite.system H).Step ls₁ ⟨{ now := t₀ }, []⟩ p₁ →
      Along (Sqlite.system H).Step ls₂ p₁ p₂ →
      (∀ k l, p₁.shared.sched.logs k = some l →
        l.map (·.ordinal) = (List.range l.length).map Int.ofNat) ∧
      (∀ k n ch, Sqlite.Written p₁.shared.sched k n ch → Sqlite.Written p₂.shared.sched k n ch) ∧
      ∀ i c out, p₁.Answered i c (.ok out) → Sqlite.Answer H i c p₂.shared.sched) ∧
    ∀ (σ τ : Type) (S : Core.Services σ τ) (L : Core.LawfulChapterLog S.chapters)
      (s₀ : Core.State σ τ) (ls₁ ls₂ : List (System.Label Core.Request))
      (p₁ p₂ : Pool (Core.State σ τ) Core.Request (Except Err Unit)),
      (∀ k, L.log s₀.chapters k = none) →
      Along (Core.system S).Step ls₁ ⟨s₀, []⟩ p₁ → Along (Core.system S).Step ls₂ p₁ p₂ →
      (∀ k l, L.log p₁.shared.chapters k = some l →
        l.map (·.ordinal) = (List.range l.length).map Int.ofNat) ∧
      (∀ k n ch, Logs.At StoredChapter.ordinal (L.log p₁.shared.chapters) k n ch →
        Logs.At StoredChapter.ordinal (L.log p₂.shared.chapters) k n ch) ∧
      ∀ i c out, p₁.Answered i c (.ok out) → Core.Answer L i c p₂.shared := by
  constructor
  · intro H t₀ ls₁ ls₂ p₁ p₂ h₁ h₂
    have hsound := Sqlite.calls_sound (M := Sqlite.system H) (P := .any) rfl rfl
      (fun _ _ _ _ => trivial) fun s c _ => c.meets_of_forall (fun _ _ _ _ => trivial) s.sched
    obtain ⟨hok₁, _⟩ := hsound.run h₁ (.start (Sqlite.ready_empty t₀))
    obtain ⟨_, hgrows⟩ := hsound.run h₂ hok₁
    refine ⟨hok₁.inv.numbered, fun k n ch hw => hw.grows hgrows, fun i c out ha => ?_⟩
    exact (hok₁.answer ha out rfl).grows hgrows
  · intro σ τ S L s₀ ls₁ ls₂ p₁ p₂ h₀ h₁ h₂
    have hstart : Core.Numbered L s₀ := fun k l hl => nomatch (h₀ k).symm.trans hl
    obtain ⟨hok₁, _⟩ := (Core.system_sound S L).run h₁ (.start hstart)
    obtain ⟨_, hgrows⟩ := (Core.system_sound S L).run h₂ hok₁
    refine ⟨hok₁.inv, fun k n ch hw => hw.grows hgrows, fun i c out ha => ?_⟩
    exact (hok₁.answer ha out rfl).grows hgrows

/-! ### A chapter put by each runtime -/

/-- The chapter that is put. -/
def sampleChapter : Chapter where
  ordinal := 0
  body := .jobAttemptOutcome (.applicationOutput "done")

namespace Sqlite

/-- The job is submitted and leased, and its worker puts a chapter. -/
def chapterPut : Calls :=
  [.call (.submit { job := sampleJob }), .run 0, .run 0, .run 0,
    .call (.getJobLease (leaseRequest "w") .start), .run 1,
    .call (.putChapter none
      { leaseID := "x", jobKey := ⟨"t", "j"⟩, ordinal := 0, chapter := sampleChapter }),
    .run 2, .run 2, .run 2, .run 2, .run 2].foldl (system .accepting).drive ⟨{ now := 1 }, []⟩

end Sqlite

namespace Core

/-- A scheduler that agrees to everything. -/
def Scheduler.agreeing : Scheduler Unit where
  getJob _ _ := .ok { leaseWorkerID := "w" }
  createJob _ _ := .ok ()
  cancelJob _ _ _ _ := .ok ()
  validateLease identity _ := .ok { identity := identity }
  validateLease_jobKey h := by
    cases h
    rfl
  completeLease _ _ := .ok ()
  rescheduleLease _ _ := .ok ()
  getWaitingTask _ _ := .error (.conflict "job is not waiting")
  claimTask _ _ := .error (.conflict "job is not waiting")

def Services.sample : Services Unit (Logs JobKey StoredChapter) where
  host := .accepting
  scheduler := .agreeing
  chapters := .memory
  taskChapter req _ _ _ _ :=
    .ok { ordinal := 0, body := .taskAttemptOutcome (.applicationOutput req.data) }

/-- The job is submitted, and a worker puts a chapter. -/
def chapterPut : Pool (State Unit (Logs JobKey StoredChapter)) Request (Except Err Unit) :=
  [.call (.submitJob ⟨"t", "j"⟩ { ordinal := 0, body := .jobStart "input" }), .run 0, .run 0,
    .call (.putChapter none
      { leaseID := "x", jobKey := ⟨"t", "j"⟩, ordinal := 1,
        chapter := { sampleChapter with ordinal := 1 } }),
    .run 1, .run 1, .run 1, .run 1, .run 1].foldl (system .sample).drive
      ⟨⟨(), fun _ => none, 1⟩, []⟩

end Core

theorem chapter_log_put :
    Sqlite.Answer .accepting 2 (.putChapter none
        { leaseID := "x", jobKey := ⟨"t", "j"⟩, ordinal := 0, chapter := sampleChapter })
      Sqlite.chapterPut.shared.sched ∧
    Core.Answer (S := .sample) Core.ChapterLog.memory_lawful 1 (.putChapter none
        { leaseID := "x", jobKey := ⟨"t", "j"⟩, ordinal := 1,
          chapter := { sampleChapter with ordinal := 1 } })
      Core.chapterPut.shared := by
  obtain ⟨ls₁, h₁⟩ : ∃ ls, Along (Sqlite.system .accepting).Step ls ⟨{ now := 1 }, []⟩
      Sqlite.chapterPut :=
    System.drive_along (by trivial)
  obtain ⟨ls₂, h₂⟩ : ∃ ls, Along (Core.system .sample).Step ls ⟨⟨(), fun _ => none, 1⟩, []⟩
      Core.chapterPut :=
    System.drive_along (by trivial)
  constructor
  · exact (chapter_log.1 .accepting 1 ls₁ [] _ _ h₁ .nil).2.2 2 _ [] rfl
  · exact (chapter_log.2 _ _ .sample Core.ChapterLog.memory_lawful _ ls₂ [] _ _ (fun _ => rfl) h₂
      .nil).2.2 1 _ () rfl

end JobDB
