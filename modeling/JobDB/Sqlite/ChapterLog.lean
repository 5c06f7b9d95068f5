import JobDB.Sqlite.Effects

/-!
# The chapter log of the SQLite runtime

`Grows` is what every step of every call does to chapter logs and grants: both only
grow. `Ready` is the invariant the calls rely on: rows lie under their keys and
each story's chapters are numbered 0, 1, 2, and so on.

The second part goes through the calls once more. `Steps H i P` says of a call
that each of its steps has an effect; where the call writes a chapter, the
condition on its success says which chapter is in the log.
-/

namespace JobDB.Sqlite

/-- Logs and grants grow, and time goes on. -/
structure Grows (v v' : Sched) : Prop where
  logs : Logs.Grows v.logs v'.logs
  grants : v.grants <+: v'.grants
  now : v.now ≤ v'.now

namespace Grows

variable {v v' v'' : Sched}

theorem of_logs_eq (hs : v'.logs = v.logs) (hg : v.grants <+: v'.grants) (hn : v.now ≤ v'.now) :
    Grows v v' :=
  ⟨hs ▸ .refl _, hg, hn⟩

theorem refl (v : Sched) : Grows v v := of_logs_eq rfl (List.prefix_refl _) (le_refl _)

theorem trans (h : Grows v v') (h' : Grows v' v'') : Grows v v'' :=
  ⟨h.logs.trans h'.logs, h.grants.trans h'.grants, le_trans h.now h'.now⟩

theorem setStory {k : JobKey} {st : Story}
    (h : ∀ st₀, v.story k = some st₀ → st₀.chapters <+: st.chapters) :
    Grows v (v.setStory k st) := by
  refine ⟨?_, List.prefix_refl _, le_refl _⟩
  rw [Sched.setStory_logs]
  refine .update fun l₀ hl₀ => ?_
  obtain ⟨st₀, hst₀, rfl⟩ := Option.map_eq_some_iff.mp hl₀
  exact h st₀ hst₀

end Grows

/-- The invariant of rows and chapters. -/
structure Ready (v : Sched) : Prop where
  keyed : Keyed v
  numbered : Logs.AllDense StoredChapter.ordinal v.logs

section Effect

variable {H : Host} {i : Nat}
  {P : Terms} {v v' : Sched}

theorem Effect.grows (h : Effect H i P v v') : Grows v v' := by
  induction h with
  | same => exact .refl _
  | tick later => exact .of_logs_eq rfl (List.prefix_refl _) later
  | row => exact .of_logs_eq rfl (List.prefix_refl _) (le_refl _)
  | granted => exact .of_logs_eq rfl (List.prefix_append _ _) (le_refl _)
  | claimed => exact .of_logs_eq rfl (List.prefix_append _ _) (le_refl _)
  | inserted => exact .of_logs_eq rfl (List.prefix_refl _) (le_refl _)
  | appended stored =>
    refine .setStory fun st₀ h₀ => ?_
    cases stored.symm.trans h₀
    exact List.prefix_append _ _
  | payloadFailed job stored =>
    refine .trans (.setStory fun st₀ h₀ => ?_)
      (.of_logs_eq (Sched.setJob_logs ..) (List.prefix_refl _) (le_refl _))
    cases stored.symm.trans h₀
    exact List.prefix_append _ _
  | created absent => exact .setStory fun st₀ h₀ => nomatch absent.symm.trans h₀
  | linked n absent => exact .setStory fun st₀ h₀ => nomatch absent.symm.trans h₀
  | chain _ _ ih₁ ih₂ => exact ih₁.trans ih₂

theorem Effect.numbered (h : Effect H i P v v') :
    Logs.AllDense StoredChapter.ordinal v.logs → Logs.AllDense StoredChapter.ordinal v'.logs := by
  induction h with
  | same => exact id
  | tick => exact id
  | row => exact id
  | granted => exact id
  | claimed => exact id
  | inserted => exact id
  | appended stored next =>
    intro hn
    rw [Sched.setStory_logs]
    exact hn.update ((hn _ _ (Sched.logs_of_story stored)).append next)
  | payloadFailed job stored next =>
    intro hn
    rw [Sched.setJob_logs, Sched.setStory_logs]
    exact hn.update ((hn _ _ (Sched.logs_of_story stored)).append next)
  | created =>
    intro hn
    rw [Sched.setStory_logs]
    exact hn.update .nil
  | linked n _ stored =>
    intro hn
    rw [Sched.setStory_logs]
    exact hn.update ((hn _ _ (Sched.logs_of_story stored)).take n)
  | chain _ _ ih₁ ih₂ => exact fun hn => ih₂ (ih₁ hn)

theorem Effect.ready (h : Effect H i P v v') (hr : Ready v) : Ready v' :=
  ⟨h.keyed hr.keyed, h.numbered hr.numbered⟩

end Effect

/-! ## A chapter in the log -/

/-- The chapter is in the job's log, under the ordinal. -/
def Written (v : Sched) (k : JobKey) (n : Int) (ch : StoredChapter) : Prop :=
  Logs.At StoredChapter.ordinal v.logs k n ch

theorem Written.grows {v v' : Sched} {k : JobKey} {n : Int} {ch : StoredChapter}
    (h : Written v k n ch) (hg : Grows v v') : Written v' k n ch := Logs.At.grows h hg.logs

/-- A chapter that has just been put behind the others. -/
theorem written_setStory {v v' : Sched} {k : JobKey} {st : Story} {ch : StoredChapter}
    (hv : v'.logs = (v.setStory k { st with chapters := st.chapters ++ [ch] }).logs)
    (hn : Logs.AllDense StoredChapter.ordinal v.logs) (hst : v.story k = some st)
    (hnext : ch.ordinal = st.chapterCount) : Written v' k ch.ordinal ch := by
  unfold Written
  rw [hv, Sched.setStory_logs]
  exact .update_append (hn _ _ (Sched.logs_of_story hst)) hnext

/-- The chapter is in the log in the form it is encoded in, and call `i` wrote it. -/
def Own (H : Host) (i : Nat) (v : Sched) (k : JobKey) (n : Int) (ch : Chapter) : Prop :=
  ∃ body, H.encodeChapter ch = .ok body ∧ Written v k n ⟨n, body, ch.artifacts, i⟩

/-- There is a chapter in the log that `sameRuntimeChapter` takes for the same. -/
def Equal (H : Host) (v : Sched) (k : JobKey) (n : Int) (ch : Chapter) : Prop :=
  ∃ stored existing, Written v k n stored ∧
    H.decodeChapter n stored.body stored.artifacts = .ok existing ∧
    sameRuntimeChapter H existing ch = .ok true

theorem Own.grows {H : Host} {i : Nat} {v v' : Sched} {k : JobKey} {n : Int} {ch : Chapter}
    (h : Own H i v k n ch) (hg : Grows v v') : Own H i v' k n ch := by
  obtain ⟨body, hb, hw⟩ := h
  exact ⟨body, hb, hw.grows hg⟩

theorem Equal.grows {H : Host} {v v' : Sched} {k : JobKey} {n : Int} {ch : Chapter}
    (h : Equal H v k n ch) (hg : Grows v v') : Equal H v' k n ch := by
  obtain ⟨stored, existing, hw, hd⟩ := h
  exact ⟨stored, existing, hw.grows hg, hd⟩

/-! ## Steps of calls -/

/-- Among other calls every step of the call has an effect, and success of the
call means `Q`. -/
abbrev Steps {α : Type} (H : Host) (i : Nat)
    (P : Terms)
    (Q : α → State → Prop) (x : Call State Err α) (s : State) : Prop :=
  x.Ensures (fun s => Ready s.sched) (fun s s' => Grows s.sched s'.sched)
    (fun s s' => Effect H i P s.sched s'.sched) Q s

/-- Every step of the call has an effect. -/
abbrev Acts {α : Type} (H : Host) (i : Nat)
    (P : Terms)
    (x : Call State Err α) : Prop :=
  x.Keeps (fun s => Ready s.sched) (fun s s' => Grows s.sched s'.sched)
    (fun s s' => Effect H i P s.sched s'.sched)

section Rules

variable {α : Type} {H : Host} {i : Nat}
  {P : Terms}
  {Q : α → State → Prop} {s : State}

theorem Steps.tx {m : Tx State Err α}
    (hm : ∀ s₁ a s₂, Ready s₁.sched → Grows s.sched s₁.sched → m s₁ = .ok (a, s₂) →
      Effect H i P s₁.sched s₂.sched ∧ Q a s₂) : Steps H i P Q (Call.tx m) s := by
  refine Call.Ensures.tx (fun _ => .same) fun s₁ a s₂ hi hr h => ?_
  obtain ⟨he, hq⟩ := hm s₁ a s₂ hi hr h
  exact ⟨he.ready hi, he, hq⟩

theorem Steps.query {f : State → Except Err α}
    (hQ : ∀ s₁ a, Ready s₁.sched → Grows s.sched s₁.sched → f s₁ = .ok a → Q a s₁) :
    Steps H i P Q (Call.query f) s :=
  Call.Ensures.query (fun _ => .same) hQ

theorem Steps.check {r : Except Err α} (hQ : ∀ a, r = .ok a → Q a s) :
    Steps H i P Q (Call.check r) s := Call.Ensures.check hQ

/-- What only grows is not lost during a call. -/
theorem Steps.frame {x : Call State Err α} {F : Sched → Prop} (h : Steps H i P Q x s)
    (hF : F s.sched) (hg : ∀ v v', Grows v v' → F v → F v') :
    Steps H i P (fun a s => Q a s ∧ F s.sched) x s :=
  Call.Ensures.frame h hF (fun _ _ _ hf hr => hg _ _ hr hf) fun _ _ _ hf he => hg _ _ he.grows hf

theorem Acts.tx {m : Tx State Err α}
    (hm : ∀ s a s', Ready s.sched → m s = .ok (a, s') → Effect H i P s.sched s'.sched) :
    Acts H i P (Call.tx m) :=
  fun _ => Steps.tx fun s₁ a s₂ hi _ h => ⟨hm s₁ a s₂ hi h, trivial⟩

theorem Acts.query (f : State → Except Err α) : Acts H i P (Call.query f) :=
  Call.Keeps.query (fun _ => .same) f

/-- Whatever else happens during a call, stories and grants have only grown. -/
theorem Acts.since {x : Call State Err α} (h : Acts H i P x) (s : State) :
    Steps H i P (fun _ s' => Grows s.sched s'.sched) x s := by
  have hframe : Steps H i P (fun _ s' => True ∧ Grows s.sched s'.sched) x s :=
    Steps.frame (h s) (.refl _) fun _ _ hg hf => hf.trans hg
  exact hframe.imp fun _ _ hv => hv.2

end Rules

end JobDB.Sqlite
