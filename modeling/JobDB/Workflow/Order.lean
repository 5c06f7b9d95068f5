import JobDB.Workflow.History

/-!
# The order of the history

Declarations wait in memory for the next durable record and travel in its
chapter's metadata. Read back, the chapters must still tell the run's events in
the order the run saw them.

`Ordered` is that statement for one state: the records of the chapters below the
run's ordinal, followed by the pending declarations, are the events read at the
start followed by those recorded since. Two kinds of difference are by design.
An activation is written just before the record that needs it, so its chapter
comes *before* the declarations that record carries; activations are compared
apart. And where another execution's chapter was adopted, its declarations may
carry that execution's clock samples, so records are compared through a function
`f` that forgets these, or as they are when the run is alone on the log.

Every call keeps `Ordered` (`call_ordered`); `history_ordered` is the statement
about whole runs.
-/

namespace JobDB.Workflow

/-! ## What an append can do -/

/-- The record an append writes. -/
def Record.written (rec : Record) (m : Mode) (A : Ambient) : Record :=
  rec.stamp m (A.now (.stamp rec.kind rec.id))

/-- The log once an append has arrived, whatever its caller learns. -/
def Run.putLog (s : Run) (m : Mode) (A : Ambient) (rec : Record) : List Chapter :=
  (s.putChapter (A.put rec.kind rec.id) (s.chapterOf (rec.written m A))).2

/-- The answers and final states of `append m A rec` from `s`. -/
inductive Appended (m : Mode) (A : Ambient) (rec : Record) (s : Run) :
    Except Halt Record × Run → Prop where
  | refused (text : String) : Appended m A rec s (.error (.invalid text), s)
  | failed (f : Fatal) : Appended m A rec s
      (.error (.fatal f), { s with log := s.putLog m A rec, fatal := some f })
  /-- The chapter at the run's ordinal is the run's own or stands for it. -/
  | committed (got : Chapter) (w : Record) (here : (s.putLog m A rec)[s.ordinal]? = some got)
      (body : got.body = .execution w) (kind : w.kind = rec.kind) (plain : got.retained = none)
      (same : sameExecutionPrefix (s.chapterOf (rec.written m A)).pre got.pre = true)
      (alone : (A.put rec.kind rec.id).others = [] → s.log.length = s.ordinal →
        s.putLog m A rec = s.log ++ [s.chapterOf (rec.written m A)] ∧ w = rec.written m A) :
      Appended m A rec s (.ok w, Run.commit (s.putLog m A rec) w s)

@[simp] theorem stamp_kind (r : Record) (m : Mode) (t : Time) : (r.stamp m t).kind = r.kind := by
  unfold Record.stamp Record.timed
  split <;> rfl

@[simp] theorem stamp_id (r : Record) (m : Mode) (t : Time) : (r.stamp m t).id = r.id := by
  unfold Record.stamp Record.timed
  split <;> rfl

@[simp] theorem written_kind (r : Record) (m : Mode) (A : Ambient) :
    (r.written m A).kind = r.kind := stamp_kind r m _

theorem control_apply {α : Type} (f : Fatal) (s : Run) :
    ∃ g, (control f : RunM α) s = (.error (.fatal g), { s with fatal := some g }) := by
  cases h : s.fatal with
  | none => exact ⟨f, by simp [control, Act.bind_apply, h]⟩
  | some g =>
    refine ⟨g, ?_⟩
    simp only [control, Act.bind_apply, Act.get_apply, h, Act.stop_apply]
    rw [← h]

theorem control_keeps {α : Type} {P : Run → Prop} {Q : α → Run → Prop}
    (h : ∀ s g, P s → P { s with fatal := some g }) (f : Fatal) :
    Act.Triple P (control f : RunM α) Q P := by
  intro s hs
  obtain ⟨g, hg⟩ := control_apply (α := α) f s
  rw [hg]
  exact h s g hs

/-- A check only looks, and finds no fatal error where it passes. -/
theorem check_keeps {P : Run → Prop} (A : Ambient) (p : Point) :
    Act.Triple P (check A p) (fun _ s => P s ∧ s.fatal = none) P := by
  refine .get_bind fun t => .ite (fun _ => .stop fun _ h => h.2) fun _ => ?_
  cases hf : t.fatal with
  | some g => exact .stop fun _ h => h.2
  | none =>
    cases (if t.live then A.ended p t.frames else none) with
    | some c => exact .stop fun _ h => h.2
    | none =>
      refine .pure fun s h => ⟨h.2, ?_⟩
      rw [h.1, hf]

theorem attachPrefix_body (p : List Record) (ch : Chapter) :
    (attachPrefix p ch).body = ch.body := by
  unfold attachPrefix
  split <;> rfl

theorem attachPrefix_retained (p : List Record) (ch : Chapter) :
    (attachPrefix p ch).retained = ch.retained := by
  unfold attachPrefix
  split <;> rfl

theorem chapterOf_body (s : Run) (r : Record) : (s.chapterOf r).body = .execution r := by
  unfold Run.chapterOf
  split
  · rfl
  · rw [attachPrefix_body]

theorem chapterOf_retained (s : Run) (r : Record) : (s.chapterOf r).retained = none := by
  unfold Run.chapterOf
  split
  · rfl
  · rw [attachPrefix_retained]

variable {got : Chapter} {r w : Record}

theorem records_of_execution (h : got.body = .execution r) :
    got.records = got.decodePrefix ++ [r] := by
  unfold Chapter.records
  rw [h]

/-- An adopted chapter holds the record it was adopted for. -/
theorem adopts_eq_some {ch : Chapter} (h : adopts ch r got = some w) :
    got.body = .execution w ∧ w.kind = r.kind ∧ got.retained = ch.retained ∧
      sameExecutionPrefix ch.pre got.pre = true := by
  unfold adopts at h
  cases hb : got.body with
  | execution winner =>
    simp only [hb] at h
    split at h
    · next hc =>
      obtain rfl := Option.some.inj h
      exact ⟨rfl, hc.2.2.1, hc.2.2.2.2.2.2⟩
    · cases h
  | _ => simp [hb] at h

theorem Run.putChapter_grows (s : Run) (a : PutAnswer) (ch : Chapter) :
    s.log <+: (s.putChapter a ch).2 := by
  unfold Run.putChapter
  split
  · exact ⟨a.others ++ [ch], by simp⟩
  · exact ⟨a.others, rfl⟩

/-- A successful append took the run's own slot. -/
theorem Run.putChapter_taken {s : Run} {a : PutAnswer} {ch : Chapter}
    (h : (s.putChapter a ch).1 = true) : (s.log ++ a.others).length = s.ordinal ∧
      (s.putChapter a ch).2 = s.log ++ a.others ++ [ch] := by
  unfold Run.putChapter at h ⊢
  by_cases hslot : (s.log ++ a.others).length = s.ordinal ∧ a.commits = true
  · exact ⟨hslot.1, by rw [if_pos hslot]⟩
  · rw [if_neg hslot] at h
    cases h

theorem append_cases (m : Mode) (A : Ambient) (rec : Record) (s : Run) :
    Appended m A rec s (append m A rec s) := by
  obtain ⟨r, hr⟩ : ∃ r, r = rec.written m A := ⟨_, rfl⟩
  have hkind : r.kind = rec.kind := by rw [hr, written_kind]
  have hid : r.id = rec.id := by
    rw [hr]
    exact stamp_id _ _ _
  have hlog : (s.putChapter (A.put rec.kind rec.id) (s.chapterOf r)).2 = s.putLog m A rec := by
    rw [hr]
    rfl
  unfold append
  rw [show rec.stamp m (A.now (.stamp rec.kind rec.id)) = r from hr.symm]
  cases hd : decodeExecutionRecord r with
  | error text => exact .refused text
  | ok _ =>
    simp only [Act.bind_apply, Act.get_apply, hkind, hid]
    set a := A.put rec.kind rec.id with ha
    by_cases hput : (s.putChapter a (s.chapterOf r)).1 = true
    · rw [if_pos hput]
      obtain ⟨hslot, htaken⟩ := Run.putChapter_taken hput
      simp only [Act.bind_apply, Act.modify_apply, Act.pure_apply]
      rw [hlog] at htaken ⊢
      refine .committed (s.chapterOf r) r ?_ (chapterOf_body s r) hkind
        (chapterOf_retained s r) ?_ ?_
      · rw [htaken, ← hslot]
        simp
      · rw [hr]
        exact sameExecutionPrefix_self _
      · intro ho _
        rw [htaken, show a.others = [] from ho, List.append_nil, hr]
        exact ⟨rfl, rfl⟩
    · rw [if_neg hput]
      cases hf : (if a.reads then (s.putChapter a (s.chapterOf r)).2[s.ordinal]? else none).bind
          (adopts (s.chapterOf r) r) with
      | none =>
        simp only [Act.bind_apply, Act.modify_apply]
        obtain ⟨g, hg⟩ := control_apply (α := Record) (.append a.tooLarge)
          { s with log := (s.putChapter a (s.chapterOf r)).2 }
        rw [hg, hlog]
        exact .failed g
      | some w =>
        simp only [Act.bind_apply, Act.modify_apply, Act.pure_apply]
        obtain ⟨got, hgot, hw⟩ := Option.bind_eq_some_iff.mp hf
        have hhere : (s.putChapter a (s.chapterOf r)).2[s.ordinal]? = some got := by
          split at hgot
          · exact hgot
          · cases hgot
        obtain ⟨hbody, hwk, hplain, hsame⟩ := adopts_eq_some hw
        rw [hlog] at hhere ⊢
        refine .committed got w hhere hbody (hwk.trans hkind)
          (hplain.trans (chapterOf_retained s r)) (hr ▸ hsame) ?_
        -- Alone on the log, the chapter found is the one just written.
        intro ho hlen
        have hown : s.putLog m A rec = s.log ++ [s.chapterOf r] := by
          rw [← hlog] at hhere ⊢
          unfold Run.putChapter at hhere ⊢
          rw [show a.others = [] from ho, List.append_nil] at hhere ⊢
          by_cases hc : s.log.length = s.ordinal ∧ a.commits = true
          · rw [if_pos hc]
          · rw [if_neg hc] at hhere
            simp [← hlen] at hhere
        have hgot : got = s.chapterOf r := by
          rw [hown, ← hlen] at hhere
          simpa using hhere.symm
        rw [hgot, chapterOf_body] at hbody
        exact ⟨hr ▸ hown, hr ▸ (Body.execution.inj hbody).symm⟩

theorem Run.putLog_grows (s : Run) (m : Mode) (A : Ambient) (rec : Record) :
    s.log <+: s.putLog m A rec := s.putChapter_grows _ _

/-! ## The invariant -/

/-- The activations of a list of records (`b = true`), or the other records. -/
def activations (b : Bool) (rs : List Record) : List Record :=
  rs.filter fun r => decide (r.kind = .activation) = b

@[simp] theorem activations_append (b : Bool) (l l' : List Record) :
    activations b (l ++ l') = activations b l ++ activations b l' := by
  simp [activations]

theorem activations_of_declared {rs : List Record} (h : ∀ r ∈ rs, r.kind.detached = false) :
    activations true rs = [] := by
  rw [activations, List.filter_eq_nil_iff]
  intro r hr
  have := h r hr
  cases hk : r.kind <;> simp_all [Kind.detached]

/-- The records of the chapters the run has taken account of; the first chapter
starts the job. -/
def Run.durable (s : Run) : List Record := reconstruct ((s.log.take s.ordinal).drop 1)

/-- The events in the order the run observed them. -/
def Run.observed (s : Run) : List Record := s.events ++ s.recorded

/-- Through which function `f` records are compared, and that it suffices for
adopted chapters. `E` says that the run is alone on the log. -/
structure Comparison (f : Record → Record) (E : Prop) : Prop where
  kind : ∀ r, (f r).kind = r.kind
  adopted : ∀ a b : Option (List Record), sameExecutionPrefix a b = true → (E → b = a) →
    (b.getD []).map f = (a.getD []).map f

/-- Up to clock samples and activations, any history can be compared. -/
theorem comparison_normalize : Comparison Record.normalize False where
  kind _ := rfl
  adopted _ _ h _ := map_normalize_of_samePrefix h

/-- A run alone on the log compares records as they are. -/
theorem comparison_id : Comparison id True where
  kind _ := rfl
  adopted _ _ _ h := by rw [h trivial]

/-- The chapters and the pending declarations tell what the run observed; `n` is
the ordinal the run started at. -/
structure Ordered (f : Record → Record) (E : Prop) (n : Nat) (s : Run) : Prop where
  started : 1 ≤ n ∧ n ≤ s.ordinal
  within : s.ordinal ≤ s.log.length
  level : E → s.fatal = none → s.log.length = s.ordinal
  declared : ∀ r ∈ s.pending, r.kind.detached = false
  order : ∀ b, (activations b (s.durable ++ s.pending)).map f = (activations b s.observed).map f
  detached : ∀ ch ∈ (s.log.take s.ordinal).drop n, ∀ r, ch.body = .execution r →
    r.kind.detached = true → ch.pre = none

section Steps

variable {f : Record → Record} {E : Prop} {n : Nat}

variable {s : Run} {log : List Chapter}

/-- What `Ordered` reads. -/
theorem Ordered.congr {t : Run} (h : Ordered f E n s) (hlog : t.log = s.log)
    (hord : t.ordinal = s.ordinal) (hfat : t.fatal = s.fatal) (hpen : t.pending = s.pending)
    (hev : t.events = s.events) (hrec : t.recorded = s.recorded) : Ordered f E n t where
  started := hord ▸ h.started
  within := by rw [hord, hlog]; exact h.within
  level e hf := by rw [hord, hlog]; exact h.level e (hfat ▸ hf)
  declared := hpen ▸ h.declared
  order b := by
    have hd : t.durable = s.durable := by unfold Run.durable; rw [hlog, hord]
    have ho : t.observed = s.observed := by unfold Run.observed; rw [hev, hrec]
    rw [hd, ho, hpen]
    exact h.order b
  detached := by rw [hord, hlog]; exact h.detached

/-- The chapters below the ordinal stay when the log grows. -/
theorem take_of_grows (within : s.ordinal ≤ s.log.length) (grows : s.log <+: log) :
    log.take s.ordinal = s.log.take s.ordinal := by
  obtain ⟨t, rfl⟩ := grows
  exact List.take_append_of_le_length within

/-- A log that grew beyond the run's ordinal. -/
theorem Ordered.grow (h : Ordered f E n s) (grows : s.log <+: log) {fatal : Option Fatal}
    (level : E → fatal = none → log.length = s.ordinal) :
    Ordered f E n { s with log := log, fatal := fatal } where
  started := h.started
  within := h.within.trans grows.length_le
  level := level
  declared := h.declared
  order b := by
    have : Run.durable { s with log := log, fatal := fatal } = s.durable := by
      show reconstruct ((log.take s.ordinal).drop 1) = _
      rw [take_of_grows h.within grows]
      rfl
    rw [this]
    exact h.order b
  detached := by
    show ∀ ch ∈ (log.take s.ordinal).drop n, _
    rw [take_of_grows h.within grows]
    exact h.detached

/-- The run is over after a failed append. -/
theorem Ordered.failed (h : Ordered f E n s) (grows : s.log <+: log) (g : Fatal) :
    Ordered f E n { s with log := log, fatal := some g } := h.grow grows nofun

/-- Outcomes and sleeps change the clock anchor and the last timeout only. -/
theorem settle_eq (r : Record) (s : Run) :
    ∃ a t, Run.settle r s = { s with anchor := a, timeoutError := t } := by
  unfold Run.settle
  split <;> exact ⟨_, _, rfl⟩

theorem wake_eq (r : Record) (s : Run) : ∃ a, Run.wake r s = { s with anchor := a } := by
  unfold Run.wake
  split <;> exact ⟨_, rfl⟩

/-- A committed record changes the log, the ordinal, the pending declarations and
the ghost, apart from the anchor and the last timeout. -/
theorem commit_eq (log : List Chapter) (w : Record) (s : Run) :
    ∃ a t, Run.commit log w s =
      { s with log := log, ordinal := s.ordinal + 1, anchor := a, timeoutError := t,
               pending := if w.kind.detached then s.pending else [],
               recorded := s.recorded ++ [w] } := by
  obtain ⟨a, t, h⟩ := settle_eq w
    { s with log := log, ordinal := s.ordinal + 1,
             pending := if w.kind.detached then s.pending else [],
             recorded := s.recorded ++ [w] }
  obtain ⟨b, hb⟩ := wake_eq w (Run.settle w _)
  exact ⟨b, t, hb.trans (by rw [h])⟩

/-- The declarations a chapter carries: all pending ones, or none when it is an
activation's or a header's. -/
theorem chapterOf_declarations (s : Run) (r : Record) :
    (s.chapterOf r).decodePrefix = if r.kind.detached then [] else s.pending := by
  unfold Chapter.decodePrefix
  rw [Chapter.prefixRaw_eq_pre (chapterOf_retained s r)]
  unfold Run.chapterOf attachPrefix
  by_cases hd : r.kind.detached = true
  · simp [hd]
  · by_cases hp : s.pending = [] <;> simp [hd, hp]

theorem chapterOf_pre_of_detached (h : r.kind.detached = true) : (s.chapterOf r).pre = none := by
  simp [Run.chapterOf, h]

/-- One more chapter counts once the ordinal has passed it. -/
theorem drop_take_succ {k : Nat} (hk : k ≤ s.ordinal) (within : s.ordinal ≤ s.log.length)
    (grows : s.log <+: log) (here : log[s.ordinal]? = some got) :
    (log.take (s.ordinal + 1)).drop k = (s.log.take s.ordinal).drop k ++ [got] := by
  rw [List.take_add_one, here, take_of_grows within grows, List.drop_append_of_le_length]
  · rfl
  · rw [List.length_take]
    omega

/-- Comparing through `f` does not change which records are activations. -/
theorem Comparison.map_activations (C : Comparison f E) (b : Bool) (l : List Record) :
    (activations b l).map f = activations b (l.map f) := by
  unfold activations
  rw [List.filter_map]
  congr 1
  apply List.filter_congr
  intro x _
  simp [C.kind]

/-- **Order of one committed chapter.** If what the chapter carries besides its
record is what was pending, or nothing was to be carried, then reading it last
tells the record last. -/
theorem order_commit (C : Comparison f E) {d pre pending pending' observed : List Record}
    (order : ∀ b, (activations b (d ++ pending)).map f = (activations b observed).map f)
    (carried : (pre.map f = pending.map f ∧ pending' = []) ∨
      (pre = [] ∧ pending' = pending ∧ (w.kind = .activation ∨ pending = [])))
    (declared : ∀ r ∈ pending, r.kind.detached = false) (b : Bool) :
    (activations b (d ++ (pre ++ [w]) ++ pending')).map f =
      (activations b (observed ++ [w])).map f := by
  have h := order b
  simp only [activations_append, List.map_append] at h ⊢
  rcases carried with ⟨hpre, rfl⟩ | ⟨rfl, rfl, hw⟩
  · have hpre' : (activations b pre).map f = (activations b pending).map f := by
      rw [C.map_activations, C.map_activations, hpre]
    rw [hpre', ← List.append_assoc, h]
    simp [activations]
  · rcases hw with hw | rfl
    · -- The activation comes before the declarations, but neither list has both.
      have hnil : (activations b []).map f = [] := rfl
      cases b with
      | true =>
        have hp := activations_of_declared declared
        simp only [hnil, hp, List.map_nil, List.append_nil, List.nil_append] at h ⊢
        rw [h]
      | false =>
        have hw' : activations false [w] = [] := by simp [activations, hw]
        simp only [hnil, hw', List.map_nil, List.append_nil]
        exact h
    · rw [← h]
      simp [activations]

/-- One more chapter, read last. -/
theorem Ordered.advance (h : Ordered f E n s) {t : Run} (hord : t.ordinal = s.ordinal + 1)
    (grows : s.log <+: t.log) (here : t.log[s.ordinal]? = some got)
    (level : E → t.log.length = s.ordinal + 1) (declared : ∀ r ∈ t.pending, r.kind.detached = false)
    (order : ∀ b, (activations b (s.durable ++ got.records ++ t.pending)).map f =
      (activations b t.observed).map f)
    (detached : ∀ r, got.body = .execution r → r.kind.detached = true → got.pre = none) :
    Ordered f E n t where
  started := by
    have := h.started
    omega
  within := hord ▸ (List.getElem?_eq_some_iff.mp here).1
  level e _ := hord ▸ level e
  declared := declared
  order b := by
    have hdur : t.durable = s.durable ++ got.records := by
      unfold Run.durable
      rw [hord, drop_take_succ (h.started.1.trans h.started.2) h.within grows here,
        reconstruct_append, reconstruct_singleton]
    rw [hdur]
    exact order b
  detached := by
    rw [hord, drop_take_succ h.started.2 h.within grows here]
    intro ch hch x hx hd
    rcases List.mem_append.mp hch with hch | hch
    · exact h.detached ch hch x hx hd
    · obtain rfl := List.mem_singleton.mp hch
      exact detached x hx hd

/-- A declaration is observed last and told last. -/
theorem Ordered.declare (h : Ordered f E n s) (hk : r.kind.detached = false) :
    Ordered f E n (Run.declare r s) where
  started := h.started
  within := h.within
  level := h.level
  declared x hx := by
    rcases List.mem_append.mp hx with hx | hx
    · exact h.declared x hx
    · rw [List.mem_singleton.mp hx]
      exact hk
  order b := by
    show (activations b (s.durable ++ (s.pending ++ [r]))).map f =
      (activations b (s.events ++ (s.recorded ++ [r]))).map f
    have horder := h.order b
    simp only [Run.observed] at horder
    rw [← List.append_assoc, ← List.append_assoc, activations_append b _ [r],
      activations_append b _ [r], List.map_append, List.map_append, horder]
  detached := h.detached

/-- A consumed event changes the position in the history and nothing that is
told. -/
theorem consume_eq (r : Record) (s : Run) :
    ∃ a t, Run.consume r s =
      { s with
        unread := s.unread.tail, consumed := s.consumed ++ [r]
        anchor := a, timeoutError := t } := by
  obtain ⟨a, t, hs⟩ := settle_eq r { s with unread := s.unread.tail, consumed := s.consumed ++ [r] }
  unfold Run.consume
  rw [hs]
  dsimp only
  split <;> unfold Run.wake <;> split <;> exact ⟨_, _, rfl⟩

/-- The order of a run that can go on. -/
def Going (f : Record → Record) (E : Prop) (n : Nat) (s : Run) : Prop :=
  Ordered f E n s ∧ s.fatal = none

end Steps

/-! ## Calls that record events -/

/-- The runs agree on the log, on their place in the history and on what they
have observed and declared. -/
structure Run.Alike (s t : Run) : Prop where
  log : t.log = s.log
  ordinal : t.ordinal = s.ordinal
  fatal : t.fatal = s.fatal
  pending : t.pending = s.pending
  events : t.events = s.events
  unread : t.unread = s.unread
  consumed : t.consumed = s.consumed
  recorded : t.recorded = s.recorded

/-- `I` is an invariant of the calls that record events of the kinds `P`, if it
is one of what they consist of; `G` holds besides where a call can go on. -/
structure Invariant (P : Kind → Prop) (m : Mode) (A : Ambient) (I G : Run → Prop) : Prop where
  logical : ∀ k, P k → k.detached = false
  of_going : ∀ s, G s → I s
  alike : ∀ s t, s.Alike t → I s → I t
  alike_going : ∀ s t, s.Alike t → G s → G t
  control : ∀ {α : Type} {Q : α → Run → Prop} (g : Fatal), Act.Triple I (control g : RunM α) Q I
  check : ∀ p, Act.Triple I (check A p) (fun _ => G) I
  skip : ∀ s, G s → G { s with unread := s.unread.dropWhile fun r => r.kind.provenance }
  consume : ∀ s next, P next.kind → s.unread.head? = some next → G s → G (Run.consume next s)
  declare : ∀ s r, P r.kind → G s → G (Run.declare r s)
  append : ∀ rec, rec.kind ≠ .header → rec.kind.declares = false →
    Act.Triple G (append m A rec) (fun _ => G) I

/-- A record that gets a chapter of its own is no declaration. -/
theorem not_declares_of_not_defers {s : Run} {r : Record} {deferred : Bool}
    (h : ¬ s.defers r deferred = true) : r.kind.declares = false := by
  unfold Run.defers at h
  cases hd : r.kind.declares with
  | false => rfl
  | true => simp [hd] at h

namespace Invariant

open Act

variable {P : Kind → Prop} {m : Mode} {A : Ambient} {I G : Run → Prop}
  (K : Invariant P m A I G)

include K

theorem goLive (p : Point) : Triple I (goLive m A p) (fun _ => G) I := by
  refine .get_then fun t => .ite (fun _ => K.check p) fun _ => ?_
  refine .ite (fun _ => .stop fun _ h => h) fun _ => ?_
  exact .modify_then (fun s => K.alike s _ ⟨rfl, rfl, rfl, rfl, rfl, rfl, rfl, rfl⟩) (K.check p)

theorem peek : Triple G peek (fun next s => G s ∧ s.unread.head? = next) I := by
  refine .modify_then K.skip (.get_bind fun t => .pure ?_)
  rintro s ⟨rfl, h⟩
  exact ⟨h, rfl⟩

theorem activate : Triple G (activate m A) (fun _ => G) I := by
  refine .get_then fun t => .ite (fun _ => .pure fun _ h => h) fun _ => ?_
  refine .bind (K.append _ (by simp) rfl) fun _ => .modify fun s => ?_
  exact K.alike_going s _ ⟨rfl, rfl, rfl, rfl, rfl, rfl, rfl, rfl⟩

theorem recordLive (kind : Kind) (hk : P kind) (id : Path) (build : Record)
    (deferred : Bool) : Triple I (recordLive m A kind id build deferred) (fun _ => G) I := by
  have hr : ((build.named kind id).timed (A.now (.stamp kind id))).kind = kind := by
    unfold Record.timed
    split <;> rfl
  refine .bind (K.goLive _) fun _ => .modify_then
    (fun s => K.alike_going s _ ⟨rfl, rfl, rfl, rfl, rfl, rfl, rfl, rfl⟩) ?_
  refine .get_then fun t => .ite (fun _ => ?_) fun hd => ?_
  · exact .modify_then (fun s => K.declare s _ (by rw [hr]; exact hk)) (.pure fun _ h => h)
  · refine .bind K.activate fun _ => K.append _ ?_ (not_declares_of_not_defers hd)
    rw [hr]
    rintro rfl
    cases K.logical _ hk

theorem recordEvent (kind : Kind) (hk : P kind) (id : Path) (build : Record)
    (deferred : Bool) : Triple I (recordEvent m A kind id build deferred) (fun _ => G) I := by
  refine .bind (K.check _) fun _ => .bind K.peek fun next => ?_
  cases next with
  | some next =>
    refine .ite (fun hnext => ?_) fun _ =>
      .ite (fun _ => .stop fun s h => K.of_going s h.1) fun _ => ?_
    · exact .bind (.modify fun s h => K.consume s next (hnext.1 ▸ hk) h.2 h.1)
        fun _ => .pure fun _ h => h
    · exact (K.control _).pre fun s h => K.of_going s h.1
  | none =>
    refine Triple.pre (P := G) ?_ fun _ h => h.1
    refine .get_then fun t => .ite (fun _ => ?_) fun _ => .ite (fun _ => ?_) fun _ => ?_
    · exact (K.control _).pre K.of_going
    · exact .modify_then (fun s => K.alike_going s _ ⟨rfl, rfl, rfl, rfl, rfl, rfl, rfl, rfl⟩)
        (.pure fun _ h => h)
    · exact (K.recordLive kind hk id build deferred).pre K.of_going

theorem checkpointPath (hk : P .checkpoint) (id : Path) :
    Triple I (checkpointPath m A id) (fun _ => I) I := by
  refine .get_then fun t => .ite (fun _ => .pure fun _ h => h) fun _ => ?_
  exact .bind (K.recordEvent .checkpoint hk id _ false) fun _ => .pure K.of_going

theorem recordTaskDependency (hk : P .checkpoint) (context id : Path) (wait : DependencyWaitInfo) :
    Triple I (recordTaskDependency m A context id wait) (fun _ => I) I := by
  refine .bind (K.checkpointPath hk context) fun _ =>
    .get_then fun t => .ite (fun _ => .pure fun _ h => h) fun _ => ?_
  refine .bind (K.goLive _) fun _ => .bind K.activate fun _ => ?_
  refine .bind (K.append _ (by simp) rfl) fun _ => .modify fun s h => ?_
  exact K.alike s _ ⟨rfl, rfl, rfl, rfl, rfl, rfl, rfl, rfl⟩ (K.of_going s h)

end Invariant

/-! ## Every call keeps the order -/

section Calls

open Act

variable {f : Record → Record} {E : Prop} {n : Nat} (C : Comparison f E) (m : Mode) (A : Ambient)
  (hE : E → ∀ k id, (A.put k id).others = [])

include C hE

/-- A committed record keeps the order: it follows the declarations its chapter
carries, and an activation carries none. -/
theorem append_ordered (rec : Record) :
    Triple (fun s => Going f E n s ∧ (rec.kind = .header → s.pending = [])) (append m A rec)
      (fun _ => Going f E n) (Ordered f E n) := by
  rintro s ⟨⟨h, hfatal⟩, hheader⟩
  have happended := append_cases m A rec s
  generalize append m A rec s = x at happended
  cases happended with
  | refused text => exact h
  | failed g => exact h.failed (s.putLog_grows m A rec) g
  | committed got w here body kind plain same alone =>
    have grows := s.putLog_grows m A rec
    set log := s.putLog m A rec
    set r := rec.written m A
    have hrk : r.kind = w.kind := (written_kind _ _ _).trans kind.symm
    have hnone : w.kind.detached = true → got.pre = none := by
      intro hd
      rw [chapterOf_pre_of_detached (hrk ▸ hd)] at same
      exact eq_none_of_samePrefix same
    have hown : E → log = s.log ++ [s.chapterOf r] ∧ got = s.chapterOf r := by
      intro e
      have hlen := h.level e hfatal
      have hlog := (alone (hE e _ _) hlen).1
      rw [hlog, ← hlen] at here
      exact ⟨hlog, by simpa using here.symm⟩
    obtain ⟨a, t, hc⟩ := commit_eq log w s
    show Going f E n (Run.commit log w s)
    rw [hc]
    refine ⟨h.advance rfl grows here (fun e => ?_) (fun x hx => ?_) (fun b => ?_) fun x hx => ?_,
      hfatal⟩
    · rw [(hown e).1, List.length_append, h.level e hfatal, List.length_singleton]
    · by_cases hd : w.kind.detached = true
      · exact h.declared x (by simpa [hd] using hx)
      · simp [hd] at hx
    · show _ = (activations b (s.events ++ (s.recorded ++ [w]))).map f
      have hpre : got.decodePrefix = got.pre.getD [] := by
        unfold Chapter.decodePrefix
        rw [Chapter.prefixRaw_eq_pre plain]
      rw [records_of_execution body, ← List.append_assoc s.events, hpre]
      refine order_commit C h.order ?_ h.declared b
      by_cases hd : w.kind.detached = true
      · refine .inr ⟨by simp [hnone hd], if_pos hd, ?_⟩
        cases hw : w.kind with
        | activation => exact .inl rfl
        | header => exact .inr (hheader (kind.symm.trans hw))
        | _ => rw [hw] at hd; cases hd
      · refine .inl ⟨?_, if_neg hd⟩
        have hdecl := chapterOf_declarations s r
        unfold Chapter.decodePrefix at hdecl
        rw [Chapter.prefixRaw_eq_pre (chapterOf_retained s r), if_neg (hrk ▸ hd)] at hdecl
        rw [C.adopted _ _ same fun e => by rw [(hown e).2], hdecl]
    · obtain rfl := Body.execution.inj (body.symm.trans hx)
      exact hnone

/-- The order is an invariant of the calls that record events. -/
theorem ordered_invariant :
    Invariant (·.detached = false) m A (Ordered f E n) (Going f E n) where
  logical _ h := h
  of_going _ h := h.1
  alike _ _ ha h := h.congr ha.log ha.ordinal ha.fatal ha.pending ha.events ha.recorded
  alike_going _ _ ha h :=
    ⟨h.1.congr ha.log ha.ordinal ha.fatal ha.pending ha.events ha.recorded, ha.fatal.trans h.2⟩
  control := control_keeps fun _ g h => h.failed (List.prefix_refl _) g
  check := check_keeps A
  skip _ h := ⟨h.1.congr rfl rfl rfl rfl rfl rfl, h.2⟩
  consume s next _ _ h := by
    obtain ⟨a, t, hs⟩ := consume_eq next s
    rw [hs]
    exact ⟨h.1.congr rfl rfl rfl rfl rfl rfl, h.2⟩
  declare _ _ hk h := ⟨h.1.declare hk, h.2⟩
  append rec hk _ := (append_ordered C m A hE rec).pre fun _ h => ⟨h, fun hh => absurd hh hk⟩

end Calls

/-! ## Whole runs -/

/-- The calls by which an execution run records events. -/
inductive Recording where
  /-- `recordEvent`: any kind but those the engine writes by itself. -/
  | event (kind : Kind) (id : Path) (build : Record) (deferred : Bool)
      (logical : kind.detached = false)
  /-- `activateLocked`, as `invokeTask` calls it. -/
  | activate (id : Path)
  /-- `checkpointPath`. -/
  | checkpoint (id : Path)
  /-- `recordTaskDependency`. -/
  | bindDependency (context id : Path) (wait : DependencyWaitInfo)

/-- A call against its surroundings. -/
def Recording.act (m : Mode) (A : Ambient) : Recording → RunM Unit
  | .event kind id build deferred _ => do
    let _ ← recordEvent m A kind id build deferred
  | .activate id => do
    goLive m A (.enter id)
    Workflow.activate m A
  | .checkpoint id => checkpointPath m A id
  | .bindDependency context id wait => recordTaskDependency m A context id wait

/-- The run after a sequence of calls, each against its own surroundings, and
whether or not the ones before it succeeded. -/
def Run.after (m : Mode) (s : Run) (calls : List (Ambient × Recording)) : Run :=
  calls.foldl (fun s c => (c.2.act m c.1 s).2) s

/-- No other execution writes to the log. -/
def Ambient.Alone (A : Ambient) : Prop := ∀ k id, (A.put k id).others = []

section Runs

open Act

variable {f : Record → Record} {E : Prop} {n : Nat}

/-- The call records events of the kinds `P`. -/
def Recording.Of (P : Kind → Prop) : Recording → Prop
  | .event kind _ _ _ _ => P kind
  | _ => True

theorem Invariant.act {P : Kind → Prop} {m : Mode} {A : Ambient} {I G : Run → Prop}
    (K : Invariant P m A I G) (hk : P .checkpoint) {c : Recording} (hc : c.Of P) :
    Triple I (c.act m A) (fun _ => I) I := by
  cases c with
  | event kind id build deferred _ =>
    exact .bind (K.recordEvent kind hc id build deferred) fun _ => .pure K.of_going
  | activate id =>
    exact .bind (K.goLive _) fun _ =>
      K.activate.imp (fun _ h => h) (fun _ => K.of_going) fun _ h => h
  | checkpoint id => exact K.checkpointPath hk id
  | bindDependency context id wait => exact K.recordTaskDependency hk context id wait

theorem call_ordered (C : Comparison f E) (m : Mode) (A : Ambient) (hE : E → A.Alone)
    (c : Recording) :
    Triple (Ordered f E n) (c.act m A) (fun _ => Ordered f E n) (Ordered f E n) := by
  refine (ordered_invariant C m A hE).act rfl ?_
  cases c with
  | event kind id build deferred logical => exact logical
  | _ => trivial

theorem after_ordered (C : Comparison f E) (m : Mode) {calls : List (Ambient × Recording)}
    (hE : E → ∀ c ∈ calls, c.1.Alone) {s : Run} (h : Ordered f E n s) :
    Ordered f E n (s.after m calls) := by
  induction calls generalizing s with
  | nil => exact h
  | cons c calls ih =>
    exact ih (fun e d hd => hE e d (.tail _ hd))
      ((call_ordered C m c.1 (fun e => hE e c (.head _)) c.2).run h)

/-- A run that has only read the chapters. -/
theorem opened_ordered (start : Chapter) (chapters : List Chapter) :
    Ordered f E (chapters.length + 1) (Run.opened start chapters) where
  started := ⟨Nat.succ_pos _, le_rfl⟩
  within := le_rfl
  level _ _ := rfl
  declared _ hr := nomatch hr
  order b := by
    have hd : (Run.opened start chapters).durable = reconstruct chapters := by
      show reconstruct (((start :: chapters).take (chapters.length + 1)).drop 1) = _
      simp
    rw [hd]
    show (activations b (reconstruct chapters ++ [])).map f =
      (activations b (reconstruct chapters ++ [])).map f
    rfl
  detached := by
    intro ch hch
    rw [List.drop_eq_nil_of_le] at hch
    · cases hch
    · exact List.length_take_le _ _

/-- The header finds no declarations to carry. -/
theorem openHistory_ordered (C : Comparison f E) (m : Mode) (A : Ambient) (hE : E → A.Alone) :
    Triple (fun s => Going f E n s ∧ s.pending = []) (openHistory m A) (fun _ => Ordered f E n)
      (Ordered f E n) := by
  refine .get_then fun t => ?_
  cases t.events with
  | nil =>
    refine .ite (fun _ => .stop fun _ h => h.1.1) fun _ => ?_
    refine .bind ((append_ordered C m A hE _).pre fun s h => ⟨h.1, fun _ => h.2⟩) fun _ => ?_
    exact .modify fun s h => h.1.congr rfl rfl rfl rfl rfl rfl
  | cons e es =>
    refine .ite (fun _ => .stop fun _ h => h.1.1) fun _ => .modify fun s h => ?_
    exact h.1.1.congr rfl rfl rfl rfl rfl rfl

end Runs

/-! ## A run of two calls -/

/-- A clock that stands still and a log nobody else writes to. -/
def Ambient.still : Ambient where
  now _ := 1
  cause _ := 0
  put _ _ := {}
  complete := {}

/-- The start chapter of the examples. -/
def sampleStart : Chapter := { body := .jobStart "null" }

theorem scope_logical : Kind.scope.detached = false := rfl

theorem result_logical : Kind.result.detached = false := rfl

/-- The job scope declared, then the result of its first attempt. -/
def declareThenRecord : List (Ambient × Recording) :=
  [(.still, .event .scope [.call .scope "$job" 1]
      { kind := .scope, descriptor := some (.scope {}) } false scope_logical),
    (.still, .event .result [.call .scope "$job" 1, .attempt 1]
      { kind := .result, output := some "true" } false result_logical)]

end JobDB.Workflow
