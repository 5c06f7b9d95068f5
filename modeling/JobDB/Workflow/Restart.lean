import JobDB.Workflow.Order

/-!
# Where a restart cuts a history

A restart at a scope or a task keeps the history of a job up to the place where that scope or
task was entered, and replaces the rest. `ResolveExecutionRestart`
(`pkg/jobdb/runtime/core/execution_protocol.go`) finds the place in the chapters of the source
job: it keeps whole chapters and, of the chapter in which the place lies, the part of the prefix
before it. That part becomes the descriptor of the restart record; a descriptor of an older
restart may be cut in turn.

* `resolveExecutionRestart`: the search, with its errors.
* `Located`: where the first record that opens the target lies; `scanChapters_located` is the
  statement about the search.
* `scanChapters_ok`: when the search succeeds.
-/

namespace JobDB.Workflow

/-! ## The search -/

/-- `ExecutionRestart`, with what the restart record takes from the rest of the request. -/
structure RestartTarget where
  id : Path
  payload : String := ""
  source : JobKey
  dependencies : List Dependency := []
  prerequisites : List JobPrerequisite := []
  /-- `ExtraTaskInput` or `ExtraTaskOutput` is set. -/
  taskData : Bool := false
deriving DecidableEq, Repr

/-- The kinds that open a scope or a task, or enter it again after a restart. -/
def Kind.opens : Kind → Bool
  | .continuation | .scope | .task => true
  | _ => false

/-- The record opens the scope or the task `id`, or enters it again. -/
def Record.opens (id : Path) (r : Record) : Bool := r.kind.opens && r.id = id

/-- The record declares the scope or the task `id`. -/
def Record.declares (id : Path) (r : Record) : Bool :=
  (r.kind = .scope || r.kind = .task) && r.id = id

/-- The option `restart` of a descriptor. A task's descriptor has none at its top; what is not
an object cannot be read. -/
def restartOption : Option Descriptor → Except String Bool
  | some (.scope policy) => .ok policy.restart
  | some (.task _ _) => .ok false
  | _ => .error "invalid descriptor"

/-- What the loops of `ResolveExecutionRestart` have found so far: the version that the header
pins, whether the target is declared, and the chapter to cut with the part of it to keep. -/
structure Search where
  header : Option Nat := none
  found : Bool := false
  cut : Option (Nat × List Record) := none
deriving DecidableEq, Repr

/-- The declaration of the target. -/
def Search.declaration (t : RestartTarget) (item : Record) (b : Search) : Except String Search := do
  demand "ambiguous execution restart boundary" (b.found = false)
  let restart ← restartOption item.descriptor
  demand "target scope has no restart handler" (t.payload = "" ∨ restart = true)
  .ok { b with found := true }

/-- The first record that opens the target decides where to cut. -/
def Search.mark (opens : Bool) (ordinal : Nat) (kept : List Record) (b : Search) : Search :=
  if b.cut = none ∧ opens = true then { b with cut := some (ordinal, kept) } else b

/-- One turn of the loop over a prefix; `before` is the part of it already passed. -/
def scanItem (t : RestartTarget) (ordinal : Nat) (before : List Record) (b : Search)
    (item : Record) : Except String Search := do
  let item ← decodeExecutionRecord item
  let b := b.mark (item.opens t.id) ordinal before
  if item.declares t.id then b.declaration t item else .ok b

/-- The loop over a prefix. -/
def scanPrefix (t : RestartTarget) (ordinal : Nat) :
    List Record → List Record → Search → Except String Search
  | _, [], b => .ok b
  | before, item :: items, b => do
    let b ← scanItem t ordinal before b item
    scanPrefix t ordinal (before ++ [item]) items b

/-- One turn of the loop over the chapters, for an execution chapter with record `r`. -/
def scanRecord (t : RestartTarget) (ordinal : Nat) (pre : List Record) (r : Record) (b : Search) :
    Except String Search := do
  let r ← decodeExecutionRecord r
  let b := if r.kind = .header then { b with header := some r.version } else b
  let b ← scanPrefix t ordinal [] pre b
  .ok (b.mark (r.kind = .continuation && r.id = t.id) ordinal pre)

/-- The loop over the chapters from an ordinal on; other chapters are passed over. -/
def scanChapters (t : RestartTarget) : Nat → List Chapter → Search → Except String Search
  | _, [], b => .ok b
  | ordinal, ch :: chapters, b =>
    match ch.body with
    | .execution r => do
      let b ← scanRecord t ordinal ch.decodePrefix r b
      scanChapters t (ordinal + 1) chapters b
    | _ => scanChapters t (ordinal + 1) chapters b

/-- The restart record. -/
def RestartTarget.record (t : RestartTarget) (version : Nat) : Record where
  version := version
  kind := .restart
  id := t.id
  source := some t.source
  payload := if t.payload = "" then none else some (.restart t.payload)
  dependencies := t.dependencies
  prerequisites := t.prerequisites

/-- What a restart takes from its source: the last ordinal to keep, and the chapter to put
behind it. -/
structure Restart where
  lastStepToKeep : Int
  chapter : Chapter
deriving DecidableEq, Repr

/-- `ResolveExecutionRestart`; `valid` is `json.Valid`. -/
def resolveExecutionRestart (valid : String → Bool) (t : RestartTarget) (log : List Chapter) :
    Except String Restart := do
  demand "execution restarts cannot contain synthetic task data" (t.taskData = false)
  demand "invalid execution restart target or payload"
    (t.id ≠ [] ∧ (t.payload = "" ∨ valid t.payload = true))
  let b ← scanChapters t 0 log {}
  match b.header, b.found, b.cut with
  | some version, true, some (ordinal, retained) =>
    .ok ⟨ordinal - 1, { body := .execution (t.record version), retained := some retained }⟩
  | _, _, _ => .error "execution restart boundary not found"

/-- The log a restart begins with: the kept chapters, linked from the source, and its own as the
store gives it back. -/
def Restart.log (r : Restart) (source : List Chapter) : List Chapter :=
  source.take (r.lastStepToKeep + 1).toNat ++
    [{ r.chapter with retained := restoreReconstruction r.chapter.retained }]

/-! ## What the search finds -/

/-- The events before the first that opens `id`. -/
def before (id : Path) (events : List Record) : List Record :=
  events.takeWhile fun r => !r.opens id

/-- The chapter is not a declaration's own. -/
def Chapter.Compact (ch : Chapter) : Prop :=
  ∀ r, ch.body = .execution r → r.kind ≠ .scope ∧ r.kind ≠ .task

/-- The cut lies before the first record of the log that opens `id`. -/
structure Located (id : Path) (log : List Chapter) (cut : Nat × List Record) : Prop where
  /-- Part of an execution chapter's prefix is kept. -/
  chapter : ∃ ch r, log[cut.1]? = some ch ∧ ch.body = .execution r ∧ cut.2 <+: ch.decodePrefix
  clear : ∀ r ∈ reconstruct (log.take cut.1) ++ cut.2, r.opens id = false
  opening : ∃ r rest, r.opens id = true ∧
    reconstruct log = reconstruct (log.take cut.1) ++ cut.2 ++ r :: rest

variable {id : Path} {log chapters : List Chapter} {cut : Nat × List Record} {r item : Record}
  {t : RestartTarget} {b b' : Search} {ordinal : Nat} {passed items pre : List Record}
  {ch : Chapter} {s : Run}

theorem Located.within (h : Located id log cut) : cut.1 < log.length := by
  obtain ⟨ch, r, hch, -⟩ := h.chapter
  exact (List.getElem?_eq_some_iff.1 hch).1

theorem Located.append (h : Located id log cut) (more : List Chapter) :
    Located id (log ++ more) cut where
  chapter := by
    rw [List.getElem?_append_left h.within]
    exact h.chapter
  clear := by
    rw [List.take_append_of_le_length h.within.le]
    exact h.clear
  opening := by
    obtain ⟨r, rest, hr, hlog⟩ := h.opening
    refine ⟨r, rest ++ reconstruct more, hr, ?_⟩
    rw [List.take_append_of_le_length h.within.le, reconstruct_append, hlog]
    simp

theorem Located.before_eq (h : Located id log cut) :
    before id (reconstruct log) = reconstruct (log.take cut.1) ++ cut.2 := by
  obtain ⟨r, rest, hr, hlog⟩ := h.opening
  unfold before
  rw [hlog, List.takeWhile_append_of_pos, List.takeWhile_cons_of_neg, List.append_nil]
  · simp [hr]
  · intro x hx
    simp [h.clear x hx]

/-- What the search has found in the chapters it has passed. -/
def Search.Right (id : Path) (log : List Chapter) (b : Search) : Prop :=
  match b.cut with
  | none => ∀ r ∈ reconstruct log, r.opens id = false
  | some cut => Located id log cut

/-- What a record that decodes has passed. -/
theorem decodeExecutionRecord_eq_ok {r' : Record} : decodeExecutionRecord r = .ok r' ↔
    r.version = executionPatternVersion ∧ r.checkIdentity = .ok () ∧ r.checkVersions = .ok () ∧
      r.checkFields = .ok () ∧ r.checkError = .ok () ∧ r.checkDisposition = .ok () ∧ r = r' := by
  unfold decodeExecutionRecord
  by_cases hv : r.version = executionPatternVersion
  · simp [hv, bind_eq_ok, Unique.exists_iff]
  · simp [hv, bind, Except.bind]

/-- A record that decodes decodes to itself. -/
theorem decode_bind_eq_ok {α : Type} {f : Record → Except String α} {a : α} :
    (decodeExecutionRecord r >>= f) = .ok a ↔ r.Valid ∧ f r = .ok a := by
  rw [bind_eq_ok]
  constructor
  · rintro ⟨r', hr, hf⟩
    obtain rfl := (decodeExecutionRecord_eq_ok.1 hr).2.2.2.2.2.2
    exact ⟨hr, hf⟩
  · rintro ⟨hr, hf⟩
    exact ⟨r, hr, hf⟩

/-- The declaration allows the payload. -/
def RestartTarget.Allowed (t : RestartTarget) (d : Record) : Prop :=
  ∃ restart, restartOption d.descriptor = .ok restart ∧ (t.payload = "" ∨ restart = true)

/-- What the search accepts and counts: the records decode, the declarations of the target allow
the payload, and with the one already found there is at most one. -/
structure RestartTarget.Fits (t : RestartTarget) (found : Bool) (items : List Record) : Prop where
  valid : ∀ r ∈ items, r.Valid
  allowed : ∀ r ∈ items, r.declares t.id = true → t.Allowed r
  once : found.toNat + items.countP (Record.declares t.id) ≤ 1

theorem RestartTarget.fits_nil {found : Bool} : t.Fits found [] where
  valid _ h := nomatch h
  allowed _ h := nomatch h
  once := by cases found <;> simp

theorem RestartTarget.fits_singleton {found : Bool} : t.Fits found [item] ↔
    item.Valid ∧ (item.declares t.id = true → found = false ∧ t.Allowed item) := by
  constructor
  · intro h
    refine ⟨h.valid item (List.mem_singleton_self _), fun hd => ⟨?_, ?_⟩⟩
    · have hone := h.once
      cases found with
      | false => rfl
      | true => simp [hd] at hone
    · exact h.allowed item (List.mem_singleton_self _) hd
  · rintro ⟨hv, hd⟩
    refine ⟨by simpa using hv, by simpa using fun h => (hd h).2, ?_⟩
    by_cases h : item.declares t.id = true
    · simp [h, (hd h).1]
    · cases found <;> simp [h]

/-- After the first items, as many have been found as they declare. -/
theorem RestartTarget.fits_append {found : Bool} {more : List Record} :
    t.Fits found (items ++ more) ↔
      t.Fits found items ∧ t.Fits (found || items.any (Record.declares t.id)) more := by
  have hcount (h : found.toNat + items.countP (Record.declares t.id) ≤ 1) :
      (found || items.any (Record.declares t.id)).toNat =
        found.toNat + items.countP (Record.declares t.id) := by
    cases hany : items.any (Record.declares t.id) with
    | true =>
      have hpos := List.countP_pos_iff.2 (List.any_eq_true.1 hany)
      cases found <;> simp at h ⊢ <;> omega
    | false =>
      have hzero : items.countP (Record.declares t.id) = 0 :=
        List.countP_eq_zero.2 (by simpa using hany)
      simp [hzero]
  constructor
  · rintro ⟨hv, ha, hone⟩
    rw [List.forall_mem_append] at hv ha
    rw [List.countP_append] at hone
    have hleft : found.toNat + items.countP (Record.declares t.id) ≤ 1 := by omega
    exact ⟨⟨hv.1, ha.1, hleft⟩, hv.2, ha.2, by rw [hcount hleft]; omega⟩
  · rintro ⟨h, hv, ha, hone⟩
    rw [hcount h.once] at hone
    exact ⟨List.forall_mem_append.2 ⟨h.valid, hv⟩, List.forall_mem_append.2 ⟨h.allowed, ha⟩,
      by rw [List.countP_append]; omega⟩

/-- The cut that records make: before the first of them that opens the target. -/
def cutAt (id : Path) (ordinal : Nat) (passed items : List Record) : Option (Nat × List Record) :=
  if items.any (Record.opens id) then some (ordinal, passed ++ before id items) else none

theorem cutAt_singleton : cutAt id ordinal passed [item] =
    if item.opens id then some (ordinal, passed) else none := by
  unfold cutAt before
  by_cases h : item.opens id = true <;> simp [h]

theorem cutAt_append {more : List Record} : cutAt id ordinal passed (items ++ more) =
    (cutAt id ordinal passed items).or (cutAt id ordinal (passed ++ items) more) := by
  induction items generalizing passed with
  | nil => simp [cutAt]
  | cons item items ih =>
    have hcons (l : List Record) : cutAt id ordinal passed (item :: l) =
        if item.opens id then some (ordinal, passed)
          else cutAt id ordinal (passed ++ [item]) l := by
      unfold cutAt before
      by_cases h : item.opens id = true <;> simp [h]
    rw [List.cons_append, hcons, hcons, ih]
    split <;> simp

/-- A mark leaves a cut that is there, and makes one where the target is opened. -/
theorem Search.mark_eq (b : Search) (opens : Bool) (ordinal : Nat) (kept : List Record) :
    b.mark opens ordinal kept =
      { b with cut := b.cut.or (if opens then some (ordinal, kept) else none) } := by
  unfold Search.mark
  cases hcut : b.cut <;> cases opens <;> simp <;> rw [← hcut]

theorem Search.declaration_eq_ok : b.declaration t item = .ok b' ↔
    (b.found = false ∧ t.Allowed item) ∧ { b with found := true } = b' := by
  unfold Search.declaration RestartTarget.Allowed
  simp only [bind_eq_ok, demand_eq_ok, Except.ok.injEq, exists_const, ← and_assoc,
    exists_and_right]

/-- **One item**: when it is accepted, and what it makes of the search. -/
theorem scanItem_eq_ok : scanItem t ordinal passed b item = .ok b' ↔
    t.Fits b.found [item] ∧ { b with
      found := b.found || item.declares t.id
      cut := b.cut.or (cutAt t.id ordinal passed [item]) } = b' := by
  unfold scanItem
  rw [decode_bind_eq_ok, RestartTarget.fits_singleton, Search.mark_eq, cutAt_singleton]
  by_cases hd : item.declares t.id = true
  · simp [hd, Search.declaration_eq_ok, and_assoc]
  · simp [hd]

/-- **All items of a prefix.** -/
theorem scanPrefix_eq_ok : scanPrefix t ordinal passed items b = .ok b' ↔
    t.Fits b.found items ∧ { b with
      found := b.found || items.any (Record.declares t.id)
      cut := b.cut.or (cutAt t.id ordinal passed items) } = b' := by
  induction items generalizing passed b with
  | nil => simp [scanPrefix, RestartTarget.fits_nil, cutAt]
  | cons item items ih =>
    show (scanItem t ordinal passed b item >>= scanPrefix t ordinal (passed ++
      [item]) items) = _ ↔ _
    rw [show item :: items = [item] ++ items from rfl, RestartTarget.fits_append, cutAt_append]
    simp [bind_eq_ok, scanItem_eq_ok, ih, and_assoc, Bool.or_assoc, Option.or_assoc]

/-- **One chapter.** The header does not decide where to cut. -/
theorem scanRecord_eq_ok : scanRecord t ordinal pre r b = .ok b' ↔
    r.Valid ∧ t.Fits b.found pre ∧ {
      header := if r.kind = .header then some r.version else b.header
      found := b.found || pre.any (Record.declares t.id)
      cut := b.cut.or ((cutAt t.id ordinal [] pre).or
        (if r.kind = .continuation && r.id = t.id then some (ordinal, pre) else none)) } = b' := by
  unfold scanRecord
  rw [decode_bind_eq_ok]
  by_cases hk : r.kind = .header <;>
    simp [hk, bind_eq_ok, scanPrefix_eq_ok, Search.mark_eq, and_assoc, Option.or_assoc]

/-- The record of a compact chapter opens the target only as a continuation, so the chapter is cut
where its records say. -/
theorem Chapter.Compact.cutAt_eq (hc : ch.Compact) (hr : ch.body = .execution r) :
    (cutAt id ordinal [] ch.decodePrefix).or
        (if r.kind = .continuation && r.id = id then some (ordinal, ch.decodePrefix) else none) =
      cutAt id ordinal [] ch.records := by
  have hown : r.opens id = (decide (r.kind = .continuation) && decide (r.id = id)) := by
    obtain ⟨hscope, htask⟩ := hc r hr
    unfold Record.opens Kind.opens
    cases hk : r.kind <;> simp_all
  rw [records_of_execution hr, cutAt_append, cutAt_singleton, hown, List.nil_append]

/-- What opens the target splits off the records before it. -/
theorem eq_before_append (h : items.any (Record.opens id) = true) :
    ∃ r rest, r.opens id = true ∧ items = before id items ++ r :: rest := by
  induction items with
  | nil => cases h
  | cons item items ih =>
    by_cases ho : item.opens id = true
    · exact ⟨item, items, ho, by simp [before, ho]⟩
    · obtain ⟨r, rest, hr, hitems⟩ := ih (by simpa [ho] using h)
      refine ⟨r, rest, hr, ?_⟩
      unfold before at hitems ⊢
      rw [List.takeWhile_cons_of_pos (by simp [ho]), List.cons_append, ← hitems]

/-- **One chapter more.** -/
theorem Search.Right.chapter (hb : b.Right id log)
    (hcut : b'.cut = b.cut.or (cutAt id log.length [] ch.records))
    (hch : ch.records = [] ∨ ∃ r, ch.body = .execution r) : b'.Right id (log ++ [ch]) := by
  unfold Search.Right at hb ⊢
  rw [hcut]
  cases hsome : b.cut with
  | some cut =>
    rw [hsome] at hb
    exact Located.append hb [ch]
  | none =>
    rw [hsome] at hb
    rw [Option.none_or]
    unfold cutAt
    cases hany : ch.records.any (Record.opens id) with
    | true =>
      obtain ⟨x, rest, hx, hsplit⟩ := eq_before_append hany
      have htake : (log ++ [ch]).take log.length = log := by simp
      obtain ⟨r, hr⟩ := hch.resolve_left (by rintro h; simp [h] at hany)
      have hrecords := records_of_execution hr
      have hpre : before id ch.records <+: ch.decodePrefix := by
        have hbefore : before id ch.records <+: ch.records := ⟨_, hsplit.symm⟩
        refine List.prefix_of_prefix_length_le hbefore ⟨_, hrecords.symm⟩ ?_
        have hlen := congrArg List.length (hsplit.symm.trans hrecords)
        simp only [List.length_append, List.length_cons, List.length_nil] at hlen
        omega
      exact {
        chapter := ⟨ch, r, by simp, hr, hpre⟩
        clear := by
          rw [htake]
          intro y hy
          rcases List.mem_append.1 hy with hy | hy
          · exact hb y hy
          · simpa using List.all_eq_true.1 List.all_takeWhile y hy
        opening := ⟨x, rest, hx, by
          rw [htake, reconstruct_append, reconstruct_singleton, List.append_assoc]
          exact congrArg _ hsplit⟩ }
    | false =>
      intro x hx
      rw [reconstruct_append, reconstruct_singleton] at hx
      rcases List.mem_append.1 hx with hx | hx
      · exact hb x hx
      · simpa using List.any_eq_false.1 hany x hx

/-- A chapter that the search passes over and that is no outcome has no records. -/
theorem Chapter.records_passed (hbody : ∀ r, ch.body ≠ .execution r) (hout : ch.outcome = none) :
    ch.records = [] := by
  unfold Chapter.records
  unfold Chapter.outcome at hout
  cases hb : ch.body with
  | execution r => exact absurd hb (hbody r)
  | jobAttemptOutcome output error =>
    rw [hb] at hout
    cases hout
  | jobStart input => rfl
  | other => rfl

theorem scanRecord_right (hc : ch.Compact) (hr : ch.body = .execution r) (hb : b.Right t.id log)
    (h : scanRecord t log.length ch.decodePrefix r b = .ok b') : b'.Right t.id (log ++ [ch]) := by
  obtain ⟨-, -, rfl⟩ := scanRecord_eq_ok.1 h
  exact hb.chapter (congrArg b.cut.or (hc.cutAt_eq hr)) (.inr ⟨r, hr⟩)

/-- Nothing follows an outcome. -/
def Closed (log : List Chapter) : Prop := ∀ ch ∈ log.dropLast, ch.outcome = none

/-- **All chapters.** The search cuts before the first record that opens the target. -/
theorem scanChapters_located (hc : ∀ ch ∈ chapters, ch.Compact) (closed : Closed chapters)
    (hb : b.Right t.id log) (h : scanChapters t log.length chapters b = .ok b')
    (hcut : b'.cut = some cut) : Located t.id (log ++ chapters) cut := by
  have hlocated {b : Search} {log : List Chapter} (hb : b.Right t.id log)
      (hsome : b.cut = some cut) : Located t.id log cut := by
    unfold Search.Right at hb
    rwa [hsome] at hb
  induction chapters generalizing log b with
  | nil =>
    obtain rfl := Except.ok.inj h
    rw [List.append_nil]
    exact hlocated hb hcut
  | cons ch chapters ih =>
    obtain ⟨hch, hchs⟩ := List.forall_mem_cons.1 hc
    have hlen : log.length + 1 = (log ++ [ch]).length := by simp
    rw [show log ++ ch :: chapters = (log ++ [ch]) ++ chapters by simp]
    have hrest : Closed chapters := fun c hmem => closed c (by
      cases chapters with
      | nil => cases hmem
      | cons _ _ => exact List.mem_cons_of_mem _ hmem)
    unfold scanChapters at h
    split at h
    · next r hr =>
      obtain ⟨b₁, h₁, h₂⟩ := bind_eq_ok.1 h
      exact ih hchs hrest (scanRecord_right hch hr hb h₁) (hlen ▸ h₂)
    · next hbody =>
      cases chapters with
      | nil =>
        -- the last chapter may be an outcome, whose prefix the search does not read
        obtain rfl := Except.ok.inj h
        rw [List.append_nil]
        exact (hlocated hb hcut).append [ch]
      | cons ch' rest =>
        have hnone := Chapter.records_passed hbody (closed ch List.mem_cons_self)
        exact ih hchs hrest (hb.chapter (by simp [hnone, cutAt]) (.inl hnone)) (hlen ▸ h)

/-! ## When the search succeeds -/

theorem Record.Valid.version_eq (h : r.Valid) : r.version = executionPatternVersion :=
  (decodeExecutionRecord_eq_ok.1 h).1

/-- A run accepts an execution chapter whose records decode, its own and those of its prefix. -/
theorem check_execution (hr : ch.body = .execution r) :
    ch.check = .ok () ↔ r.Valid ∧ ∀ x ∈ ch.decodePrefix, x.Valid := by
  have hforM (items : List Record) : (items.forM fun item => do
      let _ ← decodeExecutionRecord item : Except String Unit) = .ok () ↔ ∀ x ∈ items, x.Valid := by
    induction items with
    | nil => simp [pure, Except.pure]
    | cons item items ih =>
      rw [List.forall_mem_cons, ← ih]
      show ((decodeExecutionRecord item >>= fun _ => pure ()) >>= fun _ => _) = _ ↔ _
      rw [bind_assoc, decode_bind_eq_ok]
      rfl
  unfold Chapter.check
  rw [hr, ← hforM]
  exact decode_bind_eq_ok

/-- What the search keeps true of itself: a target that was found has been cut, and the version
is that of the records. -/
structure Search.Sound (b : Search) : Prop where
  cut : b.found = true → b.cut.isSome = true
  header : ∀ v, b.header = some v → v = executionPatternVersion

theorem Search.sound_nothing : Search.Sound {} where
  cut hf := nomatch hf
  header _ hv := nomatch hv

theorem Record.opens_of_declares (h : r.declares id = true) : r.opens id = true := by
  unfold Record.declares at h
  unfold Record.opens Kind.opens
  cases hk : r.kind <;> simp_all

theorem scanRecord_sound (hb : b.Sound) (h : scanRecord t ordinal pre r b = .ok b') : b'.Sound := by
  obtain ⟨hr, -, rfl⟩ := scanRecord_eq_ok.1 h
  constructor
  · intro hf
    rcases Bool.or_eq_true_iff.1 hf with hf | hf
    · simp [hb.cut hf]
    · obtain ⟨d, hd, hdeclares⟩ := List.any_eq_true.1 hf
      have hopens := List.any_eq_true.2 ⟨d, hd, Record.opens_of_declares hdeclares⟩
      simp [cutAt, hopens]
  · intro v hv
    dsimp only at hv
    split at hv
    · exact Option.some.inj hv ▸ hr.version_eq
    · exact hb.header v hv

theorem scanChapters_sound (hb : b.Sound) (h : scanChapters t ordinal chapters b = .ok b') :
    b'.Sound := by
  induction chapters generalizing ordinal b with
  | nil =>
    rw [← Except.ok.inj h]
    exact hb
  | cons ch chapters ih =>
    unfold scanChapters at h
    split at h
    · obtain ⟨b₁, h₁, h₂⟩ := bind_eq_ok.1 h
      exact ih (scanRecord_sound hb h₁) h₂
    · exact ih hb h

/-- The records among which the search looks for declarations. -/
def Chapter.searched (ch : Chapter) : List Record :=
  match ch.body with
  | .execution _ => ch.decodePrefix
  | _ => []

/-- The chapter of a header. -/
def Chapter.isHeader (ch : Chapter) : Bool :=
  match ch.body with
  | .execution r => r.kind = .header
  | _ => false

theorem scanChapters_ok (hown : ∀ ch ∈ chapters, ∀ r, ch.body = .execution r → r.Valid)
    (h : t.Fits b.found (chapters.flatMap Chapter.searched)) (ordinal : Nat) :
    ∃ b', scanChapters t ordinal chapters b = .ok b' ∧
      (b.header.isSome = true ∨ chapters.any Chapter.isHeader = true → b'.header.isSome = true) ∧
      b'.found = (b.found || (chapters.flatMap Chapter.searched).any (Record.declares t.id)) := by
  induction chapters generalizing ordinal b with
  | nil => exact ⟨b, rfl, by simp, by simp⟩
  | cons ch chapters ih =>
    obtain ⟨hch, hchs⟩ := List.forall_mem_cons.1 hown
    rw [List.flatMap_cons] at h ⊢
    obtain ⟨hleft, hright⟩ := RestartTarget.fits_append.1 h
    rw [List.any_append, ← Bool.or_assoc, List.any_cons]
    unfold scanChapters
    cases hb : ch.body with
    | execution r =>
      have hsearched : ch.searched = ch.decodePrefix := by simp only [Chapter.searched, hb]
      rw [hsearched] at hleft hright ⊢
      obtain ⟨b₁, hb₁⟩ : ∃ b₁, b₁ = _ := ⟨_, rfl⟩
      have h₁ : scanRecord t ordinal ch.decodePrefix r b = .ok b₁ :=
        scanRecord_eq_ok.2 ⟨hch r hb, hleft, hb₁.symm⟩
      obtain ⟨b₂, h₂, hheader, hfound⟩ := ih hchs (b := b₁) (by rwa [hb₁]) (ordinal + 1)
      rw [hb₁] at hheader hfound
      refine ⟨b₂, bind_eq_ok.2 ⟨b₁, h₁, h₂⟩, ?_, hfound⟩
      intro hor
      refine hheader ?_
      by_cases hk : r.kind = .header
      · exact .inl (by simp [hk])
      · simpa [Chapter.isHeader, hb, hk] using hor
    | _ =>
      have hsearched : ch.searched = [] := by simp only [Chapter.searched, hb]
      have hheader : ch.isHeader = false := by simp only [Chapter.isHeader, hb]
      rw [hsearched, List.any_nil, Bool.or_false] at hright ⊢
      rw [hheader, Bool.false_or]
      exact ih hchs hright (ordinal + 1)

end JobDB.Workflow
