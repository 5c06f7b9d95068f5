import JobDB.Cell.Names

/-!
# Repeated creations

`Create` remembers the cell it made for a principal's request ID, with a digest of the request, and
answers a repetition from that record. The records are only ever appended to and the first one found
counts, so `creation?` gives the same record after any further operations (`run_creation?`): what
happened to the cell since then does not matter, except that a retired cell is reported as such.
-/

namespace JobDB

/-- What the digest of a request is taken of: the tenant has no part in it. -/
def CreateCellRequest.content (req : CreateCellRequest) : CreateCellRequest :=
  { req with tenantID := "" }

namespace Registry

variable {L : CellLib} {H : Host} {s s' : Registry} {ctx : Ctx} {now : Time} {id revision : String}
  {req n : CreateCellRequest} {c : Cell} {r : Creation} {principal requestID : String}

theorem creation?_register {p descriptor : String} (h : s.creation? principal requestID = some r) :
    (s.register p descriptor n c).creation? principal requestID = some r := by
  unfold creation? at h ⊢
  split at h
  · cases h
  next hid =>
  rw [if_neg hid]
  unfold register
  split
  · exact h
  · show (s.creations ++ _).find? _ = _
    rw [List.find?_append, h]
    rfl

/-- A request that is remembered is answered from the record. -/
theorem create_of_creation? (hn : normalizeCreate L ctx req = .ok n)
    (hr : s.creation? ctx.principal n.requestID = some r) :
    create L ctx now id revision req s =
      if r.descriptor ≠ L.requestDigest n then .error errCellRequestConflict
      else if (s.cells.lookup r.result.id).any (·.state = .retired) then .error errCellRetired
      else .ok (r.result, s) := by
  unfold create
  simp only [hn, hr, bind, Except.bind]

/-- A request that succeeds is remembered with the cell it answered. -/
theorem creation?_of_create (h : create L ctx now id revision req s = .ok (c, s'))
    (hid : req.requestID ≠ "") :
    ∃ n r, normalizeCreate L ctx req = .ok n ∧ s'.creation? ctx.principal req.requestID = some r ∧
      r.descriptor = L.requestDigest n ∧ r.result = c := by
  obtain ⟨n, hn, hcases⟩ := create_eq_ok h
  rw [(normalizeCreate_eq_ok hn).2] at hcases
  rcases hcases with ⟨rfl, r, hr, hdigest, hc⟩ | ⟨hnone, -, -, rfl⟩
  · exact ⟨n, r, hn, hr, hdigest, hc⟩
  · refine ⟨n, ⟨ctx.principal, req.requestID, L.requestDigest n, c⟩, hn, ?_, rfl, rfl⟩
    unfold creation? at hnone ⊢
    rw [if_neg hid] at hnone ⊢
    unfold register
    rw [if_neg ((normalizeCreate_eq_ok hn).2 ▸ hid)]
    show (s.creations ++ _).find? _ = _
    rw [List.find?_append, hnone, (normalizeCreate_eq_ok hn).2]
    simp

/-- **One operation** keeps what is remembered. -/
theorem Op.step_creation? (op : Op) {d : Drawing} (hd : Kept L H d)
    (h : d.registry.creation? principal requestID = some r) :
    (op.step L H d).registry.creation? principal requestID = some r := by
  unfold Op.step
  split
  · next c s happly =>
    cases op with
    | create ctx now req =>
      obtain ⟨n, -, ⟨rfl, -⟩ | ⟨-, -, -, rfl⟩⟩ := create_eq_ok happly
      · exact h
      · exact creation?_register h
    | update ctx now req =>
      obtain rfl | ⟨_, _, _, _, _, _, rfl⟩ := update_eq_ok hd.wellFormed happly <;> exact h
    | retire ctx now busy req =>
      obtain rfl | ⟨_, _, _, rfl⟩ := retire_eq_ok hd.wellFormed happly <;> exact h
  · exact h

theorem run_creation? (ops : List Op) {d : Drawing} (hd : Kept L H d)
    (h : d.registry.creation? principal requestID = some r) :
    (run L H ops d).registry.creation? principal requestID = some r := by
  induction ops generalizing d with
  | nil => exact h
  | cons op ops ih => exact ih (op.step_kept hd).1 (op.step_creation? hd h)

/-- A refused operation changes nothing. -/
theorem Op.step_of_error {op : Op} {d : Drawing} {e : Err}
    (h : op.apply L H d.drawn d.registry = .error e) : (op.step L H d).registry = d.registry := by
  unfold Op.step
  rw [h]

variable (L H)

/-- **Creation is idempotent.** After a `Create` with a request ID and any further operations, a
`Create` of the same principal with the same ID changes nothing: with the same content it answers
with the cell first created, or that this is retired, and with other content it fails. Nothing is
changed by operations that fail. The digests of the two requests are supposed to be the same only if
the requests are. -/
theorem create_idempotent (before later : List Op) (ctx ctx' : Ctx) (now now' : Time)
    (req req' : CreateCellRequest) (c : Cell) (s : Registry)
    (hfirst : (Op.create ctx now req).apply L H (run L H before).drawn (run L H before).registry =
      .ok (c, s))
    (hid : req.requestID ≠ "") (hid' : req'.requestID = req.requestID)
    (hprincipal : ctx'.principal = ctx.principal)
    (hdigest : ∀ n n', normalizeCreate L ctx req = .ok n → normalizeCreate L ctx' req' = .ok n' →
      (L.requestDigest n = L.requestDigest n' ↔ n.content = n'.content)) :
    let d := run L H later ((Op.create ctx now req).step L H (run L H before))
    let again := (Op.create ctx' now' req').apply L H d.drawn d.registry
    (∀ n n', normalizeCreate L ctx req = .ok n → normalizeCreate L ctx' req' = .ok n' →
      (n.content = n'.content → again =
        if (d.registry.cells.lookup c.id).any (·.state = .retired) then .error errCellRetired
        else .ok (c, d.registry)) ∧
      (n.content ≠ n'.content → again = .error errCellRequestConflict)) ∧
    (∀ e, normalizeCreate L ctx' req' = .error e → again = .error e) ∧
    ∀ (op : Op) (d : Drawing) (e : Err), op.apply L H d.drawn d.registry = .error e →
      (op.step L H d).registry = d.registry := by
  intro d again
  refine ⟨fun n n' hn hn' => ?_, fun e he => ?_, fun op d e h => op.step_of_error h⟩
  · obtain ⟨n₁, r, hn₁, hr, hdescriptor, rfl⟩ := creation?_of_create hfirst hid
    obtain rfl := Except.ok.inj (hn₁.symm.trans hn)
    have hstep : ((Op.create ctx now req).step L H (run L H before)).registry = s := by
      unfold Op.step
      rw [hfirst]
    have hkept := ((Op.create ctx now req).step_kept
      (run_kept before (kept_empty (H := H) (L := L))).1).1
    have hd : d.registry.creation? ctx'.principal n'.requestID = some r := by
      rw [hprincipal, (normalizeCreate_eq_ok hn').2, hid']
      exact run_creation? later hkept (hstep ▸ hr)
    have hagain : again = _ := create_of_creation? hn' hd
    rw [hagain, hdescriptor]
    have hiff := hdigest n₁ n' hn₁ hn'
    exact ⟨fun hsame => if_neg (not_not.2 (hiff.2 hsame)), fun hother => if_pos (hiff.not.2 hother)⟩
  · show create L ctx' now' _ _ req' _ = _
    unfold create
    rw [he]
    rfl

/-- A request for the cell `x`, and an update that renames it. -/
def requestX (repo : String) : CreateCellRequest :=
  { tenantID := "t", name := "a", repo := repo, requestID := "q" }

def renameX : Op := .update .admin 2 { key := ⟨"t", "x"⟩, ifMatch := "\"xx\"", name := some "b" }

/-- The request is repeated after its cell was renamed, with another text of the same repository. -/
theorem create_again_renamed :
    let d := run .plain .accepting [.create .admin 1 (requestX "h/a.git"), renameX]
    d.registry.byName "b" ≠ none ∧
    (Op.create .admin 3 (requestX "h/a")).apply .plain .accepting d.drawn d.registry =
      .ok (newCell (requestX "h/a") 1 "x" "xx", d.registry) :=
  ⟨by decide +kernel,
    ((create_idempotent .plain .accepting [] [renameX] .admin .admin 1 3 (requestX "h/a.git")
      (requestX "h/a") _ _ rfl (by decide) rfl rfl fun n n' hn hn' => by
        obtain rfl := Except.ok.inj hn
        obtain rfl := Except.ok.inj hn'
        decide +kernel).1 _ _ rfl rfl).1 (by decide +kernel)⟩

end Registry

end JobDB
