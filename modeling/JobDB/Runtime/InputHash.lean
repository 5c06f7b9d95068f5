import JobDB.Schedule.Preflight
import Mathlib.Data.List.Flatten
import Mathlib.Data.List.Sort
import Mathlib.Data.Set.Function

/-!
# Input hashes

Whether a submission under an ID in use is the same submission again is decided by the hash of its
input. The three runtimes compute it in the same way (`sqlite/codec.go`, `toyimpl/runtime.go`,
`core/runtime_submit.go`): they write the data to the hasher, and then for each artifact its name, a
bar and what its `Sha256` says, sorted. Nothing says where the data ends and the first name begins,
so a piece of that name can as well be the end of the data (`Shifted`). Where every artifact is
hashed and no name quotes a hash, this is the only way in which two inputs meet
(`input_hashes_separate_iff`). An artifact made from a reader is not hashed at all: its `Sha256` is
empty, whatever the reader holds.

SHA-256, printed in hexadecimal, is the parameter `digest`. That it has no collisions is assumed of
the texts at hand only; there are some among all texts.
-/

namespace JobDB

open scoped List

/-- How an artifact was made, as far as `Sha256` and `Size` tell. -/
inductive ArtifactKind where
  /-- From bytes, from a file or from an opener: the contents can be read any number of times. -/
  | opened
  /-- From a reader, with the size that was given with it. -/
  | reader (size : Int)
  /-- Of an artifact that a store keeps, with its digest and size. -/
  | stored (digest : List UInt8) (size : Int)
deriving DecidableEq, Repr, Inhabited

/-- What the hash takes from a `jobdb.Artifact` that can be read. -/
structure InputArtifact where
  name : List UInt8
  content : List UInt8
  kind : ArtifactKind := .opened
deriving DecidableEq, Repr, Inhabited

/-- What the hash takes from a `jobdb.TaskData` that can be read. -/
structure TaskInput where
  data : List UInt8
  artifacts : List InputArtifact
deriving DecidableEq, Repr

/-- The names and contents of the artifacts. -/
def TaskInput.named (x : TaskInput) : List (List UInt8 × List UInt8) :=
  x.artifacts.map fun a => (a.name, a.content)

/-- The data is the same, and so are the artifacts but for their order. -/
def TaskInput.Same (x y : TaskInput) : Prop := x.data = y.data ∧ x.named ~ y.named

section Digest

variable (digest : List UInt8 → List UInt8)

/-- `Artifact.Sha256`. A reader cannot be hashed without consuming it. -/
def InputArtifact.sha256 (a : InputArtifact) : List UInt8 :=
  match a.kind with
  | .opened => digest a.content
  | .reader _ => []
  | .stored d _ => d

/-- `Artifact.Size`. -/
def InputArtifact.size (a : InputArtifact) : Int :=
  match a.kind with
  | .opened => a.content.length
  | .reader n => n
  | .stored _ n => n

/-- What is written for a name and a hash. -/
def writePart (name hash : List UInt8) : List UInt8 := name ++ 124 :: hash

/-- What is written for a name and contents that are hashed. -/
def writeNamed (p : List UInt8 × List UInt8) : List UInt8 := writePart p.1 (digest p.2)

/-- What is written for an artifact. -/
def InputArtifact.part (a : InputArtifact) : List UInt8 := writePart a.name (a.sha256 digest)

/-- What is written to the hasher, in this order. -/
def TaskInput.fields (x : TaskInput) : List (List UInt8) :=
  x.data :: (x.artifacts.map (·.part digest)).insertionSort (· ≤ ·)

def TaskInput.hash (x : TaskInput) : List UInt8 := digest (x.fields digest).flatten

/-- `computeInputHash` of the SQLite runtime; `none` is a nil interface. -/
def Sqlite.computeInputHash : Option TaskInput → Except String (List UInt8)
  | none => .error "task data is required for hashing"
  | some x => .ok (x.hash digest)

/-- `jobdbInputHash` of the in-process runtime. -/
def Toy.jobdbInputHash : Option TaskInput → Except String (List UInt8)
  | none => .ok []
  | some x => .ok (x.hash digest)

/-- What `prepareInitialTaskData` returns; the uploads and the artifacts are those of the input. -/
structure Core.InitialTaskData where
  payload : List UInt8
  /-- Name, digest and size of each artifact. -/
  descriptors : List (List UInt8 × List UInt8 × Int)
  artifacts : List InputArtifact
  hash : List UInt8
deriving DecidableEq, Repr

/-- `prepareInitialTaskData` of the core runtime; `valid` is `json.Valid`. -/
def Core.prepareInitialTaskData (valid : List UInt8 → Bool) :
    Option TaskInput → Except String Core.InitialTaskData
  | none => .error "job data is required"
  | some x => do
    demand "job data must be valid JSON" (valid x.data = true)
    .ok
      { payload := x.data
        descriptors := x.artifacts.map fun a => (a.name, a.sha256 digest, a.size)
        artifacts := x.artifacts
        hash := x.hash digest }

/-- The input hash in a runtime. -/
def Backend.inputHash (valid : List UInt8 → Bool) : Backend → TaskInput → Except String (List UInt8)
  | .sqlite, x => Sqlite.computeInputHash digest (some x)
  | .toy, x => Toy.jobdbInputHash digest (some x)
  | .core, x => (Core.prepareInitialTaskData digest valid (some x)).map (·.hash)

/-- No two of the texts have the same hash. -/
def CollisionFree (texts : List (List UInt8)) : Prop :=
  ∀ a ∈ texts, ∀ b ∈ texts, digest a = digest b → a = b

/-- The texts of which a hash is taken. -/
def TaskInput.hashed (x : TaskInput) : List (List UInt8) :=
  (x.fields digest).flatten :: x.artifacts.map (·.content)

variable {digest} {valid : List UInt8 → Bool} {x y : TaskInput} {h h' : List UInt8}

theorem Backend.inputHash_eq_ok (V : Backend) : V.inputHash digest valid x = .ok h ↔
    (V = .core → valid x.data = true) ∧ x.hash digest = h := by
  cases V with
  | core =>
    by_cases hv : valid x.data = true <;>
      simp [inputHash, Core.prepareInitialTaskData, demand, hv, bind, Except.bind, Except.map]
  | _ => simp [inputHash, Sqlite.computeInputHash, Toy.jobdbInputHash]

/-- Sorting forgets the order and nothing else. -/
theorem insertionSort_eq_iff {l l' : List (List UInt8)} :
    l.insertionSort (· ≤ ·) = l'.insertionSort (· ≤ ·) ↔ l ~ l' := by
  constructor
  · intro h
    exact (List.perm_insertionSort (· ≤ ·) l).symm.trans (h ▸ List.perm_insertionSort _ l')
  · intro h
    exact List.Perm.eq_of_pairwise (fun _ _ _ _ => List.le_antisymm)
      (List.pairwise_insertionSort _ l) (List.pairwise_insertionSort _ l')
      ((List.perm_insertionSort _ l).trans (h.trans (List.perm_insertionSort _ l').symm))

/-! ## Where a part ends -/

section Parts

variable {n n' s s' e : List UInt8}

/-- A bar that is not in the hash before it stands behind it. -/
theorem eq_nil_or_prefix_of_bar {w u v : List UInt8} (hs : (124 : UInt8) ∉ s)
    (h : 124 :: s ++ u = w ++ 124 :: v) : w = [] ∨ 124 :: s <+: w := by
  cases w with
  | nil => exact .inl rfl
  | cons c w =>
    obtain ⟨rfl, htail⟩ := List.cons.inj h
    refine .inr ((List.prefix_cons_inj _).2 ?_)
    rcases List.append_eq_append_iff.1 htail with ⟨t, rfl, -⟩ | ⟨t, rfl, ht⟩
    · exact List.prefix_append _ _
    · cases t with
      | nil => simp
      | cons c t =>
        obtain ⟨rfl, -⟩ := List.cons.inj ht
        simp at hs

/-- **One part.** Its border is known where no name quotes the other's hash. -/
theorem writePart_append_inj {u u' : List UInt8} (hlen : s.length = s'.length)
    (hs : (124 : UInt8) ∉ s) (hs' : (124 : UInt8) ∉ s') (hn : ¬ 124 :: s' <:+: n)
    (hn' : ¬ 124 :: s <:+: n') (h : writePart n s ++ u = writePart n' s' ++ u') :
    n = n' ∧ s = s' ∧ u = u' := by
  unfold writePart at h
  rw [List.append_assoc, List.append_assoc] at h
  have hequal {w : List UInt8} {n n' s s' u u' : List UInt8} (hs : (124 : UInt8) ∉ s)
      (hn' : ¬ 124 :: s <:+: n') (hw : n' = n ++ w)
      (h : 124 :: s ++ u = w ++ (124 :: s' ++ u')) : w = [] := by
    refine (eq_nil_or_prefix_of_bar hs h).resolve_right fun hprefix => hn' ?_
    rw [hw]
    exact hprefix.isInfix.trans (List.suffix_append _ _).isInfix
  have hw : n = n' ∧ 124 :: s ++ u = 124 :: s' ++ u' := by
    rcases List.append_eq_append_iff.1 h with ⟨w, hw, h⟩ | ⟨w, hw, h⟩
    · obtain rfl := hequal hs hn' hw h
      exact ⟨(hw.trans (List.append_nil _)).symm, h⟩
    · obtain rfl := hequal hs' hn hw h
      exact ⟨hw.trans (List.append_nil _), h.symm⟩
  obtain ⟨hhash, hu⟩ := List.append_inj hw.2 (by simp [hlen])
  exact ⟨hw.1, (List.cons.inj hhash).2, hu⟩

end Parts

/-- What is asked of the names and contents of two inputs: each hash has 64 characters, none of
them a bar, no two contents have the same, and no name quotes one. -/
structure Quotable (digest : List UInt8 → List UInt8) (l : List (List UInt8 × List UInt8)) :
    Prop where
  width : ∀ text, (digest text).length = 64
  hex : ∀ text, (124 : UInt8) ∉ digest text
  free : ∀ p ∈ l, ∀ q ∈ l, digest p.2 = digest q.2 → p.2 = q.2
  quotes : ∀ p ∈ l, ∀ q ∈ l, ¬ 124 :: digest p.2 <:+: q.1

/-- What is written for the artifacts. -/
def written (digest : List UInt8 → List UInt8) (l : List (List UInt8 × List UInt8)) : List UInt8 :=
  (l.map (writeNamed digest)).flatten

section Written

variable {l l' m : List (List UInt8 × List UInt8)} {e : List UInt8}

theorem written_cons (p : List UInt8 × List UInt8) (l : List (List UInt8 × List UInt8)) :
    written digest (p :: l) = writePart p.1 (digest p.2) ++ written digest l := rfl

theorem written_cons_ne_nil (p : List UInt8 × List UInt8) (l : List (List UInt8 × List UInt8)) :
    written digest (p :: l) ≠ [] := by
  rw [written_cons]
  simp [writePart]

/-- Two names with their hashes, where the first may have lost its beginning. -/
theorem Quotable.part_inj (h : Quotable digest m) {n u u' : List UInt8}
    {p q : List UInt8 × List UInt8} (hp : p ∈ m) (hq : q ∈ m) (hn : n <:+ p.1)
    (heq : writePart n (digest p.2) ++ u = writePart q.1 (digest q.2) ++ u') :
    n = q.1 ∧ p.2 = q.2 ∧ u = u' := by
  obtain ⟨hname, hhash, hu⟩ := writePart_append_inj (by rw [h.width, h.width]) (h.hex _) (h.hex _)
    (fun hin => h.quotes q hq p hp (hin.trans hn.isInfix)) (h.quotes p hp q hq) heq
  exact ⟨hname, h.free p hp q hq hhash, hu⟩

/-- **All parts.** -/
theorem Quotable.written_inj (h : Quotable digest m) (hl : ∀ p ∈ l, p ∈ m) (hl' : ∀ p ∈ l', p ∈ m)
    (heq : written digest l = written digest l') : l = l' := by
  induction l generalizing l' with
  | nil =>
    cases l' with
    | nil => rfl
    | cons q l' => exact absurd heq.symm (written_cons_ne_nil q l')
  | cons p l ih =>
    cases l' with
    | nil => exact absurd heq (written_cons_ne_nil p l)
    | cons q l' =>
      obtain ⟨hp, hl⟩ := List.forall_mem_cons.1 hl
      obtain ⟨hq, hl'⟩ := List.forall_mem_cons.1 hl'
      rw [written_cons, written_cons] at heq
      obtain ⟨hname, hcontent, hrest⟩ := h.part_inj hp hq (List.suffix_refl _) heq
      rw [Prod.ext hname hcontent, ih hl hl' hrest]

/-- **The parts behind a piece of text**: the piece is the beginning of the first name, unless it
goes on behind that name. -/
theorem Quotable.shift (h : Quotable digest m) (hl : ∀ p ∈ l, p ∈ m) (hl' : ∀ p ∈ l', p ∈ m)
    (he : e ≠ []) (hgoes : ∀ p ∈ l, ¬ p.1 ++ [124] <+: e)
    (heq : written digest l = e ++ written digest l') :
    ∃ name content rest, l = (e ++ name, content) :: rest ∧ l' = (name, content) :: rest := by
  cases l with
  | nil => exact absurd (List.append_eq_nil_iff.1 heq.symm).1 he
  | cons p l =>
    obtain ⟨hp, hl⟩ := List.forall_mem_cons.1 hl
    rw [written_cons, writePart, List.append_assoc] at heq
    have hbegins : ∃ name, p.1 = e ++ name ∧
        writePart name (digest p.2) ++ written digest l = written digest l' := by
      rcases List.append_eq_append_iff.1 heq with ⟨w, hw, hrest⟩ | ⟨w, hw, hrest⟩
      · cases w with
        | nil => exact ⟨[], by simpa using hw.symm, by simpa [writePart] using hrest⟩
        | cons c w =>
          obtain ⟨rfl, -⟩ := List.cons.inj hrest
          refine absurd ?_ (hgoes p List.mem_cons_self)
          rw [hw]
          exact (List.prefix_append_right_inj _).2 ⟨w, rfl⟩
      · exact ⟨w, hw, by rw [writePart, List.append_assoc]; exact hrest.symm⟩
    obtain ⟨name, hname, hrest⟩ := hbegins
    cases l' with
    | nil =>
      refine absurd hrest ?_
      simp [written, writePart]
    | cons q l' =>
      obtain ⟨hq, hl'⟩ := List.forall_mem_cons.1 hl'
      rw [written_cons] at hrest
      obtain ⟨hqname, hcontent, hu⟩ := h.part_inj hp hq ⟨e, hname.symm⟩ hrest
      refine ⟨name, p.2, l, ?_, ?_⟩
      · rw [← hname]
      · rw [h.written_inj hl hl' hu, hqname, hcontent]

end Written

/-! ## Two inputs -/

variable (digest) in
/-- What is asked of the kinds, the names and the data: every artifact is hashed, no name has a bar
with the hash of one behind it, and where one data begins with the other, it does not go on with the
other's name and a bar. -/
structure TaskInput.Plain (x y : TaskInput) : Prop where
  opened : ∀ a ∈ x.artifacts ++ y.artifacts, a.kind = .opened
  quotes : ∀ p ∈ x.named ++ y.named, ∀ q ∈ x.named ++ y.named, ¬ 124 :: digest p.2 <:+: q.1
  goes : ∀ e, y.data = x.data ++ e → ∀ p ∈ x.named, ¬ p.1 ++ [124] <+: e
  goes' : ∀ e, x.data = y.data ++ e → ∀ p ∈ y.named, ¬ p.1 ++ [124] <+: e

variable (digest) in
/-- `y` is `x` with the beginning of a name moved to the end of the data, where the artifact is the
first to be written before and after. -/
def TaskInput.Shifted (x y : TaskInput) : Prop :=
  ∃ e name content rest, e ≠ [] ∧ y.data = x.data ++ e ∧
    x.named ~ (e ++ name, content) :: rest ∧ y.named ~ (name, content) :: rest ∧
    ∀ p ∈ rest, writeNamed digest (e ++ name, content) ≤ writeNamed digest p ∧
      writeNamed digest (name, content) ≤ writeNamed digest p

/-- The parts of an input whose artifacts are hashed. -/
theorem TaskInput.fields_of_opened (opened : ∀ a ∈ x.artifacts, a.kind = .opened) :
    x.fields digest =
      x.data :: (x.named.map (writeNamed digest)).insertionSort (· ≤ ·) := by
  unfold fields named
  rw [List.map_map]
  congr 2
  refine List.map_congr_left fun a ha => ?_
  simp [InputArtifact.part, InputArtifact.sha256, writeNamed, opened a ha]

variable (digest) in
/-- The names and contents in the order in which they are written. -/
theorem TaskInput.exists_sorted (opened : ∀ a ∈ x.artifacts, a.kind = .opened) :
    ∃ l, l ~ x.named ∧ (x.fields digest).flatten = x.data ++ written digest l ∧
      l.Pairwise fun p q => writeNamed digest p ≤ writeNamed digest q := by
  have hsorted := List.map_insertionSort
    (fun p q => writeNamed digest p ≤ writeNamed digest q) (· ≤ ·) (writeNamed digest) x.named
    fun _ _ _ _ => Iff.rfl
  refine ⟨x.named.insertionSort fun p q => writeNamed digest p ≤ writeNamed digest q,
    List.perm_insertionSort _ _, ?_, ?_⟩
  · rw [fields_of_opened opened, ← hsorted]
    rfl
  · have hpairwise := List.pairwise_insertionSort (· ≤ ·) (x.named.map (writeNamed digest))
    rwa [← hsorted, List.pairwise_map] at hpairwise

theorem TaskInput.Same.flatten_eq (opened : ∀ a ∈ x.artifacts ++ y.artifacts, a.kind = .opened)
    (h : x.Same y) : (x.fields digest).flatten = (y.fields digest).flatten := by
  rw [List.forall_mem_append] at opened
  rw [fields_of_opened opened.1, fields_of_opened opened.2, h.1,
    insertionSort_eq_iff.2 (h.2.map _)]

theorem TaskInput.Shifted.flatten_eq (opened : ∀ a ∈ x.artifacts ++ y.artifacts, a.kind = .opened)
    (h : x.Shifted digest y) : (x.fields digest).flatten = (y.fields digest).flatten := by
  obtain ⟨e, name, content, rest, -, hdata, hx, hy, hfirst⟩ := h
  rw [List.forall_mem_append] at opened
  have hsort {n : List UInt8}
      (hn : ∀ p ∈ rest, writeNamed digest (n, content) ≤ writeNamed digest p) :
      (((n, content) :: rest).map (writeNamed digest)).insertionSort (· ≤ ·) =
        writeNamed digest (n, content) ::
          (rest.map (writeNamed digest)).insertionSort (· ≤ ·) := by
    refine List.insertionSort_cons_of_forall_rel _ fun q hq => ?_
    obtain ⟨p, hp, rfl⟩ := List.mem_map.1 hq
    exact hn p hp
  rw [fields_of_opened opened.1, fields_of_opened opened.2, hdata,
    insertionSort_eq_iff.2 (hx.map _), insertionSort_eq_iff.2 (hy.map _),
    hsort fun p hp => (hfirst p hp).1, hsort fun p hp => (hfirst p hp).2]
  simp [writeNamed, writePart]

/-- One data begins with the other. -/
theorem TaskInput.same_or_shifted {l l' : List (List UInt8 × List UInt8)} {w : List UInt8}
    (hq : Quotable digest (x.named ++ y.named)) (hl : l ~ x.named) (hl' : l' ~ y.named)
    (hsorted : l.Pairwise fun p q => writeNamed digest p ≤ writeNamed digest q)
    (hsorted' : l'.Pairwise fun p q => writeNamed digest p ≤ writeNamed digest q)
    (goes : ∀ e, y.data = x.data ++ e → ∀ p ∈ x.named, ¬ p.1 ++ [124] <+: e)
    (hw : y.data = x.data ++ w) (heq : written digest l = w ++ written digest l') :
    x.Same y ∨ x.Shifted digest y := by
  have hmem : ∀ p ∈ l, p ∈ x.named ++ y.named := fun p hp =>
    List.mem_append_left _ (hl.mem_iff.1 hp)
  have hmem' : ∀ p ∈ l', p ∈ x.named ++ y.named := fun p hp =>
    List.mem_append_right _ (hl'.mem_iff.1 hp)
  by_cases hnil : w = []
  · subst hnil
    rw [List.nil_append] at heq
    refine .inl ⟨(hw.trans (List.append_nil _)).symm, ?_⟩
    exact hl.symm.trans (hq.written_inj hmem hmem' heq ▸ hl')
  · obtain ⟨name, content, rest, rfl, rfl⟩ :=
      hq.shift hmem hmem' hnil (fun p hp => goes w hw p (hl.mem_iff.1 hp)) heq
    have hfirst := (List.pairwise_cons.1 hsorted).1
    have hfirst' := (List.pairwise_cons.1 hsorted').1
    exact .inr ⟨w, name, content, rest, hnil, hw, hl.symm, hl'.symm,
      fun p hp => ⟨hfirst p hp, hfirst' p hp⟩⟩

/-- **When two inputs write the same**: they are the same, or a piece of a name has moved. -/
theorem TaskInput.Plain.flatten_eq_iff (h : x.Plain digest y)
    (hq : Quotable digest (x.named ++ y.named)) :
    (x.fields digest).flatten = (y.fields digest).flatten ↔
      x.Same y ∨ x.Shifted digest y ∨ y.Shifted digest x := by
  have hopened := List.forall_mem_append.1 h.opened
  have hback : ∀ a ∈ y.artifacts ++ x.artifacts, a.kind = .opened :=
    List.forall_mem_append.2 hopened.symm
  constructor
  · intro heq
    obtain ⟨l, hl, hflat, hsorted⟩ := exists_sorted digest hopened.1
    obtain ⟨l', hl', hflat', hsorted'⟩ := exists_sorted digest hopened.2
    rw [hflat, hflat'] at heq
    rcases List.append_eq_append_iff.1 heq with ⟨w, hw, hrest⟩ | ⟨w, hw, hrest⟩
    · exact (same_or_shifted hq hl hl' hsorted hsorted' h.goes hw hrest).imp_right .inl
    · have hswap : Quotable digest (y.named ++ x.named) := by
        have hmem {p : List UInt8 × List UInt8} (hp : p ∈ y.named ++ x.named) :
            p ∈ x.named ++ y.named := List.mem_append.2 (List.mem_append.1 hp).symm
        exact ⟨hq.width, hq.hex, fun p hp q hq' => hq.free p (hmem hp) q (hmem hq'),
          fun p hp q hq' => hq.quotes p (hmem hp) q (hmem hq')⟩
      rcases same_or_shifted hswap hl' hl hsorted' hsorted h.goes' hw hrest with hsame | hshift
      · exact .inl ⟨hsame.1.symm, hsame.2.symm⟩
      · exact .inr (.inr hshift)
  · rintro (hsame | hshift | hshift)
    · exact hsame.flatten_eq h.opened
    · exact hshift.flatten_eq h.opened
    · exact (hshift.flatten_eq hback).symm

theorem TaskInput.Shifted.not_same (h : x.Shifted digest y) : ¬ x.Same y ∧ ¬ y.Same x := by
  obtain ⟨e, -, -, -, he, hdata, -⟩ := h
  have hne : y.data ≠ x.data := by
    rw [hdata]
    simpa using he
  exact ⟨fun hsame => hne hsame.1.symm, fun hsame => hne hsame.1⟩

/-- **Input hashes.** Let the hashes be 64 characters without a bar, and let no two of the texts
hashed for two inputs have the same. Let every artifact be hashed and no name or data quote what is
written for another. Then a runtime that accepts both inputs gives them the same hash just when they
are the same input, if and only if neither is the other with a piece of a name moved to the data. -/
theorem input_hashes_separate_iff (V : Backend) (width : ∀ text, (digest text).length = 64)
    (hex : ∀ text, (124 : UInt8) ∉ digest text)
    (free : CollisionFree digest (x.hashed digest ++ y.hashed digest))
    (plain : x.Plain digest y)
    (hx : V.inputHash digest valid x = .ok h) (hy : V.inputHash digest valid y = .ok h') :
    (h = h' ↔ x.Same y) ↔ ¬ x.Shifted digest y ∧ ¬ y.Shifted digest x := by
  have hequal : h = h' ↔ (x.fields digest).flatten = (y.fields digest).flatten := by
    rw [← (V.inputHash_eq_ok.1 hx).2, ← (V.inputHash_eq_ok.1 hy).2]
    refine ⟨fun heq => free _ ?_ _ ?_ heq, congrArg digest⟩ <;> simp [TaskInput.hashed]
  have hcontent {p : List UInt8 × List UInt8} (hp : p ∈ x.named ++ y.named) :
      p.2 ∈ x.hashed digest ++ y.hashed digest := by
    rcases List.mem_append.1 hp with hp | hp <;> obtain ⟨a, ha, rfl⟩ := List.mem_map.1 hp <;>
      simp [TaskInput.hashed, List.mem_map_of_mem ha]
  have hquotable : Quotable digest (x.named ++ y.named) :=
    ⟨width, hex, fun p hp q hq => free _ (hcontent hp) _ (hcontent hq), plain.quotes⟩
  rw [hequal, plain.flatten_eq_iff hquotable]
  constructor
  · intro hiff
    exact ⟨fun hs => hs.not_same.1 (hiff.1 (.inr (.inl hs))),
      fun hs => hs.not_same.2 (hiff.1 (.inr (.inr hs)))⟩
  · rintro ⟨hxy, hyx⟩
    exact ⟨fun hor => hor.resolve_right fun hs => hs.elim hxy hyx, .inl⟩

end Digest

/-- A hash that tells texts of some lengths apart. -/
def lengthDigest (text : List UInt8) : List UInt8 :=
  List.replicate 63 48 ++ [UInt8.ofNat (48 + text.length % 10)]

theorem lengthDigest_hex (text : List UInt8) : (124 : UInt8) ∉ lengthDigest text := by
  have hdigit : ∀ n < 10, (124 : UInt8) ≠ UInt8.ofNat (48 + n) := by decide
  have hlast := hdigit (text.length % 10) (Nat.mod_lt _ (by decide))
  simpa [lengthDigest] using hlast

def sampleInput : TaskInput := ⟨[49], [⟨[97], [], .opened⟩, ⟨[98], [0], .opened⟩]⟩

def sampleReordered : TaskInput := ⟨[49], [⟨[98], [0], .opened⟩, ⟨[97], [], .opened⟩]⟩

/-- Two artifacts, given in either order. -/
theorem input_hashes_separate_reordered :
    Backend.sqlite.inputHash lengthDigest (fun _ => true) sampleInput =
      Backend.sqlite.inputHash lengthDigest (fun _ => true) sampleReordered := by
  have hgoes : ∀ e : List UInt8, [49] = [49] ++ e → e = [] := by simp
  have hplain : sampleInput.Plain lengthDigest sampleReordered := {
    opened := by decide
    quotes := by decide
    goes := fun e he p _ => by simp [hgoes e he]
    goes' := fun e he p _ => by simp [hgoes e he] }
  have hseparate := @input_hashes_separate_iff lengthDigest (fun _ => true) _ _ _ _ .sqlite
    (fun _ => by simp [lengthDigest]) lengthDigest_hex (by unfold CollisionFree; decide +kernel)
    hplain rfl rfl
  refine congrArg Except.ok ((hseparate.2 ⟨?_, ?_⟩).2 ⟨rfl, .swap _ _ _⟩)
  · rintro ⟨e, -, -, -, he, hdata, -⟩
    exact he (hgoes e hdata)
  · rintro ⟨e, -, -, -, he, hdata, -⟩
    exact he (hgoes e hdata)

/-- The data 1 with an artifact named 2, and the data 12 with an artifact without a name; and two
artifacts made from readers that hold different bytes. -/
theorem input_hashes_meet :
    (∀ (V : Backend) (digest : List UInt8 → List UInt8) (valid : List UInt8 → Bool),
      valid [49] = true → valid [49, 50] = true →
        V.inputHash digest valid ⟨[49], [⟨[50], [], .opened⟩]⟩ =
            V.inputHash digest valid ⟨[49, 50], [⟨[], [], .opened⟩]⟩ ∧
          V.inputHash digest valid ⟨[49], [⟨[50], [0], .reader 1⟩]⟩ =
            V.inputHash digest valid ⟨[49], [⟨[50], [1], .reader 1⟩]⟩) ∧
      ¬ TaskInput.Same ⟨[49], [⟨[50], [], .opened⟩]⟩ ⟨[49, 50], [⟨[], [], .opened⟩]⟩ ∧
      ¬ TaskInput.Same ⟨[49], [⟨[50], [0], .reader 1⟩]⟩ ⟨[49], [⟨[50], [1], .reader 1⟩]⟩ := by
  refine ⟨fun V digest valid h₁ h₂ => ⟨?_, ?_⟩, (fun hsame => nomatch hsame.1), fun hsame => ?_⟩
  · rw [V.inputHash_eq_ok.2 ⟨fun _ => h₁, rfl⟩, V.inputHash_eq_ok.2 ⟨fun _ => h₂, rfl⟩]
    rfl
  · rw [V.inputHash_eq_ok.2 ⟨fun _ => h₁, rfl⟩, V.inputHash_eq_ok.2 ⟨fun _ => h₁, rfl⟩]
    rfl
  · exact absurd hsame.2 (by decide)

end JobDB
