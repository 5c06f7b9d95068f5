import Mathlib
import JobDB.Lib.Json
import JobDB.Lib.Tx

/-!
# Reading an update of a client payload

`Update.UnmarshalJSON` (`clientpayload/payload.go`) reads an update twice: once with a strict
reader of its own, which refuses an object that has a name twice and a null revision, and once
with the decoder of `encoding/json`, which finds the field for a name without regard to case and
lets the last member for a field win.

An object is the list of its members here, in the order of the text. The two notions of a name
differ, so a text may be accepted that has two members for one field (`update_ambiguous`), and
then its meaning depends on their order; `update_unambiguous_iff` says that this and a null
revision under another spelling are all that can go wrong. What the two readers pass is said of the
members alone first (`accepted_iff_readable`).
-/

namespace JobDB.ClientPayload

/-- The errors of `UnmarshalJSON`; `decoder` stands for those of `encoding/json`. -/
inductive UpdateError where
  /-- `update cannot be null`. -/
  | nullUpdate
  /-- `duplicate object name`. -/
  | duplicateName (name : String)
  /-- `nesting exceeds 128`. -/
  | nesting
  /-- `expectedRevision cannot be null`. -/
  | nullRevision
  | decoder
deriving DecidableEq, Repr

def maxDepth : Int := 128

mutual

/-- `readValue`: what it refuses. -/
def readValue (depth : Int) : Json → Except UpdateError Unit
  | .obj ms => if maxDepth ≤ depth then .error .nesting else readMembers (depth + 1) [] ms
  | .arr xs => if maxDepth ≤ depth then .error .nesting else readElements (depth + 1) xs
  | _ => .ok ()

def readElements (depth : Int) : List Json → Except UpdateError Unit
  | [] => .ok ()
  | x :: xs => do
    readValue depth x
    readElements depth xs

/-- The members of an object; `out` holds the names before them. -/
def readMembers (depth : Int) (out : List String) : List (String × Json) → Except UpdateError Unit
  | [] => .ok ()
  | (k, v) :: ms => do
    demand (.duplicateName k) (k ∉ out)
    readValue depth v
    readMembers depth (k :: out) ms

end

/-! ## The decoder -/

/-- `Update`. -/
structure Update where
  mode : String := ""
  value : Option Json := none
  expectedRevision : Option Int := none

inductive Field where
  | mode
  | value
  | expectedRevision
deriving DecidableEq, Repr

/-- The name in the tag of the field. -/
def Field.name : Field → String
  | .mode => "mode"
  | .value => "value"
  | .expectedRevision => "expectedRevision"

/-- `foldRune`. Besides the small letters only the long s and the Kelvin sign fold to an ASCII
letter. -/
def foldRune (c : Char) : Char :=
  if c.toNat = 0x17F then 'S' else if c.toNat = 0x212A then 'K' else c.toUpper

/-- `foldName`. -/
def foldName (name : String) : List Char := name.toList.map foldRune

/-- The field that a member goes to. No two fields have the same folded name, so the decoder's
look at the exact name first makes no difference. -/
def field? (name : String) : Option Field :=
  [Field.mode, .value, .expectedRevision].find? fun f => foldName f.name = foldName name

/-- `strconv.ParseInt(text, 10, 64)`, of a text that begins like a number. -/
def parseInt64 (text : String) : Option Int :=
  let digits := if text.toList.head? = some '-' then text.toList.tail else text.toList
  if digits ≠ [] ∧ digits.all Char.isDigit then
    let n : Int := digits.foldl (fun n c => n * 10 + (c.toNat - 48 : Nat)) 0
    let n := if text.toList.head? = some '-' then -n else n
    if -2 ^ 63 ≤ n ∧ n < 2 ^ 63 then some n else none
  else none

/-- A member for the revision, which the tag `,string` wants to be quoted. -/
def decodeRevision : Json → Option (Option Int)
  | .null => some none
  | .str text => if text = "null" then some none else (parseInt64 text).map some
  | _ => none

/-- What a member does; `none` where the decoder notes an error. -/
def setter (name : String) (v : Json) : Option (Update → Update) :=
  match field? name, v, decodeRevision v with
  | some .mode, .str s, _ => some fun u => { u with mode := s }
  | some .mode, .null, _ => some id
  | some .value, v, _ => some fun u => { u with value := some v }
  | some .expectedRevision, _, some r => some fun u => { u with expectedRevision := r }
  | _, _, _ => none

/-- The decoder goes through all members, in the order of the text. -/
def decoded (ms : List (String × Json)) : Update :=
  ms.foldl (fun u m => (setter m.1 m.2).getD id u) {}

/-- The member that `fields["expectedRevision"]` finds, if it is null. -/
def isNullRevision : String × Json → Bool
  | (name, .null) => name = "expectedRevision"
  | _ => false

/-- `Update.UnmarshalJSON`. -/
def unmarshalUpdate : Json → Except UpdateError Update
  | .null => .error .nullUpdate
  | .obj ms => do
    readValue (-1) (.obj ms)
    demand .nullRevision (∀ m ∈ ms, isNullRevision m = false)
    demand .decoder (∀ m ∈ ms, (setter m.1 m.2).isSome = true)
    .ok (decoded ms)
  | v => do
    readValue (-1) v
    .error .decoder

/-! ## The order of the members -/

variable {ms ms' : List (String × Json)} {u : Update}

theorem readMembers_eq_ok {depth : Int} {out : List String} {a : Unit} :
    readMembers depth out ms = .ok a ↔
      (ms.map Prod.fst).Nodup ∧ ∀ m ∈ ms, m.1 ∉ out ∧ readValue depth m.2 = .ok () := by
  induction ms generalizing out with
  | nil => simp [readMembers]
  | cons m ms ih =>
    obtain ⟨k, v⟩ := m
    unfold readMembers
    rw [demand_bind_eq_ok, bind_eq_ok, List.map_cons, List.nodup_cons, List.forall_mem_cons]
    simp only [ih, List.mem_cons, not_or, List.mem_map]
    constructor
    · rintro ⟨hk, _, hv, hnodup, hms⟩
      refine ⟨⟨?_, hnodup⟩, ⟨hk, hv⟩, fun m hm => ⟨(hms m hm).1.2, (hms m hm).2⟩⟩
      rintro ⟨m, hm, hname⟩
      exact (hms m hm).1.1 hname
    · rintro ⟨⟨hnew, hnodup⟩, ⟨hk, hv⟩, hms⟩
      refine ⟨hk, (), hv, hnodup, fun m hm => ⟨⟨fun hname => ?_, (hms m hm).1⟩, (hms m hm).2⟩⟩
      exact hnew ⟨m, hm, hname⟩

/-- What is asked of the members. -/
structure Accepted (ms : List (String × Json)) : Prop where
  names : (ms.map Prod.fst).Nodup
  each : ∀ m ∈ ms, readValue 0 m.2 = .ok () ∧ isNullRevision m = false ∧
    (setter m.1 m.2).isSome = true

theorem unmarshalUpdate_eq_ok :
    unmarshalUpdate (.obj ms) = .ok u ↔ Accepted ms ∧ decoded ms = u := by
  have hread : readValue (-1) (.obj ms) = readMembers 0 [] ms := by
    unfold readValue maxDepth
    rfl
  unfold unmarshalUpdate
  dsimp only
  rw [hread, bind_eq_ok]
  simp only [readMembers_eq_ok, demand_bind_eq_ok, Except.ok.injEq]
  constructor
  · rintro ⟨_, ⟨hnodup, hms⟩, hrev, hset, h⟩
    exact ⟨⟨hnodup, fun m hm => ⟨(hms m hm).2, hrev m hm, hset m hm⟩⟩, h⟩
  · rintro ⟨h, rfl⟩
    exact ⟨(), ⟨h.names, fun m hm => ⟨List.not_mem_nil, (h.each m hm).1⟩⟩,
      fun m hm => (h.each m hm).2.1, fun m hm => (h.each m hm).2.2, rfl⟩

theorem accepted_perm (h : ms'.Perm ms) : Accepted ms' ↔ Accepted ms :=
  ⟨fun ⟨hn, he⟩ => ⟨(h.map _).nodup_iff.1 hn, fun m hm => he m (h.mem_iff.2 hm)⟩,
    fun ⟨hn, he⟩ => ⟨(h.map _).nodup_iff.2 hn, fun m hm => he m (h.mem_iff.1 hm)⟩⟩

/-- No two members go to the same field. -/
def OneEach (ms : List (String × Json)) : Prop := ms.Pairwise fun m m' => field? m.1 ≠ field? m'.1

/-- No member gives a null revision. -/
def NoNullRevision (ms : List (String × Json)) : Prop :=
  ∀ m ∈ ms, field? m.1 = some .expectedRevision → decodeRevision m.2 ≠ some none

/-- Members for different fields can change places. -/
theorem setter_comm {name name' : String} {v v' : Json} (h : field? name ≠ field? name')
    (u : Update) : (setter name' v').getD id ((setter name v).getD id u) =
      (setter name v).getD id ((setter name' v').getD id u) := by
  unfold setter
  split <;> split <;> simp_all

theorem OneEach.decoded_eq (h : OneEach ms) (hp : ms'.Perm ms) : decoded ms' = decoded ms := by
  refine (List.Perm.foldl_eq' hp.symm (fun m hm m' hm' u => ?_) _).symm
  by_cases hne : m = m'
  · rw [hne]
  · have : Std.Symm fun m m' : String × Json => field? m.1 ≠ field? m'.1 := ⟨fun _ _ h => h.symm⟩
    exact setter_comm (List.Pairwise.forall h hm hm' hne) u

/-- The order of the members does not matter, each field has one member, and none is a null
revision. -/
structure Unambiguous (ms : List (String × Json)) : Prop where
  permuted : ∀ ms', ms'.Perm ms → ∀ u,
    unmarshalUpdate (.obj ms') = .ok u ↔ unmarshalUpdate (.obj ms) = .ok u
  single : ∀ u, unmarshalUpdate (.obj ms) = .ok u → OneEach ms ∧ NoNullRevision ms

/-! ## The members that are read -/

/-- No object in the value has a name twice. -/
inductive Strict : Json → Prop where
  | null : Strict .null
  | bool (b : Bool) : Strict (.bool b)
  | num (n : JsonNumber) : Strict (.num n)
  | str (s : String) : Strict (.str s)
  | arr {xs : List Json} (elements : ∀ x ∈ xs, Strict x) : Strict (.arr xs)
  | obj {ms : List (String × Json)} (names : (ms.map Prod.fst).Nodup)
      (members : ∀ m ∈ ms, Strict m.2) : Strict (.obj ms)

theorem depthElements_le {n : Nat} {xs : List Json} :
    Json.depthElements xs ≤ n ↔ ∀ x ∈ xs, x.depth ≤ n := by
  induction xs with
  | nil => simp [Json.depthElements]
  | cons x xs ih => rw [Json.depthElements, max_le_iff, ih, List.forall_mem_cons]

theorem depthMembers_le {n : Nat} : Json.depthMembers ms ≤ n ↔ ∀ m ∈ ms, m.2.depth ≤ n := by
  induction ms with
  | nil => simp [Json.depthMembers]
  | cons m ms ih => rw [Json.depthMembers, max_le_iff, ih, List.forall_mem_cons]

theorem readElements_eq_ok {depth : Int} {xs : List Json} :
    readElements depth xs = .ok () ↔ ∀ x ∈ xs, readValue depth x = .ok () := by
  induction xs with
  | nil => simp [readElements]
  | cons x xs ih => simp [readElements, bind_eq_ok, ih, Unique.exists_iff]

theorem strict_arr {xs : List Json} : Strict (.arr xs) ↔ ∀ x ∈ xs, Strict x :=
  ⟨fun h => by cases h; assumption, .arr⟩

theorem strict_obj :
    Strict (.obj ms) ↔ (ms.map Prod.fst).Nodup ∧ ∀ m ∈ ms, Strict m.2 :=
  ⟨fun h => by cases h; exact ⟨‹_›, ‹_›⟩, fun h => .obj h.1 h.2⟩

/-- **What the strict reader passes**: names that stand once, and at most 128 brackets around a
value. -/
theorem readValue_eq_ok {v : Json} {n : Nat} (hn : n ≤ 128) :
    readValue n v = .ok () ↔ Strict v ∧ v.depth + n ≤ 128 := by
  induction v using Json.induct generalizing n with
  | null => exact ⟨fun _ => ⟨.null, by simpa [Json.depth] using hn⟩, fun _ => rfl⟩
  | bool b => exact ⟨fun _ => ⟨.bool b, by simpa [Json.depth] using hn⟩, fun _ => rfl⟩
  | num x => exact ⟨fun _ => ⟨.num x, by simpa [Json.depth] using hn⟩, fun _ => rfl⟩
  | str s => exact ⟨fun _ => ⟨.str s, by simpa [Json.depth] using hn⟩, fun _ => rfl⟩
  | arr xs ih =>
    unfold readValue maxDepth Json.depth
    by_cases hlt : n < 128
    · have heach : (∀ x ∈ xs, readValue (n + 1 : Nat) x = .ok ()) ↔
          ∀ x ∈ xs, Strict x ∧ x.depth ≤ 127 - n :=
        forall₂_congr fun x hx => (ih x hx hlt).trans (and_congr_right fun _ => by omega)
      rw [if_neg (by omega), readElements_eq_ok, ← Nat.cast_succ, heach, forall₂_and, strict_arr,
        ← depthElements_le]
      exact and_congr_right fun _ => by omega
    · rw [if_pos (by omega)]
      refine ⟨nofun, fun h => ?_⟩
      omega
  | obj ms ih =>
    unfold readValue maxDepth Json.depth
    by_cases hlt : n < 128
    · have heach : (∀ m ∈ ms, m.1 ∉ [] ∧ readValue (n + 1 : Nat) m.2 = .ok ()) ↔
          ∀ m ∈ ms, Strict m.2 ∧ m.2.depth ≤ 127 - n :=
        forall₂_congr fun m hm => by
          rw [ih m hm hlt, and_iff_right List.not_mem_nil]
          exact and_congr_right fun _ => by omega
      rw [if_neg (by omega), ← Nat.cast_succ, readMembers_eq_ok, heach, forall₂_and, strict_obj,
        ← depthMembers_le, and_assoc]
      exact and_congr_right fun _ => and_congr_right fun _ => by omega
    · rw [if_pos (by omega)]
      refine ⟨nofun, fun h => ?_⟩
      omega

/-- What a field takes. -/
def Field.Takes : Field → Json → Prop
  | .mode, v => v = .null ∨ ∃ s, v = .str s
  | .value, _ => True
  | .expectedRevision, v => v = .null ∨ ∃ s, v = .str s ∧
      (s = "null" ∨ (parseInt64 s).isSome = true)

/-- The shape of an update, up to the spelling of its names. -/
structure Readable (ms : List (String × Json)) : Prop where
  names : (ms.map Prod.fst).Nodup
  inside : ∀ m ∈ ms, Strict m.2 ∧ m.2.depth ≤ 128
  fields : ∀ m ∈ ms, ∃ f : Field, foldName f.name = foldName m.1 ∧ f.Takes m.2
  revision : ("expectedRevision", .null) ∉ ms

/-- No two names are spellings of one, and none of the revision has a null. -/
structure Apart (ms : List (String × Json)) : Prop where
  names : ms.Pairwise fun m m' => foldName m.1 ≠ foldName m'.1
  revision : ∀ m ∈ ms, foldName m.1 = foldName "expectedRevision" →
    m.2 ≠ .null ∧ m.2 ≠ .str "null"

theorem field?_eq_some {name : String} {f : Field} :
    field? name = some f ↔ foldName f.name = foldName name := by
  -- the folded names of the fields differ
  have hne : ∀ f f' : Field, foldName f.name = foldName f'.name → f = f' := by
    intro f f'
    cases f <;> cases f' <;> decide
  constructor
  · intro h
    simpa using List.find?_some h
  · intro h
    cases hfind : field? name with
    | none =>
      have hnone := List.find?_eq_none.1 hfind f (by cases f <;> decide)
      simp [h] at hnone
    | some f' =>
      have hf' : foldName f'.name = foldName name := by simpa using List.find?_some hfind
      rw [hne f f' (h.trans hf'.symm)]

theorem decodeRevision_isSome {v : Json} :
    (decodeRevision v).isSome = true ↔ Field.expectedRevision.Takes v := by
  cases v with
  | str s =>
    by_cases hs : s = "null" <;> simp [decodeRevision, Field.Takes, hs]
  | _ => simp [decodeRevision, Field.Takes]

theorem setter_isSome {name : String} {v : Json} : (setter name v).isSome = true ↔
    ∃ f : Field, foldName f.name = foldName name ∧ f.Takes v := by
  simp only [← field?_eq_some]
  cases hf : field? name with
  | none => simp [setter, hf]
  | some f =>
    simp only [Option.some.injEq, exists_eq_left']
    cases f with
    | mode => cases v <;> simp [setter, hf, Field.Takes]
    | value => cases v <;> simp [setter, hf, Field.Takes]
    | expectedRevision =>
      rw [← decodeRevision_isSome]
      cases hr : decodeRevision v <;> simp [setter, hf, hr]

theorem isNullRevision_eq_true {m : String × Json} :
    isNullRevision m = true ↔ m = ("expectedRevision", .null) := by
  obtain ⟨name, v⟩ := m
  cases v <;> simp [isNullRevision]

/-- **What is accepted**, said of the members alone. -/
theorem accepted_iff_readable : Accepted ms ↔ Readable ms := by
  have hinside (m : String × Json) :
      readValue 0 m.2 = .ok () ↔ Strict m.2 ∧ m.2.depth ≤ 128 :=
    readValue_eq_ok (n := 0) (Nat.zero_le _)
  constructor
  · rintro ⟨hnames, heach⟩
    refine ⟨hnames, fun m hm => (hinside m).1 (heach m hm).1,
      fun m hm => setter_isSome.1 (heach m hm).2.2, fun hm => ?_⟩
    have hnull := (heach _ hm).2.1
    rw [isNullRevision_eq_true.2 rfl] at hnull
    cases hnull
  · rintro ⟨hnames, hin, hfields, hrevision⟩
    refine ⟨hnames, fun m hm => ⟨(hinside m).2 (hin m hm), ?_, setter_isSome.2 (hfields m hm)⟩⟩
    rw [Bool.eq_false_iff]
    exact fun hnull => hrevision (isNullRevision_eq_true.1 hnull ▸ hm)

theorem decodeRevision_eq_none_iff {v : Json} :
    decodeRevision v = some none ↔ v = .null ∨ v = .str "null" := by
  cases v with
  | str s => by_cases hs : s = "null" <;> simp [decodeRevision, hs]
  | _ => simp [decodeRevision]

/-- Of the names of fields, those go to one field that fold together. -/
theorem Readable.apart_iff (h : Readable ms) : OneEach ms ∧ NoNullRevision ms ↔ Apart ms := by
  have hfield {m m' : String × Json} (hm : m ∈ ms) :
      field? m.1 = field? m'.1 ↔ foldName m.1 = foldName m'.1 := by
    obtain ⟨f, hf, -⟩ := h.fields m hm
    rw [field?_eq_some.2 hf, ← hf, eq_comm, field?_eq_some]
  have hnames : OneEach ms ↔ ms.Pairwise fun m m' => foldName m.1 ≠ foldName m'.1 :=
    List.Pairwise.iff_of_mem fun hm _ => not_congr (hfield hm)
  have hrevision : NoNullRevision ms ↔ ∀ m ∈ ms, foldName m.1 = foldName "expectedRevision" →
      m.2 ≠ .null ∧ m.2 ≠ .str "null" := by
    refine forall₂_congr fun m _ => ?_
    rw [field?_eq_some, eq_comm, ne_eq, decodeRevision_eq_none_iff, not_or]
    rfl
  rw [hnames, hrevision]
  exact ⟨fun hap => ⟨hap.1, hap.2⟩, fun hap => ⟨hap.names, hap.revision⟩⟩

/-- **Update decoding is unambiguous** exactly for the objects that do not have the shape of an
update or have no two spellings of one name and no null revision in any spelling. -/
theorem update_unambiguous_iff (ms : List (String × Json)) :
    Unambiguous ms ↔ (Readable ms → Apart ms) := by
  have hread (u : Update) : unmarshalUpdate (.obj ms) = .ok u → Readable ms :=
    fun h => accepted_iff_readable.1 (unmarshalUpdate_eq_ok.1 h).1
  constructor
  · intro h hms
    have haccepted := unmarshalUpdate_eq_ok.2 ⟨accepted_iff_readable.2 hms, rfl⟩
    exact hms.apart_iff.1 (h.single _ haccepted)
  · intro h
    refine ⟨fun ms' hp u => ?_, fun u hu => (hread u hu).apart_iff.2 (h (hread u hu))⟩
    rw [unmarshalUpdate_eq_ok, unmarshalUpdate_eq_ok, accepted_perm hp]
    refine and_congr_right fun haccepted => ?_
    have hms := accepted_iff_readable.1 haccepted
    rw [(hms.apart_iff.2 (h hms)).1.decoded_eq hp]

/-- Two spellings of one name, in either order, and a null revision in another spelling. -/
theorem update_ambiguous :
    unmarshalUpdate (.obj [("mode", .str "patch"), ("Mode", .str "reset")]) =
      .ok { mode := "reset" } ∧
      unmarshalUpdate (.obj [("Mode", .str "reset"), ("mode", .str "patch")]) =
        .ok { mode := "patch" } ∧
      unmarshalUpdate (.obj [("mode", .str "reset"), ("ExpectedRevision", .null)]) =
        .ok { mode := "reset" } :=
  ⟨rfl, rfl, rfl⟩

end JobDB.ClientPayload
