import Mathlib.Data.List.Basic
import Mathlib.Data.List.TakeWhile

/-!
# JSON

JSON values, their texts, and a reader and a writer that fit together: `Json.read` of what
`Json.write` wrote gives the value back (`read_write`).

A value is kept as the text has it, up to white space and escapes: an object is the list of
its members in the order of the text, also where a name stands twice, and a number is its
text. `Json.find` gives the last member of a name, as a decoder that fills a map does, and
`Json.depth` counts the brackets around the innermost value.
-/

namespace JobDB

/-! ## Values -/

namespace Json

/-- The characters of literals and numbers. -/
def atomChar (c : Char) : Bool := c.isAlphanum || c = '+' || c = '-' || c = '.'

/-- At least one digit, then what `next` accepts. -/
def digitsThen (next : List Char → Bool) : List Char → Bool
  | [] => false
  | c :: cs => c.isDigit && next (cs.dropWhile Char.isDigit)

def exponentOk : List Char → Bool
  | [] => true
  | e :: cs =>
    (e = 'e' || e = 'E') &&
      match cs with
      | [] => false
      | c :: ds => digitsThen List.isEmpty (if c = '+' ∨ c = '-' then ds else c :: ds)

def fractionOk : List Char → Bool
  | [] => true
  | c :: cs => if c = '.' then digitsThen exponentOk cs else exponentOk (c :: cs)

def integerOk : List Char → Bool
  | [] => false
  | c :: cs => if c = '0' then fractionOk cs else digitsThen fractionOk (c :: cs)

/-- The text follows the grammar of numbers. -/
def numberOk (cs : List Char) : Bool :=
  cs.all atomChar && integerOk (if cs.head? = some '-' then cs.tail else cs)

end Json

/-- A number, as it is written. -/
structure JsonNumber where
  text : List Char
  ok : Json.numberOk text = true
deriving DecidableEq

namespace Json

/-- The digits of a positive number do not begin with a zero. -/
theorem head?_toDigits {n : Nat} (h : 0 < n) : (Nat.toDigits 10 n).head? ≠ some '0' := by
  induction n using Nat.strongRecOn with
  | ind m ih =>
    by_cases hlt : m < 10
    · have hall : ∀ d < 10, 0 < d → [d.digitChar].head? ≠ some '0' := by decide
      rw [Nat.toDigits_of_lt_base hlt]
      exact hall m hlt h
    · have hq : 0 < m / 10 := Nat.div_pos (by omega) (by decide)
      rw [← Nat.div_add_mod m 10, ← Nat.toDigits_append_toDigits (by decide) hq
        (Nat.mod_lt m (by decide)), List.head?_append_of_ne_nil _ Nat.toDigits_ne_nil]
      exact ih (m / 10) (Nat.div_lt_self h (by decide)) hq

theorem isDigit_toDigits {n : Nat} {c : Char} (h : c ∈ Nat.toDigits 10 n) : c.isDigit = true :=
  Nat.isDigit_of_mem_toDigits (by decide) (by decide) h

/-- Digits that do not begin with a zero. -/
theorem integerOk_of_digits {ds : List Char} (hne : ds ≠ []) (hds : ∀ c ∈ ds, c.isDigit = true)
    (hzero : ds.head? ≠ some '0') : integerOk ds = true := by
  cases ds with
  | nil => exact absurd rfl hne
  | cons d ds =>
    obtain ⟨hd, hds⟩ := List.forall_mem_cons.1 hds
    have hnil : ds.dropWhile Char.isDigit = [] := List.dropWhile_eq_nil_iff.2 hds
    rw [integerOk, if_neg fun h => hzero (by rw [h]; rfl), digitsThen, hd, hnil]
    rfl

theorem integerOk_toDigits (n : Nat) : integerOk (Nat.toDigits 10 n) = true := by
  by_cases hn : n = 0
  · subst hn
    rfl
  · exact integerOk_of_digits Nat.toDigits_ne_nil (fun _ => isDigit_toDigits)
      (head?_toDigits (Nat.pos_of_ne_zero hn))

theorem atomChar_of_isDigit {c : Char} (h : c.isDigit = true) : atomChar c = true := by
  simp [atomChar, Char.isAlphanum, h]

theorem head?_of_integerOk {cs : List Char} (h : integerOk cs = true) : cs.head? ≠ some '-' := by
  intro hhead
  obtain ⟨rest, rfl⟩ := List.head?_eq_some_iff.1 hhead
  cases h

/-- A number with its sign. -/
theorem numberOk_signed {negative : Bool} {cs : List Char} (hatoms : cs.all atomChar = true)
    (hok : integerOk cs = true) : numberOk ((if negative then ['-'] else []) ++ cs) = true := by
  unfold numberOk
  cases negative with
  | true =>
    simp only [if_true, List.cons_append, List.nil_append, List.all_cons, hatoms, List.head?_cons,
      List.tail_cons, hok]
    rfl
  | false =>
    simp only [Bool.false_eq_true, if_false, List.nil_append, hatoms,
      if_neg (head?_of_integerOk hok), hok]
    rfl

end Json

/-- An integer in decimal. -/
def JsonNumber.ofInt (n : Int) : JsonNumber where
  text := (if n < 0 then ['-'] else []) ++ Nat.toDigits 10 n.natAbs
  ok := by
    have hsigned := @Json.numberOk_signed (decide (n < 0)) _ (List.all_eq_true.2 fun c hc =>
      Json.atomChar_of_isDigit (Json.isDigit_toDigits hc)) (Json.integerOk_toDigits n.natAbs)
    simpa only [decide_eq_true_eq] using hsigned

inductive Json where
  | null
  | bool (b : Bool)
  | num (n : JsonNumber)
  | str (s : String)
  | arr (xs : List Json)
  | obj (ms : List (String × Json))

namespace Json

/-- Induction over the elements and members of a value. -/
theorem induct {P : Json → Prop} (null : P .null) (bool : ∀ b, P (.bool b)) (num : ∀ n, P (.num n))
    (str : ∀ s, P (.str s)) (arr : ∀ xs, (∀ x ∈ xs, P x) → P (.arr xs))
    (obj : ∀ ms, (∀ m ∈ ms, P m.2) → P (.obj ms)) : ∀ v, P v :=
  @Json.rec P (fun xs => ∀ x ∈ xs, P x) (fun ms => ∀ m ∈ ms, P m.2) (fun m => P m.2) null bool num
    str arr obj (fun _ h => nomatch h) (fun _ _ hx hxs => List.forall_mem_cons.2 ⟨hx, hxs⟩)
    (fun _ h => nomatch h) (fun _ _ hm hms => List.forall_mem_cons.2 ⟨hm, hms⟩) fun _ _ hv => hv

/-- The last member of the name. -/
def find (name : String) : List (String × Json) → Option Json
  | [] => none
  | (k, v) :: ms => (find name ms).or (if k = name then some v else none)

mutual

/-- How many arrays and objects lie around the innermost value. -/
def depth : Json → Nat
  | .arr xs => depthElements xs + 1
  | .obj ms => depthMembers ms + 1
  | _ => 0

def depthElements : List Json → Nat
  | [] => 0
  | x :: xs => max x.depth (depthElements xs)

def depthMembers : List (String × Json) → Nat
  | [] => 0
  | (_, v) :: ms => max v.depth (depthMembers ms)

end

/-- A member behind smaller names, unless its name is there already. -/
def place (k : String) (v : Json) : List (String × Json) → List (String × Json)
  | [] => [(k, v)]
  | (k', v') :: ms =>
    if k = k' then (k', v') :: ms
    else if k < k' then (k, v) :: (k', v') :: ms
    else (k', v') :: place k v ms

section Normalize

variable (F : JsonNumber → Option JsonNumber)

mutual

/-- The value as a decoder keeps it that holds objects in maps, which it writes in the order of
the names, and numbers in a type of its own: `F` is a number read into it and written again, if
it has a place there. -/
def normalize : Json → Option Json
  | .num n => (F n).map .num
  | .arr xs => (normalizeElements xs).map .arr
  | .obj ms => (normalizeMembers ms).map .obj
  | v => some v

def normalizeElements : List Json → Option (List Json)
  | [] => some []
  | x :: xs =>
    match x.normalize, normalizeElements xs with
    | some x, some xs => some (x :: xs)
    | _, _ => none

def normalizeMembers : List (String × Json) → Option (List (String × Json))
  | [] => some []
  | (k, v) :: ms =>
    match v.normalize, normalizeMembers ms with
    | some v, some ms => some (place k v ms)
    | _, _ => none

end

theorem find_place (name k : String) (v : Json) (ms : List (String × Json)) :
    find name (place k v ms) = (find name ms).or (if k = name then some v else none) := by
  induction ms with
  | nil => rfl
  | cons m ms ih =>
    obtain ⟨k', v'⟩ := m
    unfold place
    split
    · next heq =>
      subst heq
      by_cases hk : k = name
      · simp [find, hk]
      · simp [find, hk]
    split
    · rfl
    · rw [find, find, ih]
      -- the two members have different names
      by_cases hk : k = name
      · subst hk
        next hne _ => simp [Ne.symm hne]
      · simp [hk]

/-- Names denote the same members afterwards. -/
theorem find_normalizeMembers {ms ms' : List (String × Json)} (h : normalizeMembers F ms = some ms')
    (name : String) : (find name ms).map (normalize F) = (find name ms').map some := by
  induction ms generalizing ms' with
  | nil =>
    cases h
    rfl
  | cons m ms ih =>
    obtain ⟨k, v⟩ := m
    unfold normalizeMembers at h
    split at h
    · next v' ms₁ hv hms =>
      cases h
      have hrest := ih hms
      rw [find_place, find]
      cases hf : find name ms with
      | some w =>
        rw [hf] at hrest
        obtain ⟨w', hw', hww⟩ := Option.map_eq_some_iff.1 hrest.symm
        simp [hw', ← hww]
      | none =>
        rw [hf] at hrest
        have hnone : find name ms₁ = none := Option.map_eq_none_iff.1 hrest.symm
        rw [hnone]
        by_cases hk : k = name
        · simp [hk, hv]
        · simp [hk]
    · cases h

end Normalize

/-! ## Writing -/

def hexDigit (n : Nat) : Char := if n < 10 then Char.ofNat (n + 48) else Char.ofNat (n + 87)

def hexDigits (n : Nat) : List Char :=
  [hexDigit (n / 4096 % 16), hexDigit (n / 256 % 16), hexDigit (n / 16 % 16), hexDigit (n % 16)]

/-- The characters with an escape of one letter. -/
def shortEscape (c : Char) : Option Char :=
  if c = '"' then some '"'
  else if c = '\\' then some '\\'
  else if c = '\n' then some 'n'
  else if c = '\r' then some 'r'
  else if c = '\t' then some 't'
  else if c = '\x08' then some 'b'
  else if c = '\x0c' then some 'f'
  else none

/-- The other characters that are not written as they are: those that a text must not hold, and
those that would be markup in a page. -/
def escaped (c : Char) : Bool :=
  c.toNat < 0x20 || c = '<' || c = '>' || c = '&' || c.toNat = 0x2028 || c.toNat = 0x2029

def writeChar (c : Char) : List Char :=
  match shortEscape c with
  | some e => ['\\', e]
  | none => if escaped c then '\\' :: 'u' :: hexDigits c.toNat else [c]

def writeString (s : String) : List Char := '"' :: (s.toList.flatMap writeChar ++ ['"'])

mutual

def writeValue : Json → List Char
  | .null => ['n', 'u', 'l', 'l']
  | .bool true => ['t', 'r', 'u', 'e']
  | .bool false => ['f', 'a', 'l', 's', 'e']
  | .num n => n.text
  | .str s => writeString s
  | .arr [] => ['[', ']']
  | .arr (x :: xs) => '[' :: (x.writeValue ++ writeElements xs)
  | .obj [] => ['{', '}']
  | .obj ((k, v) :: ms) => '{' :: (writeString k ++ ':' :: (v.writeValue ++ writeMembers ms))

/-- The elements after the first, with the bracket. -/
def writeElements : List Json → List Char
  | [] => [']']
  | x :: xs => ',' :: (x.writeValue ++ writeElements xs)

/-- The members after the first, with the brace. -/
def writeMembers : List (String × Json) → List Char
  | [] => ['}']
  | (k, v) :: ms => ',' :: (writeString k ++ ':' :: (v.writeValue ++ writeMembers ms))

end

/-- The text of a value. -/
def write (v : Json) : String := String.ofList v.writeValue

/-! ## Reading -/

def space (c : Char) : Bool := c = ' ' || c = '\n' || c = '\r' || c = '\t'

def hexValue (c : Char) : Option Nat :=
  if '0' ≤ c ∧ c ≤ '9' then some (c.toNat - 48)
  else if 'a' ≤ c ∧ c ≤ 'f' then some (c.toNat - 87)
  else if 'A' ≤ c ∧ c ≤ 'F' then some (c.toNat - 55)
  else none

def readHex : List Char → Option (Nat × List Char)
  | a :: b :: c :: d :: rest =>
    match hexValue a, hexValue b, hexValue c, hexValue d with
    | some a, some b, some c, some d => some (a * 4096 + b * 256 + c * 16 + d, rest)
    | _, _, _, _ => none
  | _ => none

/-- What follows `\u`: a half of a surrogate pair without its other half stands for `U+FFFD`. -/
def readUnicode (cs : List Char) : Option (Char × List Char) :=
  match readHex cs with
  | none => none
  | some (u, rest) =>
    if u < 0xD800 ∨ 0xDFFF < u then some (Char.ofNat u, rest)
    else
      match rest with
      | '\\' :: 'u' :: more =>
        match readHex more with
        | some (l, rest') =>
          if u < 0xDC00 ∧ 0xDC00 ≤ l ∧ l ≤ 0xDFFF then
            some (Char.ofNat (0x10000 + (u - 0xD800) * 0x400 + (l - 0xDC00)), rest')
          else some (Char.ofNat 0xFFFD, rest)
        | none => some (Char.ofNat 0xFFFD, rest)
      | _ => some (Char.ofNat 0xFFFD, rest)

def longEscape (e : Char) : Option Char :=
  if e = '"' then some '"'
  else if e = '\\' then some '\\'
  else if e = '/' then some '/'
  else if e = 'n' then some '\n'
  else if e = 'r' then some '\r'
  else if e = 't' then some '\t'
  else if e = 'b' then some '\x08'
  else if e = 'f' then some '\x0c'
  else none

/-- One character of a string. -/
def readChar : List Char → Option (Char × List Char)
  | [] => none
  | c :: cs =>
    if c = '\\' then
      match cs with
      | [] => none
      | e :: rest => if e = 'u' then readUnicode rest else (longEscape e).map (·, rest)
    else if c.toNat < 0x20 then none
    else some (c, cs)

/-- The characters of a string up to the quote that ends it. -/
def readChars : Nat → List Char → Option (List Char × List Char)
  | 0, _ => none
  | n + 1, cs =>
    if cs.head? = some '"' then some ([], cs.tail)
    else
      match readChar cs with
      | none => none
      | some (c, rest) => (readChars n rest).map fun (s, rest) => (c :: s, rest)

/-- A string, after its first quote. -/
def readString (cs : List Char) : Option (String × List Char) :=
  (readChars cs.length cs).map fun (s, rest) => (String.ofList s, rest)

/-- A literal or a number. -/
def readAtom (cs : List Char) : Option (Json × List Char) :=
  let token := cs.takeWhile atomChar
  let rest := cs.dropWhile atomChar
  if token = ['n', 'u', 'l', 'l'] then some (.null, rest)
  else if token = ['t', 'r', 'u', 'e'] then some (.bool true, rest)
  else if token = ['f', 'a', 'l', 's', 'e'] then some (.bool false, rest)
  else if h : numberOk token = true then some (.num ⟨token, h⟩, rest)
  else none

/-- The text after white space and the given character. -/
def expect (c : Char) (cs : List Char) : Option (List Char) :=
  match cs.dropWhile space with
  | [] => none
  | x :: rest => if x = c then some rest else none

mutual

def readValue : Nat → List Char → Option (Json × List Char)
  | 0, _ => none
  | n + 1, cs =>
    match cs.dropWhile space with
    | [] => none
    | c :: cs =>
      if c = '{' then
        match expect '}' cs with
        | some rest => some (.obj [], rest)
        | none => (readMembers n cs).map fun (ms, rest) => (.obj ms, rest)
      else if c = '[' then
        match expect ']' cs with
        | some rest => some (.arr [], rest)
        | none => (readElements n cs).map fun (xs, rest) => (.arr xs, rest)
      else if c = '"' then (readString cs).map fun (s, rest) => (.str s, rest)
      else readAtom (c :: cs)

def readElements : Nat → List Char → Option (List Json × List Char)
  | 0, _ => none
  | n + 1, cs =>
    match readValue n cs with
    | none => none
    | some (x, cs) =>
      match expect ',' cs with
      | some cs => (readElements n cs).map fun (xs, rest) => (x :: xs, rest)
      | none => (expect ']' cs).map ([x], ·)

def readMembers : Nat → List Char → Option (List (String × Json) × List Char)
  | 0, _ => none
  | n + 1, cs =>
    match (expect '"' cs).bind readString with
    | none => none
    | some (k, cs) =>
      match (expect ':' cs).bind (readValue n) with
      | none => none
      | some (v, cs) =>
        match expect ',' cs with
        | some cs => (readMembers n cs).map fun (ms, rest) => ((k, v) :: ms, rest)
        | none => (expect '}' cs).map ([(k, v)], ·)

end

/-- The value of a text. -/
def read (text : String) : Option Json :=
  match readValue (text.length + 1) text.toList with
  | some (v, rest) => if rest.all space then some v else none
  | none => none

/-! ## What was written is read back -/

section Strings

theorem hexValue_hexDigit {n : Nat} (h : n < 16) : hexValue (hexDigit n) = some n := by
  have hall : ∀ m < 16, hexValue (hexDigit m) = some m := by decide
  exact hall n h

theorem readHex_hexDigits {n : Nat} (h : n < 65536) (rest : List Char) :
    readHex (hexDigits n ++ rest) = some (n, rest) := by
  have hd (m : Nat) : hexValue (hexDigit (m % 16)) = some (m % 16) :=
    hexValue_hexDigit (Nat.mod_lt m (by decide))
  simp only [hexDigits, List.cons_append, List.nil_append, readHex, hd]
  congr 2
  omega

theorem longEscape_shortEscape {c e : Char} (h : shortEscape c = some e) :
    longEscape e = some c ∧ e ≠ 'u' := by
  unfold shortEscape at h
  split_ifs at h <;> cases h <;> subst_vars <;> decide

/-- A character without a short escape is no backslash and no quote. -/
theorem ne_of_shortEscape_none {c : Char} (h : shortEscape c = none) : c ≠ '\\' ∧ c ≠ '"' := by
  constructor <;> rintro rfl <;> cases h

theorem toNat_lt_of_escaped {c : Char} (h : escaped c = true) : c.toNat < 0xD800 := by
  simp only [escaped, Bool.or_eq_true, decide_eq_true_eq] at h
  rcases h with ((((h | rfl) | rfl) | rfl) | h) | h
  · omega
  · decide
  · decide
  · decide
  · omega
  · omega

theorem readChar_writeChar (c : Char) (rest : List Char) :
    readChar (writeChar c ++ rest) = some (c, rest) := by
  unfold writeChar
  cases hs : shortEscape c with
  | some e =>
    obtain ⟨hlong, hu⟩ := longEscape_shortEscape hs
    simp [readChar, hlong, hu]
  | none =>
    obtain ⟨hback, -⟩ := ne_of_shortEscape_none hs
    by_cases he : escaped c = true
    · have hlt := toNat_lt_of_escaped he
      have hhex := readHex_hexDigits (n := c.toNat) (by omega) rest
      simp only [he, if_true, List.cons_append, readChar, readUnicode, hhex]
      rw [if_pos (Or.inl hlt), Char.ofNat_toNat]
    · have hctl : ¬ c.toNat < 0x20 := fun hlt => he (by simp [escaped, hlt])
      simp [he, readChar, hback, hctl]

theorem head?_writeChar (c : Char) (rest : List Char) :
    (writeChar c ++ rest).head? ≠ some '"' := by
  unfold writeChar
  cases hs : shortEscape c with
  | some e => simp
  | none =>
    dsimp only
    split
    · simp
    · simpa using (ne_of_shortEscape_none hs).2

theorem readChars_write (s rest : List Char) {n : Nat} (h : s.length < n) :
    readChars n (s.flatMap writeChar ++ '"' :: rest) = some (s, rest) := by
  induction s generalizing n with
  | nil =>
    obtain ⟨m, rfl⟩ := Nat.exists_eq_add_one_of_ne_zero (Nat.ne_zero_of_lt h)
    rfl
  | cons c s ih =>
    obtain ⟨m, rfl⟩ := Nat.exists_eq_add_one_of_ne_zero (Nat.ne_zero_of_lt h)
    rw [List.flatMap_cons, List.append_assoc, readChars, if_neg (head?_writeChar c _),
      readChar_writeChar]
    dsimp only
    rw [ih (Nat.lt_of_succ_lt_succ h)]
    rfl

theorem length_le_writeChars (s : List Char) : s.length ≤ (s.flatMap writeChar).length := by
  induction s with
  | nil => exact Nat.le_refl 0
  | cons c s ih =>
    have hc : 1 ≤ (writeChar c).length := by
      unfold writeChar
      split
      · exact Nat.le_add_left 1 1
      · split <;> simp
    rw [List.flatMap_cons, List.length_append, List.length_cons]
    omega

theorem readString_write (s : String) (rest : List Char) :
    readString (s.toList.flatMap writeChar ++ '"' :: rest) = some (s, rest) := by
  have hlen := length_le_writeChars s.toList
  unfold readString
  rw [readChars_write s.toList rest (by rw [List.length_append, List.length_cons]; omega)]
  simp

end Strings

section Values

/-- The text cannot be taken for the rest of a literal or a number. -/
def Ends (rest : List Char) : Prop := ∀ c ∈ rest.head?, atomChar c = false

theorem readAtom_append {token rest : List Char} (ht : token.all atomChar = true) (hr : Ends rest) :
    readAtom (token ++ rest) = (readAtom token).map fun p => (p.1, rest) := by
  have hall := List.all_eq_true.1 ht
  have hself : token.takeWhile atomChar = token := List.takeWhile_eq_self_iff.2 hall
  have hsplit : (token ++ rest).takeWhile atomChar = token ∧
      (token ++ rest).dropWhile atomChar = rest := by
    rw [List.takeWhile_append_of_pos hall, List.dropWhile_append_of_pos hall]
    cases rest with
    | nil => simp
    | cons c rest =>
      have hc : atomChar c = false := hr c rfl
      simp [hc]
  unfold readAtom
  simp only [hsplit, hself]
  split_ifs <;> rfl

theorem readAtom_number (n : JsonNumber) {rest : List Char} (hr : Ends rest) :
    readAtom (n.text ++ rest) = some (.num n, rest) := by
  have hatoms := (Bool.and_eq_true_iff.1 n.ok).1
  have hself : n.text.takeWhile atomChar = n.text :=
    List.takeWhile_eq_self_iff.2 (List.all_eq_true.1 hatoms)
  -- no literal is a number
  have hne (t : List Char) (ht : numberOk t = false) : n.text ≠ t := fun h => by
    rw [← h, n.ok] at ht
    cases ht
  rw [readAtom_append hatoms hr]
  unfold readAtom
  simp only [hself]
  rw [if_neg (hne _ rfl), if_neg (hne _ rfl), if_neg (hne _ rfl), dif_pos n.ok]
  rfl

theorem expect_self {c : Char} (hc : space c = false) (rest : List Char) :
    expect c (c :: rest) = some rest := by
  simp [expect, hc]

/-- How the text of an atom begins. -/
theorem atomChar_ne {c : Char} (h : atomChar c = true) :
    space c = false ∧ c ≠ ']' ∧ c ≠ '{' ∧ c ≠ '[' ∧ c ≠ '"' := by
  refine ⟨?_, ?_, ?_, ?_, ?_⟩
  · cases hs : space c with
    | false => rfl
    | true =>
      simp only [space, Bool.or_eq_true, decide_eq_true_eq] at hs
      rcases hs with ((rfl | rfl) | rfl) | rfl <;> cases h
  all_goals
    rintro rfl
    cases h

theorem number_cons (n : JsonNumber) : ∃ c cs, n.text = c :: cs ∧ atomChar c = true := by
  obtain ⟨hall, hint⟩ := Bool.and_eq_true_iff.1 n.ok
  cases ht : n.text with
  | nil =>
    rw [ht] at hint
    cases hint
  | cons c cs =>
    rw [ht] at hall
    exact ⟨c, cs, rfl, (Bool.and_eq_true_iff.1 hall).1⟩

/-- How the text of a value begins. -/
theorem writeValue_cons (v : Json) :
    ∃ c cs, v.writeValue = c :: cs ∧ space c = false ∧ c ≠ ']' := by
  cases v with
  | null => exact ⟨_, _, rfl, rfl, by decide⟩
  | bool b => cases b <;> exact ⟨_, _, rfl, rfl, by decide⟩
  | num n =>
    obtain ⟨c, cs, ht, hc⟩ := number_cons n
    exact ⟨c, cs, ht, (atomChar_ne hc).1, (atomChar_ne hc).2.1⟩
  | str s => exact ⟨'"', _, rfl, rfl, by decide⟩
  | arr xs => cases xs <;> exact ⟨'[', _, rfl, rfl, by decide⟩
  | obj ms =>
    cases ms with
    | nil => exact ⟨'{', _, rfl, rfl, by decide⟩
    | cons m ms => exact ⟨'{', _, rfl, rfl, by decide⟩

/-- The text of the value is read back, whatever follows. -/
def Reads (v : Json) : Prop :=
  ∀ n rest, v.writeValue.length ≤ n → Ends rest →
    readValue n (v.writeValue ++ rest) = some (v, rest)

theorem ends_writeElements (xs : List Json) (rest : List Char) :
    Ends (writeElements xs ++ rest) := by
  cases xs <;> rintro c ⟨⟩ <;> rfl

theorem ends_writeMembers (ms : List (String × Json)) (rest : List Char) :
    Ends (writeMembers ms ++ rest) := by
  cases ms <;> rintro c ⟨⟩ <;> rfl

theorem readElements_write {x : Json} {xs : List Json} (hx : Reads x) (hxs : ∀ y ∈ xs, Reads y)
    {n : Nat} (rest : List Char) (hn : (x.writeValue ++ writeElements xs).length ≤ n) :
    readElements n (x.writeValue ++ (writeElements xs ++ rest)) = some (x :: xs, rest) := by
  induction xs generalizing x n with
  | nil =>
    rw [List.length_append, writeElements, List.length_singleton] at hn
    obtain ⟨m, rfl⟩ := Nat.exists_eq_add_one_of_ne_zero (by omega : n ≠ 0)
    rw [readElements, hx m _ (by omega) (ends_writeElements [] rest)]
    rfl
  | cons y ys ih =>
    rw [List.length_append, writeElements, List.length_cons] at hn
    obtain ⟨m, rfl⟩ := Nat.exists_eq_add_one_of_ne_zero (by omega : n ≠ 0)
    obtain ⟨hy, hys⟩ := List.forall_mem_cons.1 hxs
    rw [readElements, hx m _ (by omega) (ends_writeElements (y :: ys) rest)]
    simp only [writeElements, List.cons_append, List.append_assoc]
    rw [expect_self rfl]
    dsimp only
    rw [ih hy hys (by omega)]
    rfl

theorem readMembers_write {k : String} {v : Json} {ms : List (String × Json)} (hv : Reads v)
    (hms : ∀ m ∈ ms, Reads m.2) {n : Nat} (rest : List Char)
    (hn : (writeString k ++ ':' :: (v.writeValue ++ writeMembers ms)).length ≤ n) :
    readMembers n (writeString k ++ ':' :: (v.writeValue ++ (writeMembers ms ++ rest))) =
      some ((k, v) :: ms, rest) := by
  induction ms generalizing k v n with
  | nil =>
    simp only [List.length_append, List.length_cons, writeMembers, List.length_nil] at hn
    obtain ⟨m, rfl⟩ := Nat.exists_eq_add_one_of_ne_zero (by omega : n ≠ 0)
    simp only [readMembers, writeString, List.cons_append, List.append_assoc, List.nil_append]
    rw [expect_self rfl, Option.bind_some, readString_write]
    dsimp only
    rw [expect_self rfl, Option.bind_some, hv m _ (by omega) (ends_writeMembers [] rest)]
    rfl
  | cons m' ms ih =>
    obtain ⟨k', v'⟩ := m'
    simp only [List.length_append, List.length_cons, writeMembers] at hn
    obtain ⟨m, rfl⟩ := Nat.exists_eq_add_one_of_ne_zero (by omega : n ≠ 0)
    obtain ⟨hv', hms'⟩ := List.forall_mem_cons.1 hms
    simp only [readMembers, writeString, List.cons_append, List.append_assoc, List.nil_append]
    rw [expect_self rfl, Option.bind_some, readString_write]
    dsimp only
    rw [expect_self rfl, Option.bind_some,
      hv m _ (by omega) (ends_writeMembers ((k', v') :: ms) rest)]
    simp only [writeMembers, List.cons_append, List.append_assoc]
    rw [expect_self rfl]
    dsimp only
    have hlen : (writeString k' ++ ':' :: (v'.writeValue ++ writeMembers ms)).length ≤ m := by
      simp only [List.length_append, List.length_cons]
      omega
    rw [ih hv' hms' hlen]
    rfl

/-- A text is not empty. -/
theorem Reads.of_succ {v : Json} (h : ∀ m rest, v.writeValue.length ≤ m + 1 → Ends rest →
    readValue (m + 1) (v.writeValue ++ rest) = some (v, rest)) : Reads v := by
  intro n rest hn hr
  cases n with
  | zero =>
    obtain ⟨c, cs, hc, -⟩ := writeValue_cons v
    rw [hc] at hn
    cases hn
  | succ m => exact h m rest hn hr

/-- **A value is read back from its text.** -/
theorem reads (v : Json) : Reads v := by
  induction v using induct with
  | null =>
    refine .of_succ fun m rest _ hr => ?_
    show readAtom (['n', 'u', 'l', 'l'] ++ rest) = _
    rw [readAtom_append rfl hr]
    rfl
  | bool b =>
    refine .of_succ fun m rest _ hr => ?_
    cases b with
    | true =>
      show readAtom (['t', 'r', 'u', 'e'] ++ rest) = _
      rw [readAtom_append rfl hr]
      rfl
    | false =>
      show readAtom (['f', 'a', 'l', 's', 'e'] ++ rest) = _
      rw [readAtom_append rfl hr]
      rfl
  | num k =>
    refine .of_succ fun m rest _ hr => ?_
    obtain ⟨c, cs, ht, hc⟩ := number_cons k
    obtain ⟨hs, -, hbrace, hbracket, hquote⟩ := atomChar_ne hc
    have hatom := readAtom_number k hr
    rw [ht] at hatom
    rw [writeValue, ht, List.cons_append, readValue, List.dropWhile_cons_of_neg (by simp [hs])]
    dsimp only
    rw [if_neg hbrace, if_neg hbracket, if_neg hquote]
    exact hatom
  | str s =>
    refine .of_succ fun m rest _ hr => ?_
    show (readString (s.toList.flatMap writeChar ++ ['"'] ++ rest)).map _ = _
    rw [List.append_assoc, List.singleton_append, readString_write]
    rfl
  | arr xs ih =>
    refine .of_succ fun m rest hn hr => ?_
    cases xs with
    | nil => rfl
    | cons x xs =>
      obtain ⟨hx, hxs⟩ := List.forall_mem_cons.1 ih
      have hread := readElements_write hx hxs rest (Nat.le_of_succ_le_succ hn)
      obtain ⟨c, cs, hc, hs, hne⟩ := writeValue_cons x
      have hnone : expect ']' (x.writeValue ++ (writeElements xs ++ rest)) = none := by
        rw [hc, List.cons_append]
        simp [expect, hs, hne]
      show (match expect ']' (x.writeValue ++ writeElements xs ++ rest) with
        | some rest => some (Json.arr [], rest)
        | none => (readElements m (x.writeValue ++ writeElements xs ++ rest)).map fun (xs, rest) =>
            (.arr xs, rest)) = _
      rw [List.append_assoc, hnone]
      dsimp only
      rw [hread]
      rfl
  | obj ms ih =>
    refine .of_succ fun m rest hn hr => ?_
    cases ms with
    | nil => rfl
    | cons p ms =>
      obtain ⟨k, v⟩ := p
      obtain ⟨hv, hms⟩ := List.forall_mem_cons.1 ih
      have hread := readMembers_write hv hms rest (Nat.le_of_succ_le_succ hn)
      show (readMembers m
        (writeString k ++ ':' :: (v.writeValue ++ writeMembers ms) ++ rest)).map _ = _
      rw [List.append_assoc, List.cons_append, List.append_assoc, hread]
      rfl

end Values

theorem read_write (v : Json) : read v.write = some v := by
  have h := reads v (v.write.length + 1) [] (by simp [write]) (fun c hc => nomatch hc)
  unfold read
  rw [write, String.toList_ofList]
  rw [List.append_nil, write] at h
  rw [h]
  rfl

end Json

end JobDB
