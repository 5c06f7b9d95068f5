import Mathlib
import JobDB.Schedule.Trigger
import JobDB.Lib.Table
import JobDB.Lib.Tx

/-!
# What a cron field denotes

`parseCronField` adds the values of a segment in a loop `for v := start; v <= end; v += step`. The
step is any positive `int`, so the addition may wrap round, and then the loop goes on with values
far below the range. `CronField` says what the field stands for; the code yields it when no addition
passes the largest `int`, and for bounds that are less than `2 ^ 63` apart only then.
-/

namespace JobDB

/-- A segment of the field asks for the values from `start` to `stop` in steps of `step`. -/
def HasSegment (lower upper : Int) (field : List Char) (start stop step : Int) : Prop :=
  ∃ part ∈ field.splitOn ',', ∃ range, cronStep (trimSpace part) = .ok (range, step) ∧
    cronRange range lower upper = .ok (start, stop)

/-- Sunday is 0, and 7 under the alias. -/
def readAlias (sundayAlias : Bool) (v : Int) : Int := if sundayAlias ∧ v = 7 then 0 else v

/-- The variable of the loop after so many rounds. -/
def cronAt (start step : Int) (rounds : Nat) : Int :=
  (fun v => Int.bmod (v + step) (2 ^ 64))^[rounds] start

/-- The values `vs` are those of a field. -/
structure CronField (lower upper : Int) (sundayAlias : Bool) (field : List Char) (vs : List Int) :
    Prop where
  /-- Every loop ends. -/
  ends : ∀ start stop step, HasSegment lower upper field start stop step →
    ∃ rounds, stop < cronAt start step rounds
  mem_iff : ∀ w, w ∈ vs ↔ ∃ start stop step, HasSegment lower upper field start stop step ∧
    ∃ k : Nat, start + k * step ≤ stop ∧ w = readAlias sundayAlias (start + k * step)
  in_bounds : ∀ w ∈ vs, ∃ v, lower ≤ v ∧ v ≤ upper ∧ w = readAlias sundayAlias v

/-- No addition of a loop passes the largest `int`. -/
def NoWrap (lower upper : Int) (field : List Char) : Prop :=
  ∀ start stop step, HasSegment lower upper field start stop step →
    ∀ k : Nat, start + k * step ≤ stop → start + k * step + step < 2 ^ 63

/-! ## The loop -/

section
variable {start stop step : Int}

theorem mem_cronLoop {rounds : Nat} {w : Int} : w ∈ cronLoop stop step rounds start ↔
    ∃ k < rounds, w = cronAt start step k ∧ ∀ j ≤ k, cronAt start step j ≤ stop := by
  induction rounds generalizing start with
  | zero => simp [cronLoop]
  | succ rounds ih =>
    by_cases hstop : start ≤ stop
    · rw [cronLoop, if_pos hstop, List.mem_cons, ih]
      constructor
      · rintro (rfl | ⟨k, hk, hw, hall⟩)
        · exact ⟨0, Nat.succ_pos rounds, rfl, fun j hj => by rwa [Nat.le_zero.1 hj]⟩
        · refine ⟨k + 1, by omega, hw, fun j hj => ?_⟩
          cases j with
          | zero => exact hstop
          | succ j => exact hall j (by omega)
      · rintro ⟨_ | k, hk, hw, hall⟩
        · exact .inl hw
        · exact .inr ⟨k, by omega, hw, fun j hj => hall (j + 1) (by omega)⟩
    · rw [cronLoop, if_neg hstop]
      refine iff_of_false List.not_mem_nil ?_
      rintro ⟨k, -, -, hall⟩
      exact hstop (hall 0 (Nat.zero_le k))

theorem value_succ (k : Nat) : start + (k + 1 : Nat) * step = start + k * step + step := by
  push_cast
  ring

-- What is read from a segment.
variable (hstep : 0 < step) (hmin : -2 ^ 63 ≤ start) (hmax : stop < 2 ^ 63)
include hstep

theorem value_le {j k : Nat} (h : j ≤ k) : start + j * step ≤ start + k * step := by
  gcongr

/-- There are no more values than integers in the range. -/
theorem count_le {k : Nat} (hk : start + k * step ≤ stop) : (k : Int) ≤ stop - start := by
  have : (k : Int) * 1 ≤ k * step := by
    gcongr
    omega
  omega

include hmin

/-- The next value, if it is an `int`. -/
theorem cronAt_succ {k : Nat} (hk : cronAt start step k = start + k * step)
    (hfits : start + k * step + step < 2 ^ 63) :
    cronAt start step (k + 1) = start + (k + 1 : Nat) * step := by
  have hpos : start + (0 : Nat) * step ≤ start + k * step := value_le hstep (Nat.zero_le k)
  rw [cronAt, Function.iterate_succ_apply', ← cronAt, hk, value_succ]
  exact Int.bmod_eq_of_le (by omega) (by omega)

include hmax

/-- Up to the end of the range, the loop takes the values in turn. -/
theorem cronAt_eq (k : Nat) (hk : start + k * step ≤ stop) :
    cronAt start step k = start + k * step := by
  induction k with
  | zero => simp [cronAt]
  | succ k ih =>
    rw [value_succ] at hk
    exact cronAt_succ hstep hmin (ih (by omega)) (by omega)

theorem cronAt_le {j k : Nat} (hk : start + k * step ≤ stop) (hj : j ≤ k) :
    cronAt start step j ≤ stop := by
  have hle := (value_le hstep hj).trans hk
  rwa [cronAt_eq hstep hmin hmax j hle]

/-- Beyond the end of the range, the loop goes on with a value that wrapped round. -/
theorem mem_cronValues_of_wrap (hlt : step < 2 ^ 63) (hwidth : stop - start ≤ 2 ^ 63) {k : Nat}
    (hk : start + k * step ≤ stop) (hwrap : 2 ^ 63 ≤ start + k * step + step) :
    start + k * step + step - 2 ^ 64 ∈ cronValues start stop step := by
  have hnext : cronAt start step (k + 1) = start + k * step + step - 2 ^ 64 := by
    rw [cronAt, Function.iterate_succ_apply', ← cronAt, cronAt_eq hstep hmin hmax k hk,
      ← Int.sub_bmod_right]
    exact Int.bmod_eq_of_le (by omega) (by omega)
  have hcount := count_le hstep hk
  refine mem_cronLoop.2 ⟨k + 1, by omega, hnext.symm, fun j hj => ?_⟩
  obtain hj | rfl : j ≤ k ∨ j = k + 1 := by omega
  · exact cronAt_le hstep hmin hmax hk hj
  · omega

variable (hfits : ∀ k : Nat, start + k * step ≤ stop → start + k * step + step < 2 ^ 63)
include hfits

/-- A loop in which no addition wraps is at a value of the range until it ends. -/
theorem value_of_cronAt (k : Nat) (hall : ∀ j ≤ k, cronAt start step j ≤ stop) :
    start + k * step ≤ stop := by
  induction k with
  | zero => simpa [cronAt] using hall 0 le_rfl
  | succ k ih =>
    have hk := ih fun j hj => hall j (by omega)
    rw [← cronAt_succ hstep hmin (cronAt_eq hstep hmin hmax k hk) (hfits k hk)]
    exact hall (k + 1) le_rfl

theorem mem_cronValues {v : Int} : v ∈ cronValues start stop step ↔
    ∃ k : Nat, start + k * step ≤ stop ∧ v = start + k * step := by
  rw [cronValues, mem_cronLoop]
  constructor
  · rintro ⟨k, -, rfl, hall⟩
    have hk := value_of_cronAt hstep hmin hmax hfits k hall
    exact ⟨k, hk, cronAt_eq hstep hmin hmax k hk⟩
  · rintro ⟨k, hk, rfl⟩
    have hcount := count_le hstep hk
    exact ⟨k, by omega, (cronAt_eq hstep hmin hmax k hk).symm,
      fun j hj => cronAt_le hstep hmin hmax hk hj⟩

theorem cronLoop_ends : ∃ k, stop < cronAt start step k := by
  by_contra hnever
  have hk := value_of_cronAt hstep hmin hmax hfits (2 ^ 64) fun j _ =>
    not_lt.1 fun hj => hnever ⟨j, hj⟩
  have hcount := count_le hstep hk
  omega

end

/-! ## Segments -/

section
variable {lower upper start stop step : Int} {part : List Char} {sundayAlias : Bool}

theorem atoi_lt {text : List Char} {n : Int} (h : atoi text = some n) : n < 2 ^ 63 := by
  simp only [atoi, Option.ite_none_right_eq_some, Option.some.injEq] at h
  obtain ⟨⟨-, -, -, hlt⟩, rfl⟩ := h
  exact hlt

theorem length_splitOn_pos (sep : Char) (x : List Char) : 1 ≤ (x.splitOn sep).length :=
  List.length_pos_iff.2 (List.splitOn_ne_nil sep x)

theorem two_le_splitOn {sep : Char} {x : List Char} (h : sep ∈ x) : 2 ≤ (x.splitOn sep).length := by
  obtain ⟨p, q, rfl⟩ := List.append_of_mem h
  rw [List.splitOn_append_cons_self, List.length_append]
  exact Nat.add_le_add (length_splitOn_pos sep p) (length_splitOn_pos sep q)

theorem splitOn_eq_pair {sep : Char} {text a b : List Char} :
    text.splitOn sep = [a, b] ↔ text = a ++ sep :: b ∧ sep ∉ a ∧ sep ∉ b := by
  constructor
  · intro h
    have htext : text = a ++ sep :: b := by
      have hjoin : [sep].intercalate (text.splitOn sep) = text := List.intercalate_splitOn sep
      rw [← hjoin, h]
      simp [List.intercalate]
    -- a half with the separator in it would be split itself
    rw [htext, List.splitOn_append_cons_self] at h
    have hlen := congrArg List.length h
    have ha := length_splitOn_pos sep a
    have hb := length_splitOn_pos sep b
    simp only [List.length_append, List.length_cons, List.length_nil] at hlen
    refine ⟨htext, fun hm => ?_, fun hm => ?_⟩
    · have := two_le_splitOn hm
      omega
    · have := two_le_splitOn hm
      omega
  · rintro ⟨rfl, ha, hb⟩
    rw [List.splitOn_append_cons_self, List.splitOn_eq_singleton ha, List.splitOn_eq_singleton hb]
    rfl

/-- How a segment is read: a range alone, or with a step behind a slash. -/
inductive ReadsStep : List Char → List Char → Int → Prop where
  | one {range : List Char} (plain : '/' ∉ range) : ReadsStep range range 1
  | every {range text : List Char} {n : Int} (plain : '/' ∉ range) (rest : '/' ∉ text)
      (read : atoi text = some n) (pos : 0 < n) : ReadsStep (range ++ '/' :: text) range n

/-- How a range is read: all values, those from one to another, or a single one. -/
inductive ReadsRange (lower upper : Int) : List Char → Int → Int → Prop where
  | all : ReadsRange lower upper ['*'] lower upper
  | span {a b : List Char} {start stop : Int} (first : '-' ∉ a) (last : '-' ∉ b)
      (start_eq : atoi a = some start) (stop_eq : atoi b = some stop) (low : lower ≤ start)
      (le : start ≤ stop) (high : stop ≤ upper) : ReadsRange lower upper (a ++ '-' :: b) start stop
  | value {a : List Char} {v : Int} (plain : '-' ∉ a) (read : atoi a = some v) (low : lower ≤ v)
      (high : v ≤ upper) : ReadsRange lower upper a v v

theorem ReadsStep.bounds {text range : List Char} (h : ReadsStep text range step) :
    0 < step ∧ step < 2 ^ 63 := by
  cases h with
  | one => omega
  | every _ _ hn hpos => exact ⟨hpos, atoi_lt hn⟩

theorem ReadsRange.bounds {text : List Char} (h : ReadsRange lower upper text start stop) :
    lower ≤ start ∧ stop ≤ upper := by
  cases h <;> omega

theorem cronStep_eq_ok {text range : List Char} :
    cronStep text = .ok (range, step) ↔ ReadsStep text range step := by
  constructor
  · intro h
    unfold cronStep at h
    split at h
    · split at h
      · next hsplit =>
        obtain ⟨rfl, hr, ht⟩ := splitOn_eq_pair.1 hsplit
        split at h
        · next n hn =>
          split at h
          · next hpos =>
            cases h
            exact .every hr ht hn hpos
          · cases h
        · cases h
      · cases h
    · next hplain =>
      cases h
      exact .one hplain
  · rintro (hplain | ⟨hr, ht, hn, hpos⟩)
    · exact if_neg hplain
    · unfold cronStep
      rw [if_pos (by simp), splitOn_eq_pair.2 ⟨rfl, hr, ht⟩]
      simp [hn, hpos]

theorem cronRange_eq_ok {text : List Char} :
    cronRange text lower upper = .ok (start, stop) ↔ ReadsRange lower upper text start stop := by
  constructor
  · intro h
    unfold cronRange at h
    split at h
    · next hall =>
      subst hall
      cases h
      exact .all
    · split at h
      · unfold cronSpan at h
        split at h
        · next hsplit =>
          obtain ⟨rfl, ha, hb⟩ := splitOn_eq_pair.1 hsplit
          split at h
          · cases h
          · cases h
          · next hstart hstop =>
            obtain ⟨hle, h⟩ := ite_error_eq_ok.1 h
            obtain ⟨hbounds, h⟩ := ite_error_eq_ok.1 h
            cases h
            exact .span ha hb hstart hstop (by omega) (by omega) (by omega)
        · cases h
      · next hplain =>
        split at h
        · cases h
        · next hv =>
          obtain ⟨hbounds, h⟩ := ite_error_eq_ok.1 h
          cases h
          exact .value hplain hv (by omega) (by omega)
  · rintro (_ | ⟨ha, hb, hstart, hstop, hlow, hle, hhigh⟩ | ⟨hplain, hv, hlow, hhigh⟩)
    · rfl
    · have hall (a b : List Char) : a ++ '-' :: b ≠ ['*'] := by
        cases a <;> simp
      rw [cronRange, if_neg (hall _ _), if_pos (by simp), splitOn_eq_pair.2 ⟨rfl, ha, hb⟩, cronSpan,
        hstart, hstop]
      dsimp only
      rw [if_neg (by omega), if_neg (by omega)]
    · rw [cronRange, if_neg (fun h => by subst h; cases hv), if_neg hplain, hv]
      simp [hlow, hhigh]

theorem HasSegment.bounds {field : List Char} (h : HasSegment lower upper field start stop step) :
    0 < step ∧ step < 2 ^ 63 ∧ lower ≤ start ∧ stop ≤ upper := by
  obtain ⟨_, _, range, hstep, hrange⟩ := h
  obtain ⟨hpos, hlt⟩ := (cronStep_eq_ok.1 hstep).bounds
  exact ⟨hpos, hlt, (cronRange_eq_ok.1 hrange).bounds⟩

theorem parseCronSegment_eq_ok {vs : List Int}
    (h : parseCronSegment part lower upper sundayAlias = .ok vs) :
    ∃ range start stop step, cronStep (trimSpace part) = .ok (range, step) ∧
      cronRange range lower upper = .ok (start, stop) ∧
      vs = (cronValues start stop step).map (readAlias sundayAlias) := by
  unfold parseCronSegment at h
  split at h
  · cases h
  · obtain ⟨⟨range, step⟩, hstep, h⟩ := bind_eq_ok.1 h
    obtain ⟨⟨start, stop⟩, hrange, h⟩ := bind_eq_ok.1 h
    exact ⟨range, start, stop, step, hstep, hrange, (Except.ok.inj h).symm⟩

/-- The values of an accepted field are those that its loops add. -/
theorem mem_parseCronField {field : List Char} {vs : List Int}
    (h : parseCronField field lower upper sundayAlias = .ok vs) (w : Int) :
    w ∈ vs ↔ ∃ start stop step, HasSegment lower upper field start stop step ∧
      ∃ v ∈ cronValues start stop step, w = readAlias sundayAlias v := by
  obtain ⟨segments, hsegments, h⟩ := bind_eq_ok.1 h
  obtain ⟨-, h⟩ := ite_error_eq_ok.1 h
  cases h
  rw [List.mem_flatten]
  constructor
  · rintro ⟨seg, hseg, hw⟩
    obtain ⟨part, hpart, hok⟩ := (mem_mapM_iff hsegments).1 hseg
    obtain ⟨range, start, stop, step, hstep, hrange, rfl⟩ := parseCronSegment_eq_ok hok
    obtain ⟨v, hv, rfl⟩ := List.mem_map.1 hw
    exact ⟨start, stop, step, ⟨part, hpart, range, hstep, hrange⟩, v, hv, rfl⟩
  · rintro ⟨start, stop, step, ⟨part, hpart, range, hstep, hrange⟩, v, hv, rfl⟩
    obtain ⟨seg, hok⟩ := mapM_eq_ok hsegments part hpart
    obtain ⟨range', start', stop', step', hstep', hrange', rfl⟩ := parseCronSegment_eq_ok hok
    cases hstep.symm.trans hstep'
    cases hrange.symm.trans hrange'
    exact ⟨_, (mem_mapM_iff hsegments).2 ⟨part, hpart, hok⟩, List.mem_map_of_mem hv⟩

end

/-! ## Fields -/

/-- A field denotes its set when no addition wraps, and only then if the bounds are not more than
`2 ^ 63` apart. -/
theorem parseCronField_denotes (field : List Char) (lower upper : Int) (sundayAlias : Bool)
    (hmin : -2 ^ 63 ≤ lower) (hmax : upper < 2 ^ 63) (vs : List Int)
    (h : parseCronField field lower upper sundayAlias = .ok vs) :
    (NoWrap lower upper field → CronField lower upper sundayAlias field vs) ∧
    (upper - lower ≤ 2 ^ 63 → CronField lower upper sundayAlias field vs →
      NoWrap lower upper field) := by
  have hmem := mem_parseCronField h
  constructor
  · intro hwrap
    have hmem : ∀ w, w ∈ vs ↔ ∃ start stop step, HasSegment lower upper field start stop step ∧
        ∃ k : Nat, start + k * step ≤ stop ∧ w = readAlias sundayAlias (start + k * step) := by
      intro w
      rw [hmem]
      refine exists₃_congr fun start stop step => and_congr_right fun hseg => ?_
      obtain ⟨hstep, -, hstart, hstop⟩ := hseg.bounds
      simp only [mem_cronValues hstep (by omega) (by omega) (hwrap _ _ _ hseg)]
      constructor
      · rintro ⟨_, ⟨k, hk, rfl⟩, hw⟩
        exact ⟨k, hk, hw⟩
      · rintro ⟨k, hk, hw⟩
        exact ⟨_, ⟨k, hk, rfl⟩, hw⟩
    refine ⟨fun start stop step hseg => ?_, hmem, fun w hw => ?_⟩
    · obtain ⟨hstep, -, hstart, hstop⟩ := hseg.bounds
      exact cronLoop_ends hstep (by omega) (by omega) (hwrap _ _ _ hseg)
    · obtain ⟨start, stop, step, hseg, k, hk, rfl⟩ := (hmem w).1 hw
      obtain ⟨hstep, -, hstart, hstop⟩ := hseg.bounds
      have hpos : start + (0 : Nat) * step ≤ start + k * step := value_le hstep (Nat.zero_le k)
      exact ⟨_, by omega, by omega, rfl⟩
  · intro hwidth hfield start stop step hseg k hk
    obtain ⟨hstep, hlt, hstart, hstop⟩ := hseg.bounds
    by_contra hwrap
    -- the value that wrapped round is below the bounds, and is not 7
    have hin := mem_cronValues_of_wrap hstep (by omega) (by omega) hlt (by omega) hk (by omega)
    obtain ⟨v, hlow, hhigh, heq⟩ :=
      hfield.in_bounds _ ((hmem _).2 ⟨start, stop, step, hseg, _, hin, rfl⟩)
    unfold readAlias at heq
    split at heq <;> split at heq <;> omega

/-- The minute 5, with a step that is larger than any range. -/
theorem parseCronField_wraps :
    parseCronField "5/9223372036854775807".toList 0 59 false = .ok
      [5, -9223372036854775804, 3, -9223372036854775806, 1, -9223372036854775808, -1] := by
  decide +kernel

theorem parseCronField_denotes_step :
    parseCronField "5-9/2".toList 0 59 false = .ok [5, 7, 9] ∧
    CronField 0 59 false "5-9/2".toList [5, 7, 9] := by
  have hok : parseCronField "5-9/2".toList 0 59 false = .ok [5, 7, 9] := by decide +kernel
  have hwrap : NoWrap 0 59 "5-9/2".toList := by
    rintro start stop step ⟨part, hpart, range, hstep, hrange⟩ k hk
    obtain rfl : part = "5-9/2".toList := List.mem_singleton.1 hpart
    obtain ⟨rfl, rfl⟩ : "5-9".toList = range ∧ 2 = step := Prod.mk.inj (Except.ok.inj hstep)
    obtain ⟨rfl, rfl⟩ : 5 = start ∧ 9 = stop := Prod.mk.inj (Except.ok.inj hrange)
    omega
  exact ⟨hok, (parseCronField_denotes _ 0 59 false (by decide) (by decide) _ hok).1 hwrap⟩

end JobDB
