import JobDB.Schedule.Types
import Mathlib.Algebra.Group.Basic

/-!
# The job IDs of scheduled occurrences

`ScheduleRunJobID` and `ScheduleManualJobID` (`pkg/jobdb/schedule.go`) join the schedule's ID
with what tells the occurrence apart within the schedule: its generation and fire time, or the
ID of the request that triggered it.

The suffix of an automatic occurrence has two underscores and can be read back: generation and
instant are decimal numbers, and the calendar can be inverted (`daysOf`). The suffix of a manual
one ends in text that the caller chooses, and a schedule's ID may contain the same separator, so
the ID of one occurrence may be cut in another place as that of another schedule's occurrence.
-/

namespace JobDB

/-! ## The calendar read back -/

theorem dayOfYear_bounds {d y : Int} (hd : 0 ≤ d ∧ d ≤ 146096)
    (hy : y = (d - d / 1460 + d / 36524 - d / 146096) / 365) :
    0 ≤ d - (365 * y + y / 4 - y / 100) ∧ d - (365 * y + y / 4 - y / 100) ≤ 365 := by
  -- the century, and the years of it that are over by then in fours
  have hcentury : d / 36524 = 0 ∨ d / 36524 = 1 ∨ d / 36524 = 2 ∨ d / 36524 = 3 ∨
      d / 36524 = 4 := by
    omega
  obtain ⟨fours, hfours⟩ : ∃ n, n = d / 1460 := ⟨_, rfl⟩
  have hleap : y / 4 = fours ∨ y / 4 = fours - 1 := by omega
  rcases hcentury with h | h | h | h | h <;> rcases hleap with h' | h' <;> omega

/-- The days since the epoch up to a date. -/
def daysOf (year month day : Int) : Int :=
  let y := if month ≤ 2 then year - 1 else year
  let fromMarch := if month ≤ 2 then month + 9 else month - 3
  y / 400 * 146097 + (365 * (y % 400) + y % 400 / 4 - y % 400 / 100) +
    (153 * fromMarch + 2) / 5 + day - 719469

/-- The values that `utcClock` goes through are a date, and the date of that day. -/
theorem date_spec {days d y n m month : Int} (hd : d = (days + 719468) % 146097)
    (hy : y = (d - d / 1460 + d / 36524 - d / 146096) / 365)
    (hn : n = d - (365 * y + y / 4 - y / 100)) (hm : m = (5 * n + 2) / 153)
    (hmonth : month = if m < 10 then m + 3 else m - 9) :
    (1 ≤ month ∧ month ≤ 12 ∧ 1 ≤ n - (153 * m + 2) / 5 + 1 ∧ n - (153 * m + 2) / 5 + 1 ≤ 31) ∧
    daysOf (y + (days + 719468) / 146097 * 400 + if month ≤ 2 then 1 else 0) month
      (n - (153 * m + 2) / 5 + 1) = days := by
  have hyear : 0 ≤ y ∧ y ≤ 399 := by omega
  have hday : 0 ≤ n ∧ n ≤ 365 := hn ▸ dayOfYear_bounds (by omega) hy
  have hfrom : 0 ≤ m ∧ m ≤ 11 := by omega
  have hera : ∀ era : Int, (y + era * 400) / 400 = era ∧ (y + era * 400) % 400 = y := by omega
  obtain ⟨hquot, hrem⟩ := hera ((days + 719468) / 146097)
  refine ⟨by omega, ?_⟩
  unfold daysOf
  by_cases hlate : m < 10
  · rw [if_pos hlate] at hmonth
    have hmarch : month - 3 = m := by omega
    simp only [if_neg (by omega : ¬ month ≤ 2), add_zero, hquot, hrem, hmarch]
    omega
  · rw [if_neg hlate] at hmonth
    have hmarch : month + 9 = m := by omega
    simp only [if_pos (by omega : month ≤ 2), add_sub_cancel_right, hquot, hrem, hmarch]
    omega

theorem utcClock_spec (t : Time) :
    (1 ≤ (utcClock t).month ∧ (utcClock t).month ≤ 12 ∧ 1 ≤ (utcClock t).day ∧
      (utcClock t).day ≤ 31) ∧
    daysOf (utcClock t).year (utcClock t).month (utcClock t).day = t / 1000000000 / 86400 :=
  date_spec rfl rfl rfl rfl rfl

/-! ## Numbers in an ID -/

/-- A padded number is its sign, if it has one, and digits that have its value. -/
theorem padded_toList (width : Nat) (n : Int) :
    ∃ digits, (padded width n).toList = (if n < 0 then ['-'] else []) ++ digits ∧
      (∀ c ∈ digits, c.isDigit = true) ∧ Nat.ofDigitChars 10 digits 0 = n.natAbs ∧
      (n.natAbs < 10 ^ width → 0 < width → digits.length = width) := by
  refine ⟨List.replicate (width - n.natAbs.repr.length) '0' ++ Nat.toDigits 10 n.natAbs, ?_, ?_,
    ?_, ?_⟩
  · unfold padded
    split <;> simp
  · intro c hc
    rcases List.mem_append.1 hc with hzero | hdigit
    · rw [List.eq_of_mem_replicate hzero]
      rfl
    · exact Nat.isDigit_of_mem_toDigits (by decide) (by decide) hdigit
  · rw [Nat.ofDigitChars_append, Nat.ofDigitChars_replicate_zero, Nat.mul_zero]
    exact Nat.ofDigitChars_ten_toDigits
  · intro hfits hpos
    have hlength := (Nat.length_repr_le_iff hpos).2 hfits
    rw [List.length_append, List.length_replicate, ← Nat.toList_repr, String.length_toList]
    omega

theorem padded_inj {width : Nat} {m n : Int}
    (h : (padded width m).toList = (padded width n).toList) : m = n := by
  obtain ⟨ds, hm, hdigits, hvalue, -⟩ := padded_toList width m
  obtain ⟨ds', hn, hdigits', hvalue', -⟩ := padded_toList width n
  rw [hm, hn] at h
  -- a sign is not a digit
  have hsign : ∀ {xs ys : List Char}, '-' :: xs = ys → ¬ ∀ c ∈ ys, c.isDigit = true := by
    rintro xs _ rfl hall
    exact nomatch hall '-' List.mem_cons_self
  split at h <;> split at h
  · obtain rfl : ds = ds' := by simpa using h
    omega
  · exact absurd hdigits' (hsign h)
  · exact absurd hdigits (hsign h.symm)
  · obtain rfl : ds = ds' := h
    omega

theorem length_padded {width : Nat} {n : Int} (hpos : 0 < width) (hn : 0 ≤ n)
    (hfits : n.natAbs < 10 ^ width) : (padded width n).toList.length = width := by
  obtain ⟨ds, hlist, -, -, hlength⟩ := padded_toList width n
  rw [hlist, if_neg (by omega), List.nil_append]
  exact hlength hfits hpos

theorem mem_padded {width : Nat} {n : Int} {c : Char} (h : c ∈ (padded width n).toList) :
    c.isDigit = true ∨ c = '-' := by
  obtain ⟨ds, hlist, hdigits, -⟩ := padded_toList width n
  rw [hlist] at h
  rcases List.mem_append.1 h with hsign | hdigit
  · split at hsign
    · exact .inr (List.mem_singleton.1 hsign)
    · cases hsign
  · exact .inl (hdigits c hdigit)

theorem mem_scheduleRunID {t : Time} {c : Char} (h : c ∈ (scheduleRunID t).toList) :
    c.isDigit = true ∨ c = '-' ∨ c = 'T' ∨ c = 'Z' := by
  simp only [scheduleRunID, String.toList_append, List.mem_append] at h
  have hpadded : ∀ {width n}, c ∈ (padded width n).toList →
      c.isDigit = true ∨ c = '-' ∨ c = 'T' ∨ c = 'Z' := fun h => (mem_padded h).imp_right .inl
  rcases h with (((((((h | h) | h) | hT) | h) | h) | h) | h) | hZ
  any_goals exact hpadded h
  · exact .inr (.inr (.inl (by simpa using hT)))
  · exact .inr (.inr (.inr (by simpa using hZ)))

theorem repr_eq_padded (n : Int) : n.repr = padded 0 n := by
  rw [Int.repr_eq_if]
  unfold padded
  by_cases hn : n < 0
  · rw [if_neg (by omega), if_pos hn, (by omega : (-n).toNat = n.natAbs)]
    simp
  · rw [if_pos (by omega), if_neg hn, (by omega : n.toNat = n.natAbs)]
    simp

/-- The instant can be read off the text. -/
theorem scheduleRunID_inj {t t' : Int} (h : (scheduleRunID t).toList = (scheduleRunID t').toList) :
    t = t' := by
  have htwo : ∀ n : Int, 0 ≤ n → n < 100 → (padded 2 n).toList.length = 2 := fun n h0 h1 =>
    length_padded (by decide) h0 (by omega)
  -- but for the year all fields have a fixed width
  have hwidth : ∀ t : Time, (padded 2 (utcClock t).month).toList.length = 2 ∧
      (padded 2 (utcClock t).day).toList.length = 2 ∧
      (padded 2 (utcClock t).hour).toList.length = 2 ∧
      (padded 2 (utcClock t).minute).toList.length = 2 ∧
      (padded 2 (utcClock t).second).toList.length = 2 ∧
      (padded 9 (t % 1000000000)).toList.length = 9 := by
    intro t
    obtain ⟨hdate, -⟩ := utcClock_spec t
    refine ⟨htwo _ ?_ ?_, htwo _ ?_ ?_, htwo _ ?_ ?_, htwo _ ?_ ?_, htwo _ ?_ ?_,
      length_padded (by decide) ?_ ?_⟩ <;> first | omega | (simp only [utcClock]; omega)
  simp only [scheduleRunID, String.toList_append, List.append_assoc] at h
  obtain ⟨hyear, h⟩ := List.append_inj' h (by simp only [List.length_append, hwidth])
  obtain ⟨hmonth, h⟩ := List.append_inj h (by simp only [hwidth])
  obtain ⟨hday, h⟩ := List.append_inj h (by simp only [hwidth])
  obtain ⟨hhour, h⟩ := List.append_inj (List.append_cancel_left h) (by simp only [hwidth])
  obtain ⟨hminute, h⟩ := List.append_inj h (by simp only [hwidth])
  obtain ⟨hsecond, h⟩ := List.append_inj h (by simp only [hwidth])
  obtain ⟨hnano, -⟩ := List.append_inj h (by simp only [hwidth])
  have hdays : t / 1000000000 / 86400 = t' / 1000000000 / 86400 := by
    rw [← (utcClock_spec t).2, ← (utcClock_spec t').2, padded_inj hyear, padded_inj hmonth,
      padded_inj hday]
  have hhour' : t / 1000000000 % 86400 / 3600 = t' / 1000000000 % 86400 / 3600 := padded_inj hhour
  have hminute' : t / 1000000000 % 3600 / 60 = t' / 1000000000 % 3600 / 60 := padded_inj hminute
  have hsecond' : t / 1000000000 % 60 = t' / 1000000000 % 60 := padded_inj hsecond
  have hnano' : t % 1000000000 = t' % 1000000000 := padded_inj hnano
  omega

/-! ## Occurrences -/

/-- What tells an occurrence of a tenant's schedules from another. -/
inductive ScheduledRun where
  | automatic (scheduleID : String) (generation : Int) (scheduledAt : Time)
  | manual (scheduleID requestID : String) (named : requestID ≠ "")

namespace ScheduledRun

def scheduleID : ScheduledRun → String
  | automatic id _ _ => id
  | manual id _ _ => id

/-- The job ID of the occurrence, when it is submitted at `now`. -/
def jobID (now : Time) : ScheduledRun → String
  | automatic id generation scheduledAt => scheduleRunJobID id generation scheduledAt
  | manual id requestID _ => scheduleManualJobID id requestID now

/-- What follows the schedule's ID and an underscore in the job ID. -/
def suffix : ScheduledRun → List Char
  | automatic _ generation scheduledAt =>
    'g' :: generation.repr.toList ++
      '_' :: (['r', 'u', 'n'] ++ '_' :: (scheduleRunID scheduledAt).toList)
  | manual _ requestID _ => ['m', 'a', 'n', 'u', 'a', 'l', '_'] ++ requestID.toList

theorem jobID_toList (now : Time) (r : ScheduledRun) :
    (r.jobID now).toList = "jobdbsched_".toList ++ (r.scheduleID.toList ++ '_' :: r.suffix) := by
  cases r with
  | automatic id generation at_ => simp [jobID, scheduleRunJobID, suffix, scheduleID]
  | manual id requestID named => simp [jobID, scheduleManualJobID, suffix, scheduleID, named]

/-- A text that is cut at its first underscore and at any. -/
theorem cut_cases {xs ys zs ws : List Char} (hxs : '_' ∉ xs)
    (h : xs ++ '_' :: ys = zs ++ '_' :: ws) :
    (xs = zs ∧ ys = ws) ∨ ∃ zs', zs = xs ++ '_' :: zs' ∧ ys = zs' ++ '_' :: ws := by
  rcases List.append_eq_append_iff.1 h with ⟨_ | ⟨c, cs⟩, rfl, htail⟩ | ⟨_ | ⟨c, cs⟩, rfl, htail⟩
  · exact .inl (by simpa using htail)
  · obtain ⟨rfl, hys⟩ := List.cons.inj htail
    exact .inr ⟨cs, rfl, hys⟩
  · exact .inl (by simpa using htail.symm)
  · obtain ⟨rfl, -⟩ := List.cons.inj htail
    exact absurd (by simp) hxs

theorem cut_inj {xs ys xs' ys' : List Char} (hxs : '_' ∉ xs) (hxs' : '_' ∉ xs')
    (h : xs ++ '_' :: ys = xs' ++ '_' :: ys') : xs = xs' ∧ ys = ys' := by
  rcases cut_cases hxs h with hsame | ⟨zs, rfl, -⟩
  · exact hsame
  · exact absurd (by simp) hxs'

theorem underscore_notMem_generation (n : Int) : '_' ∉ 'g' :: n.repr.toList := by
  rw [repr_eq_padded]
  intro h
  have hmem := mem_padded (List.mem_of_ne_of_mem (by decide) h)
  simp at hmem

theorem suffix_inj {r r' : ScheduledRun} (hid : r.scheduleID = r'.scheduleID)
    (h : r.suffix = r'.suffix) : r = r' := by
  cases r with
  | automatic id generation at_ =>
    cases r' with
    | automatic id' generation' at_' =>
      obtain rfl : id = id' := hid
      obtain ⟨hgeneration, hrun⟩ := cut_inj (underscore_notMem_generation generation)
        (underscore_notMem_generation generation') h
      rw [repr_eq_padded, repr_eq_padded] at hgeneration
      obtain rfl := padded_inj (List.cons.inj hgeneration).2
      obtain rfl := scheduleRunID_inj (List.cons.inj (List.append_cancel_left hrun)).2
      rfl
    | manual id' requestID' named' => exact nomatch h
  | manual id requestID named =>
    cases r' with
    | automatic id' generation' at_' => exact nomatch h
    | manual id' requestID' named' =>
      obtain rfl : id = id' := hid
      obtain rfl : requestID = requestID' := String.toList_inj.1 (List.append_cancel_left h)
      rfl

/-- The request ID of a manual occurrence goes on as the ID of the other's schedule does, up to the
end of the other's suffix. -/
def Continues (r r' : ScheduledRun) : Prop :=
  match r with
  | automatic _ _ _ => False
  | manual id _ _ => ∃ rest, r'.scheduleID.toList = id.toList ++ '_' :: rest ∧
      r.suffix = rest ++ '_' :: r'.suffix

/-- No end of an automatic occurrence's suffix looks like a suffix. -/
theorem automatic_suffix {id : String} {generation : Int} {at_ : Time} {rest : List Char}
    {r : ScheduledRun} : (automatic id generation at_).suffix ≠ rest ++ '_' :: r.suffix := by
  intro h
  rcases cut_cases (underscore_notMem_generation generation) h with ⟨-, hrun⟩ | ⟨rest, rfl, hrun⟩
  · cases r <;> exact nomatch hrun
  -- neither of the characters that a suffix begins with is in the time
  rcases cut_cases (by decide) hrun with ⟨-, hid⟩ | ⟨rest', -, hid⟩
  · have hmem : ∀ c ∈ r.suffix, c.isDigit = true ∨ c = '-' ∨ c = 'T' ∨ c = 'Z' := fun c hc =>
      mem_scheduleRunID (hid ▸ hc)
    cases r with
    | automatic => exact absurd (hmem 'g' (by simp [suffix])) (by decide)
    | manual => exact absurd (hmem 'm' (by simp [suffix])) (by decide)
  · have hunderscore := mem_scheduleRunID (t := at_) (c := '_') (by rw [hid]; simp)
    simp at hunderscore

theorem continues_of_append {r r' : ScheduledRun} (hne : r ≠ r') {rest : List Char}
    (hid : r'.scheduleID.toList = r.scheduleID.toList ++ rest)
    (h : '_' :: r.suffix = rest ++ '_' :: r'.suffix) : Continues r r' := by
  cases rest with
  | nil =>
    rw [List.append_nil] at hid
    exact absurd (suffix_inj (String.toList_inj.1 hid.symm) (List.cons.inj h).2) hne
  | cons c rest =>
    obtain ⟨rfl, htail⟩ := List.cons.inj h
    cases r with
    | automatic => exact absurd htail automatic_suffix
    | manual => exact ⟨rest, hid, htail⟩

theorem Continues.append {r r' : ScheduledRun} (h : Continues r r') :
    ∃ rest, r'.scheduleID.toList = r.scheduleID.toList ++ rest ∧
      '_' :: r.suffix = rest ++ '_' :: r'.suffix := by
  cases r with
  | automatic => exact h.elim
  | manual =>
    obtain ⟨rest, hid, hrest⟩ := h
    exact ⟨'_' :: rest, hid, congrArg _ hrest⟩

end ScheduledRun

/-- Two different occurrences have different job IDs, unless one of them is manual and its request
ID goes on as the other schedule's ID and the other's suffix do. -/
theorem scheduled_jobIDs_differ_iff (r r' : ScheduledRun) (hne : r ≠ r') (now now' : Time) :
    r.jobID now ≠ r'.jobID now' ↔ ¬ (r.Continues r' ∨ r'.Continues r) := by
  refine not_congr ?_
  rw [← String.toList_inj, ScheduledRun.jobID_toList, ScheduledRun.jobID_toList,
    List.append_right_inj, List.append_eq_append_iff]
  constructor
  · rintro (⟨rest, hid, h⟩ | ⟨rest, hid, h⟩)
    · exact .inl (ScheduledRun.continues_of_append hne hid h)
    · exact .inr (ScheduledRun.continues_of_append hne.symm hid h)
  · rintro (h | h)
    · exact .inl h.append
    · exact .inr h.append

/-- The second run of a schedule in its first generation, and a run on request. -/
theorem scheduled_jobIDs_differ_plain :
    (ScheduledRun.automatic "a" 1 60000000000).jobID 0 ≠
      (ScheduledRun.manual "a" "b" (by decide)).jobID 0 := by
  rw [scheduled_jobIDs_differ_iff _ _ (by simp)]
  simp [ScheduledRun.Continues, ScheduledRun.scheduleID]

/-- The request `b_manual_c` of the schedule `a` and the request `c` of the schedule `a_manual_b`
are given one job ID. -/
theorem scheduled_jobIDs_meet :
    (ScheduledRun.manual "a" "b_manual_c" (by decide)).jobID 0 =
      (ScheduledRun.manual "a_manual_b" "c" (by decide)).jobID 0 ∧
    ScheduleKey.validate ⟨"t", "a"⟩ = .ok () ∧
      ScheduleKey.validate ⟨"t", "a_manual_b"⟩ = .ok () := by
  decide +kernel

end JobDB
