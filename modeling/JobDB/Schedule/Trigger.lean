import JobDB.Schedule.Types

/-!
# When a schedule fires

`pkg/jobdb/schedule_trigger.go`. An interval trigger fires a fixed time after the
instant it is asked for; a cron trigger at the next minute that its five fields
match, in the trigger's time zone. `Truncate` rounds down to a whole minute of
absolute time, so that only the match itself looks at the zone.
-/

namespace JobDB

/-! ## Cron expressions -/

/-- `strings.Fields`. -/
def fieldsOf (text : List Char) : List (List Char) :=
  ((text.map fun c => if isSpace c then ' ' else c).splitOn ' ').filter (· ≠ [])

/-- The value of decimal digits. -/
def digitsValue (digits : List Char) : Int :=
  digits.foldl (fun n c => 10 * n + (c.toNat - '0'.toNat : Nat)) 0

/-- `strconv.Atoi` on an `int` of 64 bits. -/
def atoi (text : List Char) : Option Int :=
  let (negative, digits) :=
    match text with
    | '-' :: digits => (true, digits)
    | '+' :: digits => (false, digits)
    | digits => (false, digits)
  let value := if negative then -digitsValue digits else digitsValue digits
  if digits ≠ [] ∧ digits.all Char.isDigit ∧ -2 ^ 63 ≤ value ∧ value < 2 ^ 63 then some value
  else none

def quotedPart (text : List Char) : String := quoted (String.ofList text)

/-- `cronRange` for a range of two values. -/
def cronSpan (lower upper : Int) : List (List Char) → Except Err (Int × Int)
  | [first, last] =>
    match atoi first, atoi last with
    | none, _ => .error (.invalid ("invalid range start " ++ quotedPart first))
    | some _, none => .error (.invalid ("invalid range end " ++ quotedPart last))
    | some start, some stop =>
      if stop < start then .error (.invalid "range start greater than end")
      else if start < lower ∨ upper < stop then .error (.invalid "range out of bounds")
      else .ok (start, stop)
  | pieces => .error (.invalid ("invalid range " ++ quotedPart (List.intercalate ['-'] pieces)))

/-- `cronRange`. -/
def cronRange (part : List Char) (lower upper : Int) : Except Err (Int × Int) :=
  if part = ['*'] then .ok (lower, upper)
  else if '-' ∈ part then cronSpan lower upper (part.splitOn '-')
  else
    match atoi part with
    | none => .error (.invalid ("invalid value " ++ quotedPart part))
    | some value =>
      if value < lower ∨ upper < value then
        .error (.invalid ("value " ++ value.repr ++ " out of bounds"))
      else .ok (value, value)

/-- The part of a segment before its step, and the step. -/
def cronStep (part : List Char) : Except Err (List Char × Int) :=
  if '/' ∈ part then
    match part.splitOn '/' with
    | [range, step] =>
      match atoi step with
      | some n =>
        if 0 < n then .ok (range, n) else .error (.invalid ("invalid step " ++ quotedPart step))
      | none => .error (.invalid ("invalid step " ++ quotedPart step))
    | _ => .error (.invalid ("invalid step " ++ quotedPart part))
  else .ok (part, 1)

/-- The loop of a segment, for so many rounds. The addition is that of an `int` and wraps round. -/
def cronLoop (stop step : Int) : Nat → Int → List Int
  | 0, _ => []
  | rounds + 1, v =>
    if v ≤ stop then v :: cronLoop stop step rounds (Int.bmod (v + step) (2 ^ 64)) else []

/-- The values that a segment adds. A loop that makes `2 ^ 64` rounds is back where it began, and
adds nothing new in the rounds that follow. -/
def cronValues (start stop step : Int) : List Int := cronLoop stop step (2 ^ 64) start

/-- One segment of a field. -/
def parseCronSegment (part : List Char) (lower upper : Int) (sundayAlias : Bool) :
    Except Err (List Int) := do
  if trimSpace part = [] then .error (.invalid "empty segment")
  let (range, step) ← cronStep (trimSpace part)
  let (start, stop) ← cronRange range lower upper
  .ok ((cronValues start stop step).map fun v => if sundayAlias ∧ v = 7 then 0 else v)

/-- `parseCronField`. -/
def parseCronField (field : List Char) (lower upper : Int) (sundayAlias : Bool) :
    Except Err (List Int) := do
  let segments ← (field.splitOn ',').mapM fun part => parseCronSegment part lower upper sundayAlias
  if segments.flatten = [] then .error (.invalid "empty field") else .ok segments.flatten

/-- `cronSpec`: the values each field admits. -/
structure CronSpec where
  minutes : List Int
  hours : List Int
  days : List Int
  months : List Int
  weekdays : List Int
deriving DecidableEq, Repr

/-- A field's error under its name. -/
def cronFieldError {α : Type} (name : String) : Except Err α → Except Err α
  | .ok a => .ok a
  | .error e => .error (.invalid ("cron " ++ name ++ ": " ++ e.message))

/-- `parseCronSpec`. -/
def parseCronSpec (expr : String) : Except Err CronSpec :=
  match fieldsOf expr.toList with
  | [minute, hour, day, month, weekday] => do
    let minutes ← cronFieldError "minute" (parseCronField minute 0 59 false)
    let hours ← cronFieldError "hour" (parseCronField hour 0 23 false)
    let days ← cronFieldError "day" (parseCronField day 1 31 false)
    let months ← cronFieldError "month" (parseCronField month 1 12 false)
    let weekdays ← cronFieldError "weekday" (parseCronField weekday 0 7 true)
    .ok ⟨minutes, hours, days, months, weekdays⟩
  | _ => .error (.invalid "cron expression must have five fields")

/-- `cronSpec.matches`. -/
def CronSpec.admits (s : CronSpec) (c : Clock) : Bool :=
  s.minutes.contains c.minute && s.hours.contains c.hour && s.days.contains c.day &&
    s.months.contains c.month && s.weekdays.contains c.weekday

/-! ## Fire times -/

/-- A minute, in nanoseconds. -/
def minute : Int := 60 * 1000000000

/-- `Truncate`. -/
def truncate (unit : Int) (t : Time) : Time := t - t % unit

/-- How many minutes the search looks at. -/
def cronSearchWindow : Nat := 366 * 24 * 60 * 5

/-- The cron search, minute by minute from `cursor` on. -/
def searchCron (spec : CronSpec) (clock : Time → Clock) (endAt : Option Time) :
    Nat → Time → Except Err (Option Time)
  | 0, _ => .error (.invalid "no cron fire time found within search window")
  | n + 1, cursor =>
    if endAt.any (· < cursor) then .ok none
    else if spec.admits (clock cursor) then .ok (some cursor)
    else searchCron spec clock endAt n (cursor + minute)

/-- Where the cron search starts. -/
def cronStart (trigger : ScheduleTrigger) (after : Time) : Time :=
  let cursor := truncate minute after + minute
  match trigger.startAt with
  | some start => if cursor < start then truncate minute start else cursor
  | none => cursor

/-- The clock of the trigger's zone. -/
def triggerClock (B : ScheduleLib) (trigger : ScheduleTrigger) : Except Err (Time → Clock) :=
  if blank trigger.timezone then .ok utcClock else B.location trigger.timezone

/-- `EndAt`, which Go's zero time leaves open in the cron search. -/
def cronEnd (trigger : ScheduleTrigger) : Option Time :=
  trigger.endAt.filter (· ≠ Time.zero)

def unsupportedTrigger {α : Type} (kind : String) : Except Err α :=
  .error (.invalid ("unsupported trigger kind \"" ++ kind ++ "\""))

/-- `NextScheduleFire`. -/
def nextScheduleFire (B : ScheduleLib) (trigger : ScheduleTrigger) (after : Time) :
    Except Err (Option Time) :=
  match trigger.kind with
  | .interval =>
    if trigger.interval ≤ 0 then
      .error (.invalid "interval trigger requires a positive interval")
    else
      let next := max (after + trigger.interval) (trigger.startAt.getD (after + trigger.interval))
      .ok (if trigger.endAt.any (· < next) then none else some next)
  | .cron => do
    let spec ← parseCronSpec trigger.expression
    let clock ← triggerClock B trigger
    searchCron spec clock (cronEnd trigger) cronSearchWindow (cronStart trigger after)
  | .other kind => unsupportedTrigger kind

/-- `InitialScheduleFire`. -/
def initialScheduleFire (B : ScheduleLib) (trigger : ScheduleTrigger) (now : Time) :
    Except Err (Option Time) :=
  match trigger.kind with
  | .interval =>
    let next := max now (trigger.startAt.getD now)
    .ok (if trigger.endAt.any (· < next) then none else some next)
  | .cron =>
    match trigger.startAt with
    | some start =>
      nextScheduleFire B trigger (if now < start then start - minute else now - 1)
    | none => nextScheduleFire B trigger (now - 1)
  | .other kind => unsupportedTrigger kind

end JobDB
