import Mathlib.Algebra.Group.Int.Defs
import Mathlib.Algebra.Group.Nat.Defs
import Mathlib.Data.List.Sort
import Mathlib.Data.Rat.Defs

/-!
# Common vocabulary

Keys, clock readings, run policies and errors shared by the job database's
components (`pkg/jobdb/types.go`, `pkg/jobdb/worker_retry.go`,
`pkg/jobdb/errors.go`, `pkg/jobdb/goals.go`).

* `Time` is an instant in nanoseconds since the Unix epoch; Go's zero
  `time.Time` is the instant `Time.zero`.
* `blank` is `strings.TrimSpace(s) == ""`: every rune is white space in the
  sense of `unicode.IsSpace`.
* `Err` has one constructor for each sentinel error of the source; the texts a
  caller wraps around a sentinel are its argument, and `Err.message` renders
  them as `Error()` does.
-/

namespace JobDB

/-- An instant, in nanoseconds since the Unix epoch. -/
abbrev Time := Int

/-- Go's zero `time.Time`: midnight, January 1, year 1, UTC. -/
def Time.zero : Time := -62135596800 * 1000000000

/-- `unicode.IsSpace`. -/
def isSpace (c : Char) : Bool :=
  let n := c.toNat
  (0x09 ≤ n && n ≤ 0x0d) || n == 0x20 || n == 0x85 || n == 0xa0 || n == 0x1680 ||
    (0x2000 ≤ n && n ≤ 0x200a) || n == 0x2028 || n == 0x2029 || n == 0x202f || n == 0x205f ||
    n == 0x3000

/-- `strings.TrimSpace(s) == ""`. -/
def blank (s : String) : Bool := s.toList.all isSpace

/-- `%q`, for a text without characters that need an escape. -/
def quoted (text : String) : String := "\"" ++ text ++ "\""

/-- `strings.TrimSpace`. -/
def trimSpace (text : List Char) : List Char :=
  ((text.dropWhile isSpace).reverse.dropWhile isSpace).reverse

theorem dropWhile_isSpace_of_forall {text : List Char} (h : ∀ c ∈ text, isSpace c = false) :
    text.dropWhile isSpace = text := by
  cases text with
  | nil => rfl
  | cons c cs => exact List.dropWhile_cons_of_neg (by simp [h c (by simp)])

/-- A text without white space is not trimmed. -/
theorem trimSpace_of_forall {text : List Char} (h : ∀ c ∈ text, isSpace c = false) :
    trimSpace text = text := by
  unfold trimSpace
  rw [dropWhile_isSpace_of_forall h,
    dropWhile_isSpace_of_forall fun c hc => h c (List.mem_reverse.1 hc), List.reverse_reverse]

/-- `sort.Strings`. -/
def sortStrings (xs : List String) : List String := xs.insertionSort (· ≤ ·)

/-- `jobdb.JobKey`. -/
structure JobKey where
  tenantId : String
  jobId : String
deriving DecidableEq, Repr

/-- `JobKey.String`. -/
def JobKey.text (k : JobKey) : String := k.tenantId ++ "/" ++ k.jobId

/-- `jobdb.GoalKey`. -/
structure GoalKey where
  tenantId : String
  goalID : String
deriving DecidableEq, Repr

/-- `RetryPolicy`; the coefficient is a number, so not an infinity or NaN. -/
structure RetryPolicy where
  maximumAttempts : Int := 0
  initialInterval : Int := 0
  backoffCoefficient : Rat := 0
  maximumInterval : Int := 0
  nonRetryableErrorTypes : List String := []
deriving DecidableEq, Repr

/-- `RunPolicy`. -/
structure RunPolicy where
  totalTimeout : Option Int := none
  invocationTimeout : Option Int := none
  retry : RetryPolicy := {}
deriving DecidableEq, Repr

/-- `normalizeRetryPolicy`. -/
def normalizeRetryPolicy (p : RetryPolicy) : RetryPolicy :=
  let attempts := if p.maximumAttempts ≤ 0 then 1 else p.maximumAttempts
  let coefficient := if p.backoffCoefficient = 0 then 1 else p.backoffCoefficient
  { p with maximumAttempts := attempts, backoffCoefficient := coefficient }

/-- `normalizeTimeout`: zero stays, which turns a timeout off. -/
def normalizeTimeout (timeout : Option Int) : Option Int := timeout.filter (0 ≤ ·)

/-- `normalizeRunPolicy`. -/
def normalizeRunPolicy (p : RunPolicy) : RunPolicy where
  totalTimeout := normalizeTimeout p.totalTimeout
  invocationTimeout := normalizeTimeout p.invocationTimeout
  retry := normalizeRetryPolicy p.retry

/-- `CellError`: the code and the HTTP status of a refused cell request. -/
structure CellError where
  code : String
  status : Nat
deriving DecidableEq, Repr

/-- The errors of the modelled operations. -/
inductive Err where
  | jobNotFound
  | goalNotFound
  | goalConflict
  | invalidDependency (detail : String)
  | dependencyWaitNotFound
  | dependencyWaitConflict
  | dependencyCycle
  | conflict (detail : String)
  | executionLeaseLost
  | chapterNotFound
  | cell (e : CellError)
  /-- `NewExistingJobMismatchError`. -/
  | existingJobMismatch (detail : String)
  /-- `ChapterApplicationPayloadError`, with its text. -/
  | payloadTooLarge (text : String)
  | invalid (text : String)
  /-- A failure of the storage layer itself. -/
  | store (text : String)
  /-- The bound on a recursion of the model was reached; the source has no such
  bound. -/
  | outOfFuel
deriving DecidableEq, Repr

/-- A sentinel's text, followed by what `fmt.Errorf("%w: …")` puts after it. -/
def Err.wrapped (base detail : String) : String :=
  if detail = "" then base else base ++ ": " ++ detail

/-- `Error()`. -/
def Err.message : Err → String
  | .jobNotFound => "job not found"
  | .goalNotFound => "goal not found"
  | .goalConflict => "goal conflict"
  | .invalidDependency d => wrapped "invalid goal or dependency request" d
  | .dependencyWaitNotFound => "dependency wait not found"
  | .dependencyWaitConflict => "dependency wait conflict"
  | .dependencyCycle => "dependency cycle"
  | .conflict d => wrapped "workflow state conflict" d
  | .executionLeaseLost => "execution lease lost"
  | .chapterNotFound => "chapter not found"
  | .cell e => e.code
  | .existingJobMismatch d => if d = "" then "existing job does not match request" else d
  | .payloadTooLarge t => t
  | .invalid t => t
  | .store t => t
  | .outOfFuel => "recursion bound reached"

end JobDB
