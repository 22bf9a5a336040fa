import Mathlib

/-!
# Tasks, nodes and the clock

The data the scheduler works on: a `Task` as the caller writes it, the
`TaskSlot` that carries it inside the wheel, the `TaskInfo` an execution
copies out of it, and the errors the operations return.

Clock readings are natural numbers: nanoseconds since the zero `time.Time`
(1 January of year 1), so that `0` is the zero value and `IsZero` is
`t = 0`. Durations are integers of nanoseconds. A pointer to a node is a
`NodeRef`, an index into the heap of nodes, and `nil` is `none`; contexts
are pointers of the same kind. A function value is represented by its
identity, since nothing in the scheduler looks inside it, and a `float64`
by its 64 bits, since nothing computes with one.
-/

namespace Timewheel

/-! ## The clock -/

/-- A `time.Time`: nanoseconds since the zero value. -/
abbrev Time := ℕ

/-- A `time.Duration`, in nanoseconds. -/
abbrev Duration := ℤ

namespace Duration

/-- `time.Millisecond`. -/
def millisecond : Duration := 1000000

/-- `d.Milliseconds()`: Go divides toward zero. -/
def milliseconds (d : Duration) : ℤ := d.tdiv 1000000

end Duration

namespace Time

/-- The zero `time.Time{}`. -/
def zero : Time := 0

/-- `t.IsZero()`. -/
def isZero (t : Time) : Bool := t == zero

/-- The Unix epoch as a `Time`. -/
def unixEpoch : Time := 62135596800000000000

/-- `t.UnixMilli()`, for a reading not before the Unix epoch. -/
def unixMilli (t : Time) : ℕ := (t - unixEpoch) / 1000000

/-- `t.Add(d)`. -/
def add (t : Time) (d : Duration) : Time := ((t : ℤ) + d).toNat

/-- `t.Sub(u)`. Go clamps the difference to the range of a 64-bit
duration; every caller only compares it with a duration, and clamping
changes no such comparison. -/
def sub (t u : Time) : Duration := (t : ℤ) - (u : ℤ)

/-- The reading `m` milliseconds after the Unix epoch. -/
def ofMilli (m : ℕ) : Time := unixEpoch + m * 1000000

@[simp] theorem isZero_iff (t : Time) : t.isZero = true ↔ t = 0 := by
  simp [isZero, zero]

@[simp] theorem isZero_zero : Time.isZero zero = true := rfl

@[simp] theorem unixMilli_ofMilli (m : ℕ) : unixMilli (ofMilli m) = m := by
  simp [unixMilli, ofMilli]

theorem sub_nonneg_iff (t u : Time) : 0 ≤ sub t u ↔ u ≤ t := by
  simp [sub]

end Time

/-! ## Tasks -/

/-- `TaskMode`. A Go `int`, so a caller can pass a value outside the three
constants. -/
inductive TaskMode where
  | repeated
  | once
  | fixedTimes
  | other (n : ℤ)
  deriving DecidableEq, Repr

/-- The mode an `int` stands for. -/
def TaskMode.ofInt : ℤ → TaskMode
  | 0 => .repeated
  | 1 => .once
  | 2 => .fixedTimes
  | n => .other n

/-- `TaskPriority`: a Go `int`, lower values first. -/
abbrev TaskPriority := ℤ

/-- `TaskPriorityHigh`. -/
def taskPriorityHigh : TaskPriority := 0

/-- `TaskPriorityNormal`. -/
def taskPriorityNormal : TaskPriority := 1

/-- `TaskPriorityLow`. -/
def taskPriorityLow : TaskPriority := 2

/-- `Severity`: a Go `int`. -/
abbrev Severity := ℤ

/-- `AlertState`. -/
inductive AlertState where
  | pending
  | firing
  | resolved
  deriving DecidableEq, Repr

/-- A `map[string]string`; `none` is the nil map. -/
abbrev StringMap := Option (List (String × String))

/-- `AlarmResult`, its two floats as bits. -/
structure AlarmResult where
  value : UInt64
  threshold : UInt64
  isFiring : Bool
  deriving DecidableEq, Repr

/-- `AlarmResult{}`. -/
def AlarmResult.zero : AlarmResult := ⟨0, 0, false⟩

/-- The identity of a function value of type
`func(context.Context) AlarmResult`. -/
abbrev RunFn := ℕ

/-- `Task`; `run = none` is a nil function. -/
structure Task where
  id : String
  mode : TaskMode
  priority : TaskPriority
  interval : Duration
  times : ℤ
  run : Option RunFn
  description : String
  timeout : Duration
  severity : Severity
  forDuration : Duration
  repeatInterval : Duration
  labels : StringMap
  annotations : StringMap
  deriving DecidableEq, Repr

/-- A task with nothing but an ID, a mode and an interval. -/
def Task.plain (id : String) (mode : TaskMode) (interval : Duration) : Task where
  id := id
  mode := mode
  priority := taskPriorityNormal
  interval := interval
  times := 1
  run := some 0
  description := ""
  timeout := 0
  severity := 0
  forDuration := 0
  repeatInterval := 0
  labels := none
  annotations := none

/-! ## Nodes -/

/-- A pointer to a `taskSlot`. -/
abbrev NodeRef := ℕ

/-- A pointer to a `context.Context`. -/
abbrev CtxRef := ℕ

/-- `taskSlot`: the node that carries a task in a slot list. `cancel`
names the context it cancels. -/
structure TaskSlot where
  task : Option Task
  ctx : Option CtxRef
  cancel : Option CtxRef
  next : Option NodeRef
  prev : Option NodeRef
  slotIndex : ℕ
  addedAt : Time
  runAt : Time
  executed : ℕ
  alertState : AlertState
  pendingSince : Time
  lastFiredAt : Time
  lastResult : AlarmResult
  paused : Bool
  deriving DecidableEq, Repr

/-- `&taskSlot{}`, what the pool's `New` returns. -/
def TaskSlot.zero : TaskSlot where
  task := none
  ctx := none
  cancel := none
  next := none
  prev := none
  slotIndex := 0
  addedAt := Time.zero
  runAt := Time.zero
  executed := 0
  alertState := .pending
  pendingSince := Time.zero
  lastFiredAt := Time.zero
  lastResult := AlarmResult.zero
  paused := false

/-- `taskInfo`: the snapshot of a task an execution works with. -/
structure TaskInfo where
  id : String
  mode : TaskMode
  description : String
  times : ℤ
  interval : Duration
  timeout : Duration
  forDuration : Duration
  repeatInterval : Duration
  severity : Severity
  labels : StringMap
  annotations : StringMap
  deriving DecidableEq, Repr

/-- `copyTaskInfo`. -/
def Task.copyTaskInfo (task : Task) : TaskInfo where
  id := task.id
  mode := task.mode
  description := task.description
  times := task.times
  interval := task.interval
  timeout := task.timeout
  forDuration := task.forDuration
  repeatInterval := task.repeatInterval
  severity := task.severity
  labels := task.labels
  annotations := task.annotations

/-! ## Errors -/

/-- The errors of the scheduler: the sentinel values, a sentinel wrapped by
`WrapError`, and an error made from a text. -/
inductive Err where
  | intervalTooSmall
  | slotsTooFew
  | taskNotFound
  | taskAlreadyExists
  | taskIntervalInvalid
  | taskTimesInvalid
  | wheelNotRunning
  | invalidParam
  | contextCanceled
  | contextNil
  | wrap (context : String) (err : Err)
  | text (message : String)
  deriving DecidableEq, Repr

namespace Err

/-- `err.Error()`. -/
def error : Err → String
  | intervalTooSmall => "interval must be greater than 0"
  | slotsTooFew => "slots must be greater than 0"
  | taskNotFound => "task not found"
  | taskAlreadyExists => "task already exists"
  | taskIntervalInvalid => "task interval must be greater than 0"
  | taskTimesInvalid => "task times must be greater than 0 for FixedTimes mode"
  | wheelNotRunning => "timewheel is not running"
  | invalidParam => "invalid parameter"
  | contextCanceled => "context canceled"
  | contextNil => "task context is nil"
  | wrap context err => context ++ ": " ++ err.error
  | text message => message

end Err

end Timewheel
