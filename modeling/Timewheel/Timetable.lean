import Timewheel.Effects
import Timewheel.Lib.Simulation
import Mathlib.Data.Set.Card

/-!
# The timetable

What a time wheel is for, without nodes, lists, maps, pools and contexts: a
table that holds a `Timer` under each registered ID, and the executions that
are under way. A tick picks the timers of its slot that are due; an execution
looks up the timer it was picked for, and does nothing when that timer is gone
– registrations are numbered, so a timer set anew under the same ID is another
one.

The table is a specification: `Next` says which answers a request may get and
which tables it may lead to. Three things are left open in it. The number of a
new registration need only be a fresh one. In which order timers of the same
priority are picked is not said. And a timer may start out paused once a timer
has been dropped while paused: the scheduler reuses the node with the flag.
-/

namespace Timewheel

open TimeWheel (checkTask)

/-! ## Timers -/

/-- A registered task, and what became of it. -/
structure Timer where
  registration : ℕ
  task : Task
  slot : ℕ
  addedAt : Time
  runAt : Time
  executed : ℕ
  alertState : AlertState
  pendingSince : Time
  lastFiredAt : Time
  lastResult : AlarmResult
  paused : Bool

namespace Timer

/-- A timer that has just been set. -/
def set (cfg : Config) (r : ℕ) (task : Task) (now : Time) (paused : Bool) : Timer where
  registration := r
  task := task
  slot := slotIndexFor cfg.interval cfg.slotNum now task.interval
  addedAt := now
  runAt := now.add task.interval
  executed := 0
  alertState := .pending
  pendingSince := Time.zero
  lastFiredAt := Time.zero
  lastResult := AlarmResult.zero
  paused := paused

/-- The result of an execution is noted. -/
def note (x : Timer) (result : AlarmResult) : Timer :=
  { x with executed := x.executed + 1, lastResult := result }

/-- What the alert state machine sees of a timer. -/
def alertNode (x : Timer) : TaskSlot :=
  { TaskSlot.zero with
    task := some x.task
    alertState := x.alertState
    pendingSince := x.pendingSince
    lastFiredAt := x.lastFiredAt }

/-- The evaluation of a result: the alert state machine moves, and the sinks are
called. -/
def evaluate (sinks : AlertSinks) (x : Timer) (result : AlarmResult) (now : Time) :
    Timer × List AlertEvent :=
  let outcome := handleAlertStateLocked sinks x.alertNode x.task.copyTaskInfo result now
  ({ x with
    alertState := outcome.node.alertState
    pendingSince := outcome.node.pendingSince
    lastFiredAt := outcome.node.lastFiredAt }, outcome.events)

/-- Whether the task is to run once more. -/
def runsAgain (x : Timer) : Bool :=
  match x.task.mode with
  | .once => false
  | .fixedTimes => decide ((x.executed : ℤ) < x.task.times)
  | .repeated => true
  | .other _ => true

/-- The timer is set for its next run, an interval after `now`. -/
def again (cfg : Config) (x : Timer) (now : Time) : Timer :=
  { x with
    runAt := now.add x.task.interval
    slot := slotIndexFor cfg.interval cfg.slotNum now x.task.interval }

/-- A timer that is not paused any more counts from `now`. -/
def resume (x : Timer) (now : Time) : Timer :=
  if x.paused then { x with paused := false, runAt := now.add x.task.interval } else x

end Timer

/-! ## The table -/

/-- Where an execution stands. -/
inductive JobStage where
  | collected
  | running
  | finished (result : AlarmResult)

/-- The function of the task is running. -/
def JobStage.isRunning : JobStage → Bool
  | .running => true
  | _ => false

/-- An execution of the timer that was set under `id` as `registration`, picked
by the tick at `now`. -/
structure TimerJob where
  id : String
  registration : ℕ
  now : Time
  stage : JobStage

/-- The function of the registration `r` is running. -/
def TimerJob.runs (r : ℕ) (job : TimerJob) : Bool :=
  job.registration == r && job.stage.isRunning

/-- The timers under their IDs, and the executions under way. -/
structure Timetable where
  timers : String → Option Timer
  /-- Registrations from this one on are fresh. -/
  next : ℕ
  cursor : ℕ
  /-- A timer has been dropped while paused. -/
  stale : Prop
  jobs : List TimerJob
  /-- The calls of task functions, with their registrations. -/
  calls : List (ℕ × Task)
  /-- The registrations whose function has panicked. -/
  panicked : List ℕ
  /-- The calls to the alert sinks. -/
  events : List AlertEvent

namespace Timetable

/-- A table without timers. -/
def empty (cursor : ℕ) : Timetable := ⟨fun _ => none, 0, cursor, False, [], [], [], []⟩

/-- The timer of an execution, if it is still set. -/
def find (t : Timetable) (job : TimerJob) : Option Timer :=
  (t.timers job.id).filter (fun x => decide (x.registration = job.registration))

/-- The timer under `id` is replaced. -/
def put (t : Timetable) (id : String) (x : Timer) : Timetable :=
  { t with timers := Function.update t.timers id (some x) }

/-- The timer under `id` is dropped. -/
def drop (t : Timetable) (id : String) : Timetable :=
  { t with
    timers := Function.update t.timers id none
    stale := t.stale ∨ ∃ x, t.timers id = some x ∧ x.paused = true }

/-- All timers are dropped. -/
def clear (t : Timetable) : Timetable :=
  { t with
    timers := fun _ => none
    stale := t.stale ∨ ∃ id x, t.timers id = some x ∧ x.paused = true }

section Lookup

variable (t : Timetable) (id : String) (x : Timer) {id' : String}

@[simp] theorem timers_put_self : (t.put id x).timers id = some x := Function.update_self _ _ _

@[simp] theorem timers_drop_self : (t.drop id).timers id = none := Function.update_self _ _ _

theorem timers_put_of_ne (hid : id' ≠ id) : (t.put id x).timers id' = t.timers id' :=
  Function.update_of_ne hid _ _

theorem timers_drop_of_ne (hid : id' ≠ id) : (t.drop id).timers id' = t.timers id' :=
  Function.update_of_ne hid _ _

end Lookup

/-- A result of the timer `x` is evaluated, and the timer is set for its next run
or dropped. -/
def completed (cfg : Config) (t : Timetable) (x : Timer) (result : AlarmResult) (now : Time) :
    Timetable :=
  let (y, events) := x.evaluate cfg.sinks result now
  { (if x.runsAgain then t.put x.task.id (y.again cfg now) else t.drop x.task.id) with
    events := t.events ++ events }

/-- The registered IDs. -/
def ids (t : Timetable) : Set String := {id | t.timers id ≠ none}

/-- **The timers a tick at `now` picks**: those of its slot that are due, each
once, the urgent ones first. -/
structure Picked (cfg : Config) (t : Timetable) (now : Time) (due : List Timer) : Prop where
  nodup : (due.map Timer.registration).Nodup
  mem : ∀ x, x ∈ due ↔ t.timers x.task.id = some x
    ∧ x.slot = tickSlot cfg.slotNum t.cursor ∧ x.runAt ≤ now
  sorted : due.Pairwise (fun x y => x.task.priority ≤ y.task.priority)

end Timetable

/-! ## What may be observed -/

/-- What is asked of the scheduler, and what happens to its executions. -/
inductive Request where
  | addTask (task : Option Task) (now : Time)
  | removeTask (taskID : String)
  | updateTask (task : Option Task) (now backAt : Time)
  | pauseTask (taskID : String)
  | resumeTask (taskID : String) (now : Time)
  | clearAllTasks
  | tick (now : Time)
  | reject (i : ℕ)
  | start (i : ℕ)
  | finish (i : ℕ) (result : AlarmResult)
  | panic (i : ℕ)
  | complete (i : ℕ)

/-- What a call returns. -/
inductive Response where
  | silent
  | returned (err : Option Err)
  | cleared (count : ℕ)

namespace Timetable

variable (cfg : Config) (t : Timetable)

/-- **Adding a task.** -/
inductive Adds (now : Time) : Option Task → Option Err → Timetable → Prop where
  | isNil : Adds now none (some .invalidParam) t
  | unfit {task : Task} {err : Err} (check : checkTask task = .error err) :
      Adds now (some task) (some err) t
  | taken {task task' : Task} (check : checkTask task = .ok task')
      (held : t.timers task'.id ≠ none) : Adds now (some task) (some .taskAlreadyExists) t
  | added {task task' : Task} {r : ℕ} {paused : Bool} (check : checkTask task = .ok task')
      (free : t.timers task'.id = none) (fresh : t.next ≤ r)
      (clean : paused = true → t.stale) :
      Adds now (some task) none
        { t.put task'.id (.set cfg r task' now paused) with next := r + 1 }

/-- **Updating a task**: the timer is replaced by a new one, or by one that is
set anew for the old task when the new task is unfit. -/
inductive Updates (now backAt : Time) : Option Task → Option Err → Timetable → Prop where
  | isNil : Updates now backAt none (some .invalidParam) t
  | invalid {task : Task} (h : task.id = "" ∨ task.run = none) :
      Updates now backAt (some task) (some .invalidParam) t
  | missing {task : Task} (id_ne : task.id ≠ "") (run_ne : task.run ≠ none)
      (free : t.timers task.id = none) : Updates now backAt (some task) (some .taskNotFound) t
  | updated {task : Task} {x : Timer} {t' : Timetable} (held : t.timers task.id = some x)
      (add : Adds cfg (t.drop task.id) now (some task) none t') :
      Updates now backAt (some task) none t'
  | rolledBack {task : Task} {x : Timer} {err : Err} {t' : Timetable}
      (held : t.timers task.id = some x) (run_ne : task.run ≠ none)
      (unfit : checkTask task = .error err)
      (add : Adds cfg (t.drop task.id) backAt (some x.task) none t') :
      Updates now backAt (some task)
        (some (.wrap ("add new task failed for task " ++ task.id) err)) t'

/-- **The specification.** -/
inductive Next : Request × Response → Timetable → Prop where
  | addTask {task : Option Task} {now : Time} {err : Option Err} {t' : Timetable}
      (add : Adds cfg t now task err t') : Next (.addTask task now, .returned err) t'
  | updateTask {task : Option Task} {now backAt : Time} {err : Option Err} {t' : Timetable}
      (update : Updates cfg t now backAt task err t') :
      Next (.updateTask task now backAt, .returned err) t'
  | removeMissing {id : String} (free : t.timers id = none) :
      Next (.removeTask id, .returned (some (missingErr id))) t
  | removeTask {id : String} {x : Timer} (held : t.timers id = some x) :
      Next (.removeTask id, .returned none) (t.drop id)
  | pauseMissing {id : String} (free : t.timers id = none) :
      Next (.pauseTask id, .returned (some (missingErr id))) t
  | pauseTask {id : String} {x : Timer} (held : t.timers id = some x) :
      Next (.pauseTask id, .returned none) (t.put id { x with paused := true })
  | resumeMissing {id : String} {now : Time} (free : t.timers id = none) :
      Next (.resumeTask id now, .returned (some (missingErr id))) t
  | resumeTask {id : String} {now : Time} {x : Timer} (held : t.timers id = some x) :
      Next (.resumeTask id now, .returned none) (t.put id (x.resume now))
  | clearAllTasks : Next (.clearAllTasks, .cleared t.ids.ncard) t.clear
  | tick {now : Time} {due : List Timer} (picked : t.Picked cfg now due) :
      Next (.tick now, .silent)
        { t with
          cursor := t.cursor + 1
          jobs := t.jobs ++ due.map (fun x => ⟨x.task.id, x.registration, now, .collected⟩) }
  | reject {i : ℕ} {job : TimerJob} (here : t.jobs[i]? = some job)
      (stage : job.stage = .collected) :
      Next (.reject i, .silent) { t with jobs := t.jobs.eraseIdx i }
  /-- The timer is gone, or paused. -/
  | skip {i : ℕ} {job : TimerJob} (here : t.jobs[i]? = some job)
      (stage : job.stage = .collected) (idle : ∀ x, t.find job = some x → x.paused = true) :
      Next (.start i, .silent) { t with jobs := t.jobs.eraseIdx i }
  | start {i : ℕ} {job : TimerJob} {x : Timer} (here : t.jobs[i]? = some job)
      (stage : job.stage = .collected) (held : t.find job = some x) (on : x.paused = false) :
      Next (.start i, .silent)
        { t with
          jobs := t.jobs.set i { job with stage := .running }
          calls := t.calls ++ [(x.registration, x.task)] }
  | finishGone {i : ℕ} {job : TimerJob} {result : AlarmResult} (here : t.jobs[i]? = some job)
      (stage : job.stage = .running) (gone : t.find job = none) :
      Next (.finish i result, .silent) { t with jobs := t.jobs.eraseIdx i }
  | finish {i : ℕ} {job : TimerJob} {x : Timer} {result : AlarmResult}
      (here : t.jobs[i]? = some job) (stage : job.stage = .running)
      (held : t.find job = some x) :
      Next (.finish i result, .silent)
        { t.put job.id (x.note result) with
          jobs := t.jobs.set i { job with stage := .finished result } }
  | panic {i : ℕ} {job : TimerJob} (here : t.jobs[i]? = some job)
      (stage : job.stage = .running) :
      Next (.panic i, .silent)
        { t with
          jobs := t.jobs.eraseIdx i
          panicked := job.registration :: t.panicked }
  | completeGone {i : ℕ} {job : TimerJob} {result : AlarmResult} (here : t.jobs[i]? = some job)
      (stage : job.stage = .finished result) (gone : t.find job = none) :
      Next (.complete i, .silent) { t with jobs := t.jobs.eraseIdx i }
  | complete {i : ℕ} {job : TimerJob} {x : Timer} {result : AlarmResult}
      (here : t.jobs[i]? = some job) (stage : job.stage = .finished result)
      (held : t.find job = some x) :
      Next (.complete i, .silent)
        { t.completed cfg x result job.now with jobs := t.jobs.eraseIdx i }

/-! ### What a call leaves alone -/

variable {cfg t} {t' : Timetable} {now backAt : Time} {task : Option Task} {err : Option Err}

/-- The executions and what they have done. -/
structure SameRun (t t' : Timetable) : Prop where
  jobs : t'.jobs = t.jobs
  calls : t'.calls = t.calls
  panicked : t'.panicked = t.panicked

theorem Adds.sameRun (h : Adds cfg t now task err t') : SameRun t t' := by
  cases h with
  | isNil => exact ⟨rfl, rfl, rfl⟩
  | unfit check => exact ⟨rfl, rfl, rfl⟩
  | taken check held => exact ⟨rfl, rfl, rfl⟩
  | added check free fresh clean => exact ⟨rfl, rfl, rfl⟩

theorem Updates.sameRun (h : Updates cfg t now backAt task err t') : SameRun t t' := by
  cases h with
  | isNil => exact ⟨rfl, rfl, rfl⟩
  | invalid h => exact ⟨rfl, rfl, rfl⟩
  | missing id_ne run_ne free => exact ⟨rfl, rfl, rfl⟩
  | updated held add =>
    have h := add.sameRun
    exact ⟨h.jobs, h.calls, h.panicked⟩
  | rolledBack held run_ne unfit add =>
    have h := add.sameRun
    exact ⟨h.jobs, h.calls, h.panicked⟩

/-- **What a call does to the timer under one ID**: it keeps it, drops it, sets a
new one, or pauses or resumes it. -/
inductive Touched (cfg : Config) (t t' : Timetable) (id : String) : Prop where
  | kept (eq : t'.timers id = t.timers id)
  | dropped (gone : t'.timers id = none)
  | set {r : ℕ} {task : Task} {now : Time} {paused : Bool} (fresh : t.next ≤ r)
      (old : r < t'.next) (check : checkTask task = .ok task) (id_eq : task.id = id)
      (eq : t'.timers id = some (.set cfg r task now paused))
  | flagged {x : Timer} {paused : Bool} {runAt : Time} (held : t.timers id = some x)
      (eq : t'.timers id = some { x with paused := paused, runAt := runAt })

/-- **What a call leaves alone**, and what it does to the timers. -/
structure Called (cfg : Config) (t t' : Timetable) : Prop extends SameRun t t' where
  next : t.next ≤ t'.next
  cursor : t'.cursor = t.cursor
  events : t'.events = t.events
  timers : ∀ id, Touched cfg t t' id
  /-- Under one ID alone something else than dropping a timer is done. -/
  once : ∃ id, ∀ id', id' ≠ id → t'.timers id' = t.timers id' ∨ t'.timers id' = none

end Timetable

/-- The requests that are calls. -/
def Request.isCall : Request → Bool
  | .addTask _ _ => true
  | .removeTask _ => true
  | .updateTask _ _ _ => true
  | .pauseTask _ => true
  | .resumeTask _ _ => true
  | .clearAllTasks => true
  | _ => false

/-- The time of a tick. -/
def Request.tickTime : Request → Option Time
  | .tick now => some now
  | _ => none

end Timewheel
